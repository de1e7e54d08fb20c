import Nx508j.Lib.Keyed

/-! # Arrays of records with a key

An array of which the first `n` entries are in use, as a list of records: what a search from the
front finds, and what becomes of the list when an entry is added at the end, changed in its place or
removed by moving down the entries after it. -/

namespace Nx508j.Lib

open Function

section KeyedArray

variable {α κ : Type} [DecidableEq κ] {key : α → κ} {n i : Nat} {slots slots' : Nat → α} {k : κ}

/-- The entries in use. -/
def live (n : Nat) (slots : Nat → α) : List α := (List.range n).map slots

variable (key n slots k) in
/-- The first entry in use with the key. -/
def indexOf? : Option Nat := (List.range n).find? fun i => key (slots i) = k

@[simp] theorem length_live : (live n slots).length = n := by simp [live]

theorem live_congr (h : ∀ i < n, slots' i = slots i) : live n slots' = live n slots :=
  List.map_congr_left fun i hi => h i (List.mem_range.1 hi)

theorem live_succ : live (n + 1) slots = live n slots ++ [slots n] := by
  simp [live, List.range_succ]

theorem indexOf?_eq_some : indexOf? key n slots k = some i ↔
    i < n ∧ key (slots i) = k ∧ ∀ j < i, key (slots j) ≠ k := by
  simp only [indexOf?, List.find?_range_eq_some, decide_eq_true_eq, List.mem_range,
    Bool.not_eq_true', decide_eq_false_iff_not]
  tauto

theorem record_live : record key (live n slots) k = (indexOf? key n slots k).map slots := by
  rw [record, live, List.find?_map]
  rfl

theorem live_add (m : Nat) :
    live (n + m) slots = live n slots ++ live m fun j => slots (n + j) := by
  simp [live, List.range_add, Function.comp_def]

/-- The list around an entry. -/
theorem live_split (hi : i < n) :
    live n slots = live i slots ++ slots i :: live (n - (i + 1)) fun j => slots (i + 1 + j) := by
  obtain ⟨m, rfl⟩ := Nat.exists_eq_add_of_le hi
  rw [Nat.succ_eq_add_one, Nat.add_sub_cancel_left, live_add, live_succ, List.append_assoc,
    List.singleton_append]

omit [DecidableEq κ] in
theorem key_not_mem_live (h : ∀ j < i, key (slots j) ≠ k) : k ∉ (live i slots).map key := by
  simpa [live] using h

theorem amend_append {f : α → α} {l₁ l₂ : List α} {x : α} (hl : k ∉ l₁.map key) (hx : key x = k) :
    amend key f k (l₁ ++ x :: l₂) = l₁ ++ f x :: l₂ := by
  induction l₁ with
  | nil => simp [amend, hx]
  | cons y l₁ ih =>
    obtain ⟨hy, hl⟩ : k ≠ key y ∧ k ∉ l₁.map key := by simpa using hl
    rw [List.cons_append, amend, if_neg (Ne.symm hy), ih hl, List.cons_append]

theorem discard_append {l₁ l₂ : List α} {x : α} (hl : k ∉ l₁.map key) (hx : key x = k) :
    discard key (l₁ ++ x :: l₂) k = l₁ ++ l₂ := by
  induction l₁ with
  | nil => simp [discard, hx]
  | cons y l₁ ih =>
    obtain ⟨hy, hl⟩ : k ≠ key y ∧ k ∉ l₁.map key := by simpa using hl
    rw [List.cons_append, discard, List.eraseP_cons_of_neg (by simpa using Ne.symm hy),
      List.cons_append]
    exact congrArg (y :: ·) (ih hl)

/-- The entry that is found is changed. -/
theorem live_amend {f : α → α} (hi : indexOf? key n slots k = some i)
    (h : ∀ j < n, slots' j = if j = i then f (slots j) else slots j) :
    live n slots' = amend key f k (live n slots) := by
  obtain ⟨hlt, hkey, hbefore⟩ := indexOf?_eq_some.1 hi
  have hsame : ∀ j < n, j ≠ i → slots' j = slots j := fun j hj hne => by rw [h j hj, if_neg hne]
  have hbelow : live i slots' = live i slots :=
    live_congr fun j hj => hsame j (by omega) (by omega)
  have habove : (live (n - (i + 1)) fun j => slots' (i + 1 + j)) =
      live (n - (i + 1)) fun j => slots (i + 1 + j) :=
    live_congr fun j hj => hsame (i + 1 + j) (by omega) (by omega)
  rw [live_split hlt, live_split hlt, amend_append (key_not_mem_live hbefore) hkey, h i hlt,
    if_pos rfl, hbelow, habove]

/-- The entry that is found is removed, and those after it move down. -/
theorem live_discard (hi : indexOf? key n slots k = some i)
    (h : ∀ j, j + 1 < n → slots' j = if j < i then slots j else slots (j + 1)) :
    live (n - 1) slots' = discard key (live n slots) k := by
  obtain ⟨hlt, hkey, hbefore⟩ := indexOf?_eq_some.1 hi
  have hbelow : live i slots' = live i slots :=
    live_congr fun j hj => by rw [h j (by omega), if_pos hj]
  have habove : (live (n - (i + 1)) fun j => slots' (i + j)) =
      live (n - (i + 1)) fun j => slots (i + 1 + j) := by
    refine live_congr fun j hj => ?_
    rw [h (i + j) (by omega), if_neg (by omega), Nat.add_right_comm]
  have hn : n - 1 = i + (n - (i + 1)) := by omega
  rw [live_split hlt, discard_append (key_not_mem_live hbefore) hkey, hn, live_add, hbelow, habove]

/-! ## Moving down -/

/-- The loop that moves `k` entries down, to those from `i` on. What an entry becomes is told by what
    it was and by the next one. -/
def shiftDown (f : α → α → α) : Nat → Nat → (Nat → α) → Nat → α
  | 0, _, slots => slots
  | k + 1, i, slots =>
    shiftDown f k (i + 1) (update slots i (f (slots i) (slots (i + 1))))

omit [DecidableEq κ] in
theorem shiftDown_apply (f : α → α → α) (m i : Nat) (slots : Nat → α) (j : Nat) :
    shiftDown f m i slots j =
      if i ≤ j ∧ j < i + m then f (slots j) (slots (j + 1)) else slots j := by
  induction m generalizing i slots with
  | zero =>
    rw [if_neg (by omega)]
    rfl
  | succ m ih =>
    rw [shiftDown, ih]
    by_cases hj : i ≤ j
    · rcases Nat.eq_or_lt_of_le hj with rfl | hlt
      · rw [if_neg (by omega), if_pos (by omega), update_self]
      · rw [update_of_ne (by omega), update_of_ne (by omega)]
        simp only [show i + 1 ≤ j ↔ i ≤ j by omega, show i + 1 + m = i + (m + 1) by omega]
    · rw [if_neg (by omega), if_neg (by omega), update_of_ne (by omega)]

end KeyedArray

end Nx508j.Lib
