import Mathlib.Data.List.Nodup

/-! # Lists of records with a key

A list that a program searches from the front for a record with a given key, and then changes or
removes the record it found. With at most one record for each key the list is a finite map. -/

namespace Nx508j.Lib

section Keyed

variable {α κ : Type} [DecidableEq κ] (key : α → κ)

/-- The first record with the key `k`. -/
def record (l : List α) (k : κ) : Option α := l.find? fun x => key x = k

/-- Apply `f` to the first record with the key `k`. -/
def amend (f : α → α) (k : κ) : List α → List α
  | [] => []
  | x :: l => if key x = k then f x :: l else x :: amend f k l

/-- Remove the first record with the key `k`. -/
def discard (l : List α) (k : κ) : List α := l.eraseP fun x => key x = k

variable {key}

variable {l : List α} {k : κ} {x : α}

theorem key_of_record (h : record key l k = some x) : key x = k := by
  simpa using List.find?_some h

theorem mem_of_record (h : record key l k = some x) : x ∈ l :=
  List.mem_of_find?_eq_some h

theorem record_eq_none : record key l k = none ↔ k ∉ l.map key := by
  simp only [record, List.find?_eq_none, List.mem_map, not_exists, not_and, decide_eq_true_eq]

/-- With one record a key, every record is the one its key finds. -/
theorem record_of_mem (hl : (l.map key).Nodup) (hx : x ∈ l) : record key l (key x) = some x := by
  induction l with
  | nil => cases hx
  | cons y l ih =>
    rw [List.map_cons, List.nodup_cons] at hl
    rcases List.mem_cons.mp hx with rfl | hx
    · simp [record]
    · have hy : key y ≠ key x := by
        intro h
        exact hl.1 (h ▸ List.mem_map_of_mem hx)
      have hrest := ih hl.2 hx
      simpa [record, List.find?_cons, hy] using hrest

/-! ## A record is added -/

theorem record_append (l : List α) (x : α) (k : κ) :
    record key (l ++ [x]) k = (record key l k).or (if key x = k then some x else none) := by
  rw [record, List.find?_append, record]
  by_cases hx : key x = k <;> simp [hx]

/-! ## A record is changed -/

section Amend

variable {f : α → α} (hf : ∀ x, key (f x) = key x)

include hf

@[simp] theorem map_key_amend (k : κ) (l : List α) : (amend key f k l).map key = l.map key := by
  induction l with
  | nil => rfl
  | cons x l ih =>
    rw [amend]
    split
    · rw [List.map_cons, hf, List.map_cons]
    · rw [List.map_cons, ih, List.map_cons]

theorem record_amend (k k' : κ) (l : List α) :
    record key (amend key f k l) k' =
      if k' = k then (record key l k).map f else record key l k' := by
  induction l with
  | nil => split <;> rfl
  | cons x l ih =>
    rw [amend]
    by_cases hx : key x = k
    · by_cases hk : k' = k
      · subst hk
        simp [record, hx, hf]
      · simp [record, hx, hf, hk, Ne.symm hk]
    · rw [if_neg hx]
      by_cases hk : key x = k'
      · have hne : k' ≠ k := fun h => hx (hk.trans h)
        simp [record, hk, hne]
      · simpa [record, hx, hk] using ih

end Amend

theorem amend_of_none {f : α → α} (h : record key l k = none) : amend key f k l = l := by
  induction l with
  | nil => rfl
  | cons x l ih =>
    have hx : key x ≠ k := fun hx => by simp [record, hx] at h
    rw [amend, if_neg hx, ih (by simpa [record, hx] using h)]

theorem mem_amend {f : α → α} (h : x ∈ amend key f k l) : x ∈ l ∨ ∃ y ∈ l, x = f y := by
  induction l with
  | nil => cases h
  | cons y l ih =>
    rw [amend] at h
    split at h
    · rcases List.mem_cons.1 h with rfl | h
      · exact .inr ⟨y, List.mem_cons_self, rfl⟩
      · exact .inl (List.mem_cons_of_mem _ h)
    · rcases List.mem_cons.1 h with rfl | h
      · exact .inl List.mem_cons_self
      · rcases ih h with h | ⟨z, hz, rfl⟩
        · exact .inl (List.mem_cons_of_mem _ h)
        · exact .inr ⟨z, List.mem_cons_of_mem _ hz, rfl⟩

/-! ## A record is removed -/

@[simp] theorem map_key_discard (l : List α) (k : κ) :
    (discard key l k).map key = (l.map key).erase k := by
  induction l with
  | nil => rfl
  | cons x l ih =>
    by_cases hx : key x = k
    · simp [discard, hx]
    · have hne : ¬ (key x == k) = true := by simpa using hx
      rw [discard, List.eraseP_cons_of_neg (by simpa using hx), List.map_cons, List.map_cons,
        List.erase_cons_tail hne]
      exact congrArg (key x :: ·) ih

/-- What goes with the record goes from a list of different things. -/
theorem map_discard {β : Type} [DecidableEq β] {f : α → β} (h : record key l k = some x)
    (hl : (l.map f).Nodup) : (discard key l k).map f = (l.map f).erase (f x) := by
  induction l with
  | nil => cases h
  | cons y l ih =>
    rw [List.map_cons, List.nodup_cons] at hl
    by_cases hy : key y = k
    · obtain rfl : y = x := by simpa [record, hy] using h
      simp [discard, hy]
    have hrest : record key l k = some x := by simpa [record, hy] using h
    have hne : ¬ (f y == f x) = true := by
      rw [beq_iff_eq]
      intro heq
      exact hl.1 (heq ▸ List.mem_map_of_mem (mem_of_record hrest))
    rw [discard, List.eraseP_cons_of_neg (by simpa using hy), List.map_cons, List.map_cons,
      List.erase_cons_tail hne]
    exact congrArg (f y :: ·) (ih hrest hl.2)

theorem discard_of_none (h : record key l k = none) : discard key l k = l := by
  refine List.eraseP_of_forall_not fun x hx hk => record_eq_none.1 h ?_
  rw [← of_decide_eq_true hk]
  exact List.mem_map_of_mem hx

theorem mem_of_mem_discard (h : x ∈ discard key l k) : x ∈ l :=
  List.mem_of_mem_eraseP h

theorem record_discard_of_ne {k k' : κ} (h : k' ≠ k) :
    record key (discard key l k) k' = record key l k' := by
  induction l with
  | nil => rfl
  | cons x l ih =>
    by_cases hx : key x = k
    · have hne : key x ≠ k' := fun h' => h (h'.symm.trans hx)
      simp [discard, record, hx, Ne.symm h]
    · rw [discard, List.eraseP_cons_of_neg (by simpa using hx)]
      by_cases hk : key x = k'
      · simp [record, hk]
      · simpa [record, discard, hk] using ih

theorem record_discard_self (hl : (l.map key).Nodup) (k : κ) :
    record key (discard key l k) k = none := by
  rw [record_eq_none, map_key_discard, hl.mem_erase_iff]
  exact fun h => h.1 rfl

theorem nodup_discard (hl : (l.map key).Nodup) (k : κ) : ((discard key l k).map key).Nodup := by
  rw [map_key_discard]
  exact hl.erase k

/-! ## What is in the list -/

/-- The record that is found, and what is left without it. -/
theorem perm_discard (h : record key l k = some x) : l.Perm (x :: discard key l k) := by
  induction l with
  | nil => cases h
  | cons y l ih =>
    by_cases hy : key y = k
    · obtain rfl : y = x := by simpa [record, hy] using h
      simp [discard, hy]
    · have hrest : record key l k = some x := by simpa [record, hy] using h
      rw [discard, List.eraseP_cons_of_neg (by simpa using hy)]
      exact ((ih hrest).cons y).trans (.swap x y _)

theorem perm_amend {f : α → α} (h : record key l k = some x) :
    (amend key f k l).Perm (f x :: discard key l k) := by
  induction l with
  | nil => cases h
  | cons y l ih =>
    by_cases hy : key y = k
    · obtain rfl : y = x := by simpa [record, hy] using h
      simp [amend, discard, hy]
    · have hrest : record key l k = some x := by simpa [record, hy] using h
      rw [amend, if_neg hy, discard, List.eraseP_cons_of_neg (by simpa using hy)]
      exact ((ih hrest).cons y).trans (.swap (f x) y _)

end Keyed

end Nx508j.Lib
