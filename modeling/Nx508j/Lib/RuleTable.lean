import Mathlib.Data.List.Nodup
import Mathlib.Data.List.Range

/-! # Tables of rules

A driver keeps the rules of a table in an order, which decides which of them is looked at first, and
names each of them by a handle. New rules go to the rear or to the front and get handles that were
never used; a rule is deleted by its handle. The handle 0 names no rule. -/

namespace Nx508j.Lib

/-- A table of rules with their handles, in order. -/
structure RuleTable (κ : Type) where
  rules : List (Nat × κ)
  next : Nat
  pos : 0 < next
  range : ∀ r ∈ rules, 0 < r.1 ∧ r.1 < next
  nodup : (rules.map Prod.fst).Nodup

namespace RuleTable

variable {κ : Type}

def empty : RuleTable κ where
  rules := []
  next := 1
  pos := Nat.one_pos
  range := by simp
  nodup := by simp

variable (t : RuleTable κ) (ks : List κ) {k : κ} {h : Nat} {p : κ → Bool} {r : Nat × κ}

/-- The handles of the next `n` rules. -/
def fresh (n : Nat) : List Nat := List.range' t.next n

@[simp] theorem length_fresh (n : Nat) : (t.fresh n).length = n := List.length_range'

theorem mem_fresh {n : Nat} : h ∈ t.fresh n ↔ t.next ≤ h ∧ h < t.next + n := List.mem_range'_1

/-- New rules with their handles. -/
def named : List (Nat × κ) := (t.fresh ks.length).zip ks

@[simp] theorem named_fst : (t.named ks).map Prod.fst = t.fresh ks.length :=
  List.map_fst_zip (by simp)

@[simp] theorem named_snd : (t.named ks).map Prod.snd = ks :=
  List.map_snd_zip (by simp)

@[simp] theorem length_named : (t.named ks).length = ks.length := by
  simp [named]

theorem mem_named (hr : r ∈ t.named ks) : t.next ≤ r.1 ∧ r.1 < t.next + ks.length ∧ r.2 ∈ ks := by
  have hfst : r.1 ∈ (t.named ks).map Prod.fst := List.mem_map_of_mem hr
  have hsnd : r.2 ∈ (t.named ks).map Prod.snd := List.mem_map_of_mem hr
  rw [named_fst, mem_fresh] at hfst
  rw [named_snd] at hsnd
  exact ⟨hfst.1, hfst.2, hsnd⟩

theorem not_mem_fresh (hr : r ∈ t.rules) (n : Nat) : r.1 ∉ t.fresh n := by
  have := (t.range r hr).2
  rw [mem_fresh]
  omega

theorem range_named (hr : r ∈ t.rules ∨ r ∈ t.named ks) : 0 < r.1 ∧ r.1 < t.next + ks.length := by
  rcases hr with hr | hr
  · have := t.range r hr
    omega
  · have := t.mem_named ks hr
    have := t.pos
    omega

/-- Rules at the rear. -/
def addRear : RuleTable κ where
  rules := t.rules ++ t.named ks
  next := t.next + ks.length
  pos := Nat.add_pos_left t.pos _
  range := fun _ hr => t.range_named ks (List.mem_append.1 hr)
  nodup := by
    rw [List.map_append, named_fst]
    refine List.nodup_append.2 ⟨t.nodup, List.nodup_range', ?_⟩
    rintro a ha b hb rfl
    obtain ⟨r, hr, rfl⟩ := List.mem_map.1 ha
    exact t.not_mem_fresh hr _ hb

/-- Rules at the front. -/
def addFront : RuleTable κ where
  rules := t.named ks ++ t.rules
  next := t.next + ks.length
  pos := Nat.add_pos_left t.pos _
  range := fun _ hr => t.range_named ks (List.mem_append.1 hr).symm
  nodup := by
    rw [List.map_append, named_fst]
    refine List.nodup_append.2 ⟨List.nodup_range', t.nodup, ?_⟩
    rintro a ha b hb rfl
    obtain ⟨r, hr, rfl⟩ := List.mem_map.1 hb
    exact t.not_mem_fresh hr _ ha

/-- The rule with a handle is deleted, if there is one. -/
def delete (h : Nat) : RuleTable κ where
  rules := t.rules.filter (·.1 ≠ h)
  next := t.next
  pos := t.pos
  range := fun r hr => t.range r (List.mem_of_mem_filter hr)
  nodup := t.nodup.sublist (List.filter_sublist.map _)

@[simp] theorem addRear_rules : (t.addRear ks).rules = t.rules ++ t.named ks := rfl

@[simp] theorem addFront_rules : (t.addFront ks).rules = t.named ks ++ t.rules := rfl

@[simp] theorem delete_rules (h : Nat) : (t.delete h).rules = t.rules.filter (·.1 ≠ h) := rfl

@[simp] theorem addRear_next : (t.addRear ks).next = t.next + ks.length := rfl

@[simp] theorem addFront_next : (t.addFront ks).next = t.next + ks.length := rfl

@[simp] theorem delete_next (h : Nat) : (t.delete h).next = t.next := rfl

theorem getElem?_fresh {n i : Nat} (hi : i < n) : (t.fresh n)[i]? = some (t.next + i) := by
  simp [fresh, hi]

/-- The `i`-th of the rules that are put to the rear stands that far behind the rules there were. -/
theorem getElem?_addRear {i : Nat} (hi : ks[i]? = some k) :
    (t.addRear ks).rules[t.rules.length + i]? = some (t.next + i, k) := by
  have hlt : i < ks.length := (List.getElem?_eq_some_iff.1 hi).1
  rw [addRear_rules, List.getElem?_append_right (Nat.le_add_right ..), Nat.add_sub_cancel_left]
  exact List.getElem?_zip_eq_some.2 ⟨t.getElem?_fresh hlt, hi⟩

/-- A handle is in one place. -/
theorem index_unique {i j : Nat} {r r' : Nat × κ} (hi : t.rules[i]? = some r)
    (hj : t.rules[j]? = some r') (heq : r.1 = r'.1) : i = j := by
  have hlt : i < (t.rules.map Prod.fst).length := by
    rw [List.length_map]
    exact (List.getElem?_eq_some_iff.1 hi).1
  refine (List.getElem?_inj hlt t.nodup).1 ?_
  rw [List.getElem?_map, List.getElem?_map, hi, hj]
  exact congrArg some heq

end RuleTable

end Nx508j.Lib
