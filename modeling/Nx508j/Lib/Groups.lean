import Mathlib.Data.List.Basic

/-! # A list in groups

A list is cut into groups of `n` from its start on. All groups but the last are full. -/

namespace Nx508j.Lib

variable {α : Type}

/-- The group with this number: the elements from `n * k` on, at most `n` of them. -/
def group (n k : Nat) (l : List α) : List α := (l.drop (n * k)).take n

/-- The first `c` groups. -/
def groups (n c : Nat) (l : List α) : List (List α) := (List.range c).map fun k => group n k l

/-- How many groups a number of elements takes. -/
def groupCount (n k : Nat) : Nat := k / n + if k % n ≠ 0 then 1 else 0

variable {n k c : Nat} {l : List α}

theorem group_zero : group n 0 l = l.take n := by simp [group]

theorem group_succ : group n (k + 1) l = group n k (l.drop n) := by
  rw [group, group, List.drop_drop, Nat.mul_succ, Nat.add_comm n]

theorem length_group_le : (group n k l).length ≤ n := List.length_take_le ..

theorem length_group (h : n * (k + 1) ≤ l.length) : (group n k l).length = n := by
  rw [Nat.mul_succ] at h
  rw [group, List.length_take, List.length_drop]
  omega

@[simp] theorem length_groups : (groups n c l).length = c := by simp [groups]

theorem groups_zero : groups n 0 l = [] := rfl

theorem groups_succ : groups n (c + 1) l = l.take n :: groups n c (l.drop n) := by
  rw [groups, List.range_succ_eq_map, List.map_cons, group_zero, List.map_map, groups]
  congr 1
  exact List.map_congr_left fun k _ => group_succ

theorem flatten_groups : (groups n c l).flatten = l.take (n * c) := by
  induction c generalizing l with
  | zero => simp [groups_zero]
  | succ c ih =>
    rw [groups_succ, List.flatten_cons, ih, Nat.mul_succ, Nat.add_comm, List.take_add]

/-- The groups that it takes hold the whole list. -/
theorem flatten_groups_groupCount (hn : 0 < n) :
    (groups n (groupCount n l.length) l).flatten = l := by
  have hall : l.length ≤ n * groupCount n l.length := by
    have hdiv := Nat.div_add_mod l.length n
    have hmod := Nat.mod_lt l.length hn
    rw [groupCount]
    split
    · rw [Nat.mul_succ]
      omega
    · next hzero =>
      rw [not_not] at hzero
      rw [Nat.add_zero]
      omega
  rw [flatten_groups, List.take_of_length_le hall]

theorem length_le_of_mem_groups {g : List α} (hg : g ∈ groups n c l) : g.length ≤ n := by
  obtain ⟨k, -, rfl⟩ := List.mem_map.1 hg
  exact length_group_le

/-- All groups but the last one are full. -/
theorem length_of_mem_dropLast {g : List α}
    (hg : g ∈ (groups n (groupCount n l.length) l).dropLast) : g.length = n := by
  rw [groups, ← List.map_dropLast] at hg
  obtain ⟨k, hk, rfl⟩ := List.mem_map.1 hg
  obtain ⟨c, hc⟩ | hzero : (∃ c, groupCount n l.length = c + 1) ∨ groupCount n l.length = 0 := by
    cases groupCount n l.length with
    | zero => exact .inr rfl
    | succ c => exact .inl ⟨c, rfl⟩
  · rw [hc, List.range_succ, List.dropLast_concat, List.mem_range] at hk
    have hfull : n * c ≤ l.length := by
      have hdiv := Nat.div_add_mod l.length n
      have hle : c ≤ l.length / n := by
        rw [groupCount] at hc
        split at hc <;> omega
      exact Nat.le_trans (Nat.mul_le_mul_left n hle) (Nat.mul_div_le l.length n)
    exact length_group (Nat.le_trans (Nat.mul_le_mul_left n hk) hfull)
  · rw [hzero] at hk
    simp at hk

end Nx508j.Lib
