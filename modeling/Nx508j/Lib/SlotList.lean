import Mathlib.Data.List.Nodup
import Nx508j.Lib.Memory

/-! # An array without holes

The slots of an array that are in use come first, and hold the elements of a list without
duplicates. An element is added in the first free slot; where one is taken out, the last one goes
into its slot. -/

namespace Nx508j.Lib

variable {α : Type}

/-- The array holds this list from its start on, and nothing behind it. -/
structure SlotList (m : Region (Option α)) (l : List α) : Prop where
  fits : l.length ≤ m.size
  get : ∀ i < m.size, m.get i = l[i]?
  nodup : l.Nodup

namespace SlotList

variable {m : Region (Option α)} {l l₁ l₂ : List α} {x z : α}

theorem fill (n : Nat) : SlotList (Region.fill n none) ([] : List α) where
  fits := Nat.zero_le _
  get _ _ := rfl
  nodup := .nil

/-- A slot before the end of the list. -/
theorem read_of_lt (h : SlotList m l) {i : Nat} (hi : i < l.length) :
    m.read i = .ok (some l[i]) := by
  have hm : i < m.size := Nat.lt_of_lt_of_le hi h.fits
  rw [Region.read_ok hm, h.get i hm, List.getElem?_eq_getElem hi]

/-- The slot at the end of a part of the list. -/
theorem read_length (h : SlotList m (l₁ ++ x :: l₂)) : m.read l₁.length = .ok (some x) := by
  rw [h.read_of_lt (by simp), List.getElem_append_right (Nat.le_refl _)]
  simp

/-- A slot behind the list. -/
theorem read_of_le (h : SlotList m l) {i : Nat} (hi : l.length ≤ i) (hm : i < m.size) :
    m.read i = .ok none := by
  rw [Region.read_ok hm, h.get i hm, List.getElem?_eq_none hi]

/-- Use the first free slot. -/
theorem append (h : SlotList m l) (hx : x ∉ l) (hroom : l.length < m.size) :
    SlotList (m.set l.length (some x)) (l ++ [x]) where
  fits := by
    rw [List.length_append, List.length_singleton, Region.size_set]
    exact hroom
  get i hi := by
    rw [Region.size_set] at hi
    rw [Region.get_set, List.getElem?_append]
    by_cases heq : i = l.length
    · subst heq
      simp
    · rw [if_neg heq, h.get i hi]
      split
      · rfl
      · next hge =>
        rw [List.getElem?_eq_none (by omega), List.getElem?_eq_none (by simp; omega)]
  nodup := by
    rw [List.nodup_append]
    exact ⟨h.nodup, List.nodup_singleton x, fun a ha b hb => by
      rw [List.mem_singleton.1 hb]
      rintro rfl
      exact hx ha⟩

/-- Take the last element out. -/
theorem dropLast (h : SlotList m (l ++ [x])) : SlotList (m.set l.length none) l where
  fits := by
    have hfits := h.fits
    rw [List.length_append, List.length_singleton] at hfits
    rw [Region.size_set]
    omega
  get i hi := by
    rw [Region.size_set] at hi
    rw [Region.get_set, h.get i hi, List.getElem?_append]
    by_cases heq : i = l.length
    · subst heq
      simp
    · rw [if_neg heq]
      split
      · rfl
      · rw [List.getElem?_eq_none (by simp; omega), List.getElem?_eq_none (by omega)]
  nodup := h.nodup.of_append_left

/-- Put another element in the place of one. -/
theorem replace (h : SlotList m (l₁ ++ x :: l₂)) (hz : z ∉ l₁ ++ l₂) :
    SlotList (m.set l₁.length (some z)) (l₁ ++ z :: l₂) where
  fits := by simpa using h.fits
  get i hi := by
    rw [Region.size_set] at hi
    rw [Region.get_set, h.get i hi, List.getElem?_append, List.getElem?_append]
    by_cases heq : i = l₁.length
    · subst heq
      simp
    · rw [if_neg heq]
      split
      · rfl
      · obtain ⟨k, hk⟩ : ∃ k, i - l₁.length = k + 1 := ⟨i - l₁.length - 1, by omega⟩
        rw [hk, List.getElem?_cons_succ, List.getElem?_cons_succ]
  nodup := by
    rw [List.nodup_middle, List.nodup_cons]
    exact ⟨hz, (List.nodup_cons.1 (List.nodup_middle.1 h.nodup)).2⟩

/-- Only the slots matter. -/
theorem congr {m' : Region (Option α)} (h : SlotList m l) (hsize : m'.size = m.size)
    (hget : ∀ i < m.size, m'.get i = m.get i) : SlotList m' l where
  fits := hsize ▸ h.fits
  get i hi := (hget i (hsize ▸ hi)).trans (h.get i (hsize ▸ hi))
  nodup := h.nodup

/-- Move the last element into the slot of one that is taken out. -/
theorem moveLast (h : SlotList m (l₁ ++ x :: l₂ ++ [z])) :
    SlotList (((m.set l₁.length none).set l₁.length (some z)).set (l₁ ++ x :: l₂).length none)
      (l₁ ++ z :: l₂) := by
  have hz : z ∉ l₁ ++ l₂ := by
    have hnodup := h.nodup
    rw [List.append_assoc, List.cons_append, List.nodup_middle, ← List.append_assoc,
      List.nodup_cons, List.nodup_append] at hnodup
    exact fun hmem => hnodup.2.2.2 z hmem z (List.mem_singleton_self z) rfl
  refine (h.dropLast.replace hz).congr rfl fun i _ => ?_
  simp only [Region.get_set]
  by_cases hi : i = l₁.length
  · subst hi
    simp
  · simp [hi]

end SlotList

end Nx508j.Lib
