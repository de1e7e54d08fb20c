import Mathlib.Data.List.Basic

/-! # Lists of rules, the first of which decides

A list of rules is gone through up to the first rule that hits, and its outcome is that of the whole
list. Rules that do not hit can be left out wherever they stand. -/

namespace Nx508j.Lib

section FirstMatch

variable {ρ ο : Type} (hits : ρ → Bool) (outcome : ρ → ο)

/-- The outcome of the first rule that hits. -/
def firstMatch : List ρ → Option ο
  | [] => none
  | r :: rs => if hits r then some (outcome r) else firstMatch rs

variable {hits outcome} {r : ρ} {rs rs' : List ρ}

theorem firstMatch_cons_of_hits (h : hits r = true) :
    firstMatch hits outcome (r :: rs) = some (outcome r) := by
  rw [firstMatch, if_pos h]

theorem firstMatch_cons_of_not (h : hits r = false) :
    firstMatch hits outcome (r :: rs) = firstMatch hits outcome rs := by
  rw [firstMatch, if_neg (by simp [h])]

/-- Rules that do not hit are skipped. -/
theorem firstMatch_append_of_none (h : ∀ r ∈ rs, hits r = false) :
    firstMatch hits outcome (rs ++ rs') = firstMatch hits outcome rs' := by
  induction rs with
  | nil => rfl
  | cons r rs ih =>
    rw [List.cons_append, firstMatch_cons_of_not (h r List.mem_cons_self)]
    exact ih fun x hx => h x (List.mem_cons_of_mem r hx)

/-- What stands behind some rules counts only by its own outcome. -/
theorem firstMatch_append_congr (front : List ρ)
    (h : firstMatch hits outcome rs = firstMatch hits outcome rs') :
    firstMatch hits outcome (front ++ rs) = firstMatch hits outcome (front ++ rs') := by
  induction front with
  | nil => exact h
  | cons r front ih =>
    rw [List.cons_append, List.cons_append, firstMatch, firstMatch, ih]

end FirstMatch

end Nx508j.Lib
