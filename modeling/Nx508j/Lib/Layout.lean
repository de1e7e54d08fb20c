import Mathlib.Algebra.BigOperators.Group.List.Basic
import Mathlib.Algebra.Ring.Nat

/-! # Regions laid one behind the other

Regions of given lengths that are laid one behind the other do not overlap and fill what they are
laid into from its start. A region is where it starts and how long it is. -/

namespace Nx508j.Lib

/-- The regions of these lengths, from `start` on. -/
def lay (start : Nat) : List Nat → List (Nat × Nat)
  | [] => []
  | len :: lens => (start, len) :: lay (start + len) lens

/-- The one region ends before the other begins. -/
def Before (a b : Nat × Nat) : Prop := a.1 + a.2 ≤ b.1

/-- The region is inside of `size` bytes from `start` on. -/
def Inside (start size : Nat) (a : Nat × Nat) : Prop := start ≤ a.1 ∧ a.1 + a.2 ≤ start + size

theorem inside_lay {start : Nat} {lens : List Nat} :
    ∀ a ∈ lay start lens, Inside start lens.sum a := by
  induction lens generalizing start with
  | nil => simp [lay]
  | cons len lens ih =>
    intro a ha
    rw [List.sum_cons]
    rcases List.mem_cons.1 ha with rfl | ha
    · exact ⟨Nat.le_refl _, by dsimp only; omega⟩
    · obtain ⟨hle, hend⟩ := ih a ha
      exact ⟨by omega, by omega⟩

theorem pairwise_lay (start : Nat) (lens : List Nat) : (lay start lens).Pairwise Before := by
  induction lens generalizing start with
  | nil => exact .nil
  | cons len lens ih => exact .cons (fun b hb => (inside_lay b hb).1) (ih (start + len))

end Nx508j.Lib
