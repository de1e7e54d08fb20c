import Mathlib.Order.Basic

/-! # Chains of records that carry their length

A buffer holds records one behind the other. The header of a record says how long it is, and the next
record begins at the next multiple of four. A walk over the records keeps count of the bytes that are
left and stops at a record it does not accept. -/

namespace Nx508j.Lib

/-- The length rounded up to a multiple of four. -/
def align4 (len : Nat) : Nat := (len + 3) / 4 * 4

theorem le_align4 (len : Nat) : len ≤ align4 len := by
  unfold align4
  omega

theorem align4_of_dvd {len : Nat} (h : 4 ∣ len) : align4 len = len := by
  unfold align4
  omega

/-- A record that says it has `len` bytes, of which the first `hdr` are the header, is accepted if
    both fit the `left` bytes that are left. -/
def Accepted (hdr len left : Nat) : Prop := hdr ≤ left ∧ hdr ≤ len ∧ len ≤ left

instance (hdr len left : Nat) : Decidable (Accepted hdr len left) :=
  inferInstanceAs (Decidable (_ ∧ _))

/-- `Chain hdr len go stop o o'`: a walk over records that are taken to end at `stop` comes from `o`
    to `o'`. It steps over the accepted records with `go`. -/
inductive Chain (hdr : Nat) (len : Nat → Nat) (go : Nat → Prop) (stop : Nat) : Nat → Nat → Prop
  | refl (o : Nat) : Chain hdr len go stop o o
  | step {o o' : Nat} (haccepted : Accepted hdr (len o) (stop - o)) (hgo : go o)
      (rest : Chain hdr len go stop (o + align4 (len o)) o') : Chain hdr len go stop o o'

namespace Chain

variable {hdr stop o o' : Nat} {len : Nat → Nat} {go : Nat → Prop} {P : Nat → Prop}

/-- What holds of every record of a walk. -/
theorem forall_iff : (∀ o', Chain hdr len go stop o o' → P o') ↔
    P o ∧ (Accepted hdr (len o) (stop - o) → go o →
      ∀ o', Chain hdr len go stop (o + align4 (len o)) o' → P o') := by
  constructor
  · intro hall
    exact ⟨hall o (.refl o), fun haccepted hgo o' rest => hall o' (.step haccepted hgo rest)⟩
  · rintro ⟨ho, hrest⟩ o' hchain
    cases hchain with
    | refl => exact ho
    | step haccepted hgo rest => exact hrest haccepted hgo o' rest

theorem le (h : Chain hdr len go stop o o') : o ≤ o' := by
  induction h with
  | refl o => exact Nat.le_refl o
  | step _ _ _ ih => exact Nat.le_trans (Nat.le_add_right ..) ih

end Chain

end Nx508j.Lib
