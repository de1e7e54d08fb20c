import Mathlib.Data.Nat.ModEq
import Mathlib.Algebra.BigOperators.Group.List.Basic

/-! # One's-complement sums

Words below `base` are added with an end-around carry: what does not fit into a word is added at its
low end. Up to multiples of `base - 1` this is ordinary addition, so the order of the words does not
matter, and the checksum of some words (the complement of their sum) can be adjusted when words are
replaced, without looking at the others. -/

namespace Nx508j.Lib

variable {base a b : Nat}

/-- The carry out of a word, added back in. -/
def endAround (base s : Nat) : Nat := s % base + s / base

theorem endAround_of_lt (h : a < base) : endAround base a = a := by
  rw [endAround, Nat.mod_eq_of_lt h, Nat.div_eq_of_lt h, Nat.add_zero]

/-- The carry is worth one. -/
theorem endAround_modEq (hbase : 0 < base) (s : Nat) : endAround base s ≡ s [MOD base - 1] := by
  have hone : base ≡ 1 [MOD base - 1] := by
    calc base = (base - 1) + 1 := by omega
      _ ≡ 0 + 1 [MOD base - 1] := Nat.ModEq.add_right 1 (Nat.modEq_zero_iff_dvd.2 (dvd_refl _))
      _ = 1 := Nat.zero_add 1
  calc endAround base s = s % base + 1 * (s / base) := by rw [endAround, Nat.one_mul]
    _ ≡ s % base + base * (s / base) [MOD base - 1] :=
        Nat.ModEq.add_left _ (Nat.ModEq.mul_right _ hone.symm)
    _ = s := Nat.mod_add_div s base

/-- The sum of two words fits a word again. -/
theorem endAround_add_lt (ha : a < base) (hb : b < base) : endAround base (a + b) < base := by
  by_cases h : a + b < base
  · rw [endAround_of_lt h]
    exact h
  · have hdiv : (a + b) / base = 1 := Nat.div_eq_of_lt_le (by omega) (by omega)
    have hmod : (a + b) % base = a + b - base := by
      rw [Nat.mod_eq_sub_mod (by omega), Nat.mod_eq_of_lt (by omega)]
    rw [endAround, hdiv, hmod]
    omega

/-- The one's-complement sum of some words. -/
def onesSum (base : Nat) : List Nat → Nat
  | [] => 0
  | w :: ws => endAround base (w + onesSum base ws)

theorem onesSum_lt (hbase : 0 < base) {ws : List Nat} (hws : ∀ w ∈ ws, w < base) :
    onesSum base ws < base := by
  induction ws with
  | nil => exact hbase
  | cons w ws ih =>
    have hw : w < base := hws w (List.mem_cons_self ..)
    exact endAround_add_lt hw (ih fun x hx => hws x (List.mem_cons_of_mem _ hx))

theorem onesSum_modEq (hbase : 0 < base) (ws : List Nat) :
    onesSum base ws ≡ ws.sum [MOD base - 1] := by
  induction ws with
  | nil => rfl
  | cons w ws ih =>
    rw [onesSum, List.sum_cons]
    exact (endAround_modEq hbase _).trans (Nat.ModEq.add_left w ih)

/-- The checksum of some words: the complement of their sum. -/
def onesChecksum (base : Nat) (ws : List Nat) : Nat := base - 1 - onesSum base ws

/-- The checksum and the words add up to nothing. -/
theorem onesChecksum_add_sum (hbase : 0 < base) {ws : List Nat} (hws : ∀ w ∈ ws, w < base) :
    onesChecksum base ws + ws.sum ≡ 0 [MOD base - 1] := by
  have hlt := onesSum_lt hbase hws
  calc onesChecksum base ws + ws.sum
      ≡ onesChecksum base ws + onesSum base ws [MOD base - 1] :=
        Nat.ModEq.add_left _ (onesSum_modEq hbase ws).symm
    _ = base - 1 := by rw [onesChecksum]; omega
    _ ≡ 0 [MOD base - 1] := Nat.modEq_zero_iff_dvd.2 (dvd_refl _)

/-- Adjust a checksum by the difference of the words: complement, add, complement. -/
def adjust (base cksum delta : Nat) : Nat :=
  base - 1 - endAround base (base - 1 - cksum + delta)

theorem adjust_add (hbase : 0 < base) {cksum delta : Nat} (hcksum : cksum < base)
    (hdelta : delta < base) : adjust base cksum delta + delta ≡ cksum [MOD base - 1] := by
  have hlt : endAround base (base - 1 - cksum + delta) < base :=
    endAround_add_lt (by omega) hdelta
  have hzero : base - 1 ≡ 0 [MOD base - 1] := Nat.modEq_zero_iff_dvd.2 (dvd_refl _)
  refine Nat.ModEq.add_right_cancel' (base - 1 - cksum) ?_
  calc adjust base cksum delta + delta + (base - 1 - cksum)
      = adjust base cksum delta + (base - 1 - cksum + delta) := by omega
    _ ≡ adjust base cksum delta + endAround base (base - 1 - cksum + delta) [MOD base - 1] :=
        Nat.ModEq.add_left _ (endAround_modEq hbase _).symm
    _ = cksum + (base - 1 - cksum) := by rw [adjust]; omega

/-- **Replaced words.** A checksum of the old words, adjusted by the difference of what is replaced,
    is a checksum of the new ones. -/
theorem adjust_modEq (hbase : 0 < base) {cksum delta : Nat} {old new rest ws ws' : List Nat}
    (hdelta : delta < base) (hdiff : delta + old.sum ≡ new.sum [MOD base - 1])
    (hws : ∀ w ∈ ws, w < base) (hws' : ∀ w ∈ ws', w < base) (hperm : ws.Perm (old ++ rest))
    (hperm' : ws'.Perm (new ++ rest)) (hcksum : cksum < base)
    (hsum : cksum ≡ onesChecksum base ws [MOD base - 1]) :
    adjust base cksum delta ≡ onesChecksum base ws' [MOD base - 1] := by
  refine Nat.ModEq.add_right_cancel' ws'.sum ?_
  refine Nat.ModEq.trans ?_ (onesChecksum_add_sum hbase hws').symm
  calc adjust base cksum delta + ws'.sum
      = adjust base cksum delta + rest.sum + new.sum := by
        rw [hperm'.sum_eq, List.sum_append]
        omega
    _ ≡ adjust base cksum delta + rest.sum + (delta + old.sum) [MOD base - 1] :=
        Nat.ModEq.add_left _ hdiff.symm
    _ = adjust base cksum delta + delta + ws.sum := by
        rw [hperm.sum_eq, List.sum_append]
        omega
    _ ≡ onesChecksum base ws + ws.sum [MOD base - 1] :=
        Nat.ModEq.add_right _ ((adjust_add hbase hcksum hdelta).trans hsum)
    _ ≡ 0 [MOD base - 1] := onesChecksum_add_sum hbase hws

end Nx508j.Lib
