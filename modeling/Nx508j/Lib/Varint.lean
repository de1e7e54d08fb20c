import Mathlib.Data.List.Basic

/-! # Numbers and byte strings in groups of seven bits

A number is written in groups of seven bits, the lowest first, and every byte but the last has its
highest bit set. A byte string is written with its length in front. What was written is read back,
and a part of it that ends too early is not read at all. -/

namespace Nx508j.Lib

/-- A number in groups of seven bits. -/
def varint (n : Nat) : List UInt8 :=
  if n < 128 then [UInt8.ofNat n] else UInt8.ofNat (n % 128 + 128) :: varint (n / 128)

/-- The number at the front, and what is behind it. -/
def readVarint : List UInt8 → Option (Nat × List UInt8)
  | [] => none
  | b :: bs =>
    if b.toNat < 128 then some (b.toNat, bs)
    else (readVarint bs).map fun r => (b.toNat - 128 + 128 * r.1, r.2)

theorem readVarint_cons_of_lt {n : Nat} (h : n < 128) (bs : List UInt8) :
    readVarint (UInt8.ofNat n :: bs) = some (n, bs) := by
  have htoNat : (UInt8.ofNat n).toNat = n := by
    rw [UInt8.toNat_ofNat']
    omega
  rw [readVarint, htoNat, if_pos h]

theorem readVarint_cons_of_ge {n : Nat} (h : n < 128) (bs : List UInt8) :
    readVarint (UInt8.ofNat (n + 128) :: bs) =
      (readVarint bs).map fun r => (n + 128 * r.1, r.2) := by
  have htoNat : (UInt8.ofNat (n + 128)).toNat = n + 128 := by
    rw [UInt8.toNat_ofNat']
    omega
  rw [readVarint, htoNat, if_neg (by omega), Nat.add_sub_cancel]

/-- A number is read back, whatever is behind it. -/
theorem readVarint_varint (n : Nat) (bs : List UInt8) :
    readVarint (varint n ++ bs) = some (n, bs) := by
  induction n using varint.induct with
  | case1 n hlt =>
    rw [varint, if_pos hlt]
    exact readVarint_cons_of_lt hlt bs
  | case2 n hge ih =>
    rw [varint, if_neg hge, List.cons_append, readVarint_cons_of_ge (Nat.mod_lt n (by decide)),
      ih, Option.map_some, Nat.mod_add_div]

/-- A number that was cut off is not read. -/
theorem readVarint_take (n : Nat) {k : Nat} (hk : k < (varint n).length) :
    readVarint ((varint n).take k) = none := by
  induction n using varint.induct generalizing k with
  | case1 n hlt =>
    rw [varint, if_pos hlt] at hk ⊢
    obtain rfl : k = 0 := Nat.lt_one_iff.1 hk
    rfl
  | case2 n hge ih =>
    rw [varint, if_neg hge] at hk ⊢
    cases k with
    | zero => rfl
    | succ k =>
      rw [List.take_succ_cons, readVarint_cons_of_ge (Nat.mod_lt n (by decide)),
        ih (Nat.lt_of_succ_lt_succ hk), Option.map_none]

/-- A byte string behind its length. -/
def delimited (bs : List UInt8) : List UInt8 := varint bs.length ++ bs

/-- The byte string that takes up all that is there. -/
def readDelimited (bs : List UInt8) : Option (List UInt8) :=
  match readVarint bs with
  | none => none
  | some (n, rest) => if rest.length = n then some rest else none

theorem readDelimited_delimited (bs : List UInt8) : readDelimited (delimited bs) = some bs := by
  unfold readDelimited delimited
  rw [readVarint_varint]
  exact if_pos rfl

theorem readDelimited_take (bs : List UInt8) {k : Nat} (hk : k < (delimited bs).length) :
    readDelimited ((delimited bs).take k) = none := by
  unfold readDelimited delimited at *
  rw [List.length_append] at hk
  rw [List.take_append]
  rcases Nat.lt_or_ge k (varint bs.length).length with hlt | hge
  · rw [Nat.sub_eq_zero_of_le (Nat.le_of_lt hlt), List.take_zero, List.append_nil,
      readVarint_take _ hlt]
  · rw [List.take_of_length_le hge, readVarint_varint]
    have hshort : (bs.take (k - (varint bs.length).length)).length ≠ bs.length := by
      rw [List.length_take]
      omega
    exact if_neg hshort

end Nx508j.Lib
