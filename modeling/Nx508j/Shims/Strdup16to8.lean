import Nx508j.Shims.Strdup8to16

/-! # From UTF-16 to modified UTF-8

Each code unit becomes a sequence of up to three bytes, a 0 becomes two bytes and half of a
surrogate pair three, so that no byte is 0 and nothing is lost. `strnlen16to8` computes the length
without an overflow, and `strncpy16to8` writes the bytes to a buffer that its caller has made by
that length. -/

namespace Nx508j.Shims

open Nx508j.Lib

/-! ## The functions -/

/-- What a code unit adds to the length. -/
def utf8Width (uic : UInt16) : Nat :=
  if uic.toNat > 0x07ff then 3 else if uic.toNat > 0x7f ∨ uic = 0 then 2 else 1

/-- The loop for the usual case. -/
def lenFast (size : SizeT) : List UInt16 → Nat → Nat
  | [], utf8Len => utf8Len
  | uic :: s, utf8Len => lenFast size s ((utf8Len + utf8Width uic) % (size.max + 1))

/-- The loop that looks for an overflow. -/
def lenSlow (size : SizeT) : List UInt16 → Nat → Nat
  | [], utf8Len => if utf8Len = size.max then size.max - 1 else utf8Len
  | uic :: s, utf8Len =>
    let utf8Cur := utf8Len
    let utf8Len := (utf8Len + utf8Width uic) % (size.max + 1)
    if utf8Len < utf8Cur then size.max - 1 else lenSlow size s utf8Len

def strnlen16to8 (size : SizeT) (utf16Str : List UInt16) : Nat :=
  if utf16Str.length < (size.max - 1) / 3 then lenFast size utf16Str 0
  else lenSlow size utf16Str 0

/-- The bytes of a code unit. -/
def utf8Bytes (uic : UInt16) : List UInt8 :=
  if uic.toNat > 0x07ff then
    [UInt8.ofNat ((uic.toNat >>> 12) ||| 0xe0),
      UInt8.ofNat (((uic.toNat >>> 6) &&& 0x3f) ||| 0x80),
      UInt8.ofNat ((uic.toNat &&& 0x3f) ||| 0x80)]
  else if uic.toNat > 0x7f ∨ uic = 0 then
    [UInt8.ofNat ((uic.toNat >>> 6) ||| 0xc0), UInt8.ofNat ((uic.toNat &&& 0x3f) ||| 0x80)]
  else [UInt8.ofNat uic.toNat]

/-- One byte after the other, into a buffer of `cap` bytes. -/
def putAll (cap : Nat) : List UInt8 → List UInt8 → Except Fault (List UInt8)
  | [], utf8Str => .ok utf8Str
  | b :: bs, utf8Str =>
    if utf8Str.length < cap then putAll cap bs (utf8Str ++ [b]) else .error .outOfBounds

/-- The loop of `strncpy16to8`. It would be left behind a single byte that is 0, but 0 takes two. -/
def strncpyLoop (cap : Nat) : List UInt16 → List UInt8 → Except Fault (List UInt8)
  | [], utf8Str => .ok utf8Str
  | uic :: s, utf8Str => do
      let utf8Str ← putAll cap (utf8Bytes uic) utf8Str
      strncpyLoop cap s utf8Str

def strncpy16to8 (cap : Nat) (utf16Str : List UInt16) : Except Fault (List UInt8) := do
  let utf8Str ← strncpyLoop cap utf16Str []
  putAll cap [0] utf8Str

/-! ## What is written -/

section Written

variable {u : List UInt16} {cap : Nat} (uic : UInt16)

/-- The bytes of a string. -/
def encoded (u : List UInt16) : List UInt8 := u.flatMap utf8Bytes

theorem putAll_eq (bs out : List UInt8) :
    putAll cap bs out = if bs = [] ∨ out.length + bs.length ≤ cap then .ok (out ++ bs)
      else .error .outOfBounds := by
  induction bs generalizing out with
  | nil => simp [putAll]
  | cons b bs ih =>
    rw [putAll, ih]
    simp only [List.length_append, List.length_cons, List.length_nil, List.append_assoc,
      List.cons_append, List.nil_append, reduceCtorEq, false_or]
    by_cases hlt : out.length < cap
    · rw [if_pos hlt]
      refine if_congr ?_ rfl rfl
      constructor
      · rintro (rfl | h)
        · exact hlt
        · omega
      · intro h
        exact .inr (by omega)
    · rw [if_neg hlt, if_neg (by omega)]

theorem utf8Bytes_length : (utf8Bytes uic).length = utf8Width uic := by
  unfold utf8Bytes utf8Width
  split
  · rfl
  · split <;> rfl

theorem utf8Width_pos : 0 < utf8Width uic := by
  unfold utf8Width
  split
  · decide
  · split <;> decide

theorem utf8Width_le : utf8Width uic ≤ 3 := by
  unfold utf8Width
  split
  · decide
  · split <;> decide

theorem encoded_cons (u : List UInt16) : encoded (uic :: u) = utf8Bytes uic ++ encoded u :=
  List.flatMap_cons

theorem length_encoded_cons (u : List UInt16) :
    (encoded (uic :: u)).length = utf8Width uic + (encoded u).length := by
  rw [encoded_cons, List.length_append, utf8Bytes_length]

theorem strncpyLoop_eq (out : List UInt8) (h : out.length ≤ cap) :
    strncpyLoop cap u out = if out.length + (encoded u).length ≤ cap then .ok (out ++ encoded u)
      else .error .outOfBounds := by
  induction u generalizing out with
  | nil => simp [strncpyLoop, encoded, h]
  | cons uic u ih =>
    have hpos := utf8Width_pos uic
    have hne : utf8Bytes uic ≠ [] := by
      intro hnil
      rw [← utf8Bytes_length, hnil] at hpos
      cases hpos
    rw [strncpyLoop, putAll_eq, length_encoded_cons, utf8Bytes_length]
    by_cases hfits : out.length + utf8Width uic ≤ cap
    · rw [if_pos (.inr hfits), ok_bind, ih _ (by rwa [List.length_append, utf8Bytes_length]),
        List.length_append, utf8Bytes_length, encoded_cons, List.append_assoc, Nat.add_assoc]
    · rw [if_neg (by simp [hne, hfits]), error_bind, if_neg (by omega)]

theorem strncpy16to8_eq (cap : Nat) (u : List UInt16) :
    strncpy16to8 cap u = if (encoded u).length + 1 ≤ cap then .ok (encoded u ++ [0])
      else .error .outOfBounds := by
  unfold strncpy16to8
  rw [strncpyLoop_eq [] (Nat.zero_le _)]
  by_cases hfits : (encoded u).length ≤ cap
  · rw [if_pos (by simpa using hfits), ok_bind, putAll_eq]
    simp
  · rw [if_neg (by simpa using hfits), error_bind, if_neg (by omega)]

end Written

/-! ## The length -/

section Length

variable (size : SizeT) (u : List UInt16)

theorem lenFast_eq (n : Nat) (h : n + (encoded u).length ≤ size.max) :
    lenFast size u n = n + (encoded u).length := by
  induction u generalizing n with
  | nil => rfl
  | cons uic u ih =>
    rw [length_encoded_cons] at h ⊢
    rw [lenFast, Nat.mod_eq_of_lt (by omega), ih _ (by omega), Nat.add_assoc]

theorem lenSlow_eq (n : Nat) (h : n ≤ size.max) :
    lenSlow size u n = min (n + (encoded u).length) (size.max - 1) := by
  have hmax : 3 < size.max := by cases size <;> decide
  induction u generalizing n with
  | nil =>
    unfold lenSlow encoded
    simp only [List.flatMap_nil, List.length_nil, Nat.add_zero]
    split <;> omega
  | cons uic u ih =>
    have hle := utf8Width_le uic
    rw [lenSlow, length_encoded_cons]
    by_cases hover : n + utf8Width uic ≤ size.max
    · rw [Nat.mod_eq_of_lt (by omega), if_neg (by omega), ih _ hover, Nat.add_assoc]
    · have hwrap : (n + utf8Width uic) % (size.max + 1) = n + utf8Width uic - (size.max + 1) := by
        rw [Nat.mod_eq_sub_mod (by omega), Nat.mod_eq_of_lt (by omega)]
      rw [hwrap, if_pos (by omega)]
      omega

theorem length_encoded_le : (encoded u).length ≤ 3 * u.length := by
  induction u with
  | nil => exact Nat.le_refl _
  | cons uic u ih =>
    have hle := utf8Width_le uic
    rw [length_encoded_cons, List.length_cons]
    omega

theorem strnlen16to8_eq : strnlen16to8 size u = min (encoded u).length (size.max - 1) := by
  have hle := length_encoded_le u
  unfold strnlen16to8
  split
  · rw [lenFast_eq size u 0 (by omega)]
    omega
  · rw [lenSlow_eq size u 0 (Nat.zero_le _), Nat.zero_add]

end Length

/-! ## There and back -/

section RoundTrip

variable {b : UInt8} {s : List UInt8} {n : Nat} (uic : UInt16)

theorem isExt_iff (b : UInt8) : isExt b = true ↔ b.toNat / 64 = 2 := by
  have hbyte : ∀ n < 256, n &&& 0xc0 = 0x80 ↔ n / 64 = 2 := by decide +kernel
  unfold isExt
  rw [decide_eq_true_iff, ← UInt8.toNat_inj, UInt8.toNat_and]
  exact hbyte b.toNat b.toNat_lt

theorem utf8SeqLength_eq (b : UInt8) : utf8SeqLength b = if b.toNat < 0xc0 then 1
    else if b.toNat < 0xe0 then 2 else if b.toNat < 0xf0 then 3 else 4 := by
  have hbyte : ∀ n < 256, ((0xe5000000 >>> ((n >>> 3) &&& 0x1e)) &&& 3) + 1 =
      if n < 0xc0 then 1 else if n < 0xe0 then 2 else if n < 0xf0 then 3 else 4 := by
    decide +kernel
  exact hbyte b.toNat b.toNat_lt

theorem ext_bits (n : Nat) : isExt (UInt8.ofNat ((n &&& 0x3f) ||| 0x80)) = true ∧
      (UInt8.ofNat ((n &&& 0x3f) ||| 0x80)).toNat % 64 = n % 64 := by
  have hmask : n &&& 0x3f = n % 64 := Nat.and_two_pow_sub_one_eq_mod n 6
  have hlow : n % 64 < 2 ^ 6 := Nat.mod_lt _ (by decide)
  have hor : n % 64 ||| 0x80 = 0x80 + n % 64 := by
    rw [Nat.or_comm]
    exact (Nat.two_pow_add_eq_or_of_lt hlow 2).symm
  have hto : (UInt8.ofNat ((n &&& 0x3f) ||| 0x80)).toNat = 0x80 + n % 64 := by
    rw [hmask, hor, UInt8.toNat_ofNat']
    omega
  rw [isExt_iff, hto]
  omega

theorem lead_two (h : n < 32) : (UInt8.ofNat (n ||| 0xc0)).toNat = 0xc0 + n := by
  have hor : n ||| 0xc0 = 0xc0 + n := by
    rw [Nat.or_comm]
    exact (Nat.two_pow_add_eq_or_of_lt (i := 5) h 6).symm
  rw [hor, UInt8.toNat_ofNat']
  omega

theorem lead_three (h : n < 16) : (UInt8.ofNat (n ||| 0xe0)).toNat = 0xe0 + n := by
  have hor : n ||| 0xe0 = 0xe0 + n := by
    rw [Nat.or_comm]
    exact (Nat.two_pow_add_eq_or_of_lt (i := 4) h 14).symm
  rw [hor, UInt8.toNat_ofNat']
  omega

theorem ne_zero_of_toNat (h : 0 < b.toNat) : b ≠ 0 := by
  rintro rfl
  cases h

theorem isExt_false (h : b.toNat / 64 ≠ 2) : isExt b = false := by
  rw [← Bool.not_eq_true, isExt_iff]
  exact h

theorem extLoop_ext (n ret : Nat) (hb : isExt b = true) :
    extLoop (n + 1) ret (b :: s) = extLoop n (ret * 64 + b.toNat % 64) s := by
  have hne : b ≠ 0 := by
    rintro rfl
    cases hb
  rw [extLoop, if_neg hne, if_pos hb, shiftAndMask_eq]

theorem getUtf32_of_lead (hpos : 0 < b.toNat) (hext : isExt b = false) (hn : utf8SeqLength b = n) :
    getUtf32FromUtf8 (b :: s) = extLoop (n - 1) (b.toNat &&& leaderMask n) s := by
  rw [getUtf32FromUtf8, if_neg (by simp [hext])]
  rw [if_neg (ne_zero_of_toNat hpos), hn]

theorem getUtf32_utf8Bytes (s : List UInt8) :
    getUtf32FromUtf8 (utf8Bytes uic ++ s) = .ok (uic.toNat, s) := by
  have hlt : uic.toNat < 65536 := uic.toNat_lt
  unfold utf8Bytes
  split
  · next hthree =>
    have hlead : (UInt8.ofNat ((uic.toNat >>> 12) ||| 0xe0)).toNat = 0xe0 + uic.toNat / 4096 := by
      rw [Nat.shiftRight_eq_div_pow]
      exact lead_three (by omega)
    obtain ⟨hmid, hmid'⟩ := ext_bits (uic.toNat >>> 6)
    obtain ⟨hlow, hlow'⟩ := ext_bits uic.toNat
    have hmask : (0xe0 + uic.toNat / 4096) &&& 0x0f = uic.toNat / 4096 := by
      rw [show (0x0f : Nat) = 2 ^ 4 - 1 from rfl, Nat.and_two_pow_sub_one_eq_mod]
      omega
    simp only [List.cons_append, List.nil_append]
    rw [getUtf32_of_lead (n := 3) (by omega) (isExt_false (by omega))
      (by rw [utf8SeqLength_eq, hlead, if_neg (by omega), if_neg (by omega), if_pos (by omega)]),
      hlead, show leaderMask 3 = 0x0f from rfl, hmask, extLoop_ext _ _ hmid,
      extLoop_ext _ _ hlow, hmid', hlow', Nat.shiftRight_eq_div_pow]
    have hvalue : (uic.toNat / 4096 * 64 + uic.toNat / 2 ^ 6 % 64) * 64 + uic.toNat % 64 =
        uic.toNat := by
      omega
    rw [hvalue]
    rfl
  · next hthree =>
    split
    · next htwo =>
      have hlead : (UInt8.ofNat ((uic.toNat >>> 6) ||| 0xc0)).toNat =
          0xc0 + uic.toNat / 64 := by
        rw [Nat.shiftRight_eq_div_pow]
        exact lead_two (by omega)
      obtain ⟨hlow, hlow'⟩ := ext_bits uic.toNat
      have hmask : (0xc0 + uic.toNat / 64) &&& 0x1f = uic.toNat / 64 := by
        rw [show (0x1f : Nat) = 2 ^ 5 - 1 from rfl, Nat.and_two_pow_sub_one_eq_mod]
        omega
      simp only [List.cons_append, List.nil_append]
      rw [getUtf32_of_lead (n := 2) (by omega) (isExt_false (by omega))
        (by rw [utf8SeqLength_eq, hlead, if_neg (by omega), if_pos (by omega)]),
        hlead, show leaderMask 2 = 0x1f from rfl, hmask, extLoop_ext _ _ hlow, hlow']
      have hvalue : uic.toNat / 64 * 64 + uic.toNat % 64 = uic.toNat := by omega
      rw [hvalue]
      rfl
    · next hone =>
      have hpos : 0 < uic.toNat := by
        refine Nat.pos_of_ne_zero fun hzero => hone (.inr ?_)
        exact UInt16.toNat_inj.1 hzero
      have hlead : (UInt8.ofNat uic.toNat).toNat = uic.toNat := by
        rw [UInt8.toNat_ofNat']
        omega
      have hmask : uic.toNat &&& 0xff = uic.toNat := by
        rw [show (0xff : Nat) = 2 ^ 8 - 1 from rfl, Nat.and_two_pow_sub_one_eq_mod]
        omega
      simp only [List.cons_append, List.nil_append]
      rw [getUtf32_of_lead (n := 1) (by omega) (isExt_false (by omega))
        (by rw [utf8SeqLength_eq, hlead, if_pos (by omega)]),
        hlead, show leaderMask 1 = 0xff from rfl, hmask]
      rfl

theorem utf8Bytes_ne_zero : 0 ∉ utf8Bytes uic := by
  have hext (n : Nat) : (0 : UInt8) ≠ UInt8.ofNat ((n &&& 0x3f) ||| 0x80) := by
    intro hzero
    have hbits := (ext_bits n).1
    rw [← hzero] at hbits
    cases hbits
  have hlead {n k : Nat} (hk : 0 < k) (h : (UInt8.ofNat n).toNat = k) : (0 : UInt8) ≠ .ofNat n := by
    intro hzero
    rw [← hzero] at h
    cases h
    cases hk
  have hlt : uic.toNat < 65536 := uic.toNat_lt
  unfold utf8Bytes
  rw [Nat.shiftRight_eq_div_pow, Nat.shiftRight_eq_div_pow]
  split
  · simp only [List.mem_cons, List.not_mem_nil, or_false, not_or]
    exact ⟨hlead (by omega) (lead_three (by omega)), hext _, hext _⟩
  · next hthree =>
    split
    · simp only [List.mem_cons, List.not_mem_nil, or_false, not_or]
      exact ⟨hlead (by omega) (lead_two (by omega)), hext _⟩
    · next hone =>
      have hpos : 0 < uic.toNat := by
        refine Nat.pos_of_ne_zero fun hzero => hone (.inr ?_)
        exact UInt16.toNat_inj.1 hzero
      rw [List.mem_singleton]
      refine hlead hpos ?_
      rw [UInt8.toNat_ofNat']
      omega

theorem zero_not_mem_encoded (u : List UInt16) : 0 ∉ encoded u := by
  unfold encoded
  rw [List.mem_flatMap]
  rintro ⟨uic, -, hmem⟩
  exact utf8Bytes_ne_zero uic hmem

theorem utf16Units_toNat : utf16Units uic.toNat = [uic] := by
  have hlt : uic.toNat < 65536 := uic.toNat_lt
  unfold utf16Units
  rw [if_pos (by omega), UInt16.ofNat_toNat]

theorem strcpy8to16_encoded (u : List UInt16) : strcpy8to16 (encoded u ++ [0]) = .ok u := by
  induction u with
  | nil => exact strcpy8to16_nul []
  | cons uic u ih =>
    have hget := getUtf32_utf8Bytes uic (encoded u ++ [0])
    have hne := utf8Bytes_ne_zero uic
    rw [encoded_cons, List.append_assoc]
    cases hbytes : utf8Bytes uic with
    | nil =>
      have hpos := utf8Width_pos uic
      rw [← utf8Bytes_length, hbytes] at hpos
      cases hpos
    | cons b bs =>
      rw [hbytes] at hget hne
      have hb : b ≠ 0 := fun h => hne (h ▸ List.mem_cons_self)
      rw [List.cons_append] at hget ⊢
      rw [strcpy8to16_cons hb hget, ih, ok_bind, utf16Units_toNat]
      rfl

end RoundTrip

/-! ## The property -/

/-- The conversion of a string of code units. Into whatever buffer it is written, what is written is
    as long as `strnlen16to8` says, has a 0 only behind it, and is read back. A buffer that
    `strndup16to8` makes is large enough. -/
structure GoesBack (size : SizeT) (u : List UInt16) : Prop where
  written : ∀ cap ≤ size.max, ∀ out, strncpy16to8 cap u = .ok out → ∃ bytes, out = bytes ++ [0] ∧
    0 ∉ bytes ∧ bytes.length = strnlen16to8 size u ∧ strcpy8to16 out = .ok u
  fits : strnlen16to8 size u < size.max - 1 →
    ∃ out, strncpy16to8 (strnlen16to8 size u + 1) u = .ok out

theorem goesBack (size : SizeT) (u : List UInt16) : GoesBack size u where
  written cap hcap out hout := by
    rw [strncpy16to8_eq] at hout
    split at hout
    · next hfits =>
      cases hout
      refine ⟨encoded u, rfl, zero_not_mem_encoded u, ?_, strcpy8to16_encoded u⟩
      rw [strnlen16to8_eq]
      omega
    · cases hout
  fits hlt := by
    rw [strnlen16to8_eq] at hlt ⊢
    have hmin : min (encoded u).length (size.max - 1) = (encoded u).length := by omega
    rw [hmin, strncpy16to8_eq, if_pos (Nat.le_refl _)]
    exact ⟨_, rfl⟩

/-- **The conversions.** Any string of code units goes to bytes and back, and any string of bytes is
    read up to its end only and fits into its buffer, the latter if and only if neither the run of
    extension bytes nor the number of code units is more than `strlen8to16` can count. -/
theorem conversions_iff (size : SizeT) (u : List UInt16) (s : ByteText) :
    (GoesBack size u ∧ (∃ units, strcpy8to16 s.memory = .ok units) ∧ FitsBuffer size s) ↔
      RunsFit s.bytes ∧ charCount s.bytes 0 ≤ size.max := by
  rw [← fitsBuffer_iff]
  exact ⟨fun h => h.2.2, fun h => ⟨goesBack size u, strcpy8to16_ok s, h⟩⟩

/-- A string of extension bytes. -/
def extText (n : Nat) : ByteText where
  bytes := List.replicate n 0x80
  noNul h := absurd (List.eq_of_mem_replicate h) (by decide)

/-- So many of them that the `int` goes below its least value. -/
theorem conversions_overflow : ¬ ∀ size u (s : ByteText),
    GoesBack size u ∧ (∃ units, strcpy8to16 s.memory = .ok units) ∧ FitsBuffer size s := by
  intro h
  obtain ⟨n, hn⟩ : ∃ n, n = 0x80000001 := ⟨_, rfl⟩
  have hruns := ((fitsBuffer_iff .bits64 (extText n)).1 (h .bits64 [] (extText n)).2.2).1
  have hshort := hruns.front (List.replicate n 0x80) List.prefix_rfl fun b hb => by
    rw [List.eq_of_mem_replicate hb]
    decide
  rw [List.length_replicate, hn] at hshort
  cases hshort

end Nx508j.Shims
