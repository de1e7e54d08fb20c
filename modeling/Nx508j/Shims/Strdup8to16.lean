import Mathlib.Tactic.IntervalCases
import Nx508j.Lib.Memory

/-! # From modified UTF-8 to UTF-16

`strlen8to16` counts the code units that a string of bytes becomes, and `strcpy8to16` writes them to
a buffer of that size. The first goes through the bytes one by one and remembers how many extension
bytes are still expected, the second goes from lead byte to lead byte. A byte out of place becomes a
replacement character. -/

namespace Nx508j.Shims

open Nx508j.Lib

/-! ## The functions

The memory of a string is the list of its bytes with the one that is 0 at the end. To read past its
end is a fault. -/

/-- How wide `size_t` is. -/
inductive SizeT where
  | bits32
  | bits64
deriving DecidableEq, Repr

/-- `SIZE_MAX` -/
def SizeT.max : SizeT → Nat
  | .bits32 => 0xffffffff
  | .bits64 => 0xffffffffffffffff

def utf16ReplacementChar : Nat := 0xfffd

def unicodeUpperLimit : Nat := 0x10fffd

/-- `UTF8_SEQ_LENGTH` -/
def utf8SeqLength (ch : UInt8) : Nat := ((0xe5000000 >>> ((ch.toNat >>> 3) &&& 0x1e)) &&& 3) + 1

/-- An extension byte, which starts with the bits 10. -/
def isExt (ch : UInt8) : Bool := ch &&& 0xc0 = 0x80

/-- The loop of `strlen8to16`. An `int` does not go below its least value. -/
def strlenLoop (size : SizeT) : List UInt8 → Nat → Int → Except Fault Nat
  | [], _, _ => .error .outOfBounds
  | ic :: s, len, expected =>
    if ic = 0 then .ok len
    else if isExt ic then
      if expected - 1 < -0x80000000 then .error .outOfBounds
      else
        strlenLoop size s (if expected - 1 < 0 then (len + 1) % (size.max + 1) else len)
          (expected - 1)
    else
      let len := (len + 1) % (size.max + 1)
      let expected : Int := utf8SeqLength ic - 1
      strlenLoop size s (if expected = 3 then (len + 1) % (size.max + 1) else len) expected

def strlen8to16 (size : SizeT) (utf8Str : List UInt8) : Except Fault Nat :=
  strlenLoop size utf8Str 0 0

/-- `leaderMask`, by the length of the sequence. -/
def leaderMask : Nat → Nat
  | 1 => 0xff
  | 2 => 0x1f
  | 3 => 0x0f
  | _ => 0x07

/-- `UTF8_SHIFT_AND_MASK` -/
def utf8ShiftAndMask (unicode : Nat) (byte : UInt8) : Nat :=
  (unicode <<< 6) ||| (0x3f &&& byte.toNat)

/-- The loop of `getUtf32FromUtf8` over the extension bytes. -/
def extLoop : Nat → Nat → List UInt8 → Except Fault (Nat × List UInt8)
  | 0, ret, s => .ok (ret, s)
  | _ + 1, _, [] => .error .outOfBounds
  | n + 1, ret, b :: s =>
    if b = 0 then .ok (utf16ReplacementChar, b :: s)
    else if isExt b then extLoop n (utf8ShiftAndMask ret b) s
    else .ok (utf16ReplacementChar, b :: s)

/-- `getUtf32FromUtf8`: the character, and what comes after it. -/
def getUtf32FromUtf8 : List UInt8 → Except Fault (Nat × List UInt8)
  | [] => .error .outOfBounds
  | b :: s =>
    if isExt b then .ok (utf16ReplacementChar, s)
    else
      let seq_len := utf8SeqLength b
      let ret := b.toNat &&& leaderMask seq_len
      if b = 0 then .ok (ret, b :: s) else extLoop (seq_len - 1) ret s

/-- The code units of a character. -/
def utf16Units (ret : Nat) : List UInt16 :=
  if ret ≤ 0xffff then [UInt16.ofNat ret]
  else if ret ≤ unicodeUpperLimit then
    [UInt16.ofNat (0xd800 ||| ((ret - 0x10000) >>> 10)),
      UInt16.ofNat (0xdc00 ||| ((ret - 0x10000) &&& 0x3ff))]
  else [UInt16.ofNat utf16ReplacementChar]

theorem extLoop_length {n ret : Nat} {s rest : List UInt8} {ret' : Nat}
    (h : extLoop n ret s = .ok (ret', rest)) : rest.length ≤ s.length := by
  induction n generalizing ret s with
  | zero =>
    cases h
    exact Nat.le_refl _
  | succ n ih =>
    cases s with
    | nil => cases h
    | cons b s =>
      rw [extLoop] at h
      split at h
      · cases h
        exact Nat.le_refl _
      · split at h
        · exact Nat.le_succ_of_le (ih h)
        · cases h
          exact Nat.le_refl _

theorem getUtf32FromUtf8_length {b : UInt8} (hb : b ≠ 0) {s rest : List UInt8} {ret : Nat}
    (h : getUtf32FromUtf8 (b :: s) = .ok (ret, rest)) : rest.length < (b :: s).length := by
  rw [getUtf32FromUtf8] at h
  split at h
  · cases h
    exact Nat.lt_succ_self _
  · exact Nat.lt_succ_of_le (extLoop_length h)

/-- `strcpy8to16`: the code units that are written, whose number goes to `out_len`. -/
def strcpy8to16 : List UInt8 → Except Fault (List UInt16)
  | [] => .error .outOfBounds
  | b :: s =>
    if _hb : b = 0 then .ok []
    else
      match _h : getUtf32FromUtf8 (b :: s) with
      | .error f => .error f
      | .ok (ret, rest) => do
          let units ← strcpy8to16 rest
          .ok (utf16Units ret ++ units)
termination_by s => s.length
decreasing_by exact getUtf32FromUtf8_length _hb _h

/-- A string of bytes, none of which is 0. -/
structure ByteText where
  bytes : List UInt8
  noNul : 0 ∉ bytes

/-- Its memory. -/
def ByteText.memory (s : ByteText) : List UInt8 := s.bytes ++ [0]

/-! ## What the lengths depend on -/

/-- No run of extension bytes at the front is longer than this. -/
def FrontFits (s : List UInt8) (room : Int) : Prop :=
  ∀ run, run <+: s → (∀ b ∈ run, isExt b = true) → (run.length : Int) ≤ room

/-- No run of extension bytes behind a lead byte exceeds what the lead byte says by more than an
    `int` can count. -/
def LeadsFit (s : List UInt8) : Prop :=
  ∀ lead run, lead :: run <:+: s → isExt lead = false → (∀ b ∈ run, isExt b = true) →
    run.length ≤ 0x80000000 + (utf8SeqLength lead - 1)

/-- The same for the start of the string, where none is expected. -/
structure RunsFit (s : List UInt8) : Prop where
  front : FrontFits s 0x80000000
  leads : LeadsFit s

/-- The lead bytes, those of four bytes twice, and the extension bytes that are not expected. -/
def charCount : List UInt8 → Nat → Nat
  | [], _ => 0
  | b :: s, expected =>
    if isExt b then
      match expected with
      | 0 => 1 + charCount s 0
      | n + 1 => charCount s n
    else (if utf8SeqLength b = 4 then 2 else 1) + charCount s (utf8SeqLength b - 1)

/-! ## Counting -/

section Counting

variable {s : List UInt8} {b : UInt8} {size : SizeT}

theorem utf8SeqLength_le (b : UInt8) : utf8SeqLength b ≤ 4 :=
  Nat.succ_le_succ Nat.and_le_right

theorem utf8SeqLength_pos (b : UInt8) : 0 < utf8SeqLength b := Nat.succ_pos _

theorem charCount_ext_zero (hb : isExt b = true) : charCount (b :: s) 0 = 1 + charCount s 0 := by
  rw [charCount.eq_def]
  exact if_pos hb

theorem charCount_ext_succ (hb : isExt b = true) (n : Nat) :
    charCount (b :: s) (n + 1) = charCount s n := by
  rw [charCount.eq_def]
  exact if_pos hb

theorem charCount_lead (hb : isExt b = false) (n : Nat) :
    charCount (b :: s) n =
      (if utf8SeqLength b = 4 then 2 else 1) + charCount s (utf8SeqLength b - 1) := by
  rw [charCount.eq_def]
  exact if_neg (by simp [hb])

theorem frontFits_ext (hb : isExt b = true) (room : Int) (hroom : 0 ≤ room) :
    FrontFits (b :: s) room ↔ 1 ≤ room ∧ FrontFits s (room - 1) := by
  constructor
  · intro h
    refine ⟨h [b] (by simp) (by simpa using hb), fun run hrun hext => ?_⟩
    have hlong := h (b :: run) ((List.prefix_cons_inj b).2 hrun) (by simpa [hb] using hext)
    rw [List.length_cons] at hlong
    omega
  · rintro ⟨hone, h⟩ run hrun hext
    cases run with
    | nil => simpa using hroom
    | cons b' run =>
      obtain ⟨rfl, hrun'⟩ := List.cons_prefix_cons.1 hrun
      have hshort := h run hrun' fun x hx => hext x (List.mem_cons_of_mem _ hx)
      rw [List.length_cons]
      omega

theorem frontFits_lead (hb : isExt b = false) {room : Int} (hroom : 0 ≤ room) :
    FrontFits (b :: s) room := by
  intro run hrun hext
  cases run with
  | nil => simpa using hroom
  | cons b' run =>
    obtain ⟨rfl, -⟩ := List.cons_prefix_cons.1 hrun
    have := hext b' List.mem_cons_self
    rw [hb] at this
    cases this

theorem leadsFit_ext (hb : isExt b = true) : LeadsFit (b :: s) ↔ LeadsFit s := by
  constructor
  · intro h lead run hin
    exact h lead run (List.infix_cons hin)
  · intro h lead run hin hlead
    rcases List.infix_cons_iff.1 hin with hpre | hin
    · obtain ⟨rfl, -⟩ := List.cons_prefix_cons.1 hpre
      rw [hb] at hlead
      cases hlead
    · exact h lead run hin hlead

theorem leadsFit_lead (hb : isExt b = false) :
    LeadsFit (b :: s) ↔
      FrontFits s (0x80000000 + ((utf8SeqLength b : Int) - 1)) ∧ LeadsFit s := by
  have hpos := utf8SeqLength_pos b
  constructor
  · intro h
    refine ⟨fun run hrun hext => ?_, fun lead run hin => h lead run (List.infix_cons hin)⟩
    have hshort := h b run ((List.prefix_cons_inj b).2 hrun).isInfix hb hext
    omega
  · rintro ⟨hfront, h⟩ lead run hin hlead hext
    rcases List.infix_cons_iff.1 hin with hpre | hin
    · obtain ⟨rfl, hrun⟩ := List.cons_prefix_cons.1 hpre
      have hshort := hfront run hrun hext
      omega
    · exact h lead run hin hlead hext

theorem strlenLoop_ok_iff (size : SizeT) (hs : 0 ∉ s) (len : Nat) (expected : Int)
    (hexpected : -0x80000000 ≤ expected) : (∃ n, strlenLoop size (s ++ [0]) len expected = .ok n) ↔
      FrontFits s (0x80000000 + expected) ∧ LeadsFit s := by
  induction s generalizing len expected with
  | nil =>
    refine ⟨fun _ => ⟨fun run hrun _ => ?_, fun lead run hin => ?_⟩, fun _ => ⟨len, rfl⟩⟩
    · obtain rfl := List.prefix_nil.1 hrun
      simp
      omega
    · exact absurd (List.infix_nil.1 hin) (by simp)
  | cons b s ih =>
    have hb : b ≠ 0 := fun h => hs (h ▸ List.mem_cons_self)
    have hs' : 0 ∉ s := fun h => hs (List.mem_cons_of_mem b h)
    rw [List.cons_append, strlenLoop, if_neg hb]
    cases hext : isExt b with
    | true =>
      rw [if_pos rfl, frontFits_ext hext _ (by omega), leadsFit_ext hext]
      by_cases hlow : expected - 1 < -0x80000000
      · rw [if_pos hlow]
        constructor
        · rintro ⟨n, h⟩
          cases h
        · rintro ⟨⟨hone, -⟩, -⟩
          omega
      · rw [if_neg hlow, ih hs' _ _ (by omega)]
        have hroom : 0x80000000 + expected - 1 = 0x80000000 + (expected - 1) := by omega
        have hone : 1 ≤ 0x80000000 + expected := by omega
        rw [hroom]
        exact ⟨fun h => ⟨⟨hone, h.1⟩, h.2⟩, fun h => ⟨h.1.2, h.2⟩⟩
    | false =>
      rw [if_neg (by simp), leadsFit_lead hext]
      rw [ih hs' _ _ (by omega)]
      exact ⟨fun h => ⟨frontFits_lead hext (by omega), h⟩, fun h => h.2⟩

theorem strlenLoop_value (hs : 0 ∉ s) {len n : Nat} {expected : Int}
    (h : strlenLoop size (s ++ [0]) len expected = .ok n) (hlen : len ≤ size.max) :
    n = (len + charCount s expected.toNat) % (size.max + 1) := by
  induction s generalizing len expected with
  | nil =>
    cases h
    exact (Nat.mod_eq_of_lt (Nat.lt_succ_of_le hlen)).symm
  | cons b s ih =>
    have hb : b ≠ 0 := fun h => hs (h ▸ List.mem_cons_self)
    have hs' : 0 ∉ s := fun h => hs (List.mem_cons_of_mem b h)
    have hmod (n : Nat) : n % (size.max + 1) ≤ size.max :=
      Nat.le_of_lt_succ (Nat.mod_lt _ (Nat.succ_pos _))
    rw [List.cons_append, strlenLoop, if_neg hb] at h
    cases hext : isExt b with
    | true =>
      rw [hext, if_pos rfl] at h
      split at h
      · cases h
      by_cases hneg : expected - 1 < 0
      · rw [if_pos hneg] at h
        have hzero : expected.toNat = 0 := by omega
        have hzero' : (expected - 1).toNat = 0 := by omega
        rw [ih hs' h (hmod _), hzero, hzero', charCount_ext_zero hext, Nat.mod_add_mod,
          Nat.add_assoc]
      · rw [if_neg hneg] at h
        obtain ⟨k, hk⟩ : ∃ k, expected.toNat = k + 1 := ⟨expected.toNat - 1, by omega⟩
        have hk' : (expected - 1).toNat = k := by omega
        rw [ih hs' h hlen, hk, hk', charCount_ext_succ hext]
    | false =>
      rw [hext, if_neg (by simp)] at h
      have hto : ((utf8SeqLength b : Int) - 1).toNat = utf8SeqLength b - 1 := by omega
      rw [charCount_lead hext]
      dsimp only at h
      by_cases hfour : (utf8SeqLength b : Int) - 1 = 3
      · rw [if_pos hfour] at h
        rw [ih hs' h (hmod _), hto, if_pos (by omega), Nat.mod_add_mod, Nat.add_assoc,
          Nat.mod_add_mod, Nat.add_assoc, ← Nat.add_assoc 1 1]
      · rw [if_neg hfour] at h
        rw [ih hs' h (hmod _), hto, if_neg (by omega), Nat.mod_add_mod, Nat.add_assoc]

end Counting

/-! ## Converting -/

section Converting

variable {s : List UInt8} {b : UInt8} (ret : Nat)

theorem shiftAndMask_eq (b : UInt8) : utf8ShiftAndMask ret b = ret * 64 + b.toNat % 64 := by
  have hmask : 0x3f &&& b.toNat = b.toNat % 64 := by
    rw [Nat.and_comm]
    exact Nat.and_two_pow_sub_one_eq_mod b.toNat 6
  have hlow : b.toNat % 64 < 2 ^ 6 := Nat.mod_lt _ (by decide)
  unfold utf8ShiftAndMask
  rw [hmask, Nat.shiftLeft_eq, Nat.mul_comm, ← Nat.two_pow_add_eq_or_of_lt hlow]

/-- What the loop over the extension bytes does: it takes as many as there are, up to `n`. -/
structure ExtSpec (n ret : Nat) (s : List UInt8) (ret' : Nat) (rest : List UInt8) : Prop where
  result : extLoop n ret (s ++ [0]) = .ok (ret', rest ++ [0])
  length_le : rest.length ≤ s.length
  noNul : 0 ∉ rest
  count : ∃ k ≤ n, charCount s n = charCount rest k ∧
    ∀ b t, rest = b :: t → isExt b = true → k = 0
  bound : ∀ m, ret < m → ret' ≤ utf16ReplacementChar ∨ ret' < m * 64 ^ n

theorem extLoop_spec (n ret : Nat) (hs : 0 ∉ s) : ∃ ret' rest, ExtSpec n ret s ret' rest := by
  induction n generalizing ret s with
  | zero =>
    refine ⟨ret, s, rfl, Nat.le_refl _, hs, ⟨0, Nat.le_refl _, rfl, fun _ _ _ _ => rfl⟩, ?_⟩
    intro m hm
    exact .inr (by simpa using hm)
  | succ n ih =>
    cases s with
    | nil =>
      refine ⟨_, [], rfl, Nat.le_refl _, hs, ⟨n + 1, Nat.le_refl _, rfl, by simp⟩, ?_⟩
      exact fun _ _ => .inl (Nat.le_refl _)
    | cons b s =>
      have hb : b ≠ 0 := fun h => hs (h ▸ List.mem_cons_self)
      have hs' : 0 ∉ s := fun h => hs (List.mem_cons_of_mem b h)
      cases hext : isExt b with
      | true =>
        obtain ⟨ret', rest, h⟩ := ih (utf8ShiftAndMask ret b) hs'
        obtain ⟨k, hk, hcount, hstart⟩ := h.count
        refine ⟨ret', rest, ?_, Nat.le_succ_of_le h.length_le, h.noNul,
          ⟨k, Nat.le_succ_of_le hk, ?_, hstart⟩, ?_⟩
        · rw [List.cons_append, extLoop, if_neg hb, if_pos hext]
          exact h.result
        · rw [charCount_ext_succ hext]
          exact hcount
        · intro m hm
          have hshift : utf8ShiftAndMask ret b < m * 64 := by
            rw [shiftAndMask_eq]
            omega
          rw [Nat.pow_succ', ← Nat.mul_assoc]
          exact h.bound _ hshift
      | false =>
        refine ⟨_, b :: s, ?_, Nat.le_refl _, hs, ⟨n + 1, Nat.le_refl _, rfl, ?_⟩,
          fun _ _ => .inl (Nat.le_refl _)⟩
        · rw [List.cons_append, extLoop, if_neg hb, if_neg (by simp [hext])]
        · rintro b' t ⟨⟩ hext'
          rw [hext] at hext'
          cases hext'

theorem utf16Units_length_pos : 1 ≤ (utf16Units ret).length := by
  unfold utf16Units
  split
  · simp
  · split <;> simp

theorem utf16Units_length_le : (utf16Units ret).length ≤ 2 := by
  unfold utf16Units
  split
  · simp
  · split <;> simp

theorem utf16Units_length_one {ret : Nat} (h : ret ≤ 0xffff) : (utf16Units ret).length = 1 := by
  unfold utf16Units
  rw [if_pos h]
  rfl

theorem bmp_of_seqLength {n ret ret' : Nat} {rest : List UInt8} (hn : n < 4) (hn' : 0 < n)
    (hret : ret ≤ leaderMask n) (h : ExtSpec (n - 1) ret s ret' rest) : ret' ≤ 0xffff := by
  have hrepl : utf16ReplacementChar ≤ 0xffff := by decide
  rcases h.bound (leaderMask n + 1) (Nat.lt_succ_of_le hret) with hle | hlt
  · exact Nat.le_trans hle hrepl
  · have hmask : (leaderMask n + 1) * 64 ^ (n - 1) ≤ 0x10000 := by
      interval_cases n <;> decide
    omega

theorem getUtf32_lead (hb : b ≠ 0) (hext : isExt b = false) (hs : 0 ∉ s) :
    ∃ ret rest, getUtf32FromUtf8 (b :: (s ++ [0])) = .ok (ret, rest ++ [0]) ∧
      rest.length ≤ s.length ∧ 0 ∉ rest ∧
      (∃ k, charCount s (utf8SeqLength b - 1) = charCount rest k ∧
        ∀ c t, rest = c :: t → isExt c = true → k = 0) ∧
      (utf16Units ret).length ≤ if utf8SeqLength b = 4 then 2 else 1 := by
  obtain ⟨ret, rest, h⟩ := extLoop_spec (utf8SeqLength b - 1)
    (b.toNat &&& leaderMask (utf8SeqLength b)) hs
  obtain ⟨k, -, hcount, hstart⟩ := h.count
  refine ⟨ret, rest, ?_, h.length_le, h.noNul, ⟨k, hcount, hstart⟩, ?_⟩
  · rw [getUtf32FromUtf8, if_neg (by simp [hext])]
    rw [if_neg hb]
    exact h.result
  · split
    · exact utf16Units_length_le ret
    · next hfour =>
      have hle := utf8SeqLength_le b
      exact Nat.le_of_eq (utf16Units_length_one
        (bmp_of_seqLength (by omega) (utf8SeqLength_pos b) Nat.and_le_right h))

theorem strcpy8to16_nul (s : List UInt8) : strcpy8to16 (0 :: s) = .ok [] := by
  rw [strcpy8to16, dif_pos rfl]

theorem strcpy8to16_cons (hb : b ≠ 0) {ret : Nat} {rest : List UInt8}
    (h : getUtf32FromUtf8 (b :: s) = .ok (ret, rest)) :
    strcpy8to16 (b :: s) = strcpy8to16 rest >>= fun units => .ok (utf16Units ret ++ units) := by
  rw [strcpy8to16, dif_neg hb]
  split
  · next f h' =>
    rw [h] at h'
    cases h'
  · next ret' rest' h' =>
    rw [h] at h'
    cases h'
    rfl

/-- Both functions agree on each sequence: what is counted is not less than what is written, and at
    most twice as much. -/
theorem strcpy8to16_count (hs : 0 ∉ s) (expected : Nat)
    (hstart : ∀ b t, s = b :: t → isExt b = true → expected = 0) :
    ∃ units, strcpy8to16 (s ++ [0]) = .ok units ∧ units.length ≤ charCount s expected ∧
      charCount s expected ≤ 2 * units.length := by
  -- by the length of what is left, since a whole sequence is taken at a time
  induction hlen : s.length using Nat.strong_induction_on generalizing s expected with
  | _ n ih =>
    cases s with
    | nil => exact ⟨[], strcpy8to16_nul [], Nat.le_refl _, Nat.le_refl _⟩
    | cons b s =>
      have hb : b ≠ 0 := fun h => hs (h ▸ List.mem_cons_self)
      have hs' : 0 ∉ s := fun h => hs (List.mem_cons_of_mem b h)
      have hn : s.length < n := by
        rw [← hlen]
        exact Nat.lt_succ_self _
      cases hext : isExt b with
      | true =>
        obtain rfl := hstart b s rfl hext
        obtain ⟨units, hcpy, hle, hge⟩ := ih _ hn hs' 0 (fun _ _ _ _ => rfl) rfl
        have hget : getUtf32FromUtf8 (b :: (s ++ [0])) =
            .ok (utf16ReplacementChar, s ++ [0]) := by
          rw [getUtf32FromUtf8, if_pos hext]
        have hone : (utf16Units utf16ReplacementChar).length = 1 := rfl
        refine ⟨utf16Units utf16ReplacementChar ++ units, ?_, ?_, ?_⟩
        · rw [List.cons_append, strcpy8to16_cons hb hget, hcpy, ok_bind]
        · rw [List.length_append, hone, charCount_ext_zero hext]
          omega
        · rw [List.length_append, hone, charCount_ext_zero hext]
          omega
      | false =>
        obtain ⟨ret, rest, hget, hrest, hnul, ⟨k, hcount, hstart'⟩, hunits⟩ :=
          getUtf32_lead hb hext hs'
        obtain ⟨units, hcpy, hle, hge⟩ :=
          ih _ (Nat.lt_of_le_of_lt hrest hn) hnul k hstart' rfl
        have hpos := utf16Units_length_pos ret
        refine ⟨utf16Units ret ++ units, ?_, ?_, ?_⟩
        · rw [List.cons_append, strcpy8to16_cons hb hget, hcpy, ok_bind]
        · rw [List.length_append, charCount_lead hext, hcount]
          omega
        · rw [List.length_append, charCount_lead hext, hcount]
          split <;> omega

end Converting

/-! ## The buffer -/

/-- A string is converted to its end, and what is written fits into what is counted. -/
def FitsBuffer (size : SizeT) (s : ByteText) : Prop :=
  ∃ units, strcpy8to16 s.memory = .ok units ∧
    ∃ len, strlen8to16 size s.memory = .ok len ∧ units.length ≤ len

theorem strcpy8to16_ok (s : ByteText) : ∃ units, strcpy8to16 s.memory = .ok units := by
  obtain ⟨units, hcpy, -⟩ := strcpy8to16_count s.noNul 0 fun _ _ _ _ => rfl
  exact ⟨units, hcpy⟩

theorem strlen8to16_ok_iff (size : SizeT) (s : ByteText) :
    (∃ len, strlen8to16 size s.memory = .ok len) ↔ RunsFit s.bytes := by
  unfold strlen8to16 ByteText.memory
  rw [strlenLoop_ok_iff size s.noNul 0 0 (by decide)]
  exact ⟨fun h => ⟨by simpa using h.1, h.2⟩, fun h => ⟨by simpa using h.front, h.leads⟩⟩

theorem fitsBuffer_iff (size : SizeT) (s : ByteText) :
    FitsBuffer size s ↔ RunsFit s.bytes ∧ charCount s.bytes 0 ≤ size.max := by
  obtain ⟨units, hcpy, hle, hge⟩ := strcpy8to16_count s.noNul 0 fun _ _ _ _ => rfl
  have hvalue {len : Nat} (hlen : strlen8to16 size s.memory = .ok len) :
      len = charCount s.bytes 0 % (size.max + 1) := by
    have hloop := strlenLoop_value s.noNul hlen (Nat.zero_le _)
    rwa [Nat.zero_add] at hloop
  constructor
  · rintro ⟨units', hcpy', len, hlen, hfits⟩
    cases hcpy.symm.trans hcpy'
    refine ⟨(strlen8to16_ok_iff size s).1 ⟨len, hlen⟩, Nat.le_of_not_lt fun hbig => ?_⟩
    -- a count that wraps is less than half of the exact one
    have hmod : charCount s.bytes 0 % (size.max + 1) < size.max + 1 :=
      Nat.mod_lt _ (Nat.succ_pos _)
    have hdiv := Nat.mod_add_div (charCount s.bytes 0) (size.max + 1)
    have hone : size.max + 1 ≤ (size.max + 1) * (charCount s.bytes 0 / (size.max + 1)) :=
      Nat.le_mul_of_pos_right _ (Nat.div_pos (Nat.succ_le_of_lt hbig) (Nat.succ_pos _))
    rw [hvalue hlen] at hfits
    omega
  · rintro ⟨hruns, hcount⟩
    obtain ⟨len, hlen⟩ := (strlen8to16_ok_iff size s).2 hruns
    refine ⟨units, hcpy, len, hlen, ?_⟩
    rw [hvalue hlen, Nat.mod_eq_of_lt (Nat.lt_succ_of_le hcount)]
    exact hle

end Nx508j.Shims
