import Nx508j.Lib.CString

/-! # Strings of the user agent

A string that goes into the user agent is encoded in place: the characters that separate its parts
there are replaced by percent codes, as many as there is room for. -/

namespace Nx508j.Loc

open Nx508j.Lib

/-- `ENCODE` -/
structure Encode where
  ch : UInt8
  code : List UInt8
deriving DecidableEq, Repr

/-- `'/'`, `'+'`, `'|'` and `'%'` with their codes. -/
def encodings : List Encode :=
  [⟨0x2F, [0x25, 0x32, 0x46]⟩, ⟨0x2B, [0x25, 0x32, 0x42]⟩, ⟨0x7C, [0x25, 0x37, 0x43]⟩,
    ⟨0x25, [0x25, 0x32, 0x35]⟩]

/-- `NUM_CHARS_IN_CODE` -/
def numCharsInCode : Nat := 3

/-- The loop that copies a code, with the position it comes to. -/
def copyCode (size : Nat) : List UInt8 → Nat → Region UInt8 → Except Fault (Nat × Region UInt8)
  | [], outpos, buffer => .ok (outpos, buffer)
  | c :: cs, outpos, buffer =>
    if outpos + 1 < size then do
      let buffer ← buffer.write outpos c
      copyCode size cs (outpos + 1) buffer
    else .ok (outpos, buffer)

/-- The loop over the string. -/
def encodeFrom (value : Region UInt8) (size : Nat) : Nat → Nat → Nat → Region UInt8 →
    Except Fault (Nat × Region UInt8)
  | 0, _, _, _ => .error .diverges
  | fuel + 1, inpos, outpos, buffer => do
      let c ← value.read inpos
      if c ≠ 0 ∧ outpos + 1 < size then
        match encodings.find? fun e => e.ch = c with
        | none => do
            let buffer ← buffer.write outpos c
            encodeFrom value size fuel (inpos + 1) (outpos + 1) buffer
        | some e =>
          -- the last character is skipped if there is not enough room
          if size ≤ outpos + numCharsInCode then .ok (outpos, buffer)
          else do
            let (outpos, buffer) ← copyCode size e.code outpos buffer
            encodeFrom value size fuel (inpos + 1) outpos buffer
      else .ok (outpos, buffer)

/-- The loop that copies to the output, from the last character to the first. -/
def copyBack (buffer : Region UInt8) : Nat → Region UInt8 → Except Fault (Region UInt8)
  | 0, value => .ok value
  | outpos + 1, value => do
      let c ← buffer.read outpos
      let value ← value.write outpos c
      copyBack buffer outpos value

def encodeInPlace (value : Region UInt8) (size : Nat) : Except Fault (Region UInt8) := do
  let (outpos, buffer) ← encodeFrom value size (value.size + 1) 0 0 (.fill size 0)
  let value ← value.write outpos 0
  copyBack buffer outpos value

/-! ## Percent codes -/

/-- The value of a hexadecimal digit. -/
def hexValue (c : UInt8) : Option UInt8 :=
  if 0x30 ≤ c ∧ c ≤ 0x39 then some (c - 0x30)
  else if 0x41 ≤ c ∧ c ≤ 0x46 then some (c - 0x37)
  else if 0x61 ≤ c ∧ c ≤ 0x66 then some (c - 0x57)
  else none

/-- The character that a percent sign and the two behind it stand for. -/
def codeValue : List UInt8 → Option UInt8
  | p :: h :: l :: _ =>
    if p = 0x25 then (hexValue h).bind fun a => (hexValue l).map fun b => 16 * a + b
    else none
  | _ => none

/-- Percent-decoding behind so many characters that are decoded already; what is no code stands for
    itself. -/
def decodeFrom : Nat → List UInt8 → List UInt8
  | _, [] => []
  | skip + 1, _ :: s => decodeFrom skip s
  | 0, c :: s =>
    match codeValue (c :: s) with
    | some v => v :: decodeFrom 2 s
    | none => c :: decodeFrom 0 s

def percentDecode : List UInt8 → List UInt8 := decodeFrom 0

/-- What a character becomes. -/
def encodeChar (c : UInt8) : List UInt8 :=
  match encodings.find? fun e => e.ch = c with
  | none => [c]
  | some e => e.code

/-- As many characters as have room, encoded, in so many places. -/
def taken : Nat → List UInt8 → List UInt8
  | _, [] => []
  | room, c :: s =>
    if (encodeChar c).length ≤ room then c :: taken (room - (encodeChar c).length) s else []

section Codes

variable {c : UInt8} {s t : List UInt8}

theorem encodeChar_cases (c : UInt8) :
    (∀ e ∈ encodings, e.ch ≠ c) ∧ (encodings.find? fun e => e.ch = c) = none ∧
        encodeChar c = [c] ∨
      ∃ e ∈ encodings, e.ch = c ∧ (encodings.find? fun e => e.ch = c) = some e ∧
        encodeChar c = e.code := by
  unfold encodeChar
  cases hfind : encodings.find? fun e => e.ch = c with
  | none => exact .inl ⟨by simpa using hfind, rfl, rfl⟩
  | some e =>
    have hch : e.ch = c := by simpa using List.find?_some hfind
    exact .inr ⟨e, List.mem_of_find?_eq_some hfind, hch, rfl, rfl⟩

theorem code_spec {e : Encode} (he : e ∈ encodings) :
    e.code.length = numCharsInCode ∧ (∀ d ∈ e.code, d ≠ 0 ∧ d ≠ 0x2F ∧ d ≠ 0x2B ∧ d ≠ 0x7C) ∧
      0x25 ∉ e.code.tail ∧ codeValue e.code = some e.ch := by
  simp only [encodings, List.mem_cons, List.not_mem_nil, or_false] at he
  rcases he with rfl | rfl | rfl | rfl <;> exact ⟨rfl, by simp, by simp, rfl⟩

theorem percent_mem : ∃ e ∈ encodings, e.ch = 0x25 :=
  ⟨⟨0x25, [0x25, 0x32, 0x35]⟩, by simp [encodings], rfl⟩

theorem percentDecode_encodeChar (c : UInt8) (s : List UInt8) :
    percentDecode (encodeChar c ++ s) = c :: percentDecode s := by
  rcases encodeChar_cases c with ⟨hno, -, hc⟩ | ⟨e, he, rfl, -, hcode⟩
  · have hpercent : c ≠ 0x25 := fun heq => by
      obtain ⟨e, he, hch⟩ := percent_mem
      exact hno e he (hch.trans heq.symm)
    have hnone : codeValue (c :: s) = none := by
      unfold codeValue
      split
      · next heq =>
        obtain ⟨rfl, -⟩ := List.cons.inj heq
        exact if_neg hpercent
      · rfl
    rw [hc, List.singleton_append, percentDecode, decodeFrom, hnone]
  · rw [hcode]
    simp only [encodings, List.mem_cons, List.not_mem_nil, or_false] at he
    rcases he with rfl | rfl | rfl | rfl <;> rfl

theorem percentDecode_encoded (s : List UInt8) : percentDecode (s.flatMap encodeChar) = s := by
  induction s with
  | nil => rfl
  | cons c s ih => rw [List.flatMap_cons, percentDecode_encodeChar, ih]

theorem taken_isPrefix (room : Nat) (s : List UInt8) : taken room s <+: s := by
  induction s generalizing room with
  | nil => exact List.prefix_rfl
  | cons c s ih =>
    rw [taken]
    split
    · exact (List.prefix_cons_inj c).2 (ih _)
    · exact List.nil_prefix

theorem taken_length_le (room : Nat) (s : List UInt8) :
    ((taken room s).flatMap encodeChar).length ≤ room := by
  induction s generalizing room with
  | nil => exact Nat.zero_le _
  | cons c s ih =>
    rw [taken]
    split
    · next hle =>
      have hrest := ih (room - (encodeChar c).length)
      rw [List.flatMap_cons, List.length_append]
      omega
    · exact Nat.zero_le _

theorem taken_eq_self {room : Nat} (h : (s.flatMap encodeChar).length ≤ room) :
    taken room s = s := by
  induction s generalizing room with
  | nil => rfl
  | cons c s ih =>
    rw [List.flatMap_cons, List.length_append] at h
    rw [taken, if_pos (by omega), ih (by omega)]

theorem mem_encoded (hs : ∀ c ∈ s, c ≠ 0) {d : UInt8} (hd : d ∈ s.flatMap encodeChar) :
    d ≠ 0 ∧ d ≠ 0x2F ∧ d ≠ 0x2B ∧ d ≠ 0x7C := by
  obtain ⟨c, hc, hd⟩ := List.mem_flatMap.1 hd
  rcases encodeChar_cases c with ⟨hno, -, heq⟩ | ⟨e, he, rfl, -, heq⟩
  · rw [heq] at hd
    obtain rfl := List.mem_singleton.1 hd
    refine ⟨hs d hc, ?_⟩
    simp only [encodings, List.forall_mem_cons] at hno
    exact ⟨hno.1.symm, hno.2.1.symm, hno.2.2.1.symm⟩
  · rw [heq] at hd
    exact (code_spec he).2.1 d hd

theorem code_of_percent {l r : List UInt8} (h : s.flatMap encodeChar = l ++ 0x25 :: r) :
    ∃ e ∈ encodings, e.code <+: 0x25 :: r := by
  induction s generalizing l with
  | nil => simp at h
  | cons c s ih =>
    rw [List.flatMap_cons] at h
    obtain ⟨l', rfl, hrest⟩ | ⟨m, hchar, hm⟩ := List.append_eq_append_iff.1 h
    · exact ih hrest
    cases m with
    | nil => exact ih (l := []) hm.symm
    | cons p m =>
      obtain ⟨rfl, hr⟩ := List.cons.inj hm
      rcases encodeChar_cases c with ⟨hno, -, heq⟩ | ⟨e, he, rfl, -, heq⟩
      · -- a character that stays is no percent sign
        rw [heq] at hchar
        obtain ⟨e, he, hch⟩ := percent_mem
        have hmem : (0x25 : UInt8) ∈ [c] :=
          hchar ▸ List.mem_append_right l (List.mem_cons_self ..)
        exact absurd (hch.trans (List.mem_singleton.1 hmem)) (hno e he)
      · -- a code has its percent sign in front
        rw [heq] at hchar
        have htail := (code_spec he).2.2.1
        rw [hchar] at htail
        cases l with
        | nil =>
          refine ⟨e, he, ?_⟩
          rw [hchar, hr]
          exact ⟨s.flatMap encodeChar, rfl⟩
        | cons d l => simp at htail

end Codes

/-! ## The loops -/

section Loops

variable {buffer value : Region UInt8} {out s : List UInt8} {size : Nat}

theorem copyCode_ok (code : List UInt8) (h : Filled buffer out) (hsize : buffer.size = size)
    (hroom : out.length + code.length < size) :
    ∃ buffer', copyCode size code out.length buffer = .ok ((out ++ code).length, buffer') ∧
      Filled buffer' (out ++ code) ∧ buffer'.size = size := by
  induction code generalizing out buffer with
  | nil => exact ⟨buffer, by simp [copyCode], by simpa using h, hsize⟩
  | cons c code ih =>
    rw [List.length_cons] at hroom
    obtain ⟨buffer', hcopy, hfilled, hsize'⟩ :=
      ih (h.snoc c) hsize (by rw [List.length_append, List.length_singleton]; omega)
    refine ⟨buffer', ?_, by simpa using hfilled, hsize'⟩
    rw [copyCode, if_pos (by omega), Region.write_ok (by omega), ok_bind]
    simpa using hcopy

/-- The loop from any position of the string on. -/
theorem encodeFrom_ok (s₀ : List UInt8) (fuel : Nat) (hvalue : CString value (s₀ ++ s))
    (h : Filled buffer out) (hsize : buffer.size = size) (hout : out.length < size)
    (hfuel : s.length < fuel) :
    let out' := out ++ (taken (size - 1 - out.length) s).flatMap encodeChar
    ∃ buffer', encodeFrom value size fuel s₀.length out.length buffer = .ok (out'.length, buffer') ∧
      Filled buffer' out' ∧ buffer'.size = size := by
  obtain ⟨fuel, rfl⟩ : ∃ n, fuel = n + 1 := Nat.exists_eq_succ_of_ne_zero (by omega)
  have hfits := hvalue.fits
  rw [List.length_append] at hfits
  induction s generalizing s₀ out buffer fuel with
  | nil =>
    have hnul : value.get s₀.length = 0 := by simpa using hvalue.nul
    refine ⟨buffer, ?_, by simpa [taken] using h, hsize⟩
    rw [encodeFrom, Region.read_ok (by omega), ok_bind, hnul]
    simp [taken]
  | cons c s ih =>
    have hget : value.get s₀.length = c := hvalue.get_length
    have hc : c ≠ 0 := hvalue.nonzero c (by simp)
    rw [List.length_cons] at hfuel hfits
    obtain ⟨fuel, rfl⟩ : ∃ n, fuel = n + 1 := Nat.exists_eq_succ_of_ne_zero (by omega)
    have hvalue' : CString value ((s₀ ++ [c]) ++ s) := by simpa using hvalue
    rw [encodeFrom, Region.read_ok (by omega), ok_bind, hget]
    by_cases hroom : out.length + 1 < size
    · rw [if_pos ⟨hc, hroom⟩]
      rcases encodeChar_cases c with ⟨-, hfind, hchar⟩ | ⟨e, he, -, hfind, hchar⟩
      · -- the character stays
        simp only [hfind]
        rw [Region.write_ok (by omega), ok_bind]
        obtain ⟨buffer', hrun, hfilled, hsize'⟩ := ih (s₀ ++ [c]) hvalue' (h.snoc c) hsize
          (by rw [List.length_append, List.length_singleton]; omega) fuel (by omega)
          (by rw [List.length_append, List.length_singleton]; omega)
        have htaken : taken (size - 1 - out.length) (c :: s) =
            c :: taken (size - 1 - (out ++ [c]).length) s := by
          rw [taken, hchar, if_pos (by rw [List.length_singleton]; omega), List.length_append,
            List.length_singleton, Nat.sub_sub]
        rw [htaken, List.flatMap_cons, hchar, List.singleton_append, List.append_cons]
        refine ⟨buffer', ?_, hfilled, hsize'⟩
        simpa using hrun
      · -- its code is copied if there is room
        simp only [hfind]
        have hlen : e.code.length = 3 := (code_spec he).1
        by_cases hcode : size ≤ out.length + numCharsInCode
        · rw [if_pos hcode]
          have hnone : ¬ 3 ≤ size - 1 - out.length := by
            unfold numCharsInCode at hcode
            omega
          refine ⟨buffer, ?_, ?_, hsize⟩
          · rw [taken, hchar, hlen, if_neg hnone, List.flatMap_nil, List.append_nil]
          · rw [taken, hchar, hlen, if_neg hnone, List.flatMap_nil, List.append_nil]
            exact h
        · rw [if_neg hcode]
          unfold numCharsInCode at hcode
          obtain ⟨buffer₁, hcopy, hfilled₁, hsize₁⟩ :=
            copyCode_ok e.code h hsize (by omega)
          rw [hcopy, ok_bind]
          obtain ⟨buffer', hrun, hfilled, hsize'⟩ := ih (s₀ ++ [c]) hvalue' hfilled₁ hsize₁
            (by rw [List.length_append]; omega) fuel (by omega)
            (by rw [List.length_append, List.length_singleton]; omega)
          have htaken : taken (size - 1 - out.length) (c :: s) =
              c :: taken (size - 1 - (out ++ e.code).length) s := by
            rw [taken, hchar, if_pos (by omega), List.length_append, Nat.sub_sub]
          rw [htaken, List.flatMap_cons, hchar, ← List.append_assoc]
          refine ⟨buffer', ?_, hfilled, hsize'⟩
          simpa using hrun
    · -- there is no room for one more
      rw [if_neg fun hand => hroom hand.2]
      have hlen : ¬ (encodeChar c).length ≤ size - 1 - out.length := by
        rcases encodeChar_cases c with ⟨-, -, hchar⟩ | ⟨e, he, -, -, hchar⟩
        · rw [hchar, List.length_singleton]
          omega
        · rw [hchar, (code_spec he).1]
          unfold numCharsInCode
          omega
      refine ⟨buffer, ?_, ?_, hsize⟩
      · rw [taken, if_neg hlen, List.flatMap_nil, List.append_nil]
      · rw [taken, if_neg hlen, List.flatMap_nil, List.append_nil]
        exact h

theorem copyBack_ok (buffer value : Region UInt8) (n : Nat) (hbuffer : n ≤ buffer.size)
    (hvalue : n ≤ value.size) :
    ∃ value', copyBack buffer n value = .ok value' ∧ value'.size = value.size ∧
      ∀ i, value'.get i = if i < n then buffer.get i else value.get i := by
  induction n generalizing value with
  | zero => exact ⟨value, rfl, rfl, fun i => by simp⟩
  | succ n ih =>
    obtain ⟨value', hcopy, hsize, hget⟩ :=
      ih (value.set n (buffer.get n)) (by omega) (by rw [Region.size_set]; omega)
    refine ⟨value', ?_, hsize, fun i => ?_⟩
    · rw [copyBack, Region.read_ok (by omega), ok_bind, Region.write_ok (by omega)]
      exact hcopy
    · rw [hget, Region.get_set]
      by_cases hi : i = n
      · subst hi
        simp
      · have hiff : i < n + 1 ↔ i < n := by omega
        simp only [hi, hiff, ↓reduceIte]

end Loops

/-- What is left in the place of a string is the encoding of its first characters, as many as have
    room. -/
theorem encodeInPlace_ok {value : Region UInt8} {s : List UInt8} {size : Nat}
    (hvalue : CString value s) (hs : s.length < size) (hsize : size ≤ value.size) :
    ∃ value', encodeInPlace value size = .ok value' ∧ value'.size = value.size ∧
      CString value' ((taken (size - 1) s).flatMap encodeChar) := by
  have hempty : Filled (.fill size 0) [] := .nil _
  obtain ⟨buffer, hrun, hfilled, hbuffer⟩ := encodeFrom_ok [] (value.size + 1) hvalue
    hempty (Region.size_fill size 0) (by rw [List.length_nil]; omega) (by omega)
  have hlen := taken_length_le (size - 1) s
  simp only [List.length_nil, List.nil_append, Nat.sub_zero] at hrun hfilled
  obtain ⟨value', hcopy, hsize', hget⟩ :=
    copyBack_ok buffer (value.set ((taken (size - 1) s).flatMap encodeChar).length 0)
      ((taken (size - 1) s).flatMap encodeChar).length (by omega)
      (by rw [Region.size_set]; omega)
  refine ⟨value', ?_, hsize', ⟨?_, fun i hi => ?_, ?_, fun d hd => ?_⟩⟩
  · rw [encodeInPlace, hrun, ok_bind]
    dsimp only
    rw [Region.write_ok (by omega), ok_bind, hcopy]
  · rw [hsize', Region.size_set]
    omega
  · rw [hget, if_pos hi]
    exact hfilled i hi
  · rw [hget, if_neg (Nat.lt_irrefl _), Region.get_set_self]
  · refine (mem_encoded (fun c hc => ?_) hd).1
    exact hvalue.nonzero c ((taken_isPrefix (size - 1) s).subset hc)

/-- **Encoding in place.** The string becomes one without separators, in which every percent sign
    starts a code, and which decodes to the beginning of what it was, or to all of it if that has
    room. -/
theorem encodeInPlace_spec {value : Region UInt8} {s : List UInt8} {size : Nat}
    (hvalue : CString value s) (hs : s.length < size) (hsize : size ≤ value.size) :
    ∃ value' s', encodeInPlace value size = .ok value' ∧ CString value' s' ∧
      s'.length ≤ size - 1 ∧ (0x2F ∉ s' ∧ 0x2B ∉ s' ∧ 0x7C ∉ s') ∧
      (∀ l r, s' = l ++ 0x25 :: r → ∃ e ∈ encodings, e.code <+: 0x25 :: r) ∧
      percentDecode s' <+: s ∧
      ((s.flatMap encodeChar).length ≤ size - 1 → percentDecode s' = s) := by
  obtain ⟨value', hrun, -, hvalue'⟩ := encodeInPlace_ok hvalue hs hsize
  have hnonzero : ∀ c ∈ taken (size - 1) s, c ≠ 0 := fun c hc =>
    hvalue.nonzero c ((taken_isPrefix (size - 1) s).subset hc)
  refine ⟨value', _, hrun, hvalue', taken_length_le (size - 1) s, ⟨fun hmem => ?_, fun hmem => ?_,
    fun hmem => ?_⟩, fun l r => code_of_percent, ?_, fun hroom => ?_⟩
  · exact (mem_encoded hnonzero hmem).2.1 rfl
  · exact (mem_encoded hnonzero hmem).2.2.1 rfl
  · exact (mem_encoded hnonzero hmem).2.2.2 rfl
  · rw [percentDecode_encoded]
    exact taken_isPrefix (size - 1) s
  · rw [taken_eq_self hroom, percentDecode_encoded]

theorem encodeInPlace_spec_slash :
    ∃ value' s', encodeInPlace (.ofString 8 [0x61, 0x2F, 0x62]) 8 = .ok value' ∧
      CString value' s' ∧ s'.length ≤ 8 - 1 ∧ (0x2F ∉ s' ∧ 0x2B ∉ s' ∧ 0x7C ∉ s') ∧
      (∀ l r, s' = l ++ 0x25 :: r → ∃ e ∈ encodings, e.code <+: 0x25 :: r) ∧
      percentDecode s' <+: [0x61, 0x2F, 0x62] ∧
      ((([0x61, 0x2F, 0x62] : List UInt8).flatMap encodeChar).length ≤ 8 - 1 →
        percentDecode s' = [0x61, 0x2F, 0x62]) :=
  encodeInPlace_spec (.ofString (by decide) (by simp)) (by decide) (by decide)

end Nx508j.Loc
