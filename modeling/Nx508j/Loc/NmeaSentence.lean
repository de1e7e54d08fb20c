import Nx508j.Lib.CString

/-! # NMEA sentences

A sentence is printed into one buffer piece by piece, each piece into the room that the ones before
leave. A piece that does not fit ends the work, if its length is looked at. In the end the checksum
goes behind the sentence. -/

namespace Nx508j.Loc

open Nx508j.Lib

/-- `NMEA_SENTENCE_MAX_LENGTH` -/
def nmeaSentenceMaxLength : Nat := 200

/-- Bytes without a null byte, as a conversion of `snprintf` prints them. -/
structure Text where
  bytes : List UInt8
  nonzero : ∀ c ∈ bytes, c ≠ 0

namespace Text

def length (t : Text) : Nat := t.bytes.length

def append (s t : Text) : Text where
  bytes := s.bytes ++ t.bytes
  nonzero c hc := (List.mem_append.1 hc).elim (s.nonzero c) (t.nonzero c)

instance : Append Text := ⟨append⟩

/-- Texts one behind the other. -/
def concat (ts : List Text) : List UInt8 := (ts.map bytes).flatten

/-- What texts take together. -/
def total : List Text → Nat
  | [] => 0
  | t :: ts => t.length + total ts

variable {t : Text} {ts us : List Text}

@[simp] theorem bytes_append {s : Text} : (s ++ t).bytes = s.bytes ++ t.bytes := rfl

@[simp] theorem concat_nil : concat [] = [] := rfl

@[simp] theorem concat_cons : concat (t :: ts) = t.bytes ++ concat ts := rfl

@[simp] theorem concat_append : concat (ts ++ us) = concat ts ++ concat us := by
  simp [concat]

@[simp] theorem total_nil : total [] = 0 := rfl

@[simp] theorem total_cons : total (t :: ts) = t.length + total ts := rfl

theorem length_concat (ts : List Text) : (concat ts).length = total ts := by
  induction ts with
  | nil => rfl
  | cons t ts ih => rw [concat_cons, List.length_append, ih, total_cons, length]

end Text

/-- A literal of the source. -/
def lit (s : String) : Text where
  bytes := (s.toList.map fun c => UInt8.ofNat c.toNat).filter fun c => c ≠ 0
  nonzero c hc := by simpa using (List.mem_filter.1 hc).2

/-- How the conversions of a format string print what they are given. -/
structure Formats (F : Type) where
  /-- `%d` -/
  d : Int → Text
  /-- `%02d` -/
  d2 : Int → Text
  /-- `%03d` -/
  d3 : Int → Text
  /-- `%2.2d` -/
  dd : Int → Text
  /-- `%.1f` and `%.1lf` -/
  f1 : F → Text
  /-- `%09.6lf` -/
  f9 : F → Text

/-- What is computed with floating point numbers. -/
structure FloatOps (F : Type) where
  zero : F
  /-- `x > 0` -/
  positive : F → Bool
  /-- `x < 0` -/
  negative : F → Bool
  /-- `x * -1.0` -/
  neg : F → F
  sub : F → F → F
  /-- `x * (3600.0/1852.0)` -/
  knots : F → F
  /-- `x * 3.6` -/
  kmPerHour : F → F
  /-- `(uint8_t)floor(x)` -/
  degrees : F → Int
  /-- `fmod(x * 60.0, 60.0)` -/
  minutes : F → F
  /-- `(int)(0.5 + x)` -/
  nearest : F → Int

/-- The hexadecimal digit of a number below sixteen, as `%X` prints it. -/
def hexDigit (n : Nat) : UInt8 := UInt8.ofNat (if n < 10 then 0x30 + n else 0x37 + n)

/-- `"*%02X\r\n"` -/
def checksumText (checksum : UInt8) : List UInt8 :=
  [0x2A, hexDigit (checksum.toNat / 16), hexDigit (checksum.toNat % 16), 0x0D, 0x0A]

/-- What `loc_eng_nmea_send` is given. -/
structure NmeaSent where
  pNmea : Region UInt8
  length : Nat

/-- The buffer, where the next piece goes, and the room that is left. -/
structure NmeaSentence where
  sentence : Region UInt8
  pMarker : Nat
  lengthRemaining : Nat

/-- The loop of `loc_eng_nmea_put_checksum`, with the length and the checksum. -/
def checksumFrom (pNmea : Region UInt8) : Nat → Nat → Nat → UInt8 → Except Fault (Nat × UInt8)
  | 0, _, _, _ => .error .diverges
  | fuel + 1, p, length, checksum => do
      let c ← pNmea.read p
      if c ≠ 0 then checksumFrom pNmea fuel (p + 1) (length + 1) (checksum ^^^ c)
      else .ok (length, checksum)

/-- `loc_eng_nmea_put_checksum`, with the buffer and the length it returns. -/
def loc_eng_nmea_put_checksum (pNmea : Region UInt8) (maxSize : Nat) :
    Except Fault (Region UInt8 × Nat) := do
  -- the first character is skipped
  let (length, checksum) ← checksumFrom pNmea pNmea.size 1 0 0
  let (pNmea, checksumLength) ←
    snprintf pNmea (1 + length) (maxSize - length - 1) (checksumText checksum)
  .ok (pNmea, length + checksumLength + 1)

namespace NmeaSentence

/-- `pMarker = sentence` -/
def start (sentence : Region UInt8) : NmeaSentence := ⟨sentence, 0, sentence.size⟩

/-- Print pieces whose lengths are looked at. Without a result one of them did not fit. -/
def putPieces : List Text → NmeaSentence → Except Fault (Option NmeaSentence)
  | [], w => .ok (some w)
  | text :: texts, w => do
      let (sentence, length) ← snprintf w.sentence w.pMarker w.lengthRemaining text.bytes
      if w.lengthRemaining ≤ length then .ok none
      else putPieces texts ⟨sentence, w.pMarker + length, w.lengthRemaining - length⟩

/-- Print a piece whose length is not looked at. -/
def putLast (text : Text) (w : NmeaSentence) : Except Fault (Region UInt8) := do
  let (sentence, _) ← snprintf w.sentence w.pMarker w.lengthRemaining text.bytes
  .ok sentence

/-- Put the checksum behind a sentence and send it. -/
def finish (sentence : Region UInt8) : Except Fault NmeaSent := do
  let (sentence, length) ← loc_eng_nmea_put_checksum sentence sentence.size
  .ok ⟨sentence, length⟩

end NmeaSentence

/-! ## What is sent -/

/-- The exclusive or of all bytes. -/
def xorAll (body : List UInt8) : UInt8 := body.foldl (· ^^^ ·) 0

/-- A sentence with its checksum: the first character is not summed. -/
def withChecksum : List UInt8 → List UInt8
  | [] => []
  | c :: body => c :: body ++ checksumText (xorAll body)

/-- The length that was passed is that of the sentence, and smaller than the buffer. -/
structure NmeaSent.Carries (x : NmeaSent) (text : List UInt8) : Prop where
  string : CString x.pNmea text
  length : x.length = text.length
  lt_size : x.length < x.pNmea.size

/-- `'$' body '*' HH CR LF`, passed with its length. -/
def NmeaSent.Valid (x : NmeaSent) : Prop := ∃ body, x.Carries (withChecksum (0x24 :: body))

section Checksum

variable {m : Region UInt8} {s t : List UInt8}

theorem hexDigit_ne_zero : ∀ n < 16, hexDigit n ≠ 0 := by decide

theorem ne_zero_of_mem_checksumText {checksum c : UInt8} (h : c ∈ checksumText checksum) :
    c ≠ 0 := by
  have hlt : checksum.toNat < 256 := checksum.toNat_lt
  have hhigh := hexDigit_ne_zero (checksum.toNat / 16) (by omega)
  have hlow := hexDigit_ne_zero (checksum.toNat % 16) (by omega)
  simp only [checksumText, List.mem_cons, List.not_mem_nil, or_false] at h
  rcases h with rfl | rfl | rfl | rfl | rfl
  · decide
  · exact hhigh
  · exact hlow
  · decide
  · decide

theorem checksumFrom_ok (s : List UInt8) (n k : Nat) (checksum : UInt8)
    (h : CString m (s ++ t)) (hn : t.length < n) :
    checksumFrom m n s.length k checksum =
      .ok (k + t.length, t.foldl (· ^^^ ·) checksum) := by
  induction t generalizing s n k checksum with
  | nil =>
    obtain ⟨n, rfl⟩ : ∃ i, n = i + 1 := Nat.exists_eq_succ_of_ne_zero (by omega)
    have hnul : m.get s.length = 0 := by simpa using h.nul
    have hfits : s.length < m.size := by simpa using h.fits
    rw [checksumFrom, Region.read_ok hfits, ok_bind, hnul]
    rfl
  | cons c t ih =>
    obtain ⟨n, rfl⟩ : ∃ i, n = i + 1 := Nat.exists_eq_succ_of_ne_zero (by omega)
    have hfits := h.fits
    have hc : c ≠ 0 := h.nonzero c (by simp)
    rw [List.length_append] at hfits
    rw [List.length_cons] at hfits hn
    rw [checksumFrom, Region.read_ok (by omega), ok_bind, h.get_length, if_pos hc]
    have hrest := ih (s ++ [c]) n (k + 1) (checksum ^^^ c) (by simpa using h) (by omega)
    rw [List.length_append, List.length_singleton] at hrest
    rw [hrest, List.length_cons, List.foldl_cons, Nat.add_assoc, Nat.add_comm 1]

/-- As much of the checksum as there is room for goes behind the sentence, but all of it is
    counted. -/
theorem put_checksum_ok {c : UInt8} {body : List UInt8} (h : CString m (c :: body)) :
    ∃ m', loc_eng_nmea_put_checksum m m.size = .ok (m', (c :: body).length + 5) ∧
      m'.size = m.size ∧
      CString m' (c :: body ++
        (checksumText (xorAll body)).take (m.size - (c :: body).length - 1)) := by
  have hfits := h.fits
  rw [List.length_cons] at hfits
  have hloop : checksumFrom m m.size 1 0 0 = .ok (0 + body.length, xorAll body) :=
    checksumFrom_ok [c] _ 0 0 (by simpa using h) (by omega)
  have hroom : 0 < m.size - (c :: body).length := by
    rw [List.length_cons]
    omega
  have hnonzero : ∀ b ∈ checksumText (xorAll body), b ≠ 0 :=
    fun b hb => ne_zero_of_mem_checksumText hb
  obtain ⟨m', hprint, hsize, hstring⟩ := snprintf_ok h.filled h.nonzero hroom (by omega) hnonzero
  refine ⟨m', ?_, hsize, hstring⟩
  rw [loc_eng_nmea_put_checksum, hloop, ok_bind]
  dsimp only
  have hoff : 1 + (0 + body.length) = (c :: body).length := by rw [List.length_cons]; omega
  have hroom : m.size - (0 + body.length) - 1 = m.size - (c :: body).length := by
    rw [List.length_cons]
    omega
  rw [hoff, hroom, hprint, ok_bind]
  simp [checksumText]

theorem finish_ok {body : List UInt8} (h : CString m (0x24 :: body)) :
    ∃ x, NmeaSentence.finish m = .ok x ∧ x.pNmea.size = m.size ∧
      (x.Valid ↔ (0x24 :: body).length + 5 < m.size) ∧
      ((0x24 :: body).length + 5 < m.size → x.Carries (withChecksum (0x24 :: body))) := by
  obtain ⟨m', hput, hsize, hstring⟩ := put_checksum_ok h
  have hcarries : (0x24 :: body).length + 5 < m.size →
      NmeaSent.Carries ⟨m', (0x24 :: body).length + 5⟩ (withChecksum (0x24 :: body)) := by
    intro hroom
    have hall : (checksumText (xorAll body)).take (m.size - (0x24 :: body).length - 1) =
        checksumText (xorAll body) := List.take_of_length_le (by
      have hlen : (checksumText (xorAll body)).length = 5 := rfl
      omega)
    rw [hall] at hstring
    refine ⟨hstring, ?_, ?_⟩
    · simp [withChecksum, checksumText]
    · exact hsize.symm ▸ hroom
  refine ⟨⟨m', (0x24 :: body).length + 5⟩, ?_, hsize, ⟨?_, ?_⟩, hcarries⟩
  · rw [NmeaSentence.finish, hput, ok_bind]
  · rintro ⟨_, hx⟩
    exact hsize ▸ hx.lt_size
  · exact fun hroom => ⟨body, hcarries hroom⟩

end Checksum

/-! ## Putting the pieces together -/

namespace NmeaSentence

/-- The buffer starts with this text, and the next piece goes behind it. -/
structure Holds (w : NmeaSentence) (text : List UInt8) : Prop where
  filled : Filled w.sentence text
  nonzero : ∀ c ∈ text, c ≠ 0
  marker : w.pMarker = text.length
  remaining : w.pMarker + w.lengthRemaining = w.sentence.size
  room : 0 < w.lengthRemaining

variable {w : NmeaSentence} {text : List UInt8}

theorem Holds.start {sentence : Region UInt8} (h : 0 < sentence.size) :
    (NmeaSentence.start sentence).Holds [] where
  filled := .nil _
  nonzero _ hc := absurd hc List.not_mem_nil
  marker := rfl
  remaining := Nat.zero_add _
  room := h

theorem putPieces_ok (texts : List Text) (h : w.Holds text) :
    (w.lengthRemaining ≤ Text.total texts ∧ putPieces texts w = .ok none) ∨
      Text.total texts < w.lengthRemaining ∧
        ∃ w', putPieces texts w = .ok (some w') ∧ w'.Holds (text ++ Text.concat texts) ∧
          w'.sentence.size = w.sentence.size ∧
          (texts ≠ [] → CString w'.sentence (text ++ Text.concat texts)) := by
  induction texts generalizing w text with
  | nil => exact .inr ⟨h.room, w, rfl, by simpa using h, rfl, fun hne => absurd rfl hne⟩
  | cons t texts ih =>
    have hsize := h.remaining
    rw [h.marker] at hsize
    obtain ⟨m, hprint, hm, hstring⟩ := snprintf_ok h.filled h.nonzero h.room
      (Nat.le_of_eq hsize) t.nonzero
    rw [putPieces, h.marker, hprint, ok_bind, Text.total_cons, Text.concat_cons]
    dsimp only
    by_cases hfits : w.lengthRemaining ≤ t.length
    · exact .inl ⟨by omega, if_pos hfits⟩
    rw [Text.length] at hfits
    rw [if_neg hfits]
    have hall : t.bytes.take (w.lengthRemaining - 1) = t.bytes :=
      List.take_of_length_le (by omega)
    rw [hall] at hstring
    have hnext : Holds ⟨m, text.length + t.bytes.length,
        w.lengthRemaining - t.bytes.length⟩ (text ++ t.bytes) := by
      refine ⟨hstring.filled, hstring.nonzero, (List.length_append ..).symm, ?_, ?_⟩
      · dsimp only
        omega
      · dsimp only
        omega
    rcases ih hnext with ⟨hover, hnone⟩ | ⟨hunder, w', hsome, hholds, hsize', hcstring⟩
    · dsimp only at hover
      refine .inl ⟨?_, hnone⟩
      rw [Text.length]
      omega
    · dsimp only at hunder
      rw [List.append_assoc] at hholds hcstring
      refine .inr ⟨?_, w', hsome, hholds, hsize'.trans hm, fun _ => ?_⟩
      · rw [Text.length]
        omega
      · cases texts with
        | nil =>
          obtain rfl := Option.some.inj (Except.ok.inj hsome)
          simpa using hstring
        | cons u texts => exact hcstring (List.cons_ne_nil u texts)

theorem putLast_ok (h : w.Holds text) (last : Text) :
    ∃ m, putLast last w = .ok m ∧ m.size = w.sentence.size ∧
      CString m (text ++ last.bytes.take (w.lengthRemaining - 1)) := by
  have hsize := h.remaining
  rw [h.marker] at hsize
  obtain ⟨m, hprint, hm, hstring⟩ := snprintf_ok h.filled h.nonzero h.room
    (Nat.le_of_eq hsize) last.nonzero
  exact ⟨m, by rw [putLast, h.marker, hprint, ok_bind], hm, hstring⟩

end NmeaSentence

end Nx508j.Loc
