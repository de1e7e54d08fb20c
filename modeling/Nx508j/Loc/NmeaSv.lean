import Nx508j.Lib.Groups
import Nx508j.Loc.NmeaPos

/-! # The sentences of a satellite report

GPS and GLONASS satellites stand in one list. A first pass counts both; then each system gets its
sentences, four satellites in one, and a cursor over the list goes on from sentence to sentence. -/

namespace Nx508j.Loc

open Nx508j.Lib

/-- `GpsSvInfo` -/
structure GpsSvInfo (F : Type) where
  prn : Int
  snr : F
  elevation : F
  azimuth : F

/-- `HaxxSvStatus` -/
structure HaxxSvStatus (F : Type) where
  num_svs : Nat
  sv_list : Region (GpsSvInfo F)
  gps_used_in_fix_mask : UInt32
  glo_used_in_fix_mask : UInt32

/-- The numbers of a system's satellites, and the name of its sentences. -/
structure SvSystem where
  start : Int
  stop : Int
  name : Text

namespace SvSystem

/-- `GPS_PRN_START`, `GPS_PRN_END` -/
def gps : SvSystem := ⟨1, 32, lit "$GPGSV,"⟩

/-- `GLONASS_PRN_START`, `GLONASS_PRN_END` -/
def glonass : SvSystem := ⟨65, 96, lit "$GLGSV,"⟩

variable {F : Type}

/-- The satellite is one of the system. -/
def has (sys : SvSystem) (sv : GpsSvInfo F) : Bool := sys.start ≤ sv.prn && sv.prn ≤ sys.stop

end SvSystem

section Model

variable {F : Type} (fmt : Formats F) (ops : FloatOps F) (sys : SvSystem)

/-- The counting loop, with `gpsCount` and `glnCount`. -/
def countFrom (sv_list : Region (GpsSvInfo F)) : Nat → Nat → Nat → Nat → Except Fault (Nat × Nat)
  | 0, _, gpsCount, glnCount => .ok (gpsCount, glnCount)
  | n + 1, i, gpsCount, glnCount => do
      let sv ← sv_list.read i
      if SvSystem.gps.has sv then countFrom sv_list n (i + 1) (gpsCount + 1) glnCount
      else if SvSystem.glonass.has sv then countFrom sv_list n (i + 1) gpsCount (glnCount + 1)
      else countFrom sv_list n (i + 1) gpsCount glnCount

/-- The start of a sentence. -/
def svHeader (sentenceCount sentenceNumber count : Nat) : Text :=
  sys.name ++ fmt.d sentenceCount ++ lit "," ++ fmt.d sentenceNumber ++ lit "," ++ fmt.d2 count

/-- What is printed for a satellite. -/
def svPieces (sv : GpsSvInfo F) : List Text :=
  (lit "," ++ fmt.d2 sv.prn ++ lit "," ++ fmt.d2 (ops.nearest sv.elevation) ++ lit "," ++
    fmt.d3 (ops.nearest sv.azimuth) ++ lit ",") ::
  if ops.positive sv.snr then [fmt.d2 (ops.nearest sv.snr)] else []

/-- The loop that puts satellites into one sentence: `n` are left in the list from `k` on, and `i`
    are in the sentence. With the cursor after it. -/
def fillFrom (sv_list : Region (GpsSvInfo F)) : Nat → Nat → Nat → NmeaSentence →
    Except Fault (Option (NmeaSentence × Nat))
  | 0, k, _, w => .ok (some (w, k))
  | n + 1, k, i, w =>
    if i < 4 then do
      let sv ← sv_list.read k
      if sys.has sv then
        match ← NmeaSentence.putPieces (svPieces fmt ops sv) w with
        | none => .ok none
        | some w => fillFrom sv_list n (k + 1) (i + 1) w
      else fillFrom sv_list n (k + 1) i w
    else .ok (some (w, k))

/-- The loop over the sentences: `n` are left, and the cursor is at `k`. Without a buffer in the end
    something did not fit. -/
def sentencesFrom (status : HaxxSvStatus F) (sentenceCount count : Nat) : Nat → Nat → Nat →
    Region UInt8 → Except Fault (List NmeaSent × Option (Region UInt8))
  | 0, _, _, sentence => .ok ([], some sentence)
  | n + 1, sentenceNumber, k, sentence => do
      match ← NmeaSentence.putPieces [svHeader fmt sys sentenceCount sentenceNumber count]
          (.start sentence) with
      | none => .ok ([], none)
      | some w =>
        match ← fillFrom fmt ops sys status.sv_list (status.num_svs - k) k 0 w with
        | none => .ok ([], none)
        | some (w, k) =>
          let x ← NmeaSentence.finish w.sentence
          let (sent, sentence) ←
            sentencesFrom status sentenceCount count n (sentenceNumber + 1) k x.pNmea
          .ok (x :: sent, sentence)

/-- All sentences of a system. -/
def sentencesOf (status : HaxxSvStatus F) (count : Nat) (sentence : Region UInt8) :
    Except Fault (List NmeaSent × Option (Region UInt8)) :=
  if count = 0 then do
    let sentence ← NmeaSentence.putLast (sys.name ++ lit "1,1,0,") (.start sentence)
    let x ← NmeaSentence.finish sentence
    .ok ([x], some x.pNmea)
  else
    let sentenceCount := count / 4 + if count % 4 ≠ 0 then 1 else 0
    sentencesFrom fmt ops sys status sentenceCount count sentenceCount 1 0 sentence

/-- What is kept for the next position report. -/
def cacheSv (data : NmeaData F) (status : HaxxSvStatus F) (ext : GpsLocationExtended F) :
    NmeaData F :=
  { data with
    gps_used_mask := status.gps_used_in_fix_mask
    glo_used_mask := status.glo_used_in_fix_mask
    pdop := if ext.hasDop then ext.pdop else ops.zero
    hdop := if ext.hasDop then ext.hdop else ops.zero
    vdop := if ext.hasDop then ext.vdop else ops.zero }

/-- `loc_eng_nmea_generate_sv`, with the sentences it sends. -/
def loc_eng_nmea_generate_sv (data : NmeaData F) (status : HaxxSvStatus F)
    (ext : GpsLocationExtended F) : Except Fault (NmeaData F × List NmeaSent) := do
  let (gpsCount, glnCount) ← countFrom status.sv_list status.num_svs 0 0 0
  let (gpsSent, sentence) ←
    sentencesOf fmt ops .gps status gpsCount ⟨nmeaSentenceMaxLength, fun _ => 0⟩
  match sentence with
  | none => .ok (data, gpsSent)
  | some sentence =>
    let (glnSent, sentence) ← sentencesOf fmt ops .glonass status glnCount sentence
    match sentence with
    | none => .ok (data, gpsSent ++ glnSent)
    | some _ => .ok (cacheSv ops data status ext, gpsSent ++ glnSent)

end Model

/-! ## The satellites of a report -/

section Satellites

variable {F : Type}

/-- The `n` satellites of the list from index `k` on. -/
def satsFrom (sv_list : Region (GpsSvInfo F)) : Nat → Nat → List (GpsSvInfo F)
  | 0, _ => []
  | n + 1, k => sv_list.get k :: satsFrom sv_list n (k + 1)

/-- The satellites of a report. -/
def HaxxSvStatus.sats (status : HaxxSvStatus F) : List (GpsSvInfo F) :=
  satsFrom status.sv_list status.num_svs 0

/-- Those of a system, in report order. -/
def SvSystem.ofReport (sys : SvSystem) (status : HaxxSvStatus F) : List (GpsSvInfo F) :=
  status.sats.filter sys.has

theorem SvSystem.has_iff {sys : SvSystem} {sv : GpsSvInfo F} :
    sys.has sv = true ↔ sys.start ≤ sv.prn ∧ sv.prn ≤ sys.stop := by
  simp [has]

theorem SvSystem.not_gps_of_glonass {sv : GpsSvInfo F} (h : glonass.has sv = true) :
    gps.has sv = false := by
  have hstart : 65 ≤ sv.prn := (has_iff.1 h).1
  refine Bool.eq_false_iff.2 fun hgps => ?_
  have hstop : sv.prn ≤ 32 := (has_iff.1 hgps).2
  omega

theorem countFrom_ok (sv_list : Region (GpsSvInfo F)) (n k gpsCount glnCount : Nat)
    (h : k + n ≤ sv_list.size) :
    countFrom sv_list n k gpsCount glnCount =
      .ok (gpsCount + ((satsFrom sv_list n k).filter SvSystem.gps.has).length,
        glnCount + ((satsFrom sv_list n k).filter SvSystem.glonass.has).length) := by
  induction n generalizing k gpsCount glnCount with
  | zero => rfl
  | succ n ih =>
    rw [countFrom, Region.read_ok (by omega), ok_bind, satsFrom, List.filter_cons,
      List.filter_cons]
    cases hgln : SvSystem.glonass.has (sv_list.get k) with
    | true =>
      rw [SvSystem.not_gps_of_glonass hgln]
      simp only [Bool.false_eq_true, ↓reduceIte, List.length_cons]
      rw [ih (k + 1) gpsCount (glnCount + 1) (by omega), Nat.add_right_comm, Nat.add_assoc]
    | false =>
      cases hgps : SvSystem.gps.has (sv_list.get k) with
      | true =>
        simp only [Bool.false_eq_true, ↓reduceIte, List.length_cons]
        rw [ih (k + 1) (gpsCount + 1) glnCount (by omega), Nat.add_right_comm, Nat.add_assoc]
      | false =>
        exact ih (k + 1) gpsCount glnCount (by omega)

end Satellites

/-! ## What is sent -/

section Sent

variable {F : Type} (fmt : Formats F) (ops : FloatOps F) (sys : SvSystem)

/-- A sentence with these satellites, without its checksum. -/
def gsvText (sentenceCount sentenceNumber count : Nat) (g : List (GpsSvInfo F)) : List UInt8 :=
  (svHeader fmt sys sentenceCount sentenceNumber count).bytes ++
    Text.concat (g.flatMap (svPieces fmt ops))

/-- The sentences from a number on, one for each group. -/
structure SentFrom (sentenceCount count number : Nat) (gs : List (List (GpsSvInfo F)))
    (sent : List NmeaSent) : Prop where
  length : sent.length = gs.length
  carries : ∀ i g (x : NmeaSent), gs[i]? = some g → sent[i]? = some x →
    x.Carries (withChecksum (gsvText fmt ops sys sentenceCount (number + i) count g))

/-- The sentences of these groups have room for their checksums. -/
def FitFrom (sentenceCount count number : Nat) (gs : List (List (GpsSvInfo F))) : Prop :=
  ∀ i, ∀ hi : i < gs.length,
    (gsvText fmt ops sys sentenceCount (number + i) count (gs.get ⟨i, hi⟩)).length + 5 <
      nmeaSentenceMaxLength

/-- The sentences of a report fit the buffer. -/
def HaxxSvStatus.Fits (status : HaxxSvStatus F) : Prop :=
  let n := (sys.ofReport status).length
  FitFrom fmt ops sys (groupCount 4 n) n 1 (groups 4 (groupCount 4 n) (sys.ofReport status))

instance (gs : List (List (GpsSvInfo F))) (sentenceCount count number : Nat) :
    Decidable (FitFrom fmt ops sys sentenceCount count number gs) :=
  inferInstanceAs (Decidable (∀ i, ∀ hi : i < gs.length,
    (gsvText fmt ops sys sentenceCount (number + i) count (gs.get ⟨i, hi⟩)).length + 5 <
      nmeaSentenceMaxLength))

instance (status : HaxxSvStatus F) : Decidable (status.Fits fmt ops sys) :=
  inferInstanceAs (Decidable (FitFrom ..))

/-- The sentences carry these satellites: in groups of four one after the other, all groups full but
    the last, and the sentences numbered from one on. Without satellites there is one blank
    sentence. -/
structure Reports (svs : List (GpsSvInfo F)) (sent : List NmeaSent) : Prop where
  blank : svs = [] → ∃ x : NmeaSent, sent = [x] ∧
    x.Carries (withChecksum (sys.name ++ lit "1,1,0,").bytes)
  grouped : svs ≠ [] → ∃ gs : List (List (GpsSvInfo F)), gs.flatten = svs ∧
    gs.length = svs.length / 4 + (if svs.length % 4 ≠ 0 then 1 else 0) ∧
    (∀ g ∈ gs, g.length ≤ 4) ∧ (∀ g ∈ gs.dropLast, g.length = 4) ∧
    SentFrom fmt ops sys gs.length svs.length 1 gs sent

variable {fmt ops sys} {sentenceCount count number : Nat} {gs : List (List (GpsSvInfo F))}
  {g : List (GpsSvInfo F)} {sent : List NmeaSent} {x : NmeaSent}

theorem SentFrom.nil : SentFrom fmt ops sys sentenceCount count number [] [] where
  length := rfl
  carries _ _ _ h _ := by simp at h

theorem SentFrom.cons
    (h : x.Carries (withChecksum (gsvText fmt ops sys sentenceCount number count g)))
    (hs : SentFrom fmt ops sys sentenceCount count (number + 1) gs sent) :
    SentFrom fmt ops sys sentenceCount count number (g :: gs) (x :: sent) where
  length := by rw [List.length_cons, List.length_cons, hs.length]
  carries i g' x' hg hx := by
    cases i with
    | zero =>
      obtain rfl : g = g' := by simpa using hg
      obtain rfl : x = x' := by simpa using hx
      exact h
    | succ i =>
      rw [List.getElem?_cons_succ] at hg hx
      have hcarries := hs.carries i g' x' hg hx
      rwa [Nat.add_right_comm, Nat.add_assoc] at hcarries

theorem FitFrom.head (h : FitFrom fmt ops sys sentenceCount count number (g :: gs)) :
    (gsvText fmt ops sys sentenceCount number count g).length + 5 < nmeaSentenceMaxLength :=
  h 0 (Nat.succ_pos _)

theorem FitFrom.tail (h : FitFrom fmt ops sys sentenceCount count number (g :: gs)) :
    FitFrom fmt ops sys sentenceCount count (number + 1) gs := by
  intro i hi
  have hnumber : number + 1 + i = number + (i + 1) := by omega
  rw [hnumber]
  exact h (i + 1) (Nat.succ_lt_succ hi)

end Sent

/-! ## The loops -/

section Loops

variable {F : Type} {fmt : Formats F} {ops : FloatOps F} {sys : SvSystem}

/-- The buffer holds this text as a string, and the next piece goes behind it. -/
structure Holding (w : NmeaSentence) (text : List UInt8) : Prop extends w.Holds text where
  string : CString w.sentence text
  size : w.sentence.size = nmeaSentenceMaxLength

theorem Holding.putPieces {w : NmeaSentence} {text : List UInt8} (h : Holding w text)
    {texts : List Text} (hne : texts ≠ [])
    (hroom : text.length + Text.total texts < nmeaSentenceMaxLength) :
    ∃ w', NmeaSentence.putPieces texts w = .ok (some w') ∧
      Holding w' (text ++ Text.concat texts) := by
  have hremaining := h.remaining
  rw [h.marker, h.size] at hremaining
  rcases NmeaSentence.putPieces_ok texts h.toHolds with
    ⟨hover, -⟩ | ⟨-, w', hw', hholds, hsize, hstring⟩
  · omega
  · exact ⟨w', hw', hholds, hstring hne, hsize.trans h.size⟩

theorem Holding.header {m : Region UInt8} (hm : m.size = nmeaSentenceMaxLength) (t : Text)
    (hroom : t.length < nmeaSentenceMaxLength) :
    ∃ w, NmeaSentence.putPieces [t] (.start m) = .ok (some w) ∧ Holding w t.bytes := by
  have hstart : (NmeaSentence.start m).Holds [] := .start (by rw [hm]; decide)
  rcases NmeaSentence.putPieces_ok [t] hstart with ⟨hover, -⟩ | ⟨-, w, hw, hholds, hsize, hstring⟩
  · have hle : nmeaSentenceMaxLength ≤ t.length := hm ▸ hover
    omega
  · have hcstring := hstring (List.cons_ne_nil t [])
    rw [List.nil_append, Text.concat_cons, Text.concat_nil, List.append_nil] at hholds hcstring
    exact ⟨w, hw, hholds, hcstring, hsize.trans hm⟩

theorem svPieces_ne_nil (fmt : Formats F) (ops : FloatOps F) (sv : GpsSvInfo F) :
    svPieces fmt ops sv ≠ [] := List.cons_ne_nil _ _

/-- The loop puts the next satellites of the system into the sentence, as many as it may still take,
    and leaves the cursor behind the last of them. -/
theorem fillFrom_ok {sv_list : Region (GpsSvInfo F)} (n k i : Nat) (w : NmeaSentence)
    (text : List UInt8) (hw : Holding w text) (hsize : k + n ≤ sv_list.size)
    (hroom : text.length + (Text.concat ((((satsFrom sv_list n k).filter sys.has).take
      (4 - i)).flatMap (svPieces fmt ops))).length < nmeaSentenceMaxLength) :
    ∃ w' k', fillFrom fmt ops sys sv_list n k i w = .ok (some (w', k')) ∧
      Holding w' (text ++ Text.concat ((((satsFrom sv_list n k).filter sys.has).take
        (4 - i)).flatMap (svPieces fmt ops))) ∧
      k ≤ k' ∧ k' ≤ k + n ∧
      (satsFrom sv_list (k + n - k') k').filter sys.has =
        ((satsFrom sv_list n k).filter sys.has).drop (4 - i) := by
  induction n generalizing k i w text with
  | zero => exact ⟨w, k, rfl, by simpa [satsFrom] using hw, Nat.le_refl _, Nat.le_refl _,
      by simp [satsFrom]⟩
  | succ n ih =>
    rw [fillFrom]
    by_cases hi : i < 4
    · rw [if_pos hi, Region.read_ok (by omega), ok_bind]
      rw [satsFrom, List.filter_cons] at hroom ⊢
      cases hhas : sys.has (sv_list.get k) with
      | true =>
        obtain ⟨j, hj⟩ : ∃ j, 4 - i = j + 1 := ⟨3 - i, by omega⟩
        have hnext : 4 - (i + 1) = j := by omega
        simp only [hhas, ↓reduceIte, hj, List.take_succ_cons, List.flatMap_cons,
          Text.concat_append, List.drop_succ_cons, List.length_append] at hroom ⊢
        obtain ⟨w₁, hput, hw₁⟩ := hw.putPieces (svPieces_ne_nil fmt ops (sv_list.get k)) (by
          rw [← Text.length_concat]
          omega)
        obtain ⟨w', k', hfill, hw', hle, hle', hdrop⟩ := ih (k + 1) (i + 1) w₁ _ hw₁ (by omega)
          (by
            rw [hnext, List.length_append]
            omega)
        rw [hnext] at hw' hdrop
        have hleft : k + (n + 1) - k' = k + 1 + n - k' := by omega
        rw [List.append_assoc] at hw'
        refine ⟨w', k', ?_, hw', by omega, by omega, hleft ▸ hdrop⟩
        rw [hput, ok_bind]
        exact hfill
      | false =>
        simp only [hhas, Bool.false_eq_true, ↓reduceIte] at hroom ⊢
        obtain ⟨w', k', hfill, hw', hle, hle', hdrop⟩ := ih (k + 1) i w text hw (by omega) hroom
        have hleft : k + (n + 1) - k' = k + 1 + n - k' := by omega
        exact ⟨w', k', hfill, hw', by omega, by omega, hleft ▸ hdrop⟩
    · -- the sentence is full
      have hzero : 4 - i = 0 := by omega
      have hleft : k + (n + 1) - k = n + 1 := by omega
      refine ⟨w, k, if_neg hi, ?_, Nat.le_refl _, by omega, ?_⟩
      · simpa [hzero] using hw
      · rw [hzero, hleft, List.drop_zero]

theorem Holding.finish {w : NmeaSentence} {body : List UInt8} (h : Holding w (0x24 :: body))
    (hroom : (0x24 :: body).length + 5 < nmeaSentenceMaxLength) :
    ∃ x, NmeaSentence.finish w.sentence = .ok x ∧ x.pNmea.size = nmeaSentenceMaxLength ∧
      x.Carries (withChecksum (0x24 :: body)) := by
  obtain ⟨x, hx, hsize, -, hcarries⟩ := finish_ok h.string
  exact ⟨x, hx, hsize.trans h.size, hcarries (h.size ▸ hroom)⟩

theorem gsvText_eq_cons (fmt : Formats F) (ops : FloatOps F)
    (hname : sys.name.bytes.head? = some 0x24)
    (sentenceCount number count : Nat) (g : List (GpsSvInfo F)) :
    ∃ body, gsvText fmt ops sys sentenceCount number count g = 0x24 :: body := by
  obtain ⟨rest, hrest⟩ := List.head?_eq_some_iff.1 hname
  rw [gsvText, svHeader]
  simp only [Text.bytes_append, hrest, List.cons_append]
  exact ⟨_, rfl⟩

theorem sentencesFrom_ok {status : HaxxSvStatus F} (hname : sys.name.bytes.head? = some 0x24)
    (hsize : status.num_svs ≤ status.sv_list.size) (sentenceCount count n number k : Nat)
    (m : Region UInt8) (hm : m.size = nmeaSentenceMaxLength) (hk : k ≤ status.num_svs)
    (hfit : FitFrom fmt ops sys sentenceCount count number
      (groups 4 n ((satsFrom status.sv_list (status.num_svs - k) k).filter sys.has))) :
    ∃ sent m', sentencesFrom fmt ops sys status sentenceCount count n number k m =
        .ok (sent, some m') ∧
      m'.size = nmeaSentenceMaxLength ∧
      SentFrom fmt ops sys sentenceCount count number
        (groups 4 n ((satsFrom status.sv_list (status.num_svs - k) k).filter sys.has)) sent := by
  induction n generalizing number k m with
  | zero => exact ⟨[], m, rfl, hm, .nil⟩
  | succ n ih =>
    rw [groups_succ] at hfit ⊢
    have hhead := hfit.head
    rw [gsvText, List.length_append] at hhead
    obtain ⟨w, hheader, hw⟩ := Holding.header hm (svHeader fmt sys sentenceCount number count) (by
      rw [Text.length]
      omega)
    have hall : k + (status.num_svs - k) ≤ status.sv_list.size := by omega
    obtain ⟨w', k', hfill, hw', hle, hle', hdrop⟩ :=
      fillFrom_ok (status.num_svs - k) k 0 w _ hw hall (Nat.lt_of_le_of_lt
        (Nat.le_add_right _ 5) hhead)
    rw [Nat.sub_zero] at hw' hdrop
    have hleft : k + (status.num_svs - k) - k' = status.num_svs - k' := by omega
    rw [hleft] at hdrop
    obtain ⟨body, hbody⟩ := gsvText_eq_cons fmt ops hname sentenceCount
      number count (((satsFrom status.sv_list (status.num_svs - k) k).filter sys.has).take 4)
    have hsentence : Holding w' (0x24 :: body) := by
      rw [← hbody]
      exact hw'
    obtain ⟨x, hfinish, hxsize, hcarries⟩ := hsentence.finish (hbody ▸ hfit.head)
    obtain ⟨sent, m', hrest, hm', hsent⟩ := ih (number + 1) k' x.pNmea hxsize (by omega)
      (hdrop ▸ hfit.tail)
    refine ⟨x :: sent, m', ?_, hm', .cons (hbody ▸ hcarries) (hdrop ▸ hsent)⟩
    rw [sentencesFrom, hheader, ok_bind]
    dsimp only
    rw [hfill, ok_bind]
    dsimp only
    rw [hfinish, ok_bind, hrest, ok_bind]

theorem sentencesOf_ok (sys : SvSystem) {status : HaxxSvStatus F}
    (hname : sys.name.bytes.head? = some 0x24)
    (hblank : (sys.name ++ lit "1,1,0,").length + 5 < nmeaSentenceMaxLength)
    (hsize : status.num_svs ≤ status.sv_list.size) (hfit : status.Fits fmt ops sys)
    (m : Region UInt8) (hm : m.size = nmeaSentenceMaxLength) :
    ∃ sent m', sentencesOf fmt ops sys status (sys.ofReport status).length m =
        .ok (sent, some m') ∧
      m'.size = nmeaSentenceMaxLength ∧ Reports fmt ops sys (sys.ofReport status) sent := by
  rw [sentencesOf]
  by_cases hzero : (sys.ofReport status).length = 0
  · obtain ⟨rest, hrest⟩ := List.head?_eq_some_iff.1 hname
    have hstart : (NmeaSentence.start m).Holds [] := .start (by rw [hm]; decide)
    obtain ⟨sentence, hput, hsentence, hstring⟩ :=
      NmeaSentence.putLast_ok hstart (sys.name ++ lit "1,1,0,")
    have hwhole : (sys.name ++ lit "1,1,0,").bytes.take (m.size - 1) =
        (sys.name ++ lit "1,1,0,").bytes := List.take_of_length_le (by
      rw [hm]
      rw [Text.length] at hblank
      omega)
    have hbody : (sys.name ++ lit "1,1,0,").bytes = 0x24 :: (rest ++ (lit "1,1,0,").bytes) := by
      rw [Text.bytes_append, hrest, List.cons_append]
    rw [List.nil_append, NmeaSentence.start, hwhole, hbody] at hstring
    obtain ⟨x, hfinish, hxsize, -, hcarries⟩ := finish_ok hstring
    have hroom : (0x24 :: (rest ++ (lit "1,1,0,").bytes)).length + 5 < sentence.size := by
      rw [← hbody, hsentence, NmeaSentence.start, hm]
      exact hblank
    refine ⟨[x], x.pNmea, ?_, hxsize.trans (hsentence.trans hm), fun _ => ⟨x, rfl, ?_⟩, ?_⟩
    · rw [if_pos hzero, hput, ok_bind, hfinish, ok_bind]
    · rw [hbody]
      exact hcarries hroom
    · exact fun hne => absurd (List.eq_nil_of_length_eq_zero hzero) hne
  · obtain ⟨sent, m', hrun, hm', hsent⟩ := sentencesFrom_ok hname hsize
      (groupCount 4 (sys.ofReport status).length) (sys.ofReport status).length
      (groupCount 4 (sys.ofReport status).length) 1 0 m hm (Nat.zero_le _) hfit
    refine ⟨sent, m', ?_, hm', ?_, fun _ => ?_⟩
    · rw [if_neg hzero]
      exact hrun
    · exact fun hnil => absurd (congrArg List.length hnil) hzero
    · refine ⟨groups 4 (groupCount 4 (sys.ofReport status).length) (sys.ofReport status),
        flatten_groups_groupCount (by decide), length_groups,
        fun g hg => length_le_of_mem_groups hg, fun g hg => length_of_mem_dropLast hg, ?_⟩
      rw [length_groups]
      exact hsent

/-- For each of the two systems, the sentences of a report whose sentences fit carry the satellites
    of the system in report order, four by four, and no others. -/
theorem loc_eng_nmea_generate_sv_reports (data : NmeaData F) (status : HaxxSvStatus F)
    (ext : GpsLocationExtended F) (hsize : status.num_svs ≤ status.sv_list.size)
    (hgps : status.Fits fmt ops .gps) (hglonass : status.Fits fmt ops .glonass) :
    ∃ gpsSent glnSent, loc_eng_nmea_generate_sv fmt ops data status ext =
        .ok (cacheSv ops data status ext, gpsSent ++ glnSent) ∧
      Reports fmt ops .gps (SvSystem.gps.ofReport status) gpsSent ∧
      Reports fmt ops .glonass (SvSystem.glonass.ofReport status) glnSent := by
  have hcount := countFrom_ok status.sv_list status.num_svs 0 0 0 (by omega)
  rw [Nat.zero_add, Nat.zero_add] at hcount
  obtain ⟨gpsSent, m₁, hgpsRun, hm₁, hgpsReports⟩ := sentencesOf_ok .gps rfl (by decide) hsize
    hgps ⟨nmeaSentenceMaxLength, fun _ => 0⟩ rfl
  obtain ⟨glnSent, m₂, hglnRun, -, hglnReports⟩ := sentencesOf_ok .glonass rfl (by decide)
    hsize hglonass m₁ hm₁
  refine ⟨gpsSent, glnSent, ?_, hgpsReports, hglnReports⟩
  rw [loc_eng_nmea_generate_sv, hcount, ok_bind]
  dsimp only
  rw [← HaxxSvStatus.sats, ← SvSystem.ofReport, ← SvSystem.ofReport, hgpsRun, ok_bind]
  dsimp only
  rw [hglnRun, ok_bind]

end Loops

/-- Five GPS and two GLONASS satellites, and two of other systems between them. -/
def mixedStatus : HaxxSvStatus Int where
  num_svs := 9
  sv_list := ⟨32, fun i => ⟨([3, 70, 120, 5, 32, 65, 33, 1, 17][i]?).getD 0, 10 * (i % 2), 40, 180⟩⟩
  gps_used_in_fix_mask := 0x10000015
  glo_used_in_fix_mask := 0x21

theorem loc_eng_nmea_generate_sv_reports_mixed :
    mixedStatus.Fits intFormats intOps .gps ∧ mixedStatus.Fits intFormats intOps .glonass ∧
    ∃ gpsSent glnSent, loc_eng_nmea_generate_sv intFormats intOps dataWithoutSv mixedStatus
        seaLevel = .ok (cacheSv intOps dataWithoutSv mixedStatus seaLevel, gpsSent ++ glnSent) ∧
      Reports intFormats intOps .gps (SvSystem.gps.ofReport mixedStatus) gpsSent ∧
      Reports intFormats intOps .glonass (SvSystem.glonass.ofReport mixedStatus) glnSent :=
  have hgps : mixedStatus.Fits intFormats intOps .gps := by decide +kernel
  have hglonass : mixedStatus.Fits intFormats intOps .glonass := by decide +kernel
  ⟨hgps, hglonass,
    loc_eng_nmea_generate_sv_reports dataWithoutSv mixedStatus seaLevel (by decide) hgps hglonass⟩

end Nx508j.Loc
