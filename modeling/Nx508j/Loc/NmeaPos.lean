import Nx508j.Loc.NmeaSentence

/-! # The sentences of a position report

Five sentences go out for a position report, all printed into one buffer. A piece that does not fit
ends the report. What the last sentences of a satellite report left behind is cleared on the way, so
that it is not used again. -/

namespace Nx508j.Loc

open Nx508j.Lib

/-- `LocPositionMode` -/
inductive LocPositionMode
  | LOC_POSITION_MODE_INVALID
  | LOC_POSITION_MODE_STANDALONE
  | LOC_POSITION_MODE_MS_BASED
  | LOC_POSITION_MODE_MS_ASSISTED
  | LOC_POSITION_MODE_RESERVED_1
  | LOC_POSITION_MODE_RESERVED_2
  | LOC_POSITION_MODE_RESERVED_3
  | LOC_POSITION_MODE_RESERVED_4
  | LOC_POSITION_MODE_RESERVED_5
deriving DecidableEq

/-- What the sentences take of `loc_eng_data_s_type`. -/
structure NmeaData (F : Type) where
  gps_used_mask : UInt32
  glo_used_mask : UInt32
  pdop : F
  hdop : F
  vdop : F
  /-- `adapter->getPositionMode().mode` -/
  mode : LocPositionMode

/-- `GpsLocation`, with what its flags say. -/
structure GpsLocation (F : Type) where
  has_lat_long : Bool
  has_altitude : Bool
  has_speed : Bool
  has_bearing : Bool
  latitude : F
  longitude : F
  altitude : F
  speed : F
  bearing : F
  timestamp : Int

/-- `GpsLocationExtended` -/
structure GpsLocationExtended (F : Type) where
  flags : UInt16
  altitudeMeanSeaLevel : F
  pdop : F
  hdop : F
  vdop : F
  magneticDeviation : F

namespace GpsLocationExtended

variable {F : Type}

/-- `GPS_LOCATION_EXTENDED_HAS_DOP` -/
def hasDop (e : GpsLocationExtended F) : Bool := e.flags &&& 0x0001 ≠ 0

/-- `GPS_LOCATION_EXTENDED_HAS_ALTITUDE_MEAN_SEA_LEVEL` -/
def hasAltitudeMeanSeaLevel (e : GpsLocationExtended F) : Bool := e.flags &&& 0x0002 ≠ 0

/-- `GPS_LOCATION_EXTENDED_HAS_MAG_DEV` -/
def hasMagDev (e : GpsLocationExtended F) : Bool := e.flags &&& 0x0004 ≠ 0

end GpsLocationExtended

/-- `struct tm` -/
structure Tm where
  tm_year : Int
  tm_mon : Int
  tm_mday : Int
  tm_hour : Int
  tm_min : Int
  tm_sec : Int

/-- One sentence: what is cleared before it, the pieces whose lengths are looked at, and the last
    piece, whose length is not. -/
structure NmeaStage (F : Type) where
  clear : NmeaData F → NmeaData F
  pieces : List Text
  last : Text

section Model

variable {F : Type} (fmt : Formats F) (ops : FloatOps F)

/-- The satellites of a mask from number `i` on, at most `n` of them. -/
def svUsedFrom (offset : Int) : Nat → Int → UInt32 → List Int
  | 0, _, _ => []
  | n + 1, i, mask =>
    if mask = 0 then []
    else
      let rest := svUsedFrom offset n (i + 1) (mask >>> 1)
      if mask &&& 1 ≠ 0 then (i + offset) :: rest else rest

/-- `svUsedList`, `gloUsedList` -/
def svUsedList (offset : Int) (mask : UInt32) : List Int := svUsedFrom offset 32 1 mask

/-- `fixType` -/
def fixType (svUsedCount : Nat) : Text :=
  if svUsedCount = 0 then lit "1" else if svUsedCount ≤ 3 then lit "2" else lit "3"

/-- The satellite IDs, only the first twelve. -/
def svUsedPieces (svs : List Int) : List Text :=
  (List.range 12).map fun i =>
    match svs[i]? with
    | some sv => fmt.d2 sv ++ lit ","
    | none => lit ","

/-- The dilutions of precision, from the report or from the satellite report before it. -/
def dopPiece (data : NmeaData F) (ext : GpsLocationExtended F) : Text :=
  if ext.hasDop then
    fmt.f1 ext.pdop ++ lit "," ++ fmt.f1 ext.hdop ++ lit "," ++ fmt.f1 ext.vdop
  else if ops.positive data.pdop && ops.positive data.hdop && ops.positive data.vdop then
    fmt.f1 data.pdop ++ lit "," ++ fmt.f1 data.hdop ++ lit "," ++ fmt.f1 data.vdop
  else lit ",,"

/-- `$GPGSA` -/
def gpgsa (data : NmeaData F) (ext : GpsLocationExtended F) : NmeaStage F :=
  let svs := svUsedList 0 data.gps_used_mask
  { clear := fun data => { data with gps_used_mask := 0 }
    pieces := (lit "$GPGSA,A," ++ fixType svs.length ++ lit ",") :: svUsedPieces fmt svs
    last := dopPiece fmt ops data ext }

/-- `$GNGSA` -/
def gngsa (data : NmeaData F) (ext : GpsLocationExtended F) : NmeaStage F :=
  -- GLONASS_SV_ID_OFFSET
  let svs := svUsedList 64 data.glo_used_mask
  { clear := fun data => { data with glo_used_mask := 0 }
    pieces := (lit "$GNGSA,A," ++ fixType svs.length ++ lit ",") :: svUsedPieces fmt svs
    last := dopPiece fmt ops data ext }

/-- The mode that ends `$GPVTG` and `$GPRMC`. -/
def modePiece (data : NmeaData F) (loc : GpsLocation F) : Text :=
  if !loc.has_lat_long then lit "N"
  else if data.mode = .LOC_POSITION_MODE_STANDALONE then lit "A"
  else lit "D"

/-- `$GPVTG` -/
def gpvtg (data : NmeaData F) (loc : GpsLocation F) : NmeaStage F :=
  { clear := id
    pieces :=
      [ -- the deviation goes to a `magTrack` of the inner block, so the bearing is printed twice
        if loc.has_bearing then
          lit "$GPVTG," ++ fmt.f1 loc.bearing ++ lit ",T," ++ fmt.f1 loc.bearing ++ lit ",M,"
        else lit "$GPVTG,,T,,M,",
        if loc.has_speed then
          fmt.f1 (ops.knots loc.speed) ++ lit ",N," ++ fmt.f1 (ops.kmPerHour loc.speed) ++
            lit ",K,"
        else lit ",N,,K," ]
    last := modePiece data loc }

/-- Hours, minutes, seconds and hundredths. -/
def timePiece (loc : GpsLocation F) (tm : Tm) : Text :=
  fmt.d2 tm.tm_hour ++ fmt.d2 tm.tm_min ++ fmt.d2 tm.tm_sec ++ lit "." ++
    fmt.d2 ((loc.timestamp.tmod 1000).tdiv 10) ++ lit ","

/-- Latitude and longitude with their hemispheres. -/
def latLongPiece (loc : GpsLocation F) : Text :=
  if loc.has_lat_long then
    let latitude := if ops.positive loc.latitude then loc.latitude else ops.neg loc.latitude
    let latHemisphere := if ops.positive loc.latitude then lit "N" else lit "S"
    let longitude := if ops.negative loc.longitude then ops.neg loc.longitude else loc.longitude
    let lonHemisphere := if ops.negative loc.longitude then lit "W" else lit "E"
    fmt.d2 (ops.degrees latitude) ++ fmt.f9 (ops.minutes latitude) ++ lit "," ++ latHemisphere ++
      lit "," ++ fmt.d3 (ops.degrees longitude) ++ fmt.f9 (ops.minutes longitude) ++ lit "," ++
      lonHemisphere ++ lit ","
  else lit ",,,,"

/-- `$GPRMC` -/
def gprmc (data : NmeaData F) (loc : GpsLocation F) (ext : GpsLocationExtended F) (tm : Tm) :
    NmeaStage F :=
  { clear := id
    pieces :=
      [ lit "$GPRMC," ++ timePiece fmt loc tm ++ lit "A,",
        latLongPiece fmt ops loc,
        if loc.has_speed then fmt.f1 (ops.knots loc.speed) ++ lit "," else lit ",",
        if loc.has_bearing then fmt.f1 loc.bearing ++ lit "," else lit ",",
        fmt.dd tm.tm_mday ++ fmt.dd (tm.tm_mon + 1) ++ fmt.dd (tm.tm_year.tmod 100) ++ lit ",",
        if ext.hasMagDev then
          if ops.negative ext.magneticDeviation then
            fmt.f1 (ops.neg ext.magneticDeviation) ++ lit ",W,"
          else fmt.f1 ext.magneticDeviation ++ lit ",E,"
        else lit ",," ]
    last := modePiece data loc }

/-- `gpsQuality` -/
def gpsQuality (data : NmeaData F) (loc : GpsLocation F) : Text :=
  if !loc.has_lat_long then lit "0"
  else if data.mode = .LOC_POSITION_MODE_STANDALONE then lit "1"
  else lit "2"

/-- `$GPGGA` -/
def gpgga (data : NmeaData F) (loc : GpsLocation F) (ext : GpsLocationExtended F) (tm : Tm) :
    NmeaStage F :=
  let svUsedCount := (svUsedList 0 data.gps_used_mask).length
  let quality := gpsQuality data loc ++ lit "," ++ fmt.d2 svUsedCount ++ lit ","
  { clear := id
    pieces :=
      [ lit "$GPGGA," ++ timePiece fmt loc tm,
        latLongPiece fmt ops loc,
        if ext.hasDop then quality ++ fmt.f1 ext.hdop ++ lit ","
        else if ops.positive data.pdop && ops.positive data.hdop && ops.positive data.vdop then
          quality ++ fmt.f1 data.hdop ++ lit ","
        else quality ++ lit ",",
        if ext.hasAltitudeMeanSeaLevel then fmt.f1 ext.altitudeMeanSeaLevel ++ lit ",M,"
        else lit ",," ]
    last :=
      if loc.has_altitude && ext.hasAltitudeMeanSeaLevel then
        fmt.f1 (ops.sub loc.altitude ext.altitudeMeanSeaLevel) ++ lit ",M,,"
      else lit ",,," }

/-- A blank sentence. -/
def blank (s : String) : NmeaStage F := { clear := id, pieces := [], last := lit s }

/-- The sentences of a report, and the blank ones for a fix that is not final. -/
def nmeaStages (data : NmeaData F) (loc : GpsLocation F) (ext : GpsLocationExtended F)
    (generate_nmea : Bool) (tm : Tm) : List (NmeaStage F) :=
  if generate_nmea then
    [ gpgsa fmt ops data ext,
      gngsa fmt ops data ext,
      gpvtg fmt ops data loc,
      gprmc fmt ops data loc ext tm,
      gpgga fmt ops data loc ext tm ]
  else
    [ blank "$GPGSA,A,1,,,,,,,,,,,,,,,",
      blank "$GNGSA,A,1,,,,,,,,,,,,,,,",
      blank "$GPVTG,,T,,M,,N,,K,N",
      blank "$GPRMC,,V,,,,,,,,,,N",
      blank "$GPGGA,,,,,,0,,,,,,,," ]

/-- Print the sentences one after the other into the buffer, and send each. A piece that does not
    fit ends it. -/
def runStages : List (NmeaStage F) → Region UInt8 → NmeaData F →
    Except Fault (NmeaData F × List NmeaSent)
  | [], _, data =>
    -- clear the dop cache
    .ok ({ data with pdop := ops.zero, hdop := ops.zero, vdop := ops.zero }, [])
  | s :: ss, sentence, data => do
      let data := s.clear data
      match ← NmeaSentence.putPieces s.pieces (.start sentence) with
      | none => .ok (data, [])
      | some w =>
        let sentence ← NmeaSentence.putLast s.last w
        let x ← NmeaSentence.finish sentence
        let (data, sent) ← runStages ss x.pNmea data
        .ok (data, x :: sent)

/-- `loc_eng_nmea_generate_pos`, with the sentences it sends. -/
def loc_eng_nmea_generate_pos (gmtime : Int → Option Tm) (data : NmeaData F) (loc : GpsLocation F)
    (ext : GpsLocationExtended F) (generate_nmea : Bool) :
    Except Fault (NmeaData F × List NmeaSent) :=
  match gmtime (loc.timestamp.tdiv 1000) with
  | none => .ok (data, [])
  | some tm =>
    runStages ops (nmeaStages fmt ops data loc ext generate_nmea tm)
      ⟨nmeaSentenceMaxLength, fun _ => 0⟩ data

end Model

/-! ## What has to fit -/

namespace NmeaStage

variable {F : Type}

/-- The whole sentence, without its checksum. -/
def text (s : NmeaStage F) : List UInt8 := Text.concat s.pieces ++ s.last.bytes

/-- A sentence starts with a dollar sign. -/
def Dollar (s : NmeaStage F) : Prop := s.text.head? = some 0x24

/-- Each sentence that gets to its last piece has room for that and for the checksum. -/
def Fits : List (NmeaStage F) → Prop
  | [] => True
  | s :: ss =>
    Text.total s.pieces < nmeaSentenceMaxLength →
      Text.total s.pieces + s.last.length + 5 < nmeaSentenceMaxLength ∧ Fits ss

def decidableFits : (ss : List (NmeaStage F)) → Decidable (Fits ss)
  | [] => instDecidableTrue
  | _ :: ss =>
    have : Decidable (Fits ss) := decidableFits ss
    inferInstanceAs (Decidable (_ → _ ∧ _))

instance (ss : List (NmeaStage F)) : Decidable (Fits ss) := decidableFits ss

theorem text_length (s : NmeaStage F) : s.text.length = Text.total s.pieces + s.last.length := by
  rw [text, List.length_append, Text.length_concat, Text.length]

theorem Dollar.take {s : NmeaStage F} (h : s.Dollar) {n : Nat} (hn : 0 < n) :
    ∃ body, s.text.take n = 0x24 :: body := by
  obtain ⟨n, rfl⟩ : ∃ i, n = i + 1 := Nat.exists_eq_succ_of_ne_zero (Nat.ne_of_gt hn)
  rw [Dollar] at h
  cases htext : s.text with
  | nil => simp [htext] at h
  | cons c body =>
    rw [htext, List.head?_cons, Option.some.injEq] at h
    exact ⟨body.take n, by rw [List.take_succ_cons, h]⟩

variable {m : Region UInt8}

theorem send_ok {s : NmeaStage F} (hdollar : s.Dollar) (hm : m.size = nmeaSentenceMaxLength)
    (hfits : Text.total s.pieces < nmeaSentenceMaxLength) :
    ∃ w sentence x, NmeaSentence.putPieces s.pieces (.start m) = .ok (some w) ∧
      NmeaSentence.putLast s.last w = .ok sentence ∧
      NmeaSentence.finish sentence = .ok x ∧
      x.pNmea.size = nmeaSentenceMaxLength ∧
      (x.Valid ↔ Text.total s.pieces + s.last.length + 5 < nmeaSentenceMaxLength) := by
  have hstart : (NmeaSentence.start m).Holds [] := .start (by rw [hm]; decide)
  rcases NmeaSentence.putPieces_ok s.pieces hstart with
    ⟨hover, -⟩ | ⟨-, w, hw, hholds, hsize, -⟩
  · exact absurd hfits (Nat.not_lt.2 (hm ▸ hover))
  obtain ⟨sentence, hlast, hsize', hstring⟩ := NmeaSentence.putLast_ok hholds s.last
  have hwsize : w.sentence.size = nmeaSentenceMaxLength := hsize.trans hm
  have hroom : Text.total s.pieces + w.lengthRemaining = nmeaSentenceMaxLength := by
    have := hholds.remaining
    rw [hholds.marker, hwsize, List.nil_append, Text.length_concat] at this
    exact this
  -- the sentence is cut at the end of the buffer
  have hcut : Text.concat s.pieces ++ s.last.bytes.take (w.lengthRemaining - 1) =
      s.text.take (nmeaSentenceMaxLength - 1) := by
    have hremaining : nmeaSentenceMaxLength - 1 - Text.total s.pieces = w.lengthRemaining - 1 := by
      omega
    have hall : (Text.concat s.pieces).length ≤ nmeaSentenceMaxLength - 1 := by
      rw [Text.length_concat]
      omega
    rw [text, List.take_append, List.take_of_length_le hall, Text.length_concat, hremaining]
  rw [List.nil_append, hcut] at hstring
  obtain ⟨body, hbody⟩ := hdollar.take (n := nmeaSentenceMaxLength - 1) (by decide)
  have hlength : (0x24 :: body).length =
      min (nmeaSentenceMaxLength - 1) (Text.total s.pieces + s.last.length) := by
    rw [← hbody, List.length_take, text_length]
  rw [hbody] at hstring
  obtain ⟨x, hfinish, hxsize, hvalid, -⟩ := finish_ok hstring
  refine ⟨w, sentence, x, hw, hlast, hfinish, hxsize.trans (hsize'.trans hwsize), ?_⟩
  rw [hvalid, hlength, hsize', hwsize, nmeaSentenceMaxLength]
  omega

end NmeaStage

section Proofs

variable {F : Type} (fmt : Formats F) (ops : FloatOps F)

theorem runStages_ok (ss : List (NmeaStage F)) (hdollar : ∀ s ∈ ss, s.Dollar) (m : Region UInt8)
    (hm : m.size = nmeaSentenceMaxLength) (data : NmeaData F) :
    ∃ data' sent, runStages ops ss m data = .ok (data', sent) ∧
      ((∀ x ∈ sent, x.Valid) ↔ NmeaStage.Fits ss) := by
  induction ss generalizing m data with
  | nil => exact ⟨_, [], rfl, by simp [NmeaStage.Fits]⟩
  | cons s ss ih =>
    by_cases hfits : Text.total s.pieces < nmeaSentenceMaxLength
    · obtain ⟨w, sentence, x, hpieces, hlast, hfinish, hsize, hvalid⟩ :=
        NmeaStage.send_ok (hdollar s (List.mem_cons_self ..)) hm hfits
      obtain ⟨data', sent, hrest, hiff⟩ :=
        ih (fun s' hs' => hdollar s' (List.mem_cons_of_mem s hs')) x.pNmea hsize (s.clear data)
      refine ⟨data', x :: sent, ?_, ?_⟩
      · rw [runStages, hpieces, ok_bind]
        dsimp only
        rw [hlast, ok_bind, hfinish, ok_bind, hrest, ok_bind]
      · rw [List.forall_mem_cons, hvalid, hiff, NmeaStage.Fits]
        exact ⟨fun h _ => h, fun h => h hfits⟩
    · -- a piece does not fit, and nothing more is sent
      have hstart : (NmeaSentence.start m).Holds [] := .start (by rw [hm]; decide)
      rcases NmeaSentence.putPieces_ok s.pieces hstart with
        ⟨-, hnone⟩ | ⟨hunder, -⟩
      · refine ⟨s.clear data, [], ?_, ?_⟩
        · rw [runStages, hnone, ok_bind]
        · simp [NmeaStage.Fits, hfits]
      · exact absurd (hm ▸ hunder) hfits

variable {data : NmeaData F} {loc : GpsLocation F} {ext : GpsLocationExtended F} {tm : Tm}

theorem nmeaStages_dollar {generate_nmea : Bool} :
    ∀ s ∈ nmeaStages fmt ops data loc ext generate_nmea tm, s.Dollar := by
  intro s hs
  cases generate_nmea with
  | true =>
    simp only [nmeaStages, if_pos, List.mem_cons, List.not_mem_nil, or_false] at hs
    rcases hs with rfl | rfl | rfl | rfl | rfl
    · rfl
    · rfl
    · rw [NmeaStage.Dollar, NmeaStage.text, gpvtg]
      cases loc.has_bearing <;> rfl
    · rfl
    · rfl
  | false =>
    simp only [nmeaStages, Bool.false_eq_true, if_false, List.mem_cons, List.not_mem_nil,
      or_false] at hs
    rcases hs with rfl | rfl | rfl | rfl | rfl <;> rfl

theorem fits_blank_cons {s : String} {ss : List (NmeaStage F)}
    (h : (lit s).length + 5 < nmeaSentenceMaxLength) (hss : NmeaStage.Fits ss) :
    NmeaStage.Fits (blank s :: ss) := by
  intro _
  refine ⟨?_, hss⟩
  rw [blank, Text.total_nil, Nat.zero_add]
  exact h

theorem fits_blank : NmeaStage.Fits (nmeaStages fmt ops data loc ext false tm) :=
  fits_blank_cons (by decide) <| fits_blank_cons (by decide) <| fits_blank_cons (by decide) <|
    fits_blank_cons (by decide) <| fits_blank_cons (by decide) trivial

/-- Every sentence of a position report is well formed and passed with its length if each of them
    has room for its last piece and the checksum, and only then. -/
theorem loc_eng_nmea_generate_pos_valid_iff (gmtime : Int → Option Tm) (data : NmeaData F)
    (loc : GpsLocation F) (ext : GpsLocationExtended F) (generate_nmea : Bool) :
    ∃ data' sent,
      loc_eng_nmea_generate_pos fmt ops gmtime data loc ext generate_nmea = .ok (data', sent) ∧
      ((∀ x ∈ sent, x.Valid) ↔
        ∀ tm, gmtime (loc.timestamp.tdiv 1000) = some tm → generate_nmea = true →
          NmeaStage.Fits (nmeaStages fmt ops data loc ext true tm)) := by
  cases hgm : gmtime (loc.timestamp.tdiv 1000) with
  | none =>
    refine ⟨data, [], ?_, ?_⟩
    · rw [loc_eng_nmea_generate_pos, hgm]
    · simp
  | some tm =>
    obtain ⟨data', sent, hrun, hiff⟩ := runStages_ok ops
      (nmeaStages fmt ops data loc ext generate_nmea tm) (nmeaStages_dollar fmt ops)
      ⟨nmeaSentenceMaxLength, fun _ => 0⟩ rfl data
    refine ⟨data', sent, ?_, ?_⟩
    · rw [loc_eng_nmea_generate_pos, hgm]
      exact hrun
    · rw [hiff]
      cases generate_nmea with
      | true => simp
      | false => simpa using fits_blank fmt ops

end Proofs

/-! ## A large altitude

The difference of the altitudes is the last piece of `$GPGGA`. -/

/-- A number of digits, with zeros before it. -/
def padded (n : Nat) (s : String) : Text := lit (String.ofList (s.toList.leftpad n '0'))

/-- How whole numbers are printed. -/
def intFormats : Formats Int where
  d x := lit (toString x)
  d2 x := padded 2 (toString x)
  d3 x := padded 3 (toString x)
  dd x := padded 2 (toString x)
  f1 x := lit (toString x ++ ".0")
  f9 x := padded 9 (toString x ++ ".000000")

/-- What is computed with whole numbers, where the results are whole again. -/
def intOps : FloatOps Int where
  zero := 0
  positive x := 0 < x
  negative x := x < 0
  neg x := -x
  sub x y := x - y
  knots x := x * 3600 / 1852
  kmPerHour x := x * 18 / 5
  degrees x := x % 256
  minutes _ := 0
  nearest x := x

/-- The time of the first report: the first of January 1970. -/
def gmtimeOfZero (time : Int) : Option Tm := if time = 0 then some ⟨70, 0, 1, 0, 0, 0⟩ else none

def dataWithoutSv : NmeaData Int := ⟨0, 0, 0, 0, 0, .LOC_POSITION_MODE_STANDALONE⟩

/-- A location at the height of `2 ^ 1000` metres. -/
def highLocation : GpsLocation Int where
  has_lat_long := true
  has_altitude := true
  has_speed := false
  has_bearing := false
  latitude := 1
  longitude := 1
  altitude := Nat.pow 2 1000
  speed := 0
  bearing := 0
  timestamp := 0

def seaLevel : GpsLocationExtended Int where
  flags := 0x0002
  altitudeMeanSeaLevel := 0
  pdop := 0
  hdop := 0
  vdop := 0
  magneticDeviation := 0

theorem length_le_append {s t : Text} : s.length ≤ (s ++ t).length := by
  rw [Text.length, Text.length, Text.bytes_append, List.length_append]
  exact Nat.le_add_right ..

theorem length_f1 (n : Nat) : (intFormats.f1 (intOps.sub n 0)).length =
    (((Nat.toDigits 10 n ++ ['.', '0']).map fun c => UInt8.ofNat c.toNat).filter
      fun c => c ≠ 0).length := by
  have hchars : (toString ((n : Int) - 0) ++ ".0").toList = Nat.toDigits 10 n ++ ['.', '0'] := by
    rw [Int.sub_zero, String.toList_append, show toString (n : Int) = n.repr from rfl,
      Nat.toList_repr]
    rfl
  rw [← hchars]
  rfl

/-- The altitude fills the buffer, and the sentence goes out without its checksum. -/
theorem loc_eng_nmea_generate_pos_high :
    ∃ data' sent, loc_eng_nmea_generate_pos intFormats intOps gmtimeOfZero dataWithoutSv
        highLocation seaLevel true = .ok (data', sent) ∧ ¬ ∀ x ∈ sent, x.Valid := by
  obtain ⟨data', sent, hrun, hiff⟩ := runStages_ok intOps
    (nmeaStages intFormats intOps dataWithoutSv highLocation seaLevel true ⟨70, 0, 1, 0, 0, 0⟩)
    (nmeaStages_dollar intFormats intOps) ⟨nmeaSentenceMaxLength, fun _ => 0⟩ rfl dataWithoutSv
  refine ⟨data', sent, hrun, fun hvalid => ?_⟩
  -- the first four sentences are short, and of the last one all but the altitude
  obtain ⟨-, hfits⟩ := hiff.1 hvalid (by decide +kernel)
  obtain ⟨-, hfits⟩ := hfits (by decide +kernel)
  obtain ⟨-, hfits⟩ := hfits (by decide +kernel)
  obtain ⟨-, hfits⟩ := hfits (by decide +kernel)
  obtain ⟨hlast, -⟩ := hfits (by decide +kernel)
  have hlength : (intFormats.f1 (intOps.sub (Nat.pow 2 1000) 0)).length ≤
      (gpgga intFormats intOps dataWithoutSv highLocation seaLevel ⟨70, 0, 1, 0, 0, 0⟩).last.length
      := by
    rw [show (gpgga intFormats intOps dataWithoutSv highLocation seaLevel
      ⟨70, 0, 1, 0, 0, 0⟩).last = intFormats.f1 (intOps.sub (Nat.pow 2 1000) 0) ++ lit ",M,,"
      from rfl]
    exact length_le_append
  have hlong : 300 ≤ (intFormats.f1 (intOps.sub (Nat.pow 2 1000) 0)).length := by
    rw [length_f1]
    decide +kernel
  exact absurd (Nat.le_trans hlong hlength) (by
    rw [nmeaSentenceMaxLength] at hlast
    omega)

end Nx508j.Loc
