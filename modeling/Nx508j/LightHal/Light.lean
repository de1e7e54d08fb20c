import Mathlib.Data.List.Induction

/-! # The breath light

Notifications, attention, the battery and the buttons share one LED. Each request of one of them
turns it on or off as a source, and what the LED shows is chosen by a comparison of the source of
the request with the source that is shown, and by an order of branches. -/

namespace Nx508j.LightHal

open Function (update update_apply update_of_ne update_self)

/-! ## Requests -/

/-- `Flash` -/
inductive Flash where
  | none
  | timed
  | hardware
deriving DecidableEq, Repr

/-- `LightState` -/
structure LightState where
  color : BitVec 32 := 0
  flashMode : Flash := .none
  flashOnMs : Int := 0
  flashOffMs : Int := 0
deriving DecidableEq, Repr

/-- `rgbToBrightness` -/
def rgbToBrightness (state : LightState) : BitVec 32 :=
  let color := state.color &&& 0x00FFFFFF
  (77 * ((color >>> 16) &&& 0xFF) + 150 * ((color >>> 8) &&& 0xFF) + 29 * (color &&& 0xFF)) >>> 8

/-- `onMs` and `offMs` of a request. -/
def LightState.times (state : LightState) : Int × Int :=
  match state.flashMode with
  | .timed => (state.flashOnMs, state.flashOffMs)
  | _ => (0, 0)

/-- `battery_status` -/
inductive BatteryStatus where
  | unknown
  | low
  | free
  | charging
  | full
deriving DecidableEq, Repr

/-- What is read of the battery: whether the status begins with `Charging`, and the capacity. -/
structure BatteryFiles where
  charging : Option Bool
  capacity : Option Int
deriving DecidableEq, Repr

/-- `getBatteryStatus` -/
def BatteryFiles.getBatteryStatus (files : BatteryFiles) : BatteryStatus :=
  match files.charging, files.capacity with
  | some true, some capacity => if capacity = 100 then .full else .charging
  | some false, some capacity => if capacity ≤ 15 then .low else .free
  | _, _ => .unknown

/-- `BREATH_SOURCE_NOTIFICATION` and so on. -/
inductive BreathSource where
  | notification
  | battery
  | buttons
  | attention
deriving DecidableEq, Repr

/-- The bit of a source. -/
def BreathSource.code : BreathSource → BitVec 32
  | .notification => 0x01
  | .battery => 0x02
  | .buttons => 0x04
  | .attention => 0x08

/-- `last_state` as a number, with `BREATH_SOURCE_NONE`. -/
def stateCode : Option BreathSource → BitVec 32
  | none => 0xFF
  | some source => source.code

/-! ## Patterns -/

/-- `PM_PWM_LUT_LOOP` -/
def pmPwmLutLoop : Nat := 0x01

/-- `PM_PWM_LUT_RAMP_UP` -/
def pmPwmLutRampUp : Nat := 0x02

/-- `PM_PWM_LUT_REVERSE` -/
def pmPwmLutReverse : Nat := 0x04

/-- `PM_PWM_LUT_PAUSE_HI_EN` -/
def pmPwmLutPauseHiEn : Nat := 0x08

/-- `PM_PWM_LUT_PAUSE_LO_EN` -/
def pmPwmLutPauseLoEn : Nat := 0x10

/-- `PM_PWM_LUT_NO_TABLE` -/
def pmPwmLutNoTable : Nat := 0x20

/-- The flags of a light that blinks. -/
def blinkFlags : Nat :=
  pmPwmLutRampUp ||| pmPwmLutLoop ||| pmPwmLutReverse ||| pmPwmLutPauseHiEn ||| pmPwmLutPauseLoEn

/-- `BREATH_LED_BRIGHTNESS_NOTIFICATION`, the numbers of the text. -/
def breathLedBrightnessNotification : List Nat :=
  [0, 5, 10, 15, 20, 26, 31, 36, 41, 46, 51, 56, 61, 66, 71, 77, 82, 87, 92, 97, 102, 107, 112, 117,
    122, 128, 133, 138, 143, 148, 153, 158, 163, 168, 173, 179, 184, 189, 194, 199, 204, 209, 214,
    219, 224, 230, 235, 240, 245, 250, 255]

/-- `BREATH_LED_BRIGHTNESS_BATTERY` -/
def breathLedBrightnessBattery : List Nat := [0, 50]

/-- `BREATH_LED_BRIGHTNESS_CHARGING` -/
def breathLedBrightnessCharging : List Nat :=
  [20, 21, 22, 23, 24, 25, 26, 27, 28, 29, 30, 31, 32, 33, 34, 35, 36, 37, 38, 39, 40, 41, 42, 43,
    44, 45, 46, 47, 48, 49, 50, 51, 52, 53, 54, 55, 56, 57, 58, 59, 60]

/-- `BREATH_LED_BRIGHTNESS_BUTTONS` -/
def breathLedBrightnessButtons : List Nat := [0, 15, 25, 35, 55]

/-- What is computed before the LED is programmed. -/
structure Settings where
  light_template : List Nat := []
  rampStepMs : Option Nat := none
  lut_flags : Nat := 0
  onMs : Int
  offMs : Int
deriving DecidableEq, Repr

/-- The branch of a source, for a request with some times. -/
def BreathSource.settings (source : BreathSource) (times : Int × Int) (battery : BatteryStatus) :
    Settings :=
  let (onMs, offMs) := times
  match source with
  | .notification | .attention =>
    if 0 < onMs ∧ 0 < offMs then
      { light_template := breathLedBrightnessNotification, rampStepMs := some 20
        lut_flags := blinkFlags, onMs, offMs }
    else
      { light_template := breathLedBrightnessNotification
        lut_flags := pmPwmLutRampUp, onMs, offMs }
  | .battery =>
    match battery with
    | .low =>
      { light_template := breathLedBrightnessBattery, rampStepMs := some 50
        lut_flags := blinkFlags, onMs := 300, offMs := 1500 }
    | .charging =>
      { light_template := breathLedBrightnessCharging, rampStepMs := some 0
        lut_flags := blinkFlags, onMs := 500, offMs := 500 }
    | .full =>
      { light_template := [0], rampStepMs := some 0
        lut_flags := pmPwmLutNoTable, onMs := 0, offMs := 0 }
    | _ => { onMs, offMs }
  | .buttons =>
    { light_template := breathLedBrightnessButtons, lut_flags := pmPwmLutRampUp, onMs, offMs }

/-- What is written to the LED when it is programmed. A pause is written if it is
    positive. -/
structure Pattern where
  duty_pcts : List Nat
  ramp_step_ms : Option Nat
  pause_lo : Option Int
  pause_hi : Option Int
  lut_flags : Nat
deriving DecidableEq, Repr

/-- The text of a pause, if there is one. -/
def pause (ms : Int) : Option Int := if 0 < ms then some ms else none

def Settings.pattern (s : Settings) : Pattern where
  duty_pcts := s.light_template
  ramp_step_ms := s.rampStepMs
  pause_lo := pause s.offMs
  pause_hi := pause s.onMs
  lut_flags := s.lut_flags

/-! ## The light -/

/-- `Light` with the static variables. `led` is the pattern last programmed, or none while the LED
    was not programmed or after it was switched off. -/
structure Light where
  active_states : BitVec 32 := 0
  last_state : Option BreathSource := none
  initOnced : Bool := false
  led : Option Pattern := none
  red_led : Option Nat := none
  button_backlight : Option Nat := none
deriving DecidableEq

namespace Light

variable (l : Light)

/-- The source that is shown if a request is not ignored. -/
def choose (active_states : BitVec 32) : Option BreathSource :=
  if active_states &&& BreathSource.notification.code ≠ 0 then some .notification
  else if active_states &&& BreathSource.attention.code ≠ 0 then some .attention
  else if active_states &&& BreathSource.battery.code ≠ 0 then some .battery
  else if active_states &&& BreathSource.buttons.code ≠ 0 then some .buttons
  else none

/-- What is written the first time. -/
def initOnce : Light :=
  if l.initOnced then l
  else { l with initOnced := true, button_backlight := some 0, red_led := some 255 }

/-- The LED is programmed for a source. -/
def program (source : BreathSource) (times : Int × Int) (battery : BatteryStatus) : Light :=
  { l.initOnce with
    last_state := some source
    led := some (source.settings times battery).pattern }

/-- The part of `setSpeakerLightLocked` after the source was turned on or off. -/
def arbitrate (event_source : BreathSource) (times : Int × Int) (battery : BatteryStatus) : Light :=
  if stateCode l.last_state < event_source.code then l
  else
    match choose l.active_states with
    | none => { l with last_state := none }
    | some .buttons =>
      if l.last_state = some .buttons then l else l.program .buttons times battery
    | some source => l.program source times battery

/-- `setSpeakerLightLocked` -/
def setSpeakerLightLocked (event_source : BreathSource) (state : LightState)
    (files : BatteryFiles) : Light :=
  if 0 < rgbToBrightness state then
    { l with active_states := l.active_states ||| event_source.code }.arbitrate event_source
      state.times files.getBatteryStatus
  else
    let l := { l with active_states := l.active_states &&& ~~~event_source.code }
    if l.active_states = 0 then { l with led := none, last_state := none }
    else l.arbitrate event_source state.times files.getBatteryStatus

/-- `setNotificationLight`, `setBatteryLight`, `setButtonsBacklight` and `setAttentionLight`. The
    one for the buttons sets their own light as well. -/
def set (event_source : BreathSource) (state : LightState) (files : BatteryFiles) : Light :=
  let l' := l.setSpeakerLightLocked event_source state files
  if event_source = .buttons then
    { l' with button_backlight := some (if rgbToBrightness state ≠ 0 then 6 else 2) }
  else l'

end Light

/-- A request for one of the four lights, and what is read of the battery then. -/
structure LightRequest where
  source : BreathSource
  state : LightState
  files : BatteryFiles
deriving DecidableEq, Repr

def Light.request (l : Light) (r : LightRequest) : Light := l.set r.source r.state r.files

/-- All requests, from the start on. -/
def Light.run (rs : List LightRequest) : Light := rs.foldl Light.request {}

/-! ## What should be shown -/

/-- The latest request of each source. -/
def latest (rs : List LightRequest) : BreathSource → LightState :=
  rs.foldl (fun f r => update f r.source r.state) fun _ => {}

/-- A source is active if its latest request had brightness. -/
def isActive (f : BreathSource → LightState) (source : BreathSource) : Bool :=
  decide (0 < rgbToBrightness (f source))

/-- The active source of the highest priority. -/
def highest (active : BreathSource → Bool) : Option BreathSource :=
  [.notification, .attention, .battery, .buttons].find? active

/-- **A pattern is a source's own**: its template and flags, for the battery those of a status, and
    for notifications and attention with the times of the latest request. -/
def IsOwn (source : BreathSource) (state : LightState) (p : Pattern) : Prop :=
  match source with
  | .notification | .attention => p = (source.settings state.times .unknown).pattern
  | .battery => ∃ times status, p.duty_pcts = (source.settings times status).light_template ∧
      p.lut_flags = (source.settings times status).lut_flags
  | .buttons => p.duty_pcts = breathLedBrightnessButtons ∧ p.lut_flags = pmPwmLutRampUp

/-- **The light shows what it should**: the active source of the highest priority by its own
    pattern, or nothing. -/
structure Light.Shows (l : Light) (f : BreathSource → LightState) : Prop where
  last : l.last_state = highest (isActive f)
  led : match l.last_state with
    | none => l.led = none
    | some source => ∃ p, l.led = some p ∧ IsOwn source (f source) p

/-! ## When it does -/

/-- The pauses that are programmed for a request. -/
def LightState.pauses (state : LightState) : Option Int × Option Int :=
  (pause state.times.1, pause state.times.2)

/-- **The condition** on a request: attention is not turned on while the battery or the buttons are
    shown, and a request of another source that is not ignored and leaves attention the highest has
    the pauses of attention. -/
def Light.Fits (l : Light) (f : BreathSource → LightState) (r : LightRequest) : Prop :=
  (r.source = .attention → 0 < rgbToBrightness r.state →
    l.last_state ≠ some .battery ∧ l.last_state ≠ some .buttons) ∧
  (r.source ≠ .attention → r.source.code ≤ stateCode l.last_state →
    highest (isActive (update f r.source r.state)) = some .attention →
      r.state.pauses = (f .attention).pauses)

namespace Light

variable {l : Light} {f : BreathSource → LightState} {r : LightRequest}
  (active : BreathSource → Bool) {source : BreathSource} (rs : List LightRequest)

/-! ### The bits of the sources -/

/-- The bits of all active sources. -/
def mask (active : BreathSource → Bool) : BitVec 32 :=
  (if active .notification then BreathSource.notification.code else 0) |||
    (if active .battery then BreathSource.battery.code else 0) |||
    (if active .buttons then BreathSource.buttons.code else 0) |||
    (if active .attention then BreathSource.attention.code else 0)

theorem choose_mask : choose (mask active) = highest active := by
  unfold mask highest choose
  simp only [List.find?]
  cases active .notification <;> cases active .battery <;> cases active .buttons <;>
    cases active .attention <;> decide

theorem mask_eq_zero : mask active = 0 ↔ highest active = none := by
  unfold mask highest
  simp only [List.find?]
  cases active .notification <;> cases active .battery <;> cases active .buttons <;>
    cases active .attention <;> decide

theorem mask_or (source : BreathSource) :
    mask active ||| source.code = mask (update active source true) := by
  unfold mask
  cases source <;> simp only [update_apply, reduceCtorEq, ↓reduceIte] <;>
    cases active .notification <;> cases active .battery <;> cases active .buttons <;>
      cases active .attention <;> decide

theorem mask_and_not (source : BreathSource) :
    mask active &&& ~~~source.code = mask (update active source false) := by
  unfold mask
  cases source <;> simp only [update_apply, reduceCtorEq, ↓reduceIte] <;>
    cases active .notification <;> cases active .battery <;> cases active .buttons <;>
      cases active .attention <;> decide

/-! ### One request -/

theorem isActive_update (f : BreathSource → LightState) (source : BreathSource)
    (state : LightState) : isActive (update f source state) =
      update (isActive f) source (decide (0 < rgbToBrightness state)) := by
  funext source'
  unfold isActive
  by_cases h : source' = source
  · subst h
    rw [update_self, update_self]
  · rw [update_of_ne h, update_of_ne h]

/-- `active_states` are the bits of the active sources. -/
def Tracks (l : Light) (f : BreathSource → LightState) : Prop := l.active_states = mask (isActive f)

theorem Tracks.setSpeaker_eq (h : l.Tracks f) (r : LightRequest) :
    l.setSpeakerLightLocked r.source r.state r.files =
      let f' := update f r.source r.state
      let l' := { l with active_states := mask (isActive f') }
      if highest (isActive f') = none then { l' with led := none, last_state := none }
      else l'.arbitrate r.source r.state.times r.files.getBatteryStatus := by
  unfold setSpeakerLightLocked
  dsimp only
  rw [isActive_update]
  by_cases hon : 0 < rgbToBrightness r.state
  · rw [if_pos hon, h, mask_or, decide_eq_true hon, if_neg]
    unfold highest
    rw [List.find?_eq_none]
    intro hnone
    refine hnone r.source ?_ ?_
    · cases r.source <;> simp
    · rw [update_self]
  · rw [if_neg hon, h, mask_and_not, decide_eq_false hon]
    simp only [mask_eq_zero]

theorem arbitrate_active (l : Light) (source : BreathSource) (times : Int × Int)
    (battery : BatteryStatus) : (l.arbitrate source times battery).active_states =
      l.active_states := by
  have hprogram : ∀ s : BreathSource, (l.program s times battery).active_states =
      l.active_states := by
    intro s
    unfold program initOnce
    split <;> rfl
  unfold arbitrate
  split
  · rfl
  split
  · rfl
  · split
    · rfl
    · exact hprogram .buttons
  · exact hprogram _

theorem Tracks.request (h : l.Tracks f) (r : LightRequest) :
    (l.request r).Tracks (update f r.source r.state) := by
  have hset : (l.setSpeakerLightLocked r.source r.state r.files).Tracks
      (update f r.source r.state) := by
    rw [h.setSpeaker_eq r]
    dsimp only
    split
    · rfl
    · exact arbitrate_active ..
  unfold Light.request Light.set
  split
  · exact hset
  · exact hset

theorem highest_of_ignored {active : BreathSource → Bool} (on : Bool)
    (h : stateCode (highest active) < source.code) :
    highest active = highest (update active source on) ↔
      (source = .attention → on = true →
        highest active ≠ some .battery ∧ highest active ≠ some .buttons) := by
  revert h
  unfold highest
  simp only [List.find?, update_apply]
  cases active .notification <;> cases active .battery <;> cases active .buttons <;>
    cases active .attention <;> cases source <;> cases on <;> decide

theorem source_of_notification {active : BreathSource → Bool} {on : Bool}
    (h : ¬ stateCode (highest active) < source.code)
    (htop : highest (update active source on) = some .notification) : source = .notification := by
  revert h htop
  unfold highest
  simp only [List.find?, update_apply]
  cases active .notification <;> cases active .battery <;> cases active .buttons <;>
    cases active .attention <;> cases source <;> cases on <;> decide

theorem attention_pattern (times : Int × Int) (battery : BatteryStatus) :
    (BreathSource.attention.settings times battery).pattern =
      { duty_pcts := breathLedBrightnessNotification
        ramp_step_ms := if (pause times.1).isSome ∧ (pause times.2).isSome then some 20 else none
        pause_lo := pause times.2
        pause_hi := pause times.1
        lut_flags := if (pause times.1).isSome ∧ (pause times.2).isSome then blinkFlags
          else pmPwmLutRampUp } := by
  have hpause : ∀ ms, (pause ms).isSome = true ↔ 0 < ms := by
    intro ms
    unfold pause
    split <;> simp_all
  unfold BreathSource.settings
  simp only [hpause]
  split <;> rfl

theorem attention_pattern_eq_iff {state state' : LightState} {battery battery' : BatteryStatus} :
    (BreathSource.attention.settings state.times battery).pattern =
        (BreathSource.attention.settings state'.times battery').pattern ↔
      state.pauses = state'.pauses := by
  rw [attention_pattern, attention_pattern]
  constructor
  · intro h
    have hlo := congrArg Pattern.pause_lo h
    have hhi := congrArg Pattern.pause_hi h
    exact Prod.ext hhi hlo
  · intro h
    have hhi : pause state.times.1 = pause state'.times.1 := congrArg Prod.fst h
    have hlo : pause state.times.2 = pause state'.times.2 := congrArg Prod.snd h
    rw [hhi, hlo]

theorem program_shows {l' : Light} {times : Int × Int}
    {battery : BatteryStatus} (hlast : highest (isActive f) = some source) :
    (l'.program source times battery).Shows f ↔
      IsOwn source (f source) (source.settings times battery).pattern := by
  constructor
  · rintro ⟨-, p, hp, hown⟩
    rw [← Option.some.inj hp] at hown
    exact hown
  · exact fun hown => ⟨hlast.symm, _, rfl, hown⟩

/-- **Step lemma.** While the light shows what it should, a request keeps it so just if it meets the
    condition. -/
theorem Shows.request_iff (hshows : l.Shows f) (htracks : l.Tracks f) (r : LightRequest) :
    (l.request r).Shows (update f r.source r.state) ↔ l.Fits f r := by
  have hset : (l.request r).Shows (update f r.source r.state) ↔
      (l.setSpeakerLightLocked r.source r.state r.files).Shows
        (update f r.source r.state) := by
    unfold Light.request Light.set
    split
    · exact ⟨fun h => ⟨h.last, h.led⟩, fun h => ⟨h.last, h.led⟩⟩
    · exact Iff.rfl
  rw [hset, htracks.setSpeaker_eq r]
  unfold Fits
  have hlast := hshows.last
  generalize hf' : update f r.source r.state = f'
  have hactive : isActive f' = update (isActive f) r.source
      (decide (0 < rgbToBrightness r.state)) := by
    rw [← hf', isActive_update]
  have hother : ∀ source, source ≠ r.source → f' source = f source := by
    intro source hne
    rw [← hf', update_of_ne hne]
  have hself : f' r.source = r.state := by
    rw [← hf', update_self]
  dsimp only
  split
  · next hnone =>
    -- the last active source is turned off
    refine iff_of_true ⟨hnone.symm, rfl⟩ ⟨fun hsource hon => ?_, fun _ _ htop => ?_⟩
    · rw [hactive, decide_eq_true hon, hsource] at hnone
      unfold highest at hnone
      rw [List.find?_eq_none] at hnone
      exact absurd (update_self ..) (hnone .attention (by simp))
    · rw [hnone] at htop
      cases htop
  next hsome =>
  unfold arbitrate
  split
  · next hlt =>
    -- the request is ignored
    have hne : ∀ source, l.last_state = some source → source ≠ r.source := by
      rintro source hsource rfl
      rw [hsource] at hlt
      exact absurd hlt (by unfold stateCode; exact BitVec.lt_irrefl _)
    have hiff := highest_of_ignored (decide (0 < rgbToBrightness r.state))
      (hlast ▸ hlt : stateCode (highest (isActive f)) < r.source.code)
    rw [← hactive, ← hlast] at hiff
    constructor
    · intro h
      refine ⟨fun hsource hon => hiff.1 h.last hsource (decide_eq_true hon), fun _ hle _ => ?_⟩
      exact absurd hle (BitVec.not_le.2 hlt)
    · rintro ⟨hfirst, -⟩
      refine ⟨hiff.2 fun hsource hon => hfirst hsource (of_decide_eq_true hon), ?_⟩
      have hled := hshows.led
      cases hstate : l.last_state with
      | none =>
        rw [hstate] at hled
        exact hled
      | some source =>
        rw [hstate] at hled
        dsimp only at hled ⊢
        rw [hother source (hne source hstate)]
        exact hled
  next hnlt =>
  have hfirst : r.source = .attention → 0 < rgbToBrightness r.state →
      l.last_state ≠ some .battery ∧ l.last_state ≠ some .buttons := by
    intro hsource _
    rw [hsource] at hnlt
    constructor
    · intro hbattery
      rw [hbattery] at hnlt
      exact hnlt (by decide)
    · intro hbuttons
      rw [hbuttons] at hnlt
      exact hnlt (by decide)
  rw [and_iff_right hfirst, choose_mask]
  cases htop : highest (isActive f') with
  | none => exact absurd htop hsome
  | some source =>
    cases source with
    | notification =>
      have hsource : r.source = .notification := by
        rw [hlast] at hnlt
        rw [hactive] at htop
        exact source_of_notification hnlt htop
      rw [hsource] at hself
      refine iff_of_true ((program_shows htop).2 ?_) fun _ _ h => by cases h
      rw [hself]
      rfl
    | attention =>
      dsimp only
      rw [program_shows htop]
      change (BreathSource.attention.settings r.state.times _).pattern =
        (BreathSource.attention.settings (f' .attention).times _).pattern ↔ _
      rw [attention_pattern_eq_iff]
      by_cases hsource : r.source = .attention
      · rw [hsource] at hself
        rw [hself]
        exact iff_of_true rfl fun hne => absurd hsource hne
      · rw [hother .attention fun heq => hsource heq.symm]
        exact ⟨fun h _ _ _ => h, fun h => h hsource (BitVec.not_lt.1 hnlt) rfl⟩
    | battery =>
      dsimp only
      exact iff_of_true ((program_shows htop).2 ⟨_, _, rfl, rfl⟩) fun _ _ h => by cases h
    | buttons =>
      dsimp only
      refine iff_of_true ?_ fun _ _ h => by cases h
      split
      · next hbuttons =>
        refine ⟨hbuttons.trans htop.symm, ?_⟩
        have hled := hshows.led
        rw [hbuttons] at hled
        dsimp only
        rw [hbuttons]
        exact hled
      · exact (program_shows htop).2 ⟨rfl, rfl⟩

/-! ### Runs -/

theorem run_concat (r : LightRequest) : run (rs ++ [r]) = (run rs).request r := by
  unfold run
  rw [List.foldl_append]
  rfl

theorem latest_concat (r : LightRequest) :
    latest (rs ++ [r]) = update (latest rs) r.source r.state := by
  unfold latest
  rw [List.foldl_append]
  rfl

theorem run_tracks : (run rs).Tracks (latest rs) := by
  induction rs using List.reverseRecOn with
  | nil => rfl
  | append_singleton rs r ih =>
    rw [run_concat, latest_concat]
    exact ih.request r

/-- **Every run.** The light shows what it should in all states just if all requests meet the
    condition. -/
theorem run_shows_iff (rs : List LightRequest) :
    (∀ pre, pre <+: rs → (run pre).Shows (latest pre)) ↔
      ∀ pre r, pre ++ [r] <+: rs → (run pre).Fits (latest pre) r := by
  induction rs using List.reverseRecOn with
  | nil =>
    refine iff_of_true (fun pre hpre => ?_) fun pre r hpre => ?_
    · obtain rfl := List.prefix_nil.1 hpre
      exact ⟨rfl, rfl⟩
    · exact absurd (List.prefix_nil.1 hpre) (by simp)
  | append_singleton rs r ih =>
    constructor
    · intro h pre r' hpre
      have hshows := h pre ((List.prefix_append pre [r']).trans hpre)
      have hnext := h _ hpre
      rw [run_concat, latest_concat] at hnext
      exact (hshows.request_iff (run_tracks pre) r').1 hnext
    · intro h pre hpre
      have hall := ih.2 fun pre' r' hpre' => h pre' r' (hpre'.trans (List.prefix_append ..))
      rcases List.prefix_concat_iff.1 hpre with rfl | hpre
      · rw [run_concat, latest_concat]
        exact ((hall rs (List.prefix_refl _)).request_iff (run_tracks rs) r).2
          (h rs r (List.prefix_refl _))
      · exact hall pre hpre

/-- The battery is shown and attention is turned on: it is not shown. -/
theorem not_shows_attention :
    ¬ (run [⟨.battery, { color := 0xFFFFFF }, ⟨some true, some 50⟩⟩,
        ⟨.attention, { color := 0xFFFFFF }, ⟨some true, some 50⟩⟩]).Shows
      (latest [⟨.battery, { color := 0xFFFFFF }, ⟨some true, some 50⟩⟩,
        ⟨.attention, { color := 0xFFFFFF }, ⟨some true, some 50⟩⟩]) :=
  fun h => absurd h.last (by decide)

end Light

end Nx508j.LightHal
