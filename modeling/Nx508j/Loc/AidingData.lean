import Nx508j.Lib.Memory

/-! # Deletion of aiding data

The mask of the aiding data to be deleted waits in `aiding_data_for_deletion` while the engine is
on, and is handed to the adapter by the first message that finds the engine not on. A second request
that comes before replaces the mask, with whatever the first one asked for. -/

namespace Nx508j.Loc

open Nx508j.Lib

/-- `GpsStatusValue` -/
inductive GpsStatusValue where
  | GPS_STATUS_NONE
  | GPS_STATUS_SESSION_BEGIN
  | GPS_STATUS_SESSION_END
  | GPS_STATUS_ENGINE_ON
  | GPS_STATUS_ENGINE_OFF
deriving DecidableEq, Repr

/-- `loc_mute_session_e_type` -/
inductive MuteSession where
  | LOC_MUTE_SESS_NONE
  | LOC_MUTE_SESS_WAIT
  | LOC_MUTE_SESS_IN_SESSION
deriving DecidableEq, Repr

/-- The part of `loc_eng_data_s_type` about the status of the engine, with masks of `w` bits. -/
structure EngineStatus (w : Nat) where
  engine_status : GpsStatusValue := .GPS_STATUS_NONE
  fix_session_status : GpsStatusValue := .GPS_STATUS_NONE
  mute_session_state : MuteSession := .LOC_MUTE_SESS_NONE
  aiding_data_for_deletion : BitVec w := 0
deriving DecidableEq, Repr

/-- What a message does outside: the status it informs of, and the mask it hands to
    `deleteAidingData` with the status of the engine at that time. -/
structure StatusEffects (w : Nat) where
  informed : Option GpsStatusValue := none
  deleted : Option (BitVec w × GpsStatusValue) := none
deriving DecidableEq, Repr

/-- The messages about the status, with `isInSession` as the adapter answers it. -/
inductive StatusMsg (w : Nat) where
  | delAidData (mType : BitVec w)
  | reportStatus (mStatus : GpsStatusValue) (isInSession : Bool)
  | engineDown (isInSession : Bool)
  | muteOneSession
deriving DecidableEq, Repr

namespace EngineStatus

variable {w : Nat}

def update_aiding_data_for_deletion (s : EngineStatus w) :
    EngineStatus w × Option (BitVec w × GpsStatusValue) :=
  if s.engine_status ≠ .GPS_STATUS_ENGINE_ON ∧ s.aiding_data_for_deletion ≠ 0 then
    ({ s with aiding_data_for_deletion := 0 }, some (s.aiding_data_for_deletion, s.engine_status))
  else (s, none)

/-- `loc_eng_report_status`, with the status it informs of. -/
def loc_eng_report_status (s : EngineStatus w) (status : GpsStatusValue) (isInSession : Bool) :
    EngineStatus w × Option GpsStatusValue :=
  let s :=
    if (status = .GPS_STATUS_SESSION_BEGIN ∨ status = .GPS_STATUS_ENGINE_ON) ∧
        s.mute_session_state = .LOC_MUTE_SESS_WAIT then
      { s with mute_session_state := .LOC_MUTE_SESS_IN_SESSION }
    else s
  let s :=
    if s.mute_session_state = .LOC_MUTE_SESS_IN_SESSION ∧
        (status = .GPS_STATUS_SESSION_END ∨ status = .GPS_STATUS_ENGINE_OFF) then
      { s with mute_session_state := .LOC_MUTE_SESS_NONE }
    else s
  let informed :=
    if status ≠ .GPS_STATUS_NONE ∧ ¬ (status = .GPS_STATUS_SESSION_END ∧ isInSession = true) ∧
        ¬ (status = .GPS_STATUS_SESSION_BEGIN ∧ isInSession = false) ∧
        s.mute_session_state ≠ .LOC_MUTE_SESS_IN_SESSION then
      some status
    else none
  let s :=
    if status = .GPS_STATUS_ENGINE_ON ∨ status = .GPS_STATUS_ENGINE_OFF then
      { s with engine_status := status }
    else s
  let s :=
    if status = .GPS_STATUS_SESSION_BEGIN ∨ status = .GPS_STATUS_SESSION_END then
      { s with fix_session_status := status }
    else s
  (s, informed)

/-- The `proc` of each message. -/
def proc (s : EngineStatus w) : StatusMsg w → EngineStatus w × StatusEffects w
  | .delAidData mType =>
    let (s, deleted) :=
      update_aiding_data_for_deletion { s with aiding_data_for_deletion := mType }
    (s, { deleted := deleted })
  | .reportStatus mStatus isInSession =>
    let (s, informed) := s.loc_eng_report_status mStatus isInSession
    let (s, deleted) := s.update_aiding_data_for_deletion
    (s, { informed := informed, deleted := deleted })
  | .engineDown isInSession =>
    let (s, informed) := s.loc_eng_report_status .GPS_STATUS_ENGINE_OFF isInSession
    (s, { informed := informed })
  | .muteOneSession => ({ s with mute_session_state := .LOC_MUTE_SESS_WAIT }, {})

def step (s : EngineStatus w) (m : StatusMsg w) :
    Except Fault (EngineStatus w × StatusEffects w) :=
  .ok (s.proc m)

/-! ## What was requested and not handed on since -/

/-- The mask a message asks to delete. -/
def requested : StatusMsg w → BitVec w
  | .delAidData mType => mType
  | _ => 0

/-- The mask that the adapter gets, if it gets one. -/
def handed (r : StatusEffects w) : BitVec w := (r.deleted.map Prod.fst).getD 0

/-- Of what was requested, what was not handed to the adapter since. -/
def owed (tr : List (StatusMsg w × StatusEffects w)) : BitVec w :=
  tr.foldl (fun owed x => (owed ||| requested x.1) &&& ~~~ handed x.2) 0

/-- A request asks again for all that waits. -/
def Renews (s : EngineStatus w) : StatusMsg w → Prop
  | .delAidData mType => s.aiding_data_for_deletion ||| mType = mType
  | _ => True

instance decidableRenews (s : EngineStatus w) : (m : StatusMsg w) → Decidable (s.Renews m)
  | .delAidData mType => decEq (s.aiding_data_for_deletion ||| mType) mType
  | .reportStatus _ _ | .engineDown _ | .muteOneSession => .isTrue trivial

/-- What is owed waits for deletion. -/
def Kept (tr : List (StatusMsg w × StatusEffects w)) (s : EngineStatus w) : Prop :=
  ∀ b, (owed tr).getLsbD b = true → s.aiding_data_for_deletion.getLsbD b = true

variable {s : EngineStatus w} {m : StatusMsg w} {tr : List (StatusMsg w × StatusEffects w)}

theorem owed_snoc (tr : List (StatusMsg w × StatusEffects w)) (x : StatusMsg w × StatusEffects w) :
    owed (tr ++ [x]) = (owed tr ||| requested x.1) &&& ~~~ handed x.2 := by
  simp [owed]

theorem update_cases (s : EngineStatus w) :
    s.update_aiding_data_for_deletion = (s, none) ∨
      s.engine_status ≠ .GPS_STATUS_ENGINE_ON ∧
      s.update_aiding_data_for_deletion =
        ({ s with aiding_data_for_deletion := 0 },
          some (s.aiding_data_for_deletion, s.engine_status)) := by
  unfold update_aiding_data_for_deletion
  split
  · next h => exact .inr ⟨h.1, rfl⟩
  · exact .inl rfl

theorem report_aiding (s : EngineStatus w) (status : GpsStatusValue) (isInSession : Bool) :
    (s.loc_eng_report_status status isInSession).1.aiding_data_for_deletion =
      s.aiding_data_for_deletion := by
  simp only [loc_eng_report_status]
  grind

theorem proc_aiding (s : EngineStatus w) (m : StatusMsg w) :
    ∃ mask, (∀ mType, m = .delAidData mType → mask = mType) ∧
      ((∀ mType, m ≠ .delAidData mType) → mask = s.aiding_data_for_deletion) ∧
      ((s.proc m).1.aiding_data_for_deletion = mask ∧ (s.proc m).2.deleted = none ∨
        ∃ status, status ≠ .GPS_STATUS_ENGINE_ON ∧ (s.proc m).1.aiding_data_for_deletion = 0 ∧
          (s.proc m).2.deleted = some (mask, status)) := by
  cases m with
  | delAidData mType =>
    refine ⟨mType, fun _ h => StatusMsg.delAidData.inj h, fun h => absurd rfl (h mType), ?_⟩
    rcases update_cases { s with aiding_data_for_deletion := mType } with h | ⟨hon, h⟩
    · exact .inl (by simp [proc, h])
    · exact .inr ⟨_, hon, by simp [proc, h]⟩
  | reportStatus mStatus isInSession =>
    refine ⟨s.aiding_data_for_deletion, by simp, fun _ => rfl, ?_⟩
    have hkeep := report_aiding s mStatus isInSession
    rcases update_cases (s.loc_eng_report_status mStatus isInSession).1 with h | ⟨hon, h⟩
    · exact .inl (by simp [proc, h, hkeep])
    · exact .inr ⟨_, hon, by simp [proc, h, hkeep]⟩
  | engineDown isInSession =>
    exact ⟨s.aiding_data_for_deletion, by simp, fun _ => rfl,
      .inl ⟨report_aiding s _ isInSession, rfl⟩⟩
  | muteOneSession => exact ⟨s.aiding_data_for_deletion, by simp, fun _ => rfl, .inl ⟨rfl, rfl⟩⟩

theorem owed_or_requested {mask : BitVec w} (howed : owed tr = s.aiding_data_for_deletion)
    (hrenews : s.Renews m) (hdel : ∀ mType, m = .delAidData mType → mask = mType)
    (hother : (∀ mType, m ≠ .delAidData mType) → mask = s.aiding_data_for_deletion) :
    owed tr ||| requested m = mask := by
  rw [howed]
  cases m with
  | delAidData mType =>
    rw [hdel mType rfl]
    exact hrenews
  | reportStatus mStatus isInSession | engineDown isInSession
  | muteOneSession => simp [requested, hother]

/-- **Step.** What is owed is what waits, after a request that renews it and after every report. -/
theorem owed_step (howed : owed tr = s.aiding_data_for_deletion) (hrenews : s.Renews m) :
    owed (tr ++ [(m, (s.proc m).2)]) = (s.proc m).1.aiding_data_for_deletion := by
  obtain ⟨mask, hdel, hother, hproc⟩ := s.proc_aiding m
  rw [owed_snoc, owed_or_requested howed hrenews hdel hother]
  rcases hproc with ⟨hkept, hnone⟩ | ⟨status, -, hzero, hsome⟩
  · simp [handed, hnone, hkept]
  · rw [hzero]
    simp [handed, hsome]

theorem not_kept_of_not_renews (howed : owed tr = s.aiding_data_for_deletion)
    (hrenews : ¬ s.Renews m) : ¬ Kept (tr ++ [(m, (s.proc m).2)]) (s.proc m).1 := by
  cases m with
  | delAidData mType =>
    -- a bit that waits and is not asked for again
    obtain ⟨b, hw, hwaits, hlost⟩ : ∃ b, b < w ∧
        s.aiding_data_for_deletion.getLsbD b = true ∧ mType.getLsbD b = false := by
      by_contra hnone
      refine hrenews (BitVec.eq_of_getLsbD_eq fun b hb => ?_)
      rw [BitVec.getLsbD_or]
      cases hp : s.aiding_data_for_deletion.getLsbD b with
      | false => rfl
      | true => simpa using fun hf => hnone ⟨b, hb, hp, hf⟩
    intro hkept
    obtain ⟨mask, hdel, -, hproc⟩ := s.proc_aiding (.delAidData mType)
    obtain rfl := hdel mType rfl
    have hbit := hkept b
    rw [owed_snoc, howed] at hbit
    rcases hproc with ⟨hmask, hnone⟩ | ⟨status, -, hzero, hsome⟩
    · simp only [hmask, handed, hnone, Option.map_none, Option.getD_none, BitVec.getLsbD_and,
        BitVec.getLsbD_or, BitVec.getLsbD_not, hwaits, hlost, hw] at hbit
      simp at hbit
    · simp only [hzero, handed, hsome, Option.map_some, Option.getD_some, BitVec.getLsbD_and,
        BitVec.getLsbD_or, BitVec.getLsbD_not, hwaits, hlost, hw] at hbit
      simp at hbit
  | reportStatus mStatus isInSession | engineDown isInSession
  | muteOneSession => exact absurd trivial hrenews

/-- Every run whose requests renew what waits hands all that was requested to the adapter or keeps
    it, and a request that does not renew it ends this. Nothing is deleted while the engine is on.
    -/
theorem run_aiding_data (run : Run step Renews {} tr s) :
    Kept tr s ∧ (∀ x ∈ tr, ∀ d ∈ x.2.deleted, d.2 ≠ .GPS_STATUS_ENGINE_ON) ∧
      ∀ m, ¬ s.Renews m → ¬ Kept (tr ++ [(m, (s.proc m).2)]) (s.proc m).1 := by
  have howed : owed tr = s.aiding_data_for_deletion := by
    refine run.invariant (fun tr s => owed tr = s.aiding_data_for_deletion) rfl ?_
    rintro tr s m s' r howed hrenews hstep
    obtain ⟨rfl, rfl⟩ := ok_pair hstep
    exact owed_step howed hrenews
  have hoff : ∀ x ∈ tr, ∀ d ∈ x.2.deleted, d.2 ≠ GpsStatusValue.GPS_STATUS_ENGINE_ON := by
    refine run.invariant
      (fun tr _ => ∀ x ∈ tr, ∀ d ∈ x.2.deleted, d.2 ≠ GpsStatusValue.GPS_STATUS_ENGINE_ON)
      (fun x hx => by cases hx) ?_
    rintro tr s m s' r hall - hstep x hx d hd
    rcases List.mem_append.1 hx with hx | hx
    · exact hall x hx d hd
    obtain rfl := List.mem_singleton.1 hx
    obtain ⟨rfl, rfl⟩ := ok_pair hstep
    have hd : (s.proc m).2.deleted = some d := hd
    obtain ⟨mask, -, -, ⟨-, hnone⟩ | ⟨status, hon, -, hsome⟩⟩ := s.proc_aiding m
    · rw [hnone] at hd
      cases hd
    · cases hsome.symm.trans hd
      exact hon
  refine ⟨fun b hb => howed ▸ hb, hoff, fun m hm => not_kept_of_not_renews howed hm⟩

/-- Two requests while the engine is on, the second with all of the first. -/
def renewed : List (StatusMsg 16) :=
  [.reportStatus .GPS_STATUS_ENGINE_ON true, .delAidData 0x0001, .delAidData 0x0401,
    .reportStatus .GPS_STATUS_ENGINE_OFF true]

/-- Two requests while the engine is on, for different data. -/
def replaced : List (StatusMsg 16) :=
  [.reportStatus .GPS_STATUS_ENGINE_ON true, .delAidData 0x0001, .delAidData 0x0400]

theorem run_aiding_data_renewed :
    ∃ (tr : List (StatusMsg 16 × StatusEffects 16)) (s : EngineStatus 16),
      (s.aiding_data_for_deletion = 0 ∧ tr.map Prod.fst = renewed) ∧ Kept tr s ∧
      (∀ x ∈ tr, ∀ d ∈ x.2.deleted, d.2 ≠ .GPS_STATUS_ENGINE_ON) ∧
      ∀ m, ¬ s.Renews m → ¬ Kept (tr ++ [(m, (s.proc m).2)]) (s.proc m).1 := by
  obtain ⟨tr, s, run, hcalls, hs⟩ := Run.exists_of_allMeet (C := Renews)
    (g := fun s : EngineStatus 16 => s.aiding_data_for_deletion)
    (show (exec step {} renewed).toOption.map (fun x => x.1.aiding_data_for_deletion) = some 0
      by decide +kernel) (by decide +kernel)
  exact ⟨tr, s, ⟨hs, hcalls⟩, run_aiding_data run⟩

/-- The first request is neither handed to the adapter nor kept. -/
theorem run_aiding_data_replaced :
    ∃ (tr : List (StatusMsg 16 × StatusEffects 16)) (s : EngineStatus 16),
      Run step (fun _ _ => True) {} tr s ∧ tr.map Prod.fst = replaced ∧ ¬ Kept tr s := by
  refine ⟨_, _, Run.snoc (Run.snoc (Run.snoc .nil rfl trivial) rfl trivial) rfl trivial, rfl, ?_⟩
  intro hkept
  have hbit := hkept 0 (by decide +kernel)
  revert hbit
  decide +kernel

end EngineStatus

end Nx508j.Loc
