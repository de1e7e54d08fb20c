import Mathlib.Data.List.Induction
import Nx508j.Loc.AidingData

/-! # Muted sessions

A request from the network with a privacy override mutes one session. From its begin to its end
neither positions nor satellites nor the status are reported; before and after it they are. -/

namespace Nx508j.Loc

open Nx508j.Lib

/-- `loc_sess_status` -/
inductive LocSessStatus where
  | LOC_SESS_SUCCESS
  | LOC_SESS_INTERMEDIATE
  | LOC_SESS_FAILURE
deriving DecidableEq, Repr

/-- A position of the engine, and whether its accuracy is known and exceeds `ACCURACY_THRES`. -/
structure PositionReport where
  mStatus : LocSessStatus
  mTechMask : UInt32
  inaccurate : Bool
deriving DecidableEq, Repr

namespace EngineStatus

variable {w : Nat} {s : EngineStatus w} {m : StatusMsg w} {l : List (StatusMsg w)}

/-- What `LocEngReportPosition::proc` calls `location_cb` with: NULL for a failure. -/
def reportPosition (s : EngineStatus w) (intermediateFix : UInt8) (r : PositionReport) :
    Option (Option PositionReport) :=
  if s.mute_session_state = .LOC_MUTE_SESS_IN_SESSION then none
  else if r.mStatus = .LOC_SESS_FAILURE then some none
  else if (r.mStatus = .LOC_SESS_SUCCESS ∧ (0x1 ||| 0x8 ||| 0x80) &&& r.mTechMask ≠ 0) ∨
      (intermediateFix = 1 ∧ r.inaccurate = false) then some (some r)
  else none

/-- Whether `LocEngReportSv::proc` calls `sv_status_cb`. -/
def reportSv (s : EngineStatus w) : Bool := s.mute_session_state ≠ .LOC_MUTE_SESS_IN_SESSION

/-- The session begins, or the engine goes on. -/
def Begins : StatusMsg w → Prop
  | .reportStatus status _ => status = .GPS_STATUS_SESSION_BEGIN ∨ status = .GPS_STATUS_ENGINE_ON
  | _ => False

/-- The session ends, or the engine goes off. -/
def Ends : StatusMsg w → Prop
  | .reportStatus status _ => status = .GPS_STATUS_SESSION_END ∨ status = .GPS_STATUS_ENGINE_OFF
  | .engineDown _ => True
  | _ => False

/-- After the last request to mute a session, none has begun. -/
def AwaitsMute (l : List (StatusMsg w)) : Prop :=
  ∃ before waiting, l = before ++ .muteOneSession :: waiting ∧ ∀ m ∈ waiting, ¬ Begins m

/-- A session has begun after a request to mute it, and has not ended. -/
def Muted (l : List (StatusMsg w)) : Prop :=
  ∃ before begins since, l = before ++ begins :: since ∧ AwaitsMute before ∧ Begins begins ∧
    ∀ m ∈ since, ¬ Ends m ∧ m ≠ .muteOneSession

theorem snoc_eq {before rest : List (StatusMsg w)} {x : StatusMsg w}
    (h : l ++ [m] = before ++ x :: rest) : (rest = [] ∧ before = l ∧ x = m) ∨
      ∃ rest', rest = rest' ++ [m] ∧ l = before ++ x :: rest' := by
  cases rest using List.reverseRecOn with
  | nil =>
    obtain ⟨rfl, hm⟩ := List.append_inj' h rfl
    exact .inl ⟨rfl, rfl, (List.singleton_inj.1 hm).symm⟩
  | append_singleton rest m' =>
    rw [← List.cons_append, ← List.append_assoc] at h
    obtain ⟨rfl, hm⟩ := List.append_inj' h rfl
    exact .inr ⟨rest, by rw [List.singleton_inj.1 hm], rfl⟩

theorem awaitsMute_snoc :
    AwaitsMute (l ++ [m]) ↔ m = .muteOneSession ∨ (AwaitsMute l ∧ ¬ Begins m) := by
  constructor
  · rintro ⟨before, waiting, heq, hwaiting⟩
    rcases snoc_eq heq with ⟨-, -, hm⟩ | ⟨waiting, rfl, hl⟩
    · exact .inl hm.symm
    · simp only [List.forall_mem_append, List.forall_mem_singleton] at hwaiting
      exact .inr ⟨⟨before, waiting, hl, hwaiting.1⟩, hwaiting.2⟩
  · rintro (rfl | ⟨⟨before, waiting, rfl, hwaiting⟩, hm⟩)
    · exact ⟨l, [], rfl, by simp⟩
    · exact ⟨before, waiting ++ [m], by simp,
        List.forall_mem_append.2 ⟨hwaiting, List.forall_mem_singleton.2 hm⟩⟩

theorem muted_snoc : Muted (l ++ [m]) ↔ (AwaitsMute l ∧ Begins m) ∨
    (Muted l ∧ ¬ Ends m ∧ m ≠ .muteOneSession) := by
  constructor
  · rintro ⟨before, begins, since, heq, hawaits, hbegins, hsince⟩
    rcases snoc_eq heq with ⟨-, rfl, rfl⟩ | ⟨since, rfl, hl⟩
    · exact .inl ⟨hawaits, hbegins⟩
    · simp only [List.forall_mem_append, List.forall_mem_singleton] at hsince
      exact .inr ⟨⟨before, begins, since, hl, hawaits, hbegins, hsince.1⟩, hsince.2⟩
  · rintro (⟨hawaits, hbegins⟩ | ⟨⟨before, begins, since, rfl, hawaits, hbegins, hsince⟩, hm⟩)
    · exact ⟨l, m, [], rfl, hawaits, hbegins, by simp⟩
    · exact ⟨before, begins, since ++ [m], by simp, hawaits, hbegins,
        List.forall_mem_append.2 ⟨hsince, List.forall_mem_singleton.2 hm⟩⟩

theorem update_mute (s : EngineStatus w) :
    s.update_aiding_data_for_deletion.1.mute_session_state = s.mute_session_state := by
  rcases s.update_cases with h | ⟨-, h⟩ <;> rw [h]

theorem proc_mute (s : EngineStatus w) (m : StatusMsg w) :
    ((s.proc m).1.mute_session_state = .LOC_MUTE_SESS_WAIT ↔
      m = .muteOneSession ∨ (s.mute_session_state = .LOC_MUTE_SESS_WAIT ∧ ¬ Begins m)) ∧
    ((s.proc m).1.mute_session_state = .LOC_MUTE_SESS_IN_SESSION ↔
      (s.mute_session_state = .LOC_MUTE_SESS_WAIT ∧ Begins m) ∨
        (s.mute_session_state = .LOC_MUTE_SESS_IN_SESSION ∧ ¬ Ends m ∧ m ≠ .muteOneSession)) := by
  cases m with
  | delAidData mType => simp [proc, update_mute, Begins, Ends]
  | muteOneSession => simp [proc, Begins, Ends]
  | engineDown isInSession =>
    cases h : s.mute_session_state <;> simp [proc, loc_eng_report_status, Begins, Ends, h]
  | reportStatus status isInSession =>
    cases h : s.mute_session_state <;> cases status <;>
      simp [proc, update_mute, loc_eng_report_status, Begins, Ends, h]

/-- **One session is muted.** In every run, satellites are reported unless a session is muted, and
    while one is, nothing is: no satellites, no position, and no status until its end. -/
theorem run_muted {tr : List (StatusMsg w × StatusEffects w)}
    (run : Run step (fun _ _ => True) {} tr s) :
    (s.reportSv = false ↔ Muted (tr.map Prod.fst)) ∧ (Muted (tr.map Prod.fst) →
      (∀ intermediateFix r, s.reportPosition intermediateFix r = none) ∧
        ∀ m, ¬ Ends m → (s.proc m).2.informed = none) := by
  have hstate : (s.mute_session_state = .LOC_MUTE_SESS_WAIT ↔ AwaitsMute (tr.map Prod.fst)) ∧
      (s.mute_session_state = .LOC_MUTE_SESS_IN_SESSION ↔ Muted (tr.map Prod.fst)) := by
    refine run.invariant (fun tr s =>
      (s.mute_session_state = .LOC_MUTE_SESS_WAIT ↔ AwaitsMute (tr.map Prod.fst)) ∧
        (s.mute_session_state = .LOC_MUTE_SESS_IN_SESSION ↔ Muted (tr.map Prod.fst))) ?_ ?_
    · simp [AwaitsMute, Muted]
    · rintro tr s m s' r ⟨hwait, hmuted⟩ - hstep
      obtain ⟨rfl, -⟩ := ok_pair hstep
      rw [List.map_append, List.map_singleton, awaitsMute_snoc, muted_snoc, ← hwait, ← hmuted]
      exact s.proc_mute m
  refine ⟨?_, fun hmuted => ⟨fun intermediateFix r => ?_, fun m hends => ?_⟩⟩
  · rw [← hstate.2]
    simp [reportSv]
  · exact if_pos (hstate.2.2 hmuted)
  · have hin := hstate.2.2 hmuted
    cases m with
    | delAidData mType | muteOneSession => rfl
    | engineDown isInSession => exact absurd trivial hends
    | reportStatus status isInSession =>
      cases status <;> simp_all [proc, loc_eng_report_status, Ends]

/-- A request mutes the session that begins next. -/
theorem run_muted_session : ∃ tr s, Run step (fun _ _ => True) ({} : EngineStatus 1) tr s ∧
    tr.map Prod.fst = [.muteOneSession, .reportStatus .GPS_STATUS_SESSION_BEGIN true] ∧
      s.reportSv = false ∧ Muted (tr.map Prod.fst) := by
  obtain ⟨s, tr, hexec, hcalls, hsv⟩ : ∃ s tr, exec step ({} : EngineStatus 1)
      [.muteOneSession, .reportStatus .GPS_STATUS_SESSION_BEGIN true] = .ok (s, tr) ∧
        tr.map Prod.fst = [.muteOneSession, .reportStatus .GPS_STATUS_SESSION_BEGIN true] ∧
          s.reportSv = false := ⟨_, _, rfl, rfl, rfl⟩
  have run := Run.of_exec (C := fun _ => True) hexec (by simp)
  exact ⟨tr, s, run, hcalls, hsv, (run_muted run).1.1 hsv⟩

end EngineStatus

end Nx508j.Loc
