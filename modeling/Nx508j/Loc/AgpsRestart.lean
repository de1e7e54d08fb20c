import Nx508j.Loc.AgpsInStep
import Nx508j.Loc.LocEng

/-! # Restarts of the modem

When the modem is back up the engine empties the lists of two machines from outside and leaves their
states as they are. A machine that has or wants its connection is then left without a subscriber. -/

namespace Nx508j.Loc

open Nx508j.Lib

namespace AgpsStateMachine

variable (w : StrayMemory) {m m' : AgpsStateMachine}

theorem flush_eq (ps : List Nat) (m : AgpsStateMachine) :
    ps.foldl (fun m p => { m with mSubscribers := m.mSubscribers.tail }.delete p) m =
      { m with
        mSubscribers := m.mSubscribers.drop ps.length
        heap := fun q => if q ∈ ps then none else m.heap q } := by
  induction ps generalizing m with
  | nil => simp
  | cons p ps ih =>
    rw [List.foldl_cons, ih]
    simp only [delete, List.length_cons, List.drop_tail, List.mem_cons]
    congr 1
    funext q
    by_cases hq : q ∈ ps
    · simp [hq]
    · by_cases hqp : q = p <;> simp [hq, hqp]

theorem dropAllSubscribers_eq (m : AgpsStateMachine) :
    m.dropAllSubscribers =
      { m with
        mSubscribers := []
        heap := fun q => if q ∈ m.mSubscribers then none else m.heap q } := by
  unfold dropAllSubscribers
  rw [flush_eq, List.drop_length]

/-- The connection is requested or there. -/
def Busy (m : AgpsStateMachine) : Prop := m.mStatePtr = .pending ∨ m.mStatePtr = .acquired

instance (m : AgpsStateMachine) : Decidable m.Busy := inferInstanceAs (Decidable (_ ∨ _))

instance (m : AgpsStateMachine) : Decidable (m.Active w) :=
  inferInstanceAs (Decidable (∃ p ∈ m.mSubscribers, _))

theorem Holding.dropAllSubscribers (h : m.Holding w) (hidle : ¬ m.Busy) :
    m.dropAllSubscribers.Holding w := by
  rw [dropAllSubscribers_eq]
  refine ⟨⟨List.nodup_nil, by simp, fun p hp => ?_⟩, fun _ p hp => absurd hp (by simp),
    fun hs => absurd hs hidle⟩
  show (if p ∈ m.mSubscribers then none else m.heap p) = none
  rw [h.heaped.fresh p hp]
  exact ite_self none

theorem holding_of_nil (hnil : m.mSubscribers = []) (hfresh : m.heap = fun _ => none)
    (hs : m.mStatePtr = .released) : m.Holding w where
  heaped := ⟨hnil ▸ List.nodup_nil, by simp [hnil], fun p _ => by rw [hfresh]⟩
  idle _ p hp := absurd (hnil ▸ hp) (by simp)
  holds h := absurd h (by simp [hs])

theorem Holding.step (h : m.Holding w) {c : AgpsCall} {r : AgpsReply}
    (hstep : m.step w c = .ok (m', r)) : m'.Holding w := by
  obtain ⟨rfl, -⟩ := step_ok w hstep
  exact (h.quiet w).handle w c

end AgpsStateMachine

namespace LocEng

open AgpsStateMachine (strayZero)

variable (w : StrayMemory) (conf : GpsConf) {e e' : LocEng} {acts : List Act}

theorem nif_set (n n' : Nif) (m : AgpsStateMachine) (e : LocEng) :
    (e.set n m).nif n' = if n' = n then some m else e.nif n' :=
  Function.update_apply ..

/-- Every machine of the engine holds its connection for somebody. -/
def AllHolding (e : LocEng) : Prop := ∀ n m, e.nif n = some m → m.Holding w

theorem AllHolding.set (h : e.AllHolding w) {m : AgpsStateMachine} (hm : m.Holding w) (n : Nif) :
    (e.set n m).AllHolding w := by
  intro n' m' hm'
  rw [nif_set] at hm'
  split at hm'
  · obtain rfl : m = m' := by simpa using hm'
    exact hm
  · exact h n' m' hm'

theorem AllHolding.create (h : e.AllHolding w) {m : AgpsStateMachine} (hm : m.Holding w)
    (n : Nif) : (e.create n m).AllHolding w := by
  unfold LocEng.create
  split
  · exact h.set w hm n
  · exact h

theorem AllHolding.createAgnssNifs (h : e.AllHolding w) (answers : LocEngAnswers) :
    (e.createAgnssNifs conf answers).AllHolding w := by
  unfold LocEng.createAgnssNifs
  split
  · have h' := (h.create w (AgpsStateMachine.holding_of_nil w
      (m := .init agpsTypeWwanAny false) rfl rfl rfl) .internet_nif).create w
      (AgpsStateMachine.holding_of_nil w (m := .init agpsTypeSupl false) rfl rfl rfl) .agnss_nif
    simp only
    split
    · exact h'.create w (AgpsStateMachine.holding_of_nil w (m := .initDS) rfl rfl rfl) .ds_nif
    · exact h'
  · exact h

theorem AllHolding.getAgpsStateMachine (h : e.AllHolding w) (answers : LocEngAnswers)
    (agpsType : Int) : (e.getAgpsStateMachine conf answers agpsType).1.AllHolding w := by
  unfold LocEng.getAgpsStateMachine
  split
  · exact h
  split
  · exact h
  split
  · split
    · simp only
      split
      · exact h.createAgnssNifs w conf answers
      · exact h
    · exact h
  · exact h

theorem AllHolding.call (h : e.AllHolding w) {n : Nif} {c : AgpsCall}
    (hcall : e.call w n c = .ok (e', acts)) : e'.AllHolding w := by
  unfold LocEng.call at hcall
  split at hcall
  · cases hcall
  · next m hm =>
    obtain ⟨⟨m', r⟩, hstep, hcall⟩ := bind_eq_ok hcall
    cases hcall
    exact h.set w ((h n m hm).step w hstep) n

theorem AllHolding.calls (h : e.AllHolding w) {n : Nif} {cs : List AgpsCall}
    (hcalls : e.calls w n cs = .ok (e', acts)) : e'.AllHolding w := by
  induction cs generalizing e acts with
  | nil =>
    cases hcalls
    exact h
  | cons c cs ih =>
    obtain ⟨⟨e₁, acts₁⟩, hcall, hcalls⟩ := bind_eq_ok hcalls
    obtain ⟨⟨e₂, acts₂⟩, hrest, hcalls⟩ := bind_eq_ok hcalls
    cases hcalls
    exact ih (h.call w hcall) hrest

theorem AllHolding.releaseFrom (h : e.AllHolding w) {mID : UInt32}
    {ns : List (Nif × SubscriberClass)} (hrel : e.releaseFrom w mID ns = .ok (e', acts)) :
    e'.AllHolding w := by
  induction ns with
  | nil =>
    cases hrel
    exact h
  | cons x ns ih =>
    obtain ⟨n, cls⟩ := x
    unfold LocEng.releaseFrom at hrel
    split at hrel
    · exact ih hrel
    · next m hm =>
      obtain ⟨⟨m', r⟩, hstep, hrel⟩ := bind_eq_ok hrel
      simp only at hrel
      split at hrel
      · cases hrel
        exact h.set w ((h n m hm).step w hstep) n
      · exact ih hrel

/-- The connection of the machine `n` is requested or there. -/
def BusyAt (n : Nif) (e : LocEng) : Prop := ∃ m, e.nif n = some m ∧ m.Busy

/-- The condition on a message: when the modem is back up and the lists are emptied, neither of the
    two machines has or wants its connection. -/
def RestartsIdle (e : LocEng) : LocEngMsg → Prop
  | .up => e.agps_status_cb = true → ¬ e.BusyAt .agnss_nif ∧ ¬ e.BusyAt .internet_nif
  | _ => True

theorem AllHolding.dropAll (h : e.AllHolding w) {n : Nif} (hidle : ¬ e.BusyAt n) :
    (e.dropAll n).AllHolding w := by
  unfold LocEng.dropAll
  split
  · exact h
  · next m hm =>
    exact h.set w ((h n m hm).dropAllSubscribers w fun hbusy => hidle ⟨m, hm, hbusy⟩) n

theorem busyAt_dropAll {n n' : Nif} (hne : n' ≠ n) : (e.dropAll n).BusyAt n' ↔ e.BusyAt n' := by
  unfold BusyAt LocEng.dropAll
  split
  · rfl
  · rw [nif_set, if_neg hne]

/-- **One message.** -/
theorem AllHolding.proc (h : e.AllHolding w) {msg : LocEngMsg} {answers : LocEngAnswers}
    (hidle : e.RestartsIdle msg) (hproc : e.proc w conf msg answers = .ok (e', acts)) :
    e'.AllHolding w := by
  have hget := h.getAgpsStateMachine w conf answers
  -- a message that is not for a machine leaves them as they are
  have hstay : ∀ {acts'}, Except.ok (e, acts') = (Except.ok (e', acts) : Except Fault _) →
      e'.AllHolding w := by
    intro acts' heq
    cases heq
    exact h
  unfold LocEng.proc at hproc
  cases msg with
  | agpsInit =>
    obtain ⟨rfl, -⟩ : { e with agps_status_cb := true } = e' ∧ [] = acts := by simpa using hproc
    exact h
  | agnssNifInit =>
    cases hproc
    exact h.createAgnssNifs w conf answers
  | reqRelBIT mType mIPv4Addr mIPv6Addr mIsReq => exact (hget mType).call w hproc
  | suplEsOpened | suplEsClosed =>
    simp only at hproc
    split at hproc
    · exact h.call w hproc
    · exact hstay hproc
  | requestSuplEs mID =>
    simp only at hproc
    split at hproc
    · exact h.call w hproc
    split at hproc
    · exact h.call w hproc
    · exact hstay hproc
  | requestATL mID mType =>
    simp only at hproc
    split at hproc
    · exact (hget mType).call w hproc
    · cases hproc
      exact hget mType
  | releaseATL mID => exact h.releaseFrom w hproc
  | reqRelWifi mType mSenderId mSSID mPassword mIsReq =>
    simp only at hproc
    split at hproc
    · exact h.call w hproc
    · exact hstay hproc
  | atlOpenSuccess mAgpsType mAPN mBearerType => exact (hget mAgpsType).calls w hproc
  | atlClosed mAgpsType | atlOpenFailed mAgpsType => exact (hget mAgpsType).call w hproc
  | delayCallback =>
    simp only at hproc
    split at hproc
    · exact h.call w hproc
    · exact hstay hproc
  | down => exact hstay hproc
  | up =>
    cases hproc
    unfold handleEngineUp
    split
    · next hcb =>
      obtain ⟨hagnss, hinternet⟩ := hidle hcb
      exact (h.dropAll w hagnss).dropAll w (by rwa [busyAt_dropAll (by simp)])
    · exact h

/-- **Runs in which the modem comes back up only while the two connections are not in use.** A machine
    that has or wants its connection has an active subscriber. -/
theorem run_connectionHeld {tr : List ((LocEngMsg × LocEngAnswers) × List Act)}
    (run : Run (step w conf) (fun e c => e.RestartsIdle c.1) {} tr e) :
    ∀ n m, e.nif n = some m → m.mStatePtr = .pending ∨ m.mStatePtr = .acquired → m.Active w := by
  have hinv : e.AllHolding w := by
    refine run.invariant (fun _ e => e.AllHolding w) ?_ ?_
    · exact fun n m hm => absurd hm (by simp)
    · exact fun _ e c e' acts h hidle hstep => h.proc w conf hidle hstep
  exact fun n m hm hs => (hinv n m hm).holds hs

/-- A configuration with an emergency connection. -/
def confAll : GpsConf := ⟨true, true, true⟩

/-- An ATL client gets the connection, the modem restarts after the client has left, and another one
    comes. -/
def restartMsgs : List (LocEngMsg × LocEngAnswers) :=
  [(.agpsInit, {}), (.agnssNifInit, {}), (.requestATL 1 agpsTypeSupl, {}),
    (.atlOpenSuccess agpsTypeSupl "apn" 1, {}), (.releaseATL 1, {}), (.down, {}), (.up, {}),
    (.requestATL 2 agpsTypeSupl, {})]

/-- A test for the condition. -/
def restartsIdleTest (e : LocEng) : LocEngMsg → Bool
  | .up => [Nif.agnss_nif, .internet_nif].all fun n => (e.nif n).all fun m => !decide m.Busy
  | _ => true

theorem restartsIdle_of_test {msg : LocEngMsg} (h : restartsIdleTest e msg = true) :
    e.RestartsIdle msg := by
  cases msg with
  | up =>
    obtain ⟨hagnss, hinternet⟩ : (e.nif .agnss_nif).all (fun m => !decide m.Busy) = true ∧
        (e.nif .internet_nif).all (fun m => !decide m.Busy) = true := by
      simpa [restartsIdleTest] using h
    refine fun _ => ⟨?_, ?_⟩
    · rintro ⟨m, hm, hbusy⟩
      simp [hm, hbusy] at hagnss
    · rintro ⟨m, hm, hbusy⟩
      simp [hm, hbusy] at hinternet
  | _ => trivial

/-- The theorem at that run. -/
theorem run_connectionHeld_restart :
    ∃ tr e m, Run (step strayZero confAll) (fun e c => e.RestartsIdle c.1) {} tr e ∧
      e.nif .agnss_nif = some m ∧ m.mStatePtr = .pending ∧ m.Active strayZero := by
  have hend : (exec (step strayZero confAll) {} restartMsgs).toOption.map
      (fun x => (x.1.nif .agnss_nif).map AgpsStateMachine.mStatePtr) = some (some .pending) := by
    decide +kernel
  have hall : allMeet (step strayZero confAll) (fun e c => restartsIdleTest e c.1) {} restartMsgs =
      true := by
    decide +kernel
  obtain ⟨e, tr, hexec, hend⟩ := exec_of_map hend
  obtain ⟨m, hm, hs⟩ : ∃ m, e.nif .agnss_nif = some m ∧ m.mStatePtr = .pending := by
    simpa [Option.map_eq_some_iff] using hend
  have run := Run.of_exec_of_allMeet (C := fun e c => e.RestartsIdle c.1)
    (fun e c _ h => restartsIdle_of_test h) hexec hall
  exact ⟨tr, e, m, run, hm, hs, run_connectionHeld strayZero confAll run _ m hm (.inl hs)⟩

/-- The modem restarts while a client waits for its connection. -/
def restartPendingMsgs : List (LocEngMsg × LocEngAnswers) :=
  [(.agpsInit, {}), (.agnssNifInit, {}), (.requestATL 1 agpsTypeSupl, {}), (.down, {}), (.up, {})]

/-- The machine still waits for a connection, and has nobody left. -/
theorem run_leaks_restart :
    ∃ tr e m, Run (step strayZero confAll) (fun _ _ => True) {} tr e ∧
      e.nif .agnss_nif = some m ∧ m.mStatePtr = .pending ∧ ¬ m.Active strayZero := by
  have hend : (exec (step strayZero confAll) {} restartPendingMsgs).toOption.map
      (fun x => (x.1.nif .agnss_nif).map fun m => (m.mStatePtr, decide (m.Active strayZero))) =
        some (some (.pending, false)) := by
    decide +kernel
  obtain ⟨e, tr, hexec, hend⟩ := exec_of_map hend
  obtain ⟨m, hm, hs, hnot⟩ : ∃ m, e.nif .agnss_nif = some m ∧ m.mStatePtr = .pending ∧
      ¬ m.Active strayZero := by
    simpa [Option.map_eq_some_iff] using hend
  exact ⟨tr, e, m, Run.of_exec (C := fun _ => True) hexec (by simp), hm, hs, hnot⟩

end LocEng

end Nx508j.Loc
