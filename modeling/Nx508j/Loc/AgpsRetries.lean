import Nx508j.Loc.AgpsEmergency

/-! # The retries of an emergency call

The machine counts in one place how often a start was refused because the engine was busy. The count
is that of one request as long as each new request begins with it at zero, no other handle asks while
one waits, no handle that waits is released, and no restart, which the machine would not try again,
finds the engine busy. -/

namespace Nx508j.Loc

open Nx508j.Lib

namespace AgpsStateMachine

variable (w : StrayMemory) {m m' m'' : AgpsStateMachine} {event : RsrcEvent} {answers : Answers}
  {call : AgpsCall}

/-- The handle that is informed and tried again: the one of the first active subscriber. -/
def firstActive (m : AgpsStateMachine) : Option UInt32 :=
  (m.find w .broadcastActive).map fun p => (m.deref w p).ID

/-- How often the engine was busy for the requests of each handle, since its call was last started,
    handed over or closed. -/
def nextBusy (f : UInt32 → Nat) (e : AgpsCall × AgpsReply) : UInt32 → Nat := fun h =>
  if h ∈ e.2.acts.filterMap Act.ended then 0
  else if e.1.asks = some h then
    if .openAndStartDataCall errEngineBusy ∈ e.2.acts then f h + 1
    else if .openAndStartDataCall errSuccess ∈ e.2.acts then 0
    else f h
  else f h

def busyAnswers (tr : List (AgpsCall × AgpsReply)) : UInt32 → Nat := tr.foldl nextBusy fun _ => 0

/-- The acts end with a handle that is handed over because the engine is busy. -/
def FallsBack (acts : List Act) (h : UInt32) : Prop :=
  .openAndStartDataCall errEngineBusy ∈ acts ∧ ∃ type, acts.getLast? = some (.requestATL h type)

/-- What an engine that is busy leads to at a request of `h` after `n` such answers: another try, and
    after four of them the hand-over. -/
def BusyLeads (acts : List Act) (h : UInt32) (n n' : Nat) : Prop :=
  if n < maxStartDataCallRetries.toNat then .timerStart ∈ acts ∧ n' = n + 1 else FallsBack acts h

/-- A call whose answers are counted by `f`: a handle is handed over because the engine is busy only at
    its own request and after four answers of its own, and each answer before leads to a retry. -/
structure RetriesOwn (f : UInt32 → Nat) (e : AgpsCall × AgpsReply) : Prop where
  falls : ∀ h, FallsBack e.2.acts h → e.1.asks = some h ∧ f h = maxStartDataCallRetries.toNat
  busy : .openAndStartDataCall errEngineBusy ∈ e.2.acts →
    ∃ h, e.1.asks = some h ∧ BusyLeads e.2.acts h (f h) (nextBusy f e h)

/-- The handle waits to be tried again: when the timer is over the modem is told to ask for it again,
    and its request starts the call. -/
structure TriesAgain (m : AgpsStateMachine) (h : UInt32) : Prop where
  callback : ∀ m₁ r, step w m .retryCallback = .ok (m₁, r) → r.acts = [.requestSuplES h]
  request : ∀ s answers m₁ r, s.ID = h → step w m (.subscribeRsrc s answers) = .ok (m₁, r) →
    .openAndStartDataCall answers.ret ∈ r.acts

/-- The condition: a request that starts the call is one of the handle that waits to be tried again,
    or a new one while nothing is counted, no handle that waits is released, and the engine is not
    busy when the call is started again after its release. -/
def CountsOwn (m : AgpsStateMachine) : AgpsCall → Prop
  | .subscribeRsrc s _ => m.mStatePtr = .released →
      m.firstActive w = some s.ID ∨ (m.find w (.rcver (.caller s)) = none ∧ m.mRetries = 0)
  | .unsubscribeRsrc s => m.mStatePtr = .released → m.find w (.rcver (.caller s)) = none
  | .onRsrcEvent status answers => m.mStatePtr = .releasing →
      (∃ e, ofStatus status = some e ∧ e.loss = true) → m.Active w → answers.ret ≠ errEngineBusy
  | _ => True

/-- What the count of the machine is, in terms of the counts `f` of the handles. -/
structure Counted (f : UInt32 → Nat) (m : AgpsStateMachine) : Prop where
  few : m.mRetries ≤ maxStartDataCallRetries
  waits : m.mStatePtr = .released →
    ∀ h, f h = if m.firstActive w = some h then m.mRetries.toNat else 0
  busy : m.mStatePtr ≠ .released → ∀ h, f h = 0

theorem firstActive_none (h : ¬ m.Active w) : m.firstActive w = none := by
  rw [← hasActiveSubscribers_iff] at h
  unfold hasActiveSubscribers at h
  unfold firstActive
  cases hf : m.find w .broadcastActive with
  | none => rfl
  | some p => simp [hf] at h

theorem SameList.firstActive (h : SameList m m') : m'.firstActive w = m.firstActive w := by
  unfold AgpsStateMachine.firstActive
  rw [h.find]
  congr 1
  funext p
  rw [h.deref]

theorem connHandle_eq {h : UInt32} (hfirst : m.firstActive w = some h) : m.connHandle w = h := by
  unfold firstActive at hfirst
  unfold connHandle
  cases hf : m.find w .broadcastActive with
  | none => simp [hf] at hfirst
  | some p => simpa [hf] using hfirst

/-! ## A request in the released state -/

theorem firstActive_addSubscriber {s : Subscriber}
    (hfirst : m.firstActive w = some s.ID ∨ m.find w (.rcver (.caller s)) = none) :
    (m.addSubscriber w s).firstActive w = some s.ID := by
  unfold addSubscriber
  split
  · next p hp =>
    rcases hfirst with hfirst | hnone
    · exact hfirst
    · rw [hnone] at hp
      cases hp
  · have hhead : (m.linkedListAdd s.clone).find w .broadcastActive = some m.next := by
      exact List.find?_cons_of_pos (by
        simp [forMe, deref_linkedListAdd_self])
    unfold firstActive
    rw [hhead]
    simp [deref_linkedListAdd_self]

theorem toNat_add_one {r : UInt8} (h : r ≤ maxStartDataCallRetries) : (r + 1).toNat = r.toNat + 1 := by
  have hle : r.toNat ≤ 4 := UInt8.le_iff_toNat_le.1 h
  rw [UInt8.toNat_add]
  exact Nat.mod_eq_of_lt (by simp; omega)

variable {f : UInt32 → Nat} {e : AgpsCall × AgpsReply} {acts : List Act} {ret : Int}
  {retries retries' : UInt8} {r : AgpsReply} {handle : UInt32}

/-- A start of the call for `id`, whose count is the one of the machine: the counts afterwards, whom
    it hands over because the engine is busy, and what that leads to. -/
theorem Started.counted {id : UInt32}
    (h : Started answers id retries acts retries' ret) (hfew : retries ≤ maxStartDataCallRetries)
    (hself : f id = retries.toNat) (hother : ∀ handle, handle ≠ id → f handle = 0)
    (hasks : e.1.asks = some id) (hacts : e.2.acts = acts) : retries' ≤ maxStartDataCallRetries ∧
      (∀ handle, nextBusy f e handle = if ret ≠ 0 ∧ id = handle then retries'.toNat else 0) ∧
      (∀ handle, FallsBack acts handle → id = handle ∧ f handle = 4) ∧
      (.openAndStartDataCall errEngineBusy ∈ acts → BusyLeads acts id (f id) (nextBusy f e id)) := by
  have hle : retries.toNat ≤ 4 := UInt8.le_iff_toNat_le.1 hfew
  have hmax : maxStartDataCallRetries.toNat = 4 := rfl
  unfold BusyLeads nextBusy FallsBack
  rw [hacts, hasks, hmax]
  cases h with
  | tooBusy hret hmany =>
    have hfull : retries.toNat = 4 := by
      have hlt := UInt8.lt_iff_toNat_lt.1 hmany
      rw [toNat_add_one hfew] at hlt
      omega
    refine ⟨by decide, fun handle => ?_, fun handle hfalls => ?_, fun _ => ?_⟩
    · by_cases hid : id = handle
      · simp [hid, Act.ended]
      · have hne := hother handle (Ne.symm hid)
        simp [hid, hne]
    · obtain ⟨-, type, hlast⟩ := hfalls
      obtain ⟨rfl, -⟩ : id = handle ∧ agpsTypeSupl = type := by simpa using hlast
      exact ⟨rfl, hself.trans hfull⟩
    · simp [hself, hfull]
  | busy hret hmany =>
    have hret' : (if answers.timer = true then -1 else errEngineBusy) ≠ 0 := by
      split <;> decide
    have hroom : retries.toNat < 4 := by
      have hnot := UInt8.le_iff_toNat_le.1 (UInt8.not_lt.1 hmany)
      rw [toNat_add_one hfew] at hnot
      omega
    refine ⟨UInt8.not_lt.1 hmany, fun handle => ?_, fun handle hfalls => ?_, fun _ => ?_⟩
    · by_cases hid : id = handle
      · subst hid
        simp [Act.ended, hret', hself, toNat_add_one hfew]
      · have hne := hother handle (Ne.symm hid)
        simp [Act.ended, hid, hne]
    · obtain ⟨-, type, hlast⟩ := hfalls
      simp at hlast
    · simp [Act.ended, hself, hroom]
  | refused hret =>
    have hbusy : answers.ret ≠ errEngineBusy := by rcases hret with h | h <;> rw [h] <;> decide
    refine ⟨by decide, fun handle => ?_, fun handle hfalls => ?_, fun h => ?_⟩
    · by_cases hid : id = handle
      · simp [hid, Act.ended]
      · have hne := hother handle (Ne.symm hid)
        simp [hid, hne]
    · exact absurd hfalls.1 (by simp [Ne.symm hbusy])
    · exact absurd h (by simp [Ne.symm hbusy])
  | sent hret =>
    have hbusy : answers.ret ≠ errEngineBusy := hret ▸ by decide
    refine ⟨hfew, fun handle => ?_, fun handle hfalls => ?_, fun h => ?_⟩
    · by_cases hid : id = handle
      · simp [hret, hid, Act.ended, errSuccess, errEngineBusy]
      · have hne := hother handle (Ne.symm hid)
        simp [Act.ended, hid, hne]
    · exact absurd hfalls.1 (by simp [Ne.symm hbusy])
    · exact absurd h (by simp [Ne.symm hbusy])
  | unrecognized hret =>
    obtain ⟨hbusy, -, hsuccess, -⟩ : answers.ret ≠ errEngineBusy ∧ answers.ret ≠ errUnsupported ∧
        answers.ret ≠ errSuccess ∧ answers.ret ≠ -1 := by simpa using hret
    have hzero : answers.ret ≠ 0 := hsuccess
    refine ⟨hfew, fun handle => ?_, fun handle hfalls => ?_, fun h => ?_⟩
    · by_cases hid : id = handle
      · subst hid
        simp [Act.ended, Ne.symm hbusy, Ne.symm hsuccess, hzero, hself]
      · have hne := hother handle (Ne.symm hid)
        simp [Act.ended, hid, hne]
    · exact absurd hfalls.1 (by simp [Ne.symm hbusy])
    · exact absurd h (by simp [Ne.symm hbusy])

theorem released_counted (h : Emergency w m) (hs : m.mStatePtr = .released) (hf : Counted w f m)
    {s : Subscriber} (hlog : m.log = []) (hown : m.firstActive w = some s.ID ∨
      (m.find w (.rcver (.caller s)) = none ∧ m.mRetries = 0))
    (hacts : r.acts = (m.stateOnRsrcEvent w answers (.subscribe s)).log) :
    Counted w (nextBusy f (.subscribeRsrc s answers, r))
        (m.stateOnRsrcEvent w answers (.subscribe s)) ∧
      (∀ handle, FallsBack r.acts handle → s.ID = handle ∧ f handle = 4) ∧
      (.openAndStartDataCall errEngineBusy ∈ r.acts →
        BusyLeads r.acts s.ID (f s.ID) (nextBusy f (.subscribeRsrc s answers, r) s.ID)) := by
  have hfirst := firstActive_addSubscriber w (hown.imp id And.left)
  obtain ⟨haddlog, hds⟩ := addSubscriber_log w s m
  obtain ⟨acts, hsend, hstarted⟩ := sendRsrcRequest_started w (hds.trans h.isDS) answers
  have hlist := (sendRsrcRequest_talk w answers .requestAgpsDataConn (m.addSubscriber w s)).toSameList
  rw [connHandle_eq w hfirst, addSubscriber_mRetries] at hstarted
  rw [haddlog, hlog, List.nil_append] at hsend
  have hfirst' := (hlist.firstActive w).trans hfirst
  have heq : m.stateOnRsrcEvent w answers (.subscribe s) =
      { ((m.addSubscriber w s).sendRsrcRequest w answers .requestAgpsDataConn).1 with
        mStatePtr := if ((m.addSubscriber w s).sendRsrcRequest w answers
          .requestAgpsDataConn).2 = 0 then .pending else .released } := by
    unfold stateOnRsrcEvent
    simp only [hs, releasedOnRsrcEvent]
  rw [heq] at hacts ⊢
  simp only [hsend] at hacts
  generalize (m.addSubscriber w s).sendRsrcRequest w answers .requestAgpsDataConn = x at *
  obtain ⟨m₂, ret⟩ := x
  -- the handle that asks has the count of the machine, and the others have none
  have hself : f s.ID = m.mRetries.toNat := by
    rw [hf.waits hs]
    rcases hown with hown | ⟨-, hzero⟩
    · rw [if_pos hown]
    · rw [hzero]
      exact ite_self 0
  have hother : ∀ handle, handle ≠ s.ID → f handle = 0 := by
    intro handle hne
    rw [hf.waits hs]
    rcases hown with hown | ⟨-, hzero⟩
    · rw [hown, if_neg (by simpa using Ne.symm hne)]
    · rw [hzero]
      exact ite_self 0
  obtain ⟨hfew', hcount, hfalls, hleads⟩ :=
    hstarted.counted hf.few hself hother (e := (.subscribeRsrc s answers, r)) rfl hacts
  refine ⟨⟨hfew', fun hreleased handle => ?_, fun hbusy handle => ?_⟩, hacts ▸ hfalls,
    hacts ▸ hleads⟩
  · have hret : ret ≠ 0 := fun hc => by simp [hc] at hreleased
    have hfirst'' : ({ m₂ with mStatePtr := if ret = 0 then .pending else .released } :
        AgpsStateMachine).firstActive w = some s.ID := hfirst'
    rw [hcount, hfirst'']
    simp [hret]
  · have hret : ret = 0 := by
      by_contra hc
      simp [hc] at hbusy
    rw [hcount]
    simp [hret]

/-! ## The next try -/

theorem Started.opens (h : Started answers handle retries acts retries' ret) :
    .openAndStartDataCall answers.ret ∈ acts := by
  cases h with
  | tooBusy hret _ | busy hret _ => exact hret ▸ List.mem_cons_self ..
  | refused _ | sent _ | unrecognized _ => exact List.mem_cons_self ..

theorem subscribeRsrc_opens (h : Emergency w m) (hs : m.mStatePtr = .released) (s : Subscriber) :
    .openAndStartDataCall answers.ret ∈ (m.subscribeRsrc w answers s).log := by
  obtain ⟨-, hds⟩ := addSubscriber_log w s m
  obtain ⟨acts, hsend, hstarted⟩ := sendRsrcRequest_started w (hds.trans h.isDS) answers
  have heq : (m.subscribeRsrc w answers s).log =
      ((m.addSubscriber w s).sendRsrcRequest w answers .requestAgpsDataConn).1.log := by
    simp [subscribeRsrc, h.shared, stateOnRsrcEvent, hs, releasedOnRsrcEvent]
  rw [heq, hsend]
  exact List.mem_append_right _ hstarted.opens

/-- A handle whose refusals are counted waits to be tried again. -/
theorem Counted.triesAgain (h : Emergency w m) (hf : Counted w f m)
    (hpos : 0 < f handle) : m.TriesAgain w handle := by
  have hs : m.mStatePtr = .released := by
    by_contra hs
    exact absurd (hf.busy hs handle) (Nat.ne_of_gt hpos)
  have hfirst : m.firstActive w = some handle := by
    by_contra hne
    rw [hf.waits hs, if_neg hne] at hpos
    exact absurd hpos (Nat.lt_irrefl 0)
  refine ⟨fun m₁ r hstep => ?_, fun s answers m₁ r _ hstep => ?_⟩ <;>
    obtain ⟨rfl, hacts, -⟩ := step_ok w hstep <;> rw [hacts]
  · have hfirst : ({ m with log := [] } : AgpsStateMachine).firstActive w = some handle := hfirst
    unfold firstActive at hfirst
    unfold AgpsStateMachine.handle retryCallback
    cases hfind : ({ m with log := [] } : AgpsStateMachine).find w .broadcastActive with
    | none => simp [hfind] at hfirst
    | some p =>
      obtain rfl := Option.some.inj (hfind ▸ hfirst : some _ = some handle)
      rfl
  · exact subscribeRsrc_opens w (h.quiet w) hs s

/-! ## Events in the other states -/

/-- What an event leaves that does not find the machine released: no engine was busy. -/
structure LeavesNone (r : AgpsStateMachine × AgpsState) : Prop where
  few : r.1.mRetries ≤ maxStartDataCallRetries
  idle : r.2 = .released → ¬ r.1.Active w
  notBusy : .openAndStartDataCall errEngineBusy ∉ r.1.log

theorem not_busy_of_commands (h : ∀ c ∈ m.commands, c = .releaseAgpsDataConn) :
    .openAndStartDataCall errEngineBusy ∉ m.log := by
  intro hmem
  have hc := h .requestAgpsDataConn (List.mem_filterMap.2 ⟨_, hmem, rfl⟩)
  cases hc

theorem not_active_of_nil (h : m.mSubscribers = []) : ¬ m.Active w := by
  rintro ⟨p, hp, -⟩
  exact absurd (h ▸ hp) List.not_mem_nil

variable {status : AgpsRsrcStatus}

theorem few_of_told {ts : List Subscriber} (h : Told status ts m m')
    (hfew : m.mRetries ≤ maxStartDataCallRetries) : m'.mRetries ≤ maxStartDataCallRetries := by
  rcases h.mRetries_eq with hr | hr
  · rwa [hr]
  · rw [hr]
    decide

theorem LeavesNone.stay {state : AgpsState} (hfew : m.mRetries ≤ maxStartDataCallRetries)
    (hs : state ≠ .released) (hlog : m.commands = []) : LeavesNone w (m, state) :=
  ⟨hfew, fun h => absurd h hs, not_busy_of_commands (by simp [hlog])⟩

theorem unsubscribed_leavesNone (h : Emergency w m) (hfew : m.mRetries ≤ maxStartDataCallRetries)
    (hlog : m.commands = []) {here : AgpsState} (hhere : here ≠ .released) {p : Nat}
    (hp : p ∈ m.mSubscribers) : LeavesNone w (m.unsubscribed w here p) := by
  have hds := leave_isDS w h.heaped h.isDS p
  have hcommands := (leave_commands w h.heaped p).1.trans hlog
  have hretries : (m.leave w p).mRetries = m.mRetries := by
    rw [leave_eq w h.toOneKind hp]
    rfl
  have hstop : ∀ c ∈ ((m.leave w p).put .stopDataCall).commands, c = .releaseAgpsDataConn := by
    intro c hc
    unfold commands at hc hcommands
    rw [put_log, List.filterMap_append, hcommands] at hc
    simpa [Act.command] using hc
  unfold unsubscribed
  simp only
  split
  · next hno =>
    rw [sendRsrcRequest_stopped w hds]
    refine ⟨hretries ▸ hfew, fun _ => ?_, not_busy_of_commands hstop⟩
    have hnil : (m.leave w p).mSubscribers = [] := by simpa [hasSubscribers] using hno
    exact not_active_of_nil w (m := (m.leave w p).put .stopDataCall) hnil
  split
  · rw [sendRsrcRequest_stopped w hds]
    exact ⟨hretries ▸ hfew, by simp, not_busy_of_commands hstop⟩
  · exact .stay w (hretries ▸ hfew) hhere hcommands

theorem pendingOnRsrcEvent_leavesNone (h : Emergency w m)
    (hfew : m.mRetries ≤ maxStartDataCallRetries) (hlog : m.commands = [])
    (hlisted : Listed event m) : LeavesNone w (m.pendingOnRsrcEvent w event) := by
  cases event with
  | subscribe s =>
    exact .stay w (by rwa [addSubscriber_mRetries]) (by simp) (by rwa [addSubscriber_commands])
  | unsubscribe p => exact unsubscribed_leavesNone w h hfew hlog (by simp) (hlisted p rfl)
  | granted =>
    obtain ⟨-, htold⟩ :=
      notifySubscribers_keep w (n := ⟨.broadcastActive, .granted, false⟩) rfl rfl m
    exact .stay w (few_of_told htold hfew) (by simp) (htold.commands.trans hlog)
  | released => exact .stay w hfew (by simp) hlog
  | denied =>
    obtain ⟨ts, hwalk, -⟩ :=
      notifySubscribers_walked w (n := ⟨.broadcastAll, .denied, true⟩) rfl rfl h.heaped
    refine ⟨few_of_told hwalk.toTold hfew,
      fun _ => not_active_of_nil w (broadcastAll_nil w rfl h.heaped), not_busy_of_commands ?_⟩
    simp [pendingOnRsrcEvent, hwalk.commands w, hlog]

theorem acquiredOnRsrcEvent_leavesNone (h : Emergency w m)
    (hfew : m.mRetries ≤ maxStartDataCallRetries) (hlog : m.commands = [])
    (hlisted : Listed event m) : LeavesNone w (m.acquiredOnRsrcEvent w event) := by
  cases event with
  | subscribe s =>
    obtain ⟨-, -, -, htold⟩ :=
      notifyRsrcStatus_told w (n := ⟨.rcver (.caller s), .granted, false⟩) rfl s m
    refine .stay w ?_ (by simp) ?_
    · rw [addSubscriber_mRetries]
      exact few_of_told htold hfew
    · rw [addSubscriber_commands]
      exact htold.commands.trans hlog
  | unsubscribe p => exact unsubscribed_leavesNone w h hfew hlog (by simp) (hlisted p rfl)
  | granted => exact .stay w hfew (by simp) hlog
  | released =>
    obtain ⟨ts, hwalk, -⟩ :=
      notifySubscribers_walked w (n := ⟨.broadcastAll, .released, true⟩) rfl rfl h.heaped
    refine ⟨few_of_told hwalk.toTold hfew,
      fun _ => not_active_of_nil w (broadcastAll_nil w rfl h.heaped), not_busy_of_commands ?_⟩
    simp [acquiredOnRsrcEvent, hwalk.commands w, hlog]
  | denied => exact .stay w hfew (by simp) hlog

theorem Started.not_busy
    (h : Started answers handle retries acts retries' ret) (hne : answers.ret ≠ errEngineBusy)
    (hfew : retries ≤ maxStartDataCallRetries) :
    retries' ≤ maxStartDataCallRetries ∧ .openAndStartDataCall errEngineBusy ∉ acts := by
  cases h with
  | tooBusy hret _ | busy hret _ => exact absurd hret hne
  | refused _ => exact ⟨by decide, by simp [Ne.symm hne]⟩
  | sent _ | unrecognized _ => exact ⟨hfew, by simp [Ne.symm hne]⟩

theorem closed_leavesNone (h : Emergency w m) (hfew : m.mRetries ≤ maxStartDataCallRetries)
    (hlog : m.commands = []) (hstatus : status.told = true)
    (hstarts : m.Active w → answers.ret ≠ errEngineBusy) :
    LeavesNone w (m.closed w answers status) := by
  obtain ⟨ts, hwalk, -⟩ := notifySubscribers_walked w
    (n := ⟨.broadcastInactive, status, true⟩) hstatus rfl h.heaped
  have hcommands := (hwalk.commands w).trans hlog
  unfold closed
  simp only
  split
  · next hactive =>
    obtain ⟨acts, hsend, hstarted⟩ :=
      sendRsrcRequest_started w (hwalk.isDS.trans h.isDS) answers
    have hne := hstarts (hwalk.active w ((hasActiveSubscribers_iff w _).1 hactive))
    obtain ⟨hfew', hacts⟩ := hstarted.not_busy hne (few_of_told hwalk.toTold hfew)
    have hbefore := not_busy_of_commands
      (m := m.notifySubscribers w ⟨.broadcastInactive, status, true⟩) (by simp [hcommands])
    refine ⟨hfew', by simp, fun hmem => ?_⟩
    exact (List.mem_append.1 (hsend ▸ hmem)).elim hbefore hacts
  · next hno =>
    refine ⟨few_of_told hwalk.toTold hfew, fun _ hactive => ?_,
      not_busy_of_commands (by simp [hcommands])⟩
    exact hno ((hasActiveSubscribers_iff w _).2 hactive)

theorem releasingOnRsrcEvent_leavesNone (h : Emergency w m)
    (hfew : m.mRetries ≤ maxStartDataCallRetries) (hlog : m.commands = [])
    (hlisted : Listed event m)
    (hstarts : event.loss = true → m.Active w → answers.ret ≠ errEngineBusy) :
    LeavesNone w (m.releasingOnRsrcEvent w answers event) := by
  cases event with
  | subscribe s =>
    exact .stay w (by rwa [addSubscriber_mRetries]) (by simp) (by rwa [addSubscriber_commands])
  | unsubscribe p =>
    have hcommands := (leave_commands w h.heaped p).1.trans hlog
    have hretries : (m.leave w p).mRetries = m.mRetries := by
      rw [leave_eq w h.toOneKind (hlisted p rfl)]
      rfl
    refine ⟨hretries ▸ hfew, fun hreleased => ?_, not_busy_of_commands ?_⟩
    · refine not_active_of_nil w (m := m.leave w p) ?_
      by_contra hne
      have hsome := (hasSubscribers_iff (m.leave w p)).2 hne
      simp [releasingOnRsrcEvent, hsome] at hreleased
    · exact fun c hc => absurd (hcommands ▸ hc) List.not_mem_nil
  | granted => exact .stay w hfew (by simp) hlog
  | released | denied => exact closed_leavesNone w h hfew hlog rfl (hstarts rfl)

/-- **One event** that does not find the machine released. -/
theorem stateOnRsrcEvent_leavesNone (h : Emergency w m) (hs : m.mStatePtr ≠ .released)
    (hfew : m.mRetries ≤ maxStartDataCallRetries) (hlog : m.commands = [])
    (hlisted : Listed event m)
    (hstarts : m.mStatePtr = .releasing → event.loss = true → m.Active w →
      answers.ret ≠ errEngineBusy) : LeavesNone w (m.stateOnRsrcEvent w answers event,
      (m.stateOnRsrcEvent w answers event).mStatePtr) := by
  have hnext : ∀ r : AgpsStateMachine × AgpsState, LeavesNone w r →
      LeavesNone w ({ r.1 with mStatePtr := r.2 }, r.2) := fun r hr => ⟨hr.few, hr.idle, hr.notBusy⟩
  unfold stateOnRsrcEvent
  cases hs' : m.mStatePtr with
  | released => exact absurd hs' hs
  | pending => exact hnext _ (pendingOnRsrcEvent_leavesNone w h hfew hlog hlisted)
  | acquired => exact hnext _ (acquiredOnRsrcEvent_leavesNone w h hfew hlog hlisted)
  | releasing => exact hnext _ (releasingOnRsrcEvent_leavesNone w h hfew hlog hlisted (hstarts hs'))

/-! ## Calls and runs -/

theorem nextBusy_zero (hf : ∀ h, f h = 0)
    (hbusy : e.1.asks ≠ none → .openAndStartDataCall errEngineBusy ∉ e.2.acts) (h : UInt32) :
    nextBusy f e h = 0 := by
  unfold nextBusy
  split
  · rfl
  split
  · next hasks =>
    rw [if_neg (hbusy (by simp [hasks]))]
    split
    · rfl
    · exact hf h
  · exact hf h

theorem nextBusy_same (hasks : e.1.asks = none) (hover : ∀ a ∈ e.2.acts, a.ended = none) :
    nextBusy f e = f := by
  funext h
  unfold nextBusy
  have hnil : e.2.acts.filterMap Act.ended = [] := List.filterMap_eq_nil_iff.2 hover
  rw [hnil, if_neg List.not_mem_nil, hasks, if_neg (by simp)]

theorem RetriesOwn.of_not_busy (h : .openAndStartDataCall errEngineBusy ∉ e.2.acts) :
    RetriesOwn f e :=
  ⟨fun _ hfalls => absurd hfalls.1 h, fun hbusy => absurd hbusy h⟩

theorem LeavesNone.counted (h : LeavesNone w (m', m'.mStatePtr)) (hf : ∀ handle, f handle = 0) :
    Counted w f m' where
  few := h.few
  waits hs handle := by
    rw [hf, firstActive_none w (h.idle hs), if_neg (by simp)]
  busy _ := hf

theorem stateOnRsrcEvent_idle {e : RsrcEvent} (he : ofStatus status = some e)
    (hs : m.mStatePtr = .released) : m.stateOnRsrcEvent w answers e = m := by
  unfold stateOnRsrcEvent
  cases status <;> simp [ofStatus] at he <;> subst he <;> simp only [hs, releasedOnRsrcEvent] <;>
    rw [← hs]

theorem onRsrcEvent_leavesNone (h : Emergency w m) (hs : m.mStatePtr ≠ .released)
    (hfew : m.mRetries ≤ maxStartDataCallRetries) (hlog : m.commands = []) (status : AgpsRsrcStatus)
    (hstarts : m.mStatePtr = .releasing → (∃ e, ofStatus status = some e ∧ e.loss = true) →
      m.Active w → answers.ret ≠ errEngineBusy) : LeavesNone w (m.onRsrcEvent w answers status,
      (m.onRsrcEvent w answers status).mStatePtr) := by
  unfold onRsrcEvent
  split
  · exact .stay w hfew hs hlog
  · next e he =>
    have hfirst : LeavesNone w (m.stateOnRsrcEvent w answers e,
        (m.stateOnRsrcEvent w answers e).mStatePtr) :=
      stateOnRsrcEvent_leavesNone w h hs hfew hlog (listed_ofStatus he m)
        fun hs hloss => hstarts hs ⟨e, he, hloss⟩
    simp only
    split
    · next hagain =>
      obtain ⟨⟨-, hreleased⟩, hsame⟩ : (m.isDS = true ∧ status = .released) ∧
          (m.stateOnRsrcEvent w answers e).mStatePtr = m.mStatePtr := by
        simpa using hagain
      subst hreleased
      obtain rfl : .released = e := by simpa [ofStatus] using he
      -- the release did nothing: the machine waits for its connection
      have hnothing : m.stateOnRsrcEvent w answers .released = m := by
        cases hs' : m.mStatePtr with
        | released => exact absurd hs' hs
        | pending =>
          unfold stateOnRsrcEvent
          simp only [hs', pendingOnRsrcEvent]
          rw [← hs']
        | acquired =>
          rw [hs'] at hsame
          simp [stateOnRsrcEvent, hs', acquiredOnRsrcEvent] at hsame
        | releasing =>
          exact absurd (hsame.trans hs') (stateOnRsrcEvent_releasing w hs' answers)
      rw [hnothing]
      refine stateOnRsrcEvent_leavesNone w h hs hfew hlog (by simp [Listed]) fun hs' _ => ?_
      exact hstarts hs' ⟨.released, rfl, rfl⟩
    · exact hfirst

/-- **One call.** The count of the machine stays the one of the handle that waits, and each handle
    has its own retries. -/
theorem handle_counted (h : Emergency w m) (hf : Counted w f m) (hcall : m.CountsOwn w call)
    (hlog : m.log = []) (hacts : r.acts = (m.handle w call).log) :
    Counted w (nextBusy f (call, r)) (m.handle w call) ∧ RetriesOwn f (call, r) := by
  have hcommands : m.commands = [] := by rw [commands, hlog, List.filterMap_nil]
  -- a call that changes nothing that is counted
  have hsame : ∀ m', m.handle w call = m' → SameList m m' → m'.mRetries = m.mRetries →
      m'.mStatePtr = m.mStatePtr → call.asks = none → (∀ a ∈ m'.log, a.ended = none) →
      m'.commands = [] → Counted w (nextBusy f (call, r)) (m.handle w call) ∧
        RetriesOwn f (call, r) := by
    intro m' heq hlist hretries hstate hasks hover hcommands'
    rw [heq] at hacts ⊢
    rw [nextBusy_same hasks (by rwa [hacts])]
    refine ⟨⟨hretries ▸ hf.few, fun hs => ?_, fun hs => hf.busy (hstate ▸ hs)⟩, .of_not_busy ?_⟩
    · rw [hlist.firstActive w, hretries]
      exact hf.waits (hstate ▸ hs)
    · show _ ∉ r.acts
      rw [hacts]
      exact not_busy_of_commands (by simp [hcommands'])
  have hidle : m.handle w call = m → call.asks = none →
      Counted w (nextBusy f (call, r)) (m.handle w call) ∧ RetriesOwn f (call, r) :=
    fun heq hasks => hsame _ heq ⟨rfl, rfl⟩ rfl rfl hasks (by simp [hlog]) hcommands
  -- one that does not find the machine released
  have hleft : m.mStatePtr ≠ .released →
      LeavesNone w (m.handle w call, (m.handle w call).mStatePtr) →
      Counted w (nextBusy f (call, r)) (m.handle w call) ∧ RetriesOwn f (call, r) := by
    intro hs hleaves
    have hquiet : .openAndStartDataCall errEngineBusy ∉ r.acts := hacts ▸ hleaves.notBusy
    exact ⟨hleaves.counted w (nextBusy_zero (hf.busy hs) fun _ => hquiet), .of_not_busy hquiet⟩
  cases call with
  | subscribeRsrc s answers =>
    have heq : m.handle w (.subscribeRsrc s answers) =
        m.stateOnRsrcEvent w answers (.subscribe s) := by
      simp [handle, subscribeRsrc, h.shared]
    rw [heq] at hacts ⊢
    by_cases hs : m.mStatePtr = .released
    · obtain ⟨hcounted, hfalls, hbusy⟩ := released_counted w h hs hf hlog (hcall hs) hacts
      exact ⟨hcounted, fun handle hfall => ⟨congrArg some (hfalls handle hfall).1,
        (hfalls handle hfall).2⟩, fun hmem => ⟨s.ID, rfl, hbusy hmem⟩⟩
    · refine heq ▸ hleft hs (heq ▸ ?_)
      exact stateOnRsrcEvent_leavesNone w h hs hf.few hcommands (by simp [Listed])
        (by simp [RsrcEvent.loss])
  | unsubscribeRsrc s =>
    cases hfind : m.find w (.rcver (.caller s)) with
    | none => exact hidle (by simp [handle, unsubscribeRsrc, hfind]) rfl
    | some p =>
      have hs : m.mStatePtr ≠ .released := fun hs => by
        rw [hcall hs] at hfind
        cases hfind
      have heq : m.handle w (.unsubscribeRsrc s) = m.stateOnRsrcEvent w {} (.unsubscribe p) := by
        simp [handle, unsubscribeRsrc, hfind]
      refine hleft hs (heq ▸ ?_)
      exact stateOnRsrcEvent_leavesNone w h hs hf.few hcommands (listed_of_find w hfind)
        (by simp [RsrcEvent.loss])
  | onRsrcEvent status answers =>
    by_cases hs : m.mStatePtr = .released
    · refine hidle ?_ rfl
      unfold handle onRsrcEvent
      simp only
      split
      · rfl
      · next e he =>
        simp only [stateOnRsrcEvent_idle w he hs]
        split
        · exact stateOnRsrcEvent_idle w (show ofStatus .denied = some .denied from rfl) hs
        · rfl
    · exact hleft hs (onRsrcEvent_leavesNone w h hs hf.few hcommands status hcall)
  | retryCallback =>
    cases hfind : m.find w .broadcastActive with
    | none => exact hidle (by simp [handle, retryCallback, hfind]) rfl
    | some p =>
      refine hsame (m.put (.requestSuplES (m.deref w p).ID))
        (by simp [handle, retryCallback, hfind]) ⟨rfl, rfl⟩ rfl rfl rfl ?_ ?_
      · simp [hlog, Act.ended]
      · simp [commands, hlog, Act.command]
  | setAPN apn =>
    exact hsame { m with mAPN := apn } rfl ⟨rfl, rfl⟩ rfl rfl rfl (by simp [hlog])
      hcommands
  | setBearer bearer =>
    exact hsame { m with mBearer := bearer } rfl ⟨rfl, rfl⟩ rfl rfl rfl (by simp [hlog])
      hcommands

theorem CountsOwn.quiet (h : m.CountsOwn w call) :
    ({ m with log := [] } : AgpsStateMachine).CountsOwn w call := by
  cases call <;> exact h

theorem step_counted (h : Emergency w m) (hf : Counted w f m) (hcall : m.CountsOwn w call)
    (hstep : step w m call = .ok (m', r)) :
    Counted w (nextBusy f (call, r)) m' ∧ RetriesOwn f (call, r) := by
  obtain ⟨rfl, hacts, -⟩ := step_ok w hstep
  have hf' : Counted w f ({ m with log := [] } : AgpsStateMachine) := ⟨hf.few, hf.waits, hf.busy⟩
  exact handle_counted w (h.quiet w) hf' (hcall.quiet w) rfl hacts

/-- **Runs in which each request counts its own refusals.** -/
theorem run_retriesCounted {tr : List (AgpsCall × AgpsReply)}
    (run : Run (step w) (fun m c => c.OfKind .ds ∧ m.CountsOwn w c) initDS tr m) :
    Emergency w m ∧ Counted w (busyAnswers tr) m := by
  refine run.invariant (fun tr m => Emergency w m ∧ Counted w (busyAnswers tr) m) ?_ ?_
  · refine ⟨initDS_emergency w, by decide, fun _ h => ?_, fun _ _ => rfl⟩
    exact (ite_self 0).symm
  · rintro tr m call m' r ⟨h, hf⟩ ⟨hcall, hown⟩ hstep
    have hcounted := (step_counted w h hf hown hstep).1
    obtain ⟨rfl, -⟩ := step_ok w hstep
    refine ⟨((h.quiet w).handle w hcall).1, ?_⟩
    rw [busyAnswers, List.foldl_concat]
    exact hcounted

/-- **The emergency machine.** In a run that hands nobody over from within a request, and releases no
    handle that waits to be tried again, a handle that was handed over or whose call is over is not
    on the list until it asks again, and no status is reported of it. In a run in which each request
    counts its own refusals, a handle that was refused because the engine is busy is tried again, up
    to four times, and only then handed over. -/
theorem run_emergency {tr tr' : List (AgpsCall × AgpsReply)}
    (run : Run (step w) (fun m c => c.OfKind .ds ∧ m.HandsOverNone w c) initDS tr m)
    (run' : Run (step w) (fun m c => c.OfKind .ds ∧ m.CountsOwn w c) initDS tr' m') :
    (∀ h ∈ gone tr, ¬ m.Lists w h ∧
      ∀ call m₁ r, call.OfKind .ds → call.asks ≠ some h → step w m call = .ok (m₁, r) →
        ∀ a ∈ r.acts, a.report ≠ some h) ∧
      (∀ h, 0 < busyAnswers tr' h → m'.TriesAgain w h) ∧
      ∀ call m₁ r, m'.CountsOwn w call → step w m' call = .ok (m₁, r) →
        RetriesOwn (busyAnswers tr') (call, r) := by
  obtain ⟨hinv, hgone⟩ := run_gone w run
  obtain ⟨hinv', hcounted⟩ := run_retriesCounted w run'
  refine ⟨fun h hmem => ⟨hgone h hmem, ?_⟩, fun h hpos => hcounted.triesAgain w hinv' hpos, ?_⟩
  · intro call m₁ r hcall hasks hstep
    exact step_reports w hinv hcall hstep (hgone h hmem) hasks
  · intro call m₁ r hcall hstep
    exact (step_counted w hinv' hcounted hcall hstep).2

/-! ## Three runs -/

instance (answers : Answers) (m : AgpsStateMachine) : Decidable (Starts answers m) :=
  inferInstanceAs (Decidable (_ ∧ _ ∧ (_ → _)))

instance (m : AgpsStateMachine) (h : UInt32) : Decidable (m.Lists w h) :=
  inferInstanceAs (Decidable (∃ p ∈ m.mSubscribers, _ = h))

/-- A test for the condition on the calls of the first run. -/
def handsOverNoneTest (m : AgpsStateMachine) : AgpsCall → Bool
  | .subscribeRsrc _ answers => m.mStatePtr != .released || decide (Starts answers m)
  | .unsubscribeRsrc _ => m.mStatePtr != .released
  | .onRsrcEvent _ _ => m.mStatePtr != .releasing
  | _ => true

theorem handsOverNone_of_test (h : handsOverNoneTest m call = true) : m.HandsOverNone w call := by
  cases call with
  | subscribeRsrc s answers =>
    have hstarts : m.mStatePtr = .released → Starts answers m := fun hs => by
      simpa [handsOverNoneTest, hs] using h
    exact ⟨fun hs _ _ => hstarts hs, by simp, by simp [RsrcEvent.loss]⟩
  | unsubscribeRsrc s =>
    have hs : m.mStatePtr ≠ .released := by simpa [handsOverNoneTest] using h
    exact fun p _ => ⟨by simp, fun hs' => absurd hs' hs, by simp [RsrcEvent.loss]⟩
  | onRsrcEvent status answers =>
    have hs : m.mStatePtr ≠ .releasing := by simpa [handsOverNoneTest] using h
    refine fun e he => ⟨fun _ s hc => ?_, fun _ => ofStatus_ne he, fun hs' => absurd hs' hs⟩
    exact absurd (hc ▸ ofStatus_asks he) (by simp [RsrcEvent.asks])
  | _ => trivial
where
  ofStatus_ne {status : AgpsRsrcStatus} {e : RsrcEvent} (he : ofStatus status = some e) (p : Nat) :
      e ≠ .unsubscribe p := by
    rintro rfl
    cases status <;> simp [ofStatus] at he

/-- A test for the condition on the calls of the second run. -/
def countsOwnTest (m : AgpsStateMachine) : AgpsCall → Bool
  | .subscribeRsrc s _ => m.mStatePtr != .released || m.firstActive w == some s.ID ||
      ((m.find w (.rcver (.caller s))).isNone && m.mRetries == 0)
  | .unsubscribeRsrc _ => m.mStatePtr != .released
  | .onRsrcEvent _ _ => m.mStatePtr != .releasing
  | _ => true

theorem countsOwn_of_test (h : m.countsOwnTest w call = true) : m.CountsOwn w call := by
  cases call with
  | subscribeRsrc s answers =>
    intro hs
    simpa [countsOwnTest, hs] using h
  | unsubscribeRsrc s
  | onRsrcEvent status answers => exact fun hs => absurd hs (by simpa [countsOwnTest] using h)
  | _ => trivial

/-- A request of the handle `ID`, with the answer to the start of the call. -/
def suplEs (ID : UInt32) (ret : Int) : AgpsCall := .subscribeRsrc ⟨ID, .ds false⟩ ⟨ret, false⟩

/-- The call of handle 1 is opened and closed. -/
def openClose : List AgpsCall :=
  [suplEs 1 errSuccess, .onRsrcEvent .granted {}, .onRsrcEvent .released {}]

/-- The engine is busy at the request of handle 1 and at its first three retries. -/
def busyCalls : List AgpsCall := List.replicate 4 (suplEs 1 errEngineBusy)

theorem suplEs_ofKind (ID : UInt32) (ret : Int) : (suplEs ID ret).OfKind .ds := rfl

/-- The theorem at two runs: handle 1 is gone when its call is closed; it waits after four answers
    that the engine is busy, and is handed over at the fifth. -/
theorem run_emergency_openClose :
    ∃ tr m tr' m', Run (step strayZero) (fun m c => c.OfKind .ds ∧ m.HandsOverNone strayZero c)
        initDS tr m ∧
      Run (step strayZero) (fun m c => c.OfKind .ds ∧ m.CountsOwn strayZero c) initDS tr' m' ∧
      1 ∈ gone tr ∧ ¬ m.Lists strayZero 1 ∧ m'.TriesAgain strayZero 1 ∧
      ∀ m₁ r, step strayZero m' (suplEs 1 errEngineBusy) = .ok (m₁, r) →
        RetriesOwn (busyAnswers tr') (suplEs 1 errEngineBusy, r) := by
  have hgone : (exec (step strayZero) initDS openClose).toOption.map
      (fun x => decide (1 ∈ gone x.2)) = some true := by decide +kernel
  have hall : allMeet (step strayZero) handsOverNoneTest initDS openClose = true := by decide +kernel
  have hend : (exec (step strayZero) initDS busyCalls).toOption.map
      (fun x => (busyAnswers x.2 1, x.1.countsOwnTest strayZero (suplEs 1 errEngineBusy))) =
        some (4, true) := by
    decide +kernel
  have hall' : allMeet (step strayZero) (countsOwnTest strayZero) initDS busyCalls = true := by
    decide +kernel
  obtain ⟨m, tr, hexec, hgone⟩ := exec_of_map hgone
  obtain ⟨m', tr', hexec', hend⟩ := exec_of_map hend
  have hmem : 1 ∈ gone tr := of_decide_eq_true hgone
  have hnext : m'.CountsOwn strayZero (suplEs 1 errEngineBusy) :=
    countsOwn_of_test strayZero (congrArg Prod.snd hend)
  have hcount : busyAnswers tr' 1 = 4 := congrArg Prod.fst hend
  have run := Run.of_exec_of_allMeet (C := fun m c => c.OfKind .ds ∧ m.HandsOverNone strayZero c)
    (fun m c hc h => ⟨by
      simp only [openClose, List.mem_cons, List.not_mem_nil, or_false] at hc
      rcases hc with rfl | rfl | rfl <;> trivial, handsOverNone_of_test strayZero h⟩) hexec hall
  have run' := Run.of_exec_of_allMeet (C := fun m c => c.OfKind .ds ∧ m.CountsOwn strayZero c)
    (fun m c hc h => ⟨(List.eq_of_mem_replicate hc) ▸ suplEs_ofKind 1 errEngineBusy,
      countsOwn_of_test strayZero h⟩) hexec' hall'
  obtain ⟨hlists, hwaits, hcalls⟩ := run_emergency strayZero run run'
  exact ⟨tr, m, tr', m', run, run', hmem, (hlists 1 hmem).1, hwaits 1 (by omega),
    fun m₁ r hstep => hcalls _ m₁ r hnext hstep⟩

/-- Handle 1 is refused twice, and its call is opened and closed; handle 2 is refused twice. -/
def sharedCalls : List AgpsCall :=
  [suplEs 1 errEngineBusy, suplEs 1 errEngineBusy] ++ openClose ++
    [suplEs 2 errEngineBusy, suplEs 2 errEngineBusy]

/-- A handle that is handed over because there is no profile stays on the list. And the refusals of
    one handle are counted for the next one, which is handed over after two retries. -/
theorem run_emergency_stale :
    (∃ tr m, Run (step strayZero) (fun _ c => c.OfKind .ds) initDS tr m ∧ 1 ∈ gone tr ∧
      m.Lists strayZero 1) ∧
    ∃ tr m m₁ r, Run (step strayZero) (fun _ c => c.OfKind .ds) initDS tr m ∧
      step strayZero m (suplEs 2 errEngineBusy) = .ok (m₁, r) ∧ FallsBack r.acts 2 ∧
        busyAnswers tr 2 = 2 := by
  constructor
  · have hend : (exec (step strayZero) initDS [suplEs 1 errUnsupported]).toOption.map
        (fun x => (decide (1 ∈ gone x.2), decide (x.1.Lists strayZero 1))) = some (true, true) := by
      decide +kernel
    obtain ⟨m, tr, hexec, hend⟩ := exec_of_map hend
    have hgone : 1 ∈ gone tr := of_decide_eq_true (congrArg Prod.fst hend)
    have hlists : m.Lists strayZero 1 :=
      of_decide_eq_true (congrArg Prod.snd hend)
    exact ⟨tr, m, Run.of_exec (C := AgpsCall.OfKind .ds) hexec (by simp [suplEs_ofKind]), hgone,
      hlists⟩
  · have hend : (exec (step strayZero) initDS sharedCalls).toOption.map
        (fun x => (busyAnswers x.2 2, (({ x.1 with log := [] } : AgpsStateMachine).handle strayZero
          (suplEs 2 errEngineBusy)).log)) =
          some (2, [.openAndStartDataCall errEngineBusy, .requestATL 2 agpsTypeSupl]) := by
      decide +kernel
    obtain ⟨m, tr, hexec, hend⟩ := exec_of_map hend
    have hcount : busyAnswers tr 2 = 2 := congrArg Prod.fst hend
    have hacts : (({ m with log := [] } : AgpsStateMachine).handle strayZero
        (suplEs 2 errEngineBusy)).log =
          [.openAndStartDataCall errEngineBusy, .requestATL 2 agpsTypeSupl] :=
      congrArg Prod.snd hend
    refine ⟨tr, m, _, _, Run.of_exec (C := AgpsCall.OfKind .ds) hexec ?_, rfl, ?_, hcount⟩
    · simp only [sharedCalls, openClose, List.cons_append, List.nil_append, List.mem_cons,
        List.not_mem_nil, or_false]
      rintro c (rfl | rfl | rfl | rfl | rfl | rfl | rfl) <;> trivial
    · rw [hacts]
      exact ⟨by simp, agpsTypeSupl, rfl⟩

end AgpsStateMachine

end Nx508j.Loc
