import Nx508j.Loc.AgpsOneKind

/-! # The emergency data call

A handle that asks for the emergency data call is on the list of the emergency machine until its call
is closed or it is handed over to the regular path. The start of the call may be refused; the machine
then stays in the released state, and after too many refusals it hands the handle over from within
the request, where nothing takes the subscriber off the list. -/

namespace Nx508j.Loc

open Nx508j.Lib

namespace Act

/-- The handle whose connection the modem is told to be open or closed. -/
def report : Act → Option UInt32
  | .atlOpenStatus handle .. => some handle
  | .atlCloseStatus handle _ => some handle
  | _ => none

/-- The handle that is handed over to the regular path or whose data call is over. -/
def ended : Act → Option UInt32
  | .requestATL connHandle _ => some connHandle
  | .notified s .released => some s.ID
  | .notified s .unsubscribe => some s.ID
  | _ => none

end Act

namespace AgpsStateMachine

variable (w : StrayMemory) {m m' m'' : AgpsStateMachine} {event : RsrcEvent} {answers : Answers}

/-- The handle has a subscriber. -/
def Lists (m : AgpsStateMachine) (h : UInt32) : Prop := ∃ p ∈ m.mSubscribers, (m.deref w p).ID = h

/-- The handle that an event is a request of. -/
def RsrcEvent.asks : RsrcEvent → Option UInt32
  | .subscribe s => some s.ID
  | _ => none

/-- The answer lets the machine start its call, or at least try again later. -/
def Starts (answers : Answers) (m : AgpsStateMachine) : Prop :=
  answers.ret ≠ errUnsupported ∧ answers.ret ≠ -1 ∧
    (answers.ret = errEngineBusy → m.mRetries < maxStartDataCallRetries)

/-! ## What is said about a handle -/

/-- Statuses are reported of handles that are listed or that ask, and only those are listed later. -/
structure Reports (asked : Option UInt32) (m m' : AgpsStateMachine) : Prop where
  log : ∃ acts, m'.log = m.log ++ acts ∧
    ∀ a ∈ acts, ∀ h, a.report = some h → m.Lists w h ∨ asked = some h
  lists : ∀ h, m'.Lists w h → m.Lists w h ∨ asked = some h

/-- Nothing is said to be over. -/
def Quiet (m m' : AgpsStateMachine) : Prop :=
  ∃ acts, m'.log = m.log ++ acts ∧ ∀ a ∈ acts, a.ended = none

/-- What is said to be over is not on the list. -/
def Ends (m m' : AgpsStateMachine) : Prop :=
  ∃ acts, m'.log = m.log ++ acts ∧ ∀ a ∈ acts, ∀ h, a.ended = some h → ¬ m'.Lists w h

variable {asked : Option UInt32}

theorem SameList.lists (h : SameList m m') (handle : UInt32) :
    m'.Lists w handle ↔ m.Lists w handle := by
  unfold Lists
  rw [h.mSubscribers]
  simp only [h.deref]

theorem Reports.refl (asked : Option UInt32) (m : AgpsStateMachine) : Reports w asked m m :=
  ⟨⟨[], by simp, by simp⟩, fun _ => .inl⟩

theorem Reports.trans (h : Reports w asked m m') (h' : Reports w asked m' m'') :
    Reports w asked m m'' := by
  obtain ⟨acts, hlog, hacts⟩ := h.log
  obtain ⟨acts', hlog', hacts'⟩ := h'.log
  have hback : ∀ handle, m'.Lists w handle ∨ asked = some handle →
      m.Lists w handle ∨ asked = some handle := fun handle hl => hl.elim (h.lists handle) .inr
  refine ⟨⟨acts ++ acts', by rw [hlog', hlog, List.append_assoc], fun a ha handle hr => ?_⟩,
    fun handle hl => hback handle (h'.lists handle hl)⟩
  rcases List.mem_append.1 ha with ha | ha
  · exact hacts a ha handle hr
  · exact hback handle (hacts' a ha handle hr)

theorem Quiet.refl (m : AgpsStateMachine) : Quiet m m := ⟨[], by simp, by simp⟩

theorem Quiet.trans (h : Quiet m m') (h' : Quiet m' m'') : Quiet m m'' := by
  obtain ⟨acts, hlog, hacts⟩ := h
  obtain ⟨acts', hlog', hacts'⟩ := h'
  refine ⟨acts ++ acts', by rw [hlog', hlog, List.append_assoc], fun a ha => ?_⟩
  exact (List.mem_append.1 ha).elim (hacts a) (hacts' a)

theorem Quiet.of_log (h : m'.log = m.log) : Quiet m m' := ⟨[], by simp [h], by simp⟩

theorem Quiet.ends (h : Quiet m m') : Ends w m m' := by
  obtain ⟨acts, hlog, hacts⟩ := h
  exact ⟨acts, hlog, fun a ha handle ho => absurd ((hacts a ha).symm.trans ho) (by simp)⟩

theorem Ends.then_quiet (h : Ends w m m') (h' : Quiet m' m'') (hlist : SameList m' m'') :
    Ends w m m'' := by
  obtain ⟨acts, hlog, hacts⟩ := h
  obtain ⟨acts', hlog', hacts'⟩ := h'
  refine ⟨acts ++ acts', by rw [hlog', hlog, List.append_assoc], fun a ha handle ho => ?_⟩
  rw [hlist.lists w]
  rcases List.mem_append.1 ha with ha | ha
  · exact hacts a ha handle ho
  · exact absurd ((hacts' a ha).symm.trans ho) (by simp)

/-! ## Subscribers that are told -/

variable {status : AgpsRsrcStatus} {s : Subscriber}

theorem handle_of_mem_acts {a : Act} {h : UInt32} (hs : s.kind = .ds)
    (ha : a ∈ m.acts status s) (hh : a.report = some h ∨ a.ended = some h) : s.ID = h := by
  obtain ⟨i, c⟩ := s
  unfold acts tell at ha
  cases c <;> simp_all [Subscriber.kind, SubscriberClass.kind]
  cases status <;> simp_all [put, informStatus] <;>
    rcases ha with rfl | rfl <;> simp_all [Act.report, Act.ended]

theorem over_of_mem_acts_granted {a : Act} (ha : a ∈ m.acts .granted s) : a.ended = none := by
  unfold acts tell at ha
  cases hs : s.cls <;> simp_all [put, informStatus] <;> rcases ha with rfl | rfl <;> rfl

variable {ts : List Subscriber}

theorem Told.reports (h : Told status ts m m')
    (hts : ∀ s ∈ ts, s.kind = .ds ∧ (m.Lists w s.ID ∨ asked = some s.ID))
    (hlists : ∀ h, m'.Lists w h → m.Lists w h ∨ asked = some h) : Reports w asked m m' := by
  refine ⟨⟨_, h.log, fun a ha handle hr => ?_⟩, hlists⟩
  obtain ⟨s, hs, ha⟩ := List.mem_flatMap.1 ha
  rw [← handle_of_mem_acts (hts s hs).1 ha (.inl hr)]
  exact (hts s hs).2

theorem Told.quiet (h : Told .granted ts m m') : Quiet m m' := by
  refine ⟨_, h.log, fun a ha => ?_⟩
  obtain ⟨s, -, ha⟩ := List.mem_flatMap.1 ha
  exact over_of_mem_acts_granted ha

theorem Walked.lists (h : Walked w status ts m m') (handle : UInt32) (hl : m'.Lists w handle) :
    m.Lists w handle := by
  obtain ⟨p, hp, hID⟩ := hl
  exact ⟨p, h.sub.subset hp, by rw [← h.deref_of_mem w hp, hID]⟩

theorem Walked.reports (h : Walked w status ts m m') (hk : OneKind w .ds m)
    (asked : Option UInt32) : Reports w asked m m' := by
  refine h.toTold.reports w (fun s hs => ?_) fun handle hl => .inl (h.lists w handle hl)
  obtain ⟨p, hp, -, rfl⟩ := h.listed s hs
  exact ⟨hk.kind p hp, .inl ⟨p, hp, rfl⟩⟩

theorem OneKind.eq_of_ID (hk : OneKind w .ds m) {p q : Nat}
    (hp : p ∈ m.mSubscribers) (hq : q ∈ m.mSubscribers)
    (hID : (m.deref w p).ID = (m.deref w q).ID) : p = q := by
  have hwait : ∀ r ∈ m.mSubscribers, (m.deref w r).waitForCloseComplete = true := by
    intro r hr
    have hkind := hk.kind r hr
    unfold Subscriber.waitForCloseComplete
    unfold Subscriber.kind at hkind
    cases hc : (m.deref w r).cls <;> simp_all [SubscriberClass.kind]
  have hequal : ∀ r ∈ m.mSubscribers, ∀ r', (m.deref w r).ID = (m.deref w r').ID →
      (m.deref w r).equals w (m.deref w r') = true := by
    intro r hr r' h
    rw [Subscriber.equals_of_wait w (hwait r hr), h, beq_self_eq_true]
  by_contra hne
  rcases List.pairwise_iff_getElem.1 hk.distinct with hpair
  obtain ⟨i, hi, rfl⟩ := List.getElem_of_mem hp
  obtain ⟨j, hj, rfl⟩ := List.getElem_of_mem hq
  rcases Nat.lt_trichotomy i j with hij | rfl | hij
  · have := hpair i j hi hj hij
    rw [hequal _ hp _ hID] at this
    exact absurd this (by simp)
  · exact hne rfl
  · have := hpair j i hj hi hij
    rw [hequal _ hq _ hID.symm] at this
    exact absurd this (by simp)

theorem Walked.ends (h : Walked w status ts m m') (hk : OneKind w .ds m) : Ends w m m' := by
  refine ⟨_, h.log, fun a ha handle ho => ?_⟩
  obtain ⟨s, hs, ha⟩ := List.mem_flatMap.1 ha
  obtain ⟨p, hp, hgone, rfl⟩ := h.listed s hs
  have hID := handle_of_mem_acts (hk.kind p hp) ha (.inr ho)
  rintro ⟨q, hq, hqID⟩
  have hqp : q = p := by
    refine hk.eq_of_ID w (h.sub.subset hq) hp ?_
    rw [← h.deref_of_mem w hq, hqID, hID]
  exact hgone (hqp ▸ hq)

/-! ## One event -/

/-- How the start of the call for `handle` goes with `retries` earlier refusals: what is said, the
    refusals after it, and the result. -/
inductive Started (answers : Answers) (handle : UInt32) (retries : UInt8) :
    List Act → UInt8 → Int → Prop where
  | tooBusy (hret : answers.ret = errEngineBusy) (hmany : maxStartDataCallRetries < retries + 1) :
      Started answers handle retries
        [.openAndStartDataCall errEngineBusy, .requestATL handle agpsTypeSupl] 0 errEngineBusy
  | busy (hret : answers.ret = errEngineBusy) (hfew : ¬ maxStartDataCallRetries < retries + 1) :
      Started answers handle retries [.openAndStartDataCall errEngineBusy, .timerStart] (retries + 1)
        (if answers.timer then -1 else errEngineBusy)
  | refused (hret : answers.ret = errUnsupported ∨ answers.ret = -1) :
      Started answers handle retries
        [.openAndStartDataCall answers.ret, .requestATL handle agpsTypeSupl] 0 answers.ret
  | sent (hret : answers.ret = errSuccess) :
      Started answers handle retries [.openAndStartDataCall answers.ret] retries answers.ret
  | unrecognized (hret : answers.ret ∉ [errEngineBusy, errUnsupported, errSuccess, -1]) :
      Started answers handle retries [.openAndStartDataCall answers.ret] retries answers.ret

theorem sendRsrcRequest_started (hds : m.isDS = true) (answers : Answers) :
    ∃ acts, (m.sendRsrcRequest w answers .requestAgpsDataConn).1.log = m.log ++ acts ∧
      Started answers (m.connHandle w) m.mRetries acts
        (m.sendRsrcRequest w answers .requestAgpsDataConn).1.mRetries
        (m.sendRsrcRequest w answers .requestAgpsDataConn).2 := by
  unfold sendRsrcRequest
  rw [if_pos hds]
  unfold sendRsrcRequestDS
  simp only [dataCallCb]
  by_cases hbusy : answers.ret = errEngineBusy
  · by_cases hmany : maxStartDataCallRetries < m.mRetries + 1
    · simp only [hbusy, put, hmany, if_true, informStatus]
      exact ⟨_, List.append_assoc .., .tooBusy hbusy hmany⟩
    · simp only [hbusy, put, hmany, if_true, if_false]
      exact ⟨_, List.append_assoc .., .busy hbusy hmany⟩
  by_cases hunsupported : answers.ret = errUnsupported
  · simp only [eq_false hbusy, eq_true hunsupported, if_true, if_false, put, informStatus]
    exact ⟨_, List.append_assoc .., .refused (.inl hunsupported)⟩
  by_cases hsuccess : answers.ret = errSuccess
  · simp only [eq_false hbusy, eq_false hunsupported, eq_true hsuccess, if_true, if_false, put]
    exact ⟨_, rfl, .sent hsuccess⟩
  by_cases herror : answers.ret = -1
  · simp only [eq_false hbusy, eq_false hunsupported, eq_false hsuccess, eq_true herror, if_true,
      if_false, put, informStatus]
    exact ⟨_, List.append_assoc .., .refused (.inr herror)⟩
  · simp only [eq_false hbusy, eq_false hunsupported, eq_false hsuccess, eq_false herror, if_false,
      put]
    exact ⟨_, rfl, .unrecognized (by simp [hbusy, hunsupported, hsuccess, herror])⟩

theorem sendRsrcRequest_stopped (hds : m.isDS = true) (answers : Answers) :
    (m.sendRsrcRequest w answers .releaseAgpsDataConn).1 = m.put .stopDataCall := by
  unfold sendRsrcRequest
  rw [if_pos hds]
  simp [sendRsrcRequestDS, dataCallCb, errEngineBusy, errUnsupported, errSuccess]

theorem Started.report {handle : UInt32} {r r' : UInt8} {acts : List Act} {ret : Int}
    (h : Started answers handle r acts r' ret) : ∀ a ∈ acts, a.report = none := by
  cases h <;> simp [Act.report]

theorem Started.ended {acts : List Act} {handle : UInt32} {r' : UInt8} {ret : Int}
    (h : Started answers handle m.mRetries acts r' ret) (hstarts : Starts answers m) :
    ∀ a ∈ acts, a.ended = none := by
  obtain ⟨hunsupported, herror, hbusy⟩ := hstarts
  cases h with
  | tooBusy hret hmany =>
    have hlt := hbusy hret
    exact absurd hmany (by grind)
  | refused hret => exact absurd hret (by simp [hunsupported, herror])
  | _ => simp [Act.ended]

theorem sendRsrcRequest_log (hds : m.isDS = true) (answers : Answers) (action : AGpsStatusValue) :
    ∃ acts, (m.sendRsrcRequest w answers action).1.log = m.log ++ acts ∧
      (∀ a ∈ acts, a.report = none) ∧
      (action = .releaseAgpsDataConn ∨ Starts answers m → ∀ a ∈ acts, a.ended = none) := by
  cases action with
  | releaseAgpsDataConn =>
    rw [sendRsrcRequest_stopped w hds]
    exact ⟨_, rfl, by simp [Act.report], by simp [Act.ended]⟩
  | requestAgpsDataConn =>
    obtain ⟨acts, hlog, hstarted⟩ := sendRsrcRequest_started w hds answers
    refine ⟨acts, hlog, hstarted.report, ?_⟩
    rintro (h | h)
    · cases h
    · exact hstarted.ended h

theorem sendRsrcRequest_reports (hds : m.isDS = true) (answers : Answers)
    (action : AGpsStatusValue) (asked : Option UInt32) :
    Reports w asked m (m.sendRsrcRequest w answers action).1 := by
  obtain ⟨acts, hlog, hreport, -⟩ := sendRsrcRequest_log w hds answers action
  have hlist := (sendRsrcRequest_talk w answers action m).toSameList
  refine ⟨⟨acts, hlog, fun a ha handle hr => ?_⟩, fun handle hl => .inl ((hlist.lists w handle).1 hl)⟩
  exact absurd ((hreport a ha).symm.trans hr) (by simp)

theorem sendRsrcRequest_quiet (hds : m.isDS = true) {action : AGpsStatusValue}
    (h : action = .releaseAgpsDataConn ∨ Starts answers m) :
    Quiet m (m.sendRsrcRequest w answers action).1 := by
  obtain ⟨acts, hlog, -, hover⟩ := sendRsrcRequest_log w hds answers action
  exact ⟨acts, hlog, hover h⟩

theorem addSubscriber_reports (hm : m.Heaped) (s : Subscriber) :
    Reports w (some s.ID) m (m.addSubscriber w s) := by
  refine ⟨⟨[], by simp [(addSubscriber_log w s m).1], by simp⟩, fun handle hl => ?_⟩
  unfold addSubscriber at hl
  split at hl
  · exact .inl hl
  · obtain ⟨p, hp, hID⟩ := hl
    rcases List.mem_cons.1 hp with rfl | hp
    · rw [deref_linkedListAdd_self, Subscriber.clone_ID] at hID
      exact .inr (by rw [hID])
    · rw [deref_linkedListAdd w hm _ hp] at hID
      exact .inl ⟨p, hp, hID⟩

variable {n : Notification}

theorem notifySubscribers_reports (h : n.rsrcStatus.told = true) (hm : m.Heaped)
    (hk : OneKind w .ds m) (asked : Option UInt32) :
    Reports w asked m (m.notifySubscribers w n) := by
  cases hdel : n.postNotifyDelete with
  | true =>
    obtain ⟨ts, hwalk, -⟩ := notifySubscribers_walked w h hdel hm
    exact hwalk.reports w hk asked
  | false =>
    obtain ⟨hlist, htold⟩ := notifySubscribers_keep w h hdel m
    refine htold.reports w (fun s hs => ?_) fun handle hl => .inl ((hlist.lists w handle).1 hl)
    obtain ⟨p, hp, rfl⟩ := List.mem_map.1 (List.mem_filter.1 hs).1
    exact ⟨hk.kind p hp, .inl ⟨p, hp, rfl⟩⟩

variable {p : Nat}

theorem leave_eq (hk : OneKind w .ds m) (hp : p ∈ m.mSubscribers) :
    m.leave w p = ({ m with heap := Function.update m.heap p (some (m.deref w p).inactive) }
      : AgpsStateMachine).put (.atlCloseStatus (m.deref w p).ID true) := by
  have hkind := hk.kind p hp
  unfold leave setInactive Subscriber.waitForCloseComplete
  unfold Subscriber.kind at hkind
  cases hc : (m.deref w p).cls <;> simp_all [SubscriberClass.kind, informStatus]

theorem leave_reports (hk : OneKind w .ds m) (hp : p ∈ m.mSubscribers) (asked : Option UInt32) :
    Reports w asked m (m.leave w p) := by
  rw [leave_eq w hk hp]
  refine ⟨⟨_, rfl, fun a ha handle hr => ?_⟩, fun handle hl => .inl ?_⟩
  · obtain rfl := List.mem_singleton.1 ha
    exact .inl ⟨p, hp, by simpa [Act.report] using hr⟩
  · obtain ⟨q, hq, hID⟩ := hl
    refine ⟨q, hq, ?_⟩
    by_cases hqp : q = p
    · subst hqp
      simpa [put, deref] using hID
    · simpa [put, deref, hqp] using hID

theorem leave_quiet (hk : OneKind w .ds m) (hp : p ∈ m.mSubscribers) : Quiet m (m.leave w p) := by
  rw [leave_eq w hk hp]
  exact ⟨_, rfl, by simp [Act.ended]⟩

theorem leave_isDS (hm : m.Heaped) (hds : m.isDS = true) (p : Nat) : (m.leave w p).isDS = true :=
  (leave_commands w hm p).2.trans hds

/-- The invariant of the emergency machine. -/
structure Emergency (m : AgpsStateMachine) : Prop extends Holding w m, OneKind w .ds m where
  isDS : m.isDS = true
  shared : m.mEnforceSingleSubscriber = false

theorem Part.mEnforceSingleSubscriber (h : Part w event m m') :
    m'.mEnforceSingleSubscriber = m.mEnforceSingleSubscriber := by
  cases h with
  | talk h | walk _ h => exact h.mEnforceSingleSubscriber
  | inactive _ _ _ _ hsame => exact hsame.mEnforceSingleSubscriber
  | add _ _ h => rw [h, linkedListAdd]

theorem Emergency.stateOnRsrcEvent (h : Emergency w m) (answers : Answers)
    (hlisted : Listed event m) (hkind : ∀ s, event = .subscribe s → s.kind = .ds) :
    Emergency w (m.stateOnRsrcEvent w answers event) := by
  have hholding := h.toHolding.stateOnRsrcEvent w answers hlisted
  have hone := h.toOneKind.stateOnRsrcEvent w h.heaped answers hlisted hkind
  obtain ⟨m₁, state, hparts, heq⟩ := stateOnRsrcEvent_parts w h.heaped answers event
  have hkeep : m₁.isDS = true ∧ m₁.mEnforceSingleSubscriber = false := by
    refine Parts.keep w hparts (P := fun m => m.isDS = true ∧ m.mEnforceSingleSubscriber = false)
      (fun m m' hpart hm => ?_) ⟨h.isDS, h.shared⟩
    exact ⟨(hpart.isDS w).trans hm.1, (hpart.mEnforceSingleSubscriber w).trans hm.2⟩
  refine ⟨hholding, hone, ?_, ?_⟩
  · rw [heq]
    exact hkeep.1
  · rw [heq]
    exact hkeep.2

theorem Talk.emergency (h : Talk m m') (hm : Emergency w m) : Emergency w m' where
  toHolding := h.holding w hm.toHolding
  toOneKind := by
    have hpart : Part w .granted m m' := .talk h
    exact hpart.oneKind w hm.heaped hm.toOneKind (by simp)
  isDS := h.isDS.trans hm.isDS
  shared := h.mEnforceSingleSubscriber.trans hm.shared

theorem unsubscribed_reports (h : Emergency w m) (here : AgpsState) (hp : p ∈ m.mSubscribers)
    (asked : Option UInt32) : Reports w asked m (m.unsubscribed w here p).1 := by
  have hleave := leave_reports w h.toOneKind hp asked
  have hds := leave_isDS w h.heaped h.isDS p
  unfold unsubscribed
  simp only
  split
  · exact hleave.trans w (sendRsrcRequest_reports w hds ..)
  split
  · exact hleave.trans w (sendRsrcRequest_reports w hds ..)
  · exact hleave

theorem closed_reports (h : Emergency w m) (answers : Answers) (hstatus : status.told = true)
    (asked : Option UInt32) : Reports w asked m (m.closed w answers status).1 := by
  have hwalk := notifySubscribers_reports w (n := ⟨.broadcastInactive, status, true⟩) hstatus
    h.heaped h.toOneKind asked
  have hds := (notifySubscribers_commands w (n := ⟨.broadcastInactive, status, true⟩) hstatus
    h.heaped).2.trans h.isDS
  unfold closed
  simp only
  split
  · exact hwalk.trans w (sendRsrcRequest_reports w hds ..)
  · exact hwalk

theorem notifyRsrcStatus_reports (h : n.rsrcStatus.told = true)
    (hs : s.kind = .ds ∧ (m.Lists w s.ID ∨ asked = some s.ID)) :
    Reports w asked m (m.notifyRsrcStatus w s n).1 := by
  obtain ⟨-, hlist, -, htold⟩ := notifyRsrcStatus_told w h s m
  refine htold.reports w (fun t ht => ?_) fun handle hl => .inl ((hlist.lists w handle).1 hl)
  split at ht
  · exact List.mem_singleton.1 ht ▸ hs
  · cases ht

theorem notifyRsrcStatus_heaped (h : n.rsrcStatus.told = true) (s : Subscriber) (hm : m.Heaped) :
    (m.notifyRsrcStatus w s n).1.Heaped :=
  (Part.talk (notifyRsrcStatus_talk w h s m) : Part w .granted m _).heaped w hm (by simp)

theorem releasedOnRsrcEvent_reports (h : Emergency w m) (answers : Answers)
    (hlisted : Listed event m) :
    Reports w event.asks m (m.releasedOnRsrcEvent w answers event).1 := by
  cases event with
  | subscribe s =>
    have hds := (addSubscriber_log w s m).2.trans h.isDS
    exact (addSubscriber_reports w h.heaped s).trans w (sendRsrcRequest_reports w hds ..)
  | unsubscribe p =>
    have hp := hlisted p rfl
    exact notifyRsrcStatus_reports w (n := ⟨.rcver (.cell p), .unsubscribe, false⟩) rfl
      ⟨h.kind p hp, .inl ⟨p, hp, rfl⟩⟩
  | _ => exact Reports.refl w _ m

theorem pendingOnRsrcEvent_reports (h : Emergency w m) (hlisted : Listed event m) :
    Reports w event.asks m (m.pendingOnRsrcEvent w event).1 := by
  cases event with
  | subscribe s => exact addSubscriber_reports w h.heaped s
  | unsubscribe p => exact unsubscribed_reports w h .pending (hlisted p rfl) _
  | granted =>
    exact notifySubscribers_reports w (n := ⟨.broadcastActive, .granted, false⟩) rfl h.heaped
      h.toOneKind _
  | released => exact Reports.refl w _ m
  | denied =>
    exact notifySubscribers_reports w (n := ⟨.broadcastAll, .denied, true⟩) rfl h.heaped
      h.toOneKind _

theorem acquiredOnRsrcEvent_reports (h : Emergency w m) (hlisted : Listed event m)
    (hkind : ∀ s, event = .subscribe s → s.kind = .ds) :
    Reports w event.asks m (m.acquiredOnRsrcEvent w event).1 := by
  cases event with
  | subscribe s =>
    have hgranted : Reports w (some s.ID) m
        (m.notifyRsrcStatus w s ⟨.rcver (.caller s), .granted, false⟩).1 :=
      notifyRsrcStatus_reports w rfl ⟨hkind s rfl, .inr rfl⟩
    exact hgranted.trans w (addSubscriber_reports w (notifyRsrcStatus_heaped w rfl s h.heaped) s)
  | unsubscribe p => exact unsubscribed_reports w h .acquired (hlisted p rfl) _
  | granted => exact Reports.refl w _ m
  | released =>
    exact notifySubscribers_reports w (n := ⟨.broadcastAll, .released, true⟩) rfl h.heaped
      h.toOneKind _
  | denied => exact Reports.refl w _ m

theorem releasingOnRsrcEvent_reports (h : Emergency w m) (answers : Answers)
    (hlisted : Listed event m) :
    Reports w event.asks m (m.releasingOnRsrcEvent w answers event).1 := by
  cases event with
  | subscribe s => exact addSubscriber_reports w h.heaped s
  | unsubscribe p => exact leave_reports w h.toOneKind (hlisted p rfl) _
  | granted => exact Reports.refl w _ m
  | released | denied => exact closed_reports w h answers rfl _

/-- **One event** speaks only of handles that are listed, or of the one that asks. -/
theorem stateOnRsrcEvent_reports (h : Emergency w m) (answers : Answers)
    (hlisted : Listed event m) (hkind : ∀ s, event = .subscribe s → s.kind = .ds) :
    Reports w event.asks m (m.stateOnRsrcEvent w answers event) := by
  have hnext : ∀ r : AgpsStateMachine × AgpsState, Reports w event.asks m r.1 →
      Reports w event.asks m { r.1 with mStatePtr := r.2 } := fun r hr => ⟨hr.log, hr.lists⟩
  unfold stateOnRsrcEvent
  cases m.mStatePtr with
  | released => exact hnext _ (releasedOnRsrcEvent_reports w h answers hlisted)
  | pending => exact hnext _ (pendingOnRsrcEvent_reports w h hlisted)
  | acquired => exact hnext _ (acquiredOnRsrcEvent_reports w h hlisted hkind)
  | releasing => exact hnext _ (releasingOnRsrcEvent_reports w h answers hlisted)

/-! ## The end of a handle -/

/-- The condition on an event: no start of the call hands over a handle from within, and no handle
    that waits to be tried again is released. -/
structure EndsWell (answers : Answers) (event : RsrcEvent) (m : AgpsStateMachine) : Prop where
  start : m.mStatePtr = .released → ∀ s, event = .subscribe s → Starts answers m
  wait : m.mStatePtr = .released → ∀ p, event ≠ .unsubscribe p
  again : m.mStatePtr = .releasing → event.loss = true → m.Active w → Starts answers m

theorem addSubscriber_mRetries (s : Subscriber) (m : AgpsStateMachine) :
    (m.addSubscriber w s).mRetries = m.mRetries := by
  unfold addSubscriber
  split <;> rfl

theorem Told.mRetries_eq (h : Told status ts m m') :
    m'.mRetries = m.mRetries ∨ m'.mRetries = 0 := by
  have hfold : ∀ (ts : List Subscriber) (r : UInt8),
      ts.foldl (fun r s => retriesAfter status s r) r = r ∨
        ts.foldl (fun r s => retriesAfter status s r) r = 0 := by
    intro ts
    induction ts with
    | nil => exact fun r => .inl rfl
    | cons t ts ih =>
      intro r
      rw [List.foldl_cons]
      unfold retriesAfter at ih ⊢
      split
      · exact .inr ((ih 0).elim id id)
      · exact ih r
  rw [h.mRetries]
  exact hfold ts m.mRetries

theorem Told.starts (h : Told status ts m m') (hstarts : Starts answers m) : Starts answers m' := by
  refine ⟨hstarts.1, hstarts.2.1, fun hbusy => ?_⟩
  rcases h.mRetries_eq with hr | hr
  · rw [hr]
    exact hstarts.2.2 hbusy
  · rw [hr]
    decide

theorem Walked.active (h : Walked w status ts m m') (hactive : m'.Active w) : m.Active w := by
  obtain ⟨p, hp, hp'⟩ := hactive
  exact ⟨p, h.sub.subset hp, by rw [← h.deref_of_mem w hp, hp']⟩

theorem unsubscribed_quiet (h : Emergency w m) (here : AgpsState) (hp : p ∈ m.mSubscribers) :
    Quiet m (m.unsubscribed w here p).1 := by
  have hleave := leave_quiet w h.toOneKind hp
  have hds := leave_isDS w h.heaped h.isDS p
  unfold unsubscribed
  simp only
  split
  · exact hleave.trans (sendRsrcRequest_quiet w hds (.inl rfl))
  split
  · exact hleave.trans (sendRsrcRequest_quiet w hds (.inl rfl))
  · exact hleave

theorem notifySubscribers_ends (h : n.rsrcStatus.told = true) (hdel : n.postNotifyDelete = true)
    (hm : Emergency w m) : Ends w m (m.notifySubscribers w n) := by
  obtain ⟨ts, hwalk, -⟩ := notifySubscribers_walked w h hdel hm.heaped
  exact hwalk.ends w hm.toOneKind

theorem closed_ends (h : Emergency w m) (hstatus : status.told = true)
    (hstarts : m.Active w → Starts answers m) : Ends w m (m.closed w answers status).1 := by
  obtain ⟨ts, hwalk, -⟩ := notifySubscribers_walked w
    (n := ⟨.broadcastInactive, status, true⟩) hstatus rfl h.heaped
  unfold closed
  simp only
  split
  · next hactive =>
    have hstarts' := hwalk.toTold.starts
      (hstarts (hwalk.active w ((hasActiveSubscribers_iff w _).1 hactive)))
    exact (hwalk.ends w h.toOneKind).then_quiet w
      (sendRsrcRequest_quiet w (hwalk.isDS.trans h.isDS) (.inr hstarts'))
      (sendRsrcRequest_talk w ..).toSameList
  · exact hwalk.ends w h.toOneKind

theorem releasedOnRsrcEvent_ends (h : Emergency w m) (hs : m.mStatePtr = .released)
    (hends : EndsWell w answers event m) : Ends w m (m.releasedOnRsrcEvent w answers event).1 := by
  cases event with
  | subscribe s =>
    obtain ⟨hlog, hds⟩ := addSubscriber_log w s m
    have hstarts := hends.start hs s rfl
    have hstarts' : Starts answers (m.addSubscriber w s) :=
      ⟨hstarts.1, hstarts.2.1, fun hbusy => by
        rw [addSubscriber_mRetries]
        exact hstarts.2.2 hbusy⟩
    exact ((Quiet.of_log hlog).trans
      (sendRsrcRequest_quiet w (hds.trans h.isDS) (.inr hstarts'))).ends w
  | unsubscribe p => exact absurd rfl (hends.wait hs p)
  | _ => exact (Quiet.refl m).ends w

theorem pendingOnRsrcEvent_ends (h : Emergency w m) (hlisted : Listed event m) :
    Ends w m (m.pendingOnRsrcEvent w event).1 := by
  cases event with
  | subscribe s => exact (Quiet.of_log (addSubscriber_log w s m).1).ends w
  | unsubscribe p => exact (unsubscribed_quiet w h .pending (hlisted p rfl)).ends w
  | granted =>
    obtain ⟨-, htold⟩ :=
      notifySubscribers_keep w (n := ⟨.broadcastActive, .granted, false⟩) rfl rfl m
    exact htold.quiet.ends w
  | released => exact (Quiet.refl m).ends w
  | denied => exact notifySubscribers_ends w rfl rfl h

theorem acquiredOnRsrcEvent_ends (h : Emergency w m) (hlisted : Listed event m) :
    Ends w m (m.acquiredOnRsrcEvent w event).1 := by
  cases event with
  | subscribe s =>
    obtain ⟨-, -, -, htold⟩ :=
      notifyRsrcStatus_told w (n := ⟨.rcver (.caller s), .granted, false⟩) rfl s m
    exact (htold.quiet.trans (Quiet.of_log (addSubscriber_log w s _).1)).ends w
  | unsubscribe p => exact (unsubscribed_quiet w h .acquired (hlisted p rfl)).ends w
  | granted => exact (Quiet.refl m).ends w
  | released => exact notifySubscribers_ends w rfl rfl h
  | denied => exact (Quiet.refl m).ends w

theorem releasingOnRsrcEvent_ends (h : Emergency w m) (hs : m.mStatePtr = .releasing)
    (hends : EndsWell w answers event m) (hlisted : Listed event m) :
    Ends w m (m.releasingOnRsrcEvent w answers event).1 := by
  cases event with
  | subscribe s => exact (Quiet.of_log (addSubscriber_log w s m).1).ends w
  | unsubscribe p => exact (leave_quiet w h.toOneKind (hlisted p rfl)).ends w
  | granted => exact (Quiet.refl m).ends w
  | released | denied => exact closed_ends w h rfl (hends.again hs rfl)

/-- **One event** that meets the condition: what it says to be over is not on the list. -/
theorem stateOnRsrcEvent_ends (h : Emergency w m) (hlisted : Listed event m)
    (hends : EndsWell w answers event m) : Ends w m (m.stateOnRsrcEvent w answers event) := by
  have hnext : ∀ r : AgpsStateMachine × AgpsState, Ends w m r.1 →
      Ends w m { r.1 with mStatePtr := r.2 } := fun r hr => hr
  unfold stateOnRsrcEvent
  cases hs : m.mStatePtr with
  | released => exact hnext _ (releasedOnRsrcEvent_ends w h hs hends)
  | pending => exact hnext _ (pendingOnRsrcEvent_ends w h hlisted)
  | acquired => exact hnext _ (acquiredOnRsrcEvent_ends w h hlisted)
  | releasing => exact hnext _ (releasingOnRsrcEvent_ends w h hs hends hlisted)

/-! ## One call -/

theorem stateOnRsrcEvent_releasing (hs : m.mStatePtr = .releasing) (answers : Answers) :
    (m.stateOnRsrcEvent w answers .released).mStatePtr ≠ .releasing := by
  unfold stateOnRsrcEvent
  simp only [hs, releasingOnRsrcEvent, closed]
  split <;> simp

end AgpsStateMachine

/-- The handle that a call is a request of. -/
def AgpsCall.asks : AgpsCall → Option UInt32
  | .subscribeRsrc s _ => some s.ID
  | _ => none

namespace AgpsStateMachine

variable (w : StrayMemory) {m m' m'' : AgpsStateMachine} {event : RsrcEvent} {answers : Answers}
  {call : AgpsCall}

theorem ofStatus_asks {status : AgpsRsrcStatus} {e : RsrcEvent} (h : ofStatus status = some e) :
    e.asks = none := by
  cases status <;> simp [ofStatus] at h <;> subst h <;> rfl

theorem ofStatus_kind {status : AgpsRsrcStatus} {e : RsrcEvent} (h : ofStatus status = some e)
    (s : Subscriber) (hs : e = .subscribe s) : s.kind = .ds := by
  subst hs
  exact absurd (ofStatus_asks h) (by simp [RsrcEvent.asks])

theorem listed_of_find {s : Subscriber} {p : Nat} (h : m.find w (.rcver (.caller s)) = some p) :
    Listed (.unsubscribe p) m := by
  intro q hq
  obtain rfl : p = q := by simpa using hq
  exact (find_caller_some w h).1

/-- **One call** to the emergency machine. -/
theorem Emergency.handle (h : Emergency w m) (hcall : call.OfKind .ds) :
    Emergency w (m.handle w call) ∧ Reports w call.asks m (m.handle w call) := by
  cases call with
  | subscribeRsrc s answers =>
    have hkind : ∀ t, RsrcEvent.subscribe s = .subscribe t → t.kind = .ds := by
      intro t ht
      obtain rfl : s = t := by simpa using ht
      exact hcall
    have heq : m.handle w (.subscribeRsrc s answers) =
        m.stateOnRsrcEvent w answers (.subscribe s) := by
      simp [AgpsStateMachine.handle, subscribeRsrc, h.shared]
    rw [heq]
    exact ⟨h.stateOnRsrcEvent w answers (by simp [Listed]) hkind,
      stateOnRsrcEvent_reports w h answers (by simp [Listed]) hkind⟩
  | unsubscribeRsrc s =>
    unfold AgpsStateMachine.handle unsubscribeRsrc
    simp only
    split
    · next p hfind =>
      have hlisted := listed_of_find w hfind
      exact ⟨h.stateOnRsrcEvent w {} hlisted (by simp),
        stateOnRsrcEvent_reports w h {} hlisted (by simp)⟩
    · exact ⟨h, Reports.refl w _ m⟩
  | onRsrcEvent status answers =>
    unfold AgpsStateMachine.handle onRsrcEvent
    simp only
    split
    · exact ⟨h, Reports.refl w _ m⟩
    · next e he =>
      have hstep := h.stateOnRsrcEvent w answers (listed_ofStatus he m) (ofStatus_kind he)
      have hreports := stateOnRsrcEvent_reports w h answers (listed_ofStatus he m)
        (ofStatus_kind he)
      rw [ofStatus_asks he] at hreports
      split
      · have hdenied : Listed .denied (m.stateOnRsrcEvent w answers e) := by simp [Listed]
        exact ⟨hstep.stateOnRsrcEvent w answers hdenied (by simp),
          hreports.trans w (stateOnRsrcEvent_reports w hstep answers hdenied (by simp))⟩
      · exact ⟨hstep, hreports⟩
  | retryCallback =>
    unfold AgpsStateMachine.handle retryCallback
    simp only
    split
    · next p hp =>
      refine ⟨Talk.emergency w (put_talk _ m) h, ⟨⟨_, rfl, by simp [Act.report]⟩, fun _ => .inl⟩⟩
    · exact ⟨h, Reports.refl w _ m⟩
  | setAPN apn =>
    exact ⟨⟨h.toHolding.handle w (.setAPN apn), ⟨h.kind, h.distinct⟩, h.isDS, h.shared⟩,
      ⟨⟨[], (List.append_nil _).symm, by simp⟩, fun _ => .inl⟩⟩
  | setBearer bearer =>
    exact ⟨⟨h.toHolding.handle w (.setBearer bearer), ⟨h.kind, h.distinct⟩, h.isDS, h.shared⟩,
      ⟨⟨[], (List.append_nil _).symm, by simp⟩, fun _ => .inl⟩⟩

/-- The condition on a call: the event it brings meets its own. -/
def HandsOverNone (m : AgpsStateMachine) : AgpsCall → Prop
  | .subscribeRsrc s answers => EndsWell w answers (.subscribe s) m
  | .unsubscribeRsrc s =>
    ∀ p, m.find w (.rcver (.caller s)) = some p → EndsWell w {} (.unsubscribe p) m
  | .onRsrcEvent status answers => ∀ e, ofStatus status = some e → EndsWell w answers e m
  | _ => True

theorem handle_ends (h : Emergency w m) (hcall : call.OfKind .ds) (hends : m.HandsOverNone w call) :
    Ends w m (m.handle w call) := by
  cases call with
  | subscribeRsrc s answers =>
    unfold handle subscribeRsrc
    simp only [h.shared, Bool.false_and, Bool.false_eq_true, if_false]
    exact stateOnRsrcEvent_ends w h (by simp [Listed]) hends
  | unsubscribeRsrc s =>
    unfold handle unsubscribeRsrc
    simp only
    split
    · next p hfind => exact stateOnRsrcEvent_ends w h (listed_of_find w hfind) (hends p hfind)
    · exact (Quiet.refl m).ends w
  | onRsrcEvent status answers =>
    unfold handle onRsrcEvent
    simp only
    split
    · exact (Quiet.refl m).ends w
    · next e he =>
      have hstep := h.stateOnRsrcEvent w answers (listed_ofStatus he m) (ofStatus_kind he)
      have hfirst := stateOnRsrcEvent_ends w h (listed_ofStatus he m) (hends e he)
      split
      · next hagain =>
        obtain ⟨⟨-, hreleased⟩, hsame⟩ : (m.isDS = true ∧ status = .released) ∧
            (m.stateOnRsrcEvent w answers e).mStatePtr = m.mStatePtr := by
          simpa using hagain
        subst hreleased
        obtain rfl : .released = e := by simpa [ofStatus] using he
        -- a release that is waited for changes the state
        have hne : (m.stateOnRsrcEvent w answers .released).mStatePtr ≠ .releasing := by
          intro hs
          exact stateOnRsrcEvent_releasing w (hsame.symm.trans hs) answers hs
        set again := m.stateOnRsrcEvent w answers .released
        have hsecond : Ends w again (again.stateOnRsrcEvent w answers .denied) :=
          stateOnRsrcEvent_ends w hstep (by simp [Listed])
            ⟨by simp, by simp, fun hs => absurd hs hne⟩
        have hreports : Reports w RsrcEvent.denied.asks again
            (again.stateOnRsrcEvent w answers .denied) :=
          stateOnRsrcEvent_reports w hstep answers (by simp [Listed]) (by simp)
        have hlists := hreports.lists
        obtain ⟨acts, hlog, hover⟩ := hfirst
        obtain ⟨acts', hlog', hover'⟩ := hsecond
        refine ⟨acts ++ acts', by rw [hlog', hlog, List.append_assoc], fun a ha handle ho => ?_⟩
        rcases List.mem_append.1 ha with ha | ha
        · intro hl
          exact hover a ha handle ho ((hlists handle hl).resolve_right (by simp [RsrcEvent.asks]))
        · exact hover' a ha handle ho
      · exact hfirst
  | retryCallback =>
    unfold handle retryCallback
    simp only
    split
    · exact Quiet.ends w ⟨_, rfl, by simp [Act.ended]⟩
    · exact (Quiet.refl m).ends w
  | setAPN apn | setBearer bearer => exact (Quiet.of_log rfl).ends w

/-! ## Runs -/

/-- The handles that were handed over or whose call is over, and that did not ask again since. -/
def nextGone (g : List UInt32) (e : AgpsCall × AgpsReply) : List UInt32 :=
  (g.filter fun h => e.1.asks != some h) ++ e.2.acts.filterMap Act.ended

def gone (tr : List (AgpsCall × AgpsReply)) : List UInt32 := tr.foldl nextGone []

theorem initDS_emergency : Emergency w initDS where
  heaped := ⟨List.nodup_nil, fun p hp => absurd hp List.not_mem_nil, fun _ _ => rfl⟩
  idle _ p hp := absurd hp List.not_mem_nil
  holds h := h.elim (fun h => by cases h) fun h => by cases h
  kind p hp := absurd hp List.not_mem_nil
  distinct := List.Pairwise.nil
  isDS := rfl
  shared := rfl

theorem Emergency.quiet (h : Emergency w m) :
    Emergency w ({ m with log := [] } : AgpsStateMachine) :=
  ⟨h.toHolding.quiet w, ⟨h.kind, h.distinct⟩, h.isDS, h.shared⟩

theorem HandsOverNone.quiet (h : m.HandsOverNone w call) :
    ({ m with log := [] } : AgpsStateMachine).HandsOverNone w call := by
  have hends : ∀ {answers event}, EndsWell w answers event m →
      EndsWell w answers event { m with log := [] } := fun h => ⟨h.start, h.wait, h.again⟩
  cases call with
  | subscribeRsrc s answers => exact hends h
  | unsubscribeRsrc s => exact fun p hp => hends (h p hp)
  | onRsrcEvent status answers => exact fun e he => hends (h e he)
  | _ => trivial

theorem step_gone (h : Emergency w m) {r : AgpsReply} (hcall : call.OfKind .ds)
    (hends : m.HandsOverNone w call) (hstep : step w m call = .ok (m', r)) {g : List UInt32}
    (hg : ∀ handle ∈ g, ¬ m.Lists w handle) :
    ∀ handle ∈ nextGone g (call, r), ¬ m'.Lists w handle := by
  obtain ⟨rfl, hacts, -⟩ := step_ok w hstep
  have hlists := ((h.quiet w).handle w hcall).2.lists
  obtain ⟨acts, hlog, hover⟩ := handle_ends w (h.quiet w) hcall (hends.quiet w)
  intro handle hmem
  rcases List.mem_append.1 hmem with hmem | hmem
  · obtain ⟨hmem, hasks⟩ := List.mem_filter.1 hmem
    intro hl
    rcases hlists handle hl with hl | hl
    · exact hg handle hmem hl
    · simp [hl] at hasks
  · obtain ⟨a, ha, ho⟩ := List.mem_filterMap.1 hmem
    rw [hacts, hlog] at ha
    exact hover a (by simpa using ha) handle ho

theorem step_reports (h : Emergency w m) {r : AgpsReply} (hcall : call.OfKind .ds)
    (hstep : step w m call = .ok (m', r)) {handle : UInt32} (hnot : ¬ m.Lists w handle)
    (hasks : call.asks ≠ some handle) : ∀ a ∈ r.acts, a.report ≠ some handle := by
  obtain ⟨rfl, hacts, -⟩ := step_ok w hstep
  obtain ⟨acts, hlog, hreports⟩ := ((h.quiet w).handle w hcall).2.log
  intro a ha hr
  rw [hacts, hlog] at ha
  exact (hreports a (by simpa using ha) handle hr).elim hnot hasks

/-- **Runs that hand nobody over from within a request.** A handle that is handed over or whose call
    is over is not on the list until it asks again. -/
theorem run_gone {tr : List (AgpsCall × AgpsReply)}
    (run : Run (step w) (fun m c => c.OfKind .ds ∧ m.HandsOverNone w c) initDS tr m) :
    Emergency w m ∧ ∀ handle ∈ gone tr, ¬ m.Lists w handle := by
  refine run.invariant (fun tr m => Emergency w m ∧ ∀ handle ∈ gone tr, ¬ m.Lists w handle) ?_ ?_
  · exact ⟨initDS_emergency w, by simp [gone]⟩
  · rintro tr m call m' r ⟨h, hg⟩ ⟨hcall, hends⟩ hstep
    have hnext := step_gone w h hcall hends hstep hg
    refine ⟨?_, by simpa [gone] using hnext⟩
    obtain ⟨rfl, -⟩ := step_ok w hstep
    exact (Emergency.handle w (h.quiet w) hcall).1

end AgpsStateMachine

end Nx508j.Loc
