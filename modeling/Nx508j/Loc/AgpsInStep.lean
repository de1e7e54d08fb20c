import Nx508j.Loc.AgpsParts

/-! # List, state and last command stay in step

Each transition looks at the list after it has told and deleted subscribers, and takes the next state
and the command to the connectivity service from what is left. -/

namespace Nx508j.Loc

open Nx508j.Lib

namespace AgpsStateMachine

variable (w : StrayMemory) {m m' m'' : AgpsStateMachine} {event : RsrcEvent} {answers : Answers}
  (s : Subscriber)

/-- There is an active subscriber. -/
def Active (m : AgpsStateMachine) : Prop := ∃ p ∈ m.mSubscribers, (m.deref w p).isInactive = false

/-- Every subscriber is active. -/
def AllActive (m : AgpsStateMachine) : Prop :=
  ∀ p ∈ m.mSubscribers, (m.deref w p).isInactive = false

/-- The commands in the log. -/
def commands (m : AgpsStateMachine) : List AGpsStatusValue := m.log.filterMap Act.command

theorem hasSubscribers_iff (m : AgpsStateMachine) :
    m.hasSubscribers = true ↔ m.mSubscribers ≠ [] := by
  simp [hasSubscribers]

theorem hasActiveSubscribers_iff (m : AgpsStateMachine) :
    m.hasActiveSubscribers w = true ↔ m.Active w := by
  simp [hasActiveSubscribers, find, Active, forMe]

theorem SameList.active (h : SameList m m') : m'.Active w ↔ m.Active w := by
  unfold Active
  rw [h.mSubscribers]
  simp only [h.deref]

theorem SameList.allActive (h : SameList m m') : m'.AllActive w ↔ m.AllActive w := by
  unfold AllActive
  rw [h.mSubscribers]
  simp only [h.deref]

/-! ## What an addition finds and leaves -/

/-- A caller that is not found equals none of the list. -/
theorem find_caller_none {s : Subscriber} (h : m.find w (.rcver (.caller s)) = none) :
    ∀ p ∈ m.mSubscribers, (m.deref w p).equals w s = false := by
  intro p hp
  simpa [forMe, load] using List.find?_eq_none.1 h p hp

theorem find_caller_some {s : Subscriber} {p : Nat} (h : m.find w (.rcver (.caller s)) = some p) :
    p ∈ m.mSubscribers ∧ (m.deref w p).equals w s = true :=
  ⟨List.mem_of_find?_eq_some h, by simpa [forMe, load] using List.find?_some h⟩

theorem deref_linkedListAdd_self (m : AgpsStateMachine) :
    (m.linkedListAdd s).deref w m.next = s := by
  simp [deref, linkedListAdd]

theorem deref_linkedListAdd (hm : m.Heaped) (s : Subscriber) {p : Nat} (hp : p ∈ m.mSubscribers) :
    (m.linkedListAdd s).deref w p = m.deref w p := by
  have hne : p ≠ m.next := Nat.ne_of_lt (hm.lt hp)
  simp [deref, linkedListAdd, hne]

theorem linkedListAdd_active (m : AgpsStateMachine) : (m.linkedListAdd s.clone).Active w :=
  ⟨m.next, List.mem_cons_self .., by rw [deref_linkedListAdd_self, Subscriber.clone_isInactive]⟩

theorem addSubscriber_ne_nil (m : AgpsStateMachine) : (m.addSubscriber w s).mSubscribers ≠ [] := by
  unfold addSubscriber
  split
  · next p hfind => exact List.ne_nil_of_mem (find_caller_some w hfind).1
  · exact List.cons_ne_nil _ _

theorem Active.addSubscriber (h : m.Active w) (s : Subscriber) :
    (m.addSubscriber w s).Active w := by
  unfold AgpsStateMachine.addSubscriber
  split
  · exact h
  · exact linkedListAdd_active w s m

theorem AllActive.addSubscriber (hm : m.Heaped) (h : m.AllActive w) (s : Subscriber) :
    (m.addSubscriber w s).AllActive w := by
  unfold AgpsStateMachine.addSubscriber
  split
  · exact h
  · intro p hp
    rcases List.mem_cons.1 hp with rfl | hp
    · rw [deref_linkedListAdd_self, Subscriber.clone_isInactive]
    · rw [deref_linkedListAdd w hm _ hp]
      exact h p hp

theorem AllActive.active (h : m.AllActive w) (hne : m.mSubscribers ≠ []) : m.Active w := by
  obtain ⟨p, hp⟩ := List.exists_mem_of_ne_nil _ hne
  exact ⟨p, hp, h p hp⟩

theorem addSubscriber_log (m : AgpsStateMachine) :
    (m.addSubscriber w s).log = m.log ∧ (m.addSubscriber w s).isDS = m.isDS := by
  unfold addSubscriber
  split <;> exact ⟨rfl, rfl⟩

/-! ## What a broadcast leaves -/

variable {status : AgpsRsrcStatus}

/-- A broadcast to all leaves none. -/
theorem broadcastAll_nil (h : status.told = true) (hm : m.Heaped) :
    (m.notifySubscribers w ⟨.broadcastAll, status, true⟩).mSubscribers = [] := by
  obtain ⟨ts, -, hall⟩ :=
    notifySubscribers_walked w (n := ⟨.broadcastAll, status, true⟩) h rfl hm
  rw [List.eq_nil_iff_forall_not_mem]
  intro p hp
  exact absurd (hall p hp) (by simp [forMe])

/-- One to the inactive leaves the active. -/
theorem broadcastInactive_allActive (h : status.told = true) (hm : m.Heaped) :
    (m.notifySubscribers w ⟨.broadcastInactive, status, true⟩).AllActive w := by
  obtain ⟨ts, -, hall⟩ :=
    notifySubscribers_walked w (n := ⟨.broadcastInactive, status, true⟩) h rfl hm
  exact fun p hp => by simpa [forMe] using hall p hp

theorem Walked.commands {ts : List Subscriber} (h : Walked w status ts m m') :
    m'.commands = m.commands :=
  h.toTold.commands

/-- Telling sends no command. -/
theorem notifySubscribers_commands {n : Notification} (h : n.rsrcStatus.told = true)
    (hm : m.Heaped) : (m.notifySubscribers w n).commands = m.commands ∧
      (m.notifySubscribers w n).isDS = m.isDS := by
  cases hdel : n.postNotifyDelete with
  | true =>
    obtain ⟨ts, hwalk, -⟩ := notifySubscribers_walked w h hdel hm
    exact ⟨hwalk.commands w, hwalk.isDS⟩
  | false =>
    obtain ⟨-, htold⟩ := notifySubscribers_keep w h hdel m
    exact ⟨htold.commands, htold.isDS⟩

theorem leave_commands (hm : m.Heaped) (p : Nat) :
    (m.leave w p).commands = m.commands ∧ (m.leave w p).isDS = m.isDS := by
  unfold leave
  split
  · unfold setInactive commands
    simp only
    split
    · exact ⟨by simp [informStatus, put, Act.command], rfl⟩
    · exact ⟨rfl, rfl⟩
  · exact notifySubscribers_commands w rfl hm

/-! ## A connection in use has an active subscriber -/

/-- What holds of every machine: while nothing is requested all subscribers are active, and a
    connection that is requested or there has one that is. -/
structure Holding (m : AgpsStateMachine) : Prop where
  heaped : m.Heaped
  idle : m.mStatePtr = .released → m.AllActive w
  holds : m.mStatePtr = .pending ∨ m.mStatePtr = .acquired → m.Active w

/-- The state `state` suits the list. -/
def Suits (state : AgpsState) (m : AgpsStateMachine) : Prop :=
  (state = .released → m.AllActive w) ∧ (state = .pending ∨ state = .acquired → m.Active w)

theorem SameList.suits {state : AgpsState} (h : SameList m m') (hm : Suits w state m) :
    Suits w state m' :=
  ⟨fun hs => (h.allActive w).2 (hm.1 hs), fun hs => (h.active w).2 (hm.2 hs)⟩

theorem suits_of_nil (hm : m.mSubscribers = []) : Suits w .released m :=
  ⟨fun _ p hp => absurd (hm ▸ hp) (by simp), by simp⟩

theorem suits_of_active {state : AgpsState} (hs : state ≠ .released) (hm : m.Active w) :
    Suits w state m :=
  ⟨fun h => absurd h hs, fun _ => hm⟩

theorem suits_releasing (m : AgpsStateMachine) : Suits w .releasing m := ⟨by simp, by simp⟩

/-- The state after one leaves suits those that stay. -/
theorem unsubscribed_suits (here : AgpsState) (hhere : here ≠ .released) (p : Nat)
    (m : AgpsStateMachine) :
    Suits w (m.unsubscribed w here p).2 (m.unsubscribed w here p).1 := by
  unfold unsubscribed
  simp only
  split
  · next hno =>
    have hnil : (m.leave w p).mSubscribers = [] := by
      simpa [hasSubscribers] using hno
    exact SameList.suits w (sendRsrcRequest_talk w ..).toSameList (suits_of_nil w hnil)
  split
  · exact suits_releasing w _
  · next hactive =>
    refine suits_of_active w hhere ((hasActiveSubscribers_iff w _).1 ?_)
    simpa using hactive

theorem releasedOnRsrcEvent_suits (hm : m.Heaped) (h : m.AllActive w) (answers : Answers)
    (event : RsrcEvent) :
    Suits w (m.releasedOnRsrcEvent w answers event).2 (m.releasedOnRsrcEvent w answers event).1 := by
  have hstay : Suits w .released m := ⟨fun _ => h, by simp⟩
  cases event with
  | subscribe s =>
    have hall := h.addSubscriber w hm s
    have hactive := hall.active w (addSubscriber_ne_nil w s m)
    refine SameList.suits w (sendRsrcRequest_talk w ..).toSameList ?_
    exact ⟨fun _ => hall, fun _ => hactive⟩
  | unsubscribe p =>
    exact SameList.suits w (notifyRsrcStatus_talk w
      (n := ⟨.rcver (.cell p), .unsubscribe, false⟩) rfl _ m).toSameList hstay
  | _ => exact hstay

theorem pendingOnRsrcEvent_suits (hm : m.Heaped) (h : m.Active w) (event : RsrcEvent) :
    Suits w (m.pendingOnRsrcEvent w event).2 (m.pendingOnRsrcEvent w event).1 := by
  cases event with
  | subscribe s => exact suits_of_active w (by simp [pendingOnRsrcEvent]) (h.addSubscriber w s)
  | unsubscribe p => exact unsubscribed_suits w .pending (by simp) p m
  | granted =>
    obtain ⟨hlist, -⟩ :=
      notifySubscribers_keep w (n := ⟨.broadcastActive, .granted, false⟩) rfl rfl m
    exact SameList.suits w hlist (suits_of_active w (by simp [pendingOnRsrcEvent]) h)
  | released => exact suits_of_active w (by simp [pendingOnRsrcEvent]) h
  | denied => exact suits_of_nil w (broadcastAll_nil w rfl hm)

theorem acquiredOnRsrcEvent_suits (hm : m.Heaped) (h : m.Active w) (event : RsrcEvent) :
    Suits w (m.acquiredOnRsrcEvent w event).2 (m.acquiredOnRsrcEvent w event).1 := by
  cases event with
  | subscribe s =>
    have htalk := notifyRsrcStatus_talk w (n := ⟨.rcver (.caller s), .granted, false⟩) rfl s m
    have h' := (htalk.active w).2 h
    exact suits_of_active w (by simp [acquiredOnRsrcEvent]) (h'.addSubscriber w s)
  | unsubscribe p => exact unsubscribed_suits w .acquired (by simp) p m
  | granted => exact suits_of_active w (by simp [acquiredOnRsrcEvent]) h
  | released => exact suits_of_nil w (broadcastAll_nil w rfl hm)
  | denied => exact suits_of_active w (by simp [acquiredOnRsrcEvent]) h

theorem closed_suits (hm : m.Heaped) (answers : Answers) (hstatus : status.told = true) :
    Suits w (m.closed w answers status).2 (m.closed w answers status).1 := by
  unfold closed
  simp only
  split
  · next hactive =>
    refine SameList.suits w (sendRsrcRequest_talk w ..).toSameList ?_
    exact suits_of_active w (by simp) ((hasActiveSubscribers_iff w _).1 hactive)
  · exact ⟨fun _ => broadcastInactive_allActive w hstatus hm, by simp⟩

theorem releasingOnRsrcEvent_suits (hm : m.Heaped) (answers : Answers) (event : RsrcEvent) :
    Suits w (m.releasingOnRsrcEvent w answers event).2
      (m.releasingOnRsrcEvent w answers event).1 := by
  cases event with
  | subscribe s => exact suits_releasing w _
  | unsubscribe p =>
    unfold releasingOnRsrcEvent
    simp only
    split
    · next hno => exact suits_of_nil w (by simpa [hasSubscribers] using hno)
    · exact suits_releasing w _
  | granted => exact suits_releasing w _
  | released | denied => exact closed_suits w hm answers rfl

theorem heaped_mStatePtr (hm : m.Heaped) (state : AgpsState) :
    { m with mStatePtr := state }.Heaped := ⟨hm.nodup, hm.live, hm.fresh⟩

/-- **One event.** It keeps what holds of every machine. -/
theorem Holding.stateOnRsrcEvent (h : m.Holding w) (answers : Answers) (hevent : Listed event m) :
    (m.stateOnRsrcEvent w answers event).Holding w := by
  have hheaped : (m.stateOnRsrcEvent w answers event).Heaped := by
    obtain ⟨m₁, state, hparts, heq⟩ := stateOnRsrcEvent_parts w h.heaped answers event
    rw [heq]
    exact heaped_mStatePtr (Parts.heaped w hparts h.heaped hevent) state
  have hsuits : Suits w (m.stateOnRsrcEvent w answers event).mStatePtr
      (m.stateOnRsrcEvent w answers event) := by
    unfold AgpsStateMachine.stateOnRsrcEvent
    cases hs : m.mStatePtr with
    | released => exact releasedOnRsrcEvent_suits w h.heaped (h.idle hs) answers event
    | pending => exact pendingOnRsrcEvent_suits w h.heaped (h.holds (.inl hs)) event
    | acquired => exact acquiredOnRsrcEvent_suits w h.heaped (h.holds (.inr hs)) event
    | releasing => exact releasingOnRsrcEvent_suits w h.heaped answers event
  exact ⟨hheaped, hsuits.1, hsuits.2⟩

theorem Talk.holding (h : Talk m m') (hm : m.Holding w) : m'.Holding w where
  heaped := (Part.talk h : Part w .granted m m').heaped w hm.heaped (by simp)
  idle hs := (h.allActive w).2 (hm.idle (h.mStatePtr ▸ hs))
  holds hs := (h.active w).2 (hm.holds (h.mStatePtr ▸ hs))

theorem Holding.subscribeRsrc (h : m.Holding w) (answers : Answers) (s : Subscriber) :
    (m.subscribeRsrc w answers s).Holding w := by
  unfold AgpsStateMachine.subscribeRsrc
  split
  · exact Talk.holding w (notifyRsrcStatus_talk w rfl s m) h
  · exact h.stateOnRsrcEvent w answers (by simp [Listed])

theorem Holding.unsubscribeRsrc (h : m.Holding w) (s : Subscriber) :
    (m.unsubscribeRsrc w s).Holding w := by
  unfold AgpsStateMachine.unsubscribeRsrc
  split
  · next p hfind =>
    refine h.stateOnRsrcEvent w {} fun q hq => ?_
    obtain rfl : p = q := by simpa using hq
    exact (find_caller_some w hfind).1
  · exact h

theorem listed_ofStatus {e : RsrcEvent} (h : ofStatus status = some e) (m : AgpsStateMachine) :
    Listed e m := by
  intro p hp
  subst hp
  cases status <;> simp [ofStatus] at h

/-- An answer of the connection manager. -/
theorem Holding.onRsrcEvent (h : m.Holding w) (answers : Answers) (status : AgpsRsrcStatus) :
    (m.onRsrcEvent w answers status).Holding w := by
  unfold AgpsStateMachine.onRsrcEvent
  split
  · exact h
  · next e he =>
    have h' := h.stateOnRsrcEvent w answers (listed_ofStatus he m)
    simp only
    split
    · exact h'.stateOnRsrcEvent w answers (by simp [Listed])
    · exact h'

/-- **One call.** -/
theorem Holding.handle (h : m.Holding w) (call : AgpsCall) : (m.handle w call).Holding w := by
  cases call with
  | subscribeRsrc s answers => exact h.subscribeRsrc w answers s
  | unsubscribeRsrc s => exact h.unsubscribeRsrc w s
  | onRsrcEvent status answers => exact h.onRsrcEvent w answers status
  | retryCallback =>
    unfold AgpsStateMachine.handle AgpsStateMachine.retryCallback
    simp only
    split
    · exact Talk.holding w (put_talk _ m) h
    · exact h
  | setAPN apn | setBearer bearer => exact ⟨⟨h.heaped.1, h.heaped.2, h.heaped.3⟩, h.idle, h.holds⟩

theorem step_ok {call : AgpsCall} {r : AgpsReply} (h : step w m call = .ok (m', r)) :
    ({ m with log := [] } : AgpsStateMachine).handle w call = m' ∧ r.acts = m'.log ∧
      r.found = m.foundBy w call := by
  obtain ⟨rfl, rfl⟩ : ({ m with log := [] } : AgpsStateMachine).handle w call = m' ∧ _ = r := by
    simpa [step] using h
  exact ⟨rfl, rfl, rfl⟩

theorem Holding.quiet (h : m.Holding w) : ({ m with log := [] } : AgpsStateMachine).Holding w :=
  ⟨⟨h.heaped.1, h.heaped.2, h.heaped.3⟩, h.idle, h.holds⟩

end AgpsStateMachine

end Nx508j.Loc
