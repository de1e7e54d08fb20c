import Nx508j.Loc.AgpsInStep

/-! # Machines with subscribers of one kind

If all subscribers of a machine are of one class, `equals` is an equivalence and no two on the list
are equal. The state then says what is on the list, and what was last sent to the connectivity
service. -/

namespace Nx508j.Loc

open Nx508j.Lib

namespace Subscriber

variable (w : StrayMemory) {s t : Subscriber}

theorem equals_comm (h : s.kind = t.kind) : s.equals w t = t.equals w s := by
  obtain ⟨i, c⟩ := s
  obtain ⟨j, d⟩ := t
  unfold equals ipv6Addr
  cases c <;> cases d <;> simp_all [kind, SubscriberClass.kind, strncmpEq, eq_comm]
  by_cases hij : i = j
  · subst hij
    rw [BEq.comm (a := List.takeWhile _ _)]
  · simp [beq_eq_false_iff_ne.2 hij, beq_eq_false_iff_ne.2 (Ne.symm hij)]

theorem waitForCloseComplete_of_kind (h : s.kind = t.kind) :
    s.waitForCloseComplete = t.waitForCloseComplete := by
  obtain ⟨i, c⟩ := s
  obtain ⟨j, d⟩ := t
  cases c <;> cases d <;> simp_all [kind, SubscriberClass.kind, waitForCloseComplete]

theorem equals_inactive (h : s.kind = t.kind) (hwait : t.waitForCloseComplete = true) :
    s.equals w t.inactive = s.equals w t := by
  rw [← waitForCloseComplete_of_kind h] at hwait
  rw [equals_of_wait w hwait, equals_of_wait w hwait, inactive_ID]

end Subscriber

/-- A denial or a release. -/
def AgpsStateMachine.RsrcEvent.loss : AgpsStateMachine.RsrcEvent → Bool
  | .denied => true
  | .released => true
  | _ => false

namespace AgpsCall

/-- The subscribers that are passed to a call are of the class `k`. -/
def OfKind (k : Kind) : AgpsCall → Prop
  | .subscribeRsrc s _ => s.kind = k
  | .unsubscribeRsrc s => s.kind = k
  | _ => True

/-- Whether the call is a denial or a release. -/
def loss : AgpsCall → Bool
  | .onRsrcEvent status _ =>
    (AgpsStateMachine.ofStatus status).elim false AgpsStateMachine.RsrcEvent.loss
  | _ => false

end AgpsCall

namespace AgpsStateMachine

variable (w : StrayMemory) {m m' m'' : AgpsStateMachine} {event : RsrcEvent} {answers : Answers}
  {k : Kind}

/-- The subscribers are of one class and no two of them are equal. -/
structure OneKind (k : Kind) (m : AgpsStateMachine) : Prop where
  kind : ∀ p ∈ m.mSubscribers, (m.deref w p).kind = k
  distinct : m.mSubscribers.Pairwise fun p q => (m.deref w p).equals w (m.deref w q) = false

theorem OneKind.congr (h : OneKind w k m) (hsub : m'.mSubscribers.Sublist m.mSubscribers)
    (hkind : ∀ p ∈ m'.mSubscribers, (m'.deref w p).kind = (m.deref w p).kind)
    (heq : ∀ p ∈ m'.mSubscribers, ∀ q ∈ m'.mSubscribers,
      (m'.deref w p).equals w (m'.deref w q) = (m.deref w p).equals w (m.deref w q)) :
    OneKind w k m' where
  kind p hp := (hkind p hp).trans (h.kind p (hsub.subset hp))
  distinct := by
    refine (h.distinct.sublist hsub).imp_of_mem fun hp hq hne => ?_
    rw [heq _ hp _ hq]
    exact hne

theorem Part.oneKind (h : Part w event m m') (hm : m.Heaped) (hk : OneKind w k m)
    (hevent : ∀ s, event = .subscribe s → s.kind = k) : OneKind w k m' := by
  cases h with
  | talk h =>
    refine hk.congr w (by rw [h.mSubscribers]) (fun p _ => by rw [h.deref]) fun p _ q _ => ?_
    rw [h.deref, h.deref]
  | walk _ h =>
    refine hk.congr w h.sub (fun p hp => by rw [h.deref_of_mem w hp]) fun p hp q hq => ?_
    rw [h.deref_of_mem w hp, h.deref_of_mem w hq]
  | @inactive p _ hwait hlist hheap hsame =>
    have hderef : ∀ q, m'.deref w q = if q = p then (m.deref w p).inactive else m.deref w q := by
      intro q
      rw [deref, hheap, Function.update_apply]
      split <;> rfl
    have hkind : ∀ q, (m'.deref w q).kind = (m.deref w q).kind := by
      intro q
      rw [hderef]
      split
      · next hq => rw [hq, Subscriber.inactive_kind]
      · rfl
    refine hk.congr w (by rw [hlist]) (fun q _ => hkind q) fun q hq r hr => ?_
    rw [hlist] at hq hr
    have hleft : ∀ t, (m'.deref w q).equals w t = (m.deref w q).equals w t := by
      intro t
      rw [hderef]
      split
      · next hqp => rw [Subscriber.inactive_equals w hwait, hqp]
      · rfl
    rw [hleft, hderef r]
    split
    · next hrp =>
      subst hrp
      exact Subscriber.equals_inactive w ((hk.kind q hq).trans (hk.kind r hr).symm) hwait
    · rfl
  | @add s hs hfind h =>
    subst h
    have hclone : s.clone.kind = k := (Subscriber.clone_kind s).trans (hevent s hs)
    refine ⟨fun p hp => ?_, List.pairwise_cons.2 ⟨fun q hq => ?_, ?_⟩⟩
    · rcases List.mem_cons.1 hp with rfl | hp
      · rw [deref_linkedListAdd_self, hclone]
      · rw [deref_linkedListAdd w hm _ hp]
        exact hk.kind p hp
    · rw [deref_linkedListAdd_self, deref_linkedListAdd w hm _ hq, Subscriber.clone_equals_left,
        ← Subscriber.equals_comm w ((hk.kind q hq).trans (hevent s hs).symm)]
      exact find_caller_none w hfind q hq
    · refine hk.distinct.imp_of_mem fun hp hq hne => ?_
      rw [deref_linkedListAdd w hm _ hp, deref_linkedListAdd w hm _ hq]
      exact hne

theorem OneKind.stateOnRsrcEvent (hk : OneKind w k m) (hm : m.Heaped) (answers : Answers)
    (hevent : Listed event m) (hkind : ∀ s, event = .subscribe s → s.kind = k) :
    OneKind w k (m.stateOnRsrcEvent w answers event) := by
  obtain ⟨m₁, state, hparts, heq⟩ := stateOnRsrcEvent_parts w hm answers event
  have hkeep : m₁.Heaped ∧ OneKind w k m₁ ∧ ∀ p, event = .unsubscribe p → p < m₁.next := by
    refine Parts.keep w hparts (P := fun m => m.Heaped ∧ OneKind w k m ∧
      ∀ p, event = .unsubscribe p → p < m.next) (fun m m' hpart hm => ?_)
      ⟨hm, hk, fun p hp => hm.lt (hevent p hp)⟩
    exact ⟨hpart.heaped w hm.1 hm.2.2, hpart.oneKind w hm.1 hm.2.1 hkind,
      fun p hp => Nat.lt_of_lt_of_le (hm.2.2 p hp) (hpart.next_le w)⟩
  rw [heq]
  exact ⟨hkeep.2.1.kind, hkeep.2.1.distinct⟩

/-! ## The commands of an event -/

/-- The commands a call sends with a change of state; `loss` for a denial or a release that comes
    from outside. -/
inductive Passage (loss : Bool) : AgpsState → List AGpsStatusValue → AgpsState → Prop where
  | request {s : AgpsState} (hs : s = .released ∨ s = .releasing) :
      Passage loss s [.requestAgpsDataConn] .pending
  | release {s s' : AgpsState} (hloss : loss = false) (hs : s = .pending ∨ s = .acquired)
      (hs' : s' = .released ∨ s' = .releasing) : Passage loss s [.releaseAgpsDataConn] s'
  | stay {s : AgpsState} : Passage loss s [] s
  | grant : Passage loss .pending [] .acquired
  | forced {s : AgpsState} (hloss : loss = true) (hs : s = .pending ∨ s = .acquired) :
      Passage loss s [] .released
  | done : Passage loss .releasing [] .released

/-- What is asked of the list in the two states that tell something about all of it. -/
structure ListSuits (state : AgpsState) (m : AgpsStateMachine) : Prop where
  released : state = .released → m.mSubscribers = []
  releasing : state = .releasing → m.mSubscribers ≠ []

theorem sendRsrcRequest_commands (answers : Answers) (action : AGpsStatusValue)
    (hds : m.isDS = false) (h : m.Active w ↔ action = .requestAgpsDataConn) :
    (m.sendRsrcRequest w answers action).1.commands = m.commands ++ [action] ∧
      (m.sendRsrcRequest w answers action).2 = 0 := by
  have hfind : (m.find w .broadcastActive).isNone = (action == .releaseAgpsDataConn) := by
    have hactive := hasActiveSubscribers_iff w m
    unfold hasActiveSubscribers at hactive
    cases hf : m.find w .broadcastActive with
    | some p =>
      rw [hf] at hactive
      rw [h.1 (hactive.1 rfl)]
      rfl
    | none =>
      rw [hf] at hactive
      cases action with
      | requestAgpsDataConn => exact absurd (hactive.2 (h.2 rfl)) (by simp)
      | releaseAgpsDataConn => rfl
  unfold sendRsrcRequest commands
  rw [hds]
  simp [hfind, put, Act.command]

theorem sendRsrcRequest_mSubscribers (answers : Answers) (action : AGpsStatusValue)
    (m : AgpsStateMachine) :
    (m.sendRsrcRequest w answers action).1.mSubscribers = m.mSubscribers :=
  (sendRsrcRequest_talk w answers action m).mSubscribers

/-- What an event does in one state: the next state suits the list, and the commands suit the
    change. -/
structure Steps (loss : Bool) (m : AgpsStateMachine) (state : AgpsState)
    (r : AgpsStateMachine × AgpsState) : Prop where
  suits : ListSuits r.2 r.1
  passage : ∃ cs, r.1.commands = m.commands ++ cs ∧ Passage loss state cs r.2

theorem Steps.stay {loss : Bool} {state : AgpsState} (hlist : ListSuits state m')
    (h : m'.commands = m.commands) : Steps loss m state (m', state) :=
  ⟨hlist, [], by simpa using h, .stay⟩

theorem listSuits_of_busy {state : AgpsState} (h : state = .pending ∨ state = .acquired)
    (m : AgpsStateMachine) : ListSuits state m := by
  rcases h with rfl | rfl <;> exact ⟨by simp, by simp⟩

theorem unsubscribed_steps (hm : m.Heaped) (hds : m.isDS = false) {here : AgpsState}
    (hhere : here = .pending ∨ here = .acquired) (p : Nat) :
    Steps false m here (m.unsubscribed w here p) := by
  obtain ⟨hcommands, hisDS⟩ := leave_commands w hm p
  rw [hds] at hisDS
  unfold unsubscribed
  simp only
  split
  · next hno =>
    have hnil : (m.leave w p).mSubscribers = [] := by
      simpa [hasSubscribers] using hno
    have hsend := sendRsrcRequest_commands w {} .releaseAgpsDataConn hisDS
      (by simp [Active, hnil])
    refine ⟨⟨fun _ => ?_, by simp⟩, _, hcommands ▸ hsend.1, .release rfl hhere (.inl rfl)⟩
    rw [sendRsrcRequest_mSubscribers, hnil]
  · next hsome =>
    split
    · next hno =>
      have hinactive : ¬ (m.leave w p).Active w := by
        rw [← hasActiveSubscribers_iff]
        simpa using hno
      have hsend := sendRsrcRequest_commands w {} .releaseAgpsDataConn hisDS
        (by simp [hinactive])
      refine ⟨⟨by simp, fun _ => ?_⟩, _, hcommands ▸ hsend.1, .release rfl hhere (.inr rfl)⟩
      rw [sendRsrcRequest_mSubscribers]
      simpa [hasSubscribers] using hsome
    · exact .stay (listSuits_of_busy hhere _) hcommands

theorem addSubscriber_commands (s : Subscriber) (m : AgpsStateMachine) :
    (m.addSubscriber w s).commands = m.commands := by
  unfold commands
  rw [(addSubscriber_log w s m).1]

theorem notifyRsrcStatus_commands {n : Notification} (h : n.rsrcStatus.told = true)
    (s : Subscriber) (m : AgpsStateMachine) :
    (m.notifyRsrcStatus w s n).1.commands = m.commands :=
  (notifyRsrcStatus_told w h s m).2.2.2.commands

theorem releasedOnRsrcEvent_steps (hds : m.isDS = false) (hnil : m.mSubscribers = [])
    (answers : Answers) (event : RsrcEvent) (hevent : Listed event m) :
    Steps event.loss m .released (m.releasedOnRsrcEvent w answers event) := by
  have hstay : Steps event.loss m .released (m, .released) := .stay ⟨fun _ => hnil, by simp⟩ rfl
  cases event with
  | subscribe s =>
    have hactive : (m.addSubscriber w s).Active w := by
      unfold addSubscriber find
      rw [hnil]
      exact linkedListAdd_active w s m
    have hsend := sendRsrcRequest_commands w answers .requestAgpsDataConn
      ((addSubscriber_log w s m).2.trans hds) (by simp [hactive])
    unfold releasedOnRsrcEvent
    simp only [hsend.2, if_true]
    refine ⟨listSuits_of_busy (.inl rfl) _, _, ?_, .request (.inl rfl)⟩
    rw [hsend.1, addSubscriber_commands]
  | unsubscribe p => exact absurd (hevent p rfl) (by simp [hnil])
  | _ => exact hstay

theorem pendingOnRsrcEvent_steps (hm : m.Heaped) (hds : m.isDS = false) (event : RsrcEvent) :
    Steps event.loss m .pending (m.pendingOnRsrcEvent w event) := by
  have hbusy : ∀ m, ListSuits .pending m := listSuits_of_busy (.inl rfl)
  cases event with
  | subscribe s => exact .stay (hbusy _) (addSubscriber_commands w s m)
  | unsubscribe p => exact unsubscribed_steps w hm hds (.inl rfl) p
  | granted =>
    have hcommands := notifySubscribers_commands w (n := ⟨.broadcastActive, .granted, false⟩) rfl hm
    exact ⟨listSuits_of_busy (.inr rfl) _, [], hcommands.1.trans (List.append_nil _).symm, .grant⟩
  | released => exact .stay (hbusy _) rfl
  | denied =>
    have hcommands := notifySubscribers_commands w (n := ⟨.broadcastAll, .denied, true⟩) rfl hm
    exact ⟨⟨fun _ => broadcastAll_nil w rfl hm, by simp [pendingOnRsrcEvent]⟩, [],
      hcommands.1.trans (List.append_nil _).symm, .forced rfl (.inl rfl)⟩

theorem acquiredOnRsrcEvent_steps (hm : m.Heaped) (hds : m.isDS = false) (event : RsrcEvent) :
    Steps event.loss m .acquired (m.acquiredOnRsrcEvent w event) := by
  have hbusy : ∀ m, ListSuits .acquired m := listSuits_of_busy (.inr rfl)
  cases event with
  | subscribe s =>
    refine .stay (hbusy _) ?_
    rw [addSubscriber_commands, notifyRsrcStatus_commands w rfl]
  | unsubscribe p => exact unsubscribed_steps w hm hds (.inr rfl) p
  | granted => exact .stay (hbusy _) rfl
  | released =>
    have hcommands := notifySubscribers_commands w (n := ⟨.broadcastAll, .released, true⟩) rfl hm
    exact ⟨⟨fun _ => broadcastAll_nil w rfl hm, by simp [acquiredOnRsrcEvent]⟩, [],
      hcommands.1.trans (List.append_nil _).symm, .forced rfl (.inr rfl)⟩
  | denied => exact .stay (hbusy _) rfl

theorem closed_steps (hm : m.Heaped) (hds : m.isDS = false) {status : AgpsRsrcStatus}
    (h : status.told = true) :
    Steps true m .releasing (m.closed w answers status) := by
  obtain ⟨hcommands, hisDS⟩ :=
    notifySubscribers_commands w (n := ⟨.broadcastInactive, status, true⟩) h hm
  have hall := broadcastInactive_allActive w h hm
  unfold closed
  simp only
  split
  · next hactive =>
    have hsend := sendRsrcRequest_commands w answers .requestAgpsDataConn (hisDS.trans hds)
      (iff_of_true ((hasActiveSubscribers_iff w _).1 hactive) rfl)
    exact ⟨listSuits_of_busy (.inl rfl) _, _, hcommands ▸ hsend.1, .request (.inr rfl)⟩
  · next hno =>
    refine ⟨⟨fun _ => ?_, by simp⟩, [], by simpa using hcommands, .done⟩
    -- those that are left are active, and none of them is
    by_contra hne
    exact hno ((hasActiveSubscribers_iff w _).2 (hall.active w hne))

theorem releasingOnRsrcEvent_steps (hm : m.Heaped) (hds : m.isDS = false)
    (hne : m.mSubscribers ≠ []) (event : RsrcEvent) :
    Steps event.loss m .releasing (m.releasingOnRsrcEvent w answers event) := by
  cases event with
  | subscribe s =>
    exact .stay ⟨by simp, fun _ => addSubscriber_ne_nil w s m⟩ (addSubscriber_commands w s m)
  | unsubscribe p =>
    obtain ⟨hcommands, -⟩ := leave_commands w hm p
    unfold releasingOnRsrcEvent
    simp only
    split
    · next hno =>
      exact ⟨⟨fun _ => by simpa [hasSubscribers] using hno, by simp⟩, [],
        by simpa using hcommands, .done⟩
    · next hsome =>
      exact .stay ⟨by simp, fun _ => by simpa [hasSubscribers] using hsome⟩ hcommands
  | granted => exact .stay ⟨by simp, fun _ => hne⟩ rfl
  | released | denied => exact closed_steps w hm hds rfl

/-! ## Runs -/

/-- The invariant of a machine that is not the emergency one. -/
structure InStep (k : Kind) (m : AgpsStateMachine) : Prop extends Holding w m, OneKind w k m where
  isDS : m.isDS = false
  listSuits : ListSuits m.mStatePtr m

/-- **One event.** -/
theorem InStep.stateOnRsrcEvent (h : InStep w k m) (answers : Answers) {event : RsrcEvent}
    (hevent : Listed event m) (hkind : ∀ s, event = .subscribe s → s.kind = k) :
    InStep w k (m.stateOnRsrcEvent w answers event) ∧
      ∃ cs, (m.stateOnRsrcEvent w answers event).commands = m.commands ++ cs ∧
        Passage event.loss m.mStatePtr cs (m.stateOnRsrcEvent w answers event).mStatePtr := by
  have hholding := h.toHolding.stateOnRsrcEvent w answers hevent
  have hone := h.toOneKind.stateOnRsrcEvent w h.heaped answers hevent hkind
  have hisDS : (m.stateOnRsrcEvent w answers event).isDS = false := by
    obtain ⟨m₁, state, hparts, heq⟩ := stateOnRsrcEvent_parts w h.heaped answers event
    have hds : m₁.isDS = false := Parts.keep w hparts (P := fun m => m.isDS = false)
      (fun m m' hpart hm => (hpart.isDS w).trans hm) h.isDS
    rw [heq]
    exact hds
  have hsteps : ∃ r, Steps event.loss m m.mStatePtr r ∧
      m.stateOnRsrcEvent w answers event = { r.1 with mStatePtr := r.2 } := by
    unfold AgpsStateMachine.stateOnRsrcEvent
    cases hs : m.mStatePtr with
    | released =>
      exact ⟨_, releasedOnRsrcEvent_steps w h.isDS (h.listSuits.released hs) answers event hevent,
        rfl⟩
    | pending => exact ⟨_, pendingOnRsrcEvent_steps w h.heaped h.isDS event, rfl⟩
    | acquired => exact ⟨_, acquiredOnRsrcEvent_steps w h.heaped h.isDS event, rfl⟩
    | releasing =>
      exact ⟨_, releasingOnRsrcEvent_steps w h.heaped h.isDS (h.listSuits.releasing hs) event, rfl⟩
  obtain ⟨r, hr, heq⟩ := hsteps
  refine ⟨⟨hholding, hone, hisDS, ?_⟩, ?_⟩
  · rw [heq]
    exact ⟨hr.suits.released, hr.suits.releasing⟩
  · rw [heq]
    exact hr.passage

theorem Talk.inStep (h : Talk m m') (hm : InStep w k m) : InStep w k m' where
  toHolding := h.holding w hm.toHolding
  toOneKind := by
    have hpart : Part w .granted m m' := .talk h
    exact hpart.oneKind w hm.heaped hm.toOneKind (by simp)
  isDS := h.isDS.trans hm.isDS
  listSuits := ⟨fun hs => h.mSubscribers.trans (hm.listSuits.released (h.mStatePtr ▸ hs)),
    fun hs => h.mSubscribers ▸ hm.listSuits.releasing (h.mStatePtr ▸ hs)⟩

/-- **One call.** -/
theorem InStep.handle (h : InStep w k m) {call : AgpsCall} (hcall : call.OfKind k) :
    InStep w k (m.handle w call) ∧ ∃ cs, (m.handle w call).commands = m.commands ++ cs ∧
      Passage call.loss m.mStatePtr cs (m.handle w call).mStatePtr := by
  have hstay : ∀ {m'}, Talk m m' → m'.commands = m.commands → InStep w k m' ∧
      ∃ cs, m'.commands = m.commands ++ cs ∧ Passage call.loss m.mStatePtr cs m'.mStatePtr := by
    intro m' htalk hcommands
    exact ⟨htalk.inStep w h, [], by simpa using hcommands, htalk.mStatePtr ▸ .stay⟩
  cases call with
  | subscribeRsrc s answers =>
    unfold AgpsStateMachine.handle AgpsStateMachine.subscribeRsrc
    simp only
    split
    · exact hstay (notifyRsrcStatus_talk w rfl s m) (notifyRsrcStatus_commands w rfl s m)
    · refine h.stateOnRsrcEvent w answers (by simp [Listed]) fun t ht => ?_
      obtain rfl : s = t := by simpa using ht
      exact hcall
  | unsubscribeRsrc s =>
    unfold AgpsStateMachine.handle AgpsStateMachine.unsubscribeRsrc
    simp only
    split
    · next p hfind =>
      refine h.stateOnRsrcEvent w {} (fun q hq => ?_) (by simp)
      obtain rfl : p = q := by simpa using hq
      exact (find_caller_some w hfind).1
    · exact hstay (Talk.refl m) rfl
  | onRsrcEvent status answers =>
    unfold AgpsStateMachine.handle AgpsStateMachine.onRsrcEvent AgpsCall.loss
    simp only [h.isDS, Bool.false_and, Bool.false_eq_true, if_false]
    cases hstatus : ofStatus status with
    | none => exact ⟨h, [], by simp, .stay⟩
    | some e =>
      refine h.stateOnRsrcEvent w answers (listed_ofStatus hstatus m) fun s hs => ?_
      subst hs
      cases status <;> simp [ofStatus] at hstatus
  | retryCallback =>
    unfold AgpsStateMachine.handle AgpsStateMachine.retryCallback
    simp only
    split
    · exact hstay (put_talk _ m) (by simp [commands, put, Act.command])
    · exact hstay (Talk.refl m) rfl
  | setAPN apn =>
    exact ⟨⟨h.toHolding.handle w (.setAPN apn), ⟨h.kind, h.distinct⟩, h.isDS,
      ⟨h.listSuits.released, h.listSuits.releasing⟩⟩, [], by simp [AgpsStateMachine.handle, commands],
      .stay⟩
  | setBearer bearer =>
    exact ⟨⟨h.toHolding.handle w (.setBearer bearer), ⟨h.kind, h.distinct⟩, h.isDS,
      ⟨h.listSuits.released, h.listSuits.releasing⟩⟩, [], by simp [AgpsStateMachine.handle, commands],
      .stay⟩

end AgpsStateMachine

/-- What an observer of the calls knows: the state, and whether a denial or a release that came from
    outside has taken a connection away and moved the machine to released. -/
structure Watch where
  state : AgpsState := .released
  forced : Bool := false

def Watch.next (o : Watch) (e : AgpsCall × AgpsReply) : Watch where
  state := e.2.state
  forced :=
    match e.2.state, o.state with
    | .released, .released => o.forced
    | .released, .releasing => false
    | .released, _ => e.1.loss
    | _, _ => false

def watch (tr : List (AgpsCall × AgpsReply)) : Watch := tr.foldl Watch.next {}

/-- The command that was sent last. -/
def lastCommand (tr : List (AgpsCall × AgpsReply)) : Option AGpsStatusValue :=
  (tr.flatMap fun e => e.2.acts.filterMap Act.command).getLast?

theorem watch_concat (tr : List (AgpsCall × AgpsReply)) (e : AgpsCall × AgpsReply) :
    watch (tr ++ [e]) = (watch tr).next e := by
  simp [watch]

theorem lastCommand_concat (tr : List (AgpsCall × AgpsReply)) (e : AgpsCall × AgpsReply) :
    lastCommand (tr ++ [e]) = ((e.2.acts.filterMap Act.command).getLast?).or (lastCommand tr) := by
  simp [lastCommand, List.getLast?_append]

/-- The last command is a request if a connection is requested or there, or was taken away. -/
def CommandMatches (last : Option AGpsStatusValue) (o : Watch) : Prop :=
  last = some .requestAgpsDataConn ↔
    o.state = .pending ∨ o.state = .acquired ∨ o.forced = true

theorem CommandMatches.next {last : Option AGpsStatusValue} {o : Watch} (h : CommandMatches last o)
    (hforced : o.forced = true → o.state = .released) {e : AgpsCall × AgpsReply}
    (hp : AgpsStateMachine.Passage e.1.loss o.state (e.2.acts.filterMap Act.command) e.2.state) :
    CommandMatches (((e.2.acts.filterMap Act.command).getLast?).or last) (o.next e) := by
  obtain ⟨state, forced⟩ := o
  unfold CommandMatches at h ⊢
  simp only at h hforced hp
  generalize e.2.acts.filterMap Act.command = cs at hp
  generalize hs' : e.2.state = s' at hp
  unfold Watch.next
  rw [hs']
  cases hp with
  | request hs => rcases hs with rfl | rfl <;> simp
  | release hloss hs hs'' =>
    rcases hs with rfl | rfl <;> rcases hs'' with rfl | rfl <;> simp [hloss]
  | stay => cases state <;> simp_all
  | grant => simp_all
  | forced hloss hs => rcases hs with rfl | rfl <;> simp_all
  | done => simp_all

namespace AgpsStateMachine

variable (w : StrayMemory) {m : AgpsStateMachine} {k : Kind}

theorem init_heaped (mType : Int) (enforce : Bool) : (init mType enforce).Heaped :=
  ⟨List.nodup_nil, by simp [init], fun _ _ => rfl⟩

theorem init_inStep (mType : Int) (enforce : Bool) : InStep w k (init mType enforce) where
  heaped := init_heaped mType enforce
  idle _ p hp := absurd hp (by simp [init])
  holds h := absurd h (by simp [init])
  kind p hp := absurd hp (by simp [init])
  distinct := List.Pairwise.nil
  isDS := rfl
  listSuits := ⟨fun _ => rfl, fun h => absurd h (by simp [init])⟩

/-- **Runs of a machine with subscribers of one kind.** In every state that is reached, a released
    machine has no subscriber, one that has or wants the connection has an active one, and one that
    waits for the close has some; no two subscribers are equal; and the last command was a request
    just while the connection is requested or there, or after it was taken away. -/
theorem run_inStep {mType : Int} {enforce : Bool} {tr : List (AgpsCall × AgpsReply)}
    (run : Run (step w) (fun _ c => c.OfKind k) (init mType enforce) tr m) :
    (m.mStatePtr = .released → m.mSubscribers = []) ∧
      (m.mStatePtr = .pending ∨ m.mStatePtr = .acquired → m.Active w) ∧
      (m.mStatePtr = .releasing → m.mSubscribers ≠ []) ∧
      (m.mSubscribers.Pairwise fun p q => (m.deref w p).equals w (m.deref w q) = false) ∧
      (lastCommand tr = some .requestAgpsDataConn ↔
        m.mStatePtr = .pending ∨ m.mStatePtr = .acquired ∨ (watch tr).forced = true) ∧
      ((watch tr).forced = true → m.mStatePtr = .released) := by
  have hinv : InStep w k m ∧ (watch tr).state = m.mStatePtr ∧
      CommandMatches (lastCommand tr) (watch tr) ∧
      ((watch tr).forced = true → (watch tr).state = .released) := by
    refine run.invariant (fun tr m => InStep w k m ∧ (watch tr).state = m.mStatePtr ∧
      CommandMatches (lastCommand tr) (watch tr) ∧
      ((watch tr).forced = true → (watch tr).state = .released)) ?_ ?_
    · exact ⟨init_inStep w mType enforce, rfl, by simp [CommandMatches, lastCommand, watch],
        by simp [watch]⟩
    · rintro tr m call m' r ⟨hstep, hstate, hlast, hforced⟩ hkind hcall
      obtain ⟨rfl, rfl⟩ : ({ m with log := [] } : AgpsStateMachine).handle w call = m' ∧ _ = r := by
        simpa [step] using hcall
      have hquiet : InStep w k { m with log := [] } :=
        ⟨⟨⟨hstep.heaped.1, hstep.heaped.2, hstep.heaped.3⟩, hstep.idle, hstep.holds⟩,
          ⟨hstep.kind, hstep.distinct⟩, hstep.isDS, ⟨hstep.listSuits.1, hstep.listSuits.2⟩⟩
      obtain ⟨hstep', cs, hcs, hpass⟩ := hquiet.handle w hkind
      rw [watch_concat, lastCommand_concat]
      refine ⟨hstep', rfl, hlast.next hforced ?_, ?_⟩
      · have hcommands : cs = ((({ m with log := [] } : AgpsStateMachine).handle w call).log).filterMap
            Act.command := hcs.symm
        rw [hstate, ← hcommands]
        exact hpass
      · unfold Watch.next
        simp only
        split <;> simp_all
  obtain ⟨hstep, hstate, hlast, hforced⟩ := hinv
  exact ⟨hstep.listSuits.released, hstep.holds, hstep.listSuits.releasing, hstep.distinct,
    hstate ▸ hlast, fun h => hstate ▸ hforced h⟩

/-- A client of the daemon that asks for a wireless network. -/
def wifiClient (ID : UInt32) : Subscriber := ⟨ID, .wifi (some "net") none false⟩

/-- Two clients come, get the network and leave. -/
def wifiCalls : List AgpsCall :=
  [.subscribeRsrc (wifiClient 0) {}, .subscribeRsrc (wifiClient 1) {}, .onRsrcEvent .granted {},
    .unsubscribeRsrc (wifiClient 0), .unsubscribeRsrc (wifiClient 1)]

/-- The theorem at that run: the two wait for the close. -/
theorem run_inStep_wifi :
    ∃ tr m, Run (step strayZero) (fun _ c => c.OfKind .wifi) (init 4 false) tr m ∧
      m.mStatePtr = .releasing ∧ m.mSubscribers ≠ [] ∧
        lastCommand tr ≠ some .requestAgpsDataConn := by
  have hend : (exec (step strayZero) (init 4 false) wifiCalls).toOption.map
      (fun x => (x.1.mStatePtr, (watch x.2).forced)) = some (.releasing, false) := by
    decide +kernel
  obtain ⟨m, tr, hexec, hend⟩ := exec_of_map hend
  have hstate : m.mStatePtr = .releasing := congrArg Prod.fst hend
  have hforced : (watch tr).forced = false := congrArg Prod.snd hend
  have run := Run.of_exec (C := AgpsCall.OfKind .wifi) hexec
    (by simp [wifiCalls, AgpsCall.OfKind, wifiClient, Subscriber.kind, SubscriberClass.kind])
  have h := run_inStep strayZero run
  refine ⟨tr, m, run, hstate, h.2.2.1 hstate, fun hlast => ?_⟩
  have hbusy := h.2.2.2.2.1.1 hlast
  simp [hstate, hforced] at hbusy

end AgpsStateMachine

end Nx508j.Loc
