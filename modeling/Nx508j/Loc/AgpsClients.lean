import Nx508j.Loc.AgpsOneKind

/-! # The clients a machine serves

A client that subscribed and was not told the end of it has an active subscriber on the list, as long
as no subscription finds an inactive subscriber that it equals: a subscriber is made inactive when
its client leaves, and nothing makes it active again. -/

namespace Nx508j.Loc

open Nx508j.Lib Function

namespace AgpsStateMachine

variable (w : StrayMemory) {m m' m'' : AgpsStateMachine} {event : RsrcEvent} {answers : Answers}

/-- A client is told that its subscription is over, by whatever subscriber stands for it. -/
def endedBy (acts : List Act) (c : Subscriber) : Bool :=
  acts.any fun a =>
    match a with
    | .notified s status => status != .granted && s.equals w c
    | _ => false

/-- The clients whose last call was `subscribeRsrc` and who were not told the end of it. A subscriber
    stands for the clients it equals, and `unsubscribeRsrc` ends what the one it finds stands for. -/
def nextClients (cs : List Subscriber) (e : AgpsCall × AgpsReply) : List Subscriber :=
  let cs := match e.1, e.2.found with
    | .subscribeRsrc s _, _ => s :: cs
    | _, some t => cs.filter fun c => !t.equals w c
    | _, none => cs
  cs.filter fun c => !endedBy w e.2.acts c

def clients (tr : List (AgpsCall × AgpsReply)) : List Subscriber := tr.foldl (nextClients w) []

/-- The client has an active subscriber on the list. -/
def Serves (m : AgpsStateMachine) (c : Subscriber) : Prop :=
  ∃ p ∈ m.mSubscribers, (m.deref w p).equals w c = true ∧ (m.deref w p).isInactive = false

theorem endedBy_append (acts acts' : List Act) (c : Subscriber) :
    endedBy w (acts ++ acts') c = (endedBy w acts c || endedBy w acts' c) :=
  List.any_append

variable {status : AgpsRsrcStatus}

theorem endedBy_of_mem {acts : List Act} {s c : Subscriber} (h : .notified s status ∈ acts)
    (hstatus : status ≠ .granted) (hs : s.equals w c = true) : endedBy w acts c = true :=
  List.any_eq_true.2 ⟨_, h, by simp [hstatus, hs]⟩

theorem SameList.serves (h : SameList m m') (c : Subscriber) : m'.Serves w c ↔ m.Serves w c := by
  unfold Serves
  rw [h.mSubscribers]
  simp only [h.deref]

/-- The client is served, was told the end, or has just left through a subscriber like `t`. -/
def Accounted (t : Subscriber) (event : RsrcEvent) (c : Subscriber) (m : AgpsStateMachine) : Prop :=
  m.Serves w c ∨ endedBy w m.log c = true ∨
    ((∃ p, event = .unsubscribe p) ∧ t.equals w c = true)

/-- The subscriber that leaves is like `t`, as long as it is on the list. -/
def Leaves (t : Subscriber) (event : RsrcEvent) (m : AgpsStateMachine) : Prop :=
  ∀ p, event = .unsubscribe p → p < m.next ∧
    (p ∈ m.mSubscribers → ∀ c, (m.deref w p).equals w c = t.equals w c)

variable {t : Subscriber}

theorem Part.leaves (h : Part w event m m') (hleaves : Leaves w t event m) :
    Leaves w t event m' := by
  intro p hp
  obtain ⟨hlt, heq⟩ := hleaves p hp
  refine ⟨Nat.lt_of_lt_of_le hlt (h.next_le w), fun hp' c => ?_⟩
  cases h with
  | talk h => rw [h.deref, heq (h.mSubscribers ▸ hp')]
  | walk _ h => rw [h.deref_of_mem w hp', heq (h.sub.subset hp')]
  | @inactive q hq hwait hlist hheap _ =>
    obtain rfl : q = p := by simpa [hq] using hp
    have hderef : m'.deref w q = (m.deref w q).inactive := by
      rw [deref, hheap, update_self]
      rfl
    rw [hderef, Subscriber.inactive_equals w hwait, heq (hlist ▸ hp')]
  | add hs => exact absurd (hs.symm.trans hp) (by simp)

variable {c s : Subscriber}

theorem Part.accounted (h : Part w event m m') (hm : m.Heaped) (hleaves : Leaves w t event m)
    (hc : Accounted w t event c m) : Accounted w t event c m' := by
  rcases hc with ⟨p, hp, heq, hactive⟩ | hended | hleft
  · cases h with
    | talk h => exact .inl ((h.serves w c).2 ⟨p, hp, heq, hactive⟩)
    | walk hstatus h =>
      by_cases hp' : p ∈ m'.mSubscribers
      · refine .inl ⟨p, hp', ?_, ?_⟩
        · rw [h.deref_of_mem w hp', heq]
        · rw [h.deref_of_mem w hp', hactive]
      · exact .inr (.inl (endedBy_of_mem w (h.notified (h.gone p hp hp')) hstatus heq))
    | @inactive q hq _ hlist hheap _ =>
      by_cases hpq : p = q
      · subst hpq
        exact .inr (.inr ⟨⟨p, hq⟩, by rw [← (hleaves p hq).2 hp, heq]⟩)
      · have hderef : m'.deref w p = m.deref w p := by
          rw [deref, hheap, update_of_ne hpq]
          rfl
        exact .inl ⟨p, hlist ▸ hp, by rw [hderef, heq], by rw [hderef, hactive]⟩
    | add _ _ h =>
      subst h
      exact .inl ⟨p, List.mem_cons_of_mem _ hp, by rw [deref_linkedListAdd w hm _ hp, heq],
        by rw [deref_linkedListAdd w hm _ hp, hactive]⟩
  · have hlog : ∃ acts, m'.log = m.log ++ acts := by
      cases h with
      | talk h => exact h.log
      | walk _ h => exact ⟨_, h.log⟩
      | inactive _ _ _ _ _ hlog => exact hlog
      | add _ _ h => exact ⟨[], by rw [h]; simp [linkedListAdd]⟩
    obtain ⟨acts, hacts⟩ := hlog
    exact .inr (.inl (by rw [hacts, endedBy_append, hended, Bool.true_or]))
  · exact .inr (.inr hleft)

/-- **One event**, for the clients there are. -/
theorem stateOnRsrcEvent_accounted (hm : m.Heaped) (answers : Answers)
    (hleaves : Leaves w t event m) (hc : Accounted w t event c m) :
    Accounted w t event c (m.stateOnRsrcEvent w answers event) := by
  obtain ⟨m₁, state, hparts, heq⟩ := stateOnRsrcEvent_parts w hm answers event
  have hkeep : m₁.Heaped ∧ Leaves w t event m₁ ∧ Accounted w t event c m₁ := by
    refine Parts.keep w hparts (P := fun m => m.Heaped ∧ Leaves w t event m ∧
      Accounted w t event c m) (fun m m' hpart hm => ?_) ⟨hm, hleaves, hc⟩
    exact ⟨hpart.heaped w hm.1 fun p hp => (hm.2.1 p hp).1, hpart.leaves w hm.2.1,
      hpart.accounted w hm.1 hm.2.1 hm.2.2⟩
  rw [heq]
  exact hkeep.2.2

/-- The condition: the subscriber a new client finds is active. -/
def FindsActive (m : AgpsStateMachine) (s : Subscriber) : Prop :=
  ∀ p, m.find w (.rcver (.caller s)) = some p → (m.deref w p).isInactive = false

theorem addSubscriber_serves (h : m.FindsActive w s) : (m.addSubscriber w s).Serves w s := by
  unfold addSubscriber
  split
  · next p hfind =>
    obtain ⟨hp, heq⟩ := find_caller_some w hfind
    exact ⟨p, hp, heq, h p hfind⟩
  · refine ⟨m.next, List.mem_cons_self .., ?_, ?_⟩
    · rw [deref_linkedListAdd_self, Subscriber.clone_equals]
    · rw [deref_linkedListAdd_self, Subscriber.clone_isInactive]

/-- **One event**, for the client that comes. -/
theorem stateOnRsrcEvent_serves (h : m.FindsActive w s) (answers : Answers) :
    (m.stateOnRsrcEvent w answers (.subscribe s)).Serves w s := by
  have hadd := addSubscriber_serves w h
  unfold stateOnRsrcEvent
  cases m.mStatePtr with
  | released => exact ((sendRsrcRequest_talk w ..).serves w s).2 hadd
  | pending => exact hadd
  | acquired =>
    have htalk := notifyRsrcStatus_talk w (n := ⟨.rcver (.caller s), .granted, false⟩) rfl s m
    refine addSubscriber_serves w fun p hp => ?_
    rw [htalk.deref]
    exact h p (by rwa [htalk.find] at hp)
  | releasing => exact hadd

/-! ## Calls -/

/-- The subscription is accepted if the machine is not reserved for the subscriber it has. -/
def Accepts (m : AgpsStateMachine) : Prop :=
  (m.mEnforceSingleSubscriber && m.hasSubscribers) = false

/-- The condition on a call: a subscription that is accepted does not find an inactive subscriber. -/
def FindsNoInactive (m : AgpsStateMachine) : AgpsCall → Prop
  | .subscribeRsrc s _ => m.Accepts → m.FindsActive w s
  | _ => True

/-- The client is served or was told the end of its subscription. -/
def Kept (c : Subscriber) (m : AgpsStateMachine) : Prop :=
  m.Serves w c ∨ endedBy w m.log c = true

theorem Talk.kept (h : Talk m m') (hc : Kept w c m) : Kept w c m' := by
  rcases hc with hserves | hended
  · exact .inl ((h.serves w c).2 hserves)
  · obtain ⟨acts, hacts⟩ := h.log
    exact .inr (by rw [hacts, endedBy_append, hended, Bool.true_or])

theorem stateOnRsrcEvent_kept (hm : m.Heaped) (answers : Answers)
    (hevent : ∀ p, event ≠ .unsubscribe p) (hc : Kept w c m) :
    Kept w c (m.stateOnRsrcEvent w answers event) := by
  have hleaves : Leaves w c event m := fun p hp => absurd hp (hevent p)
  rcases stateOnRsrcEvent_accounted w hm answers hleaves (hc.imp id .inl) with h | h | h
  · exact .inl h
  · exact .inr h
  · obtain ⟨⟨p, hp⟩, -⟩ := h
    exact absurd hp (hevent p)

theorem ofStatus_ne_unsubscribe {e : RsrcEvent} (h : ofStatus status = some e) (p : Nat) :
    e ≠ .unsubscribe p := by
  rintro rfl
  cases status <;> simp [ofStatus] at h

theorem onRsrcEvent_kept (hm : m.Holding w) (answers : Answers) (status : AgpsRsrcStatus)
    (hc : Kept w c m) : Kept w c (m.onRsrcEvent w answers status) := by
  unfold onRsrcEvent
  split
  · exact hc
  · next e he =>
    have hkept := stateOnRsrcEvent_kept w hm.heaped answers (ofStatus_ne_unsubscribe he) hc
    have hholding := hm.stateOnRsrcEvent w answers (listed_ofStatus he m)
    simp only
    split
    · exact stateOnRsrcEvent_kept w hholding.heaped answers (by simp) hkept
    · exact hkept

theorem subscribeRsrc_kept (hm : m.Heaped) (answers : Answers) (s : Subscriber) (hc : Kept w c m) :
    Kept w c (m.subscribeRsrc w answers s) := by
  unfold subscribeRsrc
  split
  · exact (notifyRsrcStatus_talk w rfl s m).kept w hc
  · exact stateOnRsrcEvent_kept w hm answers (by simp) hc

theorem subscribeRsrc_serves (answers : Answers)
    (h : m.Accepts → m.FindsActive w s) : Kept w s (m.subscribeRsrc w answers s) := by
  unfold subscribeRsrc
  split
  · obtain ⟨-, -, -, htold⟩ :=
      notifyRsrcStatus_told w (n := ⟨.broadcastAll, .denied, true⟩) rfl s m
    have hmem := htold.notified (s := s) (by simp [forMe])
    exact .inr (endedBy_of_mem w hmem (by simp) (Subscriber.equals_refl w s))
  · next haccepts => exact .inl (stateOnRsrcEvent_serves w (h (by simpa [Accepts] using haccepts)) answers)

theorem unsubscribeRsrc_kept (hm : m.Heaped) (s : Subscriber) (hc : Kept w c m)
    (hother : ∀ t, m.foundBy w (.unsubscribeRsrc s) = some t → t.equals w c = false) :
    Kept w c (m.unsubscribeRsrc w s) := by
  unfold unsubscribeRsrc
  split
  · next p hfind =>
    have hleaves : Leaves w (m.deref w p) (.unsubscribe p) m := by
      intro q hq
      obtain rfl : p = q := by simpa using hq
      exact ⟨hm.lt (find_caller_some w hfind).1, fun _ _ => rfl⟩
    rcases stateOnRsrcEvent_accounted w hm {} hleaves (hc.imp id .inl) with h | h | ⟨-, h⟩
    · exact .inl h
    · exact .inr h
    · rw [hother _ (by simp [foundBy, hfind])] at h
      cases h
  · exact hc

theorem mem_nextClients {cs : List Subscriber} {e : AgpsCall × AgpsReply}
    (hc : c ∈ nextClients w cs e) : endedBy w e.2.acts c = false ∧
      ((∃ answers, e.1 = .subscribeRsrc c answers) ∨
        (c ∈ cs ∧ ∀ s t, e.1 = .unsubscribeRsrc s → e.2.found = some t →
          t.equals w c = false)) := by
  obtain ⟨call, r⟩ := e
  obtain ⟨hc, hended⟩ := List.mem_filter.1 hc
  refine ⟨by simpa using hended, ?_⟩
  cases call with
  | subscribeRsrc s answers =>
    rcases List.mem_cons.1 hc with rfl | hc
    · exact .inl ⟨answers, rfl⟩
    · exact .inr ⟨hc, by simp⟩
  | _ =>
    cases hfound : r.found with
    | none =>
      simp only [hfound] at hc
      exact .inr ⟨hc, by simp⟩
    | some t =>
      simp only [hfound] at hc
      obtain ⟨hc, hne⟩ := List.mem_filter.1 hc
      refine .inr ⟨hc, fun s t' _ ht => ?_⟩
      obtain rfl : t = t' := by simpa using ht
      simpa using hne

/-- **One call.** Whoever is a client after it is served. -/
theorem handle_serves (hm : m.Holding w) {cs : List Subscriber} (hserves : ∀ c ∈ cs, m.Serves w c)
    {call : AgpsCall} (hcall : m.FindsNoInactive w call) {r : AgpsReply}
    (hacts : r.acts = (m.handle w call).log) (hfound : r.found = m.foundBy w call) :
    ∀ c ∈ nextClients w cs (call, r), (m.handle w call).Serves w c := by
  intro c hc
  obtain ⟨hended, hcome⟩ := mem_nextClients w hc
  have hkept : Kept w c (m.handle w call) := by
    rcases hcome with ⟨answers, hcome⟩ | ⟨hold, hstay⟩
    · simp only at hcome
      subst hcome
      exact subscribeRsrc_serves w answers hcall
    · have hold : Kept w c m := .inl (hserves c hold)
      cases call with
      | subscribeRsrc s answers => exact subscribeRsrc_kept w hm.heaped answers s hold
      | unsubscribeRsrc s =>
        refine unsubscribeRsrc_kept w hm.heaped s hold fun t ht => ?_
        exact hstay s t rfl (hfound.trans ht)
      | onRsrcEvent status answers => exact onRsrcEvent_kept w hm answers status hold
      | retryCallback =>
        unfold handle retryCallback
        simp only
        split
        · exact (put_talk _ m).kept w hold
        · exact hold
      | setAPN apn => exact hold
      | setBearer bearer => exact hold
  rcases hkept with h | h
  · exact h
  · rw [← hacts, hended] at h
    cases h

/-! ## What a client gets -/

theorem onRsrcEvent_granted (hs : m.mStatePtr = .pending) (hc : m.Serves w c) (answers : Answers) :
    ∃ s, s.equals w c = true ∧ .notified s .granted ∈ (m.onRsrcEvent w answers .granted).log := by
  obtain ⟨p, hp, heq, hactive⟩ := hc
  obtain ⟨-, htold⟩ :=
    notifySubscribers_keep w (n := ⟨.broadcastActive, .granted, false⟩) rfl rfl m
  have hmem := htold.notified (s := m.deref w p)
    (List.mem_filter.2 ⟨List.mem_map_of_mem hp, by simp [forMe, hactive]⟩)
  refine ⟨m.deref w p, heq, ?_⟩
  unfold onRsrcEvent ofStatus stateOnRsrcEvent
  simpa [hs, pendingOnRsrcEvent] using hmem

/-- A grant that comes late, when the connection is not requested any more, is told to nobody. -/
theorem onRsrcEvent_granted_late (hs : m.mStatePtr ≠ .pending) (answers : Answers) :
    (m.onRsrcEvent w answers .granted).log = m.log := by
  unfold onRsrcEvent ofStatus stateOnRsrcEvent
  cases h : m.mStatePtr with
  | pending => exact absurd h hs
  | released => simp [releasedOnRsrcEvent]
  | acquired => simp [acquiredOnRsrcEvent]
  | releasing => simp [releasingOnRsrcEvent]

theorem broadcastInactive_serves (h : status.told = true) (hm : m.Heaped) (hc : m.Serves w c) :
    (m.notifySubscribers w ⟨.broadcastInactive, status, true⟩).Serves w c := by
  obtain ⟨p, hp, heq, hactive⟩ := hc
  obtain ⟨ts, hwalk, -⟩ :=
    notifySubscribers_walked w (n := ⟨.broadcastInactive, status, true⟩) h rfl hm
  have hclean : CleanWalk w ⟨.broadcastInactive, status, true⟩ m
      (m.notifySubscribers w ⟨.broadcastInactive, status, true⟩) := by
    unfold notifySubscribers
    rw [if_pos rfl]
    exact notifyLoop_clean_of_not_mem w h rfl _ m hm (by simp [ReceiverLive]) (by simp) (by omega)
  have hp' : p ∈ (m.notifySubscribers w ⟨.broadcastInactive, status, true⟩).mSubscribers := by
    rw [hclean.removed]
    exact List.mem_filter.2 ⟨hp, by simp [forMe, hactive]⟩
  refine ⟨p, hp', ?_, ?_⟩
  · rw [hwalk.deref_of_mem w hp', heq]
  · rw [hwalk.deref_of_mem w hp', hactive]

theorem Serves.active (h : m.Serves w c) : m.Active w := by
  obtain ⟨p, hp, -, hactive⟩ := h
  exact ⟨p, hp, hactive⟩

theorem sendRsrcRequest_requests (answers : Answers) (h : m.Active w) : .requestAgpsDataConn ∈
      (m.sendRsrcRequest w answers .requestAgpsDataConn).1.commands := by
  cases hds : m.isDS with
  | false =>
    rw [(sendRsrcRequest_commands w answers _ hds (by simp [h])).1]
    exact List.mem_append_right _ (List.mem_singleton_self _)
  | true =>
    unfold sendRsrcRequest
    rw [if_pos hds]
    unfold sendRsrcRequestDS dataCallCb
    simp only
    split
    · split <;> simp [commands, informStatus, put, Act.command]
    split
    · simp [commands, informStatus, put, Act.command]
    split
    · simp [commands, put, Act.command]
    split <;> simp [commands, informStatus, put, Act.command]

theorem onRsrcEvent_released (hm : m.Heaped) (hs : m.mStatePtr = .releasing) (hc : m.Serves w c)
    (answers : Answers) : (m.onRsrcEvent w answers .released).mStatePtr = .pending ∧
      .requestAgpsDataConn ∈ (m.onRsrcEvent w answers .released).commands ∧
      (m.onRsrcEvent w answers .released).Serves w c := by
  have hserves : (m.notifySubscribers w ⟨.broadcastInactive, .released, true⟩).Serves w c :=
    broadcastInactive_serves w rfl hm hc
  have hactive := (hasActiveSubscribers_iff w _).2 (hserves.active w)
  have hrequests := sendRsrcRequest_requests w answers (hserves.active w)
  have htalk := sendRsrcRequest_talk w answers .requestAgpsDataConn
    (m.notifySubscribers w ⟨.broadcastInactive, .released, true⟩)
  have heq : m.onRsrcEvent w answers .released =
      { ((m.notifySubscribers w ⟨.broadcastInactive, .released, true⟩).sendRsrcRequest w answers
        .requestAgpsDataConn).1 with mStatePtr := .pending } := by
    unfold onRsrcEvent ofStatus stateOnRsrcEvent
    simp [hs, releasingOnRsrcEvent, closed, hactive]
  rw [heq]
  exact ⟨rfl, hrequests, (htalk.serves w c).2 hserves⟩

/-! ## Runs -/

/-- A machine that was just made. -/
inductive Made : AgpsStateMachine → Prop
  | plain (mType : Int) (enforce : Bool) : Made (init mType enforce)
  | emergency : Made initDS

theorem Made.holding (h : Made m) : m.Holding w := by
  cases h with
  | plain mType enforce => exact (init_inStep w (k := .atl) mType enforce).toHolding
  | emergency =>
    exact ⟨⟨List.nodup_nil, by simp [initDS], fun _ _ => rfl⟩,
      fun _ p hp => absurd hp (by simp [initDS]), fun h => absurd h (by simp [initDS])⟩

/-- **Runs in which no accepted subscription finds an inactive subscriber.** Every client is served:
    it is told a grant just if that comes while the connection is requested, and if the release is
    done while the machine waits for it the connection is requested again and the client is still
    served. -/
theorem run_serves {m₀ : AgpsStateMachine} {tr : List (AgpsCall × AgpsReply)} (hm₀ : Made m₀)
    (run : Run (step w) (fun m c => m.FindsNoInactive w c) m₀ tr m) :
    ∀ c ∈ clients w tr, m.Serves w c ∧
      (∀ answers m' r, step w m (.onRsrcEvent .granted answers) = .ok (m', r) →
        ((∃ s, s.equals w c = true ∧ .notified s .granted ∈ r.acts) ↔ m.mStatePtr = .pending)) ∧
      (m.mStatePtr = .releasing → ∀ answers m' r,
        step w m (.onRsrcEvent .released answers) = .ok (m', r) →
          m'.mStatePtr = .pending ∧ .requestAgpsDataConn ∈ r.acts.filterMap Act.command ∧
            m'.Serves w c) := by
  have hinv : m.Holding w ∧ ∀ c ∈ clients w tr, m.Serves w c := by
    refine run.invariant (fun tr m => m.Holding w ∧ ∀ c ∈ clients w tr, m.Serves w c) ?_ ?_
    · exact ⟨hm₀.holding w, by simp [clients]⟩
    · rintro tr m call m' r ⟨hholding, hserves⟩ hcall hstep
      obtain ⟨rfl, hacts, hfound⟩ := step_ok w hstep
      refine ⟨(hholding.quiet w).handle w call, ?_⟩
      rw [clients, List.foldl_concat]
      exact handle_serves w (hholding.quiet w) hserves hcall hacts hfound
  intro c hc
  have hserves := hinv.2 c hc
  refine ⟨hserves, fun answers m' r hstep => ?_, fun hs answers m' r hstep => ?_⟩
  · obtain ⟨rfl, hacts, -⟩ := step_ok w hstep
    rw [hacts]
    refine ⟨fun ⟨s, _, htold⟩ => ?_, fun hs =>
      onRsrcEvent_granted w (m := { m with log := [] }) hs hserves answers⟩
    by_contra hs
    have hlate := onRsrcEvent_granted_late w (m := { m with log := [] }) hs answers
    exact absurd (hlate ▸ htold) List.not_mem_nil
  · obtain ⟨rfl, hacts, -⟩ := step_ok w hstep
    rw [hacts]
    exact onRsrcEvent_released w (hinv.1.quiet w).heaped hs hserves answers

instance (m : AgpsStateMachine) (c : Subscriber) : Decidable (m.Serves w c) :=
  inferInstanceAs (Decidable (∃ p ∈ m.mSubscribers, _ ∧ _))

instance (m : AgpsStateMachine) (s : Subscriber) : Decidable (m.FindsActive w s) :=
  decidable_of_iff ((m.find w (.rcver (.caller s))).all fun p => !(m.deref w p).isInactive)
    (by cases h : m.find w (.rcver (.caller s)) <;> simp [FindsActive, h])

instance (m : AgpsStateMachine) (call : AgpsCall) : Decidable (m.FindsNoInactive w call) :=
  match call with
  | .subscribeRsrc s _ => inferInstanceAs (Decidable (_ = false → m.FindsActive w s))
  | .unsubscribeRsrc _ | .onRsrcEvent .. | .retryCallback | .setAPN _
  | .setBearer _ => .isTrue trivial

/-- One client leaves, and another one comes before the release is done. -/
def changeCalls : List AgpsCall :=
  [.subscribeRsrc (wifiClient 0) {}, .onRsrcEvent .granted {}, .unsubscribeRsrc (wifiClient 0),
    .subscribeRsrc (wifiClient 1) {}]

/-- The theorem at that run: the new client is served, and the release will get it a request. -/
theorem run_serves_change :
    ∃ tr m, Run (step strayZero) (fun m c => m.FindsNoInactive strayZero c) (init 4 false) tr m ∧
      wifiClient 1 ∈ clients strayZero tr ∧ m.mStatePtr = .releasing ∧
        m.Serves strayZero (wifiClient 1) := by
  have hend : (exec (step strayZero) (init 4 false) changeCalls).toOption.map
      (fun x => (decide (wifiClient 1 ∈ clients strayZero x.2), x.1.mStatePtr)) =
        some (true, .releasing) := by
    decide +kernel
  have hall : allMeet (step strayZero) (fun m c => decide (m.FindsNoInactive strayZero c))
      (init 4 false) changeCalls = true := by
    decide +kernel
  obtain ⟨m, tr, hexec, hend⟩ := exec_of_map hend
  have hclient : wifiClient 1 ∈ clients strayZero tr :=
    of_decide_eq_true (congrArg Prod.fst hend)
  have hstate : m.mStatePtr = .releasing := congrArg Prod.snd hend
  have run := Run.of_exec_of_allMeet (C := fun m c => m.FindsNoInactive strayZero c)
    (fun m c _ h => of_decide_eq_true h) hexec hall
  exact ⟨tr, m, run, hclient, hstate, (run_serves strayZero (.plain 4 false) run _ hclient).1⟩

/-- A client leaves and comes back before the release is done. -/
def comeBackCalls : List AgpsCall :=
  [.subscribeRsrc (wifiClient 0) {}, .unsubscribeRsrc (wifiClient 0),
    .subscribeRsrc (wifiClient 0) {}]

/-- It is dropped: the subscription finds its old subscriber, which stays inactive. -/
theorem run_drops_comeBack :
    ∃ tr m, Run (step strayZero) (fun _ _ => True) (init 4 false) tr m ∧
      wifiClient 0 ∈ clients strayZero tr ∧ ¬ m.Serves strayZero (wifiClient 0) := by
  have hend : (exec (step strayZero) (init 4 false) comeBackCalls).toOption.map
      (fun x => (decide (wifiClient 0 ∈ clients strayZero x.2),
        decide (x.1.Serves strayZero (wifiClient 0)))) = some (true, false) := by
    decide +kernel
  obtain ⟨m, tr, hexec, hend⟩ := exec_of_map hend
  have hclient : wifiClient 0 ∈ clients strayZero tr :=
    of_decide_eq_true (congrArg Prod.fst hend)
  have hnot : ¬ m.Serves strayZero (wifiClient 0) :=
    of_decide_eq_false (congrArg Prod.snd hend)
  exact ⟨tr, m, Run.of_exec (C := fun _ => True) hexec (by simp), hclient, hnot⟩

end AgpsStateMachine

end Nx508j.Loc
