import Mathlib.Logic.Relation
import Nx508j.Loc.AgpsReceiver

/-! # The parts of an event

Whatever the state, an event only talks, walks the list to tell and delete subscribers, marks one
inactive or adds one. What each of these parts keeps, every event keeps. -/

namespace Nx508j.Loc

open Nx508j.Lib Function

namespace AgpsStateMachine

variable (w : StrayMemory) {m m' m'' : AgpsStateMachine} {event : RsrcEvent} {answers : Answers}
  {n : Notification}

/-- Nothing but the log, the retry counter and the record of what is touched. -/
structure Talk (m m' : AgpsStateMachine) : Prop extends SameList m m', SameSettings m m' where
  log : ∃ acts, m'.log = m.log ++ acts

theorem Talk.refl (m : AgpsStateMachine) : Talk m m := ⟨⟨rfl, rfl⟩, .refl m, [], by simp⟩

theorem Talk.trans (h : Talk m m') (h' : Talk m' m'') : Talk m m'' := by
  obtain ⟨acts, hacts⟩ := h.log
  obtain ⟨acts', hacts'⟩ := h'.log
  exact ⟨h.toSameList.trans h'.toSameList, h.toSameSettings.trans h'.toSameSettings, acts ++ acts',
    by rw [hacts', hacts, List.append_assoc]⟩

theorem Told.talk {status : AgpsRsrcStatus} {ts : List Subscriber} (h : Told status ts m m')
    (hlist : SameList m m') : Talk m m' :=
  ⟨hlist, h.toSameSettings, _, h.log⟩

theorem put_talk (a : Act) (m : AgpsStateMachine) : Talk m (m.put a) :=
  ⟨⟨rfl, rfl⟩, ⟨rfl, rfl, rfl, rfl, rfl, rfl, rfl⟩, [a], rfl⟩

theorem informStatus_talk (status : AgpsRsrcStatus) (ID : UInt32) (m : AgpsStateMachine) :
    Talk m (m.informStatus status ID) := by
  cases status with
  | denied => exact ⟨⟨rfl, rfl⟩, ⟨rfl, rfl, rfl, rfl, rfl, rfl, rfl⟩, _, rfl⟩
  | subscribe => exact Talk.refl m
  | statusMax => exact Talk.refl m
  | _ => exact put_talk _ m

theorem dataCallCb_talk (answers : Answers) (action : AGpsStatusValue) (m : AgpsStateMachine) :
    Talk m (m.dataCallCb answers action).1 := by
  cases action <;> exact put_talk _ m

theorem sendRsrcRequestDS_talk (answers : Answers) (action : AGpsStatusValue)
    (m : AgpsStateMachine) : Talk m (m.sendRsrcRequestDS w answers action).1 := by
  unfold sendRsrcRequestDS
  have hcall := dataCallCb_talk answers action m
  generalize m.connHandle w = connHandle
  cases hcb : m.dataCallCb answers action with
  | mk m₁ ret =>
    rw [hcb] at hcall
    have hinc : Talk m₁ { m₁ with mRetries := m₁.mRetries + 1 } :=
      ⟨⟨rfl, rfl⟩, ⟨rfl, rfl, rfl, rfl, rfl, rfl, rfl⟩, [], by simp⟩
    have hdenied : Talk m (m₁.informStatus .denied connHandle) :=
      hcall.trans (informStatus_talk .denied connHandle m₁)
    simp only
    split
    · split
      · exact (hcall.trans hinc).trans (informStatus_talk .denied connHandle _)
      · exact (hcall.trans hinc).trans (put_talk ..)
    split
    · exact hdenied
    split
    · exact hcall
    split
    · exact hdenied
    · exact hcall

theorem sendRsrcRequest_talk (answers : Answers) (action : AGpsStatusValue)
    (m : AgpsStateMachine) : Talk m (m.sendRsrcRequest w answers action).1 := by
  unfold sendRsrcRequest
  split
  · exact sendRsrcRequestDS_talk w answers action m
  simp only
  split
  · exact put_talk _ m
  · exact Talk.refl m

theorem notifyRsrcStatus_talk (h : n.rsrcStatus.told = true) (s : Subscriber)
    (m : AgpsStateMachine) : Talk m (m.notifyRsrcStatus w s n).1 :=
  have htold := notifyRsrcStatus_told w h s m
  htold.2.2.2.talk htold.2.1

/-- Telling the subscribers changes none. -/
theorem notifySubscribers_keep (h : n.rsrcStatus.told = true)
    (hdel : n.postNotifyDelete = false) (m : AgpsStateMachine) :
    SameList m (m.notifySubscribers w n) ∧
      Told n.rsrcStatus ((m.mSubscribers.map (m.deref w)).filter (m.forMe w n.receiver)) m
        (m.notifySubscribers w n) := by
  unfold notifySubscribers
  rw [if_neg (by simp [hdel])]
  exact linkedListSearch_keep w h hdel m.mSubscribers m

/-- Telling and deleting them is a walk over the list. -/
theorem notifySubscribers_walked (h : n.rsrcStatus.told = true)
    (hdel : n.postNotifyDelete = true) (hm : m.Heaped) :
    ∃ ts, Walked w n.rsrcStatus ts m (m.notifySubscribers w n) ∧
      ∀ p ∈ (m.notifySubscribers w n).mSubscribers, (m.notifySubscribers w n).forMe w n.receiver
        ((m.notifySubscribers w n).deref w p) = false := by
  unfold notifySubscribers
  rw [if_pos hdel]
  exact notifyLoop_walked w h hdel _ m hm.nodup (by omega)

/-! ## The parts -/

/-- A part of the event `event`. -/
inductive Part (event : RsrcEvent) (m m' : AgpsStateMachine) : Prop where
  | talk (h : Talk m m')
  | walk {status : AgpsRsrcStatus} {ts : List Subscriber} (hstatus : status ≠ .granted)
      (h : Walked w status ts m m')
  | inactive {p : Nat} (hevent : event = .unsubscribe p)
      (hwait : (m.deref w p).waitForCloseComplete = true) (hlist : m'.mSubscribers = m.mSubscribers)
      (hheap : m'.heap = update m.heap p (some (m.deref w p).inactive))
      (hsame : SameSettings m m') (hlog : ∃ acts, m'.log = m.log ++ acts)
  | add {s : Subscriber} (hevent : event = .subscribe s)
      (hfind : m.find w (.rcver (.caller s)) = none) (h : m' = m.linkedListAdd s.clone)

/-- Parts one after the other. -/
abbrev Parts (event : RsrcEvent) : AgpsStateMachine → AgpsStateMachine → Prop :=
  Relation.ReflTransGen (Part w event)

/-- What every part keeps. -/
theorem Parts.keep {P : AgpsStateMachine → Prop} (h : Parts w event m m')
    (hkeep : ∀ m m', Part w event m m' → P m → P m') (hm : P m) : P m' := by
  induction h with
  | refl => exact hm
  | tail _ hpart ih => exact hkeep _ _ hpart ih

theorem linkedListAdd_heaped (hm : m.Heaped) (s : Subscriber) : (m.linkedListAdd s).Heaped where
  nodup := List.nodup_cons.2 ⟨fun hc => absurd (hm.lt hc) (by omega), hm.nodup⟩
  live p hp := by
    show (update m.heap m.next (some s) p).isSome = true
    rw [update_apply]
    split
    · rfl
    · next hne => exact hm.live p ((List.mem_cons.1 hp).resolve_left hne)
  fresh p hp := by
    have hp : m.next + 1 ≤ p := hp
    show update m.heap m.next (some s) p = none
    rw [update_of_ne (by omega)]
    exact hm.fresh p (by omega)

theorem Part.next_le (h : Part w event m m') : m.next ≤ m'.next := by
  cases h with
  | talk h => exact Nat.le_of_eq h.next.symm
  | walk _ h => exact Nat.le_of_eq h.next.symm
  | inactive _ _ _ _ hsame => exact Nat.le_of_eq hsame.next.symm
  | add _ _ h =>
    rw [h]
    exact Nat.le_succ _

theorem Part.isDS (h : Part w event m m') : m'.isDS = m.isDS := by
  cases h with
  | talk h => exact h.isDS
  | walk _ h => exact h.isDS
  | inactive _ _ _ _ hsame => exact hsame.isDS
  | add _ _ h => rw [h, linkedListAdd]

/-- A part keeps the list on the heap. -/
theorem Part.heaped (h : Part w event m m') (hm : m.Heaped)
    (hevent : ∀ p, event = .unsubscribe p → p < m.next) : m'.Heaped := by
  cases h with
  | talk h =>
    refine ⟨h.mSubscribers ▸ hm.nodup, fun p hp => ?_, fun p hp => ?_⟩
    · rw [h.heap]
      exact hm.live p (h.mSubscribers ▸ hp)
    · rw [h.heap]
      exact hm.fresh p (h.next ▸ hp)
  | walk _ h => exact h.heaped w hm
  | @inactive p hp _ hlist hheap hsame =>
    have hlt := hevent p hp
    refine ⟨hlist ▸ hm.nodup, fun q hq => ?_, fun q hq => ?_⟩
    · rw [hheap, update_apply]
      split
      · rfl
      · exact hm.live q (hlist ▸ hq)
    · rw [hsame.next] at hq
      rw [hheap, update_of_ne (by omega)]
      exact hm.fresh q hq
  | add _ _ h =>
    rw [h]
    exact linkedListAdd_heaped hm _

/-- The end of a subscription concerns a subscriber on the list. -/
def Listed (event : RsrcEvent) (m : AgpsStateMachine) : Prop :=
  ∀ p, event = .unsubscribe p → p ∈ m.mSubscribers

theorem Parts.heaped (h : Parts w event m m') (hm : m.Heaped) (hevent : Listed event m) :
    m'.Heaped := by
  have hkeep : m'.Heaped ∧ ∀ p, event = .unsubscribe p → p < m'.next := by
    refine h.keep w (P := fun m => m.Heaped ∧ ∀ p, event = .unsubscribe p → p < m.next)
      (fun m m' hpart hm => ?_) ⟨hm, fun p hp => hm.lt (hevent p hp)⟩
    exact ⟨hpart.heaped w hm.1 hm.2, fun p hp => Nat.lt_of_lt_of_le (hm.2 p hp) (hpart.next_le w)⟩
  exact hkeep.1

/-! ## Every event is made of parts -/

theorem Parts.of_talk (h : Talk m m') : Parts w event m m' := .single (.talk h)

theorem Parts.then_talk (h : Parts w event m m') (h' : Talk m' m'') : Parts w event m m'' :=
  h.tail (.talk h')

theorem notifySubscribers_parts (n : Notification) (h : n.rsrcStatus.told = true)
    (hne : n.postNotifyDelete = true → n.rsrcStatus ≠ .granted) (hm : m.Heaped) :
    Parts w event m (m.notifySubscribers w n) := by
  cases hdel : n.postNotifyDelete with
  | true =>
    obtain ⟨ts, hwalk, -⟩ := notifySubscribers_walked w h hdel hm
    exact .single (.walk (hne hdel) hwalk)
  | false =>
    obtain ⟨hlist, htold⟩ := notifySubscribers_keep w h hdel m
    exact .of_talk w (htold.talk hlist)

theorem addSubscriber_parts (s : Subscriber) (m : AgpsStateMachine) :
    Parts w (.subscribe s) m (m.addSubscriber w s) := by
  unfold addSubscriber
  split
  · exact .refl
  · next hfind => exact .single (.add rfl hfind rfl)

theorem setInactive_spec (p : Nat) (m : AgpsStateMachine) :
    (m.setInactive w p).mSubscribers = m.mSubscribers ∧
      (m.setInactive w p).heap = update m.heap p (some (m.deref w p).inactive) ∧
      SameSettings m (m.setInactive w p) ∧ ∃ acts, (m.setInactive w p).log = m.log ++ acts := by
  unfold setInactive
  simp only
  split
  · exact ⟨rfl, rfl, ⟨rfl, rfl, rfl, rfl, rfl, rfl, rfl⟩, _, rfl⟩
  · exact ⟨rfl, rfl, ⟨rfl, rfl, rfl, rfl, rfl, rfl, rfl⟩, [], by simp⟩

/-- A subscriber becomes inactive, or goes. -/
theorem leave_parts (hm : m.Heaped) (p : Nat) : Parts w (.unsubscribe p) m (m.leave w p) := by
  unfold leave
  split
  · next hwait =>
    obtain ⟨hlist, hheap, hsame, hlog⟩ := setInactive_spec w p m
    exact .single (.inactive rfl hwait hlist hheap hsame hlog)
  · exact notifySubscribers_parts w _ rfl (by simp) hm

theorem unsubscribed_parts (hm : m.Heaped) (here : AgpsState) (p : Nat) :
    Parts w (.unsubscribe p) m (m.unsubscribed w here p).1 := by
  unfold unsubscribed
  have hleave := leave_parts w hm p
  simp only
  split
  · exact hleave.then_talk w (sendRsrcRequest_talk ..)
  split
  · exact hleave.then_talk w (sendRsrcRequest_talk ..)
  · exact hleave

theorem releasedOnRsrcEvent_parts (answers : Answers) (event : RsrcEvent) (m : AgpsStateMachine) :
    Parts w event m (m.releasedOnRsrcEvent w answers event).1 := by
  cases event with
  | subscribe s => exact (addSubscriber_parts w s m).then_talk w (sendRsrcRequest_talk ..)
  | unsubscribe p => exact .of_talk w (notifyRsrcStatus_talk w (by rfl) _ m)
  | _ => exact .refl

theorem pendingOnRsrcEvent_parts (hm : m.Heaped) (event : RsrcEvent) :
    Parts w event m (m.pendingOnRsrcEvent w event).1 := by
  cases event with
  | subscribe s => exact addSubscriber_parts w s m
  | unsubscribe p => exact unsubscribed_parts w hm .pending p
  | granted => exact notifySubscribers_parts w ⟨.broadcastActive, .granted, false⟩ rfl (by simp) hm
  | released => exact .refl
  | denied => exact notifySubscribers_parts w ⟨.broadcastAll, .denied, true⟩ rfl (by simp) hm

theorem acquiredOnRsrcEvent_parts (hm : m.Heaped) (event : RsrcEvent) :
    Parts w event m (m.acquiredOnRsrcEvent w event).1 := by
  cases event with
  | subscribe s =>
    have htalk := notifyRsrcStatus_talk w (n := ⟨.rcver (.caller s), .granted, false⟩) rfl s m
    exact (Parts.of_talk w htalk).trans (addSubscriber_parts w s _)
  | unsubscribe p => exact unsubscribed_parts w hm .acquired p
  | granted => exact .refl
  | released => exact notifySubscribers_parts w ⟨.broadcastAll, .released, true⟩ rfl (by simp) hm
  | denied => exact .refl

theorem closed_parts (hm : m.Heaped) (answers : Answers) {status : AgpsRsrcStatus}
    (hstatus : status.told = true) (hne : status ≠ .granted) :
    Parts w event m (m.closed w answers status).1 := by
  unfold closed
  have hwalk : Parts w event m (m.notifySubscribers w ⟨.broadcastInactive, status, true⟩) :=
    notifySubscribers_parts w _ hstatus (fun _ => hne) hm
  simp only
  split
  · exact hwalk.then_talk w (sendRsrcRequest_talk ..)
  · exact hwalk

theorem releasingOnRsrcEvent_parts (hm : m.Heaped) (answers : Answers) (event : RsrcEvent) :
    Parts w event m (m.releasingOnRsrcEvent w answers event).1 := by
  cases event with
  | subscribe s => exact addSubscriber_parts w s m
  | unsubscribe p => exact leave_parts w hm p
  | granted => exact .refl
  | released | denied => exact closed_parts w hm answers (by rfl) (by simp)

/-- **The parts of an event.** -/
theorem stateOnRsrcEvent_parts (hm : m.Heaped) (answers : Answers) (event : RsrcEvent) :
    ∃ m₁ state, Parts w event m m₁ ∧
      m.stateOnRsrcEvent w answers event = { m₁ with mStatePtr := state } := by
  unfold stateOnRsrcEvent
  cases hs : m.mStatePtr with
  | released => exact ⟨_, _, releasedOnRsrcEvent_parts w answers event m, rfl⟩
  | pending => exact ⟨_, _, pendingOnRsrcEvent_parts w hm event, rfl⟩
  | acquired => exact ⟨_, _, acquiredOnRsrcEvent_parts w hm event, rfl⟩
  | releasing => exact ⟨_, _, releasingOnRsrcEvent_parts w hm answers event, rfl⟩

end AgpsStateMachine

end Nx508j.Loc
