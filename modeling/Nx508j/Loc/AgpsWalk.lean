import Mathlib.Data.List.Nodup
import Nx508j.Loc.AgpsStateMachine

/-! # What a notification does to the list of subscribers

A notification that deletes searches the list from its head again for each subscriber it deletes. It
is compared with the object of its receiver each time, so if the receiver is a subscriber on the list
that object is read once more after it was deleted, unless nothing is left on the list. -/

namespace Nx508j.Loc

open Nx508j.Lib Function

/-- The statuses a subscriber can be told. -/
def AgpsRsrcStatus.told : AgpsRsrcStatus → Bool
  | .unsubscribe => true
  | .granted => true
  | .released => true
  | .denied => true
  | _ => false

/-- The command to the connectivity service that an act is. -/
def Act.command : Act → Option AGpsStatusValue
  | .requestRsrc nifRequest => some nifRequest.status
  | .openAndStartDataCall _ => some .requestAgpsDataConn
  | .stopDataCall => some .releaseAgpsDataConn
  | _ => none

namespace Subscriber

variable (w : StrayMemory) (s : Subscriber)

def kind (s : Subscriber) : Kind := s.cls.kind

@[simp] theorem equals_refl : s.equals w s = true := by
  unfold equals ipv6Addr
  cases s.cls <;> simp [strncmpEq]

theorem clone_equals_left (s t : Subscriber) : s.clone.equals w t = s.equals w t := by
  unfold equals clone
  cases hs : s.cls <;> simp [hs]

@[simp] theorem clone_equals : s.clone.equals w s = true := by
  rw [clone_equals_left, equals_refl]

@[simp] theorem clone_isInactive : s.clone.isInactive = false := by
  unfold isInactive clone
  cases hs : s.cls <;> simp [hs]

@[simp] theorem clone_kind : s.clone.kind = s.kind := by
  unfold kind clone
  cases hs : s.cls <;> simp [hs, SubscriberClass.kind]

@[simp] theorem clone_ID : s.clone.ID = s.ID := by
  unfold clone
  cases s.cls <;> rfl

@[simp] theorem inactive_ID : s.inactive.ID = s.ID := by
  unfold inactive
  cases s.cls <;> rfl

@[simp] theorem inactive_kind : s.inactive.kind = s.kind := by
  unfold kind inactive
  cases hs : s.cls <;> simp [hs, SubscriberClass.kind]

theorem equals_of_wait {s : Subscriber} (h : s.waitForCloseComplete = true) (t : Subscriber) :
    s.equals w t = (s.ID == t.ID) := by
  unfold waitForCloseComplete at h
  unfold equals
  cases hs : s.cls <;> simp_all

theorem inactive_equals {s : Subscriber} (h : s.waitForCloseComplete = true) (t : Subscriber) :
    s.inactive.equals w t = s.equals w t := by
  have h' : s.inactive.waitForCloseComplete = true := by
    unfold waitForCloseComplete at h ⊢
    unfold inactive
    cases hs : s.cls <;> simp_all
  rw [equals_of_wait w h, equals_of_wait w h', inactive_ID]

end Subscriber

namespace AgpsStateMachine

variable (w : StrayMemory) {m m' m'' : AgpsStateMachine} {n : Notification}

@[simp] theorem put_log (a : Act) (m : AgpsStateMachine) : (m.put a).log = m.log ++ [a] := rfl

/-! ## Telling one subscriber -/

/-- What a subscriber puts into the log when it is told a status. -/
def acts (m : AgpsStateMachine) (status : AgpsRsrcStatus) (s : Subscriber) : List Act :=
  .notified s status :: ((({ m with log := [] }).tell s status).map AgpsStateMachine.log).getD []

/-- The retry counter after a subscriber was told a status. -/
def retriesAfter (status : AgpsRsrcStatus) (s : Subscriber) (retries : UInt8) : UInt8 :=
  if s.kind = .ds ∧ status = .denied then 0 else retries

/-- What a subscriber is told. -/
theorem tell_of_told {status : AgpsRsrcStatus} (h : status.told = true) (s : Subscriber)
    (m : AgpsStateMachine) :
    (m.put (.notified s status)).tell s status =
      some { m with
        log := m.log ++ m.acts status s
        mRetries := retriesAfter status s m.mRetries } := by
  unfold tell acts tell retriesAfter Subscriber.kind
  cases hs : s.cls <;> cases status <;>
    simp_all [put, informStatus, AgpsRsrcStatus.told, SubscriberClass.kind]

theorem command_of_mem_acts {m : AgpsStateMachine} {status : AgpsRsrcStatus} {s : Subscriber}
    {a : Act} (h : a ∈ m.acts status s) : a.command = none := by
  unfold acts tell at h
  cases hs : s.cls <;> cases status <;>
    simp_all [put, informStatus] <;> rcases h with rfl | rfl <;> rfl

/-- The settings of a machine, which notifications read and do not change. -/
structure SameSettings (m m' : AgpsStateMachine) : Prop where
  mStatePtr : m'.mStatePtr = m.mStatePtr
  mType : m'.mType = m.mType
  mAPN : m'.mAPN = m.mAPN
  mBearer : m'.mBearer = m.mBearer
  mEnforceSingleSubscriber : m'.mEnforceSingleSubscriber = m.mEnforceSingleSubscriber
  isDS : m'.isDS = m.isDS
  next : m'.next = m.next

theorem SameSettings.refl (m : AgpsStateMachine) : SameSettings m m :=
  ⟨rfl, rfl, rfl, rfl, rfl, rfl, rfl⟩

theorem SameSettings.trans (h : SameSettings m m') (h' : SameSettings m' m'') :
    SameSettings m m'' :=
  ⟨h'.1.trans h.1, h'.2.trans h.2, h'.3.trans h.3, h'.4.trans h.4, h'.5.trans h.5, h'.6.trans h.6,
    h'.7.trans h.7⟩

theorem SameSettings.acts (h : SameSettings m m') (status : AgpsRsrcStatus) (s : Subscriber) :
    m'.acts status s = m.acts status s := by
  unfold AgpsStateMachine.acts tell
  cases s.cls <;> cases status <;> simp [put, informStatus, h.mType, h.mAPN, h.mBearer]

/-- The subscribers `ts` were told a status one after the other. -/
structure Told (status : AgpsRsrcStatus) (ts : List Subscriber) (m m' : AgpsStateMachine) : Prop
    extends SameSettings m m' where
  log : m'.log = m.log ++ ts.flatMap (m.acts status)
  mRetries : m'.mRetries = ts.foldl (fun r s => retriesAfter status s r) m.mRetries

variable {status : AgpsRsrcStatus} {ts ts' : List Subscriber} {p : Nat}

theorem Told.refl (status : AgpsRsrcStatus) (m : AgpsStateMachine) : Told status [] m m :=
  ⟨.refl m, by simp, rfl⟩

theorem Told.trans (h : Told status ts m m') (h' : Told status ts' m' m'') :
    Told status (ts ++ ts') m m'' := by
  refine ⟨h.toSameSettings.trans h'.toSameSettings, ?_, ?_⟩
  · have hacts : m'.acts status = m.acts status := funext (h.toSameSettings.acts status)
    rw [h'.log, h.log, hacts, List.append_assoc, List.flatMap_append]
  · rw [h'.mRetries, h.mRetries, List.foldl_append]

/-- Telling sends no command. -/
theorem Told.commands (h : Told status ts m m') :
    m'.log.filterMap Act.command = m.log.filterMap Act.command := by
  have hnone : (ts.flatMap (m.acts status)).filterMap Act.command = [] := by
    refine List.filterMap_eq_nil_iff.2 fun a ha => ?_
    obtain ⟨s, -, hs⟩ := List.mem_flatMap.1 ha
    exact command_of_mem_acts hs
  rw [h.log, List.filterMap_append, hnone, List.append_nil]

theorem Told.notified (h : Told status ts m m') {s : Subscriber} (hs : s ∈ ts) :
    .notified s status ∈ m'.log := by
  rw [h.log]
  exact List.mem_append_right _ (List.mem_flatMap.2 ⟨s, hs, List.mem_cons_self ..⟩)

/-! ## The callback and the search -/

/-- The list and the heap are as they were. -/
structure SameList (m m' : AgpsStateMachine) : Prop where
  mSubscribers : m'.mSubscribers = m.mSubscribers
  heap : m'.heap = m.heap

theorem SameList.deref (h : SameList m m') (p : Nat) : m'.deref w p = m.deref w p := by
  unfold AgpsStateMachine.deref
  rw [h.heap]

theorem SameList.forMe (h : SameList m m') (receiver : Receiver) (s : Subscriber) :
    m'.forMe w receiver s = m.forMe w receiver s := by
  unfold AgpsStateMachine.forMe load
  split
  · split
    · rfl
    · rw [h.deref]
  all_goals rfl

theorem SameList.trans (h : SameList m m') (h' : SameList m' m'') : SameList m m'' :=
  ⟨h'.1.trans h.1, h'.2.trans h.2⟩

theorem SameList.find (h : SameList m m') (receiver : Receiver) :
    m'.find w receiver = m.find w receiver := by
  unfold AgpsStateMachine.find
  rw [h.mSubscribers]
  congr 1
  funext p
  rw [h.deref, h.forMe]

theorem notifyRsrcStatus_told (h : n.rsrcStatus.told = true) (s : Subscriber)
    (m : AgpsStateMachine) : (m.notifyRsrcStatus w s n).2 = m.forMe w n.receiver s ∧
      SameList m (m.notifyRsrcStatus w s n).1 ∧
      (m.notifyRsrcStatus w s n).1.touched = m.touched ∧
      Told n.rsrcStatus (if m.forMe w n.receiver s then [s] else []) m
        (m.notifyRsrcStatus w s n).1 := by
  unfold notifyRsrcStatus
  split
  · next hme =>
    rw [tell_of_told h]
    exact ⟨hme.symm, ⟨rfl, rfl⟩, rfl,
      ⟨⟨rfl, rfl, rfl, rfl, rfl, rfl, rfl⟩, by simp, by simp⟩⟩
  · next hme =>
    refine ⟨(Bool.eq_false_iff.2 hme).symm, ⟨rfl, rfl⟩, rfl, ?_⟩
    exact Told.refl _ m

/-- The subscribers that are passed to the callback for the element at `p`. -/
def touches (m : AgpsStateMachine) (n : Notification) (p : Nat) : List (Nat × Bool) :=
  (p, (m.heap p).isSome) ::
    match n.receiver with
    | .rcver (.cell q) => [(q, (m.heap q).isSome)]
    | _ => []

theorem SameList.touches (h : SameList m m') (n : Notification) (p : Nat) :
    m'.touches n p = m.touches n p := by
  unfold AgpsStateMachine.touches
  rw [h.heap]

/-- One subscriber of the walk. -/
theorem notifySubscriber_eq (n : Notification) (p : Nat) (m : AgpsStateMachine) :
    ∃ m₁, SameList m m₁ ∧ m₁.touched = m.touched ++ m.touches n p ∧ Told n.rsrcStatus [] m m₁ ∧
      m.notifySubscriber w n p = ((m₁.notifyRsrcStatus w (m₁.deref w p) n).1,
        (m₁.notifyRsrcStatus w (m₁.deref w p) n).2 && n.postNotifyDelete) := by
  have htold : ∀ (m : AgpsStateMachine) q, Told n.rsrcStatus [] m (m.touch q) := fun m q =>
    ⟨⟨rfl, rfl, rfl, rfl, rfl, rfl, rfl⟩, by simp [touch], rfl⟩
  unfold touches notifySubscriber
  cases n.receiver with
  | rcver r =>
    cases r with
    | caller s => exact ⟨m.touch p, ⟨rfl, rfl⟩, rfl, htold m p, rfl⟩
    | cell q =>
      refine ⟨(m.touch p).touch q, ⟨rfl, rfl⟩, ?_, (htold m p).trans (htold _ q), rfl⟩
      simp [touch]
  | broadcastAll | broadcastActive
  | broadcastInactive => exact ⟨m.touch p, ⟨rfl, rfl⟩, rfl, htold m p, rfl⟩

theorem notifySubscriber_told (h : n.rsrcStatus.told = true) (p : Nat) (m : AgpsStateMachine) :
    (m.notifySubscriber w n p).2 =
        (m.forMe w n.receiver (m.deref w p) && n.postNotifyDelete) ∧
      SameList m (m.notifySubscriber w n p).1 ∧
      (m.notifySubscriber w n p).1.touched = m.touched ++ m.touches n p ∧
      Told n.rsrcStatus (if m.forMe w n.receiver (m.deref w p) then [m.deref w p] else []) m
        (m.notifySubscriber w n p).1 := by
  obtain ⟨m₁, hlist, htouched, htold, heq⟩ := notifySubscriber_eq w n p m
  obtain ⟨hb, hlist', htouched', htold'⟩ := notifyRsrcStatus_told w h (m₁.deref w p) m₁
  rw [hlist.deref, hlist.forMe] at hb htold'
  rw [hlist.deref] at hlist' htouched'
  rw [heq, hlist.deref]
  exact ⟨by rw [hb], hlist.trans hlist', htouched'.trans htouched, htold.trans htold'⟩

/-- Without deletion the walk passes all. -/
theorem linkedListSearch_keep (h : n.rsrcStatus.told = true) (hdel : n.postNotifyDelete = false)
    (ps : List Nat) (m : AgpsStateMachine) :
    SameList m (linkedListSearch (notifySubscriber w n) ps m).1 ∧
      Told n.rsrcStatus ((ps.map (m.deref w)).filter (m.forMe w n.receiver)) m
        (linkedListSearch (notifySubscriber w n) ps m).1 := by
  induction ps generalizing m with
  | nil => exact ⟨⟨rfl, rfl⟩, Told.refl _ m⟩
  | cons p ps ih =>
    obtain ⟨hb, hlist, -, htold⟩ := notifySubscriber_told w h p m
    rw [hdel, Bool.and_false] at hb
    cases hcall : m.notifySubscriber w n p with
    | mk m₁ b =>
      rw [hcall] at hb hlist htold
      obtain ⟨hlist', htold'⟩ := ih m₁
      have hderef : m₁.deref w = m.deref w := funext (hlist.deref w)
      have hforMe : m₁.forMe w n.receiver = m.forMe w n.receiver :=
        funext (hlist.forMe w n.receiver)
      rw [hderef, hforMe] at htold'
      simp only at hb
      subst hb
      simp only [linkedListSearch, hcall]
      refine ⟨hlist.trans hlist', ?_⟩
      rw [List.map_cons, List.filter_cons]
      have happ := htold.trans htold'
      split
      · next hme => simpa [hme] using happ
      · next hme => simpa [hme] using happ

/-- With it, the walk ends at the first that is meant. -/
theorem linkedListSearch_delete (h : n.rsrcStatus.told = true) (hdel : n.postNotifyDelete = true)
    (ps : List Nat) (m : AgpsStateMachine) :
    SameList m (linkedListSearch (notifySubscriber w n) ps m).1 ∧
      (((linkedListSearch (notifySubscriber w n) ps m).2 = none ∧
          (∀ p ∈ ps, m.forMe w n.receiver (m.deref w p) = false) ∧
          (linkedListSearch (notifySubscriber w n) ps m).1.touched =
            m.touched ++ ps.flatMap (m.touches n) ∧
          Told n.rsrcStatus [] m (linkedListSearch (notifySubscriber w n) ps m).1) ∨
        ∃ as p bs, (linkedListSearch (notifySubscriber w n) ps m).2 = some p ∧
          ps = as ++ p :: bs ∧ (∀ q ∈ as, m.forMe w n.receiver (m.deref w q) = false) ∧
          m.forMe w n.receiver (m.deref w p) = true ∧
          (linkedListSearch (notifySubscriber w n) ps m).1.touched =
            m.touched ++ (as ++ [p]).flatMap (m.touches n) ∧
          Told n.rsrcStatus [m.deref w p] m
            (linkedListSearch (notifySubscriber w n) ps m).1) := by
  induction ps generalizing m with
  | nil => exact ⟨⟨rfl, rfl⟩, .inl ⟨rfl, by simp, by simp [linkedListSearch], Told.refl _ m⟩⟩
  | cons p ps ih =>
    obtain ⟨hb, hlist, htouched, htold⟩ := notifySubscriber_told w h p m
    rw [hdel, Bool.and_true] at hb
    cases hcall : m.notifySubscriber w n p with
    | mk m₁ b =>
      rw [hcall] at hb hlist htouched htold
      simp only at hb
      subst hb
      cases hme : m.forMe w n.receiver (m.deref w p) with
      | true =>
        rw [hme] at hcall htold
        simp only [linkedListSearch, hcall]
        exact ⟨hlist, .inr ⟨[], p, ps, rfl, rfl, by simp, hme, by simpa using htouched, htold⟩⟩
      | false =>
        rw [hme] at hcall htold
        simp only [linkedListSearch, hcall]
        have hderef : ∀ q, m₁.deref w q = m.deref w q := hlist.deref w
        have hforMe : ∀ s, m₁.forMe w n.receiver s = m.forMe w n.receiver s :=
          hlist.forMe w n.receiver
        have htouches : m₁.touches n = m.touches n := funext (hlist.touches n)
        obtain ⟨hlist', hnone | ⟨as, q, bs, hq, hps, has, hme', ht, htold'⟩⟩ := ih m₁
        · obtain ⟨hr, hall, ht, htold'⟩ := hnone
          simp only [hderef, hforMe, htouches] at hall ht
          refine ⟨hlist.trans hlist', .inl ⟨hr, ?_, ?_, htold.trans htold'⟩⟩
          · exact List.forall_mem_cons.2 ⟨hme, hall⟩
          · rw [ht, htouched, List.append_assoc, List.flatMap_cons]
        · simp only [hderef, hforMe, htouches] at has hme' ht htold'
          refine ⟨hlist.trans hlist', .inr ⟨p :: as, q, bs, hq, by rw [hps, List.cons_append],
            List.forall_mem_cons.2 ⟨hme, has⟩, hme', ?_, htold.trans htold'⟩⟩
          rw [ht, htouched, List.append_assoc, List.cons_append, List.flatMap_cons]

/-! ## The loop -/

/-- The objects that are told are taken out of the list and deleted, and no others. -/
structure Walked (status : AgpsRsrcStatus) (ts : List Subscriber) (m m' : AgpsStateMachine) : Prop
    extends Told status ts m m' where
  sub : m'.mSubscribers.Sublist m.mSubscribers
  heap : ∀ p, m'.heap p = if p ∈ m.mSubscribers ∧ p ∉ m'.mSubscribers then none else m.heap p
  touched : ∃ us, m'.touched = m.touched ++ us
  gone : ∀ p ∈ m.mSubscribers, p ∉ m'.mSubscribers → m.deref w p ∈ ts
  listed : ∀ s ∈ ts, ∃ p ∈ m.mSubscribers, p ∉ m'.mSubscribers ∧ m.deref w p = s

theorem Walked.heap_of_mem (h : Walked w status ts m m') (hp : p ∈ m'.mSubscribers) :
    m'.heap p = m.heap p := by
  rw [h.heap, if_neg fun hc => hc.2 hp]

theorem Walked.deref_of_mem (h : Walked w status ts m m') (hp : p ∈ m'.mSubscribers) :
    m'.deref w p = m.deref w p := by
  unfold AgpsStateMachine.deref
  rw [h.heap_of_mem w hp]

theorem Walked.of_told (hlist : SameList m m') (h : Told status [] m m')
    (ht : ∃ us, m'.touched = m.touched ++ us) : Walked w status [] m m' where
  toTold := h
  sub := by rw [hlist.mSubscribers]
  heap p := by
    rw [hlist.heap, hlist.mSubscribers, if_neg fun hc => hc.2 hc.1]
  touched := ht
  gone p hp hp' := absurd (hlist.mSubscribers ▸ hp) hp'
  listed s hs := absurd hs (by simp)

theorem Walked.trans (h : Walked w status ts m m') (h' : Walked w status ts' m' m'') :
    Walked w status (ts ++ ts') m m'' where
  toTold := h.toTold.trans h'.toTold
  sub := h'.sub.trans h.sub
  heap p := by
    rw [h'.heap, h.heap]
    by_cases hp' : p ∈ m'.mSubscribers
    · have hp := h.sub.subset hp'
      by_cases hp'' : p ∈ m''.mSubscribers <;> simp [hp, hp', hp'']
    · have hp'' : p ∉ m''.mSubscribers := fun hp'' => hp' (h'.sub.subset hp'')
      simp [hp', hp'']
  touched := by
    obtain ⟨us, hus⟩ := h.touched
    obtain ⟨us', hus'⟩ := h'.touched
    exact ⟨us ++ us', by rw [hus', hus, List.append_assoc]⟩
  gone p hp hp'' := by
    by_cases hp' : p ∈ m'.mSubscribers
    · exact List.mem_append_right _ (h.deref_of_mem w hp' ▸ h'.gone p hp' hp'')
    · exact List.mem_append_left _ (h.gone p hp hp')
  listed s hs := by
    rcases List.mem_append.1 hs with hs | hs
    · obtain ⟨p, hp, hp', rfl⟩ := h.listed s hs
      exact ⟨p, hp, fun hp'' => hp' (h'.sub.subset hp''), rfl⟩
    · obtain ⟨p, hp', hp'', rfl⟩ := h'.listed s hs
      exact ⟨p, h.sub.subset hp', hp'', (h.deref_of_mem w hp').symm⟩

/-- What the body of the loop does with the subscriber that was found. -/
def takeOut (p : Nat) (m : AgpsStateMachine) : AgpsStateMachine :=
  { m with mSubscribers := m.mSubscribers.erase p }.delete p

@[simp] theorem takeOut_mSubscribers (p : Nat) (m : AgpsStateMachine) :
    (m.takeOut p).mSubscribers = m.mSubscribers.erase p := rfl

@[simp] theorem takeOut_heap (p : Nat) (m : AgpsStateMachine) :
    (m.takeOut p).heap = update m.heap p none := rfl

theorem erase_middle {as bs : List Nat} (h : (as ++ p :: bs).Nodup) :
    (as ++ p :: bs).erase p = as ++ bs := by
  have hp : p ∉ as := fun hp =>
    (List.nodup_append.1 h).2.2 p hp p (List.mem_cons_self ..) rfl
  rw [List.erase_append_right _ hp, List.erase_cons_head]

/-- That one is taken out. -/
theorem Walked.takeOut (hnodup : m.mSubscribers.Nodup) (hp : p ∈ m.mSubscribers)
    (hlist : SameList m m') (h : Told status [m.deref w p] m m')
    (ht : ∃ us, m'.touched = m.touched ++ us) : Walked w status [m.deref w p] m (m'.takeOut p) where
  toTold := ⟨⟨h.mStatePtr, h.mType, h.mAPN, h.mBearer, h.mEnforceSingleSubscriber, h.isDS, h.next⟩,
    h.log, h.mRetries⟩
  sub := by
    rw [takeOut_mSubscribers, hlist.mSubscribers]
    exact List.erase_sublist
  heap q := by
    simp only [takeOut_heap, takeOut_mSubscribers, hlist.heap, hlist.mSubscribers,
      update_apply]
    by_cases hq : q = p
    · subst hq
      simp [hp, hnodup.not_mem_erase]
    · simp [hq, List.mem_erase_of_ne hq]
  touched := ht
  gone q hq hq' := by
    rw [takeOut_mSubscribers, hlist.mSubscribers] at hq'
    by_cases heq : q = p
    · exact List.mem_singleton.2 (heq ▸ rfl)
    · exact absurd ((List.mem_erase_of_ne heq).2 hq) hq'
  listed s hs := by
    refine ⟨p, hp, ?_, (List.mem_singleton.1 hs).symm⟩
    rw [takeOut_mSubscribers, hlist.mSubscribers]
    exact hnodup.not_mem_erase

/-- One turn of the loop. -/
theorem notifyLoop_succ (n : Notification) (fuel : Nat) (m : AgpsStateMachine) :
    m.notifyLoop w n (fuel + 1) =
      match linkedListSearch (notifySubscriber w n) m.mSubscribers m with
      | (m', none) => m'
      | (m', some p) => (m'.takeOut p).notifyLoop w n fuel := rfl

/-- **The loop.** It ends with a list on which the notification is for nobody. -/
theorem notifyLoop_walked (h : n.rsrcStatus.told = true) (hdel : n.postNotifyDelete = true) :
    ∀ (fuel : Nat) (m : AgpsStateMachine), m.mSubscribers.Nodup → m.mSubscribers.length < fuel →
      ∃ ts, Walked w n.rsrcStatus ts m (m.notifyLoop w n fuel) ∧
        ∀ p ∈ (m.notifyLoop w n fuel).mSubscribers, (m.notifyLoop w n fuel).forMe w n.receiver
          ((m.notifyLoop w n fuel).deref w p) = false := by
  intro fuel
  induction fuel with
  | zero => exact fun m _ hlt => absurd hlt (by omega)
  | succ fuel ih =>
    intro m hnodup hlt
    rw [notifyLoop_succ]
    obtain ⟨hlist, hnone | hsome⟩ := linkedListSearch_delete w h hdel m.mSubscribers m
    · obtain ⟨hr, hall, ht, htold⟩ := hnone
      cases hcall : linkedListSearch (notifySubscriber w n) m.mSubscribers m with
      | mk m₁ r =>
        rw [hcall] at hr hlist ht htold
        simp only at hr
        subst hr
        refine ⟨[], .of_told w hlist htold ⟨_, ht⟩, fun p hp => ?_⟩
        rw [hlist.deref, hlist.forMe]
        exact hall p (hlist.mSubscribers ▸ hp)
    · obtain ⟨as, p, bs, hr, hps, -, -, ht, htold⟩ := hsome
      cases hcall : linkedListSearch (notifySubscriber w n) m.mSubscribers m with
      | mk m₁ r =>
        rw [hcall] at hr hlist ht htold
        simp only at hr
        subst hr
        have hp : p ∈ m.mSubscribers := by simp [hps]
        have hwalk := Walked.takeOut w hnodup hp hlist htold ⟨_, ht⟩
        have hlen : (m₁.takeOut p).mSubscribers.length < fuel := by
          rw [takeOut_mSubscribers, hlist.mSubscribers, List.length_erase_of_mem hp]
          have := List.length_pos_of_mem hp
          omega
        obtain ⟨ts, hwalk', hall⟩ := ih _ (hnodup.sublist hwalk.sub) hlen
        exact ⟨_, hwalk.trans w hwalk', hall⟩

end AgpsStateMachine

end Nx508j.Loc
