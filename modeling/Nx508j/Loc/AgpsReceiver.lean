import Nx508j.Loc.AgpsWalk

/-! # When a deleting notification reads no deleted subscriber

The receiver of a notification may be a subscriber on the list: the end of a subscription is told to
the listed object itself. Once that object is deleted the loop must not search again, so it has to be
the last one on the list. -/

namespace Nx508j.Loc

open Nx508j.Lib Function

namespace AgpsStateMachine

variable (w : StrayMemory) {m m' : AgpsStateMachine} {n : Notification} {p q : Nat}

/-- The listed subscribers are different objects that are alive. -/
structure Heaped (m : AgpsStateMachine) : Prop where
  nodup : m.mSubscribers.Nodup
  live : ∀ p ∈ m.mSubscribers, (m.heap p).isSome = true
  fresh : ∀ p, m.next ≤ p → m.heap p = none

theorem Heaped.lt (h : m.Heaped) (hp : p ∈ m.mSubscribers) : p < m.next := by
  by_contra hle
  have hlive := h.live p hp
  rw [h.fresh p (Nat.le_of_not_lt hle)] at hlive
  cases hlive

theorem Walked.heaped {status : AgpsRsrcStatus} {ts : List Subscriber}
    (h : Walked w status ts m m') (hm : m.Heaped) : m'.Heaped where
  nodup := hm.nodup.sublist h.sub
  live p hp := by
    rw [h.heap_of_mem w hp]
    exact hm.live p (h.sub.subset hp)
  fresh p hp := by
    rw [h.heap, hm.fresh p (h.next ▸ hp)]
    exact ite_self none

/-- The receiver is an object that is alive. -/
def ReceiverLive (n : Notification) (m : AgpsStateMachine) : Prop :=
  ∀ q, n.receiver = .rcver (.cell q) → (m.heap q).isSome = true

/-- **The property.** Whatever a walk touches is alive when it is touched, and the subscribers the
    notification is for are those that are gone. -/
structure CleanWalk (n : Notification) (m m' : AgpsStateMachine) : Prop where
  live : ∃ us, m'.touched = m.touched ++ us ∧ ∀ u ∈ us, u.2 = true
  removed : m'.mSubscribers =
    m.mSubscribers.filter fun p => !m.forMe w n.receiver (m.deref w p)

/-- The receiver is not on the list, or it is the last one on it and all before it equal it. -/
def ReceiverLast (n : Notification) (m : AgpsStateMachine) : Prop :=
  ∀ q, n.receiver = .rcver (.cell q) → q ∈ m.mSubscribers →
    ∃ ps, m.mSubscribers = ps ++ [q] ∧ ∀ p ∈ ps, (m.deref w p).equals w (m.deref w q) = true

theorem live_of_mem_touches (hlive : ReceiverLive n m) {ps : List Nat}
    (hps : ∀ p ∈ ps, (m.heap p).isSome = true) : ∀ u ∈ ps.flatMap (m.touches n), u.2 = true := by
  intro u hu
  obtain ⟨p, hp, hu⟩ := List.mem_flatMap.1 hu
  rcases List.mem_cons.1 hu with rfl | hu
  · exact hps p hp
  · split at hu
    · next q hq =>
      rw [List.mem_singleton.1 hu]
      exact hlive q hq
    · cases hu

theorem deref_takeOut (hlist : SameList m m') {p q : Nat} (hq : q ≠ p) :
    (m'.takeOut p).deref w q = m.deref w q := by
  unfold deref
  rw [takeOut_heap, update_of_ne hq, hlist.heap]

theorem forMe_takeOut (hlist : SameList m m') {receiver : Receiver}
    (hp : receiver ≠ .rcver (.cell p)) (s : Subscriber) :
    (m'.takeOut p).forMe w receiver s = m.forMe w receiver s := by
  unfold forMe load
  split
  · split
    · rfl
    · next q =>
      rw [deref_takeOut w hlist]
      rintro rfl
      exact hp rfl
  all_goals rfl

theorem receiverLive_takeOut (hlist : SameList m m')
    (hp : n.receiver ≠ .rcver (.cell p)) (hlive : ReceiverLive n m) :
    ReceiverLive n (m'.takeOut p) := by
  intro q hq
  have hne : q ≠ p := by
    rintro rfl
    exact hp hq
  rw [takeOut_heap, update_of_ne hne, hlist.heap]
  exact hlive q hq

/-- **First turn.** What the loop does before it comes to its next turn. -/
theorem notifyLoop_turn (h : n.rsrcStatus.told = true) (hdel : n.postNotifyDelete = true)
    (hm : m.Heaped) (hlive : ReceiverLive n m) (fuel : Nat) :
    ((∀ p ∈ m.mSubscribers, m.forMe w n.receiver (m.deref w p) = false) ∧
        CleanWalk w n m (m.notifyLoop w n (fuel + 1))) ∨
      ∃ as p bs m₁, m.mSubscribers = as ++ p :: bs ∧
        (∀ q ∈ as, m.forMe w n.receiver (m.deref w q) = false) ∧
        m.forMe w n.receiver (m.deref w p) = true ∧ SameList m m₁ ∧
        m.notifyLoop w n (fuel + 1) = (m₁.takeOut p).notifyLoop w n fuel ∧
        (m₁.takeOut p).mSubscribers = as ++ bs ∧ (m₁.takeOut p).Heaped ∧
        ∃ us, (m₁.takeOut p).touched = m.touched ++ us ∧ ∀ u ∈ us, u.2 = true := by
  rw [notifyLoop_succ]
  obtain ⟨hlist, hnone | hsome⟩ := linkedListSearch_delete w h hdel m.mSubscribers m
  · obtain ⟨hr, hall, ht, -⟩ := hnone
    cases hcall : linkedListSearch (notifySubscriber w n) m.mSubscribers m with
    | mk m₁ r =>
      rw [hcall] at hr hlist ht
      simp only at hr
      subst hr
      refine .inl ⟨hall, ⟨_, ht, live_of_mem_touches hlive hm.live⟩, ?_⟩
      show m₁.mSubscribers = _
      rw [hlist.mSubscribers, List.filter_eq_self.2 fun p hp => by rw [hall p hp]; rfl]
  · obtain ⟨as, p, bs, hr, hps, has, hme, ht, htold⟩ := hsome
    cases hcall : linkedListSearch (notifySubscriber w n) m.mSubscribers m with
    | mk m₁ r =>
      rw [hcall] at hr hlist ht htold
      simp only at hr
      subst hr
      have hp : p ∈ m.mSubscribers := by simp [hps]
      have hwalk := Walked.takeOut w hm.nodup hp hlist htold ⟨_, ht⟩
      refine .inr ⟨as, p, bs, m₁, hps, has, hme, hlist, rfl, ?_, hwalk.heaped w hm, _, ht, ?_⟩
      · rw [takeOut_mSubscribers, hlist.mSubscribers, hps, erase_middle (hps ▸ hm.nodup)]
      · refine live_of_mem_touches hlive fun q hq => hm.live q ?_
        rw [hps]
        rcases List.mem_append.1 hq with hq | hq
        · exact List.mem_append_left _ hq
        · exact List.mem_append_right _ (List.mem_singleton.1 hq ▸ List.mem_cons_self ..)

theorem CleanWalk.turn {m₂ : AgpsStateMachine} {as bs : List Nat}
    (hps : m.mSubscribers = as ++ p :: bs) (hm : m.Heaped)
    (hme : m.forMe w n.receiver (m.deref w p) = true) (hlist : SameList m m') (hp : n.receiver ≠ .rcver (.cell p))
    (hsub : (m'.takeOut p).mSubscribers = as ++ bs)
    (ht : ∃ us, (m'.takeOut p).touched = m.touched ++ us ∧ ∀ u ∈ us, u.2 = true)
    (h : CleanWalk w n (m'.takeOut p) m₂) : CleanWalk w n m m₂ := by
  obtain ⟨us, hus, hlive⟩ := ht
  obtain ⟨us', hus', hlive'⟩ := h.live
  refine ⟨⟨us ++ us', by rw [hus', hus, List.append_assoc], fun u hu => ?_⟩, ?_⟩
  · rcases List.mem_append.1 hu with hu | hu
    · exact hlive u hu
    · exact hlive' u hu
  · have hne : ∀ q ∈ as ++ bs, q ≠ p := by
      have hnodup := hm.nodup
      rw [hps, List.nodup_middle] at hnodup
      intro q hq heq
      exact (List.nodup_cons.1 hnodup).1 (heq ▸ hq)
    rw [h.removed, hsub, hps]
    have hfilter : (as ++ bs).filter (fun q => !(m'.takeOut p).forMe w n.receiver
        ((m'.takeOut p).deref w q)) =
        (as ++ bs).filter fun q => !m.forMe w n.receiver (m.deref w q) := by
      refine List.filter_congr fun q hq => ?_
      rw [forMe_takeOut w hlist hp, deref_takeOut w hlist (hne q hq)]
    rw [hfilter, List.filter_append, List.filter_append, List.filter_cons, hme]
    rfl

theorem notifyLoop_clean_of_not_mem (h : n.rsrcStatus.told = true)
    (hdel : n.postNotifyDelete = true) :
    ∀ (fuel : Nat) (m : AgpsStateMachine), m.Heaped → ReceiverLive n m →
      (∀ q ∈ m.mSubscribers, n.receiver ≠ .rcver (.cell q)) → m.mSubscribers.length < fuel →
      CleanWalk w n m (m.notifyLoop w n fuel) := by
  intro fuel
  induction fuel with
  | zero => exact fun m _ _ _ hlt => absurd hlt (by omega)
  | succ fuel ih =>
    intro m hm hlive hne hlt
    rcases notifyLoop_turn w h hdel hm hlive fuel with ⟨-, hclean⟩ | hturn
    · exact hclean
    obtain ⟨as, p, bs, m₁, hps, -, hme, hlist, heq, hsub, hm', ht⟩ := hturn
    have hp := hne p (by simp [hps])
    rw [heq]
    refine CleanWalk.turn w hps hm hme hlist hp hsub ht (ih _ hm' ?_ ?_ ?_)
    · exact receiverLive_takeOut hlist hp hlive
    · intro q hq
      rw [hsub] at hq
      refine hne q ?_
      rw [hps]
      rcases List.mem_append.1 hq with hq | hq
      · exact List.mem_append_left _ hq
      · exact List.mem_append_right _ (List.mem_cons_of_mem _ hq)
    · rw [hsub]
      rw [hps] at hlt
      simp only [List.length_append, List.length_cons] at hlt ⊢
      omega

theorem notifyLoop_nil (n : Notification) (fuel : Nat) (hm : m.mSubscribers = []) :
    m.notifyLoop w n fuel = m := by
  cases fuel with
  | zero => rfl
  | succ fuel => rw [notifyLoop_succ, hm, linkedListSearch]

/-- The loop is clean if the receiver goes last. -/
theorem notifyLoop_clean_of_last (h : n.rsrcStatus.told = true) (hdel : n.postNotifyDelete = true)
    (hq : n.receiver = .rcver (.cell q)) :
    ∀ (ps : List Nat) (fuel : Nat) (m : AgpsStateMachine), m.Heaped → m.mSubscribers = ps ++ [q] →
      (∀ p ∈ ps, (m.deref w p).equals w (m.deref w q) = true) → ps.length + 1 < fuel →
      CleanWalk w n m (m.notifyLoop w n fuel) := by
  intro ps
  induction ps with
  | nil =>
    intro fuel m hm hl _ hlt
    obtain ⟨fuel, rfl⟩ : ∃ k, fuel = k + 1 := ⟨fuel - 1, by omega⟩
    have hlive : ReceiverLive n m := by
      intro q' hq'
      obtain rfl : q = q' := by simpa [hq] using hq'
      exact hm.live q (by simp [hl])
    rcases notifyLoop_turn w h hdel hm hlive fuel with ⟨-, hclean⟩ | hturn
    · exact hclean
    obtain ⟨as, p, bs, m₁, hps, -, hme, hlist, heq, hsub, -, us, hus, hall⟩ := hturn
    have hsplit : as = [] ∧ p = q ∧ bs = [] := by
      rw [hl] at hps
      cases as with
      | nil => simpa [eq_comm] using hps
      | cons a as => simp at hps
    obtain ⟨rfl, rfl, rfl⟩ := hsplit
    rw [heq, notifyLoop_nil w n fuel (by rw [hsub]; rfl)]
    refine ⟨⟨us, hus, hall⟩, ?_⟩
    rw [hsub, hps]
    simp [hme]
  | cons p ps ih =>
    intro fuel m hm hl heqs hlt
    obtain ⟨fuel, rfl⟩ : ∃ k, fuel = k + 1 := ⟨fuel - 1, by omega⟩
    have hlive : ReceiverLive n m := by
      intro q' hq'
      obtain rfl : q = q' := by simpa [hq] using hq'
      exact hm.live q (by simp [hl])
    have hme : m.forMe w n.receiver (m.deref w p) = true := by
      rw [hq]
      exact heqs p (List.mem_cons_self ..)
    rcases notifyLoop_turn w h hdel hm hlive fuel with ⟨hnone, -⟩ | hturn
    · have hfalse := hnone p (by simp [hl])
      rw [hme] at hfalse
      cases hfalse
    · obtain ⟨as, p', bs, m₁, hps, has, hme', hlist, heq, hsub, hm', ht⟩ := hturn
      -- the head is equal to the receiver, so the search ends there
      obtain ⟨rfl, rfl, rfl⟩ : as = [] ∧ p = p' ∧ ps ++ [q] = bs := by
        rw [hl] at hps
        cases as with
        | nil => simpa using hps
        | cons a as =>
          obtain ⟨rfl, -⟩ : p = a ∧ _ := by simpa using hps
          have hfalse := has p (List.mem_cons_self ..)
          rw [hme] at hfalse
          cases hfalse
      have hnodup := hm.nodup
      rw [hl] at hnodup
      have hne : ∀ r ∈ ps ++ [q], r ≠ p := by
        rintro r hr rfl
        exact (List.nodup_cons.1 hnodup).1 hr
      have hp : n.receiver ≠ .rcver (.cell p) := by
        rw [hq]
        intro hc
        obtain rfl : q = p := by simpa using hc
        exact hne q (by simp) rfl
      rw [heq]
      refine CleanWalk.turn w hps hm hme hlist hp hsub ht (ih fuel _ hm' hsub ?_ ?_)
      · intro r hr
        rw [deref_takeOut w hlist (hne r (List.mem_append_left _ hr)),
          deref_takeOut w hlist (hne q (by simp))]
        exact heqs r (List.mem_cons_of_mem _ hr)
      · simp only [List.length_cons] at hlt
        omega

theorem touched_receiver (h : n.rsrcStatus.told = true) (hdel : n.postNotifyDelete = true)
    (hq : n.receiver = .rcver (.cell q)) (hne : m.mSubscribers ≠ [])
    (hnodup : m.mSubscribers.Nodup) {fuel : Nat} (hlt : m.mSubscribers.length < fuel) :
    ∃ us, (m.notifyLoop w n fuel).touched = m.touched ++ us ∧
      (q, (m.heap q).isSome) ∈ us := by
  obtain ⟨fuel, rfl⟩ : ∃ k, fuel = k + 1 := ⟨fuel - 1, by omega⟩
  have hmem : ∀ p, (q, (m.heap q).isSome) ∈ m.touches n p := by
    intro p
    simp [touches, hq]
  rw [notifyLoop_succ]
  obtain ⟨hlist, hnone | hsome⟩ := linkedListSearch_delete w h hdel m.mSubscribers m
  · obtain ⟨hr, -, ht, -⟩ := hnone
    cases hcall : linkedListSearch (notifySubscriber w n) m.mSubscribers m with
    | mk m₁ r =>
      rw [hcall] at hr ht
      simp only at hr
      subst hr
      obtain ⟨p, hp⟩ := List.exists_mem_of_ne_nil _ hne
      exact ⟨_, ht, List.mem_flatMap.2 ⟨p, hp, hmem p⟩⟩
  · obtain ⟨as, p, bs, hr, hps, -, -, ht, htold⟩ := hsome
    cases hcall : linkedListSearch (notifySubscriber w n) m.mSubscribers m with
    | mk m₁ r =>
      rw [hcall] at hr hlist ht htold
      simp only at hr
      subst hr
      have hp : p ∈ m.mSubscribers := by simp [hps]
      have hwalk := Walked.takeOut w hnodup hp hlist htold ⟨_, ht⟩
      have hlen : (m₁.takeOut p).mSubscribers.length < fuel := by
        rw [takeOut_mSubscribers, hlist.mSubscribers, List.length_erase_of_mem hp]
        have := List.length_pos_of_mem hp
        omega
      obtain ⟨ts, hrest, -⟩ := notifyLoop_walked w h hdel fuel _ (hnodup.sublist hwalk.sub) hlen
      obtain ⟨us, hus⟩ := hrest.touched
      have htake : (m₁.takeOut p).touched = m.touched ++ (as ++ [p]).flatMap (m.touches n) := ht
      refine ⟨(as ++ [p]).flatMap (m.touches n) ++ us, ?_, List.mem_append_left _ ?_⟩
      · rw [← List.append_assoc, ← htake]
        exact hus
      · exact List.mem_flatMap.2 ⟨p, by simp, hmem p⟩

/-- A loop that touches only what is alive leaves the receiver for last. -/
theorem receiverLast_of_clean (h : n.rsrcStatus.told = true) (hdel : n.postNotifyDelete = true)
    (hq : n.receiver = .rcver (.cell q)) :
    ∀ (fuel : Nat) (m : AgpsStateMachine), m.Heaped → q ∈ m.mSubscribers →
      m.mSubscribers.length < fuel →
      (∃ us, (m.notifyLoop w n fuel).touched = m.touched ++ us ∧ ∀ u ∈ us, u.2 = true) →
      ∃ ps, m.mSubscribers = ps ++ [q] ∧
        ∀ p ∈ ps, (m.deref w p).equals w (m.deref w q) = true := by
  intro fuel
  induction fuel with
  | zero => exact fun m _ _ hlt => absurd hlt (by omega)
  | succ fuel ih =>
    intro m hm hmem hlt hclean
    have hlive : ReceiverLive n m := by
      intro q' hq'
      obtain rfl : q = q' := by simpa [hq] using hq'
      exact hm.live q hmem
    have hself : m.forMe w n.receiver (m.deref w q) = true := by
      rw [hq]
      exact Subscriber.equals_refl w _
    rcases notifyLoop_turn w h hdel hm hlive fuel with ⟨hnone, -⟩ | hturn
    · rw [hnone q hmem] at hself
      cases hself
    obtain ⟨as, p, bs, m₁, hps, has, hme, hlist, heq, hsub, hm', us, hus, -⟩ := hturn
    have hlen : (m₁.takeOut p).mSubscribers.length < fuel := by
      rw [hps, List.length_append, List.length_cons] at hlt
      rw [hsub, List.length_append]
      omega
    have hqas : q ∉ as := fun hc => by
      rw [has q hc] at hself
      cases hself
    obtain ⟨vs, hvs, hvlive⟩ := hclean
    rw [heq] at hvs
    by_cases hpq : p = q
    · -- the receiver is gone, so nothing may be left to compare with it
      subst hpq
      by_cases hrest : as ++ bs = []
      · obtain ⟨rfl, rfl⟩ := List.append_eq_nil_iff.1 hrest
        exact ⟨[], hps, by simp⟩
      · obtain ⟨us', hus', hdead⟩ := touched_receiver w h hdel hq (hsub ▸ hrest) hm'.nodup hlen
        rw [hvs, hus, List.append_assoc] at hus'
        have hvs' : vs = us ++ us' := List.append_cancel_left hus'
        have hfalse := hvlive _ (hvs' ▸ List.mem_append_right _ hdead)
        rw [takeOut_heap, update_self] at hfalse
        cases hfalse
    · have hqbs : q ∈ bs := by
        rw [hps] at hmem
        rcases List.mem_append.1 hmem with hc | hc
        · exact absurd hc hqas
        · exact (List.mem_cons.1 hc).resolve_left (Ne.symm hpq)
      obtain ⟨us', hus'⟩ : ∃ us', vs = us ++ us' := by
        obtain ⟨ts, hwalk, -⟩ := notifyLoop_walked w h hdel fuel _ hm'.nodup hlen
        obtain ⟨us', hus'⟩ := hwalk.touched
        rw [hvs, hus, List.append_assoc] at hus'
        exact ⟨us', List.append_cancel_left hus'⟩
      obtain ⟨ps, hlast, heqs⟩ := ih _ hm' (by rw [hsub]; exact List.mem_append_right _ hqbs) hlen
        ⟨us', by rw [hvs, hus', hus, List.append_assoc], fun u hu =>
          hvlive u (hus' ▸ List.mem_append_right _ hu)⟩
      have hnodup := hm.nodup
      rw [hps, List.nodup_middle] at hnodup
      rw [hsub] at hlast
      obtain ⟨bs', rfl⟩ : ∃ bs', bs = bs' ++ [q] := by
        have hb : bs ≠ [] := List.ne_nil_of_mem hqbs
        have hl := congrArg List.getLast? hlast
        rw [List.getLast?_append_of_ne_nil _ hb, List.getLast?_concat] at hl
        exact ⟨bs.dropLast, (List.dropLast_append_getLast? q hl).symm⟩
      have hps' : ps = as ++ bs' := by
        rw [← List.append_assoc] at hlast
        exact (List.append_cancel_right hlast).symm
      refine ⟨as ++ p :: bs', by simp [hps], fun r hr => ?_⟩
      by_cases hrp : r = p
      · rw [hrp]
        rw [hq] at hme
        exact hme
      · have hr' : r ∈ as ++ bs' := by
          rcases List.mem_append.1 hr with hr | hr
          · exact List.mem_append_left _ hr
          · exact List.mem_append_right _ ((List.mem_cons.1 hr).resolve_left hrp)
        have heqr := heqs r (hps' ▸ hr')
        rwa [deref_takeOut w hlist hrp, deref_takeOut w hlist (Ne.symm hpq)] at heqr

/-- **A deleting notification.** It touches only subscribers that are alive, and takes out just those
    it is for, if and only if its receiver is not on the list or goes last. -/
theorem notifySubscribers_clean_iff (m : AgpsStateMachine) (n : Notification) (hm : m.Heaped)
    (hlive : ReceiverLive n m) (htold : n.rsrcStatus.told = true)
    (hdel : n.postNotifyDelete = true) :
    CleanWalk w n m (m.notifySubscribers w n) ↔ ReceiverLast w n m := by
  unfold notifySubscribers
  rw [if_pos hdel]
  constructor
  · intro hclean q hq hmem
    exact receiverLast_of_clean w htold hdel hq _ m hm hmem (by omega) hclean.live
  · intro hlast
    by_cases hlisted : ∃ q ∈ m.mSubscribers, n.receiver = .rcver (.cell q)
    · obtain ⟨q, hmem, hq⟩ := hlisted
      obtain ⟨ps, hps, heqs⟩ := hlast q hq hmem
      refine notifyLoop_clean_of_last w htold hdel hq ps _ m hm hps heqs ?_
      simp [hps]
    · exact notifyLoop_clean_of_not_mem w htold hdel _ m hm hlive
        (fun q hmem hq => hlisted ⟨q, hmem, hq⟩) (by omega)

/-- A memory for examples: zero bytes, and an ATL client in the place of what was deleted. -/
def strayZero : StrayMemory := ⟨fun _ => Vector.replicate 16 0, fun _ => ⟨0, .atl false⟩⟩

/-- Two ATL clients on the list, the one with identifier 2 at the head. -/
def twoClients : AgpsStateMachine :=
  { mType := agpsTypeSupl
    mEnforceSingleSubscriber := false
    mSubscribers := [1, 0]
    heap := update (update (fun _ => none) 0 (some ⟨1, .atl false⟩)) 1
      (some ⟨2, .atl false⟩)
    next := 2 }

theorem twoClients_heaped : twoClients.Heaped where
  nodup := by decide
  live := by decide
  fresh p hp := by
    have h0 : p ≠ 0 := by
      have : 2 ≤ p := hp
      omega
    have h1 : p ≠ 1 := by
      have : 2 ≤ p := hp
      omega
    simp [twoClients, update_of_ne h1, update_of_ne h0]

/-- The theorem at a denial of both clients, and where the last one on the list unsubscribes. -/
theorem notifySubscribers_clean_iff_twoClients :
    (CleanWalk strayZero ⟨.broadcastAll, .denied, true⟩ twoClients
        (twoClients.notifySubscribers strayZero ⟨.broadcastAll, .denied, true⟩) ↔
      ReceiverLast strayZero ⟨.broadcastAll, .denied, true⟩ twoClients) ∧
    (CleanWalk strayZero ⟨.rcver (.cell 0), .unsubscribe, true⟩ twoClients
        (twoClients.notifySubscribers strayZero ⟨.rcver (.cell 0), .unsubscribe, true⟩) ↔
      ReceiverLast strayZero ⟨.rcver (.cell 0), .unsubscribe, true⟩ twoClients) :=
  ⟨notifySubscribers_clean_iff strayZero twoClients ⟨.broadcastAll, .denied, true⟩
      twoClients_heaped (by simp [ReceiverLive]) rfl rfl,
    notifySubscribers_clean_iff strayZero twoClients ⟨.rcver (.cell 0), .unsubscribe, true⟩
      twoClients_heaped (by rintro q ⟨⟩; rfl) rfl rfl⟩

/-- One of two clients unsubscribes: the other one is compared with the deleted object. -/
theorem notifySubscribers_touches_deleted :
    ¬ CleanWalk strayZero ⟨.rcver (.cell 1), .unsubscribe, true⟩ twoClients
      (twoClients.notifySubscribers strayZero ⟨.rcver (.cell 1), .unsubscribe, true⟩) := by
  intro h
  obtain ⟨us, hus, hlive⟩ := h.live
  have htouched : (1, false) ∈ (twoClients.notifySubscribers strayZero
      ⟨.rcver (.cell 1), .unsubscribe, true⟩).touched := by decide +kernel
  rw [hus] at htouched
  have hfalse := hlive (1, false) (by simpa [twoClients] using htouched)
  cases hfalse

end AgpsStateMachine

end Nx508j.Loc
