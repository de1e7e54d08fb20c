import Nx508j.Loc.LocTimerOwned

/-! # Where a delegate is

A running delegate is on its way to its container, in its container, or in the hand of an expiry. The
containers are ordered by time. -/

namespace Nx508j.Loc

open Nx508j.Lib Function

namespace Timespec

variable {a b : Timespec}

theorem outRanks_iff : a.outRanks b = true ↔ a.ns < b.ns := by
  have ha := a.tv_nsec_lt
  have hb := b.tv_nsec_lt
  unfold outRanks ranks ns
  rw [decide_eq_true_iff]
  simp only
  split <;> omega

theorem outRanks_eq_false_iff : a.outRanks b = false ↔ b ≤ a := by
  rw [← Bool.not_eq_true, outRanks_iff, Nat.not_lt]
  rfl

theorem carry_eq (base sec nsec : Nat) :
    (sec + nsec / base) * base + nsec % base = sec * base + nsec := by
  rw [Nat.add_mul, Nat.add_assoc, Nat.div_add_mod']

theorem add_parts (base sec nsec ms : Nat) :
    (sec + ms / 1000) * (1000 * base) + (nsec + ms % 1000 * base) =
      sec * (1000 * base) + nsec + ms * base := by
  have hms : (ms / 1000 * 1000 + ms % 1000) * base = ms * base := by rw [Nat.div_add_mod']
  rw [Nat.add_mul, Nat.mul_assoc] at hms
  rw [Nat.add_mul]
  omega

/-- The time of a delegate. -/
theorem ns_after (t : Timespec) (timeOutInMs : UInt32) :
    (t.after timeOutInMs).ns = t.ns + timeOutInMs.toNat * 1000000 := by
  have hcarried : (t.after timeOutInMs).ns = (t.tv_sec + timeOutInMs.toNat / 1000) * 1000000000 +
      (t.tv_nsec + timeOutInMs.toNat % 1000 * 1000000) := by
    by_cases h : 1000000000 ≤ t.tv_nsec + timeOutInMs.toNat % 1000 * 1000000
    · rw [after, dif_pos h]
      exact carry_eq ..
    · rw [after, dif_neg h]
      rfl
  exact hcarried.trans (add_parts 1000000 ..)

end Timespec

theorem LocTimerDelegate.ranking : LocHeapNode.Ranking LocTimerDelegate.outRanks where
  asymm := by
    intro a b hab
    exact Timespec.outRanks_eq_false_iff.2 (Nat.le_of_lt (Timespec.outRanks_iff.1 hab))
  trans := by
    intro a b c hab hbc
    exact Timespec.outRanks_eq_false_iff.2 (Nat.le_trans (Timespec.outRanks_eq_false_iff.1 hbc)
      (Timespec.outRanks_eq_false_iff.1 hab))

namespace LocTimers

variable {s s' : LocTimers} {c wakeOnExpire : Bool} {client : Nat} {d timer : LocTimerDelegate}
  {timerOfNow : Timespec} {rest : List LocTimerMsg} {op : TaskOp} {ops : List TaskOp}

/-- What holds of the places of the delegates in every run. -/
structure Placed (s : LocTimers) : Prop where
  places : ∀ d, s.queue.count (.push d) + (s.mTree d.wakeOnExpire).elems.count d ≤
    s.started.count d
  inTree : ∀ c, ∀ d ∈ (s.mTree c).elems, d.wakeOnExpire = c
  ordered : ∀ c, (s.mTree c).Ordered LocTimerDelegate.outRanks
  hand : ∀ d, s.task.hand = some d → d ∈ s.started
  stopping : ∀ c timerOfNow d client, s.task = .stopping c timerOfNow d client → d.client = client
  running : ∀ d, s.mTimer d.client = some d →
    .push d ∈ s.queue ∨ d ∈ (s.mTree d.wakeOnExpire).elems ∨ s.task.hand = some d

theorem placed_init (now : Timespec) : (init now).Placed where
  places := fun _ => Nat.le_refl _
  inTree := fun _ _ h => absurd h List.not_mem_nil
  ordered := fun _ => trivial
  hand := fun _ h => nomatch h
  stopping := fun _ _ _ _ h => nomatch h
  running := fun _ h => nomatch h

namespace Placed

theorem mem_started (h : s.Placed) (hd : d ∈ (s.mTree c).elems) : d ∈ s.started := by
  have hle := h.places d
  have hpos := List.count_pos_iff.2 (h.inTree c d hd ▸ hd)
  exact List.count_pos_iff.1 (by omega)

theorem mem_started_of_push (h : s.Placed) (hd : .push d ∈ s.queue) : d ∈ s.started := by
  have hle := h.places d
  have hpos := List.count_pos_iff.2 hd
  exact List.count_pos_iff.1 (by omega)

end Placed

/-! ## Clients -/

/-- A new delegate is in the queue alone. -/
theorem Placed.launched (h : s.Placed) (ho : s.Owned) (hf : s.Fresh timer) :
    (s.launched timer).Placed where
  places := by
    intro d
    have hle := h.places d
    have hqueue : (s.launched timer).queue.count (.push d) =
        s.queue.count (.push d) + [timer].count d := by
      simp [LocTimers.launched, List.count_append, List.count_singleton]
    show _ + (s.mTree d.wakeOnExpire).elems.count d ≤ (s.started ++ [timer]).count d
    rw [hqueue, List.count_append]
    omega
  inTree := h.inTree
  ordered := h.ordered
  hand := fun d hd => List.mem_append_left _ (h.hand d hd)
  stopping := h.stopping
  running := by
    intro d hd
    have hmem := (ho.launched hf).mem_started hd
    rcases List.mem_append.1 hmem with hmem | hmem
    · rcases h.running d ((ho.launched_running hf hmem).1 hd) with hpush | hplace
      · exact .inl (List.mem_append_left _ hpush)
      · exact .inr hplace
    · obtain rfl := List.mem_singleton.1 hmem
      exact .inl (List.mem_append_right _ (List.mem_singleton_self _))

theorem Placed.start (h : s.Placed) (ho : s.Owned) (client : Nat) (timeOutInMs : UInt32)
    (wakeOnExpire : Bool) (read : Timespec) :
    (s.start client timeOutInMs wakeOnExpire read).Placed := by
  rw [start_eq]
  cases hidle : s.mTimer client with
  | some _ => exact h
  | none => exact h.launched ho ⟨rfl, hidle⟩

theorem running_of_released (hd : (s.released timer).mTimer d.client = some d) :
    s.mTimer d.client = some d ∧ d.client ≠ timer.client := by
  by_cases hc : d.client = timer.client
  · simp [released, hc] at hd
  · exact ⟨by simpa [released, update_of_ne hc] using hd, hc⟩

section

variable (h : s.Placed)
include h

/-- Stopping moves none. -/
theorem Placed.released_places (timer d : LocTimerDelegate) :
    (s.released timer).queue.count (.push d) + (s.mTree d.wakeOnExpire).elems.count d ≤
      s.started.count d := by
  have hqueue : (s.released timer).queue.count (.push d) = s.queue.count (.push d) := by
    simp [released, List.count_append]
  rw [hqueue]
  exact h.places d

theorem Placed.clientStop (ho : s.Owned) (client : Nat) : (s.clientStop client).Placed := by
  rw [clientStop_eq ho]
  cases ht : s.mTimer client with
  | none => exact h
  | some timer =>
    refine ⟨h.released_places timer, h.inTree, h.ordered, h.hand, h.stopping, ?_⟩
    intro d hd
    rcases h.running d (running_of_released hd).1 with hpush | hplace
    · exact .inl (List.mem_append_left _ hpush)
    · exact .inr hplace

theorem Placed.expireStop (ho : s.Owned) (htask : s.task = .stopping c timerOfNow timer client) :
    (s.expireStop c timerOfNow client).Placed := by
  have hclient := h.stopping c timerOfNow timer client htask
  have hplace : ∀ d, s.mTimer d.client = some d → d.client ≠ client →
      .push d ∈ s.queue ∨ d ∈ (s.mTree d.wakeOnExpire).elems := by
    intro d hd hne
    rcases h.running d hd with hpush | htree | hhand
    · exact .inl hpush
    · exact .inr htree
    · rw [htask] at hhand
      obtain rfl : timer = d := Option.some.inj hhand
      exact absurd hclient hne
  rw [expireStop_eq ho]
  cases ht : s.mTimer client with
  | none =>
    refine ⟨h.places, h.inTree, h.ordered, fun d hd => (nomatch hd), fun _ _ _ _ hd => (nomatch hd),
      fun d hd => ?_⟩
    have hne : d.client ≠ client := by
      rintro rfl
      cases ht.symm.trans hd
    exact (hplace d hd hne).imp_right .inl
  | some running =>
    obtain rfl := ho.client client running ht
    refine ⟨h.released_places running, h.inTree, h.ordered, fun d hd => (nomatch hd),
      fun _ _ _ _ hd => (nomatch hd), fun d hd => ?_⟩
    obtain ⟨hrun, hne⟩ := running_of_released hd
    rcases hplace d hrun hne with hpush | htree
    · exact .inl (List.mem_append_left _ hpush)
    · exact .inr (.inl htree)

/-! ## The threads -/

theorem Placed.frame (htree : s'.mTree = s.mTree)
    (hclients : s'.mTimer = s.mTimer ∧ s'.started = s.started)
    (hqueue : ∀ d, s'.queue.count (.push d) = s.queue.count (.push d))
    (hhand : s'.task.hand = s.task.hand)
    (hstopping : ∀ c timerOfNow d client, s'.task = .stopping c timerOfNow d client →
      d.client = client) : s'.Placed := by
  obtain ⟨hmTimer, hstarted⟩ := hclients
  refine ⟨?_, ?_, ?_, ?_, hstopping, ?_⟩
  · intro d
    rw [hqueue d, htree, hstarted]
    exact h.places d
  · rw [htree]
    exact h.inTree
  · rw [htree]
    exact h.ordered
  · rw [hhand, hstarted]
    exact h.hand
  · intro d hd
    rw [hmTimer] at hd
    have hmem : .push d ∈ s.queue → .push d ∈ s'.queue := fun hp =>
      List.count_pos_iff.1 (hqueue d ▸ List.count_pos_iff.2 hp)
    rw [htree, hhand]
    exact (h.running d hd).imp_left hmem

theorem Placed.epollWait (ready : List Bool) : (s.epollWait ready).Placed := by
  unfold LocTimers.epollWait
  split
  · exact h.frame rfl ⟨rfl, rfl⟩ (fun _ => rfl) rfl h.stopping
  · exact h

theorem Placed.pollStep : s.pollStep.Placed := by
  unfold LocTimers.pollStep
  split
  · exact h
  · split
    · exact h.frame rfl ⟨rfl, rfl⟩ (fun _ => rfl) rfl h.stopping
    · exact h.frame rfl ⟨rfl, rfl⟩ (fun _ => rfl) rfl h.stopping
    · refine h.frame rfl ⟨rfl, rfl⟩ (fun d => ?_) rfl h.stopping
      simp [sendMsg, List.count_append]

theorem Placed.changed {t : LocHeapNode LocTimerDelegate} (htree : s'.mTree = update s.mTree c t)
    (hclients : s'.mTimer = s.mTimer ∧ s'.started = s.started)
    (hin : ∀ d ∈ t.elems, d.wakeOnExpire = c) (hordered : t.Ordered LocTimerDelegate.outRanks)
    (hplaces : ∀ d, s'.queue.count (.push d) ≤ s.queue.count (.push d) ∧ (d.wakeOnExpire = c →
      s'.queue.count (.push d) + t.elems.count d ≤
        s.queue.count (.push d) + (s.mTree c).elems.count d))
    (hhand : ∀ d, s'.task.hand = some d → d ∈ s.started)
    (hstopping : ∀ c timerOfNow d client, s'.task ≠ .stopping c timerOfNow d client)
    (hrunning : ∀ d, s.mTimer d.client = some d →
      .push d ∈ s'.queue ∨ d ∈ (update s.mTree c t d.wakeOnExpire).elems ∨
        s'.task.hand = some d) : s'.Placed := by
  obtain ⟨hmTimer, hstarted⟩ := hclients
  refine ⟨?_, ?_, ?_, ?_, fun c t d client hs => absurd hs (hstopping c t d client), ?_⟩
  · intro d
    have hle := h.places d
    obtain ⟨hqueue, hplace⟩ := hplaces d
    rw [htree, hstarted]
    by_cases hc : d.wakeOnExpire = c
    · have hd := hplace hc
      subst hc
      rw [update_self]
      omega
    · rw [update_of_ne hc]
      omega
  · intro c' d hd
    rw [htree] at hd
    by_cases hc : c' = c
    · subst hc
      rw [update_self] at hd
      exact hin d hd
    · rw [update_of_ne hc] at hd
      exact h.inTree c' d hd
  · intro c'
    rw [htree]
    by_cases hc : c' = c
    · subst hc
      rw [update_self]
      exact hordered
    · rw [update_of_ne hc]
      exact h.ordered c'
  · rw [hstarted]
    exact hhand
  · rw [hmTimer, htree]
    exact hrunning

theorem Placed.procPush (htask : s.task = .run []) (hqueue : s.queue = .push timer :: rest) :
    ({ s with queue := rest }.procPush timer).Placed := by
  have hperm := LocHeapNode.push_perm LocTimerDelegate.outRanks (s.mTree timer.wakeOnExpire) timer
  refine h.changed rfl ⟨rfl, rfl⟩ ?_ (LocHeapNode.push_ordered LocTimerDelegate.ranking
    (h.ordered _) timer) ?_ (fun d hd => (nomatch hd)) (fun _ _ _ _ hd => (nomatch hd)) ?_
  · intro d hd
    rcases List.mem_cons.1 (hperm.mem_iff.1 hd) with rfl | hd
    · rfl
    · exact h.inTree _ d hd
  · intro d
    show rest.count _ ≤ _ ∧ (_ → rest.count _ + _ ≤ _)
    have hcount := hperm.count_eq d
    rw [hqueue]
    simp only [List.count_cons, beq_iff_eq, LocTimerMsg.push.injEq] at hcount ⊢
    omega
  · intro d hd
    have hkept := h.running d hd
    rw [htask, hqueue] at hkept
    by_cases hc : d.wakeOnExpire = timer.wakeOnExpire
    · rw [hc] at hkept ⊢
      rw [update_self, hperm.mem_iff]
      rcases hkept with hpush | htree | hhand
      · rcases List.mem_cons.1 hpush with he | hpush
        · exact .inr (.inl (List.mem_cons.2 (.inl (LocTimerMsg.push.inj he))))
        · exact .inl hpush
      · exact .inr (.inl (List.mem_cons_of_mem _ htree))
      · cases hhand
    · rw [update_of_ne hc]
      rcases hkept with hpush | htree | hhand
      · refine .inl ((List.mem_cons.1 hpush).resolve_left fun he => ?_)
        exact hc (congrArg _ (LocTimerMsg.push.inj he))
      · exact .inr (.inl htree)
      · cases hhand

/-- A delegate is taken out of the heap. -/
theorem Placed.without {t : LocHeapNode LocTimerDelegate}
    (htask : s.task.hand = none) (htree : s'.mTree = update s.mTree c t)
    (hclients : s'.mTimer = s.mTimer ∧ s'.started = s.started)
    (hordered : t.Ordered LocTimerDelegate.outRanks)
    (hperm : (s.mTree c).elems.Perm (timer :: t.elems) ∨ t = s.mTree c)
    (hqueue : ∀ d, s'.queue.count (.push d) = s.queue.count (.push d))
    (hhand : s'.task.hand = some timer ∧ timer ∈ s.started ∨
      s'.task.hand = none ∧ s.mTimer timer.client ≠ some timer)
    (hstopping : ∀ c timerOfNow d client, s'.task ≠ .stopping c timerOfNow d client) :
    s'.Placed := by
  have hsub : ∀ d ∈ t.elems, d ∈ (s.mTree c).elems := by
    intro d hd
    rcases hperm with hperm | rfl
    · exact hperm.mem_iff.2 (List.mem_cons_of_mem _ hd)
    · exact hd
  refine h.changed htree hclients (fun d hd => h.inTree c d (hsub d hd)) hordered ?_ ?_ hstopping ?_
  · intro d
    refine ⟨Nat.le_of_eq (hqueue d), fun _ => ?_⟩
    rw [hqueue d]
    rcases hperm with hperm | rfl
    · rw [hperm.count_eq d, List.count_cons]
      omega
    · exact Nat.le_refl _
  · intro d hd
    rcases hhand with ⟨hhand, hmem⟩ | ⟨hhand, -⟩
    · rw [hhand] at hd
      exact Option.some.inj hd ▸ hmem
    · cases hhand.symm.trans hd
  · intro d hd
    have hpush : .push d ∈ s.queue → .push d ∈ s'.queue := fun hp =>
      List.count_pos_iff.1 (hqueue d ▸ List.count_pos_iff.2 hp)
    rcases h.running d hd with hp | hplace | hnot
    · exact .inl (hpush hp)
    · by_cases hc : d.wakeOnExpire = c
      · subst hc
        rw [update_self]
        rcases hperm with hperm | rfl
        · rcases List.mem_cons.1 (hperm.mem_iff.1 hplace) with rfl | hplace
          · rcases hhand with ⟨hhand, -⟩ | ⟨-, hstopped⟩
            · exact .inr (.inr hhand)
            · exact absurd hd hstopped
          · exact .inr (.inl hplace)
        · exact .inr (.inl hplace)
      · rw [update_of_ne hc]
        exact .inr (.inl hplace)
    · cases htask.symm.trans hnot

theorem Placed.procRemove (ho : s.Owned) (htask : s.task = .run [])
    (hqueue : s.queue = .remove timer :: rest) :
    ({ s with queue := rest }.procRemove timer).Placed := by
  obtain ⟨hfound, hnot⟩ := LocHeapNode.remove_spec LocTimerDelegate.outRanks
    (s.mTree timer.wakeOnExpire) timer
  -- the delegate whose deletion is asked for does not run
  have hidle : s.mTimer timer.client ≠ some timer := by
    intro hrun
    have hremoved := ho.removed timer
    have hcount := ho.count_started timer
    rw [hqueue, runs, if_pos hrun, List.count_cons_self] at hremoved
    omega
  rw [procRemove_eq]
  refine h.without (congrArg _ htask) rfl ⟨rfl, rfl⟩ (LocHeapNode.remove_ordered
    LocTimerDelegate.ranking (h.ordered _) timer) ?_ (fun d => ?_) (.inr ⟨rfl, hidle⟩) ?_
  · cases hf : ((s.mTree timer.wakeOnExpire).remove LocTimerDelegate.outRanks timer).2 with
    | true => exact .inl (hfound hf)
    | false => exact .inr (hnot hf)
  · show rest.count _ = _
    rw [hqueue]
    simp
  · intro _ _ _ _ hd
    cases hd

/-- The top of the heap is in the hand of the task. -/
theorem Placed.popTop (htask : s.task.hand = none)
    (htop : (s.mTree c).peek = some timer) (hqueue : ∀ d, rest.count (.push d) =
      s.queue.count (.push d)) : ({ s with queue := rest }.popTop c timerOfNow timer).Placed :=
  h.without htask rfl ⟨rfl, rfl⟩ (LocHeapNode.pop_ordered LocTimerDelegate.ranking (h.ordered c))
    (.inl (LocHeapNode.pop_perm htop)) hqueue
    (.inl ⟨rfl, h.mem_started (LocHeapNode.mem_of_peek htop)⟩) fun _ _ _ _ hd => nomatch hd

/-- The steps of the message task. -/
theorem Placed.taskStep (ho : s.Owned) (hstep : s.TaskStep s') : s'.Placed := by
  cases hstep with
  | idle => exact h
  | push timer rest htask hqueue => exact h.procPush htask hqueue
  | remove timer rest htask hqueue => exact h.procRemove ho htask hqueue
  | expire c rest timer htask hqueue htop =>
    exact h.popTop (congrArg _ htask) htop fun d => by simp [hqueue]
  | expireEmpty c rest htask hqueue =>
    exact h.frame rfl ⟨rfl, rfl⟩ (fun d => by simp [hqueue, LocTimers.expireDone])
      (congrArg TimerTask.hand htask).symm fun _ _ _ _ hd => nomatch hd
  | op op ops htask =>
    cases op <;> exact h.frame rfl ⟨rfl, rfl⟩ (fun _ => rfl) (congrArg TimerTask.hand htask).symm
      fun _ _ _ _ hd => nomatch hd
  | left c timerOfNow timer htask hclient =>
    -- the delegate that is let go has been stopped
    have hmem := h.hand timer (congrArg _ htask)
    have hidle : s.mTimer timer.client ≠ some timer := by
      intro hrun
      have hread := ho.mClient timer hmem
      rw [hclient, if_pos hrun] at hread
      cases hread
    refine ⟨h.places, h.inTree, h.ordered, fun d hd => (nomatch hd), fun _ _ _ _ hd => (nomatch hd),
      fun d hd => ?_⟩
    rcases h.running d hd with hpush | htree | hhand
    · exact .inl hpush
    · exact .inr (.inl htree)
    · rw [htask] at hhand
      obtain rfl : timer = d := Option.some.inj hhand
      exact absurd hd hidle
  | read c timerOfNow timer client htask hclient =>
    have hmem := h.hand timer (congrArg _ htask)
    refine h.frame rfl ⟨rfl, rfl⟩ (fun _ => rfl) (congrArg TimerTask.hand htask).symm ?_
    intro c' t d cl hstopping
    obtain ⟨-, -, rfl, rfl⟩ := TimerTask.stopping.inj hstopping
    have hread := ho.mClient timer hmem
    rw [hclient] at hread
    split at hread
    · exact (Option.some.inj hread).symm
    · cases hread
  | stop c timerOfNow timer client htask => exact h.expireStop ho htask
  | call c timerOfNow timer htask =>
    exact h.frame rfl ⟨rfl, rfl⟩ (fun _ => rfl) (congrArg TimerTask.hand htask).symm
      fun _ _ _ _ hd => nomatch hd
  | pop c timerOfNow timer htask htop =>
    exact h.popTop (congrArg _ htask) htop fun _ => rfl
  | done c timerOfNow htask =>
    exact h.frame rfl ⟨rfl, rfl⟩ (fun _ => rfl) (congrArg TimerTask.hand htask).symm
      fun _ _ _ _ hd => nomatch hd

/-- And those of all threads. -/
theorem Placed.advance (ho : s.Owned) (e : TimerEvent) : (s.advance e).Placed := by
  cases e with
  | tick now =>
    unfold LocTimers.advance
    simp only
    split
    · exact h.frame rfl ⟨rfl, rfl⟩ (fun _ => rfl) rfl h.stopping
    · exact h
  | start client timeOutInMs wakeOnExpire read =>
    unfold LocTimers.advance
    simp only
    split
    · exact h.start ho ..
    · exact h
  | stop client => exact h.clientStop ho client
  | epollWait ready => exact h.epollWait ready
  | pollStep => exact h.pollStep
  | taskStep => exact h.taskStep ho s.taskStep_spec

end

end LocTimers

end Nx508j.Loc
