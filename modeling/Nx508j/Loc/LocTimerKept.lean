import Nx508j.Loc.LocTimerPlaced

/-! # No timer is lost

The kernel timer of a container is armed for the top of its heap, unless an expiry of it is under
way: the polling thread has it, its message waits, or the message task works on it. The message task
arms a timer in more than one system call, so that what counts is how it will be after those. -/

namespace Nx508j.Loc

open Nx508j.Lib Function

/-- The container of the expiry that the message task works on. -/
def TimerTask.expiry : TimerTask → Option Bool
  | .run _ => none
  | .popped c _ _ => some c
  | .stopping c _ _ _ => some c
  | .calling c _ _ => some c
  | .looping c _ => some c

namespace LocTimers

variable {s s' : LocTimers} {c c' : Bool} {client : Nat} {d timer : LocTimerDelegate}
  {timerOfNow : Timespec} {rest : List LocTimerMsg} {op : TaskOp} {ops : List TaskOp}
  (now : Timespec)

/-! ## System calls -/

/-- The system calls of the message task, one after the other. -/
def afterOps (ops : List TaskOp) (s : LocTimers) : LocTimers := ops.foldl (fun s op => s.runOp op) s

/-- Two states in which the descriptor of a container is the same. -/
def SameFd (c : Bool) (s' s : LocTimers) : Prop :=
  s'.epoll c = s.epoll c ∧ s'.timerfd c = s.timerfd c

theorem SameFd.runOp (h : SameFd c s' s) (op : TaskOp) : SameFd c (s'.runOp op) (s.runOp op) := by
  obtain ⟨hepoll, htimerfd⟩ := h
  cases op with
  | addPoll c'
  | removePoll c' => exact ⟨by simp [LocTimers.runOp, update_apply, hepoll], htimerfd⟩
  | settime c' value => exact ⟨hepoll, by simp [LocTimers.runOp, update_apply, htimerfd]⟩
  | delete timer => exact ⟨hepoll, htimerfd⟩

theorem SameFd.afterOps (h : SameFd c s' s) (ops : List TaskOp) :
    SameFd c (s'.afterOps ops) (s.afterOps ops) := by
  induction ops generalizing s s' with
  | nil => exact h
  | cons op ops ih => exact ih (h.runOp op)

theorem SameFd.trans {s'' : LocTimers} (h : SameFd c s'' s') (h' : SameFd c s' s) :
    SameFd c s'' s :=
  ⟨h.1.trans h'.1, h.2.trans h'.2⟩

/-- The descriptor of `c` is armed for this time and polled. -/
def ArmedFor (s : LocTimers) (c : Bool) (value : Timespec) : Prop :=
  s.epoll c = true ∧ s.timerfd c = some value

theorem ArmedFor.congr {value : Timespec} (h : SameFd c s' s) (ha : s.ArmedFor c value) :
    s'.ArmedFor c value :=
  ⟨h.1.trans ha.1, h.2.trans ha.2⟩

/-- The calls of `updateSoonestTime`, for a top and the one before. -/
def soonestOps (c : Bool) (curTop priorTop : Option LocTimerDelegate) : List TaskOp :=
  if curTop = priorTop then []
  else
    match curTop with
    | none => [.removePoll c, .settime c ⟨0, 0, Timespec.zero_nsec_lt⟩]
    | some top =>
      if priorTop.all fun p => top.outRanks p then [.addPoll c, .settime c top.mFutureTime]
      else []

theorem sameFd_soonestOps (s : LocTimers) (hne : c' ≠ c) (curTop priorTop : Option LocTimerDelegate) :
    SameFd c' (s.afterOps (soonestOps c curTop priorTop)) s := by
  unfold soonestOps
  split
  · exact ⟨rfl, rfl⟩
  split
  · exact ⟨update_of_ne hne .., update_of_ne hne ..⟩
  split
  · exact ⟨update_of_ne hne .., update_of_ne hne ..⟩
  · exact ⟨rfl, rfl⟩

theorem armedFor_soonestOps (s : LocTimers) (c : Bool) {priorTop : Option LocTimerDelegate}
    (hns : timer.mFutureTime.ns ≠ 0) (hprior : ∀ p ∈ priorTop, timer.outRanks p = true) :
    (s.afterOps (soonestOps c (some timer) priorTop)).ArmedFor c timer.mFutureTime := by
  have hne : some timer ≠ priorTop := by
    rintro rfl
    have hranks := hprior timer rfl
    rw [LocTimerDelegate.ranking.irrefl] at hranks
    cases hranks
  have hall : priorTop.all (fun p => timer.outRanks p) = true := by
    cases priorTop with
    | none => rfl
    | some p => exact hprior p rfl
  have hops : soonestOps c (some timer) priorTop =
      [.addPoll c, .settime c timer.mFutureTime] := by
    unfold soonestOps
    rw [if_neg hne]
    exact if_pos hall
  rw [hops]
  exact ⟨update_self .., by simp [afterOps, LocTimers.runOp, hns]⟩

theorem soonestOps_same (c : Bool) (curTop : Option LocTimerDelegate) :
    soonestOps c curTop curTop = [] :=
  if_pos rfl

theorem sameFd_delete (s₀ : LocTimers) (c : Bool) (ops : List TaskOp) (timer : LocTimerDelegate) :
    SameFd c (s₀.afterOps (ops ++ [.delete timer])) (s₀.afterOps ops) := by
  unfold LocTimers.afterOps
  rw [List.foldl_append]
  exact ⟨rfl, rfl⟩

/-! ## The invariant -/

/-- An expiry of the container is under way. -/
def Dirty (s : LocTimers) (c : Bool) : Prop :=
  c ∈ s.ready ∨ .expire c ∈ s.queue ∨ s.task.expiry = some c

/-- The descriptor will be armed for the top, if there is one. -/
def Armed (s : LocTimers) (c : Bool) : Prop :=
  ∀ d, (s.mTree c).peek = some d → (s.afterOps s.task.ops).ArmedFor c d.mFutureTime

/-- No time is the one that disarms a timer. -/
def NonZero (s : LocTimers) : Prop := ∀ d ∈ s.started, d.mFutureTime.ns ≠ 0

def Wakes (s : LocTimers) : Prop := ∀ c, s.Dirty c ∨ s.Armed c

theorem wakes_init : (init now).Wakes := fun _ => .inr fun _ h => nomatch h

theorem Armed.congr (ha : s.Armed c) (htree : (s'.mTree c).peek = (s.mTree c).peek)
    (hfd : SameFd c (s'.afterOps s'.task.ops) (s.afterOps s.task.ops)) : s'.Armed c :=
  fun d hd => (ha d (htree ▸ hd)).congr hfd

theorem Wakes.frame (h : s.Wakes) (hdirty : ∀ c, s.Dirty c → s'.Dirty c)
    (hsame : ∀ c, ¬ s'.Dirty c → (s'.mTree c).peek = (s.mTree c).peek ∧ SameFd c s' s)
    (hops : s'.task.ops = s.task.ops) : s'.Wakes := by
  intro c
  by_cases hc : s'.Dirty c
  · exact .inl hc
  obtain ⟨htree, hfd⟩ := hsame c hc
  refine .inr (((h c).resolve_left fun hd => hc (hdirty c hd)).congr htree ?_)
  rw [hops]
  exact hfd.afterOps _

/-! ## Clients and the polling thread -/

theorem Dirty.queue (h : s.Dirty c) (hready : s'.ready = s.ready) (htask : s'.task = s.task)
    (hqueue : .expire c ∈ s.queue → .expire c ∈ s'.queue) : s'.Dirty c := by
  rcases h with h | h | h
  · exact .inl (hready ▸ h)
  · exact .inr (.inl (hqueue h))
  · exact .inr (.inr (htask ▸ h))

theorem Wakes.start (h : s.Wakes) (client : Nat) (timeOutInMs : UInt32) (wakeOnExpire : Bool)
    (read : Timespec) : (s.start client timeOutInMs wakeOnExpire read).Wakes := by
  rw [start_eq]
  cases s.mTimer client with
  | some _ => exact h
  | none =>
    refine h.frame (fun c hc => hc.queue rfl rfl (List.mem_append_left _)) (fun c _ => ?_) rfl
    exact ⟨rfl, rfl, rfl⟩

theorem Wakes.clientStop (h : s.Wakes) (ho : s.Owned) (client : Nat) :
    (s.clientStop client).Wakes := by
  rw [clientStop_eq ho]
  cases s.mTimer client with
  | none => exact h
  | some timer =>
    refine h.frame (fun c hc => hc.queue rfl rfl (List.mem_append_left _)) (fun c _ => ?_) rfl
    exact ⟨rfl, rfl, rfl⟩

theorem Wakes.epollWait (h : s.Wakes) (ready : List Bool) : (s.epollWait ready).Wakes := by
  unfold LocTimers.epollWait
  split
  · next hready =>
    refine h.frame (fun c hc => hc.imp_left fun hr => ?_) (fun c _ => ⟨rfl, rfl, rfl⟩) rfl
    rw [hready.1] at hr
    cases hr
  · exact h

theorem Wakes.pollStep (h : s.Wakes) : s.pollStep.Wakes := by
  unfold LocTimers.pollStep
  split
  · exact h
  · next c rest hready =>
    have hin : c ∈ s.ready := hready ▸ List.mem_cons_self ..
    split
    · refine h.frame (fun _ hc => hc) (fun c' hc' => ⟨rfl, rfl, ?_⟩) rfl
      have hne : c' ≠ c := fun he => hc' (.inl (he ▸ hin))
      exact update_of_ne hne ..
    · refine h.frame (fun _ hc => hc) (fun c' hc' => ⟨rfl, ?_, rfl⟩) rfl
      have hne : c' ≠ c := fun he => hc' (.inl (he ▸ hin))
      exact update_of_ne hne ..
    · refine h.frame (fun c' hc' => ?_) (fun c _ => ⟨rfl, rfl, rfl⟩) rfl
      rcases hc' with hr | hq | ht
      · rw [hready] at hr
        rcases List.mem_cons.1 hr with rfl | hr
        · exact .inr (.inl (List.mem_append_right _ (List.mem_singleton_self _)))
        · exact .inl hr
      · exact .inr (.inl (List.mem_append_left _ hq))
      · exact .inr (.inr ht)

/-! ## The message task -/

theorem Wakes.changed (h : s.Wakes) (c : Bool) (hops : s.task.ops = [])
    (hself : s'.Dirty c ∨ s'.Armed c) (hdirty : ∀ c' ≠ c, s.Dirty c' → s'.Dirty c')
    (hother : ∀ c' ≠ c, (s'.mTree c').peek = (s.mTree c').peek ∧
      SameFd c' (s'.afterOps s'.task.ops) s) : s'.Wakes := by
  intro c'
  by_cases hc : c' = c
  · exact hc ▸ hself
  · obtain ⟨htree, hfd⟩ := hother c' hc
    refine (h c').imp (hdirty c' hc) fun ha => ha.congr htree ?_
    rw [hops]
    exact hfd

theorem Dirty.taken {msg : LocTimerMsg} (h : s.Dirty c) (htask : s.task = .run [])
    (hqueue : s.queue = msg :: rest) (hmsg : msg ≠ .expire c) (hready : s'.ready = s.ready)
    (hrest : s'.queue = rest) : s'.Dirty c := by
  rcases h with h | h | h
  · exact .inl (hready ▸ h)
  · rw [hqueue] at h
    exact .inr (.inl (hrest ▸ (List.mem_cons.1 h).resolve_left fun he => hmsg he.symm))
  · rw [htask] at h
    cases h

theorem Wakes.procPush (h : s.Wakes) (hp : s.Placed) (hn : s.NonZero) (htask : s.task = .run [])
    (hqueue : s.queue = .push timer :: rest) : ({ s with queue := rest }.procPush timer).Wakes := by
  set t := (s.mTree timer.wakeOnExpire).push LocTimerDelegate.outRanks timer with ht
  have htree : ({ s with queue := rest }.procPush timer).mTree timer.wakeOnExpire = t :=
    update_self ..
  have hops : ({ s with queue := rest }.procPush timer).task.ops =
      soonestOps timer.wakeOnExpire t.peek (s.mTree timer.wakeOnExpire).peek := by
    rw [← htree]
    rfl
  have hpeek := LocHeapNode.peek_push LocTimerDelegate.outRanks (s.mTree timer.wakeOnExpire) timer
  have hnonzero := hn timer (hp.mem_started_of_push (hqueue ▸ List.mem_cons_self ..))
  refine h.changed timer.wakeOnExpire (congrArg _ htask) ?_
    (fun c' _ hc' => hc'.taken htask hqueue (by simp) rfl rfl) fun c' hne =>
      ⟨congrArg _ (update_of_ne hne ..), sameFd_soonestOps _ hne _ _⟩
  refine (h timer.wakeOnExpire).imp (fun hd => hd.taken htask hqueue (by simp) rfl rfl) ?_
  intro ha top htop
  rw [htree] at htop
  rw [hops, htop]
  rw [← ht, htop] at hpeek
  have htop := Option.some.inj hpeek
  -- the new top is the old one, or the new delegate if it outranks that
  cases hold : (s.mTree timer.wakeOnExpire).peek with
  | none =>
    rw [hold] at htop
    obtain rfl : top = timer := htop
    exact armedFor_soonestOps _ _ hnonzero fun p hp => nomatch hp
  | some old =>
    rw [hold] at htop
    have htop : top = (LocHeapNode.placed LocTimerDelegate.outRanks timer old).1 := htop
    by_cases hranks : timer.outRanks old = true
    · obtain rfl : top = timer := htop.trans (congrArg Prod.fst (if_pos hranks))
      exact armedFor_soonestOps _ _ hnonzero fun p hp => Option.some.inj hp ▸ hranks
    · obtain rfl : top = old := htop.trans (congrArg Prod.fst (if_neg hranks))
      rw [soonestOps_same]
      refine (ha top hold).congr ?_
      rw [htask]
      exact ⟨rfl, rfl⟩

theorem Wakes.procRemove (h : s.Wakes) (hp : s.Placed) (hn : s.NonZero) (htask : s.task = .run [])
    (hqueue : s.queue = .remove timer :: rest) :
    ({ s with queue := rest }.procRemove timer).Wakes := by
  set removed := (s.mTree timer.wakeOnExpire).remove LocTimerDelegate.outRanks timer with hremoved
  have htree : ({ s with queue := rest }.procRemove timer).mTree timer.wakeOnExpire = removed.1 :=
    update_self ..
  have heq : ({ s with queue := rest }.procRemove timer).task.ops =
      removeOps timer { s with queue := rest } ++ [.delete timer] := rfl
  by_cases hsame : (s.mTree timer.wakeOnExpire).peek = if removed.2 then some timer else none
  · have hops : removeOps timer { s with queue := rest } =
        soonestOps timer.wakeOnExpire removed.1.peek none := by
      rw [← htree]
      exact if_pos hsame
    refine h.changed timer.wakeOnExpire (congrArg _ htask) (.inr ?_)
      (fun c' _ hc' => hc'.taken htask hqueue (by simp) rfl rfl) fun c' hne =>
        ⟨congrArg _ (update_of_ne hne ..), ?_⟩
    · intro top htop
      rw [htree] at htop
      have hmem : top ∈ s.started :=
        hp.mem_started (LocHeapNode.mem_of_mem_remove (LocHeapNode.mem_of_peek htop))
      rw [heq, hops, htop]
      refine ArmedFor.congr (sameFd_delete _ _ _ _) ?_
      exact armedFor_soonestOps _ _ (hn top hmem) fun p hp => nomatch hp
    · rw [heq, hops]
      exact (sameFd_delete _ _ _ _).trans (sameFd_soonestOps _ hne _ _)
  · -- the top is another one, and stays
    have hops : removeOps timer { s with queue := rest } = [] := if_neg hsame
    have hpeek : removed.1.peek = (s.mTree timer.wakeOnExpire).peek := by
      by_cases htop : (s.mTree timer.wakeOnExpire).peek = some timer
      · refine absurd (htop.trans (if_pos ?_).symm) hsame
        exact LocHeapNode.remove_found (hp.ordered _) (LocHeapNode.mem_of_peek htop)
      · exact LocHeapNode.peek_remove _ _ _ htop
    have hfd : ∀ c, SameFd c (({ s with queue := rest }.procRemove timer).afterOps
        ({ s with queue := rest }.procRemove timer).task.ops) s := by
      intro c
      rw [heq, hops]
      exact ⟨rfl, rfl⟩
    refine h.changed timer.wakeOnExpire (congrArg _ htask) ?_
      (fun c' _ hc' => hc'.taken htask hqueue (by simp) rfl rfl) fun c' hne =>
        ⟨congrArg _ (update_of_ne hne ..), hfd c'⟩
    refine (h timer.wakeOnExpire).imp (fun hd => hd.taken htask hqueue (by simp) rfl rfl)
      fun ha => ha.congr (htree ▸ hpeek) ?_
    rw [htask]
    exact hfd _

theorem Wakes.goesOn (h : s.Wakes) (hops : s.task.ops = []) (hops' : s'.task.ops = [])
    (hexpiry : s.task.expiry = some c) (hexpiry' : s'.task.expiry = some c)
    (hready : s'.ready = s.ready) (hqueue : ∀ c, .expire c ∈ s.queue → .expire c ∈ s'.queue)
    (htree : ∀ c' ≠ c, s'.mTree c' = s.mTree c') (hfd : ∀ c, SameFd c s' s) : s'.Wakes := by
  refine h.changed c hops (.inl (.inr (.inr hexpiry'))) (fun c' _ hc' => ?_) fun c' hne => ?_
  · rcases hc' with hr | hq | ht
    · exact .inl (hready ▸ hr)
    · exact .inr (.inl (hqueue c' hq))
    · exact .inr (.inr (hexpiry'.trans (hexpiry.symm.trans ht)))
  · rw [hops']
    exact ⟨congrArg _ (htree c' hne), hfd c'⟩

theorem Wakes.expireDone (h : s.Wakes) (hp : s.Placed) (hn : s.NonZero) (hops : s.task.ops = [])
    (hdirty : ∀ c' ≠ c, s.Dirty c' → (s.expireDone c).Dirty c') : (s.expireDone c).Wakes := by
  refine h.changed c hops (.inr fun top htop => ?_) hdirty fun c' hne =>
    ⟨rfl, sameFd_soonestOps _ hne _ _⟩
  have hmem := hp.mem_started (LocHeapNode.mem_of_peek htop)
  show (afterOps (soonestOps c (s.mTree c).peek none) _).ArmedFor c _
  rw [show (s.mTree c).peek = some top from htop]
  exact armedFor_soonestOps _ _ (hn top hmem) fun p hp => nomatch hp

theorem Wakes.taskStep (h : s.Wakes) (ho : s.Owned) (hp : s.Placed) (hn : s.NonZero)
    (hstep : s.TaskStep s') : s'.Wakes := by
  cases hstep with
  | idle => exact h
  | push timer rest htask hqueue => exact h.procPush hp hn htask hqueue
  | remove timer rest htask hqueue => exact h.procRemove hp hn htask hqueue
  | expire c rest timer htask hqueue =>
    refine h.changed c (congrArg _ htask) (.inl (.inr (.inr rfl))) (fun c' hne hc' => ?_)
      fun c' hne => ⟨congrArg _ (update_of_ne hne ..), rfl, rfl⟩
    have hmsg : LocTimerMsg.expire c ≠ .expire c' := fun he => hne (LocTimerMsg.expire.inj he).symm
    exact hc'.taken htask hqueue hmsg rfl rfl
  | expireEmpty c rest htask hqueue htop =>
    have hops : ({ s with queue := rest }.expireDone c).task.ops = [] := by
      show soonestOps c (s.mTree c).peek none = []
      rw [htop]
      rfl
    refine h.changed c (congrArg _ htask) (.inr fun top ht => (nomatch htop.symm.trans ht))
      (fun c' hne hc' => ?_) fun c' _ => ?_
    · have hmsg : LocTimerMsg.expire c ≠ .expire c' :=
        fun he => hne (LocTimerMsg.expire.inj he).symm
      exact hc'.taken htask hqueue hmsg rfl rfl
    · rw [hops]
      exact ⟨rfl, rfl, rfl⟩
  | op op ops htask =>
    intro c
    refine (h c).imp (fun hc => ?_) fun ha => ha.congr ?_ ?_
    · rcases hc with hr | hq | ht
      · exact .inl (by cases op <;> exact hr)
      · exact .inr (.inl (by cases op <;> exact hq))
      · rw [htask] at ht
        cases ht
    · cases op <;> rfl
    · rw [htask]
      show SameFd c (LocTimers.afterOps ops _) (LocTimers.afterOps ops (s.runOp op))
      refine SameFd.afterOps ?_ ops
      exact ⟨rfl, rfl⟩
  | left c timerOfNow timer htask | read c timerOfNow timer client htask =>
    exact h.goesOn (congrArg _ htask) rfl (congrArg _ htask) rfl rfl (fun _ hq => hq)
      (fun _ _ => rfl) fun _ => ⟨rfl, rfl⟩
  | stop c timerOfNow timer client htask =>
    rw [expireStop_eq ho]
    cases s.mTimer client with
    | none =>
      exact h.goesOn (congrArg _ htask) rfl (congrArg _ htask) rfl rfl (fun _ hq => hq)
        (fun _ _ => rfl) fun _ => ⟨rfl, rfl⟩
    | some running =>
      exact h.goesOn (congrArg _ htask) rfl (congrArg _ htask) rfl rfl
        (fun _ hq => List.mem_append_left _ hq) (fun _ _ => rfl) fun _ => ⟨rfl, rfl⟩
  | call c timerOfNow timer htask =>
    exact h.goesOn (congrArg _ htask) rfl (congrArg _ htask) rfl rfl (fun _ hq => hq)
      (fun _ _ => rfl) fun _ => ⟨rfl, rfl⟩
  | pop c timerOfNow timer htask =>
    exact h.goesOn (congrArg _ htask) rfl (congrArg _ htask) rfl rfl (fun _ hq => hq)
      (fun _ hne => update_of_ne hne ..) fun _ => ⟨rfl, rfl⟩
  | done c timerOfNow htask =>
    refine h.expireDone hp hn (congrArg _ htask) fun c' hne hc' => ?_
    rcases hc' with hr | hq | ht
    · exact .inl hr
    · exact .inr (.inl hq)
    · rw [htask] at ht
      exact absurd (Option.some.inj ht).symm hne

theorem Wakes.advance (h : s.Wakes) (ho : s.Owned) (hp : s.Placed) (hn : s.NonZero)
    (e : TimerEvent) : (s.advance e).Wakes := by
  cases e with
  | tick now =>
    unfold LocTimers.advance
    simp only
    split
    · exact h.frame (fun _ hc => hc) (fun _ _ => ⟨rfl, rfl, rfl⟩) rfl
    · exact h
  | start client timeOutInMs wakeOnExpire read =>
    unfold LocTimers.advance
    simp only
    split
    · exact h.start client timeOutInMs wakeOnExpire read
    · exact h
  | stop client => exact h.clientStop ho client
  | epollWait ready => exact h.epollWait ready
  | pollStep => exact h.pollStep
  | taskStep => exact h.taskStep ho hp hn s.taskStep_spec

theorem started_advance (ho : s.Owned) (e : TimerEvent) :
    (s.advance e).started = s.started ∨ ∃ client timeOutInMs wakeOnExpire read, read.ns ≠ 0 ∧
      (s.advance e).started = s.started ++ [s.newTimer client timeOutInMs wakeOnExpire read] := by
  cases e with
  | tick now =>
    unfold LocTimers.advance
    simp only
    split <;> exact .inl rfl
  | start client timeOutInMs wakeOnExpire read =>
    unfold LocTimers.advance
    simp only
    split
    · next hread =>
      rw [start_eq]
      cases s.mTimer client with
      | some _ => exact .inl rfl
      | none => exact .inr ⟨client, timeOutInMs, wakeOnExpire, read, hread.2, rfl⟩
    · exact .inl rfl
  | stop client =>
    show (s.clientStop client).started = _ ∨ _
    rw [clientStop_eq ho]
    cases s.mTimer client <;> exact .inl rfl
  | epollWait ready =>
    show (s.epollWait ready).started = _ ∨ _
    unfold LocTimers.epollWait
    split <;> exact .inl rfl
  | pollStep =>
    show s.pollStep.started = _ ∨ _
    unfold LocTimers.pollStep
    split
    · exact .inl rfl
    · split <;> exact .inl rfl
  | taskStep =>
    show s.taskStep.started = _ ∨ _
    have hstep := s.taskStep_spec
    generalize s.taskStep = s' at hstep ⊢
    cases hstep with
    | op op => cases op <;> exact .inl rfl
    | stop c timerOfNow timer client htask =>
      rw [expireStop_eq ho]
      cases s.mTimer client <;> exact .inl rfl
    | _ => exact .inl rfl

theorem NonZero.advance (hn : s.NonZero) (ho : s.Owned) (e : TimerEvent) :
    (s.advance e).NonZero := by
  intro d hd
  rcases started_advance ho e with heq | ⟨client, timeOutInMs, wakeOnExpire, read, hread, heq⟩
  · exact hn d (heq ▸ hd)
  · rw [heq] at hd
    rcases List.mem_append.1 hd with hd | hd
    · exact hn d hd
    · obtain rfl := List.mem_singleton.1 hd
      show (read.after timeOutInMs).ns ≠ 0
      rw [Timespec.ns_after]
      omega

/-! ## Every run -/

/-- What holds in every run. -/
structure Sound (s : LocTimers) : Prop where
  owned : s.Owned
  placed : s.Placed
  nonZero : s.NonZero
  wakes : s.Wakes

theorem sound_init : (init now).Sound :=
  ⟨owned_init now, placed_init now, fun _ h => absurd h List.not_mem_nil, wakes_init now⟩

theorem Sound.advance (h : s.Sound) (e : TimerEvent) : (s.advance e).Sound :=
  ⟨h.owned.advance e, h.placed.advance h.owned e, h.nonZero.advance h.owned e,
    h.wakes.advance h.owned h.placed h.nonZero e⟩

theorem run_sound {C : LocTimers → TimerEvent → Prop} {now : Timespec}
    {tr : List (TimerEvent × Unit)} (run : Run step C (init now) tr s) : s.Sound := by
  refine run.invariant (fun _ s => s.Sound) (sound_init now) ?_
  intro tr s e s' r hs _ hstep
  cases hstep
  exact hs.advance e

/-! ## The callback

The message task calls a client after it has stopped it itself. In between the client can start
another delegate and stop that: the callback then comes after a `stop` that returned true. -/

/-- `stop` of the delegate's client has returned true since the delegate was started. -/
def StoppedSince (s : LocTimers) (d : LocTimerDelegate) : Prop :=
  ∃ e ∈ s.stopped, e.client = d.client ∧ d.addr ≤ e.addr

instance (s : LocTimers) (d : LocTimerDelegate) : Decidable (s.StoppedSince d) :=
  inferInstanceAs (Decidable (∃ e ∈ s.stopped, _))

/-- No client is stopped by a `stop` of its own while the message task is about to call it. -/
def StopsInTime (s : LocTimers) : TimerEvent → Prop
  | .stop client => s.mTimer client = none ∨ ∀ d ∈ s.task.called, d.client ≠ client
  | _ => True

instance (s : LocTimers) : (e : TimerEvent) → Decidable (s.StopsInTime e)
  | .stop _ => inferInstanceAs (Decidable (_ ∨ _))
  | .tick _ | .start .. | .epollWait _ | .pollStep | .taskStep => .isTrue trivial

/-- No delegate that runs or is to be called was overtaken by a `stop`. -/
structure NotOvertaken (s : LocTimers) : Prop where
  inOrder : (s.started.map LocTimerDelegate.addr).Pairwise (· < ·)
  running : ∀ client d, s.mTimer client = some d → ¬ s.StoppedSince d
  called : ∀ d ∈ s.task.called, ¬ s.StoppedSince d

theorem notOvertaken_init : (init now).NotOvertaken :=
  ⟨.nil, fun _ _ h => (nomatch h), fun _ h => (nomatch h)⟩

theorem NotOvertaken.frame (h : s.NotOvertaken) (hstarted : s'.started = s.started)
    (hstopped : s'.stopped = s.stopped) (hmTimer : s'.mTimer = s.mTimer)
    (hcalled : ∀ d ∈ s'.task.called, d ∈ s.task.called) : s'.NotOvertaken := by
  refine ⟨hstarted ▸ h.inOrder, fun client d hd => ?_, fun d hd => ?_⟩ <;>
    rw [StoppedSince, hstopped]
  · exact h.running client d (hmTimer ▸ hd)
  · exact h.called d (hcalled d hd)

theorem Owned.stopped_started (ho : s.Owned) (hd : d ∈ s.stopped) : d ∈ s.started := by
  have hended := ho.ended d
  have hpos := List.count_pos_iff.2 hd
  exact List.count_pos_iff.1 (by omega)

/-- A delegate is newer than all that were stopped before its start. -/
theorem NotOvertaken.start (h : s.NotOvertaken) (ho : s.Owned) (client : Nat) (timeOutInMs : UInt32)
    (wakeOnExpire : Bool) (read : Timespec) :
    (s.start client timeOutInMs wakeOnExpire read).NotOvertaken := by
  rw [start_eq]
  cases s.mTimer client with
  | some _ => exact h
  | none =>
    set timer := s.newTimer client timeOutInMs wakeOnExpire read
    refine ⟨?_, fun cl d hd => ?_, h.called⟩
    · show ((s.started ++ [timer]).map _).Pairwise _
      rw [List.map_append]
      refine List.pairwise_append.2 ⟨h.inOrder, List.pairwise_singleton _ _, ?_⟩
      intro a ha b hb
      obtain ⟨e, he, rfl⟩ := List.mem_map.1 ha
      obtain rfl := List.mem_singleton.1 hb
      exact ho.fresh e he
    · by_cases hc : cl = timer.client
      · subst hc
        have hd : (s.launched timer).mTimer timer.client = some d := hd
        obtain rfl : timer = d := by simpa [LocTimers.launched] using hd
        rintro ⟨e, he, -, hle⟩
        exact absurd (ho.fresh e (ho.stopped_started he)) (Nat.not_lt_of_le hle)
      · have hd : (s.launched timer).mTimer cl = some d := hd
        exact h.running cl d (by simpa [LocTimers.launched, update_of_ne hc] using hd)

/-- A `stop` takes the delegate that runs, so that it overtakes none but one to be called. -/
theorem NotOvertaken.clientStop (h : s.NotOvertaken) (ho : s.Owned)
    (hC : s.StopsInTime (.stop client)) : (s.clientStop client).NotOvertaken := by
  rw [clientStop_eq ho]
  cases ht : s.mTimer client with
  | none => exact h
  | some timer =>
    obtain rfl := ho.client client timer ht
    have hother : ∀ d : LocTimerDelegate, d.client ≠ timer.client → ¬ s.StoppedSince d →
        ¬ StoppedSince { s.released timer with stopped := s.stopped ++ [timer] } d := by
      rintro d hne hd ⟨e, he, hclient, hle⟩
      rcases List.mem_append.1 he with he | he
      · exact hd ⟨e, he, hclient, hle⟩
      · obtain rfl := List.mem_singleton.1 he
        exact hne hclient.symm
    refine ⟨h.inOrder, fun cl d hd => ?_, fun d hd => ?_⟩
    · by_cases hc : cl = timer.client
      · subst hc
        exact nomatch (update_self ..).symm.trans hd
      · have hd : s.mTimer cl = some d := (update_of_ne hc ..).symm.trans hd
        exact hother d (ho.client cl d hd ▸ hc) (h.running cl d hd)
    · exact hother d (hC.resolve_left (by simp [ht]) d hd) (h.called d hd)

theorem NotOvertaken.taskStep (h : s.NotOvertaken) (ho : s.Owned) (hstep : s.TaskStep s') :
    s'.NotOvertaken := by
  cases hstep with
  | idle => exact h
  | op op ops htask => cases op <;> exact h.frame rfl rfl rfl fun _ hd => nomatch hd
  | stop c timerOfNow timer client htask =>
    rw [expireStop_eq ho]
    cases ht : s.mTimer client with
    | none => exact h.frame rfl rfl rfl fun _ hd => nomatch hd
    | some running =>
      -- the delegate to be called is the one that ran
      obtain rfl := ho.client client running ht
      refine ⟨h.inOrder, fun cl d hd => ?_, fun d hd => ?_⟩
      · by_cases hc : cl = running.client
        · subst hc
          exact nomatch (update_self ..).symm.trans hd
        · exact h.running cl d ((update_of_ne hc ..).symm.trans hd)
      · obtain rfl := List.mem_singleton.1 hd
        exact h.running _ _ ht
  | _ => exact h.frame rfl rfl rfl fun _ hd => nomatch hd

theorem NotOvertaken.advance (h : s.NotOvertaken) (ho : s.Owned) {e : TimerEvent}
    (hC : s.StopsInTime e) : (s.advance e).NotOvertaken := by
  cases e with
  | tick now =>
    unfold LocTimers.advance
    simp only
    split <;> exact h.frame rfl rfl rfl fun _ hd => hd
  | start client timeOutInMs wakeOnExpire read =>
    unfold LocTimers.advance
    simp only
    split
    · exact h.start ho client timeOutInMs wakeOnExpire read
    · exact h
  | stop client => exact h.clientStop ho hC
  | epollWait ready =>
    show (s.epollWait ready).NotOvertaken
    unfold LocTimers.epollWait
    split <;> exact h.frame rfl rfl rfl fun _ hd => hd
  | pollStep =>
    show s.pollStep.NotOvertaken
    unfold LocTimers.pollStep
    split
    · exact h
    · split <;> exact h.frame rfl rfl rfl fun _ hd => hd
  | taskStep => exact h.taskStep ho s.taskStep_spec

/-! ## What the timers promise -/

/-- The delegate is in the hand of an expiry: it has been popped, or is to be called. -/
def InHand (s : LocTimers) (d : LocTimerDelegate) : Prop :=
  s.task.hand = some d ∨ d ∈ s.task.called

/-- What the timers promise. -/
structure Kept (s : LocTimers) : Prop where
  /-- When nothing is under way, the kernel timer is armed for the soonest timer. -/
  armed : s.queue = [] → s.task = .run [] → ∀ c ∉ s.ready, ∀ d, (s.mTree c).peek = some d →
    s.timerfd c = some d.mFutureTime ∧ s.epoll c = true ∧
      ∀ e ∈ (s.mTree c).elems, d.mFutureTime ≤ e.mFutureTime
  held : ∀ d ∈ s.started, d ∈ (s.mTree d.wakeOnExpire).elems ∨ .push d ∈ s.queue ∨
    s.InHand d ∨ d ∈ s.fired.map Prod.fst ∨ d ∈ s.stopped
  calledOnce : (s.fired.map Prod.fst).Nodup
  notStopped : ∀ d ∈ s.stopped, d ∉ s.fired.map Prod.fst ∧ d ∉ s.task.called
  /-- A callback does not come after a `stop` of its client that returned true. -/
  notAfterStop : ∀ d ∈ s.task.called, ¬ s.StoppedSince d
  /-- A timer that was started later has the larger address. -/
  inOrder : (s.started.map LocTimerDelegate.addr).Pairwise (· < ·)
  deletedOnce : s.deleted.Nodup
  /-- What does not run any more is deleted, or its one deletion is yet to come. -/
  deleted : ∀ d ∈ s.started, s.mTimer d.client ≠ some d → s.deleted.count d +
    s.queue.count (.remove d) + s.task.ops.count (.delete d) = 1
  /-- What is still running is not deleted, and its deletion has not been asked for. -/
  notDeleted : ∀ d, s.mTimer d.client = some d → d ∉ s.deleted ∧ .remove d ∉ s.queue ∧
    .delete d ∉ s.task.ops

theorem Sound.armed (h : s.Sound) (hqueue : s.queue = []) (htask : s.task = .run [])
    (hready : c ∉ s.ready) (htop : (s.mTree c).peek = some d) :
    s.timerfd c = some d.mFutureTime ∧ s.epoll c = true ∧
      ∀ e ∈ (s.mTree c).elems, d.mFutureTime ≤ e.mFutureTime := by
  have hclean : ¬ s.Dirty c := by
    rintro (hr | hq | ht)
    · exact hready hr
    · rw [hqueue] at hq
      cases hq
    · rw [htask] at ht
      cases ht
  have harmed := (h.wakes c).resolve_left hclean d htop
  rw [htask] at harmed
  refine ⟨harmed.2, harmed.1, fun e he => Timespec.outRanks_eq_false_iff.1 ?_⟩
  exact LocHeapNode.peek_soonest LocTimerDelegate.ranking (h.placed.ordered c) htop e he

theorem Sound.held (h : s.Sound) (hd : d ∈ s.started) :
    d ∈ (s.mTree d.wakeOnExpire).elems ∨ .push d ∈ s.queue ∨ s.InHand d ∨
      d ∈ s.fired.map Prod.fst ∨ d ∈ s.stopped := by
  by_cases hrun : s.mTimer d.client = some d
  · rcases h.placed.running d hrun with hpush | htree | hhand
    · exact .inr (.inl hpush)
    · exact .inl htree
    · exact .inr (.inr (.inl (.inl hhand)))
  · have hended := h.owned.ended d
    have hpos := List.count_pos_iff.2 hd
    rw [runs, if_neg hrun] at hended
    rcases Nat.eq_zero_or_pos ((s.fired.map Prod.fst).count d) with hf | hf
    · rcases Nat.eq_zero_or_pos (s.stopped.count d) with hs | hs
      · exact .inr (.inr (.inl (.inr (List.count_pos_iff.1 (by omega)))))
      · exact .inr (.inr (.inr (.inr (List.count_pos_iff.1 hs))))
    · exact .inr (.inr (.inr (.inl (List.count_pos_iff.1 hf))))

theorem Sound.kept (h : s.Sound) (hcalled : s.NotOvertaken) : s.Kept where
  notAfterStop := hcalled.called
  inOrder := hcalled.inOrder
  armed := fun hqueue htask _ hready _ htop => h.armed hqueue htask hready htop
  held := fun _ hd => h.held hd
  calledOnce := by
    refine List.nodup_iff_count_le_one.2 fun d => ?_
    have hended := h.owned.ended d
    have hone := h.owned.count_started d
    omega
  notStopped := by
    intro d hd
    have hended := h.owned.ended d
    have hone := h.owned.count_started d
    have hpos := List.count_pos_iff.2 hd
    refine ⟨List.count_eq_zero.1 ?_, List.count_eq_zero.1 ?_⟩ <;> omega
  deletedOnce := by
    refine List.nodup_iff_count_le_one.2 fun d => ?_
    have hremoved := h.owned.removed d
    have hone := h.owned.count_started d
    omega
  deleted := by
    intro d hd hidle
    have hremoved := h.owned.removed d
    have hone := h.owned.count_started d
    have hpos := List.count_pos_iff.2 hd
    rw [runs, if_neg hidle] at hremoved
    omega
  notDeleted := by
    intro d hd
    have hremoved := h.owned.removed d
    have hone := h.owned.count_started d
    rw [runs, if_pos hd] at hremoved
    refine ⟨List.count_eq_zero.1 ?_, List.count_eq_zero.1 ?_, List.count_eq_zero.1 ?_⟩ <;> omega

/-- **No timer is lost.** In every run of clients, polling thread and message task in which no client
    is stopped just before it is called, kernel timers are armed for the soonest timers, every timer
    that was started is waiting, or was called once, or was stopped, and is deleted once, and no
    callback comes after a `stop` that returned true. -/
theorem run_kept {now : Timespec} {tr : List (TimerEvent × Unit)}
    (run : Run step StopsInTime (init now) tr s) : s.Kept := by
  have hboth : s.Sound ∧ s.NotOvertaken := by
    refine run.invariant (fun _ s => s.Sound ∧ s.NotOvertaken)
      ⟨sound_init now, notOvertaken_init now⟩ ?_
    rintro tr s e s' r ⟨hsound, hcalled⟩ hC hstep
    cases hstep
    exact ⟨hsound.advance e, hcalled.advance hsound.owned hC⟩
  exact hboth.1.kept hboth.2

/-- Two timers are started at once. The first one expires, and the other one is stopped. -/
def expiryEvents : List TimerEvent :=
  ([.start 0 1000 false ⟨10, 0, Timespec.zero_nsec_lt⟩,
    .start 1 2000 false ⟨10, 0, Timespec.zero_nsec_lt⟩] : List TimerEvent) ++
    (List.replicate 4 .taskStep : List TimerEvent) ++
    ([.tick ⟨11, 0, Timespec.zero_nsec_lt⟩, .epollWait [false], .pollStep, .pollStep,
      .pollStep] : List TimerEvent) ++
    (List.replicate 9 .taskStep : List TimerEvent) ++
    ([.stop 1, .taskStep, .taskStep] : List TimerEvent)

/-- The theorem at that run. -/
theorem run_kept_expiry :
    ∃ tr s, Run step StopsInTime (init ⟨10, 0, by decide⟩) tr s ∧
      s.fired.length = 1 ∧ s.stopped.length = 1 ∧ s.deleted.length = 2 ∧ s.Kept := by
  have hend : (exec step (init ⟨10, 0, by decide⟩) expiryEvents).toOption.map
      (fun x => (x.1.fired.length, x.1.stopped.length, x.1.deleted.length)) = some (1, 1, 2) := by
    decide +kernel
  obtain ⟨tr, s, run, -, hs⟩ := Run.exists_of_allMeet (C := StopsInTime)
    (g := fun s : LocTimers => (s.fired.length, s.stopped.length, s.deleted.length)) hend
    (by decide +kernel)
  obtain ⟨hfired, hrest⟩ := Prod.mk.inj hs
  obtain ⟨hstopped, hdeleted⟩ := Prod.mk.inj hrest
  exact ⟨tr, s, run, hfired, hstopped, hdeleted, run_kept run⟩

/-- A timer expires. When the message task is about to call its client, that starts the timer again
    and stops it. -/
def lateEvents : List TimerEvent :=
  [.start 0 1000 false ⟨10, 0, Timespec.zero_nsec_lt⟩, .taskStep, .taskStep, .taskStep,
    .tick ⟨11, 0, Timespec.zero_nsec_lt⟩, .epollWait [false], .pollStep, .pollStep, .pollStep,
    .taskStep, .taskStep, .taskStep, .start 0 1000 false ⟨11, 0, Timespec.zero_nsec_lt⟩, .stop 0]

/-- The callback comes after `stop` has returned true. -/
theorem run_late :
    ∃ tr s, Run step (fun _ _ => True) (init ⟨10, 0, by decide⟩) tr s ∧
      ∃ d ∈ s.task.called, s.StoppedSince d ∧ (d, s.now) ∈ s.taskStep.fired := by
  have hend : (exec step (init ⟨10, 0, by decide⟩) lateEvents).toOption.map
      (fun x => decide (∃ d ∈ x.1.task.called, x.1.StoppedSince d ∧
        (d, x.1.now) ∈ x.1.taskStep.fired)) = some true := by
    decide +kernel
  obtain ⟨tr, s, run, hs⟩ := Run.exists_of_exec (C := fun _ => True) (g := fun s : LocTimers =>
    decide (∃ d ∈ s.task.called, s.StoppedSince d ∧ (d, s.now) ∈ s.taskStep.fired)) hend (by simp)
  exact ⟨tr, s, run, of_decide_eq_true hs⟩

/-- Nothing is under way, and no kernel timer that is polled has expired. -/
def Idle (s : LocTimers) : Prop :=
  s.queue = [] ∧ s.task = .run [] ∧ s.ready = [] ∧ ∀ c, ¬ s.Expired c

/-- **No timer is forgotten.** Whenever the threads have nothing to do, every timer that is due was
    called, if it was not stopped. -/
theorem run_idle {now : Timespec} {tr : List (TimerEvent × Unit)}
    (run : Run step (fun _ _ => True) (init now) tr s) (hidle : s.Idle) :
    ∀ d ∈ s.started, d.mFutureTime ≤ s.now → d ∈ s.fired.map Prod.fst ∨ d ∈ s.stopped := by
  intro d hd hdue
  have hsound : s.Sound := run_sound run
  obtain ⟨hqueue, htask, hready, hexpired⟩ := hidle
  rcases hsound.held hd with htree | hpush | (hhand | hcalled) | hended
  · -- the kernel timer is armed for one that is not later
    cases htop : (s.mTree d.wakeOnExpire).peek with
    | none =>
      rw [LocHeapNode.peek_eq_none htop] at htree
      cases htree
    | some top =>
      obtain ⟨harmed, hpolled, hsoonest⟩ :=
        hsound.armed hqueue htask (hready ▸ List.not_mem_nil) htop
      exact absurd ⟨hpolled, _, harmed, Nat.le_trans (hsoonest d htree) hdue⟩ (hexpired _)
  · rw [hqueue] at hpush
    cases hpush
  · rw [htask] at hhand
    cases hhand
  · rw [htask] at hcalled
    cases hcalled
  · exact hended

instance (s : LocTimers) : Decidable s.Idle :=
  inferInstanceAs (Decidable (_ ∧ _ ∧ _ ∧ ∀ c, ¬ s.Expired c))

theorem run_idle_expiry : ∃ tr s, Run step (fun _ _ => True) (init ⟨10, 0, by decide⟩) tr s ∧
    s.started.length = 2 ∧
      ∀ d ∈ s.started, d.mFutureTime ≤ s.now → d ∈ s.fired.map Prod.fst ∨ d ∈ s.stopped := by
  have hexec : (exec step (init ⟨10, 0, by decide⟩) expiryEvents).toOption.map
      (fun x => (x.1.started.length, decide x.1.Idle)) = some (2, true) := by decide +kernel
  obtain ⟨tr, s, run, hend⟩ := Run.exists_of_exec (C := fun _ => True)
    (g := fun s : LocTimers => (s.started.length, decide s.Idle)) hexec (by simp)
  obtain ⟨hlen, hidle⟩ := Prod.mk.inj hend
  exact ⟨tr, s, run, hlen, run_idle run (of_decide_eq_true hidle)⟩

end LocTimers

end Nx508j.Loc
