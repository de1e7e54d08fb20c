import Nx508j.Loc.LocTimerKept

/-! # When a timer is called

The message of an expiry pops the top of the heap whatever its time is. The top is due if it is the
one that the kernel timer was armed for; it is not if the messages between have changed the heap. And
the message task stops a client by a pointer that it has read before, so that the client may have
another delegate by then. -/

namespace Nx508j.Loc

open Nx508j.Lib Function

namespace LocTimers

variable {s s' : LocTimers} {c : Bool} {client : Nat} {d timer : LocTimerDelegate}
  {timerOfNow : Timespec}

/-- When an expiry is taken from the queue, the top of its heap is due or has been stopped. And when
    the message task stops a client, it is for the delegate it has popped, or for one that is due. -/
def OnTime (s : LocTimers) (e : TimerEvent) : Prop :=
  e = .taskStep →
    (∀ c rest d, s.task = .run [] → s.queue = .expire c :: rest → (s.mTree c).peek = some d →
      d.mFutureTime ≤ s.now ∨ s.mClient d.addr = none) ∧
    ∀ c timerOfNow d client, s.task = .stopping c timerOfNow d client →
      ∀ d', s.mTimer client = some d' → d' = d ∨ d'.mFutureTime ≤ s.now

/-- What the message task has in hand is due. -/
def DueTask (s : LocTimers) : TimerTask → Prop
  | .run _ => True
  | .popped _ timerOfNow d =>
    timerOfNow ≤ s.now ∧ (d.mFutureTime ≤ s.now ∨ s.mClient d.addr = none)
  | .stopping _ timerOfNow d _ => timerOfNow ≤ s.now ∧ d.mFutureTime ≤ s.now
  | .calling _ timerOfNow d => timerOfNow ≤ s.now ∧ d.mFutureTime ≤ s.now
  | .looping _ timerOfNow => timerOfNow ≤ s.now

/-- What holds in every run on time. -/
structure Timely (s : LocTimers) : Prop where
  task : s.DueTask s.task
  fired : ∀ x ∈ s.fired, x.1.mFutureTime ≤ x.2

theorem timely_init (now : Timespec) : (init now).Timely :=
  ⟨trivial, fun _ h => absurd h List.not_mem_nil⟩

theorem DueTask.later {task : TimerTask} (h : s.DueTask task) (hnow : s.now ≤ s'.now)
    (hclient : ∀ d, task.hand = some d → s.mClient d.addr = none → s'.mClient d.addr = none) :
    s'.DueTask task := by
  cases task with
  | run ops => exact h
  | popped c t d =>
    exact ⟨Nat.le_trans h.1 hnow, h.2.imp (fun hd => Nat.le_trans hd hnow) (hclient d rfl)⟩
  | stopping c t d client | calling c t d => exact ⟨Nat.le_trans h.1 hnow, Nat.le_trans h.2 hnow⟩
  | looping c t => exact Nat.le_trans h hnow

theorem Timely.frame (h : s.Timely) (hnow : s.now ≤ s'.now) (htask : s'.task = s.task)
    (hfired : s'.fired = s.fired)
    (hclient : ∀ d, s.task.hand = some d → s.mClient d.addr = none → s'.mClient d.addr = none) :
    s'.Timely :=
  ⟨htask ▸ h.task.later hnow hclient, hfired ▸ h.fired⟩

theorem Timely.start (h : s.Timely) (ho : s.Owned) (hp : s.Placed) (client : Nat)
    (timeOutInMs : UInt32) (wakeOnExpire : Bool) (read : Timespec) :
    (s.start client timeOutInMs wakeOnExpire read).Timely := by
  rw [start_eq]
  cases s.mTimer client with
  | some _ => exact h
  | none =>
    refine h.frame (Nat.le_refl _) rfl rfl fun d hd hnone => ?_
    have hne : d.addr ≠ s.next := Nat.ne_of_lt (ho.fresh d (hp.hand d hd))
    exact (update_of_ne hne ..).trans hnone

theorem mClient_released (timer : LocTimerDelegate) (hnone : s.mClient d.addr = none) :
    (s.released timer).mClient d.addr = none := by
  by_cases hd : d.addr = timer.addr
  · exact hd ▸ update_self ..
  · exact (update_of_ne hd ..).trans hnone

theorem Timely.clientStop (h : s.Timely) (ho : s.Owned) (client : Nat) :
    (s.clientStop client).Timely := by
  rw [clientStop_eq ho]
  cases s.mTimer client with
  | none => exact h
  | some timer => exact h.frame (Nat.le_refl _) rfl rfl fun d _ hnone => mClient_released timer hnone

theorem Timely.epollWait (h : s.Timely) (ready : List Bool) : (s.epollWait ready).Timely := by
  unfold LocTimers.epollWait
  split
  · exact h.frame (Nat.le_refl _) rfl rfl fun _ _ hnone => hnone
  · exact h

theorem Timely.pollStep (h : s.Timely) : s.pollStep.Timely := by
  unfold LocTimers.pollStep
  split
  · exact h
  · split <;> exact h.frame (Nat.le_refl _) rfl rfl fun _ _ hnone => hnone

theorem Timely.taskStep (h : s.Timely) (ho : s.Owned) (hC : s.OnTime .taskStep)
    (hstep : s.TaskStep s') : s'.Timely := by
  obtain ⟨hexpire, hstop⟩ := hC rfl
  have htimely := h.task
  cases hstep with
  | idle => exact h
  | push timer rest htask hqueue => exact ⟨trivial, h.fired⟩
  | remove timer rest htask hqueue => exact ⟨trivial, h.fired⟩
  | expire c rest timer htask hqueue htop =>
    exact ⟨⟨Nat.le_refl _, hexpire c rest timer htask hqueue htop⟩, h.fired⟩
  | expireEmpty c rest htask hqueue htop => exact ⟨trivial, h.fired⟩
  | op op ops htask => exact ⟨trivial, by cases op <;> exact h.fired⟩
  | left c timerOfNow timer htask hclient =>
    rw [htask] at htimely
    exact ⟨htimely.1, h.fired⟩
  | read c timerOfNow timer client htask hclient =>
    rw [htask] at htimely
    refine ⟨⟨htimely.1, htimely.2.resolve_right fun hnone => ?_⟩, h.fired⟩
    cases hclient.symm.trans hnone
  | stop c timerOfNow timer client htask =>
    rw [htask] at htimely
    rw [expireStop_eq ho]
    cases ht : s.mTimer client with
    | none => exact ⟨htimely.1, h.fired⟩
    | some running =>
      have hdue : running.mFutureTime ≤ s.now := by
        rcases hstop c timerOfNow timer client htask running ht with rfl | hdue
        · exact htimely.2
        · exact hdue
      exact ⟨⟨htimely.1, hdue⟩, h.fired⟩
  | call c timerOfNow timer htask =>
    rw [htask] at htimely
    refine ⟨htimely.1, fun x hx => ?_⟩
    rcases List.mem_append.1 hx with hx | hx
    · exact h.fired x hx
    · obtain rfl := List.mem_singleton.1 hx
      exact htimely.2
  | pop c timerOfNow timer htask htop hranks =>
    -- what is popped after the first one is not after the time of the message
    rw [htask] at htimely
    have hdue : timer.mFutureTime ≤ timerOfNow := Timespec.outRanks_eq_false_iff.1 hranks
    exact ⟨⟨htimely, .inl (Nat.le_trans hdue htimely)⟩, h.fired⟩
  | done c timerOfNow htask => exact ⟨trivial, h.fired⟩

theorem Timely.advance (h : s.Timely) (ho : s.Owned) (hp : s.Placed) {e : TimerEvent}
    (hC : s.OnTime e) : (s.advance e).Timely := by
  cases e with
  | tick now =>
    unfold LocTimers.advance
    simp only
    split
    · next hnow => exact h.frame hnow rfl rfl fun _ _ hnone => hnone
    · exact h
  | start client timeOutInMs wakeOnExpire read =>
    unfold LocTimers.advance
    simp only
    split
    · exact h.start ho hp ..
    · exact h
  | stop client => exact h.clientStop ho client
  | epollWait ready => exact h.epollWait ready
  | pollStep => exact h.pollStep
  | taskStep => exact h.taskStep ho hC s.taskStep_spec

/-- **No timer is called early** in a run that is on time. -/
theorem run_notEarly {now : Timespec} {tr : List (TimerEvent × Unit)}
    (run : Run step OnTime (init now) tr s) : ∀ x ∈ s.fired, x.1.mFutureTime ≤ x.2 := by
  have hinv : s.Sound ∧ s.Timely := by
    refine run.invariant (fun _ s => s.Sound ∧ s.Timely) ⟨sound_init now, timely_init now⟩ ?_
    intro tr s e s' r ⟨hs, ht⟩ hC hstep
    cases hstep
    exact ⟨hs.advance e, ht.advance hs.owned hs.placed hC⟩
  exact hinv.2.fired

/-- The delegate is due or has been stopped. -/
def dueOrStopped (s : LocTimers) (d : LocTimerDelegate) : Bool :=
  decide (d.mFutureTime ≤ s.now) || (s.mClient d.addr).isNone

/-- The delegate is the one in hand, or is due. -/
def sameOrDue (s : LocTimers) (timer d : LocTimerDelegate) : Bool :=
  decide (d = timer) || decide (d.mFutureTime ≤ s.now)

/-- A test for the condition. -/
def onTimeTest (s : LocTimers) : TimerEvent → Bool
  | .taskStep =>
    match s.task, s.queue with
    | .run [], .expire c :: _ => (s.mTree c).peek.all s.dueOrStopped
    | .stopping _ _ d client, _ => (s.mTimer client).all (s.sameOrDue d)
    | _, _ => true
  | _ => true

theorem onTime_of_test {e : TimerEvent} (h : s.onTimeTest e = true) : s.OnTime e := by
  rintro rfl
  refine ⟨fun c rest d htask hqueue htop => ?_, fun c t d client htask d' hd' => ?_⟩
  · have hd : (s.mTree c).peek.all s.dueOrStopped = true := by
      simpa only [onTimeTest, htask, hqueue] using h
    rw [htop, Option.all_some] at hd
    exact (Bool.or_eq_true_iff.1 hd).imp of_decide_eq_true Option.isNone_iff_eq_none.1
  · have hd : (s.mTimer client).all (s.sameOrDue d) = true := by
      simpa only [onTimeTest, htask] using h
    rw [hd', Option.all_some] at hd
    exact (Bool.or_eq_true_iff.1 hd).imp of_decide_eq_true of_decide_eq_true

/-- The theorem at a run in which a timer expires. -/
theorem run_notEarly_expiry :
    ∃ tr s, Run step OnTime (init ⟨10, 0, by decide⟩) tr s ∧ s.fired.length = 1 ∧
      ∀ x ∈ s.fired, x.1.mFutureTime ≤ x.2 := by
  have hend : (exec step (init ⟨10, 0, by decide⟩) expiryEvents).toOption.map
      (fun x => x.1.fired.length) = some 1 := by
    decide +kernel
  have hall : allMeet step onTimeTest (init ⟨10, 0, by decide⟩) expiryEvents = true := by
    decide +kernel
  obtain ⟨s, tr, hexec, hend⟩ := exec_of_map hend
  have hfired : s.fired.length = 1 := hend
  have run := Run.of_exec_of_allMeet (C := OnTime) (fun _ _ _ h => onTime_of_test h) hexec hall
  exact ⟨tr, s, run, hfired, run_notEarly run⟩

/-- Two timers are started, for a second and for a minute. When the polling thread has seen the first
    one expire, and before it says so, its client stops it. -/
def earlyEvents : List TimerEvent :=
  ([.start 0 1000 false ⟨10, 0, Timespec.zero_nsec_lt⟩,
    .start 1 60000 false ⟨10, 0, Timespec.zero_nsec_lt⟩] : List TimerEvent) ++
    (List.replicate 4 .taskStep : List TimerEvent) ++
    ([.tick ⟨11, 0, Timespec.zero_nsec_lt⟩, .epollWait [false], .stop 0, .pollStep, .pollStep,
      .pollStep] : List TimerEvent) ++
    (List.replicate 8 .taskStep : List TimerEvent)

/-- The timer for a minute is called after a second. -/
theorem run_early :
    ∃ tr s, Run step (fun _ _ => True) (init ⟨10, 0, by decide⟩) tr s ∧
      ∃ x ∈ s.fired, ¬ x.1.mFutureTime ≤ x.2 := by
  have hend : (exec step (init ⟨10, 0, by decide⟩) earlyEvents).toOption.map
      (fun x => x.1.fired.any fun x => !decide (x.1.mFutureTime ≤ x.2)) = some true := by
    decide +kernel
  obtain ⟨s, tr, hexec, hend⟩ := exec_of_map hend
  have hearly : ∃ x ∈ s.fired, ¬ x.1.mFutureTime ≤ x.2 := by
    simpa using hend
  exact ⟨tr, s, Run.of_exec (C := fun _ => True) hexec (by simp), hearly⟩

end LocTimers

end Nx508j.Loc
