import Mathlib.Data.List.Nodup
import Nx508j.Loc.LocTimer

/-! # The life of a delegate

A delegate runs until its client's `stop`, called by the client or by the message task, takes it.
Counts say that it is taken once: what was started is running, or was stopped, or was called, or is
to be called; and what is not running any more has one message for its deletion on the way, or has
been deleted. -/

namespace Nx508j.Loc

open Nx508j.Lib Function

namespace TimerTask

/-- The delegate that an expiry has popped, until its client is stopped. -/
def hand : TimerTask → Option LocTimerDelegate
  | .popped _ _ timer => some timer
  | .stopping _ _ timer _ => some timer
  | _ => none

/-- The delegate whose callback comes next. -/
def called : TimerTask → List LocTimerDelegate
  | .calling _ _ timer => [timer]
  | _ => []

/-- What there is to run. -/
def ops : TimerTask → List TaskOp
  | .run ops => ops
  | _ => []

end TimerTask

namespace LocTimers

variable {s : LocTimers} {c wakeOnExpire : Bool} {client : Nat} {d timer : LocTimerDelegate}
  {timerOfNow : Timespec} {s' : LocTimers}

/-- 1 if the delegate is running. -/
def runs (s : LocTimers) (d : LocTimerDelegate) : Nat := if s.mTimer d.client = some d then 1 else 0

/-- What holds of the delegates in every run. -/
structure Owned (s : LocTimers) : Prop where
  fresh : ∀ d ∈ s.started, d.addr < s.next
  addrs : (s.started.map LocTimerDelegate.addr).Nodup
  client : ∀ client d, s.mTimer client = some d → d.client = client
  mClient : ∀ d ∈ s.started,
    s.mClient d.addr = if s.mTimer d.client = some d then some d.client else none
  mContainer : ∀ d ∈ s.started, s.mContainer d.addr = decide (s.mTimer d.client = some d)
  ended : ∀ d, (s.fired.map Prod.fst).count d + s.stopped.count d + s.task.called.count d +
    s.runs d = s.started.count d
  removed : ∀ d, s.deleted.count d + s.queue.count (.remove d) + s.task.ops.count (.delete d) +
    s.runs d = s.started.count d

theorem owned_init (now : Timespec) : (init now).Owned where
  fresh := fun _ h => absurd h List.not_mem_nil
  addrs := List.nodup_nil
  client := fun _ _ h => nomatch h
  mClient := fun _ h => absurd h List.not_mem_nil
  mContainer := fun _ h => absurd h List.not_mem_nil
  ended := fun _ => rfl
  removed := fun _ => rfl

namespace Owned

/-- A delegate is started at most once. -/
theorem count_started (h : s.Owned) (d : LocTimerDelegate) : s.started.count d ≤ 1 :=
  List.nodup_iff_count_le_one.1 (h.addrs.of_map _) d

theorem runs_le (h : s.Owned) (d : LocTimerDelegate) : s.runs d ≤ s.started.count d := by
  have := h.ended d
  omega

theorem mem_started (h : s.Owned) (ht : s.mTimer client = some d) : d ∈ s.started := by
  have hd := h.client client d ht
  have hle := h.runs_le d
  rw [runs, if_pos (hd ▸ ht)] at hle
  exact List.count_pos_iff.1 hle

/-- Two delegates have two addresses. -/
theorem eq_of_addr (h : s.Owned) {e : LocTimerDelegate} (hd : d ∈ s.started) (he : e ∈ s.started)
    (heq : d.addr = e.addr) : d = e :=
  List.inj_on_of_nodup_map h.addrs hd he heq

end Owned

/-! ## Starting -/

/-- The delegate that `start` makes. -/
def newTimer (client : Nat) (timeOutInMs : UInt32) (wakeOnExpire : Bool) (read : Timespec)
    (s : LocTimers) : LocTimerDelegate :=
  ⟨s.next, client, read.after timeOutInMs, wakeOnExpire⟩

/-- A new delegate runs for its client, and is on its way to its container. -/
def launched (timer : LocTimerDelegate) (s : LocTimers) : LocTimers :=
  { s with
    mTimer := update s.mTimer timer.client (some timer)
    mClient := update s.mClient timer.addr (some timer.client)
    mContainer := update s.mContainer timer.addr true
    next := s.next + 1
    started := s.started ++ [timer]
    queue := s.queue ++ [.push timer] }

theorem start_eq (client : Nat) (timeOutInMs : UInt32) (wakeOnExpire : Bool) (read : Timespec)
    (s : LocTimers) : s.start client timeOutInMs wakeOnExpire read = match s.mTimer client with
      | none => s.launched (s.newTimer client timeOutInMs wakeOnExpire read)
      | some _ => s := by
  rw [start]
  cases s.mTimer client <;> rfl

/-- A new delegate is the one that runs. -/
theorem runs_launched (hidle : s.mTimer timer.client = none) (d : LocTimerDelegate) :
    (s.launched timer).runs d = s.runs d + [timer].count d := by
  unfold runs launched
  rw [List.count_singleton]
  by_cases hd : timer = d
  · subst hd
    simp [hidle]
  · by_cases hc : d.client = timer.client
    · simp [hc, hidle, hd]
    · simp [update_of_ne hc, hd]

/-- A delegate that is launched from a fresh address. -/
structure Fresh (s : LocTimers) (timer : LocTimerDelegate) : Prop where
  addr : timer.addr = s.next
  idle : s.mTimer timer.client = none

theorem Owned.not_mem_of_fresh (h : s.Owned) (hf : s.Fresh timer) (hd : d ∈ s.started) :
    d.addr ≠ timer.addr :=
  hf.addr ▸ Nat.ne_of_lt (h.fresh d hd)

theorem Owned.launched_running (h : s.Owned) (hf : s.Fresh timer) (hd : d ∈ s.started) :
    (s.launched timer).mTimer d.client = some d ↔ s.mTimer d.client = some d := by
  by_cases hc : d.client = timer.client
  · have hne : timer ≠ d := fun he => h.not_mem_of_fresh hf hd (he ▸ rfl)
    simp [launched, hc, hf.idle, hne]
  · simp [launched, update_of_ne hc]

/-- It is in the queue, to be pushed. -/
theorem Owned.launched (h : s.Owned) (hf : s.Fresh timer) : (s.launched timer).Owned where
  fresh := by
    intro d hd
    rcases List.mem_append.1 hd with hd | hd
    · exact Nat.lt_succ_of_lt (h.fresh d hd)
    · obtain rfl := List.mem_singleton.1 hd
      exact hf.addr ▸ Nat.lt_succ_self _
  addrs := by
    show ((s.started ++ [timer]).map _).Nodup
    rw [List.map_append]
    refine List.nodup_append.2 ⟨h.addrs, by simp, ?_⟩
    intro a ha b hb
    obtain ⟨d, hd, rfl⟩ := List.mem_map.1 ha
    obtain rfl : b = timer.addr := by simpa using hb
    exact h.not_mem_of_fresh hf hd
  client := by
    intro cl d hd
    by_cases hc : cl = timer.client
    · subst hc
      obtain rfl : timer = d := by simpa [LocTimers.launched] using hd
      rfl
    · exact h.client cl d (by simpa [LocTimers.launched, update_of_ne hc] using hd)
  mClient := by
    intro d hd
    rcases List.mem_append.1 hd with hd | hd
    · rw [if_congr (h.launched_running hf hd) rfl rfl, ← h.mClient d hd]
      exact update_of_ne (h.not_mem_of_fresh hf hd) ..
    · obtain rfl := List.mem_singleton.1 hd
      simp [LocTimers.launched]
  mContainer := by
    intro d hd
    rcases List.mem_append.1 hd with hd | hd
    · rw [decide_eq_decide.2 (h.launched_running hf hd), ← h.mContainer d hd]
      exact update_of_ne (h.not_mem_of_fresh hf hd) ..
    · obtain rfl := List.mem_singleton.1 hd
      simp [LocTimers.launched]
  ended := by
    intro d
    have hended := h.ended d
    have hruns := runs_launched hf.idle d
    show _ + _ + _ + _ = (s.started ++ [timer]).count d
    rw [List.count_append, hruns, ← hended]
    exact (Nat.add_assoc ..).symm
  removed := by
    intro d
    have hremoved := h.removed d
    have hruns := runs_launched hf.idle d
    have hqueue : (s.launched timer).queue.count (.remove d) = s.queue.count (.remove d) := by
      simp [LocTimers.launched, List.count_append]
    show _ + _ + _ + _ = (s.started ++ [timer]).count d
    rw [List.count_append, hruns, hqueue, ← hremoved]
    exact (Nat.add_assoc ..).symm

theorem Owned.start (h : s.Owned) (client : Nat) (timeOutInMs : UInt32) (wakeOnExpire : Bool)
    (read : Timespec) : (s.start client timeOutInMs wakeOnExpire read).Owned := by
  rw [start_eq]
  cases hidle : s.mTimer client with
  | some _ => exact h
  | none => exact h.launched ⟨rfl, hidle⟩

/-! ## Stopping -/

/-- A running delegate is taken from its client, and its deletion is asked for. -/
def released (timer : LocTimerDelegate) (s : LocTimers) : LocTimers :=
  { s with
    mTimer := update s.mTimer timer.client none
    mClient := update s.mClient timer.addr none
    mContainer := update s.mContainer timer.addr false
    queue := s.queue ++ [.remove timer] }

theorem stop_idle (h : s.mTimer client = none) : s.stop client = (s, none) := by
  rw [stop, h]

/-- A running delegate is handed over to be removed. -/
theorem stop_running (h : s.Owned) (ht : s.mTimer client = some timer) :
    s.stop client = (s.released timer, some timer) := by
  obtain rfl := h.client client timer ht
  have hcontainer := h.mContainer timer (h.mem_started ht)
  rw [ht, decide_eq_true rfl] at hcontainer
  simp only [stop, ht, destroyLocked, hcontainer, if_true]
  rfl

theorem clientStop_eq (h : s.Owned) (client : Nat) :
    s.clientStop client = match s.mTimer client with
      | none => s
      | some timer => { s.released timer with stopped := s.stopped ++ [timer] } := by
  cases ht : s.mTimer client with
  | none => rw [clientStop, stop_idle ht]
  | some timer =>
    rw [clientStop, stop_running h ht]
    rfl

theorem expireStop_eq (h : s.Owned) (c : Bool) (timerOfNow : Timespec) (client : Nat) :
    s.expireStop c timerOfNow client = match s.mTimer client with
      | none => { s with task := .looping c timerOfNow }
      | some timer => { s.released timer with task := .calling c timerOfNow timer } := by
  cases ht : s.mTimer client with
  | none => rw [expireStop, stop_idle ht]
  | some timer => rw [expireStop, stop_running h ht]

/-- It does not run any more. -/
theorem runs_released (ht : s.mTimer timer.client = some timer) (d : LocTimerDelegate) :
    (s.released timer).runs d + [timer].count d = s.runs d := by
  unfold runs released
  rw [List.count_singleton]
  by_cases hd : timer = d
  · subst hd
    simp [ht]
  · by_cases hc : d.client = timer.client
    · simp [hc, ht, hd]
    · simp [update_of_ne hc, hd]

theorem Owned.released_mTimer (h : s.Owned) (ht : s.mTimer timer.client = some timer) :
    (∀ client d, (s.released timer).mTimer client = some d → d.client = client) ∧
      (∀ d ∈ s.started, (s.released timer).mClient d.addr =
        if (s.released timer).mTimer d.client = some d then some d.client else none) ∧
      ∀ d ∈ s.started, (s.released timer).mContainer d.addr =
        decide ((s.released timer).mTimer d.client = some d) := by
  have hmem := h.mem_started ht
  have hother : ∀ d ∈ s.started, d ≠ timer →
      ((s.released timer).mTimer d.client = some d ↔ s.mTimer d.client = some d) := by
    intro d _ hne
    by_cases hc : d.client = timer.client
    · simp [released, hc, ht, hne.symm]
    · simp [released, update_of_ne hc]
  refine ⟨?_, ?_, ?_⟩
  · intro cl d hd
    by_cases hc : cl = timer.client
    · simp [released, hc] at hd
    · exact h.client cl d (by simpa [released, update_of_ne hc] using hd)
  · intro d hd
    by_cases hne : d = timer
    · subst hne
      simp [released]
    · have haddr : d.addr ≠ timer.addr := fun he => hne (h.eq_of_addr hd hmem he)
      rw [if_congr (hother d hd hne) rfl rfl, ← h.mClient d hd]
      exact update_of_ne haddr ..
  · intro d hd
    by_cases hne : d = timer
    · subst hne
      simp [released]
    · have haddr : d.addr ≠ timer.addr := fun he => hne (h.eq_of_addr hd hmem he)
      rw [decide_eq_decide.2 (hother d hd hne), ← h.mContainer d hd]
      exact update_of_ne haddr ..

theorem Owned.released_removed (h : s.Owned) (ht : s.mTimer timer.client = some timer)
    (d : LocTimerDelegate) :
    s.deleted.count d + (s.released timer).queue.count (.remove d) + s.task.ops.count (.delete d) +
      (s.released timer).runs d = s.started.count d := by
  have hruns := runs_released ht d
  have hremoved := h.removed d
  have hqueue : (s.released timer).queue.count (.remove d) =
      s.queue.count (.remove d) + [timer].count d := by
    simp [released, List.count_append, List.count_singleton]
  omega

theorem Owned.clientStop (h : s.Owned) (client : Nat) : (s.clientStop client).Owned := by
  rw [clientStop_eq h]
  cases ht : s.mTimer client with
  | none => exact h
  | some timer =>
    obtain rfl := h.client client timer ht
    obtain ⟨hclient, hmClient, hmContainer⟩ := h.released_mTimer ht
    refine ⟨h.fresh, h.addrs, hclient, hmClient, hmContainer, ?_, h.released_removed ht⟩
    intro d
    have hruns := runs_released ht d
    have hended := h.ended d
    show (s.fired.map Prod.fst).count d + (s.stopped ++ [timer]).count d +
      s.task.called.count d + (s.released timer).runs d = s.started.count d
    rw [List.count_append]
    omega

theorem Owned.expireStop (h : s.Owned) (htask : s.task.called = [] ∧ s.task.ops = [])
    (c : Bool) (timerOfNow : Timespec) (client : Nat) :
    (s.expireStop c timerOfNow client).Owned := by
  obtain ⟨hcalled, hops⟩ := htask
  have hended := h.ended
  have hremoved := h.removed
  rw [hcalled] at hended
  rw [hops] at hremoved
  rw [expireStop_eq h]
  cases ht : s.mTimer client with
  | none => exact ⟨h.fresh, h.addrs, h.client, h.mClient, h.mContainer, hended, hremoved⟩
  | some timer =>
    obtain rfl := h.client client timer ht
    obtain ⟨hclient, hmClient, hmContainer⟩ := h.released_mTimer ht
    refine ⟨h.fresh, h.addrs, hclient, hmClient, hmContainer, fun d => ?_, fun d => ?_⟩
    · have hruns := runs_released ht d
      have hd := hended d
      show (s.fired.map Prod.fst).count d + s.stopped.count d + [timer].count d +
        (s.released timer).runs d = s.started.count d
      rw [List.count_nil] at hd
      omega
    · have hd := h.released_removed ht d
      rw [hops] at hd
      exact hd

/-! ## The threads -/

/-- Whatever leaves what is counted. -/
theorem Owned.frame (h : s.Owned)
    (hclients : s'.mTimer = s.mTimer ∧ s'.mClient = s.mClient ∧ s'.mContainer = s.mContainer)
    (hstarted : s'.next = s.next ∧ s'.started = s.started)
    (hended : ∀ d, (s'.fired.map Prod.fst).count d + s'.stopped.count d + s'.task.called.count d =
      (s.fired.map Prod.fst).count d + s.stopped.count d + s.task.called.count d)
    (hremoved : ∀ d, s'.deleted.count d + s'.queue.count (.remove d) +
        s'.task.ops.count (.delete d) =
      s.deleted.count d + s.queue.count (.remove d) + s.task.ops.count (.delete d)) : s'.Owned := by
  obtain ⟨hmTimer, hmClient, hmContainer⟩ := hclients
  obtain ⟨hnext, hstarted⟩ := hstarted
  have hruns : ∀ d, s'.runs d = s.runs d := fun d => by rw [runs, runs, hmTimer]
  refine ⟨?_, ?_, ?_, ?_, ?_, ?_, ?_⟩
  · rw [hstarted, hnext]
    exact h.fresh
  · rw [hstarted]
    exact h.addrs
  · rw [hmTimer]
    exact h.client
  · rw [hstarted, hmClient, hmTimer]
    exact h.mClient
  · rw [hstarted, hmContainer, hmTimer]
    exact h.mContainer
  · intro d
    rw [hended d, hruns d, hstarted]
    exact h.ended d
  · intro d
    rw [hremoved d, hruns d, hstarted]
    exact h.removed d

theorem count_delete_updateSoonestTime (s : LocTimers) (c : Bool)
    (priorTop : Option LocTimerDelegate) (d : LocTimerDelegate) :
    (s.updateSoonestTime c priorTop).count (.delete d) = 0 := by
  refine List.count_eq_zero.2 fun hd => ?_
  unfold updateSoonestTime at hd
  simp only at hd
  split at hd
  · cases hd
  split at hd
  · simp at hd
  split at hd
  · simp at hd
  · cases hd

theorem Owned.pollStep (h : s.Owned) : s.pollStep.Owned := by
  unfold LocTimers.pollStep
  split
  · exact h
  · split
    · exact h.frame ⟨rfl, rfl, rfl⟩ ⟨rfl, rfl⟩ (fun _ => rfl) fun _ => rfl
    · exact h.frame ⟨rfl, rfl, rfl⟩ ⟨rfl, rfl⟩ (fun _ => rfl) fun _ => rfl
    · refine h.frame ⟨rfl, rfl, rfl⟩ ⟨rfl, rfl⟩ (fun _ => rfl) fun d => ?_
      simp [sendMsg, List.count_append]

theorem Owned.epollWait (h : s.Owned) (ready : List Bool) : (s.epollWait ready).Owned := by
  unfold LocTimers.epollWait
  split
  · exact h.frame ⟨rfl, rfl, rfl⟩ ⟨rfl, rfl⟩ (fun _ => rfl) fun _ => rfl
  · exact h

variable {msg : LocTimerMsg} {rest : List LocTimerMsg} {ops : List TaskOp} {op : TaskOp}

/-- From the queue to the heap. -/
theorem Owned.procPush (h : s.Owned) (htask : s.task = .run [])
    (hqueue : s.queue = .push timer :: rest) : ({ s with queue := rest }.procPush timer).Owned := by
  refine h.frame ⟨rfl, rfl, rfl⟩ ⟨rfl, rfl⟩ (fun _ => ?_) fun d => ?_
  · rw [htask]
    rfl
  · rw [htask, hqueue]
    show _ + rest.count _ + (updateSoonestTime ..).count _ = _
    rw [count_delete_updateSoonestTime]
    simp [LocTimers.procPush, TimerTask.ops]

/-- The system calls of `MsgTimerRemove::proc`. -/
def removeOps (timer : LocTimerDelegate) (s : LocTimers) : List TaskOp :=
  let c := timer.wakeOnExpire
  let (tree, found) := (s.mTree c).remove LocTimerDelegate.outRanks timer
  let removed := if found then some timer else none
  if (s.mTree c).peek = removed then
    { s with mTree := update s.mTree c tree }.updateSoonestTime c none
  else []

theorem procRemove_eq (s : LocTimers) (timer : LocTimerDelegate) :
    s.procRemove timer = { s with
      mTree := update s.mTree timer.wakeOnExpire
        ((s.mTree timer.wakeOnExpire).remove LocTimerDelegate.outRanks timer).1
      task := .run (s.removeOps timer ++ [.delete timer]) } := rfl

theorem count_delete_removeOps (s : LocTimers) (timer d : LocTimerDelegate) :
    (s.removeOps timer).count (.delete d) = 0 := by
  by_cases hc : (s.mTree timer.wakeOnExpire).peek =
      if ((s.mTree timer.wakeOnExpire).remove LocTimerDelegate.outRanks timer).2 then some timer
      else none
  · exact (congrArg _ (if_pos hc)).trans (count_delete_updateSoonestTime ..)
  · exact congrArg _ (if_neg hc)

/-- From the heap to be deleted. -/
theorem Owned.procRemove (h : s.Owned) (htask : s.task = .run [])
    (hqueue : s.queue = .remove timer :: rest) :
    ({ s with queue := rest }.procRemove timer).Owned := by
  refine h.frame ⟨rfl, rfl, rfl⟩ ⟨rfl, rfl⟩ (fun _ => ?_) fun d => ?_
  · rw [htask]
    rfl
  · rw [htask, hqueue]
    show s.deleted.count d + rest.count _ + (removeOps .. ++ [TaskOp.delete timer]).count _ =
      s.deleted.count d + (LocTimerMsg.remove timer :: rest).count _ + 0
    rw [List.count_append, count_delete_removeOps]
    simp [List.count_cons, Nat.add_assoc]

/-- Whatever calls and deletes none. -/
theorem Owned.moved (h : s.Owned)
    (hsame : s'.mTimer = s.mTimer ∧ s'.mClient = s.mClient ∧ s'.mContainer = s.mContainer)
    (hstarted : s'.next = s.next ∧ s'.started = s.started)
    (hrecords : s'.fired = s.fired ∧ s'.stopped = s.stopped ∧ s'.deleted = s.deleted)
    (hqueue : ∀ d, s'.queue.count (.remove d) = s.queue.count (.remove d))
    (hcalled : s.task.called = [] ∧ s'.task.called = [])
    (hops : s.task.ops = [] ∧ ∀ d, s'.task.ops.count (.delete d) = 0) : s'.Owned := by
  obtain ⟨hfired, hstopped, hdeleted⟩ := hrecords
  refine h.frame hsame hstarted (fun d => ?_) fun d => ?_
  · rw [hfired, hstopped, hcalled.1, hcalled.2]
  · rw [hdeleted, hqueue d, hops.1, hops.2 d]
    rfl

/-- Deleting is the last of it. -/
theorem Owned.runOp (h : s.Owned) (ht : s.task = .run (op :: ops)) :
    { s.runOp op with task := .run ops }.Owned := by
  cases op with
  | delete timer =>
    refine h.frame ⟨rfl, rfl, rfl⟩ ⟨rfl, rfl⟩ (fun _ => ?_) fun d => ?_
    · rw [ht]
      rfl
    · rw [ht]
      show (s.deleted ++ [timer]).count d + s.queue.count _ + ops.count _ =
        s.deleted.count d + s.queue.count _ + (TaskOp.delete timer :: ops).count _
      simp only [List.count_append, List.count_cons, List.count_nil, beq_iff_eq,
        TaskOp.delete.injEq]
      omega
  | _ =>
    refine h.frame ⟨rfl, rfl, rfl⟩ ⟨rfl, rfl⟩ (fun _ => ?_) fun d => ?_
    · rw [ht]
      rfl
    · rw [ht]
      simp [TimerTask.ops, LocTimers.runOp]

/-- A delegate that is called is still there. -/
theorem Owned.timeOutCallback (h : s.Owned) (ht : s.task = .calling c timerOfNow timer) :
    { s.timeOutCallback timer with task := .looping c timerOfNow }.Owned := by
  refine h.frame ⟨rfl, rfl, rfl⟩ ⟨rfl, rfl⟩ (fun d => ?_) fun d => ?_
  · rw [ht]
    show ((s.fired ++ [(timer, s.now)]).map Prod.fst).count d + s.stopped.count d + 0 =
      (s.fired.map Prod.fst).count d + s.stopped.count d + [timer].count d
    rw [List.map_append, List.count_append]
    simp only [List.map_cons, List.map_nil]
    omega
  · rw [ht]
    rfl

theorem Owned.taken (h : s.Owned) (hqueue : s.queue = .expire c :: rest) :
    { s with queue := rest }.Owned := by
  refine h.frame ⟨rfl, rfl, rfl⟩ ⟨rfl, rfl⟩ (fun _ => rfl) fun d => ?_
  rw [hqueue]
  simp

/-- The steps of the message task. -/
theorem Owned.taskStep (h : s.Owned) (hstep : s.TaskStep s') : s'.Owned := by
  cases hstep with
  | idle => exact h
  | push timer rest htask hqueue => exact h.procPush htask hqueue
  | remove timer rest htask hqueue => exact h.procRemove htask hqueue
  | expire c rest timer htask hqueue =>
    exact (h.taken hqueue).moved ⟨rfl, rfl, rfl⟩ ⟨rfl, rfl⟩ ⟨rfl, rfl, rfl⟩ (fun _ => rfl)
      ⟨congrArg _ htask, rfl⟩ ⟨congrArg _ htask, fun _ => rfl⟩
  | expireEmpty c rest htask hqueue =>
    exact (h.taken hqueue).moved ⟨rfl, rfl, rfl⟩ ⟨rfl, rfl⟩ ⟨rfl, rfl, rfl⟩ (fun _ => rfl)
      ⟨congrArg _ htask, rfl⟩ ⟨congrArg _ htask, count_delete_updateSoonestTime _ _ _⟩
  | op op ops htask => exact h.runOp htask
  | left c timerOfNow timer htask | read c timerOfNow timer client htask =>
    exact h.moved ⟨rfl, rfl, rfl⟩ ⟨rfl, rfl⟩ ⟨rfl, rfl, rfl⟩ (fun _ => rfl)
      ⟨congrArg _ htask, rfl⟩ ⟨congrArg _ htask, fun _ => rfl⟩
  | stop c timerOfNow timer client htask =>
    exact h.expireStop ⟨congrArg _ htask, congrArg _ htask⟩ c timerOfNow client
  | call c timerOfNow timer htask => exact h.timeOutCallback htask
  | pop c timerOfNow timer htask =>
    exact h.moved ⟨rfl, rfl, rfl⟩ ⟨rfl, rfl⟩ ⟨rfl, rfl, rfl⟩ (fun _ => rfl)
      ⟨congrArg _ htask, rfl⟩ ⟨congrArg _ htask, fun _ => rfl⟩
  | done c timerOfNow htask =>
    exact h.moved ⟨rfl, rfl, rfl⟩ ⟨rfl, rfl⟩ ⟨rfl, rfl, rfl⟩ (fun _ => rfl)
      ⟨congrArg _ htask, rfl⟩ ⟨congrArg _ htask, count_delete_updateSoonestTime _ _ _⟩

/-- And those of all threads. -/
theorem Owned.advance (h : s.Owned) (e : TimerEvent) : (s.advance e).Owned := by
  cases e with
  | tick now =>
    unfold LocTimers.advance
    simp only
    split
    · exact h.frame ⟨rfl, rfl, rfl⟩ ⟨rfl, rfl⟩ (fun _ => rfl) fun _ => rfl
    · exact h
  | start client timeOutInMs wakeOnExpire read =>
    unfold LocTimers.advance
    simp only
    split
    · exact h.start ..
    · exact h
  | stop client => exact h.clientStop client
  | epollWait ready => exact h.epollWait ready
  | pollStep => exact h.pollStep
  | taskStep => exact h.taskStep s.taskStep_spec

end LocTimers

end Nx508j.Loc
