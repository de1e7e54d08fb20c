import Mathlib.Data.List.Nodup
import Nx508j.Lib.Memory

/-! # The partial wake lock

From version 13 on, every answer that the framework must acknowledge grabs the wake lock for as long as
the acknowledgement is out, at most for a timeout of its own. One counter and one pointer to the last
timeout stand for all the grabs. A grab is over when it is acknowledged or when its timer has fired.
What is done under `s_wakeLockCountMutex` is one step; what the event loop does without it on the timer
of a grab goes on step by step, with calls of other threads between. -/

namespace Nx508j.Ril

open Nx508j.Lib Function

/-- `TIMEVAL_WAKE_TIMEOUT`, in microseconds. -/
def timevalWakeTimeout : Int := 200000

/-- `UserCallbackInfo` of a timeout. Its parameter is not `NULL` once it is cancelled. -/
structure UserCallbackInfo where
  userParam : Bool := false
  timeout : Int := 0
deriving DecidableEq, Repr

/-- What is left of `userTimerCallback`. `wake` has read the parameter. -/
inductive TimerCallback where
  | wake (param : Bool)
  | compare
  | clear
  | free
deriving DecidableEq, Repr

/-- The wake lock. The grabs are numbered, and a timeout has the number of its grab. `live` are the grabs
    that are not over. -/
structure WakeLock where
  now : Int := 0
  s_wakelock_count : Nat := 0
  held : Bool := false
  info : Nat → UserCallbackInfo := fun _ => {}
  timer_list : List Nat := []
  s_last_wake_timeout_info : Option Nat := none
  callback : Option (Nat × TimerCallback) := none
  grabs : Nat := 0
  live : List Nat := []

/-- The calls, and what the event loop does. An acknowledgement says nothing of the grab it is for. -/
inductive WakeCall where
  | tick (now : Int)
  | grab (alloc : Bool)
  | ack (g : Nat)
  | fire (g : Nat)
  | turn
deriving DecidableEq, Repr

namespace WakeLock

/-- Cancel the last timeout. -/
def cancelLast (s : WakeLock) : WakeLock :=
  match s.s_last_wake_timeout_info with
  | none => s
  | some g =>
    { s with info := update s.info g { s.info g with userParam := true } }

/-- `internalRequestTimedCallback` of the timeout of a grab. -/
def internalRequestTimedCallback (g : Nat) (s : WakeLock) : WakeLock :=
  { s with
    info := update s.info g { timeout := s.now + timevalWakeTimeout }
    timer_list := g :: s.timer_list }

/-- `grabPartialWakeLock`, where the allocation of the timeout may fail. -/
def grabPartialWakeLock (alloc : Bool) (s : WakeLock) : WakeLock :=
  let g := s.grabs
  let s := { s with held := true, grabs := g + 1, live := g :: s.live }
  if alloc then
    let s := s.internalRequestTimedCallback g
    let s := { s with s_wakelock_count := s.s_wakelock_count + 1 }.cancelLast
    { s with s_last_wake_timeout_info := some g }
  else { s with held := false }

/-- `releaseWakeLock` -/
def releaseWakeLock (s : WakeLock) : WakeLock :=
  if 1 < s.s_wakelock_count then { s with s_wakelock_count := s.s_wakelock_count - 1 }
  else { s with s_wakelock_count := 0, held := false }.cancelLast

/-- The grab is over. -/
def finish (g : Nat) (s : WakeLock) : WakeLock := { s with live := s.live.erase g }

/-- The timer of the grab can fire. The event loop runs one callback at a time. -/
def Fires (s : WakeLock) (g : Nat) : Prop :=
  s.callback = none ∧ g ∈ s.timer_list ∧ (s.info g).timeout < s.now

instance (s : WakeLock) (g : Nat) : Decidable (s.Fires g) := by
  unfold Fires
  infer_instance

/-- `userTimerCallback` reads the parameter. A grab whose timeout was cancelled is over then. -/
def fire (g : Nat) (s : WakeLock) : WakeLock :=
  let param := (s.info g).userParam
  let s := { s with timer_list := s.timer_list.erase g, callback := some (g, .wake param) }
  if param then s.finish g else s

/-- The locked part of `wakeTimeoutCallback`. -/
def wakeTimeout (s : WakeLock) : WakeLock := { s with s_wakelock_count := 0, held := false }

/-- `userTimerCallback` goes on. It looks at the last timeout without the lock, and forgets it in a step
    of its own. -/
def turn (s : WakeLock) : WakeLock :=
  match s.callback with
  | none => s
  | some (g, .wake param) =>
    let s := if param then s else (s.finish g).wakeTimeout
    { s with callback := some (g, .compare) }
  | some (g, .compare) =>
    let next := if s.s_last_wake_timeout_info = some g then .clear else .free
    { s with callback := some (g, next) }
  | some (g, .clear) => { s with s_last_wake_timeout_info := none, callback := some (g, .free) }
  | some (_, .free) => { s with callback := none }

def advance (s : WakeLock) : WakeCall → WakeLock
  | .tick now => if s.now ≤ now then { s with now := now } else s
  | .grab alloc => s.grabPartialWakeLock alloc
  | .ack g => s.releaseWakeLock.finish g
  | .fire g => if s.Fires g then s.fire g else s
  | .turn => s.turn

def step (s : WakeLock) (e : WakeCall) : Except Fault (WakeLock × Unit) := .ok (s.advance e, ())

/-! ## What the lock is for -/

/-- The lock is held while a grab is not over, and no grab that is over is counted. -/
def Protects (s : WakeLock) : Prop :=
  (s.live ≠ [] → s.held = true) ∧ s.s_wakelock_count ≤ s.live.length

/-- The timeout of a grab can be allocated. An acknowledgement is for a grab that is not over, or all of
    them are. A timeout that was cancelled fires only when its grab is over, and one that was not
    takes effect when no other grab is left. -/
def Meets (s : WakeLock) : WakeCall → Prop
  | .tick _ => True
  | .grab alloc => alloc = true
  | .ack g => g ∈ s.live ∨ s.live = []
  | .fire g => s.Fires g → (s.info g).userParam = true → g ∉ s.live
  | .turn => ∀ g, s.callback = some (g, .wake false) → ∀ h ∈ s.live, h = g

/-- The counter counts the grabs that are not over, and the lock is held for them only. -/
structure Account (s : WakeLock) : Prop where
  count : s.s_wakelock_count = s.live.length
  held : s.held = true ↔ s.live ≠ []
  nodup : s.live.Nodup
  born : ∀ g ∈ s.live, g < s.grabs

variable {s : WakeLock} {g : Nat}

theorem Account.protects (h : s.Account) : s.Protects :=
  ⟨h.held.2, Nat.le_of_eq h.count⟩

theorem account_init : ({} : WakeLock).Account := by
  constructor <;> simp

/-! ## What the operations leave alone -/

@[simp] theorem cancelLast_count (s : WakeLock) :
    s.cancelLast.s_wakelock_count = s.s_wakelock_count := by
  unfold cancelLast
  split <;> simp

@[simp] theorem cancelLast_held (s : WakeLock) : s.cancelLast.held = s.held := by
  unfold cancelLast
  split <;> simp

@[simp] theorem cancelLast_live (s : WakeLock) : s.cancelLast.live = s.live := by
  unfold cancelLast
  split <;> simp

@[simp] theorem cancelLast_grabs (s : WakeLock) : s.cancelLast.grabs = s.grabs := by
  unfold cancelLast
  split <;> simp

@[simp] theorem releaseWakeLock_live (s : WakeLock) : s.releaseWakeLock.live = s.live := by
  unfold releaseWakeLock
  split <;> simp

@[simp] theorem releaseWakeLock_grabs (s : WakeLock) : s.releaseWakeLock.grabs = s.grabs := by
  unfold releaseWakeLock
  split <;> simp

theorem releaseWakeLock_count (s : WakeLock) :
    s.releaseWakeLock.s_wakelock_count = s.s_wakelock_count - 1 := by
  unfold releaseWakeLock
  split
  · simp
  · simp
    omega

theorem releaseWakeLock_held (s : WakeLock) :
    s.releaseWakeLock.held = (s.held && decide (1 < s.s_wakelock_count)) := by
  unfold releaseWakeLock
  split <;> simp [*]

theorem Account.frame {s' : WakeLock} (h : s.Account)
    (hcount : s'.s_wakelock_count = s.s_wakelock_count) (hheld : s'.held = s.held)
    (hlive : s'.live = s.live) (hgrabs : s'.grabs = s.grabs) : s'.Account := by
  constructor
  · rw [hcount, hlive, h.count]
  · rw [hheld, hlive, h.held]
  · rw [hlive]
    exact h.nodup
  · rw [hlive, hgrabs]
    exact h.born

/-! ## What a step does to the account -/

theorem Account.grab_iff (h : s.Account) {alloc : Bool} :
    (s.grabPartialWakeLock alloc).Account ↔ alloc = true := by
  cases alloc with
  | false =>
    simp only [Bool.false_eq_true, iff_false]
    intro h'
    -- the lock is given up although it may be held for others
    have := h'.held
    simp [grabPartialWakeLock] at this
  | true =>
    simp only [iff_true]
    have hnew : s.grabs ∉ s.live := fun hg => Nat.lt_irrefl _ (h.born _ hg)
    constructor
    · simp [grabPartialWakeLock, internalRequestTimedCallback, h.count]
    · simp [grabPartialWakeLock, internalRequestTimedCallback]
    · simp [grabPartialWakeLock, internalRequestTimedCallback, hnew, h.nodup]
    · intro g hg
      simp only [grabPartialWakeLock, internalRequestTimedCallback, if_true, cancelLast_live,
        cancelLast_grabs, List.mem_cons] at hg ⊢
      rcases hg with rfl | hg
      · exact Nat.lt_succ_self _
      · exact Nat.lt_succ_of_lt (h.born g hg)

theorem Account.finish_iff {s' : WakeLock} (h : s.Account) (hlive : s'.live = s.live.erase g)
    (hgrabs : s'.grabs = s.grabs) :
    s'.Account ↔ s'.s_wakelock_count = s'.live.length ∧ (s'.held = true ↔ s'.live ≠ []) := by
  constructor
  · intro h'
    exact ⟨h'.count, h'.held⟩
  · intro ⟨hcount, hheld⟩
    refine ⟨hcount, hheld, ?_, ?_⟩
    · rw [hlive]
      exact h.nodup.erase g
    · rw [hlive, hgrabs]
      intro k hk
      exact h.born k (List.mem_of_mem_erase hk)

theorem Account.ack_iff (h : s.Account) :
    (s.releaseWakeLock.finish g).Account ↔ g ∈ s.live ∨ s.live = [] := by
  rw [h.finish_iff (g := g) (by simp [finish]) (by simp [finish])]
  have hcount := releaseWakeLock_count s
  have hheld := releaseWakeLock_held s
  by_cases hg : g ∈ s.live
  · have hlen := List.length_erase_of_mem hg
    have hne : s.live ≠ [] := List.ne_nil_of_mem hg
    simp only [finish, hcount, hheld, releaseWakeLock_live, hlen, h.count, hg, true_or, iff_true,
      true_and, h.held.2 hne, Bool.true_and, decide_eq_true_eq, ← List.length_pos_iff]
    omega
  · simp only [finish, hcount, hheld, releaseWakeLock_live, List.erase_of_not_mem hg, h.count, hg,
      false_or]
    constructor
    · rintro ⟨hlen, -⟩
      exact List.length_eq_zero_iff.1 (by omega)
    · intro hnil
      simp [hnil]

theorem Account.fire_iff (h : s.Account) :
    (s.fire g).Account ↔ ((s.info g).userParam = true → g ∉ s.live) := by
  by_cases hparam : (s.info g).userParam = true
  · have hlive : (s.fire g).live = s.live.erase g := by simp [fire, hparam, finish]
    have hcount : (s.fire g).s_wakelock_count = s.s_wakelock_count := by simp [fire, hparam, finish]
    have hheld : (s.fire g).held = s.held := by simp [fire, hparam, finish]
    rw [h.finish_iff hlive (by simp [fire, hparam, finish]), hcount, hheld, hlive]
    simp only [hparam, true_implies]
    constructor
    · rintro ⟨hlen, -⟩ hg
      have := List.length_erase_of_mem hg
      have := List.length_pos_of_mem hg
      have := h.count
      omega
    · intro hg
      rw [List.erase_of_not_mem hg]
      exact ⟨h.count, h.held⟩
  · simp only [hparam, Bool.false_eq_true, false_implies, iff_true]
    refine h.frame ?_ ?_ ?_ ?_ <;> simp [fire, hparam]

theorem Account.wakeTimeout_iff (h : s.Account) :
    (s.finish g).wakeTimeout.Account ↔ ∀ k ∈ s.live, k = g := by
  rw [h.finish_iff (g := g) (by simp [wakeTimeout, finish]) (by simp [wakeTimeout, finish])]
  simp only [wakeTimeout, finish, Bool.false_eq_true, false_iff, not_not]
  constructor
  · rintro ⟨-, hnil⟩ k hk
    by_contra hne
    have : k ∈ s.live.erase g := (List.mem_erase_of_ne hne).2 hk
    simp [hnil] at this
  · intro hall
    have hnil : s.live.erase g = [] := by
      refine List.eq_nil_iff_forall_not_mem.2 ?_
      intro k hk
      exact (h.nodup.mem_erase_iff.1 hk).1 (hall k (List.mem_of_mem_erase hk))
    simp [hnil]

theorem Account.turn_iff (h : s.Account) :
    s.turn.Account ↔ ∀ g, s.callback = some (g, .wake false) → ∀ k ∈ s.live, k = g := by
  unfold turn
  split
  · next hc => simp [hc, h]
  · next g param hc =>
    cases param with
    | false =>
      have hall : (∀ g', s.callback = some (g', .wake false) → ∀ k ∈ s.live, k = g') ↔
          ∀ k ∈ s.live, k = g := by
        simp [hc]
      rw [hall, ← h.wakeTimeout_iff]
      constructor <;> intro h' <;> exact h'.frame rfl rfl rfl rfl
    | true =>
      simp only [hc, Option.some.injEq, Prod.mk.injEq, TimerCallback.wake.injEq]
      simp only [Bool.true_eq_false, and_false, false_implies, implies_true, iff_true]
      exact h.frame rfl rfl rfl rfl
  all_goals
    next hc =>
      simp only [hc, Option.some.injEq, Prod.mk.injEq, reduceCtorEq, and_false, false_implies,
        implies_true, iff_true]
      exact h.frame rfl rfl rfl rfl

theorem Account.advance_iff (h : s.Account) {e : WakeCall} : (s.advance e).Account ↔ s.Meets e := by
  cases e with
  | tick now =>
    simp only [Meets, iff_true, advance]
    split
    · exact h.frame rfl rfl rfl rfl
    · exact h
  | grab alloc => exact h.grab_iff
  | ack g => exact h.ack_iff
  | fire g =>
    simp only [advance, Meets]
    by_cases hfires : s.Fires g
    · simp only [hfires, if_true, true_implies]
      exact h.fire_iff
    · simp [hfires, h]
  | turn => exact h.turn_iff

/-! ## Runs -/

/-- **Runs whose steps meet the condition.** The lock is held while a grab is not over, and the counter
    counts none that is. -/
theorem run_protects {tr : List (WakeCall × Unit)} (run : Run step Meets {} tr s) : s.Protects := by
  have haccount : s.Account := by
    refine run.invariant (fun _ s => s.Account) account_init ?_
    intro tr s e s' r h hC hstep
    cases hstep
    exact h.advance_iff.2 hC
  exact haccount.protects

/-- A test for the condition. -/
def meetsTest (s : WakeLock) : WakeCall → Bool
  | .tick _ => true
  | .grab alloc => alloc
  | .ack g => decide (g ∈ s.live) || s.live.isEmpty
  | .fire g => !decide (s.Fires g) || !(s.info g).userParam || !decide (g ∈ s.live)
  | .turn =>
    match s.callback with
    | some (g, .wake false) => s.live.all (· == g)
    | _ => true

theorem meets_of_test {e : WakeCall} (h : s.meetsTest e = true) : s.Meets e := by
  cases e with
  | tick now => trivial
  | grab alloc => exact h
  | ack g => simpa [meetsTest, Meets] using h
  | fire g =>
    simp only [meetsTest, Bool.or_eq_true, Bool.not_eq_true', decide_eq_false_iff_not] at h
    intro hfires hparam
    rcases h with (h | h) | h
    · exact absurd hfires h
    · simp [h] at hparam
    · exact h
  | turn =>
    intro g hc k hk
    simp only [meetsTest, hc, List.all_eq_true, beq_iff_eq] at h
    exact h k hk

/-- Two grabs are acknowledged, and a third times out. -/
def timesOutLast : List WakeCall :=
  [.grab true, .grab true, .ack 0, .ack 1, .grab true, .tick 200001, .fire 2, .turn, .turn, .turn,
    .turn, .grab true]

/-- The theorem at a run in which a grab times out and another is made after it. -/
theorem run_protects_timeout :
    ∃ tr s, Run step Meets {} tr s ∧ s.live = [3] ∧ s.Protects := by
  have hend : (exec step {} timesOutLast).toOption.map (fun x => x.1.live) = some [3] := by
    decide +kernel
  have hall : allMeet step meetsTest {} timesOutLast = true := by
    decide +kernel
  obtain ⟨s, tr, hexec, hend⟩ := exec_of_map hend
  have hlive : s.live = [3] := by simpa using hend
  have run := Run.of_exec_of_allMeet (C := Meets) (fun _ _ _ h => meets_of_test h) hexec hall
  exact ⟨tr, s, run, hlive, run_protects run⟩

/-- A grab times out, another is made, and the acknowledgement of the first comes late. -/
def acksLate : List WakeCall :=
  [.grab true, .tick 200001, .fire 0, .turn, .turn, .turn, .turn, .grab true, .ack 0]

/-- The lock of the second grab is released by the late acknowledgement of the first. -/
theorem run_unprotected :
    ∃ tr s, Run step (fun _ _ => True) {} tr s ∧ s.live = [1] ∧ s.held = false ∧ ¬ s.Protects := by
  have hend : (exec step {} acksLate).toOption.map (fun x => (x.1.live, x.1.held)) =
      some ([1], false) := by
    decide +kernel
  obtain ⟨s, tr, hexec, hend⟩ := exec_of_map hend
  obtain ⟨hlive, hheld⟩ : s.live = [1] ∧ s.held = false := by
    simpa using hend
  refine ⟨tr, s, Run.of_exec (C := fun _ => True) hexec (by simp), hlive, hheld, ?_⟩
  intro h
  have := h.1 (by simp [hlive])
  simp [hheld] at this

end WakeLock

end Nx508j.Ril
