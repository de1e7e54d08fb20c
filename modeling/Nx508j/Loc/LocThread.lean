import Mathlib.Tactic.MkIffOfInductiveProp
import Nx508j.Lib.Memory

/-! # A thread and its delegate

A `LocThread` hands its runnable to a delegate, an object that the client and the spawned thread
share. One pointer of it, `mRunnable`, says that the thread is to go on, hands the runnable over to
it, and tells the client whether the thread could be created. Every access of a member is a step,
and the steps of the two threads come in any order; the locked part of `destroy` is one step. -/

namespace Nx508j.Loc

open Nx508j.Lib

/-- What is left of `LocThreadDelegate::destroy`. -/
inductive DestroyPc where
  | test
  | drop
  | delete
deriving DecidableEq, Repr

/-- Where the client is: `LocThread::start` with the constructor of the delegate and the writes upon
    failure, the check of `create`, and what follows for `stop` and for the destructor. -/
inductive ClientPc where
  | ready
  | constructed
  | failRunnable
  | failJoinable
  | failRefCount
  | check
  | started
  | bye
  | stopRunnable
  | stopClear
  | stopJoinable
  | stopUnjoin
  | join
  | destroy (pc : DestroyPc)
  | done
deriving DecidableEq, Repr

/-- Where `threadMain` of the spawned thread is, if there is one. -/
inductive ThreadPc where
  | none
  | entry
  | prerun
  | loop
  | run
  | postrun
  | clear
  | free
  | destroy (pc : DestroyPc)
  | ended
deriving DecidableEq, Repr

/-- The client, the spawned thread and the delegate. `mRunnable` is whether the pointer is set. Kept
    besides are how often the delegate and the runnable were deleted, whether the delegate was
    accessed after that, or deleted before its joinable thread had ended, and what `start` returned.
    -/
structure LocThread where
  joinable : Bool
  client : ClientPc := .ready
  thread : ThreadPc := .none
  mRunnable : Bool := false
  mJoinable : Bool := false
  mRefCount : Int := 0
  deleted : Nat := 0
  touched : Bool := false
  freed : Nat := 0
  early : Bool := false
  ret : Option Bool := none
deriving DecidableEq, Repr

/-- What happens next: the client calls `start`, the creation of the thread succeeds or not, the
    client calls `stop` or the destructor, the client goes on, the runnable returns from `run`, or
    the spawned thread goes on. -/
inductive ThreadEvent where
  | start
  | create (ok : Bool)
  | stop
  | destruct
  | client
  | run (again : Bool)
  | thread
deriving DecidableEq, Repr

namespace LocThread

/-! ## The steps -/

/-- A member of the delegate is accessed. -/
def touch (w : LocThread) : LocThread := { w with touched := w.touched || w.deleted ≠ 0 }

/-- A step of `LocThreadDelegate::destroy`, and what is left of it. -/
def destroy (w : LocThread) : DestroyPc → LocThread × Option DestroyPc
  | .test => (w.touch, if 0 < w.mRefCount then some .drop else none)
  | .drop =>
    ({ w.touch with mRefCount := w.mRefCount - 1 },
      if w.mRefCount = 1 then some .delete else none)
  | .delete =>
    ({ w with
      deleted := w.deleted + 1
      early := w.early || (w.joinable && w.thread ≠ .none && w.thread ≠ .ended) }, none)

/-- The constructor initializes the members as if the thread were created. -/
def construct (w : LocThread) : LocThread :=
  { w with client := .constructed, mRunnable := true, mJoinable := w.joinable, mRefCount := 2 }

/-- The client goes on. -/
def clientStep (w : LocThread) : LocThread :=
  match w.client with
  | .failRunnable => { w.touch with mRunnable := false, client := .failJoinable }
  | .failJoinable => { w.touch with mJoinable := false, client := .failRefCount }
  | .failRefCount => { w.touch with mRefCount := 1, client := .check }
  | .check =>
    if w.mRunnable then { w.touch with client := .started, ret := some true }
    else { w.touch with client := .destroy .test, ret := some false }
  | .bye => { w.touch with client := if w.mJoinable then .stopRunnable else .destroy .test }
  | .stopRunnable => { w.touch with client := if w.mRunnable then .stopClear else .stopJoinable }
  | .stopClear => { w.touch with mRunnable := false, client := .stopJoinable }
  | .stopJoinable => { w.touch with client := if w.mJoinable then .stopUnjoin else .destroy .test }
  | .stopUnjoin => { w.touch with mJoinable := false, client := .join }
  | .join => if w.thread = .ended then { w with client := .destroy .test } else w
  | .destroy pc =>
    let (w, left) := w.destroy pc
    { w with client := left.elim .done .destroy }
  | .ready | .constructed | .started | .done => w

/-- The spawned thread goes on. -/
def threadStep (w : LocThread) : LocThread :=
  match w.thread with
  | .entry => { w.touch with thread := if w.mRunnable then .prerun else .destroy .test }
  | .prerun => { w.touch with thread := .loop }
  | .loop => { w.touch with thread := if w.mRunnable then .run else .postrun }
  | .postrun => { w.touch with thread := .clear }
  | .clear => { w.touch with mRunnable := false, thread := .free }
  | .free => { w with freed := w.freed + 1, thread := .destroy .test }
  | .destroy pc =>
    let (w, left) := w.destroy pc
    { w with thread := left.elim .ended .destroy }
  | .none | .run | .ended => w

/-- An event that cannot happen leaves everything as it is. -/
def advance (w : LocThread) : ThreadEvent → LocThread
  | .start => if w.client = .ready then w.construct else w
  | .create ok =>
    if w.client = .constructed then
      if ok then { w with client := .check, thread := .entry }
      else { w with client := .failRunnable }
    else w
  | .stop => if w.client = .started then { w with client := .stopRunnable } else w
  | .destruct => if w.client = .started then { w with client := .bye } else w
  | .client => w.clientStep
  | .run again =>
    if w.thread = .run then { w with thread := if again then .loop else .postrun } else w
  | .thread => w.threadStep

def step (w : LocThread) (e : ThreadEvent) : Except Fault (LocThread × Unit) :=
  .ok (w.advance e, ())

/-! ## The property -/

/-- Nothing is left to do. -/
def Finished (w : LocThread) : Prop := w.client = .done ∧ (w.thread = .none ∨ w.thread = .ended)

/-- **The property.** The delegate is deleted once, not accessed afterwards, and not before its
    joinable thread has ended. The runnable is deleted once if the thread was created, and not at
    all if it was not. `start` says whether it was. -/
structure Right (w : LocThread) : Prop where
  once : w.deleted ≤ 1
  deleted : w.Finished → w.deleted = 1
  untouched : w.touched = false
  joined : w.early = false
  runnable : w.freed ≤ 1
  kept : w.thread = .none → w.freed = 0
  freed : w.thread = .ended → w.freed = 1
  ret : ∀ b, w.ret = some b → (b = true ↔ w.thread ≠ .none)

/-- `create` asks whether the thread is running before a thread that was created is done with its
    runnable, and `stop` clears the pointer after it has taken it. -/
def Meets (w : LocThread) : ThreadEvent → Prop
  | .client =>
    (w.client = .check → w.thread ≠ .none → w.mRunnable = true) ∧
      (w.client = .stopClear → w.thread ≠ .entry)
  | _ => True

instance decidableMeets (w : LocThread) (e : ThreadEvent) : Decidable (w.Meets e) :=
  match e with
  | .client => inferInstanceAs (Decidable (_ ∧ _))
  | .start | .create _ | .stop | .destruct | .run _ | .thread => inferInstanceAs (Decidable True)

end LocThread

/-! ## What holds in between -/

/-- Whether the client has a reference to the delegate. -/
@[grind]
def ClientPc.holds : ClientPc → Nat
  | .ready | .destroy .delete | .done => 0
  | _ => 1

/-- The client is about to delete it. -/
@[grind]
def ClientPc.deletes : ClientPc → Nat
  | .destroy .delete => 1
  | _ => 0

/-- The client is in the constructor. -/
@[grind]
def ClientPc.constructs : ClientPc → Bool
  | .constructed | .failRunnable | .failJoinable | .failRefCount => true
  | _ => false

/-- The client may still ask whether the thread is joinable. -/
@[grind]
def ClientPc.asks : ClientPc → Bool
  | .check | .started | .bye | .stopRunnable | .stopClear | .stopJoinable => true
  | _ => false

/-- The client has been told that there is a thread. -/
@[grind]
def ClientPc.told : ClientPc → Bool
  | .started | .bye | .stopRunnable | .stopClear | .stopJoinable | .stopUnjoin | .join => true
  | _ => false

/-- The client is on its way out. -/
@[grind]
def ClientPc.leaves : ClientPc → Bool
  | .destroy _ | .done => true
  | _ => false

@[grind]
def ThreadPc.holds : ThreadPc → Nat
  | .none | .destroy .delete | .ended => 0
  | _ => 1

@[grind]
def ThreadPc.deletes : ThreadPc → Nat
  | .destroy .delete => 1
  | _ => 0

/-- How often the thread has deleted the runnable. -/
@[grind]
def ThreadPc.freed : ThreadPc → Nat
  | .destroy _ | .ended => 1
  | _ => 0

namespace LocThread

/-- Between the steps. -/
@[mk_iff]
structure Inv (w : LocThread) : Prop where
  refs : w.client.constructs = false → w.mRefCount = (w.client.holds + w.thread.holds : Nat)
  constructs : w.client.constructs = true → w.mRefCount = 2
  alone : w.client = .ready ∨ w.client.constructs = true → w.thread = .none
  once : w.client ≠ .ready →
    w.deleted + w.client.deletes + w.thread.deletes = if w.mRefCount = 0 then 1 else 0
  ready : w.client = .ready → w.deleted = 0
  untouched : w.touched = false
  freed : w.freed = w.thread.freed
  runnable : w.client = .constructed ∨ w.thread = .entry → w.mRunnable = true
  failed : w.client = .failJoinable ∨ w.client = .failRefCount ∨
    w.client = .check ∧ w.thread = .none → w.mRunnable = false
  joinable : w.client = .constructed ∨ w.client.asks = true ∧ w.thread ≠ .none →
    w.mJoinable = w.joinable
  told : w.client.told = true → w.thread ≠ .none
  joined : w.joinable = true → w.client.leaves = true → w.thread = .none ∨ w.thread = .ended
  early : w.early = false
  unset : w.client = .ready ∨ w.client.constructs = true ∨ w.client = .check → w.ret = none
  ret : ∀ b, w.ret = some b → (b = true ↔ w.thread ≠ .none)

theorem inv_init (joinable : Bool) : Inv { joinable } := by
  constructor <;> simp [ClientPc.constructs, ClientPc.holds, ThreadPc.holds, ClientPc.asks,
    ClientPc.told, ClientPc.leaves, ThreadPc.freed]

variable {w : LocThread}

theorem Inv.right (h : w.Inv) : w.Right := by
  have hle : w.deleted ≤ 1 := by
    by_cases hready : w.client = .ready
    · rw [h.ready hready]
      exact Nat.zero_le 1
    · have honce := h.once hready
      split at honce <;> omega
  refine ⟨hle, ?_, h.untouched, h.early, ?_, ?_, ?_, h.ret⟩
  · rintro ⟨hclient, hthread⟩
    have hrefs := h.refs (by rw [hclient]; rfl)
    have honce := h.once (by rw [hclient]; exact nofun)
    rw [hclient] at hrefs honce
    rcases hthread with hthread | hthread
    · rw [hthread] at hrefs honce
      exact (if_pos hrefs ▸ honce :)
    · rw [hthread] at hrefs honce
      exact (if_pos hrefs ▸ honce :)
  · rw [h.freed]
    cases w.thread <;> simp [ThreadPc.freed]
  · intro hthread
    rw [h.freed, hthread]
    rfl
  · intro hthread
    rw [h.freed, hthread]
    rfl

theorem Inv.touch_eq (h : w.Inv)
    (hhas : 0 < w.client.holds + w.client.deletes + w.thread.holds + w.thread.deletes) :
    w.touch = w := by
  have hready : w.client ≠ .ready := by
    intro hready
    rw [hready, h.alone (.inl hready)] at hhas
    cases hhas
  have honce := h.once hready
  have hrefs : w.mRefCount = 0 → w.client.holds + w.thread.holds = 0 := by
    intro hzero
    by_cases hconstructs : w.client.constructs = true
    · have := h.constructs hconstructs
      omega
    · have := h.refs (by simpa using hconstructs)
      omega
  have hdeleted : w.deleted = 0 := by
    split at honce <;> omega
  unfold touch
  rw [hdeleted, h.untouched]
  have htouched := h.untouched
  cases w
  simp_all

/-- **A step of the client.** -/
theorem Inv.client (h : w.Inv) (hmeets : w.Meets .client) : w.clientStep.Inv := by
  have hfields := (inv_iff w).1 h
  have htouch : 0 < w.client.holds + w.client.deletes → w.touch = w := fun hhas =>
    h.touch_eq (by omega)
  cases hc : w.client with
  | ready | constructed | started | done =>
    -- the client waits, or is through
    simpa only [clientStep, hc] using h
  | failRunnable | failJoinable | failRefCount =>
    have hnone : w.thread = .none := h.alone (.inr (by rw [hc]; rfl))
    rw [hc] at hfields htouch
    simp only [clientStep, hc, htouch (by decide), inv_iff]
    grind -linarith
  | check =>
    -- the pointer tells whether there is a thread
    have hthread : w.mRunnable = true ↔ w.thread ≠ .none := by
      refine ⟨fun hrun hnone => ?_, hmeets.1 hc⟩
      rw [h.failed (.inr (.inr ⟨hc, hnone⟩))] at hrun
      cases hrun
    rw [hc] at hfields htouch
    simp only [clientStep, hc, htouch (by decide), inv_iff]
    grind -linarith
  | bye | stopRunnable | stopJoinable | stopUnjoin =>
    have htold : w.thread ≠ .none := h.told (by rw [hc]; rfl)
    rw [hc] at hfields htouch
    simp only [clientStep, hc, htouch (by decide), inv_iff]
    grind -linarith
  | stopClear =>
    have hentry : w.thread ≠ .entry := hmeets.2 hc
    have htold : w.thread ≠ .none := h.told (by rw [hc]; rfl)
    rw [hc] at hfields htouch
    simp only [clientStep, hc, htouch (by decide), inv_iff]
    grind -linarith
  | join =>
    rw [hc] at hfields
    simp only [clientStep, hc, inv_iff]
    grind -linarith
  | destroy pc =>
    rw [hc] at hfields htouch
    cases pc with
    | test =>
      simp only [clientStep, hc, destroy, htouch (by decide), inv_iff]
      grind -linarith
    | drop =>
      simp only [clientStep, hc, destroy, htouch (by decide), inv_iff]
      grind -linarith
    | delete =>
      simp only [clientStep, hc, destroy, inv_iff]
      grind -linarith

/-- The reference of the thread was the last one: the client has given its own up, and would have
    waited for a joinable thread. -/
theorem Inv.thread_deletes (h : w.Inv) (ht : w.thread = .destroy .delete) :
    w.joinable = false := by
  have hready : w.client ≠ .ready := by
    intro hready
    have := h.alone (.inl hready)
    rw [ht] at this
    cases this
  have honce := h.once hready
  have hzero : w.mRefCount = 0 := by
    rw [ht] at honce
    simp [ThreadPc.deletes] at honce
    by_contra hne
    simp [hne] at honce
  have hconstructs : w.client.constructs = false := by
    by_contra hne
    have := h.constructs (by simpa using hne)
    omega
  have hrefs := h.refs hconstructs
  have hholds : w.client.holds = 0 := by omega
  have hleaves : w.client.leaves = true := by
    cases hc : w.client <;> simp_all [ClientPc.holds, ClientPc.leaves]
  by_contra hne
  have := h.joined (by simpa using hne) hleaves
  simp [ht] at this

/-- **A step of the spawned thread.** -/
theorem Inv.thread (h : w.Inv) : w.threadStep.Inv := by
  have hfields := (inv_iff w).1 h
  have htouch : 0 < w.thread.holds + w.thread.deletes → w.touch = w := fun hhas =>
    h.touch_eq (by omega)
  -- a thread that is there was created at the end of the constructor
  have hthere : w.thread ≠ .none → w.client ≠ .ready ∧ w.client.constructs = false := by
    intro hthread
    refine ⟨fun hready => hthread (h.alone (.inl hready)), ?_⟩
    by_contra hconstructs
    exact hthread (h.alone (.inr (by simpa using hconstructs)))
  cases ht : w.thread with
  | none | run | ended =>
    -- there is nothing to do, or `run` has to return
    simpa only [threadStep, ht] using h
  | entry =>
    have hrunnable : w.mRunnable = true := h.runnable (.inr ht)
    rw [ht] at hfields htouch hthere
    simp only [threadStep, ht, htouch (by decide), hrunnable, inv_iff]
    grind -linarith
  | prerun | loop | postrun | clear =>
    rw [ht] at hfields htouch hthere
    simp only [threadStep, ht, htouch (by decide), inv_iff]
    grind -linarith
  | free =>
    have hfreed : w.freed = 0 := by
      rw [h.freed, ht]
      rfl
    rw [ht] at hfields hthere
    simp only [threadStep, ht, hfreed, inv_iff]
    grind -linarith
  | destroy pc =>
    rw [ht] at hfields htouch hthere
    cases pc with
    | test =>
      simp only [threadStep, ht, destroy, htouch (by decide), inv_iff]
      grind -linarith
    | drop =>
      simp only [threadStep, ht, destroy, htouch (by decide), inv_iff]
      grind -linarith
    | delete =>
      have hdetached : w.joinable = false := h.thread_deletes ht
      simp only [threadStep, ht, destroy, hdetached, inv_iff]
      grind -linarith

theorem Inv.advance {e : ThreadEvent} (h : w.Inv) (hmeets : w.Meets e) : (w.advance e).Inv := by
  cases e with
  | client => exact h.client hmeets
  | thread => exact h.thread
  | start | create | stop | destruct | run =>
    cases h
    unfold LocThread.advance construct
    rw [inv_iff]
    grind -linarith

theorem Inv.finished (h : w.Inv) (hstuck : ∀ e, w.advance e = w) : w.Finished := by
  have hthread : w.thread = .none ∨ w.thread = .ended := by
    have hrun := congrArg LocThread.thread (hstuck (.run true))
    have hstep := congrArg LocThread.thread (hstuck .thread)
    cases ht : w.thread with
    | none => exact .inl rfl
    | ended => exact .inr rfl
    | run => simp [LocThread.advance, ht] at hrun
    | destroy pc =>
      cases pc <;> simp [LocThread.advance, threadStep, destroy, ht] at hstep <;>
        split at hstep <;> simp at hstep
    | _ => simp [LocThread.advance, threadStep, ht] at hstep <;> split at hstep <;> simp at hstep
  refine ⟨?_, hthread⟩
  have hstep := congrArg LocThread.client (hstuck .client)
  cases hc : w.client with
  | done => rfl
  | ready =>
    have := congrArg LocThread.client (hstuck .start)
    simp [LocThread.advance, construct, hc] at this
  | constructed =>
    have := congrArg LocThread.client (hstuck (.create false))
    simp [LocThread.advance, hc] at this
  | started =>
    have := congrArg LocThread.client (hstuck .stop)
    simp [LocThread.advance, hc] at this
  | join =>
    have hended : w.thread = .ended := hthread.resolve_left (h.told (by rw [hc]; rfl))
    simp [LocThread.advance, clientStep, hc, hended] at hstep
  | destroy pc =>
    cases pc <;> simp [LocThread.advance, clientStep, destroy, hc] at hstep <;>
      split at hstep <;> simp at hstep
  | _ => simp [LocThread.advance, clientStep, hc] at hstep <;> split at hstep <;> simp at hstep

/-- **The delegate and its runnable.** Let `create` not ask for a pointer that the new thread has
    already cleared, and `stop` not clear one that the new thread has yet to take. Then in every
    order of the steps, joinable or not, whether the thread can be created or not, each is deleted
    when and as often as it should be, and `start` says whether there is a thread. The steps come to
    an end only when both threads are done. -/
theorem run_locThread {joinable : Bool} {tr : List (ThreadEvent × Unit)} {w : LocThread}
    (run : Run step Meets { joinable } tr w) :
    w.Right ∧ ((∀ e, w.advance e = w) → w.Finished) := by
  have hinv : w.Inv := by
    refine run.invariant (fun _ w => w.Inv) (inv_init joinable) ?_
    rintro tr w e w' u h hmeets hstep
    obtain ⟨rfl, rfl⟩ := ok_pair hstep
    exact h.advance hmeets
  exact ⟨hinv.right, hinv.finished⟩

/-- A joinable thread that is stopped while its runnable runs. -/
def stopped : List ThreadEvent :=
  [.start, .create true, .client, .thread, .thread, .thread, .stop, .client, .client, .client,
    .run true, .client, .thread, .thread, .thread, .thread, .thread, .thread, .client, .client,
    .client, .client]

theorem run_locThread_stop :
    ∃ tr w, Run step Meets { joinable := true } tr w ∧ w.Finished ∧ w.Right := by
  obtain ⟨tr, w, run, -, hw⟩ : ∃ tr w, Run step Meets { joinable := true } tr w ∧
      tr.map Prod.fst = stopped ∧ (w.client, w.thread) = (.done, .ended) :=
    Run.exists_of_allMeet (g := fun w : LocThread => (w.client, w.thread)) (by decide +kernel)
      (by decide +kernel)
  obtain ⟨hclient, hthread⟩ := Prod.mk.inj hw
  exact ⟨tr, w, run, ⟨hclient, .inr hthread⟩, (run_locThread run).1⟩

/-- The runnable of a thread returns before `create` asks. -/
def endsEarly : List ThreadEvent :=
  [.start, .create true, .thread, .thread, .thread, .run false, .thread, .thread, .client]

/-- A thread is stopped before it has taken its runnable. -/
def stopsEarly : List ThreadEvent :=
  [.start, .create true, .client, .stop, .client, .client, .thread, .thread, .thread, .client,
    .client, .client, .client, .client, .client]

/-- Neither does what it should: `start` says of the first that there is no thread, and nobody
    deletes the runnable of the second. -/
theorem locThread_early :
    (∃ tr w, Run step (fun _ _ => True) { joinable := false } tr w ∧ ¬ w.Right) ∧
      ∃ tr w, Run step (fun _ _ => True) { joinable := true } tr w ∧ w.Finished ∧ ¬ w.Right := by
  constructor
  · obtain ⟨tr, w, run, hw⟩ : ∃ tr w, Run step (fun _ _ => True) { joinable := false } tr w ∧
        (w.ret, w.thread) = (some false, .free) :=
      Run.exists_of_exec (C := fun _ => True) (g := fun w => (w.ret, w.thread))
        (show (exec step _ endsEarly).toOption.map _ = _ by decide +kernel) fun _ _ => trivial
    obtain ⟨hret, hthread⟩ := Prod.mk.inj hw
    refine ⟨tr, w, run, fun hright => ?_⟩
    have := (hright.ret false hret).2 (by rw [hthread]; simp)
    cases this
  · obtain ⟨tr, w, run, hw⟩ : ∃ tr w, Run step (fun _ _ => True) { joinable := true } tr w ∧
        (w.client, w.thread, w.freed) = (.done, .ended, 0) :=
      Run.exists_of_exec (C := fun _ => True) (g := fun w => (w.client, w.thread, w.freed))
        (show (exec step _ stopsEarly).toOption.map _ = _ by decide +kernel) fun _ _ => trivial
    obtain ⟨hclient, hthread, hfreed⟩ : w.client = .done ∧ w.thread = .ended ∧ w.freed = 0 := by
      simpa using hw
    refine ⟨tr, w, run, ⟨hclient, .inr hthread⟩, fun hright => ?_⟩
    have := hright.freed hthread
    omega

end LocThread

end Nx508j.Loc
