import Mathlib.Data.List.Perm.Subperm
import Mathlib.Logic.Function.Iterate
import Nx508j.Loc.LinkedList

/-! # A message task and its queue

Any thread sends messages to the queue of a `MsgTask`; the thread of the task takes them out,
handles and deletes them, until the queue is unblocked. Then it deletes the `MsgTask`, whose
destructor flushes the queue. A section under the mutex of the queue is one step; the steps of the
senders, the task and the one who calls `destroy` come in any order. -/

namespace Nx508j.Loc

open Nx508j.Lib

/-- The values of `msq_q_err_type` that occur here. -/
inductive MsqQErr where
  | eMSG_Q_SUCCESS
  | eMSG_Q_FAILURE_GENERAL
  | eMSG_Q_UNAVAILABLE_RESOURCE
deriving DecidableEq, Repr

/-! ## The list -/

section LinkedList

variable {α : Type}

/-- A list is what its elements hold, from `p_head` to `p_tail`. The element is allocated here. -/
def linked_list_add (list : List α) (data_obj : α) (alloc : Bool) : MsqQErr × List α :=
  if alloc then (.eMSG_Q_SUCCESS, data_obj :: list) else (.eMSG_Q_FAILURE_GENERAL, list)

/-- Takes the element at `p_tail`. -/
def linked_list_remove (list : List α) : Option (α × List α) :=
  list.getLast?.map fun data_obj => (data_obj, list.dropLast)

/-- What is deallocated, in order. -/
def linked_list_flush (list : List α) : List α := list

theorem linked_list_remove_eq_some {list list' : List α} {m : α}
    (h : linked_list_remove list = some (m, list')) : list.reverse = m :: list'.reverse := by
  obtain ⟨m', hm, heq⟩ := Option.map_eq_some_iff.1 h
  obtain ⟨rfl, rfl⟩ := Prod.mk.inj heq
  obtain ⟨l, rfl⟩ := List.getLast?_eq_some_iff.1 hm
  simp

theorem linked_list_remove_eq_none {list : List α} :
    linked_list_remove list = none ↔ list = [] := by
  simp [linked_list_remove]

end LinkedList

/-! ### The list in memory

`Loc.LinkedList` has the pointers of a list, which holds what the list here has. -/

section Lists

variable {α : Type} {p : α → Nat} {f : Nat} {s : LinkedList} {list : List α}

/-- The elements point at the messages, and each has the function that deletes it. -/
def Lists (p : α → Nat) (f : Nat) (s : LinkedList) (list : List α) : Prop :=
  ∃ l, s.Holds l ∧ s.items l = list.map fun m => (p m, some f)

/-- A message there is memory for comes first. -/
theorem Lists.add (h : Lists p f s list) (msg : α) (malloc : Option Nat) :
    ∃ s' r alloc, s.linked_list_add true (some (p msg)) (some f) malloc = .ok (s', r) ∧
      Lists p f s' (linked_list_add list msg alloc).2 ∧
      (r.err = .eLINKED_LIST_SUCCESS ↔ (linked_list_add list msg alloc).1 = .eMSG_Q_SUCCESS) := by
  obtain ⟨l, hholds, hitems⟩ := h
  obtain ⟨s', r, l', alloc, hadd, hholds', hcall⟩ :=
    LinkedList.add_call hholds true (some (p msg)) (some f) malloc
  rw [hitems] at hcall
  cases alloc with
  | false =>
    obtain ⟨hsame, rfl⟩ := Prod.mk.inj hcall
    exact ⟨s', _, false, hadd, ⟨l', hholds', hsame.symm⟩, iff_of_false nofun nofun⟩
  | true =>
    obtain ⟨hcons, rfl⟩ := Prod.mk.inj hcall
    exact ⟨s', _, true, hadd, ⟨l', hholds', hcons.symm⟩, iff_of_true rfl rfl⟩

/-- The last one is taken. -/
theorem Lists.remove (h : Lists p f s list) :
    ∃ s' r, s.linked_list_remove true true = .ok (s', r) ∧
      Lists p f s' ((linked_list_remove list).elim list Prod.snd) ∧
      r.data = (linked_list_remove list).map fun m => some (p m.1) := by
  obtain ⟨l, hholds, hitems⟩ := h
  obtain ⟨s', r, l', _, hremove, hholds', hcall⟩ := LinkedList.remove_call hholds true true
  rw [hitems] at hcall
  rcases list.eq_nil_or_concat' with rfl | ⟨list, m, rfl⟩
  · obtain ⟨hsame, rfl⟩ := Prod.mk.inj hcall
    exact ⟨s', _, hremove, ⟨l', hholds', hsame.symm⟩, rfl⟩
  · simp only [Items.call, List.map_append, List.map_singleton, List.getLast?_concat,
      List.dropLast_concat, Bool.true_eq_false, if_false] at hcall
    obtain ⟨hinit, rfl⟩ := Prod.mk.inj hcall
    have hlast : linked_list_remove (list ++ [m]) = some (m, list) := by
      simp [linked_list_remove]
    rw [hlast]
    exact ⟨s', _, hremove, ⟨l', hholds', hinit.symm⟩, rfl⟩

/-- All are freed. -/
theorem Lists.flush (h : Lists p f s list) :
    ∃ s' r, s.linked_list_flush true = .ok (s', r) ∧ Lists p f s' [] ∧
      r.deallocs = (linked_list_flush list).map fun m => (f, p m) := by
  obtain ⟨l, hholds, hitems⟩ := h
  obtain ⟨s', r, l', _, hflush, hholds', hcall⟩ := LinkedList.flush_call hholds true
  rw [hitems] at hcall
  obtain ⟨hnil, rfl⟩ := Prod.mk.inj hcall
  refine ⟨s', _, hflush, ⟨l', hholds', hnil.symm⟩, ?_⟩
  simp only [Items.deallocs, List.flatMap_map]
  exact List.map_eq_flatMap.symm

end Lists

/-! ## The queue -/

structure MsgQ (α : Type) where
  msg_list : List α := []
  unblocked : Bool := false
deriving DecidableEq, Repr

namespace MsgQ

variable {α : Type}

/-- The locked part of `msg_q_snd`. Who waits is signalled unless the queue is unblocked. -/
def snd (q : MsgQ α) (msg_obj : α) (alloc : Bool) : MsqQErr × MsgQ α :=
  if q.unblocked then (.eMSG_Q_UNAVAILABLE_RESOURCE, q)
  else
    let (rv, msg_list) := linked_list_add q.msg_list msg_obj alloc
    (rv, { q with msg_list })

/-- The condition of the loop in `msg_q_rcv`. -/
def waits (q : MsgQ α) : Bool := q.msg_list.isEmpty && !q.unblocked

/-- The end of `msg_q_rcv`, after the loop. -/
def take (q : MsgQ α) : Option (α × MsgQ α) :=
  (linked_list_remove q.msg_list).map fun (msg_obj, msg_list) => (msg_obj, { q with msg_list })

def unblock (q : MsgQ α) : MsgQ α := { q with unblocked := true }

end MsgQ

/-! ## The task -/

/-- Where the thread of the task is, if there is one: at the call of `msg_q_rcv`, in the wait for
    the condition (and whether it was signalled), before `proc`, before `delete`, or out of `run`.
    -/
inductive TaskPc (α : Type) where
  | none
  | rcv
  | wait (signalled : Bool)
  | proc (msg : α)
  | delete (msg : α)
  | leave
  | ended
deriving DecidableEq, Repr

/-- What is left of `MsgTask::destroy`, with `thread` as it has been read. -/
inductive MsgTaskDestroyPc where
  | idle
  | unblock (thread : Bool)
  | clear
  | delete
  | done
deriving DecidableEq, Repr

/-- A `MsgTask`, its thread and the caller of `destroy`. Kept besides are the messages handed to
    `sendMsg`, those that it enqueued, those that were handled, those that the queue was flushed of,
    and those that were deleted, each in order, and how often the `MsgTask` was deleted. -/
structure MsgTask (α : Type) where
  mQ : MsgQ α := {}
  mThread : Bool
  task : TaskPc α
  destroyer : MsgTaskDestroyPc := .idle
  handed : List α := []
  enqueued : List α := []
  processed : List α := []
  flushed : List α := []
  deleted : List α := []
  gone : Nat := 0
deriving DecidableEq, Repr

/-- A thread calls `sendMsg` (and whether the element can be allocated), the task goes on, it wakes
    though nobody signalled, a thread calls `destroy`, or goes on in it. -/
inductive MsgTaskEvent (α : Type) where
  | sendMsg (msg : α) (alloc : Bool)
  | task
  | wake
  | destroy
  | destroyer
deriving DecidableEq, Repr

namespace MsgTask

variable {α : Type}

/-- What the constructor makes; the thread may not start. -/
def make (started : Bool) : MsgTask α :=
  { mThread := started, task := if started then .rcv else .none }

def signal (w : MsgTask α) : MsgTask α :=
  match w.task with
  | .wait _ => { w with task := .wait true }
  | _ => w

/-- The result of `msg_q_snd` is not looked at. -/
def sendMsg (w : MsgTask α) (msg : α) (alloc : Bool) : MsgTask α :=
  let (rv, mQ) := w.mQ.snd msg alloc
  let w := { w with
    mQ
    handed := w.handed ++ [msg]
    enqueued := if rv = .eMSG_Q_SUCCESS then w.enqueued ++ [msg] else w.enqueued }
  if rv = .eMSG_Q_UNAVAILABLE_RESOURCE then w else w.signal

/-- The loop of `msg_q_rcv`, and what `run` does with its result. -/
def receive (w : MsgTask α) : MsgTask α :=
  if w.mQ.waits then { w with task := .wait false }
  else
    match w.mQ.take with
    | some (msg, mQ) => { w with mQ, task := .proc msg }
    | none => { w with task := .leave }

/-- `~MsgTask`. -/
def delete (w : MsgTask α) : MsgTask α :=
  { w with
    mQ := { w.mQ with msg_list := [] }
    flushed := w.flushed ++ linked_list_flush w.mQ.msg_list
    deleted := w.deleted ++ linked_list_flush w.mQ.msg_list
    gone := w.gone + 1 }

def taskStep (w : MsgTask α) : MsgTask α :=
  match w.task with
  | .rcv => if w.mQ.unblocked then { w with task := .leave } else w.receive
  | .wait true => w.receive
  | .proc msg => { w with processed := w.processed ++ [msg], task := .delete msg }
  | .delete msg => { w with deleted := w.deleted ++ [msg], task := .rcv }
  | .leave => { w.delete with task := .ended }
  | .none | .wait false | .ended => w

/-- The thread that the last part waits for is the one that runs the task. -/
def destroyStep (w : MsgTask α) : MsgTask α :=
  match w.destroyer with
  | .unblock thread =>
    { w.signal with mQ := w.mQ.unblock, destroyer := if thread then .clear else .delete }
  | .clear => { w with mThread := false, destroyer := .done }
  | .delete => { w.delete with destroyer := .done }
  | .idle | .done => w

/-- An event that cannot happen leaves everything as it is. -/
def advance (w : MsgTask α) : MsgTaskEvent α → MsgTask α
  | .sendMsg msg alloc => w.sendMsg msg alloc
  | .task => w.taskStep
  | .wake =>
    match w.task with
    | .wait _ => w.receive
    | _ => w
  | .destroy =>
    if w.destroyer = .idle then { w with destroyer := .unblock w.mThread } else w
  | .destroyer => w.destroyStep

def step (w : MsgTask α) (e : MsgTaskEvent α) : Except Fault (MsgTask α × Unit) :=
  .ok (w.advance e, ())

/-! ## The property -/

/-- Who sends returns before the `MsgTask` is deleted. -/
def Allowed (w : MsgTask α) : MsgTaskEvent α → Prop
  | .sendMsg _ _ => w.gone = 0
  | _ => True

instance decidableAllowed (w : MsgTask α) (e : MsgTaskEvent α) : Decidable (w.Allowed e) :=
  match e with
  | .sendMsg _ _ => inferInstanceAs (Decidable (_ = _))
  | .task | .wake | .destroy | .destroyer => inferInstanceAs (Decidable True)

/-- And it sends before the queue is unblocked, with memory for the element. -/
def Meets (w : MsgTask α) : MsgTaskEvent α → Prop
  | .sendMsg _ alloc => w.gone = 0 ∧ w.mQ.unblocked = false ∧ alloc = true
  | _ => True

instance decidableMeets (w : MsgTask α) (e : MsgTaskEvent α) : Decidable (w.Meets e) :=
  match e with
  | .sendMsg _ _ => inferInstanceAs (Decidable (_ ∧ _))
  | .task | .wake | .destroy | .destroyer => inferInstanceAs (Decidable True)

/-- Nothing is left to do. -/
def Finished (w : MsgTask α) : Prop :=
  w.destroyer = .done ∧ (w.task = .none ∨ w.task = .ended)

/-- **The property**, of the messages `sent`: they are handled in their order, each at most once;
    none is deleted twice, and all of them are when the `MsgTask` is. That is deleted once, not
    before the queue was unblocked, and after that the task is at its end within five steps of its
    own. -/
structure Right (w : MsgTask α) (sent : List α) : Prop where
  order : w.processed <+: sent
  once : w.deleted.Subperm sent
  deleted : w.gone ≠ 0 → w.deleted.Perm sent
  gone_le : w.gone ≤ 1
  unblocked : w.gone ≠ 0 → w.mQ.unblocked = true
  gone : w.Finished → w.gone = 1
  ends : w.mQ.unblocked = true → w.task ≠ .none → (taskStep^[5] w).task = .ended

end MsgTask

/-! ## What holds in between -/

/-- The message that was taken out and is not yet handled. -/
def TaskPc.taken {α : Type} : TaskPc α → List α
  | .proc msg => [msg]
  | _ => []

/-- The message that was handled and is not yet deleted. -/
def TaskPc.handled {α : Type} : TaskPc α → List α
  | .delete msg => [msg]
  | _ => []

namespace MsgTask

variable {α : Type} {w : MsgTask α}

structure Inv (w : MsgTask α) : Prop where
  order : w.processed ++ w.task.taken ++ (w.flushed ++ w.mQ.msg_list).reverse = w.enqueued
  deleted : w.deleted ++ w.task.handled = w.processed ++ w.flushed
  kept : w.gone = 0 → w.flushed = []
  empty : w.gone ≠ 0 → w.mQ.msg_list = []
  gone : w.task = .ended ∨ w.task = .none ∧ w.destroyer = .done → w.gone = 1
  there : ¬ (w.task = .ended ∨ w.task = .none ∧ w.destroyer = .done) → w.gone = 0
  thread : w.destroyer = .idle → (w.mThread = true ↔ w.task ≠ .none)
  read : ∀ thread, w.destroyer = .unblock thread → (thread = true ↔ w.task ≠ .none)
  clear : w.destroyer = .clear → w.task ≠ .none
  delete : w.destroyer = .delete → w.task = .none
  unblocked : w.mQ.unblocked = true ↔
    w.destroyer = .clear ∨ w.destroyer = .delete ∨ w.destroyer = .done
  leave : w.task = .leave ∨ w.task = .ended → w.mQ.unblocked = true
  waits : w.task = .wait false → w.mQ.waits = true

theorem inv_make (started : Bool) : (make started : MsgTask α).Inv := by
  cases started <;> constructor <;> simp [make, TaskPc.taken, TaskPc.handled]

theorem signal_eq (w : MsgTask α) : ∃ task, w.signal = { w with task } ∧
    (task = w.task ∧ (∀ signalled, w.task ≠ .wait signalled) ∨
      task = .wait true ∧ ∃ signalled, w.task = .wait signalled) := by
  unfold signal
  split
  · next signalled h => exact ⟨.wait true, rfl, .inr ⟨rfl, signalled, h⟩⟩
  · next h => exact ⟨w.task, rfl, .inl ⟨rfl, h⟩⟩

theorem Inv.receive (h : w.Inv) (ht : (∃ signalled, w.task = .wait signalled) ∨ w.task = .rcv) :
    w.receive.Inv := by
  have hthere := h.there (by rcases ht with ⟨_, ht⟩ | ht <;> simp [ht])
  cases h
  unfold MsgTask.receive
  split
  · next hwaits =>
    constructor <;> first | assumption | grind -linarith [TaskPc.taken, TaskPc.handled]
  · next hwaits =>
    split
    · next msg mQ htake =>
      obtain ⟨⟨m, list⟩, hremove, heq⟩ := Option.map_eq_some_iff.1 htake
      obtain ⟨rfl, rfl⟩ := Prod.mk.inj heq
      have hrev := linked_list_remove_eq_some hremove
      constructor <;> first | assumption | grind -linarith [TaskPc.taken, TaskPc.handled]
    · next htake =>
      have hempty : w.mQ.msg_list = [] := by
        rw [← linked_list_remove_eq_none]
        simpa [MsgQ.take] using htake
      constructor <;>
        first | assumption | grind -linarith [TaskPc.taken, TaskPc.handled, MsgQ.waits]

theorem Inv.taskStep (h : w.Inv) : w.taskStep.Inv := by
  unfold MsgTask.taskStep
  split
  · next ht =>
    split
    · next hunblocked =>
      cases h
      constructor <;> first | assumption | grind -linarith [TaskPc.taken, TaskPc.handled]
    · exact h.receive (.inr ht)
  · next ht => exact h.receive (.inl ⟨_, ht⟩)
  · next msg ht =>
    have hflushed := h.kept (h.there (by simp [ht]))
    cases h
    constructor <;> first | assumption | grind -linarith [TaskPc.taken, TaskPc.handled]
  · next msg ht =>
    cases h
    constructor <;> first | assumption | grind -linarith [TaskPc.taken, TaskPc.handled]
  · next ht =>
    have hthere := h.there (by simp [ht])
    cases h
    unfold MsgTask.delete
    constructor <;>
      first | assumption | grind -linarith [TaskPc.taken, TaskPc.handled, linked_list_flush]
  · exact h
  · exact h
  · exact h

theorem Inv.destroyStep (h : w.Inv) : w.destroyStep.Inv := by
  unfold MsgTask.destroyStep
  split
  · next t hd =>
    obtain ⟨task, hsignal, htask⟩ := w.signal_eq
    rw [hsignal]
    have := h.read t hd
    cases h
    constructor <;>
      first | assumption | grind -linarith [TaskPc.taken, TaskPc.handled, MsgQ.unblock, MsgQ.waits]
  · next hd =>
    cases h
    constructor <;> first | assumption | grind -linarith [TaskPc.taken, TaskPc.handled]
  · next hd =>
    have hthere := h.there (by simp [hd, h.delete hd])
    cases h
    unfold MsgTask.delete
    constructor <;>
      first | assumption | grind -linarith [TaskPc.taken, TaskPc.handled, linked_list_flush]
  · exact h
  · exact h

theorem sendMsg_of_unblocked (h : w.mQ.unblocked = true) (msg : α) (alloc : Bool) :
    w.sendMsg msg alloc = { w with handed := w.handed ++ [msg] } := by
  simp [MsgTask.sendMsg, MsgQ.snd, h]

theorem sendMsg_no_memory (h : w.mQ.unblocked = false) (msg : α) :
    w.sendMsg msg false = { w with handed := w.handed ++ [msg] }.signal := by
  have hq : ({ msg_list := w.mQ.msg_list } : MsgQ α) = w.mQ := by rw [← h]
  simp [MsgTask.sendMsg, MsgQ.snd, linked_list_add, h, hq]

theorem sendMsg_enqueued (h : w.mQ.unblocked = false) (msg : α) :
    w.sendMsg msg true =
      { w with
        mQ := { w.mQ with msg_list := msg :: w.mQ.msg_list }
        handed := w.handed ++ [msg]
        enqueued := w.enqueued ++ [msg] }.signal := by
  simp [MsgTask.sendMsg, MsgQ.snd, linked_list_add, h]

theorem Inv.sendMsg (h : w.Inv) (hgone : w.gone = 0) (msg : α) (alloc : Bool) :
    (w.sendMsg msg alloc).Inv := by
  cases h
  cases hunblocked : w.mQ.unblocked with
  | true =>
    rw [sendMsg_of_unblocked hunblocked]
    constructor <;> assumption
  | false =>
    cases alloc with
    | false =>
      rw [sendMsg_no_memory hunblocked]
      obtain ⟨task, hsignal, htask⟩ := signal_eq { w with handed := w.handed ++ [msg] }
      rw [hsignal]
      constructor <;> first | assumption | grind -linarith [TaskPc.taken, TaskPc.handled]
    | true =>
      rw [sendMsg_enqueued hunblocked]
      obtain ⟨task, hsignal, htask⟩ := signal_eq
        { w with
          mQ := { w.mQ with msg_list := msg :: w.mQ.msg_list }
          handed := w.handed ++ [msg]
          enqueued := w.enqueued ++ [msg] }
      rw [hsignal]
      constructor <;> first | assumption | grind -linarith [TaskPc.taken, TaskPc.handled]

theorem Inv.advance {e : MsgTaskEvent α} (h : w.Inv) (hallowed : w.Allowed e) :
    (w.advance e).Inv := by
  cases e with
  | sendMsg msg alloc => exact h.sendMsg hallowed msg alloc
  | task => exact h.taskStep
  | wake =>
    unfold MsgTask.advance
    dsimp only
    split
    · next signalled ht => exact h.receive (.inl ⟨_, ht⟩)
    · exact h
  | destroy =>
    unfold MsgTask.advance
    dsimp only
    split
    · cases h
      constructor <;> first | assumption | grind -linarith
    · exact h
  | destroyer => exact h.destroyStep

/-- How many steps of the task are left at most, once the queue is unblocked. -/
def rank : TaskPc α → Nat
  | .none | .ended => 0
  | .leave => 1
  | .rcv => 2
  | .delete _ => 3
  | .proc _ => 4
  | .wait _ => 5

theorem rank_taskStep (h : w.Inv) (hunblocked : w.mQ.unblocked = true) :
    rank w.taskStep.task = 0 ∨ rank w.taskStep.task < rank w.task := by
  have hreceive : rank w.receive.task ≤ 4 := by
    unfold receive
    have hwaits : w.mQ.waits = false := by simp [MsgQ.waits, hunblocked]
    rw [if_neg (by simp [hwaits])]
    split <;> simp [rank]
  unfold taskStep
  split
  · next ht => simp [rank, hunblocked, ht]
  · next ht =>
    rw [ht]
    exact .inr (Nat.lt_succ_of_le hreceive)
  · next ht => simp [rank, ht]
  · next ht => simp [rank, ht]
  · next ht => simp [rank]
  · next ht => simp [rank, ht]
  · next ht =>
    -- the one who unblocked the queue has signalled
    have := h.waits ht
    simp [MsgQ.waits, hunblocked] at this
  · next ht => simp [rank, ht]

theorem taskStep_keeps (w : MsgTask α) (hunblocked : w.mQ.unblocked = true)
    (hthread : w.task ≠ .none) : w.taskStep.mQ.unblocked = true ∧ w.taskStep.task ≠ .none := by
  have hreceive : w.receive.mQ.unblocked = true ∧ w.receive.task ≠ .none := by
    unfold receive
    split
    · simp [hunblocked]
    · split
      · next htake =>
        obtain ⟨x, hremove, heq⟩ := Option.map_eq_some_iff.1 htake
        obtain ⟨rfl, rfl⟩ := Prod.mk.inj heq
        simp [hunblocked]
      · simp [hunblocked]
  unfold taskStep
  split <;> simp_all [delete]

theorem Inv.ends (h : w.Inv) (hunblocked : w.mQ.unblocked = true) (hthread : w.task ≠ .none)
    {n : Nat} (hrank : rank w.task ≤ n) : (MsgTask.taskStep^[n] w).task = .ended := by
  induction n generalizing w with
  | zero =>
    rw [Function.iterate_zero_apply]
    cases ht : w.task with
    | none => exact absurd ht hthread
    | ended => rfl
    | _ => simp [ht, rank] at hrank
  | succ n ih =>
    rw [Function.iterate_succ_apply]
    obtain ⟨hkeeps, hthread⟩ := w.taskStep_keeps hunblocked hthread
    refine ih h.taskStep hkeeps hthread ?_
    have := rank_taskStep h hunblocked
    omega

theorem rank_le (t : TaskPc α) : rank t ≤ 5 := by
  cases t <;> simp [rank]

theorem Inv.right (h : w.Inv) : w.Right w.enqueued := by
  have hend (hgone : w.gone ≠ 0) : w.task = .ended ∨ w.task = .none ∧ w.destroyer = .done :=
    Classical.not_not.1 fun hend => hgone (h.there hend)
  refine ⟨?_, ?_, ?_, ?_, ?_, fun hfinished => h.gone ?_, ?_⟩
  · rw [← h.order, List.append_assoc]
    exact List.prefix_append _ _
  · have hsub : w.deleted.Subperm (w.processed ++ w.flushed) :=
      h.deleted ▸ (List.sublist_append_left _ _).subperm
    have hflushed : w.flushed.Subperm (w.task.taken ++ (w.flushed ++ w.mQ.msg_list).reverse) := by
      refine List.Subperm.trans ?_ (List.sublist_append_right _ _).subperm
      exact (List.sublist_append_left _ _).subperm.trans (List.reverse_perm _).symm.subperm
    rw [← h.order, List.append_assoc]
    exact hsub.trans ((List.subperm_append_left _).2 hflushed)
  · intro hgone
    have htask : w.task.taken = [] ∧ w.task.handled = [] := by
      rcases hend hgone with ht | ⟨ht, -⟩ <;> rw [ht] <;> exact ⟨rfl, rfl⟩
    have horder := h.order
    have hdeleted := h.deleted
    rw [htask.1, h.empty hgone, List.append_nil, List.append_nil] at horder
    rw [htask.2, List.append_nil] at hdeleted
    rw [← horder, hdeleted]
    exact (List.reverse_perm _).symm.append_left _
  · by_cases hend : w.task = .ended ∨ w.task = .none ∧ w.destroyer = .done
    · exact Nat.le_of_eq (h.gone hend)
    · rw [h.there hend]
      exact Nat.zero_le 1
  · intro hgone
    rcases hend hgone with ht | ⟨-, hd⟩
    · exact h.leave (.inr ht)
    · exact h.unblocked.2 (.inr (.inr hd))
  · rcases hfinished with ⟨hd, ht | ht⟩
    · exact .inr ⟨ht, hd⟩
    · exact .inl ht
  · intro hunblocked hthread
    exact h.ends hunblocked hthread (rank_le _)

theorem receive_sent (w : MsgTask α) :
    w.receive.handed = w.handed ∧ w.receive.enqueued = w.enqueued := by
  unfold receive
  split
  · exact ⟨rfl, rfl⟩
  · split <;> exact ⟨rfl, rfl⟩

theorem advance_sent {e : MsgTaskEvent α} (h : w.enqueued = w.handed) (hmeets : w.Meets e) :
    (w.advance e).enqueued = (w.advance e).handed := by
  have hreceive : w.receive.enqueued = w.receive.handed := by
    rw [w.receive_sent.1, w.receive_sent.2, h]
  cases e with
  | sendMsg msg alloc =>
    obtain ⟨-, hunblocked, rfl⟩ := hmeets
    obtain ⟨task, hsignal, -⟩ := signal_eq
      { w with
        mQ := { w.mQ with msg_list := msg :: w.mQ.msg_list }
        handed := w.handed ++ [msg]
        enqueued := w.enqueued ++ [msg] }
    unfold advance
    dsimp only
    rw [sendMsg_enqueued hunblocked, hsignal, h]
  | task =>
    unfold advance taskStep
    dsimp only
    split
    · split <;> assumption
    all_goals assumption
  | wake =>
    unfold advance
    dsimp only
    split <;> assumption
  | destroy =>
    unfold advance
    dsimp only
    split <;> exact h
  | destroyer =>
    obtain ⟨task, hsignal, -⟩ := w.signal_eq
    unfold advance destroyStep
    dsimp only
    rw [hsignal]
    split <;> exact h

/-- **The messages of a task.** Let each be sent while the queue is not unblocked and there is
    memory for its element. Then in every order of the steps all of them are handled in their order
    or deleted unhandled, none twice, and the task deletes itself once, after the queue was
    unblocked. -/
theorem run_msgTask {started : Bool} {tr : List (MsgTaskEvent α × Unit)} {w : MsgTask α}
    (run : Run step Meets (make started) tr w) : w.Right w.handed := by
  have hinv : w.Inv ∧ w.enqueued = w.handed := by
    refine run.invariant (fun _ w => w.Inv ∧ w.enqueued = w.handed) ⟨inv_make started, rfl⟩ ?_
    rintro tr w e w' u ⟨hinv, hsent⟩ hmeets hstep
    obtain ⟨rfl, rfl⟩ := ok_pair hstep
    have hallowed : w.Allowed e := by
      cases e with
      | sendMsg msg alloc => exact hmeets.1
      | _ => trivial
    exact ⟨hinv.advance hallowed, advance_sent hsent hmeets⟩
  exact hinv.2 ▸ hinv.1.right

theorem run_enqueued {started : Bool} {tr : List (MsgTaskEvent α × Unit)} {w : MsgTask α}
    (run : Run step Allowed (make started) tr w) : w.Right w.enqueued := by
  have hinv : w.Inv := by
    refine run.invariant (fun _ w => w.Inv) (inv_make started) ?_
    rintro tr w e w' u hinv hallowed hstep
    obtain ⟨rfl, rfl⟩ := ok_pair hstep
    exact hinv.advance hallowed
  exact hinv.right

/-- The first of two messages is handled, the second deleted with the task. -/
def oneOfTwo : List (MsgTaskEvent Nat) :=
  [.sendMsg 1 true, .sendMsg 2 true, .task, .task, .task, .destroy, .destroyer, .task, .destroyer,
    .task]

theorem run_msgTask_two :
    ∃ tr w, Run step Meets (make true : MsgTask Nat) tr w ∧ w.processed = [1] ∧ w.deleted = [1, 2] ∧
      w.Right w.handed := by
  obtain ⟨tr, w, run, -, hw⟩ : ∃ tr w, Run step Meets (make true : MsgTask Nat) tr w ∧
      tr.map Prod.fst = oneOfTwo ∧ (w.processed, w.deleted) = ([1], [1, 2]) :=
    Run.exists_of_allMeet (g := fun w : MsgTask Nat => (w.processed, w.deleted)) (by decide +kernel)
      (by decide +kernel)
  obtain ⟨hprocessed, hdeleted⟩ := Prod.mk.inj hw
  exact ⟨tr, w, run, hprocessed, hdeleted, run_msgTask run⟩

/-- A message comes between the end of the queue and that of the task. -/
def lateMessage : List (MsgTaskEvent Nat) :=
  [.destroy, .destroyer, .sendMsg 1 true, .task, .task, .destroyer]

/-- Two are accepted, and a third comes too late. -/
theorem run_enqueued_late : ∃ tr w, Run step Allowed (make true : MsgTask Nat) tr w ∧
    w.handed = [1, 2, 3] ∧ w.enqueued = [1, 2] ∧ w.Right w.enqueued := by
  obtain ⟨tr, w, run, -, hw⟩ : ∃ tr w, Run step Allowed (make true : MsgTask Nat) tr w ∧
      tr.map Prod.fst = oneOfTwo.take 7 ++ .sendMsg 3 true :: oneOfTwo.drop 7 ∧
        (w.handed, w.enqueued) = ([1, 2, 3], [1, 2]) :=
    Run.exists_of_allMeet (g := fun w : MsgTask Nat => (w.handed, w.enqueued)) (by decide +kernel)
      (by decide +kernel)
  obtain ⟨hhanded, henqueued⟩ := Prod.mk.inj hw
  exact ⟨tr, w, run, hhanded, henqueued, run_enqueued run⟩

/-- Nobody deletes it. -/
theorem msgTask_late :
    ∃ tr w, Run step Allowed (make true : MsgTask Nat) tr w ∧ w.Finished ∧ ¬ w.Right w.handed := by
  obtain ⟨tr, w, run, -, hw⟩ : ∃ tr w, Run step Allowed (make true : MsgTask Nat) tr w ∧
      tr.map Prod.fst = lateMessage ∧
        (w.destroyer, w.task, w.gone, w.deleted, w.handed) = (.done, .ended, 1, [], [1]) :=
    Run.exists_of_allMeet
      (g := fun w : MsgTask Nat => (w.destroyer, w.task, w.gone, w.deleted, w.handed))
      (by decide +kernel) (by decide +kernel)
  simp only [Prod.mk.injEq] at hw
  obtain ⟨hdestroyer, htask, hgone, hdeleted, hhanded⟩ := hw
  refine ⟨tr, w, run, ⟨hdestroyer, .inr htask⟩, fun hright => ?_⟩
  have hperm := hright.deleted (by rw [hgone]; exact Nat.one_ne_zero)
  rw [hdeleted, hhanded] at hperm
  exact absurd hperm.length_eq (by decide)

end MsgTask

end Nx508j.Loc
