import Nx508j.Lib.HeapList

/-! # The message queue

Messages are linked from `Head` on. When the last one is taken, `Tail` stays at it, and the message
is deleted while `Tail` still points to it; a new message may even get its address. Nothing goes
wrong as `Tail` is used only if there is a `Head`. -/

namespace Nx508j.Ipacm

open Nx508j.Lib Function

/-! ## The queue -/

/-- `MessageQueue`, and the messages on the heap. -/
structure MessageQueue (ν : Type) where
  heap : Heap ν := fun _ => none
  Head : Option Nat := none
  Tail : Option Nat := none

namespace MessageQueue

variable {ν : Type} (q : MessageQueue ν)

/-- `new Message()`, with the event that `PostEvt` copies into it. -/
def new (item : Nat) (evt : ν) : MessageQueue ν :=
  { q with heap := update q.heap item (some ⟨evt, none⟩) }

def enqueue (item : Nat) : Except Fault (MessageQueue ν) :=
  match q.Head with
  | none => .ok { q with Tail := some item, Head := some item }
  | some head => do
      let heap ← match q.Tail with
        | none => q.heap.setNext (some head) (some item)
        | some tail => q.heap.setNext (some tail) (some item)
      .ok { q with heap, Tail := some item }

/-- The message at the head, which is taken, or NULL. -/
def dequeue : Except Fault (MessageQueue ν × Option Nat) :=
  match q.Head with
  | none => .ok (q, none)
  | some tmp => do
      let head ← q.heap.deref (some tmp)
      .ok ({ q with Head := head.next }, some tmp)

end MessageQueue

/-! ## What is done with it -/

/-- The calls under the mutex, and the deletion of a message that was returned. -/
inductive QueueCall (ν : Type) where
  | post (item : Nat) (evt : ν)
  | dequeue
  | delete (item : Nat)

/-- The queue, and the messages that were returned and not deleted. -/
structure QueueWorld (ν : Type) where
  queue : MessageQueue ν := {}
  returned : List Nat := []

namespace QueueWorld

variable {ν : Type}

/-- A call, with the message that a `dequeue` returns. -/
def step (w : QueueWorld ν) : QueueCall ν → Except Fault (QueueWorld ν × Option (Nat × ν))
  | .post item evt => do
      let queue ← (w.queue.new item evt).enqueue item
      .ok ({ w with queue }, none)
  | .dequeue => do
      let (queue, item) ← w.queue.dequeue
      match item with
      | none => .ok ({ w with queue }, none)
      | some item => do
          let message ← queue.heap.deref (some item)
          .ok ({ queue, returned := item :: w.returned }, some (item, message.val))
  | .delete item =>
    .ok ({ queue := { w.queue with heap := w.queue.heap.free item }
           returned := w.returned.erase item }, none)

/-- What can happen: `new` gives memory that is not in use, which may have been in use before, and
    only what was returned is deleted. -/
def Possible (w : QueueWorld ν) : QueueCall ν → Prop
  | .post item _ => w.queue.heap item = none
  | .dequeue => True
  | .delete item => item ∈ w.returned

/-- The messages that were posted, in order. -/
def posted (tr : List (QueueCall ν × Option (Nat × ν))) : List (Nat × ν) :=
  tr.filterMap fun c =>
    match c.1 with
    | .post item evt => some (item, evt)
    | .dequeue | .delete _ => none

/-- The messages that `dequeue` returned, in order. -/
def dequeued (tr : List (QueueCall ν × Option (Nat × ν))) : List (Nat × ν) :=
  tr.filterMap Prod.snd

/-- **The property.** What was taken is the start of what was posted, what is linked from `Head` is
    the rest, each call goes through, and `dequeue` returns NULL just if nothing is left. -/
structure Fifo (tr : List (QueueCall ν × Option (Nat × ν))) (w : QueueWorld ν) : Prop where
  taken : dequeued tr <+: posted tr
  linked : w.queue.heap.Seg w.queue.Head ((posted tr).drop (dequeued tr).length) none
  succeeds : ∀ call, w.Possible call → ∃ w' item, w.step call = .ok (w', item)
  null : ∀ w' item, w.step .dequeue = .ok (w', item) → (item = none ↔ dequeued tr = posted tr)

/-! ## Why it holds -/

/-- The messages of `rest` are linked. `Tail` is at the last of them, but if there is none it may be
    anywhere. -/
structure Inv (rest : List (Nat × ν)) (w : QueueWorld ν) : Prop where
  linked : w.queue.heap.Seg w.queue.Head rest none
  tail : ∀ l x, rest = l ++ [x] → w.queue.Tail = some x.1
  nodup : (w.returned ++ Heap.addrs rest).Nodup
  held : ∀ a ∈ w.returned, w.queue.heap a ≠ none

variable {w w' : QueueWorld ν} {rest : List (Nat × ν)} {item : Nat}

theorem Inv.not_mem (h : w.Inv rest) (hfree : w.queue.heap item = none) :
    item ∉ w.returned ∧ item ∉ Heap.addrs rest :=
  ⟨fun hmem => h.held item hmem hfree, fun hmem => h.linked.ne_none hmem hfree⟩

/-- A message is put behind the last one, or is the only one. -/
theorem enqueue_spec (h : w.Inv rest) (hfree : w.queue.heap item = none) (evt : ν) :
    ∃ queue, (w.queue.new item evt).enqueue item = .ok queue ∧
      Inv (rest ++ [(item, evt)]) { w with queue } := by
  obtain ⟨hreturned, hrest⟩ := h.not_mem hfree
  have hnew := h.linked.update hrest (some ⟨evt, none⟩)
  have hnodup : (w.returned ++ Heap.addrs (rest ++ [(item, evt)])).Nodup := by
    have hperm : (w.returned ++ Heap.addrs (rest ++ [(item, evt)])).Perm
        (item :: (w.returned ++ Heap.addrs rest)) := by
      unfold Heap.addrs
      rw [List.map_append, ← List.append_assoc]
      exact List.perm_append_comm
    refine hperm.nodup_iff.2 (List.nodup_cons.2 ⟨?_, h.nodup⟩)
    rw [List.mem_append]
    exact not_or.2 ⟨hreturned, hrest⟩
  have hheld : ∀ {heap : Heap ν}, (∀ a, w.queue.heap a ≠ none → heap a ≠ none) →
      ∀ a ∈ w.returned, heap a ≠ none := fun hkeep a ha => hkeep a (h.held a ha)
  have hkeep : ∀ a, w.queue.heap a ≠ none →
      update w.queue.heap item (some ⟨evt, none⟩) a ≠ none := by
    intro a ha
    by_cases heq : a = item
    · rw [heq, update_self]
      exact Option.some_ne_none _
    · rwa [update_of_ne heq]
  have htail : ∀ l (x : Nat × ν), rest ++ [(item, evt)] = l ++ [x] → some item = some x.1 := by
    intro l x heq
    obtain ⟨-, hx⟩ := List.append_inj' heq rfl
    rw [← (List.cons.inj hx).1]
  unfold MessageQueue.enqueue MessageQueue.new
  rcases List.eq_nil_or_concat rest with rfl | ⟨l, x, rfl⟩
  · have hhead : w.queue.Head = none := h.linked
    simp only [hhead]
    refine ⟨_, rfl, ⟨rfl, none, update_self .., rfl⟩, htail, hnodup, hheld hkeep⟩
  · simp only [List.concat_eq_append] at *
    have hx : x.1 ∉ Heap.addrs l := by
      have hl := (List.nodup_append.1 h.nodup).2.1
      rw [Heap.addrs, List.map_append] at hl
      exact fun hmem => (List.nodup_append.1 hl).2.2 _ hmem _ (by simp) rfl
    obtain ⟨c, hc, hbent⟩ := hnew.bend hx (some item)
    obtain ⟨a, hhead⟩ : ∃ a, w.queue.Head = some a := by
      rw [h.linked.first_eq]
      cases l with
      | nil => exact ⟨_, rfl⟩
      | cons y l => exact ⟨_, rfl⟩
    have htl := h.tail l x rfl
    simp only [hhead, htl] at hbent ⊢
    rw [Heap.setNext_ok hc, ok_bind]
    have hne : item ≠ x.1 := by
      rintro rfl
      exact hrest (by simp [Heap.addrs])
    refine ⟨_, rfl, ?_, htail, hnodup, hheld fun a ha => ?_⟩
    · refine Heap.Seg.append.2 ⟨some item, hbent, rfl, none, ?_, rfl⟩
      dsimp only
      rw [update_of_ne hne, update_self]
    · dsimp only
      by_cases heq : a = x.1
      · rw [heq, update_self]
        exact Option.some_ne_none _
      · rw [update_of_ne heq]
        exact hkeep a ha

/-- The first message is taken. -/
theorem dequeue_spec (h : w.Inv rest) : ∃ w', w.step .dequeue = .ok (w', rest.head?) ∧
    w'.Inv rest.tail := by
  unfold step MessageQueue.dequeue
  cases rest with
  | nil =>
    have hhead : w.queue.Head = none := h.linked
    simp only [hhead, ok_bind]
    exact ⟨_, rfl, h⟩
  | cons x rest =>
    obtain ⟨hhead, next, hx, hlinked⟩ := h.linked
    simp only [hhead, Heap.deref_ok hx, ok_bind]
    refine ⟨_, rfl, hlinked, fun l y heq => h.tail (x :: l) y (congrArg (x :: ·) heq), ?_,
      ?_⟩
    · exact List.perm_middle.nodup_iff.1 h.nodup
    · intro a ha
      rcases List.mem_cons.1 ha with rfl | ha
      · rw [hx]
        exact Option.some_ne_none _
      · exact h.held a ha

/-- A message that was returned is deleted. -/
theorem delete_spec (h : w.Inv rest) (hitem : item ∈ w.returned) :
    Inv rest { queue := { w.queue with heap := w.queue.heap.free item }
               returned := w.returned.erase item } := by
  obtain ⟨hreturned, -, hapart⟩ := List.nodup_append.1 h.nodup
  have hnot : item ∉ Heap.addrs rest := fun hmem => hapart item hitem item hmem rfl
  refine ⟨h.linked.update hnot none, h.tail, ?_, fun a ha => ?_⟩
  · exact h.nodup.sublist (List.Sublist.append_right List.erase_sublist _)
  · obtain ⟨hne, ha⟩ := (hreturned.mem_erase_iff).1 ha
    have hsame : w.queue.heap.free item a = w.queue.heap a := update_of_ne hne ..
    exact fun hnone => h.held a ha (hsame ▸ hnone)

theorem posted_snoc (tr : List (QueueCall ν × Option (Nat × ν)))
    (call : QueueCall ν) (ret : Option (Nat × ν)) :
    posted (tr ++ [(call, ret)]) = posted tr ++ posted [(call, ret)] :=
  List.filterMap_append

theorem dequeued_snoc (tr : List (QueueCall ν × Option (Nat × ν)))
    (call : QueueCall ν) (ret : Option (Nat × ν)) :
    dequeued (tr ++ [(call, ret)]) = dequeued tr ++ ret.toList := by
  unfold dequeued
  rw [List.filterMap_append]
  cases ret with
  | none => rfl
  | some x => rfl

/-- What one call keeps. -/
theorem step_inv {tr : List (QueueCall ν × Option (Nat × ν))} {call : QueueCall ν}
    {ret : Option (Nat × ν)} (h : w.Inv rest) (htr : posted tr = dequeued tr ++ rest)
    (hpossible : w.Possible call) (hstep : w.step call = .ok (w', ret)) :
    ∃ rest', posted (tr ++ [(call, ret)]) = dequeued (tr ++ [(call, ret)]) ++ rest' ∧
      w'.Inv rest' := by
  rw [posted_snoc, dequeued_snoc, htr]
  cases call with
  | post item evt =>
    obtain ⟨queue, hqueue, hinv⟩ := enqueue_spec h hpossible evt
    rw [step, hqueue, ok_bind] at hstep
    cases hstep
    refine ⟨rest ++ [(item, evt)], ?_, hinv⟩
    simp [posted]
  | dequeue =>
    obtain ⟨w₁, hw₁, hinv⟩ := dequeue_spec h
    cases hw₁.symm.trans hstep
    refine ⟨rest.tail, ?_, hinv⟩
    cases rest with
    | nil => simp [posted]
    | cons x rest => simp [posted]
  | delete item =>
    cases hstep
    refine ⟨rest, ?_, delete_spec h hpossible⟩
    simp [posted]

/-- In every run, however often the queue is emptied and filled again, it is first in, first out. -/
theorem run_fifo {tr : List (QueueCall ν × Option (Nat × ν))} (run : Run step Possible {} tr w) :
    Fifo tr w := by
  obtain ⟨rest, htr, hinv⟩ : ∃ rest, posted tr = dequeued tr ++ rest ∧ w.Inv rest := by
    refine run.invariant (fun tr w => ∃ rest, posted tr = dequeued tr ++ rest ∧ w.Inv rest)
      ⟨[], rfl, rfl, by simp, by simp [Heap.addrs], by simp⟩ ?_
    rintro tr w call w' ret ⟨rest, htr, hinv⟩ hpossible hstep
    exact step_inv hinv htr hpossible hstep
  obtain ⟨w₁, hw₁, -⟩ := dequeue_spec hinv
  refine ⟨htr ▸ List.prefix_append .., ?_, ?_, ?_⟩
  · rw [htr, List.drop_left]
    exact hinv.linked
  · intro call hpossible
    cases call with
    | post item evt =>
      obtain ⟨queue, hqueue, -⟩ := enqueue_spec hinv hpossible evt
      rw [step, hqueue, ok_bind]
      exact ⟨_, _, rfl⟩
    | dequeue => exact ⟨w₁, _, hw₁⟩
    | delete item => exact ⟨_, _, rfl⟩
  · intro w' item hstep
    cases hw₁.symm.trans hstep
    rw [htr]
    cases rest with
    | nil => simp
    | cons x rest => simp

instance decidablePossible {ν : Type} [DecidableEq ν] (w : QueueWorld ν) :
    (call : QueueCall ν) → Decidable (w.Possible call)
  | .post item _ => inferInstanceAs (Decidable (w.queue.heap item = none))
  | .dequeue => instDecidableTrue
  | .delete item => inferInstanceAs (Decidable (item ∈ w.returned))

/-- The queue is emptied, and a new message gets the address to which `Tail` points. -/
def addressReused : List (QueueCall Nat) :=
  [.post 1 10, .post 2 20, .dequeue, .delete 1, .dequeue, .dequeue, .delete 2, .post 2 30,
    .post 1 40, .dequeue]

theorem run_fifo_reused : ∃ tr w, Fifo tr w ∧ tr.map Prod.fst = addressReused ∧
    w.queue.Head = some 1 := by
  have hruns : ∃ tr w, Run step Possible ({} : QueueWorld Nat) tr w ∧
      tr.map Prod.fst = addressReused ∧ w.queue.Head = some 1 :=
    Run.exists_of_allMeet (g := fun w : QueueWorld Nat => w.queue.Head) (by decide +kernel)
      (by decide +kernel)
  obtain ⟨tr, w, run, hcalls, hhead⟩ := hruns
  exact ⟨tr, w, run_fifo run, hcalls, hhead⟩

end QueueWorld

/-! ## The thread that processes the messages -/

/-- Where the thread of `Process` is: before it locks the mutex, in `pthread_cond_wait`, or with an
    item before the call of `callback_ptr` or before `delete`. -/
inductive ProcessPc where
  | lock
  | waiting
  | callback (item : Nat)
  | delete (item : Nat)

/-- `PostEvt` of any thread, the callback included; the next step of the thread; and a return of
    `pthread_cond_wait` without a signal. -/
inductive ProcessEvent (ν : Type) where
  | postEvt (item : Nat) (data : ν)
  | process
  | wakeup

/-- The queue, the thread, and the events that it has given to `ProcessEvt`. -/
structure ProcessWorld (ν : Type) extends QueueWorld ν where
  pc : ProcessPc := .lock
  handled : List ν := []

namespace ProcessWorld

variable {ν : Type}

/-- `pthread_cond_signal`; a thread that wakes up locks and unlocks the mutex and begins anew. -/
def signal : ProcessPc → ProcessPc
  | .waiting => .lock
  | pc => pc

def step (w : ProcessWorld ν) : ProcessEvent ν → Except Fault (ProcessWorld ν × Unit)
  | .postEvt item data => do
      let (queue, _) ← w.toQueueWorld.step (.post item data)
      .ok ({ w with toQueueWorld := queue, pc := signal w.pc }, ())
  | .wakeup => .ok ({ w with pc := signal w.pc }, ())
  | .process =>
    match w.pc with
    | .lock => do
        let (queue, item) ← w.toQueueWorld.step .dequeue
        .ok ({ w with
          toQueueWorld := queue
          pc := item.elim .waiting fun item => .callback item.1 }, ())
    | .waiting => .ok (w, ())
    | .callback item => do
        let message ← w.queue.heap.deref (some item)
        .ok ({ w with handled := w.handled ++ [message.val], pc := .delete item }, ())
    | .delete item => do
        let (queue, _) ← w.toQueueWorld.step (.delete item)
        .ok ({ w with toQueueWorld := queue, pc := .lock }, ())

/-- `new` gives memory that is not in use. -/
def Possible (w : ProcessWorld ν) : ProcessEvent ν → Prop
  | .postEvt item _ => w.queue.heap item = none
  | .process | .wakeup => True

def posted (tr : List (ProcessEvent ν × Unit)) : List ν :=
  tr.filterMap fun c =>
    match c.1 with
    | .postEvt _ data => some data
    | .process | .wakeup => none

/-- **The property.** The events are handled in the order in which they were posted, the thread
    sleeps only when all are and no message is left, and no step uses a message that was deleted. -/
structure Processed (evts : List ν) (w : ProcessWorld ν) : Prop where
  inOrder : w.handled <+: evts
  asleep : w.pc = .waiting → w.handled = evts ∧ w.returned = [] ∧ w.queue.Head = none
  succeeds : ∀ e, w.Possible e → ∃ w', w.step e = .ok (w', ())

/-- What is in the thread's hand at each place, and what is still linked. -/
def Inv (evts : List ν) (w : ProcessWorld ν) : Prop :=
  ∃ rest, w.toQueueWorld.Inv rest ∧
    match w.pc with
    | .lock => w.returned = [] ∧ evts = w.handled ++ rest.map Prod.snd
    | .waiting => w.returned = [] ∧ rest = [] ∧ evts = w.handled
    | .callback item => w.returned = [item] ∧ ∃ message, w.queue.heap item = some message ∧
        evts = w.handled ++ message.val :: rest.map Prod.snd
    | .delete item => w.returned = [item] ∧ evts = w.handled ++ rest.map Prod.snd

variable {w : ProcessWorld ν} {evts : List ν} {e : ProcessEvent ν}

/-- A message that was taken keeps its event while others are put into the queue. -/
theorem enqueue_keeps {q q' : MessageQueue ν} {item a : Nat} {message : Cell ν} (data : ν)
    (h : (q.new item data).enqueue item = .ok q') (hne : a ≠ item)
    (ha : q.heap a = some message) :
    ∃ message', q'.heap a = some message' ∧ message'.val = message.val := by
  have hnew : (q.new item data).heap a = some message := (update_of_ne hne ..).trans ha
  have hset {p : Option Nat} {heap : Heap ν}
      (hheap : (q.new item data).heap.setNext p (some item) = .ok heap) :
      ∃ message', heap a = some message' ∧ message'.val = message.val := by
    unfold Heap.setNext at hheap
    split at hheap
    · cases hheap
    split at hheap
    · cases hheap
    · next hb =>
      cases hheap
      rw [update_apply]
      split
      · next heq =>
        rw [← heq, hnew] at hb
        exact ⟨_, rfl, (congrArg Cell.val (Option.some.inj hb)).symm⟩
      · exact ⟨_, hnew, rfl⟩
  unfold MessageQueue.enqueue at h
  split at h
  · cases h
    exact ⟨_, hnew, rfl⟩
  · split at h
    all_goals
      obtain ⟨heap, hheap, h⟩ := bind_eq_ok h
      cases h
      exact hset hheap

/-- Each step goes through and keeps it. -/
theorem Inv.step (h : Inv evts w) (hp : w.Possible e) :
    ∃ w', w.step e = .ok (w', ()) ∧ Inv (evts ++ posted [(e, ())]) w' := by
  obtain ⟨queue, pc, handled⟩ := w
  obtain ⟨rest, hqueue, hpc⟩ := h
  dsimp only at hqueue hpc
  cases e with
  | postEvt item data =>
    obtain ⟨q, hq, hinv⟩ := QueueWorld.enqueue_spec hqueue hp data
    refine ⟨⟨⟨q, queue.returned⟩, signal pc, handled⟩, ?_, _, hinv, ?_⟩
    · simp only [ProcessWorld.step, QueueWorld.step, hq, ok_bind]
    cases pc with
    | lock => simp [signal, posted, hpc]
    | waiting => simp [signal, posted, hpc]
    | delete taken => simp [signal, posted, hpc]
    | callback taken =>
      obtain ⟨hreturned, message, hmessage, rfl⟩ := hpc
      have hne : taken ≠ item := by
        rintro rfl
        exact absurd (hmessage.symm.trans hp) (by simp)
      obtain ⟨message', hmessage', hval⟩ := enqueue_keeps data hq hne hmessage
      exact ⟨hreturned, message', hmessage', by simp [posted, hval]⟩
  | wakeup =>
    refine ⟨_, rfl, rest, hqueue, ?_⟩
    cases pc <;> simp_all [signal, posted]
  | process =>
    rw [posted, List.filterMap_cons_none rfl, List.filterMap_nil, List.append_nil]
    cases pc with
    | lock =>
      obtain ⟨hreturned, rfl⟩ := hpc
      obtain ⟨w', hw', hinv⟩ := QueueWorld.dequeue_spec hqueue
      refine ⟨⟨w', rest.head?.elim .waiting fun item => .callback item.1, handled⟩, ?_, rest.tail,
        hinv, ?_⟩
      · simp only [ProcessWorld.step, hw', ok_bind]
      cases rest with
      | nil =>
        have hhead : queue.queue.Head = none := hqueue.linked
        simp only [QueueWorld.step, MessageQueue.dequeue, hhead, ok_bind] at hw'
        cases hw'
        exact ⟨hreturned, rfl, List.append_nil _⟩
      | cons x rest =>
        obtain ⟨hhead, next, hx, -⟩ := hqueue.linked
        simp only [QueueWorld.step, MessageQueue.dequeue, hhead, Heap.deref_ok hx, ok_bind] at hw'
        cases hw'
        exact ⟨congrArg (x.1 :: ·) hreturned, _, hx, rfl⟩
    | waiting => exact ⟨_, rfl, rest, hqueue, hpc⟩
    | callback item =>
      obtain ⟨hreturned, message, hmessage, rfl⟩ := hpc
      refine ⟨⟨queue, .delete item, handled ++ [message.val]⟩, ?_, rest, hqueue, hreturned, by simp⟩
      simp only [ProcessWorld.step, Heap.deref_ok hmessage, ok_bind]
    | delete item =>
      obtain ⟨hreturned, rfl⟩ := hpc
      have hmem : item ∈ queue.returned := by simp [hreturned]
      exact ⟨_, rfl, rest, QueueWorld.delete_spec hqueue hmem, by simp [hreturned], rfl⟩

theorem inv_init : Inv [] ({} : ProcessWorld ν) :=
  ⟨[], ⟨rfl, by simp, by simp [Heap.addrs], by simp⟩, rfl, rfl⟩

/-- In every order of the steps, and however often the thread falls asleep. -/
theorem run_process {tr : List (ProcessEvent ν × Unit)} (run : Run step Possible {} tr w) :
    Processed (posted tr) w := by
  have hinv : Inv (posted tr) w := by
    refine run.invariant (fun tr w => Inv (posted tr) w) inv_init ?_
    rintro tr w e w' u h hp hstep
    obtain ⟨w₁, hw₁, hinv⟩ := h.step hp
    obtain ⟨rfl, -⟩ := Prod.mk.inj (Except.ok.inj (hw₁.symm.trans hstep))
    have hposted : posted (tr ++ [(e, u)]) = posted tr ++ posted [(e, ())] := List.filterMap_append
    rwa [hposted]
  refine ⟨?_, fun hpc => ?_, fun e hp => (hinv.step hp).imp fun _ h => h.1⟩
  · obtain ⟨rest, -, hpc⟩ := hinv
    split at hpc
    · exact hpc.2 ▸ List.prefix_append ..
    · exact hpc.2.2 ▸ List.prefix_refl _
    · obtain ⟨-, message, -, heq⟩ := hpc
      exact heq ▸ List.prefix_append ..
    · exact hpc.2 ▸ List.prefix_append ..
  · obtain ⟨rest, hqueue, hinv⟩ := hinv
    simp only [hpc] at hinv
    obtain ⟨hreturned, rfl, heq⟩ := hinv
    exact ⟨heq.symm, hreturned, hqueue.linked⟩

instance decidablePossible [DecidableEq ν] (w : ProcessWorld ν) :
    (e : ProcessEvent ν) → Decidable (w.Possible e)
  | .postEvt item _ => inferInstanceAs (Decidable (w.queue.heap item = none))
  | .process | .wakeup => instDecidableTrue

/-- The thread falls asleep before the first event, and the second comes out of the callback. -/
def postedInCallback : List (ProcessEvent Nat) :=
  [.process, .wakeup, .process, .postEvt 1 10, .process, .process, .postEvt 2 20] ++
    List.replicate 4 .process

theorem run_process_callback : ∃ tr w, Processed (posted tr) w ∧
    tr.map Prod.fst = postedInCallback ∧ w.handled = [10, 20] := by
  have hruns : ∃ tr w, Run step Possible ({} : ProcessWorld Nat) tr w ∧
      tr.map Prod.fst = postedInCallback ∧ w.handled = [10, 20] :=
    Run.exists_of_allMeet (g := fun w : ProcessWorld Nat => w.handled) (by decide +kernel)
      (by decide +kernel)
  obtain ⟨tr, w, run, hcalls, hhandled⟩ := hruns
  exact ⟨tr, w, run_process run, hcalls, hhandled⟩

end ProcessWorld

end Nx508j.Ipacm
