import Mathlib.Data.List.Basic
import Nx508j.Lib.Memory

/-! # The event loop

An event is watched for a file descriptor, waits on the timer list, or has been moved to the list of
those that are fired in the current turn of the loop. Calls from any thread, callbacks included, come
between the parts of a turn; each is done under one lock. An event has one pair of links only. A call
that puts it on a list when it is on one makes the links useless, and has no result here. -/

namespace Nx508j.Ril

open Nx508j.Lib Function

/-- `MAX_FD_EVENTS` -/
def maxFdEvents : Nat := 8

/-- `struct ril_event`, without its links. The callback is known by the event. Times are in
    microseconds. -/
structure RilEvent where
  fd : Int := 0
  index : Int := -1
  persist : Bool := false
  timeout : Int := 0
deriving DecidableEq, Repr

/-- What the loop does next. `fire ev` goes on with this event of the pending list. -/
inductive LoopPc where
  | start
  | select
  | timeouts (rfds : List Int) (n : Nat)
  | readReadies (rfds : List Int) (n : Nat)
  | fire (ev : Option Nat)
  | call (ev : Nat) (next : Option Nat)
deriving DecidableEq, Repr

/-- The structures of the loop. `deleted` says which events were deleted and not added since, and
    `fired` which callbacks were invoked, with whether their event was then deleted. -/
structure RilLoop where
  event : Nat → RilEvent := fun _ => {}
  watch_table : Nat → Option Nat := fun _ => none
  timer_list : List Nat := []
  pending_list : List Nat := []
  readFds : Int → Bool := fun _ => false
  nfds : Int := 0
  now : Int := 0
  pc : LoopPc := .start
  rfds : Int → Bool := fun _ => false
  deleted : Nat → Bool := fun _ => false
  fired : List (Nat × Bool) := []

/-- The calls, and the parts of a turn. `select` says which descriptors are ready. -/
inductive RilCall where
  | tick (now : Int)
  | set (ev : Nat) (fd : Int) (persist : Bool)
  | add (ev : Nat)
  | timerAdd (ev : Nat) (tv : Option Int)
  | del (ev : Nat)
  | select (ready : List Int)
  | turn
deriving DecidableEq, Repr

namespace RilLoop

def setEvent (ev : Nat) (f : RilEvent → RilEvent) (s : RilLoop) : RilLoop :=
  { s with event := update s.event ev (f (s.event ev)) }

/-- The event is on a list. -/
def Linked (s : RilLoop) (ev : Nat) : Prop := ev ∈ s.timer_list ∨ ev ∈ s.pending_list

instance (s : RilLoop) (ev : Nat) : Decidable (s.Linked ev) := by
  unfold Linked
  infer_instance

/-- The indices of the watch table. -/
def indices : List Nat := List.range maxFdEvents

/-- `removeWatch` -/
def removeWatch (ev : Nat) (index : Nat) (s : RilLoop) : RilLoop :=
  let fd := (s.event ev).fd
  let watch_table := update s.watch_table index none
  let s := s.setEvent ev fun e => { e with index := -1 }
  { s with
    watch_table := watch_table
    readFds := update s.readFds fd false
    nfds := if fd + 1 = s.nfds then
        (indices.filterMap watch_table).foldl (fun n rev => max n (s.event rev).fd) 0 + 1
      else s.nfds }

/-! ## The calls -/

/-- `ril_event_set`, which clears the links. -/
def ril_event_set (ev : Nat) (fd : Int) (persist : Bool) (s : RilLoop) : Except Fault RilLoop :=
  if s.Linked ev then .error .diverges
  else .ok (s.setEvent ev fun _ => { fd := fd, persist := persist })

def ril_event_add (ev : Nat) (s : RilLoop) : RilLoop :=
  match indices.find? fun i => s.watch_table i = none with
  | none => s
  | some i =>
    let s := s.setEvent ev fun e => { e with index := i }
    let fd := (s.event ev).fd
    { s with
      watch_table := update s.watch_table i (some ev)
      readFds := update s.readFds fd true
      nfds := max s.nfds (fd + 1)
      deleted := update s.deleted ev false }

/-- `ril_timer_add` keeps the list sorted. -/
def ril_timer_add (ev : Nat) (tv : Option Int) (s : RilLoop) : Except Fault RilLoop :=
  match tv with
  | none => .ok s
  | some tv =>
    if s.Linked ev then .error .diverges
    else
      let timeout := s.now + tv
      let sooner := fun rev => decide ((s.event rev).timeout < timeout)
      .ok { s.setEvent ev fun e => { e with fd := -1, timeout := timeout } with
        timer_list := s.timer_list.takeWhile sooner ++ ev :: s.timer_list.dropWhile sooner
        deleted := update s.deleted ev false }

def ril_event_del (ev : Nat) (s : RilLoop) : RilLoop :=
  let index := (s.event ev).index
  let deleted := { s with deleted := update s.deleted ev true }
  if index < 0 ∨ (maxFdEvents : Int) ≤ index then deleted
  else deleted.removeWatch ev index.toNat

/-! ## A turn of the loop -/

/-- `addToList` with the pending list. -/
def addToPending (ev : Nat) (s : RilLoop) : Except Fault RilLoop :=
  if s.Linked ev then .error .diverges
  else .ok { s with pending_list := s.pending_list ++ [ev] }

/-- `processTimeouts` goes on with this event of the timer list. -/
def expire (tev : Nat) (s : RilLoop) : Except Fault RilLoop :=
  { s with timer_list := s.timer_list.erase tev }.addToPending tev

def processTimeouts (s : RilLoop) : Except Fault RilLoop :=
  (s.timer_list.takeWhile fun tev => decide ((s.event tev).timeout < s.now)).foldlM
    (fun s tev => s.expire tev) s

/-- `processReadReadies` from this index on. -/
def readReadies (rfds : List Int) : List Nat → Nat → RilLoop → Except Fault RilLoop
  | [], _, s => .ok s
  | _, 0, s => .ok s
  | i :: is, n + 1, s =>
    match s.watch_table i with
    | none => readReadies rfds is (n + 1) s
    | some rev =>
      if (s.event rev).fd ∈ rfds then do
        let s ← s.addToPending rev
        readReadies rfds is n (if (s.event rev).persist then s else s.removeWatch rev i)
      else readReadies rfds is (n + 1) s

/-- `select` answers with descriptors that it was asked about. -/
def select (ready : List Int) (s : RilLoop) : RilLoop :=
  let rfds := ready.filter s.rfds
  { s with pc := .timeouts rfds rfds.length }

def turn (s : RilLoop) : Except Fault RilLoop :=
  match s.pc with
  | .start => .ok { s with rfds := fun fd => s.readFds fd && decide (fd < s.nfds), pc := .select }
  | .select => .ok s
  | .timeouts rfds n => do
      let s ← s.processTimeouts
      .ok { s with pc := .readReadies rfds n }
  | .readReadies rfds n => do
      let s ← readReadies rfds indices n s
      .ok { s with pc := .fire s.pending_list.head? }
  | .fire none => .ok { s with pc := .start }
  | .fire (some ev) =>
    -- the next event is read before this one is taken off the list
    let next := (s.pending_list.dropWhile (· ≠ ev)).tail.head?
    .ok { s with pending_list := s.pending_list.erase ev, pc := .call ev next }
  | .call ev next => .ok { s with fired := s.fired ++ [(ev, s.deleted ev)], pc := .fire next }

def advance (s : RilLoop) (e : RilCall) : Except Fault RilLoop :=
  match e with
  | .tick now => .ok (if s.now ≤ now then { s with now := now } else s)
  | .set ev fd persist => s.ril_event_set ev fd persist
  | .add ev => .ok (s.ril_event_add ev)
  | .timerAdd ev tv => s.ril_timer_add ev tv
  | .del ev => .ok (s.ril_event_del ev)
  | .select ready => .ok (if s.pc = .select then s.select ready else s)
  | .turn => s.turn

def step (s : RilLoop) (e : RilCall) : Except Fault (RilLoop × Unit) := do
  let s ← s.advance e
  .ok (s, ())

end RilLoop

end Nx508j.Ril
