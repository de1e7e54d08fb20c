import Nx508j.Lib.Memory
import Nx508j.Loc.LocHeap

/-! # Timers

A client's `LocTimer` has a `LocTimerDelegate` while it is running. The delegates tick in one of two
containers, a heap each with the descriptor of a kernel timer that is armed for the top. Only the
message task touches the heaps. It takes its messages in the order they were sent: clients send it
the delegates they start and stop, and the polling thread tells it when a kernel timer has expired.
A step here is what one of the threads does before another one can see it. -/

namespace Nx508j.Loc

open Nx508j.Lib Function

/-- `struct timespec`, with the nanoseconds in range. -/
structure Timespec where
  tv_sec : Nat
  tv_nsec : Nat
  tv_nsec_lt : tv_nsec < 1000000000 := by decide
deriving DecidableEq, Repr

namespace Timespec

theorem zero_nsec_lt : 0 < 1000000000 := by decide

def ns (t : Timespec) : Nat := t.tv_sec * 1000000000 + t.tv_nsec

instance : LE Timespec := ⟨fun a b => a.ns ≤ b.ns⟩

instance (a b : Timespec) : Decidable (a ≤ b) := inferInstanceAs (Decidable (a.ns ≤ b.ns))

/-- The time that is so many milliseconds later. -/
def after (timeOutInMs : UInt32) (t : Timespec) : Timespec :=
  let tv_sec := t.tv_sec + timeOutInMs.toNat / 1000
  let tv_nsec := t.tv_nsec + timeOutInMs.toNat % 1000 * 1000000
  if h : 1000000000 ≤ tv_nsec then
    ⟨tv_sec + tv_nsec / 1000000000, tv_nsec % 1000000000, Nat.mod_lt _ (by decide)⟩
  else ⟨tv_sec, tv_nsec, Nat.lt_of_not_le h⟩

/-- `LocTimerDelegate::ranks` of two delegates with these times: the larger time ranks lower. -/
def ranks (self timer : Timespec) : Int :=
  let rank := (timer.tv_sec : Int) - self.tv_sec
  if rank = 0 then (timer.tv_nsec : Int) - self.tv_nsec else rank

def outRanks (self timer : Timespec) : Bool := 0 < self.ranks timer

end Timespec

/-- `LocTimerDelegate`: the object at `addr` with what does not change about it, the client it was
    made for, its time, and which of the two containers it was put into. -/
structure LocTimerDelegate where
  addr : Nat
  client : Nat
  mFutureTime : Timespec
  wakeOnExpire : Bool
deriving DecidableEq, Repr

def LocTimerDelegate.outRanks (self timer : LocTimerDelegate) : Bool :=
  self.mFutureTime.outRanks timer.mFutureTime

/-- The messages of the message task. -/
inductive LocTimerMsg where
  | push (mTimer : LocTimerDelegate)
  | remove (mTimer : LocTimerDelegate)
  | expire (wakeOnExpire : Bool)
deriving DecidableEq, Repr

/-- Where the polling thread is in `LocTimerContainer::expire`. -/
inductive PollPc where
  | disarm
  | removePoll
  | sendMsg
deriving DecidableEq, Repr

/-- A system call or a `delete` that the message task has yet to do for its message. -/
inductive TaskOp where
  | addPoll (wakeOnExpire : Bool)
  | removePoll (wakeOnExpire : Bool)
  | settime (wakeOnExpire : Bool) (value : Timespec)
  | delete (timer : LocTimerDelegate)
deriving DecidableEq, Repr

/-- What the message task is doing. It waits for a message if there is nothing left to run. In the
    message of an expiry it has popped a delegate, it has read its client and is about to stop that,
    the client's delegate was stopped and is to be called, or it looks for the next one to pop. -/
inductive TimerTask where
  | run (ops : List TaskOp)
  | popped (wakeOnExpire : Bool) (timerOfNow : Timespec) (timer : LocTimerDelegate)
  | stopping (wakeOnExpire : Bool) (timerOfNow : Timespec) (timer : LocTimerDelegate) (client : Nat)
  | calling (wakeOnExpire : Bool) (timerOfNow : Timespec) (timer : LocTimerDelegate)
  | looping (wakeOnExpire : Bool) (timerOfNow : Timespec)
deriving DecidableEq, Repr

/-- The two containers are told apart by `wakeOnExpire`. The last four fields are records: the
    delegates that were started, that a client stopped, whose callback was called, with the time, and
    that were deleted. -/
structure LocTimers where
  now : Timespec
  /-- `LocTimer::mTimer` of the clients. -/
  mTimer : Nat → Option LocTimerDelegate := fun _ => none
  /-- `mClient` of the delegates, by address. -/
  mClient : Nat → Option Nat := fun _ => none
  /-- Whether `mContainer` of the delegate is not NULL. -/
  mContainer : Nat → Bool := fun _ => false
  next : Nat := 0
  queue : List LocTimerMsg := []
  mTree : Bool → LocHeapNode LocTimerDelegate := fun _ => .nil
  /-- The time that the kernel timer is armed for. -/
  timerfd : Bool → Option Timespec := fun _ => none
  /-- Whether the descriptor is polled. -/
  epoll : Bool → Bool := fun _ => false
  /-- The containers that `epoll_wait` returned; the polling thread is in `expire` of the first. -/
  ready : List Bool := []
  pollPc : PollPc := .disarm
  task : TimerTask := .run []
  started : List LocTimerDelegate := []
  stopped : List LocTimerDelegate := []
  fired : List (LocTimerDelegate × Timespec) := []
  deleted : List LocTimerDelegate := []

/-- The steps. A client reads the clock at `read`, which may be earlier than now when it sends its
    delegate. -/
inductive TimerEvent where
  | tick (now : Timespec)
  | start (client : Nat) (timeOutInMs : UInt32) (wakeOnExpire : Bool) (read : Timespec)
  | stop (client : Nat)
  | epollWait (ready : List Bool)
  | pollStep
  | taskStep
deriving DecidableEq, Repr

namespace LocTimers

def sendMsg (msg : LocTimerMsg) (s : LocTimers) : LocTimers := { s with queue := s.queue ++ [msg] }

/-! ## Clients -/

/-- `LocTimer::start` of a client that is not running. -/
def start (client : Nat) (timeOutInMs : UInt32) (wakeOnExpire : Bool) (read : Timespec)
    (s : LocTimers) : LocTimers :=
  match s.mTimer client with
  | some _ => s
  | none =>
    let timer : LocTimerDelegate := ⟨s.next, client, read.after timeOutInMs, wakeOnExpire⟩
    { s with
      mTimer := update s.mTimer client (some timer)
      mClient := update s.mClient timer.addr (some client)
      mContainer := update s.mContainer timer.addr true
      next := s.next + 1
      started := s.started ++ [timer] }.sendMsg (.push timer)

/-- `LocTimerDelegate::destroyLocked`. -/
def destroyLocked (timer : LocTimerDelegate) (s : LocTimers) : LocTimers :=
  let s := { s with mClient := update s.mClient timer.addr none }
  if s.mContainer timer.addr then
    { s with mContainer := update s.mContainer timer.addr false }.sendMsg (.remove timer)
  else s

/-- `LocTimer::stop`, with the delegate that was running. It returns true if there was one. -/
def stop (client : Nat) (s : LocTimers) : LocTimers × Option LocTimerDelegate :=
  match s.mTimer client with
  | none => (s, none)
  | some timer =>
    ({ s with mTimer := update s.mTimer client none }.destroyLocked timer, some timer)

/-- A client stops its timer. -/
def clientStop (client : Nat) (s : LocTimers) : LocTimers :=
  match s.stop client with
  | (s, none) => s
  | (s, some timer) => { s with stopped := s.stopped ++ [timer] }

/-! ## The polling thread -/

/-- The descriptor is polled and its timer has expired. -/
def Expired (s : LocTimers) (c : Bool) : Prop :=
  s.epoll c = true ∧ ∃ t ∈ s.timerfd c, t ≤ s.now

instance (s : LocTimers) (c : Bool) : Decidable (s.Expired c) :=
  inferInstanceAs (Decidable (_ ∧ ∃ t ∈ s.timerfd c, _))

/-- `epoll_wait` returns descriptors that have expired. -/
def epollWait (ready : List Bool) (s : LocTimers) : LocTimers :=
  if s.ready = [] ∧ ready.Nodup ∧ ∀ c ∈ ready, s.Expired c then
    { s with ready := ready, pollPc := .disarm }
  else s

/-- One of the three steps of `LocTimerContainer::expire`. -/
def pollStep (s : LocTimers) : LocTimers :=
  match s.ready with
  | [] => s
  | c :: rest =>
    match s.pollPc with
    | .disarm => { s with timerfd := update s.timerfd c none, pollPc := .removePoll }
    | .removePoll => { s with epoll := update s.epoll c false, pollPc := .sendMsg }
    | .sendMsg => { s with ready := rest, pollPc := .disarm }.sendMsg (.expire c)

/-! ## The message task -/

/-- The system calls of `updateSoonestTime`. -/
def updateSoonestTime (c : Bool) (priorTop : Option LocTimerDelegate) (s : LocTimers) :
    List TaskOp :=
  let curTop := (s.mTree c).peek
  if curTop = priorTop then []
  else
    match curTop with
    | none => [.removePoll c, .settime c ⟨0, 0, by decide⟩]
    | some top =>
      if priorTop.all fun p => top.outRanks p then [.addPoll c, .settime c top.mFutureTime]
      else []

/-- A system call of the message task. The time 0 disarms a timer. -/
def runOp (op : TaskOp) (s : LocTimers) : LocTimers :=
  match op with
  | .addPoll c => { s with epoll := update s.epoll c true }
  | .removePoll c => { s with epoll := update s.epoll c false }
  | .settime c value =>
    { s with timerfd := update s.timerfd c (if value.ns = 0 then none else some value) }
  | .delete timer => { s with deleted := s.deleted ++ [timer] }

/-- `MsgTimerPush::proc`. -/
def procPush (timer : LocTimerDelegate) (s : LocTimers) : LocTimers :=
  let c := timer.wakeOnExpire
  let priorTop := (s.mTree c).peek
  let s := { s with
    mTree := update s.mTree c ((s.mTree c).push LocTimerDelegate.outRanks timer) }
  { s with task := .run (s.updateSoonestTime c priorTop) }

/-- `MsgTimerRemove::proc`. -/
def procRemove (timer : LocTimerDelegate) (s : LocTimers) : LocTimers :=
  let c := timer.wakeOnExpire
  let priorTop := (s.mTree c).peek
  let (tree, found) := (s.mTree c).remove LocTimerDelegate.outRanks timer
  let removed := if found then some timer else none
  let s := { s with mTree := update s.mTree c tree }
  let ops := if priorTop = removed then s.updateSoonestTime c none else []
  { s with task := .run (ops ++ [.delete timer]) }

/-- The top is popped. -/
def popTop (c : Bool) (timerOfNow : Timespec) (timer : LocTimerDelegate) (s : LocTimers) :
    LocTimers :=
  { s with
    mTree := update s.mTree c ((s.mTree c).pop LocTimerDelegate.outRanks)
    task := .popped c timerOfNow timer }

/-- The end of the loop of `MsgTimerExpire::proc`. -/
def expireDone (c : Bool) (s : LocTimers) : LocTimers :=
  { s with task := .run (s.updateSoonestTime c none) }

/-- The start of `MsgTimerExpire::proc`, which pops the top whatever its time is. -/
def procExpire (c : Bool) (s : LocTimers) : LocTimers :=
  match (s.mTree c).peek with
  | some timer => s.popTop c s.now timer
  | none => s.expireDone c

def proc (msg : LocTimerMsg) (s : LocTimers) : LocTimers :=
  match msg with
  | .push timer => s.procPush timer
  | .remove timer => s.procRemove timer
  | .expire c => s.procExpire c

/-- `popIfOutRanks`, and the end of the loop if it pops nothing. -/
def popIfOutRanks (c : Bool) (timerOfNow : Timespec) (s : LocTimers) : LocTimers :=
  match (s.mTree c).peek with
  | some timer =>
    if timerOfNow.outRanks timer.mFutureTime then s.expireDone c
    else s.popTop c timerOfNow timer
  | none => s.expireDone c

/-- The second half of `LocTimerDelegate::expire`: the client is stopped, and is to be called if it
    was running. -/
def expireStop (c : Bool) (timerOfNow : Timespec) (client : Nat) (s : LocTimers) : LocTimers :=
  match s.stop client with
  | (s, none) => { s with task := .looping c timerOfNow }
  | (s, some timer) => { s with task := .calling c timerOfNow timer }

/-- `timeOutCallback` of the client whose delegate was stopped. -/
def timeOutCallback (timer : LocTimerDelegate) (s : LocTimers) : LocTimers :=
  { s with fired := s.fired ++ [(timer, s.now)] }

def taskStep (s : LocTimers) : LocTimers :=
  match s.task with
  | .run [] =>
    match s.queue with
    | [] => s
    | msg :: rest => { s with queue := rest }.proc msg
  | .run (op :: ops) => { s.runOp op with task := .run ops }
  | .popped c timerOfNow timer =>
    match s.mClient timer.addr with
    | none => { s with task := .looping c timerOfNow }
    | some client => { s with task := .stopping c timerOfNow timer client }
  | .stopping c timerOfNow _ client => s.expireStop c timerOfNow client
  | .calling c timerOfNow timer => { s.timeOutCallback timer with task := .looping c timerOfNow }
  | .looping c timerOfNow => s.popIfOutRanks c timerOfNow

/-- What a step of the message task can do. -/
inductive TaskStep (s : LocTimers) : LocTimers → Prop
  | idle (htask : s.task = .run []) (hqueue : s.queue = []) : TaskStep s s
  | push (timer : LocTimerDelegate) (rest : List LocTimerMsg) (htask : s.task = .run [])
      (hqueue : s.queue = .push timer :: rest) : TaskStep s ({ s with queue := rest }.procPush timer)
  | remove (timer : LocTimerDelegate) (rest : List LocTimerMsg) (htask : s.task = .run [])
      (hqueue : s.queue = .remove timer :: rest) :
      TaskStep s ({ s with queue := rest }.procRemove timer)
  | expire (c : Bool) (rest : List LocTimerMsg) (timer : LocTimerDelegate) (htask : s.task = .run [])
      (hqueue : s.queue = .expire c :: rest) (htop : (s.mTree c).peek = some timer) :
      TaskStep s ({ s with queue := rest }.popTop c s.now timer)
  | expireEmpty (c : Bool) (rest : List LocTimerMsg) (htask : s.task = .run [])
      (hqueue : s.queue = .expire c :: rest) (htop : (s.mTree c).peek = none) :
      TaskStep s ({ s with queue := rest }.expireDone c)
  | op (op : TaskOp) (ops : List TaskOp) (htask : s.task = .run (op :: ops)) :
      TaskStep s { s.runOp op with task := .run ops }
  | left (c : Bool) (timerOfNow : Timespec) (timer : LocTimerDelegate)
      (htask : s.task = .popped c timerOfNow timer) (hclient : s.mClient timer.addr = none) :
      TaskStep s { s with task := .looping c timerOfNow }
  | read (c : Bool) (timerOfNow : Timespec) (timer : LocTimerDelegate) (client : Nat)
      (htask : s.task = .popped c timerOfNow timer) (hclient : s.mClient timer.addr = some client) :
      TaskStep s { s with task := .stopping c timerOfNow timer client }
  | stop (c : Bool) (timerOfNow : Timespec) (timer : LocTimerDelegate) (client : Nat)
      (htask : s.task = .stopping c timerOfNow timer client) :
      TaskStep s (s.expireStop c timerOfNow client)
  | call (c : Bool) (timerOfNow : Timespec) (timer : LocTimerDelegate)
      (htask : s.task = .calling c timerOfNow timer) :
      TaskStep s { s.timeOutCallback timer with task := .looping c timerOfNow }
  | pop (c : Bool) (timerOfNow : Timespec) (timer : LocTimerDelegate)
      (htask : s.task = .looping c timerOfNow) (htop : (s.mTree c).peek = some timer)
      (hranks : timerOfNow.outRanks timer.mFutureTime = false) :
      TaskStep s (s.popTop c timerOfNow timer)
  | done (c : Bool) (timerOfNow : Timespec) (htask : s.task = .looping c timerOfNow) :
      TaskStep s (s.expireDone c)

theorem taskStep_spec (s : LocTimers) : s.TaskStep s.taskStep := by
  rw [taskStep]
  split
  · next htask =>
    split
    · next hqueue => exact .idle htask hqueue
    · next msg rest hqueue =>
      cases msg with
      | push timer => exact .push timer rest htask hqueue
      | remove timer => exact .remove timer rest htask hqueue
      | expire c =>
        rw [proc, procExpire]
        split
        · next timer htop => exact .expire c rest timer htask hqueue htop
        · next htop => exact .expireEmpty c rest htask hqueue htop
  · next op ops htask => exact .op op ops htask
  · next c timerOfNow timer htask =>
    split
    · next hclient => exact .left c timerOfNow timer htask hclient
    · next client hclient => exact .read c timerOfNow timer client htask hclient
  · next c timerOfNow timer client htask => exact .stop c timerOfNow timer client htask
  · next c timerOfNow timer htask => exact .call c timerOfNow timer htask
  · next c timerOfNow htask =>
    rw [popIfOutRanks]
    split
    · next timer htop =>
      split
      · exact .done c timerOfNow htask
      · next hranks =>
        exact .pop c timerOfNow timer htask htop (Bool.eq_false_iff.2 hranks)
    · exact .done c timerOfNow htask

/-- A step. What cannot happen now changes nothing: the clock does not go back, and a client cannot
    have read a time that is yet to come. -/
def advance (s : LocTimers) (e : TimerEvent) : LocTimers :=
  match e with
  | .tick now => if s.now ≤ now then { s with now := now } else s
  | .start client timeOutInMs wakeOnExpire read =>
    if read ≤ s.now ∧ read.ns ≠ 0 then s.start client timeOutInMs wakeOnExpire read else s
  | .stop client => s.clientStop client
  | .epollWait ready => s.epollWait ready
  | .pollStep => s.pollStep
  | .taskStep => s.taskStep

def step (s : LocTimers) (e : TimerEvent) : Except Fault (LocTimers × Unit) := .ok (s.advance e, ())

/-- Before the first timer. -/
def init (now : Timespec) : LocTimers := { now := now }

end LocTimers

end Nx508j.Loc
