import Nx508j.Lib.Blocks
import Nx508j.Lib.Memory

/-! # SIM access requests

A call of `SapImpl` makes a message header, encodes the request into a buffer, copies that to a payload
and hands the header to the socket of its slot. The socket makes a record of it, puts that in front of
its pending queue and hands it to the vendor library, which completes it at some time, on the same
thread or on another. The blocks of memory of a call are known by the number of the call. Calls and
completions go on step by step, in any order. -/

namespace Nx508j.Ril

open Nx508j.Lib Function

inductive MsgId where
  | connect
  | disconnect
  | apdu
  | transferAtr
  | power
  | resetSim
  | transferCardReaderStatus
  | setTransferProtocol
deriving DecidableEq, Repr

/-- What a call allocates. -/
inductive SapBlock where
  | msgHeader (request : Nat)
  | buffer (request : Nat)
  | payload (request : Nat)
  | record (request : Nat)
  | rspPayload (request : Nat)
deriving DecidableEq, Repr

namespace SapBlock

/-- The call that a block belongs to. -/
def request : SapBlock → Nat
  | .msgHeader n => n
  | .buffer n => n
  | .payload n => n
  | .record n => n
  | .rspPayload n => n

end SapBlock

/-- `MsgHeader`, with the pointer to the payload. -/
structure MsgHeader where
  token : Int := 0
  id : MsgId := .connect
  payload : Option Nat := none
deriving DecidableEq, Repr

/-- `SapSocketRequest`. The queue is a list, which stands for `p_next`. -/
structure SapSocketRequest where
  token : Int := 0
  curr : Nat := 0
  socketId : Nat := 0
deriving DecidableEq, Repr

/-- What a call of `SapImpl` does next. -/
inductive SapCallPc where
  | addPayload
  | dispatch
  | enqueue
  | onRequest
  | freePayload
  | freeBuffer
deriving DecidableEq, Repr

structure SapCall where
  rilSocketId : Nat
  pc : SapCallPc
deriving DecidableEq, Repr

/-- What a completion does next. The vendor library has the record when it is `handed`. -/
inductive SapCompletion where
  | handed
  | dequeue (socketId : Nat) (hdr : Nat)
  | freeHdr (hdr : Nat)
deriving DecidableEq, Repr

/-- What comes of the header and the encoding of a request. -/
inductive SapEncoding where
  | noHeader
  | noBuffer
  | notEncoded
  | encoded
deriving DecidableEq, Repr

/-- The sockets, with whether they have `uimFuncs`, their pending queues, the memory, and the calls
    and completions under way. `completed` records each completion with the record it took from the
    queue. -/
structure RilSap where
  sockets : Nat → Option Bool := fun _ => none
  pendingResponseQueue : Nat → List Nat := fun _ => []
  header : Nat → MsgHeader := fun _ => {}
  record : Nat → SapSocketRequest := fun _ => {}
  calls : Nat → Option SapCall := fun _ => none
  completions : Nat → Option SapCompletion := fun _ => none
  next : Nat := 0
  blocks : Blocks SapBlock := {}
  completed : List (Nat × Option Nat) := []

/-- The steps. A step of a call may fail for want of memory, and so may one of a completion. -/
inductive SapEvent where
  | addSocketToList (socketId : Nat) (uimFuncs : Bool)
  | request (rilSocketId : Nat) (id : MsgId) (token : Int) (encoding : SapEncoding)
  | callStep (request : Nat) (oom : Bool)
  | completeStep (request : Nat) (oom : Bool)
deriving DecidableEq, Repr

namespace RilSap

def setCall (n : Nat) (call : Option SapCall) (s : RilSap) : RilSap :=
  { s with calls := update s.calls n call }

def setCompletion (n : Nat) (completion : Option SapCompletion) (s : RilSap) : RilSap :=
  { s with completions := update s.completions n completion }

def inBlocks (f : Blocks SapBlock → Blocks SapBlock) (s : RilSap) : RilSap :=
  { s with blocks := f s.blocks }

/-- `RilSapSocket::addSocketToList`. -/
def addSocketToList (socketId : Nat) (uimFuncs : Bool) (s : RilSap) : RilSap :=
  if s.sockets socketId = none then
    { s with sockets := update s.sockets socketId (some uimFuncs) }
  else s

/-! ## The calls -/

/-- `SapImpl::createMsgHeader` and the encoding. `SapImpl::sendFailedResponse` frees what there is. -/
def request (rilSocketId : Nat) (id : MsgId) (token : Int) (encoding : SapEncoding) (s : RilSap) :
    RilSap :=
  let n := s.next
  let s := { s with next := n + 1 }
  let created := { s with
    header := update s.header n ⟨token, id, none⟩
    blocks := s.blocks.alloc (.msgHeader n) }
  match encoding with
  | .noHeader => s
  | .noBuffer => created.inBlocks fun b => b.free (.msgHeader n)
  | .notEncoded =>
    created.inBlocks fun b => ((b.alloc (.buffer n)).free (.buffer n)).free (.msgHeader n)
  | .encoded =>
    (created.inBlocks fun b => b.alloc (.buffer n)).setCall n (some ⟨rilSocketId, .addPayload⟩)

/-- `SapImpl::addPayloadAndDispatchRequest` up to the socket. -/
def addPayload (n : Nat) (rilSocketId : Nat) (oom : Bool) (s : RilSap) : RilSap :=
  let s := s.inBlocks fun b => b.use [.msgHeader n]
  if oom then
    (s.inBlocks fun b => (b.free (.buffer n)).free (.msgHeader n)).setCall n none
  else
    { (s.inBlocks fun b => b.alloc (.payload n)).setCall n (some ⟨rilSocketId, .dispatch⟩) with
      header := update s.header n { s.header n with payload := some n } }

/-- The start of `RilSapSocket::dispatchRequest`, if there is the socket. -/
def dispatch (n : Nat) (rilSocketId : Nat) (oom : Bool) (s : RilSap) : RilSap :=
  let s := s.inBlocks fun b => b.use [.msgHeader n]
  if s.sockets rilSocketId = none then
    (s.inBlocks fun b => ((b.free (.payload n)).free (.buffer n)).free (.msgHeader n)).setCall n none
  else if oom then
    (s.inBlocks fun b => b.free (.msgHeader n)).setCall n (some ⟨rilSocketId, .freePayload⟩)
  else
    { (s.inBlocks fun b => b.alloc (.record n)).setCall n (some ⟨rilSocketId, .enqueue⟩) with
      record := update s.record n ⟨(s.header n).token, n, rilSocketId⟩ }

/-- `Ril_queue::enqueue`. -/
def enqueue (n : Nat) (rilSocketId : Nat) (s : RilSap) : RilSap :=
  { (s.inBlocks fun b => b.use [.record n]).setCall n (some ⟨rilSocketId, .onRequest⟩) with
    pendingResponseQueue := update s.pendingResponseQueue rilSocketId
      (n :: s.pendingResponseQueue rilSocketId) }

/-- The vendor library gets the record, and reads the payload. -/
def onRequest (n : Nat) (rilSocketId : Nat) (s : RilSap) : RilSap :=
  let s := s.setCall n (some ⟨rilSocketId, .freePayload⟩)
  if s.sockets rilSocketId = some true then
    (s.inBlocks fun b =>
      b.use (.msgHeader n :: (s.header n).payload.toList.map .payload)).setCompletion n (some .handed)
  else s

def callStep (n : Nat) (oom : Bool) (s : RilSap) : RilSap :=
  match s.calls n with
  | none => s
  | some ⟨rilSocketId, .addPayload⟩ => s.addPayload n rilSocketId oom
  | some ⟨rilSocketId, .dispatch⟩ => s.dispatch n rilSocketId oom
  | some ⟨rilSocketId, .enqueue⟩ => s.enqueue n rilSocketId
  | some ⟨rilSocketId, .onRequest⟩ => s.onRequest n rilSocketId
  | some ⟨rilSocketId, .freePayload⟩ =>
    (s.inBlocks fun b => (b.use [.msgHeader n]).freePtr
      ((s.header n).payload.map .payload)).setCall n (some ⟨rilSocketId, .freeBuffer⟩)
  | some ⟨_, .freeBuffer⟩ => (s.inBlocks fun b => b.free (.buffer n)).setCall n none

/-! ## The completions -/

/-- The record has this message id and token. -/
def Matches (s : RilSap) (id : MsgId) (token : Int) (n : Nat) : Prop :=
  token = (s.record n).token ∧ id = (s.header (s.record n).curr).id

instance (s : RilSap) (id : MsgId) (token : Int) (n : Nat) : Decidable (s.Matches id token n) := by
  unfold Matches
  infer_instance

/-- The blocks that `checkAndDequeue` reads: the records up to the one it finds, and the headers of
    those with the token. -/
def visited (s : RilSap) (id : MsgId) (token : Int) : List Nat → List SapBlock
  | [] => []
  | n :: rest =>
    .record n :: ((if token = (s.record n).token then [.msgHeader (s.record n).curr] else []) ++
      if s.Matches id token n then [] else s.visited id token rest)

/-- `Ril_queue::checkAndDequeue`, with the record that it frees. -/
def checkAndDequeue (socketId : Nat) (id : MsgId) (token : Int) (s : RilSap) :
    RilSap × Option Nat :=
  let queue := s.pendingResponseQueue socketId
  let found := queue.find? (s.Matches id token ·)
  ({ s with
    pendingResponseQueue := update s.pendingResponseQueue socketId
      (queue.eraseP (s.Matches id token ·))
    blocks := (s.blocks.use (s.visited id token queue)).freePtr (found.map .record) }, found)

/-- `RilSapSocket::sOnRequestComplete` and the start of `RilSapSocket::onRequestComplete`. -/
def onRequestComplete (n : Nat) (oom : Bool) (s : RilSap) : RilSap :=
  let request := s.record n
  let hdr := request.curr
  let s := s.inBlocks fun b => b.use [.record n]
  if s.sockets request.socketId = none then
    (s.inBlocks fun b => (b.free (.msgHeader hdr)).free (.record n)).setCompletion n none
  else
    let s := s.inBlocks fun b => b.use [.msgHeader hdr]
    let s := if oom then s else
      s.inBlocks fun b => ((b.alloc (.rspPayload n)).use [.rspPayload n]).free (.rspPayload n)
    s.setCompletion n (some (.dequeue request.socketId hdr))

def completeStep (n : Nat) (oom : Bool) (s : RilSap) : RilSap :=
  match s.completions n with
  | none => s
  | some .handed => s.onRequestComplete n oom
  | some (.dequeue socketId hdr) =>
    let s := s.inBlocks fun b => b.use [.msgHeader hdr]
    let (s, found) := s.checkAndDequeue socketId (s.header hdr).id (s.header hdr).token
    { s.setCompletion n (some (.freeHdr hdr)) with completed := s.completed ++ [(n, found)] }
  | some (.freeHdr hdr) =>
    (s.inBlocks fun b => b.free (.msgHeader hdr)).setCompletion n none

def advance (s : RilSap) (e : SapEvent) : RilSap :=
  match e with
  | .addSocketToList socketId uimFuncs => s.addSocketToList socketId uimFuncs
  | .request rilSocketId id token encoding => s.request rilSocketId id token encoding
  | .callStep n oom => s.callStep n oom
  | .completeStep n oom => s.completeStep n oom

def step (s : RilSap) (e : SapEvent) : Except Fault (RilSap × Unit) := .ok (s.advance e, ())

end RilSap

end Nx508j.Ril
