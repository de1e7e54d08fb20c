import Nx508j.Ipacm.NatApp
import Nx508j.Ipacm.NatIfaces

/-! # The conntrack listener

`IPACM_ConntrackListener` keeps the addresses of clients behind NAT, of clients that are not, and of
the clients of the upstream station, and calls the NAT application. What it learns from elsewhere
(the names of the NAT interfaces, the name of an interface by its index) comes with the event.

The clients of the upstream are kept in an array with a counter. A deletion leaves a hole, and the
scan for a target address goes over as many entries as are counted. -/

namespace Nx508j.Ipacm

open Nx508j.Lib

def maxNatIfaces : Nat := 50

def maxStaClntIfaces : Nat := 10

/-- `class IPACM_ConntrackListener`, and the NAT application it calls. -/
structure ConntrackListener where
  wanUp : Bool
  natInst : NatApp
  staClntCnt : Int
  natIfaceIpv4Addr : Region UInt32
  nonnatIfaceIpv4Addr : Region UInt32
  staClntIpv4Addr : Region UInt32
  wanIpaddr : UInt32
  isStaMode : Bool

namespace ConntrackListener

variable (s : ConntrackListener)

/-- The constructor. It leaves `wan_ipaddr` and `isStaMode` as they were. -/
def init (natInst : NatApp) (wanIpaddr : UInt32) (isStaMode : Bool) : ConntrackListener where
  wanUp := false
  natInst := natInst
  staClntCnt := 0
  natIfaceIpv4Addr := Region.fill maxNatIfaces 0
  nonnatIfaceIpv4Addr := Region.fill maxNatIfaces 0
  staClntIpv4Addr := Region.fill maxStaClntIfaces 0
  wanIpaddr := wanIpaddr
  isStaMode := isStaMode

/-- The first entry of an array with `p`. -/
def findEntry (m : Region UInt32) (p : UInt32 → Bool) : Option Nat :=
  (List.range m.size).find? fun i => p (m.get i)

/-- Remember the address of a client that is not behind NAT. -/
def cacheNonnat (ipv4Addr : UInt32) : ConntrackListener :=
  match findEntry s.nonnatIfaceIpv4Addr (· = 0) with
  | some i => { s with
      nonnatIfaceIpv4Addr := s.nonnatIfaceIpv4Addr.set i ipv4Addr
      natInst := s.natInst.flushTempEntries ipv4Addr false fun _ => none }
  | none => s

/-- A client behind NAT is announced for the first time: its connections get rules again. -/
def announce (ipv4Addr : UInt32) (resetAnswer flushAnswer : Nat → Option UInt32) : NatApp :=
  (s.natInst.resetPwrSaveIf ipv4Addr resetAnswer).1.flushTempEntries ipv4Addr true flushAnswer

/-- `HandleNeighIpAddrAddEvt`, with the NAT interfaces of the configuration and the name of the
    interface, each if it can be had. -/
def handleNeighIpAddrAddEvt (ipv4Addr : UInt32) (isV4 : Bool) (natIfaces : Option (List IfaceName))
    (ifrName : Option IfaceName) (resetAnswer flushAnswer : Nat → Option UInt32) :
    ConntrackListener :=
  if ipv4Addr = 0 ∨ isV4 = false then s
  else
    match natIfaces, ifrName with
    | some names, some name =>
      if name ∈ names then
        match findEntry s.natIfaceIpv4Addr fun a => a = ipv4Addr ∨ a = 0 with
        | some j =>
          if s.natIfaceIpv4Addr.get j = ipv4Addr then s
          else { s with
            natIfaceIpv4Addr := s.natIfaceIpv4Addr.set j ipv4Addr
            natInst := s.announce ipv4Addr resetAnswer flushAnswer }
        -- no room: the client is taken for one that is not behind NAT
        | none => s.cacheNonnat ipv4Addr
      else s.cacheNonnat ipv4Addr
    | _, _ => s

/-- The array with an address taken out wherever it is. -/
def clearAddr (m : Region UInt32) (ipv4Addr : UInt32) : Region UInt32 :=
  { m with get := fun i => if m.get i = ipv4Addr then 0 else m.get i }

/-- `HandleNeighIpAddrDelEvt`. -/
def handleNeighIpAddrDelEvt (ipv4Addr : UInt32) (answer : Nat → Bool) : ConntrackListener :=
  if ipv4Addr = 0 then s
  else { s with
    natIfaceIpv4Addr := clearAddr s.natIfaceIpv4Addr ipv4Addr
    nonnatIfaceIpv4Addr := clearAddr s.nonnatIfaceIpv4Addr ipv4Addr
    natInst := ((s.natInst.flushTempEntries ipv4Addr false fun _ => none).delEntriesOnClntDiscon
      ipv4Addr answer).1 }

/-- `TriggerWANUp`, which is called when the WAN is not up. -/
def triggerWanUp (ipv4Addr : UInt32) (isSta : Bool) (tblAnswer : Option UInt32)
    (answer : Nat → Option UInt32) : ConntrackListener :=
  if s.wanUp = true ∨ ipv4Addr = 0 then s
  else { s with
    wanUp := true
    isStaMode := isSta
    wanIpaddr := ipv4Addr
    natInst := (s.natInst.addTable ipv4Addr tblAnswer answer).1 }

/-- `TriggerWANDown`, which is called when the WAN is up. -/
def triggerWanDown (wanAddr : UInt32) (answer : Bool) : ConntrackListener :=
  if s.wanUp = false then s
  else { s with wanUp := false, natInst := (s.natInst.deleteTable wanAddr answer).1 }

/-- `HandleSTAClientAddEvt`. -/
def handleStaClientAddEvt (clntIpAddr : UInt32) : ConntrackListener :=
  if s.staClntCnt ≥ maxStaClntIfaces then s
  else
    match findEntry s.staClntIpv4Addr fun a => (a ≠ 0 ∧ a = clntIpAddr) ∨ a = 0 with
    | some cnt =>
      if s.staClntIpv4Addr.get cnt = 0 then { s with
        staClntIpv4Addr := s.staClntIpv4Addr.set cnt clntIpAddr
        staClntCnt := s.staClntCnt + 1 }
      else s
    | none => s

/-- `HandleSTAClientDelEvt`. -/
def handleStaClientDelEvt (clntIpAddr : UInt32) (answer : Nat → Bool) : ConntrackListener :=
  match findEntry s.staClntIpv4Addr fun a => a ≠ 0 ∧ a = clntIpAddr with
  | some cnt => { s with
      staClntIpv4Addr := s.staClntIpv4Addr.set cnt 0
      natInst := (s.natInst.delEntriesOnStaClntDiscon clntIpAddr answer).1
      staClntCnt := s.staClntCnt - 1 }
  | none => s

/-- The scan of `ProcessTCPorUDPMsg` for the target address among the clients of the upstream. -/
def staScan (targetIp : UInt32) : Bool :=
  (List.range s.staClntCnt.toNat).any fun nCnt => targetIp = s.staClntIpv4Addr.get nCnt

/-- Whether `ProcessTCPorUDPMsg` goes on with a connection to the target address. -/
def staAccepts (targetIp : UInt32) : Bool :=
  s.isStaMode = false ∨ s.staClntCnt = 0 ∨
    s.staClntIpv4Addr.get 0 &&& 0xFFFFFF00 ≠ targetIp &&& 0xFFFFFF00 ∨ s.staScan targetIp = true

end ConntrackListener

/-- An event of the listener, or an operation that another part of the connection manager calls on
    the NAT application. -/
inductive CtEvent
  | wanUp (ipv4Addr : UInt32) (isSta : Bool) (tblAnswer : Option UInt32)
      (answer : Nat → Option UInt32)
  | wanDown (wanAddr : UInt32) (answer : Bool)
  | neighAdd (ipv4Addr : UInt32) (isV4 : Bool) (natIfaces : Option (List IfaceName))
      (ifrName : Option IfaceName) (resetAnswer flushAnswer : Nat → Option UInt32)
  | neighDel (ipv4Addr : UInt32) (answer : Nat → Bool)
  | staAdd (clntIpAddr : UInt32)
  | staDel (clntIpAddr : UInt32) (answer : Nat → Bool)
  | nat (op : NatOp)

def ctStep (s : ConntrackListener) : CtEvent → Except Fault (ConntrackListener × Unit)
  | .wanUp ipv4Addr isSta tblAnswer answer => .ok (s.triggerWanUp ipv4Addr isSta tblAnswer answer, ())
  | .wanDown wanAddr answer => .ok (s.triggerWanDown wanAddr answer, ())
  | .neighAdd ipv4Addr isV4 natIfaces ifrName resetAnswer flushAnswer =>
    .ok (s.handleNeighIpAddrAddEvt ipv4Addr isV4 natIfaces ifrName resetAnswer flushAnswer, ())
  | .neighDel ipv4Addr answer => .ok (s.handleNeighIpAddrDelEvt ipv4Addr answer, ())
  | .staAdd clntIpAddr => .ok (s.handleStaClientAddEvt clntIpAddr, ())
  | .staDel clntIpAddr answer => .ok (s.handleStaClientDelEvt clntIpAddr answer, ())
  | .nat op => do
      let (natInst, _) ← natStep s.natInst op
      .ok ({ s with natInst := natInst }, ())

end Nx508j.Ipacm
