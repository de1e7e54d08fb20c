import Nx508j.Ipacm.Netlink

/-! # The events of a netlink buffer

What `ipa_nl_decode_nlmsg` does with a decoded message, and its loop over the messages of a buffer.
Whether an interface has a name and whether memory can be had is up to the environment, which answers
the questions of a call one by one. -/

namespace Nx508j.Ipacm

open Nx508j.Lib

namespace Netlink

def afInet : Nat := 2
def afBridge : Nat := 7
def afInet6 : Nat := 10

def rtmNewlink : Nat := 16
def rtmDellink : Nat := 17
def rtmNewaddr : Nat := 20
def rtmNewroute : Nat := 24
def rtmDelroute : Nat := 25
def rtmNewneigh : Nat := 28
def rtmDelneigh : Nat := 29

def iffUp : Nat := 0x1
def iffRunning : Nat := 0x40
def iffLowerUp : Nat := 0x10000

def rtnUnicast : Nat := 1
def rtprotKernel : Nat := 2
def rtprotBoot : Nat := 3
def rtScopeUniverse : Nat := 0
def rtTableMain : Nat := 254

/-! ## The events -/

inductive IpaIpType where
  | v4
  | v6
deriving DecidableEq, Repr

/-- `ipacm_event_data_addr`. A word that was not written holds what `malloc` left there: `none`. -/
structure EventDataAddr where
  iptype : IpaIpType
  ifIndex : Nat
  ipv4Addr : Option Nat := none
  ipv4AddrMask : Option Nat := none
  ipv6Addr : List (Option Nat) := List.replicate 4 none
  ipv6AddrMask : List (Option Nat) := List.replicate 4 none
deriving DecidableEq, Repr

/-- `ipacm_event_data_all`, which is cleared first. -/
structure EventDataAll where
  iptype : IpaIpType
  ifIndex : Nat
  ipv4Addr : Nat := 0
  ipv6Addr : List Nat := List.replicate 4 0
  macAddr : List UInt8
deriving DecidableEq, Repr

/-- The events that are posted, with their data. -/
inductive NlEvent where
  | linkUp (ifIndex : Nat)
  | linkDown (ifIndex : Nat)
  | usbLinkUp (ifIndex : Nat)
  | addrAdd (data : EventDataAddr)
  | routeAdd (data : EventDataAddr)
  | routeDel (data : EventDataAddr)
  | newNeigh (data : EventDataAll)
  | delNeigh (data : EventDataAll)
deriving DecidableEq, Repr

/-! ## Conversions -/

/-- `ntohl`. -/
def ntohl (w : Nat) : Nat :=
  w % 256 * 0x1000000 + w / 0x100 % 256 * 0x10000 + w / 0x10000 % 256 * 0x100 +
    w / 0x1000000 % 256

/-- The word at byte `i`, in host order. -/
def word (bs : List UInt8) (i : Nat) : Nat :=
  (bs.getD i 0).toNat + 0x100 * (bs.getD (i + 1) 0).toNat +
    0x10000 * (bs.getD (i + 2) 0).toNat + 0x1000000 * (bs.getD (i + 3) 0).toNat

/-- `IPACM_EVENT_COPY_ADDR_v4`. -/
def copyAddrV4 (addr : SockaddrStorage) : Nat := word addr.data 0

/-- `IPACM_EVENT_COPY_ADDR_v6`, and `ntohl` of each word. -/
def copyAddrV6 (addr : SockaddrStorage) : List Nat :=
  (List.range 4).map fun i => ntohl (word addr.data (4 * i))

/-- `mask_v6`. -/
def maskV6 (index : Nat) (mask : Option Nat) : Option Nat :=
  match index with
  | 0 => some 0x00000000
  | 4 => some 0xf0000000
  | 8 => some 0xff000000
  | 12 => some 0xfff00000
  | 16 => some 0xffff0000
  | 20 => some 0xfffff000
  | 24 => some 0xffffff00
  | 28 => some 0xfffffff0
  | 32 => some 0xffffffff
  | _ => mask

/-- The loops that make a mask of a prefix length. A word of less than 32 bits goes to `slot`, which
    is the word in turn for a new route, and always the first for a deleted one. -/
def routeMask (slot : Nat → Nat) (rtmDstLen : Nat) : List (Option Nat) :=
  let (_, mask) := (List.range 4).foldl (fun (value, mask) i =>
    if 32 ≤ value then (value - 32, mask.set i (maskV6 32 (mask.getD i none)))
    else (0, mask.set (slot i) (maskV6 value (mask.getD (slot i) none))))
    (rtmDstLen, List.replicate 4 none)
  mask.map (Option.map ntohl)

/-! ## The state of a call -/

/-- The locals of `ipa_nl_decode_nlmsg` that outlive a message, what it has posted, at which bytes it
    let its decoders start, and how many questions the environment has answered. -/
structure NlState where
  msg : NlMsg := {}
  ifIpv4Addr : Nat := 0
  ifIpipv4AddrMask : Nat := 0
  posted : List NlEvent := []
  decoded : List Nat := []
  asked : Nat := 0
deriving DecidableEq, Repr

/-- How a call ends before the end of the buffer. -/
inductive NlExit where
  | success
  | failure
  | fault (f : NlFault)
deriving DecidableEq, Repr

abbrev NlM := ExceptT NlExit (StateM NlState)

/-- The next answer of the environment. -/
def ask (env : Nat → Bool) : NlM Bool := do
  let s ← get
  set { s with asked := s.asked + 1 }
  return env s.asked

/-- `ipa_get_if_name` or `malloc`, where failure ends the call. -/
def need (env : Nat → Bool) : NlM Unit := do
  if ← ask env then pure () else throw .failure

/-- `PostEvt`. -/
def postEvt (e : NlEvent) : NlM Unit := modify fun s => { s with posted := s.posted ++ [e] }

/-- Run a read of the buffer. -/
def load {α : Type} : Except NlFault α → NlM α
  | .ok a => pure a
  | .error f => throw (.fault f)

/-- Call a decoder for the message at byte `buffer`. -/
def decodeFrom {α : Type} (buffer : Nat) (decoder : Nat → Except NlFault α) : NlM α := do
  modify fun s => { s with decoded := s.decoded ++ [buffer] }
  load (decoder buffer)

/-! ## The messages -/

def newLink (env : Nat → Bool) (link : IfInfoMsg) : NlM Unit := do
  if link.ifiFamily = afBridge then throw .success
  if iffUp &&& link.ifiChange ≠ 0 then
    need env
    need env
    if link.ifiFlags &&& iffUp ≠ 0 then postEvt (.linkUp link.ifiIndex)
    else postEvt (.linkDown link.ifiIndex)
  if link.ifiFlags &&& iffRunning ≠ 0 ∧ link.ifiFlags &&& iffLowerUp ≠ 0 then
    need env
    need env
    postEvt (.usbLinkUp link.ifiIndex)
  else if link.ifiFlags &&& iffLowerUp = 0 then
    need env
    need env
    postEvt (.linkDown link.ifiIndex)

def delLink (env : Nat → Bool) (link : IfInfoMsg) : NlM Unit := do
  if link.ifiFamily = afBridge then throw .success
  need env
  need env
  postEvt (.linkDown link.ifiIndex)

def newAddr (env : Nat → Bool) (addr : AddrInfo) : NlM Unit := do
  -- an interface without a name is only logged
  let _ ← ask env
  need env
  if addr.prefixAddr.ssFamily = afInet6 then
    postEvt (.addrAdd {
      iptype := .v6
      ifIndex := addr.metainfo.ifaIndex
      ipv6Addr := (copyAddrV6 addr.prefixAddr).map some })
  else
    postEvt (.addrAdd {
      iptype := .v4
      ifIndex := addr.metainfo.ifaIndex
      ipv4Addr := some (ntohl (copyAddrV4 addr.prefixAddr)) })

/-- A route that was made by hand in the main table. -/
def RouteInfo.boot (route : RouteInfo) : Prop :=
  route.metainfo.rtmType = rtnUnicast ∧ route.metainfo.rtmProtocol = rtprotBoot ∧
    route.metainfo.rtmScope = rtScopeUniverse ∧ route.metainfo.rtmTable = rtTableMain

instance (route : RouteInfo) : Decidable route.boot := inferInstanceAs (Decidable (_ ∧ _))

/-- A v6 route of the kernel in the main table. -/
def RouteInfo.kernelV6 (route : RouteInfo) : Prop :=
  route.metainfo.rtmFamily = afInet6 ∧ route.metainfo.rtmType = rtnUnicast ∧
    route.metainfo.rtmProtocol = rtprotKernel ∧ route.metainfo.rtmTable = rtTableMain

instance (route : RouteInfo) : Decidable route.kernelV6 := inferInstanceAs (Decidable (_ ∧ _))

def RouteInfo.has (route : RouteInfo) (param : Nat) : Prop := route.paramMask &&& param ≠ 0

instance (route : RouteInfo) (param : Nat) : Decidable (route.has param) :=
  inferInstanceAs (Decidable (_ ≠ _))

/-- The data of a default route: the destination address is the mask too. -/
def defaultV6 (route : RouteInfo) : EventDataAddr where
  iptype := .v6
  ifIndex := route.oifIndex
  ipv6Addr := (copyAddrV6 route.dstAddr).map some
  ipv6AddrMask := (copyAddrV6 route.dstAddr).map some

def newBootRoute (env : Nat → Bool) (route : RouteInfo) : NlM Unit := do
  if route.has ipaRtaParamDst then
    need env
    modify fun s => { s with ifIpv4Addr := copyAddrV4 route.dstAddr }
    need env
    -- the mask is what an earlier message left
    let s ← get
    postEvt (.routeAdd {
      iptype := .v4
      ifIndex := route.oifIndex
      ipv4Addr := some (ntohl s.ifIpv4Addr)
      ipv4AddrMask := some (ntohl s.ifIpipv4AddrMask) })
  else
    need env
    need env
    if route.metainfo.rtmFamily = afInet6 then postEvt (.routeAdd (defaultV6 route))
    else
      modify fun s => { s with
        ifIpv4Addr := copyAddrV4 route.dstAddr
        ifIpipv4AddrMask := copyAddrV4 route.dstAddr }
      let s ← get
      postEvt (.routeAdd {
        iptype := .v4
        ifIndex := route.oifIndex
        ipv4Addr := some (ntohl s.ifIpv4Addr)
        ipv4AddrMask := some (ntohl s.ifIpipv4AddrMask) })

def newKernelRoute (env : Nat → Bool) (route : RouteInfo) : NlM Unit := do
  need env
  if route.has ipaRtaParamDst then
    need env
    postEvt (.routeAdd {
      iptype := .v6
      ifIndex := route.oifIndex
      ipv6Addr := (copyAddrV6 route.dstAddr).map some
      ipv6AddrMask := routeMask (fun i => i) route.metainfo.rtmDstLen })
  if route.has ipaRtaParamGateway then
    need env
    postEvt (.routeAdd (defaultV6 route))

def newRoute (env : Nat → Bool) (route : RouteInfo) : NlM Unit := do
  if route.boot then newBootRoute env route
  if route.kernelV6 then newKernelRoute env route

def delBootRoute (env : Nat → Bool) (route : RouteInfo) : NlM Unit := do
  if route.has ipaRtaParamDst then
    need env
    need env
    modify fun s => { s with
      ifIpv4Addr := copyAddrV4 route.dstAddr
      ifIpipv4AddrMask := ntohl 0xffffffff }
    let s ← get
    postEvt (.routeDel {
      iptype := .v4
      ifIndex := route.oifIndex
      ipv4Addr := some (ntohl s.ifIpv4Addr)
      ipv4AddrMask := some (ntohl s.ifIpipv4AddrMask) })
  else
    need env
    need env
    if route.metainfo.rtmFamily = afInet6 then postEvt (.routeDel (defaultV6 route))
    else
      postEvt (.routeDel {
        iptype := .v4
        ifIndex := route.oifIndex
        ipv4Addr := some (ntohl (copyAddrV4 route.dstAddr))
        ipv4AddrMask := some (ntohl (copyAddrV4 route.dstAddr)) })

def delKernelRoute (env : Nat → Bool) (route : RouteInfo) : NlM Unit := do
  need env
  if route.has ipaRtaParamDst then
    need env
    postEvt (.routeDel {
      iptype := .v6
      ifIndex := route.oifIndex
      ipv6Addr := (copyAddrV6 route.dstAddr).map some
      ipv6AddrMask := routeMask (fun _ => 0) route.metainfo.rtmDstLen })

def delRoute (env : Nat → Bool) (route : RouteInfo) : NlM Unit := do
  if route.boot then delBootRoute env route
  if route.kernelV6 then delKernelRoute env route

/-- The data of both neighbour events. -/
def neighData (neigh : NeighInfo) : EventDataAll :=
  if neigh.localAddr.ssFamily = afInet6 then {
    iptype := .v6
    ifIndex := neigh.metainfo.ndmIfindex
    ipv6Addr := copyAddrV6 neigh.localAddr
    macAddr := neigh.lladdrHwaddr.take 6 }
  else if neigh.localAddr.ssFamily = afInet then {
    iptype := .v4
    ifIndex := neigh.metainfo.ndmIfindex
    ipv4Addr := ntohl (copyAddrV4 neigh.localAddr)
    macAddr := neigh.lladdrHwaddr.take 6 }
  else {
    iptype := .v6
    ifIndex := neigh.metainfo.ndmIfindex
    macAddr := neigh.lladdrHwaddr.take 6 }

def neigh (env : Nat → Bool) (event : EventDataAll → NlEvent) (neigh : NeighInfo) : NlM Unit := do
  need env
  need env
  postEvt (event (neighData neigh))

/-! ## The loop -/

/-- The `switch` on `nlmsg_type`. The decoders are handed `buffer`, where the first message begins,
    and not the message in turn. -/
def handleMsg (env : Nat → Bool) (m : Region UInt8) (buffer buflen nlmsgType : Nat) :
    NlM Unit := do
  if nlmsgType = rtmNewlink ∨ nlmsgType = rtmDellink then
    modify fun s => { s with msg := { s.msg with type := nlmsgType, linkEvent := true } }
    let link ← decodeFrom buffer (decodeRtmLink m)
    modify fun s => { s with msg := { s.msg with nlLinkInfo := link } }
    if nlmsgType = rtmNewlink then newLink env link else delLink env link
  else if nlmsgType = rtmNewaddr then
    let s ← get
    let addr ← decodeFrom buffer fun buffer => decodeRtmAddr m buffer buflen s.msg.nlAddrInfo
    modify fun s => { s with msg := { s.msg with nlAddrInfo := addr } }
    newAddr env addr
  else if nlmsgType = rtmNewroute ∨ nlmsgType = rtmDelroute then
    let s ← get
    let route ← decodeFrom buffer fun buffer => decodeRtmRoute m buffer buflen s.msg.nlRouteInfo
    modify fun s => { s with msg := { s.msg with nlRouteInfo := route } }
    if nlmsgType = rtmNewroute then newRoute env route else delRoute env route
  else if nlmsgType = rtmNewneigh ∨ nlmsgType = rtmDelneigh then
    let s ← get
    let info ← decodeFrom buffer fun buffer => decodeRtmNeigh m buffer buflen s.msg.nlNeighInfo
    modify fun s => { s with msg := { s.msg with nlNeighInfo := info } }
    neigh env (if nlmsgType = rtmNewneigh then .newNeigh else .delNeigh) info
  else pure ()

/-- The loop over the messages: `NLMSG_OK`, the `switch`, `NLMSG_NEXT`. -/
def nlmsgLoop (env : Nat → Bool) (m : Region UInt8) (buffer : Nat) : Nat → Nat → Nat → NlM Unit
  | 0, _, _ => throw (.fault .diverges)
  | fuel + 1, nlh, buflen =>
    if buflen < nlmsghdrSize then pure ()
    else do
      load (inside m nlh 4)
      let nlmsgLen := le32 m nlh
      if nlmsghdrSize ≤ nlmsgLen ∧ nlmsgLen ≤ buflen then
        load (inside m (nlh + 4) 2)
        handleMsg env m buffer buflen (le16 m (nlh + 4))
        if align4 nlmsgLen ≤ buflen then
          nlmsgLoop env m buffer fuel (nlh + align4 nlmsgLen) (buflen - align4 nlmsgLen)
        else throw (.fault .wraps)
      else pure ()

/-- Run a part of a call from a state. -/
def NlM.exec {α : Type} (x : NlM α) (s : NlState) : Except NlExit α × NlState :=
  Id.run (StateT.run (ExceptT.run x) s)

/-- `ipa_nl_decode_nlmsg` of the `buflen` bytes from `buffer` on, on a cleared `ipa_nl_msg_t`. The
    environment has answered `asked` questions before. -/
def decodeNlmsg (env : Nat → Bool) (asked : Nat) (m : Region UInt8) (buffer buflen : Nat) :
    Except NlExit Unit × NlState :=
  NlM.exec (nlmsgLoop env m buffer (buflen + 1) buffer buflen) { asked := asked }

/-! ## Running a call -/

namespace NlM

variable {α β : Type} {s : NlState}

theorem exec_throw (e : NlExit) (s : NlState) : exec (throw e : NlM α) s = (.error e, s) := rfl

theorem exec_modify (f : NlState → NlState) (s : NlState) :
    exec (modify f : NlM Unit) s = (.ok (), f s) := rfl

theorem exec_get (s : NlState) : exec (get : NlM NlState) s = (.ok s, s) := rfl

theorem exec_ask (env : Nat → Bool) (s : NlState) :
    exec (ask env) s = (.ok (env s.asked), { s with asked := s.asked + 1 }) := rfl

theorem exec_bind (x : NlM α) (f : α → NlM β) (s : NlState) :
    exec (x >>= f) s = match exec x s with
      | (.ok a, s') => exec (f a) s'
      | (.error e, s') => (.error e, s') := by
  change (fun p : Except NlExit α × NlState =>
    Id.run (StateT.run (ExceptT.bindCont f p.1) p.2)) (exec x s) = _
  rcases exec x s with ⟨e | a, s'⟩
  · rfl
  · rfl

end NlM

end Netlink

end Nx508j.Ipacm
