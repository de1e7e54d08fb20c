import Mathlib.Algebra.Ring.Int.Defs
import Nx508j.Lib.Keyed
import Nx508j.Lib.Memory

/-! # LAN-to-LAN offload

`IPACM_LanToLan` keeps a table of the clients of the LAN interfaces for each IP version. Clients with
open connections to each other are peers; two active peers get an offload link, which is a header,
routing rules and a filter rule for each of the two directions.

A client is an object at an address of its own, and the lists of the other clients point to it. To
follow a pointer to an object that was erased is undefined, and so are an iterator that was erased
under a loop and an `int` that overflows: the handlers return `none` there. -/

namespace Nx508j.Ipacm.Lan2Lan

open Nx508j.Lib Function

/-! ## Data -/

/-- `IPA_IP_v4` and `IPA_IP_v6`. A value that is neither of them is `none` of `Option IpType`. -/
inductive IpType
  | v4
  | v6
deriving DecidableEq, Repr

/-- `ipacm_iface_type`. -/
inductive IfaceType
  | lanIf
  | wlanIf
  | wanIf
  | virtualIf
  | ethIf
  | embmsIf
  | oduIf
  | unknownIf
deriving DecidableEq, Repr

/-- The address of a `client_info`. -/
abbrev Ptr := Nat

/-- An `IPACM_Lan` object. -/
abbrev Iface := Nat

abbrev Mac := BitVec 48

/-- The handle of a filter rule or of a header. -/
abbrev Hdl := BitVec 32

/-- What finds a client in its table: the IPv4 address, or the lower half of the IPv6 address. -/
abbrev Key := BitVec 64

/-- `uint32_t ipv6_addr[4]`. -/
structure V6Addr where
  a0 : BitVec 32
  a1 : BitVec 32
  a2 : BitVec 32
  a3 : BitVec 32
deriving DecidableEq, Repr

/-- What `memcpy` reads from `ipv6_addr[2]` on. -/
def V6Addr.low (a : V6Addr) : Key := a.a3 ++ a.a2

/-- `lan_to_lan_rt_rule_hdl`. -/
structure RtRuleHdl where
  numRule : BitVec 8
  ruleHdl : List (BitVec 32)
deriving DecidableEq, Repr

structure PeerInfo where
  peerPointer : Ptr
  numConnection : Int
deriving DecidableEq, Repr

/-- `offload_link_info`: the handles of one direction of a link. -/
structure OffloadLinkInfo where
  peerPointer : Ptr
  fltRuleHdl : Hdl
  rtRuleHdl : RtRuleHdl
  hdrHdl : Hdl
deriving DecidableEq, Repr

/-- `client_info`. The IPv4 address shares its memory with the first word of the IPv6 address. -/
structure ClientInfo where
  ip : V6Addr
  macAddr : Mac
  isActive : Bool
  isPowersave : Bool
  pIface : Iface
  peer : List PeerInfo
  link : List OffloadLinkInfo
deriving DecidableEq, Repr

/-- `ipacm_event_lan_client`. -/
structure LanClientData where
  iptype : Option IpType
  ipv4Addr : BitVec 32
  ipv6Addr : V6Addr
  macAddr : Mac
  pIface : Option Iface
deriving DecidableEq, Repr

/-- `ipacm_event_connection`. -/
structure ConnectionData where
  iptype : IpType
  srcIpv4Addr : BitVec 32
  dstIpv4Addr : BitVec 32
  srcIpv6Addr : V6Addr
  dstIpv6Addr : V6Addr
deriving DecidableEq, Repr

/-- The events `event_callback` handles. Who posts one of the last two has looked at its type. -/
inductive Event
  | lanClientActive (data : LanClientData)
  | lanClientInactive (data : LanClientData)
  | lanClientDisconnect (data : LanClientData)
  | lanClientPowerSave (data : LanClientData)
  | lanClientPowerRecover (data : LanClientData)
  | lanToLanNewConnection (data : ConnectionData)
  | lanToLanDelConnection (data : ConnectionData)
deriving DecidableEq, Repr

/-- What is read of the configuration, and whether the build has `CT_OPT`. -/
structure Config where
  ctOpt : Bool
  ifCat : Iface → IfaceType
  privateSubnetTable : List (BitVec 32 × BitVec 32)

/-! ## What is asked of an interface -/

/-- A call of a method of `IPACM_Lan`. -/
inductive IfaceCall
  | addLan2lanHdr (iptype : IpType) (srcMac dstMac : Mac)
  | delLan2lanHdr (iptype : IpType) (hdrHdl : Hdl)
  | addLan2lanRtRule (iptype : IpType) (src dst : V6Addr) (hdrHdl : Hdl)
  | delLan2lanRtRule (iptype : IpType) (ruleHdl : RtRuleHdl)
  | addLan2lanFltRule (iptype : IpType) (src dst : V6Addr)
  | delLan2lanFltRule (iptype : IpType) (ruleHdl : Hdl)
deriving DecidableEq, Repr

/-- What a call that succeeds hands out. -/
structure Handed where
  hdl : Hdl
  rtHdl : RtRuleHdl
deriving DecidableEq, Repr

/-- How the interfaces answer, and what becomes of the world `ω` they are in. `none` is
    `IPACM_FAILURE`. -/
structure Ifaces (ω : Type) where
  call : ω → Iface → IfaceCall → Option Handed × ω

/-! ## The state -/

/-- `IPACM_LanToLan` for one IP version: `num_offload_pair`, `client_info`, which is the memory of the
    clients and where each key is in it, and the cached connections. `posted` is what was put into the
    queue of the dispatcher. -/
structure Side where
  numOffloadPair : BitVec 8
  clientInfo : List (Key × Ptr)
  mem : Ptr → Option ClientInfo
  next : Ptr
  connection : List ConnectionData
  posted : List Event

namespace Side

def init : Side := ⟨0, [], fun _ => none, 0, [], []⟩

/-- Where the client with a key is. -/
def find (s : Side) (key : Key) : Option Ptr := (record Prod.fst s.clientInfo key).map Prod.snd

/-- Change the client at `p`. -/
def modify (s : Side) (p : Ptr) (f : ClientInfo → ClientInfo) : Side :=
  { s with mem := update s.mem p ((s.mem p).map f) }

/-- Put a new client into the table. -/
def insert (s : Side) (key : Key) (client : ClientInfo) : Side :=
  { s with
    clientInfo := s.clientInfo ++ [(key, s.next)]
    mem := update s.mem s.next (some client)
    next := s.next + 1 }

/-- Erase the client with a key. -/
def erase (s : Side) (key : Key) : Side :=
  match s.find key with
  | none => s
  | some p =>
    { s with
      clientInfo := discard Prod.fst s.clientInfo key
      mem := update s.mem p none }

end Side

/-- The object, with a side for each IP version. -/
structure LanToLan where
  v4 : Side
  v6 : Side

namespace LanToLan

def init : LanToLan := ⟨.init, .init⟩

def side (s : LanToLan) : IpType → Side
  | .v4 => s.v4
  | .v6 => s.v6

def setSide (s : LanToLan) (t : IpType) (d : Side) : LanToLan :=
  match t with
  | .v4 => { s with v4 := d }
  | .v6 => { s with v6 := d }

end LanToLan

/-- `MAX_OFFLOAD_PAIR`. -/
def maxOffloadPair : Nat := 3

/-- `max_cache_connection`. -/
def maxCacheConnection : Nat := 20

/-- The sum as an `int`. -/
def addInt (n d : Int) : Option Int :=
  if -2 ^ 31 ≤ n + d ∧ n + d < 2 ^ 31 then some (n + d) else none

section Links

variable {ω : Type} (ops : Ifaces ω) (t : IpType)

/-! ## Links -/

/-- The calls of `add_offload_link`, for the direction from `client` to the client `peer` at
    `peerPointer`. -/
def installLink (client peer : ClientInfo) (peerPointer : Ptr) (w : ω) : Option OffloadLinkInfo × ω :=
  match ops.call w peer.pIface (.addLan2lanHdr t client.macAddr peer.macAddr) with
  | (none, w) => (none, w)
  | (some hdr, w) =>
    match ops.call w peer.pIface (.addLan2lanRtRule t client.ip peer.ip hdr.hdl) with
    | (none, w) =>
      let (_, w) := ops.call w peer.pIface (.delLan2lanHdr t hdr.hdl)
      (none, w)
    | (some rt, w) =>
      match ops.call w client.pIface (.addLan2lanFltRule t client.ip peer.ip) with
      | (none, w) =>
        let (_, w) := ops.call w peer.pIface (.delLan2lanRtRule t rt.rtHdl)
        let (_, w) := ops.call w peer.pIface (.delLan2lanHdr t hdr.hdl)
        (none, w)
      | (some flt, w) => (some ⟨peerPointer, flt.hdl, rt.rtHdl, hdr.hdl⟩, w)

/-- `add_offload_link`. -/
def addOffloadLink (client peer : Ptr) (s : Side) (w : ω) : Option (Bool × Side × ω) :=
  if maxOffloadPair ≤ s.numOffloadPair.toNat then some (false, s, w)
  else do
    let c ← s.mem client
    let p ← s.mem peer
    let (link, w) := installLink ops t c p peer w
    match link with
    | none => some (false, s, w)
    | some link => some (true, s.modify client fun c => { c with link := c.link ++ [link] }, w)

/-- `del_offload_link`. -/
def delOffloadLink (client peer : Iface) (link : OffloadLinkInfo) (w : ω) : Bool × ω :=
  let (flt, w) := ops.call w client (.delLan2lanFltRule t link.fltRuleHdl)
  let (rt, w) := ops.call w peer (.delLan2lanRtRule t link.rtRuleHdl)
  let (hdr, w) := ops.call w peer (.delLan2lanHdr t link.hdrHdl)
  (flt.isSome && rt.isSome && hdr.isSome, w)

/-- Remove the first link of the client at `p` that goes to `peer`. -/
def Side.dropLink (s : Side) (p peer : Ptr) : Side :=
  s.modify p fun c => { c with link := discard OffloadLinkInfo.peerPointer c.link peer }

/-- The loop of `turnoff_offload_links`. A client that is its own peer loses the entry the loop is at. -/
def turnoffFrom (client : Ptr) (pIface : Iface) :
    List OffloadLinkInfo → Side → ω → Option (Bool × Side × ω)
  | [], s, w => some (true, s, w)
  | link :: links, s, w => do
      let p ← s.mem link.peerPointer
      let (res, w) := delOffloadLink ops t pIface p.pIface link w
      if res = false then some (false, s, w)
      else
        match record OffloadLinkInfo.peerPointer p.link client with
        | none => some (false, s, w)
        | some back =>
          let (res, w) := delOffloadLink ops t p.pIface pIface back w
          if res = false then some (false, s, w)
          else if link.peerPointer = client then none
          else
            let s := s.dropLink link.peerPointer client
            turnoffFrom client pIface links { s with numOffloadPair := s.numOffloadPair - 1 } w

/-- `turnoff_offload_links`. -/
def turnoffOffloadLinks (client : Ptr) (s : Side) (w : ω) : Option (Bool × Side × ω) := do
  let c ← s.mem client
  let (res, s, w) ← turnoffFrom ops t client c.pIface c.link s w
  if res = false then some (false, s, w)
  else some (true, s.modify client fun c => { c with link := [] }, w)

/-- The loop of `check_potential_link`. -/
def checkPotentialFrom (client : Ptr) : List PeerInfo → Side → ω → Option (Side × ω)
  | [], s, w => some (s, w)
  | x :: peers, s, w => do
      let p ← s.mem x.peerPointer
      if p.isActive = true ∧ 0 < x.numConnection then
        let (_, s, w) ← addOffloadLink ops t client x.peerPointer s w
        let (res, s, w) ← addOffloadLink ops t x.peerPointer client s w
        let s := if res then { s with numOffloadPair := s.numOffloadPair + 1 } else s
        checkPotentialFrom client peers s w
      else checkPotentialFrom client peers s w

/-- `check_potential_link`. -/
def checkPotentialLink (client : Ptr) (s : Side) (w : ω) : Option (Side × ω) := do
  let c ← s.mem client
  checkPotentialFrom ops t client c.peer s w

/-- One direction of `erase_offload_link`. -/
def eraseLink (src dst : Ptr) (s : Side) (w : ω) : Option (Bool × Side × ω) := do
  let c ← s.mem src
  match record OffloadLinkInfo.peerPointer c.link dst with
  | none => some (false, s, w)
  | some link =>
    let d ← s.mem dst
    let (res, w) := delOffloadLink ops t c.pIface d.pIface link w
    some (res, s.dropLink src dst, w)

/-- `erase_offload_link`. -/
def eraseOffloadLink (src dst : Ptr) (s : Side) (w : ω) : Option (Side × ω) := do
  let (resSrc, s, w) ← eraseLink ops t src dst s w
  let (resDst, s, w) ← eraseLink ops t dst src s w
  if resSrc && resDst then some ({ s with numOffloadPair := s.numOffloadPair - 1 }, w)
  else some (s, w)

/-- The loop of `remove_flt_rules`. -/
def removeFltFrom (client : Ptr) (pIface : Iface) :
    List OffloadLinkInfo → Side → ω → Option (Bool × ω)
  | [], _, w => some (true, w)
  | link :: links, s, w => do
      let (_, w) := ops.call w pIface (.delLan2lanFltRule t link.fltRuleHdl)
      let p ← s.mem link.peerPointer
      match record OffloadLinkInfo.peerPointer p.link client with
      | none => some (false, w)
      | some back =>
        let (_, w) := ops.call w p.pIface (.delLan2lanFltRule t back.fltRuleHdl)
        removeFltFrom client pIface links s w

/-- `remove_flt_rules`. -/
def removeFltRules (client : Ptr) (s : Side) (w : ω) : Option (Bool × ω) := do
  let c ← s.mem client
  removeFltFrom ops t client c.pIface c.link s w

/-- Store the handle of the filter rule of link `i` of the client at `p`. -/
def Side.setFltRuleHdlAt (s : Side) (p : Ptr) (i : Nat) (hdl : Hdl) : Side :=
  s.modify p fun c => { c with link := c.link.modify i fun l => { l with fltRuleHdl := hdl } }

/-- Store the handle of the filter rule of the first link of the client at `p` to `peer`. -/
def Side.setFltRuleHdlTo (s : Side) (p peer : Ptr) (hdl : Hdl) : Side :=
  s.modify p fun c =>
    { c with
      link := amend OffloadLinkInfo.peerPointer (fun l => { l with fltRuleHdl := hdl }) peer c.link }

/-- The loop of `add_flt_rules`, which is at the link `i` of the client and has `n` links to go. -/
def addFltFrom (client : Ptr) : Nat → Nat → Side → ω → Option (Bool × Side × ω)
  | _, 0, s, w => some (true, s, w)
  | i, n + 1, s, w => do
      let c ← s.mem client
      let link ← c.link[i]?
      let p ← s.mem link.peerPointer
      match ops.call w c.pIface (.addLan2lanFltRule t c.ip p.ip) with
      | (none, w) => some (false, s, w)
      | (some flt, w) =>
        let s := s.setFltRuleHdlAt client i flt.hdl
        let p ← s.mem link.peerPointer
        match record OffloadLinkInfo.peerPointer p.link client with
        | none => some (false, s, w)
        | some _ =>
          match ops.call w p.pIface (.addLan2lanFltRule t p.ip c.ip) with
          | (none, w) => some (false, s, w)
          | (some flt, w) =>
            addFltFrom client (i + 1) n (s.setFltRuleHdlTo link.peerPointer client flt.hdl) w

/-- `add_flt_rules`. -/
def addFltRules (client : Ptr) (s : Side) (w : ω) : Option (Bool × Side × ω) := do
  let c ← s.mem client
  addFltFrom ops t client 0 c.link.length s w

end Links

namespace Side

/-! ## Peers -/

/-- Count one more connection of the client at `p` to `peer`. Returns whether `peer` is new to it. -/
def countPeer (s : Side) (p peer : Ptr) : Option (Bool × Side) := do
  let c ← s.mem p
  match record PeerInfo.peerPointer c.peer peer with
  | none => some (true, s.modify p fun c => { c with peer := c.peer ++ [⟨peer, 1⟩] })
  | some x =>
    let n ← addInt x.numConnection 1
    some (false, s.modify p fun c =>
      { c with
        peer := amend PeerInfo.peerPointer (fun x => { x with numConnection := n }) peer c.peer })

/-- `add_connection`. -/
def addConnection (s : Side) (src dst : Ptr) : Option (Bool × Side) := do
  let (newSrc, s) ← s.countPeer src dst
  let (newDst, s) ← s.countPeer dst src
  some (newSrc || newDst, s)

/-- Remove the first entry of the client at `p` for `peer`. -/
def dropPeer (s : Side) (p peer : Ptr) : Side :=
  s.modify p fun c => { c with peer := discard PeerInfo.peerPointer c.peer peer }

/-- Count one connection less of the client at `p` to `peer`. Returns whether it was the last. -/
def uncountPeer (s : Side) (p peer : Ptr) : Option (Bool × Side) := do
  let c ← s.mem p
  match record PeerInfo.peerPointer c.peer peer with
  | none => some (false, s)
  | some x =>
    let n ← addInt x.numConnection (-1)
    if n = 0 then some (true, s.dropPeer p peer)
    else
      some (false, s.modify p fun c =>
        { c with
          peer :=
            amend PeerInfo.peerPointer (fun x => { x with numConnection := n }) peer c.peer })

/-- `remove_connection`, which returns what became of the entry of `dst`. -/
def removeConnection (s : Side) (src dst : Ptr) : Option (Bool × Side) := do
  let (_, s) ← s.uncountPeer src dst
  s.uncountPeer dst src

/-- The loop of `clear_peer_list`. A client that is its own peer loses the entry the loop is at. -/
def clearPeerFrom (client : Ptr) : List PeerInfo → Side → Option (Bool × Side)
  | [], s => some (true, s)
  | x :: peers, s => do
      let p ← s.mem x.peerPointer
      match record PeerInfo.peerPointer p.peer client with
      | none => some (false, s)
      | some _ =>
        if x.peerPointer = client then none
        else clearPeerFrom client peers (s.dropPeer x.peerPointer client)

/-- `clear_peer_list`. -/
def clearPeerList (s : Side) (client : Ptr) : Option (Bool × Side) := do
  let c ← s.mem client
  let (res, s) ← clearPeerFrom client c.peer s
  if res = false then some (false, s)
  else some (true, s.modify client fun c => { c with peer := [] })

/-! ## Connections that are generated and cached -/

variable (cfg : Config)

/-- The address of a client in an event. -/
def connectionData (t : IpType) (src dst : V6Addr) : ConnectionData :=
  match t with
  | .v4 => ⟨t, src.a0, dst.a0, ⟨0, 0, 0, 0⟩, ⟨0, 0, 0, 0⟩⟩
  | .v6 => ⟨t, 0, 0, src, dst⟩

/-- `generate_new_connection`. -/
def generateNewConnection (t : IpType) (s : Side) (client : Ptr) : Option Side :=
  if cfg.ctOpt = true then some s
  else do
    let c ← s.mem client
    let qualified := s.clientInfo.filterMap fun e =>
      (s.mem e.2).filter fun p => cfg.ifCat p.pIface ≠ cfg.ifCat c.pIface ∧ p.isActive = true
    some { s with
      posted :=
        s.posted ++ qualified.map fun p => .lanToLanNewConnection (connectionData t c.ip p.ip) }

/-- What `src` of a connection finds in the table. -/
def srcKey (conn : ConnectionData) : Key :=
  match conn.iptype with
  | .v4 => conn.srcIpv4Addr.setWidth 64
  | .v6 => conn.srcIpv6Addr.low

/-- What `dst` of a connection finds in the table. -/
def dstKey (conn : ConnectionData) : Key :=
  match conn.iptype with
  | .v4 => conn.dstIpv4Addr.setWidth 64
  | .v6 => conn.dstIpv6Addr.low

/-- Whether the whole address of `src` is `ip`. -/
def srcIs (conn : ConnectionData) (ip : V6Addr) : Bool :=
  match conn.iptype with
  | .v4 => conn.srcIpv4Addr = ip.a0
  | .v6 => conn.srcIpv6Addr = ip

/-- Whether the whole address of `dst` is `ip`. -/
def dstIs (conn : ConnectionData) (ip : V6Addr) : Bool :=
  match conn.iptype with
  | .v4 => conn.dstIpv4Addr = ip.a0
  | .v6 => conn.dstIpv6Addr = ip

/-- The test of `check_cache_connection`: one end is the client, the other is in the table. -/
def revives (s : Side) (ip : V6Addr) (conn : ConnectionData) : Bool :=
  (srcIs conn ip && (s.find (dstKey conn)).isSome) ||
    (dstIs conn ip && (s.find (srcKey conn)).isSome)

/-- `check_cache_connection`. -/
def checkCacheConnection (s : Side) (client : Ptr) : Option Side :=
  if cfg.ctOpt = false then some s
  else do
    let c ← s.mem client
    some { s with
      posted := s.posted ++ (s.connection.filter (s.revives c.ip)).map .lanToLanNewConnection
      connection := s.connection.filter fun conn => !s.revives c.ip conn }

/-- `is_lan2lan_connection`. -/
def isLan2lanConnection (s : Side) (conn : ConnectionData) : Option Bool :=
  match s.find (srcKey conn), s.find (dstKey conn) with
  | some src, some dst => do
      let c ← s.mem src
      let d ← s.mem dst
      some (cfg.ifCat c.pIface ≠ cfg.ifCat d.pIface)
  | _, _ => some false

/-- Whether an address is in one of the private subnets. -/
def inPrivateSubnet (addr : BitVec 32) : Bool :=
  cfg.privateSubnetTable.any fun e => addr &&& e.2 = e.1 &&& e.2

/-- `ipv6_multicast_addr` and `ipv6_multicast_mask`. -/
def ipv6MulticastAddr : BitVec 32 := 0xff000000#32

/-- `is_potential_lan2lan_connection`. -/
def isPotentialLan2lanConnection (conn : ConnectionData) : Bool :=
  match conn.iptype with
  | .v4 => inPrivateSubnet cfg conn.srcIpv4Addr && inPrivateSubnet cfg conn.dstIpv4Addr
  | .v6 =>
    conn.srcIpv6Addr.a0 &&& ipv6MulticastAddr ≠ ipv6MulticastAddr ∧
      conn.dstIpv6Addr.a0 &&& ipv6MulticastAddr ≠ ipv6MulticastAddr

/-- `cache_new_connection`. -/
def cacheNewConnection (s : Side) (conn : ConnectionData) : Side :=
  if isPotentialLan2lanConnection cfg conn = true then
    let cached := if s.connection.length = maxCacheConnection then [] else s.connection
    { s with connection := cached ++ [conn] }
  else s

/-- The test of `remove_cache_connection`. -/
def sameEnds (conn conn' : ConnectionData) : Bool :=
  match conn'.iptype with
  | .v4 => conn.srcIpv4Addr = conn'.srcIpv4Addr ∧ conn.dstIpv4Addr = conn'.dstIpv4Addr
  | .v6 => conn.srcIpv6Addr = conn'.srcIpv6Addr ∧ conn.dstIpv6Addr = conn'.dstIpv6Addr

/-- `remove_cache_connection`. -/
def removeCacheConnection (s : Side) (conn : ConnectionData) : Side :=
  if isPotentialLan2lanConnection cfg conn = true then
    { s with connection := s.connection.eraseP fun conn' => sameEnds conn' conn }
  else s

/-- `handle_new_connection`, for one of the IP types. -/
def handleNewConnection (s : Side) (conn : ConnectionData) : Option Side :=
  if cfg.ctOpt = false then some s
  else do
    let res ← s.isLan2lanConnection cfg conn
    if res = false then some (s.cacheNewConnection cfg conn)
    else some { s with posted := s.posted ++ [.lanToLanNewConnection conn] }

/-- `handle_del_connection`, for one of the IP types. -/
def handleDelConnection (s : Side) (conn : ConnectionData) : Option Side :=
  if cfg.ctOpt = false then some s
  else do
    let res ← s.isLan2lanConnection cfg conn
    if res = false then some (s.removeCacheConnection cfg conn)
    else some { s with posted := s.posted ++ [.lanToLanDelConnection conn] }

end Side

/-! ## Handlers -/

/-- What finds the client of an event in the table. -/
def LanClientData.key (data : LanClientData) : IpType → Key
  | .v4 => data.ipv4Addr.setWidth 64
  | .v6 => data.ipv6Addr.low

/-- Copy the data of an event into a client, which becomes active. -/
def LanClientData.fill (data : LanClientData) (t : IpType) (pIface : Iface) (c : ClientInfo) :
    ClientInfo :=
  { c with
    ip :=
      match t with
      | .v4 => { c.ip with a0 := data.ipv4Addr }
      | .v6 => data.ipv6Addr
    macAddr := data.macAddr
    isActive := true
    isPowersave := false
    pIface := pIface }

/-- A client after `operator[]` of the table has made it. -/
def ClientInfo.blank : ClientInfo := ⟨⟨0, 0, 0, 0⟩, 0, false, false, 0, [], []⟩

namespace Side

variable {ω : Type} (cfg : Config) (ops : Ifaces ω) (t : IpType)

/-- What is done last for a client that became active. -/
def announce (s : Side) (client : Ptr) : Option Side := do
  let s ← s.generateNewConnection cfg t client
  s.checkCacheConnection cfg client

/-- `handle_client_active`. -/
def handleClientActive (data : LanClientData) (pIface : Iface) (s : Side) (w : ω) :
    Option (Side × ω) :=
  match s.find (data.key t) with
  | none => do
      let p := s.next
      let s := s.insert (data.key t) (data.fill t pIface .blank)
      let s ← s.announce cfg t p
      some (s, w)
  | some p => do
      let c ← s.mem p
      if c.isActive = true then
        if c.macAddr = data.macAddr then some (s, w)
        else
          let (_, s, w) ← turnoffOffloadLinks ops t p s w
          let (_, s) ← s.clearPeerList p
          let s ← (s.modify p (data.fill t pIface)).announce cfg t p
          some (s, w)
      else
        let (s, w) ← checkPotentialLink ops t p (s.modify p (data.fill t pIface)) w
        let s ← s.announce cfg t p
        some (s, w)

/-- `handle_client_inactive`. -/
def handleClientInactive (data : LanClientData) (s : Side) (w : ω) : Option (Side × ω) :=
  match s.find (data.key t) with
  | none => some (s, w)
  | some p => do
      let (_, s, w) ← turnoffOffloadLinks ops t p s w
      let s := s.modify p fun c => { c with isActive := false }
      let c ← s.mem p
      if c.peer = [] then some (s.erase (data.key t), w) else some (s, w)

/-- `handle_client_disconnect`. -/
def handleClientDisconnect (data : LanClientData) (s : Side) (w : ω) : Option (Side × ω) :=
  match s.find (data.key t) with
  | none => some (s, w)
  | some p => do
      let (_, s, w) ← turnoffOffloadLinks ops t p s w
      let (_, s) ← s.clearPeerList p
      some (s.erase (data.key t), w)

/-- `handle_client_power_save`. -/
def handleClientPowerSave (data : LanClientData) (s : Side) (w : ω) : Option (Side × ω) :=
  match s.find (data.key t) with
  | none => some (s, w)
  | some p => do
      let (res, w) ← removeFltRules ops t p s w
      if res = false then some (s, w)
      else some (s.modify p fun c => { c with isActive := false, isPowersave := true }, w)

/-- `handle_client_power_recover`. -/
def handleClientPowerRecover (data : LanClientData) (s : Side) (w : ω) : Option (Side × ω) :=
  match s.find (data.key t) with
  | none => some (s, w)
  | some p => do
      let c ← s.mem p
      if c.isActive = true ∨ c.isPowersave = false then some (s, w)
      else
        let (res, s, w) ← addFltRules ops t p s w
        if res = false then some (s, w)
        else
          let s := s.modify p fun c => { c with isActive := true, isPowersave := false }
          let (s, w) ← checkPotentialLink ops t p s w
          let s ← s.generateNewConnection cfg t p
          some (s, w)

/-- `handle_new_lan2lan_connection`. -/
def handleNewLan2lanConnection (data : ConnectionData) (s : Side) (w : ω) : Option (Side × ω) :=
  match s.find (srcKey data), s.find (dstKey data) with
  | some src, some dst => do
      let (isFirst, s) ← s.addConnection src dst
      let c ← s.mem src
      let d ← s.mem dst
      if isFirst = true ∧ c.isActive = true ∧ d.isActive = true then
        let (res, s, w) ← addOffloadLink ops t src dst s w
        if res = false then some (s, w)
        else
          let (res, s, w) ← addOffloadLink ops t dst src s w
          if res = false then some (s, w)
          else some ({ s with numOffloadPair := s.numOffloadPair + 1 }, w)
      else some (s, w)
  | _, _ => some (s, w)

/-- The part of `handle_del_lan2lan_connection` that erases the links of two clients that are no
    peers any more. -/
def eraseLinks (src dst : Ptr) (s : Side) (w : ω) : Option (Side × ω) := do
  let c ← s.mem src
  let d ← s.mem dst
  if c.isActive = true ∧ d.isActive = true then eraseOffloadLink ops t src dst s w
  else
    let (s, w) ←
      if c.isPowersave = true ∧ (d.isActive = true ∨ d.isPowersave = true) then
        eraseOffloadLink ops t src dst s w
      else some (s, w)
    if d.isPowersave = true ∧ (c.isActive = true ∨ c.isPowersave = true) then
      eraseOffloadLink ops t dst src s w
    else some (s, w)

/-- The part of it that erases a client nobody needs any more. -/
def reap (s : Side) (key : Key) (p : Ptr) : Option Side := do
  let c ← s.mem p
  if c.isActive = false ∧ c.isPowersave = false ∧ c.peer = [] then some (s.erase key) else some s

/-- `handle_del_lan2lan_connection`. -/
def handleDelLan2lanConnection (data : ConnectionData) (s : Side) (w : ω) : Option (Side × ω) :=
  match s.find (srcKey data), s.find (dstKey data) with
  | some src, some dst => do
      let (res, s) ← s.removeConnection src dst
      if res = false then some (s, w)
      else
        let (s, w) ← eraseLinks ops t src dst s w
        let s ← s.reap (srcKey data) src
        let s ← s.reap (dstKey data) dst
        some (s, w)
  | _, _ => some (s, w)

end Side

/-! ## Runs -/

/-- What the object is asked to do: to handle an event, or to look at a connection. A connection that
    is missing or of no IP type is `none`. -/
inductive Input
  | eventCallback (event : Event)
  | handleNewConnection (conn : Option ConnectionData)
  | handleDelConnection (conn : Option ConnectionData)
deriving DecidableEq, Repr

/-- The IP type an input is about, if it is to be handled at all. -/
def Input.iptype : Input → Option IpType
  | .eventCallback (.lanClientActive data) => if data.pIface = none then none else data.iptype
  | .eventCallback (.lanClientInactive data) => if data.pIface = none then none else data.iptype
  | .eventCallback (.lanClientDisconnect data) => if data.pIface = none then none else data.iptype
  | .eventCallback (.lanClientPowerSave data) => if data.pIface = none then none else data.iptype
  | .eventCallback (.lanClientPowerRecover data) => if data.pIface = none then none else data.iptype
  | .eventCallback (.lanToLanNewConnection data) => some data.iptype
  | .eventCallback (.lanToLanDelConnection data) => some data.iptype
  | .handleNewConnection conn => conn.map ConnectionData.iptype
  | .handleDelConnection conn => conn.map ConnectionData.iptype

variable {ω : Type}

/-- `event_callback`, `handle_new_connection` and `handle_del_connection`, for one IP type. -/
def Side.handle (cfg : Config) (ops : Ifaces ω) (t : IpType) (s : Side) (w : ω) :
    Input → Option (Side × ω)
  | .eventCallback (.lanClientActive data) =>
    data.pIface.elim (some (s, w)) fun pIface => s.handleClientActive cfg ops t data pIface w
  | .eventCallback (.lanClientInactive data) => s.handleClientInactive ops t data w
  | .eventCallback (.lanClientDisconnect data) => s.handleClientDisconnect ops t data w
  | .eventCallback (.lanClientPowerSave data) => s.handleClientPowerSave ops t data w
  | .eventCallback (.lanClientPowerRecover data) => s.handleClientPowerRecover cfg ops t data w
  | .eventCallback (.lanToLanNewConnection data) => s.handleNewLan2lanConnection ops t data w
  | .eventCallback (.lanToLanDelConnection data) => s.handleDelLan2lanConnection ops t data w
  | .handleNewConnection conn => do
      let s ← conn.elim (some s) (s.handleNewConnection cfg)
      some (s, w)
  | .handleDelConnection conn => do
      let s ← conn.elim (some s) (s.handleDelConnection cfg)
      some (s, w)

/-- An input and the interfaces as they answer while it is handled. -/
def step (cfg : Config) (s : LanToLan × ω) (c : Input × Ifaces ω) :
    Except Fault ((LanToLan × ω) × Unit) :=
  match c.1.iptype with
  | none => .ok (s, ())
  | some t =>
    match (s.1.side t).handle cfg c.2 t s.2 c.1 with
    | none => .error .outOfBounds
    | some (d, w) => .ok ((s.1.setSide t d, w), ())

end Nx508j.Ipacm.Lan2Lan
