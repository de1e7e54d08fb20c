import Nx508j.Ipacm.LanHdr
import Nx508j.Lib.KeyedArray

/-! # The Ethernet clients of an interface

An `IPACM_Lan` keeps its clients in an array of `IPA_MAX_NUM_ETH_CLIENTS` records, of which the
first `num_eth_client` are in use. A client has headers, addresses and, for each TX property of the
interface, the handles of its routing rules. When a client goes, the clients after it move down; of
their addresses and handles those are copied that the counters of the client say are there.

An ioctl may fail. What the conntrack listener and the resource manager are told does not come back,
and is left out. -/

namespace Nx508j.Ipacm.EthClients

open Nx508j.Lib Function
open Lan2Lan (IpType Mac Hdl V6Addr CopyHdr AddHdr macBytes overwrite ipaResourceNameMax)

/-- `IPA_MAX_NUM_ETH_CLIENTS` -/
def maxNumEthClients : Nat := 15

/-- `IPV6_NUM_ADDR` -/
def ipv6NumAddr : Nat := 3

/-- `eth_client_rt_hdl` -/
structure EthClientRtHdl where
  ethRtRuleHdlV4 : Hdl := 0
  ethRtRuleHdlV6 : Fin ipv6NumAddr → Hdl := fun _ => 0
  ethRtRuleHdlV6Wan : Fin ipv6NumAddr → Hdl := fun _ => 0

/-- `ipa_eth_client` -/
structure EthClient where
  mac : Mac := 0
  v4Addr : BitVec 32 := 0
  v6Addr : Fin ipv6NumAddr → V6Addr := fun _ => ⟨0, 0, 0, 0⟩
  hdrHdlV4 : Hdl := 0
  hdrHdlV6 : Hdl := 0
  routeRuleSetV4 : Bool := false
  routeRuleSetV6 : Nat := 0
  ipv4Set : Bool := false
  ipv6Set : Nat := 0
  ipv4HeaderSet : Bool := false
  ipv6HeaderSet : Bool := false
  ethRtHdl : Nat → EthClientRtHdl := fun _ => {}

/-- A TX property: its IP version, the name of its header and its pipe. -/
structure TxProp where
  ip : IpType
  hdrName : String
  dstPipe : Nat
deriving DecidableEq, Repr

/-- What an interface has. -/
structure EthIface where
  txProp : Option (List TxProp)
  ipaIfNum : Nat
  /-- `ODU_hdr_hdl_v4`, where `if_cat` is `ODU_IF`. -/
  odu : Option Hdl
  hdrMaxSize : Nat

/-- `num_tx_props` and the properties. -/
def EthIface.tx (iface : EthIface) : List TxProp := iface.txProp.getD []

/-- The routing table of a rule. -/
inductive RtTbl
  | lanV4
  | v6
  | wanV6
deriving DecidableEq, Repr

/-- `struct ipa_rt_rule_add`. Without a pipe the destination is `IPA_CLIENT_APPS_LAN_CONS`. -/
structure RtRule where
  rtTbl : RtTbl
  dst : Option Nat
  hdrHdl : Hdl
  dstAddr : BitVec 32 ⊕ V6Addr
deriving DecidableEq, Repr

/-- What `calloc` and the driver answer. `addRoutingRule` is also told the TX property. -/
structure Answers where
  calloc : Bool := true
  copyHeader : String → Option CopyHdr
  addHeader : AddHdr → Option Hdl
  addRoutingRule : Nat → RtRule → Option Hdl
  deleteRoutingHdl : Hdl → Bool
  deleteHeaderHdl : Hdl → Bool

/-- `ipacm_event_data_all`, of which the address of the version is used. -/
structure EventDataAll where
  iptype : IpType
  macAddr : Mac
  ipv4Addr : BitVec 32
  ipv6Addr : V6Addr
deriving DecidableEq, Repr

/-! ## Headers -/

/-- `snprintf` into the two bytes of `index`. -/
def index (n : Nat) : String := String.ofList ((Nat.toDigits 10 n).take 1)

/-- The name of a header. -/
def hdrName (iface : EthIface) (headerNameCount : Nat) (t : IpType) : String :=
  index iface.ipaIfNum ++ (match t with | .v4 => "IPACM_ETH_v4" | .v6 => "IPACM_ETH_v6") ++
    index headerNameCount

/-- The header of a client. -/
def ethHdr (c : CopyHdr) (macAddr : Mac) : List (BitVec 8) :=
  if c.isEth2OfstValid then overwrite c.hdr c.eth2Ofst (macBytes macAddr) else c.hdr

/-- The header of a version, for the first TX property that has it, where there is one. `none` is a
    failure. -/
def constructHdr (iface : EthIface) (a : Answers) (headerNameCount : Nat) (macAddr : Mac)
    (t : IpType) : Option (Option Hdl) :=
  match iface.tx.find? fun tx => tx.ip = t with
  | none => some none
  | some tx =>
    match a.copyHeader tx.hdrName with
    | none => none
    | some sCopyHeader =>
      let name := hdrName iface headerNameCount t
      if iface.hdrMaxSize < sCopyHeader.hdr.length then none
      else if ipaResourceNameMax < name.length then none
      else (a.addHeader ⟨name, ethHdr sCopyHeader macAddr⟩).map some

/-- `DeleteHeaderHdl` -/
def deleteHeaderHdl (a : Answers) (hdrHdl : Hdl) : Bool := hdrHdl ≠ 0 && a.deleteHeaderHdl hdrHdl

/-- `DeleteRoutingHdl` -/
def deleteRoutingHdl (a : Answers) (rtRuleHdl : Hdl) : Bool :=
  rtRuleHdl = 0 || a.deleteRoutingHdl rtRuleHdl

/-- The TX properties of a version, with their indices. -/
def EthIface.txOf (iface : EthIface) (t : IpType) : List (TxProp × Nat) :=
  iface.tx.zipIdx.filter fun x => x.1.ip = t

/-- The indices of a loop up to `n`, which is at most `IPV6_NUM_ADDR`. -/
def upTo (n : Nat) : List (Fin ipv6NumAddr) := (List.finRange ipv6NumAddr).filter fun k => k.val < n

/-! ## What becomes of a client -/

namespace EthClient

variable (iface : EthIface) (a : Answers) (c : EthClient)

def setHdr (t : IpType) (hdl : Option Hdl) : EthClient :=
  match hdl with
  | none => c
  | some hdl =>
    match t with
    | .v4 => { c with hdrHdlV4 := hdl, ipv4HeaderSet := true }
    | .v6 => { c with hdrHdlV6 := hdl, ipv6HeaderSet := true }

def setRt (i : Nat) (f : EthClientRtHdl → EthClientRtHdl) : EthClient :=
  { c with ethRtHdl := update c.ethRtHdl i (f (c.ethRtHdl i)) }

/-- `delete_eth_rtrules`. A rule that is not deleted ends it. -/
def deleteEthRtrules (t : IpType) : EthClient × Bool :=
  match t with
  | .v4 =>
    if c.routeRuleSetV4 = false then (c, true)
    else if (iface.txOf .v4).all fun x =>
        deleteRoutingHdl a (c.ethRtHdl x.2).ethRtRuleHdlV4 then
      ({ c with routeRuleSetV4 := false }, true)
    else (c, false)
  | .v6 =>
    if (iface.txOf .v6).all fun x => (upTo c.routeRuleSetV6).all fun k =>
        deleteRoutingHdl a ((c.ethRtHdl x.2).ethRtRuleHdlV6 k) &&
          deleteRoutingHdl a ((c.ethRtHdl x.2).ethRtRuleHdlV6Wan k) then
      ({ c with routeRuleSetV6 := 0 }, true)
    else (c, false)

/-- `handle_eth_client_ipaddr`, for the client that was found. -/
def handleIpaddr (data : EventDataAll) : EthClient × Bool :=
  match data.iptype with
  | .v4 =>
    if data.ipv4Addr = 0 then (c, false)
    else if c.ipv4Set = false then ({ c with v4Addr := data.ipv4Addr, ipv4Set := true }, true)
    else if data.ipv4Addr = c.v4Addr then (c, false)
    else
      -- whether the rules of the old address are deleted or not
      let c := (c.deleteEthRtrules iface a .v4).1
      ({ c with routeRuleSetV4 := false, v4Addr := data.ipv4Addr }, true)
  | .v6 =>
    if data.ipv6Addr = ⟨0, 0, 0, 0⟩ then (c, true)
    else if h : c.ipv6Set < ipv6NumAddr then
      if (upTo c.ipv6Set).any fun k => data.ipv6Addr = c.v6Addr k then (c, false)
      else
        ({ c with
            v6Addr := update c.v6Addr ⟨c.ipv6Set, h⟩ data.ipv6Addr
            ipv6Set := c.ipv6Set + 1 }, true)
    else (c, false)

/-- The routing rule for the IPv4 address and a TX property. -/
def ruleV4 (x : TxProp × Nat) : RtRule where
  rtTbl := .lanV4
  dst := some x.1.dstPipe
  hdrHdl := iface.odu.getD c.hdrHdlV4
  dstAddr := .inl c.v4Addr

def addRuleV4 (x : TxProp × Nat) : Except EthClient EthClient :=
  match a.addRoutingRule x.2 (c.ruleV4 iface x) with
  | none => .error c
  | some hdl => .ok (c.setRt x.2 fun r => { r with ethRtRuleHdlV4 := hdl })

/-- The routing rules for an IPv6 address and a TX property: to the A5, and from the WAN. -/
def ruleV6 (k : Fin ipv6NumAddr) : RtRule where
  rtTbl := .v6
  dst := none
  hdrHdl := 0
  dstAddr := .inr (c.v6Addr k)

def ruleV6Wan (x : TxProp × Nat) (k : Fin ipv6NumAddr) : RtRule where
  rtTbl := .wanV6
  dst := some x.1.dstPipe
  hdrHdl := c.hdrHdlV6
  dstAddr := .inr (c.v6Addr k)

def addRulesV6 (x : TxProp × Nat) (k : Fin ipv6NumAddr) : Except EthClient EthClient :=
  match a.addRoutingRule x.2 (c.ruleV6 k) with
  | none => .error c
  | some hdl =>
    let c := c.setRt x.2 fun r =>
      { r with ethRtRuleHdlV6 := update r.ethRtRuleHdlV6 k hdl }
    match a.addRoutingRule x.2 (c.ruleV6Wan x k) with
    | none => .error c
    | some hdl =>
      .ok (c.setRt x.2 fun r =>
        { r with ethRtRuleHdlV6Wan := update r.ethRtRuleHdlV6Wan k hdl })

/-- `handle_eth_client_route_rule`, for the client that was found. -/
def handleRouteRule (t : IpType) : EthClient × Bool :=
  match t with
  | .v4 =>
    if c.routeRuleSetV4 = false ∧ c.ipv4Set = true then
      if a.calloc = false then (c, false)
      else
        match (iface.txOf .v4).foldlM (fun c x => addRuleV4 iface a c x) c with
        | .error c => (c, false)
        | .ok c => ({ c with routeRuleSetV4 := true }, true)
    else (c, true)
  | .v6 =>
    if c.routeRuleSetV6 < c.ipv6Set then
      if a.calloc = false then (c, false)
      else
        let news := (upTo c.ipv6Set).filter fun k => c.routeRuleSetV6 ≤ k.val
        match (iface.txOf .v6).foldlM
            (fun c x => news.foldlM (fun c k => addRulesV6 a c x k) c) c with
        | .error c => (c, false)
        | .ok c => ({ c with routeRuleSetV6 := c.ipv6Set }, true)
    else (c, true)

/-- The header of a version is deleted. -/
def deleteHdr (t : IpType) : EthClient × Bool :=
  match t with
  | .v4 =>
    if c.ipv4HeaderSet = false then (c, true)
    else if deleteHeaderHdl a c.hdrHdlV4 = false then (c, false)
    else ({ c with ipv4HeaderSet := false }, true)
  | .v6 =>
    if c.ipv6HeaderSet = false then (c, true)
    else if deleteHeaderHdl a c.hdrHdlV6 = false then (c, false)
    else ({ c with ipv6HeaderSet := false }, true)

/-- What `handle_eth_client_down_evt` does to the client, before it moves the others. -/
def handleDown : EthClient × Bool :=
  match c.deleteEthRtrules iface a .v4 with
  | (c, false) => (c, false)
  | (c, true) =>
    match c.deleteEthRtrules iface a .v6 with
    | (c, false) => (c, false)
    | (c, true) =>
      match c.deleteHdr a .v4 with
      | (c, false) => (c, false)
      | (c, true) =>
        match c.deleteHdr a .v6 with
        | (c, false) => (c, false)
        | (c, true) =>
          ({ c with
              ipv4Set := false
              ipv6Set := 0
              ipv4HeaderSet := false
              ipv6HeaderSet := false
              routeRuleSetV4 := false
              routeRuleSetV6 := 0 }, true)

/-- A client moves down: what its counters do not cover is what the entry had before. -/
def moveDown (dst src : EthClient) : EthClient where
  mac := src.mac
  hdrHdlV4 := src.hdrHdlV4
  hdrHdlV6 := src.hdrHdlV6
  v4Addr := src.v4Addr
  ipv4Set := src.ipv4Set
  ipv6Set := src.ipv6Set
  ipv4HeaderSet := src.ipv4HeaderSet
  ipv6HeaderSet := src.ipv6HeaderSet
  routeRuleSetV4 := src.routeRuleSetV4
  routeRuleSetV6 := src.routeRuleSetV6
  v6Addr := fun k => if k.val < src.ipv6Set then src.v6Addr k else dst.v6Addr k
  ethRtHdl := fun i =>
    if i < iface.tx.length then
      { ethRtRuleHdlV4 := (src.ethRtHdl i).ethRtRuleHdlV4
        ethRtRuleHdlV6 := fun k =>
          if k.val < src.routeRuleSetV6 then (src.ethRtHdl i).ethRtRuleHdlV6 k
          else (dst.ethRtHdl i).ethRtRuleHdlV6 k
        ethRtRuleHdlV6Wan := fun k =>
          if k.val < src.routeRuleSetV6 then (src.ethRtHdl i).ethRtRuleHdlV6Wan k
          else (dst.ethRtHdl i).ethRtRuleHdlV6Wan k }
    else dst.ethRtHdl i

end EthClient

/-- The loop that moves `k` clients down, to the entries from `i` on. -/
def compact (iface : EthIface) : Nat → Nat → (Nat → EthClient) → Nat → EthClient
  | 0, _, slots => slots
  | k + 1, i, slots =>
    compact iface k (i + 1)
      (update slots i (EthClient.moveDown iface (slots i) (slots (i + 1))))

/-! ## The table -/

/-- `eth_client`, `num_eth_client` and `header_name_count`. -/
structure EthTable where
  ethClient : Nat → EthClient
  numEthClient : Nat
  headerNameCount : Nat

namespace EthTable

/-- The constructor. -/
def init : EthTable := ⟨fun _ => {}, 0, 0⟩

variable (iface : EthIface) (a : Answers) (s : EthTable)

/-- `get_eth_client_index` -/
def getEthClientIndex (macAddr : Mac) : Option Nat :=
  indexOf? EthClient.mac s.numEthClient s.ethClient macAddr

def set (i : Nat) (c : EthClient) : EthTable :=
  { s with ethClient := update s.ethClient i c }

/-- `handle_eth_hdr_init`. A client for which it fails is written to the entry after those in use.
    -/
def handleEthHdrInit (macAddr : Mac) : EthTable × Bool :=
  if (s.getEthClientIndex macAddr).isSome then (s, false)
  else if maxNumEthClients ≤ s.numEthClient then (s, false)
  else
    let i := s.numEthClient
    let c := { s.ethClient i with mac := macAddr }
    if iface.txProp = none then (s.set i c, true)
    else if a.calloc = false then (s.set i c, false)
    else
      match constructHdr iface a s.headerNameCount macAddr .v4 with
      | none => (s.set i c, false)
      | some hdl4 =>
        let c := c.setHdr .v4 hdl4
        match constructHdr iface a s.headerNameCount macAddr .v6 with
        | none => (s.set i c, false)
        | some hdl6 =>
          let c := c.setHdr .v6 hdl6
          let c := { c with
            routeRuleSetV4 := false, routeRuleSetV6 := 0, ipv4Set := false, ipv6Set := 0 }
          ({ s.set i c with
              numEthClient := s.numEthClient + 1
              headerNameCount := s.headerNameCount + 1 }, true)

/-- `handle_eth_client_ipaddr` -/
def handleEthClientIpaddr (data : EventDataAll) : EthTable × Bool :=
  match s.getEthClientIndex data.macAddr with
  | none => (s, false)
  | some i =>
    let (c, res) := (s.ethClient i).handleIpaddr iface a data
    (s.set i c, res)

/-- `handle_eth_client_route_rule` -/
def handleEthClientRouteRule (macAddr : Mac) (t : IpType) : EthTable × Bool :=
  if iface.txProp = none then (s, true)
  else
    match s.getEthClientIndex macAddr with
    | none => (s, true)
    | some i =>
      let (c, res) := (s.ethClient i).handleRouteRule iface a t
      (s.set i c, res)

/-- `handle_eth_client_down_evt` -/
def handleEthClientDownEvt (macAddr : Mac) : EthTable × Bool :=
  match s.getEthClientIndex macAddr with
  | none => (s, true)
  | some i =>
    match (s.ethClient i).handleDown iface a with
    | (c, false) => (s.set i c, false)
    | (c, true) =>
      ({ s with
          ethClient := compact iface (s.numEthClient - 1 - i) i (s.set i c).ethClient
          numEthClient := s.numEthClient - 1 }, true)

end EthTable

/-- The events of a client. -/
inductive ClientEvent
  | hdrInit (a : Answers) (macAddr : Mac)
  | ipaddr (a : Answers) (data : EventDataAll)
  | routeRule (a : Answers) (macAddr : Mac) (t : IpType)
  | down (a : Answers) (macAddr : Mac)

namespace EthTable

def step (iface : EthIface) (s : EthTable) : ClientEvent → Except Fault (EthTable × Bool)
  | .hdrInit a macAddr => .ok (s.handleEthHdrInit iface a macAddr)
  | .ipaddr a data => .ok (s.handleEthClientIpaddr iface a data)
  | .routeRule a macAddr t => .ok (s.handleEthClientRouteRule iface a macAddr t)
  | .down a macAddr => .ok (s.handleEthClientDownEvt iface a macAddr)

end EthTable

end Nx508j.Ipacm.EthClients
