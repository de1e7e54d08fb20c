import Nx508j.Ipacm.EthClients
import Nx508j.Ipacm.LanOwners
import Nx508j.Ipacm.Wan

/-! # What an interface tells the LAN-to-LAN table about its clients

An `IPACM_Lan` posts a message when a client has an address, when a client goes, and for all clients
when their addresses are reset or the interface goes down. `IPACM_LanToLan` gets the messages in
this order. In between it gets what others post and looks at connections. -/

namespace Nx508j.Ipacm.EthClients

open Nx508j.Lib
open Lan2Lan (IpType Mac Iface Key V6Addr LanClientData Event Input Ifaces Config LanToLan Side
  ClientInfo)

/-! ## Messages -/

def IpType.family : IpType → IpFamily
  | .v4 => .v4
  | .v6 => .v6

/-- The fields of a message for an address. -/
def lanClient (this : Iface) (data : EventDataAll) : LanClientData where
  iptype := some data.iptype
  ipv4Addr := data.ipv4Addr
  ipv6Addr := data.ipv6Addr
  macAddr := data.macAddr
  pIface := some this

/-- `handle_lan2lan_client_active`, which posts nothing where the interface has no address of the
    version. -/
def handleLan2lanClientActive (this : Iface) (ipType : IfaceIpType) (data : EventDataAll)
    (event : LanClientData → Event) : List Event :=
  if ipType.has (IpType.family data.iptype) then [event (lanClient this data)] else []

/-- The addresses of a version that a client has, as they were announced. -/
def EthClient.announced (c : EthClient) : IpType → List EventDataAll
  | .v4 => if c.ipv4Set then [⟨.v4, c.mac, c.v4Addr, ⟨0, 0, 0, 0⟩⟩] else []
  | .v6 => (upTo c.ipv6Set).map fun j => ⟨.v6, c.mac, 0, c.v6Addr j⟩

/-- What `post_lan2lan_client_disconnect_msg` posts for a client. -/
def EthClient.disconnectMsgs (this : Iface) (c : EthClient) : IpType → List LanClientData
  | .v4 =>
    if c.ipv4Set then
      [{ iptype := some .v4
         ipv4Addr := c.v4Addr
         ipv6Addr := ⟨0, 0, 0, 0⟩
         macAddr := 0
         pIface := some this }]
    else []
  | .v6 =>
    (upTo c.ipv6Set).map fun j =>
      { iptype := some .v6
        ipv4Addr := 0
        -- the first word is written four times, and the others are left as `memset` made them
        ipv6Addr := ⟨(c.v6Addr j).a0, 0, 0, 0⟩
        macAddr := 0
        pIface := some this }

namespace EthTable

variable (this : Iface) (iface : EthIface) (a : Answers) (s : EthTable) (t : IpType)

/-- The addresses of a version that the clients have. -/
def announced : List EventDataAll :=
  (List.range s.numEthClient).flatMap fun i => (s.ethClient i).announced t

/-- `post_lan2lan_client_disconnect_msg` -/
def postLan2lanClientDisconnectMsg : List LanClientData :=
  (List.range s.numEthClient).flatMap fun i => (s.ethClient i).disconnectMsgs this t

/-- The first loop of `handle_lan_client_reset_rt`, which is at client `i` and has `k` to go. -/
def resetRtFrom : Nat → Nat → EthTable → EthTable × Bool
  | 0, _, s => (s, true)
  | k + 1, i, s =>
    match (s.ethClient i).deleteEthRtrules iface a t with
    | (c, false) => (s.set i c, false)
    | (c, true) => resetRtFrom k (i + 1) (s.set i c)

/-- The last loop of it. -/
def resetAddrs : EthTable :=
  { s with
    ethClient := fun i =>
      if i < s.numEthClient then
        match t with
        | .v4 => { s.ethClient i with ipv4Set := false }
        | .v6 => { s.ethClient i with ipv6Set := 0 }
      else s.ethClient i }

/-- `handle_lan_client_reset_rt`, with the messages it posts. -/
def handleLanClientResetRt : EthTable × List LanClientData :=
  match resetRtFrom iface a t s.numEthClient 0 s with
  | (s, false) => (s, [])
  | (s, true) => (s.resetAddrs t, s.postLan2lanClientDisconnectMsg this t)

end EthTable

/-! ## The interface and the table -/

/-- The interface, its messages that `IPACM_LanToLan` has not got yet, and that object, with the
    world `ω` that the other interfaces are in. -/
structure LanWorld (ω : Type) where
  isActive : Bool
  ipType : IfaceIpType
  table : EthTable
  pending : List Event
  lan2lan : LanToLan × ω

/-- What happens. Those of the interface are `IPA_ADDR_ADD_EVENT`, the two events of a client,
    `IPA_HANDLE_WAN_DOWN_V6` and `IPA_LINK_DOWN_EVENT`; the answers are those of the driver, and
    `res` is whether what `handle_down_evt` does before it posts its messages succeeds. -/
inductive ClientInput (ω : Type)
  | addrAdd (f : IpFamily)
  | neighClientIpAddrAdd (hdr addr rule : Answers) (data : EventDataAll)
  | neighClientIpAddrDel (a : Answers) (data : EventDataAll)
  | wanDownV6 (a : Answers)
  | linkDown (res : Bool)
  | deliver (ops : Ifaces ω)
  | other (input : Input) (ops : Ifaces ω)

namespace LanWorld

variable {ω : Type} (this : Iface) (iface : EthIface) (cfg : Config) (w : LanWorld ω)

/-- The constructor of the interface; `IPACM_LanToLan` has no clients. -/
def start (w₀ : ω) : LanWorld ω := ⟨true, .null, .init, [], (.init, w₀)⟩

def post (msgs : List Event) : LanWorld ω := { w with pending := w.pending ++ msgs }

/-- `IPA_NEIGH_CLIENT_IP_ADDR_ADD_EVENT` -/
def neighClientIpAddrAdd (hdr addr rule : Answers) (data : EventDataAll) : LanWorld ω :=
  let s := (w.table.handleEthHdrInit iface hdr data.macAddr).1
  let w := w.post (handleLan2lanClientActive this w.ipType data .lanClientActive)
  match s.handleEthClientIpaddr iface addr data with
  | (s, false) => { w with table := s }
  | (s, true) =>
    { w with table := (s.handleEthClientRouteRule iface rule data.macAddr data.iptype).1 }

/-- `IPA_NEIGH_CLIENT_IP_ADDR_DEL_EVENT` -/
def neighClientIpAddrDel (a : Answers) (data : EventDataAll) : LanWorld ω :=
  let s := (w.table.handleEthClientDownEvt iface a data.macAddr).1
  { w.post (handleLan2lanClientActive this w.ipType data .lanClientInactive) with table := s }

/-- `IPA_HANDLE_WAN_DOWN_V6` -/
def wanDownV6 (a : Answers) : LanWorld ω :=
  let (s, msgs) := w.table.handleLanClientResetRt this iface a .v6
  { w.post (msgs.map .lanClientDisconnect) with table := s }

/-- `handle_down_evt`: without an address, or after a failure, nothing is posted. -/
def handleDownEvt (res : Bool) : LanWorld ω :=
  let msgs :=
    if w.ipType = .null ∨ res = false then []
    else w.table.postLan2lanClientDisconnectMsg this .v4 ++
      w.table.postLan2lanClientDisconnectMsg this .v6
  { w.post (msgs.map .lanClientDisconnect) with isActive := false }

/-- `event_callback`. The interface does nothing once it is not active; a message with `p_iface` of
    the interface that makes a client active comes from the interface itself, and so from no other.
    -/
def step (w : LanWorld ω) : ClientInput ω → Except Fault (LanWorld ω × Unit)
  | .addrAdd f => .ok (if w.isActive then { w with ipType := w.ipType.add f } else w, ())
  | .neighClientIpAddrAdd hdr addr rule data =>
    .ok (if w.isActive then w.neighClientIpAddrAdd this iface hdr addr rule data else w, ())
  | .neighClientIpAddrDel a data =>
    .ok (if w.isActive then w.neighClientIpAddrDel this iface a data else w, ())
  | .wanDownV6 a => .ok (if w.isActive then w.wanDownV6 this iface a else w, ())
  | .linkDown res => .ok (if w.isActive then w.handleDownEvt this res else w, ())
  | .deliver ops =>
    match w.pending with
    | [] => .ok (w, ())
    | e :: pending => do
        let (l, _) ← Lan2Lan.step cfg w.lan2lan (.eventCallback e, ops)
        .ok ({ w with pending, lan2lan := l }, ())
  | .other input ops =>
    if input.activates = some this then .ok (w, ())
    else do
      let (l, _) ← Lan2Lan.step cfg w.lan2lan (input, ops)
      .ok ({ w with lan2lan := l }, ())

end LanWorld

end Nx508j.Ipacm.EthClients
