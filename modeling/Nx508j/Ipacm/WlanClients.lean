import Nx508j.Ipacm.EthMap
import Nx508j.Ipacm.HeaderNames

/-! # The clients of a WLAN interface

An `IPACM_Wlan` keeps its clients as an `IPACM_Lan` does, in records that have a flag for power save
and the attributes that the client was announced with as well. In power save a client has no routing
rules. A client is not looked for before it is added, and when a client goes the flag is not copied
with the rest of the clients that move down.

What the conntrack listener, the NAT table and the LAN-to-LAN table are told does not come back, and
is left out. -/

namespace Nx508j.Ipacm.WlanClients

open Nx508j.Lib EthClients
open HdrNames (maxNumWifiClients)
open Lan2Lan (IpType Mac Hdl V6Addr CopyHdr AddHdr macBytes overwrite ipaResourceNameMax)

/-- An attribute of `ipacm_event_data_wlan_ex`, by its type: what goes to the header at an offset.
    -/
inductive WlanHdrAttrib where
  | macAddr (offset : Nat) (macAddr : Mac)
  | staId (offset : Nat) (staId : List (BitVec 8))
  | other
deriving DecidableEq, Repr

/-- `ipa_wlan_client`: what an `ipa_eth_client` has, where `wifi_rt_hdl` is `ethRtHdl`, what
    `p_hdr_info` points to and the flag. -/
structure WlanClient extends EthClient where
  pHdrInfo : List WlanHdrAttrib := []
  powerSaveSet : Bool := false

/-- What an interface has. -/
structure WlanIface where
  txProp : Option (List TxProp)
  ipaIfNum : Nat
  hdrMaxSize : Nat

/-- The part that the Ethernet clients have as well. -/
def WlanIface.eth (iface : WlanIface) : EthIface :=
  ⟨iface.txProp, iface.ipaIfNum, none, iface.hdrMaxSize⟩

/-! ## Headers -/

/-- The MAC address that the record has after the attributes. -/
def attribsMac (attribs : List WlanHdrAttrib) (mac : Mac) : Mac :=
  attribs.foldl (fun mac attrib => match attrib with | .macAddr _ m => m | _ => mac) mac

/-- The attributes are written to a header. -/
def wlanHdr (attribs : List WlanHdrAttrib) (hdr : List (BitVec 8)) : List (BitVec 8) :=
  attribs.foldl (fun hdr attrib => match attrib with
    | .macAddr offset m => overwrite hdr offset (macBytes m)
    | .staId offset staId => overwrite hdr offset staId
    | .other => hdr) hdr

/-- The name of a header. -/
def wlanHdrName (iface : WlanIface) (headerNameCount : Nat) (t : IpType) : String :=
  HdrNames.hdrName ⟨.wlan, iface.ipaIfNum, iface.txProp, iface.hdrMaxSize⟩ headerNameCount t

/-! ## What becomes of a client -/

namespace WlanClient

variable (iface : WlanIface) (a : Answers) (c : WlanClient)

/-- Something is done to the part of the record that the Ethernet clients have. -/
def onEth (f : EthClient → EthClient × Bool) : WlanClient × Bool :=
  ({ c with toEthClient := (f c.toEthClient).1 }, (f c.toEthClient).2)

/-- The header of a version, for the first TX property that has it, where there is one. -/
def addHdr (headerNameCount : Nat) (attribs : List WlanHdrAttrib) (t : IpType) :
    WlanClient × Bool :=
  match iface.eth.tx.find? fun tx => tx.ip = t with
  | none => (c, true)
  | some tx =>
    match a.copyHeader tx.hdrName with
    | none => (c, false)
    | some sCopyHeader =>
      if iface.hdrMaxSize < sCopyHeader.hdr.length then (c, false)
      else
        let c := { c with mac := attribsMac attribs c.mac }
        let name := wlanHdrName iface headerNameCount t
        if ipaResourceNameMax < name.length then (c, false)
        else
          match a.addHeader ⟨name, wlanHdr attribs sCopyHeader.hdr⟩ with
          | none => (c, false)
          | some hdl => ({ c with toEthClient := c.toEthClient.setHdr t (some hdl) }, true)

/-- The end of `handle_wlan_client_init_ex`. -/
def start : WlanClient :=
  { c with
    routeRuleSetV4 := false
    routeRuleSetV6 := 0
    ipv4Set := false
    ipv6Set := 0
    powerSaveSet := false }

/-- `handle_wlan_client_pwrsave`, for the client that was found. Whether its rules are deleted is
    not looked at. -/
def pwrsave : WlanClient :=
  if c.powerSaveSet = false then
    let eth := (c.toEthClient.deleteEthRtrules iface.eth a .v4).1
    { c with toEthClient := (eth.deleteEthRtrules iface.eth a .v6).1, powerSaveSet := true }
  else c

/-- A client moves down. The entry keeps its flag. -/
def moveDown (dst src : WlanClient) : WlanClient where
  toEthClient := EthClient.moveDown iface.eth dst.toEthClient src.toEthClient
  pHdrInfo := src.pHdrInfo
  powerSaveSet := dst.powerSaveSet

end WlanClient

/-! ## The table -/

/-- `wlan_client`, `num_wifi_client`, `header_name_count` and `total_num_wifi_clients`, with the
    number of the clients of other WLAN interfaces. -/
structure WlanTable where
  wlanClient : Nat → WlanClient
  numWifiClient : Nat
  headerNameCount : Nat
  totalNumWifiClients : Nat
  others : Nat

namespace WlanTable

/-- The constructor, where other interfaces have so many clients. -/
def init (others : Nat) : WlanTable := ⟨fun _ => {}, 0, 0, others, others⟩

variable (iface : WlanIface) (a : Answers) (s : WlanTable)

/-- `get_wlan_client_index` -/
def getWlanClientIndex (macAddr : Mac) : Option Nat :=
  indexOf? (fun c : WlanClient => c.mac) s.numWifiClient s.wlanClient macAddr

def set (i : Nat) (c : WlanClient) : WlanTable :=
  { s with wlanClient := Function.update s.wlanClient i c }

/-- `handle_wlan_client_init_ex`. A client for which it fails is written to the entry after those in
    use. -/
def handleWlanClientInitEx (attribs : List WlanHdrAttrib) : WlanTable × Bool :=
  if maxNumWifiClients ≤ s.numWifiClient ∨ maxNumWifiClients ≤ s.totalNumWifiClients then (s, false)
  else if iface.txProp = none then (s, true)
  else if a.calloc = false then (s, false)
  else
    let i := s.numWifiClient
    let c := { s.wlanClient i with pHdrInfo := attribs }
    match c.addHdr iface a s.headerNameCount attribs .v4 with
    | (c, false) => (s.set i c, false)
    | (c, true) =>
      match c.addHdr iface a s.headerNameCount attribs .v6 with
      | (c, false) => (s.set i c, false)
      | (c, true) =>
        ({ s.set i c.start with
            numWifiClient := s.numWifiClient + 1
            headerNameCount := s.headerNameCount + 1
            totalNumWifiClients := s.totalNumWifiClients + 1 }, true)

/-- `handle_wlan_client_ipaddr` -/
def handleWlanClientIpaddr (data : EventDataAll) : WlanTable × Bool :=
  match s.getWlanClientIndex data.macAddr with
  | none => (s, false)
  | some i =>
    let (c, res) := (s.wlanClient i).onEth (·.handleIpaddr iface.eth a data)
    (s.set i c, res)

/-- `handle_wlan_client_route_rule` -/
def handleWlanClientRouteRule (macAddr : Mac) (t : IpType) : WlanTable × Bool :=
  if iface.txProp = none then (s, true)
  else
    match s.getWlanClientIndex macAddr with
    | none => (s, true)
    | some i =>
      if (s.wlanClient i).powerSaveSet then (s, true)
      else
        let (c, res) := (s.wlanClient i).onEth (·.handleRouteRule iface.eth a t)
        (s.set i c, res)

/-- `handle_wlan_client_pwrsave` -/
def handleWlanClientPwrsave (macAddr : Mac) : WlanTable × Bool :=
  match s.getWlanClientIndex macAddr with
  | none => (s, true)
  | some i => (s.set i ((s.wlanClient i).pwrsave iface a), true)

/-- `handle_wlan_client_down_evt` -/
def handleWlanClientDownEvt (macAddr : Mac) : WlanTable × Bool :=
  match s.getWlanClientIndex macAddr with
  | none => (s, true)
  | some i =>
    match (s.wlanClient i).onEth (·.handleDown iface.eth a) with
    | (c, false) => (s.set i c, false)
    | (c, true) =>
      ({ s with
          wlanClient :=
            shiftDown (WlanClient.moveDown iface) (s.numWifiClient - 1 - i) i
              (s.set i c).wlanClient
          numWifiClient := s.numWifiClient - 1
          totalNumWifiClients := s.totalNumWifiClients - 1 }, true)

/-! ## Events -/

/-- `IPA_NEIGH_CLIENT_IP_ADDR_ADD_EVENT` -/
def neighClientIpAddrAdd (addr rule : Answers) (data : EventDataAll) : WlanTable × Bool :=
  match s.handleWlanClientIpaddr iface addr data with
  | (s, false) => (s, false)
  | (s, true) => s.handleWlanClientRouteRule iface rule data.macAddr data.iptype

/-- `IPA_WLAN_CLIENT_RECOVER_EVENT` -/
def wlanClientRecover (rule4 rule6 : Answers) (macAddr : Mac) : WlanTable × Bool :=
  match s.getWlanClientIndex macAddr with
  | none => (s, true)
  | some i =>
    if (s.wlanClient i).powerSaveSet then
      let s := s.set i { s.wlanClient i with powerSaveSet := false }
      let s :=
        if (s.wlanClient i).ipv4Set then (s.handleWlanClientRouteRule iface rule4 macAddr .v4).1
        else s
      if (s.wlanClient i).ipv6Set ≠ 0 then s.handleWlanClientRouteRule iface rule6 macAddr .v6
      else (s, true)
    else (s, true)

/-- A client comes or goes at another interface. -/
def other (come : Bool) : WlanTable :=
  if come then
    if maxNumWifiClients ≤ s.totalNumWifiClients then s
    else { s with totalNumWifiClients := s.totalNumWifiClients + 1, others := s.others + 1 }
  else if s.others = 0 then s
  else { s with totalNumWifiClients := s.totalNumWifiClients - 1, others := s.others - 1 }

end WlanTable

/-- What happens, each with what the driver answers. -/
inductive WlanClientEvent where
  | add (a : Answers) (attribs : List WlanHdrAttrib)
  | ipaddr (addr rule : Answers) (data : EventDataAll)
  | powerSave (a : Answers) (macAddr : Mac)
  | recover (rule4 rule6 : Answers) (macAddr : Mac)
  | delete (a : Answers) (macAddr : Mac)
  | other (come : Bool)

def WlanTable.step (iface : WlanIface) (s : WlanTable) :
    WlanClientEvent → Except Fault (WlanTable × Bool)
  | .add a attribs => .ok (s.handleWlanClientInitEx iface a attribs)
  | .ipaddr addr rule data => .ok (s.neighClientIpAddrAdd iface addr rule data)
  | .powerSave a macAddr => .ok (s.handleWlanClientPwrsave iface a macAddr)
  | .recover rule4 rule6 macAddr => .ok (s.wlanClientRecover iface rule4 rule6 macAddr)
  | .delete a macAddr => .ok (s.handleWlanClientDownEvt iface a macAddr)
  | .other come => .ok (s.other come, true)

end Nx508j.Ipacm.WlanClients
