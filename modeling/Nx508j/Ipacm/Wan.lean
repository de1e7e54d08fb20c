import Nx508j.Ipacm.WanRules

/-! # The backhaul interfaces

There is an `IPACM_Wan` for each interface that may be the way to the network: the modem (`Q6_WAN`),
WLAN as a station and an Ethernet dongle. What all of them share are static members: whether WAN is
up for an IP version, the interfaces that are tethered to it, how many modem interfaces have an
address, and the downlink rules. Every event is handed to the interfaces one after the other, in the
order in which they were registered. -/

namespace Nx508j.Ipacm

open Nx508j.Lib Function

/-- `ipacm_wan_iface_type` -/
inductive WanIfaceType where
  | q6Wan
  | wlanWan
  | ecmWan
deriving DecidableEq, Repr

/-- `ip_type` of an interface: `IPACM_IP_NULL` until it has an address, `IPA_IP_MAX` for both
    families. -/
inductive IfaceIpType where
  | null
  | v4
  | v6
  | max
deriving DecidableEq, Repr

namespace IfaceIpType

def has : IfaceIpType → IpFamily → Bool
  | .v4, .v4 => true
  | .v6, .v6 => true
  | .max, _ => true
  | _, _ => false

/-- `ip_type` after an address of the family (`init_fl_rule`, `init_fl_rule_ex`). -/
def add (t : IfaceIpType) (f : IpFamily) : IfaceIpType :=
  if t.has f then t
  else
    match t, f with
    | .null, .v4 => .v4
    | .null, .v6 => .v6
    | _, _ => .max

end IfaceIpType

/-- `IPA_MAX_IFACE_ENTRIES` -/
def ipaMaxIfaceEntries : Nat := 15

/-- `IPA_MAX_NUM_WAN_CLIENTS` -/
def ipaMaxNumWanClients : Nat := 10

/-- `IPV6_NUM_ADDR` -/
def ipv6NumAddr : Nat := 3

/-- `MAX_DEFAULT_v6_ROUTE_RULES` -/
def maxDefaultV6RouteRules : Nat := 2

/-- `ipa_wan_client`. The addresses are those that are set. -/
structure WanClient where
  mac : BitVec 48
  v4_addr : Option (BitVec 32) := none
  v6_addr : List (BitVec 128) := []
  route_rule_set_v4 : Bool := false
  route_rule_set_v6 : Nat := 0
deriving DecidableEq, Repr

/-- The client has an address of the family without a routing rule. -/
def WanClient.unset (c : WanClient) : IpFamily → Bool
  | .v4 => !c.route_rule_set_v4 && c.v4_addr.isSome
  | .v6 => decide (c.route_rule_set_v6 < c.v6_addr.length)

/-- A call of `AddRmDepend`, with the place it is made at, or of `DelRmDepend`. -/
inductive RmCall where
  | addEmbms
  | addRoute
  | addClient
  | del
deriving DecidableEq, Repr

/-- An event that is posted. -/
inductive WanPost where
  | wanUp (f : IpFamily) (iface : Int) (is_sta : Bool)
  | wanDown (f : IpFamily) (iface : Int) (is_sta : Bool)
  | wanUpTether (f : IpFamily) (tether : Int) (is_sta : Bool)
  | wanDownTether (f : IpFamily) (tether : Int) (is_sta : Bool)
deriving DecidableEq, Repr

/-- What the driver tells of an interface: the families of its transmit properties, for which
    families these name a header, and whether there are receive and extended properties. -/
structure WanProps where
  tx_prop : Option (List IpFamily) := none
  hdr_name : IpFamily → Bool := fun _ => false
  rx_prop : Bool := false
  ext_prop : Bool := false

/-- `IPACM_Wan`. An interface that was made for eMBMS listens to link-down events only. `received`
    is which addresses it was told of, and `rm` which calls it made for its transmit resource. -/
structure Wan extends WanProps where
  ipa_if_num : Int
  m_is_sta_mode : WanIfaceType
  embms : Bool := false
  ip_type : IfaceIpType := .null
  ipv6_addr : List (BitVec 128) := []
  wan_v4_addr : BitVec 32 := 0
  active : IpFamily → Bool := fun _ => false
  header_set : IpFamily → Bool := fun _ => false
  header_partial_default_wan : IpFamily → Bool := fun _ => false
  is_default_gateway : Bool := false
  modem_pdn_index : IpFamily → Int := fun _ => 0
  wan_client : List WanClient := []
  received : IpFamily → Bool := fun _ => false
  rm : List RmCall := []

/-- The static members. A table of tethered interfaces is its first elements. `upstream` is which
    interface the last upstream route of a family is for, and `added` what is tethered to it: these
    are what the events say, and no function reads them. -/
structure WanStatics where
  wan_up : IpFamily → Bool := fun _ => false
  ipa_if_num_tether : IpFamily → List Int := fun _ => []
  num_modem_pdn : IpFamily → Int := fun _ => 0
  dl : DlRules := {}
  posted : List WanPost := []
  upstream : IpFamily → Option Int := fun _ => none
  added : IpFamily → List Int := fun _ => []

/-- `CopyHeader` for the transmit property of a family. -/
inductive CopyHeader where
  | failed
  | incomplete
  | complete
deriving DecidableEq, Repr

/-- What the driver answers an interface. -/
structure WanAnswers where
  addr : Bool := true
  addrFlt : Bool := true
  copyHeader : IpFamily → CopyHeader := fun _ => .complete
  route : IpFamily → Bool := fun _ => true
  routeDel : IpFamily → Bool := fun _ => true
  header : IpFamily → Bool := fun _ => true
  hdrInit : Bool := true
  clientRoute : Bool := true
  dl : IpFamily → DlEnv := fun _ => {}

namespace WanStatics

variable (s : WanStatics)

def setTable (f : IpFamily) (t : DlTable) : WanStatics := { s with dl := s.dl.setTable f t }

def setWanUp (f : IpFamily) (up : Bool) : WanStatics :=
  { s with wan_up := update s.wan_up f up }

def post (e : WanPost) : WanStatics := { s with posted := s.posted ++ [e] }

/-- `isWanUP` and `isWanUP_V6` -/
def isWanUP (f : IpFamily) (ipa_if_num_tether : Int) : Bool :=
  if ipa_if_num_tether ∈ s.ipa_if_num_tether f then s.wan_up f else false

/-- `del_wan_firewall_rule` -/
def delFirewall (f : IpFamily) : WanStatics :=
  s.setTable f ((s.dl.flt_rule f).del_wan_firewall_rule f)

end WanStatics

namespace Wan

variable (a : WanAnswers) (w : Wan) (s : WanStatics)

def isSta : Bool := decide (w.m_is_sta_mode ≠ .q6Wan)

/-! ## Default routes -/

/-- The end of `handle_route_add_evt`, where the routes are set up. -/
def routeAdded (f : IpFamily) : Except Fault (Wan × WanStatics) := do
  let s := s.setWanUp f true
  let w := { w with active := update w.active f true }
  let s ← if w.m_is_sta_mode = .q6Wan then do
      let t ← (s.dl.flt_rule f).config_wan_firewall_rule f w.rx_prop (a.dl f)
      pure (s.setTable f t)
    else pure s
  .ok ({ w with rm := w.rm ++ [.addRoute] }, s.post (.wanUp f w.ipa_if_num w.isSta))

/-- `handle_route_add_evt` -/
def handle_route_add_evt (f : IpFamily) : Except Fault (Wan × WanStatics) :=
  if w.tx_prop = none then .ok (w, s)
  else
    let w := { w with is_default_gateway := true }
    let setPartial := fun b =>
      { w with header_partial_default_wan := update w.header_partial_default_wan f b }
    if w.isSta = true ∧ w.header_set f = false then .ok (setPartial true, s)
    else if w.isSta = false ∧ w.ext_prop = false then .ok (w, s)
    else if w.hdr_name f = false then
      if a.route f then w.routeAdded a s f else .ok (w, s)
    else
      match a.copyHeader f with
      | .failed => .ok (w, s)
      | .incomplete => .ok (setPartial true, s)
      | .complete =>
        if a.route f then (setPartial false).routeAdded a s f else .ok (setPartial false, s)

/-- `handle_route_del_evt` and `handle_route_del_evt_ex`, which differ in what they ask the driver.
    -/
def routeDel (ok : Bool) (f : IpFamily) : Wan × WanStatics :=
  if w.tx_prop = none then (w, s)
  else
    let w := { w with is_default_gateway := false }
    if w.active f = false then (w, s)
    else
      let w := { w with rm := w.rm ++ [.del] }
      if ok then
        ({ w with active := update w.active f false },
          (s.post (.wanDown f w.ipa_if_num w.isSta)).setWanUp f false)
      else (w, s)

def handle_route_del_evt (f : IpFamily) : Wan × WanStatics := w.routeDel s (a.routeDel f) f

/-- It has a rule to delete for IPv6 only. -/
def handle_route_del_evt_ex (f : IpFamily) : Wan × WanStatics :=
  w.routeDel s (decide (f = .v4) || a.routeDel f) f

/-- What a route event does to an interface that had the default route. -/
def cleanDefaultRoute (f : IpFamily) : Wan × WanStatics :=
  if w.m_is_sta_mode = .q6Wan then w.handle_route_del_evt_ex a (s.delFirewall f) f
  else w.handle_route_del_evt a s f

/-! ## Tethered interfaces -/

/-- `post_wan_up_tether_evt`, which does not look how many there are. -/
def post_wan_up_tether_evt (f : IpFamily) (tether : Int) : Except Fault WanStatics :=
  let l := s.ipa_if_num_tether f
  if l.length < ipaMaxIfaceEntries then
    .ok ({ s with ipa_if_num_tether := update s.ipa_if_num_tether f (l ++ [tether]) }.post
      (.wanUpTether f tether w.isSta))
  else .error .outOfBounds

/-- `post_wan_down_tether_evt`, which moves the elements after the one it found down. -/
def post_wan_down_tether_evt (f : IpFamily) (tether : Int) : WanStatics :=
  let l := s.ipa_if_num_tether f
  if tether ∈ l then
    { s with ipa_if_num_tether := update s.ipa_if_num_tether f (l.erase tether) }.post
      (.wanDownTether f tether w.isSta)
  else s

/-! ## Addresses -/

/-- `init_fl_rule_ex`. The default rules are made for the first interface that has an address. -/
def init_fl_rule_ex (f : IpFamily) : Except Fault (Wan × WanStatics) :=
  if w.ip_type.has f then .ok (w, s)
  else do
    let w := { w with ip_type := w.ip_type.add f }
    if w.modem_pdn_index f = 0 then
      let t ← (s.dl.flt_rule f).add_dft_filtering_rule f w.rx_prop (a.dl f).ioctls
      .ok (w, s.setTable f t)
    else .ok (w, s)

/-- What an address does that is the first of its family. -/
def firstAddr (f : IpFamily) : Except Fault (Wan × WanStatics) :=
  if w.m_is_sta_mode = .q6Wan then
    let n := s.num_modem_pdn f
    init_fl_rule_ex a { w with modem_pdn_index := update w.modem_pdn_index f n }
      { s with num_modem_pdn := update s.num_modem_pdn f (n + 1) } f
  else .ok ({ w with ip_type := w.ip_type.add f }, s)

/-- `handle_addr_evt` -/
def handle_addr_evt (f : IpFamily) (v4 : BitVec 32) (v6 : BitVec 128) :
    Except Fault (Wan × WanStatics) :=
  match f with
  | .v6 =>
    if v6 ∈ w.ipv6_addr then .ok (w, s)
    else if a.addr = false then .ok (w, s)
    else do
      let (w, s) ← if w.ipv6_addr.length = 0 then w.firstAddr a s .v6 else pure (w, s)
      if w.isSta = true ∧ a.addrFlt = false then .ok (w, s)
      else .ok ({ w with ipv6_addr := w.ipv6_addr ++ [v6] }, s)
  | .v4 =>
    if a.addr = false then .ok (w, s)
    else do
      let (w, s) ← w.firstAddr a s .v4
      .ok ({ w with wan_v4_addr := v4 }, s)

/-- The address of the family is zero. -/
def noAddr (f : IpFamily) (v4 : BitVec 32) (v6 : BitVec 128) : Bool :=
  match f with
  | .v4 => decide (v4 = 0)
  | .v6 => decide (v6 = 0)

/-- `IPA_ADDR_ADD_EVENT` at the interface it is for. -/
def addrAdd (f : IpFamily) (v4 : BitVec 32) (v6 : BitVec 128) : Except Fault (Wan × WanStatics) :=
  if noAddr f v4 v6 then .ok (w, s)
  else
    let w := { w with received := update w.received f true }
    if w.ip_type.has f = false ∨ (f = .v6 ∧ w.ipv6_addr.length ≠ maxDefaultV6RouteRules) then
      w.handle_addr_evt a s f v4 v6
    else .ok (w, s)

/-! ## Neighbours -/

/-- The complete header of a family is made, and the transmit properties name it. -/
def setHeader (f : IpFamily) : Wan :=
  { w with
    header_set := update w.header_set f true
    hdr_name := update w.hdr_name f true }

/-- The routes that waited for the header are set up. -/
def pendingRoute (f : IpFamily) : Except Fault (Wan × WanStatics) :=
  if w.header_partial_default_wan f then w.handle_route_add_evt a s f else .ok (w, s)

/-- `handle_header_add_evt`. It reads the transmit properties without a look whether there are any.
    -/
def handle_header_add_evt : Except Fault (Wan × WanStatics) :=
  if w.header_set .v4 = true ∨ w.header_set .v6 = true then .ok (w, s)
  else
    match w.tx_prop with
    | none => .error .outOfBounds
    | some tx =>
      if IpFamily.v4 ∈ tx ∧ a.header .v4 = false then .ok (w, s)
      else
        let w := if IpFamily.v4 ∈ tx then w.setHeader .v4 else w
        if IpFamily.v6 ∈ tx ∧ a.header .v6 = false then .ok (w, s)
        else do
          let w := if IpFamily.v6 ∈ tx then w.setHeader .v6 else w
          let (w, s) ← w.pendingRoute a s .v4
          w.pendingRoute a s .v6

/-- `get_client_memptr` of `get_wan_client_index` -/
def client? (mac : BitVec 48) : Option WanClient := w.wan_client.find? (·.mac = mac)

/-- Change the client that `get_wan_client_index` finds. -/
def setClient (c : WanClient) : Wan :=
  { w with wan_client := w.wan_client.map fun c' => if c'.mac = c.mac then c else c' }

/-- `handle_wan_hdr_init` -/
def handle_wan_hdr_init (mac : BitVec 48) : Wan :=
  if (w.client? mac).isSome then w
  else if ipaMaxNumWanClients ≤ w.wan_client.length then w
  else if w.tx_prop = none then w
  else if a.hdrInit = false then w
  else { w with wan_client := w.wan_client ++ [{ mac := mac }] }

/-- `handle_wan_client_ipaddr`, and whether it succeeded. -/
def handle_wan_client_ipaddr (mac : BitVec 48) (f : IpFamily) (v4 : BitVec 32) (v6 : BitVec 128) :
    Bool × Wan :=
  match w.client? mac with
  | none => (false, w)
  | some c =>
    match f with
    | .v4 =>
      if v4 = 0 then (false, w)
      else
        match c.v4_addr with
        | none => (true, w.setClient { c with v4_addr := some v4 })
        | some old =>
          if v4 = old then (false, w)
          else (true, w.setClient { c with v4_addr := some v4, route_rule_set_v4 := false })
    | .v6 =>
      if v6 = 0 then (true, w)
      else if ipv6NumAddr ≤ c.v6_addr.length then (false, w)
      else if v6 ∈ c.v6_addr then (false, w)
      else (true, w.setClient { c with v6_addr := c.v6_addr ++ [v6] })

/-- `handle_wan_client_route_rule` -/
def handle_wan_client_route_rule (mac : BitVec 48) (f : IpFamily) : Wan :=
  if w.tx_prop = none then w
  else
    match w.client? mac with
    | none => w
    | some c =>
      if c.unset f then
        let w := { w with rm := w.rm ++ [.addClient] }
        if a.clientRoute = false then w
        else
          match f with
          | .v4 => w.setClient { c with route_rule_set_v4 := true }
          | .v6 => w.setClient { c with route_rule_set_v6 := c.v6_addr.length }
      else w

/-- The address is one of the interface's own. -/
def ownAddr (f : IpFamily) (v4 : BitVec 32) (v6 : BitVec 128) : Bool :=
  match f with
  | .v4 => v4 = w.wan_v4_addr
  | .v6 => v6 ∈ w.ipv6_addr

/-- `IPA_NEIGH_CLIENT_IP_ADDR_ADD_EVENT` after the header of the router was made. -/
def neighClient (mac : BitVec 48) (f : IpFamily) (v4 : BitVec 32) (v6 : BitVec 128) :
    Except Fault (Wan × WanStatics) :=
  if mac = 0 then .ok (w, s)
  else do
    let (w, s) ← w.handle_header_add_evt a s
    let w := w.handle_wan_hdr_init a mac
    let (ok, w) := w.handle_wan_client_ipaddr mac f v4 v6
    .ok (if ok then w.handle_wan_client_route_rule a mac f else w, s)

/-- `IPA_NEIGH_CLIENT_IP_ADDR_ADD_EVENT` at the interface it is for. -/
def neigh (mac : BitVec 48) (f : IpFamily) (v4 : BitVec 32) (v6 : BitVec 128) :
    Except Fault (Wan × WanStatics) :=
  if w.m_is_sta_mode = .wlanWan then do
    let (w, s) ← w.handle_header_add_evt a s
    if w.ownAddr f v4 v6 then .ok (w, s) else w.neighClient a s mac f v4 v6
  else w.neighClient a s mac f v4 v6

/-! ## Link down -/

/-- `handle_down_evt`. The routes are deleted one family after the other. -/
def handle_down_evt : Wan × WanStatics :=
  let w := if w.tx_prop = none then w else { w with rm := w.rm ++ [.del] }
  if w.ip_type = .null then (w, s)
  else
    let (w, s) := if w.active .v4 then w.handle_route_del_evt a s .v4 else (w, s)
    if w.active .v6 then w.handle_route_del_evt a s .v6 else (w, s)

/-- A modem interface with an address of the family goes. One with a single IPv6 address is not
    counted out. -/
def countDown (f : IpFamily) : WanStatics :=
  if f = .v6 ∧ w.ipv6_addr.length ≤ 1 then s
  else { s with num_modem_pdn := update s.num_modem_pdn f (s.num_modem_pdn f - 1) }

/-- What is done for a family if the interface is the default gateway. -/
def gatewayDown (f : IpFamily) : Wan × WanStatics :=
  let (w, s) := w.handle_route_del_evt_ex a ((s.setWanUp f false).delFirewall f) f
  (w, (s.ipa_if_num_tether f).foldl (fun s tether => w.post_wan_down_tether_evt s f tether) s)

/-- The rules of a family go with the last modem interface. -/
def clearUnused (f : IpFamily) : WanStatics :=
  if s.num_modem_pdn f = 0 then s.setTable f (s.dl.flt_rule f).clear else s

/-- `handle_down_evt_ex`. `embmsIf` is the category of the interface. -/
def handle_down_evt_ex (embmsIf : Bool) : Wan × WanStatics :=
  let gw := w.is_default_gateway
  if w.ip_type = .null then (w, s)
  else if embmsIf then
    (if w.tx_prop = none then w else { w with rm := w.rm ++ [.del] },
      { s with dl := { s.dl with embms_is_on := false } })
  else
    match w.ip_type with
    | .null => (w, s)
    | .v4 =>
      let s := w.countDown s .v4
      let (w, s) := if gw then w.gatewayDown a s .v4 else (w, s)
      (w, clearUnused s .v4)
    | .v6 =>
      let s := w.countDown s .v6
      let (w, s) := if gw then w.gatewayDown a s .v6 else (w, s)
      (w, clearUnused s .v6)
    | .max =>
      let s := w.countDown (w.countDown s .v4) .v6
      let (w, s) := if gw then
          let (w, s) := w.gatewayDown a s .v4
          w.gatewayDown a s .v6
        else (w, s)
      (w, clearUnused (clearUnused s .v4) .v6)

/-! ## The firewall -/

/-- A new configuration of the rules of a family. -/
def reconfig (f : IpFamily) : Except Fault WanStatics := do
  let t ← ((s.delFirewall f).dl.flt_rule f).config_wan_firewall_rule f w.rx_prop (a.dl f)
  .ok ((s.delFirewall f).setTable f t)

/-- `IPA_FIREWALL_CHANGE_EVENT`. The filter rules of the other interfaces are their own. -/
def firewallChange : Except Fault WanStatics :=
  if w.isSta = true ∨ w.is_default_gateway = false then .ok s
  else
    match w.ip_type with
    | .null => .ok s
    | .v4 => w.reconfig a s .v4
    | .v6 => w.reconfig a s .v6
    | .max => do
        let s ← w.reconfig a s .v4
        w.reconfig a s .v6

end Wan

/-! ## Events -/

/-- What an interface was when it was closed, and what its link-down event did. -/
structure DownReport where
  ipa_if_num : Int
  active : IpFamily → Bool
  posted : List WanPost
  wan_up : IpFamily → Bool
  rm : List RmCall

/-- The events, with `ipa_if_num` of the interface that they name. -/
inductive WanEvent where
  | linkUp (iface : Int) (mode : WanIfaceType) (props : WanProps)
  | embmsLinkUp (iface : Int) (props : WanProps)
  | addrAdd (iface : Int) (f : IpFamily) (v4 : BitVec 32) (v6 : BitVec 128)
  | upstreamRouteAdd (f : IpFamily) (iface tether : Int)
  | upstreamRouteDel (f : IpFamily) (iface tether : Int)
  | routeAdd (f : IpFamily) (iface : Int) (isDefault : Bool)
  | routeDel (f : IpFamily) (iface : Int) (isDefault : Bool)
  | neigh (iface : Int) (mac : BitVec 48) (f : IpFamily) (v4 : BitVec 32) (v6 : BitVec 128)
  | firewallChange
  | wlanLinkDown (iface : Int)
  | linkDown (iface : Int)
  | cfgChange (embmsIf changed : Int → Bool)

/-- The interfaces in the order of their registration, and which interfaces of the table are of the
    category `EMBMS_IF`. -/
structure WanWorld where
  instances : List Wan := []
  statics : WanStatics := {}
  embmsIf : Int → Bool := fun _ => false

/-- An interface after an event: still there, or closed. -/
inductive AfterEvent where
  | stays (w : Wan)
  | closed (r : DownReport)

namespace Wan

variable (a : WanAnswers) (w : Wan) (s : WanStatics)

/-- `delete this` after a link-down event. -/
def close (x : Wan × WanStatics) : AfterEvent × WanStatics :=
  (.closed
    { ipa_if_num := w.ipa_if_num
      active := w.active
      posted := x.2.posted.drop s.posted.length
      wan_up := x.2.wan_up
      rm := x.1.rm },
   x.2)

def stay (x : Wan × WanStatics) : AfterEvent × WanStatics := (.stays x.1, x.2)

/-- `IPA_WAN_UPSTREAM_ROUTE_ADD_EVENT` -/
def upstreamRouteAdd (f : IpFamily) (iface tether : Int) : Except Fault (Wan × WanStatics) :=
  if iface = w.ipa_if_num then
    if w.ip_type.has f then do
      let (w, s) ← if w.active f = false then w.handle_route_add_evt a s f else pure (w, s)
      let s ← w.post_wan_up_tether_evt s f tether
      .ok (w, s)
    else .ok (w, s)
  else if w.active f then .ok (w.cleanDefaultRoute a s f)
  else .ok (w, s)

/-- `IPA_WAN_UPSTREAM_ROUTE_DEL_EVENT` -/
def upstreamRouteDel (f : IpFamily) (iface tether : Int) : Wan × WanStatics :=
  if iface = w.ipa_if_num ∧ w.active f = true then
    let s := w.post_wan_down_tether_evt s f tether
    if s.ipa_if_num_tether f = [] then w.cleanDefaultRoute a s f else (w, s)
  else (w, s)

/-- `IPA_ROUTE_ADD_EVENT` -/
def routeAdd (f : IpFamily) (iface : Int) (isDefault : Bool) : Except Fault (Wan × WanStatics) :=
  if isDefault = false then .ok (w, s)
  else if iface = w.ipa_if_num then
    if w.active f = false ∧ w.ip_type.has f = true then w.handle_route_add_evt a s f
    else .ok (w, s)
  else if w.active f then .ok (w.cleanDefaultRoute a s f)
  else .ok (w, s)

/-- `IPA_ROUTE_DEL_EVENT` -/
def routeDelEvent (f : IpFamily) (iface : Int) (isDefault : Bool) : Wan × WanStatics :=
  if isDefault = true ∧ iface = w.ipa_if_num ∧ w.active f = true then w.cleanDefaultRoute a s f
  else (w, s)

/-- `IPA_LINK_DOWN_EVENT`. An Ethernet dongle does not look which interface it is for. -/
def linkDown (embmsIf : Bool) (iface : Int) : AfterEvent × WanStatics :=
  match w.m_is_sta_mode with
  | .q6Wan =>
    if iface = w.ipa_if_num then w.close s (w.handle_down_evt_ex a s embmsIf) else stay (w, s)
  | .ecmWan => w.close s (w.handle_down_evt a s)
  | .wlanWan => stay (w, s)

/-- `event_callback` -/
def event_callback (embmsIf : Int → Bool) (e : WanEvent) : Except Fault (AfterEvent × WanStatics) :=
  match e with
  | .linkDown iface => .ok (w.linkDown a s (embmsIf w.ipa_if_num) iface)
  | _ =>
    if w.embms then .ok (stay (w, s))
    else
      match e with
      | .addrAdd iface f v4 v6 =>
        if iface = w.ipa_if_num then stay <$> w.addrAdd a s f v4 v6 else .ok (stay (w, s))
      | .upstreamRouteAdd f iface tether => stay <$> w.upstreamRouteAdd a s f iface tether
      | .upstreamRouteDel f iface tether => .ok (stay (w.upstreamRouteDel a s f iface tether))
      | .routeAdd f iface isDefault => stay <$> w.routeAdd a s f iface isDefault
      | .routeDel f iface isDefault => .ok (stay (w.routeDelEvent a s f iface isDefault))
      | .neigh iface mac f v4 v6 =>
        if iface = w.ipa_if_num then stay <$> w.neigh a s mac f v4 v6 else .ok (stay (w, s))
      | .firewallChange => (fun s => stay (w, s)) <$> w.firewallChange a s
      | .wlanLinkDown iface =>
        if w.m_is_sta_mode = .wlanWan ∧ iface = w.ipa_if_num then
          .ok (w.close s (w.handle_down_evt a s))
        else .ok (stay (w, s))
      | .cfgChange _ changed =>
        if w.m_is_sta_mode = .ecmWan ∧ changed w.ipa_if_num = true then
          .ok (w.close s (w.handle_down_evt a s))
        else .ok (stay (w, s))
      | _ => .ok (stay (w, s))

end Wan

/-- `ProcessEvt`: the event is handed to one interface after the other. -/
def dispatch (handler : Wan → WanStatics → Except Fault (AfterEvent × WanStatics)) :
    List Wan → WanStatics → Except Fault ((List Wan × List DownReport) × WanStatics)
  | [], s => .ok (([], []), s)
  | w :: ws, s => do
      let (after, s) ← handler w s
      let ((ws, reports), s) ← dispatch handler ws s
      match after with
      | .stays w => .ok ((w :: ws, reports), s)
      | .closed r => .ok ((ws, r :: reports), s)

namespace WanStatics

variable (s : WanStatics)

/-- What the routes of the events say of the upstream and of what is tethered to it. -/
def noteEvent : WanEvent → WanStatics
  | .upstreamRouteAdd f iface tether =>
    { s with
      upstream := update s.upstream f (some iface)
      added := update s.added f
        (if s.upstream f = some iface then
          (if tether ∈ s.added f then s.added f else tether :: s.added f)
        else [tether]) }
  | .upstreamRouteDel f iface tether =>
    if s.upstream f = some iface then
      { s with added := update s.added f ((s.added f).filter (· ≠ tether)) }
    else s
  | _ => s

/-- An upstream that is closed has nothing tethered to it. -/
def noteClosed (r : DownReport) : WanStatics :=
  { s with
    upstream := fun f => if s.upstream f = some r.ipa_if_num then none else s.upstream f
    added := fun f => if s.upstream f = some r.ipa_if_num then [] else s.added f }

end WanStatics

/-- An event, with what the driver answers each interface. -/
structure WanInput where
  event : WanEvent
  answers : Int → WanAnswers := fun _ => {}

namespace WanWorld

variable (s : WanWorld)

/-- The constructor, and the registration after it. -/
def create (iface : Int) (mode : WanIfaceType) (props : WanProps) (embms : Bool) : WanWorld :=
  if s.instances.any (·.ipa_if_num = iface) then s
  else
    let rm := if embms = true ∧ props.tx_prop ≠ none then [.addEmbms] else []
    let w : Wan :=
      { props with ipa_if_num := iface, m_is_sta_mode := mode, embms := embms, rm := rm }
    let dl := if embms then { s.statics.dl with embms_is_on := true } else s.statics.dl
    { s with instances := s.instances ++ [w], statics := { s.statics with dl := dl } }

/-- `IPACM_IfaceManager` and then the interfaces get the event. -/
def step (i : WanInput) : Except Fault (WanWorld × List DownReport) :=
  match i.event with
  | .linkUp iface mode props =>
    if s.embmsIf iface then .ok (s, []) else .ok (s.create iface mode props false, [])
  | .embmsLinkUp iface props =>
    if s.embmsIf iface then .ok (s, [])
    else
      .ok ({ s with embmsIf := update s.embmsIf iface true }.create iface .q6Wan props true,
        [])
  | e => do
      let embmsIf := match e with
        | .cfgChange embmsIf _ => embmsIf
        | _ => s.embmsIf
      let ((instances, reports), statics) ←
        dispatch (fun w s => w.event_callback (i.answers w.ipa_if_num) s embmsIf e) s.instances
          (s.statics.noteEvent e)
      .ok ({ instances := instances, statics := reports.foldl WanStatics.noteClosed statics,
             embmsIf := embmsIf }, reports)

end WanWorld

end Nx508j.Ipacm
