import Nx508j.Ipacm.Wan
import Nx508j.Ipacm.Wlan
import Nx508j.Lib.RuleTable

/-! # The filter rules of a LAN interface

An `IPACM_Lan` has filter rules of its own for each IP version, which are made as it gets its first
address, and uplink rules, which are made when it has an address and WAN is up: those that the modem
asks for if the modem is the backhaul, one default rule if it is a station, and for IPv6 a rule for
the prefix. The modem is told where in the table each of its rules is. -/

namespace Nx508j.Ipacm

open Nx508j.Lib Function

/-- What a filter rule is for. A rule of the modem has its `filter_hdl`. -/
inductive FltKind where
  | dft
  | lan2lan
  | privateSubnet
  | icmp
  | ipv6Prefix
  | staDefault
  | modem (filter_hdl : UInt32)
  | swRouting
deriving DecidableEq, Repr

/-- The calls of `AddFilteringRule` and `DeleteFilteringHdls`. -/
inductive FltCall where
  | dft
  | lan2lan
  | privateSubnet
  | icmp
  | ipv6Prefix
  | staDefault
  | uplink
  | swRouting (f : IpFamily)
deriving DecidableEq, Repr

/-- `MAX_NUM_EXT_PROPS` -/
def maxNumExtProps : Nat := 15

/-- `MAX_WAN_UL_FILTER_RULES` -/
def maxWanUlFilterRules : Nat := 20

/-- `NUM_IPV6_ICMP_FLT_RULE` -/
def numIpv6IcmpFltRule : Nat := 1

/-- `ipacm_ext_prop`: the rules that the modem asks for. `SetExtProp` fills no more than there is
    room. -/
structure ExtProp where
  filter_hdl : List UInt32 := []
  bound : filter_hdl.length ≤ maxNumExtProps := by decide

/-- What the driver answers: whether a call that adds rules succeeds, `SendFilteringRuleIndex`, and
    the deletion of the `n`-th handle of a call. -/
structure LanAnswers where
  add : FltCall → Bool := fun _ => true
  send : Bool := true
  del : FltCall → Nat → Bool := fun _ _ => true

/-- The events. An address is zero if the event has none of its family. -/
inductive LanEvent where
  | addrAdd (f : IpFamily) (ipv4_addr : BitVec 32) (ipv6_addr : BitVec 128)
  | wanUp (f : IpFamily)
  | wanDown (f : IpFamily)
  | swRoutingEnable
  | swRoutingDisable
deriving DecidableEq, Repr

instance (priority := 2000) neZeroSubnets : NeZero (ipaMaxPrivateSubnetEntries + 1) :=
  ⟨Nat.succ_ne_zero _⟩

/-- An event, with what its handler looks at elsewhere. -/
structure LanInput where
  event : LanEvent
  /-- `is_sta` of the event, or `backhaul_is_sta_mode`. -/
  is_sta : Bool := false
  ext_prop : IpFamily → ExtProp := fun _ => {}
  /-- `isWanUP` and `isWanUP_V6` of the interface. -/
  isWanUP : IpFamily → Bool := fun _ => false
  ipa_sw_rt_enable : Bool := false
  ipa_num_private_subnet : Fin (ipaMaxPrivateSubnetEntries + 1) := 1
  answers : LanAnswers := {}

/-- `num_dft_rt_v6` is the number of addresses, and `num_wan_ul_fl_rule_v4` and
    `num_wan_ul_fl_rule_v6` that of the handles. -/
structure Lan where
  rx_prop : Bool := true
  ip_type : IfaceIpType := .null
  ipv6_addr : List (BitVec 128) := []
  flt_rule_count : IpFamily → Int := fun _ => 0
  modem_ul_set : IpFamily → Bool := fun _ => false
  wan_ul_fl_rule_hdl : IpFamily → List Nat := fun _ => []
  /-- `lan_wan_fl_rule_hdl[0]`, which the constructor does not set, and
      `dft_v6fl_rule_hdl[IPV6_DEFAULT_FILTERTING_RULES]`. -/
  default_hdl : IpFamily → Option Nat := fun
    | .v4 => none
    | .v6 => some 0
  ipv6_prefix_flt_rule_hdl : Nat := 0
  software_routing_fl_rule_hdl : IpFamily → Nat := fun _ => 0
  softwarerouting_act : Bool := false
  /-- The rules of the pipe, as the driver keeps them. -/
  table : IpFamily → RuleTable FltKind := fun _ => .empty

/-- The indices that are sent to the modem with the `filter_hdl` they are for, and where the driver
    puts the rules: the handles they get and the table after that. -/
structure IndexReport where
  family : IpFamily
  sent : List (Int × UInt32)
  hdls : List Nat
  table : RuleTable FltKind

namespace Lan

variable (i : LanInput) (s : Lan)

def setTable (f : IpFamily) (t : RuleTable FltKind) : Lan :=
  { s with table := update s.table f t }

/-- `flt_rule_count_v4` or `flt_rule_count_v6` grows. -/
def count (f : IpFamily) (n : Int) : Lan :=
  { s with flt_rule_count := update s.flt_rule_count f (s.flt_rule_count f + n) }

/-- `DeleteFilteringHdls`, from the `cnt`-th handle on: one after the other, those that are 0 are
    skipped. -/
def deleteFilteringHdls (call : FltCall) (f : IpFamily) : (cnt : Nat) → (hdls : List Nat) → Lan →
    Bool × Lan
  | _, [], s => (true, s)
  | cnt, hdl :: hdls, s =>
    if hdl = 0 then deleteFilteringHdls call f (cnt + 1) hdls s
    else if i.answers.del call cnt = false then (false, s)
    else deleteFilteringHdls call f (cnt + 1) hdls (s.setTable f ((s.table f).delete hdl))

/-- Rules of the interface itself, which are counted: `install_ipv6_icmp_flt_rule`, and the ends of
    `init_fl_rule`, `add_dummy_lan2lan_flt_rule` and `handle_private_subnet`. -/
def addCounted (call : FltCall) (f : IpFamily) (kind : FltKind) (n : Nat) : Lan :=
  if s.rx_prop = false then s
  else if i.answers.add call = false then s
  else (s.setTable f ((s.table f).addRear (List.replicate n kind))).count f n

/-- `install_ipv6_icmp_flt_rule` -/
def install_ipv6_icmp_flt_rule : Lan := s.addCounted i .icmp .v6 .icmp numIpv6IcmpFltRule

/-- `init_fl_rule` -/
def init_fl_rule (f : IpFamily) : Lan :=
  if s.ip_type.has f = true then s
  else { s with ip_type := s.ip_type.add f }.addCounted i .dft f .dft (defaultFiltertingRules f)

/-- `add_dummy_lan2lan_flt_rule` -/
def add_dummy_lan2lan_flt_rule (f : IpFamily) : Lan :=
  s.addCounted i .lan2lan f .lan2lan Lan2Lan.maxOffloadPair

/-- `handle_private_subnet` -/
def handle_private_subnet : IpFamily → Lan
  | .v4 => s.addCounted i .privateSubnet .v4 .privateSubnet i.ipa_num_private_subnet
  | .v6 => s

/-- `handle_addr_evt`, and whether it succeeds. -/
def handle_addr_evt (f : IpFamily) (ipv6_addr : BitVec 128) : Except Fault (Bool × Lan) :=
  match f with
  | .v4 => .ok (true, (s.init_fl_rule i .v4).add_dummy_lan2lan_flt_rule i .v4)
  | .v6 =>
    if s.ipv6_addr.contains ipv6_addr then .ok (false, s)
    else if maxDefaultV6RouteRules ≤ s.ipv6_addr.length then .error .outOfBounds
    else
      let s' :=
        if s.ipv6_addr = [] then (s.add_dummy_lan2lan_flt_rule i .v6).init_fl_rule i .v6 else s
      .ok (true, { s' with ipv6_addr := s.ipv6_addr ++ [ipv6_addr] })

/-- `install_ipv6_prefix_flt_rule` -/
def install_ipv6_prefix_flt_rule : Lan :=
  if s.rx_prop = false then s
  else if i.answers.add .ipv6Prefix = false then s
  else
    { s with
      ipv6_prefix_flt_rule_hdl := (s.table .v6).next
      table := update s.table .v6 ((s.table .v6).addRear [.ipv6Prefix])
      flt_rule_count := update s.flt_rule_count .v6 (s.flt_rule_count .v6 + 1) }

/-- `handle_wan_up` -/
def handle_wan_up (f : IpFamily) : Lan :=
  if s.rx_prop = false then s
  else if i.answers.add .staDefault = false then s
  else
    { s with
      default_hdl := update s.default_hdl f (some (s.table f).next)
      table := update s.table f ((s.table f).addRear [.staDefault]) }

/-- The loop that stores the handles of the modem's rules. -/
def storeHdls (f : IpFamily) : List Nat → Lan → Except Fault Lan
  | [], s => .ok s
  | hdl :: hdls, s =>
    if (s.wan_ul_fl_rule_hdl f).length < maxWanUlFilterRules then
      storeHdls f hdls { s with
        wan_ul_fl_rule_hdl :=
          update s.wan_ul_fl_rule_hdl f (s.wan_ul_fl_rule_hdl f ++ [hdl]) }
    else .error .outOfBounds

/-- `handle_uplink_filter_rule` -/
def handle_uplink_filter_rule (f : IpFamily) : Except Fault (Lan × List IndexReport) :=
  let prop := (i.ext_prop f).filter_hdl
  if s.rx_prop = false then .ok (s, [])
  else if prop = [] then .ok (s, [])
  else
    let sent := prop.mapIdx fun cnt filter_hdl => (s.flt_rule_count f + cnt, filter_hdl)
    let s := s.count f prop.length
    if i.answers.send = false then .ok (s, [])
    else if i.answers.add .uplink = false then .ok (s, [])
    else do
      let hdls := (s.table f).fresh prop.length
      let t := (s.table f).addRear (prop.map .modem)
      let s ← storeHdls f hdls (s.setTable f t)
      .ok (s, [⟨f, sent, hdls, t⟩])

/-- `handle_wan_up_ex` -/
def handle_wan_up_ex (f : IpFamily) : Except Fault (Lan × List IndexReport) :=
  if (f = .v6 → s.ipv6_addr.length = 1) ∧ s.modem_ul_set f = false then do
    let (s, reports) ← s.handle_uplink_filter_rule i f
    .ok ({ s with modem_ul_set := update s.modem_ul_set f true }, reports)
  else .ok (s, [])

/-- The rules that the uplink needs are made, by the kind of the backhaul. -/
def wanUp (f : IpFamily) : Except Fault (Lan × List IndexReport) :=
  if i.is_sta = false then s.handle_wan_up_ex i f else .ok (s.handle_wan_up i f, [])

/-- What `handle_wan_down` and `handle_wan_down_v6` set the counter to. -/
def countAfterDown : IpFamily → Int
  | .v4 => defaultFiltertingRules .v4 + Lan2Lan.maxOffloadPair + ipaMaxPrivateSubnetEntries
  | .v6 => defaultFiltertingRules .v6 + Lan2Lan.maxOffloadPair + numIpv6IcmpFltRule

def resetCount (f : IpFamily) : Lan :=
  { s with flt_rule_count := update s.flt_rule_count f (countAfterDown f) }

/-- The end of both, where the rules of the uplink are deleted. -/
def deleteUplink (f : IpFamily) : Except Fault Lan :=
  if i.is_sta = false then
    if maxWanUlFilterRules < (s.wan_ul_fl_rule_hdl f).length then .ok s
    else
      match s.deleteFilteringHdls i .uplink f 0 (s.wan_ul_fl_rule_hdl f) with
      | (false, s) => .ok s
      | (true, s) =>
        -- the pipe is looked up for the modem to be told that no rules are left
        if s.rx_prop = false then .error .outOfBounds
        else
          .ok { s with
            wan_ul_fl_rule_hdl := update s.wan_ul_fl_rule_hdl f []
            modem_ul_set := update s.modem_ul_set f false }
  else
    match s.default_hdl f with
    | none => .error .outOfBounds
    | some hdl => .ok (s.deleteFilteringHdls i .staDefault f 0 [hdl]).2

/-- `handle_wan_down` -/
def handle_wan_down : Except Fault Lan := (s.resetCount .v4).deleteUplink i .v4

/-- `handle_wan_down_v6` -/
def handle_wan_down_v6 : Except Fault Lan :=
  match (s.resetCount .v6).deleteFilteringHdls i .ipv6Prefix .v6 0 [s.ipv6_prefix_flt_rule_hdl] with
  | (false, s) => .ok s
  | (true, s) => s.deleteUplink i .v6

/-- A rule that goes before all others. -/
def addSwRouting (f : IpFamily) : Lan :=
  { s with
    software_routing_fl_rule_hdl :=
      update s.software_routing_fl_rule_hdl f (s.table f).next
    table := update s.table f ((s.table f).addFront [.swRouting]) }

/-- `handle_software_routing_enable` -/
def handle_software_routing_enable : Lan :=
  if s.softwarerouting_act = true then s
  else if s.rx_prop = false then s
  else if i.answers.add (.swRouting .v4) = false then s
  else
    let s := s.addSwRouting .v4
    if i.answers.add (.swRouting .v6) = false then s
    else { s.addSwRouting .v6 with softwarerouting_act := true }

/-- `handle_software_routing_disable` -/
def handle_software_routing_disable : Lan :=
  if s.rx_prop = false then s
  else if s.softwarerouting_act = false then s
  else
    match s.deleteFilteringHdls i (.swRouting .v4) .v4 0 [s.software_routing_fl_rule_hdl .v4] with
    | (false, s) => s
    | (true, s) =>
      match s.deleteFilteringHdls i (.swRouting .v6) .v6 0
        [s.software_routing_fl_rule_hdl .v6] with
      | (false, s) => s
      | (true, s) => { s with softwarerouting_act := false }

/-- What the interface does when it has an address of the family and WAN is up. -/
def uplinkUp (f : IpFamily) : Except Fault (Lan × List IndexReport) :=
  match f with
  | .v4 => s.wanUp i .v4
  | .v6 => (s.install_ipv6_prefix_flt_rule i).wanUp i .v6

/-- Whether an address is one more than there are: the first of its family (`ip_type` is neither the
    family nor `IPA_IP_MAX`), or an IPv6 address for which there is room. -/
def accepts (f : IpFamily) : Bool :=
  s.ip_type.has f = false ∨ (f = .v6 ∧ s.ipv6_addr.length ≠ maxDefaultV6RouteRules)

/-- What an address that is accepted leads to, and whether the handler goes on. -/
def newAddr (f : IpFamily) (ipv6_addr : BitVec 128) :
    Except Fault (Bool × Lan × List IndexReport) := do
  let s := if f = .v6 ∧ s.ipv6_addr = [] then s.install_ipv6_icmp_flt_rule i else s
  let (ok, s) ← s.handle_addr_evt i f ipv6_addr
  if ok = false then .ok (false, s, [])
  else
    let s := s.handle_private_subnet i f
    if i.isWanUP f = true ∧ (f = .v6 → s.ipv6_addr.length = 1) then do
      let (s, reports) ← s.uplinkUp i f
      .ok (true, s, reports)
    else .ok (true, s, [])

/-- `event_callback` for `IPA_ADDR_ADD_EVENT`. -/
def addrAdd (f : IpFamily) (ipv4_addr : BitVec 32) (ipv6_addr : BitVec 128) :
    Except Fault (Lan × List IndexReport) :=
  if Wan.noAddr f ipv4_addr ipv6_addr = true then .ok (s, [])
  else do
    let (goOn, s, reports) ← if s.accepts f then s.newAddr i f ipv6_addr else .ok (true, s, [])
    if goOn = true ∧ i.ipa_sw_rt_enable = true then
      .ok (s.handle_software_routing_enable i, reports)
    else .ok (s, reports)

/-- `event_callback` for `IPA_HANDLE_WAN_UP_TETHER` and `IPA_HANDLE_WAN_UP_V6_TETHER`. -/
def handleWanUpTether (f : IpFamily) : Except Fault (Lan × List IndexReport) :=
  if s.ip_type.has f = true then s.uplinkUp i f else .ok (s, [])

/-- `event_callback` for `IPA_HANDLE_WAN_DOWN_TETHER` and `IPA_HANDLE_WAN_DOWN_V6_TETHER`. -/
def handleWanDownTether (f : IpFamily) : Except Fault Lan :=
  if s.ip_type.has f = true then
    match f with
    | .v4 => s.handle_wan_down i
    | .v6 => s.handle_wan_down_v6 i
  else .ok s

/-- `event_callback` -/
def event_callback : Except Fault (Lan × List IndexReport) :=
  match i.event with
  | .addrAdd f ipv4_addr ipv6_addr => s.addrAdd i f ipv4_addr ipv6_addr
  | .wanUp f => s.handleWanUpTether i f
  | .wanDown f => do
      let s ← s.handleWanDownTether i f
      .ok (s, [])
  | .swRoutingEnable => .ok (s.handle_software_routing_enable i, [])
  | .swRoutingDisable => .ok (s.handle_software_routing_disable i, [])

end Lan

end Nx508j.Ipacm
