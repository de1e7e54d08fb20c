import Nx508j.Ipacm.NatApp

/-! # The downlink filter rules

All modem interfaces share one array of downlink rules for each IP version, with a counter. The
rules that every interface needs come first. Those for ICMP, for the ports of the ALGs, for the
entries of the firewall file and the last one for all the rest are put behind them whenever an
interface gets the default route. Each rule needs an answer of the driver, and a construction ends
where one fails. -/

namespace Nx508j.Ipacm

open Nx508j.Lib

/-- `IPA_MAX_FLT_RULE` -/
def ipaMaxFltRule : Nat := 50

/-- `IPA_IP_v4` and `IPA_IP_v6`. -/
inductive IpFamily where
  | v4
  | v6
deriving DecidableEq, Repr

/-- `ipa_flt_action` of a downlink rule. -/
inductive FltAction where
  | passToRouting
  | passToDstNat
deriving DecidableEq, Repr

/-- The routing tables that downlink rules name. -/
inductive RtTbl where
  | wanDl
  | lanV4
  | wanV6
  | oduV4
  | oduV6
deriving DecidableEq, Repr

def ipprotoIcmp : UInt8 := 1
def ipprotoTcp : UInt8 := 6
def ipprotoUdp : UInt8 := 17
def ipprotoFragHdr : UInt8 := 44
def ipprotoIcmp6 : UInt8 := 58
def ipprotoTcpUdp : UInt8 := 253

/-- An entry of the firewall file, with its `protocol` or `next_hdr`. -/
structure FirewallEntry where
  ip_vsn : Nat
  protocol : UInt8
deriving DecidableEq, Repr

/-- `IPACM_firewall_conf_t`, as it is after the file was read. -/
structure FirewallConf where
  firewall_enable : Bool := false
  rule_action_accept : Bool := false
  entries : List FirewallEntry := []
deriving DecidableEq, Repr

/-- What a rule matches. Of an IPv6 address it is the first word. -/
inductive DlMatch where
  | dstAddr (addr mask : Nat)
  | tcpCtl (shift : Nat)
  | protocol (protocol : UInt8)
  | srcPort (alg : IpacmAlg)
  | dstPort (alg : IpacmAlg)
  | entry (e : FirewallEntry) (protocol : UInt8)
  | rxProp
deriving DecidableEq, Repr

/-- `struct ipa_flt_rule_add`. -/
structure DlRule where
  action : FltAction := .passToRouting
  rt_tbl : RtTbl := .wanDl
  what : DlMatch
deriving DecidableEq, Repr

/-- The array of a family with its counter. A rule that `memset` cleared is `none`. -/
structure DlTable where
  rules : Region (Option DlRule) := Region.fill ipaMaxFltRule none
  num : Nat := 0

/-- What a construction does: ask the driver, or put the next rule into the array. -/
inductive DlOp where
  | ioctl
  | put (rule : DlRule)
deriving DecidableEq, Repr

/-- What a construction depends on. `ioctls` is how many answers of the driver are successes, before
    the first that is not. -/
structure DlEnv where
  alg_table : List IpacmAlg := []
  firewall_config : FirewallConf := {}
  ioctls : Nat := 0
deriving DecidableEq, Repr

/-! ## The sections of the array -/

/-- `IPA_V2_NUM_DEFAULT_WAN_FILTER_RULE_IPV4` and `IPA_V2_NUM_DEFAULT_WAN_FILTER_RULE_IPV6` -/
def numDefaultWanFilterRule : IpFamily → Nat
  | .v4 => 2
  | .v6 => 6

/-- The rules of `add_dft_filtering_rule`. -/
def dftFilteringRules : IpFamily → List DlOp
  | .v4 =>
    [.ioctl,
     .ioctl, .put { what := .dstAddr 0xE0000000 0xF0000000 },
     .ioctl, .put { what := .dstAddr 0xFFFFFFFF 0xFFFFFFFF }]
  | .v6 =>
    [.ioctl,
     .ioctl, .put { what := .dstAddr 0xFF000000 0xFF000000 },
     .ioctl, .put { what := .dstAddr 0xFE800000 0xFFC00000 },
     .ioctl, .put { what := .dstAddr 0xFEC00000 0xFFC00000 },
     .put { what := .tcpCtl 16 },
     .put { what := .tcpCtl 17 },
     .put { what := .tcpCtl 18 }]

/-- The rules of `add_icmp_alg_rules`. -/
def icmpAlgRules (alg_table : List IpacmAlg) : IpFamily → List DlOp
  | .v4 =>
    [.ioctl, .ioctl, .put { what := .protocol ipprotoIcmp }] ++
      alg_table.flatMap (fun a => [.ioctl, .put { what := .srcPort a }]) ++
      alg_table.flatMap (fun a => [.ioctl, .put { what := .dstPort a }])
  | .v6 => [.ioctl, .ioctl, .put { what := .protocol ipprotoIcmp6 }]

/-- `ip_vsn` of the entries for a family. -/
def ipVsn : IpFamily → Nat
  | .v4 => 4
  | .v6 => 6

/-- What happens to a packet that matches an entry, if `accept`, and to any other if not. -/
def entryRule (f : IpFamily) (accept : Bool) (what : DlMatch) : DlRule :=
  match f, accept with
  | .v4, true => { action := .passToDstNat, rt_tbl := .lanV4, what := what }
  | .v6, true => { rt_tbl := .wanV6, what := what }
  | _, false => { what := what }

/-- The rules of one entry of the firewall file: two if it is for TCP and UDP. -/
def firewallEntryRules (f : IpFamily) (accept : Bool) (e : FirewallEntry) : List DlOp :=
  let rule := fun protocol => entryRule f accept (.entry e protocol)
  .ioctl ::
    if e.protocol = ipprotoTcpUdp then
      [.ioctl, .put (rule ipprotoTcp), .ioctl, .put (rule ipprotoUdp)]
    else [.ioctl, .put (rule e.protocol)]

/-- The rules of `config_dft_firewall_rules_ex`. -/
def dftFirewallRules (conf : FirewallConf) (f : IpFamily) : List DlOp :=
  let frag := if f = .v6 ∧ conf.firewall_enable = true then
      [.ioctl, .ioctl, .put { what := .protocol ipprotoFragHdr }]
    else []
  let entries := if conf.firewall_enable = true then
      (conf.entries.filter fun e => e.ip_vsn = ipVsn f).flatMap
        (firewallEntryRules f conf.rule_action_accept)
    else []
  let accept := !(conf.firewall_enable && conf.rule_action_accept)
  frag ++ entries ++ [.ioctl, .ioctl, .put (entryRule f accept .rxProp)]

/-- The rules of `config_wan_firewall_rule`. -/
def wanFirewallRules (env : DlEnv) (f : IpFamily) : List DlOp :=
  icmpAlgRules env.alg_table f ++ dftFirewallRules env.firewall_config f

namespace DlTable

/-! ## The functions on the array -/

/-- Make a construction with these successes of the driver, and say whether it came to its end. -/
def construct : List DlOp → Nat → DlTable → Except Fault (Bool × DlTable)
  | [], _, t => .ok (true, t)
  | .ioctl :: _, 0, t => .ok (false, t)
  | .ioctl :: ops, n + 1, t => construct ops n t
  | .put rule :: ops, n, t => do
      let rules ← t.rules.write t.num (some rule)
      construct ops n { rules := rules, num := t.num + 1 }

/-- `add_dft_filtering_rule` of a cleared counter, which counts its rules when all are made. -/
def add_dft_filtering_rule (f : IpFamily) (rx_prop : Bool) (ioctls : Nat) (t : DlTable) :
    Except Fault DlTable :=
  let t := { t with num := 0 }
  if rx_prop = false then .ok t
  else do
    let (done, t) ← t.construct (dftFilteringRules f) ioctls
    .ok (if done then t else { t with num := 0 })

/-- `config_wan_firewall_rule`. It looks at the properties of the interface after the first answer.
    -/
def config_wan_firewall_rule (f : IpFamily) (rx_prop : Bool) (env : DlEnv) (t : DlTable) :
    Except Fault DlTable :=
  let t := { t with num := numDefaultWanFilterRule f }
  if rx_prop = false then if env.ioctls = 0 then .ok t else .error .outOfBounds
  else do
    let (_, t) ← t.construct (wanFirewallRules env f) env.ioctls
    .ok t

/-- `del_wan_firewall_rule` -/
def del_wan_firewall_rule (f : IpFamily) (t : DlTable) : DlTable :=
  { rules := { t.rules with
      get := fun i => if i < numDefaultWanFilterRule f then t.rules.get i else none }
    num := numDefaultWanFilterRule f }

/-- The counter and the array are cleared. -/
def clear (t : DlTable) : DlTable :=
  { rules := { t.rules with get := fun _ => none }, num := 0 }

/-- The first rules of the array. -/
def built (t : DlTable) : List (Option DlRule) := (List.range t.num).map t.rules.get

end DlTable

/-- `struct ipa_ioc_add_flt_rule`. A rule that was not constructed is `none`. -/
structure AddFltRule where
  num_rules : UInt8
  rules : List (Option DlRule)

/-- The shared state. -/
structure DlRules where
  flt_rule : IpFamily → DlTable := fun _ => {}
  embms_is_on : Bool := false

/-- What `install_wan_filtering_rule` sends: the rule for software routing, which it does once only,
    or the rules of the arrays. -/
inductive InstallKind where
  | swRouting
  | rules
deriving DecidableEq, Repr

/-- The calls that read or write the arrays. -/
inductive DlCall where
  | addDft (f : IpFamily) (rx_prop : Bool) (ioctls : Nat)
  | config (f : IpFamily) (rx_prop : Bool) (env : DlEnv)
  | del (f : IpFamily)
  | clear (f : IpFamily)
  | embms (on : Bool)
  | install (kind : InstallKind) (rx_prop : Bool) (ioctls : Nat)
deriving DecidableEq, Repr

/-- The rule of `config_dft_embms_rules`. That of a family takes two answers, and the one for IPv4
    is made first. -/
def embmsRule (f : IpFamily) (ioctls : Nat) : Option DlRule :=
  match f with
  | .v4 => if 2 ≤ ioctls then some { rt_tbl := .oduV4, what := .rxProp } else none
  | .v6 => if 4 ≤ ioctls then some { rt_tbl := .oduV6, what := .rxProp } else none

namespace DlRules

variable (s : DlRules)

def setTable (f : IpFamily) (t : DlTable) : DlRules :=
  { s with flt_rule := Function.update s.flt_rule f t }

/-- The rules for the driver, with the eMBMS rule in front while it is on. -/
def wanTable (f : IpFamily) (ioctls : Nat) : Option AddFltRule :=
  let t := s.flt_rule f
  if s.embms_is_on then
    some { num_rules := UInt8.ofNat t.num + 1, rules := embmsRule f ioctls :: t.built }
  else if 0 < t.num then some { num_rules := UInt8.ofNat t.num, rules := t.built }
  else none

/-- `install_wan_filtering_rule`: the tables that are sent. -/
def install_wan_filtering_rule (kind : InstallKind) (rx_prop : Bool) (ioctls : Nat) :
    List AddFltRule :=
  if rx_prop = false then []
  else
    match kind with
    | .swRouting =>
      if 4 ≤ ioctls then
        [{ num_rules := 1, rules := [some { what := .rxProp }] },
         { num_rules := 1, rules := [some { what := .rxProp }] }]
      else []
    | .rules => (s.wanTable .v4 ioctls).toList ++ (s.wanTable .v6 ioctls).toList

/-- A call, and the tables it sends to the driver. -/
def step : DlCall → Except Fault (DlRules × List AddFltRule)
  | .addDft f rx_prop ioctls => do
      let t ← (s.flt_rule f).add_dft_filtering_rule f rx_prop ioctls
      .ok (s.setTable f t, [])
  | .config f rx_prop env => do
      let t ← (s.flt_rule f).config_wan_firewall_rule f rx_prop env
      .ok (s.setTable f t, [])
  | .del f => .ok (s.setTable f ((s.flt_rule f).del_wan_firewall_rule f), [])
  | .clear f => .ok (s.setTable f (s.flt_rule f).clear, [])
  | .embms on => .ok ({ s with embms_is_on := on }, [])
  | .install kind rx_prop ioctls => .ok (s, s.install_wan_filtering_rule kind rx_prop ioctls)

end DlRules

end Nx508j.Ipacm
