import Nx508j.Ipacm.Filtering
import Nx508j.Ipacm.Xml

/-! # The firewall of a station

With a station as the backhaul the entries of the firewall file become filter rules of the interface
itself. Their handles go into an array, slot after slot, and those of the rules that are always made
go into members of their own. All of them are deleted by these handles. The constructor sets the
counters to zero and leaves the handles unset. -/

namespace Nx508j.Ipacm

open Nx508j.Lib Function

/-! ## The rules -/

/-- What a rule of the firewall matches: what has the properties of the interface, and the protocol
    or the next header, or what an entry says with that protocol. -/
inductive FwMatch where
  | protocol (protocol : BitVec 8)
  | entry (e : ExtdFirewallEntry) (protocol : BitVec 8)
  | rxProp
deriving DecidableEq

/-- `ipa_flt_action` of a rule of a station. -/
inductive StaAction where
  | passToException
  | passToDstNat
  | passToRouting
deriving DecidableEq, Repr

/-- A rule, with the table it names in `rt_tbl_hdl`. -/
structure StaRule where
  action : StaAction
  rt_tbl : Option RtTbl := none
  what : FwMatch
deriving DecidableEq

/-- Where the handle of a rule is stored: in a slot of `firewall_hdl_v4` or `firewall_hdl_v6`, in
    `dft_wan_fl_hdl` for the default rule or the rule of ICMPv6, or in
    `ipv6_frag_firewall_flt_rule_hdl`. -/
inductive FwPlace where
  | slot (i : Nat)
  | dft
  | icmp
  | frag
deriving DecidableEq, Repr

/-- `GetRoutingTable`, or a rule with the place its handle goes to. -/
inductive StaOp where
  | getRoutingTable
  | add (place : FwPlace) (rule : StaRule)
deriving DecidableEq

/-- The table that accepted packets are routed by. -/
def staRtTbl : IpFamily → RtTbl
  | .v4 => .lanV4
  | .v6 => .wanV6

/-- What is done with accepted packets. -/
def staAccept : IpFamily → StaAction
  | .v4 => .passToDstNat
  | .v6 => .passToRouting

/-- `protocol` or `next_hdr` of an entry. -/
def ExtdFirewallEntry.protocolOf (e : ExtdFirewallEntry) : IpFamily → BitVec 8
  | .v4 => e.protocol
  | .v6 => e.next_hdr

def staRule (f : IpFamily) (accept : Bool) (what : FwMatch) : StaRule where
  action := if accept then staAccept f else .passToException
  rt_tbl := some (staRtTbl f)
  what := what

/-- The rules of an entry: two if it is for TCP and UDP. -/
def staEntryRules (f : IpFamily) (accept : Bool) (e : ExtdFirewallEntry) : List StaRule :=
  if e.protocolOf f = ipprotoTcpUdp.toBitVec then
    [staRule f accept (.entry e ipprotoTcp.toBitVec),
      staRule f accept (.entry e ipprotoUdp.toBitVec)]
  else [staRule f accept (.entry e (e.protocolOf f))]

/-- The rule for fragments and the one for ICMPv6. -/
def staProtocolRule (protocol : UInt8) : StaRule where
  action := .passToException
  what := .protocol protocol.toBitVec

/-- The rule for what no entry matches. -/
def staDefaultRule (f : IpFamily) (enable accept : Bool) : StaRule :=
  staRule f (!(enable && accept)) .rxProp

/-- One rule after the other, from the first slot on. -/
def slotOps (rules : List StaRule) : List StaOp := rules.mapIdx fun i rule => .add (.slot i) rule

/-- The entries that are read: there is no look at how long the array is. -/
def ExtdFirewallConf.read (conf : ExtdFirewallConf) : Except Fault (List ExtdFirewallEntry) :=
  if conf.num_extd_firewall_entries.toNat ≤ ipacmMaxFirewallEntries then
    .ok (conf.extd_firewall_entries.toList.take conf.num_extd_firewall_entries.toNat)
  else .error .outOfBounds

/-- The rules of the entries for a family, if the firewall is enabled. -/
def staEntries (enable accept : Bool) (entries : List ExtdFirewallEntry) (f : IpFamily) :
    List StaRule :=
  if enable then
    (entries.filter fun e => e.ip_vsn = (ipVsn f : Int)).flatMap (staEntryRules f accept)
  else []

/-- What `config_dft_firewall_rules` does once the file was read. -/
def staOps (enable accept : Bool) (entries : List ExtdFirewallEntry) : IpFamily → List StaOp
  | .v4 =>
    let rule_v4 := entries.countP fun e => e.ip_vsn = 4
    if rule_v4 = 0 then [.getRoutingTable, .add .dft (staDefaultRule .v4 enable accept)]
    else
      .getRoutingTable :: (slotOps (staEntries enable accept entries .v4) ++
        [.add .dft (staDefaultRule .v4 enable accept)])
  | .v6 =>
    let rule_v6 := entries.countP fun e => e.ip_vsn ≠ 4
    let frag := if enable then [.add .frag (staProtocolRule ipprotoFragHdr)] else []
    if rule_v6 = 0 then
      frag ++ [.add .icmp (staProtocolRule ipprotoIcmp6), .getRoutingTable,
        .add .dft (staDefaultRule .v6 enable accept)]
    else
      frag ++ .getRoutingTable :: (slotOps (staEntries enable accept entries .v6) ++
        [.add .icmp (staProtocolRule ipprotoIcmp6),
          .add .dft (staDefaultRule .v6 enable accept)])

/-! ## The interface -/

/-- An `IPACM_Wan` in station mode, as far as its firewall goes. A handle that was never stored is
    `none`. -/
structure StaFirewall where
  rx_prop : Bool
  firewall_hdl : IpFamily → Region (Option Nat) := fun _ => Region.fill ipacmMaxFirewallEntries none
  num_firewall : IpFamily → Nat := fun _ => 0
  dft_wan_fl_hdl : Fin 3 → Option Nat := fun _ => none
  ipv6_frag_firewall_flt_rule_hdl : Option Nat := none
  driver : FltDriver StaRule

/-- What a configuration meets: the memory for a rule, `GetRoutingTable`, and what becomes of the
    `n`-th rule. -/
structure StaAddAnswers where
  memory : Bool := true
  rt_tbl : Bool := true
  add : Nat → AddAnswer := fun _ => .added

/-- What the deletion meets, call by call. -/
structure StaDelAnswers where
  entries : DelAnswer := {}
  dft : DelAnswer := {}
  icmp : DelAnswer := {}
  frag : DelAnswer := {}

/-- The element of `dft_wan_fl_hdl` for the default rule. -/
def dftIndex : IpFamily → Fin 3
  | .v4 => 0
  | .v6 => 1

namespace StaFirewall

variable (s : StaFirewall) (f : IpFamily)

/-- The handle that is stored in a place of the family. -/
def hdlAt : FwPlace → Option Nat
  | .slot i => (s.firewall_hdl f).get i
  | .dft => s.dft_wan_fl_hdl (dftIndex f)
  | .icmp => s.dft_wan_fl_hdl 2
  | .frag => s.ipv6_frag_firewall_flt_rule_hdl

/-- A handle is stored, and that of an entry is counted. -/
def store (hdl : Nat) : FwPlace → Except Fault StaFirewall
  | .slot i => do
      let m ← (s.firewall_hdl f).write i (some hdl)
      .ok { s with
        firewall_hdl := update s.firewall_hdl f m
        num_firewall := update s.num_firewall f (s.num_firewall f + 1) }
  | .dft =>
    .ok { s with
      dft_wan_fl_hdl := update s.dft_wan_fl_hdl (dftIndex f) (some hdl) }
  | .icmp => .ok { s with dft_wan_fl_hdl := update s.dft_wan_fl_hdl 2 (some hdl) }
  | .frag => .ok { s with ipv6_frag_firewall_flt_rule_hdl := some hdl }

/-- One call after the other, up to the first that fails. The status of a rule is not looked at. -/
def makeRules (a : StaAddAnswers) : List StaOp → Nat → StaFirewall →
    Except Fault (Bool × StaFirewall)
  | [], _, s => .ok (true, s)
  | .getRoutingTable :: ops, n, s =>
    if a.rt_tbl = false then .ok (false, s) else makeRules a ops n s
  | .add place rule :: ops, n, s =>
    match s.driver.AddFilteringRule f true rule (a.add n) with
    | (none, driver) => .ok (false, { s with driver })
    | (some r, driver) => do
        let s ← { s with driver }.store f r.flt_rule_hdl place
        makeRules a ops (n + 1) s

/-- `config_dft_firewall_rules`, and whether it succeeds. -/
def config_dft_firewall_rules (lib : InetLib) (xml_file : Option XmlDoc) (a : StaAddAnswers) :
    Except Fault (Bool × StaFirewall) :=
  if s.rx_prop = false then .ok (true, s)
  else do
    let (_, conf) ← IPACM_read_firewall_xml lib xml_file {}
    let entries ← conf.read
    if a.memory = false then .ok (false, s)
    else makeRules f a (staOps conf.firewall_enable conf.rule_action_accept entries f) 0 s

/-- The handles of some places, which must have been stored. -/
def stored : List FwPlace → Except Fault (List Nat)
  | [] => .ok []
  | p :: ps =>
    match s.hdlAt f p with
    | none => .error .outOfBounds
    | some hdl => do
        let hdls ← stored ps
        .ok (hdl :: hdls)

/-- `DeleteFilteringHdls` for the handles of some places. -/
def deleteAt (ps : List FwPlace) (a : DelAnswer) : Except Fault (Bool × StaFirewall) := do
  let hdls ← s.stored f ps
  let (ok, driver) := s.driver.DeleteFilteringHdls f hdls a
  .ok (ok, { s with driver })

/-- One such call after the other, up to the first that fails. -/
def deleteCalls : List (List FwPlace × DelAnswer) → StaFirewall → Except Fault (Bool × StaFirewall)
  | [], s => .ok (true, s)
  | (ps, a) :: calls, s => do
      let (ok, s) ← s.deleteAt f ps a
      if ok = false then .ok (false, s) else deleteCalls calls s

/-- The slots that are counted. -/
def slots : List FwPlace := (List.range (s.num_firewall f)).map .slot

/-- The calls whose failure ends the deletion. -/
def delCalls (a : StaDelAnswers) : List (List FwPlace × DelAnswer) :=
  (if s.num_firewall f ≠ 0 then [(s.slots f, a.entries)] else []) ++
    match f with
    | .v4 => [([.dft], a.dft)]
    | .v6 => [([.dft], a.dft), ([.icmp], a.icmp)]

/-- The rule for fragments is deleted last, and nothing depends on whether it is. -/
def delFrag (a : StaDelAnswers) : Except Fault StaFirewall :=
  match f with
  | .v4 => .ok s
  | .v6 => do
      let (_, s) ← s.deleteAt .v6 [.frag] a.frag
      .ok s

/-- `del_dft_firewall_rules`, and whether it succeeds. `active` is `active_v4` or `active_v6`. -/
def del_dft_firewall_rules (active : Bool) (a : StaDelAnswers) :
    Except Fault (Bool × StaFirewall) :=
  if s.rx_prop = false ∨ active = false then .ok (true, s)
  else if ipacmMaxFirewallEntries < s.num_firewall f then .ok (false, s)
  else do
    let (ok, s₁) ← deleteCalls f (s.delCalls f a) s
    if ok = false then .ok (false, s₁)
    else do
      let s₂ ← s₁.delFrag f a
      .ok (true, { s₂ with num_firewall := update s₂.num_firewall f 0 })

end StaFirewall

/-- The calls. The family is active in those of `del_dft_firewall_rules`. -/
inductive StaCall where
  | config (f : IpFamily) (xml_file : Option XmlDoc) (a : StaAddAnswers)
  | del (f : IpFamily) (a : StaDelAnswers)

def StaFirewall.step (lib : InetLib) (s : StaFirewall) :
    StaCall → Except Fault (StaFirewall × Bool)
  | .config f xml_file a => do
      let (ok, s) ← s.config_dft_firewall_rules f lib xml_file a
      .ok (s, ok)
  | .del f a => do
      let (ok, s) ← s.del_dft_firewall_rules f true a
      .ok (s, ok)

end Nx508j.Ipacm
