import Nx508j.Ipacm.StaFirewall
import Nx508j.Lib.FirstMatch

/-! # The firewall of a station and that of the modem

The entries of the firewall file become rules on either backhaul: filter rules of the interface for
a station, downlink rules for the modem. Each list is gone through up to the first rule that matches
a packet. Both send the packet to the CPU or take it off the CPU, and they differ in what they do
with ICMP only. -/

namespace Nx508j.Ipacm

open Nx508j.Lib

/-! ## The rules of the modem -/

/-- What a rule matches: a firewall rule of a station or the port of an ALG. -/
inductive PathMatch where
  | fw (what : FwMatch)
  | srcPort (alg : IpacmAlg)
  | dstPort (alg : IpacmAlg)
deriving DecidableEq

/-- `struct ipa_flt_rule_add`, with whole entries. -/
structure ModemRule where
  action : FltAction := .passToRouting
  rt_tbl : RtTbl := .wanDl
  what : PathMatch
deriving DecidableEq

/-- What is done with a packet, if `accept`, and else. -/
def modemRule (f : IpFamily) (accept : Bool) (what : FwMatch) : ModemRule :=
  match f, accept with
  | .v4, true => { action := .passToDstNat, rt_tbl := .lanV4, what := .fw what }
  | .v6, true => { rt_tbl := .wanV6, what := .fw what }
  | _, false => { what := .fw what }

/-- The rules of an entry: two if it is for TCP and UDP. -/
def modemEntryRules (f : IpFamily) (accept : Bool) (e : ExtdFirewallEntry) : List ModemRule :=
  if e.protocolOf f = ipprotoTcpUdp.toBitVec then
    [modemRule f accept (.entry e ipprotoTcp.toBitVec),
      modemRule f accept (.entry e ipprotoUdp.toBitVec)]
  else [modemRule f accept (.entry e (e.protocolOf f))]

def modemProtocolRule (protocol : UInt8) : ModemRule where
  what := .fw (.protocol protocol.toBitVec)

/-- The protocol of ICMP. -/
def icmpOf : IpFamily → UInt8
  | .v4 => ipprotoIcmp
  | .v6 => ipprotoIcmp6

/-- The rules of the ALGs, which are there for IPv4 only. -/
def modemAlgRules (alg_table : List IpacmAlg) : IpFamily → List ModemRule
  | .v4 =>
    (alg_table.map fun a => { what := .srcPort a }) ++
      alg_table.map fun a => { what := .dstPort a }
  | .v6 => []

/-- The rules of `add_icmp_alg_rules`. -/
def modemIcmpAlgRules (alg_table : List IpacmAlg) (f : IpFamily) : List ModemRule :=
  modemProtocolRule (icmpOf f) :: modemAlgRules alg_table f

/-- The rules of `config_dft_firewall_rules_ex`. -/
def modemFirewallRules (enable accept : Bool) (entries : List ExtdFirewallEntry) (f : IpFamily) :
    List ModemRule :=
  let frag := if f = .v6 ∧ enable = true then [modemProtocolRule ipprotoFragHdr] else []
  let entries := if enable then
      (entries.filter fun e => e.ip_vsn = (ipVsn f : Int)).flatMap (modemEntryRules f accept)
    else []
  frag ++ entries ++ [modemRule f (!(enable && accept)) .rxProp]

/-- The list that `config_wan_firewall_rule` makes. -/
def modemRules (alg_table : List IpacmAlg) (enable accept : Bool)
    (entries : List ExtdFirewallEntry) (f : IpFamily) : List ModemRule :=
  modemIcmpAlgRules alg_table f ++ modemFirewallRules enable accept entries f

/-! ### These are the rules in the array -/

/-- An entry without its attributes. -/
def ExtdFirewallEntry.short (f : IpFamily) (e : ExtdFirewallEntry) : FirewallEntry where
  ip_vsn := e.ip_vsn.toNat
  protocol := .ofBitVec (e.protocolOf f)

def PathMatch.short (f : IpFamily) : PathMatch → DlMatch
  | .fw (.protocol n) => .protocol (.ofBitVec n)
  | .fw (.entry e n) => .entry (e.short f) (.ofBitVec n)
  | .fw .rxProp => .rxProp
  | .srcPort a => .srcPort a
  | .dstPort a => .dstPort a

def ModemRule.short (f : IpFamily) (r : ModemRule) : DlRule where
  action := r.action
  rt_tbl := r.rt_tbl
  what := r.what.short f

/-- The rules that a construction puts into the array. -/
def puts : List DlOp → List DlRule
  | [] => []
  | .ioctl :: ops => puts ops
  | .put rule :: ops => rule :: puts ops

theorem puts_append (ops ops' : List DlOp) : puts (ops ++ ops') = puts ops ++ puts ops' := by
  induction ops with
  | nil => rfl
  | cons op ops ih =>
    cases op with
    | ioctl => exact ih
    | put rule => rw [List.cons_append, puts, puts, ih, List.cons_append]

theorem puts_flatMap {κ : Type} (ops : κ → List DlOp) (ks : List κ) :
    puts (ks.flatMap ops) = ks.flatMap fun k => puts (ops k) := by
  induction ks with
  | nil => rfl
  | cons k ks ih => rw [List.flatMap_cons, List.flatMap_cons, puts_append, ih]

theorem short_modemRule (f : IpFamily) (accept : Bool) (what : FwMatch) :
    (modemRule f accept what).short f = entryRule f accept ((PathMatch.fw what).short f) := by
  cases f <;> cases accept <;> rfl

theorem puts_firewallEntryRules (f : IpFamily) (accept : Bool) (e : ExtdFirewallEntry) :
    puts (firewallEntryRules f accept (e.short f)) =
      (modemEntryRules f accept e).map (ModemRule.short f) := by
  have hiff : (e.short f).protocol = ipprotoTcpUdp ↔ e.protocolOf f = ipprotoTcpUdp.toBitVec := by
    constructor
    · intro h
      rw [← h]
      rfl
    · intro h
      show UInt8.ofBitVec (e.protocolOf f) = _
      rw [h]
  unfold firewallEntryRules modemEntryRules
  by_cases htcp : e.protocolOf f = ipprotoTcpUdp.toBitVec
  · simp [hiff.2 htcp, htcp, puts, short_modemRule]
    exact ⟨rfl, rfl⟩
  · simp [mt hiff.1 htcp, htcp, puts, short_modemRule]
    rfl

theorem puts_icmpAlgRules (alg_table : List IpacmAlg) (f : IpFamily) :
    puts (icmpAlgRules alg_table f) =
      (modemIcmpAlgRules alg_table f).map (ModemRule.short f) := by
  cases f with
  | v6 => rfl
  | v4 =>
    have hports (port : IpacmAlg → DlMatch) :
        puts (alg_table.flatMap fun a => [.ioctl, .put { what := port a }]) =
          alg_table.map fun a => { what := port a } := by
      rw [puts_flatMap]
      exact List.map_eq_flatMap.symm
    unfold icmpAlgRules modemIcmpAlgRules modemAlgRules
    rw [puts_append, puts_append, hports, hports]
    simp [puts]
    exact ⟨rfl, rfl⟩

/-- The rules of the modem without the attributes of the entries are those of the array. -/
theorem puts_wanFirewallRules (alg_table : List IpacmAlg) (enable accept : Bool)
    (entries : List ExtdFirewallEntry) (f : IpFamily) (ioctls : Nat) :
    puts (wanFirewallRules ⟨alg_table, ⟨enable, accept, entries.map (·.short f)⟩, ioctls⟩ f) =
      (modemRules alg_table enable accept entries f).map (ModemRule.short f) := by
  have hentries : puts (((entries.map (·.short f)).filter fun e => e.ip_vsn = ipVsn f).flatMap
      (firewallEntryRules f accept)) =
        ((entries.filter fun e => e.ip_vsn = (ipVsn f : Int)).flatMap
          (modemEntryRules f accept)).map (ModemRule.short f) := by
    have hvsn (e : ExtdFirewallEntry) :
        (e.short f).ip_vsn = ipVsn f ↔ e.ip_vsn = (ipVsn f : Int) := by
      unfold ExtdFirewallEntry.short
      have hpos : 0 < ipVsn f := by cases f <;> decide
      dsimp only
      omega
    rw [List.filter_map, puts_flatMap, List.flatMap_map, List.map_flatMap]
    simp only [puts_firewallEntryRules, Function.comp_def, hvsn]
  unfold wanFirewallRules dftFirewallRules modemRules modemFirewallRules
  rw [puts_append, puts_icmpAlgRules, puts_append, puts_append, List.map_append, List.map_append,
    List.map_append]
  congr 1
  congr 1
  · congr 1
    · split <;> rfl
    · cases enable with
      | false => rfl
      | true => exact hentries
  · show [_] = [_]
    rw [short_modemRule]
    rfl

/-! ## The rules of a station -/

/-- The rules that are handed to the driver. -/
def opRules : List StaOp → List StaRule
  | [] => []
  | .getRoutingTable :: ops => opRules ops
  | .add _ rule :: ops => rule :: opRules ops

theorem opRules_append (ops ops' : List StaOp) :
    opRules (ops ++ ops') = opRules ops ++ opRules ops' := by
  induction ops with
  | nil => rfl
  | cons op ops ih =>
    cases op with
    | getRoutingTable => exact ih
    | add p rule => rw [List.cons_append, opRules, opRules, ih, List.cons_append]

theorem opRules_slotOps (rules : List StaRule) : opRules (slotOps rules) = rules := by
  have hshift (k : Nat) :
      opRules (rules.mapIdx fun i rule => StaOp.add (.slot (k + i)) rule) = rules := by
    induction rules generalizing k with
    | nil => rfl
    | cons rule rules ih =>
      rw [List.mapIdx_cons, opRules]
      have hrest := ih (k + 1)
      simp only [Nat.add_assoc, Nat.add_comm 1] at hrest
      rw [hrest]
  simpa [slotOps] using hshift 0

/-- The list that `config_dft_firewall_rules` makes. -/
def staRules (enable accept : Bool) (entries : List ExtdFirewallEntry) (f : IpFamily) :
    List StaRule :=
  opRules (staOps enable accept entries f)

theorem StaFirewall.store_driver {f : IpFamily} {p : FwPlace} {hdl : Nat} {s s' : StaFirewall}
    (h : s.store f hdl p = .ok s') : s'.driver = s.driver := by
  cases p with
  | slot i =>
    rw [StaFirewall.store] at h
    obtain ⟨m, -, h⟩ := bind_eq_ok h
    cases h
    rfl
  | dft | icmp | frag =>
    cases h
    rfl

/-- Whatever a configuration meets, the new rules at the end of the table are some of its list, in
    this order. When it succeeds they are all of them just if no status was an error. -/
theorem StaFirewall.makeRules_rules {f : IpFamily} {a : StaAddAnswers} {ops : List StaOp} {n : Nat}
    {ok : Bool} {s s' : StaFirewall} (h : StaFirewall.makeRules f a ops n s = .ok (ok, s')) :
    ∃ made, made.Sublist (opRules ops) ∧
      (s'.driver.table f).rules.map Prod.snd = (s.driver.table f).rules.map Prod.snd ++ made ∧
      (ok = true →
        (made = opRules ops ↔ ∀ i < (opRules ops).length, a.add (n + i) = .added)) := by
  induction ops generalizing n s with
  | nil =>
    cases h
    exact ⟨[], .slnil, by simp, by simp [opRules]⟩
  | cons op ops ih =>
    cases op with
    | getRoutingTable =>
      rw [StaFirewall.makeRules] at h
      split at h
      · cases h
        exact ⟨[], List.nil_sublist _, by simp, fun hok => nomatch hok⟩
      · exact ih h
    | add p rule =>
      have hall : (∀ i < (rule :: opRules ops).length, a.add (n + i) = .added) ↔
          a.add n = .added ∧ ∀ i < (opRules ops).length, a.add (n + 1 + i) = .added := by
        simp only [List.length_cons, Nat.forall_lt_succ_left, Nat.add_assoc, Nat.add_comm 1]
        rfl
      rw [StaFirewall.makeRules] at h
      rw [opRules, hall]
      cases hadd : a.add n with
      | failed =>
        rw [hadd] at h
        cases h
        exact ⟨[], List.nil_sublist _, by simp, fun hok => nomatch hok⟩
      | badStatus =>
        rw [hadd] at h
        obtain ⟨s₁, hstore, h⟩ := bind_eq_ok h
        obtain ⟨made, hsub, hrules, -⟩ := ih h
        refine ⟨made, hsub.cons rule, hrules.trans ?_, fun _ => ⟨fun heq => ?_, by simp⟩⟩
        · rw [StaFirewall.store_driver hstore]
        · have hlen := hsub.length_le
          rw [heq, List.length_cons] at hlen
          omega
      | added =>
        rw [hadd] at h
        obtain ⟨s₁, hstore, h⟩ := bind_eq_ok h
        obtain ⟨made, hsub, hrules, hok⟩ := ih h
        refine ⟨rule :: made, hsub.cons_cons rule, ?_, fun htrue => by simp [hok htrue]⟩
        rw [hrules, StaFirewall.store_driver hstore]
        rw [FltDriver.setTable_table, if_pos rfl, RuleTable.addRear_rules, List.map_append,
          RuleTable.named_snd, List.append_assoc]
        rfl

/-- The status of the second rule is an error, and the configuration succeeds. -/
theorem StaFirewall.makeRules_rules_badStatus : ∃ s' : StaFirewall, ∃ made : List StaRule,
    (s'.driver.table .v6).rules.map Prod.snd = made ∧ made ≠ opRules (staOps true true [] .v6) := by
  obtain ⟨s', hmake⟩ : ∃ s', StaFirewall.makeRules .v6
      { add := fun n => if n = 1 then .badStatus else .added } (staOps true true [] .v6) 0
      { rx_prop := true, driver := { table := fun _ => .empty } } = .ok (true, s') := ⟨_, rfl⟩
  obtain ⟨made, -, hrules, hall⟩ := StaFirewall.makeRules_rules hmake
  exact ⟨s', made, hrules, fun heq => absurd ((hall rfl).1 heq 1 (by decide)) (by decide)⟩

/-! ## Packets -/

/-- What becomes of a packet: it goes to a client without the CPU, or to the CPU. -/
inductive Verdict where
  | offloaded
  | toCpu
deriving DecidableEq, Repr

/-- Routing through the tables of the clients is offloading. -/
def RtTbl.verdict : RtTbl → Verdict
  | .wanDl => .toCpu
  | .lanV4 | .wanV6 | .oduV4 | .oduV6 => .offloaded

/-- A rule of either list. -/
structure PathRule where
  verdict : Verdict
  what : PathMatch
deriving DecidableEq

def ModemRule.path (r : ModemRule) : PathRule where
  verdict :=
    match r.action with
    | .passToDstNat => .offloaded
    | .passToRouting => r.rt_tbl.verdict
  what := r.what

def StaRule.path (r : StaRule) : PathRule where
  verdict :=
    match r.action, r.rt_tbl with
    | .passToDstNat, _ => .offloaded
    | .passToRouting, some t => t.verdict
    | .passToRouting, none | .passToException, _ => .toCpu
  what := .fw r.what

/-- The packets of an interface, which all have the properties that are registered for it, and what
    a rule can ask about them. Which packets an entry matches is left open. -/
structure Packets (P : Type) where
  protocol : P → BitVec 8
  src_port : P → UInt16
  dst_port : P → UInt16
  entry : ExtdFirewallEntry → BitVec 8 → P → Bool

namespace Packets

variable {P : Type} (w : Packets P)

def hits (p : P) : PathMatch → Bool
  | .fw (.protocol n) => w.protocol p = n
  | .fw (.entry e n) => w.entry e n p
  | .fw .rxProp => true
  | .srcPort a => w.protocol p = a.protocol.toBitVec ∧ w.src_port p = a.port
  | .dstPort a => w.protocol p = a.protocol.toBitVec ∧ w.dst_port p = a.port

/-- What becomes of a packet, by the first rule that matches it. -/
def verdict (rules : List PathRule) (p : P) : Option Verdict :=
  firstMatch (fun r => w.hits p r.what) PathRule.verdict rules

end Packets

/-! ## Both lists -/

section Paths

variable (alg_table : List IpacmAlg) (enable accept : Bool) (entries : List ExtdFirewallEntry)
  (f : IpFamily)

/-- What both make of one thing that a firewall rule matches. -/
def pathRule (accept : Bool) (what : FwMatch) : PathRule where
  verdict := if accept then .offloaded else .toCpu
  what := .fw what

theorem modemRule_path (what : FwMatch) :
    (modemRule f accept what).path = pathRule accept what := by
  cases f <;> cases accept <;> rfl

theorem staRule_path (what : FwMatch) : (staRule f accept what).path = pathRule accept what := by
  cases f <;> cases accept <;> rfl

/-- The rules of the entries on either path. -/
def entryPaths : List PathRule := (staEntries enable accept entries f).map StaRule.path

/-- The rule for fragments, which is there for IPv6 if the firewall is enabled. -/
def fragPaths : List PathRule :=
  if f = .v6 ∧ enable = true then [pathRule false (.protocol ipprotoFragHdr.toBitVec)] else []

/-- The rule for ICMP of a station, which is there for IPv6. -/
def staIcmpPaths : List PathRule :=
  match f with
  | .v4 => []
  | .v6 => [pathRule false (.protocol ipprotoIcmp6.toBitVec)]

def defaultPath : PathRule := pathRule (!(enable && accept)) .rxProp

theorem modemEntryRules_path (e : ExtdFirewallEntry) :
    (modemEntryRules f accept e).map ModemRule.path =
      (staEntryRules f accept e).map StaRule.path := by
  unfold modemEntryRules staEntryRules
  split <;> simp [modemRule_path, staRule_path]

theorem modemRules_path : (modemRules alg_table enable accept entries f).map ModemRule.path =
    pathRule false (.protocol (icmpOf f).toBitVec) ::
      ((modemAlgRules alg_table f).map ModemRule.path ++
        (fragPaths enable f ++
          (entryPaths enable accept entries f ++ [defaultPath enable accept]))) := by
  have hfrag : (if f = .v6 ∧ enable = true then [modemProtocolRule ipprotoFragHdr] else []).map
      ModemRule.path = fragPaths enable f := by
    unfold fragPaths
    split <;> rfl
  have hentries : (if enable then
      (entries.filter fun e => e.ip_vsn = (ipVsn f : Int)).flatMap (modemEntryRules f accept)
        else []).map ModemRule.path = entryPaths enable accept entries f := by
    unfold entryPaths staEntries
    cases enable with
    | false => rfl
    | true =>
      simp only [↓reduceIte, List.map_flatMap, modemEntryRules_path]
  unfold modemRules modemIcmpAlgRules modemFirewallRules
  rw [List.map_append, List.map_append, List.map_append, List.map_cons, hfrag, hentries,
    List.map_singleton, modemRule_path, List.append_assoc]
  rfl

theorem staEntries_nil {q : ExtdFirewallEntry → Bool} (hcount : entries.countP q = 0)
    (hq : ∀ e : ExtdFirewallEntry, e.ip_vsn = (ipVsn f : Int) → q e = true) :
    staEntries enable accept entries f = [] := by
  have hnone : (entries.filter fun e => e.ip_vsn = (ipVsn f : Int)) = [] := by
    refine List.filter_eq_nil_iff.2 fun e he hvsn => ?_
    exact List.countP_eq_zero.1 hcount e he (hq e (of_decide_eq_true hvsn))
  unfold staEntries
  rw [hnone]
  split <;> rfl

theorem staRules_path : (staRules enable accept entries f).map StaRule.path =
    fragPaths enable f ++ (entryPaths enable accept entries f ++
      (staIcmpPaths f ++ [defaultPath enable accept])) := by
  have hdefault : (staDefaultRule f enable accept).path = defaultPath enable accept :=
    staRule_path ..
  unfold staRules staOps
  cases f with
  | v4 =>
    dsimp only
    split
    · next hcount =>
      have hnil := staEntries_nil enable accept entries .v4 hcount
        (fun e he => decide_eq_true he)
      simp [opRules, entryPaths, hnil, hdefault, fragPaths, staIcmpPaths]
    · simp [opRules, opRules_append, opRules_slotOps, entryPaths, hdefault, fragPaths,
        staIcmpPaths]
  | v6 =>
    have hicmp : staIcmpPaths .v6 = [(staProtocolRule ipprotoIcmp6).path] := rfl
    have hfrag : (opRules (if enable then [.add .frag (staProtocolRule ipprotoFragHdr)]
        else [])).map StaRule.path = fragPaths enable .v6 := by
      cases enable <;> rfl
    dsimp only
    rw [hicmp, ← hfrag]
    split
    · next hcount =>
      have hnil := staEntries_nil enable accept entries .v6 hcount
        (fun e he => decide_eq_true (by
          rw [he]
          decide))
      simp [opRules, opRules_append, entryPaths, hnil, hdefault]
    · simp [opRules, opRules_append, opRules_slotOps, entryPaths, hdefault]

end Paths

namespace Packets

variable {P : Type} (w : Packets P) (alg_table : List IpacmAlg) (enable accept : Bool)
  (entries : List ExtdFirewallEntry) (f : IpFamily) (p : P)

/-- What becomes of a packet if a station is the backhaul. -/
def staVerdict : Option Verdict :=
  w.verdict ((staRules enable accept entries f).map StaRule.path) p

/-- What becomes of a packet if the modem is. -/
def modemVerdict : Option Verdict :=
  w.verdict ((modemRules alg_table enable accept entries f).map ModemRule.path) p

variable {w alg_table enable accept entries f p}

theorem modemVerdict_icmp (hicmp : w.protocol p = (icmpOf f).toBitVec) :
    w.modemVerdict alg_table enable accept entries f p = some .toCpu := by
  unfold modemVerdict verdict
  rw [modemRules_path]
  exact firstMatch_cons_of_hits (by simpa [pathRule, hits] using hicmp)

theorem staVerdict_eq (halg : ∀ r ∈ modemAlgRules alg_table f, w.hits p r.what = false)
    (hicmp : w.protocol p ≠ (icmpOf f).toBitVec) :
    w.staVerdict enable accept entries f p =
      w.modemVerdict alg_table enable accept entries f p := by
  have hmodem : ∀ r ∈ (modemAlgRules alg_table f).map ModemRule.path,
      w.hits p r.what = false := by
    intro r hr
    obtain ⟨m, hm, rfl⟩ := List.mem_map.1 hr
    exact halg m hm
  have hsta : ∀ r ∈ staIcmpPaths f, w.hits p r.what = false := by
    intro r hr
    cases f with
    | v4 => cases hr
    | v6 =>
      obtain rfl := List.mem_singleton.1 hr
      exact decide_eq_false hicmp
  unfold staVerdict modemVerdict verdict
  rw [staRules_path, modemRules_path,
    firstMatch_cons_of_not (by simpa [pathRule, hits] using hicmp),
    firstMatch_append_of_none hmodem]
  refine firstMatch_append_congr _ (firstMatch_append_congr _ ?_)
  exact firstMatch_append_of_none hsta

/-- **The two paths of the firewall.** For a packet that no rule of an ALG matches, a station and
    the modem agree unless it is ICMP and the station does not send it to the CPU. The modem does
    with all of ICMP. -/
theorem firewall_paths (halg : ∀ r ∈ modemAlgRules alg_table f, w.hits p r.what = false) :
    (w.staVerdict enable accept entries f p =
        w.modemVerdict alg_table enable accept entries f p ↔
      (w.protocol p = (icmpOf f).toBitVec →
        w.staVerdict enable accept entries f p = some .toCpu)) ∧
      (w.protocol p = (icmpOf f).toBitVec →
        w.modemVerdict alg_table enable accept entries f p = some .toCpu) := by
  refine ⟨⟨?_, ?_⟩, modemVerdict_icmp⟩
  · intro heq hicmp
    rw [heq, modemVerdict_icmp hicmp]
  · intro hcpu
    by_cases hicmp : w.protocol p = (icmpOf f).toBitVec
    · rw [hcpu hicmp, modemVerdict_icmp hicmp]
    · exact staVerdict_eq halg hicmp

/-- Packets of one protocol, which no entry matches. -/
def ofProtocol (protocol : UInt8) : Packets Unit where
  protocol _ := protocol.toBitVec
  src_port _ := 53
  dst_port _ := 53
  entry _ _ _ := false

/-- Entries for TCP and UDP, for ICMP, and for the other family. -/
def threeEntries : List ExtdFirewallEntry :=
  [{ ip_vsn := 4, protocol := ipprotoTcpUdp.toBitVec }, { ip_vsn := 4, protocol := 1 },
    { ip_vsn := 6, next_hdr := ipprotoUdp.toBitVec }]

/-- A packet of UDP, which entries for UDP match. -/
def matched : Packets Unit :=
  { ofProtocol ipprotoUdp with entry := fun _ protocol _ => protocol = ipprotoUdp.toBitVec }

theorem firewall_paths_udp :
    (matched.staVerdict true true threeEntries .v4 () =
        matched.modemVerdict [⟨ipprotoTcp, 21⟩] true true threeEntries .v4 () ↔
      (matched.protocol () = (icmpOf .v4).toBitVec →
        matched.staVerdict true true threeEntries .v4 () = some .toCpu)) ∧
      (matched.protocol () = (icmpOf .v4).toBitVec →
        matched.modemVerdict [⟨ipprotoTcp, 21⟩] true true threeEntries .v4 () = some .toCpu) :=
  firewall_paths (by decide)

/-- With the firewall disabled a station takes ICMP off the CPU, and the modem does not. -/
theorem firewall_paths_differ : ¬ ∀ (P : Type) (w : Packets P) (alg_table : List IpacmAlg)
    (enable accept : Bool) (entries : List ExtdFirewallEntry) (f : IpFamily) (p : P),
    (∀ r ∈ modemAlgRules alg_table f, w.hits p r.what = false) →
      w.staVerdict enable accept entries f p =
        w.modemVerdict alg_table enable accept entries f p := by
  intro h
  exact absurd (h Unit (ofProtocol ipprotoIcmp) [] false false [] .v4 () (by decide)) (by decide)

end Packets

end Nx508j.Ipacm
