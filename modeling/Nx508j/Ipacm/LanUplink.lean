import Nx508j.Ipacm.LanIface
import Nx508j.Ipacm.WanSteps

/-! # The uplink rules of a LAN interface

The flags that say whether WAN is up change before the event that says so comes to the interface,
and an address may come in between. What the interface keeps for the uplink of a family is looked at
by itself: the rules are there with their handles, or they are not. An address and a WAN event lead
from the one to the other, once, if the address does not come between the flag and the event. -/

namespace Nx508j.Ipacm

open Nx508j.Lib Function

/-- The rules of the uplink. -/
def FltKind.isUplink : FltKind → Bool
  | .ipv6Prefix => true
  | .staDefault => true
  | .modem _ => true
  | _ => false

/-- The backhaul: a station or the modem, and the rules that the modem asks for. -/
structure Backhaul where
  is_sta : Bool
  ext_prop : IpFamily → ExtProp := fun _ => {}

/-- What an interface keeps for the uplink of a family. -/
structure Uplink where
  rules : List (Nat × FltKind)
  prefixHdl : Nat
  defaultHdl : Option Nat
  ulHdls : List Nat
  ulSet : Bool

/-- What the interface has for the uplink of a family. -/
def Lan.uplink (s : Lan) (f : IpFamily) : Uplink where
  rules := (s.table f).rules.filter (·.2.isUplink)
  prefixHdl := if f = .v6 then s.ipv6_prefix_flt_rule_hdl else 0
  defaultHdl := s.default_hdl f
  ulHdls := s.wan_ul_fl_rule_hdl f
  ulSet := s.modem_ul_set f

/-- The handles of the rules that go to the backhaul. -/
def Uplink.own (is_sta : Bool) (u : Uplink) : List Nat :=
  if is_sta = true then u.defaultHdl.toList else u.ulHdls

/-- The handles that are kept for the uplink. -/
def Uplink.stored (is_sta : Bool) (f : IpFamily) (u : Uplink) : List Nat :=
  (if f = .v6 then [u.prefixHdl] else []) ++ u.own is_sta

namespace Backhaul

variable (b : Backhaul) (f : IpFamily)

/-- The rules of the modem for the family. -/
def modemRules : List FltKind := (b.ext_prop f).filter_hdl.map .modem

/-- The rules that the uplink is made of. -/
def kinds : List FltKind :=
  (if f = .v6 then [.ipv6Prefix] else []) ++
    if b.is_sta = true then [.staDefault] else b.modemRules f

/-- What a handler looks at comes from the backhaul, and the driver does what it is asked for. -/
structure Gives (i : LanInput) : Prop where
  is_sta : i.is_sta = b.is_sta
  ext_prop : i.ext_prop = b.ext_prop
  answers : i.answers = {}

/-- The rules are there, each with its handle in its place. -/
structure Installed (u : Uplink) : Prop where
  kinds : u.rules.map Prod.snd = b.kinds f
  hdls : u.rules.map Prod.fst = u.stored b.is_sta f
  set : b.is_sta = false → b.modemRules f ≠ [] → u.ulSet = true

/-- None of them is there. -/
structure Absent (u : Uplink) : Prop where
  rules : u.rules = []
  hdls : b.is_sta = false → u.ulHdls = []
  set : b.is_sta = false → u.ulSet = false

variable {b : Backhaul} {f : IpFamily} {u : Uplink}

theorem Installed.length (h : b.Installed f u) :
    (u.stored b.is_sta f).length = (b.kinds f).length := by
  rw [← h.hdls, ← h.kinds, List.length_map, List.length_map]

theorem Installed.defaultHdl_ne (h : b.Installed f u) (hsta : b.is_sta = true) :
    u.defaultHdl ≠ none := by
  intro hnone
  have hlen := h.length
  simp [Uplink.stored, Uplink.own, Backhaul.kinds, hsta, hnone] at hlen
  cases f <;> simp at hlen

theorem Installed.ulHdls_le (h : b.Installed f u) (hsta : b.is_sta = false) :
    u.ulHdls.length ≤ maxNumExtProps := by
  have hlen := h.length
  have hbound := (b.ext_prop f).bound
  simp only [Uplink.stored, Uplink.own, Backhaul.kinds, Backhaul.modemRules, hsta] at hlen
  cases f <;> simp at hlen <;> omega

end Backhaul

/-! ## The table of a family -/

section Table

variable {t : RuleTable FltKind} {ks : List FltKind}

theorem filter_named_uplink (h : ∀ k ∈ ks, k.isUplink = true) :
    (t.named ks).filter (·.2.isUplink) = t.named ks :=
  List.filter_eq_self.2 fun _ hr => h _ (t.mem_named ks hr).2.2

theorem filter_named_other (h : ∀ k ∈ ks, k.isUplink = false) :
    (t.named ks).filter (·.2.isUplink) = [] := by
  refine List.filter_eq_nil_iff.2 fun r hr => ?_
  simp [h _ (t.mem_named ks hr).2.2]

theorem filter_hdls_append (rules : List (Nat × FltKind)) (hdls hdls' : List Nat) :
    (rules.filter (·.1 ∉ hdls)).filter (·.1 ∉ hdls') = rules.filter (·.1 ∉ hdls ++ hdls') := by
  simp [List.filter_filter, Bool.and_comm]

end Table

namespace Lan

variable {s s' : Lan} {i : LanInput} {f g : IpFamily}

/-! ## What is no concern of the uplink -/

/-- Nothing changes for the uplink. -/
structure SameUplink (s s' : Lan) : Prop where
  rx_prop : s'.rx_prop = s.rx_prop
  uplink : ∀ f, s'.uplink f = s.uplink f

namespace SameUplink

theorem refl (s : Lan) : SameUplink s s := ⟨rfl, fun _ => rfl⟩

theorem trans {s₁ s₂ s₃ : Lan} (h : SameUplink s₁ s₂) (h' : SameUplink s₂ s₃) : SameUplink s₁ s₃ :=
  ⟨h'.rx_prop.trans h.rx_prop, fun f => (h'.uplink f).trans (h.uplink f)⟩

end SameUplink

theorem uplink_update (t : RuleTable FltKind)
    (h : t.rules.filter (·.2.isUplink) = (s.table f).rules.filter (·.2.isUplink)) (g : IpFamily) :
    (update s.table f t g).rules.filter (·.2.isUplink) =
      (s.table g).rules.filter (·.2.isUplink) := by
  by_cases hg : g = f
  · subst hg
    rw [update_self, h]
  · rw [update_of_ne hg]

/-- Nothing changes for the uplink and for the addresses. -/
structure Keeps (s s' : Lan) : Prop where
  same : SameUplink s s'
  ip_type : s'.ip_type = s.ip_type
  ipv6_addr : s'.ipv6_addr = s.ipv6_addr

namespace Keeps

theorem refl (s : Lan) : Keeps s s := ⟨.refl s, rfl, rfl⟩

theorem trans {s₁ s₂ s₃ : Lan} (h : Keeps s₁ s₂) (h' : Keeps s₂ s₃) : Keeps s₁ s₃ :=
  ⟨h.same.trans h'.same, h'.ip_type.trans h.ip_type, h'.ipv6_addr.trans h.ipv6_addr⟩

end Keeps

theorem addCounted_keeps (s : Lan) (i : LanInput) (call : FltCall) (f : IpFamily) (kind : FltKind)
    (hkind : kind.isUplink = false) (n : Nat) : Keeps s (s.addCounted i call f kind n) := by
  unfold addCounted
  split
  · exact .refl s
  split
  · exact .refl s
  · refine ⟨⟨rfl, fun g => ?_⟩, rfl, rfl⟩
    simp only [uplink, count, setTable]
    congr 1
    refine uplink_update _ ?_ g
    rw [RuleTable.addRear_rules, List.filter_append, filter_named_other, List.append_nil]
    intro k hk
    rw [List.eq_of_mem_replicate hk, hkind]

theorem init_fl_rule_same (s : Lan) (i : LanInput) (f : IpFamily) :
    SameUplink s (s.init_fl_rule i f) := by
  unfold init_fl_rule
  split
  · exact .refl s
  · have hsame := (addCounted_keeps { s with ip_type := s.ip_type.add f } i .dft f .dft rfl
      (defaultFiltertingRules f)).same
    exact ⟨hsame.rx_prop, hsame.uplink⟩

theorem handle_private_subnet_keeps (s : Lan) (i : LanInput) (f : IpFamily) :
    Keeps s (s.handle_private_subnet i f) := by
  cases f with
  | v4 => exact addCounted_keeps s i _ _ _ rfl _
  | v6 => exact .refl s

theorem addSwRouting_keeps (s : Lan) (f : IpFamily) : Keeps s (s.addSwRouting f) := by
  refine ⟨⟨rfl, fun g => ?_⟩, rfl, rfl⟩
  simp only [uplink, addSwRouting]
  congr 1
  refine uplink_update _ ?_ g
  rw [RuleTable.addFront_rules, List.filter_append, filter_named_other (by simp [FltKind.isUplink]),
    List.nil_append]

theorem handle_software_routing_enable_keeps (s : Lan) (i : LanInput) :
    Keeps s (s.handle_software_routing_enable i) := by
  unfold handle_software_routing_enable
  split
  · exact .refl s
  split
  · exact .refl s
  · split
    · exact .refl s
    · dsimp only
      split
      · exact addSwRouting_keeps s .v4
      · refine (addSwRouting_keeps s .v4).trans ?_
        exact (addSwRouting_keeps _ .v6).trans ⟨⟨rfl, fun _ => rfl⟩, rfl, rfl⟩

/-! ## The addresses of an interface -/

theorem has_add (t : IfaceIpType) (f g : IpFamily) :
    (t.add f).has g = true ↔ g = f ∨ t.has g = true := by
  cases t <;> cases f <;> cases g <;> decide

theorem init_fl_rule_addrs (s : Lan) (i : LanInput) (f : IpFamily) :
    (∀ g, (s.init_fl_rule i f).ip_type.has g = true ↔ g = f ∨ s.ip_type.has g = true) ∧
      (s.init_fl_rule i f).ipv6_addr = s.ipv6_addr := by
  unfold init_fl_rule
  split
  · next hf =>
    refine ⟨fun g => ⟨Or.inr, ?_⟩, rfl⟩
    rintro (rfl | hg)
    · exact hf
    · exact hg
  · have hkeeps := addCounted_keeps { s with ip_type := s.ip_type.add f } i .dft f .dft rfl
      (defaultFiltertingRules f)
    refine ⟨fun g => ?_, hkeeps.ipv6_addr⟩
    rw [hkeeps.ip_type]
    exact has_add _ f g

/-- What a new address does, before the uplink is looked at. -/
structure Addressed (s : Lan) (f : IpFamily) (ipv6_addr : BitVec 128) (s' : Lan) : Prop where
  same : SameUplink s s'
  has : ∀ g, s'.ip_type.has g = true ↔ g = f ∨ s.ip_type.has g = true
  addrs : s'.ipv6_addr = if f = .v6 then s.ipv6_addr ++ [ipv6_addr] else s.ipv6_addr

/-- What an interface keeps of its addresses. -/
structure Addrs (s : Lan) : Prop where
  has_v6 : s.ip_type.has .v6 = true ↔ s.ipv6_addr ≠ []
  length : s.ipv6_addr.length ≤ maxDefaultV6RouteRules
  default_v6 : s.default_hdl .v6 ≠ none

/-- An address is the first of its family, or the second IPv6 address, which finds the rules made.
    -/
theorem handle_addr_evt_spec (hs : s.Addrs) (i : LanInput) (ipv6_addr : BitVec 128)
    (hacc : s.accepts f = true) :
    (∃ s', s.handle_addr_evt i f ipv6_addr = .ok (true, s') ∧ s.Addressed f ipv6_addr s') ∨
      s.handle_addr_evt i f ipv6_addr = .ok (false, s) ∧ f = .v6 ∧ s.ip_type.has .v6 = true := by
  cases f with
  | v4 =>
    left
    have hlan := addCounted_keeps (s.init_fl_rule i .v4) i .lan2lan .v4 .lan2lan rfl
      Lan2Lan.maxOffloadPair
    obtain ⟨hhas, haddrs⟩ := init_fl_rule_addrs s i .v4
    refine ⟨_, rfl, (init_fl_rule_same s i .v4).trans hlan.same, ?_, ?_⟩
    · intro g
      rw [add_dummy_lan2lan_flt_rule, hlan.ip_type]
      exact hhas g
    · exact hlan.ipv6_addr.trans haddrs
  | v6 =>
    simp only [handle_addr_evt]
    split
    · next hmem => exact .inr (by
        simpa using hs.has_v6.2 (List.ne_nil_of_mem (List.contains_iff_mem.1 hmem)))
    left
    by_cases hnil : s.ipv6_addr = []
    · have hlan := addCounted_keeps s i .lan2lan .v6 .lan2lan rfl Lan2Lan.maxOffloadPair
      obtain ⟨hhas, haddrs⟩ := init_fl_rule_addrs (s.add_dummy_lan2lan_flt_rule i .v6) i .v6
      have hsame := hlan.same.trans
        (init_fl_rule_same (s.add_dummy_lan2lan_flt_rule i .v6) i .v6)
      rw [if_neg (by simp [hnil, maxDefaultV6RouteRules])]
      refine ⟨_, rfl, ⟨?_, ?_⟩, ?_, rfl⟩
      · rw [if_pos hnil]
        exact hsame.rx_prop
      · rw [if_pos hnil]
        exact hsame.uplink
      · intro g
        rw [if_pos hnil]
        exact (hhas g).trans (by rw [add_dummy_lan2lan_flt_rule, hlan.ip_type])
    · have hroom : s.ipv6_addr.length ≠ maxDefaultV6RouteRules := by
        simpa [accepts, hs.has_v6.2 hnil] using hacc
      have hlen := hs.length
      rw [if_neg (by omega)]
      refine ⟨_, rfl, ⟨?_, ?_⟩, ?_, rfl⟩
      · rw [if_neg hnil]
      · rw [if_neg hnil]
        exact fun _ => rfl
      · intro g
        rw [if_neg hnil]
        refine ⟨Or.inr, ?_⟩
        rintro (rfl | hg)
        · exact hs.has_v6.2 hnil
        · exact hg

theorem Addrs.of_eq (hs : s.Addrs) (htype : s'.ip_type = s.ip_type)
    (haddrs : s'.ipv6_addr = s.ipv6_addr)
    (hdft : s.default_hdl .v6 ≠ none → s'.default_hdl .v6 ≠ none) : s'.Addrs where
  has_v6 := by rw [htype, haddrs]; exact hs.has_v6
  length := by rw [haddrs]; exact hs.length
  default_v6 := hdft hs.default_v6

theorem SameUplink.default_hdl (h : SameUplink s s') (f : IpFamily) :
    s'.default_hdl f = s.default_hdl f :=
  congrArg Uplink.defaultHdl (h.uplink f)

theorem Addrs.keeps (hs : s.Addrs) (h : Keeps s s') : s'.Addrs :=
  hs.of_eq h.ip_type h.ipv6_addr fun hdft => by rwa [h.same.default_hdl]

theorem Addressed.keeps_addrs {ipv6_addr : BitVec 128} (hs : s.Addrs) (hacc : s.accepts f = true)
    (h : s.Addressed f ipv6_addr s') : s'.Addrs := by
  refine ⟨?_, ?_, ?_⟩
  · rw [h.has, h.addrs, hs.has_v6]
    cases f <;> simp
  · have hlen := hs.length
    rw [h.addrs]
    cases f with
    | v4 => exact hlen
    | v6 =>
      have hroom : s.ipv6_addr.length ≠ maxDefaultV6RouteRules := by
        cases hhas : s.ip_type.has .v6 with
        | true => simpa [accepts, hhas] using hacc
        | false =>
          have hnil : s.ipv6_addr = [] := by
            by_contra hne
            rw [hs.has_v6.2 hne] at hhas
            cases hhas
          simp [hnil, maxDefaultV6RouteRules]
      simp
      omega
  · rw [h.same.default_hdl]
    exact hs.default_v6

/-- **A new address** that is accepted: the uplink is set up if it is the first of its family and
    WAN is up. The second address may be one that there is already. -/
theorem newAddr_spec (hs : s.Addrs) (i : LanInput) (ipv6_addr : BitVec 128)
    (hacc : s.accepts f = true) :
    (∃ s₁, s.Addressed f ipv6_addr s₁ ∧ s.newAddr i f ipv6_addr =
        if s.ip_type.has f = false ∧ i.isWanUP f = true then do
          let (s₂, reports) ← s₁.uplinkUp i f
          .ok (true, s₂, reports)
        else .ok (true, s₁, [])) ∨
      s.newAddr i f ipv6_addr = .ok (false, s, []) ∧ s.ip_type.has f = true := by
  unfold newAddr
  have hicmp : Keeps s
      (if f = .v6 ∧ s.ipv6_addr = [] then s.install_ipv6_icmp_flt_rule i else s) := by
    split
    · exact addCounted_keeps s i _ _ _ rfl _
    · exact .refl s
  generalize hs₀ : (if f = .v6 ∧ s.ipv6_addr = [] then s.install_ipv6_icmp_flt_rule i else s) = s₀
    at hicmp
  have hacc₀ : s₀.accepts f = true := by
    rwa [accepts, hicmp.ip_type, hicmp.ipv6_addr, ← accepts]
  dsimp only
  rcases handle_addr_evt_spec (hs.keeps hicmp) i ipv6_addr hacc₀ with
    ⟨s₁, h₁, haddr⟩ | ⟨h₁, rfl, hhas⟩
  · left
    rw [h₁]
    have hkeeps := handle_private_subnet_keeps s₁ i f
    refine ⟨s₁.handle_private_subnet i f, ⟨(hicmp.same.trans haddr.same).trans hkeeps.same, ?_, ?_⟩,
      ?_⟩
    · intro g
      rw [hkeeps.ip_type, ← hicmp.ip_type]
      exact haddr.has g
    · rw [hkeeps.ipv6_addr, ← hicmp.ipv6_addr]
      exact haddr.addrs
    · have hfirst : (f = .v6 → (s₁.handle_private_subnet i f).ipv6_addr.length = 1) ↔
          s.ip_type.has f = false := by
        rw [hkeeps.ipv6_addr, haddr.addrs, hicmp.ipv6_addr]
        cases f with
        | v4 => simpa [accepts] using hacc
        | v6 =>
          have := hs.has_v6
          cases hhas : s.ip_type.has .v6 <;> simp_all
      simp only [ok_bind, Bool.true_eq_false, if_false, hfirst]
      simp only [and_comm]
  · right
    rw [hicmp.ip_type] at hhas
    rw [if_neg (by simp [hs.has_v6.1 hhas])] at hs₀
    subst hs₀
    exact ⟨by rw [h₁]; rfl, hhas⟩

/-- **The address handler**: nothing changes for the uplink and the addresses; or there is one more
    address, and the uplink is set up if it is the first of its family and WAN is up. -/
theorem addrAdd_spec (hs : s.Addrs) (i : LanInput) (f : IpFamily) (ipv4_addr : BitVec 32)
    (ipv6_addr : BitVec 128) :
    (∃ s', s.addrAdd i f ipv4_addr ipv6_addr = .ok (s', []) ∧ Keeps s s' ∧
        (Wan.noAddr f ipv4_addr ipv6_addr = false → s.ip_type.has f = true)) ∨
      Wan.noAddr f ipv4_addr ipv6_addr = false ∧ s.accepts f = true ∧
        ∃ s₁, s.Addressed f ipv6_addr s₁ ∧
          if s.ip_type.has f = false ∧ i.isWanUP f = true then
            ∀ s₂ reports, s₁.uplinkUp i f = .ok (s₂, reports) →
              ∃ s', s.addrAdd i f ipv4_addr ipv6_addr = .ok (s', reports) ∧ Keeps s₂ s'
          else ∃ s', s.addrAdd i f ipv4_addr ipv6_addr = .ok (s', []) ∧ Keeps s₁ s' := by
  have hsw : ∀ (s₂ : Lan) (reports : List IndexReport), ∃ s',
      (if i.ipa_sw_rt_enable = true then .ok (s₂.handle_software_routing_enable i, reports)
        else .ok (s₂, reports) : Except Fault (Lan × List IndexReport)) = .ok (s', reports) ∧
      Keeps s₂ s' := by
    intro s₂ reports
    split
    · exact ⟨_, rfl, handle_software_routing_enable_keeps s₂ i⟩
    · exact ⟨_, rfl, .refl s₂⟩
  unfold addrAdd
  cases hno : Wan.noAddr f ipv4_addr ipv6_addr with
  | true => exact .inl ⟨s, rfl, .refl s, nofun⟩
  | false =>
    rw [if_neg (by decide)]
    cases hacc : s.accepts f with
    | false =>
      left
      obtain ⟨s', hs', hkeeps⟩ := hsw s []
      refine ⟨s', by simpa using hs', hkeeps, fun _ => ?_⟩
      simp only [accepts, decide_eq_false_iff_not, not_or, Bool.not_eq_false] at hacc
      exact hacc.1
    | true =>
      rw [if_pos rfl]
      rcases newAddr_spec hs i ipv6_addr hacc with ⟨s₁, haddr, hnew⟩ | ⟨hnew, hhas⟩
      · refine .inr ⟨rfl, rfl, s₁, haddr, ?_⟩
        rw [hnew]
        split
        · intro s₂ reports hup
          obtain ⟨s', hs', hkeeps⟩ := hsw s₂ reports
          refine ⟨s', ?_, hkeeps⟩
          rw [hup]
          simpa using hs'
        · obtain ⟨s', hs', hkeeps⟩ := hsw s₁ []
          exact ⟨s', by simpa using hs', hkeeps⟩
      · left
        refine ⟨s, ?_, .refl s, fun _ => hhas⟩
        rw [hnew]
        simp

/-! ## The functions for the uplink -/

/-- Only what is kept for one family changes. -/
structure Touches (f : IpFamily) (s s' : Lan) : Prop where
  rx_prop : s'.rx_prop = s.rx_prop
  ip_type : s'.ip_type = s.ip_type
  ipv6_addr : s'.ipv6_addr = s.ipv6_addr
  default_hdl : ∀ g, s.default_hdl g ≠ none → s'.default_hdl g ≠ none
  uplink : ∀ g, g ≠ f → s'.uplink g = s.uplink g

namespace Touches

theorem refl (f : IpFamily) (s : Lan) : Touches f s s :=
  ⟨rfl, rfl, rfl, fun _ h => h, fun _ _ => rfl⟩

theorem trans {s₁ s₂ s₃ : Lan} (h : Touches f s₁ s₂) (h' : Touches f s₂ s₃) : Touches f s₁ s₃ where
  rx_prop := h'.rx_prop.trans h.rx_prop
  ip_type := h'.ip_type.trans h.ip_type
  ipv6_addr := h'.ipv6_addr.trans h.ipv6_addr
  default_hdl g hg := h'.default_hdl g (h.default_hdl g hg)
  uplink g hg := (h'.uplink g hg).trans (h.uplink g hg)

theorem addrs (h : Touches f s s') (hs : s.Addrs) : s'.Addrs :=
  hs.of_eq h.ip_type h.ipv6_addr (h.default_hdl .v6)

end Touches

theorem filter_addRear (t : RuleTable FltKind) (ks : List FltKind)
    (h : ∀ k ∈ ks, k.isUplink = true) :
    (t.addRear ks).rules.filter (·.2.isUplink) = t.rules.filter (·.2.isUplink) ++ t.named ks := by
  rw [RuleTable.addRear_rules, List.filter_append, filter_named_uplink h]

theorem install_prefix_spec (hok : i.answers = {}) (hrx : s.rx_prop = true) :
    Touches .v6 s (s.install_ipv6_prefix_flt_rule i) ∧
      (s.install_ipv6_prefix_flt_rule i).uplink .v6 =
        { s.uplink .v6 with
          rules := (s.uplink .v6).rules ++ [((s.table .v6).next, .ipv6Prefix)]
          prefixHdl := (s.table .v6).next } := by
  simp only [install_ipv6_prefix_flt_rule, hrx, hok, Bool.true_eq_false, if_false]
  refine ⟨⟨hrx.symm, rfl, rfl, fun _ h => h, ?_⟩, ?_⟩
  · intro g hg
    simp [uplink, hg]
  · simp [uplink, FltKind.isUplink, RuleTable.named, RuleTable.fresh]

theorem handle_wan_up_spec (hok : i.answers = {}) (hrx : s.rx_prop = true) (f : IpFamily) :
    Touches f s (s.handle_wan_up i f) ∧
      (s.handle_wan_up i f).uplink f =
        { s.uplink f with
          rules := (s.uplink f).rules ++ [((s.table f).next, .staDefault)]
          defaultHdl := some (s.table f).next } := by
  simp only [handle_wan_up, hrx, hok, Bool.true_eq_false, if_false]
  refine ⟨⟨hrx.symm, rfl, rfl, ?_, ?_⟩, ?_⟩
  · intro g hg
    by_cases hgf : g = f
    · subst hgf
      simp
    · simpa [update_of_ne hgf] using hg
  · intro g hg
    simp [uplink, update_of_ne hg]
  · simp [uplink, FltKind.isUplink, RuleTable.named, RuleTable.fresh]

theorem storeHdls_spec (hdls : List Nat)
    (h : (s.wan_ul_fl_rule_hdl f).length + hdls.length ≤ maxWanUlFilterRules) :
    storeHdls f hdls s = .ok { s with
      wan_ul_fl_rule_hdl :=
        update s.wan_ul_fl_rule_hdl f (s.wan_ul_fl_rule_hdl f ++ hdls) } := by
  induction hdls generalizing s with
  | nil => simp [storeHdls]
  | cons hdl hdls ih =>
    rw [List.length_cons] at h
    rw [storeHdls, if_pos (by omega), ih (by simp; omega)]
    simp

theorem handle_wan_up_ex_spec (hok : i.answers = {}) (hrx : s.rx_prop = true)
    (hcond : (f = .v6 → s.ipv6_addr.length = 1) ∧ s.modem_ul_set f = false)
    (hnil : s.wan_ul_fl_rule_hdl f = []) :
    ∃ s' reports, s.handle_wan_up_ex i f = .ok (s', reports) ∧ Touches f s s' ∧
      s'.uplink f =
        { s.uplink f with
          rules := (s.uplink f).rules ++ (s.table f).named ((i.ext_prop f).filter_hdl.map .modem)
          ulHdls := (s.table f).fresh (i.ext_prop f).filter_hdl.length
          ulSet := true } := by
  unfold handle_wan_up_ex
  rw [if_pos hcond]
  simp only [handle_uplink_filter_rule, hrx, hok, Bool.true_eq_false, if_false]
  by_cases hprop : (i.ext_prop f).filter_hdl = []
  · rw [if_pos hprop]
    refine ⟨_, _, rfl, ⟨rfl, rfl, rfl, fun _ h => h, ?_⟩, ?_⟩
    · intro g hg
      simp [uplink, update_of_ne hg]
    · simp [uplink, hprop, hnil, RuleTable.named, RuleTable.fresh]
  · rw [if_neg hprop]
    have hbound : (i.ext_prop f).filter_hdl.length ≤ maxNumExtProps := (i.ext_prop f).bound
    rw [storeHdls_spec _ (by
      simp only [setTable, count, hnil, List.length_nil, RuleTable.length_fresh, maxWanUlFilterRules]
      unfold maxNumExtProps at hbound
      omega)]
    refine ⟨_, _, rfl, ⟨rfl, rfl, rfl, fun _ h => h, ?_⟩, ?_⟩
    · intro g hg
      simp [uplink, setTable, count, update_of_ne hg]
    · have hfilter := filter_addRear (s.table f) ((i.ext_prop f).filter_hdl.map .modem)
        (by simp [FltKind.isUplink])
      simp [uplink, setTable, count, hnil] at hfilter ⊢
      exact hfilter

theorem deleteFilteringHdls_spec (hok : i.answers = {}) (call : FltCall) (f : IpFamily) (cnt : Nat)
    (hdls : List Nat) (s : Lan) :
    ∃ t, s.deleteFilteringHdls i call f cnt hdls = (true, s.setTable f t) ∧
      t.rules = (s.table f).rules.filter (·.1 ∉ hdls) := by
  induction hdls generalizing cnt s with
  | nil =>
    refine ⟨s.table f, ?_, by simp⟩
    simp [deleteFilteringHdls, setTable]
  | cons hdl hdls ih =>
    rw [deleteFilteringHdls]
    by_cases hzero : hdl = 0
    · -- no rule has the handle 0
      rw [if_pos hzero]
      obtain ⟨t, ht, hrules⟩ := ih (cnt + 1) s
      refine ⟨t, ht, hrules.trans (List.filter_congr fun r hr => ?_)⟩
      have := (s.table f).range r hr
      congr 1
      simp
      omega
    · rw [if_neg hzero, hok, if_neg (by simp)]
      obtain ⟨t, ht, hrules⟩ := ih (cnt + 1) (s.setTable f ((s.table f).delete hdl))
      refine ⟨t, ht.trans (by simp [setTable]), hrules.trans ?_⟩
      simp [setTable, List.filter_filter, Bool.and_comm]

theorem uplink_setTable_self {t : RuleTable FltKind} {hdls : List Nat}
    (ht : t.rules = (s.table f).rules.filter (·.1 ∉ hdls)) : (s.setTable f t).uplink f =
      { s.uplink f with rules := (s.uplink f).rules.filter (·.1 ∉ hdls) } := by
  simp [uplink, setTable, ht, List.filter_filter, Bool.and_comm]

theorem setTable_touches (s : Lan) (f : IpFamily) (t : RuleTable FltKind) :
    Touches f s (s.setTable f t) := by
  refine ⟨rfl, rfl, rfl, fun _ h => h, fun g hg => ?_⟩
  simp [uplink, setTable, update_of_ne hg]

theorem resetCount_touches (s : Lan) (f : IpFamily) : Touches f s (s.resetCount f) :=
  ⟨rfl, rfl, rfl, fun _ h => h, fun _ _ => rfl⟩

variable {b : Backhaul}

theorem deleteUplink_spec (hi : b.Gives i) (hrx : s.rx_prop = true)
    (hlen : b.is_sta = false → (s.wan_ul_fl_rule_hdl f).length ≤ maxWanUlFilterRules)
    (hdft : b.is_sta = true → s.default_hdl f ≠ none) :
    ∃ s', s.deleteUplink i f = .ok s' ∧ Touches f s s' ∧
      (s'.uplink f).rules = (s.uplink f).rules.filter (·.1 ∉ (s.uplink f).own b.is_sta) ∧
      (b.is_sta = false → (s'.uplink f).ulHdls = [] ∧ (s'.uplink f).ulSet = false) := by
  unfold deleteUplink
  rw [hi.is_sta]
  cases hsta : b.is_sta with
  | false =>
    obtain ⟨t, ht, hrules⟩ :=
      deleteFilteringHdls_spec hi.answers .uplink f 0 (s.wan_ul_fl_rule_hdl f) s
    have hrx' : (s.setTable f t).rx_prop ≠ false := by simpa [setTable] using hrx
    rw [if_pos rfl, if_neg (Nat.not_lt.2 (hlen hsta)), ht]
    dsimp only
    rw [if_neg hrx']
    refine ⟨_, rfl, (setTable_touches s f t).trans ⟨rfl, rfl, rfl, fun _ h => h, ?_⟩, ?_, ?_⟩
    · intro g hg
      simp [uplink, update_of_ne hg]
    · exact congrArg Uplink.rules (uplink_setTable_self hrules)
    · exact fun _ => ⟨by simp [uplink], by simp [uplink]⟩
  | true =>
    rw [if_neg (by decide)]
    obtain ⟨hdl, hhdl⟩ := Option.ne_none_iff_exists'.1 (hdft hsta)
    obtain ⟨t, ht, hrules⟩ := deleteFilteringHdls_spec hi.answers .staDefault f 0 [hdl] s
    rw [hhdl]
    dsimp only
    rw [ht]
    refine ⟨_, rfl, setTable_touches s f t, ?_, fun h => by cases h⟩
    rw [uplink_setTable_self hrules]
    simp [Uplink.own, uplink, hhdl]

theorem wanUp_spec (hi : b.Gives i) (hrx : s.rx_prop = true)
    (hhdls : b.is_sta = false → (s.uplink f).ulHdls = [])
    (hset : b.is_sta = false → (s.uplink f).ulSet = false)
    (hone : f = .v6 → b.is_sta = false → b.modemRules .v6 ≠ [] → s.ipv6_addr.length = 1) :
    ∃ s' reports new, s.wanUp i f = .ok (s', reports) ∧ Touches f s s' ∧
      (s'.uplink f).prefixHdl = (s.uplink f).prefixHdl ∧
      (s'.uplink f).rules = (s.uplink f).rules ++ new ∧
      new.map Prod.snd = (if b.is_sta = true then [.staDefault] else b.modemRules f) ∧
      new.map Prod.fst = (s'.uplink f).own b.is_sta ∧
      (b.is_sta = false → b.modemRules f ≠ [] → (s'.uplink f).ulSet = true) := by
  unfold wanUp
  rw [hi.is_sta]
  cases hsta : b.is_sta with
  | true =>
    obtain ⟨htouch, huplink⟩ := handle_wan_up_spec hi.answers hrx f
    rw [if_neg (by decide)]
    refine ⟨_, _, _, rfl, htouch, ?_, congrArg Uplink.rules huplink, rfl, ?_, fun h => by cases h⟩
    · rw [huplink]
    · rw [huplink]
      rfl
  | false =>
    rw [if_pos rfl]
    by_cases hcond : f = .v6 → s.ipv6_addr.length = 1
    · obtain ⟨s', reports, hs', htouch, huplink⟩ :=
        handle_wan_up_ex_spec hi.answers hrx ⟨hcond, hset hsta⟩ (hhdls hsta)
      refine ⟨s', reports, _, hs', htouch, ?_, congrArg Uplink.rules huplink, ?_, ?_, ?_⟩
      · rw [huplink]
      · simp [Backhaul.modemRules, hi.ext_prop]
      · simp [huplink, Uplink.own]
      · simp [huplink]
    · -- the second address of an interface: nothing is done, and nothing was to be done
      have hnone : b.modemRules f = [] := by
        by_contra hne
        refine hcond fun hf => ?_
        subst hf
        exact hone rfl hsta hne
      refine ⟨s, [], [], ?_, .refl f s, rfl, by simp, ?_, ?_, ?_⟩
      · rw [handle_wan_up_ex, if_neg fun h => hcond h.1]
      · simp [hnone]
      · simp [Uplink.own, hhdls hsta]
      · simp [hnone]

/-- **WAN comes up** for an interface that has an address of the family and no uplink rules yet. -/
theorem uplinkUp_spec (hi : b.Gives i) (hrx : s.rx_prop = true) (habs : b.Absent (s.uplink f))
    (hone : f = .v6 → b.is_sta = false → b.modemRules .v6 ≠ [] → s.ipv6_addr.length = 1) :
    ∃ s' reports, s.uplinkUp i f = .ok (s', reports) ∧ Touches f s s' ∧
      b.Installed f (s'.uplink f) := by
  cases f with
  | v4 =>
    obtain ⟨s', reports, new, hs', htouch, -, hrules, hkinds, hhdls, hset⟩ :=
      wanUp_spec hi hrx habs.hdls habs.set hone
    rw [habs.rules, List.nil_append] at hrules
    refine ⟨s', reports, hs', htouch, ?_, ?_, hset⟩
    · simp [hrules, hkinds, Backhaul.kinds]
    · simp [hrules, hhdls, Uplink.stored]
  | v6 =>
    obtain ⟨htouch, huplink⟩ := install_prefix_spec hi.answers hrx
    obtain ⟨s', reports, new, hs', htouch', hprefix, hrules, hkinds, hhdls, hset⟩ :=
      wanUp_spec (s := s.install_ipv6_prefix_flt_rule i) (f := .v6) hi
        (htouch.rx_prop.trans hrx) (fun h => by rw [huplink]; exact habs.hdls h)
        (fun h => by rw [huplink]; exact habs.set h)
        (fun hf hsta hne => by rw [htouch.ipv6_addr]; exact hone hf hsta hne)
    rw [huplink, habs.rules] at hrules
    rw [huplink] at hprefix
    refine ⟨s', reports, hs', htouch.trans htouch', ?_, ?_, hset⟩
    · simp [hrules, hkinds, Backhaul.kinds]
    · simp [hrules, hhdls, hprefix, Uplink.stored]

/-- **WAN goes down** for an interface that has an address of the family. -/
theorem handleWanDownTether_spec (hi : b.Gives i) (hrx : s.rx_prop = true)
    (hhas : s.ip_type.has f = true)
    (hlen : b.is_sta = false → (s.wan_ul_fl_rule_hdl f).length ≤ maxWanUlFilterRules)
    (hdft : b.is_sta = true → s.default_hdl f ≠ none) :
    ∃ s', s.handleWanDownTether i f = .ok s' ∧ Touches f s s' ∧
      (s'.uplink f).rules =
        (s.uplink f).rules.filter (·.1 ∉ (s.uplink f).stored b.is_sta f) ∧
      (b.is_sta = false → (s'.uplink f).ulHdls = [] ∧ (s'.uplink f).ulSet = false) := by
  unfold handleWanDownTether
  rw [if_pos hhas]
  cases f with
  | v4 =>
    obtain ⟨s', hs', htouch, hrules, hclear⟩ :=
      deleteUplink_spec (s := s.resetCount .v4) hi hrx hlen hdft
    exact ⟨s', hs', (resetCount_touches s .v4).trans htouch, hrules, hclear⟩
  | v6 =>
    obtain ⟨t, ht, hprefix⟩ := deleteFilteringHdls_spec hi.answers .ipv6Prefix .v6 0
      [s.ipv6_prefix_flt_rule_hdl] (s.resetCount .v6)
    obtain ⟨s', hs', htouch, hrules, hclear⟩ :=
      deleteUplink_spec (s := (s.resetCount .v6).setTable .v6 t) (f := .v6) hi hrx hlen hdft
    refine ⟨s', ?_, ((resetCount_touches s .v6).trans (setTable_touches _ .v6 t)).trans htouch, ?_,
      hclear⟩
    · simp only [handle_wan_down_v6, ht]
      exact hs'
    · rw [hrules, uplink_setTable_self hprefix]
      exact filter_hdls_append ..

/-- **WAN comes up again** for an interface that installed the rules as it got its address. -/
theorem uplinkUp_again (hi : b.Gives i) (hsta : b.is_sta = false) (hrx : s.rx_prop = true)
    (hins : b.Installed .v4 (s.uplink .v4)) :
    ∃ s' reports, s.uplinkUp i .v4 = .ok (s', reports) ∧ Touches .v4 s s' ∧
      b.Installed .v4 (s'.uplink .v4) := by
  simp only [uplinkUp, wanUp]
  rw [if_pos (hi.is_sta.trans hsta)]
  cases hset : s.modem_ul_set .v4 with
  | true =>
    refine ⟨s, [], ?_, .refl .v4 s, hins⟩
    rw [handle_wan_up_ex, if_neg (by simp [hset])]
  | false =>
    have hnone : b.modemRules .v4 = [] := by
      by_contra hne
      have := hins.set hsta hne
      simp [uplink, hset] at this
    have hnil : s.wan_ul_fl_rule_hdl .v4 = [] := by
      have hrules : (s.uplink .v4).rules.map Prod.snd = [] := by
        simpa [Backhaul.kinds, hsta, hnone] using hins.kinds
      have hhdls := hins.hdls
      rw [List.map_eq_nil_iff.1 hrules] at hhdls
      simpa [Uplink.stored, Uplink.own, hsta, uplink] using hhdls.symm
    have hprop : (i.ext_prop .v4).filter_hdl = [] := by
      rw [hi.ext_prop]
      exact List.map_eq_nil_iff.1 hnone
    obtain ⟨s', reports, hs', htouch, huplink⟩ :=
      handle_wan_up_ex_spec (f := .v4) hi.answers hrx ⟨nofun, hset⟩ hnil
    refine ⟨s', reports, hs', htouch, ?_⟩
    rw [huplink, hprop]
    have hul : (s.uplink .v4).ulHdls = [] := hnil
    refine ⟨?_, ?_, fun _ _ => rfl⟩
    · simpa [RuleTable.named] using hins.kinds
    · simpa [RuleTable.named, RuleTable.fresh, Uplink.stored, Uplink.own, hsta, hul] using
        hins.hdls

end Lan

end Nx508j.Ipacm
