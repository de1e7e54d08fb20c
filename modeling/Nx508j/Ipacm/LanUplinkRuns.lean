import Nx508j.Ipacm.LanUplink

/-! # Runs of a LAN interface as WAN comes and goes

Between the flags of `IPACM_Wan` and the event that tells of them, an address finds the flags as
they will be. The rules of the uplink are then made for the address and once more for the event,
except those of the modem for IPv4. -/

namespace Nx508j.Ipacm

open Nx508j.Lib Function

/-- An interface, the flags that say whether WAN is up, and whether the last event said so. -/
structure UplinkWorld where
  lan : Lan
  wan_up : IpFamily → Bool
  last : IpFamily → Bool

/-- What happens: a flag changes, or the interface gets an event. -/
inductive UplinkEvent where
  | flag (f : IpFamily) (up : Bool)
  | addrAdd (f : IpFamily) (ipv4_addr : BitVec 32) (ipv6_addr : BitVec 128)
      (ipa_sw_rt_enable : Bool) (ipa_num_private_subnet : Fin (ipaMaxPrivateSubnetEntries + 1))
  | wanUp (f : IpFamily)
  | wanDown (f : IpFamily)
deriving DecidableEq

/-- The event has an address of the family. -/
def UplinkEvent.hasAddr (f : IpFamily) : UplinkEvent → Bool
  | .addrAdd g ipv4_addr ipv6_addr _ _ => g = f ∧ Wan.noAddr g ipv4_addr ipv6_addr = false
  | _ => false

namespace UplinkWorld

variable (b : Backhaul) (w : UplinkWorld)

/-- An interface is made, with receive properties or without; WAN may be up. -/
def start (rx_prop : Bool) (wan_up last : IpFamily → Bool) : UplinkWorld where
  lan := { rx_prop }
  wan_up
  last

/-- What the handler of an event looks at. -/
def input (event : LanEvent) (ipa_sw_rt_enable : Bool)
    (ipa_num_private_subnet : Fin (ipaMaxPrivateSubnetEntries + 1)) : LanInput where
  event
  is_sta := b.is_sta
  ext_prop := b.ext_prop
  isWanUP := w.wan_up
  ipa_sw_rt_enable
  ipa_num_private_subnet

/-- One step. -/
def step : UplinkEvent → Except Fault (UplinkWorld × List IndexReport)
  | .flag f up => .ok ({ w with wan_up := update w.wan_up f up }, [])
  | .addrAdd f ipv4_addr ipv6_addr sw n => do
      let (lan, reports) ← w.lan.event_callback (w.input b (.addrAdd f ipv4_addr ipv6_addr) sw n)
      .ok ({ w with lan }, reports)
  | .wanUp f => do
      let (lan, reports) ← w.lan.event_callback (w.input b (.wanUp f) false 0)
      .ok ({ w with lan, last := update w.last f true }, reports)
  | .wanDown f => do
      let (lan, reports) ← w.lan.event_callback (w.input b (.wanDown f) false 0)
      .ok ({ w with lan, last := update w.last f false }, reports)

/-- A flag changes after an event, and the next event comes after its flag. -/
def InOrder : UplinkEvent → Prop
  | .flag f up => up ≠ w.wan_up f ∧ w.wan_up f = w.last f
  | .addrAdd .. => True
  | .wanUp f => w.wan_up f = true ∧ w.last f = false
  | .wanDown f => w.wan_up f = false ∧ w.last f = true

/-- The first address of a family does not come between the flag and the event, unless WAN comes up
    and the rules are those of the modem for IPv4, or goes down and there is nothing for the event
    to delete by a handle that was never set. Of two IPv6 addresses, one finds WAN up, if the modem
    has rules. The interface has receive properties when there are rules to be made or to be
    deleted. -/
def Meets : UplinkEvent → Prop
  | .flag .. => True
  | .addrAdd f ipv4_addr ipv6_addr _ _ =>
    Wan.noAddr f ipv4_addr ipv6_addr = false → w.lan.ip_type.has f = false →
      (w.wan_up f = true → w.lan.rx_prop = true ∧
        (w.last f = false → b.is_sta = false ∧ f = .v4)) ∧
      (w.wan_up f = false → w.last f = true → b.is_sta = true → f = .v6)
  | .wanUp f =>
    w.lan.ip_type.has f = true → w.lan.rx_prop = true ∧
      (f = .v6 → b.is_sta = false → b.modemRules .v6 ≠ [] → w.lan.ipv6_addr.length = 1)
  | .wanDown f => w.lan.ip_type.has f = true → w.lan.rx_prop = true

instance decidableInOrder (e : UplinkEvent) : Decidable (w.InOrder e) :=
  match e with
  | .flag .. => inferInstanceAs (Decidable (_ ∧ _))
  | .addrAdd .. => inferInstanceAs (Decidable True)
  | .wanUp _ | .wanDown _ => inferInstanceAs (Decidable (_ ∧ _))

instance decidableMeets (e : UplinkEvent) : Decidable (w.Meets b e) :=
  match e with
  | .flag .. => inferInstanceAs (Decidable True)
  | .addrAdd .. => inferInstanceAs (Decidable (_ → _ → _ ∧ _))
  | .wanUp _ => inferInstanceAs (Decidable (_ → _ ∧ _))
  | .wanDown _ => inferInstanceAs (Decidable (_ → _))

/-- How the rules of a family are while the flag and the last event are as they are. -/
def Settles (f : IpFamily) (has : Bool) (u : Uplink) : (wan_up last : Bool) → Prop
  | true, true => if has = true then b.Installed f u else b.Absent u
  | false, false => b.Absent u
  | true, false => b.Absent u ∨ b.Installed f u ∧ has = true ∧ b.is_sta = false ∧ f = .v4
  | false, true =>
    b.Installed f u ∧ has = true ∨
      b.Absent u ∧ (has = true → b.is_sta = true → f = .v6)

/-- What every step keeps. -/
structure Inv : Prop where
  addrs : w.lan.Addrs
  settles : ∀ f, Settles b f (w.lan.ip_type.has f) (w.lan.uplink f) (w.wan_up f) (w.last f)

variable {b w} {f : IpFamily} {e : UplinkEvent} {lan' : Lan}

theorem gives (event : LanEvent) (sw : Bool) (n : Fin (ipaMaxPrivateSubnetEntries + 1)) :
    b.Gives (w.input b event sw n) := ⟨rfl, rfl, rfl⟩

namespace Inv

theorem keeps (h : w.Inv b) (hk : Lan.Keeps w.lan lan') : { w with lan := lan' }.Inv b := by
  refine ⟨h.addrs.keeps hk, fun g => ?_⟩
  rw [hk.ip_type, hk.same.uplink]
  exact h.settles g

theorem touches (h : w.Inv b) (ht : Lan.Touches f w.lan lan') {wan_up last : Bool}
    (hf : Settles b f (w.lan.ip_type.has f) (lan'.uplink f) wan_up last) :
    Inv b ⟨lan', update w.wan_up f wan_up, update w.last f last⟩ := by
  refine ⟨ht.addrs h.addrs, fun g => ?_⟩
  dsimp only
  rw [ht.ip_type]
  by_cases hg : g = f
  · subst hg
    simpa using hf
  · rw [update_of_ne hg, update_of_ne hg, ht.uplink g hg]
    exact h.settles g

theorem event (h : w.Inv b) (ht : Lan.Touches f w.lan lan') {last : Bool}
    (hf : Settles b f (w.lan.ip_type.has f) (lan'.uplink f) (w.wan_up f) last) :
    Inv b ⟨lan', w.wan_up, update w.last f last⟩ := by
  have hinv := h.touches ht hf
  rwa [update_eq_self] at hinv

theorem addressed (h : w.Inv b) {ipv6_addr : BitVec 128} {lan₁ : Lan}
    (hacc : w.lan.accepts f = true) (ha : w.lan.Addressed f ipv6_addr lan₁)
    (ht : Lan.Touches f lan₁ lan')
    (hf : Settles b f true (lan'.uplink f) (w.wan_up f) (w.last f)) :
    { w with lan := lan' }.Inv b := by
  refine ⟨ht.addrs (ha.keeps_addrs h.addrs hacc), fun g => ?_⟩
  rw [ht.ip_type]
  by_cases hg : g = f
  · subst hg
    rwa [(ha.has g).2 (.inl rfl)]
  · have hhas : lan₁.ip_type.has g = w.lan.ip_type.has g := by
      rw [Bool.eq_iff_iff, ha.has]
      simp [hg]
    rw [hhas, ht.uplink g hg, ha.same.uplink]
    exact h.settles g

end Inv

/-! ## The steps -/

theorem flag_inv (h : w.Inv b) {up : Bool} (hord : w.InOrder (.flag f up)) :
    { w with wan_up := update w.wan_up f up }.Inv b := by
  obtain ⟨hne, heq⟩ := hord
  have hf := h.settles f
  rw [heq] at hf hne
  have hnew : Settles b f (w.lan.ip_type.has f) (w.lan.uplink f) up (w.last f) := by
    cases hlast : w.last f with
    | false =>
      rw [hlast] at hf hne
      obtain rfl : up = true := by simpa using hne
      exact .inl hf
    | true =>
      rw [hlast] at hf hne
      obtain rfl : up = false := by simpa using hne
      simp only [Settles] at hf ⊢
      split at hf
      · next hhas => exact .inl ⟨hf, hhas⟩
      · next hhas => exact .inr ⟨hf, fun hhas' => absurd hhas' hhas⟩
  have hinv := h.touches (.refl f w.lan) hnew
  rwa [update_eq_self] at hinv

theorem step_wanUp : w.step b (.wanUp f) = (do
    let (lan, reports) ← w.lan.handleWanUpTether (w.input b (.wanUp f) false 0) f
    .ok ({ w with lan, last := update w.last f true }, reports)) := rfl

theorem wanUp_inv (h : w.Inv b) (hord : w.InOrder (.wanUp f)) (hmeet : w.Meets b (.wanUp f)) :
    ∃ w' reports, w.step b (.wanUp f) = .ok (w', reports) ∧ w'.Inv b ∧
      w'.lan.ip_type = w.lan.ip_type := by
  obtain ⟨hup, hlast⟩ := hord
  have hf := h.settles f
  have hdone : ∀ {lan'}, Lan.Touches f w.lan lan' →
      (if w.lan.ip_type.has f = true then b.Installed f (lan'.uplink f)
        else b.Absent (lan'.uplink f)) →
        Inv b ⟨lan', w.wan_up, update w.last f true⟩ := by
    intro lan' ht hs
    refine h.event ht ?_
    rw [hup]
    exact hs
  rw [hup, hlast] at hf
  rw [step_wanUp, Lan.handleWanUpTether]
  cases hhas : w.lan.ip_type.has f with
  | false =>
    rw [hhas] at hf hdone
    obtain habs | ⟨-, hno, -⟩ := hf
    · exact ⟨_, _, rfl, hdone (.refl f w.lan) habs, rfl⟩
    · cases hno
  | true =>
    rw [hhas] at hf hdone
    obtain ⟨hrx, hone⟩ := hmeet hhas
    obtain habs | ⟨hins, -, hsta, rfl⟩ := hf
    · obtain ⟨lan', reports, hs', ht, hins⟩ :=
        Lan.uplinkUp_spec (gives (w := w) (.wanUp f) false 0) hrx habs hone
      rw [if_pos rfl, hs']
      exact ⟨_, _, rfl, hdone ht hins, ht.ip_type⟩
    · obtain ⟨lan', reports, hs', ht, hins⟩ :=
        Lan.uplinkUp_again (gives (w := w) (.wanUp .v4) false 0) hsta hrx hins
      rw [if_pos rfl, hs']
      exact ⟨_, _, rfl, hdone ht hins, ht.ip_type⟩

theorem step_wanDown : w.step b (.wanDown f) = (do
    let lan ← w.lan.handleWanDownTether (w.input b (.wanDown f) false 0) f
    .ok ({ w with lan, last := update w.last f false }, [])) := by
  simp [step, Lan.event_callback, input]

theorem wanDown_inv (h : w.Inv b) (hord : w.InOrder (.wanDown f))
    (hmeet : w.Meets b (.wanDown f)) :
    ∃ w' reports, w.step b (.wanDown f) = .ok (w', reports) ∧ w'.Inv b ∧
      w'.lan.ip_type = w.lan.ip_type := by
  obtain ⟨hup, hlast⟩ := hord
  have hf := h.settles f
  rw [hup, hlast] at hf
  have hdone : ∀ {lan'}, Lan.Touches f w.lan lan' → b.Absent (lan'.uplink f) →
      Inv b ⟨lan', w.wan_up, update w.last f false⟩ := by
    intro lan' ht habs
    refine h.event ht ?_
    rw [hup]
    exact habs
  rw [step_wanDown]
  cases hhas : w.lan.ip_type.has f with
  | false =>
    obtain ⟨-, hno⟩ | ⟨habs, -⟩ := hf
    · rw [hhas] at hno
      cases hno
    · have hs' : w.lan.handleWanDownTether (w.input b (.wanDown f) false 0) f = .ok w.lan :=
        if_neg (by simp [hhas])
      rw [hs']
      exact ⟨_, _, rfl, hdone (.refl f w.lan) habs, rfl⟩
  | true =>
    rw [hhas] at hf
    have hlen : b.is_sta = false →
        (w.lan.wan_ul_fl_rule_hdl f).length ≤ maxWanUlFilterRules := by
      intro hsta
      obtain ⟨hins, -⟩ | ⟨habs, -⟩ := hf
      · exact (hins.ulHdls_le hsta).trans (by decide)
      · exact (congrArg List.length (habs.hdls hsta)).trans_le (by decide)
    have hdft : b.is_sta = true → w.lan.default_hdl f ≠ none := by
      intro hsta
      obtain ⟨hins, -⟩ | ⟨-, hv6⟩ := hf
      · exact hins.defaultHdl_ne hsta
      · rw [hv6 rfl hsta]
        exact h.addrs.default_v6
    obtain ⟨lan', hs', ht, hrules, hclear⟩ := Lan.handleWanDownTether_spec
      (gives (w := w) (.wanDown f) false 0) (hmeet hhas) hhas hlen hdft
    rw [hs']
    refine ⟨_, _, rfl, hdone ht ⟨?_, fun h => (hclear h).1, fun h => (hclear h).2⟩, ht.ip_type⟩
    rw [hrules]
    obtain ⟨hins, -⟩ | ⟨habs, -⟩ := hf
    · refine List.filter_eq_nil_iff.2 fun r hr => ?_
      have hmem : r.1 ∈ (w.lan.uplink f).rules.map Prod.fst := List.mem_map_of_mem hr
      rw [hins.hdls] at hmem
      simpa using hmem
    · rw [habs.rules, List.filter_nil]

section AddrAdd

variable {ipv4_addr : BitVec 32} {ipv6_addr : BitVec 128} {sw : Bool}
  {n : Fin (ipaMaxPrivateSubnetEntries + 1)}

theorem absent_of_first (h : w.Inv b)
    (hmeet : w.Meets b (.addrAdd f ipv4_addr ipv6_addr sw n))
    (hno : Wan.noAddr f ipv4_addr ipv6_addr = false) (hhas : w.lan.ip_type.has f = false) :
    b.Absent (w.lan.uplink f) ∧
      (w.wan_up f = false → Settles b f true (w.lan.uplink f) false (w.last f)) ∧
      (w.wan_up f = true → ∀ {u}, b.Installed f u → Settles b f true u true (w.last f)) := by
  obtain ⟨hup, hdown⟩ := hmeet hno hhas
  have hf := h.settles f
  rw [hhas] at hf
  cases hwan : w.wan_up f <;> cases hlast : w.last f <;> rw [hwan, hlast] at hf
  · exact ⟨hf, fun _ => hf, nofun⟩
  · obtain ⟨-, hfalse⟩ | ⟨habs, -⟩ := hf
    · cases hfalse
    · exact ⟨habs, fun _ => .inr ⟨habs, fun _ => hdown hwan hlast⟩, nofun⟩
  · obtain habs | ⟨-, hfalse, -⟩ := hf
    · exact ⟨habs, nofun, fun _ _ hins => .inr ⟨hins, rfl, (hup hwan).2 hlast⟩⟩
    · cases hfalse
  · exact ⟨hf, nofun, fun _ _ hins => hins⟩

theorem addrAdd_inv (h : w.Inv b) (hmeet : w.Meets b (.addrAdd f ipv4_addr ipv6_addr sw n)) :
    ∃ w' reports, w.step b (.addrAdd f ipv4_addr ipv6_addr sw n) = .ok (w', reports) ∧ w'.Inv b ∧
      ∀ g, w'.lan.ip_type.has g = true ↔
        (g = f ∧ Wan.noAddr f ipv4_addr ipv6_addr = false) ∨ w.lan.ip_type.has g = true := by
  have hstep : ∀ {lan' reports}, w.lan.addrAdd (w.input b (.addrAdd f ipv4_addr ipv6_addr) sw n) f
      ipv4_addr ipv6_addr = .ok (lan', reports) →
        w.step b (.addrAdd f ipv4_addr ipv6_addr sw n) = .ok ({ w with lan := lan' }, reports) := by
    intro lan' reports hadd
    simp only [step, Lan.event_callback, input] at hadd ⊢
    rw [hadd]
    rfl
  rcases Lan.addrAdd_spec h.addrs (w.input b (.addrAdd f ipv4_addr ipv6_addr) sw n) f ipv4_addr
    ipv6_addr with ⟨lan', hadd, hkeeps, hold⟩ | ⟨hno, hacc, lan₁, ha, hnew⟩
  · refine ⟨_, _, hstep hadd, h.keeps hkeeps, fun g => ?_⟩
    rw [hkeeps.ip_type]
    refine ⟨Or.inr, ?_⟩
    rintro (⟨rfl, hno⟩ | hg)
    · exact hold hno
    · exact hg
  · have hhas : ∀ g, lan₁.ip_type.has g = true ↔
        (g = f ∧ Wan.noAddr f ipv4_addr ipv6_addr = false) ∨ w.lan.ip_type.has g = true := by
      intro g
      rw [ha.has, hno]
      simp
    split at hnew
    · next hfirst =>
      obtain ⟨hhas₀, hup⟩ := hfirst
      change w.wan_up f = true at hup
      obtain ⟨habs, -, hins'⟩ := absent_of_first h hmeet hno hhas₀
      have hone : f = .v6 → b.is_sta = false → b.modemRules .v6 ≠ [] →
          lan₁.ipv6_addr.length = 1 := by
        rintro rfl - -
        have hnil : w.lan.ipv6_addr = [] := by
          by_contra hne
          rw [h.addrs.has_v6.2 hne] at hhas₀
          cases hhas₀
        rw [ha.addrs, hnil]
        rfl
      obtain ⟨lan₂, reports, hs₂, ht, hins⟩ := Lan.uplinkUp_spec (gives (w := w)
        (.addrAdd f ipv4_addr ipv6_addr) sw n) (ha.same.rx_prop.trans ((hmeet hno hhas₀).1 hup).1)
        (by rwa [ha.same.uplink]) hone
      obtain ⟨lan', hadd, hkeeps⟩ := hnew lan₂ reports hs₂
      refine ⟨_, _, hstep hadd, ?_, fun g => ?_⟩
      · refine (h.addressed hacc ha ht ?_).keeps hkeeps
        rw [hup]
        exact hins' hup hins
      · rw [hkeeps.ip_type, ht.ip_type]
        exact hhas g
    · next hfirst =>
      obtain ⟨lan', hadd, hkeeps⟩ := hnew
      refine ⟨_, _, hstep hadd, ?_, fun g => ?_⟩
      · refine (h.addressed hacc ha (.refl f lan₁) ?_).keeps hkeeps
        rw [ha.same.uplink]
        cases hhas₀ : w.lan.ip_type.has f with
        | true =>
          rw [← hhas₀]
          exact h.settles f
        | false =>
          have hdown : w.wan_up f = false := by
            by_contra hup
            exact hfirst ⟨hhas₀, Bool.of_not_eq_false hup⟩
          rw [hdown]
          exact (absent_of_first h hmeet hno hhas₀).2.1 hdown
      · rw [hkeeps.ip_type]
        exact hhas g

end AddrAdd

/-- **One step** returns, and keeps how the rules are. -/
theorem step_inv (h : w.Inv b) (hord : w.InOrder e) (hmeet : w.Meets b e) :
    ∃ w' reports, w.step b e = .ok (w', reports) ∧ w'.Inv b ∧
      ∀ g, w'.lan.ip_type.has g = true ↔ e.hasAddr g = true ∨ w.lan.ip_type.has g = true := by
  cases e with
  | flag f up => exact ⟨_, _, rfl, flag_inv h hord, by simp [UplinkEvent.hasAddr]⟩
  | addrAdd f ipv4_addr ipv6_addr sw n =>
    obtain ⟨w', reports, hstep, h', hhas⟩ := addrAdd_inv h hmeet
    refine ⟨w', reports, hstep, h', fun g => ?_⟩
    have haddr : UplinkEvent.hasAddr g (.addrAdd f ipv4_addr ipv6_addr sw n) = true ↔
        f = g ∧ Wan.noAddr f ipv4_addr ipv6_addr = false := decide_eq_true_iff
    rw [hhas, haddr, eq_comm]
  | wanUp f =>
    obtain ⟨w', reports, hstep, h', htype⟩ := wanUp_inv h hord hmeet
    exact ⟨w', reports, hstep, h', by simp [UplinkEvent.hasAddr, htype]⟩
  | wanDown f =>
    obtain ⟨w', reports, hstep, h', htype⟩ := wanDown_inv h hord hmeet
    exact ⟨w', reports, hstep, h', by simp [UplinkEvent.hasAddr, htype]⟩

/-! ## The runs -/

theorem start_inv (b : Backhaul) (rx_prop : Bool) (wan_up last : IpFamily → Bool) :
    (start rx_prop wan_up last).Inv b := by
  refine ⟨⟨by simp [start, IfaceIpType.has], by simp [start], by simp [start]⟩, fun f => ?_⟩
  have habs : b.Absent ((start rx_prop wan_up last).lan.uplink f) :=
    ⟨rfl, fun _ => rfl, fun _ => rfl⟩
  have hhas : (start rx_prop wan_up last).lan.ip_type.has f = false := by
    cases f <;> rfl
  rw [hhas]
  cases (start rx_prop wan_up last).wan_up f <;> cases (start rx_prop wan_up last).last f
  · exact habs
  · exact .inr ⟨habs, nofun⟩
  · exact .inl habs
  · exact habs

/-- An address of the family came. -/
def Received (f : IpFamily) (tr : List (UplinkEvent × List IndexReport)) : Prop :=
  ∃ e ∈ tr.map Prod.fst, e.hasAddr f = true

/-- The rules of a family are there once if the interface has an address and WAN is up, and
    otherwise they are not; and their handles are stored. -/
structure Right (b : Backhaul) (f : IpFamily) (addr : Prop) (w : UplinkWorld) : Prop where
  installed : addr → w.last f = true → (w.lan.uplink f).rules.map Prod.snd = b.kinds f
  absent : ¬ (addr ∧ w.last f = true) → (w.lan.uplink f).rules = []
  stored : ∀ r ∈ (w.lan.uplink f).rules, r.1 ∈ (w.lan.uplink f).stored b.is_sta f

theorem Inv.right (h : w.Inv b) (hsettled : w.wan_up f = w.last f) :
    w.Right b f (w.lan.ip_type.has f = true) := by
  have hf := h.settles f
  rw [hsettled] at hf
  have habs : b.Absent (w.lan.uplink f) → (w.lan.ip_type.has f = true → w.last f = false) →
      w.Right b f (w.lan.ip_type.has f = true) := by
    intro habs hnot
    refine ⟨fun hhas hlast => ?_, fun _ => habs.rules, by simp [habs.rules]⟩
    rw [hnot hhas] at hlast
    cases hlast
  cases hlast : w.last f with
  | false =>
    rw [hlast] at hf
    exact habs hf fun _ => hlast
  | true =>
    rw [hlast] at hf
    simp only [Settles] at hf
    split at hf
    · next hhas =>
      refine ⟨fun _ _ => hf.kinds, fun hnot => absurd ⟨hhas, hlast⟩ hnot, fun r hr => ?_⟩
      rw [← hf.hdls]
      exact List.mem_map_of_mem hr
    · next hhas => exact habs hf fun h => absurd h hhas

variable {rx_prop rx_prop' : Bool} {wan_up last wan_up' last' : IpFamily → Bool}
  {tr tr' : List (UplinkEvent × List IndexReport)} {w' : UplinkWorld}

theorem run_inv
    (run : Run (step b) (fun w e => w.InOrder e ∧ w.Meets b e) (start rx_prop wan_up last) tr w) :
    w.Inv b ∧ ∀ f, w.lan.ip_type.has f = true ↔ Received f tr := by
  refine run.invariant
    (fun tr w => Inv b w ∧ ∀ f, w.lan.ip_type.has f = true ↔ Received f tr) ?_ ?_
  · refine ⟨start_inv b rx_prop wan_up last, fun f => ?_⟩
    cases f <;> simp [Received, start, IfaceIpType.has]
  · rintro tr w e w' r ⟨h, hhas⟩ ⟨hord, hmeet⟩ hstep
    obtain ⟨w₁, r₁, hstep₁, h₁, hhas₁⟩ := step_inv h hord hmeet
    rw [hstep₁] at hstep
    cases hstep
    refine ⟨h₁, fun f => ?_⟩
    rw [hhas₁, hhas]
    simp [Received, or_comm, or_and_right, exists_or]

/-- **The uplink rules.** Whenever the last event of a family told what the flag says, its rules are
    there once with their handles, or not at all, as its addresses and that event have it; and any
    other run with these, in whatever order, has the same rules. -/
theorem run_uplink
    (run : Run (step b) (fun w e => w.InOrder e ∧ w.Meets b e) (start rx_prop wan_up last) tr w)
    (hsettled : w.wan_up f = w.last f) :
    w.Right b f (Received f tr) ∧
      ∀ {rx_prop' wan_up' last' tr' w'},
        Run (step b) (fun w e => w.InOrder e ∧ w.Meets b e) (start rx_prop' wan_up' last') tr' w' →
          w'.wan_up f = w'.last f → w'.last f = w.last f → (Received f tr' ↔ Received f tr) →
            (w'.lan.uplink f).rules.map Prod.snd = (w.lan.uplink f).rules.map Prod.snd := by
  have hright : ∀ {rx_prop wan_up last tr w}, Run (step b) (fun w e => w.InOrder e ∧ w.Meets b e)
      (start rx_prop wan_up last) tr w → w.wan_up f = w.last f → w.Right b f (Received f tr) := by
    intro rx_prop wan_up last tr w run hsettled
    obtain ⟨h, hhas⟩ := run_inv run
    rw [← hhas f]
    exact h.right hsettled
  refine ⟨hright run hsettled, fun run' hsettled' hlast haddr => ?_⟩
  have hr := hright run hsettled
  have hr' := hright run' hsettled'
  by_cases hup : Received f tr ∧ w.last f = true
  · rw [hr.installed hup.1 hup.2, hr'.installed (haddr.2 hup.1) (hlast.trans hup.2)]
  · rw [hr.absent hup, hr'.absent (by rwa [haddr, hlast])]

/-- The modem has one rule for each family. -/
def oneRule : Backhaul := { is_sta := false, ext_prop := fun _ => { filter_hdl := [7] } }

/-- The addresses come before WAN. -/
def addrsFirst : List UplinkEvent :=
  [.addrAdd .v6 0 1 false 1, .addrAdd .v4 1 0 true 1, .flag .v6 true, .flag .v4 true, .wanUp .v6,
    .wanUp .v4]

/-- WAN comes before the addresses, of which there are two for IPv6. -/
def addrsLast : List UplinkEvent :=
  [.flag .v6 true, .wanUp .v6, .addrAdd .v6 0 1 true 1, .flag .v4 true, .addrAdd .v4 1 0 true 1,
    .addrAdd .v6 0 2 false 1, .wanUp .v4]

/-- WAN is down at first. -/
def downAtFirst : UplinkWorld := start true (fun _ => false) fun _ => false

theorem run_uplink_orders :
    ∃ (tr tr' : List (UplinkEvent × List IndexReport)) (w w' : UplinkWorld),
      tr.map Prod.fst = addrsFirst ∧ tr'.map Prod.fst = addrsLast ∧
        w.Right oneRule .v6 (Received .v6 tr) ∧
        (w.lan.uplink .v6).rules.map Prod.snd = [.ipv6Prefix, .modem 7] ∧
        (w'.lan.uplink .v6).rules.map Prod.snd = [.ipv6Prefix, .modem 7] := by
  have hruns : ∀ es ∈ [addrsFirst, addrsLast], ∃ tr w,
      Run (step oneRule) (fun w e => w.InOrder e ∧ w.Meets oneRule e) downAtFirst tr w ∧
        tr.map Prod.fst = es ∧ (w.wan_up .v6, w.last .v6) = (true, true) := by
    intro es hes
    refine Run.exists_of_allMeet (g := fun w : UplinkWorld => (w.wan_up .v6, w.last .v6)) ?_ ?_
    · revert es
      decide +kernel
    · revert es
      decide +kernel
  obtain ⟨tr, w, run, hevents, hup⟩ := hruns addrsFirst (by simp)
  obtain ⟨tr', w', run', hevents', hup'⟩ := hruns addrsLast (by simp)
  have haddr : Received .v6 tr := by
    rw [Received, hevents]
    decide
  have haddr' : Received .v6 tr' := by
    rw [Received, hevents']
    decide
  obtain ⟨hwan, hlast⟩ := Prod.mk.inj hup
  obtain ⟨hwan', hlast'⟩ := Prod.mk.inj hup'
  obtain ⟨hright, hsame⟩ := run_uplink run (hwan.trans hlast.symm)
  have hkinds := hright.installed haddr hlast
  refine ⟨tr, tr', w, w', hevents, hevents', hright, hkinds, ?_⟩
  exact (hsame run' (hwan'.trans hlast'.symm) (hlast'.trans hlast.symm)
    ⟨fun _ => haddr, fun _ => haddr'⟩).trans hkinds

def station : Backhaul := { is_sta := true }

/-- What there is of a family. -/
def observed (f : IpFamily) (w : UplinkWorld) : Bool × Bool × List FltKind :=
  (w.wan_up f, w.last f, (w.lan.uplink f).rules.map Prod.snd)

/-- An address between the flag and the event: the rule of the station is there twice and one handle
    is lost. And two IPv6 addresses before WAN: the modem's rule is not there. -/
theorem run_uplink_between :
    (∃ tr w, Run (step station) (fun w e => w.InOrder e) downAtFirst tr w ∧
        w.wan_up .v4 = w.last .v4 ∧
        (w.lan.uplink .v4).rules.map Prod.snd = [.staDefault, .staDefault] ∧
        ¬ w.Right station .v4 (Received .v4 tr)) ∧
      ∃ tr w, Run (step oneRule) (fun w e => w.InOrder e) downAtFirst tr w ∧
        w.wan_up .v6 = w.last .v6 ∧ (w.lan.uplink .v6).rules.map Prod.snd = [.ipv6Prefix] ∧
        ¬ w.Right oneRule .v6 (Received .v6 tr) := by
  have hbad : ∀ {b : Backhaul} {f : IpFamily} {tr : List (UplinkEvent × List IndexReport)}
      {w : UplinkWorld} {es : List UplinkEvent} {ks : List FltKind}, tr.map Prod.fst = es →
        (∃ e ∈ es, e.hasAddr f = true) → w.last f = true →
          (w.lan.uplink f).rules.map Prod.snd = ks → ks ≠ b.kinds f →
            ¬ w.Right b f (Received f tr) := by
    rintro b f tr w es ks rfl haddr hlast rfl hne hright
    exact hne (hright.installed haddr hlast)
  constructor
  · obtain ⟨tr, w, run, hevents, hw⟩ : ∃ tr w,
        Run (step station) (fun w e => w.InOrder e) downAtFirst tr w ∧
          tr.map Prod.fst = [.flag .v4 true, .addrAdd .v4 1 0 false 1, .wanUp .v4] ∧
          observed .v4 w =
            (true, true, [.staDefault, .staDefault]) :=
      Run.exists_of_allMeet (g := observed .v4) (by decide +kernel) (by decide +kernel)
    simp only [observed, Prod.mk.injEq] at hw
    obtain ⟨hwan, hlast, hrules⟩ := hw
    exact ⟨tr, w, run, hwan.trans hlast.symm, hrules,
      hbad hevents (by decide) hlast hrules (by decide)⟩
  · obtain ⟨tr, w, run, hevents, hw⟩ : ∃ tr w,
        Run (step oneRule) (fun w e => w.InOrder e) downAtFirst tr w ∧
          tr.map Prod.fst = [.addrAdd .v6 0 1 false 1, .addrAdd .v6 0 2 false 1, .flag .v6 true,
            .wanUp .v6] ∧
          observed .v6 w =
            (true, true, [.ipv6Prefix]) :=
      Run.exists_of_allMeet (g := observed .v6) (by decide +kernel) (by decide +kernel)
    simp only [observed, Prod.mk.injEq] at hw
    obtain ⟨hwan, hlast, hrules⟩ := hw
    exact ⟨tr, w, run, hwan.trans hlast.symm, hrules,
      hbad hevents (by decide) hlast hrules (by decide)⟩

end UplinkWorld

end Nx508j.Ipacm
