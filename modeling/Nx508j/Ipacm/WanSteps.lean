import Nx508j.Ipacm.Wan
import Nx508j.Ipacm.WanRulesBuilt

/-! # What an event does to the backhaul interfaces

Whatever an interface does with an event is a sequence of a few changes: its default route comes up
or goes down, its headers or addresses change, a client gets a route, or the downlink rules of a
family that it has are made anew. -/

namespace Nx508j.Ipacm

open Nx508j.Lib Function

instance decidableForallFamily {p : IpFamily → Prop} [∀ f, Decidable (p f)] :
    Decidable (∀ f, p f) :=
  decidable_of_iff (p .v4 ∧ p .v6) ⟨fun h f => by cases f <;> simp [h], fun h => ⟨h _, h _⟩⟩

/-! ## The default rules in a table -/

namespace DlTable

variable {t t' : DlTable}

/-- The default rules are in the table and counted. -/
def Present (f : IpFamily) (t : DlTable) : Prop :=
  t.HasDefaults f ∧ numDefaultWanFilterRule f ≤ t.num

instance (f : IpFamily) (t : DlTable) : Decidable (t.Present f) := by
  unfold Present
  infer_instance

/-- The table was made anew behind the default rules. -/
def Reworked (f : IpFamily) (t t' : DlTable) : Prop :=
  t'.rules.size = t.rules.size ∧ (t.Present f → t'.Present f)

theorem construct_extends {ops : List DlOp} {n : Nat} {done : Bool}
    (h : t.construct ops n = .ok (done, t')) : t.Extends (rulesReached ops n) t' := by
  induction ops generalizing n t with
  | nil =>
    obtain ⟨-, rfl⟩ := ok_pair h
    exact .refl t
  | cons op ops ih =>
    cases op with
    | ioctl =>
      cases n with
      | zero =>
        obtain ⟨-, rfl⟩ := ok_pair h
        exact .refl t
      | succ n => exact ih h
    | put rule =>
      obtain ⟨rules, hw, h⟩ := bind_eq_ok h
      obtain ⟨-, rfl⟩ := Region.lt_of_write hw
      exact (ih h).put

theorem config_reworked {f : IpFamily} {rx_prop : Bool} {env : DlEnv}
    (h : t.config_wan_firewall_rule f rx_prop env = .ok t') : t.Reworked f t' := by
  simp only [config_wan_firewall_rule] at h
  split at h
  · split at h
    · cases h
      exact ⟨rfl, fun hp => ⟨hp.1, Nat.le_refl _⟩⟩
    · cases h
  · obtain ⟨⟨done, t₁⟩, hc, h⟩ := bind_eq_ok h
    cases h
    have hext := construct_extends hc
    refine ⟨hext.size, fun hp => ⟨?_, ?_⟩⟩
    · intro i hi
      rw [hext.kept i hi]
      exact hp.1 i hi
    · rw [hext.num]
      exact Nat.le_add_right _ _

theorem del_reworked (f : IpFamily) (t : DlTable) : t.Reworked f (t.del_wan_firewall_rule f) := by
  refine ⟨rfl, fun hp => ⟨?_, Nat.le_refl _⟩⟩
  intro i hi
  simpa [del_wan_firewall_rule, hi] using hp.1 i hi

theorem Reworked.trans {f : IpFamily} {t₁ t₂ t₃ : DlTable} (h : t₁.Reworked f t₂)
    (h' : t₂.Reworked f t₃) : t₁.Reworked f t₃ :=
  ⟨h'.1.trans h.1, fun hp => h'.2 (h.2 hp)⟩

end DlTable

/-- The driver answers every question with success. A header of the interface may be incomplete. -/
structure WanAnswers.Succeeds (a : WanAnswers) : Prop where
  addr : a.addr = true
  addrFlt : a.addrFlt = true
  copyHeader : ∀ f, a.copyHeader f ≠ .failed
  route : ∀ f, a.route f = true
  routeDel : ∀ f, a.routeDel f = true
  header : ∀ f, a.header f = true
  hdrInit : a.hdrInit = true
  clientRoute : a.clientRoute = true
  dft : ∀ f, ioctlsNeeded (dftFilteringRules f) ≤ (a.dl f).ioctls
  config : ∀ f, ioctlsNeeded (wanFirewallRules (a.dl f) f) ≤ (a.dl f).ioctls

instance (a : WanAnswers) : Decidable a.Succeeds :=
  decidable_of_iff
    (a.addr = true ∧ a.addrFlt = true ∧ (∀ f, a.copyHeader f ≠ .failed) ∧ (∀ f, a.route f = true) ∧
      (∀ f, a.routeDel f = true) ∧ (∀ f, a.header f = true) ∧ a.hdrInit = true ∧
      a.clientRoute = true ∧ (∀ f, ioctlsNeeded (dftFilteringRules f) ≤ (a.dl f).ioctls) ∧
      ∀ f, ioctlsNeeded (wanFirewallRules (a.dl f) f) ≤ (a.dl f).ioctls)
    ⟨fun ⟨h₁, h₂, h₃, h₄, h₅, h₆, h₇, h₈, h₉, h₁₀⟩ => ⟨h₁, h₂, h₃, h₄, h₅, h₆, h₇, h₈, h₉, h₁₀⟩,
     fun ⟨h₁, h₂, h₃, h₄, h₅, h₆, h₇, h₈, h₉, h₁₀⟩ => ⟨h₁, h₂, h₃, h₄, h₅, h₆, h₇, h₈, h₉, h₁₀⟩⟩

@[simp] theorem IfaceIpType.has_null (f : IpFamily) : IfaceIpType.has .null f = false := by
  cases f <;> rfl

theorem IfaceIpType.has_add (t : IfaceIpType) (f g : IpFamily) :
    (t.add f).has g = (t.has g || decide (g = f)) := by
  cases t <;> cases f <;> cases g <;> rfl

namespace Wan

/-- What holds of an interface between the events, however it is used. -/
structure Consistent (w : Wan) : Prop where
  embms_null : w.embms = true → w.ip_type = .null
  active_has : ∀ f, w.active f = true → w.ip_type.has f = true
  active_tx : ∀ f, w.active f = true → w.tx_prop ≠ none
  partial_has : ∀ f, w.header_partial_default_wan f = true → w.ip_type.has f = true
  partial_down : ∀ f, w.header_partial_default_wan f = true → w.active f = false
  set_named : ∀ f, w.isSta = true → w.header_set f = true → w.hdr_name f = true
  partial_named : ∀ f, w.isSta = false → w.header_partial_default_wan f = true → w.hdr_name f = true

theorem Consistent.lowered {w : Wan} (hc : w.Consistent) (gw : Bool) {act : IpFamily → Bool}
    (rm : List RmCall) (hact : ∀ f, act f = true → w.active f = true) :
    Consistent { w with is_default_gateway := gw, active := act, rm := rm } := by
  refine ⟨hc.embms_null, fun f hf => hc.active_has f (hact f hf),
    fun f hf => hc.active_tx f (hact f hf), hc.partial_has, ?_, hc.set_named, hc.partial_named⟩
  intro f hf
  by_contra hne
  have hup := hact f (Bool.eq_true_of_not_eq_false hne)
  rw [hc.partial_down f hf] at hup
  cases hup

variable (a : WanAnswers) (w : Wan) (s : WanStatics)

/-- `handle_route_add_evt` gets to where it sets up the routes. -/
def goesUp (f : IpFamily) : Bool :=
  w.tx_prop.isSome && (if w.isSta then w.header_set f else w.ext_prop) &&
    (!w.hdr_name f || decide (a.copyHeader f = .complete)) && a.route f

/-- The interface when its headers are made. -/
def headersMade : Wan :=
  match w.tx_prop with
  | none => w
  | some tx =>
    let w := if IpFamily.v4 ∈ tx then w.setHeader .v4 else w
    if IpFamily.v6 ∈ tx then w.setHeader .v6 else w

/-- `handle_header_add_evt` sets up a default route that waited for a header. -/
def pendingUp (f : IpFamily) : Bool :=
  !w.header_set .v4 && !w.header_set .v6 && w.header_partial_default_wan f &&
    w.headersMade.goesUp a f

/-- The event brings up the default route of the interface. -/
def raises (e : WanEvent) (f : IpFamily) : Bool :=
  match e with
  | .upstreamRouteAdd g iface _ =>
    decide (g = f ∧ iface = w.ipa_if_num) && w.ip_type.has f && !w.active f && w.goesUp a f
  | .routeAdd g iface isDefault =>
    decide (g = f ∧ iface = w.ipa_if_num) && isDefault && w.ip_type.has f && !w.active f &&
      w.goesUp a f
  | .neigh iface _ _ _ _ => decide (iface = w.ipa_if_num) && w.pendingUp a f
  | _ => false

/-- The tables of the families that the interface has are made anew. -/
def Reworks (dl dl' : DlRules) : Prop :=
  ∀ f, dl'.flt_rule f = dl.flt_rule f ∨
    (w.m_is_sta_mode = .q6Wan ∧ w.ip_type.has f = true ∧ (dl.flt_rule f).Reworked f (dl'.flt_rule f))

end Wan

/-- The event is for a tethered interface. -/
def WanEvent.isUpstream : WanEvent → Bool
  | .upstreamRouteAdd _ _ _ => true
  | .upstreamRouteDel _ _ _ => true
  | _ => false

/-- One change. `w₀` is the interface as it got the event. -/
inductive WanChange (a : WanAnswers) (e : WanEvent) (w₀ : Wan) :
    Wan × WanStatics → Wan × WanStatics → Prop
  | mark {w : Wan} {s : WanStatics} (gw : Bool) (hs hn p : IpFamily → Bool)
      (hc : Wan.Consistent { w with is_default_gateway := gw, header_set := hs, hdr_name := hn,
                                    header_partial_default_wan := p }) :
      WanChange a e w₀ (w, s)
        ({ w with is_default_gateway := gw, header_set := hs, hdr_name := hn,
                  header_partial_default_wan := p }, s)
  | raise {w : Wan} {s : WanStatics} {f : IpFamily} {p : IpFamily → Bool} {dl : DlRules}
      (hon : w₀.raises a e f = true) (hdown : w.active f = false)
      (hc : Wan.Consistent { w with is_default_gateway := true, header_partial_default_wan := p,
                                    active := update w.active f true })
      (hdl : w.Reworks s.dl dl) :
      WanChange a e w₀ (w, s)
        ({ w with is_default_gateway := true, header_partial_default_wan := p,
                  active := update w.active f true, rm := w.rm ++ [.addRoute] },
          { s with wan_up := update s.wan_up f true, dl := dl,
                   posted := s.posted ++ [.wanUp f w.ipa_if_num w.isSta] })
  | lower {w : Wan} {s : WanStatics} {f : IpFamily} {dl : DlRules} (hup : w.active f = true)
      (hdl : w.Reworks s.dl dl) :
      WanChange a e w₀ (w, s)
        ({ w with is_default_gateway := false, active := update w.active f false,
                  rm := w.rm ++ [.del] },
          { s with wan_up := update s.wan_up f false, dl := dl,
                   posted := s.posted ++ [.wanDown f w.ipa_if_num w.isSta] })
  | rules {w : Wan} {s : WanStatics} {dl : DlRules} (hdl : w.Reworks s.dl dl) :
      WanChange a e w₀ (w, s) (w, { s with dl := dl })
  | tether {w : Wan} {s : WanStatics} (he : e.isUpstream = true) (l : IpFamily → List Int)
      (posted : List WanPost) :
      WanChange a e w₀ (w, s) (w, { s with ipa_if_num_tether := l, posted := posted })
  | clients {w : Wan} {s : WanStatics} (cs : List WanClient) :
      WanChange a e w₀ (w, s) ({ w with wan_client := cs }, s)
  | clientRoute {w : Wan} {s : WanStatics} (htx : w.tx_prop ≠ none) :
      WanChange a e w₀ (w, s) ({ w with rm := w.rm ++ [.addClient] }, s)
  | address {w : Wan} {s : WanStatics} {n : Int} {f : IpFamily} {v4 : BitVec 32} {v6 : BitVec 128}
      (he : e = .addrAdd n f v4 v6) (t : IfaceIpType) (ht : ∀ g, w.ip_type.has g = true → t.has g = true)
      (hembms : w.embms = false) (received : IpFamily → Bool) (i : IpFamily → Int)
      (l : List (BitVec 128)) (v : BitVec 32) (num : IpFamily → Int) (dl : DlRules) :
      WanChange a e w₀ (w, s)
        ({ w with ip_type := t, received := received, modem_pdn_index := i, ipv6_addr := l,
                  wan_v4_addr := v },
          { s with num_modem_pdn := num, dl := dl })

/-- Any number of changes. -/
abbrev WanChanges (a : WanAnswers) (e : WanEvent) (w₀ : Wan) :
    Wan × WanStatics → Wan × WanStatics → Prop :=
  Relation.ReflTransGen (WanChange a e w₀)

section Changes

variable {a : WanAnswers} {e : WanEvent} {w₀ : Wan} {x y : Wan × WanStatics}

theorem WanChange.consistent (h : WanChange a e w₀ x y) (hc : x.1.Consistent) : y.1.Consistent := by
  cases h with
  | mark gw hs hn p hc' => exact hc'
  | raise hon hdown hc' hdl =>
    exact ⟨hc'.embms_null, hc'.active_has, hc'.active_tx, hc'.partial_has, hc'.partial_down,
      hc'.set_named, hc'.partial_named⟩
  | @lower w s f dl hup hdl =>
    refine hc.lowered false _ ?_
    intro g hg
    by_cases hgf : g = f
    · rw [hgf, update_self] at hg
      cases hg
    · rwa [update_of_ne hgf] at hg
  | rules hdl => exact hc
  | tether he l posted => exact hc
  | clients cs | clientRoute htx =>
    exact ⟨hc.embms_null, hc.active_has, hc.active_tx, hc.partial_has, hc.partial_down, hc.set_named,
      hc.partial_named⟩
  | address he t ht hembms received i l v num dl =>
    exact ⟨fun h => by simp [hembms] at h, fun g hg => ht g (hc.active_has g hg), hc.active_tx,
      fun g hg => ht g (hc.partial_has g hg), hc.partial_down, hc.set_named, hc.partial_named⟩

theorem WanChanges.consistent (h : WanChanges a e w₀ x y) (hc : x.1.Consistent) :
    y.1.Consistent := by
  induction h with
  | refl => exact hc
  | tail _ step ih => exact step.consistent ih

theorem WanChanges.iface (h : WanChanges a e w₀ x y) :
    y.1.ipa_if_num = x.1.ipa_if_num ∧ y.1.m_is_sta_mode = x.1.m_is_sta_mode ∧
      y.1.embms = x.1.embms ∧ y.1.tx_prop = x.1.tx_prop := by
  induction h with
  | refl => exact ⟨rfl, rfl, rfl, rfl⟩
  | tail _ step ih => cases step <;> exact ih

end Changes

namespace Wan

variable {a : WanAnswers} {e : WanEvent} {w₀ w : Wan} {s : WanStatics} {f : IpFamily}
  {x : Wan × WanStatics}

/-! ## Default routes -/

theorem routeAdded_eq (h : w.routeAdded a s f = .ok x) :
    ∃ dl, (w.ip_type.has f = true → w.Reworks s.dl dl) ∧
      x = ({ w with active := update w.active f true, rm := w.rm ++ [.addRoute] },
        { s with wan_up := update s.wan_up f true, dl := dl,
                 posted := s.posted ++ [.wanUp f w.ipa_if_num w.isSta] }) := by
  simp only [routeAdded] at h
  split at h
  · next hq =>
    obtain ⟨t, ht, h⟩ := bind_eq_ok h
    cases h
    refine ⟨s.dl.setTable f t, ?_, rfl⟩
    intro hhas g
    by_cases hg : g = f
    · subst hg
      right
      simpa [DlRules.setTable] using ⟨hq, hhas, DlTable.config_reworked ht⟩
    · left
      simp [DlRules.setTable, hg]
  · cases h
    exact ⟨s.dl, fun _ g => .inl rfl, rfl⟩

/-- Either only the flags of the interface change, or the routes of the family are set up. -/
theorem handle_route_add_evt_cases (h : w.handle_route_add_evt a s f = .ok x) :
    (∃ gw p, x = ({ w with
          is_default_gateway := gw
          header_partial_default_wan := update w.header_partial_default_wan f p }, s) ∧
        (p = true → w.isSta = false →
          w.header_partial_default_wan f = true ∨ w.hdr_name f = true)) ∨
      ∃ p dl, w.goesUp a f = true ∧ (w.ip_type.has f = true → w.Reworks s.dl dl) ∧
        (p = true → w.header_partial_default_wan f = true ∧ w.hdr_name f = false) ∧
        x = ({ w with
            is_default_gateway := true
            header_partial_default_wan := update w.header_partial_default_wan f p
            active := update w.active f true
            rm := w.rm ++ [.addRoute] },
          { s with
            wan_up := update s.wan_up f true
            dl := dl
            posted := s.posted ++ [.wanUp f w.ipa_if_num w.isSta] }) := by
  have hsame : ∀ gw, ({ w with is_default_gateway := gw } : Wan) =
      { w with
        is_default_gateway := gw
        header_partial_default_wan :=
          update w.header_partial_default_wan f (w.header_partial_default_wan f) } := by
    intro gw
    rw [update_eq_self]
  simp only [handle_route_add_evt] at h
  split at h
  · cases h
    exact .inl ⟨w.is_default_gateway, w.header_partial_default_wan f,
      by rw [update_eq_self], fun hp _ => .inl hp⟩
  next htx =>
  split at h
  · next hsta =>
    have hsta : w.isSta = true := hsta.1
    cases h
    exact .inl ⟨true, true, rfl, fun _ hq => by simp [hsta] at hq⟩
  next hset =>
  have hset : ¬ (w.isSta = true ∧ w.header_set f = false) := hset
  split at h
  · cases h
    exact .inl ⟨true, w.header_partial_default_wan f, by rw [hsame], fun hp _ => .inl hp⟩
  next hext =>
  have hext : ¬ (w.isSta = false ∧ w.ext_prop = false) := hext
  have hready : w.tx_prop.isSome = true ∧ (if w.isSta then w.header_set f else w.ext_prop) = true := by
    refine ⟨Option.isSome_iff_ne_none.2 htx, ?_⟩
    cases hsta : w.isSta <;> simp_all
  split at h
  · next hname =>
    split at h
    · next hroute =>
      obtain ⟨dl, hdl, rfl⟩ := routeAdded_eq h
      refine .inr ⟨w.header_partial_default_wan f, dl, ?_, hdl, fun hp => ⟨hp, hname⟩, ?_⟩
      · simp [goesUp, hready, hname, hroute]
      · rw [update_eq_self]
        rfl
    · cases h
      exact .inl ⟨true, w.header_partial_default_wan f, by rw [hsame], fun hp _ => .inl hp⟩
  next hname =>
  split at h
  · cases h
    exact .inl ⟨true, w.header_partial_default_wan f, by rw [hsame], fun hp _ => .inl hp⟩
  · cases h
    exact .inl ⟨true, true, rfl, fun _ _ => .inr (Bool.eq_true_of_not_eq_false hname)⟩
  · next hcopy =>
    split at h
    · next hroute =>
      obtain ⟨dl, hdl, rfl⟩ := routeAdded_eq h
      refine .inr ⟨false, dl, ?_, hdl, fun hp => (nomatch hp), rfl⟩
      simp [goesUp, hready, hcopy, hroute]
    · cases h
      exact .inl ⟨true, false, rfl, fun hp => (nomatch hp)⟩

theorem handle_route_add_evt_changes (hc : w.Consistent) (hhas : w.ip_type.has f = true)
    (hdown : w.active f = false) (hon : w.goesUp a f = true → w₀.raises a e f = true)
    (h : w.handle_route_add_evt a s f = .ok x) : WanChanges a e w₀ (w, s) x := by
  rcases handle_route_add_evt_cases h with ⟨gw, p, rfl, hp⟩ | ⟨p, dl, hup, hdl, hp, rfl⟩
  · refine .single (.mark gw w.header_set w.hdr_name _ ?_)
    refine ⟨hc.embms_null, hc.active_has, hc.active_tx, ?_, ?_, hc.set_named, ?_⟩
    · intro g hg
      by_cases hgf : g = f
      · rw [hgf]
        exact hhas
      · exact hc.partial_has g (by simpa [hgf] using hg)
    · intro g hg
      by_cases hgf : g = f
      · rw [hgf]
        exact hdown
      · exact hc.partial_down g (by simpa [hgf] using hg)
    · intro g hq hg
      by_cases hgf : g = f
      · subst hgf
        rcases hp (by simpa using hg) hq with hpart | hname
        · exact hc.partial_named g hq hpart
        · exact hname
      · exact hc.partial_named g hq (by simpa [hgf] using hg)
  · have htx : w.tx_prop ≠ none := by
      intro htx
      simp [goesUp, htx] at hup
    -- a header that is named is complete here, and one that waits is named
    have hpart : p = false := by
      rw [← Bool.not_eq_true]
      intro hpt
      obtain ⟨hwait, hname⟩ := hp hpt
      cases hsta : w.isSta with
      | true =>
        have hset : w.header_set f = true := by
          simp only [goesUp, hsta, Bool.and_eq_true] at hup
          exact hup.1.1.2
        rw [hc.set_named f hsta hset] at hname
        cases hname
      | false =>
        rw [hc.partial_named f hsta hwait] at hname
        cases hname
    subst hpart
    refine .single (.raise (hon hup) hdown ?_ (hdl hhas))
    refine ⟨hc.embms_null, ?_, ?_, ?_, ?_, hc.set_named, ?_⟩
    · intro g hg
      by_cases hgf : g = f
      · rw [hgf]
        exact hhas
      · exact hc.active_has g (by simpa [hgf] using hg)
    · exact fun _ _ => htx
    · intro g hg
      by_cases hgf : g = f
      · rw [hgf]
        exact hhas
      · exact hc.partial_has g (by simpa [hgf] using hg)
    · intro g hg
      have hgf : g ≠ f := by
        rintro rfl
        simp at hg
      simpa [hgf] using hc.partial_down g (by simpa [hgf] using hg)
    · intro g hq hg
      have hgf : g ≠ f := by
        rintro rfl
        simp at hg
      exact hc.partial_named g hq (by simpa [hgf] using hg)

theorem handle_route_add_evt_frame (h : w.handle_route_add_evt a s f = .ok x) :
    (∀ g, x.1.goesUp a g = w.goesUp a g) ∧ x.1.header_set = w.header_set ∧
      x.1.tx_prop = w.tx_prop ∧ x.1.isSta = w.isSta ∧
      (∀ g, g ≠ f → x.1.header_partial_default_wan g = w.header_partial_default_wan g) := by
  rcases handle_route_add_evt_cases h with ⟨gw, p, rfl, -⟩ | ⟨p, dl, -, -, -, rfl⟩
  · exact ⟨fun _ => rfl, rfl, rfl, rfl, fun g hg => by simp [hg]⟩
  · exact ⟨fun _ => rfl, rfl, rfl, rfl, fun g hg => by simp [hg]⟩

theorem routeDel_changes (hc : w.Consistent) {dl : DlRules} (hdl : w.Reworks s.dl dl) :
    WanChanges a e w₀ (w, s) (w.routeDel { s with dl := dl } true f) := by
  have hrules : WanChanges a e w₀ (w, s) (w, { s with dl := dl }) := .single (.rules hdl)
  simp only [routeDel]
  split
  · exact hrules
  · split
    · refine hrules.tail (.mark false w.header_set w.hdr_name w.header_partial_default_wan ?_)
      exact ⟨hc.embms_null, hc.active_has, hc.active_tx, hc.partial_has, hc.partial_down, hc.set_named,
        hc.partial_named⟩
    · next hup => exact .single (.lower (Bool.eq_true_of_not_eq_false hup) hdl)

theorem delFirewall_reworks (hq : w.m_is_sta_mode = .q6Wan) (hhas : w.ip_type.has f = true) :
    w.Reworks s.dl (s.delFirewall f).dl := by
  intro g
  by_cases hg : g = f
  · subst hg
    right
    simpa [WanStatics.delFirewall, WanStatics.setTable, DlRules.setTable] using
      ⟨hq, hhas, DlTable.del_reworked g _⟩
  · left
    simp [WanStatics.delFirewall, WanStatics.setTable, DlRules.setTable, hg]

theorem cleanDefaultRoute_changes (ha : a.Succeeds) (hc : w.Consistent) (hup : w.active f = true) :
    WanChanges a e w₀ (w, s) (w.cleanDefaultRoute a s f) := by
  unfold cleanDefaultRoute
  split
  · next hq =>
    have h : WanChanges a e w₀ (w, s) (w.routeDel (s.delFirewall f) true f) :=
      routeDel_changes hc (delFirewall_reworks hq (hc.active_has f hup))
    simpa [handle_route_del_evt_ex, ha.routeDel] using h
  · have h : WanChanges a e w₀ (w, s) (w.routeDel s true f) :=
      routeDel_changes hc (fun _ => .inl rfl)
    simpa [handle_route_del_evt, ha.routeDel] using h

/-! ## Neighbours -/

theorem headersMade_consistent (hc : w.Consistent) : w.headersMade.Consistent := by
  have hset : ∀ (w : Wan) f, w.Consistent → (w.setHeader f).Consistent := by
    intro w f hc
    refine ⟨hc.embms_null, hc.active_has, hc.active_tx, hc.partial_has, hc.partial_down, ?_, ?_⟩
    · intro g hq hg
      by_cases hgf : g = f
      · simp [setHeader, hgf]
      · simpa [setHeader, hgf] using hc.set_named g hq (by simpa [setHeader, hgf] using hg)
    · intro g hq hg
      by_cases hgf : g = f
      · simp [setHeader, hgf]
      · simpa [setHeader, hgf] using hc.partial_named g hq hg
  have hfour : ∀ tx : List IpFamily,
      (if IpFamily.v4 ∈ tx then w.setHeader .v4 else w).Consistent := by
    intro tx
    split
    · exact hset w .v4 hc
    · exact hc
  simp only [headersMade]
  split
  · exact hc
  · next tx htx =>
    by_cases hsix : IpFamily.v6 ∈ tx
    · rw [if_pos hsix]
      exact hset _ .v6 (hfour tx)
    · rw [if_neg hsix]
      exact hfour tx

theorem headersMade_eq : ∃ hs hn, w.headersMade = { w with header_set := hs, hdr_name := hn } := by
  unfold headersMade setHeader
  split
  · exact ⟨w.header_set, w.hdr_name, rfl⟩
  · split <;> split <;> exact ⟨_, _, rfl⟩

theorem headersMade_header_set :
    w.headersMade.header_set f = true ↔
      w.header_set f = true ∨ ∃ tx, w.tx_prop = some tx ∧ f ∈ tx := by
  unfold headersMade setHeader
  cases htx : w.tx_prop with
  | none => simp
  | some tx =>
    by_cases h₄ : IpFamily.v4 ∈ tx <;> by_cases h₆ : IpFamily.v6 ∈ tx <;> cases f <;>
      simp [h₄, h₆]

theorem pendingRoute_changes (hc : w.Consistent)
    (hon : w.header_partial_default_wan f = true → w.goesUp a f = true → w₀.raises a e f = true)
    (h : w.pendingRoute a s f = .ok x) : WanChanges a e w₀ (w, s) x := by
  unfold pendingRoute at h
  split at h
  · next hp =>
    exact handle_route_add_evt_changes hc (hc.partial_has f hp) (hc.partial_down f hp) (hon hp) h
  · cases h
    exact .refl

theorem pendingRoute_frame (h : w.pendingRoute a s f = .ok x) :
    (∀ g, x.1.goesUp a g = w.goesUp a g) ∧ x.1.header_set = w.header_set ∧
      x.1.tx_prop = w.tx_prop ∧ x.1.isSta = w.isSta ∧
      (∀ g, g ≠ f → x.1.header_partial_default_wan g = w.header_partial_default_wan g) := by
  unfold pendingRoute at h
  split at h
  · next hp => exact handle_route_add_evt_frame h
  · cases h
    exact ⟨fun _ => rfl, rfl, rfl, rfl, fun _ _ => rfl⟩

theorem handle_header_add_evt_cases (ha : a.Succeeds) (h : w.handle_header_add_evt a s = .ok x) :
    ((w.header_set .v4 = true ∨ w.header_set .v6 = true) ∧ x = (w, s)) ∨
      (w.header_set .v4 = false ∧ w.header_set .v6 = false ∧
        ∃ y, w.headersMade.pendingRoute a s .v4 = .ok y ∧ y.1.pendingRoute a y.2 .v6 = .ok x) := by
  unfold handle_header_add_evt at h
  split at h
  · next hset =>
    cases h
    exact .inl ⟨hset, rfl⟩
  next hset =>
  have hnone : w.header_set .v4 = false ∧ w.header_set .v6 = false := by simpa using hset
  cases htx : w.tx_prop with
  | none => simp [htx] at h
  | some tx =>
    simp only [htx, ha.header, Bool.true_eq_false, and_false, if_false] at h
    have hmade : w.headersMade =
        if IpFamily.v6 ∈ tx then (if IpFamily.v4 ∈ tx then w.setHeader .v4 else w).setHeader .v6
        else if IpFamily.v4 ∈ tx then w.setHeader .v4 else w := by
      simp only [headersMade, htx]
    rw [← hmade] at h
    obtain ⟨y, hy, h⟩ := bind_eq_ok h
    exact .inr ⟨hnone.1, hnone.2, y, hy, h⟩

theorem handle_header_add_evt_changes (ha : a.Succeeds) (hc : w.Consistent)
    (hon : ∀ f, w.pendingUp a f = true → w₀.raises a e f = true)
    (h : w.handle_header_add_evt a s = .ok x) : WanChanges a e w₀ (w, s) x := by
  rcases handle_header_add_evt_cases ha h with ⟨-, rfl⟩ | ⟨h₄, h₆, y, hy, h⟩
  · exact .refl
  obtain ⟨hs, hn, heq⟩ := headersMade_eq (w := w)
  have hcm := headersMade_consistent hc
  have honm : ∀ g, w.headersMade.header_partial_default_wan g = true →
      w.headersMade.goesUp a g = true → w₀.raises a e g = true := by
    intro g hp hup
    refine hon g ?_
    have hwait : w.header_partial_default_wan g = true := by rwa [heq] at hp
    simp [pendingUp, h₄, h₆, hwait, hup]
  have hmark : WanChanges a e w₀ (w, s) (w.headersMade, s) := by
    rw [heq] at hcm ⊢
    exact .single (.mark w.is_default_gateway hs hn w.header_partial_default_wan hcm)
  have hfour : WanChanges a e w₀ _ _ := pendingRoute_changes hcm (honm .v4) hy
  obtain ⟨hgo, -, -, -, hpart⟩ := pendingRoute_frame hy
  refine (hmark.trans hfour).trans (pendingRoute_changes (hfour.consistent hcm) ?_ h)
  intro hp hup
  refine honm .v6 ?_ ?_
  · rwa [← hpart .v6 (by decide)]
  · rwa [← hgo .v6]

theorem not_pendingUp (ha : a.Succeeds) (hsta : w.isSta = true)
    (h : w.handle_header_add_evt a s = .ok x) (f : IpFamily) : x.1.pendingUp a f = false := by
  rcases handle_header_add_evt_cases ha h with ⟨hset | hset, rfl⟩ | ⟨h₄, h₆, y, hy, h⟩
  · simp [pendingUp, hset]
  · simp [pendingUp, hset]
  obtain ⟨-, hset₁, htx₁, hsta₁, -⟩ := pendingRoute_frame hy
  obtain ⟨-, hset₂, htx₂, hsta₂, -⟩ := pendingRoute_frame h
  obtain ⟨hs, hn, heq⟩ := headersMade_eq (w := w)
  have hset : x.1.header_set = w.headersMade.header_set := hset₂.trans hset₁
  have htx : x.1.tx_prop = w.tx_prop := by
    rw [htx₂, htx₁, heq]
  have hstax : x.1.headersMade.isSta = true := by
    obtain ⟨hs', hn', heq'⟩ := headersMade_eq (w := x.1)
    rw [heq']
    show x.1.isSta = true
    rw [hsta₂, hsta₁, heq]
    exact hsta
  rw [← Bool.not_eq_true]
  intro hp
  simp only [pendingUp, goesUp, hstax, if_true, Bool.and_eq_true, Bool.not_eq_true'] at hp
  obtain ⟨⟨⟨hx₄, hx₆⟩, -⟩, ⟨⟨-, hmade⟩, -⟩, -⟩ := hp
  have hnone : x.1.header_set f = false := by cases f <;> assumption
  rcases headersMade_header_set.1 hmade with hset' | ⟨tx, htx', hmem⟩
  · rw [hnone] at hset'
    cases hset'
  · have := headersMade_header_set.2 (.inr ⟨tx, htx ▸ htx', hmem⟩ : w.header_set f = true ∨ _)
    rw [← hset, hnone] at this
    cases this

/-! ## Clients -/

theorem handle_wan_hdr_init_eq (a : WanAnswers) (w : Wan) (mac : BitVec 48) :
    ∃ cs, w.handle_wan_hdr_init a mac = { w with wan_client := cs } := by
  unfold handle_wan_hdr_init
  split
  · exact ⟨w.wan_client, rfl⟩
  · split
    · exact ⟨w.wan_client, rfl⟩
    · split
      · exact ⟨w.wan_client, rfl⟩
      · split
        · exact ⟨w.wan_client, rfl⟩
        · exact ⟨_, rfl⟩

theorem handle_wan_client_ipaddr_eq (w : Wan) (mac : BitVec 48) (f : IpFamily) (v4 : BitVec 32)
    (v6 : BitVec 128) :
    ∃ cs, (w.handle_wan_client_ipaddr mac f v4 v6).2 = { w with wan_client := cs } := by
  unfold handle_wan_client_ipaddr setClient
  cases w.client? mac with
  | none => exact ⟨w.wan_client, rfl⟩
  | some c =>
    cases f with
    | v4 =>
      dsimp only
      split
      · exact ⟨w.wan_client, rfl⟩
      · split
        · exact ⟨_, rfl⟩
        · split
          · exact ⟨w.wan_client, rfl⟩
          · exact ⟨_, rfl⟩
    | v6 =>
      dsimp only
      split
      · exact ⟨w.wan_client, rfl⟩
      · split
        · exact ⟨w.wan_client, rfl⟩
        · split
          · exact ⟨w.wan_client, rfl⟩
          · exact ⟨_, rfl⟩

theorem handle_wan_client_route_rule_changes (mac : BitVec 48) :
    WanChanges a e w₀ (w, s) (w.handle_wan_client_route_rule a mac f, s) := by
  simp only [handle_wan_client_route_rule]
  split
  · exact .refl
  next htx =>
  split
  · exact .refl
  · split
    · split
      · exact .single (.clientRoute htx)
      · cases f
        · exact (Relation.ReflTransGen.single (.clientRoute htx)).tail (.clients _)
        · exact (Relation.ReflTransGen.single (.clientRoute htx)).tail (.clients _)
    · exact .refl

variable {v6 : BitVec 128} {v4 : BitVec 32}

theorem neighClient_changes {mac : BitVec 48} (ha : a.Succeeds) (hc : w.Consistent)
    (hon : ∀ f, w.pendingUp a f = true → w₀.raises a e f = true)
    (h : w.neighClient a s mac f v4 v6 = .ok x) : WanChanges a e w₀ (w, s) x := by
  unfold neighClient at h
  split at h
  · cases h
    exact .refl
  obtain ⟨⟨w₁, s₁⟩, h₁, h⟩ := bind_eq_ok h
  have hheader := handle_header_add_evt_changes ha hc hon h₁
  obtain ⟨cs, hinit⟩ := handle_wan_hdr_init_eq a w₁ mac
  obtain ⟨cs', haddr⟩ := handle_wan_client_ipaddr_eq (w₁.handle_wan_hdr_init a mac) mac f v4 v6
  have hclient : WanChanges a e w₀ (w₁, s₁)
      (((w₁.handle_wan_hdr_init a mac).handle_wan_client_ipaddr mac f v4 v6).2, s₁) := by
    rw [haddr, hinit]
    exact .single (.clients cs')
  dsimp only at h
  generalize (w₁.handle_wan_hdr_init a mac).handle_wan_client_ipaddr mac f v4 v6 = y at h hclient
  obtain ⟨ok, w₂⟩ := y
  cases h
  refine (hheader.trans hclient).trans ?_
  cases ok with
  | true => exact handle_wan_client_route_rule_changes mac
  | false => exact .refl

theorem neigh_changes {mac : BitVec 48} (ha : a.Succeeds) (hc : w.Consistent)
    (hon : ∀ f, w.pendingUp a f = true → w₀.raises a e f = true)
    (h : w.neigh a s mac f v4 v6 = .ok x) : WanChanges a e w₀ (w, s) x := by
  unfold neigh at h
  split at h
  · next hmode =>
    obtain ⟨⟨w₁, s₁⟩, h₁, h⟩ := bind_eq_ok h
    have hheader := handle_header_add_evt_changes ha hc hon h₁
    dsimp only at h
    split at h
    · cases h
      exact hheader
    · have hsta : w.isSta = true := by simp [isSta, hmode]
      refine hheader.trans (neighClient_changes ha (hheader.consistent hc) ?_ h)
      intro g hg
      rw [not_pendingUp ha hsta h₁ g] at hg
      cases hg
  · exact neighClient_changes ha hc hon h

/-! ## Addresses -/

/-- An address changes the addresses of the interface, the number of modem interfaces and the
    default rules. -/
theorem firstAddr_eq (h : w.firstAddr a s f = .ok x) :
    ∃ t i num dl, (∀ g, w.ip_type.has g = true → t.has g = true) ∧
      x = ({ w with ip_type := t, modem_pdn_index := i },
        { s with num_modem_pdn := num, dl := dl }) := by
  have hgrow : ∀ g, w.ip_type.has g = true → (w.ip_type.add f).has g = true := by
    intro g hg
    simp [IfaceIpType.has_add, hg]
  simp only [firstAddr] at h
  split at h
  · simp only [init_fl_rule_ex] at h
    split at h
    · cases h
      exact ⟨_, _, _, _, fun _ hg => hg, rfl⟩
    · split at h
      · obtain ⟨t, -, h⟩ := bind_eq_ok h
        cases h
        exact ⟨_, _, _, _, hgrow, rfl⟩
      · cases h
        exact ⟨_, _, _, _, hgrow, rfl⟩
  · cases h
    exact ⟨_, w.modem_pdn_index, s.num_modem_pdn, s.dl, hgrow, rfl⟩

theorem handle_addr_evt_eq (h : w.handle_addr_evt a s f v4 v6 = .ok x) :
    ∃ t i l v num dl, (∀ g, w.ip_type.has g = true → t.has g = true) ∧
      x = ({ w with ip_type := t, modem_pdn_index := i, ipv6_addr := l, wan_v4_addr := v },
        { s with num_modem_pdn := num, dl := dl }) := by
  have hsame : ∃ t i l v num dl, (∀ g, w.ip_type.has g = true → t.has g = true) ∧
      (w, s) = ({ w with ip_type := t, modem_pdn_index := i, ipv6_addr := l, wan_v4_addr := v },
        { s with num_modem_pdn := num, dl := dl }) :=
    ⟨w.ip_type, w.modem_pdn_index, w.ipv6_addr, w.wan_v4_addr, s.num_modem_pdn, s.dl,
      fun _ hg => hg, rfl⟩
  cases f with
  | v4 =>
    simp only [handle_addr_evt] at h
    split at h
    · cases h
      exact hsame
    · obtain ⟨y, hy, h⟩ := bind_eq_ok h
      obtain ⟨t, i, num, dl, ht, rfl⟩ := firstAddr_eq hy
      cases h
      exact ⟨t, i, w.ipv6_addr, v4, num, dl, ht, rfl⟩
  | v6 =>
    simp only [handle_addr_evt] at h
    split at h
    · cases h
      exact hsame
    split at h
    · cases h
      exact hsame
    split at h
    · obtain ⟨y, hy, h⟩ := bind_eq_ok h
      obtain ⟨t, i, num, dl, ht, rfl⟩ := firstAddr_eq hy
      split at h
      · cases h
        exact ⟨t, i, w.ipv6_addr, w.wan_v4_addr, num, dl, ht, rfl⟩
      · cases h
        exact ⟨t, i, _, w.wan_v4_addr, num, dl, ht, rfl⟩
    · obtain ⟨y, hy, h⟩ := bind_eq_ok h
      cases hy
      split at h
      · cases h
        exact hsame
      · cases h
        exact ⟨w.ip_type, w.modem_pdn_index, _, w.wan_v4_addr, s.num_modem_pdn, s.dl,
          fun _ hg => hg, rfl⟩

theorem addrAdd_changes {n : Int} (hembms : w.embms = false) (he : e = .addrAdd n f v4 v6)
    (h : w.addrAdd a s f v4 v6 = .ok x) : WanChanges a e w₀ (w, s) x := by
  simp only [addrAdd] at h
  split at h
  · cases h
    exact .refl
  split at h
  · obtain ⟨t, i, l, v, num, dl, ht, rfl⟩ := handle_addr_evt_eq h
    exact .single
      (.address (w := w) he t ht hembms (update w.received f true) i l v num dl)
  · cases h
    exact .single (.address (w := w) he w.ip_type (fun _ hg => hg) hembms
      (update w.received f true) w.modem_pdn_index w.ipv6_addr w.wan_v4_addr
      s.num_modem_pdn s.dl)

/-! ## The events -/

theorem reconfig_eq {y : WanStatics} (h : w.reconfig a s f = .ok y) :
    ∃ dl, y = { s with dl := dl } ∧
      (w.m_is_sta_mode = .q6Wan → w.ip_type.has f = true → w.Reworks s.dl dl) := by
  obtain ⟨t, ht, h⟩ := bind_eq_ok h
  cases h
  refine ⟨_, rfl, ?_⟩
  intro hq hhas g
  by_cases hg : g = f
  · subst hg
    right
    have hdel := DlTable.del_reworked g (s.dl.flt_rule g)
    have hconf := DlTable.config_reworked ht
    simp only [WanStatics.delFirewall, WanStatics.setTable, DlRules.setTable,
      update_self] at hconf ⊢
    exact ⟨hq, hhas, hdel.trans hconf⟩
  · left
    simp [WanStatics.delFirewall, WanStatics.setTable, DlRules.setTable, hg]

theorem firewallChange_changes {y : WanStatics} (h : w.firewallChange a s = .ok y) :
    WanChanges a e w₀ (w, s) (w, y) := by
  unfold firewallChange at h
  split at h
  · cases h
    exact .refl
  next hq =>
  have hq : w.m_is_sta_mode = .q6Wan := by
    by_contra hne
    exact hq (.inl (by simp [isSta, hne]))
  cases ht : w.ip_type with
  | null =>
    simp only [ht] at h
    cases h
    exact .refl
  | v4 | v6 =>
    simp only [ht] at h
    obtain ⟨dl, rfl, hdl⟩ := reconfig_eq h
    exact .single (.rules (hdl hq (by rw [ht]; rfl)))
  | max =>
    simp only [ht] at h
    obtain ⟨s₁, h₁, h⟩ := bind_eq_ok h
    obtain ⟨dl₁, rfl, hdl₁⟩ := reconfig_eq h₁
    obtain ⟨dl, rfl, hdl⟩ := reconfig_eq h
    refine (Relation.ReflTransGen.single (.rules (hdl₁ hq ?_))).tail (.rules (hdl hq ?_))
    · rw [ht]
      rfl
    · rw [ht]
      rfl

/-- The interface is closed by the event. -/
def closesOn (w : Wan) : WanEvent → Bool
  | .linkDown iface =>
    match w.m_is_sta_mode with
    | .q6Wan => decide (iface = w.ipa_if_num)
    | .ecmWan => true
    | .wlanWan => false
  | .wlanLinkDown iface =>
    !w.embms && decide (w.m_is_sta_mode = .wlanWan) && decide (iface = w.ipa_if_num)
  | .cfgChange _ changed =>
    !w.embms && decide (w.m_is_sta_mode = .ecmWan) && changed w.ipa_if_num
  | _ => false

/-- What the interface does when it is closed. -/
def goDown (a : WanAnswers) (w : Wan) (s : WanStatics) (embmsIf : Bool) : Wan × WanStatics :=
  if w.m_is_sta_mode = .q6Wan then w.handle_down_evt_ex a s embmsIf else w.handle_down_evt a s

theorem upstreamRouteAdd_changes {iface tether : Int} (ha : a.Succeeds) (hc : w.Consistent)
    (h : w.upstreamRouteAdd a s f iface tether = .ok x) :
    WanChanges a (.upstreamRouteAdd f iface tether) w (w, s) x := by
  have htether : ∀ {y : Wan × WanStatics} {s' : WanStatics},
      WanChanges a (.upstreamRouteAdd f iface tether) w (w, s) y →
      y.1.post_wan_up_tether_evt y.2 f tether = .ok s' →
      WanChanges a (.upstreamRouteAdd f iface tether) w (w, s) (y.1, s') := by
    intro y s' hy h
    simp only [post_wan_up_tether_evt] at h
    split at h
    · cases h
      exact hy.tail (.tether rfl _ _)
    · cases h
  simp only [upstreamRouteAdd] at h
  split at h
  · next hiface =>
    split at h
    · next hhas =>
      split at h
      · next hdown =>
        obtain ⟨y, hy, h⟩ := bind_eq_ok h
        obtain ⟨s', hs', h⟩ := bind_eq_ok h
        cases h
        refine htether (handle_route_add_evt_changes hc hhas hdown ?_ hy) hs'
        intro hup
        simp [raises, hiface, hhas, hdown, hup]
      · obtain ⟨y, hy, h⟩ := bind_eq_ok h
        cases hy
        obtain ⟨s', hs', h⟩ := bind_eq_ok h
        cases h
        exact htether .refl hs'
    · cases h
      exact .refl
  · split at h
    · next hup =>
      cases h
      exact cleanDefaultRoute_changes ha hc hup
    · cases h
      exact .refl

theorem post_wan_down_tether_evt_eq (w : Wan) (s : WanStatics) (f : IpFamily) (tether : Int) :
    ∃ l posted, w.post_wan_down_tether_evt s f tether =
      { s with ipa_if_num_tether := l, posted := posted } := by
  simp only [post_wan_down_tether_evt]
  split
  · exact ⟨_, _, rfl⟩
  · exact ⟨s.ipa_if_num_tether, s.posted, rfl⟩

theorem upstreamRouteDel_changes {iface tether : Int} (ha : a.Succeeds) (hc : w.Consistent) :
    WanChanges a (.upstreamRouteDel f iface tether) w₀ (w, s) (w.upstreamRouteDel a s f iface tether) := by
  simp only [upstreamRouteDel]
  split
  · next hup =>
    obtain ⟨l, posted, heq⟩ := post_wan_down_tether_evt_eq w s f tether
    rw [heq]
    have htether : WanChanges a (.upstreamRouteDel f iface tether) w₀ (w, s)
        (w, { s with ipa_if_num_tether := l, posted := posted }) :=
      .single (.tether rfl l posted)
    split
    · exact htether.trans (cleanDefaultRoute_changes ha hc hup.2)
    · exact htether
  · exact .refl

theorem routeAdd_changes {iface : Int} {isDefault : Bool} (ha : a.Succeeds) (hc : w.Consistent)
    (h : w.routeAdd a s f iface isDefault = .ok x) :
    WanChanges a (.routeAdd f iface isDefault) w (w, s) x := by
  unfold routeAdd at h
  split at h
  · cases h
    exact .refl
  next hdefault =>
  split at h
  · next hiface =>
    split at h
    · next hroute =>
      refine handle_route_add_evt_changes hc hroute.2 hroute.1 ?_ h
      intro hup
      simp [raises, hiface, hroute, hup, Bool.eq_true_of_not_eq_false hdefault]
    · cases h
      exact .refl
  · split at h
    · next hup =>
      cases h
      exact cleanDefaultRoute_changes ha hc hup
    · cases h
      exact .refl

theorem routeDelEvent_changes {iface : Int} {isDefault : Bool} (ha : a.Succeeds) (hc : w.Consistent) :
    WanChanges a e w₀ (w, s) (w.routeDelEvent a s f iface isDefault) := by
  unfold routeDelEvent
  split
  · next hup => exact cleanDefaultRoute_changes ha hc hup.2.2
  · exact .refl

theorem stay_map {o : Except Fault (Wan × WanStatics)} {y : AfterEvent × WanStatics}
    (h : (stay <$> o) = .ok y) : ∃ x, o = .ok x ∧ y = stay x := by
  cases o with
  | error f => cases h
  | ok x => exact ⟨x, rfl, (Except.ok.inj h).symm⟩

/-- **What an interface does with an event.** It is closed, or it goes through some changes. -/
theorem event_callback_cases {embmsIf : Int → Bool} {y : AfterEvent × WanStatics} (ha : a.Succeeds)
    (hc : w.Consistent) (h : w.event_callback a s embmsIf e = .ok y) :
    (w.closesOn e = true ∧ y = w.close s (w.goDown a s (embmsIf w.ipa_if_num))) ∨
      (w.closesOn e = false ∧ ∃ x, y = stay x ∧ WanChanges a e w (w, s) x) := by
  have hnothing : y = stay (w, s) → ∃ x, y = stay x ∧ WanChanges a e w (w, s) x :=
    fun h => ⟨_, h, .refl⟩
  unfold event_callback at h
  cases e with
  | linkDown iface =>
    simp only [linkDown] at h
    cases h
    unfold closesOn goDown
    cases hmode : w.m_is_sta_mode with
    | q6Wan =>
      by_cases hiface : iface = w.ipa_if_num
      · exact .inl ⟨by simp [hiface], by simp [hiface]⟩
      · exact .inr ⟨by simp [hiface], (w, s), by simp [hiface], .refl⟩
    | ecmWan => exact .inl ⟨rfl, by simp⟩
    | wlanWan => exact .inr ⟨rfl, (w, s), rfl, .refl⟩
  | wlanLinkDown iface | cfgChange table changed =>
    by_cases hembms : w.embms = true
    · simp only [hembms, if_true] at h
      exact .inr ⟨by simp [closesOn, hembms], hnothing (Except.ok.inj h).symm⟩
    simp only [hembms, Bool.false_eq_true, if_false] at h
    split at h
    · next hmode =>
      exact .inl ⟨by simp [closesOn, hembms, hmode],
        by simpa [goDown, hmode] using (Except.ok.inj h).symm⟩
    · next hmode =>
      exact .inr ⟨by simpa [closesOn, hembms] using hmode, hnothing (Except.ok.inj h).symm⟩
  | linkUp iface mode props | embmsLinkUp iface props =>
    refine .inr ⟨rfl, hnothing ?_⟩
    simp only [ite_self] at h
    exact (Except.ok.inj h).symm
  | addrAdd iface f v4 v6 =>
    refine .inr ⟨rfl, ?_⟩
    by_cases hembms : w.embms = true
    · simp only [hembms, if_true] at h
      exact hnothing (Except.ok.inj h).symm
    simp only [hembms, Bool.false_eq_true, if_false] at h
    split at h
    · obtain ⟨x, hx, rfl⟩ := stay_map h
      exact ⟨x, rfl, addrAdd_changes (Bool.eq_false_of_not_eq_true hembms) rfl hx⟩
    · exact hnothing (Except.ok.inj h).symm
  | upstreamRouteAdd f iface tether =>
    refine .inr ⟨rfl, ?_⟩
    dsimp only at h
    split at h
    · exact hnothing (Except.ok.inj h).symm
    · obtain ⟨x, hx, rfl⟩ := stay_map h
      exact ⟨x, rfl, upstreamRouteAdd_changes ha hc hx⟩
  | upstreamRouteDel f iface tether =>
    refine .inr ⟨rfl, ?_⟩
    dsimp only at h
    split at h
    · exact hnothing (Except.ok.inj h).symm
    · cases h
      exact ⟨_, rfl, upstreamRouteDel_changes ha hc⟩
  | routeAdd f iface isDefault =>
    refine .inr ⟨rfl, ?_⟩
    dsimp only at h
    split at h
    · exact hnothing (Except.ok.inj h).symm
    · obtain ⟨x, hx, rfl⟩ := stay_map h
      exact ⟨x, rfl, routeAdd_changes ha hc hx⟩
  | routeDel f iface isDefault =>
    refine .inr ⟨rfl, ?_⟩
    dsimp only at h
    split at h
    · exact hnothing (Except.ok.inj h).symm
    · cases h
      exact ⟨_, rfl, routeDelEvent_changes ha hc⟩
  | neigh iface mac f v4 v6 =>
    refine .inr ⟨rfl, ?_⟩
    by_cases hembms : w.embms = true
    · simp only [hembms, if_true] at h
      exact hnothing (Except.ok.inj h).symm
    simp only [hembms, Bool.false_eq_true, if_false] at h
    split at h
    · next hiface =>
      obtain ⟨x, hx, rfl⟩ := stay_map h
      exact ⟨x, rfl, neigh_changes ha hc (fun g hg => by simp [raises, hiface, hg]) hx⟩
    · exact hnothing (Except.ok.inj h).symm
  | firewallChange =>
    refine .inr ⟨rfl, ?_⟩
    dsimp only at h
    split at h
    · exact hnothing (Except.ok.inj h).symm
    cases hf : w.firewallChange a s with
    | error f =>
      rw [hf] at h
      cases h
    | ok s' =>
      rw [hf] at h
      cases h
      exact ⟨_, rfl, firewallChange_changes hf⟩

end Wan

end Nx508j.Ipacm
