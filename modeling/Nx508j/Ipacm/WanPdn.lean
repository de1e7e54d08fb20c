import Nx508j.Ipacm.WanDown

/-! # The modem interfaces with an address

A counter for each family says how many modem interfaces have an address, and the default downlink
rules are made by the first and taken away by the last. It counts down where an interface is closed,
but not for one with a single IPv6 address and not for one of the category for eMBMS. -/

namespace Nx508j.Ipacm

open Nx508j.Lib
open Function (update update_eq_self update_of_ne update_self)

namespace DlTable

variable {t t' : DlTable}

theorem construct_done {ops : List DlOp} {n : Nat} {done : Bool}
    (h : t.construct ops n = .ok (done, t')) (hn : ioctlsNeeded ops ≤ n) : done = true := by
  induction ops generalizing n t with
  | nil =>
    cases h
    rfl
  | cons op ops ih =>
    cases op with
    | ioctl =>
      cases n with
      | zero => simp [ioctlsNeeded] at hn
      | succ n => exact ih h (by simpa [ioctlsNeeded] using hn)
    | put rule =>
      obtain ⟨rules, -, h⟩ := bind_eq_ok h
      exact ih h (by simpa [ioctlsNeeded] using hn)

theorem rulesIn_dft (f : IpFamily) : rulesIn (dftFilteringRules f) = numDefaultWanFilterRule f := by
  cases f <;> rfl

theorem add_dft_present {f : IpFamily} {ioctls : Nat}
    (hn : ioctlsNeeded (dftFilteringRules f) ≤ ioctls)
    (h : t.add_dft_filtering_rule f true ioctls = .ok t') : t'.Present f := by
  obtain ⟨⟨done, t₁⟩, hcons, h⟩ := bind_eq_ok h
  have hdone := construct_done hcons hn
  have hext := construct_extends hcons
  rw [rulesReached_of_le hn, rulesIn_dft] at hext
  subst hdone
  cases h
  constructor
  · intro i hi
    exact hext.full i (Nat.zero_le _) (by simpa using hi)
  · simp [hext.num]

/-- The table has no rules at all. -/
def Cleared (t : DlTable) : Prop := t.num = 0 ∧ ∀ i, t.rules.get i = none

theorem cleared_clear (t : DlTable) : t.clear.Cleared := ⟨rfl, fun _ => rfl⟩

theorem Cleared.not_present (h : t.Cleared) (f : IpFamily) : ¬ t.Present f := by
  intro hp
  have hzero : 0 < numDefaultWanFilterRule f := by cases f <;> decide
  exact hp.1 0 hzero (h.2 0)

end DlTable

namespace Wan

variable {a : WanAnswers} {e : WanEvent} {w : Wan} {s s' : WanStatics} {f : IpFamily}
  {x y : Wan × WanStatics}

/-- A modem interface that received an address of the family. -/
def counts (f : IpFamily) (w : Wan) : Bool :=
  decide (w.m_is_sta_mode = .q6Wan) && w.received f

/-- A modem interface knows of the addresses that it received. -/
def Told (w : Wan) : Prop :=
  w.m_is_sta_mode = .q6Wan →
    (∀ f, w.received f = w.ip_type.has f) ∧ (w.ip_type.has .v6 = true ↔ w.ipv6_addr ≠ [])

theorem firstAddr_pdn (hq : w.m_is_sta_mode = .q6Wan) (hhas : w.ip_type.has f = false)
    (h : w.firstAddr a s f = .ok x) :
    x.1 = { w with modem_pdn_index := update w.modem_pdn_index f (s.num_modem_pdn f)
                   ip_type := w.ip_type.add f } ∧
      x.2.num_modem_pdn = update s.num_modem_pdn f (s.num_modem_pdn f + 1) ∧
      (∀ g, g ≠ f → x.2.dl.flt_rule g = s.dl.flt_rule g) ∧
      if s.num_modem_pdn f = 0 then
        (s.dl.flt_rule f).add_dft_filtering_rule f w.rx_prop (a.dl f).ioctls = .ok (x.2.dl.flt_rule f)
      else x.2.dl.flt_rule f = s.dl.flt_rule f := by
  simp only [firstAddr, if_pos hq, init_fl_rule_ex, hhas, Bool.false_eq_true, if_false,
    update_self] at h
  split at h
  · next hzero =>
    obtain ⟨t, ht, h⟩ := bind_eq_ok h
    cases h
    refine ⟨rfl, rfl, ?_, ?_⟩
    · intro g hg
      simp [WanStatics.setTable, DlRules.setTable, hg]
    · simpa [hzero, WanStatics.setTable, DlRules.setTable] using ht
  · next hzero =>
    cases h
    exact ⟨rfl, rfl, fun _ _ => rfl, by simp [hzero]⟩

/-- What an address does at a modem interface: nothing, or it is the first of its family. -/
theorem addrAdd_pdn {v4 : BitVec 32} {v6 : BitVec 128} (ha : a.Succeeds)
    (hq : w.m_is_sta_mode = .q6Wan) (ht : w.Told) (h : w.addrAdd a s f v4 v6 = .ok x) :
    x.1.m_is_sta_mode = .q6Wan ∧ x.1.Told ∧
      ((x.1.received = w.received ∧ x.2.num_modem_pdn = s.num_modem_pdn ∧ x.2.dl = s.dl) ∨
        noAddr f v4 v6 = false ∧ w.ip_type.has f = false ∧
          x.1.received = update w.received f true ∧
          x.2.num_modem_pdn = update s.num_modem_pdn f (s.num_modem_pdn f + 1) ∧
          (∀ g, g ≠ f → x.2.dl.flt_rule g = s.dl.flt_rule g) ∧
          if s.num_modem_pdn f = 0 then
            (s.dl.flt_rule f).add_dft_filtering_rule f w.rx_prop (a.dl f).ioctls =
              .ok (x.2.dl.flt_rule f)
          else x.2.dl.flt_rule f = s.dl.flt_rule f) := by
  obtain ⟨hrec, hsix⟩ := ht hq
  simp only [addrAdd] at h
  split at h
  · cases h
    exact ⟨hq, ht, .inl ⟨rfl, rfl, rfl⟩⟩
  next hzero =>
  rw [Bool.not_eq_true] at hzero
  by_cases hhas : w.ip_type.has f = true
  · -- it was told of the family before
    have hknown : update w.received f true = w.received := by
      rw [← hhas, ← hrec f, update_eq_self]
    cases f with
    | v4 =>
      simp only [hhas, Bool.true_eq_false, reduceCtorEq, false_and, or_self, if_false] at h
      cases h
      rw [hknown]
      exact ⟨hq, ht, .inl ⟨rfl, rfl, rfl⟩⟩
    | v6 =>
      have hsome := hsix.1 hhas
      simp only [hknown, handle_addr_evt, ha.addr, Bool.true_eq_false, if_false,
        List.length_eq_zero_iff, hsome] at h
      split at h
      · split at h
        · cases h
          exact ⟨hq, ht, .inl ⟨rfl, rfl, rfl⟩⟩
        · obtain ⟨y, hy, h⟩ := bind_eq_ok h
          cases hy
          simp only [ha.addrFlt, Bool.true_eq_false, and_false, if_false] at h
          cases h
          exact ⟨hq, fun _ => ⟨hrec, by simp [hhas]⟩, .inl ⟨rfl, rfl, rfl⟩⟩
      · cases h
        exact ⟨hq, ht, .inl ⟨rfl, rfl, rfl⟩⟩
  · rw [Bool.not_eq_true] at hhas
    simp only [hhas, true_or, if_true] at h
    have hadd : ∀ g, update w.received f true g = (w.ip_type.add f).has g := by
      intro g
      rw [IfaceIpType.has_add]
      by_cases hg : g = f <;> simp [hg, hrec]
    cases f with
    | v4 =>
      simp only [handle_addr_evt, ha.addr, Bool.true_eq_false, if_false] at h
      obtain ⟨y, hy, h⟩ := bind_eq_ok h
      obtain ⟨hw, hnum, hother, hrules⟩ := firstAddr_pdn (by exact hq) (by exact hhas) hy
      cases h
      refine ⟨?_, fun _ => ⟨?_, ?_⟩, .inr ⟨hzero, hhas, ?_, hnum, hother, hrules⟩⟩
      · rw [hw]
        exact hq
      · rw [hw]
        exact hadd
      · rw [hw]
        simpa [IfaceIpType.has_add] using hsix
      · rw [hw]
    | v6 =>
      have hnil : w.ipv6_addr = [] := by
        by_contra hne
        rw [hsix.2 hne] at hhas
        cases hhas
      simp only [handle_addr_evt, hnil, List.not_mem_nil, ha.addr, Bool.true_eq_false, if_false,
        List.length_nil, if_true] at h
      obtain ⟨y, hy, h⟩ := bind_eq_ok h
      obtain ⟨hw, hnum, hother, hrules⟩ := firstAddr_pdn (by exact hq) (by exact hhas) hy
      simp only [ha.addrFlt, Bool.true_eq_false, and_false, if_false] at h
      cases h
      refine ⟨?_, fun _ => ⟨?_, ?_⟩, .inr ⟨hzero, hhas, ?_, hnum, hother, hrules⟩⟩
      · rw [hw]
        exact hq
      · rw [hw]
        exact hadd
      · rw [hw]
        simp [IfaceIpType.has_add]
      · rw [hw]

theorem addrAdd_other {v4 : BitVec 32} {v6 : BitVec 128} (hq : w.m_is_sta_mode ≠ .q6Wan)
    (h : w.addrAdd a s f v4 v6 = .ok x) : x.1.m_is_sta_mode = w.m_is_sta_mode ∧ x.2 = s := by
  have hfirst : ∀ {w' : Wan} {y : Wan × WanStatics}, w'.firstAddr a s f = .ok y →
      w'.m_is_sta_mode = w.m_is_sta_mode → y.1.m_is_sta_mode = w.m_is_sta_mode ∧ y.2 = s := by
    intro w' y h hw
    rw [firstAddr, if_neg (hw ▸ hq)] at h
    cases h
    exact ⟨hw, rfl⟩
  simp only [addrAdd] at h
  split at h
  · cases h
    exact ⟨rfl, rfl⟩
  split at h
  · cases f with
    | v4 =>
      simp only [handle_addr_evt] at h
      split at h
      · cases h
        exact ⟨rfl, rfl⟩
      · obtain ⟨y, hy, h⟩ := bind_eq_ok h
        have hres := hfirst hy rfl
        cases h
        exact hres
    | v6 =>
      simp only [handle_addr_evt] at h
      split at h
      · cases h
        exact ⟨rfl, rfl⟩
      split at h
      · cases h
        exact ⟨rfl, rfl⟩
      split at h
      · obtain ⟨y, hy, h⟩ := bind_eq_ok h
        have hres := hfirst hy rfl
        split at h <;> obtain rfl := Except.ok.inj h <;> exact hres
      · obtain ⟨y, hy, h⟩ := bind_eq_ok h
        cases hy
        split at h <;> obtain rfl := Except.ok.inj h <;> exact ⟨rfl, rfl⟩
  · cases h
    exact ⟨rfl, rfl⟩

/-- A modem interface that is closed is counted out for each family that it received an address of.
    -/
def CountsOut (w : Wan) (embmsIf : Bool) : Prop :=
  ∀ f, w.received f = true → embmsIf = false ∧ (f = .v6 → 2 ≤ w.ipv6_addr.length)

instance (w : Wan) (embmsIf : Bool) : Decidable (w.CountsOut embmsIf) := by
  unfold CountsOut
  infer_instance

theorem goDown_pdn {embmsIf : Bool} (ha : a.Succeeds) (hc : w.Consistent) (ht : w.Told)
    (hout : w.m_is_sta_mode = .q6Wan → w.CountsOut embmsIf) (f : IpFamily) :
    (w.goDown a s embmsIf).2.num_modem_pdn f =
        s.num_modem_pdn f - (if w.counts f = true then 1 else 0) ∧
      if w.counts f = true then
        (s.num_modem_pdn f = 1 → ((w.goDown a s embmsIf).2.dl.flt_rule f).Cleared) ∧
          (s.num_modem_pdn f ≠ 1 → (s.dl.flt_rule f).Present f →
            ((w.goDown a s embmsIf).2.dl.flt_rule f).Present f)
      else (w.goDown a s embmsIf).2.dl.flt_rule f = s.dl.flt_rule f := by
  unfold goDown counts
  by_cases hmode : w.m_is_sta_mode = .q6Wan
  · rw [if_pos hmode]
    obtain ⟨hrec, hsix⟩ := ht hmode
    have hout := hout hmode
    by_cases hnull : w.ip_type = .null
    · have hres : w.handle_down_evt_ex a s embmsIf = (w, s) := by simp [handle_down_evt_ex, hnull]
      have hnone : w.received f = false := by simp [hrec, hnull]
      simp [hres, hnone]
    · cases embmsIf with
      | true =>
        have hnone : w.received f = false := by
          rw [← Bool.not_eq_true]
          intro hf
          cases (hout f hf).1
        simp [handle_down_evt_ex, hnull, hnone]
      | false =>
        obtain ⟨gw, posted, heq, -⟩ := handle_down_evt_ex_eq (s := s) ha hc hnull
        rw [heq]
        by_cases hf : w.received f = true
        · have hhas : w.ip_type.has f = true := by rw [← hrec f, hf]
          have hlen : f = .v4 ∨ 2 ≤ w.ipv6_addr.length := by
            cases f with
            | v4 => exact .inl rfl
            | v6 => exact .inr ((hout .v6 hf).2 rfl)
          have hnum : w.pdnDown s f = s.num_modem_pdn f - 1 := by
            simp only [pdnDown, hhas, hlen, and_self, if_true]
          simp only [hmode, decide_true, hf, Bool.and_self, if_true, rulesDown, hhas, hnum]
          refine ⟨trivial, fun hone => ?_, fun hmore hpres => ?_⟩
          · rw [if_pos (by omega)]
            exact DlTable.cleared_clear _
          · rw [if_neg (by omega)]
            split
            · exact (DlTable.del_reworked f _).2 hpres
            · exact hpres
        · have hhas : ¬ w.ip_type.has f = true := by
            rw [← hrec f]
            exact hf
          simp [hf, pdnDown, rulesDown, hhas]
  · rw [if_neg hmode]
    obtain ⟨gw, heq⟩ := handle_down_evt_eq (s := s) ha hc
    rw [heq]
    simp [hmode]

end Wan

/-- An event that is no address leaves the addresses, and makes anew the tables of the families that
    the interface has at most. -/
theorem WanChanges.pdn {a : WanAnswers} {e : WanEvent} {w₀ : Wan} {x y : Wan × WanStatics}
    (he : ∀ n f v4 v6, e ≠ .addrAdd n f v4 v6) (h : WanChanges a e w₀ x y) :
    y.1.received = x.1.received ∧ y.1.ip_type = x.1.ip_type ∧ y.1.ipv6_addr = x.1.ipv6_addr ∧
      y.1.m_is_sta_mode = x.1.m_is_sta_mode ∧ y.2.num_modem_pdn = x.2.num_modem_pdn ∧
      x.1.Reworks x.2.dl y.2.dl := by
  induction h with
  | refl => exact ⟨rfl, rfl, rfl, rfl, rfl, fun _ => .inl rfl⟩
  | @tail y z _ step ih =>
    obtain ⟨hrec, hty, hsix, hmode, hnum, hdl⟩ := ih
    have hmore : ∀ dl, y.1.Reworks y.2.dl dl → x.1.Reworks x.2.dl dl := by
      intro dl h f
      rcases h f with h | ⟨hq, hhas, h⟩
      · rw [h]
        exact hdl f
      · rcases hdl f with h' | ⟨-, -, h'⟩
        · exact .inr ⟨hmode ▸ hq, hty ▸ hhas, h' ▸ h⟩
        · exact .inr ⟨hmode ▸ hq, hty ▸ hhas, h'.trans h⟩
    cases step with
    | address he' => exact absurd he' (he _ _ _ _)
    | raise hon hdown hc hdl' | lower hup hdl'
    | rules hdl' => exact ⟨hrec, hty, hsix, hmode, hnum, hmore _ hdl'⟩
    | _ => exact ⟨hrec, hty, hsix, hmode, hnum, hdl⟩

namespace WanWorld

variable {s s' : WanWorld} {i : WanInput} {reports : List DownReport}

/-- The counters are right, and the default rules of a family are there exactly if one is counted.
    -/
def PdnsCounted (s : WanWorld) : Prop :=
  ∀ f, s.statics.num_modem_pdn f = s.instances.countP (Wan.counts f) ∧
    ((s.statics.dl.flt_rule f).Present f ↔ 0 < s.statics.num_modem_pdn f)

/-- The first modem interface with an address of a family has receive properties, and one that is
    closed is counted out. -/
def PdnsFit (s : WanWorld) (i : WanInput) : Prop :=
  s.Succeeds i ∧
    match i.event with
    | .addrAdd iface f v4 v6 =>
      ∀ w ∈ s.instances, w.ipa_if_num = iface → w.m_is_sta_mode = .q6Wan → w.embms = false →
        Wan.noAddr f v4 v6 = false → w.ip_type.has f = false → s.statics.num_modem_pdn f = 0 →
        w.rx_prop = true
    | .linkDown iface =>
      ∀ w ∈ s.instances, w.m_is_sta_mode = .q6Wan → iface = w.ipa_if_num →
        w.CountsOut (s.embmsIf w.ipa_if_num)
    | _ => True

instance decidablePdnsFit (s : WanWorld) (i : WanInput) : Decidable (s.PdnsFit i) :=
  match i with
  | ⟨.linkUp .., _⟩ | ⟨.embmsLinkUp .., _⟩ | ⟨.addrAdd .., _⟩ | ⟨.upstreamRouteAdd .., _⟩
  | ⟨.upstreamRouteDel .., _⟩ | ⟨.routeAdd .., _⟩ | ⟨.routeDel .., _⟩ | ⟨.neigh .., _⟩
  | ⟨.firewallChange .., _⟩ | ⟨.wlanLinkDown .., _⟩ | ⟨.linkDown .., _⟩ | ⟨.cfgChange .., _⟩ =>
    inferInstanceAs (Decidable (_ ∧ _))

/-- What holds of the rules of a family with this many interfaces. -/
def RulesFor (f : IpFamily) (n : Int) (t : DlTable) : Prop :=
  (0 < n → t.Present f) ∧ (n = 0 → t.Cleared)

/-- An address at one interface. -/
theorem addrAdd_counts {w w' : Wan} {st st' : WanStatics} {iface : Int} {f : IpFamily}
    {v4 : BitVec 32} {v6 : BitVec 128} {answers : Int → WanAnswers} {table : Int → Bool}
    (hm : s.PdnsFit ⟨.addrAdd iface f v4 v6, answers⟩) (hw : w ∈ s.instances) (ht : w.Told)
    (hev : w.event_callback (answers w.ipa_if_num) st table (.addrAdd iface f v4 v6) =
      .ok (.stays w', st'))
    (hzero : ∀ g, st.num_modem_pdn g = 0 → s.statics.num_modem_pdn g = 0)
    (hr : ∀ g, 0 ≤ st.num_modem_pdn g ∧ RulesFor g (st.num_modem_pdn g) (st.dl.flt_rule g)) :
    w'.Told ∧ ∀ g, (w.counts g = true → w'.counts g = true) ∧
      st'.num_modem_pdn g + (if w.counts g = true then 1 else 0) =
        st.num_modem_pdn g + (if w'.counts g = true then 1 else 0) ∧
      RulesFor g (st'.num_modem_pdn g) (st'.dl.flt_rule g) := by
  have ha := hm.1 w hw
  have hsame : w' = w → st' = st → w'.Told ∧ ∀ g,
      (w.counts g = true → w'.counts g = true) ∧ st'.num_modem_pdn g + (if w.counts g = true then 1 else 0) =
        st.num_modem_pdn g + (if w'.counts g = true then 1 else 0) ∧
      RulesFor g (st'.num_modem_pdn g) (st'.dl.flt_rule g) := by
    rintro rfl rfl
    exact ⟨ht, fun g => ⟨id, rfl, (hr g).2⟩⟩
  simp only [Wan.event_callback] at hev
  split at hev
  · obtain ⟨h₁, rfl⟩ := ok_pair hev
    exact hsame (AfterEvent.stays.inj h₁).symm rfl
  next hembms =>
  split at hev
  · next hiface =>
    obtain ⟨x, hx, hy⟩ := Wan.stay_map hev
    obtain ⟨h₁, rfl⟩ := Prod.mk.inj hy
    obtain rfl := AfterEvent.stays.inj h₁
    by_cases hq : w.m_is_sta_mode = .q6Wan
    · obtain ⟨hq', ht', hsame' | ⟨hno, hhas, hrec, hnum, hother, hrules⟩⟩ := Wan.addrAdd_pdn ha hq ht hx
      · obtain ⟨hrec, hnum, hdl⟩ := hsame'
        refine ⟨ht', fun g => ⟨?_, ?_, ?_⟩⟩
        · simp [Wan.counts, hq, hq', hrec]
        · simp [Wan.counts, hq, hq', hrec, hnum]
        · rw [hnum, hdl]
          exact (hr g).2
      · refine ⟨ht', fun g => ?_⟩
        by_cases hg : g = f
        · subst hg
          have hnew : w.received g = false := by rw [(ht hq).1 g, hhas]
          refine ⟨by simp [Wan.counts, hq', hrec],
            by simp [Wan.counts, hq, hq', hrec, hnum, hnew], ?_⟩
          have hnone : st.num_modem_pdn g + 1 ≠ 0 := by
            have := (hr g).1
            omega
          rw [hnum, update_self]
          refine ⟨fun _ => ?_, fun h => absurd h hnone⟩
          by_cases hz : st.num_modem_pdn g = 0
          · rw [if_pos hz, hm.2 w hw hiface.symm hq (Bool.eq_false_of_not_eq_true hembms) hno hhas
              (hzero g hz)] at hrules
            exact DlTable.add_dft_present (ha.dft g) hrules
          · rw [if_neg hz] at hrules
            rw [hrules]
            refine (hr g).2.1 ?_
            have := (hr g).1
            omega
        · refine ⟨by simp [Wan.counts, hq, hq', hrec, hg],
            by simp [Wan.counts, hq, hq', hrec, hnum, hg], ?_⟩
          rw [hnum, update_of_ne hg, hother g hg]
          exact (hr g).2
    · obtain ⟨hmode, hst⟩ := Wan.addrAdd_other hq hx
      refine ⟨fun h => absurd (hmode ▸ h) hq, fun g => ⟨?_, ?_, ?_⟩⟩
      · simp [Wan.counts, hq]
      · simp [Wan.counts, hmode, hq, hst]
      · rw [hst]
        exact (hr g).2
  · obtain ⟨h₁, rfl⟩ := ok_pair hev
    exact hsame (AfterEvent.stays.inj h₁).symm rfl

theorem other_counts {w w' : Wan} {st st' : WanStatics}
    (he : ∀ n f v4 v6, i.event ≠ .addrAdd n f v4 v6) (ht : w.Told)
    (hch : WanChanges (i.answers w.ipa_if_num) i.event w (w, st) (w', st'))
    (hr : ∀ g, (w.counts g = true → 0 < st.num_modem_pdn g) ∧
      RulesFor g (st.num_modem_pdn g) (st.dl.flt_rule g)) :
    w'.Told ∧ ∀ g, st'.num_modem_pdn g + (if w.counts g = true then 1 else 0) =
        st.num_modem_pdn g + (if w'.counts g = true then 1 else 0) ∧
      RulesFor g (st'.num_modem_pdn g) (st'.dl.flt_rule g) := by
  obtain ⟨hrec, hty, hsix, hmode, hnum, hdl⟩ := hch.pdn he
  dsimp only at hrec hty hsix hmode hnum hdl
  refine ⟨?_, fun g => ⟨?_, ?_⟩⟩
  · intro hq
    rw [hrec, hty, hsix]
    exact ht (hmode ▸ hq)
  · simp [Wan.counts, hrec, hmode, hnum]
  · rw [hnum]
    rcases hdl g with h | ⟨hq, hhas, h⟩
    · rw [h]
      exact (hr g).2
    · have hpos : 0 < st.num_modem_pdn g := by
        refine (hr g).1 ?_
        simp [Wan.counts, hq, (ht hq).1 g, hhas]
      exact ⟨fun _ => h.2 ((hr g).2.1 hpos), fun hz => absurd hz (by omega)⟩

theorem PdnsFit.closes (hm : s.PdnsFit i) {w : Wan} (hw : w ∈ s.instances)
    (hcl : w.closesOn i.event = true) (hq : w.m_is_sta_mode = .q6Wan) :
    w.CountsOut (s.table i w.ipa_if_num) := by
  obtain ⟨e, answers⟩ := i
  cases e with
  | linkDown iface =>
    simp only [Wan.closesOn, hq, decide_eq_true_eq] at hcl
    exact hm.2 w hw hq hcl
  | _ => simp [Wan.closesOn, hq] at hcl

/-- **One step.** -/
theorem step_counts (hc : s.Consistent) (ht : ∀ w ∈ s.instances, w.Told)
    (hn : ∀ f, s.statics.num_modem_pdn f = s.instances.countP (Wan.counts f))
    (hr : ∀ f, RulesFor f (s.statics.num_modem_pdn f) (s.statics.dl.flt_rule f)) (hm : s.PdnsFit i)
    (h : s.step i = .ok (s', reports)) :
    (∀ w ∈ s'.instances, w.Told) ∧
      (∀ f, s'.statics.num_modem_pdn f = s'.instances.countP (Wan.counts f)) ∧
      ∀ f, RulesFor f (s'.statics.num_modem_pdn f) (s'.statics.dl.flt_rule f) := by
  have hend := step_induct (I := fun done rest _ st =>
      (∀ d ∈ done, d.Told) ∧
      (∀ f, st.num_modem_pdn f = done.countP (Wan.counts f) + rest.countP (Wan.counts f)) ∧
      (∀ f, RulesFor f (st.num_modem_pdn f) (st.dl.flt_rule f)) ∧
      ((∃ n f v4 v6, i.event = .addrAdd n f v4 v6) →
        ∀ g, st.num_modem_pdn g = 0 → s.statics.num_modem_pdn g = 0)) hc hm.1 ?_ ?_ h ?_
  · rcases hend with ⟨-, rfl, rfl | ⟨iface, mode, props, embms, table, -, rfl⟩⟩ |
      ⟨st, ⟨hdone, hcount, hrules, -⟩, hst⟩
    · exact ⟨ht, hn, hr⟩
    · rcases create_cases { s with embmsIf := table } iface mode props embms with
        heq | ⟨-, rm, on, -, heq⟩
      · rw [heq]
        exact ⟨ht, hn, hr⟩
      · rw [heq]
        refine ⟨?_, ?_, hr⟩
        · intro w hw
          rcases List.mem_append.1 hw with hw | hw
          · exact ht w hw
          · obtain rfl := List.mem_singleton.1 hw
            intro _
            simp
        · simpa [Wan.counts] using hn
    · obtain ⟨upstream, added, heq⟩ := foldl_noteClosed reports st
      rw [hst, heq]
      exact ⟨hdone, by simpa using hcount, hrules⟩
  · rintro done w rest reports st w' st' hsuf hcw haw ⟨hdone, hcount, hrules, hzero⟩ hcl hev hch
    have hw : w ∈ s.instances := hsuf.subset List.mem_cons_self
    have hnonneg : ∀ g, 0 ≤ st.num_modem_pdn g := by
      intro g
      rw [hcount g]
      omega
    have hone : w'.Told ∧ ∀ g,
        ((∃ n f v4 v6, i.event = .addrAdd n f v4 v6) → w.counts g = true → w'.counts g = true) ∧
        st'.num_modem_pdn g + (if w.counts g = true then 1 else 0) =
          st.num_modem_pdn g + (if w'.counts g = true then 1 else 0) ∧
        RulesFor g (st'.num_modem_pdn g) (st'.dl.flt_rule g) := by
      by_cases he : ∃ n f v4 v6, i.event = .addrAdd n f v4 v6
      · obtain ⟨e, answers⟩ := i
        obtain ⟨n, f, v4, v6, rfl⟩ := he
        have hres := addrAdd_counts hm hw (ht w hw) hev (hzero ⟨n, f, v4, v6, rfl⟩)
          (fun g => ⟨hnonneg g, hrules g⟩)
        exact ⟨hres.1, fun g => ⟨fun _ => (hres.2 g).1, (hres.2 g).2⟩⟩
      · have hres := other_counts (fun n f v4 v6 h => he ⟨n, f, v4, v6, h⟩) (ht w hw) hch
          (fun g => ⟨fun hg => by
            rw [hcount g]
            simp only [List.countP_cons, hg, if_true]
            omega, hrules g⟩)
        exact ⟨hres.1, fun g => ⟨fun h => absurd h he, hres.2 g⟩⟩
    refine ⟨?_, ?_, fun g => (hone.2 g).2.2, ?_⟩
    · intro d hd
      rcases List.mem_append.1 hd with hd | hd
      · exact hdone d hd
      · obtain rfl := List.mem_singleton.1 hd
        exact hone.1
    · intro g
      have h₁ := (hone.2 g).2.1
      have h₂ := hcount g
      simp only [List.countP_append, List.countP_cons, List.countP_nil] at h₂ ⊢
      push_cast at h₂ ⊢
      omega
    · intro he g hg
      refine hzero he g ?_
      have h₁ := (hone.2 g).2.1
      have h₂ := hnonneg g
      have hmono := (hone.2 g).1 he
      by_cases hcw : w.counts g = true
      · simp only [hcw, hmono hcw, if_true] at h₁
        omega
      · simp only [hcw, Bool.false_eq_true, if_false] at h₁
        split at h₁ <;> omega
  · rintro done w rest reports st r st' hsuf hcw haw ⟨hdone, hcount, hrules, hzero⟩ hcl hr'
    have hw : w ∈ s.instances := hsuf.subset List.mem_cons_self
    obtain ⟨-, rfl⟩ := Prod.mk.inj hr'
    have hdown := Wan.goDown_pdn (s := st) haw hcw (ht w hw) (fun hq => hm.closes hw hcl hq)
    refine ⟨hdone, ?_, ?_, ?_⟩
    · intro f
      have h₁ := (hdown f).1
      have h₂ := hcount f
      split at h₁ <;> simp_all
      omega
    · intro f
      have h₁ := hdown f
      have h₂ := hcount f
      by_cases hw : w.counts f = true
      · simp only [hw, if_true] at h₁ h₂
        obtain ⟨hnum, hlast, hmore⟩ := h₁
        rw [hnum]
        refine ⟨fun hpos => ?_, fun hz => hlast (by omega)⟩
        exact hmore (by omega) ((hrules f).1 (by omega))
      · simp only [hw, Bool.false_eq_true, if_false, Int.sub_zero] at h₁
        rw [h₁.1, h₁.2]
        exact hrules f
    · rintro ⟨n, f, v4, v6, he⟩
      rw [he] at hcl
      cases hcl
  · obtain ⟨upstream, added, heq⟩ := noteEvent_eq s.statics i.event
    rw [heq]
    exact ⟨by simp, by simpa using hn, hr, fun _ _ h => h⟩

/-! ## Runs -/

/-- **Runs whose steps meet the condition.** The counters say how many modem interfaces received an
    address, and the default rules of a family are in the table while there is one. -/
theorem run_pdns {tr : List (WanInput × List DownReport)} (run : Run step PdnsFit {} tr s) :
    s.PdnsCounted := by
  have hinv : s.Consistent ∧ (∀ w ∈ s.instances, w.Told) ∧
      (∀ f, s.statics.num_modem_pdn f = s.instances.countP (Wan.counts f)) ∧
      ∀ f, RulesFor f (s.statics.num_modem_pdn f) (s.statics.dl.flt_rule f) := by
    refine run.invariant (fun _ s => s.Consistent ∧ (∀ w ∈ s.instances, w.Told) ∧
      (∀ f, s.statics.num_modem_pdn f = s.instances.countP (Wan.counts f)) ∧
      ∀ f, RulesFor f (s.statics.num_modem_pdn f) (s.statics.dl.flt_rule f))
      ⟨consistent_init, by simp, by simp, ?_⟩ ?_
    · exact fun f => ⟨fun h => absurd h (Int.lt_irrefl 0), fun _ => ⟨rfl, fun _ => rfl⟩⟩
    · rintro tr s i s' reports ⟨hc, ht, hn, hr⟩ hm hstep
      exact ⟨step_consistent hc hm.1 hstep, step_counts hc ht hn hr hm hstep⟩
  obtain ⟨-, -, hn, hr⟩ := hinv
  intro f
  refine ⟨hn f, fun hp => ?_, (hr f).1⟩
  by_contra hnot
  have hzero : s.statics.num_modem_pdn f = 0 := by
    have := hn f
    omega
  exact ((hr f).2 hzero).not_present f hp

/-- A modem interface gets two IPv6 addresses, and another one an IPv4 address before it goes. -/
def twoAddresses : List WanInput :=
  [.answered (.linkUp 1 .q6Wan modemProps), .answered (.linkUp 2 .q6Wan modemProps),
    .answered (.addrAdd 1 .v6 0 10), .answered (.addrAdd 1 .v6 0 11),
    .answered (.addrAdd 2 .v4 12 0), .answered (.linkDown 1)]

/-- The theorem at a run after which the rules of one family are left. -/
theorem run_pdns_left :
    ∃ tr s, Run step PdnsFit {} tr s ∧ s.statics.num_modem_pdn .v4 = 1 ∧
      s.statics.num_modem_pdn .v6 = 0 ∧ s.PdnsCounted := by
  have hend : (exec step {} twoAddresses).toOption.map
      (fun x => (x.1.statics.num_modem_pdn .v4, x.1.statics.num_modem_pdn .v6)) = some (1, 0) := by
    decide +kernel
  have hall : allMeet step (fun s i => decide (s.PdnsFit i)) {} twoAddresses = true := by
    decide +kernel
  obtain ⟨s, tr, hexec, hend⟩ := exec_of_map hend
  obtain ⟨hfour, hsix⟩ := Prod.mk.inj hend
  have run := Run.of_exec_of_allMeet (C := PdnsFit)
    (fun _ _ _ h => of_decide_eq_true h) hexec hall
  exact ⟨tr, s, run, hfour, hsix, run_pdns run⟩

/-- A modem interface with a single IPv6 address goes. -/
def singleAddress : List WanInput :=
  [.answered (.linkUp 1 .q6Wan modemProps), .answered (.addrAdd 1 .v6 0 10), .answered (.linkDown 1)]

/-- It is still counted, and the rules stay. -/
theorem run_pdnLeaked :
    ∃ tr s, Run step Succeeds {} tr s ∧ s.instances = [] ∧ s.statics.num_modem_pdn .v6 = 1 ∧
      (s.statics.dl.flt_rule .v6).Present .v6 ∧ ¬ s.PdnsCounted := by
  have hend : (exec step {} singleAddress).toOption.map
      (fun x => (x.1.instances.length, x.1.statics.num_modem_pdn .v6,
        decide ((x.1.statics.dl.flt_rule .v6).Present .v6))) = some (0, 1, true) := by
    decide +kernel
  have hall : allMeet step (fun s i => decide (s.Succeeds i)) {} singleAddress = true := by
    decide +kernel
  obtain ⟨s, tr, hexec, hend⟩ := exec_of_map hend
  obtain ⟨hnone, hone, hpres⟩ : s.instances = [] ∧ s.statics.num_modem_pdn .v6 = 1 ∧
      (s.statics.dl.flt_rule .v6).Present .v6 := by
    simpa using hend
  refine ⟨tr, s, Run.of_exec_of_allMeet (C := Succeeds)
    (fun _ _ _ h => of_decide_eq_true h) hexec hall, hnone, hone, hpres, ?_⟩
  intro h
  have hcount := (h .v6).1
  rw [hone, hnone] at hcount
  cases hcount

end WanWorld

end Nx508j.Ipacm
