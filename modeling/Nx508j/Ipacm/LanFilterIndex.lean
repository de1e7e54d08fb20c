import Nx508j.Ipacm.LanUplink

/-! # The indices that the modem is told

`flt_rule_count_v4` and `flt_rule_count_v6` stand for the number of rules in the table. They grow
with the rules of the interface itself and with those of the modem; the software routing rule in
front and the default rule of a station are not counted, and as WAN goes down the counters are set
to a formula, whatever is in the table. What the counter says beyond the rules it counts is the same
from one such event to the next. -/

namespace Nx508j.Ipacm

open Nx508j.Lib Function

/-- The rules of the interface itself, which are counted. -/
def FltKind.isCounted : FltKind → Bool
  | .dft | .lan2lan | .privateSubnet | .icmp | .ipv6Prefix => true
  | .staDefault | .modem _ | .swRouting => false

/-- The index that is sent for each rule of the modem is where the driver puts it. -/
def IndexReport.Right (r : IndexReport) : Prop :=
  ∀ (k : Nat) (idx : Int) (filter_hdl : UInt32), r.sent[k]? = some (idx, filter_hdl) →
    ∃ hdl, r.hdls[k]? = some hdl ∧ 0 ≤ idx ∧
      r.table.rules[idx.toNat]? = some (hdl, .modem filter_hdl)

namespace Lan

/-- How many rules of a family are counted. -/
def counted (s : Lan) (f : IpFamily) : Nat := (s.table f).rules.countP (·.2.isCounted)

/-- And how many are not: software routing, and the default rule of a station, before the modem has
    any. -/
def uncounted (s : Lan) (f : IpFamily) : Nat := (s.table f).rules.countP (!·.2.isCounted)

/-- An event that leads to the rules of the uplink: the first address of a family while WAN is up,
    or WAN as there is an address. -/
def BringsUp (s : Lan) (i : LanInput) (f : IpFamily) : LanEvent → Prop
  | .addrAdd g ipv4_addr ipv6_addr =>
    g = f ∧ Wan.noAddr f ipv4_addr ipv6_addr = false ∧ i.isWanUP f = true ∧
      if f = .v6 then s.ipv6_addr = [] else s.ip_type.has f = false
  | .wanUp g => g = f ∧ s.ip_type.has f = true ∧ (f = .v6 → s.ipv6_addr.length = 1)
  | .wanDown _ | .swRoutingEnable | .swRoutingDisable => False

/-- The event has the rules of the modem installed for a family. -/
def Installs (s : Lan) (i : LanInput) (f : IpFamily) : Prop :=
  (s.rx_prop = true ∧ i.is_sta = false ∧ (i.ext_prop f).filter_hdl ≠ [] ∧
    s.modem_ul_set f = false ∧ i.answers.send = true ∧ i.answers.add .uplink = true) ∧
      s.BringsUp i f i.event

instance decidableBringsUp (s : Lan) (i : LanInput) (f : IpFamily) (e : LanEvent) :
    Decidable (s.BringsUp i f e) :=
  match e with
  | .addrAdd .. => inferInstanceAs (Decidable (_ ∧ _ ∧ _ ∧ if f = .v6 then _ else _))
  | .wanUp _ => inferInstanceAs (Decidable (_ ∧ _))
  | .wanDown _ | .swRoutingEnable | .swRoutingDisable => inferInstanceAs (Decidable False)

instance decidableInstalls (s : Lan) (i : LanInput) (f : IpFamily) : Decidable (s.Installs i f) :=
  inferInstanceAs (Decidable (_ ∧ _))

variable {s s' : Lan} {i : LanInput} {f g : IpFamily}

/-! ## What the counter has too much -/

/-- What the counter says beyond the rules that it counts. -/
def drift (s : Lan) (f : IpFamily) : Int := s.flt_rule_count f - s.counted f

theorem length_rules (s : Lan) (f : IpFamily) :
    (s.table f).rules.length = s.counted f + s.uncounted f := by
  rw [counted, uncounted, List.length_eq_countP_add_countP (fun r => r.2.isCounted)]
  simp

/-- What every function keeps, for what the counters have too much while the modem has no rules. -/
structure IndexInv (s : Lan) (tooHigh : IpFamily → Int) : Prop where
  drift : ∀ f, s.modem_ul_set f = false → s.drift f = tooHigh f
  modem : ∀ f, ∀ r ∈ (s.table f).rules, ∀ filter_hdl, r.2 = .modem filter_hdl →
    r.1 ∈ s.wan_ul_fl_rule_hdl f
  cleared : ∀ f, s.modem_ul_set f = false → s.wan_ul_fl_rule_hdl f = []
  sw : ∀ f, ∀ r ∈ (s.table f).rules, r.1 = s.software_routing_fl_rule_hdl f → r.2 = .swRouting
  sw_lt : ∀ f, s.software_routing_fl_rule_hdl f < (s.table f).next

variable {tooHigh : IpFamily → Int}

theorem IndexInv.congr (h : s.IndexInv tooHigh) (htable : s'.table = s.table)
    (hcount : s'.flt_rule_count = s.flt_rule_count) (hset : s'.modem_ul_set = s.modem_ul_set)
    (hul : s'.wan_ul_fl_rule_hdl = s.wan_ul_fl_rule_hdl)
    (hsw : s'.software_routing_fl_rule_hdl = s.software_routing_fl_rule_hdl) :
    s'.IndexInv tooHigh := by
  refine ⟨?_, ?_, ?_, ?_, ?_⟩
  · intro f hf
    rw [Lan.drift, counted, htable, hcount]
    exact h.drift f (hset ▸ hf)
  · rw [htable, hul]
    exact h.modem
  · rw [hset, hul]
    exact h.cleared
  · rw [htable, hsw]
    exact h.sw
  · rw [htable, hsw]
    exact h.sw_lt

theorem countP_named (t : RuleTable FltKind) (ks : List FltKind) (p : FltKind → Bool) :
    (t.named ks).countP (fun r => p r.2) = ks.countP p := by
  rw [← t.named_snd ks, List.countP_map, t.named_snd]
  rfl

theorem IndexInv.addRear (h : s.IndexInv tooHigh) (f : IpFamily) (ks : List FltKind)
    (hks : ∀ k ∈ ks, ∀ filter_hdl, k ≠ .modem filter_hdl)
    (htable : s'.table = update s.table f ((s.table f).addRear ks))
    (hcount : s'.flt_rule_count =
      update s.flt_rule_count f (s.flt_rule_count f + (ks.countP FltKind.isCounted : Nat)))
    (hset : s'.modem_ul_set = s.modem_ul_set)
    (hul : s'.wan_ul_fl_rule_hdl = s.wan_ul_fl_rule_hdl)
    (hsw : s'.software_routing_fl_rule_hdl = s.software_routing_fl_rule_hdl) :
    s'.IndexInv tooHigh := by
  -- a family that is not `f` is as before
  have hother : ∀ {g}, g ≠ f →
      s'.table g = s.table g ∧ s'.flt_rule_count g = s.flt_rule_count g := by
    intro g hg
    rw [htable, hcount, update_of_ne hg, update_of_ne hg]
    exact ⟨rfl, rfl⟩
  have hself : s'.table f = (s.table f).addRear ks := by rw [htable, update_self]
  have hold : ∀ {g r}, r ∈ (s'.table g).rules →
      r ∈ (s.table g).rules ∨ (s.table g).next ≤ r.1 ∧ r.2 ∈ ks := by
    intro g r hr
    by_cases hg : g = f
    · subst hg
      rw [hself, RuleTable.addRear_rules, List.mem_append] at hr
      refine hr.imp_right fun hr => ?_
      have := (s.table g).mem_named ks hr
      exact ⟨this.1, this.2.2⟩
    · rw [(hother hg).1] at hr
      exact .inl hr
  refine ⟨?_, ?_, ?_, ?_, ?_⟩
  · intro g hg
    rw [← h.drift g (hset ▸ hg)]
    by_cases hgf : g = f
    · subst hgf
      rw [Lan.drift, Lan.drift, counted, counted, hself, hcount, update_self,
        RuleTable.addRear_rules, List.countP_append, countP_named (s.table g) ks FltKind.isCounted]
      omega
    · rw [Lan.drift, Lan.drift, counted, counted, (hother hgf).1, (hother hgf).2]
  · intro g r hr filter_hdl hmodem
    rw [hul]
    rcases hold hr with hr | ⟨-, hk⟩
    · exact h.modem g r hr filter_hdl hmodem
    · exact absurd hmodem (hks _ hk filter_hdl)
  · rw [hset, hul]
    exact h.cleared
  · intro g r hr heq
    rw [hsw] at heq
    rcases hold hr with hr | ⟨hlt, -⟩
    · exact h.sw g r hr heq
    · have := h.sw_lt g
      omega
  · intro g
    have hlt := h.sw_lt g
    rw [hsw]
    by_cases hg : g = f
    · subst hg
      rw [hself, RuleTable.addRear_next]
      omega
    · rwa [(hother hg).1]

/-! ## The functions of the interface -/

theorem handle_wan_up_index (h : s.IndexInv tooHigh) (i : LanInput) (f : IpFamily) :
    (s.handle_wan_up i f).IndexInv tooHigh := by
  unfold handle_wan_up
  split
  · exact h
  · split
    · exact h
    · exact h.addRear f [.staDefault] (by simp) rfl (by simp [FltKind.isCounted]) rfl rfl rfl

theorem addSwRouting_index (h : s.IndexInv tooHigh) (f : IpFamily) :
    (s.addSwRouting f).IndexInv tooHigh := by
  have hrules : ∀ {g r}, r ∈ ((s.addSwRouting f).table g).rules →
      r ∈ (s.table g).rules ∨ g = f ∧ r = ((s.table f).next, .swRouting) := by
    intro g r hr
    by_cases hg : g = f
    · subst hg
      simp only [addSwRouting, update_self, RuleTable.addFront_rules, List.mem_append] at hr
      refine hr.symm.imp_right fun hr => ⟨rfl, ?_⟩
      simpa [RuleTable.named, RuleTable.fresh] using hr
    · simp only [addSwRouting, update_of_ne hg] at hr
      exact .inl hr
  refine ⟨fun g hg => ?_, fun g r hr filter_hdl hmodem => ?_, h.cleared, fun g r hr heq => ?_, ?_⟩
  · rw [← h.drift g hg]
    by_cases hgf : g = f
    · subst hgf
      simp [Lan.drift, counted, addSwRouting, RuleTable.named, RuleTable.fresh, FltKind.isCounted]
    · simp [Lan.drift, counted, addSwRouting, update_of_ne hgf]
  · rcases hrules hr with hr | ⟨-, rfl⟩
    · exact h.modem g r hr filter_hdl hmodem
    · cases hmodem
  · rcases hrules hr with hold | ⟨-, rfl⟩
    · by_cases hg : g = f
      · subst hg
        have := ((s.table g).range r hold).2
        simp only [addSwRouting, update_self] at heq
        omega
      · simp only [addSwRouting, update_of_ne hg] at heq
        exact h.sw g r hold heq
    · rfl
  · intro g
    by_cases hg : g = f
    · subst hg
      simp [addSwRouting]
    · simpa [addSwRouting, update_of_ne hg] using h.sw_lt g

theorem handle_software_routing_enable_index (h : s.IndexInv tooHigh) (i : LanInput) :
    (s.handle_software_routing_enable i).IndexInv tooHigh := by
  unfold handle_software_routing_enable
  split
  · exact h
  split
  · exact h
  · split
    · exact h
    · dsimp only
      split
      · exact addSwRouting_index h .v4
      · exact (addSwRouting_index (addSwRouting_index h .v4) .v6).congr rfl rfl rfl rfl rfl

theorem deleteFilteringHdls_some (i : LanInput) (call : FltCall) (f : IpFamily) (cnt : Nat)
    (hdls : List Nat) (s : Lan) :
    ∃ ok t, s.deleteFilteringHdls i call f cnt hdls = (ok, s.setTable f t) ∧
      t.next = (s.table f).next ∧ ∃ del ⊆ hdls, t.rules = (s.table f).rules.filter (·.1 ∉ del) ∧
        (ok = true → ∀ r ∈ (s.table f).rules, r.1 ∈ hdls → r.1 ∈ del) := by
  induction hdls generalizing cnt s with
  | nil =>
    refine ⟨true, s.table f, ?_, rfl, [], by simp, by simp, by simp⟩
    simp [deleteFilteringHdls, setTable]
  | cons hdl hdls ih =>
    rw [deleteFilteringHdls]
    by_cases hzero : hdl = 0
    · rw [if_pos hzero]
      obtain ⟨ok, t, ht, hnext, del, hdel, hrules, hall⟩ := ih (cnt + 1) s
      refine ⟨ok, t, ht, hnext, del, fun x hx => List.mem_cons_of_mem _ (hdel hx), hrules, ?_⟩
      intro hok r hr hmem
      have := ((s.table f).range r hr).1
      rcases List.mem_cons.1 hmem with heq | hmem
      · omega
      · exact hall hok r hr hmem
    · rw [if_neg hzero]
      split
      · refine ⟨false, s.table f, by simp [setTable], rfl, [], by simp, by simp, ?_⟩
        exact fun hok => absurd hok Bool.false_ne_true
      obtain ⟨ok, t, ht, hnext, del, hdel, hrules, hall⟩ :=
        ih (cnt + 1) (s.setTable f ((s.table f).delete hdl))
      have hdelete : ((s.setTable f ((s.table f).delete hdl)).table f).rules =
          (s.table f).rules.filter (·.1 ≠ hdl) := by simp [setTable]
      rw [hdelete] at hrules hall
      refine ⟨ok, t, ht.trans (by simp [setTable]), hnext.trans (by simp [setTable]), hdl :: del,
        List.cons_subset_cons _ hdel, ?_, fun hok r hr hmem => ?_⟩
      · simp [hrules, List.filter_filter, Bool.and_comm]
      · by_cases heq : r.1 = hdl
        · exact heq ▸ List.mem_cons_self ..
        · refine List.mem_cons_of_mem _ (hall hok r (List.mem_filter.2 ⟨hr, by simpa⟩) ?_)
          exact (List.mem_cons.1 hmem).resolve_left heq

theorem setTable_self (s : Lan) (f : IpFamily) (t : RuleTable FltKind) :
    (s.setTable f t).table f = t := update_self ..

theorem setTable_of_ne (s : Lan) (t : RuleTable FltKind) (hg : g ≠ f) :
    (s.setTable f t).table g = s.table g := update_of_ne hg ..

section

variable (h : s.IndexInv tooHigh)
include h

theorem IndexInv.retarget {tooHigh' : IpFamily → Int}
    (heq : ∀ f, s.modem_ul_set f = false → s.drift f = tooHigh' f) : s.IndexInv tooHigh' :=
  { h with drift := heq }

theorem IndexInv.shrink (f : IpFamily) {t : RuleTable FltKind}
    {del : List Nat} (hrules : t.rules = (s.table f).rules.filter (·.1 ∉ del))
    (hnext : t.next = (s.table f).next) :
    (s.setTable f t).IndexInv (update tooHigh f ((s.setTable f t).drift f)) := by
  have hmem : ∀ {g r}, r ∈ ((s.setTable f t).table g).rules → r ∈ (s.table g).rules := by
    intro g r hr
    by_cases hg : g = f
    · subst hg
      rw [setTable_self, hrules] at hr
      exact List.mem_of_mem_filter hr
    · rwa [setTable_of_ne s t hg] at hr
  refine ⟨fun g hg => ?_, fun g r hr => h.modem g r (hmem hr), h.cleared,
    fun g r hr => h.sw g r (hmem hr), fun g => ?_⟩
  · by_cases hgf : g = f
    · subst hgf
      rw [update_self]
    · rw [update_of_ne hgf, ← h.drift g hg, Lan.drift, Lan.drift, counted, counted,
        setTable_of_ne s t hgf]
      rfl
  · by_cases hg : g = f
    · subst hg
      rw [setTable_self, hnext]
      exact h.sw_lt g
    · rw [setTable_of_ne s t hg]
      exact h.sw_lt g

theorem deleteSwRouting_index (i : LanInput) (f : IpFamily) :
    (s.deleteFilteringHdls i (.swRouting f) f 0 [s.software_routing_fl_rule_hdl f]).2.IndexInv
      tooHigh := by
  obtain ⟨ok, t, ht, hnext, del, hdel, hrules, -⟩ :=
    deleteFilteringHdls_some i (.swRouting f) f 0 [s.software_routing_fl_rule_hdl f] s
  have hcounted : (s.setTable f t).counted f = s.counted f := by
    rw [counted, counted, setTable_self, hrules, List.countP_filter]
    refine List.countP_congr fun r hr => ?_
    simp only [Bool.and_eq_true, decide_eq_true_eq, and_iff_left_iff_imp]
    intro hkind hr'
    rw [h.sw f r hr (List.mem_singleton.1 (hdel hr'))] at hkind
    cases hkind
  rw [ht]
  refine (h.shrink f hrules hnext).retarget fun g hg => ?_
  rw [(h.shrink f hrules hnext).drift g hg]
  by_cases hgf : g = f
  · subst hgf
    rw [update_self, ← h.drift g hg, Lan.drift, Lan.drift, hcounted]
    rfl
  · rw [update_of_ne hgf]

theorem handle_software_routing_disable_index (i : LanInput) :
    (s.handle_software_routing_disable i).IndexInv tooHigh := by
  unfold handle_software_routing_disable
  split
  · exact h
  split
  · exact h
  have h₄ := deleteSwRouting_index h i .v4
  split
  · next s₄ heq => rwa [heq] at h₄
  · next s₄ heq =>
    rw [heq] at h₄
    have h₆ := deleteSwRouting_index h₄ i .v6
    split
    · next s₆ heq => rwa [heq] at h₆
    · next s₆ heq =>
      rw [heq] at h₆
      exact h₆.congr rfl rfl rfl rfl rfl

/-! ## WAN goes down -/

theorem resetCount_index (f : IpFamily) : (s.resetCount f).IndexInv
      (update tooHigh f (countAfterDown f - (s.resetCount f).counted f)) := by
  refine ⟨fun g hg => ?_, h.modem, h.cleared, h.sw, h.sw_lt⟩
  by_cases hgf : g = f
  · subst hgf
    simp [Lan.drift, resetCount]
  · rw [update_of_ne hgf, ← h.drift g hg]
    simp [Lan.drift, resetCount, update_of_ne hgf, counted]

theorem deleteUplink_index (i : LanInput) (f : IpFamily) (hs' : s.deleteUplink i f = .ok s') :
    s'.IndexInv (update tooHigh f (s'.drift f)) ∧ s'.flt_rule_count = s.flt_rule_count := by
  have hself : s.IndexInv (update tooHigh f (s.drift f)) := by
    refine h.retarget fun g hg => ?_
    by_cases hgf : g = f
    · subst hgf
      rw [update_self]
    · rw [update_of_ne hgf, h.drift g hg]
  unfold deleteUplink at hs'
  split at hs'
  · split at hs'
    · cases hs'
      exact ⟨hself, rfl⟩
    · obtain ⟨ok, t, ht, hnext, del, hdel, hrules, hall⟩ :=
        deleteFilteringHdls_some i .uplink f 0 (s.wan_ul_fl_rule_hdl f) s
      have hshrink := h.shrink f hrules hnext
      rw [ht] at hs'
      cases ok with
      | false =>
        cases hs'
        exact ⟨hshrink, rfl⟩
      | true =>
        dsimp only at hs'
        split at hs'
        · cases hs'
        · cases hs'
          -- the rules of the modem are gone with their handles
          have hgone : ∀ r ∈ t.rules, ∀ filter_hdl, r.2 ≠ .modem filter_hdl := by
            intro r hr filter_hdl hmodem
            rw [hrules] at hr
            obtain ⟨hr, hne⟩ := List.mem_filter.1 hr
            exact of_decide_eq_true hne (hall rfl r hr (h.modem f r hr filter_hdl hmodem))
          refine ⟨⟨fun g hg => ?_, fun g r hr filter_hdl hmodem => ?_, fun g hg => ?_,
            hshrink.sw, hshrink.sw_lt⟩, rfl⟩
          · by_cases hgf : g = f
            · subst hgf
              rw [update_self]
            · simp only [update_of_ne hgf] at hg ⊢
              have hdrift := hshrink.drift g hg
              rwa [update_of_ne hgf] at hdrift
          · by_cases hgf : g = f
            · subst hgf
              have hr' : r ∈ ((s.setTable g t).table g).rules := hr
              rw [setTable_self] at hr'
              exact absurd hmodem (hgone r hr' filter_hdl)
            · simp only [update_of_ne hgf]
              exact hshrink.modem g r hr filter_hdl hmodem
          · by_cases hgf : g = f
            · subst hgf
              simp only [update_self]
            · simp only [update_of_ne hgf] at hg ⊢
              exact hshrink.cleared g hg
  · split at hs'
    · cases hs'
    · next hdl _ =>
      obtain ⟨ok, t, ht, hnext, del, hdel, hrules, -⟩ :=
        deleteFilteringHdls_some i .staDefault f 0 [hdl] s
      rw [ht] at hs'
      cases hs'
      exact ⟨h.shrink f hrules hnext, rfl⟩

theorem handleWanDownTether_index (i : LanInput) (f : IpFamily)
    (hhas : s.ip_type.has f = true) (hs' : s.handleWanDownTether i f = .ok s') :
    s'.IndexInv (update tooHigh f (countAfterDown f - s'.counted f)) := by
  have hreset := resetCount_index h f
  have hcount : (s.resetCount f).flt_rule_count f = countAfterDown f := update_self ..
  -- what the last deletion leaves is what the formula is compared with
  have hlast : ∀ {s₁ : Lan}, s₁.flt_rule_count = (s.resetCount f).flt_rule_count →
      s₁.IndexInv (update tooHigh f (s₁.drift f)) →
        s₁.IndexInv (update tooHigh f (countAfterDown f - s₁.counted f)) := by
    intro s₁ heq h₁
    rwa [Lan.drift, heq, hcount] at h₁
  unfold handleWanDownTether at hs'
  rw [if_pos hhas] at hs'
  cases f with
  | v4 =>
    obtain ⟨h₁, heq⟩ := deleteUplink_index hreset i .v4 hs'
    rw [update_idem] at h₁
    exact hlast heq h₁
  | v6 =>
    simp only [handle_wan_down_v6] at hs'
    obtain ⟨ok, t, ht, hnext, del, -, hrules, -⟩ := deleteFilteringHdls_some i .ipv6Prefix .v6 0
      [s.ipv6_prefix_flt_rule_hdl] (s.resetCount .v6)
    have hprefix := hreset.shrink .v6 hrules hnext
    rw [ht] at hs'
    cases ok with
    | false =>
      cases hs'
      rw [update_idem] at hprefix
      exact hlast rfl hprefix
    | true =>
      obtain ⟨h₁, heq⟩ := deleteUplink_index hprefix i .v6 hs'
      rw [update_idem, update_idem] at h₁
      exact hlast heq h₁

end

/-! ## The rules of the modem -/

/-- **The indices are right** just if the counter is the number of rules. -/
theorem right_iff (f : IpFamily) (c : Int) (t : RuleTable FltKind) {prop : List UInt32}
    (hprop : prop ≠ []) :
    IndexReport.Right ⟨f, prop.mapIdx fun cnt filter_hdl => (c + cnt, filter_hdl),
      t.fresh prop.length, t.addRear (prop.map .modem)⟩ ↔ c = t.rules.length := by
  have hplace : ∀ {k filter_hdl}, prop[k]? = some filter_hdl →
      (t.addRear (prop.map .modem)).rules[t.rules.length + k]? =
        some (t.next + k, .modem filter_hdl) := by
    intro k filter_hdl hk
    exact t.getElem?_addRear _ (by simp [hk])
  constructor
  · intro hright
    obtain ⟨filter_hdl, rest, rfl⟩ := List.exists_cons_of_ne_nil hprop
    obtain ⟨hdl, hhdl, hpos, hat⟩ := hright 0 c filter_hdl (by simp)
    have hfirst := @hplace 0 filter_hdl rfl
    have hhdl' : hdl = t.next := by
      have := t.getElem?_fresh (n := (filter_hdl :: rest).length) (i := 0) (by simp)
      rw [this] at hhdl
      exact (Option.some.inj hhdl).symm
    have hidx := RuleTable.index_unique _ hat hfirst hhdl'
    omega
  · rintro rfl k idx filter_hdl hk
    have hk' : (∃ h : k < prop.length, prop[k] = filter_hdl) ∧ (t.rules.length : Int) + k = idx := by
      simpa [List.getElem?_eq_some_iff] using hk
    obtain ⟨⟨hlt, hget⟩, rfl⟩ := hk'
    refine ⟨t.next + k, t.getElem?_fresh hlt, by omega, ?_⟩
    exact hplace (List.getElem?_eq_some_iff.2 ⟨hlt, hget⟩)

/-- What the events do before the rules of the modem: the counter follows. -/
structure Counts (s s' : Lan) : Prop where
  index : ∀ {tooHigh}, s.IndexInv tooHigh → s'.IndexInv tooHigh
  uncounted : ∀ f, s'.uncounted f = s.uncounted f
  set : s'.modem_ul_set = s.modem_ul_set
  rx_prop : s'.rx_prop = s.rx_prop

namespace Counts

theorem refl (s : Lan) : Counts s s := ⟨fun h => h, fun _ => rfl, rfl, rfl⟩

theorem trans {s₁ s₂ s₃ : Lan} (h : Counts s₁ s₂) (h' : Counts s₂ s₃) : Counts s₁ s₃ where
  index hs := h'.index (h.index hs)
  uncounted f := (h'.uncounted f).trans (h.uncounted f)
  set := h'.set.trans h.set
  rx_prop := h'.rx_prop.trans h.rx_prop

end Counts

theorem Counts.addRear (f : IpFamily) (ks : List FltKind) (hks : ∀ k ∈ ks, k.isCounted = true)
    (htable : s'.table = update s.table f ((s.table f).addRear ks))
    (hcount : s'.flt_rule_count =
      update s.flt_rule_count f (s.flt_rule_count f + ks.length))
    (hset : s'.modem_ul_set = s.modem_ul_set)
    (hul : s'.wan_ul_fl_rule_hdl = s.wan_ul_fl_rule_hdl)
    (hsw : s'.software_routing_fl_rule_hdl = s.software_routing_fl_rule_hdl)
    (hrx : s'.rx_prop = s.rx_prop) : Counts s s' := by
  refine ⟨fun h => h.addRear f ks ?_ htable ?_ hset hul hsw, fun g => ?_, hset, hrx⟩
  · rintro k hk filter_hdl rfl
    cases hks _ hk
  · rw [hcount, List.countP_eq_length.2 hks]
  · rw [Lan.uncounted, Lan.uncounted, htable]
    by_cases hg : g = f
    · subst hg
      have hnone : (ks.countP fun k => !k.isCounted) = 0 := by
        refine List.countP_eq_zero.2 fun k hk => ?_
        simp [hks k hk]
      rw [update_self, RuleTable.addRear_rules, List.countP_append,
        countP_named (s.table g) ks (!·.isCounted), hnone, Nat.add_zero]
    · rw [update_of_ne hg]

theorem addCounted_counts (s : Lan) (i : LanInput) (call : FltCall) (f : IpFamily)
    {kind : FltKind} (hkind : kind.isCounted = true) (n : Nat) : Counts s (s.addCounted i call f kind n) := by
  unfold addCounted
  split
  · exact .refl s
  · split
    · exact .refl s
    · refine Counts.addRear f (List.replicate n kind) (fun k hk => ?_) rfl ?_ rfl rfl rfl rfl
      · rw [List.eq_of_mem_replicate hk, hkind]
      · simp [count, setTable]

theorem install_ipv6_prefix_counts (s : Lan) (i : LanInput) :
    Counts s (s.install_ipv6_prefix_flt_rule i) := by
  unfold install_ipv6_prefix_flt_rule
  split
  · exact .refl s
  · split
    · exact .refl s
    · exact Counts.addRear .v6 [.ipv6Prefix] (by simp [FltKind.isCounted]) rfl (by simp) rfl rfl rfl
        rfl

theorem init_fl_rule_counts (s : Lan) (i : LanInput) (f : IpFamily) :
    Counts s (s.init_fl_rule i f) := by
  unfold init_fl_rule
  split
  · exact .refl s
  · have htype : Counts s { s with ip_type := s.ip_type.add f } :=
      ⟨fun h => h.congr rfl rfl rfl rfl rfl, fun _ => rfl, rfl, rfl⟩
    exact htype.trans (addCounted_counts _ i _ _ rfl _)

theorem handle_private_subnet_counts (s : Lan) (i : LanInput) (f : IpFamily) :
    Counts s (s.handle_private_subnet i f) := by
  cases f with
  | v4 => exact addCounted_counts s i _ _ rfl _
  | v6 => exact .refl s

variable {ipv6_addr : BitVec 128}

theorem handle_addr_evt_counts {ok : Bool} (hs' : s.handle_addr_evt i f ipv6_addr = .ok (ok, s')) :
    Counts s s' := by
  unfold handle_addr_evt at hs'
  cases f with
  | v4 =>
    cases hs'
    exact (init_fl_rule_counts s i .v4).trans (addCounted_counts _ i _ _ rfl _)
  | v6 =>
    dsimp only at hs'
    split at hs'
    · cases hs'
      exact .refl s
    · split at hs'
      · cases hs'
      · cases hs'
        have hrules : Counts s (if s.ipv6_addr = [] then
            (s.add_dummy_lan2lan_flt_rule i .v6).init_fl_rule i .v6 else s) := by
          split
          · exact (addCounted_counts s i _ _ rfl _).trans (init_fl_rule_counts _ i .v6)
          · exact .refl s
        exact hrules.trans ⟨fun h => h.congr rfl rfl rfl rfl rfl, fun _ => rfl, rfl, rfl⟩

/-! ## The events -/

/-- What an event does that is no WAN-down: the invariant is kept, and the indices that are sent are
    right just if the rules that are not counted are as many as the counter has too much. -/
structure Reports (s : Lan) (i : LanInput) (s' : Lan) (reports : List IndexReport) : Prop where
  index : ∀ {tooHigh}, s.IndexInv tooHigh → s'.IndexInv tooHigh
  right : ∀ {tooHigh}, s.IndexInv tooHigh → ∀ r ∈ reports, s.Installs i r.family ∧
    (r.Right ↔ (s.uncounted r.family : Int) = tooHigh r.family)

theorem IndexInv.setModem (h : s.IndexInv tooHigh) (f : IpFamily)
    (hother : ∀ g, g ≠ f → s'.table g = s.table g ∧ s'.flt_rule_count g = s.flt_rule_count g ∧
      s'.modem_ul_set g = s.modem_ul_set g ∧ s'.wan_ul_fl_rule_hdl g = s.wan_ul_fl_rule_hdl g)
    (hset : s'.modem_ul_set f = true)
    (hrules : ∀ r ∈ (s'.table f).rules,
      r ∈ (s.table f).rules ∨ (s.table f).next ≤ r.1 ∧ r.1 ∈ s'.wan_ul_fl_rule_hdl f)
    (hul : s.wan_ul_fl_rule_hdl f ⊆ s'.wan_ul_fl_rule_hdl f)
    (hnext : (s.table f).next ≤ (s'.table f).next)
    (hsw : s'.software_routing_fl_rule_hdl = s.software_routing_fl_rule_hdl) :
    s'.IndexInv tooHigh := by
  refine ⟨fun g hg => ?_, fun g r hr filter_hdl hmodem => ?_, fun g hg => ?_, fun g r hr heq => ?_,
    fun g => ?_⟩ <;> by_cases hgf : g = f
  · subst hgf
    rw [hset] at hg
    cases hg
  · obtain ⟨htable, hcount, hset', -⟩ := hother g hgf
    rw [Lan.drift, Lan.counted, htable, hcount]
    exact h.drift g (hset' ▸ hg)
  · subst hgf
    rcases hrules r hr with hr | ⟨-, hr⟩
    · exact hul (h.modem g r hr filter_hdl hmodem)
    · exact hr
  · obtain ⟨htable, -, -, hul'⟩ := hother g hgf
    rw [htable] at hr
    rw [hul']
    exact h.modem g r hr filter_hdl hmodem
  · subst hgf
    rw [hset] at hg
    cases hg
  · obtain ⟨-, -, hset', hul'⟩ := hother g hgf
    rw [hul']
    exact h.cleared g (hset' ▸ hg)
  · subst hgf
    rw [hsw] at heq
    rcases hrules r hr with hr | ⟨hr, -⟩
    · exact h.sw g r hr heq
    · have := h.sw_lt g
      omega
  · rw [(hother g hgf).1] at hr
    rw [hsw] at heq
    exact h.sw g r hr heq
  · subst hgf
    have := h.sw_lt g
    rw [hsw]
    omega
  · rw [(hother g hgf).1, hsw]
    exact h.sw_lt g

theorem storeHdls_ok {hdls : List Nat} (hs' : storeHdls f hdls s = .ok s') :
    s' = { s with
      wan_ul_fl_rule_hdl :=
        update s.wan_ul_fl_rule_hdl f (s.wan_ul_fl_rule_hdl f ++ hdls) } := by
  induction hdls generalizing s with
  | nil =>
    cases hs'
    simp
  | cons hdl hdls ih =>
    rw [storeHdls] at hs'
    split at hs'
    · simpa using ih hs'
    · cases hs'

variable {reports : List IndexReport}

/-- The rules of the modem are installed, or they are not: the family is done with. -/
theorem handle_wan_up_ex_reports (hs' : s.handle_wan_up_ex i f = .ok (s', reports)) :
    (∀ {tooHigh}, s.IndexInv tooHigh → s'.IndexInv tooHigh) ∧
      ∀ {tooHigh}, s.IndexInv tooHigh → ∀ r ∈ reports, r.family = f ∧
        ((f = .v6 → s.ipv6_addr.length = 1) ∧ s.rx_prop = true ∧
          (i.ext_prop f).filter_hdl ≠ [] ∧ s.modem_ul_set f = false ∧ i.answers.send = true ∧
          i.answers.add .uplink = true) ∧
        (r.Right ↔ (s.uncounted f : Int) = tooHigh f) := by
  unfold handle_wan_up_ex at hs'
  split at hs'
  · next hcond =>
    obtain ⟨hone, hset⟩ := hcond
    simp only [handle_uplink_filter_rule] at hs'
    have hsame : ∀ {s₁ : Lan} {tooHigh}, s₁.table = s.table →
        s₁.wan_ul_fl_rule_hdl = s.wan_ul_fl_rule_hdl → s₁.modem_ul_set = s.modem_ul_set →
        (∀ g, g ≠ f → s₁.flt_rule_count g = s.flt_rule_count g) →
        s₁.software_routing_fl_rule_hdl = s.software_routing_fl_rule_hdl → s.IndexInv tooHigh →
        { s₁ with modem_ul_set := update s₁.modem_ul_set f true }.IndexInv tooHigh := by
      intro s₁ tooHigh htable hul hset₁ hcount hsw h
      refine h.setModem f (fun g hg => ⟨?_, hcount g hg, ?_, ?_⟩) ?_ ?_ ?_ ?_ hsw
      · rw [htable]
      · simp only [update_of_ne hg, hset₁]
      · rw [hul]
      · simp only [update_self]
      · exact fun r hr => .inl (htable ▸ hr)
      · rw [hul]
        exact List.Subset.refl _
      · rw [htable]
    split at hs'
    · cases hs'
      exact ⟨hsame rfl rfl rfl (fun _ _ => rfl) rfl, by simp⟩
    · next hrx =>
      split at hs'
      · cases hs'
        exact ⟨hsame rfl rfl rfl (fun _ _ => rfl) rfl, by simp⟩
      · next hprop =>
        have hcount : ∀ g, g ≠ f → (s.count f (i.ext_prop f).filter_hdl.length).flt_rule_count g =
            s.flt_rule_count g := fun g hg => update_of_ne hg ..
        split at hs'
        · cases hs'
          exact ⟨hsame rfl rfl rfl hcount rfl, by simp⟩
        · next hsend =>
          split at hs'
          · cases hs'
            exact ⟨hsame rfl rfl rfl hcount rfl, by simp⟩
          · next hadd =>
            obtain ⟨⟨s₁, reports₁⟩, hs₁, hs'⟩ := bind_eq_ok hs'
            obtain ⟨s₂, hstore, hs₁⟩ := bind_eq_ok hs₁
            cases hs₁
            cases hs'
            obtain rfl := storeHdls_ok hstore
            refine ⟨fun h => h.setModem f (fun g hg => ⟨?_, ?_, ?_, ?_⟩) ?_ ?_ ?_ ?_ rfl,
              fun {tooHigh} h r hr => ?_⟩
            · exact setTable_of_ne _ _ hg
            · exact hcount g hg
            · exact update_of_ne hg ..
            · exact update_of_ne hg ..
            · exact update_self ..
            · intro r hr
              simp only [setTable_self, RuleTable.addRear_rules, List.mem_append] at hr
              refine hr.imp_right fun hr => ?_
              have hnamed := RuleTable.mem_named _ _ hr
              refine ⟨hnamed.1, ?_⟩
              simp only [update_self]
              refine List.mem_append_right _ ((RuleTable.mem_fresh _).2 ⟨hnamed.1, ?_⟩)
              simpa using hnamed.2.1
            · simp only [update_self]
              exact List.subset_append_left ..
            · simp only [setTable_self, RuleTable.addRear_next]
              exact Nat.le_add_right ..
            · obtain rfl := List.mem_singleton.1 hr
              refine ⟨rfl, ⟨hone, ?_, hprop, hset, ?_, ?_⟩, ?_⟩
              · simpa using hrx
              · simpa using hsend
              · simpa using hadd
              · -- the counter is what it counts and what it has too much
                have hdrift := h.drift f hset
                have hlen := length_rules s f
                rw [Lan.drift] at hdrift
                refine (right_iff f _ (s.table f) hprop).trans ?_
                omega
  · cases hs'
    exact ⟨fun h => h, by simp⟩

/-- The same for what leads to the rules of the modem, with or without them. -/
structure UplinkReports (s : Lan) (i : LanInput) (f : IpFamily) (s' : Lan)
    (reports : List IndexReport) : Prop where
  index : ∀ {tooHigh}, s.IndexInv tooHigh → s'.IndexInv tooHigh
  right : ∀ {tooHigh}, s.IndexInv tooHigh → ∀ r ∈ reports, r.family = f ∧ i.is_sta = false ∧
    ((f = .v6 → s.ipv6_addr.length = 1) ∧ s.rx_prop = true ∧
      (i.ext_prop f).filter_hdl ≠ [] ∧ s.modem_ul_set f = false ∧ i.answers.send = true ∧
      i.answers.add .uplink = true) ∧
    (r.Right ↔ (s.uncounted f : Int) = tooHigh f)

theorem wanUp_reports {s₁ : Lan} (hc : Counts s s₁) (haddrs : s₁.ipv6_addr = s.ipv6_addr)
    (hs' : s₁.wanUp i f = .ok (s', reports)) : UplinkReports s i f s' reports := by
  unfold wanUp at hs'
  split at hs'
  · next hsta =>
    obtain ⟨hindex, hright⟩ := handle_wan_up_ex_reports hs'
    refine ⟨fun h => hindex (hc.index h), fun h r hr => ?_⟩
    obtain ⟨hf, hinst, hiff⟩ := hright (hc.index h) r hr
    rw [haddrs, hc.rx_prop, hc.set] at hinst
    rw [hc.uncounted] at hiff
    exact ⟨hf, hsta, hinst, hiff⟩
  · cases hs'
    exact ⟨fun h => handle_wan_up_index (hc.index h) i f, by simp⟩

theorem uplinkUp_reports (hs' : s.uplinkUp i f = .ok (s', reports)) :
    UplinkReports s i f s' reports := by
  cases f with
  | v4 => exact wanUp_reports (.refl s) rfl hs'
  | v6 =>
    refine wanUp_reports (install_ipv6_prefix_counts s i) ?_ hs'
    unfold install_ipv6_prefix_flt_rule
    split
    · rfl
    · split <;> rfl

theorem handleWanUpTether_reports (hevent : i.event = .wanUp f)
    (hs' : s.handleWanUpTether i f = .ok (s', reports)) : Reports s i s' reports := by
  unfold handleWanUpTether at hs'
  split at hs'
  · next hhas =>
    obtain ⟨hindex, hright⟩ := uplinkUp_reports hs'
    refine ⟨hindex, fun h r hr => ?_⟩
    obtain ⟨rfl, hsta, ⟨hone, hrx, hprop, hset, hsend, hadd⟩, hiff⟩ := hright h r hr
    refine ⟨⟨⟨hrx, hsta, hprop, hset, hsend, hadd⟩, ?_⟩, hiff⟩
    rw [hevent]
    exact ⟨rfl, hhas, hone⟩
  · cases hs'
    exact ⟨fun h => h, by simp⟩

theorem handle_addr_evt_addrs (hs' : s.handle_addr_evt i .v6 ipv6_addr = .ok (true, s')) :
    s'.ipv6_addr = s.ipv6_addr ++ [ipv6_addr] := by
  simp only [handle_addr_evt] at hs'
  split at hs'
  · cases hs'
  · split at hs'
    · cases hs'
    · cases hs'
      rfl

theorem newAddr_reports {ok : Bool} {ipv4_addr : BitVec 32}
    (hevent : i.event = .addrAdd f ipv4_addr ipv6_addr)
    (hno : Wan.noAddr f ipv4_addr ipv6_addr = false) (hacc : s.accepts f = true)
    (hs' : s.newAddr i f ipv6_addr = .ok (ok, s', reports)) : Reports s i s' reports := by
  unfold newAddr at hs'
  dsimp only at hs'
  have hicmp : Counts s
      (if f = .v6 ∧ s.ipv6_addr = [] then s.install_ipv6_icmp_flt_rule i else s) := by
    split
    · exact addCounted_counts s i _ _ rfl _
    · exact .refl s
  have haddrs : (if f = .v6 ∧ s.ipv6_addr = [] then s.install_ipv6_icmp_flt_rule i
      else s).ipv6_addr = s.ipv6_addr := by
    split
    · exact (addCounted_keeps s i _ _ _ rfl _).ipv6_addr
    · rfl
  obtain ⟨⟨ok₁, s₁⟩, hs₁, hs'⟩ := bind_eq_ok hs'
  have hcounts := (hicmp.trans (handle_addr_evt_counts hs₁)).trans
    (handle_private_subnet_counts s₁ i f)
  split at hs'
  · simp only [Except.ok.injEq, Prod.mk.injEq] at hs'
    obtain ⟨-, rfl, rfl⟩ := hs'
    exact ⟨(hicmp.trans (handle_addr_evt_counts hs₁)).index, by simp⟩
  · next hok =>
    split at hs'
    · next hup =>
      obtain ⟨⟨s₂, reports₂⟩, hs₂, hs'⟩ := bind_eq_ok hs'
      obtain ⟨-, rfl, rfl⟩ := hs'
      obtain ⟨hindex, hright⟩ := uplinkUp_reports hs₂
      refine ⟨fun h => hindex (hcounts.index h), fun h r hr => ?_⟩
      obtain ⟨rfl, hsta, ⟨hone, hrx, hprop, hset, hsend, hadd⟩, hiff⟩ :=
        hright (hcounts.index h) r hr
      rw [hcounts.rx_prop] at hrx
      rw [hcounts.set] at hset
      rw [hcounts.uncounted] at hiff
      refine ⟨⟨⟨hrx, hsta, hprop, hset, hsend, hadd⟩, ?_⟩, hiff⟩
      rw [hevent]
      refine ⟨rfl, hno, hup.1, ?_⟩
      -- it is the first address of its family
      cases hf : r.family with
      | v4 => simpa [accepts, hf] using hacc
      | v6 =>
        rw [hf] at hs₁ hup
        have hlen := hup.2 rfl
        obtain rfl : ok₁ = true := by simpa using hok
        rw [hf] at haddrs
        rw [(handle_private_subnet_keeps s₁ i .v6).ipv6_addr, handle_addr_evt_addrs hs₁,
          haddrs] at hlen
        rw [if_pos rfl]
        simpa using hlen
    · simp only [Except.ok.injEq, Prod.mk.injEq] at hs'
      obtain ⟨-, rfl, rfl⟩ := hs'
      exact ⟨hcounts.index, by simp⟩

theorem addrAdd_reports {ipv4_addr : BitVec 32} (hevent : i.event = .addrAdd f ipv4_addr ipv6_addr)
    (hs' : s.addrAdd i f ipv4_addr ipv6_addr = .ok (s', reports)) : Reports s i s' reports := by
  unfold addrAdd at hs'
  split at hs'
  · cases hs'
    exact ⟨fun h => h, by simp⟩
  · next hno =>
    -- software routing may be enabled after the rules of the modem
    have hend : ∀ {s₁ : Lan} {reports₁ : List IndexReport} {goOn : Bool},
        Reports s i s₁ reports₁ → (if goOn = true ∧ i.ipa_sw_rt_enable = true then
          .ok (s₁.handle_software_routing_enable i, reports₁) else .ok (s₁, reports₁) :
            Except Fault (Lan × List IndexReport)) = .ok (s', reports) →
          Reports s i s' reports := by
      intro s₁ reports₁ goOn hnew hs'
      split at hs' <;> cases hs'
      · exact ⟨fun h => handle_software_routing_enable_index (hnew.index h) i, hnew.right⟩
      · exact hnew
    split at hs'
    · next hacc =>
      obtain ⟨⟨goOn, s₁, reports₁⟩, hs₁, hs'⟩ := bind_eq_ok hs'
      exact hend (newAddr_reports hevent (by simpa using hno) hacc hs₁) hs'
    · exact hend ⟨fun h => h, by simp⟩ hs'

/-- **Every event** but a WAN-down. -/
theorem event_callback_reports (hdown : ∀ f, i.event ≠ .wanDown f)
    (hs' : s.event_callback i = .ok (s', reports)) : Reports s i s' reports := by
  unfold event_callback at hs'
  split at hs'
  · next hevent => exact addrAdd_reports hevent hs'
  · next hevent => exact handleWanUpTether_reports hevent hs'
  · next f hevent => exact absurd hevent (hdown f)
  · cases hs'
    exact ⟨fun h => handle_software_routing_enable_index h i, by simp⟩
  · cases hs'
    exact ⟨fun h => handle_software_routing_disable_index h i, by simp⟩

end Lan

/-! ## The runs -/

/-- An interface, and how many of the rules that are counted the last WAN-down of a family left. -/
structure IndexWorld where
  lan : Lan := {}
  left : IpFamily → Option Nat := fun _ => none

namespace IndexWorld

/-- One event, with what its handler looks at and what the driver answers. -/
def step (w : IndexWorld) (i : LanInput) : Except Fault (IndexWorld × List IndexReport) := do
  let (lan, reports) ← w.lan.event_callback i
  let left := match i.event with
    | .wanDown f =>
      if w.lan.ip_type.has f = true then update w.left f (some (lan.counted f))
      else w.left
    | _ => w.left
  .ok ({ lan, left }, reports)

/-- What the last WAN-down of a family set the counter too high. -/
def tooHigh (w : IndexWorld) (f : IpFamily) : Int :=
  match w.left f with
  | none => 0
  | some n => Lan.countAfterDown f - n

/-- As rules of the modem are installed, the rules that are not counted (software routing, the
    default rule of a station) are as many as the last WAN-down set the counter too high. -/
def Meets (w : IndexWorld) (i : LanInput) : Prop :=
  ∀ f, w.lan.Installs i f → (w.lan.uncounted f : Int) = w.tooHigh f

variable {w w' : IndexWorld} {i : LanInput} {reports : List IndexReport}

/-- **One event** keeps the invariant, and the indices that are sent are right if and only if the
    condition holds for their family. -/
theorem step_index (h : w.lan.IndexInv w.tooHigh) (hstep : w.step i = .ok (w', reports)) :
    w'.lan.IndexInv w'.tooHigh ∧ ∀ r ∈ reports, w.lan.Installs i r.family ∧
      (r.Right ↔ (w.lan.uncounted r.family : Int) = w.tooHigh r.family) := by
  obtain ⟨⟨lan', reports'⟩, hlan, hstep⟩ := bind_eq_ok hstep
  cases hstep
  by_cases hdown : ∃ f, i.event = .wanDown f
  · obtain ⟨f, hevent⟩ := hdown
    simp only [Lan.event_callback, hevent] at hlan
    obtain ⟨s', hs', hlan⟩ := bind_eq_ok hlan
    cases hlan
    refine ⟨?_, by simp⟩
    simp only [hevent]
    split
    · next hhas =>
      have h' := Lan.handleWanDownTether_index h i f hhas hs'
      refine h'.retarget fun g hg => ?_
      rw [h'.drift g hg]
      by_cases hgf : g = f
      · subst hgf
        simp [tooHigh]
      · simp [tooHigh, update_of_ne hgf]
    · next hhas =>
      unfold Lan.handleWanDownTether at hs'
      rw [if_neg hhas] at hs'
      cases hs'
      exact h
  · have hreports := Lan.event_callback_reports (fun f hf => hdown ⟨f, hf⟩) hlan
    refine ⟨?_, hreports.right h⟩
    have hleft : (match i.event with
        | .wanDown f => if w.lan.ip_type.has f = true then
            update w.left f (some (lan'.counted f)) else w.left
        | _ => w.left) = w.left := by
      split
      · next f hevent => exact absurd ⟨f, hevent⟩ hdown
      · rfl
    rw [hleft]
    exact hreports.index h

variable {rx_prop : Bool} {tr : List (LanInput × List IndexReport)}

theorem start_index (rx_prop : Bool) : Lan.IndexInv { rx_prop } fun _ => 0 where
  drift f _ := by simp [Lan.drift, Lan.counted, RuleTable.empty]
  modem f r hr := by simp [RuleTable.empty] at hr
  cleared f _ := rfl
  sw f r hr := by simp [RuleTable.empty] at hr
  sw_lt f := by simp [RuleTable.empty]

/-- **The indices.** In a run whose steps meet the condition, every index that the modem is told is
    the position that its rule then has. -/
theorem run_indices (run : Run step Meets { lan := { rx_prop } } tr w) :
    ∀ x ∈ tr, ∀ r ∈ x.2, r.Right := by
  refine (run.invariant (fun tr w => w.lan.IndexInv w.tooHigh ∧ ∀ x ∈ tr, ∀ r ∈ x.2, r.Right)
    ⟨start_index rx_prop, by simp⟩ ?_).2
  rintro tr w i w' reports ⟨h, hright⟩ hmeets hstep
  obtain ⟨h', hreports⟩ := step_index h hstep
  refine ⟨h', fun x hx r hr => ?_⟩
  rcases List.mem_append.1 hx with hx | hx
  · exact hright x hx r hr
  · obtain rfl := List.mem_singleton.1 hx
    obtain ⟨hinst, hiff⟩ := hreports r hr
    exact hiff.2 (hmeets r.family hinst)

instance decidableMeets (w : IndexWorld) (i : LanInput) : Decidable (w.Meets i) :=
  inferInstanceAs (Decidable (∀ f, w.lan.Installs i f → (w.lan.uncounted f : Int) = w.tooHigh f))

/-- The modem has two rules. -/
def twoRules (event : LanEvent) (n : Fin (ipaMaxPrivateSubnetEntries + 1)) : LanInput where
  event
  ext_prop _ := { filter_hdl := [7, 8] }
  ipa_num_private_subnet := n

/-- What the modem is told in a list of events, and where its rules are. -/
def told (tr : List (LanInput × List IndexReport)) : List (List (Int × UInt32) × List Nat) :=
  (tr.flatMap (·.2)).map fun r =>
    (r.sent, r.hdls.map fun hdl => r.table.rules.findIdx (·.1 = hdl))

/-- WAN comes up twice for an interface with three private subnets, and software routing in between.
    -/
def upTwice : List LanInput :=
  [twoRules (.addrAdd .v4 1 0) 3, twoRules (.wanUp .v4) 3, twoRules .swRoutingEnable 3,
    twoRules (.wanDown .v4) 3, twoRules .swRoutingDisable 3, twoRules (.wanUp .v4) 3]

theorem run_indices_upTwice :
    ∃ tr w, Run step Meets {} tr w ∧ (∀ x ∈ tr, ∀ r ∈ x.2, r.Right) ∧
      told tr = [([(9, 7), (10, 8)], [9, 10]), ([(9, 7), (10, 8)], [9, 10])] := by
  have hvalue : (exec step {} upTwice).toOption.map (fun x => told x.2) =
      some [([(9, 7), (10, 8)], [9, 10]), ([(9, 7), (10, 8)], [9, 10])] := by
    decide +kernel
  have hmeet : allMeet step (fun w i => decide (w.Meets i)) {} upTwice = true := by
    decide +kernel
  obtain ⟨w, tr, hexec, hvalue⟩ := exec_of_map hvalue
  have run := Run.of_exec_of_allMeet (C := Meets) (fun s c _ h => of_decide_eq_true h) hexec hmeet
  exact ⟨tr, w, run, run_indices run, hvalue⟩

/-- Whether the first rule of the modem is where the modem was told. -/
def firstRight (r : IndexReport) : Bool :=
  match r.sent, r.hdls with
  | (idx, filter_hdl) :: _, hdl :: _ => r.table.rules[idx.toNat]? = some (hdl, .modem filter_hdl)
  | _, _ => true

theorem firstRight_of_right {r : IndexReport} (h : r.Right) : firstRight r = true := by
  unfold firstRight
  split
  · next idx filter_hdl sent hdl hdls hsent hhdls =>
    obtain ⟨hdl', hhdl, -, hat⟩ := h 0 idx filter_hdl (by simp [hsent])
    rw [hhdls] at hhdl
    cases hhdl
    exact decide_eq_true hat
  · rfl

theorem exists_wrong (is : List LanInput) {v : List (List (Int × UInt32) × List Nat)}
    (h : (exec step {} is).toOption.map
      (fun x => (told x.2, (x.2.flatMap (·.2)).all firstRight)) = some (v, false)) :
    ∃ tr w, Run step (fun _ _ => True) {} tr w ∧ told tr = v ∧ ¬ ∀ x ∈ tr, ∀ r ∈ x.2, r.Right := by
  obtain ⟨w, tr, hexec, h⟩ := exec_of_map h
  have run := Run.of_exec (C := fun _ => True) hexec (fun _ _ => trivial)
  obtain ⟨htold, hwrong⟩ := Prod.mk.inj h
  refine ⟨tr, w, run, htold, fun hright => ?_⟩
  have hall : (tr.flatMap (·.2)).all firstRight = true := by
    refine List.all_eq_true.2 fun r hr => ?_
    obtain ⟨x, hx, hr⟩ := List.mem_flatMap.1 hr
    exact firstRight_of_right (hright x hx r hr)
  rw [hall] at hwrong
  cases hwrong

/-- Software routing comes before WAN: the rules are one place further back. And with one private
    subnet the counter is set too high as WAN goes down: the rules are two places further in front.
    -/
theorem run_indices_off :
    (∃ tr w, Run step (fun _ _ => True) {} tr w ∧
        told tr = [([(7, 7), (8, 8)], [8, 9])] ∧ ¬ ∀ x ∈ tr, ∀ r ∈ x.2, r.Right) ∧
      ∃ tr w, Run step (fun _ _ => True) {} tr w ∧
        told tr = [([(7, 7), (8, 8)], [7, 8]), ([(9, 7), (10, 8)], [7, 8])] ∧
        ¬ ∀ x ∈ tr, ∀ r ∈ x.2, r.Right := by
  constructor
  · exact exists_wrong [twoRules (.addrAdd .v4 1 0) 1, twoRules .swRoutingEnable 1,
      twoRules (.wanUp .v4) 1] (by decide +kernel)
  · exact exists_wrong [twoRules (.addrAdd .v4 1 0) 1, twoRules (.wanUp .v4) 1,
      twoRules (.wanDown .v4) 1, twoRules (.wanUp .v4) 1] (by decide +kernel)

end IndexWorld

end Nx508j.Ipacm
