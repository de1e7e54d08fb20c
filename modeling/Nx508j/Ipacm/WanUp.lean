import Nx508j.Ipacm.WanDown

/-! # One default route

The flag that says that WAN is up for a family is shared, and the handlers of all interfaces write
it for the same event. It is right if an interface that gets the default route comes after the one
that loses it, and if an interface that is closed is the default gateway for every family with an
address. -/

namespace Nx508j.Ipacm

open Nx508j.Lib

/-- The interface was closed with the flag of each family that it was active for cleared, and told
    so. -/
def DownReport.Announced (r : DownReport) : Prop :=
  ∀ f, r.active f = true →
    (∃ isSta, .wanDown f r.ipa_if_num isSta ∈ r.posted) ∧ r.wan_up f = false

namespace Wan

variable {a : WanAnswers} {e : WanEvent} {w : Wan} {s : WanStatics} {f : IpFamily}
  {x y : Wan × WanStatics}

/-- A modem interface clears the flag of exactly the families it is active for. -/
def ClosesItsOwn (w : Wan) (s : WanStatics) (embmsIf : Bool) : Prop :=
  ∀ f, if w.active f = true then embmsIf = false ∧ w.is_default_gateway = true
    else embmsIf = false → w.is_default_gateway = true → w.ip_type.has f = true → s.wan_up f = false

instance (w : Wan) (s : WanStatics) (embmsIf : Bool) : Decidable (w.ClosesItsOwn s embmsIf) := by
  unfold ClosesItsOwn
  infer_instance

end Wan

/-! ## One handler -/

section Changes

variable {a : WanAnswers} {e : WanEvent} {w₀ : Wan} {x y : Wan × WanStatics} {n : IpFamily → Nat}

theorem WanChanges.counted (h : WanChanges a e w₀ x y)
    (hn : ∀ f, w₀.raises a e f = true → n f = 0)
    (hx : ∀ f, n f + (x.1.active f).toNat = (x.2.wan_up f).toNat) :
    ∀ f, n f + (y.1.active f).toNat = (y.2.wan_up f).toNat := by
  induction h with
  | refl => exact hx
  | tail _ step ih =>
    cases step with
    | @raise w s g p dl hon hdown hc hdl =>
      intro f
      by_cases hf : f = g
      · subst hf
        simp [hn f hon]
      · simpa [hf] using ih f
    | @lower w s g dl hup hdl =>
      intro f
      by_cases hf : f = g
      · subst hf
        have hone := ih f
        have hle := Bool.toNat_le (s.wan_up f)
        simp only [hup, Bool.toNat_true] at hone
        simp only [Function.update_self, Bool.toNat_false]
        omega
      · simpa [hf] using ih f
    | _ => exact ih

theorem WanChanges.up (h : WanChanges a e w₀ x y) {f : IpFamily} :
    (y.1.active f = true → x.1.active f = true ∨ w₀.raises a e f = true) ∧
      (y.2.wan_up f = true → x.2.wan_up f = true ∨ w₀.raises a e f = true) := by
  induction h with
  | refl => exact ⟨.inl, .inl⟩
  | tail _ step ih =>
    cases step with
    | @raise w s g p dl hon hdown hc hdl =>
      by_cases hf : f = g
      · subst hf
        exact ⟨fun _ => .inr hon, fun _ => .inr hon⟩
      · simpa [hf] using ih
    | @lower w s g dl hup hdl =>
      by_cases hf : f = g
      · subst hf
        simp
      · simpa [hf] using ih
    | _ => exact ih

end Changes

namespace Wan

variable {a : WanAnswers} {e : WanEvent} {w v : Wan} {s s' : WanStatics} {f : IpFamily}

theorem cleanDefaultRoute_active (ha : a.Succeeds) (hc : w.Consistent) (hup : w.active f = true) :
    (w.cleanDefaultRoute a s f).1.active f = false := by
  have htx := hc.active_tx f hup
  unfold cleanDefaultRoute handle_route_del_evt_ex handle_route_del_evt
  rw [ha.routeDel, Bool.or_true]
  split <;> simp [routeDel_eq htx hup]

/-- A route for another interface. -/
def cleans (w : Wan) (e : WanEvent) (f : IpFamily) : Bool :=
  match e with
  | .upstreamRouteAdd g iface _ => decide (g = f ∧ iface ≠ w.ipa_if_num)
  | .routeAdd g iface isDefault => decide (g = f ∧ iface ≠ w.ipa_if_num) && isDefault
  | _ => false

theorem not_raises_of_cleans (hcl : w.cleans e f = true) : w.raises a e f = false := by
  cases e <;> simp_all [cleans, raises]

theorem event_callback_cleans {embmsIf : Int → Bool} {w' : Wan} (ha : a.Succeeds)
    (hc : w.Consistent) (hcl : w.cleans e f = true)
    (h : w.event_callback a s embmsIf e = .ok (.stays w', s'))
    (hch : WanChanges a e w (w, s) (w', s')) : w'.active f = false := by
  rw [← Bool.not_eq_true]
  intro hup'
  have hup : w.active f = true := by
    rcases hch.up.1 hup' with hup | hon
    · exact hup
    · rw [not_raises_of_cleans hcl] at hon
      cases hon
  have hembms : w.embms = false := by
    rw [← Bool.not_eq_true]
    intro hembms
    have := hc.active_has f hup
    simp [hc.embms_null hembms] at this
  have hclean := cleanDefaultRoute_active (s := s) ha hc hup
  cases e with
  | upstreamRouteAdd g iface tether =>
    simp only [cleans, decide_eq_true_eq] at hcl
    obtain ⟨rfl, hne⟩ := hcl
    simp only [event_callback, hembms, Bool.false_eq_true, if_false, upstreamRouteAdd, if_neg hne,
      hup, if_true] at h
    obtain ⟨h₁, rfl⟩ := ok_pair h
    obtain rfl := AfterEvent.stays.inj h₁
    rw [hclean] at hup'
    cases hup'
  | routeAdd g iface isDefault =>
    simp only [cleans, Bool.and_eq_true, decide_eq_true_eq] at hcl
    obtain ⟨⟨rfl, hne⟩, rfl⟩ := hcl
    simp only [event_callback, hembms, Bool.false_eq_true, if_false, routeAdd, if_neg hne,
      Bool.true_eq_false, hup, if_true] at h
    obtain ⟨h₁, rfl⟩ := ok_pair h
    obtain rfl := AfterEvent.stays.inj h₁
    rw [hclean] at hup'
    cases hup'
  | _ => simp [cleans] at hcl

/-- How a closed interface leaves the flags. -/
theorem goDown_counted {embmsIf : Bool} {n : IpFamily → Nat} (ha : a.Succeeds) (hc : w.Consistent)
    (hown : w.m_is_sta_mode = .q6Wan → w.ClosesItsOwn s embmsIf)
    (hn : ∀ f, n f + (w.active f).toNat = (s.wan_up f).toNat) :
    (∀ f, n f = ((w.goDown a s embmsIf).2.wan_up f).toNat) ∧
      ∀ f, w.active f = true → (w.goDown a s embmsIf).2.wan_up f = false ∧
        .wanDown f w.ipa_if_num w.isSta ∈
          (w.goDown a s embmsIf).2.posted.drop s.posted.length := by
  -- the other interfaces are not active for a family that this one is active for
  have hzero : ∀ f, w.active f = true → n f = 0 := by
    intro f hup
    have hone := hn f
    have hle := Bool.toNat_le (s.wan_up f)
    simp only [hup, Bool.toNat_true] at hone
    omega
  have hsame : ∀ f, w.active f = false → n f = (s.wan_up f).toNat := by
    intro f hdown
    simpa [hdown] using hn f
  unfold goDown
  by_cases hmode : w.m_is_sta_mode = .q6Wan
  · rw [if_pos hmode]
    have hown := hown hmode
    by_cases hidle : w.ip_type = .null ∨ embmsIf = true
    · -- nothing is cleared, and it was not active
      have hdown : ∀ f, w.active f = false := by
        intro f
        rw [← Bool.not_eq_true]
        intro hup
        rcases hidle with hnull | hembms
        · have := hc.active_has f hup
          simp [hnull] at this
        · have := hown f
          simp [hup, hembms] at this
      have hflag : (w.handle_down_evt_ex a s embmsIf).2.wan_up = s.wan_up := by
        simp only [handle_down_evt_ex]
        split
        · rfl
        · next hnull =>
          rw [if_pos (hidle.resolve_left hnull)]
      refine ⟨fun f => ?_, fun f hup => ?_⟩
      · rw [hflag]
        exact hsame f (hdown f)
      · rw [hdown f] at hup
        cases hup
    · obtain ⟨hnull, hembms⟩ := not_or.1 hidle
      rw [Bool.not_eq_true] at hembms
      subst hembms
      obtain ⟨gw, posted, heq, hmem⟩ := handle_down_evt_ex_eq (s := s) ha hc hnull
      rw [heq]
      refine ⟨fun f => ?_, fun f hup => ?_⟩
      · dsimp only
        have hownf := hown f
        by_cases hup : w.active f = true
        · rw [if_pos hup] at hownf
          rw [if_pos ⟨hownf.2, hc.active_has f hup⟩]
          exact hzero f hup
        · rw [if_neg hup] at hownf
          rw [hsame f (Bool.eq_false_of_not_eq_true hup)]
          split
          · next hgw => rw [hownf rfl hgw.1 hgw.2]
          · rfl
      · have hownf := hown f
        rw [if_pos hup] at hownf
        refine ⟨?_, ?_⟩
        · exact if_pos ⟨hownf.2, hc.active_has f hup⟩
        · simpa using hmem f hownf.2 hup
  · rw [if_neg hmode]
    obtain ⟨gw, heq⟩ := handle_down_evt_eq (s := s) ha hc
    rw [heq]
    refine ⟨fun f => ?_, fun f hup => ⟨if_pos hup, ?_⟩⟩
    · dsimp only
      by_cases hup : w.active f = true
      · rw [if_pos hup]
        exact hzero f hup
      · rw [if_neg hup]
        exact hsame f (Bool.eq_false_of_not_eq_true hup)
    · simpa [downPosts] using mem_activeFamilies.2 hup

end Wan

namespace WanWorld

variable {s s' : WanWorld} {i : WanInput} {reports : List DownReport}

/-- The flag of each family says that exactly one interface has the default route, and never two do.
    -/
def OneUp (s : WanWorld) : Prop :=
  ∀ f, (s.statics.wan_up f = true ↔ s.instances.countP (·.active f) = 1) ∧
    s.instances.countP (·.active f) ≤ 1

/-- The interface that gets the default route comes after the one that loses it; a default route
    that waited for a header is the only one of its family; and a modem interface that is closed
    clears the flag of exactly the families it is active for. -/
def RoutesInOrder (s : WanWorld) (i : WanInput) : Prop :=
  s.Succeeds i ∧
    match i.event with
    | .upstreamRouteAdd _ _ _ | .routeAdd _ _ _ =>
      ∀ f, s.instances.Pairwise fun w v =>
        w.raises (i.answers w.ipa_if_num) i.event f = true → v.active f = false
    | .neigh _ _ _ _ _ =>
      ∀ w ∈ s.instances, ∀ v ∈ s.instances, v.ipa_if_num ≠ w.ipa_if_num →
        ∀ f, w.raises (i.answers w.ipa_if_num) i.event f = true → v.active f = false
    | .linkDown iface =>
      ∀ w ∈ s.instances, w.m_is_sta_mode = .q6Wan → iface = w.ipa_if_num →
        w.ClosesItsOwn s.statics (s.embmsIf w.ipa_if_num)
    | _ => True

instance decidableRoutesInOrder (s : WanWorld) (i : WanInput) : Decidable (s.RoutesInOrder i) :=
  match i with
  | ⟨.linkUp .., _⟩ | ⟨.embmsLinkUp .., _⟩ | ⟨.addrAdd .., _⟩ | ⟨.upstreamRouteAdd .., _⟩
  | ⟨.upstreamRouteDel .., _⟩ | ⟨.routeAdd .., _⟩ | ⟨.routeDel .., _⟩ | ⟨.neigh .., _⟩
  | ⟨.firewallChange .., _⟩ | ⟨.wlanLinkDown .., _⟩ | ⟨.linkDown .., _⟩ | ⟨.cfgChange .., _⟩ =>
    inferInstanceAs (Decidable (_ ∧ _))

theorem oneUp_of_counted (h : ∀ f, s.instances.countP (·.active f) = (s.statics.wan_up f).toNat) :
    s.OneUp := by
  intro f
  rw [h f]
  cases s.statics.wan_up f <;> simp

theorem RoutesInOrder.later (hm : s.RoutesInOrder i) (hc : s.Consistent) {w : Wan} {rest : List Wan}
    (hsuf : w :: rest <:+ s.instances) {f : IpFamily}
    (hon : w.raises (i.answers w.ipa_if_num) i.event f = true) : ∀ v ∈ rest, v.active f = false := by
  obtain ⟨e, answers⟩ := i
  intro v hv
  cases e with
  | upstreamRouteAdd g iface tether | routeAdd g iface isDefault =>
    exact (List.pairwise_cons.1 ((hm.2 f).sublist hsuf.sublist)).1 v hv hon
  | neigh iface mac g v4 v6 =>
    have hnodup : ((w :: rest).map (·.ipa_if_num)).Nodup :=
      hc.nodup.sublist (hsuf.sublist.map _)
    have hne : v.ipa_if_num ≠ w.ipa_if_num := by
      intro heq
      exact (List.nodup_cons.1 hnodup).1 (List.mem_map.2 ⟨v, hv, heq⟩)
    exact hm.2 w (hsuf.subset List.mem_cons_self) v (hsuf.subset (List.mem_cons_of_mem _ hv)) hne f hon
  | _ => simp [Wan.raises] at hon

theorem RoutesInOrder.earlier (hm : s.RoutesInOrder i) (hc : s.Consistent) {w v w' : Wan}
    {rest : List Wan} (hsuf : w :: rest <:+ s.instances) (hv : v ∈ rest) {f : IpFamily}
    (hon : v.raises (i.answers v.ipa_if_num) i.event f = true) {st st' : WanStatics}
    (hev : w.event_callback (i.answers w.ipa_if_num) st (s.table i) i.event = .ok (.stays w', st'))
    (hch : WanChanges (i.answers w.ipa_if_num) i.event w (w, st) (w', st')) : w'.active f = false := by
  have hw : w ∈ s.instances := hsuf.subset List.mem_cons_self
  have hnodup : ((w :: rest).map (·.ipa_if_num)).Nodup := hc.nodup.sublist (hsuf.sublist.map _)
  have hne : w.ipa_if_num ≠ v.ipa_if_num := by
    intro heq
    exact (List.nodup_cons.1 hnodup).1 (List.mem_map.2 ⟨v, hv, heq.symm⟩)
  have hclean : w.cleans i.event f = true → w'.active f = false := fun hcl =>
    Wan.event_callback_cleans (hm.1 w hw) (hc.each w hw) hcl hev hch
  obtain ⟨e, answers⟩ := i
  cases e with
  | upstreamRouteAdd g iface tether =>
    simp only [Wan.raises, Bool.and_eq_true, decide_eq_true_eq] at hon
    refine hclean ?_
    simp [Wan.cleans, hon.1.1.1.1, hon.1.1.1.2, Ne.symm hne]
  | routeAdd g iface isDefault =>
    simp only [Wan.raises, Bool.and_eq_true, decide_eq_true_eq] at hon
    refine hclean ?_
    simp [Wan.cleans, hon.1.1.1.1.1, hon.1.1.1.1.2, hon.1.1.1.2, Ne.symm hne]
  | neigh iface mac g v4 v6 =>
    rw [← Bool.not_eq_true]
    intro hup
    rcases hch.up.1 hup with hup | hon'
    · have := hm.2 v (hsuf.subset (List.mem_cons_of_mem _ hv)) w hw hne f hon
      rw [this] at hup
      cases hup
    · simp only [Wan.raises, Bool.and_eq_true, decide_eq_true_eq] at hon hon'
      exact hne (hon'.1.symm.trans hon.1)
  | _ => simp [Wan.raises] at hon

theorem RoutesInOrder.closes (hm : s.RoutesInOrder i) {w : Wan} (hw : w ∈ s.instances)
    (hcl : w.closesOn i.event = true) (hmode : w.m_is_sta_mode = .q6Wan) {st : WanStatics}
    (hup : ∀ f, st.wan_up f = true → s.statics.wan_up f = true ∨
      ∃ w ∈ s.instances, w.raises (i.answers w.ipa_if_num) i.event f = true) :
    w.ClosesItsOwn st (s.table i w.ipa_if_num) := by
  obtain ⟨e, answers⟩ := i
  cases e with
  | linkDown iface =>
    simp only [Wan.closesOn, hmode, decide_eq_true_eq] at hcl
    have hown := hm.2 w hw hmode hcl
    intro f
    have hf := hown f
    by_cases hact : w.active f = true
    · rwa [if_pos hact] at hf ⊢
    rw [if_neg hact] at hf ⊢
    intro hembms hgw hhas
    rw [← Bool.not_eq_true]
    intro hst
    rcases hup f hst with hs | ⟨v, -, hon⟩
    · rw [hf hembms hgw hhas] at hs
      cases hs
    · simp [Wan.raises] at hon
  | _ => simp [Wan.closesOn, hmode] at hcl

/-- **One step.** -/
theorem step_counted (hc : s.Consistent)
    (hn : ∀ f, s.instances.countP (·.active f) = (s.statics.wan_up f).toNat) (hm : s.RoutesInOrder i)
    (h : s.step i = .ok (s', reports)) :
    (∀ f, s'.instances.countP (·.active f) = (s'.statics.wan_up f).toNat) ∧
      ∀ r ∈ reports, r.Announced := by
  have hend := step_induct (I := fun done rest reports st =>
      (∀ f, done.countP (·.active f) + rest.countP (·.active f) = (st.wan_up f).toNat) ∧
      (∀ d ∈ done, ∀ v ∈ rest, ∀ f, v.raises (i.answers v.ipa_if_num) i.event f = true →
        d.active f = false) ∧
      (∀ f, st.wan_up f = true → s.statics.wan_up f = true ∨
        ∃ w ∈ s.instances, w.raises (i.answers w.ipa_if_num) i.event f = true) ∧
      ∀ r ∈ reports, r.Announced) hc hm.1 ?_ ?_ h ?_
  · rcases hend with ⟨-, rfl, rfl | ⟨iface, mode, props, embms, table, -, rfl⟩⟩ |
      ⟨st, ⟨hcount, -, -, hrep⟩, hst⟩
    · exact ⟨hn, by simp⟩
    · refine ⟨?_, by simp⟩
      rcases create_cases { s with embmsIf := table } iface mode props embms with
        heq | ⟨-, rm, on, -, heq⟩
      · rw [heq]
        exact hn
      · rw [heq]
        simpa using hn
    · refine ⟨?_, hrep⟩
      obtain ⟨upstream, added, heq⟩ := foldl_noteClosed reports st
      rw [hst, heq]
      simpa using hcount
  · rintro done w rest reports st w' st' hsuf hcw haw ⟨hcount, hraise, hup, hrep⟩ hcl hev hch
    have hw : w ∈ s.instances := hsuf.subset List.mem_cons_self
    have hothers := hch.counted (n := fun f =>
      done.countP (·.active f) + rest.countP (·.active f)) ?_ ?_
    · refine ⟨?_, ?_, ?_, hrep⟩
      · intro f
        have := hothers f
        cases hact : w'.active f <;> simp_all
        omega
      · intro d hd v hv f hon
        rcases List.mem_append.1 hd with hd | hd
        · exact hraise d hd v (List.mem_cons_of_mem _ hv) f hon
        · obtain rfl := List.mem_singleton.1 hd
          exact hm.earlier hc hsuf hv hon hev hch
      · intro f hf
        rcases hch.up.2 hf with hf | hon
        · exact hup f hf
        · exact .inr ⟨w, hw, hon⟩
    · intro f hon
      have hdone : done.countP (·.active f) = 0 := by
        refine List.countP_eq_zero.2 ?_
        intro d hd
        simp [hraise d hd w List.mem_cons_self f hon]
      have hrest : rest.countP (·.active f) = 0 := by
        refine List.countP_eq_zero.2 ?_
        intro v hv
        simp [hm.later hc hsuf hon v hv]
      simp only [hdone, hrest]
    · intro f
      have := hcount f
      cases hact : w.active f <;> simp_all
      omega
  · rintro done w rest reports st r st' hsuf hcw haw ⟨hcount, hraise, hup, hrep⟩ hcl hr
    have hw : w ∈ s.instances := hsuf.subset List.mem_cons_self
    obtain ⟨h₁, rfl⟩ := Prod.mk.inj hr
    obtain rfl := AfterEvent.closed.inj h₁
    obtain ⟨hleft, hown⟩ := Wan.goDown_counted haw hcw
      (fun hmode => hm.closes hw hcl hmode hup)
      (n := fun f => done.countP (·.active f) + rest.countP (·.active f)) (s := st) (by
        intro f
        have := hcount f
        cases hact : w.active f <;> simp_all
        omega)
    refine ⟨hleft, fun d hd v hv => hraise d hd v (List.mem_cons_of_mem _ hv), ?_, ?_⟩
    · intro f hf
      refine hup f ?_
      by_cases hact : w.active f = true
      · rw [(hown f hact).1] at hf
        cases hf
      · have h₁ := hleft f
        have h₂ := hcount f
        rw [hf] at h₁
        cases hs : st.wan_up f with
        | true => rfl
        | false => simp_all
    · intro r hr
      rcases List.mem_append.1 hr with hr | hr
      · exact hrep r hr
      · obtain rfl := List.mem_singleton.1 hr
        exact fun f hf => ⟨⟨w.isSta, (hown f hf).2⟩, (hown f hf).1⟩
  · obtain ⟨upstream, added, heq⟩ := noteEvent_eq s.statics i.event
    rw [heq]
    exact ⟨by simpa using hn, by simp, fun f hf => .inl hf, by simp⟩

/-! ## Runs -/

/-- **Runs whose steps meet the condition.** There is one interface with the default route of a
    family, or none, as the flag says, and an interface that is closed takes its flags with it. -/
theorem run_oneUp {tr : List (WanInput × List DownReport)}
    (run : Run step RoutesInOrder {} tr s) :
    s.OneUp ∧ ∀ x ∈ tr, ∀ r ∈ x.2, r.Announced := by
  have hinv : s.Consistent ∧ (∀ f, s.instances.countP (·.active f) = (s.statics.wan_up f).toNat) ∧
      ∀ x ∈ tr, ∀ r ∈ x.2, r.Announced := by
    refine run.invariant (fun tr s => s.Consistent ∧
      (∀ f, s.instances.countP (·.active f) = (s.statics.wan_up f).toNat) ∧
      ∀ x ∈ tr, ∀ r ∈ x.2, r.Announced) ⟨consistent_init, by simp, by simp⟩ ?_
    rintro tr s i s' reports ⟨hc, hn, htr⟩ hm hstep
    obtain ⟨hn', hrep⟩ := step_counted hc hn hm hstep
    refine ⟨step_consistent hc hm.1 hstep, hn', ?_⟩
    intro x hx
    rcases List.mem_append.1 hx with hx | hx
    · exact htr x hx
    · rw [List.mem_singleton.1 hx]
      exact hrep
  exact ⟨oneUp_of_counted hinv.2.1, hinv.2.2⟩

/-- Two modem interfaces with an IPv4 address. -/
def twoModems : List WanInput :=
  [.answered (.linkUp 1 .q6Wan modemProps), .answered (.linkUp 2 .q6Wan modemProps),
    .answered (.addrAdd 1 .v4 10 0), .answered (.addrAdd 2 .v4 11 0)]

/-- The default route goes from the first to the second, and back when that one is closed. -/
def goesAndComesBack : List WanInput :=
  twoModems ++ ([.answered (.routeAdd .v4 1 true), .answered (.routeAdd .v4 2 true),
    .answered (.linkDown 2), .answered (.routeAdd .v4 1 true)] : List WanInput)

/-- The theorem at a run that ends with WAN up on the one interface that is left. -/
theorem run_oneUp_back :
    ∃ tr s, Run step RoutesInOrder {} tr s ∧ s.statics.wan_up .v4 = true ∧
      s.instances.length = 1 ∧ s.OneUp ∧ ∀ x ∈ tr, ∀ r ∈ x.2, r.Announced := by
  have hend : (exec step {} goesAndComesBack).toOption.map
      (fun x => (x.1.statics.wan_up .v4, x.1.instances.length)) = some (true, 1) := by
    decide +kernel
  have hall : allMeet step (fun s i => decide (s.RoutesInOrder i)) {} goesAndComesBack = true := by
    decide +kernel
  obtain ⟨s, tr, hexec, hend⟩ := exec_of_map hend
  obtain ⟨hup, hlen⟩ := Prod.mk.inj hend
  have run := Run.of_exec_of_allMeet (C := RoutesInOrder)
    (fun _ _ _ h => of_decide_eq_true h) hexec hall
  exact ⟨tr, s, run, hup, hlen, (run_oneUp run).1, (run_oneUp run).2⟩

/-- The default route goes from the second to the first. -/
def goesToTheFirst : List WanInput :=
  twoModems ++ [.answered (.routeAdd .v4 2 true), .answered (.routeAdd .v4 1 true)]

/-- The handler of the one that loses the route is the later one, and clears the flag. -/
theorem run_flagCleared :
    ∃ tr s, Run step Succeeds {} tr s ∧ s.statics.wan_up .v4 = false ∧
      s.instances.countP (·.active .v4) = 1 ∧ ¬ s.OneUp := by
  have hend : (exec step {} goesToTheFirst).toOption.map
      (fun x => (x.1.statics.wan_up .v4, x.1.instances.countP (·.active .v4))) =
        some (false, 1) := by
    decide +kernel
  have hall : allMeet step (fun s i => decide (s.Succeeds i)) {} goesToTheFirst = true := by
    decide +kernel
  obtain ⟨s, tr, hexec, hend⟩ := exec_of_map hend
  obtain ⟨hdown, hone⟩ := Prod.mk.inj hend
  refine ⟨tr, s, Run.of_exec_of_allMeet (C := Succeeds)
    (fun _ _ _ h => of_decide_eq_true h) hexec hall, hdown, hone, ?_⟩
  intro h
  have hup := (h .v4).1.2 hone
  rw [hdown] at hup
  cases hup

end WanWorld

end Nx508j.Ipacm
