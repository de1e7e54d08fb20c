import Nx508j.Ipacm.WanSteps

/-! # How a backhaul interface is closed

The functions for a link-down event work on the families one after the other. Here is what they do
together, and the rule by which a fact goes through an event that all interfaces get. -/

namespace Nx508j.Ipacm

open Nx508j.Lib
open Function (update update_eq_self)

namespace Wan

variable {a : WanAnswers} {w : Wan} {s : WanStatics} {f : IpFamily}

theorem routeDel_eq (htx : w.tx_prop ≠ none) (hup : w.active f = true) :
    w.routeDel s true f =
      ({ w with is_default_gateway := false, active := update w.active f false,
                rm := w.rm ++ [.del] },
        { s with wan_up := update s.wan_up f false,
                 posted := s.posted ++ [.wanDown f w.ipa_if_num w.isSta] }) := by
  simp only [routeDel, if_neg htx, hup]
  rfl

theorem routeDel_of_not_active (hdown : w.active f = false) :
    ∃ gw, w.routeDel s true f = ({ w with is_default_gateway := gw }, s) := by
  simp only [routeDel, hdown, if_true]
  split
  · exact ⟨w.is_default_gateway, rfl⟩
  · exact ⟨false, rfl⟩

/-- The families with the default route. -/
def activeFamilies (w : Wan) : List IpFamily := [IpFamily.v4, .v6].filter w.active

theorem mem_activeFamilies : f ∈ w.activeFamilies ↔ w.active f = true := by
  cases f <;> simp [activeFamilies]

/-- What the interface gives back and what it posts is for the families with the default route. -/
def releases (w : Wan) : List RmCall := w.activeFamilies.map fun _ => .del

def downPosts (w : Wan) : List WanPost :=
  w.activeFamilies.map fun f => .wanDown f w.ipa_if_num w.isSta

theorem handle_down_evt_eq (ha : a.Succeeds) (hc : w.Consistent) :
    ∃ gw, w.handle_down_evt a s =
      ({ w with is_default_gateway := gw
                active := fun _ => false
                rm := w.rm ++ (if w.tx_prop = none then [] else [.del]) ++ w.releases },
        { s with wan_up := fun f => if w.active f = true then false else s.wan_up f
                 posted := s.posted ++ w.downPosts }) := by
  generalize hw₁ : (if w.tx_prop = none then w else { w with rm := w.rm ++ [.del] } : Wan) = w₁
  have hrec : w₁ = { w with rm := w.rm ++ (if w.tx_prop = none then [] else [.del]) } := by
    rw [← hw₁]
    split
    · rw [List.append_nil]
    · rfl
  have hdown : w.handle_down_evt a s =
      if w₁.ip_type = .null then (w₁, s)
      else
        let x := if w₁.active .v4 then w₁.routeDel s true .v4 else (w₁, s)
        if x.1.active .v6 then x.1.routeDel x.2 true .v6 else x := by
    simp only [handle_down_evt, hw₁, handle_route_del_evt, ha.routeDel]
  rw [hdown]
  -- without the default route nothing is given back
  have hidle : (∀ f, w.active f = false) → ∃ gw, (w₁, s) =
      (({ w with is_default_gateway := gw
                 active := fun _ => false
                 rm := w.rm ++ (if w.tx_prop = none then [] else [.del]) ++ w.releases } : Wan),
        { s with wan_up := fun f => if w.active f = true then false else s.wan_up f
                 posted := s.posted ++ w.downPosts }) := by
    intro hall
    have hfun : w.active = fun _ => false := funext hall
    refine ⟨w.is_default_gateway, ?_⟩
    rw [hrec]
    simp [releases, downPosts, activeFamilies, hfun]
  by_cases hnull : w₁.ip_type = .null
  · rw [if_pos hnull]
    refine hidle ?_
    intro f
    rw [← Bool.not_eq_true]
    intro hup
    have hhas := hc.active_has f hup
    rw [hrec] at hnull
    rw [hnull, IfaceIpType.has_null] at hhas
    cases hhas
  · rw [if_neg hnull]
    have hact : w₁.active = w.active := by rw [hrec]
    have htx : ∀ g, w.active g = true → w₁.tx_prop ≠ none := by
      intro g hg
      rw [hrec]
      exact hc.active_tx g hg
    cases h₄ : w.active .v4 <;> cases h₆ : w.active .v6
    · have := hidle (fun f => by cases f <;> assumption)
      simpa only [hact, h₄, h₆, Bool.false_eq_true, if_false] using this
    · have hx : w₁.active .v6 = true := by rw [hact, h₆]
      have hlow : update w.active .v6 false = fun _ => false := by
        funext g
        cases g <;> simp [h₄]
      have hflag : update s.wan_up .v6 false =
          fun f => if w.active f = true then false else s.wan_up f := by
        funext g
        cases g <;> simp [h₄, h₆]
      simp only [hact, h₄, Bool.false_eq_true, if_false, h₆, if_true, routeDel_eq (htx _ h₆) hx]
      refine ⟨false, ?_⟩
      rw [hflag, hrec]
      simp [hlow, releases, downPosts, activeFamilies, h₄, h₆, isSta]
    · have hx : w₁.active .v4 = true := by rw [hact, h₄]
      have hlow : update w.active .v4 false = fun _ => false := by
        funext g
        cases g <;> simp [h₆]
      have hflag : update s.wan_up .v4 false =
          fun f => if w.active f = true then false else s.wan_up f := by
        funext g
        cases g <;> simp [h₄, h₆]
      simp only [hact, h₄, if_true, routeDel_eq (htx _ h₄) hx, hlow, Bool.false_eq_true, if_false]
      refine ⟨false, ?_⟩
      rw [hflag, hrec]
      simp [releases, downPosts, activeFamilies, h₄, h₆, isSta]
    · have hx : w₁.active .v4 = true := by rw [hact, h₄]
      have hlow : update (update w.active .v4 false) .v6 false = fun _ => false := by
        funext g
        cases g <;> simp
      have hflag : update (update s.wan_up .v4 false) .v6 false =
          fun f => if w.active f = true then false else s.wan_up f := by
        funext g
        cases g <;> simp [h₄, h₆]
      have hmid : update w.active .v4 false .v6 = true := by simp [h₆]
      simp only [hact, h₄, if_true, routeDel_eq (htx _ h₄) hx, hmid]
      rw [routeDel_eq (w := { w₁ with is_default_gateway := false,
                                      active := update w.active .v4 false,
                                      rm := w₁.rm ++ [.del] }) (htx _ h₆) hmid]
      refine ⟨false, ?_⟩
      rw [← hflag, hrec]
      simp [hlow, releases, downPosts, activeFamilies, h₄, h₆, isSta]

theorem foldl_post_wan_down_tether_evt (w : Wan) (f : IpFamily) (l : List Int) (s : WanStatics)
    (h : s.ipa_if_num_tether f = l) :
    ∃ posted, l.foldl (fun s tether => w.post_wan_down_tether_evt s f tether) s =
      { s with ipa_if_num_tether := update s.ipa_if_num_tether f []
               posted := s.posted ++ posted } := by
  induction l generalizing s with
  | nil =>
    have hsame : update s.ipa_if_num_tether f [] = s.ipa_if_num_tether := by
      rw [← h, update_eq_self]
    exact ⟨[], by simp [hsame]⟩
  | cons tether l ih =>
    have hhead : w.post_wan_down_tether_evt s f tether =
        { s with ipa_if_num_tether := update s.ipa_if_num_tether f l
                 posted := s.posted ++ [.wanDownTether f tether w.isSta] } := by
      simp [post_wan_down_tether_evt, h, WanStatics.post]
    obtain ⟨posted, hrest⟩ := ih (w.post_wan_down_tether_evt s f tether) (by simp [hhead])
    refine ⟨.wanDownTether f tether w.isSta :: posted, ?_⟩
    rw [List.foldl_cons, hrest, hhead]
    simp

theorem gatewayDown_eq (ha : a.Succeeds) (hc : w.Consistent) :
    ∃ gw posted, w.gatewayDown a s f =
      ({ w with is_default_gateway := gw
                active := update w.active f false
                rm := w.rm ++ (if w.active f = true then [.del] else []) },
        { s with wan_up := update s.wan_up f false
                 ipa_if_num_tether := update s.ipa_if_num_tether f []
                 dl := (s.delFirewall f).dl
                 posted := s.posted ++ posted }) ∧
      (w.active f = true → .wanDown f w.ipa_if_num w.isSta ∈ posted) := by
  have hok : (decide (f = .v4) || a.routeDel f) = true := by rw [ha.routeDel, Bool.or_true]
  simp only [gatewayDown, handle_route_del_evt_ex, hok]
  by_cases hup : w.active f = true
  · rw [routeDel_eq (hc.active_tx f hup) hup]
    obtain ⟨posted, hfold⟩ := foldl_post_wan_down_tether_evt
      { w with is_default_gateway := false, active := update w.active f false,
               rm := w.rm ++ [.del] } f _
      { (s.setWanUp f false).delFirewall f with
        wan_up := update ((s.setWanUp f false).delFirewall f).wan_up f false
        posted := ((s.setWanUp f false).delFirewall f).posted ++
          [.wanDown f w.ipa_if_num w.isSta] } rfl
    refine ⟨false, .wanDown f w.ipa_if_num w.isSta :: posted, ?_, fun _ => List.mem_cons_self⟩
    rw [hfold]
    simp [hup, WanStatics.delFirewall, WanStatics.setTable, WanStatics.setWanUp]
  · have hdown : w.active f = false := Bool.eq_false_of_not_eq_true hup
    obtain ⟨gw, hdel⟩ := routeDel_of_not_active (s := (s.setWanUp f false).delFirewall f) hdown
    rw [hdel]
    obtain ⟨posted, hfold⟩ := foldl_post_wan_down_tether_evt { w with is_default_gateway := gw } f _
      ((s.setWanUp f false).delFirewall f) rfl
    refine ⟨gw, posted, ?_, fun h => absurd h hup⟩
    have hsame : update w.active f false = w.active := by
      rw [← hdown, update_eq_self]
    rw [hfold]
    simp [hdown, hsame, WanStatics.delFirewall, WanStatics.setTable, WanStatics.setWanUp]

/-- How many modem interfaces are left. -/
def pdnDown (w : Wan) (s : WanStatics) (f : IpFamily) : Int :=
  if w.ip_type.has f = true ∧ (f = .v4 ∨ 2 ≤ w.ipv6_addr.length) then s.num_modem_pdn f - 1
  else s.num_modem_pdn f

/-- What becomes of the downlink rules of a family. -/
def rulesDown (w : Wan) (s : WanStatics) (f : IpFamily) : DlTable :=
  if w.ip_type.has f = true then
    let t := if w.is_default_gateway then (s.dl.flt_rule f).del_wan_firewall_rule f
      else s.dl.flt_rule f
    if w.pdnDown s f = 0 then t.clear else t
  else s.dl.flt_rule f

/-- The families of which the interface has an address. -/
def families (w : Wan) : List IpFamily := [IpFamily.v4, .v6].filter w.ip_type.has

theorem mem_families : f ∈ w.families ↔ w.ip_type.has f = true := by
  cases f <;> simp [families]

theorem nodup_families (w : Wan) : w.families.Nodup := List.Nodup.filter _ (by decide)

theorem handle_down_evt_ex_folds (a : WanAnswers) (w : Wan) (s : WanStatics)
    (hnull : w.ip_type ≠ .null) :
    w.handle_down_evt_ex a s false =
      let s := w.families.foldl w.countDown s
      let x := if w.is_default_gateway = true then
          w.families.foldl (fun x f => x.1.gatewayDown a x.2 f) (w, s)
        else (w, s)
      (x.1, w.families.foldl clearUnused x.2) := by
  cases ht : w.ip_type with
  | null => exact absurd ht hnull
  | v4 =>
    have hfam : w.families = [.v4] := by
      simp only [families, ht]
      rfl
    cases hgw : w.is_default_gateway <;> simp [handle_down_evt_ex, hfam, ht, hgw]
  | v6 =>
    have hfam : w.families = [.v6] := by
      simp only [families, ht]
      rfl
    cases hgw : w.is_default_gateway <;> simp [handle_down_evt_ex, hfam, ht, hgw]
  | max =>
    have hfam : w.families = [.v4, .v6] := by
      simp only [families, ht]
      rfl
    cases hgw : w.is_default_gateway <;> simp [handle_down_evt_ex, hfam, ht, hgw]

theorem countDown_foldl (w : Wan) {l : List IpFamily} (hl : l.Nodup) (s : WanStatics) :
    l.foldl w.countDown s =
      { s with num_modem_pdn := fun f =>
                 if f ∈ l ∧ (f = .v4 ∨ 2 ≤ w.ipv6_addr.length) then s.num_modem_pdn f - 1
                 else s.num_modem_pdn f } := by
  induction l generalizing s with
  | nil => simp
  | cons g l ih =>
    obtain ⟨hg, hl⟩ := List.nodup_cons.1 hl
    have hcount : w.countDown s g =
        { s with num_modem_pdn := fun f =>
                   if f = g ∧ (f = .v4 ∨ 2 ≤ w.ipv6_addr.length) then s.num_modem_pdn f - 1
                   else s.num_modem_pdn f } := by
      unfold countDown
      split
      · next hone =>
        have hno : ∀ f, ¬ (f = g ∧ (f = .v4 ∨ 2 ≤ w.ipv6_addr.length)) := by
          rintro f ⟨rfl, hf | hf⟩
          · simp [hone.1] at hf
          · omega
        simp [hno]
      · next hone =>
        congr 1
        funext f
        by_cases hf : f = g
        · have hin : f = .v4 ∨ 2 ≤ w.ipv6_addr.length := by
            cases f with
            | v4 => exact .inl rfl
            | v6 =>
              refine .inr (Nat.lt_of_not_le ?_)
              exact fun hlen => hone ⟨hf.symm, hlen⟩
          simp [hf, hf ▸ hin]
        · simp [hf]
    rw [List.foldl_cons, ih hl, hcount]
    congr 1
    funext f
    by_cases hf : f = g
    · subst hf
      simp [hg]
    · simp [hf]

theorem clearUnused_foldl (l : List IpFamily) (s : WanStatics) :
    l.foldl clearUnused s =
      { s with dl := { s.dl with flt_rule := fun f =>
                 if f ∈ l ∧ s.num_modem_pdn f = 0 then (s.dl.flt_rule f).clear
                 else s.dl.flt_rule f } } := by
  induction l generalizing s with
  | nil => simp
  | cons g l ih =>
    have hclear : clearUnused s g =
        { s with dl := { s.dl with flt_rule := fun f =>
                   if f = g ∧ s.num_modem_pdn f = 0 then (s.dl.flt_rule f).clear
                   else s.dl.flt_rule f } } := by
      unfold clearUnused
      split
      · next hzero =>
        simp only [WanStatics.setTable, DlRules.setTable]
        congr 2
        funext f
        by_cases hf : f = g
        · subst hf
          simp [hzero]
        · simp [hf]
      · next hzero =>
        have hno : ∀ f, ¬ (f = g ∧ s.num_modem_pdn f = 0) := by
          rintro f ⟨rfl, hf⟩
          exact hzero hf
        simp [hno]
    rw [List.foldl_cons, ih, hclear]
    dsimp only
    congr 2
    funext f
    by_cases hf : f = g
    · by_cases hzero : s.num_modem_pdn f = 0
      · simp [hf, hf ▸ hzero, DlTable.clear]
      · simp [hf, hf ▸ hzero]
    · simp [hf]

theorem gatewayDown_foldl (ha : a.Succeeds) {l : List IpFamily} (hl : l.Nodup) (hc : w.Consistent) :
    ∃ gw posted, l.foldl (fun x f => x.1.gatewayDown a x.2 f) (w, s) =
      ({ w with is_default_gateway := gw
                active := fun f => !decide (f ∈ l) && w.active f
                rm := w.rm ++ (l.filter w.active).map fun _ => .del },
        { s with wan_up := fun f => if f ∈ l then false else s.wan_up f
                 ipa_if_num_tether := fun f => if f ∈ l then [] else s.ipa_if_num_tether f
                 dl := { s.dl with flt_rule := fun f =>
                           if f ∈ l then (s.dl.flt_rule f).del_wan_firewall_rule f
                           else s.dl.flt_rule f }
                 posted := s.posted ++ posted }) ∧
      ∀ f ∈ l, w.active f = true → .wanDown f w.ipa_if_num w.isSta ∈ posted := by
  induction l generalizing w s with
  | nil => exact ⟨w.is_default_gateway, [], by simp, by simp⟩
  | cons g l ih =>
    obtain ⟨hg, hl⟩ := List.nodup_cons.1 hl
    obtain ⟨gw₁, posted₁, hgate, hmem₁⟩ := gatewayDown_eq (f := g) (s := s) ha hc
    have hlow : ∀ f, update w.active g false f = true → w.active f = true := by
      intro f hf
      by_cases hfg : f = g
      · simp [hfg] at hf
      · simpa [hfg] using hf
    have hc₁ : (w.gatewayDown a s g).1.Consistent := by
      rw [hgate]
      exact hc.lowered gw₁ _ hlow
    obtain ⟨gw, posted, hrest, hmem⟩ := ih (s := (w.gatewayDown a s g).2) hl hc₁
    have hact : (fun f => !decide (f ∈ l) && update w.active g false f) =
        fun f => !decide (f ∈ g :: l) && w.active f := by
      funext f
      by_cases hf : f = g <;> simp [hf]
    have hother : l.filter (update w.active g false) = l.filter w.active := by
      refine List.filter_congr ?_
      intro f hf
      have hfg : f ≠ g := fun h => hg (h ▸ hf)
      simp [hfg]
    have hrm : (w.rm ++ if w.active g = true then [.del] else []) ++
        (l.filter (update w.active g false)).map (fun _ => RmCall.del) =
        w.rm ++ ((g :: l).filter w.active).map fun _ => .del := by
      rw [hother]
      by_cases hup : w.active g = true <;> simp [hup]
    have hflag : (fun f => if f ∈ l then false else update s.wan_up g false f) =
        fun f => if f ∈ g :: l then false else s.wan_up f := by
      funext f
      by_cases hf : f = g <;> simp [hf]
    have htable : (fun f => if f ∈ l then [] else update s.ipa_if_num_tether g [] f) =
        fun f => if f ∈ g :: l then [] else s.ipa_if_num_tether f := by
      funext f
      by_cases hf : f = g <;> simp [hf]
    have hrules : (fun f => if f ∈ l then
          ((s.delFirewall g).dl.flt_rule f).del_wan_firewall_rule f
        else (s.delFirewall g).dl.flt_rule f) =
        fun f => if f ∈ g :: l then (s.dl.flt_rule f).del_wan_firewall_rule f
          else s.dl.flt_rule f := by
      funext f
      by_cases hf : f = g
      · subst hf
        simp [hg, WanStatics.delFirewall, WanStatics.setTable, DlRules.setTable]
      · simp [hf, WanStatics.delFirewall, WanStatics.setTable, DlRules.setTable]
    rw [List.foldl_cons]
    refine ⟨gw, posted₁ ++ posted, hrest.trans ?_, ?_⟩
    · rw [hgate]
      rw [hact, hrm, hflag, htable, hrules, List.append_assoc]
      rfl
    · intro f hf hup
      rcases List.mem_cons.1 hf with rfl | hf
      · exact List.mem_append_left _ (hmem₁ hup)
      · refine List.mem_append_right _ ?_
        have hfg : f ≠ g := fun h => hg (h ▸ hf)
        rw [hgate] at hmem
        exact hmem f hf (by simpa [hfg] using hup)

theorem handle_down_evt_ex_eq (ha : a.Succeeds) (hc : w.Consistent) (hnull : w.ip_type ≠ .null) :
    ∃ gw posted, w.handle_down_evt_ex a s false =
      ({ w with is_default_gateway := gw
                active := fun f => !w.is_default_gateway && w.active f
                rm := w.rm ++ (if w.is_default_gateway = true then w.releases else []) },
        { s with wan_up := fun f =>
                   if w.is_default_gateway = true ∧ w.ip_type.has f = true then false else s.wan_up f
                 ipa_if_num_tether := fun f =>
                   if w.is_default_gateway = true ∧ w.ip_type.has f = true then []
                   else s.ipa_if_num_tether f
                 num_modem_pdn := w.pdnDown s
                 dl := { s.dl with flt_rule := w.rulesDown s }
                 posted := s.posted ++ posted }) ∧
      ∀ f, w.is_default_gateway = true → w.active f = true →
        .wanDown f w.ipa_if_num w.isSta ∈ posted := by
  have hnum : (fun f => if f ∈ w.families ∧ (f = .v4 ∨ 2 ≤ w.ipv6_addr.length) then
      s.num_modem_pdn f - 1 else s.num_modem_pdn f) = w.pdnDown s := by
    funext f
    simp only [pdnDown, mem_families]
  rw [handle_down_evt_ex_folds a w s hnull, countDown_foldl w w.nodup_families, hnum]
  cases hgw : w.is_default_gateway with
  | false =>
    have hrules : (fun f => if f ∈ w.families ∧ w.pdnDown s f = 0 then (s.dl.flt_rule f).clear
        else s.dl.flt_rule f) = w.rulesDown s := by
      funext f
      simp only [rulesDown, hgw, mem_families, Bool.false_eq_true, if_false]
      by_cases hhas : w.ip_type.has f = true <;> simp [hhas]
    refine ⟨w.is_default_gateway, [], ?_, fun f h => (nomatch h)⟩
    simp only [Bool.false_eq_true, if_false, clearUnused_foldl, hrules]
    simp
  | true =>
    obtain ⟨gw, posted, hgate, hmem⟩ := gatewayDown_foldl ha w.nodup_families hc
      (s := { s with num_modem_pdn := w.pdnDown s })
    have hact : (fun f => !decide (f ∈ w.families) && w.active f) = fun f => !true && w.active f := by
      funext f
      by_cases hup : w.active f = true
      · simp [mem_families, hc.active_has f hup]
      · simp [hup]
    have hrel : (w.families.filter w.active).map (fun _ => RmCall.del) = w.releases := by
      have hboth : w.families.filter w.active = w.activeFamilies := by
        unfold families activeFamilies
        rw [List.filter_filter]
        refine List.filter_congr ?_
        intro f _
        by_cases hup : w.active f = true
        · simp [hup, hc.active_has f hup]
        · simp [hup]
      rw [hboth, releases]
    have hrules : (fun f => if f ∈ w.families ∧ w.pdnDown s f = 0 then
          (if f ∈ w.families then (s.dl.flt_rule f).del_wan_firewall_rule f
            else s.dl.flt_rule f).clear
        else if f ∈ w.families then (s.dl.flt_rule f).del_wan_firewall_rule f
          else s.dl.flt_rule f) = w.rulesDown s := by
      funext f
      simp only [rulesDown, hgw, mem_families, if_true]
      by_cases hhas : w.ip_type.has f = true <;> simp [hhas]
    refine ⟨gw, posted, ?_, ?_⟩
    · dsimp only at hgate
      rw [hact, hrel] at hgate
      simp only [if_true, hgate, clearUnused_foldl]
      rw [hrules]
      simp only [mem_families, true_and]
    · intro f _ hup
      exact hmem f (mem_families.2 (hc.active_has f hup)) hup

end Wan

/-! ## Events that all interfaces get -/

section Dispatch

variable {handler : Wan → WanStatics → Except Fault (AfterEvent × WanStatics)}

/-- A fact about the interfaces that had the event, those that get it next, the reports and the
    static members. -/
theorem dispatch_induct {I : List Wan → List Wan → List DownReport → WanStatics → Prop}
    (hstay : ∀ done w rest reports s w' s', I done (w :: rest) reports s →
      handler w s = .ok (.stays w', s') → I (done ++ [w']) rest reports s')
    (hclose : ∀ done w rest reports s r s', I done (w :: rest) reports s →
      handler w s = .ok (.closed r, s') → I done rest (reports ++ [r]) s')
    {ws ws' done : List Wan} {reports reports' : List DownReport} {s s' : WanStatics}
    (h : dispatch handler ws s = .ok ((ws', reports'), s')) (hI : I done ws reports s) :
    I (done ++ ws') [] (reports ++ reports') s' := by
  induction ws generalizing done reports s ws' reports' s' with
  | nil =>
    obtain ⟨hx, rfl⟩ := ok_pair h
    cases hx
    simpa using hI
  | cons w ws ih =>
    obtain ⟨⟨after, s₁⟩, hw, h⟩ := bind_eq_ok h
    obtain ⟨⟨⟨ws₁, reports₁⟩, s₂⟩, hws, h⟩ := bind_eq_ok h
    cases after with
    | stays w' =>
      obtain ⟨hx, rfl⟩ := ok_pair h
      cases hx
      simpa using ih hws (hstay done w ws reports s w' s₁ hI hw)
    | closed r =>
      obtain ⟨hx, rfl⟩ := ok_pair h
      cases hx
      simpa using ih hws (hclose done w ws reports s r s₁ hI hw)

end Dispatch

/-- The event is for a new interface. -/
def WanEvent.isLinkUp : WanEvent → Bool
  | .linkUp _ _ _ => true
  | .embmsLinkUp _ _ => true
  | _ => false

namespace WanWorld

variable {s s' : WanWorld} {i : WanInput} {reports : List DownReport}

/-- What holds of the interfaces in every state. -/
structure Consistent (s : WanWorld) : Prop where
  nodup : (s.instances.map (·.ipa_if_num)).Nodup
  each : ∀ w ∈ s.instances, w.Consistent

/-- The driver answers every interface with success. -/
def Succeeds (s : WanWorld) (i : WanInput) : Prop :=
  ∀ w ∈ s.instances, (i.answers w.ipa_if_num).Succeeds

instance (s : WanWorld) (i : WanInput) : Decidable (s.Succeeds i) := by
  unfold Succeeds
  infer_instance

/-- The categories of the interfaces that the handlers of an event see. -/
def table (s : WanWorld) (i : WanInput) : Int → Bool :=
  match i.event with
  | .cfgChange embmsIf _ => embmsIf
  | _ => s.embmsIf

theorem create_cases (s : WanWorld) (iface : Int) (mode : WanIfaceType) (props : WanProps)
    (embms : Bool) :
    s.create iface mode props embms = s ∨
      (∀ w ∈ s.instances, w.ipa_if_num ≠ iface) ∧ ∃ rm on,
        (rm = [] ∨ rm = [.addEmbms] ∧ embms = true ∧ props.tx_prop ≠ none) ∧
        s.create iface mode props embms =
          { s with
            instances := s.instances ++ [{ props with
              ipa_if_num := iface, m_is_sta_mode := mode, embms := embms, rm := rm }]
            statics := { s.statics with dl := { s.statics.dl with embms_is_on := on } } } := by
  unfold create
  split
  · exact .inl rfl
  · next hnew =>
    refine .inr ⟨by simpa using hnew,
      if embms = true ∧ props.tx_prop ≠ none then [.addEmbms] else [],
      if embms = true then true else s.statics.dl.embms_is_on, ?_, ?_⟩
    · split
      · next h => exact .inr ⟨rfl, h.1, h.2⟩
      · exact .inl rfl
    · cases embms <;> rfl

theorem step_cases (h : s.step i = .ok (s', reports)) :
    (i.event.isLinkUp = true ∧ reports = [] ∧
        (s' = s ∨ ∃ iface mode props embms table, (embms = true → mode = .q6Wan) ∧
          s' = { s with embmsIf := table }.create iface mode props embms)) ∨
      ∃ statics, dispatch (fun w st => w.event_callback (i.answers w.ipa_if_num) st (s.table i) i.event)
          s.instances (s.statics.noteEvent i.event) = .ok ((s'.instances, reports), statics) ∧
        s'.statics = reports.foldl WanStatics.noteClosed statics := by
  have hall : ∀ {x : Except Fault (WanWorld × List DownReport)},
      x = (do
        let y ←
          dispatch (fun w st => w.event_callback (i.answers w.ipa_if_num) st (s.table i) i.event)
            s.instances (s.statics.noteEvent i.event)
        .ok ({ instances := y.1.1, statics := y.1.2.foldl WanStatics.noteClosed y.2,
               embmsIf := s.table i }, y.1.2)) →
      x = .ok (s', reports) → ∃ statics,
        dispatch (fun w st => w.event_callback (i.answers w.ipa_if_num) st (s.table i) i.event)
          s.instances (s.statics.noteEvent i.event) = .ok ((s'.instances, reports), statics) ∧
        s'.statics = reports.foldl WanStatics.noteClosed statics := by
    intro x hx h
    rw [hx] at h
    obtain ⟨⟨⟨ws, rs⟩, st⟩, hd, h⟩ := bind_eq_ok h
    cases h
    exact ⟨st, hd, rfl⟩
  obtain ⟨e, answers⟩ := i
  cases e with
  | linkUp iface mode props =>
    simp only [step] at h
    split at h
    · cases h
      exact .inl ⟨rfl, rfl, .inl rfl⟩
    · cases h
      exact .inl ⟨rfl, rfl, .inr ⟨iface, mode, props, false, s.embmsIf, by simp, rfl⟩⟩
  | embmsLinkUp iface props =>
    simp only [step] at h
    split at h
    · cases h
      exact .inl ⟨rfl, rfl, .inl rfl⟩
    · cases h
      exact .inl ⟨rfl, rfl, .inr ⟨iface, .q6Wan, props, true, _, fun _ => rfl, rfl⟩⟩
  | addrAdd iface f v4 v6 | upstreamRouteAdd f iface tether | upstreamRouteDel f iface tether
  | routeAdd f iface isDefault | routeDel f iface isDefault | neigh iface mac f v4 v6
  | firewallChange | wlanLinkDown iface | linkDown iface
  | cfgChange table changed => exact .inr (hall rfl h)

theorem foldl_noteClosed (reports : List DownReport) (st : WanStatics) :
    ∃ upstream added, reports.foldl WanStatics.noteClosed st =
      { st with upstream := upstream, added := added } := by
  induction reports generalizing st with
  | nil => exact ⟨st.upstream, st.added, rfl⟩
  | cons r reports ih =>
    obtain ⟨upstream, added, h⟩ := ih (st.noteClosed r)
    exact ⟨upstream, added, h⟩

theorem noteEvent_eq (st : WanStatics) (e : WanEvent) :
    ∃ upstream added, st.noteEvent e = { st with upstream := upstream, added := added } := by
  cases e with
  | upstreamRouteAdd f iface tether => exact ⟨_, _, rfl⟩
  | upstreamRouteDel f iface tether =>
    simp only [WanStatics.noteEvent]
    split
    · exact ⟨st.upstream, _, rfl⟩
    · exact ⟨st.upstream, st.added, rfl⟩
  | _ => exact ⟨st.upstream, st.added, rfl⟩

theorem consistent_init : ({} : WanWorld).Consistent := ⟨List.nodup_nil, by simp⟩

/-- **The rule for an event.** A fact goes through it if it is kept by every interface that stays
    and by every one that is closed. -/
theorem step_induct {I : List Wan → List Wan → List DownReport → WanStatics → Prop}
    (hc : s.Consistent) (ha : s.Succeeds i)
    (hstay : ∀ done w rest reports st w' st', w :: rest <:+ s.instances → w.Consistent →
      (i.answers w.ipa_if_num).Succeeds → I done (w :: rest) reports st → w.closesOn i.event = false →
      w.event_callback (i.answers w.ipa_if_num) st (s.table i) i.event = .ok (.stays w', st') →
      WanChanges (i.answers w.ipa_if_num) i.event w (w, st) (w', st') →
      I (done ++ [w']) rest reports st')
    (hclose : ∀ done w rest reports st r st', w :: rest <:+ s.instances → w.Consistent →
      (i.answers w.ipa_if_num).Succeeds → I done (w :: rest) reports st → w.closesOn i.event = true →
      (.closed r, st') = w.close st
        (w.goDown (i.answers w.ipa_if_num) st (s.table i w.ipa_if_num)) →
      I done rest (reports ++ [r]) st')
    (h : s.step i = .ok (s', reports)) (hI : I [] s.instances [] (s.statics.noteEvent i.event)) :
    (i.event.isLinkUp = true ∧ reports = [] ∧
        (s' = s ∨ ∃ iface mode props embms table, (embms = true → mode = .q6Wan) ∧
          s' = { s with embmsIf := table }.create iface mode props embms)) ∨
      ∃ st, I s'.instances [] reports st ∧
        s'.statics = reports.foldl WanStatics.noteClosed st := by
  rcases step_cases h with hnew | ⟨st, hd, hst⟩
  · exact .inl hnew
  have hend := dispatch_induct (I := fun done rest reports st =>
      rest <:+ s.instances ∧ I done rest reports st) ?_ ?_ hd
      (show s.instances <:+ s.instances ∧ I [] s.instances [] _ from ⟨List.suffix_refl _, hI⟩)
  · exact .inr ⟨st, by simpa using hend.2, hst⟩
  · rintro done w rest reports st w' st' ⟨hsuf, hI⟩ hw
    have hmem : w ∈ s.instances := hsuf.subset List.mem_cons_self
    rcases Wan.event_callback_cases (ha w hmem) (hc.each w hmem) hw with ⟨-, hy⟩ | ⟨hcl, x, hx, hch⟩
    · cases congrArg Prod.fst hy
    · obtain ⟨h₁, rfl⟩ := Prod.mk.inj hx
      obtain rfl := AfterEvent.stays.inj h₁
      exact ⟨(List.suffix_cons w rest).trans hsuf,
        hstay done w rest reports st _ _ hsuf (hc.each w hmem) (ha w hmem) hI hcl hw hch⟩
  · rintro done w rest reports st r st' ⟨hsuf, hI⟩ hw
    have hmem : w ∈ s.instances := hsuf.subset List.mem_cons_self
    rcases Wan.event_callback_cases (ha w hmem) (hc.each w hmem) hw with ⟨hcl, hy⟩ | ⟨-, x, hx, -⟩
    · exact ⟨(List.suffix_cons w rest).trans hsuf,
        hclose done w rest reports st r st' hsuf (hc.each w hmem) (ha w hmem) hI hcl hy⟩
    · cases congrArg Prod.fst hx

theorem create_consistent (hc : s.Consistent) (iface : Int) (mode : WanIfaceType) (props : WanProps)
    (embms : Bool) (table : Int → Bool) :
    ({ s with embmsIf := table }.create iface mode props embms).Consistent := by
  rcases create_cases { s with embmsIf := table } iface mode props embms with
    heq | ⟨hnew, rm, on, -, heq⟩
  · rw [heq]
    exact ⟨hc.nodup, hc.each⟩
  · rw [heq]
    constructor
    · simp only [List.map_append, List.map_cons, List.map_nil]
      refine List.nodup_append.2 ⟨hc.nodup, List.nodup_singleton _, ?_⟩
      simpa using hnew
    · intro w hw
      rcases List.mem_append.1 hw with hw | hw
      · exact hc.each w hw
      · obtain rfl := List.mem_singleton.1 hw
        constructor <;> simp

theorem step_consistent (hc : s.Consistent) (ha : s.Succeeds i) (h : s.step i = .ok (s', reports)) :
    s'.Consistent := by
  have hend := step_induct (I := fun done rest _ _ => (∀ w ∈ done, w.Consistent) ∧
    ((done ++ rest).map (·.ipa_if_num)).Sublist (s.instances.map (·.ipa_if_num))) hc ha ?_ ?_ h
    ⟨by simp, by simp⟩
  · rcases hend with ⟨-, -, rfl | ⟨iface, mode, props, embms, table, -, rfl⟩⟩ |
      ⟨st, ⟨heach, hsub⟩, -⟩
    · exact hc
    · exact create_consistent hc iface mode props embms table
    · exact ⟨hc.nodup.sublist (by simpa using hsub), heach⟩
  · rintro done w rest reports st w' st' - hcw - ⟨hdone, hsub⟩ - - hch
    constructor
    · intro d hd
      rcases List.mem_append.1 hd with hd | hd
      · exact hdone d hd
      · obtain rfl := List.mem_singleton.1 hd
        exact hch.consistent hcw
    · have hnum : w'.ipa_if_num = w.ipa_if_num := hch.iface.1
      simpa [hnum] using hsub
  · rintro done w rest reports st r st' - - - ⟨hdone, hsub⟩ - -
    refine ⟨hdone, List.Sublist.trans ?_ hsub⟩
    simp

end WanWorld

/-- An event with every answer a success. -/
def WanInput.answered (e : WanEvent) : WanInput where
  event := e
  answers := fun _ => { dl := fun _ => { ioctls := 100 } }

/-- The properties of a modem interface for both families. -/
def modemProps : WanProps where
  tx_prop := some [.v4, .v6]
  rx_prop := true
  ext_prop := true

end Nx508j.Ipacm
