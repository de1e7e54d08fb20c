import Nx508j.Ipacm.WanDown

/-! # The tethered interfaces

The table of the interfaces that are tethered to the backhaul is shared, and nothing looks whether
it is full or has the interface already. It says what the upstream events say if every added
interface is new, the upstream that is named has an address, and a table is empty whenever the
upstream changes without a delete. -/

namespace Nx508j.Ipacm

open Nx508j.Lib

namespace Wan

variable {a : WanAnswers} {e : WanEvent} {w : Wan} {s s' : WanStatics} {f : IpFamily}

/-- A modem interface that is closed empties the table of the family. -/
def clearsTable (w : Wan) (embmsIf : Bool) (f : IpFamily) : Bool :=
  decide (w.m_is_sta_mode = .q6Wan) && !embmsIf && w.is_default_gateway && w.ip_type.has f

/-- What the handler of an interface makes of the table of a family. -/
def tableAfter (w : Wan) (embmsIf : Bool) (e : WanEvent) (f : IpFamily) (l : List Int) : List Int :=
  match e with
  | .upstreamRouteAdd g iface tether =>
    if g = f ∧ iface = w.ipa_if_num ∧ w.ip_type.has f = true then l ++ [tether] else l
  | .upstreamRouteDel g iface tether =>
    if g = f ∧ iface = w.ipa_if_num ∧ w.active f = true then l.erase tether else l
  | _ => if w.closesOn e = true ∧ w.clearsTable embmsIf f = true then [] else l

theorem routeDel_table (w : Wan) (s : WanStatics) (ok : Bool) (f : IpFamily) :
    (w.routeDel s ok f).2.ipa_if_num_tether = s.ipa_if_num_tether := by
  simp only [routeDel]
  split
  · rfl
  · split
    · rfl
    · split <;> rfl

theorem cleanDefaultRoute_table (a : WanAnswers) (w : Wan) (s : WanStatics) (f : IpFamily) :
    (w.cleanDefaultRoute a s f).2.ipa_if_num_tether = s.ipa_if_num_tether := by
  unfold cleanDefaultRoute handle_route_del_evt_ex handle_route_del_evt
  split
  · rw [routeDel_table]
    rfl
  · rw [routeDel_table]

theorem handle_route_add_evt_table {x : Wan × WanStatics}
    (h : w.handle_route_add_evt a s f = .ok x) : x.2.ipa_if_num_tether = s.ipa_if_num_tether := by
  rcases handle_route_add_evt_cases h with ⟨gw, p, rfl, -⟩ | ⟨p, dl, -, -, -, rfl⟩ <;> rfl

theorem upstreamRouteAdd_table {iface tether : Int} {x : Wan × WanStatics}
    (h : w.upstreamRouteAdd a s f iface tether = .ok x) (embmsIf : Bool) (g : IpFamily) :
    x.2.ipa_if_num_tether g =
      w.tableAfter embmsIf (.upstreamRouteAdd f iface tether) g (s.ipa_if_num_tether g) := by
  have hpost : ∀ {y : Wan × WanStatics} {s' : WanStatics},
      y.2.ipa_if_num_tether = s.ipa_if_num_tether → iface = w.ipa_if_num → w.ip_type.has f = true →
      y.1.post_wan_up_tether_evt y.2 f tether = .ok s' → s'.ipa_if_num_tether g =
        w.tableAfter embmsIf (.upstreamRouteAdd f iface tether) g (s.ipa_if_num_tether g) := by
    intro y s' hy hiface hhas h
    simp only [post_wan_up_tether_evt] at h
    split at h
    · cases h
      by_cases hg : g = f
      · subst hg
        simp [WanStatics.post, tableAfter, hy, hiface, hhas]
      · simp [WanStatics.post, tableAfter, hy, hg, Ne.symm hg]
    · cases h
  simp only [upstreamRouteAdd] at h
  split at h
  · next hiface =>
    split at h
    · next hhas =>
      split at h
      · obtain ⟨y, hy, h⟩ := bind_eq_ok h
        obtain ⟨s', hs', h⟩ := bind_eq_ok h
        cases h
        exact hpost (handle_route_add_evt_table hy) hiface hhas hs'
      · obtain ⟨y, hy, h⟩ := bind_eq_ok h
        cases hy
        obtain ⟨s', hs', h⟩ := bind_eq_ok h
        cases h
        exact hpost rfl hiface hhas hs'
    · next hhas =>
      cases h
      have hno : ¬ (f = g ∧ iface = w.ipa_if_num ∧ w.ip_type.has g = true) := by
        rintro ⟨rfl, -, hh⟩
        exact hhas hh
      simp only [tableAfter, if_neg hno]
  · next hiface =>
    have hno : ¬ (f = g ∧ iface = w.ipa_if_num ∧ w.ip_type.has g = true) := fun h => hiface h.2.1
    simp only [tableAfter, if_neg hno]
    split at h
    · cases h
      rw [cleanDefaultRoute_table]
    · cases h
      rfl

theorem upstreamRouteDel_table (a : WanAnswers) (w : Wan) (s : WanStatics) (f : IpFamily)
    (iface tether : Int) (embmsIf : Bool) (g : IpFamily) :
    (w.upstreamRouteDel a s f iface tether).2.ipa_if_num_tether g =
      w.tableAfter embmsIf (.upstreamRouteDel f iface tether) g (s.ipa_if_num_tether g) := by
  have hpost : (w.post_wan_down_tether_evt s f tether).ipa_if_num_tether g =
      if f = g then (s.ipa_if_num_tether g).erase tether else s.ipa_if_num_tether g := by
    simp only [post_wan_down_tether_evt]
    by_cases hg : g = f
    · subst hg
      split
      · simp [WanStatics.post]
      · next hmem => simp [List.erase_of_not_mem hmem]
    · split
      · simp [WanStatics.post, hg, Ne.symm hg]
      · simp [Ne.symm hg]
  simp only [upstreamRouteDel]
  split
  · next hup =>
    have hres : w.tableAfter embmsIf (.upstreamRouteDel f iface tether) g (s.ipa_if_num_tether g) =
        if f = g then (s.ipa_if_num_tether g).erase tether else s.ipa_if_num_tether g := by
      by_cases hg : f = g
      · subst hg
        simp [tableAfter, hup.1, hup.2]
      · simp [tableAfter, hg]
    rw [hres]
    split
    · rw [cleanDefaultRoute_table, hpost]
    · exact hpost
  · next hup =>
    have hno : ¬ (f = g ∧ iface = w.ipa_if_num ∧ w.active g = true) := by
      rintro ⟨rfl, h⟩
      exact hup h
    simp only [tableAfter, if_neg hno]

end Wan

theorem WanChanges.table {a : WanAnswers} {e : WanEvent} {w₀ : Wan} {x y : Wan × WanStatics}
    (h : WanChanges a e w₀ x y) :
    (e.isUpstream = false → y.2.ipa_if_num_tether = x.2.ipa_if_num_tether) ∧
      y.2.upstream = x.2.upstream ∧ y.2.added = x.2.added := by
  induction h with
  | refl => exact ⟨fun _ => rfl, rfl, rfl⟩
  | tail _ step ih =>
    cases step with
    | tether he l posted => exact ⟨fun h => by simp [he] at h, ih.2⟩
    | _ => exact ih

namespace Wan

variable {a : WanAnswers} {e : WanEvent} {w : Wan} {s s' : WanStatics} {f : IpFamily}

theorem event_callback_table {table : Int → Bool} {w' : Wan} (hc : w.Consistent)
    (hcl : w.closesOn e = false) (h : w.event_callback a s table e = .ok (.stays w', s'))
    (hch : WanChanges a e w (w, s) (w', s')) (embmsIf : Bool) (f : IpFamily) :
    s'.ipa_if_num_tether f = w.tableAfter embmsIf e f (s.ipa_if_num_tether f) := by
  have hother : e.isUpstream = false →
      s'.ipa_if_num_tether f = w.tableAfter embmsIf e f (s.ipa_if_num_tether f) := by
    intro he
    rw [hch.table.1 he]
    cases e <;> simp_all [tableAfter, WanEvent.isUpstream]
  have hnone : w.embms = true → w.ip_type.has f = false ∧ w.active f = false := by
    intro hembms
    have hhas : w.ip_type.has f = false := by simp [hc.embms_null hembms]
    refine ⟨hhas, ?_⟩
    rw [← Bool.not_eq_true]
    intro hup
    rw [hc.active_has f hup] at hhas
    cases hhas
  cases e with
  | upstreamRouteAdd g iface tether =>
    simp only [event_callback] at h
    split at h
    · next hembms =>
      cases h
      simp [tableAfter, hnone hembms]
    · obtain ⟨x, hx, hy⟩ := stay_map h
      obtain ⟨-, rfl⟩ := Prod.mk.inj hy
      exact upstreamRouteAdd_table hx embmsIf f
  | upstreamRouteDel g iface tether =>
    simp only [event_callback] at h
    split at h
    · next hembms =>
      cases h
      simp [tableAfter, hnone hembms]
    · cases h
      exact upstreamRouteDel_table a w s g iface tether embmsIf f
  | _ => exact hother rfl

theorem goDown_table (ha : a.Succeeds) (hc : w.Consistent) (embmsIf : Bool) :
    (∀ f, (w.goDown a s embmsIf).2.ipa_if_num_tether f =
        if w.clearsTable embmsIf f = true then [] else s.ipa_if_num_tether f) ∧
      (w.goDown a s embmsIf).2.upstream = s.upstream ∧
      (w.goDown a s embmsIf).2.added = s.added := by
  unfold goDown clearsTable
  by_cases hmode : w.m_is_sta_mode = .q6Wan
  · rw [if_pos hmode]
    by_cases hnull : w.ip_type = .null
    · have hres : w.handle_down_evt_ex a s embmsIf = (w, s) := by
        simp [handle_down_evt_ex, hnull]
      rw [hres]
      simp [hnull]
    · cases embmsIf with
      | true => simp [handle_down_evt_ex, hnull]
      | false =>
        obtain ⟨gw, posted, heq, -⟩ := handle_down_evt_ex_eq (s := s) ha hc hnull
        rw [heq]
        simp [hmode]
  · rw [if_neg hmode]
    obtain ⟨gw, heq⟩ := handle_down_evt_eq (s := s) ha hc
    rw [heq]
    simp [hmode]

end Wan

theorem foldl_noteClosed_ghosts (reports : List DownReport) (st : WanStatics) (f : IpFamily) :
    (reports.foldl WanStatics.noteClosed st).upstream f =
        (if ∃ r ∈ reports, st.upstream f = some r.ipa_if_num then none else st.upstream f) ∧
      (reports.foldl WanStatics.noteClosed st).added f =
        (if ∃ r ∈ reports, st.upstream f = some r.ipa_if_num then [] else st.added f) := by
  induction reports generalizing st with
  | nil => simp
  | cons r reports ih =>
    have h := ih (st.noteClosed r)
    rw [List.foldl_cons, h.1, h.2]
    by_cases hr : st.upstream f = some r.ipa_if_num
    · simp [WanStatics.noteClosed, hr]
    · simp [WanStatics.noteClosed, hr]

namespace WanWorld

variable {s s' : WanWorld} {i : WanInput} {reports : List DownReport}

/-- The upstream is closed by the event. -/
def UpstreamCloses (s : WanWorld) (i : WanInput) (f : IpFamily) : Prop :=
  ∃ w ∈ s.instances, w.closesOn i.event = true ∧
    (s.statics.noteEvent i.event).upstream f = some w.ipa_if_num

instance (s : WanWorld) (i : WanInput) (f : IpFamily) : Decidable (s.UpstreamCloses i f) := by
  unfold UpstreamCloses
  infer_instance

/-- **One step**, in closed form: what every handler makes of the table, and what the event says. -/
theorem step_table (hc : s.Consistent) (ha : s.Succeeds i) (h : s.step i = .ok (s', reports))
    (f : IpFamily) :
    s'.statics.ipa_if_num_tether f = s.instances.foldl
        (fun l w => w.tableAfter (s.table i w.ipa_if_num) i.event f l)
        (s.statics.ipa_if_num_tether f) ∧
      s'.statics.upstream f = (if s.UpstreamCloses i f then none
        else (s.statics.noteEvent i.event).upstream f) ∧
      s'.statics.added f = (if s.UpstreamCloses i f then []
        else (s.statics.noteEvent i.event).added f) := by
  have hend := step_induct (I := fun _ rest reports st => ∃ pre, s.instances = pre ++ rest ∧
      (∀ f, st.ipa_if_num_tether f = pre.foldl
        (fun l w => w.tableAfter (s.table i w.ipa_if_num) i.event f l)
        (s.statics.ipa_if_num_tether f)) ∧
      st.upstream = (s.statics.noteEvent i.event).upstream ∧
      st.added = (s.statics.noteEvent i.event).added ∧
      reports.map (·.ipa_if_num) =
        (pre.filter (·.closesOn i.event)).map (·.ipa_if_num)) hc ha ?_ ?_ h ?_
  · rcases hend with ⟨hup, rfl, hs⟩ | ⟨st, ⟨pre, hpre, htable, hu, had, hrep⟩, hst⟩
    · -- the event of a new interface closes none and says nothing of the routes
      have hcl : ∀ w : Wan, w.closesOn i.event = false := by
        intro w
        revert hup
        cases i.event <;> simp [WanEvent.isLinkUp, Wan.closesOn]
      have hnote : s.statics.noteEvent i.event = s.statics := by
        revert hup
        cases i.event <;> simp [WanEvent.isLinkUp, WanStatics.noteEvent]
      have hno : ¬ s.UpstreamCloses i f := by
        rintro ⟨w, -, hw, -⟩
        rw [hcl w] at hw
        cases hw
      have hfold : ∀ l : List Int, s.instances.foldl
          (fun l w => w.tableAfter (s.table i w.ipa_if_num) i.event f l) l = l := by
        intro l
        refine List.foldl_fixed' ?_ _
        intro w
        have hw := hcl w
        revert hup
        cases i.event <;> simp [WanEvent.isLinkUp, Wan.tableAfter, Wan.closesOn]
      rw [hfold, if_neg hno, if_neg hno, hnote]
      rcases hs with rfl | ⟨iface, mode, props, embms, table, -, rfl⟩
      · exact ⟨rfl, rfl, rfl⟩
      · rcases create_cases { s with embmsIf := table } iface mode props embms with
          heq | ⟨-, rm, on, -, heq⟩ <;> rw [heq] <;> exact ⟨rfl, rfl, rfl⟩
    · rw [List.append_nil] at hpre
      subst hpre
      have hghost := foldl_noteClosed_ghosts reports st f
      have hiff : (∃ r ∈ reports, (s.statics.noteEvent i.event).upstream f = some r.ipa_if_num) ↔
          s.UpstreamCloses i f := by
        have hmem : ∀ n, n ∈ reports.map (·.ipa_if_num) ↔
            ∃ w ∈ s.instances, w.closesOn i.event = true ∧ w.ipa_if_num = n := by
          intro n
          rw [hrep]
          simp [and_assoc]
        constructor
        · rintro ⟨r, hr, heq⟩
          obtain ⟨w, hw, hcl, hn⟩ := (hmem r.ipa_if_num).1 (List.mem_map_of_mem hr)
          exact ⟨w, hw, hcl, hn ▸ heq⟩
        · rintro ⟨w, hw, hcl, heq⟩
          obtain ⟨r, hr, hn⟩ := List.mem_map.1 ((hmem w.ipa_if_num).2 ⟨w, hw, hcl, rfl⟩)
          exact ⟨r, hr, by rw [hn, heq]⟩
      rw [hst, hghost.1, hghost.2, hu, had]
      refine ⟨?_, ?_, ?_⟩
      · obtain ⟨upstream, added, heq⟩ := foldl_noteClosed reports st
        rw [heq]
        exact htable f
      · exact if_congr hiff rfl rfl
      · exact if_congr hiff rfl rfl
  · rintro done w rest reports st w' st' hsuf hcw haw ⟨pre, hpre, htable, hu, had, hrep⟩ hcl hev hch
    refine ⟨pre ++ [w], by simp [hpre], ?_, ?_, ?_, ?_⟩
    · intro f
      rw [List.foldl_append, List.foldl_cons, List.foldl_nil, ← htable f]
      exact Wan.event_callback_table hcw hcl hev hch _ f
    · rw [hch.table.2.1, hu]
    · rw [hch.table.2.2, had]
    · simp [hrep, hcl]
  · rintro done w rest reports st r st' hsuf hcw haw ⟨pre, hpre, htable, hu, had, hrep⟩ hcl hr
    obtain ⟨h₁, rfl⟩ := Prod.mk.inj hr
    obtain rfl := AfterEvent.closed.inj h₁
    obtain ⟨hdown, hdu, hda⟩ := Wan.goDown_table (s := st) haw hcw (s.table i w.ipa_if_num)
    refine ⟨pre ++ [w], by simp [hpre], ?_, hdu.trans hu, hda.trans had, by simp [hrep, hcl]⟩
    intro f
    rw [List.foldl_append, List.foldl_cons, List.foldl_nil, ← htable f, hdown f]
    revert hcl
    cases i.event <;> simp [Wan.tableAfter, Wan.closesOn] <;> intros <;> simp_all
  · obtain ⟨upstream, added, heq⟩ := noteEvent_eq s.statics i.event
    exact ⟨[], rfl, fun f => by rw [heq]; rfl, rfl, rfl, rfl⟩

/-! ## The tables and the history -/

variable {g : List Int → Wan → List Int} {l : List Wan}

theorem foldl_of_idle (hid : ∀ v ∈ l, ∀ b, g b v = b) (b : List Int) : l.foldl g b = b :=
  (List.foldl_ext g (fun b _ => b) b fun b v hv => hid v hv b).trans (List.foldl_fixed l)

theorem foldl_of_unique {w : Wan} (hnodup : (l.map (·.ipa_if_num)).Nodup)
    (hw : w ∈ l) (hid : ∀ v ∈ l, v.ipa_if_num ≠ w.ipa_if_num → ∀ b, g b v = b) (b : List Int) :
    l.foldl g b = g b w := by
  induction l generalizing b with
  | nil => cases hw
  | cons v l ih =>
    simp only [List.map_cons, List.nodup_cons, List.mem_map, not_exists, not_and] at hnodup
    rcases List.mem_cons.1 hw with rfl | hw
    · rw [List.foldl_cons]
      exact foldl_of_idle (fun u hu => hid u (List.mem_cons_of_mem _ hu) (hnodup.1 u hu)) _
    · rw [List.foldl_cons, hid v List.mem_cons_self (Ne.symm (hnodup.1 w hw))]
      exact ih hnodup.2 hw (fun u hu => hid u (List.mem_cons_of_mem _ hu)) b

theorem foldl_of_clears {p : Wan → Bool}
    (hg : ∀ v ∈ l, ∀ b, g b v = if p v = true then [] else b) (b : List Int) :
    l.foldl g b = if ∃ v ∈ l, p v = true then [] else b := by
  induction l generalizing b with
  | nil => simp
  | cons v l ih =>
    rw [List.foldl_cons, ih (fun u hu => hg u (List.mem_cons_of_mem _ hu)),
      hg v List.mem_cons_self]
    by_cases hv : p v = true <;> simp [hv]

/-- The tables are not full and have each interface once, and an interface that is in one is
    tethered to the upstream as the events say. -/
def Tethers (s : WanWorld) : Prop :=
  ∀ f, (s.statics.ipa_if_num_tether f).length ≤ ipaMaxIfaceEntries ∧
    (s.statics.ipa_if_num_tether f).Nodup ∧
    ∀ x, s.statics.isWanUP f x = true ↔ s.statics.wan_up f = true ∧ x ∈ s.statics.added f

/-- The same, whether or not WAN is up. -/
def Recorded (l added : List Int) : Prop :=
  l.length ≤ ipaMaxIfaceEntries ∧ l.Nodup ∧ ∀ x, x ∈ l ↔ x ∈ added

theorem tethers_of_recorded
    (h : ∀ f, Recorded (s.statics.ipa_if_num_tether f) (s.statics.added f)) : s.Tethers := by
  intro f
  obtain ⟨hlen, hnodup, hmem⟩ := h f
  refine ⟨hlen, hnodup, ?_⟩
  intro x
  unfold WanStatics.isWanUP
  rw [← hmem x]
  by_cases hx : x ∈ s.statics.ipa_if_num_tether f <;> simp [hx]

/-- The upstream of an added interface has an address of the family, the interface is not in the
    table and the table has room, and it is empty if the upstream is another one than before. A
    deleted interface is one of an active upstream if the events say that it is tethered to it, and
    not in the table if the upstream is another one. An interface that is closed empties the tables
    of which it is the upstream, and no others that are not empty. -/
def TethersFit (s : WanWorld) (i : WanInput) : Prop :=
  s.Succeeds i ∧
    match i.event with
    | .upstreamRouteAdd f iface tether =>
      (∃ w ∈ s.instances, w.ipa_if_num = iface ∧ w.ip_type.has f = true) ∧
        tether ∉ s.statics.ipa_if_num_tether f ∧
        (s.statics.ipa_if_num_tether f).length < ipaMaxIfaceEntries ∧
        (s.statics.upstream f ≠ some iface → s.statics.ipa_if_num_tether f = [])
    | .upstreamRouteDel f iface tether =>
      if s.statics.upstream f = some iface then
        tether ∈ s.statics.added f →
          ∃ w ∈ s.instances, w.ipa_if_num = iface ∧ w.active f = true
      else
        ∀ w ∈ s.instances, w.ipa_if_num = iface → w.active f = true →
          tether ∉ s.statics.ipa_if_num_tether f
    | e =>
      ∀ w ∈ s.instances, w.closesOn e = true → ∀ f, s.statics.ipa_if_num_tether f = [] ∨
        (s.statics.upstream f = some w.ipa_if_num ↔
          w.clearsTable (s.table i w.ipa_if_num) f = true)

instance decidableTethersFit (s : WanWorld) (i : WanInput) : Decidable (s.TethersFit i) :=
  match i with
  | ⟨.linkUp .., _⟩ | ⟨.embmsLinkUp .., _⟩ | ⟨.addrAdd .., _⟩ | ⟨.upstreamRouteAdd .., _⟩
  | ⟨.upstreamRouteDel .., _⟩ | ⟨.routeAdd .., _⟩ | ⟨.routeDel .., _⟩ | ⟨.neigh .., _⟩
  | ⟨.firewallChange .., _⟩ | ⟨.wlanLinkDown .., _⟩ | ⟨.linkDown .., _⟩ | ⟨.cfgChange .., _⟩ =>
    inferInstanceAs (Decidable (_ ∧ _))

theorem tableAfter_add (hc : s.Consistent) {f : IpFamily} {iface tether : Int}
    (hup : ∃ w ∈ s.instances, w.ipa_if_num = iface ∧ w.ip_type.has f = true)
    (table : Int → Bool) (g : IpFamily) (l : List Int) :
    s.instances.foldl (fun l w => w.tableAfter (table w.ipa_if_num)
        (.upstreamRouteAdd f iface tether) g l) l = if f = g then l ++ [tether] else l := by
  obtain ⟨w, hw, rfl, hhas⟩ := hup
  rw [foldl_of_unique hc.nodup hw]
  · by_cases hg : f = g
    · subst hg
      simp [Wan.tableAfter, hhas]
    · simp [Wan.tableAfter, hg]
  · intro v _ hne b
    simp [Wan.tableAfter, Ne.symm hne]

theorem tableAfter_del (hc : s.Consistent) (f : IpFamily) (iface tether : Int) (table : Int → Bool)
    (g : IpFamily) (l : List Int) :
    s.instances.foldl (fun l w => w.tableAfter (table w.ipa_if_num)
        (.upstreamRouteDel f iface tether) g l) l =
      if f = g ∧ ∃ w ∈ s.instances, w.ipa_if_num = iface ∧ w.active f = true then l.erase tether
      else l := by
  split
  · next hup =>
    obtain ⟨rfl, w, hw, rfl, hact⟩ := hup
    rw [foldl_of_unique hc.nodup hw]
    · simp [Wan.tableAfter, hact]
    · intro v _ hne b
      simp [Wan.tableAfter, Ne.symm hne]
  · next hno =>
    refine foldl_of_idle ?_ l
    intro v hv b
    have hidle : ¬ (f = g ∧ iface = v.ipa_if_num ∧ v.active g = true) := by
      rintro ⟨rfl, rfl, hact⟩
      exact hno ⟨rfl, v, hv, rfl, hact⟩
    simp only [Wan.tableAfter, if_neg hidle]

theorem Recorded.add {l added : List Int} (h : Recorded l added) {tether : Int} (hnew : tether ∉ l)
    (hroom : l.length < ipaMaxIfaceEntries) {added' : List Int}
    (hadd : ∀ x, x ∈ added' ↔ x ∈ added ∨ x = tether) : Recorded (l ++ [tether]) added' := by
  refine ⟨by simpa using hroom, ?_, ?_⟩
  · refine List.nodup_append.2 ⟨h.2.1, List.nodup_singleton _, ?_⟩
    intro x hx y hy heq
    rw [List.mem_singleton.1 hy] at heq
    exact hnew (heq ▸ hx)
  · intro x
    rw [hadd x, ← h.2.2 x]
    simp

theorem Recorded.erase {l added : List Int} (h : Recorded l added) (tether : Int) :
    Recorded (l.erase tether) (added.filter (· ≠ tether)) := by
  refine ⟨Nat.le_trans List.length_erase_le h.1, h.2.1.erase tether, ?_⟩
  intro x
  rw [h.2.1.mem_erase_iff, h.2.2 x]
  simp [and_comm]

theorem recorded_nil : Recorded [] [] := ⟨by simp, List.nodup_nil, by simp⟩

/-- **One step.** -/
theorem step_recorded (hc : s.Consistent)
    (hrec : ∀ f, Recorded (s.statics.ipa_if_num_tether f) (s.statics.added f)) (hm : s.TethersFit i)
    (h : s.step i = .ok (s', reports)) :
    ∀ f, Recorded (s'.statics.ipa_if_num_tether f) (s'.statics.added f) := by
  have hstep := step_table hc hm.1 h
  have hopen : (∀ w : Wan, w.closesOn i.event = false) → ∀ f, ¬ s.UpstreamCloses i f := by
    rintro hcl f ⟨w, -, hw, -⟩
    rw [hcl w] at hw
    cases hw
  -- an event that is not for a tethered interface: some interfaces may be closed
  have hother : (∀ w ∈ s.instances, w.closesOn i.event = true → ∀ f,
        s.statics.ipa_if_num_tether f = [] ∨ (s.statics.upstream f = some w.ipa_if_num ↔
          w.clearsTable (s.table i w.ipa_if_num) f = true)) →
      (∀ (w : Wan) (f : IpFamily) (l : List Int), w.tableAfter (s.table i w.ipa_if_num) i.event f l =
        if w.closesOn i.event = true ∧ w.clearsTable (s.table i w.ipa_if_num) f = true then []
        else l) →
      s.statics.noteEvent i.event = s.statics →
      ∀ f, Recorded (s'.statics.ipa_if_num_tether f) (s'.statics.added f) := by
    intro hclose hafter hnote f
    have hr := hrec f
    have hfold := foldl_of_clears (l := s.instances)
      (g := fun l w => w.tableAfter (s.table i w.ipa_if_num) i.event f l)
      (p := fun w => w.closesOn i.event && w.clearsTable (s.table i w.ipa_if_num) f)
      (fun w _ b => by simpa using hafter w f b) (s.statics.ipa_if_num_tether f)
    rw [(hstep f).1, (hstep f).2.2, hfold, hnote]
    by_cases hempty : s.statics.ipa_if_num_tether f = []
    · have hnone : s.statics.added f = [] := by
        refine List.eq_nil_iff_forall_not_mem.2 ?_
        intro x hx
        have := (hr.2.2 x).2 hx
        simp [hempty] at this
      simp [hempty, hnone, recorded_nil]
    · have hiff : (∃ v ∈ s.instances,
            (v.closesOn i.event && v.clearsTable (s.table i v.ipa_if_num) f) = true) ↔
          s.UpstreamCloses i f := by
        unfold UpstreamCloses
        rw [hnote]
        simp only [Bool.and_eq_true]
        constructor
        · rintro ⟨w, hw, hcl, hclear⟩
          exact ⟨w, hw, hcl, ((hclose w hw hcl f).resolve_left hempty).2 hclear⟩
        · rintro ⟨w, hw, hcl, hup⟩
          exact ⟨w, hw, hcl, ((hclose w hw hcl f).resolve_left hempty).1 hup⟩
      by_cases hcl : s.UpstreamCloses i f
      · rw [if_pos (hiff.2 hcl), if_pos hcl]
        exact recorded_nil
      · rw [if_neg (fun h => hcl (hiff.1 h)), if_neg hcl]
        exact hr
  obtain ⟨e, answers⟩ := i
  cases e with
  | upstreamRouteAdd f iface tether =>
    obtain ⟨hup, hnew, hroom, hswitch⟩ := hm.2
    intro g
    rw [(hstep g).1, (hstep g).2.2, if_neg (hopen (fun _ => rfl) g), tableAfter_add hc hup]
    by_cases hg : f = g
    · subst hg
      rw [if_pos rfl]
      refine (hrec f).add hnew hroom ?_
      intro x
      have hout : tether ∉ s.statics.added f := fun h => hnew (((hrec f).2.2 tether).2 h)
      by_cases hsame : s.statics.upstream f = some iface
      · simp [WanStatics.noteEvent, hsame, hout, or_comm]
      · have hnone : ∀ y, y ∉ s.statics.added f := by
          intro y hy
          have := ((hrec f).2.2 y).2 hy
          simp [hswitch hsame] at this
        simp [WanStatics.noteEvent, hsame, hnone x]
    · rw [if_neg hg]
      simpa [WanStatics.noteEvent, Ne.symm hg] using hrec g
  | upstreamRouteDel f iface tether =>
    have hdel := hm.2
    intro g
    rw [(hstep g).1, (hstep g).2.2, if_neg (hopen (fun _ => rfl) g), tableAfter_del hc]
    by_cases hg : f = g
    · subst hg
      by_cases hsame : s.statics.upstream f = some iface
      · simp only [if_pos hsame] at hdel
        have hadd : (s.statics.noteEvent (.upstreamRouteDel f iface tether)).added f =
            (s.statics.added f).filter (· ≠ tether) := by
          simp [WanStatics.noteEvent, hsame]
        rw [hadd]
        by_cases hin : tether ∈ s.statics.added f
        · rw [if_pos ⟨rfl, hdel hin⟩]
          exact (hrec f).erase tether
        have hkeep : (if f = f ∧ ∃ w ∈ s.instances, w.ipa_if_num = iface ∧ w.active f = true then
            (s.statics.ipa_if_num_tether f).erase tether else s.statics.ipa_if_num_tether f) =
            (s.statics.ipa_if_num_tether f).erase tether := by
          have hout : tether ∉ s.statics.ipa_if_num_tether f :=
            fun h => hin (((hrec f).2.2 tether).1 h)
          rw [List.erase_of_not_mem hout, ite_self]
        rw [hkeep]
        exact (hrec f).erase tether
      · simp only [if_neg hsame] at hdel
        have hadd : (s.statics.noteEvent (.upstreamRouteDel f iface tether)).added f =
            s.statics.added f := by
          simp [WanStatics.noteEvent, hsame]
        rw [hadd]
        split
        · next hact =>
          obtain ⟨-, w, hw, hn, hup⟩ := hact
          rw [List.erase_of_not_mem (hdel w hw hn hup)]
          exact hrec f
        · exact hrec f
    · have hadd : (s.statics.noteEvent (.upstreamRouteDel f iface tether)).added g =
          s.statics.added g := by
        simp only [WanStatics.noteEvent]
        split
        · simp [Ne.symm hg]
        · rfl
      rw [hadd, if_neg (fun h => hg h.1)]
      exact hrec g
  | _ => exact hother hm.2 (fun _ _ _ => rfl) rfl

/-! ## Runs -/

/-- **Runs whose steps meet the condition.** The tables never overflow and have no interface twice,
    and an interface that asks whether WAN is up gets what the events say. -/
theorem run_tethers {tr : List (WanInput × List DownReport)} (run : Run step TethersFit {} tr s) :
    s.Tethers := by
  have hinv : s.Consistent ∧
      ∀ f, Recorded (s.statics.ipa_if_num_tether f) (s.statics.added f) := by
    refine run.invariant (fun _ s => s.Consistent ∧
      ∀ f, Recorded (s.statics.ipa_if_num_tether f) (s.statics.added f))
      ⟨consistent_init, fun _ => recorded_nil⟩ ?_
    rintro tr s i s' reports ⟨hc, hrec⟩ hm hstep
    exact ⟨step_consistent hc hm.1 hstep, step_recorded hc hrec hm hstep⟩
  exact tethers_of_recorded hinv.2

/-- A modem interface with an IPv4 address. -/
def oneModem : List WanInput :=
  [.answered (.linkUp 1 .q6Wan modemProps), .answered (.addrAdd 1 .v4 10 0)]

/-- Two interfaces are tethered to it, and one is taken away. -/
def tethersTwo : List WanInput :=
  oneModem ++ [.answered (.upstreamRouteAdd .v4 1 20), .answered (.upstreamRouteAdd .v4 1 21),
    .answered (.upstreamRouteDel .v4 1 20)]

/-- The theorem at a run after which WAN is up for the other one only. -/
theorem run_tethers_two :
    ∃ tr s, Run step TethersFit {} tr s ∧ s.statics.isWanUP .v4 20 = false ∧
      s.statics.isWanUP .v4 21 = true ∧ s.Tethers := by
  have hend : (exec step {} tethersTwo).toOption.map
      (fun x => (x.1.statics.isWanUP .v4 20, x.1.statics.isWanUP .v4 21)) = some (false, true) := by
    decide +kernel
  have hall : allMeet step (fun s i => decide (s.TethersFit i)) {} tethersTwo = true := by
    decide +kernel
  obtain ⟨s, tr, hexec, hend⟩ := exec_of_map hend
  obtain ⟨hdel, hup⟩ := Prod.mk.inj hend
  have run := Run.of_exec_of_allMeet (C := TethersFit)
    (fun _ _ _ h => of_decide_eq_true h) hexec hall
  exact ⟨tr, s, run, hdel, hup, run_tethers run⟩

/-- The same upstream route twice, and one delete. -/
def tethersTwice : List WanInput :=
  oneModem ++ [.answered (.upstreamRouteAdd .v4 1 20), .answered (.upstreamRouteAdd .v4 1 20),
    .answered (.upstreamRouteDel .v4 1 20)]

/-- WAN stays up for an interface that was deleted. -/
theorem run_staleTether :
    ∃ tr s, Run step Succeeds {} tr s ∧ s.statics.isWanUP .v4 20 = true ∧
      s.statics.added .v4 = [] ∧ ¬ s.Tethers := by
  have hend : (exec step {} tethersTwice).toOption.map
      (fun x => (x.1.statics.isWanUP .v4 20, x.1.statics.added .v4)) = some (true, []) := by
    decide +kernel
  have hall : allMeet step (fun s i => decide (s.Succeeds i)) {} tethersTwice = true := by
    decide +kernel
  obtain ⟨s, tr, hexec, hend⟩ := exec_of_map hend
  obtain ⟨hup, hadd⟩ := Prod.mk.inj hend
  refine ⟨tr, s, Run.of_exec_of_allMeet (C := Succeeds)
    (fun _ _ _ h => of_decide_eq_true h) hexec hall, hup, hadd, ?_⟩
  intro h
  have hin := (((h .v4).2.2 20).1 hup).2
  rw [hadd] at hin
  cases hin

end WanWorld

end Nx508j.Ipacm
