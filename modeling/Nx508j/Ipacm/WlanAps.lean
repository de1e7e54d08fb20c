import Nx508j.Ipacm.Wlan

/-! # The indices of the access points

An index is the number of access points that there were when the object was made, and is never given
back. As long as an access point only comes up while there is at most one other, whose index is 0,
the indices are different, so that each has its own half of the preallocated rules, and the objects
in memory are those that are registered. -/

namespace Nx508j.Ipacm

open Nx508j.Lib

/-! ## The halves of the array -/

@[simp] theorem mem_slotsFrom {offset p : Int} {n : Nat} :
    p ∈ slotsFrom offset n ↔ offset ≤ p ∧ p < offset + n := by
  simp only [slotsFrom, List.mem_map, List.mem_range]
  constructor
  · rintro ⟨i, hi, rfl⟩
    omega
  · intro h
    exact ⟨(p - offset).toNat, by omega, by omega⟩

@[simp] theorem numDummyRule_eq (n : Int) (f : IpFamily) : numDummyRule n f = 18 := by
  cases f with
  | v4 =>
    simp only [numDummyRule, defaultFiltertingRules, Lan2Lan.maxOffloadPair,
      ipaMaxPrivateSubnetEntries]
    omega
  | v6 => rfl

theorem Wlan.mem_slots {w : Wlan} {n p : Int} {f : IpFamily} :
    p ∈ w.slots n f ↔ w.wlan_ap_index * 9 ≤ p ∧ p < w.wlan_ap_index * 9 + 9 := by
  have hblock : w.wlan_ap_index * (3 + 3 + n) + w.wlan_ap_index * (3 - n) = w.wlan_ap_index * 9 := by
    rw [← Int.mul_add]
    congr 1
    omega
  cases f <;> simp only [Wlan.slots, Wlan.dftSlots, Wlan.lan2lanSlots, Wlan.privateSlots,
    List.mem_append, mem_slotsFrom, Wlan.dftOffset, Wlan.lan2lanOffset, Wlan.privateOffset,
    defaultFiltertingRules, Lan2Lan.maxOffloadPair, ipaMaxPrivateSubnetEntries, List.not_mem_nil,
    or_false, Nat.cast_ofNat, Int.reduceAdd] at hblock ⊢ <;> omega

theorem readAt_ok {α : Type} {m : Region α} {i : Int} (h₀ : 0 ≤ i) (h : i < m.size) :
    readAt m i = .ok (m.get i.toNat) := by
  unfold readAt
  rw [if_neg (by omega), Region.read_ok (by omega)]

theorem takeHdls_ok {m : Region UInt32} {l : List Int} (h : ∀ p ∈ l, 0 ≤ p ∧ p < m.size) :
    ∃ hdls, takeHdls (some m) l = .ok (some hdls) := by
  have hmap : ∃ hdls, l.mapM (readAt m) = .ok hdls := by
    induction l with
    | nil => exact ⟨[], rfl⟩
    | cons p l ih =>
      obtain ⟨hdls, hl⟩ := ih fun q hq => h q (List.mem_cons_of_mem _ hq)
      obtain ⟨h₀, hp⟩ := h p List.mem_cons_self
      exact ⟨m.get p.toNat :: hdls, by simp [List.mapM_cons, readAt_ok h₀ hp, hl]⟩
  obtain ⟨hdls, hl⟩ := hmap
  exact ⟨hdls, by simp [takeHdls, hl]⟩

theorem copyFltRuleHdls_ok {handle : Nat → Option UInt32} {n i : Nat} {m : Region UInt32}
    (h : i + n ≤ m.size) : ∃ m', copyFltRuleHdls handle n i m = .ok m' ∧ m'.size = m.size := by
  induction n generalizing i m with
  | zero => exact ⟨m, rfl, rfl⟩
  | succ n ih =>
    unfold copyFltRuleHdls
    cases handle i with
    | none => exact ⟨m, rfl, rfl⟩
    | some v =>
      dsimp only
      rw [Region.write_ok (by omega), ok_bind]
      exact ih (m := m.set i v) (by rw [Region.size_set]; omega)

theorem Wlan.install_ok (w : Wlan) (answer : DummyAnswer) (n : Int) (f : IpFamily) :
    ∃ m, w.install_dummy_flt_rule answer (numDummyRule n f)
        (.fill (numDummyRule n f).toNat 0) = .ok m ∧ m.size = 18 := by
  simp only [Wlan.install_dummy_flt_rule, numDummyRule_eq]
  split
  · exact ⟨_, rfl, rfl⟩
  · split
    · exact ⟨_, rfl, rfl⟩
    · exact copyFltRuleHdls_ok (by simp)

namespace WlanWorld

variable {s s' : WlanWorld} {e : WlanEvent} {posted : List Nat} {obj : Nat} {w : Wlan}

/-! ## What is to hold in every state -/

/-- The objects in memory have different indices and take their handles from different elements of
    the arrays, the counter counts them, and nothing else is registered. -/
structure Sound (s : WlanWorld) : Prop where
  indices : (s.instances.map (·.2.wlan_ap_index)).Nodup
  inside : ∀ x ∈ s.instances, ∀ f, ∃ hdls,
    takeHdls (s.dummy_flt_rule_hdl f) (x.2.slots s.ipa_num_private_subnet f) = .ok (some hdls)
  disjoint : s.instances.Pairwise fun x y => ∀ f,
    (x.2.slots s.ipa_num_private_subnet f).Disjoint (y.2.slots s.ipa_num_private_subnet f)
  count : s.num_wlan_ap_iface = s.instances.length
  iface_instances : ∀ r ∈ s.iface_instances, ∃ w, (r.2, w) ∈ s.instances
  cmd_evts : ∀ r ∈ s.cmd_evts, ∃ w, (r.obj, w) ∈ s.instances

/-- An access point for which an object is made finds the driver ready and at most one other access
    point, and its index is free. -/
def IndexFree (s : WlanWorld) : WlanEvent → Prop
  | .apLinkUp (some n) up =>
    s.if_cat n = .unknownIf → s.iface_instances.any (·.1 = n) = false →
      up.ready = true ∧ s.num_wlan_ap_iface ≤ 1 ∧
        ∀ x ∈ s.instances, x.2.wlan_ap_index ≠ s.num_wlan_ap_iface
  | _ => True

instance (s : WlanWorld) (e : WlanEvent) : Decidable (s.IndexFree e) := by
  unfold IndexFree
  split <;> infer_instance

/-- What the steps keep: the lists agree with the objects in memory, and the arrays are there as
    long as there is an object. -/
structure Numbered (s : WlanWorld) : Prop where
  addrs : (s.instances.map (·.1)).Nodup
  fresh : ∀ x ∈ s.instances, x.1 < s.next
  indices : (s.instances.map (·.2.wlan_ap_index)).Nodup
  range : ∀ x ∈ s.instances, 0 ≤ x.2.wlan_ap_index ∧ x.2.wlan_ap_index ≤ 1
  count : s.num_wlan_ap_iface = s.instances.length
  ifaces : s.iface_instances = s.instances.map fun x => (x.2.ipa_if_num, x.1)
  registered : ∀ e, s.listeners e = s.instances.map (·.1)
  size : ∀ f m, s.dummy_flt_rule_hdl f = some m → m.size = 18
  both : s.dummy_flt_rule_hdl .v4 = none ↔ s.dummy_flt_rule_hdl .v6 = none
  held : s.instances ≠ [] → ∀ f, s.dummy_flt_rule_hdl f ≠ none

theorem mem_listeners {r : Registration WlanEventId Nat} (h : r ∈ s.cmd_evts) :
    r.obj ∈ s.listeners r.event :=
  List.mem_map_of_mem (List.mem_filter.2 ⟨h, by simp⟩)

theorem Numbered.live (h : s.Numbered) {r : Registration WlanEventId Nat} (hr : r ∈ s.cmd_evts) :
    ∃ w, (r.obj, w) ∈ s.instances := by
  have hmem := mem_listeners hr
  rw [h.registered] at hmem
  obtain ⟨⟨obj, w⟩, hx, rfl⟩ := List.mem_map.1 hmem
  exact ⟨w, hx⟩

theorem Numbered.sound (h : s.Numbered) : s.Sound where
  indices := h.indices
  inside := by
    intro x hx f
    obtain ⟨m, hm⟩ := Option.ne_none_iff_exists'.1 (h.held (List.ne_nil_of_mem hx) f)
    have hsize := h.size f m hm
    have hrange := h.range x hx
    rw [hm]
    refine takeHdls_ok fun p hp => ?_
    have := Wlan.mem_slots.1 hp
    omega
  disjoint := by
    have hne := List.pairwise_map.1 h.indices
    refine hne.imp fun {x y} hxy f p hx hy => ?_
    have := Wlan.mem_slots.1 hx
    have := Wlan.mem_slots.1 hy
    omega
  count := h.count
  iface_instances := by
    intro r hr
    rw [h.ifaces] at hr
    obtain ⟨x, hx, rfl⟩ := List.mem_map.1 hr
    exact ⟨x.2, hx⟩
  cmd_evts := fun _ hr => h.live hr

theorem numbered_init (if_cat : Nat → IfaceCategory) (n : Int) :
    Numbered { if_cat := if_cat, ipa_num_private_subnet := n } where
  addrs := by simp
  fresh := by simp
  indices := by simp
  range := by simp
  count := by simp
  ifaces := by simp
  registered := by simp [listeners]
  size := by simp
  both := by simp
  held := by simp

/-! ## Deletion -/

theorem listeners_delete (obj : Nat) (e : WlanEventId) :
    (s.delete obj).listeners e = (s.listeners e).filter (· ≠ obj) := by
  simp only [listeners, delete, List.filter_map, List.filter_filter, Function.comp_def]
  congr 1
  refine List.filter_congr fun r _ => ?_
  exact Bool.and_comm _ _

theorem at?_mem (h : s.at? obj = some w) : (obj, w) ∈ s.instances := by
  obtain ⟨x, hx, rfl⟩ := Option.map_eq_some_iff.1 h
  have hobj : x.1 = obj := by simpa using List.find?_some hx
  rw [← hobj]
  exact List.mem_of_find?_eq_some hx

theorem at?_isSome (h : (obj, w) ∈ s.instances) : ∃ v, s.at? obj = some v := by
  cases hfind : s.at? obj with
  | some v => exact ⟨v, rfl⟩
  | none =>
    rw [at?, Option.map_eq_none_iff, List.find?_eq_none] at hfind
    exact absurd (hfind _ h) (by simp)

theorem length_delete (h : (s.instances.map (·.1)).Nodup)
    (hw : (obj, w) ∈ s.instances) : (s.delete obj).instances.length + 1 = s.instances.length := by
  have hmem : obj ∈ s.instances.map (·.1) := List.mem_map_of_mem (f := (·.1)) hw
  have herase := h.erase_eq_filter obj
  have hlen := congrArg List.length herase
  rw [List.length_erase_of_mem hmem, List.filter_map, List.length_map, List.length_map] at hlen
  have hpos := List.length_pos_of_mem hw
  have hfilter : (s.delete obj).instances.length =
      (s.instances.filter ((fun a => a != obj) ∘ fun x => x.1)).length := by
    congr 1
    refine List.filter_congr fun x _ => ?_
    simp [bne, beq_eq_decide]
  omega

theorem del_dummy_flt_rule_ok
    (hboth : s.dummy_flt_rule_hdl .v4 = none ↔ s.dummy_flt_rule_hdl .v6 = none)
    (deleted : IpFamily → Bool) :
    ∃ d, s.del_dummy_flt_rule deleted = .ok { s with dummy_flt_rule_hdl := d } ∧
      (d = s.dummy_flt_rule_hdl ∨ s.num_wlan_ap_iface = 0 ∧ d = fun _ => none) := by
  have hsame : ∃ d, (Except.ok s : Except Fault WlanWorld) = .ok { s with dummy_flt_rule_hdl := d } ∧
      (d = s.dummy_flt_rule_hdl ∨ s.num_wlan_ap_iface = 0 ∧ d = fun _ => none) :=
    ⟨_, rfl, .inl rfl⟩
  unfold del_dummy_flt_rule
  by_cases hnum : s.num_wlan_ap_iface = 0
  · rw [if_pos hnum]
    by_cases hv4 : s.dummy_flt_rule_hdl .v4 = none
    · simpa [hv4] using hsame
    obtain ⟨m, hv6⟩ := Option.ne_none_iff_exists'.1 fun hv6 => hv4 (hboth.2 hv6)
    rw [if_neg (by simpa using hv4), hv6]
    dsimp only
    split
    · exact hsame
    · split
      · exact hsame
      · exact ⟨_, rfl, .inr ⟨hnum, rfl⟩⟩
  · rw [if_neg hnum]
    exact hsame

theorem deleteSelf_numbered (h : s.Numbered) (hw : s.at? obj = some w)
    (if_index : Nat) (deleted : IpFamily → Bool) :
    ∃ s', s.deleteSelf if_index deleted obj w = .ok s' ∧ s'.Numbered := by
  unfold deleteSelf
  split
  · obtain ⟨d, hd, hcases⟩ := del_dummy_flt_rule_ok
      (s := { s with num_wlan_ap_iface := s.num_wlan_ap_iface - 1 }) h.both deleted
    rw [hd]
    refine ⟨_, rfl, ?_⟩
    have hlen := length_delete h.addrs (at?_mem hw)
    have hsub : (s.delete obj).instances.Sublist s.instances := List.filter_sublist
    have hmem : ∀ x ∈ (s.delete obj).instances, x ∈ s.instances := fun x hx => hsub.subset hx
    exact {
      addrs := h.addrs.sublist (hsub.map _)
      fresh := fun x hx => h.fresh x (hmem x hx)
      indices := h.indices.sublist (hsub.map _)
      range := fun x hx => h.range x (hmem x hx)
      count := by
        have hcount := h.count
        have heq : s.num_wlan_ap_iface - 1 = ((s.delete obj).instances.length : Int) := by omega
        exact heq
      ifaces := by
        simp only [delete, h.ifaces, List.filter_map, Function.comp_def]
      registered := by
        intro e
        refine (listeners_delete (s := s) obj e).trans ?_
        rw [h.registered, List.filter_map]
        rfl
      size := by
        intro f m hm
        rcases hcases with rfl | ⟨-, rfl⟩
        · exact h.size f m hm
        · cases hm
      both := by
        rcases hcases with rfl | ⟨-, rfl⟩
        · exact h.both
        · exact Iff.rfl
      held := by
        intro hne f
        rcases hcases with rfl | ⟨hnum, -⟩
        · exact h.held (List.ne_nil_of_length_pos (by omega)) f
        · -- the arrays go with the last object
          have hcount := h.count
          have hpos : 0 < (s.delete obj).instances.length := List.length_pos_iff.2 hne
          dsimp only at hnum
          omega }
  · exact ⟨s, rfl, h⟩

/-! ## An interface that goes down -/

theorem linkDown_numbered (h : s.Numbered) (iface : Option Nat) (obj : Nat) (w : Wlan) :
    (s.linkDown iface obj w).1.Numbered := by
  unfold linkDown
  split
  · exact h
  split
  · have hmap : ∀ {β : Type} (g : Nat × Wlan → β),
        (∀ x : Nat × Wlan, g (x.1, { x.2 with is_active := false }) = g x) →
        (s.handle_down_evt obj w).1.instances.map g = s.instances.map g := by
      intro β g hg
      simp only [handle_down_evt, List.map_map]
      refine List.map_congr_left fun x _ => ?_
      dsimp only [Function.comp_apply]
      split
      · exact hg x
      · rfl
    have hmem : ∀ x ∈ (s.handle_down_evt obj w).1.instances, ∃ y ∈ s.instances,
        y.1 = x.1 ∧ y.2.wlan_ap_index = x.2.wlan_ap_index := by
      intro x hx
      obtain ⟨y, hy, rfl⟩ := List.mem_map.1 hx
      refine ⟨y, hy, ?_⟩
      split <;> exact ⟨rfl, rfl⟩
    have haddrs := hmap (·.1) fun _ => rfl
    exact {
      addrs := haddrs ▸ h.addrs
      fresh := by
        intro x hx
        obtain ⟨y, hy, heq, -⟩ := hmem x hx
        exact heq ▸ h.fresh y hy
      indices := hmap (·.2.wlan_ap_index) (fun _ => rfl) ▸ h.indices
      range := by
        intro x hx
        obtain ⟨y, hy, -, heq⟩ := hmem x hx
        exact heq ▸ h.range y hy
      count := by simpa [handle_down_evt] using h.count
      ifaces := h.ifaces.trans (hmap (fun x => (x.2.ipa_if_num, x.1)) fun _ => rfl).symm
      registered := fun e => (h.registered e).trans haddrs.symm
      size := h.size
      both := h.both
      held := fun hne => h.held (by simpa [handle_down_evt] using hne) }
  · exact h

/-! ## An access point that comes up -/

theorem listeners_registr (n obj : Nat) (e : WlanEventId) :
    (s.registr n obj).listeners e = s.listeners e ++ [obj] := by
  simp only [listeners, registr, List.filter_append, List.map_append]
  congr 1
  cases e <;> rfl

theorem add_dummy_flt_rule_ok
    (hboth : s.dummy_flt_rule_hdl .v4 = none ↔ s.dummy_flt_rule_hdl .v6 = none)
    (hsize : ∀ f m, s.dummy_flt_rule_hdl f = some m → m.size = 18)
    (hheld : s.num_wlan_ap_iface ≠ 1 → ∀ f, s.dummy_flt_rule_hdl f ≠ none) (w : Wlan) (up : ApUp) :
    ∃ d, s.add_dummy_flt_rule w up = .ok { s with dummy_flt_rule_hdl := d } ∧
      (∀ f m, d f = some m → m.size = 18) ∧ ∀ f, d f ≠ none := by
  unfold add_dummy_flt_rule
  by_cases hnum : s.num_wlan_ap_iface = 1
  · rw [if_pos hnum]
    by_cases hv4 : s.dummy_flt_rule_hdl .v4 = none
    · have hv6 := hboth.1 hv4
      obtain ⟨m₄, h₄, hsize₄⟩ := w.install_ok (up.dummy .v4) s.ipa_num_private_subnet .v4
      obtain ⟨m₆, h₆, hsize₆⟩ := w.install_ok (up.dummy .v6) s.ipa_num_private_subnet .v6
      rw [if_neg (by simp [hv4, hv6])]
      dsimp only
      rw [h₄, ok_bind, h₆, ok_bind]
      refine ⟨_, rfl, ?_, ?_⟩
      · rintro (_ | _) m hm
        · exact Option.some.inj hm ▸ hsize₄
        · exact Option.some.inj hm ▸ hsize₆
      · rintro (_ | _) <;> simp
    · rw [if_pos (Or.inl hv4)]
      refine ⟨_, rfl, hsize, ?_⟩
      rintro (_ | _)
      · exact hv4
      · exact fun hv6 => hv4 (hboth.2 hv6)
  · rw [if_neg hnum]
    exact ⟨_, rfl, hsize, hheld hnum⟩

theorem instances_add_dummy {up : ApUp} (h : s.add_dummy_flt_rule w up = .ok s') :
    s'.instances = s.instances := by
  unfold add_dummy_flt_rule at h
  split at h
  · split at h
    · rw [Except.ok.inj h]
    · obtain ⟨v4, -, h⟩ := bind_eq_ok h
      obtain ⟨v6, -, h⟩ := bind_eq_ok h
      rw [← Except.ok.inj h]
  · rw [Except.ok.inj h]

theorem create_numbered (h : s.Numbered) {n : Nat} {up : ApUp} (hready : up.ready = true)
    (hnum : s.num_wlan_ap_iface ≤ 1)
    (hfree : ∀ x ∈ s.instances, x.2.wlan_ap_index ≠ s.num_wlan_ap_iface) :
    ∃ t, s.construct n up = .ok t ∧ (t.registr n s.next).Numbered := by
  have hcount := h.count
  let w : Wlan :=
    { ipa_if_num := n, wlan_ap_index := s.num_wlan_ap_iface, rx_prop := up.rx_prop }
  let t : WlanWorld :=
    { s with
      instances := s.instances ++ [(s.next, w)], next := s.next + 1,
      num_wlan_ap_iface := s.num_wlan_ap_iface + 1 }
  obtain ⟨d, hd, hsize, hheld⟩ := add_dummy_flt_rule_ok (s := t) h.both h.size (by
    intro hne
    refine h.held ?_
    rintro hnil
    rw [hnil] at hcount
    exact hne (by simp [t, hcount])) w up
  refine ⟨{ t with dummy_flt_rule_hdl := d }, ?_, ?_⟩
  · unfold construct
    dsimp only
    rw [if_neg (by omega), if_neg (by simp [hready])]
    exact hd
  · have hnew : ∀ x ∈ s.instances ++ [(s.next, w)], x ∈ s.instances ∨ x = (s.next, w) := by
      simp
    exact {
      addrs := by
        refine (List.map_append ..).symm ▸ List.nodup_append.2 ⟨h.addrs, by simp, ?_⟩
        rintro a ha b hb rfl
        obtain ⟨x, hx, rfl⟩ := List.mem_map.1 ha
        have heq : x.1 = s.next := by simpa using hb
        exact absurd (h.fresh x hx) (heq ▸ Nat.lt_irrefl _)
      fresh := by
        intro x hx
        rcases hnew x hx with hx | rfl
        · exact Nat.lt_succ_of_lt (h.fresh x hx)
        · exact Nat.lt_succ_self _
      indices := by
        refine (List.map_append ..).symm ▸ List.nodup_append.2 ⟨h.indices, by simp, ?_⟩
        rintro a ha b hb rfl
        obtain ⟨x, hx, rfl⟩ := List.mem_map.1 ha
        exact hfree x hx (by simpa using hb)
      range := by
        intro x hx
        rcases hnew x hx with hx | rfl
        · exact h.range x hx
        · exact ⟨by dsimp only [w]; omega, hnum⟩
      count := by simp [registr, t, hcount]
      ifaces := by simp [registr, t, w, h.ifaces]
      registered := by
        intro e
        rw [listeners_registr]
        simpa [registr, t, listeners] using h.registered e
      size := hsize
      both := iff_of_false (hheld .v4) (hheld .v6)
      held := fun _ => hheld }

/-! ## Every event -/

/-- **A dispatch** whose callbacks keep an invariant under which nothing else than objects in memory
    is registered. -/
theorem processEvt_ends {I : WlanWorld → Prop} {F : Fault → Prop} {event : WlanEventId}
    {callback : WlanWorld → Nat → Wlan → Except Fault (WlanWorld × List Nat)}
    (hlive : ∀ s, I s → ∀ r ∈ s.cmd_evts, ∃ w, s.at? r.obj = some w)
    (hcb : ∀ s obj w, I s → s.at? obj = some w → Ends F (callback s obj w) fun r => I r.1)
    (objs : List Nat) (h : I s) : Ends F (processEvt event callback s objs) fun r => I r.1 := by
  induction objs generalizing s with
  | nil => exact .ok h
  | cons obj objs ih =>
    unfold processEvt
    split
    · next hmem =>
      obtain ⟨w, hw⟩ := hlive s h _ hmem
      rw [hw]
      refine (hcb s obj w h hw).bind fun a _ ha => ?_
      exact (ih ha).bind fun b _ hb => .ok hb
    · exact ih h

theorem step_ends (h : s.Numbered) (hfree : s.IndexFree e) :
    Ends (fun _ => ∃ up, e = .apLinkUp none up) (s.step e) fun r => r.1.Numbered := by
  have hlive : ∀ s, Numbered s → ∀ r ∈ s.cmd_evts, ∃ w, s.at? r.obj = some w := by
    intro s h r hr
    obtain ⟨w, hw⟩ := h.live hr
    exact at?_isSome hw
  cases e with
  | apLinkUp iface up =>
    cases iface with
    | none => exact ⟨up, rfl⟩
    | some n =>
      simp only [step, apLinkUp]
      split
      · next hcat =>
        have hcat' : Numbered { s with if_cat := Function.update s.if_cat n .wlanIf } :=
          { h with }
        unfold create_iface_instance
        split
        · exact .ok hcat'
        · next hnone =>
          obtain ⟨hready, hnum, hidx⟩ := hfree hcat (Bool.eq_false_iff.2 hnone)
          obtain ⟨t, ht, hnew⟩ := create_numbered hcat' hready hnum hidx
          rw [ht]
          exact .ok hnew
      · exact .ok h
  | linkDown iface =>
    refine processEvt_ends hlive ?_ _ h
    intro s obj w h _
    exact .ok (linkDown_numbered h iface obj w)
  | deleteSelf if_index deleted =>
    refine processEvt_ends hlive ?_ _ h
    intro s obj w h hw
    obtain ⟨s', hs', h'⟩ := deleteSelf_numbered h hw if_index deleted
    rw [hs']
    exact .ok h'

/-- **One event** leaves everything sound if and only if an object that it makes has a free index.
    -/
theorem step_sound_iff (h : s.Numbered) (hstep : s.step e = .ok (s', posted)) :
    s'.Sound ↔ s.IndexFree e := by
  constructor
  · intro hs
    cases e with
    | linkDown iface => trivial
    | deleteSelf if_index deleted => trivial
    | apLinkUp iface up =>
      cases iface with
      | none => trivial
      | some n =>
        intro hcat hany
        simp only [step, apLinkUp, if_pos hcat, create_iface_instance, construct] at hstep
        rw [if_neg (Bool.eq_false_iff.1 hany)] at hstep
        have hcount := h.count
        by_cases hout : s.num_wlan_ap_iface < 0 ∨ s.num_wlan_ap_iface > 1
        · -- the object that the constructor deleted is registered
          rw [if_pos hout] at hstep
          obtain ⟨rfl, -⟩ := ok_pair hstep
          obtain ⟨w, hw⟩ := hs.iface_instances (n, s.next) (by simp [registr, delete])
          simp [registr, delete] at hw
        rw [if_neg hout] at hstep
        cases hready : up.ready with
        | false =>
          rw [hready, if_pos rfl] at hstep
          obtain ⟨rfl, -⟩ := ok_pair hstep
          have hlen := hs.count
          simp only [registr, List.length_append, List.length_cons, List.length_nil] at hlen
          omega
        | true =>
          rw [hready, if_neg (by decide)] at hstep
          obtain ⟨s₁, h₁, hstep⟩ := bind_eq_ok hstep
          obtain ⟨s₂, h₂, h₁⟩ := bind_eq_ok h₁
          cases h₁
          obtain ⟨rfl, -⟩ := ok_pair hstep
          refine ⟨rfl, by omega, ?_⟩
          have hnodup : (s₂.instances.map (·.2.wlan_ap_index)).Nodup := hs.indices
          rw [instances_add_dummy h₂, List.map_append] at hnodup
          intro x hx heq
          refine (List.nodup_append.1 hnodup).2.2 _ (List.mem_map_of_mem hx) _ ?_ rfl
          rw [heq]
          exact List.mem_cons_self
  · intro hfree
    have hends := step_ends h hfree
    rw [hstep] at hends
    exact Numbered.sound hends

/-- **Access points.** As long as every object that is made finds a free index, in every state that
    is reached the objects have different indices and disjoint parts of the arrays, the counter
    counts them and none that is deleted is registered. -/
theorem run_apsSound (if_cat : Nat → IfaceCategory) (n : Int) {tr : List (WlanEvent × List Nat)}
    (run : Run step IndexFree { if_cat := if_cat, ipa_num_private_subnet := n } tr s) : s.Sound := by
  refine (run.invariant (fun _ s => Numbered s) (numbered_init if_cat n) ?_).sound
  intro tr s e s' posted h hfree hstep
  have hends := step_ends h hfree
  rwa [hstep] at hends

/-- Two access points; the second one goes and its index is given to the next. -/
def reuseUp : List WlanEvent :=
  [.apLinkUp (some 0) {}, .apLinkUp (some 1) {}, .linkDown (some 1), .deleteSelf 1 fun _ => true,
    .apLinkUp (some 2) {}]

theorem run_apsSound_reuse :
    ∃ tr s, Run step IndexFree {} tr s ∧ s.Sound ∧
      s.instances.map (·.2.wlan_ap_index) = [0, 1] ∧ s.instances.map (·.2.ipa_if_num) = [0, 2] := by
  have hvalue : (exec step {} reuseUp).toOption.map
      (fun x => x.1.instances.map fun x => (x.2.wlan_ap_index, x.2.ipa_if_num)) =
        some [(0, 0), (1, 2)] := by
    decide +kernel
  have hmeet : allMeet step (fun s e => decide (s.IndexFree e)) {} reuseUp = true := by
    decide +kernel
  obtain ⟨s, tr, hexec, hvalue⟩ := exec_of_map hvalue
  have run := Run.of_exec_of_allMeet (C := IndexFree) (fun s c _ h => of_decide_eq_true h) hexec
    hmeet
  have hpairs := hvalue
  refine ⟨tr, s, run, run_apsSound (fun _ => .unknownIf) 0 run, ?_, ?_⟩
  · simpa [Function.comp_def] using congrArg (List.map Prod.fst) hpairs
  · simpa [Function.comp_def] using congrArg (List.map Prod.snd) hpairs

/-- The first of two access points goes, and the next one gets the index of the second. And of
    three, the third one is deleted in its constructor and then registered. -/
theorem run_apsClash :
    (∃ tr s, Run step (fun _ _ => True) {} tr s ∧
        s.instances.map (·.2.wlan_ap_index) = [1, 1] ∧ ¬ s.Sound) ∧
      ∃ tr s, Run step (fun _ _ => True) {} tr s ∧ s.instances.map (·.1) = [0, 1] ∧
        s.iface_instances = [(0, 0), (1, 1), (2, 2)] ∧ ¬ s.Sound := by
  constructor
  · have hvalue : (exec step {} [.apLinkUp (some 0) {}, .apLinkUp (some 1) {}, .linkDown (some 0),
        .deleteSelf 0 fun _ => true, .apLinkUp (some 2) {}]).toOption.map
          (fun x => x.1.instances.map (·.2.wlan_ap_index)) = some [1, 1] := by
      decide +kernel
    obtain ⟨tr, s, run, hindices⟩ := Run.exists_of_exec (C := fun _ => True)
      (g := fun s : WlanWorld => s.instances.map (·.2.wlan_ap_index)) hvalue (fun _ _ => trivial)
    refine ⟨tr, s, run, hindices, fun hs => ?_⟩
    have hnodup := hs.indices
    rw [hindices] at hnodup
    exact absurd hnodup (by decide)
  · have hvalue : (exec step {} [.apLinkUp (some 0) {}, .apLinkUp (some 1) {},
        .apLinkUp (some 2) {}]).toOption.map
          (fun x => (x.1.instances.map (·.1), x.1.iface_instances)) =
            some ([0, 1], [(0, 0), (1, 1), (2, 2)]) := by
      decide +kernel
    obtain ⟨tr, s, run, hs⟩ := Run.exists_of_exec (C := fun _ => True)
      (g := fun s : WlanWorld => (s.instances.map (·.1), s.iface_instances)) hvalue
      (fun _ _ => trivial)
    obtain ⟨hlive, hifaces⟩ := Prod.mk.inj hs
    refine ⟨tr, s, run, hlive, hifaces, fun hs => ?_⟩
    obtain ⟨w, hw⟩ := hs.iface_instances (2, 2) (by simp [hifaces])
    have hmem : 2 ∈ s.instances.map (·.1) := List.mem_map_of_mem (f := (·.1)) hw
    rw [hlive] at hmem
    exact absurd hmem (by decide)

end WlanWorld

end Nx508j.Ipacm
