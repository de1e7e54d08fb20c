import Nx508j.Ipacm.StaFirewall

/-! # The handles of the firewall of a station

Every rule of the firewall that is installed has its handle in exactly one of the places that the
next deletion looks at, as long as a rule is only stored where there is no such handle yet. Nothing
resets the places that are not counted: a deletion is right only if all of them have been stored
since the last one. -/

namespace Nx508j.Ipacm

open Nx508j.Lib Function

/-! ## The property -/

/-- The places that are not counted. -/
def namedPlaces : IpFamily → List FwPlace
  | .v4 => [.dft]
  | .v6 => [.dft, .icmp, .frag]

namespace StaFirewall

variable (before : IpFamily → RuleTable StaRule) (s : StaFirewall) (f : IpFamily)

/-- All places that a deletion looks at. -/
def places : List FwPlace := s.slots f ++ namedPlaces f

/-- The table of a family is what it was before the interface came up, and `own` behind it. Each of
    these rules has its handle in exactly one place, and the slots that are counted hold such
    handles. -/
structure Booked (own : List (Nat × StaRule)) : Prop where
  rules : (s.driver.table f).rules = (before f).rules ++ own
  size : (s.firewall_hdl f).size = ipacmMaxFirewallEntries
  num_le : s.num_firewall f ≤ ipacmMaxFirewallEntries
  slots : ∀ i < s.num_firewall f, ∃ r ∈ own, s.hdlAt f (.slot i) = some r.1
  found : ∀ r ∈ own, ∃ p ∈ s.places f, s.hdlAt f p = some r.1
  single : ∀ r ∈ own, ∀ p ∈ s.places f, ∀ q ∈ s.places f,
    s.hdlAt f p = some r.1 → s.hdlAt f q = some r.1 → p = q
  grown : (before f).next ≤ (s.driver.table f).next
  old : ∀ p ∈ namedPlaces f, ∀ h, s.hdlAt f p = some h →
    (before f).next ≤ h ∧ h < (s.driver.table f).next

/-- The rules of the firewall of a family: what is behind the rules that were there before. -/
def own : List (Nat × StaRule) := (s.driver.table f).rules.drop (before f).rules.length

/-- What a call does if it is right. A deletion passes the handle of no other rule than one of the
    firewall of its family, and of none twice; if it succeeds, it has passed all of them, they are
    gone, and none is counted. -/
def Right (s' : StaFirewall) (ok : Bool) : StaCall → Prop
  | .config _ _ _ => True
  | .del f _ => ∃ deletes, s'.driver.deletes = s.driver.deletes ++ deletes ∧
      (deletes.map FltDelete.hdl).Nodup ∧
      (∀ d ∈ deletes, d.family = f ∧ d.hdl ∈ (s.own before f).map Prod.fst) ∧
      (ok = true →
        (∀ r ∈ s.own before f, r.1 ∈ deletes.map FltDelete.hdl) ∧
          (s'.driver.table f).rules = (before f).rules ∧ s'.num_firewall f = 0)

/-! ## The condition -/

/-- The handle of a rule that is installed. -/
def Holds (p : FwPlace) : Prop := ∃ h, s.hdlAt f p = some h ∧ s.driver.knows f h = true

/-- A handle can be stored: in a slot if none is counted, elsewhere if there is none of an installed
    rule. -/
def Free : FwPlace → Prop
  | .slot i => s.num_firewall f = 0 ∧ i < ipacmMaxFirewallEntries
  | p => ¬ s.Holds f p

/-- As far as the calls succeed, every rule is installed and its handle stored where it can be. -/
def OpsFit (a : StaAddAnswers) : List StaOp → Nat → Prop
  | [], _ => True
  | .getRoutingTable :: ops, n => a.rt_tbl = true → OpsFit a ops n
  | .add p _ :: ops, n =>
    match a.add n with
    | .failed => True
    | .badStatus => False
    | .added => s.Free f p ∧ OpsFit a ops (n + 1)

/-- The first handle is not deleted. -/
def FailsFirst : List (List FwPlace × DelAnswer) → Prop
  | [] => False
  | (_, a) :: _ => a.one = false

/-- The handles of all calls are deleted. -/
def Succeed (calls : List (List FwPlace × DelAnswer)) : Prop :=
  ∀ c ∈ calls, c.2.memory = true ∧ ∀ i < c.1.length, c.2.deleted i = true

/-- The call whose failure is not looked at. -/
def fragCall (a : StaDelAnswers) : List (List FwPlace × DelAnswer) :=
  match f with
  | .v4 => []
  | .v6 => [([.frag], a.frag)]

/-- The condition on a call. -/
def Fits (lib : InetLib) : StaCall → Prop
  | .config f xml_file a => s.rx_prop = false ∨ ∃ b conf entries,
      IPACM_read_firewall_xml lib xml_file {} = .ok (b, conf) ∧ conf.read = .ok entries ∧
        (a.memory = true →
          s.OpsFit f a (staOps conf.firewall_enable conf.rule_action_accept entries f) 0)
  | .del f a => s.rx_prop = false ∨ (∀ p ∈ namedPlaces f, s.Holds f p) ∧
      (FailsFirst (s.delCalls f a) ∨ Succeed (s.delCalls f a ++ fragCall f a))

end StaFirewall

/-! ## One rule -/

section Places

variable {s : StaFirewall} {f : IpFamily}

theorem mem_places {p : FwPlace} :
    p ∈ s.places f ↔ (∃ i < s.num_firewall f, p = .slot i) ∨ p ∈ namedPlaces f := by
  unfold StaFirewall.places StaFirewall.slots
  rw [List.mem_append, List.mem_map]
  simp only [List.mem_range]
  exact or_congr_left ⟨fun ⟨i, hi, hp⟩ => ⟨i, hi, hp.symm⟩, fun ⟨i, hi, hp⟩ => ⟨i, hi, hp.symm⟩⟩

theorem slot_not_named (i : Nat) : FwPlace.slot i ∉ namedPlaces f := by
  cases f <;> simp [namedPlaces]

theorem slot_mem_places {i : Nat} : .slot i ∈ s.places f ↔ i < s.num_firewall f := by
  rw [mem_places]
  constructor
  · rintro (⟨j, hj, hij⟩ | hnamed)
    · obtain rfl := FwPlace.slot.inj hij
      exact hj
    · exact absurd hnamed (slot_not_named i)
  · intro hi
    exact .inl ⟨i, hi, rfl⟩

theorem named_mem_places {p : FwPlace} (hp : p ∈ namedPlaces f) : p ∈ s.places f :=
  mem_places.2 (.inr hp)

end Places

namespace StaFirewall

variable {before : IpFamily → RuleTable StaRule} {s s' : StaFirewall} {f : IpFamily}
  {own : List (Nat × StaRule)}

/-- The handle `hdl` has been stored in a place of the family, and nothing else has changed. -/
structure Stored (f : IpFamily) (p : FwPlace) (hdl : Nat) (s s' : StaFirewall) : Prop where
  driver : s'.driver = s.driver
  rx_prop : s'.rx_prop = s.rx_prop
  size : ∀ g, (s'.firewall_hdl g).size = (s.firewall_hdl g).size
  self : s'.hdlAt f p = some hdl
  other : ∀ q ∈ s.places f, q ≠ p → s'.hdlAt f q = s.hdlAt f q
  num : s'.num_firewall f = s.num_firewall f + if p ∈ namedPlaces f then 0 else 1
  family : ∀ g, g ≠ f → (∀ q ∈ s.places g, s'.hdlAt g q = s.hdlAt g q) ∧
    s'.num_firewall g = s.num_firewall g

theorem store_slot {i : Nat} (hi : i < (s.firewall_hdl f).size) (hdl : Nat) :
    ∃ s', s.store f hdl (.slot i) = .ok s' ∧ Stored f (.slot i) hdl s s' := by
  refine ⟨{ s with
    firewall_hdl := update s.firewall_hdl f ((s.firewall_hdl f).set i (some hdl))
    num_firewall := update s.num_firewall f (s.num_firewall f + 1) },
    by rw [store, Region.write_ok hi, ok_bind], rfl, rfl, fun g => ?_, ?_, ?_, ?_, ?_⟩
  · by_cases hg : g = f
    · subst hg
      simp
    · simp [hg]
  · simp [hdlAt]
  · intro q hq hne
    cases q with
    | slot j =>
      have hji : j ≠ i := fun h => hne (h ▸ rfl)
      simp [hdlAt, Region.get_set, hji]
    | _ => rfl
  · simp [slot_not_named]
  · intro g hg
    refine ⟨fun q _ => ?_, by simp [hg]⟩
    cases q with
    | slot j => simp [hdlAt, hg]
    | _ => rfl

variable {p : FwPlace}

theorem store_named (hp : p ∈ namedPlaces f) (hdl : Nat) :
    ∃ s', s.store f hdl p = .ok s' ∧ Stored f p hdl s s' := by
  cases f <;> cases p <;> simp only [namedPlaces, List.mem_cons, List.not_mem_nil, reduceCtorEq,
    or_false, or_true, or_self] at hp
  case v4.dft =>
    refine ⟨_, rfl, rfl, rfl, fun _ => rfl, rfl, ?_, rfl, ?_⟩
    · intro q hq hne
      have hq' := mem_places.1 hq
      rcases hq' with ⟨i, -, rfl⟩ | hq'
      · rfl
      · exact absurd (by simpa [namedPlaces] using hq') hne
    · intro g hg
      cases g with
      | v4 => exact absurd rfl hg
      | v6 => exact ⟨fun q _ => by cases q <;> rfl, rfl⟩
  case v6.dft | v6.icmp | v6.frag =>
    refine ⟨_, rfl, rfl, rfl, fun _ => rfl, rfl, ?_, rfl, ?_⟩
    · intro q hq hne
      cases q <;> first | rfl | exact absurd rfl hne
    · intro g hg
      cases g with
      | v6 => exact absurd rfl hg
      | v4 =>
        refine ⟨fun q hq => ?_, rfl⟩
        rcases mem_places.1 hq with ⟨i, -, rfl⟩ | hq
        · rfl
        · obtain rfl : q = .dft := by simpa [namedPlaces] using hq
          rfl

theorem Stored.mem_places {p q : FwPlace} {hdl : Nat} (h : Stored f p hdl s s')
    (hp : p ∈ namedPlaces f ∨ p = .slot (s.num_firewall f)) :
    q ∈ s'.places f ↔ q = p ∨ q ∈ s.places f := by
  rw [Ipacm.mem_places, Ipacm.mem_places, h.num]
  rcases hp with hp | rfl
  · rw [if_pos hp, Nat.add_zero]
    constructor
    · exact .inr
    · rintro (rfl | hq)
      · exact .inr hp
      · exact hq
  · rw [if_neg (slot_not_named _)]
    constructor
    · rintro (⟨i, hi, rfl⟩ | hq)
      · rcases Nat.lt_succ_iff_lt_or_eq.1 hi with hi | rfl
        · exact .inr (.inl ⟨i, hi, rfl⟩)
        · exact .inl rfl
      · exact .inr (.inr hq)
    · rintro (rfl | ⟨i, hi, rfl⟩ | hq)
      · exact .inl ⟨_, Nat.lt_succ_self _, rfl⟩
      · exact .inl ⟨i, Nat.lt_succ_of_lt hi, rfl⟩
      · exact .inr hq

theorem Booked.congr (h : Booked before s f own) (htable : s'.driver.table f = s.driver.table f)
    (hsize : (s'.firewall_hdl f).size = (s.firewall_hdl f).size)
    (hnum : s'.num_firewall f = s.num_firewall f)
    (hat : ∀ q ∈ s.places f, s'.hdlAt f q = s.hdlAt f q) : Booked before s' f own := by
  have hplaces : s'.places f = s.places f := by
    unfold places StaFirewall.slots
    rw [hnum]
  constructor
  · rw [htable]
    exact h.rules
  · rw [hsize]
    exact h.size
  · rw [hnum]
    exact h.num_le
  · intro i hi
    rw [hnum] at hi
    rw [hat _ (slot_mem_places.2 hi)]
    exact h.slots i hi
  · intro r hr
    obtain ⟨p, hp, heq⟩ := h.found r hr
    exact ⟨p, hplaces ▸ hp, (hat p hp).trans heq⟩
  · intro r hr p hp q hq hpr hqr
    rw [hplaces] at hp hq
    rw [hat p hp] at hpr
    rw [hat q hq] at hqr
    exact h.single r hr p hp q hq hpr hqr
  · rw [htable]
    exact h.grown
  · intro p hp x hx
    rw [hat p (named_mem_places hp)] at hx
    rw [htable]
    exact h.old p hp x hx

theorem Booked.mem_table (h : Booked before s f own) {r : Nat × StaRule} (hr : r ∈ own) :
    r ∈ (s.driver.table f).rules := by
  rw [h.rules]
  exact List.mem_append_right _ hr

theorem Booked.lt_next (h : Booked before s f own) {q : FwPlace} (hq : q ∈ s.places f) {x : Nat}
    (hx : s.hdlAt f q = some x) : x < (s.driver.table f).next := by
  rcases Ipacm.mem_places.1 hq with ⟨i, hi, rfl⟩ | hq
  · obtain ⟨r, hr, hslot⟩ := h.slots i hi
    rw [hx] at hslot
    cases hslot
    exact ((s.driver.table f).range r (h.mem_table hr)).2
  · exact (h.old q hq x hx).2

theorem Booked.holds (h : Booked before s f own) {q : FwPlace} {r : Nat × StaRule} (hr : r ∈ own)
    (hq : s.hdlAt f q = some r.1) : s.Holds f q :=
  ⟨r.1, hq, FltDriver.knows_iff.2 ⟨r.2, h.mem_table hr⟩⟩

/-- The driver with a rule added. -/
def added (s : StaFirewall) (f : IpFamily) (rule : StaRule) : StaFirewall :=
  { s with driver := s.driver.setTable f ((s.driver.table f).addRear [rule]) }

@[simp] theorem added_table (rule : StaRule) :
    (s.added f rule).driver.table f = (s.driver.table f).addRear [rule] :=
  FltDriver.setTable_table _

theorem added_table_of_ne {g : IpFamily} (hg : g ≠ f) (rule : StaRule) :
    (s.added f rule).driver.table g = s.driver.table g :=
  FltDriver.setTable_table_of_ne hg _

/-- A rule that is installed and its handle stored where there was none of an installed rule. -/
theorem Booked.add (h : Booked before s f own) {rule : StaRule}
    (hp : (p ∈ namedPlaces f ∧ ¬ s.Holds f p) ∨ p = .slot (s.num_firewall f))
    (hroom : p ∉ namedPlaces f → s.num_firewall f < ipacmMaxFirewallEntries)
    (hs : Stored f p (s.driver.table f).next (s.added f rule) s') :
    Booked before s' f (own ++ [((s.driver.table f).next, rule)]) := by
  have hmem : ∀ {q}, q ∈ s'.places f ↔ q = p ∨ q ∈ s.places f :=
    hs.mem_places (hp.imp And.left id)
  have htable : s'.driver.table f = (s.driver.table f).addRear [rule] := by
    rw [hs.driver, added_table]
  have hother : ∀ q ∈ s.places f, q ≠ p → s'.hdlAt f q = s.hdlAt f q := hs.other
  -- a place with the handle of a rule that was there is another one
  have hne : ∀ r ∈ own, ∀ q ∈ s.places f, s.hdlAt f q = some r.1 → q ≠ p := by
    rintro r hr q hq hqr rfl
    rcases hp with ⟨-, hfree⟩ | rfl
    · exact hfree (h.holds hr hqr)
    · exact Nat.lt_irrefl _ (slot_mem_places.1 hq)
  have hold : ∀ q ∈ s'.places f, ∀ x < (s.driver.table f).next, s'.hdlAt f q = some x →
      q ∈ s.places f ∧ s.hdlAt f q = some x := by
    intro q hq x hx hqx
    rcases eq_or_ne q p with rfl | hqp
    · rw [hs.self] at hqx
      exact absurd (Option.some.inj hqx) (Nat.ne_of_gt hx)
    · have hq' := (hmem.1 hq).resolve_left hqp
      exact ⟨hq', (hother q hq' hqp) ▸ hqx⟩
  constructor
  · rw [htable, RuleTable.addRear_rules, h.rules, List.append_assoc]
    rfl
  · rw [hs.size]
    exact h.size
  · rw [hs.num]
    have hnum : (s.added f rule).num_firewall f = s.num_firewall f := rfl
    have hle := h.num_le
    split
    · omega
    · next hnot =>
      have := hroom hnot
      omega
  · intro i hi
    have hq : FwPlace.slot i ∈ s'.places f := slot_mem_places.2 hi
    rcases hmem.1 hq with rfl | hq
    · exact ⟨_, List.mem_append_right _ List.mem_cons_self, hs.self⟩
    · obtain ⟨r, hr, hir⟩ := h.slots i (slot_mem_places.1 hq)
      exact ⟨r, List.mem_append_left _ hr, (hother _ hq (hne r hr _ hq hir)).trans hir⟩
  · intro r hr
    rcases List.mem_append.1 hr with hr | hr
    · obtain ⟨q, hq, hqr⟩ := h.found r hr
      exact ⟨q, hmem.2 (.inr hq), (hother q hq (hne r hr q hq hqr)).trans hqr⟩
    · obtain rfl := List.mem_singleton.1 hr
      exact ⟨p, hmem.2 (.inl rfl), hs.self⟩
  · intro r hr q hq q' hq' hqr hqr'
    rcases List.mem_append.1 hr with hr | hr
    · have hlt := ((s.driver.table f).range r (h.mem_table hr)).2
      obtain ⟨hq, hqr⟩ := hold q hq _ hlt hqr
      obtain ⟨hq', hqr'⟩ := hold q' hq' _ hlt hqr'
      exact h.single r hr q hq q' hq' hqr hqr'
    · obtain rfl := List.mem_singleton.1 hr
      have hall : ∀ x ∈ s'.places f, s'.hdlAt f x = some (s.driver.table f).next → x = p := by
        intro x hx hxn
        by_contra hxp
        have hx' := (hmem.1 hx).resolve_left hxp
        rw [hother x hx' hxp] at hxn
        exact Nat.lt_irrefl _ (h.lt_next hx' hxn)
      rw [hall q hq hqr, hall q' hq' hqr']
  · rw [htable, RuleTable.addRear_next]
    exact h.grown.trans (Nat.le_add_right _ _)
  · intro q hq x hx
    rw [htable, RuleTable.addRear_next]
    rcases eq_or_ne q p with rfl | hqp
    · rw [hs.self] at hx
      cases hx
      exact ⟨h.grown, Nat.lt_succ_self _⟩
    · rw [hother q (named_mem_places hq) hqp] at hx
      exact (h.old q hq x hx).imp_right Nat.lt_succ_of_lt

/-! ## A configuration -/

/-- The places that the rules of a configuration go to. -/
def opPlaces (ops : List StaOp) : List FwPlace :=
  ops.filterMap fun
    | .getRoutingTable => none
    | .add p _ => some p

/-- The slots come one after the other from the `k`-th on, and no other place twice. -/
def WellPlaced (f : IpFamily) : Nat → List StaOp → Prop
  | _, [] => True
  | k, .getRoutingTable :: ops => WellPlaced f k ops
  | k, .add (.slot i) _ :: ops => i = k ∧ WellPlaced f (k + 1) ops
  | k, .add p _ :: ops => p ∈ namedPlaces f ∧ p ∉ opPlaces ops ∧ WellPlaced f k ops

variable {ops : List StaOp} (rules : List StaRule)

theorem wellPlaced_slots (k : Nat) (h : WellPlaced f (k + rules.length) ops) :
    WellPlaced f k ((rules.mapIdx fun i rule => StaOp.add (.slot (k + i)) rule) ++ ops) := by
  induction rules generalizing k with
  | nil => exact h
  | cons rule rules ih =>
    rw [List.mapIdx_cons, List.cons_append]
    refine ⟨rfl, ?_⟩
    have hnext := ih (k + 1) (by
      rw [List.length_cons] at h
      rw [Nat.add_assoc, Nat.add_comm 1]
      exact h)
    simpa [Nat.add_assoc, Nat.add_comm 1] using hnext

theorem wellPlaced_slotOps (h : WellPlaced f rules.length ops) :
    WellPlaced f 0 (slotOps rules ++ ops) := by
  have hslots := wellPlaced_slots rules 0 (by simpa using h)
  simpa [slotOps] using hslots

theorem opPlaces_slotOps (ops : List StaOp) (hp : ∀ i, p ≠ .slot i) :
    p ∈ opPlaces (slotOps rules ++ ops) ↔ p ∈ opPlaces ops := by
  unfold opPlaces slotOps
  rw [List.filterMap_append, List.mem_append]
  refine or_iff_right ?_
  rw [List.mem_filterMap]
  rintro ⟨op, hop, heq⟩
  obtain ⟨i, hi, rfl⟩ := List.mem_mapIdx.1 hop
  exact hp i (Option.some.inj heq).symm

theorem staOps_wellPlaced (enable accept : Bool) (entries : List ExtdFirewallEntry)
    (f : IpFamily) : WellPlaced f 0 (staOps enable accept entries f) := by
  cases f with
  | v4 =>
    unfold staOps
    dsimp only
    split
    · exact ⟨by simp [namedPlaces], by simp [opPlaces], trivial⟩
    · refine wellPlaced_slotOps (f := .v4) _ ?_
      exact ⟨by simp [namedPlaces], by simp [opPlaces], trivial⟩
  | v6 =>
    have htail : ∀ k, WellPlaced .v6 k [.add .icmp (staProtocolRule ipprotoIcmp6),
        .add .dft (staDefaultRule .v6 enable accept)] := fun k =>
      ⟨by simp [namedPlaces], by simp [opPlaces], by simp [namedPlaces], by simp [opPlaces],
        trivial⟩
    have hslots := wellPlaced_slotOps (f := .v6) (staEntries enable accept entries .v6)
      (htail _)
    unfold staOps
    dsimp only
    split
    · have hshort : WellPlaced .v6 0 [.add .icmp (staProtocolRule ipprotoIcmp6),
          .getRoutingTable, .add .dft (staDefaultRule .v6 enable accept)] :=
        ⟨by simp [namedPlaces], by simp [opPlaces], by simp [namedPlaces], by simp [opPlaces],
          trivial⟩
      cases enable with
      | false => exact hshort
      | true => exact ⟨by simp [namedPlaces], by simp [opPlaces], hshort⟩
    · cases enable with
      | false => exact hslots
      | true =>
        refine ⟨by simp [namedPlaces], ?_, hslots⟩
        have hno := opPlaces_slotOps (staEntries true accept entries .v6)
          [.add .icmp (staProtocolRule ipprotoIcmp6),
            .add .dft (staDefaultRule .v6 true accept)] (p := .frag) (by simp)
        exact mt hno.1 (by simp [opPlaces])

/-- What is booked for both families. -/
def Books (before : IpFamily → RuleTable StaRule) (s : StaFirewall) : Prop :=
  ∀ f, ∃ own, Booked before s f own

/-- The state `s₁` of a configuration that began in `s`, before the calls `ops`: `k` slots have been
    filled, the places of `ops` have not, and the rules that came have new handles. -/
structure During (f : IpFamily) (s s₁ : StaFirewall) (k : Nat) (ops : List StaOp) : Prop where
  rx_prop : s₁.rx_prop = s.rx_prop
  num : s₁.num_firewall f = s.num_firewall f + k
  hdlAt : ∀ p ∈ namedPlaces f, p ∈ opPlaces ops → s₁.hdlAt f p = s.hdlAt f p
  knows : ∀ h, s₁.driver.knows f h = true →
    s.driver.knows f h = true ∨ (s.driver.table f).next ≤ h
  next : (s.driver.table f).next ≤ (s₁.driver.table f).next

variable {s₁ : StaFirewall}

theorem Books.add (h : Books before s₁) (rule : StaRule)
    (hp : (p ∈ namedPlaces f ∧ ¬ s₁.Holds f p) ∨ p = .slot (s₁.num_firewall f))
    (hroom : p ∉ namedPlaces f → s₁.num_firewall f < ipacmMaxFirewallEntries) :
    ∃ s', (s₁.added f rule).store f (s₁.driver.table f).next p = .ok s' ∧ Books before s' ∧
      Stored f p (s₁.driver.table f).next (s₁.added f rule) s' := by
  obtain ⟨own, hown⟩ := h f
  have hstore : ∃ s', (s₁.added f rule).store f (s₁.driver.table f).next p = .ok s' ∧
      Stored f p (s₁.driver.table f).next (s₁.added f rule) s' := by
    rcases hp with ⟨hp, -⟩ | rfl
    · exact store_named hp _
    · refine store_slot ?_ _
      have hlt := hroom (slot_not_named _)
      rw [← hown.size] at hlt
      exact hlt
  obtain ⟨s', hs', hstored⟩ := hstore
  refine ⟨s', hs', fun g => ?_, hstored⟩
  by_cases hg : g = f
  · subst hg
    exact ⟨_, hown.add hp hroom hstored⟩
  · obtain ⟨own', hown'⟩ := h g
    obtain ⟨hat, hnum⟩ := hstored.family g hg
    refine ⟨own', hown'.congr ?_ (hstored.size g) hnum hat⟩
    rw [hstored.driver, added_table_of_ne hg]

theorem During.add {k k' : Nat} {rule : StaRule} (h : During f s s₁ k (.add p rule :: ops))
    (hs : Stored f p (s₁.driver.table f).next (s₁.added f rule) s')
    (hk : k' = k + if p ∈ namedPlaces f then 0 else 1)
    (hnot : p ∈ namedPlaces f → p ∉ opPlaces ops) : During f s s' k' ops where
  rx_prop := hs.rx_prop.trans h.rx_prop
  num := by
    have hnum : (s₁.added f rule).num_firewall f = s₁.num_firewall f := rfl
    rw [hs.num, hnum, h.num, hk, Nat.add_assoc]
  hdlAt q hq hmem := by
    have hqp : q ≠ p := by
      rintro rfl
      exact hnot hq hmem
    have hat : (s₁.added f rule).hdlAt f q = s₁.hdlAt f q := rfl
    rw [hs.other q (named_mem_places hq) hqp, hat]
    exact h.hdlAt q hq (List.mem_cons_of_mem p hmem)
  knows x hx := by
    rw [hs.driver] at hx
    obtain ⟨r, hr⟩ := FltDriver.knows_iff.1 hx
    rw [added_table, RuleTable.addRear_rules] at hr
    rcases List.mem_append.1 hr with hr | hr
    · exact h.knows x (FltDriver.knows_iff.2 ⟨r, hr⟩)
    · have := (RuleTable.mem_named _ _ hr).1
      exact .inr (h.next.trans this)
  next := by
    rw [hs.driver, added_table, RuleTable.addRear_next]
    exact h.next.trans (Nat.le_add_right _ _)

/-- A configuration books every rule that it installs. -/
theorem makeRules_books (hs : Books before s) (a : StaAddAnswers) {n k : Nat} (h : Books before s₁)
    (hduring : During f s s₁ k ops) (hplaced : WellPlaced f k ops) (hfit : s.OpsFit f a ops n) :
    ∃ ok s', makeRules f a ops n s₁ = .ok (ok, s') ∧ Books before s' ∧
      s'.rx_prop = s.rx_prop := by
  induction ops generalizing n k s₁ with
  | nil => exact ⟨true, s₁, rfl, h, hduring.rx_prop⟩
  | cons op ops ih =>
    cases op with
    | getRoutingTable =>
      rw [makeRules]
      by_cases hrt : a.rt_tbl = false
      · exact ⟨false, s₁, if_pos hrt, h, hduring.rx_prop⟩
      · rw [if_neg hrt]
        have hrest : During f s s₁ k ops :=
          ⟨hduring.rx_prop, hduring.num, hduring.hdlAt, hduring.knows, hduring.next⟩
        exact ih h hrest hplaced (hfit (by simpa using hrt))
    | add p rule =>
      unfold OpsFit at hfit
      cases hadd : a.add n with
      | failed =>
        refine ⟨false, s₁, ?_, h, hduring.rx_prop⟩
        rw [makeRules, hadd]
        rfl
      | badStatus =>
        rw [hadd] at hfit
        exact hfit.elim
      | added =>
        rw [hadd] at hfit
        obtain ⟨hfree, hfit⟩ := hfit
        -- the place is still what it was before the configuration
        have hp : (p ∈ namedPlaces f ∧ ¬ s₁.Holds f p) ∨ p = .slot (s₁.num_firewall f) := by
          cases p with
          | slot i =>
            obtain ⟨rfl, -⟩ := hplaced
            refine .inr ?_
            rw [hduring.num, hfree.1, Nat.zero_add]
          | dft | icmp | frag =>
            refine .inl ⟨hplaced.1, ?_⟩
            rintro ⟨x, hx, hknows⟩
            rw [hduring.hdlAt _ hplaced.1 List.mem_cons_self] at hx
            obtain ⟨own, hown⟩ := hs f
            rcases hduring.knows x hknows with hknows | hle
            · exact hfree ⟨x, hx, hknows⟩
            · exact absurd (hown.old _ hplaced.1 x hx).2 (by omega)
        have hroom : p ∉ namedPlaces f →
            s₁.num_firewall f < ipacmMaxFirewallEntries := by
          intro hnot
          rcases hp with ⟨hnamed, -⟩ | rfl
          · exact absurd hnamed hnot
          · exact hfree.2
        obtain ⟨s', hstore, hbooks, hstored⟩ := h.add rule hp hroom
        have hmake : makeRules f a (.add p rule :: ops) n s₁ =
            makeRules f a ops (n + 1) s' := by
          rw [makeRules, hadd]
          have hdriver : s₁.driver.AddFilteringRule f true rule .added =
              (some ⟨(s₁.driver.table f).next, true⟩, (s₁.added f rule).driver) := rfl
          rw [hdriver]
          have hstate : ({ s₁ with driver := (s₁.added f rule).driver } : StaFirewall) =
              s₁.added f rule := rfl
          dsimp only
          rw [hstate, hstore, ok_bind]
        rw [hmake]
        cases p with
        | slot i =>
          exact ih hbooks (hduring.add hstored (by simp [slot_not_named])
            fun hnamed => absurd hnamed (slot_not_named i)) hplaced.2 hfit
        | dft | icmp | frag =>
          exact ih hbooks (hduring.add hstored (by simp [hplaced.1])
            fun _ => hplaced.2.1) hplaced.2.2 hfit

/-! ## A deletion -/

/-- The handle in a place, 0 if there is none. -/
def hdl (s : StaFirewall) (f : IpFamily) (p : FwPlace) : Nat := (s.hdlAt f p).getD 0

theorem stored_eq {ps : List FwPlace} (h : ∀ p ∈ ps, ∃ x, s.hdlAt f p = some x) :
    s.stored f ps = .ok (ps.map (s.hdl f)) := by
  induction ps with
  | nil => rfl
  | cons p ps ih =>
    obtain ⟨x, hx⟩ := h p List.mem_cons_self
    have hhdl : s.hdl f p = x := by simp [hdl, hx]
    rw [stored, hx, List.map_cons, hhdl, ih fun q hq => h q (List.mem_cons_of_mem _ hq)]
    rfl

/-- All places that a deletion looks at hold handles of the firewall. -/
structure Full (s : StaFirewall) (f : IpFamily) (own : List (Nat × StaRule)) : Prop where
  hdl : ∀ p ∈ s.places f, ∃ r ∈ own, s.hdlAt f p = some r.1

theorem Booked.full (h : Booked before s f own) (hnamed : ∀ p ∈ namedPlaces f, s.Holds f p) :
    Full s f own where
  hdl p hp := by
    rcases Ipacm.mem_places.1 hp with ⟨i, hi, rfl⟩ | hp
    · exact h.slots i hi
    · obtain ⟨x, hx, hknows⟩ := hnamed p hp
      obtain ⟨rule, hrule⟩ := FltDriver.knows_iff.1 hknows
      rw [h.rules] at hrule
      rcases List.mem_append.1 hrule with hrule | hrule
      · have hlt := ((before f).range _ hrule).2
        exact absurd (h.old p hp x hx).1 (Nat.not_le_of_lt hlt)
      · exact ⟨_, hrule, hx⟩

theorem deleteAt_all {ps : List FwPlace} (hps : ∀ p ∈ ps, ∃ x, s.hdlAt f p = some x ∧ x ≠ 0)
    {a : DelAnswer} (hmem : a.memory = true) (hdel : ∀ i < ps.length, a.deleted i = true) :
    ∃ driver, s.deleteAt f ps a = .ok (true, { s with driver }) ∧
      FltDriver.Deleted f (ps.map (s.hdl f)) s.driver driver := by
  have hne : ∀ x ∈ ps.map (s.hdl f), x ≠ 0 := by
    intro x hx
    obtain ⟨p, hp, rfl⟩ := List.mem_map.1 hx
    obtain ⟨y, hy, hy0⟩ := hps p hp
    simpa [hdl, hy] using hy0
  obtain ⟨driver, hcall, hdeleted⟩ := FltDriver.DeleteFilteringHdls_all (d := s.driver) (f := f)
    hne hmem (by simpa using hdel)
  refine ⟨driver, ?_, hdeleted⟩
  have hstored := stored_eq fun p hp => (hps p hp).imp fun _ hx => hx.1
  rw [deleteAt, hstored, ok_bind, hcall]

/-- The handles of calls. -/
def callHdls (s : StaFirewall) (f : IpFamily) (calls : List (List FwPlace × DelAnswer)) :
    List Nat :=
  calls.flatMap fun c => c.1.map (s.hdl f)

theorem deleteCalls_all {calls : List (List FwPlace × DelAnswer)}
    (hps : ∀ c ∈ calls, ∀ p ∈ c.1, ∃ x, s.hdlAt f p = some x ∧ x ≠ 0) (hall : Succeed calls) :
    ∃ driver, deleteCalls f calls s = .ok (true, { s with driver }) ∧
      FltDriver.Deleted f (s.callHdls f calls) s.driver driver := by
  induction calls generalizing s with
  | nil => exact ⟨s.driver, rfl, .refl f _⟩
  | cons c calls ih =>
    obtain ⟨ps, a⟩ := c
    obtain ⟨hmem, hdel⟩ := hall (ps, a) List.mem_cons_self
    obtain ⟨d₁, hcall, hdeleted⟩ := deleteAt_all (hps (ps, a) List.mem_cons_self) hmem hdel
    obtain ⟨d₂, hcalls, hdeleted'⟩ := ih (s := { s with driver := d₁ })
      (fun c hc => hps c (List.mem_cons_of_mem _ hc))
      fun c hc => hall c (List.mem_cons_of_mem _ hc)
    refine ⟨d₂, ?_, hdeleted.trans hdeleted'⟩
    rw [deleteCalls, hcall, ok_bind]
    exact hcalls

theorem delCalls_cons (s : StaFirewall) (f : IpFamily) (a : StaDelAnswers) :
    ∃ p ps b calls, s.delCalls f a = (p :: ps, b) :: calls ∧ ∀ q ∈ p :: ps, q ∈ s.places f := by
  unfold delCalls
  by_cases hnum : s.num_firewall f = 0
  · rw [if_neg (by simpa using hnum), List.nil_append]
    cases f with
    | v4 | v6 => exact ⟨_, _, _, _, rfl, by simp [places, namedPlaces]⟩
  · rw [if_pos hnum]
    obtain ⟨n, hn⟩ := Nat.exists_eq_succ_of_ne_zero hnum
    have hslots : s.slots f = .slot 0 :: (List.range n).map fun i => .slot (i + 1) := by
      unfold StaFirewall.slots
      rw [hn, List.range_succ_eq_map, List.map_cons, List.map_map]
      rfl
    refine ⟨.slot 0, (List.range n).map fun i => .slot (i + 1), a.entries,
      (match f with
        | .v4 => [([.dft], a.dft)]
        | .v6 => [([.dft], a.dft), ([.icmp], a.icmp)]), ?_, ?_⟩
    · rw [← hslots]
      rfl
    · rw [← hslots]
      exact fun q hq => List.mem_append_left _ hq

variable {a : StaDelAnswers}

theorem mem_delCalls {c : List FwPlace × DelAnswer} (hc : c ∈ s.delCalls f a ++ fragCall f a)
    (hp : p ∈ c.1) : p ∈ s.places f := by
  unfold delCalls fragCall at hc
  by_cases hnum : s.num_firewall f = 0
  · rw [if_neg (by simpa using hnum), List.nil_append] at hc
    refine List.mem_append_right _ ?_
    cases f <;> simp only [List.mem_append, List.mem_cons, List.not_mem_nil, or_false] at hc
    · obtain rfl := hc
      exact hp
    · rcases hc with (rfl | rfl) | rfl <;>
        (obtain rfl := List.mem_singleton.1 hp; simp [namedPlaces])
  · rw [if_pos hnum] at hc
    cases f <;> simp only [List.mem_append, List.mem_cons, List.not_mem_nil, or_false] at hc
    · rcases hc with rfl | rfl
      · exact List.mem_append_left _ hp
      · exact List.mem_append_right _ hp
    · rcases hc with (rfl | rfl | rfl) | rfl
      · exact List.mem_append_left _ hp
      all_goals
        obtain rfl := List.mem_singleton.1 hp
        exact List.mem_append_right _ (by simp [namedPlaces])

theorem callHdls_delCalls (a : StaDelAnswers) :
    s.callHdls f (s.delCalls f a ++ fragCall f a) = (s.places f).map (s.hdl f) := by
  have hslots : s.callHdls f (if s.num_firewall f ≠ 0 then [(s.slots f, a.entries)] else []) =
      (s.slots f).map (s.hdl f) := by
    by_cases hnum : s.num_firewall f = 0
    · simp [hnum, callHdls, StaFirewall.slots]
    · simp [hnum, callHdls]
  have happend : ∀ cs cs', s.callHdls f (cs ++ cs') = s.callHdls f cs ++ s.callHdls f cs' :=
    fun cs cs' => List.flatMap_append
  unfold delCalls
  rw [List.append_assoc, happend, hslots, places, List.map_append]
  cases f <;> rfl

theorem places_nodup (s : StaFirewall) (f : IpFamily) : (s.places f).Nodup := by
  refine List.nodup_append.2 ⟨?_, ?_, ?_⟩
  · exact List.nodup_range.map fun i j h => FwPlace.slot.inj h
  · cases f <;> decide
  · rintro p hp q hq rfl
    obtain ⟨i, -, rfl⟩ := List.mem_map.1 hp
    exact slot_not_named i hq

section Full

variable (h : Booked before s f own) (hfull : Full s f own)

include hfull in
theorem Full.hdl_mem {p : FwPlace} (hp : p ∈ s.places f) :
    ∃ r ∈ own, s.hdlAt f p = some r.1 ∧ s.hdl f p = r.1 := by
  obtain ⟨r, hr, heq⟩ := hfull.hdl p hp
  exact ⟨r, hr, heq, by simp [StaFirewall.hdl, heq]⟩

include h hfull in
theorem Full.ne_zero {p : FwPlace} (hp : p ∈ s.places f) : ∃ x, s.hdlAt f p = some x ∧ x ≠ 0 := by
  obtain ⟨r, hr, heq⟩ := hfull.hdl p hp
  have := ((s.driver.table f).range r (h.mem_table hr)).1
  exact ⟨r.1, heq, by omega⟩

include h hfull in
theorem Full.nodup : ((s.places f).map (s.hdl f)).Nodup := by
  refine List.Nodup.map_on ?_ (places_nodup s f)
  intro p hp q hq heq
  obtain ⟨r, hr, hp', hpr⟩ := hfull.hdl_mem hp
  obtain ⟨r', -, hq', hqr⟩ := hfull.hdl_mem hq
  have hrr : r.1 = r'.1 := by rw [← hpr, ← hqr, heq]
  exact h.single r hr p hp q hq hp' (hrr ▸ hq')

include h in
theorem Booked.hdl_mem_places {r : Nat × StaRule} (hr : r ∈ own) :
    r.1 ∈ (s.places f).map (s.hdl f) := by
  obtain ⟨p, hp, heq⟩ := h.found r hr
  exact List.mem_map.2 ⟨p, hp, by simp [StaFirewall.hdl, heq]⟩

include h hfull in
theorem Full.filter_rules :
    ((s.driver.table f).rules.filter fun r => r.1 ∉ (s.places f).map (s.hdl f)) =
      (before f).rules := by
  have hnodup := (s.driver.table f).nodup
  rw [h.rules, List.map_append] at hnodup
  obtain ⟨-, -, hdisjoint⟩ := List.nodup_append.1 hnodup
  rw [h.rules, List.filter_append]
  have hkept : ((before f).rules.filter fun r => r.1 ∉ (s.places f).map (s.hdl f)) =
      (before f).rules := by
    refine List.filter_eq_self.2 fun r hr => decide_eq_true ?_
    intro hmem
    obtain ⟨p, hp, heq⟩ := List.mem_map.1 hmem
    obtain ⟨r', hr', -, hpr⟩ := hfull.hdl_mem hp
    exact hdisjoint _ (List.mem_map_of_mem hr) _ (List.mem_map_of_mem hr') (heq.symm.trans hpr)
  have hgone : (own.filter fun r => r.1 ∉ (s.places f).map (s.hdl f)) = [] := by
    refine List.filter_eq_nil_iff.2 fun r hr => ?_
    simpa using h.hdl_mem_places hr
  rw [hkept, hgone, List.append_nil]

end Full

theorem Booked.own_eq (h : Booked before s f own) : s.own before f = own := by
  unfold StaFirewall.own
  rw [h.rules, List.drop_left]

/-- What holds between the calls. Without an `rx_prop` there are no rules. -/
structure Inv (before : IpFamily → RuleTable StaRule) (s : StaFirewall) : Prop where
  books : Books before s
  off : s.rx_prop = false → ∀ f, (s.driver.table f).rules = (before f).rules ∧
    s.num_firewall f = 0

theorem del_first (h : Inv before s) (hrx : s.rx_prop = true) (hown : Booked before s f own)
    (hfull : Full s f own) (hfail : FailsFirst (s.delCalls f a)) :
    ∃ s', s.del_dft_firewall_rules f true a = .ok (false, s') ∧ Inv before s' ∧
      s.Right before s' false (.del f a) := by
  obtain ⟨p, ps, b, calls, hcalls, hplaces⟩ := delCalls_cons s f a
  have hfirst : b.one = false := by rwa [hcalls] at hfail
  have hp := hplaces p List.mem_cons_self
  obtain ⟨x, hx, hne⟩ := hfull.ne_zero hown hp
  have hne' : s.hdl f p ≠ 0 := by simpa [hdl, hx] using hne
  obtain ⟨d', hcall, hd'⟩ := FltDriver.DeleteFilteringHdls_first (d := s.driver) (f := f) hne'
    (ps.map (s.hdl f)) hfirst
  have htable : ∀ g, d'.table g = s.driver.table g := by
    intro g
    rcases hd' with rfl | rfl <;> rfl
  have hdel : s.del_dft_firewall_rules f true a = .ok (false, { s with driver := d' }) := by
    have hle := hown.num_le
    have hstored := stored_eq fun q hq => (hfull.ne_zero hown (hplaces q hq)).imp
      fun _ hx => hx.1
    unfold del_dft_firewall_rules
    rw [if_neg (by simp [hrx]), if_neg (by omega), hcalls, deleteCalls, deleteAt, hstored, ok_bind,
      List.map_cons, hcall]
    rfl
  refine ⟨_, hdel, ⟨fun g => ?_, fun hoff => ?_⟩, ?_⟩
  · obtain ⟨own', hown'⟩ := h.books g
    exact ⟨own', hown'.congr (htable g) rfl rfl fun _ _ => rfl⟩
  · exact absurd (hrx.symm.trans hoff) (by decide)
  · rcases hd' with rfl | rfl
    · exact ⟨[], by simp, by simp, by simp, fun h => nomatch h⟩
    · refine ⟨[⟨f, s.hdl f p, _⟩], rfl, by simp, ?_, fun h => nomatch h⟩
      intro d hd
      obtain rfl := List.mem_singleton.1 hd
      obtain ⟨r, hr, -, hpr⟩ := hfull.hdl_mem hp
      exact ⟨rfl, by rw [hown.own_eq]; exact List.mem_map.2 ⟨r, hr, hpr.symm⟩⟩

/-- A deletion all of whose calls succeed leaves no rule of the firewall. -/
theorem del_all (h : Inv before s) (hrx : s.rx_prop = true) (hown : Booked before s f own)
    (hfull : Full s f own) (hall : Succeed (s.delCalls f a ++ fragCall f a)) :
    ∃ s', s.del_dft_firewall_rules f true a = .ok (true, s') ∧ Inv before s' ∧
      s.Right before s' true (.del f a) := by
  have hplaces : ∀ c ∈ s.delCalls f a ++ fragCall f a, ∀ p ∈ c.1,
      ∃ x, s.hdlAt f p = some x ∧ x ≠ 0 :=
    fun c hc p hp => hfull.ne_zero hown (mem_delCalls hc hp)
  obtain ⟨d₁, hcalls, hdeleted₁⟩ := deleteCalls_all
    (fun c hc => hplaces c (List.mem_append_left _ hc))
    fun c hc => hall c (List.mem_append_left _ hc)
  -- the call for fragments goes on from there
  have hfrag : ∃ d₂, delFrag { s with driver := d₁ } f a = .ok { s with driver := d₂ } ∧
      FltDriver.Deleted f (s.callHdls f (fragCall f a)) d₁ d₂ := by
    cases f with
    | v4 => exact ⟨d₁, rfl, .refl .v4 d₁⟩
    | v6 =>
      have hmem : ([.frag], a.frag) ∈ s.delCalls .v6 a ++ fragCall .v6 a :=
        List.mem_append_right _ List.mem_cons_self
      obtain ⟨d₂, hcall, hdeleted₂⟩ := deleteAt_all (s := { s with driver := d₁ }) (f := .v6)
        (hplaces _ hmem) (hall _ hmem).1 (hall _ hmem).2
      refine ⟨d₂, ?_, hdeleted₂⟩
      rw [delFrag, hcall]
      rfl
  obtain ⟨d₂, hfrag, hdeleted₂⟩ := hfrag
  have hdeleted : FltDriver.Deleted f ((s.places f).map (s.hdl f)) s.driver d₂ := by
    rw [← callHdls_delCalls a]
    have htrans := hdeleted₁.trans hdeleted₂
    simpa [callHdls] using htrans
  have hdel : s.del_dft_firewall_rules f true a = .ok (true, { s with
      driver := d₂
      num_firewall := update s.num_firewall f 0 }) := by
    have hle := hown.num_le
    unfold del_dft_firewall_rules
    rw [if_neg (by simp [hrx]), if_neg (by omega), hcalls, ok_bind]
    dsimp only
    rw [if_neg (by decide), hfrag, ok_bind]
  have hrules : (d₂.table f).rules = (before f).rules := by
    rw [hdeleted.rules, hfull.filter_rules hown]
  refine ⟨_, hdel, ⟨fun g => ?_, fun hoff => ?_⟩, ?_⟩
  · by_cases hg : g = f
    · subst hg
      refine ⟨[], by simpa using hrules, hown.size, by simp, by simp, by simp, by simp, ?_, ?_⟩
      · dsimp only
        rw [hdeleted.next]
        exact hown.grown
      · intro p hp x hx
        rw [hdeleted.next]
        refine hown.old p hp x ?_
        rw [← hx]
        cases p with
        | slot i => exact absurd hp (slot_not_named i)
        | _ => rfl
    · obtain ⟨own', hown'⟩ := h.books g
      refine ⟨own', hown'.congr (hdeleted.other g hg) rfl ?_ fun q _ => ?_⟩
      · dsimp only
        rw [update_of_ne hg]
      · cases q <;> rfl
  · exact absurd (hrx.symm.trans hoff) (by decide)
  · obtain ⟨deletes, hlog, hmap, hfam⟩ := hdeleted.log
    refine ⟨deletes, hlog, ?_, ?_, fun _ => ⟨?_, hrules, by simp⟩⟩
    · rw [hmap]
      exact hfull.nodup hown
    · intro d hd
      have hmem : d.hdl ∈ (s.places f).map (s.hdl f) := hmap ▸ List.mem_map_of_mem hd
      obtain ⟨p, hp, heq⟩ := List.mem_map.1 hmem
      obtain ⟨r, hr, -, hpr⟩ := hfull.hdl_mem hp
      refine ⟨hfam d hd, ?_⟩
      rw [hown.own_eq]
      exact List.mem_map.2 ⟨r, hr, hpr.symm.trans heq⟩
    · intro r hr
      rw [hown.own_eq] at hr
      rw [hmap]
      exact hown.hdl_mem_places hr

/-! ## Runs -/

theorem step_right {lib : InetLib} (h : Inv before s) {c : StaCall} (hfits : s.Fits lib c) :
    ∃ s' ok, s.step lib c = .ok (s', ok) ∧ Inv before s' ∧ s.Right before s' ok c := by
  cases c with
  | config f xml_file a =>
    rcases hfits with hrx | ⟨b, conf, entries, hxml, hread, hfit⟩
    · refine ⟨s, true, ?_, h, trivial⟩
      rw [step, config_dft_firewall_rules, if_pos hrx]
      rfl
    by_cases hrx : s.rx_prop = false
    · refine ⟨s, true, ?_, h, trivial⟩
      rw [step, config_dft_firewall_rules, if_pos hrx]
      rfl
    by_cases hmem : a.memory = false
    · refine ⟨s, false, ?_, h, trivial⟩
      rw [step, config_dft_firewall_rules, if_neg hrx, hxml, ok_bind]
      dsimp only
      rw [hread, ok_bind, if_pos hmem]
      rfl
    have hstart : During f s s 0
        (staOps conf.firewall_enable conf.rule_action_accept entries f) :=
      ⟨rfl, rfl, fun _ _ _ => rfl, fun _ => .inl, Nat.le_refl _⟩
    obtain ⟨ok, s', hmake, hbooks, hrx'⟩ := makeRules_books h.books a h.books hstart
      (staOps_wellPlaced _ _ _ _) (hfit (by simpa using hmem))
    refine ⟨s', ok, ?_, ⟨hbooks, fun hoff => absurd (hrx'.symm.trans hoff) hrx⟩, trivial⟩
    rw [step, config_dft_firewall_rules, if_neg hrx, hxml, ok_bind]
    dsimp only
    rw [hread, ok_bind, if_neg hmem, hmake]
    rfl
  | del f a =>
    by_cases hrx : s.rx_prop = false
    · obtain ⟨hrules, hnum⟩ := h.off hrx f
      refine ⟨s, true, ?_, h, [], by simp, by simp, by simp, fun _ => ⟨?_, hrules, hnum⟩⟩
      · rw [step, del_dft_firewall_rules, if_pos (.inl hrx)]
        rfl
      · simp [StaFirewall.own, hrules]
    have hon : s.rx_prop = true := by simpa using hrx
    obtain ⟨hnamed, hcalls⟩ := hfits.resolve_left hrx
    obtain ⟨own, hown⟩ := h.books f
    have hfull := hown.full hnamed
    rcases hcalls with hfail | hall
    · obtain ⟨s', hdel, hinv, hright⟩ := del_first h hon hown hfull hfail
      exact ⟨s', false, by rw [step, hdel]; rfl, hinv, hright⟩
    · obtain ⟨s', hdel, hinv, hright⟩ := del_all h hon hown hfull hall
      exact ⟨s', true, by rw [step, hdel]; rfl, hinv, hright⟩

/-- An interface as it comes up. -/
def init (rx_prop : Bool) (before : IpFamily → RuleTable StaRule) : StaFirewall where
  rx_prop := rx_prop
  driver := { table := before }

theorem Inv.init (rx_prop : Bool) (before : IpFamily → RuleTable StaRule) :
    Inv before (init rx_prop before) where
  books f := by
    refine ⟨[], by simp [StaFirewall.init], rfl, Nat.zero_le _,
      fun i hi => absurd hi (Nat.not_lt_zero i), by simp, by simp, Nat.le_refl _, ?_⟩
    intro p hp x hx
    cases p with
    | slot i => exact absurd hp (slot_not_named i)
    | dft | icmp | frag => cases hx
  off _ _ := ⟨rfl, rfl⟩

/-- **The firewall of a station.** In a run whose calls all meet the condition the next call that
    meets it stays inside the arrays, and if it is a deletion, it passes the handles of installed
    rules of the firewall and no others, none of them twice; if it succeeds, these were all there
    were, and none is left or counted. -/
theorem run_sta_firewall {lib : InetLib} {rx_prop : Bool}
    {before : IpFamily → RuleTable StaRule} {tr : List (StaCall × Bool)}
    (run : Run (step lib) (fun s c => s.Fits lib c) (init rx_prop before) tr s) {c : StaCall}
    (hc : s.Fits lib c) :
    ∃ s' ok, s.step lib c = .ok (s', ok) ∧ s.Right before s' ok c := by
  have hinv : Inv before s := by
    refine run.invariant (fun _ s => Inv before s) (Inv.init rx_prop before) ?_
    intro _ s c s' ok h hfits hstep
    obtain ⟨s'', ok', hstep', hinv, -⟩ := step_right h hfits
    rw [hstep] at hstep'
    cases hstep'
    exact hinv
  obtain ⟨s', ok, hstep, -, hright⟩ := step_right hinv hc
  exact ⟨s', ok, hstep, hright⟩

/-- The conversions are not used here. -/
def noInet : InetLib := ⟨fun _ => 0, fun _ => []⟩

/-- An interface that comes up holds no handle, so all of a file can be stored. -/
theorem opsFit_init {f : IpFamily} {ops : List StaOp}
    (h : ∀ i, .slot i ∈ opPlaces ops → i < ipacmMaxFirewallEntries) (n : Nat) :
    (init true fun _ => .empty).OpsFit f {} ops n := by
  induction ops generalizing n with
  | nil => trivial
  | cons op ops ih =>
    cases op with
    | getRoutingTable => exact fun _ => ih h n
    | add p rule =>
      refine ⟨?_, ih (fun i hi => h i (List.mem_cons_of_mem p hi)) (n + 1)⟩
      cases p with
      | slot i => exact ⟨rfl, h i List.mem_cons_self⟩
      | dft | icmp | frag => exact fun ⟨_, hstored, _⟩ => nomatch hstored

theorem noNul_system : 0 ∉ ascii "system" := by decide
theorem noNul_cfg : 0 ∉ ascii "MobileAPFirewallCfg" := by decide
theorem noNul_enabled : 0 ∉ ascii "FirewallEnabled" := by decide
theorem noNul_one : 0 ∉ ascii "1" := by decide

/-- A firewall file with two entries for IPv4. -/
def twoEntries : XmlDoc :=
  xmlElement "system" noNul_system
    (xmlElement "MobileAPFirewallCfg" noNul_cfg
      (xmlElement "FirewallEnabled" noNul_enabled (xmlString "1" noNul_one) (firewallRules 2))
      .null) .null

/-- What is read from it goes to two slots and to the place of the default rule. -/
theorem fits_twoEntries :
    (init true fun _ => .empty).Fits noInet (.config .v4 (some twoEntries) {}) := by
  have hplaces : (IPACM_read_firewall_xml noInet (some twoEntries) {}).toOption.map (fun x =>
      x.2.read.toOption.map fun entries =>
        opPlaces (staOps x.2.firewall_enable x.2.rule_action_accept entries .v4)) =
      some (some [.slot 0, .slot 1, .dft]) := by
    decide +kernel
  obtain ⟨⟨b, conf⟩, hread, hplaces⟩ := ok_of_map hplaces
  obtain ⟨entries, hentries, hplaces⟩ := ok_of_map hplaces
  refine .inr ⟨b, conf, entries, hread, hentries, fun _ => opsFit_init (fun i hi => ?_) 0⟩
  rw [hplaces] at hi
  have hi : i = 0 ∨ i = 1 := by simpa using hi
  unfold ipacmMaxFirewallEntries
  omega

/-- The file is configured, and the rules of its entries and the default rule are deleted. -/
theorem run_sta_firewall_entries : ∃ s : StaFirewall, s.num_firewall .v4 = 2 ∧
    (s.own (fun _ => .empty) .v4).map Prod.fst = [1, 2, 3] ∧
      ∃ s' ok, s.step noInet (.del .v4 {}) = .ok (s', ok) ∧
        s.Right (fun _ => .empty) s' ok (.del .v4 {}) := by
  have heval : ((init true fun _ => .empty).step noInet
      (.config .v4 (some twoEntries) {})).toOption.map (fun x => (x.1.num_firewall .v4,
        (x.1.own (fun _ => .empty) .v4).map Prod.fst, x.1.hdlAt .v4 .dft,
        x.1.driver.knows .v4 3)) = some (2, [1, 2, 3], some 3, true) := by
    decide +kernel
  obtain ⟨⟨s, ok⟩, hstep, hs⟩ := ok_of_map heval
  simp only [Prod.mk.injEq] at hs
  obtain ⟨hnum, hown, hdft, hknows⟩ := hs
  refine ⟨s, hnum, hown, run_sta_firewall (.snoc .nil hstep fits_twoEntries)
    (.inr ⟨?_, .inr ?_⟩)⟩
  · intro p hp
    obtain rfl : p = .dft := by simpa [namedPlaces] using hp
    exact ⟨3, hdft, hknows⟩
  · intro c hc
    have hall : c.2 = {} := by
      rcases (by simpa [delCalls, fragCall, hnum] using hc : _ ∨ _) with rfl | rfl
      · rfl
      · rfl
    rw [hall]
    exact ⟨rfl, fun _ _ => rfl⟩

/-- After two configurations the deletion leaves the default rule of the first. -/
theorem sta_firewall_leaves_rule : ¬ ∀ lib rx_prop before tr s,
    Run (step lib) (fun _ _ => True) (init rx_prop before) tr s → ∀ c,
      ∃ s' ok, s.step lib c = .ok (s', ok) ∧ s.Right before s' ok c := by
  intro h
  have run := Run.snoc (C := fun _ _ => True) (Run.snoc Run.nil
    (show step noInet (init true fun _ => .empty) (.config .v4 none {}) = .ok (_, _) from rfl)
    trivial) (show step noInet _ (.config .v4 none {}) = .ok (_, _) from rfl) trivial
  obtain ⟨s', ok, hstep, deletes, -, -, -, hright⟩ := h _ _ _ _ _ run (.del .v4 {})
  cases hstep
  exact absurd (congrArg List.length (hright rfl).2.1) (by decide)

end StaFirewall

end Nx508j.Ipacm
