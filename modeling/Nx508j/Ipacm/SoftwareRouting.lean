import Nx508j.Ipacm.Filtering
import Nx508j.Lib.Prefixes

/-! # Routing in software

An interface that is to be routed in software has a filter rule for each IP version that passes all
of its packets to the exception path. The rules go before all others. They are added and deleted
together, one after the other, and one flag says whether they are there. -/

namespace Nx508j.Ipacm

open Nx508j.Lib
open Function (update update_of_ne update_self)

/-- `rx_prop->rx[0]` -/
structure RxProp (α : Type) where
  src_pipe : Nat
  attrib : α
deriving DecidableEq, Repr

/-- `ipa_flt_action`, as far as the rules of `IPACM_Iface` have it. -/
inductive IfaceFltAction where
  | passToException
deriving DecidableEq, Repr

/-- A rule of the pipe of an interface. -/
structure PipeRule (α : Type) where
  ep : Nat
  action : IfaceFltAction
  attrib : α
deriving DecidableEq, Repr

/-- The rule that both functions are about. -/
def RxProp.softwareRule {α : Type} (rx : RxProp α) : PipeRule α where
  ep := rx.src_pipe
  action := .passToException
  attrib := rx.attrib

/-- What an interface keeps for it, and the driver. -/
structure SwIface (α : Type) where
  rx_prop : Option (RxProp α)
  software_routing_fl_rule_hdl : IpFamily → Nat := fun _ => 0
  softwarerouting_act : Bool := false
  driver : FltDriver (PipeRule α)

/-- A call, with what it meets. -/
inductive SwCall where
  | enable (memory : Bool) (add : IpFamily → AddAnswer)
  | disable (del : IpFamily → DelAnswer)

namespace SwIface

variable {α : Type} (s : SwIface α)

/-- A rule is added and its handle stored, if the call succeeds and the status is no error. -/
def addSoftwareRule (f : IpFamily) (rx : RxProp α) (a : AddAnswer) : Bool × SwIface α :=
  match s.driver.AddFilteringRule f false rx.softwareRule a with
  | (none, driver) => (false, { s with driver })
  | (some rule, driver) =>
    if rule.status = false then (false, { s with driver })
    else
      (true, { s with
        driver
        software_routing_fl_rule_hdl :=
          update s.software_routing_fl_rule_hdl f rule.flt_rule_hdl })

/-- `handle_software_routing_enable`, and whether it succeeds. -/
def handle_software_routing_enable (memory : Bool) (add : IpFamily → AddAnswer) :
    Bool × SwIface α :=
  if s.softwarerouting_act = true then (true, s)
  else
    match s.rx_prop with
    | none => (true, s)
    | some rx =>
      if memory = false then (false, s)
      else
        match s.addSoftwareRule .v4 rx (add .v4) with
        | (false, s) => (false, s)
        | (true, s) =>
          match s.addSoftwareRule .v6 rx (add .v6) with
          | (false, s) => (false, s)
          | (true, s) => (true, { s with softwarerouting_act := true })

/-- The rule whose handle is stored is deleted. -/
def delSoftwareRule (f : IpFamily) (a : DelAnswer) : Bool × SwIface α :=
  let (ok, driver) :=
    s.driver.DeleteFilteringHdls f [s.software_routing_fl_rule_hdl f] a
  (ok, { s with driver })

/-- `handle_software_routing_disable`, and whether it succeeds. -/
def handle_software_routing_disable (del : IpFamily → DelAnswer) : Bool × SwIface α :=
  match s.rx_prop with
  | none => (true, s)
  | some _ =>
    if s.softwarerouting_act = false then (true, s)
    else
      match s.delSoftwareRule .v4 (del .v4) with
      | (false, s) => (false, s)
      | (true, s) =>
        match s.delSoftwareRule .v6 (del .v6) with
        | (false, s) => (false, s)
        | (true, s) => (true, { s with softwarerouting_act := false })

def step : SwCall → SwIface α
  | .enable memory add => (s.handle_software_routing_enable memory add).2
  | .disable del => (s.handle_software_routing_disable del).2

end SwIface

/-! ## The property -/

section Property

variable {α : Type} (before : IpFamily → RuleTable (PipeRule α))

/-- The tables are those that there were before the interface came up, with its rule in front of
    each if the flag is set; and whatever was to be deleted was there. -/
structure SwExact (s : SwIface α) : Prop where
  on : s.softwarerouting_act = true → ∃ rx, s.rx_prop = some rx ∧ ∀ f,
    (s.driver.table f).rules =
      (s.software_routing_fl_rule_hdl f, rx.softwareRule) :: (before f).rules
  off : s.softwarerouting_act = false → ∀ f, (s.driver.table f).rules = (before f).rules
  deletes : ∀ d ∈ s.driver.deletes, d.present = true

/-- The rule of IPv6 does not fail after that of IPv4 has been added or deleted. -/
def SwFits (s : SwIface α) : SwCall → Prop
  | .enable memory add =>
    s.softwarerouting_act = true ∨ s.rx_prop = none ∨ memory = false ∨ add .v4 ≠ .added ∨
      add .v6 = .added
  | .disable del =>
    s.softwarerouting_act = false ∨ s.rx_prop = none ∨ (del .v4).one = false ∨
      (del .v6).one = true

end Property

/-! ## What one rule comes to -/

namespace SwIface

variable {α : Type} {s : SwIface α} {rx : RxProp α} {f : IpFamily}

/-- The interface with a rule added. -/
def added (s : SwIface α) (f : IpFamily) (rx : RxProp α) : SwIface α :=
  { s with
    driver := s.driver.setTable f ((s.driver.table f).addFront [rx.softwareRule])
    software_routing_fl_rule_hdl :=
      update s.software_routing_fl_rule_hdl f (s.driver.table f).next }

theorem addSoftwareRule_eq (a : AddAnswer) :
    s.addSoftwareRule f rx a = if a = .added then (true, s.added f rx) else (false, s) := by
  cases a <;> rfl

@[simp] theorem added_hdl :
    (s.added f rx).software_routing_fl_rule_hdl f = (s.driver.table f).next :=
  update_self ..

@[simp] theorem added_table :
    (s.added f rx).driver.table f = (s.driver.table f).addFront [rx.softwareRule] :=
  FltDriver.setTable_table _

theorem added_hdl_of_ne {g : IpFamily} (h : g ≠ f) :
    (s.added f rx).software_routing_fl_rule_hdl g = s.software_routing_fl_rule_hdl g :=
  update_of_ne h ..

theorem added_table_of_ne {g : IpFamily} (h : g ≠ f) :
    (s.added f rx).driver.table g = s.driver.table g :=
  FltDriver.setTable_table_of_ne h _

/-- The interface with a handle passed to the driver, and its rule deleted. -/
def deleted (s : SwIface α) (f : IpFamily) : SwIface α :=
  { s with
    driver := (s.driver.pass f (s.software_routing_fl_rule_hdl f)).setTable f
      ((s.driver.table f).delete (s.software_routing_fl_rule_hdl f)) }

theorem delSoftwareRule_true (hne : s.software_routing_fl_rule_hdl f ≠ 0) {a : DelAnswer}
    (h : a.one = true) : s.delSoftwareRule f a = (true, s.deleted f) := by
  obtain ⟨hmem, hdel⟩ := Bool.and_eq_true_iff.1 h
  unfold delSoftwareRule
  rw [FltDriver.DeleteFilteringHdls_one hne, hmem, hdel]
  rfl

theorem delSoftwareRule_false (hne : s.software_routing_fl_rule_hdl f ≠ 0) {a : DelAnswer}
    (h : a.one = false) : ∃ driver, s.delSoftwareRule f a = (false, { s with driver }) ∧
      (driver = s.driver ∨ driver = s.driver.pass f (s.software_routing_fl_rule_hdl f)) := by
  obtain ⟨driver, heq, hdriver⟩ := FltDriver.DeleteFilteringHdls_first (d := s.driver) hne [] h
  refine ⟨driver, ?_, hdriver⟩
  unfold delSoftwareRule
  rw [heq]

end SwIface

theorem addFront_one_rules {κ : Type} (t : RuleTable κ) (k : κ) :
    (t.addFront [k]).rules = (t.next, k) :: t.rules := rfl

theorem delete_head_rules {κ : Type} {t : RuleTable κ} {hdl : Nat} {k : κ} {rs : List (Nat × κ)}
    (h : t.rules = (hdl, k) :: rs) : (t.delete hdl).rules = rs := by
  have hnodup := t.nodup
  rw [h, List.map_cons, List.nodup_cons] at hnodup
  rw [RuleTable.delete_rules, h, List.filter_cons, if_neg (by simp), List.filter_eq_self]
  intro r hr
  have hne : r.1 ≠ hdl := by
    intro heq
    have hmem : r.1 ∈ rs.map Prod.fst := List.mem_map_of_mem hr
    exact hnodup.1 (heq ▸ hmem)
  exact decide_eq_true hne

section Steps

variable {α : Type} {before : IpFamily → RuleTable (PipeRule α)} {s : SwIface α}

theorem SwExact.knows (h : SwExact before s) (hact : s.softwarerouting_act = true)
    (f : IpFamily) : s.software_routing_fl_rule_hdl f ≠ 0 ∧
      s.driver.knows f (s.software_routing_fl_rule_hdl f) = true := by
  obtain ⟨rx, -, hrules⟩ := h.on hact
  have hmem : (s.software_routing_fl_rule_hdl f, rx.softwareRule) ∈ (s.driver.table f).rules := by
    rw [hrules f]
    exact List.mem_cons_self
  have hpos := ((s.driver.table f).range _ hmem).1
  exact ⟨by omega, FltDriver.knows_iff.2 ⟨_, hmem⟩⟩

theorem deletes_pass {κ : Type} {d : FltDriver κ} {f : IpFamily} {hdl : Nat}
    (hd : ∀ x ∈ d.deletes, x.present = true) (hknows : d.knows f hdl = true) :
    ∀ x ∈ (d.pass f hdl).deletes, x.present = true := by
  intro x hx
  rcases List.mem_append.1 hx with hx | hx
  · exact hd x hx
  · obtain rfl := List.mem_singleton.1 hx
    exact hknows

theorem SwExact.enable (h : SwExact before s) (memory : Bool) (add : IpFamily → AddAnswer) :
    SwExact before (s.handle_software_routing_enable memory add).2 ↔
      SwFits s (.enable memory add) := by
  unfold SwIface.handle_software_routing_enable SwFits
  by_cases hact : s.softwarerouting_act = true
  · simp [hact, h]
  rw [if_neg hact]
  cases hrx : s.rx_prop with
  | none => simp [h]
  | some rx =>
    cases memory with
    | false => simp [h]
    | true =>
      dsimp only
      rw [if_neg (by decide), SwIface.addSoftwareRule_eq]
      by_cases h4 : add .v4 = .added
      case neg => simp [h4, h]
      rw [if_pos h4]
      dsimp only
      rw [SwIface.addSoftwareRule_eq]
      have hbefore := h.off (by simpa using hact)
      by_cases h6 : add .v6 = .added
      · -- both rules are there
        rw [if_pos h6]
        refine iff_of_true ⟨fun _ => ⟨rx, hrx, fun f => ?_⟩, fun hoff => (by cases hoff),
          h.deletes⟩ (by simp [h6])
        cases f with
        | v4 =>
          have hne : IpFamily.v4 ≠ .v6 := by decide
          rw [SwIface.added_table_of_ne hne, SwIface.added_hdl_of_ne hne,
            SwIface.added_table, SwIface.added_hdl, addFront_one_rules, hbefore]
        | v6 =>
          have hne : IpFamily.v6 ≠ .v4 := by decide
          rw [SwIface.added_table, SwIface.added_hdl, addFront_one_rules,
            SwIface.added_table_of_ne hne, hbefore]
      · -- the rule of IPv4 is left without the flag
        rw [if_neg h6]
        refine iff_of_false (fun hbad => ?_) (by simp [hact, h4, h6])
        have hoff : (s.added .v4 rx).softwarerouting_act = false := Bool.eq_false_iff.2 hact
        have hrules := hbad.off hoff .v4
        rw [SwIface.added_table, addFront_one_rules, hbefore] at hrules
        exact List.cons_ne_self _ _ hrules

theorem SwExact.disable (h : SwExact before s) (del : IpFamily → DelAnswer) :
    SwExact before (s.handle_software_routing_disable del).2 ↔ SwFits s (.disable del) := by
  unfold SwIface.handle_software_routing_disable SwFits
  cases hrx : s.rx_prop with
  | none => simp [h]
  | some rx =>
    by_cases hact : s.softwarerouting_act = false
    · simp [hact, h]
    have hon : s.softwarerouting_act = true := by simpa using hact
    obtain ⟨rx', hrx', hrules⟩ := h.on hon
    obtain ⟨hne4, hknows4⟩ := h.knows hon .v4
    obtain ⟨hne6, hknows6⟩ := h.knows hon .v6
    dsimp only
    rw [if_neg hact]
    cases h4 : (del .v4).one with
    | false =>
      obtain ⟨driver, heq, hdriver⟩ := SwIface.delSoftwareRule_false hne4 h4
      rw [heq]
      refine iff_of_true ?_ (by simp)
      rcases hdriver with rfl | rfl
      · exact h
      · exact ⟨h.on, h.off, deletes_pass h.deletes hknows4⟩
    | true =>
      rw [SwIface.delSoftwareRule_true hne4 h4]
      have hrest4 : ((s.deleted .v4).driver.table .v4).rules = (before .v4).rules :=
        delete_head_rules (hrules .v4)
      have hdel4 : ∀ x ∈ (s.deleted .v4).driver.deletes, x.present = true :=
        deletes_pass h.deletes hknows4
      have hknows6' : (s.deleted .v4).driver.knows .v6
          ((s.deleted .v4).software_routing_fl_rule_hdl .v6) = true := hknows6
      dsimp only
      cases h6 : (del .v6).one with
      | true =>
        -- both rules are gone
        rw [SwIface.delSoftwareRule_true (s := s.deleted .v4) hne6 h6]
        refine iff_of_true ⟨fun hbad => (by cases hbad), fun _ f => ?_,
          deletes_pass hdel4 hknows6'⟩ (by simp)
        cases f with
        | v4 => exact hrest4
        | v6 => exact delete_head_rules (hrules .v6)
      | false =>
        -- the rule of IPv4 is gone, and the flag says that it is there
        obtain ⟨driver, heq, hdriver⟩ :=
          SwIface.delSoftwareRule_false (s := s.deleted .v4) hne6 h6
        rw [heq]
        refine iff_of_false (fun hbad => ?_) (by simp [hact])
        obtain ⟨rx₁, -, hrules₁⟩ := hbad.on hon
        have htable : driver.table .v4 = (s.deleted .v4).driver.table .v4 := by
          rcases hdriver with rfl | rfl <;> rfl
        have hself := (hrules₁ .v4).symm
        rw [htable, hrest4] at hself
        exact List.cons_ne_self _ _ hself

end Steps

/-- An interface as it comes up. -/
def SwIface.init {α : Type} (rx_prop : Option (RxProp α))
    (table : IpFamily → RuleTable (PipeRule α)) : SwIface α where
  rx_prop := rx_prop
  driver := { table := table }

theorem SwExact.init {α : Type} (rx_prop : Option (RxProp α))
    (table : IpFamily → RuleTable (PipeRule α)) : SwExact table (SwIface.init rx_prop table) where
  on h := nomatch h
  off _ _ := rfl
  deletes _ h := nomatch h

/-- **Routing in software.** The tables hold a rule for each IP version if the flag is set and none
    if it is not, and no other handle is passed to be deleted, in every state of a run if and only
    if in none of its calls the rule of IPv6 fails after that of IPv4 has been added or deleted. -/
theorem run_software_routing_iff {α : Type} (rx_prop : Option (RxProp α))
    (table : IpFamily → RuleTable (PipeRule α)) (calls : List SwCall) :
    (∀ n, SwExact table (stateAt SwIface.step (SwIface.init rx_prop table) calls n)) ↔
      AllMeet SwIface.step SwFits (SwIface.init rx_prop table) calls := by
  refine forall_stateAt_iff (fun s c h => ?_) (SwExact.init rx_prop table) calls
  cases c with
  | enable memory add => exact h.enable memory add
  | disable del => exact h.disable del

/-- The rule of IPv6 is refused once: after a second try there are two rules of IPv4, one of which
    no handle is kept of. -/
theorem run_software_routing_twice : ¬ ∀ (rx_prop : Option (RxProp Unit))
    (table : IpFamily → RuleTable (PipeRule Unit)) (calls : List SwCall) (n : Nat),
    SwExact table (stateAt SwIface.step (SwIface.init rx_prop table) calls n) := by
  intro h
  have hrun := h (some ⟨0, ()⟩) (fun _ => .empty)
    [.enable true fun f => if f = .v4 then .added else .failed, .enable true fun _ => .added] 2
  obtain ⟨rx, -, hrules⟩ := hrun.on rfl
  have htwo := congrArg List.length (hrules .v4)
  cases htwo

end Nx508j.Ipacm
