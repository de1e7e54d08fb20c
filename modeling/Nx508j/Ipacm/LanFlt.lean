import Nx508j.Ipacm.LanToLan
import Nx508j.Lib.Ledger

/-! # The filter rules of an interface

`IPACM_Lan` has a few filter rules for links: they are installed once, as dummies that match nothing,
and are handed out by changing one into the rule that is wanted. A table of `MAX_OFFLOAD_PAIR` slots
says which of them are handed out, and a counter says how many. -/

namespace Nx508j.Ipacm.Lan2Lan

open Nx508j.Lib Function

/-! ## The table -/

/-- `lan2lan_flt_rule_hdl`: a slot. -/
structure FltRuleHdl where
  ruleHdl : Hdl
  valid : Bool
deriving DecidableEq, Repr

/-- `lan2lan_flt_rule_hdl_v4` and `num_lan2lan_flt_rule_v4`, or those of IPv6. -/
structure FltTable where
  hdl : List FltRuleHdl
  size : hdl.length = maxOffloadPair
  num : BitVec 8

/-- The loop of `add_lan2lan_flt_rule` and what it does with the slot it finds: the handle of the first
    slot that is not valid, and the slots after it is. -/
def claimSlot : List FltRuleHdl → Option (Hdl × List FltRuleHdl)
  | [] => none
  | x :: xs =>
    if x.valid = false then some (x.ruleHdl, { x with valid := true } :: xs)
    else (claimSlot xs).map fun y => (y.1, x :: y.2)

/-- The loop of `del_lan2lan_flt_rule` and what it does with the slot it finds: the slots after the
    first one with the handle is not valid any more. -/
def freeSlot (hdl : Hdl) : List FltRuleHdl → Option (List FltRuleHdl)
  | [] => none
  | x :: xs =>
    if x.ruleHdl = hdl then some ({ x with valid := false } :: xs)
    else (freeSlot hdl xs).map (x :: ·)

theorem claimSlot_length {l l' : List FltRuleHdl} {hdl : Hdl} (h : claimSlot l = some (hdl, l')) :
    l'.length = l.length := by
  induction l generalizing l' with
  | nil => cases h
  | cons x l ih =>
    rw [claimSlot] at h
    split at h
    · cases h
      rfl
    · obtain ⟨⟨hdl', l₁⟩, h₁, h⟩ := Option.map_eq_some_iff.mp h
      cases h
      simp [ih h₁]

theorem freeSlot_length {l l' : List FltRuleHdl} {hdl : Hdl} (h : freeSlot hdl l = some l') :
    l'.length = l.length := by
  induction l generalizing l' with
  | nil => cases h
  | cons x l ih =>
    rw [freeSlot] at h
    split at h
    · cases h
      rfl
    · obtain ⟨l₁, h₁, rfl⟩ := Option.map_eq_some_iff.mp h
      simp [ih h₁]

/-! ## The calls -/

/-- What a filter rule is changed into. -/
inductive FltRule
  | passToRouting (src dst : V6Addr)
  | dummy
deriving DecidableEq, Repr

/-- What the interfaces are built on. `prepare` is the `rx_prop` of an interface, the memory for a call
    and `GetRoutingTable`; `modifyFilteringRule` is the ioctl; `rest` are the methods for headers and
    routing rules. -/
structure LanEnv (ω : Type) where
  prepare : ω → Iface → IpType → Bool × ω
  modifyFilteringRule : ω → Iface → IpType → Hdl → FltRule → Bool × ω
  rest : Ifaces ω

/-- What names a slot. -/
structure Slot where
  iptype : IpType
  iface : Iface
  hdl : Hdl
deriving DecidableEq, Repr

/-- The tables of all interfaces. `ledger` records which slots were handed out and released. -/
structure FltWorld (ω : Type) where
  table : IpType → Iface → FltTable
  ledger : List (Entry Slot)
  env : ω

namespace FltWorld

variable {ω : Type}

def setTable (w : FltWorld ω) (t : IpType) (i : Iface) (tab : FltTable) (e : Entry Slot) (env : ω) :
    FltWorld ω where
  table := fun t' i' => if t' = t ∧ i' = i then tab else w.table t' i'
  ledger := w.ledger ++ [e]
  env := env

end FltWorld

section Calls

variable {ω : Type} (e : LanEnv ω)

/-- `add_lan2lan_flt_rule`, which hands out the handle of a rule. -/
def addLan2lanFltRule (t : IpType) (i : Iface) (src dst : V6Addr) (w : FltWorld ω) :
    Option Handed × FltWorld ω :=
  if maxOffloadPair ≤ (w.table t i).num.toNat then (none, w)
  else
    match e.prepare w.env i t with
    | (false, env) => (none, { w with env := env })
    | (true, env) =>
      match h : claimSlot (w.table t i).hdl with
      | none => (none, { w with env := env })
      | some (hdl, slots) =>
        match e.modifyFilteringRule env i t hdl (.passToRouting src dst) with
        | (false, env) => (none, { w with env := env })
        | (true, env) =>
          (some ⟨hdl, ⟨0, []⟩⟩,
            w.setTable t i
              ⟨slots, (claimSlot_length h).trans (w.table t i).size, (w.table t i).num + 1⟩
              (.take ⟨t, i, hdl⟩) env)

/-- `del_lan2lan_flt_rule`. It does not look whether the slot is valid. -/
def delLan2lanFltRule (t : IpType) (i : Iface) (hdl : Hdl) (w : FltWorld ω) :
    Option Handed × FltWorld ω :=
  match h : freeSlot hdl (w.table t i).hdl with
  | none => (none, w)
  | some slots =>
    match e.modifyFilteringRule w.env i t hdl .dummy with
    | (false, env) => (none, { w with env := env })
    | (true, env) =>
      (some ⟨hdl, ⟨0, []⟩⟩,
        w.setTable t i
          ⟨slots, (freeSlot_length h).trans (w.table t i).size, (w.table t i).num - 1⟩
          (.drop ⟨t, i, hdl⟩) env)

/-- The interfaces, with their tables. -/
def lanIfaces : Ifaces (FltWorld ω) where
  call w i c :=
    match c with
    | .addLan2lanFltRule t src dst => addLan2lanFltRule e t i src dst w
    | .delLan2lanFltRule t hdl => delLan2lanFltRule e t i hdl w
    | c =>
      let (r, env) := e.rest.call w.env i c
      (r, { w with env := env })

/-- A step, with the interfaces on what they are built on. -/
def lanStep (cfg : Config) (s : LanToLan × FltWorld ω) (c : Input × LanEnv ω) :
    Except Fault ((LanToLan × FltWorld ω) × Unit) :=
  step cfg s (c.1, lanIfaces c.2)

end Calls

/-! ## What the calls do to the table -/

/-- A slot of the table is handed out. -/
def FltTable.Valid (tab : FltTable) (hdl : Hdl) : Prop := ⟨hdl, true⟩ ∈ tab.hdl

/-- The handles are different, and the counter says how many slots are handed out. -/
structure FltTable.Ok (tab : FltTable) : Prop where
  distinct : (tab.hdl.map FltRuleHdl.ruleHdl).Nodup
  num : tab.num.toNat = tab.hdl.countP FltRuleHdl.valid

section Slots

variable {l l' : List FltRuleHdl} {hdl hdl' : Hdl}

theorem valid_unique {v v' : Bool} (hnodup : (l.map FltRuleHdl.ruleHdl).Nodup) (h : ⟨hdl, v⟩ ∈ l)
    (h' : ⟨hdl, v'⟩ ∈ l) : v = v' :=
  congrArg FltRuleHdl.valid (List.inj_on_of_nodup_map hnodup h h' rfl)

theorem claimSlot_spec (h : claimSlot l = some (hdl, l'))
    (hnodup : (l.map FltRuleHdl.ruleHdl).Nodup) :
    l'.map FltRuleHdl.ruleHdl = l.map FltRuleHdl.ruleHdl ∧ ⟨hdl, false⟩ ∈ l ∧
      l'.countP FltRuleHdl.valid = l.countP FltRuleHdl.valid + 1 ∧
      ∀ hdl', ⟨hdl', true⟩ ∈ l' ↔ hdl' = hdl ∨ ⟨hdl', true⟩ ∈ l := by
  induction l generalizing l' with
  | nil => cases h
  | cons x l ih =>
    obtain ⟨k, v⟩ := x
    rw [List.map_cons, List.nodup_cons] at hnodup
    rw [claimSlot] at h
    split at h
    · next hv =>
      obtain rfl : v = false := hv
      cases h
      exact ⟨rfl, List.mem_cons_self .., by simp, fun hdl' => by simp⟩
    · next hv =>
      obtain rfl : v = true := by simpa using hv
      obtain ⟨y, h₁, h⟩ := Option.map_eq_some_iff.mp h
      cases h
      obtain ⟨hmap, hfree, hcount, hmem⟩ := ih h₁ hnodup.2
      refine ⟨?_, List.mem_cons_of_mem _ hfree, ?_, fun hdl' => ?_⟩
      · rw [List.map_cons, List.map_cons, hmap]
      · simp [hcount]
      · simp only [List.mem_cons, hmem]
        tauto

theorem freeSlot_spec (h : ⟨hdl, true⟩ ∈ l) (hnodup : (l.map FltRuleHdl.ruleHdl).Nodup) :
    ∃ l', freeSlot hdl l = some l' ∧ l'.map FltRuleHdl.ruleHdl = l.map FltRuleHdl.ruleHdl ∧
      l'.countP FltRuleHdl.valid + 1 = l.countP FltRuleHdl.valid ∧
      ∀ hdl', ⟨hdl', true⟩ ∈ l' ↔ hdl' ≠ hdl ∧ ⟨hdl', true⟩ ∈ l := by
  induction l with
  | nil => cases h
  | cons x l ih =>
    obtain ⟨k, v⟩ := x
    have hself := hnodup
    rw [List.map_cons, List.nodup_cons] at hnodup
    by_cases hk : k = hdl
    · subst hk
      obtain rfl : v = true := valid_unique hself (List.mem_cons_self ..) h
      have hnot : ∀ v', ⟨k, v'⟩ ∉ l := fun v' hmem =>
        hnodup.1 (List.mem_map.mpr ⟨_, hmem, rfl⟩)
      refine ⟨⟨k, false⟩ :: l, by rw [freeSlot, if_pos rfl], rfl, by simp, fun hdl' => ?_⟩
      simp only [List.mem_cons, FltRuleHdl.mk.injEq, Bool.true_eq_false, and_false, false_or,
        and_true]
      refine ⟨fun hmem => ⟨?_, .inr hmem⟩, fun hmem => hmem.2.resolve_left hmem.1⟩
      rintro rfl
      exact hnot true hmem
    · have hmem : ⟨hdl, true⟩ ∈ l := by
        rcases List.mem_cons.mp h with heq | hmem
        · exact absurd (congrArg FltRuleHdl.ruleHdl heq).symm hk
        · exact hmem
      obtain ⟨l', hfree, hmap, hcount, hvalid⟩ := ih hmem hnodup.2
      refine ⟨⟨k, v⟩ :: l', ?_, ?_, ?_, fun hdl' => ?_⟩
      · rw [freeSlot, if_neg hk, hfree]
        rfl
      · rw [List.map_cons, List.map_cons, hmap]
      · rw [List.countP_cons, List.countP_cons, ← hcount]
        omega
      · simp only [List.mem_cons, hvalid, FltRuleHdl.mk.injEq]
        have hk' : hdl' = k → hdl' ≠ hdl := fun heq => heq ▸ hk
        tauto

end Slots

/-! ## Who has which slot -/

section Good

variable {ω : Type} {e : LanEnv ω} {w w' : FltWorld ω} {t : IpType} {i : Iface} {V : Type}
  {own : V → List Slot}

/-- The tables are in order; the ledger is clean, and says which slots are handed out; and what is
    handed out is on the lists of owners. -/
structure FltWorld.Good (own : V → List Slot) (w : FltWorld ω) : Prop where
  ok : ∀ t i, (w.table t i).Ok
  clean : Clean w.ledger
  valid : ∀ t i hdl, ⟨t, i, hdl⟩ ∈ held ∅ w.ledger ↔ (w.table t i).Valid hdl
  leased : Leased own (held ∅ w.ledger)

theorem FltWorld.Good.congr {own' : V → List Slot} (h : w.Good own) (heq : ∀ v, own' v = own v) :
    w.Good own' :=
  ⟨h.ok, h.clean, h.valid, h.leased.congr heq⟩

theorem FltWorld.Good.env (h : w.Good own) (env : ω) : FltWorld.Good own { w with env := env } :=
  ⟨h.ok, h.clean, h.valid, h.leased⟩

variable [DecidableEq V]

theorem addLan2lanFltRule_good {src dst : V6Addr} {r : Option Handed} (hw : w.Good own)
    (h : addLan2lanFltRule e t i src dst w = (r, w')) :
    (r = none ∧ w'.Good own) ∨
      ∃ x, r = some x ∧ ∀ v, w'.Good (update own v (own v ++ [⟨t, i, x.hdl⟩])) := by
  unfold addLan2lanFltRule at h
  split at h
  · cases h
    exact .inl ⟨rfl, hw⟩
  · next hmax =>
    split at h
    · cases h
      exact .inl ⟨rfl, hw.env _⟩
    split at h
    · cases h
      exact .inl ⟨rfl, hw.env _⟩
    · next hdl slots hslots =>
      split at h
      · cases h
        exact .inl ⟨rfl, hw.env _⟩
      cases h
      obtain ⟨hmap, hfree, hcount, hmem⟩ := claimSlot_spec hslots (hw.ok t i).distinct
      have hnot : ⟨t, i, hdl⟩ ∉ held ∅ w.ledger := by
        rw [hw.valid]
        intro hvalid
        cases valid_unique (hw.ok t i).distinct hfree hvalid
      refine .inr ⟨_, rfl, fun v => ⟨fun t' i' => ?_, hw.clean.take hnot, ?_, ?_⟩⟩
      · show FltTable.Ok (if t' = t ∧ i' = i then _ else w.table t' i')
        split
        · refine ⟨?_, ?_⟩
          · show (slots.map FltRuleHdl.ruleHdl).Nodup
            rw [hmap]
            exact (hw.ok t i).distinct
          · show ((w.table t i).num + 1).toNat = slots.countP FltRuleHdl.valid
            rw [hcount, ← (hw.ok t i).num, BitVec.toNat_add]
            have hlt : (w.table t i).num.toNat < 3 := Nat.lt_of_not_le hmax
            exact Nat.mod_eq_of_lt (show _ + 1 < 2 ^ 8 by omega)
        · exact hw.ok t' i'
      · intro t' i' hdl'
        show ⟨t', i', hdl'⟩ ∈ held ∅ (w.ledger ++ [.take ⟨t, i, hdl⟩]) ↔
          FltTable.Valid (if t' = t ∧ i' = i then _ else w.table t' i') hdl'
        rw [held_concat, Entry.settle, Finset.mem_insert, hw.valid]
        split
        · next hti =>
          obtain ⟨rfl, rfl⟩ := hti
          show _ ↔ ⟨hdl', true⟩ ∈ slots
          rw [hmem]
          simp [FltTable.Valid]
        · next hti =>
          simp only [Slot.mk.injEq]
          tauto
      · show Leased _ (held ∅ (w.ledger ++ [.take ⟨t, i, hdl⟩]))
        rw [held_concat]
        exact hw.leased.take hnot v

/-- All filter ioctls succeed. -/
def LanEnv.FltSucceeds (e : LanEnv ω) : Prop :=
  ∀ env i t hdl rule, (e.modifyFilteringRule env i t hdl rule).1 = true

theorem delLan2lanFltRule_good {hdl : Hdl} {r : Option Handed} {v : V} (hflt : e.FltSucceeds)
    (hw : w.Good own) (hv : ⟨t, i, hdl⟩ ∈ own v) (h : delLan2lanFltRule e t i hdl w = (r, w')) :
    r.isSome = true ∧ w'.Good (update own v ((own v).erase ⟨t, i, hdl⟩)) := by
  have hheld := hw.leased.mem_held hv
  obtain ⟨slots, hslots, hmap, hcount, hmem⟩ :=
    freeSlot_spec ((hw.valid t i hdl).mp hheld) (hw.ok t i).distinct
  unfold delLan2lanFltRule at h
  split at h
  · next hnone =>
    rw [hslots] at hnone
    cases hnone
  · next slots' hslots' =>
    obtain rfl : slots = slots' := Option.some.inj (hslots.symm.trans hslots')
    have hioctl := hflt w.env i t hdl .dummy
    split at h
    · next env henv =>
      rw [henv] at hioctl
      cases hioctl
    · cases h
      refine ⟨rfl, fun t' i' => ?_, hw.clean.drop hheld, ?_, ?_⟩
      · show FltTable.Ok (if t' = t ∧ i' = i then _ else w.table t' i')
        split
        · refine ⟨?_, ?_⟩
          · show (slots.map FltRuleHdl.ruleHdl).Nodup
            rw [hmap]
            exact (hw.ok t i).distinct
          · show ((w.table t i).num - 1).toNat = slots.countP FltRuleHdl.valid
            have hnum := (hw.ok t i).num
            rw [BitVec.toNat_sub_of_le (BitVec.le_def.mpr (by show 1 ≤ _; omega))]
            show (w.table t i).num.toNat - 1 = _
            omega
        · exact hw.ok t' i'
      · intro t' i' hdl'
        show ⟨t', i', hdl'⟩ ∈ held ∅ (w.ledger ++ [.drop ⟨t, i, hdl⟩]) ↔
          FltTable.Valid (if t' = t ∧ i' = i then _ else w.table t' i') hdl'
        rw [held_concat, Entry.settle, Finset.mem_erase, hw.valid]
        split
        · next hti =>
          obtain ⟨rfl, rfl⟩ := hti
          show _ ↔ ⟨hdl', true⟩ ∈ slots
          rw [hmem]
          simp [FltTable.Valid]
        · next hti =>
          simp only [Ne, Slot.mk.injEq]
          tauto
      · show Leased _ (held ∅ (w.ledger ++ [.drop ⟨t, i, hdl⟩]))
        rw [held_concat]
        exact hw.leased.drop hv

end Good

end Nx508j.Ipacm.Lan2Lan
