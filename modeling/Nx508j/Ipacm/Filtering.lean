import Nx508j.Ipacm.WanRules
import Nx508j.Lib.RuleTable

/-! # The filter rules of the driver

`IPACM_Filtering` hands rules to the driver and has them deleted by their handles. Each of its calls
can fail, and a rule can be refused although the call succeeds. -/

namespace Nx508j.Ipacm

open Nx508j.Lib Function

/-- What becomes of a rule that is handed to the driver. -/
inductive AddAnswer where
  /-- The ioctl fails. -/
  | failed
  /-- The ioctl succeeds, but the status of the rule is an error. -/
  | badStatus
  | added
deriving DecidableEq, Repr

/-- A handle that was passed to the driver to be deleted, and whether it was that of a rule. -/
structure FltDelete where
  family : IpFamily
  hdl : Nat
  present : Bool
deriving DecidableEq, Repr

/-- The filter rules, and the handles that were passed to be deleted. -/
structure FltDriver (κ : Type) where
  table : IpFamily → RuleTable κ
  deletes : List FltDelete := []

/-- The handle of a rule that the driver does not set: -1. -/
def noFltHdl : Nat := 0xffffffff

/-- A rule as it comes back from the driver. -/
structure AddedRule where
  flt_rule_hdl : Nat
  status : Bool
deriving DecidableEq, Repr

namespace FltDriver

variable {κ : Type} (d : FltDriver κ) (f : IpFamily)

def setTable (t : RuleTable κ) : FltDriver κ := { d with table := update d.table f t }

/-- `AddFilteringRule` for one rule: the rule, if the call succeeds. -/
def AddFilteringRule (at_rear : Bool) (k : κ) : AddAnswer → Option AddedRule × FltDriver κ
  | .failed => (none, d)
  | .badStatus => (some ⟨noFltHdl, false⟩, d)
  | .added =>
    (some ⟨(d.table f).next, true⟩,
      d.setTable f (if at_rear then (d.table f).addRear [k] else (d.table f).addFront [k]))

def knows (hdl : Nat) : Bool := (d.table f).rules.any fun r => r.1 = hdl

/-- The handle is passed to the driver. -/
def pass (hdl : Nat) : FltDriver κ := { d with deletes := d.deletes ++ [⟨f, hdl, d.knows f hdl⟩] }

/-- The loop of `DeleteFilteringHdls`, from the `cnt`-th handle on. A handle that is 0 is ignored.
    -/
def deleteLoop (deleted : Nat → Bool) : (cnt : Nat) → List Nat → FltDriver κ → Bool × FltDriver κ
  | _, [], d => (true, d)
  | cnt, hdl :: hdls, d =>
    if hdl = 0 then deleteLoop deleted (cnt + 1) hdls d
    else if deleted cnt = false then (false, d.pass f hdl)
    else deleteLoop deleted (cnt + 1) hdls ((d.pass f hdl).setTable f ((d.table f).delete hdl))

end FltDriver

/-- What a call of `DeleteFilteringHdls` meets: whether there is memory for it, and whether the
    driver deletes the rule of the `n`-th handle. -/
structure DelAnswer where
  memory : Bool := true
  deleted : Nat → Bool := fun _ => true

/-- Whether the first handle is deleted. -/
def DelAnswer.one (a : DelAnswer) : Bool := a.memory && a.deleted 0

namespace FltDriver

variable {κ : Type} (d : FltDriver κ) (f : IpFamily)

/-- `DeleteFilteringHdls`, and whether it succeeds. -/
def DeleteFilteringHdls (flt_rule_hdls : List Nat) (a : DelAnswer) : Bool × FltDriver κ :=
  if a.memory = false then (false, d) else deleteLoop f a.deleted 0 flt_rule_hdls d

/-! ## What the calls do -/

variable {d f} {hdl : Nat}

@[simp] theorem setTable_table (t : RuleTable κ) : (d.setTable f t).table f = t :=
  update_self ..

theorem setTable_table_of_ne {g : IpFamily} (h : g ≠ f) (t : RuleTable κ) :
    (d.setTable f t).table g = d.table g :=
  update_of_ne h ..

theorem knows_iff : d.knows f hdl = true ↔ ∃ k, (hdl, k) ∈ (d.table f).rules := by
  unfold knows
  rw [List.any_eq_true]
  constructor
  · rintro ⟨⟨h, k⟩, hr, heq⟩
    obtain rfl := of_decide_eq_true heq
    exact ⟨k, hr⟩
  · rintro ⟨k, hr⟩
    exact ⟨(hdl, k), hr, decide_eq_true rfl⟩

theorem DeleteFilteringHdls_one (hne : hdl ≠ 0) (a : DelAnswer) : d.DeleteFilteringHdls f [hdl] a =
      if a.memory = false then (false, d)
      else if a.deleted 0 = false then (false, d.pass f hdl)
      else (true, (d.pass f hdl).setTable f ((d.table f).delete hdl)) := by
  unfold DeleteFilteringHdls
  rw [deleteLoop, if_neg hne]
  rfl

theorem DeleteFilteringHdls_first (hne : hdl ≠ 0) (hdls : List Nat) {a : DelAnswer}
    (h : a.one = false) : ∃ d', d.DeleteFilteringHdls f (hdl :: hdls) a = (false, d') ∧
      (d' = d ∨ d' = d.pass f hdl) := by
  unfold DeleteFilteringHdls
  cases hmem : a.memory with
  | false => exact ⟨d, rfl, .inl rfl⟩
  | true =>
    have hdel : a.deleted 0 = false := by simpa [DelAnswer.one, hmem] using h
    refine ⟨d.pass f hdl, ?_, .inr rfl⟩
    rw [if_neg (by decide), deleteLoop, if_neg hne, if_pos hdel]

/-- Rules have been deleted by their handles. -/
structure Deleted (f : IpFamily) (hdls : List Nat) (d d' : FltDriver κ) : Prop where
  rules : (d'.table f).rules = (d.table f).rules.filter fun r => r.1 ∉ hdls
  next : (d'.table f).next = (d.table f).next
  other : ∀ g, g ≠ f → d'.table g = d.table g
  log : ∃ deletes, d'.deletes = d.deletes ++ deletes ∧ deletes.map FltDelete.hdl = hdls ∧
    ∀ x ∈ deletes, x.family = f

theorem Deleted.refl (f : IpFamily) (d : FltDriver κ) : Deleted f [] d d where
  rules := by simp
  next := rfl
  other _ _ := rfl
  log := ⟨[], by simp, rfl, by simp⟩

theorem Deleted.trans {hs hs' : List Nat} {d d' d'' : FltDriver κ} (h : Deleted f hs d d')
    (h' : Deleted f hs' d' d'') : Deleted f (hs ++ hs') d d'' where
  rules := by
    rw [h'.rules, h.rules, List.filter_filter]
    refine List.filter_congr fun r _ => ?_
    simp [Bool.and_comm]
  next := h'.next.trans h.next
  other g hg := (h'.other g hg).trans (h.other g hg)
  log := by
    obtain ⟨ds, hlog, hmap, hfam⟩ := h.log
    obtain ⟨ds', hlog', hmap', hfam'⟩ := h'.log
    refine ⟨ds ++ ds', by rw [hlog', hlog, List.append_assoc], ?_, ?_⟩
    · rw [List.map_append, hmap, hmap']
    · intro x hx
      exact (List.mem_append.1 hx).elim (hfam x) (hfam' x)

theorem Deleted.one (f : IpFamily) (hdl : Nat) (d : FltDriver κ) :
    Deleted f [hdl] d ((d.pass f hdl).setTable f ((d.table f).delete hdl)) where
  rules := by
    rw [setTable_table, RuleTable.delete_rules]
    refine List.filter_congr fun r _ => ?_
    simp
  next := by rw [setTable_table, RuleTable.delete_next]
  other g hg := setTable_table_of_ne hg _
  log := ⟨[⟨f, hdl, d.knows f hdl⟩], rfl, rfl, by simp⟩

theorem deleteLoop_all {deleted : Nat → Bool} {hdls : List Nat} (hne : ∀ h ∈ hdls, h ≠ 0)
    (cnt : Nat) (h : ∀ i < hdls.length, deleted (cnt + i) = true) (d : FltDriver κ) :
    ∃ d', deleteLoop f deleted cnt hdls d = (true, d') ∧ Deleted f hdls d d' := by
  induction hdls generalizing cnt d with
  | nil => exact ⟨d, rfl, .refl f d⟩
  | cons hdl hdls ih =>
    have hfirst : deleted cnt = true := h 0 (by simp)
    obtain ⟨d', hloop, hrest⟩ := ih (fun x hx => hne x (List.mem_cons_of_mem _ hx)) (cnt + 1)
      (fun i hi => by
        rw [Nat.add_assoc, Nat.add_comm 1]
        exact h (i + 1) (by simpa using hi))
      ((d.pass f hdl).setTable f ((d.table f).delete hdl))
    refine ⟨d', ?_, (Deleted.one f hdl d).trans hrest⟩
    rw [deleteLoop, if_neg (hne hdl List.mem_cons_self), if_neg (by simp [hfirst])]
    exact hloop

theorem DeleteFilteringHdls_all {hdls : List Nat} (hne : ∀ h ∈ hdls, h ≠ 0) {a : DelAnswer}
    (hmem : a.memory = true) (h : ∀ i < hdls.length, a.deleted i = true) :
    ∃ d', d.DeleteFilteringHdls f hdls a = (true, d') ∧ Deleted f hdls d d' := by
  obtain ⟨d', hloop, hdel⟩ := deleteLoop_all hne 0 (by simpa using h) d
  refine ⟨d', ?_, hdel⟩
  unfold DeleteFilteringHdls
  rw [if_neg (by simp [hmem]), hloop]

end FltDriver

end Nx508j.Ipacm
