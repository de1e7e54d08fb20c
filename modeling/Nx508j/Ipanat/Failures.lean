import Nx508j.Ipanat.Reachable

/-! # Calls that fail

A deletion that fails leaves the table as it was, and so does an addition that finds no rows. An
addition that has found rows has already written and linked them when it asks for the rule to be
enabled and takes a handle, and it does not take them back. Where no addition stops there, an error
means that nothing was changed, and the chains stay in order whatever other writes fail. -/

namespace Nx508j.Ipanat

open Nx508j.Lib

namespace IpaNatIp4TableCache

variable {t t' : IpaNatIp4TableCache} {c : IpaNatIpv4Rule}

/-- There is a rule row and an index row for the rule. -/
def HasRoom (t : IpaNatIp4TableCache) (c : IpaNatIpv4Rule) : Prop :=
  (∃ e p, t.RuleSlot (t.dstBucket c) e p) ∧ ∃ ie ip, t.IndxSlot (t.srcBucket c) ie ip

/-- `t'` holds what `t` does: the rules, the index rows and their predecessors, the handles. -/
structure SameContents (t t' : IpaNatIp4TableCache) : Prop where
  rule : t'.rule = t.rule
  indx : t'.indx = t.indx
  metaPrev : t'.metaPrev = t.metaPrev
  ruleIdArray : t'.ruleIdArray = t.ruleIdArray

theorem SameContents.refl (t : IpaNatIp4TableCache) : t.SameContents t := ⟨rfl, rfl, rfl, rfl⟩

/-- The chains of both tables end, and meet occupied expansion rows only. -/
structure ChainsEnd (t : IpaNatIp4TableCache) : Prop where
  rule : ∀ b, t.isHead b → Path 0 t.ruleNext b (t.ruleChain b) ∧ (t.ruleChain b).Nodup
  indx : ∀ b, t.isHead b → Path 0 t.indxNext b (t.indxChain b) ∧ (t.indxChain b).Nodup
  ruleOcc : ∀ b, t.isHead b → ∀ x ∈ t.ruleChain b, ¬ t.isHead x ∧ t.ruleOcc x
  indxOcc : ∀ b, t.isHead b → ∀ y ∈ t.indxChain b, ¬ t.isHead y ∧ t.indxOcc y

theorem chainsEnd_of_threaded (R : t.RuleThreaded) (X : t.IndxThreaded) : t.ChainsEnd where
  rule _ hb := R.ruleChain hb
  indx _ hb := X.indxChain hb
  ruleOcc _ hb _ hx := R.mem_path (R.ruleChain hb).1 hx
  indxOcc _ hb _ hy := X.mem_path (X.indxChain hb).1 hy

/-! ## Room is found -/

theorem RuleSlot.found (hl : t.Layout) {e p : Nat} (hs : t.RuleSlot (t.dstBucket c) e p)
    {r : IpaNatRule} {e' : Nat} (h : ipaNatiGenerateTblRule t c = .ok (r, e')) : e' ≠ 0 := by
  obtain ⟨hb, hb'⟩ := hl.dstBucket_range c
  obtain ⟨row, hrow, h⟩ := bind_eq_ok h
  obtain ⟨-, rfl⟩ := Region.lt_of_read hrow
  rw [← rule_base hb'] at h
  generalize t.dstBucket c = b at *
  cases hs with
  | base hfree =>
    rw [hfree] at h
    obtain ⟨-, rfl⟩ : _ ∧ _ := by simpa using h
    omega
  | @expn f _ hocc hlast hf hfE hfree =>
    rw [hocc, if_pos rfl, hlast, ok_bind] at h
    obtain ⟨entry, hentry, h⟩ := bind_eq_ok h
    obtain ⟨o, ho, hentry⟩ := bind_eq_ok hentry
    obtain rfl : o.getD 0 = entry := by simpa using hentry
    cases o with
    | none =>
      have := firstFree_none ho hf (by omega)
      rw [← rule_expn hfE, hfree] at this
      cases this
    | some i =>
      obtain ⟨hi, -, hlt, -⟩ := firstFree_some ho
      rw [hl.sized.ipv4ExpnRules] at hlt
      rw [Option.getD_some, if_neg (by omega), add16_row hl hlt] at h
      obtain ⟨-, rfl⟩ : _ ∧ i + t.tableEntries = e' := by simpa using h
      omega

theorem IndxSlot.found (hl : t.Layout) {ie ip : Nat} (hs : t.IndxSlot (t.srcBucket c) ie ip)
    {s : IpaNatIndxTblSwRule} {e ie' : Nat}
    (h : ipaNatiGenerateIndexRule t c e = .ok (s, ie')) : ie' ≠ 0 := by
  obtain ⟨hb, hb'⟩ := hl.srcBucket_range c
  obtain ⟨row, hrow, h⟩ := bind_eq_ok h
  obtain ⟨-, rfl⟩ := Region.lt_of_read hrow
  rw [← indx_base hb'] at h
  generalize t.srcBucket c = b at *
  cases hs with
  | base hfree =>
    rw [hfree] at h
    obtain ⟨-, rfl⟩ : _ ∧ _ := by simpa using h
    omega
  | @expn f _ hocc hlast hf hfE hfree hfirst hne =>
    rw [if_neg hocc, hlast, ok_bind] at h
    obtain ⟨entry, hentry, h⟩ := bind_eq_ok h
    obtain ⟨o, ho, hentry⟩ := bind_eq_ok hentry
    obtain rfl : o.getD 0 = entry := by simpa using hentry
    cases o with
    | none =>
      have := firstFree_none ho hf (by omega)
      rw [← indx_expn hfE, hfree] at this
      cases this
    | some i =>
      obtain ⟨hi, -, hlt, hfree', hbefore⟩ := firstFree_some ho
      rw [hl.sized.indexTableExpn] at hlt
      rw [← indx_expn hlt] at hfree'
      -- both are the first free row
      have hif : i = f := by
        rcases Nat.lt_trichotomy i f with hlt' | heq | hgt
        · exact absurd (by simpa using hfree') (hfirst i hi hlt')
        · exact heq
        · have := hbefore f hf hgt
          rw [← indx_expn hfE, hfree] at this
          cases this
      subst hif
      rw [Option.getD_some, if_neg (by omega), add16_row hl hlt, if_neg hne] at h
      obtain ⟨-, rfl⟩ : _ ∧ i + t.tableEntries = ie' := by simpa using h
      omega

theorem HasRoom.generated (hl : t.Layout) (hroom : t.HasRoom c)
    (h : ipaNatiGenerateRule t c = .ok (t', none)) : False := by
  obtain ⟨⟨e, p, hs⟩, ie, ip, his⟩ := hroom
  obtain ⟨⟨r, e'⟩, hgen, h⟩ := bind_eq_ok h
  have he' := hs.found hl hgen
  dsimp only at h
  rw [if_neg he'] at h
  obtain ⟨⟨s, ie'⟩, hindx, h⟩ := bind_eq_ok h
  have hie' := his.found hl hindx
  rw [if_neg hie'] at h
  split at h
  · obtain ⟨t₁, -, h⟩ := bind_eq_ok h
    simp at h
  · simp at h

theorem not_sameContents_placed (hs : t.Small) (X : t.IndxThreaded) {e p ie ip : Nat}
    {dma : AddDma} (hslot : t.RuleSlot (t.dstBucket c) e p)
    (his : t.IndxSlot (t.srcBucket c) ie ip) : ¬ t.SameContents (t.placed c e p ie ip dma) := by
  intro hsame
  obtain ⟨hb, hb'⟩ := hs.layout.dstBucket_range c
  have he := (hslot.range hb hb').1
  have hfree := (his.ne hs.layout X (hs.layout.srcBucket_range c).1).2.2
  refine hfree ?_
  have hentry : ((t.placed c e p ie ip dma).indx ie).tblEntry = e := by
    rw [tblEntry_placed (his.place hs X), if_pos rfl]
  rw [hsame.indx] at hentry
  unfold indxOcc
  omega

end IpaNatIp4TableCache

open IpaNatIp4TableCache

/-- The call does not stop between writing its rows and handing out a handle: where it finds rows,
    the rule is enabled and a slot of `rule_id_array` is free. A deletion never does. -/
def RuleCall.Finishes (t : IpaNatIp4TableCache) : RuleCall → Prop
  | .add clntRule dma =>
    t.HasRoom clntRule → dma.enable = true ∧ ∃ i < t.rows, t.ruleIdArray.get i = 0
  | .del _ _ => True

variable {t₀ t : IpaNatIp4TableCache} {tr : List (RuleCall × Except Errno Nat)} {call : RuleCall}

theorem threaded_step (hs : t.Small) (R : t.RuleThreaded) (X : t.IndxThreaded)
    (hfin : call.Finishes t) {t' : IpaNatIp4TableCache} {r : Except Errno Nat}
    (h : ruleStep t call = .ok (t', r)) : t'.Small ∧ t'.RuleThreaded ∧ t'.IndxThreaded := by
  have hl := hs.layout
  refine ⟨(hl.step R.links h).small hs, ?_, X.step hs R.links h⟩
  rcases ruleStep_cases hl R.links h with
    ⟨rfl, -⟩ | ⟨c, dma, e, p, ie, ip, rfl, hslot, hislot, -⟩ | ⟨hdl, x, -, -, -, -, hd⟩
  · exact R
  · have hen := (hfin ⟨⟨e, p, hslot⟩, ie, ip, hislot⟩).1
    refine R.step hl ?_ h
    rintro d dma' hcall
    obtain ⟨rfl, rfl⟩ : c = d ∧ dma = dma' := by simpa using hcall
    exact hen
  · exact R.deleted hl hd

/-- On a threaded table, a call that returns an error has left the table as it was if and only if it
    did not stop half-way. -/
theorem sameContents_iff_finishes (hs : t.Small) (R : t.RuleThreaded) (X : t.IndxThreaded)
    {t' : IpaNatIp4TableCache} {err : Errno}
    (h : ruleStep t call = .ok (t', .error err)) : t.SameContents t' ↔ call.Finishes t := by
  have hl := hs.layout
  cases call with
  | del hdl ok =>
    rcases ruleStep_cases hl R.links h with
      ⟨rfl, -⟩ | ⟨c, dma, e, p, ie, ip, hcall, -⟩ | ⟨hdl, x, -, -, -, hret, -⟩
    · exact ⟨fun _ => trivial, fun _ => .refl _⟩
    · cases hcall
    · cases hret
  | add c dma =>
    constructor
    · intro hsame hroom
      rcases ipaNatiAddIpv4Rule_cases hl h with
        ⟨rfl, -, hgen⟩ | ⟨e, p, ie, ip, hslot, his, ⟨-, -, rfl⟩ | ⟨-, -, rfl, -⟩ | ⟨-, i, hret, -⟩⟩
      · exact (hroom.generated hl hgen).elim
      · exact absurd hsame (not_sameContents_placed hs X hslot his)
      · exact absurd hsame (not_sameContents_placed hs X hslot his)
      · cases hret
    · intro hfin
      rcases ipaNatiAddIpv4Rule_cases hl h with
        ⟨rfl, -⟩ | ⟨e, p, ie, ip, hslot, his, hcase⟩
      · exact .refl _
      · obtain ⟨hen, i, hi, hi0⟩ := hfin ⟨⟨e, p, hslot⟩, ie, ip, his⟩
        rcases hcase with ⟨hen', -⟩ | ⟨-, -, -, hfull⟩ | ⟨-, i, hret, -⟩
        · rw [hen] at hen'
          cases hen'
        · exact absurd hi0 (hfull i hi)
        · cases hret

/-- **Failing calls.** In a run on a table of at most 16384 base rows in which no addition stops
    half-way, the chains stay in order whatever other writes fail; the next call returns; and if it
    returns an error it has changed nothing, unless it is an addition that stopped half-way, which
    always has. -/
theorem run_failures (hadded : FreshlyAdded t₀) (hT : 2 ≤ t₀.tableEntries)
    (hT' : t₀.tableEntries ≤ 16384)
    (hrun : Run ruleStep (fun t call => call.Finishes t) t₀ tr t) :
    t.ChainsEnd ∧ (∀ call, call.InRange → ∃ t' r, ruleStep t call = .ok (t', r)) ∧
      ∀ call t' err, ruleStep t call = .ok (t', .error err) →
        (t.SameContents t' ↔ call.Finishes t) := by
  have hf := hadded.fresh
  have S := hf.sound_run (by omega) hrun
  obtain ⟨hs, R, X⟩ : t.Small ∧ t.RuleThreaded ∧ t.IndxThreaded :=
    hrun.invariant (fun _ t => t.Small ∧ t.RuleThreaded ∧ t.IndxThreaded)
      ⟨⟨hf.layout (by omega), hT'⟩, hf.ruleThreaded, hf.indxThreaded⟩
      fun _ _ _ _ _ ⟨hs, R, X⟩ hfin hstep => threaded_step hs R X hfin hstep
  refine ⟨chainsEnd_of_threaded R X, fun call hrange => ?_, fun call t' err h => ?_⟩
  · refine ruleStep_returns S.layout S.bounded S.ids R X ?_
    rintro hdl ok rfl
    exact hrange
  · exact sameContents_iff_finishes hs R X h

/-- The write that links a rule to its predecessor fails. -/
def AddDma.unlinked : AddDma := ⟨false, false, true⟩

/-- The write that enables a rule fails. -/
def AddDma.disabled : AddDma := ⟨true, true, false⟩

/-- An addition that is enabled and finds a free element of `rule_id_array` finishes. -/
def RuleCall.finishesTest (t : IpaNatIp4TableCache) : RuleCall → Bool
  | .add _ dma => dma.enable && (List.range t.rows).any fun i => t.ruleIdArray.get i == 0
  | .del _ _ => true

theorem RuleCall.finishes_of_test (h : call.finishesTest t = true) : call.Finishes t := by
  cases call with
  | add clntRule dma =>
    obtain ⟨hdma, hfree⟩ := Bool.and_eq_true_iff.1 h
    obtain ⟨i, hi, hi0⟩ := List.any_eq_true.1 hfree
    exact fun _ => ⟨hdma, i, List.mem_range.1 hi, beq_iff_eq.1 hi0⟩
  | del ruleHdl ok => trivial

/-- The second of two rules of one bucket is not linked to the first, and is enabled all the same. -/
theorem run_failures_example : ∃ t tr,
    Run ruleStep (fun t call => call.Finishes t) (addedTable 1) tr t ∧
      t.ruleNext 1 = 0 ∧ (t.rule 3).enable = true ∧ t.ChainsEnd := by
  have hend : (exec ruleStep (addedTable 1)
      [.add webRule .allOk, .add webRule .unlinked]).toOption.map
        (fun x => (x.1.ruleNext 1, (x.1.rule 3).enable)) = some (0, true) := rfl
  have hall : allMeet ruleStep RuleCall.finishesTest (addedTable 1)
      [.add webRule .allOk, .add webRule .unlinked] = true := rfl
  obtain ⟨t, tr, hexec, hend⟩ := exec_of_map hend
  obtain ⟨hnext, henable⟩ := Prod.mk.inj hend
  have run := Run.of_exec_of_allMeet (C := fun t call => RuleCall.Finishes t call)
    (fun t call _ h => RuleCall.finishes_of_test h) hexec hall
  exact ⟨t, tr, run, hnext, henable,
    (run_failures freshlyAdded_addedTable (by decide) (by decide) run).1⟩

/-- An addition whose rule cannot be enabled returns an error and leaves its rows behind; the next
    additions to the same bucket find the row free again, and link it to itself. -/
theorem run_failures_unfinished :
    ¬ (∀ t' err, ruleStep (addedTable 1) (.add webRule .disabled) = .ok (t', .error err) →
        (addedTable 1).SameContents t') ∧
      ∃ t tr, exec ruleStep (addedTable 15)
          [.add webRule .allOk, .add webRule .disabled, .add webRule .allOk] = .ok (t, tr) ∧
        t.ruleNext 17 = 17 := by
  constructor
  · intro hsame
    have h := congrFun (hsame _ .eio rfl).indx 1
    revert h
    decide
  · exact ⟨_, _, rfl, rfl⟩

end Nx508j.Ipanat
