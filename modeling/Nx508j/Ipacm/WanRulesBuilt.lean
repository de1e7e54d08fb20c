import Nx508j.Ipacm.WanRules

/-! # Constructing the downlink rules

The sections of the array are accepted one by one, but nothing looks at how many rules they are
together. A construction that stays inside the array leaves every rule that is counted constructed,
if those that all interfaces need were there before. -/

namespace Nx508j.Ipacm

open Nx508j.Lib

/-- How many rules are put into the array before the first answer that is no success. -/
def rulesReached : List DlOp → Nat → Nat
  | [], _ => 0
  | .ioctl :: _, 0 => 0
  | .ioctl :: ops, n + 1 => rulesReached ops n
  | .put _ :: ops, n => rulesReached ops n + 1

/-- How many answers a construction needs. -/
def ioctlsNeeded (ops : List DlOp) : Nat := ops.count .ioctl

/-- How many rules a construction is of. -/
def rulesIn (ops : List DlOp) : Nat := ops.countP fun op => op != .ioctl

namespace DlTable

variable {t t' : DlTable} {n : Nat} {ops : List DlOp} (f : IpFamily)

/-- The counter is inside the array, and what it counts is constructed. -/
structure Built (t : DlTable) : Prop where
  size : t.rules.size = ipaMaxFltRule
  num_le : t.num ≤ ipaMaxFltRule
  full : ∀ i < t.num, t.rules.get i ≠ none

/-- The rules that every interface needs are in the array. -/
def HasDefaults (f : IpFamily) (t : DlTable) : Prop :=
  ∀ i < numDefaultWanFilterRule f, t.rules.get i ≠ none

instance (f : IpFamily) (t : DlTable) : Decidable (t.HasDefaults f) := by
  unfold HasDefaults
  infer_instance

/-- The array goes on from `t` with `k` rules. -/
structure Extends (t : DlTable) (k : Nat) (t' : DlTable) : Prop where
  size : t'.rules.size = t.rules.size
  num : t'.num = t.num + k
  kept : ∀ i < t.num, t'.rules.get i = t.rules.get i
  full : ∀ i, t.num ≤ i → i < t.num + k → t'.rules.get i ≠ none

theorem Extends.refl (t : DlTable) : t.Extends 0 t :=
  ⟨rfl, rfl, fun _ _ => rfl, fun i h h' => absurd h' (by omega)⟩

theorem Extends.put {rule : DlRule} {k : Nat}
    (h : Extends { rules := t.rules.set t.num (some rule), num := t.num + 1 } k t') :
    t.Extends (k + 1) t' := by
  constructor
  · exact h.size
  · rw [h.num]
    exact Nat.add_right_comm _ _ _
  · intro i hi
    rw [h.kept i (Nat.lt_succ_of_lt hi), Region.get_set, if_neg (Nat.ne_of_lt hi)]
  · intro i hle hlt
    by_cases hi : i = t.num
    · rw [hi, h.kept t.num (Nat.lt_succ_self _), Region.get_set_self]
      exact Option.some_ne_none _
    · exact h.full i (by dsimp only; omega) (by dsimp only; omega)

theorem construct_fits (h : t.num + rulesReached ops n ≤ t.rules.size) :
    ∃ done t', t.construct ops n = .ok (done, t') ∧ t.Extends (rulesReached ops n) t' ∧
      (done = true ↔ ioctlsNeeded ops ≤ n) := by
  induction ops generalizing n t with
  | nil => exact ⟨true, t, rfl, .refl t, by simp [ioctlsNeeded]⟩
  | cons op ops ih =>
    cases op with
    | ioctl =>
      cases n with
      | zero => exact ⟨false, t, rfl, .refl t, by simp [ioctlsNeeded]⟩
      | succ n =>
        obtain ⟨done, t', hc, hext, hdone⟩ := ih h
        refine ⟨done, t', hc, hext, hdone.trans ?_⟩
        simp [ioctlsNeeded]
    | put rule =>
      simp only [rulesReached] at h
      have hin : t.num < t.rules.size := by omega
      obtain ⟨done, t', hc, hext, hdone⟩ := ih (n := n)
        (t := { rules := t.rules.set t.num (some rule), num := t.num + 1 })
        (by simp only [Region.size_set]; omega)
      refine ⟨done, t', ?_, hext.put, hdone.trans ?_⟩
      · rw [construct, Region.write_ok hin, ok_bind, hc]
      · simp [ioctlsNeeded]

theorem construct_overflows
    (h : t.rules.size < t.num + rulesReached ops n) (hnum : t.num ≤ t.rules.size) :
    t.construct ops n = .error .outOfBounds := by
  induction ops generalizing n t with
  | nil =>
    simp only [rulesReached] at h
    omega
  | cons op ops ih =>
    cases op with
    | ioctl =>
      cases n with
      | zero =>
        simp only [rulesReached] at h
        omega
      | succ n => exact ih h hnum
    | put rule =>
      simp only [rulesReached] at h
      by_cases hin : t.num < t.rules.size
      · rw [construct, Region.write_ok hin, ok_bind]
        refine ih ?_ ?_
        · simp only [Region.size_set]
          omega
        · simp only [Region.size_set]
          omega
      · rw [construct, Region.write, if_neg hin, error_bind]

theorem construct_ok_iff (hnum : t.num ≤ t.rules.size) :
    (∃ x, t.construct ops n = .ok x) ↔ t.num + rulesReached ops n ≤ t.rules.size := by
  constructor
  · rintro ⟨x, hx⟩
    by_contra hlt
    rw [construct_overflows (Nat.lt_of_not_le hlt) hnum] at hx
    cases hx
  · intro h
    obtain ⟨done, t', hc, -⟩ := construct_fits h
    exact ⟨_, hc⟩

theorem rulesReached_of_le (h : ioctlsNeeded ops ≤ n) : rulesReached ops n = rulesIn ops := by
  induction ops generalizing n with
  | nil => rfl
  | cons op ops ih =>
    cases op with
    | ioctl =>
      cases n with
      | zero => simp [ioctlsNeeded] at h
      | succ n =>
        have hle : ioctlsNeeded ops ≤ n := by simpa [ioctlsNeeded] using h
        simpa [rulesReached, rulesIn] using ih hle
    | put rule =>
      have hle : ioctlsNeeded ops ≤ n := by simpa [ioctlsNeeded] using h
      simpa [rulesReached, rulesIn] using ih hle

/-! ## The functions on the array -/

theorem dft_reached_le (n : Nat) :
    rulesReached (dftFilteringRules f) n ≤ numDefaultWanFilterRule f := by
  cases f with
  | v4 => rcases n with - | - | - | n <;> simp [dftFilteringRules, rulesReached,
      numDefaultWanFilterRule]
  | v6 => rcases n with - | - | - | - | n <;> simp [dftFilteringRules, rulesReached,
      numDefaultWanFilterRule]

theorem numDefault_le : numDefaultWanFilterRule f ≤ ipaMaxFltRule := by
  cases f <;> decide

theorem add_dft_built (rx_prop : Bool) (ioctls : Nat) (hsize : t.rules.size = ipaMaxFltRule) :
    ∃ t', t.add_dft_filtering_rule f rx_prop ioctls = .ok t' ∧ t'.Built := by
  unfold add_dft_filtering_rule
  cases rx_prop with
  | false => exact ⟨_, rfl, hsize, Nat.zero_le _, fun i hi => absurd hi (Nat.not_lt_zero i)⟩
  | true =>
    have hle := dft_reached_le f ioctls
    have hmax := numDefault_le f
    have hroom : ({ t with num := 0 } : DlTable).num + rulesReached (dftFilteringRules f) ioctls ≤
        ({ t with num := 0 } : DlTable).rules.size := by
      dsimp only
      omega
    obtain ⟨done, t', hc, hext, -⟩ := construct_fits hroom
    simp only [Bool.true_eq_false, if_false, hc, ok_bind]
    refine ⟨_, rfl, ?_⟩
    cases done with
    | false =>
      exact ⟨hext.size.trans hsize, Nat.zero_le _, fun i hi => absurd hi (Nat.not_lt_zero i)⟩
    | true =>
      refine ⟨hext.size.trans hsize, ?_, ?_⟩
      · simp only [if_true, hext.num]
        omega
      · intro i hi
        simp only [if_true, hext.num] at hi
        exact hext.full i (Nat.zero_le _) hi

/-- The rules of a configuration fit the array, as far as the driver lets them be made, and those
    that they are put behind are in it. -/
def ConfigFits (f : IpFamily) (rx_prop : Bool) (env : DlEnv) (t : DlTable) : Prop :=
  t.HasDefaults f ∧ (rx_prop = false → env.ioctls = 0) ∧
    numDefaultWanFilterRule f + rulesReached (wanFirewallRules env f) env.ioctls ≤ ipaMaxFltRule

instance (f : IpFamily) (rx_prop : Bool) (env : DlEnv) (t : DlTable) :
    Decidable (t.ConfigFits f rx_prop env) := by
  unfold ConfigFits
  infer_instance

theorem rulesReached_zero_config (env : DlEnv) : rulesReached (wanFirewallRules env f) 0 = 0 := by
  cases f <;> rfl

theorem config_built_iff {f : IpFamily} {rx_prop : Bool} {env : DlEnv}
    (hsize : t.rules.size = ipaMaxFltRule) :
    (∃ t', t.config_wan_firewall_rule f rx_prop env = .ok t' ∧ t'.Built) ↔
      t.ConfigFits f rx_prop env := by
  have hmax := numDefault_le f
  have hzero := rulesReached_zero_config f env
  unfold config_wan_firewall_rule ConfigFits
  cases rx_prop with
  | false =>
    by_cases hn : env.ioctls = 0
    · simp only [if_true, hn, hzero, Except.ok.injEq, exists_eq_left', true_implies, true_and]
      constructor
      · intro h
        exact ⟨h.full, hmax⟩
      · rintro ⟨h, -⟩
        exact ⟨hsize, hmax, h⟩
    · simp [hn]
  | true =>
    simp only [Bool.true_eq_false, if_false, false_implies, true_and]
    constructor
    · rintro ⟨t', ht, hb⟩
      obtain ⟨⟨done, t₁⟩, hc, ht⟩ := bind_eq_ok ht
      cases ht
      have hfits := (construct_ok_iff (t := { t with num := numDefaultWanFilterRule f })
        (hmax.trans_eq hsize.symm)).1 ⟨_, hc⟩
      obtain ⟨done', t₂, hc', hext, -⟩ := construct_fits hfits
      cases hc'.symm.trans hc
      refine ⟨?_, ?_⟩
      · intro i hi
        rw [← hext.kept i hi]
        refine hb.full i ?_
        rw [hext.num]
        exact Nat.lt_add_right _ hi
      · rw [← hsize]
        exact hfits
    · rintro ⟨hdefaults, hfits⟩
      obtain ⟨done, t', hc, hext, -⟩ := construct_fits
        (t := { t with num := numDefaultWanFilterRule f }) (hfits.trans_eq hsize.symm)
      refine ⟨t', ?_, hext.size.trans hsize, ?_, ?_⟩
      · rw [hc, ok_bind]
      · rw [hext.num]
        exact hfits
      · intro i hi
        rw [hext.num] at hi
        by_cases hlt : i < numDefaultWanFilterRule f
        · rw [hext.kept i hlt]
          exact hdefaults i hlt
        · exact hext.full i (Nat.le_of_not_lt hlt) hi

theorem del_built_iff {f : IpFamily} (hsize : t.rules.size = ipaMaxFltRule) :
    (t.del_wan_firewall_rule f).Built ↔ t.HasDefaults f := by
  constructor
  · intro h i hi
    have := h.full i hi
    simpa [del_wan_firewall_rule, hi] using this
  · intro h
    refine ⟨hsize, numDefault_le f, ?_⟩
    intro i hi
    have hlt : i < numDefaultWanFilterRule f := hi
    simpa [del_wan_firewall_rule, hlt] using h i hlt

theorem clear_built (hsize : t.rules.size = ipaMaxFltRule) : t.clear.Built :=
  ⟨hsize, Nat.zero_le _, fun i hi => absurd hi (Nat.not_lt_zero i)⟩

theorem built_full (h : t.Built) : none ∉ t.built := by
  intro hmem
  obtain ⟨i, hi, hnone⟩ := List.mem_map.1 hmem
  exact h.full i (List.mem_range.1 hi) hnone

@[simp] theorem length_built (t : DlTable) : t.built.length = t.num := by
  simp [built]

end DlTable

/-! ## What is sent to the driver -/

/-- The number of rules is that of the rules that were built. -/
def AddFltRule.Sound (a : AddFltRule) : Prop := a.num_rules.toNat = a.rules.length ∧ none ∉ a.rules

namespace DlRules

variable {s s' : DlRules} {ioctls : Nat}

/-- Both arrays are built. -/
def Built (s : DlRules) : Prop := ∀ f, (s.flt_rule f).Built

theorem built_init : ({} : DlRules).Built := by
  intro f
  exact ⟨rfl, Nat.zero_le _, fun i hi => absurd hi (Nat.not_lt_zero i)⟩

theorem toNat_ofNat_num {n : Nat} (h : n ≤ ipaMaxFltRule) : (UInt8.ofNat n).toNat = n := by
  simp only [ipaMaxFltRule] at h
  simp only [UInt8.toNat_ofNat']
  omega

theorem toNat_ofNat_num_add_one {n : Nat} (h : n ≤ ipaMaxFltRule) :
    (UInt8.ofNat n + 1).toNat = n + 1 := by
  have hn := toNat_ofNat_num h
  simp only [ipaMaxFltRule] at h
  rw [UInt8.toNat_add, hn]
  simp only [UInt8.toNat_one]
  omega

theorem embmsRule_ne_none (f : IpFamily) (h : 4 ≤ ioctls) : none ≠ embmsRule f ioctls := by
  have htwo : 2 ≤ ioctls := by omega
  cases f <;> simp [embmsRule, h, htwo]

theorem wanTable_sound (h : s.Built) (f : IpFamily)
    (hembms : s.embms_is_on = true → 4 ≤ ioctls) : ∀ a ∈ s.wanTable f ioctls, a.Sound := by
  intro a ha
  have hb := h f
  unfold wanTable at ha
  by_cases hon : s.embms_is_on = true
  · have hfour := hembms hon
    simp only [hon, if_true, Option.mem_def, Option.some.injEq] at ha
    obtain rfl := ha
    refine ⟨?_, ?_⟩
    · simp [toNat_ofNat_num_add_one hb.num_le]
    · rw [List.mem_cons, not_or]
      exact ⟨embmsRule_ne_none f hfour, DlTable.built_full hb⟩
  · simp only [hon, Bool.false_eq_true, if_false] at ha
    split at ha
    · cases ha
      exact ⟨by simp [toNat_ofNat_num hb.num_le], DlTable.built_full hb⟩
    · cases ha

theorem wanTable_unsound (hon : s.embms_is_on = true) (hlt : ioctls < 4) :
    ∃ a ∈ s.wanTable .v6 ioctls, ¬ a.Sound := by
  unfold wanTable
  simp only [hon, if_true, Option.mem_def, Option.some.injEq, exists_eq_left']
  intro h
  have hneed : ¬ 4 ≤ ioctls := Nat.not_le_of_lt hlt
  exact h.2 (by simp [embmsRule, hneed])

/-- A configuration fits, the rules that every interface needs are there when the others are taken
    away, and no answer fails for the rules of eMBMS. -/
def Meets (s : DlRules) : DlCall → Prop
  | .config f rx_prop env => (s.flt_rule f).ConfigFits f rx_prop env
  | .del f => (s.flt_rule f).HasDefaults f
  | .install kind rx_prop ioctls =>
    s.embms_is_on = true → kind = .rules → rx_prop = true → 4 ≤ ioctls
  | _ => True

instance (s : DlRules) (e : DlCall) : Decidable (s.Meets e) := by
  cases e <;> unfold Meets <;> infer_instance

theorem setTable_built_iff (h : s.Built) {f : IpFamily} {t : DlTable} :
    (s.setTable f t).Built ↔ t.Built := by
  constructor
  · intro h'
    simpa [setTable] using h' f
  · intro ht g
    by_cases hg : g = f
    · subst hg
      simpa [setTable] using ht
    · simpa [setTable, hg] using h g

theorem install_sound_iff (h : s.Built) {kind : InstallKind} {rx_prop : Bool} :
    (∀ a ∈ s.install_wan_filtering_rule kind rx_prop ioctls, a.Sound) ↔
      s.Meets (.install kind rx_prop ioctls) := by
  unfold install_wan_filtering_rule Meets
  cases rx_prop with
  | false => simp
  | true =>
    cases kind with
    | swRouting =>
      simp only [Bool.true_eq_false, if_false, reduceCtorEq, false_implies, implies_true,
        iff_true]
      split
      · simp [AddFltRule.Sound]
      · simp
    | rules =>
      simp only [Bool.true_eq_false, if_false, true_implies, List.mem_append, Option.mem_toList]
      constructor
      · intro hall hon
        by_contra hlt
        obtain ⟨a, ha, hbad⟩ := wanTable_unsound hon (Nat.lt_of_not_le hlt)
        exact hbad (hall a (.inr ha))
      · intro hembms a ha
        rcases ha with ha | ha
        · exact wanTable_sound h .v4 hembms a ha
        · exact wanTable_sound h .v6 hembms a ha

/-- A call from built arrays stays inside them, leaves them built and sends what was built, if and
    only if it meets the condition. -/
theorem step_built_iff (h : s.Built) {e : DlCall} :
    (∃ s' r, s.step e = .ok (s', r) ∧ s'.Built ∧ ∀ a ∈ r, a.Sound) ↔ s.Meets e := by
  cases e with
  | addDft f rx_prop ioctls =>
    obtain ⟨t, ht, hb⟩ := DlTable.add_dft_built f rx_prop ioctls (h f).size
    simp only [Meets, iff_true]
    refine ⟨s.setTable f t, [], ?_, (setTable_built_iff h).2 hb, by simp⟩
    simp [step, ht]
  | config f rx_prop env =>
    refine Iff.trans ?_ (DlTable.config_built_iff (h f).size)
    constructor
    · rintro ⟨s', r, hstep, hb, -⟩
      obtain ⟨t, ht, hstep⟩ := bind_eq_ok hstep
      cases hstep
      exact ⟨t, ht, (setTable_built_iff h).1 hb⟩
    · rintro ⟨t, ht, hb⟩
      refine ⟨s.setTable f t, [], ?_, (setTable_built_iff h).2 hb, by simp⟩
      simp [step, ht]
  | del f =>
    refine Iff.trans ?_ (DlTable.del_built_iff (h f).size)
    simp [step, setTable_built_iff h]
  | clear f =>
    simp only [Meets, iff_true]
    refine ⟨_, _, rfl, (setTable_built_iff h).2 (DlTable.clear_built (h f).size), by simp⟩
  | embms on =>
    simp only [Meets, iff_true]
    exact ⟨_, _, rfl, h, by simp⟩
  | install kind rx_prop ioctls =>
    refine Iff.trans ?_ (install_sound_iff h)
    simp [step, h]

/-! ## Runs -/

/-- **Runs whose calls meet the condition.** The arrays stay built, each table that is sent counts
    the rules that were built, and the next call keeps it so if and only if it meets the condition
    too. -/
theorem run_rulesBuilt {tr : List (DlCall × List AddFltRule)} (run : Run step Meets {} tr s) :
    s.Built ∧ (∀ x ∈ tr, ∀ a ∈ x.2, a.Sound) ∧
      ∀ e, (∃ s' r, s.step e = .ok (s', r) ∧ s'.Built ∧ ∀ a ∈ r, a.Sound) ↔ s.Meets e := by
  have hinv : s.Built ∧ ∀ x ∈ tr, ∀ a ∈ x.2, a.Sound := by
    refine run.invariant (fun tr s => s.Built ∧ ∀ x ∈ tr, ∀ a ∈ x.2, a.Sound)
      ⟨built_init, by simp⟩ ?_
    rintro tr s e s' r ⟨h, htr⟩ hC hstep
    obtain ⟨s₁, r₁, hstep₁, hb, hr⟩ := (step_built_iff h).2 hC
    cases hstep₁.symm.trans hstep
    refine ⟨hb, ?_⟩
    intro x hx
    rcases List.mem_append.1 hx with hx | hx
    · exact htr x hx
    · rw [List.mem_singleton.1 hx]
      exact hr
  exact ⟨hinv.1, hinv.2, fun e => step_built_iff hinv.1⟩

/-- A configuration with one ALG and two entries, one of them for TCP and UDP. -/
def twoEntries : DlEnv where
  alg_table := [{ protocol := 6, port := 21 }]
  firewall_config :=
    { firewall_enable := true, entries := [⟨4, 6⟩, ⟨4, 253⟩, ⟨6, 17⟩] }
  ioctls := 100

/-- The default rules are made, a configuration is put behind them, and the rules are sent. -/
def configuresBoth : List DlCall :=
  [.addDft .v4 true 100, .addDft .v6 true 100, .config .v4 true twoEntries,
    .config .v6 true twoEntries, .install .rules true 100]

/-- The theorem at a run in which nine rules and ten are sent. -/
theorem run_rulesBuilt_both :
    ∃ tr s, Run step Meets {} tr s ∧ (s.flt_rule .v4).num = 9 ∧ (s.flt_rule .v6).num = 10 ∧
      s.Built ∧ ∀ x ∈ tr, ∀ a ∈ x.2, a.Sound := by
  have hend : (exec step {} configuresBoth).toOption.map
      (fun x => ((x.1.flt_rule .v4).num, (x.1.flt_rule .v6).num)) = some (9, 10) := by
    decide +kernel
  have hall : allMeet step (fun s e => decide (s.Meets e)) {} configuresBoth = true := by
    decide +kernel
  obtain ⟨s, tr, hexec, hend⟩ := exec_of_map hend
  obtain ⟨hfour, hsix⟩ := Prod.mk.inj hend
  have run := Run.of_exec_of_allMeet (C := Meets) (fun _ _ _ h => of_decide_eq_true h) hexec hall
  exact ⟨tr, s, run, hfour, hsix, (run_rulesBuilt run).1, (run_rulesBuilt run).2.1⟩

/-- A firewall file with as many entries as it may have, all for TCP. -/
def fullFile : DlEnv where
  firewall_config := { firewall_enable := true, entries := List.replicate 50 ⟨4, 6⟩ }
  ioctls := 1000

/-- The rules of a full file are written past the array. -/
theorem run_rulesOverflow :
    ∃ tr s, Run step (fun _ _ => True) {} tr s ∧ s.Built ∧
      s.step (.config .v4 true fullFile) = .error .outOfBounds := by
  obtain ⟨t, ht, hb⟩ := DlTable.add_dft_built (t := {}) .v4 true 100 rfl
  have hstep : step {} (.addDft .v4 true 100) = .ok (setTable {} .v4 t, []) := by
    simp [step, ht]
  refine ⟨_, _, .snoc .nil hstep trivial, (setTable_built_iff built_init).2 hb, ?_⟩
  have hover : ipaMaxFltRule < numDefaultWanFilterRule .v4 +
      rulesReached (wanFirewallRules fullFile .v4) fullFile.ioctls := by
    decide +kernel
  have hconstruct := DlTable.construct_overflows
    (t := { t with num := numDefaultWanFilterRule .v4 })
    (hover.trans_eq' hb.size.symm) ((DlTable.numDefault_le .v4).trans_eq hb.size.symm)
  simp [step, setTable, DlTable.config_wan_firewall_rule, hconstruct]

end DlRules

end Nx508j.Ipacm
