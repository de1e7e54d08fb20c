import Nx508j.Ipacm.NatRules

/-! # What the loops over the cache do

Two loops over the cache ask the driver for one rule after the other: the one that restores entries
and the one that disables them. What becomes of an entry depends on the answers for those before it,
since a handle can be given out or deleted only once. -/

namespace Nx508j.Ipacm.NatApp

open Nx508j.Lib Function

variable {s s' : NatApp} {i n : Nat}

/-- The loop over the first `n` entries. -/
def forEntries (s : NatApp) (f : NatApp → Nat → NatApp) (n : Nat) : NatApp :=
  (List.range n).foldl f s

theorem forEntries_succ (s : NatApp) (f : NatApp → Nat → NatApp) (n : Nat) :
    s.forEntries f (n + 1) = f (s.forEntries f n) n := by
  simp [forEntries, List.range_succ]

/-- **The rule for a loop over the cache**, with an invariant that may speak of the entries done. -/
theorem forEntries_induction {f : NatApp → Nat → NatApp} (P : Nat → NatApp → Prop) (h0 : P 0 s)
    (hstep : ∀ k b, k < n → P k b → P (k + 1) (f b k)) : P n (s.forEntries f n) := by
  induction n with
  | zero => exact h0
  | succ n ih =>
    rw [forEntries_succ]
    exact hstep n _ (by omega) (ih fun k b hk => hstep k b (by omega))

/-! ## Restoring entries -/

/-- The driver grants the rule for entry `i`, where those of the entries with `Q` are asked for in
    turn: there is the table, and the handle it answers with is not taken, nor given to one before. -/
def Grants (s : NatApp) (Q : NatTableEntry → Prop) (answer : Nat → Option UInt32) (i : Nat) : Prop :=
  s.ipaNat.tbl = some s.natTableHdl ∧ ∃ hdl, answer i = some hdl ∧ hdl ≠ 0 ∧
    s.ipaNat.rules hdl = none ∧ ∀ j < i, Q (s.cache.get j) → answer j ≠ some hdl

/-- What the loop that restores the entries with `Q` has done when it comes to entry `n`. -/
structure Restored (s : NatApp) (Q : NatTableEntry → Prop) (answer : Nat → Option UInt32) (n : Nat)
    (s' : NatApp) : Prop where
  rest : s' = { s with cache := s'.cache, curCnt := s'.curCnt, ipaNat := s'.ipaNat }
  size : s'.cache.size = s.cache.size
  tbl : s'.ipaNat.tbl = s.ipaNat.tbl
  rules : ∀ hdl, s'.ipaNat.rules hdl = none ↔ s.ipaNat.rules hdl = none ∧
    ∀ j < n, Q (s.cache.get j) → s.Grants Q answer j → answer j ≠ some hdl
  granted : ∀ j < n, Q (s.cache.get j) → s.Grants Q answer j → ∃ hdl,
    s'.cache.get j = { s.cache.get j with ruleHdl := hdl, enabled := true }
  refused : ∀ j < n, Q (s.cache.get j) → ¬ s.Grants Q answer j → s'.cache.get j = {}
  other : ∀ j, (n ≤ j ∨ ¬ Q (s.cache.get j)) → s'.cache.get j = s.cache.get j

theorem Restored.grants_iff {Q : NatTableEntry → Prop} {answer : Nat → Option UInt32}
    (h : s.Restored Q answer n s') :
    s.Grants Q answer n ↔ ∃ hdl, answer n = some hdl ∧ s'.ipaNat.tbl = some s'.natTableHdl ∧
      hdl ≠ 0 ∧ s'.ipaNat.rules hdl = none := by
  have hhdl : s'.natTableHdl = s.natTableHdl := by rw [h.rest]
  constructor
  · rintro ⟨htbl, hdl, hans, hne, hfree, hfirst⟩
    refine ⟨hdl, hans, by rw [h.tbl, htbl, hhdl], hne, (h.rules hdl).2 ⟨hfree, ?_⟩⟩
    exact fun j hj hQ _ => hfirst j hj hQ
  · rintro ⟨hdl, hans, htbl, hne, hfree⟩
    obtain ⟨hfree, hothers⟩ := (h.rules hdl).1 hfree
    rw [h.tbl, hhdl] at htbl
    -- an earlier entry with this answer is granted it, or one before that was
    have hfirst : ∀ j < n, Q (s.cache.get j) → answer j ≠ some hdl := by
      intro j
      induction j using Nat.strong_induction_on with
      | _ j ih =>
        intro hj hQ heq
        exact hothers j hj hQ ⟨htbl, hdl, heq, hne, hfree, fun k hk => ih k hk (by omega)⟩ heq
    exact ⟨htbl, hdl, hans, hne, hfree, hfirst⟩

theorem restoreEntry_granted {answer : Option UInt32} {hdl : UInt32} (hans : answer = some hdl)
    (htbl : s.ipaNat.tbl = some s.natTableHdl) (hne : hdl ≠ 0) (hfree : s.ipaNat.rules hdl = none)
    (i : Nat) : s.restoreEntry answer i = { s with
      ipaNat := { s.ipaNat with
        rules := update s.ipaNat.rules hdl (some (s.cache.get i).natRule) }
      cache := s.cache.set i { s.cache.get i with ruleHdl := hdl, enabled := true } } := by
  have hadd : s.ipaNat.addIpv4Rule s.natTableHdl (s.cache.get i).natRule answer =
      ({ s.ipaNat with
        rules := update s.ipaNat.rules hdl (some (s.cache.get i).natRule) }, some hdl) := by
    subst hans
    exact if_pos ⟨htbl, hne, hfree⟩
  unfold restoreEntry
  dsimp only
  rw [hadd]

theorem restoreEntry_refused {answer : Option UInt32}
    (h : ¬ ∃ hdl, answer = some hdl ∧ s.ipaNat.tbl = some s.natTableHdl ∧ hdl ≠ 0 ∧
      s.ipaNat.rules hdl = none) (i : Nat) : s.restoreEntry answer i = s.clearEntry i := by
  have hadd : s.ipaNat.addIpv4Rule s.natTableHdl (s.cache.get i).natRule answer =
      (s.ipaNat, none) := by
    cases answer with
    | none => rfl
    | some hdl => exact if_neg fun hc => h ⟨hdl, rfl, hc⟩
  unfold restoreEntry
  dsimp only
  rw [hadd]

section

variable {Q : NatTableEntry → Prop} {answer : Nat → Option UInt32}

theorem Restored.skip (h : s.Restored Q answer n s') (hQ : ¬ Q (s.cache.get n)) :
    s.Restored Q answer (n + 1) s' := by
  have hbelow : ∀ j < n + 1, Q (s.cache.get j) → j < n := fun j hj hQj =>
    lt_of_le_of_ne (by omega) (by rintro rfl; exact hQ hQj)
  refine ⟨h.rest, h.size, h.tbl, fun hdl => ?_, fun j hj hQj => h.granted j (hbelow j hj hQj) hQj,
    fun j hj hQj => h.refused j (hbelow j hj hQj) hQj, fun j hj => h.other j ?_⟩
  · rw [h.rules hdl]
    exact and_congr_right fun _ => ⟨fun hall j hj hQj => hall j (hbelow j hj hQj) hQj,
      fun hall j hj => hall j (by omega)⟩
  · exact hj.imp_left fun hj => by omega

theorem Restored.grant (h : s.Restored Q answer n s') (hQ : Q (s.cache.get n))
    (hg : s.Grants Q answer n) :
    s.Restored Q answer (n + 1) (s'.restoreEntry (answer n) n) := by
  have hget : s'.cache.get n = s.cache.get n := h.other n (Or.inl le_rfl)
  have hbelow : ∀ j < n + 1, j ≠ n → j < n := fun j hj hne => by omega
  obtain ⟨hdl, hans, htbl, hne0, hfree⟩ := h.grants_iff.1 hg
  rw [restoreEntry_granted hans htbl hne0 hfree, hget]
  refine ⟨by rw [h.rest], h.size, h.tbl, fun hdl' => ?_, fun j hj hQj hgj => ?_,
    fun j hj hQj hgj => ?_, fun j hj => ?_⟩
  · dsimp only
    rw [update_apply]
    split
    · next heq =>
      subst heq
      exact iff_of_false (by simp) fun hc => hc.2 n (by omega) hQ hg hans
    · next hne =>
      rw [h.rules hdl']
      refine and_congr_right fun _ => ⟨fun hall j hj hQj hgj heq => ?_,
        fun hall j hj => hall j (by omega)⟩
      by_cases hjn : j = n
      · rw [hjn, hans] at heq
        exact hne (Option.some.inj heq).symm
      · exact hall j (hbelow j hj hjn) hQj hgj heq
  · dsimp only
    rw [Region.get_set]
    split
    · next hjn => exact ⟨hdl, by rw [hjn]⟩
    · next hjn => exact h.granted j (hbelow j hj hjn) hQj hgj
  · have hjn : j ≠ n := by
      rintro rfl
      exact hgj hg
    rw [Region.get_set, if_neg hjn]
    exact h.refused j (hbelow j hj hjn) hQj hgj
  · have hjn : j ≠ n := by
      rintro rfl
      exact hj.elim (fun hj => by omega) fun hj => hj hQ
    rw [Region.get_set, if_neg hjn]
    exact h.other j (hj.imp_left fun hj => by omega)

theorem Restored.refuse (h : s.Restored Q answer n s') (hQ : Q (s.cache.get n))
    (hg : ¬ s.Grants Q answer n) :
    s.Restored Q answer (n + 1) (s'.restoreEntry (answer n) n) := by
  have hbelow : ∀ j < n + 1, j ≠ n → j < n := fun j hj hne => by omega
  have hother : ∀ j, s.Grants Q answer j → j ≠ n := by
    rintro j hgj rfl
    exact hg hgj
  rw [restoreEntry_refused fun hc => hg (h.grants_iff.2 hc)]
  unfold clearEntry
  refine ⟨by rw [h.rest], h.size, h.tbl, fun hdl' => ?_, fun j hj hQj hgj => ?_,
    fun j hj hQj hgj => ?_, fun j hj => ?_⟩
  · dsimp only
    rw [h.rules hdl']
    exact and_congr_right fun _ => ⟨fun hall j hj hQj hgj =>
      hall j (hbelow j hj (hother j hgj)) hQj hgj, fun hall j hj => hall j (by omega)⟩
  · dsimp only
    rw [Region.get_set, if_neg (hother j hgj)]
    exact h.granted j (hbelow j hj (hother j hgj)) hQj hgj
  · dsimp only
    rw [Region.get_set]
    split
    · rfl
    · next hjn => exact h.refused j (hbelow j hj hjn) hQj hgj
  · have hjn : j ≠ n := by
      rintro rfl
      exact hj.elim (fun hj => by omega) fun hj => hj hQ
    rw [Region.get_set, if_neg hjn]
    exact h.other j (hj.imp_left fun hj => by omega)

end

/-- **What restoring does**: an entry with `Q` is enabled if its rule is granted, and cleared if
    not. -/
theorem restored_forCache (s : NatApp) (Q : NatTableEntry → Prop) [DecidablePred Q]
    (answer : Nat → Option UInt32) : s.Restored Q answer s.cache.size
      (s.forCache fun s cnt => if Q (s.cache.get cnt) then s.restoreEntry (answer cnt) cnt else s) := by
  refine forEntries_induction (fun k b => s.Restored Q answer k b) ?_ fun k b _ hb => ?_
  · exact ⟨rfl, rfl, rfl, fun hdl => ⟨fun h => ⟨h, fun j hj => by omega⟩, fun h => h.1⟩,
      fun j hj => by omega, fun j hj => by omega, fun _ _ => rfl⟩
  rw [hb.other k (Or.inl le_rfl)]
  split
  · next hQ =>
    by_cases hg : s.Grants Q answer k
    · exact hb.grant hQ hg
    · exact hb.refuse hQ hg
  · next hQ => exact hb.skip hQ

/-! ## Disabling entries -/

/-- The driver deletes the rule of entry `i`, where those of the entries with `Q` are to be deleted
    in turn: it is there, and was not deleted for an entry before. -/
def Yields (s : NatApp) (Q : NatTableEntry → Prop) (answer : Nat → Bool) (i : Nat) : Prop :=
  s.ipaNat.tbl = some s.natTableHdl ∧ answer i = true ∧
    s.ipaNat.rules (s.cache.get i).ruleHdl ≠ none ∧
    ∀ j < i, Q (s.cache.get j) → answer j = true →
      (s.cache.get j).ruleHdl ≠ (s.cache.get i).ruleHdl

/-- What the loop that disables the entries with `Q` has done when it comes to entry `n`. -/
structure Disabled (s : NatApp) (Q : NatTableEntry → Prop) (f : NatTableEntry → NatTableEntry)
    (answer : Nat → Bool) (n : Nat) (s' : NatApp) : Prop where
  rest : s' = { s with cache := s'.cache, ipaNat := s'.ipaNat }
  size : s'.cache.size = s.cache.size
  tbl : s'.ipaNat.tbl = s.ipaNat.tbl
  rules : ∀ hdl, s'.ipaNat.rules hdl = none ↔ s.ipaNat.rules hdl = none ∨
    ∃ j < n, Q (s.cache.get j) ∧ s.Yields Q answer j ∧ (s.cache.get j).ruleHdl = hdl
  yielded : ∀ j < n, Q (s.cache.get j) → s.Yields Q answer j →
    s'.cache.get j = f (s.cache.get j)
  other : ∀ j, (n ≤ j ∨ ¬ (Q (s.cache.get j) ∧ s.Yields Q answer j)) →
    s'.cache.get j = s.cache.get j

section

variable {Q : NatTableEntry → Prop} {f : NatTableEntry → NatTableEntry} {answer : Nat → Bool}

theorem Disabled.yields_iff (h : s.Disabled Q f answer n s') : s.Yields Q answer n ↔
    s'.ipaNat.tbl = some s'.natTableHdl ∧ s'.ipaNat.rules (s.cache.get n).ruleHdl ≠ none ∧
      answer n = true := by
  have hhdl : s'.natTableHdl = s.natTableHdl := by rw [h.rest]
  rw [h.tbl, hhdl, ne_eq, h.rules]
  constructor
  · rintro ⟨htbl, hans, hlive, hfirst⟩
    refine ⟨htbl, ?_, hans⟩
    rintro (hnone | ⟨j, hj, hQ, hy, heq⟩)
    · exact hlive hnone
    · exact hfirst j hj hQ hy.2.1 heq
  · rintro ⟨htbl, hlive, hans⟩
    obtain ⟨hlive, hothers⟩ := not_or.1 hlive
    -- an earlier entry with this handle yields it, or one before that does
    have hfirst : ∀ j < n, Q (s.cache.get j) → answer j = true →
        (s.cache.get j).ruleHdl ≠ (s.cache.get n).ruleHdl := by
      intro j
      induction j using Nat.strong_induction_on with
      | _ j ih =>
        intro hj hQ hansj heq
        refine hothers ⟨j, hj, hQ, ⟨htbl, hansj, by rwa [heq], fun k hk hQk hansk => ?_⟩, heq⟩
        rw [heq]
        exact ih k hk (by omega) hQk hansk
    exact ⟨htbl, hans, hlive, hfirst⟩

theorem Disabled.skip (h : s.Disabled Q f answer n s')
    (hno : ¬ (Q (s.cache.get n) ∧ s.Yields Q answer n)) : s.Disabled Q f answer (n + 1) s' := by
  have hbelow : ∀ j < n + 1, Q (s.cache.get j) → s.Yields Q answer j → j < n :=
    fun j hj hQj hy => lt_of_le_of_ne (by omega) (by rintro rfl; exact hno ⟨hQj, hy⟩)
  refine ⟨h.rest, h.size, h.tbl, fun hdl => ?_,
    fun j hj hQj hy => h.yielded j (hbelow j hj hQj hy) hQj hy, fun j hj => h.other j ?_⟩
  · rw [h.rules hdl]
    refine or_congr_right ⟨?_, ?_⟩
    · rintro ⟨j, hj, hc⟩
      exact ⟨j, by omega, hc⟩
    · rintro ⟨j, hj, hQj, hy, heq⟩
      exact ⟨j, hbelow j hj hQj hy, hQj, hy, heq⟩
  · exact hj.imp_left fun hj => by omega

theorem Disabled.yield (h : s.Disabled Q f answer n s') (hQ : Q (s.cache.get n))
    (hy : s.Yields Q answer n) :
    s.Disabled Q f answer (n + 1) (s'.disableEntry (answer n) f n) := by
  have hget : s'.cache.get n = s.cache.get n := h.other n (Or.inl le_rfl)
  have hbelow : ∀ j < n + 1, j ≠ n → j < n := fun j hj hne => by omega
  have hdel : s'.ipaNat.delIpv4Rule s'.natTableHdl (s'.cache.get n).ruleHdl (answer n) =
      ({ s'.ipaNat with
        rules := update s'.ipaNat.rules (s.cache.get n).ruleHdl none }, true) := by
    rw [hget]
    exact if_pos (h.yields_iff.1 hy)
  have hstep : s'.disableEntry (answer n) f n = { s' with
      ipaNat := { s'.ipaNat with
        rules := update s'.ipaNat.rules (s.cache.get n).ruleHdl none }
      cache := s'.cache.set n (f (s.cache.get n)) } := by
    unfold disableEntry
    dsimp only
    rw [hdel, hget]
  rw [hstep]
  refine ⟨by rw [h.rest], h.size, h.tbl, fun hdl => ?_, fun j hj hQj hyj => ?_, fun j hj => ?_⟩
  · dsimp only
    rw [update_apply]
    split
    · next heq => exact iff_of_true rfl (Or.inr ⟨n, by omega, hQ, hy, heq.symm⟩)
    · next hne =>
      rw [h.rules hdl]
      refine or_congr_right ⟨?_, ?_⟩
      · rintro ⟨j, hj, hc⟩
        exact ⟨j, by omega, hc⟩
      · rintro ⟨j, hj, hQj, hyj, heq⟩
        exact ⟨j, hbelow j hj (by rintro rfl; exact hne heq.symm), hQj, hyj, heq⟩
  · dsimp only
    rw [Region.get_set]
    split
    · next hjn => rw [hjn]
    · next hjn => exact h.yielded j (hbelow j hj hjn) hQj hyj
  · have hjn : j ≠ n := by
      rintro rfl
      exact hj.elim (fun hj => by omega) fun hj => hj ⟨hQ, hy⟩
    rw [Region.get_set, if_neg hjn]
    exact h.other j (hj.imp_left fun hj => by omega)

theorem Disabled.keep (h : s.Disabled Q f answer n s') (hy : ¬ s.Yields Q answer n) :
    s'.disableEntry (answer n) f n = s' := by
  have hget : s'.cache.get n = s.cache.get n := h.other n (Or.inl le_rfl)
  have hdel : s'.ipaNat.delIpv4Rule s'.natTableHdl (s'.cache.get n).ruleHdl (answer n) =
      (s'.ipaNat, false) := by
    rw [hget]
    exact if_neg fun hc => hy (h.yields_iff.2 hc)
  unfold disableEntry
  dsimp only
  rw [hdel]

end

/-- **What disabling does**: an entry with `Q` becomes what `f` says if its rule is deleted, and
    stays as it is if not. -/
theorem disabled_forCache (s : NatApp) (Q : NatTableEntry → Prop) [DecidablePred Q]
    (f : NatTableEntry → NatTableEntry) (answer : Nat → Bool) :
    s.Disabled Q f answer s.cache.size (s.forCache fun s cnt =>
      if Q (s.cache.get cnt) then s.disableEntry (answer cnt) f cnt else s) := by
  refine forEntries_induction (fun k b => s.Disabled Q f answer k b) ?_ fun k b _ hb => ?_
  · refine ⟨rfl, rfl, rfl, fun hdl => ⟨Or.inl, ?_⟩, fun j hj => by omega, fun _ _ => rfl⟩
    rintro (h | ⟨j, hj, -⟩)
    · exact h
    · omega
  rw [hb.other k (Or.inl le_rfl)]
  split
  · next hQ =>
    by_cases hy : s.Yields Q answer k
    · exact hb.yield hQ hy
    · rw [hb.keep hy]
      exact hb.skip fun hc => hy hc.2
  · next hQ => exact hb.skip fun hc => hQ hc.1

end Nx508j.Ipacm.NatApp
