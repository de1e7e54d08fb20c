import Nx508j.Lib.Chain
import Nx508j.Ipanat.DelRuleSpec

/-! # The chains of the rule table

The rule table as a table of chains: base rows are the heads, `next_index` and `prev_index` the
links, and a row is occupied while its enable bit is set. An addition that could enable its rule and
a deletion keep it threaded, whatever becomes of their other writes; when all writes succeed they
also keep it anchored. -/

namespace Nx508j.Ipanat

open Nx508j.Lib Function

namespace IpaNatIp4TableCache

def isHead (t : IpaNatIp4TableCache) (x : Nat) : Prop := x < t.tableEntries

def ruleNext (t : IpaNatIp4TableCache) (x : Nat) : Nat := (t.rule x).nextIndex

def rulePrev (t : IpaNatIp4TableCache) (x : Nat) : Nat := (t.rule x).prevIndex

def ruleOcc (t : IpaNatIp4TableCache) (x : Nat) : Prop := (t.rule x).enable = true

def RuleThreaded (t : IpaNatIp4TableCache) : Prop :=
  Threaded 0 t.ruleNext t.rulePrev t.isHead t.ruleOcc

def RuleAnchored (t : IpaNatIp4TableCache) (age owner : Nat → Nat) : Prop :=
  Anchored t.ruleNext t.rulePrev t.isHead t.ruleOcc age owner

variable {t t' : IpaNatIp4TableCache} {c : IpaNatIpv4Rule} {age owner : Nat → Nat}

theorem ruleOcc_lt {x : Nat} (h : t.ruleOcc x) : x < t.rows := by
  by_contra hx
  unfold ruleOcc at h
  rw [rule_of_le (Nat.not_lt.1 hx)] at h
  simp at h

theorem SameDims.isHead (h : SameDims t t') : t'.isHead = t.isHead := by
  funext x
  unfold IpaNatIp4TableCache.isHead
  rw [h.tableEntries]

theorem Layout.isHead_zero (hl : t.Layout) : t.isHead 0 := by
  have := hl.two_le
  unfold isHead
  omega

theorem RuleThreaded.links (H : t.RuleThreaded) : t.RuleLinks := by
  intro z hz
  obtain ⟨hnh, hocc, -⟩ := H z hz
  exact ⟨Nat.not_lt.1 hnh, ruleOcc_lt hocc⟩

/-! ## Additions -/

theorem RuleSlot.spec (hl : t.Layout) (H : t.RuleThreaded) {b e p : Nat} (hs : t.RuleSlot b e p)
    (hb : 1 ≤ b) : (e = b ∧ p = 0 ∧ ¬ t.ruleOcc b) ∨
      (t.tableEntries < e ∧ ¬ t.ruleOcc e ∧ t.ruleOcc p ∧ t.ruleNext p = 0 ∧ p ≠ 0 ∧
        ∀ I : Nat → Prop, I b → (∀ y, I y → t.ruleNext y ≠ 0 → I (t.ruleNext y)) → I p) := by
  cases hs with
  | base hfree => exact Or.inl ⟨rfl, rfl, by simp [ruleOcc, hfree]⟩
  | expn hocc hlast hf hfE hfree =>
    have hinv : ∀ I : Nat → Prop, I b →
        (∀ y, I y → t.ruleNext y ≠ 0 → I (t.ruleNext y)) → I p ∧ t.ruleNext p = 0 := by
      intro I hI hstep
      refine findLast_inv t.rule hl.rows_lt (fun y hT hy => ?_) H.links hI hstep hlast
      rw [← rule_expn (by omega), Nat.sub_add_cancel hT]
    refine Or.inr ⟨by omega, by simp [ruleOcc, hfree], ?_, ?_, ?_, fun I hI hstep =>
      (hinv I hI hstep).1⟩
    · exact (hinv t.ruleOcc hocc fun y _ hn => (H y hn).2.1).1
    · exact (hinv (fun _ => True) trivial fun _ _ _ => trivial).2
    · exact (hinv (· ≠ 0) (by omega) fun y _ hn => hn).1

theorem RuleSlot.ne (hl : t.Layout) (H : t.RuleThreaded) {b e p : Nat} (hs : t.RuleSlot b e p)
    (hb : 1 ≤ b) : p ≠ e ∧ p < t.rows ∧ ¬ t.ruleOcc e := by
  rcases hs.spec hl H hb with ⟨rfl, rfl, hfree⟩ | ⟨-, hfree, hocc, -⟩
  · refine ⟨by omega, ?_, hfree⟩
    have := hl.two_le
    unfold IpaNatIp4TableCache.rows
    omega
  · exact ⟨fun he => hfree (he ▸ hocc), ruleOcc_lt hocc, hfree⟩

section Placed

variable {e p ie ip : Nat} {dma : AddDma}

theorem ruleNext_placed (he : e < t.rows) (hp : p < t.rows) (hpe : p ≠ e) (z : Nat) :
    (t.placed c e p ie ip dma).ruleNext z =
      if z = e then 0 else if z = p ∧ p ≠ 0 ∧ dma.ruleLink = true then e else t.ruleNext z := by
  unfold ruleNext
  rw [rule_placed he hp hpe]
  split
  · rfl
  · split <;> rfl

theorem rulePrev_placed (he : e < t.rows) (hp : p < t.rows) (hpe : p ≠ e) (z : Nat) :
    (t.placed c e p ie ip dma).rulePrev z = if z = e then p else t.rulePrev z := by
  unfold rulePrev
  rw [rule_placed he hp hpe]
  split
  · rfl
  · split
    · next h => rw [h.1]
    · rfl

theorem ruleOcc_placed (he : e < t.rows) (hp : p < t.rows) (hpe : p ≠ e)
    (hen : dma.enable = true) (z : Nat) :
    (t.placed c e p ie ip dma).ruleOcc z ↔ t.ruleOcc z ∨ z = e := by
  unfold ruleOcc
  rw [rule_placed he hp hpe]
  split
  · next hz => simp [hz, hen]
  · next hz =>
    split
    · next h => simp [h.1, hpe]
    · simp [hz]

/-- An addition that could enable its rule keeps the rule table threaded, also when it could not link
    its predecessor. -/
theorem RuleThreaded.placed (hl : t.Layout) (H : t.RuleThreaded)
    (hs : t.RuleSlot (t.dstBucket c) e p) (hen : dma.enable = true) :
    (t.placed c e p ie ip dma).RuleThreaded := by
  obtain ⟨hb, hb'⟩ := hl.dstBucket_range c
  have he := (hs.range hb hb').2
  obtain ⟨hpe, hp, hfree⟩ := hs.ne hl H hb
  unfold RuleThreaded
  rw [(sameDims_placed (t := t) c e p ie ip dma).isHead]
  refine Threaded.insert H (y := e) (Or.inr hfree) ?_ (fun z hz => ?_) (fun z hz _ => ?_)
    (fun z hz => (ruleOcc_placed he hp hpe hen z).2 hz)
  · rw [ruleNext_placed he hp hpe, if_pos rfl]
  · rw [ruleNext_placed he hp hpe, if_neg hz]
    split
    · next hlink =>
      refine Or.inr ⟨rfl, ?_, ?_⟩
      · rcases hs.spec hl H hb with ⟨-, hp0, -⟩ | ⟨hT, -⟩
        · exact absurd hp0 hlink.2.1
        · exact Nat.not_lt.2 hT.le
      · rw [rulePrev_placed he hp hpe, if_pos rfl, hlink.1]
    · exact Or.inl rfl
  · rw [rulePrev_placed he hp hpe, if_neg hz]

theorem RuleAnchored.placed (hl : t.Layout) (H : t.RuleThreaded) (A : t.RuleAnchored age owner)
    (hs : t.RuleSlot (t.dstBucket c) e p) (hen : dma.enable = true)
    (hlink : dma.ruleLink = true) :
    ∃ age', (t.placed c e p ie ip dma).RuleAnchored age'
      (update owner e (t.dstBucket c)) := by
  obtain ⟨hb, hb'⟩ := hl.dstBucket_range c
  have he := (hs.range hb hb').2
  obtain ⟨hpe, hp, hfree⟩ := hs.ne hl H hb
  have hocc : ∀ z, (t.placed c e p ie ip dma).ruleOcc z ↔ t.ruleOcc z ∨ z = e :=
    ruleOcc_placed he hp hpe hen
  unfold RuleAnchored
  rw [(sameDims_placed (t := t) c e p ie ip dma).isHead]
  rcases hs.spec hl H hb with ⟨heb, rfl, -⟩ | ⟨hT, -, hpo, hlast, hp0, hinv⟩
  · have hown : update owner e (t.dstBucket c) = owner := by
      rw [← heb]
      refine update_eq_self_iff.2 ?_
      rw [A.owner_head e (heb ▸ hb')]
    rw [hown]
    refine ⟨age, A.insertHead hfree (fun z hz => ?_) (fun z hz => ?_) (heb ▸ hb') hocc⟩
    · rw [ruleNext_placed he hp hpe, if_neg hz, if_neg (by simp)]
    · have hze : z ≠ e := fun h => hz (by rw [h, heb]; exact hb')
      rw [rulePrev_placed he hp hpe, if_neg hze]
  · have howner : owner p = t.dstBucket c := by
      refine hinv (fun y => owner y = t.dstBucket c) (A.owner_head _ hb') fun y hy hn => ?_
      obtain ⟨hnh, ho, hback⟩ := H y hn
      rw [A.owner_eq _ hnh ho, hback, hy]
    rw [← howner]
    refine ⟨_, A.insert hl.isHead_zero (Nat.not_lt.2 hT.le) hfree hpo hlast ?_ ?_ ?_ ?_ hocc⟩
    · rw [ruleNext_placed he hp hpe, if_neg hpe, if_pos ⟨rfl, hp0, hlink⟩]
    · rw [rulePrev_placed he hp hpe, if_pos rfl]
    · intro z hze hzp
      rw [ruleNext_placed he hp hpe, if_neg hze, if_neg fun h => hzp h.1]
    · intro z hze _
      rw [rulePrev_placed he hp hpe, if_neg hze]

end Placed

/-! ## Deletions -/

section Unlinked

variable {x slot z : Nat}

theorem ruleUnlinked_nextIndex (x z : Nat) : (t.ruleUnlinked x z).nextIndex =
      if x < t.tableEntries then t.ruleNext z
      else if z = x then 0 else if z = t.rulePrev x then t.ruleNext x else t.ruleNext z := by
  unfold ruleUnlinked ruleNext rulePrev
  dsimp only
  split
  · split
    · next hz =>
      subst hz
      split
      · next hn => exact hn.symm
      · rfl
    · rfl
  · split <;> rfl

theorem ruleUnlinked_prevIndex (x z : Nat) : (t.ruleUnlinked x z).prevIndex =
      if x < t.tableEntries then (if z = x ∧ t.ruleNext x = 0 then 0 else t.rulePrev z)
      else if z = x then 0
      else if z = t.ruleNext x ∧ t.ruleNext x ≠ 0 then t.rulePrev x else t.rulePrev z := by
  unfold ruleUnlinked ruleNext rulePrev
  split
  · by_cases hz : z = x
    · subst hz
      by_cases hn : (t.rule z).nextIndex = 0
      · simp [hn]
      · simp [hn, IpaNatRule.writeHalf]
    · simp [hz]
  · split <;> rfl

theorem ruleUnlinked_enable (x z : Nat) : (t.ruleUnlinked x z).enable =
      if z = x ∧ (t.tableEntries ≤ x ∨ t.ruleNext x = 0) then false else (t.rule z).enable := by
  unfold ruleUnlinked ruleNext
  by_cases hT : x < t.tableEntries
  · have hT' : ¬ t.tableEntries ≤ x := Nat.not_le.2 hT
    by_cases hz : z = x
    · subst hz
      by_cases hn : (t.rule z).nextIndex = 0
      · simp [hT, hn]
      · simp [hT, hT', hn, IpaNatRule.writeHalf]
    · simp [hT, hz]
  · have hT' : t.tableEntries ≤ x := Nat.not_lt.1 hT
    by_cases hz : z = x
    · simp [hT, hT', hz]
    · simp [hT, hz]

/-- A base row that the deletion of row `x` leaves as a dead head without a chain. -/
def DeadAfter (t : IpaNatIp4TableCache) (x z : Nat) : Prop :=
  z < t.tableEntries ∧ deadHead (t.ruleUnlinked x z) = true

theorem DeadAfter.nextIndex (h : t.DeadAfter x z) : (t.ruleUnlinked x z).nextIndex = 0 := by
  have := h.2
  unfold deadHead at this
  simp only [Bool.and_eq_true, beq_iff_eq] at this
  exact this.2

theorem Deleted.rule_of_dead (hd : t.Deleted t' x slot) (hz : t.DeadAfter x z) :
    t'.rule z = {} := by
  obtain ⟨v, hv⟩ := hd.rule z
  rw [hv]
  exact if_pos hz

theorem Deleted.rule_of_not_dead (hd : t.Deleted t' x slot) (hz : ¬ t.DeadAfter x z) :
    ∃ v, t'.rule z = { t.ruleUnlinked x z with indxTblEntry := v } := by
  obtain ⟨v, hv⟩ := hd.rule z
  exact ⟨v, hv.trans (if_neg hz)⟩

theorem Deleted.ruleNext (hd : t.Deleted t' x slot) (z : Nat) :
    t'.ruleNext z = (t.ruleUnlinked x z).nextIndex := by
  unfold IpaNatIp4TableCache.ruleNext
  by_cases hz : t.DeadAfter x z
  · rw [hd.rule_of_dead hz, hz.nextIndex]
  · obtain ⟨v, hv⟩ := hd.rule_of_not_dead hz
    rw [hv]

theorem Deleted.rulePrev (hd : t.Deleted t' x slot) (hz : ¬ t.isHead z) :
    t'.rulePrev z = (t.ruleUnlinked x z).prevIndex := by
  obtain ⟨v, hv⟩ := hd.rule_of_not_dead fun h => hz h.1
  unfold IpaNatIp4TableCache.rulePrev
  rw [hv]

theorem Deleted.ruleOcc (hd : t.Deleted t' x slot) (z : Nat) :
    t'.ruleOcc z ↔ (t.ruleUnlinked x z).enable = true ∧ ¬ t.DeadAfter x z := by
  unfold IpaNatIp4TableCache.ruleOcc
  by_cases hz : t.DeadAfter x z
  · rw [hd.rule_of_dead hz]
    simp [hz]
  · obtain ⟨v, hv⟩ := hd.rule_of_not_dead hz
    rw [hv]
    simp [hz]

theorem RuleThreaded.unlinked (H : t.RuleThreaded) (hl : t.Layout) :
    Threaded 0 (fun z => (t.ruleUnlinked x z).nextIndex) (fun z => (t.ruleUnlinked x z).prevIndex)
      t.isHead (fun z => (t.ruleUnlinked x z).enable = true) := by
  by_cases hT : x < t.tableEntries
  · -- a base row: only its own enable bit may go
    refine Threaded.removeHeads H (D := fun z => z = x ∧ t.ruleNext x = 0) ?_ ?_ ?_ ?_ ?_
    · rintro z ⟨rfl, -⟩
      exact hT
    · rintro z ⟨rfl, hn⟩
      rw [ruleUnlinked_nextIndex, if_pos hT, hn]
    · intro z _
      rw [ruleUnlinked_nextIndex, if_pos hT]
    · intro z hz
      rw [ruleUnlinked_prevIndex, if_pos hT, if_neg fun h => hz (by rw [h.1]; exact hT)]
    · intro z ho hz
      rw [ruleUnlinked_enable, if_neg fun h => hz ⟨h.1, h.2.resolve_left (Nat.not_le.2 hT)⟩]
      exact ho
  · have hx0 : x ≠ 0 := by
      have := hl.two_le
      omega
    refine Threaded.unlink H (x := x) ?_ (fun z hz => ?_) (fun z hz => ?_) (fun z hz hzn _ => ?_)
      (fun z ho hz => ?_)
    · simp only [ruleUnlinked_nextIndex, if_neg hT, ↓reduceIte]
    · simp only [ruleUnlinked_nextIndex, if_neg hT, if_neg hz]
      split
      · next hzp =>
        intro hxx
        have := (H x (by rw [hxx]; exact hx0)).2.2
        rw [hxx] at this
        exact hz (hzp.trans this)
      · next hzp =>
        intro hzx
        have := (H z (by rw [hzx]; exact hx0)).2.2
        rw [hzx] at this
        exact hzp this.symm
    · simp only [ruleUnlinked_nextIndex, ruleUnlinked_prevIndex, if_neg hT, if_neg hz]
      split
      · next hzp =>
        by_cases hn : t.ruleNext x = 0
        · exact Or.inr (Or.inl hn)
        · refine Or.inr (Or.inr ⟨rfl, ?_⟩)
          have hnx : t.ruleNext x ≠ x := by
            intro hxx
            have := (H x hn).2.2
            rw [hxx] at this
            exact hz (hzp.trans this)
          rw [if_neg hnx, if_pos ⟨trivial, hn⟩, hzp]
      · exact Or.inl rfl
    · simp only [ruleUnlinked_prevIndex, if_neg hT, if_neg hz]
      rw [if_neg fun h => hzn h.1]
    · rw [ruleUnlinked_enable, if_neg fun h => hz h.1]
      exact ho

theorem RuleThreaded.deleted (H : t.RuleThreaded) (hl : t.Layout) (hd : t.Deleted t' x slot) :
    t'.RuleThreaded := by
  unfold RuleThreaded
  rw [hd.dims.isHead]
  refine (H.unlinked (x := x) hl).removeHeads (D := t.DeadAfter x) (fun z hz => hz.1)
    (fun z hz => ?_) (fun z _ => hd.ruleNext z) (fun z hz => hd.rulePrev hz)
    (fun z ho hz => (hd.ruleOcc z).2 ⟨ho, hz⟩)
  rw [hd.ruleNext, hz.nextIndex]

theorem RuleAnchored.deleted (A : t.RuleAnchored age owner) (H : t.RuleThreaded) (hl : t.Layout)
    (hocc : t.ruleOcc x) (hd : t.Deleted t' x slot) : t'.RuleAnchored age owner := by
  have hstep : Anchored (fun z => (t.ruleUnlinked x z).nextIndex)
      (fun z => (t.ruleUnlinked x z).prevIndex) t.isHead
      (fun z => (t.ruleUnlinked x z).enable = true) age owner := by
    by_cases hT : x < t.tableEntries
    · refine Anchored.removeHeads A hl.isHead_zero (D := fun z => z = x ∧ t.ruleNext x = 0)
        ?_ ?_ ?_ ?_
      · rintro z ⟨rfl, hn⟩
        exact hn
      · intro z _
        rw [ruleUnlinked_nextIndex, if_pos hT]
      · intro z hz
        rw [ruleUnlinked_prevIndex, if_pos hT, if_neg fun h => hz (by rw [h.1]; exact hT)]
      · intro z
        rw [ruleUnlinked_enable]
        by_cases hz : z = x ∧ t.ruleNext x = 0
        · simp [hz]
        · rw [if_neg fun h => hz ⟨h.1, h.2.resolve_left (Nat.not_le.2 hT)⟩]
          exact ⟨fun h => ⟨h, hz⟩, fun h => h.1⟩
    · refine Anchored.unlink A H hl.isHead_zero (x := x) hT hocc ?_ (fun z hz hzp => ?_)
        (fun hn => ?_) (fun z hz hzn _ => ?_) (fun z => ?_)
      · have hpx : t.rulePrev x ≠ x := by
          intro he
          have hnx := A.next_prev x hT hocc
          have hlt := A.age_lt x hT hocc (by rw [he]; exact hT)
          rw [he] at hlt
          exact lt_irrefl _ hlt
        simp only [ruleUnlinked_nextIndex, if_neg hT, if_neg hpx, ↓reduceIte]
      · simp only [ruleUnlinked_nextIndex, if_neg hT, if_neg hz, if_neg hzp]
      · have hnx : t.ruleNext x ≠ x := by
          intro he
          have hback := (H x hn).2.2
          rw [he] at hback
          have hlt := A.age_lt x hT hocc (by rw [hback]; exact hT)
          rw [hback] at hlt
          exact lt_irrefl _ hlt
        simp only [ruleUnlinked_prevIndex, if_neg hT, if_neg hnx]
        rw [if_pos ⟨trivial, hn⟩]
      · simp only [ruleUnlinked_prevIndex, if_neg hT, if_neg hz]
        rw [if_neg fun h => hzn h.1]
      · rw [ruleUnlinked_enable]
        by_cases hz : z = x
        · simp [hz, Nat.not_lt.1 hT]
        · rw [if_neg fun h => hz h.1]
          exact ⟨fun h => ⟨h, hz⟩, fun h => h.1⟩
  unfold RuleAnchored
  rw [hd.dims.isHead]
  exact hstep.removeHeads hl.isHead_zero (D := t.DeadAfter x) (fun z hz => hz.nextIndex)
    (fun z _ => hd.ruleNext z) (fun z hz => hd.rulePrev hz) hd.ruleOcc

end Unlinked

end IpaNatIp4TableCache

end Nx508j.Ipanat
