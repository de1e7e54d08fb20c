import Nx508j.Ipanat.RuleChains

/-! # Rule handles

A handle is a slot of `rule_id_array`, counted from 1, and the slot says in which row of which table
the rule is. `HdlInv` ties the handles in use to the abstract content of the table: a finite map from
handles to the client rules they stand for. -/

namespace Nx508j.Ipanat

open Nx508j.Lib Function

/-- The content of a NAT table as its clients see it: the rule each live handle stands for. -/
abbrev Live := Nat → Option IpaNatIpv4Rule

/-- The client rule a row was filled from. -/
def IpaNatRule.client (r : IpaNatRule) : IpaNatIpv4Rule where
  targetIp := r.targetIp
  privateIp := r.privateIp
  targetPort := r.targetPort
  privatePort := r.privatePort
  publicPort := r.publicPort
  protocol := r.protocol

namespace IpaNatIp4TableCache

/-- Row `x` is enabled and holds what an addition of `c` wrote, but for its links. -/
def Stores (t : IpaNatIp4TableCache) (x : Nat) (c : IpaNatIpv4Rule) : Prop :=
  t.rule x =
    { c.swRule t.publicAddr with
      nextIndex := (t.rule x).nextIndex
      prevIndex := (t.rule x).prevIndex
      indxTblEntry := (t.rule x).indxTblEntry
      enable := true }

/-- Row `x` holds a rule: it is enabled, and not only kept as the dead head of a chain. -/
def LiveRow (t : IpaNatIp4TableCache) (x : Nat) : Prop :=
  t.ruleOcc x ∧ (t.rule x).protocol ≠ ipaNatInvalidProtoFieldCmp

/-- The row that handle `h` stands for. -/
def hdlRow (t : IpaNatIp4TableCache) (h : Nat) : Nat :=
  t.rowOf (t.ruleIdArray.get (h - 1) % 2 == 1) (t.ruleIdArray.get (h - 1) / 2)

/-- The used slots of `rule_id_array` are the live handles, each stands for a row of its own that
    stores its rule, and every row that holds a rule is stood for. -/
structure HdlInv (t : IpaNatIp4TableCache) (L : Live) : Prop where
  pos : ∀ h c, L h = some c → 1 ≤ h
  lt : ∀ h c, L h = some c → h < t.rows
  id : ∀ h c, L h = some c → t.ruleIdArray.get (h - 1) = ruleId t (t.hdlRow h)
  id_ne_zero : ∀ h c, L h = some c → t.ruleIdArray.get (h - 1) / 2 ≠ 0
  stores : ∀ h c, L h = some c → t.Stores (t.hdlRow h) c
  protocol : ∀ h c, L h = some c → c.protocol ≠ ipaNatInvalidProtoFieldCmp
  used : ∀ i, i < t.rows → t.ruleIdArray.get i ≠ 0 → ∃ c, L (i + 1) = some c
  inj : ∀ h h' c c', L h = some c → L h' = some c' → t.hdlRow h = t.hdlRow h' → h = h'
  covered : ∀ x, t.LiveRow x → ∃ h c, L h = some c ∧ t.hdlRow h = x

variable {t t' : IpaNatIp4TableCache} {c : IpaNatIpv4Rule} {L : Live}

/-! ## Rows and their ids -/

theorem or_one_of_even {n : Nat} (h : n % 2 = 0) : n ||| 1 = n + 1 := by
  obtain ⟨m, rfl⟩ : ∃ m, n = 2 * m := ⟨n / 2, by omega⟩
  exact (Nat.two_pow_add_eq_or_of_lt (i := 1) (b := 1) (by omega) m).symm

theorem rowOf_ruleId (hl : t.Layout) {x : Nat} (hx : x < t.rows) :
    t.rowOf (ruleId t x % 2 == 1) (ruleId t x / 2) = x ∧
      (x ≠ 0 → x ≠ t.tableEntries → ruleId t x / 2 ≠ 0) ∧
      ((ruleId t x % 2 == 1) = false → x < t.tableEntries) := by
  have hT := hl.tableEntries_le
  have hE := hl.expnTableEntries
  unfold IpaNatIp4TableCache.rows at hx
  unfold ruleId rowOf
  by_cases hxT : t.tableEntries ≤ x
  · have hmod : (x - t.tableEntries) * 2 % 65536 = (x - t.tableEntries) * 2 :=
      Nat.mod_eq_of_lt (by omega)
    rw [if_pos hxT, hmod, or_one_of_even (by omega)]
    have hodd : ((x - t.tableEntries) * 2 + 1) % 2 = 1 := by omega
    have hhalf : ((x - t.tableEntries) * 2 + 1) / 2 = x - t.tableEntries := by omega
    rw [hodd, hhalf]
    refine ⟨?_, ?_, ?_⟩
    · simp [Nat.sub_add_cancel hxT]
    · omega
    · simp
  · have hmod : x * 2 % 65536 = x * 2 := Nat.mod_eq_of_lt (by omega)
    rw [if_neg hxT, hmod, Nat.mul_mod_left, Nat.mul_div_cancel _ (by omega)]
    refine ⟨by simp, fun h0 _ => h0, fun _ => by omega⟩

theorem ruleId_base (hl : t.Layout) {x : Nat} (hx : x < t.rows)
    (hbase : (ruleId t x % 2 == 1) = false) : ruleId t x / 2 < t.tableEntries := by
  obtain ⟨hrow, -, hlt⟩ := rowOf_ruleId hl hx
  rw [hbase] at hrow
  rw [show ruleId t x / 2 = x from hrow]
  exact hlt hbase

theorem Stores.occ {x : Nat} (h : t.Stores x c) : t.ruleOcc x := by
  unfold ruleOcc
  rw [h]

theorem Stores.client {x : Nat} (h : t.Stores x c) : (t.rule x).client = c := by
  rw [h]
  rfl

theorem Stores.protocol {x : Nat} (h : t.Stores x c) : (t.rule x).protocol = c.protocol :=
  congrArg IpaNatIpv4Rule.protocol h.client

theorem HdlInv.liveRow (H : t.HdlInv L) {h : Nat} (hc : L h = some c) : t.LiveRow (t.hdlRow h) :=
  ⟨(H.stores h c hc).occ, by rw [(H.stores h c hc).protocol]; exact H.protocol h c hc⟩

theorem HdlInv.live_of_handleOf (H : t.HdlInv L) {h x : Nat} (hx : t.HandleOf h x) :
    x = t.hdlRow h ∧ ∃ c, L h = some c := by
  refine ⟨hx.row, ?_⟩
  have hpos := hx.pos
  have hlt := hx.lt
  obtain ⟨c, hc⟩ := H.used (h - 1) (by omega) fun h0 => hx.ne_zero (by rw [h0])
  exact ⟨c, by rwa [Nat.sub_add_cancel hpos] at hc⟩

theorem HdlInv.none_of_unused (H : t.HdlInv L) {i : Nat} (hi0 : t.ruleIdArray.get i = 0) :
    L (i + 1) = none := by
  by_contra hne
  obtain ⟨c, hc⟩ := Option.ne_none_iff_exists'.1 hne
  exact H.id_ne_zero _ c hc (by rw [Nat.add_sub_cancel, hi0])

/-- Rows 0 and `table_entries` are never used, so not all slots before one can be in use unless two
    slots are left from it on. -/
theorem HdlInv.slot_lt (H : t.HdlInv L) (hl : t.Layout) {i : Nat} (hi : i ≤ t.rows)
    (hused : ∀ j < i, t.ruleIdArray.get j ≠ 0) : i + 2 ≤ t.rows := by
  have hT := hl.two_le
  have hTr : t.tableEntries < t.rows := by
    have := hl.expn_pos
    unfold IpaNatIp4TableCache.rows
    omega
  have hlive : ∀ j < i, ∃ c, L (j + 1) = some c := fun j hj => H.used j (by omega) (hused j hj)
  have hmaps : ∀ j ∈ Finset.range i, t.hdlRow (j + 1) ∈
      ((Finset.range t.rows).erase 0).erase t.tableEntries := by
    intro j hj
    obtain ⟨c, hc⟩ := hlive j (Finset.mem_range.1 hj)
    have hlt := ruleOcc_lt (H.stores _ c hc).occ
    have hid := H.id _ c hc
    have hne := H.id_ne_zero _ c hc
    have hrow := (rowOf_ruleId hl hlt).1
    rw [hid] at hne
    rw [Finset.mem_erase, Finset.mem_erase, Finset.mem_range]
    refine ⟨fun he => hne ?_, fun he => hne ?_, hlt⟩
    · rw [he]
      unfold ruleId
      simp
    · rw [he]
      unfold ruleId
      rw [if_neg (by omega)]
  have hinj : Set.InjOn (fun j => t.hdlRow (j + 1)) (Finset.range i) := by
    intro j hj k hk he
    obtain ⟨c, hc⟩ := hlive j (Finset.mem_range.1 hj)
    obtain ⟨c', hc'⟩ := hlive k (Finset.mem_range.1 hk)
    have := H.inj _ _ c c' hc hc' he
    omega
  have hcard := Finset.card_le_card_of_injOn _ hmaps hinj
  rw [Finset.card_range, Finset.card_erase_of_mem, Finset.card_erase_of_mem,
    Finset.card_range] at hcard
  · omega
  · exact Finset.mem_range.2 (by omega)
  · exact Finset.mem_erase.2 ⟨by omega, Finset.mem_range.2 hTr⟩

/-! ## Additions -/

section Placed

variable {e p ie ip i : Nat} {dma : AddDma}

/-- The handles after an addition that gave out slot `i`. -/
theorem HdlInv.placed (H : t.HdlInv L) (hl : t.Layout) (hr : t.RuleThreaded)
    (hs : t.RuleSlot (t.dstBucket c) e p) (hen : dma.enable = true)
    (hproto : c.protocol ≠ ipaNatInvalidProtoFieldCmp) (hi : i < t.rows)
    (hi0 : t.ruleIdArray.get i = 0) (hbefore : ∀ j < i, t.ruleIdArray.get j ≠ 0) :
    ((t.placed c e p ie ip dma).setRuleId i (ruleId t e)).HdlInv
      (update L (i + 1) (some c)) := by
  obtain ⟨hb, hb'⟩ := hl.dstBucket_range c
  obtain ⟨he0, he⟩ := hs.range hb hb'
  obtain ⟨hpe, hp, hfree⟩ := hs.ne hl hr hb
  have heT : e ≠ t.tableEntries := by
    rcases hs.spec hl hr hb with ⟨rfl, -⟩ | ⟨hT, -⟩ <;> omega
  have hdims : SameDims t ((t.placed c e p ie ip dma).setRuleId i (ruleId t e)) :=
    (sameDims_placed c e p ie ip dma).trans (sameDims_setRuleId i (ruleId t e))
  generalize ht' : (t.placed c e p ie ip dma).setRuleId i (ruleId t e) = t' at hdims ⊢
  have hfresh := H.none_of_unused hi0
  have hids : ∀ j, t'.ruleIdArray.get j = if j = i then ruleId t e else t.ruleIdArray.get j := by
    intro j
    rw [← ht', ruleIdArray_setRuleId, ruleIdArray_placed, Region.get_set]
  have hrule : ∀ z, t'.rule z = (t.placed c e p ie ip dma).rule z := by
    intro z
    rw [← ht', rule_setRuleId]
  have hid : ∀ x, ruleId t' x = ruleId t x := hdims.ruleId
  have hrow : ∀ h, 1 ≤ h → t'.hdlRow h = if h = i + 1 then e else t.hdlRow h := by
    intro h hh
    have hT := hdims.tableEntries
    unfold hdlRow
    rw [hids]
    by_cases hhi : h = i + 1
    · rw [if_pos (by omega), if_pos hhi, rowOf, hT]
      exact (rowOf_ruleId hl he).1
    · rw [if_neg (by omega), if_neg hhi, rowOf, hT]
      rfl
  have hstores : ∀ x c', x ≠ e → t.Stores x c' → t'.Stores x c' := by
    intro x c' hxe hst
    unfold Stores at hst ⊢
    rw [hrule, rule_placed he hp hpe, if_neg hxe, hdims.publicAddr]
    split
    · next hx =>
      rw [hx.1] at hst
      rw [hst]
    · exact hst
  have hnew : t'.Stores e c := by
    unfold Stores
    rw [hrule, rule_placed he hp hpe, if_pos rfl, hdims.publicAddr, hen]
  have hL : ∀ h c', update L (i + 1) (some c) h = some c' →
      (h = i + 1 ∧ c' = c) ∨ (h ≠ i + 1 ∧ L h = some c') := by
    intro h c' hc'
    by_cases hhi : h = i + 1
    · subst hhi
      rw [update_self] at hc'
      exact Or.inl ⟨rfl, (Option.some.inj hc').symm⟩
    · rw [update_of_ne hhi] at hc'
      exact Or.inr ⟨hhi, hc'⟩
  have hother : ∀ h c', L h = some c' → t.hdlRow h ≠ e := fun h c' hc' he' =>
    hfree (he' ▸ (H.stores h c' hc').occ)
  constructor
  · intro h c' hc'
    rcases hL h c' hc' with ⟨rfl, -⟩ | ⟨-, hc'⟩
    · omega
    · exact H.pos h c' hc'
  · intro h c' hc'
    rw [hdims.rows]
    rcases hL h c' hc' with ⟨rfl, -⟩ | ⟨-, hc'⟩
    · have := H.slot_lt hl hi.le hbefore
      omega
    · exact H.lt h c' hc'
  · intro h c' hc'
    rw [hid, hids]
    rcases hL h c' hc' with ⟨rfl, -⟩ | ⟨hne, hc'⟩
    · rw [hrow _ (by omega), if_pos rfl, if_pos (by omega)]
    · have := H.pos h c' hc'
      rw [hrow h this, if_neg hne, if_neg (by omega)]
      exact H.id h c' hc'
  · intro h c' hc'
    rw [hids]
    rcases hL h c' hc' with ⟨rfl, -⟩ | ⟨hne, hc'⟩
    · rw [if_pos (by omega)]
      exact (rowOf_ruleId hl he).2.1 (by omega) heT
    · have := H.pos h c' hc'
      rw [if_neg (by omega)]
      exact H.id_ne_zero h c' hc'
  · intro h c' hc'
    rcases hL h c' hc' with ⟨rfl, rfl⟩ | ⟨hne, hc'⟩
    · rw [hrow _ (by omega), if_pos rfl]
      exact hnew
    · rw [hrow h (H.pos h c' hc'), if_neg hne]
      exact hstores _ _ (hother h c' hc') (H.stores h c' hc')
  · intro h c' hc'
    rcases hL h c' hc' with ⟨-, rfl⟩ | ⟨-, hc'⟩
    · exact hproto
    · exact H.protocol h c' hc'
  · intro j hj hj0
    rw [hids] at hj0
    rw [hdims.rows] at hj
    by_cases hji : j = i
    · exact ⟨c, by rw [hji, update_self]⟩
    · rw [if_neg hji] at hj0
      rw [update_of_ne (by omega)]
      exact H.used j hj hj0
  · intro h h' c₁ c₂ hc₁ hc₂ heq
    rcases hL h c₁ hc₁ with ⟨rfl, -⟩ | ⟨hne, hc₁⟩ <;> rcases hL h' c₂ hc₂ with ⟨rfl, -⟩ | ⟨hne', hc₂⟩
    · rfl
    · rw [hrow (i + 1) (by omega), hrow h' (H.pos h' c₂ hc₂), if_pos rfl, if_neg hne'] at heq
      exact absurd heq.symm (hother h' c₂ hc₂)
    · rw [hrow (i + 1) (by omega), hrow h (H.pos h c₁ hc₁), if_pos rfl, if_neg hne] at heq
      exact absurd heq (hother h c₁ hc₁)
    · rw [hrow h (H.pos h c₁ hc₁), hrow h' (H.pos h' c₂ hc₂), if_neg hne, if_neg hne'] at heq
      exact H.inj h h' c₁ c₂ hc₁ hc₂ heq
  · intro x hx
    by_cases hxe : x = e
    · refine ⟨i + 1, c, by rw [update_self], ?_⟩
      rw [hrow _ (by omega), if_pos rfl, hxe]
    have hx' : t.LiveRow x := by
      unfold LiveRow ruleOcc at hx ⊢
      rw [hrule, rule_placed he hp hpe, if_neg hxe] at hx
      split at hx
      · next h => rw [h.1]; exact hx
      · exact hx
    obtain ⟨h, c', hc', hh⟩ := H.covered x hx'
    have hne : h ≠ i + 1 := fun h0 => by rw [h0, hfresh] at hc'; cases hc'
    refine ⟨h, c', by rw [update_of_ne hne]; exact hc', ?_⟩
    rw [hrow h (H.pos h c' hc'), if_neg hne, hh]

end Placed

/-! ## Deletions -/

section Deleted

variable {x h z : Nat}

theorem ruleUnlinked_of_ne (hzx : z ≠ x) :
    ∃ n p, t.ruleUnlinked x z = { t.rule z with nextIndex := n, prevIndex := p } := by
  unfold ruleUnlinked
  split <;> exact ⟨_, _, rfl⟩

theorem LiveRow.not_deadAfter (hz : t.LiveRow z) (hzx : z ≠ x) : ¬ t.DeadAfter x z := by
  rintro ⟨-, hdead⟩
  obtain ⟨n, p, hrow⟩ := ruleUnlinked_of_ne (t := t) hzx
  rw [hrow] at hdead
  unfold deadHead at hdead
  simp only [Bool.and_eq_true, beq_iff_eq] at hdead
  exact hz.2 hdead.1

theorem Deleted.rule_of_live {slot : Nat} (hd : t.Deleted t' x slot) (hz : t.LiveRow z)
    (hzx : z ≠ x) : ∃ n p v, t'.rule z =
      { t.rule z with nextIndex := n, prevIndex := p, indxTblEntry := v } := by
  obtain ⟨n, p, hrow⟩ := ruleUnlinked_of_ne (t := t) hzx
  obtain ⟨v, hv⟩ := hd.rule_of_not_dead (hz.not_deadAfter hzx)
  exact ⟨n, p, v, by rw [hv, hrow]⟩

theorem Deleted.liveRow_iff {slot : Nat} (hd : t.Deleted t' x slot) (z : Nat) :
    t'.LiveRow z ↔ t.LiveRow z ∧ z ≠ x := by
  constructor
  · rintro ⟨hocc, hproto⟩
    obtain ⟨hen, hdead⟩ := (hd.ruleOcc z).1 hocc
    obtain ⟨v, hv⟩ := hd.rule_of_not_dead hdead
    rw [hv] at hproto
    rw [ruleUnlinked_enable] at hen
    have hzx : z ≠ x := by
      rintro rfl
      -- a head that was only marked dead is enabled, but no longer holds a rule
      by_cases hT : z < t.tableEntries
      · by_cases hn : t.ruleNext z = 0
        · simp [hn] at hen
        · refine hproto ?_
          unfold ruleUnlinked
          have hn : (t.rule z).nextIndex ≠ 0 := hn
          simp [hT, hn, IpaNatRule.writeHalf, ipaNatInvalidProtoFieldValue,
            ipaNatInvalidProtoFieldCmp]
      · simp [Nat.not_lt.1 hT] at hen
    refine ⟨⟨?_, ?_⟩, hzx⟩
    · rw [if_neg fun h => hzx h.1] at hen
      exact hen
    · intro hp
      refine hproto ?_
      rw [← hp]
      unfold ruleUnlinked
      split <;> rfl
  · rintro ⟨hlive, hzx⟩
    obtain ⟨n, p, v, hv⟩ := hd.rule_of_live hlive hzx
    unfold LiveRow IpaNatIp4TableCache.ruleOcc
    rw [hv]
    exact hlive

/-- The handles after the deletion of `h`. -/
theorem HdlInv.deleted (H : t.HdlInv L) (hc : L h = some c)
    (hd : t.Deleted t' (t.hdlRow h) (h - 1)) : t'.HdlInv (update L h none) := by
  have hh := H.pos h c hc
  have hids : ∀ j, t'.ruleIdArray.get j = if j = h - 1 then 0 else t.ruleIdArray.get j := by
    intro j
    rw [hd.ruleIdArray, Region.get_set]
  have hid : ∀ x, ruleId t' x = ruleId t x := hd.dims.ruleId
  have hL : ∀ k c', update L h none k = some c' → k ≠ h ∧ L k = some c' := by
    intro k c' hc'
    by_cases hkh : k = h
    · rw [hkh, update_self] at hc'
      cases hc'
    · exact ⟨hkh, by rwa [update_of_ne hkh] at hc'⟩
  have hrow : ∀ k, 1 ≤ k → k ≠ h → t'.hdlRow k = t.hdlRow k := by
    intro k hk hkh
    unfold hdlRow
    rw [hids, if_neg (by omega), rowOf, hd.dims.tableEntries]
    rfl
  have hstores : ∀ z c', z ≠ t.hdlRow h → t.LiveRow z → t.Stores z c' → t'.Stores z c' := by
    intro z c' hz hlive hst
    obtain ⟨n, p, v, hv⟩ := hd.rule_of_live hlive hz
    unfold Stores at hst ⊢
    rw [hv, hd.dims.publicAddr, hst]
  constructor
  · intro k c' hc'
    exact H.pos k c' (hL k c' hc').2
  · intro k c' hc'
    rw [hd.dims.rows]
    exact H.lt k c' (hL k c' hc').2
  · intro k c' hc'
    obtain ⟨hkh, hc'⟩ := hL k c' hc'
    have hk := H.pos k c' hc'
    rw [hid, hids, hrow k hk hkh, if_neg (by omega)]
    exact H.id k c' hc'
  · intro k c' hc'
    obtain ⟨hkh, hc'⟩ := hL k c' hc'
    have hk := H.pos k c' hc'
    rw [hids, if_neg (by omega)]
    exact H.id_ne_zero k c' hc'
  · intro k c' hc'
    obtain ⟨hkh, hc'⟩ := hL k c' hc'
    rw [hrow k (H.pos k c' hc') hkh]
    exact hstores _ _ (fun he => hkh (H.inj k h c' c hc' hc he)) (H.liveRow hc')
      (H.stores k c' hc')
  · intro k c' hc'
    exact H.protocol k c' (hL k c' hc').2
  · intro j hj hj0
    rw [hids] at hj0
    rw [hd.dims.rows] at hj
    split at hj0
    · exact absurd rfl hj0
    · next hjh =>
      rw [update_of_ne (by omega)]
      exact H.used j hj hj0
  · intro k k' c₁ c₂ hc₁ hc₂ heq
    obtain ⟨hkh, hc₁⟩ := hL k c₁ hc₁
    obtain ⟨hkh', hc₂⟩ := hL k' c₂ hc₂
    rw [hrow k (H.pos k c₁ hc₁) hkh, hrow k' (H.pos k' c₂ hc₂) hkh'] at heq
    exact H.inj k k' c₁ c₂ hc₁ hc₂ heq
  · intro z hz
    obtain ⟨hlive, hzx⟩ := (hd.liveRow_iff z).1 hz
    obtain ⟨k, c', hc', hk⟩ := H.covered z hlive
    have hkh : k ≠ h := fun he => hzx (by rw [← hk, he])
    exact ⟨k, c', by rw [update_of_ne hkh]; exact hc',
      by rw [hrow k (H.pos k c' hc') hkh, hk]⟩

end Deleted

end IpaNatIp4TableCache

end Nx508j.Ipanat
