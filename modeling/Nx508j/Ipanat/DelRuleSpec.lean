import Nx508j.Ipanat.AddRuleSpec
import Nx508j.Ipanat.DelRule

/-! # What a deletion can do

A deletion that succeeds takes one rule row and one index row out of their chains and clears the
dead heads left without a chain. `ruleUnlinked`, `indxUnlinked` and `metaUnlinked` say row by row
what the tables hold afterwards, and `ipaNatiDelIpv4Rule_cases` that nothing else can happen. The
rule table is followed without assumptions on the index table, and the other way round. -/

namespace Nx508j.Ipanat

open Nx508j.Lib

namespace IpaNatIp4TableCache

/-! ## The tables afterwards -/

/-- Rule row `z` after rule row `x` was taken out of its chain. -/
def ruleUnlinked (t : IpaNatIp4TableCache) (x z : Nat) : IpaNatRule :=
  let r := t.rule x
  if x < t.tableEntries then
    if z = x then (if r.nextIndex = 0 then {} else r.writeHalf 11 ipaNatInvalidProtoFieldValue)
    else t.rule z
  else if z = x then {}
  else
    { t.rule z with
      nextIndex := if z = r.prevIndex then r.nextIndex else (t.rule z).nextIndex
      prevIndex :=
        if z = r.nextIndex ∧ r.nextIndex ≠ 0 then r.prevIndex else (t.rule z).prevIndex }

/-- Index row `z` after index row `x` was taken out of its chain. -/
def indxUnlinked (t : IpaNatIp4TableCache) (x z : Nat) : IpaNatIndxTblRule :=
  let next := (t.indx x).nextIndex
  if x < t.tableEntries then
    if z = x then (if next = 0 then {} else t.indx next)
    else if z = next ∧ next ≠ 0 then {} else t.indx z
  else if z = x then {}
  else
    { t.indx z with nextIndex := if z = t.metaPrev x then next else (t.indx z).nextIndex }

/-- The predecessor noted for index row `z` after index row `x` was taken out of its chain. -/
def metaUnlinked (t : IpaNatIp4TableCache) (x z : Nat) : Nat :=
  let next := (t.indx x).nextIndex
  if next = 0 then t.metaPrev z
  else if x < t.tableEntries then
    if z = (t.indx next).nextIndex ∧ (t.indx next).nextIndex ≠ 0 then x else t.metaPrev z
  else if z = x then 0 else if z = next then t.metaPrev x else t.metaPrev z

/-- The rule that moves to a base index row when the head of its index chain is taken out. -/
def movedRule (t : IpaNatIp4TableCache) (x : Nat) : Option Nat :=
  let next := (t.indx x).nextIndex
  if x < t.tableEntries ∧ next ≠ 0 then some (t.indx next).tblEntry else none

/-- Links lead to expansion rows. -/
def RuleLinks (t : IpaNatIp4TableCache) : Prop :=
  ∀ z, (t.rule z).nextIndex ≠ 0 →
    t.tableEntries ≤ (t.rule z).nextIndex ∧ (t.rule z).nextIndex < t.rows

def IndxLinks (t : IpaNatIp4TableCache) : Prop :=
  ∀ z, (t.indx z).nextIndex ≠ 0 →
    t.tableEntries ≤ (t.indx z).nextIndex ∧ (t.indx z).nextIndex < t.rows

/-- The number of row `entry` of the base or expansion table. -/
def rowOf (t : IpaNatIp4TableCache) (expnTbl : Bool) (entry : Nat) : Nat :=
  if expnTbl then entry + t.tableEntries else entry

/-- Where in its chain a row sits, from whether it is a base row and whether it links on. -/
def delType (base : Bool) (next : Nat) : DelType :=
  if base then (if next = 0 then .onlyOne else .head) else (if next = 0 then .last else .middle)

variable {t t' : IpaNatIp4TableCache}

/-! ## Parts of a table -/

/-- `t'` has the rule rows of `t`. -/
structure SameRules (t t' : IpaNatIp4TableCache) : Prop where
  dims : SameDims t t'
  ipv4Rules : t'.ipv4Rules = t.ipv4Rules
  ipv4ExpnRules : t'.ipv4ExpnRules = t.ipv4ExpnRules
  ruleIdArray : t'.ruleIdArray = t.ruleIdArray

/-- `t'` has the index rows of `t` and their predecessors. -/
structure SameIndx (t t' : IpaNatIp4TableCache) : Prop where
  dims : SameDims t t'
  indexTable : t'.indexTable = t.indexTable
  indexTableExpn : t'.indexTableExpn = t.indexTableExpn
  indexExpnTableMeta : t'.indexExpnTableMeta = t.indexExpnTableMeta
  ruleIdArray : t'.ruleIdArray = t.ruleIdArray

theorem SameRules.rule (h : SameRules t t') : t'.rule = t.rule := by
  funext z
  unfold IpaNatIp4TableCache.rule
  rw [h.dims.tableEntries, h.dims.rows, h.ipv4Rules, h.ipv4ExpnRules]

theorem SameIndx.indx (h : SameIndx t t') : t'.indx = t.indx := by
  funext z
  unfold IpaNatIp4TableCache.indx
  rw [h.dims.tableEntries, h.dims.rows, h.indexTable, h.indexTableExpn]

theorem SameIndx.metaPrev (h : SameIndx t t') : t'.metaPrev = t.metaPrev := by
  funext z
  unfold IpaNatIp4TableCache.metaPrev
  rw [h.dims.tableEntries, h.dims.rows, h.indexExpnTableMeta]

theorem SameDims.refl (t : IpaNatIp4TableCache) : SameDims t t :=
  ⟨rfl, rfl, rfl, rfl, rfl, id⟩

theorem SameRules.refl (t : IpaNatIp4TableCache) : SameRules t t :=
  ⟨.refl t, rfl, rfl, rfl⟩

theorem SameRules.trans {t'' : IpaNatIp4TableCache} (h : SameRules t t') (h' : SameRules t' t'') :
    SameRules t t'' where
  dims := h.dims.trans h'.dims
  ipv4Rules := h'.ipv4Rules.trans h.ipv4Rules
  ipv4ExpnRules := h'.ipv4ExpnRules.trans h.ipv4ExpnRules
  ruleIdArray := h'.ruleIdArray.trans h.ruleIdArray

theorem SameIndx.trans {t'' : IpaNatIp4TableCache} (h : SameIndx t t') (h' : SameIndx t' t'') :
    SameIndx t t'' where
  dims := h.dims.trans h'.dims
  indexTable := h'.indexTable.trans h.indexTable
  indexTableExpn := h'.indexTableExpn.trans h.indexTableExpn
  indexExpnTableMeta := h'.indexExpnTableMeta.trans h.indexExpnTableMeta
  ruleIdArray := h'.ruleIdArray.trans h.ruleIdArray

theorem sameIndx_setRule (x : Nat) (r : IpaNatRule) : SameIndx t (t.setRule x r) := by
  refine ⟨by constructor <;> simp, ?_, ?_, ?_, ?_⟩ <;> unfold setRule <;> split <;> rfl

theorem sameRules_setIndx (x : Nat) (r : IpaNatIndxTblRule) : SameRules t (t.setIndx x r) := by
  refine ⟨by constructor <;> simp, ?_, ?_, ?_⟩ <;> unfold setIndx <;> split <;> rfl

theorem sameRules_setMeta (x v : Nat) : SameRules t (t.setMeta x v) :=
  ⟨by constructor <;> simp, rfl, rfl, rfl⟩

end IpaNatIp4TableCache

open IpaNatIp4TableCache

variable {t t' : IpaNatIp4TableCache}

/-! ## The DMA batch -/

variable {ds : List IpaIocNatDmaOne} {pos : DelType}

theorem reorderCmds_cons {d : IpaIocNatDmaOne} (hd : isIndxCmd d = false)
    (hds : ∀ d ∈ ds, isIndxCmd d = true) (hne : ds ≠ []) : reorderCmds (d :: ds) = ds ++ [d] := by
  obtain ⟨e, es, rfl⟩ : ∃ e es, ds = e :: es := List.exists_cons_of_ne_nil hne
  have he := hds e (List.mem_cons_self ..)
  have hidx : (d :: e :: es).findIdx isIndxCmd = 1 := by
    rw [List.findIdx_cons, hd, List.findIdx_cons, he]
    rfl
  unfold reorderCmds
  simp [hidx]

theorem dmaWrite_sameRules {d : IpaIocNatDmaOne} (hd : isIndxCmd d = true)
    (h : dmaWrite t d = .ok t') : SameRules t t' := by
  obtain ⟨base, off, data⟩ := d
  cases base with
  | ipaNatBaseTbl => simp [isIndxCmd] at hd
  | ipaNatExpnTbl => simp [isIndxCmd] at hd
  | ipaNatIndxTbl | ipaNatIndexExpnTbl =>
    obtain ⟨m, hm, h⟩ := bind_eq_ok h
    obtain ⟨-, rfl⟩ := Region.lt_of_modify hm
    cases h
    exact ⟨⟨rfl, rfl, rfl, rfl, rfl, fun hs => ⟨hs.1, hs.2, hs.3, hs.4, hs.5, hs.6⟩⟩, rfl, rfl,
      rfl⟩

theorem foldlM_dmaWrite_sameRules (hds : ∀ d ∈ ds, isIndxCmd d = true)
    (h : ds.foldlM dmaWrite t = .ok t') : SameRules t t' := by
  induction ds generalizing t with
  | nil =>
    cases h
    exact .refl _
  | cons d ds ih =>
    rw [List.foldlM_cons] at h
    obtain ⟨t₁, h₁, h⟩ := bind_eq_ok h
    exact (dmaWrite_sameRules (hds d (List.mem_cons_self ..)) h₁).trans
      (ih (fun d hd => hds d (List.mem_cons_of_mem _ hd)) h)

theorem isIndxCmd_indxNextCmd (x v : Nat) : isIndxCmd (indxNextCmd t x v) = true := by
  unfold isIndxCmd indxNextCmd indxAddr
  split <;> rfl

theorem isIndxCmd_ruleNextCmd (x v : Nat) : isIndxCmd (ruleNextCmd t x v) = false := by
  unfold isIndxCmd ruleNextCmd ruleAddr
  split <;> rfl

theorem isIndxCmd_ruleDelCmd (cur : Nat) (r : IpaNatRule) (pos : DelType) :
    isIndxCmd (ruleDelCmd t cur r pos) = false := by
  cases pos with
  | onlyOne => rfl
  | head => rfl
  | middle => exact isIndxCmd_ruleNextCmd ..
  | last => exact isIndxCmd_ruleNextCmd ..

theorem isIndxCmd_of_indxDelCmds {ie : Nat} (h : indxDelCmds t ie pos = .ok ds) :
    ds ≠ [] ∧ ∀ d ∈ ds, isIndxCmd d = true := by
  cases pos with
  | onlyOne =>
    cases h
    exact ⟨by simp, by simp [isIndxCmd]⟩
  | head =>
    obtain ⟨n, hn, h⟩ := bind_eq_ok h
    obtain ⟨r, hr, h⟩ := bind_eq_ok h
    cases h
    exact ⟨by simp, by simp [isIndxCmd]⟩
  | middle =>
    obtain ⟨p, hp, h⟩ := bind_eq_ok h
    obtain ⟨r, hr, h⟩ := bind_eq_ok h
    cases h
    exact ⟨by simp, by simpa using isIndxCmd_indxNextCmd ..⟩
  | last =>
    obtain ⟨p, hp, h⟩ := bind_eq_ok h
    cases h
    exact ⟨by simp, by simpa using isIndxCmd_indxNextCmd ..⟩

/-! ## The rule row -/

section RuleRow

variable {cur : Nat} {expnTbl : Bool}

theorem rowOf_lt (hcur : expnTbl = false → cur < t.tableEntries) :
    t.rowOf expnTbl cur < t.tableEntries ↔ expnTbl = false := by
  unfold rowOf
  cases expnTbl with
  | false => simpa using hcur rfl
  | true => simp

theorem ruleTbl_read (hs : t.Sized) {r : IpaNatRule} (h : (t.ruleTbl expnTbl).read cur = .ok r) :
    (expnTbl = false → cur < t.tableEntries) ∧ t.rowOf expnTbl cur < t.rows ∧
      r = t.rule (t.rowOf expnTbl cur) := by
  obtain ⟨hlt, rfl⟩ := Region.lt_of_read h
  unfold ruleTbl at *
  cases expnTbl with
  | false =>
    simp only [Bool.false_eq_true, ↓reduceIte] at hlt ⊢
    rw [hs.ipv4Rules] at hlt
    refine ⟨fun _ => hlt, ?_, (rule_base hlt).symm⟩
    unfold rowOf IpaNatIp4TableCache.rows
    simp only [Bool.false_eq_true, ↓reduceIte]
    omega
  | true =>
    simp only [↓reduceIte] at hlt ⊢
    rw [hs.ipv4ExpnRules] at hlt
    refine ⟨by simp, ?_, (rule_expn hlt).symm⟩
    unfold rowOf IpaNatIp4TableCache.rows
    simp only [↓reduceIte]
    omega

theorem ipaNatiFindRulePos_cases (hs : t.Sized) {pos : DelType}
    (h : ipaNatiFindRulePos t expnTbl cur = .ok pos) :
    pos = delType (!expnTbl) (t.rule (t.rowOf expnTbl cur)).nextIndex := by
  obtain ⟨r, hr, h⟩ := bind_eq_ok h
  obtain ⟨-, -, rfl⟩ := ruleTbl_read hs hr
  cases expnTbl <;> exact (Except.ok.inj h).symm

theorem ruleDelCmd_congr (h : SameDims t t') (r : IpaNatRule) (pos : DelType) :
    ruleDelCmd t cur r pos = ruleDelCmd t' cur r pos := by
  unfold ruleDelCmd ruleNextCmd ipaNatiGetEntryOffset ruleAddr
  rw [h.tblAddrOffset, h.tableEntries]

theorem dmaWrite_ruleDelCmd (hl : t.Layout) (hcur : expnTbl = false → cur < t.tableEntries)
    {r : IpaNatRule} (h : dmaWrite t (ruleDelCmd t cur r (delType (!expnTbl) r.nextIndex)) = .ok t') :
    if expnTbl then
      r.prevIndex < t.rows ∧
        t' = t.setRule r.prevIndex { t.rule r.prevIndex with nextIndex := r.nextIndex }
    else
      ∃ k v, (r.nextIndex ≠ 0 → k = 11 ∧ v = ipaNatInvalidProtoFieldValue) ∧
        t' = t.setRule cur ((t.rule cur).writeHalf k v) := by
  cases expnTbl with
  | false =>
    have hT := hcur rfl
    have haddr : (t.ruleAddr cur) = (.ipaNatBaseTbl, cur) := if_pos hT
    have hrow : cur < t.rows := by unfold IpaNatIp4TableCache.rows; omega
    have hdma := hl.sized.dmaWrite_ruleAddr hl.tblAddrOffset cur
    simp only [haddr, if_pos hrow] at hdma
    by_cases hn : r.nextIndex = 0
    · simp only [delType, hn, Bool.not_false, ↓reduceIte, ruleDelCmd] at h
      rw [show ipaNatRuleFlagFieldOffset = 2 * 9 from rfl, hdma _ (by omega)] at h
      exact ⟨9, _, fun h0 => absurd hn h0, (Except.ok.inj h).symm⟩
    · simp only [delType, hn, Bool.not_false, ↓reduceIte, ruleDelCmd] at h
      rw [show ipaNatRuleProtoFieldOffset = 2 * 11 from rfl, hdma _ (by omega)] at h
      exact ⟨11, _, fun _ => ⟨rfl, rfl⟩, (Except.ok.inj h).symm⟩
  | true =>
    have hcmd : ruleDelCmd t cur r (delType (!true) r.nextIndex) =
        ⟨(t.ruleAddr r.prevIndex).1, ipaNatiGetEntryOffset t (t.ruleAddr r.prevIndex).2 + 2 * 4,
          r.nextIndex⟩ := by
      by_cases hn : r.nextIndex = 0
      · simp [delType, hn, ruleDelCmd, ruleNextCmd, ipaNatRuleNextFieldOffset,
          ipaNatInvalidNatEntry]
      · simp [delType, hn, ruleDelCmd, ruleNextCmd, ipaNatRuleNextFieldOffset]
    rw [hcmd, hl.sized.dmaWrite_ruleAddr hl.tblAddrOffset _ _ (by omega)] at h
    split at h
    · next hp => exact ⟨hp, (Except.ok.inj h).symm⟩
    · cases h

theorem ruleDelUpdate_clear (hcur : expnTbl = false → cur < t.tableEntries) {pos : DelType}
    (hpos : pos = .onlyOne ∨ pos = .last) :
    ruleDelUpdate t cur expnTbl pos = t.writeRule (t.rowOf expnTbl cur) {} := by
  have heq : ruleDelUpdate t cur expnTbl pos =
      if expnTbl then
        t.ipv4ExpnRules.write cur {} >>= fun m => .ok { t with ipv4ExpnRules := m }
      else t.ipv4Rules.write cur {} >>= fun m => .ok { t with ipv4Rules := m } := by
    rcases hpos with rfl | rfl <;> rfl
  rw [heq]
  unfold writeRule rowOf
  cases expnTbl with
  | false => simp [hcur rfl]
  | true => simp

theorem ruleDelUpdate_middle (hl : t.Layout) {next : Nat}
    (hnext : (t.rule (t.rowOf true cur)).nextIndex = next) (hT : t.tableEntries ≤ next)
    (hrows : next < t.rows) (h : ruleDelUpdate t cur true .middle = .ok t') :
    t' = (t.setRule next { t.rule next with
      prevIndex := (t.rule (t.rowOf true cur)).prevIndex }).setRule (t.rowOf true cur) {} := by
  obtain ⟨r, hr, h⟩ := bind_eq_ok h
  obtain ⟨-, -, rfl⟩ := ruleTbl_read hl.sized hr
  have hsub : sub16 next t.tableEntries = next - t.tableEntries :=
    sub16_eq hT (hrows.trans hl.rows_lt)
  obtain ⟨m₁, hm₁, h⟩ := bind_eq_ok h
  rw [hnext, hsub] at hm₁
  obtain ⟨hlt, rfl⟩ := Region.lt_of_modify hm₁
  obtain ⟨m₂, hm₂, h⟩ := bind_eq_ok h
  obtain ⟨-, rfl⟩ := Region.lt_of_write hm₂
  cases h
  have hrule : t.ipv4ExpnRules.get (next - t.tableEntries) = t.rule next := by
    rw [hl.sized.ipv4ExpnRules] at hlt
    rw [← rule_expn hlt, Nat.sub_add_cancel hT]
  rw [hrule]
  have hset : ∀ (t : IpaNatIp4TableCache) (x : Nat) (r : IpaNatRule), t.tableEntries ≤ x →
      t.setRule x r = { t with ipv4ExpnRules := t.ipv4ExpnRules.set (x - t.tableEntries) r } :=
    fun t x r hx => if_neg (by omega)
  rw [hset t next _ hT, hset _ _ _ (by simp [rowOf])]
  simp [rowOf]

theorem relink_last (f : Nat → IpaNatRule) {p next : Nat} (hn : next = 0) (z : Nat) :
    (if z = p then { f p with nextIndex := next } else f z) =
    { f z with
      nextIndex := if z = p then next else (f z).nextIndex
      prevIndex := if z = next ∧ next ≠ 0 then p else (f z).prevIndex } := by
  by_cases hp : z = p
  · subst hp
    simp [hn]
  · simp [hp, hn]

theorem relink_rule (f : Nat → IpaNatRule) {p next : Nat} (hn : next ≠ 0) (z : Nat) :
    (if z = next then
        { (if next = p then { f p with nextIndex := next } else f next) with prevIndex := p }
      else if z = p then { f p with nextIndex := next } else f z) =
    { f z with
      nextIndex := if z = p then next else (f z).nextIndex
      prevIndex := if z = next ∧ next ≠ 0 then p else (f z).prevIndex } := by
  by_cases hz : z = next
  · subst hz
    by_cases hp : z = p
    · subst hp
      simp [hn]
    · simp [hp, hn]
  · by_cases hp : z = p
    · subst hp
      simp [hz]
    · simp [hz, hp]

/-- **The rule table after a deletion.** -/
theorem ruleDel_cases (hl : t.Layout) (hlinks : t.RuleLinks)
    (hcur : expnTbl = false → cur < t.tableEntries) {x : Nat} (hx : x = t.rowOf expnTbl cur)
    (hxr : x < t.rows) {pos : DelType} (hpos : pos = delType (!expnTbl) (t.rule x).nextIndex)
    {t₁ t₂ : IpaNatIp4TableCache} (hdma : dmaWrite t (ruleDelCmd t cur (t.rule x) pos) = .ok t₁)
    (hupd : ruleDelUpdate t₁ cur expnTbl pos = .ok t₂) :
    SameIndx t t₂ ∧ ∀ z, t₂.rule z = t.ruleUnlinked x z := by
  rw [hpos] at hdma
  have hcases := dmaWrite_ruleDelCmd hl hcur hdma
  have hxT := rowOf_lt hcur
  rw [← hx] at hxT
  cases expnTbl with
  | false =>
    obtain ⟨k, v, hkv, rfl⟩ : ∃ k v, _ := by simpa using hcases
    have hxT : x < t.tableEntries := hxT.2 rfl
    obtain rfl : x = cur := by simpa [rowOf] using hx
    have hsame := sameIndx_setRule (t := t) x ((t.rule x).writeHalf k v)
    by_cases hn : (t.rule x).nextIndex = 0
    · obtain rfl : pos = .onlyOne := by simpa [delType, hn] using hpos
      rw [ruleDelUpdate_clear (fun _ => by simpa using hxT) (Or.inl rfl),
        (hsame.dims.sized hl.sized).writeRule_eq] at hupd
      split at hupd
      · cases hupd
        refine ⟨hsame.trans (sameIndx_setRule ..), fun z => ?_⟩
        have hrow : (t.setRule x ((t.rule x).writeHalf k v)).rowOf false x = x := rfl
        rw [hrow, rule_setRule (by simpa using hxr), rule_setRule hxr]
        unfold ruleUnlinked
        grind
      · cases hupd
    · obtain rfl : pos = .head := by simpa [delType, hn] using hpos
      cases hupd
      refine ⟨hsame, fun z => ?_⟩
      obtain ⟨rfl, rfl⟩ := hkv hn
      rw [rule_setRule hxr]
      unfold ruleUnlinked
      simp [hxT, hn]
  | true =>
    obtain ⟨hp, rfl⟩ : _ ∧ _ := by simpa using hcases
    have hxT : ¬ x < t.tableEntries := fun h => by simpa using hxT.1 h
    have hsame := sameIndx_setRule (t := t) (t.rule x).prevIndex
      { t.rule (t.rule x).prevIndex with nextIndex := (t.rule x).nextIndex }
    have hrule := rule_setRule hp
      { t.rule (t.rule x).prevIndex with nextIndex := (t.rule x).nextIndex }
    have hrow : (t.setRule (t.rule x).prevIndex { t.rule (t.rule x).prevIndex with
        nextIndex := (t.rule x).nextIndex }).rowOf true cur = x := by
      unfold rowOf at hx ⊢
      rw [tableEntries_setRule]
      exact hx.symm
    by_cases hn : (t.rule x).nextIndex = 0
    · obtain rfl : pos = .last := by simpa [delType, hn] using hpos
      rw [ruleDelUpdate_clear (by simp) (Or.inr rfl), (hsame.dims.sized hl.sized).writeRule_eq,
        hrow] at hupd
      split at hupd
      · cases hupd
        refine ⟨hsame.trans (sameIndx_setRule ..), fun z => ?_⟩
        rw [rule_setRule (by simpa using hxr), hrule]
        unfold ruleUnlinked
        simp only [hxT, ↓reduceIte]
        rw [relink_last _ hn]
      · cases hupd
    · obtain rfl : pos = .middle := by simpa [delType, hn] using hpos
      obtain ⟨hT, hlt⟩ := hlinks x hn
      -- the command may have written row `x` itself, but not changed what is read from it
      have hnext : ((t.setRule (t.rule x).prevIndex { t.rule (t.rule x).prevIndex with
          nextIndex := (t.rule x).nextIndex }).rule x).nextIndex = (t.rule x).nextIndex := by
        rw [hrule]
        split <;> simp
      have hprev : ((t.setRule (t.rule x).prevIndex { t.rule (t.rule x).prevIndex with
          nextIndex := (t.rule x).nextIndex }).rule x).prevIndex = (t.rule x).prevIndex := by
        rw [hrule]
        split
        · next he => exact congrArg (fun y => (t.rule y).prevIndex) he.symm
        · rfl
      have ht₂ := ruleDelUpdate_middle (hsame.dims.layout hl) (by rw [hrow, hnext])
        (by simpa using hT) (by simpa using hlt) hupd
      rw [hrow, hprev] at ht₂
      rw [ht₂]
      refine ⟨(hsame.trans (sameIndx_setRule ..)).trans (sameIndx_setRule ..), fun z => ?_⟩
      rw [rule_setRule (by simpa using hxr), rule_setRule (by simpa using hlt), hrule, hrule]
      unfold ruleUnlinked
      simp only [hxT, ↓reduceIte]
      rw [relink_rule _ hn]

end RuleRow

/-! ## The index row -/

section IndexRow

variable {x : Nat}

theorem indexTableExpn_read (hs : t.Sized) (hT : t.tableEntries ≤ x) (hx : x < t.rows) :
    t.indexTableExpn.read (x - t.tableEntries) = .ok (t.indx x) := by
  have := hs.readIndx_eq x
  unfold readIndx at this
  rwa [if_neg (by omega), if_pos hx] at this

theorem indexTable_read (hs : t.Sized) (hT : x < t.tableEntries) :
    t.indexTable.read x = .ok (t.indx x) := by
  rw [indx_base hT]
  exact Region.read_ok (hs.indexTable ▸ hT)

theorem meta_read (hs : t.Sized) (hT : t.tableEntries ≤ x) (hx : x < t.rows) :
    t.indexExpnTableMeta.read (x - t.tableEntries) = .ok (t.metaPrev x) := by
  unfold metaPrev
  rw [if_pos ⟨hT, hx⟩]
  refine Region.read_ok ?_
  rw [hs.indexExpnTableMeta]
  unfold IpaNatIp4TableCache.rows at hx
  omega

theorem writeMeta_eq (hs : t.Sized) (hT : t.tableEntries ≤ x) (hx : x < t.rows) (v : Nat) :
    t.writeMeta (x - t.tableEntries) v = .ok (t.setMeta x v) := by
  unfold writeMeta
  rw [Region.write_ok]
  · rfl
  · rw [hs.indexExpnTableMeta]
    unfold IpaNatIp4TableCache.rows at hx
    omega

theorem ipaNatiFindIndexRulePos_cases (hs : t.Sized) {pos : DelType}
    (h : ipaNatiFindIndexRulePos t x = .ok pos) :
    x < t.rows ∧ pos = delType (x < t.tableEntries) (t.indx x).nextIndex := by
  unfold ipaNatiFindIndexRulePos at h
  rw [hs.readIndx_eq] at h
  split at h
  · next hx =>
    refine ⟨hx, ?_⟩
    rw [ok_bind] at h
    unfold delType
    split at h
    · next hT => simpa [Nat.not_lt.2 hT] using (Except.ok.inj h).symm
    · next hT => simpa [Nat.not_le.1 hT] using (Except.ok.inj h).symm
  · cases h

variable {ds : List IpaIocNatDmaOne}

theorem indxDma_expn (hl : t.Layout) (hT : t.tableEntries ≤ x) (hx : x < t.rows)
    {t₁ : IpaNatIp4TableCache}
    (hcmds : indxDelCmds t x (delType false (t.indx x).nextIndex) = .ok ds)
    (hdma : ds.foldlM dmaWrite t = .ok t₁) : t.metaPrev x < t.rows ∧ t₁ = t.setIndx (t.metaPrev x)
      { t.indx (t.metaPrev x) with nextIndex := (t.indx x).nextIndex } := by
  have hds : ds = [indxNextCmd t (t.metaPrev x) (t.indx x).nextIndex] := by
    by_cases hn : (t.indx x).nextIndex = 0
    · simp only [delType, hn, Bool.false_eq_true, ↓reduceIte, indxDelCmds,
        meta_read hl.sized hT hx, ok_bind] at hcmds
      rw [hn]
      exact (Except.ok.inj hcmds).symm
    · simp only [delType, hn, Bool.false_eq_true, ↓reduceIte, indxDelCmds,
        meta_read hl.sized hT hx, indexTableExpn_read hl.sized hT hx, ok_bind] at hcmds
      exact (Except.ok.inj hcmds).symm
  rw [hds, List.foldlM_cons] at hdma
  unfold indxNextCmd at hdma
  rw [show ipaNatIndexRuleNextFieldOffset = 2 * 1 from rfl,
    hl.sized.dmaWrite_indxAddr hl.tblAddrOffset _ _ (by omega)] at hdma
  split at hdma
  · next hp => exact ⟨hp, (Except.ok.inj hdma).symm⟩
  · cases hdma

theorem indxDma_base (hl : t.Layout) (hlinks : t.IndxLinks) (hT : x < t.tableEntries)
    {t₁ : IpaNatIp4TableCache}
    (hcmds : indxDelCmds t x (delType true (t.indx x).nextIndex) = .ok ds)
    (hdma : ds.foldlM dmaWrite t = .ok t₁) :
    ((t.indx x).nextIndex = 0 → t₁ = t.setIndx x { t.indx x with tblEntry := 0 }) ∧
      ((t.indx x).nextIndex ≠ 0 → ∀ z, t₁.indx z =
        if z = x then t.indx (t.indx x).nextIndex else t.indx z) ∧
      SameDims t t₁ ∧ t₁.metaPrev = t.metaPrev := by
  have hrow : x < t.rows := by unfold IpaNatIp4TableCache.rows; omega
  have hwrite : ∀ (s : IpaNatIp4TableCache), SameDims t s → ∀ v k, k < 2 →
      dmaWrite s ⟨.ipaNatIndxTbl, ipaNatiGetIndexEntryOffset t x + 2 * k, v⟩ =
        .ok (s.setIndx x ((s.indx x).writeHalf k v)) := by
    intro s hd v k hk
    have := (hd.sized hl.sized).dmaWrite_indxAddr (hd.tblAddrOffset.trans hl.tblAddrOffset) x v hk
    have hs : s.indxAddr x = (.ipaNatIndxTbl, x) := if_pos (hd.tableEntries ▸ hT)
    rw [hs, if_pos (hd.rows ▸ hrow)] at this
    unfold ipaNatiGetIndexEntryOffset at this ⊢
    rwa [hd.tblAddrOffset] at this
  by_cases hn : (t.indx x).nextIndex = 0
  · simp only [delType, hn, ↓reduceIte, indxDelCmds] at hcmds
    cases hcmds
    rw [List.foldlM_cons, show ipaNatIndexRuleNatIndexFieldOffset = 2 * 0 from rfl,
      hwrite t (.refl t) _ 0 (by omega)] at hdma
    cases hdma
    have hsame := sameRules_setIndx (t := t) x ((t.indx x).writeHalf 0 ipaNatInvalidNatEntry)
    exact ⟨fun _ => rfl, fun h => absurd hn h, hsame.dims, funext fun z => by simp⟩
  · obtain ⟨hnT, hnr⟩ := hlinks x hn
    have hsub : sub16 (t.indx x).nextIndex t.tableEntries =
        (t.indx x).nextIndex - t.tableEntries := sub16_eq hnT (hnr.trans hl.rows_lt)
    simp only [delType, hn, ↓reduceIte, indxDelCmds, indxNextEntry,
      indexTable_read hl.sized hT, ok_bind, hsub,
      indexTableExpn_read hl.sized hnT hnr] at hcmds
    cases hcmds
    have hsame := sameRules_setIndx (t := t) x
      ((t.indx x).writeHalf 0 (t.indx (t.indx x).nextIndex).tblEntry)
    rw [List.foldlM_cons, show ipaNatIndexRuleNatIndexFieldOffset = 2 * 0 from rfl,
      hwrite t (.refl t) _ 0 (by omega), ok_bind, List.foldlM_cons,
      show ipaNatIndexRuleNextFieldOffset = 2 * 1 from rfl,
      hwrite _ hsame.dims _ 1 (by omega)] at hdma
    cases hdma
    refine ⟨fun h => absurd h hn, fun _ z => ?_, hsame.dims.trans (sameRules_setIndx ..).dims,
      funext fun z => by simp⟩
    rw [indx_setIndx (by simpa using hrow), indx_setIndx hrow, indx_setIndx hrow]
    by_cases hz : z = x
    · simp [hz, IpaNatIndxTblRule.writeHalf]
    · simp [hz]

/-- The rule rows of `t'` are those of `t`, but for the index row one of them may name. -/
def RulesUpToIndx (t t' : IpaNatIp4TableCache) : Prop :=
  ∀ z, ∃ v, t'.rule z = { t.rule z with indxTblEntry := v }

theorem rulesUpToIndx_of_eq (h : t'.rule = t.rule) : RulesUpToIndx t t' :=
  fun z => ⟨(t.rule z).indxTblEntry, by rw [h]⟩

theorem updateIndxTblEntry_cases (hs : t.Sized) {v : Nat} (h : updateIndxTblEntry t x v = .ok t') :
    x < t.rows ∧ t' = t.setRule x { t.rule x with indxTblEntry := v } := by
  unfold updateIndxTblEntry at h
  rw [hs.readRule_eq] at h
  split at h
  · next hx =>
    rw [ok_bind, hs.writeRule_eq, if_pos hx] at h
    exact ⟨hx, (Except.ok.inj h).symm⟩
  · cases h

/-- What is left to do for the index row leaves the rule table alone, up to the index row a rule
    names. -/
theorem indxDelUpdate_rules (hl : t.Layout) {nextEntry : Nat} {pos : DelType}
    (h : indxDelUpdate t x nextEntry pos = .ok t') :
    SameDims t t' ∧ t'.ruleIdArray = t.ruleIdArray ∧ RulesUpToIndx t t' := by
  have hclear : ∀ {s s' : IpaNatIp4TableCache}, s.Layout → s.writeIndx x {} = .ok s' →
      SameRules s s' := by
    intro s s' hls hw
    rw [hls.sized.writeIndx_eq] at hw
    split at hw
    · cases hw
      exact sameRules_setIndx ..
    · cases hw
  have hmeta : ∀ {s s' : IpaNatIp4TableCache} {i v : Nat}, s.writeMeta i v = .ok s' →
      SameRules s s' := by
    intro s s' i v hw
    obtain ⟨m, hm, hw⟩ := bind_eq_ok hw
    obtain ⟨-, rfl⟩ := Region.lt_of_write hm
    cases hw
    exact ⟨⟨rfl, rfl, rfl, rfl, rfl, fun hs => ⟨hs.1, hs.2, hs.3, hs.4, hs.5, hs.6⟩⟩, rfl, rfl,
      rfl⟩
  cases pos with
  | onlyOne | last =>
    have hsame := hclear hl h
    exact ⟨hsame.dims, hsame.ruleIdArray, rulesUpToIndx_of_eq hsame.rule⟩
  | middle =>
    obtain ⟨row, -, h⟩ := bind_eq_ok h
    obtain ⟨prev, -, h⟩ := bind_eq_ok h
    obtain ⟨t₁, h₁, h⟩ := bind_eq_ok h
    obtain ⟨t₂, h₂, h⟩ := bind_eq_ok h
    have hsame := (hmeta h₁).trans (hmeta h₂)
    have hsame := hsame.trans (hclear (hsame.dims.layout hl) h)
    exact ⟨hsame.dims, hsame.ruleIdArray, rulesUpToIndx_of_eq hsame.rule⟩
  | head =>
    obtain ⟨row, -, h⟩ := bind_eq_ok h
    obtain ⟨t₁, h₁, h⟩ := bind_eq_ok h
    have hsame₁ : SameRules t t₁ := by
      unfold updateNextNext at h₁
      split at h₁
      · exact hmeta h₁
      · cases h₁
        exact .refl _
    obtain ⟨m, hm, h⟩ := bind_eq_ok h
    obtain ⟨-, rfl⟩ := Region.lt_of_write hm
    obtain ⟨base, -, h⟩ := bind_eq_ok h
    have hsame₂ : SameRules t₁ { t₁ with
        indexTableExpn := t₁.indexTableExpn.set nextEntry {} } :=
      ⟨⟨rfl, rfl, rfl, rfl, rfl, fun hs => ⟨hs.1, hs.2, hs.3, hs.4, hs.5, hs.6⟩⟩, rfl, rfl, rfl⟩
    have hsame := hsame₁.trans hsame₂
    obtain ⟨hx, rfl⟩ := updateIndxTblEntry_cases (hsame.dims.sized hl.sized) h
    refine ⟨hsame.dims.trans (sameIndx_setRule ..).dims, ?_, fun z => ?_⟩
    · rw [ruleIdArray_setRule]
      exact hsame.ruleIdArray
    · rw [rule_setRule hx, hsame.rule]
      by_cases hz : z = base.tblEntry
      · exact ⟨x, by rw [if_pos hz, hz]⟩
      · exact ⟨(t.rule z).indxTblEntry, by rw [if_neg hz]⟩

theorem updateNextNext_cases (hl : t.Layout) {next v : Nat}
    (hnext : next ≠ 0 → t.tableEntries ≤ next ∧ next < t.rows)
    (h : updateNextNext t next v = .ok t') : SameDims t t' ∧ t'.indx = t.indx ∧ t'.rule = t.rule ∧
      ∀ z, t'.metaPrev z = if z = next ∧ next ≠ 0 then v else t.metaPrev z := by
  unfold updateNextNext at h
  split at h
  · next hn =>
    obtain ⟨hT, hlt⟩ := hnext hn.1
    rw [writeMeta_eq hl.sized hT hlt] at h
    cases h
    refine ⟨(sameRules_setMeta ..).dims, rfl, rfl, fun z => ?_⟩
    rw [metaPrev_setMeta hT hlt]
    simp [hn.1]
  · next hn =>
    cases h
    have hn : next = 0 := by
      by_contra h0
      exact hn ⟨h0, (hnext h0).1⟩
    exact ⟨.refl _, rfl, rfl, fun z => by simp [hn]⟩

/-- **The index table after a deletion.** The state `t₃` that the tidying up starts in may differ from
    what the batch left in its rule table. -/
theorem indxDel_cases (hl : t.Layout) (hlinks : t.IndxLinks) (hx : x < t.rows) {pos : DelType}
    (hpos : pos = delType (x < t.tableEntries) (t.indx x).nextIndex)
    (hcmds : indxDelCmds t x pos = .ok ds) {nextEntry : Nat}
    (hnext : copiedEntry t x pos = .ok nextEntry) {t₁ t₃ t₄ : IpaNatIp4TableCache}
    (hdma : ds.foldlM dmaWrite t = .ok t₁) (hsame : SameIndx t₁ t₃)
    (hupd : indxDelUpdate t₃ x nextEntry pos = .ok t₄) :
    (∀ z, t₄.indx z = t.indxUnlinked x z) ∧ (∀ z, t₄.metaPrev z = t.metaUnlinked x z) ∧
      ∀ z, t₄.rule z =
        if t.movedRule x = some z then { t₃.rule z with indxTblEntry := x } else t₃.rule z := by
  by_cases hT : x < t.tableEntries
  · simp only [hT, decide_true] at hpos
    rw [hpos] at hcmds
    obtain ⟨hzero, hcopy, hdims, hmeta⟩ := indxDma_base hl hlinks hT hcmds hdma
    have hl₃ := hsame.dims.layout (hdims.layout hl)
    have hdims₃ := hdims.trans hsame.dims
    have hmeta₃ : t₃.metaPrev = t.metaPrev := hsame.metaPrev.trans hmeta
    by_cases hn : (t.indx x).nextIndex = 0
    · obtain rfl : pos = .onlyOne := by simpa [delType, hn] using hpos
      have hupd : t₃.writeIndx x {} = .ok t₄ := hupd
      rw [hl₃.sized.writeIndx_eq, if_pos (hdims₃.rows ▸ hx)] at hupd
      cases hupd
      refine ⟨fun z => ?_, fun z => ?_, fun z => ?_⟩
      · rw [indx_setIndx (hdims₃.rows ▸ hx), hsame.indx, hzero hn, indx_setIndx hx]
        unfold indxUnlinked
        grind
      · rw [metaPrev_setIndx, hmeta₃]
        unfold metaUnlinked
        simp [hn]
      · rw [rule_setIndx]
        unfold movedRule
        simp [hn]
    · obtain rfl : pos = .head := by simpa [delType, hn] using hpos
      obtain ⟨hnT, hnr⟩ := hlinks x hn
      have hsub : sub16 (t.indx x).nextIndex t.tableEntries =
          (t.indx x).nextIndex - t.tableEntries := sub16_eq hnT (hnr.trans hl.rows_lt)
      obtain rfl : (t.indx x).nextIndex - t.tableEntries = nextEntry := by
        simpa [copiedEntry, indxNextEntry, indexTable_read hl.sized hT, hsub] using hnext
      have hindx₃ : ∀ z, t₃.indx z = if z = x then t.indx (t.indx x).nextIndex else t.indx z := by
        rw [hsame.indx]
        exact hcopy hn
      have hnx : (t.indx x).nextIndex ≠ x := by omega
      have hT₃ := hdims₃.tableEntries
      have hr₃ := hdims₃.rows
      rw [← hT₃] at hnT
      rw [← hr₃] at hnr
      unfold indxDelUpdate at hupd
      rw [← hT₃, indexTableExpn_read hl₃.sized hnT hnr, ok_bind, hindx₃, if_neg hnx] at hupd
      obtain ⟨t₅, hnote, hupd⟩ := bind_eq_ok hupd
      obtain ⟨hd₅, hi₅, hr₅, hm₅⟩ := updateNextNext_cases hl₃
        (fun h => by rw [hT₃, hr₃]; exact hlinks _ h) hnote
      obtain ⟨m, hm, hupd⟩ := bind_eq_ok hupd
      obtain ⟨-, rfl⟩ := Region.lt_of_write hm
      have hset : { t₅ with
          indexTableExpn :=
            t₅.indexTableExpn.set ((t.indx x).nextIndex - t₃.tableEntries) {} } =
          t₅.setIndx (t.indx x).nextIndex {} := by
        unfold setIndx
        rw [hd₅.tableEntries, if_neg (Nat.not_lt.2 hnT)]
      rw [hset] at hupd
      dsimp only at hupd
      have hdims₆ := hd₅.trans (sameRules_setIndx (t := t₅) (t.indx x).nextIndex {}).dims
      have hindx₆ : ∀ z, (t₅.setIndx (t.indx x).nextIndex {}).indx z =
          if z = (t.indx x).nextIndex then {}
          else if z = x then t.indx (t.indx x).nextIndex else t.indx z := by
        intro z
        rw [indx_setIndx (hd₅.rows ▸ hnr), hi₅, hindx₃]
      rw [indexTable_read (hdims₆.sized hl₃.sized) (by rw [hdims₆.tableEntries, hT₃]; exact hT),
        ok_bind, hindx₆, if_neg (Ne.symm hnx), if_pos rfl] at hupd
      obtain ⟨hmoved, rfl⟩ := updateIndxTblEntry_cases (hdims₆.sized hl₃.sized) hupd
      refine ⟨fun z => ?_, fun z => ?_, fun z => ?_⟩
      · rw [indx_setRule, hindx₆]
        unfold indxUnlinked
        grind
      · rw [metaPrev_setRule, metaPrev_setIndx, hm₅, hmeta₃]
        unfold metaUnlinked
        simp [hT, hn]
      · rw [rule_setRule hmoved, rule_setIndx, rule_setIndx, hr₅]
        unfold movedRule
        by_cases hz : z = (t.indx (t.indx x).nextIndex).tblEntry
        · simp [hT, hn, hz]
        · simp [hT, hn, hz, Ne.symm hz]
  · simp only [hT, decide_false] at hpos
    rw [hpos] at hcmds
    have hTx : t.tableEntries ≤ x := Nat.not_lt.1 hT
    obtain ⟨hp, rfl⟩ := indxDma_expn hl hTx hx hcmds hdma
    have hdims := (sameRules_setIndx (t := t) (t.metaPrev x)
      { t.indx (t.metaPrev x) with nextIndex := (t.indx x).nextIndex }).dims
    have hdims₃ := hdims.trans hsame.dims
    have hl₃ := hdims₃.layout hl
    have hT₃ := hdims₃.tableEntries
    have hr₃ := hdims₃.rows
    have hindx₃ : ∀ z, t₃.indx z = if z = t.metaPrev x then
        { t.indx (t.metaPrev x) with nextIndex := (t.indx x).nextIndex } else t.indx z := by
      intro z
      rw [hsame.indx, indx_setIndx hp]
    have hmeta₃ : ∀ z, t₃.metaPrev z = t.metaPrev z := by
      intro z
      rw [hsame.metaPrev, metaPrev_setIndx]
    have hindx : ∀ z, (if z = x then ({} : IpaNatIndxTblRule) else t₃.indx z) =
        t.indxUnlinked x z := by
      intro z
      rw [hindx₃]
      unfold indxUnlinked
      simp only [hT, ↓reduceIte]
      by_cases hz : z = t.metaPrev x
      · simp [hz]
      · simp [hz]
    have hmoved : t.movedRule x = none := by
      unfold movedRule
      simp [hT]
    by_cases hn : (t.indx x).nextIndex = 0
    · obtain rfl : pos = .last := by simpa [delType, hn] using hpos
      have hupd : t₃.writeIndx x {} = .ok t₄ := hupd
      rw [hl₃.sized.writeIndx_eq, if_pos (hr₃ ▸ hx)] at hupd
      cases hupd
      refine ⟨fun z => ?_, fun z => ?_, fun z => ?_⟩
      · rw [indx_setIndx (hr₃ ▸ hx), hindx]
      · rw [metaPrev_setIndx, hmeta₃]
        unfold metaUnlinked
        simp [hn]
      · simp [hmoved]
    · obtain rfl : pos = .middle := by simpa [delType, hn] using hpos
      obtain ⟨hnT, hnr⟩ := hlinks x hn
      have hrow : (t₃.indx x).nextIndex = (t.indx x).nextIndex := by
        rw [hindx₃]
        split <;> rfl
      unfold indxDelUpdate at hupd
      rw [← hT₃] at hTx hnT
      rw [← hr₃] at hx hnr
      simp only [indexTableExpn_read hl₃.sized hTx hx, meta_read hl₃.sized hTx hx, ok_bind, hrow,
        if_pos hnT, hmeta₃, writeMeta_eq hl₃.sized hnT hnr] at hupd
      have hd₅ := (sameRules_setMeta (t := t₃) (t.indx x).nextIndex (t.metaPrev x)).dims
      have hw := writeMeta_eq (t := t₃.setMeta (t.indx x).nextIndex (t.metaPrev x))
        (hd₅.sized hl₃.sized) (x := x) hTx hx
      rw [tableEntries_setMeta] at hw
      rw [hw, ok_bind] at hupd
      have hd₆ := hd₅.trans (sameRules_setMeta (t := t₃.setMeta (t.indx x).nextIndex
        (t.metaPrev x)) x ipaNatInvalidNatEntry).dims
      rw [(hd₆.sized hl₃.sized).writeIndx_eq, if_pos (by simpa using hx)] at hupd
      cases hupd
      refine ⟨fun z => ?_, fun z => ?_, fun z => ?_⟩
      · rw [indx_setIndx (by simpa using hx), indx_setMeta, indx_setMeta, hindx]
      · rw [metaPrev_setIndx, metaPrev_setMeta (by simpa using hTx) (by simpa using hx),
          metaPrev_setMeta hnT hnr, hmeta₃]
        unfold metaUnlinked
        simp [hT, hn]
      · simp [hmoved]

end IndexRow

/-! ## Dead heads -/

theorem delDeadHeads_cases {n : Nat} {m m' : Region IpaNatRule} (h : delDeadHeads n m = .ok m') :
    m'.size = m.size ∧ ∀ z, m'.get z = if z < n ∧ deadHead (m.get z) then {} else m.get z := by
  induction n generalizing m' with
  | zero =>
    cases h
    exact ⟨rfl, fun z => by simp⟩
  | succ n ih =>
    obtain ⟨m₁, hm₁, h⟩ := bind_eq_ok h
    obtain ⟨hsize, hget⟩ := ih hm₁
    obtain ⟨row, hrow, h⟩ := bind_eq_ok h
    obtain ⟨-, rfl⟩ := Region.lt_of_read hrow
    have hn : m₁.get n = m.get n := by rw [hget]; simp
    rw [hn] at h
    split at h
    · next hdead =>
      obtain ⟨-, rfl⟩ := Region.lt_of_write h
      refine ⟨hsize, fun z => ?_⟩
      rw [Region.get_set, hget]
      by_cases hz : z = n
      · subst hz
        simp [hdead]
      · have hlt : z < n + 1 ↔ z < n := by omega
        simp only [hz, ↓reduceIte, hlt]
    · next hdead =>
      cases h
      refine ⟨hsize, fun z => ?_⟩
      rw [hget]
      by_cases hz : z = n
      · subst hz
        simp [hdead]
      · have hlt : z < n + 1 ↔ z < n := by omega
        simp only [hlt]

/-- Row `z`, cleared if it is a base row that is a dead head without a chain. -/
def clearDead (tableEntries z : Nat) (r : IpaNatRule) : IpaNatRule :=
  if z < tableEntries ∧ deadHead r then {} else r

theorem ipaNatiDelDeadIpv4HeadNodes_cases (h : ipaNatiDelDeadIpv4HeadNodes t = .ok t') :
    SameIndx t t' ∧ ∀ z, t'.rule z = clearDead t.tableEntries z (t.rule z) := by
  obtain ⟨m, hm, h⟩ := bind_eq_ok h
  cases h
  obtain ⟨hsize, hget⟩ := delDeadHeads_cases hm
  refine ⟨⟨⟨rfl, rfl, rfl, rfl, rfl, fun hs => ⟨hsize.trans hs.1, hs.2, hs.3, hs.4, hs.5, hs.6⟩⟩,
    rfl, rfl, rfl, rfl⟩, fun z => ?_⟩
  unfold clearDead IpaNatIp4TableCache.rule
  by_cases hz : z < t.tableEntries
  · simp [hz, hget]
  · simp only [hz, ↓reduceIte, false_and]
    rfl

/-! ## The call -/

namespace IpaNatIp4TableCache

/-- `t'` is `t` with rule row `x` deleted, and slot `slot` of `rule_id_array` cleared. -/
structure Deleted (t t' : IpaNatIp4TableCache) (x slot : Nat) : Prop where
  dims : SameDims t t'
  ruleIdArray : t'.ruleIdArray = t.ruleIdArray.set slot 0
  rule : ∀ z, ∃ v, t'.rule z =
    clearDead t.tableEntries z { t.ruleUnlinked x z with indxTblEntry := v }
  indx : t.IndxLinks → ∀ z, t'.indx z = t.indxUnlinked (t.rule x).indxTblEntry z
  metaPrev : t.IndxLinks → ∀ z, t'.metaPrev z = t.metaUnlinked (t.rule x).indxTblEntry z
  moved : t.IndxLinks → ∀ z, t'.rule z = clearDead t.tableEntries z
    (if t.movedRule (t.rule x).indxTblEntry = some z then
      { t.ruleUnlinked x z with indxTblEntry := (t.rule x).indxTblEntry }
    else t.ruleUnlinked x z)

/-- The handle `ruleHdl` is in range and its slot holds a row; `x` is that row's number. -/
structure HandleOf (t : IpaNatIp4TableCache) (ruleHdl x : Nat) : Prop where
  pos : 1 ≤ ruleHdl
  lt : ruleHdl < t.rows
  ne_zero : t.ruleIdArray.get (ruleHdl - 1) / 2 ≠ 0
  row : x = t.rowOf (t.ruleIdArray.get (ruleHdl - 1) % 2 == 1)
    (t.ruleIdArray.get (ruleHdl - 1) / 2)

end IpaNatIp4TableCache

theorem delBatch_split {cur x : Nat} (hne : ds ≠ []) (hall : ∀ d ∈ ds, isIndxCmd d = true)
    (h : (reorderCmds (ruleDelCmd t cur (t.rule x) pos :: ds)).foldlM dmaWrite t = .ok t') :
    ∃ t₁, ds.foldlM dmaWrite t = .ok t₁ ∧ SameRules t t₁ ∧
      dmaWrite t₁ (ruleDelCmd t₁ cur (t₁.rule x) pos) = .ok t' := by
  rw [reorderCmds_cons (isIndxCmd_ruleDelCmd ..) hall hne, List.foldlM_append] at h
  obtain ⟨t₁, hindx, hrule⟩ := bind_eq_ok h
  have hsame := foldlM_dmaWrite_sameRules hall hindx
  refine ⟨t₁, hindx, hsame, ?_⟩
  rw [ruleDelCmd_congr hsame.dims, List.foldlM_cons] at hrule
  obtain ⟨t₂, hw, hrule⟩ := bind_eq_ok hrule
  cases hrule
  rw [hsame.rule]
  exact hw

/-- A deletion batch that was posted: the rule row was enabled, and both tables are changed. -/
theorem ipaNatiPostDelDmaCmd_cases (hl : t.Layout) (hlinks : t.RuleLinks) {cur : Nat}
    {expnTbl ok : Bool}
    (hpos : pos = delType (!expnTbl) (t.rule (t.rowOf expnTbl cur)).nextIndex)
    {res : Except Errno Unit} (h : ipaNatiPostDelDmaCmd t cur expnTbl pos ok = .ok (t', res)) :
    (t' = t ∧ ∃ e, res = .error e ∧
      (ok = false ∨ (t.rule (t.rowOf expnTbl cur)).enable = false)) ∨
    ∃ x, x = t.rowOf expnTbl cur ∧ x < t.rows ∧ (t.rule x).enable = true ∧
      (t.rule x).indxTblEntry < t.rows ∧ ok = true ∧ res = .ok () ∧ SameDims t t' ∧
      t'.ruleIdArray = t.ruleIdArray ∧
      (∀ z, ∃ v, t'.rule z = { t.ruleUnlinked x z with indxTblEntry := v }) ∧
      (t.IndxLinks → (∀ z, t'.indx z = t.indxUnlinked (t.rule x).indxTblEntry z) ∧
        (∀ z, t'.metaPrev z = t.metaUnlinked (t.rule x).indxTblEntry z) ∧
        ∀ z, t'.rule z = if t.movedRule (t.rule x).indxTblEntry = some z then
          { t.ruleUnlinked x z with indxTblEntry := (t.rule x).indxTblEntry }
        else t.ruleUnlinked x z) := by
  obtain ⟨r, hr, h⟩ := bind_eq_ok h
  obtain ⟨hcur, hxr, rfl⟩ := ruleTbl_read hl.sized hr
  generalize hx : t.rowOf expnTbl cur = x at *
  split at h
  · next henable =>
    obtain ⟨ipos, hipos, h⟩ := bind_eq_ok h
    obtain ⟨hie, hipos⟩ := ipaNatiFindIndexRulePos_cases hl.sized hipos
    obtain ⟨ds, hds, h⟩ := bind_eq_ok h
    obtain ⟨nextEntry, hnext, h⟩ := bind_eq_ok h
    split at h
    · next hok =>
      obtain ⟨hne, hall⟩ := isIndxCmd_of_indxDelCmds hds
      obtain ⟨t₂, hbatch, h⟩ := bind_eq_ok h
      obtain ⟨t₁, hindx, hsame₁, hrule⟩ := delBatch_split hne hall hbatch
      obtain ⟨t₃, hupd, h⟩ := bind_eq_ok h
      obtain ⟨t₄, hindxUpd, h⟩ := bind_eq_ok h
      cases h
      have hl₁ := hsame₁.dims.layout hl
      have hlinks₁ : t₁.RuleLinks := by
        unfold RuleLinks
        rw [hsame₁.rule, hsame₁.dims.tableEntries, hsame₁.dims.rows]
        exact hlinks
      have hrow₁ : x = t₁.rowOf expnTbl cur := by
        rw [← hx]
        unfold rowOf
        rw [hsame₁.dims.tableEntries]
      obtain ⟨hsame₃, hrule₃⟩ := ruleDel_cases hl₁ hlinks₁
        (by rw [hsame₁.dims.tableEntries]; exact hcur) hrow₁
        (by rw [hsame₁.dims.rows]; exact hxr) (by rw [hsame₁.rule]; exact hpos) hrule hupd
      have hrule₃ : ∀ z, t₃.rule z = t.ruleUnlinked x z := by
        intro z
        rw [hrule₃]
        unfold ruleUnlinked
        rw [hsame₁.rule, hsame₁.dims.tableEntries]
      have hdims₃ := hsame₁.dims.trans hsame₃.dims
      obtain ⟨hdims₄, hids₄, hrules₄⟩ := indxDelUpdate_rules (hdims₃.layout hl) hindxUpd
      refine Or.inr ⟨x, rfl, hxr, henable, hie, hok, rfl, hdims₃.trans hdims₄, ?_, ?_, ?_⟩
      · rw [hids₄, hsame₃.ruleIdArray, hsame₁.ruleIdArray]
      · intro z
        obtain ⟨v, hv⟩ := hrules₄ z
        exact ⟨v, by rw [hv, hrule₃]⟩
      · intro hil
        obtain ⟨h₁, h₂, h₃⟩ := indxDel_cases hl hil hie hipos hds hnext hindx hsame₃ hindxUpd
        refine ⟨h₁, h₂, fun z => ?_⟩
        rw [h₃, hrule₃]
    · next hok =>
      cases h
      exact Or.inl ⟨rfl, _, rfl, Or.inl (by simpa using hok)⟩
  · next henable =>
    cases h
    exact Or.inl ⟨rfl, _, rfl, Or.inr (by simpa using henable)⟩

/-- **What a deletion can do.** -/
theorem ipaNatiDelIpv4Rule_cases (hl : t.Layout) (hlinks : t.RuleLinks) {ruleHdl : UInt32}
    {ok : Bool} {res : Except Errno Unit} (h : ipaNatiDelIpv4Rule t ruleHdl ok = .ok (t', res)) :
    (t' = t ∧ res = .error .einval ∧ (ok = false ∨ t.valid = false ∨
      ∀ x, t.HandleOf ruleHdl.toUInt16.toNat x → (t.rule x).enable = false)) ∨
    ∃ x, t.HandleOf ruleHdl.toUInt16.toNat x ∧ x < t.rows ∧ (t.rule x).enable = true ∧
      (t.rule x).indxTblEntry < t.rows ∧ t.valid = true ∧ ok = true ∧ res = .ok () ∧
      (ruleHdl - 1).toNat < t.rows ∧ t.Deleted t' x (ruleHdl - 1).toNat := by
  obtain ⟨⟨expnTbl, cur⟩, hparse, h⟩ := bind_eq_ok h
  dsimp only at h
  have hhandle : ∀ x, t.HandleOf ruleHdl.toUInt16.toNat x → cur ≠ 0 ∧ x = t.rowOf expnTbl cur := by
    intro x hx
    unfold ipaNatiParseIpv4RuleHdl at hparse
    rw [if_neg (Nat.not_le.2 hx.lt), if_neg (by have := hx.pos; omega), Region.read_ok] at hparse
    · cases hparse
      exact ⟨hx.ne_zero, hx.row⟩
    · rw [hl.sized.ruleIdArray]
      have := hx.lt
      omega
  split at h
  · next hcur =>
    cases h
    exact Or.inl ⟨rfl, rfl, Or.inr (Or.inr fun x hx => absurd hcur (hhandle x hx).1)⟩
  · next hcur =>
    split at h
    · next hvalid =>
      have hof : t.HandleOf ruleHdl.toUInt16.toNat (t.rowOf expnTbl cur) := by
        unfold ipaNatiParseIpv4RuleHdl at hparse
        split at hparse
        · simp_all
        · next hlt =>
          split at hparse
          · cases hparse
          · next hpos =>
            obtain ⟨id, hid, hparse⟩ := bind_eq_ok hparse
            obtain ⟨-, rfl⟩ := Region.lt_of_read hid
            cases hparse
            exact ⟨Nat.one_le_iff_ne_zero.2 hpos, Nat.lt_of_not_le hlt, hcur, rfl⟩
      obtain ⟨pos, hpos, h⟩ := bind_eq_ok h
      have hpos := ipaNatiFindRulePos_cases hl.sized hpos
      obtain ⟨⟨t₁, ret⟩, hpost, h⟩ := bind_eq_ok h
      rcases ipaNatiPostDelDmaCmd_cases hl hlinks hpos hpost with
        ⟨rfl, e, rfl, hwhy⟩ | ⟨x, rfl, hxr, henable, hie, hok, rfl, hdims, hids, hrule, hindx⟩
      · cases h
        refine Or.inl ⟨rfl, rfl, ?_⟩
        rcases hwhy with hok | hdis
        · exact Or.inl hok
        · exact Or.inr (Or.inr fun x hx => by rw [(hhandle x hx).2]; exact hdis)
      · obtain ⟨t₂, hdead, h⟩ := bind_eq_ok h
        obtain ⟨hsame, hclear⟩ := ipaNatiDelDeadIpv4HeadNodes_cases hdead
        obtain ⟨t₃, hid, h⟩ := bind_eq_ok h
        obtain ⟨m, hm, hid⟩ := bind_eq_ok hid
        obtain ⟨hlt, rfl⟩ := Region.lt_of_write hm
        cases hid
        cases h
        have hd := hdims.trans hsame.dims
        rw [(hd.sized hl.sized).ruleIdArray, hd.rows] at hlt
        refine Or.inr ⟨_, hof, hxr, henable, hie, hvalid, hok, rfl, hlt, ?_⟩
        have hset : ({ t₂ with
            ruleIdArray := t₂.ruleIdArray.set (ruleHdl - 1).toNat 0 } : IpaNatIp4TableCache) =
            t₂.setRuleId (ruleHdl - 1).toNat 0 := rfl
        have hd₃ : SameDims t (t₂.setRuleId (ruleHdl - 1).toNat 0) :=
          hd.trans (sameDims_setRuleId _ _)
        rw [hset]
        have hT := hdims.tableEntries
        constructor
        · exact hd₃
        · rw [ruleIdArray_setRuleId, hsame.ruleIdArray, hids]
        · intro z
          obtain ⟨v, hv⟩ := hrule z
          exact ⟨v, by rw [rule_setRuleId, hclear, hT, hv]⟩
        · intro hil z
          rw [indx_setRuleId, hsame.indx, (hindx hil).1]
        · intro hil z
          rw [metaPrev_setRuleId, hsame.metaPrev, (hindx hil).2.1]
        · intro hil z
          rw [rule_setRuleId, hclear, hT, (hindx hil).2.2]
    · next hvalid =>
      cases h
      exact Or.inl ⟨rfl, rfl, Or.inr (Or.inl (by simpa using hvalid))⟩

end Nx508j.Ipanat
