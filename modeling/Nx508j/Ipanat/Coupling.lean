import Nx508j.Ipanat.Handles
import Nx508j.Ipanat.IndexChains

/-! # The invariant of a NAT table

`NatInv` is what holds of a table between two calls: both tables are threaded and anchored, the
handles stand for the rows in use, each rule and its index row name each other (`Coupled`), and
either is in the chain of the bucket its rule hashes to. -/

namespace Nx508j.Ipanat

open Nx508j.Lib Function

namespace IpaNatIp4TableCache

/-- Every rule names an index row that names it back, and no other index row is occupied. -/
structure Coupled (t : IpaNatIp4TableCache) : Prop where
  tblEntry : ∀ x, t.LiveRow x → (t.indx (t.rule x).indxTblEntry).tblEntry = x
  live : ∀ y, t.indxOcc y → t.LiveRow (t.indx y).tblEntry
  indxTblEntry : ∀ y, t.indxOcc y → (t.rule (t.indx y).tblEntry).indxTblEntry = y

/-- The invariant of a table whose live handles stand for the rules `L`. -/
structure NatInv (t : IpaNatIp4TableCache) (L : Live) (age owner indxAge indxOwner : Nat → Nat) :
    Prop where
  small : t.Small
  ruleThreaded : t.RuleThreaded
  ruleAnchored : t.RuleAnchored age owner
  indxThreaded : t.IndxThreaded
  indxAnchored : t.IndxAnchored indxAge indxOwner
  hdl : t.HdlInv L
  coupled : t.Coupled
  dst : ∀ x, t.LiveRow x → owner x = t.dstBucket (t.rule x).client
  src : ∀ y, t.indxOcc y → indxOwner y = t.srcBucket (t.rule (t.indx y).tblEntry).client

variable {t t' : IpaNatIp4TableCache} {c : IpaNatIpv4Rule} {L : Live}
  {age owner indxAge indxOwner : Nat → Nat}

theorem LiveRow.ne_zero (hl : t.Layout) (H : t.HdlInv L) {x : Nat} (hx : t.LiveRow x) :
    x ≠ 0 := by
  obtain ⟨h, c, hc, rfl⟩ := H.covered x hx
  intro h0
  have hid := H.id h c hc
  have hne := H.id_ne_zero h c hc
  have hT := hl.two_le
  rw [hid, h0] at hne
  unfold ruleId at hne
  rw [if_neg (by omega)] at hne
  exact hne rfl

theorem LiveRow.indxOcc (hl : t.Layout) (C : t.Coupled) (H : t.HdlInv L) {x : Nat}
    (hx : t.LiveRow x) : t.indxOcc (t.rule x).indxTblEntry := by
  unfold IpaNatIp4TableCache.indxOcc
  rw [C.tblEntry x hx]
  exact hx.ne_zero hl H

theorem SameDims.dstBucket (h : SameDims t t') (c : IpaNatIpv4Rule) :
    t'.dstBucket c = t.dstBucket c := by
  unfold IpaNatIp4TableCache.dstBucket hashSize
  rw [h.tableEntries]

theorem SameDims.srcBucket (h : SameDims t t') (c : IpaNatIpv4Rule) :
    t'.srcBucket c = t.srcBucket c := by
  unfold IpaNatIp4TableCache.srcBucket hashSize
  rw [h.tableEntries]

/-! ## Additions -/

section Placed

variable {e p ie ip : Nat} {dma : AddDma}

theorem client_placed (he : e < t.rows) (hp : p < t.rows) (hpe : p ≠ e) (z : Nat) :
    ((t.placed c e p ie ip dma).rule z).client = if z = e then c else (t.rule z).client := by
  rw [rule_placed he hp hpe]
  split
  · rfl
  · split
    · next h => rw [h.1]; rfl
    · rfl

theorem indxTblEntry_placed (he : e < t.rows) (hp : p < t.rows) (hpe : p ≠ e) (z : Nat) :
    ((t.placed c e p ie ip dma).rule z).indxTblEntry =
      if z = e then ie else (t.rule z).indxTblEntry := by
  rw [rule_placed he hp hpe]
  split
  · rfl
  · split
    · next h => rw [h.1]
    · rfl

theorem liveRow_placed (he : e < t.rows) (hp : p < t.rows) (hpe : p ≠ e)
    (hen : dma.enable = true) (hproto : c.protocol ≠ ipaNatInvalidProtoFieldCmp) (z : Nat) :
    (t.placed c e p ie ip dma).LiveRow z ↔ t.LiveRow z ∨ z = e := by
  unfold LiveRow
  rw [ruleOcc_placed he hp hpe hen]
  have hclient : ((t.placed c e p ie ip dma).rule z).protocol =
      if z = e then c.protocol else (t.rule z).protocol := by
    have := congrArg IpaNatIpv4Rule.protocol
      (show ((t.placed c e p ie ip dma).rule z).client = _ from client_placed he hp hpe z)
    rw [apply_ite IpaNatIpv4Rule.protocol] at this
    exact this
  rw [hclient]
  by_cases hz : z = e
  · simp [hz, hproto]
  · simp [hz]

theorem Coupled.fresh (C : t.Coupled) {e : Nat} (hfree : ¬ t.ruleOcc e) {y : Nat}
    (hy : t.indxOcc y) : (t.indx y).tblEntry ≠ e := fun he =>
  hfree (he ▸ (C.live y hy).1)

theorem Coupled.placed (C : t.Coupled) (hl : t.Layout) (H : t.HdlInv L) (he : e < t.rows)
    (he0 : e ≠ 0) (hp : p < t.rows) (hpe : p ≠ e) (hplace : t.IndxPlace ie ip)
    (hfree : ¬ t.ruleOcc e) (hifree : ¬ t.indxOcc ie) (hen : dma.enable = true)
    (hproto : c.protocol ≠ ipaNatInvalidProtoFieldCmp) :
    (t.placed c e p ie ip dma).Coupled := by
  have hlive : ∀ z, (t.placed c e p ie ip dma).LiveRow z ↔ t.LiveRow z ∨ z = e :=
    liveRow_placed he hp hpe hen hproto
  have hocc : ∀ z, (t.placed c e p ie ip dma).indxOcc z ↔ t.indxOcc z ∨ z = ie :=
    indxOcc_placed hplace he0
  constructor
  · intro x hx
    rw [indxTblEntry_placed he hp hpe, tblEntry_placed hplace]
    by_cases hxe : x = e
    · simp [hxe]
    · have hx := ((hlive x).1 hx).resolve_right hxe
      have hne : (t.rule x).indxTblEntry ≠ ie := fun h => hifree (h ▸ hx.indxOcc hl C H)
      rw [if_neg hxe, if_neg hne]
      exact C.tblEntry x hx
  · intro y hy
    rw [tblEntry_placed hplace]
    refine (hlive _).2 ?_
    by_cases hyi : y = ie
    · exact Or.inr (if_pos hyi)
    · rw [if_neg hyi]
      exact Or.inl (C.live y (((hocc y).1 hy).resolve_right hyi))
  · intro y hy
    rw [tblEntry_placed hplace, indxTblEntry_placed he hp hpe]
    by_cases hyi : y = ie
    · simp [hyi]
    · have hy := ((hocc y).1 hy).resolve_right hyi
      rw [if_neg hyi, if_neg (C.fresh hfree hy)]
      exact C.indxTblEntry y hy

end Placed

/-- **An addition keeps the invariant**, with the new handle live. -/
theorem NatInv.placed (I : t.NatInv L age owner indxAge indxOwner) {e p ie ip i : Nat}
    (hs : t.RuleSlot (t.dstBucket c) e p) (his : t.IndxSlot (t.srcBucket c) ie ip)
    (hproto : c.protocol ≠ ipaNatInvalidProtoFieldCmp) (hi : i < t.rows)
    (hi0 : t.ruleIdArray.get i = 0) (hbefore : ∀ j < i, t.ruleIdArray.get j ≠ 0) :
    ∃ age' owner' indxAge' indxOwner',
      ((t.placed c e p ie ip .allOk).setRuleId i (ruleId t e)).NatInv
        (update L (i + 1) (some c)) age' owner' indxAge' indxOwner' := by
  have hl := I.small.layout
  obtain ⟨hb, hb'⟩ := hl.dstBucket_range c
  obtain ⟨hib, hib'⟩ := hl.srcBucket_range c
  obtain ⟨he0, he⟩ := hs.range hb hb'
  obtain ⟨hpe, hp, hfree⟩ := hs.ne hl I.ruleThreaded hb
  obtain ⟨-, -, hifree⟩ := his.ne hl I.indxThreaded hib
  have hplace := his.place I.small I.indxThreaded
  have hdims := sameDims_placed (t := t) c e p ie ip .allOk
  have hlive : ∀ z, (t.placed c e p ie ip .allOk).LiveRow z ↔ t.LiveRow z ∨ z = e :=
    liveRow_placed he hp hpe rfl hproto
  have hocc : ∀ z, (t.placed c e p ie ip .allOk).indxOcc z ↔ t.indxOcc z ∨ z = ie :=
    indxOcc_placed hplace (by omega)
  obtain ⟨age', hA⟩ : ∃ age', (t.placed c e p ie ip .allOk).RuleAnchored age'
      (update owner e (t.dstBucket c)) :=
    RuleAnchored.placed hl I.ruleThreaded I.ruleAnchored hs rfl rfl
  obtain ⟨indxAge', hB⟩ : ∃ age', (t.placed c e p ie ip .allOk).IndxAnchored age'
      (update indxOwner ie (t.srcBucket c)) :=
    IndxAnchored.placed I.small I.indxThreaded I.indxAnchored his (by omega) rfl
  have hR : (t.placed c e p ie ip .allOk).RuleThreaded :=
    I.ruleThreaded.placed hl hs rfl
  have hX : (t.placed c e p ie ip .allOk).IndxThreaded :=
    I.indxThreaded.placed I.small his (by omega)
  have hC : (t.placed c e p ie ip .allOk).Coupled :=
    I.coupled.placed hl I.hdl he (by omega) hp hpe hplace hfree hifree rfl hproto
  refine ⟨age', update owner e (t.dstBucket c), indxAge',
    update indxOwner ie (t.srcBucket c), ?_⟩
  constructor
  · exact (hdims.trans (sameDims_setRuleId i (ruleId t e))).small I.small
  · exact hR
  · exact hA
  · exact hX
  · exact hB
  · exact I.hdl.placed hl I.ruleThreaded hs rfl hproto hi hi0 hbefore
  · exact ⟨hC.1, hC.2, hC.3⟩
  · intro x hx
    change _ = (t.placed c e p ie ip .allOk).dstBucket ((t.placed c e p ie ip .allOk).rule x).client
    rw [hdims.dstBucket, client_placed he hp hpe]
    by_cases hxe : x = e
    · rw [hxe, update_self, if_pos rfl]
    · rw [update_of_ne hxe, if_neg hxe]
      exact I.dst x (((hlive x).1 hx).resolve_right hxe)
  · intro y hy
    change _ = (t.placed c e p ie ip .allOk).srcBucket
      ((t.placed c e p ie ip .allOk).rule ((t.placed c e p ie ip .allOk).indx y).tblEntry).client
    rw [hdims.srcBucket, tblEntry_placed hplace, client_placed he hp hpe]
    by_cases hyi : y = ie
    · rw [hyi, update_self, if_pos rfl, if_pos rfl]
    · have hy := ((hocc y).1 hy).resolve_right hyi
      rw [update_of_ne hyi, if_neg hyi, if_neg (I.coupled.fresh hfree hy)]
      exact I.src y hy

/-! ## Deletions -/

section Deleted

variable {x slot : Nat}

theorem indxGone_of_head (hT : x < t.tableEntries) (hn : t.indxNext x ≠ 0) :
    t.indxGone x = t.indxNext x :=
  if_pos ⟨hT, hn⟩

theorem indxGone_of_last (h : x < t.tableEntries → t.indxNext x = 0) : t.indxGone x = x :=
  if_neg fun hx => hx.2 (h hx.1)

theorem indxUnlinked_tblEntry (H : t.IndxThreaded) (z : Nat) :
    (t.indxUnlinked x z).tblEntry =
      if z = t.indxGone x then 0
      else if z = x then (t.indx (t.indxGone x)).tblEntry else (t.indx z).tblEntry := by
  by_cases hT : x < t.tableEntries
  · by_cases hn : t.indxNext x = 0
    · rw [(indxUnlinked_onlyOne hT hn z).1, indxGone_of_last fun _ => hn]
      by_cases hz : z = x <;> simp [hz]
    · have hnx : t.indxNext x ≠ x := fun h => (H x hn).1 (h.symm ▸ hT)
      rw [(indxUnlinked_head hT rfl hn z).1, indxGone_of_head hT hn]
      by_cases hz : z = x
      · simp [hz, hnx.symm]
      · by_cases hz' : z = t.indxNext x <;> simp [hz, hz', hnx]
  · rw [(indxUnlinked_expn (Nat.not_lt.1 hT) z).1, indxGone_of_last fun h => absurd h hT]
    by_cases hz : z = x <;> simp [hz]

theorem Deleted.indxTblEntry (hd : t.Deleted t' x slot) (H : t.IndxThreaded) {z : Nat}
    (hz : t.LiveRow z) (hzx : z ≠ x) : (t'.rule z).indxTblEntry =
      if t.movedRule (t.rule x).indxTblEntry = some z then (t.rule x).indxTblEntry
      else (t.rule z).indxTblEntry := by
  have hdead := hz.not_deadAfter hzx
  obtain ⟨n, p, hrow⟩ := ruleUnlinked_of_ne (t := t) hzx
  have hclear : ∀ v, clearDead t.tableEntries z { t.ruleUnlinked x z with indxTblEntry := v } =
      { t.ruleUnlinked x z with indxTblEntry := v } := fun v => if_neg hdead
  rw [hd.moved H.links z]
  split
  · rw [hclear]
  · rw [show clearDead t.tableEntries z (t.ruleUnlinked x z) = t.ruleUnlinked x z from
      hclear (t.ruleUnlinked x z).indxTblEntry, hrow]

theorem Deleted.client (hd : t.Deleted t' x slot) {z : Nat} (hz : t.LiveRow z) (hzx : z ≠ x) :
    (t'.rule z).client = (t.rule z).client := by
  obtain ⟨n, p, v, hv⟩ := hd.rule_of_live hz hzx
  rw [hv]
  rfl

theorem Deleted.tblEntry (hd : t.Deleted t' x slot) (H : t.IndxThreaded) (y : Nat) :
    (t'.indx y).tblEntry =
      if y = t.indxGone (t.rule x).indxTblEntry then 0
      else if y = (t.rule x).indxTblEntry then
        (t.indx (t.indxGone (t.rule x).indxTblEntry)).tblEntry
      else (t.indx y).tblEntry := by
  rw [hd.indx H.links, indxUnlinked_tblEntry H]

theorem indxGone_spec (H : t.IndxThreaded) {y : Nat} (hy : t.indxOcc y) :
    t.indxOcc (t.indxGone y) ∧
      (t.indxGone y ≠ y → ¬ t.isHead (t.indxGone y) ∧ t.metaPrev (t.indxGone y) = y) := by
  unfold indxGone
  split
  · next h =>
    obtain ⟨hnh, hocc, hback⟩ := H y h.2
    exact ⟨hocc, fun _ => ⟨hnh, hback⟩⟩
  · exact ⟨hy, fun h => absurd rfl h⟩

theorem movedRule_eq (H : t.IndxThreaded) (y z : Nat) :
    t.movedRule y = some z ↔ t.indxGone y ≠ y ∧ (t.indx (t.indxGone y)).tblEntry = z := by
  have hiff : t.movedRule y =
      if y < t.tableEntries ∧ t.indxNext y ≠ 0 then some (t.indx (t.indxNext y)).tblEntry
      else none := rfl
  rw [hiff]
  unfold indxGone
  split
  · next h =>
    have hne : t.indxNext y ≠ y := fun he => (H y h.2).1 (he.symm ▸ h.1)
    simp [hne]
  · simp

theorem Coupled.deleted (C : t.Coupled) (H : t.IndxThreaded)
    (hocc : t.indxOcc (t.rule x).indxTblEntry) (hx : t.LiveRow x) (hd : t.Deleted t' x slot) : t'.Coupled := by
  obtain ⟨ie, hie⟩ : ∃ ie, ie = (t.rule x).indxTblEntry := ⟨_, rfl⟩
  obtain ⟨g, hg⟩ : ∃ g, g = t.indxGone ie := ⟨_, rfl⟩
  have hiex : (t.indx ie).tblEntry = x := hie ▸ C.tblEntry x hx
  have hgocc : t.indxOcc g := hg ▸ (indxGone_spec H (hie ▸ hocc)).1
  have htbl : ∀ y, (t'.indx y).tblEntry =
      if y = g then 0 else if y = ie then (t.indx g).tblEntry else (t.indx y).tblEntry := by
    intro y
    rw [hg, hie]
    exact hd.tblEntry H y
  have hrule : ∀ z, t.LiveRow z → z ≠ x → (t'.rule z).indxTblEntry =
      if g ≠ ie ∧ (t.indx g).tblEntry = z then ie else (t.rule z).indxTblEntry := by
    intro z hz hzx
    rw [hd.indxTblEntry H hz hzx, ← hie]
    simp only [movedRule_eq H, ← hg]
  have hlive : ∀ z, t'.LiveRow z ↔ t.LiveRow z ∧ z ≠ x := hd.liveRow_iff
  have hother : ∀ y, t.indxOcc y → y ≠ ie → (t.indx y).tblEntry ≠ x := by
    intro y hy hyie he
    have := C.indxTblEntry y hy
    rw [he] at this
    exact hyie (this.symm.trans hie.symm)
  -- an index row still occupied is not `g`; it names the rule of `g` or the one it named
  have hocc' : ∀ y, t'.indxOcc y → y ≠ g ∧ (y ≠ ie → t.indxOcc y) := by
    intro y hy
    unfold IpaNatIp4TableCache.indxOcc at hy
    rw [htbl] at hy
    refine ⟨fun h => hy (if_pos h), fun hyie => ?_⟩
    by_cases hyg : y = g
    · exact absurd (if_pos hyg) hy
    · rwa [if_neg hyg, if_neg hyie] at hy
  constructor
  · intro z hz
    obtain ⟨hz, hzx⟩ := (hlive z).1 hz
    have hyz := C.tblEntry z hz
    rw [hrule z hz hzx]
    by_cases hyg : (t.rule z).indxTblEntry = g
    · have hgie : g ≠ ie := fun h => hzx (by rw [← hyz, hyg, h, hiex])
      rw [if_pos ⟨hgie, by rw [← hyg, hyz]⟩, htbl, if_neg hgie.symm, if_pos rfl, ← hyg, hyz]
    · have hnot : ¬ (g ≠ ie ∧ (t.indx g).tblEntry = z) := fun h =>
        hyg (by rw [← h.2]; exact C.indxTblEntry g hgocc)
      have hyie : (t.rule z).indxTblEntry ≠ ie := fun h => hzx (by rw [← hyz, h, hiex])
      rw [if_neg hnot, htbl, if_neg hyg, if_neg hyie, hyz]
  · intro y hy
    obtain ⟨hyg, hyo⟩ := hocc' y hy
    rw [htbl, if_neg hyg, hlive]
    split
    · next hyie => exact ⟨C.live g hgocc, hother g hgocc fun h => hyg (hyie.trans h.symm)⟩
    · next hyie => exact ⟨C.live y (hyo hyie), hother y (hyo hyie) hyie⟩
  · intro y hy
    obtain ⟨hyg, hyo⟩ := hocc' y hy
    rw [htbl, if_neg hyg]
    by_cases hyie : y = ie
    · have hgie : g ≠ ie := fun h => hyg (hyie.trans h.symm)
      rw [if_pos hyie, hrule _ (C.live g hgocc) (hother g hgocc hgie), if_pos ⟨hgie, rfl⟩, hyie]
    · have hyo := hyo hyie
      have hyy := C.indxTblEntry y hyo
      have hnot : ¬ (g ≠ ie ∧ (t.indx g).tblEntry = (t.indx y).tblEntry) := fun h =>
        hyg (by rw [← hyy, ← h.2]; exact C.indxTblEntry g hgocc)
      rw [if_neg hyie, hrule _ (C.live y hyo) (hother y hyo hyie), if_neg hnot, hyy]

end Deleted

/-- **A deletion keeps the invariant**, with its handle no longer live. -/
theorem NatInv.deleted (I : t.NatInv L age owner indxAge indxOwner) {h : Nat} (hc : L h = some c)
    (hd : t.Deleted t' (t.hdlRow h) (h - 1)) :
    t'.NatInv (update L h none) age owner indxAge indxOwner := by
  have hl := I.small.layout
  have hx := I.hdl.liveRow hc
  have hiocc := hx.indxOcc hl I.coupled I.hdl
  obtain ⟨hgocc, hgback⟩ := indxGone_spec I.indxThreaded hiocc
  have hlive := hd.liveRow_iff
  constructor
  · exact hd.dims.small I.small
  · exact I.ruleThreaded.deleted hl hd
  · exact I.ruleAnchored.deleted I.ruleThreaded hl hx.1 hd
  · exact I.indxThreaded.deleted hl hd
  · exact I.indxAnchored.deleted I.indxThreaded hl hiocc hd
  · exact I.hdl.deleted hc hd
  · exact I.coupled.deleted I.indxThreaded hiocc hx hd
  · intro z hz
    obtain ⟨hz, hzx⟩ := (hlive z).1 hz
    rw [hd.dims.dstBucket, hd.client hz hzx]
    exact I.dst z hz
  · intro y hy
    have hz := (I.coupled.deleted I.indxThreaded hiocc hx hd).live y hy
    obtain ⟨hz, hzx⟩ := (hlive _).1 hz
    rw [hd.dims.srcBucket, hd.client hz hzx]
    have htbl := hd.tblEntry I.indxThreaded y
    have hy0 : (t'.indx y).tblEntry ≠ 0 := hy
    rw [htbl] at hy0 ⊢
    split at hy0
    · exact absurd rfl hy0
    · next hyg =>
      split at hy0
      · next hyie =>
        -- the head now holds what the row behind it held, and both have one owner
        rw [if_neg hyg, if_pos hyie, ← I.src _ hgocc]
        obtain ⟨hnh, hback⟩ := hgback fun he => hyg (hyie.trans he.symm)
        rw [I.indxAnchored.owner_eq _ hnh hgocc, hback, hyie]
      · next hyie =>
        rw [if_neg hyg, if_neg hyie]
        exact I.src y hy0

end IpaNatIp4TableCache

end Nx508j.Ipanat
