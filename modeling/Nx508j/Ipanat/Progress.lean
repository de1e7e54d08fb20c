import Nx508j.Ipanat.Handles
import Nx508j.Ipanat.IndexChains

/-! # Calls that stay inside the table

Every row number a table stores names a row of it (`Bounded`). Both calls keep that, whatever DMA
writes fail, and under it neither reads or writes outside an array: an addition can then only fail to
come to an end, in a chain that runs in circles, and it does come to an end where the tables are
threaded. -/

namespace Nx508j.Ipanat

open Nx508j.Lib

namespace IpaNatIp4TableCache

/-- The row numbers in a rule row name rows of `t`, and its link an expansion row. -/
structure BoundedRule (t : IpaNatIp4TableCache) (r : IpaNatRule) : Prop where
  next : r.nextIndex ≠ 0 → t.tableEntries ≤ r.nextIndex ∧ r.nextIndex < t.rows
  prev : r.prevIndex < t.rows
  indx : r.indxTblEntry < t.rows

/-- The row numbers in an index row name rows of `t`, and its link an expansion row. -/
structure BoundedIndx (t : IpaNatIp4TableCache) (s : IpaNatIndxTblRule) : Prop where
  next : s.nextIndex ≠ 0 → t.tableEntries ≤ s.nextIndex ∧ s.nextIndex < t.rows
  tbl : s.tblEntry < t.rows

/-- Every row number stored in the table names a row of it. -/
structure Bounded (t : IpaNatIp4TableCache) : Prop where
  rule : ∀ x, t.BoundedRule (t.rule x)
  indx : ∀ y, t.BoundedIndx (t.indx y)
  metaPrev : ∀ y, t.metaPrev y < t.rows

variable {t t' : IpaNatIp4TableCache} {c : IpaNatIpv4Rule} {r : IpaNatRule}

theorem Bounded.ruleLinks (B : t.Bounded) : t.RuleLinks := fun z => (B.rule z).next

theorem Bounded.indxLinks (B : t.Bounded) : t.IndxLinks := fun z => (B.indx z).next

theorem SameDims.boundedRule (h : SameDims t t') (hr : t.BoundedRule r) : t'.BoundedRule r := by
  constructor
  · rw [h.tableEntries, h.rows]; exact hr.next
  · rw [h.rows]; exact hr.prev
  · rw [h.rows]; exact hr.indx

theorem SameDims.boundedIndx (h : SameDims t t') {s : IpaNatIndxTblRule} (hs : t.BoundedIndx s) :
    t'.BoundedIndx s := by
  constructor
  · rw [h.tableEntries, h.rows]; exact hs.next
  · rw [h.rows]; exact hs.tbl

theorem Layout.rows_pos (hl : t.Layout) : 0 < t.rows := by
  have := hl.two_le
  unfold IpaNatIp4TableCache.rows
  omega

theorem Layout.boundedRule_empty (hl : t.Layout) : t.BoundedRule {} :=
  ⟨fun h => absurd rfl h, hl.rows_pos, hl.rows_pos⟩

theorem Layout.boundedIndx_empty (hl : t.Layout) : t.BoundedIndx {} :=
  ⟨fun h => absurd rfl h, hl.rows_pos⟩

/-! ## Writes that keep a table bounded -/

theorem sameDims_setRule (x : Nat) (r : IpaNatRule) : SameDims t (t.setRule x r) := by
  constructor <;> simp

theorem sameDims_setIndx (x : Nat) (s : IpaNatIndxTblRule) : SameDims t (t.setIndx x s) := by
  constructor <;> simp

theorem sameDims_setMeta (x v : Nat) : SameDims t (t.setMeta x v) := by
  constructor <;> simp

theorem Bounded.setRule (B : t.Bounded) {x : Nat} (hx : x < t.rows)
    (hr : t.BoundedRule r) : (t.setRule x r).Bounded := by
  have hd := sameDims_setRule (t := t) x r
  constructor
  · intro z
    rw [rule_setRule hx]
    refine hd.boundedRule ?_
    split
    · exact hr
    · exact B.rule z
  · intro y
    rw [indx_setRule]
    exact hd.boundedIndx (B.indx y)
  · intro y
    rw [metaPrev_setRule, hd.rows]
    exact B.metaPrev y

theorem Bounded.setIndx (B : t.Bounded) {x : Nat} (hx : x < t.rows) {s : IpaNatIndxTblRule}
    (hs : t.BoundedIndx s) : (t.setIndx x s).Bounded := by
  have hd := sameDims_setIndx (t := t) x s
  constructor
  · intro z
    rw [rule_setIndx]
    exact hd.boundedRule (B.rule z)
  · intro y
    rw [indx_setIndx hx]
    refine hd.boundedIndx ?_
    split
    · exact hs
    · exact B.indx y
  · intro y
    rw [metaPrev_setIndx, hd.rows]
    exact B.metaPrev y

theorem Bounded.setMeta (B : t.Bounded) {x v : Nat} (hx : t.tableEntries ≤ x) (hx' : x < t.rows)
    (hv : v < t.rows) : (t.setMeta x v).Bounded := by
  have hd := sameDims_setMeta (t := t) x v
  constructor
  · intro z
    exact hd.boundedRule (B.rule z)
  · intro y
    exact hd.boundedIndx (B.indx y)
  · intro y
    rw [metaPrev_setMeta hx hx', hd.rows]
    split
    · exact hv
    · exact B.metaPrev y

/-! ## Additions -/

theorem RuleSlot.prev_lt (hl : t.Layout) (B : t.Bounded) {b e p : Nat} (hs : t.RuleSlot b e p)
    (hb : b < t.tableEntries) : p < t.rows ∧ (p ≠ 0 → t.tableEntries ≤ e) := by
  cases hs with
  | base => exact ⟨hl.rows_pos, fun h => absurd rfl h⟩
  | expn _ hlast =>
    refine ⟨(findLast_inv t.rule hl.rows_lt (fun y hT hy => ?_) B.ruleLinks
      (I := (· < t.rows)) ?_ (fun y _ hn => (B.ruleLinks y hn).2) hlast).1, fun _ => by omega⟩
    · rw [← rule_expn (by omega), Nat.sub_add_cancel hT]
    · unfold IpaNatIp4TableCache.rows
      omega

theorem IndxSlot.prev_lt (hl : t.Layout) (B : t.Bounded) {b e p : Nat} (hs : t.IndxSlot b e p)
    (hb : b < t.tableEntries) : p < t.rows ∧ (p ≠ 0 → t.tableEntries ≤ e) := by
  cases hs with
  | base => exact ⟨hl.rows_pos, fun h => absurd rfl h⟩
  | expn _ hlast =>
    refine ⟨(findLast_inv t.indx hl.rows_lt (fun y hT hy => ?_) B.indxLinks
      (I := (· < t.rows)) ?_ (fun y _ hn => (B.indxLinks y hn).2) hlast).1, fun _ => by omega⟩
    · rw [← indx_expn (by omega), Nat.sub_add_cancel hT]
    · unfold IpaNatIp4TableCache.rows
      omega

theorem indxLinkRow_lt {x : Nat} (hx : x < t.rows) : t.indxLinkRow x < t.rows := by
  unfold indxLinkRow
  split <;> omega

theorem Bounded.copyRule (B : t.Bounded) {e p : Nat} {link : Bool}
    (hr : t.BoundedRule r) (he : e < t.rows) (hp : p < t.rows)
    (hpe : p ≠ 0 → t.tableEntries ≤ e) : (t.copyRule r e p link).Bounded := by
  have B' := B.setRule he hr
  have hd := sameDims_setRule (t := t) e r
  unfold IpaNatIp4TableCache.copyRule
  split
  · next h =>
    refine B'.setRule (by rw [hd.rows]; exact hp) ?_
    refine ⟨fun _ => ?_, (B'.rule p).prev, (B'.rule p).indx⟩
    rw [hd.tableEntries, hd.rows]
    exact ⟨hpe h.1, he⟩
  · exact B'

theorem Bounded.copyIndx (B : t.Bounded) {v e p : Nat} {link : Bool} (hv : v < t.rows)
    (he : e < t.rows) (hp : p < t.rows) (hpe : p ≠ 0 → t.tableEntries ≤ e) :
    (t.copyIndx v e p link).Bounded := by
  have B' := B.setIndx he (s := { tblEntry := v }) ⟨fun h => absurd rfl h, hv⟩
  have hd := sameDims_setIndx (t := t) e { tblEntry := v }
  unfold IpaNatIp4TableCache.copyIndx
  split
  · next h =>
    refine B'.setIndx (indxLinkRow_lt (by rw [hd.rows]; exact hp)) ?_
    refine ⟨fun _ => ?_, (B'.indx _).tbl⟩
    rw [hd.tableEntries, hd.rows]
    exact ⟨hpe h.1, he⟩
  · exact B'

theorem Bounded.noteMeta (B : t.Bounded) {e p : Nat} (he : e < t.rows) (hp : p < t.rows) :
    (t.noteMeta e p).Bounded := by
  unfold IpaNatIp4TableCache.noteMeta
  split
  · next hT => exact B.setMeta hT he hp
  · exact B

theorem Bounded.placed (hl : t.Layout) (B : t.Bounded) {e p ie ip : Nat} (dma : AddDma)
    (hs : t.RuleSlot (t.dstBucket c) e p) (his : t.IndxSlot (t.srcBucket c) ie ip) :
    (t.placed c e p ie ip dma).Bounded := by
  obtain ⟨hb, hb'⟩ := hl.dstBucket_range c
  obtain ⟨hib, hib'⟩ := hl.srcBucket_range c
  have he := (hs.range hb hb').2
  have hie := (his.range hib hib').2
  obtain ⟨hp, hpe⟩ := hs.prev_lt hl B hb'
  obtain ⟨hip, hipe⟩ := his.prev_lt hl B hib'
  have hd₁ := sameDims_noteMeta (t := t) ie ip
  have B₁ := B.noteMeta hie hip
  have B₂ : ((t.noteMeta ie ip).copyRule
      { c.swRule t.publicAddr with prevIndex := p, indxTblEntry := ie } e p dma.ruleLink).Bounded :=
    B₁.copyRule (hd₁.boundedRule ⟨fun h => absurd rfl h, hp, hie⟩) (by rwa [hd₁.rows])
      (by rwa [hd₁.rows]) (by rwa [hd₁.tableEntries])
  have hd₂ := hd₁.trans (sameDims_copyRule (t := t.noteMeta ie ip)
    { c.swRule t.publicAddr with prevIndex := p, indxTblEntry := ie } e p dma.ruleLink)
  have B₃ : (((t.noteMeta ie ip).copyRule
      { c.swRule t.publicAddr with prevIndex := p, indxTblEntry := ie } e p dma.ruleLink).copyIndx
        e ie ip dma.indexLink).Bounded :=
    B₂.copyIndx (by rwa [hd₂.rows]) (by rwa [hd₂.rows]) (by rwa [hd₂.rows])
      (by rwa [hd₂.tableEntries])
  unfold IpaNatIp4TableCache.placed
  split
  · refine B₃.setRule ?_ ⟨(B₃.rule e).next, (B₃.rule e).prev, (B₃.rule e).indx⟩
    rw [(hd₂.trans (sameDims_copyIndx ..)).rows]
    exact he
  · exact B₃

theorem Bounded.setRuleId (B : t.Bounded) (i v : Nat) : (t.setRuleId i v).Bounded :=
  have hd := sameDims_setRuleId (t := t) i v
  ⟨fun x => hd.boundedRule (B.rule x), fun y => hd.boundedIndx (B.indx y), B.metaPrev⟩

end IpaNatIp4TableCache

/-! ## No access past an array -/

open IpaNatIp4TableCache

variable {t t' : IpaNatIp4TableCache} {c : IpaNatIpv4Rule} {F : Fault → Prop}

section Search

variable {α : Type} {next : α → Nat} {m : Region α} {tableEntries : Nat}

variable {row : Nat → α}

theorem walkToLast_ends (hF : F .diverges) {expnTableEntries : Nat}
    (hm : ∀ y, tableEntries ≤ y → y < tableEntries + expnTableEntries →
      sub16 y tableEntries < m.size ∧ m.get (sub16 y tableEntries) = row y)
    (hlinks : ∀ y, next (row y) ≠ 0 →
      tableEntries ≤ next (row y) ∧ next (row y) < tableEntries + expnTableEntries) {fuel x : Nat}
    (hT : tableEntries ≤ x) (hx : x < tableEntries + expnTableEntries) :
    Ends F (walkToLast next m tableEntries fuel x) fun _ => True := by
  induction fuel generalizing x with
  | zero => exact hF
  | succ fuel ih =>
    obtain ⟨hlt, hrow⟩ := hm x hT hx
    refine Ends.bind_ok (Region.read_ok hlt) ?_
    rw [hrow]
    split
    · exact trivial
    · split
      · exact trivial
      · next hne => exact ih (hlinks x hne).1 (hlinks x hne).2

theorem walkToLast_of_path {fuel x : Nat} {l : List Nat}
    (hm : ∀ y ∈ x :: l, sub16 y tableEntries < m.size ∧ m.get (sub16 y tableEntries) = row y)
    (hp : Path 0 (fun y => next (row y)) x l) (hfuel : l.length < fuel) :
    ∃ r, walkToLast next m tableEntries fuel x = .ok r := by
  induction l generalizing fuel x with
  | nil =>
    obtain ⟨fuel, rfl⟩ : ∃ n, fuel = n + 1 := ⟨fuel - 1, by simp at hfuel; omega⟩
    obtain ⟨hx, hrow⟩ := hm x (by simp)
    have hend : next (row x) = 0 := hp
    rw [walkToLast, Region.read_ok hx, ok_bind, hrow, hend]
    split
    · exact ⟨_, rfl⟩
    · exact ⟨_, rfl⟩
  | cons y l ih =>
    obtain ⟨fuel, rfl⟩ : ∃ n, fuel = n + 1 := ⟨fuel - 1, by simp at hfuel; omega⟩
    obtain ⟨hx, hrow⟩ := hm x (by simp)
    obtain ⟨hnext, hy0, hrest⟩ := hp
    have hnext : next (row x) = y := hnext
    rw [walkToLast, Region.read_ok hx, ok_bind, hrow, hnext]
    split
    · exact ⟨_, rfl⟩
    · exact ih (fun z hz => hm z (List.mem_cons_of_mem _ hz)) hrest (by simpa using hfuel)

theorem findLast_ends (hF : F .diverges) {expnTableEntries head : Nat}
    (hm : ∀ y, tableEntries ≤ y → y < tableEntries + expnTableEntries →
      sub16 y tableEntries < m.size ∧ m.get (sub16 y tableEntries) = row y)
    (hlinks : ∀ y, next (row y) ≠ 0 →
      tableEntries ≤ next (row y) ∧ next (row y) < tableEntries + expnTableEntries) :
    Ends F (findLast next m tableEntries expnTableEntries head (row head)) fun _ => True := by
  unfold findLast
  split
  · exact trivial
  · next hne => exact walkToLast_ends hF hm hlinks (hlinks head hne).1 (hlinks head hne).2

theorem findLast_of_path {expnTableEntries head : Nat} {l : List Nat}
    (hm : ∀ y ∈ l, sub16 y tableEntries < m.size ∧ m.get (sub16 y tableEntries) = row y)
    (hp : Path 0 (fun y => next (row y)) head l) (hlen : l.length ≤ expnTableEntries) :
    Ends F (findLast next m tableEntries expnTableEntries head (row head)) fun _ => True := by
  unfold findLast
  split
  · exact trivial
  · next hne =>
    cases l with
    | nil => exact absurd hp hne
    | cons y l =>
      obtain ⟨hnext, -, hrest⟩ := hp
      have hnext : next (row head) = y := hnext
      obtain ⟨r, hr⟩ := walkToLast_of_path hm hrest (by simpa using hlen)
      rw [hnext, hr]
      exact trivial

end Search

/-- The walks of an addition, which it makes where a base row is taken, end as `F` allows. -/
structure Walks (t : IpaNatIp4TableCache) (c : IpaNatIpv4Rule) (F : Fault → Prop) : Prop where
  rule : (t.rule (t.dstBucket c)).enable = true →
    Ends F (findLast IpaNatRule.nextIndex t.ipv4ExpnRules t.tableEntries t.expnTableEntries
      (t.dstBucket c) (t.rule (t.dstBucket c))) fun _ => True
  indx : (t.indx (t.srcBucket c)).tblEntry ≠ 0 →
    Ends F (findLast IpaNatIndxTblRule.nextIndex t.indexTableExpn t.tableEntries
      t.expnTableEntries (t.srcBucket c) (t.indx (t.srcBucket c))) fun _ => True

variable {y : Nat}

theorem expn_get (hl : t.Layout) (hT : t.tableEntries ≤ y) (hy : y < t.rows) :
    (sub16 y t.tableEntries < t.ipv4ExpnRules.size ∧
      t.ipv4ExpnRules.get (sub16 y t.tableEntries) = t.rule y) ∧
      sub16 y t.tableEntries < t.indexTableExpn.size ∧
        t.indexTableExpn.get (sub16 y t.tableEntries) = t.indx y := by
  have hE : y - t.tableEntries < t.expnTableEntries := by
    unfold IpaNatIp4TableCache.rows at hy
    omega
  rw [sub16_eq hT (lt_trans hy hl.rows_lt), hl.sized.ipv4ExpnRules, hl.sized.indexTableExpn,
    ← rule_expn hE, ← indx_expn hE, Nat.sub_add_cancel hT]
  exact ⟨⟨hE, rfl⟩, hE, rfl⟩

theorem Walks.of_bounded (hl : t.Layout) (B : t.Bounded) (c : IpaNatIpv4Rule)
    (hF : F .diverges) : Walks t c F where
  rule _ := findLast_ends hF (fun _ hT hy => (expn_get hl hT hy).1) B.ruleLinks
  indx _ := findLast_ends hF (fun _ hT hy => (expn_get hl hT hy).2) B.indxLinks

theorem Walks.of_slots {e p ie ip : Nat} (hs : t.RuleSlot (t.dstBucket c) e p)
    (his : t.IndxSlot (t.srcBucket c) ie ip) : Walks t c F where
  rule hocc := by
    cases hs with
    | base hfree => simp [hfree] at hocc
    | expn _ hlast => rw [hlast]; exact trivial
  indx hocc := by
    cases his with
    | base hfree => exact absurd hfree hocc
    | expn _ hlast => rw [hlast]; exact trivial

/-- The expansion rows, as the nodes the chains of a table are made of. -/
def expnRows (t : IpaNatIp4TableCache) : Finset Nat := Finset.Ico t.tableEntries t.rows

theorem card_expnRows (t : IpaNatIp4TableCache) : (expnRows t).card = t.expnTableEntries := by
  unfold expnRows IpaNatIp4TableCache.rows
  rw [Nat.card_Ico]
  omega

theorem Walks.of_threaded (hl : t.Layout) (R : t.RuleThreaded) (X : t.IndxThreaded)
    (c : IpaNatIpv4Rule) : Walks t c F where
  rule _ := by
    obtain ⟨l, hp, -, hlen⟩ := R.exists_path (expnRows t)
      (fun x hx ho => Finset.mem_Ico.2 ⟨Nat.not_lt.1 hx, ruleOcc_lt ho⟩)
      (h := t.dstBucket c) (hl.dstBucket_range c).2
    rw [card_expnRows] at hlen
    refine findLast_of_path (fun y hy => ?_) hp hlen
    obtain ⟨hnh, ho⟩ := R.mem_path hp hy
    exact (expn_get hl (Nat.not_lt.1 hnh) (ruleOcc_lt ho)).1
  indx _ := by
    obtain ⟨l, hp, -, hlen⟩ := X.exists_path (expnRows t)
      (fun x hx ho => Finset.mem_Ico.2 ⟨Nat.not_lt.1 hx, indxOcc_lt ho⟩)
      (h := t.srcBucket c) (hl.srcBucket_range c).2
    rw [card_expnRows] at hlen
    refine findLast_of_path (fun y hy => ?_) hp hlen
    obtain ⟨hnh, ho⟩ := X.mem_path hp hy
    exact (expn_get hl (Nat.not_lt.1 hnh) (indxOcc_lt ho)).2

/-! ### Additions -/

theorem firstFree_ends {α : Type} (free : α → Bool) {m : Region α} {size : Nat}
    (h1 : 1 ≤ size) (hm : m.size = size) :
    Ends F (firstFree free m (size - 1) 1) fun _ => True := by
  have hn : 1 + (size - 1) ≤ m.size := by omega
  obtain ⟨r, hr⟩ := firstFree_ok free hn
  rw [hr]
  exact trivial

theorem ipaNatiExpnTblFreeEntry_ends (hl : t.Layout) :
    Ends F (ipaNatiExpnTblFreeEntry t.ipv4ExpnRules t.expnTableEntries) fun _ => True :=
  (firstFree_ends _ hl.expn_pos hl.sized.ipv4ExpnRules).bind fun _ _ _ => Ends.ok trivial

theorem ipaNatiIndexExpnGetFreeEntry_ends (hl : t.Layout) :
    Ends F (ipaNatiIndexExpnGetFreeEntry t.indexTableExpn t.expnTableEntries) fun _ => True :=
  (firstFree_ends _ hl.expn_pos hl.sized.indexTableExpn).bind fun _ _ _ => Ends.ok trivial

theorem ipaNatiGenerateTblRule_ends (hl : t.Layout) (W : Walks t c F) :
    Ends F (ipaNatiGenerateTblRule t c) fun _ => True := by
  have hb := (hl.dstBucket_range c).2
  refine Ends.bind_ok (Region.read_ok (by rwa [hl.sized.ipv4Rules])) ?_
  rw [← rule_base hb]
  split
  · next hocc =>
    refine (W.rule hocc).bind fun last _ _ => ?_
    cases last with
    | none => exact trivial
    | some p =>
      refine (ipaNatiExpnTblFreeEntry_ends hl).bind fun f _ _ => ?_
      split <;> exact trivial
  · exact trivial

theorem ipaNatiGenerateIndexRule_ends (hl : t.Layout) (W : Walks t c F) (e : Nat) :
    Ends F (ipaNatiGenerateIndexRule t c e) fun _ => True := by
  have hb := (hl.srcBucket_range c).2
  refine Ends.bind_ok (Region.read_ok (by rwa [hl.sized.indexTable])) ?_
  rw [← indx_base hb]
  split
  · exact trivial
  · next hocc =>
    refine (W.indx hocc).bind fun last _ _ => ?_
    cases last with
    | none => exact trivial
    | some p =>
      refine (ipaNatiIndexExpnGetFreeEntry_ends hl).bind fun f _ _ => ?_
      split
      · exact trivial
      · split <;> exact trivial

theorem ipaNatiGenerateRule_ends (hl : t.Layout) (W : Walks t c F) :
    Ends F (ipaNatiGenerateRule t c) fun _ => True := by
  refine (ipaNatiGenerateTblRule_ends hl W).bind fun ⟨r, e⟩ _ _ => ?_
  dsimp only
  split
  · exact trivial
  refine (ipaNatiGenerateIndexRule_ends hl W e).bind fun ⟨s, ie⟩ hindx _ => ?_
  split
  · exact trivial
  · next hie =>
    obtain ⟨ip, his, -⟩ := ipaNatiGenerateIndexRule_cases hl hindx hie
    obtain ⟨hib, hib'⟩ := hl.srcBucket_range c
    split
    · next hT =>
      exact Ends.bind_ok (writeMeta_eq hl.sized hT (his.range hib hib').2 _) trivial
    · exact trivial

variable {ok : Bool} {e : Nat}

theorem ipaNatiCopyIpv4RuleToHw_ends (hl : t.Layout) {r : IpaNatRule} (he : e < t.rows)
    (hp : r.prevIndex < t.rows) : Ends F (ipaNatiCopyIpv4RuleToHw t r e ok) fun _ => True := by
  have hd := sameDims_setRule (t := t) e r
  refine Ends.bind_ok ((hl.sized.writeRule_eq e r).trans (if_pos he)) ?_
  split
  · exact trivial
  unfold ipaNatiWriteNextIndex
  rw [ioctlNatDma_single]
  split
  · have hdma := (hd.layout hl).sized.dmaWrite_ruleAddr (hd.layout hl).tblAddrOffset r.prevIndex e
      (k := 4) (by omega)
    rw [show ipaNatRuleNextFieldOffset = 2 * 4 from rfl, hdma, if_pos (by rwa [hd.rows])]
    exact trivial
  · exact trivial

theorem ipaNatiCopyIpv4IndexRuleToHw_ends (hl : t.Layout) {s : IpaNatIndxTblSwRule}
    (he : e < t.rows) (hp : s.prevIndex < t.rows) :
    Ends F (ipaNatiCopyIpv4IndexRuleToHw t s e ok) fun _ => True := by
  have hd := sameDims_setIndx (t := t) e ⟨s.tblEntry, s.nextIndex⟩
  refine Ends.bind_ok ((hl.sized.writeIndx_eq e _).trans (if_pos he)) ?_
  split
  · exact trivial
  unfold ipaNatiWriteNextIndex
  rw [ioctlNatDma_single]
  split
  · obtain ⟨haddr, hoff⟩ := indxLink_offset (hd.layout hl).tblAddrOffset s.prevIndex
    rw [haddr, hoff, (hd.layout hl).sized.dmaWrite_indxAddr (hd.layout hl).tblAddrOffset _ _
      (by omega), if_pos (indxLinkRow_lt (by rwa [hd.rows]))]
    exact trivial
  · exact trivial

theorem ipaNatiPostIpv4DmaCmd_ends (hl : t.Layout) (he : e < t.rows) :
    Ends F (ipaNatiPostIpv4DmaCmd t e ok) fun _ => True := by
  unfold ipaNatiPostIpv4DmaCmd
  rw [postCmd_eq hl, ioctlNatDma_single]
  split
  · rw [hl.sized.dmaWrite_ruleAddr hl.tblAddrOffset _ _ (by omega), if_pos he]
    exact trivial
  · exact trivial

theorem writeRuleId_ok {i : Nat} (hi : i < t.ruleIdArray.size) (v : Nat) :
    t.writeRuleId i v = .ok (t.setRuleId i v) := by
  unfold writeRuleId
  rw [Region.write_ok hi]
  rfl

theorem ipaNatiMakeRuleHdl_ends (hl : t.Layout) (e : Nat) :
    Ends F (ipaNatiMakeRuleHdl t e) fun _ => True := by
  have hn : 0 + t.rows ≤ t.ruleIdArray.size := by rw [hl.sized.ruleIdArray, Nat.zero_add]
  obtain ⟨slot, hslot⟩ := firstFree_ok (· == 0) hn
  refine Ends.bind_ok hslot ?_
  cases slot with
  | none => exact trivial
  | some i =>
    have hi := (firstFree_some hslot).2.2.1
    exact Ends.bind_ok (writeRuleId_ok hi _) trivial

theorem ipaNatiPostIpv4DmaCmd_sameDims (hl : t.Layout)
    (h : ipaNatiPostIpv4DmaCmd t e ok = .ok t') : SameDims t t' := by
  rw [ipaNatiPostIpv4DmaCmd_cases hl h]
  split
  · exact sameDims_enableRule e
  · exact .refl t

/-- **An addition to a bounded table makes no access past an array**; it returns where its walks
    do. -/
theorem ipaNatiAddIpv4Rule_ends (hl : t.Layout) (B : t.Bounded) (W : Walks t c F) (dma : AddDma) :
    Ends F (ipaNatiAddIpv4Rule t c dma) fun _ => True := by
  refine (ipaNatiGenerateRule_ends hl W).bind fun ⟨t₁, gen⟩ hgen _ => ?_
  rcases ipaNatiGenerateRule_cases hl hgen with ⟨rfl, rfl⟩ | ⟨e, p, ie, ip, hs, his, rfl, rfl⟩
  · exact trivial
  obtain ⟨hb, hb'⟩ := hl.dstBucket_range c
  obtain ⟨hib, hib'⟩ := hl.srcBucket_range c
  have he := (hs.range hb hb').2
  have hie := (his.range hib hib').2
  have hd₁ := sameDims_noteMeta (t := t) ie ip
  have hl₁ := hd₁.layout hl
  refine (ipaNatiCopyIpv4RuleToHw_ends hl₁ (by rwa [hd₁.rows])
    (by rw [hd₁.rows]; exact (hs.prev_lt hl B hb').1)).bind fun t₂ hrule _ => ?_
  obtain rfl := ipaNatiCopyIpv4RuleToHw_cases hl₁ hrule
  have hd₂ := hd₁.trans (sameDims_copyRule (t := t.noteMeta ie ip)
    { c.swRule t.publicAddr with prevIndex := p, indxTblEntry := ie } e p dma.ruleLink)
  refine (ipaNatiCopyIpv4IndexRuleToHw_ends (hd₂.layout hl) (by rwa [hd₂.rows])
    (by rw [hd₂.rows]; exact (his.prev_lt hl B hib').1)).bind fun t₃ hindx _ => ?_
  obtain rfl := ipaNatiCopyIpv4IndexRuleToHw_cases (hd₂.layout hl) rfl hindx
  have hd₃ := hd₂.trans (sameDims_copyIndx (t := (t.noteMeta ie ip).copyRule
    { c.swRule t.publicAddr with prevIndex := p, indxTblEntry := ie } e p dma.ruleLink)
    e ie ip dma.indexLink)
  refine (ipaNatiPostIpv4DmaCmd_ends (hd₃.layout hl) (by rwa [hd₃.rows])).bind fun t₄ hpost _ => ?_
  split
  · have hd₄ := hd₃.trans (ipaNatiPostIpv4DmaCmd_sameDims (hd₃.layout hl) hpost)
    refine (ipaNatiMakeRuleHdl_ends (hd₄.layout hl) e).bind fun ⟨t₅, hdl⟩ _ _ => ?_
    dsimp only
    split <;> exact trivial
  · exact trivial

/-! ### Deletions -/

/-- A command for a word of a row of the table that keeps its rows bounded: it clears the row, kills
    it, or gives it a row number it may have. -/
inductive RowCmd (t : IpaNatIp4TableCache) : IpaIocNatDmaOne → Prop
  | rule {x k v : Nat} (hx : x < t.rows) (hk : k = 9 ∨ k = 11 ∨
      k = 4 ∧ (v ≠ 0 → t.tableEntries ≤ v ∧ v < t.rows)) :
      RowCmd t ⟨(t.ruleAddr x).1, ipaNatiGetEntryOffset t (t.ruleAddr x).2 + 2 * k, v⟩
  | indx {x k v : Nat} (hx : x < t.rows) (hk : k = 0 ∧ v < t.rows ∨
      k = 1 ∧ (v ≠ 0 → t.tableEntries ≤ v ∧ v < t.rows)) :
      RowCmd t ⟨(t.indxAddr x).1, ipaNatiGetIndexEntryOffset t (t.indxAddr x).2 + 2 * k, v⟩

theorem RowCmd.congr {d : IpaIocNatDmaOne} (h : SameDims t t') (hd : RowCmd t d) : RowCmd t' d := by
  have hT := h.tableEntries
  have hrows := h.rows
  have ho := h.tblAddrOffset
  cases hd with
  | @rule x k v hx hk =>
    have hcmd : (⟨(t.ruleAddr x).1, ipaNatiGetEntryOffset t (t.ruleAddr x).2 + 2 * k, v⟩ :
        IpaIocNatDmaOne) =
        ⟨(t'.ruleAddr x).1, ipaNatiGetEntryOffset t' (t'.ruleAddr x).2 + 2 * k, v⟩ := by
      unfold ruleAddr ipaNatiGetEntryOffset
      rw [hT, ho]
    rw [hcmd]
    exact .rule (by rwa [hrows]) (by rwa [hT, hrows])
  | @indx x k v hx hk =>
    have hcmd : (⟨(t.indxAddr x).1, ipaNatiGetIndexEntryOffset t (t.indxAddr x).2 + 2 * k, v⟩ :
        IpaIocNatDmaOne) =
        ⟨(t'.indxAddr x).1, ipaNatiGetIndexEntryOffset t' (t'.indxAddr x).2 + 2 * k, v⟩ := by
      unfold indxAddr ipaNatiGetIndexEntryOffset
      rw [hT, ho]
    rw [hcmd]
    exact .indx (by rwa [hrows]) (by rwa [hT, hrows])

theorem RowCmd.ends {d : IpaIocNatDmaOne} (hl : t.Layout) (B : t.Bounded) (hd : RowCmd t d) :
    Ends F (dmaWrite t d) fun t' => SameDims t t' ∧ t'.Bounded := by
  cases hd with
  | @rule x k v hx hk =>
    have hr := B.rule x
    rw [hl.sized.dmaWrite_ruleAddr hl.tblAddrOffset x v (by omega), if_pos hx]
    refine ⟨sameDims_setRule x _, B.setRule hx ?_⟩
    rcases hk with rfl | rfl | ⟨rfl, hv⟩
    · simp only [IpaNatRule.writeHalf]
      exact ⟨hr.next, hr.prev, hr.indx⟩
    · simp only [IpaNatRule.writeHalf]
      exact ⟨hr.next, hr.prev, hr.indx⟩
    · simp only [IpaNatRule.writeHalf]
      exact ⟨hv, hr.prev, hr.indx⟩
  | @indx x k v hx hk =>
    have hs := B.indx x
    rw [hl.sized.dmaWrite_indxAddr hl.tblAddrOffset x v (by omega), if_pos hx]
    refine ⟨sameDims_setIndx x _, B.setIndx hx ?_⟩
    rcases hk with ⟨rfl, hv⟩ | ⟨rfl, hv⟩
    · exact ⟨hs.next, hv⟩
    · exact ⟨hv, hs.tbl⟩

theorem RowCmd.foldlM_ends {cmds : List IpaIocNatDmaOne} (hl : t.Layout) (B : t.Bounded)
    (hcmds : ∀ d ∈ cmds, RowCmd t d) :
    Ends F (cmds.foldlM dmaWrite t) fun t' => SameDims t t' ∧ t'.Bounded := by
  refine Ends.foldlM ⟨.refl t, B⟩ fun t₁ ⟨hd₁, B₁⟩ d hd => ?_
  refine ((hcmds d hd).congr hd₁).ends (hd₁.layout hl) B₁ |>.imp fun t₂ _ ⟨hd₂, B₂⟩ => ?_
  exact ⟨hd₁.trans hd₂, B₂⟩

variable {cur x n : Nat} {expnTbl : Bool}

theorem rowCmd_ruleDelCmd (B : t.Bounded) (hcur : expnTbl = false → cur < t.tableEntries)
    (hx : x = t.rowOf expnTbl cur) (hxr : x < t.rows) :
    RowCmd t (ruleDelCmd t cur (t.rule x) (delType (!expnTbl) (t.rule x).nextIndex)) := by
  have hr := B.rule x
  cases expnTbl with
  | false =>
    have hT := hcur rfl
    obtain rfl : x = cur := hx
    have haddr : t.ruleAddr x = (.ipaNatBaseTbl, x) := if_pos hT
    by_cases hn : (t.rule x).nextIndex = 0
    · have := RowCmd.rule (v := ipaNatFlagDisableBitMask) hxr (Or.inl rfl)
      rw [haddr] at this
      simpa [delType, hn, ruleDelCmd, ipaNatRuleFlagFieldOffset] using this
    · have := RowCmd.rule (v := ipaNatInvalidProtoFieldValue) hxr (Or.inr (Or.inl rfl))
      rw [haddr] at this
      simpa [delType, hn, ruleDelCmd, ipaNatRuleProtoFieldOffset] using this
  | true =>
    have := RowCmd.rule (t := t) (v := (t.rule x).nextIndex) hr.prev (Or.inr (Or.inr ⟨rfl, hr.next⟩))
    by_cases hn : (t.rule x).nextIndex = 0
    · simpa [delType, hn, ruleDelCmd, ruleNextCmd, ipaNatRuleNextFieldOffset] using this
    · simpa [delType, hn, ruleDelCmd, ruleNextCmd, ipaNatRuleNextFieldOffset] using this

theorem indxNextEntry_eq (hl : t.Layout) (B : t.Bounded) (hT : y < t.tableEntries)
    (hn : (t.indx y).nextIndex ≠ 0) :
    indxNextEntry t y = .ok ((t.indx y).nextIndex - t.tableEntries) ∧
      (t.indx y).nextIndex - t.tableEntries < t.expnTableEntries := by
  obtain ⟨hle, hlt⟩ := B.indxLinks y hn
  constructor
  · unfold indxNextEntry
    rw [indexTable_read hl.sized hT, ok_bind, sub16_eq hle (lt_trans hlt hl.rows_lt)]
  · unfold IpaNatIp4TableCache.rows at hlt
    omega

theorem indxDelCmds_ends (hl : t.Layout) (B : t.Bounded) (hy : y < t.rows) :
    Ends F (indxDelCmds t y (delType (y < t.tableEntries) (t.indx y).nextIndex))
      fun ds => ∀ d ∈ ds, RowCmd t d := by
  have hs := B.indx y
  by_cases hT : y < t.tableEntries
  · have haddr : t.indxAddr y = (.ipaNatIndxTbl, y) := if_pos hT
    have hcmd : ∀ {k v : Nat}, (k = 0 ∧ v < t.rows ∨
        k = 1 ∧ (v ≠ 0 → t.tableEntries ≤ v ∧ v < t.rows)) →
        RowCmd t ⟨.ipaNatIndxTbl, ipaNatiGetIndexEntryOffset t y + 2 * k, v⟩ := by
      intro k v hk
      have := RowCmd.indx hy hk
      rwa [haddr] at this
    by_cases hn : (t.indx y).nextIndex = 0
    · simp only [hT, decide_true, hn, delType, ↓reduceIte, indxDelCmds]
      refine Ends.ok fun d hd => ?_
      obtain rfl := List.mem_singleton.1 hd
      exact hcmd (Or.inl ⟨rfl, hl.rows_pos⟩)
    · obtain ⟨hentry, hE⟩ := indxNextEntry_eq hl B hT hn
      simp only [hT, decide_true, hn, delType, ↓reduceIte, indxDelCmds]
      refine Ends.bind_ok hentry ?_
      refine Ends.bind_ok (Region.read_ok (by rwa [hl.sized.indexTableExpn])) ?_
      rw [← indx_expn hE]
      refine Ends.ok fun d hd => ?_
      simp only [List.mem_cons, List.not_mem_nil, or_false] at hd
      rcases hd with rfl | rfl
      · exact hcmd (Or.inl ⟨rfl, (B.indx _).tbl⟩)
      · exact hcmd (Or.inr ⟨rfl, (B.indx _).next⟩)
  · have hT' := Nat.not_lt.1 hT
    have hcmd : RowCmd t (indxNextCmd t (t.metaPrev y) (t.indx y).nextIndex) :=
      RowCmd.indx (B.metaPrev y) (Or.inr ⟨rfl, hs.next⟩)
    by_cases hn : (t.indx y).nextIndex = 0
    · simp only [hT, decide_false, hn, delType, ↓reduceIte, indxDelCmds]
      refine Ends.bind_ok (meta_read hl.sized hT' hy) (Ends.ok fun d hd => ?_)
      obtain rfl := List.mem_singleton.1 hd
      rwa [hn] at hcmd
    · simp only [hT, decide_false, hn, delType, ↓reduceIte, indxDelCmds]
      refine Ends.bind_ok (meta_read hl.sized hT' hy) ?_
      refine Ends.bind_ok (indexTableExpn_read hl.sized hT' hy) (Ends.ok fun d hd => ?_)
      obtain rfl := List.mem_singleton.1 hd
      exact hcmd

theorem delType_eq_middle {b : Bool} (h : delType b n = .middle) : b = false ∧ n ≠ 0 := by
  unfold delType at h
  cases b with
  | true => simp only [↓reduceIte] at h; split at h <;> cases h
  | false => exact ⟨rfl, fun hn => by simp [hn] at h⟩

theorem delType_eq_head {b : Bool} (h : delType b n = .head) : b = true ∧ n ≠ 0 := by
  unfold delType at h
  cases b with
  | true => exact ⟨rfl, fun hn => by simp [hn] at h⟩
  | false => simp only [Bool.false_eq_true, ↓reduceIte] at h; split at h <;> cases h

theorem ruleTbl_read_ok (hs : t.Sized) (hcur : expnTbl = false → cur < t.tableEntries)
    (hx : x = t.rowOf expnTbl cur) (hxr : x < t.rows) :
    (t.ruleTbl expnTbl).read cur = .ok (t.rule x) := by
  cases expnTbl with
  | false =>
    obtain rfl : x = cur := hx
    rw [rule_base (hcur rfl)]
    exact Region.read_ok (by rw [← hs.ipv4Rules] at hcur; exact hcur rfl)
  | true =>
    obtain rfl : x = cur + t.tableEntries := hx
    have hE : cur < t.expnTableEntries := by
      unfold IpaNatIp4TableCache.rows at hxr
      omega
    rw [rule_expn hE]
    exact Region.read_ok (by rw [← hs.ipv4ExpnRules] at hE; exact hE)

theorem ipaNatiFindIndexRulePos_ok (hs : t.Sized) (hy : y < t.rows) :
    ipaNatiFindIndexRulePos t y = .ok (delType (y < t.tableEntries) (t.indx y).nextIndex) := by
  unfold ipaNatiFindIndexRulePos
  rw [hs.readIndx_eq, if_pos hy, ok_bind]
  by_cases hT : y < t.tableEntries
  · simp [delType, hT, Nat.not_le.2 hT]
  · simp [delType, hT, Nat.not_lt.1 hT]

variable {pos : DelType}

theorem copiedEntry_ends (hl : t.Layout) (B : t.Bounded)
    (hpos : pos = delType (y < t.tableEntries) (t.indx y).nextIndex) :
    Ends F (copiedEntry t y pos) fun nextEntry =>
      pos = .head → y < t.tableEntries ∧ nextEntry < t.expnTableEntries := by
  cases pos with
  | onlyOne | middle | last => exact fun h => by cases h
  | head =>
    obtain ⟨hT, hn⟩ := delType_eq_head hpos.symm
    have hT : y < t.tableEntries := by simpa using hT
    obtain ⟨hentry, hE⟩ := indxNextEntry_eq hl B hT hn
    unfold copiedEntry
    rw [hentry]
    exact fun _ => ⟨hT, hE⟩

theorem ruleDelUpdate_ends (hl : t.Layout) (B : t.Bounded)
    (hcur : expnTbl = false → cur < t.tableEntries) (hx : x = t.rowOf expnTbl cur)
    (hxr : x < t.rows) (hmiddle : pos = .middle → expnTbl = true ∧ (t.rule x).nextIndex ≠ 0) :
    Ends F (ruleDelUpdate t cur expnTbl pos) fun t' => SameDims t t' ∧ t'.Bounded := by
  have hclear : pos = .onlyOne ∨ pos = .last →
      Ends F (ruleDelUpdate t cur expnTbl pos) fun t' => SameDims t t' ∧ t'.Bounded := by
    intro hpos
    rw [ruleDelUpdate_clear hcur hpos, ← hx, hl.sized.writeRule_eq, if_pos hxr]
    exact ⟨sameDims_setRule x {}, B.setRule hxr hl.boundedRule_empty⟩
  cases pos with
  | onlyOne => exact hclear (Or.inl rfl)
  | last => exact hclear (Or.inr rfl)
  | head => exact ⟨.refl t, B⟩
  | middle =>
    obtain ⟨rfl, hn⟩ := hmiddle rfl
    have hxE : x = cur + t.tableEntries := hx
    obtain ⟨hle, hlt⟩ := B.ruleLinks x hn
    have hE : (t.rule x).nextIndex - t.tableEntries < t.expnTableEntries := by
      unfold IpaNatIp4TableCache.rows at hlt
      omega
    have hread := ruleTbl_read_ok hl.sized hcur hx hxr
    have hcurE : cur < t.expnTableEntries := by
      unfold IpaNatIp4TableCache.rows at hxr
      omega
    have hmod := Region.modify_ok (m := t.ipv4ExpnRules)
      (i := sub16 (t.rule x).nextIndex t.tableEntries)
      (by rwa [sub16_eq hle (lt_trans hlt hl.rows_lt), hl.sized.ipv4ExpnRules])
      fun r => { r with prevIndex := (t.rule x).prevIndex }
    have hok : Ends F (ruleDelUpdate t cur true .middle) fun _ => True := by
      refine Ends.bind_ok hread (Ends.bind_ok hmod ?_)
      refine Ends.bind_ok (Region.write_ok ?_ _) trivial
      rwa [Region.size_set, hl.sized.ipv4ExpnRules]
    refine hok.imp fun t' ht' _ => ?_
    have hrow : t.rowOf true cur = x := hx.symm
    have ht' := ruleDelUpdate_middle hl (by rw [hrow]) hle hlt ht'
    rw [hrow] at ht'
    rw [ht']
    have hr := B.rule (t.rule x).nextIndex
    have hd := sameDims_setRule (t := t) (t.rule x).nextIndex
      { t.rule (t.rule x).nextIndex with prevIndex := (t.rule x).prevIndex }
    have B' : (t.setRule (t.rule x).nextIndex { t.rule (t.rule x).nextIndex with
        prevIndex := (t.rule x).prevIndex }).Bounded :=
      B.setRule hlt ⟨hr.next, (B.rule x).prev, hr.indx⟩
    refine ⟨hd.trans (sameDims_setRule x {}), B'.setRule ?_ (hd.layout hl).boundedRule_empty⟩
    rwa [hd.rows]

theorem updateNextNext_ends (hl : t.Layout) (B : t.Bounded) {next y : Nat}
    (hnext : next ≠ 0 → t.tableEntries ≤ next ∧ next < t.rows) (hy : y < t.rows) :
    Ends F (updateNextNext t next y) fun t' => SameDims t t' ∧ t'.Bounded := by
  unfold updateNextNext
  split
  · next h =>
    obtain ⟨hT, hlt⟩ := hnext h.1
    rw [writeMeta_eq hl.sized hT hlt]
    exact ⟨sameDims_setMeta next y, B.setMeta hT hlt hy⟩
  · exact ⟨.refl t, B⟩

theorem writeIndx_ends (hl : t.Layout) (B : t.Bounded) (hy : y < t.rows) :
    Ends F (t.writeIndx y {}) fun t' => SameDims t t' ∧ t'.Bounded := by
  rw [hl.sized.writeIndx_eq, if_pos hy]
  exact ⟨sameDims_setIndx y {}, B.setIndx hy hl.boundedIndx_empty⟩

theorem updateIndxTblEntry_ends (hl : t.Layout) (B : t.Bounded) {z y : Nat} (hz : z < t.rows)
    (hy : y < t.rows) : Ends F (updateIndxTblEntry t z y) fun t' => SameDims t t' ∧ t'.Bounded := by
  refine Ends.bind_ok ((hl.sized.readRule_eq z).trans (if_pos hz)) ?_
  rw [hl.sized.writeRule_eq, if_pos hz]
  exact ⟨sameDims_setRule z _, B.setRule hz ⟨(B.rule z).next, (B.rule z).prev, hy⟩⟩

/-- The last step for the index table stays in it; a head is a base row, with a row behind it, and
    other rows that link on are expansion rows. -/
theorem indxDelUpdate_ends (hl : t.Layout) (B : t.Bounded) {y nextEntry : Nat} (hy : y < t.rows)
    (hhead : pos = .head → y < t.tableEntries ∧ nextEntry < t.expnTableEntries)
    (hmiddle : pos = .middle → t.tableEntries ≤ y) :
    Ends F (indxDelUpdate t y nextEntry pos) fun t' => SameDims t t' ∧ t'.Bounded := by
  cases pos with
  | onlyOne => exact writeIndx_ends hl B hy
  | last => exact writeIndx_ends hl B hy
  | head =>
    obtain ⟨hT, hE⟩ := hhead rfl
    refine Ends.bind_ok (Region.read_ok (by rwa [hl.sized.indexTableExpn])) ?_
    rw [← indx_expn hE]
    refine (updateNextNext_ends hl B (B.indxLinks _) hy).bind fun t₁ _ ⟨hd₁, B₁⟩ => ?_
    have hl₁ := hd₁.layout hl
    have hE₁ : nextEntry < t₁.expnTableEntries := by rwa [hd₁.expnTableEntries]
    refine Ends.bind_ok (Region.write_ok (by rwa [hl₁.sized.indexTableExpn]) _) ?_
    have hset : ({ t₁ with indexTableExpn := t₁.indexTableExpn.set nextEntry {} } :
        IpaNatIp4TableCache) = t₁.setIndx (nextEntry + t₁.tableEntries) {} := by
      unfold setIndx
      rw [if_neg (by omega), Nat.add_sub_cancel]
    rw [hset]
    have hlt₁ : nextEntry + t₁.tableEntries < t₁.rows := by
      unfold IpaNatIp4TableCache.rows
      omega
    have hd₂ := hd₁.trans (sameDims_setIndx (t := t₁) (nextEntry + t₁.tableEntries) {})
    have B₂ := B₁.setIndx hlt₁ hl₁.boundedIndx_empty
    have hl₂ := hd₂.layout hl
    refine Ends.bind_ok (indexTable_read hl₂.sized (by rwa [hd₂.tableEntries])) ?_
    refine (updateIndxTblEntry_ends hl₂ B₂ (B₂.indx y).tbl (by rwa [hd₂.rows])).imp
      fun t₃ _ ⟨hd₃, B₃⟩ => ?_
    exact ⟨hd₂.trans hd₃, B₃⟩
  | middle =>
    have hT := hmiddle rfl
    refine Ends.bind_ok (indexTableExpn_read hl.sized hT hy) ?_
    refine Ends.bind_ok (meta_read hl.sized hT hy) ?_
    -- the successor's place in the expansion table; a row without one writes place 0
    obtain ⟨n, hn, hnT, hnr⟩ : ∃ n, (if t.tableEntries ≤ (t.indx y).nextIndex
        then (t.indx y).nextIndex - t.tableEntries else (t.indx y).nextIndex) =
          n - t.tableEntries ∧ t.tableEntries ≤ n ∧ n < t.rows := by
      by_cases h0 : (t.indx y).nextIndex = 0
      · refine ⟨t.tableEntries, ?_, le_rfl, lt_of_le_of_lt hT hy⟩
        rw [h0, if_neg (by have := hl.two_le; omega), Nat.sub_self]
      · obtain ⟨hle, hlt⟩ := B.indxLinks y h0
        exact ⟨_, if_pos hle, hle, hlt⟩
    rw [hn]
    have hd₁ := sameDims_setMeta (t := t) n (t.metaPrev y)
    have B₁ := B.setMeta hnT hnr (B.metaPrev y)
    refine Ends.bind_ok (writeMeta_eq hl.sized hnT hnr _) ?_
    have hT₁ : (t.setMeta n (t.metaPrev y)).tableEntries ≤ y := by rwa [hd₁.tableEntries]
    have hy₁ : y < (t.setMeta n (t.metaPrev y)).rows := by rwa [hd₁.rows]
    have hl₁ := hd₁.layout hl
    refine Ends.bind_ok (writeMeta_eq hl₁.sized hT₁ hy₁ _) ?_
    have hd₂ := hd₁.trans (sameDims_setMeta (t := t.setMeta n (t.metaPrev y)) y 0)
    have B₂ := B₁.setMeta hT₁ hy₁ (v := 0) hl₁.rows_pos
    refine (writeIndx_ends (hd₂.layout hl) B₂ (by rwa [hd₂.rows])).imp fun t₃ _ ⟨hd₃, B₃⟩ => ?_
    exact ⟨hd₂.trans hd₃, B₃⟩

theorem delBatch_next (hl : t.Layout) {ds : List IpaIocNatDmaOne}
    (hne : ds ≠ []) (hall : ∀ d ∈ ds, isIndxCmd d = true)
    (h : (reorderCmds (ruleDelCmd t cur (t.rule x)
      (delType (!true) (t.rule x).nextIndex) :: ds)).foldlM dmaWrite t = .ok t') :
    (t'.rule x).nextIndex = (t.rule x).nextIndex := by
  obtain ⟨t₁, -, hsame, hdma⟩ := delBatch_split hne hall h
  rw [← hsame.rule] at hdma ⊢
  have hcur : true = false → cur < t₁.tableEntries := fun h => absurd h (by simp)
  obtain ⟨hp, rfl⟩ := dmaWrite_ruleDelCmd (hsame.dims.layout hl) hcur hdma
  rw [rule_setRule hp]
  split <;> rfl

theorem ipaNatiPostDelDmaCmd_ends (hl : t.Layout) (B : t.Bounded)
    (hcur : expnTbl = false → cur < t.tableEntries) (hx : x = t.rowOf expnTbl cur)
    (hxr : x < t.rows) (hpos : pos = delType (!expnTbl) (t.rule x).nextIndex) (ok : Bool) :
    Ends F (ipaNatiPostDelDmaCmd t cur expnTbl pos ok) fun r => SameDims t r.1 := by
  have hie := (B.rule x).indx
  refine Ends.bind_ok (ruleTbl_read_ok hl.sized hcur hx hxr) ?_
  split
  · refine Ends.bind_ok (ipaNatiFindIndexRulePos_ok hl.sized hie) ?_
    refine (indxDelCmds_ends hl B hie).bind fun ds hds hcmds => ?_
    refine (copiedEntry_ends hl B rfl).bind fun nextEntry _ hnext => ?_
    split
    · obtain ⟨hne, hall⟩ := isIndxCmd_of_indxDelCmds hds
      have hrow : ∀ d ∈ reorderCmds (ruleDelCmd t cur (t.rule x) pos :: ds), RowCmd t d := by
        rw [reorderCmds_cons (isIndxCmd_ruleDelCmd ..) hall hne, hpos]
        intro d hd
        rcases List.mem_append.1 hd with hd | hd
        · exact hcmds d hd
        · rw [List.mem_singleton.1 hd]
          exact rowCmd_ruleDelCmd B hcur hx hxr
      refine (RowCmd.foldlM_ends hl B hrow).bind fun t₂ hbatch ⟨hd₂, B₂⟩ => ?_
      have hmiddle : pos = .middle → expnTbl = true ∧ (t₂.rule x).nextIndex ≠ 0 := by
        intro hm
        obtain ⟨he, hn⟩ := delType_eq_middle (hpos.symm.trans hm)
        have he : expnTbl = true := by simpa using he
        subst he
        rw [hpos] at hbatch
        rw [delBatch_next hl hne hall hbatch]
        exact ⟨rfl, hn⟩
      have hx₂ : x = t₂.rowOf expnTbl cur := by
        rw [hx]
        unfold rowOf
        rw [hd₂.tableEntries]
      refine (ruleDelUpdate_ends (hd₂.layout hl) B₂ (by rwa [hd₂.tableEntries]) hx₂
        (by rwa [hd₂.rows]) hmiddle).bind fun t₃ _ ⟨hd₃, B₃⟩ => ?_
      have hd := hd₂.trans hd₃
      refine (indxDelUpdate_ends (hd.layout hl) B₃ (by rwa [hd.rows]) ?_ ?_).bind
        fun t₄ _ ⟨hd₄, _⟩ => hd.trans hd₄
      · intro h
        rw [hd.tableEntries, hd.expnTableEntries]
        exact hnext h
      · intro h
        rw [hd.tableEntries]
        simpa using (delType_eq_middle h).1
    · exact .refl t
  · exact .refl t

theorem delDeadHeads_ends {m : Region IpaNatRule} (hn : n ≤ m.size) :
    Ends F (delDeadHeads n m) fun m' => m'.size = m.size := by
  induction n with
  | zero => exact rfl
  | succ n ih =>
    refine (ih (by omega)).bind fun m' _ hm' => ?_
    refine Ends.bind_ok (Region.read_ok (by omega)) ?_
    split
    · rw [Region.write_ok (by omega)]
      exact hm'
    · exact hm'

theorem ipaNatiDelDeadIpv4HeadNodes_ends (hs : t.Sized) :
    Ends F (ipaNatiDelDeadIpv4HeadNodes t) fun t' => SameDims t t' := by
  refine Ends.imp (P := fun _ => True) ?_ fun t' h _ => (ipaNatiDelDeadIpv4HeadNodes_cases h).1.dims
  exact (delDeadHeads_ends hs.ipv4Rules.ge).bind fun _ _ _ => trivial

namespace IpaNatIp4TableCache

/-- Every used slot of `rule_id_array` holds the id of a row that an addition can fill. -/
def Ids (t : IpaNatIp4TableCache) : Prop :=
  ∀ i < t.rows, t.ruleIdArray.get i ≠ 0 →
    ∃ y < t.rows, y ≠ 0 ∧ y ≠ t.tableEntries ∧ t.ruleIdArray.get i = ruleId t y

theorem Ids.row (hl : t.Layout) (I : t.Ids) {h : Nat} (hx : t.HandleOf h x) :
    x < t.rows ∧ ((t.ruleIdArray.get (h - 1) % 2 == 1) = false →
      t.ruleIdArray.get (h - 1) / 2 < t.tableEntries) := by
  have hlt := hx.lt
  obtain ⟨y, hy, -, -, hid⟩ := I (h - 1) (by omega) fun h0 => hx.ne_zero (by rw [h0])
  have hrow := (rowOf_ruleId hl hy).1
  have hxrow := hx.row
  rw [hid] at hxrow ⊢
  rw [hrow] at hxrow
  exact ⟨hxrow ▸ hy, ruleId_base hl hy⟩

theorem Ids.handleOf_iff (hl : t.Layout) (I : t.Ids) {h : Nat} (hpos : 1 ≤ h) (hlt : h < t.rows) :
    (∃ x, t.HandleOf h x) ↔ t.ruleIdArray.get (h - 1) ≠ 0 := by
  constructor
  · rintro ⟨x, hx⟩ h0
    exact hx.ne_zero (by rw [h0])
  · intro hne
    obtain ⟨y, hy, hy0, hyT, hid⟩ := I (h - 1) (by omega) hne
    refine ⟨_, hpos, hlt, ?_, rfl⟩
    rw [hid]
    exact (rowOf_ruleId hl hy).2.1 hy0 hyT

theorem Ids.placed (I : t.Ids) (hl : t.Layout) {e p ie ip i : Nat} (dma : AddDma)
    (hs : t.RuleSlot (t.dstBucket c) e p) :
    ((t.placed c e p ie ip dma).setRuleId i (ruleId t e)).Ids := by
  obtain ⟨hb, hb'⟩ := hl.dstBucket_range c
  obtain ⟨he0, he⟩ := hs.range hb hb'
  have heT : e ≠ t.tableEntries := by
    cases hs with
    | base => omega
    | expn => omega
  have hd := (sameDims_placed (t := t) c e p ie ip dma).trans (sameDims_setRuleId i (ruleId t e))
  intro j hj hne
  rw [hd.rows] at hj ⊢
  rw [hd.tableEntries]
  simp only [hd.ruleId]
  rw [ruleIdArray_setRuleId, ruleIdArray_placed, Region.get_set] at hne ⊢
  split at hne
  · next hji =>
    rw [if_pos hji]
    exact ⟨e, he, by omega, heT, rfl⟩
  · next hji =>
    rw [if_neg hji]
    exact I j hj hne

theorem Ids.placed_noHdl (I : t.Ids) {e p ie ip : Nat} (dma : AddDma) :
    (t.placed c e p ie ip dma).Ids := by
  have hd := sameDims_placed (t := t) c e p ie ip dma
  intro j hj hne
  rw [hd.rows] at hj ⊢
  rw [hd.tableEntries]
  simp only [hd.ruleId]
  rw [ruleIdArray_placed] at hne ⊢
  exact I j hj hne

theorem boundedRule_unlinked (hl : t.Layout) (B : t.Bounded) (x z : Nat) :
    t.BoundedRule (t.ruleUnlinked x z) := by
  have hz := B.rule z
  have hx := B.rule x
  unfold ruleUnlinked
  dsimp only
  split
  · split
    · split
      · exact hl.boundedRule_empty
      · exact ⟨hx.next, hx.prev, hx.indx⟩
    · exact hz
  · split
    · exact hl.boundedRule_empty
    · refine ⟨?_, ?_, hz.indx⟩
      · dsimp only
        split
        · exact hx.next
        · exact hz.next
      · dsimp only
        split
        · exact hx.prev
        · exact hz.prev

theorem boundedIndx_unlinked (hl : t.Layout) (B : t.Bounded) (y z : Nat) :
    t.BoundedIndx (t.indxUnlinked y z) ∧ (y < t.rows → t.metaUnlinked y z < t.rows) := by
  have hz := B.indx z
  have hy := B.indx y
  constructor
  · unfold indxUnlinked
    dsimp only
    split
    · split
      · split
        · exact hl.boundedIndx_empty
        · exact B.indx _
      · split
        · exact hl.boundedIndx_empty
        · exact hz
    · split
      · exact hl.boundedIndx_empty
      · refine ⟨?_, hz.tbl⟩
        split
        · exact hy.next
        · exact hz.next
  · intro hlt
    unfold metaUnlinked
    dsimp only
    split
    · exact B.metaPrev z
    split
    · split
      · exact hlt
      · exact B.metaPrev z
    · split
      · exact hl.rows_pos
      · split
        · exact B.metaPrev y
        · exact B.metaPrev z

theorem boundedRule_clearDead (hl : t.Layout) {r : IpaNatRule} (hr : t.BoundedRule r)
    (tableEntries z : Nat) : t.BoundedRule (clearDead tableEntries z r) := by
  unfold clearDead
  split
  · exact hl.boundedRule_empty
  · exact hr

theorem Bounded.deleted (hl : t.Layout) (B : t.Bounded) {slot : Nat} (hd : t.Deleted t' x slot) :
    t'.Bounded := by
  have hy := (B.rule x).indx
  constructor
  · intro z
    have hz := boundedRule_unlinked hl B x z
    refine hd.dims.boundedRule ?_
    rw [hd.moved B.indxLinks z]
    refine boundedRule_clearDead hl ?_ _ _
    split
    · exact ⟨hz.next, hz.prev, hy⟩
    · exact hz
  · intro z
    rw [hd.indx B.indxLinks]
    exact hd.dims.boundedIndx (boundedIndx_unlinked hl B _ z).1
  · intro z
    rw [hd.metaPrev B.indxLinks, hd.dims.rows]
    exact (boundedIndx_unlinked hl B _ z).2 hy

theorem Ids.deleted (I : t.Ids) {slot : Nat} (hd : t.Deleted t' x slot) : t'.Ids := by
  intro j hj hne
  rw [hd.dims.rows] at hj ⊢
  rw [hd.dims.tableEntries]
  simp only [hd.dims.ruleId]
  rw [hd.ruleIdArray, Region.get_set] at hne ⊢
  split at hne
  · exact absurd rfl hne
  · next hjs =>
    rw [if_neg hjs]
    exact I j hj hne

end IpaNatIp4TableCache

theorem ipaNatiParseIpv4RuleHdl_ends (hl : t.Layout) {h : Nat} (h0 : h ≠ 0) :
    Ends F (ipaNatiParseIpv4RuleHdl t h) fun r => r.2 ≠ ipaNatInvalidNatEntry →
      t.HandleOf h (t.rowOf r.1 r.2) ∧ r.1 = (t.ruleIdArray.get (h - 1) % 2 == 1) ∧
        r.2 = t.ruleIdArray.get (h - 1) / 2 := by
  unfold ipaNatiParseIpv4RuleHdl
  split
  · exact fun h => absurd rfl h
  · next hlt =>
    refine Ends.bind_ok (Region.read_ok ?_) ?_
    · rw [hl.sized.ruleIdArray]
      omega
    · exact fun hne => ⟨⟨by omega, by omega, hne, rfl⟩, rfl, rfl⟩

/-- A deletion goes through with the handle whose low 16 bits are `low`. -/
def IpaNatIp4TableCache.Deletes (t : IpaNatIp4TableCache) (low : Nat) (ok : Bool) : Prop :=
  ok = true ∧ ∃ x, t.HandleOf low x ∧ (t.rule x).enable = true

/-- **A deletion from a bounded table returns**, if the handle is not 0 in its low 16 bits and has no
    others where the deletion goes through. -/
theorem ipaNatiDelIpv4Rule_ends (hl : t.Layout) (B : t.Bounded) (I : t.Ids) {ruleHdl : UInt32}
    (h0 : ruleHdl.toUInt16.toNat ≠ 0)
    (hlow : (t.Deletes ruleHdl.toUInt16.toNat ok → ruleHdl.toNat = ruleHdl.toUInt16.toNat) ∨
      F .outOfBounds) : Ends F (ipaNatiDelIpv4Rule t ruleHdl ok) fun _ => True := by
  refine (ipaNatiParseIpv4RuleHdl_ends hl h0).bind fun ⟨expnTbl, cur⟩ _ hparse => ?_
  dsimp only at hparse ⊢
  split
  · exact trivial
  · next hcur =>
    obtain ⟨hof, hexpn, hentry⟩ := hparse hcur
    obtain ⟨hxr, hbase⟩ := I.row hl hof
    rw [← hexpn, ← hentry] at hbase
    split
    · have hread := ruleTbl_read_ok hl.sized hbase rfl hxr
      have hpos : ipaNatiFindRulePos t expnTbl cur =
          .ok (delType (!expnTbl) (t.rule (t.rowOf expnTbl cur)).nextIndex) := by
        unfold ipaNatiFindRulePos delType
        rw [hread, ok_bind]
        cases expnTbl <;> rfl
      refine Ends.bind_ok hpos ?_
      refine (ipaNatiPostDelDmaCmd_ends hl B hbase rfl hxr rfl ok).bind
        fun ⟨t₁, ret⟩ hpost hd₁ => ?_
      cases ret with
      | error e => exact trivial
      | ok u =>
        refine (ipaNatiDelDeadIpv4HeadNodes_ends (hd₁.sized hl.sized)).bind fun t₂ _ hd₂ => ?_
        have hd := hd₁.trans hd₂
        rcases hlow with hlow | hF
        · refine Ends.bind_ok (writeRuleId_ok ?_ _) trivial
          rw [(hd.sized hl.sized).ruleIdArray, hd.rows]
          have hdel : t.Deletes ruleHdl.toUInt16.toNat ok := by
            rcases ipaNatiPostDelDmaCmd_cases hl B.ruleLinks rfl hpost with
              ⟨-, _, hret, -⟩ | ⟨x, rfl, -, henable, -, hok, -⟩
            · cases hret
            · exact ⟨hok, _, hof, henable⟩
          have hlt := hof.lt
          have hpos := hof.pos
          rw [← hlow hdel] at hlt hpos
          have hle : (1 : UInt32) ≤ ruleHdl := by
            rw [UInt32.le_iff_toNat_le]
            exact hpos
          rw [UInt32.toNat_sub_of_le _ _ hle]
          exact lt_of_le_of_lt (Nat.sub_le ..) hlt
        · -- where an access past `rule_id_array` is allowed there is nothing to show
          unfold writeRuleId Region.write
          split
          · exact trivial
          · exact hF
    · exact trivial

end Nx508j.Ipanat
