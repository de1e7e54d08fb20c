import Nx508j.Ipanat.AddRule

/-! # What an addition can do

`ipaNatiAddIpv4Rule_cases`: an addition that returns either found no room and changed nothing, or
found a row in each table (`RuleSlot`, `IndxSlot`) and left `placed`, with a handle in
`rule_id_array` when the rule could be enabled. -/

namespace Nx508j.Ipanat

open Nx508j.Lib

/-! ## Searching -/

section Search

variable {α : Type} {free : α → Bool} {m : Region α}

theorem firstFree_some {n cnt i : Nat} (h : firstFree free m n cnt = .ok (some i)) :
    cnt ≤ i ∧ i < cnt + n ∧ i < m.size ∧ free (m.get i) = true ∧
      ∀ j, cnt ≤ j → j < i → free (m.get j) = false := by
  induction n generalizing cnt with
  | zero => simp [firstFree] at h
  | succ n ih =>
    obtain ⟨row, hrow, h⟩ := bind_eq_ok h
    obtain ⟨hlt, rfl⟩ := Region.lt_of_read hrow
    split at h
    · next hfree =>
      obtain rfl : cnt = i := by simpa using h
      exact ⟨le_rfl, by omega, hlt, hfree, fun j hj hj' => by omega⟩
    · next hfree =>
      obtain ⟨h1, h2, h3, h4, h5⟩ := ih h
      refine ⟨by omega, by omega, h3, h4, fun j hj hj' => ?_⟩
      rcases Nat.eq_or_lt_of_le hj with rfl | hlt
      · simpa using hfree
      · exact h5 j hlt hj'

theorem firstFree_none {n cnt : Nat} (h : firstFree free m n cnt = .ok none) {j : Nat}
    (hj : cnt ≤ j) (hj' : j < cnt + n) : free (m.get j) = false := by
  induction n generalizing cnt with
  | zero => omega
  | succ n ih =>
    obtain ⟨row, hrow, h⟩ := bind_eq_ok h
    obtain ⟨-, rfl⟩ := Region.lt_of_read hrow
    split at h
    · simp at h
    · next hfree =>
      rcases Nat.eq_or_lt_of_le hj with rfl | hlt
      · simpa using hfree
      · exact ih h hlt (by omega)

theorem firstFree_ok (free : α → Bool) {m : Region α} {n cnt : Nat} (hn : cnt + n ≤ m.size) :
    ∃ r, firstFree free m n cnt = .ok r := by
  induction n generalizing cnt with
  | zero => exact ⟨none, rfl⟩
  | succ n ih =>
    rw [firstFree, Region.read_ok (by omega), ok_bind]
    split
    · exact ⟨_, rfl⟩
    · exact ih (by omega)

variable {next : α → Nat} {tableEntries : Nat}

/-- **Loop rule.** What holds of the row the walk enters at, and of the row behind each it holds of,
    holds of the row it ends on; that row links to nothing. -/
theorem walkToLast_inv {I : Nat → Prop} {fuel x p : Nat} (hx : I x)
    (hstep : ∀ y, I y → next (m.get (sub16 y tableEntries)) ≠ 0 →
      I (next (m.get (sub16 y tableEntries))))
    (h : walkToLast next m tableEntries fuel x = .ok (some p)) :
    I p ∧ next (m.get (sub16 p tableEntries)) = 0 := by
  induction fuel generalizing x with
  | zero => simp [walkToLast] at h
  | succ fuel ih =>
    obtain ⟨row, hrow, h⟩ := bind_eq_ok h
    obtain ⟨-, rfl⟩ := Region.lt_of_read hrow
    split at h
    · simp at h
    · split at h
      · next hend =>
        obtain rfl : x = p := by simpa using h
        exact ⟨hx, hend⟩
      · next hend => exact ih (hstep x hx hend) h

/-- **Loop rule** for the whole search, on rows numbered through. -/
theorem findLast_inv (row : Nat → α) {expnTableEntries head p : Nat}
    (hrows : tableEntries + expnTableEntries < 65536)
    (hm : ∀ y, tableEntries ≤ y → y < tableEntries + expnTableEntries →
      m.get (y - tableEntries) = row y) (hlinks : ∀ y, next (row y) ≠ 0 →
      tableEntries ≤ next (row y) ∧ next (row y) < tableEntries + expnTableEntries)
    {I : Nat → Prop} (hhead : I head) (hstep : ∀ y, I y → next (row y) ≠ 0 → I (next (row y)))
    (h : findLast next m tableEntries expnTableEntries head (row head) = .ok (some p)) :
    I p ∧ next (row p) = 0 := by
  unfold findLast at h
  split at h
  · next hend =>
    obtain rfl : head = p := by simpa using h
    exact ⟨hhead, hend⟩
  · next hne =>
    have hget : ∀ y, tableEntries ≤ y → y < tableEntries + expnTableEntries →
        m.get (sub16 y tableEntries) = row y := by
      intro y hT hy
      rw [sub16_eq hT (by omega), hm y hT hy]
    have hwalk := walkToLast_inv
      (I := fun y => I y ∧ tableEntries ≤ y ∧ y < tableEntries + expnTableEntries)
      ⟨hstep head hhead hne, hlinks head hne⟩ (fun y hy hn => ?_) h
    · obtain ⟨⟨hI, hT, hlt⟩, hend⟩ := hwalk
      exact ⟨hI, by rwa [hget p hT hlt] at hend⟩
    · rw [hget y hy.2.1 hy.2.2] at hn ⊢
      exact ⟨hstep y hy.1 hn, hlinks y hn⟩

end Search

/-! ## The rows an addition takes -/

namespace IpaNatIp4TableCache

/-- What the driver relies on in a table it has set up: arrays of the recorded lengths, a base table
    of a power of two rows and an expansion table of 1 to 16384, and tables at offset 0. -/
structure Layout (t : IpaNatIp4TableCache) : Prop where
  sized : t.Sized
  tblAddrOffset : t.tblAddrOffset = 0
  tableEntries : ∃ k, 1 ≤ k ∧ k ≤ 15 ∧ t.tableEntries = 2 ^ k
  expn_pos : 1 ≤ t.expnTableEntries
  expnTableEntries : t.expnTableEntries ≤ 16384

/-- `t'` has the dimensions of `t`. -/
structure SameDims (t t' : IpaNatIp4TableCache) : Prop where
  valid : t'.valid = t.valid
  publicAddr : t'.publicAddr = t.publicAddr
  tblAddrOffset : t'.tblAddrOffset = t.tblAddrOffset
  tableEntries : t'.tableEntries = t.tableEntries
  expnTableEntries : t'.expnTableEntries = t.expnTableEntries
  sized : t.Sized → t'.Sized

variable {t t' : IpaNatIp4TableCache} {x : Nat}

theorem SameDims.rows (h : SameDims t t') : t'.rows = t.rows := by
  unfold IpaNatIp4TableCache.rows
  rw [h.tableEntries, h.expnTableEntries]

theorem SameDims.trans {t'' : IpaNatIp4TableCache} (h : SameDims t t') (h' : SameDims t' t'') :
    SameDims t t'' where
  valid := h'.valid.trans h.valid
  publicAddr := h'.publicAddr.trans h.publicAddr
  tblAddrOffset := h'.tblAddrOffset.trans h.tblAddrOffset
  tableEntries := h'.tableEntries.trans h.tableEntries
  expnTableEntries := h'.expnTableEntries.trans h.expnTableEntries
  sized hs := h'.sized (h.sized hs)

theorem sameDims_setRuleId (i v : Nat) : SameDims t (t.setRuleId i v) :=
  ⟨rfl, rfl, rfl, rfl, rfl, fun h => sized_setRuleId.2 h⟩

theorem SameDims.ruleId (h : SameDims t t') (x : Nat) : ruleId t' x = ruleId t x := by
  unfold Ipanat.ruleId
  rw [h.tableEntries]

theorem SameDims.layout (h : SameDims t t') (hl : t.Layout) : t'.Layout where
  sized := h.sized hl.sized
  tblAddrOffset := h.tblAddrOffset.trans hl.tblAddrOffset
  tableEntries := by rw [h.tableEntries]; exact hl.tableEntries
  expn_pos := by rw [h.expnTableEntries]; exact hl.expn_pos
  expnTableEntries := by rw [h.expnTableEntries]; exact hl.expnTableEntries

theorem Layout.two_le (hl : t.Layout) : 2 ≤ t.tableEntries := by
  obtain ⟨k, hk, -, he⟩ := hl.tableEntries
  rw [he]
  calc 2 = 2 ^ 1 := rfl
    _ ≤ 2 ^ k := Nat.pow_le_pow_right (by omega) hk

theorem Layout.tableEntries_le (hl : t.Layout) : t.tableEntries ≤ 32768 := by
  obtain ⟨k, -, hk, he⟩ := hl.tableEntries
  rw [he]
  calc 2 ^ k ≤ 2 ^ 15 := Nat.pow_le_pow_right (by omega) hk
    _ = 32768 := rfl

theorem Layout.rows_lt (hl : t.Layout) : t.rows < 65536 := by
  have h₁ := hl.tableEntries_le
  have h₂ := hl.expnTableEntries
  unfold IpaNatIp4TableCache.rows
  omega

theorem Layout.dstBucket_range (hl : t.Layout) (c : IpaNatIpv4Rule) :
    1 ≤ t.dstBucket c ∧ t.dstBucket c < t.tableEntries := by
  obtain ⟨k, hk, hk', he⟩ := hl.tableEntries
  unfold dstBucket dstHash hashSize
  rw [he]
  exact maskHash_range _ hk hk'

theorem Layout.srcBucket_range (hl : t.Layout) (c : IpaNatIpv4Rule) :
    1 ≤ t.srcBucket c ∧ t.srcBucket c < t.tableEntries := by
  obtain ⟨k, hk, hk', he⟩ := hl.tableEntries
  unfold srcBucket srcHash hashSize
  rw [he]
  exact maskHash_range _ hk hk'

theorem rule_base (hx : x < t.tableEntries) : t.rule x = t.ipv4Rules.get x :=
  if_pos hx

theorem rule_expn {f : Nat} (hf : f < t.expnTableEntries) :
    t.rule (f + t.tableEntries) = t.ipv4ExpnRules.get f := by
  unfold rule rows
  simp [show f + t.tableEntries < t.tableEntries + t.expnTableEntries by omega]

theorem indx_base (hx : x < t.tableEntries) : t.indx x = t.indexTable.get x :=
  if_pos hx

theorem indx_expn {f : Nat} (hf : f < t.expnTableEntries) :
    t.indx (f + t.tableEntries) = t.indexTableExpn.get f := by
  unfold indx rows
  simp [show f + t.tableEntries < t.tableEntries + t.expnTableEntries by omega]

theorem rule_of_le (hx : t.rows ≤ x) : t.rule x = {} := by
  unfold rule rows at *
  rw [if_neg (by omega), if_neg (by omega)]

theorem indx_of_le (hx : t.rows ≤ x) : t.indx x = {} := by
  unfold indx rows at *
  rw [if_neg (by omega), if_neg (by omega)]

/-- The row `e` a rule of bucket `b` goes to, and the row `p` it is linked behind (0 for none). -/
inductive RuleSlot (t : IpaNatIp4TableCache) (b : Nat) : Nat → Nat → Prop
  | base (hfree : (t.rule b).enable = false) : RuleSlot t b b 0
  | expn {f p : Nat} (hocc : (t.rule b).enable = true)
      (hlast : findLast IpaNatRule.nextIndex t.ipv4ExpnRules t.tableEntries t.expnTableEntries b
        (t.rule b) = .ok (some p))
      (hf : 1 ≤ f) (hfE : f < t.expnTableEntries)
      (hfree : (t.rule (f + t.tableEntries)).enable = false) :
      RuleSlot t b (f + t.tableEntries) p

/-- The index row `e` a rule of index bucket `b` goes to, and the row `p` it is linked behind. The
    first free expansion row is taken, unless that is the last row of the chain itself. -/
inductive IndxSlot (t : IpaNatIp4TableCache) (b : Nat) : Nat → Nat → Prop
  | base (hfree : (t.indx b).tblEntry = 0) : IndxSlot t b b 0
  | expn {f p : Nat} (hocc : (t.indx b).tblEntry ≠ 0)
      (hlast : findLast IpaNatIndxTblRule.nextIndex t.indexTableExpn t.tableEntries
        t.expnTableEntries b (t.indx b) = .ok (some p))
      (hf : 1 ≤ f) (hfE : f < t.expnTableEntries)
      (hfree : (t.indx (f + t.tableEntries)).tblEntry = 0)
      (hfirst : ∀ j, 1 ≤ j → j < f → (t.indx (j + t.tableEntries)).tblEntry ≠ 0)
      (hne : p ≠ f + t.tableEntries) :
      IndxSlot t b (f + t.tableEntries) p

theorem RuleSlot.range {b e p : Nat} (hs : t.RuleSlot b e p) (hb : 1 ≤ b)
    (hb' : b < t.tableEntries) : 1 ≤ e ∧ e < t.rows := by
  unfold IpaNatIp4TableCache.rows
  cases hs with
  | base => omega
  | expn => omega

theorem IndxSlot.range {b e p : Nat} (hs : t.IndxSlot b e p) (hb : 1 ≤ b)
    (hb' : b < t.tableEntries) : 1 ≤ e ∧ e < t.rows := by
  unfold IpaNatIp4TableCache.rows
  cases hs with
  | base => omega
  | expn => omega

/-- The index row whose next field is written to link behind row `x`: the 16-bit offset comes round
    every 16384 rows. -/
def indxLinkRow (t : IpaNatIp4TableCache) (x : Nat) : Nat :=
  if x < t.tableEntries then x % 16384 else (x - t.tableEntries) % 16384 + t.tableEntries

/-- The rule row `e` written and, if the link went through, named by its predecessor `p`. -/
def copyRule (t : IpaNatIp4TableCache) (r : IpaNatRule) (e p : Nat) (link : Bool) :
    IpaNatIp4TableCache :=
  let t := t.setRule e r
  if p ≠ 0 ∧ link = true then t.setRule p { t.rule p with nextIndex := e } else t

/-- The index row `e` written and, if the link went through, named by a predecessor. -/
def copyIndx (t : IpaNatIp4TableCache) (tblEntry e p : Nat) (link : Bool) :
    IpaNatIp4TableCache :=
  let t := t.setIndx e { tblEntry := tblEntry }
  if p ≠ 0 ∧ link = true then
    t.setIndx (t.indxLinkRow p) { t.indx (t.indxLinkRow p) with nextIndex := e }
  else t

/-- The predecessor of a new index row noted. -/
def noteMeta (t : IpaNatIp4TableCache) (e p : Nat) : IpaNatIp4TableCache :=
  if t.tableEntries ≤ e then t.setMeta e p else t

/-- The flag word that enables rule row `e` written. -/
def enableRule (t : IpaNatIp4TableCache) (e : Nat) : IpaNatIp4TableCache :=
  t.setRule e { t.rule e with rsvd1 := 0, redirect := false, enable := true }

/-- The table after a rule went to rule row `e` behind `p` and index row `ie` behind `ip`. -/
def placed (t : IpaNatIp4TableCache) (c : IpaNatIpv4Rule) (e p ie ip : Nat) (dma : AddDma) :
    IpaNatIp4TableCache :=
  let t' := (((t.noteMeta ie ip).copyRule
    { c.swRule t.publicAddr with prevIndex := p, indxTblEntry := ie } e p dma.ruleLink).copyIndx
      e ie ip dma.indexLink)
  if dma.enable then t'.enableRule e else t'

end IpaNatIp4TableCache

/-! ## The functions of the driver -/

section Cases

open IpaNatIp4TableCache

variable {t t' : IpaNatIp4TableCache} {c : IpaNatIpv4Rule} {f : Nat} {ok : Bool}

theorem add16_row (hl : t.Layout) (hf : f < t.expnTableEntries) :
    add16 f t.tableEntries = f + t.tableEntries :=
  add16_eq (by have := hl.rows_lt; unfold IpaNatIp4TableCache.rows at this; omega)

theorem ipaNatiExpnTblFreeEntry_cases (hl : t.Layout)
    (h : ipaNatiExpnTblFreeEntry t.ipv4ExpnRules t.expnTableEntries = .ok f) (hf : f ≠ 0) :
    1 ≤ f ∧ f < t.expnTableEntries ∧ (t.rule (f + t.tableEntries)).enable = false := by
  obtain ⟨entry, hentry, h⟩ := bind_eq_ok h
  obtain rfl : entry.getD 0 = f := by simpa using h
  cases entry with
  | none => exact absurd rfl hf
  | some i =>
    obtain ⟨h1, h2, h3, h4, -⟩ := firstFree_some hentry
    have hi : i < t.expnTableEntries := hl.sized.ipv4ExpnRules ▸ h3
    rw [Option.getD_some, rule_expn hi]
    exact ⟨h1, hi, by simpa using h4⟩

theorem ipaNatiIndexExpnGetFreeEntry_cases (hl : t.Layout)
    (h : ipaNatiIndexExpnGetFreeEntry t.indexTableExpn t.expnTableEntries = .ok f) (hf : f ≠ 0) :
    1 ≤ f ∧ f < t.expnTableEntries ∧ (t.indx (f + t.tableEntries)).tblEntry = 0 ∧
      ∀ j, 1 ≤ j → j < f → (t.indx (j + t.tableEntries)).tblEntry ≠ 0 := by
  obtain ⟨entry, hentry, h⟩ := bind_eq_ok h
  obtain rfl : entry.getD 0 = f := by simpa using h
  cases entry with
  | none => exact absurd rfl hf
  | some i =>
    obtain ⟨h1, h2, h3, h4, h5⟩ := firstFree_some hentry
    have hi : i < t.expnTableEntries := hl.sized.indexTableExpn ▸ h3
    rw [Option.getD_some, indx_expn hi]
    refine ⟨h1, hi, by simpa using h4, fun j hj hji => ?_⟩
    rw [indx_expn (by omega)]
    simpa using h5 j hj hji

theorem ipaNatiGenerateTblRule_cases (hl : t.Layout) {r : IpaNatRule} {e : Nat}
    (h : ipaNatiGenerateTblRule t c = .ok (r, e)) (he : e ≠ ipaNatInvalidNatEntry) :
    ∃ p, t.RuleSlot (t.dstBucket c) e p ∧ r = { c.swRule t.publicAddr with prevIndex := p } := by
  obtain ⟨row, hrow, h⟩ := bind_eq_ok h
  obtain ⟨-, rfl⟩ := Region.lt_of_read hrow
  rw [← rule_base (hl.dstBucket_range c).2] at h
  split at h
  · next hocc =>
    obtain ⟨last, hlast, h⟩ := bind_eq_ok h
    cases last with
    | none => simp_all
    | some p =>
      obtain ⟨f, hf, h⟩ := bind_eq_ok h
      split at h
      · simp_all
      · next hf0 =>
        obtain ⟨h1, h2, h3⟩ := ipaNatiExpnTblFreeEntry_cases hl hf hf0
        rw [add16_row hl h2] at h
        cases h
        exact ⟨p, .expn hocc hlast h1 h2 h3, rfl⟩
  · next hfree =>
    cases h
    exact ⟨0, .base (by simpa using hfree), rfl⟩

theorem ipaNatiGenerateIndexRule_cases (hl : t.Layout) {e ie : Nat} {s : IpaNatIndxTblSwRule}
    (h : ipaNatiGenerateIndexRule t c e = .ok (s, ie)) (hie : ie ≠ ipaNatInvalidNatEntry) :
    ∃ ip, t.IndxSlot (t.srcBucket c) ie ip ∧ s = { tblEntry := e, prevIndex := ip } := by
  obtain ⟨row, hrow, h⟩ := bind_eq_ok h
  obtain ⟨-, rfl⟩ := Region.lt_of_read hrow
  rw [← indx_base (hl.srcBucket_range c).2] at h
  split at h
  · next hfree =>
    cases h
    exact ⟨0, .base hfree, rfl⟩
  · next hocc =>
    obtain ⟨last, hlast, h⟩ := bind_eq_ok h
    cases last with
    | none => simp_all
    | some p =>
      obtain ⟨f, hf, h⟩ := bind_eq_ok h
      split at h
      · simp_all
      · next hf0 =>
        obtain ⟨h1, h2, h3, h4⟩ := ipaNatiIndexExpnGetFreeEntry_cases hl hf hf0
        rw [add16_row hl h2] at h
        split at h
        · simp_all
        · next hne =>
          cases h
          exact ⟨p, .expn hocc hlast h1 h2 h3 h4 hne, rfl⟩

theorem ipaNatiGenerateRule_cases (hl : t.Layout) {gen : Option GeneratedRule}
    (h : ipaNatiGenerateRule t c = .ok (t', gen)) :
    (t' = t ∧ gen = none) ∨
      ∃ e p ie ip, t.RuleSlot (t.dstBucket c) e p ∧ t.IndxSlot (t.srcBucket c) ie ip ∧
        t' = t.noteMeta ie ip ∧ gen = some
          { rule := { c.swRule t.publicAddr with prevIndex := p, indxTblEntry := ie }
            indexSwRule := { tblEntry := e, prevIndex := ip }
            tblEntry := e
            indxTblEntry := ie } := by
  obtain ⟨⟨r, e⟩, hgen, h⟩ := bind_eq_ok h
  dsimp only at h
  split at h
  · next he =>
    cases h
    exact Or.inl ⟨rfl, rfl⟩
  · next he =>
    obtain ⟨p, hslot, rfl⟩ := ipaNatiGenerateTblRule_cases hl hgen he
    obtain ⟨⟨s, ie⟩, hindx, h⟩ := bind_eq_ok h
    split at h
    · next hie =>
      cases h
      exact Or.inl ⟨rfl, rfl⟩
    · next hie =>
      obtain ⟨ip, hslot', rfl⟩ := ipaNatiGenerateIndexRule_cases hl hindx hie
      refine Or.inr ⟨e, p, ie, ip, hslot, hslot', ?_⟩
      split at h
      · next hT =>
        obtain ⟨t₁, hmeta, h⟩ := bind_eq_ok h
        obtain ⟨m, hm, hmeta⟩ := bind_eq_ok hmeta
        obtain ⟨-, rfl⟩ := Region.lt_of_write hm
        cases hmeta
        cases h
        exact ⟨(if_pos hT).symm, rfl⟩
      · next hT =>
        cases h
        exact ⟨(if_neg hT).symm, rfl⟩

theorem ioctlNatDma_single {d : IpaIocNatDmaOne} :
    ioctlNatDma t [d] ok = if ok then dmaWrite t d else .ok t := by
  cases ok
  · rfl
  · unfold ioctlNatDma
    simp only [↓reduceIte, List.foldlM_cons, List.foldlM_nil]
    cases dmaWrite t d <;> rfl

theorem ipaNatiCopyIpv4RuleToHw_cases (hl : t.Layout) {r : IpaNatRule} {e : Nat}
    (h : ipaNatiCopyIpv4RuleToHw t r e ok = .ok t') : t' = t.copyRule r e r.prevIndex ok := by
  unfold ipaNatiCopyIpv4RuleToHw at h
  rw [hl.sized.writeRule_eq] at h
  unfold copyRule
  split at h
  · rw [ok_bind] at h
    split at h
    · next hp => simp_all [ipaNatInvalidNatEntry]
    · next hp =>
      unfold ipaNatiWriteNextIndex at h
      rw [ioctlNatDma_single] at h
      have hp : r.prevIndex ≠ 0 := hp
      cases ok with
      | false => simpa [hp] using h.symm
      | true =>
        have hl' := (sized_setRule (x := e) (r := r)).2 hl.sized
        have hdma := hl'.dmaWrite_ruleAddr (by simpa using hl.tblAddrOffset) r.prevIndex e
          (k := 4) (by omega)
        simp only [↓reduceIte] at h
        rw [show ipaNatRuleNextFieldOffset = 2 * 4 from rfl, hdma] at h
        split at h
        · simpa [hp, IpaNatRule.writeHalf] using h.symm
        · cases h
  · cases h

theorem indxLink_offset (ho : t.tblAddrOffset = 0) (x : Nat) :
    (t.indxAddr x).1 = (t.indxAddr (t.indxLinkRow x)).1 ∧
      add16 (ipaNatiGetIndexEntryOffset t (t.indxAddr x).2 % 2 ^ 16)
          ipaNatIndexRuleNextFieldOffset =
        ipaNatiGetIndexEntryOffset t (t.indxAddr (t.indxLinkRow x)).2 + 2 * 1 := by
  unfold indxAddr indxLinkRow ipaNatiGetIndexEntryOffset add16 ipaNatIndexTableEntrySize
    ipaNatIndexRuleNextFieldOffset
  rw [ho]
  by_cases hx : x < t.tableEntries
  · have hx' : x % 16384 < t.tableEntries := lt_of_le_of_lt (Nat.mod_le ..) hx
    simp only [hx, hx', ↓reduceIte, true_and]
    omega
  · have hx' : ¬ (x - t.tableEntries) % 16384 + t.tableEntries < t.tableEntries := by omega
    simp only [hx, hx', ↓reduceIte, true_and]
    omega

theorem ipaNatiCopyIpv4IndexRuleToHw_cases (hl : t.Layout) {s : IpaNatIndxTblSwRule} {e : Nat}
    (hs : s.nextIndex = 0) (h : ipaNatiCopyIpv4IndexRuleToHw t s e ok = .ok t') :
    t' = t.copyIndx s.tblEntry e s.prevIndex ok := by
  unfold ipaNatiCopyIpv4IndexRuleToHw at h
  rw [hl.sized.writeIndx_eq, hs] at h
  unfold copyIndx
  split at h
  · rw [ok_bind] at h
    split at h
    · next hp => simp_all [ipaNatInvalidNatEntry]
    · next hp =>
      have hp : s.prevIndex ≠ 0 := hp
      unfold ipaNatiWriteNextIndex at h
      rw [ioctlNatDma_single] at h
      cases ok with
      | false => simpa [hp] using h.symm
      | true =>
        have ho := (tblAddrOffset_setIndx t e ⟨s.tblEntry, 0⟩).trans hl.tblAddrOffset
        have hl' := (sized_setIndx (x := e) (r := ⟨s.tblEntry, 0⟩)).2 hl.sized
        obtain ⟨haddr, hoff⟩ := indxLink_offset ho s.prevIndex
        simp only [↓reduceIte, haddr, hoff] at h
        rw [hl'.dmaWrite_indxAddr ho _ _ (by omega)] at h
        split at h
        · simpa [hp, IpaNatIndxTblRule.writeHalf] using h.symm
        · cases h
  · cases h

theorem postCmd_eq (hl : t.Layout) {e : Nat} : (if e < t.tableEntries then
      (⟨.ipaNatBaseTbl, e * ipaNatTableEntrySize + ipaNatRuleFlagFieldOffset,
        ipaNatFlagEnableBitMask⟩ : IpaIocNatDmaOne) else
      ⟨.ipaNatExpnTbl, (e - t.tableEntries) * ipaNatTableEntrySize + ipaNatRuleFlagFieldOffset
        + t.tblAddrOffset, ipaNatFlagEnableBitMask⟩) =
      ⟨(t.ruleAddr e).1, ipaNatiGetEntryOffset t (t.ruleAddr e).2 + 2 * 9,
        ipaNatFlagEnableBitMask⟩ := by
  unfold ruleAddr ipaNatiGetEntryOffset
  rw [hl.tblAddrOffset]
  split <;> rfl

theorem ipaNatiPostIpv4DmaCmd_cases (hl : t.Layout) {e : Nat}
    (h : ipaNatiPostIpv4DmaCmd t e ok = .ok t') : t' = if ok then t.enableRule e else t := by
  unfold ipaNatiPostIpv4DmaCmd at h
  rw [postCmd_eq hl, ioctlNatDma_single] at h
  cases ok with
  | false => simpa using h.symm
  | true =>
    simp only [↓reduceIte] at h ⊢
    rw [hl.sized.dmaWrite_ruleAddr hl.tblAddrOffset _ _ (by omega)] at h
    split at h
    · exact (Except.ok.inj h).symm
    · cases h

theorem ipaNatiMakeRuleHdl_cases {e hdl : Nat} (h : ipaNatiMakeRuleHdl t e = .ok (t', hdl)) :
    (t' = t ∧ hdl = 0 ∧ ∀ i < t.rows, t.ruleIdArray.get i ≠ 0) ∨
      ∃ i, hdl = i + 1 ∧ i < t.rows ∧ t.ruleIdArray.get i = 0 ∧
        (∀ j < i, t.ruleIdArray.get j ≠ 0) ∧ t' = t.setRuleId i (ruleId t e) := by
  obtain ⟨slot, hslot, h⟩ := bind_eq_ok h
  cases slot with
  | none =>
    cases h
    exact Or.inl ⟨rfl, rfl, fun i hi => by
      simpa using firstFree_none hslot (Nat.zero_le i) (by omega)⟩
  | some i =>
    obtain ⟨-, h2, h3, h4, h5⟩ := firstFree_some hslot
    obtain ⟨t₁, hwrite, h⟩ := bind_eq_ok h
    obtain ⟨m, hm, hwrite⟩ := bind_eq_ok hwrite
    obtain ⟨-, rfl⟩ := Region.lt_of_write hm
    cases hwrite
    cases h
    exact Or.inr ⟨i, rfl, by omega, by simpa using h4,
      fun j hj => by simpa using h5 j (Nat.zero_le j) hj, rfl⟩

/-! ## The call -/

theorem sameDims_noteMeta (e p : Nat) : SameDims t (t.noteMeta e p) := by
  unfold noteMeta
  split
  · exact ⟨rfl, rfl, rfl, rfl, rfl, fun h => sized_setMeta.2 h⟩
  · exact ⟨rfl, rfl, rfl, rfl, rfl, id⟩

theorem sameDims_copyRule (r : IpaNatRule) (e p : Nat) (link : Bool) :
    SameDims t (t.copyRule r e p link) := by
  unfold copyRule
  split <;> constructor <;> simp

theorem sameDims_copyIndx (v e p : Nat) (link : Bool) : SameDims t (t.copyIndx v e p link) := by
  unfold copyIndx
  split <;> constructor <;> simp

theorem sameDims_enableRule (e : Nat) : SameDims t (t.enableRule e) := by
  unfold enableRule
  constructor <;> simp

theorem sameDims_placed (c : IpaNatIpv4Rule) (e p ie ip : Nat) (dma : AddDma) :
    SameDims t (t.placed c e p ie ip dma) := by
  have h := ((sameDims_noteMeta (t := t) ie ip).trans (sameDims_copyRule
    { c.swRule t.publicAddr with prevIndex := p, indxTblEntry := ie } e p dma.ruleLink)).trans
      (sameDims_copyIndx e ie ip dma.indexLink)
  unfold placed
  split
  · exact h.trans (sameDims_enableRule e)
  · exact h

section Views

variable (t) (r : IpaNatRule) (v e p : Nat) (link : Bool) (z : Nat)

@[simp] theorem rule_noteMeta : (t.noteMeta e p).rule z = t.rule z := by
  unfold noteMeta; split <;> simp

@[simp] theorem indx_noteMeta : (t.noteMeta e p).indx z = t.indx z := by
  unfold noteMeta; split <;> simp

@[simp] theorem ruleIdArray_noteMeta : (t.noteMeta e p).ruleIdArray = t.ruleIdArray := by
  unfold noteMeta; split <;> simp

@[simp] theorem indx_copyRule : (t.copyRule r e p link).indx z = t.indx z := by
  unfold copyRule; dsimp only; split <;> simp

@[simp] theorem metaPrev_copyRule :
    (t.copyRule r e p link).metaPrev z = t.metaPrev z := by
  unfold copyRule; dsimp only; split <;> simp

@[simp] theorem ruleIdArray_copyRule : (t.copyRule r e p link).ruleIdArray = t.ruleIdArray := by
  unfold copyRule; dsimp only; split <;> simp

@[simp] theorem rule_copyIndx : (t.copyIndx v e p link).rule z = t.rule z := by
  unfold copyIndx; dsimp only; split <;> simp

@[simp] theorem metaPrev_copyIndx :
    (t.copyIndx v e p link).metaPrev z = t.metaPrev z := by
  unfold copyIndx; dsimp only; split <;> simp

@[simp] theorem ruleIdArray_copyIndx : (t.copyIndx v e p link).ruleIdArray = t.ruleIdArray := by
  unfold copyIndx; dsimp only; split <;> simp

@[simp] theorem indx_enableRule : (t.enableRule e).indx z = t.indx z := by
  simp [enableRule]

@[simp] theorem metaPrev_enableRule : (t.enableRule e).metaPrev z = t.metaPrev z := by
  simp [enableRule]

@[simp] theorem ruleIdArray_enableRule : (t.enableRule e).ruleIdArray = t.ruleIdArray := by
  simp [enableRule]

@[simp] theorem ruleIdArray_placed (c : IpaNatIpv4Rule) (ie ip : Nat) (dma : AddDma) :
    (t.placed c e p ie ip dma).ruleIdArray = t.ruleIdArray := by
  unfold placed
  split <;> simp

end Views

theorem rule_placed {e p : Nat} (he : e < t.rows) (hp : p < t.rows) (hpe : p ≠ e) (ie ip : Nat)
    (dma : AddDma) (z : Nat) :
    (t.placed c e p ie ip dma).rule z =
      if z = e then
        { c.swRule t.publicAddr with prevIndex := p, indxTblEntry := ie, enable := dma.enable }
      else if z = p ∧ p ≠ 0 ∧ dma.ruleLink = true then { t.rule p with nextIndex := e }
      else t.rule z := by
  have hcopy : ∀ z, ((t.noteMeta ie ip).copyRule
      { c.swRule t.publicAddr with prevIndex := p, indxTblEntry := ie } e p dma.ruleLink).rule z =
      if z = e then { c.swRule t.publicAddr with prevIndex := p, indxTblEntry := ie }
      else if z = p ∧ p ≠ 0 ∧ dma.ruleLink = true then { t.rule p with nextIndex := e }
      else t.rule z := by
    intro z
    have hrows := (sameDims_noteMeta (t := t) ie ip).rows
    unfold copyRule
    split
    · next hlink =>
      rw [rule_setRule (by simpa [hrows] using hp), rule_setRule (by simpa [hrows] using he),
        rule_setRule (by simpa [hrows] using he), if_neg hpe]
      simp only [rule_noteMeta]
      grind
    · next hlink =>
      rw [rule_setRule (by simpa [hrows] using he)]
      simp only [rule_noteMeta]
      grind
  unfold placed
  split
  · next henable =>
    unfold enableRule
    rw [rule_setRule]
    · simp only [rule_copyIndx, hcopy]
      by_cases hz : z = e
      · simp [hz, henable, IpaNatIpv4Rule.swRule]
      · simp [hz]
    · rw [(sameDims_copyIndx ..).rows, (sameDims_copyRule ..).rows, (sameDims_noteMeta ..).rows]
      exact he
  · next henable =>
    rw [rule_copyIndx, hcopy]
    by_cases hz : z = e
    · simp [hz, henable, IpaNatIpv4Rule.swRule]
    · simp [hz]

theorem indx_placed {ie ip : Nat} (hie : ie < t.rows) (hip : ip < t.rows) (hne : ip ≠ ie)
    (hlink : t.indxLinkRow ip = ip) (e p : Nat) (dma : AddDma) (z : Nat) :
    (t.placed c e p ie ip dma).indx z =
      if z = ie then { tblEntry := e }
      else if z = ip ∧ ip ≠ 0 ∧ dma.indexLink = true then { t.indx ip with nextIndex := ie }
      else t.indx z := by
  have hcopy : ∀ z, (((t.noteMeta ie ip).copyRule
      { c.swRule t.publicAddr with prevIndex := p, indxTblEntry := ie } e p dma.ruleLink).copyIndx
        e ie ip dma.indexLink).indx z =
      if z = ie then { tblEntry := e }
      else if z = ip ∧ ip ≠ 0 ∧ dma.indexLink = true then { t.indx ip with nextIndex := ie }
      else t.indx z := by
    intro z
    have hdims := (sameDims_noteMeta (t := t) ie ip).trans (sameDims_copyRule
      { c.swRule t.publicAddr with prevIndex := p, indxTblEntry := ie } e p dma.ruleLink)
    have hrows := hdims.rows
    unfold copyIndx
    dsimp only
    split
    · next hl =>
      have hrow : (((t.noteMeta ie ip).copyRule { c.swRule t.publicAddr with
          prevIndex := p, indxTblEntry := ie } e p dma.ruleLink).setIndx ie
            { tblEntry := e }).indxLinkRow ip = ip := by
        unfold indxLinkRow at hlink ⊢
        rw [tableEntries_setIndx, hdims.tableEntries]
        exact hlink
      rw [hrow, indx_setIndx (by simpa [hrows] using hip),
        indx_setIndx (by simpa [hrows] using hie), indx_setIndx (by simpa [hrows] using hie),
        if_neg hne]
      simp only [indx_copyRule, indx_noteMeta]
      grind
    · next hl =>
      rw [indx_setIndx (by simpa [hrows] using hie)]
      simp only [indx_copyRule, indx_noteMeta]
      grind
  unfold placed
  split
  · rw [indx_enableRule, hcopy]
  · exact hcopy z

theorem metaPrev_placed {ie : Nat} (hie : ie < t.rows) (e p ip : Nat) (dma : AddDma) (z : Nat) :
    (t.placed c e p ie ip dma).metaPrev z =
      if z = ie ∧ t.tableEntries ≤ ie then ip else t.metaPrev z := by
  have hnote : (t.noteMeta ie ip).metaPrev z =
      if z = ie ∧ t.tableEntries ≤ ie then ip else t.metaPrev z := by
    unfold noteMeta
    split
    · next hT =>
      rw [metaPrev_setMeta hT hie]
      simp [hT]
    · next hT => simp [hT]
  unfold placed
  split
  · rw [metaPrev_enableRule, metaPrev_copyIndx, metaPrev_copyRule, hnote]
  · rw [metaPrev_copyIndx, metaPrev_copyRule, hnote]

/-- **What an addition can do.** -/
theorem ipaNatiAddIpv4Rule_cases (hl : t.Layout) {dma : AddDma} {res : Except Errno Nat}
    (h : ipaNatiAddIpv4Rule t c dma = .ok (t', res)) :
    (t' = t ∧ res = .error .einval ∧ ipaNatiGenerateRule t c = .ok (t, none)) ∨
      ∃ e p ie ip, t.RuleSlot (t.dstBucket c) e p ∧ t.IndxSlot (t.srcBucket c) ie ip ∧
        ((dma.enable = false ∧ res = .error .eio ∧ t' = t.placed c e p ie ip dma) ∨
          (dma.enable = true ∧ res = .error .einval ∧ t' = t.placed c e p ie ip dma ∧
            ∀ i < t.rows, t.ruleIdArray.get i ≠ 0) ∨
          (dma.enable = true ∧ ∃ i, res = .ok (i + 1) ∧ i < t.rows ∧ t.ruleIdArray.get i = 0 ∧
            (∀ j < i, t.ruleIdArray.get j ≠ 0) ∧
            t' = (t.placed c e p ie ip dma).setRuleId i (ruleId t e))) := by
  obtain ⟨⟨t₁, gen⟩, hgen, h⟩ := bind_eq_ok h
  rcases ipaNatiGenerateRule_cases hl hgen with ⟨rfl, rfl⟩ | ⟨e, p, ie, ip, hslot, hslot', rfl, rfl⟩
  · cases h
    exact Or.inl ⟨rfl, rfl, hgen⟩
  refine Or.inr ⟨e, p, ie, ip, hslot, hslot', ?_⟩
  have hd₁ := sameDims_noteMeta (t := t) ie ip
  obtain ⟨t₂, hrule, h⟩ := bind_eq_ok h
  obtain rfl := ipaNatiCopyIpv4RuleToHw_cases (hd₁.layout hl) hrule
  have hd₂ := sameDims_copyRule (t := t.noteMeta ie ip)
    { c.swRule t.publicAddr with prevIndex := p, indxTblEntry := ie } e p dma.ruleLink
  obtain ⟨t₃, hindx, h⟩ := bind_eq_ok h
  obtain rfl := ipaNatiCopyIpv4IndexRuleToHw_cases (hd₂.layout (hd₁.layout hl)) rfl hindx
  have hd₃ := sameDims_copyIndx (t := (t.noteMeta ie ip).copyRule
    { c.swRule t.publicAddr with prevIndex := p, indxTblEntry := ie } e p dma.ruleLink)
    e ie ip dma.indexLink
  obtain ⟨t₄, hpost, h⟩ := bind_eq_ok h
  have hplaced : t₄ = t.placed c e p ie ip dma :=
    ipaNatiPostIpv4DmaCmd_cases (hd₃.layout (hd₂.layout (hd₁.layout hl))) hpost
  subst hplaced
  split at h
  · next henable =>
    refine Or.inr ?_
    obtain ⟨⟨t₅, hdl⟩, hmake, h⟩ := bind_eq_ok h
    have hids := ruleIdArray_placed t e p c ie ip dma
    have hdims := sameDims_placed (t := t) c e p ie ip dma
    have hid : ruleId (t.placed c e p ie ip dma) e = ruleId t e := hdims.ruleId e
    rcases ipaNatiMakeRuleHdl_cases hmake with ⟨rfl, rfl, hfull⟩ | ⟨i, rfl, hi, hi0, hbefore, rfl⟩
    · cases h
      rw [hdims.rows, hids] at hfull
      exact Or.inl ⟨henable, rfl, rfl, hfull⟩
    · cases h
      rw [hdims.rows] at hi
      rw [hids] at hi0 hbefore
      exact Or.inr ⟨henable, i, rfl, hi, hi0, hbefore, by rw [hid]⟩
  · next henable =>
    cases h
    exact Or.inl ⟨by simpa using henable, rfl, rfl⟩

end Cases

end Nx508j.Ipanat
