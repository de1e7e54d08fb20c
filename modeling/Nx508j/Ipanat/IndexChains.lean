import Nx508j.Ipanat.RuleChains

/-! # The chains of the index table

The index table as a table of chains: `next_index` links forward, the predecessors of expansion rows
are kept in `index_expn_table_meta`, and a row is occupied while it names a rule. Taking out the head
of a chain copies the row behind it over the head, so here it is the row behind that leaves the
chain. -/

namespace Nx508j.Ipanat

open Nx508j.Lib Function

namespace IpaNatIp4TableCache

def indxNext (t : IpaNatIp4TableCache) (x : Nat) : Nat := (t.indx x).nextIndex

def indxOcc (t : IpaNatIp4TableCache) (x : Nat) : Prop := (t.indx x).tblEntry ≠ 0

def IndxThreaded (t : IpaNatIp4TableCache) : Prop :=
  Threaded 0 t.indxNext t.metaPrev t.isHead t.indxOcc

def IndxAnchored (t : IpaNatIp4TableCache) (age owner : Nat → Nat) : Prop :=
  Anchored t.indxNext t.metaPrev t.isHead t.indxOcc age owner

/-- The sizes at which the 16-bit offset of an index link does not come round. -/
structure Small (t : IpaNatIp4TableCache) : Prop where
  layout : t.Layout
  tableEntries : t.tableEntries ≤ 16384

variable {t t' : IpaNatIp4TableCache} {c : IpaNatIpv4Rule} {age owner : Nat → Nat}

theorem SameDims.small (h : SameDims t t') (hs : t.Small) : t'.Small where
  layout := h.layout hs.layout
  tableEntries := by rw [h.tableEntries]; exact hs.tableEntries

theorem Small.indxLinkRow (hs : t.Small) {x : Nat} (hx : x < t.rows) : t.indxLinkRow x = x := by
  have hT := hs.tableEntries
  have hE := hs.layout.expnTableEntries
  unfold IpaNatIp4TableCache.indxLinkRow
  unfold IpaNatIp4TableCache.rows at hx
  split <;> omega

theorem indxOcc_lt {x : Nat} (h : t.indxOcc x) : x < t.rows := by
  by_contra hx
  unfold indxOcc at h
  rw [indx_of_le (Nat.not_lt.1 hx)] at h
  exact h rfl

theorem IndxThreaded.links (H : t.IndxThreaded) : t.IndxLinks := by
  intro z hz
  obtain ⟨hnh, hocc, -⟩ := H z hz
  exact ⟨Nat.not_lt.1 hnh, indxOcc_lt hocc⟩

/-! ## Additions -/

theorem IndxSlot.spec (hl : t.Layout) (H : t.IndxThreaded) {b e p : Nat} (hs : t.IndxSlot b e p)
    (hb : 1 ≤ b) :
    (e = b ∧ p = 0 ∧ ¬ t.indxOcc b) ∨
      (t.tableEntries < e ∧ ¬ t.indxOcc e ∧ t.indxOcc p ∧ t.indxNext p = 0 ∧ p ≠ 0 ∧
        ∀ I : Nat → Prop, I b → (∀ y, I y → t.indxNext y ≠ 0 → I (t.indxNext y)) → I p) := by
  cases hs with
  | base hfree => exact Or.inl ⟨rfl, rfl, by simp [indxOcc, hfree]⟩
  | expn hocc hlast hf hfE hfree =>
    have hinv : ∀ I : Nat → Prop, I b →
        (∀ y, I y → t.indxNext y ≠ 0 → I (t.indxNext y)) → I p ∧ t.indxNext p = 0 := by
      intro I hI hstep
      refine findLast_inv t.indx hl.rows_lt (fun y hT hy => ?_) H.links hI hstep hlast
      rw [← indx_expn (by omega), Nat.sub_add_cancel hT]
    refine Or.inr ⟨by omega, by simp [indxOcc, hfree], ?_, ?_, ?_, fun I hI hstep =>
      (hinv I hI hstep).1⟩
    · exact (hinv t.indxOcc hocc fun y _ hn => (H y hn).2.1).1
    · exact (hinv (fun _ => True) trivial fun _ _ _ => trivial).2
    · exact (hinv (· ≠ 0) (by omega) fun y _ hn => hn).1

theorem IndxSlot.ne (hl : t.Layout) (H : t.IndxThreaded) {b e p : Nat} (hs : t.IndxSlot b e p)
    (hb : 1 ≤ b) : p ≠ e ∧ p < t.rows ∧ ¬ t.indxOcc e := by
  rcases hs.spec hl H hb with ⟨rfl, rfl, hfree⟩ | ⟨-, hfree, hocc, -⟩
  · refine ⟨by omega, ?_, hfree⟩
    have := hl.two_le
    unfold IpaNatIp4TableCache.rows
    omega
  · exact ⟨fun he => hfree (he ▸ hocc), indxOcc_lt hocc, hfree⟩

section Placed

variable {e p ie ip : Nat} {dma : AddDma}

/-- The index rows of a slot, as `indx_placed` asks for them. -/
structure IndxPlace (t : IpaNatIp4TableCache) (ie ip : Nat) : Prop where
  lt : ie < t.rows
  prev_lt : ip < t.rows
  prev_ne : ip ≠ ie
  link : t.indxLinkRow ip = ip

theorem IndxSlot.place (hs : t.Small) (H : t.IndxThreaded)
    (hslot : t.IndxSlot (t.srcBucket c) ie ip) : t.IndxPlace ie ip := by
  obtain ⟨hb, hb'⟩ := hs.layout.srcBucket_range c
  obtain ⟨hne, hp, -⟩ := hslot.ne hs.layout H hb
  exact ⟨(hslot.range hb hb').2, hp, hne, hs.indxLinkRow hp⟩

theorem indxNext_placed (hp : t.IndxPlace ie ip) (z : Nat) :
    (t.placed c e p ie ip dma).indxNext z =
      if z = ie then 0 else if z = ip ∧ ip ≠ 0 ∧ dma.indexLink = true then ie
      else t.indxNext z := by
  unfold indxNext
  rw [indx_placed hp.lt hp.prev_lt hp.prev_ne hp.link]
  split
  · rfl
  · split <;> rfl

theorem tblEntry_placed (hp : t.IndxPlace ie ip) (z : Nat) :
    ((t.placed c e p ie ip dma).indx z).tblEntry = if z = ie then e else (t.indx z).tblEntry := by
  rw [indx_placed hp.lt hp.prev_lt hp.prev_ne hp.link]
  split
  · rfl
  · split
    · next h => rw [h.1]
    · rfl

theorem indxOcc_placed (hp : t.IndxPlace ie ip) (he : e ≠ 0) (z : Nat) :
    (t.placed c e p ie ip dma).indxOcc z ↔ t.indxOcc z ∨ z = ie := by
  unfold indxOcc
  rw [tblEntry_placed hp]
  split
  · next hz => simp [hz, he]
  · next hz => simp [hz]

theorem metaPrev_placed_of_ne (hp : t.IndxPlace ie ip) {z : Nat} (hz : z ≠ ie) :
    (t.placed c e p ie ip dma).metaPrev z = t.metaPrev z := by
  rw [metaPrev_placed hp.lt, if_neg fun h => hz h.1]

theorem IndxThreaded.placed (hs : t.Small) (H : t.IndxThreaded)
    (hslot : t.IndxSlot (t.srcBucket c) ie ip) (he : e ≠ 0) :
    (t.placed c e p ie ip dma).IndxThreaded := by
  obtain ⟨hb, hb'⟩ := hs.layout.srcBucket_range c
  have hp := hslot.place hs H
  have hfree := (hslot.ne hs.layout H hb).2.2
  unfold IndxThreaded
  rw [(sameDims_placed (t := t) c e p ie ip dma).isHead]
  refine Threaded.insert H (y := ie) (Or.inr hfree) ?_ (fun z hz => ?_)
    (fun z hz _ => metaPrev_placed_of_ne hp hz) (fun z hz => (indxOcc_placed hp he z).2 hz)
  · rw [indxNext_placed hp, if_pos rfl]
  · rw [indxNext_placed hp, if_neg hz]
    split
    · next hlink =>
      rcases hslot.spec hs.layout H hb with ⟨-, hp0, -⟩ | ⟨hT, -⟩
      · exact absurd hp0 hlink.2.1
      · refine Or.inr ⟨rfl, Nat.not_lt.2 hT.le, ?_⟩
        rw [metaPrev_placed hp.lt, if_pos ⟨rfl, hT.le⟩, hlink.1]
    · exact Or.inl rfl

theorem IndxAnchored.placed (hs : t.Small) (H : t.IndxThreaded) (A : t.IndxAnchored age owner)
    (hslot : t.IndxSlot (t.srcBucket c) ie ip) (he : e ≠ 0) (hlink : dma.indexLink = true) :
    ∃ age', (t.placed c e p ie ip dma).IndxAnchored age'
      (update owner ie (t.srcBucket c)) := by
  obtain ⟨hb, hb'⟩ := hs.layout.srcBucket_range c
  have hp := hslot.place hs H
  have hfree := (hslot.ne hs.layout H hb).2.2
  have hocc : ∀ z, (t.placed c e p ie ip dma).indxOcc z ↔ t.indxOcc z ∨ z = ie :=
    indxOcc_placed hp he
  unfold IndxAnchored
  rw [(sameDims_placed (t := t) c e p ie ip dma).isHead]
  rcases hslot.spec hs.layout H hb with ⟨heb, rfl, -⟩ | ⟨hT, -, hpo, hlast, hp0, hinv⟩
  · have hown : update owner ie (t.srcBucket c) = owner := by
      rw [← heb]
      refine update_eq_self_iff.2 ?_
      rw [A.owner_head ie (heb ▸ hb')]
    rw [hown]
    refine ⟨age, A.insertHead hfree (fun z hz => ?_) (fun z hz => ?_) (heb ▸ hb') hocc⟩
    · rw [indxNext_placed hp, if_neg hz, if_neg (by simp)]
    · exact metaPrev_placed_of_ne hp fun h => hz (by rw [h, heb]; exact hb')
  · have howner : owner ip = t.srcBucket c := by
      refine hinv (fun y => owner y = t.srcBucket c) (A.owner_head _ hb') fun y hy hn => ?_
      obtain ⟨hnh, ho, hback⟩ := H y hn
      rw [A.owner_eq _ hnh ho, hback, hy]
    rw [← howner]
    refine ⟨_, A.insert hs.layout.isHead_zero (Nat.not_lt.2 hT.le) hfree hpo hlast ?_ ?_ ?_ ?_
      hocc⟩
    · rw [indxNext_placed hp, if_neg hp.prev_ne, if_pos ⟨rfl, hp0, hlink⟩]
    · rw [metaPrev_placed hp.lt, if_pos ⟨rfl, hT.le⟩]
    · intro z hze hzp
      rw [indxNext_placed hp, if_neg hze, if_neg fun h => hzp h.1]
    · intro z hze _
      exact metaPrev_placed_of_ne hp hze

end Placed

/-! ## Deletions -/

section Unlinked

variable {x : Nat}

/-- The index row that leaves its chain when row `x` is taken out: the one behind a head, else `x`. -/
def indxGone (t : IpaNatIp4TableCache) (x : Nat) : Nat :=
  if x < t.tableEntries ∧ t.indxNext x ≠ 0 then t.indxNext x else x

theorem indxUnlinked_onlyOne (hT : x < t.tableEntries) (hn : t.indxNext x = 0) (z : Nat) :
    t.indxUnlinked x z = (if z = x then {} else t.indx z) ∧
      t.metaUnlinked x z = t.metaPrev z := by
  have hn : (t.indx x).nextIndex = 0 := hn
  unfold indxUnlinked metaUnlinked
  simp only [hT, hn, ↓reduceIte, ne_eq, not_true_eq_false, and_false, and_self]

theorem indxUnlinked_head (hT : x < t.tableEntries) {n : Nat} (hn : t.indxNext x = n)
    (hn0 : n ≠ 0) (z : Nat) :
    t.indxUnlinked x z = (if z = x then t.indx n else if z = n then {} else t.indx z) ∧
      t.metaUnlinked x z =
        if z = t.indxNext n ∧ t.indxNext n ≠ 0 then x else t.metaPrev z := by
  have hn : (t.indx x).nextIndex = n := hn
  unfold indxUnlinked metaUnlinked indxNext
  simp only [hT, hn, hn0, ↓reduceIte, ne_eq, not_false_eq_true, and_true, and_self]

theorem indxUnlinked_expn (hT : t.tableEntries ≤ x) (z : Nat) :
    t.indxUnlinked x z = (if z = x then {} else
      { t.indx z with
        nextIndex := if z = t.metaPrev x then t.indxNext x else (t.indx z).nextIndex }) ∧
      t.metaUnlinked x z = if t.indxNext x = 0 then t.metaPrev z
        else if z = x then 0 else if z = t.indxNext x then t.metaPrev x else t.metaPrev z := by
  unfold indxUnlinked metaUnlinked indxNext
  simp only [Nat.not_lt.2 hT, ↓reduceIte, and_self]

theorem IndxThreaded.unlinked (H : t.IndxThreaded) (hl : t.Layout) :
    Threaded 0 (fun z => (t.indxUnlinked x z).nextIndex) (t.metaUnlinked x) t.isHead
      (fun z => (t.indxUnlinked x z).tblEntry ≠ 0) := by
  by_cases hT : x < t.tableEntries
  · by_cases hn : t.indxNext x = 0
    · refine Threaded.removeHeads H (D := (· = x)) ?_ ?_ ?_ ?_ ?_
      · rintro z rfl
        exact hT
      · rintro z rfl
        rw [(indxUnlinked_onlyOne hT hn z).1, if_pos rfl]
      · intro z hz
        rw [(indxUnlinked_onlyOne hT hn z).1, if_neg hz]
        rfl
      · intro z _
        exact (indxUnlinked_onlyOne hT hn z).2
      · intro z ho hz
        rw [(indxUnlinked_onlyOne hT hn z).1, if_neg hz]
        exact ho
    · obtain ⟨n, hxn⟩ : ∃ n, n = t.indxNext x := ⟨_, rfl⟩
      rw [← hxn] at hn
      obtain ⟨hnh, hno, hback⟩ := H x (hxn ▸ hn)
      rw [← hxn] at hnh hno hback
      have hnx : n ≠ x := fun h => hnh (h ▸ hT)
      have hnn : t.indxNext n ≠ n := by
        intro h
        have := (H n (by rw [h]; exact hn)).2.2
        rw [h, hback] at this
        exact hnx this.symm
      have hrow := fun z => (indxUnlinked_head hT hxn.symm hn z).1
      have hmeta := fun z => (indxUnlinked_head hT hxn.symm hn z).2
      refine Threaded.unlink H (x := n) ?_ (fun z hz => ?_) (fun z hz => ?_) (fun z hz hzn _ => ?_)
        (fun z ho hz => ?_)
      · rw [hrow, if_neg hnx, if_pos rfl]
      · rw [hrow]
        split
        · exact hnn
        · next hzx =>
          intro hzn
          have := (H z (by unfold indxNext; rw [hzn]; exact hn)).2.2
          have hzn : t.indxNext z = n := hzn
          rw [hzn, hback] at this
          exact hzx this.symm
      · rw [hrow]
        split
        · next hzx =>
          by_cases hn' : t.indxNext n = 0
          · exact Or.inr (Or.inl hn')
          · refine Or.inr (Or.inr ⟨rfl, ?_⟩)
            rw [hmeta, if_pos ⟨rfl, hn'⟩, hzx]
        · exact Or.inl rfl
      · rw [hmeta, if_neg fun h => hzn h.1]
      · rw [hrow]
        split
        · exact hno
        · exact ho
  · have hT : t.tableEntries ≤ x := Nat.not_lt.1 hT
    have hx0 : x ≠ 0 := by
      have := hl.two_le
      omega
    have hrow := fun z => (indxUnlinked_expn hT z).1
    have hmeta := fun z => (indxUnlinked_expn hT z).2
    refine Threaded.unlink H (x := x) ?_ (fun z hz => ?_) (fun z hz => ?_) (fun z hz hzn _ => ?_)
      (fun z ho hz => ?_)
    · rw [hrow, if_pos rfl]
    · rw [hrow, if_neg hz]
      dsimp only
      split
      · next hzp =>
        intro hxx
        have := (H x (by rw [hxx]; exact hx0)).2.2
        rw [hxx] at this
        exact hz (hzp.trans this)
      · next hzp =>
        intro hzx
        have hzx : t.indxNext z = x := hzx
        have := (H z (by rw [hzx]; exact hx0)).2.2
        rw [hzx] at this
        exact hzp this.symm
    · rw [hrow, if_neg hz]
      split
      · next hzp =>
        by_cases hn : t.indxNext x = 0
        · exact Or.inr (Or.inl hn)
        · refine Or.inr (Or.inr ⟨rfl, ?_⟩)
          have hnx : t.indxNext x ≠ x := by
            intro hxx
            have := (H x hn).2.2
            rw [hxx] at this
            exact hz (hzp.trans this)
          rw [hmeta, if_neg hn, if_neg hnx, if_pos rfl, hzp]
      · exact Or.inl rfl
    · rw [hmeta]
      split <;> rfl
    · rw [hrow, if_neg hz]
      exact ho

theorem IndxAnchored.unlinked (A : t.IndxAnchored age owner) (H : t.IndxThreaded) (hl : t.Layout)
    (hocc : t.indxOcc x) :
    Anchored (fun z => (t.indxUnlinked x z).nextIndex) (t.metaUnlinked x) t.isHead
      (fun z => (t.indxUnlinked x z).tblEntry ≠ 0) age owner := by
  by_cases hT : x < t.tableEntries
  · by_cases hn : t.indxNext x = 0
    · refine Anchored.removeHeads A hl.isHead_zero (D := (· = x)) ?_ ?_ ?_ ?_
      · rintro z rfl
        exact hn
      · intro z hz
        rw [(indxUnlinked_onlyOne hT hn z).1, if_neg hz]
        rfl
      · intro z _
        exact (indxUnlinked_onlyOne hT hn z).2
      · intro z
        rw [(indxUnlinked_onlyOne hT hn z).1]
        by_cases hz : z = x
        · simp [hz]
        · simp [hz, indxOcc]
    · obtain ⟨n, hxn⟩ : ∃ n, n = t.indxNext x := ⟨_, rfl⟩
      rw [← hxn] at hn
      obtain ⟨hnh, hno, hback⟩ := H x (hxn ▸ hn)
      rw [← hxn] at hnh hno hback
      have hnx : n ≠ x := fun h => hnh (h ▸ hT)
      have hrow := fun z => (indxUnlinked_head hT hxn.symm hn z).1
      have hmeta := fun z => (indxUnlinked_head hT hxn.symm hn z).2
      refine Anchored.unlink A H hl.isHead_zero hnh hno ?_ (fun z hz hzp => ?_)
        (fun hn' => ?_) (fun z hz hzn _ => ?_) (fun z => ?_)
      · rw [hback, hrow, if_pos rfl]
        rfl
      · rw [hback] at hzp
        rw [hrow, if_neg hzp, if_neg hz]
        rfl
      · rw [hmeta, if_pos ⟨rfl, hn'⟩, hback]
      · rw [hmeta, if_neg fun h => hzn h.1]
      · rw [hrow]
        by_cases hzx : z = x
        · have hno : (t.indx n).tblEntry ≠ 0 := hno
          simp [hzx, hnx.symm, hno, hocc]
        · by_cases hz : z = n
          · simp [hz, hnx]
          · simp [hzx, hz, indxOcc]
  · have hxh : ¬ t.isHead x := hT
    have hT : t.tableEntries ≤ x := Nat.not_lt.1 hT
    have hrow := fun z => (indxUnlinked_expn hT z).1
    have hmeta := fun z => (indxUnlinked_expn hT z).2
    have hpx : t.metaPrev x ≠ x := by
      intro he
      have hlt := A.age_lt x hxh hocc (by rw [he]; exact hxh)
      rw [he] at hlt
      exact lt_irrefl _ hlt
    refine Anchored.unlink A H hl.isHead_zero hxh hocc ?_ (fun z hz hzp => ?_)
      (fun hn => ?_) (fun z hz hzn _ => ?_) (fun z => ?_)
    · rw [hrow, if_neg hpx, if_pos rfl]
    · rw [hrow, if_neg hz, if_neg hzp]
      rfl
    · have hnx : t.indxNext x ≠ x := by
        intro he
        have hback := (H x hn).2.2
        rw [he] at hback
        exact hpx hback
      rw [hmeta, if_neg hn, if_neg hnx, if_pos rfl]
    · rw [hmeta]
      split <;> rfl
    · rw [hrow]
      by_cases hz : z = x
      · simp [hz]
      · simp [hz, indxOcc]

variable {slot : Nat}

theorem IndxThreaded.deleted (H : t.IndxThreaded) (hl : t.Layout) (hd : t.Deleted t' x slot) :
    t'.IndxThreaded := by
  have hstep := H.unlinked (x := (t.rule x).indxTblEntry) hl
  have hindx := funext (hd.indx H.links)
  have hmeta := funext (hd.metaPrev H.links)
  unfold IndxThreaded indxNext indxOcc
  rw [hd.dims.isHead, hindx, hmeta]
  exact hstep

theorem IndxAnchored.deleted (A : t.IndxAnchored age owner) (H : t.IndxThreaded) (hl : t.Layout)
    (hocc : t.indxOcc (t.rule x).indxTblEntry) (hd : t.Deleted t' x slot) :
    t'.IndxAnchored age owner := by
  have hstep := A.unlinked H hl hocc
  have hindx := funext (hd.indx H.links)
  have hmeta := funext (hd.metaPrev H.links)
  unfold IndxAnchored indxNext indxOcc
  rw [hd.dims.isHead, hindx, hmeta]
  exact hstep

end Unlinked

end IpaNatIp4TableCache

end Nx508j.Ipanat
