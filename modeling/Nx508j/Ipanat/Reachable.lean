import Nx508j.Ipanat.Runs

/-! # What every run leads to

A run from a freshly added table whose DMA writes all succeed leaves both tables chained, each rule
and its index row naming each other (`run_chained`), and both lookups of the hardware finding exactly
the live rules (`run_lookups`). Handles stay good on tables of any size (`run_handles`). -/

namespace Nx508j.Ipanat

open Nx508j.Lib Function

namespace IpaNatIp4TableCache

/-! ## Lookups -/

/-- The expansion rows met from a base row of the rule table. -/
def ruleChain (t : IpaNatIp4TableCache) (b : Nat) : List Nat :=
  chainFrom 0 t.ruleNext t.expnTableEntries b

/-- The expansion rows met from a base row of the index table. -/
def indxChain (t : IpaNatIp4TableCache) (b : Nat) : List Nat :=
  chainFrom 0 t.indxNext t.expnTableEntries b

/-- The lookup from the public side: the enabled rules in the chain of a bucket, less a dead head. -/
def dstLookup (t : IpaNatIp4TableCache) (b : Nat) : List Nat :=
  (b :: t.ruleChain b).filter fun x =>
    (t.rule x).enable && (t.rule x).protocol != ipaNatInvalidProtoFieldCmp

/-- The lookup from the private side: the rules named in the chain of an index bucket. -/
def srcLookup (t : IpaNatIp4TableCache) (b : Nat) : List Nat :=
  ((b :: t.indxChain b).filter fun y => (t.indx y).tblEntry != 0).map fun y => (t.indx y).tblEntry

variable {t t' : IpaNatIp4TableCache} {L : Live} {age owner indxAge indxOwner : Nat → Nat}

/-! ## Chains of a threaded table -/

theorem mem_expnRows {x : Nat} (hx : ¬ t.isHead x) (hlt : x < t.rows) : x ∈ expnRows t :=
  Finset.mem_Ico.2 ⟨Nat.not_lt.1 hx, hlt⟩

variable {b h : Nat}

theorem RuleThreaded.ruleChain (R : t.RuleThreaded) (hb : t.isHead b) :
    Path 0 t.ruleNext b (t.ruleChain b) ∧ (t.ruleChain b).Nodup :=
  R.path_chainFrom (expnRows t) (fun _ hx ho => mem_expnRows hx (ruleOcc_lt ho))
    (card_expnRows t).le hb

theorem IndxThreaded.indxChain (X : t.IndxThreaded) (hb : t.isHead b) :
    Path 0 t.indxNext b (t.indxChain b) ∧ (t.indxChain b).Nodup :=
  X.path_chainFrom (expnRows t) (fun _ hx ho => mem_expnRows hx (indxOcc_lt ho))
    (card_expnRows t).le hb

section

variable (I : t.NatInv L age owner indxAge indxOwner)
include I

theorem NatInv.ruleChained : Chained 0 t.ruleNext t.rulePrev t.isHead t.ruleOcc t.ruleChain :=
  I.ruleAnchored.chained_chainFrom I.ruleThreaded I.small.layout.isHead_zero (expnRows t)
    (fun _ hx ho => mem_expnRows hx (ruleOcc_lt ho)) (card_expnRows t).le

theorem NatInv.indxChained : Chained 0 t.indxNext t.metaPrev t.isHead t.indxOcc t.indxChain :=
  I.indxAnchored.chained_chainFrom I.indxThreaded I.small.layout.isHead_zero (expnRows t)
    (fun _ hx ho => mem_expnRows hx (indxOcc_lt ho)) (card_expnRows t).le

/-! ## What the lookups find -/

theorem NatInv.mem_bucket {b x : Nat}
    (hb : t.isHead b) (hx : t.ruleOcc x) : x ∈ b :: t.ruleChain b ↔ owner x = b := by
  have hmem := I.ruleAnchored.mem_iff I.ruleThreaded I.small.layout.isHead_zero hb
    (I.ruleThreaded.ruleChain hb).1 (x := x)
  rw [List.mem_cons, hmem]
  constructor
  · rintro (rfl | h)
    · exact I.ruleAnchored.owner_head _ hb
    · exact h.2.2
  · intro how
    by_cases hxh : t.isHead x
    · exact Or.inl ((I.ruleAnchored.owner_head x hxh).symm.trans how)
    · exact Or.inr ⟨hxh, hx, how⟩

theorem NatInv.mem_indxBucket {b y : Nat}
    (hb : t.isHead b) (hy : t.indxOcc y) : y ∈ b :: t.indxChain b ↔ indxOwner y = b := by
  have hmem := I.indxAnchored.mem_iff I.indxThreaded I.small.layout.isHead_zero hb
    (I.indxThreaded.indxChain hb).1 (x := y)
  rw [List.mem_cons, hmem]
  constructor
  · rintro (rfl | h)
    · exact I.indxAnchored.owner_head _ hb
    · exact h.2.2
  · intro how
    by_cases hyh : t.isHead y
    · exact Or.inl ((I.indxAnchored.owner_head y hyh).symm.trans how)
    · exact Or.inr ⟨hyh, hy, how⟩

end

theorem HdlInv.client_hdlRow (H : t.HdlInv L) {c : IpaNatIpv4Rule} (hc : L h = some c) :
    (t.rule (t.hdlRow h)).client = c :=
  (H.stores h c hc).client

theorem NatInv.mem_dstLookup (I : t.NatInv L age owner indxAge indxOwner) (hb : b < t.tableEntries)
    (x : Nat) : x ∈ t.dstLookup b ↔ ∃ h c, L h = some c ∧ t.hdlRow h = x ∧ t.dstBucket c = b := by
  have hfilter : x ∈ t.dstLookup b ↔ x ∈ b :: t.ruleChain b ∧ t.LiveRow x := by
    unfold dstLookup LiveRow ruleOcc
    rw [List.mem_filter]
    simp
  rw [hfilter]
  constructor
  · rintro ⟨hmem, hlive⟩
    have howner := (I.mem_bucket hb hlive.1).1 hmem
    obtain ⟨h, c, hc, rfl⟩ := I.hdl.covered x hlive
    refine ⟨h, c, hc, rfl, ?_⟩
    rw [← howner, I.dst _ hlive, I.hdl.client_hdlRow hc]
  · rintro ⟨h, c, hc, rfl, rfl⟩
    have hlive := I.hdl.liveRow hc
    refine ⟨(I.mem_bucket hb hlive.1).2 ?_, hlive⟩
    rw [I.dst _ hlive, I.hdl.client_hdlRow hc]

theorem NatInv.mem_srcLookup (I : t.NatInv L age owner indxAge indxOwner) (hb : b < t.tableEntries)
    (x : Nat) : x ∈ t.srcLookup b ↔ ∃ h c, L h = some c ∧ t.hdlRow h = x ∧ t.srcBucket c = b := by
  have hl := I.small.layout
  have hmap : x ∈ t.srcLookup b ↔
      ∃ y, (y ∈ b :: t.indxChain b ∧ t.indxOcc y) ∧ (t.indx y).tblEntry = x := by
    unfold srcLookup indxOcc
    rw [List.mem_map]
    simp only [List.mem_filter, bne_iff_ne]
  rw [hmap]
  constructor
  · rintro ⟨y, ⟨hmem, hocc⟩, rfl⟩
    have howner := (I.mem_indxBucket hb hocc).1 hmem
    obtain ⟨h, c, hc, hrow⟩ := I.hdl.covered _ (I.coupled.live y hocc)
    refine ⟨h, c, hc, hrow, ?_⟩
    rw [← howner, I.src y hocc, ← hrow, I.hdl.client_hdlRow hc]
  · rintro ⟨h, c, hc, rfl, rfl⟩
    have hlive := I.hdl.liveRow hc
    have hocc := hlive.indxOcc hl I.coupled I.hdl
    have hentry := I.coupled.tblEntry _ hlive
    refine ⟨_, ⟨(I.mem_indxBucket hb hocc).2 ?_, hocc⟩, hentry⟩
    rw [I.src _ hocc, hentry, I.hdl.client_hdlRow hc]

theorem NatInv.lookup_nodup (I : t.NatInv L age owner indxAge indxOwner) (hb : b < t.tableEntries) :
    (t.dstLookup b).Nodup ∧ (t.srcLookup b).Nodup := by
  have hR := I.ruleChained
  have hX := I.indxChained
  have hrule : (b :: t.ruleChain b).Nodup :=
    List.nodup_cons.2 ⟨fun h => hR.not_head b b hb h hb, hR.nodup b hb⟩
  have hindx : (b :: t.indxChain b).Nodup :=
    List.nodup_cons.2 ⟨fun h => hX.not_head b b hb h hb, hX.nodup b hb⟩
  refine ⟨hrule.filter _, (hindx.filter _).map_on fun y hy y' hy' he => ?_⟩
  have hocc : t.indxOcc y := by simpa [indxOcc] using (List.mem_filter.1 hy).2
  have hocc' : t.indxOcc y' := by simpa [indxOcc] using (List.mem_filter.1 hy').2
  rw [← I.coupled.indxTblEntry y hocc, ← I.coupled.indxTblEntry y' hocc', he]

/-- The chains of both tables are in order, and so is what ties the tables together, where the live
    handles stand for the rules `L`. -/
structure TablesChained (t : IpaNatIp4TableCache) (L : Live) : Prop where
  rule : Chained 0 t.ruleNext t.rulePrev t.isHead t.ruleOcc t.ruleChain
  indx : Chained 0 t.indxNext t.metaPrev t.isHead t.indxOcc t.indxChain
  ruleRows : ∀ b, t.isHead b → ∀ x ∈ t.ruleChain b, t.tableEntries ≤ x ∧ x < t.rows
  indxRows : ∀ b, t.isHead b → ∀ y ∈ t.indxChain b, t.tableEntries ≤ y ∧ y < t.rows
  /-- A live rule names an index row that names it back. -/
  indxTblEntry : ∀ h c, L h = some c → t.LiveRow (t.hdlRow h) ∧
    (t.indx (t.rule (t.hdlRow h)).indxTblEntry).tblEntry = t.hdlRow h
  /-- An occupied index row names a live rule that names it back. -/
  tblEntry : ∀ y, t.indxOcc y → ∃ h c, L h = some c ∧ t.hdlRow h = (t.indx y).tblEntry ∧
    (t.rule (t.indx y).tblEntry).indxTblEntry = y

theorem NatInv.tablesChained (I : t.NatInv L age owner indxAge indxOwner) : t.TablesChained L where
  rule := I.ruleChained
  indx := I.indxChained
  ruleRows b hb x hx := by
    obtain ⟨hnh, hocc⟩ := I.ruleThreaded.mem_path (I.ruleThreaded.ruleChain hb).1 hx
    exact ⟨Nat.not_lt.1 hnh, ruleOcc_lt hocc⟩
  indxRows b hb y hy := by
    obtain ⟨hnh, hocc⟩ := I.indxThreaded.mem_path (I.indxThreaded.indxChain hb).1 hy
    exact ⟨Nat.not_lt.1 hnh, indxOcc_lt hocc⟩
  indxTblEntry h c hc := by
    have hlive := I.hdl.liveRow hc
    exact ⟨hlive, I.coupled.tblEntry _ hlive⟩
  tblEntry y hy := by
    obtain ⟨h, c, hc, hrow⟩ := I.hdl.covered _ (I.coupled.live y hy)
    exact ⟨h, c, hc, hrow, I.coupled.indxTblEntry y hy⟩

/-- Both lookups find exactly the rules `L`, each once, in the bucket of its own hash and with the
    tuple, public port and checksum deltas it was added with. -/
structure LookupsExact (t : IpaNatIp4TableCache) (L : Live) : Prop where
  stores : ∀ h c, L h = some c → t.Stores (t.hdlRow h) c
  inj : ∀ h h' c c', L h = some c → L h' = some c' → t.hdlRow h = t.hdlRow h' → h = h'
  dst : ∀ b < t.tableEntries, ∀ x, x ∈ t.dstLookup b ↔
    ∃ h c, L h = some c ∧ t.hdlRow h = x ∧ t.dstBucket c = b
  src : ∀ b < t.tableEntries, ∀ x, x ∈ t.srcLookup b ↔
    ∃ h c, L h = some c ∧ t.hdlRow h = x ∧ t.srcBucket c = b
  dst_all : ∀ x, (∃ b < t.tableEntries, x ∈ t.dstLookup b) ↔ ∃ h c, L h = some c ∧ t.hdlRow h = x
  src_all : ∀ x, (∃ b < t.tableEntries, x ∈ t.srcLookup b) ↔ ∃ h c, L h = some c ∧ t.hdlRow h = x
  nodup : ∀ b < t.tableEntries, (t.dstLookup b).Nodup ∧ (t.srcLookup b).Nodup

theorem NatInv.lookupsExact (I : t.NatInv L age owner indxAge indxOwner) : t.LookupsExact L where
  stores := I.hdl.stores
  inj := I.hdl.inj
  dst _ hb := I.mem_dstLookup hb
  src _ hb := I.mem_srcLookup hb
  dst_all x := by
    constructor
    · rintro ⟨b, hb, hx⟩
      obtain ⟨h, c, hc, hrow, -⟩ := (I.mem_dstLookup hb x).1 hx
      exact ⟨h, c, hc, hrow⟩
    · rintro ⟨h, c, hc, hrow⟩
      have hb := (I.small.layout.dstBucket_range c).2
      exact ⟨_, hb, (I.mem_dstLookup hb x).2 ⟨h, c, hc, hrow, rfl⟩⟩
  src_all x := by
    constructor
    · rintro ⟨b, hb, hx⟩
      obtain ⟨h, c, hc, hrow, -⟩ := (I.mem_srcLookup hb x).1 hx
      exact ⟨h, c, hc, hrow⟩
    · rintro ⟨h, c, hc, hrow⟩
      have hb := (I.small.layout.srcBucket_range c).2
      exact ⟨_, hb, (I.mem_srcLookup hb x).2 ⟨h, c, hc, hrow, rfl⟩⟩
  nodup _ hb := I.lookup_nodup hb

/-- From `t` to `t'` every rule of `L` but that of `ruleHdl` stays in its row, with its content, and
    is found by both lookups. -/
def OthersKept (t t' : IpaNatIp4TableCache) (L : Live) (ruleHdl : Nat) : Prop :=
  ∀ h c, h ≠ ruleHdl → L h = some c →
    t'.hdlRow h = t.hdlRow h ∧ t'.Stores (t.hdlRow h) c ∧
      t.hdlRow h ∈ t'.dstLookup (t'.dstBucket c) ∧ t.hdlRow h ∈ t'.srcLookup (t'.srcBucket c)

variable {r : Except Errno Nat} {call : RuleCall}

theorem HdlInv.slot_step (H : t.HdlInv L) (hl : t.Layout) (hlinks : t.RuleLinks)
    (hstep : ruleStep t call = .ok (t', r)) {c c' : IpaNatIpv4Rule} (hc : L h = some c)
    (hc' : L.after (call, r) h = some c') :
    t'.ruleIdArray.get (h - 1) = t.ruleIdArray.get (h - 1) := by
  have hpos := H.pos h c hc
  rcases ruleStep_cases hl hlinks hstep with
    ⟨rfl, -⟩ | ⟨d, dma, e, p, ie, ip, rfl, hs, -, hcase⟩ | ⟨hdl, x, rfl, hof, -, rfl, hd⟩
  · rfl
  · rcases hcase with ⟨err, -, rfl, -⟩ | ⟨i, -, rfl, hi, hi0, hb, rfl⟩
    · rw [ruleIdArray_placed]
    · have hne : h - 1 ≠ i := fun he => H.id_ne_zero h c hc (by rw [he, hi0])
      rw [ruleIdArray_setRuleId, ruleIdArray_placed, Region.get_set, if_neg hne]
  · have hne : h ≠ hdl.toNat := by
      rintro rfl
      have hc' : update L hdl.toNat none hdl.toNat = some c' := hc'
      rw [update_self] at hc'
      cases hc'
    have hhdl := hof.pos
    rw [hd.ruleIdArray, Region.get_set, if_neg (by omega)]

theorem NatInv.hdlRow_step (I : t.NatInv L age owner indxAge indxOwner)
    (hstep : ruleStep t call = .ok (t', r)) {c c' : IpaNatIpv4Rule} (hc : L h = some c)
    (hc' : L.after (call, r) h = some c') : t'.hdlRow h = t.hdlRow h := by
  have hd := I.small.layout.step I.ruleThreaded.links hstep
  unfold hdlRow rowOf
  rw [I.hdl.slot_step I.small.layout I.ruleThreaded.links hstep hc hc', hd.tableEntries]

/-- What the parser makes of the live handles: each is a row of its own, that stores its rule. -/
structure HandlesGood (t : IpaNatIp4TableCache) (L : Live) : Prop where
  parse : ∀ h c, L h = some c → ∃ expnTbl tblEntry row,
    ipaNatiParseIpv4RuleHdl t h = .ok (expnTbl, tblEntry) ∧ tblEntry ≠ ipaNatInvalidNatEntry ∧
      (t.ruleTbl expnTbl).read tblEntry = .ok row ∧ row.enable = true ∧ row.client = c
  inj : ∀ h h' c c', L h = some c → L h' = some c' →
    ipaNatiParseIpv4RuleHdl t h = ipaNatiParseIpv4RuleHdl t h' → h = h'

theorem HdlInv.parse_eq (H : t.HdlInv L) (hs : t.Sized) {c : IpaNatIpv4Rule}
    (hc : L h = some c) : ipaNatiParseIpv4RuleHdl t h =
      .ok (t.ruleIdArray.get (h - 1) % 2 == 1, t.ruleIdArray.get (h - 1) / 2) := by
  have hpos := H.pos h c hc
  have hlt := H.lt h c hc
  unfold ipaNatiParseIpv4RuleHdl
  rw [if_neg (by omega), if_neg (by omega), Region.read_ok (by rw [hs.ruleIdArray]; omega)]
  rfl

theorem HdlInv.handlesGood (H : t.HdlInv L) (hs : t.Sized)
    (hbase : ∀ h c, L h = some c → (t.ruleIdArray.get (h - 1) % 2 == 1) = false →
      t.ruleIdArray.get (h - 1) / 2 < t.tableEntries) : t.HandlesGood L where
  parse h c hc := by
    have hst := H.stores h c hc
    refine ⟨_, _, _, H.parse_eq hs hc, H.id_ne_zero h c hc,
      ruleTbl_read_ok hs (hbase h c hc) rfl (ruleOcc_lt hst.occ), hst.occ, hst.client⟩
  inj h h' c c' hc hc' he := by
    rw [H.parse_eq hs hc, H.parse_eq hs hc'] at he
    obtain ⟨h₁, h₂⟩ : _ ∧ _ := by simpa only [Except.ok.injEq, Prod.mk.injEq] using he
    refine H.inj h h' c c' hc hc' ?_
    unfold hdlRow
    rw [h₁, h₂]

/-! ## Runs -/

/-- The parts of the invariant that no failing write can harm. -/
structure Sound (t : IpaNatIp4TableCache) : Prop where
  layout : t.Layout
  bounded : t.Bounded
  ids : t.Ids

theorem Fresh.sound (hf : t.Fresh) (hT : t.tableEntries ≠ 0) : t.Sound :=
  ⟨hf.layout hT, hf.bounded hT, hf.ids⟩

theorem Sound.step (S : t.Sound) (h : ruleStep t call = .ok (t', r)) : t'.Sound where
  layout := (S.layout.step S.bounded.ruleLinks h).layout S.layout
  bounded := S.bounded.step S.layout h
  ids := S.ids.step S.layout S.bounded.ruleLinks h

variable {t₀ : IpaNatIp4TableCache} {tr : List (RuleCall × Except Errno Nat)}
  {C : IpaNatIp4TableCache → RuleCall → Prop}

theorem Fresh.sound_run (hf : t₀.Fresh) (hT : t₀.tableEntries ≠ 0)
    (hrun : Run ruleStep C t₀ tr t) : t.Sound :=
  hrun.invariant (fun _ t => t.Sound) (hf.sound hT) fun _ _ _ _ _ S _ hstep => S.step hstep

theorem Fresh.natInv_run (hf : t₀.Fresh) (hT : t₀.tableEntries ≠ 0)
    (hT' : t₀.tableEntries ≤ 16384)
    (hrun : Run ruleStep (fun _ call => call.AllOk ∧ call.Unreserved) t₀ tr t) :
    ∃ age owner indxAge indxOwner, t.NatInv (live tr) age owner indxAge indxOwner := by
  refine hrun.invariant
    (fun tr t => ∃ age owner indxAge indxOwner, t.NatInv (live tr) age owner indxAge indxOwner)
    ⟨_, _, _, _, hf.natInv hT hT'⟩ ?_
  rintro tr t call t' r ⟨_, _, _, _, I⟩ ⟨hok, hp⟩ hstep
  rw [live_snoc]
  exact I.step hok hp hstep

end IpaNatIp4TableCache

open IpaNatIp4TableCache

/-- A call that keeps the chains and the lookups in order: its writes succeed, and it is for a TCP or
    UDP rule. -/
def RuleCall.Regular (call : RuleCall) : Prop := call.AllOk ∧ call.TcpUdp

/-- A handle a client may pass: 16 bits, and not 0. -/
def RuleCall.InRange : RuleCall → Prop
  | .add _ _ => True
  | .del ruleHdl _ => 1 ≤ ruleHdl.toNat ∧ ruleHdl.toNat < 65536

/-! ## A small table -/

/-- The table a client gets that asks a cache without one for `numberOfEntries` entries. -/
def addedTable (numberOfEntries : UInt16) : IpaNatIp4TableCache :=
  match ipaNatAddIpv4Tbl .init 0 numberOfEntries .allOk with
  | .ok (c, _) => c.ip4Tbl.get 0
  | .error _ => .blank

theorem freshlyAdded_addedTable : FreshlyAdded (addedTable 1) :=
  ⟨.init, _, 0, 1, .allOk, 1, blank_init, rfl, rfl, rfl⟩

def webRule : IpaNatIpv4Rule where
  targetIp := 0x08080808
  privateIp := 0xC0A80002
  targetPort := 80
  privatePort := 4000
  publicPort := 5000
  protocol := ipprotoTcp

theorem regular_example : ∀ call ∈
    [RuleCall.add webRule .allOk, .add webRule .allOk, .del 1 true], call.Regular := by
  intro call hcall
  simp only [List.mem_cons, List.not_mem_nil, or_false] at hcall
  rcases hcall with rfl | rfl | rfl
  · exact ⟨rfl, Or.inl rfl⟩
  · exact ⟨rfl, Or.inl rfl⟩
  · exact ⟨rfl, trivial⟩

section RuleRuns

variable {t₀ t : IpaNatIp4TableCache} {tr : List (RuleCall × Except Errno Nat)} {L : Live}

theorem natInv_of_regular (hadded : FreshlyAdded t₀) (hT : 2 ≤ t₀.tableEntries)
    (hT' : t₀.tableEntries ≤ 16384)
    (hrun : Run ruleStep (fun _ call => call.Regular) t₀ tr t) :
    ∃ age owner indxAge indxOwner, t.NatInv (live tr) age owner indxAge indxOwner :=
  hadded.fresh.natInv_run (by omega) hT'
    (hrun.imp fun _ _ h => ⟨h.1, h.2.unreserved⟩)

/-- **The chains of both tables.** In every state of a run they are in order, and the next call
    returns. -/
theorem run_chained (hadded : FreshlyAdded t₀) (hT : 2 ≤ t₀.tableEntries)
    (hT' : t₀.tableEntries ≤ 16384)
    (hrun : Run ruleStep (fun _ call => call.Regular) t₀ tr t) :
    t.TablesChained (live tr) ∧ ∀ call, call.InRange → ∃ t' r, ruleStep t call = .ok (t', r) := by
  obtain ⟨age, owner, indxAge, indxOwner, I⟩ := natInv_of_regular hadded hT hT' hrun
  have S := hadded.fresh.sound_run (by omega) hrun
  refine ⟨I.tablesChained, fun call hrange => ?_⟩
  refine ruleStep_returns S.layout S.bounded S.ids I.ruleThreaded I.indxThreaded ?_
  rintro hdl ok rfl
  exact hrange

theorem run_chained_example : ∃ t tr,
    exec ruleStep (addedTable 1) [.add webRule .allOk, .add webRule .allOk, .del 1 true] =
      .ok (t, tr) ∧ t.TablesChained (live tr) ∧
      ∀ call, call.InRange → ∃ t' r, ruleStep t call = .ok (t', r) :=
  ⟨_, _, rfl, run_chained freshlyAdded_addedTable (by decide) (by decide)
    (Run.of_exec rfl regular_example)⟩

/-- **The lookups of the hardware.** In every state of a run they find exactly the live rules, each
    in the buckets it hashes to and with the content it was added with; and a deletion leaves every
    other rule where it is, found by both. -/
theorem run_lookups (hadded : FreshlyAdded t₀) (hT : 2 ≤ t₀.tableEntries)
    (hT' : t₀.tableEntries ≤ 16384)
    (hrun : Run ruleStep (fun _ call => call.Regular) t₀ tr t) :
    t.LookupsExact (live tr) ∧
      ∀ ruleHdl t', ruleStep t (.del ruleHdl true) = .ok (t', .ok 0) →
        t'.LookupsExact (update (live tr) ruleHdl.toNat none) ∧
          t.OthersKept t' (live tr) ruleHdl.toNat := by
  obtain ⟨age, owner, indxAge, indxOwner, I⟩ := natInv_of_regular hadded hT hT' hrun
  refine ⟨I.lookupsExact, fun ruleHdl t' hdel => ?_⟩
  have hok : RuleCall.AllOk (.del ruleHdl true) := rfl
  obtain ⟨age', owner', indxAge', indxOwner', I'⟩ := I.step hok trivial hdel
  have I' : t'.NatInv (update (live tr) ruleHdl.toNat none) age' owner' indxAge'
    indxOwner' := I'
  refine ⟨I'.lookupsExact, fun h c hne hc => ?_⟩
  have hc' : update (live tr) ruleHdl.toNat none h = some c := by
    rw [update_of_ne hne]
    exact hc
  have hrow := I.hdlRow_step hdel hc hc'
  have hst := I'.hdl.stores h c hc'
  obtain ⟨-, hdst⟩ := I'.small.layout.dstBucket_range c
  obtain ⟨-, hsrc⟩ := I'.small.layout.srcBucket_range c
  refine ⟨hrow, hrow ▸ hst, ?_, ?_⟩
  · exact (I'.mem_dstLookup hdst _).2 ⟨h, c, hc', hrow, rfl⟩
  · exact (I'.mem_srcLookup hsrc _).2 ⟨h, c, hc', hrow, rfl⟩

theorem run_lookups_example : ∃ t tr,
    exec ruleStep (addedTable 1) [.add webRule .allOk, .add webRule .allOk, .del 1 true] =
      .ok (t, tr) ∧ t.LookupsExact (live tr) ∧ live tr 2 = some webRule :=
  ⟨_, _, rfl, (run_lookups freshlyAdded_addedTable (by decide) (by decide)
    (Run.of_exec rfl regular_example)).1, rfl⟩

/-- What `run_handles` needs of a table, whatever its size. -/
structure HdlState (t : IpaNatIp4TableCache) (L : Live) : Prop where
  hdl : t.HdlInv L
  sized : t.Sized
  big : t.tableEntries ≠ 0 → t.Layout ∧ t.RuleThreaded
  empty : t.tableEntries = 0 → t.Fresh ∧ L = fun _ => none

theorem HdlState.handlesGood (S : HdlState t L) : t.HandlesGood L := by
  refine S.hdl.handlesGood S.sized fun h c hc => ?_
  by_cases hT : t.tableEntries = 0
  · rw [(S.empty hT).2] at hc
    cases hc
  · have hl := (S.big hT).1
    rw [S.hdl.id h c hc]
    exact ruleId_base hl (ruleOcc_lt (S.hdl.stores h c hc).occ)

theorem HdlState.step (S : HdlState t L) {call : RuleCall} (hok : call.AllOk)
    (hp : call.Unreserved) {t' : IpaNatIp4TableCache} {r : Except Errno Nat}
    (h : ruleStep t call = .ok (t', r)) : HdlState t' (L.after (call, r)) := by
  by_cases hT : t.tableEntries = 0
  · obtain ⟨rfl, rfl⟩ := ((S.empty hT).1.idle hT).step h
    cases call <;> exact S
  obtain ⟨hl, R⟩ := S.big hT
  have hd := hl.step R.links h
  refine ⟨S.hdl.step hl R hok hp h, hd.sized S.sized, fun _ => ⟨hd.layout hl, ?_⟩, fun h0 => ?_⟩
  · refine R.step hl ?_ h
    rintro c dma rfl
    obtain rfl : dma = .allOk := hok
    rfl
  · rw [hd.tableEntries] at h0
    exact absurd h0 hT

theorem IpaNatIp4TableCache.HdlInv.del_dead (H : t.HdlInv L) (hs : t.Sized)
    {ruleHdl : UInt32} (hrange : 1 ≤ ruleHdl.toNat ∧ ruleHdl.toNat < 65536)
    (hdead : L ruleHdl.toNat = none) (ok : Bool) : ruleStep t (.del ruleHdl ok) = .ok (t, .error .einval) := by
  have hmod : ruleHdl.toUInt16.toNat = ruleHdl.toNat := by
    rw [UInt32.toNat_toUInt16]
    exact Nat.mod_eq_of_lt hrange.2
  have hparse : ∃ b, ipaNatiParseIpv4RuleHdl t ruleHdl.toUInt16.toNat = .ok (b, 0) := by
    rw [hmod]
    unfold ipaNatiParseIpv4RuleHdl
    split
    · exact ⟨_, rfl⟩
    · next hlt =>
      rw [if_neg (by omega), Region.read_ok (by rw [hs.ruleIdArray]; omega)]
      have hslot : t.ruleIdArray.get (ruleHdl.toNat - 1) = 0 := by
        by_contra hne
        obtain ⟨c, hc⟩ := H.used _ (by omega) hne
        rw [Nat.sub_add_cancel hrange.1, hdead] at hc
        cases hc
      rw [hslot]
      exact ⟨_, rfl⟩
  obtain ⟨b, hb⟩ := hparse
  unfold ruleStep ipaNatiDelIpv4Rule
  dsimp only
  rw [hb]
  rfl

/-- **Which deletions succeed**: in every state of a run, just those of live handles. -/
theorem run_deletes_iff (hadded : FreshlyAdded t₀) (hT : 2 ≤ t₀.tableEntries)
    (hT' : t₀.tableEntries ≤ 16384)
    (hrun : Run ruleStep (fun _ call => call.Regular) t₀ tr t) (ruleHdl : UInt32)
    (hrange : (RuleCall.del ruleHdl true).InRange) :
    (∃ t', ruleStep t (.del ruleHdl true) = .ok (t', .ok 0)) ↔ live tr ruleHdl.toNat ≠ none := by
  obtain ⟨age, owner, indxAge, indxOwner, I⟩ := natInv_of_regular hadded hT hT' hrun
  obtain ⟨S, hvalid⟩ : t.Sound ∧ t.valid = true :=
    hrun.invariant (fun _ t => t.Sound ∧ t.valid = true)
      ⟨hadded.fresh.sound (by omega), hadded.fresh.valid⟩ fun _ _ _ _ _ h _ hstep =>
        ⟨h.1.step hstep, (h.1.layout.step h.1.bounded.ruleLinks hstep).valid.trans h.2⟩
  constructor
  · rintro ⟨t', hdel⟩ hdead
    rw [I.hdl.del_dead S.layout.sized hrange hdead] at hdel
    cases hdel
  · intro hlive
    obtain ⟨c, hc⟩ := Option.ne_none_iff_exists'.1 hlive
    have hmod : ruleHdl.toUInt16.toNat = ruleHdl.toNat := by
      rw [UInt32.toNat_toUInt16]
      exact Nat.mod_eq_of_lt hrange.2
    have hhandle : t.HandleOf ruleHdl.toNat (t.hdlRow ruleHdl.toNat) :=
      ⟨I.hdl.pos _ c hc, I.hdl.lt _ c hc, I.hdl.id_ne_zero _ c hc, rfl⟩
    have hends : Ends (fun _ => False) (ipaNatiDelIpv4Rule t ruleHdl true) fun _ => True :=
      ipaNatiDelIpv4Rule_ends S.layout S.bounded S.ids (by have := hrange.1; omega)
        (Or.inl fun _ => hmod.symm)
    obtain ⟨⟨t', res⟩, hdel, -⟩ := hends.exists_ok
    rcases ipaNatiDelIpv4Rule_cases S.layout S.bounded.ruleLinks hdel with
      ⟨-, -, hok | hinvalid | hdis⟩ | ⟨x, -, -, -, -, -, -, rfl, -⟩
    · cases hok
    · exact absurd (hvalid.symm.trans hinvalid) (by decide)
    · exact absurd ((I.hdl.stores _ c hc).occ.symm.trans (hdis _ (hmod ▸ hhandle))) (by decide)
    · refine ⟨t', ?_⟩
      unfold ruleStep
      dsimp only
      rw [hdel]
      rfl

theorem run_deletes_iff_example : ∃ t tr,
    exec ruleStep (addedTable 1) [.add webRule .allOk, .add webRule .allOk, .del 1 true] =
      .ok (t, tr) ∧ ∃ t', ruleStep t (.del 2 true) = .ok (t', .ok 0) :=
  ⟨_, _, rfl, (run_deletes_iff freshlyAdded_addedTable (by decide) (by decide)
    (Run.of_exec rfl regular_example) 2 ⟨by decide, by decide⟩).2 (by decide)⟩

/-- **Rule handles**, on a table of any size. In every state of a run, each live handle parses to a
    row of its own that stores its rule, and does so as long as it is live; a handle that is given
    out is not 0 and was not live; and the deletion of a handle that is not live is refused. -/
theorem run_handles (hadded : FreshlyAdded t₀)
    (hrun : Run ruleStep (fun _ call => call.AllOk ∧ call.Unreserved) t₀ tr t) :
    t.HandlesGood (live tr) ∧
      (∀ c h t', c.protocol ≠ ipaNatInvalidProtoFieldCmp →
        ruleStep t (.add c .allOk) = .ok (t', .ok h) → h ≠ 0 ∧ live tr h = none ∧
          t'.HandlesGood (update (live tr) h (some c))) ∧
      (∀ call t' r h c, call.AllOk → call.Unreserved → ruleStep t call = .ok (t', r) →
        live tr h = some c → (live tr).after (call, r) h = some c →
          ipaNatiParseIpv4RuleHdl t' h = ipaNatiParseIpv4RuleHdl t h) ∧
      ∀ ruleHdl ok, 1 ≤ ruleHdl.toNat → ruleHdl.toNat < 65536 → live tr ruleHdl.toNat = none →
        ruleStep t (.del ruleHdl ok) = .ok (t, .error .einval) := by
  have hf := hadded.fresh
  have S : HdlState t (live tr) := by
    refine hrun.invariant (fun tr t => HdlState t (live tr)) ?_ ?_
    · exact ⟨hf.hdlInv, hf.sized, fun hT => ⟨hf.layout hT, hf.ruleThreaded⟩, fun _ => ⟨hf, rfl⟩⟩
    · rintro tr t call t' r S ⟨hok, hp⟩ hstep
      rw [live_snoc]
      exact S.step hok hp hstep
  refine ⟨S.handlesGood, fun c h t' hp hadd => ?_, fun call t' r h c hok hp hstep hc hc' => ?_,
    fun ruleHdl ok hpos hlt hdead => S.hdl.del_dead S.sized ⟨hpos, hlt⟩ hdead ok⟩
  · have hok : RuleCall.AllOk (.add c .allOk) := rfl
    have S' := S.step hok hp hadd
    have hgood : t'.HandlesGood (update (live tr) h (some c)) := S'.handlesGood
    by_cases hT : t.tableEntries = 0
    · cases (((S.empty hT).1.idle hT).step hadd).2
    obtain ⟨hl, R⟩ := S.big hT
    rcases ruleStep_cases hl R.links hadd with
      ⟨-, err, herr⟩ | ⟨d, dma, e, p, ie, ip, hcall, hs, -, hcase⟩ | ⟨hdl, x, hcall, -⟩
    · cases herr
    · obtain ⟨rfl, rfl⟩ : c = d ∧ AddDma.allOk = dma := by simpa using hcall
      rcases hcase with ⟨err, herr, -⟩ | ⟨i, -, hi', hi, hi0, hb, -⟩
      · cases herr
      · obtain rfl : h = i + 1 := Except.ok.inj hi'
        exact ⟨by omega, S.hdl.none_of_unused hi0, hgood⟩
    · cases hcall
  · have S' := S.step hok hp hstep
    rw [S'.hdl.parse_eq S'.sized hc', S.hdl.parse_eq S.sized hc]
    by_cases hT : t.tableEntries = 0
    · rw [(((S.empty hT).1.idle hT).step hstep).1]
    · obtain ⟨hl, R⟩ := S.big hT
      rw [S.hdl.slot_step hl R.links hstep hc hc']

theorem run_handles_example : ∃ t tr,
    exec ruleStep (addedTable 1) [.add webRule .allOk, .add webRule .allOk, .del 1 true] =
      .ok (t, tr) ∧ t.HandlesGood (live tr) ∧ live tr 2 = some webRule :=
  ⟨_, _, rfl, (run_handles freshlyAdded_addedTable
    ((Run.of_exec rfl regular_example).imp fun _ _ h => ⟨h.1, h.2.unreserved⟩)).1, rfl⟩

/-- A rule with the protocol number that marks dead heads. -/
def reservedRule : IpaNatIpv4Rule := { webRule with protocol := ipaNatInvalidProtoFieldCmp }

/-- Such a rule is cleared away as a dead head by the next deletion, and its handle then stands for
    an empty row. -/
theorem run_handles_reserved : ¬ ∀ t₀ t tr, FreshlyAdded t₀ →
    Run ruleStep (fun _ call => call.AllOk) t₀ tr t → t.HandlesGood (live tr) := by
  intro hall
  have hok : ∀ call ∈ [RuleCall.add reservedRule .allOk, .add webRule .allOk, .del 2 true],
      call.AllOk := by
    intro call hcall
    simp only [List.mem_cons, List.not_mem_nil, or_false] at hcall
    rcases hcall with rfl | rfl | rfl <;> rfl
  obtain ⟨t, tr, hexec, hlive, hparse, hrow⟩ : ∃ t tr, exec ruleStep (addedTable 1)
      [.add reservedRule .allOk, .add webRule .allOk, .del 2 true] = .ok (t, tr) ∧
      live tr 1 = some reservedRule ∧ ipaNatiParseIpv4RuleHdl t 1 = .ok (false, 1) ∧
      (t.ruleTbl false).read 1 = .ok {} := ⟨_, _, rfl, rfl, rfl, rfl⟩
  obtain ⟨expnTbl, tblEntry, row, hparse', -, hrow', henable, -⟩ :=
    (hall _ _ _ freshlyAdded_addedTable (Run.of_exec hexec hok)).parse 1 _ hlive
  obtain ⟨rfl, rfl⟩ : false = expnTbl ∧ 1 = tblEntry := by
    simpa using hparse.symm.trans hparse'
  obtain rfl : ({} : IpaNatRule) = row := Except.ok.inj (hrow.symm.trans hrow')
  cases henable

end RuleRuns

end Nx508j.Ipanat
