import Nx508j.Ipanat.Fresh

/-! # Tables that come and go

An addition of a table marks the slot before it has everything it needs. What it marks is a table as
long as no addition fails half way. -/

namespace Nx508j.Ipanat

open Nx508j.Lib Function

/-! ## The calls -/

/-- `ipa_nati_add_ipv4_tbl`. -/
def ipaNatiAddIpv4TblOf (c : IpaNatCache) (publicAddr : UInt32) (numberOfEntries : UInt16)
    (env : AddTblEnv) : Except Fault (IpaNatCache × Except Errno Nat) :=
  match tableSizes numberOfEntries with
  | .error _ => .ok (c, .error .enomem)
  | .ok (tableEntries, expnTableEntries) =>
    ipaNatiAddIpv4Tbl c publicAddr tableEntries expnTableEntries env

/-- `ipa_nati_del_ipv4_table`. The index is the low byte of the handle less one, unchecked. -/
def ipaNatiDelIpv4Table (c : IpaNatCache) (tblHdl : UInt32) (env : DelTblEnv) :
    Except Fault (IpaNatCache × Except Errno Nat) := do
  let index := (tblHdl - 1).toUInt8.toNat
  let t ← c.ip4Tbl.read index
  if t.valid then
    if env.close ∧ env.delCmd then
      let m ← c.ip4Tbl.write index .blank
      .ok ({ c with ip4Tbl := m, tableCnt := (c.tableCnt + 255) % 256 }, .ok 0)
    else
      let m ← c.ip4Tbl.write index t.unmapped
      .ok ({ c with ip4Tbl := m }, .error .einval)
  else .ok (c, .error .einval)

/-- A call that makes or unmakes a table. -/
inductive TblCall where
  | add (publicAddr : UInt32) (numberOfEntries : UInt16) (env : AddTblEnv)
  | del (tblHdl : UInt32) (env : DelTblEnv)

def tblStep (c : IpaNatCache) : TblCall → Except Fault (IpaNatCache × Except Errno Nat)
  | .add publicAddr numberOfEntries env => ipaNatiAddIpv4TblOf c publicAddr numberOfEntries env
  | .del tblHdl env => ipaNatiDelIpv4Table c tblHdl env

/-- The slots with a table: the last addition to them succeeded, and no deletion since. -/
def tablesAfter (live : Nat → Bool) : TblCall × Except Errno Nat → Nat → Bool
  | (.add _ _ _, .ok tblHdl) => update live (tblHdl - 1) true
  | (.del tblHdl _, .ok _) => update live (tblHdl - 1).toUInt8.toNat false
  | (_, .error _) => live

/-- The slots with a table after the calls of `tr`. -/
def liveTables (tr : List (TblCall × Except Errno Nat)) : Nat → Bool :=
  tr.foldl tablesAfter fun _ => false

theorem liveTables_snoc (tr : List (TblCall × Except Errno Nat)) (cr : TblCall × Except Errno Nat) :
    liveTables (tr ++ [cr]) = tablesAfter (liveTables tr) cr := by
  simp [liveTables]

/-- The arrays that `ipa_nati_update_cache` allocates have the sizes of the table. -/
def IpaNatIp4TableCache.ArraysFit (t : IpaNatIp4TableCache) : Prop :=
  t.indexExpnTableMeta.size = t.expnTableEntries ∧
    t.ruleIdArray.size = t.tableEntries + t.expnTableEntries

/-- **The property.** There are no more tables than slots, the valid slots are those with a table,
    and their arrays fit. -/
structure TablesExact (c : IpaNatCache) (live : Nat → Bool) : Prop where
  count : c.tableCnt ≤ ipaNatMaxIp4Tbls
  valid : ∀ i < ipaNatMaxIp4Tbls, (c.ip4Tbl.get i).valid = live i
  arrays : ∀ i < ipaNatMaxIp4Tbls, (c.ip4Tbl.get i).valid = true → (c.ip4Tbl.get i).ArraysFit

/-- The kernel gives an addition the memory of a table. -/
def AddTblEnv.Granted (c : IpaNatCache) (env : AddTblEnv) : Prop :=
  (c.ipaFd = true ∨ env.openDev = true) ∧ env.allocMem = true

/-- Once its memory is granted, an addition finds a free slot, and nothing else fails. A deletion
    names a slot; it may fail. -/
def TblCall.Whole (c : IpaNatCache) : TblCall → Prop
  | .add _ _ env => env.Granted c → c.tableCnt < ipaNatMaxIp4Tbls ∧ env.mallocMeta = true ∧
      env.mallocRuleId = true ∧ env.openNat = true ∧ env.mmap = true ∧ env.initCmd = true
  | .del tblHdl _ => (tblHdl - 1).toUInt8.toNat < ipaNatMaxIp4Tbls

/-! ## One addition -/

section Add

variable {c c' : IpaNatCache} {publicAddr : UInt32} {tableEntries expnTableEntries : Nat}
  {numberOfEntries : UInt16} {env : AddTblEnv} {ret : Except Errno Nat} {call : TblCall}
  {live : Nat → Bool}

theorem tableSizes_ok (numberOfEntries : UInt16) : ∃ tableEntries expnTableEntries,
    tableSizes numberOfEntries = .ok (tableEntries, expnTableEntries) ∧ 2 ≤ expnTableEntries := by
  cases hsizes : tableSizes numberOfEntries with
  | ok sizes => exact ⟨sizes.1, sizes.2, rfl, (tableSizes_cases hsizes).2.1⟩
  | error e =>
    exfalso
    unfold tableSizes at hsizes
    dsimp only at hsizes
    generalize hb : (if numberOfEntries.toNat * 8 / 10 = 0 then 1
      else numberOfEntries.toNat * 8 / 10) = base at hsizes
    have hbase : base ≠ 0 := by
      rw [← hb]
      split <;> omega
    unfold getNearest2Power at hsizes
    rw [if_neg hbase] at hsizes
    split at hsizes <;> cases hsizes

theorem tblStep_add (hsizes : tableSizes numberOfEntries = .ok (tableEntries, expnTableEntries)) :
    tblStep c (.add publicAddr numberOfEntries env) =
      ipaNatiAddIpv4Tbl c publicAddr tableEntries expnTableEntries env := by
  unfold tblStep ipaNatiAddIpv4TblOf
  dsimp only
  rw [hsizes]

theorem ipaNatiAddIpv4Tbl_refused (h : ¬ env.Granted c) : ∃ fd err,
    ipaNatiAddIpv4Tbl c publicAddr tableEntries expnTableEntries env =
      .ok ({ c with ipaFd := fd }, .error err) := by
  unfold ipaNatiAddIpv4Tbl
  by_cases hopen : c.ipaFd = false ∧ env.openDev = false
  · rw [if_pos hopen]
    exact ⟨c.ipaFd, .enomem, rfl⟩
  rw [if_neg hopen]
  have halloc : env.allocMem = false := by
    by_contra hne
    refine h ⟨?_, by simpa using hne⟩
    by_contra hnot
    simp only [not_or, Bool.not_eq_true] at hnot
    exact hopen hnot
  rw [if_pos halloc]
  exact ⟨true, .enomem, rfl⟩

theorem AddTblEnv.Granted.ifs (h : env.Granted c) :
    ¬ (c.ipaFd = false ∧ env.openDev = false) ∧ ¬ env.allocMem = false := by
  obtain ⟨hopen, halloc⟩ := h
  refine ⟨?_, by simp [halloc]⟩
  rintro ⟨hfd, hdev⟩
  rcases hopen with h | h
  · rw [hfd] at h
    cases h
  · rw [hdev] at h
    cases h

theorem ipaNatiAddIpv4Tbl_full (h : env.Granted c) (hfull : c.ip4Tbl.size ≤ c.tableCnt) :
    ipaNatiAddIpv4Tbl c publicAddr tableEntries expnTableEntries env = .error .outOfBounds := by
  have hread : c.ip4Tbl.read c.tableCnt = .error .outOfBounds := if_neg (by omega)
  unfold ipaNatiAddIpv4Tbl
  rw [if_neg h.ifs.1, if_neg h.ifs.2, hread, error_bind]

variable {t : IpaNatIp4TableCache}

theorem ipaNatiAddIpv4Tbl_halfway (h : env.Granted c) (hfree : c.tableCnt < c.ip4Tbl.size)
    {err : Errno} (hslot : updateSlot (c.ip4Tbl.get c.tableCnt) publicAddr
      tableEntries expnTableEntries env = (t, .error err)) :
    ipaNatiAddIpv4Tbl c publicAddr tableEntries expnTableEntries env =
      .ok ({ c with ip4Tbl := c.ip4Tbl.set c.tableCnt t, ipaFd := true }, .error .einval) := by
  unfold ipaNatiAddIpv4Tbl
  rw [if_neg h.ifs.1, if_neg h.ifs.2, Region.read_ok hfree, ok_bind, hslot]
  dsimp only
  rw [Region.write_ok hfree, ok_bind]

theorem ipaNatiAddIpv4Tbl_filled (h : env.Granted c) (hfree : c.tableCnt < c.ip4Tbl.size)
    (hslot : updateSlot (c.ip4Tbl.get c.tableCnt) publicAddr
      tableEntries expnTableEntries env = (t, .ok ())) :
    ipaNatiAddIpv4Tbl c publicAddr tableEntries expnTableEntries env = (do
      let t ← ipaNatiResetTbl t
      let ip4Tbl := c.ip4Tbl.set c.tableCnt t
      if env.initCmd then
        .ok (⟨ip4Tbl, true, (c.tableCnt + 1) % 256⟩, .ok ((c.tableCnt + 1) % 256))
      else .ok ({ c with ip4Tbl := ip4Tbl, ipaFd := true }, .error .einval)) := by
  unfold ipaNatiAddIpv4Tbl
  rw [if_neg h.ifs.1, if_neg h.ifs.2, Region.read_ok hfree, ok_bind, hslot]
  dsimp only
  cases ipaNatiResetTbl t with
  | error f => rfl
  | ok t =>
    rw [ok_bind, ok_bind, Region.write_ok hfree, ok_bind]

theorem ipaNatiResetTbl_fault (h : t.ipv4ExpnRules.size < t.expnTableEntries) :
    ∃ f, ipaNatiResetTbl t = .error f := by
  have hexpn : t.ipv4ExpnRules.memset t.expnTableEntries {} = .error .outOfBounds :=
    if_neg (by omega)
  unfold ipaNatiResetTbl
  cases t.ipv4Rules.memset t.tableEntries {} with
  | error f => exact ⟨f, rfl⟩
  | ok rules =>
    rw [ok_bind, hexpn]
    exact ⟨.outOfBounds, rfl⟩

theorem ipaNatiResetTbl_ok (hrules : t.tableEntries ≤ t.ipv4Rules.size)
    (hexpn : t.expnTableEntries ≤ t.ipv4ExpnRules.size) (hindx : t.tableEntries ≤ t.indexTable.size)
    (hindxExpn : t.expnTableEntries ≤ t.indexTableExpn.size) :
    ∃ t', ipaNatiResetTbl t = .ok t' ∧ t'.valid = t.valid ∧ (t.ArraysFit → t'.ArraysFit) := by
  unfold ipaNatiResetTbl
  rw [Region.memset_ok hrules, ok_bind, Region.memset_ok hexpn, ok_bind, Region.memset_ok hindx,
    ok_bind, Region.memset_ok hindxExpn, ok_bind]
  exact ⟨_, rfl, rfl, fun h => h⟩

/-- Everything that a slot needs can be had. -/
def AddTblEnv.Furnished (env : AddTblEnv) : Prop :=
  env.mallocMeta = true ∧ env.mallocRuleId = true ∧ env.openNat = true ∧ env.mmap = true

theorem updateSlot_furnished (h : env.Furnished) (publicAddr : UInt32)
    (tableEntries expnTableEntries : Nat) : ∃ t t',
      updateSlot .blank publicAddr tableEntries expnTableEntries env = (t, .ok ()) ∧
      ipaNatiResetTbl t = .ok t' ∧ t'.valid = true ∧ t'.ArraysFit := by
  obtain ⟨hmeta, hid, hopen, hmap⟩ := h
  unfold updateSlot mallocArray
  simp only [IpaNatIp4TableCache.blank, Region.size_fill, ↓reduceIte, hmeta, hid, hopen, hmap]
  obtain ⟨t', hreset, hvalid, hfit⟩ := ipaNatiResetTbl_ok (t := {
      valid := true, publicAddr := publicAddr, tblAddrOffset := env.memOffset
      tableEntries := tableEntries, expnTableEntries := expnTableEntries
      ipv4Rules := ⟨tableEntries, env.rules⟩
      ipv4ExpnRules := ⟨expnTableEntries, fun x => env.rules (tableEntries + x)⟩
      indexTable := ⟨tableEntries, env.indx⟩
      indexTableExpn := ⟨expnTableEntries, fun x => env.indx (tableEntries + x)⟩
      indexExpnTableMeta := Region.fill expnTableEntries 0
      ruleIdArray := Region.fill (tableEntries + expnTableEntries) 0 })
    (Nat.le_refl _) (Nat.le_refl _) (Nat.le_refl _) (Nat.le_refl _)
  exact ⟨_, t', rfl, hreset, hvalid, hfit ⟨rfl, rfl⟩⟩

/-- Without it the addition reports an error on a slot it has marked, or clears memory that is not
    there. -/
theorem updateSlot_unfurnished (h : ¬ env.Furnished) (publicAddr : UInt32) (tableEntries : Nat)
    (hexpn : 2 ≤ expnTableEntries) :
    (∃ t err, updateSlot .blank publicAddr tableEntries expnTableEntries env = (t, .error err) ∧
      t.valid = true) ∨
    ∃ t, updateSlot .blank publicAddr tableEntries expnTableEntries env = (t, .ok ()) ∧
      t.ipv4ExpnRules.size < t.expnTableEntries := by
  have hpos : 0 < expnTableEntries := by omega
  unfold updateSlot mallocArray
  by_cases hmeta : env.mallocMeta = true
  swap
  · simp only [hmeta, Bool.false_eq_true, ↓reduceIte]
    exact .inr ⟨_, rfl, hpos⟩
  by_cases hid : env.mallocRuleId = true
  swap
  · simp only [hmeta, hid, Bool.false_eq_true, ↓reduceIte]
    exact .inr ⟨_, rfl, hpos⟩
  by_cases hopen : env.openNat = true
  swap
  · simp only [hmeta, hid, hopen, Bool.false_eq_true, ↓reduceIte]
    exact .inl ⟨_, _, rfl, rfl⟩
  have hmap : ¬ env.mmap = true := fun hmap => h ⟨hmeta, hid, hopen, hmap⟩
  simp only [hmeta, hid, hopen, hmap, Bool.false_eq_true, ↓reduceIte]
  exact .inr ⟨_, rfl, hpos⟩

/-! ## Every state calls can reach -/

/-- There is no table, and the only slot is clear, or there is one in it. -/
structure Slotted (c : IpaNatCache) (live : Nat → Bool) : Prop where
  size : c.ip4Tbl.size = ipaNatMaxIp4Tbls
  slot : c.tableCnt = 0 ∧ c.ip4Tbl.get 0 = .blank ∧ live 0 = false ∨
    c.tableCnt = 1 ∧ (c.ip4Tbl.get 0).valid = true ∧ (c.ip4Tbl.get 0).ArraysFit ∧ live 0 = true

theorem slotted_init : Slotted .init fun _ => false := ⟨rfl, .inl ⟨rfl, rfl, rfl⟩⟩

theorem Slotted.exact (h : Slotted c live) : TablesExact c live := by
  have hone : ipaNatMaxIp4Tbls = 1 := rfl
  have hzero : ∀ i < ipaNatMaxIp4Tbls, i = 0 := fun i hi => by omega
  rcases h.slot with ⟨hcnt, hblank, hlive⟩ | ⟨hcnt, hvalid, hfit, hlive⟩
  · refine ⟨by omega, fun i hi => ?_, fun i hi hvalid => ?_⟩
    · rw [hzero i hi, hblank, hlive]
      rfl
    · rw [hzero i hi, hblank] at hvalid
      cases hvalid
  · refine ⟨by omega, fun i hi => ?_, fun i hi _ => ?_⟩
    · rw [hzero i hi, hvalid, hlive]
    · rw [hzero i hi]
      exact hfit

/-- A call that failed left the valid slots valid, and no others. -/
def KeepsValid (c c' : IpaNatCache) (ret : Except Errno Nat) : Prop :=
  ∀ err, ret = .error err → ∀ i < ipaNatMaxIp4Tbls,
    (c'.ip4Tbl.get i).valid = (c.ip4Tbl.get i).valid

theorem keepsValid_of_exact (h : TablesExact c live)
    (h' : TablesExact c' (tablesAfter live (call, ret))) : KeepsValid c c' ret := by
  rintro err rfl i hi
  have hlive : tablesAfter live (call, .error err) = live := by
    cases call <;> rfl
  rw [h'.valid i hi, hlive, h.valid i hi]

theorem Slotted.add (h : Slotted c live)
    (hwhole : (TblCall.add publicAddr numberOfEntries env).Whole c) :
    ∃ c' ret, tblStep c (.add publicAddr numberOfEntries env) = .ok (c', ret) ∧
      Slotted c' (tablesAfter live (.add publicAddr numberOfEntries env, ret)) := by
  obtain ⟨tableEntries, expnTableEntries, hsizes, -⟩ := tableSizes_ok numberOfEntries
  rw [tblStep_add hsizes]
  by_cases hgranted : env.Granted c
  · obtain ⟨hfree, hmeta, hid, hopen, hmap, hinit⟩ := hwhole hgranted
    have hone : ipaNatMaxIp4Tbls = 1 := rfl
    have hcnt : c.tableCnt = 0 := by omega
    have hblank : c.ip4Tbl.get 0 = .blank := by
      rcases h.slot with ⟨-, hblank, -⟩ | ⟨hcnt', -⟩
      · exact hblank
      · omega
    obtain ⟨t, t', hslot, hreset, hvalid, hfit⟩ := updateSlot_furnished
      ⟨hmeta, hid, hopen, hmap⟩ publicAddr tableEntries expnTableEntries
    rw [← hblank, ← hcnt] at hslot
    rw [ipaNatiAddIpv4Tbl_filled hgranted (by rw [h.size]; exact hfree) hslot, hreset, ok_bind,
      if_pos hinit, hcnt]
    refine ⟨_, _, rfl, h.size, .inr ⟨rfl, ?_, ?_, ?_⟩⟩
    · dsimp only
      rw [Region.get_set_self]
      exact hvalid
    · dsimp only
      rw [Region.get_set_self]
      exact hfit
    · exact update_self 0 true live
  · obtain ⟨fd, err, hadd⟩ : ∃ fd err, ipaNatiAddIpv4Tbl c publicAddr tableEntries
        expnTableEntries env = .ok ({ c with ipaFd := fd }, .error err) :=
      ipaNatiAddIpv4Tbl_refused hgranted
    exact ⟨_, _, hadd, h.size, h.slot⟩

theorem Slotted.del (h : Slotted c live) {tblHdl : UInt32} {env : DelTblEnv}
    (hwhole : (TblCall.del tblHdl env).Whole c) :
    ∃ c' ret, tblStep c (.del tblHdl env) = .ok (c', ret) ∧
      Slotted c' (tablesAfter live (.del tblHdl env, ret)) := by
  have hone : ipaNatMaxIp4Tbls = 1 := rfl
  have hindex : (tblHdl - 1).toUInt8.toNat = 0 := by
    have hlt : (tblHdl - 1).toUInt8.toNat < ipaNatMaxIp4Tbls := hwhole
    omega
  have hlt : 0 < c.ip4Tbl.size := by
    rw [h.size]
    decide
  unfold tblStep ipaNatiDelIpv4Table
  dsimp only
  rw [hindex, Region.read_ok hlt, ok_bind]
  rcases h.slot with ⟨hcnt, hblank, hlive⟩ | ⟨hcnt, hvalid, hfit, hlive⟩
  · have hvalid : ¬ (c.ip4Tbl.get 0).valid = true := by
      rw [hblank]
      exact Bool.false_ne_true
    rw [if_neg hvalid]
    exact ⟨_, _, rfl, h.size, h.slot⟩
  rw [if_pos hvalid]
  split
  · rw [Region.write_ok hlt, ok_bind]
    refine ⟨_, _, rfl, h.size, .inl ⟨?_, Region.get_set_self _ _ _, ?_⟩⟩
    · dsimp only
      rw [hcnt]
    · unfold tablesAfter
      dsimp only
      rw [hindex]
      exact update_self ..
  · -- the slot is unmapped, and stays valid
    rw [Region.write_ok hlt, ok_bind]
    refine ⟨_, _, rfl, h.size, .inr ⟨hcnt, ?_, ?_, hlive⟩⟩
    · dsimp only
      rw [Region.get_set_self]
      exact hvalid
    · dsimp only
      rw [Region.get_set_self]
      exact hfit

theorem Slotted.step (h : Slotted c live) (hwhole : call.Whole c) :
    ∃ c' ret, tblStep c call = .ok (c', ret) ∧ Slotted c' (tablesAfter live (call, ret)) := by
  cases call with
  | add publicAddr numberOfEntries env => exact h.add hwhole
  | del tblHdl env => exact h.del hwhole

/-! ### The converse -/

theorem Slotted.whole_of_exact (h : Slotted c live) (hstep : tblStep c call = .ok (c', ret))
    (hexact : TablesExact c' (tablesAfter live (call, ret))) : call.Whole c := by
  have hone : ipaNatMaxIp4Tbls = 1 := rfl
  cases call with
  | del tblHdl env =>
    obtain ⟨t, hread, -⟩ := bind_eq_ok hstep
    have hlt := (Region.lt_of_read hread).1
    rwa [h.size] at hlt
  | add publicAddr numberOfEntries env =>
    intro hgranted
    obtain ⟨tableEntries, expnTableEntries, hsizes, hexpn⟩ := tableSizes_ok numberOfEntries
    rw [tblStep_add hsizes] at hstep
    by_cases hfull : c.ip4Tbl.size ≤ c.tableCnt
    · rw [ipaNatiAddIpv4Tbl_full hgranted hfull] at hstep
      cases hstep
    have hfree : c.tableCnt < c.ip4Tbl.size := by omega
    have hcnt : c.tableCnt = 0 := by
      have hsize := h.size
      omega
    obtain ⟨hblank, hlive⟩ : c.ip4Tbl.get 0 = .blank ∧ live 0 = false := by
      rcases h.slot with ⟨-, hblank, hlive⟩ | ⟨hcnt', -⟩
      · exact ⟨hblank, hlive⟩
      · omega
    -- a slot that was marked by an addition that fails breaks the property
    have hmarked : ∀ {t : IpaNatIp4TableCache} {fd : Bool} {err : Errno}, t.valid = true →
        c' = { c with ip4Tbl := c.ip4Tbl.set c.tableCnt t, ipaFd := fd } →
        ret = .error err → False := by
      rintro t fd err hvalid rfl rfl
      have hzero := hexact.valid 0 (by decide)
      dsimp only [tablesAfter] at hzero
      rw [hcnt, Region.get_set_self, hvalid, hlive] at hzero
      cases hzero
    by_cases hfurnished : env.Furnished
    · obtain ⟨t, t', hslot, hreset, hvalid, -⟩ := updateSlot_furnished hfurnished publicAddr
        tableEntries expnTableEntries
      rw [← hblank, ← hcnt] at hslot
      rw [ipaNatiAddIpv4Tbl_filled hgranted hfree hslot, hreset, ok_bind] at hstep
      obtain ⟨hmeta, hid, hopen, hmap⟩ := hfurnished
      refine ⟨by omega, hmeta, hid, hopen, hmap, ?_⟩
      by_contra hinit
      rw [if_neg hinit] at hstep
      obtain ⟨hc, hret⟩ := ok_pair hstep
      exact hmarked hvalid hc.symm hret.symm
    · rcases updateSlot_unfurnished hfurnished publicAddr tableEntries hexpn with
        ⟨t, err, hslot, hvalid⟩ | ⟨t, hslot, hbare⟩
      · rw [← hblank, ← hcnt] at hslot
        rw [ipaNatiAddIpv4Tbl_halfway hgranted hfree hslot] at hstep
        obtain ⟨hc, hret⟩ := ok_pair hstep
        exact (hmarked hvalid hc.symm hret.symm).elim
      · rw [← hblank, ← hcnt] at hslot
        obtain ⟨f, hfault⟩ := ipaNatiResetTbl_fault hbare
        rw [ipaNatiAddIpv4Tbl_filled hgranted hfree hslot, hfault, error_bind] at hstep
        cases hstep

end Add

/-! ## Runs -/

section Runs

variable {c : IpaNatCache} {tr : List (TblCall × Except Errno Nat)}

theorem run_slotted (hrun : Run tblStep (fun c call => call.Whole c) .init tr c) :
    Slotted c (liveTables tr) := by
  refine hrun.invariant (fun tr c => Slotted c (liveTables tr)) slotted_init ?_
  intro tr c call c' ret hslotted hwhole hstep
  obtain ⟨c'', ret', hstep', hslotted'⟩ := hslotted.step hwhole
  rw [hstep] at hstep'
  cases hstep'
  rw [liveTables_snoc]
  exact hslotted'

/-- **Tables come and go whole.** In every run of calls that are made as a whole the tables are
    exact, and the next call returns, keeps them exact and lets the valid slots be if it fails,
    just if it is made as a whole too. -/
theorem run_tables (hrun : Run tblStep (fun c call => call.Whole c) .init tr c) :
    TablesExact c (liveTables tr) ∧ ∀ call, call.Whole c ↔
      ∃ c' ret, tblStep c call = .ok (c', ret) ∧
        TablesExact c' (liveTables (tr ++ [(call, ret)])) ∧ KeepsValid c c' ret := by
  have hslotted := run_slotted hrun
  refine ⟨hslotted.exact, fun call => ⟨fun hwhole => ?_, ?_⟩⟩
  · obtain ⟨c', ret, hstep, hslotted'⟩ := hslotted.step hwhole
    refine ⟨c', ret, hstep, ?_, keepsValid_of_exact hslotted.exact hslotted'.exact⟩
    rw [liveTables_snoc]
    exact hslotted'.exact
  · rintro ⟨c', ret, hstep, hexact, -⟩
    rw [liveTables_snoc] at hexact
    exact hslotted.whole_of_exact hstep hexact

/-- A table is made and unmade again. -/
theorem run_tables_twice : ∃ c tr, tr.map Prod.snd = [.ok 1, .ok 0] ∧
    TablesExact c (liveTables tr) ∧ liveTables tr 0 = false := by
  obtain ⟨c, tr, hrun, hret, hlive⟩ : ∃ c tr,
      Run tblStep (fun c call => call.Whole c) .init tr c ∧
      tr.map Prod.snd = [.ok 1, .ok 0] ∧ liveTables tr 0 = false :=
    ⟨_, _, .cons (c := .add 0 100 .allOk) rfl
      (by exact fun _ => ⟨by decide, rfl, rfl, rfl, rfl, rfl⟩)
      (.cons (c := .del 1 ⟨true, true⟩) rfl (by exact (by decide : 0 < 1)) .nil), rfl, rfl⟩
  exact ⟨c, tr, hret, (run_tables hrun).1, hlive⟩

/-- The memory of the table cannot be opened: the addition fails and the slot is valid. -/
theorem run_tables_half : ¬ ∀ c tr, Run tblStep (fun _ _ => True) .init tr c →
    TablesExact c (liveTables tr) := by
  intro hall
  obtain ⟨c, tr, hexec, hvalid, hlive⟩ : ∃ c tr, exec tblStep .init
      [.add 0 100 { AddTblEnv.allOk with openNat := false }] = .ok (c, tr) ∧
      (c.ip4Tbl.get 0).valid = true ∧ liveTables tr 0 = false := ⟨_, _, rfl, rfl, rfl⟩
  have hexact := hall c tr (Run.of_exec hexec (by simp))
  have hzero := hexact.valid 0 (by decide)
  rw [hvalid, hlive] at hzero
  cases hzero

end Runs

end Nx508j.Ipanat
