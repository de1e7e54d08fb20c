import Nx508j.Lib.Memory
import Nx508j.Ipanat.Rule

/-! # The cached NAT table

`struct ipa_nat_ip4_table_cache`: the four arrays of a mapped NAT table (base and expansion rules,
base and expansion index rows) and the two arrays the driver keeps for itself. The arrays are
`Region`s, so an access past one is a `Fault`; a pointer that was never set is a region of size 0.

Rows are also numbered through: row `x` is row `x` of the base array below `table_entries`, and row
`x - table_entries` of the expansion array from there on. This is the numbering of every row number
the tables store, and `rule`, `indx` and `metaPrev` read the tables under it. -/

namespace Nx508j.Ipanat

open Nx508j.Lib

/-- The `errno` values the driver returns, negated. -/
inductive Errno
  | einval
  | eio
  | enomem
deriving DecidableEq, Repr

/-- `nat_table_type`. -/
inductive NatTableType
  | ipaNatBaseTbl
  | ipaNatExpnTbl
  | ipaNatIndxTbl
  | ipaNatIndexExpnTbl
deriving DecidableEq, Repr

/-- `struct ipa_nat_ip4_table_cache`. -/
structure IpaNatIp4TableCache where
  valid : Bool
  publicAddr : UInt32
  tblAddrOffset : Nat
  tableEntries : Nat
  expnTableEntries : Nat
  ipv4Rules : Region IpaNatRule
  ipv4ExpnRules : Region IpaNatRule
  indexTable : Region IpaNatIndxTblRule
  indexTableExpn : Region IpaNatIndxTblRule
  /-- `index_expn_table_meta[].prev_index` -/
  indexExpnTableMeta : Region Nat
  ruleIdArray : Region Nat

/-! ## Writing a table by DMA -/

/-- `struct ipa_ioc_nat_dma_one`: write the 16 bits `data` at byte `offset` of a table. -/
structure IpaIocNatDmaOne where
  baseAddr : NatTableType
  offset : Nat
  data : Nat
deriving DecidableEq, Repr

def dmaWrite (t : IpaNatIp4TableCache) (d : IpaIocNatDmaOne) : Except Fault IpaNatIp4TableCache :=
  let ruleRow := d.offset / ipaNatTableEntrySize
  let writeRule (r : IpaNatRule) := r.writeHalf (d.offset % ipaNatTableEntrySize / 2) d.data
  let indxRow := d.offset / ipaNatIndexTableEntrySize
  let writeIndx (r : IpaNatIndxTblRule) :=
    r.writeHalf (d.offset % ipaNatIndexTableEntrySize / 2) d.data
  match d.baseAddr with
  | .ipaNatBaseTbl => do
      let m ← t.ipv4Rules.modify ruleRow writeRule
      .ok { t with ipv4Rules := m }
  | .ipaNatExpnTbl => do
      let m ← t.ipv4ExpnRules.modify ruleRow writeRule
      .ok { t with ipv4ExpnRules := m }
  | .ipaNatIndxTbl => do
      let m ← t.indexTable.modify indxRow writeIndx
      .ok { t with indexTable := m }
  | .ipaNatIndexExpnTbl => do
      let m ← t.indexTableExpn.modify indxRow writeIndx
      .ok { t with indexTableExpn := m }

/-- `ioctl(ipa_fd, IPA_IOC_NAT_DMA, cmd)`: the commands are carried out in order, or, when the call
    fails, none of them is. -/
def ioctlNatDma (t : IpaNatIp4TableCache) (cmds : List IpaIocNatDmaOne) (ok : Bool) :
    Except Fault IpaNatIp4TableCache :=
  if ok then cmds.foldlM dmaWrite t else .ok t

/-- `ipa_nati_get_entry_offset`. -/
def ipaNatiGetEntryOffset (t : IpaNatIp4TableCache) (tblEntry : Nat) : Nat :=
  tblEntry * ipaNatTableEntrySize + t.tblAddrOffset

/-- `ipa_nati_get_index_entry_offset`. -/
def ipaNatiGetIndexEntryOffset (t : IpaNatIp4TableCache) (indxTblEntry : Nat) : Nat :=
  indxTblEntry * ipaNatIndexTableEntrySize + t.tblAddrOffset

namespace IpaNatIp4TableCache

/-! ## Reading and writing by row number -/

/-- Where rule row `x` is: its table and its row there. -/
def ruleAddr (t : IpaNatIp4TableCache) (x : Nat) : NatTableType × Nat :=
  if x < t.tableEntries then (.ipaNatBaseTbl, x) else (.ipaNatExpnTbl, x - t.tableEntries)

/-- Where index row `x` is. -/
def indxAddr (t : IpaNatIp4TableCache) (x : Nat) : NatTableType × Nat :=
  if x < t.tableEntries then (.ipaNatIndxTbl, x) else (.ipaNatIndexExpnTbl, x - t.tableEntries)

/-- The rule array that `expn_tbl` selects. -/
def ruleTbl (t : IpaNatIp4TableCache) (expnTbl : Bool) : Region IpaNatRule :=
  if expnTbl then t.ipv4ExpnRules else t.ipv4Rules

/-- `memcpy` of a rule to row `x`. -/
def writeRule (t : IpaNatIp4TableCache) (x : Nat) (r : IpaNatRule) :
    Except Fault IpaNatIp4TableCache :=
  if x < t.tableEntries then do
    let m ← t.ipv4Rules.write x r
    .ok { t with ipv4Rules := m }
  else do
    let m ← t.ipv4ExpnRules.write (x - t.tableEntries) r
    .ok { t with ipv4ExpnRules := m }

/-- `memcpy` of an index rule to row `x`. -/
def writeIndx (t : IpaNatIp4TableCache) (x : Nat) (r : IpaNatIndxTblRule) :
    Except Fault IpaNatIp4TableCache :=
  if x < t.tableEntries then do
    let m ← t.indexTable.write x r
    .ok { t with indexTable := m }
  else do
    let m ← t.indexTableExpn.write (x - t.tableEntries) r
    .ok { t with indexTableExpn := m }

def readRule (t : IpaNatIp4TableCache) (x : Nat) : Except Fault IpaNatRule :=
  if x < t.tableEntries then t.ipv4Rules.read x else t.ipv4ExpnRules.read (x - t.tableEntries)

def readIndx (t : IpaNatIp4TableCache) (x : Nat) : Except Fault IpaNatIndxTblRule :=
  if x < t.tableEntries then t.indexTable.read x else t.indexTableExpn.read (x - t.tableEntries)

def writeMeta (t : IpaNatIp4TableCache) (i v : Nat) : Except Fault IpaNatIp4TableCache := do
  let m ← t.indexExpnTableMeta.write i v
  .ok { t with indexExpnTableMeta := m }

def writeRuleId (t : IpaNatIp4TableCache) (i v : Nat) : Except Fault IpaNatIp4TableCache := do
  let m ← t.ruleIdArray.write i v
  .ok { t with ruleIdArray := m }

/-! ## The tables as functions of the row number -/

def rows (t : IpaNatIp4TableCache) : Nat := t.tableEntries + t.expnTableEntries

/-- Rule row `x`, all zero past the last row. -/
def rule (t : IpaNatIp4TableCache) (x : Nat) : IpaNatRule :=
  if x < t.tableEntries then t.ipv4Rules.get x
  else if x < t.rows then t.ipv4ExpnRules.get (x - t.tableEntries) else {}

/-- Index row `x`, all zero past the last row. -/
def indx (t : IpaNatIp4TableCache) (x : Nat) : IpaNatIndxTblRule :=
  if x < t.tableEntries then t.indexTable.get x
  else if x < t.rows then t.indexTableExpn.get (x - t.tableEntries) else {}

/-- `index_expn_table_meta[].prev_index` of index row `x`; base rows have none. -/
def metaPrev (t : IpaNatIp4TableCache) (x : Nat) : Nat :=
  if t.tableEntries ≤ x ∧ x < t.rows then t.indexExpnTableMeta.get (x - t.tableEntries) else 0

def setRule (t : IpaNatIp4TableCache) (x : Nat) (r : IpaNatRule) : IpaNatIp4TableCache :=
  if x < t.tableEntries then { t with ipv4Rules := t.ipv4Rules.set x r }
  else { t with ipv4ExpnRules := t.ipv4ExpnRules.set (x - t.tableEntries) r }

def setIndx (t : IpaNatIp4TableCache) (x : Nat) (r : IpaNatIndxTblRule) : IpaNatIp4TableCache :=
  if x < t.tableEntries then { t with indexTable := t.indexTable.set x r }
  else { t with indexTableExpn := t.indexTableExpn.set (x - t.tableEntries) r }

def setMeta (t : IpaNatIp4TableCache) (x v : Nat) : IpaNatIp4TableCache :=
  { t with indexExpnTableMeta := t.indexExpnTableMeta.set (x - t.tableEntries) v }

def setRuleId (t : IpaNatIp4TableCache) (i v : Nat) : IpaNatIp4TableCache :=
  { t with ruleIdArray := t.ruleIdArray.set i v }

/-- The arrays are as long as the table says they are. -/
structure Sized (t : IpaNatIp4TableCache) : Prop where
  ipv4Rules : t.ipv4Rules.size = t.tableEntries
  ipv4ExpnRules : t.ipv4ExpnRules.size = t.expnTableEntries
  indexTable : t.indexTable.size = t.tableEntries
  indexTableExpn : t.indexTableExpn.size = t.expnTableEntries
  indexExpnTableMeta : t.indexExpnTableMeta.size = t.expnTableEntries
  ruleIdArray : t.ruleIdArray.size = t.rows

variable {t : IpaNatIp4TableCache}

/-! ### What the updates keep -/

section Frame

variable (t : IpaNatIp4TableCache) (x v : Nat) (r : IpaNatRule) (s : IpaNatIndxTblRule) (y : Nat)

@[simp] theorem valid_setRule : (t.setRule x r).valid = t.valid := by unfold setRule; split <;> rfl
@[simp] theorem valid_setIndx : (t.setIndx x s).valid = t.valid := by unfold setIndx; split <;> rfl
@[simp] theorem valid_setMeta : (t.setMeta x v).valid = t.valid := rfl
@[simp] theorem valid_setRuleId : (t.setRuleId x v).valid = t.valid := rfl

@[simp] theorem publicAddr_setRule : (t.setRule x r).publicAddr = t.publicAddr := by
  unfold setRule; split <;> rfl
@[simp] theorem publicAddr_setIndx : (t.setIndx x s).publicAddr = t.publicAddr := by
  unfold setIndx; split <;> rfl
@[simp] theorem publicAddr_setMeta : (t.setMeta x v).publicAddr = t.publicAddr := rfl
@[simp] theorem publicAddr_setRuleId : (t.setRuleId x v).publicAddr = t.publicAddr := rfl

@[simp] theorem tblAddrOffset_setRule : (t.setRule x r).tblAddrOffset = t.tblAddrOffset := by
  unfold setRule; split <;> rfl
@[simp] theorem tblAddrOffset_setIndx : (t.setIndx x s).tblAddrOffset = t.tblAddrOffset := by
  unfold setIndx; split <;> rfl
@[simp] theorem tblAddrOffset_setMeta : (t.setMeta x v).tblAddrOffset = t.tblAddrOffset := rfl
@[simp] theorem tblAddrOffset_setRuleId : (t.setRuleId x v).tblAddrOffset = t.tblAddrOffset := rfl

@[simp] theorem tableEntries_setRule : (t.setRule x r).tableEntries = t.tableEntries := by
  unfold setRule; split <;> rfl
@[simp] theorem tableEntries_setIndx : (t.setIndx x s).tableEntries = t.tableEntries := by
  unfold setIndx; split <;> rfl
@[simp] theorem tableEntries_setMeta : (t.setMeta x v).tableEntries = t.tableEntries := rfl
@[simp] theorem tableEntries_setRuleId : (t.setRuleId x v).tableEntries = t.tableEntries := rfl

@[simp] theorem expnTableEntries_setRule :
    (t.setRule x r).expnTableEntries = t.expnTableEntries := by
  unfold setRule; split <;> rfl
@[simp] theorem expnTableEntries_setIndx :
    (t.setIndx x s).expnTableEntries = t.expnTableEntries := by
  unfold setIndx; split <;> rfl
@[simp] theorem expnTableEntries_setMeta :
    (t.setMeta x v).expnTableEntries = t.expnTableEntries := rfl
@[simp] theorem expnTableEntries_setRuleId :
    (t.setRuleId x v).expnTableEntries = t.expnTableEntries := rfl

@[simp] theorem rows_setRule : (t.setRule x r).rows = t.rows := by simp [rows]
@[simp] theorem rows_setIndx : (t.setIndx x s).rows = t.rows := by simp [rows]
@[simp] theorem rows_setMeta : (t.setMeta x v).rows = t.rows := rfl
@[simp] theorem rows_setRuleId : (t.setRuleId x v).rows = t.rows := rfl

@[simp] theorem ruleIdArray_setRule : (t.setRule x r).ruleIdArray = t.ruleIdArray := by
  unfold setRule; split <;> rfl
@[simp] theorem ruleIdArray_setIndx : (t.setIndx x s).ruleIdArray = t.ruleIdArray := by
  unfold setIndx; split <;> rfl
@[simp] theorem ruleIdArray_setMeta : (t.setMeta x v).ruleIdArray = t.ruleIdArray := rfl
@[simp] theorem ruleIdArray_setRuleId :
    (t.setRuleId x v).ruleIdArray = t.ruleIdArray.set x v := rfl

@[simp] theorem rule_setIndx : (t.setIndx x s).rule y = t.rule y := by
  unfold setIndx; split <;> rfl
@[simp] theorem rule_setMeta : (t.setMeta x v).rule y = t.rule y := rfl
@[simp] theorem rule_setRuleId : (t.setRuleId x v).rule y = t.rule y := rfl

@[simp] theorem indx_setRule : (t.setRule x r).indx y = t.indx y := by
  unfold setRule; split <;> rfl
@[simp] theorem indx_setMeta : (t.setMeta x v).indx y = t.indx y := rfl
@[simp] theorem indx_setRuleId : (t.setRuleId x v).indx y = t.indx y := rfl

@[simp] theorem metaPrev_setRule : (t.setRule x r).metaPrev y = t.metaPrev y := by
  unfold setRule; split <;> rfl
@[simp] theorem metaPrev_setIndx : (t.setIndx x s).metaPrev y = t.metaPrev y := by
  unfold setIndx; split <;> rfl
@[simp] theorem metaPrev_setRuleId : (t.setRuleId x v).metaPrev y = t.metaPrev y := rfl

end Frame

@[simp] theorem sized_setRule {x : Nat} {r : IpaNatRule} : (t.setRule x r).Sized ↔ t.Sized := by
  unfold setRule
  split <;> exact ⟨fun h => ⟨h.1, h.2, h.3, h.4, h.5, h.6⟩, fun h => ⟨h.1, h.2, h.3, h.4, h.5, h.6⟩⟩

@[simp] theorem sized_setIndx {x : Nat} {r : IpaNatIndxTblRule} :
    (t.setIndx x r).Sized ↔ t.Sized := by
  unfold setIndx
  split <;> exact ⟨fun h => ⟨h.1, h.2, h.3, h.4, h.5, h.6⟩, fun h => ⟨h.1, h.2, h.3, h.4, h.5, h.6⟩⟩

@[simp] theorem sized_setMeta {x v : Nat} : (t.setMeta x v).Sized ↔ t.Sized :=
  ⟨fun h => ⟨h.1, h.2, h.3, h.4, h.5, h.6⟩, fun h => ⟨h.1, h.2, h.3, h.4, h.5, h.6⟩⟩

@[simp] theorem sized_setRuleId {x v : Nat} : (t.setRuleId x v).Sized ↔ t.Sized :=
  ⟨fun h => ⟨h.1, h.2, h.3, h.4, h.5, h.6⟩, fun h => ⟨h.1, h.2, h.3, h.4, h.5, h.6⟩⟩

/-! ### What the updates change -/

theorem rule_setRule {x : Nat} (hx : x < t.rows) (r : IpaNatRule) (y : Nat) :
    (t.setRule x r).rule y = if y = x then r else t.rule y := by
  unfold rule setRule rows at *
  by_cases hxt : x < t.tableEntries
  · simp only [hxt, ↓reduceIte, Region.get_set]
    grind
  · simp only [hxt, ↓reduceIte, Region.get_set]
    grind

theorem indx_setIndx {x : Nat} (hx : x < t.rows) (r : IpaNatIndxTblRule) (y : Nat) :
    (t.setIndx x r).indx y = if y = x then r else t.indx y := by
  unfold indx setIndx rows at *
  by_cases hxt : x < t.tableEntries
  · simp only [hxt, ↓reduceIte, Region.get_set]
    grind
  · simp only [hxt, ↓reduceIte, Region.get_set]
    grind

theorem metaPrev_setMeta {x : Nat} (hx : t.tableEntries ≤ x) (hx' : x < t.rows) (v y : Nat) :
    (t.setMeta x v).metaPrev y = if y = x then v else t.metaPrev y := by
  unfold metaPrev setMeta rows at *
  simp only [Region.get_set]
  grind

/-! ### The accesses of the code -/

theorem row_cases (n m x : Nat) : (x < n ∧ x < n + m) ∨ (¬ x < n ∧ x < n + m ∧ x - n < m) ∨
    ¬ x < n ∧ ¬ x < n + m ∧ ¬ x - n < m := by
  omega

namespace Sized

variable (hs : t.Sized) (x : Nat)

include hs

theorem readRule_eq :
    t.readRule x = if x < t.rows then .ok (t.rule x) else .error .outOfBounds := by
  unfold readRule rule rows Region.read
  rw [hs.ipv4Rules, hs.ipv4ExpnRules]
  grind

theorem readIndx_eq :
    t.readIndx x = if x < t.rows then .ok (t.indx x) else .error .outOfBounds := by
  unfold readIndx indx rows Region.read
  rw [hs.indexTable, hs.indexTableExpn]
  grind

theorem writeRule_eq (r : IpaNatRule) :
    t.writeRule x r = if x < t.rows then .ok (t.setRule x r) else .error .outOfBounds := by
  unfold writeRule setRule rows Region.write
  rw [hs.ipv4Rules, hs.ipv4ExpnRules]
  rcases row_cases t.tableEntries t.expnTableEntries x with hx | hx | hx
  · simp [hx]
  · simp [hx]
  · simp [hx]

theorem writeIndx_eq (r : IpaNatIndxTblRule) :
    t.writeIndx x r = if x < t.rows then .ok (t.setIndx x r) else .error .outOfBounds := by
  unfold writeIndx setIndx rows Region.write
  rw [hs.indexTable, hs.indexTableExpn]
  rcases row_cases t.tableEntries t.expnTableEntries x with hx | hx | hx
  · simp [hx]
  · simp [hx]
  · simp [hx]

theorem dmaWrite_ruleAddr (ho : t.tblAddrOffset = 0) (x v : Nat) {k : Nat} (hk : k < 16) :
    dmaWrite t ⟨(t.ruleAddr x).1, ipaNatiGetEntryOffset t (t.ruleAddr x).2 + 2 * k, v⟩ =
      if x < t.rows then .ok (t.setRule x ((t.rule x).writeHalf k v)) else .error .outOfBounds := by
  have hdiv : ∀ r, (r * 32 + 2 * k) / 32 = r := by omega
  have hmod : 2 * k % 32 / 2 = k := by omega
  unfold dmaWrite ipaNatiGetEntryOffset ipaNatTableEntrySize ruleAddr setRule rule rows Region.modify
  rw [ho, hs.ipv4Rules, hs.ipv4ExpnRules]
  rcases row_cases t.tableEntries t.expnTableEntries x with hx | hx | hx
  · simp [hx, hdiv, hmod]
  · simp [hx, hdiv, hmod]
  · simp [hx, hdiv]

theorem dmaWrite_indxAddr (ho : t.tblAddrOffset = 0) (x v : Nat) {k : Nat} (hk : k < 2) :
    dmaWrite t ⟨(t.indxAddr x).1, ipaNatiGetIndexEntryOffset t (t.indxAddr x).2 + 2 * k, v⟩ =
      if x < t.rows then .ok (t.setIndx x ((t.indx x).writeHalf k v)) else .error .outOfBounds := by
  have hdiv : ∀ r, (r * 4 + 2 * k) / 4 = r := by omega
  have hmod : 2 * k % 4 / 2 = k := by omega
  unfold dmaWrite ipaNatiGetIndexEntryOffset ipaNatIndexTableEntrySize indxAddr setIndx indx rows
    Region.modify
  rw [ho, hs.indexTable, hs.indexTableExpn]
  rcases row_cases t.tableEntries t.expnTableEntries x with hx | hx | hx
  · simp [hx, hdiv, hmod]
  · simp [hx, hdiv, hmod]
  · simp [hx, hdiv]

end Sized

end IpaNatIp4TableCache

end Nx508j.Ipanat
