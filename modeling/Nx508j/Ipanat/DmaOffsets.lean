import Nx508j.Ipanat.Layout

/-! # The offsets of DMA commands

A command names a table and a byte in it. The functions that make the commands work the byte out
each for itself, in variables of 32 or of 16 bits, and add the offset of the memory of the tables or
do not. -/

namespace Nx508j.Ipanat

open Nx508j.Lib Function

/-! ## The commands -/

/-- `struct ipa_ioc_nat_dma_one`, with fields that are as wide as the struct has them. -/
structure DmaOne where
  baseAddr : NatTableType
  offset : UInt32
  data : UInt16
deriving DecidableEq, Repr

/-- The fields of `struct ipa_nat_ip4_table_cache` that the offsets depend on. -/
structure DmaTable where
  tableEntries : UInt16
  tblAddrOffset : UInt32

/-- `(char *)&tbl_ptr[tbl_entry] - (char *)tbl_ptr` -/
def bytesTo (entrySize : Nat) (tblEntry : UInt16) : UInt32 :=
  UInt32.ofNat (tblEntry.toNat * entrySize)

namespace DmaTable

variable (t : DmaTable) (entry prevEntry : UInt16)

/-- `ipa_nati_get_entry_offset` -/
def getEntryOffset (tblEntry : UInt16) : UInt32 :=
  bytesTo ipaNatTableEntrySize tblEntry + t.tblAddrOffset

/-- `ipa_nati_get_index_entry_offset` -/
def getIndexEntryOffset (indxTblEntry : UInt16) : UInt32 :=
  bytesTo ipaNatIndexTableEntrySize indxTblEntry + t.tblAddrOffset

/-- The command of `ipa_nati_post_ipv4_dma_cmd`. -/
def postIpv4DmaCmd : DmaOne :=
  if entry < t.tableEntries then
    ⟨.ipaNatBaseTbl,
      bytesTo ipaNatTableEntrySize entry + UInt32.ofNat ipaNatRuleFlagFieldOffset,
      UInt16.ofNat ipaNatFlagEnableBitMask⟩
  else
    ⟨.ipaNatExpnTbl,
      bytesTo ipaNatTableEntrySize (entry - t.tableEntries) +
        UInt32.ofNat ipaNatRuleFlagFieldOffset + t.tblAddrOffset,
      UInt16.ofNat ipaNatFlagEnableBitMask⟩

/-- The command by which `ipa_nati_post_del_dma_cmd` disables a rule. The row is given by the bit
    for the expansion table and the number in its table. -/
def delFlagCmd (expnTbl : Bool) (curTblEntry : UInt16) : DmaOne :=
  ⟨if expnTbl then .ipaNatExpnTbl else .ipaNatBaseTbl,
    t.getEntryOffset curTblEntry + UInt32.ofNat ipaNatRuleFlagFieldOffset,
    UInt16.ofNat ipaNatFlagDisableBitMask⟩

/-- Whether a row is in the expansion table, and its number there. -/
def expnTbl : Bool := decide (t.tableEntries ≤ entry)

def rowIn : UInt16 := if entry < t.tableEntries then entry else entry - t.tableEntries

/-- The command by which `ipa_nati_copy_ipv4_rule_to_hw` links the predecessor of row `entry`, if it
    has one. -/
def copyIpv4RuleToHwCmd : Option DmaOne :=
  if UInt16.ofNat ipaNatInvalidNatEntry ≠ prevEntry then
    let (tblType, prevEntry) :=
      if prevEntry < t.tableEntries then (NatTableType.ipaNatBaseTbl, prevEntry)
      else (NatTableType.ipaNatExpnTbl, prevEntry - t.tableEntries)
    let offset := t.getEntryOffset prevEntry + UInt32.ofNat ipaNatRuleNextFieldOffset
    some ⟨tblType, offset, entry⟩
  else none

/-- The same for `ipa_nati_copy_ipv4_index_rule_to_hw`. Its `offset` is a `uint16_t`. -/
def copyIpv4IndexRuleToHwCmd : Option DmaOne :=
  if UInt16.ofNat ipaNatInvalidNatEntry ≠ prevEntry then
    let (tblType, prevEntry) :=
      if prevEntry < t.tableEntries then (NatTableType.ipaNatIndxTbl, prevEntry)
      else (NatTableType.ipaNatIndexExpnTbl, prevEntry - t.tableEntries)
    let offset : UInt16 := (t.getIndexEntryOffset prevEntry).toUInt16
    let offset := offset + UInt16.ofNat ipaNatIndexRuleNextFieldOffset
    some ⟨tblType, offset.toUInt32, entry⟩
  else none

end DmaTable

/-- The tables of `ipa_nati_alloc_table`, in memory at an offset. -/
def AllocTable.dmaTable (a : AllocTable) (tblAddrOffset : UInt32) : DmaTable :=
  ⟨UInt16.ofNat a.tableEntries, tblAddrOffset⟩

theorem AllocTable.toNat_tableEntries {numberOfEntries : UInt16} (a : AllocTable)
    (halloc : ipaNatiAllocTable numberOfEntries = .ok a) (tblAddrOffset : UInt32) :
    (a.dmaTable tblAddrOffset).tableEntries.toNat = a.tableEntries := by
  obtain ⟨a', halloc', -, -, hcases⟩ := ipaNatiAllocTable_cases numberOfEntries
  obtain rfl := Except.ok.inj (halloc.symm.trans halloc')
  refine UInt16.toNat_ofNat_of_lt' ?_
  rcases hcases with ⟨-, k, -, hk, hpow⟩ | ⟨-, hzero⟩
  · have := Nat.pow_le_pow_right (n := 2) Nat.two_pos hk
    change a.tableEntries < 65536
    omega
  · change a.tableEntries < 65536
    omega

/-! ## What a command writes -/

/-- The byte that a command names, for tables that are at `tableAt`. -/
def DmaOne.byteAddr (tableAt : NatTableType → Nat) (d : DmaOne) : Nat :=
  tableAt d.baseAddr + d.offset.toNat

/-- A memory with the 16 bits of a command written, the low byte first. -/
def DmaOne.write (tableAt : NatTableType → Nat) (d : DmaOne) (mem : Nat → Nat) : Nat → Nat :=
  update
    (update mem (d.byteAddr tableAt) (d.data.toNat % 256)) (d.byteAddr tableAt + 1)
    (d.data.toNat / 256)

/-- The 16 bits at a byte. -/
def readHalf (mem : Nat → Nat) (addr : Nat) : Nat := mem addr + 256 * mem (addr + 1)

/-! ## The enable field -/

/-- **The property.** Adding and deleting a rule write the same byte, so that what the one sets the
    other clears. -/
structure SameWord (t : DmaTable) (entry : UInt16) : Prop where
  addr : ∀ tableAt, (t.postIpv4DmaCmd entry).byteAddr tableAt =
    (t.delFlagCmd (t.expnTbl entry) (t.rowIn entry)).byteAddr tableAt
  cleared : ∀ tableAt mem,
    readHalf ((t.delFlagCmd (t.expnTbl entry) (t.rowIn entry)).write tableAt
      ((t.postIpv4DmaCmd entry).write tableAt mem)) ((t.postIpv4DmaCmd entry).byteAddr tableAt) = 0

section

variable {prevEntry : UInt16} (t : DmaTable)

theorem add_swap (a b c : UInt32) : a + b + c = a + c + b := by
  rw [UInt32.add_assoc, UInt32.add_comm b, ← UInt32.add_assoc]

theorem readHalf_write (tableAt : NatTableType → Nat) (d : DmaOne) (mem : Nat → Nat) :
    readHalf (d.write tableAt mem) (d.byteAddr tableAt) = d.data.toNat := by
  unfold readHalf DmaOne.write
  rw [update_self, update_of_ne (by omega), update_self]
  omega

theorem flag_offset_iff (entry : UInt16) : (t.postIpv4DmaCmd entry).offset =
        (t.delFlagCmd (t.expnTbl entry) (t.rowIn entry)).offset ↔
      t.tableEntries ≤ entry ∨ t.tblAddrOffset = 0 := by
  unfold DmaTable.postIpv4DmaCmd DmaTable.delFlagCmd DmaTable.rowIn DmaTable.getEntryOffset
  by_cases hbase : entry < t.tableEntries
  · have hle : ¬ t.tableEntries ≤ entry := UInt16.not_le.2 hbase
    simp only [if_pos hbase, hle, false_or]
    rw [add_swap, UInt32.left_eq_add]
  · have hle : t.tableEntries ≤ entry := UInt16.not_lt.1 hbase
    simp only [if_neg hbase, hle, true_or, iff_true]
    exact add_swap ..

theorem flag_baseAddr (entry : UInt16) : (t.postIpv4DmaCmd entry).baseAddr =
    (t.delFlagCmd (t.expnTbl entry) (t.rowIn entry)).baseAddr := by
  unfold DmaTable.postIpv4DmaCmd DmaTable.delFlagCmd DmaTable.expnTbl
  by_cases hbase : entry < t.tableEntries
  · simp [hbase]
  · simp [hbase, UInt16.not_lt.1 hbase]

theorem sameWord_iff (entry : UInt16) :
    SameWord t entry ↔ t.tableEntries ≤ entry ∨ t.tblAddrOffset = 0 := by
  rw [← flag_offset_iff]
  constructor
  · intro h
    have haddr := h.addr fun _ => 0
    unfold DmaOne.byteAddr at haddr
    simp only [Nat.zero_add] at haddr
    exact UInt32.toNat_inj.1 haddr
  · intro hoffset
    have haddr : ∀ tableAt, (t.postIpv4DmaCmd entry).byteAddr tableAt =
        (t.delFlagCmd (t.expnTbl entry) (t.rowIn entry)).byteAddr tableAt := by
      intro tableAt
      unfold DmaOne.byteAddr
      rw [flag_baseAddr, hoffset]
    refine ⟨haddr, fun tableAt mem => ?_⟩
    rw [haddr, readHalf_write]
    rfl

/-- **The enable field.** For each size, offset and row, adding and deleting a rule write the same
    word just if the row is in the expansion table or the memory has offset 0. -/
theorem enable_sameWord_iff {numberOfEntries : UInt16} {a : AllocTable}
    (halloc : ipaNatiAllocTable numberOfEntries = .ok a) (tblAddrOffset : UInt32) (entry : UInt16) :
    SameWord (a.dmaTable tblAddrOffset) entry ↔
      a.tableEntries ≤ entry.toNat ∨ tblAddrOffset = 0 := by
  rw [sameWord_iff]
  refine or_congr_left ?_
  rw [UInt16.le_iff_toNat_le, a.toNat_tableEntries halloc]

/-- A table of 128 and 20 rows whose memory has offset 0. -/
theorem enable_sameWord_zero : SameWord ((⟨128, 20, 5328⟩ : AllocTable).dmaTable 0) 1 :=
  have halloc : ipaNatiAllocTable 100 = .ok ⟨128, 20, 5328⟩ := by decide
  (enable_sameWord_iff halloc 0 1).2 (.inr rfl)

/-- If the memory has offset 64, the enable bit of row 3 is cleared for row 1. -/
theorem enable_sameWord_fails : ∃ a, ipaNatiAllocTable 100 = .ok a ∧
    ¬ SameWord (a.dmaTable 64) 1 ∧
      (a.dmaTable 64).postIpv4DmaCmd 1 = ⟨.ipaNatBaseTbl, 32 + 18, 0x8000⟩ ∧
        (a.dmaTable 64).delFlagCmd false 1 = ⟨.ipaNatBaseTbl, 3 * 32 + 18, 0⟩ := by
  refine ⟨⟨128, 20, 5328⟩, by decide, ?_, by decide, by decide⟩
  rw [sameWord_iff]
  decide

/-! ## The next field -/

/-- The byte of a field of a row: the rows before it, the field, and the offset of the memory. -/
def DmaTable.fieldAddr (t : DmaTable) (entrySize fieldOffset : Nat) (entry : UInt16) : Nat :=
  (t.rowIn entry).toNat * entrySize + fieldOffset + t.tblAddrOffset.toNat

/-- **The property.** The commands that link a new row name the next fields of its predecessors. -/
structure NextRight (t : DmaTable) (entry prevEntry indxEntry indxPrevEntry : UInt16) : Prop where
  rule : ∀ d, t.copyIpv4RuleToHwCmd entry prevEntry = some d →
    d.offset.toNat = t.fieldAddr ipaNatTableEntrySize ipaNatRuleNextFieldOffset prevEntry
  indx : ∀ d, t.copyIpv4IndexRuleToHwCmd indxEntry indxPrevEntry = some d →
    d.offset.toNat =
      t.fieldAddr ipaNatIndexTableEntrySize ipaNatIndexRuleNextFieldOffset indxPrevEntry

theorem toNat_bytesTo {entrySize : Nat} (hsize : entrySize ≤ 32) (entry : UInt16) :
    (bytesTo entrySize entry).toNat = entry.toNat * entrySize := by
  refine UInt32.toNat_ofNat_of_lt' ?_
  have hentry := entry.toNat_lt
  have hle : entry.toNat * entrySize ≤ entry.toNat * 32 := Nat.mul_le_mul_left _ hsize
  change _ < 4294967296
  omega

theorem copyIpv4RuleToHwCmd_eq (entry : UInt16) (hprev : prevEntry ≠ 0) :
    ∃ d, t.copyIpv4RuleToHwCmd entry prevEntry = some d ∧ d.offset.toNat =
      t.fieldAddr ipaNatTableEntrySize ipaNatRuleNextFieldOffset prevEntry % 2 ^ 32 := by
  have hoffset : ∀ tblEntry, (t.getEntryOffset tblEntry +
      UInt32.ofNat ipaNatRuleNextFieldOffset).toNat =
        (tblEntry.toNat * 32 + 8 + t.tblAddrOffset.toNat) % 2 ^ 32 := by
    intro tblEntry
    rw [UInt32.toNat_add, DmaTable.getEntryOffset, UInt32.toNat_add, toNat_bytesTo (by decide)]
    change ((tblEntry.toNat * 32 + _) % 2 ^ 32 + 8) % 2 ^ 32 = _
    omega
  unfold DmaTable.copyIpv4RuleToHwCmd DmaTable.fieldAddr DmaTable.rowIn
  have hthere : UInt16.ofNat ipaNatInvalidNatEntry ≠ prevEntry := Ne.symm hprev
  rw [if_pos hthere]
  by_cases hbase : prevEntry < t.tableEntries
  · simp only [if_pos hbase]
    exact ⟨_, rfl, hoffset _⟩
  · simp only [if_neg hbase]
    exact ⟨_, rfl, hoffset _⟩

theorem copyIpv4IndexRuleToHwCmd_eq (entry : UInt16) (hprev : prevEntry ≠ 0) :
    ∃ d, t.copyIpv4IndexRuleToHwCmd entry prevEntry = some d ∧ d.offset.toNat =
      t.fieldAddr ipaNatIndexTableEntrySize ipaNatIndexRuleNextFieldOffset prevEntry % 2 ^ 16 := by
  have hoffset : ∀ tblEntry, ((t.getIndexEntryOffset tblEntry).toUInt16 +
      UInt16.ofNat ipaNatIndexRuleNextFieldOffset).toUInt32.toNat =
        (tblEntry.toNat * 4 + 2 + t.tblAddrOffset.toNat) % 2 ^ 16 := by
    intro tblEntry
    rw [UInt16.toNat_toUInt32, UInt16.toNat_add, UInt32.toNat_toUInt16,
      DmaTable.getIndexEntryOffset, UInt32.toNat_add, toNat_bytesTo (by decide)]
    change ((tblEntry.toNat * 4 + _) % 2 ^ 32 % 2 ^ 16 + 2) % 2 ^ 16 = _
    omega
  unfold DmaTable.copyIpv4IndexRuleToHwCmd DmaTable.fieldAddr DmaTable.rowIn
  have hthere : UInt16.ofNat ipaNatInvalidNatEntry ≠ prevEntry := Ne.symm hprev
  rw [if_pos hthere]
  by_cases hbase : prevEntry < t.tableEntries
  · simp only [if_pos hbase]
    exact ⟨_, rfl, hoffset _⟩
  · simp only [if_neg hbase]
    exact ⟨_, rfl, hoffset _⟩

/-- **The next field.** A predecessor is linked just if the byte of its next field fits the variable
    that it is worked out in: 32 bits for a rule, but 16 for a row of an index table. -/
theorem next_offset_iff (t : DmaTable) (entry prevEntry indxEntry indxPrevEntry : UInt16) :
    NextRight t entry prevEntry indxEntry indxPrevEntry ↔
      (prevEntry ≠ 0 →
          t.fieldAddr ipaNatTableEntrySize ipaNatRuleNextFieldOffset prevEntry < 2 ^ 32) ∧
        (indxPrevEntry ≠ 0 →
          t.fieldAddr ipaNatIndexTableEntrySize ipaNatIndexRuleNextFieldOffset indxPrevEntry <
            2 ^ 16) := by
  constructor
  · intro h
    refine ⟨fun hprev => ?_, fun hprev => ?_⟩
    · obtain ⟨d, hd, hoffset⟩ := copyIpv4RuleToHwCmd_eq t entry hprev
      rw [← Nat.mod_eq_iff_lt (by decide), ← hoffset]
      exact h.rule d hd
    · obtain ⟨d, hd, hoffset⟩ := copyIpv4IndexRuleToHwCmd_eq t indxEntry hprev
      rw [← Nat.mod_eq_iff_lt (by decide), ← hoffset]
      exact h.indx d hd
  · rintro ⟨hrule, hindx⟩
    refine ⟨fun d hd => ?_, fun d hd => ?_⟩
    · have hprev : prevEntry ≠ 0 := by
        rintro rfl
        cases hd
      obtain ⟨d', hd', hoffset⟩ := copyIpv4RuleToHwCmd_eq t entry hprev
      obtain rfl := Option.some.inj (hd'.symm.trans hd)
      rw [hoffset, Nat.mod_eq_of_lt (hrule hprev)]
    · have hprev : indxPrevEntry ≠ 0 := by
        rintro rfl
        cases hd
      obtain ⟨d', hd', hoffset⟩ := copyIpv4IndexRuleToHwCmd_eq t indxEntry hprev
      obtain rfl := Option.some.inj (hd'.symm.trans hd)
      rw [hoffset, Nat.mod_eq_of_lt (hindx hprev)]

/-- A table for 40000 entries has 32768 base rows. The next field of row 0 is written for row
    16384. -/
theorem next_offset_truncated : ∃ a, ipaNatiAllocTable 40000 = .ok a ∧
    (16384 : UInt16).toNat < a.tableEntries ∧ ¬ NextRight (a.dmaTable 0) 1 0 32768 16384 ∧
      (a.dmaTable 0).copyIpv4IndexRuleToHwCmd 32768 16384 = some ⟨.ipaNatIndxTbl, 2, 32768⟩ := by
  refine ⟨⟨32768, 8000, 36 * 40768⟩, by decide +kernel, by decide, ?_, by decide⟩
  rw [next_offset_iff]
  decide

end

/-! ## The other model of the table

The functions that work on the rows have numbers of any size; they post the commands above, as long
as the offsets fit. -/

def DmaOne.plain (d : DmaOne) : IpaIocNatDmaOne := ⟨d.baseAddr, d.offset.toNat, d.data.toNat⟩

structure DmaTable.Models (d : DmaTable) (t : IpaNatIp4TableCache) : Prop where
  tableEntries : d.tableEntries.toNat = t.tableEntries
  tblAddrOffset : d.tblAddrOffset.toNat = t.tblAddrOffset
  fits : t.tblAddrOffset + 65536 * ipaNatTableEntrySize ≤ 2 ^ 32

section Models

variable {d : DmaTable} {t : IpaNatIp4TableCache}

theorem DmaTable.Models.addr (h : d.Models t) (base expn : NatTableType) (x : UInt16) :
    (if x.toNat < t.tableEntries then (base, x.toNat)
      else (expn, x.toNat - t.tableEntries)) =
      (if x < d.tableEntries then base else expn, (d.rowIn x).toNat) := by
  unfold DmaTable.rowIn
  rw [← h.tableEntries]
  by_cases hbase : x < d.tableEntries
  · rw [if_pos (UInt16.lt_iff_toNat_lt.1 hbase), if_pos hbase, if_pos hbase]
  · rw [if_neg fun hlt => hbase (UInt16.lt_iff_toNat_lt.2 hlt), if_neg hbase, if_neg hbase,
      UInt16.toNat_sub_of_le _ _ (UInt16.not_lt.1 hbase)]

theorem DmaTable.Models.toNat_offset (h : d.Models t) (row : UInt16) {k : Nat} (hk : k < 32) :
    (d.getEntryOffset row + UInt32.ofNat k).toNat = ipaNatiGetEntryOffset t row.toNat + k := by
  have hfits : t.tblAddrOffset + 65536 * 32 ≤ 2 ^ 32 := h.fits
  have hrow := row.toNat_lt
  have hk32 : (UInt32.ofNat k).toNat = k := UInt32.toNat_ofNat_of_lt' (hk.trans (by decide))
  unfold DmaTable.getEntryOffset ipaNatiGetEntryOffset
  rw [UInt32.toNat_add, UInt32.toNat_add, toNat_bytesTo (by decide), h.tblAddrOffset, hk32]
  change ((row.toNat * 32 + _) % 2 ^ 32 + k) % 2 ^ 32 = row.toNat * 32 + _ + k
  omega

theorem DmaTable.Models.writeRule (h : d.Models t) {x : Nat} {r : IpaNatRule}
    {t' : IpaNatIp4TableCache} (hw : t.writeRule x r = .ok t') : d.Models t' := by
  unfold IpaNatIp4TableCache.writeRule at hw
  split at hw
  all_goals
    obtain ⟨m, -, hw⟩ := bind_eq_ok hw
    cases hw
    exact ⟨h.tableEntries, h.tblAddrOffset, h.fits⟩

theorem DmaTable.Models.writeIndx (h : d.Models t) {x : Nat} {r : IpaNatIndxTblRule}
    {t' : IpaNatIp4TableCache} (hw : t.writeIndx x r = .ok t') : d.Models t' := by
  unfold IpaNatIp4TableCache.writeIndx at hw
  split at hw
  all_goals
    obtain ⟨m, -, hw⟩ := bind_eq_ok hw
    cases hw
    exact ⟨h.tableEntries, h.tblAddrOffset, h.fits⟩

theorem ioctlNatDma_plain {o : Nat} {o' : UInt32} (heq : o'.toNat = o) (tblType : NatTableType)
    (data : UInt16) (ok : Bool) : ioctlNatDma t [⟨tblType, o, data.toNat⟩] ok =
      ioctlNatDma t [DmaOne.plain ⟨tblType, o', data⟩] ok := by
  rw [← heq]
  rfl

/-- A new rule is enabled by `postIpv4DmaCmd`. -/
theorem DmaTable.Models.postIpv4DmaCmd (h : d.Models t) (entry : UInt16) (ok : Bool) :
    ipaNatiPostIpv4DmaCmd t entry.toNat ok =
      ioctlNatDma t [(d.postIpv4DmaCmd entry).plain] ok := by
  unfold ipaNatiPostIpv4DmaCmd DmaTable.postIpv4DmaCmd
  rw [← h.tableEntries]
  by_cases hbase : entry < d.tableEntries
  · rw [if_pos (UInt16.lt_iff_toNat_lt.1 hbase), if_pos hbase]
    refine ioctlNatDma_plain ?_ _ (UInt16.ofNat ipaNatFlagEnableBitMask) _
    have hentry := entry.toNat_lt
    rw [UInt32.toNat_add, toNat_bytesTo (by decide)]
    change (entry.toNat * 32 + 18) % 2 ^ 32 = entry.toNat * 32 + 18
    omega
  · rw [if_neg fun hlt => hbase (UInt16.lt_iff_toNat_lt.2 hlt), if_neg hbase, add_swap]
    refine ioctlNatDma_plain ?_ _ (UInt16.ofNat ipaNatFlagEnableBitMask) _
    refine (h.toNat_offset _ (by decide)).trans ?_
    rw [UInt16.toNat_sub_of_le _ _ (UInt16.not_lt.1 hbase)]
    exact Nat.add_right_comm ..

/-- The only rule of a chain is disabled by `delFlagCmd`, if it is in the base table. -/
theorem DmaTable.Models.delFlagCmd (h : d.Models t) (entry : UInt16) (cur : IpaNatRule) :
    ruleDelCmd t entry.toNat cur .onlyOne = (d.delFlagCmd false entry).plain :=
  congrArg (IpaIocNatDmaOne.mk _ · _)
    (h.toNat_offset entry (show ipaNatRuleFlagFieldOffset < 32 by decide)).symm

/-- **The predecessor of a rule** is linked by `copyIpv4RuleToHwCmd`. -/
theorem DmaTable.Models.copyIpv4RuleToHw (h : d.Models t) {rule : IpaNatRule} {prev : UInt16}
    (hprev : rule.prevIndex = prev.toNat) (entry : UInt16) (ok : Bool) :
    ipaNatiCopyIpv4RuleToHw t rule entry.toNat ok = (do
      let t ← t.writeRule entry.toNat rule
      ioctlNatDma t ((d.copyIpv4RuleToHwCmd entry prev).toList.map DmaOne.plain) ok) := by
  unfold ipaNatiCopyIpv4RuleToHw
  cases hw : t.writeRule entry.toNat rule with
  | error => rfl
  | ok t' =>
    have h' := h.writeRule hw
    rw [ok_bind, ok_bind, hprev]
    unfold DmaTable.copyIpv4RuleToHwCmd
    by_cases hnone : UInt16.ofNat ipaNatInvalidNatEntry = prev
    · subst hnone
      cases ok <;> rfl
    rw [if_neg fun heq => hnone (UInt16.toNat_inj.1 heq.symm), if_pos hnone]
    rw [IpaNatIp4TableCache.ruleAddr, h'.addr, DmaTable.rowIn]
    by_cases hbase : prev < d.tableEntries
    · simp only [if_pos hbase]
      exact ioctlNatDma_plain (h'.toNat_offset _ (by decide)) ..
    · simp only [if_neg hbase]
      exact ioctlNatDma_plain (h'.toNat_offset _ (by decide)) ..

/-- **The predecessor of an index row** is linked by `copyIpv4IndexRuleToHwCmd`. -/
theorem DmaTable.Models.copyIpv4IndexRuleToHw (h : d.Models t) {rule : IpaNatIndxTblSwRule}
    {prev : UInt16} (hprev : rule.prevIndex = prev.toNat) (entry : UInt16) (ok : Bool) :
    ipaNatiCopyIpv4IndexRuleToHw t rule entry.toNat ok = (do
      let t ← t.writeIndx entry.toNat { tblEntry := rule.tblEntry, nextIndex := rule.nextIndex }
      ioctlNatDma t ((d.copyIpv4IndexRuleToHwCmd entry prev).toList.map DmaOne.plain) ok) := by
  unfold ipaNatiCopyIpv4IndexRuleToHw
  cases hw : t.writeIndx entry.toNat { tblEntry := rule.tblEntry, nextIndex := rule.nextIndex } with
  | error => rfl
  | ok t' =>
    have h' := h.writeIndx hw
    rw [ok_bind, ok_bind, hprev]
    unfold DmaTable.copyIpv4IndexRuleToHwCmd
    by_cases hnone : UInt16.ofNat ipaNatInvalidNatEntry = prev
    · subst hnone
      cases ok <;> rfl
    rw [if_neg fun heq => hnone (UInt16.toNat_inj.1 heq.symm), if_pos hnone]
    rw [IpaNatIp4TableCache.indxAddr, h'.addr, DmaTable.rowIn]
    have hoffset : ∀ row : UInt16, ((d.getIndexEntryOffset row).toUInt16 +
        UInt16.ofNat ipaNatIndexRuleNextFieldOffset).toUInt32.toNat =
          add16 (ipaNatiGetIndexEntryOffset t' row.toNat % 2 ^ 16)
            ipaNatIndexRuleNextFieldOffset := by
      intro row
      rw [UInt16.toNat_toUInt32, UInt16.toNat_add, UInt32.toNat_toUInt16,
        DmaTable.getIndexEntryOffset, UInt32.toNat_add, toNat_bytesTo (by decide),
        h'.tblAddrOffset, Nat.mod_mod_of_dvd _ (by decide)]
      rfl
    by_cases hbase : prev < d.tableEntries
    · simp only [if_pos hbase]
      exact ioctlNatDma_plain (hoffset _) ..
    · simp only [if_neg hbase]
      exact ioctlNatDma_plain (hoffset _) ..

end Models

end Nx508j.Ipanat
