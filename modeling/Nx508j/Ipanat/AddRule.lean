import Nx508j.Ipanat.Table

/-! # Adding a rule

`ipa_nati_add_ipv4_rule`: hash the rule into both tables, take a free expansion row on a collision,
copy both rows, link the predecessors and enable the rule by DMA, and hand out a handle. -/

namespace Nx508j.Ipanat

open Nx508j.Lib

/-! ## Searching -/

/-- The first row from `cnt` on that is free, looking at `n` rows. -/
def firstFree {α : Type} (free : α → Bool) (m : Region α) : Nat → Nat → Except Fault (Option Nat)
  | 0, _ => .ok none
  | n + 1, cnt => do
      let row ← m.read cnt
      if free row then .ok (some cnt) else firstFree free m n (cnt + 1)

/-- `ipa_nati_expn_tbl_free_entry`: 0 when every row from 1 on is enabled. -/
def ipaNatiExpnTblFreeEntry (expnTbl : Region IpaNatRule) (size : Nat) : Except Fault Nat := do
  let entry ← firstFree (fun r => !r.enable) expnTbl (size - 1) 1
  .ok (entry.getD 0)

/-- `ipa_nati_index_expn_get_free_entry`: 0 when every row from 1 on is occupied. -/
def ipaNatiIndexExpnGetFreeEntry (indxTbl : Region IpaNatIndxTblRule) (size : Nat) :
    Except Fault Nat := do
  let entry ← firstFree (fun r => r.tblEntry == 0) indxTbl (size - 1) 1
  .ok (entry.getD 0)

/-- The loop that looks for the last row of a chain, entered at the expansion row `nxtIndx`. It gives
    up (`none`) on a row that links to itself. It can only come to an end within as many steps as
    there are expansion rows, which is what `fuel` counts. -/
def walkToLast {α : Type} (next : α → Nat) (expn : Region α) (tableEntries : Nat) :
    Nat → Nat → Except Fault (Option Nat)
  | 0, _ => .error .diverges
  | fuel + 1, nxtIndx => do
      let row ← expn.read (sub16 nxtIndx tableEntries)
      if next row = nxtIndx then .ok none
      else if next row = 0 then .ok (some nxtIndx)
      else walkToLast next expn tableEntries fuel (next row)

/-- The last row of the chain that starts at the base row `head`, whose content is `row`. -/
def findLast {α : Type} (next : α → Nat) (expn : Region α) (tableEntries expnTableEntries : Nat)
    (head : Nat) (row : α) : Except Fault (Option Nat) :=
  if next row = 0 then .ok (some head)
  else walkToLast next expn tableEntries expnTableEntries (next row)

/-! ## Generating the rows -/

/-- The mask both hashes are taken under, `table_entries - 1`. -/
def IpaNatIp4TableCache.hashSize (t : IpaNatIp4TableCache) : UInt16 :=
  UInt16.ofNat t.tableEntries - 1

/-- The base row of the rule table a rule hashes to. -/
def IpaNatIp4TableCache.dstBucket (t : IpaNatIp4TableCache) (c : IpaNatIpv4Rule) : Nat :=
  dstHash c.targetIp c.targetPort c.publicPort c.protocol t.hashSize

/-- The base row of the index table a rule hashes to. -/
def IpaNatIp4TableCache.srcBucket (t : IpaNatIp4TableCache) (c : IpaNatIpv4Rule) : Nat :=
  srcHash c.privateIp c.privatePort c.targetIp c.targetPort c.protocol t.hashSize

/-- The rule row of a client rule, not yet linked and not enabled. -/
def IpaNatIpv4Rule.swRule (c : IpaNatIpv4Rule) (pubIpAddr : UInt32) : IpaNatRule where
  privateIp := c.privateIp
  privatePort := c.privatePort
  protocol := c.protocol
  publicPort := c.publicPort
  targetIp := c.targetIp
  targetPort := c.targetPort
  ipChksum := ipaNatiCalcIpCksum pubIpAddr c.privateIp
  tcpUdpChksum :=
    if c.protocol = ipprotoTcp ∨ c.protocol = ipprotoUdp then
      ipaNatiCalcTcpUdpCksum pubIpAddr c.publicPort c.privateIp c.privatePort
    else 0

/-- `ipa_nati_generate_tbl_rule`: the rule row and the row number it goes to, 0 for none. -/
def ipaNatiGenerateTblRule (t : IpaNatIp4TableCache) (c : IpaNatIpv4Rule) :
    Except Fault (IpaNatRule × Nat) := do
  let swRule := c.swRule t.publicAddr
  let newEntry := t.dstBucket c
  let row ← t.ipv4Rules.read newEntry
  if row.enable then
    let last ← findLast IpaNatRule.nextIndex t.ipv4ExpnRules t.tableEntries t.expnTableEntries
      newEntry row
    match last with
    | none => .ok (swRule, ipaNatInvalidNatEntry)
    | some prev =>
      let free ← ipaNatiExpnTblFreeEntry t.ipv4ExpnRules t.expnTableEntries
      if free = 0 then .ok (swRule, ipaNatInvalidNatEntry)
      else .ok ({ swRule with prevIndex := prev }, add16 free t.tableEntries)
  else .ok (swRule, newEntry)

/-- `struct ipa_nat_indx_tbl_sw_rule`. -/
structure IpaNatIndxTblSwRule where
  tblEntry : Nat := 0
  nextIndex : Nat := 0
  prevIndex : Nat := 0
deriving DecidableEq, Repr

/-- `ipa_nati_generate_index_rule`. Unlike its sibling it also refuses a row that would follow
    itself. -/
def ipaNatiGenerateIndexRule (t : IpaNatIp4TableCache) (c : IpaNatIpv4Rule) (tblEntry : Nat) :
    Except Fault (IpaNatIndxTblSwRule × Nat) := do
  let swRule : IpaNatIndxTblSwRule := { tblEntry := tblEntry }
  let newEntry := t.srcBucket c
  let row ← t.indexTable.read newEntry
  if row.tblEntry = 0 then .ok (swRule, newEntry)
  else
    let last ← findLast IpaNatIndxTblRule.nextIndex t.indexTableExpn t.tableEntries
      t.expnTableEntries newEntry row
    match last with
    | none => .ok (swRule, ipaNatInvalidNatEntry)
    | some prev =>
      let free ← ipaNatiIndexExpnGetFreeEntry t.indexTableExpn t.expnTableEntries
      if free = 0 then .ok (swRule, ipaNatInvalidNatEntry)
      else if prev = add16 free t.tableEntries then .ok (swRule, ipaNatInvalidNatEntry)
      else .ok ({ swRule with prevIndex := prev }, add16 free t.tableEntries)

/-- What `ipa_nati_generate_rule` fills in. -/
structure GeneratedRule where
  rule : IpaNatRule
  indexSwRule : IpaNatIndxTblSwRule
  tblEntry : Nat
  indxTblEntry : Nat

/-- `ipa_nati_generate_rule`: both rows and their places, and the predecessor of a new index
    expansion row noted in `index_expn_table_meta`. `none` is its `-EINVAL`. -/
def ipaNatiGenerateRule (t : IpaNatIp4TableCache) (c : IpaNatIpv4Rule) :
    Except Fault (IpaNatIp4TableCache × Option GeneratedRule) := do
  let (rule, tblEntry) ← ipaNatiGenerateTblRule t c
  if tblEntry = ipaNatInvalidNatEntry then .ok (t, none)
  else
    let (indexSwRule, indxTblEntry) ← ipaNatiGenerateIndexRule t c tblEntry
    if indxTblEntry = ipaNatInvalidNatEntry then .ok (t, none)
    else
      let gen : GeneratedRule :=
        { rule := { rule with indxTblEntry := indxTblEntry }, indexSwRule, tblEntry, indxTblEntry }
      if t.tableEntries ≤ indxTblEntry then
        let t ← t.writeMeta (indxTblEntry - t.tableEntries) indexSwRule.prevIndex
        .ok (t, some gen)
      else .ok (t, some gen)

/-! ## Writing the rows -/

/-- `ipa_nati_write_next_index`. Its result is not looked at: a failed write leaves the predecessor
    as it was. -/
def ipaNatiWriteNextIndex (t : IpaNatIp4TableCache) (tblType : NatTableType) (value offset : Nat)
    (ok : Bool) : Except Fault IpaNatIp4TableCache :=
  ioctlNatDma t [⟨tblType, offset, value⟩] ok

/-- `ipa_nati_copy_ipv4_rule_to_hw`. -/
def ipaNatiCopyIpv4RuleToHw (t : IpaNatIp4TableCache) (rule : IpaNatRule) (entry : Nat)
    (ok : Bool) : Except Fault IpaNatIp4TableCache := do
  let t ← t.writeRule entry rule
  if rule.prevIndex = ipaNatInvalidNatEntry then .ok t
  else
    let prev := t.ruleAddr rule.prevIndex
    let offset := ipaNatiGetEntryOffset t prev.2 + ipaNatRuleNextFieldOffset
    ipaNatiWriteNextIndex t prev.1 entry offset ok

/-- `ipa_nati_copy_ipv4_index_rule_to_hw`. Its `offset` is 16 bits wide, where the sibling's is
    32. -/
def ipaNatiCopyIpv4IndexRuleToHw (t : IpaNatIp4TableCache) (indxSwRule : IpaNatIndxTblSwRule)
    (entry : Nat) (ok : Bool) : Except Fault IpaNatIp4TableCache := do
  let t ← t.writeIndx entry { tblEntry := indxSwRule.tblEntry, nextIndex := indxSwRule.nextIndex }
  if indxSwRule.prevIndex = ipaNatInvalidNatEntry then .ok t
  else
    let prev := t.indxAddr indxSwRule.prevIndex
    let offset := add16 (ipaNatiGetIndexEntryOffset t prev.2 % 2 ^ 16)
      ipaNatIndexRuleNextFieldOffset
    ipaNatiWriteNextIndex t prev.1 entry offset ok

/-- `ipa_nati_post_ipv4_dma_cmd`: set the enable bit of a new row. `tbl_addr_offset` is added for an
    expansion row only. -/
def ipaNatiPostIpv4DmaCmd (t : IpaNatIp4TableCache) (entry : Nat) (ok : Bool) :
    Except Fault IpaNatIp4TableCache :=
  let cmd : IpaIocNatDmaOne :=
    if entry < t.tableEntries then
      ⟨.ipaNatBaseTbl, entry * ipaNatTableEntrySize + ipaNatRuleFlagFieldOffset,
        ipaNatFlagEnableBitMask⟩
    else
      ⟨.ipaNatExpnTbl, (entry - t.tableEntries) * ipaNatTableEntrySize + ipaNatRuleFlagFieldOffset
        + t.tblAddrOffset, ipaNatFlagEnableBitMask⟩
  ioctlNatDma t [cmd] ok

/-! ## Handles -/

/-- What `rule_id_array` stores for a row: its number in its table, and which table that is. -/
def ruleId (t : IpaNatIp4TableCache) (tblEntry : Nat) : Nat :=
  if t.tableEntries ≤ tblEntry then ((tblEntry - t.tableEntries) * 2) % 65536 ||| 1
  else (tblEntry * 2) % 65536

/-- `ipa_nati_make_rule_hdl`: the first unused slot of `rule_id_array`, counted from 1; 0 when there
    is none. -/
def ipaNatiMakeRuleHdl (t : IpaNatIp4TableCache) (tblEntry : Nat) :
    Except Fault (IpaNatIp4TableCache × Nat) := do
  let slot ← firstFree (· == 0) t.ruleIdArray t.rows 0
  match slot with
  | none => .ok (t, 0)
  | some cnt =>
    let t ← t.writeRuleId cnt (ruleId t tblEntry)
    .ok (t, cnt + 1)

/-- `ipa_nati_parse_ipv4_rule_hdl`: whether the row is in the expansion table, and its number there;
    row 0 for a handle past the end. Handle 0 reads the element before `rule_id_array`. -/
def ipaNatiParseIpv4RuleHdl (t : IpaNatIp4TableCache) (ruleHdl : Nat) :
    Except Fault (Bool × Nat) :=
  if t.rows ≤ ruleHdl then .ok (false, ipaNatInvalidNatEntry)
  else if ruleHdl = 0 then .error .outOfBounds
  else do
    let id ← t.ruleIdArray.read (ruleHdl - 1)
    .ok (id % 2 == 1, id / 2)

/-! ## The call -/

/-- Which of the DMA writes of one addition succeed: the two that link the predecessors and the one
    that enables the rule. -/
structure AddDma where
  ruleLink : Bool
  indexLink : Bool
  enable : Bool
deriving DecidableEq, Repr

/-- Every ioctl succeeds. -/
def AddDma.allOk : AddDma := ⟨true, true, true⟩

/-- `ipa_nati_add_ipv4_rule`. -/
def ipaNatiAddIpv4Rule (t : IpaNatIp4TableCache) (c : IpaNatIpv4Rule) (dma : AddDma) :
    Except Fault (IpaNatIp4TableCache × Except Errno Nat) := do
  let (t, gen) ← ipaNatiGenerateRule t c
  match gen with
  | none => .ok (t, .error .einval)
  | some gen =>
    let t ← ipaNatiCopyIpv4RuleToHw t gen.rule gen.tblEntry dma.ruleLink
    let t ← ipaNatiCopyIpv4IndexRuleToHw t gen.indexSwRule gen.indxTblEntry dma.indexLink
    let t ← ipaNatiPostIpv4DmaCmd t gen.tblEntry dma.enable
    if dma.enable then
      let (t, ruleHdl) ← ipaNatiMakeRuleHdl t gen.tblEntry
      if ruleHdl = 0 then .ok (t, .error .einval) else .ok (t, .ok ruleHdl)
    else .ok (t, .error .eio)

end Nx508j.Ipanat
