import Nx508j.Ipanat.AddRule

/-! # Deleting a rule

`ipa_nati_del_ipv4_rule`: find where in its chains a rule sits, take it out of both by one batch of
DMA commands, tidy up what the hardware does not use, and clear base rows that were only kept as the
dead head of a chain. -/

namespace Nx508j.Ipanat

open Nx508j.Lib

/-- `del_type`: where in its chain a row sits. -/
inductive DelType
  | onlyOne
  | head
  | middle
  | last
deriving DecidableEq, Repr

/-- `ipa_nati_find_rule_pos`. -/
def ipaNatiFindRulePos (t : IpaNatIp4TableCache) (expnTbl : Bool) (tblEntry : Nat) :
    Except Fault DelType := do
  let row ← (t.ruleTbl expnTbl).read tblEntry
  if expnTbl then .ok (if row.nextIndex = ipaNatInvalidNatEntry then .last else .middle)
  else .ok (if row.nextIndex = ipaNatInvalidNatEntry then .onlyOne else .head)

/-- `ipa_nati_find_index_rule_pos`. -/
def ipaNatiFindIndexRulePos (t : IpaNatIp4TableCache) (tblEntry : Nat) : Except Fault DelType := do
  let row ← t.readIndx tblEntry
  if t.tableEntries ≤ tblEntry then
    .ok (if row.nextIndex = ipaNatInvalidNatEntry then .last else .middle)
  else .ok (if row.nextIndex = ipaNatInvalidNatEntry then .onlyOne else .head)

/-! ## The DMA batch -/

/-- The command that sets the next field of rule row `x`. -/
def ruleNextCmd (t : IpaNatIp4TableCache) (x data : Nat) : IpaIocNatDmaOne :=
  ⟨(t.ruleAddr x).1, ipaNatiGetEntryOffset t (t.ruleAddr x).2 + ipaNatRuleNextFieldOffset, data⟩

/-- The command that sets the next field of index row `x`. -/
def indxNextCmd (t : IpaNatIp4TableCache) (x data : Nat) : IpaIocNatDmaOne :=
  ⟨(t.indxAddr x).1,
    ipaNatiGetIndexEntryOffset t (t.indxAddr x).2 + ipaNatIndexRuleNextFieldOffset, data⟩

/-- How the rule `cur`, row `curTblEntry` of its table, is taken out: alone it is disabled, at the
    head of a chain its protocol is made invalid, and else its predecessor is linked past it. -/
def ruleDelCmd (t : IpaNatIp4TableCache) (curTblEntry : Nat) (cur : IpaNatRule) :
    DelType → IpaIocNatDmaOne
  | .onlyOne => ⟨.ipaNatBaseTbl, ipaNatiGetEntryOffset t curTblEntry + ipaNatRuleFlagFieldOffset,
      ipaNatFlagDisableBitMask⟩
  | .head => ⟨.ipaNatBaseTbl, ipaNatiGetEntryOffset t curTblEntry + ipaNatRuleProtoFieldOffset,
      ipaNatInvalidProtoFieldValue⟩
  | .middle => ruleNextCmd t cur.prevIndex cur.nextIndex
  | .last => ruleNextCmd t cur.prevIndex ipaNatInvalidNatEntry

/-- The expansion row that follows the base row `indxTblEntry`, numbered in its table. -/
def indxNextEntry (t : IpaNatIp4TableCache) (indxTblEntry : Nat) : Except Fault Nat := do
  let row ← t.indexTable.read indxTblEntry
  .ok (sub16 row.nextIndex t.tableEntries)

/-- How the index row `indxTblEntry` is taken out: alone it is emptied, at the head of a chain the
    row after it is copied over it, and else its predecessor is linked past it. -/
def indxDelCmds (t : IpaNatIp4TableCache) (indxTblEntry : Nat) :
    DelType → Except Fault (List IpaIocNatDmaOne)
  | .onlyOne => .ok [⟨.ipaNatIndxTbl,
      ipaNatiGetIndexEntryOffset t indxTblEntry + ipaNatIndexRuleNatIndexFieldOffset,
      ipaNatInvalidNatEntry⟩]
  | .head => do
      let nextEntry ← indxNextEntry t indxTblEntry
      let next ← t.indexTableExpn.read nextEntry
      .ok [⟨.ipaNatIndxTbl,
          ipaNatiGetIndexEntryOffset t indxTblEntry + ipaNatIndexRuleNatIndexFieldOffset,
          next.tblEntry⟩,
        ⟨.ipaNatIndxTbl,
          ipaNatiGetIndexEntryOffset t indxTblEntry + ipaNatIndexRuleNextFieldOffset,
          next.nextIndex⟩]
  | .middle => do
      let prevEntry ← t.indexExpnTableMeta.read (indxTblEntry - t.tableEntries)
      let row ← t.indexTableExpn.read (indxTblEntry - t.tableEntries)
      .ok [indxNextCmd t prevEntry row.nextIndex]
  | .last => do
      let prevEntry ← t.indexExpnTableMeta.read (indxTblEntry - t.tableEntries)
      .ok [indxNextCmd t prevEntry ipaNatInvalidNatEntry]

/-- The row copied over a head, from before the batch overwrites the head's next field. -/
def copiedEntry (t : IpaNatIp4TableCache) (indxTblEntry : Nat) : DelType → Except Fault Nat
  | .head => indxNextEntry t indxTblEntry
  | _ => .ok 0

def isIndxCmd (d : IpaIocNatDmaOne) : Bool :=
  d.baseAddr == .ipaNatIndxTbl || d.baseAddr == .ipaNatIndexExpnTbl

/-- `ReorderCmds`: the commands from the first one for an index table on come first. -/
def reorderCmds (cmds : List IpaIocNatDmaOne) : List IpaIocNatDmaOne :=
  let indxTblStart := cmds.findIdx isIndxCmd
  if indxTblStart = 0 ∨ indxTblStart = cmds.length then cmds
  else cmds.drop indxTblStart ++ cmds.take indxTblStart

/-! ## Tidying up -/

/-- What is left to do for the rule row: pass its predecessor on to its successor and clear it. A
    head stays, as a dead one. -/
def ruleDelUpdate (t : IpaNatIp4TableCache) (curTblEntry : Nat) (expnTbl : Bool) :
    DelType → Except Fault IpaNatIp4TableCache
  | .head => .ok t
  | .middle => do
      let cur ← (t.ruleTbl expnTbl).read curTblEntry
      let nextEntry := sub16 cur.nextIndex t.tableEntries
      let m ← t.ipv4ExpnRules.modify nextEntry fun r => { r with prevIndex := cur.prevIndex }
      let m ← m.write curTblEntry {}
      .ok { t with ipv4ExpnRules := m }
  | .onlyOne | .last =>
    if expnTbl then do
      let m ← t.ipv4ExpnRules.write curTblEntry {}
      .ok { t with ipv4ExpnRules := m }
    else do
      let m ← t.ipv4Rules.write curTblEntry {}
      .ok { t with ipv4Rules := m }

/-- `UpdateSwSpecParams` with `IPA_NAT_SW_PARAM_INDX_TBL_ENTRY_BYTE`, on rule row `x`. -/
def updateIndxTblEntry (t : IpaNatIp4TableCache) (x value : Nat) :
    Except Fault IpaNatIp4TableCache := do
  let row ← t.readRule x
  t.writeRule x { row with indxTblEntry := value }

/-- The row after a row that was copied over the head `indxTblEntry` gets that head as
    predecessor. -/
def updateNextNext (t : IpaNatIp4TableCache) (nextNextEntry indxTblEntry : Nat) :
    Except Fault IpaNatIp4TableCache :=
  if nextNextEntry ≠ 0 ∧ t.tableEntries ≤ nextNextEntry then
    t.writeMeta (nextNextEntry - t.tableEntries) indxTblEntry
  else .ok t

/-- What is left to do for the index row. Where the next row was copied over a head, that row is
    cleared, the one after it gets the head as predecessor, and the rule it named is told. -/
def indxDelUpdate (t : IpaNatIp4TableCache) (indxTblEntry nextEntry : Nat) :
    DelType → Except Fault IpaNatIp4TableCache
  | .head => do
      let row ← t.indexTableExpn.read nextEntry
      let t ← updateNextNext t row.nextIndex indxTblEntry
      let m ← t.indexTableExpn.write nextEntry {}
      let t := { t with indexTableExpn := m }
      let base ← t.indexTable.read indxTblEntry
      updateIndxTblEntry t base.tblEntry indxTblEntry
  | .middle => do
      let cur := indxTblEntry - t.tableEntries
      let row ← t.indexTableExpn.read cur
      let next :=
        if t.tableEntries ≤ row.nextIndex then row.nextIndex - t.tableEntries else row.nextIndex
      let prev ← t.indexExpnTableMeta.read cur
      let t ← t.writeMeta next prev
      let t ← t.writeMeta cur ipaNatInvalidNatEntry
      t.writeIndx indxTblEntry {}
  | .onlyOne | .last => t.writeIndx indxTblEntry {}

/-- `ipa_nati_post_del_dma_cmd`. -/
def ipaNatiPostDelDmaCmd (t : IpaNatIp4TableCache) (curTblEntry : Nat) (expnTbl : Bool)
    (rulePos : DelType) (ok : Bool) : Except Fault (IpaNatIp4TableCache × Except Errno Unit) := do
  let cur ← (t.ruleTbl expnTbl).read curTblEntry
  if cur.enable then
    let indxTblEntry := cur.indxTblEntry
    let indxRulePos ← ipaNatiFindIndexRulePos t indxTblEntry
    let indxCmds ← indxDelCmds t indxTblEntry indxRulePos
    let nextEntry ← copiedEntry t indxTblEntry indxRulePos
    let cmds := reorderCmds (ruleDelCmd t curTblEntry cur rulePos :: indxCmds)
    if ok then
      let t ← ioctlNatDma t cmds true
      let t ← ruleDelUpdate t curTblEntry expnTbl rulePos
      let t ← indxDelUpdate t indxTblEntry nextEntry indxRulePos
      .ok (t, .ok ())
    else .ok (t, .error .eio)
  else .ok (t, .error .einval)

/-- A base row that was deleted while it headed a chain, and whose chain is gone. -/
def deadHead (r : IpaNatRule) : Bool :=
  r.protocol == ipaNatInvalidProtoFieldCmp && r.nextIndex == ipaNatInvalidNatEntry

/-- The loop of `ipa_nati_del_dead_ipv4_head_nodes`, over the first `n` base rows. -/
def delDeadHeads : Nat → Region IpaNatRule → Except Fault (Region IpaNatRule)
  | 0, m => .ok m
  | n + 1, m => do
      let m ← delDeadHeads n m
      let row ← m.read n
      if deadHead row then m.write n {} else .ok m

/-- `ipa_nati_del_dead_ipv4_head_nodes`. -/
def ipaNatiDelDeadIpv4HeadNodes (t : IpaNatIp4TableCache) : Except Fault IpaNatIp4TableCache := do
  let m ← delDeadHeads t.tableEntries t.ipv4Rules
  .ok { t with ipv4Rules := m }

/-! ## The call -/

/-- `ipa_nati_del_ipv4_rule`. The handle is narrowed to 16 bits for parsing it, and not narrowed for
    clearing its slot of `rule_id_array`. -/
def ipaNatiDelIpv4Rule (t : IpaNatIp4TableCache) (ruleHdl : UInt32) (ok : Bool) :
    Except Fault (IpaNatIp4TableCache × Except Errno Unit) := do
  let (expnTbl, tblEntry) ← ipaNatiParseIpv4RuleHdl t ruleHdl.toUInt16.toNat
  if tblEntry = ipaNatInvalidNatEntry then .ok (t, .error .einval)
  else if t.valid then
    let rulePos ← ipaNatiFindRulePos t expnTbl tblEntry
    let (t, ret) ← ipaNatiPostDelDmaCmd t tblEntry expnTbl rulePos ok
    match ret with
    | .error _ => .ok (t, .error .einval)
    | .ok () =>
      let t ← ipaNatiDelDeadIpv4HeadNodes t
      let t ← t.writeRuleId (ruleHdl - 1).toNat ipaNatInvalidNatEntry
      .ok (t, .ok ())
  else .ok (t, .error .einval)

end Nx508j.Ipanat
