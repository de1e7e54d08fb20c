import Nx508j.Ipanat.DelRule

/-! # The driver's cache of tables

`struct ipa_nat_cache` and what sets a table of it up and takes it down, and the functions of
`ipa_nat_drv.c` that clients call. What the kernel answers is an argument of each call. -/

namespace Nx508j.Ipanat

open Nx508j.Lib

def ipaNatMaxIp4Tbls : Nat := 1

/-- A table slot that was never used, or was cleared by `memset`. -/
def IpaNatIp4TableCache.blank : IpaNatIp4TableCache where
  valid := false
  publicAddr := 0
  tblAddrOffset := 0
  tableEntries := 0
  expnTableEntries := 0
  ipv4Rules := Region.fill 0 {}
  ipv4ExpnRules := Region.fill 0 {}
  indexTable := Region.fill 0 {}
  indexTableExpn := Region.fill 0 {}
  indexExpnTableMeta := Region.fill 0 0
  ruleIdArray := Region.fill 0 0

/-- `struct ipa_nat_cache`; `ipaFd` is whether the device has been opened. -/
structure IpaNatCache where
  ip4Tbl : Region IpaNatIp4TableCache
  ipaFd : Bool
  tableCnt : Nat

def IpaNatCache.init : IpaNatCache where
  ip4Tbl := Region.fill ipaNatMaxIp4Tbls .blank
  ipaFd := false
  tableCnt := 0

/-! ## Table sizes -/

/-- The loop of `GetNearest2Power`. A 16-bit `num` comes down to 1 in fewer than 16 rounds. -/
def nearest2PowerLoop : Nat → Nat → Nat → Nat → Nat
  | 0, _, _, tmp => tmp
  | fuel + 1, number, num, tmp =>
    if num = 1 then (if number ≠ tmp then tmp * 2 % 65536 else tmp)
    else nearest2PowerLoop fuel number (num / 2) (tmp * 2 % 65536)

/-- `GetNearest2Power`. Past 32768 the power does not fit its 16 bits and 0 is returned. -/
def getNearest2Power (num : Nat) : Except Errno Nat :=
  if num = 0 then .error .einval
  else if num = 1 then .ok 2
  else .ok (nearest2PowerLoop 16 num num 1)

/-- `GetNearestEven`. -/
def getNearestEven (num : Nat) : Nat :=
  if num < 2 then 2 else if num % 2 ≠ 0 then num + 1 else num

/-- The sizes `ipa_nati_alloc_table` computes: 80% of the entries, at least one, up to a power of
    two, and 20% of them, up to an even number. -/
def tableSizes (numberOfEntries : UInt16) : Except Errno (Nat × Nat) := do
  let base := numberOfEntries.toNat * 8 / 10
  let tableEntries ← getNearest2Power (if base = 0 then 1 else base)
  .ok (tableEntries, getNearestEven (numberOfEntries.toNat * 2 / 10))

/-! ## Adding a table -/

/-- What the system answers while a table is added: the opening of the device, its allocation and
    the offset it is given, the two `malloc`s, the opening and mapping of its memory and what that
    holds, and the command that initialises the hardware. -/
structure AddTblEnv where
  openDev : Bool
  allocMem : Bool
  memOffset : Nat
  mallocMeta : Bool
  mallocRuleId : Bool
  openNat : Bool
  mmap : Bool
  rules : Nat → IpaNatRule
  indx : Nat → IpaNatIndxTblRule
  initCmd : Bool

/-- Everything goes well, and the memory is clear. -/
def AddTblEnv.allOk : AddTblEnv where
  openDev := true
  allocMem := true
  memOffset := 0
  mallocMeta := true
  mallocRuleId := true
  openNat := true
  mmap := true
  rules := fun _ => {}
  indx := fun _ => {}
  initCmd := true

/-- `malloc` and `memset` of an array, unless the pointer is already set. `none` is a failure. -/
def mallocArray (m : Region Nat) (n : Nat) (ok : Bool) : Option (Region Nat) :=
  if m.size = 0 then (if ok then some (Region.fill n 0) else none) else some m

/-- The part of `ipa_nati_update_cache` that fills in the slot. A failed `malloc` returns 0, which
    the caller takes for success. A failed `mmap` is not noticed, as it is not `NULL` that it
    returns: the addresses then lead nowhere. -/
def updateSlot (t : IpaNatIp4TableCache) (publicAddr : UInt32) (tblEntries expnTblEntries : Nat)
    (env : AddTblEnv) : IpaNatIp4TableCache × Except Errno Unit :=
  let t := { t with
    valid := true
    publicAddr := publicAddr
    tblAddrOffset := env.memOffset
    tableEntries := tblEntries
    expnTableEntries := expnTblEntries }
  match mallocArray t.indexExpnTableMeta expnTblEntries env.mallocMeta with
  | none => (t, .ok ())
  | some metaInfo =>
    let t := { t with indexExpnTableMeta := metaInfo }
    match mallocArray t.ruleIdArray (tblEntries + expnTblEntries) env.mallocRuleId with
    | none => (t, .ok ())
    | some ruleId =>
      let t := { t with ruleIdArray := ruleId }
      if env.openNat then
        let mapped {α : Type} (n : Nat) (mem : Nat → α) : Region α :=
          ⟨if env.mmap then n else 0, mem⟩
        ({ t with
          ipv4Rules := mapped tblEntries env.rules
          ipv4ExpnRules := mapped expnTblEntries fun x => env.rules (tblEntries + x)
          indexTable := mapped tblEntries env.indx
          indexTableExpn := mapped expnTblEntries fun x => env.indx (tblEntries + x) }, .ok ())
      else (t, .error .eio)

/-- `ipa_nati_reset_tbl`. -/
def ipaNatiResetTbl (t : IpaNatIp4TableCache) : Except Fault IpaNatIp4TableCache := do
  let rules ← t.ipv4Rules.memset t.tableEntries {}
  let expnRules ← t.ipv4ExpnRules.memset t.expnTableEntries {}
  let indx ← t.indexTable.memset t.tableEntries {}
  let indxExpn ← t.indexTableExpn.memset t.expnTableEntries {}
  .ok { t with
    ipv4Rules := rules, ipv4ExpnRules := expnRules, indexTable := indx, indexTableExpn := indxExpn }

/-- `ipa_nati_add_ipv4_tbl`, with the sizes worked out. -/
def ipaNatiAddIpv4Tbl (c : IpaNatCache) (publicAddr : UInt32) (tableEntries expnTableEntries : Nat)
    (env : AddTblEnv) : Except Fault (IpaNatCache × Except Errno Nat) :=
  if c.ipaFd = false ∧ env.openDev = false then .ok (c, .error .enomem)
  else if env.allocMem = false then .ok ({ c with ipaFd := true }, .error .enomem)
  else do
    let t ← c.ip4Tbl.read c.tableCnt
    let (t, ret) := updateSlot t publicAddr tableEntries expnTableEntries env
    match ret with
    | .error _ =>
      let m ← c.ip4Tbl.write c.tableCnt t
      .ok ({ c with ip4Tbl := m, ipaFd := true }, .error .einval)
    | .ok () =>
      let t ← ipaNatiResetTbl t
      let m ← c.ip4Tbl.write c.tableCnt t
      if env.initCmd then
        let tableCnt := (c.tableCnt + 1) % 256
        .ok ({ ip4Tbl := m, ipaFd := true, tableCnt := tableCnt }, .ok tableCnt)
      else .ok ({ c with ip4Tbl := m, ipaFd := true }, .error .einval)

/-- `ipa_nat_add_ipv4_tbl`. -/
def ipaNatAddIpv4Tbl (c : IpaNatCache) (publicAddr : UInt32) (numberOfEntries : UInt16)
    (env : AddTblEnv) : Except Fault (IpaNatCache × Except Errno Nat) :=
  if numberOfEntries = 0 then .ok (c, .error .einval)
  else
    match tableSizes numberOfEntries with
    | .error _ => .ok (c, .error .einval)
    | .ok (tableEntries, expnTableEntries) => do
        let (c, ret) ← ipaNatiAddIpv4Tbl c publicAddr tableEntries expnTableEntries env
        .ok (c, ret.mapError fun _ => .einval)

/-! ## Deleting a table -/

/-- What the system answers while a table is deleted. -/
structure DelTblEnv where
  close : Bool
  delCmd : Bool
deriving DecidableEq, Repr

/-- The slot after `munmap`: its addresses lead nowhere. -/
def IpaNatIp4TableCache.unmapped (t : IpaNatIp4TableCache) : IpaNatIp4TableCache :=
  { t with
    ipv4Rules := { t.ipv4Rules with size := 0 }
    ipv4ExpnRules := { t.ipv4ExpnRules with size := 0 }
    indexTable := { t.indexTable with size := 0 }
    indexTableExpn := { t.indexTableExpn with size := 0 } }

/-- `ipa_nat_del_ipv4_tbl` and `ipa_nati_del_ipv4_table`. The slot is cleared only once everything
    went well. -/
def ipaNatDelIpv4Tbl (c : IpaNatCache) (tblHdl : UInt32) (env : DelTblEnv) :
    Except Fault (IpaNatCache × Except Errno Nat) :=
  if tblHdl = 0 ∨ ipaNatMaxIp4Tbls < tblHdl.toNat then .ok (c, .error .einval)
  else do
    let index := (tblHdl - 1).toUInt8.toNat
    let t ← c.ip4Tbl.read index
    if t.valid then
      if env.close ∧ env.delCmd then
        let m ← c.ip4Tbl.write index .blank
        .ok ({ c with ip4Tbl := m, tableCnt := (c.tableCnt + 255) % 256 }, .ok 0)
      else
        let m ← c.ip4Tbl.write index t.unmapped
        .ok ({ c with ip4Tbl := m }, .error .einval)
    else .ok (c, .error .einval)

/-! ## Printing a table -/

/-- Run `f` on 0 to `n - 1`. -/
def forRows (n : Nat) (f : Nat → Except Fault Unit) : Except Fault Unit :=
  (List.range n).foldlM (fun _ cnt => f cnt) ()

/-- The reads of `ipa_nat_dump_ipv4_table`. The two loops over the expansion tables run one row
    further than those tables go. -/
def ipaNatDumpIpv4Table (c : IpaNatCache) (tblHdl : UInt32) : Except Fault Unit :=
  if tblHdl = 0 ∨ ipaNatMaxIp4Tbls < tblHdl.toNat then .ok ()
  else do
    let t ← c.ip4Tbl.read (tblHdl - 1).toNat
    forRows t.tableEntries fun cnt => do
      let _ ← t.ipv4Rules.read cnt
      .ok ()
    forRows (t.expnTableEntries + 1) fun cnt => do
      let _ ← t.ipv4ExpnRules.read cnt
      .ok ()
    forRows t.tableEntries fun cnt => do
      let _ ← t.indexTable.read cnt
      .ok ()
    forRows (t.expnTableEntries + 1) fun cnt => do
      let row ← t.indexTableExpn.read cnt
      if row.tblEntry ≠ 0 then
        let _ ← t.indexExpnTableMeta.read cnt
        .ok ()
      else .ok ()

/-! ## Rules -/

/-- Run a call on the table in slot `index`. -/
def IpaNatCache.onTable {α : Type} (c : IpaNatCache) (index : Nat)
    (f : IpaNatIp4TableCache → Except Fault (IpaNatIp4TableCache × α)) :
    Except Fault (IpaNatCache × α) := do
  let t ← c.ip4Tbl.read index
  let (t, a) ← f t
  let m ← c.ip4Tbl.write index t
  .ok ({ c with ip4Tbl := m }, a)

/-- What a call returns, and how the reads ended that it made to print the table. -/
structure ApiRet where
  ret : Except Errno Nat
  dump : Except Fault Unit := .ok ()

/-- The table is printed after a call that succeeded. -/
def printed (c : IpaNatCache) (tblHdl : UInt32) (ret : Except Errno Nat) : ApiRet :=
  match ret with
  | .ok v => { ret := .ok v, dump := ipaNatDumpIpv4Table c tblHdl }
  | .error e => { ret := .error e }

/-- `ipa_nat_add_ipv4_rule`. -/
def ipaNatAddIpv4Rule (c : IpaNatCache) (tblHdl : UInt32) (clntRule : IpaNatIpv4Rule)
    (dma : AddDma) : Except Fault (IpaNatCache × ApiRet) :=
  if tblHdl = 0 ∨ ipaNatMaxIp4Tbls < tblHdl.toNat then .ok (c, { ret := .error .einval })
  else do
    let (c, ret) ← c.onTable (tblHdl - 1).toNat fun t => ipaNatiAddIpv4Rule t clntRule dma
    .ok (c, printed c tblHdl (ret.mapError fun _ => .einval))

/-- `ipa_nat_del_ipv4_rule`. Its siblings also refuse a table handle that is too large. -/
def ipaNatDelIpv4Rule (c : IpaNatCache) (tblHdl ruleHdl : UInt32) (ok : Bool) :
    Except Fault (IpaNatCache × ApiRet) :=
  if tblHdl = 0 ∨ ruleHdl = 0 then .ok (c, { ret := .error .einval })
  else do
    let (c, ret) ← c.onTable (tblHdl - 1).toUInt8.toNat fun t => ipaNatiDelIpv4Rule t ruleHdl ok
    .ok (c, printed c tblHdl (ret.map fun _ => 0))

/-- `ipa_nati_query_timestamp`. It reads row 0 for a handle that stands for none. -/
def ipaNatiQueryTimestamp (t : IpaNatIp4TableCache) (ruleHdl : UInt32) :
    Except Fault (Except Errno Nat) :=
  if t.valid then do
    let (expnTbl, tblEntry) ← ipaNatiParseIpv4RuleHdl t ruleHdl.toUInt16.toNat
    let row ← (t.ruleTbl expnTbl).read tblEntry
    .ok (.ok row.timeStamp)
  else .ok (.error .einval)

/-- `ipa_nat_query_timestamp`. -/
def ipaNatQueryTimestamp (c : IpaNatCache) (tblHdl ruleHdl : UInt32) :
    Except Fault (IpaNatCache × ApiRet) :=
  if tblHdl = 0 ∨ ipaNatMaxIp4Tbls < tblHdl.toNat then .ok (c, { ret := .error .einval })
  else do
    let t ← c.ip4Tbl.read (tblHdl - 1).toUInt8.toNat
    let ret ← ipaNatiQueryTimestamp t ruleHdl
    .ok (c, { ret := ret })

end Nx508j.Ipanat
