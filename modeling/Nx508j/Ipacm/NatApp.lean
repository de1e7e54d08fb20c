import Nx508j.Lib.Memory
import Nx508j.Ipanat.Rule

/-! # The NAT application

`NatApp` of the connection manager keeps a cache of connections, some of which have a rule in the
NAT table of the driver. The driver is seen here as its clients see it: a table that there is or is
not, and its live rules by their handles. Every call of it takes its answer as an argument, and an
answer that the driver cannot give (a handle that is taken) counts as a refusal.

What `UpdateCTUdpTs` tells the kernel is left out, and the time-outs with it. -/

namespace Nx508j.Ipacm

open Nx508j.Lib Function
open Nx508j.Ipanat (IpaNatIpv4Rule)

def maxTempEntries : Nat := 25

def invalidIpAddr : UInt32 := 0

/-- What makes two entries the same connection. -/
structure Conn where
  privateIp : UInt32
  targetIp : UInt32
  privatePort : UInt16
  targetPort : UInt16
  protocol : UInt8
deriving DecidableEq, Repr

/-- `nat_table_entry`. -/
structure NatTableEntry where
  privateIp : UInt32 := 0
  privatePort : UInt16 := 0
  targetIp : UInt32 := 0
  targetPort : UInt16 := 0
  publicIp : UInt16 := 0
  publicPort : UInt16 := 0
  protocol : UInt8 := 0
  timestamp : UInt32 := 0
  dstNat : Bool := false
  enabled : Bool := false
  ruleHdl : UInt32 := 0
deriving DecidableEq, Repr

namespace NatTableEntry

def conn (e : NatTableEntry) : Conn :=
  ⟨e.privateIp, e.targetIp, e.privatePort, e.targetPort, e.protocol⟩

/-- A field that a connection has is missing. -/
def Incomplete (e : NatTableEntry) : Prop :=
  e.privateIp = 0 ∨ e.targetIp = 0 ∨ e.privatePort = 0 ∨ e.targetPort = 0 ∨ e.protocol = 0

instance (e : NatTableEntry) : Decidable e.Incomplete :=
  inferInstanceAs (Decidable (_ ∨ _ ∨ _ ∨ _ ∨ _))

/-- The `nat_rule` that is filled in from an entry. -/
def natRule (e : NatTableEntry) : IpaNatIpv4Rule where
  targetIp := e.targetIp
  privateIp := e.privateIp
  targetPort := e.targetPort
  privatePort := e.privatePort
  publicPort := e.publicPort
  protocol := e.protocol

end NatTableEntry

/-! ## The driver as its clients see it -/

/-- The handle of the table there is, and the live rules by theirs. -/
structure IpaNat where
  tbl : Option UInt32
  rules : UInt32 → Option IpaNatIpv4Rule

namespace IpaNat

/-- `ipa_nat_add_ipv4_tbl`, with what `table_handle` points to afterwards and whether it succeeded.
    There can be one table only. -/
def addIpv4Tbl (a : IpaNat) (numberOfEntries : UInt16) (tblHdl : UInt32) (answer : Option UInt32) :
    IpaNat × UInt32 × Bool :=
  if numberOfEntries = 0 then (a, tblHdl, false)
  else
    match a.tbl, answer with
    | none, some hdl =>
      if hdl = 0 then (a, 0, false) else ({ tbl := some hdl, rules := fun _ => none }, hdl, true)
    | _, _ => (a, 0, false)

/-- `ipa_nat_del_ipv4_tbl`, which deletes the rules of the table with it. -/
def delIpv4Tbl (a : IpaNat) (tblHdl : UInt32) (answer : Bool) : IpaNat × Bool :=
  if a.tbl = some tblHdl ∧ answer = true then ({ tbl := none, rules := fun _ => none }, true)
  else (a, false)

/-- `ipa_nat_add_ipv4_rule`: the handle of the new rule, which is not 0 and that of no other. -/
def addIpv4Rule (a : IpaNat) (tblHdl : UInt32) (rule : IpaNatIpv4Rule) (answer : Option UInt32) :
    IpaNat × Option UInt32 :=
  match answer with
  | some hdl =>
    if a.tbl = some tblHdl ∧ hdl ≠ 0 ∧ a.rules hdl = none then
      ({ a with rules := update a.rules hdl (some rule) }, some hdl)
    else (a, none)
  | none => (a, none)

/-- `ipa_nat_del_ipv4_rule`, and whether it succeeded. -/
def delIpv4Rule (a : IpaNat) (tblHdl ruleHdl : UInt32) (answer : Bool) : IpaNat × Bool :=
  if a.tbl = some tblHdl ∧ a.rules ruleHdl ≠ none ∧ answer = true then
    ({ a with rules := update a.rules ruleHdl none }, true)
  else (a, false)

end IpaNat

/-! ## The application -/

/-- `ipacm_alg`. -/
structure IpacmAlg where
  protocol : UInt8
  port : UInt16
deriving DecidableEq, Repr

/-- `class NatApp`, and the driver it uses. `max_entries` is the size of `cache`. -/
structure NatApp where
  cache : Region NatTableEntry
  temp : Region NatTableEntry
  pubIpAddr : UInt32
  pubIpAddrPre : UInt32
  natTableHdl : UInt32
  curCnt : Int
  algPorts : List IpacmAlg
  pwrSaveIfs : List UInt32
  ipaNat : IpaNat

/-- `-EINVAL`. -/
def errInval : Int := -22

namespace NatApp

variable (s : NatApp)

/-- The constructor and `Init`. They leave `pub_ip_addr_pre` and `PwrSaveIfs` as they were. -/
def init (maxEntries : Nat) (algPorts : List IpacmAlg) (pubIpAddrPre : UInt32)
    (pwrSaveIfs : List UInt32) : NatApp where
  cache := Region.fill maxEntries {}
  temp := Region.fill maxTempEntries {}
  pubIpAddr := 0
  pubIpAddrPre := pubIpAddrPre
  natTableHdl := 0
  curCnt := 0
  algPorts := algPorts
  pwrSaveIfs := pwrSaveIfs
  ipaNat := { tbl := none, rules := fun _ => none }

/-- Run `f` for every entry of the cache in turn. -/
def forCache (f : NatApp → Nat → NatApp) : NatApp := (List.range s.cache.size).foldl f s

/-- `memset` of an entry, and one entry less. -/
def clearEntry (cnt : Nat) : NatApp :=
  { s with cache := s.cache.set cnt {}, curCnt := s.curCnt - 1 }

/-- Ask the driver for a rule for entry `cnt`, and give the entry up if it refuses. -/
def restoreEntry (answer : Option UInt32) (cnt : Nat) : NatApp :=
  let e := s.cache.get cnt
  match s.ipaNat.addIpv4Rule s.natTableHdl e.natRule answer with
  | (a, some hdl) =>
    { s with ipaNat := a, cache := s.cache.set cnt { e with ruleHdl := hdl, enabled := true } }
  | (_, none) => s.clearEntry cnt

/-- `AddTable`. -/
def addTable (pubIp : UInt32) (tblAnswer : Option UInt32) (answer : Nat → Option UInt32) :
    NatApp × Int :=
  let (a, natTableHdl, ok) :=
    s.ipaNat.addIpv4Tbl (UInt16.ofNat s.cache.size) s.natTableHdl tblAnswer
  let s := { s with ipaNat := a, natTableHdl := natTableHdl }
  if ok then
    let s :=
      if pubIp = s.pubIpAddrPre then
        s.forCache fun s cnt =>
          if (s.cache.get cnt).privateIp ≠ 0 then s.restoreEntry (answer cnt) cnt else s
      else s
    ({ s with pubIpAddr := pubIp }, 0)
  else (s, errInval)

/-- `Reset`. Its loop over the cache compares `enabled` to `false`, and changes nothing. -/
def reset : NatApp := { s with natTableHdl := 0, pubIpAddr := 0 }

/-- `DeleteTable`. -/
def deleteTable (pubIp : UInt32) (answer : Bool) : NatApp × Int :=
  if s.natTableHdl = 0 then (s, -1)
  else if s.pubIpAddr ≠ pubIp then (s, -1)
  else
    let (a, ok) := s.ipaNat.delIpv4Tbl s.natTableHdl answer
    if ok then (reset { s with ipaNat := a, pubIpAddrPre := s.pubIpAddr }, 0)
    else ({ s with ipaNat := a }, errInval)

/-- The first entry from `cnt` on that holds the connection. -/
def findConn (conn : Conn) (cnt : Nat) : Option Nat :=
  (List.range' cnt (s.cache.size - cnt)).find? fun i => (s.cache.get i).conn = conn

/-- An entry with nothing in it. -/
def freeConn : Conn := ⟨0, 0, 0, 0, 0⟩

/-- `ChkForDup`. -/
def chkForDup (rule : NatTableEntry) : Bool := (s.findConn rule.conn 0).isSome

/-- `DeleteEntry`. The entry is gone even if the driver refuses to delete its rule. -/
def deleteEntry (rule : NatTableEntry) (answer : Bool) : NatApp × Int :=
  match s.findConn rule.conn 0 with
  | none => (s, 0)
  | some cnt =>
    let e := s.cache.get cnt
    let a :=
      if e.enabled then (s.ipaNat.delIpv4Rule s.natTableHdl e.ruleHdl answer).1 else s.ipaNat
    (clearEntry { s with ipaNat := a } cnt, 0)

/-- `isAlgPort`. -/
def isAlgPort (proto : UInt8) (port : UInt16) : Bool :=
  s.algPorts.any fun alg => proto = alg.protocol ∧ port = alg.port

/-- `isPwrSaveIf`. -/
def isPwrSaveIf (ipAddr : UInt32) : Bool :=
  s.pwrSaveIfs.any fun p => p ≠ 0 ∧ ipAddr = p

/-- Entry `cnt` filled in, and one entry more. -/
def fillEntry (cnt : Nat) (rule : NatTableEntry) (enabled : Bool) (ruleHdl : UInt32) : NatApp :=
  { s with
    cache := s.cache.set cnt { s.cache.get cnt with
      privateIp := rule.privateIp
      targetIp := rule.targetIp
      targetPort := rule.targetPort
      privatePort := rule.privatePort
      protocol := rule.protocol
      timestamp := 0
      publicPort := rule.publicPort
      dstNat := rule.dstNat
      enabled := enabled
      ruleHdl := ruleHdl }
    curCnt := s.curCnt + 1 }

/-- `AddEntry`. -/
def addEntry (rule : NatTableEntry) (answer : Option UInt32) : NatApp × Int :=
  if s.natTableHdl = 0 then (s, -1)
  else if s.isAlgPort rule.protocol rule.privatePort ∨ s.isAlgPort rule.protocol rule.targetPort then
    (s, -1)
  else if rule.Incomplete then (s, 0)
  else if s.chkForDup rule then (s, -1)
  else
    match s.findConn freeConn 0 with
    | none => (s, -1)
    | some cnt =>
      if s.isPwrSaveIf rule.privateIp ∨ s.isPwrSaveIf rule.targetIp then
        (s.fillEntry cnt rule false 0, 0)
      else
        match s.ipaNat.addIpv4Rule s.natTableHdl rule.natRule answer with
        | (a, some hdl) => (fillEntry { s with ipaNat := a } cnt rule true hdl, 0)
        | (_, none) => (s, -1)

/-- `UpdateUDPTimeStamp`: what the driver answers for an entry, and whether the kernel accepted
    it. -/
def updateUdpTimeStamp (answer : Nat → Option UInt32) (ctUpdated : Nat → Bool) : NatApp :=
  s.forCache fun s cnt =>
    let e := s.cache.get cnt
    if e.enabled then
      match answer cnt with
      | none => s
      | some ts =>
        if e.timestamp = ts then s
        else if ctUpdated cnt then { s with cache := s.cache.set cnt { e with timestamp := ts } }
        else s
    else s

/-- Ask the driver to delete the rule of entry `cnt`; `f` is what becomes of the entry then. -/
def disableEntry (answer : Bool) (f : NatTableEntry → NatTableEntry) (cnt : Nat) : NatApp :=
  let e := s.cache.get cnt
  match s.ipaNat.delIpv4Rule s.natTableHdl e.ruleHdl answer with
  | (a, true) => { s with ipaNat := a, cache := s.cache.set cnt (f e) }
  | (_, false) => s

/-- `UpdatePwrSaveIf`. -/
def updatePwrSaveIf (clientLanIp : UInt32) (answer : Nat → Bool) : NatApp × Int :=
  if clientLanIp = invalidIpAddr then (s, -1)
  else if clientLanIp ∈ s.pwrSaveIfs then (s, 0)
  else
    let s := { s with pwrSaveIfs := s.pwrSaveIfs.replace 0 clientLanIp }
    let s := s.forCache fun s cnt =>
      if (s.cache.get cnt).privateIp = clientLanIp ∧ (s.cache.get cnt).enabled = true then
        s.disableEntry (answer cnt) (fun e => { e with enabled := false, ruleHdl := 0 }) cnt
      else s
    (s, 0)

/-- `ResetPwrSaveIf`. -/
def resetPwrSaveIf (clientLanIp : UInt32) (answer : Nat → Option UInt32) : NatApp × Int :=
  if clientLanIp = invalidIpAddr then (s, -1)
  else
    let s := { s with pwrSaveIfs := s.pwrSaveIfs.replace clientLanIp 0 }
    let s := s.forCache fun s cnt =>
      if (s.cache.get cnt).privateIp = clientLanIp ∧ (s.cache.get cnt).enabled = false then
        s.restoreEntry (answer cnt) cnt
      else s
    (s, -1)

/-- `AddTempEntry`. -/
def addTempEntry (newEntry : NatTableEntry) : NatApp :=
  let free := (List.range s.temp.size).find? fun cnt =>
    (s.temp.get cnt).privateIp = 0 ∧ (s.temp.get cnt).targetIp = 0
  match free with
  | some cnt => { s with temp := s.temp.set cnt newEntry }
  | none => s

/-- `DeleteTempEntry`. -/
def deleteTempEntry (entry : NatTableEntry) : NatApp :=
  match (List.range s.temp.size).find? fun cnt => (s.temp.get cnt).conn = entry.conn with
  | some cnt => { s with temp := s.temp.set cnt {} }
  | none => s

/-- `FlushTempEntries`. The public address of an entry has 16 bits only. -/
def flushTempEntries (ipAddr : UInt32) (isAdd : Bool) (answer : Nat → Option UInt32) : NatApp :=
  (List.range s.temp.size).foldl (fun s cnt =>
    let e := s.temp.get cnt
    if e.privateIp = ipAddr ∨ e.targetIp = ipAddr then
      if isAdd = true ∧ e.publicIp.toUInt32 = s.pubIpAddr then
        let (s, ret) := s.addEntry e (answer cnt)
        if ret ≠ 0 then s else { s with temp := s.temp.set cnt {} }
      else { s with temp := s.temp.set cnt {} }
    else s) s

/-- `DelEntriesOnClntDiscon`. -/
def delEntriesOnClntDiscon (ipAddr : UInt32) (answer : Nat → Bool) : NatApp × Int :=
  if ipAddr = invalidIpAddr then (s, -1)
  else
    let s := { s with pwrSaveIfs := s.pwrSaveIfs.replace ipAddr 0 }
    let s := s.forCache fun s cnt =>
      if (s.cache.get cnt).privateIp = ipAddr ∧ (s.cache.get cnt).enabled = true then
        s.disableEntry (answer cnt) (fun e => { e with enabled := false }) cnt
      else s
    (s, 0)

/-- `DelEntriesOnSTAClntDiscon`. -/
def delEntriesOnStaClntDiscon (ipAddr : UInt32) (answer : Nat → Bool) : NatApp × Int :=
  if ipAddr = invalidIpAddr then (s, -1)
  else
    let s := s.forCache fun s cnt =>
      let e := s.cache.get cnt
      if e.targetIp = ipAddr then
        if e.enabled then
          match s.ipaNat.delIpv4Rule s.natTableHdl e.ruleHdl (answer cnt) with
          | (a, true) => clearEntry { s with ipaNat := a } cnt
          | (_, false) => s
        else s.clearEntry cnt
      else s
    (s, 0)

/-- `CacheEntry`. It looks for a free entry from `cnt` on, a variable that was never set. -/
def cacheEntry (rule : NatTableEntry) (cnt : Int) : Except Fault NatApp :=
  if rule.Incomplete then .ok s
  else if s.chkForDup rule then .ok s
  else if cnt < 0 ∨ (s.cache.size : Int) < cnt then .error .outOfBounds
  else
    match s.findConn freeConn cnt.toNat with
    | none => .ok s
    | some i => .ok (s.fillEntry i rule false 0)

end NatApp

/-! ## Operations -/

/-- An operation of the application, with what the driver answers to the calls it makes. Where it
    makes one for each of several entries, the answer is that for the entry. -/
inductive NatOp
  | addTable (pubIp : UInt32) (tblAnswer : Option UInt32) (answer : Nat → Option UInt32)
  | deleteTable (pubIp : UInt32) (answer : Bool)
  | addEntry (rule : NatTableEntry) (answer : Option UInt32)
  | deleteEntry (rule : NatTableEntry) (answer : Bool)
  | updateUdpTimeStamp (answer : Nat → Option UInt32) (ctUpdated : Nat → Bool)
  | updatePwrSaveIf (clientLanIp : UInt32) (answer : Nat → Bool)
  | resetPwrSaveIf (clientLanIp : UInt32) (answer : Nat → Option UInt32)
  | addTempEntry (newEntry : NatTableEntry)
  | deleteTempEntry (entry : NatTableEntry)
  | flushTempEntries (ipAddr : UInt32) (isAdd : Bool) (answer : Nat → Option UInt32)
  | delEntriesOnClntDiscon (ipAddr : UInt32) (answer : Nat → Bool)
  | delEntriesOnStaClntDiscon (ipAddr : UInt32) (answer : Nat → Bool)
  | cacheEntry (rule : NatTableEntry) (cnt : Int)

/-- An operation and what it returns, 0 where that is nothing. -/
def natStep (s : NatApp) : NatOp → Except Fault (NatApp × Int)
  | .addTable pubIp tblAnswer answer => .ok (s.addTable pubIp tblAnswer answer)
  | .deleteTable pubIp answer => .ok (s.deleteTable pubIp answer)
  | .addEntry rule answer => .ok (s.addEntry rule answer)
  | .deleteEntry rule answer => .ok (s.deleteEntry rule answer)
  | .updateUdpTimeStamp answer ctUpdated => .ok (s.updateUdpTimeStamp answer ctUpdated, 0)
  | .updatePwrSaveIf clientLanIp answer => .ok (s.updatePwrSaveIf clientLanIp answer)
  | .resetPwrSaveIf clientLanIp answer => .ok (s.resetPwrSaveIf clientLanIp answer)
  | .addTempEntry newEntry => .ok (s.addTempEntry newEntry, 0)
  | .deleteTempEntry entry => .ok (s.deleteTempEntry entry, 0)
  | .flushTempEntries ipAddr isAdd answer => .ok (s.flushTempEntries ipAddr isAdd answer, 0)
  | .delEntriesOnClntDiscon ipAddr answer => .ok (s.delEntriesOnClntDiscon ipAddr answer)
  | .delEntriesOnStaClntDiscon ipAddr answer => .ok (s.delEntriesOnStaClntDiscon ipAddr answer)
  | .cacheEntry rule cnt => do
      let s ← s.cacheEntry rule cnt
      .ok (s, 0)

end Nx508j.Ipacm
