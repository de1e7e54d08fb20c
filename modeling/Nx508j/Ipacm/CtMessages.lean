import Nx508j.Ipacm.Config
import Nx508j.Ipacm.ConntrackListener
import Nx508j.Ipacm.NatCache

/-! # Conntrack messages

`ProcessTCPorUDPMsg` makes a NAT rule of a message of the kernel and hands it to the NAT
application. A rule for a client that is not known yet, but in a private subnet, goes to the
temporary entries.

The public address of a rule is recorded only if the kernel does not say which way the connection
is translated, and in 16 bits. What was to be recorded is kept here beside the temporary entries,
with all its bits. Addresses and ports are in host order. -/

namespace Nx508j.Ipacm

open Nx508j.Lib Function

/-- `enum nf_conntrack_msg_type`. -/
inductive NfConntrackMsgType
  | unknown
  | new
  | update
  | destroy
  | error
deriving DecidableEq, Repr

/-- The attributes of a `struct nf_conntrack` that the listener asks for. -/
structure NfConntrack where
  status : UInt32
  origL4proto : UInt8
  replL4proto : UInt8
  origIpv4Src : UInt32
  origIpv4Dst : UInt32
  origPortSrc : UInt16
  origPortDst : UInt16
  replIpv4Src : UInt32
  replPortSrc : UInt16
  replPortDst : UInt16
  tcpState : UInt8
deriving DecidableEq, Repr

def ipsSrcNat : UInt32 := 0x10

def ipsDstNat : UInt32 := 0x20

def tcpConntrackEstablished : UInt8 := 3

def tcpConntrackFinWait : UInt8 := 4

/-- A message, with the private subnets of the configuration, what the driver answers if a rule is
    added or deleted, and the variable of `CacheEntry` that was never set. -/
structure CtMessage where
  ct : NfConntrack
  type : NfConntrackMsgType
  privateSubnets : List PrivateSubnet := []
  addAnswer : Option UInt32 := none
  delAnswer : Bool := false
  cnt : Int := 0

namespace ConntrackListener

def ipprotoTcp : UInt8 := 6

def ipprotoUdp : UInt8 := 17

variable (s : ConntrackListener)

/-- Whether it is the destination that is translated, and what is assigned to `rule.public_ip`. -/
def natStatus (ct : NfConntrack) : Option (Bool × UInt32) :=
  if ipsDstNat &&& ct.status ≠ 0 then some (true, 0)
  else if ipsSrcNat &&& ct.status ≠ 0 then some (false, 0)
  else if ct.origIpv4Src = 0 then none
  else if ct.origIpv4Dst = 0 then none
  else if ct.origIpv4Src = s.wanIpaddr then some (false, s.wanIpaddr)
  else if ct.origIpv4Dst = s.wanIpaddr then some (true, s.wanIpaddr)
  else none

/-- The rule of a connection. -/
def populate (ct : NfConntrack) (dstNat : Bool) (publicIp : UInt32) : NatTableEntry :=
  if dstNat then
    { protocol := ct.replL4proto
      publicIp := publicIp.toUInt16
      dstNat := true
      targetIp := ct.origIpv4Src
      targetPort := ct.origPortSrc
      publicPort := ct.origPortDst
      privateIp := ct.replIpv4Src
      privatePort := ct.replPortSrc }
  else
    { protocol := ct.replL4proto
      publicIp := publicIp.toUInt16
      dstNat := false
      targetIp := ct.origIpv4Dst
      targetPort := ct.origPortDst
      publicPort := ct.replPortDst
      privateIp := ct.origIpv4Src
      privatePort := ct.origPortSrc }

/-- The rule the listener goes on with, and whether it is a temporary entry. -/
def checkRule (privateSubnets : List PrivateSubnet) (rule : NatTableEntry) :
    Option (NatTableEntry × Bool) :=
  if rule.privateIp ≠ s.wanIpaddr then
    match findEntry s.natIfaceIpv4Addr fun a => a ≠ 0 ∧ (rule.privateIp = a ∨ rule.targetIp = a) with
    | some _ => some (rule, false)
    | none =>
      if isPrivateSubnet privateSubnets rule.privateIp.toBitVec ∨
          isPrivateSubnet privateSubnets rule.targetIp.toBitVec then
        some (rule, true)
      else none
  else if s.isStaMode then none
  else some ({ rule with privatePort := rule.publicPort }, false)

/-- What is done with the rule of a new connection. -/
def storeOp (m : CtMessage) (rule : NatTableEntry) (isTempEntry : Bool) : NatOp :=
  if s.wanUp = false then .cacheEntry rule m.cnt
  else if isTempEntry then .addTempEntry rule
  else .addEntry rule m.addAnswer

/-- What is done with the rule of a connection that has ended. -/
def removeOp (m : CtMessage) (rule : NatTableEntry) (isTempEntry : Bool) : NatOp :=
  if isTempEntry then .deleteTempEntry rule else .deleteEntry rule m.delAnswer

/-- What the NAT application is asked to do with a rule. -/
def natOp (m : CtMessage) (rule : NatTableEntry) (isTempEntry : Bool) : Option NatOp :=
  if rule.protocol = ipprotoTcp then
    if m.ct.tcpState = tcpConntrackEstablished then some (s.storeOp m rule isTempEntry)
    else if m.ct.tcpState = tcpConntrackFinWait ∨ m.type = .destroy then
      some (removeOp m rule isTempEntry)
    else none
  else if rule.protocol = ipprotoUdp then
    if m.type = .new then some (s.storeOp m rule isTempEntry)
    else if m.type = .destroy then some (removeOp m rule isTempEntry)
    else none
  else none

/-- `ProcessCTMessage` and `ProcessTCPorUDPMsg`: what the NAT application is asked to do, and what
    was assigned to the public address of the rule. -/
def processTcpOrUdpMsg (m : CtMessage) : Option (NatOp × UInt32) :=
  if m.ct.origL4proto ≠ ipprotoUdp ∧ m.ct.origL4proto ≠ ipprotoTcp then none
  else
    match s.natStatus m.ct with
    | none => none
    | some (dstNat, publicIp) =>
      match s.checkRule m.privateSubnets (populate m.ct dstNat publicIp) with
      | none => none
      | some (rule, isTempEntry) =>
        if s.staAccepts rule.targetIp then
          (s.natOp m rule isTempEntry).map fun op => (op, publicIp)
        else none

end ConntrackListener

/-! ## The temporary entries and what was to be recorded -/

/-- Where `AddTempEntry` stores a rule. -/
def NatApp.freeTemp (s : NatApp) : Option Nat :=
  (List.range s.temp.size).find? fun cnt =>
    (s.temp.get cnt).privateIp = 0 ∧ (s.temp.get cnt).targetIp = 0

/-- The listener, and the public address that was assigned to the rule in each temporary entry. -/
structure CtWorld where
  listener : ConntrackListener
  recorded : Nat → UInt32 := fun _ => 0

/-- A conntrack message, or something else that the listener or the NAT application is asked
    for. -/
inductive CtWorldEvent
  | msg (m : CtMessage)
  | other (e : CtEvent)

namespace CtWorld

def init (natInst : NatApp) (wanIpaddr : UInt32) (isStaMode : Bool) : CtWorld where
  listener := .init natInst wanIpaddr isStaMode

/-- The recorded addresses after an operation on a rule with the public address. -/
def record (w : CtWorld) (publicIp : UInt32) : NatOp → Nat → UInt32
  | .addTempEntry _ =>
    match w.listener.natInst.freeTemp with
    | some cnt => update w.recorded cnt publicIp
    | none => w.recorded
  | _ => w.recorded

def step (w : CtWorld) : CtWorldEvent → Except Fault (CtWorld × Unit)
  | .msg m =>
    match w.listener.processTcpOrUdpMsg m with
    | none => .ok (w, ())
    | some (op, publicIp) => do
        let (listener, _) ← ctStep w.listener (.nat op)
        .ok ({ listener := listener, recorded := w.record publicIp op }, ())
  | .other e => do
      let (listener, _) ← ctStep w.listener e
      .ok ({ w with listener := listener }, ())

/-- Only the listener stores temporary entries, for a message. -/
def Possible : CtWorldEvent → Prop
  | .other (.nat (.addTempEntry _)) => False
  | _ => True

end CtWorld

/-! ## What the operations do to the temporary entries -/

namespace NatApp

variable {s s' s'' : NatApp}

/-- A loop over the cache does not touch the temporary entries. -/
theorem forCache_temp {f : NatApp → Nat → NatApp} (hstep : ∀ s cnt, (f s cnt).temp = s.temp)
    (s : NatApp) : (s.forCache f).temp = s.temp :=
  forEntries_induction (fun _ b => b.temp = s.temp) rfl fun k b _ hb => (hstep b k).trans hb

@[simp] theorem restoreEntry_temp (s : NatApp) (answer : Option UInt32) (cnt : Nat) :
    (s.restoreEntry answer cnt).temp = s.temp := by
  unfold restoreEntry
  dsimp only
  split <;> rfl

@[simp] theorem disableEntry_temp (s : NatApp) (answer : Bool)
    (f : NatTableEntry → NatTableEntry) (cnt : Nat) :
    (s.disableEntry answer f cnt).temp = s.temp := by
  unfold disableEntry
  dsimp only
  split <;> rfl

theorem restoring_temp (Q : NatTableEntry → Prop) [DecidablePred Q] (s : NatApp)
    (answer : Nat → Option UInt32) : (s.forCache fun s cnt =>
      if Q (s.cache.get cnt) then s.restoreEntry (answer cnt) cnt else s).temp = s.temp := by
  refine forCache_temp (fun s cnt => ?_) s
  split <;> simp

theorem disabling_temp (Q : NatTableEntry → Prop) [DecidablePred Q] (s : NatApp)
    (answer : Nat → Bool) (f : NatTableEntry → NatTableEntry) : (s.forCache fun s cnt =>
      if Q (s.cache.get cnt) then s.disableEntry (answer cnt) f cnt else s).temp = s.temp := by
  refine forCache_temp (fun s cnt => ?_) s
  split <;> simp

theorem addTable_temp (s : NatApp) (pubIp : UInt32) (tblAnswer : Option UInt32)
    (answer : Nat → Option UInt32) : (s.addTable pubIp tblAnswer answer).1.temp = s.temp := by
  unfold addTable
  dsimp only
  split
  · dsimp only
    split
    · exact restoring_temp (·.privateIp ≠ 0) _ answer
    · rfl
  · rfl

theorem deleteTable_temp (s : NatApp) (pubIp : UInt32) (answer : Bool) :
    (s.deleteTable pubIp answer).1.temp = s.temp := by
  unfold deleteTable
  split
  · rfl
  split
  · rfl
  dsimp only
  split <;> rfl

theorem deleteEntry_temp (s : NatApp) (rule : NatTableEntry) (answer : Bool) :
    (s.deleteEntry rule answer).1.temp = s.temp := by
  unfold deleteEntry
  split <;> rfl

theorem updateUdpTimeStamp_temp (s : NatApp) (answer : Nat → Option UInt32)
    (ctUpdated : Nat → Bool) : (s.updateUdpTimeStamp answer ctUpdated).temp = s.temp := by
  refine forCache_temp (fun s cnt => ?_) s
  dsimp only
  split
  swap
  · rfl
  split
  · rfl
  split
  · rfl
  split <;> rfl

theorem updatePwrSaveIf_temp (s : NatApp) (clientLanIp : UInt32) (answer : Nat → Bool) :
    (s.updatePwrSaveIf clientLanIp answer).1.temp = s.temp := by
  unfold updatePwrSaveIf
  split
  · rfl
  split
  · rfl
  exact disabling_temp (fun e => e.privateIp = clientLanIp ∧ e.enabled = true)
    { s with pwrSaveIfs := s.pwrSaveIfs.replace 0 clientLanIp } answer _

theorem resetPwrSaveIf_temp (s : NatApp) (clientLanIp : UInt32) (answer : Nat → Option UInt32) :
    (s.resetPwrSaveIf clientLanIp answer).1.temp = s.temp := by
  unfold resetPwrSaveIf
  split
  · rfl
  exact restoring_temp (fun e => e.privateIp = clientLanIp ∧ e.enabled = false)
    { s with pwrSaveIfs := s.pwrSaveIfs.replace clientLanIp 0 } answer

theorem delEntriesOnClntDiscon_temp (s : NatApp) (ipAddr : UInt32) (answer : Nat → Bool) :
    (s.delEntriesOnClntDiscon ipAddr answer).1.temp = s.temp := by
  unfold delEntriesOnClntDiscon
  split
  · rfl
  exact disabling_temp (fun e => e.privateIp = ipAddr ∧ e.enabled = true)
    { s with pwrSaveIfs := s.pwrSaveIfs.replace ipAddr 0 } answer _

theorem delEntriesOnStaClntDiscon_temp (s : NatApp) (ipAddr : UInt32) (answer : Nat → Bool) :
    (s.delEntriesOnStaClntDiscon ipAddr answer).1.temp = s.temp := by
  unfold delEntriesOnStaClntDiscon
  split
  · rfl
  refine forCache_temp (fun s cnt => ?_) s
  dsimp only
  split
  swap
  · rfl
  split
  · split <;> rfl
  · rfl

/-- An entry is cached without a look at them. -/
theorem cacheEntry_temp {rule : NatTableEntry} {cnt : Int} (h : s.cacheEntry rule cnt = .ok s') :
    s'.temp = s.temp := by
  unfold cacheEntry at h
  split at h
  · exact Except.ok.inj h ▸ rfl
  split at h
  · exact Except.ok.inj h ▸ rfl
  split at h
  · cases h
  split at h
  · exact Except.ok.inj h ▸ rfl
  · exact Except.ok.inj h ▸ rfl

/-- A rule is in the entry. -/
def Stored (e : NatTableEntry) : Prop := e.privateIp ≠ 0 ∨ e.targetIp ≠ 0

/-- No temporary entry is changed but by clearing it. -/
def TempOnlyCleared (s s' : NatApp) : Prop :=
  ∀ cnt, s'.temp.get cnt = s.temp.get cnt ∨ s'.temp.get cnt = {}

theorem TempOnlyCleared.of_eq (h : s'.temp = s.temp) : TempOnlyCleared s s' :=
  fun cnt => Or.inl (by rw [h])

theorem TempOnlyCleared.of_set {i : Nat} (h : s'.temp = s.temp.set i {}) :
    TempOnlyCleared s s' := by
  intro cnt
  rw [h, Region.get_set]
  split
  · exact Or.inr rfl
  · exact Or.inl rfl

theorem TempOnlyCleared.trans (h : TempOnlyCleared s s') (h' : TempOnlyCleared s' s'') :
    TempOnlyCleared s s'' := by
  intro cnt
  rcases h' cnt with heq | heq
  · rw [heq]
    exact h cnt
  · exact Or.inr heq

/-- The first entry that matches is cleared. -/
theorem TempOnlyCleared.deleteTempEntry (s : NatApp) (entry : NatTableEntry) :
    TempOnlyCleared s (s.deleteTempEntry entry) := by
  unfold NatApp.deleteTempEntry
  split
  · exact .of_set rfl
  · exact .of_eq rfl

/-- Those of an address are cleared, whatever becomes of their rules. -/
theorem TempOnlyCleared.flushTempEntries (s : NatApp) (ipAddr : UInt32) (isAdd : Bool)
    (answer : Nat → Option UInt32) :
    TempOnlyCleared s (s.flushTempEntries ipAddr isAdd answer) := by
  refine forEntries_induction (fun _ b => TempOnlyCleared s b) (.of_eq rfl) fun cnt b _ hb => ?_
  refine hb.trans ?_
  dsimp only
  split
  swap
  · exact .of_eq rfl
  split
  swap
  · exact .of_set rfl
  · have hadd := addEntry_temp b (b.temp.get cnt) (answer cnt)
    split
    · exact .of_eq hadd
    · exact .of_set (congrArg (Region.set · cnt {}) hadd)

end NatApp

open NatApp

variable {s s' : NatApp} {op : NatOp} {ret : Int}

/-- Only `addTempEntry` stores a temporary entry. -/
theorem NatOp.tempOnlyCleared (h : natStep s op = .ok (s', ret))
    (hop : ∀ newEntry, op ≠ .addTempEntry newEntry) : TempOnlyCleared s s' := by
  cases op with
  | addTempEntry newEntry => exact absurd rfl (hop newEntry)
  | cacheEntry rule cnt =>
    obtain ⟨s₁, hcache, h⟩ := bind_eq_ok h
    cases h
    exact .of_eq (cacheEntry_temp hcache)
  | deleteTempEntry entry =>
    cases h
    exact .deleteTempEntry s entry
  | flushTempEntries ipAddr isAdd answer =>
    cases h
    exact .flushTempEntries s ipAddr isAdd answer
  | addTable pubIp tblAnswer answer =>
    obtain rfl := (ok_pair h).1
    exact .of_eq (addTable_temp ..)
  | deleteTable pubIp answer =>
    obtain rfl := (ok_pair h).1
    exact .of_eq (deleteTable_temp ..)
  | addEntry rule answer =>
    obtain rfl := (ok_pair h).1
    exact .of_eq (addEntry_temp ..)
  | deleteEntry rule answer =>
    obtain rfl := (ok_pair h).1
    exact .of_eq (deleteEntry_temp ..)
  | updateUdpTimeStamp answer ctUpdated =>
    cases h
    exact .of_eq (updateUdpTimeStamp_temp ..)
  | updatePwrSaveIf clientLanIp answer =>
    obtain rfl := (ok_pair h).1
    exact .of_eq (updatePwrSaveIf_temp ..)
  | resetPwrSaveIf clientLanIp answer =>
    obtain rfl := (ok_pair h).1
    exact .of_eq (resetPwrSaveIf_temp ..)
  | delEntriesOnClntDiscon ipAddr answer =>
    obtain rfl := (ok_pair h).1
    exact .of_eq (delEntriesOnClntDiscon_temp ..)
  | delEntriesOnStaClntDiscon ipAddr answer =>
    obtain rfl := (ok_pair h).1
    exact .of_eq (delEntriesOnStaClntDiscon_temp ..)

/-! ## Events of the listener -/

namespace ConntrackListener

variable {s s' : ConntrackListener} {e : CtEvent} {u : Unit}

/-- An address that is not translated clears its entries. -/
theorem cacheNonnat_tempOnlyCleared (s : ConntrackListener) (ipv4Addr : UInt32) :
    TempOnlyCleared s.natInst (s.cacheNonnat ipv4Addr).natInst := by
  unfold cacheNonnat
  split
  · exact .flushTempEntries s.natInst ipv4Addr false fun _ => none
  · exact .of_eq rfl

/-- So every other event stores none either. -/
theorem tempOnlyCleared (h : ctStep s e = .ok (s', u))
    (he : ∀ newEntry, e ≠ .nat (.addTempEntry newEntry)) :
    TempOnlyCleared s.natInst s'.natInst := by
  cases e with
  | wanUp ipv4Addr isSta tblAnswer answer =>
    cases h
    dsimp only [triggerWanUp]
    split
    · exact .of_eq rfl
    · exact .of_eq (addTable_temp ..)
  | wanDown wanAddr answer =>
    cases h
    dsimp only [triggerWanDown]
    split
    · exact .of_eq rfl
    · exact .of_eq (deleteTable_temp ..)
  | neighAdd ipv4Addr isV4 natIfaces ifrName resetAnswer flushAnswer =>
    cases h
    dsimp only [handleNeighIpAddrAddEvt]
    split
    · exact .of_eq rfl
    split
    swap
    · exact .of_eq rfl
    split
    swap
    · exact cacheNonnat_tempOnlyCleared s ipv4Addr
    split
    · split
      · exact .of_eq rfl
      · refine TempOnlyCleared.trans ?_ (.flushTempEntries _ ipv4Addr true flushAnswer)
        exact .of_eq (resetPwrSaveIf_temp ..)
    · exact cacheNonnat_tempOnlyCleared s ipv4Addr
  | neighDel ipv4Addr answer =>
    cases h
    dsimp only [handleNeighIpAddrDelEvt]
    split
    · exact .of_eq rfl
    · have hflush := TempOnlyCleared.flushTempEntries s.natInst ipv4Addr false fun _ => none
      exact hflush.trans (.of_eq (delEntriesOnClntDiscon_temp ..))
  | staAdd clntIpAddr =>
    cases h
    dsimp only [handleStaClientAddEvt]
    split
    · exact .of_eq rfl
    split
    · split <;> exact .of_eq rfl
    · exact .of_eq rfl
  | staDel clntIpAddr answer =>
    cases h
    dsimp only [handleStaClientDelEvt]
    split
    · exact .of_eq (delEntriesOnStaClntDiscon_temp ..)
    · exact .of_eq rfl
  | nat op =>
    obtain ⟨⟨natInst, ret⟩, hop, h⟩ := bind_eq_ok h
    cases h
    exact op.tempOnlyCleared hop fun newEntry heq => he newEntry (by rw [heq])

end ConntrackListener

/-! ## What is recorded -/

namespace CtWorld

variable {w w' : CtWorld} {e : CtWorldEvent} {u : Unit}

/-- **The invariant.** A rule among the temporary entries has the lower half of the public address
    that was to be recorded. -/
def Halved (w : CtWorld) : Prop :=
  ∀ cnt, Stored (w.listener.natInst.temp.get cnt) →
    (w.listener.natInst.temp.get cnt).publicIp = (w.recorded cnt).toUInt16

/-- A cleared entry is not counted. -/
theorem not_stored_default : ¬ Stored {} := by
  rintro (h | h)
  · exact h rfl
  · exact h rfl

/-- Clearing entries keeps what is said of those that stay. -/
theorem Halved.cleared (h : w.Halved) {listener : ConntrackListener}
    (hclear : TempOnlyCleared w.listener.natInst listener.natInst) :
    Halved { w with listener := listener } := by
  intro cnt hstored
  rcases hclear cnt with heq | heq
  · rw [heq] at hstored ⊢
    exact h cnt hstored
  · rw [heq] at hstored
    exact absurd hstored not_stored_default

/-- A rule keeps the lower half of the public address. -/
@[simp] theorem publicIp_populate (ct : NfConntrack) (dstNat : Bool) (publicIp : UInt32) :
    (ConntrackListener.populate ct dstNat publicIp).publicIp = publicIp.toUInt16 := by
  unfold ConntrackListener.populate
  split <;> rfl

theorem publicIp_of_checkRule {s : ConntrackListener} {privateSubnets : List PrivateSubnet}
    {rule rule' : NatTableEntry} {isTempEntry : Bool}
    (h : s.checkRule privateSubnets rule = some (rule', isTempEntry)) :
    rule'.publicIp = rule.publicIp := by
  unfold ConntrackListener.checkRule at h
  grind

theorem rule_of_natOp {s : ConntrackListener} {m : CtMessage} {rule rule' : NatTableEntry}
    {isTempEntry : Bool} (h : s.natOp m rule isTempEntry = some (.addTempEntry rule')) :
    rule' = rule := by
  unfold ConntrackListener.natOp ConntrackListener.storeOp ConntrackListener.removeOp at h
  grind

/-- What is stored for a message has the half of its public address. -/
theorem publicIp_of_processTcpOrUdpMsg {s : ConntrackListener} {m : CtMessage}
    {rule : NatTableEntry} {publicIp : UInt32}
    (h : s.processTcpOrUdpMsg m = some (.addTempEntry rule, publicIp)) :
    rule.publicIp = publicIp.toUInt16 := by
  unfold ConntrackListener.processTcpOrUdpMsg at h
  split at h
  · cases h
  split at h
  · cases h
  split at h
  · cases h
  next rule' isTempEntry hadmit =>
  split at h
  swap
  · cases h
  obtain ⟨op, hop, heq⟩ := Option.map_eq_some_iff.1 h
  cases heq
  rw [rule_of_natOp hop, publicIp_of_checkRule hadmit, publicIp_populate]

/-- The entry is stored as it was to be recorded, but for its public address. -/
theorem Halved.addTempEntry (h : w.Halved) {rule : NatTableEntry} {publicIp : UInt32}
    (hrule : rule.publicIp = publicIp.toUInt16) :
    Halved { listener := { w.listener with natInst := w.listener.natInst.addTempEntry rule }
             recorded := w.record publicIp (.addTempEntry rule) } := by
  intro cnt hstored
  unfold NatApp.addTempEntry record NatApp.freeTemp at *
  dsimp only at hstored ⊢
  split at hstored
  · next i hfree =>
    rw [hfree] at *
    dsimp only at hstored ⊢
    rw [Region.get_set, update_apply] at *
    split
    · exact hrule
    · next hne =>
      rw [if_neg hne] at hstored
      exact h cnt hstored
  · next hfull =>
    rw [hfull]
    exact h cnt hstored

/-- One event. -/
theorem Halved.step (h : w.Halved) (hpossible : Possible e) (hstep : w.step e = .ok (w', u)) :
    w'.Halved := by
  cases e with
  | other e =>
    obtain ⟨⟨listener, ⟨⟩⟩, hct, hstep⟩ := bind_eq_ok hstep
    cases hstep
    refine h.cleared (ConntrackListener.tempOnlyCleared hct ?_)
    rintro newEntry rfl
    exact hpossible
  | msg m =>
    rw [CtWorld.step] at hstep
    cases hmsg : w.listener.processTcpOrUdpMsg m with
    | none =>
      rw [hmsg] at hstep
      cases hstep
      exact h
    | some x =>
      obtain ⟨op, publicIp⟩ := x
      rw [hmsg] at hstep
      obtain ⟨⟨listener, ⟨⟩⟩, hct, hstep⟩ := bind_eq_ok hstep
      cases hstep
      by_cases hop : ∃ newEntry, op = .addTempEntry newEntry
      · obtain ⟨newEntry, rfl⟩ := hop
        cases hct
        exact h.addTempEntry (publicIp_of_processTcpOrUdpMsg hmsg)
      · have hrecord : w.record publicIp op = w.recorded := by
          unfold record
          split
          · exact absurd ⟨_, rfl⟩ hop
          · rfl
        rw [hrecord]
        refine h.cleared (ConntrackListener.tempOnlyCleared hct fun newEntry heq => ?_)
        exact hop ⟨newEntry, CtEvent.nat.inj heq⟩

end CtWorld

end Nx508j.Ipacm
