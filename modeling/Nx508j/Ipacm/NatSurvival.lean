import Nx508j.Ipacm.NatCache
import Nx508j.Ipacm.ConntrackListener

/-! # The cache outlives the table

The connections of the cache are to stay while there is no table, for the next one.
`ResetPwrSaveIf` asks the driver for rules without a look whether there is a table, takes the refusal
for that of a full one, and drops the connections. -/

namespace Nx508j.Ipacm

open Nx508j.Lib

namespace NatApp

variable {s s' s'' : NatApp}

/-! ## The table the application knows -/

/-- The handle of the application is that of the table, if it has one. -/
structure TableKnown (s : NatApp) : Prop where
  known : s.natTableHdl ≠ 0 → s.ipaNat.tbl = some s.natTableHdl
  ne_zero : s.ipaNat.tbl ≠ some 0

/-- The table and its handle are as before. -/
structure SameTable (s s' : NatApp) : Prop where
  hdl : s'.natTableHdl = s.natTableHdl
  tbl : s'.ipaNat.tbl = s.ipaNat.tbl

theorem TableKnown.same (H : s.TableKnown) (h : SameTable s s') : s'.TableKnown := by
  constructor
  · rw [h.hdl, h.tbl]
    exact H.known
  · rw [h.tbl]
    exact H.ne_zero

theorem SameTable.refl (s : NatApp) : SameTable s s := ⟨rfl, rfl⟩

theorem SameTable.trans (h : SameTable s s') (h' : SameTable s' s'') : SameTable s s'' :=
  ⟨h'.hdl.trans h.hdl, h'.tbl.trans h.tbl⟩

theorem SameTable.loop {f : NatApp → Nat → NatApp} (hstep : ∀ s cnt, SameTable s (f s cnt))
    (s : NatApp) (n : Nat) : SameTable s (s.forEntries f n) :=
  forEntries_induction (fun _ b => SameTable s b) (.refl s) fun k b _ hb => hb.trans (hstep b k)

theorem addIpv4Rule_tbl {a a' : IpaNat} {tblHdl : UInt32} {rule : Nx508j.Ipanat.IpaNatIpv4Rule}
    {answer hdl : Option UInt32} (h : a.addIpv4Rule tblHdl rule answer = (a', hdl)) :
    a'.tbl = a.tbl := by
  cases hdl with
  | none => rw [IpaNat.addIpv4Rule_none h]
  | some hdl =>
    obtain ⟨-, -, rfl⟩ := IpaNat.addIpv4Rule_some h
    rfl

theorem delIpv4Rule_tbl {a a' : IpaNat} {tblHdl ruleHdl : UInt32} {answer ok : Bool}
    (h : a.delIpv4Rule tblHdl ruleHdl answer = (a', ok)) : a'.tbl = a.tbl := by
  rcases IpaNat.delIpv4Rule_cases h with ⟨-, rfl⟩ | ⟨-, rfl⟩ <;> rfl

theorem SameTable.restoreEntry (s : NatApp) (answer : Option UInt32) (cnt : Nat) :
    SameTable s (s.restoreEntry answer cnt) := by
  unfold NatApp.restoreEntry
  dsimp only
  split
  · next hadd => exact ⟨rfl, addIpv4Rule_tbl hadd⟩
  · exact ⟨rfl, rfl⟩

theorem SameTable.disableEntry (s : NatApp) (answer : Bool) (f : NatTableEntry → NatTableEntry)
    (cnt : Nat) : SameTable s (s.disableEntry answer f cnt) := by
  unfold NatApp.disableEntry
  dsimp only
  split
  · next hdel => exact ⟨rfl, delIpv4Rule_tbl hdel⟩
  · exact .refl s

theorem SameTable.addEntry (s : NatApp) (rule : NatTableEntry) (answer : Option UInt32) :
    SameTable s (s.addEntry rule answer).1 := by
  unfold NatApp.addEntry
  split
  · exact .refl s
  split
  · exact .refl s
  split
  · exact .refl s
  split
  · exact .refl s
  split
  · exact .refl s
  split
  · exact ⟨rfl, rfl⟩
  split
  · next hadd => exact ⟨rfl, addIpv4Rule_tbl hadd⟩
  · exact .refl s

theorem SameTable.deleteEntry (s : NatApp) (rule : NatTableEntry) (answer : Bool) :
    SameTable s (s.deleteEntry rule answer).1 := by
  unfold NatApp.deleteEntry
  split
  · exact .refl s
  refine ⟨rfl, ?_⟩
  dsimp only [NatApp.clearEntry]
  split
  · exact delIpv4Rule_tbl rfl
  · rfl

theorem SameTable.updateUdpTimeStamp (s : NatApp) (answer : Nat → Option UInt32)
    (ctUpdated : Nat → Bool) : SameTable s (s.updateUdpTimeStamp answer ctUpdated) := by
  refine .loop (fun s cnt => ?_) s _
  dsimp only
  split
  swap
  · exact .refl s
  split
  · exact .refl s
  split
  · exact .refl s
  split
  · exact ⟨rfl, rfl⟩
  · exact .refl s

theorem SameTable.updatePwrSaveIf (s : NatApp) (clientLanIp : UInt32) (answer : Nat → Bool) :
    SameTable s (s.updatePwrSaveIf clientLanIp answer).1 := by
  unfold NatApp.updatePwrSaveIf
  split
  · exact .refl s
  split
  · exact .refl s
  have hlist : SameTable s { s with pwrSaveIfs := s.pwrSaveIfs.replace 0 clientLanIp } := ⟨rfl, rfl⟩
  refine hlist.trans (.loop (fun s cnt => ?_) _ _)
  split
  · exact .disableEntry s _ _ cnt
  · exact .refl s

theorem SameTable.restoring (Q : NatTableEntry → Prop) [DecidablePred Q] (s : NatApp)
    (answer : Nat → Option UInt32) : SameTable s (s.forCache fun s cnt =>
      if Q (s.cache.get cnt) then s.restoreEntry (answer cnt) cnt else s) := by
  refine .loop (fun s cnt => ?_) s _
  split
  · exact .restoreEntry s _ cnt
  · exact .refl s

theorem SameTable.resetPwrSaveIf (s : NatApp) (clientLanIp : UInt32)
    (answer : Nat → Option UInt32) : SameTable s (s.resetPwrSaveIf clientLanIp answer).1 := by
  by_cases hip : clientLanIp = invalidIpAddr
  · unfold NatApp.resetPwrSaveIf
    rw [if_pos hip]
    exact .refl s
  rw [resetPwrSaveIf_eq hip]
  have hlist : SameTable s (s.unsaved clientLanIp) := ⟨rfl, rfl⟩
  exact hlist.trans (.restoring (Parked clientLanIp) _ answer)

theorem SameTable.flushTempEntries (s : NatApp) (ipAddr : UInt32) (isAdd : Bool)
    (answer : Nat → Option UInt32) : SameTable s (s.flushTempEntries ipAddr isAdd answer) := by
  refine .loop (fun s cnt => ?_) s s.temp.size
  dsimp only
  split
  swap
  · exact .refl s
  split
  · have hadd := SameTable.addEntry s (s.temp.get cnt) (answer cnt)
    split
    · exact hadd
    · exact hadd.trans ⟨rfl, rfl⟩
  · exact ⟨rfl, rfl⟩

theorem SameTable.delEntriesOnClntDiscon (s : NatApp) (ipAddr : UInt32) (answer : Nat → Bool) :
    SameTable s (s.delEntriesOnClntDiscon ipAddr answer).1 := by
  unfold NatApp.delEntriesOnClntDiscon
  split
  · exact .refl s
  have hlist : SameTable s (s.unsaved ipAddr) := ⟨rfl, rfl⟩
  refine hlist.trans (.loop (fun s cnt => ?_) _ _)
  split
  · exact .disableEntry s _ _ cnt
  · exact .refl s

theorem SameTable.delEntriesOnStaClntDiscon (s : NatApp) (ipAddr : UInt32)
    (answer : Nat → Bool) : SameTable s (s.delEntriesOnStaClntDiscon ipAddr answer).1 := by
  unfold NatApp.delEntriesOnStaClntDiscon
  split
  · exact .refl s
  refine .loop (fun s cnt => ?_) s _
  dsimp only
  split
  swap
  · exact .refl s
  split
  · split
    · next hdel => exact ⟨rfl, delIpv4Rule_tbl hdel⟩
    · exact .refl s
  · exact ⟨rfl, rfl⟩

theorem SameTable.cacheEntry {rule : NatTableEntry} {cnt : Int}
    (h : s.cacheEntry rule cnt = .ok s') : SameTable s s' := by
  unfold NatApp.cacheEntry at h
  split at h
  · exact Except.ok.inj h ▸ .refl s
  split at h
  · exact Except.ok.inj h ▸ .refl s
  split at h
  · cases h
  split at h
  · exact Except.ok.inj h ▸ .refl s
  · exact Except.ok.inj h ▸ ⟨rfl, rfl⟩

theorem TableKnown.addTable (H : s.TableKnown) (pubIp : UInt32) (tblAnswer : Option UInt32)
    (answer : Nat → Option UInt32) : (s.addTable pubIp tblAnswer answer).1.TableKnown := by
  rcases s.addTable_cases pubIp tblAnswer answer with ⟨-, hdl, hhdl, heq⟩ | ⟨hdl, hgets, heq⟩
  · rw [heq]
    refine ⟨fun hne => ?_, H.ne_zero⟩
    rcases hhdl with rfl | rfl
    · exact absurd rfl hne
    · exact H.known hne
  · rw [heq]
    have Htable : (s.withTable hdl).TableKnown :=
      ⟨fun _ => rfl, fun h => hgets.2.1 (Option.some.inj h)⟩
    split
    · exact (Htable.same (.restoring HasClient _ answer)).same ⟨rfl, rfl⟩
    · exact Htable.same ⟨rfl, rfl⟩

theorem TableKnown.deleteTable (H : s.TableKnown) (pubIp : UInt32) (answer : Bool) :
    (s.deleteTable pubIp answer).1.TableKnown := by
  unfold NatApp.deleteTable IpaNat.delIpv4Tbl
  split
  · exact H
  split
  · exact H
  by_cases hdel : s.ipaNat.tbl = some s.natTableHdl ∧ answer = true
  · rw [if_pos hdel]
    exact ⟨fun hne => absurd rfl hne, nofun⟩
  · rw [if_neg hdel]
    exact ⟨H.known, H.ne_zero⟩

end NatApp

open NatApp

variable {s s' : NatApp} {op : NatOp} {ret : Int} {D : Nat → Prop}

theorem NatApp.TableKnown.step (H : s.TableKnown) (h : natStep s op = .ok (s', ret)) :
    s'.TableKnown := by
  have hends : Ends (fun _ => True) (natStep s op) fun r => r.1.TableKnown := by
    cases op with
    | addTable pubIp tblAnswer answer => exact H.addTable pubIp tblAnswer answer
    | deleteTable pubIp answer => exact H.deleteTable pubIp answer
    | addEntry rule answer => exact H.same (.addEntry s rule answer)
    | deleteEntry rule answer => exact H.same (.deleteEntry s rule answer)
    | updateUdpTimeStamp answer ctUpdated => exact H.same (.updateUdpTimeStamp s answer ctUpdated)
    | updatePwrSaveIf clientLanIp answer => exact H.same (.updatePwrSaveIf s clientLanIp answer)
    | resetPwrSaveIf clientLanIp answer => exact H.same (.resetPwrSaveIf s clientLanIp answer)
    | addTempEntry newEntry =>
      refine H.same ?_
      unfold NatApp.addTempEntry
      dsimp only
      split <;> exact ⟨rfl, rfl⟩
    | deleteTempEntry entry =>
      refine H.same ?_
      unfold NatApp.deleteTempEntry
      split <;> exact ⟨rfl, rfl⟩
    | flushTempEntries ipAddr isAdd answer =>
      exact H.same (.flushTempEntries s ipAddr isAdd answer)
    | delEntriesOnClntDiscon ipAddr answer => exact H.same (.delEntriesOnClntDiscon s ipAddr answer)
    | delEntriesOnStaClntDiscon ipAddr answer =>
      exact H.same (.delEntriesOnStaClntDiscon s ipAddr answer)
    | cacheEntry rule cnt =>
      have hcache : Ends (fun _ => True) (s.cacheEntry rule cnt) TableKnown := by
        cases h : s.cacheEntry rule cnt with
        | error f => trivial
        | ok s' => exact H.same (.cacheEntry h)
      exact hcache.bind fun _ _ H' => H'
  rw [h] at hends
  exact hends

/-! ## What an operation keeps -/

/-- Every connection stays in its entry, but those that `D` allows to go. -/
def NatApp.Keeps (D : Nat → Prop) (s s' : NatApp) : Prop :=
  ∀ i < s.cache.size, Occupied (s.cache.get i) → Same (s.cache.get i) (s'.cache.get i) ∨ D i

/-- The entries of the connections the operation is to delete. -/
def NatOp.Deletes (s : NatApp) : NatOp → Nat → Prop
  | .deleteEntry rule _ => fun i => (s.cache.get i).conn = rule.conn
  | .delEntriesOnClntDiscon ipAddr _ => fun i => (s.cache.get i).privateIp = ipAddr
  | .delEntriesOnStaClntDiscon ipAddr _ => fun i => (s.cache.get i).targetIp = ipAddr
  | _ => fun _ => False

/-- The table is never full: where there is one, the driver grants every rule that is asked for to
    restore an entry. -/
def NatOp.Room (s : NatApp) : NatOp → Prop
  | .addTable _ tblAnswer answer => ∀ hdl, s.Gets tblAnswer hdl → ∀ i < s.cache.size,
      HasClient (s.cache.get i) → (s.withTable hdl).Grants HasClient answer i
  | .resetPwrSaveIf clientLanIp answer => s.ipaNat.tbl = some s.natTableHdl →
      ∀ i < s.cache.size, Parked clientLanIp (s.cache.get i) →
        s.Grants (Parked clientLanIp) answer i
  | _ => True

/-- There is a table when a client leaves power save, or nothing to restore for it. -/
def NatApp.ResetReady (s : NatApp) (clientLanIp : UInt32) : Prop :=
  clientLanIp ≠ 0 → s.natTableHdl ≠ 0 ∨ ∀ i < s.cache.size, ¬ Parked clientLanIp (s.cache.get i)

def NatOp.Ready (s : NatApp) : NatOp → Prop
  | .resetPwrSaveIf clientLanIp _ => s.ResetReady clientLanIp
  | _ => True

theorem NatApp.Edits.keeps {R : Nat → Prop} {A : Conn → Prop}
    (h : Edits R A s s') (hR : ∀ i < s.cache.size, R i → D i) : Keeps D s s' :=
  fun i hi hocc => (h.lost i hi hocc).imp_right (hR i hi)

theorem NatApp.TableKnown.resetPwrSaveIf_clears (H : s.TableKnown) {clientLanIp : UInt32}
    (hip : clientLanIp ≠ 0) (hdl : s.natTableHdl = 0) (answer : Nat → Option UInt32) {i : Nat}
    (hi : i < s.cache.size) (hparked : Parked clientLanIp (s.cache.get i)) :
    (s.resetPwrSaveIf clientLanIp answer).1.cache.get i = {} := by
  rw [resetPwrSaveIf_eq hip]
  refine (restored_forCache (s.unsaved clientLanIp) (Parked clientLanIp) answer).refused i hi
    hparked ?_
  rintro ⟨htbl, -⟩
  change s.ipaNat.tbl = some s.natTableHdl at htbl
  rw [hdl] at htbl
  exact H.ne_zero htbl

theorem NatApp.TableKnown.resetPwrSaveIf_keeps (H : s.TableKnown) {clientLanIp : UInt32}
    {answer : Nat → Option UInt32} (hroom : (NatOp.resetPwrSaveIf clientLanIp answer).Room s)
    (hready : s.ResetReady clientLanIp) :
    Keeps (fun _ => False) s (s.resetPwrSaveIf clientLanIp answer).1 := by
  by_cases hip : clientLanIp = invalidIpAddr
  · unfold NatApp.resetPwrSaveIf
    rw [if_pos hip]
    exact fun i _ _ => Or.inl (.refl _)
  refine (Edits.resetPwrSaveIf s clientLanIp answer).keeps ?_
  rintro i hi ⟨hparked, hrefused⟩
  rcases hready hip with hhdl | hnone
  · exact hrefused (hroom (H.known hhdl) i hi hparked)
  · exact hnone i hi hparked

theorem NatApp.deleteEntry_keeps (s : NatApp) (rule : NatTableEntry) (answer : Bool) :
    Keeps (fun i => (s.cache.get i).conn = rule.conn) s (s.deleteEntry rule answer).1 := by
  intro i hi _
  unfold NatApp.deleteEntry
  split
  · exact Or.inl (.refl _)
  next cnt hfind =>
  by_cases hic : i = cnt
  · rw [hic]
    exact Or.inr (findConn_some hfind).2
  · refine Or.inl ?_
    dsimp only [NatApp.clearEntry]
    rw [Region.get_set, if_neg hic]
    exact .refl _

/-- **An operation loses no connection but those it is to delete** if and only if there is a table
    when it restores entries one by one. -/
theorem NatApp.TableKnown.keeps_iff (H : s.TableKnown) (h : natStep s op = .ok (s', ret))
    (hroom : op.Room s) : Keeps (op.Deletes s) s s' ↔ op.Ready s := by
  have hends : Ends (fun _ => True) (natStep s op)
      fun r => Keeps (op.Deletes s) s r.1 ↔ op.Ready s := by
    have hno : ∀ {D : Nat → Prop}, ∀ i < s.cache.size, False → D i := fun _ _ h => h.elim
    cases op with
    | addTable pubIp tblAnswer answer =>
      refine iff_of_true ((Edits.addTable s pubIp tblAnswer answer).keeps ?_) trivial
      rintro i hi ⟨-, hclient, hdl, hgets, hrefused⟩
      exact hrefused (hroom hdl hgets i hi hclient)
    | deleteTable pubIp answer =>
      exact iff_of_true ((Edits.deleteTable s pubIp answer (A := fun _ => False)).keeps hno) trivial
    | addEntry rule answer => exact iff_of_true ((Edits.addEntry s rule answer).keeps hno) trivial
    | deleteEntry rule answer => exact iff_of_true (s.deleteEntry_keeps rule answer) trivial
    | updateUdpTimeStamp answer ctUpdated =>
      exact iff_of_true ((Edits.updateUdpTimeStamp s answer ctUpdated
        (A := fun _ => False)).keeps hno) trivial
    | updatePwrSaveIf clientLanIp answer =>
      exact iff_of_true ((Edits.updatePwrSaveIf s clientLanIp answer
        (A := fun _ => False)).keeps hno) trivial
    | resetPwrSaveIf clientLanIp answer =>
      refine ⟨fun hkeeps hip => ?_, fun hready => H.resetPwrSaveIf_keeps hroom hready⟩
      by_contra hnot
      obtain ⟨hhdl, hall⟩ := not_or.1 hnot
      push Not at hall hhdl
      obtain ⟨i, hi, hparked⟩ := hall
      have hocc : Occupied (s.cache.get i) :=
        occupied_of_privateIp (by rw [hparked.1]; exact hip)
      have hsame := (hkeeps i hi hocc).resolve_right id
      rw [H.resetPwrSaveIf_clears hip hhdl answer hi hparked] at hsame
      exact hsame.occupied.2 hocc rfl
    | addTempEntry newEntry =>
      exact iff_of_true ((Edits.addTempEntry s newEntry (A := fun _ => False)).keeps hno) trivial
    | deleteTempEntry entry =>
      exact iff_of_true ((Edits.deleteTempEntry s entry (A := fun _ => False)).keeps hno) trivial
    | flushTempEntries ipAddr isAdd answer =>
      exact iff_of_true ((Edits.flushTempEntries s ipAddr isAdd answer).keeps hno) trivial
    | delEntriesOnClntDiscon ipAddr answer =>
      exact iff_of_true ((Edits.delEntriesOnClntDiscon s ipAddr answer
        (A := fun _ => False)).keeps hno) trivial
    | delEntriesOnStaClntDiscon ipAddr answer =>
      exact iff_of_true ((Edits.delEntriesOnStaClntDiscon s ipAddr answer).keeps
        fun _ _ h => h) trivial
    | cacheEntry rule cnt =>
      have hcache : Ends (fun _ => True) (s.cacheEntry rule cnt) (Keeps (fun _ => False) s) := by
        cases h : s.cacheEntry rule cnt with
        | error f => trivial
        | ok s' => exact (Edits.cacheEntry h).keeps hno
      exact hcache.bind fun _ _ hkeeps => iff_of_true hkeeps trivial
  rw [h] at hends
  exact hends

/-! ## Events -/

namespace ConntrackListener

variable {s s' : ConntrackListener}

/-- The client is behind NAT and not in the array yet. -/
def Announces (s : ConntrackListener) (ipv4Addr : UInt32) (isV4 : Bool)
    (natIfaces : Option (List IfaceName)) (ifrName : Option IfaceName) : Prop :=
  ipv4Addr ≠ 0 ∧ isV4 = true ∧ ∃ names name, natIfaces = some names ∧ ifrName = some name ∧
    name ∈ names ∧ ∃ j, findEntry s.natIfaceIpv4Addr (fun a => a = ipv4Addr ∨ a = 0) = some j ∧
      s.natIfaceIpv4Addr.get j ≠ ipv4Addr

theorem cacheNonnat_natInst (s : ConntrackListener) (ipv4Addr : UInt32) :
    (s.cacheNonnat ipv4Addr).natInst = s.natInst ∨
      (s.cacheNonnat ipv4Addr).natInst =
        s.natInst.flushTempEntries ipv4Addr false fun _ => none := by
  unfold cacheNonnat
  split
  · exact Or.inr rfl
  · exact Or.inl rfl

theorem handleNeighIpAddrAddEvt_natInst (s : ConntrackListener) (ipv4Addr : UInt32) (isV4 : Bool)
    (natIfaces : Option (List IfaceName)) (ifrName : Option IfaceName)
    (resetAnswer flushAnswer : Nat → Option UInt32) : (s.Announces ipv4Addr isV4 natIfaces ifrName ∧
        (s.handleNeighIpAddrAddEvt ipv4Addr isV4 natIfaces ifrName resetAnswer
          flushAnswer).natInst = s.announce ipv4Addr resetAnswer flushAnswer) ∨
      ¬ s.Announces ipv4Addr isV4 natIfaces ifrName ∧
        ((s.handleNeighIpAddrAddEvt ipv4Addr isV4 natIfaces ifrName resetAnswer
            flushAnswer).natInst = s.natInst ∨
          (s.handleNeighIpAddrAddEvt ipv4Addr isV4 natIfaces ifrName resetAnswer
            flushAnswer).natInst = s.natInst.flushTempEntries ipv4Addr false fun _ => none) := by
  unfold handleNeighIpAddrAddEvt
  split
  · next hip =>
    refine Or.inr ⟨?_, Or.inl rfl⟩
    rintro ⟨hne, hv4, -⟩
    rcases hip with hip | hip
    · exact hne hip
    · rw [hv4] at hip
      cases hip
  next hip =>
  split
  swap
  · next hnone =>
    refine Or.inr ⟨?_, Or.inl rfl⟩
    rintro ⟨-, -, names, name, hnames, hname, -⟩
    exact hnone names name hnames hname
  next names name =>
  split
  swap
  · next hmem =>
    refine Or.inr ⟨?_, s.cacheNonnat_natInst ipv4Addr⟩
    rintro ⟨-, -, names', name', hnames, hname, hmem', -⟩
    cases hnames
    cases hname
    exact hmem hmem'
  next hmem =>
  split
  swap
  · next hfind =>
    refine Or.inr ⟨?_, s.cacheNonnat_natInst ipv4Addr⟩
    rintro ⟨-, -, names', name', -, -, -, j, hfind', -⟩
    rw [hfind] at hfind'
    cases hfind'
  next j hfind =>
  split
  · next heq =>
    refine Or.inr ⟨?_, Or.inl rfl⟩
    rintro ⟨-, -, names', name', -, -, -, j', hfind', hne⟩
    rw [hfind] at hfind'
    cases hfind'
    exact hne heq
  · next hne =>
    obtain ⟨hip0, hv4⟩ := not_or.1 hip
    exact Or.inl ⟨⟨hip0, by simpa using hv4, names, name, rfl, rfl, hmem, j, hfind, hne⟩, rfl⟩

end ConntrackListener

open ConntrackListener

theorem NatApp.Keeps.trans {s s' s'' : NatApp} (h : Keeps D s s')
    (hsize : s'.cache.size = s.cache.size) (h' : Keeps (fun _ => False) s' s'') :
    Keeps D s s'' := by
  intro i hi hocc
  rcases h i hi hocc with hsame | hD
  · have hsame' := (h' i (by rwa [hsize]) (hsame.occupied.2 hocc)).resolve_right id
    exact Or.inl (hsame.trans hsame')
  · exact Or.inr hD

theorem NatApp.flushTempEntries_cache {s : NatApp} (hdl : s.natTableHdl = 0) (ipAddr : UInt32)
    (isAdd : Bool) (answer : Nat → Option UInt32) :
    (s.flushTempEntries ipAddr isAdd answer).cache = s.cache := by
  refine (forEntries_induction (n := s.temp.size)
    (fun _ b => b.cache = s.cache ∧ b.natTableHdl = 0) ⟨rfl, hdl⟩ ?_).1
  rintro k b _ ⟨hcache, hdl⟩
  have hadd : ∀ rule answer, b.addEntry rule answer = (b, -1) := fun _ _ => if_pos hdl
  dsimp only
  rw [hadd]
  split
  swap
  · exact ⟨hcache, hdl⟩
  split
  · split
    · exact ⟨hcache, hdl⟩
    · exact ⟨hcache, hdl⟩
  · exact ⟨hcache, hdl⟩

theorem NatApp.TableKnown.announce_iff {s : ConntrackListener} (H : s.natInst.TableKnown)
    {ipv4Addr : UInt32} {resetAnswer : Nat → Option UInt32}
    (hroom : (NatOp.resetPwrSaveIf ipv4Addr resetAnswer).Room s.natInst)
    (flushAnswer : Nat → Option UInt32) :
    Keeps (fun _ => False) s.natInst (s.announce ipv4Addr resetAnswer flushAnswer) ↔
      s.natInst.ResetReady ipv4Addr := by
  have hedits := Edits.resetPwrSaveIf s.natInst ipv4Addr resetAnswer
  constructor
  · intro hkeeps hip
    by_contra hnot
    obtain ⟨hhdl, hall⟩ := not_or.1 hnot
    push Not at hall hhdl
    obtain ⟨i, hi, hparked⟩ := hall
    have hocc : Occupied (s.natInst.cache.get i) :=
      occupied_of_privateIp (by rw [hparked.1]; exact hip)
    have hsame := (hkeeps i hi hocc).resolve_right id
    have hhdl' := (SameTable.resetPwrSaveIf s.natInst ipv4Addr resetAnswer).hdl.trans hhdl
    unfold announce at hsame
    rw [flushTempEntries_cache hhdl', H.resetPwrSaveIf_clears hip hhdl resetAnswer hi hparked]
      at hsame
    exact hsame.occupied.2 hocc rfl
  · intro hready
    exact (H.resetPwrSaveIf_keeps hroom hready).trans hedits.size
      ((Edits.flushTempEntries _ _ _ _).keeps fun _ _ h => h)

/-- The entries of the connections the event is to delete. -/
def CtEvent.Deletes (s : ConntrackListener) : CtEvent → Nat → Prop
  | .neighDel ipv4Addr _ => fun i => (s.natInst.cache.get i).privateIp = ipv4Addr
  | .staDel clntIpAddr _ => fun i => (s.natInst.cache.get i).targetIp = clntIpAddr
  | .nat op => op.Deletes s.natInst
  | _ => fun _ => False

/-- The table is never full. -/
def CtEvent.Room (s : ConntrackListener) : CtEvent → Prop
  | .wanUp ipv4Addr _ tblAnswer answer => (NatOp.addTable ipv4Addr tblAnswer answer).Room s.natInst
  | .neighAdd ipv4Addr _ _ _ resetAnswer _ =>
    (NatOp.resetPwrSaveIf ipv4Addr resetAnswer).Room s.natInst
  | .nat op => op.Room s.natInst
  | _ => True

/-- There is a table when a client leaves power save or is announced, or nothing to restore for
    it. -/
def CtEvent.Ready (s : ConntrackListener) : CtEvent → Prop
  | .neighAdd ipv4Addr isV4 natIfaces ifrName _ _ =>
    s.Announces ipv4Addr isV4 natIfaces ifrName → s.natInst.ResetReady ipv4Addr
  | .nat op => op.Ready s.natInst
  | _ => True

theorem NatApp.TableKnown.event {s s' : ConntrackListener} {e : CtEvent} {u : Unit}
    (H : s.natInst.TableKnown) (hstep : ctStep s e = .ok (s', u)) : s'.natInst.TableKnown := by
  have hflush : ∀ ipAddr, (s.natInst.flushTempEntries ipAddr false fun _ => none).TableKnown :=
    fun ipAddr => H.same (.flushTempEntries _ _ _ _)
  cases e with
  | wanUp ipv4Addr isSta tblAnswer answer =>
    cases hstep
    unfold triggerWanUp
    split
    · exact H
    · exact H.addTable ipv4Addr tblAnswer answer
  | wanDown wanAddr answer =>
    cases hstep
    unfold triggerWanDown
    split
    · exact H
    · exact H.deleteTable wanAddr answer
  | neighAdd ipv4Addr isV4 natIfaces ifrName resetAnswer flushAnswer =>
    cases hstep
    rcases s.handleNeighIpAddrAddEvt_natInst ipv4Addr isV4 natIfaces ifrName resetAnswer
      flushAnswer with ⟨-, heq⟩ | ⟨-, heq | heq⟩
    · rw [heq]
      exact (H.same (.resetPwrSaveIf _ _ _)).same (.flushTempEntries _ _ _ _)
    · rw [heq]
      exact H
    · rw [heq]
      exact hflush ipv4Addr
  | neighDel ipv4Addr answer =>
    cases hstep
    unfold handleNeighIpAddrDelEvt
    split
    · exact H
    · exact (hflush ipv4Addr).same (.delEntriesOnClntDiscon _ _ _)
  | staAdd clntIpAddr =>
    cases hstep
    unfold handleStaClientAddEvt
    split
    · exact H
    split
    · split <;> exact H
    · exact H
  | staDel clntIpAddr answer =>
    cases hstep
    unfold handleStaClientDelEvt
    split
    · exact H.same (.delEntriesOnStaClntDiscon _ _ _)
    · exact H
  | nat op =>
    obtain ⟨⟨natInst, ret⟩, hnat, hs'⟩ := bind_eq_ok hstep
    obtain rfl : { s with natInst := natInst } = s' := by simpa using hs'
    exact H.step hnat

theorem NatApp.Keeps.refl (s : NatApp) : Keeps D s s :=
  fun _ _ _ => Or.inl (.refl _)

/-- **An event loses no connection but those it is to delete** if and only if there is a table when
    it restores the entries of a client. -/
theorem NatApp.TableKnown.event_keeps_iff {s s' : ConntrackListener} {e : CtEvent} {u : Unit}
    (H : s.natInst.TableKnown) (hroom : e.Room s) (hstep : ctStep s e = .ok (s', u)) :
    Keeps (e.Deletes s) s.natInst s'.natInst ↔ e.Ready s := by
  have hflush : ∀ ipAddr answer, Keeps (fun _ => False) s.natInst
      (s.natInst.flushTempEntries ipAddr false answer) :=
    fun ipAddr answer => (Edits.flushTempEntries _ _ _ _).keeps fun _ _ h => h
  cases e with
  | wanUp ipv4Addr isSta tblAnswer answer =>
    cases hstep
    refine iff_of_true ?_ trivial
    unfold triggerWanUp
    split
    · exact .refl _
    · have hnat : natStep s.natInst (.addTable ipv4Addr tblAnswer answer) = .ok (_, _) := rfl
      exact (H.keeps_iff hnat hroom).2 trivial
  | wanDown wanAddr answer =>
    cases hstep
    refine iff_of_true ?_ trivial
    unfold triggerWanDown
    split
    · exact .refl _
    · have hnat : natStep s.natInst (.deleteTable wanAddr answer) = .ok (_, _) := rfl
      exact (H.keeps_iff hnat trivial).2 trivial
  | neighAdd ipv4Addr isV4 natIfaces ifrName resetAnswer flushAnswer =>
    cases hstep
    rcases s.handleNeighIpAddrAddEvt_natInst ipv4Addr isV4 natIfaces ifrName resetAnswer
      flushAnswer with ⟨hann, heq⟩ | ⟨hann, heq⟩
    · rw [heq]
      exact (H.announce_iff hroom flushAnswer).trans ⟨fun h _ => h, fun h => h hann⟩
    · refine iff_of_true ?_ fun h => absurd h hann
      rcases heq with heq | heq
      · rw [heq]
        exact .refl _
      · rw [heq]
        exact hflush ipv4Addr _
  | neighDel ipv4Addr answer =>
    cases hstep
    refine iff_of_true ?_ trivial
    unfold handleNeighIpAddrDelEvt
    split
    · exact .refl _
    · intro i hi hocc
      have hsize := (Edits.flushTempEntries (R := fun _ => False) s.natInst ipv4Addr false
        fun _ => none).size
      have hdel := (Edits.delEntriesOnClntDiscon (R := fun _ => False) (A := fun _ => False)
        (s.natInst.flushTempEntries ipv4Addr false fun _ => none) ipv4Addr answer).keeps
        (D := fun _ => False) fun _ _ h => h
      exact ((hflush ipv4Addr _).trans hsize hdel i hi hocc).imp_right False.elim
  | staAdd clntIpAddr =>
    cases hstep
    refine iff_of_true ?_ trivial
    unfold handleStaClientAddEvt
    split
    · exact .refl _
    split
    · split <;> exact .refl _
    · exact .refl _
  | staDel clntIpAddr answer =>
    cases hstep
    refine iff_of_true ?_ trivial
    unfold handleStaClientDelEvt
    split
    · exact (Edits.delEntriesOnStaClntDiscon _ _ _).keeps fun _ _ h => h
    · exact .refl _
  | nat op =>
    obtain ⟨⟨natInst, ret⟩, hnat, hs'⟩ := bind_eq_ok hstep
    obtain rfl : { s with natInst := natInst } = s' := by simpa using hs'
    exact H.keeps_iff hnat hroom

/-- **The cache outlives the table.** In every state of a run in which the table is never full, an
    event takes a connection out of the cache only if it is to delete it, just if there is a table
    (or nothing to restore) whenever it restores the connections of a client. -/
theorem run_keeps {maxEntries : Nat} {algPorts : List IpacmAlg} {pubIpAddrPre wanIpaddr : UInt32}
    {pwrSaveIfs : List UInt32} {isStaMode : Bool} {s : ConntrackListener}
    {tr : List (CtEvent × Unit)}
    (hrun : Run ctStep (fun s e => e.Room s)
      (.init (.init maxEntries algPorts pubIpAddrPre pwrSaveIfs) wanIpaddr isStaMode) tr s) :
    ∀ e s' u, e.Room s → ctStep s e = .ok (s', u) →
      (Keeps (e.Deletes s) s.natInst s'.natInst ↔ e.Ready s) := by
  have H : s.natInst.TableKnown := by
    refine hrun.invariant (fun _ s => s.natInst.TableKnown) ⟨fun hne => absurd rfl hne, nofun⟩ ?_
    exact fun _ _ _ _ _ H _ hstep => H.event hstep
  exact fun e s' u hroom hstep => H.event_keeps_iff hroom hstep

/-! ### An example -/

/-- The client leaves power save while there is a table. -/
theorem run_keeps_example : ∃ s tr s', Run ctStep (fun s e => e.Room s)
      (.init (.init 1 [] 0 [0]) 0 false) tr s ∧
    ctStep s (.nat (.resetPwrSaveIf webEntry.privateIp fun _ => some 1)) = .ok (s', ()) ∧
    Occupied (s.natInst.cache.get 0) ∧ Keeps (fun _ => False) s.natInst s'.natInst := by
  obtain ⟨s, hrun, hsize, hhdl, hnat, hocc⟩ : ∃ s, Run ctStep (fun s e => e.Room s)
      (.init (.init 1 [] 0 [0]) 0 false)
      [(.wanUp 7 false (some 1) fun _ => none, ()),
        (.nat (.updatePwrSaveIf webEntry.privateIp fun _ => true), ()),
        (.nat (.addEntry webEntry none), ())] s ∧
      s.natInst.cache.size = 1 ∧ s.natInst.natTableHdl = 1 ∧
      s.natInst.ipaNat = { tbl := some 1, rules := fun _ => none } ∧
      Occupied (s.natInst.cache.get 0) := by
    refine ⟨_, .cons rfl ?_ (.cons rfl trivial (.cons rfl trivial .nil)), rfl, rfl, rfl, by decide⟩
    exact fun _ _ _ _ hclient => absurd rfl hclient
  have hroom : (CtEvent.nat (.resetPwrSaveIf webEntry.privateIp fun _ => some 1)).Room s := by
    intro htbl i hi _
    rw [hsize] at hi
    obtain rfl : i = 0 := by omega
    refine ⟨htbl, 1, rfl, by decide, by rw [hnat], fun j hj => absurd hj (Nat.not_lt_zero j)⟩
  have hready : (CtEvent.nat (.resetPwrSaveIf webEntry.privateIp fun _ => some 1)).Ready s := by
    intro _
    rw [hhdl]
    exact Or.inl (by decide)
  exact ⟨s, _, _, hrun, rfl, hocc, (run_keeps hrun _ _ () hroom rfl).2 hready⟩

/-- The client leaves power save while the WAN is down, and its connection is gone. -/
theorem run_keeps_down : ¬ ∀ s tr,
    Run ctStep (fun s e => e.Room s) (.init (.init 1 [] 0 [0]) 0 false) tr s →
    ∀ e s', e.Room s → ctStep s e = .ok (s', ()) → Keeps (e.Deletes s) s.natInst s'.natInst := by
  intro hall
  obtain ⟨s, hrun, hsize, htbl, hocc, hgone⟩ : ∃ s, Run ctStep (fun s e => e.Room s)
      (.init (.init 1 [] 0 [0]) 0 false)
      [(.wanUp 7 false (some 1) fun _ => none, ()),
        (.nat (.updatePwrSaveIf webEntry.privateIp fun _ => true), ()),
        (.nat (.addEntry webEntry none), ()), (.wanDown 7 true, ())] s ∧
      s.natInst.cache.size = 1 ∧ s.natInst.ipaNat.tbl = none ∧
      Occupied (s.natInst.cache.get 0) ∧ ¬ Occupied
        ((s.natInst.resetPwrSaveIf webEntry.privateIp fun _ => some 1).1.cache.get 0) := by
    refine ⟨_, .cons rfl ?_ (.cons rfl trivial (.cons rfl trivial (.cons rfl trivial .nil))), rfl,
      rfl, by decide, by decide⟩
    exact fun _ _ _ _ hclient => absurd rfl hclient
  have hroom : (CtEvent.nat (.resetPwrSaveIf webEntry.privateIp fun _ => some 1)).Room s := by
    intro htbl'
    rw [htbl] at htbl'
    cases htbl'
  have hkeeps := hall s _ hrun _ _ hroom rfl 0 (by omega) hocc
  exact hgone ((hkeeps.resolve_right id).occupied.2 hocc)

end Nx508j.Ipacm
