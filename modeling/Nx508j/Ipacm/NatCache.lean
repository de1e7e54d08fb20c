import Nx508j.Ipacm.NatLoops

/-! # The connections of the cache

The cache counts its occupied entries and holds a connection once. Every operation keeps both and
loses no connection but one it is to delete, or one whose rule the driver refuses when the entries
are restored. -/

namespace Nx508j.Ipacm

open Nx508j.Lib

namespace NatApp

variable {s s' s'' : NatApp} {i : Nat} {e : NatTableEntry} {R R' : Nat → Prop} {A A' : Conn → Prop}
  {rule : NatTableEntry}

/-- An entry that holds a connection. -/
def Occupied (e : NatTableEntry) : Prop := e.conn ≠ freeConn

instance (e : NatTableEntry) : Decidable (Occupied e) := inferInstanceAs (Decidable (_ ≠ _))

/-- The entries that hold a connection. -/
def occupied (s : NatApp) : Finset Nat :=
  (Finset.range s.cache.size).filter fun i => Occupied (s.cache.get i)

/-- **The invariant.** The counter counts the occupied entries, and no two hold the same
    connection. -/
structure Counted (s : NatApp) : Prop where
  count : s.curCnt = s.occupied.card
  inj : ∀ i < s.cache.size, ∀ j < s.cache.size, Occupied (s.cache.get i) →
    (s.cache.get i).conn = (s.cache.get j).conn → i = j

/-- The two entries are for the same connection, translated the same way. -/
structure Same (e e' : NatTableEntry) : Prop where
  conn : e'.conn = e.conn
  publicPort : e'.publicPort = e.publicPort
  dstNat : e'.dstNat = e.dstNat

theorem Same.refl (e : NatTableEntry) : Same e e := ⟨rfl, rfl, rfl⟩

theorem Same.trans {e e' e'' : NatTableEntry} (h : Same e e') (h' : Same e' e'') : Same e e'' :=
  ⟨h'.conn.trans h.conn, h'.publicPort.trans h.publicPort, h'.dstNat.trans h.dstNat⟩

theorem Same.occupied {e e' : NatTableEntry} (h : Same e e') : Occupied e' ↔ Occupied e := by
  unfold Occupied
  rw [h.conn]

/-- What an operation does to the cache: it keeps the invariant, and the connections stay in their
    entries, but those that `R` allows to go and those that `A` allows to come. -/
structure Edits (R : Nat → Prop) (A : Conn → Prop) (s s' : NatApp) : Prop where
  counted : s.Counted → s'.Counted
  size : s'.cache.size = s.cache.size
  lost : ∀ i < s.cache.size, Occupied (s.cache.get i) →
    Same (s.cache.get i) (s'.cache.get i) ∨ R i
  new : ∀ i < s.cache.size, Occupied (s'.cache.get i) →
    Same (s.cache.get i) (s'.cache.get i) ∨ A (s'.cache.get i).conn

theorem Edits.trans (h : Edits R A s s') (h' : Edits R A s' s'') : Edits R A s s'' := by
  refine ⟨fun H => h'.counted (h.counted H), h'.size.trans h.size, fun i hi hocc => ?_,
    fun i hi hocc => ?_⟩
  · rcases h.lost i hi hocc with hsame | hR
    · rcases h'.lost i (by rwa [h.size]) (hsame.occupied.2 hocc) with hsame' | hR
      · exact Or.inl (hsame.trans hsame')
      · exact Or.inr hR
    · exact Or.inr hR
  · rcases h'.new i (by rwa [h.size]) hocc with hsame' | hA
    · rcases h.new i hi (hsame'.occupied.1 hocc) with hsame | hA
      · exact Or.inl (hsame.trans hsame')
      · rw [hsame'.conn]
        exact Or.inr hA
    · exact Or.inr hA

theorem Edits.imp (h : Edits R A s s') (hR : ∀ i, R i → R' i)
    (hA : ∀ c, c ≠ freeConn → A c → A' c) : Edits R' A' s s' :=
  ⟨h.counted, h.size, fun i hi hocc => (h.lost i hi hocc).imp_right (hR i),
    fun i hi hocc => (h.new i hi hocc).imp_right (hA _ hocc)⟩

/-! ## Changes to one entry -/

theorem Edits.same (hsize : s'.cache.size = s.cache.size)
    (hsame : ∀ i < s.cache.size, Same (s.cache.get i) (s'.cache.get i))
    (hcnt : s'.curCnt = s.curCnt) : Edits R A s s' := by
  refine ⟨fun H => ⟨?_, fun i hi j hj hocc heq => ?_⟩, hsize, fun i hi _ => Or.inl (hsame i hi),
    fun i hi _ => Or.inl (hsame i hi)⟩
  · have hoccupied : s'.occupied = s.occupied := by
      unfold NatApp.occupied
      rw [hsize]
      refine Finset.filter_congr fun i hi => ?_
      exact (hsame i (Finset.mem_range.1 hi)).occupied
    rw [hcnt, hoccupied, H.count]
  · rw [hsize] at hi hj
    rw [(hsame i hi).conn, (hsame j hj).conn] at heq
    exact H.inj i hi j hj ((hsame i hi).occupied.1 hocc) heq

theorem Edits.congr (hcache : s'.cache = s.cache) (hcnt : s'.curCnt = s.curCnt) : Edits R A s s' :=
  .same (by rw [hcache]) (fun i _ => by rw [hcache]; exact .refl _) hcnt

theorem Edits.setSame (hcache : s'.cache = s.cache.set i e) (he : Same (s.cache.get i) e)
    (hcnt : s'.curCnt = s.curCnt) : Edits R A s s' := by
  refine .same (by rw [hcache]; rfl) (fun j _ => ?_) hcnt
  rw [hcache, Region.get_set]
  split
  · next hji =>
    rw [hji]
    exact he
  · exact .refl _

theorem Edits.clear (hi : i < s.cache.size) (hocc : Occupied (s.cache.get i))
    (hcache : s'.cache = s.cache.set i {}) (hcnt : s'.curCnt = s.curCnt - 1) :
    Edits (fun j => j = i) A s s' := by
  have hget : ∀ j, j ≠ i → s'.cache.get j = s.cache.get j := by
    intro j hj
    rw [hcache, Region.get_set, if_neg hj]
  have hfree : ¬ Occupied (s'.cache.get i) := by
    rw [hcache, Region.get_set_self]
    decide
  have hsize : s'.cache.size = s.cache.size := by rw [hcache, Region.size_set]
  have hne : ∀ {j}, Occupied (s'.cache.get j) → j ≠ i := by
    rintro j hoccj rfl
    exact hfree hoccj
  refine ⟨fun H => ⟨?_, fun j hj k hk hoccj heq => ?_⟩, hsize, fun j hj _ => ?_,
    fun j hj hoccj => ?_⟩
  · have hoccupied : s'.occupied = s.occupied.erase i := by
      ext j
      unfold NatApp.occupied
      rw [Finset.mem_erase, Finset.mem_filter, Finset.mem_filter, hsize]
      constructor
      · rintro ⟨hj, hoccj⟩
        have hji := hne hoccj
        rw [hget j hji] at hoccj
        exact ⟨hji, hj, hoccj⟩
      · rintro ⟨hji, hj, hoccj⟩
        exact ⟨hj, by rwa [hget j hji]⟩
    have hmem : i ∈ s.occupied := by
      exact Finset.mem_filter.2 ⟨Finset.mem_range.2 hi, hocc⟩
    have hpos := Finset.card_pos.2 ⟨i, hmem⟩
    rw [hcnt, H.count, hoccupied, Finset.card_erase_of_mem hmem]
    omega
  · have hji := hne hoccj
    have hki : k ≠ i := hne (by unfold Occupied; rw [← heq]; exact hoccj)
    rw [hsize] at hj hk
    rw [hget j hji] at hoccj
    rw [hget j hji, hget k hki] at heq
    exact H.inj j hj k hk hoccj heq
  · by_cases hji : j = i
    · exact Or.inr hji
    · rw [hget j hji]
      exact Or.inl (.refl _)
  · rw [hget j (hne hoccj)]
    exact Or.inl (.refl _)

theorem Edits.fill (hi : i < s.cache.size) (hfree : ¬ Occupied (s.cache.get i))
    (hcache : s'.cache = s.cache.set i e) (hcnt : s'.curCnt = s.curCnt + 1) {conn : Conn}
    (he : e.conn = conn) (hne : conn ≠ freeConn)
    (hno : ∀ j < s.cache.size, (s.cache.get j).conn ≠ conn) : Edits R (fun c => c = conn) s s' := by
  subst he
  have hget : ∀ j, j ≠ i → s'.cache.get j = s.cache.get j := by
    intro j hj
    rw [hcache, Region.get_set, if_neg hj]
  have hgeti : s'.cache.get i = e := by rw [hcache, Region.get_set_self]
  have hsize : s'.cache.size = s.cache.size := by rw [hcache, Region.size_set]
  refine ⟨fun H => ⟨?_, fun j hj k hk hoccj heq => ?_⟩, hsize, fun j hj hoccj => ?_,
    fun j hj hoccj => ?_⟩
  · have hoccupied : s'.occupied = insert i s.occupied := by
      ext j
      unfold NatApp.occupied
      rw [Finset.mem_insert, Finset.mem_filter, Finset.mem_filter, hsize]
      by_cases hji : j = i
      · subst hji
        rw [hgeti]
        exact iff_of_true ⟨Finset.mem_range.2 hi, hne⟩ (Or.inl rfl)
      · rw [hget j hji, or_iff_right hji]
    have hmem : i ∉ s.occupied := by
      exact fun h => hfree (Finset.mem_filter.1 h).2
    rw [hcnt, H.count, hoccupied, Finset.card_insert_of_notMem hmem]
    omega
  · rw [hsize] at hj hk
    by_cases hji : j = i
    · by_cases hki : k = i
      · rw [hji, hki]
      · rw [hji, hgeti, hget k hki] at heq
        exact absurd heq.symm (hno k hk)
    · rw [hget j hji] at hoccj heq
      by_cases hki : k = i
      · rw [hki, hgeti] at heq
        exact absurd heq (hno j hj)
      · rw [hget k hki] at heq
        exact H.inj j hj k hk hoccj heq
  · have hji : j ≠ i := by
      rintro rfl
      exact hfree hoccj
    rw [hget j hji]
    exact Or.inl (.refl _)
  · by_cases hji : j = i
    · rw [hji, hgeti]
      exact Or.inr rfl
    · rw [hget j hji]
      exact Or.inl (.refl _)

/-! ## The operations -/

theorem findConn_none {conn : Conn} (h : s.findConn conn 0 = none) :
    ∀ j < s.cache.size, (s.cache.get j).conn ≠ conn := by
  intro j hj heq
  have hnone := List.find?_eq_none.1 h j (List.mem_range'_1.2 ⟨by omega, by omega⟩)
  exact hnone (by simpa using heq)

theorem occupied_of_privateIp (h : e.privateIp ≠ 0) : Occupied e :=
  fun hfree => h (congrArg Conn.privateIp hfree)

theorem occupied_of_targetIp (h : e.targetIp ≠ 0) : Occupied e :=
  fun hfree => h (congrArg Conn.targetIp hfree)

theorem occupied_of_protocol (h : e.protocol ≠ 0) : Occupied e :=
  fun hfree => h (congrArg Conn.protocol hfree)

theorem Edits.clearEntry (hi : i < s.cache.size) (hocc : Occupied (s.cache.get i)) :
    Edits (fun j => j = i) A s (s.clearEntry i) :=
  .clear hi hocc rfl rfl

theorem Edits.fillEntry {enabled : Bool} {hdl : UInt32} {n : Nat}
    (hfree : s.findConn freeConn n = some i) (hcomplete : ¬ rule.Incomplete)
    (hdup : ¬ s.chkForDup rule = true) :
    Edits R (fun c => c = rule.conn) s (s.fillEntry i rule enabled hdl) := by
  obtain ⟨hi, hconn⟩ := findConn_some hfree
  have hno : s.findConn rule.conn 0 = none := by simpa [chkForDup] using hdup
  obtain ⟨e, hcache, he⟩ : ∃ e, (s.fillEntry i rule enabled hdl).cache = s.cache.set i e ∧
      e.conn = rule.conn := ⟨_, rfl, rfl⟩
  refine .fill hi (not_not.2 hconn) hcache rfl he ?_ (findConn_none hno)
  exact occupied_of_privateIp fun h => hcomplete (Or.inl h)

theorem Edits.addEntry (s : NatApp) (rule : NatTableEntry) (answer : Option UInt32) :
    Edits R (fun c => c = rule.conn) s (s.addEntry rule answer).1 := by
  have hrefl : Edits R (fun c => c = rule.conn) s s := .congr rfl rfl
  unfold NatApp.addEntry
  split
  · exact hrefl
  split
  · exact hrefl
  split
  · exact hrefl
  next hcomplete =>
  split
  · exact hrefl
  next hdup =>
  split
  · exact hrefl
  next cnt hfree =>
  split
  · exact .fillEntry hfree hcomplete hdup
  · split
    · next a hdl hadd =>
      -- the driver's answer does not matter to the cache
      have ha : Edits R (fun c => c = rule.conn) s { s with ipaNat := a } := .congr rfl rfl
      exact ha.trans (.fillEntry hfree hcomplete hdup)
    · exact hrefl

theorem addEntry_temp (s : NatApp) (rule : NatTableEntry) (answer : Option UInt32) :
    (s.addEntry rule answer).1.temp = s.temp := by
  unfold NatApp.addEntry
  split <;> try rfl
  split <;> try rfl
  split <;> try rfl
  split <;> try rfl
  split <;> try rfl
  split
  · rfl
  · split <;> rfl

theorem Edits.deleteEntry (s : NatApp) (hproto : rule.protocol ≠ 0) (answer : Bool) :
    Edits (fun i => (s.cache.get i).conn = rule.conn) A s (s.deleteEntry rule answer).1 := by
  unfold NatApp.deleteEntry
  split
  · exact .congr rfl rfl
  next cnt hfind =>
  obtain ⟨hcnt, hconn⟩ := findConn_some hfind
  have hocc : Occupied (s.cache.get cnt) := by
    unfold Occupied
    rw [hconn]
    exact occupied_of_protocol hproto
  have hclear : Edits (fun j => j = cnt) A s (NatApp.clearEntry { s with ipaNat :=
      if (s.cache.get cnt).enabled = true then
        (s.ipaNat.delIpv4Rule s.natTableHdl (s.cache.get cnt).ruleHdl answer).1
      else s.ipaNat } cnt) := .clear hcnt hocc rfl rfl
  refine hclear.imp ?_ fun _ _ h => h
  rintro j rfl
  exact hconn

theorem Edits.disableEntry {f : NatTableEntry → NatTableEntry} (answer : Bool)
    (hf : ∀ e, Same e (f e)) (cnt : Nat) : Edits R A s (s.disableEntry answer f cnt) := by
  unfold NatApp.disableEntry
  dsimp only
  split
  · exact .setSame rfl (hf _) rfl
  · exact .congr rfl rfl

/-- **The rule for a loop over the cache**, each step of which may lose the entry it is at. -/
theorem Edits.forCache {f : NatApp → Nat → NatApp}
    (hstep : ∀ k b, k < s.cache.size → k < b.cache.size → Edits R A s b → Edits R A b (f b k)) :
    Edits R A s (s.forCache f) := by
  refine forEntries_induction (fun _ b => Edits R A s b) (.congr rfl rfl) fun k b hk hb => ?_
  exact hb.trans (hstep k b hk (by rw [hb.size]; exact hk) hb)

theorem Edits.updateUdpTimeStamp (s : NatApp) (answer : Nat → Option UInt32)
    (ctUpdated : Nat → Bool) : Edits R A s (s.updateUdpTimeStamp answer ctUpdated) := by
  refine .forCache fun k b _ _ _ => ?_
  dsimp only
  split
  swap
  · exact .congr rfl rfl
  split
  · exact .congr rfl rfl
  split
  · exact .congr rfl rfl
  split
  · exact .setSame rfl ⟨rfl, rfl, rfl⟩ rfl
  · exact .congr rfl rfl

theorem Edits.updatePwrSaveIf (s : NatApp) (clientLanIp : UInt32) (answer : Nat → Bool) :
    Edits R A s (s.updatePwrSaveIf clientLanIp answer).1 := by
  unfold NatApp.updatePwrSaveIf
  split
  · exact .congr rfl rfl
  split
  · exact .congr rfl rfl
  have hlist : Edits R A s { s with pwrSaveIfs := s.pwrSaveIfs.replace 0 clientLanIp } :=
    .congr rfl rfl
  refine hlist.trans (.forCache fun k b _ _ _ => ?_)
  split
  · refine .disableEntry _ ?_ k
    exact fun _ => ⟨rfl, rfl, rfl⟩
  · exact .congr rfl rfl

theorem Edits.delEntriesOnClntDiscon (s : NatApp) (ipAddr : UInt32) (answer : Nat → Bool) :
    Edits R A s (s.delEntriesOnClntDiscon ipAddr answer).1 := by
  unfold NatApp.delEntriesOnClntDiscon
  split
  · exact .congr rfl rfl
  have hlist : Edits R A s { s with pwrSaveIfs := s.pwrSaveIfs.replace ipAddr 0 } := .congr rfl rfl
  refine hlist.trans (.forCache fun k b _ _ _ => ?_)
  split
  · refine .disableEntry _ ?_ k
    exact fun _ => ⟨rfl, rfl, rfl⟩
  · exact .congr rfl rfl

theorem Edits.delEntriesOnStaClntDiscon (s : NatApp) (ipAddr : UInt32) (answer : Nat → Bool) :
    Edits (fun i => (s.cache.get i).targetIp = ipAddr) (fun _ => False) s
      (s.delEntriesOnStaClntDiscon ipAddr answer).1 := by
  unfold NatApp.delEntriesOnStaClntDiscon
  split
  · exact .congr rfl rfl
  next hip =>
  have hclear : ∀ k b, k < s.cache.size → k < b.cache.size →
      Edits (fun i => (s.cache.get i).targetIp = ipAddr) (fun _ => False) s b →
      (b.cache.get k).targetIp = ipAddr → ∀ a,
      Edits (fun i => (s.cache.get i).targetIp = ipAddr) (fun _ => False) b
        (NatApp.clearEntry { b with ipaNat := a } k) := by
    intro k b hk hkb hb htarget a
    have hocc : Occupied (b.cache.get k) :=
      occupied_of_targetIp (by rw [htarget]; exact hip)
    have hsame : Same (s.cache.get k) (b.cache.get k) := (hb.new k hk hocc).resolve_right id
    refine (Edits.clear hkb hocc rfl rfl).imp ?_ fun _ _ h => h
    rintro j rfl
    exact (congrArg Conn.targetIp hsame.conn).symm.trans htarget
  refine .forCache fun k b hk hkb hb => ?_
  dsimp only
  split
  swap
  · exact .congr rfl rfl
  next htarget =>
  split
  · split
    · exact hclear k b hk hkb hb htarget _
    · exact .congr rfl rfl
  · exact hclear k b hk hkb hb htarget b.ipaNat

theorem Edits.restoring {Q : NatTableEntry → Prop} [DecidablePred Q] (hQ : ∀ e, Q e → Occupied e)
    (s : NatApp) (answer : Nat → Option UInt32) :
    Edits (fun i => Q (s.cache.get i) ∧ ¬ s.Grants Q answer i) (fun _ => False) s
      (s.forCache fun s cnt =>
        if Q (s.cache.get cnt) then s.restoreEntry (answer cnt) cnt else s) := by
  have hloop : Edits (fun _ => True) (fun _ => False) s (s.forCache fun s cnt =>
      if Q (s.cache.get cnt) then s.restoreEntry (answer cnt) cnt else s) := by
    refine .forCache fun k b _ hk _ => ?_
    split
    swap
    · exact .congr rfl rfl
    next hQk =>
    unfold NatApp.restoreEntry
    dsimp only
    split
    · exact .setSame rfl ⟨rfl, rfl, rfl⟩ rfl
    · exact (Edits.clearEntry hk (hQ _ hQk)).imp (fun _ _ => trivial) fun _ _ h => h
  have h := s.restored_forCache Q answer
  refine ⟨hloop.counted, h.size, fun i hi _ => ?_, hloop.new⟩
  by_cases hQi : Q (s.cache.get i)
  · by_cases hg : s.Grants Q answer i
    · obtain ⟨hdl, hget⟩ := h.granted i hi hQi hg
      rw [hget]
      exact Or.inl ⟨rfl, rfl, rfl⟩
    · exact Or.inr ⟨hQi, hg⟩
  · rw [h.other i (Or.inr hQi)]
    exact Or.inl (.refl _)

/-- An entry that `ResetPwrSaveIf` enables again. -/
def Parked (clientLanIp : UInt32) (e : NatTableEntry) : Prop :=
  e.privateIp = clientLanIp ∧ e.enabled = false

instance (clientLanIp : UInt32) : DecidablePred (Parked clientLanIp) :=
  fun _ => inferInstanceAs (Decidable (_ ∧ _))

/-- The application without a client in its power-save list. -/
def unsaved (s : NatApp) (clientLanIp : UInt32) : NatApp :=
  { s with pwrSaveIfs := s.pwrSaveIfs.replace clientLanIp 0 }

theorem resetPwrSaveIf_eq {clientLanIp : UInt32} (hip : clientLanIp ≠ invalidIpAddr)
    (s : NatApp) (answer : Nat → Option UInt32) : (s.resetPwrSaveIf clientLanIp answer).1 =
      (s.unsaved clientLanIp).forCache fun s cnt =>
        if Parked clientLanIp (s.cache.get cnt) then s.restoreEntry (answer cnt) cnt else s := by
  unfold NatApp.resetPwrSaveIf
  rw [if_neg hip]
  rfl

theorem Edits.resetPwrSaveIf (s : NatApp) (clientLanIp : UInt32) (answer : Nat → Option UInt32) :
    Edits (fun i => Parked clientLanIp (s.cache.get i) ∧ ¬ s.Grants (Parked clientLanIp) answer i)
      (fun _ => False) s (s.resetPwrSaveIf clientLanIp answer).1 := by
  by_cases hip : clientLanIp = invalidIpAddr
  · unfold NatApp.resetPwrSaveIf
    rw [if_pos hip]
    exact .congr rfl rfl
  rw [resetPwrSaveIf_eq hip]
  have hlist : ∀ R, Edits R (fun _ => False) s (s.unsaved clientLanIp) := fun R => .congr rfl rfl
  have hocc : ∀ e, Parked clientLanIp e → Occupied e :=
    fun e he => occupied_of_privateIp (by rw [he.1]; exact hip)
  exact (hlist _).trans (.restoring hocc (s.unsaved clientLanIp) answer)

/-- An entry that `AddTable` puts into the new table. -/
def HasClient (e : NatTableEntry) : Prop := e.privateIp ≠ 0

instance : DecidablePred HasClient := fun _ => inferInstanceAs (Decidable (_ ≠ _))

/-- The application with a table that is new and empty. -/
def withTable (s : NatApp) (hdl : UInt32) : NatApp :=
  { s with ipaNat := { tbl := some hdl, rules := fun _ => none }, natTableHdl := hdl }

/-- `AddTable` gets a table from the driver. -/
def Gets (s : NatApp) (tblAnswer : Option UInt32) (hdl : UInt32) : Prop :=
  tblAnswer = some hdl ∧ hdl ≠ 0 ∧ s.ipaNat.tbl = none ∧ UInt16.ofNat s.cache.size ≠ 0

/-- `AddTable` fails, or gets a table and puts the entries into it if the address is that of the
    table before. -/
theorem addTable_cases (s : NatApp) (pubIp : UInt32) (tblAnswer : Option UInt32)
    (answer : Nat → Option UInt32) :
    ((∀ hdl, ¬ s.Gets tblAnswer hdl) ∧
        ∃ hdl, (hdl = 0 ∨ hdl = s.natTableHdl) ∧
          (s.addTable pubIp tblAnswer answer).1 = { s with natTableHdl := hdl }) ∨
      ∃ hdl, s.Gets tblAnswer hdl ∧ (s.addTable pubIp tblAnswer answer).1 =
          { (if pubIp = s.pubIpAddrPre then
              (s.withTable hdl).forCache fun s cnt =>
                if HasClient (s.cache.get cnt) then s.restoreEntry (answer cnt) cnt else s
            else s.withTable hdl) with pubIpAddr := pubIp } := by
  unfold NatApp.addTable IpaNat.addIpv4Tbl
  by_cases hsize : UInt16.ofNat s.cache.size = 0
  · rw [if_pos hsize]
    exact Or.inl ⟨fun hdl h => h.2.2.2 hsize, _, Or.inr rfl, rfl⟩
  rw [if_neg hsize]
  cases htbl : s.ipaNat.tbl with
  | some _ =>
    refine Or.inl ⟨fun hdl h => ?_, _, Or.inl rfl, rfl⟩
    rw [h.2.2.1] at htbl
    cases htbl
  | none =>
    cases tblAnswer with
    | none => exact Or.inl ⟨fun hdl h => Option.some_ne_none _ h.1.symm, _, Or.inl rfl, rfl⟩
    | some hdl =>
      dsimp only
      by_cases hdl0 : hdl = 0
      · rw [if_pos hdl0]
        refine Or.inl ⟨fun hdl' h => h.2.1 ?_, _, Or.inl rfl, rfl⟩
        rw [← Option.some.inj h.1, hdl0]
      · rw [if_neg hdl0]
        exact Or.inr ⟨hdl, ⟨rfl, hdl0, htbl, hsize⟩, rfl⟩

/-- The entries whose rule is refused when `AddTable` puts the entries into the new table. -/
def Dropped (s : NatApp) (pubIp : UInt32) (tblAnswer : Option UInt32)
    (answer : Nat → Option UInt32) (i : Nat) : Prop :=
  pubIp = s.pubIpAddrPre ∧ HasClient (s.cache.get i) ∧ ∃ hdl, s.Gets tblAnswer hdl ∧
    ¬ (s.withTable hdl).Grants HasClient answer i

theorem Edits.addTable (s : NatApp) (pubIp : UInt32) (tblAnswer : Option UInt32)
    (answer : Nat → Option UInt32) : Edits (s.Dropped pubIp tblAnswer answer) (fun _ => False) s
      (s.addTable pubIp tblAnswer answer).1 := by
  rcases s.addTable_cases pubIp tblAnswer answer with ⟨-, hdl, -, heq⟩ | ⟨hdl, hgets, heq⟩
  · rw [heq]
    exact .congr rfl rfl
  rw [heq]
  have htable : ∀ R, Edits R (fun _ => False) s (s.withTable hdl) := fun R => .congr rfl rfl
  split
  · next hpub =>
    have hrest := Edits.restoring (fun _ => occupied_of_privateIp) (s.withTable hdl) answer
      (Q := HasClient)
    refine ((htable _).trans (hrest.imp ?_ fun _ _ h => h)).trans (.congr rfl rfl)
    exact fun i hi => ⟨hpub, hi.1, hdl, hgets, hi.2⟩
  · exact (htable _).trans (.congr rfl rfl)

theorem Edits.flushTempEntries (s : NatApp) (ipAddr : UInt32) (isAdd : Bool)
    (answer : Nat → Option UInt32) :
    Edits R (fun c => isAdd = true ∧ (c.privateIp = ipAddr ∨ c.targetIp = ipAddr) ∧
      ∃ k < s.temp.size, (s.temp.get k).conn = c) s (s.flushTempEntries ipAddr isAdd answer) := by
  -- the temporary entries are as they were, or cleared
  refine (forEntries_induction (n := s.temp.size) (fun _ b =>
    Edits R (fun c => isAdd = true ∧ (c.privateIp = ipAddr ∨ c.targetIp = ipAddr) ∧
      ∃ k < s.temp.size, (s.temp.get k).conn = c) s b ∧
      ∀ j, b.temp.get j = s.temp.get j ∨ b.temp.get j = {})
    ⟨.congr rfl rfl, fun _ => Or.inl rfl⟩ ?_).1
  rintro k b hk ⟨hb, htemp⟩
  have hcleared : ∀ b' : NatApp, b'.temp = b.temp →
      ∀ j, (b'.temp.set k {}).get j = s.temp.get j ∨ (b'.temp.set k {}).get j = {} := by
    intro b' hb' j
    rw [Region.get_set, hb']
    split
    · exact Or.inr rfl
    · exact htemp j
  dsimp only
  split
  swap
  · exact ⟨hb, htemp⟩
  next hip =>
  split
  swap
  · exact ⟨hb.trans (.congr rfl rfl), hcleared b rfl⟩
  next hisAdd =>
  have hadd := Edits.addEntry (R := R) b (b.temp.get k) (answer k)
  have htemp' : (b.addEntry (b.temp.get k) (answer k)).1.temp = b.temp := addEntry_temp ..
  have hb' := hb.trans (hadd.imp (fun _ h => h) ?_)
  · split
    · exact ⟨hb', by rw [htemp']; exact htemp⟩
    · exact ⟨hb'.trans (.congr rfl rfl), hcleared _ htemp'⟩
  · rintro _ hne rfl
    rcases htemp k with heq | heq
    · rw [heq] at hip ⊢
      exact ⟨hisAdd.1, hip, k, hk, rfl⟩
    · rw [heq] at hne
      exact absurd rfl hne

theorem Edits.deleteTable (s : NatApp) (pubIp : UInt32) (answer : Bool) :
    Edits R A s (s.deleteTable pubIp answer).1 := by
  unfold NatApp.deleteTable
  split
  · exact .congr rfl rfl
  split
  · exact .congr rfl rfl
  dsimp only
  split <;> exact .congr rfl rfl

theorem Edits.addTempEntry (s : NatApp) (newEntry : NatTableEntry) :
    Edits R A s (s.addTempEntry newEntry) := by
  unfold NatApp.addTempEntry
  dsimp only
  split <;> exact .congr rfl rfl

theorem Edits.deleteTempEntry (s : NatApp) (entry : NatTableEntry) :
    Edits R A s (s.deleteTempEntry entry) := by
  unfold NatApp.deleteTempEntry
  split <;> exact .congr rfl rfl

theorem Edits.cacheEntry {cnt : Int} (h : s.cacheEntry rule cnt = .ok s') :
    Edits R (fun c => c = rule.conn) s s' := by
  unfold NatApp.cacheEntry at h
  split at h
  · exact Except.ok.inj h ▸ .congr rfl rfl
  next hcomplete =>
  split at h
  · exact Except.ok.inj h ▸ .congr rfl rfl
  next hdup =>
  split at h
  · cases h
  split at h
  · exact Except.ok.inj h ▸ .congr rfl rfl
  · next i hfree => exact Except.ok.inj h ▸ .fillEntry hfree hcomplete hdup

end NatApp

open NatApp

variable {s s' : NatApp} {op : NatOp} {ret : Int}

/-- The connections an operation is given are of TCP or UDP. -/
def NatOp.TcpUdp : NatOp → Prop
  | .addEntry rule _ => rule.protocol = 6 ∨ rule.protocol = 17
  | .deleteEntry rule _ => rule.protocol = 6 ∨ rule.protocol = 17
  | .addTempEntry newEntry => newEntry.protocol = 6 ∨ newEntry.protocol = 17
  | .deleteTempEntry entry => entry.protocol = 6 ∨ entry.protocol = 17
  | .cacheEntry rule _ => rule.protocol = 6 ∨ rule.protocol = 17
  | _ => True

/-- The entries whose connection may go: those the operation is to delete, and those whose rule is
    refused when it restores them. -/
def NatOp.Removes (s : NatApp) : NatOp → Nat → Prop
  | .addTable pubIp tblAnswer answer => s.Dropped pubIp tblAnswer answer
  | .deleteEntry rule _ => fun i => (s.cache.get i).conn = rule.conn
  | .resetPwrSaveIf clientLanIp answer => fun i =>
    Parked clientLanIp (s.cache.get i) ∧ ¬ s.Grants (Parked clientLanIp) answer i
  | .delEntriesOnStaClntDiscon ipAddr _ => fun i => (s.cache.get i).targetIp = ipAddr
  | _ => fun _ => False

/-- The connections that may come: those the operation is to add. -/
def NatOp.Adds (s : NatApp) : NatOp → Conn → Prop
  | .addEntry rule _ => fun c => c = rule.conn
  | .cacheEntry rule _ => fun c => c = rule.conn
  | .flushTempEntries ipAddr isAdd _ => fun c => isAdd = true ∧
      (c.privateIp = ipAddr ∨ c.targetIp = ipAddr) ∧ ∃ k < s.temp.size, (s.temp.get k).conn = c
  | _ => fun _ => False

/-- **What an operation does to the connections of the cache.** -/
theorem NatApp.Edits.step (hop : op.TcpUdp) (h : natStep s op = .ok (s', ret)) :
    Edits (op.Removes s) (op.Adds s) s s' := by
  have hends : Ends (fun _ => True) (natStep s op)
      fun r => Edits (op.Removes s) (op.Adds s) s r.1 := by
    cases op with
    | addTable pubIp tblAnswer answer => exact .addTable s pubIp tblAnswer answer
    | deleteTable pubIp answer => exact .deleteTable s pubIp answer
    | addEntry rule answer => exact .addEntry s rule answer
    | deleteEntry rule answer =>
      have hproto : rule.protocol ≠ 0 := by
        rcases hop with hop | hop <;> rw [hop] <;> decide
      exact .deleteEntry s hproto answer
    | updateUdpTimeStamp answer ctUpdated => exact .updateUdpTimeStamp s answer ctUpdated
    | updatePwrSaveIf clientLanIp answer => exact .updatePwrSaveIf s clientLanIp answer
    | resetPwrSaveIf clientLanIp answer => exact .resetPwrSaveIf s clientLanIp answer
    | addTempEntry newEntry => exact .addTempEntry s newEntry
    | deleteTempEntry entry => exact .deleteTempEntry s entry
    | flushTempEntries ipAddr isAdd answer => exact .flushTempEntries s ipAddr isAdd answer
    | delEntriesOnClntDiscon ipAddr answer => exact .delEntriesOnClntDiscon s ipAddr answer
    | delEntriesOnStaClntDiscon ipAddr answer => exact .delEntriesOnStaClntDiscon s ipAddr answer
    | cacheEntry rule cnt =>
      have hcache : Ends (fun _ => True) (s.cacheEntry rule cnt)
          (Edits (fun _ => False) (fun c => c = rule.conn) s) := by
        cases h : s.cacheEntry rule cnt with
        | error f => trivial
        | ok s' => exact .cacheEntry h
      exact hcache.bind fun _ _ H => H
  rw [h] at hends
  exact hends

theorem counted_init (maxEntries : Nat) (algPorts : List IpacmAlg) (pubIpAddrPre : UInt32)
    (pwrSaveIfs : List UInt32) : (init maxEntries algPorts pubIpAddrPre pwrSaveIfs).Counted where
  count := by
    have hnone : (init maxEntries algPorts pubIpAddrPre pwrSaveIfs).occupied = ∅ :=
      Finset.filter_false_of_mem fun _ _ hocc => hocc rfl
    rw [hnone]
    rfl
  inj i _ j _ hocc := absurd rfl hocc

/-- **The cache counts its connections and holds each once.** In every state of a run, the counter is
    that of the occupied entries, within the size of the cache, and no two entries hold the same
    connection; and the next operation keeps every connection where it is, but those it is to
    delete, to add, or to restore with a rule that is refused. -/
theorem run_counted {maxEntries : Nat} {algPorts : List IpacmAlg} {pubIpAddrPre : UInt32}
    {pwrSaveIfs : List UInt32} {tr : List (NatOp × Int)}
    (hrun : Run natStep (fun _ op => op.TcpUdp)
      (.init maxEntries algPorts pubIpAddrPre pwrSaveIfs) tr s) :
    s.Counted ∧ s.curCnt ≤ s.cache.size ∧ s.cache.size = maxEntries ∧
      ∀ op s' ret, op.TcpUdp → natStep s op = .ok (s', ret) →
        Edits (op.Removes s) (op.Adds s) s s' := by
  obtain ⟨H, hsize⟩ : s.Counted ∧ s.cache.size = maxEntries := by
    refine hrun.invariant (fun _ s => s.Counted ∧ s.cache.size = maxEntries)
      ⟨counted_init .., rfl⟩ ?_
    rintro tr s op s' ret ⟨H, hsize⟩ hop h
    have hedits := Edits.step hop h
    exact ⟨hedits.counted H, hedits.size.trans hsize⟩
  refine ⟨H, ?_, hsize, fun op s' ret hop h => Edits.step hop h⟩
  have hcard := Finset.card_filter_le (Finset.range s.cache.size)
    fun i => Occupied (s.cache.get i)
  rw [Finset.card_range] at hcard
  rw [H.count]
  exact_mod_cast hcard

/-! ### An example -/

theorem run_counted_example : ∃ s tr,
    exec natStep (.init 2 [] 0 []) [.addTable 7 (some 1) fun _ => none, .addEntry webEntry (some 1),
      .addEntry mailEntry (some 2), .deleteEntry webEntry true] = .ok (s, tr) ∧
      s.Counted ∧ s.curCnt = 1 := by
  obtain ⟨s, tr, hexec, hcnt⟩ : ∃ s tr, exec natStep (.init 2 [] 0 [])
      [.addTable 7 (some 1) fun _ => none, .addEntry webEntry (some 1),
        .addEntry mailEntry (some 2), .deleteEntry webEntry true] = .ok (s, tr) ∧ s.curCnt = 1 :=
    ⟨_, _, rfl, rfl⟩
  have hrun : Run natStep (fun _ op => op.TcpUdp) (.init 2 [] 0 []) tr s :=
    Run.of_exec hexec (by simp [NatOp.TcpUdp, webEntry, mailEntry])
  exact ⟨s, tr, hexec, (run_counted hrun).1, hcnt⟩

/-- The driver refuses the rule of a connection that was cached while its client was asleep, and the
    connection is lost though nobody deleted it. -/
theorem run_counted_refused : ¬ ∀ s tr,
    Run natStep (fun _ op => op.TcpUdp) (.init 2 [] 0 [0]) tr s →
    ∀ clientLanIp answer, ∀ i < s.cache.size, Occupied (s.cache.get i) →
      Occupied ((s.resetPwrSaveIf clientLanIp answer).1.cache.get i) := by
  intro hall
  obtain ⟨s, tr, hexec, hsize, hocc, hfree⟩ : ∃ s tr, exec natStep (.init 2 [] 0 [0])
      [.addTable 7 (some 1) fun _ => none, .updatePwrSaveIf 0xC0A80002 fun _ => true,
        .addEntry webEntry none] = .ok (s, tr) ∧ s.cache.size = 2 ∧ Occupied (s.cache.get 0) ∧
      ¬ Occupied ((s.resetPwrSaveIf 0xC0A80002 fun _ => none).1.cache.get 0) :=
    ⟨_, _, rfl, rfl, by decide, by decide⟩
  have hrun : Run natStep (fun _ op => op.TcpUdp) (.init 2 [] 0 [0]) tr s :=
    Run.of_exec hexec (by simp [NatOp.TcpUdp, webEntry])
  exact hfree (hall s tr hrun _ _ 0 (by omega) hocc)

end Nx508j.Ipacm
