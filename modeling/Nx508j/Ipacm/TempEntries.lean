import Nx508j.Ipacm.CtMessages

/-! # Temporary entries

When a client becomes known, `FlushTempEntries` is to turn the rules that wait for it into entries
of the cache, those that were made for the public address there is. It compares the address of the
driver to the lower half of the one that was recorded. -/

namespace Nx508j.Ipacm

open Nx508j.Lib Function

/-- What an entry of the cache has from the rule it was added for. -/
structure NatTuple where
  conn : Conn
  publicPort : UInt16
  dstNat : Bool
deriving DecidableEq, Repr

def NatTableEntry.tuple (e : NatTableEntry) : NatTuple := ⟨e.conn, e.publicPort, e.dstNat⟩

/-- The rule is one for the client with the address. -/
def NatTableEntry.For (e : NatTableEntry) (ipAddr : UInt32) : Prop :=
  e.privateIp = ipAddr ∨ e.targetIp = ipAddr

instance instDecidableFor (e : NatTableEntry) (ipAddr : UInt32) : Decidable (e.For ipAddr) :=
  inferInstanceAs (Decidable (_ ∨ _))

/-- A rule, and what the driver answers when it is added. -/
structure Asked where
  rule : NatTableEntry
  answer : Option UInt32

namespace NatApp

variable {s s' : NatApp} {rule : NatTableEntry} {answer : Option UInt32}

/-- What is in an entry of the cache, if something is. -/
def tupleAt (m : Region NatTableEntry) (cnt : Nat) : Option NatTuple :=
  if Occupied (m.get cnt) then some (m.get cnt).tuple else none

/-- What is in the cache. -/
def tuples (s : NatApp) : List NatTuple := (List.range s.cache.size).filterMap (tupleAt s.cache)

/-! ## Adding an entry -/

/-- The application takes rules, and does not leave this one to an ALG. -/
def Open (s : NatApp) (rule : NatTableEntry) : Prop :=
  s.natTableHdl ≠ 0 ∧
    ¬ (s.isAlgPort rule.protocol rule.privatePort = true ∨
      s.isAlgPort rule.protocol rule.targetPort = true)

/-- The client of the rule saves power, and its rule is not put into the driver. -/
def Saves (s : NatApp) (rule : NatTableEntry) : Prop :=
  s.isPwrSaveIf rule.privateIp = true ∨ s.isPwrSaveIf rule.targetIp = true

instance instDecidableSaves (s : NatApp) (rule : NatTableEntry) : Decidable (s.Saves rule) :=
  inferInstanceAs (Decidable (_ ∨ _))

/-- The driver takes the rule under a handle that is free. -/
def Takes (s : NatApp) (answer : Option UInt32) : Prop :=
  s.ipaNat.tbl = some s.natTableHdl ∧ ∃ hdl, answer = some hdl ∧ hdl ≠ 0 ∧
    s.ipaNat.rules hdl = none

/-- A complete rule can be added. -/
structure Addable (s : NatApp) (a : Asked) : Prop where
  fresh : a.rule.conn ∉ s.tuples.map NatTuple.conn
  room : s.tuples.length < s.cache.size
  taken : ¬ s.Saves a.rule → s.Takes a.answer

/-- Complete rules can be added one after the other. -/
structure AllAddable (s : NatApp) (l : List Asked) : Prop where
  fresh : ∀ a ∈ l, a.rule.conn ∉ s.tuples.map NatTuple.conn
  distinct : (l.map (·.rule.conn)).Nodup
  room : s.tuples.length + l.length ≤ s.cache.size
  taken : ∀ a ∈ l, ¬ s.Saves a.rule → s.Takes a.answer
  handles : ((l.filter fun a => ¬ s.Saves a.rule).map Asked.answer).Nodup

/-- The rule has been added. -/
structure Added (s : NatApp) (a : Asked) (s' : NatApp) : Prop where
  rest : s' = { s with cache := s'.cache, curCnt := s'.curCnt, ipaNat := s'.ipaNat }
  size : s'.cache.size = s.cache.size
  tuples : s'.tuples.Perm (a.rule.tuple :: s.tuples)
  tbl : s'.ipaNat.tbl = s.ipaNat.tbl
  rules : ∀ hdl, s'.ipaNat.rules hdl = none ↔
    s.ipaNat.rules hdl = none ∧ (s.Saves a.rule ∨ a.answer ≠ some hdl)

variable {l : List Nat}

theorem filterMap_perm_cons {β : Type} {f g : Nat → Option β} (hl : l.Nodup) {c : Nat} (hc : c ∈ l)
    {v : β} (hf : f c = none) (hg : g c = some v) (hother : ∀ i, i ≠ c → g i = f i) :
    (l.filterMap g).Perm (v :: l.filterMap f) := by
  have hperm := List.perm_cons_erase hc
  refine (hperm.filterMap g).trans ?_
  rw [List.filterMap_cons_some hg]
  refine List.Perm.cons v ?_
  have hsame : (l.erase c).filterMap g = (l.erase c).filterMap f :=
    List.filterMap_congr fun i hi => hother i (hl.mem_erase_iff.1 hi).1
  rw [hsame, ← List.filterMap_cons_none hf]
  exact (hperm.filterMap f).symm

theorem mem_conns {conn : Conn} (hne : conn ≠ freeConn) :
    conn ∈ s.tuples.map NatTuple.conn ↔ ∃ cnt < s.cache.size, (s.cache.get cnt).conn = conn := by
  simp only [tuples, tupleAt, List.mem_map, List.mem_filterMap, List.mem_range,
    Option.ite_none_right_eq_some, Option.some.injEq]
  constructor
  · rintro ⟨t, ⟨cnt, hcnt, -, rfl⟩, rfl⟩
    exact ⟨cnt, hcnt, rfl⟩
  · rintro ⟨cnt, hcnt, rfl⟩
    exact ⟨_, ⟨cnt, hcnt, hne, rfl⟩, rfl⟩

theorem conn_ne_freeConn (hcomplete : ¬ rule.Incomplete) : rule.conn ≠ freeConn :=
  occupied_of_privateIp fun h => hcomplete (Or.inl h)

theorem chkForDup_iff (hcomplete : ¬ rule.Incomplete) :
    s.chkForDup rule = true ↔ rule.conn ∈ s.tuples.map NatTuple.conn := by
  rw [mem_conns (conn_ne_freeConn hcomplete), chkForDup]
  cases hfind : s.findConn rule.conn 0 with
  | none => simpa using findConn_none hfind
  | some cnt =>
    obtain ⟨hcnt, hconn⟩ := findConn_some hfind
    simpa using ⟨cnt, hcnt, hconn⟩

theorem length_tuples_le (s : NatApp) : s.tuples.length ≤ s.cache.size := by
  simpa [tuples] using List.length_filterMap_le (tupleAt s.cache) (List.range s.cache.size)

theorem room_iff : s.tuples.length < s.cache.size ↔ ∃ cnt, s.findConn freeConn 0 = some cnt := by
  have hlength : s.tuples.length < (List.range s.cache.size).length ↔
      ∃ cnt, ∃ (_ : cnt ∈ List.range s.cache.size), tupleAt s.cache cnt = none :=
    List.length_filterMap_lt_length_iff_exists
  rw [List.length_range] at hlength
  rw [hlength]
  cases hfind : s.findConn freeConn 0 with
  | none =>
    have hno : ∀ i < s.cache.size, tupleAt s.cache i ≠ none := fun i hi => by
      simp [tupleAt, Occupied, findConn_none hfind i hi]
    simpa using hno
  | some cnt =>
    obtain ⟨hcnt, hconn⟩ := findConn_some hfind
    simp only [List.mem_range, Option.some.injEq, exists_eq', iff_true]
    exact ⟨cnt, hcnt, by simp [tupleAt, Occupied, hconn]⟩

variable {cnt : Nat}

theorem tuples_fillEntry {a : IpaNat} (hcomplete : ¬ rule.Incomplete)
    (hfree : s.findConn freeConn 0 = some cnt) (enabled : Bool) (hdl : UInt32) :
    (NatApp.fillEntry { s with ipaNat := a } cnt rule enabled hdl).tuples.Perm
      (rule.tuple :: s.tuples) := by
  obtain ⟨hcnt, hconn⟩ := findConn_some hfree
  refine filterMap_perm_cons List.nodup_range (List.mem_range.2 hcnt) ?_ ?_ fun i hne => ?_
  · simp [tupleAt, Occupied, hconn]
  · unfold tupleAt NatApp.fillEntry
    rw [Region.get_set_self]
    exact if_pos (conn_ne_freeConn hcomplete)
  · unfold tupleAt NatApp.fillEntry
    rw [Region.get_set, if_neg hne]

theorem addEntry_incomplete (hopen : s.Open rule) (hinc : rule.Incomplete)
    (answer : Option UInt32) : s.addEntry rule answer = (s, 0) := by
  unfold addEntry
  rw [if_neg hopen.1, if_neg hopen.2, if_pos hinc]

theorem addEntry_closed (hclosed : ¬ s.Open rule) (answer : Option UInt32) :
    (s.addEntry rule answer).2 = -1 := by
  unfold addEntry
  split
  · rfl
  next htbl =>
  split
  · rfl
  next halg => exact absurd ⟨htbl, halg⟩ hclosed

variable {a : Asked}

/-- **What adding a complete rule does.** -/
theorem addEntry_addable (hopen : s.Open a.rule) (hcomplete : ¬ a.rule.Incomplete)
    (h : s.Addable a) :
    s.Added a (s.addEntry a.rule a.answer).1 ∧ (s.addEntry a.rule a.answer).2 = 0 := by
  obtain ⟨cnt, hfree⟩ := room_iff.1 h.room
  have hdup : ¬ s.chkForDup a.rule = true := fun hdup => h.fresh ((chkForDup_iff hcomplete).1 hdup)
  unfold addEntry
  rw [if_neg hopen.1, if_neg hopen.2, if_neg hcomplete, if_neg hdup, hfree]
  dsimp only
  by_cases hsave : s.Saves a.rule
  · have hif := hsave
    unfold Saves at hif
    rw [if_pos hif]
    refine ⟨⟨rfl, rfl, tuples_fillEntry hcomplete hfree false 0, rfl, fun hdl => ?_⟩, rfl⟩
    simp [fillEntry, hsave]
  · obtain ⟨htbl, hdl, hans, hne, hnone⟩ := h.taken hsave
    have hadd : s.ipaNat.addIpv4Rule s.natTableHdl a.rule.natRule a.answer =
        ({ s.ipaNat with rules := update s.ipaNat.rules hdl (some a.rule.natRule) },
          some hdl) := by
      rw [hans]
      exact if_pos ⟨htbl, hne, hnone⟩
    have hif := hsave
    unfold Saves at hif
    rw [if_neg hif, hadd]
    refine ⟨⟨rfl, rfl, tuples_fillEntry hcomplete hfree true hdl, rfl, fun hdl' => ?_⟩, rfl⟩
    dsimp only [fillEntry]
    rw [update_apply, hans]
    split
    · next heq => simp [heq, hsave]
    · next hne' => simp [hsave, Ne.symm hne']

theorem addEntry_refused (hcomplete : ¬ a.rule.Incomplete) (h : ¬ s.Addable a) :
    (s.addEntry a.rule a.answer).2 = -1 := by
  unfold addEntry
  split
  · rfl
  split
  · rfl
  split
  · rfl
  next hdup =>
  split
  · rfl
  next cnt hfree =>
  have htaken : ¬ (¬ s.Saves a.rule → s.Takes a.answer) := fun htaken =>
    h ⟨fun hmem => hdup ((chkForDup_iff hcomplete).2 hmem), room_iff.2 ⟨cnt, hfree⟩, htaken⟩
  obtain ⟨hsave, htakes⟩ := Classical.not_imp.1 htaken
  have hif := hsave
  unfold Saves at hif
  rw [if_neg hif]
  have hadd : s.ipaNat.addIpv4Rule s.natTableHdl a.rule.natRule a.answer = (s.ipaNat, none) := by
    cases hans : a.answer with
    | none => rfl
    | some hdl =>
      refine if_neg fun hc => htakes ?_
      exact ⟨hc.1, hdl, hans, hc.2⟩
  rw [hadd]

/-! ## Adding rules one after the other -/

theorem Added.saves (h : s.Added a s') (rule : NatTableEntry) : s'.Saves rule ↔ s.Saves rule := by
  rw [h.rest]
  rfl

theorem Added.open (h : s.Added a s') (rule : NatTableEntry) : s'.Open rule ↔ s.Open rule := by
  rw [h.rest]
  rfl

theorem Added.conns (h : s.Added a s') {conn : Conn} : conn ∈ s'.tuples.map NatTuple.conn ↔
      conn = a.rule.conn ∨ conn ∈ s.tuples.map NatTuple.conn := by
  rw [(h.tuples.map NatTuple.conn).mem_iff, List.map_cons, List.mem_cons]
  rfl

theorem Added.takes (h : s.Added a s') :
    s'.Takes answer ↔ s.Takes answer ∧ (s.Saves a.rule ∨ a.answer ≠ answer) := by
  have hhdl : s'.natTableHdl = s.natTableHdl := by rw [h.rest]
  unfold Takes
  rw [h.tbl, hhdl]
  constructor
  · rintro ⟨htbl, hdl, rfl, hne, hnone⟩
    obtain ⟨hnone, hother⟩ := (h.rules hdl).1 hnone
    exact ⟨⟨htbl, hdl, rfl, hne, hnone⟩, hother⟩
  · rintro ⟨⟨htbl, hdl, rfl, hne, hnone⟩, hother⟩
    exact ⟨htbl, hdl, rfl, hne, (h.rules hdl).2 ⟨hnone, hother⟩⟩

theorem allAddable_nil (s : NatApp) : s.AllAddable [] :=
  ⟨by simp, by simp, by simpa using s.length_tuples_le, by simp, by simp⟩

theorem AllAddable.head {l : List Asked} (h : s.AllAddable (a :: l)) : s.Addable a := by
  have hroom := h.room
  rw [List.length_cons] at hroom
  exact ⟨h.fresh a (by simp), by omega, h.taken a (by simp)⟩

/-- **All can be added** just if the first can, and the others after it. -/
theorem allAddable_cons {l : List Asked} (h : s.Added a s') :
    s.AllAddable (a :: l) ↔ s.Addable a ∧ s'.AllAddable l := by
  have hlength : s'.tuples.length = s.tuples.length + 1 := by
    rw [h.tuples.length_eq, List.length_cons]
  have hsize := h.size
  have hfilter : (l.filter fun b => ¬ s'.Saves b.rule) = l.filter fun b => ¬ s.Saves b.rule := by
    simp only [h.saves]
  -- a handle is free for a later rule if it is not the one given to the first
  have hhandles : ((a :: l).filter fun b => ¬ s.Saves b.rule).map Asked.answer =
      (if s.Saves a.rule then [] else [a.answer]) ++
        (l.filter fun b => ¬ s.Saves b.rule).map Asked.answer := by
    rw [List.filter_cons]
    by_cases hsave : s.Saves a.rule <;> simp [hsave]
  constructor
  · intro H
    obtain ⟨hnot, hdistinct⟩ := List.nodup_cons.1 H.distinct
    have hnodup := H.handles
    rw [hhandles, List.nodup_append] at hnodup
    obtain ⟨-, hnodup, hdisjoint⟩ := hnodup
    have hroom := H.room
    rw [List.length_cons] at hroom
    refine ⟨H.head, ⟨fun b hb hmem => ?_, hdistinct, by omega, fun b hb hsave => ?_,
      by rwa [hfilter]⟩⟩
    · rcases h.conns.1 hmem with heq | hmem
      · exact hnot (List.mem_map.2 ⟨b, hb, heq⟩)
      · exact H.fresh b (by simp [hb]) hmem
    · rw [h.saves] at hsave
      refine h.takes.2 ⟨H.taken b (by simp [hb]) hsave, ?_⟩
      by_cases hsave' : s.Saves a.rule
      · exact Or.inl hsave'
      · refine Or.inr fun heq => ?_
        rw [if_neg hsave'] at hdisjoint
        refine hdisjoint a.answer (by simp) b.answer ?_ heq
        exact List.mem_map_of_mem (List.mem_filter.2 ⟨hb, by simpa using hsave⟩)
  · rintro ⟨ha, H⟩
    have hroom := H.room
    refine ⟨?_, ?_, ?_, ?_, ?_⟩
    · intro b hb
      rcases List.mem_cons.1 hb with rfl | hb
      · exact ha.fresh
      · exact fun hmem => H.fresh b hb (h.conns.2 (Or.inr hmem))
    · refine List.nodup_cons.2 ⟨fun hmem => ?_, H.distinct⟩
      obtain ⟨b, hb, heq⟩ := List.mem_map.1 hmem
      exact H.fresh b hb (h.conns.2 (Or.inl heq))
    · rw [List.length_cons]
      omega
    · intro b hb hsave
      rcases List.mem_cons.1 hb with rfl | hb
      · exact ha.taken hsave
      · exact (h.takes.1 (H.taken b hb (by rwa [h.saves]))).1
    · have hnodup := H.handles
      rw [hfilter] at hnodup
      rw [hhandles, List.nodup_append]
      refine ⟨by split <;> simp, hnodup, ?_⟩
      rintro answer hfirst answer' hmem rfl
      obtain ⟨b, hb, rfl⟩ := List.mem_map.1 hmem
      obtain ⟨hb, hsave⟩ := List.mem_filter.1 hb
      by_cases hsave' : s.Saves a.rule
      · simp [hsave'] at hfirst
      · have htakes := H.taken b hb (by simpa [h.saves] using hsave)
        rcases (h.takes.1 htakes).2 with hs | hne
        · exact hsave' hs
        · simp only [if_neg hsave', List.mem_singleton] at hfirst
          exact hne hfirst.symm

/-! ## Flushing -/

/-- The body of the loop of `FlushTempEntries`. -/
def flushEntry (ipAddr : UInt32) (isAdd : Bool) (answer : Nat → Option UInt32) (s : NatApp)
    (cnt : Nat) : NatApp :=
  let e := s.temp.get cnt
  if e.privateIp = ipAddr ∨ e.targetIp = ipAddr then
    if isAdd = true ∧ e.publicIp.toUInt32 = s.pubIpAddr then
      let (s, ret) := s.addEntry e (answer cnt)
      if ret ≠ 0 then s else { s with temp := s.temp.set cnt {} }
    else { s with temp := s.temp.set cnt {} }
  else s

theorem flushTempEntries_eq (s : NatApp) (ipAddr : UInt32) (isAdd : Bool)
    (answer : Nat → Option UInt32) : s.flushTempEntries ipAddr isAdd answer =
      (List.range s.temp.size).foldl (flushEntry ipAddr isAdd answer) s := rfl

/-- The loop hands the rule of a client over. -/
def Tried (s : NatApp) (ipAddr : UInt32) (e : NatTableEntry) : Prop :=
  e.For ipAddr ∧ e.publicIp.toUInt32 = s.pubIpAddr

instance instDecidableTried (s : NatApp) (ipAddr : UInt32) (e : NatTableEntry) :
    Decidable (s.Tried ipAddr e) :=
  inferInstanceAs (Decidable (_ ∧ _))

/-- The rules that the loop hands over, of the entries in `l`. -/
def asked (s : NatApp) (ipAddr : UInt32) (answer : Nat → Option UInt32) (l : List Nat) :
    List Asked :=
  (l.filter fun cnt => s.Tried ipAddr (s.temp.get cnt)).map fun cnt =>
    ⟨s.temp.get cnt, answer cnt⟩

/-- The rules handed over are taken or ignored. -/
structure Accepts (s : NatApp) (l : List Asked) : Prop where
  opens : ∀ a ∈ l, s.Open a.rule
  adds : s.AllAddable (l.filter fun a => ¬ a.rule.Incomplete)

theorem asked_cons (s : NatApp) (ipAddr : UInt32) (answer : Nat → Option UInt32) (cnt : Nat)
    (l : List Nat) : s.asked ipAddr answer (cnt :: l) =
      s.asked ipAddr answer [cnt] ++ s.asked ipAddr answer l := by
  unfold asked
  rw [← List.map_append, ← List.filter_append, List.singleton_append]

variable {ipAddr : UInt32}

theorem asked_congr {answer : Nat → Option UInt32}
    (htemp : ∀ cnt ∈ l, s'.temp.get cnt = s.temp.get cnt) (hpub : s'.pubIpAddr = s.pubIpAddr) :
    s'.asked ipAddr answer l = s.asked ipAddr answer l := by
  have hfilter : (l.filter fun cnt => s'.Tried ipAddr (s'.temp.get cnt)) =
      l.filter fun cnt => s.Tried ipAddr (s.temp.get cnt) := by
    refine List.filter_congr fun cnt hcnt => ?_
    rw [htemp cnt hcnt]
    exact decide_eq_decide.2 (by rw [Tried, Tried, hpub])
  unfold asked
  rw [hfilter]
  refine List.map_congr_left fun cnt hcnt => ?_
  rw [htemp cnt (List.mem_of_mem_filter hcnt)]

theorem accepts_setTemp (s : NatApp) (temp : Region NatTableEntry) (l : List Asked) :
    Accepts { s with temp := temp } l ↔ s.Accepts l :=
  ⟨fun h => ⟨h.opens, h.adds.fresh, h.adds.distinct, h.adds.room, h.adds.taken, h.adds.handles⟩,
    fun h => ⟨h.opens, h.adds.fresh, h.adds.distinct, h.adds.room, h.adds.taken, h.adds.handles⟩⟩

/-- The rules of some entries, `new`, have been handed over, and entry `cnt` is cleared. -/
structure FlushedOne (s : NatApp) (new : List Asked) (cnt : Nat) (s' : NatApp) : Prop where
  temp : s'.temp = s.temp.set cnt {}
  pubIpAddr : s'.pubIpAddr = s.pubIpAddr
  accepts : ∀ l, s.Accepts (new ++ l) ↔ s'.Accepts l
  tuples : s'.tuples.Perm
    ((new.filter fun a => ¬ a.rule.Incomplete).map (·.rule.tuple) ++ s.tuples)

theorem accepts_ignored (hopen : s.Open a.rule) (hinc : a.rule.Incomplete) (l : List Asked) :
    s.Accepts (a :: l) ↔ s.Accepts l := by
  constructor
  · intro h
    have hadds := h.adds
    rw [List.filter_cons_of_neg (by simpa using hinc)] at hadds
    exact ⟨fun b hb => h.opens b (by simp [hb]), hadds⟩
  · intro h
    refine ⟨List.forall_mem_cons.2 ⟨hopen, h.opens⟩, ?_⟩
    rw [List.filter_cons_of_neg (by simpa using hinc)]
    exact h.adds

theorem accepts_added (hopen : s.Open a.rule) (hcomplete : ¬ a.rule.Incomplete)
    (haddable : s.Addable a) (hadded : s.Added a s') (l : List Asked) :
    s.Accepts (a :: l) ↔ s'.Accepts l := by
  constructor
  · intro h
    have hadds := h.adds
    rw [List.filter_cons_of_pos (by simpa using hcomplete), allAddable_cons hadded] at hadds
    exact ⟨fun b hb => (hadded.open b.rule).2 (h.opens b (by simp [hb])), hadds.2⟩
  · intro h
    refine ⟨List.forall_mem_cons.2 ⟨hopen, fun b hb => (hadded.open b.rule).1 (h.opens b hb)⟩, ?_⟩
    rw [List.filter_cons_of_pos (by simpa using hcomplete), allAddable_cons hadded]
    exact ⟨haddable, h.adds⟩

theorem addEntry_fails (hfails : (s.addEntry a.rule a.answer).2 ≠ 0) (l : List Asked) :
    ¬ s.Accepts (a :: l) := by
  intro h
  have hopen := h.opens a (by simp)
  by_cases hinc : a.rule.Incomplete
  · rw [addEntry_incomplete hopen hinc] at hfails
    exact hfails rfl
  · have hadds := h.adds
    rw [List.filter_cons_of_pos (by simpa using hinc)] at hadds
    exact hfails (addEntry_addable hopen hinc hadds.head).2

theorem flushedOne_addEntry (hret : (s.addEntry a.rule a.answer).2 = 0) (cnt : Nat) :
    s.FlushedOne [a] cnt { (s.addEntry a.rule a.answer).1 with
      temp := (s.addEntry a.rule a.answer).1.temp.set cnt {} } := by
  have hopen : s.Open a.rule := by
    by_contra hclosed
    rw [addEntry_closed hclosed] at hret
    cases hret
  by_cases hinc : a.rule.Incomplete
  · rw [addEntry_incomplete hopen hinc]
    refine ⟨rfl, rfl, fun l => ?_, by simp [hinc, tuples]⟩
    exact (accepts_ignored hopen hinc l).trans (accepts_setTemp s _ l).symm
  · have haddable : s.Addable a := by
      by_contra hnot
      rw [addEntry_refused hinc hnot] at hret
      cases hret
    have hadded := (addEntry_addable hopen hinc haddable).1
    refine ⟨?_, ?_, fun l => ?_, ?_⟩
    · rw [addEntry_temp]
    · dsimp only
      rw [hadded.rest]
    · exact (accepts_added hopen hinc haddable hadded l).trans (accepts_setTemp _ _ l).symm
    · refine hadded.tuples.trans ?_
      simp [hinc]

theorem addEntry_unchanged (h : (s.addEntry rule answer).2 ≠ 0) :
    (s.addEntry rule answer).1 = s := by
  unfold addEntry at h ⊢
  split
  · rfl
  split
  · rfl
  split
  · rfl
  split
  · rfl
  split
  · rfl
  split
  · simp_all
  · split <;> simp_all

/-- **What the body of the loop does** with an entry of the client: the rule is refused and stays,
    or it is handed over, if it is one for the address there is, and the entry is cleared. -/
theorem flushEntry_spec (hfor : (s.temp.get cnt).For ipAddr) (answer : Nat → Option UInt32) :
    (flushEntry ipAddr true answer s cnt = s ∧
      ∀ l, ¬ s.Accepts (s.asked ipAddr answer [cnt] ++ l)) ∨
    s.FlushedOne (s.asked ipAddr answer [cnt]) cnt (flushEntry ipAddr true answer s cnt) := by
  have hif := hfor
  unfold NatTableEntry.For at hif
  unfold flushEntry
  dsimp only
  rw [if_pos hif]
  by_cases hpub : (s.temp.get cnt).publicIp.toUInt32 = s.pubIpAddr
  · let a : Asked := ⟨s.temp.get cnt, answer cnt⟩
    have hasked : s.asked ipAddr answer [cnt] = [a] := by simp [asked, Tried, hfor, hpub, a]
    rw [hasked, if_pos ⟨rfl, hpub⟩]
    by_cases hret : (s.addEntry a.rule a.answer).2 = 0
    · refine Or.inr ?_
      have hone := flushedOne_addEntry hret cnt
      rw [if_neg (not_not.2 hret)]
      exact hone
    · rw [if_pos hret]
      exact Or.inl ⟨addEntry_unchanged hret, fun l => addEntry_fails hret l⟩
  · have hasked : s.asked ipAddr answer [cnt] = [] := by simp [asked, Tried, hpub]
    rw [hasked, if_neg fun hc => hpub hc.2]
    exact Or.inr ⟨rfl, rfl, fun l => (accepts_setTemp s _ l).symm, .refl _⟩

/-- What the loop with `isAdd` does to the entries of `l`. -/
structure Flushed (s : NatApp) (ipAddr : UInt32) (answer : Nat → Option UInt32) (l : List Nat)
    (s' : NatApp) : Prop where
  cleared : (∀ cnt ∈ l, (s.temp.get cnt).For ipAddr → s'.temp.get cnt = {}) ↔
    s.Accepts (s.asked ipAddr answer l)
  kept : ∀ cnt, cnt ∉ l ∨ ¬ (s.temp.get cnt).For ipAddr → s'.temp.get cnt = s.temp.get cnt
  tuples : s.Accepts (s.asked ipAddr answer l) → s'.tuples.Perm
    (((s.asked ipAddr answer l).filter fun a => ¬ a.rule.Incomplete).map (·.rule.tuple) ++ s.tuples)

theorem Flushed.nil (s : NatApp) (ipAddr : UInt32) (answer : Nat → Option UInt32) :
    s.Flushed ipAddr answer [] s :=
  ⟨iff_of_true (by simp) ⟨by simp [asked], s.allAddable_nil⟩, fun _ _ => rfl,
    fun _ => .refl _⟩

theorem Flushed.skip {answer : Nat → Option UInt32} (h : s.Flushed ipAddr answer l s')
    (hfor : ¬ (s.temp.get cnt).For ipAddr) : s.Flushed ipAddr answer (cnt :: l) s' := by
  have hasked : s.asked ipAddr answer (cnt :: l) = s.asked ipAddr answer l := by
    rw [asked_cons]
    simp [asked, Tried, hfor]
  refine ⟨?_, fun c hc => h.kept c ?_, ?_⟩
  · rw [hasked, ← h.cleared, List.forall_mem_cons]
    exact and_iff_right fun hc => absurd hc hfor
  · rcases hc with hc | hc
    · exact Or.inl fun hmem => hc (List.mem_cons_of_mem cnt hmem)
    · exact Or.inr hc
  · rw [hasked]
    exact h.tuples

theorem Flushed.refuse (hip : ipAddr ≠ 0) {answer : Nat → Option UInt32}
    (h : s.Flushed ipAddr answer l s') (hcnt : cnt ∉ l) (hfor : (s.temp.get cnt).For ipAddr)
    (hrefused : ∀ l, ¬ s.Accepts (s.asked ipAddr answer [cnt] ++ l)) :
    s.Flushed ipAddr answer (cnt :: l) s' := by
  have hnot := hrefused (s.asked ipAddr answer l)
  rw [← asked_cons] at hnot
  refine ⟨iff_of_false (fun hall => ?_) hnot, fun c hc => h.kept c ?_, fun hc => absurd hc hnot⟩
  · -- the rule is still there, and is one of the client
    have hzero := hall cnt (by simp) hfor
    rw [h.kept cnt (Or.inl hcnt)] at hzero
    rw [hzero] at hfor
    exact hfor.elim (fun heq => hip heq.symm) fun heq => hip heq.symm
  · rcases hc with hc | hc
    · exact Or.inl fun hmem => hc (List.mem_cons_of_mem cnt hmem)
    · exact Or.inr hc

theorem Flushed.clear {s₁ : NatApp} {answer : Nat → Option UInt32}
    (h : s₁.Flushed ipAddr answer l s') (hcnt : cnt ∉ l) (hfor : (s.temp.get cnt).For ipAddr)
    (hone : s.FlushedOne (s.asked ipAddr answer [cnt]) cnt s₁) :
    s.Flushed ipAddr answer (cnt :: l) s' := by
  have htemp : ∀ c, c ≠ cnt → s₁.temp.get c = s.temp.get c := fun c hne => by
    rw [hone.temp, Region.get_set, if_neg hne]
  have hl : ∀ c ∈ l, s₁.temp.get c = s.temp.get c := fun c hc =>
    htemp c fun heq => hcnt (heq ▸ hc)
  have hasked : s₁.asked ipAddr answer l = s.asked ipAddr answer l :=
    asked_congr hl hone.pubIpAddr
  have haccepts : s.Accepts (s.asked ipAddr answer (cnt :: l)) ↔
      s₁.Accepts (s₁.asked ipAddr answer l) := by
    rw [asked_cons, hone.accepts, hasked]
  refine ⟨?_, fun c hc => ?_, fun hc => ?_⟩
  · have hzero : s'.temp.get cnt = {} := by
      rw [h.kept cnt (Or.inl hcnt), hone.temp, Region.get_set_self]
    rw [haccepts, ← h.cleared, List.forall_mem_cons, and_iff_right fun _ => hzero]
    exact forall₂_congr fun c hc => by rw [hl c hc]
  · have hne : c ≠ cnt := by
      rintro rfl
      exact hc.elim (fun hc => hc (List.mem_cons_self ..)) fun hc => hc hfor
    rw [h.kept c ?_, htemp c hne]
    rw [htemp c hne]
    exact hc.imp_left fun hc hmem => hc (List.mem_cons_of_mem cnt hmem)
  · have htuples := h.tuples (haccepts.1 hc)
    rw [hasked] at htuples
    rw [asked_cons, List.filter_append, List.map_append, List.append_assoc]
    refine (htuples.trans (hone.tuples.append_left _)).trans ?_
    rw [← List.append_assoc, ← List.append_assoc]
    exact List.perm_append_comm.append_right _

/-- **What the loop with `isAdd` does.** -/
theorem flushed_foldl (hip : ipAddr ≠ 0) (answer : Nat → Option UInt32) (hl : l.Nodup)
    (s : NatApp) :
    s.Flushed ipAddr answer l (l.foldl (flushEntry ipAddr true answer) s) := by
  induction l generalizing s with
  | nil => exact .nil s ipAddr answer
  | cons cnt l ih =>
    obtain ⟨hcnt, hl⟩ := List.nodup_cons.1 hl
    rw [List.foldl_cons]
    by_cases hfor : (s.temp.get cnt).For ipAddr
    · rcases flushEntry_spec hfor answer with ⟨hsame, hrefused⟩ | hone
      · rw [hsame]
        exact (ih hl s).refuse hip hcnt hfor hrefused
      · exact (ih hl _).clear hcnt hfor hone
    · have hsame : flushEntry ipAddr true answer s cnt = s := if_neg hfor
      rw [hsame]
      exact (ih hl s).skip hfor

theorem flushEntry_false (ipAddr : UInt32) (answer : Nat → Option UInt32) (s : NatApp)
    (cnt : Nat) : flushEntry ipAddr false answer s cnt =
      { s with
        temp := if (s.temp.get cnt).For ipAddr then s.temp.set cnt {} else s.temp } := by
  by_cases hfor : (s.temp.get cnt).For ipAddr
  · have hif := hfor
    unfold NatTableEntry.For at hif
    simp [flushEntry, hif, hfor]
  · have hif := hfor
    unfold NatTableEntry.For at hif
    simp [flushEntry, hif, hfor]

/-- **What the loop without `isAdd` does.** -/
theorem removed_foldl (ipAddr : UInt32) (answer : Nat → Option UInt32) (l : List Nat) (s : NatApp) :
    (∃ temp, l.foldl (flushEntry ipAddr false answer) s = { s with temp := temp }) ∧
    ∀ cnt, (l.foldl (flushEntry ipAddr false answer) s).temp.get cnt =
      if cnt ∈ l ∧ (s.temp.get cnt).For ipAddr then {} else s.temp.get cnt := by
  induction l generalizing s with
  | nil => exact ⟨⟨s.temp, rfl⟩, by simp⟩
  | cons i l ih =>
    rw [List.foldl_cons, flushEntry_false]
    obtain ⟨⟨temp, hrest⟩, hget⟩ := ih { s with
      temp := if (s.temp.get i).For ipAddr then s.temp.set i {} else s.temp }
    refine ⟨⟨temp, hrest⟩, fun cnt => ?_⟩
    rw [hget cnt]
    by_cases hi : (s.temp.get i).For ipAddr
    · by_cases hcnt : cnt = i
      · subst hcnt
        simp [hi]
      · simp [hi, hcnt, Region.get_set]
    · by_cases hcnt : cnt = i
      · subst hcnt
        simp [hi]
      · simp [hi, hcnt]

end NatApp

/-! ## What the flush is to do -/

namespace CtWorld

open NatApp

variable {w : CtWorld} {ipAddr : UInt32} {answer : Nat → Option UInt32} {cnt : Nat}

def temp (w : CtWorld) (cnt : Nat) : NatTableEntry := w.listener.natInst.temp.get cnt

def tempSize (w : CtWorld) : Nat := w.listener.natInst.temp.size

/-- The rules that are to be added: those of the client, with the public address there is. -/
def due (w : CtWorld) (ipAddr : UInt32) : List Nat :=
  (List.range w.tempSize).filter fun cnt => (w.temp cnt).For ipAddr ∧
    ((w.temp cnt).privateIp ≠ 0 ∨ (w.temp cnt).targetIp ≠ 0) ∧
    w.recorded cnt = w.listener.natInst.pubIpAddr

/-- The rules of the client are gone, and no others. -/
def Cleared (w : CtWorld) (ipAddr : UInt32) (s' : NatApp) : Prop :=
  ∀ cnt < w.tempSize, s'.temp.get cnt = if (w.temp cnt).For ipAddr then {} else w.temp cnt

/-- **What is asked of `FlushTempEntries(ip, true)`**: there is one entry more for every rule that
    is due. -/
structure FlushAdds (w : CtWorld) (ipAddr : UInt32) (s' : NatApp) : Prop where
  cleared : w.Cleared ipAddr s'
  adds : s'.tuples.Perm
    ((w.due ipAddr).map (fun cnt => (w.temp cnt).tuple) ++ w.listener.natInst.tuples)

/-- **What is asked of `FlushTempEntries(ip, false)`**: nothing but the temporary entries changes.
    -/
structure FlushRemoves (w : CtWorld) (ipAddr : UInt32) (s' : NatApp) : Prop where
  cleared : w.Cleared ipAddr s'
  rest : ∃ temp, s' = { w.listener.natInst with temp := temp }

/-- When the flush does that. -/
structure FlushMeets (w : CtWorld) (ipAddr : UInt32) (answer : Nat → Option UInt32) : Prop where
  /-- If a rule is due, the public address fits into 16 bits and the rule is complete. -/
  due : ∀ cnt ∈ w.due ipAddr, w.listener.natInst.pubIpAddr.toNat < 2 ^ 16 ∧
    ¬ (w.temp cnt).Incomplete
  /-- No rule for another address has the same lower half. -/
  only : ∀ cnt < w.tempSize, w.listener.natInst.Tried ipAddr (w.temp cnt) →
    ¬ (w.temp cnt).Incomplete → w.recorded cnt = w.listener.natInst.pubIpAddr
  /-- There are a table, room and new handles for the rules, and none is there already. -/
  accepts : w.listener.natInst.Accepts
    (w.listener.natInst.asked ipAddr answer (List.range w.tempSize))

theorem flush_removes (w : CtWorld) (ipAddr : UInt32) (answer : Nat → Option UInt32) :
    w.FlushRemoves ipAddr (w.listener.natInst.flushTempEntries ipAddr false answer) := by
  rw [flushTempEntries_eq]
  obtain ⟨hrest, hget⟩ := removed_foldl ipAddr answer (List.range w.tempSize) w.listener.natInst
  refine ⟨fun cnt hcnt => ?_, hrest⟩
  refine (hget cnt).trans ?_
  simp only [List.mem_range, hcnt, true_and]
  rfl

theorem toUInt32_toUInt16 {a : UInt32} : a.toUInt16.toUInt32 = a ↔ a.toNat < 2 ^ 16 := by
  rw [← UInt32.toNat_inj]
  simp only [UInt16.toNat_toUInt32, UInt32.toNat_toUInt16]
  omega

/-- The entries that are handed over and added. -/
def added (w : CtWorld) (ipAddr : UInt32) : List Nat :=
  (List.range w.tempSize).filter fun cnt =>
    w.listener.natInst.Tried ipAddr (w.temp cnt) ∧ ¬ (w.temp cnt).Incomplete

theorem added_eq (w : CtWorld) (ipAddr : UInt32) (answer : Nat → Option UInt32) :
    ((w.listener.natInst.asked ipAddr answer (List.range w.tempSize)).filter fun a =>
      ¬ a.rule.Incomplete).map (·.rule.tuple) =
    (w.added ipAddr).map fun cnt => (w.temp cnt).tuple := by
  unfold asked added
  rw [List.filter_map, List.map_map, List.filter_filter]
  refine congrArg₂ _ rfl (List.filter_congr fun cnt _ => Bool.eq_iff_iff.2 ?_)
  simp only [Function.comp_apply, Bool.and_eq_true, decide_eq_true_eq]
  exact and_comm

theorem incomplete_congr {e e' : NatTableEntry} (h : e.tuple = e'.tuple) :
    e.Incomplete ↔ e'.Incomplete := by
  have hconn : e.conn = e'.conn := congrArg NatTuple.conn h
  simp only [NatTableEntry.conn, Conn.mk.injEq] at hconn
  simp only [NatTableEntry.Incomplete, hconn]

theorem pubIpAddr_lt (h : w.listener.natInst.Tried ipAddr (w.temp cnt)) :
    w.listener.natInst.pubIpAddr.toNat < 2 ^ 16 := by
  rw [← h.2, UInt16.toNat_toUInt32]
  exact UInt16.toNat_lt _

theorem Halved.tried (h : w.Halved) (hcnt : cnt ∈ w.due ipAddr)
    (hpub : w.listener.natInst.pubIpAddr.toNat < 2 ^ 16) :
    w.listener.natInst.Tried ipAddr (w.temp cnt) := by
  obtain ⟨-, hdue⟩ := List.mem_filter.1 hcnt
  obtain ⟨hfor, hstored, hrecorded⟩ := of_decide_eq_true hdue
  refine ⟨hfor, ?_⟩
  rw [temp, h cnt hstored, hrecorded]
  exact toUInt32_toUInt16.2 hpub

theorem mem_added : cnt ∈ w.added ipAddr ↔ cnt < w.tempSize ∧
    w.listener.natInst.Tried ipAddr (w.temp cnt) ∧ ¬ (w.temp cnt).Incomplete := by
  simp [added]

theorem cleared_iff (hip : ipAddr ≠ 0) (answer : Nat → Option UInt32) :
    w.Cleared ipAddr (w.listener.natInst.flushTempEntries ipAddr true answer) ↔
      w.listener.natInst.Accepts
        (w.listener.natInst.asked ipAddr answer (List.range w.tempSize)) := by
  have hflushed := flushed_foldl hip answer (List.nodup_range (n := w.tempSize)) w.listener.natInst
  rw [← hflushed.cleared]
  constructor
  · intro h cnt hcnt hfor
    exact (h cnt (List.mem_range.1 hcnt)).trans (if_pos hfor)
  · intro h cnt hcnt
    split
    · next hfor => exact h cnt (List.mem_range.2 hcnt) hfor
    · next hfor => exact hflushed.kept cnt (Or.inr hfor)

theorem due_eq (h : w.Halved)
    (hdue : ∀ cnt ∈ w.due ipAddr, w.listener.natInst.pubIpAddr.toNat < 2 ^ 16 ∧
      ¬ (w.temp cnt).Incomplete) : w.due ipAddr =
    (w.added ipAddr).filter fun cnt => w.recorded cnt = w.listener.natInst.pubIpAddr := by
  unfold added
  rw [List.filter_filter]
  refine List.filter_congr fun cnt hcnt => Bool.eq_iff_iff.2 ?_
  simp only [Bool.and_eq_true, decide_eq_true_eq]
  constructor
  · intro his
    have hmem : cnt ∈ w.due ipAddr := List.mem_filter.2 ⟨hcnt, decide_eq_true his⟩
    obtain ⟨hpub, hcomplete⟩ := hdue cnt hmem
    exact ⟨his.2.2, h.tried hmem hpub, hcomplete⟩
  · rintro ⟨hrecorded, htried, hcomplete⟩
    exact ⟨htried.1, Or.inl fun hzero => hcomplete (Or.inl hzero), hrecorded⟩

theorem flush_adds_iff (h : w.Halved) (hip : ipAddr ≠ 0) :
    w.FlushAdds ipAddr (w.listener.natInst.flushTempEntries ipAddr true answer) ↔
      w.FlushMeets ipAddr answer := by
  have hflushed := flushed_foldl hip answer (List.nodup_range (n := w.tempSize)) w.listener.natInst
  have htuples := hflushed.tuples
  rw [added_eq] at htuples
  constructor
  · rintro ⟨hcleared, hadds⟩
    have haccepts := (cleared_iff hip answer).1 hcleared
    have hperm := (List.perm_append_right_iff _).1 (hadds.symm.trans (htuples haccepts))
    -- what is added was tried, with 16 bits, and complete
    have hdue : ∀ cnt ∈ w.due ipAddr, w.listener.natInst.pubIpAddr.toNat < 2 ^ 16 ∧
        ¬ (w.temp cnt).Incomplete := by
      intro cnt hcnt
      obtain ⟨i, hi, heq⟩ := List.mem_map.1 (hperm.subset (List.mem_map_of_mem hcnt))
      obtain ⟨-, htried, hcomplete⟩ := mem_added.1 hi
      exact ⟨pubIpAddr_lt htried, fun hinc => hcomplete ((incomplete_congr heq).2 hinc)⟩
    have hlength : (w.due ipAddr).length = (w.added ipAddr).length := by
      simpa using hperm.length_eq
    rw [due_eq h hdue, List.length_filter_eq_length_iff] at hlength
    refine ⟨hdue, fun cnt hcnt htried hcomplete => ?_, haccepts⟩
    exact of_decide_eq_true (hlength cnt (mem_added.2 ⟨hcnt, htried, hcomplete⟩))
  · intro hmeets
    refine ⟨(cleared_iff hip answer).2 hmeets.accepts, ?_⟩
    have hall : ∀ cnt ∈ w.added ipAddr,
        decide (w.recorded cnt = w.listener.natInst.pubIpAddr) = true := by
      intro cnt hcnt
      obtain ⟨hlt, htried, hcomplete⟩ := mem_added.1 hcnt
      exact decide_eq_true (hmeets.only cnt hlt htried hcomplete)
    rw [due_eq h hmeets.due, List.filter_eq_self.2 hall]
    exact htuples hmeets.accepts

theorem halved_init (maxEntries : Nat) (algPorts : List IpacmAlg) (pubIpAddrPre wanIpaddr : UInt32)
    (pwrSaveIfs : List UInt32) (isStaMode : Bool) :
    Halved (init (.init maxEntries algPorts pubIpAddrPre pwrSaveIfs) wanIpaddr isStaMode) :=
  fun _ hstored => absurd hstored not_stored_default

/-- **What the flush does** for a client that has an address, in every state that is reached: with
    `isAdd` it does what it should just if the condition holds, and without it always. -/
theorem run_flush {maxEntries : Nat} {algPorts : List IpacmAlg} {pubIpAddrPre wanIpaddr : UInt32}
    {pwrSaveIfs : List UInt32} {isStaMode : Bool} {tr : List (CtWorldEvent × Unit)}
    (run : Run step (fun _ => Possible)
      (init (.init maxEntries algPorts pubIpAddrPre pwrSaveIfs) wanIpaddr isStaMode) tr w)
    (ipAddr : UInt32) (hip : ipAddr ≠ 0) (answer : Nat → Option UInt32) :
    (w.FlushAdds ipAddr (w.listener.natInst.flushTempEntries ipAddr true answer) ↔
      w.FlushMeets ipAddr answer) ∧
    w.FlushRemoves ipAddr (w.listener.natInst.flushTempEntries ipAddr false answer) := by
  have h : w.Halved := by
    refine run.invariant (fun _ w => w.Halved) ?_ ?_
    · exact halved_init maxEntries algPorts pubIpAddrPre wanIpaddr pwrSaveIfs isStaMode
    · intro tr w e w' u h hpossible hstep
      exact h.step hpossible hstep
  exact ⟨flush_adds_iff h hip, flush_removes w ipAddr answer⟩

/-! ### An example -/

/-- A connection from outside to the public address, which is answered from the private subnet. -/
def incoming (publicIp : UInt32) : CtMessage where
  ct := {
    status := 0
    origL4proto := ConntrackListener.ipprotoUdp
    replL4proto := ConntrackListener.ipprotoUdp
    origIpv4Src := 0x08080808
    origIpv4Dst := publicIp
    origPortSrc := 53
    origPortDst := 4000
    replIpv4Src := 0xC0A80002
    replPortSrc := 4000
    replPortDst := 53
    tcpState := 0 }
  type := .new
  privateSubnets := [⟨0xC0A80000, 0xFFFFFF00⟩]

/-- The upstream comes up with the address, and the message arrives. -/
def waiting (publicIp : UInt32) : List CtWorldEvent :=
  [.other (.wanUp publicIp false (some 7) fun _ => none), .msg (incoming publicIp)]

theorem waiting_possible (publicIp : UInt32) : ∀ e ∈ waiting publicIp, Possible e := by
  simp [waiting, Possible]

instance instDecidableCleared (w : CtWorld) (ipAddr : UInt32) (s' : NatApp) :
    Decidable (w.Cleared ipAddr s') :=
  inferInstanceAs (Decidable (∀ cnt < w.tempSize, _ = _))

instance instDecidableFlushAdds (w : CtWorld) (ipAddr : UInt32) (s' : NatApp) :
    Decidable (w.FlushAdds ipAddr s') :=
  decidable_of_iff (w.Cleared ipAddr s' ∧ s'.tuples.Perm
    ((w.due ipAddr).map (fun cnt => (w.temp cnt).tuple) ++ w.listener.natInst.tuples))
    ⟨fun h => ⟨h.1, h.2⟩, fun h => ⟨h.1, h.2⟩⟩

/-- What is due for the client that `incoming` is for, and whether the flush adds it. -/
def outcome (w : CtWorld) : List Nat × Bool :=
  (w.due 0xC0A80002, decide (w.FlushAdds 0xC0A80002
    (w.listener.natInst.flushTempEntries 0xC0A80002 true fun _ => some 3)))

/-- A public address of 16 bits: the rule that waits is added. -/
theorem run_flush_short : ∃ tr w,
    Run step (fun _ => Possible) (init (.init 2 [] 0 []) 0 false) tr w ∧
    w.due 0xC0A80002 = [0] ∧ w.FlushMeets 0xC0A80002 fun _ => some 3 := by
  obtain ⟨tr, w, run, houtcome⟩ : ∃ tr w,
      Run step (fun _ => Possible) (init (.init 2 [] 0 []) 0 false) tr w ∧
      outcome w = ([0], true) :=
    Run.exists_of_exec (show (exec step _ (waiting 5)).toOption.map _ = _ by decide +kernel)
      (waiting_possible 5)
  obtain ⟨hdue, hadds⟩ := Prod.mk.inj houtcome
  have hflush := run_flush run 0xC0A80002 (by decide) fun _ => some 3
  exact ⟨tr, w, run, hdue, hflush.1.1 (of_decide_eq_true hadds)⟩

/-- A public address with more than 16 bits: a rule is due, and nothing is added. -/
theorem run_flush_halved : ¬ ∀ tr w,
    Run step (fun _ => Possible) (init (.init 2 [] 0 []) 0 false) tr w → ∀ ipAddr, ipAddr ≠ 0 →
      ∀ answer, w.FlushAdds ipAddr (w.listener.natInst.flushTempEntries ipAddr true answer) := by
  intro hall
  obtain ⟨tr, w, run, houtcome⟩ : ∃ tr w,
      Run step (fun _ => Possible) (init (.init 2 [] 0 []) 0 false) tr w ∧
      outcome w = ([0], false) :=
    Run.exists_of_exec (show (exec step _ (waiting 0x0A000001)).toOption.map _ = _ by
      decide +kernel) (waiting_possible 0x0A000001)
  have hadds := hall tr w run 0xC0A80002 (by decide) fun _ => some 3
  exact of_decide_eq_false (Prod.mk.inj houtcome).2 hadds

end CtWorld

end Nx508j.Ipacm
