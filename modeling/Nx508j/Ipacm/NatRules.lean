import Nx508j.Ipacm.NatApp

/-! # The cache and the live rules

An entry of the cache that is enabled should have a rule in the table, the one its handle names, and
no other entry that handle. Every operation keeps this, apart from the deletion of a table: `Reset`
was to disable the entries and does not. -/

namespace Nx508j.Ipacm

open Nx508j.Lib Function
open Nx508j.Ipanat (IpaNatIpv4Rule)

/-- The connection a rule of the driver is for. -/
def ruleConn (r : IpaNatIpv4Rule) : Conn :=
  ⟨r.privateIp, r.targetIp, r.privatePort, r.targetPort, r.protocol⟩

namespace IpaNat

variable {a a' : IpaNat} {tblHdl : UInt32} {answer : Option UInt32}

theorem addIpv4Rule_some {rule : IpaNatIpv4Rule} {hdl : UInt32}
    (h : a.addIpv4Rule tblHdl rule answer = (a', some hdl)) :
    a.tbl = some tblHdl ∧ a.rules hdl = none ∧
      a' = { a with rules := update a.rules hdl (some rule) } := by
  unfold addIpv4Rule at h
  cases answer with
  | none => simp at h
  | some hdl' =>
    dsimp only at h
    split at h
    · next hfree =>
      obtain ⟨rfl, rfl⟩ : _ = a' ∧ hdl' = hdl := by simpa using h
      exact ⟨hfree.1, hfree.2.2, rfl⟩
    · simp at h

theorem addIpv4Rule_none {rule : IpaNatIpv4Rule}
    (h : a.addIpv4Rule tblHdl rule answer = (a', none)) : a' = a := by
  unfold addIpv4Rule at h
  cases answer with
  | none => exact (Prod.mk.inj h).1.symm
  | some hdl =>
    dsimp only at h
    split at h
    · simp at h
    · exact (Prod.mk.inj h).1.symm

theorem addIpv4Tbl_cases {numberOfEntries : UInt16} {hdl : UInt32}
    {ok : Bool} (h : a.addIpv4Tbl numberOfEntries tblHdl answer = (a', hdl, ok)) :
    (ok = false ∧ a' = a) ∨
      ok = true ∧ a.tbl = none ∧ a' = { tbl := some hdl, rules := fun _ => none } := by
  have hrefused : ∀ h' : UInt32, (a, h', false) = (a', hdl, ok) → ok = false ∧ a' = a := by
    intro h' h
    obtain ⟨rfl, -, rfl⟩ : a = a' ∧ h' = hdl ∧ false = ok := by simpa using h
    exact ⟨rfl, rfl⟩
  unfold addIpv4Tbl at h
  split at h
  · exact Or.inl (hrefused _ h)
  cases htbl : a.tbl with
  | some _ =>
    rw [htbl] at h
    exact Or.inl (hrefused _ h)
  | none =>
    rw [htbl] at h
    cases answer with
    | none => exact Or.inl (hrefused _ h)
    | some hdl' =>
      dsimp only at h
      split at h
      · exact Or.inl (hrefused _ h)
      · obtain ⟨rfl, rfl, rfl⟩ : _ = a' ∧ hdl' = hdl ∧ true = ok := by simpa using h
        exact Or.inr ⟨rfl, rfl, rfl⟩

theorem delIpv4Rule_cases {ruleHdl : UInt32} {answer ok : Bool}
    (h : a.delIpv4Rule tblHdl ruleHdl answer = (a', ok)) : (ok = false ∧ a' = a) ∨
      ok = true ∧ a' = { a with rules := update a.rules ruleHdl none } := by
  unfold delIpv4Rule at h
  split at h
  · cases h
    exact Or.inr ⟨rfl, rfl⟩
  · cases h
    exact Or.inl ⟨rfl, rfl⟩

end IpaNat

namespace NatApp

variable {s s' : NatApp} {i : Nat} {e : NatTableEntry}

/-- The rule of the entry is live, and for the connection it holds. -/
def RuleLive (s : NatApp) (e : NatTableEntry) : Prop :=
  s.ipaNat.tbl ≠ none ∧ ∃ r, s.ipaNat.rules e.ruleHdl = some r ∧ ruleConn r = e.conn

/-- **The invariant.** Enabled entries have live rules, each its own. -/
structure RulesLive (s : NatApp) : Prop where
  live : ∀ i < s.cache.size, (s.cache.get i).enabled = true → s.RuleLive (s.cache.get i)
  inj : ∀ i < s.cache.size, ∀ j < s.cache.size, (s.cache.get i).enabled = true →
    (s.cache.get j).enabled = true → (s.cache.get i).ruleHdl = (s.cache.get j).ruleHdl → i = j

/-! ## Changes to one entry -/

section

variable (H : s.RulesLive)
include H

theorem RulesLive.set (hcache : s'.cache = s.cache.set i e)
    (hkeep : ∀ j < s.cache.size, j ≠ i → (s.cache.get j).enabled = true →
      s'.RuleLive (s.cache.get j))
    (hnew : e.enabled = true → s'.RuleLive e ∧ ∀ j < s.cache.size, j ≠ i →
      (s.cache.get j).enabled = true → (s.cache.get j).ruleHdl ≠ e.ruleHdl) : s'.RulesLive := by
  constructor
  · intro j hj hen
    rw [hcache, Region.get_set] at hen ⊢
    rw [hcache, Region.size_set] at hj
    split at hen
    · next hji =>
      rw [if_pos hji]
      exact (hnew hen).1
    · next hji =>
      rw [if_neg hji]
      exact hkeep j hj hji hen
  · intro j hj k hk hej hek heq
    rw [hcache, Region.size_set] at hj hk
    rw [hcache, Region.get_set] at hej hek heq
    rw [Region.get_set] at heq
    by_cases hji : j = i
    · by_cases hki : k = i
      · rw [hji, hki]
      · rw [if_pos hji] at hej heq
        rw [if_neg hki] at hek heq
        exact absurd heq.symm ((hnew hej).2 k hk hki hek)
    · rw [if_neg hji] at hej heq
      by_cases hki : k = i
      · rw [if_pos hki] at hek heq
        exact absurd heq ((hnew hek).2 j hj hji hej)
      · rw [if_neg hki] at hek heq
        exact H.inj j hj k hk hej hek heq

theorem RulesLive.congr (hcache : s'.cache = s.cache)
    (hnat : s'.ipaNat = s.ipaNat) : s'.RulesLive := by
  constructor
  · rw [hcache]
    unfold RuleLive
    rw [hnat]
    exact H.live
  · rw [hcache]
    exact H.inj

theorem RulesLive.setPwrSaveIfs (l : List UInt32) : RulesLive { s with pwrSaveIfs := l } :=
  H.congr rfl rfl

theorem RulesLive.setDisabled (hcache : s'.cache = s.cache.set i e)
    (hnat : s'.ipaNat = s.ipaNat) (he : e.enabled = false) : s'.RulesLive := by
  refine H.set hcache (fun j hj _ hen => ?_) fun hen => ?_
  · unfold RuleLive
    rw [hnat]
    exact H.live j hj hen
  · rw [he] at hen
    cases hen

theorem RulesLive.setAdded {rule : IpaNatIpv4Rule} {answer : Option UInt32}
    {hdl : UInt32} {a : IpaNat}
    (hadd : s.ipaNat.addIpv4Rule s.natTableHdl rule answer = (a, some hdl))
    (hcache : s'.cache = s.cache.set i e) (hnat : s'.ipaNat = a) (hhdl : e.ruleHdl = hdl)
    (hconn : e.conn = ruleConn rule) : s'.RulesLive := by
  obtain ⟨htbl, hfree, rfl⟩ := IpaNat.addIpv4Rule_some hadd
  have htaken : ∀ j < s.cache.size, (s.cache.get j).enabled = true →
      (s.cache.get j).ruleHdl ≠ hdl := by
    intro j hj hen heq
    obtain ⟨-, r, hr, -⟩ := H.live j hj hen
    rw [heq, hfree] at hr
    cases hr
  refine H.set hcache (fun j hj _ hen => ?_) fun _ => ⟨?_, fun j hj _ hen => ?_⟩
  · obtain ⟨hne, r, hr, hc⟩ := H.live j hj hen
    unfold RuleLive
    rw [hnat]
    refine ⟨hne, r, ?_, hc⟩
    dsimp only
    rw [update_of_ne (htaken j hj hen)]
    exact hr
  · unfold RuleLive
    rw [hnat, hhdl]
    refine ⟨by rw [htbl]; simp, rule, update_self .., hconn.symm⟩
  · rw [hhdl]
    exact htaken j hj hen

theorem RulesLive.setDeleted {answer : Bool} {a : IpaNat}
    (hi : i < s.cache.size) (hen : (s.cache.get i).enabled = true)
    (hdel : s.ipaNat.delIpv4Rule s.natTableHdl (s.cache.get i).ruleHdl answer = (a, true))
    (hcache : s'.cache = s.cache.set i e) (hnat : s'.ipaNat = a) (he : e.enabled = false) :
    s'.RulesLive := by
  rcases IpaNat.delIpv4Rule_cases hdel with ⟨hok, -⟩ | ⟨-, rfl⟩
  · cases hok
  refine H.set hcache (fun j hj hji henj => ?_) fun hen' => ?_
  · obtain ⟨hne, r, hr, hc⟩ := H.live j hj henj
    unfold RuleLive
    rw [hnat]
    refine ⟨hne, r, ?_, hc⟩
    dsimp only
    rw [update_of_ne]
    · exact hr
    · exact fun heq => hji (H.inj j hj i hi henj hen heq)
  · rw [he] at hen'
    cases hen'

/-! ## Loops -/

/-- **The rule for a loop over the cache.** -/
theorem RulesLive.forCache {f : NatApp → Nat → NatApp}
    (hstep : ∀ s cnt, s.RulesLive → cnt < s.cache.size →
      (f s cnt).RulesLive ∧ (f s cnt).cache.size = s.cache.size) : (s.forCache f).RulesLive := by
  have hinv : (s.forCache f).RulesLive ∧ (s.forCache f).cache.size = s.cache.size := by
    refine List.foldlRecOn (motive := fun b => b.RulesLive ∧ b.cache.size = s.cache.size)
      (List.range s.cache.size) f ⟨H, rfl⟩ ?_
    rintro b ⟨Hb, hsize⟩ cnt hcnt
    obtain ⟨H', hsize'⟩ := hstep b cnt Hb (by rw [hsize]; exact List.mem_range.1 hcnt)
    exact ⟨H', hsize'.trans hsize⟩
  exact hinv.1

theorem RulesLive.clearEntry (cnt : Nat) : (s.clearEntry cnt).RulesLive :=
  H.setDisabled rfl rfl rfl

theorem RulesLive.restoreEntry (answer : Option UInt32) (cnt : Nat) :
    (s.restoreEntry answer cnt).RulesLive ∧
      (s.restoreEntry answer cnt).cache.size = s.cache.size := by
  unfold NatApp.restoreEntry
  dsimp only
  split
  · next a hdl hadd => exact ⟨H.setAdded hadd rfl rfl rfl rfl, rfl⟩
  · exact ⟨H.clearEntry cnt, rfl⟩

theorem RulesLive.disableEntry {f : NatTableEntry → NatTableEntry} {cnt : Nat}
    (hcnt : cnt < s.cache.size) (hen : (s.cache.get cnt).enabled = true)
    (hf : ∀ e, (f e).enabled = false) (answer : Bool) : (s.disableEntry answer f cnt).RulesLive ∧
      (s.disableEntry answer f cnt).cache.size = s.cache.size := by
  unfold NatApp.disableEntry
  dsimp only
  split
  · next a hdel => exact ⟨H.setDeleted hcnt hen hdel rfl rfl (hf _), rfl⟩
  · exact ⟨H, rfl⟩

end

/-! ## The operations -/

theorem findConn_some {conn : Conn} {cnt : Nat} (h : s.findConn conn cnt = some i) :
    i < s.cache.size ∧ (s.cache.get i).conn = conn := by
  have hmem := List.mem_of_find?_eq_some h
  have hconn := List.find?_some h
  rw [List.mem_range'_1] at hmem
  exact ⟨by omega, by simpa using hconn⟩

section

variable (H : s.RulesLive)
include H

theorem RulesLive.fillEntry (cnt : Nat) (rule : NatTableEntry) (hdl : UInt32) :
    (s.fillEntry cnt rule false hdl).RulesLive :=
  H.setDisabled rfl rfl rfl

theorem RulesLive.addEntry (rule : NatTableEntry) (answer : Option UInt32) :
    (s.addEntry rule answer).1.RulesLive := by
  unfold NatApp.addEntry
  split
  · exact H
  split
  · exact H
  split
  · exact H
  split
  · exact H
  split
  · exact H
  next cnt hfree =>
  split
  · exact H.fillEntry cnt rule 0
  · split
    · next a hdl hadd => exact H.setAdded hadd rfl rfl rfl rfl
    · exact H

theorem RulesLive.deleteEntry (rule : NatTableEntry) (answer : Bool) :
    (s.deleteEntry rule answer).1.RulesLive := by
  unfold NatApp.deleteEntry
  split
  · exact H
  next cnt hfind =>
  obtain ⟨hcnt, -⟩ := findConn_some hfind
  dsimp only
  split
  · next hen =>
    generalize hdel : s.ipaNat.delIpv4Rule s.natTableHdl (s.cache.get cnt).ruleHdl answer = d
    obtain ⟨a, ok⟩ := d
    cases ok with
    | true => exact H.setDeleted hcnt hen hdel rfl rfl rfl
    | false =>
      rcases IpaNat.delIpv4Rule_cases hdel with ⟨-, rfl⟩ | ⟨hok, -⟩
      · exact H.setDisabled rfl rfl rfl
      · cases hok
  · exact H.setDisabled rfl rfl rfl

theorem RulesLive.updateUdpTimeStamp (answer : Nat → Option UInt32)
    (ctUpdated : Nat → Bool) : (s.updateUdpTimeStamp answer ctUpdated).RulesLive := by
  refine H.forCache fun s cnt H hcnt => ?_
  dsimp only
  split
  swap
  · exact ⟨H, rfl⟩
  next hen =>
  split
  · exact ⟨H, rfl⟩
  split
  · exact ⟨H, rfl⟩
  split
  swap
  · exact ⟨H, rfl⟩
  refine ⟨H.set rfl (fun j hj _ henj => H.live j hj henj) fun _ => ⟨H.live cnt hcnt hen, ?_⟩, rfl⟩
  exact fun j hj hne henj heq => hne (H.inj j hj cnt hcnt henj hen heq)

theorem RulesLive.updatePwrSaveIf (clientLanIp : UInt32) (answer : Nat → Bool) :
    (s.updatePwrSaveIf clientLanIp answer).1.RulesLive := by
  unfold NatApp.updatePwrSaveIf
  split
  · exact H
  split
  · exact H
  refine (H.setPwrSaveIfs _).forCache fun s cnt H hcnt => ?_
  split
  · next hc => exact H.disableEntry hcnt hc.2 (fun _ => rfl) _
  · exact ⟨H, rfl⟩

theorem RulesLive.resetPwrSaveIf (clientLanIp : UInt32)
    (answer : Nat → Option UInt32) : (s.resetPwrSaveIf clientLanIp answer).1.RulesLive := by
  unfold NatApp.resetPwrSaveIf
  split
  · exact H
  refine (H.setPwrSaveIfs _).forCache fun s cnt H hcnt => ?_
  split
  · exact H.restoreEntry _ cnt
  · exact ⟨H, rfl⟩

theorem RulesLive.flushTempEntries (ipAddr : UInt32) (isAdd : Bool)
    (answer : Nat → Option UInt32) : (s.flushTempEntries ipAddr isAdd answer).RulesLive := by
  refine List.foldlRecOn (motive := RulesLive) _ _ H fun s H cnt _ => ?_
  dsimp only
  split
  swap
  · exact H
  split
  · split
    · exact H.addEntry _ _
    · exact (H.addEntry _ _).congr rfl rfl
  · exact H.congr rfl rfl

theorem RulesLive.delEntriesOnClntDiscon (ipAddr : UInt32)
    (answer : Nat → Bool) : (s.delEntriesOnClntDiscon ipAddr answer).1.RulesLive := by
  unfold NatApp.delEntriesOnClntDiscon
  split
  · exact H
  refine (H.setPwrSaveIfs _).forCache fun s cnt H hcnt => ?_
  split
  · next hc => exact H.disableEntry hcnt hc.2 (fun _ => rfl) _
  · exact ⟨H, rfl⟩

theorem RulesLive.delEntriesOnStaClntDiscon (ipAddr : UInt32)
    (answer : Nat → Bool) : (s.delEntriesOnStaClntDiscon ipAddr answer).1.RulesLive := by
  unfold NatApp.delEntriesOnStaClntDiscon
  split
  · exact H
  dsimp only
  refine H.forCache fun s cnt H hcnt => ?_
  split
  swap
  · exact ⟨H, rfl⟩
  split
  · next hen =>
    split
    · next a hdel => exact ⟨H.setDeleted hcnt hen hdel rfl rfl rfl, rfl⟩
    · exact ⟨H, rfl⟩
  · exact ⟨H.clearEntry cnt, rfl⟩

theorem RulesLive.cacheEntry {rule : NatTableEntry} {cnt : Int}
    (h : s.cacheEntry rule cnt = .ok s') : s'.RulesLive := by
  unfold NatApp.cacheEntry at h
  split at h
  · exact Except.ok.inj h ▸ H
  split at h
  · exact Except.ok.inj h ▸ H
  split at h
  · cases h
  split at h
  · exact Except.ok.inj h ▸ H
  · next i hfind => exact Except.ok.inj h ▸ H.fillEntry i rule 0

/-- No entry is enabled while there is no table, so those that are restored into a new one get rules
    of it. -/
theorem RulesLive.addTable (pubIp : UInt32) (tblAnswer : Option UInt32)
    (answer : Nat → Option UInt32) : (s.addTable pubIp tblAnswer answer).1.RulesLive := by
  unfold NatApp.addTable
  generalize hadd : s.ipaNat.addIpv4Tbl (UInt16.ofNat s.cache.size) s.natTableHdl tblAnswer = d
  obtain ⟨a, hdl, ok⟩ := d
  rcases IpaNat.addIpv4Tbl_cases hadd with ⟨rfl, rfl⟩ | ⟨rfl, htbl, rfl⟩
  · exact H.congr rfl rfl
  have hnone : ∀ j < s.cache.size, (s.cache.get j).enabled ≠ true :=
    fun j hj hen => (H.live j hj hen).1 htbl
  have H' : RulesLive { s with
      ipaNat := { tbl := some hdl, rules := fun _ => none }
      natTableHdl := hdl } := by
    refine ⟨fun j hj hen => absurd hen (hnone j hj), fun j hj k _ hen => ?_⟩
    exact absurd hen (hnone j hj)
  dsimp only
  rw [if_pos rfl]
  split
  · refine RulesLive.congr (H'.forCache fun s cnt H hcnt => ?_) rfl rfl
    split
    · exact H.restoreEntry _ cnt
    · exact ⟨H, rfl⟩
  · exact H'.congr rfl rfl

theorem RulesLive.addTempEntry (newEntry : NatTableEntry) :
    (s.addTempEntry newEntry).RulesLive := by
  unfold NatApp.addTempEntry
  dsimp only
  split
  · exact H.congr rfl rfl
  · exact H

theorem RulesLive.deleteTempEntry (entry : NatTableEntry) :
    (s.deleteTempEntry entry).RulesLive := by
  unfold NatApp.deleteTempEntry
  split
  · exact H.congr rfl rfl
  · exact H

end

/-- The deletion goes through: the application believes there is a table with this address, the
    driver has it, and deletes it. -/
def Drops (s : NatApp) (pubIp : UInt32) (answer : Bool) : Prop :=
  s.natTableHdl ≠ 0 ∧ s.pubIpAddr = pubIp ∧ s.ipaNat.tbl = some s.natTableHdl ∧ answer = true

theorem deleteTable_cases (s : NatApp) (pubIp : UInt32) (answer : Bool) :
    (¬ s.Drops pubIp answer ∧ (s.deleteTable pubIp answer).1.cache = s.cache ∧
        (s.deleteTable pubIp answer).1.ipaNat = s.ipaNat) ∨
      s.Drops pubIp answer ∧ (s.deleteTable pubIp answer).1.cache = s.cache ∧
        (s.deleteTable pubIp answer).1.ipaNat = { tbl := none, rules := fun _ => none } := by
  unfold NatApp.deleteTable
  split
  · next h0 => exact Or.inl ⟨fun h => h.1 h0, rfl, rfl⟩
  split
  · next hpub => exact Or.inl ⟨fun h => hpub h.2.1, rfl, rfl⟩
  next h0 hpub =>
  unfold IpaNat.delIpv4Tbl
  by_cases hdel : s.ipaNat.tbl = some s.natTableHdl ∧ answer = true
  · rw [if_pos hdel]
    exact Or.inr ⟨⟨h0, not_not.1 hpub, hdel.1, hdel.2⟩, rfl, rfl⟩
  · rw [if_neg hdel]
    exact Or.inl ⟨fun h => hdel ⟨h.2.2.1, h.2.2.2⟩, rfl, rfl⟩

theorem RulesLive.deleteTable_iff (H : s.RulesLive) (pubIp : UInt32) (answer : Bool) :
    (s.deleteTable pubIp answer).1.RulesLive ↔
      (s.Drops pubIp answer → ∀ i < s.cache.size, (s.cache.get i).enabled = false) := by
  rcases deleteTable_cases s pubIp answer with ⟨hno, hcache, hnat⟩ | ⟨hdrop, hcache, hnat⟩
  · exact iff_of_true (H.congr hcache hnat) fun h => absurd h hno
  constructor
  · intro H' _ i hi
    by_contra hen
    have hen : (s.cache.get i).enabled = true := by simpa using hen
    obtain ⟨hne, -⟩ := H'.live i (by rwa [hcache]) (by rwa [hcache])
    rw [hnat] at hne
    exact hne rfl
  · intro hall
    have hdis := hall hdrop
    constructor
    · intro j hj hen
      rw [hcache] at hj hen
      rw [hdis j hj] at hen
      cases hen
    · intro j hj k _ hen
      rw [hcache] at hj hen
      rw [hdis j hj] at hen
      cases hen

theorem RulesLive.deleteEntry_spares (H : s.RulesLive) (rule : NatTableEntry) (answer : Bool)
    {hdl : UInt32} {r : IpaNatIpv4Rule} (hr : s.ipaNat.rules hdl = some r)
    (hne : ruleConn r ≠ rule.conn) : (s.deleteEntry rule answer).1.ipaNat.rules hdl = some r := by
  unfold NatApp.deleteEntry
  split
  · exact hr
  next cnt hfind =>
  obtain ⟨hcnt, hconn⟩ := findConn_some hfind
  dsimp only
  split
  swap
  · exact hr
  next hen =>
  obtain ⟨-, r', hr', hc'⟩ := H.live cnt hcnt hen
  generalize hdel : s.ipaNat.delIpv4Rule s.natTableHdl (s.cache.get cnt).ruleHdl answer = d
  obtain ⟨a, ok⟩ := d
  change a.rules hdl = some r
  rcases IpaNat.delIpv4Rule_cases hdel with ⟨-, rfl⟩ | ⟨-, rfl⟩
  · exact hr
  · dsimp only
    rw [update_of_ne]
    · exact hr
    · rintro rfl
      rw [hr] at hr'
      cases hr'
      exact hne (hc'.trans hconn)

theorem rulesLive_init (maxEntries : Nat) (algPorts : List IpacmAlg) (pubIpAddrPre : UInt32)
    (pwrSaveIfs : List UInt32) : (init maxEntries algPorts pubIpAddrPre pwrSaveIfs).RulesLive where
  live i _ hen := by cases hen
  inj i _ j _ hen := by cases hen

end NatApp

open NatApp

/-- No table is deleted under entries that are enabled. -/
def NatOp.Tidy (s : NatApp) : NatOp → Prop
  | .deleteTable pubIp answer =>
    s.Drops pubIp answer → ∀ i < s.cache.size, (s.cache.get i).enabled = false
  | _ => True

variable {s s' : NatApp} {op : NatOp} {ret : Int}

/-- What an operation keeps: the invariant, unless it deletes a table under entries that are
    enabled. -/
theorem NatApp.RulesLive.ends (H : s.RulesLive) (hop : op.Tidy s) :
    Ends (fun _ => True) (natStep s op) fun r => r.1.RulesLive := by
  cases op with
  | addTable pubIp tblAnswer answer => exact H.addTable pubIp tblAnswer answer
  | deleteTable pubIp answer => exact (H.deleteTable_iff pubIp answer).2 hop
  | addEntry rule answer => exact H.addEntry rule answer
  | deleteEntry rule answer => exact H.deleteEntry rule answer
  | updateUdpTimeStamp answer ctUpdated => exact H.updateUdpTimeStamp answer ctUpdated
  | updatePwrSaveIf clientLanIp answer => exact H.updatePwrSaveIf clientLanIp answer
  | resetPwrSaveIf clientLanIp answer => exact H.resetPwrSaveIf clientLanIp answer
  | addTempEntry newEntry => exact H.addTempEntry newEntry
  | deleteTempEntry entry => exact H.deleteTempEntry entry
  | flushTempEntries ipAddr isAdd answer => exact H.flushTempEntries ipAddr isAdd answer
  | delEntriesOnClntDiscon ipAddr answer => exact H.delEntriesOnClntDiscon ipAddr answer
  | delEntriesOnStaClntDiscon ipAddr answer => exact H.delEntriesOnStaClntDiscon ipAddr answer
  | cacheEntry rule cnt =>
    have hcache : Ends (fun _ => True) (s.cacheEntry rule cnt) RulesLive := by
      cases h : s.cacheEntry rule cnt with
      | error f => trivial
      | ok s' => exact H.cacheEntry h
    exact hcache.bind fun _ _ H' => H'

/-- **An operation keeps the invariant** if and only if it does not delete a table under entries
    that are enabled. -/
theorem NatApp.RulesLive.step (H : s.RulesLive) (h : natStep s op = .ok (s', ret)) :
    s'.RulesLive ↔ op.Tidy s := by
  constructor
  · intro H'
    cases op with
    | deleteTable pubIp answer =>
      have hs' : (s.deleteTable pubIp answer).1 = s' := (ok_pair h).1
      rw [← hs'] at H'
      exact (H.deleteTable_iff pubIp answer).1 H'
    | _ => trivial
  · intro hop
    have hends := H.ends hop
    rw [h] at hends
    exact hends

/-- **Enabled entries have rules of their own.** In every state of a run in which no table is deleted
    under entries that are enabled, the entries that are enabled have live rules for the connections
    they hold, each its own; the deletion of an entry deletes no rule of another connection; and the
    next operation keeps all this unless it deletes a table under such entries. -/
theorem run_rules_live {maxEntries : Nat} {algPorts : List IpacmAlg} {pubIpAddrPre : UInt32}
    {pwrSaveIfs : List UInt32} {tr : List (NatOp × Int)}
    (hrun : Run natStep (fun s op => op.Tidy s)
      (.init maxEntries algPorts pubIpAddrPre pwrSaveIfs) tr s) :
    s.RulesLive ∧
      (∀ rule answer hdl r, s.ipaNat.rules hdl = some r → ruleConn r ≠ rule.conn →
        (s.deleteEntry rule answer).1.ipaNat.rules hdl = some r) ∧
      ∀ op s' ret, natStep s op = .ok (s', ret) → (s'.RulesLive ↔ op.Tidy s) := by
  have H : s.RulesLive := hrun.invariant (fun _ s => s.RulesLive)
    (rulesLive_init maxEntries algPorts pubIpAddrPre pwrSaveIfs)
    fun _ _ _ _ _ H hop h => (H.step h).2 hop
  exact ⟨H, fun rule answer _ _ hr hne => H.deleteEntry_spares rule answer hr hne,
    fun _ _ _ h => H.step h⟩

/-! ### An example -/

def webEntry : NatTableEntry where
  privateIp := 0xC0A80002
  privatePort := 4000
  targetIp := 0x08080808
  targetPort := 80
  publicPort := 5000
  protocol := 6

theorem run_rules_live_example : ∃ s tr,
    exec natStep (.init 2 [] 0 []) [.addTable 7 (some 1) fun _ => none, .addEntry webEntry (some 1),
      .deleteEntry webEntry true] = .ok (s, tr) ∧ s.RulesLive := by
  obtain ⟨s, tr, hexec⟩ : ∃ s tr, exec natStep (.init 2 [] 0 [])
      [.addTable 7 (some 1) fun _ => none, .addEntry webEntry (some 1),
        .deleteEntry webEntry true] = .ok (s, tr) := ⟨_, _, rfl⟩
  refine ⟨s, tr, hexec, ?_⟩
  have hrun : Run natStep (fun _ op => ∀ pubIp answer, op ≠ .deleteTable pubIp answer)
      (.init 2 [] 0 []) tr s := Run.of_exec hexec (by simp)
  refine (run_rules_live (hrun.imp fun s op hop => ?_)).1
  cases op with
  | deleteTable pubIp answer => exact absurd rfl (hop pubIp answer)
  | _ => trivial

/-- Another connection of the same client. -/
def mailEntry : NatTableEntry := { webEntry with targetPort := 25, publicPort := 5001 }

/-- A table goes and another comes, for a new address; the handle of an entry that stayed enabled is
    that of a new rule, and deleting the entry deletes it. -/
theorem run_rules_live_stale : ¬ ∀ s tr, Run natStep (fun _ _ => True) (.init 2 [] 0 []) tr s →
    s.RulesLive ∧ ∀ rule answer hdl r, s.ipaNat.rules hdl = some r → ruleConn r ≠ rule.conn →
      (s.deleteEntry rule answer).1.ipaNat.rules hdl = some r := by
  intro hall
  obtain ⟨s, tr, hexec, hrule, hgone⟩ : ∃ s tr, exec natStep (.init 2 [] 0 [])
      [.addTable 7 (some 1) fun _ => none, .addEntry webEntry (some 1), .deleteTable 7 true,
        .addTable 9 (some 1) fun _ => none, .addEntry mailEntry (some 1)] = .ok (s, tr) ∧
      s.ipaNat.rules 1 = some mailEntry.natRule ∧
      (s.deleteEntry webEntry true).1.ipaNat.rules 1 = none := ⟨_, _, rfl, rfl, rfl⟩
  have hlive := (hall s tr (Run.of_exec hexec fun _ _ => trivial)).2 webEntry true 1 _ hrule
    (by decide)
  rw [hgone] at hlive
  cases hlive

end Nx508j.Ipacm
