import Nx508j.Ipacm.NatCache

/-! # Clients in power save

An entry with an address in the power-save list is to have no rule. `AddEntry` looks at both
addresses of a connection; the operations that disable or enable the entries of a client look at the
private one, and those that enable them do not look into the list at all. -/

namespace Nx508j.Ipacm

open Nx508j.Lib

namespace NatApp

variable {s s' : NatApp} {i : Nat} {e : NatTableEntry}

/-- One of the addresses of the entry is that of a client in power save. -/
def Saved (s : NatApp) (e : NatTableEntry) : Prop :=
  s.isPwrSaveIf e.privateIp = true ∨ s.isPwrSaveIf e.targetIp = true

/-- **The property.** The entries of clients in power save are disabled. -/
def SavedDisabled (s : NatApp) : Prop :=
  ∀ i < s.cache.size, (s.cache.get i).enabled = true → ¬ s.Saved (s.cache.get i)

theorem isPwrSaveIf_iff {ip : UInt32} : s.isPwrSaveIf ip = true ↔ ip ≠ 0 ∧ ip ∈ s.pwrSaveIfs := by
  unfold isPwrSaveIf
  rw [List.any_eq_true]
  constructor
  · rintro ⟨p, hp, h⟩
    obtain ⟨hne, rfl⟩ : p ≠ 0 ∧ ip = p := by simpa using h
    exact ⟨hne, hp⟩
  · rintro ⟨hne, hmem⟩
    exact ⟨ip, hmem, by simpa using hne⟩

theorem mem_replace_of_ne {l : List UInt32} {a b x : UInt32} (hx : x ≠ a) :
    x ∈ l.replace a b ↔ x ∈ l ∨ x = b ∧ a ∈ l := by
  induction l with
  | nil => simp
  | cons c l ih =>
    rw [List.replace_cons]
    by_cases hc : a = c
    · subst hc
      rw [beq_self_eq_true]
      simp [hx, or_comm]
    · rw [beq_eq_false_iff_ne.2 hc]
      rw [List.mem_cons, List.mem_cons, List.mem_cons, ih, or_iff_right hc]
      exact or_assoc.symm

section

variable (H : s.SavedDisabled)
include H

theorem SavedDisabled.of (hsize : s'.cache.size = s.cache.size)
    (hlist : ∀ e, s'.Saved e → s.Saved e)
    (hget : ∀ i < s.cache.size, (s'.cache.get i).enabled = true →
      ((s.cache.get i).enabled = true ∧ (s'.cache.get i).conn = (s.cache.get i).conn) ∨
        ¬ s.Saved (s'.cache.get i)) : s'.SavedDisabled := by
  intro i hi hen hsaved
  rw [hsize] at hi
  have hsaved := hlist _ hsaved
  rcases hget i hi hen with ⟨hen', hconn⟩ | hno
  · refine H i hi hen' ?_
    have hprivate := congrArg Conn.privateIp hconn
    have htarget := congrArg Conn.targetIp hconn
    dsimp only [NatTableEntry.conn] at hprivate htarget
    unfold Saved at hsaved
    rwa [hprivate, htarget] at hsaved
  · exact hno hsaved

theorem SavedDisabled.congr (hcache : s'.cache = s.cache)
    (hlist : s'.pwrSaveIfs = s.pwrSaveIfs) : s'.SavedDisabled := by
  refine H.of (by rw [hcache]) ?_ fun i _ hen => Or.inl ?_
  · unfold Saved isPwrSaveIf
    rw [hlist]
    exact fun _ h => h
  · rw [hcache] at hen ⊢
    exact ⟨hen, rfl⟩

theorem SavedDisabled.set (hcache : s'.cache = s.cache.set i e)
    (hlist : s'.pwrSaveIfs = s.pwrSaveIfs)
    (he : e.enabled = true → ((s.cache.get i).enabled = true ∧ e.conn = (s.cache.get i).conn) ∨
      ¬ s.Saved e) : s'.SavedDisabled := by
  refine H.of (by rw [hcache]; rfl) ?_ fun j _ hen => ?_
  · unfold Saved isPwrSaveIf
    rw [hlist]
    exact fun _ h => h
  · rw [hcache, Region.get_set] at hen ⊢
    split at hen
    · next hji =>
      rw [if_pos hji, hji]
      exact he hen
    · next hji =>
      rw [if_neg hji]
      exact Or.inl ⟨hen, rfl⟩

theorem SavedDisabled.setDisabled (hcache : s'.cache = s.cache.set i e)
    (hlist : s'.pwrSaveIfs = s.pwrSaveIfs) (he : e.enabled = false) : s'.SavedDisabled :=
  H.set hcache hlist fun hen => by
    rw [he] at hen
    cases hen

/-- **The rule for a loop over the cache.** -/
theorem SavedDisabled.forCache {f : NatApp → Nat → NatApp}
    (hstep : ∀ s cnt, s.SavedDisabled → (f s cnt).SavedDisabled) : (s.forCache f).SavedDisabled :=
  forEntries_induction (fun _ b => b.SavedDisabled) H fun k b _ hb => hstep b k hb

/-! ## The operations that heed the list -/

theorem SavedDisabled.fillEntry (cnt : Nat) {rule : NatTableEntry}
    {enabled : Bool} {hdl : UInt32} (hen : enabled = true → ¬ s.Saved rule) :
    (s.fillEntry cnt rule enabled hdl).SavedDisabled :=
  H.set rfl rfl fun he => Or.inr (hen he)

theorem SavedDisabled.addEntry (rule : NatTableEntry)
    (answer : Option UInt32) : (s.addEntry rule answer).1.SavedDisabled := by
  unfold NatApp.addEntry
  split
  · exact H
  split
  · exact H
  split
  · exact H
  split
  · exact H
  split
  · exact H
  next cnt hfree =>
  split
  · exact H.fillEntry cnt fun h => by cases h
  · next hsaved =>
    split
    · next a hdl hadd =>
      have H' : SavedDisabled { s with ipaNat := a } := H.congr rfl rfl
      exact H'.fillEntry cnt fun _ => hsaved
    · exact H

theorem SavedDisabled.deleteEntry (rule : NatTableEntry) (answer : Bool) :
    (s.deleteEntry rule answer).1.SavedDisabled := by
  unfold NatApp.deleteEntry
  split
  · exact H
  · exact H.setDisabled rfl rfl rfl

theorem SavedDisabled.deleteTable (pubIp : UInt32) (answer : Bool) :
    (s.deleteTable pubIp answer).1.SavedDisabled := by
  unfold NatApp.deleteTable
  split
  · exact H
  split
  · exact H
  dsimp only
  split <;> exact H.congr rfl rfl

theorem SavedDisabled.updateUdpTimeStamp (answer : Nat → Option UInt32)
    (ctUpdated : Nat → Bool) : (s.updateUdpTimeStamp answer ctUpdated).SavedDisabled := by
  refine H.forCache fun s cnt H => ?_
  dsimp only
  split
  swap
  · exact H
  next hen =>
  split
  · exact H
  split
  · exact H
  split
  · exact H.set rfl rfl fun _ => Or.inl ⟨hen, rfl⟩
  · exact H

theorem SavedDisabled.disableEntry {f : NatTableEntry → NatTableEntry}
    (hf : ∀ e, (f e).enabled = false) (answer : Bool) (cnt : Nat) :
    (s.disableEntry answer f cnt).SavedDisabled := by
  unfold NatApp.disableEntry
  dsimp only
  split
  · exact H.setDisabled rfl rfl (hf _)
  · exact H

theorem SavedDisabled.unsaved (clientLanIp : UInt32) : (s.unsaved clientLanIp).SavedDisabled := by
  have hlist : ∀ ip, (s.unsaved clientLanIp).isPwrSaveIf ip = true → s.isPwrSaveIf ip = true := by
    intro ip h
    obtain ⟨hne, hmem⟩ := isPwrSaveIf_iff.1 h
    refine isPwrSaveIf_iff.2 ⟨hne, ?_⟩
    by_cases hip : ip = clientLanIp
    · by_contra hno
      rw [hip] at hno
      unfold NatApp.unsaved at hmem
      rw [List.replace_of_not_mem hno, hip] at hmem
      exact hno hmem
    · exact ((mem_replace_of_ne hip).1 hmem).resolve_right fun h => hne h.1
  refine H.of rfl (fun e h => h.imp (hlist _) (hlist _)) fun i _ hen => Or.inl ⟨hen, rfl⟩

theorem SavedDisabled.delEntriesOnClntDiscon (ipAddr : UInt32)
    (answer : Nat → Bool) : (s.delEntriesOnClntDiscon ipAddr answer).1.SavedDisabled := by
  unfold NatApp.delEntriesOnClntDiscon
  split
  · exact H
  refine (H.unsaved ipAddr).forCache fun s cnt H => ?_
  split
  · exact H.disableEntry (fun _ => rfl) _ cnt
  · exact H

theorem SavedDisabled.delEntriesOnStaClntDiscon (ipAddr : UInt32)
    (answer : Nat → Bool) : (s.delEntriesOnStaClntDiscon ipAddr answer).1.SavedDisabled := by
  unfold NatApp.delEntriesOnStaClntDiscon
  split
  · exact H
  refine H.forCache fun s cnt H => ?_
  dsimp only
  split
  swap
  · exact H
  split
  · split
    · exact H.setDisabled rfl rfl rfl
    · exact H
  · exact H.setDisabled rfl rfl rfl

theorem SavedDisabled.flushTempEntries (ipAddr : UInt32) (isAdd : Bool)
    (answer : Nat → Option UInt32) : (s.flushTempEntries ipAddr isAdd answer).SavedDisabled := by
  refine List.foldlRecOn (motive := SavedDisabled) _ _ H fun s H cnt _ => ?_
  dsimp only
  split
  swap
  · exact H
  split
  · split
    · exact H.addEntry _ _
    · exact (H.addEntry _ _).congr rfl rfl
  · exact H.congr rfl rfl

theorem SavedDisabled.addTempEntry (newEntry : NatTableEntry) :
    (s.addTempEntry newEntry).SavedDisabled := by
  unfold NatApp.addTempEntry
  dsimp only
  split
  · exact H.congr rfl rfl
  · exact H

theorem SavedDisabled.deleteTempEntry (entry : NatTableEntry) :
    (s.deleteTempEntry entry).SavedDisabled := by
  unfold NatApp.deleteTempEntry
  split
  · exact H.congr rfl rfl
  · exact H

theorem SavedDisabled.cacheEntry {rule : NatTableEntry} {cnt : Int}
    (h : s.cacheEntry rule cnt = .ok s') : s'.SavedDisabled := by
  unfold NatApp.cacheEntry at h
  split at h
  · exact Except.ok.inj h ▸ H
  split at h
  · exact Except.ok.inj h ▸ H
  split at h
  · cases h
  split at h
  · exact Except.ok.inj h ▸ H
  · next i hfree => exact Except.ok.inj h ▸ H.fillEntry i fun h => by cases h

end

/-! ## The operations that do not -/

/-- An entry that `UpdatePwrSaveIf` disables. -/
def Active (clientLanIp : UInt32) (e : NatTableEntry) : Prop :=
  e.privateIp = clientLanIp ∧ e.enabled = true

instance (clientLanIp : UInt32) : DecidablePred (Active clientLanIp) :=
  fun _ => inferInstanceAs (Decidable (_ ∧ _))

/-- Power save of a client disables all its connections: where it gets into the list, every enabled
    entry with its address has it as the private one, and yields its rule. -/
def Silenced (s : NatApp) (clientLanIp : UInt32) (answer : Nat → Bool) : Prop :=
  clientLanIp ≠ 0 → clientLanIp ∉ s.pwrSaveIfs → 0 ∈ s.pwrSaveIfs →
    ∀ i < s.cache.size, (s.cache.get i).enabled = true →
      (s.cache.get i).privateIp = clientLanIp ∨ (s.cache.get i).targetIp = clientLanIp →
      (s.cache.get i).privateIp = clientLanIp ∧ s.Yields (Active clientLanIp) answer i

theorem updatePwrSaveIf_eq {clientLanIp : UInt32} (hip : clientLanIp ≠ invalidIpAddr)
    (hnew : clientLanIp ∉ s.pwrSaveIfs) (answer : Nat → Bool) :
    (s.updatePwrSaveIf clientLanIp answer).1 =
      NatApp.forCache { s with pwrSaveIfs := s.pwrSaveIfs.replace 0 clientLanIp } fun s cnt =>
        if Active clientLanIp (s.cache.get cnt) then
          s.disableEntry (answer cnt) (fun e => { e with enabled := false, ruleHdl := 0 }) cnt
        else s := by
  unfold NatApp.updatePwrSaveIf
  rw [if_neg hip, if_neg hnew]
  rfl

theorem SavedDisabled.updatePwrSaveIf_iff (H : s.SavedDisabled) (clientLanIp : UInt32)
    (answer : Nat → Bool) : (s.updatePwrSaveIf clientLanIp answer).1.SavedDisabled ↔
      s.Silenced clientLanIp answer := by
  by_cases hip : clientLanIp = invalidIpAddr
  · unfold NatApp.updatePwrSaveIf
    rw [if_pos hip]
    exact iff_of_true H fun hne => absurd hip hne
  by_cases hnew : clientLanIp ∈ s.pwrSaveIfs
  · unfold NatApp.updatePwrSaveIf
    rw [if_neg hip, if_pos hnew]
    exact iff_of_true H fun _ h => absurd hnew h
  rw [updatePwrSaveIf_eq hip hnew]
  have hloop := disabled_forCache { s with pwrSaveIfs := s.pwrSaveIfs.replace 0 clientLanIp }
    (Active clientLanIp) (fun e => { e with enabled := false, ruleHdl := 0 }) answer
  revert hloop
  generalize NatApp.forCache _ _ = s'
  intro hloop
  have hlist : s'.pwrSaveIfs = s.pwrSaveIfs.replace 0 clientLanIp := by rw [hloop.rest]
  have hsize : s'.cache.size = s.cache.size := hloop.size
  have hsaved : ∀ ip, s'.isPwrSaveIf ip = true ↔
      s.isPwrSaveIf ip = true ∨ ip = clientLanIp ∧ 0 ∈ s.pwrSaveIfs := by
    intro ip
    rw [isPwrSaveIf_iff, isPwrSaveIf_iff, hlist]
    constructor
    · rintro ⟨hne, hmem⟩
      exact ((mem_replace_of_ne hne).1 hmem).imp_left fun h => ⟨hne, h⟩
    · rintro (⟨hne, hmem⟩ | ⟨rfl, hzero⟩)
      · exact ⟨hne, (mem_replace_of_ne hne).2 (Or.inl hmem)⟩
      · exact ⟨hip, (mem_replace_of_ne hip).2 (Or.inr ⟨rfl, hzero⟩)⟩
  constructor
  · intro H' _ _ hzero i hi hen haddr
    by_contra hno
    have hget : s'.cache.get i = s.cache.get i :=
      hloop.other i (Or.inr fun hc => hno ⟨hc.1.1, hc.2⟩)
    refine H' i (by rwa [hsize]) (by rwa [hget]) ?_
    rw [hget]
    exact haddr.imp (fun h => (hsaved _).2 (Or.inr ⟨h, hzero⟩))
      fun h => (hsaved _).2 (Or.inr ⟨h, hzero⟩)
  · intro hall i hi hen hs
    rw [hsize] at hi
    by_cases hy : Active clientLanIp (s.cache.get i) ∧ NatApp.Yields { s with
        pwrSaveIfs := s.pwrSaveIfs.replace 0 clientLanIp } (Active clientLanIp) answer i
    · rw [hloop.yielded i hi hy.1 hy.2] at hen
      cases hen
    · have hget : s'.cache.get i = s.cache.get i := hloop.other i (Or.inr hy)
      rw [hget] at hen hs
      have hcase : ((s.cache.get i).privateIp = clientLanIp ∨
          (s.cache.get i).targetIp = clientLanIp) ∧ 0 ∈ s.pwrSaveIfs := by
        rcases hs with hs | hs
        · rcases (hsaved _).1 hs with hs | ⟨haddr, hzero⟩
          · exact absurd (Or.inl hs) (H i hi hen)
          · exact ⟨Or.inl haddr, hzero⟩
        · rcases (hsaved _).1 hs with hs | ⟨haddr, hzero⟩
          · exact absurd (Or.inr hs) (H i hi hen)
          · exact ⟨Or.inr haddr, hzero⟩
      obtain ⟨hprivate, hyields⟩ := hall hip hnew hcase.2 i hi hen hcase.1
      exact hy ⟨⟨hprivate, hen⟩, hyields⟩

/-- Restoring entries keeps the property just if none of those that get a rule has an address in the
    list. -/
theorem SavedDisabled.restored_iff {Q : NatTableEntry → Prop} [DecidablePred Q]
    (H : s.SavedDisabled) (answer : Nat → Option UInt32) :
    (s.forCache fun s cnt => if Q (s.cache.get cnt) then s.restoreEntry (answer cnt) cnt
      else s).SavedDisabled ↔
      ∀ i < s.cache.size, Q (s.cache.get i) → s.Grants Q answer i → ¬ s.Saved (s.cache.get i) := by
  have hloop := s.restored_forCache Q answer
  revert hloop
  generalize NatApp.forCache _ _ = s'
  intro hloop
  have hsaved : ∀ e, s'.Saved e ↔ s.Saved e := by
    intro e
    unfold Saved isPwrSaveIf
    rw [hloop.rest]
  constructor
  · intro H' i hi hQ hg hs
    obtain ⟨hdl, hget⟩ := hloop.granted i hi hQ hg
    refine H' i (by rwa [hloop.size]) (by rw [hget]) ((hsaved _).2 ?_)
    rw [hget]
    exact hs
  · intro hall i hi hen hs
    rw [hloop.size] at hi
    replace hs := (hsaved _).1 hs
    by_cases hQ : Q (s.cache.get i)
    · by_cases hg : s.Grants Q answer i
      · obtain ⟨hdl, hget⟩ := hloop.granted i hi hQ hg
        rw [hget] at hs
        exact hall i hi hQ hg hs
      · rw [hloop.refused i hi hQ hg] at hen
        cases hen
    · rw [hloop.other i (Or.inr hQ)] at hen hs
      exact H i hi hen hs

/-- The entries that get a rule when the client leaves power save have no address in the list. -/
def Woken (s : NatApp) (clientLanIp : UInt32) (answer : Nat → Option UInt32) : Prop :=
  clientLanIp ≠ 0 → ∀ i < s.cache.size, Parked clientLanIp (s.cache.get i) →
    s.Grants (Parked clientLanIp) answer i → ¬ (s.unsaved clientLanIp).Saved (s.cache.get i)

theorem SavedDisabled.resetPwrSaveIf_iff (H : s.SavedDisabled) (clientLanIp : UInt32)
    (answer : Nat → Option UInt32) : (s.resetPwrSaveIf clientLanIp answer).1.SavedDisabled ↔
      s.Woken clientLanIp answer := by
  by_cases hip : clientLanIp = invalidIpAddr
  · unfold NatApp.resetPwrSaveIf
    rw [if_pos hip]
    exact iff_of_true H fun hne => absurd hip hne
  rw [resetPwrSaveIf_eq hip, (H.unsaved clientLanIp).restored_iff]
  exact ⟨fun h _ => h, fun h => h hip⟩

/-- The entries that get a rule of a new table have no address in the list. -/
def Reopened (s : NatApp) (pubIp : UInt32) (tblAnswer : Option UInt32)
    (answer : Nat → Option UInt32) : Prop :=
  pubIp = s.pubIpAddrPre → ∀ hdl, s.Gets tblAnswer hdl → ∀ i < s.cache.size,
    HasClient (s.cache.get i) → (s.withTable hdl).Grants HasClient answer i →
      ¬ s.Saved (s.cache.get i)

theorem SavedDisabled.addTable_iff (H : s.SavedDisabled) (pubIp : UInt32)
    (tblAnswer : Option UInt32) (answer : Nat → Option UInt32) :
    (s.addTable pubIp tblAnswer answer).1.SavedDisabled ↔
      s.Reopened pubIp tblAnswer answer := by
  rcases s.addTable_cases pubIp tblAnswer answer with ⟨hno, hdl, -, heq⟩ | ⟨hdl, hgets, heq⟩
  · rw [heq]
    exact iff_of_true (H.congr rfl rfl) fun _ hdl' hgets => absurd hgets (hno hdl')
  rw [heq]
  have Htable : (s.withTable hdl).SavedDisabled := H.congr rfl rfl
  split
  · next hpub =>
    refine Iff.trans ⟨fun h => h.congr rfl rfl, fun h => h.congr rfl rfl⟩
      ((Htable.restored_iff (Q := HasClient) answer).trans ⟨fun h _ hdl' hgets' => ?_, fun h =>
        h hpub hdl hgets⟩)
    obtain rfl : hdl = hdl' := Option.some.inj (hgets.1.symm.trans hgets'.1)
    exact h
  · next hpub => exact iff_of_true (Htable.congr rfl rfl) fun h => absurd h hpub

end NatApp

open NatApp

variable {s s' : NatApp} {op : NatOp} {ret : Int}

/-- The operation heeds the power-save list. -/
def NatOp.Heeds (s : NatApp) : NatOp → Prop
  | .addTable pubIp tblAnswer answer => s.Reopened pubIp tblAnswer answer
  | .updatePwrSaveIf clientLanIp answer => s.Silenced clientLanIp answer
  | .resetPwrSaveIf clientLanIp answer => s.Woken clientLanIp answer
  | _ => True

/-- **An operation keeps the property** if and only if it heeds the power-save list. -/
theorem NatApp.SavedDisabled.step (H : s.SavedDisabled) (h : natStep s op = .ok (s', ret)) :
    s'.SavedDisabled ↔ op.Heeds s := by
  have hends : Ends (fun _ => True) (natStep s op) fun r => r.1.SavedDisabled ↔ op.Heeds s := by
    cases op with
    | addTable pubIp tblAnswer answer => exact H.addTable_iff pubIp tblAnswer answer
    | updatePwrSaveIf clientLanIp answer => exact H.updatePwrSaveIf_iff clientLanIp answer
    | resetPwrSaveIf clientLanIp answer => exact H.resetPwrSaveIf_iff clientLanIp answer
    | deleteTable pubIp answer => exact iff_of_true (H.deleteTable pubIp answer) trivial
    | addEntry rule answer => exact iff_of_true (H.addEntry rule answer) trivial
    | deleteEntry rule answer => exact iff_of_true (H.deleteEntry rule answer) trivial
    | updateUdpTimeStamp answer ctUpdated =>
      exact iff_of_true (H.updateUdpTimeStamp answer ctUpdated) trivial
    | addTempEntry newEntry => exact iff_of_true (H.addTempEntry newEntry) trivial
    | deleteTempEntry entry => exact iff_of_true (H.deleteTempEntry entry) trivial
    | flushTempEntries ipAddr isAdd answer =>
      exact iff_of_true (H.flushTempEntries ipAddr isAdd answer) trivial
    | delEntriesOnClntDiscon ipAddr answer =>
      exact iff_of_true (H.delEntriesOnClntDiscon ipAddr answer) trivial
    | delEntriesOnStaClntDiscon ipAddr answer =>
      exact iff_of_true (H.delEntriesOnStaClntDiscon ipAddr answer) trivial
    | cacheEntry rule cnt =>
      have hcache : Ends (fun _ => True) (s.cacheEntry rule cnt) SavedDisabled := by
        cases h : s.cacheEntry rule cnt with
        | error f => trivial
        | ok s' => exact H.cacheEntry h
      exact hcache.bind fun _ _ H' => iff_of_true H' trivial
  rw [h] at hends
  exact hends

/-- **Clients in power save have no rules**, in every run whose operations heed the power-save list:
    power save of a client finds it at the private side of its connections and all their rules are
    deleted, and what is restored has neither address in the list. In every state of such a run
    these are just the operations that keep the property. -/
theorem run_saved_disabled {maxEntries : Nat} {algPorts : List IpacmAlg} {pubIpAddrPre : UInt32}
    {pwrSaveIfs : List UInt32} {tr : List (NatOp × Int)}
    (hrun : Run natStep (fun s op => op.Heeds s)
      (.init maxEntries algPorts pubIpAddrPre pwrSaveIfs) tr s) :
    s.SavedDisabled ∧
      ∀ op s' ret, natStep s op = .ok (s', ret) → (s'.SavedDisabled ↔ op.Heeds s) := by
  have H : s.SavedDisabled := hrun.invariant (fun _ s => s.SavedDisabled)
    (fun _ _ hen => by cases hen) fun _ _ _ _ _ H hop h => (H.step h).2 hop
  exact ⟨H, fun _ _ _ h => H.step h⟩

/-! ### An example -/

/-- The client of the connection goes to sleep. -/
theorem run_saved_disabled_example : ∃ s tr,
    exec natStep (.init 1 [] 0 [0]) [.addTable 7 (some 1) fun _ => none, .addEntry webEntry (some 1),
      .updatePwrSaveIf webEntry.privateIp fun _ => true] = .ok (s, tr) ∧ s.SavedDisabled := by
  let s₀ : NatApp := .init 1 [] 0 [0]
  let s₁ := (s₀.addTable 7 (some 1) fun _ => none).1
  let s₂ := (s₁.addEntry webEntry (some 1)).1
  have hadd : NatOp.Heeds s₀ (.addTable 7 (some 1) fun _ => none) :=
    fun _ _ _ _ _ hclient => absurd rfl hclient
  have hsave : NatOp.Heeds s₂ (.updatePwrSaveIf webEntry.privateIp fun _ => true) := by
    intro _ _ _ i hi hen _
    obtain rfl : i = 0 := Nat.lt_one_iff.1 hi
    exact ⟨rfl, rfl, rfl, by decide, fun j hj => absurd hj (Nat.not_lt_zero j)⟩
  have hrun : Run natStep (fun s op => op.Heeds s) s₀
      [(.addTable 7 (some 1) fun _ => none, 0), (.addEntry webEntry (some 1), 0),
        (.updatePwrSaveIf webEntry.privateIp fun _ => true, 0)]
      (s₂.updatePwrSaveIf webEntry.privateIp fun _ => true).1 :=
    .cons rfl hadd (.cons rfl trivial (.cons rfl hsave .nil))
  exact ⟨_, _, rfl, (run_saved_disabled hrun).1⟩

/-- The other end of the connection goes to sleep, and the connection keeps its rule. -/
theorem run_saved_disabled_target : ¬ ∀ s tr, Run natStep (fun _ _ => True) (.init 1 [] 0 [0]) tr s →
    s.SavedDisabled := by
  intro hall
  obtain ⟨s, tr, hexec, hsize, hen, hsaved⟩ : ∃ s tr, exec natStep (.init 1 [] 0 [0])
      [.addTable 7 (some 1) fun _ => none, .addEntry webEntry (some 1),
        .updatePwrSaveIf webEntry.targetIp fun _ => true] = .ok (s, tr) ∧ s.cache.size = 1 ∧
      (s.cache.get 0).enabled = true ∧ s.isPwrSaveIf (s.cache.get 0).targetIp = true :=
    ⟨_, _, rfl, rfl, by decide, by decide⟩
  exact hall s tr (Run.of_exec hexec fun _ _ => trivial) 0 (by omega) hen (Or.inr hsaved)

end Nx508j.Ipacm
