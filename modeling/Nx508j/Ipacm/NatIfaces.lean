import Mathlib.Data.Multiset.AddSub
import Nx508j.Lib.Memory

/-! # The NAT interfaces of the configuration

`IPACM_Config` keeps the names of the interfaces that do NAT in an array with a counter. `AddNatIfaces`
counts a name before it looks whether there is room for it. -/

namespace Nx508j.Ipacm

open Nx508j.Lib

/-- `IPA_IFACE_NAME_LEN`. -/
def ipaIfaceNameLen : Nat := 16

/-- An interface name: the bytes before the final zero of an array of `IPA_IFACE_NAME_LEN`. -/
structure IfaceName where
  bytes : List UInt8
  short : bytes.length < ipaIfaceNameLen
  noNul : 0 ∉ bytes
deriving DecidableEq

/-- What `memset` leaves. -/
def IfaceName.empty : IfaceName := ⟨[], by decide, by simp⟩

/-- The part of `IPACM_Config` that is about NAT interfaces. `ipa_num_ipa_interfaces` is the size of
    `pNatIfaces`. -/
structure NatIfaceTable where
  pNatIfaces : Region IfaceName
  ipaNatIfaceEntries : Int

namespace NatIfaceTable

/-- The table after `calloc`. -/
def init (ipaNumIpaInterfaces : Nat) : NatIfaceTable where
  pNatIfaces := Region.fill ipaNumIpaInterfaces .empty
  ipaNatIfaceEntries := 0

/-- `GetNatIfaces`, which callers ask for as many names as are counted; `none` is an error. -/
def getNatIfaces (s : NatIfaceTable) (nIfaces : Int) : Except Fault (Option (List IfaceName)) :=
  if nIfaces ≤ 0 then .ok none
  else do
    let names ← (List.range nIfaces.toNat).mapM s.pNatIfaces.read
    .ok (some names)

/-- `AddNatIfaces`. -/
def addNatIfaces (s : NatIfaceTable) (devName : IfaceName) : Except Fault NatIfaceTable :=
  let s := { s with ipaNatIfaceEntries := s.ipaNatIfaceEntries + 1 }
  if s.ipaNatIfaceEntries < s.pNatIfaces.size then do
    let pNatIfaces ← s.pNatIfaces.write (s.ipaNatIfaceEntries - 1).toNat devName
    .ok { s with pNatIfaces := pNatIfaces }
  else .ok s

/-- The first of the `k` names from `i` on that is `devName`. -/
def findIface (m : Region IfaceName) (devName : IfaceName) :
    Nat → Nat → Except Fault (Option Nat)
  | _, 0 => .ok none
  | i, k + 1 => do
      let name ← m.read i
      if devName = name then .ok (some i) else findIface m devName (i + 1) k

/-- Copy `k` names down, from the one after `i` on, and clear where they were. -/
def shiftDown (m : Region IfaceName) : Nat → Nat → Except Fault (Region IfaceName)
  | _, 0 => .ok m
  | i, k + 1 => do
      let name ← m.read (i + 1)
      let m ← m.write i name
      let m ← m.write (i + 1) .empty
      shiftDown m (i + 1) k

/-- `DelNatIfaces`. -/
def delNatIfaces (s : NatIfaceTable) (devName : IfaceName) : Except Fault NatIfaceTable := do
  match ← findIface s.pNatIfaces devName 0 s.ipaNatIfaceEntries.toNat with
  | none => .ok s
  | some i => do
      let m ← s.pNatIfaces.write i .empty
      let m ← shiftDown m i (s.ipaNatIfaceEntries - 1 - i).toNat
      .ok { pNatIfaces := m, ipaNatIfaceEntries := s.ipaNatIfaceEntries - 1 }

end NatIfaceTable

/-- A call. -/
inductive NatIfaceCall
  | add (devName : IfaceName)
  | del (devName : IfaceName)
  | get

/-- A call and the names it returns. -/
def natIfaceStep (s : NatIfaceTable) :
    NatIfaceCall → Except Fault (NatIfaceTable × Option (List IfaceName))
  | .add devName => do
      let s ← s.addNatIfaces devName
      .ok (s, none)
  | .del devName => do
      let s ← s.delNatIfaces devName
      .ok (s, none)
  | .get => do
      let names ← s.getNatIfaces s.ipaNatIfaceEntries
      .ok (s, names)

/-! ## The names as a list -/

namespace NatIfaceTable

variable {s s' : NatIfaceTable} {l : List IfaceName} {m m' : Region IfaceName}

/-- The array holds these names, and nothing after them. -/
structure Holds (s : NatIfaceTable) (l : List IfaceName) : Prop where
  entries : s.ipaNatIfaceEntries = l.length
  le : l.length ≤ s.pNatIfaces.size
  get : ∀ i < s.pNatIfaces.size, s.pNatIfaces.get i = l[i]?.getD .empty

theorem holds_init (n : Nat) : (init n).Holds [] := ⟨rfl, Nat.zero_le _, fun _ _ => rfl⟩

theorem findIface_spec (devName : IfaceName) {i k : Nat} (hk : i + k ≤ m.size) :
    Ends (fun _ => False) (findIface m devName i k) fun
      | none => ∀ j, i ≤ j → j < i + k → m.get j ≠ devName
      | some j => i ≤ j ∧ j < i + k ∧ m.get j = devName := by
  induction k generalizing i with
  | zero => exact fun j h1 h2 => by omega
  | succ k ih =>
    refine Ends.bind_ok (Region.read_ok (by omega)) ?_
    split
    · next heq => exact ⟨le_rfl, by omega, heq.symm⟩
    · next hne =>
      refine (ih (i := i + 1) (by omega)).imp fun r _ hr => ?_
      cases r with
      | none =>
        intro j h1 h2
        by_cases hji : j = i
        · rw [hji]
          exact fun heq => hne heq.symm
        · exact hr j (by omega) (by omega)
      | some j => exact ⟨by omega, by omega, hr.2.2⟩

theorem shiftDown_spec {i k : Nat} (hk : i + k < m.size) (hi : m.get i = .empty) :
    Ends (fun _ => False) (shiftDown m i k) fun m' => m'.size = m.size ∧
      ∀ j, m'.get j = if j < i then m.get j else if j < i + k then m.get (j + 1)
        else if j = i + k then .empty else m.get j := by
  induction k generalizing i m with
  | zero =>
    refine ⟨rfl, fun j => ?_⟩
    split
    · rfl
    split
    · omega
    split
    · next hj => rw [hj, Nat.add_zero, hi]
    · rfl
  | succ k ih =>
    refine Ends.bind_ok (Region.read_ok (by omega)) ?_
    refine Ends.bind_ok (Region.write_ok (by omega) _) ?_
    refine Ends.bind_ok (Region.write_ok (by rw [Region.size_set]; omega) _) ?_
    refine (ih ?_ (Region.get_set_self ..)).imp fun m' _ hm' => ?_
    · rw [Region.size_set, Region.size_set]
      omega
    obtain ⟨hsize, hget⟩ := hm'
    refine ⟨hsize, fun j => ?_⟩
    rw [hget j]
    simp only [Region.get_set]
    grind

theorem mapM_read {is : List Nat} (h : ∀ i ∈ is, i < m.size) :
    is.mapM m.read = .ok (is.map m.get) := by
  induction is with
  | nil => rfl
  | cons i is ih =>
    rw [List.mapM_cons, Region.read_ok (h i (List.mem_cons_self ..)),
      ih fun j hj => h j (List.mem_cons_of_mem _ hj)]
    rfl

theorem Holds.getNatIfaces (h : s.Holds l) :
    s.getNatIfaces s.ipaNatIfaceEntries = .ok (if l = [] then none else some l) := by
  unfold NatIfaceTable.getNatIfaces
  rw [h.entries]
  by_cases hl : l = []
  · subst hl
    rfl
  have hpos := List.length_pos_iff.2 hl
  have hle := h.le
  rw [if_neg (by omega), if_neg hl, Int.toNat_natCast,
    mapM_read fun i hi => by have := List.mem_range.1 hi; omega]
  have hnames : (List.range l.length).map s.pNatIfaces.get = l := by
    refine List.ext_getElem (by simp) fun i h1 h2 => ?_
    rw [List.getElem_map, List.getElem_range, h.get i (by omega), List.getElem?_eq_getElem h2]
    rfl
  rw [hnames]
  rfl

theorem Holds.addNatIfaces (h : s.Holds l) (devName : IfaceName)
    (hfit : l.length + 1 < s.pNatIfaces.size) :
    ∃ s', s.addNatIfaces devName = .ok s' ∧ s'.Holds (l ++ [devName]) := by
  unfold NatIfaceTable.addNatIfaces
  dsimp only
  rw [h.entries, if_pos (by omega)]
  have hidx : ((l.length : Int) + 1 - 1).toNat = l.length := by omega
  rw [hidx, Region.write_ok (by omega)]
  refine ⟨_, rfl, ⟨by simp, ?_, fun i hi => ?_⟩⟩
  · rw [List.length_append, Region.size_set]
    exact hfit.le
  · dsimp only at hi ⊢
    rw [Region.size_set] at hi
    rw [Region.get_set]
    split
    · next heq =>
      subst heq
      simp
    · next hne =>
      rw [h.get i hi]
      by_cases hlt : i < l.length
      · rw [List.getElem?_append_left hlt]
      · rw [List.getElem?_eq_none (by omega), List.getElem?_eq_none]
        rw [List.length_append]
        exact Nat.lt_of_le_of_ne (by omega) (Ne.symm hne)

theorem Holds.addNatIfaces_full (h : s.Holds l) (devName : IfaceName)
    (hfull : s.pNatIfaces.size ≤ l.length + 1) : s.addNatIfaces devName =
      .ok { s with ipaNatIfaceEntries := s.ipaNatIfaceEntries + 1 } := by
  unfold NatIfaceTable.addNatIfaces
  dsimp only
  rw [if_neg]
  rw [h.entries]
  omega

theorem Holds.delNatIfaces (h : s.Holds l) (devName : IfaceName) :
    ∃ s', s.delNatIfaces devName = .ok s' ∧ s'.pNatIfaces.size = s.pNatIfaces.size ∧
      ∃ l', s'.Holds l' ∧ (l' : Multiset IfaceName) = (l : Multiset IfaceName).erase devName := by
  have hle := h.le
  suffices hends : Ends (fun _ => False) (s.delNatIfaces devName) fun s' =>
      s'.pNatIfaces.size = s.pNatIfaces.size ∧ ∃ l', s'.Holds l' ∧
        (l' : Multiset IfaceName) = (l : Multiset IfaceName).erase devName from hends.exists_ok
  unfold NatIfaceTable.delNatIfaces
  rw [h.entries, Int.toNat_natCast]
  refine (findIface_spec devName (by omega)).bind fun r _ hr => ?_
  have hget : ∀ i (hi : i < l.length), s.pNatIfaces.get i = l[i] := by
    intro i hi
    rw [h.get i (by omega), List.getElem?_eq_getElem hi]
    rfl
  cases r with
  | none =>
    refine ⟨rfl, l, h, (Multiset.erase_of_notMem fun hmem => ?_).symm⟩
    obtain ⟨i, hi, hname⟩ := List.getElem_of_mem (Multiset.mem_coe.1 hmem)
    exact hr i (Nat.zero_le _) (by omega) ((hget i hi).trans hname)
  | some i =>
    obtain ⟨-, hi, hname⟩ := hr
    rw [Nat.zero_add] at hi
    refine Ends.bind_ok (Region.write_ok (by omega) _) ?_
    have hcount : ((l.length : Int) - 1 - i).toNat = l.length - 1 - i := by omega
    rw [hcount]
    refine (shiftDown_spec (by rw [Region.size_set]; omega)
      (Region.get_set_self ..)).bind fun m' _ hm' => ?_
    obtain ⟨hsize, hm'⟩ := hm'
    rw [Region.size_set] at hsize
    refine ⟨hsize, l.eraseIdx i, ⟨?_, ?_, fun j hj => ?_⟩, ?_⟩
    · dsimp only
      rw [List.length_eraseIdx_of_lt hi]
      omega
    · rw [List.length_eraseIdx_of_lt hi]
      dsimp only
      omega
    · dsimp only at hj ⊢
      rw [hm' j, List.getElem?_eraseIdx]
      simp only [Region.get_set]
      have hbefore := h.get j (by omega)
      by_cases hji : j < i
      · rw [if_pos hji, if_pos hji, if_neg (by omega), hbefore]
      rw [if_neg hji, if_neg hji]
      by_cases hend : j < i + (l.length - 1 - i)
      · rw [if_pos hend, if_neg (by omega), h.get (j + 1) (by omega)]
      rw [if_neg hend, List.getElem?_eq_none (by omega)]
      split
      · rfl
      · rw [if_neg (by omega), hbefore, List.getElem?_eq_none (by omega)]
    · rw [hget i hi] at hname
      have hperm := List.getElem_cons_eraseIdx_perm hi
      rw [hname] at hperm
      rw [← Multiset.coe_eq_coe.2 hperm, ← Multiset.cons_coe, Multiset.erase_cons_head]

end NatIfaceTable

/-! ## Runs -/

/-- The names added and not deleted. -/
def addedNames (tr : List (NatIfaceCall × Option (List IfaceName))) : Multiset IfaceName :=
  tr.foldl (fun names c =>
    match c.1 with
    | .add devName => devName ::ₘ names
    | .del devName => names.erase devName
    | .get => names) 0

namespace NatIfaceTable

variable {s s' : NatIfaceTable} {l : List IfaceName} {names : Multiset IfaceName}

/-- **The property.** The counter counts these names, there is room for them, and they are what
    `GetNatIfaces` returns. -/
structure Exact (s : NatIfaceTable) (names : Multiset IfaceName) : Prop where
  count : s.ipaNatIfaceEntries = names.card
  le : s.ipaNatIfaceEntries ≤ s.pNatIfaces.size
  returned : ∃ l : List IfaceName, (l : Multiset IfaceName) = names ∧
    s.getNatIfaces s.ipaNatIfaceEntries = .ok (if l = [] then none else some l)

theorem Holds.exact (h : s.Holds l) (hl : (l : Multiset IfaceName) = names) : s.Exact names := by
  subst hl
  refine ⟨h.entries, ?_, l, rfl, h.getNatIfaces⟩
  rw [h.entries]
  exact_mod_cast h.le

theorem Holds.addNatIfaces_empty (h : s.Holds l) (hlast : l.length + 1 = s.pNatIfaces.size) :
    Holds { s with ipaNatIfaceEntries := s.ipaNatIfaceEntries + 1 } (l ++ [.empty]) := by
  refine ⟨?_, ?_, fun i hi => ?_⟩
  · simp [h.entries]
  · rw [List.length_append]
    exact hlast.le
  · dsimp only at hi ⊢
    rw [h.get i hi]
    by_cases hlt : i < l.length
    · rw [List.getElem?_append_left hlt]
    · obtain rfl : i = l.length := by omega
      simp

end NatIfaceTable

open NatIfaceTable

variable {s s' : NatIfaceTable} {c : NatIfaceCall}

/-- A name is added only while there is room for another one after it (or it is the empty name and
    takes the last place). -/
def NatIfaceCall.Fits (s : NatIfaceTable) : NatIfaceCall → Prop
  | .add devName => s.ipaNatIfaceEntries + 1 < s.pNatIfaces.size ∨
      s.ipaNatIfaceEntries + 1 = s.pNatIfaces.size ∧ devName = .empty
  | _ => True

/-- The names after a call. -/
def NatIfaceCall.after (names : Multiset IfaceName) : NatIfaceCall → Multiset IfaceName
  | .add devName => devName ::ₘ names
  | .del devName => names.erase devName
  | .get => names

theorem addedNames_snoc (tr : List (NatIfaceCall × Option (List IfaceName))) (c : NatIfaceCall)
    (r : Option (List IfaceName)) : addedNames (tr ++ [(c, r)]) = c.after (addedNames tr) := by
  unfold addedNames
  rw [List.foldl_append]
  cases c <;> rfl

theorem coe_append_singleton (l : List IfaceName) (name : IfaceName) :
    ((l ++ [name] : List IfaceName) : Multiset IfaceName) = name ::ₘ l :=
  Multiset.coe_eq_coe.2 (List.perm_append_singleton name l)

theorem NatIfaceTable.Holds.step {l : List IfaceName} (h : s.Holds l) (hfit : c.Fits s) :
    ∃ s' r, natIfaceStep s c = .ok (s', r) ∧
      ∃ l', s'.Holds l' ∧ (l' : Multiset IfaceName) = c.after l := by
  cases c with
  | add devName =>
    have hentries := h.entries
    rcases hfit with hfit | ⟨hlast, rfl⟩
    · obtain ⟨s', hadd, h'⟩ := h.addNatIfaces devName (by omega)
      refine ⟨s', none, by simp [natIfaceStep, hadd], _, h', ?_⟩
      exact coe_append_singleton l devName
    · refine ⟨_, none, ?_, _, h.addNatIfaces_empty (by omega), ?_⟩
      · simp [natIfaceStep, h.addNatIfaces_full .empty (by omega)]
      · exact coe_append_singleton l .empty
  | del devName =>
    obtain ⟨s', hdel, -, h'⟩ := h.delNatIfaces devName
    exact ⟨s', none, by simp [natIfaceStep, hdel], h'⟩
  | get => exact ⟨s, _, by simp [natIfaceStep, h.getNatIfaces]; rfl, l, h, rfl⟩

theorem NatIfaceTable.Holds.fits_of_exact {l : List IfaceName} (h : s.Holds l)
    {r : Option (List IfaceName)} (hstep : natIfaceStep s c = .ok (s', r))
    (hexact : s'.Exact (c.after l)) : c.Fits s := by
  cases c with
  | del devName => trivial
  | get => trivial
  | add devName =>
    by_contra hfit
    obtain ⟨hfit, hlast⟩ := not_or.1 hfit
    have hentries := h.entries
    have hfull := h.addNatIfaces_full devName (by omega)
    obtain rfl : { s with ipaNatIfaceEntries := s.ipaNatIfaceEntries + 1 } = s' := by
      simp [natIfaceStep, hfull] at hstep
      exact hstep.1
    have hle := hexact.le
    dsimp only at hle
    have hlast' : l.length + 1 = s.pNatIfaces.size := by omega
    obtain ⟨l', hl', hget⟩ := hexact.returned
    rw [(h.addNatIfaces_empty hlast').getNatIfaces] at hget
    have hne : l' ≠ [] := by
      rintro rfl
      exact Multiset.zero_ne_cons (a := devName) (m := l) hl'
    obtain rfl : l ++ [.empty] = l' := by simpa [hne] using hget
    rw [coe_append_singleton] at hl'
    refine hlast ⟨by omega, ?_⟩
    exact ((Multiset.cons_inj_left _).1 hl').symm

/-- **The names are those added and not deleted**, in every run that adds no name when there is
    room for that one only. In every state of such a run no call leaves the array, and these are
    just the calls that keep the property. -/
theorem run_nat_ifaces {ipaNumIpaInterfaces : Nat}
    {tr : List (NatIfaceCall × Option (List IfaceName))}
    (hrun : Run natIfaceStep (fun s c => c.Fits s) (.init ipaNumIpaInterfaces) tr s) :
    s.Exact (addedNames tr) ∧ ∀ c, ∃ s' r, natIfaceStep s c = .ok (s', r) ∧
      (s'.Exact (addedNames (tr ++ [(c, r)])) ↔ c.Fits s) := by
  obtain ⟨l, h, hl⟩ : ∃ l : List IfaceName, s.Holds l ∧ (l : Multiset IfaceName) = addedNames tr := by
    refine hrun.invariant (fun tr s => ∃ l : List IfaceName,
      s.Holds l ∧ (l : Multiset IfaceName) = addedNames tr)
      ⟨[], holds_init _, rfl⟩ ?_
    rintro tr s c s' r ⟨l, h, hl⟩ hfit hstep
    obtain ⟨s₁, r₁, hstep₁, l', h', hl'⟩ := h.step hfit
    obtain ⟨rfl, rfl⟩ : s₁ = s' ∧ r₁ = r := by simpa [hstep] using hstep₁.symm
    exact ⟨l', h', by rw [hl', addedNames_snoc, hl]⟩
  refine ⟨h.exact hl, fun c => ?_⟩
  by_cases hfit : c.Fits s
  · obtain ⟨s', r, hstep, l', h', hl'⟩ := h.step hfit
    refine ⟨s', r, hstep, iff_of_true (h'.exact ?_) hfit⟩
    rw [hl', addedNames_snoc, hl]
  · obtain ⟨s', r, hstep⟩ : ∃ s' r, natIfaceStep s c = .ok (s', r) := by
      cases c with
      | del devName => exact absurd trivial hfit
      | get => exact absurd trivial hfit
      | add devName =>
        have hentries := h.entries
        have hfull := h.addNatIfaces_full devName (by
          by_contra hlt
          exact hfit (Or.inl (by omega)))
        exact ⟨_, none, by simp [natIfaceStep, hfull]; rfl⟩
    refine ⟨s', r, hstep, iff_of_false (fun hexact => hfit ?_) hfit⟩
    rw [addedNames_snoc, ← hl] at hexact
    exact h.fits_of_exact hstep hexact

/-! ### An example -/

/-- `wlan0`. -/
def wlan0 : IfaceName := ⟨[119, 108, 97, 110, 48], by decide, by decide⟩

/-- `rndis0`. -/
def rndis0 : IfaceName := ⟨[114, 110, 100, 105, 115, 48], by decide, by decide⟩

theorem run_nat_ifaces_example : ∃ s tr,
    Run natIfaceStep (fun s c => c.Fits s) (.init 3) tr s ∧ s.Exact (rndis0 ::ₘ 0) := by
  obtain ⟨s, hrun⟩ : ∃ s, Run natIfaceStep (fun s c => c.Fits s) (.init 3)
      [(.add wlan0, none), (.add rndis0, none), (.del wlan0, none)] s :=
    ⟨_, .cons rfl (Or.inl (by decide)) (.cons rfl (Or.inl (by decide)) (.cons rfl trivial .nil))⟩
  have hexact := (run_nat_ifaces hrun).1
  have hadded : addedNames [(.add wlan0, none), (.add rndis0, none), (.del wlan0, none)] =
      rndis0 ::ₘ 0 := by decide
  exact ⟨s, _, hrun, hadded ▸ hexact⟩

/-- The second of two names is counted and not stored where the configuration has two
    interfaces. -/
theorem run_nat_ifaces_full : ¬ ∀ s tr, Run natIfaceStep (fun _ _ => True) (.init 2) tr s →
    s.Exact (addedNames tr) := by
  intro hall
  obtain ⟨s, tr, hexec, hget, hadded⟩ : ∃ s tr, exec natIfaceStep (.init 2)
      [.add wlan0, .add rndis0] = .ok (s, tr) ∧
      s.getNatIfaces s.ipaNatIfaceEntries = .ok (some [wlan0, .empty]) ∧
      rndis0 ∈ addedNames tr := ⟨_, _, rfl, rfl, by decide⟩
  obtain ⟨l, hl, hreturned⟩ := (hall s tr (Run.of_exec hexec fun _ _ => trivial)).returned
  rw [hget] at hreturned
  split at hreturned
  · cases hreturned
  · obtain rfl : [wlan0, .empty] = l := by simpa using hreturned
    rw [← hl] at hadded
    revert hadded
    decide

end Nx508j.Ipacm
