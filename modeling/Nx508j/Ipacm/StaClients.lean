import Nx508j.Ipacm.NatCache
import Nx508j.Ipacm.ConntrackListener

/-! # The clients of the upstream station

The scan for a target address finds the addresses in the first `StaClntCnt` entries. These are all
there are as long as only the last client is deleted. -/

namespace Nx508j.Ipacm

open Nx508j.Lib

namespace ConntrackListener

variable {s s' : ConntrackListener} {alive : Finset UInt32} {k i : Nat} {a : UInt32}

theorem findEntry_some {m : Region UInt32} {p : UInt32 → Bool} (h : findEntry m p = some i) :
    i < m.size ∧ p (m.get i) = true ∧ ∀ j < i, p (m.get j) = false := by
  obtain ⟨hp, as, bs, hsplit, hbefore⟩ := List.find?_eq_some_iff_append.1 h
  have hlen : as.length = i := by
    have hi : (List.range m.size)[as.length]? = some i := by
      rw [hsplit]
      simp
    have hlt := (List.getElem?_eq_some_iff.1 hi).1
    rw [List.getElem?_eq_getElem hlt, List.getElem_range] at hi
    exact Option.some.inj hi
  refine ⟨List.mem_range.1 (List.mem_of_find?_eq_some h), hp, fun j hj => ?_⟩
  have hj' : (List.range m.size)[j]? = as[j]? := by
    rw [hsplit, List.getElem?_append_left (by omega)]
  have hmem : j ∈ as := by
    have hlt : j < as.length := by omega
    have hlen' := congrArg List.length hsplit
    rw [List.length_range, List.length_append] at hlen'
    rw [List.getElem?_eq_getElem (by rw [List.length_range]; omega), List.getElem_range,
      List.getElem?_eq_getElem hlt] at hj'
    rw [Option.some.inj hj']
    exact List.getElem_mem hlt
  simpa using hbefore j hmem

theorem findEntry_none {m : Region UInt32} {p : UInt32 → Bool} (h : findEntry m p = none) :
    ∀ j < m.size, p (m.get j) = false := by
  intro j hj
  simpa using List.find?_eq_none.1 h j (List.mem_range.2 hj)

/-- The entries that hold an address. -/
def staSlots (s : ConntrackListener) : Finset Nat :=
  (Finset.range s.staClntIpv4Addr.size).filter fun i => s.staClntIpv4Addr.get i ≠ 0

/-- **The property.** The counter counts the addresses, each is there once, and the scan finds just
    those that are alive. -/
structure StaExact (s : ConntrackListener) (alive : Finset UInt32) : Prop where
  count : s.staClntCnt = s.staSlots.card
  inj : ∀ i ∈ s.staSlots, ∀ j ∈ s.staSlots,
    s.staClntIpv4Addr.get i = s.staClntIpv4Addr.get j → i = j
  scan : ∀ targetIp, s.staScan targetIp = true ↔ targetIp ∈ alive

/-- The addresses are in the first entries, without a hole. -/
structure Packed (s : ConntrackListener) (alive : Finset UInt32) (k : Nat) : Prop where
  size : s.staClntIpv4Addr.size = maxStaClntIfaces
  count : s.staClntCnt = k
  le : k ≤ maxStaClntIfaces
  used : ∀ i < maxStaClntIfaces, s.staClntIpv4Addr.get i ≠ 0 ↔ i < k
  inj : ∀ i < k, ∀ j < k, s.staClntIpv4Addr.get i = s.staClntIpv4Addr.get j → i = j
  alive : alive = (Finset.range k).image s.staClntIpv4Addr.get

theorem Packed.mem (h : s.Packed alive k) : a ∈ alive ↔ ∃ i < k, s.staClntIpv4Addr.get i = a := by
  rw [h.alive, Finset.mem_image]
  simp only [Finset.mem_range]

theorem Packed.card (h : s.Packed alive k) : alive.card = k := by
  rw [h.alive, Finset.card_image_of_injOn, Finset.card_range]
  intro i hi j hj heq
  exact h.inj i (Finset.mem_range.1 hi) j (Finset.mem_range.1 hj) heq

theorem Packed.ne_zero (h : s.Packed alive k) (hi : i < k) : s.staClntIpv4Addr.get i ≠ 0 :=
  (h.used i (lt_of_lt_of_le hi h.le)).2 hi

theorem Packed.staSlots (h : s.Packed alive k) : s.staSlots = Finset.range k := by
  ext i
  have hle := h.le
  unfold ConntrackListener.staSlots
  rw [Finset.mem_filter, Finset.mem_range, Finset.mem_range, h.size]
  constructor
  · rintro ⟨hi, hne⟩
    exact (h.used i hi).1 hne
  · intro hi
    exact ⟨by omega, h.ne_zero hi⟩

theorem staScan_iff (hcount : s.staClntCnt = k) (targetIp : UInt32) :
    s.staScan targetIp = true ↔ ∃ i < k, s.staClntIpv4Addr.get i = targetIp := by
  unfold staScan
  rw [hcount, Int.toNat_natCast, List.any_eq_true]
  simp only [List.mem_range, decide_eq_true_eq]
  exact exists_congr fun i => and_congr_right fun _ => eq_comm

section

variable (h : s.Packed alive k)
include h

theorem Packed.exact : s.StaExact alive := by
  refine ⟨?_, fun i hi j hj => ?_, fun targetIp => ?_⟩
  · rw [h.count, h.staSlots, Finset.card_range]
  · rw [h.staSlots] at hi hj
    exact h.inj i (Finset.mem_range.1 hi) j (Finset.mem_range.1 hj)
  · rw [staScan_iff h.count, h.mem]

/-! ## Addition -/

theorem Packed.add_dup (ha : a ∈ alive) : s.handleStaClientAddEvt a = s := by
  obtain ⟨i, hi, rfl⟩ := h.mem.1 ha
  unfold handleStaClientAddEvt
  split
  · rfl
  split
  · next cnt hfind =>
    obtain ⟨-, hcnt, hbefore⟩ := findEntry_some hfind
    -- the search stops at the address, which comes before the first hole
    have hle : cnt ≤ i := by
      by_contra hlt
      have hi' := hbefore i (by omega)
      simp [h.ne_zero hi] at hi'
    rw [if_neg (h.ne_zero (by omega))]
  · rfl

theorem Packed.add_new (ha : a ∉ alive)
    (hk : k < maxStaClntIfaces) : s.handleStaClientAddEvt a = { s with
      staClntIpv4Addr := s.staClntIpv4Addr.set k a
      staClntCnt := s.staClntCnt + 1 } := by
  have hfree : s.staClntIpv4Addr.get k = 0 := by
    by_contra hne
    exact absurd ((h.used k hk).1 hne) (lt_irrefl k)
  have hfind : findEntry s.staClntIpv4Addr (fun b => (b ≠ 0 ∧ b = a) ∨ b = 0) = some k := by
    cases hfind : findEntry s.staClntIpv4Addr (fun b => (b ≠ 0 ∧ b = a) ∨ b = 0) with
    | none =>
      have hk' := findEntry_none hfind k (by rw [h.size]; exact hk)
      simp [hfree] at hk'
    | some cnt =>
      obtain ⟨-, hcnt, hbefore⟩ := findEntry_some hfind
      have hle : cnt ≤ k := by
        by_contra hlt
        have hk' := hbefore k (by omega)
        simp [hfree] at hk'
      rcases Nat.lt_or_eq_of_le hle with hlt | rfl
      · have hne := h.ne_zero hlt
        have heq : s.staClntIpv4Addr.get cnt = a := by simpa [hne] using hcnt
        exact absurd (h.mem.2 ⟨cnt, hlt, heq⟩) ha
      · rfl
  have hcount := h.count
  unfold handleStaClientAddEvt
  rw [if_neg (by omega), hfind]
  dsimp only
  rw [if_pos hfree]

theorem Packed.add (ha : a ≠ 0) (hcap : (insert a alive).card ≤ maxStaClntIfaces) :
    ∃ k', (s.handleStaClientAddEvt a).Packed (insert a alive) k' := by
  by_cases hmem : a ∈ alive
  · rw [h.add_dup hmem, Finset.insert_eq_of_mem hmem]
    exact ⟨k, h⟩
  rw [Finset.card_insert_of_notMem hmem, h.card] at hcap
  rw [h.add_new hmem (by omega)]
  have hget : ∀ i < k, (s.staClntIpv4Addr.set k a).get i = s.staClntIpv4Addr.get i := by
    intro i hi
    rw [Region.get_set, if_neg (by omega)]
  have hother : ∀ i < k, s.staClntIpv4Addr.get i ≠ a :=
    fun i hi heq => hmem (h.mem.2 ⟨i, hi, heq⟩)
  refine ⟨k + 1, h.size, ?_, hcap, fun i hi => ?_, fun i hi j hj heq => ?_, ?_⟩
  · dsimp only
    rw [h.count]
    rfl
  · dsimp only
    rw [Region.get_set]
    split
    · next hik =>
      rw [hik]
      exact iff_of_true ha (by omega)
    · next hik =>
      rw [h.used i hi]
      omega
  · dsimp only at heq
    rw [Region.get_set, Region.get_set] at heq
    split at heq
    · next hik =>
      split at heq
      · next hjk => rw [hik, hjk]
      · exact absurd heq.symm (hother j (by omega))
    · split at heq
      · exact absurd heq (hother i (by omega))
      · exact h.inj i (by omega) j (by omega) heq
  · dsimp only
    rw [Finset.range_add_one, Finset.image_insert, Region.get_set_self, h.alive]
    congr 1
    exact Finset.image_congr fun i hi => (hget i (by simpa using hi)).symm

theorem Packed.add_zero (hcap : (insert 0 alive).card ≤ maxStaClntIfaces) :
    ¬ (s.handleStaClientAddEvt 0).StaExact (insert 0 alive) := by
  intro hexact
  have hmem : 0 ∉ alive := by
    intro hmem
    obtain ⟨i, hi, heq⟩ := h.mem.1 hmem
    exact h.ne_zero hi heq
  rw [Finset.card_insert_of_notMem hmem, h.card] at hcap
  rw [h.add_new hmem (by omega)] at hexact
  have hslots : ConntrackListener.staSlots { s with
      staClntIpv4Addr := s.staClntIpv4Addr.set k 0
      staClntCnt := s.staClntCnt + 1 } = s.staSlots := by
    have hfree : s.staClntIpv4Addr.get k = 0 := by
      by_contra hne
      exact absurd ((h.used k (by omega)).1 hne) (lt_irrefl k)
    refine Finset.filter_congr fun i _ => ?_
    rw [Region.get_set]
    split
    · next hik => rw [hik, hfree]
    · rfl
  have hcount := hexact.count
  rw [hslots, h.staSlots, Finset.card_range] at hcount
  have hcount' := h.count
  dsimp only at hcount
  omega

/-! ## Deletion -/

theorem Packed.del_absent (ha : a ∉ alive)
    (answer : Nat → Bool) : s.handleStaClientDelEvt a answer = s := by
  unfold handleStaClientDelEvt
  split
  · next cnt hfind =>
    obtain ⟨hcnt, hp, -⟩ := findEntry_some hfind
    obtain ⟨hne, rfl⟩ : s.staClntIpv4Addr.get cnt ≠ 0 ∧ s.staClntIpv4Addr.get cnt = a := by
      simpa using hp
    rw [h.size] at hcnt
    exact absurd (h.mem.2 ⟨cnt, (h.used cnt hcnt).1 hne, rfl⟩) ha
  · rfl

theorem Packed.del_present (hi : i < k) (answer : Nat → Bool) :
    s.handleStaClientDelEvt (s.staClntIpv4Addr.get i) answer = { s with
      staClntIpv4Addr := s.staClntIpv4Addr.set i 0
      natInst := (s.natInst.delEntriesOnStaClntDiscon (s.staClntIpv4Addr.get i) answer).1
      staClntCnt := s.staClntCnt - 1 } := by
  have hle := h.le
  unfold handleStaClientDelEvt
  split
  · next cnt hfind =>
    obtain ⟨hcnt, hp, -⟩ := findEntry_some hfind
    obtain ⟨hne, heq⟩ : s.staClntIpv4Addr.get cnt ≠ 0 ∧
        s.staClntIpv4Addr.get cnt = s.staClntIpv4Addr.get i := by simpa using hp
    rw [h.size] at hcnt
    rw [h.inj cnt ((h.used cnt hcnt).1 hne) i hi heq]
  · next hfind =>
    have hno := findEntry_none hfind i (by rw [h.size]; omega)
    simp [h.ne_zero hi] at hno

end

theorem Packed.del_last (h : s.Packed alive (k + 1)) (answer : Nat → Bool) :
    (s.handleStaClientDelEvt (s.staClntIpv4Addr.get k) answer).Packed
      (alive.erase (s.staClntIpv4Addr.get k)) k := by
  have hle := h.le
  rw [h.del_present (Nat.lt_succ_self k)]
  have hget : ∀ i < k, (s.staClntIpv4Addr.set k 0).get i = s.staClntIpv4Addr.get i := by
    intro i hi
    rw [Region.get_set, if_neg (by omega)]
  refine ⟨h.size, ?_, by omega, fun i hi => ?_, fun i hi j hj heq => ?_, ?_⟩
  · have hcount := h.count
    dsimp only
    omega
  · dsimp only
    rw [Region.get_set]
    split
    · next hik =>
      rw [hik]
      exact iff_of_false (not_not.2 rfl) (lt_irrefl k)
    · next hik =>
      rw [h.used i hi]
      omega
  · dsimp only at heq
    rw [hget i hi, hget j hj] at heq
    exact h.inj i (by omega) j (by omega) heq
  · ext a
    rw [Finset.mem_erase, h.mem, Finset.mem_image]
    constructor
    · rintro ⟨hne, i, hi, rfl⟩
      have hik : i ≠ k := by
        rintro rfl
        exact hne rfl
      exact ⟨i, Finset.mem_range.2 (by omega), hget i (by omega)⟩
    · rintro ⟨i, hi, rfl⟩
      have hi := Finset.mem_range.1 hi
      rw [hget i hi]
      refine ⟨fun heq => ?_, i, by omega, rfl⟩
      have := h.inj i (by omega) k (by omega) heq
      omega

theorem Packed.del_hides (h : s.Packed alive (k + 1)) (hi : i < k) (answer : Nat → Bool) :
    ¬ (s.handleStaClientDelEvt (s.staClntIpv4Addr.get i) answer).StaExact
      (alive.erase (s.staClntIpv4Addr.get i)) := by
  intro hexact
  rw [h.del_present (by omega)] at hexact
  have hne : s.staClntIpv4Addr.get k ≠ s.staClntIpv4Addr.get i := by
    intro heq
    have := h.inj k (by omega) i (by omega) heq
    omega
  have hlast := (hexact.scan (s.staClntIpv4Addr.get k)).2
    (Finset.mem_erase.2 ⟨hne, h.mem.2 ⟨k, by omega, rfl⟩⟩)
  have hcount := h.count
  rw [staScan_iff (k := k) (by dsimp only; omega)] at hlast
  obtain ⟨j, hj, heq⟩ := hlast
  rw [Region.get_set] at heq
  split at heq
  · exact h.ne_zero (i := k) (by omega) heq.symm
  · have := h.inj j (by omega) k (by omega) heq
    omega

theorem Packed.congr (h : s.Packed alive k) (hcnt : s'.staClntCnt = s.staClntCnt)
    (harray : s'.staClntIpv4Addr = s.staClntIpv4Addr) : s'.Packed alive k := by
  constructor
  · rw [harray]
    exact h.size
  · rw [hcnt]
    exact h.count
  · exact h.le
  · rw [harray]
    exact h.used
  · rw [harray]
    exact h.inj
  · rw [harray]
    exact h.alive

theorem packed_init (natInst : NatApp) (wanIpaddr : UInt32) (isStaMode : Bool) :
    (init natInst wanIpaddr isStaMode).Packed ∅ 0 where
  size := rfl
  count := rfl
  le := Nat.zero_le _
  used i _ := iff_of_false (not_not.2 rfl) (Nat.not_lt_zero i)
  inj i hi := absurd hi (Nat.not_lt_zero i)
  alive := rfl

theorem cacheNonnat_sta (s : ConntrackListener) (ipv4Addr : UInt32) :
    (s.cacheNonnat ipv4Addr).staClntCnt = s.staClntCnt ∧
      (s.cacheNonnat ipv4Addr).staClntIpv4Addr = s.staClntIpv4Addr := by
  unfold cacheNonnat
  split <;> exact ⟨rfl, rfl⟩

theorem handleNeighIpAddrAddEvt_sta (s : ConntrackListener) (ipv4Addr : UInt32) (isV4 : Bool)
    (natIfaces : Option (List IfaceName)) (ifrName : Option IfaceName)
    (resetAnswer flushAnswer : Nat → Option UInt32) :
    (s.handleNeighIpAddrAddEvt ipv4Addr isV4 natIfaces ifrName resetAnswer
        flushAnswer).staClntCnt = s.staClntCnt ∧
      (s.handleNeighIpAddrAddEvt ipv4Addr isV4 natIfaces ifrName resetAnswer
        flushAnswer).staClntIpv4Addr = s.staClntIpv4Addr := by
  unfold handleNeighIpAddrAddEvt
  split
  · exact ⟨rfl, rfl⟩
  split
  · split
    · split
      · split <;> exact ⟨rfl, rfl⟩
      · exact cacheNonnat_sta s ipv4Addr
    · exact cacheNonnat_sta s ipv4Addr
  · exact ⟨rfl, rfl⟩

end ConntrackListener

open ConntrackListener

/-- The clients of the upstream that are alive after an event. -/
def CtEvent.aliveAfter (alive : Finset UInt32) : CtEvent → Finset UInt32
  | .staAdd clntIpAddr => insert clntIpAddr alive
  | .staDel clntIpAddr _ => alive.erase clntIpAddr
  | _ => alive

/-- An event, with the clients that are alive. -/
def staStep (x : ConntrackListener × Finset UInt32) (e : CtEvent) :
    Except Fault ((ConntrackListener × Finset UInt32) × Unit) := do
  let (s, _) ← ctStep x.1 e
  .ok ((s, e.aliveAfter x.2), ())

/-- A client that comes has an address, and one that goes is the last in the array. -/
def CtEvent.InOrder (s : ConntrackListener) : CtEvent → Prop
  | .staAdd clntIpAddr => clntIpAddr ≠ 0
  | .staDel clntIpAddr _ => ∀ i < s.staClntIpv4Addr.size, s.staClntIpv4Addr.get i = clntIpAddr →
      clntIpAddr ≠ 0 → (i : Int) = s.staClntCnt - 1
  | _ => True

variable {x x' : ConntrackListener × Finset UInt32} {e : CtEvent} {k : Nat}

theorem ctStep_sta {s s' : ConntrackListener} {u : Unit} (hstep : ctStep s e = .ok (s', u))
    (hadd : ∀ a, e ≠ .staAdd a) (hdel : ∀ a answer, e ≠ .staDel a answer) :
    s'.staClntCnt = s.staClntCnt ∧ s'.staClntIpv4Addr = s.staClntIpv4Addr := by
  cases e with
  | staAdd a => exact absurd rfl (hadd a)
  | staDel a answer => exact absurd rfl (hdel a answer)
  | nat op =>
    obtain ⟨⟨natInst, ret⟩, -, hs'⟩ := bind_eq_ok hstep
    obtain rfl : { s with natInst := natInst } = s' := by simpa using hs'
    exact ⟨rfl, rfl⟩
  | wanUp ipv4Addr isSta tblAnswer answer =>
    cases hstep
    unfold triggerWanUp
    split <;> exact ⟨rfl, rfl⟩
  | wanDown wanAddr answer =>
    cases hstep
    unfold triggerWanDown
    split <;> exact ⟨rfl, rfl⟩
  | neighAdd ipv4Addr isV4 natIfaces ifrName resetAnswer flushAnswer =>
    cases hstep
    exact s.handleNeighIpAddrAddEvt_sta ipv4Addr isV4 natIfaces ifrName resetAnswer flushAnswer
  | neighDel ipv4Addr answer =>
    cases hstep
    unfold handleNeighIpAddrDelEvt
    split <;> exact ⟨rfl, rfl⟩

theorem ConntrackListener.Packed.step (h : x.1.Packed x.2 k)
    (hcap : (e.aliveAfter x.2).card ≤ maxStaClntIfaces) (hstep : staStep x e = .ok (x', ())) :
    (e.InOrder x.1 → ∃ k', x'.1.Packed x'.2 k') ∧ (x'.1.StaExact x'.2 → e.InOrder x.1) := by
  obtain ⟨⟨s', u⟩, hct, hx'⟩ := bind_eq_ok hstep
  obtain rfl : (s', e.aliveAfter x.2) = x' := by simpa using hx'
  cases e with
  | staAdd clntIpAddr =>
    cases hct
    refine ⟨fun hne => h.add hne hcap, ?_⟩
    rintro hexact rfl
    exact h.add_zero hcap hexact
  | staDel clntIpAddr answer =>
    cases hct
    have hcount := h.count
    by_cases hmem : clntIpAddr ∈ x.2
    · obtain ⟨i, hi, rfl⟩ := h.mem.1 hmem
      obtain ⟨k, rfl⟩ : ∃ n, k = n + 1 := ⟨k - 1, by omega⟩
      have hle := h.le
      constructor
      · intro hlast
        have hlast := hlast i (by rw [h.size]; omega) rfl (h.ne_zero hi)
        obtain rfl : i = k := by omega
        exact ⟨i, h.del_last answer⟩
      · intro hexact j hj heq hne
        rw [h.size] at hj
        rw [h.inj j ((h.used j hj).1 (by rw [heq]; exact hne)) i hi heq]
        by_contra hlast
        exact h.del_hides (by omega) answer hexact
    · have hno : ∀ i < x.1.staClntIpv4Addr.size, x.1.staClntIpv4Addr.get i = clntIpAddr →
          clntIpAddr ≠ 0 → (i : Int) = x.1.staClntCnt - 1 := by
        rintro i hi rfl hne
        rw [h.size] at hi
        exact absurd (h.mem.2 ⟨i, (h.used i hi).1 hne, rfl⟩) hmem
      refine ⟨fun _ => ?_, fun _ => hno⟩
      rw [h.del_absent hmem]
      change ∃ k', x.1.Packed (x.2.erase clntIpAddr) k'
      rw [Finset.erase_eq_of_notMem hmem]
      exact ⟨k, h⟩
  | _ =>
    obtain ⟨hcnt, harray⟩ := ctStep_sta hct (by simp) (by simp)
    exact ⟨fun _ => ⟨k, h.congr hcnt harray⟩, fun _ => trivial⟩

/-- **The scan finds the clients that are alive**, in every run in which clients that come have an
    address and only the last client in the array goes. In every state of such a run these are just
    the events that keep the property, if no more are alive than there is room for. -/
theorem run_sta_clients {natInst : NatApp} {wanIpaddr : UInt32} {isStaMode : Bool}
    {tr : List (CtEvent × Unit)}
    (hrun : Run staStep
      (fun x e => (e.aliveAfter x.2).card ≤ maxStaClntIfaces ∧ e.InOrder x.1)
      (.init natInst wanIpaddr isStaMode, ∅) tr x) :
    x.1.StaExact x.2 ∧ ∀ e x', (e.aliveAfter x.2).card ≤ maxStaClntIfaces →
      staStep x e = .ok (x', ()) → (x'.1.StaExact x'.2 ↔ e.InOrder x.1) := by
  obtain ⟨k, h⟩ : ∃ k, x.1.Packed x.2 k := by
    refine hrun.invariant (fun _ x => ∃ k, x.1.Packed x.2 k) ⟨0, packed_init ..⟩ ?_
    rintro tr x e x' ⟨⟩ ⟨k, h⟩ ⟨hcap, horder⟩ hstep
    exact (h.step hcap hstep).1 horder
  refine ⟨h.exact, fun e x' hcap hstep => ⟨(h.step hcap hstep).2, fun horder => ?_⟩⟩
  obtain ⟨k', h'⟩ := (h.step hcap hstep).1 horder
  exact h'.exact

/-! ### An example -/

/-- Two clients come and the second goes. -/
theorem run_sta_clients_example : ∃ x tr,
    exec staStep (.init (.init 1 [] 0 []) 0 true, ∅)
      [.staAdd 1, .staAdd 2, .staDel 2 fun _ => true] = .ok (x, tr) ∧ x.1.StaExact x.2 := by
  let x₀ : ConntrackListener × Finset UInt32 := (.init (.init 1 [] 0 []) 0 true, ∅)
  let s₂ := (x₀.1.handleStaClientAddEvt 1).handleStaClientAddEvt 2
  have hone : (1 : UInt32) ≠ 0 := by decide
  have htwo : (2 : UInt32) ≠ 0 := by decide
  have hlast : ∀ i < 10, s₂.staClntIpv4Addr.get i = 2 → (2 : UInt32) ≠ 0 →
      (i : Int) = s₂.staClntCnt - 1 := by decide
  obtain ⟨x, hrun, hexec⟩ : ∃ x, Run staStep
      (fun x e => (e.aliveAfter x.2).card ≤ maxStaClntIfaces ∧ e.InOrder x.1) x₀
      [(.staAdd 1, ()), (.staAdd 2, ()), (.staDel 2 fun _ => true, ())] x ∧
      exec staStep x₀ [.staAdd 1, .staAdd 2, .staDel 2 fun _ => true] =
        .ok (x, [(.staAdd 1, ()), (.staAdd 2, ()), (.staDel 2 fun _ => true, ())]) :=
    ⟨_, .cons rfl ⟨by decide, hone⟩ (.cons rfl ⟨by decide, htwo⟩
      (.cons rfl ⟨by decide, hlast⟩ .nil)), rfl⟩
  exact ⟨x, _, hexec, (run_sta_clients hrun).1⟩

/-- The first of two clients goes, and the scan does not find the second any more. -/
theorem run_sta_clients_hole : ¬ ∀ x tr,
    Run staStep (fun x e => (e.aliveAfter x.2).card ≤ maxStaClntIfaces)
      (.init (.init 1 [] 0 []) 0 true, ∅) tr x → x.1.StaExact x.2 := by
  intro hall
  obtain ⟨x, hrun, hscan, halive⟩ : ∃ x, Run staStep
      (fun x e => (e.aliveAfter x.2).card ≤ maxStaClntIfaces)
      (.init (.init 1 [] 0 []) 0 true, ∅)
      [(.staAdd 1, ()), (.staAdd 2, ()), (.staDel 1 fun _ => true, ())] x ∧
      x.1.staScan 2 = false ∧ 2 ∈ x.2 :=
    ⟨_, .cons rfl (by decide) (.cons rfl (by decide) (.cons rfl (by decide) .nil)), by decide,
      by decide⟩
  have hfound := ((hall x _ hrun).scan 2).2 halive
  rw [hscan] at hfound
  cases hfound

end Nx508j.Ipacm
