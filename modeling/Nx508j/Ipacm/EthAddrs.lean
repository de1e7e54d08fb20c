import Nx508j.Ipacm.EthEvents
import Nx508j.Ipacm.EthMap

/-! # The addresses of the clients

What the events of an interface do to the addresses that its clients have, whether the ioctls
succeed or not, and which messages there are for an address. A message to disconnect an IPv6 address
has the first word of the address only, and the table is looked up by the last two. -/

namespace Nx508j.Ipacm.EthClients

open Nx508j.Lib Function
open Lan2Lan (IpType Mac Iface Key V6Addr LanClientData Event Input Ifaces Config LanToLan Side
  ClientInfo)

/-! ## The messages of an address -/

/-- What finds the client of an address. -/
def EventDataAll.key (data : EventDataAll) : Key :=
  match data.iptype with
  | .v4 => data.ipv4Addr.setWidth 64
  | .v6 => data.ipv6Addr.low

/-- An IPv6 address with nothing in its lower half, or an IPv4 address. -/
def EventDataAll.LowZero (data : EventDataAll) : Prop :=
  data.iptype = .v6 → data.ipv6Addr.a2 = 0 ∧ data.ipv6Addr.a3 = 0

instance decidableLowZero (data : EventDataAll) : Decidable data.LowZero :=
  inferInstanceAs (Decidable (_ → _))

/-- The message to disconnect an address. -/
def disconnectMsg (this : Iface) (data : EventDataAll) : LanClientData where
  iptype := some data.iptype
  ipv4Addr := data.ipv4Addr
  ipv6Addr := ⟨data.ipv6Addr.a0, 0, 0, 0⟩
  macAddr := 0
  pIface := some this

variable {this : Iface} {iface : EthIface} {a : Answers} {c : EthClient} {s s' : EthTable}
  {t : IpType} {data : EventDataAll} {mac : Mac}

theorem key_lanClient (this : Iface) (data : EventDataAll) :
    (lanClient this data).key data.iptype = data.key := by
  obtain ⟨t, mac, v4, v6⟩ := data
  cases t <;> rfl

theorem iptype_of_mem_announced (h : data ∈ c.announced t) : data.iptype = t := by
  cases t with
  | v4 =>
    rw [EthClient.announced] at h
    split at h
    · rw [List.mem_singleton.1 h]
    · exact absurd h (List.not_mem_nil)
  | v6 =>
    obtain ⟨j, -, rfl⟩ := List.mem_map.1 h
    rfl

/-- Each address is reported in a message of its own. -/
theorem disconnectMsgs_eq (this : Iface) (c : EthClient) (t : IpType) :
    c.disconnectMsgs this t = (c.announced t).map (disconnectMsg this) := by
  cases t with
  | v4 =>
    rw [EthClient.disconnectMsgs, EthClient.announced]
    split <;> rfl
  | v6 =>
    rw [EthClient.disconnectMsgs, EthClient.announced, List.map_map]
    rfl

theorem low_eq_zero_iff (addr : V6Addr) : addr.low = 0 ↔ addr.a2 = 0 ∧ addr.a3 = 0 := by
  have hnat : addr.low.toNat = addr.a3.toNat * 2 ^ 32 + addr.a2.toNat := by
    rw [V6Addr.low, BitVec.toNat_append, ← Nat.shiftLeft_add_eq_or_of_lt addr.a2.isLt,
      Nat.shiftLeft_eq]
  rw [← BitVec.toNat_inj, ← BitVec.toNat_inj, ← BitVec.toNat_inj, hnat]
  simp only [BitVec.ofNat_eq_ofNat, BitVec.toNat_ofNat]
  omega

/-- A disconnect finds its client just when the lower half is 0. -/
theorem key_disconnectMsg_eq_iff (this : Iface) (data : EventDataAll) :
    (disconnectMsg this data).key data.iptype = data.key ↔ data.LowZero := by
  obtain ⟨t, mac, v4, v6⟩ := data
  cases t with
  | v4 => simp [disconnectMsg, LanClientData.key, EventDataAll.key, EventDataAll.LowZero]
  | v6 =>
    have hzero : (⟨v6.a0, 0, 0, 0⟩ : V6Addr).low = 0 := (low_eq_zero_iff _).2 ⟨rfl, rfl⟩
    simp only [disconnectMsg, LanClientData.key, EventDataAll.key, EventDataAll.LowZero, hzero,
      forall_const]
    rw [eq_comm]
    exact low_eq_zero_iff v6

theorem mem_announced :
    data ∈ s.announced t ↔ ∃ i < s.numEthClient, data ∈ (s.ethClient i).announced t := by
  simp only [EthTable.announced, List.mem_flatMap, List.mem_range]

/-- Every address of every client is reported. -/
theorem postLan2lanClientDisconnectMsg_eq (this : Iface) (s : EthTable) (t : IpType) :
    s.postLan2lanClientDisconnectMsg this t = (s.announced t).map (disconnectMsg this) := by
  rw [EthTable.postLan2lanClientDisconnectMsg, EthTable.announced, List.map_flatMap]
  exact congrArg (List.flatMap · _) (funext fun i => disconnectMsgs_eq this (s.ethClient i) t)

/-- So all of them find their clients when all lower halves are 0. -/
theorem disconnect_keys_iff (this : Iface) (s : EthTable) (t : IpType) :
    (s.postLan2lanClientDisconnectMsg this t).map (fun msg => msg.key t) =
      (s.announced t).map (fun data => (lanClient this data).key t) ↔
    ∀ data ∈ s.announced t, data.LowZero := by
  rw [postLan2lanClientDisconnectMsg_eq, List.map_map, List.map_inj_left]
  refine forall₂_congr fun data hdata => ?_
  obtain ⟨i, -, hdata⟩ := mem_announced.1 hdata
  obtain rfl := iptype_of_mem_announced hdata
  rw [key_lanClient]
  exact key_disconnectMsg_eq_iff this data

/-! ## The addresses that the clients have -/

/-- The client has the same addresses. -/
structure SameAddrs (c c' : EthClient) : Prop where
  mac : c'.mac = c.mac
  ipv4Set : c'.ipv4Set = c.ipv4Set
  v4Addr : c'.v4Addr = c.v4Addr
  ipv6Set : c'.ipv6Set = c.ipv6Set
  v6Addr : ∀ k ∈ upTo c.ipv6Set, c'.v6Addr k = c.v6Addr k

namespace SameAddrs

variable {c₁ c' : EthClient}

theorem refl (c : EthClient) : SameAddrs c c := ⟨rfl, rfl, rfl, rfl, fun _ _ => rfl⟩

theorem trans (h : SameAddrs c c₁) (h' : SameAddrs c₁ c') : SameAddrs c c' where
  mac := h'.mac.trans h.mac
  ipv4Set := h'.ipv4Set.trans h.ipv4Set
  v4Addr := h'.v4Addr.trans h.v4Addr
  ipv6Set := h'.ipv6Set.trans h.ipv6Set
  v6Addr := fun k hk => (h'.v6Addr k (by rwa [h.ipv6Set])).trans (h.v6Addr k hk)

/-- The same addresses are announced. -/
theorem announced (h : SameAddrs c c') (t : IpType) : c'.announced t = c.announced t := by
  cases t with
  | v4 => rw [EthClient.announced, EthClient.announced, h.ipv4Set, h.mac, h.v4Addr]
  | v6 =>
    rw [EthClient.announced, EthClient.announced, h.ipv6Set]
    exact List.map_congr_left fun k hk => by rw [h.mac, h.v6Addr k hk]

end SameAddrs

theorem deleteEthRtrules_same (iface : EthIface) (a : Answers) (c : EthClient) (t : IpType) :
    SameAddrs c (c.deleteEthRtrules iface a t).1 := by
  cases t with
  | v4 =>
    rw [EthClient.deleteEthRtrules]
    split
    · exact .refl c
    · split
      · exact ⟨rfl, rfl, rfl, rfl, fun _ _ => rfl⟩
      · exact .refl c
  | v6 =>
    rw [EthClient.deleteEthRtrules]
    split
    · exact ⟨rfl, rfl, rfl, rfl, fun _ _ => rfl⟩
    · exact .refl c

theorem deleteHdr_same (a : Answers) (c : EthClient) (t : IpType) :
    SameAddrs c (c.deleteHdr a t).1 := by
  cases t with
  | v4 | v6 =>
    rw [EthClient.deleteHdr]
    split
    · exact .refl c
    · split
      · exact .refl c
      · exact ⟨rfl, rfl, rfl, rfl, fun _ _ => rfl⟩

/-- A client that cannot be deleted keeps its addresses. -/
theorem handleDown_same {c' : EthClient} (h : c.handleDown iface a = (c', false)) :
    SameAddrs c c' := by
  have hv4 := deleteEthRtrules_same iface a c .v4
  simp only [EthClient.handleDown] at h
  split at h
  next c₁ h₁ =>
    rw [h₁] at hv4
    obtain rfl := congrArg Prod.fst h
    exact hv4
  next c₁ h₁ =>
    rw [h₁] at hv4
    have hv6 := hv4.trans (deleteEthRtrules_same iface a c₁ .v6)
    split at h
    next c₂ h₂ =>
      rw [h₂] at hv6
      obtain rfl := congrArg Prod.fst h
      exact hv6
    next c₂ h₂ =>
      rw [h₂] at hv6
      have hhdr4 := hv6.trans (deleteHdr_same a c₂ .v4)
      split at h
      next c₃ h₃ =>
        rw [h₃] at hhdr4
        obtain rfl := congrArg Prod.fst h
        exact hhdr4
      next c₃ h₃ =>
        rw [h₃] at hhdr4
        have hhdr6 := hhdr4.trans (deleteHdr_same a c₃ .v6)
        split at h
        next c₄ h₄ =>
          rw [h₄] at hhdr6
          obtain rfl := congrArg Prod.fst h
          exact hhdr6
        next c₄ h₄ => cases congrArg Prod.snd h

/-! ### Routing rules -/

/-- The client that a loop ends with, at its end or at a failure. -/
def ended : Except EthClient EthClient → EthClient
  | .ok c => c
  | .error c => c

/-- A loop over routing rules keeps the addresses, also where it ends early. -/
theorem foldlM_same {β : Type} {f : EthClient → β → Except EthClient EthClient}
    (hf : ∀ c x, SameAddrs c (ended (f c x))) (xs : List β) (c : EthClient) :
    SameAddrs c (ended (xs.foldlM f c)) := by
  induction xs generalizing c with
  | nil => exact .refl c
  | cons x xs ih =>
    rw [List.foldlM_cons]
    have hx := hf c x
    cases hfx : f c x with
    | error c₁ =>
      rw [hfx] at hx
      exact hx
    | ok c₁ =>
      rw [hfx] at hx
      exact hx.trans (ih c₁)

theorem addRuleV4_same (iface : EthIface) (a : Answers) (c : EthClient) (x : TxProp × Nat) :
    SameAddrs c (ended (c.addRuleV4 iface a x)) := by
  rw [EthClient.addRuleV4]
  split
  · exact .refl c
  · exact ⟨rfl, rfl, rfl, rfl, fun _ _ => rfl⟩

theorem addRulesV6_same (a : Answers) (c : EthClient) (x : TxProp × Nat) (k : Fin ipv6NumAddr) :
    SameAddrs c (ended (c.addRulesV6 a x k)) := by
  rw [EthClient.addRulesV6]
  split
  · exact .refl c
  · dsimp only
    split
    · exact ⟨rfl, rfl, rfl, rfl, fun _ _ => rfl⟩
    · exact ⟨rfl, rfl, rfl, rfl, fun _ _ => rfl⟩

/-- Routing rules do not change addresses. -/
theorem handleRouteRule_same (iface : EthIface) (a : Answers) (c : EthClient) (t : IpType) :
    SameAddrs c (c.handleRouteRule iface a t).1 := by
  cases t with
  | v4 =>
    have hloop := foldlM_same (fun c x => addRuleV4_same iface a c x) (iface.txOf .v4) c
    rw [EthClient.handleRouteRule]
    split
    · split
      · exact .refl c
      · split
        next c' hc' =>
          rw [hc'] at hloop
          exact hloop
        next c' hc' =>
          rw [hc'] at hloop
          exact ⟨hloop.mac, hloop.ipv4Set, hloop.v4Addr, hloop.ipv6Set, hloop.v6Addr⟩
    · exact .refl c
  | v6 =>
    have hloop : ∀ news : List (Fin ipv6NumAddr), SameAddrs c
        (ended ((iface.txOf .v6).foldlM
          (fun c x => news.foldlM (fun c k => c.addRulesV6 a x k) c) c)) :=
      fun news => foldlM_same
        (fun c x => foldlM_same (fun c k => addRulesV6_same a c x k) news c) (iface.txOf .v6) c
    rw [EthClient.handleRouteRule]
    split
    · split
      · exact .refl c
      · specialize hloop ((upTo c.ipv6Set).filter fun k => c.routeRuleSetV6 ≤ k.val)
        dsimp only
        split
        next c' hc' =>
          rw [hc'] at hloop
          exact hloop
        next c' hc' =>
          rw [hc'] at hloop
          exact ⟨hloop.mac, hloop.ipv4Set, hloop.v4Addr, hloop.ipv6Set, hloop.v6Addr⟩
    · exact .refl c

/-! ### A new address -/

/-- The client has room for an address, or has it; an IPv4 address replaces no other. -/
structure EthClient.Takes (c : EthClient) (data : EventDataAll) : Prop where
  v4 : data.iptype = .v4 → data.ipv4Addr ≠ 0 ∧ (c.ipv4Set = true → data.ipv4Addr = c.v4Addr)
  v6 : data.iptype = .v6 → data.ipv6Addr ≠ ⟨0, 0, 0, 0⟩ ∧
    (c.ipv6Set < ipv6NumAddr ∨ ∃ k ∈ upTo c.ipv6Set, data.ipv6Addr = c.v6Addr k)

/-- `Takes` as a test. -/
def EthClient.takesTest (c : EthClient) (data : EventDataAll) : Bool :=
  match data.iptype with
  | .v4 => !decide (data.ipv4Addr = 0) && (!c.ipv4Set || decide (data.ipv4Addr = c.v4Addr))
  | .v6 => !decide (data.ipv6Addr = ⟨0, 0, 0, 0⟩) &&
      (decide (c.ipv6Set < ipv6NumAddr) ||
        (upTo c.ipv6Set).any fun k => decide (data.ipv6Addr = c.v6Addr k))

theorem EthClient.takesTest_iff (c : EthClient) (data : EventDataAll) :
    c.takesTest data = true ↔ c.Takes data := by
  constructor
  · intro h
    unfold takesTest at h
    cases ht : data.iptype <;> rw [ht] at h <;>
      exact ⟨fun h4 => by simp_all [or_iff_not_imp_left], fun h6 => by simp_all⟩
  · rintro ⟨h4, h6⟩
    unfold takesTest
    cases ht : data.iptype <;> simp_all
    cases hset : c.ipv4Set <;> simp_all

instance decidableTakes (c : EthClient) (data : EventDataAll) : Decidable (c.Takes data) :=
  decidable_of_iff _ (c.takesTest_iff data)

/-- An IPv4 address is replaced, unless it is 0. -/
theorem handleIpaddr_v4 (iface : EthIface) (a : Answers) (c : EthClient) (ht : data.iptype = .v4) :
    SameAddrs (if data.ipv4Addr = 0 then c else
      { c with v4Addr := data.ipv4Addr, ipv4Set := true }) (c.handleIpaddr iface a data).1 := by
  simp only [EthClient.handleIpaddr, ht]
  split
  · exact .refl c
  split
  · exact .refl _
  next hset =>
    have hset : c.ipv4Set = true := by simpa using hset
    split
    next heq => exact ⟨rfl, hset, heq.symm, rfl, fun _ _ => rfl⟩
    next =>
      have hdelete := deleteEthRtrules_same iface a c .v4
      exact ⟨hdelete.mac, hdelete.ipv4Set.trans hset, rfl, hdelete.ipv6Set, hdelete.v6Addr⟩

/-- An IPv6 address is added while it is new and there is room. -/
theorem handleIpaddr_v6 (iface : EthIface) (a : Answers) (c : EthClient) (ht : data.iptype = .v6) :
    (c.handleIpaddr iface a data).1 = c ∧ (data.ipv6Addr = ⟨0, 0, 0, 0⟩ ∨
        ipv6NumAddr ≤ c.ipv6Set ∨ ∃ k ∈ upTo c.ipv6Set, data.ipv6Addr = c.v6Addr k) ∨
      ∃ h : c.ipv6Set < ipv6NumAddr, (c.handleIpaddr iface a data).1 =
        { c with
          v6Addr := update c.v6Addr ⟨c.ipv6Set, h⟩ data.ipv6Addr
          ipv6Set := c.ipv6Set + 1 } := by
  simp only [EthClient.handleIpaddr, ht]
  split
  next hzero => exact .inl ⟨rfl, .inl hzero⟩
  next =>
    split
    next hlt =>
      split
      next hany =>
        refine .inl ⟨rfl, .inr (.inr ?_)⟩
        obtain ⟨k, hk, heq⟩ := List.any_eq_true.1 hany
        exact ⟨k, hk, of_decide_eq_true heq⟩
      next => exact .inr ⟨hlt, rfl⟩
    next hfull => exact .inl ⟨rfl, .inr (.inl (Nat.le_of_not_lt hfull))⟩

/-- The other family keeps its addresses. -/
theorem handleIpaddr_other (iface : EthIface) (a : Answers) (c : EthClient) (ht : t ≠ data.iptype) :
    (c.handleIpaddr iface a data).1.announced t = c.announced t := by
  cases hdata : data.iptype with
  | v4 =>
    rw [(handleIpaddr_v4 iface a c hdata).announced]
    cases t with
    | v4 => exact absurd hdata.symm ht
    | v6 => split <;> rfl
  | v6 =>
    obtain ⟨heq, -⟩ | ⟨hlt, heq⟩ := handleIpaddr_v6 iface a c hdata
    · rw [heq]
    · rw [heq]
      cases t with
      | v4 => rfl
      | v6 => exact absurd hdata.symm ht

/-- An address that is taken is announced, and so are those before. -/
theorem handleIpaddr_takes (iface : EthIface) (a : Answers) (h : c.Takes data) :
    (∀ d ∈ c.announced data.iptype, d ∈ (c.handleIpaddr iface a data).1.announced data.iptype) ∧
      ∃ d ∈ (c.handleIpaddr iface a data).1.announced data.iptype,
        d.key = data.key ∧ d.macAddr = c.mac := by
  cases ht : data.iptype with
  | v4 =>
    replace h := h.v4 ht
    have hc := handleIpaddr_v4 iface a c ht
    rw [if_neg h.1] at hc
    rw [hc.announced]
    simp only [EthClient.announced]
    refine ⟨fun d hd => ?_, ⟨.v4, c.mac, data.ipv4Addr, ⟨0, 0, 0, 0⟩⟩, List.mem_singleton_self _,
      ?_, rfl⟩
    · split at hd
      next hset => rwa [h.2 hset]
      next => exact absurd hd List.not_mem_nil
    · simp only [EventDataAll.key, ht]
  | v6 =>
    replace h := h.v6 ht
    simp only [EthClient.announced]
    obtain ⟨heq, hnot⟩ | ⟨hlt, heq⟩ := handleIpaddr_v6 iface a c ht
    · rw [heq]
      obtain ⟨k, hk, hk'⟩ : ∃ k ∈ upTo c.ipv6Set, data.ipv6Addr = c.v6Addr k := by
        rcases h.2 with hlt | hknown
        · exact (hnot.resolve_left h.1).resolve_left (Nat.not_le_of_lt hlt)
        · exact hknown
      refine ⟨fun d hd => hd, _, List.mem_map_of_mem hk, ?_, rfl⟩
      simp only [EventDataAll.key, ht, hk']
    · rw [heq]
      dsimp only
      rw [upTo_succ hlt, List.map_append]
      constructor
      · intro d hd
        refine List.mem_append_left _ ?_
        obtain ⟨k, hk, rfl⟩ := List.mem_map.1 hd
        have hne : k ≠ ⟨c.ipv6Set, hlt⟩ := Fin.ne_of_lt (mem_upTo.1 hk)
        exact List.mem_map.2 ⟨k, hk, by rw [update_of_ne hne]⟩
      · refine ⟨_, List.mem_append_right _ (List.mem_singleton_self _), ?_, rfl⟩
        simp only [EventDataAll.key, ht, update_self]

theorem macAddr_of_mem_announced (h : data ∈ c.announced t) : data.macAddr = c.mac := by
  cases t with
  | v4 =>
    rw [EthClient.announced] at h
    split at h
    · rw [List.mem_singleton.1 h]
    · exact absurd h List.not_mem_nil
  | v6 =>
    obtain ⟨j, -, rfl⟩ := List.mem_map.1 h
    rfl

theorem moveDown_same (iface : EthIface) (dst src : EthClient) :
    SameAddrs src (EthClient.moveDown iface dst src) :=
  ⟨rfl, rfl, rfl, rfl, fun _ hk => if_pos (mem_upTo.1 hk)⟩

namespace EthTable

variable {d : EventDataAll} {i : Nat}

/-! ### The table -/

theorem announced_congr (hnum : s'.numEthClient = s.numEthClient)
    (h : ∀ i < s.numEthClient, SameAddrs (s.ethClient i) (s'.ethClient i)) (t : IpType) :
    s'.announced t = s.announced t := by
  rw [announced, announced, hnum, List.flatMap_def, List.flatMap_def]
  exact congrArg List.flatten
    (List.map_congr_left fun i hi => (h i (List.mem_range.1 hi)).announced t)

/-- More clients, or clients with more addresses, announce more. -/
theorem announced_mono (hnum : s.numEthClient ≤ s'.numEthClient)
    (h : ∀ i < s.numEthClient, ∀ d ∈ (s.ethClient i).announced t, d ∈ (s'.ethClient i).announced t)
    (hd : d ∈ s.announced t) : d ∈ s'.announced t := by
  obtain ⟨i, hi, hd⟩ := mem_announced.1 hd
  exact mem_announced.2 ⟨i, Nat.lt_of_lt_of_le hi hnum, h i hi d hd⟩

/-- A client that keeps its addresses can be written back. -/
theorem announced_set (h : ∀ d ∈ (s.ethClient i).announced t, d ∈ c.announced t)
    (hd : d ∈ s.announced t) : d ∈ (s.set i c).announced t := by
  refine announced_mono (Nat.le_refl s.numEthClient) (fun j _ d hd => ?_) hd
  by_cases hj : j = i
  · subst hj
    rw [ethClient_set_self]
    exact h d hd
  · rwa [ethClient_set_of_ne hj]

theorem announced_set_same (h : SameAddrs (s.ethClient i) c) (t : IpType) :
    (s.set i c).announced t = s.announced t := by
  have hnum : (s.set i c).numEthClient = s.numEthClient := rfl
  refine announced_congr hnum (fun j _ => ?_) t
  by_cases hj : j = i
  · subst hj
    rwa [ethClient_set_self]
  · rw [ethClient_set_of_ne hj]
    exact .refl _

theorem handleEthHdrInit_keeps (iface : EthIface) (a : Answers) (s : EthTable) (mac : Mac) :
    s.numEthClient ≤ (s.handleEthHdrInit iface a mac).1.numEthClient ∧
      ∀ i < s.numEthClient, (s.handleEthHdrInit iface a mac).1.ethClient i = s.ethClient i := by
  have hset : ∀ c, ∀ i < s.numEthClient, (s.set s.numEthClient c).ethClient i = s.ethClient i :=
    fun c i hi => ethClient_set_of_ne (Nat.ne_of_lt hi)
  rw [handleEthHdrInit]
  split
  · exact ⟨le_rfl, fun _ _ => rfl⟩
  split
  · exact ⟨le_rfl, fun _ _ => rfl⟩
  split
  · exact ⟨le_rfl, hset _⟩
  · split
    · exact ⟨le_rfl, hset _⟩
    · split
      · exact ⟨le_rfl, hset _⟩
      · split
        · exact ⟨le_rfl, hset _⟩
        · exact ⟨Nat.le_succ _, hset _⟩

/-- A new client changes nothing for those that are there. -/
theorem announced_hdrInit (iface : EthIface) (a : Answers) (mac : Mac) (hd : d ∈ s.announced t) :
    d ∈ (s.handleEthHdrInit iface a mac).1.announced t := by
  obtain ⟨hnum, hkeeps⟩ := handleEthHdrInit_keeps iface a s mac
  refine announced_mono hnum (fun i hi d hd => ?_) hd
  rwa [hkeeps i hi]

theorem announced_routeRule (iface : EthIface) (a : Answers) (s : EthTable) (mac : Mac)
    (t t' : IpType) :
    (s.handleEthClientRouteRule iface a mac t).1.announced t' = s.announced t' := by
  rw [handleEthClientRouteRule]
  split
  · rfl
  · split
    · rfl
    next i hi => exact announced_set_same (handleRouteRule_same iface a (s.ethClient i) t) t'

theorem announced_ipaddr_other (iface : EthIface) (a : Answers) (ht : t ≠ data.iptype)
    (hd : d ∈ s.announced t) : d ∈ (s.handleEthClientIpaddr iface a data).1.announced t := by
  rw [handleEthClientIpaddr]
  split
  · exact hd
  next i hi =>
    refine announced_set (fun d hd => ?_) hd
    rwa [handleIpaddr_other iface a (s.ethClient i) ht]

/-- A client that goes takes only its own addresses. -/
theorem announced_down (iface : EthIface) (a : Answers) (hd : d ∈ s.announced t)
    (hmac : d.macAddr ≠ mac) : d ∈ (s.handleEthClientDownEvt iface a mac).1.announced t := by
  rw [handleEthClientDownEvt]
  split
  · exact hd
  next i hi =>
    obtain ⟨hilt, hkey, -⟩ := indexOf?_eq_some.1 hi
    split
    next c hc =>
      rwa [announced_set_same (handleDown_same hc)]
    next c hc =>
      obtain ⟨j, hj, hd⟩ := mem_announced.1 hd
      have hji : j ≠ i := by
        rintro rfl
        exact hmac ((macAddr_of_mem_announced hd).trans hkey)
      have hslot := ethClient_set_of_ne (s := s) (c := c) hji
      rw [mem_announced]
      dsimp only
      rcases Nat.lt_or_gt_of_ne hji with hlt | hgt
      · refine ⟨j, by omega, ?_⟩
        rwa [compact_apply, if_neg (by omega), hslot]
      · -- the client is in the entry before
        refine ⟨j - 1, by omega, ?_⟩
        rw [compact_apply, if_pos (by omega), show j - 1 + 1 = j by omega, hslot,
          (moveDown_same _ _ _).announced]
        exact hd

/-- The client of an event is there once its headers are, and takes the address. -/
def Takes (iface : EthIface) (s : EthTable) (hdr : Answers) (data : EventDataAll) : Prop :=
  ∃ i ∈ (s.handleEthHdrInit iface hdr data.macAddr).1.getEthClientIndex data.macAddr,
    ((s.handleEthHdrInit iface hdr data.macAddr).1.ethClient i).Takes data

instance decidableTableTakes (iface : EthIface) (s : EthTable) (hdr : Answers)
    (data : EventDataAll) : Decidable (s.Takes iface hdr data) :=
  inferInstanceAs (Decidable (∃ i ∈ _, _))

/-- The address of a known client is announced from then on. -/
theorem announced_ipaddr_takes {hdr : Answers} (iface : EthIface) (a : Answers)
    (h : s.Takes iface hdr data) :
    let s' := ((s.handleEthHdrInit iface hdr data.macAddr).1.handleEthClientIpaddr iface a data).1
    (∀ d ∈ s.announced data.iptype, d ∈ s'.announced data.iptype) ∧
      ∃ d ∈ s'.announced data.iptype, d.key = data.key ∧ d.macAddr = data.macAddr := by
  obtain ⟨i, hi, htakes⟩ := h
  have hi : (s.handleEthHdrInit iface hdr data.macAddr).1.getEthClientIndex data.macAddr = some i :=
    hi
  obtain ⟨hold, d, hd, hkey, hmac⟩ := handleIpaddr_takes iface a htakes
  obtain ⟨hilt, himac, -⟩ := indexOf?_eq_some.1 hi
  rw [handleEthClientIpaddr, hi]
  refine ⟨fun d hd => announced_set hold (announced_hdrInit iface hdr data.macAddr hd), d, ?_, hkey,
    hmac.trans himac⟩
  refine mem_announced.2 ⟨i, hilt, ?_⟩
  rwa [ethClient_set_self]

/-! ### A reset -/

/-- The loop of a reset deletes rules, not addresses. -/
theorem resetRtFrom_announced (iface : EthIface) (a : Answers) (k i : Nat) (s : EthTable)
    (t t' : IpType) : (resetRtFrom iface a t k i s).1.announced t' = s.announced t' := by
  induction k generalizing i s with
  | zero => rfl
  | succ k ih =>
    have hset := announced_set_same (deleteEthRtrules_same iface a (s.ethClient i) t) t'
    rw [resetRtFrom]
    split
    next c hc =>
      rw [hc] at hset
      exact hset
    next c hc =>
      rw [hc] at hset
      rw [ih]
      exact hset

theorem announced_resetAddrs (s : EthTable) :
    (s.resetAddrs .v6).announced .v4 = s.announced .v4 := by
  rw [announced, announced, List.flatMap_def, List.flatMap_def]
  refine congrArg List.flatten (List.map_congr_left fun i hi => ?_)
  have hi : i < s.numEthClient := List.mem_range.1 hi
  rw [resetAddrs]
  dsimp only
  rw [if_pos hi]
  rfl

/-- The rules of the IPv6 addresses are deleted. -/
def resets (iface : EthIface) (a : Answers) (s : EthTable) : Bool :=
  (resetRtFrom iface a .v6 s.numEthClient 0 s).2

/-- A reset that fails changes and reports nothing. -/
theorem handleLanClientResetRt_fails (this : Iface) (h : s.resets iface a = false) :
    (∀ t, (s.handleLanClientResetRt this iface a .v6).1.announced t = s.announced t) ∧
      (s.handleLanClientResetRt this iface a .v6).2 = [] := by
  have hsame := resetRtFrom_announced iface a s.numEthClient 0 s .v6
  rw [handleLanClientResetRt]
  rw [resets] at h
  split
  next s' hs' =>
    rw [hs'] at hsame
    exact ⟨hsame, rfl⟩
  next s' hs' =>
    rw [hs'] at h
    cases h

/-- A reset of IPv6 reports all IPv6 addresses and keeps those of IPv4. -/
theorem handleLanClientResetRt_succeeds (this : Iface) (h : s.resets iface a = true) :
    (s.handleLanClientResetRt this iface a .v6).1.announced .v4 = s.announced .v4 ∧
      (s.handleLanClientResetRt this iface a .v6).2 =
        (s.announced .v6).map (disconnectMsg this) := by
  have hsame := resetRtFrom_announced iface a s.numEthClient 0 s .v6
  rw [handleLanClientResetRt]
  rw [resets] at h
  split
  next s' hs' =>
    rw [hs'] at h
    cases h
  next s' hs' =>
    rw [hs'] at hsame
    rw [announced_resetAddrs, postLan2lanClientDisconnectMsg_eq, hsame, hsame]
    exact ⟨rfl, rfl⟩

end EthTable

end Nx508j.Ipacm.EthClients
