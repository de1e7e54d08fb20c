import Nx508j.Ipacm.LanHandlers

/-! # Peers

How often a client counts a connection to another is the same from both sides, whatever the interfaces
answer: every handler changes both lists or neither. -/

namespace Nx508j.Ipacm.Lan2Lan

open Nx508j.Lib

variable {ω : Type} {cfg : Config} {ops : Ifaces ω} {t : IpType}

namespace Side

variable {s s' s₁ : Side} {w w' : ω} {a b p q : Ptr} {r : Bool} {key : Key} {c : ClientInfo}

/-- How many connections the client at `p` counts to the one at `q`. -/
def counted (s : Side) (p q : Ptr) : Option Int :=
  (s.mem p).bind fun c => (record PeerInfo.peerPointer c.peer q).map PeerInfo.numConnection

theorem counted_of_mem (h : s.mem p = some c) (q : Ptr) :
    s.counted p q = (record PeerInfo.peerPointer c.peer q).map PeerInfo.numConnection := by
  rw [counted, h]
  rfl

theorem counted_of_dead (h : s.mem p = none) (q : Ptr) : s.counted p q = none := by
  rw [counted, h]
  rfl

/-- Nothing is counted just when there is no entry. -/
theorem counted_eq_none (h : s.mem p = some c) :
    s.counted p q = none ↔ q ∉ c.peer.map PeerInfo.peerPointer := by
  rw [counted_of_mem h, Option.map_eq_none_iff, record_eq_none]

theorem live_of_counted (h : s.counted p q ≠ none) : s.mem p ≠ none := by
  intro hp
  exact h (counted_of_dead hp q)

/-- What is counted depends on the peers alone. -/
theorem counted_congr (h : (s'.mem p).map ClientInfo.peer = (s.mem p).map ClientInfo.peer)
    (q : Ptr) : s'.counted p q = s.counted p q := by
  have hbind : ∀ m : Option ClientInfo,
      (m.bind fun c => (record PeerInfo.peerPointer c.peer q).map PeerInfo.numConnection) =
        (m.map ClientInfo.peer).bind fun l =>
          (record PeerInfo.peerPointer l q).map PeerInfo.numConnection := by
    intro m
    cases m <;> rfl
  rw [counted, counted, hbind, hbind, h]

/-- Both clients of a pair count the same, at least one, and each has one entry for the other. -/
structure PeersOk (s : Side) : Prop where
  symm : ∀ p q, s.counted p q = s.counted q p
  nodup : ∀ p c, s.mem p = some c → (c.peer.map PeerInfo.peerPointer).Nodup
  pos : ∀ p q n, s.counted p q = some n → 0 < n

theorem PeersOk.init : PeersOk init where
  symm := fun p q => by rw [counted_of_dead rfl, counted_of_dead rfl]
  nodup := fun p c h => absurd h (by simp [Side.init])
  pos := fun p q n h => by
    rw [counted_of_dead rfl] at h
    cases h

theorem PeersOk.congr (hs : s.PeersOk)
    (h : ∀ p, (s'.mem p).map ClientInfo.peer = (s.mem p).map ClientInfo.peer) : s'.PeersOk where
  symm := fun p q => by
    rw [counted_congr (h p), counted_congr (h q)]
    exact hs.symm p q
  nodup := fun p c' hc' => by
    have hp := h p
    rw [hc', Option.map_some] at hp
    obtain ⟨c, hc, heq⟩ := Option.map_eq_some_iff.mp hp.symm
    rw [← heq]
    exact hs.nodup p c hc
  pos := fun p q n hn => by
    rw [counted_congr (h p)] at hn
    exact hs.pos p q n hn

end Side

/-! ## What leaves peers alone -/

section Frame

variable {s s' : Side} {p q : Ptr}

theorem LinksOnly.peer (h : LinksOnly s s') (p : Ptr) :
    (s'.mem p).map ClientInfo.peer = (s.mem p).map ClientInfo.peer := by
  have hp := congrArg (Option.map ClientInfo.peer) (h.client p)
  rw [Option.map_map, Option.map_map] at hp
  exact hp

theorem LinksOnly.counted (h : LinksOnly s s') (p q : Ptr) : s'.counted p q = s.counted p q :=
  Side.counted_congr (h.peer p) q

/-- Links do not matter here. -/
theorem LinksOnly.peersOk (h : LinksOnly s s') (hs : s.PeersOk) : s'.PeersOk :=
  hs.congr h.peer

theorem Side.SameClients.peer (h : s.SameClients s') (p : Ptr) :
    (s'.mem p).map ClientInfo.peer = (s.mem p).map ClientInfo.peer := by
  rw [h.mem]

theorem Side.SameClients.counted (h : s.SameClients s') (p q : Ptr) :
    s'.counted p q = s.counted p q :=
  Side.counted_congr (h.peer p) q

theorem Side.SameClients.peersOk (h : s.SameClients s') (hs : s.PeersOk) : s'.PeersOk :=
  hs.congr h.peer

theorem Side.modify_peer (s : Side) (p : Ptr) {f : ClientInfo → ClientInfo}
    (hf : ∀ c, (f c).peer = c.peer) (q : Ptr) :
    ((s.modify p f).mem q).map ClientInfo.peer = (s.mem q).map ClientInfo.peer :=
  s.map_mem_modify p hf q

end Frame

namespace Side

variable {s s' s₁ : Side} {w w' : ω} {a b p q : Ptr} {r : Bool} {key : Key} {c : ClientInfo}

/-! ## A client comes or goes -/

/-- A new client has no peers. -/
theorem counted_insert (hs : s.Wf) (hc : c.peer = []) (p q : Ptr) :
    (s.insert key c).counted p q = s.counted p q := by
  by_cases hp : p = s.next
  · have hdead : s.mem p = none := by
      by_contra hlive
      exact Nat.ne_of_lt (hs.fresh p hlive) hp
    have hmem : (s.insert key c).mem p = some c := by rw [mem_insert, if_pos hp]
    rw [counted_of_dead hdead, counted_of_mem hmem, hc]
    rfl
  · exact counted_congr (by rw [mem_insert, if_neg hp]) q

theorem PeersOk.insert (hs : s.PeersOk) (hwf : s.Wf) (hc : c.peer = []) :
    (s.insert key c).PeersOk where
  symm := fun p q => by
    rw [counted_insert hwf hc, counted_insert hwf hc]
    exact hs.symm p q
  nodup := fun p c' hc' => by
    rw [mem_insert] at hc'
    split at hc'
    · cases hc'
      rw [hc]
      exact List.nodup_nil
    · exact hs.nodup p c' hc'
  pos := fun p q n hn => by
    rw [counted_insert hwf hc] at hn
    exact hs.pos p q n hn

/-- The others count what they counted. -/
theorem counted_erase (h : s.find key = some p) (hp : ∀ q, s.counted p q = none) (q q' : Ptr) :
    (s.erase key).counted q q' = s.counted q q' := by
  by_cases hq : q = p
  · rw [hq, hp, counted_of_dead (by rw [mem_erase h, if_pos rfl])]
  · exact counted_congr (by rw [mem_erase h, if_neg hq]) q'

theorem PeersOk.erase (hs : s.PeersOk) (h : s.find key = some p)
    (hp : ∀ q, s.counted p q = none) : (s.erase key).PeersOk where
  symm := fun q q' => by
    rw [counted_erase h hp, counted_erase h hp]
    exact hs.symm q q'
  nodup := fun q c hc => by
    rw [mem_erase h] at hc
    split at hc
    · cases hc
    · exact hs.nodup q c hc
  pos := fun q q' n hn => by
    rw [counted_erase h hp] at hn
    exact hs.pos q q' n hn

theorem counted_of_nil (hc : s.mem p = some c) (hnil : c.peer = []) (q : Ptr) :
    s.counted p q = none := by
  rw [counted_eq_none hc, hnil]
  exact List.not_mem_nil

/-! ## A connection is counted -/

/-- One more is counted, from the first on. -/
theorem countPeer_counted (h : s.countPeer a b = some (r, s')) (p q : Ptr) :
    s'.counted p q =
      if p = a ∧ q = b then some ((s.counted a b).getD 0 + 1) else s.counted p q := by
  obtain ⟨c, hc, hcase⟩ := countPeer_cases h
  by_cases hp : p = a
  · subst hp
    rw [counted_of_mem hc]
    obtain ⟨hx, -, rfl⟩ | ⟨x, n, hx, hn, -, rfl⟩ := hcase
    · have hmem := mem_modify s p (fun c => { c with peer := c.peer ++ [⟨b, 1⟩] }) p
      rw [if_pos rfl, hc] at hmem
      rw [counted_of_mem hmem, record_append, counted_of_mem hc, hx]
      by_cases hq : q = b
      · subst hq
        simp [hx]
      · simp [hq, Ne.symm hq]
    · rw [counted, mem_modify, if_pos rfl, hc, counted_of_mem hc, hx]
      have hrec := @record_amend _ _ _ PeerInfo.peerPointer
        (f := fun x => { x with numConnection := n }) (fun _ => rfl) b q c.peer
      obtain rfl : x.numConnection + 1 = n := by
        unfold addInt at hn
        split at hn
        · exact Option.some.inj hn
        · cases hn
      simp only [Option.map_some, Option.bind_some, hrec, hx]
      split
      · next hq => simp [hq]
      · next hq => simp [hq]
  · have hmem : s'.mem p = s.mem p := by
      obtain ⟨-, -, rfl⟩ | ⟨x, n, -, -, -, rfl⟩ := hcase
      · rw [mem_modify, if_neg hp]
      · rw [mem_modify, if_neg hp]
    rw [if_neg fun h => hp h.1]
    exact counted_congr (by rw [hmem]) q

/-- A connection is new when none was counted. -/
theorem countPeer_res (h : s.countPeer a b = some (r, s')) :
    r = (s.counted a b).isNone := by
  obtain ⟨c, hc, ⟨hx, rfl, -⟩ | ⟨x, n, hx, -, rfl, -⟩⟩ := countPeer_cases h
  · rw [counted_of_mem hc, hx]
    rfl
  · rw [counted_of_mem hc, hx]
    rfl

theorem countPeer_nodup (h : s.countPeer a b = some (r, s'))
    (hs : ∀ p c, s.mem p = some c → (c.peer.map PeerInfo.peerPointer).Nodup) :
    ∀ p c, s'.mem p = some c → (c.peer.map PeerInfo.peerPointer).Nodup := by
  intro p c' hc'
  obtain ⟨c, hc, ⟨hx, -, rfl⟩ | ⟨x, n, -, -, -, rfl⟩⟩ := countPeer_cases h
  · rw [mem_modify] at hc'
    split at hc'
    · rw [hc] at hc'
      cases hc'
      rw [List.map_append]
      exact (hs a c hc).append (List.nodup_singleton _)
        (by simpa using record_eq_none.mp hx)
    · exact hs p c' hc'
  · rw [mem_modify] at hc'
    split at hc'
    · rw [hc] at hc'
      cases hc'
      have hkey : ∀ x : PeerInfo, PeerInfo.peerPointer { x with numConnection := n } =
          x.peerPointer := fun _ => rfl
      rw [map_key_amend hkey]
      exact hs a c hc
    · exact hs p c' hc'

/-- Both sides count one more. -/
theorem addConnection_counted (hs : s.PeersOk) (h : s.addConnection a b = some (r, s'))
    (hab : a ≠ b) (p q : Ptr) :
    s'.counted p q = if p = a ∧ q = b ∨ p = b ∧ q = a then
      some ((s.counted a b).getD 0 + 1) else s.counted p q := by
  obtain ⟨r₁, s₁, r₂, h₁, h₂, -⟩ := addConnection_cases h
  rw [countPeer_counted h₂, countPeer_counted h₁, countPeer_counted h₁, hs.symm b a]
  by_cases hba : p = b ∧ q = a
  · simp [hba, hab, Ne.symm hab]
  · by_cases hpq : p = a ∧ q = b
    · simp [hpq, hab]
    · simp [hpq, hba]

theorem addConnection_res (hs : s.PeersOk) (h : s.addConnection a b = some (r, s')) :
    r = (s.counted a b).isNone := by
  obtain ⟨r₁, s₁, r₂, h₁, h₂, rfl⟩ := addConnection_cases h
  rw [countPeer_res h₁, countPeer_res h₂, countPeer_counted h₁]
  split
  · next hba =>
    simp
  · rw [hs.symm b a, Bool.or_self]

/-- Also for a client with itself. -/
theorem PeersOk.addConnection (hs : s.PeersOk) (h : s.addConnection a b = some (r, s')) :
    s'.PeersOk := by
  obtain ⟨r₁, s₁, r₂, h₁, h₂, -⟩ := addConnection_cases h
  have hpos : ∀ u v, 0 < (s.counted u v).getD 0 + 1 := by
    intro u v
    cases hn : s.counted u v with
    | none => exact Int.one_pos
    | some n =>
      have := hs.pos u v n hn
      show 0 < n + 1
      omega
  constructor
  · intro p q
    by_cases hab : a = b
    · subst hab
      rw [countPeer_counted h₂, countPeer_counted h₂, countPeer_counted h₁, countPeer_counted h₁,
        countPeer_counted h₁, hs.symm p q]
      simp only [and_comm]
    · rw [addConnection_counted hs h hab, addConnection_counted hs h hab, hs.symm p q]
      have hiff : (p = a ∧ q = b ∨ p = b ∧ q = a) ↔ (q = a ∧ p = b ∨ q = b ∧ p = a) := by
        grind
      simp only [hiff]
  · exact countPeer_nodup h₂ (countPeer_nodup h₁ hs.nodup)
  · intro p q n hn
    rw [countPeer_counted h₂, countPeer_counted h₁, countPeer_counted h₁] at hn
    split at hn
    · cases hn
      split
      · have := hpos a b
        show 0 < (s.counted a b).getD 0 + 1 + 1
        omega
      · exact hpos b a
    · split at hn
      · cases hn
        exact hpos a b
      · exact hs.pos p q n hn

/-! ## A connection less is counted -/

/-- The count after a connection is gone. -/
def oneLess (n : Option Int) : Option Int :=
  n.bind fun n => if n - 1 = 0 then none else some (n - 1)

theorem addInt_eq {n d m : Int} (h : addInt n d = some m) : m = n + d := by
  unfold addInt at h
  split at h
  · exact (Option.some.inj h).symm
  · cases h

/-- Without its entry a peer is not counted. -/
theorem dropPeer_counted (hs : ∀ c, s.mem a = some c → (c.peer.map PeerInfo.peerPointer).Nodup)
    (p q : Ptr) :
    (s.dropPeer a b).counted p q = if p = a ∧ q = b then none else s.counted p q := by
  by_cases hp : p = a
  · subst hp
    cases hc : s.mem p with
    | none =>
      rw [counted_of_dead hc, counted_of_dead (by rw [dropPeer, mem_modify, if_pos rfl, hc]; rfl)]
      split <;> rfl
    | some c =>
      have hmem : (s.dropPeer p b).mem p =
          some { c with peer := discard PeerInfo.peerPointer c.peer b } := by
        rw [dropPeer, mem_modify, if_pos rfl, hc]
        rfl
      rw [counted_of_mem hmem, counted_of_mem hc]
      by_cases hq : q = b
      · subst hq
        rw [record_discard_self (hs c hc), if_pos ⟨rfl, rfl⟩]
        rfl
      · rw [record_discard_of_ne hq, if_neg fun h => hq h.2]
  · rw [if_neg fun h => hp h.1]
    exact counted_congr (by rw [dropPeer, mem_modify, if_neg hp]) q

theorem dropPeer_nodup (hs : ∀ p c, s.mem p = some c → (c.peer.map PeerInfo.peerPointer).Nodup) :
    ∀ p c, (s.dropPeer a b).mem p = some c → (c.peer.map PeerInfo.peerPointer).Nodup := by
  intro p c' hc'
  rw [dropPeer, mem_modify] at hc'
  split at hc'
  · obtain ⟨c, hc, rfl⟩ := Option.map_eq_some_iff.mp hc'
    exact nodup_discard (hs a c hc) b
  · exact hs p c' hc'

/-- One less is counted. With the last one the entry goes. -/
theorem uncountPeer_counted (hs : ∀ p c, s.mem p = some c → (c.peer.map PeerInfo.peerPointer).Nodup)
    (h : s.uncountPeer a b = some (r, s')) (p q : Ptr) :
    s'.counted p q = if p = a ∧ q = b then oneLess (s.counted a b) else s.counted p q := by
  obtain ⟨c, hc, ⟨hx, -, rfl⟩ | ⟨x, n, hx, hn, hcase⟩⟩ := uncountPeer_cases h
  · have hnone : s'.counted a b = none := by
      rw [counted_of_mem hc, hx]
      rfl
    split
    · next hpq => rw [hpq.1, hpq.2, hnone]; rfl
    · rfl
  · have hsome : s.counted a b = some x.numConnection := by
      rw [counted_of_mem hc, hx]
      rfl
    obtain rfl : n = x.numConnection - 1 := addInt_eq hn
    obtain ⟨h0, -, rfl⟩ | ⟨h0, -, rfl⟩ := hcase
    · rw [dropPeer_counted (hs a), hsome, oneLess, Option.bind_some, if_pos h0]
    rw [hsome, oneLess, Option.bind_some, if_neg h0]
    by_cases hp : p = a
    · subst hp
      have hrec := @record_amend _ _ _ PeerInfo.peerPointer
        (f := fun y : PeerInfo => { y with numConnection := x.numConnection - 1 })
        (fun _ => rfl) b q c.peer
      rw [counted, mem_modify, if_pos rfl, hc, counted_of_mem hc]
      simp only [Option.map_some, Option.bind_some, hrec, hx]
      split
      · next hq => simp [hq]
      · next hq => simp [hq]
    · rw [if_neg fun h => hp h.1]
      exact counted_congr (by rw [mem_modify, if_neg hp]) q

/-- Returns whether it was the last. -/
theorem uncountPeer_res (h : s.uncountPeer a b = some (r, s')) :
    r = true ↔ s.counted a b = some 1 := by
  obtain ⟨c, hc, ⟨hx, rfl, -⟩ | ⟨x, n, hx, hn, hcase⟩⟩ := uncountPeer_cases h
  · rw [counted_of_mem hc, hx]
    simp
  have hsome : s.counted a b = some x.numConnection := by
    rw [counted_of_mem hc, hx]
    rfl
  have hn := addInt_eq hn
  rw [hsome, Option.some.injEq]
  obtain ⟨h0, rfl, -⟩ | ⟨h0, rfl, -⟩ := hcase
  · exact iff_of_true rfl (by omega)
  · exact iff_of_false Bool.false_ne_true (by omega)

theorem uncountPeer_nodup (hs : ∀ p c, s.mem p = some c → (c.peer.map PeerInfo.peerPointer).Nodup)
    (h : s.uncountPeer a b = some (r, s')) :
    ∀ p c, s'.mem p = some c → (c.peer.map PeerInfo.peerPointer).Nodup := by
  obtain ⟨c, hc, ⟨-, -, rfl⟩ | ⟨x, n, -, -, ⟨-, -, rfl⟩ | ⟨-, -, rfl⟩⟩⟩ := uncountPeer_cases h
  · exact hs
  · exact dropPeer_nodup hs
  · intro p c' hc'
    rw [mem_modify] at hc'
    split at hc'
    · rw [hc] at hc'
      cases hc'
      have hkey : ∀ x : PeerInfo, PeerInfo.peerPointer { x with numConnection := n } =
          x.peerPointer := fun _ => rfl
      rw [map_key_amend hkey]
      exact hs a c hc
    · exact hs p c' hc'

/-- Both sides count one less. -/
theorem removeConnection_counted (hs : s.PeersOk) (h : s.removeConnection a b = some (r, s'))
    (hab : a ≠ b) (p q : Ptr) :
    s'.counted p q = if p = a ∧ q = b ∨ p = b ∧ q = a then oneLess (s.counted a b)
      else s.counted p q := by
  obtain ⟨r₁, s₁, h₁, h₂⟩ := removeConnection_cases h
  rw [uncountPeer_counted (uncountPeer_nodup hs.nodup h₁) h₂, uncountPeer_counted hs.nodup h₁,
    uncountPeer_counted hs.nodup h₁, hs.symm b a]
  by_cases hba : p = b ∧ q = a
  · simp [hba, hab, Ne.symm hab]
  · by_cases hpq : p = a ∧ q = b
    · simp [hpq, hab]
    · simp [hpq, hba]

theorem removeConnection_res (hs : s.PeersOk) (h : s.removeConnection a b = some (r, s'))
    (hab : a ≠ b) : r = true ↔ s.counted a b = some 1 := by
  obtain ⟨r₁, s₁, h₁, h₂⟩ := removeConnection_cases h
  rw [uncountPeer_res h₂, uncountPeer_counted hs.nodup h₁, if_neg (fun h => hab h.1.symm),
    hs.symm]

theorem oneLess_pos {n : Option Int} (hn : ∀ k, n = some k → 0 < k) {k : Int}
    (h : oneLess n = some k) : 0 < k := by
  obtain ⟨m, hm, h⟩ := Option.bind_eq_some_iff.mp h
  have := hn m hm
  split at h
  · cases h
  · cases h
    omega

theorem PeersOk.removeConnection (hs : s.PeersOk) (h : s.removeConnection a b = some (r, s')) :
    s'.PeersOk := by
  obtain ⟨r₁, s₁, h₁, h₂⟩ := removeConnection_cases h
  have hnodup₁ := uncountPeer_nodup hs.nodup h₁
  have hpos₁ : ∀ p q k, s₁.counted p q = some k → 0 < k := by
    intro p q k hk
    rw [uncountPeer_counted hs.nodup h₁] at hk
    split at hk
    · exact oneLess_pos (hs.pos a b) hk
    · exact hs.pos p q k hk
  constructor
  · intro p q
    by_cases hab : a = b
    · subst hab
      rw [uncountPeer_counted hnodup₁ h₂, uncountPeer_counted hnodup₁ h₂,
        uncountPeer_counted hs.nodup h₁, uncountPeer_counted hs.nodup h₁,
        uncountPeer_counted hs.nodup h₁, hs.symm p q]
      simp only [and_comm]
    · rw [removeConnection_counted hs h hab, removeConnection_counted hs h hab, hs.symm p q]
      have hiff : (p = a ∧ q = b ∨ p = b ∧ q = a) ↔ (q = a ∧ p = b ∨ q = b ∧ p = a) := by
        grind
      simp only [hiff]
  · exact uncountPeer_nodup hnodup₁ h₂
  · intro p q k hk
    rw [uncountPeer_counted hnodup₁ h₂] at hk
    split at hk
    · exact oneLess_pos (hpos₁ b a) hk
    · exact hpos₁ p q k hk

/-! ## The peers of a client are cleared -/

/-- By induction on the peers: those passed have no entry for the client any more. -/
theorem clearPeerFrom_counted {peers : List PeerInfo} (h : clearPeerFrom p peers s = some (r, s'))
    (hs : ∀ p c, s.mem p = some c → (c.peer.map PeerInfo.peerPointer).Nodup)
    (hpeers : (peers.map PeerInfo.peerPointer).Nodup)
    (hback : ∀ q ∈ peers.map PeerInfo.peerPointer, s.counted q p ≠ none) :
    r = true ∧ (∀ p c, s'.mem p = some c → (c.peer.map PeerInfo.peerPointer).Nodup) ∧
      ∀ u v, s'.counted u v =
        if v = p ∧ u ∈ peers.map PeerInfo.peerPointer then none else s.counted u v := by
  induction peers generalizing s with
  | nil =>
    cases h
    exact ⟨rfl, hs, fun u v => by simp⟩
  | cons x peers ih =>
    rw [List.map_cons, List.nodup_cons] at hpeers
    obtain ⟨q, hq, ⟨hnone, -, -⟩ | ⟨-, hne, hrest⟩⟩ := clearPeerFrom_cons h
    · refine absurd ?_ (hback x.peerPointer (List.mem_cons_self ..))
      rw [counted_of_mem hq, hnone]
      rfl
    · have hdrop := dropPeer_counted (s := s) (a := x.peerPointer) (b := p) (hs x.peerPointer)
      obtain ⟨hr, hnodup, hcounted⟩ := ih hrest (dropPeer_nodup hs) hpeers.2 fun y hy => by
        have hyx : y ≠ x.peerPointer := fun h => hpeers.1 (h ▸ hy)
        rw [hdrop, if_neg fun h => hyx h.1]
        exact hback y (List.mem_cons_of_mem _ hy)
      refine ⟨hr, hnodup, fun u v => ?_⟩
      rw [hcounted, hdrop]
      by_cases hv : v = p
      · by_cases hu : u = x.peerPointer <;> simp [hv, hu]
      · simp [hv]

/-- A client whose list is cleared is in no list. -/
theorem clearPeerList_counted (hs : s.PeersOk) (h : s.clearPeerList p = some (r, s')) :
    r = true ∧ s'.PeersOk ∧
      ∀ u v, s'.counted u v = if u = p ∨ v = p then none else s.counted u v := by
  obtain ⟨c, s₁, hc, hloop, hend⟩ := clearPeerList_cases h
  obtain ⟨rfl, hnodup, hloop'⟩ := clearPeerFrom_counted hloop hs.nodup (hs.nodup p c hc) fun q hq => by
    rw [hs.symm, Ne, counted_eq_none hc, not_not]
    exact hq
  obtain ⟨hr, -⟩ | ⟨-, rfl⟩ := hend
  · cases hr
  obtain ⟨c₁, hc₁, -⟩ := (clearPeerFrom_peersOnly hloop).exists_mem hc
  have hcounted : ∀ u v, (s₁.modify p fun c => { c with peer := [] }).counted u v =
      if u = p ∨ v = p then none else s.counted u v := by
    intro u v
    by_cases hu : u = p
    · rw [if_pos (.inl hu), hu]
      exact counted_of_nil (c := { c₁ with peer := [] })
        (by rw [mem_modify, if_pos rfl, hc₁]; rfl) rfl v
    · have hsame : (s₁.modify p fun c => { c with peer := [] }).counted u v = s₁.counted u v :=
        counted_congr (by rw [mem_modify, if_neg hu]) v
      rw [hsame, hloop']
      by_cases hv : v = p
      · rw [if_pos (Or.inr hv : u = p ∨ v = p)]
        split
        · rfl
        · next hmem =>
          rw [hv, hs.symm, counted_eq_none hc]
          exact fun h => hmem ⟨hv, h⟩
      · rw [if_neg fun h => hv h.1, if_neg fun h => h.elim hu hv]
  refine ⟨rfl, ⟨fun u v => ?_, fun u c' hc' => ?_, fun u v n hn => ?_⟩, hcounted⟩
  · rw [hcounted, hcounted, hs.symm u v]
    simp only [or_comm]
  · rw [mem_modify] at hc'
    split at hc'
    · rw [hc₁] at hc'
      cases hc'
      exact List.nodup_nil
    · exact hnodup u c' hc'
  · rw [hcounted] at hn
    split at hn
    · cases hn
    · exact hs.pos u v n hn

/-! ## Handlers -/

section Handlers

variable {data : LanClientData} {conn : ConnectionData} {pIface : Iface}

theorem turnoff_clearPeerList (hs : s.PeersOk)
    (hoff : turnoffOffloadLinks ops t p s w = some (r, s₁, w'))
    {r' : Bool} (hclear : s₁.clearPeerList p = some (r', s')) :
    s'.PeersOk ∧ ∀ u v, s'.counted u v = if u = p ∨ v = p then none else s.counted u v := by
  have hlinks := turnoffOffloadLinks_linksOnly hoff
  obtain ⟨-, hok, hcounted⟩ := clearPeerList_counted (hlinks.peersOk hs) hclear
  exact ⟨hok, fun u v => by rw [hcounted, hlinks.counted]⟩

/-- The client at the address of an event that has another owner now. -/
def replaced (s : Side) (t : IpType) (data : LanClientData) : Option Ptr :=
  (s.find (data.key t)).filter fun p =>
    (s.mem p).any fun c => c.isActive && c.macAddr != data.macAddr

/-- Only a client that is replaced loses its connections. -/
theorem handleClientActive_counted (hwf : s.Wf) (hs : s.PeersOk)
    (h : s.handleClientActive cfg ops t data pIface w = some (s', w')) :
    s'.Wf ∧ s'.PeersOk ∧ ∀ u v, s'.counted u v =
      if s.replaced t data = some u ∨ s.replaced t data = some v then none else s.counted u v := by
  have hfill : ∀ c, (data.fill t pIface c).peer = c.peer := fun _ => rfl
  obtain ⟨hfind, -, hannounce⟩ | ⟨p, c, hfind, hc, hcase⟩ := handleClientActive_cases h
  · have hsame := announce_same hannounce
    refine ⟨hsame.wf (hwf.insert hfind _), hsame.peersOk (hs.insert hwf rfl), fun u v => ?_⟩
    rw [hsame.counted, counted_insert hwf rfl, replaced, hfind]
    simp
  · obtain ⟨hact, hmac, rfl, -⟩ | ⟨hact, hmac, r, s₁, r', s₂, hoff, hclear, hannounce⟩ |
      ⟨hact, s₁, hcheck, hannounce⟩ := hcase
    · refine ⟨hwf, hs, fun u v => ?_⟩
      have hnone : s'.replaced t data = none := by
        simp [replaced, hfind, hc, hmac, Option.filter]
      rw [hnone]
      simp
    · have hsame := announce_same hannounce
      obtain ⟨hok, hcounted⟩ := turnoff_clearPeerList hs hoff hclear
      have hwf₂ := (clearPeerList_peersOnly hclear).wf ((turnoffOffloadLinks_linksOnly hoff).wf hwf)
      have hpeer := modify_peer s₂ p hfill
      have hsome : s.replaced t data = some p := by
        simp [replaced, hfind, hc, hact, hmac, Option.filter]
      refine ⟨hsame.wf (hwf₂.modify _ _), hsame.peersOk (hok.congr hpeer), fun u v => ?_⟩
      rw [hsame.counted, counted_congr (hpeer u), hcounted, hsome]
      simp only [Option.some.injEq, eq_comm]
    · have hsame := announce_same hannounce
      have hlinks := checkPotentialLink_linksOnly hcheck
      have hpeer := modify_peer s p hfill
      have hnone : s.replaced t data = none := by
        simp [replaced, hfind, hc, hact, Option.filter]
      refine ⟨hsame.wf (hlinks.wf (hwf.modify _ _)),
        hsame.peersOk (hlinks.peersOk (hs.congr hpeer)), fun u v => ?_⟩
      rw [hsame.counted, hlinks.counted, counted_congr (hpeer u), hnone]
      simp

/-- An inactive client keeps its connections. -/
theorem handleClientInactive_counted (hwf : s.Wf) (hs : s.PeersOk)
    (h : s.handleClientInactive ops t data w = some (s', w')) :
    s'.Wf ∧ s'.PeersOk ∧ ∀ u v, s'.counted u v = s.counted u v := by
  obtain ⟨-, rfl, -⟩ | ⟨p, r, s₁, c, hfind, hoff, hc, hend⟩ := handleClientInactive_cases h
  · exact ⟨hwf, hs, fun _ _ => rfl⟩
  have hlinks := turnoffOffloadLinks_linksOnly hoff
  have hpeer := modify_peer s₁ p (f := fun c => { c with isActive := false }) fun _ => rfl
  have hwf₁ := (hlinks.wf hwf).modify p fun c => { c with isActive := false }
  have hok₁ := (hlinks.peersOk hs).congr hpeer
  have hcounted₁ : ∀ u v,
      (s₁.modify p fun c => { c with isActive := false }).counted u v = s.counted u v :=
    fun u v => (counted_congr (hpeer u) v).trans (hlinks.counted u v)
  obtain ⟨hnil, rfl⟩ | ⟨-, rfl⟩ := hend
  · have hfind₁ : (s₁.modify p fun c => { c with isActive := false }).find (data.key t) = some p :=
      (hlinks.find _).trans hfind
    have hnone : ∀ q, (s₁.modify p fun c => { c with isActive := false }).counted p q = none := by
      intro q
      rw [counted_congr (hpeer p)]
      exact counted_of_nil hc hnil q
    refine ⟨hwf₁.erase _, hok₁.erase hfind₁ hnone, fun u v => ?_⟩
    rw [counted_erase hfind₁ hnone, hcounted₁]
  · exact ⟨hwf₁, hok₁, hcounted₁⟩

/-- A client that leaves takes its connections with it. -/
theorem handleClientDisconnect_counted (hwf : s.Wf) (hs : s.PeersOk)
    (h : s.handleClientDisconnect ops t data w = some (s', w')) :
    s'.Wf ∧ s'.PeersOk ∧ ∀ u v, s'.counted u v =
      if s.find (data.key t) = some u ∨ s.find (data.key t) = some v then none
      else s.counted u v := by
  obtain ⟨hfind, rfl, -⟩ | ⟨p, r, s₁, r', s₂, hfind, hoff, hclear, rfl⟩ :=
    handleClientDisconnect_cases h
  · refine ⟨hwf, hs, fun u v => ?_⟩
    rw [hfind]
    simp
  · have hlinks := turnoffOffloadLinks_linksOnly hoff
    have hpeers := clearPeerList_peersOnly hclear
    obtain ⟨hok, hcounted⟩ := turnoff_clearPeerList hs hoff hclear
    have hfind₂ : s₂.find (data.key t) = some p := by
      rw [hpeers.find, hlinks.find, hfind]
    have hnone : ∀ q, s₂.counted p q = none := by
      intro q
      rw [hcounted, if_pos (Or.inl rfl)]
    refine ⟨(hpeers.wf (hlinks.wf hwf)).erase _, hok.erase hfind₂ hnone, fun u v => ?_⟩
    rw [counted_erase hfind₂ hnone, hcounted, hfind]
    simp only [Option.some.injEq, eq_comm]

/-- A client that sleeps keeps its connections. -/
theorem handleClientPowerSave_counted (hwf : s.Wf) (hs : s.PeersOk)
    (h : s.handleClientPowerSave ops t data w = some (s', w')) :
    s'.Wf ∧ s'.PeersOk ∧ ∀ u v, s'.counted u v = s.counted u v := by
  obtain ⟨-, rfl, -⟩ | ⟨p, r, -, -, ⟨-, rfl⟩ | ⟨-, rfl⟩⟩ := handleClientPowerSave_cases h
  · exact ⟨hwf, hs, fun _ _ => rfl⟩
  · exact ⟨hwf, hs, fun _ _ => rfl⟩
  · have hpeer := modify_peer s p
      (f := fun c => { c with isActive := false, isPowersave := true }) fun _ => rfl
    exact ⟨hwf.modify _ _, hs.congr hpeer, fun u v => counted_congr (hpeer u) v⟩

theorem handleClientPowerRecover_counted (hwf : s.Wf) (hs : s.PeersOk)
    (h : s.handleClientPowerRecover cfg ops t data w = some (s', w')) :
    s'.Wf ∧ s'.PeersOk ∧ ∀ u v, s'.counted u v = s.counted u v := by
  obtain ⟨rfl, -⟩ | ⟨p, c, r, s₁, w₁, -, -, -, -, hadd, hend⟩ := handleClientPowerRecover_cases h
  · exact ⟨hwf, hs, fun _ _ => rfl⟩
  have hlinks := addFltRules_linksOnly hadd
  obtain ⟨-, rfl, -⟩ | ⟨-, s₂, hcheck, hgen⟩ := hend
  · exact ⟨hlinks.wf hwf, hlinks.peersOk hs, hlinks.counted⟩
  · have hsame := generateNewConnection_same hgen
    have hpeer := modify_peer s₁ p
      (f := fun c => { c with isActive := true, isPowersave := false }) fun _ => rfl
    have hlinks₂ := checkPotentialLink_linksOnly hcheck
    refine ⟨hsame.wf (hlinks₂.wf ((hlinks.wf hwf).modify _ _)),
      hsame.peersOk (hlinks₂.peersOk ((hlinks.peersOk hs).congr hpeer)), fun u v => ?_⟩
    rw [hsame.counted, hlinks₂.counted, counted_congr (hpeer u), hlinks.counted]

/-- A connection is counted when both clients are known. -/
theorem handleNewLan2lanConnection_counted
    (h : s.handleNewLan2lanConnection ops t conn w = some (s', w')) :
    ((s.find (srcKey conn) = none ∨ s.find (dstKey conn) = none) ∧ s' = s) ∨
      ∃ a b r s₁, s.find (srcKey conn) = some a ∧ s.find (dstKey conn) = some b ∧
        s.addConnection a b = some (r, s₁) ∧ LinksOnly s₁ s' := by
  obtain ⟨hnone, rfl, -⟩ | ⟨a, b, r, s₁, c, d, ha, hb, hadd, -, -, hend⟩ :=
    handleNewLan2lanConnection_cases h
  · exact .inl ⟨hnone, rfl⟩
  · refine .inr ⟨a, b, r, s₁, ha, hb, hadd, ?_⟩
    obtain ⟨-, rfl, -⟩ | ⟨-, h₁ | ⟨s₂, w₂, h₁, h₂ | ⟨s₃, h₂, rfl⟩⟩⟩ := hend
    · exact .refl _
    · exact addOffloadLink_linksOnly h₁
    · exact (addOffloadLink_linksOnly h₁).trans (addOffloadLink_linksOnly h₂)
    · exact ((addOffloadLink_linksOnly h₁).trans (addOffloadLink_linksOnly h₂)).trans (.pairs _ _)

/-- A client nobody needs any more: it is inactive, not in power save, and has no peers. -/
def Idle (s : Side) (p : Ptr) : Prop :=
  ∃ c, s.mem p = some c ∧ c.isActive = false ∧ c.isPowersave = false ∧ c.peer = []

/-- Only an idle client is freed. -/
theorem reap_mem (hfind : s.find key = some p) (h : s.reap key p = some s') :
    (s.Idle p → s'.mem p = none) ∧ (¬ s.Idle p → s'.mem p = s.mem p) ∧
      ∀ q, q ≠ p → s'.mem q = s.mem q := by
  obtain ⟨c, hc, ⟨⟨hact, hsave, hnil⟩, rfl⟩ | ⟨hbusy, rfl⟩⟩ := reap_cases h
  · refine ⟨fun _ => by rw [mem_erase hfind, if_pos rfl], fun hidle => ?_, fun q hq => ?_⟩
    · exact absurd ⟨c, hc, hact, hsave, hnil⟩ hidle
    · rw [mem_erase hfind, if_neg hq]
  · refine ⟨fun hidle => ?_, fun _ => rfl, fun _ _ => rfl⟩
    obtain ⟨c', hc', hidle⟩ := hidle
    rw [hc] at hc'
    cases hc'
    exact absurd hidle hbusy

theorem reap_find (hfind : s.find key = some p) (h : s.reap key p = some s') {key' : Key}
    (hne : key' ≠ key) : s'.find key' = s.find key' := by
  obtain ⟨c, -, ⟨-, rfl⟩ | ⟨-, rfl⟩⟩ := reap_cases h
  · rw [erase_of_find hfind]
    exact congrArg (Option.map Prod.snd) (record_discard_of_ne hne)
  · rfl

theorem reap_find_of_live {key' : Key} {q : Ptr} (hfind : s.find key = some p)
    (hfind' : s.find key' = some q) (h : s.reap key p = some s') (hlive : s'.mem q ≠ none) :
    s'.find key' = some q := by
  by_cases hkey : key' = key
  · obtain ⟨c, -, ⟨-, rfl⟩ | ⟨-, rfl⟩⟩ := reap_cases h
    · obtain rfl : p = q := by
        rw [hkey, hfind] at hfind'
        exact Option.some.inj hfind'
      exact absurd (by rw [mem_erase hfind, if_pos rfl]) hlive
    · exact hfind'
  · rw [reap_find hfind h hkey, hfind']

theorem reap_live (h : s.reap key p = some s') : s.mem p ≠ none := by
  obtain ⟨c, hc, -⟩ := reap_cases h
  rw [hc]
  exact Option.some_ne_none c

/-- An idle client counted nothing. -/
theorem reap_counted (hwf : s.Wf) (hs : s.PeersOk) (hfind : s.find key = some p)
    (h : s.reap key p = some s') :
    s'.Wf ∧ s'.PeersOk ∧ ∀ u v, s'.counted u v = s.counted u v := by
  obtain ⟨c, hc, ⟨⟨-, -, hnil⟩, rfl⟩ | ⟨-, rfl⟩⟩ := reap_cases h
  · have hnone := counted_of_nil hc hnil
    exact ⟨hwf.erase _, hs.erase hfind hnone, counted_erase hfind hnone⟩
  · exact ⟨hwf, hs, fun _ _ => rfl⟩

end Handlers

theorem reap_reap_counted {key' : Key} {q : Ptr} (hwf : s.Wf) (hs : s.PeersOk)
    (hfind : s.find key = some p) (hfind' : s.find key' = some q) (h : s.reap key p = some s₁)
    (h' : s₁.reap key' q = some s') :
    s'.Wf ∧ s'.PeersOk ∧ ∀ u v, s'.counted u v = s.counted u v := by
  obtain ⟨hwf₁, hok₁, hcounted₁⟩ := reap_counted hwf hs hfind h
  have hq := reap_find_of_live hfind hfind' h (reap_live h')
  obtain ⟨hwf₂, hok₂, hcounted₂⟩ := reap_counted hwf₁ hok₁ hq h'
  exact ⟨hwf₂, hok₂, fun u v => (hcounted₂ u v).trans (hcounted₁ u v)⟩

/-- A connection less is counted, and then idle clients go. -/
theorem handleDelLan2lanConnection_counted {conn : ConnectionData} (hwf : s.Wf) (hs : s.PeersOk)
    (h : s.handleDelLan2lanConnection ops t conn w = some (s', w')) :
    s'.Wf ∧ s'.PeersOk ∧
      ((s.find (srcKey conn) = none ∨ s.find (dstKey conn) = none) ∧ s' = s ∨
        ∃ a b r s₁, s.find (srcKey conn) = some a ∧ s.find (dstKey conn) = some b ∧
          s.removeConnection a b = some (r, s₁) ∧ ∀ u v, s'.counted u v = s₁.counted u v) := by
  obtain ⟨hnone, rfl, -⟩ | ⟨a, b, r, s₁, ha, hb, hremove, hend⟩ :=
    handleDelLan2lanConnection_cases h
  · exact ⟨hwf, hs, .inl ⟨hnone, rfl⟩⟩
  · have hpeers := removeConnection_peersOnly hremove
    have hwf₁ := hpeers.wf hwf
    have hok₁ := hs.removeConnection hremove
    obtain ⟨-, rfl, -⟩ | ⟨-, s₂, s₃, hlinks, hsrc, hdst⟩ := hend
    · exact ⟨hwf₁, hok₁, .inr ⟨a, b, r, s', ha, hb, hremove, fun _ _ => rfl⟩⟩
    · have hl := eraseLinks_linksOnly hlinks
      have ha₂ : s₂.find (srcKey conn) = some a := by rw [hl.find, hpeers.find, ha]
      have hb₂ : s₂.find (dstKey conn) = some b := by rw [hl.find, hpeers.find, hb]
      obtain ⟨hwf', hok', hcounted⟩ :=
        reap_reap_counted (hl.wf hwf₁) (hl.peersOk hok₁) ha₂ hb₂ hsrc hdst
      exact ⟨hwf', hok', .inr ⟨a, b, r, s₁, ha, hb, hremove, fun u v => by
        rw [hcounted, hl.counted]⟩⟩

/-- Every handler keeps the counts of both sides the same. -/
theorem handle_peersOk {i : Input} (hwf : s.Wf) (hs : s.PeersOk)
    (h : s.handle cfg ops t w i = some (s', w')) : s'.Wf ∧ s'.PeersOk := by
  match i with
  | .eventCallback (.lanClientActive data) =>
    obtain ⟨-, rfl, -⟩ | ⟨pIface, -, h⟩ := handle_active_cases h
    · exact ⟨hwf, hs⟩
    · obtain ⟨hwf', hok', -⟩ := handleClientActive_counted hwf hs h
      exact ⟨hwf', hok'⟩
  | .eventCallback (.lanClientInactive data) =>
    obtain ⟨hwf', hok', -⟩ := handleClientInactive_counted hwf hs h
    exact ⟨hwf', hok'⟩
  | .eventCallback (.lanClientDisconnect data) =>
    obtain ⟨hwf', hok', -⟩ := handleClientDisconnect_counted hwf hs h
    exact ⟨hwf', hok'⟩
  | .eventCallback (.lanClientPowerSave data) =>
    obtain ⟨hwf', hok', -⟩ := handleClientPowerSave_counted hwf hs h
    exact ⟨hwf', hok'⟩
  | .eventCallback (.lanClientPowerRecover data) =>
    obtain ⟨hwf', hok', -⟩ := handleClientPowerRecover_counted hwf hs h
    exact ⟨hwf', hok'⟩
  | .eventCallback (.lanToLanNewConnection conn) =>
    obtain ⟨-, rfl⟩ | ⟨a, b, r, s₁, -, -, hadd, hlinks⟩ := handleNewLan2lanConnection_counted h
    · exact ⟨hwf, hs⟩
    · exact ⟨hlinks.wf ((addConnection_peersOnly hadd).wf hwf),
        hlinks.peersOk (hs.addConnection hadd)⟩
  | .eventCallback (.lanToLanDelConnection conn) =>
    obtain ⟨hwf', hok', -⟩ := handleDelLan2lanConnection_counted hwf hs h
    exact ⟨hwf', hok'⟩
  | .handleNewConnection conn =>
    have hsame := handle_new_same h
    exact ⟨hsame.wf hwf, hsame.peersOk hs⟩
  | .handleDelConnection conn =>
    have hsame := handle_del_same h
    exact ⟨hsame.wf hwf, hsame.peersOk hs⟩

end Side

end Nx508j.Ipacm.Lan2Lan
