import Nx508j.Ipacm.LanPeers

/-! # Whose the clients are

A client in the table has an interface and a MAC address. Of the events only one that makes a client
active gives a client to an interface; the others leave the owners as they are, or take clients away
with their owners. -/

namespace Nx508j.Ipacm.Lan2Lan

open Nx508j.Lib Function

variable {ω : Type} {cfg : Config} {ops : Ifaces ω} {t : IpType}

/-- The interface of a client and its MAC address. -/
def ClientInfo.owner (c : ClientInfo) : Iface × Mac := (c.pIface, c.macAddr)

namespace Side

/-- The client with a key. -/
def client (s : Side) (key : Key) : Option ClientInfo := (s.find key).bind s.mem

/-- Whose the client with a key is. -/
def owner (s : Side) (key : Key) : Option (Iface × Mac) := (s.client key).map ClientInfo.owner

variable {s s' s₁ : Side} {w w' : ω} {data : LanClientData} {pIface : Iface} {conn : ConnectionData}
  {p q : Ptr} {key : Key} {c : ClientInfo}

theorem owner_of_find (h : s.find key = some p) : s.owner key = (s.mem p).map ClientInfo.owner := by
  rw [owner, client, h]
  rfl

theorem owner_of_find_none (h : s.find key = none) : s.owner key = none := by
  rw [owner, client, h]
  rfl

theorem owner_congr (hfind : ∀ key, s'.find key = s.find key)
    (hmem : ∀ p, (s'.mem p).map ClientInfo.owner = (s.mem p).map ClientInfo.owner) :
    s'.owner = s.owner := by
  funext key
  cases h : s.find key with
  | none => rw [owner_of_find_none h, owner_of_find_none ((hfind key).trans h)]
  | some p => rw [owner_of_find h, owner_of_find ((hfind key).trans h), hmem]

theorem SameClients.owner (h : s.SameClients s') : s'.owner = s.owner :=
  owner_congr h.find fun p => by rw [h.mem]

theorem owner_modify (s : Side) (p : Ptr) {f : ClientInfo → ClientInfo}
    (hf : ∀ c, (f c).owner = c.owner) : (s.modify p f).owner = s.owner := by
  refine owner_congr (find_modify s p f) fun q => ?_
  rw [mem_modify]
  split
  next h =>
    rw [h, Option.map_map]
    exact congrArg (Option.map · (s.mem p)) (funext hf)
  next => rfl

theorem owner_fill (hs : s.Wf) (h : s.find key = some p) {f : ClientInfo → ClientInfo}
    {o : Iface × Mac} (hf : ∀ c, (f c).owner = o) :
    (s.modify p f).owner = update s.owner key (some o) := by
  obtain ⟨c, hc⟩ := hs.find_live h
  funext key'
  by_cases hkey : key' = key
  · subst hkey
    rw [update_self, owner_of_find (p := p) (by rw [find_modify, h]), mem_modify,
      if_pos rfl, hc, Option.map_some, Option.map_some, hf]
  · rw [update_of_ne hkey]
    cases h' : s.find key' with
    | none => rw [owner_of_find_none h', owner_of_find_none (by rw [find_modify, h'])]
    | some q =>
      have hne : q ≠ p := by
        rintro rfl
        exact hkey (hs.find_inj h' h)
      rw [owner_of_find h', owner_of_find (p := q) (by rw [find_modify, h']), mem_modify,
        if_neg hne]

theorem owner_insert (hs : s.Wf) (h : s.find key = none) (c : ClientInfo) :
    (s.insert key c).owner = update s.owner key (some c.owner) := by
  have hwf := hs.insert h c
  funext key'
  by_cases hkey : key' = key
  · subst hkey
    have hfind : (s.insert key' c).find key' = some s.next :=
      hwf.find_of_mem (by simp)
    rw [update_self, owner_of_find hfind, mem_insert, if_pos rfl, Option.map_some]
  · rw [update_of_ne hkey]
    cases h' : s.find key' with
    | none =>
      refine (owner_of_find_none ?_).trans (owner_of_find_none h').symm
      cases hq : (s.insert key c).find key' with
      | none => rfl
      | some q =>
        have hmem := mem_of_find hq
        rw [clientInfo_insert, List.mem_append, List.mem_singleton] at hmem
        rcases hmem with hmem | heq
        · rw [hs.find_of_mem hmem] at h'
          cases h'
        · exact absurd (congrArg Prod.fst heq) hkey
    | some q =>
      have hlt : q < s.next := by
        obtain ⟨c, hc⟩ := hs.find_live h'
        exact hs.fresh q (by simp [hc])
      have hfind : (s.insert key c).find key' = some q :=
        hwf.find_of_mem (List.mem_append_left _ (mem_of_find h'))
      rw [owner_of_find hfind, owner_of_find h', mem_insert, if_neg (Nat.ne_of_lt hlt)]

theorem find_erase (hs : s.Wf) (key key' : Key) :
    (s.erase key).find key' = if key' = key then none else s.find key' := by
  cases h : s.find key with
  | none =>
    have hsame : s.erase key = s := by rw [erase, h]
    rw [hsame]
    split
    next heq => rw [heq, h]
    next => rfl
  | some p =>
    rw [erase_of_find h, find]
    split
    next heq => rw [heq, record_discard_self hs.keys, Option.map_none]
    next hne => rw [record_discard_of_ne hne, find]

theorem owner_erase (hs : s.Wf) (key : Key) :
    (s.erase key).owner = update s.owner key none := by
  funext key'
  cases h : s.find key with
  | none =>
    have hsame : s.erase key = s := by rw [erase, h]
    rw [hsame, ← owner_of_find_none h, update_eq_self]
  | some p =>
    by_cases hkey : key' = key
    · subst hkey
      rw [update_self]
      exact owner_of_find_none (by rw [find_erase hs, if_pos rfl])
    · rw [update_of_ne hkey]
      have hfind := find_erase hs key key'
      rw [if_neg hkey] at hfind
      cases h' : s.find key' with
      | none => rw [owner_of_find_none h', owner_of_find_none (hfind.trans h')]
      | some q =>
        have hne : q ≠ p := by
          rintro rfl
          exact hkey (hs.find_inj h' h)
        rw [owner_of_find h', owner_of_find (hfind.trans h'), mem_erase h, if_neg hne]

end Side

theorem LinksOnly.owner {s s' : Side} (h : LinksOnly s s') : s'.owner = s.owner := by
  refine Side.owner_congr h.find fun p => ?_
  have hp := congrArg (Option.map ClientInfo.owner) (h.client p)
  rwa [Option.map_map, Option.map_map] at hp

theorem PeersOnly.owner {s s' : Side} (h : PeersOnly s s') : s'.owner = s.owner := by
  refine Side.owner_congr h.find fun p => ?_
  have hp := congrArg (Option.map ClientInfo.owner) (h.client p)
  rwa [Option.map_map, Option.map_map] at hp

namespace Side

variable {s s' s₁ : Side} {w w' : ω} {data : LanClientData} {pIface : Iface} {conn : ConnectionData}
  {p : Ptr} {key : Key}

/-! ## The handlers -/

/-- A client that becomes active is the interface's of the event, or was active with the MAC address
    before. -/
theorem handleClientActive_owner (hs : s.Wf)
    (h : s.handleClientActive cfg ops t data pIface w = some (s', w')) :
    s'.owner = update s.owner (data.key t) (some (pIface, data.macAddr)) ∨
      (∃ i, s.owner (data.key t) = some (i, data.macAddr)) ∧ s'.owner = s.owner := by
  have hfill : ∀ c, (data.fill t pIface c).owner = (pIface, data.macAddr) := fun _ => rfl
  obtain ⟨hfind, -, hannounce⟩ | ⟨p, c, hfind, hc, hcase⟩ := handleClientActive_cases h
  · rw [(announce_same hannounce).owner, owner_insert hs hfind, hfill]
    exact .inl rfl
  obtain ⟨-, hmac, rfl, -⟩ | ⟨-, -, r, s₁, r', s₂, hoff, hclear, hannounce⟩ |
    ⟨-, s₁, hcheck, hannounce⟩ := hcase
  · refine .inr ⟨⟨c.pIface, ?_⟩, rfl⟩
    rw [owner_of_find hfind, hc, ← hmac]
    rfl
  · have hlinks := turnoffOffloadLinks_linksOnly hoff
    have hpeers := clearPeerList_peersOnly hclear
    have hfind₂ : s₂.find (data.key t) = some p := by rw [hpeers.find, hlinks.find, hfind]
    rw [(announce_same hannounce).owner, owner_fill (hpeers.wf (hlinks.wf hs)) hfind₂ hfill,
      hpeers.owner, hlinks.owner]
    exact .inl rfl
  · rw [(announce_same hannounce).owner, (checkPotentialLink_linksOnly hcheck).owner,
      owner_fill hs hfind hfill]
    exact .inl rfl

theorem handleClientInactive_owner (hs : s.Wf)
    (h : s.handleClientInactive ops t data w = some (s', w')) :
    s'.owner = update s.owner (data.key t) none ∨
      (∃ c, s.client (data.key t) = some c ∧ c.peer ≠ []) ∧ s'.owner = s.owner := by
  obtain ⟨hfind, rfl, -⟩ | ⟨p, r, s₁, c₁, hfind, hoff, hc₁, hend⟩ := handleClientInactive_cases h
  · rw [← owner_of_find_none hfind, update_eq_self]
    exact .inl rfl
  have hlinks := turnoffOffloadLinks_linksOnly hoff
  have howner : (s₁.modify p fun c => { c with isActive := false }).owner = s.owner := by
    rw [← hlinks.owner]
    exact owner_modify s₁ p fun _ => rfl
  obtain ⟨-, rfl⟩ | ⟨hpeer, rfl⟩ := hend
  · rw [owner_erase ((hlinks.wf hs).modify p _), howner]
    exact .inl rfl
  · obtain ⟨c, hc, hunlinked⟩ := hlinks.exists_mem' hc₁
    refine .inr ⟨⟨c, ?_, ?_⟩, howner⟩
    · rw [client, hfind, Option.bind_some, hc]
    · rwa [← ClientInfo.peer_of_unlinked hunlinked]

theorem handleClientDisconnect_owner (hs : s.Wf)
    (h : s.handleClientDisconnect ops t data w = some (s', w')) :
    s'.owner = update s.owner (data.key t) none := by
  obtain ⟨hfind, rfl, -⟩ | ⟨p, r, s₁, r', s₂, hfind, hoff, hclear, rfl⟩ :=
    handleClientDisconnect_cases h
  · rw [← owner_of_find_none hfind, update_eq_self]
  · have hlinks := turnoffOffloadLinks_linksOnly hoff
    have hpeers := clearPeerList_peersOnly hclear
    rw [owner_erase (hpeers.wf (hlinks.wf hs)), hpeers.owner, hlinks.owner]

theorem handleClientPowerSave_owner (h : s.handleClientPowerSave ops t data w = some (s', w')) :
    s'.owner = s.owner := by
  obtain ⟨-, rfl, -⟩ | ⟨p, r, -, -, ⟨-, rfl⟩ | ⟨-, rfl⟩⟩ := handleClientPowerSave_cases h
  · rfl
  · rfl
  · exact owner_modify s p fun _ => rfl

theorem handleClientPowerRecover_owner
    (h : s.handleClientPowerRecover cfg ops t data w = some (s', w')) : s'.owner = s.owner := by
  obtain ⟨rfl, -⟩ | ⟨p, c, r, s₁, w₁, -, -, -, -, hadd, hend⟩ := handleClientPowerRecover_cases h
  · rfl
  · have hlinks := addFltRules_linksOnly hadd
    obtain ⟨-, rfl, -⟩ | ⟨-, s₂, hcheck, hgen⟩ := hend
    · exact hlinks.owner
    · rw [(generateNewConnection_same hgen).owner, (checkPotentialLink_linksOnly hcheck).owner,
        ← hlinks.owner]
      exact owner_modify s₁ p fun _ => rfl

theorem handleNewLan2lanConnection_owner
    (h : s.handleNewLan2lanConnection ops t conn w = some (s', w')) : s'.owner = s.owner := by
  obtain ⟨-, rfl⟩ | ⟨a, b, r, s₁, -, -, hadd, hlinks⟩ := handleNewLan2lanConnection_counted h
  · rfl
  · rw [hlinks.owner, (addConnection_peersOnly hadd).owner]

/-- Clients are taken away only. -/
def Shrinks (s s' : Side) : Prop := ∀ key, s'.owner key = none ∨ s'.owner key = s.owner key

theorem Shrinks.of_eq (h : s'.owner = s.owner) : s.Shrinks s' := fun key => .inr (congrFun h key)

theorem Shrinks.trans (h : s.Shrinks s₁) (h' : s₁.Shrinks s') : s.Shrinks s' := by
  intro key
  rcases h' key with hnone | heq
  · exact .inl hnone
  · rw [heq]
    exact h key

theorem Shrinks.of_update (h : s'.owner = update s.owner key none) : s.Shrinks s' := by
  intro key'
  rw [h, update_apply]
  split
  · exact .inl rfl
  · exact .inr rfl

theorem reap_shrinks (hs : s.Wf) (h : s.reap key p = some s') : s'.Wf ∧ s.Shrinks s' := by
  obtain ⟨c, -, ⟨-, rfl⟩ | ⟨-, rfl⟩⟩ := reap_cases h
  · exact ⟨hs.erase key, .of_update (owner_erase hs key)⟩
  · exact ⟨hs, .of_eq rfl⟩

theorem handleDelLan2lanConnection_shrinks (hs : s.Wf)
    (h : s.handleDelLan2lanConnection ops t conn w = some (s', w')) : s.Shrinks s' := by
  obtain ⟨-, rfl, -⟩ | ⟨a, b, r, s₁, -, -, hremove, hend⟩ := handleDelLan2lanConnection_cases h
  · exact .of_eq rfl
  · have hpeers := removeConnection_peersOnly hremove
    obtain ⟨-, rfl, -⟩ | ⟨-, s₂, s₃, hlinks, hsrc, hdst⟩ := hend
    · exact .of_eq hpeers.owner
    · have hlinks := eraseLinks_linksOnly hlinks
      obtain ⟨hwf₃, hsrc⟩ := reap_shrinks (hlinks.wf (hpeers.wf hs)) hsrc
      have hdst := (reap_shrinks hwf₃ hdst).2
      exact (Shrinks.of_eq (hlinks.owner.trans hpeers.owner)).trans (hsrc.trans hdst)

theorem Shrinks.of_some {o : Iface × Mac} (h : s.Shrinks s') (ho : s'.owner key = some o) :
    s.owner key = some o := by
  rcases h key with hnone | heq
  · rw [hnone] at ho
    cases ho
  · rwa [← heq]

end Side

/-- The interface that an event gives a client to. -/
def Input.activates : Input → Option Iface
  | .eventCallback (.lanClientActive data) => data.pIface
  | _ => none

variable {s s' : Side} {w w' : ω} {key : Key}

/-- **What others are asked for** gives no client to an interface. -/
theorem Side.handle_owner {i : Input} {this : Iface} {mac : Mac} (hs : s.Wf)
    (h : s.handle cfg ops t w i = some (s', w')) (hi : i.activates ≠ some this)
    (hkey : s'.owner key = some (this, mac)) : s.owner key = some (this, mac) := by
  match i with
  | .eventCallback (.lanClientActive data) =>
    obtain ⟨-, rfl, -⟩ | ⟨pIface, hpIface, h⟩ := handle_active_cases h
    · exact hkey
    · have hne : pIface ≠ this := fun heq => hi (hpIface.trans (congrArg some heq))
      obtain heq | ⟨-, heq⟩ := handleClientActive_owner hs h
      · rw [heq, update_apply] at hkey
        split at hkey
        · exact absurd (congrArg Prod.fst (Option.some.inj hkey)) hne
        · exact hkey
      · rwa [← heq]
  | .eventCallback (.lanClientInactive data) =>
    obtain heq | ⟨-, heq⟩ := handleClientInactive_owner hs h
    · exact (Shrinks.of_update heq).of_some hkey
    · rwa [← heq]
  | .eventCallback (.lanClientDisconnect data) =>
    exact (Shrinks.of_update (handleClientDisconnect_owner hs h)).of_some hkey
  | .eventCallback (.lanClientPowerSave data) => rwa [← handleClientPowerSave_owner h]
  | .eventCallback (.lanClientPowerRecover data) => rwa [← handleClientPowerRecover_owner h]
  | .eventCallback (.lanToLanNewConnection data) => rwa [← handleNewLan2lanConnection_owner h]
  | .eventCallback (.lanToLanDelConnection data) =>
    exact (handleDelLan2lanConnection_shrinks hs h).of_some hkey
  | .handleNewConnection conn => rwa [← (handle_new_same h).owner]
  | .handleDelConnection conn => rwa [← (handle_del_same h).owner]

end Nx508j.Ipacm.Lan2Lan
