import Nx508j.Ipacm.LanToLan

/-! # The stages of a handler

What the parts of the handlers do to the clients: which change only links, which only peers, which
neither, and what the handlers are made of. -/

namespace Nx508j.Ipacm.Lan2Lan

open Nx508j.Lib Function

variable {ω : Type}

/-! ## Memory and table -/

namespace Side

variable {s s' s₁ : Side} {p q : Ptr} {key : Key} {c : ClientInfo}

@[simp] theorem mem_modify (s : Side) (p : Ptr) (f : ClientInfo → ClientInfo) (q : Ptr) :
    (s.modify p f).mem q = if q = p then (s.mem p).map f else s.mem q := by
  simp only [modify, update_apply]

theorem map_mem_modify {α : Type} (s : Side) (p : Ptr) {f : ClientInfo → ClientInfo}
    {g : ClientInfo → α} (hf : ∀ c, g (f c) = g c) (q : Ptr) :
    ((s.modify p f).mem q).map g = (s.mem q).map g := by
  rw [mem_modify]
  split
  · next h =>
    rw [h, Option.map_map]
    exact congrArg (Option.map · (s.mem p)) (funext hf)
  · rfl

@[simp] theorem find_modify (s : Side) (p : Ptr) (f : ClientInfo → ClientInfo) (key : Key) :
    (s.modify p f).find key = s.find key := rfl

@[simp] theorem mem_insert (s : Side) (key : Key) (c : ClientInfo) (q : Ptr) :
    (s.insert key c).mem q = if q = s.next then some c else s.mem q := by
  simp only [insert, update_apply]

@[simp] theorem clientInfo_insert (s : Side) (key : Key) (c : ClientInfo) :
    (s.insert key c).clientInfo = s.clientInfo ++ [(key, s.next)] := rfl

theorem erase_of_find (h : s.find key = some p) :
    s.erase key = { s with
      clientInfo := discard Prod.fst s.clientInfo key
      mem := update s.mem p none } := by
  rw [erase, h]

theorem mem_erase (h : s.find key = some p) (q : Ptr) :
    (s.erase key).mem q = if q = p then none else s.mem q := by
  rw [erase_of_find h]
  exact update_apply ..

/-- The table and the memory of the clients fit together. -/
structure Wf (s : Side) : Prop where
  keys : (s.clientInfo.map Prod.fst).Nodup
  ptrs : (s.clientInfo.map Prod.snd).Nodup
  live : ∀ p, s.mem p ≠ none ↔ p ∈ s.clientInfo.map Prod.snd
  fresh : ∀ p, s.mem p ≠ none → p < s.next

theorem Wf.init : Wf init where
  keys := List.nodup_nil
  ptrs := List.nodup_nil
  live := fun p => by simp [Side.init]
  fresh := fun p h => absurd rfl h

theorem mem_of_find (h : s.find key = some p) : (key, p) ∈ s.clientInfo := by
  obtain ⟨e, he, rfl⟩ := Option.map_eq_some_iff.mp h
  rw [← key_of_record he]
  exact mem_of_record he

theorem Wf.find_live (hs : s.Wf) (h : s.find key = some p) : ∃ c, s.mem p = some c :=
  Option.ne_none_iff_exists'.mp <|
    (hs.live p).mpr (List.mem_map.mpr ⟨(key, p), mem_of_find h, rfl⟩)

theorem Wf.find_of_mem (hs : s.Wf) (h : (key, p) ∈ s.clientInfo) : s.find key = some p := by
  have := record_of_mem hs.keys h
  rw [find, this]
  rfl

/-- Two keys do not share a client. -/
theorem Wf.find_inj (hs : s.Wf) {key' : Key} (h : s.find key = some p) (h' : s.find key' = some p) :
    key = key' := by
  have := List.inj_on_of_nodup_map hs.ptrs (mem_of_find h) (mem_of_find h') rfl
  exact congrArg Prod.fst this

/-- The side but for what happens outside the clients. -/
structure SameClients (s s' : Side) : Prop where
  clientInfo : s'.clientInfo = s.clientInfo
  mem : s'.mem = s.mem
  next : s'.next = s.next
  numOffloadPair : s'.numOffloadPair = s.numOffloadPair

/-- Whatever leaves the table and what is live. -/
theorem Wf.of_live (hs : s.Wf) (htable : s'.clientInfo = s.clientInfo) (hnext : s'.next = s.next)
    (hlive : ∀ p, s'.mem p ≠ none ↔ s.mem p ≠ none) : s'.Wf where
  keys := by rw [htable]; exact hs.keys
  ptrs := by rw [htable]; exact hs.ptrs
  live := fun p => by rw [htable, hlive]; exact hs.live p
  fresh := fun p h => by rw [hnext]; exact hs.fresh p ((hlive p).mp h)

theorem SameClients.wf (h : s.SameClients s') (hs : s.Wf) : s'.Wf :=
  hs.of_live h.clientInfo h.next fun p => by rw [h.mem]

theorem Wf.modify (hs : s.Wf) (p : Ptr) (f : ClientInfo → ClientInfo) : (s.modify p f).Wf :=
  hs.of_live rfl rfl fun q => by
    rw [mem_modify]
    split
    · next h => rw [h, Ne, Option.map_eq_none_iff]
    · rfl

theorem Wf.insert (hs : s.Wf) (h : s.find key = none) (c : ClientInfo) : (s.insert key c).Wf := by
  have hkey : key ∉ s.clientInfo.map Prod.fst :=
    record_eq_none.mp (Option.map_eq_none_iff.mp h)
  have hnext : s.next ∉ s.clientInfo.map Prod.snd := by
    intro hmem
    exact absurd (hs.fresh _ ((hs.live _).mpr hmem)) (Nat.lt_irrefl _)
  constructor
  · rw [clientInfo_insert, List.map_append]
    exact hs.keys.append (List.nodup_singleton _) (by simpa using hkey)
  · rw [clientInfo_insert, List.map_append]
    exact hs.ptrs.append (List.nodup_singleton _) (by simpa using hnext)
  · intro q
    have hq := hs.live q
    rw [mem_insert, clientInfo_insert, List.map_append, List.mem_append, ← hq]
    by_cases hn : q = s.next <;> simp [hn]
  · intro q
    rw [mem_insert]
    split
    · next hn =>
      intro _
      exact Nat.lt_succ_of_le (Nat.le_of_eq hn)
    · intro hq
      exact Nat.lt_succ_of_lt (hs.fresh q hq)

theorem Wf.mem_table_erase (hs : s.Wf) (h : s.find key = some p) :
    q ∈ (discard Prod.fst s.clientInfo key).map Prod.snd ↔
      q ≠ p ∧ q ∈ s.clientInfo.map Prod.snd := by
  have hp := mem_of_find h
  constructor
  · intro hq
    obtain ⟨⟨k, r⟩, he, rfl⟩ := List.mem_map.mp hq
    refine ⟨?_, List.mem_map_of_mem (mem_of_mem_discard he)⟩
    rintro rfl
    have hk : k = key := congrArg Prod.fst
      (List.inj_on_of_nodup_map hs.ptrs (mem_of_mem_discard he) hp rfl)
    have hnone := record_discard_self hs.keys key
    rw [record_eq_none] at hnone
    exact hnone (List.mem_map.mpr ⟨(k, r), he, hk⟩)
  · rintro ⟨hne, hq⟩
    obtain ⟨⟨k, r⟩, he, rfl⟩ := List.mem_map.mp hq
    have hk : k ≠ key := by
      rintro rfl
      have := hs.find_of_mem he
      exact hne (Option.some.inj (this.symm.trans h))
    have hrec := record_of_mem hs.keys he
    rw [← record_discard_of_ne hk] at hrec
    exact List.mem_map_of_mem (mem_of_record hrec)

/-- A client that goes leaves the table and the heap. -/
theorem Wf.erase (hs : s.Wf) (key : Key) : (s.erase key).Wf := by
  cases h : s.find key with
  | none =>
    rw [Side.erase, h]
    exact hs
  | some p =>
    have htable : (s.erase key).clientInfo = discard Prod.fst s.clientInfo key := by
      rw [erase_of_find h]
    have hnext : (s.erase key).next = s.next := by
      rw [erase_of_find h]
    constructor
    · rw [htable]
      exact nodup_discard hs.keys key
    · rw [htable]
      exact List.Nodup.sublist (List.Sublist.map _ List.eraseP_sublist) hs.ptrs
    · intro q
      rw [htable, hs.mem_table_erase h, ← hs.live q, mem_erase h]
      by_cases hq : q = p <;> simp [hq]
    · intro q hq
      rw [mem_erase h] at hq
      rw [hnext]
      split at hq
      · exact absurd rfl hq
      · exact hs.fresh q hq

end Side

/-! ## What only changes links -/

/-- A client without its links. -/
def ClientInfo.unlinked (c : ClientInfo) : ClientInfo := { c with link := [] }

/-- Only links and the number of pairs differ. -/
structure LinksOnly (s s' : Side) : Prop where
  clientInfo : s'.clientInfo = s.clientInfo
  next : s'.next = s.next
  connection : s'.connection = s.connection
  posted : s'.posted = s.posted
  client : ∀ p, (s'.mem p).map ClientInfo.unlinked = (s.mem p).map ClientInfo.unlinked

namespace LinksOnly

variable {s s' s₁ : Side} {p : Ptr} {key : Key} {c c' : ClientInfo}

theorem refl (s : Side) : LinksOnly s s := ⟨rfl, rfl, rfl, rfl, fun _ => rfl⟩

theorem trans (h : LinksOnly s s₁) (h' : LinksOnly s₁ s') : LinksOnly s s' where
  clientInfo := h'.clientInfo.trans h.clientInfo
  next := h'.next.trans h.next
  connection := h'.connection.trans h.connection
  posted := h'.posted.trans h.posted
  client := fun p => (h'.client p).trans (h.client p)

theorem modify (s : Side) (p : Ptr) {f : ClientInfo → ClientInfo}
    (hf : ∀ c, (f c).unlinked = c.unlinked) : LinksOnly s (s.modify p f) where
  clientInfo := rfl
  next := rfl
  connection := rfl
  posted := rfl
  client := s.map_mem_modify p hf

theorem pairs (s : Side) (n : BitVec 8) : LinksOnly s { s with numOffloadPair := n } :=
  ⟨rfl, rfl, rfl, rfl, fun _ => rfl⟩

theorem find (h : LinksOnly s s') (key : Key) : s'.find key = s.find key := by
  rw [Side.find, Side.find, h.clientInfo]

theorem live_iff (h : LinksOnly s s') (p : Ptr) : s'.mem p ≠ none ↔ s.mem p ≠ none := by
  have := h.client p
  rw [Ne, Ne, ← Option.map_eq_none_iff, this, Option.map_eq_none_iff]

theorem wf (h : LinksOnly s s') (hs : s.Wf) : s'.Wf :=
  hs.of_live h.clientInfo h.next h.live_iff

theorem some_iff (h : LinksOnly s s') (p : Ptr) :
    (∃ c', s'.mem p = some c') ↔ ∃ c, s.mem p = some c := by
  rw [← Option.ne_none_iff_exists', ← Option.ne_none_iff_exists', h.live_iff]

theorem unlinked_eq (h : LinksOnly s s') (hc : s.mem p = some c) (hc' : s'.mem p = some c') :
    c'.unlinked = c.unlinked := by
  have := h.client p
  rw [hc, hc'] at this
  exact Option.some.inj this

theorem exists_mem (h : LinksOnly s s') (hc : s.mem p = some c) :
    ∃ c', s'.mem p = some c' ∧ c'.unlinked = c.unlinked := by
  obtain ⟨c', hc'⟩ := (h.some_iff p).mpr ⟨c, hc⟩
  exact ⟨c', hc', h.unlinked_eq hc hc'⟩

theorem exists_mem' (h : LinksOnly s s') (hc' : s'.mem p = some c') :
    ∃ c, s.mem p = some c ∧ c'.unlinked = c.unlinked := by
  obtain ⟨c, hc⟩ := (h.some_iff p).mp ⟨c', hc'⟩
  exact ⟨c, hc, h.unlinked_eq hc hc'⟩

end LinksOnly

variable {c c' : ClientInfo}

theorem ClientInfo.peer_of_unlinked (h : c'.unlinked = c.unlinked) : c'.peer = c.peer := by
  have := congrArg ClientInfo.peer h
  exact this

theorem ClientInfo.isActive_of_unlinked (h : c'.unlinked = c.unlinked) :
    c'.isActive = c.isActive := by
  have := congrArg ClientInfo.isActive h
  exact this

theorem ClientInfo.isPowersave_of_unlinked (h : c'.unlinked = c.unlinked) :
    c'.isPowersave = c.isPowersave := by
  have := congrArg ClientInfo.isPowersave h
  exact this

section Links

variable {ops : Ifaces ω} {t : IpType} {s s' : Side} {w w' : ω} {r : Bool} {a b client : Ptr}

/-- What `add_offload_link` can do: nothing as there are enough pairs, nothing as a call failed, or add
    a link. -/
theorem addOffloadLink_cases (h : addOffloadLink ops t a b s w = some (r, s', w')) :
    (maxOffloadPair ≤ s.numOffloadPair.toNat ∧ r = false ∧ s' = s ∧ w' = w) ∨
      ∃ c p, s.mem a = some c ∧ s.mem b = some p ∧ s.numOffloadPair.toNat < maxOffloadPair ∧
        ((installLink ops t c p b w = (none, w') ∧ r = false ∧ s' = s) ∨
          ∃ link, installLink ops t c p b w = (some link, w') ∧ r = true ∧
            s' = s.modify a fun c => { c with link := c.link ++ [link] }) := by
  unfold addOffloadLink at h
  split at h
  · next hmax =>
    cases h
    exact .inl ⟨hmax, rfl, rfl, rfl⟩
  · next hmax =>
    refine .inr ?_
    simp only [Option.bind_eq_bind, Option.bind_eq_some_iff] at h
    obtain ⟨c, hc, p, hp, h⟩ := h
    refine ⟨c, p, hc, hp, Nat.lt_of_not_le hmax, ?_⟩
    rcases hi : installLink ops t c p b w with ⟨link, w₁⟩
    rw [hi] at h
    cases link with
    | none =>
      cases h
      exact .inl ⟨rfl, rfl, rfl⟩
    | some link =>
      cases h
      exact .inr ⟨link, rfl, rfl, rfl⟩

theorem installLink_peerPointer {c p : ClientInfo} {link : OffloadLinkInfo}
    (h : installLink ops t c p b w = (some link, w')) : link.peerPointer = b := by
  unfold installLink at h
  repeat' split at h
  all_goals cases h
  rfl

/-- A link is entered on both sides, and no more. -/
theorem addOffloadLink_linksOnly (h : addOffloadLink ops t a b s w = some (r, s', w')) :
    LinksOnly s s' := by
  obtain ⟨-, -, rfl, -⟩ | ⟨c, p, -, -, -, ⟨-, -, rfl⟩ | ⟨link, -, -, rfl⟩⟩ := addOffloadLink_cases h
  · exact .refl _
  · exact .refl _
  · exact .modify _ _ fun _ => rfl

theorem dropLink_linksOnly (s : Side) (p peer : Ptr) : LinksOnly s (s.dropLink p peer) :=
  .modify _ _ fun _ => rfl

/-- One round of the loop of `turnoff_offload_links`: it ends as a call failed or as the peer does not
    list the client, or both directions are deleted. -/
theorem turnoffFrom_cons {i : Iface} {link : OffloadLinkInfo} {links : List OffloadLinkInfo}
    (h : turnoffFrom ops t client i (link :: links) s w = some (r, s', w')) :
    ∃ p, s.mem link.peerPointer = some p ∧
      (r = false ∧ s' = s ∧
          (delOffloadLink ops t i p.pIface link w = (false, w') ∨
            record OffloadLinkInfo.peerPointer p.link client = none ∧
              delOffloadLink ops t i p.pIface link w = (true, w') ∨
            ∃ back w₁, record OffloadLinkInfo.peerPointer p.link client = some back ∧
              delOffloadLink ops t i p.pIface link w = (true, w₁) ∧
              delOffloadLink ops t p.pIface i back w₁ = (false, w')) ∨
        ∃ back w₁ w₂, record OffloadLinkInfo.peerPointer p.link client = some back ∧
          delOffloadLink ops t i p.pIface link w = (true, w₁) ∧
          delOffloadLink ops t p.pIface i back w₁ = (true, w₂) ∧
          link.peerPointer ≠ client ∧
          turnoffFrom ops t client i links
            { s.dropLink link.peerPointer client with numOffloadPair := s.numOffloadPair - 1 } w₂ =
              some (r, s', w')) := by
  simp only [turnoffFrom, Option.bind_eq_bind, Option.bind_eq_some_iff] at h
  obtain ⟨p, hp, h⟩ := h
  refine ⟨p, hp, ?_⟩
  rcases hd : delOffloadLink ops t i p.pIface link w with ⟨res, w₁⟩
  rw [hd] at h
  cases res with
  | false =>
    cases h
    exact .inl ⟨rfl, rfl, .inl rfl⟩
  | true =>
    cases hb : record OffloadLinkInfo.peerPointer p.link client with
    | none =>
      rw [hb] at h
      cases h
      exact .inl ⟨rfl, rfl, .inr (.inl ⟨rfl, rfl⟩)⟩
    | some back =>
      rw [hb] at h
      rcases hd' : delOffloadLink ops t p.pIface i back w₁ with ⟨res', w₂⟩
      simp only [Bool.true_eq_false, if_false, hd'] at h
      cases res' with
      | false =>
        cases h
        exact .inl ⟨rfl, rfl, .inr (.inr ⟨back, w₁, rfl, rfl, hd'⟩)⟩
      | true =>
        simp only [Bool.true_eq_false, if_false] at h
        split at h
        · cases h
        · next hne => exact .inr ⟨back, w₁, w₂, rfl, rfl, hd', hne, h⟩

theorem turnoffFrom_linksOnly {i : Iface} {links : List OffloadLinkInfo}
    (h : turnoffFrom ops t client i links s w = some (r, s', w')) : LinksOnly s s' := by
  induction links generalizing s w with
  | nil =>
    cases h
    exact .refl _
  | cons link links ih =>
    obtain ⟨p, -, ⟨-, rfl, -⟩ | ⟨back, w₁, w₂, -, -, -, -, hrest⟩⟩ := turnoffFrom_cons h
    · exact .refl _
    · have hdrop := dropLink_linksOnly s link.peerPointer client
      exact (hdrop.trans (.pairs _ _)).trans (ih hrest)

theorem turnoffOffloadLinks_cases (h : turnoffOffloadLinks ops t client s w = some (r, s', w')) :
    ∃ c s₁, s.mem client = some c ∧
      turnoffFrom ops t client c.pIface c.link s w = some (r, s₁, w') ∧
      (r = false ∧ s' = s₁ ∨ r = true ∧ s' = s₁.modify client fun c => { c with link := [] }) := by
  simp only [turnoffOffloadLinks, Option.bind_eq_bind, Option.bind_eq_some_iff] at h
  obtain ⟨c, hc, ⟨res, s₁, w₁⟩, hloop, h⟩ := h
  cases res with
  | false =>
    cases h
    exact ⟨c, _, hc, hloop, .inl ⟨rfl, rfl⟩⟩
  | true =>
    cases h
    exact ⟨c, _, hc, hloop, .inr ⟨rfl, rfl⟩⟩

theorem turnoffOffloadLinks_linksOnly
    (h : turnoffOffloadLinks ops t client s w = some (r, s', w')) : LinksOnly s s' := by
  obtain ⟨c, s₁, -, hloop, ⟨-, rfl⟩ | ⟨-, rfl⟩⟩ := turnoffOffloadLinks_cases h
  · exact turnoffFrom_linksOnly hloop
  · exact (turnoffFrom_linksOnly hloop).trans (.modify _ _ fun _ => rfl)

/-- One turn of the loop over the peers. -/
theorem checkPotentialFrom_cons {x : PeerInfo} {peers : List PeerInfo}
    (h : checkPotentialFrom ops t client (x :: peers) s w = some (s', w')) :
    ∃ p, s.mem x.peerPointer = some p ∧
      (¬ (p.isActive = true ∧ 0 < x.numConnection) ∧
          checkPotentialFrom ops t client peers s w = some (s', w') ∨
        (p.isActive = true ∧ 0 < x.numConnection) ∧ ∃ r₁ s₁ w₁ r₂ s₂ w₂,
          addOffloadLink ops t client x.peerPointer s w = some (r₁, s₁, w₁) ∧
          addOffloadLink ops t x.peerPointer client s₁ w₁ = some (r₂, s₂, w₂) ∧
          checkPotentialFrom ops t client peers
            (if r₂ = true then { s₂ with numOffloadPair := s₂.numOffloadPair + 1 } else s₂) w₂ =
              some (s', w')) := by
  simp only [checkPotentialFrom, Option.bind_eq_bind, Option.bind_eq_some_iff] at h
  obtain ⟨p, hp, h⟩ := h
  refine ⟨p, hp, ?_⟩
  split at h
  · next hx =>
    simp only [Option.bind_eq_some_iff] at h
    obtain ⟨⟨r₁, s₁, w₁⟩, h₁, ⟨r₂, s₂, w₂⟩, h₂, h⟩ := h
    exact .inr ⟨hx, r₁, s₁, w₁, r₂, s₂, w₂, h₁, h₂, h⟩
  · next hx => exact .inl ⟨hx, h⟩

theorem checkPotentialFrom_linksOnly {peers : List PeerInfo}
    (h : checkPotentialFrom ops t client peers s w = some (s', w')) : LinksOnly s s' := by
  induction peers generalizing s w with
  | nil =>
    cases h
    exact .refl _
  | cons x peers ih =>
    obtain ⟨p, -, ⟨-, hrest⟩ | ⟨-, r₁, s₁, w₁, r₂, s₂, w₂, h₁, h₂, hrest⟩⟩ :=
      checkPotentialFrom_cons h
    · exact ih hrest
    · have hadd := (addOffloadLink_linksOnly h₁).trans (addOffloadLink_linksOnly h₂)
      refine hadd.trans (.trans ?_ (ih hrest))
      split
      · exact .pairs _ _
      · exact .refl _

theorem checkPotentialLink_cases (h : checkPotentialLink ops t client s w = some (s', w')) :
    ∃ c, s.mem client = some c ∧ checkPotentialFrom ops t client c.peer s w = some (s', w') := by
  simpa only [checkPotentialLink, Option.bind_eq_bind, Option.bind_eq_some_iff] using h

theorem checkPotentialLink_linksOnly (h : checkPotentialLink ops t client s w = some (s', w')) :
    LinksOnly s s' := by
  obtain ⟨c, -, h⟩ := checkPotentialLink_cases h
  exact checkPotentialFrom_linksOnly h

/-- Either there is no link, or it goes on this side. -/
theorem eraseLink_cases (h : eraseLink ops t a b s w = some (r, s', w')) :
    ∃ c, s.mem a = some c ∧
      (record OffloadLinkInfo.peerPointer c.link b = none ∧ r = false ∧ s' = s ∧ w' = w ∨
        ∃ link d, record OffloadLinkInfo.peerPointer c.link b = some link ∧ s.mem b = some d ∧
          delOffloadLink ops t c.pIface d.pIface link w = (r, w') ∧ s' = s.dropLink a b) := by
  simp only [eraseLink, Option.bind_eq_bind, Option.bind_eq_some_iff] at h
  obtain ⟨c, hc, h⟩ := h
  refine ⟨c, hc, ?_⟩
  split at h
  · next hl =>
    cases h
    exact .inl ⟨hl, rfl, rfl, rfl⟩
  · next link hl =>
    simp only [Option.bind_eq_some_iff] at h
    obtain ⟨d, hd, h⟩ := h
    cases h
    exact .inr ⟨link, d, hl, hd, rfl, rfl⟩

theorem eraseLink_linksOnly (h : eraseLink ops t a b s w = some (r, s', w')) : LinksOnly s s' := by
  obtain ⟨c, -, ⟨-, -, rfl, -⟩ | ⟨link, d, -, -, -, rfl⟩⟩ := eraseLink_cases h
  · exact .refl _
  · exact dropLink_linksOnly _ _ _

/-- First one side, then the other. -/
theorem eraseOffloadLink_cases (h : eraseOffloadLink ops t a b s w = some (s', w')) :
    ∃ r₁ s₁ w₁ r₂ s₂, eraseLink ops t a b s w = some (r₁, s₁, w₁) ∧
      eraseLink ops t b a s₁ w₁ = some (r₂, s₂, w') ∧
      s' = if r₁ && r₂ then { s₂ with numOffloadPair := s₂.numOffloadPair - 1 } else s₂ := by
  simp only [eraseOffloadLink, Option.bind_eq_bind, Option.bind_eq_some_iff] at h
  obtain ⟨⟨r₁, s₁, w₁⟩, h₁, ⟨r₂, s₂, w₂⟩, h₂, h⟩ := h
  refine ⟨r₁, s₁, w₁, r₂, s₂, h₁, ?_⟩
  split at h
  · next hr =>
    cases h
    exact ⟨h₂, by rw [if_pos hr]⟩
  · next hr =>
    cases h
    exact ⟨h₂, by rw [if_neg hr]⟩

theorem eraseOffloadLink_linksOnly (h : eraseOffloadLink ops t a b s w = some (s', w')) :
    LinksOnly s s' := by
  obtain ⟨r₁, s₁, w₁, r₂, s₂, h₁, h₂, rfl⟩ := eraseOffloadLink_cases h
  have herase := (eraseLink_linksOnly h₁).trans (eraseLink_linksOnly h₂)
  split
  · exact herase.trans (.pairs _ _)
  · exact herase

theorem setFltRuleHdlAt_linksOnly (s : Side) (p : Ptr) (i : Nat) (hdl : Hdl) :
    LinksOnly s (s.setFltRuleHdlAt p i hdl) :=
  .modify _ _ fun _ => rfl

theorem setFltRuleHdlTo_linksOnly (s : Side) (p peer : Ptr) (hdl : Hdl) :
    LinksOnly s (s.setFltRuleHdlTo p peer hdl) :=
  .modify _ _ fun _ => rfl

/-- One turn of the loop over the links. -/
theorem addFltFrom_succ {i n : Nat}
    (h : addFltFrom ops t client i (n + 1) s w = some (r, s', w')) :
    ∃ c link p, s.mem client = some c ∧ c.link[i]? = some link ∧
      s.mem link.peerPointer = some p ∧
      (ops.call w c.pIface (.addLan2lanFltRule t c.ip p.ip) = (none, w') ∧ r = false ∧ s' = s ∨
        ∃ flt w₁ s₁ p₁, ops.call w c.pIface (.addLan2lanFltRule t c.ip p.ip) = (some flt, w₁) ∧
          s₁ = s.setFltRuleHdlAt client i flt.hdl ∧ s₁.mem link.peerPointer = some p₁ ∧
          (r = false ∧ s' = s₁ ∧
              (record OffloadLinkInfo.peerPointer p₁.link client = none ∧ w' = w₁ ∨
                ops.call w₁ p₁.pIface (.addLan2lanFltRule t p₁.ip c.ip) = (none, w')) ∨
            ∃ back flt' w₂, record OffloadLinkInfo.peerPointer p₁.link client = some back ∧
              ops.call w₁ p₁.pIface (.addLan2lanFltRule t p₁.ip c.ip) = (some flt', w₂) ∧
              addFltFrom ops t client (i + 1) n
                (s₁.setFltRuleHdlTo link.peerPointer client flt'.hdl) w₂ = some (r, s', w'))) := by
  simp only [addFltFrom, Option.bind_eq_bind, Option.bind_eq_some_iff] at h
  obtain ⟨c, hc, link, hl, p, hp, h⟩ := h
  refine ⟨c, link, p, hc, hl, hp, ?_⟩
  split at h
  · next w₁ hcall =>
    cases h
    exact .inl ⟨hcall, rfl, rfl⟩
  · next flt w₁ hcall =>
    simp only [Option.bind_eq_some_iff] at h
    obtain ⟨p₁, hp₁, h⟩ := h
    refine .inr ⟨flt, w₁, _, p₁, hcall, rfl, hp₁, ?_⟩
    split at h
    · next hb =>
      cases h
      exact .inl ⟨rfl, rfl, .inl ⟨hb, rfl⟩⟩
    · next back hb =>
      split at h
      · next w₂ hcall' =>
        cases h
        exact .inl ⟨rfl, rfl, .inr hcall'⟩
      · next flt' w₂ hcall' => exact .inr ⟨back, flt', w₂, hb, hcall', h⟩

theorem addFltFrom_linksOnly {i n : Nat} (h : addFltFrom ops t client i n s w = some (r, s', w')) :
    LinksOnly s s' := by
  induction n generalizing i s w with
  | zero =>
    cases h
    exact .refl _
  | succ n ih =>
    obtain ⟨c, link, p, -, -, -, ⟨-, -, rfl⟩ | ⟨flt, w₁, s₁, p₁, -, rfl, -, hrest⟩⟩ :=
      addFltFrom_succ h
    · exact .refl _
    · have hat := setFltRuleHdlAt_linksOnly s client i flt.hdl
      obtain ⟨-, rfl, -⟩ | ⟨back, flt', w₂, -, -, hrest⟩ := hrest
      · exact hat
      · exact (hat.trans (setFltRuleHdlTo_linksOnly _ _ _ _)).trans (ih hrest)

theorem addFltRules_cases (h : addFltRules ops t client s w = some (r, s', w')) :
    ∃ c, s.mem client = some c ∧
      addFltFrom ops t client 0 c.link.length s w = some (r, s', w') := by
  simpa only [addFltRules, Option.bind_eq_bind, Option.bind_eq_some_iff] using h

theorem addFltRules_linksOnly (h : addFltRules ops t client s w = some (r, s', w')) :
    LinksOnly s s' := by
  obtain ⟨c, -, h⟩ := addFltRules_cases h
  exact addFltFrom_linksOnly h

end Links

/-! ## What only changes peers -/

/-- A client without its peers. -/
def ClientInfo.unpeered (c : ClientInfo) : ClientInfo := { c with peer := [] }

/-- Only peers differ. -/
structure PeersOnly (s s' : Side) : Prop where
  clientInfo : s'.clientInfo = s.clientInfo
  next : s'.next = s.next
  connection : s'.connection = s.connection
  posted : s'.posted = s.posted
  numOffloadPair : s'.numOffloadPair = s.numOffloadPair
  client : ∀ p, (s'.mem p).map ClientInfo.unpeered = (s.mem p).map ClientInfo.unpeered

namespace PeersOnly

variable {s s' s₁ : Side} {p : Ptr} {c c' : ClientInfo}

theorem refl (s : Side) : PeersOnly s s := ⟨rfl, rfl, rfl, rfl, rfl, fun _ => rfl⟩

theorem trans (h : PeersOnly s s₁) (h' : PeersOnly s₁ s') : PeersOnly s s' where
  clientInfo := h'.clientInfo.trans h.clientInfo
  next := h'.next.trans h.next
  connection := h'.connection.trans h.connection
  posted := h'.posted.trans h.posted
  numOffloadPair := h'.numOffloadPair.trans h.numOffloadPair
  client := fun p => (h'.client p).trans (h.client p)

theorem modify (s : Side) (p : Ptr) {f : ClientInfo → ClientInfo}
    (hf : ∀ c, (f c).unpeered = c.unpeered) : PeersOnly s (s.modify p f) where
  clientInfo := rfl
  next := rfl
  connection := rfl
  posted := rfl
  numOffloadPair := rfl
  client := s.map_mem_modify p hf

theorem find (h : PeersOnly s s') (key : Key) : s'.find key = s.find key := by
  rw [Side.find, Side.find, h.clientInfo]

theorem live_iff (h : PeersOnly s s') (p : Ptr) : s'.mem p ≠ none ↔ s.mem p ≠ none := by
  have := h.client p
  rw [Ne, Ne, ← Option.map_eq_none_iff, this, Option.map_eq_none_iff]

theorem wf (h : PeersOnly s s') (hs : s.Wf) : s'.Wf :=
  hs.of_live h.clientInfo h.next h.live_iff

theorem exists_mem (h : PeersOnly s s') (hc : s.mem p = some c) :
    ∃ c', s'.mem p = some c' ∧ c'.unpeered = c.unpeered := by
  have hp := h.client p
  rw [hc] at hp
  obtain ⟨c', hc', heq⟩ := Option.map_eq_some_iff.mp hp
  exact ⟨c', hc', heq⟩

theorem exists_mem' (h : PeersOnly s s') (hc' : s'.mem p = some c') :
    ∃ c, s.mem p = some c ∧ c'.unpeered = c.unpeered := by
  have hp := h.client p
  rw [hc'] at hp
  obtain ⟨c, hc, heq⟩ := Option.map_eq_some_iff.mp hp.symm
  exact ⟨c, hc, heq.symm⟩

end PeersOnly

theorem ClientInfo.isActive_of_unpeered (h : c'.unpeered = c.unpeered) :
    c'.isActive = c.isActive := by
  have := congrArg ClientInfo.isActive h
  exact this

theorem ClientInfo.isPowersave_of_unpeered (h : c'.unpeered = c.unpeered) :
    c'.isPowersave = c.isPowersave := by
  have := congrArg ClientInfo.isPowersave h
  exact this

namespace Side

variable {cfg : Config} {ops : Ifaces ω} {t : IpType} {s s' : Side} {w w' : ω} {r : Bool}
  {p a b : Ptr}

/-- A new entry, or one more in that which is there. -/
theorem countPeer_cases (h : s.countPeer a b = some (r, s')) :
    ∃ c, s.mem a = some c ∧
      (record PeerInfo.peerPointer c.peer b = none ∧ r = true ∧
          s' = s.modify a (fun c => { c with peer := c.peer ++ [⟨b, 1⟩] }) ∨
        ∃ x n, record PeerInfo.peerPointer c.peer b = some x ∧ addInt x.numConnection 1 = some n ∧
          r = false ∧ s' = s.modify a (fun c =>
            { c with
              peer := amend PeerInfo.peerPointer (fun x => { x with numConnection := n }) b c.peer })) := by
  simp only [countPeer, Option.bind_eq_bind, Option.bind_eq_some_iff] at h
  obtain ⟨c, hc, h⟩ := h
  refine ⟨c, hc, ?_⟩
  split at h
  · next hx =>
    cases h
    exact .inl ⟨hx, rfl, rfl⟩
  · next x hx =>
    simp only [Option.bind_eq_some_iff] at h
    obtain ⟨n, hn, h⟩ := h
    cases h
    exact .inr ⟨x, n, hx, hn, rfl, rfl⟩

theorem countPeer_peersOnly (h : s.countPeer a b = some (r, s')) : PeersOnly s s' := by
  obtain ⟨c, -, ⟨-, -, rfl⟩ | ⟨x, n, -, -, -, rfl⟩⟩ := countPeer_cases h
  · exact .modify _ _ fun _ => rfl
  · exact .modify _ _ fun _ => rfl

theorem addConnection_cases (h : s.addConnection a b = some (r, s')) :
    ∃ r₁ s₁ r₂, s.countPeer a b = some (r₁, s₁) ∧ s₁.countPeer b a = some (r₂, s') ∧
      r = (r₁ || r₂) := by
  simp only [addConnection, Option.bind_eq_bind, Option.bind_eq_some_iff] at h
  obtain ⟨⟨r₁, s₁⟩, h₁, ⟨r₂, s₂⟩, h₂, h⟩ := h
  cases h
  exact ⟨r₁, s₁, r₂, h₁, h₂, rfl⟩

theorem addConnection_peersOnly (h : s.addConnection a b = some (r, s')) : PeersOnly s s' := by
  obtain ⟨r₁, s₁, r₂, h₁, h₂, -⟩ := addConnection_cases h
  exact (countPeer_peersOnly h₁).trans (countPeer_peersOnly h₂)

theorem dropPeer_peersOnly (s : Side) (p peer : Ptr) : PeersOnly s (s.dropPeer p peer) :=
  .modify _ _ fun _ => rfl

/-- No entry, its last connection, or one less. -/
theorem uncountPeer_cases (h : s.uncountPeer a b = some (r, s')) :
    ∃ c, s.mem a = some c ∧
      (record PeerInfo.peerPointer c.peer b = none ∧ r = false ∧ s' = s ∨
        ∃ x n, record PeerInfo.peerPointer c.peer b = some x ∧
          addInt x.numConnection (-1) = some n ∧
          (n = 0 ∧ r = true ∧ s' = s.dropPeer a b ∨
            n ≠ 0 ∧ r = false ∧ s' = s.modify a (fun c =>
              { c with
                peer :=
                  amend PeerInfo.peerPointer (fun x => { x with numConnection := n }) b c.peer }))) := by
  simp only [uncountPeer, Option.bind_eq_bind, Option.bind_eq_some_iff] at h
  obtain ⟨c, hc, h⟩ := h
  refine ⟨c, hc, ?_⟩
  split at h
  · next hx =>
    cases h
    exact .inl ⟨hx, rfl, rfl⟩
  · next x hx =>
    simp only [Option.bind_eq_some_iff] at h
    obtain ⟨n, hn, h⟩ := h
    refine .inr ⟨x, n, hx, hn, ?_⟩
    split at h
    · next h0 =>
      cases h
      exact .inl ⟨h0, rfl, rfl⟩
    · next h0 =>
      cases h
      exact .inr ⟨h0, rfl, rfl⟩

theorem uncountPeer_peersOnly (h : s.uncountPeer a b = some (r, s')) : PeersOnly s s' := by
  obtain ⟨c, -, ⟨-, -, rfl⟩ | ⟨x, n, -, -, ⟨-, -, rfl⟩ | ⟨-, -, rfl⟩⟩⟩ := uncountPeer_cases h
  · exact .refl _
  · exact dropPeer_peersOnly _ _ _
  · exact .modify _ _ fun _ => rfl

theorem removeConnection_cases (h : s.removeConnection a b = some (r, s')) :
    ∃ r₁ s₁, s.uncountPeer a b = some (r₁, s₁) ∧ s₁.uncountPeer b a = some (r, s') := by
  simp only [removeConnection, Option.bind_eq_bind, Option.bind_eq_some_iff] at h
  obtain ⟨⟨r₁, s₁⟩, h₁, h₂⟩ := h
  exact ⟨r₁, s₁, h₁, h₂⟩

theorem removeConnection_peersOnly (h : s.removeConnection a b = some (r, s')) :
    PeersOnly s s' := by
  obtain ⟨r₁, s₁, h₁, h₂⟩ := removeConnection_cases h
  exact (uncountPeer_peersOnly h₁).trans (uncountPeer_peersOnly h₂)

/-- One turn of the loop over the peers. -/
theorem clearPeerFrom_cons {x : PeerInfo} {peers : List PeerInfo}
    (h : clearPeerFrom p (x :: peers) s = some (r, s')) :
    ∃ q, s.mem x.peerPointer = some q ∧
      (record PeerInfo.peerPointer q.peer p = none ∧ r = false ∧ s' = s ∨
        record PeerInfo.peerPointer q.peer p ≠ none ∧ x.peerPointer ≠ p ∧
          clearPeerFrom p peers (s.dropPeer x.peerPointer p) = some (r, s')) := by
  simp only [clearPeerFrom, Option.bind_eq_bind, Option.bind_eq_some_iff] at h
  obtain ⟨q, hq, h⟩ := h
  refine ⟨q, hq, ?_⟩
  split at h
  · next hx =>
    cases h
    exact .inl ⟨hx, rfl, rfl⟩
  · next y hy =>
    split at h
    · cases h
    · next hne =>
      exact .inr ⟨by rw [hy]; exact Option.some_ne_none y, hne, h⟩

theorem clearPeerFrom_peersOnly {peers : List PeerInfo}
    (h : clearPeerFrom p peers s = some (r, s')) : PeersOnly s s' := by
  induction peers generalizing s with
  | nil =>
    cases h
    exact .refl _
  | cons x peers ih =>
    obtain ⟨q, -, ⟨-, -, rfl⟩ | ⟨-, -, hrest⟩⟩ := clearPeerFrom_cons h
    · exact .refl _
    · exact (dropPeer_peersOnly _ _ _).trans (ih hrest)

theorem clearPeerList_cases (h : s.clearPeerList p = some (r, s')) :
    ∃ c s₁, s.mem p = some c ∧ clearPeerFrom p c.peer s = some (r, s₁) ∧
      (r = false ∧ s' = s₁ ∨ r = true ∧ s' = s₁.modify p fun c => { c with peer := [] }) := by
  simp only [clearPeerList, Option.bind_eq_bind, Option.bind_eq_some_iff] at h
  obtain ⟨c, hc, ⟨res, s₁⟩, hloop, h⟩ := h
  refine ⟨c, s₁, hc, ?_⟩
  cases res with
  | false =>
    cases h
    exact ⟨hloop, .inl ⟨rfl, rfl⟩⟩
  | true =>
    cases h
    exact ⟨hloop, .inr ⟨rfl, rfl⟩⟩

theorem clearPeerList_peersOnly (h : s.clearPeerList p = some (r, s')) : PeersOnly s s' := by
  obtain ⟨c, s₁, -, hloop, ⟨-, rfl⟩ | ⟨-, rfl⟩⟩ := clearPeerList_cases h
  · exact clearPeerFrom_peersOnly hloop
  · exact (clearPeerFrom_peersOnly hloop).trans (.modify _ _ fun _ => rfl)

/-! ## What leaves the clients as they are -/

theorem SameClients.refl (s : Side) : s.SameClients s := ⟨rfl, rfl, rfl, rfl⟩

theorem SameClients.find (h : s.SameClients s') (key : Key) : s'.find key = s.find key := by
  rw [Side.find, Side.find, h.clientInfo]

theorem generateNewConnection_same (h : s.generateNewConnection cfg t p = some s') :
    s.SameClients s' := by
  unfold generateNewConnection at h
  split at h
  · cases h
    exact .refl _
  · simp only [Option.bind_eq_bind, Option.bind_eq_some_iff] at h
    obtain ⟨c, -, h⟩ := h
    cases h
    exact ⟨rfl, rfl, rfl, rfl⟩

theorem checkCacheConnection_same (h : s.checkCacheConnection cfg p = some s') :
    s.SameClients s' := by
  unfold checkCacheConnection at h
  split at h
  · cases h
    exact .refl _
  · simp only [Option.bind_eq_bind, Option.bind_eq_some_iff] at h
    obtain ⟨c, -, h⟩ := h
    cases h
    exact ⟨rfl, rfl, rfl, rfl⟩

theorem SameClients.trans {s₁ : Side} (h : s.SameClients s₁) (h' : s₁.SameClients s') :
    s.SameClients s' where
  clientInfo := h'.clientInfo.trans h.clientInfo
  mem := h'.mem.trans h.mem
  next := h'.next.trans h.next
  numOffloadPair := h'.numOffloadPair.trans h.numOffloadPair

theorem announce_same (h : s.announce cfg t p = some s') : s.SameClients s' := by
  simp only [announce, Option.bind_eq_bind, Option.bind_eq_some_iff] at h
  obtain ⟨s₁, h₁, h₂⟩ := h
  exact (generateNewConnection_same h₁).trans (checkCacheConnection_same h₂)

theorem handleNewConnection_same {conn : ConnectionData}
    (h : s.handleNewConnection cfg conn = some s') : s.SameClients s' := by
  unfold handleNewConnection at h
  split at h
  · cases h
    exact .refl _
  simp only [Option.bind_eq_bind, Option.bind_eq_some_iff] at h
  obtain ⟨res, -, h⟩ := h
  split at h
  · cases h
    unfold cacheNewConnection
    split
    · exact ⟨rfl, rfl, rfl, rfl⟩
    · exact .refl _
  · cases h
    exact ⟨rfl, rfl, rfl, rfl⟩

theorem handleDelConnection_same {conn : ConnectionData}
    (h : s.handleDelConnection cfg conn = some s') : s.SameClients s' := by
  unfold handleDelConnection at h
  split at h
  · cases h
    exact .refl _
  simp only [Option.bind_eq_bind, Option.bind_eq_some_iff] at h
  obtain ⟨res, -, h⟩ := h
  split at h
  · cases h
    unfold removeCacheConnection
    split
    · exact ⟨rfl, rfl, rfl, rfl⟩
    · exact .refl _
  · cases h
    exact ⟨rfl, rfl, rfl, rfl⟩

end Side

end Nx508j.Ipacm.Lan2Lan
