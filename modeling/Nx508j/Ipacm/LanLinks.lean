import Nx508j.Ipacm.LanPeers

/-! # Links

The clients a client has links to, and what the parts of the handlers do to them. -/

namespace Nx508j.Ipacm.Lan2Lan

open Nx508j.Lib

variable {ω : Type} {cfg : Config} {ops : Ifaces ω} {t : IpType}

namespace Side

variable {s s' s₁ : Side} {w w' : ω} {a b p q x : Ptr} {r : Bool} {key : Key} {c : ClientInfo}

/-- Where the links of the client at `p` go. -/
def links (s : Side) (p : Ptr) : List Ptr :=
  ((s.mem p).map fun c => c.link.map OffloadLinkInfo.peerPointer).getD []

theorem links_of_mem (h : s.mem p = some c) :
    s.links p = c.link.map OffloadLinkInfo.peerPointer := by
  rw [links, h]
  rfl

theorem links_of_dead (h : s.mem p = none) : s.links p = [] := by
  rw [links, h]
  rfl

theorem live_of_links (h : q ∈ s.links p) : s.mem p ≠ none := by
  intro hp
  rw [links_of_dead hp] at h
  exact List.not_mem_nil h

/-- The links depend on the list of links alone. -/
theorem links_congr (h : (s'.mem p).map (fun c => c.link.map OffloadLinkInfo.peerPointer) =
    (s.mem p).map fun c => c.link.map OffloadLinkInfo.peerPointer) : s'.links p = s.links p :=
  congrArg (Option.getD · []) h

theorem links_congr_mem (h : s'.mem p = s.mem p) : s'.links p = s.links p :=
  links_congr (by rw [h])

theorem links_modify (s : Side) (p : Ptr) {f : ClientInfo → ClientInfo}
    (hf : ∀ c, (f c).link.map OffloadLinkInfo.peerPointer =
      c.link.map OffloadLinkInfo.peerPointer) (q : Ptr) :
    (s.modify p f).links q = s.links q :=
  links_congr (s.map_mem_modify p hf q)

theorem links_pairs (s : Side) (n : BitVec 8) (p : Ptr) :
    { s with numOffloadPair := n }.links p = s.links p := rfl

theorem SameClients.links (h : s.SameClients s') (p : Ptr) : s'.links p = s.links p :=
  links_congr_mem (by rw [h.mem])

/-- A new client has no links. -/
theorem links_insert (hwf : s.Wf) (hc : c.link = []) (p : Ptr) :
    (s.insert key c).links p = s.links p := by
  by_cases hp : p = s.next
  · have hdead : s.mem p = none := by
      by_contra hlive
      exact Nat.ne_of_lt (hwf.fresh p hlive) hp
    have hmem : (s.insert key c).mem p = some c := by rw [mem_insert, if_pos hp]
    rw [links_of_dead hdead, links_of_mem hmem, hc]
    rfl
  · exact links_congr_mem (by rw [mem_insert, if_neg hp])

/-- A client that goes has no links any more. -/
theorem links_erase (h : s.find key = some p) (q : Ptr) :
    (s.erase key).links q = if q = p then [] else s.links q := by
  split
  · next hq => exact links_of_dead (by rw [mem_erase h, if_pos hq])
  · next hq => exact links_congr_mem (by rw [mem_erase h, if_neg hq])

theorem links_clear (s : Side) (p q : Ptr) :
    (s.modify p fun c => { c with link := [] }).links q = if q = p then [] else s.links q := by
  split
  · next hq =>
    subst hq
    cases hc : s.mem q with
    | none => exact links_of_dead (by rw [mem_modify, if_pos rfl, hc]; rfl)
    | some c =>
      rw [links_of_mem (c := { c with link := [] }) (by rw [mem_modify, if_pos rfl, hc]; rfl)]
      rfl
  · next hq => exact links_congr_mem (by rw [mem_modify, if_neg hq])

/-- One link to the peer goes. -/
theorem links_dropLink (s : Side) (p peer q : Ptr) :
    (s.dropLink p peer).links q = if q = p then (s.links p).erase peer else s.links q := by
  split
  · next hq =>
    subst hq
    cases hc : s.mem q with
    | none =>
      rw [links_of_dead hc, links_of_dead (by rw [dropLink, mem_modify, if_pos rfl, hc]; rfl)]
      rfl
    | some c =>
      have hmem : (s.dropLink q peer).mem q =
          some { c with link := discard OffloadLinkInfo.peerPointer c.link peer } := by
        rw [dropLink, mem_modify, if_pos rfl, hc]
        rfl
      rw [links_of_mem hmem, links_of_mem hc]
      exact map_key_discard _ _
  · next hq => exact links_congr_mem (by rw [dropLink, mem_modify, if_neg hq])

/-- A link is put at the end. -/
theorem links_push {link : OffloadLinkInfo} (hc : s.mem a = some c) (q : Ptr) :
    (s.modify a fun c => { c with link := c.link ++ [link] }).links q =
      if q = a then s.links a ++ [link.peerPointer] else s.links q := by
  split
  · next hq =>
    have hmem : (s.modify a fun c => { c with link := c.link ++ [link] }).mem q =
        some { c with link := c.link ++ [link] } := by
      rw [mem_modify, if_pos hq, hc]
      rfl
    rw [links_of_mem hmem, links_of_mem hc]
    exact List.map_append
  · next hq => exact links_congr_mem (by rw [mem_modify, if_neg hq])

theorem record_link_eq_none (hc : s.mem p = some c) :
    record OffloadLinkInfo.peerPointer c.link q = none ↔ q ∉ s.links p := by
  rw [record_eq_none, links_of_mem hc]

end Side

/-- Connections do not matter here. -/
theorem PeersOnly.links {s s' : Side} (h : PeersOnly s s') (p : Ptr) : s'.links p = s.links p := by
  refine Side.links_congr ?_
  have hp := congrArg (Option.map fun c => c.link.map OffloadLinkInfo.peerPointer) (h.client p)
  rw [Option.map_map, Option.map_map] at hp
  exact hp

/-! ## Links only go -/

/-- No client has a link it did not have before. -/
def LinksSub (s s' : Side) : Prop := ∀ p q, q ∈ s'.links p → q ∈ s.links p

namespace LinksSub

variable {s s' s₁ : Side}

theorem refl (s : Side) : LinksSub s s := fun _ _ h => h

theorem trans (h : LinksSub s s₁) (h' : LinksSub s₁ s') : LinksSub s s' :=
  fun p q hq => h p q (h' p q hq)

theorem of_eq (h : ∀ p, s'.links p = s.links p) : LinksSub s s' := by
  intro p q hq
  rw [h] at hq
  exact hq

theorem dropLink (s : Side) (p peer : Ptr) : LinksSub s (s.dropLink p peer) := by
  intro q x hx
  rw [Side.links_dropLink] at hx
  split at hx
  · next hq =>
    rw [hq]
    exact List.mem_of_mem_erase hx
  · exact hx

theorem clear (s : Side) (p : Ptr) : LinksSub s (s.modify p fun c => { c with link := [] }) := by
  intro q x hx
  rw [Side.links_clear] at hx
  split at hx
  · cases hx
  · exact hx

end LinksSub

section Stages

variable {s s' : Side} {w w' : ω} {a b client : Ptr} {r : Bool}

/-- By induction on the links that are turned off. -/
theorem turnoffFrom_linksSub {i : Iface} {links : List OffloadLinkInfo}
    (h : turnoffFrom ops t client i links s w = some (r, s', w')) : LinksSub s s' := by
  induction links generalizing s w with
  | nil =>
    cases h
    exact .refl _
  | cons link links ih =>
    obtain ⟨p, -, ⟨-, rfl, -⟩ | ⟨back, w₁, w₂, -, -, -, -, hrest⟩⟩ := turnoffFrom_cons h
    · exact .refl _
    · have hsub : LinksSub { s.dropLink link.peerPointer client with
          numOffloadPair := s.numOffloadPair - 1 } s' := ih hrest
      exact (LinksSub.dropLink s link.peerPointer client).trans hsub

/-- Turning off only takes links away. -/
theorem turnoffOffloadLinks_linksSub
    (h : turnoffOffloadLinks ops t client s w = some (r, s', w')) : LinksSub s s' := by
  obtain ⟨c, s₁, -, hloop, ⟨-, rfl⟩ | ⟨-, rfl⟩⟩ := turnoffOffloadLinks_cases h
  · exact turnoffFrom_linksSub hloop
  · exact (turnoffFrom_linksSub hloop).trans (.clear _ _)

theorem eraseLink_linksSub (h : eraseLink ops t a b s w = some (r, s', w')) : LinksSub s s' := by
  obtain ⟨c, -, ⟨-, -, rfl, -⟩ | ⟨link, d, -, -, -, rfl⟩⟩ := eraseLink_cases h
  · exact .refl _
  · exact .dropLink _ _ _

theorem eraseOffloadLink_linksSub (h : eraseOffloadLink ops t a b s w = some (s', w')) :
    LinksSub s s' := by
  obtain ⟨r₁, s₁, w₁, r₂, s₂, h₁, h₂, rfl⟩ := eraseOffloadLink_cases h
  have hsub := (eraseLink_linksSub h₁).trans (eraseLink_linksSub h₂)
  split
  · exact hsub
  · exact hsub

/-- So does the end of a connection. -/
theorem eraseLinks_linksSub (h : Side.eraseLinks ops t a b s w = some (s', w')) :
    LinksSub s s' := by
  obtain ⟨c, d, -, -, ⟨-, h⟩ | ⟨-, s₁, w₁, h₁, h₂⟩⟩ := Side.eraseLinks_cases h
  · exact eraseOffloadLink_linksSub h
  have hfirst : LinksSub s s₁ := by
    split at h₁
    · exact eraseOffloadLink_linksSub h₁
    · cases h₁
      exact .refl _
  refine hfirst.trans ?_
  split at h₂
  · exact eraseOffloadLink_linksSub h₂
  · cases h₂
    exact .refl _

theorem setFltRuleHdlAt_links (s : Side) (p : Ptr) (i : Nat) (hdl : Hdl) (q : Ptr) :
    (s.setFltRuleHdlAt p i hdl).links q = s.links q := by
  refine Side.links_modify s p (fun c => List.ext_getElem? fun j => ?_) q
  rw [List.getElem?_map, List.getElem?_map, List.getElem?_modify]
  split
  · cases c.link[j]? <;> rfl
  · cases c.link[j]? <;> rfl

theorem setFltRuleHdlTo_links (s : Side) (p peer : Ptr) (hdl : Hdl) (q : Ptr) :
    (s.setFltRuleHdlTo p peer hdl).links q = s.links q := by
  have hkey : ∀ l : OffloadLinkInfo,
      OffloadLinkInfo.peerPointer { l with fltRuleHdl := hdl } = l.peerPointer := fun _ => rfl
  exact Side.links_modify s p (fun c => map_key_amend hkey peer c.link) q

/-- A new handle is stored in a link that is there. -/
theorem addFltFrom_links {i n : Nat} (h : addFltFrom ops t client i n s w = some (r, s', w'))
    (p : Ptr) : s'.links p = s.links p := by
  induction n generalizing i s w with
  | zero =>
    cases h
    rfl
  | succ n ih =>
    obtain ⟨c, link, p, -, -, -, ⟨-, -, rfl⟩ | ⟨flt, w₁, s₁, p₁, -, rfl, -, hrest⟩⟩ :=
      addFltFrom_succ h
    · rfl
    · obtain ⟨-, rfl, -⟩ | ⟨back, flt', w₂, -, -, hrest⟩ := hrest
      · exact setFltRuleHdlAt_links _ _ _ _ _
      · rw [ih hrest, setFltRuleHdlTo_links, setFltRuleHdlAt_links]

theorem addFltRules_links (h : addFltRules ops t client s w = some (r, s', w')) (p : Ptr) :
    s'.links p = s.links p := by
  obtain ⟨c, -, h⟩ := addFltRules_cases h
  exact addFltFrom_links h p

end Stages

end Nx508j.Ipacm.Lan2Lan
