import Nx508j.Ipacm.LanCounts
import Nx508j.Ipacm.LanLinks

/-! # Links to clients that left

A link is made in two steps. If the second one fails, a client has a link to another that has none
back; to turn off the links of that other one finds nothing, and the link outlives it. -/

namespace Nx508j.Ipacm.Lan2Lan

open Nx508j.Lib Function

variable {ω : Type} {cfg : Config} {ops : Ifaces ω} {t : IpType}

/-! ## Deletions that succeed -/

/-- The call deletes something. -/
def IfaceCall.isDel : IfaceCall → Bool
  | .delLan2lanHdr .. => true
  | .delLan2lanRtRule .. => true
  | .delLan2lanFltRule .. => true
  | _ => false

/-- No deletion is refused. -/
def Ifaces.Deletes (ops : Ifaces ω) : Prop :=
  ∀ w i c, c.isDel = true → (ops.call w i c).1.isSome = true

theorem Ifaces.Deletes.delOffloadLink (hdel : ops.Deletes) (i j : Iface) (link : OffloadLinkInfo)
    (w : ω) : (delOffloadLink ops t i j link w).1 = true := by
  simp only [Lan2Lan.delOffloadLink]
  rw [hdel _ _ _ rfl, hdel _ _ _ rfl, hdel _ _ _ rfl]
  rfl

/-! ## How far the links of a client are turned off -/

/-- The first of some links, up to one that is not listed back any more: a client at `x` lists the one
    whose links these are `back x` times. -/
def walk (back : Ptr → Nat) : List Ptr → List Ptr
  | [] => []
  | x :: xs =>
    if back x = 0 then [] else x :: walk (update back x (back x - 1)) xs

namespace Side

variable {s s' s₁ : Side} {w w' : ω} {a b p q x : Ptr} {r : Bool} {key : Key} {c : ClientInfo}

/-- Where the links of the client at `p` go, as far as `turnoff_offload_links` comes. -/
def turnedOff (s : Side) (p : Ptr) : List Ptr := walk (fun x => (s.links x).count p) (s.links p)

end Side

section Turnoff

variable {s s' : Side} {w w' : ω} {client : Ptr} {r : Bool}

theorem turnoffFrom_walk (hdel : ops.Deletes) {i : Iface} {links : List OffloadLinkInfo}
    (h : turnoffFrom ops t client i links s w = some (r, s', w')) (x : Ptr) :
    (s'.links x).count client + (walk (fun x => (s.links x).count client)
      (links.map OffloadLinkInfo.peerPointer)).count x = (s.links x).count client := by
  induction links generalizing s w with
  | nil =>
    cases h
    rfl
  | cons link links ih =>
    obtain ⟨p, hp, hcase⟩ := turnoffFrom_cons h
    have hcount : record OffloadLinkInfo.peerPointer p.link client = none ↔
        (s.links link.peerPointer).count client = 0 := by
      rw [Side.record_link_eq_none hp, List.count_eq_zero]
    obtain ⟨-, rfl, hfail | ⟨hnone, -⟩ | ⟨back, w₁, -, -, hfail⟩⟩ |
      ⟨back, w₁, w₂, hback, -, -, -, hrest⟩ := hcase
    · have := hdel.delOffloadLink (t := t) i p.pIface link w
      rw [hfail] at this
      cases this
    · rw [List.map_cons, walk, if_pos (hcount.mp hnone)]
      rfl
    · have := hdel.delOffloadLink (t := t) p.pIface i back w₁
      rw [hfail] at this
      cases this
    · have hne : (s.links link.peerPointer).count client ≠ 0 := by
        rw [Ne, ← hcount, hback]
        exact Option.some_ne_none back
      have hupdate : (fun x => ((s.dropLink link.peerPointer client).links x).count client) =
          update (fun x => (s.links x).count client) link.peerPointer
            ((s.links link.peerPointer).count client - 1) := by
        funext y
        rw [Side.links_dropLink, update_apply]
        split
        · exact List.count_erase_self
        · rfl
      have hlast := ih hrest
      simp only [Side.links_pairs, hupdate] at hlast
      rw [List.map_cons, walk, if_neg hne, List.count_cons]
      by_cases hx : x = link.peerPointer
      · subst hx
        rw [Side.links_dropLink, if_pos rfl, List.count_erase_self] at hlast
        simp only [beq_self_eq_true, if_true]
        omega
      · rw [Side.links_dropLink, if_neg hx] at hlast
        have hbeq : (link.peerPointer == x) = false := beq_false_of_ne (Ne.symm hx)
        simp only [hbeq, Bool.false_eq_true, if_false]
        omega

theorem turnoffOffloadLinks_walk (hdel : ops.Deletes)
    (h : turnoffOffloadLinks ops t client s w = some (r, s', w')) {x : Ptr} (hx : x ≠ client) :
    (s'.links x).count client + (s.turnedOff client).count x = (s.links x).count client := by
  obtain ⟨c, s₁, hc, hloop, hend⟩ := turnoffOffloadLinks_cases h
  have hwalk := turnoffFrom_walk hdel hloop x
  rw [Side.turnedOff, Side.links_of_mem hc]
  obtain ⟨-, rfl⟩ | ⟨-, rfl⟩ := hend
  · exact hwalk
  · rw [Side.links_clear, if_neg hx]
    exact hwalk

end Turnoff

namespace Side

variable {s s' s₁ : Side} {w w' : ω} {a b p q x : Ptr} {r : Bool} {key : Key} {c : ClientInfo}

/-! ## Every link goes to a client -/

/-- A link goes to a client that is there. -/
def LinkLive (s : Side) : Prop := ∀ p q, q ∈ s.links p → s.mem q ≠ none

theorem LinkLive.init : init.LinkLive := fun _ _ h => absurd h (by simp [links, Side.init])

theorem LinkLive.of_sub (hs : s.LinkLive) (hsub : LinksSub s s')
    (hlive : ∀ p, s.mem p ≠ none → s'.mem p ≠ none) : s'.LinkLive :=
  fun p q h => hlive q (hs p q (hsub p q h))

theorem LinkLive.addOffloadLink (hs : s.LinkLive)
    (h : addOffloadLink ops t a b s w = some (r, s', w')) : s'.LinkLive := by
  have hlinks := addOffloadLink_linksOnly h
  obtain ⟨-, -, rfl, -⟩ | ⟨c, p, hc, hp, -, ⟨-, -, rfl⟩ | ⟨link, hlink, -, rfl⟩⟩ :=
    addOffloadLink_cases h
  · exact hs
  · exact hs
  · intro x q hq
    rw [hlinks.live_iff]
    rw [links_push hc] at hq
    split at hq
    · rcases List.mem_append.mp hq with hq | hq
      · exact hs a q hq
      · obtain rfl := List.mem_singleton.mp hq
        rw [installLink_peerPointer hlink, hp]
        exact Option.some_ne_none p
    · exact hs x q hq

theorem LinkLive.checkPotentialFrom {peers : List PeerInfo} (hs : s.LinkLive)
    (h : checkPotentialFrom ops t p peers s w = some (s', w')) : s'.LinkLive := by
  induction peers generalizing s w with
  | nil =>
    cases h
    exact hs
  | cons x peers ih =>
    obtain ⟨q, -, ⟨-, hrest⟩ | ⟨-, r₁, s₁, w₁, r₂, s₂, w₂, h₁, h₂, hrest⟩⟩ :=
      checkPotentialFrom_cons h
    · exact ih hs hrest
    · have hs₂ := (hs.addOffloadLink h₁).addOffloadLink h₂
      refine ih ?_ hrest
      split
      · exact hs₂
      · exact hs₂

theorem LinkLive.checkPotentialLink (hs : s.LinkLive)
    (h : checkPotentialLink ops t p s w = some (s', w')) : s'.LinkLive := by
  obtain ⟨c, -, h⟩ := checkPotentialLink_cases h
  exact hs.checkPotentialFrom h

theorem LinkLive.of_same (hs : s.LinkLive) (h : s.SameClients s') : s'.LinkLive :=
  hs.of_sub (.of_eq h.links) fun p hp => by rwa [h.mem]

theorem LinkLive.modify (hs : s.LinkLive) (p : Ptr) {f : ClientInfo → ClientInfo}
    (hf : ∀ c, (f c).link = c.link) : (s.modify p f).LinkLive := by
  refine hs.of_sub (.of_eq (links_modify s p fun c => by rw [hf])) fun q hq => ?_
  rw [mem_modify]
  split
  · next h =>
    rw [Ne, Option.map_eq_none_iff, ← h]
    exact hq
  · exact hq

theorem LinkLive.erase (hs : s.LinkLive) (hfind : s.find key = some p)
    (h : ∀ x, x ≠ p → p ∉ s.links x) : (s.erase key).LinkLive := by
  intro x q hq
  rw [links_erase hfind] at hq
  split at hq
  · cases hq
  · next hx =>
    have hne : q ≠ p := by
      rintro rfl
      exact h x hx hq
    rw [mem_erase hfind, if_neg hne]
    exact hs x q hq

/-! ## Who leaves -/

/-- The client at `p` is erased by an input: it disconnects, it becomes inactive and has no peers, or
    it is inactive, is not in power save, and loses the only connection it has. -/
def Leaves (s : Side) (t : IpType) : Input → Ptr → Prop
  | .eventCallback (.lanClientDisconnect data), p => s.find (data.key t) = some p
  | .eventCallback (.lanClientInactive data), p =>
    s.find (data.key t) = some p ∧ ∀ q, s.counted p q = none
  | .eventCallback (.lanToLanDelConnection conn), p =>
    ∃ a b c, s.find (srcKey conn) = some a ∧ s.find (dstKey conn) = some b ∧ a ≠ b ∧
      (p = a ∨ p = b) ∧ s.mem p = some c ∧ c.isActive = false ∧ c.isPowersave = false ∧
      ∀ q, s.counted p q = if p = a ∧ q = b ∨ p = b ∧ q = a then some 1 else none
  | _, _ => False

/-- The links of the client at `p` are turned off if the input disconnects it or makes it inactive. -/
def TurnsOff (s : Side) (t : IpType) : Input → Ptr → Prop
  | .eventCallback (.lanClientDisconnect data), p => s.find (data.key t) = some p
  | .eventCallback (.lanClientInactive data), p => s.find (data.key t) = some p
  | _, _ => False

/-- No client that stays keeps a link to one that leaves: it has none, or they are all turned off, and
    no deletion is refused. -/
def LeavesNoLink (s : Side) (t : IpType) (i : Input) (ops : Ifaces ω) : Prop :=
  ∀ p, s.Leaves t i p → ∀ x, ¬ s.Leaves t i x →
    p ∉ s.links x ∨
      s.TurnsOff t i p ∧ ops.Deletes ∧ (s.links x).count p ≤ (s.turnedOff p).count x

/-! ## Handlers -/

section Handlers

variable {data : LanClientData} {conn : ConnectionData} {pIface : Iface}

theorem handleClientActive_linkLive (hwf : s.Wf) (hs : s.LinkLive)
    (h : s.handleClientActive cfg ops t data pIface w = some (s', w')) : s'.LinkLive := by
  have hfill : ∀ c, (data.fill t pIface c).link = c.link := fun _ => rfl
  obtain ⟨hfind, -, hannounce⟩ | ⟨p, c, hfind, hc, hcase⟩ := handleClientActive_cases h
  · have hnew : (s.insert (data.key t) (data.fill t pIface .blank)).LinkLive := by
      refine hs.of_sub (.of_eq (links_insert hwf rfl)) fun q hq => ?_
      rw [mem_insert]
      split
      · exact Option.some_ne_none _
      · exact hq
    exact hnew.of_same (announce_same hannounce)
  · obtain ⟨-, -, rfl, -⟩ | ⟨-, -, r, s₁, r', s₂, hoff, hclear, hannounce⟩ |
      ⟨-, s₁, hcheck, hannounce⟩ := hcase
    · exact hs
    · have hlinks := turnoffOffloadLinks_linksOnly hoff
      have hpeers := clearPeerList_peersOnly hclear
      have hs₁ := hs.of_sub (turnoffOffloadLinks_linksSub hoff) fun q => (hlinks.live_iff q).mpr
      have hs₂ := hs₁.of_sub (.of_eq hpeers.links) fun q => (hpeers.live_iff q).mpr
      exact (hs₂.modify p hfill).of_same (announce_same hannounce)
    · exact ((hs.modify p hfill).checkPotentialLink hcheck).of_same (announce_same hannounce)

theorem turnoffOffloadLinks_noLink {i : Input} (hp : s.Leaves t i p)
    (honly : ∀ x, s.Leaves t i x → x = p) (hleaves : s.LeavesNoLink t i ops)
    (hoff : turnoffOffloadLinks ops t p s w = some (r, s', w')) (x : Ptr) (hx : x ≠ p) :
    p ∉ s'.links x := by
  rcases hleaves p hp x fun h => hx (honly x h) with hnone | ⟨-, hdel, hcount⟩
  · exact fun h => hnone (turnoffOffloadLinks_linksSub hoff x p h)
  · have hwalk := turnoffOffloadLinks_walk hdel hoff hx
    rw [← List.count_eq_zero]
    omega

theorem handleClientInactive_linkLive (hs : s.LinkLive)
    (hleaves : s.LeavesNoLink t (.eventCallback (.lanClientInactive data)) ops)
    (h : s.handleClientInactive ops t data w = some (s', w')) : s'.LinkLive := by
  obtain ⟨-, rfl, -⟩ | ⟨p, r, s₁, c, hfind, hoff, hc, hend⟩ := handleClientInactive_cases h
  · exact hs
  have hlinks := turnoffOffloadLinks_linksOnly hoff
  have hs₁ := hs.of_sub (turnoffOffloadLinks_linksSub hoff) fun q => (hlinks.live_iff q).mpr
  have hs₂ := hs₁.modify p (f := fun c => { c with isActive := false }) fun _ => rfl
  obtain ⟨hnil, rfl⟩ | ⟨-, rfl⟩ := hend
  · have hp : s.Leaves t (.eventCallback (.lanClientInactive data)) p := by
      refine ⟨hfind, fun q => ?_⟩
      rw [← hlinks.counted]
      exact counted_of_nil hc hnil q
    have honly : ∀ x, s.Leaves t (.eventCallback (.lanClientInactive data)) x → x = p := by
      rintro x ⟨hx, -⟩
      rw [hfind] at hx
      exact (Option.some.inj hx).symm
    have hno := turnoffOffloadLinks_noLink hp honly hleaves hoff
    refine hs₂.erase ((hlinks.find _).trans hfind) fun x hx => ?_
    rw [links_modify s₁ p (f := fun c => { c with isActive := false }) fun _ => rfl]
    exact hno x hx
  · exact hs₂

theorem handleClientDisconnect_linkLive (hs : s.LinkLive)
    (hleaves : s.LeavesNoLink t (.eventCallback (.lanClientDisconnect data)) ops)
    (h : s.handleClientDisconnect ops t data w = some (s', w')) : s'.LinkLive := by
  obtain ⟨-, rfl, -⟩ | ⟨p, r, s₁, r', s₂, hfind, hoff, hclear, rfl⟩ := handleClientDisconnect_cases h
  · exact hs
  have hlinks := turnoffOffloadLinks_linksOnly hoff
  have hpeers := clearPeerList_peersOnly hclear
  have hs₁ := hs.of_sub (turnoffOffloadLinks_linksSub hoff) fun q => (hlinks.live_iff q).mpr
  have hs₂ := hs₁.of_sub (.of_eq hpeers.links) fun q => (hpeers.live_iff q).mpr
  have honly : ∀ x, s.Leaves t (.eventCallback (.lanClientDisconnect data)) x → x = p := by
    intro x hx
    rw [Leaves, hfind] at hx
    exact (Option.some.inj hx).symm
  have hp : s.Leaves t (.eventCallback (.lanClientDisconnect data)) p := hfind
  have hno := turnoffOffloadLinks_noLink hp honly hleaves hoff
  refine hs₂.erase (by rw [hpeers.find, hlinks.find, hfind]) fun x hx => ?_
  rw [hpeers.links]
  exact hno x hx

theorem handleClientPowerSave_linkLive (hs : s.LinkLive)
    (h : s.handleClientPowerSave ops t data w = some (s', w')) : s'.LinkLive := by
  obtain ⟨-, rfl, -⟩ | ⟨p, r, -, -, ⟨-, rfl⟩ | ⟨-, rfl⟩⟩ := handleClientPowerSave_cases h
  · exact hs
  · exact hs
  · exact hs.modify p fun _ => rfl

theorem handleClientPowerRecover_linkLive (hs : s.LinkLive)
    (h : s.handleClientPowerRecover cfg ops t data w = some (s', w')) : s'.LinkLive := by
  obtain ⟨rfl, -⟩ | ⟨p, c, r, s₁, w₁, -, -, -, -, hadd, hend⟩ := handleClientPowerRecover_cases h
  · exact hs
  · have hs₁ := hs.of_sub (.of_eq (addFltRules_links hadd)) fun q =>
      ((addFltRules_linksOnly hadd).live_iff q).mpr
    obtain ⟨-, rfl, -⟩ | ⟨-, s₂, hcheck, hgen⟩ := hend
    · exact hs₁
    · have hs₂ := hs₁.modify p (f := fun c => { c with isActive := true, isPowersave := false })
        fun _ => rfl
      exact (hs₂.checkPotentialLink hcheck).of_same (generateNewConnection_same hgen)

theorem handleNewLan2lanConnection_linkLive (hs : s.LinkLive)
    (h : s.handleNewLan2lanConnection ops t conn w = some (s', w')) : s'.LinkLive := by
  obtain ⟨-, rfl, -⟩ | ⟨a, b, r, s₁, c, d, -, -, hadd, -, -, hend⟩ :=
    handleNewLan2lanConnection_cases h
  · exact hs
  · have hpeers := addConnection_peersOnly hadd
    have hs₁ := hs.of_sub (.of_eq hpeers.links) fun q => (hpeers.live_iff q).mpr
    obtain ⟨-, rfl, -⟩ | ⟨-, h₁ | ⟨s₂, w₂, h₁, h₂ | ⟨s₃, h₂, rfl⟩⟩⟩ := hend
    · exact hs₁
    · exact hs₁.addOffloadLink h₁
    · exact (hs₁.addOffloadLink h₁).addOffloadLink h₂
    · have hs₃ := (hs₁.addOffloadLink h₁).addOffloadLink h₂
      exact hs₃

theorem peer_nil_of_counted (hc : s.mem p = some c) (h : ∀ q, s.counted p q = none) :
    c.peer = [] := by
  cases hpeer : c.peer with
  | nil => rfl
  | cons x peers =>
    have hx := h x.peerPointer
    rw [counted_eq_none hc, hpeer] at hx
    exact absurd (List.mem_cons_self ..) hx

/-- After its last connection is deleted, a client is idle if and only if it is one of those that
    leave. -/
theorem leaves_iff_idle (hs : s.PeersOk) (ha : s.find (srcKey conn) = some a)
    (hb : s.find (dstKey conn) = some b) (hab : a ≠ b) {s₂ : Side}
    (hremove : s.removeConnection a b = some (true, s₁)) (hlinks : LinksOnly s₁ s₂)
    (hp : p = a ∨ p = b) :
    s.Leaves t (.eventCallback (.lanToLanDelConnection conn)) p ↔ s₂.Idle p := by
  have hpeers := removeConnection_peersOnly hremove
  have hone : s.counted a b = some 1 := (removeConnection_res hs hremove hab).mp rfl
  have hcounted : ∀ q, s₂.counted p q =
      if p = a ∧ q = b ∨ p = b ∧ q = a then none else s.counted p q := by
    intro q
    rw [hlinks.counted, removeConnection_counted hs hremove hab, hone]
    rfl
  constructor
  · rintro ⟨a', b', c, ha', hb', -, -, hc, hact, hsave, hlast⟩
    obtain rfl : a = a' := Option.some.inj (ha.symm.trans ha')
    obtain rfl : b = b' := Option.some.inj (hb.symm.trans hb')
    obtain ⟨c₁, hc₁, hc₁'⟩ := hpeers.exists_mem hc
    obtain ⟨c₂, hc₂, hc₂'⟩ := hlinks.exists_mem hc₁
    refine ⟨c₂, hc₂, ?_, ?_, peer_nil_of_counted hc₂ fun q => ?_⟩
    · rw [ClientInfo.isActive_of_unlinked hc₂', ClientInfo.isActive_of_unpeered hc₁', hact]
    · rw [ClientInfo.isPowersave_of_unlinked hc₂', ClientInfo.isPowersave_of_unpeered hc₁', hsave]
    · rw [hcounted, hlast]
      split
      · rfl
      · rfl
  · rintro ⟨c₂, hc₂, hact, hsave, hnil⟩
    obtain ⟨c₁, hc₁, hc₂'⟩ := hlinks.exists_mem' hc₂
    obtain ⟨c, hc, hc₁'⟩ := hpeers.exists_mem' hc₁
    refine ⟨a, b, c, ha, hb, hab, hp, hc, ?_, ?_, fun q => ?_⟩
    · rw [← ClientInfo.isActive_of_unpeered hc₁', ← ClientInfo.isActive_of_unlinked hc₂', hact]
    · rw [← ClientInfo.isPowersave_of_unpeered hc₁', ← ClientInfo.isPowersave_of_unlinked hc₂', hsave]
    · have hq := hcounted q
      rw [counted_of_nil hc₂ hnil] at hq
      split at hq
      · next hpq =>
        rw [if_pos hpq]
        obtain ⟨rfl, rfl⟩ | ⟨rfl, rfl⟩ := hpq
        · exact hone
        · rw [hs.symm, hone]
      · next hpq =>
        rw [if_neg hpq]
        exact hq.symm

theorem reap_keeps (hfind : s.find key = some p) (h : s.reap key p = some s') (hx : s'.mem x ≠ none) :
    s'.mem x = s.mem x := by
  obtain ⟨hidle, hbusy, hother⟩ := reap_mem hfind h
  by_cases hp : x = p
  · subst hp
    by_cases hi : s.Idle x
    · exact absurd (hidle hi) hx
    · exact hbusy hi
  · exact hother x hp

theorem reap_dies (hfind : s.find key = some p) (h : s.reap key p = some s') (hx : s.mem x ≠ none)
    (hx' : s'.mem x = none) : x = p ∧ s.Idle p := by
  obtain ⟨-, hbusy, hother⟩ := reap_mem hfind h
  by_cases hp : x = p
  · refine ⟨hp, ?_⟩
    subst hp
    by_contra hi
    rw [hbusy hi] at hx'
    exact hx hx'
  · rw [hother x hp] at hx'
    exact absurd hx' hx

theorem reap_twice {key' : Key} (hfind : s.find key = some p) (h : s.reap key p = some s₁)
    (h₁ : s₁.reap key' p = some s') : s' = s := by
  obtain ⟨c₁, hc₁, hend₁⟩ := reap_cases h₁
  obtain ⟨c, hc, ⟨-, rfl⟩ | ⟨hbusy, rfl⟩⟩ := reap_cases h
  · rw [mem_erase hfind, if_pos rfl] at hc₁
    cases hc₁
  · rw [hc] at hc₁
    cases hc₁
    obtain ⟨hidle, -⟩ | ⟨-, rfl⟩ := hend₁
    · exact absurd hidle hbusy
    · rfl

theorem handleDelLan2lanConnection_linkLive (hok : s.PeersOk) (hs : s.LinkLive)
    (hleaves : s.LeavesNoLink t (.eventCallback (.lanToLanDelConnection conn)) ops)
    (h : s.handleDelLan2lanConnection ops t conn w = some (s', w')) : s'.LinkLive := by
  obtain ⟨-, rfl, -⟩ | ⟨a, b, r, s₁, ha, hb, hremove, hend⟩ := handleDelLan2lanConnection_cases h
  · exact hs
  have hpeers := removeConnection_peersOnly hremove
  obtain ⟨-, rfl, -⟩ | ⟨rfl, s₂, s₃, hlinks, hsrc, hdst⟩ := hend
  · exact hs.of_sub (.of_eq hpeers.links) fun q => (hpeers.live_iff q).mpr
  have hl := eraseLinks_linksOnly hlinks
  have hsub : LinksSub s s₂ := (LinksSub.of_eq hpeers.links).trans (eraseLinks_linksSub hlinks)
  have hs₂ : s₂.LinkLive := hs.of_sub hsub fun q hq =>
    (hl.live_iff q).mpr ((hpeers.live_iff q).mpr hq)
  have ha₂ : s₂.find (srcKey conn) = some a := by rw [hl.find, hpeers.find, ha]
  have hb₂ : s₂.find (dstKey conn) = some b := by rw [hl.find, hpeers.find, hb]
  by_cases hab : a = b
  · subst hab
    rw [reap_twice ha₂ hsrc hdst]
    exact hs₂
  · have hb₃ := reap_find_of_live ha₂ hb₂ hsrc (reap_live hdst)
    have hbmem : s₃.mem b = s₂.mem b := (reap_mem ha₂ hsrc).2.2 b (Ne.symm hab)
    have hidle : s₃.Idle b ↔ s₂.Idle b := by rw [Idle, Idle, hbmem]
    intro x q hq hdead
    -- the client at `x` stays, and kept the link it had before
    have hx : s'.mem x ≠ none := live_of_links hq
    have hx₃ : s'.mem x = s₃.mem x := reap_keeps hb₃ hdst hx
    have hx₂ : s₃.mem x = s₂.mem x := reap_keeps ha₂ hsrc (hx₃ ▸ hx)
    rw [links_congr_mem (hx₃.trans hx₂)] at hq
    have hleave : ∀ y, (y = a ∨ y = b) →
        (s.Leaves t (.eventCallback (.lanToLanDelConnection conn)) y ↔ s₂.Idle y) :=
      fun y => leaves_iff_idle hok ha hb hab hremove hl
    -- the one at `q` left
    have hqleaves : s.Leaves t (.eventCallback (.lanToLanDelConnection conn)) q := by
      by_cases hq₃ : s₃.mem q = none
      · obtain ⟨rfl, hi⟩ := reap_dies ha₂ hsrc (hs₂ x q hq) hq₃
        exact (hleave q (.inl rfl)).mpr hi
      · obtain ⟨rfl, hi⟩ := reap_dies hb₃ hdst hq₃ hdead
        exact (hleave q (.inr rfl)).mpr (hidle.mp hi)
    have hxstays : ¬ s.Leaves t (.eventCallback (.lanToLanDelConnection conn)) x := by
      intro hxleaves
      obtain ⟨a', b', -, ha', hb', -, hxab, -⟩ := id hxleaves
      obtain rfl : a = a' := Option.some.inj (ha.symm.trans ha')
      obtain rfl : b = b' := Option.some.inj (hb.symm.trans hb')
      have hi : s₂.Idle x := (hleave x hxab).mp hxleaves
      rcases hxab with rfl | rfl
      · exact hx (hx₃.trans ((reap_mem ha₂ hsrc).1 hi))
      · exact hx ((reap_mem hb₃ hdst).1 (hidle.mpr hi))
    rcases hleaves q hqleaves x hxstays with hnone | ⟨hoff, -⟩
    · exact hnone (hsub x q hq)
    · exact hoff

theorem handle_linkLive {i : Input} (hwf : s.Wf) (hok : s.PeersOk) (hs : s.LinkLive)
    (hleaves : s.LeavesNoLink t i ops) (h : s.handle cfg ops t w i = some (s', w')) :
    s'.LinkLive := by
  match i with
  | .eventCallback (.lanClientActive data) =>
    obtain ⟨-, rfl, -⟩ | ⟨pIface, -, h⟩ := handle_active_cases h
    · exact hs
    · exact handleClientActive_linkLive hwf hs h
  | .eventCallback (.lanClientInactive data) => exact handleClientInactive_linkLive hs hleaves h
  | .eventCallback (.lanClientDisconnect data) => exact handleClientDisconnect_linkLive hs hleaves h
  | .eventCallback (.lanClientPowerSave data) => exact handleClientPowerSave_linkLive hs h
  | .eventCallback (.lanClientPowerRecover data) => exact handleClientPowerRecover_linkLive hs h
  | .eventCallback (.lanToLanNewConnection conn) => exact handleNewLan2lanConnection_linkLive hs h
  | .eventCallback (.lanToLanDelConnection conn) =>
    exact handleDelLan2lanConnection_linkLive hok hs hleaves h
  | .handleNewConnection conn => exact hs.of_same (handle_new_same h)
  | .handleDelConnection conn => exact hs.of_same (handle_del_same h)

end Handlers

end Side

/-! ## Runs -/

section Runs

variable {w₀ : ω} {tr : List ((Input × Ifaces ω) × Unit)} {s : LanToLan × ω}

/-- Who leaves at a step leaves no link of a client that stays. -/
def NoLinkStays (s : LanToLan × ω) (c : Input × Ifaces ω) : Prop :=
  ∀ t, c.1.iptype = some t → (s.1.side t).LeavesNoLink t c.1 c.2

theorem run_linkLive (run : Run (step cfg) NoLinkStays (LanToLan.init, w₀) tr s) (t : IpType) :
    (s.1.side t).Wf ∧ (s.1.side t).PeersOk ∧ (s.1.side t).LinkLive := by
  revert t
  refine run.invariant
    (fun _ s => ∀ t, (s.1.side t).Wf ∧ (s.1.side t).PeersOk ∧ (s.1.side t).LinkLive) ?_ ?_
  · intro t
    rw [LanToLan.side_init]
    exact ⟨.init, .init, .init⟩
  · intro _ s c s' _ hs hstays hstep
    refine step_sides (P := fun _ d => d.Wf ∧ d.PeersOk ∧ d.LinkLive) hs hstep ?_
    intro t d w htype hd
    obtain ⟨hwf, hok, hlive⟩ := hs t
    obtain ⟨hwf', hok'⟩ := Side.handle_peersOk hwf hok hd
    exact ⟨hwf', hok', Side.handle_linkLive hwf hok hlive (hstays t htype) hd⟩

/-- **No dangling pointers.** In every state of a run in which no client that stays keeps a link to one
    that leaves, whatever the interfaces answer: each peer and each link of a client is a client of the
    table. -/
theorem run_pointers_live (run : Run (step cfg) NoLinkStays (LanToLan.init, w₀) tr s) (t : IpType)
    (p : Ptr) (c : ClientInfo) (hc : (s.1.side t).mem p = some c) :
    (∀ x ∈ c.peer, x.peerPointer ∈ (s.1.side t).clientInfo.map Prod.snd) ∧
      ∀ l ∈ c.link, l.peerPointer ∈ (s.1.side t).clientInfo.map Prod.snd := by
  obtain ⟨hwf, hok, hlive⟩ := run_linkLive run t
  refine ⟨fun x hx => ?_, fun l hl => ?_⟩
  · have hlists : (s.1.side t).Lists p x.peerPointer x.numConnection := ⟨c, hc, hx⟩
    rw [hok.lists_iff] at hlists
    have hback : (s.1.side t).counted x.peerPointer p ≠ none := by
      rw [hok.symm, hlists]
      exact Option.some_ne_none _
    exact (hwf.live _).mp (Side.live_of_counted hback)
  · have hlinks : l.peerPointer ∈ (s.1.side t).links p := by
      rw [Side.links_of_mem hc]
      exact List.mem_map_of_mem hl
    exact (hwf.live _).mp (hlive p _ hlinks)

/-! ### Half a link -/

/-- The interface of the first client refuses routing rules. -/
def refusing : Ifaces Unit :=
  ⟨fun w i c =>
    match i, c with
    | 0, .addLan2lanRtRule .. => (none, w)
    | _, _ => (some ⟨0, ⟨1, [0]⟩⟩, w)⟩

/-- Two active clients have a connection. -/
def linkInputs (ops : Ifaces Unit) : List (Input × Ifaces Unit) :=
  [(.eventCallback (.lanClientActive (v4Client 0xc0a80101#32 1 0)), willing),
    (.eventCallback (.lanClientActive (v4Client 0xc0a80201#32 2 1)), willing),
    (.eventCallback (.lanToLanNewConnection (v4Connection 0xc0a80101#32 0xc0a80201#32)), ops)]

/-- The second of them disconnects. -/
def leaveInput : Input × Ifaces Unit :=
  (.eventCallback (.lanClientDisconnect (v4Client 0xc0a80201#32 2 1)), willing)

/-- Only the first half of the link is made, and the first client still has it when the second one is
    erased. -/
theorem run_pointers_dangling :
    ∃ s tr, Run (step subnetConfig) (fun _ _ => True) (LanToLan.init, ()) tr s ∧
      s.1.v4.links 0 = [1] ∧ s.1.v4.mem 1 = none := by
  have hlinks : (exec (step subnetConfig) (LanToLan.init, ())
      (linkInputs refusing ++ [leaveInput])).toOption.map
        (fun x => (x.1.1.v4.links 0, x.1.1.v4.mem 1)) = some ([1], none) := by decide +kernel
  obtain ⟨s, tr, hexec, hlinks⟩ := exec_of_map hlinks
  have hpair := hlinks
  exact ⟨s, tr, Run.of_exec hexec fun _ _ => trivial, congrArg Prod.fst hpair,
    congrArg Prod.snd hpair⟩

/-- A test that a step erases nobody. -/
def keepsClients (_ : LanToLan × ω) (c : Input × Ifaces ω) : Bool :=
  match c.1 with
  | .eventCallback (.lanClientDisconnect _) => false
  | .eventCallback (.lanClientInactive _) => false
  | .eventCallback (.lanToLanDelConnection _) => false
  | _ => true

theorem keepsClients_sound (s : LanToLan × ω) (c : Input × Ifaces ω) (h : keepsClients s c = true) :
    NoLinkStays s c := by
  intro t _ p hp
  unfold keepsClients at h
  split at h
  · cases h
  · cases h
  · cases h
  · next hdis hina hdel =>
    unfold Side.Leaves at hp
    split at hp
    · next heq => exact absurd heq (hdis _)
    · next heq => exact absurd heq (hina _)
    · next heq => exact absurd heq (hdel _)
    · exact hp.elim

/-- The whole link is made, and turned off before the second client is erased. -/
theorem run_pointers_live_example :
    ∃ s tr c, Run (step subnetConfig) NoLinkStays (LanToLan.init, ()) tr s ∧
      s.1.v4.mem 0 = some c ∧ c.link = [] ∧
        (∀ x ∈ c.peer, x.peerPointer ∈ s.1.v4.clientInfo.map Prod.snd) ∧
          ∀ l ∈ c.link, l.peerPointer ∈ s.1.v4.clientInfo.map Prod.snd := by
  have hmeet : allMeet (step subnetConfig) keepsClients (LanToLan.init, ()) (linkInputs willing) =
      true := by decide +kernel
  have hturned : (exec (step subnetConfig) (LanToLan.init, ()) (linkInputs willing)).toOption.map
      (fun x => (List.range x.1.1.v4.next).all fun p =>
        p == 1 || (x.1.1.v4.links p).count 1 ≤ (x.1.1.v4.turnedOff 1).count p) = some true := by
    decide +kernel
  have hfind : (exec (step subnetConfig) (LanToLan.init, ()) (linkInputs willing)).toOption.map
      (fun x => x.1.1.v4.find 0xc0a80201#64) = some (some 1) := by decide +kernel
  have hleft : (exec (step subnetConfig) (LanToLan.init, ()) (linkInputs willing)).toOption.bind
      (fun x => (step subnetConfig x.1 leaveInput).toOption.bind fun y =>
        (y.1.1.v4.mem 0).map ClientInfo.link) = some [] := by decide +kernel
  obtain ⟨s, tr, hexec, hfind⟩ := exec_of_map hfind
  rw [hexec] at hturned hleft
  have run := Run.of_exec_of_allMeet (fun s c _ => keepsClients_sound s c) hexec hmeet
  have hwf := (run_linkLive run .v4).1
  have hstays : NoLinkStays s leaveInput := by
    rintro t ht p hp x hx
    obtain rfl : .v4 = t := Option.some.inj ht
    obtain rfl : 1 = p := Option.some.inj (hfind.symm.trans hp)
    by_cases hlive : s.1.v4.mem x = none
    · exact .inl (by rw [LanToLan.side, Side.links_of_dead hlive]; exact List.not_mem_nil)
    · have hlt : x < s.1.v4.next := hwf.fresh x hlive
      have hx1 : x ≠ 1 := fun h => hx (h ▸ hfind)
      have hcount := List.all_eq_true.mp (Option.some.inj hturned) x (List.mem_range.mpr hlt)
      rw [Bool.or_eq_true, beq_iff_eq, decide_eq_true_eq] at hcount
      exact .inr ⟨hfind, fun _ _ _ _ => rfl, hcount.resolve_left hx1⟩
  have hlink : (step subnetConfig s leaveInput).toOption.bind
      (fun y => (y.1.1.v4.mem 0).map ClientInfo.link) = some [] := hleft
  rcases hstep : step subnetConfig s leaveInput with f | ⟨s', r⟩
  · rw [hstep] at hlink
    cases hlink
  · rw [hstep] at hlink
    obtain ⟨c, hc, hnil⟩ := Option.map_eq_some_iff.mp hlink
    have run' := run.snoc hstep hstays
    exact ⟨s', _, c, run', hc, hnil, run_pointers_live run' .v4 0 c hc⟩

end Runs

end Nx508j.Ipacm.Lan2Lan
