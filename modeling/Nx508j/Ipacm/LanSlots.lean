import Nx508j.Ipacm.LanFlt
import Nx508j.Ipacm.LanPairs

/-! # Slots and links

A link has the slot of its filter rule as long as it is listed. The handlers keep this where a link and
its slot go together; power save of a client that has links releases the slots and keeps the links. -/

namespace Nx508j.Ipacm.Lan2Lan

open Nx508j.Lib Function

variable {ω : Type} {cfg : Config} {e : LanEnv ω} {t : IpType}

/-! ## The slots of a client -/

/-- The slot of a link of a client on interface `i`. -/
def OffloadLinkInfo.slot (t : IpType) (i : Iface) (l : OffloadLinkInfo) : Slot := ⟨t, i, l.fltRuleHdl⟩

namespace Side

variable {s s' : Side} {p q a b : Ptr} {c : ClientInfo} {key : Key}

/-- The slots of the links of the client at `p`. -/
def owned (t : IpType) (s : Side) (p : Ptr) : List Slot :=
  ((s.mem p).map fun c => c.link.map (OffloadLinkInfo.slot t c.pIface)).getD []

theorem owned_of_mem (h : s.mem p = some c) :
    s.owned t p = c.link.map (OffloadLinkInfo.slot t c.pIface) := by
  rw [owned, h]
  rfl

theorem owned_congr (h : (s'.mem p).map (fun c => (c.pIface, c.link)) =
    (s.mem p).map fun c => (c.pIface, c.link)) : s'.owned t p = s.owned t p := by
  have hmap : ∀ m : Option ClientInfo,
      m.map (fun c => c.link.map (OffloadLinkInfo.slot t c.pIface)) =
        (m.map fun c => (c.pIface, c.link)).map fun y => y.2.map (OffloadLinkInfo.slot t y.1) := by
    intro m
    rw [Option.map_map]
    rfl
  rw [owned, owned, hmap, hmap, h]

theorem owned_congr_mem (h : s'.mem p = s.mem p) : s'.owned t p = s.owned t p :=
  owned_congr (by rw [h])

theorem owned_of_links (h : s.links p = []) : s.owned t p = [] := by
  cases hc : s.mem p with
  | none =>
    rw [owned, hc]
    rfl
  | some c =>
    rw [links_of_mem hc, List.map_eq_nil_iff] at h
    rw [owned_of_mem hc, h]
    rfl

theorem owned_modify (t : IpType) (s : Side) (p : Ptr) {f : ClientInfo → ClientInfo}
    (hf : ∀ c, (f c).link = c.link) (hp : (∀ c, (f c).pIface = c.pIface) ∨ s.links p = []) (q : Ptr) :
    (s.modify p f).owned t q = s.owned t q := by
  rcases hp with hp | hp
  · refine owned_congr ?_
    rw [mem_modify]
    split
    · next h =>
      rw [h, Option.map_map]
      exact congrArg (Option.map · (s.mem p)) (funext fun c => by
        show ((f c).pIface, (f c).link) = _
        rw [hf, hp])
    · rfl
  · by_cases hq : q = p
    · subst hq
      rw [owned_of_links hp, owned_of_links]
      rw [links_modify s q fun c => by rw [hf], hp]
    · exact owned_congr_mem (by rw [mem_modify, if_neg hq])

theorem owned_push {link : OffloadLinkInfo} (hc : s.mem a = some c) (q : Ptr) :
    (s.modify a fun c => { c with link := c.link ++ [link] }).owned t q =
      if q = a then s.owned t a ++ [link.slot t c.pIface] else s.owned t q := by
  split
  · next hq =>
    have hmem : (s.modify a fun c => { c with link := c.link ++ [link] }).mem q =
        some { c with link := c.link ++ [link] } := by
      rw [mem_modify, if_pos hq, hc]
      rfl
    rw [owned_of_mem hmem, owned_of_mem hc]
    exact List.map_append
  · next hq => exact owned_congr_mem (by rw [mem_modify, if_neg hq])

theorem owned_clear (s : Side) (p q : Ptr) :
    (s.modify p fun c => { c with link := [] }).owned t q = if q = p then [] else s.owned t q := by
  split
  · next hq => exact owned_of_links (by rw [links_clear, if_pos hq])
  · next hq => exact owned_congr_mem (by rw [mem_modify, if_neg hq])

theorem owned_erase (h : s.find key = some p) (q : Ptr) :
    (s.erase key).owned t q = if q = p then [] else s.owned t q := by
  split
  · next hq => exact owned_of_links (by rw [links_erase h, if_pos hq])
  · next hq => exact owned_congr_mem (by rw [mem_erase h, if_neg hq])

theorem owned_insert (hwf : s.Wf) (hc : c.link = []) (q : Ptr) :
    (s.insert key c).owned t q = s.owned t q := by
  by_cases hq : q = s.next
  · have hdead : s.mem q = none := by
      by_contra hlive
      exact Nat.ne_of_lt (hwf.fresh q hlive) hq
    rw [owned_of_links (s := s) (links_of_dead hdead), owned_of_links]
    rw [links_insert hwf hc, links_of_dead hdead]
  · exact owned_congr_mem (by rw [mem_insert, if_neg hq])

theorem owned_dropLink {link : OffloadLinkInfo} (hc : s.mem p = some c)
    (hlink : record OffloadLinkInfo.peerPointer c.link a = some link)
    (hnodup : (s.owned t p).Nodup) (q : Ptr) :
    (s.dropLink p a).owned t q =
      if q = p then (s.owned t p).erase (link.slot t c.pIface) else s.owned t q := by
  split
  · next hq =>
    have hmem : (s.dropLink p a).mem q =
        some { c with link := discard OffloadLinkInfo.peerPointer c.link a } := by
      rw [dropLink, mem_modify, if_pos hq, hc]
      rfl
    rw [owned_of_mem hc] at hnodup ⊢
    rw [owned_of_mem hmem]
    exact map_discard hlink hnodup
  · next hq => exact owned_congr_mem (by rw [dropLink, mem_modify, if_neg hq])

theorem SameClients.owned (h : s.SameClients s') (p : Ptr) : s'.owned t p = s.owned t p :=
  owned_congr_mem (by rw [h.mem])

end Side

theorem PeersOnly.owned {s s' : Side} (h : PeersOnly s s') (p : Ptr) :
    s'.owned t p = s.owned t p := by
  refine Side.owned_congr ?_
  have hp := congrArg (Option.map fun c => (c.pIface, c.link)) (h.client p)
  rw [Option.map_map, Option.map_map] at hp
  exact hp

/-! ## The slots of all clients -/

/-- The slots of the links of each client. -/
def owners (s : LanToLan) (v : IpType × Ptr) : List Slot := (s.side v.1).owned v.1 v.2

section Owners

variable {b : LanToLan} {s s' : Side} {p : Ptr} {l : List Slot}

theorem owners_setSide (b : LanToLan) (t : IpType) (s : Side) (v : IpType × Ptr) :
    owners (b.setSide t s) v = if v.1 = t then s.owned t v.2 else owners b v := by
  obtain ⟨t', q⟩ := v
  by_cases ht : t' = t
  · subst ht
    rw [if_pos rfl, owners, LanToLan.side_setSide_self]
  · rw [if_neg ht, owners, LanToLan.side_setSide_of_ne _ _ ht]
    rfl

theorem owners_congr (h : ∀ q, s'.owned t q = s.owned t q) (v : IpType × Ptr) :
    owners (b.setSide t s') v = owners (b.setSide t s) v := by
  rw [owners_setSide, owners_setSide, h]

theorem owners_update (h : ∀ q, s'.owned t q = if q = p then l else s.owned t q)
    (v : IpType × Ptr) :
    owners (b.setSide t s') v = update (owners (b.setSide t s)) (t, p) l v := by
  rw [update_apply, owners_setSide, owners_setSide, h]
  obtain ⟨t', q⟩ := v
  simp only [Prod.mk.injEq]
  split
  · next ht => simp [ht]
  · next ht => simp [ht]

theorem owners_apply (b : LanToLan) (t : IpType) (s : Side) (p : Ptr) :
    owners (b.setSide t s) (t, p) = s.owned t p := by
  rw [owners_setSide, if_pos rfl]

end Owners

/-! ## Calls and links -/

section Stages

variable {b : LanToLan} {s s' : Side} {w w' w₁ : FltWorld ω} {p q src dst : Ptr} {r : Bool}
  {V : Type} {own : V → List Slot}

/-- The call is about a filter rule. -/
def IfaceCall.isFlt : IfaceCall → Bool
  | .addLan2lanFltRule .. => true
  | .delLan2lanFltRule .. => true
  | _ => false

theorem lanIfaces_rest {c : IfaceCall} (hc : c.isFlt = false) (w : FltWorld ω) (i : Iface) :
    (lanIfaces e).call w i c =
      ((e.rest.call w.env i c).1, { w with env := (e.rest.call w.env i c).2 }) := by
  cases c <;> first | rfl | cases hc

theorem lanIfaces_rest_good {c : IfaceCall} (hc : c.isFlt = false) (hw : w.Good own) (i : Iface) :
    ((lanIfaces e).call w i c).2.Good own := by
  rw [lanIfaces_rest hc]
  exact hw.env _

variable [DecidableEq V]

theorem installLink_good {c d : ClientInfo} {link : Option OffloadLinkInfo} (hw : w.Good own)
    (h : installLink (lanIfaces e) t c d q w = (link, w')) :
    (link = none ∧ w'.Good own) ∨
      ∃ l, link = some l ∧
        ∀ v, w'.Good (update own v (own v ++ [l.slot t c.pIface])) := by
  unfold installLink at h
  have hhdr := lanIfaces_rest_good (e := e) (c := .addLan2lanHdr t c.macAddr d.macAddr) rfl hw d.pIface
  split at h
  · next w₁ hcall =>
    cases h
    rw [hcall] at hhdr
    exact .inl ⟨rfl, hhdr⟩
  · next hdr w₁ hcall =>
    rw [hcall] at hhdr
    have hrt := lanIfaces_rest_good (e := e) (c := .addLan2lanRtRule t c.ip d.ip hdr.hdl) rfl hhdr
      d.pIface
    split at h
    · next w₂ hcall₂ =>
      cases h
      rw [hcall₂] at hrt
      exact .inl ⟨rfl, hrt.env _⟩
    · next rt w₂ hcall₂ =>
      rw [hcall₂] at hrt
      split at h
      · next w₃ hflt =>
        cases h
        obtain ⟨-, hgood⟩ | ⟨x, hx, -⟩ := addLan2lanFltRule_good hrt hflt
        · exact .inl ⟨rfl, (hgood.env _).env _⟩
        · cases hx
      · next flt w₃ hflt =>
        cases h
        obtain ⟨hx, -⟩ | ⟨x, hx, hgood⟩ := addLan2lanFltRule_good hrt hflt
        · cases hx
        · cases hx
          exact .inr ⟨_, rfl, hgood⟩

theorem addOffloadLink_good (hw : w.Good (owners (b.setSide t s)))
    (h : addOffloadLink (lanIfaces e) t src dst s w = some (r, s', w')) :
    w'.Good (owners (b.setSide t s')) := by
  obtain ⟨-, -, rfl, rfl⟩ | ⟨c, d, hc, hd, -, ⟨hi, -, rfl⟩ | ⟨link, hi, -, rfl⟩⟩ :=
    addOffloadLink_cases h
  · exact hw
  · obtain ⟨-, hgood⟩ | ⟨l, hl, -⟩ := installLink_good hw hi
    · exact hgood
    · cases hl
  · obtain ⟨hl, -⟩ | ⟨l, hl, hgood⟩ := installLink_good hw hi
    · cases hl
    · cases hl
      refine (hgood (t, src)).congr ?_
      rw [owners_apply]
      exact owners_update (Side.owned_push hc)

theorem delOffloadLink_good {i j : Iface} {link : OffloadLinkInfo} {v : V} (hflt : e.FltSucceeds)
    (hw : w.Good own) (hv : link.slot t i ∈ own v)
    (h : delOffloadLink (lanIfaces e) t i j link w = (r, w')) :
    (e.rest.Deletes → r = true) ∧ w'.Good (update own v ((own v).erase (link.slot t i))) := by
  unfold delOffloadLink at h
  rcases hcall : (lanIfaces e).call w i (.delLan2lanFltRule t link.fltRuleHdl) with ⟨x, w₁⟩
  obtain ⟨hx, hgood⟩ := delLan2lanFltRule_good hflt hw hv hcall
  rw [hcall] at h
  cases h
  refine ⟨fun hdel => ?_, (hgood.env _).env _⟩
  have hrt := hdel w₁.env j (.delLan2lanRtRule t link.rtRuleHdl) rfl
  have hhdr := hdel (e.rest.call w₁.env j (.delLan2lanRtRule t link.rtRuleHdl)).2 j
    (.delLan2lanHdr t link.hdrHdl) rfl
  rw [Bool.and_eq_true, Bool.and_eq_true]
  exact ⟨⟨hx, hrt⟩, hhdr⟩

theorem dropLink_good {i j : Iface} {d : ClientInfo} {link : OffloadLinkInfo} {l : List Slot}
    (hflt : e.FltSucceeds) (hqp : q ≠ p) (hd : s.mem q = some d)
    (hrec : record OffloadLinkInfo.peerPointer d.link p = some link)
    (hw : w.Good (update (owners (b.setSide t s)) (t, p) l))
    (hi : i = d.pIface) (h : delOffloadLink (lanIfaces e) t i j link w = (r, w')) :
    (e.rest.Deletes → r = true) ∧
      w'.Good (update (owners (b.setSide t (s.dropLink q p))) (t, p) l) := by
  subst hi
  have hne : ((t, q) : IpType × Ptr) ≠ (t, p) := fun heq => hqp (congrArg Prod.snd heq)
  have hown : update (owners (b.setSide t s)) (t, p) l (t, q) = s.owned t q := by
    rw [update_of_ne hne, owners_apply]
  have hnodup : (s.owned t q).Nodup := hown ▸ hw.leased.nodup (t, q)
  have hv : link.slot t d.pIface ∈ s.owned t q := by
    rw [Side.owned_of_mem hd]
    exact List.mem_map_of_mem (mem_of_record hrec)
  obtain ⟨hr, hgood⟩ := delOffloadLink_good (v := (t, q)) hflt hw (hown ▸ hv) h
  refine ⟨hr, hgood.congr fun v => ?_⟩
  have hdrop := owners_update (b := b) (Side.owned_dropLink (t := t) hd hrec hnodup)
  rw [hown, funext hdrop, update_comm hne]

/-- The loop of `turnoff_offload_links`: the client has released the slots of the links the loop is
    past, though they are listed until it ends. -/
theorem turnoffFrom_good {i : Iface} {links : List OffloadLinkInfo} (hflt : e.FltSucceeds)
    (hdel : links ≠ [] → e.rest.Deletes)
    (hself : p ∉ links.map OffloadLinkInfo.peerPointer)
    (hback : ∀ x, (links.map OffloadLinkInfo.peerPointer).count x ≤ (s.links x).count p)
    (hw : w.Good (update (owners (b.setSide t s)) (t, p)
      (links.map (OffloadLinkInfo.slot t i))))
    (h : turnoffFrom (lanIfaces e) t p i links s w = some (r, s', w')) :
    r = true ∧ w'.Good (update (owners (b.setSide t s')) (t, p) []) := by
  induction links generalizing s w with
  | nil =>
    cases h
    exact ⟨rfl, hw⟩
  | cons link links ih =>
    have hdel := hdel (List.cons_ne_nil link links)
    rw [List.map_cons, List.mem_cons, not_or] at hself
    have hqp : link.peerPointer ≠ p := Ne.symm hself.1
    obtain ⟨d, hd, hcase⟩ := turnoffFrom_cons h
    have hfirst : ∀ {r₁ w₁}, delOffloadLink (lanIfaces e) t i d.pIface link w = (r₁, w₁) →
        r₁ = true ∧ w₁.Good (update (owners (b.setSide t s)) (t, p)
          (links.map (OffloadLinkInfo.slot t i))) := by
      intro r₁ w₁ h₁
      obtain ⟨hr, hgood⟩ := delOffloadLink_good (v := (t, p)) hflt hw (by simp) h₁
      rw [update_self, List.map_cons, List.erase_cons_head, update_idem] at hgood
      exact ⟨hr hdel, hgood⟩
    obtain ⟨-, -, hfail | ⟨hnone, -⟩ | ⟨back, w₁, hrec, h₁, hfail⟩⟩ |
      ⟨back, w₁, w₂, hrec, h₁, h₂, -, hrest⟩ := hcase
    · exact absurd (hfirst hfail).1 Bool.false_ne_true
    · have hcount := hback link.peerPointer
      rw [List.map_cons, List.count_cons_self, List.count_eq_zero_of_not_mem
        ((Side.record_link_eq_none hd).mp hnone)] at hcount
      exact absurd hcount (Nat.not_succ_le_zero _)
    · obtain ⟨-, hw₁⟩ := hfirst h₁
      obtain ⟨hr, -⟩ := dropLink_good hflt hqp hd hrec hw₁ rfl hfail
      exact absurd (hr hdel) Bool.false_ne_true
    · obtain ⟨-, hw₁⟩ := hfirst h₁
      obtain ⟨-, hw₂⟩ := dropLink_good hflt hqp hd hrec hw₁ rfl h₂
      have hpairs : owners (b.setSide t { s.dropLink link.peerPointer p with
          numOffloadPair := s.numOffloadPair - 1 }) =
            owners (b.setSide t (s.dropLink link.peerPointer p)) :=
        funext (owners_congr fun _ => rfl)
      rw [← hpairs] at hw₂
      refine ih (fun _ => hdel) hself.2 (fun x => ?_) hw₂ hrest
      have hx := hback x
      rw [Side.links_pairs, Side.links_dropLink]
      rw [List.map_cons, List.count_cons] at hx
      split
      · next heq =>
        subst heq
        rw [List.count_erase_self]
        simp only [beq_self_eq_true, if_true] at hx
        omega
      · next hne =>
        have hbeq : (link.peerPointer == x) = false := beq_false_of_ne (Ne.symm hne)
        simpa [hbeq] using hx

/-- What it takes to turn off the links of a client: none of them is to itself, each is listed back,
    and no routing rule or header is refused to be deleted. -/
def Side.MayTurnOff (rest : Ifaces ω) (s : Side) (p : Ptr) : Prop :=
  s.links p ≠ [] →
    rest.Deletes ∧ p ∉ s.links p ∧ ∀ x, (s.links p).count x ≤ (s.links x).count p

theorem turnoffOffloadLinks_good (hflt : e.FltSucceeds) (hoff : s.MayTurnOff e.rest p)
    (hw : w.Good (owners (b.setSide t s)))
    (h : turnoffOffloadLinks (lanIfaces e) t p s w = some (r, s', w')) :
    s'.links p = [] ∧ w'.Good (owners (b.setSide t s')) := by
  obtain ⟨c, s₁, hc, hloop, hend⟩ := turnoffOffloadLinks_cases h
  have hlinks := Side.links_of_mem hc
  have hne : c.link ≠ [] → s.links p ≠ [] := by
    intro hne hnil
    exact hne (List.map_eq_nil_iff.mp (hlinks ▸ hnil))
  have hself : p ∉ c.link.map OffloadLinkInfo.peerPointer := by
    rw [← hlinks]
    intro hmem
    exact (hoff (List.ne_nil_of_mem hmem)).2.1 hmem
  have hback : ∀ x, (c.link.map OffloadLinkInfo.peerPointer).count x ≤ (s.links x).count p := by
    intro x
    rw [← hlinks]
    by_cases hnil : s.links p = []
    · rw [hnil]
      exact Nat.zero_le _
    · exact (hoff hnil).2.2 x
  have hstart : w.Good (update (owners (b.setSide t s)) (t, p)
      (c.link.map (OffloadLinkInfo.slot t c.pIface))) := by
    refine hw.congr fun v => ?_
    rw [← Side.owned_of_mem hc, ← owners_apply b t s p, update_eq_self]
  obtain ⟨rfl, hgood⟩ := turnoffFrom_good hflt (fun h => (hoff (hne h)).1) hself hback hstart hloop
  obtain ⟨hr, -⟩ | ⟨-, rfl⟩ := hend
  · cases hr
  · exact ⟨by rw [Side.links_clear, if_pos rfl],
      hgood.congr (owners_update (Side.owned_clear s₁ p))⟩

theorem checkPotentialFrom_good {peers : List PeerInfo} (hw : w.Good (owners (b.setSide t s)))
    (h : checkPotentialFrom (lanIfaces e) t p peers s w = some (s', w')) :
    w'.Good (owners (b.setSide t s')) := by
  induction peers generalizing s w with
  | nil =>
    cases h
    exact hw
  | cons x peers ih =>
    obtain ⟨d, -, ⟨-, hrest⟩ | ⟨-, r₁, s₁, w₁, r₂, s₂, w₂, h₁, h₂, hrest⟩⟩ :=
      checkPotentialFrom_cons h
    · exact ih hw hrest
    · have hw₂ := addOffloadLink_good (addOffloadLink_good hw h₁) h₂
      refine ih ?_ hrest
      split
      · exact hw₂.congr (owners_congr fun _ => rfl)
      · exact hw₂

theorem eraseLink_good (hflt : e.FltSucceeds) (hw : w.Good (owners (b.setSide t s)))
    (h : eraseLink (lanIfaces e) t src dst s w = some (r, s', w')) :
    w'.Good (owners (b.setSide t s')) := by
  obtain ⟨c, hc, ⟨-, -, rfl, rfl⟩ | ⟨link, d, hrec, hd, hdel, rfl⟩⟩ := eraseLink_cases h
  · exact hw
  · have hnodup : (s.owned t src).Nodup := owners_apply b t s src ▸ hw.leased.nodup (t, src)
    have hv : link.slot t c.pIface ∈ owners (b.setSide t s) (t, src) := by
      rw [owners_apply, Side.owned_of_mem hc]
      exact List.mem_map_of_mem (mem_of_record hrec)
    obtain ⟨-, hgood⟩ := delOffloadLink_good hflt hw hv hdel
    rw [owners_apply] at hgood
    exact hgood.congr (owners_update (Side.owned_dropLink hc hrec hnodup))

theorem eraseOffloadLink_good (hflt : e.FltSucceeds) (hw : w.Good (owners (b.setSide t s)))
    (h : eraseOffloadLink (lanIfaces e) t src dst s w = some (s', w')) :
    w'.Good (owners (b.setSide t s')) := by
  obtain ⟨r₁, s₁, w₁, r₂, s₂, h₁, h₂, rfl⟩ := eraseOffloadLink_cases h
  have hw₂ := eraseLink_good hflt (eraseLink_good hflt hw h₁) h₂
  split
  · exact hw₂.congr (owners_congr fun _ => rfl)
  · exact hw₂

theorem eraseLinks_good (hflt : e.FltSucceeds) (hw : w.Good (owners (b.setSide t s)))
    (h : s.eraseLinks (lanIfaces e) t src dst w = some (s', w')) :
    w'.Good (owners (b.setSide t s')) := by
  obtain ⟨c, d, -, -, ⟨-, h⟩ | ⟨-, s₁, w₁, h₁, h₂⟩⟩ := Side.eraseLinks_cases h
  · exact eraseOffloadLink_good hflt hw h
  have hw₁ : w₁.Good (owners (b.setSide t s₁)) := by
    split at h₁
    · exact eraseOffloadLink_good hflt hw h₁
    · cases h₁
      exact hw
  split at h₂
  · exact eraseOffloadLink_good hflt hw₁ h₂
  · cases h₂
    exact hw₁

end Stages

/-! ## Clients that rest -/

namespace Side

variable {s s' : Side} {p q a b : Ptr} {c : ClientInfo} {key : Key} {r : Bool}
  {ops : Ifaces ω} {w w' : ω}

/-- A client that is not active has no links. -/
def Resting (s : Side) : Prop := ∀ p save, s.flags p = some (false, save) → s.links p = []

theorem Resting.init : init.Resting := fun _ _ _ => rfl

theorem Resting.of_sub (hs : s.Resting) (hsub : LinksSub s s')
    (hflags : ∀ p, s'.flags p = s.flags p) : s'.Resting := by
  intro p save hp
  have hnil := hs p save ((hflags p).symm.trans hp)
  refine List.eq_nil_iff_forall_not_mem.mpr fun q hq => ?_
  have hmem := hsub p q hq
  rw [hnil] at hmem
  cases hmem

theorem Resting.of_same (hs : s.Resting) (h : s.SameClients s') : s'.Resting :=
  hs.of_sub (.of_eq h.links) h.flags

theorem Resting.of_peersOnly (hs : s.Resting) (h : PeersOnly s s') : s'.Resting :=
  hs.of_sub (.of_eq h.links) h.flags

theorem Resting.insert (hs : s.Resting) (hwf : s.Wf) (hlink : c.link = [])
    (hact : c.isActive = true) : (s.insert key c).Resting := by
  intro p save hp
  rw [links_insert hwf hlink]
  rw [flags, mem_insert] at hp
  split at hp
  · simp [hact] at hp
  · exact hs p save hp

theorem Resting.modify (hs : s.Resting) (p : Ptr) {f : ClientInfo → ClientInfo}
    (hlink : ∀ c, (f c).link = c.link) (hp : s.links p = [] ∨ ∀ c, (f c).isActive = true) :
    (s.modify p f).Resting := by
  intro q save hq
  rw [links_modify s p fun c => by rw [hlink]]
  rw [flags, mem_modify] at hq
  split at hq
  · next heq =>
    subst heq
    rcases hp with hp | hp
    · exact hp
    · obtain ⟨c', hc', hflags⟩ := Option.map_eq_some_iff.mp hq
      obtain ⟨c, -, rfl⟩ := Option.map_eq_some_iff.mp hc'
      rw [hp] at hflags
      cases hflags
  · exact hs q save hq

theorem Resting.erase (hs : s.Resting) (hfind : s.find key = some p) : (s.erase key).Resting := by
  intro q save hq
  rw [flags, mem_erase hfind] at hq
  rw [links_erase hfind]
  split at hq
  · cases hq
  · next hne =>
    rw [if_neg hne]
    exact hs q save hq

theorem Resting.addOffloadLink (hs : s.Resting) (ha : ∀ save, s.flags a ≠ some (false, save))
    (h : addOffloadLink ops t a b s w = some (r, s', w')) : s'.Resting := by
  have hl := addOffloadLink_linksOnly h
  obtain ⟨-, -, rfl, -⟩ | ⟨c, d, hc, -, -, ⟨-, -, rfl⟩ | ⟨link, -, -, rfl⟩⟩ := addOffloadLink_cases h
  · exact hs
  · exact hs
  · intro q save hq
    have hflags := (hl.flags q).symm.trans hq
    have hqa : q ≠ a := fun heq => ha save (heq ▸ hflags)
    rw [links_push hc, if_neg hqa]
    exact hs q save hflags

theorem Resting.checkPotentialFrom {peers : List PeerInfo} (hs : s.Resting)
    (hp : ∀ save, s.flags p ≠ some (false, save))
    (h : checkPotentialFrom ops t p peers s w = some (s', w')) : s'.Resting := by
  induction peers generalizing s w with
  | nil =>
    cases h
    exact hs
  | cons x peers ih =>
    obtain ⟨d, hd, ⟨-, hrest⟩ | ⟨⟨hact, -⟩, r₁, s₁, w₁, r₂, s₂, w₂, h₁, h₂, hrest⟩⟩ :=
      checkPotentialFrom_cons h
    · exact ih hs hp hrest
    · have hl₁ := addOffloadLink_linksOnly h₁
      have hl₂ := addOffloadLink_linksOnly h₂
      have hx : ∀ save, s₁.flags x.peerPointer ≠ some (false, save) := by
        intro save
        rw [hl₁.flags, flags_of_mem hd, hact]
        simp
      have hs₂ := (hs.addOffloadLink hp h₁).addOffloadLink hx h₂
      have hp₂ : ∀ save, s₂.flags p ≠ some (false, save) := by
        intro save
        rw [hl₂.flags, hl₁.flags]
        exact hp save
      cases r₂ with
      | false => exact ih hs₂ hp₂ hrest
      | true => exact ih (s := { s₂ with numOffloadPair := s₂.numOffloadPair + 1 }) hs₂ hp₂ hrest

theorem removeFltRules_nil (hnil : s.links p = [])
    (h : removeFltRules ops t p s w = some (r, w')) : w' = w := by
  simp only [removeFltRules, Option.bind_eq_bind, Option.bind_eq_some_iff] at h
  obtain ⟨c, hc, h⟩ := h
  rw [links_of_mem hc, List.map_eq_nil_iff] at hnil
  rw [hnil] at h
  cases h
  rfl

theorem addFltRules_nil (hnil : s.links p = [])
    (h : addFltRules ops t p s w = some (r, s', w')) : s' = s ∧ w' = w := by
  obtain ⟨c, hc, h⟩ := addFltRules_cases h
  rw [links_of_mem hc, List.map_eq_nil_iff] at hnil
  rw [hnil] at h
  cases h
  exact ⟨rfl, rfl⟩

/-! ## What an input may do -/

/-- What an input must not do for a link and its slot to go together: turn off links it cannot turn off
    all, or put a client into power save that has links. -/
def KeepsSlots (rest : Ifaces ω) (t : IpType) (s : Side) : Input → Prop
  | .eventCallback (.lanClientActive data) =>
    ∀ p c, s.find (data.key t) = some p → s.mem p = some c → c.isActive = true →
      c.macAddr ≠ data.macAddr → s.MayTurnOff rest p
  | .eventCallback (.lanClientInactive data) =>
    ∀ p, s.find (data.key t) = some p → s.MayTurnOff rest p
  | .eventCallback (.lanClientDisconnect data) =>
    ∀ p, s.find (data.key t) = some p → s.MayTurnOff rest p
  | .eventCallback (.lanClientPowerSave data) =>
    ∀ p, s.find (data.key t) = some p → s.links p = []
  | _ => True

end Side

section Handlers

variable {b : LanToLan} {s s' : Side} {w w' : FltWorld ω} {data : LanClientData}
  {conn : ConnectionData} {pIface : Iface} {p : Ptr} {key : Key}

theorem erase_good (hnil : s.links p = []) (hfind : s.find key = some p)
    (hw : w.Good (owners (b.setSide t s))) : w.Good (owners (b.setSide t (s.erase key))) := by
  refine hw.congr (owners_congr fun q => ?_)
  rw [Side.owned_erase hfind]
  split
  · next hq => rw [hq, Side.owned_of_links hnil]
  · rfl

theorem reap_good (hs : s.Resting) (hfind : s.find key = some p)
    (hw : w.Good (owners (b.setSide t s))) (h : s.reap key p = some s') :
    s'.Resting ∧ w.Good (owners (b.setSide t s')) := by
  obtain ⟨c, hc, ⟨⟨hact, -, -⟩, rfl⟩ | ⟨-, rfl⟩⟩ := Side.reap_cases h
  · have hnil := hs p c.isPowersave (by rw [Side.flags_of_mem hc, hact])
    exact ⟨hs.erase hfind, erase_good hnil hfind hw⟩
  · exact ⟨hs, hw⟩

theorem handleClientActive_good (hflt : e.FltSucceeds) (hwf : s.Wf) (hs : s.Resting)
    (hw : w.Good (owners (b.setSide t s)))
    (hkeep : s.KeepsSlots e.rest t (.eventCallback (.lanClientActive data)))
    (h : s.handleClientActive cfg (lanIfaces e) t data pIface w = some (s', w')) :
    s'.Resting ∧ w'.Good (owners (b.setSide t s')) := by
  have hlink : ∀ c, (data.fill t pIface c).link = c.link := fun _ => rfl
  obtain ⟨-, rfl, hannounce⟩ | ⟨p, c, hfind, hc, hcase⟩ := Side.handleClientActive_cases h
  · have hsame := Side.announce_same hannounce
    refine ⟨(hs.insert hwf rfl rfl).of_same hsame, hw.congr (owners_congr fun q => ?_)⟩
    rw [hsame.owned, Side.owned_insert hwf rfl]
  · obtain ⟨-, -, rfl, rfl⟩ | ⟨hact, hmac, r, s₁, r', s₂, hturn, hclear, hannounce⟩ |
      ⟨hact, s₁, hcheck, hannounce⟩ := hcase
    · exact ⟨hs, hw⟩
    · have hsame := Side.announce_same hannounce
      have hl := turnoffOffloadLinks_linksOnly hturn
      have hpeers := Side.clearPeerList_peersOnly hclear
      obtain ⟨hnil, hgood⟩ := turnoffOffloadLinks_good hflt (hkeep p c hfind hc hact hmac) hw hturn
      have hnil₂ : s₂.links p = [] := (hpeers.links p).trans hnil
      have hs₁ := hs.of_sub (turnoffOffloadLinks_linksSub hturn) hl.flags
      refine ⟨((hs₁.of_peersOnly hpeers).modify p hlink (.inl hnil₂)).of_same hsame,
        hgood.congr (owners_congr fun q => ?_)⟩
      rw [hsame.owned, Side.owned_modify t s₂ p hlink (.inr hnil₂), hpeers.owned]
    · have hsame := Side.announce_same hannounce
      have hnil := hs p c.isPowersave (by rw [Side.flags_of_mem hc, hact])
      have hs₀ := hs.modify p hlink (.inl hnil)
      have hw₀ : w.Good (owners (b.setSide t (s.modify p (data.fill t pIface)))) :=
        hw.congr (owners_congr (Side.owned_modify t s p hlink (.inr hnil)))
      have hp : ∀ save, (s.modify p (data.fill t pIface)).flags p ≠ some (false, save) := by
        intro save
        rw [Side.flags_modify s p (f := data.fill t pIface) (fun _ => rfl), if_pos rfl, hc]
        simp
      obtain ⟨c₀, -, hloop⟩ := checkPotentialLink_cases hcheck
      exact ⟨(hs₀.checkPotentialFrom hp hloop).of_same hsame,
        (checkPotentialFrom_good hw₀ hloop).congr (owners_congr hsame.owned)⟩

theorem handleClientInactive_good (hflt : e.FltSucceeds) (hs : s.Resting)
    (hw : w.Good (owners (b.setSide t s)))
    (hkeep : s.KeepsSlots e.rest t (.eventCallback (.lanClientInactive data)))
    (h : s.handleClientInactive (lanIfaces e) t data w = some (s', w')) :
    s'.Resting ∧ w'.Good (owners (b.setSide t s')) := by
  have hlink : ∀ c : ClientInfo, { c with isActive := false }.link = c.link := fun _ => rfl
  obtain ⟨-, rfl, rfl⟩ | ⟨p, r, s₁, c, hfind, hturn, -, hend⟩ := Side.handleClientInactive_cases h
  · exact ⟨hs, hw⟩
  have hl := turnoffOffloadLinks_linksOnly hturn
  obtain ⟨hnil, hgood⟩ := turnoffOffloadLinks_good hflt (hkeep p hfind) hw hturn
  have hs₁ := hs.of_sub (turnoffOffloadLinks_linksSub hturn) hl.flags
  have hs₂ := hs₁.modify p hlink (.inl hnil)
  have hw₂ := hgood.congr (owners_congr (b := b)
    (Side.owned_modify t s₁ p hlink (.inl fun _ => rfl)))
  have hnil₂ : (s₁.modify p fun c => { c with isActive := false }).links p = [] := by
    rw [Side.links_modify s₁ p (f := fun c => { c with isActive := false }) fun _ => rfl, hnil]
  have hfind₂ : (s₁.modify p fun c => { c with isActive := false }).find (data.key t) = some p :=
    (hl.find _).trans hfind
  obtain ⟨-, rfl⟩ | ⟨-, rfl⟩ := hend
  · exact ⟨hs₂.erase hfind₂, erase_good hnil₂ hfind₂ hw₂⟩
  · exact ⟨hs₂, hw₂⟩

theorem handleClientDisconnect_good (hflt : e.FltSucceeds) (hs : s.Resting)
    (hw : w.Good (owners (b.setSide t s)))
    (hkeep : s.KeepsSlots e.rest t (.eventCallback (.lanClientDisconnect data)))
    (h : s.handleClientDisconnect (lanIfaces e) t data w = some (s', w')) :
    s'.Resting ∧ w'.Good (owners (b.setSide t s')) := by
  obtain ⟨-, rfl, rfl⟩ | ⟨p, r, s₁, r', s₂, hfind, hturn, hclear, rfl⟩ :=
    Side.handleClientDisconnect_cases h
  · exact ⟨hs, hw⟩
  · have hl := turnoffOffloadLinks_linksOnly hturn
    have hpeers := Side.clearPeerList_peersOnly hclear
    obtain ⟨hnil, hgood⟩ := turnoffOffloadLinks_good hflt (hkeep p hfind) hw hturn
    have hs₁ := hs.of_sub (turnoffOffloadLinks_linksSub hturn) hl.flags
    have hfind₂ : s₂.find (data.key t) = some p := by rw [hpeers.find, hl.find, hfind]
    exact ⟨(hs₁.of_peersOnly hpeers).erase hfind₂,
      erase_good ((hpeers.links p).trans hnil) hfind₂ (hgood.congr (owners_congr hpeers.owned))⟩

theorem handleClientPowerSave_good (hs : s.Resting) (hw : w.Good (owners (b.setSide t s)))
    (hkeep : s.KeepsSlots e.rest t (.eventCallback (.lanClientPowerSave data)))
    (h : s.handleClientPowerSave (lanIfaces e) t data w = some (s', w')) :
    s'.Resting ∧ w'.Good (owners (b.setSide t s')) := by
  have hlink : ∀ c : ClientInfo, { c with isActive := false, isPowersave := true }.link = c.link :=
    fun _ => rfl
  obtain ⟨-, rfl, rfl⟩ | ⟨p, r, hfind, hremove, hend⟩ := Side.handleClientPowerSave_cases h
  · exact ⟨hs, hw⟩
  · have hnil := hkeep p hfind
    obtain rfl := Side.removeFltRules_nil hnil hremove
    obtain ⟨-, rfl⟩ | ⟨-, rfl⟩ := hend
    · exact ⟨hs, hw⟩
    · exact ⟨hs.modify p hlink (.inl hnil),
        hw.congr (owners_congr (Side.owned_modify t s p hlink (.inr hnil)))⟩

theorem handleClientPowerRecover_good (hs : s.Resting) (hw : w.Good (owners (b.setSide t s)))
    (h : s.handleClientPowerRecover cfg (lanIfaces e) t data w = some (s', w')) :
    s'.Resting ∧ w'.Good (owners (b.setSide t s')) := by
  have hlink : ∀ c : ClientInfo, { c with isActive := true, isPowersave := false }.link = c.link :=
    fun _ => rfl
  obtain ⟨rfl, rfl⟩ | ⟨p, c, r, s₁, w₁, hfind, hc, hact, hsave, hadd, hend⟩ :=
    Side.handleClientPowerRecover_cases h
  · exact ⟨hs, hw⟩
  · have hnil := hs p c.isPowersave (by rw [Side.flags_of_mem hc, hact])
    obtain ⟨rfl, rfl⟩ := Side.addFltRules_nil hnil hadd
    obtain ⟨-, rfl, rfl⟩ | ⟨-, s₂, hcheck, hgen⟩ := hend
    · exact ⟨hs, hw⟩
    have hsame := Side.generateNewConnection_same hgen
    have hs₀ := hs.modify p hlink (.inl hnil)
    have hw₀ := hw.congr (owners_congr (b := b) (Side.owned_modify t s₁ p hlink (.inr hnil)))
    have hp : ∀ save, (s₁.modify p fun c =>
        { c with isActive := true, isPowersave := false }).flags p ≠ some (false, save) := by
      intro save
      rw [Side.flags_modify s₁ p
        (f := fun c => { c with isActive := true, isPowersave := false }) (fun _ => rfl),
        if_pos rfl, hc]
      simp
    obtain ⟨c₀, -, hloop⟩ := checkPotentialLink_cases hcheck
    exact ⟨(hs₀.checkPotentialFrom hp hloop).of_same hsame,
      (checkPotentialFrom_good hw₀ hloop).congr (owners_congr hsame.owned)⟩

theorem handleNewLan2lanConnection_good (hs : s.Resting) (hw : w.Good (owners (b.setSide t s)))
    (h : s.handleNewLan2lanConnection (lanIfaces e) t conn w = some (s', w')) :
    s'.Resting ∧ w'.Good (owners (b.setSide t s')) := by
  obtain ⟨-, rfl, rfl⟩ | ⟨x, y, r, s₁, c, d, -, -, hadd, hc, hd, hend⟩ :=
    Side.handleNewLan2lanConnection_cases h
  · exact ⟨hs, hw⟩
  · have hpeers := Side.addConnection_peersOnly hadd
    have hs₁ := hs.of_peersOnly hpeers
    have hw₁ : w.Good (owners (b.setSide t s₁)) := hw.congr (owners_congr hpeers.owned)
    obtain ⟨-, rfl, rfl⟩ | ⟨⟨-, hca, hda⟩, hlinks⟩ := hend
    · exact ⟨hs₁, hw₁⟩
    have hx : ∀ save, s₁.flags x ≠ some (false, save) := by
      intro save
      rw [Side.flags_of_mem hc, hca]
      simp
    obtain h₁ | ⟨s₂, w₂, h₁, hlinks⟩ := hlinks
    · exact ⟨hs₁.addOffloadLink hx h₁, addOffloadLink_good hw₁ h₁⟩
    have hy : ∀ save, s₂.flags y ≠ some (false, save) := by
      intro save
      rw [(addOffloadLink_linksOnly h₁).flags, Side.flags_of_mem hd, hda]
      simp
    have hs₂ := hs₁.addOffloadLink hx h₁
    have hw₂ := addOffloadLink_good hw₁ h₁
    obtain h₂ | ⟨s₃, h₂, rfl⟩ := hlinks
    · exact ⟨hs₂.addOffloadLink hy h₂, addOffloadLink_good hw₂ h₂⟩
    · have hs₃ := hs₂.addOffloadLink hy h₂
      exact ⟨hs₃, (addOffloadLink_good hw₂ h₂).congr (owners_congr fun _ => rfl)⟩

theorem handleDelLan2lanConnection_good (hflt : e.FltSucceeds) (hs : s.Resting)
    (hw : w.Good (owners (b.setSide t s)))
    (h : s.handleDelLan2lanConnection (lanIfaces e) t conn w = some (s', w')) :
    s'.Resting ∧ w'.Good (owners (b.setSide t s')) := by
  obtain ⟨-, rfl, rfl⟩ | ⟨x, y, r, s₁, hx, hy, hremove, hend⟩ :=
    Side.handleDelLan2lanConnection_cases h
  · exact ⟨hs, hw⟩
  · have hpeers := Side.removeConnection_peersOnly hremove
    have hs₁ := hs.of_peersOnly hpeers
    have hw₁ : w.Good (owners (b.setSide t s₁)) := hw.congr (owners_congr hpeers.owned)
    obtain ⟨-, rfl, rfl⟩ | ⟨-, s₂, s₃, hlinks, hsrc, hdst⟩ := hend
    · exact ⟨hs₁, hw₁⟩
    · have hl := Side.eraseLinks_linksOnly hlinks
      have hx₂ : s₂.find (Side.srcKey conn) = some x := by rw [hl.find, hpeers.find, hx]
      have hy₂ : s₂.find (Side.dstKey conn) = some y := by rw [hl.find, hpeers.find, hy]
      have hs₂ := hs₁.of_sub (eraseLinks_linksSub hlinks) hl.flags
      obtain ⟨hs₃, hw₃⟩ := reap_good hs₂ hx₂ (eraseLinks_good hflt hw₁ hlinks) hsrc
      exact reap_good hs₃ (Side.reap_find_of_live hx₂ hy₂ hsrc (Side.reap_live hdst)) hw₃ hdst

theorem handle_new_env {conn : Option ConnectionData}
    (h : s.handle cfg (lanIfaces e) t w (.handleNewConnection conn) = some (s', w')) : w' = w := by
  simp only [Side.handle, Option.bind_eq_bind, Option.bind_eq_some_iff] at h
  obtain ⟨s₁, -, h⟩ := h
  cases h
  rfl

theorem handle_del_env {conn : Option ConnectionData}
    (h : s.handle cfg (lanIfaces e) t w (.handleDelConnection conn) = some (s', w')) : w' = w := by
  simp only [Side.handle, Option.bind_eq_bind, Option.bind_eq_some_iff] at h
  obtain ⟨s₁, -, h⟩ := h
  cases h
  rfl

theorem handle_good {i : Input} (hflt : e.FltSucceeds) (hwf : s.Wf) (hs : s.Resting)
    (hw : w.Good (owners (b.setSide t s))) (hkeep : s.KeepsSlots e.rest t i)
    (h : s.handle cfg (lanIfaces e) t w i = some (s', w')) :
    s'.Resting ∧ w'.Good (owners (b.setSide t s')) := by
  match i with
  | .eventCallback (.lanClientActive data) =>
    obtain ⟨-, rfl, rfl⟩ | ⟨pIface, -, h⟩ := Side.handle_active_cases h
    · exact ⟨hs, hw⟩
    · exact handleClientActive_good hflt hwf hs hw hkeep h
  | .eventCallback (.lanClientInactive data) => exact handleClientInactive_good hflt hs hw hkeep h
  | .eventCallback (.lanClientDisconnect data) => exact handleClientDisconnect_good hflt hs hw hkeep h
  | .eventCallback (.lanClientPowerSave data) => exact handleClientPowerSave_good hs hw hkeep h
  | .eventCallback (.lanClientPowerRecover data) => exact handleClientPowerRecover_good hs hw h
  | .eventCallback (.lanToLanNewConnection conn) => exact handleNewLan2lanConnection_good hs hw h
  | .eventCallback (.lanToLanDelConnection conn) => exact handleDelLan2lanConnection_good hflt hs hw h
  | .handleNewConnection conn =>
    have hsame := Side.handle_new_same h
    obtain rfl := handle_new_env h
    exact ⟨hs.of_same hsame, hw.congr (owners_congr hsame.owned)⟩
  | .handleDelConnection conn =>
    have hsame := Side.handle_del_same h
    obtain rfl := handle_del_env h
    exact ⟨hs.of_same hsame, hw.congr (owners_congr hsame.owned)⟩

end Handlers

/-! ## Runs -/

/-- The tables as they are before anything is handed out. -/
structure FltWorld.Fresh (w : FltWorld ω) : Prop where
  distinct : ∀ t i, ((w.table t i).hdl.map FltRuleHdl.ruleHdl).Nodup
  free : ∀ t i, ∀ x ∈ (w.table t i).hdl, x.valid = false
  num : ∀ t i, (w.table t i).num = 0
  ledger : w.ledger = []

theorem FltWorld.Fresh.good {w : FltWorld ω} (hw : w.Fresh) : w.Good (owners LanToLan.init) where
  ok := fun t i => by
    refine ⟨hw.distinct t i, ?_⟩
    rw [hw.num, List.countP_eq_zero.mpr fun x hx => by rw [hw.free t i x hx]; exact Bool.false_ne_true]
    rfl
  clean := by
    rw [hw.ledger]
    exact .nil
  valid := fun t i hdl => by
    rw [hw.ledger]
    refine iff_of_false (Finset.notMem_empty _) fun hmem => ?_
    have := hw.free t i _ hmem
    cases this
  leased := by
    have hnone : ∀ v, owners LanToLan.init v = [] := fun v => by
      rw [owners, LanToLan.side_init]
      rfl
    rw [hw.ledger]
    refine ⟨fun v => ?_, fun a => ?_, fun a v v' hv => ?_⟩
    · rw [hnone]
      exact .nil
    · refine iff_of_false (Finset.notMem_empty _) ?_
      rintro ⟨v, hv⟩
      rw [hnone] at hv
      cases hv
    · rw [hnone] at hv
      cases hv

section Runs

variable {w₀ : FltWorld ω} {tr : List ((Input × LanEnv ω) × Unit)} {s : LanToLan × FltWorld ω}

/-- All filter ioctls succeed, and a link and its slot go together. -/
def SlotsStay (s : LanToLan × FltWorld ω) (c : Input × LanEnv ω) : Prop :=
  c.2.FltSucceeds ∧ ∀ t, c.1.iptype = some t → (s.1.side t).KeepsSlots c.2.rest t c.1

theorem LanToLan.setSide_side (s : LanToLan) (t : IpType) : s.setSide t (s.side t) = s := by
  cases t <;> rfl

theorem run_good (run : Run (lanStep cfg) SlotsStay (LanToLan.init, w₀) tr s) (h₀ : w₀.Fresh) :
    s.2.Good (owners s.1) ∧
      ∀ t, (s.1.side t).Wf ∧ (s.1.side t).PeersOk ∧ (s.1.side t).Resting := by
  refine run.invariant (fun _ s => s.2.Good (owners s.1) ∧
    ∀ t, (s.1.side t).Wf ∧ (s.1.side t).PeersOk ∧ (s.1.side t).Resting) ?_ ?_
  · refine ⟨h₀.good, fun t => ?_⟩
    rw [LanToLan.side_init]
    exact ⟨.init, .init, .init⟩
  · rintro _ s c s' _ ⟨hgood, hs⟩ ⟨hflt, hkeep⟩ hstep
    have hsides := step_sides (P := fun _ d => d.Wf ∧ d.PeersOk) (fun t => ⟨(hs t).1, (hs t).2.1⟩)
      hstep fun t d w _ hd => Side.handle_peersOk (hs t).1 (hs t).2.1 hd
    obtain ⟨-, rfl⟩ | ⟨t, d, w, htype, hd, rfl⟩ := step_cases hstep
    · exact ⟨hgood, hs⟩
    have hw : s.2.Good (owners (s.1.setSide t (s.1.side t))) := by
      rw [LanToLan.setSide_side]
      exact hgood
    obtain ⟨hrest, hgood'⟩ := handle_good hflt (hs t).1 (hs t).2.2 hw (hkeep t htype) hd
    refine ⟨hgood', fun t' => ⟨(hsides t').1, (hsides t').2, ?_⟩⟩
    by_cases ht : t' = t
    · subst ht
      rw [LanToLan.side_setSide_self]
      exact hrest
    · rw [LanToLan.side_setSide_of_ne _ _ ht]
      exact (hs t').2.2

/-- **Filter rule slots.** In every state of a run in which all filter ioctls succeed and every input
    lets a link and its slot go together: the counter of each table is the number of its slots that are
    handed out; what was done so far never handed out a slot that was, nor released one that was not; and
    the slots that are handed out are those of the links that are listed, each that of one link. So each
    time it is handed out a slot is released once, but for the last time if its link is there. -/
theorem run_flt_slots (run : Run (lanStep cfg) SlotsStay (LanToLan.init, w₀) tr s) (h₀ : w₀.Fresh) :
    (∀ t i, (s.2.table t i).num.toNat = (s.2.table t i).hdl.countP FltRuleHdl.valid ∧
        (s.2.table t i).num.toNat ≤ maxOffloadPair) ∧
      (∀ t i hdl, (s.2.table t i).Valid hdl ↔ ⟨t, i, hdl⟩ ∈ held ∅ s.2.ledger) ∧
      Clean s.2.ledger ∧ Leased (owners s.1) (held ∅ s.2.ledger) ∧
      ∀ slot, s.2.ledger.count (.take slot) =
        s.2.ledger.count (.drop slot) + if slot ∈ held ∅ s.2.ledger then 1 else 0 := by
  obtain ⟨hgood, -⟩ := run_good run h₀
  refine ⟨fun t i => ⟨(hgood.ok t i).num, ?_⟩, fun t i hdl => (hgood.valid t i hdl).symm, hgood.clean,
    hgood.leased, hgood.clean.count⟩
  rw [(hgood.ok t i).num, ← (s.2.table t i).size]
  exact List.countP_le_length

/-! ### A slot released twice -/

/-- Nothing is refused. -/
def willingLan : LanEnv Unit := ⟨fun w _ _ => (true, w), fun w _ _ _ _ => (true, w), willing⟩

/-- Each table has the same handles. -/
def freshTables : FltWorld Unit :=
  ⟨fun _ _ => ⟨[⟨1, false⟩, ⟨2, false⟩, ⟨3, false⟩], rfl, 0⟩, [], ()⟩

/-- A client goes to power save that has a link; another client on its interface gets one; and the first
    one disconnects, then the other one. -/
def releaseInputs : List Input :=
  saveInputs ++
    [.eventCallback (.lanClientActive (v4Client 0xc0a80102#32 3 0)),
      .eventCallback (.lanToLanNewConnection (v4Connection 0xc0a80102#32 0xc0a80201#32)),
      .eventCallback (.lanClientDisconnect (v4Client 0xc0a80101#32 1 0)),
      .eventCallback (.lanClientDisconnect (v4Client 0xc0a80102#32 3 0))]

/-- What the tables of the first interface and the client at `2` have after some inputs. -/
def slotsAfter (is : List Input) : Option (List Bool × BitVec 8 × List Hdl) :=
  ((exec (lanStep subnetConfig) (LanToLan.init, freshTables)
    (is.map fun i => (i, willingLan))).toOption).map fun x =>
      ((x.1.2.table .v4 0).hdl.map FltRuleHdl.valid, (x.1.2.table .v4 0).num,
        (x.1.1.v4.owned .v4 2).map Slot.hdl)

/-- The client that went to power save releases the slot again that another client has by then, and this
    one releases it once more: the counter wraps. -/
theorem run_flt_slots_twice :
    slotsAfter (releaseInputs.take 6) = some ([true, false, false], 1, [1]) ∧
      slotsAfter (releaseInputs.take 7) = some ([false, false, false], 0, [1]) ∧
      slotsAfter releaseInputs = some ([false, false, false], 255, []) := by
  decide +kernel

/-- A test that an input does not turn off links and puts no client into power save. -/
def turnsNothingOff (s : LanToLan × FltWorld Unit) (i : Input) : Bool :=
  match i with
  | .eventCallback (.lanClientActive data) =>
    (s.1.v4.find (data.key .v4)).isNone && (s.1.v6.find (data.key .v6)).isNone
  | .eventCallback (.lanClientInactive _) => false
  | .eventCallback (.lanClientDisconnect _) => false
  | .eventCallback (.lanClientPowerSave _) => false
  | _ => true

theorem turnsNothingOff_sound (s : LanToLan × FltWorld Unit) (c : Input × LanEnv Unit)
    (hc : c.2 = willingLan) (h : turnsNothingOff s c.1 = true) : SlotsStay s c := by
  refine ⟨hc ▸ fun _ _ _ _ _ => rfl, fun t _ => ?_⟩
  rcases hi : c.1 with (data | data | data | data | data | conn | conn) | conn | conn
  · rw [hi, turnsNothingOff, Bool.and_eq_true, Option.isNone_iff_eq_none,
      Option.isNone_iff_eq_none] at h
    intro p _ hp
    cases t with
    | v4 => exact absurd (h.1.symm.trans hp) (by simp)
    | v6 => exact absurd (h.2.symm.trans hp) (by simp)
  · rw [hi] at h
    cases h
  · rw [hi] at h
    cases h
  · rw [hi] at h
    cases h
  · trivial
  · trivial
  · trivial
  · trivial
  · trivial

/-- Two clients are linked, and one of them disconnects: both slots are released. -/
theorem run_flt_slots_example :
    ∃ s tr, Run (lanStep subnetConfig) SlotsStay (LanToLan.init, freshTables) tr s ∧
      s.2.ledger.length = 4 ∧ Clean s.2.ledger ∧
        (s.2.table .v4 0).hdl.countP FltRuleHdl.valid = 0 := by
  have hmeet : allMeet (lanStep subnetConfig) (fun s c => turnsNothingOff s c.1)
      (LanToLan.init, freshTables) ((saveInputs.take 3).map fun i => (i, willingLan)) = true := by
    decide +kernel
  have hlinks : (exec (lanStep subnetConfig) (LanToLan.init, freshTables)
      ((saveInputs.take 3).map fun i => (i, willingLan))).toOption.map
        (fun x => (x.1.1.v4.find 0xc0a80101#64, x.1.1.v4.links 0, x.1.1.v4.links 1)) =
          some (some 0, [1], [0]) := by decide +kernel
  have hleft : (exec (lanStep subnetConfig) (LanToLan.init, freshTables)
      ((saveInputs.take 3).map fun i => (i, willingLan))).toOption.bind
        (fun x => (lanStep subnetConfig x.1
          (.eventCallback (.lanClientDisconnect (v4Client 0xc0a80101#32 1 0)), willingLan)).toOption.map
            fun y => (y.1.2.ledger.length, (y.1.2.table .v4 0).num)) = some (4, 0) := by
    decide +kernel
  obtain ⟨s, tr, hexec, hlinks⟩ := exec_of_map hlinks
  rw [hexec] at hleft
  have hfind : s.1.v4.find 0xc0a80101#64 = some 0 := congrArg Prod.fst hlinks
  have hlink₀ : s.1.v4.links 0 = [1] := congrArg (·.2.1) hlinks
  have hlink₁ : s.1.v4.links 1 = [0] := congrArg (·.2.2) hlinks
  have run : Run (lanStep subnetConfig) SlotsStay (LanToLan.init, freshTables) tr s := by
    refine Run.of_exec_of_allMeet (fun s c hc => turnsNothingOff_sound s c ?_) hexec hmeet
    obtain ⟨i, -, rfl⟩ := List.mem_map.mp hc
    rfl
  have hstay : SlotsStay s
      (.eventCallback (.lanClientDisconnect (v4Client 0xc0a80101#32 1 0)), willingLan) := by
    refine ⟨fun _ _ _ _ _ => rfl, fun t ht p hp _ => ⟨fun _ _ _ _ => rfl, ?_⟩⟩
    obtain rfl : .v4 = t := Option.some.inj ht
    obtain rfl : 0 = p := Option.some.inj (hfind.symm.trans hp)
    refine ⟨?_, fun x => ?_⟩
    · rw [LanToLan.side, hlink₀]
      decide
    · rw [LanToLan.side, hlink₀]
      by_cases hx : x = 1
      · rw [hx, hlink₁]
        decide
      · rw [List.count_eq_zero_of_not_mem fun hmem => hx (List.mem_singleton.mp hmem)]
        exact Nat.zero_le _
  have hstep' : (lanStep subnetConfig s
      (.eventCallback (.lanClientDisconnect (v4Client 0xc0a80101#32 1 0)), willingLan)).toOption.map
        (fun y => (y.1.2.ledger.length, (y.1.2.table .v4 0).num)) = some (4, 0) := hleft
  rcases hstep : lanStep subnetConfig s
      (.eventCallback (.lanClientDisconnect (v4Client 0xc0a80101#32 1 0)), willingLan)
        with f | ⟨s', r⟩
  · rw [hstep] at hstep'
    cases hstep'
  · rw [hstep] at hstep'
    have run' := run.snoc hstep hstay
    have hfresh : freshTables.Fresh :=
      ⟨fun _ _ => show [1#32, 2#32, 3#32].Nodup by decide,
        fun _ _ => show ∀ x ∈ [(⟨1, false⟩ : FltRuleHdl), ⟨2, false⟩, ⟨3, false⟩], x.valid = false by
          decide,
        fun _ _ => rfl, rfl⟩
    obtain ⟨hnum, -, hclean, -, -⟩ := run_flt_slots run' hfresh
    have hzero : (s'.2.table .v4 0).num = 0 := congrArg Prod.snd (Option.some.inj hstep')
    refine ⟨s', _, run', congrArg Prod.fst (Option.some.inj hstep'), hclean, ?_⟩
    rw [← (hnum .v4 0).1, hzero]
    rfl

end Runs

end Nx508j.Ipacm.Lan2Lan
