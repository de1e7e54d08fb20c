import Nx508j.Ipacm.LanDangling
import Nx508j.Lib.Mutual

/-! # Links in pairs

Two clients are linked both ways, once, and counted as one pair. This is kept as long as both halves of
a link are made or none, what is deleted is deleted, and no link is made again that is listed still. -/

namespace Nx508j.Ipacm.Lan2Lan

open Nx508j.Lib

variable {ω : Type} {cfg : Config} {ops : Ifaces ω} {t : IpType}

/-! ## How the interfaces answer -/

/-- The call installs a rule. -/
def IfaceCall.isInstall : IfaceCall → Bool
  | .addLan2lanRtRule .. => true
  | .addLan2lanFltRule .. => true
  | _ => false

/-- No rule is refused. -/
def Ifaces.Installs (ops : Ifaces ω) : Prop :=
  ∀ w i c, c.isInstall = true → (ops.call w i c).1.isSome = true

theorem installLink_isSome (hinst : ops.Installs) (c p : ClientInfo) (b : Ptr) (w : ω) :
    (installLink ops t c p b w).1.isSome =
      (ops.call w p.pIface (.addLan2lanHdr t c.macAddr p.macAddr)).1.isSome := by
  unfold installLink
  split
  · next w₁ hcall =>
    rw [hcall]
    rfl
  · next hdr w₁ hcall =>
    have hrt := hinst w₁ p.pIface (.addLan2lanRtRule t c.ip p.ip hdr.hdl) rfl
    rw [hcall]
    split
    · next w₂ hcall₂ =>
      rw [hcall₂] at hrt
      cases hrt
    · next rt w₂ hcall₂ =>
      have hflt := hinst w₂ c.pIface (.addLan2lanFltRule t c.ip p.ip) rfl
      split
      · next w₃ hcall₃ =>
        rw [hcall₃] at hflt
        cases hflt
      · rfl

namespace Side

variable {s s' s₁ s₂ : Side} {w w' w₁ : ω} {a b p q : Ptr} {r : Bool} {key : Key} {c : ClientInfo}

/-- Whether the client at `p` is active, and whether it is in power save. -/
def flags (s : Side) (p : Ptr) : Option (Bool × Bool) :=
  (s.mem p).map fun c => (c.isActive, c.isPowersave)

theorem flags_of_mem (h : s.mem p = some c) : s.flags p = some (c.isActive, c.isPowersave) := by
  rw [flags, h]
  rfl

theorem flags_modify (s : Side) (p : Ptr) {f : ClientInfo → ClientInfo} {act save : Bool}
    (hf : ∀ c, ((f c).isActive, (f c).isPowersave) = (act, save)) (q : Ptr) :
    (s.modify p f).flags q =
      if q = p then (s.mem p).map fun _ => (act, save) else s.flags q := by
  rw [flags, mem_modify]
  split
  · rw [Option.map_map]
    exact congrArg (Option.map · (s.mem p)) (funext hf)
  · rfl

theorem SameClients.flags (h : s.SameClients s') (p : Ptr) : s'.flags p = s.flags p := by
  rw [Side.flags, Side.flags, h.mem]

end Side

theorem LinksOnly.flags {s s' : Side} (h : LinksOnly s s') (p : Ptr) : s'.flags p = s.flags p := by
  have hp := congrArg (Option.map fun c => (c.isActive, c.isPowersave)) (h.client p)
  rw [Option.map_map, Option.map_map] at hp
  exact hp

theorem PeersOnly.flags {s s' : Side} (h : PeersOnly s s') (p : Ptr) : s'.flags p = s.flags p := by
  have hp := congrArg (Option.map fun c => (c.isActive, c.isPowersave)) (h.client p)
  rw [Option.map_map, Option.map_map] at hp
  exact hp

namespace Side

variable {s s' s₁ s₂ : Side} {w w' w₁ : ω} {a b p q : Ptr} {r : Bool} {key : Key} {c : ClientInfo}
  {E : Finset (Sym2 Ptr)}

/-- Whether the header for the direction from `a` to `b` is to be had. -/
def accepts (ops : Ifaces ω) (t : IpType) (s : Side) (w : ω) (a b : Ptr) : Bool :=
  match s.mem a, s.mem b with
  | some c, some d => (ops.call w d.pIface (.addLan2lanHdr t c.macAddr d.macAddr)).1.isSome
  | _, _ => false

theorem addOffloadLink_spec (hinst : ops.Installs)
    (h : addOffloadLink ops t a b s w = some (r, s', w')) :
    (r = true ↔ s.numOffloadPair.toNat < maxOffloadPair ∧ s.accepts ops t w a b = true) ∧
      s'.numOffloadPair = s.numOffloadPair ∧
      ∀ q, s'.links q = if r = true ∧ q = a then s.links a ++ [b] else s.links q := by
  obtain ⟨hmax, rfl, rfl, -⟩ | ⟨c, p, hc, hp, hmax, hcase⟩ := addOffloadLink_cases h
  · refine ⟨?_, rfl, fun q => by simp⟩
    exact iff_of_false Bool.false_ne_true fun h => Nat.not_lt.mpr hmax h.1
  have hsome := installLink_isSome (t := t) hinst c p b w
  have hacc : s.accepts ops t w a b =
      (ops.call w p.pIface (.addLan2lanHdr t c.macAddr p.macAddr)).1.isSome := by
    rw [accepts, hc, hp]
  rw [hacc, ← hsome]
  obtain ⟨hi, rfl, rfl⟩ | ⟨link, hi, rfl, rfl⟩ := hcase
  · refine ⟨?_, rfl, fun q => by simp⟩
    rw [hi]
    exact iff_of_false Bool.false_ne_true fun h => Bool.false_ne_true h.2
  · refine ⟨?_, rfl, fun q => ?_⟩
    · rw [hi]
      exact iff_of_true rfl ⟨hmax, rfl⟩
    · rw [links_push hc, installLink_peerPointer hi]
      simp

/-- Both directions of a link, one after the other. -/
theorem addOffloadLink_two (hinst : ops.Installs) (hab : a ≠ b) {r₁ r₂ : Bool}
    (h₁ : addOffloadLink ops t a b s w = some (r₁, s₁, w₁))
    (h₂ : addOffloadLink ops t b a s₁ w₁ = some (r₂, s₂, w')) :
    (r₁ = true ↔ s.numOffloadPair.toNat < maxOffloadPair ∧ s.accepts ops t w a b = true) ∧
      (r₂ = true ↔ s.numOffloadPair.toNat < maxOffloadPair ∧ s₁.accepts ops t w₁ b a = true) ∧
      s₂.numOffloadPair = s.numOffloadPair ∧
      ∀ q, s₂.links q =
        if r₁ = true ∧ q = a then s.links a ++ [b]
        else if r₂ = true ∧ q = b then s.links b ++ [a] else s.links q := by
  obtain ⟨hres₁, hnum₁, hlinks₁⟩ := addOffloadLink_spec hinst h₁
  obtain ⟨hres₂, hnum₂, hlinks₂⟩ := addOffloadLink_spec hinst h₂
  rw [hnum₁] at hres₂
  refine ⟨hres₁, hres₂, hnum₂.trans hnum₁, fun q => ?_⟩
  rw [hlinks₂, hlinks₁, hlinks₁]
  by_cases hqa : q = a
  · subst hqa
    simp [hab]
  · simp [hqa, Ne.symm hab]

/-! ## The invariant -/

/-- `E` is the set of the linked pairs, and `num_offload_pair` their number. -/
structure Pairs (s : Side) (E : Finset (Sym2 Ptr)) : Prop where
  linked : Mutual s.links E
  card : E.card = s.numOffloadPair.toNat
  le : E.card ≤ maxOffloadPair

theorem Pairs.of_links (hs : s.Pairs E) (hlinks : ∀ p, s'.links p = s.links p)
    (hnum : s'.numOffloadPair = s.numOffloadPair) : s'.Pairs E where
  linked := hs.linked.congr hlinks
  card := by rw [hnum, hs.card]
  le := hs.le

/-- Links come in pairs; they are between peers, of which nobody is his own; and a client that is
    neither active nor in power save has none. -/
structure PairsOk (s : Side) : Prop where
  pairs : ∃ E, s.Pairs E
  peers : ∀ p q, q ∈ s.links p → s.counted p q ≠ none
  stranger : ∀ p, s.counted p p = none
  awake : ∀ p, s.flags p = some (false, false) → s.links p = []

theorem PairsOk.init : init.PairsOk where
  pairs := ⟨∅, Mutual.nil.congr fun _ => rfl, rfl, Nat.zero_le _⟩
  peers := fun p q h => absurd h (by simp [links, Side.init])
  stranger := fun _ => counted_of_dead rfl _
  awake := fun _ _ => rfl

theorem PairsOk.of_links (hs : s.PairsOk) (hlinks : ∀ p, s'.links p = s.links p)
    (hnum : s'.numOffloadPair = s.numOffloadPair)
    (hcounted : ∀ p q, s'.counted p q = s.counted p q)
    (hawake : ∀ p, s'.flags p = some (false, false) → s.links p = []) : s'.PairsOk where
  pairs := hs.pairs.imp fun _ hE => hE.of_links hlinks hnum
  peers := fun p q hq => by
    rw [hlinks] at hq
    rw [hcounted]
    exact hs.peers p q hq
  stranger := fun p => (hcounted p p).trans (hs.stranger p)
  awake := fun p hp => (hlinks p).trans (hawake p hp)

theorem PairsOk.symm (hs : s.PairsOk) (p q : Ptr) : q ∈ s.links p ↔ p ∈ s.links q := by
  obtain ⟨E, hE⟩ := hs.pairs
  exact hE.linked.symm p q

/-! ## Links are made -/

theorem pairs_add_one (hmax : s.numOffloadPair.toNat < maxOffloadPair) :
    (s.numOffloadPair + 1).toNat = s.numOffloadPair.toNat + 1 := by
  have hlt : s.numOffloadPair.toNat < 3 := hmax
  rw [BitVec.toNat_add]
  exact Nat.mod_eq_of_lt (show s.numOffloadPair.toNat + 1 < 2 ^ 8 by omega)

theorem PairsOk.link (hs : s.PairsOk) (hok : s.PeersOk) (hinst : ops.Installs)
    (hpeer : s.counted a b ≠ none) (hnot : b ∉ s.links a)
    (ha : s.flags a ≠ some (false, false)) (hb : s.flags b ≠ some (false, false))
    (h₁ : addOffloadLink ops t a b s w = some (true, s₁, w₁))
    (h₂ : addOffloadLink ops t b a s₁ w₁ = some (true, s₂, w')) :
    { s₂ with numOffloadPair := s₂.numOffloadPair + 1 }.PairsOk := by
  have hab : a ≠ b := by
    rintro rfl
    exact hpeer (hs.stranger a)
  have hl := (addOffloadLink_linksOnly h₁).trans (addOffloadLink_linksOnly h₂)
  obtain ⟨hres, -, hnum, hlinks⟩ := addOffloadLink_two hinst hab h₁ h₂
  have hmax := (hres.mp rfl).1
  have hla : s₂.links a = s.links a ++ [b] := by rw [hlinks, if_pos ⟨rfl, rfl⟩]
  have hlb : s₂.links b = s.links b ++ [a] := by
    rw [hlinks, if_neg fun h => hab h.2.symm, if_pos ⟨rfl, rfl⟩]
  have hother : ∀ p, p ≠ a → p ≠ b → s₂.links p = s.links p := by
    intro p hpa hpb
    rw [hlinks, if_neg fun h => hpa h.2, if_neg fun h => hpb h.2]
  constructor
  · obtain ⟨E, hE⟩ := hs.pairs
    obtain ⟨hmutual, hcard⟩ := hE.linked.join hab hnot hla hlb hother
    refine ⟨_, hmutual, ?_, ?_⟩
    · show _ = (s₂.numOffloadPair + 1).toNat
      rw [hcard, hnum, pairs_add_one hmax, hE.card]
    · rw [hcard, hE.card]
      exact hmax
  · intro p q hq
    have hcounted : s₂.counted p q = s.counted p q := hl.counted p q
    show s₂.counted p q ≠ none
    rw [hcounted]
    change q ∈ s₂.links p at hq
    by_cases hpa : p = a
    · subst hpa
      rw [hla, List.mem_append, List.mem_singleton] at hq
      rcases hq with hq | rfl
      · exact hs.peers p q hq
      · exact hpeer
    · by_cases hpb : p = b
      · subst hpb
        rw [hlb, List.mem_append, List.mem_singleton] at hq
        rcases hq with hq | rfl
        · exact hs.peers p q hq
        · rw [hok.symm]
          exact hpeer
      · rw [hother p hpa hpb] at hq
        exact hs.peers p q hq
  · exact fun p => (hl.counted p p).trans (hs.stranger p)
  · intro p hp
    have hflags : s.flags p = some (false, false) := (hl.flags p).symm.trans hp
    have hpa : p ≠ a := fun h => ha (h ▸ hflags)
    have hpb : p ≠ b := fun h => hb (h ▸ hflags)
    exact (hother p hpa hpb).trans (hs.awake p hflags)

/-- When there may be one more link, and the header of the direction from `a` to `b` was asked for, the
    one of the other direction is had as well or refused as well. -/
def BothWays (ops : Ifaces ω) (t : IpType) (s : Side) (w : ω) (a b : Ptr) : Prop :=
  s.numOffloadPair.toNat < maxOffloadPair → ∀ r s₁ w₁, addOffloadLink ops t a b s w = some (r, s₁, w₁) →
    s₁.accepts ops t w₁ b a = s.accepts ops t w a b

/-- What is asked of every link that the loop of `check_potential_link` makes for the client at `p`, in
    the world in which it makes it: the headers of the two directions are had or refused together, and
    the link is not listed already. -/
def LinksNew (ops : Ifaces ω) (t : IpType) (p : Ptr) : List PeerInfo → Side → ω → Prop
  | [], _, _ => True
  | x :: peers, s, w => ∀ d, s.mem x.peerPointer = some d →
    if d.isActive = true ∧ 0 < x.numConnection then
      s.BothWays ops t w p x.peerPointer ∧
      (s.numOffloadPair.toNat < maxOffloadPair → s.accepts ops t w p x.peerPointer = true →
        x.peerPointer ∉ s.links p) ∧
      ∀ r₁ s₁ w₁ r₂ s₂ w₂, addOffloadLink ops t p x.peerPointer s w = some (r₁, s₁, w₁) →
        addOffloadLink ops t x.peerPointer p s₁ w₁ = some (r₂, s₂, w₂) → LinksNew ops t p peers
          (if r₂ = true then { s₂ with numOffloadPair := s₂.numOffloadPair + 1 } else s₂) w₂
    else LinksNew ops t p peers s w

theorem checkPotentialFrom_pairsOk {peers : List PeerInfo} (hinst : ops.Installs)
    (hok : s.PeersOk) (hs : s.PairsOk) (hp : s.flags p ≠ some (false, false))
    (hpeers : ∀ x ∈ peers, s.counted p x.peerPointer ≠ none) (hnew : LinksNew ops t p peers s w)
    (h : checkPotentialFrom ops t p peers s w = some (s', w')) : s'.PairsOk := by
  induction peers generalizing s w with
  | nil =>
    cases h
    exact hs
  | cons x peers ih =>
    have hpx := hpeers x (List.mem_cons_self ..)
    obtain ⟨d, hd, ⟨hno, hrest⟩ | ⟨hyes, r₁, s₁, w₁, r₂, s₂, w₂, h₁, h₂, hrest⟩⟩ :=
      checkPotentialFrom_cons h
    · have hnew := hnew d hd
      rw [if_neg hno] at hnew
      exact ih hok hs hp (fun y hy => hpeers y (List.mem_cons_of_mem _ hy)) hnew hrest
    · have hnew := hnew d hd
      rw [if_pos hyes] at hnew
      obtain ⟨hboth, honce, hnext⟩ := hnew
      have hnext := hnext r₁ s₁ w₁ r₂ s₂ w₂ h₁ h₂
      have hxflags : s.flags x.peerPointer ≠ some (false, false) := by
        rw [flags_of_mem hd, hyes.1]
        simp
      have hab : p ≠ x.peerPointer := by
        intro heq
        exact hpx (heq ▸ hs.stranger p)
      have hl := (addOffloadLink_linksOnly h₁).trans (addOffloadLink_linksOnly h₂)
      obtain ⟨hres₁, hres₂, hnum, hlinks⟩ := addOffloadLink_two hinst hab h₁ h₂
      obtain rfl : r₂ = r₁ := by
        rw [Bool.eq_iff_iff, hres₁, hres₂]
        exact and_congr_right fun hmax => by rw [hboth hmax r₁ s₁ w₁ h₁]
      have hcounted : ∀ y ∈ peers, s₂.counted p y.peerPointer ≠ none := fun y hy => by
        rw [hl.counted]
        exact hpeers y (List.mem_cons_of_mem _ hy)
      have hp₂ : s₂.flags p ≠ some (false, false) := by rwa [hl.flags]
      cases r₂ with
      | false =>
        have hsame : ∀ q, s₂.links q = s.links q := fun q => (hlinks q).trans (by simp)
        have hs₂ : s₂.PairsOk := hs.of_links hsame hnum hl.counted fun q hq =>
          hs.awake q ((hl.flags q).symm.trans hq)
        exact ih (hl.peersOk hok) hs₂ hp₂ hcounted hnext hrest
      | true =>
        obtain ⟨hmax, hacc⟩ := hres₁.mp rfl
        have hs₂ := hs.link hok hinst hpx (honce hmax hacc) hp hxflags h₁ h₂
        exact ih ((hl.trans (.pairs _ _)).peersOk hok) hs₂ hp₂ hcounted hnext hrest

/-- The same of the links that `check_potential_link` makes for the client at `p`. -/
def MakesNew (ops : Ifaces ω) (t : IpType) (s : Side) (w : ω) (p : Ptr) : Prop :=
  ∀ c, s.mem p = some c → LinksNew ops t p c.peer s w

theorem checkPotentialLink_pairsOk (hinst : ops.Installs) (hok : s.PeersOk) (hs : s.PairsOk)
    (hp : s.flags p ≠ some (false, false)) (hnew : s.MakesNew ops t w p)
    (h : checkPotentialLink ops t p s w = some (s', w')) : s'.PairsOk := by
  obtain ⟨c, hc, h⟩ := checkPotentialLink_cases h
  refine checkPotentialFrom_pairsOk hinst hok hs hp (fun x hx => ?_) (hnew c hc) h
  rw [counted_of_mem hc, record_of_mem (hok.nodup p c hc) hx]
  exact Option.some_ne_none _

/-! ## Links are deleted -/

theorem turnoffFrom_pairs {i : Iface} {links : List OffloadLinkInfo}
    (hdel : links ≠ [] → ops.Deletes) (hnodup : (links.map OffloadLinkInfo.peerPointer).Nodup)
    (hback : ∀ x ∈ links.map OffloadLinkInfo.peerPointer, p ∈ s.links x)
    (hnum : links.length ≤ s.numOffloadPair.toNat)
    (h : turnoffFrom ops t p i links s w = some (r, s', w')) :
    r = true ∧ s'.numOffloadPair.toNat + links.length = s.numOffloadPair.toNat ∧
      ∀ x, s'.links x =
        if x ∈ links.map OffloadLinkInfo.peerPointer then (s.links x).erase p else s.links x := by
  induction links generalizing s w with
  | nil =>
    cases h
    exact ⟨rfl, rfl, fun x => by simp⟩
  | cons link links ih =>
    rw [List.map_cons, List.nodup_cons] at hnodup
    have hdel := hdel (List.cons_ne_nil link links)
    have hp := hback link.peerPointer (List.mem_cons_self ..)
    obtain ⟨d, hd, hcase⟩ := turnoffFrom_cons h
    obtain ⟨-, -, hfail | ⟨hnone, -⟩ | ⟨back, w₁, -, -, hfail⟩⟩ |
      ⟨back, w₁, w₂, -, -, -, -, hrest⟩ := hcase
    · have := hdel.delOffloadLink (t := t) i d.pIface link w
      rw [hfail] at this
      cases this
    · exact absurd hp ((record_link_eq_none hd).mp hnone)
    · have := hdel.delOffloadLink (t := t) d.pIface i back w₁
      rw [hfail] at this
      cases this
    · rw [List.length_cons] at hnum
      have hone : (s.numOffloadPair - 1).toNat + 1 = s.numOffloadPair.toNat := by
        rw [BitVec.toNat_sub_of_le (BitVec.le_def.mpr (by show 1 ≤ _; omega))]
        show s.numOffloadPair.toNat - 1 + 1 = _
        omega
      have hback' : ∀ x ∈ links.map OffloadLinkInfo.peerPointer,
          p ∈ { s.dropLink link.peerPointer p with
            numOffloadPair := s.numOffloadPair - 1 }.links x := by
        intro x hx
        have hne : x ≠ link.peerPointer := fun heq => hnodup.1 (heq ▸ hx)
        rw [links_pairs, links_dropLink, if_neg hne]
        exact hback x (List.mem_cons_of_mem _ hx)
      obtain ⟨hr, hnum', hlinks⟩ := ih (fun _ => hdel) hnodup.2 hback'
        (show links.length ≤ (s.numOffloadPair - 1).toNat by omega) hrest
      refine ⟨hr, ?_, fun x => ?_⟩
      · rw [List.length_cons]
        change s'.numOffloadPair.toNat + links.length = (s.numOffloadPair - 1).toNat at hnum'
        omega
      · rw [hlinks, links_pairs, links_dropLink, List.map_cons]
        by_cases hx : x = link.peerPointer
        · subst hx
          rw [if_neg hnodup.1, if_pos rfl, if_pos (List.mem_cons_self ..)]
        · rw [if_neg hx]
          simp only [List.mem_cons, hx, false_or]

theorem turnoffOffloadLinks_spec (hdel : s.links p ≠ [] → ops.Deletes) (hs : s.PairsOk)
    (h : turnoffOffloadLinks ops t p s w = some (r, s', w')) :
    r = true ∧ (∃ E, s'.Pairs E) ∧
      ∀ x, s'.links x = if x = p then [] else (s.links x).erase p := by
  obtain ⟨E, hE⟩ := hs.pairs
  obtain ⟨c, s₁, hc, hloop, hend⟩ := turnoffOffloadLinks_cases h
  have hlinks := links_of_mem hc
  obtain ⟨E', hlinked, hcard⟩ := hE.linked.isolate
    (show (fun x => if x = p then [] else (s.links x).erase p) p = [] from if_pos rfl)
    fun x hx => if_neg hx
  rw [hE.card, hlinks, List.length_map] at hcard
  obtain ⟨rfl, hnum, hloop'⟩ := turnoffFrom_pairs
    (fun hne => hdel fun hnil => hne (List.map_eq_nil_iff.mp (hlinks ▸ hnil)))
    (hlinks ▸ hE.linked.nodup p) (fun x hx => (hs.symm p x).mp (hlinks ▸ hx)) (by omega) hloop
  obtain ⟨hr, -⟩ | ⟨-, rfl⟩ := hend
  · cases hr
  have hall : ∀ x, (s₁.modify p fun c => { c with link := [] }).links x =
      if x = p then [] else (s.links x).erase p := by
    intro x
    rw [links_clear, hloop', ← hlinks]
    split
    · rfl
    · split
      · rfl
      · next hx =>
        rw [List.erase_of_not_mem fun hmem => hx ((hs.symm p x).mpr hmem)]
  refine ⟨rfl, ⟨E', hlinked.congr hall, ?_, ?_⟩, hall⟩
  · show E'.card = s₁.numOffloadPair.toNat
    omega
  · exact le_trans (by omega) (hE.card ▸ hE.le)

theorem turnoffOffloadLinks_pairsOk (hdel : s.links p ≠ [] → ops.Deletes) (hs : s.PairsOk)
    (h : turnoffOffloadLinks ops t p s w = some (r, s', w')) : s'.PairsOk := by
  have hl := turnoffOffloadLinks_linksOnly h
  have hsub := turnoffOffloadLinks_linksSub h
  obtain ⟨-, hpairs, hlinks⟩ := turnoffOffloadLinks_spec hdel hs h
  refine ⟨hpairs, fun x q hq => ?_, fun x => (hl.counted x x).trans (hs.stranger x), fun x hx => ?_⟩
  · rw [hl.counted]
    exact hs.peers x q (hsub x q hq)
  · rw [hlinks, hs.awake x ((hl.flags x).symm.trans hx)]
    split <;> rfl

theorem turnoffOffloadLinks_alone (hdel : s.links p ≠ [] → ops.Deletes) (hs : s.PairsOk)
    (h : turnoffOffloadLinks ops t p s w = some (r, s', w')) :
    s'.links p = [] ∧ ∀ x, p ∉ s'.links x := by
  obtain ⟨-, -, hlinks⟩ := turnoffOffloadLinks_spec hdel hs h
  have hs' := turnoffOffloadLinks_pairsOk hdel hs h
  have hp : s'.links p = [] := by rw [hlinks, if_pos rfl]
  refine ⟨hp, fun x hx => ?_⟩
  rw [hs'.symm, hp] at hx
  cases hx

theorem eraseLink_spec (hdel : b ∈ s.links a → ops.Deletes)
    (h : eraseLink ops t a b s w = some (r, s', w')) :
    (r = true ↔ b ∈ s.links a) ∧ s'.numOffloadPair = s.numOffloadPair ∧
      ∀ q, s'.links q = if q = a then (s.links a).erase b else s.links q := by
  obtain ⟨c, hc, ⟨hnone, rfl, rfl, -⟩ | ⟨link, d, hlink, hd, hdel', rfl⟩⟩ := eraseLink_cases h
  · rw [record_link_eq_none hc] at hnone
    refine ⟨iff_of_false Bool.false_ne_true hnone, rfl, fun q => ?_⟩
    split
    · next hq => rw [hq, List.erase_of_not_mem hnone]
    · rfl
  · have hmem : b ∈ s.links a := by
      by_contra hnot
      rw [← record_link_eq_none hc, hlink] at hnot
      cases hnot
    obtain rfl : true = r := by
      have := (hdel hmem).delOffloadLink (t := t) c.pIface d.pIface link w
      rw [hdel'] at this
      exact this.symm
    exact ⟨iff_of_true rfl hmem, rfl, links_dropLink s a b⟩

theorem eraseOffloadLink_pairs (hdel : b ∈ s.links a → ops.Deletes)
    (hE : s.Pairs E) (hab : a ≠ b) (h : eraseOffloadLink ops t a b s w = some (s', w')) :
    (∃ E', s'.Pairs E') ∧ b ∉ s'.links a := by
  obtain ⟨r₁, s₁, w₁, r₂, s₂, h₁, h₂, rfl⟩ := eraseOffloadLink_cases h
  obtain ⟨hres₁, hnum₁, hlinks₁⟩ := eraseLink_spec hdel h₁
  obtain ⟨hres₂, hnum₂, hlinks₂⟩ := eraseLink_spec (fun hmem => hdel <| by
    rw [hlinks₁, if_neg (Ne.symm hab)] at hmem
    exact (hE.linked.symm a b).mpr hmem) h₂
  have hla : s₂.links a = (s.links a).erase b := by
    rw [hlinks₂, if_neg hab, hlinks₁, if_pos rfl]
  have hlb : s₂.links b = (s.links b).erase a := by
    rw [hlinks₂, if_pos rfl, hlinks₁, if_neg (Ne.symm hab)]
  have hother : ∀ p, p ≠ a → p ≠ b → s₂.links p = s.links p := by
    intro p hpa hpb
    rw [hlinks₂, if_neg hpb, hlinks₁, if_neg hpa]
  have hres : r₂ = r₁ := by
    rw [Bool.eq_iff_iff, hres₂, hres₁, hlinks₁, if_neg (Ne.symm hab)]
    exact hE.linked.symm b a
  have hgone : b ∉ s₂.links a := by
    rw [hla, (hE.linked.nodup a).mem_erase_iff]
    exact fun h => h.1 rfl
  have hnum : s₂.numOffloadPair = s.numOffloadPair := hnum₂.trans hnum₁
  subst hres
  cases r₂ with
  | false =>
    have hnot : b ∉ s.links a := fun hmem => Bool.false_ne_true (hres₁.mpr hmem)
    have hnot' : a ∉ s.links b := fun hmem => hnot ((hE.linked.symm a b).mpr hmem)
    refine ⟨⟨E, hE.of_links (fun p => ?_) hnum⟩, hgone⟩
    show s₂.links p = s.links p
    by_cases hpa : p = a
    · rw [hpa, hla, List.erase_of_not_mem hnot]
    · by_cases hpb : p = b
      · rw [hpb, hlb, List.erase_of_not_mem hnot']
      · exact hother p hpa hpb
  | true =>
    obtain ⟨hlinked, hcard⟩ := hE.linked.part (hres₁.mp rfl) hla hlb hother
    rw [hE.card] at hcard
    refine ⟨⟨E.erase s(a, b), hlinked, ?_, ?_⟩, hgone⟩
    · show (E.erase s(a, b)).card = (s₂.numOffloadPair - 1).toNat
      rw [hnum, BitVec.toNat_sub_of_le (BitVec.le_def.mpr (by show 1 ≤ _; omega))]
      show _ = s.numOffloadPair.toNat - 1
      omega
    · exact le_trans (by omega) (hE.card ▸ hE.le)

/-- When two clients are no peers any more, the handler parts them: a link they have is between two
    clients that are active or in power save. -/
theorem eraseLinks_pairs (hdel : b ∈ s.links a → ops.Deletes)
    (hE : s.Pairs E) (hab : a ≠ b) (hawake : ∀ p, s.flags p = some (false, false) → s.links p = [])
    (h : s.eraseLinks ops t a b w = some (s', w')) : (∃ E', s'.Pairs E') ∧ b ∉ s'.links a := by
  obtain ⟨c, d, hc, hd, ⟨-, h⟩ | ⟨hactive, s₁, w₁, h₁, h₂⟩⟩ := eraseLinks_cases h
  · exact eraseOffloadLink_pairs hdel hE hab h
  have hca := hawake a
  have hdb := hawake b
  rw [flags_of_mem hc] at hca
  rw [flags_of_mem hd] at hdb
  have hsecond : ∀ {E₁ : Finset (Sym2 Ptr)}, s₁.Pairs E₁ → b ∉ s₁.links a →
      (∃ E', s'.Pairs E') ∧ b ∉ s'.links a := by
    intro E₁ hE₁ hnot
    split at h₂
    · obtain ⟨hE', hnot'⟩ := eraseOffloadLink_pairs
        (fun hmem => absurd ((hE₁.linked.symm a b).mpr hmem) hnot) hE₁ (Ne.symm hab) h₂
      refine ⟨hE', fun hmem => ?_⟩
      obtain ⟨E', hE'⟩ := hE'
      exact hnot' ((hE'.linked.symm a b).mp hmem)
    · cases h₂
      exact ⟨⟨E₁, hE₁⟩, hnot⟩
  split at h₁
  · obtain ⟨⟨E₁, hE₁⟩, hnot⟩ := eraseOffloadLink_pairs hdel hE hab h₁
    exact hsecond hE₁ hnot
  · next hsrc =>
    cases h₁
    split at h₂
    · obtain ⟨⟨E', hE'⟩, hnot⟩ := eraseOffloadLink_pairs
        (fun hmem => hdel ((hE.linked.symm a b).mpr hmem)) hE (Ne.symm hab) h₂
      exact ⟨⟨E', hE'⟩, fun hmem => hnot ((hE'.linked.symm a b).mp hmem)⟩
    · next hdst =>
      cases h₂
      refine ⟨⟨E, hE⟩, fun hmem => ?_⟩
      have hmem' := (hE.linked.symm a b).mp hmem
      -- one of them is neither active nor in power save, so it has no links
      have hidle : c.isActive = false ∧ c.isPowersave = false ∨
          d.isActive = false ∧ d.isPowersave = false := by
        grind
      rcases hidle with ⟨hact, hsave⟩ | ⟨hact, hsave⟩
      · rw [hca (by rw [hact, hsave])] at hmem
        cases hmem
      · rw [hdb (by rw [hact, hsave])] at hmem'
        cases hmem'

/-! ## Changes of clients and peers -/

theorem PairsOk.of_same (hs : s.PairsOk) (h : s.SameClients s') : s'.PairsOk :=
  hs.of_links h.links h.numOffloadPair h.counted fun p hp => hs.awake p ((h.flags p).symm.trans hp)

theorem PairsOk.insert (hs : s.PairsOk) (hwf : s.Wf) (hlink : c.link = []) (hpeer : c.peer = [])
    (hact : c.isActive = true) : (s.insert key c).PairsOk := by
  refine hs.of_links (links_insert hwf hlink) rfl (counted_insert hwf hpeer) fun p hp => ?_
  rw [flags, mem_insert] at hp
  split at hp
  · simp [hact] at hp
  · exact hs.awake p hp

theorem PairsOk.modify (hs : s.PairsOk) (p : Ptr) {f : ClientInfo → ClientInfo}
    (hlink : ∀ c, (f c).link = c.link) (hpeer : ∀ c, (f c).peer = c.peer)
    (hp : s.links p = [] ∨ ∀ c, ((f c).isActive, (f c).isPowersave) ≠ (false, false)) :
    (s.modify p f).PairsOk := by
  refine hs.of_links (links_modify s p fun c => by rw [hlink]) rfl
    (fun u v => counted_congr (modify_peer s p hpeer u) v) fun q hq => ?_
  rw [flags, mem_modify] at hq
  split at hq
  · next heq =>
    subst heq
    rcases hp with hp | hp
    · exact hp
    · obtain ⟨c', hc', hflags⟩ := Option.map_eq_some_iff.mp hq
      obtain ⟨c, -, rfl⟩ := Option.map_eq_some_iff.mp hc'
      exact absurd hflags (hp c)
  · exact hs.awake q hq

theorem PairsOk.erase (hs : s.PairsOk) (hfind : s.find key = some p) (hlinks : s.links p = [])
    (hnone : ∀ q, s.counted p q = none) : (s.erase key).PairsOk := by
  refine hs.of_links (fun q => ?_) ?_ (counted_erase hfind hnone) fun q hq => ?_
  · rw [links_erase hfind]
    split
    · next hq => rw [hq, hlinks]
    · rfl
  · rw [erase_of_find hfind]
  · rw [flags, mem_erase hfind] at hq
    split at hq
    · cases hq
    · exact hs.awake q hq

theorem PairsOk.clearPeerList (hs : s.PairsOk) (hok : s.PeersOk) (hnil : s.links p = [])
    (h : s.clearPeerList p = some (r, s')) : s'.PairsOk := by
  have hpeers := clearPeerList_peersOnly h
  obtain ⟨-, -, hcounted⟩ := clearPeerList_counted hok h
  refine ⟨hs.pairs.imp fun E hE => hE.of_links hpeers.links hpeers.numOffloadPair,
    fun x q hq => ?_, fun x => ?_, fun x hx => ?_⟩
  · rw [hpeers.links] at hq
    have hx : x ≠ p := by
      rintro rfl
      rw [hnil] at hq
      cases hq
    have hqp : q ≠ p := by
      rintro rfl
      rw [hs.symm, hnil] at hq
      cases hq
    rw [hcounted, if_neg (not_or.mpr ⟨hx, hqp⟩)]
    exact hs.peers x q hq
  · rw [hcounted, hs.stranger]
    split <;> rfl
  · rw [hpeers.links]
    exact hs.awake x ((hpeers.flags x).symm.trans hx)

theorem PairsOk.addConnection (hs : s.PairsOk) (hok : s.PeersOk) (hab : a ≠ b)
    (h : s.addConnection a b = some (r, s')) : s'.PairsOk := by
  have hpeers := addConnection_peersOnly h
  refine ⟨hs.pairs.imp fun E hE => hE.of_links hpeers.links hpeers.numOffloadPair,
    fun x q hq => ?_, fun x => ?_, fun x hx => ?_⟩
  · rw [hpeers.links] at hq
    rw [addConnection_counted hok h hab]
    split
    · exact Option.some_ne_none _
    · exact hs.peers x q hq
  · rw [addConnection_counted hok h hab, if_neg, hs.stranger]
    rintro (⟨rfl, rfl⟩ | ⟨rfl, rfl⟩) <;> exact hab rfl
  · rw [hpeers.links]
    exact hs.awake x ((hpeers.flags x).symm.trans hx)

/-! ## What an input may do -/

/-- What an input must not do for the links to stay in pairs. Before links are deleted it must be sure
    that no deletion is refused. Of each link that is made the headers of both directions are had or
    none, and it is not one of a client to itself, nor one that is listed. -/
def KeepsPairs (ops : Ifaces ω) (t : IpType) (s : Side) (w : ω) : Input → Prop
  | .eventCallback (.lanClientActive data) =>
    ∀ p c pIface, s.find (data.key t) = some p → s.mem p = some c → data.pIface = some pIface →
      (c.isActive = true → c.macAddr ≠ data.macAddr → s.links p ≠ [] → ops.Deletes) ∧
        (c.isActive = false → (s.modify p (data.fill t pIface)).MakesNew ops t w p)
  | .eventCallback (.lanClientInactive data) =>
    ∀ p, s.find (data.key t) = some p → s.links p ≠ [] → ops.Deletes
  | .eventCallback (.lanClientDisconnect data) =>
    ∀ p, s.find (data.key t) = some p → s.links p ≠ [] → ops.Deletes
  | .eventCallback (.lanClientPowerRecover data) =>
    ∀ p s₁ w₁, s.find (data.key t) = some p → s.flags p = some (false, true) →
      addFltRules ops t p s w = some (true, s₁, w₁) →
        (s₁.modify p fun c => { c with isActive := true, isPowersave := false }).MakesNew ops t w₁ p
  | .eventCallback (.lanToLanNewConnection conn) =>
    ∀ a b, s.find (srcKey conn) = some a → s.find (dstKey conn) = some b →
      a ≠ b ∧ ∀ s₁ s₂ w₁, s.counted a b = none → (s.flags a).any Prod.fst = true →
        (s.flags b).any Prod.fst = true → s.addConnection a b = some (true, s₁) →
          addOffloadLink ops t a b s₁ w = some (true, s₂, w₁) → s₂.accepts ops t w₁ b a = true
  | .eventCallback (.lanToLanDelConnection conn) =>
    ∀ a b, s.find (srcKey conn) = some a → s.find (dstKey conn) = some b → b ∈ s.links a →
      ops.Deletes
  | _ => True

section Handlers

variable {data : LanClientData} {conn : ConnectionData} {pIface : Iface}

theorem handleClientActive_pairsOk (hinst : ops.Installs) (hwf : s.Wf) (hok : s.PeersOk)
    (hs : s.PairsOk) (hif : data.pIface = some pIface)
    (hkeep : s.KeepsPairs ops t w (.eventCallback (.lanClientActive data)))
    (h : s.handleClientActive cfg ops t data pIface w = some (s', w')) : s'.PairsOk := by
  have hactive : ∀ c, ((data.fill t pIface c).isActive, (data.fill t pIface c).isPowersave) ≠
      (false, false) := by
    intro c hc
    cases hc
  obtain ⟨-, -, hannounce⟩ | ⟨p, c, hfind, hc, hcase⟩ := handleClientActive_cases h
  · exact (hs.insert hwf rfl rfl rfl).of_same (announce_same hannounce)
  obtain ⟨hoff, hlists⟩ := hkeep p c pIface hfind hc hif
  obtain ⟨-, -, rfl, -⟩ | ⟨hact, hmac, r, s₁, r', s₂, hturn, hclear, hannounce⟩ |
    ⟨hact, s₁, hcheck, hannounce⟩ := hcase
  · exact hs
  · have hs₁ := turnoffOffloadLinks_pairsOk (hoff hact hmac) hs hturn
    have hnil := (turnoffOffloadLinks_alone (hoff hact hmac) hs hturn).1
    have hok₁ := (turnoffOffloadLinks_linksOnly hturn).peersOk hok
    have hs₂ := hs₁.clearPeerList hok₁ hnil hclear
    exact (hs₂.modify p (f := data.fill t pIface) (fun _ => rfl) (fun _ => rfl)
      (.inr hactive)).of_same (announce_same hannounce)
  · have hs₀ := hs.modify p (f := data.fill t pIface) (fun _ => rfl) (fun _ => rfl) (.inr hactive)
    have hok₀ := hok.congr (modify_peer s p (f := data.fill t pIface) fun _ => rfl)
    have hflags : (s.modify p (data.fill t pIface)).flags p ≠ some (false, false) := by
      rw [flags_modify s p (f := data.fill t pIface) (fun _ => rfl), if_pos rfl, hc]
      simp
    exact (checkPotentialLink_pairsOk hinst hok₀ hs₀ hflags (hlists hact) hcheck).of_same
      (announce_same hannounce)

theorem handleClientInactive_pairsOk (hs : s.PairsOk)
    (hkeep : s.KeepsPairs ops t w (.eventCallback (.lanClientInactive data)))
    (h : s.handleClientInactive ops t data w = some (s', w')) : s'.PairsOk := by
  obtain ⟨-, rfl, -⟩ | ⟨p, r, s₁, c, hfind, hturn, hc, hend⟩ := handleClientInactive_cases h
  · exact hs
  have hs₁ := turnoffOffloadLinks_pairsOk (hkeep p hfind) hs hturn
  have hnil := (turnoffOffloadLinks_alone (hkeep p hfind) hs hturn).1
  have hs₂ := hs₁.modify p (f := fun c => { c with isActive := false }) (fun _ => rfl)
    (fun _ => rfl) (.inl hnil)
  obtain ⟨hpeer, rfl⟩ | ⟨-, rfl⟩ := hend
  · refine hs₂.erase (((turnoffOffloadLinks_linksOnly hturn).find _).trans hfind) ?_ fun q => ?_
    · rw [links_modify s₁ p (f := fun c => { c with isActive := false }) fun _ => rfl]
      exact hnil
    · rw [counted_congr (modify_peer s₁ p (f := fun c => { c with isActive := false })
        (fun _ => rfl) p)]
      exact counted_of_nil hc hpeer q
  · exact hs₂

theorem handleClientDisconnect_pairsOk (hok : s.PeersOk) (hs : s.PairsOk)
    (hkeep : s.KeepsPairs ops t w (.eventCallback (.lanClientDisconnect data)))
    (h : s.handleClientDisconnect ops t data w = some (s', w')) : s'.PairsOk := by
  obtain ⟨-, rfl, -⟩ | ⟨p, r, s₁, r', s₂, hfind, hturn, hclear, rfl⟩ := handleClientDisconnect_cases h
  · exact hs
  have hl := turnoffOffloadLinks_linksOnly hturn
  have hpeers := clearPeerList_peersOnly hclear
  have hs₁ := turnoffOffloadLinks_pairsOk (hkeep p hfind) hs hturn
  have hnil := (turnoffOffloadLinks_alone (hkeep p hfind) hs hturn).1
  have hs₂ := hs₁.clearPeerList (hl.peersOk hok) hnil hclear
  obtain ⟨-, hcounted⟩ := turnoff_clearPeerList hok hturn hclear
  refine hs₂.erase ?_ ((hpeers.links p).trans hnil) fun q => ?_
  · rw [hpeers.find, hl.find, hfind]
  · rw [hcounted, if_pos (Or.inl rfl)]

theorem handleClientPowerSave_pairsOk (hs : s.PairsOk)
    (h : s.handleClientPowerSave ops t data w = some (s', w')) : s'.PairsOk := by
  obtain ⟨-, rfl, -⟩ | ⟨p, r, -, -, ⟨-, rfl⟩ | ⟨-, rfl⟩⟩ := handleClientPowerSave_cases h
  · exact hs
  · exact hs
  · refine hs.modify p (fun _ => rfl) (fun _ => rfl) (.inr fun c hc => ?_)
    cases hc

theorem addFltFrom_numOffloadPair {i n : Nat} {client : Ptr}
    (h : addFltFrom ops t client i n s w = some (r, s', w')) :
    s'.numOffloadPair = s.numOffloadPair := by
  induction n generalizing i s w with
  | zero =>
    cases h
    rfl
  | succ n ih =>
    obtain ⟨c, link, p, -, -, -, ⟨-, -, rfl⟩ | ⟨flt, w₁, s₁, p₁, -, rfl, -, hrest⟩⟩ :=
      addFltFrom_succ h
    · rfl
    · obtain ⟨-, rfl, -⟩ | ⟨back, flt', w₂, -, -, hrest⟩ := hrest
      · rfl
      · have hsame := ih hrest
        exact hsame

theorem handleClientPowerRecover_pairsOk (hinst : ops.Installs) (hok : s.PeersOk) (hs : s.PairsOk)
    (hkeep : s.KeepsPairs ops t w (.eventCallback (.lanClientPowerRecover data)))
    (h : s.handleClientPowerRecover cfg ops t data w = some (s', w')) : s'.PairsOk := by
  obtain ⟨rfl, -⟩ | ⟨p, c, r, s₁, w₁, hfind, hc, hact, hsave, hadd, hend⟩ :=
    handleClientPowerRecover_cases h
  · exact hs
  · have hnew := hkeep p s₁ w₁ hfind (by rw [flags_of_mem hc, hact, hsave])
    obtain ⟨c₀, -, hloop⟩ := addFltRules_cases hadd
    have hl := addFltRules_linksOnly hadd
    have hlinks := addFltRules_links hadd
    have hnum := addFltFrom_numOffloadPair hloop
    have hs₁ : s₁.PairsOk := hs.of_links hlinks hnum hl.counted fun q hq =>
      hs.awake q ((hl.flags q).symm.trans hq)
    obtain ⟨-, rfl, -⟩ | ⟨rfl, s₂, hcheck, hgen⟩ := hend
    · exact hs₁
    obtain ⟨c₁, hc₁, -⟩ := hl.exists_mem hc
    have hs₂ := hs₁.modify p (f := fun c => { c with isActive := true, isPowersave := false })
      (fun _ => rfl) (fun _ => rfl) (.inr fun c hc => by cases hc)
    have hok₂ := (hl.peersOk hok).congr (modify_peer s₁ p
      (f := fun c => { c with isActive := true, isPowersave := false }) fun _ => rfl)
    have hflags : (s₁.modify p fun c =>
        { c with isActive := true, isPowersave := false }).flags p ≠ some (false, false) := by
      rw [flags_modify s₁ p
        (f := fun c => { c with isActive := true, isPowersave := false }) (fun _ => rfl),
        if_pos rfl, hc₁]
      simp
    exact (checkPotentialLink_pairsOk hinst hok₂ hs₂ hflags (hnew hadd) hcheck).of_same
      (generateNewConnection_same hgen)

theorem handleNewLan2lanConnection_pairsOk (hinst : ops.Installs) (hok : s.PeersOk)
    (hs : s.PairsOk)
    (hkeep : s.KeepsPairs ops t w (.eventCallback (.lanToLanNewConnection conn)))
    (h : s.handleNewLan2lanConnection ops t conn w = some (s', w')) : s'.PairsOk := by
  obtain ⟨-, rfl, -⟩ | ⟨a, b, r, s₁, c, d, ha, hb, hadd, hc, hd, hend⟩ :=
    handleNewLan2lanConnection_cases h
  · exact hs
  · obtain ⟨hab, hback⟩ := hkeep a b ha hb
    have hs₁ := hs.addConnection hok hab hadd
    have hok₁ := hok.addConnection hadd
    obtain ⟨-, rfl, -⟩ | ⟨⟨rfl, hca, hda⟩, hlinks⟩ := hend
    · exact hs₁
    have hfirst : s.counted a b = none := by
      rw [← Option.isNone_iff_eq_none]
      exact (addConnection_res hok hadd).symm
    have hflags : ∀ {p e}, s₁.mem p = some e → s.flags p = some (e.isActive, e.isPowersave) :=
      fun he => ((addConnection_peersOnly hadd).flags _).symm.trans (flags_of_mem he)
    have hnot : b ∉ s₁.links a := by
      rw [(addConnection_peersOnly hadd).links]
      exact fun hmem => hs.peers a b hmem hfirst
    have hpeer : s₁.counted a b ≠ none := by
      rw [addConnection_counted hok hadd hab, if_pos (Or.inl ⟨rfl, rfl⟩)]
      exact Option.some_ne_none _
    obtain h₁ | ⟨s₂, w₂, h₁, h₂ | ⟨s₃, h₂, rfl⟩⟩ := hlinks
    · obtain ⟨-, hnum, hsame⟩ := addOffloadLink_spec hinst h₁
      have hl := addOffloadLink_linksOnly h₁
      exact hs₁.of_links (fun q => (hsame q).trans (by simp)) hnum hl.counted fun q hq =>
        hs₁.awake q ((hl.flags q).symm.trans hq)
    · obtain ⟨hres₁, hres₂, -⟩ := addOffloadLink_two hinst hab h₁ h₂
      have hacc := hback s₁ s₂ w₂ hfirst (by rw [hflags hc, hca]; rfl)
        (by rw [hflags hd, hda]; rfl) hadd h₁
      exact absurd (hres₂.mpr ⟨(hres₁.mp rfl).1, hacc⟩) Bool.false_ne_true
    · refine hs₁.link hok₁ hinst hpeer hnot ?_ ?_ h₁ h₂
      · rw [flags_of_mem hc, hca]
        simp
      · rw [flags_of_mem hd, hda]
        simp

theorem uncountPeer_none (hnone : s.counted a b = none) (h : s.uncountPeer a b = some (r, s')) :
    r = false ∧ s' = s := by
  obtain ⟨c, hc, ⟨-, hr, hs'⟩ | ⟨x, n, hx, -, -⟩⟩ := uncountPeer_cases h
  · exact ⟨hr, hs'⟩
  · rw [counted_of_mem hc, hx] at hnone
    cases hnone

theorem PairsOk.reap (hs : s.PairsOk) (hfind : s.find key = some p)
    (h : s.reap key p = some s') : s'.PairsOk := by
  obtain ⟨c, hc, ⟨⟨hact, hsave, hnil⟩, rfl⟩ | ⟨-, rfl⟩⟩ := reap_cases h
  · refine hs.erase hfind (hs.awake p ?_) (counted_of_nil hc hnil)
    rw [flags_of_mem hc, hact, hsave]
  · exact hs

theorem handleDelLan2lanConnection_pairsOk (hok : s.PeersOk) (hs : s.PairsOk)
    (hkeep : s.KeepsPairs ops t w (.eventCallback (.lanToLanDelConnection conn)))
    (h : s.handleDelLan2lanConnection ops t conn w = some (s', w')) : s'.PairsOk := by
  obtain ⟨-, rfl, -⟩ | ⟨a, b, r, s₁, ha, hb, hremove, hend⟩ := handleDelLan2lanConnection_cases h
  · exact hs
  have hpeers := removeConnection_peersOnly hremove
  obtain ⟨E, hE⟩ := hs.pairs
  have hE₁ : s₁.Pairs E := hE.of_links hpeers.links hpeers.numOffloadPair
  have hawake₁ : ∀ p, s₁.flags p = some (false, false) → s₁.links p = [] := fun p hp =>
    (hpeers.links p).trans (hs.awake p ((hpeers.flags p).symm.trans hp))
  by_cases hab : a = b
  · subst hab
    obtain ⟨r₁, s₀, h₁, h₂⟩ := removeConnection_cases hremove
    obtain ⟨-, rfl⟩ := uncountPeer_none (hs.stranger a) h₁
    obtain ⟨rfl, rfl⟩ := uncountPeer_none (hs.stranger a) h₂
    obtain ⟨-, rfl, -⟩ | ⟨hr, -⟩ := hend
    · exact hs
    · cases hr
  · have hcounted := removeConnection_counted hok hremove hab
    have hstranger₁ : ∀ p, s₁.counted p p = none := by
      intro p
      rw [hcounted, if_neg, hs.stranger]
      rintro (⟨rfl, rfl⟩ | ⟨rfl, rfl⟩) <;> exact hab rfl
    -- what is linked is counted, but for the two clients
    have hpeers₁ : ∀ p q, ¬ (p = a ∧ q = b ∨ p = b ∧ q = a) → q ∈ s₁.links p →
        s₁.counted p q ≠ none := by
      intro p q hne hq
      rw [hpeers.links] at hq
      rw [hcounted, if_neg hne]
      exact hs.peers p q hq
    obtain ⟨rfl, rfl, -⟩ | ⟨rfl, s₂, s₃, hlinks, hsrc, hdst⟩ := hend
    · refine ⟨⟨E, hE₁⟩, fun p q hq => ?_, hstranger₁, hawake₁⟩
      by_cases hpq : p = a ∧ q = b ∨ p = b ∧ q = a
      · have hlinked : s.counted a b ≠ none := by
          rw [hpeers.links] at hq
          obtain ⟨rfl, rfl⟩ | ⟨rfl, rfl⟩ := hpq
          · exact hs.peers _ _ hq
          · rw [hok.symm]
            exact hs.peers _ _ hq
        have hmore : s.counted a b ≠ some 1 := fun hone =>
          Bool.false_ne_true ((removeConnection_res hok hremove hab).mpr hone)
        rw [hcounted, if_pos hpq]
        obtain ⟨n, hn⟩ := Option.ne_none_iff_exists'.mp hlinked
        rw [hn] at hmore ⊢
        rw [oneLess, Option.bind_some, if_neg fun h0 => hmore (by rw [Int.sub_eq_zero.mp h0])]
        exact Option.some_ne_none _
      · exact hpeers₁ p q hpq hq
    · have hl := eraseLinks_linksOnly hlinks
      have hsub := eraseLinks_linksSub hlinks
      have hdel : b ∈ s₁.links a → ops.Deletes := by
        rw [hpeers.links]
        exact hkeep a b ha hb
      obtain ⟨⟨E₂, hE₂⟩, hnot⟩ := eraseLinks_pairs hdel hE₁ hab hawake₁ hlinks
      have hs₂ : s₂.PairsOk := by
        refine ⟨⟨E₂, hE₂⟩, fun p q hq => ?_, fun p => (hl.counted p p).trans (hstranger₁ p),
          fun p hp => ?_⟩
        · rw [hl.counted]
          refine hpeers₁ p q ?_ (hsub p q hq)
          rintro (⟨rfl, rfl⟩ | ⟨rfl, rfl⟩)
          · exact hnot hq
          · exact hnot ((hE₂.linked.symm _ _).mp hq)
        · have hnil := hawake₁ p ((hl.flags p).symm.trans hp)
          exact List.eq_nil_iff_forall_not_mem.mpr fun q hq => by
            have := hsub p q hq
            rw [hnil] at this
            cases this
      have ha₂ : s₂.find (srcKey conn) = some a := by rw [hl.find, hpeers.find, ha]
      have hb₂ : s₂.find (dstKey conn) = some b := by rw [hl.find, hpeers.find, hb]
      exact (hs₂.reap ha₂ hsrc).reap (reap_find_of_live ha₂ hb₂ hsrc (reap_live hdst)) hdst

theorem handle_pairsOk {i : Input} (hinst : ops.Installs) (hwf : s.Wf) (hok : s.PeersOk)
    (hs : s.PairsOk) (hkeep : s.KeepsPairs ops t w i) (h : s.handle cfg ops t w i = some (s', w')) :
    s'.PairsOk := by
  match i with
  | .eventCallback (.lanClientActive data) =>
    obtain ⟨-, rfl, -⟩ | ⟨pIface, hif, h⟩ := handle_active_cases h
    · exact hs
    · exact handleClientActive_pairsOk hinst hwf hok hs hif hkeep h
  | .eventCallback (.lanClientInactive data) => exact handleClientInactive_pairsOk hs hkeep h
  | .eventCallback (.lanClientDisconnect data) => exact handleClientDisconnect_pairsOk hok hs hkeep h
  | .eventCallback (.lanClientPowerSave data) => exact handleClientPowerSave_pairsOk hs h
  | .eventCallback (.lanClientPowerRecover data) =>
    exact handleClientPowerRecover_pairsOk hinst hok hs hkeep h
  | .eventCallback (.lanToLanNewConnection conn) =>
    exact handleNewLan2lanConnection_pairsOk hinst hok hs hkeep h
  | .eventCallback (.lanToLanDelConnection conn) =>
    exact handleDelLan2lanConnection_pairsOk hok hs hkeep h
  | .handleNewConnection conn => exact hs.of_same (handle_new_same h)
  | .handleDelConnection conn => exact hs.of_same (handle_del_same h)

end Handlers

end Side

/-! ## Runs -/

section Runs

variable {w₀ : ω} {tr : List ((Input × Ifaces ω) × Unit)} {s : LanToLan × ω}

/-- No rule is refused, and the input keeps the links in pairs. -/
def PairsStay (s : LanToLan × ω) (c : Input × Ifaces ω) : Prop :=
  c.2.Installs ∧ ∀ t, c.1.iptype = some t → (s.1.side t).KeepsPairs c.2 t s.2 c.1

theorem run_pairsOk (run : Run (step cfg) PairsStay (LanToLan.init, w₀) tr s) (t : IpType) :
    (s.1.side t).Wf ∧ (s.1.side t).PeersOk ∧ (s.1.side t).PairsOk := by
  revert t
  refine run.invariant
    (fun _ s => ∀ t, (s.1.side t).Wf ∧ (s.1.side t).PeersOk ∧ (s.1.side t).PairsOk) ?_ ?_
  · intro t
    rw [LanToLan.side_init]
    exact ⟨.init, .init, .init⟩
  · intro _ s c s' _ hs hstay hstep
    refine step_sides (P := fun _ d => d.Wf ∧ d.PeersOk ∧ d.PairsOk) hs hstep ?_
    intro t d w htype hd
    obtain ⟨hwf, hok, hpairs⟩ := hs t
    obtain ⟨hwf', hok'⟩ := Side.handle_peersOk hwf hok hd
    exact ⟨hwf', hok', Side.handle_pairsOk hstay.1 hwf hok hpairs (hstay.2 t htype) hd⟩

/-- **Links come in pairs.** In every state of a run in which no rule is refused and every input keeps
    the links in pairs: a client is linked to another if and only if the other one is linked to it, once,
    never to itself, and only if each is a peer of the other; and `num_offload_pair` is the number of the
    pairs that are linked, which is `MAX_OFFLOAD_PAIR` at most. -/
theorem run_link_pairs (run : Run (step cfg) PairsStay (LanToLan.init, w₀) tr s) (t : IpType) :
    (∀ p q, q ∈ (s.1.side t).links p ↔ p ∈ (s.1.side t).links q) ∧
      (∀ p, ((s.1.side t).links p).Nodup ∧ p ∉ (s.1.side t).links p) ∧
      (∀ p q, q ∈ (s.1.side t).links p →
        (s.1.side t).counted p q ≠ none ∧ (s.1.side t).counted q p ≠ none) ∧
      ∃ E : Finset (Sym2 Ptr), (∀ p q, s(p, q) ∈ E ↔ q ∈ (s.1.side t).links p) ∧
        (s.1.side t).numOffloadPair.toNat = E.card ∧ E.card ≤ maxOffloadPair := by
  obtain ⟨-, hok, hs⟩ := run_pairsOk run t
  obtain ⟨E, hE⟩ := hs.pairs
  refine ⟨hs.symm, fun p => ⟨hE.linked.nodup p, hE.linked.loopless p⟩, fun p q hq => ?_,
    E, hE.linked.mem, hE.card.symm, hE.le⟩
  have hpeer := hs.peers p q hq
  exact ⟨hpeer, hok.symm p q ▸ hpeer⟩

/-! ### A link made again -/

/-- Two active clients have a connection, and the first one goes to power save. -/
def saveInputs : List Input :=
  [.eventCallback (.lanClientActive (v4Client 0xc0a80101#32 1 0)),
    .eventCallback (.lanClientActive (v4Client 0xc0a80201#32 2 1)),
    .eventCallback (.lanToLanNewConnection (v4Connection 0xc0a80101#32 0xc0a80201#32)),
    .eventCallback (.lanClientPowerSave (v4Client 0xc0a80101#32 1 0))]

/-- It is active again. -/
def returnInput : Input := .eventCallback (.lanClientActive (v4Client 0xc0a80101#32 1 0))

theorem willing_installs : willing.Installs := fun _ _ _ _ => rfl

/-- A client that is active again after power save is linked twice to a peer it was linked to, and
    counted so. -/
theorem run_link_twice :
    ∃ s tr, Run (step subnetConfig) (fun _ c => c.2.Installs) (LanToLan.init, ()) tr s ∧
      s.1.v4.links 0 = [1, 1] ∧ s.1.v4.numOffloadPair = 2 := by
  have hlinks : (exec (step subnetConfig) (LanToLan.init, ())
      ((saveInputs ++ [returnInput]).map fun i => (i, willing))).toOption.map
        (fun x => (x.1.1.v4.links 0, x.1.1.v4.numOffloadPair)) = some ([1, 1], 2) := by
    decide +kernel
  obtain ⟨s, tr, hexec, hlinks⟩ := exec_of_map hlinks
  have hpair := hlinks
  refine ⟨s, tr, Run.of_exec (C := fun c => c.2.Installs) hexec fun c hc => ?_,
    congrArg Prod.fst hpair, congrArg Prod.snd hpair⟩
  obtain ⟨i, -, rfl⟩ := List.mem_map.mp hc
  exact willing_installs

theorem willing_accepts {t : IpType} {s s' : Side} {a b : Ptr} {w w' : Unit}
    {ops : Ifaces Unit} (h : addOffloadLink ops t a b s w = some (true, s', w')) :
    s'.accepts willing t w' b a = true := by
  obtain ⟨-, hr, -⟩ | ⟨c, d, hc, hd, -, ⟨-, hr, -⟩ | ⟨link, -, -, rfl⟩⟩ := addOffloadLink_cases h
  · cases hr
  · cases hr
  · unfold Side.accepts
    rw [Side.mem_modify, Side.mem_modify, hc, hd]
    by_cases hba : b = a
    · subst hba
      simp [willing]
    · simp [hba, willing]

/-- A test that an input makes no link again, if the interfaces are `willing`. -/
def linksNew (s : LanToLan × Unit) (i : Input) : Bool :=
  match i with
  | .eventCallback (.lanClientActive data) =>
    (s.1.v4.find (data.key .v4)).isNone && (s.1.v6.find (data.key .v6)).isNone
  | .eventCallback (.lanClientPowerRecover _) => false
  | .eventCallback (.lanToLanNewConnection conn) =>
    (s.1.side conn.iptype).find (Side.srcKey conn) != (s.1.side conn.iptype).find (Side.dstKey conn)
  | _ => true

theorem linksNew_sound (s : LanToLan × Unit) (c : Input × Ifaces Unit) (hc : c.2 = willing)
    (h : linksNew s c.1 = true) : PairsStay s c := by
  have hdel : c.2.Deletes := by
    rw [hc]
    exact fun _ _ _ _ => rfl
  refine ⟨hc ▸ willing_installs, fun t htype => ?_⟩
  rcases hi : c.1 with (data | data | data | data | data | conn | conn) | conn | conn
  · rw [hi, linksNew, Bool.and_eq_true, Option.isNone_iff_eq_none, Option.isNone_iff_eq_none] at h
    intro p _ _ hp
    cases t with
    | v4 => exact absurd (h.1.symm.trans hp) (by simp)
    | v6 => exact absurd (h.2.symm.trans hp) (by simp)
  · exact fun _ _ _ => hdel
  · exact fun _ _ _ => hdel
  · trivial
  · rw [hi] at h
    cases h
  · rw [hi] at h htype
    cases htype
    intro a b ha hb
    refine ⟨?_, fun s₁ s₂ w₁ _ _ _ _ hlink => hc ▸ willing_accepts hlink⟩
    rintro rfl
    rw [linksNew, ha, hb] at h
    simp at h
  · exact fun _ _ _ _ _ => hdel
  · trivial
  · trivial

/-- Two active clients are linked, and stay linked when one of them goes to power save. -/
theorem run_link_pairs_example :
    ∃ s tr, Run (step subnetConfig) PairsStay (LanToLan.init, ()) tr s ∧ s.1.v4.links 0 = [1] ∧
      0 ∈ s.1.v4.links 1 ∧
      ∃ E : Finset (Sym2 Ptr), (∀ p q, s(p, q) ∈ E ↔ q ∈ s.1.v4.links p) ∧ 1 = E.card := by
  have hmeet : allMeet (step subnetConfig) (fun s c => linksNew s c.1) (LanToLan.init, ())
      (saveInputs.map fun i => (i, willing)) = true := by decide +kernel
  have hlinks : (exec (step subnetConfig) (LanToLan.init, ())
      (saveInputs.map fun i => (i, willing))).toOption.map
        (fun x => (x.1.1.v4.links 0, x.1.1.v4.numOffloadPair)) = some ([1], 1) := by decide +kernel
  obtain ⟨s, tr, hexec, hlinks⟩ := exec_of_map hlinks
  have hpair := hlinks
  have hlist : s.1.v4.links 0 = [1] := congrArg Prod.fst hpair
  have hnum : s.1.v4.numOffloadPair = 1 := congrArg Prod.snd hpair
  have run : Run (step subnetConfig) PairsStay (LanToLan.init, ()) tr s := by
    refine Run.of_exec_of_allMeet (fun s c hc => linksNew_sound s c ?_) hexec hmeet
    obtain ⟨i, -, rfl⟩ := List.mem_map.mp hc
    rfl
  obtain ⟨hsymm, -, -, E, hE, hcard, -⟩ := run_link_pairs run .v4
  refine ⟨s, tr, run, hlist, (hsymm 0 1).mp (hlist ▸ List.mem_cons_self ..), E, hE, ?_⟩
  rw [← hcard]
  exact (congrArg BitVec.toNat hnum).symm

end Runs

end Nx508j.Ipacm.Lan2Lan
