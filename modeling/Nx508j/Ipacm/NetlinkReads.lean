import Nx508j.Ipacm.NetlinkEvents

/-! # What the netlink decoder reads

A call that posts the events of a decoded message reads nothing more. So whether a call stays inside
the received bytes is a matter of the layout of the buffer. -/

namespace Nx508j.Ipacm

open Nx508j.Lib

namespace Netlink

open NlM

/-! ## Posting the events -/

/-- A part of a call that lets no decoder start, takes no event back, and ends the call early only
    with `E`. -/
def Quiet {α : Type} (E : NlExit → Prop) (x : NlM α) : Prop :=
  ∀ s, ((exec x s).2.decoded = s.decoded ∧ s.posted <+: (exec x s).2.posted) ∧
    ∀ e, (exec x s).1 = .error e → E e

namespace Quiet

variable {α β : Type} {E : NlExit → Prop} {x y : NlM α} {env : Nat → Bool}

theorem pure (a : α) : Quiet E (Pure.pure a : NlM α) :=
  fun _ => ⟨⟨rfl, List.prefix_refl _⟩, fun _ h => nomatch h⟩

theorem throw {e : NlExit} (he : E e) : Quiet E (MonadExcept.throw e : NlM α) := by
  intro s
  refine ⟨⟨rfl, List.prefix_refl _⟩, fun e' h => ?_⟩
  cases h
  exact he

theorem modify {f : NlState → NlState} (hf : ∀ s, (f s).decoded = s.decoded)
    (hposted : ∀ s, (f s).posted = s.posted) : Quiet E (modify f : NlM Unit) :=
  fun s => ⟨⟨hf s, hposted s ▸ List.prefix_refl _⟩, fun _ h => nomatch h⟩

theorem get : Quiet E (MonadState.get : NlM NlState) :=
  fun _ => ⟨⟨rfl, List.prefix_refl _⟩, fun _ h => nomatch h⟩

theorem ask : Quiet E (Netlink.ask env) :=
  fun _ => ⟨⟨rfl, List.prefix_refl _⟩, fun _ h => nomatch h⟩

/-- One after the other. -/
theorem bind {f : α → NlM β} (hx : Quiet E x) (hf : ∀ a, Quiet E (f a)) :
    Quiet E (x >>= f) := by
  intro s
  obtain ⟨⟨hdecoded, hposted⟩, hexit⟩ := hx s
  rw [exec_bind]
  split
  · next a s' heq =>
    rw [heq] at hdecoded hposted
    obtain ⟨⟨hdecoded', hposted'⟩, hexit'⟩ := hf a s'
    exact ⟨⟨hdecoded'.trans hdecoded, hposted.trans hposted'⟩, hexit'⟩
  · next e s' heq =>
    rw [heq] at hdecoded hposted hexit
    exact ⟨⟨hdecoded, hposted⟩, fun e' h => hexit e' (by simpa using h)⟩

theorem ite {c : Prop} [Decidable c] (hx : c → Quiet E x) (hy : ¬ c → Quiet E y) :
    Quiet E (if c then x else y) := by
  split
  · next h => exact hx h
  · next h => exact hy h

theorem postEvt (e : NlEvent) : Quiet E (Netlink.postEvt e) :=
  fun _ => ⟨⟨rfl, List.prefix_append _ _⟩, fun _ h => nomatch h⟩

section

variable (henv : ∀ i, env i = false → E .failure)
include henv

/-- A request for memory that fails ends the message. -/
theorem need : Quiet E (Netlink.need env) := by
  intro s
  unfold Netlink.need
  rw [exec_bind, exec_ask]
  dsimp only
  split
  · exact ⟨⟨rfl, List.prefix_refl _⟩, fun _ h => nomatch h⟩
  · next hfalse => exact throw (henv _ (by simpa using hfalse)) _

theorem post (e : NlEvent) : Quiet E (do
    Netlink.need env
    Netlink.need env
    Netlink.postEvt e) :=
  (need henv).bind fun _ => (need henv).bind fun _ => postEvt e

theorem newLink {link : IfInfoMsg}
    (hbridge : link.ifiFamily = afBridge → E .success) : Quiet E (Netlink.newLink env link) := by
  have husb : Quiet E (if link.ifiFlags &&& iffRunning ≠ 0 ∧ link.ifiFlags &&& iffLowerUp ≠ 0 then do
        Netlink.need env
        Netlink.need env
        Netlink.postEvt (.usbLinkUp link.ifiIndex)
      else if link.ifiFlags &&& iffLowerUp = 0 then do
        Netlink.need env
        Netlink.need env
        Netlink.postEvt (.linkDown link.ifiIndex)
      else Pure.pure ()) :=
    ite (fun _ => post henv _) fun _ => ite (fun _ => post henv _) fun _ => pure ()
  refine ite (fun h => (throw (hbridge h)).bind fun _ => ?_) fun _ => ?_
  · refine ite (fun _ => (need henv).bind fun _ => (need henv).bind fun _ => ?_) fun _ => husb
    exact ite (fun _ => (postEvt _).bind fun _ => husb) fun _ => (postEvt _).bind fun _ => husb
  · refine ite (fun _ => (need henv).bind fun _ => (need henv).bind fun _ => ?_) fun _ => husb
    exact ite (fun _ => (postEvt _).bind fun _ => husb) fun _ => (postEvt _).bind fun _ => husb

theorem delLink {link : IfInfoMsg}
    (hbridge : link.ifiFamily = afBridge → E .success) : Quiet E (Netlink.delLink env link) := by
  exact ite (fun h => (throw (hbridge h)).bind fun _ => post henv _) fun _ => post henv _

theorem newAddr (addr : AddrInfo) : Quiet E (Netlink.newAddr env addr) := by
  refine ask.bind fun _ => (need henv).bind fun _ => ?_
  exact ite (fun _ => postEvt _) fun _ => postEvt _

theorem newBootRoute (route : RouteInfo) : Quiet E (Netlink.newBootRoute env route) := by
  refine ite (fun _ => ?_) fun _ => ?_
  · refine (need henv).bind fun _ => bind (modify (fun _ => rfl) fun _ => rfl) fun _ => ?_
    exact (need henv).bind fun _ => get.bind fun _ => postEvt _
  · refine (need henv).bind fun _ => (need henv).bind fun _ => ite (fun _ => postEvt _) fun _ => ?_
    exact bind (modify (fun _ => rfl) fun _ => rfl) fun _ => get.bind fun _ => postEvt _

theorem newKernelRoute (route : RouteInfo) : Quiet E (Netlink.newKernelRoute env route) := by
  have hgateway : Quiet E (if route.has ipaRtaParamGateway then do
        Netlink.need env
        Netlink.postEvt (.routeAdd (defaultV6 route))
      else Pure.pure ()) :=
    ite (fun _ => (need henv).bind fun _ => postEvt _) fun _ => pure ()
  refine (need henv).bind fun _ => ite (fun _ => ?_) fun _ => hgateway
  exact (need henv).bind fun _ => (postEvt _).bind fun _ => hgateway

/-- Route messages post what they have read. -/
theorem newRoute (route : RouteInfo) : Quiet E (Netlink.newRoute env route) := by
  have hkernel : Quiet E (if route.kernelV6 then Netlink.newKernelRoute env route
      else Pure.pure ()) := ite (fun _ => newKernelRoute henv route) fun _ => pure ()
  exact ite (fun _ => (newBootRoute henv route).bind fun _ => hkernel) fun _ => hkernel

theorem delBootRoute (route : RouteInfo) : Quiet E (Netlink.delBootRoute env route) := by
  refine ite (fun _ => ?_) fun _ => ?_
  · refine (need henv).bind fun _ => (need henv).bind fun _ => ?_
    exact bind (modify (fun _ => rfl) fun _ => rfl) fun _ => get.bind fun _ => postEvt _
  · refine (need henv).bind fun _ => (need henv).bind fun _ => ?_
    exact ite (fun _ => postEvt _) fun _ => postEvt _

theorem delRoute (route : RouteInfo) : Quiet E (Netlink.delRoute env route) := by
  have hkernel : Quiet E (if route.kernelV6 then Netlink.delKernelRoute env route
      else Pure.pure ()) := by
    refine ite (fun _ => ?_) fun _ => pure ()
    refine (need henv).bind fun _ => ite (fun _ => ?_) fun _ => pure ()
    exact (need henv).bind fun _ => postEvt _
  exact ite (fun _ => (delBootRoute henv route).bind fun _ => hkernel) fun _ => hkernel

theorem neigh (event : EventDataAll → NlEvent)
    (info : NeighInfo) : Quiet E (Netlink.neigh env event info) := post henv _

end

end Quiet

/-! ## The decoders -/

/-- The computation returns. -/
def Returns {α : Type} (x : Except NlFault α) : Prop := ∃ a, x = .ok a

/-- `k` bytes can be copied from `o` on. Nothing is read if `k` is zero. -/
def Copies (m : Region UInt8) (o k : Nat) : Prop := 0 < k → o + k ≤ m.size

section Decoders

variable {α β : Type} {m : Region UInt8}

theorem returns_ok (a : α) : Returns (.ok a : Except NlFault α) := ⟨a, rfl⟩

theorem not_returns (f : NlFault) : ¬ Returns (.error f : Except NlFault α) :=
  fun ⟨_, h⟩ => nomatch h

/-- A read returns when it is inside the buffer. -/
theorem returns_inside {o k : Nat} {x : Except NlFault α} :
    Returns (do inside m o k; x) ↔ o + k ≤ m.size ∧ Returns x := by
  unfold inside
  split
  · next h => exact (and_iff_right h).symm
  · next h => exact iff_of_false (not_returns _) fun hx => h hx.1

theorem returns_bind {x : Except NlFault α} {f : α → Except NlFault β} {P : Prop}
    (hf : ∀ a, Returns (f a) ↔ P) : Returns (x >>= f) ↔ Returns x ∧ P := by
  cases x with
  | ok a => exact (hf a).trans (and_iff_right (returns_ok a)).symm
  | error e => exact iff_of_false (not_returns e) fun h => not_returns e h.1

theorem copies_zero (m : Region UInt8) (o : Nat) : Copies m o 0 := fun h => absurd h (by decide)

theorem copies_iff {o k : Nat} (hk : 0 < k) : Copies m o k ↔ o + k ≤ m.size :=
  ⟨fun h => h hk, fun h _ => h⟩

theorem returns_copyAddr {family data : Nat} {f : SockaddrStorage → Except NlFault α}
    (hf : ∀ addr, Returns (f addr)) :
    Returns (copyAddr m family data >>= f) ↔ Copies m data ssDataSize := by
  rw [copies_iff (by decide), returns_bind (P := True) fun addr => iff_true_intro (hf addr),
    and_true]
  unfold copyAddr
  rw [returns_inside]
  exact and_iff_left (returns_ok _)

/-- How many bytes an attribute has copied from its payload. -/
def copySize (nlmsgType rtaType : Nat) : Nat :=
  if nlmsgType = rtmNewaddr then
    if rtaType = ifaAddress then ssDataSize else 0
  else if nlmsgType = rtmNewneigh ∨ nlmsgType = rtmDelneigh then
    if rtaType = ndaDst then ssDataSize
    else if rtaType = ndaLladdr then saDataSize
    else 0
  else if rtaType = rtaDst ∨ rtaType = rtaSrc ∨ rtaType = rtaGateway then ssDataSize
  else if rtaType = rtaIif ∨ rtaType = rtaOif ∨ rtaType = rtaPriority then 4
  else 0

theorem returns_word {data : Nat} {a : α} :
    Returns (do inside m data 4; .ok a) ↔ Copies m data 4 := by
  rw [copies_iff (by decide), returns_inside]
  exact and_iff_left (returns_ok a)

theorem returns_addrAttr (rtaType data : Nat) (info : AddrInfo) :
    Returns (addrAttr m rtaType data info) ↔ Copies m data (copySize rtmNewaddr rtaType) := by
  unfold addrAttr copySize
  rw [if_pos rfl]
  split
  · exact returns_copyAddr fun _ => returns_ok _
  · exact iff_of_true (returns_ok _) (copies_zero m data)

theorem returns_neighAttr {nlmsgType : Nat}
    (htype : nlmsgType = rtmNewneigh ∨ nlmsgType = rtmDelneigh) (rtaType data : Nat)
    (info : NeighInfo) :
    Returns (neighAttr m rtaType data info) ↔ Copies m data (copySize nlmsgType rtaType) := by
  have hne : nlmsgType ≠ rtmNewaddr := by
    rcases htype with rfl | rfl <;> decide
  unfold neighAttr copySize
  rw [if_neg hne, if_pos htype]
  split
  · exact returns_copyAddr fun _ => returns_ok _
  split
  · rw [copies_iff (by decide), returns_inside]
    exact and_iff_left (returns_ok _)
  · exact iff_of_true (returns_ok _) (copies_zero m data)

theorem returns_routeAttr {nlmsgType : Nat}
    (htype : nlmsgType = rtmNewroute ∨ nlmsgType = rtmDelroute) (rtaType data : Nat)
    (info : RouteInfo) :
    Returns (routeAttr m rtaType data info) ↔ Copies m data (copySize nlmsgType rtaType) := by
  have hne : nlmsgType ≠ rtmNewaddr ∧ ¬ (nlmsgType = rtmNewneigh ∨ nlmsgType = rtmDelneigh) := by
    rcases htype with rfl | rfl <;> decide
  unfold routeAttr copySize
  rw [if_neg hne.1, if_neg hne.2]
  by_cases hdst : rtaType = rtaDst
  · rw [if_pos hdst, if_pos (.inl hdst)]
    exact returns_copyAddr fun _ => returns_ok _
  by_cases hsrc : rtaType = rtaSrc
  · rw [if_neg hdst, if_pos hsrc, if_pos (.inr (.inl hsrc))]
    exact returns_copyAddr fun _ => returns_ok _
  by_cases hgateway : rtaType = rtaGateway
  · rw [if_neg hdst, if_neg hsrc, if_pos hgateway, if_pos (.inr (.inr hgateway))]
    exact returns_copyAddr fun _ => returns_ok _
  rw [if_neg hdst, if_neg hsrc, if_neg hgateway,
    if_neg (not_or.2 ⟨hdst, not_or.2 ⟨hsrc, hgateway⟩⟩)]
  by_cases hiif : rtaType = rtaIif
  · rw [if_pos hiif, if_pos (.inl hiif)]
    exact returns_word
  by_cases hoif : rtaType = rtaOif
  · rw [if_neg hiif, if_pos hoif, if_pos (.inr (.inl hoif))]
    exact returns_word
  by_cases hpriority : rtaType = rtaPriority
  · rw [if_neg hiif, if_neg hoif, if_pos hpriority, if_pos (.inr (.inr hpriority))]
    exact returns_word
  rw [if_neg hiif, if_neg hoif, if_neg hpriority,
    if_neg (not_or.2 ⟨hiif, not_or.2 ⟨hoif, hpriority⟩⟩)]
  exact iff_of_true (returns_ok _) (copies_zero m data)

/-- The attribute at `o`, of attributes that are taken to end at `stop`: what is looked at of its
    header was received, and if it is accepted so was what is copied of it, and the next attribute
    begins no later than `stop`. -/
def AttrFits (m : Region UInt8) (size : Nat → Nat) (stop o : Nat) : Prop :=
  rtattrSize ≤ stop - o → o + 2 ≤ m.size ∧
    (Accepted rtattrSize (le16 m o) (stop - o) → o + rtattrSize ≤ m.size ∧
      Copies m (o + rtattrSize) (size (le16 m (o + 2))) ∧ o + align4 (le16 m o) ≤ stop)

/-- The attributes from `o` on fit. -/
def AttrsFit (m : Region UInt8) (size : Nat → Nat) (stop o : Nat) : Prop :=
  ∀ o', Chain rtattrSize (le16 m) (fun _ => True) stop o o' → AttrFits m size stop o'

/-- The loop over attributes fits when each does. -/
theorem returns_decodeAttrs {attr : Nat → Nat → α → Except NlFault α} {size : Nat → Nat}
    (hattr : ∀ rtaType data info, Returns (attr rtaType data info) ↔
      Copies m data (size rtaType)) {fuel : Nat} :
    ∀ {rtah buflen : Nat} (info : α), buflen < fuel →
      (Returns (decodeAttrs m attr fuel rtah buflen info) ↔
        AttrsFit m size (rtah + buflen) rtah) := by
  -- each round takes at least the four bytes of a header off `buflen`
  induction fuel with
  | zero => exact fun _ h => absurd h (Nat.not_lt_zero _)
  | succ fuel ih =>
    intro rtah buflen info hfuel
    unfold AttrsFit
    rw [Chain.forall_iff]
    have hleft : rtah + buflen - rtah = buflen := by omega
    unfold decodeAttrs
    split
    · next hshort =>
      refine iff_of_true (returns_ok _) ⟨fun h => ?_, fun h => ?_⟩
      · rw [hleft] at h
        omega
      · rw [hleft] at h
        exact absurd h.1 (by omega)
    next hlong =>
    rw [returns_inside]
    unfold AttrFits
    rw [hleft]
    by_cases haccepted : rtattrSize ≤ le16 m rtah ∧ le16 m rtah ≤ buflen
    · have hacc : Accepted rtattrSize (le16 m rtah) buflen :=
        ⟨by omega, haccepted.1, haccepted.2⟩
      have hhead : rtah + 2 + 2 = rtah + rtattrSize := rfl
      rw [if_pos haccepted, returns_inside, hhead]
      have hround : ∀ info, Returns (if align4 (le16 m rtah) ≤ buflen then
            decodeAttrs m attr fuel (rtah + align4 (le16 m rtah))
              (buflen - align4 (le16 m rtah)) info
          else .error .wraps) ↔
          align4 (le16 m rtah) ≤ buflen ∧
            AttrsFit m size (rtah + buflen) (rtah + align4 (le16 m rtah)) := by
        intro info
        split
        · next hle =>
          have hpos := le_align4 (le16 m rtah)
          have hstop : rtah + align4 (le16 m rtah) + (buflen - align4 (le16 m rtah)) =
              rtah + buflen := by omega
          rw [ih info (by omega), hstop]
          exact (and_iff_right hle).symm
        · next hle => exact iff_of_false (not_returns _) fun h => hle h.1
      rw [returns_bind hround, hattr]
      constructor
      · rintro ⟨htwo, hfour, hcopies, hle, hrest⟩
        exact ⟨fun _ => ⟨htwo, fun _ => ⟨hfour, hcopies, by omega⟩⟩, fun _ _ => hrest⟩
      · rintro ⟨hhere, hrest⟩
        obtain ⟨htwo, hthis⟩ := hhere hacc.1
        obtain ⟨hfour, hcopies, hle⟩ := hthis hacc
        exact ⟨htwo, hfour, hcopies, by omega, hrest hacc trivial⟩
    · rw [if_neg haccepted]
      constructor
      · rintro ⟨htwo, -⟩
        exact ⟨fun _ => ⟨htwo, fun h => absurd h.2 haccepted⟩, fun h => absurd h.2 haccepted⟩
      · rintro ⟨hhere, -⟩
        exact ⟨(hhere (by omega)).1, returns_ok _⟩

end Decoders

/-! ## One message -/

def IsLink (nlmsgType : Nat) : Prop := nlmsgType = rtmNewlink ∨ nlmsgType = rtmDellink

def IsRoute (nlmsgType : Nat) : Prop := nlmsgType = rtmNewroute ∨ nlmsgType = rtmDelroute

def IsNeigh (nlmsgType : Nat) : Prop := nlmsgType = rtmNewneigh ∨ nlmsgType = rtmDelneigh

instance : DecidablePred IsLink := fun _ => inferInstanceAs (Decidable (_ ∨ _))

instance : DecidablePred IsRoute := fun _ => inferInstanceAs (Decidable (_ ∨ _))

instance : DecidablePred IsNeigh := fun _ => inferInstanceAs (Decidable (_ ∨ _))

/-- The messages that are decoded. -/
def Handled (nlmsgType : Nat) : Prop :=
  IsLink nlmsgType ∨ nlmsgType = rtmNewaddr ∨ IsRoute nlmsgType ∨ IsNeigh nlmsgType

instance : DecidablePred Handled := fun _ => inferInstanceAs (Decidable (_ ∨ _))

/-- The size of the struct behind the message header. -/
def fixedSize (nlmsgType : Nat) : Nat :=
  if IsLink nlmsgType then 16 else if nlmsgType = rtmNewaddr then 8 else 12

/-- A message of which the decoder starts at `buffer` fits: the struct behind the header was
    received, and the attributes fit. They are taken to end a struct too late: only the message header
    is taken off the `buflen` bytes that are left. -/
def MsgFits (m : Region UInt8) (buffer buflen nlmsgType : Nat) : Prop :=
  Handled nlmsgType → buffer + nlmsghdrSize + fixedSize nlmsgType ≤ m.size ∧
    (¬ IsLink nlmsgType → AttrsFit m (copySize nlmsgType)
      (buffer + nlmsghdrSize + fixedSize nlmsgType + (buflen - nlmsghdrSize))
      (buffer + nlmsghdrSize + fixedSize nlmsgType))

/-- A link message of a bridge, which ends the call. -/
def Bridge (m : Region UInt8) (buffer nlmsgType : Nat) : Prop :=
  IsLink nlmsgType ∧ (m.get (buffer + nlmsghdrSize)).toNat = afBridge

/-- A part of a call that lets a decoder start at `buffer`, takes no event back, faults if the decoder
    does not fit, and ends the call otherwise only with `E`. -/
structure Decodes (E : NlExit → Prop) (buffer : Nat) (fits : Prop) (x : NlM Unit) : Prop where
  fault : ¬ fits → ∀ s, ∃ f, (exec x s).1 = .error (.fault f)
  decoded : ∀ s, (exec x s).2.decoded = s.decoded ++ [buffer]
  posted : ∀ s, s.posted <+: (exec x s).2.posted
  exit : fits → ∀ s e, (exec x s).1 = .error e → E e

section Decodes

variable {α : Type} {E : NlExit → Prop} {m : Region UInt8} {env : Nat → Bool}
  {buffer buflen nlmsgType : Nat} {fits : Prop} {x : NlM Unit} {s : NlState}

/-- The decoder first, then what is posted. -/
theorem exec_decodeFrom (decoder : Nat → Except NlFault α) (k : α → NlM Unit) (s : NlState) :
    exec (decodeFrom buffer decoder >>= k) s = match decoder buffer with
      | .ok a => exec (k a) { s with decoded := s.decoded ++ [buffer] }
      | .error f => (.error (.fault f), { s with decoded := s.decoded ++ [buffer] }) := by
  unfold decodeFrom
  rw [exec_bind, exec_bind, exec_modify]
  cases decoder buffer with
  | ok a => rfl
  | error f => rfl

/-- A message is read inside the buffer when its decoder fits. -/
theorem Decodes.decodeFrom {decoder : Nat → Except NlFault α} {k : α → NlM Unit}
    (hfits : Returns (decoder buffer) ↔ fits)
    (hk : ∀ a, decoder buffer = .ok a → Quiet E (k a)) :
    Decodes E buffer fits (Netlink.decodeFrom buffer decoder >>= k) := by
  refine ⟨fun hnot s => ?_, fun s => ?_, fun s => ?_, fun hfit s => ?_⟩
  · rw [exec_decodeFrom]
    cases hdec : decoder buffer with
    | ok a => exact absurd (hfits.1 ⟨a, hdec⟩) hnot
    | error f => exact ⟨f, rfl⟩
  · rw [exec_decodeFrom]
    cases hdec : decoder buffer with
    | ok a => exact (hk a hdec _).1.1
    | error f => rfl
  · rw [exec_decodeFrom]
    cases hdec : decoder buffer with
    | ok a => exact (hk a hdec { s with decoded := s.decoded ++ [buffer] }).1.2
    | error f => exact List.prefix_refl _
  · obtain ⟨a, hdec⟩ := hfits.2 hfit
    rw [exec_decodeFrom, hdec]
    exact (hk a hdec _).2

theorem Decodes.after_modify {f : NlState → NlState} (hf : ∀ s, (f s).decoded = s.decoded)
    (hposted : ∀ s, (f s).posted = s.posted)
    (hx : Decodes E buffer fits x) : Decodes E buffer fits (modify f >>= fun _ => x) := by
  have hexec : ∀ s, NlM.exec (modify f >>= fun _ => x) s = NlM.exec x (f s) := by
    intro s
    rw [exec_bind, exec_modify]
  refine ⟨fun hnot s => ?_, fun s => ?_, fun s => ?_, fun hfit s => ?_⟩
  · rw [hexec]
    exact hx.fault hnot _
  · rw [hexec, hx.decoded, hf]
  · rw [hexec, ← hposted]
    exact hx.posted _
  · rw [hexec]
    exact hx.exit hfit _

theorem Decodes.after_get {k : NlState → NlM Unit} (hk : ∀ s, Decodes E buffer fits (k s)) :
    Decodes E buffer fits (get >>= k) := by
  have hexec : ∀ s, NlM.exec (get >>= k) s = NlM.exec (k s) s := by
    intro s
    rw [exec_bind, exec_get]
  refine ⟨fun hnot s => ?_, fun s => ?_, fun s => ?_, fun hfit s => ?_⟩
  · rw [hexec]
    exact (hk s).fault hnot s
  · rw [hexec]
    exact (hk s).decoded s
  · rw [hexec]
    exact (hk s).posted s
  · rw [hexec]
    exact (hk s).exit hfit s

theorem fixedSize_addr : fixedSize rtmNewaddr = 8 := by decide

theorem fixedSize_route (h : IsRoute nlmsgType) : fixedSize nlmsgType = 12 := by
  rcases h with rfl | rfl <;> decide

theorem fixedSize_neigh (h : IsNeigh nlmsgType) : fixedSize nlmsgType = 12 := by
  rcases h with rfl | rfl <;> decide

theorem fixedSize_link (h : IsLink nlmsgType) : fixedSize nlmsgType = 16 := if_pos h

theorem returns_decodeRtmLink (h : IsLink nlmsgType) :
    Returns (decodeRtmLink m buffer) ↔ MsgFits m buffer buflen nlmsgType := by
  unfold decodeRtmLink MsgFits
  rw [returns_inside, fixedSize_link h]
  constructor
  · exact fun hret _ => ⟨hret.1, fun hnot => absurd h hnot⟩
  · exact fun hfits => ⟨(hfits (.inl h)).1, returns_ok _⟩

/-- Header, fixed part and attributes. -/
theorem msgFits_iff (hhandled : Handled nlmsgType) (hlink : ¬ IsLink nlmsgType) :
    MsgFits m buffer buflen nlmsgType ↔
      buffer + nlmsghdrSize + fixedSize nlmsgType ≤ m.size ∧
        AttrsFit m (copySize nlmsgType)
          (buffer + nlmsghdrSize + fixedSize nlmsgType + (buflen - nlmsghdrSize))
          (buffer + nlmsghdrSize + fixedSize nlmsgType) := by
  constructor
  · exact fun h => ⟨(h hhandled).1, (h hhandled).2 hlink⟩
  · exact fun h _ => ⟨h.1, fun _ => h.2⟩

theorem returns_decodeRtmAddr (info : AddrInfo) :
    Returns (decodeRtmAddr m buffer buflen info) ↔ MsgFits m buffer buflen rtmNewaddr := by
  unfold decodeRtmAddr
  rw [returns_inside, returns_decodeAttrs returns_addrAttr _ (by omega),
    msgFits_iff (by decide) (by decide), fixedSize_addr]

theorem returns_decodeRtmRoute (h : IsRoute nlmsgType) (info : RouteInfo) :
    Returns (decodeRtmRoute m buffer buflen info) ↔ MsgFits m buffer buflen nlmsgType := by
  have hlink : ¬ IsLink nlmsgType := by
    rcases h with rfl | rfl <;> decide
  unfold decodeRtmRoute
  rw [returns_inside, returns_decodeAttrs (returns_routeAttr h) _ (by omega),
    msgFits_iff (.inr (.inr (.inl h))) hlink, fixedSize_route h]

theorem returns_decodeRtmNeigh (h : IsNeigh nlmsgType) (info : NeighInfo) :
    Returns (decodeRtmNeigh m buffer buflen info) ↔ MsgFits m buffer buflen nlmsgType := by
  have hlink : ¬ IsLink nlmsgType := by
    rcases h with rfl | rfl <;> decide
  unfold decodeRtmNeigh
  rw [returns_inside, returns_decodeAttrs (returns_neighAttr h) _ (by omega),
    msgFits_iff (.inr (.inr (.inr h))) hlink, fixedSize_neigh h]

theorem decodeRtmLink_family {link : IfInfoMsg} (h : decodeRtmLink m buffer = .ok link) :
    link.ifiFamily = (m.get (buffer + nlmsghdrSize)).toNat := by
  unfold decodeRtmLink inside at h
  dsimp only at h
  split at h
  · rw [← Except.ok.inj h]
  · cases h

/-- **One message that is decoded.** -/
theorem handleMsg_decodes (henv : ∀ i, env i = false → E .failure)
    (hbridge : Bridge m buffer nlmsgType → E .success) (h : Handled nlmsgType) :
    Decodes E buffer (MsgFits m buffer buflen nlmsgType)
      (handleMsg env m buffer buflen nlmsgType) := by
  unfold handleMsg
  by_cases hlink : nlmsgType = rtmNewlink ∨ nlmsgType = rtmDellink
  · rw [if_pos hlink]
    refine .after_modify (fun _ => rfl) (fun _ => rfl)
      (.decodeFrom (returns_decodeRtmLink hlink) fun link hdec => ?_)
    have hstop : link.ifiFamily = afBridge → E .success :=
      fun hfamily => hbridge ⟨hlink, (decodeRtmLink_family hdec).symm.trans hfamily⟩
    refine Quiet.bind (.modify (fun _ => rfl) fun _ => rfl) fun _ => ?_
    exact .ite (fun _ => .newLink henv hstop) fun _ => .delLink henv hstop
  rw [if_neg hlink]
  by_cases haddr : nlmsgType = rtmNewaddr
  · rw [if_pos haddr]
    refine .after_get fun s => .decodeFrom (haddr ▸ returns_decodeRtmAddr _) fun addr _ => ?_
    exact Quiet.bind (.modify (fun _ => rfl) fun _ => rfl) fun _ => .newAddr henv addr
  rw [if_neg haddr]
  by_cases hroute : nlmsgType = rtmNewroute ∨ nlmsgType = rtmDelroute
  · rw [if_pos hroute]
    refine .after_get fun s => .decodeFrom (returns_decodeRtmRoute hroute _) fun route _ => ?_
    refine Quiet.bind (.modify (fun _ => rfl) fun _ => rfl) fun _ => ?_
    exact .ite (fun _ => .newRoute henv route) fun _ => .delRoute henv route
  rw [if_neg hroute]
  by_cases hneigh : nlmsgType = rtmNewneigh ∨ nlmsgType = rtmDelneigh
  · rw [if_pos hneigh]
    refine .after_get fun s => .decodeFrom (returns_decodeRtmNeigh hneigh _) fun info _ => ?_
    exact Quiet.bind (.modify (fun _ => rfl) fun _ => rfl) fun _ => .neigh henv _ info
  · rcases h with h | h | h | h <;> contradiction

/-- Other messages are not looked at. -/
theorem handleMsg_unhandled (h : ¬ Handled nlmsgType) :
    handleMsg env m buffer buflen nlmsgType = pure () := by
  obtain ⟨hlink, haddr, hroute, hneigh⟩ : ¬ IsLink nlmsgType ∧ nlmsgType ≠ rtmNewaddr ∧
      ¬ IsRoute nlmsgType ∧ ¬ IsNeigh nlmsgType :=
    ⟨fun h' => h (.inl h'), fun h' => h (.inr (.inl h')), fun h' => h (.inr (.inr (.inl h'))),
      fun h' => h (.inr (.inr (.inr h')))⟩
  exact (if_neg hlink).trans ((if_neg haddr).trans ((if_neg hroute).trans (if_neg hneigh)))

/-- A message of a bridge ends the datagram. -/
theorem handleMsg_bridge (hbridge : Bridge m buffer nlmsgType)
    (hfits : MsgFits m buffer buflen nlmsgType) (s : NlState) :
    (exec (handleMsg env m buffer buflen nlmsgType) s).1 = .error .success := by
  obtain ⟨hlink, hfamily⟩ := hbridge
  obtain ⟨link, hdec⟩ := (returns_decodeRtmLink hlink).2 hfits
  have hstop : link.ifiFamily = afBridge := (decodeRtmLink_family hdec).trans hfamily
  have hhandler : ∀ s, (exec (if nlmsgType = rtmNewlink then newLink env link
      else delLink env link) s).1 = .error .success := by
    intro s
    split
    · unfold newLink
      rw [if_pos hstop, exec_bind, exec_throw]
    · unfold delLink
      rw [if_pos hstop, exec_bind, exec_throw]
  have hlink' : nlmsgType = rtmNewlink ∨ nlmsgType = rtmDellink := hlink
  unfold handleMsg
  rw [if_pos hlink', exec_bind, exec_modify]
  dsimp only
  rw [exec_decodeFrom, hdec]
  dsimp only
  rw [exec_bind, exec_modify]
  exact hhandler _

end Decodes

/-! ## The loop over the messages -/

/-- The message at `p` does not end the call. -/
def GoesOn (m : Region UInt8) (buffer p : Nat) : Prop := ¬ Bridge m buffer (le16 m (p + 4))

/-- The message at `p`, if it is accepted, fits, and the next one begins no later than `stop`. -/
def HeaderFits (m : Region UInt8) (buffer stop p : Nat) : Prop :=
  Accepted nlmsghdrSize (le32 m p) (stop - p) →
    MsgFits m buffer (stop - p) (le16 m (p + 4)) ∧
      (GoesOn m buffer p → p + align4 (le32 m p) ≤ stop)

/-- The messages from `p` on fit. -/
def MsgsFit (m : Region UInt8) (buffer stop p : Nat) : Prop :=
  ∀ p', Chain nlmsghdrSize (le32 m) (GoesOn m buffer) stop p p' → HeaderFits m buffer stop p'

section Loop

variable {m : Region UInt8} {env : Nat → Bool} {buffer fuel p buflen : Nat}

theorem exec_inside {α : Type} {o k : Nat} (h : o + k ≤ m.size) (x : NlM α) (s : NlState) :
    exec (do load (inside m o k); x) s = exec x s := by
  unfold inside
  rw [if_pos h]
  rfl

/-- One turn of the loop. -/
theorem exec_nlmsgLoop (hsize : p + buflen ≤ m.size) (s : NlState) :
    exec (nlmsgLoop env m buffer (fuel + 1) p buflen) s =
      if Accepted nlmsghdrSize (le32 m p) buflen then
        match exec (handleMsg env m buffer buflen (le16 m (p + 4))) s with
        | (.ok _, s') =>
          if align4 (le32 m p) ≤ buflen then
            exec (nlmsgLoop env m buffer fuel (p + align4 (le32 m p))
              (buflen - align4 (le32 m p))) s'
          else (.error (.fault .wraps), s')
        | (.error e, s') => (.error e, s')
      else (.ok (), s) := by
  have hhdr : nlmsghdrSize = 16 := rfl
  rw [nlmsgLoop]
  by_cases hshort : buflen < nlmsghdrSize
  · have hnot : ¬ Accepted nlmsghdrSize (le32 m p) buflen := fun h => absurd h.1 (by omega)
    rw [if_pos hshort, if_neg hnot]
    rfl
  rw [if_neg hshort, exec_inside (by omega)]
  by_cases haccepted : nlmsghdrSize ≤ le32 m p ∧ le32 m p ≤ buflen
  · have hacc : Accepted nlmsghdrSize (le32 m p) buflen := ⟨by omega, haccepted⟩
    rw [if_pos haccepted, if_pos hacc, exec_inside (by omega), exec_bind]
    rcases exec (handleMsg env m buffer buflen (le16 m (p + 4))) s with ⟨e | a, s'⟩
    · rfl
    · dsimp only
      split
      · rfl
      · rfl
  · have hnot : ¬ Accepted nlmsghdrSize (le32 m p) buflen := fun h => haccepted h.2
    rw [if_neg haccepted, if_neg hnot]
    rfl

/-- If all messages fit, the loop reads inside the buffer. -/
theorem nlmsgLoop_safe : ∀ {p buflen : Nat}, buflen < fuel → p + buflen ≤ m.size →
    MsgsFit m buffer (p + buflen) p → ∀ s f,
      (exec (nlmsgLoop env m buffer fuel p buflen) s).1 ≠ .error (.fault f) := by
  induction fuel with
  | zero => exact fun h => absurd h (Nat.not_lt_zero _)
  | succ fuel ih =>
    intro p buflen hfuel hsize hfit s f
    obtain ⟨hhere, hrest⟩ := Chain.forall_iff.1 hfit
    have hleft : p + buflen - p = buflen := by omega
    unfold HeaderFits at hhere
    rw [hleft] at hhere hrest
    rw [exec_nlmsgLoop hsize]
    split
    · next haccepted =>
      obtain ⟨hmsg, hnext⟩ := hhere haccepted
      have hpos := le_align4 (le32 m p)
      have hhdr : nlmsghdrSize = 16 := rfl
      have hlen := haccepted.2.1
      by_cases hbridge : Bridge m buffer (le16 m (p + 4))
      · have hexit : (exec (handleMsg env m buffer buflen _) s).1 = _ :=
          handleMsg_bridge hbridge hmsg s
        split
        · next heq =>
          rw [heq] at hexit
          cases hexit
        · next heq =>
          rw [heq] at hexit
          cases hexit
          exact fun h => nomatch h
      have hle : align4 (le32 m p) ≤ buflen := by
        have := hnext hbridge
        omega
      have hstop : p + align4 (le32 m p) + (buflen - align4 (le32 m p)) = p + buflen := by
        omega
      have hexit : ∀ e, (exec (handleMsg env m buffer buflen (le16 m (p + 4))) s).1 =
          .error e → e ≠ .fault f := by
        by_cases hhandled : Handled (le16 m (p + 4))
        · exact (handleMsg_decodes (E := fun e => e ≠ .fault f) (fun _ _ => NlExit.noConfusion)
            (fun _ => NlExit.noConfusion) hhandled).exit hmsg s
        · rw [handleMsg_unhandled hhandled]
          exact fun e h => nomatch h
      split
      · next s' heq =>
        rw [if_pos hle]
        refine ih (by omega) (by omega) ?_ s' f
        rw [hstop]
        exact hrest haccepted hbridge
      · next e s' heq =>
        rw [heq] at hexit
        exact fun h => hexit e rfl (by simpa using h)
    · exact fun h => nomatch h

/-- An environment that grants everything. -/
def granted : Nat → Bool := fun _ => true

/-- If it reads inside the buffer, all messages fit. -/
theorem nlmsgLoop_fits : ∀ {p buflen : Nat}, buflen < fuel → p + buflen ≤ m.size → ∀ s,
    (∀ f, (exec (nlmsgLoop granted m buffer fuel p buflen) s).1 ≠ .error (.fault f)) →
      MsgsFit m buffer (p + buflen) p := by
  induction fuel with
  | zero => exact fun h => absurd h (Nat.not_lt_zero _)
  | succ fuel ih =>
    intro p buflen hfuel hsize s hsafe
    have hleft : p + buflen - p = buflen := by omega
    unfold MsgsFit
    rw [Chain.forall_iff]
    unfold HeaderFits
    rw [hleft]
    rw [exec_nlmsgLoop hsize] at hsafe
    by_cases hrefused : ¬ Accepted nlmsghdrSize (le32 m p) buflen
    · exact ⟨fun h => absurd h hrefused, fun h => absurd h hrefused⟩
    have haccepted := Decidable.not_not.1 hrefused
    rw [if_pos haccepted] at hsafe
    have hpos := le_align4 (le32 m p)
    have hhdr : nlmsghdrSize = 16 := rfl
    have hlen := haccepted.2.1
    have hmsg : MsgFits m buffer buflen (le16 m (p + 4)) := by
      by_cases hhandled : Handled (le16 m (p + 4))
      · by_contra hnot
        obtain ⟨f, hfault⟩ : ∃ f, (exec (handleMsg granted m buffer buflen _) s).1 =
            .error (.fault f) :=
          (handleMsg_decodes (E := fun _ => True) (fun _ _ => trivial) (fun _ => trivial)
            hhandled).fault hnot s
        refine hsafe f ?_
        split
        · next heq =>
          rw [heq] at hfault
          cases hfault
        · next heq =>
          rw [heq] at hfault
          exact hfault
      · exact fun h => absurd h hhandled
    -- the message is handled, and the loop goes on
    have hround : GoesOn m buffer p → p + align4 (le32 m p) ≤ p + buflen ∧
        MsgsFit m buffer (p + buflen) (p + align4 (le32 m p)) := by
      intro hgo
      have hexit : ∀ e, (exec (handleMsg granted m buffer buflen (le16 m (p + 4))) s).1 ≠
          .error e := by
        by_cases hhandled : Handled (le16 m (p + 4))
        · exact (handleMsg_decodes (E := fun _ => False) (fun _ => Bool.noConfusion) hgo
            hhandled).exit hmsg s
        · rw [handleMsg_unhandled hhandled]
          exact fun e h => nomatch h
      split at hsafe
      · next s' heq =>
        split at hsafe
        · next hle =>
          have hstop : p + align4 (le32 m p) + (buflen - align4 (le32 m p)) =
              p + buflen := by omega
          have hrest := ih (by omega) (by omega) s' hsafe
          rw [hstop] at hrest
          exact ⟨by omega, hrest⟩
        · exact absurd rfl (hsafe .wraps)
      · next e s' heq => exact absurd (congrArg Prod.fst heq) (hexit e)
    exact ⟨fun _ => ⟨hmsg, fun hgo => (hround hgo).1⟩, fun _ hgo => (hround hgo).2⟩

end Loop

/-- **The reads.** A call stays inside the received bytes, lets no count go below zero and ends,
    whatever the environment answers, just if the messages fit. -/
theorem decodeNlmsg_inside_iff (m : Region UInt8) :
    (∀ env asked f, (decodeNlmsg env asked m 0 m.size).1 ≠ .error (.fault f)) ↔
      MsgsFit m 0 m.size 0 := by
  have hstop : 0 + m.size = m.size := Nat.zero_add _
  constructor
  · intro hsafe
    have hfit := nlmsgLoop_fits (Nat.lt_succ_self m.size) (Nat.le_of_eq hstop) _ (hsafe granted 0)
    rwa [hstop] at hfit
  · intro hfit env asked f
    exact nlmsgLoop_safe (Nat.lt_succ_self m.size) (Nat.le_of_eq hstop) (by rwa [hstop]) _ f

/-! ## Well-formed messages -/

/-- A message as the kernel makes it: it is aligned, the struct behind the header is there, and the
    attributes fill the rest. -/
structure WellFormed (m : Region UInt8) (p len : Nat) : Prop where
  received : p + len ≤ m.size
  length : le32 m p = len
  aligned : 4 ∣ len
  handled : Handled (le16 m (p + 4))
  fixed : nlmsghdrSize + fixedSize (le16 m (p + 4)) ≤ len
  attrs : Chain rtattrSize (le16 m) (fun _ => True) (p + len)
    (p + nlmsghdrSize + fixedSize (le16 m (p + 4))) (p + len)

theorem WellFormed.accepted {m : Region UInt8} {p len stop : Nat} (h : WellFormed m p len)
    (hstop : p + len ≤ stop) : Accepted nlmsghdrSize (le32 m p) (stop - p) := by
  have hfixed := h.fixed
  have hlength := h.length
  exact ⟨by omega, by omega, by omega⟩

/-- The address of an interface, as the kernel sends it: `RTM_NEWADDR` with one `IFA_ADDRESS`. -/
def newaddrBuffer : Region UInt8 where
  size := 32
  get := fun i => ([
    32, 0, 0, 0, 20, 0, 0, 0, 0, 0, 0, 0, 0, 0, 0, 0,
    2, 24, 0, 0, 3, 0, 0, 0,
    8, 0, 1, 0, 192, 168, 1, 1] : List UInt8).getD i 0

theorem decodeNlmsg_outside : ¬ ∀ m env asked f,
    (decodeNlmsg env asked m 0 m.size).1 ≠ .error (.fault f) := by
  intro hall
  exact hall newaddrBuffer granted 0 .outside (by decide)

end Netlink

end Nx508j.Ipacm
