import Nx508j.Ipacm.EthAddrs

/-! # The entries of an interface in the LAN-to-LAN table

Once `IPACM_LanToLan` has got the messages of an interface, its clients there should be clients that
the interface has. They are, as long as the messages to disconnect clients are for the addresses
that the clients became active with, and there is one for each address that goes. -/

namespace Nx508j.Ipacm.EthClients

open Nx508j.Lib Function
open Lan2Lan (IpType Mac Iface Key V6Addr LanClientData Event Input Ifaces Config LanToLan Side
  ClientInfo)

variable {this : Iface} {iface : EthIface} {t : IpType} {data : EventDataAll} {mac : Mac}

/-! ## Messages that are pending -/

/-- Which clients the table has for an interface: of which version, with which key and MAC address.
    -/
abbrev Held := IpType → Key → Mac → Prop

/-- The clients of an interface. -/
def held (this : Iface) (l : LanToLan) : Held := fun t key mac =>
  (l.side t).owner key = some (this, mac)

/-- The message is for a key. -/
def IsFor (msg : LanClientData) (t : IpType) (key : Key) : Prop :=
  (if msg.pIface = none then none else msg.iptype) = some t ∧ msg.key t = key

/-- The clients that the table can have after a message of the interface. -/
def effect (held : Held) (e : Event) : Held := fun t key mac =>
  match e with
  | .lanClientActive msg =>
    IsFor msg t key ∧ mac = msg.macAddr ∨ ¬ IsFor msg t key ∧ held t key mac
  | .lanClientInactive msg => ¬ IsFor msg t key ∧ held t key mac
  | .lanClientDisconnect msg => ¬ IsFor msg t key ∧ held t key mac
  | _ => held t key mac

/-- The clients that it can have after all of them. -/
def after (held : Held) (pending : List Event) : Held := pending.foldl effect held

section After

variable {h h' : Held} {e : Event} {es : List Event} {key : Key}

theorem effect_mono (hsub : ∀ t key mac, h t key mac → h' t key mac) (he : effect h e t key mac) :
    effect h' e t key mac := by
  cases e with
  | lanClientActive msg =>
    rcases he with hfor | ⟨hfor, hheld⟩
    · exact .inl hfor
    · exact .inr ⟨hfor, hsub t key mac hheld⟩
  | lanClientInactive msg | lanClientDisconnect msg => exact ⟨he.1, hsub t key mac he.2⟩
  | lanClientPowerSave msg | lanClientPowerRecover msg | lanToLanNewConnection conn
  | lanToLanDelConnection conn => exact hsub t key mac he

theorem after_mono (hsub : ∀ t key mac, h t key mac → h' t key mac) (he : after h es t key mac) :
    after h' es t key mac := by
  induction es generalizing h h' with
  | nil => exact hsub t key mac he
  | cons e es ih => exact ih (fun t key mac => effect_mono hsub) he

theorem after_append (h : Held) (es es' : List Event) :
    after h (es ++ es') = after (after h es) es' := List.foldl_append

theorem after_disconnects (h : Held) (msgs : List LanClientData) :
    after h (msgs.map .lanClientDisconnect) t key mac ↔
      (∀ msg ∈ msgs, ¬ IsFor msg t key) ∧ h t key mac := by
  induction msgs generalizing h with
  | nil => simp [after]
  | cons msg msgs ih =>
    have hcons : after h ((msg :: msgs).map .lanClientDisconnect) =
        after (effect h (.lanClientDisconnect msg)) (msgs.map .lanClientDisconnect) := rfl
    rw [hcons, ih, List.forall_mem_cons]
    simp only [effect]
    tauto

end After

theorem isFor_lanClient {key : Key} :
    IsFor (lanClient this data) t key ↔ t = data.iptype ∧ key = data.key := by
  have htype : (if (lanClient this data).pIface = none then none else (lanClient this data).iptype) =
      some data.iptype := rfl
  rw [IsFor, htype, Option.some.injEq]
  constructor
  · rintro ⟨rfl, rfl⟩
    exact ⟨rfl, key_lanClient this data⟩
  · rintro ⟨rfl, rfl⟩
    exact ⟨rfl, key_lanClient this data⟩

theorem isFor_disconnectMsg (h : data.LowZero) :
    IsFor (disconnectMsg this data) data.iptype data.key :=
  ⟨rfl, (key_disconnectMsg_eq_iff this data).2 h⟩

theorem effect_of_ne {h : Held} {e : Event} {key : Key} (hheld : h t key mac)
    (hne : (Input.eventCallback e).iptype ≠ some t) : effect h e t key mac := by
  cases e with
  | lanClientActive msg => exact .inr ⟨fun hfor => hne hfor.1, hheld⟩
  | lanClientInactive msg | lanClientDisconnect msg => exact ⟨fun hfor => hne hfor.1, hheld⟩
  | lanClientPowerSave msg | lanClientPowerRecover msg | lanToLanNewConnection conn
  | lanToLanDelConnection conn => exact hheld

theorem owner_of_update {l l' : Side} {msg : LanClientData} {key : Key} {o : Iface × Mac}
    (hl : l'.owner = update l.owner (msg.key t) none) (h : l'.owner key = some o) :
    ¬ IsFor msg t key ∧ l.owner key = some o := by
  rw [hl, update_apply] at h
  split at h
  · cases h
  next hne => exact ⟨fun hfor => hne hfor.2.symm, h⟩

/-- What the table makes of a message of the interface. A client that becomes inactive has to be
    without peers. -/
theorem held_deliver {ω : Type} {cfg : Config} {ops : Ifaces ω} {l l' : LanToLan × ω} {e : Event}
    {key : Key} {r : Unit} (hwf : ∀ t, (l.1.side t).Wf)
    (hstep : Lan2Lan.step cfg l (.eventCallback e, ops) = .ok (l', r))
    (hpeer : ∀ msg, e = .lanClientInactive msg → ∀ t ∈ msg.iptype,
      ∀ c ∈ (l.1.side t).client (msg.key t), c.pIface = this → c.peer = [])
    (h : held this l'.1 t key mac) : effect (held this l.1) e t key mac := by
  obtain ⟨hnone, rfl⟩ | ⟨t₀, side, w, htype, hside, rfl⟩ := Lan2Lan.step_cases hstep
  · exact effect_of_ne h (by rw [hnone]; exact (Option.some_ne_none t).symm)
  by_cases ht : t = t₀
  · subst ht
    rw [held, LanToLan.side_setSide_self] at h
    cases e with
    | lanClientActive msg =>
      obtain ⟨hpIface, -⟩ | ⟨pIface, -, hhandle⟩ := Side.handle_active_cases hside
      · rw [Input.iptype, if_pos hpIface] at htype
        cases htype
      by_cases hkey : msg.key t = key
      · refine .inl ⟨⟨htype, hkey⟩, ?_⟩
        obtain hl | ⟨⟨i, hi⟩, hl⟩ := Side.handleClientActive_owner (hwf t) hhandle
        · rw [hl, hkey, update_self] at h
          exact (congrArg Prod.snd (Option.some.inj h)).symm
        · rw [hl, ← hkey, hi] at h
          exact (congrArg Prod.snd (Option.some.inj h)).symm
      · refine .inr ⟨fun hfor => hkey hfor.2, ?_⟩
        obtain hl | ⟨-, hl⟩ := Side.handleClientActive_owner (hwf t) hhandle
        · rwa [hl, update_of_ne (Ne.symm hkey)] at h
        · rwa [hl] at h
    | lanClientInactive msg =>
      obtain hl | ⟨⟨c, hc, hne⟩, hl⟩ := Side.handleClientInactive_owner (hwf t) hside
      · exact owner_of_update hl h
      rw [hl] at h
      refine ⟨fun hfor => hne ?_, h⟩
      -- the client is one of the interface, and so it has no peers
      obtain ⟨hfor, rfl⟩ := hfor
      have hiptype : msg.iptype = some t := by
        split at hfor
        · cases hfor
        · exact hfor
      rw [Side.owner, hc, Option.map_some] at h
      exact hpeer msg rfl t hiptype c hc (congrArg Prod.fst (Option.some.inj h))
    | lanClientDisconnect msg =>
      exact owner_of_update (Side.handleClientDisconnect_owner (hwf t) hside) h
    | lanClientPowerSave msg =>
      rwa [Side.handleClientPowerSave_owner hside] at h
    | lanClientPowerRecover msg =>
      rwa [Side.handleClientPowerRecover_owner hside] at h
    | lanToLanNewConnection conn =>
      rwa [Side.handleNewLan2lanConnection_owner hside] at h
    | lanToLanDelConnection conn =>
      exact (Side.handleDelLan2lanConnection_shrinks (hwf t) hside).of_some h
  · refine effect_of_ne ?_ (by rw [htype]; exact fun heq => ht (Option.some.inj heq).symm)
    rwa [held, LanToLan.side_setSide_of_ne _ _ ht] at h

/-! ## Runs -/

/-- Whether a client came and did not go since. -/
def present {ω : Type} (mac : Mac) (tr : List (ClientInput ω)) : Bool :=
  tr.foldl (fun there i =>
    match i with
    | .neighClientIpAddrAdd _ _ _ data => there || data.macAddr = mac
    | .neighClientIpAddrDel _ data => there && data.macAddr ≠ mac
    | .linkDown _ => false
    | _ => there) false

/-- The message that makes a client inactive. -/
def inactiveMsg : Event → Option LanClientData
  | .lanClientInactive msg => some msg
  | _ => none

theorem EthTable.iptype_of_mem {s : EthTable} (h : data ∈ s.announced t) : data.iptype = t := by
  obtain ⟨i, -, h⟩ := mem_announced.1 h
  exact iptype_of_mem_announced h

namespace LanWorld

variable {ω : Type} {cfg : Config} {w w' : LanWorld ω}

/-- The addresses of the clients, of the versions that the interface has. -/
def announced (w : LanWorld ω) : List EventDataAll :=
  [IpType.v4, IpType.v6].flatMap fun t =>
    if w.ipType.has (IpType.family t) then w.table.announced t else []

theorem mem_announced : data ∈ w.announced ↔
    w.ipType.has (IpType.family data.iptype) = true ∧ data ∈ w.table.announced data.iptype := by
  rw [announced, List.mem_flatMap]
  constructor
  · rintro ⟨t, -, h⟩
    split at h
    next hhas =>
      obtain rfl := EthTable.iptype_of_mem h
      exact ⟨hhas, h⟩
    next => exact absurd h List.not_mem_nil
  · rintro ⟨hhas, h⟩
    refine ⟨data.iptype, ?_, by rwa [if_pos hhas]⟩
    cases data.iptype <;> simp

/-- The client that the next message makes inactive. -/
def inactivated (w : LanWorld ω) : Option ClientInfo :=
  (w.pending.head?.bind inactiveMsg).bind fun msg =>
    msg.iptype.bind fun t => (w.lan2lan.1.side t).client (msg.key t)

/-- The addresses that go with a step have messages of their own: a client has a new address, which
    replaces none; a client that goes has the address of the event and no other, and no peers when
    its message comes; addresses that are disconnected have nothing in their lower half, and the
    messages are posted. -/
def Meets (this : Iface) (iface : EthIface) (w : LanWorld ω) : ClientInput ω → Prop
  | .addrAdd _ => True
  | .neighClientIpAddrAdd hdr _ _ data =>
    w.isActive = true → w.ipType.has (IpType.family data.iptype) = true →
      w.table.Takes iface hdr data
  | .neighClientIpAddrDel _ data =>
    w.isActive = true → ∀ d ∈ w.announced, d.macAddr = data.macAddr →
      d.iptype = data.iptype ∧ d.key = data.key
  | .wanDownV6 a =>
    w.isActive = true → w.table.resets iface a = true → ∀ d ∈ w.announced, d.LowZero
  | .linkDown res => w.isActive = true → ∀ d ∈ w.announced, res = true ∧ d.LowZero
  | .deliver _ => ∀ c ∈ w.inactivated, c.pIface = this → c.peer = []
  | .other _ _ => True

instance decidableMeets (this : Iface) (iface : EthIface) (w : LanWorld ω) :
    (i : ClientInput ω) → Decidable (Meets this iface w i)
  | .addrAdd _ => isTrue trivial
  | .neighClientIpAddrAdd hdr _ _ data =>
    inferInstanceAs (Decidable (_ → _ → w.table.Takes iface hdr data))
  | .neighClientIpAddrDel _ _ => inferInstanceAs (Decidable (_ → ∀ d ∈ w.announced, _ → _))
  | .wanDownV6 _ => inferInstanceAs (Decidable (_ → _ → ∀ d ∈ w.announced, d.LowZero))
  | .linkDown _ => inferInstanceAs (Decidable (_ → ∀ d ∈ w.announced, _ ∧ d.LowZero))
  | .deliver _ => inferInstanceAs (Decidable (∀ c ∈ w.inactivated, _ → _))
  | .other _ _ => isTrue trivial

/-- The clients that the table has, or will have by the messages that are pending, are clients of
    the interface. -/
structure Inv (this : Iface) (tr : List (ClientInput ω)) (w : LanWorld ω) : Prop where
  wf : ∀ t, (w.lan2lan.1.side t).Wf ∧ (w.lan2lan.1.side t).PeersOk
  covered : ∀ t key mac, after (held this w.lan2lan.1) w.pending t key mac →
    w.isActive = true ∧ present mac tr = true ∧
      ∃ d ∈ w.announced, d.iptype = t ∧ d.key = key ∧ d.macAddr = mac

theorem inv_start (this : Iface) (w₀ : ω) : Inv this [] (start w₀) where
  wf := fun t => by
    rw [start, LanToLan.side_init]
    exact ⟨Side.Wf.init, Side.PeersOk.init⟩
  covered := by
    intro t key mac h
    have hheld : (LanToLan.init.side t).owner key = some (this, mac) := h
    rw [LanToLan.side_init] at hheld
    cases hheld

variable {tr : List (ClientInput ω)} {r : Unit}

/-! ### The events of the interface -/

theorem present_append (mac : Mac) (tr : List (ClientInput ω)) (i : ClientInput ω) :
    present mac (tr ++ [i]) =
      match i with
      | .neighClientIpAddrAdd _ _ _ data => present mac tr || data.macAddr = mac
      | .neighClientIpAddrDel _ data => present mac tr && data.macAddr ≠ mac
      | .linkDown _ => false
      | _ => present mac tr :=
  List.foldl_append

theorem IfaceIpType.has_of_add {ip : IfaceIpType} {f g : IpFamily} (h : ip.has g = true) :
    (ip.add f).has g = true := by
  revert h
  cases ip <;> cases f <;> cases g <;> decide

theorem Inv.addrAdd (h : Inv this tr w) (f : IpFamily) :
    Inv this (tr ++ [.addrAdd f]) { w with ipType := w.ipType.add f } where
  wf := h.wf
  covered := by
    intro t key mac hafter
    obtain ⟨hactive, hpresent, d, hd, hkey⟩ := h.covered t key mac hafter
    obtain ⟨hhas, hd⟩ := mem_announced.1 hd
    refine ⟨hactive, (present_append ..).trans hpresent, d, ?_, hkey⟩
    exact mem_announced.2 ⟨IfaceIpType.has_of_add hhas, hd⟩

theorem neighClientIpAddrAdd_eq (this : Iface) (iface : EthIface) (w : LanWorld ω)
    (hdr addr rule : Answers) (data : EventDataAll) :
    ∃ s', w.neighClientIpAddrAdd this iface hdr addr rule data =
        { w.post (handleLan2lanClientActive this w.ipType data .lanClientActive) with table := s' } ∧
      ∀ t, s'.announced t = ((w.table.handleEthHdrInit iface hdr
        data.macAddr).1.handleEthClientIpaddr iface addr data).1.announced t := by
  rw [neighClientIpAddrAdd]
  split
  next s' hs' =>
    rw [hs']
    exact ⟨s', rfl, fun _ => rfl⟩
  next s' hs' =>
    rw [hs']
    exact ⟨_, rfl, EthTable.announced_routeRule iface rule s' data.macAddr data.iptype⟩

theorem Inv.neighClientIpAddrAdd {hdr addr rule : Answers} (h : Inv this tr w)
    (hactive : w.isActive = true)
    (hmeets : Meets this iface w (.neighClientIpAddrAdd hdr addr rule data)) :
    Inv this (tr ++ [.neighClientIpAddrAdd hdr addr rule data])
      (w.neighClientIpAddrAdd this iface hdr addr rule data) := by
  obtain ⟨s', heq, hs'⟩ := neighClientIpAddrAdd_eq this iface w hdr addr rule data
  rw [heq]
  refine ⟨h.wf, fun t key mac hafter => ?_⟩
  -- what was there stays
  have hold : after (held this w.lan2lan.1) w.pending t key mac →
      w.isActive = true ∧ present mac (tr ++ [.neighClientIpAddrAdd hdr addr rule data]) = true ∧
        ∃ d, (w.ipType.has (IpType.family d.iptype) = true ∧ d ∈ s'.announced d.iptype) ∧
          d.iptype = t ∧ d.key = key ∧ d.macAddr = mac := by
    intro hafter
    obtain ⟨-, hpresent, d, hd, hkey⟩ := h.covered t key mac hafter
    obtain ⟨hhas, hd⟩ := mem_announced.1 hd
    refine ⟨hactive, ?_, d, ⟨hhas, ?_⟩, hkey⟩
    · rw [present_append, hpresent]
      rfl
    · rw [hs']
      by_cases ht : d.iptype = data.iptype
      · have htakes := hmeets hactive (by rwa [← ht])
        rw [ht] at hd ⊢
        exact (EthTable.announced_ipaddr_takes iface addr htakes).1 d hd
      · exact EthTable.announced_ipaddr_other iface addr ht
          (EthTable.announced_hdrInit iface hdr data.macAddr hd)
  have hmem : ∀ d, (w.ipType.has (IpType.family d.iptype) = true ∧ d ∈ s'.announced d.iptype) →
      d ∈ ({ w.post (handleLan2lanClientActive this w.ipType data .lanClientActive) with
        table := s' } : LanWorld ω).announced :=
    fun d hd => mem_announced.2 hd
  have hafter : after (after (held this w.lan2lan.1) w.pending)
      (handleLan2lanClientActive this w.ipType data .lanClientActive) t key mac := by
    rw [← after_append]
    exact hafter
  rw [handleLan2lanClientActive] at hafter
  split at hafter
  next hhas =>
    rcases hafter with ⟨hfor, rfl⟩ | ⟨-, hafter⟩
    · obtain ⟨rfl, rfl⟩ := isFor_lanClient.1 hfor
      obtain ⟨-, d, hd, hkey, hmac⟩ :=
        EthTable.announced_ipaddr_takes iface addr (hmeets hactive hhas)
      rw [← hs'] at hd
      have ht := EthTable.iptype_of_mem hd
      refine ⟨hactive, ?_, d, hmem d ?_, ht, hkey, hmac⟩
      · rw [present_append]
        simp [lanClient]
      · rw [ht]
        exact ⟨hhas, hd⟩
    · obtain ⟨hactive, hpresent, d, hd, hkey⟩ := hold hafter
      exact ⟨hactive, hpresent, d, hmem d hd, hkey⟩
  next =>
    obtain ⟨hactive, hpresent, d, hd, hkey⟩ := hold hafter
    exact ⟨hactive, hpresent, d, hmem d hd, hkey⟩

theorem Inv.neighClientIpAddrDel {a : Answers} (h : Inv this tr w) (hactive : w.isActive = true)
    (hmeets : Meets this iface w (.neighClientIpAddrDel a data)) :
    Inv this (tr ++ [.neighClientIpAddrDel a data])
      (w.neighClientIpAddrDel this iface a data) := by
  refine ⟨h.wf, fun t key mac hafter => ?_⟩
  have hafter : after (after (held this w.lan2lan.1) w.pending)
      (handleLan2lanClientActive this w.ipType data .lanClientInactive) t key mac := by
    rw [← after_append]
    exact hafter
  have hbefore : after (held this w.lan2lan.1) w.pending t key mac ∧
      ¬ (w.ipType.has (IpType.family data.iptype) = true ∧ t = data.iptype ∧ key = data.key) := by
    rw [handleLan2lanClientActive] at hafter
    split at hafter
    next hhas =>
      obtain ⟨hfor, hafter⟩ := hafter
      exact ⟨hafter, fun hdata => hfor (isFor_lanClient.2 hdata.2)⟩
    next hhas => exact ⟨hafter, fun hdata => hhas hdata.1⟩
  obtain ⟨-, hpresent, d, hd, ht, hkey, hmac⟩ := h.covered t key mac hbefore.1
  obtain ⟨hhas, htable⟩ := mem_announced.1 hd
  -- the address of the client that goes is the one of the event
  have hne : data.macAddr ≠ mac := by
    intro heq
    obtain ⟨hiptype, hdata⟩ := hmeets hactive d hd (hmac.trans heq.symm)
    exact hbefore.2 ⟨by rwa [← hiptype], ht.symm.trans hiptype, hkey.symm.trans hdata⟩
  refine ⟨hactive, ?_, d, mem_announced.2 ⟨hhas, ?_⟩, ht, hkey, hmac⟩
  · rw [present_append, hpresent]
    simpa using hne
  · exact EthTable.announced_down iface a htable (by rw [hmac]; exact Ne.symm hne)

theorem not_after_disconnects {H : Held} {l : List EventDataAll} {d : EventDataAll} {key : Key}
    (hd : d ∈ l) (hzero : d.LowZero) (ht : d.iptype = t) (hkey : d.key = key)
    (h : after H ((l.map (disconnectMsg this)).map .lanClientDisconnect) t key mac) : False := by
  rw [after_disconnects] at h
  subst ht hkey
  exact h.1 _ (List.mem_map_of_mem hd) (isFor_disconnectMsg hzero)

theorem Inv.wanDownV6 {a : Answers} (h : Inv this tr w) (hactive : w.isActive = true)
    (hmeets : Meets this iface w (.wanDownV6 a)) :
    Inv this (tr ++ [.wanDownV6 a]) (w.wanDownV6 this iface a) := by
  refine ⟨h.wf, fun t key mac hafter => ?_⟩
  have hafter : after (after (held this w.lan2lan.1) w.pending)
      ((w.table.handleLanClientResetRt this iface a .v6).2.map .lanClientDisconnect) t key mac := by
    rw [← after_append]
    exact hafter
  have hbefore := ((after_disconnects _ _).1 hafter).2
  obtain ⟨-, hpresent, d, hd, ht, hkey, hmac⟩ := h.covered t key mac hbefore
  obtain ⟨hhas, htable⟩ := mem_announced.1 hd
  refine ⟨hactive, (present_append ..).trans hpresent, d, mem_announced.2 ⟨hhas, ?_⟩, ht, hkey, hmac⟩
  have hgoal : d ∈ (w.table.handleLanClientResetRt this iface a .v6).1.announced d.iptype := by
    cases hresets : w.table.resets iface a with
    | false =>
      rw [(EthTable.handleLanClientResetRt_fails this hresets).1]
      exact htable
    | true =>
      obtain ⟨hv4, hmsgs⟩ := EthTable.handleLanClientResetRt_succeeds this hresets
      cases hiptype : d.iptype with
      | v4 =>
        rw [hv4, ← hiptype]
        exact htable
      | v6 =>
        rw [hmsgs] at hafter
        rw [hiptype] at htable
        exact (not_after_disconnects htable (hmeets hactive hresets d hd) ht hkey hafter).elim
  exact hgoal

theorem Inv.handleDownEvt {res : Bool} (h : Inv this tr w) (hactive : w.isActive = true)
    (hmeets : Meets this iface w (.linkDown res)) :
    Inv this (tr ++ [.linkDown res]) (w.handleDownEvt this res) := by
  refine ⟨h.wf, fun t key mac hafter => ?_⟩
  have hafter : after (after (held this w.lan2lan.1) w.pending)
      ((if w.ipType = .null ∨ res = false then []
        else w.table.postLan2lanClientDisconnectMsg this .v4 ++
          w.table.postLan2lanClientDisconnectMsg this .v6).map .lanClientDisconnect) t key mac := by
    rw [← after_append]
    exact hafter
  have hbefore := ((after_disconnects _ _).1 hafter).2
  obtain ⟨-, -, d, hd, ht, hkey, -⟩ := h.covered t key mac hbefore
  obtain ⟨hhas, htable⟩ := mem_announced.1 hd
  obtain ⟨hres, hzero⟩ := hmeets hactive d hd
  have hnull : w.ipType ≠ .null := by
    intro hnull
    rw [hnull] at hhas
    cases hhas
  rw [if_neg (by simp [hnull, hres]), postLan2lanClientDisconnectMsg_eq,
    postLan2lanClientDisconnectMsg_eq, ← List.map_append] at hafter
  refine (not_after_disconnects ?_ hzero ht hkey hafter).elim
  rw [List.mem_append]
  cases hiptype : d.iptype with
  | v4 => exact .inl (by rwa [← hiptype])
  | v6 => exact .inr (by rwa [← hiptype])

/-! ### The messages -/

theorem wf_step {l l' : LanToLan × ω} {c : Input × Ifaces ω}
    (hwf : ∀ t, (l.1.side t).Wf ∧ (l.1.side t).PeersOk)
    (hstep : Lan2Lan.step cfg l c = .ok (l', r)) : ∀ t, (l'.1.side t).Wf ∧ (l'.1.side t).PeersOk :=
  Lan2Lan.step_sides (P := fun _ side => side.Wf ∧ side.PeersOk) hwf hstep
    fun t _ _ _ hside => Side.handle_peersOk (hwf t).1 (hwf t).2 hside

theorem Inv.deliver {ops : Ifaces ω} {e : Event} {pending : List Event} {l : LanToLan × ω}
    (h : Inv this tr w) (hpending : w.pending = e :: pending)
    (hmeets : Meets this iface w (.deliver ops))
    (hstep : Lan2Lan.step cfg w.lan2lan (.eventCallback e, ops) = .ok (l, r)) :
    Inv this (tr ++ [.deliver ops]) { w with pending, lan2lan := l } := by
  refine ⟨wf_step h.wf hstep, fun t key mac hafter => ?_⟩
  have hpeer : ∀ msg, e = .lanClientInactive msg → ∀ t ∈ msg.iptype,
      ∀ c ∈ (w.lan2lan.1.side t).client (msg.key t), c.pIface = this → c.peer = [] := by
    rintro msg rfl t ht c hc
    refine hmeets c ?_
    have ht : msg.iptype = some t := ht
    rw [inactivated, hpending]
    simpa [inactiveMsg, ht] using hc
  have hbefore : after (held this w.lan2lan.1) w.pending t key mac := by
    rw [hpending]
    have hheld : after (effect (held this w.lan2lan.1) e) pending t key mac :=
      after_mono (fun t key mac => held_deliver (fun t => (h.wf t).1) hstep hpeer) hafter
    exact hheld
  obtain ⟨hactive, hpresent, hd⟩ := h.covered t key mac hbefore
  exact ⟨hactive, (present_append ..).trans hpresent, hd⟩

theorem Inv.other {input : Input} {ops : Ifaces ω} {l : LanToLan × ω}
    (h : Inv this tr w) (hinput : input.activates ≠ some this)
    (hstep : Lan2Lan.step cfg w.lan2lan (input, ops) = .ok (l, r)) :
    Inv this (tr ++ [.other input ops]) { w with lan2lan := l } := by
  refine ⟨wf_step h.wf hstep, fun t key mac hafter => ?_⟩
  have hheld : ∀ t key mac, held this l.1 t key mac → held this w.lan2lan.1 t key mac := by
    intro t key mac
    refine Lan2Lan.step_sides (P := fun t side =>
      side.owner key = some (this, mac) → (w.lan2lan.1.side t).owner key = some (this, mac))
      (fun t => id) hstep ?_ t
    intro t side w' _ hside
    exact Side.handle_owner (h.wf t).1 hside hinput
  obtain ⟨hactive, hpresent, hd⟩ := h.covered t key mac (after_mono hheld hafter)
  exact ⟨hactive, (present_append ..).trans hpresent, hd⟩

theorem Inv.same {i : ClientInput ω} (h : Inv this tr w)
    (hi : w.isActive = true → ∀ mac, present mac (tr ++ [i]) = present mac tr) :
    Inv this (tr ++ [i]) w where
  wf := h.wf
  covered := by
    intro t key mac hafter
    obtain ⟨hactive, hpresent, hd⟩ := h.covered t key mac hafter
    exact ⟨hactive, (hi hactive mac).trans hpresent, hd⟩

/-- **A step** keeps it that the clients the table has, or will have, are clients of the interface.
    -/
theorem Inv.step {i : ClientInput ω} (h : Inv this tr w) (hmeets : Meets this iface w i)
    (hstep : LanWorld.step this iface cfg w i = .ok (w', r)) : Inv this (tr ++ [i]) w' := by
  have hidle : w.isActive ≠ true → Inv this (tr ++ [i]) w := fun hidle => h.same (absurd · hidle)
  cases i with
  | addrAdd f =>
    obtain rfl := congrArg Prod.fst (Except.ok.inj hstep)
    split
    · exact h.addrAdd f
    next hactive => exact hidle hactive
  | neighClientIpAddrAdd hdr addr rule data =>
    obtain rfl := congrArg Prod.fst (Except.ok.inj hstep)
    split
    next hactive => exact h.neighClientIpAddrAdd hactive hmeets
    next hactive => exact hidle hactive
  | neighClientIpAddrDel a data =>
    obtain rfl := congrArg Prod.fst (Except.ok.inj hstep)
    split
    next hactive => exact h.neighClientIpAddrDel hactive hmeets
    next hactive => exact hidle hactive
  | wanDownV6 a =>
    obtain rfl := congrArg Prod.fst (Except.ok.inj hstep)
    split
    next hactive => exact h.wanDownV6 hactive hmeets
    next hactive => exact hidle hactive
  | linkDown res =>
    obtain rfl := congrArg Prod.fst (Except.ok.inj hstep)
    split
    next hactive => exact h.handleDownEvt hactive hmeets
    next hactive => exact hidle hactive
  | deliver ops =>
    rw [LanWorld.step] at hstep
    split at hstep
    next hpending =>
      cases hstep
      exact h.same fun _ mac => present_append ..
    next e pending hpending =>
      obtain ⟨⟨l, r'⟩, hl, hstep⟩ := bind_eq_ok hstep
      cases hstep
      exact h.deliver hpending hmeets hl
  | other input ops =>
    rw [LanWorld.step] at hstep
    split at hstep
    next =>
      cases hstep
      exact h.same fun _ mac => present_append ..
    next hinput =>
      obtain ⟨⟨l, r'⟩, hl, hstep⟩ := bind_eq_ok hstep
      cases hstep
      exact h.other hinput hl

/-- **The clients of an interface in the LAN-to-LAN table.** The messages to disconnect the clients
    of an interface are for the keys of their active messages just where no IPv6 address has
    anything in its lower half. In every run in which the addresses that go have messages of their
    own, once the messages are handled, a client that the table has for the interface is one that
    came and did not go since, with an address that the interface has for it; when the interface is
    down there is none. -/
theorem run_lan_clients {w₀ : ω} {tr : List (ClientInput ω × Unit)}
    (run : Run (LanWorld.step this iface cfg) (Meets this iface) (start w₀) tr w) :
    (∀ (s : EthTable) (t : IpType),
      (s.postLan2lanClientDisconnectMsg this t).map (fun msg => msg.key t) =
        (s.announced t).map (fun data => (lanClient this data).key t) ↔
      ∀ data ∈ s.announced t, data.LowZero) ∧
    (w.pending = [] → ∀ t key mac, (w.lan2lan.1.side t).owner key = some (this, mac) →
      w.isActive = true ∧ present mac (tr.map Prod.fst) = true ∧
        ∃ data ∈ w.announced, data.iptype = t ∧ data.key = key ∧ data.macAddr = mac) := by
  refine ⟨disconnect_keys_iff this, fun hpending t key mac howner => ?_⟩
  have h : Inv this (tr.map Prod.fst) w := by
    refine run.invariant (fun tr w => Inv this (tr.map Prod.fst) w) (inv_start this w₀) ?_
    intro tr w i w' r h hmeets hstep
    rw [List.map_append]
    exact h.step hmeets hstep
  refine h.covered t key mac ?_
  rw [hpending]
  exact howner

/-! ### Examples -/

/-- No connection is offloaded. -/
def config : Config := ⟨true, fun _ => .lanIf, []⟩

/-- The other interfaces refuse what they are asked. -/
def refusing : Ifaces Unit := ⟨fun w _ _ => (none, w)⟩

/-- A client has an address. -/
def comes (data : EventDataAll) : ClientInput Unit :=
  .neighClientIpAddrAdd (EthTable.answers 10 0) (EthTable.answers 0 0) (EthTable.answers 0 20) data

/-- Two clients come, one of them with an address of each version, and the other goes; then the
    interface goes down. -/
def visits : List (ClientInput Unit) :=
  [.addrAdd .v4, .addrAdd .v6,
    comes ⟨.v4, 1, 0xC0A80101, ⟨0, 0, 0, 0⟩⟩, comes ⟨.v6, 1, 0, ⟨0x20010DB8, 1, 0, 0⟩⟩,
    comes ⟨.v4, 2, 0xC0A80102, ⟨0, 0, 0, 0⟩⟩, .deliver refusing, .deliver refusing,
    .deliver refusing,
    .neighClientIpAddrDel (EthTable.answers 0 0) ⟨.v4, 2, 0xC0A80102, ⟨0, 0, 0, 0⟩⟩,
    .deliver refusing, .linkDown true, .deliver refusing, .deliver refusing]

/-- No client is left. -/
theorem run_lan_clients_none : ∃ tr w,
    Run (LanWorld.step 7 EthTable.usb config) (Meets 7 EthTable.usb) (start ()) tr w ∧
    tr.map Prod.fst = visits ∧ w.pending = [] ∧
    ∀ t key mac, (w.lan2lan.1.side t).owner key ≠ some (7, mac) := by
  obtain ⟨tr, w, run, hvisits, hend⟩ : ∃ tr w,
      Run (LanWorld.step 7 EthTable.usb config) (Meets 7 EthTable.usb) (start ()) tr w ∧
      tr.map Prod.fst = visits ∧ (w.isActive, w.pending) = (false, []) :=
    Run.exists_of_allMeet (g := fun w : LanWorld Unit => (w.isActive, w.pending))
      (by decide +kernel) (by decide +kernel)
  obtain ⟨hactive, hpending⟩ := Prod.mk.inj hend
  refine ⟨tr, w, run, hvisits, hpending, fun t key mac howner => ?_⟩
  obtain ⟨hup, -⟩ := (run_lan_clients run).2 hpending t key mac howner
  rw [hactive] at hup
  cases hup

/-- A client comes with a link-local address, and the interface goes down. -/
def linkLocal : List (ClientInput Unit) :=
  [.addrAdd .v6, comes ⟨.v6, 1, 0, ⟨0xFE800000, 0, 0, 2⟩⟩, .deliver refusing, .linkDown true,
    .deliver refusing]

/-- The message to disconnect the client has another key, and the table has the client of the
    interface still when all messages are handled. -/
theorem run_lan_clients_stale : ∃ tr w,
    Run (LanWorld.step 7 EthTable.usb config) (fun _ _ => True) (start ()) tr w ∧
    (w.isActive, w.pending, (w.lan2lan.1.side .v6).owner 0x200000000) =
      (false, [], some (7, 1)) :=
  Run.exists_of_exec (C := fun _ : ClientInput Unit => True)
    (g := fun w : LanWorld Unit =>
      (w.isActive, w.pending, (w.lan2lan.1.side .v6).owner 0x200000000))
    (show (exec (LanWorld.step 7 EthTable.usb config) (start ()) linkLocal).toOption.map _ = _ by
      decide +kernel) fun _ _ => trivial

end LanWorld

end Nx508j.Ipacm.EthClients
