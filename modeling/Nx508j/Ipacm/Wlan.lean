import Nx508j.Ipacm.EvtDispatcher
import Nx508j.Ipacm.LanToLan
import Nx508j.Ipacm.RmDepend
import Nx508j.Ipacm.WanRules

/-! # The access points

There is an `IPACM_Wlan` for each WLAN interface that is an access point. Its constructor takes the
number of access points there are as its index, and the index says which part of the preallocated
filter rules of all access points is its own. The interface manager makes the object and registers
it; the object is deleted when the event that it posted as the interface went down comes back. -/

namespace Nx508j.Ipacm

open Nx508j.Lib Function

/-- `ipacm_iface_type` -/
inductive IfaceCategory where
  | lanIf
  | wlanIf
  | wanIf
  | virtualIf
  | ethIf
  | embmsIf
  | oduIf
  | unknownIf
deriving DecidableEq, Repr

/-- The events that an access point registers for, in the order in which it does. -/
inductive WlanEventId where
  | addrAdd
  | routeDel
  | clientAdd
  | clientAddEx
  | clientDel
  | clientPowerSave
  | clientRecover
  | neighClientIpAddrAdd
  | swRoutingEnable
  | swRoutingDisable
  | handleWanUpTether
  | handleWanUpV6Tether
  | handleWanDownTether
  | handleWanDownV6Tether
  | privateSubnetChange
  | linkDown
  | lanDeleteSelf
  | tetheringStatsUpdate
deriving DecidableEq, Repr

/-- What `create_iface_instance` calls `registr` with for a `WLAN_IF`. -/
def wlanEvents : List WlanEventId :=
  [.addrAdd, .routeDel, .clientAdd, .clientAddEx, .clientDel, .clientPowerSave, .clientRecover,
    .neighClientIpAddrAdd, .swRoutingEnable, .swRoutingDisable, .handleWanUpTether,
    .handleWanUpV6Tether, .handleWanDownTether, .handleWanDownV6Tether, .privateSubnetChange,
    .linkDown, .lanDeleteSelf, .tetheringStatsUpdate]

/-- `IPV4_DEFAULT_FILTERTING_RULES` and `IPV6_DEFAULT_FILTERTING_RULES` -/
def defaultFiltertingRules : IpFamily → Nat
  | .v4 => 3
  | .v6 => 6

/-! ## The preallocated filter rules -/

/-- An index into an array may be any `int`. -/
def readAt {α : Type} (m : Region α) (i : Int) : Except Fault α :=
  if i < 0 then .error .outOfBounds else m.read i.toNat

/-- `num_v4_dummy_rule` and `num_v6_dummy_rule`. -/
def numDummyRule (ipa_num_private_subnet : Int) : IpFamily → Int
  | .v4 =>
    2 * (defaultFiltertingRules .v4 + Lan2Lan.maxOffloadPair + ipa_num_private_subnet) -
      2 * ipa_num_private_subnet + 2 * ipaMaxPrivateSubnetEntries
  | .v6 => 2 * (defaultFiltertingRules .v6 + Lan2Lan.maxOffloadPair)

/-- What the driver answers to the rules that `install_dummy_flt_rule` adds: whether the call
    succeeds, and the handle of each rule whose status is no failure. -/
structure DummyAnswer where
  added : Bool := true
  handle : Nat → Option UInt32 := fun _ => some 0

/-- The loop that copies the handles of the rules from the `i`-th on, of which there are `n`. -/
def copyFltRuleHdls (handle : Nat → Option UInt32) : (n i : Nat) → Region UInt32 →
    Except Fault (Region UInt32)
  | 0, _, m => .ok m
  | n + 1, i, m =>
    match handle i with
    | none => .ok m
    | some h => do
        let m ← m.write i h
        copyFltRuleHdls handle n (i + 1) m

/-- An access point. -/
structure Wlan where
  ipa_if_num : Nat
  wlan_ap_index : Int
  /-- Whether there is an `rx_prop`, without which no filter rules are made. -/
  rx_prop : Bool
  is_active : Bool := true
deriving DecidableEq, Repr

namespace Wlan

variable (w : Wlan)

/-- `install_dummy_flt_rule` -/
def install_dummy_flt_rule (answer : DummyAnswer) (num_rule : Int) (m : Region UInt32) :
    Except Fault (Region UInt32) :=
  if w.rx_prop = false then .ok m
  else if answer.added = false then .ok m
  else copyFltRuleHdls answer.handle num_rule.toNat 0 m

/-- `offset` in `init_fl_rule`. -/
def dftOffset (ipa_num_private_subnet : Int) : IpFamily → Int
  | .v4 =>
    w.wlan_ap_index *
        (defaultFiltertingRules .v4 + Lan2Lan.maxOffloadPair + ipa_num_private_subnet) +
      w.wlan_ap_index * (ipaMaxPrivateSubnetEntries - ipa_num_private_subnet)
  | .v6 =>
    w.wlan_ap_index * (defaultFiltertingRules .v6 + Lan2Lan.maxOffloadPair) +
      Lan2Lan.maxOffloadPair

/-- `offset` in `add_dummy_lan2lan_flt_rule`. -/
def lan2lanOffset (ipa_num_private_subnet : Int) : IpFamily → Int
  | .v4 =>
    w.wlan_ap_index *
          (defaultFiltertingRules .v4 + Lan2Lan.maxOffloadPair + ipa_num_private_subnet) +
        defaultFiltertingRules .v4 +
      w.wlan_ap_index * (ipaMaxPrivateSubnetEntries - ipa_num_private_subnet)
  | .v6 => w.wlan_ap_index * (defaultFiltertingRules .v6 + Lan2Lan.maxOffloadPair)

/-- `offset` in `add_dummy_private_subnet_flt_rule`, which is about IPv4. -/
def privateOffset (ipa_num_private_subnet : Int) : Int :=
  w.wlan_ap_index * (defaultFiltertingRules .v4 + Lan2Lan.maxOffloadPair + ipa_num_private_subnet) +
      defaultFiltertingRules .v4 + Lan2Lan.maxOffloadPair +
    w.wlan_ap_index * (ipaMaxPrivateSubnetEntries - ipa_num_private_subnet)

end Wlan

/-- `n` elements from `offset` on. -/
def slotsFrom (offset : Int) (n : Nat) : List Int := (List.range n).map fun i : Nat => offset + i

/-- The handles that an access point takes out of the array, from one element after the other. -/
def takeHdls (m : Option (Region UInt32)) (slots : List Int) : Except Fault (Option (List UInt32)) :=
  match m with
  | none => .ok none
  | some m => do
      let hdls ← slots.mapM (readAt m)
      .ok (some hdls)

namespace Wlan

variable (w : Wlan) (ipa_num_private_subnet : Int)

/-- The elements of `dft_v4fl_rule_hdl` and `dft_v6fl_rule_hdl`. -/
def dftSlots (f : IpFamily) : List Int :=
  slotsFrom (w.dftOffset ipa_num_private_subnet f) (defaultFiltertingRules f)

/-- The elements of `lan2lan_flt_rule_hdl_v4` and `lan2lan_flt_rule_hdl_v6`. -/
def lan2lanSlots (f : IpFamily) : List Int :=
  slotsFrom (w.lan2lanOffset ipa_num_private_subnet f) Lan2Lan.maxOffloadPair

/-- The elements of `private_fl_rule_hdl`. -/
def privateSlots : IpFamily → List Int
  | .v4 => slotsFrom (w.privateOffset ipa_num_private_subnet) ipaMaxPrivateSubnetEntries
  | .v6 => []

/-- The elements whose rules the access point modifies. -/
def slots (f : IpFamily) : List Int :=
  w.dftSlots ipa_num_private_subnet f ++ w.lan2lanSlots ipa_num_private_subnet f ++
    w.privateSlots ipa_num_private_subnet f

end Wlan

/-! ## The objects and where they are registered -/

/-- The access points that are in memory, by their addresses, the lists of the interface manager and
    of the dispatcher, and the static members of `IPACM_Wlan`. No address is used twice. -/
structure WlanWorld where
  instances : List (Nat × Wlan) := []
  next : Nat := 0
  iface_instances : List (Nat × Nat) := []
  cmd_evts : List (Registration WlanEventId Nat) := []
  num_wlan_ap_iface : Int := 0
  dummy_flt_rule_hdl : IpFamily → Option (Region UInt32) := fun _ => none
  /-- `if_cat` of the interface table. -/
  if_cat : Nat → IfaceCategory := fun _ => .unknownIf
  ipa_num_private_subnet : Int := 0

/-- What the environment answers as an access point comes up. -/
structure ApUp where
  rx_prop : Bool := true
  /-- Whether there are a `wlan_client` and a `Nat_App`. -/
  ready : Bool := true
  dummy : IpFamily → DummyAnswer := fun _ => {}

/-- The events of access points. `iface_ipa_index_query` may not know the interface of an event. -/
inductive WlanEvent where
  | apLinkUp (ipa_interface_index : Option Nat) (up : ApUp)
  | linkDown (ipa_interface_index : Option Nat)
  /-- With whether `DeleteFilteringHdls` succeeds. -/
  | deleteSelf (if_index : Nat) (deleted : IpFamily → Bool)

namespace WlanWorld

variable (s : WlanWorld)

/-- The object at an address. -/
def at? (obj : Nat) : Option Wlan := (s.instances.find? (·.1 = obj)).map (·.2)

/-- `delete` of the object: `~IPACM_Wlan` takes it out of both lists. -/
def delete (obj : Nat) : WlanWorld :=
  { s with
    instances := s.instances.filter (·.1 ≠ obj)
    iface_instances := s.iface_instances.filter (·.2 ≠ obj)
    cmd_evts := s.cmd_evts.filter (·.obj ≠ obj) }

/-- `add_dummy_flt_rule` -/
def add_dummy_flt_rule (w : Wlan) (up : ApUp) : Except Fault WlanWorld :=
  if s.num_wlan_ap_iface = 1 then
    if s.dummy_flt_rule_hdl .v4 ≠ none ∨ s.dummy_flt_rule_hdl .v6 ≠ none then .ok s
    else do
      let num := numDummyRule s.ipa_num_private_subnet
      let v4 ← w.install_dummy_flt_rule (up.dummy .v4) (num .v4) (.fill (num .v4).toNat 0)
      let v6 ← w.install_dummy_flt_rule (up.dummy .v6) (num .v6) (.fill (num .v6).toNat 0)
      .ok { s with
        dummy_flt_rule_hdl := fun
          | .v4 => some v4
          | .v6 => some v6 }
  else .ok s

/-- `del_dummy_flt_rule` -/
def del_dummy_flt_rule (deleted : IpFamily → Bool) : Except Fault WlanWorld :=
  if s.num_wlan_ap_iface = 0 then
    -- the array of IPv4 is looked at twice, that of IPv6 never
    if s.dummy_flt_rule_hdl .v4 = none ∨ s.dummy_flt_rule_hdl .v4 = none then .ok s
    else if deleted .v4 = false then .ok s
    else
      match s.dummy_flt_rule_hdl .v6 with
      | none => .error .outOfBounds
      | some _ =>
        if deleted .v6 = false then .ok s
        else .ok { s with dummy_flt_rule_hdl := fun _ => none }
  else .ok s

/-- The constructor of `IPACM_Wlan`, for the object at `s.next`. -/
def construct (iface_index : Nat) (up : ApUp) : Except Fault WlanWorld :=
  let w : Wlan :=
    { ipa_if_num := iface_index, wlan_ap_index := s.num_wlan_ap_iface, rx_prop := up.rx_prop }
  let s := { s with instances := s.instances ++ [(s.next, w)], next := s.next + 1 }
  if w.wlan_ap_index < 0 ∨ w.wlan_ap_index > 1 then .ok (s.delete (s.next - 1))
  else if up.ready = false then .ok s
  else { s with num_wlan_ap_iface := s.num_wlan_ap_iface + 1 }.add_dummy_flt_rule w up

/-- `registr` of the interface manager and, for every event, of the dispatcher. -/
def registr (ipa_if_index obj : Nat) : WlanWorld :=
  { s with
    cmd_evts := s.cmd_evts ++ wlanEvents.map fun e => ⟨e, obj⟩
    iface_instances := s.iface_instances ++ [(ipa_if_index, obj)] }

/-- `create_iface_instance` of a `WLAN_IF`. What `new` returned is registered whatever the
    constructor has done. -/
def create_iface_instance (ipa_interface_index : Nat) (up : ApUp) : Except Fault WlanWorld :=
  if s.iface_instances.any (·.1 = ipa_interface_index) then .ok s
  else do
    let wl := s.next
    let s ← s.construct ipa_interface_index up
    .ok (s.registr ipa_interface_index wl)

/-- `IPACM_IfaceManager::event_callback` for `IPA_WLAN_AP_LINK_UP_EVENT`. -/
def apLinkUp (ipa_interface_index : Option Nat) (up : ApUp) : Except Fault WlanWorld :=
  match ipa_interface_index with
  | none => .error .outOfBounds
  | some n =>
    if s.if_cat n = .unknownIf then
      { s with if_cat := update s.if_cat n .wlanIf }.create_iface_instance n up
    else .ok s

/-- The end of `handle_down_evt`, to which all its branches come, and the `IPA_LAN_DELETE_SELF` that
    it posts. -/
def handle_down_evt (obj : Nat) (w : Wlan) : WlanWorld × List Nat :=
  ({ s with
    instances := s.instances.map fun x =>
      if x.1 = obj then (x.1, { x.2 with is_active := false }) else x },
    [w.ipa_if_num])

/-- `event_callback` for `IPA_WLAN_LINK_DOWN_EVENT`. -/
def linkDown (ipa_interface_index : Option Nat) (obj : Nat) (w : Wlan) : WlanWorld × List Nat :=
  if w.is_active = false then (s, [])
  else if ipa_interface_index = some w.ipa_if_num then
    let (s, posted) := s.handle_down_evt obj w
    ({ s with if_cat := update s.if_cat w.ipa_if_num .unknownIf }, posted)
  else (s, [])

/-- `event_callback` for `IPA_LAN_DELETE_SELF`. -/
def deleteSelf (if_index : Nat) (deleted : IpFamily → Bool) (obj : Nat) (w : Wlan) :
    Except Fault WlanWorld :=
  if if_index = w.ipa_if_num then do
    let s ← { s with num_wlan_ap_iface := s.num_wlan_ap_iface - 1 }.del_dummy_flt_rule deleted
    .ok (s.delete obj)
  else .ok s

/-- `ProcessEvt` for the listeners of an event, but for what its callbacks do to the entries it
    stands on: those that are left are called, one after the other. An object that is deleted has no
    callback. -/
def processEvt (event : WlanEventId)
    (callback : WlanWorld → Nat → Wlan → Except Fault (WlanWorld × List Nat)) :
    WlanWorld → List Nat → Except Fault (WlanWorld × List Nat)
  | s, [] => .ok (s, [])
  | s, obj :: objs =>
    if ⟨event, obj⟩ ∈ s.cmd_evts then
      match s.at? obj with
      | none => .error .outOfBounds
      | some w => do
          let (s, posted) ← callback s obj w
          let (s, posted') ← processEvt event callback s objs
          .ok (s, posted ++ posted')
    else processEvt event callback s objs

/-- The objects that are registered for an event. -/
def listeners (event : WlanEventId) : List Nat :=
  (s.cmd_evts.filter (·.event = event)).map (·.obj)

/-- An event, and the `IPA_LAN_DELETE_SELF` that are posted. -/
def step : WlanEvent → Except Fault (WlanWorld × List Nat)
  | .apLinkUp ipa_interface_index up => do
      let s ← s.apLinkUp ipa_interface_index up
      .ok (s, [])
  | .linkDown ipa_interface_index =>
    processEvt .linkDown (fun s obj w => .ok (s.linkDown ipa_interface_index obj w)) s
      (s.listeners .linkDown)
  | .deleteSelf if_index deleted =>
    processEvt .lanDeleteSelf (fun s obj w => do
        let s ← s.deleteSelf if_index deleted obj w
        .ok (s, []))
      s (s.listeners .lanDeleteSelf)

end WlanWorld

end Nx508j.Ipacm
