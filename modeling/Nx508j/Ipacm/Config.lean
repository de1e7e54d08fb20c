import Nx508j.Ipacm.NatIfaces
import Nx508j.Ipacm.LanToLan
import Nx508j.Ipacm.RmDepend

/-! # The configuration and its changes

`IPACM_Config` holds what the configuration file says of the interfaces, and what the interfaces
have changed in it since: their categories, the Linux indices they were seen with, their private
subnets and their names among the NAT interfaces. `IPA_CFG_CHANGE_EVENT` makes the interface manager
call `Init` again. -/

namespace Nx508j.Ipacm

open Nx508j.Lib Lan2Lan Function

/-! ## Private subnets -/

/-- `ipa_private_subnet` -/
structure PrivateSubnet where
  subnet_addr : BitVec 32
  subnet_mask : BitVec 32
deriving DecidableEq, Repr

/-- The subnet of an address of an interface. -/
def if_ipv4_subnet (ipv4_addr : BitVec 32) : BitVec 32 := (ipv4_addr >>> 8) <<< 8

/-- The table is its first `ipa_num_private_subnet` entries. -/
def isPrivateSubnet (private_subnet_table : List PrivateSubnet) (ip_addr : BitVec 32) : Bool :=
  private_subnet_table.any fun e => e.subnet_addr = e.subnet_mask &&& ip_addr

/-- What `AddPrivateSubnet` and `DelPrivateSubnet` leave and return, and whether they post
    `IPA_PRIVATE_SUBNET_CHANGE_EVENT`. -/
structure SubnetChange where
  private_subnet_table : List PrivateSubnet
  posted : Bool
  ret : Bool
deriving DecidableEq, Repr

/-- `AddPrivateSubnet`. The mask is that of a /24. -/
def AddPrivateSubnet (private_subnet_table : List PrivateSubnet) (ip_addr : BitVec 32) :
    SubnetChange :=
  if private_subnet_table.any (·.subnet_addr = ip_addr) then ⟨private_subnet_table, false, true⟩
  else if private_subnet_table.length < ipaMaxPrivateSubnetEntries then
    ⟨private_subnet_table ++ [⟨ip_addr, (~~~ 0#32 >>> 8) <<< 8⟩], true, true⟩
  else ⟨private_subnet_table, false, false⟩

/-- `DelPrivateSubnet`. The addresses after the one that is found move down, the masks stay. -/
def DelPrivateSubnet (private_subnet_table : List PrivateSubnet) (ip_addr : BitVec 32) :
    SubnetChange :=
  match private_subnet_table.findIdx? (·.subnet_addr = ip_addr) with
  | some cnt =>
    let addrs := (private_subnet_table.map (·.subnet_addr)).eraseIdx cnt
    ⟨addrs.zipWith (fun a e => ⟨a, e.subnet_mask⟩) private_subnet_table, true, true⟩
  | none => ⟨private_subnet_table, false, false⟩

/-! ## The configuration -/

/-- `ipacm_alg` -/
structure Alg where
  protocol : BitVec 8
  port : BitVec 16
deriving DecidableEq, Repr

/-- `IPACM_conf_t`, with the counted parts of its arrays. -/
structure IpacmConf where
  iface_entries : List (IfaceName × IfaceType)
  private_subnet_entries : List PrivateSubnet
  alg_entries : List Alg
  nat_max_entries : Int
  odu_enable : Bool
  router_mode_enable : Bool
  /-- The size of the array of subnets. -/
  subnets : private_subnet_entries.length ≤ ipaMaxPrivateSubnetEntries

/-- `ipa_ifi_dev_name_t` -/
structure IfiDevName where
  iface_name : IfaceName
  if_cat : IfaceType
  netlink_interface_index : Int
deriving DecidableEq

/-- `IPACM_Config`. `ipa_num_ipa_interfaces`, `ipa_num_private_subnet` and `ipa_num_alg_ports` are
    the lengths of the tables. -/
structure IpacmConfig where
  iface_table : List IfiDevName
  ipa_virtual_iface_name : IfaceName
  private_subnet_table : List PrivateSubnet
  alg_table : List Alg
  ipa_nat_max_entries : Int
  ipacm_odu_enable : Bool
  ipacm_odu_router_mode : Bool
  nat : NatIfaceTable

namespace IpacmConfig

variable (c : IpacmConfig)

/-- The constructor. -/
def make : IpacmConfig where
  iface_table := []
  ipa_virtual_iface_name := .empty
  private_subnet_table := []
  alg_table := []
  ipa_nat_max_entries := 0
  ipacm_odu_enable := false
  ipacm_odu_router_mode := false
  nat := .init 0

/-- `Init`, when the file can be read and there is memory. The new array of NAT interfaces is empty;
    `ipa_nat_iface_entries` is not set. -/
def Init (cfg : IpacmConf) : IpacmConfig :=
  { iface_table := cfg.iface_entries.map fun e => ⟨e.1, e.2, 0⟩
    ipa_virtual_iface_name := cfg.iface_entries.foldl
      (fun name e => if e.2 = .virtualIf then e.1 else name) c.ipa_virtual_iface_name
    private_subnet_table := cfg.private_subnet_entries
    alg_table := cfg.alg_entries
    ipa_nat_max_entries := cfg.nat_max_entries
    ipacm_odu_enable := cfg.odu_enable
    ipacm_odu_router_mode := cfg.router_mode_enable
    nat :=
      { pNatIfaces := Region.fill cfg.iface_entries.length .empty
        ipaNatIfaceEntries := c.nat.ipaNatIfaceEntries } }

/-- The interface that a Linux index was seen with. -/
def known (interface_index : Int) : Option Nat :=
  c.iface_table.findIdx? (·.netlink_interface_index = interface_index)

/-- The interface of a name. -/
def named (name : IfaceName) : Option Nat := c.iface_table.findIdx? (·.iface_name = name)

/-- What `iface_ipa_index_query` returns, when the kernel says the name of a Linux index. -/
def ipa_index (ifr_name : Int → Option IfaceName) (interface_index : Int) : Option Nat :=
  (c.known interface_index).or ((ifr_name interface_index).bind c.named)

/-- `iface_ipa_index_query`, which remembers the index. -/
def iface_ipa_index_query (ifr_name : Int → Option IfaceName) (interface_index : Int) :
    Option Nat × IpacmConfig :=
  match c.known interface_index with
  | some link => (some link, c)
  | none =>
    match (ifr_name interface_index).bind c.named with
    | some link =>
      (some link,
        { c with
          iface_table := c.iface_table.modify link fun e =>
            { e with netlink_interface_index := interface_index } })
    | none => (none, c)

def set_if_cat (i : Nat) (if_cat : IfaceType) : IpacmConfig :=
  { c with iface_table := c.iface_table.modify i fun e => { e with if_cat } }

/-- The end of `query_iface_property`: an interface with Rx or Tx properties does NAT. -/
def query_iface_property (dev_name : IfaceName) (props : Bool) : Except Fault IpacmConfig :=
  if props then do
    let nat ← c.nat.addNatIfaces dev_name
    .ok { c with nat }
  else .ok c

/-- The end of `handle_down_evt` for the subnet of an interface, if it has one. -/
def delete_subnet (subnet : Option (BitVec 32)) : IpacmConfig :=
  match subnet with
  | some a =>
    { c with
      private_subnet_table := (DelPrivateSubnet c.private_subnet_table a).private_subnet_table }
  | none => c

end IpacmConfig

/-! ## The interfaces that are up -/

/-- An instance of an interface. `dev_name` is the name of its entry when it was made; the subnet is
    that of its IPv4 address. -/
structure ConfigInstance where
  ipa_if_num : Nat
  ipa_if_cate : IfaceType
  dev_name : IfaceName
  /-- `m_is_sta_mode` is `WLAN_WAN`. -/
  sta : Bool
  subnet : Option (BitVec 32) := none
deriving DecidableEq

/-- The configuration, its file, the instances, and the names that the kernel knows. -/
structure ConfigWorld where
  cfg : IpacmConf
  ipacmcfg : IpacmConfig
  instances : List ConfigInstance := []
  ifr_name : Int → Option IfaceName := fun _ => none

/-- The link-up events of the interface manager. -/
inductive LinkUp where
  | link
  | usb
  | wlanAp
  | wlanSta
  | wanEmbms
deriving DecidableEq, Repr

/-- What happens: the kernel gives a Linux index a name or none, some component asks for the
    interface of an index, a link comes up (and whether its interface turns out to have Rx or Tx
    properties), an instance gets an IPv4 address, an instance goes down, the configuration may have
    changed. -/
inductive ConfigEvent where
  | kernel (if_index : Int) (name : Option IfaceName)
  | query (if_index : Int)
  | linkUp (event : LinkUp) (if_index : Int) (props : Bool)
  | addr (ipa_if_num : Nat) (ipv4_addr : BitVec 32)
  | down (ipa_if_num : Nat)
  | cfgChange

namespace ConfigWorld

variable (w : ConfigWorld)

/-- After the first `GetInstance`. -/
def start (cfg : IpacmConf) : ConfigWorld := { cfg, ipacmcfg := IpacmConfig.make.Init cfg }

/-- Whether `create_iface_instance` makes an instance for the category. -/
def creates (c : IpacmConfig) : IfaceType → Bool
  | .lanIf | .ethIf | .oduIf | .wlanIf | .embmsIf => true
  | .wanIf => c.ipacm_odu_enable = false || c.ipacm_odu_router_mode = true
  | .virtualIf | .unknownIf => false

/-- `create_iface_instance`. The constructor adds an interface with properties to the NAT
    interfaces. -/
def create_iface_instance (if_index : Int) (sta props : Bool) : Except Fault ConfigWorld := do
  let (link, c) := w.ipacmcfg.iface_ipa_index_query w.ifr_name if_index
  let w := { w with ipacmcfg := c }
  match link.bind fun i => c.iface_table[i]?.map fun e => (i, e) with
  | none => .ok w
  | some (i, e) =>
    if w.instances.any (·.ipa_if_num = i) then .ok w
    else if creates c e.if_cat then do
      let x : ConfigInstance :=
        { ipa_if_num := i, ipa_if_cate := e.if_cat, dev_name := e.iface_name, sta }
      let c ← c.query_iface_property e.iface_name props
      .ok { w with ipacmcfg := c, instances := w.instances ++ [x] }
    else .ok w

/-- The entry that a link-up event reads, before the interface is known to be one. Without ODU mode
    an event for eMBMS reads none. -/
def linkUpEntry (c : IpacmConfig) (link : Option Nat) (event : LinkUp) :
    Except Fault (Option (Nat × IfaceType)) :=
  if event = .wanEmbms ∧ c.ipacm_odu_enable = false then .ok none
  else
    match link.bind fun i => c.iface_table[i]?.map fun e => (i, e.if_cat) with
    | none => .error .outOfBounds
    | some entry => .ok (some entry)

/-- `IPACM_IfaceManager::event_callback` for a link that comes up. -/
def linkUp (event : LinkUp) (if_index : Int) (props : Bool) : Except Fault ConfigWorld := do
  let (link, c) := w.ipacmcfg.iface_ipa_index_query w.ifr_name if_index
  let w := { w with ipacmcfg := c }
  let entry ← linkUpEntry c link event
  match entry with
  | none => .ok w
  | some (i, if_cat) =>
    match event with
    | .link =>
      if if_cat = .wanIf then w.create_iface_instance if_index false props else .ok w
    | .usb => w.create_iface_instance if_index false props
    | .wlanAp =>
      if if_cat = .unknownIf then
        create_iface_instance { w with ipacmcfg := c.set_if_cat i .wlanIf } if_index false props
      else .ok w
    | .wlanSta =>
      if if_cat = .unknownIf then
        create_iface_instance { w with ipacmcfg := c.set_if_cat i .wanIf } if_index true props
      else .ok w
    | .wanEmbms =>
      if if_cat = .wanIf then
        create_iface_instance { w with ipacmcfg := c.set_if_cat i .embmsIf } if_index false props
      else .ok w

/-- What the address of an instance does to the table of subnets; an uplink has no private subnet.
    -/
def addr (ipa_if_num : Nat) (ipv4_addr : BitVec 32) : ConfigWorld :=
  let subnet := if_ipv4_subnet ipv4_addr
  if w.instances.any fun x => x.ipa_if_num = ipa_if_num ∧ x.ipa_if_cate ≠ .wanIf ∧
      x.ipa_if_cate ≠ .embmsIf then
    { w with
      ipacmcfg :=
        { w.ipacmcfg with
          private_subnet_table :=
            (AddPrivateSubnet w.ipacmcfg.private_subnet_table subnet).private_subnet_table }
      instances := w.instances.map fun x =>
        if x.ipa_if_num = ipa_if_num then { x with subnet := some subnet } else x }
  else w

/-- What the end of an instance does to the configuration. -/
def down (ipa_if_num : Nat) : Except Fault ConfigWorld :=
  match w.instances.find? (·.ipa_if_num = ipa_if_num) with
  | none => .ok w
  | some x => do
      let c := w.ipacmcfg.delete_subnet x.subnet
      -- access points and stations leave the category to the next of them
      let c :=
        if x.ipa_if_cate = .wlanIf ∨ x.sta = true then c.set_if_cat ipa_if_num .unknownIf else c
      let nat ← c.nat.delNatIfaces x.dev_name
      .ok { w with
        ipacmcfg := { c with nat }
        instances := w.instances.filter (·.ipa_if_num ≠ ipa_if_num) }

def step (w : ConfigWorld) : ConfigEvent → Except Fault (ConfigWorld × Unit)
  | .kernel if_index name =>
    .ok ({ w with ifr_name := update w.ifr_name if_index name }, ())
  | .query if_index =>
    .ok ({ w with ipacmcfg := (w.ipacmcfg.iface_ipa_index_query w.ifr_name if_index).2 }, ())
  | .linkUp event if_index props => do
      let w ← w.linkUp event if_index props
      .ok (w, ())
  | .addr ipa_if_num ipv4_addr => .ok (w.addr ipa_if_num ipv4_addr, ())
  | .down ipa_if_num => do
      let w ← w.down ipa_if_num
      .ok (w, ())
  | .cfgChange => .ok ({ w with ipacmcfg := w.ipacmcfg.Init w.cfg }, ())

/-! ## The property -/

/-- **The property.** What the other components see of the configuration is the same as before: the
    count and the names of the NAT interfaces, the entries of the subnets of the instances, the
    category of each instance, and which (positive) Linux indices are its. -/
structure Same (w w' : ConfigWorld) : Prop where
  nat_count : w'.ipacmcfg.nat.ipaNatIfaceEntries = w.ipacmcfg.nat.ipaNatIfaceEntries
  nat_names : ∀ n ≤ w.ipacmcfg.nat.ipaNatIfaceEntries,
    w'.ipacmcfg.nat.getNatIfaces n = w.ipacmcfg.nat.getNatIfaces n
  subnets : ∀ x ∈ w.instances, ∀ e : PrivateSubnet, x.subnet = some e.subnet_addr →
    (e ∈ w'.ipacmcfg.private_subnet_table ↔ e ∈ w.ipacmcfg.private_subnet_table)
  category : ∀ x ∈ w.instances, (w'.ipacmcfg.iface_table[x.ipa_if_num]?).map (·.if_cat) =
    (w.ipacmcfg.iface_table[x.ipa_if_num]?).map (·.if_cat)
  index : ∀ x ∈ w.instances, ∀ interface_index : Int, 0 < interface_index →
    (w'.ipacmcfg.ipa_index w'.ifr_name interface_index = some x.ipa_if_num ↔
      w.ipacmcfg.ipa_index w.ifr_name interface_index = some x.ipa_if_num)

/-- Nothing has been changed that the file does not bring back: no NAT interface is stored, the
    entries of the subnets of the instances and their categories are those of the file, and the
    Linux index of an entry is still the index of the interface of that name, as far as an instance
    has to do with it. -/
structure Unmoved (w : ConfigWorld) : Prop where
  nat : ∀ i < w.ipacmcfg.nat.pNatIfaces.size, i < w.ipacmcfg.nat.ipaNatIfaceEntries →
    w.ipacmcfg.nat.pNatIfaces.get i = .empty
  subnets : ∀ x ∈ w.instances, ∀ e : PrivateSubnet, x.subnet = some e.subnet_addr →
    (e ∈ w.cfg.private_subnet_entries ↔ e ∈ w.ipacmcfg.private_subnet_table)
  category : ∀ x ∈ w.instances, (w.cfg.iface_entries[x.ipa_if_num]?).map (·.2) =
    (w.ipacmcfg.iface_table[x.ipa_if_num]?).map (·.if_cat)
  index : ∀ x ∈ w.instances, ∀ interface_index : Int, 0 < interface_index → ∀ i,
    w.ipacmcfg.known interface_index = some i →
      ((w.ifr_name interface_index).bind w.ipacmcfg.named = some x.ipa_if_num ↔ i = x.ipa_if_num)

end ConfigWorld

/-! ## What no event changes -/

theorem map_modify_of_eq {α β : Type} {f : α → α} {g : α → β} (h : ∀ a, g (f a) = g a) (l : List α)
    (i : Nat) : (l.modify i f).map g = l.map g := by
  induction l generalizing i with
  | nil => simp
  | cons a l ih =>
    cases i with
    | zero => simp [h]
    | succ i => simp [ih]

namespace NatIfaceTable

variable {s s' : NatIfaceTable}

theorem shiftDown_size {m m' : Region IfaceName} {i k : Nat} (h : shiftDown m i k = .ok m') :
    m'.size = m.size := by
  induction k generalizing m i with
  | zero =>
    obtain rfl : m = m' := by simpa [shiftDown] using h
    rfl
  | succ k ih =>
    obtain ⟨name, -, h⟩ := bind_eq_ok h
    obtain ⟨m₁, h₁, h⟩ := bind_eq_ok h
    obtain ⟨m₂, h₂, h⟩ := bind_eq_ok h
    rw [ih h, (Region.lt_of_write h₂).2, Region.size_set, (Region.lt_of_write h₁).2,
      Region.size_set]

theorem addNatIfaces_size {devName : IfaceName} (h : s.addNatIfaces devName = .ok s') :
    s'.pNatIfaces.size = s.pNatIfaces.size := by
  unfold addNatIfaces at h
  dsimp only at h
  split at h
  · obtain ⟨m, hm, h⟩ := bind_eq_ok h
    cases h
    rw [(Region.lt_of_write hm).2, Region.size_set]
  · cases h
    rfl

theorem delNatIfaces_size {devName : IfaceName} (h : s.delNatIfaces devName = .ok s') :
    s'.pNatIfaces.size = s.pNatIfaces.size := by
  obtain ⟨found, -, h⟩ := bind_eq_ok h
  cases found with
  | none =>
    cases h
    rfl
  | some i =>
    obtain ⟨m₁, h₁, h⟩ := bind_eq_ok h
    obtain ⟨m₂, h₂, h⟩ := bind_eq_ok h
    cases h
    rw [shiftDown_size h₂, (Region.lt_of_write h₁).2, Region.size_set]

end NatIfaceTable

namespace IpacmConfig

variable (c : IpacmConfig)

def names : List IfaceName := c.iface_table.map (·.iface_name)

@[simp] theorem names_set_if_cat (i : Nat) (if_cat : IfaceType) :
    (c.set_if_cat i if_cat).names = c.names := by
  refine map_modify_of_eq (fun e => ?_) _ _
  rfl

theorem query_keeps (ifr_name : Int → Option IfaceName) (interface_index : Int) :
    (c.iface_ipa_index_query ifr_name interface_index).2.names = c.names ∧
      (c.iface_ipa_index_query ifr_name interface_index).2.nat = c.nat := by
  unfold iface_ipa_index_query
  split
  · exact ⟨rfl, rfl⟩
  · split
    · refine ⟨?_, rfl⟩
      refine map_modify_of_eq (fun e => ?_) _ _
      rfl
    · exact ⟨rfl, rfl⟩

theorem delete_subnet_keeps (subnet : Option (BitVec 32)) :
    (c.delete_subnet subnet).names = c.names ∧ (c.delete_subnet subnet).nat = c.nat := by
  cases subnet <;> exact ⟨rfl, rfl⟩

theorem query_iface_property_keeps {c' : IpacmConfig} {dev_name : IfaceName} {props : Bool}
    (h : c.query_iface_property dev_name props = .ok c') :
    c'.names = c.names ∧ c'.nat.pNatIfaces.size = c.nat.pNatIfaces.size := by
  unfold query_iface_property at h
  split at h
  · obtain ⟨nat, hnat, h⟩ := bind_eq_ok h
    cases h
    exact ⟨rfl, NatIfaceTable.addNatIfaces_size hnat⟩
  · cases h
    exact ⟨rfl, rfl⟩

theorem named_eq (name : IfaceName) : c.named name = c.names.findIdx? (· = name) := by
  unfold named names
  rw [List.findIdx?_map]
  rfl

end IpacmConfig

namespace ConfigWorld

variable {w w' : ConfigWorld}

/-- The entries are those of the file, as far as their names go, and there is a place for a NAT
    interface for each. -/
structure Inv (w : ConfigWorld) (cfg : IpacmConf) : Prop where
  file : w.cfg = cfg
  names : w.ipacmcfg.names = cfg.iface_entries.map (·.1)
  size : w.ipacmcfg.nat.pNatIfaces.size = cfg.iface_entries.length

theorem names_init (c : IpacmConfig) (cfg : IpacmConf) :
    (c.Init cfg).names = cfg.iface_entries.map (·.1) := by
  simp [IpacmConfig.names, IpacmConfig.Init]

theorem inv_start (cfg : IpacmConf) : (start cfg).Inv cfg := ⟨rfl, names_init .., rfl⟩

variable {cfg : IpacmConf}

theorem Inv.query (h : w.Inv cfg) (if_index : Int) :
    Inv { w with ipacmcfg := (w.ipacmcfg.iface_ipa_index_query w.ifr_name if_index).2 } cfg := by
  obtain ⟨hnames, hnat⟩ := w.ipacmcfg.query_keeps w.ifr_name if_index
  refine ⟨h.file, hnames.trans h.names, ?_⟩
  rw [hnat]
  exact h.size

theorem Inv.set_if_cat (h : w.Inv cfg) (i : Nat) (if_cat : IfaceType) :
    Inv { w with ipacmcfg := w.ipacmcfg.set_if_cat i if_cat } cfg :=
  ⟨h.file, (w.ipacmcfg.names_set_if_cat i if_cat).trans h.names, h.size⟩

theorem Inv.create (h : w.Inv cfg) {if_index : Int} {sta props : Bool}
    (hcreate : w.create_iface_instance if_index sta props = .ok w') : w'.Inv cfg := by
  have hquery := h.query if_index
  unfold create_iface_instance at hcreate
  dsimp only at hcreate
  split at hcreate
  · cases hcreate
    exact hquery
  split at hcreate
  · cases hcreate
    exact hquery
  split at hcreate
  · obtain ⟨c, hc, hcreate⟩ := bind_eq_ok hcreate
    cases hcreate
    obtain ⟨hnames, hsize⟩ := IpacmConfig.query_iface_property_keeps _ hc
    exact ⟨hquery.file, hnames.trans hquery.names, hsize.trans hquery.size⟩
  · cases hcreate
    exact hquery

theorem Inv.linkUp (h : w.Inv cfg) {event : LinkUp} {if_index : Int} {props : Bool}
    (hup : w.linkUp event if_index props = .ok w') : w'.Inv cfg := by
  have hquery := h.query if_index
  unfold ConfigWorld.linkUp at hup
  obtain ⟨entry, -, hup⟩ := bind_eq_ok hup
  split at hup
  · cases hup
    exact hquery
  · next i if_cat =>
    cases event with
    | usb => exact hquery.create hup
    | link =>
      dsimp only at hup
      split at hup
      · exact hquery.create hup
      · cases hup
        exact hquery
    | wlanAp | wlanSta | wanEmbms =>
      dsimp only at hup
      split at hup
      · exact (hquery.set_if_cat i _).create hup
      · cases hup
        exact hquery

theorem Inv.down (h : w.Inv cfg) {ipa_if_num : Nat} (hdown : w.down ipa_if_num = .ok w') :
    w'.Inv cfg := by
  unfold ConfigWorld.down at hdown
  rcases hfind : w.instances.find? (·.ipa_if_num = ipa_if_num) with _ | x
  · rw [hfind] at hdown
    cases hdown
    exact h
  · rw [hfind] at hdown
    obtain ⟨nat, hnat, hdown⟩ := bind_eq_ok hdown
    cases hdown
    obtain ⟨hnames, hsame⟩ := w.ipacmcfg.delete_subnet_keeps x.subnet
    have hsize := NatIfaceTable.delNatIfaces_size hnat
    refine ⟨h.file, ?_, ?_⟩
    · dsimp only [IpacmConfig.names] at hnames ⊢
      refine Eq.trans ?_ (hnames.trans h.names)
      split
      · exact IpacmConfig.names_set_if_cat _ _ _
      · rfl
    · refine hsize.trans (Eq.trans ?_ h.size)
      rw [← hsame]
      split <;> rfl

theorem Inv.addr (h : w.Inv cfg) (ipa_if_num : Nat) (ipv4_addr : BitVec 32) :
    (w.addr ipa_if_num ipv4_addr).Inv cfg := by
  unfold ConfigWorld.addr
  split
  · exact ⟨h.file, h.names, h.size⟩
  · exact h

theorem Inv.step (h : w.Inv cfg) {e : ConfigEvent} {u : Unit} (hstep : w.step e = .ok (w', u)) :
    w'.Inv cfg := by
  cases e with
  | kernel if_index name =>
    cases hstep
    exact ⟨h.file, h.names, h.size⟩
  | query if_index =>
    cases hstep
    exact h.query if_index
  | linkUp event if_index props =>
    obtain ⟨w₁, hup, hstep⟩ := bind_eq_ok hstep
    cases hstep
    exact h.linkUp hup
  | addr ipa_if_num ipv4_addr =>
    cases hstep
    exact h.addr ipa_if_num ipv4_addr
  | down ipa_if_num =>
    obtain ⟨w₁, hdown, hstep⟩ := bind_eq_ok hstep
    cases hstep
    exact h.down hdown
  | cfgChange =>
    cases hstep
    refine ⟨h.file, ?_, ?_⟩
    · dsimp only
      rw [names_init, h.file]
    · exact congrArg (fun cfg : IpacmConf => cfg.iface_entries.length) h.file

end ConfigWorld

/-! ## What `Init` leaves -/

namespace NatIfaceTable

variable {s s' : NatIfaceTable}

theorem mapM_read_error {m : Region IfaceName} {is : List Nat} (h : ∃ i ∈ is, m.size ≤ i) :
    is.mapM m.read = .error .outOfBounds := by
  induction is with
  | nil => simp at h
  | cons i is ih =>
    rw [List.mapM_cons]
    by_cases hi : i < m.size
    · obtain ⟨j, hj, hsize⟩ := h
      rcases List.mem_cons.1 hj with rfl | hj
      · omega
      · rw [Region.read_ok hi, ok_bind, ih ⟨j, hj, hsize⟩]
        rfl
    · unfold Region.read
      rw [if_neg hi]
      rfl

theorem getNatIfaces_eq_iff (hsize : s'.pNatIfaces.size = s.pNatIfaces.size) (e : Int) :
    (∀ n ≤ e, s'.getNatIfaces n = s.getNatIfaces n) ↔
      ∀ i < s.pNatIfaces.size, (i : Int) < e → s'.pNatIfaces.get i = s.pNatIfaces.get i := by
  have hread {t : NatIfaceTable} {n : Nat} (hn : n ≤ t.pNatIfaces.size) :
      (List.range n).mapM t.pNatIfaces.read = .ok ((List.range n).map t.pNatIfaces.get) :=
    mapM_read fun i hi => Nat.lt_of_lt_of_le (List.mem_range.1 hi) hn
  constructor
  · intro h i hi hie
    have hget := h (i + 1) (by omega)
    unfold getNatIfaces at hget
    have hn : ((i : Int) + 1).toNat = i + 1 := by omega
    rw [if_neg (by omega), if_neg (by omega), hn, hread (by omega), hread (by omega)] at hget
    have hnames := Option.some.inj (Except.ok.inj hget)
    rw [List.range_succ, List.map_append, List.map_append] at hnames
    simpa using (List.append_inj' hnames rfl).2
  · intro h n hn
    unfold getNatIfaces
    split
    · rfl
    by_cases hle : n.toNat ≤ s.pNatIfaces.size
    · rw [hread (by omega), hread hle]
      have hnames : (List.range n.toNat).map s'.pNatIfaces.get =
          (List.range n.toNat).map s.pNatIfaces.get := by
        refine List.map_congr_left fun i hi => ?_
        have := List.mem_range.1 hi
        exact h i (by omega) (by omega)
      rw [hnames]
    · have hlast : s.pNatIfaces.size ∈ List.range n.toNat := List.mem_range.2 (by omega)
      rw [mapM_read_error ⟨_, hlast, by omega⟩, mapM_read_error ⟨_, hlast, Nat.le_refl _⟩]

end NatIfaceTable

namespace ConfigWorld

variable {w w' : ConfigWorld} {cfg : IpacmConf}

theorem known_init (c : IpacmConfig) (cfg : IpacmConf) {interface_index : Int}
    (h : 0 < interface_index) : (c.Init cfg).known interface_index = none := by
  unfold IpacmConfig.known IpacmConfig.Init
  rw [List.findIdx?_eq_none_iff]
  intro e he
  obtain ⟨x, -, rfl⟩ := List.mem_map.1 he
  have : ¬ 0 = interface_index := by omega
  simpa using this

theorem ipa_index_init (h : w.Inv cfg) {interface_index : Int} (hpos : 0 < interface_index) :
    (w.ipacmcfg.Init w.cfg).ipa_index w.ifr_name interface_index =
      (w.ifr_name interface_index).bind w.ipacmcfg.named := by
  have hnamed : (w.ipacmcfg.Init w.cfg).named = w.ipacmcfg.named := by
    funext name
    rw [IpacmConfig.named_eq, IpacmConfig.named_eq, names_init, h.names, h.file]
  unfold IpacmConfig.ipa_index
  rw [known_init _ _ hpos, hnamed, Option.none_or]

theorem same_init_iff (h : w.Inv cfg) :
    w.Same { w with ipacmcfg := w.ipacmcfg.Init w.cfg } ↔ w.Unmoved := by
  have hsize : (w.ipacmcfg.Init w.cfg).nat.pNatIfaces.size = w.ipacmcfg.nat.pNatIfaces.size := by
    rw [h.size, ← h.file]
    rfl
  have hnat := NatIfaceTable.getNatIfaces_eq_iff hsize w.ipacmcfg.nat.ipaNatIfaceEntries
  have hcat (i : Nat) : ((w.ipacmcfg.Init w.cfg).iface_table[i]?).map (·.if_cat) =
      (w.cfg.iface_entries[i]?).map (·.2) := by
    simp only [IpacmConfig.Init, List.getElem?_map, Option.map_map]
    rfl
  constructor
  · rintro ⟨-, names, subnets, category, index⟩
    refine ⟨fun i hi hie => ?_, subnets, fun x hx => ?_, fun x hx k hk i hknown => ?_⟩
    · exact ((hnat.1 names) i hi hie).symm
    · rw [← hcat]
      exact category x hx
    · have hindex := index x hx k hk
      rw [ipa_index_init h hk] at hindex
      rw [hindex, IpacmConfig.ipa_index, hknown, Option.some_or, Option.some_inj]
  · rintro ⟨nat, subnets, category, index⟩
    refine ⟨rfl, ?_, subnets, fun x hx => ?_, fun x hx k hk => ?_⟩
    · exact hnat.2 fun i hi hie => (nat i hi hie).symm
    · dsimp only
      rw [hcat]
      exact category x hx
    · dsimp only
      rw [ipa_index_init h hk]
      cases hknown : w.ipacmcfg.known k with
      | none => rw [IpacmConfig.ipa_index, hknown, Option.none_or]
      | some i =>
        rw [index x hx k hk i hknown, IpacmConfig.ipa_index, hknown, Option.some_or,
          Option.some_inj]

/-- **A change of the configuration that is none.** In every reachable state, `Init` with the file
    it was called with before leaves what other components see as it is just when nothing of it has
    been changed since. -/
theorem run_init {tr : List (ConfigEvent × Unit)}
    (run : Run step (fun _ _ => True) (start cfg) tr w) :
    ∃ w', step w .cfgChange = .ok (w', ()) ∧ (w.Same w' ↔ w.Unmoved) := by
  have hinv : w.Inv cfg := by
    refine run.invariant (fun _ w => w.Inv cfg) (inv_start cfg) ?_
    intro tr w e w' u hinv _ hstep
    exact hinv.step hstep
  exact ⟨_, rfl, same_init_iff hinv⟩

/-! ## A tethered interface -/

def twoIfaces : IpacmConf where
  iface_entries := [(rndis0, .lanIf), (wlan0, .unknownIf)]
  private_subnet_entries := [⟨0xC0A8E100, 0xFFFFFF00⟩]
  alg_entries := []
  nat_max_entries := 500
  odu_enable := false
  router_mode_enable := true
  subnets := by decide

/-- `rndis0` has come up as Linux index 5 and has an address in the subnet of the file. -/
def tethered (nat : NatIfaceTable) : ConfigWorld where
  cfg := twoIfaces
  ipacmcfg :=
    { IpacmConfig.make.Init twoIfaces with
      iface_table := [⟨rndis0, .lanIf, 5⟩, ⟨wlan0, .unknownIf, 0⟩]
      nat }
  instances := [⟨0, .lanIf, rndis0, false, some 0xC0A8E100⟩]
  ifr_name := update (fun _ => none) 5 (some rndis0)

def tetherEvents (props : Bool) : List ConfigEvent :=
  [.kernel 5 (some rndis0), .linkUp .usb 5 props, .addr 0 0xC0A8E101]

theorem tethered_unmoved : (tethered (.init 2)).Unmoved := by
  refine ⟨?_, ?_, ?_, ?_⟩
  · intro i _ _
    rfl
  · intro x hx e _
    exact Iff.rfl
  · intro x hx
    obtain rfl := List.mem_singleton.1 hx
    rfl
  · intro x hx k hk i hknown
    obtain rfl := List.mem_singleton.1 hx
    obtain ⟨rfl, rfl⟩ : k = 5 ∧ i = 0 := by
      by_cases h5 : k = 5
      · subst h5
        exact ⟨rfl, (Option.some.inj hknown).symm⟩
      · have hnone : (tethered (.init 2)).ipacmcfg.known k = none := by
          simp only [IpacmConfig.known, tethered, List.findIdx?_eq_none_iff]
          grind
        rw [hnone] at hknown
        cases hknown
    exact ⟨fun _ => rfl, fun _ => rfl⟩

/-- An interface without properties in a subnet of the file. -/
theorem run_init_tethered : ∃ tr w w', Run step (fun _ _ => True) (start twoIfaces) tr w ∧
    w.instances ≠ [] ∧ step w .cfgChange = .ok (w', ()) ∧ w.Same w' := by
  have run : Run step (fun _ _ => True) (start twoIfaces) _ (tethered (.init 2)) :=
    Run.of_exec (C := fun _ => True) (show exec step _ (tetherEvents false) = _ from rfl)
      fun _ _ => trivial
  obtain ⟨w', hstep, hsame⟩ := run_init run
  exact ⟨_, _, w', run, List.cons_ne_nil _ _, hstep, hsame.2 tethered_unmoved⟩

/-- One with properties is counted among the NAT interfaces afterwards, but not named. -/
theorem init_forgets : ∃ tr w w', Run step (fun _ _ => True) (start twoIfaces) tr w ∧
    step w .cfgChange = .ok (w', ()) ∧ ¬ w.Same w' := by
  have run : Run step (fun _ _ => True) (start twoIfaces) _
      (tethered { pNatIfaces := (Region.fill 2 .empty).set 0 rndis0, ipaNatIfaceEntries := 1 }) :=
    Run.of_exec (C := fun _ => True) (show exec step _ (tetherEvents true) = _ from rfl)
      fun _ _ => trivial
  refine ⟨_, _, _, run, rfl, fun hsame => ?_⟩
  have hnames := hsame.nat_names 1 (Int.le_refl 1)
  have hname : IfaceName.empty = rndis0 :=
    List.head_eq_of_cons_eq (Option.some.inj (Except.ok.inj hnames))
  cases hname

end ConfigWorld

end Nx508j.Ipacm
