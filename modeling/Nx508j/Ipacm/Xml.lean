import Nx508j.Ipacm.Config
import Nx508j.Ipacm.NetlinkEvents
import Nx508j.Lib.XmlTree

/-! # Reading the configuration files

`ipacm_read_cfg_xml` and `IPACM_read_firewall_xml` walk the tree of an XML document. An opening tag
increments the number of the entries of its kind, and the tags inside it are stored in the entry
before that number. The text of a tag is copied to a buffer on the stack first. -/

namespace Nx508j.Ipacm

open Nx508j.Lib Lan2Lan

/-! ## Strings -/

/-- A string of the XML library: its bytes before the terminator. -/
structure XmlText where
  bytes : List UInt8
  noNul : 0 ∉ bytes

theorem XmlText.bytes_inj {s t : XmlText} : s.bytes = t.bytes ↔ s = t := by
  cases s
  cases t
  simp

instance instDecidableEqXmlText : DecidableEq XmlText :=
  fun _ _ => decidable_of_iff _ XmlText.bytes_inj

def XmlText.length (s : XmlText) : Nat := s.bytes.length

/-- The bytes of a literal. -/
def ascii (s : String) : List UInt8 := s.toList.map fun c => UInt8.ofNat c.toNat

def tolower (b : UInt8) : UInt8 := if 65 ≤ b ∧ b ≤ 90 then b + 32 else b

/-- What is past the end of a list is a terminator. -/
def strncasecmp : List UInt8 → List UInt8 → Nat → Int
  | _, _, 0 => 0
  | s, t, n + 1 =>
    let a := tolower (s.headD 0)
    let b := tolower (t.headD 0)
    if a ≠ b then a.toNat - b.toNat
    else if a = 0 then 0
    else strncasecmp s.tail t.tail n

def IPACM_util_icmp_string (xml_str : Option XmlText) (str : String) : Int :=
  match xml_str with
  | none => -1
  | some s => if s.length = (ascii str).length then strncasecmp s.bytes (ascii str) s.length else -1

def isspace (b : UInt8) : Bool := b = 32 || (9 ≤ b && b ≤ 13)

def digits (s : List UInt8) : Nat :=
  (s.takeWhile fun b => 48 ≤ b && b ≤ 57).foldl (fun v b => 10 * v + (b.toNat - 48)) 0

/-- Of a number that an `int` can hold. -/
def atoi (s : List UInt8) : Int :=
  match s.dropWhile isspace with
  | 45 :: s => - digits s
  | 43 :: s => digits s
  | s => digits s

/-- The conversions of addresses, in network order. `inet_pton` is what is in the address after the
    call, the address not having been set before. -/
structure InetLib where
  inet_addr : List UInt8 → Nat
  inet_pton : List UInt8 → List Nat

/-- `MAX_XML_STR_LEN` -/
def maxXmlStrLen : Nat := 120

/-- `content_buf` with a text in it. -/
def contentBuf (s : XmlText) : Except Fault (List UInt8) :=
  if s.length ≤ maxXmlStrLen then
    .ok (s.bytes ++ List.replicate (maxXmlStrLen - s.length) 0)
  else .error .outOfBounds

/-- A terminator at the end of the buffer. -/
def terminate (buf : List UInt8) : List UInt8 := buf.set (maxXmlStrLen - 1) 0

/-- The buffer read as a string. -/
def cString (buf : List UInt8) : Except Fault (List UInt8) :=
  if 0 ∈ buf then .ok (buf.takeWhile (· ≠ 0)) else .error .outOfBounds

/-- The text as it is handed to a converter. -/
def convertible (terminated : Bool) (s : XmlText) : Except Fault (List UInt8) := do
  let buf ← contentBuf s
  cString (if terminated then terminate buf else buf)

/-- `entries[num - 1]` is changed. -/
def modifyLast {α : Type} {n : Nat} (entries : Vector α n) (num : UInt8)
    (f : α → Except Fault α) : Except Fault (Vector α n) :=
  if h : 1 ≤ num.toNat ∧ num.toNat ≤ n then do
    let e ← f (entries.get ⟨num.toNat - 1, by omega⟩)
    .ok (entries.set (num.toNat - 1) e (by omega))
  else .error .outOfBounds

abbrev XmlDoc := XmlNode XmlText

/-! ## The configuration of the interfaces -/

/-- What is in the arrays of `IPACM_conf_t`. -/
inductive CfgEntries where
  | iface
  | subnet
  | alg
deriving DecidableEq, Repr

/-- `IPA_MAX_IFACE_ENTRIES`, `IPA_MAX_PRIVATE_SUBNET_ENTRIES` and `IPA_MAX_ALG_ENTRIES` -/
def CfgEntries.max : CfgEntries → Nat
  | .iface => 15
  | .subnet => ipaMaxPrivateSubnetEntries
  | .alg => 20

/-- The tags that the walk of a configuration file knows. -/
inductive CfgTag where
  | system
  | ODUCFG
  | IPACM
  | IPACMIface
  | Iface
  | IPACMPrivateSubnet
  | Subnet
  | IPACMALG
  | ALG
  | IPACMNAT
  | Mode
  | Name
  | Category
  | SubnetAddress
  | SubnetMask
  | Protocol
  | Port
  | MaxNatEntries
deriving DecidableEq, Repr

namespace CfgTag

/-- In the order in which they are compared. -/
def all : List (CfgTag × String) :=
  [(.system, "system"), (.ODUCFG, "ODUCFG"), (.IPACM, "IPACM"), (.IPACMIface, "IPACMIface"),
    (.Iface, "Iface"), (.IPACMPrivateSubnet, "IPACMPrivateSubnet"), (.Subnet, "Subnet"),
    (.IPACMALG, "IPACMALG"), (.ALG, "ALG"), (.IPACMNAT, "IPACMNAT"), (.Mode, "Mode"),
    (.Name, "Name"), (.Category, "Category"), (.SubnetAddress, "SubnetAddress"),
    (.SubnetMask, "SubnetMask"), (.Protocol, "Protocol"), (.Port, "Port"),
    (.MaxNatEntries, "MaxNatEntries")]

def ofName (name : Option XmlText) : Option CfgTag :=
  (all.find? fun t => IPACM_util_icmp_string name t.2 = 0).map Prod.fst

/-- The walk goes to the children. -/
def descends : CfgTag → Bool
  | .system | .ODUCFG | .IPACM | .IPACMIface | .Iface | .IPACMPrivateSubnet | .Subnet | .IPACMALG
  | .ALG | .IPACMNAT => true
  | _ => false

end CfgTag

/-- The categories, in the order in which they are compared. -/
def xmlCategories : List (String × IfaceType) :=
  [("WAN", .wanIf), ("LAN", .lanIf), ("WLAN", .wlanIf), ("VIRTUAL", .virtualIf),
    ("UNKNOWN", .unknownIf), ("ETH", .ethIf), ("ODU", .oduIf)]

/-- The first string of a list that the text is the beginning of. -/
def matching {α : Type} (strs : List (String × α)) (s : XmlText) : Option α :=
  (strs.find? fun t => strncasecmp s.bytes (ascii t.1) s.length = 0).map Prod.snd

/-- `IPPROTO_TCP` and `IPPROTO_UDP` -/
def xmlProtocols : List (String × BitVec 8) := [("TCP", 6), ("UDP", 17)]

/-- What `router_mode_enable` is set to. -/
def xmlModes : List (String × Bool) := [("router", true), ("bridge", false)]

/-- `strncpy` to the name, and the name printed. A name that fills the array is printed past its
    end. -/
def IfaceName.copy (name : IfaceName) (s : XmlText) : Except Fault IfaceName :=
  if h : s.length < ipaIfaceNameLen then
    .ok ⟨s.bytes ++ name.bytes.drop s.length, by
      have hs : s.bytes.length < ipaIfaceNameLen := h
      have := name.short
      simp only [List.length_append, List.length_drop, XmlText.length]
      omega, by
      simp only [List.mem_append, not_or]
      exact ⟨s.noNul, fun hmem => name.noNul (List.mem_of_mem_drop hmem)⟩⟩
  else .error .outOfBounds

/-- `IPACM_conf_t` -/
structure CfgXml where
  num_iface_entries : UInt8 := 0
  iface_entries : Vector IfiDevName CfgEntries.iface.max :=
    Vector.replicate _ ⟨.empty, .lanIf, 0⟩
  num_subnet_entries : UInt8 := 0
  private_subnet_entries : Vector PrivateSubnet CfgEntries.subnet.max := Vector.replicate _ ⟨0, 0⟩
  num_alg_entries : UInt8 := 0
  alg_entries : Vector Alg CfgEntries.alg.max := Vector.replicate _ ⟨0, 0⟩
  nat_max_entries : Int := 0
  odu_enable : Bool := false
  router_mode_enable : Bool := false

namespace CfgXml

variable (config : CfgXml)

def num : CfgEntries → UInt8
  | .iface => config.num_iface_entries
  | .subnet => config.num_subnet_entries
  | .alg => config.num_alg_entries

def modifyIface (f : IfiDevName → Except Fault IfiDevName) : Except Fault CfgXml := do
  let iface_entries ← modifyLast config.iface_entries config.num_iface_entries f
  .ok { config with iface_entries }

def modifySubnet (f : PrivateSubnet → PrivateSubnet) : Except Fault CfgXml := do
  let private_subnet_entries ←
    modifyLast config.private_subnet_entries config.num_subnet_entries fun e => .ok (f e)
  .ok { config with private_subnet_entries }

def modifyAlg (f : Alg → Alg) : Except Fault CfgXml := do
  let alg_entries ← modifyLast config.alg_entries config.num_alg_entries fun e => .ok (f e)
  .ok { config with alg_entries }

end CfgXml

/-- What is done at a tag that has a text. The other tags do not look at theirs. -/
def CfgTag.store (lib : InetLib) (config : CfgXml) (s : XmlText) : CfgTag → Except Fault CfgXml
  | .Mode => do
      let _ ← contentBuf s
      match matching xmlModes s with
      | some router_mode_enable => .ok { config with router_mode_enable }
      | none => .ok config
  | .Name => do
      let _ ← contentBuf s
      config.modifyIface fun e => do
        let iface_name ← e.iface_name.copy s
        .ok { e with iface_name }
  | .Category => do
      let _ ← contentBuf s
      match matching xmlCategories s with
      | some if_cat => config.modifyIface fun e => .ok { e with if_cat }
      | none => .ok config
  | .SubnetAddress => do
      let text ← convertible true s
      config.modifySubnet ({ · with
        subnet_addr := BitVec.ofNat 32 (Netlink.ntohl (lib.inet_addr text)) })
  | .SubnetMask => do
      let text ← convertible true s
      config.modifySubnet ({ · with
        subnet_mask := BitVec.ofNat 32 (Netlink.ntohl (lib.inet_addr text)) })
  | .Protocol => do
      let _ ← contentBuf s
      match matching xmlProtocols s with
      | some protocol => config.modifyAlg ({ · with protocol })
      | none => .ok config
  | .Port => do
      let text ← convertible false s
      config.modifyAlg ({ · with port := BitVec.ofInt 16 (atoi text) })
  | .MaxNatEntries => do
      let text ← convertible false s
      .ok { config with nat_max_entries := atoi text }
  | _ => .ok config

/-- What is done at a tag, before the walk goes on. -/
def CfgTag.act (lib : InetLib) (t : CfgTag) (content : Option XmlText) (config : CfgXml) :
    Except Fault CfgXml :=
  match t with
  | .Iface => .ok { config with num_iface_entries := config.num_iface_entries + 1 }
  | .Subnet => .ok { config with num_subnet_entries := config.num_subnet_entries + 1 }
  | .ALG => .ok { config with num_alg_entries := config.num_alg_entries + 1 }
  | t =>
    match content with
    | some s => t.store lib config s
    | none => .ok config

def ipacm_cfg_xml_parse_tree (lib : InetLib) (xml_node : XmlDoc) (config : CfgXml) :
    Except Fault CfgXml :=
  xml_node.walk CfgTag.ofName CfgTag.descends (CfgTag.act lib) config

/-- `xml_file` is what `xmlReadFile` makes of it, by the root of the document. Returns whether it
    is `IPACM_SUCCESS`. -/
def ipacm_read_cfg_xml (lib : InetLib) (xml_file : Option XmlDoc) (config : CfgXml) :
    Except Fault (Bool × CfgXml) :=
  match xml_file with
  | none => .ok (false, config)
  | some root => do
      let config ← ipacm_cfg_xml_parse_tree lib root {}
      .ok (true, config)

/-! ## The firewall -/

/-- `IPACM_MAX_FIREWALL_ENTRIES` -/
def ipacmMaxFirewallEntries : Nat := 50

/-- The bits of an `attrib_mask` that are set here. -/
inductive IpaFlt where
  | SRC_ADDR
  | DST_ADDR
  | TOS
  | PROTOCOL
  | NEXT_HDR
  | TC
  | SRC_PORT
  | DST_PORT
  | SRC_PORT_RANGE
  | DST_PORT_RANGE
  | TYPE
  | CODE
  | SPI
deriving DecidableEq, Repr

/-- `IPACM_extd_firewall_entry_conf_t`. The members of `attrib.u.v4` and of `attrib.u.v6`, which
    share their memory, are kept apart by their suffixes. -/
structure ExtdFirewallEntry where
  attrib_mask : List IpaFlt := []
  src_addr_v4 : Nat := 0
  src_addr_mask_v4 : Nat := 0
  dst_addr_v4 : Nat := 0
  dst_addr_mask_v4 : Nat := 0
  tos : BitVec 8 := 0
  protocol : BitVec 8 := 0
  src_addr_v6 : List Nat := List.replicate 4 0
  src_addr_mask_v6 : List Nat := List.replicate 4 0
  dst_addr_v6 : List Nat := List.replicate 4 0
  dst_addr_mask_v6 : List Nat := List.replicate 4 0
  tc : BitVec 8 := 0
  next_hdr : BitVec 8 := 0
  src_port : BitVec 16 := 0
  src_port_lo : BitVec 16 := 0
  src_port_hi : BitVec 16 := 0
  dst_port : BitVec 16 := 0
  dst_port_lo : BitVec 16 := 0
  dst_port_hi : BitVec 16 := 0
  type : BitVec 8 := 0
  code : BitVec 8 := 0
  spi : BitVec 32 := 0
  ip_vsn : Int := 0
deriving DecidableEq, Repr

/-- `IPACM_firewall_conf_t` -/
structure ExtdFirewallConf where
  num_extd_firewall_entries : UInt8 := 0
  extd_firewall_entries : Vector ExtdFirewallEntry ipacmMaxFirewallEntries := Vector.replicate _ {}
  rule_action_accept : Bool := false
  firewall_enable : Bool := false

namespace ExtdFirewallEntry

variable (e : ExtdFirewallEntry)

def setFlag (bit : IpaFlt) : ExtdFirewallEntry := { e with attrib_mask := e.attrib_mask.insert bit }

/-- A source port, with the number of those after it that are meant too. -/
def setSrcRange (range : Int) : ExtdFirewallEntry :=
  if range ≠ 0 then
    { e.setFlag .SRC_PORT_RANGE with
      src_port_lo := e.src_port
      src_port_hi := e.src_port + BitVec.ofInt 16 range
      src_port := 0 }
  else e.setFlag .SRC_PORT

def setDstRange (range : Int) : ExtdFirewallEntry :=
  if range ≠ 0 then
    { e.setFlag .DST_PORT_RANGE with
      dst_port_lo := e.dst_port
      dst_port_hi := e.dst_port + BitVec.ofInt 16 range
      dst_port := 0 }
  else e.setFlag .DST_PORT

end ExtdFirewallEntry

/-- The words of a prefix length. `mask_v6` leaves a word as it is when it has no case for what is
    left of the length. -/
def prefixWords : Int → List Nat → List Nat
  | _, [] => []
  | value, w :: ws =>
    if 32 ≤ value then (Netlink.maskV6 32 (some w)).getD w :: prefixWords (value - 32) ws
    else (if value < 0 then w else (Netlink.maskV6 value.toNat (some w)).getD w) ::
      prefixWords 0 ws

/-- The tags that the walk of a firewall file knows. -/
inductive FirewallTag where
  | system
  | MobileAPFirewallCfg
  | Firewall
  | FirewallEnabled
  | FirewallPktsAllowed
  | IPFamily
  | IPV4SourceAddress
  | IPV4SourceIPAddress
  | IPV4SourceSubnetMask
  | IPV4DestinationAddress
  | IPV4DestinationIPAddress
  | IPV4DestinationSubnetMask
  | IPV4TypeOfService
  | TOSValue
  | TOSMask
  | IPV4NextHeaderProtocol
  | IPV6SourceAddress
  | IPV6SourceIPAddress
  | IPV6SourcePrefix
  | IPV6DestinationAddress
  | IPV6DestinationIPAddress
  | IPV6DestinationPrefix
  | IPV6TrafficClass
  | TrfClsValue
  | TrfClsMask
  | IPV6NextHeaderProtocol
  | TCPSource
  | TCPSourcePort
  | TCPSourceRange
  | TCPDestination
  | TCPDestinationPort
  | TCPDestinationRange
  | UDPSource
  | UDPSourcePort
  | UDPSourceRange
  | UDPDestination
  | UDPDestinationPort
  | UDPDestinationRange
  | ICMPType
  | ICMPCode
  | ESPSPI
  | TCP_UDPSource
  | TCP_UDPSourcePort
  | TCP_UDPSourceRange
  | TCP_UDPDestination
  | TCP_UDPDestinationPort
  | TCP_UDPDestinationRange
deriving DecidableEq, Repr

/-- What a tag does: it goes to its children, opens an entry, is a switch of the whole firewall,
    sets a flag of the entry (all of these go to the children as well), or stores its text in the
    entry. -/
inductive FirewallAct where
  | group
  | entry
  | switch (set : Bool → ExtdFirewallConf → ExtdFirewallConf)
  | flag (bit : IpaFlt)
  | field (terminated : Bool) (set : InetLib → List UInt8 → ExtdFirewallEntry → ExtdFirewallEntry)

namespace FirewallTag

/-- In the order in which they are compared. -/
def all : List (FirewallTag × String) :=
  [(.system, "system"), (.MobileAPFirewallCfg, "MobileAPFirewallCfg"), (.Firewall, "Firewall"),
    (.FirewallEnabled, "FirewallEnabled"), (.FirewallPktsAllowed, "FirewallPktsAllowed"),
    (.IPFamily, "IPFamily"), (.IPV4SourceAddress, "IPV4SourceAddress"),
    (.IPV4SourceIPAddress, "IPV4SourceIPAddress"),
    (.IPV4SourceSubnetMask, "IPV4SourceSubnetMask"),
    (.IPV4DestinationAddress, "IPV4DestinationAddress"),
    (.IPV4DestinationIPAddress, "IPV4DestinationIPAddress"),
    (.IPV4DestinationSubnetMask, "IPV4DestinationSubnetMask"),
    (.IPV4TypeOfService, "IPV4TypeOfService"), (.TOSValue, "TOSValue"), (.TOSMask, "TOSMask"),
    (.IPV4NextHeaderProtocol, "IPV4NextHeaderProtocol"),
    (.IPV6SourceAddress, "IPV6SourceAddress"), (.IPV6SourceIPAddress, "IPV6SourceIPAddress"),
    (.IPV6SourcePrefix, "IPV6SourcePrefix"),
    (.IPV6DestinationAddress, "IPV6DestinationAddress"),
    (.IPV6DestinationIPAddress, "IPV6DestinationIPAddress"),
    (.IPV6DestinationPrefix, "IPV6DestinationPrefix"),
    (.IPV6TrafficClass, "IPV6TrafficClass"), (.TrfClsValue, "TrfClsValue"),
    (.TrfClsMask, "TrfClsMask"), (.IPV6NextHeaderProtocol, "IPV6NextHeaderProtocol"),
    (.TCPSource, "TCPSource"), (.TCPSourcePort, "TCPSourcePort"),
    (.TCPSourceRange, "TCPSourceRange"), (.TCPDestination, "TCPDestination"),
    (.TCPDestinationPort, "TCPDestinationPort"), (.TCPDestinationRange, "TCPDestinationRange"),
    (.UDPSource, "UDPSource"), (.UDPSourcePort, "UDPSourcePort"),
    (.UDPSourceRange, "UDPSourceRange"), (.UDPDestination, "UDPDestination"),
    (.UDPDestinationPort, "UDPDestinationPort"), (.UDPDestinationRange, "UDPDestinationRange"),
    (.ICMPType, "ICMPType"), (.ICMPCode, "ICMPCode"), (.ESPSPI, "ESPSPI"),
    (.TCP_UDPSource, "TCP_UDPSource"), (.TCP_UDPSourcePort, "TCP_UDPSourcePort"),
    (.TCP_UDPSourceRange, "TCP_UDPSourceRange"), (.TCP_UDPDestination, "TCP_UDPDestination"),
    (.TCP_UDPDestinationPort, "TCP_UDPDestinationPort"),
    (.TCP_UDPDestinationRange, "TCP_UDPDestinationRange")]

def ofName (name : Option XmlText) : Option FirewallTag :=
  (all.find? fun t => IPACM_util_icmp_string name t.2 = 0).map Prod.fst

def act : FirewallTag → FirewallAct
  | .system | .MobileAPFirewallCfg => .group
  | .Firewall => .entry
  | .FirewallEnabled => .switch fun firewall_enable c => { c with firewall_enable }
  | .FirewallPktsAllowed => .switch fun rule_action_accept c => { c with rule_action_accept }
  | .IPFamily => .field false fun _ text e => { e with ip_vsn := atoi text }
  | .IPV4SourceAddress => .flag .SRC_ADDR
  | .IPV4SourceIPAddress => .field true fun lib text e =>
    { e with src_addr_v4 := Netlink.ntohl (lib.inet_addr text) }
  | .IPV4SourceSubnetMask => .field true fun lib text e =>
    { e with src_addr_mask_v4 := Netlink.ntohl (lib.inet_addr text) }
  | .IPV4DestinationAddress => .flag .DST_ADDR
  | .IPV4DestinationIPAddress => .field true fun lib text e =>
    { e with dst_addr_v4 := Netlink.ntohl (lib.inet_addr text) }
  | .IPV4DestinationSubnetMask => .field true fun lib text e =>
    { e with dst_addr_mask_v4 := Netlink.ntohl (lib.inet_addr text) }
  | .IPV4TypeOfService => .flag .TOS
  | .TOSValue => .field false fun _ text e => { e with tos := BitVec.ofInt 8 (atoi text) }
  | .TOSMask => .field false fun _ text e =>
    { e with tos := e.tos &&& BitVec.ofInt 8 (atoi text) }
  | .IPV4NextHeaderProtocol => .field false fun _ text e =>
    { e.setFlag .PROTOCOL with protocol := BitVec.ofInt 8 (atoi text) }
  | .IPV6SourceAddress => .flag .SRC_ADDR
  | .IPV6SourceIPAddress => .field false fun lib text e =>
    { e with src_addr_v6 := (lib.inet_pton text).map Netlink.ntohl }
  | .IPV6SourcePrefix => .field false fun _ text e =>
    { e with src_addr_mask_v6 := prefixWords (atoi text) e.src_addr_mask_v6 }
  | .IPV6DestinationAddress => .flag .DST_ADDR
  | .IPV6DestinationIPAddress => .field false fun lib text e =>
    { e with dst_addr_v6 := (lib.inet_pton text).map Netlink.ntohl }
  | .IPV6DestinationPrefix => .field false fun _ text e =>
    { e with dst_addr_mask_v6 := prefixWords (atoi text) e.dst_addr_mask_v6 }
  | .IPV6TrafficClass => .flag .TC
  | .TrfClsValue => .field false fun _ text e => { e with tc := BitVec.ofInt 8 (atoi text) }
  | .TrfClsMask => .field false fun _ text e =>
    { e with tc := e.tc &&& BitVec.ofInt 8 (atoi text) }
  | .IPV6NextHeaderProtocol => .field false fun _ text e =>
    { e.setFlag .NEXT_HDR with next_hdr := BitVec.ofInt 8 (atoi text) }
  | .TCPSource | .UDPSource | .TCP_UDPSource => .group
  | .TCPSourcePort | .UDPSourcePort | .TCP_UDPSourcePort => .field false fun _ text e =>
    { e with src_port := BitVec.ofInt 16 (atoi text) }
  | .TCPSourceRange | .UDPSourceRange | .TCP_UDPSourceRange => .field false fun _ text e =>
    e.setSrcRange (atoi text)
  | .TCPDestination | .UDPDestination | .TCP_UDPDestination => .group
  | .TCPDestinationPort | .UDPDestinationPort | .TCP_UDPDestinationPort =>
    .field false fun _ text e => { e with dst_port := BitVec.ofInt 16 (atoi text) }
  | .TCPDestinationRange | .UDPDestinationRange | .TCP_UDPDestinationRange =>
    .field false fun _ text e => e.setDstRange (atoi text)
  | .ICMPType => .field false fun _ text e =>
    { e.setFlag .TYPE with type := BitVec.ofInt 8 (atoi text) }
  | .ICMPCode => .field false fun _ text e =>
    { e.setFlag .CODE with code := BitVec.ofInt 8 (atoi text) }
  | .ESPSPI => .field false fun _ text e =>
    { e.setFlag .SPI with spi := BitVec.ofInt 32 (atoi text) }

def descends (t : FirewallTag) : Bool :=
  match t.act with
  | .field _ _ => false
  | _ => true

end FirewallTag

def ExtdFirewallConf.modifyEntry (config : ExtdFirewallConf)
    (f : ExtdFirewallEntry → ExtdFirewallEntry) : Except Fault ExtdFirewallConf := do
  let extd_firewall_entries ←
    modifyLast config.extd_firewall_entries config.num_extd_firewall_entries fun e => .ok (f e)
  .ok { config with extd_firewall_entries }

/-- What is done at a tag, before the walk goes on. -/
def FirewallAct.run (lib : InetLib) (content : Option XmlText) (config : ExtdFirewallConf) :
    FirewallAct → Except Fault ExtdFirewallConf
  | .group => .ok config
  | .entry =>
    .ok { config with num_extd_firewall_entries := config.num_extd_firewall_entries + 1 }
  | .switch set =>
    match content with
    | some s => do
        let text ← convertible false s
        .ok (set (atoi text = 1) config)
    | none => .ok config
  | .flag bit => config.modifyEntry (·.setFlag bit)
  | .field terminated set =>
    match content with
    | some s => do
        let text ← convertible terminated s
        config.modifyEntry (set lib text)
    | none => .ok config

def IPACM_firewall_xml_parse_tree (lib : InetLib) (xml_node : XmlDoc) (config : ExtdFirewallConf) :
    Except Fault ExtdFirewallConf :=
  xml_node.walk FirewallTag.ofName FirewallTag.descends
    (fun t content config => t.act.run lib content config) config

/-- The callers have set the configuration to zero. -/
def IPACM_read_firewall_xml (lib : InetLib) (xml_file : Option XmlDoc) (config : ExtdFirewallConf) :
    Except Fault (Bool × ExtdFirewallConf) :=
  match xml_file with
  | none => .ok (false, config)
  | some root => do
      let config ← IPACM_firewall_xml_parse_tree lib root config
      .ok (true, config)

/-! ## The property -/

/-- `num - 1` is an index of an array of `max` entries. -/
def InArray (num max : Nat) : Prop := 1 ≤ num ∧ num ≤ max

/-- The kind of entry that a tag opens. -/
def CfgTag.opens : CfgTag → Option CfgEntries
  | .Iface => some .iface
  | .Subnet => some .subnet
  | .ALG => some .alg
  | _ => none

/-- The longest text that a tag can take, if it looks at its text. -/
def CfgTag.room : CfgTag → Option Nat
  | .Mode | .Category | .SubnetAddress | .SubnetMask | .Protocol => some maxXmlStrLen
  | .Port | .MaxNatEntries => some (maxXmlStrLen - 1)
  | .Name => some (ipaIfaceNameLen - 1)
  | _ => none

/-- The kind of entry that its text is stored in. -/
def CfgTag.entry (s : XmlText) : CfgTag → Option CfgEntries
  | .Name => some .iface
  | .Category => (matching xmlCategories s).map fun _ => .iface
  | .SubnetAddress | .SubnetMask => some .subnet
  | .Protocol => (matching xmlProtocols s).map fun _ => .alg
  | .Port => some .alg
  | _ => none

/-- The text of a tag is not too long, and after so many opening tags of each kind there is an entry
    for it. -/
def CfgFits (num : CfgEntries → Nat) (v : CfgTag × Option XmlText) : Prop :=
  ∀ s ∈ v.2, (∀ room ∈ v.1.room, s.length ≤ room) ∧ ∀ k ∈ v.1.entry s, InArray (num k) k.max

/-- The opening tags of a kind, as they are counted by a byte. -/
def cfgOpened (vs : List (CfgTag × Option XmlText)) (k : CfgEntries) : Nat :=
  vs.countP (fun v => v.1.opens = some k) % 256

/-- Every tag that the walk comes to fits after those before it. -/
def CfgInBounds (root : XmlDoc) : Prop :=
  ∀ i v, (root.visited CfgTag.ofName CfgTag.descends)[i]? = some v →
    CfgFits (cfgOpened ((root.visited CfgTag.ofName CfgTag.descends).take i)) v

/-- The same for a tag of a firewall file. -/
def FirewallFits (num : Nat) (v : FirewallTag × Option XmlText) : Prop :=
  match v.1.act with
  | .group | .entry => True
  | .switch _ => ∀ s ∈ v.2, s.length ≤ maxXmlStrLen - 1
  | .flag _ => InArray num ipacmMaxFirewallEntries
  | .field terminated _ => ∀ s ∈ v.2,
      s.length ≤ (if terminated then maxXmlStrLen else maxXmlStrLen - 1) ∧
        InArray num ipacmMaxFirewallEntries

/-- The tags that open an entry. -/
def firewallsOpened (vs : List (FirewallTag × Option XmlText)) : Nat :=
  vs.countP fun v => v.1 = .Firewall

/-- Every tag that the walk comes to fits after those before it, `num` being what the number of
    entries is before the first. -/
def FirewallInBounds (num : Nat) (root : XmlDoc) : Prop :=
  ∀ i v, (root.visited FirewallTag.ofName FirewallTag.descends)[i]? = some v →
    FirewallFits ((num + firewallsOpened
      ((root.visited FirewallTag.ofName FirewallTag.descends).take i)) % 256) v

/-! ## What a tag needs -/

theorem exists_bind_ok {ε α β : Type} {x : Except ε α} {f : α → Except ε β} :
    (∃ b, (x >>= f) = .ok b) ↔ ∃ a, x = .ok a ∧ ∃ b, f a = .ok b := by
  constructor
  · rintro ⟨b, h⟩
    obtain ⟨a, hx, hf⟩ := bind_eq_ok h
    exact ⟨a, hx, b, hf⟩
  · rintro ⟨a, rfl, b, hf⟩
    exact ⟨b, hf⟩

@[simp] theorem exists_ok {ε α : Type} (a : α) : ∃ b, (Except.ok a : Except ε α) = .ok b := ⟨a, rfl⟩

variable {P : Prop} {α : Type}

theorem contentBuf_bind_iff {s : XmlText} {f : List UInt8 → Except Fault α}
    (h : ∀ buf, (∃ a, f buf = .ok a) ↔ P) :
    (∃ a, (contentBuf s >>= f) = .ok a) ↔ s.length ≤ maxXmlStrLen ∧ P := by
  rw [exists_bind_ok]
  unfold contentBuf
  by_cases hlen : s.length ≤ maxXmlStrLen
  · simp [hlen, h]
  · simp [hlen]

theorem zero_mem_buf {s : XmlText} (hlen : s.length ≤ maxXmlStrLen) (terminated : Bool) :
    0 ∈ (if terminated then
        terminate (s.bytes ++ List.replicate (maxXmlStrLen - s.length) 0)
      else s.bytes ++ List.replicate (maxXmlStrLen - s.length) 0) ↔
      s.length ≤ if terminated then maxXmlStrLen else maxXmlStrLen - 1 := by
  cases terminated with
  | true =>
    have hsize :
        (s.bytes ++ List.replicate (maxXmlStrLen - s.length) 0).length = maxXmlStrLen := by
      rw [List.length_append, List.length_replicate]
      exact Nat.add_sub_of_le hlen
    have hmem : (0 : UInt8) ∈ terminate (s.bytes ++ List.replicate (maxXmlStrLen - s.length) 0) :=
      List.mem_set (by rw [hsize]; decide) 0
    simp [hmem, hlen]
  | false =>
    have hpos : 0 < maxXmlStrLen := by decide
    simp only [Bool.false_eq_true, if_false, List.mem_append, List.mem_replicate, s.noNul,
      false_or, and_true]
    omega

theorem convertible_bind_iff {s : XmlText} {terminated : Bool}
    {f : List UInt8 → Except Fault α} (h : ∀ text, (∃ a, f text = .ok a) ↔ P) :
    (∃ a, (convertible terminated s >>= f) = .ok a) ↔
      s.length ≤ (if terminated then maxXmlStrLen else maxXmlStrLen - 1) ∧ P := by
  rw [exists_bind_ok]
  unfold convertible contentBuf
  by_cases hlen : s.length ≤ maxXmlStrLen
  · have hzero := zero_mem_buf hlen terminated
    simp only [hlen, if_true, ok_bind, cString]
    by_cases hmem : s.length ≤ if terminated then maxXmlStrLen else maxXmlStrLen - 1
    · simp [hzero.2 hmem, hmem, h]
    · simp [mt hzero.1 hmem, hmem]
  · have hlong : ¬ s.length ≤ if terminated then maxXmlStrLen else maxXmlStrLen - 1 := by
      split <;> omega
    simp [hlen, hlong]

theorem modifyLast_iff {n : Nat} {entries : Vector α n} {num : UInt8}
    {f : α → Except Fault α} (h : ∀ e, (∃ e', f e = .ok e') ↔ P) :
    (∃ es, modifyLast entries num f = .ok es) ↔ InArray num.toNat n ∧ P := by
  unfold modifyLast InArray
  split
  · next hin =>
    rw [exists_bind_ok]
    simp only [exists_ok, and_true, h, hin, true_and]
  · next hout => simp [hout]

theorem IfaceName.copy_iff (name : IfaceName) (s : XmlText) :
    (∃ n, name.copy s = .ok n) ↔ s.length ≤ ipaIfaceNameLen - 1 := by
  have hpos : 0 < ipaIfaceNameLen := by decide
  unfold IfaceName.copy
  split <;> simp <;> omega

section Cfg

variable {lib : InetLib} {config config' : CfgXml} {s : XmlText} {t : CfgTag}
  {content : Option XmlText}

theorem CfgXml.modifyIface_iff {f : IfiDevName → Except Fault IfiDevName} {P : Prop}
    (h : ∀ e, (∃ e', f e = .ok e') ↔ P) : (∃ c, config.modifyIface f = .ok c) ↔
      InArray (config.num .iface).toNat CfgEntries.iface.max ∧ P := by
  unfold CfgXml.modifyIface
  rw [exists_bind_ok]
  simp only [exists_ok, and_true]
  exact modifyLast_iff h

theorem CfgXml.modifySubnet_iff {f : PrivateSubnet → PrivateSubnet} :
    (∃ c, config.modifySubnet f = .ok c) ↔
      InArray (config.num .subnet).toNat CfgEntries.subnet.max := by
  unfold CfgXml.modifySubnet
  rw [exists_bind_ok]
  simp only [exists_ok, and_true]
  rw [modifyLast_iff (P := True) (by simp), and_true]
  rfl

theorem CfgXml.modifyAlg_iff {f : Alg → Alg} : (∃ c, config.modifyAlg f = .ok c) ↔
    InArray (config.num .alg).toNat CfgEntries.alg.max := by
  unfold CfgXml.modifyAlg
  rw [exists_bind_ok]
  simp only [exists_ok, and_true]
  rw [modifyLast_iff (P := True) (by simp), and_true]
  rfl

theorem CfgTag.store_iff : (∃ c, t.store lib config s = .ok c) ↔
    (∀ room ∈ t.room, s.length ≤ room) ∧
      ∀ k ∈ t.entry s, InArray (config.num k).toNat k.max := by
  cases t with
  | Mode =>
    unfold CfgTag.store
    rw [contentBuf_bind_iff (P := True) fun _ => ?_]
    · simp [CfgTag.room, CfgTag.entry]
    · split <;> simp
  | Name =>
    have hroom : s.length ≤ ipaIfaceNameLen - 1 → s.length ≤ maxXmlStrLen := by
      intro h
      exact Nat.le_trans h (by decide)
    unfold CfgTag.store
    have hname : ∀ e : IfiDevName, (∃ e', (do
        let iface_name ← e.iface_name.copy s
        Except.ok { e with iface_name } : Except Fault IfiDevName) = .ok e') ↔
          s.length ≤ ipaIfaceNameLen - 1 := by
      intro e
      rw [exists_bind_ok]
      simp only [exists_ok, and_true]
      exact e.iface_name.copy_iff s
    rw [contentBuf_bind_iff fun _ => CfgXml.modifyIface_iff hname]
    simp only [CfgTag.room, CfgTag.entry, Option.mem_some_iff, forall_eq']
    constructor
    · exact fun ⟨_, harray, hlen⟩ => ⟨hlen, harray⟩
    · exact fun ⟨hlen, harray⟩ => ⟨hroom hlen, harray, hlen⟩
  | Category =>
    unfold CfgTag.store
    cases hmatch : matching xmlCategories s with
    | none =>
      rw [contentBuf_bind_iff (P := True) fun _ => by simp]
      simp [CfgTag.room, CfgTag.entry, hmatch]
    | some if_cat =>
      rw [contentBuf_bind_iff fun _ => CfgXml.modifyIface_iff (P := True) fun _ => by simp]
      simp [CfgTag.room, CfgTag.entry, hmatch]
  | SubnetAddress | SubnetMask =>
    unfold CfgTag.store
    rw [convertible_bind_iff fun _ => CfgXml.modifySubnet_iff]
    simp [CfgTag.room, CfgTag.entry]
  | Protocol =>
    unfold CfgTag.store
    cases hmatch : matching xmlProtocols s with
    | none =>
      rw [contentBuf_bind_iff (P := True) fun _ => by simp]
      simp [CfgTag.room, CfgTag.entry, hmatch]
    | some protocol =>
      rw [contentBuf_bind_iff fun _ => CfgXml.modifyAlg_iff]
      simp [CfgTag.room, CfgTag.entry, hmatch]
  | Port =>
    unfold CfgTag.store
    rw [convertible_bind_iff fun _ => CfgXml.modifyAlg_iff]
    simp [CfgTag.room, CfgTag.entry]
  | MaxNatEntries =>
    unfold CfgTag.store
    rw [convertible_bind_iff (P := True) fun _ => by simp]
    simp [CfgTag.room, CfgTag.entry]
  | _ => simp [CfgTag.store, CfgTag.room, CfgTag.entry]

theorem CfgTag.act_none (h : t.opens = none) : t.act lib none config = .ok config := by
  cases t <;> first | rfl | cases h

theorem CfgTag.act_some (h : t.opens = none) :
    t.act lib (some s) config = t.store lib config s := by
  cases t <;> first | rfl | cases h

theorem CfgTag.act_iff : (∃ c, t.act lib content config = .ok c) ↔
    CfgFits (fun k => (config.num k).toNat) (t, content) := by
  unfold CfgFits
  cases content with
  | none => cases t <;> simp [CfgTag.act]
  | some s =>
    by_cases hopens : t.opens = none
    · rw [CfgTag.act_some hopens, CfgTag.store_iff]
      simp
    · cases t <;> simp [CfgTag.opens] at hopens <;> simp [CfgTag.act, CfgTag.room, CfgTag.entry]

theorem CfgXml.modifyIface_num {f : IfiDevName → Except Fault IfiDevName}
    (h : config.modifyIface f = .ok config') : config'.num = config.num := by
  obtain ⟨es, -, h⟩ := bind_eq_ok h
  cases h
  rfl

theorem CfgXml.modifySubnet_num {f : PrivateSubnet → PrivateSubnet}
    (h : config.modifySubnet f = .ok config') : config'.num = config.num := by
  obtain ⟨es, -, h⟩ := bind_eq_ok h
  cases h
  rfl

theorem CfgXml.modifyAlg_num {f : Alg → Alg} (h : config.modifyAlg f = .ok config') :
    config'.num = config.num := by
  obtain ⟨es, -, h⟩ := bind_eq_ok h
  cases h
  rfl

theorem CfgTag.store_num (h : t.store lib config s = .ok config') : config'.num = config.num := by
  cases t with
  | Mode =>
    obtain ⟨buf, -, h⟩ := bind_eq_ok h
    split at h <;> (obtain rfl := Except.ok.inj h; rfl)
  | Name =>
    obtain ⟨buf, -, h⟩ := bind_eq_ok h
    exact CfgXml.modifyIface_num h
  | Category =>
    obtain ⟨buf, -, h⟩ := bind_eq_ok h
    split at h
    · exact CfgXml.modifyIface_num h
    · rw [Except.ok.inj h]
  | SubnetAddress | SubnetMask =>
    obtain ⟨text, -, h⟩ := bind_eq_ok h
    exact CfgXml.modifySubnet_num h
  | Protocol =>
    obtain ⟨buf, -, h⟩ := bind_eq_ok h
    split at h
    · exact CfgXml.modifyAlg_num h
    · rw [Except.ok.inj h]
  | Port =>
    obtain ⟨text, -, h⟩ := bind_eq_ok h
    exact CfgXml.modifyAlg_num h
  | MaxNatEntries =>
    obtain ⟨text, -, h⟩ := bind_eq_ok h
    cases h
    rfl
  | _ => rw [Except.ok.inj h]

/-- A byte counts one more. -/
def cfgCount (num : CfgEntries → Nat) (v : CfgTag × Option XmlText) (k : CfgEntries) : Nat :=
  (num k + if v.1.opens = some k then 1 else 0) % 256

theorem CfgTag.act_num (h : t.act lib content config = .ok config') :
    (fun k => (config'.num k).toNat) = cfgCount (fun k => (config.num k).toNat) (t, content) := by
  funext k
  have hlt := (config.num k).toNat_lt
  by_cases hopens : t.opens = none
  · have hnum : config'.num = config.num := by
      cases content with
      | none => rw [Except.ok.inj ((CfgTag.act_none hopens).symm.trans h)]
      | some s => exact CfgTag.store_num (CfgTag.act_some hopens ▸ h)
    rw [hnum, cfgCount, hopens, if_neg (by simp), Nat.add_zero, Nat.mod_eq_of_lt hlt]
  · cases t <;> simp [CfgTag.opens] at hopens <;> obtain rfl := Except.ok.inj h <;> cases k <;>
      simp [cfgCount, CfgXml.num, CfgTag.opens]

theorem foldl_cfgCount (vs : List (CfgTag × Option XmlText)) (num : CfgEntries → Nat)
    (k : CfgEntries) (hlt : num k < 256) :
    vs.foldl cfgCount num k = (num k + vs.countP fun v => v.1.opens = some k) % 256 := by
  induction vs generalizing num with
  | nil => simp [Nat.mod_eq_of_lt hlt]
  | cons v vs ih =>
    rw [List.foldl_cons, ih _ (Nat.mod_lt _ (by decide)), List.countP_cons, cfgCount]
    by_cases h : v.1.opens = some k
    · simp only [h, if_true, decide_true]
      omega
    · simp only [h, if_false, decide_false, Bool.false_eq_true]
      omega

theorem ipacm_cfg_xml_parse_tree_iff (root : XmlDoc) :
    (∃ c, ipacm_cfg_xml_parse_tree lib root {} = .ok c) ↔ CfgInBounds root := by
  unfold ipacm_cfg_xml_parse_tree CfgInBounds
  rw [XmlNode.walk_ok_iff (fun c k => (CfgXml.num c k).toNat) cfgCount CfgFits
    (fun _ _ _ => CfgTag.act_iff) fun _ _ _ _ => CfgTag.act_num]
  have hcount : ∀ vs, vs.foldl cfgCount (fun k => (CfgXml.num {} k).toNat) = cfgOpened vs := by
    intro vs
    funext k
    have hzero : (CfgXml.num {} k).toNat = 0 := by cases k <;> rfl
    rw [foldl_cfgCount vs _ k (by rw [hzero]; decide), hzero, Nat.zero_add]
    rfl
  simp only [hcount]

end Cfg

section Firewall

variable {lib : InetLib} {config config' : ExtdFirewallConf} {t : FirewallTag} {act : FirewallAct}
  {content : Option XmlText}

theorem ExtdFirewallConf.modifyEntry_iff {f : ExtdFirewallEntry → ExtdFirewallEntry} :
    (∃ c, config.modifyEntry f = .ok c) ↔
      InArray config.num_extd_firewall_entries.toNat ipacmMaxFirewallEntries := by
  unfold ExtdFirewallConf.modifyEntry
  rw [exists_bind_ok]
  simp only [exists_ok, and_true]
  rw [modifyLast_iff (P := True) (by simp), and_true]

theorem ExtdFirewallConf.modifyEntry_num {f : ExtdFirewallEntry → ExtdFirewallEntry}
    (h : config.modifyEntry f = .ok config') :
    config'.num_extd_firewall_entries = config.num_extd_firewall_entries := by
  obtain ⟨es, -, h⟩ := bind_eq_ok h
  cases h
  rfl

theorem FirewallTag.run_iff : (∃ c, t.act.run lib content config = .ok c) ↔
    FirewallFits config.num_extd_firewall_entries.toNat (t, content) := by
  unfold FirewallFits
  cases t.act with
  | group | entry => simp [FirewallAct.run]
  | switch set =>
    cases content with
    | none => simp [FirewallAct.run]
    | some s =>
      unfold FirewallAct.run
      rw [convertible_bind_iff (P := True) fun _ => by simp]
      simp
  | flag bit => exact ExtdFirewallConf.modifyEntry_iff
  | field terminated set =>
    cases content with
    | none => simp [FirewallAct.run]
    | some s =>
      unfold FirewallAct.run
      rw [convertible_bind_iff fun _ => ExtdFirewallConf.modifyEntry_iff]
      simp

/-- A byte counts one more. -/
def firewallCount (num : Nat) (v : FirewallTag × Option XmlText) : Nat :=
  (num + if v.1 = .Firewall then 1 else 0) % 256

theorem FirewallTag.switch_num {set : Bool → ExtdFirewallConf → ExtdFirewallConf}
    (hact : t.act = .switch set) (b : Bool) (c : ExtdFirewallConf) :
    (set b c).num_extd_firewall_entries = c.num_extd_firewall_entries := by
  cases t <;> cases hact <;> rfl

theorem FirewallTag.entry_iff : t.act = .entry ↔ t = .Firewall := by
  cases t <;> simp [FirewallTag.act]

theorem FirewallTag.run_num (h : t.act.run lib content config = .ok config') :
    config'.num_extd_firewall_entries.toNat =
      firewallCount config.num_extd_firewall_entries.toNat (t, content) := by
  have hlt := config.num_extd_firewall_entries.toNat_lt
  have hsame : t ≠ .Firewall →
      config'.num_extd_firewall_entries = config.num_extd_firewall_entries →
      config'.num_extd_firewall_entries.toNat =
        firewallCount config.num_extd_firewall_entries.toNat (t, content) := by
    intro hne heq
    rw [heq, firewallCount, if_neg hne, Nat.add_zero, Nat.mod_eq_of_lt hlt]
  have hne : t.act ≠ .entry → t ≠ .Firewall := mt FirewallTag.entry_iff.2
  cases hact : t.act with
  | entry =>
    rw [hact] at h
    cases h
    simp [firewallCount, FirewallTag.entry_iff.1 hact]
  | group =>
    rw [hact] at h
    refine hsame (hne (by simp [hact])) ?_
    rw [Except.ok.inj h]
  | flag bit =>
    rw [hact] at h
    exact hsame (hne (by simp [hact])) (ExtdFirewallConf.modifyEntry_num h)
  | switch set =>
    rw [hact] at h
    refine hsame (hne (by simp [hact])) ?_
    cases content with
    | none => rw [Except.ok.inj h]
    | some s =>
      obtain ⟨text, -, h⟩ := bind_eq_ok h
      cases h
      exact FirewallTag.switch_num hact _ _
  | field terminated set =>
    rw [hact] at h
    refine hsame (hne (by simp [hact])) ?_
    cases content with
    | none => rw [Except.ok.inj h]
    | some s =>
      obtain ⟨text, -, h⟩ := bind_eq_ok h
      exact ExtdFirewallConf.modifyEntry_num h

theorem foldl_firewallCount (vs : List (FirewallTag × Option XmlText)) (num : Nat)
    (hlt : num < 256) : vs.foldl firewallCount num = (num + firewallsOpened vs) % 256 := by
  induction vs generalizing num with
  | nil => simp [firewallsOpened, Nat.mod_eq_of_lt hlt]
  | cons v vs ih =>
    rw [List.foldl_cons, ih _ (show firewallCount num v < 256 from Nat.mod_lt _ (by decide))]
    unfold firewallsOpened firewallCount
    rw [List.countP_cons]
    by_cases h : v.1 = .Firewall
    · simp only [h, if_true, decide_true]
      omega
    · simp only [h, if_false, decide_false, Bool.false_eq_true]
      omega

theorem IPACM_firewall_xml_parse_tree_iff (root : XmlDoc) :
    (∃ c, IPACM_firewall_xml_parse_tree lib root config = .ok c) ↔
      FirewallInBounds config.num_extd_firewall_entries.toNat root := by
  unfold IPACM_firewall_xml_parse_tree FirewallInBounds
  rw [XmlNode.walk_ok_iff (fun c : ExtdFirewallConf => c.num_extd_firewall_entries.toNat)
    firewallCount FirewallFits (fun _ _ _ => FirewallTag.run_iff) fun _ _ _ _ => FirewallTag.run_num]
  have hlt := config.num_extd_firewall_entries.toNat_lt
  simp only [foldl_firewallCount _ _ hlt]

end Firewall

/-- **The configuration files.** Whatever the document, the two readers stay inside their arrays and
    the buffer if and only if each text is as short as its tag needs it, and each tag that is stored
    in an entry comes after at least one opening tag of its kind and at most as many as there are
    entries, as a byte counts them. -/
theorem read_xml_iff (lib : InetLib) (root : XmlDoc) :
    (∀ config, (∃ r, ipacm_read_cfg_xml lib (some root) config = .ok r) ↔ CfgInBounds root) ∧
      ∀ config, (∃ r, IPACM_read_firewall_xml lib (some root) config = .ok r) ↔
        FirewallInBounds config.num_extd_firewall_entries.toNat root := by
  refine ⟨fun config => ?_, fun config => ?_⟩
  · unfold ipacm_read_cfg_xml
    rw [exists_bind_ok]
    simp only [exists_ok, and_true]
    exact ipacm_cfg_xml_parse_tree_iff root
  · unfold IPACM_read_firewall_xml
    rw [exists_bind_ok]
    simp only [exists_ok, and_true]
    exact IPACM_firewall_xml_parse_tree_iff root

/-- An element with its children. -/
def xmlElement (name : String) (h : 0 ∉ ascii name) (children next : XmlDoc) : XmlDoc :=
  .node .element (some ⟨ascii name, h⟩) none children next

def xmlString (content : String) (h : 0 ∉ ascii content) : XmlDoc :=
  .node .text none (some ⟨ascii content, h⟩) .null .null

/-- So many rules, each with an IP family. -/
def firewallRules : Nat → XmlDoc
  | 0 => .null
  | n + 1 => xmlElement "Firewall" (by decide)
      (xmlElement "IPFamily" (by decide) (xmlString "4" (by decide)) .null) (firewallRules n)

/-- A firewall file with one rule more than there are entries. -/
def longFirewall : XmlDoc :=
  xmlElement "system" (by decide)
    (xmlElement "MobileAPFirewallCfg" (by decide) (firewallRules 51) .null) .null

/-- The 51st rule is stored past the end of the array. -/
theorem read_xml_overflows : ¬ ∀ lib root,
    (∀ config, ∃ r, ipacm_read_cfg_xml lib (some root) config = .ok r) ∧
      ∀ config, ∃ r, IPACM_read_firewall_xml lib (some root) config = .ok r := by
  intro h
  obtain ⟨r, hr⟩ := (h ⟨fun _ => 0, fun _ => []⟩ longFirewall).2 {}
  have hfault : (IPACM_read_firewall_xml ⟨fun _ => 0, fun _ => []⟩ (some longFirewall)
      {}).toOption.isNone = true := by
    decide +kernel
  rw [hr] at hfault
  cases hfault

end Nx508j.Ipacm
