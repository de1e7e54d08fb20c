import Nx508j.Ipacm.NetlinkRoutes
import Nx508j.Ipacm.Xml
import Nx508j.Lib.XmlShuffle

/-! # The order of the tags of a firewall entry

The walk of a firewall file stores the text of each tag as it comes to it. Most tags have a part of
the entry for themselves. A port and its range, a value and its mask share one, and what is stored
there depends on which of them comes first. -/

namespace Nx508j.Ipacm

open Nx508j.Lib XmlNode

/-! ## What the tags store -/

/-- What is stored in an entry. The tags for TCP, for UDP and for both store the same. -/
inductive FwField where
  | ipVsn
  | srcAddrV4
  | srcMaskV4
  | dstAddrV4
  | dstMaskV4
  | tosValue
  | tosMask
  | protocol
  | srcAddrV6
  | srcPrefix
  | dstAddrV6
  | dstPrefix
  | tcValue
  | tcMask
  | nextHdr
  | srcPort
  | srcRange
  | dstPort
  | dstRange
  | icmpType
  | icmpCode
  | spi
deriving DecidableEq, Repr

namespace FwField

/-- How it is stored. -/
def set : FwField → InetLib → List UInt8 → ExtdFirewallEntry → ExtdFirewallEntry
  | .ipVsn, _, text, e => { e with ip_vsn := atoi text }
  | .srcAddrV4, lib, text, e => { e with src_addr_v4 := Netlink.ntohl (lib.inet_addr text) }
  | .srcMaskV4, lib, text, e => { e with src_addr_mask_v4 := Netlink.ntohl (lib.inet_addr text) }
  | .dstAddrV4, lib, text, e => { e with dst_addr_v4 := Netlink.ntohl (lib.inet_addr text) }
  | .dstMaskV4, lib, text, e => { e with dst_addr_mask_v4 := Netlink.ntohl (lib.inet_addr text) }
  | .tosValue, _, text, e => { e with tos := BitVec.ofInt 8 (atoi text) }
  | .tosMask, _, text, e => { e with tos := e.tos &&& BitVec.ofInt 8 (atoi text) }
  | .protocol, _, text, e => { e.setFlag .PROTOCOL with protocol := BitVec.ofInt 8 (atoi text) }
  | .srcAddrV6, lib, text, e =>
    { e with src_addr_v6 := (lib.inet_pton text).map Netlink.ntohl }
  | .srcPrefix, _, text, e =>
    { e with src_addr_mask_v6 := prefixWords (atoi text) e.src_addr_mask_v6 }
  | .dstAddrV6, lib, text, e =>
    { e with dst_addr_v6 := (lib.inet_pton text).map Netlink.ntohl }
  | .dstPrefix, _, text, e =>
    { e with dst_addr_mask_v6 := prefixWords (atoi text) e.dst_addr_mask_v6 }
  | .tcValue, _, text, e => { e with tc := BitVec.ofInt 8 (atoi text) }
  | .tcMask, _, text, e => { e with tc := e.tc &&& BitVec.ofInt 8 (atoi text) }
  | .nextHdr, _, text, e => { e.setFlag .NEXT_HDR with next_hdr := BitVec.ofInt 8 (atoi text) }
  | .srcPort, _, text, e => { e with src_port := BitVec.ofInt 16 (atoi text) }
  | .srcRange, _, text, e => e.setSrcRange (atoi text)
  | .dstPort, _, text, e => { e with dst_port := BitVec.ofInt 16 (atoi text) }
  | .dstRange, _, text, e => e.setDstRange (atoi text)
  | .icmpType, _, text, e => { e.setFlag .TYPE with type := BitVec.ofInt 8 (atoi text) }
  | .icmpCode, _, text, e => { e.setFlag .CODE with code := BitVec.ofInt 8 (atoi text) }
  | .spi, _, text, e => { e.setFlag .SPI with spi := BitVec.ofInt 32 (atoi text) }

/-- The numbers that it can hold. -/
def InRange (n : Int) : FwField → Prop
  | .tosValue | .tosMask | .protocol | .tcValue | .tcMask | .nextHdr | .icmpType | .icmpCode =>
    0 ≤ n ∧ n < 0x100
  | .srcPort | .srcRange | .dstPort | .dstRange => 0 ≤ n ∧ n < 0x10000
  | .srcPrefix | .dstPrefix => 0 ≤ n ∧ n ≤ 128
  | .spi => 0 ≤ n ∧ n < 0x100000000
  | .ipVsn | .srcAddrV4 | .srcMaskV4 | .dstAddrV4 | .dstMaskV4 | .srcAddrV6 | .dstAddrV6 => True

instance instDecidableInRange (n : Int) : (k : FwField) → Decidable (k.InRange n)
  | .tosValue | .tosMask | .protocol | .tcValue | .tcMask | .nextHdr | .icmpType | .icmpCode =>
    inferInstanceAs (Decidable (0 ≤ n ∧ n < 0x100))
  | .srcPort | .srcRange | .dstPort | .dstRange =>
    inferInstanceAs (Decidable (0 ≤ n ∧ n < 0x10000))
  | .srcPrefix | .dstPrefix => inferInstanceAs (Decidable (0 ≤ n ∧ n ≤ 128))
  | .spi => inferInstanceAs (Decidable (0 ≤ n ∧ n < 0x100000000))
  | .ipVsn | .srcAddrV4 | .srcMaskV4 | .dstAddrV4 | .dstMaskV4 | .srcAddrV6 | .dstAddrV6 =>
    inferInstanceAs (Decidable True)

/-- The fields that are in `attrib.u.v4` and in `attrib.u.v6`. -/
def version : FwField → Option Nat
  | .srcAddrV4 | .srcMaskV4 | .dstAddrV4 | .dstMaskV4 | .tosValue | .tosMask | .protocol => some 4
  | .srcAddrV6 | .srcPrefix | .dstAddrV6 | .dstPrefix | .tcValue | .tcMask | .nextHdr => some 6
  | .ipVsn | .srcPort | .srcRange | .dstPort | .dstRange | .icmpType | .icmpCode | .spi => none

end FwField

/-- What a tag stores. -/
def FirewallTag.field : FirewallTag → Option FwField
  | .IPFamily => some .ipVsn
  | .IPV4SourceIPAddress => some .srcAddrV4
  | .IPV4SourceSubnetMask => some .srcMaskV4
  | .IPV4DestinationIPAddress => some .dstAddrV4
  | .IPV4DestinationSubnetMask => some .dstMaskV4
  | .TOSValue => some .tosValue
  | .TOSMask => some .tosMask
  | .IPV4NextHeaderProtocol => some .protocol
  | .IPV6SourceIPAddress => some .srcAddrV6
  | .IPV6SourcePrefix => some .srcPrefix
  | .IPV6DestinationIPAddress => some .dstAddrV6
  | .IPV6DestinationPrefix => some .dstPrefix
  | .TrfClsValue => some .tcValue
  | .TrfClsMask => some .tcMask
  | .IPV6NextHeaderProtocol => some .nextHdr
  | .TCPSourcePort | .UDPSourcePort | .TCP_UDPSourcePort => some .srcPort
  | .TCPSourceRange | .UDPSourceRange | .TCP_UDPSourceRange => some .srcRange
  | .TCPDestinationPort | .UDPDestinationPort | .TCP_UDPDestinationPort => some .dstPort
  | .TCPDestinationRange | .UDPDestinationRange | .TCP_UDPDestinationRange => some .dstRange
  | .ICMPType => some .icmpType
  | .ICMPCode => some .icmpCode
  | .ESPSPI => some .spi
  | _ => none

/-- A tag with a field does nothing but to store it. -/
theorem FirewallTag.act_of_field {t : FirewallTag} {k : FwField} (h : t.field = some k) :
    ∃ terminated, t.act = .field terminated k.set := by
  cases t <;> cases h <;> exact ⟨_, rfl⟩

theorem FirewallTag.descends_iff {t : FirewallTag} : t.descends = false ↔ t.field.isSome := by
  cases t <;> simp [FirewallTag.descends, FirewallTag.act, FirewallTag.field]

/-! ## The property -/

/-- A field with its text. -/
def itemOf (v : FirewallTag × Option XmlText) : Option (FwField × XmlText) :=
  match v.1.field, v.2 with
  | some k, some s => some (k, s)
  | _, _ => none

/-- The fields that the walk of an element comes to, with their texts. -/
def fieldItems (children : XmlDoc) : List (FwField × XmlText) :=
  (children.leaves FirewallTag.ofName FirewallTag.descends).filterMap itemOf

/-- A `Firewall` element with fields of one IP version, each of them at most once and with a value
    in its range. -/
structure FirewallFields (name : Option XmlText) (children : XmlDoc) : Prop where
  tag : FirewallTag.ofName name = some .Firewall
  inside : ∀ v ∈ children.visited FirewallTag.ofName FirewallTag.descends,
    v.1 ∉ [.Firewall, .FirewallEnabled, .FirewallPktsAllowed]
  once : ((fieldItems children).map Prod.fst).Nodup
  short : ∀ i ∈ fieldItems children, i.2.length < maxXmlStrLen
  inRange : ∀ i ∈ fieldItems children, i.1.InRange (atoi i.2.bytes)
  oneVersion : ∀ i ∈ fieldItems children, ∀ j ∈ fieldItems children,
    ∀ n ∈ i.1.version, ∀ m ∈ j.1.version, n = m

/-- The entry that was opened last. -/
def ExtdFirewallConf.lastEntry (config : ExtdFirewallConf) : Option ExtdFirewallEntry :=
  if h : 1 ≤ config.num_extd_firewall_entries.toNat ∧
      config.num_extd_firewall_entries.toNat ≤ ipacmMaxFirewallEntries then
    some (config.extd_firewall_entries.get ⟨config.num_extd_firewall_entries.toNat - 1, by omega⟩)
  else none

/-- There is room for one more entry, which is clear. -/
def ExtdFirewallConf.Room (config : ExtdFirewallConf) : Prop :=
  ∃ h : config.num_extd_firewall_entries.toNat < ipacmMaxFirewallEntries,
    config.extd_firewall_entries.get ⟨config.num_extd_firewall_entries.toNat, h⟩ = {}

/-- The walk of a `Firewall` element leaves this entry. -/
def Stores (lib : InetLib) (name : Option XmlText) (children : XmlDoc) (e : ExtdFirewallEntry) :
    Prop :=
  ∀ config : ExtdFirewallConf, config.Room → ∃ config',
    IPACM_firewall_xml_parse_tree lib (.node .element name none children .null) config =
      .ok config' ∧ config'.lastEntry = some e

/-- The same values and the same mask bits, in whatever order these were set. -/
structure ExtdFirewallEntry.Same (e e' : ExtdFirewallEntry) : Prop where
  values : { e with attrib_mask := [] } = { e' with attrib_mask := [] }
  mask : ∀ bit, bit ∈ e.attrib_mask ↔ bit ∈ e'.attrib_mask

/-- If there is a range that is not 0, it is that of the ports from the port, or from 0, on. -/
def RangeRight (port range : FwField) (items : List (FwField × XmlText)) (lo hi : BitVec 16) :
    Prop :=
  ∀ r, (range, r) ∈ items → atoi r.bytes ≠ 0 →
    (∀ p, (port, p) ∈ items →
      (lo.toNat : Int) = atoi p.bytes ∧ (hi.toNat : Int) = atoi p.bytes + atoi r.bytes) ∧
    ((∀ p, (port, p) ∉ items) → lo = 0 ∧ (hi.toNat : Int) = atoi r.bytes)

/-- The mask of a prefix has as many bits as its length says. -/
def MaskRight (len : FwField) (items : List (FwField × XmlText)) (words : List Nat) : Prop :=
  ∀ l, (len, l) ∈ items → words = Netlink.maskWords (atoi l.bytes).toNat

/-- An element leaves an entry that is right and the same in any order of the siblings. -/
structure RightEntry (lib : InetLib) (name : Option XmlText) (children : XmlDoc)
    (e : ExtdFirewallEntry) : Prop where
  stores : Stores lib name children e
  anyOrder : ∀ children', Shuffle children children' →
    ∃ e', Stores lib name children' e' ∧ e.Same e'
  srcPorts : RangeRight .srcPort .srcRange (fieldItems children) e.src_port_lo e.src_port_hi
  dstPorts : RangeRight .dstPort .dstRange (fieldItems children) e.dst_port_lo e.dst_port_hi
  srcMask : MaskRight .srcPrefix (fieldItems children) e.src_addr_mask_v6
  dstMask : MaskRight .dstPrefix (fieldItems children) e.dst_addr_mask_v6

/-! ## The condition -/

section Condition

variable (items : List (FwField × XmlText))

/-- A port or its range is 0 if there are both. -/
def PortsFree (port range : FwField) : Prop :=
  ∀ p r, (port, p) ∈ items → (range, r) ∈ items → atoi p.bytes = 0 ∨ atoi r.bytes = 0

/-- A mask leaves its value as it is. -/
def MaskFree (value mask : FwField) : Prop :=
  ∀ v m, (value, v) ∈ items → (mask, m) ∈ items →
    BitVec.ofInt 8 (atoi v.bytes) &&& BitVec.ofInt 8 (atoi m.bytes) = BitVec.ofInt 8 (atoi v.bytes)

/-- A prefix length is a multiple of 4. -/
def PrefixFree (len : FwField) : Prop := ∀ l, (len, l) ∈ items → 4 ∣ atoi l.bytes

structure OrderFree : Prop where
  srcPorts : PortsFree items .srcPort .srcRange
  dstPorts : PortsFree items .dstPort .dstRange
  tos : MaskFree items .tosValue .tosMask
  tc : MaskFree items .tcValue .tcMask
  srcMask : PrefixFree items .srcPrefix
  dstMask : PrefixFree items .dstPrefix

end Condition

/-! ## The entry of an element -/

section Entry

variable {lib : InetLib} {config : ExtdFirewallConf} {e : ExtdFirewallEntry} {s : XmlText}

/-- What a tag that the walk comes to does to the entry. -/
def FirewallAct.change (lib : InetLib) (content : Option XmlText) (e : ExtdFirewallEntry) :
    FirewallAct → ExtdFirewallEntry
  | .flag bit => e.setFlag bit
  | .field _ set => (content.map fun s => set lib s.bytes e).getD e
  | _ => e

theorem ExtdFirewallConf.modifyEntry_last {f : ExtdFirewallEntry → ExtdFirewallEntry}
    (he : config.lastEntry = some e) :
    ∃ config', config.modifyEntry f = .ok config' ∧ config'.lastEntry = some (f e) := by
  unfold ExtdFirewallConf.lastEntry at he
  split at he
  · next h =>
    cases he
    unfold ExtdFirewallConf.modifyEntry modifyLast
    rw [dif_pos h]
    refine ⟨_, rfl, ?_⟩
    unfold ExtdFirewallConf.lastEntry
    rw [dif_pos h]
    exact congrArg some (Vector.getElem_set_self _)
  · cases he

theorem convertible_short (h : s.length < maxXmlStrLen) (terminated : Bool) :
    convertible terminated s = .ok s.bytes := by
  have hnul : ∀ b ∈ s.bytes, decide (b ≠ 0) = true := fun b hb =>
    decide_eq_true fun hzero => s.noNul (hzero ▸ hb)
  obtain ⟨n, hn⟩ : ∃ n, maxXmlStrLen - s.length = n + 1 := ⟨maxXmlStrLen - s.length - 1, by omega⟩
  have hlast : terminate (s.bytes ++ List.replicate (n + 1) 0) =
      s.bytes ++ List.replicate (n + 1) 0 := by
    have hle : s.bytes.length ≤ maxXmlStrLen - 1 := Nat.le_sub_one_of_lt h
    unfold terminate
    rw [List.set_append_right _ _ hle, List.set_replicate_self]
  have hbuf : (if terminated then terminate (s.bytes ++ List.replicate (n + 1) 0)
      else s.bytes ++ List.replicate (n + 1) 0) = s.bytes ++ List.replicate (n + 1) 0 := by
    rw [hlast, ite_self]
  unfold convertible contentBuf
  rw [if_pos (Nat.le_of_lt h), ok_bind, hn, hbuf, cString, if_pos (by simp),
    List.takeWhile_append_of_pos hnul, List.replicate_succ, List.takeWhile_cons_of_neg (by simp),
    List.append_nil]

/-- What a tag does to the last entry, once there is one. -/
theorem FirewallTag.run_last (lib : InetLib) {v : FirewallTag × Option XmlText}
    (hin : v.1 ∉ [FirewallTag.Firewall, .FirewallEnabled, .FirewallPktsAllowed])
    (hshort : v.1.field.isSome → ∀ s ∈ v.2, s.length < maxXmlStrLen)
    (he : config.lastEntry = some e) : ∃ config', v.1.act.run lib v.2 config = .ok config' ∧
      config'.lastEntry = some (v.1.act.change lib v.2 e) := by
  obtain ⟨t, content⟩ := v
  cases hact : t.act with
  | group => exact ⟨config, rfl, he⟩
  | entry => exact absurd (FirewallTag.entry_iff.1 hact) (by simp_all)
  | switch set =>
    cases t <;> cases hact <;> simp at hin
  | flag bit => exact ExtdFirewallConf.modifyEntry_last he
  | field terminated set =>
    have hfield : t.field.isSome := by
      cases t <;> cases hact <;> rfl
    cases content with
    | none => exact ⟨config, rfl, he⟩
    | some s =>
      obtain ⟨config', hmodify, hlast⟩ :=
        ExtdFirewallConf.modifyEntry_last (f := set lib s.bytes) he
      refine ⟨config', ?_, hlast⟩
      unfold FirewallAct.run
      dsimp only
      rw [convertible_short (hshort hfield s rfl), ok_bind, hmodify]

/-- The entry after the tags of an element. -/
def changed (lib : InetLib) (vs : List (FirewallTag × Option XmlText)) (e : ExtdFirewallEntry) :
    ExtdFirewallEntry :=
  vs.foldl (fun e v => v.1.act.change lib v.2 e) e

/-- The last entry after a list of tags. -/
theorem foldlM_last (lib : InetLib) {vs : List (FirewallTag × Option XmlText)}
    (hin : ∀ v ∈ vs, v.1 ∉ [FirewallTag.Firewall, .FirewallEnabled, .FirewallPktsAllowed])
    (hshort : ∀ v ∈ vs, v.1.field.isSome → ∀ s ∈ v.2, s.length < maxXmlStrLen)
    (he : config.lastEntry = some e) :
    ∃ config', vs.foldlM (visit fun t content config => t.act.run lib content config) config =
        .ok config' ∧ config'.lastEntry = some (changed lib vs e) := by
  induction vs generalizing config e with
  | nil => exact ⟨config, rfl, he⟩
  | cons v vs ih =>
    obtain ⟨config₁, hrun, hlast⟩ := FirewallTag.run_last lib
      (hin v List.mem_cons_self) (hshort v List.mem_cons_self) he
    obtain ⟨config', hfold, hlast'⟩ := ih (fun v hv => hin v (List.mem_cons_of_mem _ hv))
      (fun v hv => hshort v (List.mem_cons_of_mem _ hv)) hlast
    refine ⟨config', ?_, hlast'⟩
    rw [List.foldlM_cons]
    show v.1.act.run lib v.2 config >>= _ = _
    rw [hrun, ok_bind, hfold]

theorem itemOf_eq_some {t : FirewallTag} {content : Option XmlText} {k : FwField} :
    itemOf (t, content) = some (k, s) ↔ t.field = some k ∧ content = some s := by
  unfold itemOf
  cases t.field <;> cases content <;> simp

variable {children : XmlDoc}

/-- The items are the texts of the elements with a field. -/
theorem mem_fieldItems {k : FwField} : (k, s) ∈ fieldItems children ↔ ∃ t,
      (t, some s) ∈ children.visited FirewallTag.ofName FirewallTag.descends ∧
        t.field = some k := by
  unfold fieldItems leaves
  rw [List.mem_filterMap]
  constructor
  · rintro ⟨⟨t, content⟩, hv, hitem⟩
    obtain ⟨hfield, rfl⟩ := itemOf_eq_some.1 hitem
    exact ⟨t, (List.mem_filter.1 hv).1, hfield⟩
  · rintro ⟨t, hmem, hfield⟩
    refine ⟨(t, some s), List.mem_filter.2 ⟨hmem, ?_⟩, itemOf_eq_some.2 ⟨hfield, rfl⟩⟩
    rw [FirewallTag.descends_iff.2 (by simp [hfield])]
    rfl

/-- The walk makes one entry of such an element. -/
theorem stores_changed {name : Option XmlText} (h : FirewallFields name children) (lib : InetLib) :
    Stores lib name children
      (changed lib (children.visited FirewallTag.ofName FirewallTag.descends) {}) := by
  rintro config ⟨hlt, hclear⟩
  have hnum : (config.num_extd_firewall_entries + 1).toNat =
      config.num_extd_firewall_entries.toNat + 1 := by
    have hmax : ipacmMaxFirewallEntries = 50 := rfl
    rw [UInt8.toNat_add]
    simp
    omega
  have hopened : ExtdFirewallConf.lastEntry
      { config with num_extd_firewall_entries := config.num_extd_firewall_entries + 1 } =
        some {} := by
    unfold ExtdFirewallConf.lastEntry
    dsimp only
    rw [dif_pos (by omega), ← hclear]
    simp only [hnum, Nat.add_sub_cancel]
  obtain ⟨config', hfold, hlast⟩ := foldlM_last lib h.inside (fun v hv hfield s hs => by
    obtain ⟨k, hk⟩ := Option.isSome_iff_exists.1 hfield
    obtain ⟨t, content⟩ := v
    obtain rfl : content = some s := hs
    exact h.short (k, s) (mem_fieldItems.2 ⟨t, hv, hk⟩)) hopened
  refine ⟨config', ?_, hlast⟩
  unfold IPACM_firewall_xml_parse_tree
  rw [walk_eq_foldlM, visited_element, visited, List.append_nil, entered, h.tag]
  exact hfold

theorem Stores.eq {name : Option XmlText} {e e' : ExtdFirewallEntry}
    (h : Stores lib name children e) (h' : Stores lib name children e') : e = e' := by
  have hroom : ExtdFirewallConf.Room {} := ⟨by decide, by simp [Vector.get]⟩
  obtain ⟨config, hparse, hlast⟩ := h {} hroom
  obtain ⟨config', hparse', hlast'⟩ := h' {} hroom
  rw [hparse] at hparse'
  cases hparse'
  rw [hlast] at hlast'
  exact Option.some.inj hlast'

end Entry

/-! ## The parts of an entry -/

/-- The parts that the fields store in. -/
inductive FwSlot where
  | ipVsn
  | srcAddrV4
  | srcMaskV4
  | dstAddrV4
  | dstMaskV4
  | tos
  | protocol
  | srcAddrV6
  | srcMaskV6
  | dstAddrV6
  | dstMaskV6
  | tc
  | nextHdr
  | srcPorts
  | dstPorts
  | type
  | code
  | spi
deriving DecidableEq, Repr

/-- The fields of a part. -/
def FwSlot.fields : FwSlot → List FwField
  | .ipVsn => [.ipVsn]
  | .srcAddrV4 => [.srcAddrV4]
  | .srcMaskV4 => [.srcMaskV4]
  | .dstAddrV4 => [.dstAddrV4]
  | .dstMaskV4 => [.dstMaskV4]
  | .tos => [.tosValue, .tosMask]
  | .protocol => [.protocol]
  | .srcAddrV6 => [.srcAddrV6]
  | .srcMaskV6 => [.srcPrefix]
  | .dstAddrV6 => [.dstAddrV6]
  | .dstMaskV6 => [.dstPrefix]
  | .tc => [.tcValue, .tcMask]
  | .nextHdr => [.nextHdr]
  | .srcPorts => [.srcPort, .srcRange]
  | .dstPorts => [.dstPort, .dstRange]
  | .type => [.icmpType]
  | .code => [.icmpCode]
  | .spi => [.spi]

/-- Two entries have the same in a part. -/
def FwSlot.Agree (e e' : ExtdFirewallEntry) : FwSlot → Prop
  | .ipVsn => e.ip_vsn = e'.ip_vsn
  | .srcAddrV4 => e.src_addr_v4 = e'.src_addr_v4
  | .srcMaskV4 => e.src_addr_mask_v4 = e'.src_addr_mask_v4
  | .dstAddrV4 => e.dst_addr_v4 = e'.dst_addr_v4
  | .dstMaskV4 => e.dst_addr_mask_v4 = e'.dst_addr_mask_v4
  | .tos => e.tos = e'.tos
  | .protocol => e.protocol = e'.protocol
  | .srcAddrV6 => e.src_addr_v6 = e'.src_addr_v6
  | .srcMaskV6 => e.src_addr_mask_v6 = e'.src_addr_mask_v6
  | .dstAddrV6 => e.dst_addr_v6 = e'.dst_addr_v6
  | .dstMaskV6 => e.dst_addr_mask_v6 = e'.dst_addr_mask_v6
  | .tc => e.tc = e'.tc
  | .nextHdr => e.next_hdr = e'.next_hdr
  | .srcPorts => e.src_port = e'.src_port ∧ e.src_port_lo = e'.src_port_lo ∧
      e.src_port_hi = e'.src_port_hi
  | .dstPorts => e.dst_port = e'.dst_port ∧ e.dst_port_lo = e'.dst_port_lo ∧
      e.dst_port_hi = e'.dst_port_hi
  | .type => e.type = e'.type
  | .code => e.code = e'.code
  | .spi => e.spi = e'.spi

section Slots

variable {e e' e'' : ExtdFirewallEntry} {s : FwSlot} {k : FwField} (lib : InetLib) {bit : IpaFlt}

theorem FwSlot.Agree.refl (e : ExtdFirewallEntry) (s : FwSlot) : s.Agree e e := by
  cases s <;> simp [FwSlot.Agree]

theorem FwSlot.Agree.symm (h : s.Agree e e') : s.Agree e' e := by
  cases s
  case srcPorts | dstPorts => exact ⟨h.1.symm, h.2.1.symm, h.2.2.symm⟩
  all_goals exact Eq.symm h

theorem FwSlot.Agree.trans (h : s.Agree e e') (h' : s.Agree e' e'') : s.Agree e e'' := by
  cases s
  case srcPorts | dstPorts =>
    exact ⟨h.1.trans h'.1, h.2.1.trans h'.2.1, h.2.2.trans h'.2.2⟩
  all_goals exact Eq.trans h h'

/-- The slots have all of an entry but its mask. -/
theorem agree_values_iff : (∀ s : FwSlot, s.Agree e e') ↔
    { e with attrib_mask := [] } = { e' with attrib_mask := [] } := by
  cases e
  cases e'
  simp only [ExtdFirewallEntry.mk.injEq]
  constructor
  · intro h
    exact ⟨trivial, h .srcAddrV4, h .srcMaskV4, h .dstAddrV4, h .dstMaskV4, h .tos, h .protocol,
      h .srcAddrV6, h .srcMaskV6, h .dstAddrV6, h .dstMaskV6, h .tc, h .nextHdr, (h .srcPorts).1,
      (h .srcPorts).2.1, (h .srcPorts).2.2, (h .dstPorts).1, (h .dstPorts).2.1, (h .dstPorts).2.2,
      h .type, h .code, h .spi, h .ipVsn⟩
  · rintro ⟨-, h₁, h₂, h₃, h₄, h₅, h₆, h₇, h₈, h₉, h₁₀, h₁₁, h₁₂, h₁₃, h₁₄, h₁₅, h₁₆, h₁₇, h₁₈, h₁₉,
      h₂₀, h₂₁, h₂₂⟩ s
    cases s <;> first | assumption | exact ⟨‹_›, ‹_›, ‹_›⟩

/-- A field changes its own slot alone. -/
theorem FwField.set_other (hk : k ∉ s.fields) (lib : InetLib) (text : List UInt8)
    (e : ExtdFirewallEntry) : s.Agree (k.set lib text e) e := by
  cases k
  case srcRange =>
    show s.Agree (e.setSrcRange (atoi text)) e
    unfold ExtdFirewallEntry.setSrcRange
    split <;> cases s <;> first | exact rfl | exact ⟨rfl, rfl, rfl⟩ | exact absurd (by decide) hk
  case dstRange =>
    show s.Agree (e.setDstRange (atoi text)) e
    unfold ExtdFirewallEntry.setDstRange
    split <;> cases s <;> first | exact rfl | exact ⟨rfl, rfl, rfl⟩ | exact absurd (by decide) hk
  all_goals
    cases s <;> first | exact rfl | exact ⟨rfl, rfl, rfl⟩ | exact absurd (by decide) hk

/-- And what it stores there depends on this slot alone. -/
theorem FwField.set_congr (h : s.Agree e e') (k : FwField) (lib : InetLib) (text : List UInt8) :
    s.Agree (k.set lib text e) (k.set lib text e') := by
  by_cases hk : k ∈ s.fields
  · cases s <;> simp only [FwSlot.fields, List.mem_cons, List.not_mem_nil, or_false] at hk
    case tos | tc =>
      rcases hk with rfl | rfl
      · exact rfl
      · exact congrArg (· &&& BitVec.ofInt 8 (atoi text)) h
    case srcPorts =>
      rcases hk with rfl | rfl
      · exact ⟨rfl, h.2.1, h.2.2⟩
      · show FwSlot.srcPorts.Agree (e.setSrcRange (atoi text)) (e'.setSrcRange (atoi text))
        unfold ExtdFirewallEntry.setSrcRange
        split
        · exact ⟨rfl, h.1, congrArg (· + BitVec.ofInt 16 (atoi text)) h.1⟩
        · exact h
    case dstPorts =>
      rcases hk with rfl | rfl
      · exact ⟨rfl, h.2.1, h.2.2⟩
      · show FwSlot.dstPorts.Agree (e.setDstRange (atoi text)) (e'.setDstRange (atoi text))
        unfold ExtdFirewallEntry.setDstRange
        split
        · exact ⟨rfl, h.1, congrArg (· + BitVec.ofInt 16 (atoi text)) h.1⟩
        · exact h
    case srcMaskV6 | dstMaskV6 =>
      subst hk
      exact congrArg (prefixWords (atoi text)) h
    all_goals
      subst hk
      exact rfl
  · exact ((FwField.set_other hk lib text e).trans h).trans (FwField.set_other hk lib text e').symm

theorem agree_setFlag (bit : IpaFlt) (e : ExtdFirewallEntry) (s : FwSlot) :
    s.Agree (e.setFlag bit) e := by
  cases s <;> first | exact rfl | exact ⟨rfl, rfl, rfl⟩

/-- The entry after some fields. -/
def stored (lib : InetLib) (items : List (FwField × XmlText)) : ExtdFirewallEntry :=
  items.foldl (fun e i => i.1.set lib i.2.bytes e) {}

/-- The fields of a part. -/
def inSlot (s : FwSlot) (items : List (FwField × XmlText)) : List (FwField × XmlText) :=
  items.filter fun i => i.1 ∈ s.fields

/-- Of the items only those of the slot matter. -/
theorem agree_foldl_inSlot (items : List (FwField × XmlText)) (h : s.Agree e e') :
    s.Agree (items.foldl (fun e i => i.1.set lib i.2.bytes e) e)
      ((inSlot s items).foldl (fun e i => i.1.set lib i.2.bytes e) e') := by
  induction items generalizing e e' with
  | nil => exact h
  | cons i items ih =>
    unfold inSlot at ih ⊢
    rw [List.foldl_cons, List.filter_cons]
    split
    · exact ih (FwField.set_congr h ..)
    · next hnot => exact ih ((FwField.set_other (by simpa using hnot) ..).trans h)

theorem agree_stored (items : List (FwField × XmlText)) (s : FwSlot) :
    s.Agree (stored lib items) (stored lib (inSlot s items)) :=
  agree_foldl_inSlot lib items (.refl {} s)

theorem agree_change (v : FirewallTag × Option XmlText) (h : s.Agree e e') :
    s.Agree (v.1.act.change lib v.2 e)
      (((itemOf v).map fun i => i.1.set lib i.2.bytes e').getD e') := by
  obtain ⟨t, content⟩ := v
  cases hitem : itemOf (t, content) with
  | some i =>
    obtain ⟨hfield, rfl⟩ := itemOf_eq_some.1 hitem
    obtain ⟨terminated, hact⟩ := FirewallTag.act_of_field hfield
    rw [hact]
    exact FwField.set_congr h ..
  | none =>
    cases hact : t.act with
    | group | entry | switch => exact h
    | flag bit => exact (agree_setFlag bit e s).trans h
    | field terminated set =>
      cases content with
      | none => exact h
      | some text =>
        obtain ⟨k, hk⟩ : ∃ k, t.field = some k := by
          cases t <;> cases hact <;> exact ⟨_, rfl⟩
        rw [itemOf_eq_some.2 ⟨hk, rfl⟩] at hitem
        cases hitem

theorem agree_foldl_change (vs : List (FirewallTag × Option XmlText)) (h : s.Agree e e') :
    s.Agree (changed lib vs e)
      ((vs.filterMap itemOf).foldl (fun e i => i.1.set lib i.2.bytes e) e') := by
  induction vs generalizing e e' with
  | nil => exact h
  | cons v vs ih =>
    have hv := agree_change lib v h
    rw [List.filterMap_cons]
    cases hitem : itemOf v with
    | none | some i =>
      rw [hitem] at hv
      exact ih hv

theorem filterMap_visited (children : XmlDoc) :
    (children.visited FirewallTag.ofName FirewallTag.descends).filterMap itemOf =
      fieldItems children := by
  unfold fieldItems leaves
  rw [List.filterMap_filter]
  refine List.filterMap_congr fun v _ => ?_
  obtain ⟨t, content⟩ := v
  cases hdescends : t.descends with
  | false => simp
  | true =>
    have hfield : t.field = none := by
      rw [← Option.not_isSome_iff_eq_none, ← FirewallTag.descends_iff]
      simp [hdescends]
    simp [itemOf, hfield]

/-- A slot of the entry is what its own items store. -/
theorem agree_entry (children : XmlDoc) (s : FwSlot) :
    s.Agree (changed lib (children.visited FirewallTag.ofName FirewallTag.descends) {})
      (stored lib (inSlot s (fieldItems children))) := by
  have hchanged := agree_foldl_change lib
    (children.visited FirewallTag.ofName FirewallTag.descends) (.refl {} s)
  rw [filterMap_visited] at hchanged
  exact hchanged.trans (agree_stored lib _ s)

/-! ### The mask bits -/

/-- The mask bits that a field sets. -/
def FwField.bits (text : List UInt8) : FwField → List IpaFlt
  | .protocol => [.PROTOCOL]
  | .nextHdr => [.NEXT_HDR]
  | .srcRange => [if atoi text ≠ 0 then .SRC_PORT_RANGE else .SRC_PORT]
  | .dstRange => [if atoi text ≠ 0 then .DST_PORT_RANGE else .DST_PORT]
  | .icmpType => [.TYPE]
  | .icmpCode => [.CODE]
  | .spi => [.SPI]
  | _ => []

/-- Those that a tag sets. -/
def FirewallAct.bits (v : FirewallTag × Option XmlText) : FirewallAct → List IpaFlt
  | .flag bit => [bit]
  | _ => ((itemOf v).map fun i => i.1.bits i.2.bytes).getD []

theorem mem_setFlag {bit bit' : IpaFlt} :
    bit ∈ (e.setFlag bit').attrib_mask ↔ bit ∈ e.attrib_mask ∨ bit = bit' := by
  unfold ExtdFirewallEntry.setFlag
  rw [List.mem_insert_iff, or_comm]

/-- A field only adds to the mask. -/
theorem mem_set (k : FwField) (lib : InetLib) (text : List UInt8) :
    bit ∈ (k.set lib text e).attrib_mask ↔ bit ∈ e.attrib_mask ∨ bit ∈ k.bits text := by
  cases k
  case srcRange =>
    show bit ∈ (e.setSrcRange (atoi text)).attrib_mask ↔ _
    unfold ExtdFirewallEntry.setSrcRange FwField.bits
    split <;> simp [mem_setFlag, *]
  case dstRange =>
    show bit ∈ (e.setDstRange (atoi text)).attrib_mask ↔ _
    unfold ExtdFirewallEntry.setDstRange FwField.bits
    split <;> simp [mem_setFlag, *]
  all_goals simp [FwField.set, FwField.bits, mem_setFlag]

theorem mem_change (v : FirewallTag × Option XmlText) :
    bit ∈ (v.1.act.change lib v.2 e).attrib_mask ↔
      bit ∈ e.attrib_mask ∨ bit ∈ v.1.act.bits v := by
  obtain ⟨t, content⟩ := v
  cases hact : t.act with
  | flag bit' => simp [FirewallAct.change, FirewallAct.bits, mem_setFlag]
  | group | entry | switch =>
    have hfield : t.field = none := by
      cases t <;> first | rfl | cases hact
    simp [FirewallAct.change, FirewallAct.bits, itemOf, hfield]
  | field terminated set =>
    obtain ⟨k, hk⟩ : ∃ k, t.field = some k := by
      cases t <;> cases hact <;> exact ⟨_, rfl⟩
    obtain ⟨terminated', hact'⟩ := FirewallTag.act_of_field hk
    rw [hact] at hact'
    cases hact'
    cases content with
    | none => simp [FirewallAct.change, FirewallAct.bits, itemOf, hk]
    | some s =>
      have hitem : itemOf (t, some s) = some (k, s) := itemOf_eq_some.2 ⟨hk, rfl⟩
      simp [FirewallAct.change, FirewallAct.bits, hitem, mem_set]

/-- The mask has the bits of all tags, in whatever order they come. -/
theorem mem_changed (vs : List (FirewallTag × Option XmlText)) :
    bit ∈ (changed lib vs e).attrib_mask ↔
      bit ∈ e.attrib_mask ∨ ∃ v ∈ vs, bit ∈ v.1.act.bits v := by
  induction vs generalizing e with
  | nil => simp [changed]
  | cons v vs ih =>
    unfold changed at ih ⊢
    rw [List.foldl_cons, ih, mem_change, or_assoc]
    simp

end Slots

/-! ## Parts with two fields -/

section Short

variable {α : Type} {l l' : List α} {a b : α}

theorem eq_pair_of_mem (hl : l.length ≤ 2) (ha : a ∈ l) (hb : b ∈ l) (hab : a ≠ b) :
    l = [a, b] ∨ l = [b, a] := by
  match l, hl with
  | [], _ => cases ha
  | [c], _ =>
    obtain rfl := List.mem_singleton.1 ha
    exact absurd (List.mem_singleton.1 hb).symm hab
  | [c, d], _ =>
    simp only [List.mem_cons, List.not_mem_nil, or_false] at ha hb
    rcases ha with rfl | rfl <;> rcases hb with rfl | rfl
    · exact absurd rfl hab
    · exact .inl rfl
    · exact .inr rfl
    · exact absurd rfl hab

theorem eq_singleton_of_forall (hl : l.Nodup) (ha : a ∈ l) (hall : ∀ b ∈ l, b = a) : l = [a] := by
  match l with
  | [] => cases ha
  | [c] => rw [hall c List.mem_cons_self]
  | c :: d :: l =>
    have heq : c = d :=
      (hall c List.mem_cons_self).trans (hall d (by simp)).symm
    exact absurd (by simp [heq]) (List.nodup_cons.1 hl).1

/-- With two there is one other order. -/
theorem eq_or_reverse_of_perm (hl : l.length ≤ 2) (hp : l.Perm l') : l' = l ∨ l' = l.reverse := by
  match l, hl with
  | [], _ => exact .inl (List.nil_perm.1 hp)
  | [c], _ => exact .inl (List.singleton_perm.1 hp).symm
  | [c, d], _ =>
    by_cases hcd : c = d
    · subst hcd
      have hall : l' = List.replicate l'.length c :=
        List.eq_replicate_of_mem fun x hx => by simpa using hp.mem_iff.2 hx
      rw [hall, ← hp.length_eq]
      exact .inl rfl
    · have hlen : l'.length ≤ 2 := Nat.le_of_eq hp.length_eq.symm
      exact eq_pair_of_mem hlen (hp.mem_iff.1 (by simp)) (hp.mem_iff.1 (by simp)) hcd

end Short

section Pairs

variable {items items' : List (FwField × XmlText)} {s : FwSlot} {k k' : FwField} {x y : XmlText}

theorem mem_inSlot {i : FwField × XmlText} : i ∈ inSlot s items ↔ i ∈ items ∧ i.1 ∈ s.fields := by
  simp [inSlot]

theorem inSlot_once (h : (items.map Prod.fst).Nodup) : ((inSlot s items).map Prod.fst).Nodup :=
  h.sublist (List.filter_sublist.map _)

theorem text_eq (h : (items.map Prod.fst).Nodup) (hx : (k, x) ∈ items) (hy : (k, y) ∈ items) :
    x = y := by
  have := List.inj_on_of_nodup_map h hx hy rfl
  exact (Prod.mk.inj this).2

theorem length_inSlot (h : (items.map Prod.fst).Nodup) :
    (inSlot s items).length ≤ s.fields.length := by
  have hsub : (inSlot s items).map Prod.fst ⊆ s.fields := by
    intro k hk
    obtain ⟨i, hi, rfl⟩ := List.mem_map.1 hk
    exact (mem_inSlot.1 hi).2
  have hle := ((inSlot_once h).subperm hsub).length_le
  rwa [List.length_map] at hle

theorem fields_length (s : FwSlot) : s.fields.length ≤ 2 := by
  cases s <;> decide

theorem inSlot_pair (h : (items.map Prod.fst).Nodup) (hs : s.fields = [k, k']) (hne : k ≠ k')
    (hx : (k, x) ∈ items) (hy : (k', y) ∈ items) :
    inSlot s items = [(k, x), (k', y)] ∨ inSlot s items = [(k', y), (k, x)] := by
  have hlen := length_inSlot h (s := s)
  have hmem : (k, x) ∈ inSlot s items := mem_inSlot.2 ⟨hx, by simp [hs]⟩
  have hmem' : (k', y) ∈ inSlot s items := mem_inSlot.2 ⟨hy, by simp [hs]⟩
  rw [hs] at hlen
  exact eq_pair_of_mem hlen hmem hmem' fun heq => hne (Prod.mk.inj heq).1

theorem inSlot_single (h : (items.map Prod.fst).Nodup) (hx : (k, x) ∈ items) (hk : k ∈ s.fields)
    (honly : ∀ k' ∈ s.fields, k' ≠ k → ∀ y, (k', y) ∉ items) : inSlot s items = [(k, x)] := by
  refine eq_singleton_of_forall (List.Nodup.of_map _ (inSlot_once h)) (mem_inSlot.2 ⟨hx, hk⟩) ?_
  rintro ⟨k', y⟩ hi
  obtain ⟨hy, hk'⟩ := mem_inSlot.1 hi
  obtain rfl : k' = k := by
    by_contra hne
    exact honly k' hk' hne y hy
  rw [text_eq h hy hx]

/-- Another order of the items keeps that of a slot or turns it round. -/
theorem inSlot_perm (h : (items.map Prod.fst).Nodup) (hp : items.Perm items') :
    inSlot s items' = inSlot s items ∨ inSlot s items' = (inSlot s items).reverse := by
  have hperm : (inSlot s items).Perm (inSlot s items') := hp.filter _
  have hlen := Nat.le_trans (length_inSlot h (s := s)) (fields_length s)
  exact eq_or_reverse_of_perm hlen hperm

theorem reverse_of_length_le (hl : (inSlot s items).length ≤ 1) :
    (inSlot s items).reverse = inSlot s items := by
  match inSlot s items, hl with
  | [], _ => rfl
  | [i], _ => rfl

/-- A slot has both its fields, or one order. -/
theorem inSlot_cases (h : (items.map Prod.fst).Nodup) (hs : s.fields = [k, k']) :
    (inSlot s items).length ≤ 1 ∨ ∃ x y, (k, x) ∈ items ∧ (k', y) ∈ items := by
  by_cases hx : ∃ x, (k, x) ∈ items
  · by_cases hy : ∃ y, (k', y) ∈ items
    · obtain ⟨x, hx⟩ := hx
      obtain ⟨y, hy⟩ := hy
      exact .inr ⟨x, y, hx, hy⟩
    · obtain ⟨x, hx⟩ := hx
      left
      rw [inSlot_single h hx (by simp [hs]) ?_]
      · exact Nat.le_refl _
      · intro j hj hne y hmem
        rw [hs] at hj
        obtain rfl : j = k' := by simpa [hne] using hj
        exact hy ⟨y, hmem⟩
  · left
    by_cases hy : ∃ y, (k', y) ∈ items
    · obtain ⟨y, hy⟩ := hy
      rw [inSlot_single h hy (by simp [hs]) ?_]
      · exact Nat.le_refl _
      · intro j hj hne x hmem
        rw [hs] at hj
        obtain rfl : j = k := by simpa [hne] using hj
        exact hx ⟨x, hmem⟩
    · have hnil : inSlot s items = [] := by
        refine List.eq_nil_iff_forall_not_mem.2 ?_
        rintro ⟨j, z⟩ hi
        obtain ⟨hz, hj⟩ := mem_inSlot.1 hi
        rw [hs] at hj
        simp only [List.mem_cons, List.not_mem_nil, or_false] at hj
        rcases hj with rfl | rfl
        · exact hx ⟨z, hz⟩
        · exact hy ⟨z, hz⟩
      rw [hnil]
      exact Nat.zero_le 1

/-- Whether the order of a slot matters, from the two texts that are in it. -/
theorem agree_reverse_iff (lib : InetLib) (h : (items.map Prod.fst).Nodup)
    (hs : s.fields = [k, k']) (hne : k ≠ k') (hx : (k, x) ∈ items) (hy : (k', y) ∈ items) :
    s.Agree (stored lib (inSlot s items)) (stored lib (inSlot s items).reverse) ↔
      s.Agree (stored lib [(k, x), (k', y)]) (stored lib [(k', y), (k, x)]) := by
  rcases inSlot_pair h hs hne hx hy with hpair | hpair
  · rw [hpair]
    exact Iff.rfl
  · rw [hpair]
    exact ⟨.symm, .symm⟩

theorem agree_reverse_iff_forall (lib : InetLib) (h : (items.map Prod.fst).Nodup)
    (hs : s.fields = [k, k']) (hne : k ≠ k') :
    s.Agree (stored lib (inSlot s items)) (stored lib (inSlot s items).reverse) ↔
      ∀ x y, (k, x) ∈ items → (k', y) ∈ items →
        s.Agree (stored lib [(k, x), (k', y)]) (stored lib [(k', y), (k, x)]) := by
  constructor
  · intro hagree x y hx hy
    exact (agree_reverse_iff lib h hs hne hx hy).1 hagree
  · intro hall
    rcases inSlot_cases h hs with hle | ⟨x, y, hx, hy⟩
    · rw [reverse_of_length_le hle]
      exact .refl ..
    · exact (agree_reverse_iff lib h hs hne hx hy).2 (hall x y hx hy)

/-- The ports on one side or the other. -/
inductive FwSide where
  | src
  | dst

namespace FwSide

def port : FwSide → FwField
  | .src => .srcPort
  | .dst => .dstPort

def range : FwSide → FwField
  | .src => .srcRange
  | .dst => .dstRange

def slot : FwSide → FwSlot
  | .src => .srcPorts
  | .dst => .dstPorts

def ports (e : ExtdFirewallEntry) : FwSide → BitVec 16 × BitVec 16 × BitVec 16
  | .src => (e.src_port, e.src_port_lo, e.src_port_hi)
  | .dst => (e.dst_port, e.dst_port_lo, e.dst_port_hi)

variable (d : FwSide) (lib : InetLib) {n : Int}

theorem agree_iff {e e' : ExtdFirewallEntry} : d.slot.Agree e e' ↔ d.ports e = d.ports e' := by
  cases d <;> simp [slot, ports, FwSlot.Agree]

/-- A range without its port. -/
theorem ports_range (y : XmlText) : d.ports (stored lib [(d.range, y)]) =
    if atoi y.bytes ≠ 0 then (0, 0, 0 + BitVec.ofInt 16 (atoi y.bytes)) else (0, 0, 0) := by
  cases d with
  | src =>
    show FwSide.src.ports (ExtdFirewallEntry.setSrcRange {} (atoi y.bytes)) = _
    unfold ExtdFirewallEntry.setSrcRange
    split <;> rfl
  | dst =>
    show FwSide.dst.ports (ExtdFirewallEntry.setDstRange {} (atoi y.bytes)) = _
    unfold ExtdFirewallEntry.setDstRange
    split <;> rfl

/-- The port comes first: it is the start of the range. -/
theorem ports_port_range (x y : XmlText) : d.ports (stored lib [(d.port, x), (d.range, y)]) =
    if atoi y.bytes ≠ 0 then
      (0, BitVec.ofInt 16 (atoi x.bytes),
        BitVec.ofInt 16 (atoi x.bytes) + BitVec.ofInt 16 (atoi y.bytes))
    else (BitVec.ofInt 16 (atoi x.bytes), 0, 0) := by
  cases d with
  | src =>
    show FwSide.src.ports (ExtdFirewallEntry.setSrcRange
      { src_port := BitVec.ofInt 16 (atoi x.bytes) } (atoi y.bytes)) = _
    unfold ExtdFirewallEntry.setSrcRange
    split <;> rfl
  | dst =>
    show FwSide.dst.ports (ExtdFirewallEntry.setDstRange
      { dst_port := BitVec.ofInt 16 (atoi x.bytes) } (atoi y.bytes)) = _
    unfold ExtdFirewallEntry.setDstRange
    split <;> rfl

/-- The range comes first: it starts at 0, and the port is stored beside it. -/
theorem ports_range_port (x y : XmlText) : d.ports (stored lib [(d.range, y), (d.port, x)]) =
    if atoi y.bytes ≠ 0 then
      (BitVec.ofInt 16 (atoi x.bytes), 0, 0 + BitVec.ofInt 16 (atoi y.bytes))
    else (BitVec.ofInt 16 (atoi x.bytes), 0, 0) := by
  cases d with
  | src =>
    show FwSide.src.ports { ExtdFirewallEntry.setSrcRange {} (atoi y.bytes) with
      src_port := BitVec.ofInt 16 (atoi x.bytes) } = _
    unfold ExtdFirewallEntry.setSrcRange
    split <;> rfl
  | dst =>
    show FwSide.dst.ports { ExtdFirewallEntry.setDstRange {} (atoi y.bytes) with
      dst_port := BitVec.ofInt 16 (atoi x.bytes) } = _
    unfold ExtdFirewallEntry.setDstRange
    split <;> rfl

theorem ofInt_eq_zero_iff (h : 0 ≤ n ∧ n < 0x10000) : BitVec.ofInt 16 n = 0 ↔ n = 0 := by
  constructor
  · intro hzero
    have hnat := congrArg BitVec.toNat hzero
    rw [BitVec.toNat_ofInt] at hnat
    simp at hnat
    omega
  · rintro rfl
    rfl

theorem port_inRange (h : d.port.InRange n) : 0 ≤ n ∧ n < 0x10000 := by
  cases d <;> exact h

theorem range_inRange (h : d.range.InRange n) : 0 ≤ n ∧ n < 0x10000 := by
  cases d <;> exact h

/-- Port and range can change places when one of them is 0. -/
theorem agree_swap_iff (x y : XmlText) (hx : d.port.InRange (atoi x.bytes)) :
    d.slot.Agree (stored lib [(d.port, x), (d.range, y)])
        (stored lib [(d.range, y), (d.port, x)]) ↔ atoi x.bytes = 0 ∨ atoi y.bytes = 0 := by
  rw [agree_iff, ports_port_range, ports_range_port]
  by_cases hy : atoi y.bytes = 0
  · simp [hy]
  have hzero := ofInt_eq_zero_iff (d.port_inRange hx)
  rw [if_pos hy, if_pos hy]
  constructor
  · intro h
    exact .inl (hzero.1 (Prod.mk.inj h).1.symm)
  · rintro (h | h)
    · rw [hzero.2 h]
    · exact absurd h hy

theorem fields_slot : d.slot.fields = [d.port, d.range] := by
  cases d <;> rfl

theorem port_ne_range : d.port ≠ d.range := by
  cases d <;> decide

/-- The condition on ports says that their order does not matter. -/
theorem portsFree_iff (h : (items.map Prod.fst).Nodup)
    (hrange : ∀ i ∈ items, i.1.InRange (atoi i.2.bytes)) : PortsFree items d.port d.range ↔
      d.slot.Agree (stored lib (inSlot d.slot items))
        (stored lib (inSlot d.slot items).reverse) := by
  rw [agree_reverse_iff_forall lib h d.fields_slot d.port_ne_range]
  refine forall₂_congr fun x y => forall_congr' fun hx => forall_congr' fun _ => ?_
  exact (d.agree_swap_iff lib x y (hrange _ hx)).symm

/-- And then a range is stored as it is. -/
theorem ports_right (h : (items.map Prod.fst).Nodup) (hfree : PortsFree items d.port d.range)
    (hy : (d.range, y) ∈ items) (hne : atoi y.bytes ≠ 0) :
    d.ports (stored lib (inSlot d.slot items)) = (0, 0, BitVec.ofInt 16 (atoi y.bytes)) := by
  by_cases hport : ∃ x, (d.port, x) ∈ items
  · obtain ⟨x, hx⟩ := hport
    have hzero : atoi x.bytes = 0 := (hfree x y hx hy).resolve_right hne
    rcases inSlot_pair h d.fields_slot d.port_ne_range hx hy with hpair | hpair
    · rw [hpair, ports_port_range, if_pos hne, hzero]
      simp
    · rw [hpair, ports_range_port, if_pos hne, hzero]
      simp
  · have hsingle : inSlot d.slot items = [(d.range, y)] := by
      refine inSlot_single h hy (by simp [fields_slot]) fun k hk hother x hx => hport ⟨x, ?_⟩
      rw [fields_slot] at hk
      obtain rfl : k = d.port := by simpa [hother] using hk
      exact hx
    rw [hsingle, ports_range, if_pos hne]
    simp

end FwSide

theorem prefixWords_eq_iff : ∀ n < 129,
    prefixWords (n : Nat) (List.replicate 4 0) = Netlink.maskWords n ↔ 4 ∣ n := by
  decide +kernel

/-- The mask of a prefix is right when its length is a multiple of 4. -/
theorem prefixWords_right {n : Int} (h : 0 ≤ n ∧ n ≤ 128) :
    prefixWords n (List.replicate 4 0) = Netlink.maskWords n.toNat ↔ 4 ∣ n := by
  obtain ⟨m, rfl⟩ := Int.eq_ofNat_of_zero_le h.1
  rw [Int.toNat_natCast, prefixWords_eq_iff m (by omega)]
  exact Int.natCast_dvd_natCast.symm

end Pairs

/-! ## Elements -/

section Elements

variable {name : Option XmlText} {children children' : XmlDoc} (lib : InetLib)

/-- Elements in another order have the same items. -/
theorem fieldItems_perm (h : Shuffle children children') :
    (fieldItems children).Perm (fieldItems children') :=
  ((h.visited_perm _ _).filter _).filterMap _

/-- The reversed element has them the other way round. -/
theorem fieldItems_reversed (children : XmlDoc) :
    fieldItems children.reversed = (fieldItems children).reverse := by
  unfold fieldItems
  rw [leaves_reversed, List.filterMap_reverse]

theorem FirewallFields.shuffle (h : FirewallFields name children)
    (hshuffle : Shuffle children children') : FirewallFields name children' := by
  have hvisited := hshuffle.visited_perm FirewallTag.ofName FirewallTag.descends
  have hitems := fieldItems_perm hshuffle
  exact {
    tag := h.tag
    inside v hv := h.inside v (hvisited.mem_iff.2 hv)
    once := (hitems.map _).nodup_iff.1 h.once
    short i hi := h.short i (hitems.mem_iff.2 hi)
    inRange i hi := h.inRange i (hitems.mem_iff.2 hi)
    oneVersion i hi j hj := h.oneVersion i (hitems.mem_iff.2 hi) j (hitems.mem_iff.2 hj) }

/-- Slots whose order is free give the same entry. -/
theorem same_of_agree (h : FirewallFields name children) (hshuffle : Shuffle children children')
    (hagree : ∀ s : FwSlot, s.Agree (stored lib (inSlot s (fieldItems children)))
      (stored lib (inSlot s (fieldItems children)).reverse)) :
    (changed lib (children.visited FirewallTag.ofName FirewallTag.descends) {}).Same
      (changed lib (children'.visited FirewallTag.ofName FirewallTag.descends) {}) := by
  refine ⟨agree_values_iff.1 fun s => ?_, fun bit => ?_⟩
  · refine (agree_entry lib children s).trans (.trans ?_ (agree_entry lib children' s).symm)
    rcases inSlot_perm (s := s) h.once (fieldItems_perm hshuffle) with heq | heq
    · rw [heq]
      exact .refl ..
    · rw [heq]
      exact hagree s
  · rw [mem_changed, mem_changed]
    have hvisited := hshuffle.visited_perm FirewallTag.ofName FirewallTag.descends
    simp only [hvisited.mem_iff]

/-- And an entry that is the same has slots whose order is free. -/
theorem agree_of_same
    (h : (changed lib (children.visited FirewallTag.ofName FirewallTag.descends) {}).Same
      (changed lib (children.reversed.visited FirewallTag.ofName FirewallTag.descends) {}))
    (s : FwSlot) : s.Agree (stored lib (inSlot s (fieldItems children)))
      (stored lib (inSlot s (fieldItems children)).reverse) := by
  have hreverse := agree_entry lib children.reversed s
  have hslot :
      inSlot s (fieldItems children.reversed) = (inSlot s (fieldItems children)).reverse := by
    rw [fieldItems_reversed]
    exact List.filter_reverse
  rw [hslot] at hreverse
  exact ((agree_entry lib children s).symm.trans (agree_values_iff.2 h.values s)).trans hreverse

/-- The slots with two fields are those of ports and of masks. -/
theorem agree_iff_free (h : FirewallFields name children) :
    (∀ s : FwSlot, s.Agree (stored lib (inSlot s (fieldItems children)))
      (stored lib (inSlot s (fieldItems children)).reverse)) ↔
    PortsFree (fieldItems children) .srcPort .srcRange ∧
      PortsFree (fieldItems children) .dstPort .dstRange ∧
        MaskFree (fieldItems children) .tosValue .tosMask ∧
          MaskFree (fieldItems children) .tcValue .tcMask := by
  have hsrc := FwSide.src.portsFree_iff lib h.once h.inRange
  have hdst := FwSide.dst.portsFree_iff lib h.once h.inRange
  have htos : MaskFree (fieldItems children) .tosValue .tosMask ↔ _ :=
    (agree_reverse_iff_forall (s := .tos) lib h.once rfl (by decide)).symm
  have htc : MaskFree (fieldItems children) .tcValue .tcMask ↔ _ :=
    (agree_reverse_iff_forall (s := .tc) lib h.once rfl (by decide)).symm
  constructor
  · intro hall
    exact ⟨hsrc.2 (hall _), hdst.2 (hall _), htos.2 (hall _), htc.2 (hall _)⟩
  · rintro ⟨hfsrc, hfdst, hftos, hftc⟩ s
    cases s
    case srcPorts => exact hsrc.1 hfsrc
    case dstPorts => exact hdst.1 hfdst
    case tos => exact htos.1 hftos
    case tc => exact htc.1 hftc
    all_goals
      rw [reverse_of_length_le (length_inSlot h.once)]
      exact .refl ..

theorem FwSide.rangeRight (d : FwSide) {lib : InetLib} (h : FirewallFields name children)
    (hfree : PortsFree (fieldItems children) d.port d.range) {e : ExtdFirewallEntry}
    (he : d.slot.Agree e (stored lib (inSlot d.slot (fieldItems children)))) :
    RangeRight d.port d.range (fieldItems children) (d.ports e).2.1 (d.ports e).2.2 := by
  intro r hr hne
  have hports := (d.agree_iff.1 he).trans (d.ports_right lib h.once hfree hr hne)
  have hrange := d.range_inRange (h.inRange _ hr)
  have hhi : ((BitVec.ofInt 16 (atoi r.bytes)).toNat : Int) = atoi r.bytes := by
    rw [BitVec.toNat_ofInt]
    dsimp only at hrange ⊢
    omega
  rw [hports]
  refine ⟨fun p hp => ?_, fun _ => ⟨rfl, hhi⟩⟩
  have hzero : atoi p.bytes = 0 := (hfree p r hp hr).resolve_right hne
  rw [hzero, hhi, Int.zero_add]
  exact ⟨rfl, rfl⟩

/-- So is the mask of an entry. -/
theorem maskRight_iff (len : FwField) (words : List Nat) (h : FirewallFields name children)
    (hlen : len = .srcPrefix ∨ len = .dstPrefix) (hwords : ∀ l, (len, l) ∈ fieldItems children →
      words = prefixWords (atoi l.bytes) (List.replicate 4 0)) :
    MaskRight len (fieldItems children) words ↔ PrefixFree (fieldItems children) len := by
  refine forall_congr' fun l => forall_congr' fun hl => ?_
  have hrange : 0 ≤ atoi l.bytes ∧ atoi l.bytes ≤ 128 := by
    have hin := h.inRange _ hl
    rcases hlen with rfl | rfl <;> exact hin
  rw [hwords l hl]
  exact prefixWords_right hrange

theorem srcMask_eq {lib : InetLib} (h : FirewallFields name children) {l : XmlText}
    (hl : (.srcPrefix, l) ∈ fieldItems children) :
    (changed lib (children.visited FirewallTag.ofName FirewallTag.descends) {}).src_addr_mask_v6 =
      prefixWords (atoi l.bytes) (List.replicate 4 0) := by
  have hentry := agree_entry lib children .srcMaskV6
  rw [inSlot_single h.once hl (by decide) (by simp [FwSlot.fields])] at hentry
  exact hentry

theorem dstMask_eq {lib : InetLib} (h : FirewallFields name children) {l : XmlText}
    (hl : (.dstPrefix, l) ∈ fieldItems children) :
    (changed lib (children.visited FirewallTag.ofName FirewallTag.descends) {}).dst_addr_mask_v6 =
      prefixWords (atoi l.bytes) (List.replicate 4 0) := by
  have hentry := agree_entry lib children .dstMaskV6
  rw [inSlot_single h.once hl (by decide) (by simp [FwSlot.fields])] at hentry
  exact hentry

end Elements

/-- **The order of the tags of a firewall entry.** A `Firewall` element with fields of one IP
    version leaves a right entry, the same whatever the order of the elements in it, if and only if
    the fields that share a part do not interfere: of a port and its range one is 0, a mask leaves
    its value as it is, and the prefix lengths are multiples of 4. -/
theorem firewall_order_iff (lib : InetLib) (name : Option XmlText) (children : XmlDoc)
    (h : FirewallFields name children) :
    (∃ e, RightEntry lib name children e) ↔ OrderFree (fieldItems children) := by
  have hstores := stores_changed h lib
  have hsrcMask := fun words hwords =>
    maskRight_iff .srcPrefix words h (.inl rfl) hwords
  have hdstMask := fun words hwords =>
    maskRight_iff .dstPrefix words h (.inr rfl) hwords
  constructor
  · rintro ⟨e, he⟩
    obtain rfl := he.stores.eq hstores
    obtain ⟨e', hstores', hsame⟩ := he.anyOrder _ (shuffle_reversed children)
    obtain rfl := hstores'.eq (stores_changed (h.shuffle (shuffle_reversed children)) lib)
    obtain ⟨hsrc, hdst, htos, htc⟩ := (agree_iff_free lib h).1 (agree_of_same lib hsame)
    exact ⟨hsrc, hdst, htos, htc, (hsrcMask _ fun _ => srcMask_eq h).1 he.srcMask,
      (hdstMask _ fun _ => dstMask_eq h).1 he.dstMask⟩
  · intro hfree
    have hagree := (agree_iff_free lib h).2 ⟨hfree.srcPorts, hfree.dstPorts, hfree.tos, hfree.tc⟩
    exact ⟨_, {
      stores := hstores
      anyOrder := fun children' hshuffle =>
        ⟨_, stores_changed (h.shuffle hshuffle) lib, same_of_agree lib h hshuffle hagree⟩
      srcPorts := FwSide.src.rangeRight h hfree.srcPorts (agree_entry lib children _)
      dstPorts := FwSide.dst.rangeRight h hfree.dstPorts (agree_entry lib children _)
      srcMask := (hsrcMask _ fun _ => srcMask_eq h).2 hfree.srcMask
      dstMask := (hdstMask _ fun _ => dstMask_eq h).2 hfree.dstMask }⟩

theorem noNul_ipFamily : 0 ∉ ascii "IPFamily" := by decide

theorem noNul_four : 0 ∉ ascii "4" := by decide

theorem noNul_firewall : 0 ∉ ascii "Firewall" := by decide

/-- What is in a `Firewall` element for TCP from the ports of a range. -/
def tcpFrom (port range : XmlText) : XmlDoc :=
  xmlElement "IPFamily" noNul_ipFamily (xmlString "4" noNul_four)
    (xmlElement "TCPSource" (by decide)
      (xmlElement "TCPSourcePort" (by decide) (.node .text none (some port) .null .null)
        (xmlElement "TCPSourceRange" (by decide) (.node .text none (some range) .null .null) .null))
      .null)

variable (port range : XmlText)

theorem visited_tcpFrom : (tcpFrom port range).visited FirewallTag.ofName FirewallTag.descends =
      [(.IPFamily, some ⟨ascii "4", by decide⟩), (.TCPSource, none), (.TCPSourcePort, some port),
        (.TCPSourceRange, some range)] := by
  rfl

theorem fieldItems_tcpFrom : fieldItems (tcpFrom port range) =
    [(.ipVsn, ⟨ascii "4", by decide⟩), (.srcPort, port), (.srcRange, range)] := by
  unfold fieldItems leaves
  rw [visited_tcpFrom]
  rfl

def firewallName : Option XmlText := some ⟨ascii "Firewall", noNul_firewall⟩

theorem firewallFields_tcpFrom {port range : XmlText}
    (hport : port.length < maxXmlStrLen ∧ FwField.srcPort.InRange (atoi port.bytes))
    (hrange : range.length < maxXmlStrLen ∧ FwField.srcRange.InRange (atoi range.bytes)) :
    FirewallFields firewallName (tcpFrom port range) where
  tag := by decide +kernel
  inside := by simp [visited_tcpFrom]
  once := by simp [fieldItems_tcpFrom]
  short := by
    have hfour : (XmlText.mk (ascii "4") (by decide)).length < maxXmlStrLen := by decide
    simp [fieldItems_tcpFrom, hport.1, hrange.1, hfour]
  inRange := by
    have hfour : FwField.ipVsn.InRange (atoi (ascii "4")) := trivial
    simp [fieldItems_tcpFrom, hport.2, hrange.2, hfour]
  oneVersion := by simp [fieldItems_tcpFrom, FwField.version]

theorem orderFree_tcpFrom {port range : XmlText} (h : atoi range.bytes = 0) :
    OrderFree (fieldItems (tcpFrom port range)) where
  srcPorts p r _ hr := by
    rw [fieldItems_tcpFrom] at hr
    obtain rfl : r = range := by simpa using hr
    exact .inr h
  dstPorts := by simp [PortsFree, fieldItems_tcpFrom]
  tos := by simp [MaskFree, fieldItems_tcpFrom]
  tc := by simp [MaskFree, fieldItems_tcpFrom]
  srcMask := by simp [PrefixFree, fieldItems_tcpFrom]
  dstMask := by simp [PrefixFree, fieldItems_tcpFrom]

theorem firewall_order_one : ∃ e, RightEntry ⟨fun _ => 0, fun _ => []⟩ firewallName
    (tcpFrom ⟨ascii "80", by decide⟩ ⟨ascii "0", by decide⟩) e :=
  (firewall_order_iff _ _ _ (firewallFields_tcpFrom (by decide) (by decide))).2
    (orderFree_tcpFrom (by decide))

theorem not_rightEntry_tcpFrom {lib : InetLib}
    (h : FirewallFields firewallName (tcpFrom port range)) (hport : atoi port.bytes ≠ 0)
    (hrange : atoi range.bytes ≠ 0) :
    ¬ ∃ e, RightEntry lib firewallName (tcpFrom port range) e := by
  rintro ⟨e, he⟩
  obtain rfl := (stores_changed h lib).eq he.stores
  obtain ⟨e', hstores, hsame⟩ := he.anyOrder _ (shuffle_reversed _)
  obtain rfl := (stores_changed (h.shuffle (shuffle_reversed _)) lib).eq hstores
  have hagree := agree_of_same lib hsame .srcPorts
  have hitems : (FwField.srcPort, port) ∈ fieldItems (tcpFrom port range) := by
    simp [fieldItems_tcpFrom]
  rw [fieldItems_tcpFrom] at hagree
  have hzero := (FwSide.src.agree_swap_iff lib port range (h.inRange _ hitems)).1 hagree
  exact hzero.elim hport hrange

theorem firewall_order_some : ¬ ∀ lib name children, FirewallFields name children →
    ∃ e, RightEntry lib name children e := by
  intro h
  exact not_rightEntry_tcpFrom ⟨ascii "80", by decide⟩ ⟨ascii "10", by decide⟩
    (firewallFields_tcpFrom (by decide) (by decide)) (by decide) (by decide)
    (h ⟨fun _ => 0, fun _ => []⟩ _ _ (firewallFields_tcpFrom (by decide) (by decide)))

end Nx508j.Ipacm
