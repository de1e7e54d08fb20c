import Mathlib.Data.Finset.Option
import Nx508j.Ipacm.NetlinkEvents

/-! # What the conntrack filters ignore

`UpdateUDPFilters` and `UpdateTCPFilters` are called one after the other when a local interface
comes up. Both add its addresses to the filter of their own protocol. What is to be added only once,
the address of the bridge and the limited broadcast address, they both add to the UDP filter. -/

namespace Nx508j.Ipacm

/-! ## The filters -/

/-- `nfct_filter`, as the IPv4 destinations and sources that it ignores (negative logic, with a mask
    of ones). -/
structure NfctFilter where
  dst : Finset (BitVec 32) := ∅
  src : Finset (BitVec 32) := ∅
deriving DecidableEq

namespace NfctFilter

variable (filter : NfctFilter) (addr : BitVec 32)

/-- `nfct_filter_add_attr` for `NFCT_FILTER_DST_IPV4` -/
def addDst : NfctFilter := { filter with dst := insert addr filter.dst }

/-- `nfct_filter_add_attr` for `NFCT_FILTER_SRC_IPV4` -/
def addSrc : NfctFilter := { filter with src := insert addr filter.src }

end NfctFilter

/-- `ipacm_event_iface_up` -/
structure IfaceUp where
  ipv4_addr : BitVec 32
  addr_mask : BitVec 32
deriving DecidableEq, Repr

/-- The broadcast address of an interface. -/
def IfaceUp.bc_ip_addr (param : IfaceUp) : BitVec 32 :=
  (0xFFFFFFFF &&& ~~~param.addr_mask) ||| (param.ipv4_addr &&& param.addr_mask)

/-- What a look for the address of the bridge meets: the socket, whether the name of the bridge fits
    into `ifr_name`, and what `SIOCGIFADDR` gives, in network order. -/
structure BridgeLookup where
  socket : Bool
  nameFits : Bool
  s_addr : Option Nat
deriving DecidableEq, Repr

/-- The address, if it is found. -/
def BridgeLookup.ipv4_addr (l : BridgeLookup) : Option (BitVec 32) :=
  if l.socket = false ∨ l.nameFits = false then none
  else l.s_addr.map fun s_addr => BitVec.ofNat 32 (Netlink.ntohl s_addr)

namespace NfctFilter

variable (filter : NfctFilter)

/-- `IPA_Conntrack_Filters_Ignore_Bridge_Addrs` -/
def ignoreBridgeAddrs (l : BridgeLookup) : NfctFilter :=
  match l.ipv4_addr with
  | none => filter
  | some addr => (filter.addDst addr).addSrc addr

/-- `IPA_Conntrack_Filters_Ignore_Local_Iface` -/
def ignoreLocalIface (param : IfaceUp) : NfctFilter :=
  ((filter.addDst param.ipv4_addr).addSrc param.ipv4_addr).addDst param.bc_ip_addr

/-- `IPA_Conntrack_Filters_Ignore_Local_Addrs` -/
def ignoreLocalAddrs : NfctFilter := (filter.addDst 0xFFFFFFFF).addSrc 0xFFFFFFFF

end NfctFilter

/-! ## The client -/

/-- `IPACM_ConntrackClient` once it has its filters, with the static `isIgnore` of each of the two
    functions. `bridges` is a record of the addresses that were found for the bridge. -/
structure ConntrackClient where
  udp_filter : NfctFilter := {}
  tcp_filter : NfctFilter := {}
  udp_isIgnore : Bool := false
  tcp_isIgnore : Bool := false
  bridges : Finset (BitVec 32) := ∅
deriving DecidableEq

namespace ConntrackClient

variable (c : ConntrackClient) (param : IfaceUp) (isWan : Bool) (l : BridgeLookup)

/-- What is done to the filter that is passed where the flag is not set. -/
def ignoreOnce (filter : NfctFilter) : NfctFilter := (filter.ignoreBridgeAddrs l).ignoreLocalAddrs

/-- `UpdateUDPFilters`. That the filter is attached to the handle is left out. -/
def UpdateUDPFilters : ConntrackClient :=
  if isWan then c
  else
    let c := { c with udp_filter := c.udp_filter.ignoreLocalIface param }
    if c.udp_isIgnore then c
    else
      { c with
        udp_filter := ignoreOnce l c.udp_filter
        udp_isIgnore := true
        bridges := c.bridges ∪ l.ipv4_addr.toFinset }

/-- `UpdateTCPFilters`. The part for once passes the UDP filter. -/
def UpdateTCPFilters : ConntrackClient :=
  if isWan then c
  else
    let c := { c with tcp_filter := c.tcp_filter.ignoreLocalIface param }
    if c.tcp_isIgnore then c
    else
      { c with
        udp_filter := ignoreOnce l c.udp_filter
        tcp_isIgnore := true
        bridges := c.bridges ∪ l.ipv4_addr.toFinset }

end ConntrackClient

/-- A local interface comes up (`IPA_HANDLE_WLAN_UP`, `IPA_HANDLE_LAN_UP`), with what the two looks
    for the bridge would meet. -/
structure LocalUp where
  param : IfaceUp
  udp : BridgeLookup
  tcp : BridgeLookup
deriving DecidableEq, Repr

/-- The pair of calls. -/
def ConntrackClient.localUp (c : ConntrackClient) (up : LocalUp) : ConntrackClient :=
  (c.UpdateUDPFilters up.param false up.udp).UpdateTCPFilters up.param false up.tcp

/-- All interfaces that come up, from the start on. -/
def ConntrackClient.run (ups : List LocalUp) : ConntrackClient :=
  ups.foldl ConntrackClient.localUp {}

/-! ## What was announced -/

/-- The addresses of the interfaces. -/
def announced (ups : List LocalUp) : Finset (BitVec 32) :=
  (ups.map fun up => up.param.ipv4_addr).toFinset

/-- Their broadcast addresses. -/
def broadcasts (ups : List LocalUp) : Finset (BitVec 32) :=
  (ups.map fun up => up.param.bc_ip_addr).toFinset

namespace ConntrackClient

/-- What is to be ignored once there is an interface, besides what belongs to the interfaces. -/
def once (c : ConntrackClient) : Finset (BitVec 32) := insert 0xFFFFFFFF c.bridges

/-- **Both filters ignore what they should**: the addresses of all interfaces, as destination also
    their broadcast addresses, the limited broadcast address, and the bridge. -/
structure Agrees (c : ConntrackClient) (ups : List LocalUp) : Prop where
  same : c.tcp_filter = c.udp_filter
  src : c.udp_filter.src = announced ups ∪ c.once
  dst : c.udp_filter.dst = announced ups ∪ broadcasts ups ∪ c.once

/-! ## Runs -/

variable {c : ConntrackClient} {ups : List LocalUp} {up : LocalUp}

theorem localIface_src (filter : NfctFilter) (param : IfaceUp) :
    (filter.ignoreLocalIface param).src = insert param.ipv4_addr filter.src := rfl

theorem localIface_dst (filter : NfctFilter) (param : IfaceUp) :
    (filter.ignoreLocalIface param).dst =
      insert param.bc_ip_addr (insert param.ipv4_addr filter.dst) := rfl

theorem insert_ignored (addr : Option (BitVec 32)) (ignored : Finset (BitVec 32)) :
    insert 0xFFFFFFFF (addr.elim ignored fun addr => insert addr ignored) =
      ignored ∪ insert 0xFFFFFFFF addr.toFinset := by
  cases addr with
  | none =>
    change insert 0xFFFFFFFF ignored = ignored ∪ insert 0xFFFFFFFF ∅
    rw [Finset.union_insert, Finset.union_empty]
  | some addr =>
    change insert 0xFFFFFFFF (insert addr ignored) = ignored ∪ insert 0xFFFFFFFF (insert addr ∅)
    rw [Finset.union_insert, Finset.union_insert, Finset.union_empty]

theorem ignoreOnce_src (l : BridgeLookup) (filter : NfctFilter) :
    (ignoreOnce l filter).src = filter.src ∪ insert 0xFFFFFFFF l.ipv4_addr.toFinset := by
  rw [← insert_ignored]
  unfold ignoreOnce NfctFilter.ignoreBridgeAddrs
  cases l.ipv4_addr <;> rfl

theorem ignoreOnce_dst (l : BridgeLookup) (filter : NfctFilter) :
    (ignoreOnce l filter).dst = filter.dst ∪ insert 0xFFFFFFFF l.ipv4_addr.toFinset := by
  rw [← insert_ignored]
  unfold ignoreOnce NfctFilter.ignoreBridgeAddrs
  cases l.ipv4_addr <;> rfl

/-- What holds of the filters after some interfaces came up. -/
structure Holds (c : ConntrackClient) (ups : List LocalUp) : Prop where
  udp : c.udp_isIgnore = true
  tcp : c.tcp_isIgnore = true
  udp_src : c.udp_filter.src = announced ups ∪ c.once
  udp_dst : c.udp_filter.dst = announced ups ∪ broadcasts ups ∪ c.once
  tcp_src : c.tcp_filter.src = announced ups
  tcp_dst : c.tcp_filter.dst = announced ups ∪ broadcasts ups

theorem announced_concat (ups : List LocalUp) (up : LocalUp) :
    announced (ups ++ [up]) = insert up.param.ipv4_addr (announced ups) := by
  unfold announced
  rw [List.map_append, List.toFinset_append, Finset.union_comm]
  rfl

theorem broadcasts_concat (ups : List LocalUp) (up : LocalUp) :
    broadcasts (ups ++ [up]) = insert up.param.bc_ip_addr (broadcasts ups) := by
  unfold broadcasts
  rw [List.map_append, List.toFinset_append, Finset.union_comm]
  rfl

theorem holds_first (up : LocalUp) : (ConntrackClient.localUp {} up).Holds [up] := by
  have hudp : (ConntrackClient.localUp {} up).udp_filter =
      ignoreOnce up.tcp (ignoreOnce up.udp (NfctFilter.ignoreLocalIface {} up.param)) := rfl
  have htcp : (ConntrackClient.localUp {} up).tcp_filter =
      NfctFilter.ignoreLocalIface {} up.param := rfl
  have honce : (ConntrackClient.localUp {} up).once =
      insert 0xFFFFFFFF (up.udp.ipv4_addr.toFinset ∪ up.tcp.ipv4_addr.toFinset) := by
    change insert 0xFFFFFFFF (∅ ∪ up.udp.ipv4_addr.toFinset ∪ up.tcp.ipv4_addr.toFinset) = _
    rw [Finset.empty_union]
  have hone : announced [up] = insert up.param.ipv4_addr ∅ := rfl
  have hbc : broadcasts [up] = insert up.param.bc_ip_addr ∅ := rfl
  refine ⟨rfl, rfl, ?_, ?_, ?_, ?_⟩
  · rw [hudp, honce, ignoreOnce_src, ignoreOnce_src, localIface_src, hone]
    ext x
    simp only [Finset.mem_insert, Finset.mem_union]
    tauto
  · rw [hudp, honce, ignoreOnce_dst, ignoreOnce_dst, localIface_dst, hone, hbc]
    ext x
    simp only [Finset.mem_insert, Finset.mem_union]
    tauto
  · rw [htcp, localIface_src, hone]
  · rw [htcp, localIface_dst, hone, hbc]
    ext x
    simp only [Finset.mem_insert, Finset.mem_union]
    tauto

theorem Holds.localUp (h : c.Holds ups) (up : LocalUp) : (c.localUp up).Holds (ups ++ [up]) := by
  have hnext : c.localUp up = { c with
      udp_filter := c.udp_filter.ignoreLocalIface up.param
      tcp_filter := c.tcp_filter.ignoreLocalIface up.param } := by
    simp [ConntrackClient.localUp, UpdateUDPFilters, UpdateTCPFilters, h.udp, h.tcp]
  rw [hnext]
  refine ⟨h.udp, h.tcp, ?_, ?_, ?_, ?_⟩
  · rw [localIface_src, h.udp_src, announced_concat]
    exact (Finset.insert_union ..).symm
  · rw [localIface_dst, h.udp_dst, announced_concat, broadcasts_concat]
    ext x
    simp only [Finset.mem_insert, Finset.mem_union, once]
    tauto
  · rw [localIface_src, h.tcp_src, announced_concat]
  · rw [localIface_dst, h.tcp_dst, announced_concat, broadcasts_concat]
    ext x
    simp only [Finset.mem_insert, Finset.mem_union]
    tauto

/-- **After each pair**, the UDP filter ignores what both should, and the TCP filter only what
    belongs to the interfaces. -/
theorem holds_run (ups : List LocalUp) (up : LocalUp) :
    (run (ups ++ [up])).Holds (ups ++ [up]) := by
  induction ups using List.reverseRecOn generalizing up with
  | nil => exact holds_first up
  | append_singleton ups last ih =>
    have hrun : run (ups ++ [last] ++ [up]) = (run (ups ++ [last])).localUp up := by
      unfold run
      rw [List.foldl_append]
      rfl
    rw [hrun]
    exact (ih last).localUp up

/-- So that the two agree just if what is added once belongs to the interfaces anyway. -/
theorem agrees_run_iff (ups : List LocalUp) (up : LocalUp) :
    (run (ups ++ [up])).Agrees (ups ++ [up]) ↔
      (0xFFFFFFFF : BitVec 32) ∈ announced (ups ++ [up]) ∧
        ∀ bridge ∈ (run (ups ++ [up])).bridges, bridge ∈ announced (ups ++ [up]) := by
  have h := holds_run ups up
  have honce : (∀ x ∈ (run (ups ++ [up])).once, x ∈ announced (ups ++ [up])) ↔
      (0xFFFFFFFF : BitVec 32) ∈ announced (ups ++ [up]) ∧
        ∀ bridge ∈ (run (ups ++ [up])).bridges, bridge ∈ announced (ups ++ [up]) :=
    Finset.forall_mem_insert ..
  rw [← honce]
  constructor
  · rintro ⟨hsame, hsrc, -⟩ x hx
    rw [← hsame, h.tcp_src] at hsrc
    rw [hsrc]
    exact Finset.mem_union_right _ hx
  · intro hsub
    refine ⟨?_, h.udp_src, h.udp_dst⟩
    have hsrc : (run (ups ++ [up])).tcp_filter.src = (run (ups ++ [up])).udp_filter.src := by
      rw [h.tcp_src, h.udp_src, Finset.union_eq_left.2 hsub]
    have hdst : (run (ups ++ [up])).tcp_filter.dst = (run (ups ++ [up])).udp_filter.dst := by
      rw [h.tcp_dst, h.udp_dst]
      exact (Finset.union_eq_left.2 fun x hx => Finset.mem_union_left _ (hsub x hx)).symm
    rcases htcp : (run (ups ++ [up])).tcp_filter with ⟨dst, src⟩
    rcases hudp : (run (ups ++ [up])).udp_filter with ⟨dst', src'⟩
    rw [htcp, hudp] at hsrc hdst
    exact congrArg₂ NfctFilter.mk hdst hsrc

/-- One interface comes up, and the bridge is not there yet: connections to the limited broadcast
    address stay in the TCP filter. -/
theorem not_agrees_wlan_up :
    ¬ (run [⟨⟨0xC0A8E101, 0xFFFFFF00⟩, ⟨true, true, none⟩, ⟨true, true, none⟩⟩]).Agrees
      [⟨⟨0xC0A8E101, 0xFFFFFF00⟩, ⟨true, true, none⟩, ⟨true, true, none⟩⟩] :=
  fun h => absurd h.same (by decide)

end ConntrackClient

end Nx508j.Ipacm
