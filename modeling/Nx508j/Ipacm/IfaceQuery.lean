import Nx508j.Ipacm.Config
import Nx508j.Ipacm.Neighbor

/-! # Interfaces that are not configured

`iface_ipa_index_query` returns -1 for a Linux index that is not that of a configured interface. The
interface manager looks at this when it makes an instance, after it has used what was returned as an
index of `iface_table`; `IPACM_Neighbor` uses it without a look. -/

namespace Nx508j.Ipacm

open Nx508j.Lib Lan2Lan

/-! ## Events -/

/-- `ipa_get_if_index`: what it returns and what it stores in `if_index`, if it gets a socket and
    `SIOCGIFINDEX` knows the name. Without a socket `if_index` stays as it was. -/
def ipa_get_if_index (socket : Bool) (ifr_ifindex : Option Int) (if_index : Int) : Int × Int :=
  if socket = false then (-1, if_index)
  else
    match ifr_ifindex with
    | none => (-1, -1)
    | some ifr_ifindex => (0, ifr_ifindex)

/-- The Linux index that comes with an event for `IPACM_Neighbor`. -/
def NeighborEvent.if_index : NeighborEvent → Int
  | .wlanClientAddEx if_index .. => if_index
  | .newNeigh data _ | .delNeigh data _ => data.if_index

/-- What the two components handle. -/
inductive TableEvent where
  | cfgChange
  | linkUp (event : LinkUp) (if_index : Int) (props : Bool)
  | neighbor (e : NeighborEvent)
deriving DecidableEq, Repr

/-- The Linux index that comes with an event. -/
def TableEvent.if_index : TableEvent → Option Int
  | .cfgChange => none
  | .linkUp _ if_index _ => some if_index
  | .neighbor e => some e.if_index

/-- What goes wrong: the table of the interfaces is read with the index -1, or something else. -/
inductive TableFault where
  | badIndex
  | other (f : Fault)
deriving DecidableEq, Repr

/-! ## The handlers -/

/-- What the configuration says of interfaces, as long as no index is remembered anew. -/
def IpacmConfig.neighborIfaces (c : IpacmConfig) (ifr_name : Int → Option IfaceName) :
    NeighborIfaces where
  ipa_index := c.ipa_index ifr_name
  isBridge i := (c.iface_table[i]?).any fun e => e.iface_name = c.ipa_virtual_iface_name

/-- The configuration with its interfaces, and the neighbors. -/
structure TableWorld where
  config : ConfigWorld
  neighbor : Neighbor := {}

namespace TableWorld

variable (w : TableWorld)

/-- The configuration after a query. -/
def query (if_index : Int) : IpacmConfig :=
  (w.config.ipacmcfg.iface_ipa_index_query w.config.ifr_name if_index).2

/-- What `IPACM_Neighbor` is told after the first query for an event. -/
def ifaces (e : NeighborEvent) : NeighborIfaces :=
  (w.query e.if_index).neighborIfaces w.config.ifr_name

/-- The entry that the interface manager reads for an event. -/
def linkUpEntry (event : LinkUp) (if_index : Int) : Except Fault (Option (Nat × IfaceType)) :=
  ConfigWorld.linkUpEntry (w.query if_index)
    (w.config.ipacmcfg.iface_ipa_index_query w.config.ifr_name if_index).1 event

/-- The configuration after the queries for what was posted. -/
def queryPosts (c : IpacmConfig) (ifr_name : Int → Option IfaceName) (posts : List NeighborPost) :
    IpacmConfig :=
  posts.foldl (fun c p =>
    match p with
    | .clientIpAddrAdd data | .clientIpAddrDel data =>
      (c.iface_ipa_index_query ifr_name data.if_index).2) c

/-- `event_callback` of the component that an event is for. -/
def handle : TableEvent → Except TableFault (TableWorld × List NeighborPost)
  | .cfgChange =>
    .ok ({ w with config :=
      { w.config with ipacmcfg := w.config.ipacmcfg.Init w.config.cfg } }, [])
  | .linkUp event if_index props =>
    match w.linkUpEntry event if_index with
    | .error _ => .error .badIndex
    | .ok _ =>
      match w.config.linkUp event if_index props with
      | .error f => .error (.other f)
      | .ok config => .ok ({ w with config }, [])
  | .neighbor e =>
    match w.neighbor.event_callback (w.ifaces e) e with
    | .error _ => .error .badIndex
    | .ok (neighbor, posts) =>
      .ok ({ config :=
        { w.config with
          ipacmcfg := queryPosts (w.query e.if_index) w.config.ifr_name posts }
             neighbor }, posts)

/-! ## The property -/

/-- The Linux index leads to an entry of the configuration. -/
def Configured (if_index : Int) : Prop :=
  (w.config.ipacmcfg.ipa_index w.config.ifr_name if_index).isSome

/-- The categories of the interfaces. -/
def categories : List IfaceType := w.config.ipacmcfg.iface_table.map (·.if_cat)

/-- **An event is handled safely**: the table is not read at -1, and an event for an interface that
    is not configured changes no category, makes no instance and posts nothing. -/
structure Safe (w : TableWorld) (e : TableEvent) : Prop where
  index : w.handle e ≠ .error .badIndex
  frame : ∀ if_index, e.if_index = some if_index → ¬ w.Configured if_index →
    ∃ w', w.handle e = .ok (w', []) ∧ w'.categories = w.categories ∧
      w'.config.instances = w.config.instances

/-! ## The condition -/

/-- **The condition** for a neighbor with an address: its interface is configured, and if it is the
    bridge so is the interface that is remembered of the client. -/
def AddrFits (x : NeighborIfaces) (data : NeighData) (memory : Bool) : Prop :=
  ∃ i, x.ipa_index data.if_index = some i ∧
    (x.isBridge i = true → memory = true → ∀ r, w.neighbor.find data.mac_addr = some r →
      (x.ipa_index r.iface_index).isSome)

/-- **The condition** for a neighbor. -/
def NeighFits (x : NeighborIfaces) (data : NeighData) (memory : Bool) : Prop :=
  match data.iptype with
  | .v4 => data.ipv4_addr ≠ 0 → w.AddrFits x data memory
  | .v6 => if data.ipv6_addr ≠ 0 then w.AddrFits x data memory
      else (x.ipa_index data.if_index).isSome

/-- **The condition**: the interface of an event is configured if it is looked at, and so is that of
    a client of the bridge. -/
def Fits : TableEvent → Prop
  | .cfgChange => True
  | .linkUp event if_index _ => w.Configured if_index ∨
      (event = .wanEmbms ∧ w.config.ipacmcfg.ipacm_odu_enable = false)
  | .neighbor e =>
    match e with
    | .wlanClientAddEx if_index attribs stack _ =>
      w.neighbor.find (Neighbor.clientMacAddr attribs stack) ≠ none → w.Configured if_index
    | .newNeigh data memory | .delNeigh data memory => w.NeighFits (w.ifaces e) data memory

end TableWorld

/-! ## Queries -/

namespace IpacmConfig

variable {c : IpacmConfig} {ifr_name : Int → Option IfaceName} {if_index : Int} {i : Nat}

theorem known_lt (h : c.known if_index = some i) : i < c.iface_table.length :=
  (List.findIdx?_eq_some_iff_getElem.1 h).1

theorem named_lt {name : IfaceName} (h : c.named name = some i) :
    i < c.iface_table.length := (List.findIdx?_eq_some_iff_getElem.1 h).1

theorem query_fst (c : IpacmConfig) (ifr_name : Int → Option IfaceName) (if_index : Int) :
    (c.iface_ipa_index_query ifr_name if_index).1 = c.ipa_index ifr_name if_index := by
  unfold iface_ipa_index_query ipa_index
  cases c.known if_index with
  | some link => rfl
  | none =>
    cases (ifr_name if_index).bind c.named with
    | some link => rfl
    | none => rfl

theorem query_none (h : c.ipa_index ifr_name if_index = none) :
    (c.iface_ipa_index_query ifr_name if_index).2 = c := by
  unfold ipa_index at h
  rw [Option.or_eq_none_iff] at h
  unfold iface_ipa_index_query
  rw [h.1, h.2]

theorem ipa_index_lt (h : c.ipa_index ifr_name if_index = some i) : i < c.iface_table.length := by
  unfold ipa_index at h
  cases hknown : c.known if_index with
  | some link =>
    rw [hknown] at h
    cases h
    exact known_lt hknown
  | none =>
    rw [hknown, Option.none_or] at h
    obtain ⟨name, -, hnamed⟩ := Option.bind_eq_some_iff.1 h
    exact named_lt hnamed

theorem query_table_length (c : IpacmConfig) (ifr_name : Int → Option IfaceName) (if_index : Int) :
    (c.iface_ipa_index_query ifr_name if_index).2.iface_table.length = c.iface_table.length := by
  have hnames := congrArg List.length (c.query_keeps ifr_name if_index).1
  unfold names at hnames
  rwa [List.length_map, List.length_map] at hnames

theorem ipa_index_query (c : IpacmConfig) (ifr_name : Int → Option IfaceName) (if_index : Int) :
    (c.iface_ipa_index_query ifr_name if_index).2.ipa_index ifr_name if_index =
      c.ipa_index ifr_name if_index := by
  cases hknown : c.known if_index with
  | some link =>
    have hsame : (c.iface_ipa_index_query ifr_name if_index).2 = c := by
      unfold iface_ipa_index_query
      rw [hknown]
    rw [hsame]
  | none =>
    cases hnamed : (ifr_name if_index).bind c.named with
    | none =>
      rw [query_none]
      unfold ipa_index
      rw [hknown, hnamed]
      rfl
    | some link =>
      have hquery : (c.iface_ipa_index_query ifr_name if_index).2.iface_table =
          c.iface_table.modify link fun e => { e with netlink_interface_index := if_index } := by
        unfold iface_ipa_index_query
        rw [hknown, hnamed]
      obtain ⟨name, -, hname⟩ := Option.bind_eq_some_iff.1 hnamed
      have hlt := named_lt hname
      -- the entry is the first with the index, as no other has it
      have hfound : (c.iface_ipa_index_query ifr_name if_index).2.known if_index =
          some link := by
        unfold known at hknown ⊢
        rw [List.findIdx?_eq_none_iff] at hknown
        rw [hquery, List.findIdx?_eq_some_iff_getElem]
        refine ⟨by rwa [List.length_modify], ?_, fun j hj => ?_⟩
        · rw [List.getElem_modify, if_pos rfl]
          simp
        · rw [List.getElem_modify, if_neg (by omega)]
          have hentry := hknown _ (List.getElem_mem (hj.trans hlt))
          simpa using hentry
      unfold ipa_index
      rw [hfound, hknown, hnamed]
      rfl

theorem query_odu (c : IpacmConfig) (ifr_name : Int → Option IfaceName) (if_index : Int) :
    (c.iface_ipa_index_query ifr_name if_index).2.ipacm_odu_enable = c.ipacm_odu_enable := by
  unfold iface_ipa_index_query
  split
  · rfl
  · split <;> rfl

end IpacmConfig

/-! ## What the handlers read -/

namespace Neighbor

variable {x : NeighborIfaces} {n : Neighbor} {if_index : Int}

theorem entry_some {i : Nat} (h : x.ipa_index if_index = some i) : x.entry if_index = .ok i := by
  unfold NeighborIfaces.entry
  rw [h]

theorem entry_none (h : x.ipa_index if_index = none) : x.entry if_index = .error .outOfBounds := by
  unfold NeighborIfaces.entry
  rw [h]

theorem bind_entry_none {β : Type} {f : Nat → Except Fault β} (h : x.ipa_index if_index = none) :
    ¬ ∃ b, x.entry if_index >>= f = .ok b := by
  rintro ⟨b, hb⟩
  rw [entry_none h, error_bind] at hb
  cases hb

theorem bind_entry_some {β : Type} {f : Nat → Except Fault β} {i : Nat}
    (h : x.ipa_index if_index = some i) : x.entry if_index >>= f = f i := by
  rw [entry_some h, ok_bind]

theorem posted_ok_iff (p : NeighborPost) :
    (∃ res, n.posted x p if_index = .ok res) ↔ (x.ipa_index if_index).isSome := by
  cases hindex : x.ipa_index if_index with
  | none => exact iff_of_false (bind_entry_none hindex) (by simp)
  | some i =>
    refine iff_of_true ⟨(n, [p]), ?_⟩ rfl
    exact bind_entry_some hindex

theorem reconnect_ok_iff (r : NeighborClient) (memory : Bool) :
    (∃ res, n.reconnect x r if_index memory = .ok res) ↔ (x.ipa_index if_index).isSome := by
  cases hindex : x.ipa_index if_index with
  | none => exact iff_of_false (bind_entry_none hindex) (by simp)
  | some i =>
    refine iff_of_true ?_ rfl
    unfold Neighbor.reconnect
    rw [bind_entry_some hindex]
    split
    · exact ⟨_, rfl⟩
    split
    · exact ⟨_, rfl⟩
    split
    · exact ⟨_, rfl⟩
    · exact (posted_ok_iff _).2 (by rw [hindex]; rfl)

theorem noAddr_ok_iff (data : NeighData) (memory : Bool) :
    (∃ res, n.noAddr x data memory = .ok res) ↔ (x.ipa_index data.if_index).isSome := by
  unfold Neighbor.noAddr
  split
  · exact reconnect_ok_iff _ memory
  cases hindex : x.ipa_index data.if_index with
  | none => exact iff_of_false (bind_entry_none hindex) (by simp)
  | some i =>
    refine iff_of_true ?_ rfl
    rw [bind_entry_some hindex]
    split
    · exact ⟨_, rfl⟩
    · exact ⟨_, rfl⟩

end Neighbor

namespace TableWorld

variable {w : TableWorld} {x : NeighborIfaces} {data : NeighData} {memory : Bool}
  (post : NeighData → NeighborPost)

theorem addr_ok_iff {f : Nat → Except Fault (Neighbor × List NeighborPost)}
    {change : NeighborClient → Neighbor} {post : NeighborClient → NeighborPost}
    (hother : ∀ i, x.isBridge i = false ∨ w.neighbor.find data.mac_addr = none → ∃ res, f i = .ok res)
    (hbridge : ∀ i r, x.isBridge i = true → w.neighbor.find data.mac_addr = some r →
      f i = if memory = false then .ok (change r, [])
        else (change r).posted x (post r) r.iface_index) :
    (∃ res, (x.entry data.if_index >>= f) = .ok res) ↔ w.AddrFits x data memory := by
  unfold AddrFits
  cases hindex : x.ipa_index data.if_index with
  | none => exact iff_of_false (Neighbor.bind_entry_none hindex) fun ⟨i, hi, _⟩ => by cases hi
  | some i =>
    rw [Neighbor.bind_entry_some hindex]
    simp only [Option.some.injEq, exists_eq_left']
    cases hi : x.isBridge i with
    | false => exact iff_of_true (hother i (.inl hi)) fun h => by cases h
    | true =>
      cases hfind : w.neighbor.find data.mac_addr with
      | none => exact iff_of_true (hother i (.inr hfind)) fun _ _ r hr => by cases hr
      | some r =>
        rw [hbridge i r hi hfind]
        split
        · next hmemory =>
          exact iff_of_true ⟨_, rfl⟩ fun _ h => by rw [hmemory] at h; cases h
        · next hmemory =>
          rw [Neighbor.posted_ok_iff]
          refine ⟨fun h _ _ q hq => ?_, fun h => h rfl (by simpa using hmemory) r rfl⟩
          cases hq
          exact h

theorem addrV4_ok_iff :
    (∃ res, w.neighbor.addrV4 x post data memory = .ok res) ↔ w.AddrFits x data memory := by
  refine addr_ok_iff (fun i h => ?_) fun i r hi hfind => by rw [if_pos hi, hfind]
  cases hi : x.isBridge i with
  | false =>
    rw [if_neg (by simp)]
    split
    · exact ⟨_, rfl⟩
    · split <;> exact ⟨_, rfl⟩
  | true =>
    rw [if_pos rfl, h.resolve_left (by simp [hi])]
    exact ⟨_, rfl⟩

theorem addrV6_ok_iff :
    (∃ res, w.neighbor.addrV6 x post data memory = .ok res) ↔ w.AddrFits x data memory := by
  refine addr_ok_iff (fun i h => ?_) fun i r hi hfind => by rw [if_pos hi, hfind]
  cases hi : x.isBridge i with
  | false =>
    rw [if_neg (by simp)]
    split <;> exact ⟨_, rfl⟩
  | true =>
    rw [if_pos rfl, h.resolve_left (by simp [hi])]
    exact ⟨_, rfl⟩

theorem neigh_ok_iff :
    (∃ res, w.neighbor.neigh x post data memory = .ok res) ↔ w.NeighFits x data memory := by
  unfold Neighbor.neigh NeighFits
  cases data.iptype with
  | v4 =>
    dsimp only
    split
    · next hzero => exact iff_of_true ⟨_, rfl⟩ fun hne => absurd hzero hne
    · next hne =>
      rw [addrV4_ok_iff]
      exact ⟨fun h _ => h, fun h => h hne⟩
  | v6 =>
    dsimp only
    split
    · exact addrV6_ok_iff post
    · exact Neighbor.noAddr_ok_iff data memory

theorem configured_ifaces (e : NeighborEvent) :
    ((w.ifaces e).ipa_index e.if_index).isSome ↔ w.Configured e.if_index := by
  unfold Configured ifaces query IpacmConfig.neighborIfaces
  dsimp only
  rw [IpacmConfig.ipa_index_query]

theorem event_callback_ok_iff (e : NeighborEvent) :
    (∃ res, w.neighbor.event_callback (w.ifaces e) e = .ok res) ↔ w.Fits (.neighbor e) := by
  have hconfigured := w.configured_ifaces e
  unfold Fits
  cases e with
  | wlanClientAddEx if_index attribs stack memory =>
    unfold Neighbor.event_callback
    dsimp only
    cases w.neighbor.find (Neighbor.clientMacAddr attribs stack) with
    | none => exact iff_of_true ⟨_, rfl⟩ fun h => absurd rfl h
    | some r =>
      rw [Neighbor.reconnect_ok_iff, forall_prop_of_true (by simp)]
      exact hconfigured
  | newNeigh data memory => exact neigh_ok_iff _
  | delNeigh data memory => exact neigh_ok_iff _

theorem linkUpEntry_ok_iff (event : LinkUp) (if_index : Int) (props : Bool) :
    (∃ entry, w.linkUpEntry event if_index = .ok entry) ↔
      w.Fits (.linkUp event if_index props) := by
  unfold linkUpEntry ConfigWorld.linkUpEntry Fits Configured query
  dsimp only
  rw [IpacmConfig.query_fst, IpacmConfig.query_odu]
  split
  · next hnone => exact iff_of_true ⟨_, rfl⟩ (.inr hnone)
  next hreads =>
  rw [or_iff_left hreads]
  cases hindex : w.config.ipacmcfg.ipa_index w.config.ifr_name if_index with
  | none => exact iff_of_false (fun ⟨entry, h⟩ => by cases h) (by simp)
  | some i =>
    have hlt := IpacmConfig.ipa_index_lt hindex
    rw [← IpacmConfig.query_table_length w.config.ipacmcfg w.config.ifr_name if_index] at hlt
    rw [Option.bind_some, List.getElem?_eq_getElem hlt, Option.map_some]
    exact iff_of_true ⟨_, rfl⟩ rfl

theorem handle_index_iff (e : TableEvent) : w.handle e ≠ .error .badIndex ↔ w.Fits e := by
  cases e with
  | cfgChange => exact iff_of_true (fun h => by cases h) trivial
  | linkUp event if_index props =>
    rw [← linkUpEntry_ok_iff event if_index props]
    unfold handle
    dsimp only
    cases w.linkUpEntry event if_index with
    | error f => exact iff_of_false (fun h => h rfl) fun ⟨entry, h⟩ => by cases h
    | ok entry =>
      refine iff_of_true (fun h => ?_) ⟨entry, rfl⟩
      dsimp only at h
      split at h
      · cases h
      · cases h
  | neighbor e =>
    rw [← event_callback_ok_iff e]
    unfold handle
    dsimp only
    cases w.neighbor.event_callback (w.ifaces e) e with
    | error f => exact iff_of_false (fun h => h rfl) fun ⟨res, h⟩ => by cases h
    | ok res => exact iff_of_true (fun h => by cases h) ⟨res, rfl⟩

/-- An event for an interface that is not configured and is not looked at does nothing. -/
theorem handle_unconfigured {e : TableEvent} {if_index : Int} (hindex : e.if_index = some if_index)
    (hnot : ¬ w.Configured if_index) (hfits : w.Fits e) : w.handle e = .ok (w, []) := by
  have hnone : w.config.ipacmcfg.ipa_index w.config.ifr_name if_index = none := by
    simpa [Configured] using hnot
  have hsame : w.query if_index = w.config.ipacmcfg := IpacmConfig.query_none hnone
  cases e with
  | cfgChange => cases hindex
  | linkUp event if_index' props =>
    obtain rfl := Option.some.inj hindex
    have hembms := hfits.resolve_left hnot
    have hentry : w.linkUpEntry event if_index' = .ok none := by
      unfold linkUpEntry ConfigWorld.linkUpEntry
      rw [hsame, if_pos hembms]
    have hup : w.config.linkUp event if_index' props = .ok w.config := by
      unfold ConfigWorld.linkUp
      unfold linkUpEntry query at hentry
      dsimp only
      rw [hentry, ok_bind, IpacmConfig.query_none hnone]
    unfold handle
    dsimp only
    rw [hentry]
    rw [hup]
  | neighbor e =>
    cases hindex
    have hunseen : (w.ifaces e).ipa_index e.if_index = none := by
      have hiff := w.configured_ifaces e
      rw [iff_false_right hnot] at hiff
      simpa using hiff
    have hcallback : w.neighbor.event_callback (w.ifaces e) e = .ok (w.neighbor, []) := by
      unfold Fits at hfits
      cases e with
      | wlanClientAddEx if_index attribs stack memory =>
        unfold Neighbor.event_callback
        dsimp only at hfits ⊢
        cases hfind : w.neighbor.find (Neighbor.clientMacAddr attribs stack) with
        | none => rfl
        | some r => exact absurd (hfits (by simp [hfind])) hnot
      | newNeigh data memory | delNeigh data memory =>
        unfold NeighFits AddrFits at hfits
        change w.neighbor.neigh _ _ data memory = _
        unfold Neighbor.neigh
        have hunseen : (w.ifaces _).ipa_index data.if_index = none := hunseen
        simp only [hunseen] at hfits
        cases htype : data.iptype with
        | v4 =>
          rw [htype] at hfits
          dsimp only at hfits ⊢
          split
          · rfl
          · next hne =>
            obtain ⟨i, hi, -⟩ := hfits hne
            cases hi
        | v6 =>
          rw [htype] at hfits
          dsimp only at hfits
          split at hfits
          · obtain ⟨i, hi, -⟩ := hfits
            cases hi
          · cases hfits
    unfold handle
    dsimp only
    rw [hcallback, hsame]
    rfl

/-- **For every configuration and every event**: it is handled safely just if the condition
    holds. -/
theorem safe_iff (w : TableWorld) (e : TableEvent) : w.Safe e ↔ w.Fits e := by
  constructor
  · exact fun h => (handle_index_iff e).1 h.index
  · refine fun hfits => ⟨(handle_index_iff e).2 hfits, fun if_index hindex hnot => ?_⟩
    exact ⟨w, handle_unconfigured hindex hnot hfits, rfl, rfl⟩

/-- The name of an access point is not known to the kernel when its link comes up: the table is read
    at -1. -/
theorem not_safe_unknown_name :
    ¬ Safe { config := .start ConfigWorld.twoIfaces }
      (.linkUp .wlanAp (ipa_get_if_index true none 0).2 true) :=
  fun h => h.index rfl

end TableWorld

end Nx508j.Ipacm
