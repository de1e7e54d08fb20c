import Nx508j.Ipacm.WanRules
import Nx508j.Lib.Keyed

/-! # Neighbors

`IPACM_Neighbor` remembers the clients that the kernel tells it of: the interface that each was seen
at, and its IPv4 address. A client that connects again is posted with what is remembered of it. On
the bridge the kernel names the bridge as the interface, and the one that is remembered takes its
place. -/

namespace Nx508j.Ipacm

open Nx508j.Lib Function

/-! ## Events -/

/-- `ipacm_event_data_all` -/
structure NeighData where
  iptype : IpFamily
  if_index : Int
  ipv4_addr : BitVec 32
  ipv6_addr : BitVec 128
  mac_addr : BitVec 48
deriving DecidableEq, Repr

/-- `IPA_WLAN_CLIENT_ADD_EVENT_EX`, `IPA_NEW_NEIGH_EVENT` and `IPA_DEL_NEIGH_EVENT`, and whether
    there is memory for what is posted. The attributes of the first are the MAC addresses among
    them; without one the client is what was on the stack. -/
inductive NeighborEvent where
  | wlanClientAddEx (if_index : Int) (attribs : List (BitVec 48)) (stack : BitVec 48)
    (memory : Bool)
  | newNeigh (data : NeighData) (memory : Bool)
  | delNeigh (data : NeighData) (memory : Bool)
deriving DecidableEq, Repr

/-- `IPA_NEIGH_CLIENT_IP_ADDR_ADD_EVENT` and `IPA_NEIGH_CLIENT_IP_ADDR_DEL_EVENT` -/
inductive NeighborPost where
  | clientIpAddrAdd (data : NeighData)
  | clientIpAddrDel (data : NeighData)
deriving DecidableEq, Repr

/-- `ipa_neighbor_client` -/
structure NeighborClient where
  mac_addr : BitVec 48
  iface_index : Int
  v4_addr : BitVec 32
  ipa_if_num : Nat
deriving DecidableEq, Repr

/-- `IPA_MAX_NUM_NEIGHBOR_CLIENTS` -/
def ipaMaxNumNeighborClients : Nat := 17

/-- What is asked of the configuration: what `iface_ipa_index_query` returns for a Linux index (-1
    is none), and whether an entry has the name of the bridge. -/
structure NeighborIfaces where
  ipa_index : Int → Option Nat
  isBridge : Nat → Bool

/-- The entry of the interface table that is read after a query. -/
def NeighborIfaces.entry (x : NeighborIfaces) (if_index : Int) : Except Fault Nat :=
  match x.ipa_index if_index with
  | none => .error .outOfBounds
  | some ipa_interface_index => .ok ipa_interface_index

/-! ## The handler -/

/-- `IPACM_Neighbor`, whose array is its first `num_neighbor_client` records. -/
structure Neighbor where
  neighbor_client : List NeighborClient := []
deriving DecidableEq, Repr

namespace Neighbor

variable (x : NeighborIfaces) (n : Neighbor)

/-- The record of a client. -/
def find (mac_addr : BitVec 48) : Option NeighborClient :=
  record NeighborClient.mac_addr n.neighbor_client mac_addr

/-- Its record is changed. -/
def change (f : NeighborClient → NeighborClient) (mac_addr : BitVec 48) : Neighbor :=
  { n with neighbor_client := amend NeighborClient.mac_addr f mac_addr n.neighbor_client }

/-- A record is added, if there is room. -/
def append (r : NeighborClient) : Neighbor :=
  if n.neighbor_client.length < ipaMaxNumNeighborClients then
    { n with neighbor_client := n.neighbor_client ++ [r] }
  else n

/-- What is logged of an event that was posted. -/
def posted (p : NeighborPost) (if_index : Int) : Except Fault (Neighbor × List NeighborPost) := do
  let _ ← x.entry if_index
  .ok (n, [p])

/-- A client that is remembered is seen without an address: it is posted with the address that is
    remembered, unless the interface is another one. The posted data have no IPv6 address. -/
def reconnect (r : NeighborClient) (if_index : Int) (memory : Bool) :
    Except Fault (Neighbor × List NeighborPost) := do
  let ipa_interface_index ← x.entry if_index
  if x.isBridge ipa_interface_index then .ok (n, [])
  else
    let n := n.change (fun r => { r with iface_index := if_index }) r.mac_addr
    if ipa_interface_index ≠ r.ipa_if_num then .ok (n, [])
    else if r.v4_addr = 0 ∨ memory = false then .ok (n, [])
    else
      n.posted x (.clientIpAddrAdd
        { iptype := .v4, if_index, ipv4_addr := r.v4_addr, ipv6_addr := 0
          mac_addr := r.mac_addr }) if_index

/-- A neighbor event with an IPv4 address. `post` makes the event that is posted. -/
def addrV4 (post : NeighData → NeighborPost) (data : NeighData) (memory : Bool) :
    Except Fault (Neighbor × List NeighborPost) := do
  let ipa_interface_index ← x.entry data.if_index
  if x.isBridge ipa_interface_index then
    match n.find data.mac_addr with
    | none => .ok (n, [])
    | some r =>
      let n := n.change (fun r => { r with v4_addr := data.ipv4_addr }) data.mac_addr
      if memory = false then .ok (n, [])
      else n.posted x (post { data with if_index := r.iface_index }) r.iface_index
  else if memory = false then .ok (n, [])
  else
    match n.find data.mac_addr with
    | some _ =>
      .ok (n.change (fun r => { r with
        iface_index := data.if_index
        ipa_if_num := ipa_interface_index
        v4_addr := data.ipv4_addr }) data.mac_addr, [post data])
    | none =>
      .ok (n.append
        { mac_addr := data.mac_addr, iface_index := data.if_index, v4_addr := data.ipv4_addr
          ipa_if_num := ipa_interface_index }, [post data])

/-- A neighbor event with an IPv6 address. -/
def addrV6 (post : NeighData → NeighborPost) (data : NeighData) (memory : Bool) :
    Except Fault (Neighbor × List NeighborPost) := do
  let ipa_interface_index ← x.entry data.if_index
  if x.isBridge ipa_interface_index then
    match n.find data.mac_addr with
    | none => .ok (n, [])
    | some r =>
      if memory = false then .ok (n, [])
      else n.posted x (post { data with if_index := r.iface_index }) r.iface_index
  else if memory = false then .ok (n, [])
  else .ok (n, [post data])

/-- A neighbor event without an address. -/
def noAddr (data : NeighData) (memory : Bool) : Except Fault (Neighbor × List NeighborPost) :=
  match n.find data.mac_addr with
  | some r => n.reconnect x r data.if_index memory
  | none => do
      let ipa_interface_index ← x.entry data.if_index
      if x.isBridge ipa_interface_index then .ok (n, [])
      else
        .ok (n.append
          { mac_addr := data.mac_addr, iface_index := data.if_index, v4_addr := 0
            ipa_if_num := ipa_interface_index }, [])

/-- A neighbor event. -/
def neigh (post : NeighData → NeighborPost) (data : NeighData) (memory : Bool) :
    Except Fault (Neighbor × List NeighborPost) :=
  match data.iptype with
  | .v4 => if data.ipv4_addr = 0 then .ok (n, []) else n.addrV4 x post data memory
  | .v6 =>
    if data.ipv6_addr ≠ 0 then n.addrV6 x post data memory else n.noAddr x data memory

/-- The client of a `IPA_WLAN_CLIENT_ADD_EVENT_EX`: the last MAC address among the attributes. -/
def clientMacAddr (attribs : List (BitVec 48)) (stack : BitVec 48) : BitVec 48 :=
  attribs.getLast?.getD stack

/-- `event_callback`, and what it posts. -/
def event_callback : NeighborEvent → Except Fault (Neighbor × List NeighborPost)
  | .wlanClientAddEx if_index attribs stack memory =>
    match n.find (clientMacAddr attribs stack) with
    | none => .ok (n, [])
    | some r => n.reconnect x r if_index memory
  | .newNeigh data memory => n.neigh x .clientIpAddrAdd data memory
  | .delNeigh data memory => n.neigh x .clientIpAddrDel data memory

end Neighbor

/-! ## What was announced -/

/-- The IPv4 address of each client that was announced last and not deleted since, or 0. -/
def NeighborEvent.announce (f : BitVec 48 → BitVec 32) : NeighborEvent → BitVec 48 → BitVec 32
  | .newNeigh data _ =>
    if data.iptype = .v4 ∧ data.ipv4_addr ≠ 0 then
      update f data.mac_addr data.ipv4_addr
    else f
  | .delNeigh data _ =>
    if data.iptype = .v4 ∧ data.ipv4_addr = f data.mac_addr then
      update f data.mac_addr 0
    else f
  | .wlanClientAddEx .. => f

/-- The records with what was announced. -/
structure NeighborRun where
  neighbor : Neighbor := {}
  announced : BitVec 48 → BitVec 32 := fun _ => 0

def NeighborRun.step (x : NeighborIfaces) (s : NeighborRun) (e : NeighborEvent) :
    Except Fault (NeighborRun × List NeighborPost) := do
  let (neighbor, posts) ← s.neighbor.event_callback x e
  .ok ({ neighbor, announced := e.announce s.announced }, posts)

/-! ## The property -/

/-- A record tells the interface of its Linux index, not the bridge, and the address that was
    announced. -/
structure NeighborClient.Right (x : NeighborIfaces) (announced : BitVec 48 → BitVec 32)
    (r : NeighborClient) : Prop where
  iface : x.ipa_index r.iface_index = some r.ipa_if_num
  bridge : x.isBridge r.ipa_if_num = false
  addr : r.v4_addr = announced r.mac_addr

/-- **The records are right**: one for a client, no more than there is room for, and each right. -/
structure NeighborRun.Recorded (x : NeighborIfaces) (s : NeighborRun) : Prop where
  macs : (s.neighbor.neighbor_client.map NeighborClient.mac_addr).Nodup
  room : s.neighbor.neighbor_client.length ≤ ipaMaxNumNeighborClients
  right : ∀ r ∈ s.neighbor.neighbor_client, r.Right x s.announced

/-- **An address that is posted is right**: an IPv4 address is announced, an IPv6 address is that of
    the event, and the interface is that of the record of the client, or that of the event, which is
    not the bridge then. -/
structure NeighborRun.Posts (x : NeighborIfaces) (s : NeighborRun) (e : NeighborEvent)
    (p : NeighData) : Prop where
  v4 : p.iptype = .v4 → p.ipv4_addr ≠ 0 ∧ p.ipv4_addr = s.announced p.mac_addr
  v6 : p.iptype = .v6 → ∃ data memory, e = .newNeigh data memory ∧
    p.ipv6_addr = data.ipv6_addr ∧ p.mac_addr = data.mac_addr
  iface : (∃ r ∈ s.neighbor.neighbor_client, r.mac_addr = p.mac_addr ∧ r.iface_index = p.if_index) ∨
    ∃ data memory i, e = .newNeigh data memory ∧ p.if_index = data.if_index ∧
      x.ipa_index data.if_index = some i ∧ x.isBridge i = false

/-! ## The condition -/

namespace NeighborRun

variable (x : NeighborIfaces) (s : NeighborRun)

/-- A client that is remembered is seen at the interface that is remembered, or at the bridge. -/
def SameIface (mac_addr : BitVec 48) (if_index : Int) : Prop :=
  ∀ r, s.neighbor.find mac_addr = some r → ∀ i, x.ipa_index if_index = some i →
    x.isBridge i = false → i = r.ipa_if_num

/-- What is asked of a neighbor event without an address. -/
def SeenWithout (data : NeighData) : Prop :=
  s.SameIface x data.mac_addr data.if_index ∧
    (s.neighbor.find data.mac_addr = none →
      s.neighbor.neighbor_client.length < ipaMaxNumNeighborClients →
        ∀ i, x.ipa_index data.if_index = some i → x.isBridge i = false →
          s.announced data.mac_addr = 0)

/-- **The condition** on an event: a client that is remembered is not seen at another interface
    without an address, a client that is not yet remembered is not seen without its address, there
    is memory where an address is announced, and no IPv4 address is deleted of a client that is
    remembered or will be. -/
def Fits : NeighborEvent → Prop
  | .wlanClientAddEx if_index attribs stack _ =>
    s.SameIface x (Neighbor.clientMacAddr attribs stack) if_index
  | .newNeigh data memory =>
    match data.iptype with
    | .v4 => data.ipv4_addr ≠ 0 → ∀ i, x.ipa_index data.if_index = some i →
        x.isBridge i = false → memory = false →
          ∀ r, s.neighbor.find data.mac_addr = some r → r.v4_addr = data.ipv4_addr
    | .v6 => data.ipv6_addr = 0 → s.SeenWithout x data
  | .delNeigh data memory =>
    match data.iptype with
    | .v4 => data.ipv4_addr ≠ 0 → ∀ i, x.ipa_index data.if_index = some i →
        if x.isBridge i then s.neighbor.find data.mac_addr = none
        else if memory then s.neighbor.find data.mac_addr = none ∧
          s.neighbor.neighbor_client.length = ipaMaxNumNeighborClients
        else ∀ r, s.neighbor.find data.mac_addr = some r → r.v4_addr ≠ data.ipv4_addr
    | .v6 => data.ipv6_addr = 0 → s.SeenWithout x data

end NeighborRun

/-! ## The records -/

namespace NeighborRun

variable {x : NeighborIfaces} {n : Neighbor} {a a' : BitVec 48 → BitVec 32} {mac : BitVec 48}
  {r : NeighborClient} {if_index : Int}

theorem Recorded.of_other (h : Recorded x ⟨n, a⟩) (hfind : n.find mac = none)
    (hother : ∀ m, m ≠ mac → a' m = a m) : Recorded x ⟨n, a'⟩ := by
  refine ⟨h.macs, h.room, fun q hq => ?_⟩
  have hne : q.mac_addr ≠ mac := by
    rintro rfl
    exact record_eq_none.1 hfind (List.mem_map_of_mem hq)
  obtain ⟨hiface, hbridge, haddr⟩ := h.right q hq
  exact ⟨hiface, hbridge, haddr.trans (hother _ hne).symm⟩

theorem Recorded.change (h : Recorded x ⟨n, a⟩) {f : NeighborClient → NeighborClient}
    (hf : ∀ q, (f q).mac_addr = q.mac_addr) (hfind : n.find mac = some r)
    (hright : (f r).Right x a') (hother : ∀ m, m ≠ mac → a' m = a m) :
    Recorded x ⟨n.change f mac, a'⟩ := by
  have hmap : (n.change f mac).neighbor_client.map NeighborClient.mac_addr =
      n.neighbor_client.map NeighborClient.mac_addr := map_key_amend hf mac _
  have hnodup : ((n.change f mac).neighbor_client.map NeighborClient.mac_addr).Nodup := by
    rw [hmap]
    exact h.macs
  have hlen := congrArg List.length hmap
  rw [List.length_map, List.length_map] at hlen
  refine ⟨hnodup, hlen.trans_le h.room, fun q hq => ?_⟩
  have hrecord := record_of_mem hnodup hq
  change record NeighborClient.mac_addr (amend _ _ _ _) _ = _ at hrecord
  rw [record_amend hf] at hrecord
  by_cases hmac : q.mac_addr = mac
  · have hfound : record NeighborClient.mac_addr n.neighbor_client mac = some r := hfind
    rw [if_pos hmac, hfound] at hrecord
    cases hrecord
    exact hright
  · rw [if_neg hmac] at hrecord
    obtain ⟨hiface, hbridge, haddr⟩ := h.right q (mem_of_record hrecord)
    exact ⟨hiface, hbridge, haddr.trans (hother _ hmac).symm⟩

theorem Recorded.append (h : Recorded x ⟨n, a⟩) (hfind : n.find r.mac_addr = none)
    (hright : n.neighbor_client.length < ipaMaxNumNeighborClients → r.Right x a')
    (hother : ∀ m, m ≠ r.mac_addr → a' m = a m) : Recorded x ⟨n.append r, a'⟩ := by
  have hsame := h.of_other hfind hother
  unfold Neighbor.append
  split
  · next hroom =>
    refine ⟨?_, ?_, fun q hq => ?_⟩
    · change ((n.neighbor_client ++ [r]).map NeighborClient.mac_addr).Nodup
      rw [List.map_append, List.nodup_append]
      refine ⟨h.macs, List.nodup_singleton _, fun m hm m' hm' => ?_⟩
      rw [List.map_singleton, List.mem_singleton] at hm'
      rintro rfl
      exact record_eq_none.1 hfind (hm' ▸ hm)
    · change (n.neighbor_client ++ [r]).length ≤ _
      rw [List.length_append, List.length_singleton]
      exact hroom
    · rcases List.mem_append.1 hq with hq | hq
      · exact hsame.right q hq
      · obtain rfl := List.mem_singleton.1 hq
        exact hright hroom
  · exact hsame

/-! ## The handlers -/

theorem entry_eq_ok {i : Nat} (h : x.entry if_index = .ok i) : x.ipa_index if_index = some i := by
  unfold NeighborIfaces.entry at h
  cases hindex : x.ipa_index if_index with
  | none =>
    rw [hindex] at h
    cases h
  | some j =>
    rw [hindex] at h
    exact congrArg some (Except.ok.inj h)

variable {posts : List NeighborPost} {n' : Neighbor}

theorem posted_eq_ok {p : NeighborPost}
    (h : n.posted x p if_index = .ok (n', posts)) : n' = n ∧ posts = [p] := by
  obtain ⟨i, -, h⟩ := bind_eq_ok h
  cases h
  exact ⟨rfl, rfl⟩

theorem find_mac (h : n.find mac = some r) : r.mac_addr = mac := key_of_record h

theorem find_mem (h : n.find mac = some r) : r ∈ n.neighbor_client := mem_of_record h

theorem find_change {f : NeighborClient → NeighborClient}
    (hf : ∀ q, (f q).mac_addr = q.mac_addr) (h : n.find mac = some r) :
    (n.change f mac).find mac = some (f r) := by
  have hrecord := record_amend hf mac mac n.neighbor_client
  rw [if_pos rfl, show record NeighborClient.mac_addr n.neighbor_client mac = some r from h]
    at hrecord
  exact hrecord

/-- What a handler leaves and posts is right. -/
structure Handled (x : NeighborIfaces) (e : NeighborEvent) (s : NeighborRun)
    (posts : List NeighborPost) : Prop where
  recorded : s.Recorded x
  posts : ∀ p, .clientIpAddrAdd p ∈ posts → s.Posts x e p

variable {e : NeighborEvent}

theorem Handled.silent {s : NeighborRun} (h : s.Recorded x) :
    Handled x e s [] := ⟨h, fun p hp => by cases hp⟩

variable {memory : Bool}

theorem Recorded.reconnect (h : Recorded x ⟨n, a⟩) (hfind : n.find mac = some r)
    (hsame : ∀ i, x.ipa_index if_index = some i → x.isBridge i = false → i = r.ipa_if_num)
    (hok : n.reconnect x r if_index memory = .ok (n', posts)) : Handled x e ⟨n', a⟩ posts := by
  obtain ⟨i, hentry, hok⟩ := bind_eq_ok hok
  have hindex := entry_eq_ok hentry
  split at hok
  · cases hok
    exact .silent h
  next hbridge =>
  have hbridge : x.isBridge i = false := by simpa using hbridge
  have hi := hsame i hindex hbridge
  have hmac := find_mac hfind
  have hright := h.right r (find_mem hfind)
  have hrecorded : Recorded x
      ⟨n.change (fun r => { r with iface_index := if_index }) r.mac_addr, a⟩ := by
    rw [hmac]
    refine h.change (fun q => rfl) hfind ?_ fun m _ => rfl
    exact ⟨hindex.trans (congrArg some hi), hright.bridge, hright.addr⟩
  rw [if_neg (not_not.2 hi)] at hok
  split at hok
  · cases hok
    exact .silent hrecorded
  next haddr =>
  obtain ⟨rfl, rfl⟩ := posted_eq_ok hok
  refine ⟨hrecorded, fun p hp => ?_⟩
  obtain rfl : p = _ := NeighborPost.clientIpAddrAdd.inj (List.mem_singleton.1 hp)
  refine ⟨fun _ => ⟨(not_or.1 haddr).1, hright.addr⟩, (fun hv6 => by cases hv6), .inl ?_⟩
  rw [← hmac] at hfind
  have hchanged := find_change (f := fun r => { r with iface_index := if_index })
    (fun q => rfl) hfind
  exact ⟨_, find_mem hchanged, rfl, rfl⟩

variable {data : NeighData}

theorem Recorded.noAddr (h : Recorded x ⟨n, a⟩) (hseen : NeighborRun.SeenWithout x ⟨n, a⟩ data)
    (hok : n.noAddr x data memory = .ok (n', posts)) : Handled x e ⟨n', a⟩ posts := by
  unfold Neighbor.noAddr at hok
  split at hok
  · next r hfind => exact h.reconnect hfind (hseen.1 r hfind) hok
  · next hfind =>
    obtain ⟨i, hentry, hok⟩ := bind_eq_ok hok
    have hindex := entry_eq_ok hentry
    split at hok
    · cases hok
      exact .silent h
    · next hbridge =>
      have hbridge : x.isBridge i = false := by simpa using hbridge
      cases hok
      exact .silent (h.append hfind
        (fun hroom => ⟨hindex, hbridge, (hseen.2 hfind hroom i hindex hbridge).symm⟩)
        fun m _ => rfl)

theorem Recorded.addrV6 (h : Recorded x ⟨n, a⟩) {post : NeighData → NeighborPost}
    (hv6 : data.iptype = .v6)
    (hpost : ∀ d d', post d = .clientIpAddrAdd d' → d' = d ∧ e = .newNeigh data memory)
    (hok : n.addrV6 x post data memory = .ok (n', posts)) : Handled x e ⟨n', a⟩ posts := by
  obtain ⟨i, hentry, hok⟩ := bind_eq_ok hok
  have hindex := entry_eq_ok hentry
  split at hok
  · split at hok
    · cases hok
      exact .silent h
    next r hfind =>
    split at hok
    · cases hok
      exact .silent h
    obtain ⟨rfl, rfl⟩ := posted_eq_ok hok
    refine ⟨h, fun p hp => ?_⟩
    obtain ⟨rfl, hnew⟩ := hpost _ _ (List.mem_singleton.1 hp).symm
    refine ⟨fun hv4 => ?_, fun _ => ⟨data, memory, hnew, rfl, rfl⟩,
      .inl ⟨r, find_mem hfind, find_mac hfind, rfl⟩⟩
    exact absurd (hv6.symm.trans hv4) (by decide)
  next hbridge =>
  have hbridge : x.isBridge i = false := by simpa using hbridge
  split at hok
  · cases hok
    exact .silent h
  cases hok
  refine ⟨h, fun p hp => ?_⟩
  obtain ⟨rfl, hnew⟩ := hpost _ _ (List.mem_singleton.1 hp).symm
  refine ⟨fun hv4 => ?_, fun _ => ⟨p, memory, hnew, rfl, rfl⟩,
    .inr ⟨p, memory, i, hnew, rfl, hindex, hbridge⟩⟩
  exact absurd (hv6.symm.trans hv4) (by decide)

/-- An IPv4 address is announced. -/
theorem Recorded.announce (h : Recorded x ⟨n, a⟩) (hv4 : data.iptype = .v4)
    (hne : data.ipv4_addr ≠ 0)
    (hmemory : ∀ i, x.ipa_index data.if_index = some i → x.isBridge i = false → memory = false →
      ∀ r, n.find data.mac_addr = some r → r.v4_addr = data.ipv4_addr)
    (hok : n.addrV4 x .clientIpAddrAdd data memory = .ok (n', posts)) :
    Handled x (.newNeigh data memory)
      ⟨n', update a data.mac_addr data.ipv4_addr⟩ posts := by
  have hother : ∀ m, m ≠ data.mac_addr →
      update a data.mac_addr data.ipv4_addr m = a m :=
    fun m hm => update_of_ne hm ..
  have hself : update a data.mac_addr data.ipv4_addr data.mac_addr = data.ipv4_addr :=
    update_self ..
  obtain ⟨i, hentry, hok⟩ := bind_eq_ok hok
  have hindex := entry_eq_ok hentry
  split at hok
  · -- at the bridge only the address of a client that is remembered changes
    split at hok
    · next hfind =>
      cases hok
      exact .silent (h.of_other hfind hother)
    next r hfind =>
    have hright := h.right r (find_mem hfind)
    have hmac := find_mac hfind
    have hchanged : NeighborRun.Recorded x
        ⟨n.change (fun r => { r with v4_addr := data.ipv4_addr }) data.mac_addr,
          update a data.mac_addr data.ipv4_addr⟩ :=
      h.change (fun q => rfl) hfind
        ⟨hright.iface, hright.bridge, by dsimp only; rw [hmac, hself]⟩ hother
    split at hok
    · cases hok
      exact .silent hchanged
    obtain ⟨rfl, rfl⟩ := posted_eq_ok hok
    refine ⟨hchanged, fun p hp => ?_⟩
    obtain rfl : p = _ := NeighborPost.clientIpAddrAdd.inj (List.mem_singleton.1 hp)
    refine ⟨fun _ => ⟨hne, hself.symm⟩, fun hv6 => ?_, .inl ?_⟩
    · exact absurd (hv4.symm.trans hv6) (by decide)
    have hfind' := find_change (f := fun r => { r with v4_addr := data.ipv4_addr })
      (fun q => rfl) hfind
    exact ⟨_, find_mem hfind', hmac, rfl⟩
  next hbridge =>
  have hbridge : x.isBridge i = false := by simpa using hbridge
  split at hok
  · next hmem =>
    cases hok
    cases hfind : n.find data.mac_addr with
    | none => exact .silent (h.of_other hfind hother)
    | some r =>
      -- the address that is remembered is the one that is announced again
      have haddr := hmemory i hindex hbridge hmem r hfind
      have hr := (h.right r (find_mem hfind)).addr
      rw [find_mac hfind, haddr] at hr
      rw [hr, update_eq_self]
      exact .silent h
  have hposts : ∀ n'' : Neighbor, ∀ p,
      NeighborPost.clientIpAddrAdd p ∈ [NeighborPost.clientIpAddrAdd data] →
        NeighborRun.Posts x ⟨n'', update a data.mac_addr data.ipv4_addr⟩
          (.newNeigh data memory) p := by
    intro n'' p hp
    obtain rfl : p = _ := NeighborPost.clientIpAddrAdd.inj (List.mem_singleton.1 hp)
    refine ⟨fun _ => ⟨hne, hself.symm⟩, fun hv6 => ?_,
      .inr ⟨p, memory, i, rfl, rfl, hindex, hbridge⟩⟩
    exact absurd (hv4.symm.trans hv6) (by decide)
  split at hok
  · next r hfind =>
    cases hok
    refine ⟨h.change (fun q => rfl) hfind ⟨hindex, hbridge, ?_⟩ hother, hposts _⟩
    rw [find_mac hfind, hself]
  · next hfind =>
    cases hok
    exact ⟨h.append hfind (fun _ => ⟨hindex, hbridge, hself.symm⟩) hother, hposts _⟩

theorem Recorded.unannounce (h : Recorded x ⟨n, a⟩)
    (hfits : ∀ i, x.ipa_index data.if_index = some i →
      if x.isBridge i then n.find data.mac_addr = none
      else if memory then n.find data.mac_addr = none ∧
        n.neighbor_client.length = ipaMaxNumNeighborClients
      else ∀ r, n.find data.mac_addr = some r → r.v4_addr ≠ data.ipv4_addr)
    (hok : n.addrV4 x .clientIpAddrDel data memory = .ok (n', posts)) :
    Handled x (.delNeigh data memory) ⟨n', (NeighborEvent.delNeigh data memory).announce a⟩
      posts := by
  have hother : ∀ m, m ≠ data.mac_addr →
      (NeighborEvent.delNeigh data memory).announce a m = a m := by
    intro m hm
    unfold NeighborEvent.announce
    dsimp only
    split
    · exact update_of_ne hm ..
    · rfl
  obtain ⟨i, hentry, hok⟩ := bind_eq_ok hok
  have hfits := hfits i (entry_eq_ok hentry)
  split at hok
  · next hbridge =>
    rw [if_pos hbridge] at hfits
    rw [hfits] at hok
    cases hok
    exact .silent (h.of_other hfits hother)
  next hbridge =>
  rw [if_neg hbridge] at hfits
  split at hok
  · next hmem =>
    rw [if_neg (by simp [hmem])] at hfits
    cases hok
    cases hfind : n.find data.mac_addr with
    | none => exact .silent (h.of_other hfind hother)
    | some r =>
      have hne := hfits r hfind
      have hr := (h.right r (find_mem hfind)).addr
      rw [find_mac hfind] at hr
      have hsame : (NeighborEvent.delNeigh data memory).announce a = a :=
        if_neg fun hand => hne (hr.trans hand.2.symm)
      rw [hsame]
      exact .silent h
  · next hmem =>
    rw [if_pos (by simpa using hmem)] at hfits
    obtain ⟨hfind, hfull⟩ := hfits
    rw [hfind] at hok
    cases hok
    refine ⟨h.append hfind (fun hroom => absurd hfull hroom.ne) hother, fun p hp => ?_⟩
    cases List.mem_singleton.1 hp

/-- **Step lemma.** -/
theorem Recorded.step {s s' : NeighborRun} (h : s.Recorded x) (hfits : s.Fits x e)
    (hstep : s.step x e = .ok (s', posts)) : Handled x e s' posts := by
  obtain ⟨⟨n', posts'⟩, hcallback, hstep⟩ := bind_eq_ok hstep
  obtain ⟨rfl, rfl⟩ := ok_pair hstep
  obtain ⟨n, a⟩ := s
  cases e with
  | wlanClientAddEx if_index attribs stack memory =>
    unfold Neighbor.event_callback at hcallback
    dsimp only at hcallback
    split at hcallback
    · obtain ⟨rfl, rfl⟩ := ok_pair hcallback
      exact .silent h
    · next r hfind => exact h.reconnect hfind (hfits r hfind) hcallback
  | newNeigh data memory =>
    have hcallback : n.neigh x .clientIpAddrAdd data memory = .ok (n', posts') := hcallback
    unfold Fits at hfits
    dsimp only at hfits
    unfold Neighbor.neigh at hcallback
    cases htype : data.iptype with
    | v4 =>
      rw [htype] at hcallback hfits
      dsimp only at hcallback hfits ⊢
      unfold NeighborEvent.announce
      dsimp only
      split at hcallback
      · next haddr =>
        obtain ⟨rfl, rfl⟩ := ok_pair hcallback
        rw [if_neg fun hand => hand.2 haddr]
        exact .silent h
      · next haddr =>
        rw [if_pos ⟨htype, haddr⟩]
        exact h.announce htype haddr (hfits haddr) hcallback
    | v6 =>
      have hsame : (NeighborEvent.newNeigh data memory).announce a = a :=
        if_neg fun hand => absurd (htype.symm.trans hand.1) (by decide)
      rw [htype] at hcallback hfits
      dsimp only at hcallback hfits ⊢
      rw [hsame]
      split at hcallback
      · exact h.addrV6 htype (fun d d' heq =>
          ⟨(NeighborPost.clientIpAddrAdd.inj heq).symm, rfl⟩) hcallback
      · next haddr => exact h.noAddr (hfits (not_not.1 haddr)) hcallback
  | delNeigh data memory =>
    have hcallback : n.neigh x .clientIpAddrDel data memory = .ok (n', posts') := hcallback
    unfold Fits at hfits
    dsimp only at hfits
    unfold Neighbor.neigh at hcallback
    cases htype : data.iptype with
    | v4 =>
      rw [htype] at hcallback hfits
      dsimp only at hcallback hfits ⊢
      split at hcallback
      · next haddr =>
        obtain ⟨rfl, rfl⟩ := ok_pair hcallback
        have hsame : (NeighborEvent.delNeigh data memory).announce a = a := by
          unfold NeighborEvent.announce
          dsimp only
          split
          · next hand =>
            rw [← haddr, hand.2, update_eq_self]
          · rfl
        rw [hsame]
        exact .silent h
      · next haddr => exact h.unannounce (hfits haddr) hcallback
    | v6 =>
      have hsame : (NeighborEvent.delNeigh data memory).announce a = a :=
        if_neg fun hand => absurd (htype.symm.trans hand.1) (by decide)
      rw [htype] at hcallback hfits
      dsimp only at hcallback hfits ⊢
      rw [hsame]
      split at hcallback
      · exact h.addrV6 htype (fun d d' heq => by cases heq) hcallback
      · next haddr => exact h.noAddr (hfits (not_not.1 haddr)) hcallback

end NeighborRun

/-! ## Runs -/

/-- **Every run.** If each event meets the condition, the records are right, and so is each address
    that is posted. -/
theorem run_neighbors (x : NeighborIfaces) {tr : List (NeighborEvent × List NeighborPost)}
    {s : NeighborRun} (run : Run (NeighborRun.step x) (NeighborRun.Fits x) {} tr s) :
    s.Recorded x ∧ ∀ e s' posts, s.Fits x e → s.step x e = .ok (s', posts) →
      ∀ p, .clientIpAddrAdd p ∈ posts → s'.Posts x e p := by
  have hstart : NeighborRun.Recorded x {} :=
    ⟨List.nodup_nil, Nat.zero_le _, fun r hr => by cases hr⟩
  have hrecorded : s.Recorded x := run.invariant (fun _ s => s.Recorded x) hstart
    fun _ s e s' posts h hfits hstep => (h.step hfits hstep).recorded
  exact ⟨hrecorded, fun e s' posts hfits hstep => (hrecorded.step hfits hstep).posts⟩

/-- The interface of index 5, and the bridge of index 7. -/
def wlanAndBridge : NeighborIfaces where
  ipa_index if_index := if if_index = 5 then some 0 else if if_index = 7 then some 1 else none
  isBridge i := decide (i = 1)

/-- A client with an IPv4 address. -/
def clientAt (if_index : Int) (ipv4_addr : BitVec 32) : NeighData where
  iptype := .v4
  if_index
  ipv4_addr
  ipv6_addr := 0
  mac_addr := 0xA

/-- A client gets an address, and another one at the bridge. When it connects again it is posted
    with the latter. -/
theorem run_neighbors_bridge : ∃ tr s,
    Run (NeighborRun.step wlanAndBridge) (NeighborRun.Fits wlanAndBridge) {} tr s ∧
      s.neighbor.neighbor_client = [⟨0xA, 5, 0xC0A80003, 0⟩] ∧ s.Recorded wlanAndBridge ∧
      ∃ s' p, s.step wlanAndBridge (.wlanClientAddEx 5 [0xA] 0 true) =
        .ok (s', [.clientIpAddrAdd p]) ∧
          s'.Posts wlanAndBridge (.wlanClientAddEx 5 [0xA] 0 true) p := by
  have start : Run (NeighborRun.step wlanAndBridge) (NeighborRun.Fits wlanAndBridge) {} [] {} :=
    .nil
  have run := (start.snoc
      (show NeighborRun.step _ _ (.newNeigh (clientAt 5 0xC0A80002) true) = .ok (_, _) from rfl)
      fun _ _ _ _ hmemory => by cases hmemory).snoc
        (show NeighborRun.step _ _ (.newNeigh (clientAt 7 0xC0A80003) true) = .ok (_, _) from rfl)
        fun _ _ _ _ hmemory => by cases hmemory
  obtain ⟨hrecorded, hposts⟩ := run_neighbors wlanAndBridge run
  refine ⟨_, _, run, rfl, hrecorded, _, _, rfl, ?_⟩
  refine hposts (.wlanClientAddEx 5 [0xA] 0 true) _ _ ?_ rfl _ (List.mem_singleton.2 rfl)
  intro r hr i hi _
  cases hr
  exact (Option.some.inj hi).symm

/-- The address of a client is deleted, and is remembered: when the client connects again it is
    posted. -/
theorem deleted_address_posted : ∃ tr s,
    Run (NeighborRun.step wlanAndBridge) (fun _ _ => True) {} tr s ∧
      tr.map Prod.fst = [.newNeigh (clientAt 5 0xC0A80002) true,
        .delNeigh (clientAt 5 0xC0A80002) true] ∧
      s.announced 0xA = 0 ∧ ¬ s.Recorded wlanAndBridge ∧
      ∃ s', s.step wlanAndBridge (.wlanClientAddEx 5 [0xA] 0 true) =
        .ok (s', [.clientIpAddrAdd (clientAt 5 0xC0A80002)]) := by
  have start : Run (NeighborRun.step wlanAndBridge) (fun _ _ => True) {} [] {} := .nil
  have run := (start.snoc
      (show NeighborRun.step _ _ (.newNeigh (clientAt 5 0xC0A80002) true) = .ok (_, _) from rfl)
      trivial).snoc
        (show NeighborRun.step _ _ (.delNeigh (clientAt 5 0xC0A80002) true) = .ok (_, _) from rfl)
        trivial
  refine ⟨_, _, run, rfl, rfl, fun h => ?_, _, rfl⟩
  exact absurd (h.right _ List.mem_cons_self).addr (by decide)

end Nx508j.Ipacm
