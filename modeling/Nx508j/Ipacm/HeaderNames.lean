import Mathlib.Data.List.Flatten
import Nx508j.Ipacm.EthClients

/-! # The names of the headers of clients

`IPACM_Lan`, `IPACM_Wlan` and, in STA mode, `IPACM_Wan` name the headers of a client by the number
of the interface, a string for the class and the IP version, and a count of the clients that have
come. Each number is printed to a buffer of two bytes, so that only its first digit is in the name.

Of a client there is its MAC address and, for the statements, what its headers were named. The rest
of the headers, the routing rules and the addresses are left out: whether they are deleted when a
client goes comes from outside. -/

namespace Nx508j.Ipacm.HdrNames

open Nx508j.Lib EthClients Function
open Lan2Lan (IpType Mac ipaResourceNameMax)

/-! ## Attaching and detaching -/

/-- The classes of interfaces whose clients have headers. -/
inductive ClientKind where
  | lan
  | wlan
  | staWan
deriving DecidableEq, Repr

/-- `IPA_ETH_HDR_NAME_v4`, `IPA_WLAN_PARTIAL_HDR_NAME_v4`, `IPA_WAN_PARTIAL_HDR_NAME_v4` and those
    for v6. -/
def ClientKind.hdrTag : ClientKind → IpType → String
  | .lan, .v4 => "IPACM_ETH_v4"
  | .lan, .v6 => "IPACM_ETH_v6"
  | .wlan, .v4 => "IEEE802_3_v4"
  | .wlan, .v6 => "IEEE802_3_v6"
  | .staWan, .v4 => "IEEE802_3_STA_v4"
  | .staWan, .v6 => "IEEE802_3_STA_v6"

/-- `IPA_MAX_NUM_WIFI_CLIENTS` -/
def maxNumWifiClients : Nat := 32

/-- `IPA_MAX_NUM_WAN_CLIENTS` -/
def maxNumWanClients : Nat := 10

/-- What an interface has. -/
structure HdrIface where
  kind : ClientKind
  ipaIfNum : Nat
  txProp : Option (List TxProp)
  hdrMaxSize : Nat

/-- `num_tx_props` and the properties. -/
def HdrIface.tx (iface : HdrIface) : List TxProp := iface.txProp.getD []

/-- What `calloc` and the driver answer: the length of a header that is copied, and whether one is
    added. -/
structure HdrAnswers where
  calloc : Bool
  copyHeader : String → Option Nat
  addHeader : String → Bool

/-- A client that is attached: the names that were passed to `AddHeader`, and the
    `header_name_count` at that time. -/
structure NamedClient where
  mac : Mac
  names : List String
  nameCount : Nat
deriving DecidableEq, Repr

/-- The clients of an interface, in the order of the array, and `header_name_count`. -/
structure NamedTable where
  clients : List NamedClient
  headerNameCount : Nat
deriving DecidableEq, Repr

namespace NamedTable

/-- The constructor. -/
def init : NamedTable := ⟨[], 0⟩

variable (iface : HdrIface) (a : HdrAnswers) (s : NamedTable) (macAddr : Mac)

/-- There is a client with a MAC address. -/
def Knows : Prop := ∃ c ∈ s.clients, c.mac = macAddr

instance instDecidableKnows : Decidable (s.Knows macAddr) :=
  inferInstanceAs (Decidable (∃ c ∈ s.clients, c.mac = macAddr))

end NamedTable

section Init

variable (iface : HdrIface) (a : HdrAnswers) (s : NamedTable) (macAddr : Mac)

/-- The name of a header. -/
def hdrName (headerNameCount : Nat) (t : IpType) : String :=
  index iface.ipaIfNum ++ iface.kind.hdrTag t ++ index headerNameCount

/-- The header of a version, for the first TX property that has it, where there is one: the name
    that is passed to `AddHeader`. `none` is a failure. -/
def addHdr (headerNameCount : Nat) (t : IpType) : Option (Option String) :=
  match iface.tx.find? fun tx => tx.ip = t with
  | none => some none
  | some tx =>
    match a.copyHeader tx.hdrName with
    | none => none
    | some hdrLen =>
      let name := hdrName iface headerNameCount t
      if iface.hdrMaxSize < hdrLen then none
      else if ipaResourceNameMax < name.length then none
      else if a.addHeader name then some (some name)
      else none

/-- What the three functions do for a client that there is room for. Where no client comes of it,
    there is the result only. -/
def addClient : Except Bool NamedTable :=
  if iface.txProp = none then .error true
  else if a.calloc = false then .error false
  else
    match addHdr iface a s.headerNameCount .v4 with
    | none => .error false
    | some name4 =>
      match addHdr iface a s.headerNameCount .v6 with
      | none => .error false
      | some name6 =>
        .ok
          { clients := s.clients ++ [⟨macAddr, name4.toList ++ name6.toList, s.headerNameCount⟩]
            headerNameCount := s.headerNameCount + 1 }

/-- `IPACM_Lan::handle_eth_hdr_init` -/
def handleEthHdrInit : Except Bool NamedTable :=
  if s.Knows macAddr then .error false
  else if maxNumEthClients ≤ s.clients.length then .error false
  else addClient iface a s macAddr

/-- `IPACM_Wlan::handle_wlan_client_init_ex`, which does not look for the MAC address. The address
    is the one that the entry has afterwards. -/
def handleWlanClientInitEx (totalNumWifiClients : Nat) : Except Bool NamedTable :=
  if maxNumWifiClients ≤ s.clients.length ∨ maxNumWifiClients ≤ totalNumWifiClients then
    .error false
  else addClient iface a s macAddr

/-- `IPACM_Wan::handle_wan_hdr_init` -/
def handleWanHdrInit : Except Bool NamedTable :=
  if s.Knows macAddr then .error false
  else if maxNumWanClients ≤ s.clients.length then .error false
  else addClient iface a s macAddr

/-- `handle_eth_client_down_evt` and `handle_wlan_client_down_evt`. The others move down, and
    `header_name_count` stays. -/
def handleClientDownEvt (deleted : Bool) : Except Bool NamedTable :=
  if s.Knows macAddr then
    if deleted then .ok { s with clients := discard NamedClient.mac s.clients macAddr }
    else .error false
  else .error true

end Init

/-! ## The interfaces together -/

/-- The interfaces by their numbers, and `IPACM_Wlan::total_num_wifi_clients`. -/
structure HdrWorld where
  table : Nat → NamedTable
  totalNumWifiClients : Nat

/-- What happens at an interface: a client comes, a client goes, or the interface goes down, after
    which there is a new object for it. -/
inductive HdrEvent where
  | attach (ipaIfNum : Nat) (a : HdrAnswers) (macAddr : Mac)
  | detach (ipaIfNum : Nat) (macAddr : Mac) (deleted : Bool)
  | linkDown (ipaIfNum : Nat)

namespace HdrWorld

def init : HdrWorld := ⟨fun _ => .init, 0⟩

variable (w : HdrWorld)

/-- The interface has the table now. Of the clients of WLAN interfaces the total is counted. -/
def set (iface : HdrIface) (s : NamedTable) : HdrWorld where
  table := update w.table iface.ipaIfNum s
  totalNumWifiClients :=
    if iface.kind = .wlan then
      w.totalNumWifiClients + s.clients.length - (w.table iface.ipaIfNum).clients.length
    else w.totalNumWifiClients

/-- The result of a handler. -/
def setOk (iface : HdrIface) : Except Bool NamedTable → HdrWorld × Bool
  | .error res => (w, res)
  | .ok s => (w.set iface s, true)

/-- A client comes. -/
def attach (iface : HdrIface) (a : HdrAnswers) (macAddr : Mac) : Except Bool NamedTable :=
  match iface.kind with
  | .lan => handleEthHdrInit iface a (w.table iface.ipaIfNum) macAddr
  | .wlan =>
    handleWlanClientInitEx iface a (w.table iface.ipaIfNum) macAddr w.totalNumWifiClients
  | .staWan => handleWanHdrInit iface a (w.table iface.ipaIfNum) macAddr

/-- A client goes. At a WAN interface clients go with the interface only. -/
def detach (iface : HdrIface) (macAddr : Mac) (deleted : Bool) : Except Bool NamedTable :=
  match iface.kind with
  | .lan | .wlan => handleClientDownEvt (w.table iface.ipaIfNum) macAddr deleted
  | .staWan => .error true

end HdrWorld

section Step

variable (ifaces : List HdrIface)

/-- The interface with a number. -/
def ifaceOf (ipaIfNum : Nat) : Option HdrIface := ifaces.find? fun i => i.ipaIfNum = ipaIfNum

def HdrEvent.ipaIfNum : HdrEvent → Nat
  | .attach n _ _ => n
  | .detach n _ _ => n
  | .linkDown n => n

/-- An event at one of the interfaces. -/
def HdrWorld.handle (w : HdrWorld) (iface : HdrIface) : HdrEvent → HdrWorld × Bool
  | .attach _ a macAddr => w.setOk iface (w.attach iface a macAddr)
  | .detach _ macAddr deleted => w.setOk iface (w.detach iface macAddr deleted)
  | .linkDown _ => (w.set iface .init, true)

def step (w : HdrWorld) (e : HdrEvent) : Except Fault (HdrWorld × Bool) :=
  match ifaceOf ifaces e.ipaIfNum with
  | none => .ok (w, true)
  | some iface => .ok (w.handle iface e)

end Step

/-! ## The property -/

/-- The names of the clients that are attached. -/
def NamedTable.names (s : NamedTable) : List String := s.clients.flatMap NamedClient.names

def HdrWorld.names (w : HdrWorld) (ifaces : List HdrIface) : List String :=
  ifaces.flatMap fun i => (w.table i.ipaIfNum).names

/-- No two of them are the same. -/
def HdrWorld.Distinct (w : HdrWorld) (ifaces : List HdrIface) : Prop := (w.names ifaces).Nodup

/-! ## The condition -/

/-- The first digit of a number. -/
def firstDigit (n : Nat) : Char := (Nat.toDigits 10 n).head Nat.toDigits_ne_nil

/-- The versions that an interface has TX properties for. -/
def HdrIface.versions (iface : HdrIface) : List IpType :=
  [IpType.v4, .v6].filter fun t => iface.tx.any fun tx => tx.ip = t

/-- There are two interfaces of the same class, or one, whose numbers have the same first digit, and
    which have TX properties for a common version. -/
def HdrIface.Close (i j : HdrIface) : Prop :=
  i.kind = j.kind ∧ firstDigit i.ipaIfNum = firstDigit j.ipaIfNum ∧
    ∃ t ∈ i.versions, t ∈ j.versions

/-- A client comes in: there is room for it, and the calls for its headers succeed. -/
def Joins (w : HdrWorld) (iface : HdrIface) (a : HdrAnswers) (macAddr : Mac) : Prop :=
  (match iface.kind with
    | .lan => ¬ (w.table iface.ipaIfNum).Knows macAddr ∧
        (w.table iface.ipaIfNum).clients.length < maxNumEthClients
    | .wlan => (w.table iface.ipaIfNum).clients.length < maxNumWifiClients ∧
        w.totalNumWifiClients < maxNumWifiClients
    | .staWan => ¬ (w.table iface.ipaIfNum).Knows macAddr ∧
        (w.table iface.ipaIfNum).clients.length < maxNumWanClients) ∧
    iface.txProp ≠ none ∧ a.calloc = true ∧
    ∀ t, addHdr iface a (w.table iface.ipaIfNum).headerNameCount t ≠ none

/-- When a client comes in, the attached clients of interfaces that are close came at counts with
    another first digit. -/
def Free (ifaces : List HdrIface) (w : HdrWorld) : HdrEvent → Prop
  | .attach n a macAddr => ∀ i ∈ ifaceOf ifaces n, Joins w i a macAddr →
      ∀ j ∈ ifaces, i.Close j → ∀ c ∈ (w.table j.ipaIfNum).clients,
        firstDigit c.nameCount ≠ firstDigit (w.table n).headerNameCount
  | .detach .. | .linkDown _ => True

/-! ## Names -/

theorem index_toList (n : Nat) : (index n).toList = [firstDigit n] := by
  unfold index firstDigit
  rw [String.toList_ofList, List.take_one, List.head?_eq_some_head Nat.toDigits_ne_nil,
    Option.toList_some]

theorem hdrTag_inj {k k' : ClientKind} {t t' : IpType} (h : k.hdrTag t = k'.hdrTag t') :
    k = k' ∧ t = t' := by
  revert h
  cases k <;> cases t <;> cases k' <;> cases t' <;> decide

section Names

variable {iface i j : HdrIface} {a : HdrAnswers} {s s' : NamedTable} {macAddr : Mac}
  {count count' : Nat} {t t' : IpType}

theorem hdrName_eq_iff : hdrName i count t = hdrName j count' t' ↔
    i.kind = j.kind ∧ firstDigit i.ipaIfNum = firstDigit j.ipaIfNum ∧ t = t' ∧
      firstDigit count = firstDigit count' := by
  have hname : ∀ (k : HdrIface) (c : Nat) (u : IpType), (hdrName k c u).toList =
      firstDigit k.ipaIfNum :: ((k.kind.hdrTag u).toList ++ [firstDigit c]) := by
    intro k c u
    simp [hdrName, index_toList]
  rw [← String.toList_inj, hname, hname, List.cons.injEq]
  constructor
  · rintro ⟨hnum, htail⟩
    obtain ⟨htag, hcount⟩ := List.append_inj' htail rfl
    obtain ⟨hkind, ht⟩ := hdrTag_inj (String.toList_inj.1 htag)
    exact ⟨hkind, hnum, ht, (List.cons.inj hcount).1⟩
  · rintro ⟨hkind, hnum, rfl, hcount⟩
    rw [hkind, hnum, hcount]
    exact ⟨rfl, rfl⟩

/-- What a client at a count names its headers. -/
def HdrIface.namesAt (iface : HdrIface) (count : Nat) : List String :=
  iface.versions.map (hdrName iface count)

theorem versions_nodup (iface : HdrIface) : iface.versions.Nodup :=
  List.Nodup.filter _ (by decide)

theorem namesAt_nodup (iface : HdrIface) (count : Nat) : (iface.namesAt count).Nodup := by
  refine (versions_nodup iface).map_on fun t _ t' _ h => ?_
  exact (hdrName_eq_iff.1 h).2.2.1

theorem namesAt_disjoint_iff : List.Disjoint (i.namesAt count) (j.namesAt count') ↔
    (i.Close j → firstDigit count' ≠ firstDigit count) := by
  constructor
  · rintro hdisjoint ⟨hkind, hnum, t, hi, hj⟩ hcount
    refine hdisjoint (List.mem_map_of_mem hi) ?_
    rw [hdrName_eq_iff.2 ⟨hkind, hnum, rfl, hcount.symm⟩]
    exact List.mem_map_of_mem hj
  · intro hcount name hi hj
    obtain ⟨t, ht, rfl⟩ := List.mem_map.1 hi
    obtain ⟨t', ht', heq⟩ := List.mem_map.1 hj
    obtain ⟨hkind, hnum, rfl, hdigit⟩ := hdrName_eq_iff.1 heq
    exact hcount ⟨hkind.symm, hnum.symm, _, ht, ht'⟩ hdigit

/-! ## Attaching -/

theorem addHdr_eq_some {name : Option String} (h : addHdr iface a count t = some name) :
    name.toList = if iface.tx.any fun tx => tx.ip = t then [hdrName iface count t] else [] := by
  unfold addHdr at h
  cases hfind : iface.tx.find? fun tx => tx.ip = t with
  | none =>
    rw [hfind] at h
    cases h
    rw [if_neg]
    · rfl
    · simpa using hfind
  | some tx =>
    rw [hfind] at h
    have hany : (iface.tx.any fun tx => tx.ip = t) = true :=
      List.any_eq_true.2 ⟨tx, List.mem_of_find?_eq_some hfind, by
        simpa using List.find?_some hfind⟩
    rw [if_pos hany]
    dsimp only at h
    cases hcopy : a.copyHeader tx.hdrName with
    | none => rw [hcopy] at h; cases h
    | some hdrLen =>
      rw [hcopy] at h
      dsimp only at h
      split at h
      · cases h
      · split at h
        · cases h
        · split at h
          · cases h
            rfl
          · cases h

theorem namesAt_eq (iface : HdrIface) (count : Nat) : iface.namesAt count =
    (if iface.tx.any fun tx => tx.ip = .v4 then [hdrName iface count .v4] else []) ++
      if iface.tx.any fun tx => tx.ip = .v6 then [hdrName iface count .v6] else [] := by
  unfold HdrIface.namesAt HdrIface.versions
  rw [List.filter_cons, List.filter_cons, List.filter_nil]
  split <;> split <;> rfl

/-- The table with one more client. -/
def NamedTable.push (s : NamedTable) (iface : HdrIface) (macAddr : Mac) : NamedTable :=
  ⟨s.clients ++ [⟨macAddr, iface.namesAt s.headerNameCount, s.headerNameCount⟩],
    s.headerNameCount + 1⟩

theorem addClient_eq_ok_iff : addClient iface a s macAddr = .ok s' ↔
    (iface.txProp ≠ none ∧ a.calloc = true ∧ ∀ t, addHdr iface a s.headerNameCount t ≠ none) ∧
      s' = s.push iface macAddr := by
  unfold addClient
  by_cases htx : iface.txProp = none
  · simp [htx]
  rw [if_neg htx]
  by_cases hcalloc : a.calloc = false
  · simp [hcalloc]
  rw [if_neg hcalloc]
  cases h4 : addHdr iface a s.headerNameCount .v4 with
  | none =>
    refine ⟨fun h => (nomatch h), fun h => absurd h4 (h.1.2.2 .v4)⟩
  | some name4 =>
    cases h6 : addHdr iface a s.headerNameCount .v6 with
    | none => exact ⟨fun h => (nomatch h), fun h => absurd h6 (h.1.2.2 .v6)⟩
    | some name6 =>
      have hall : ∀ t, addHdr iface a s.headerNameCount t ≠ none := by
        intro t
        cases t with
        | v4 => simp [h4]
        | v6 => simp [h6]
      have hnames : name4.toList ++ name6.toList = iface.namesAt s.headerNameCount := by
        rw [addHdr_eq_some h4, addHdr_eq_some h6, namesAt_eq]
      simp only [hnames, Except.ok.injEq]
      rw [eq_comm]
      exact ⟨fun h => ⟨⟨htx, by simpa using hcalloc, hall⟩, h⟩, fun h => h.2⟩

end Names

/-! ## Steps -/

section Steps

variable {ifaces : List HdrIface} {w w' : HdrWorld} {iface : HdrIface} {a : HdrAnswers}
  {macAddr : Mac} {s' : NamedTable} {i : HdrIface}

theorem attach_eq_ok_iff : w.attach iface a macAddr = .ok s' ↔
    Joins w iface a macAddr ∧ s' = (w.table iface.ipaIfNum).push iface macAddr := by
  unfold HdrWorld.attach Joins
  cases iface.kind with
  | lan =>
    unfold handleEthHdrInit
    by_cases hknows : (w.table iface.ipaIfNum).Knows macAddr
    · simp [hknows]
    by_cases hfull : maxNumEthClients ≤ (w.table iface.ipaIfNum).clients.length
    · simp [hknows, hfull]
    · rw [if_neg hknows, if_neg hfull, addClient_eq_ok_iff]
      simp [hknows, Nat.lt_of_not_le hfull]
  | wlan =>
    unfold handleWlanClientInitEx
    by_cases hfull : maxNumWifiClients ≤ (w.table iface.ipaIfNum).clients.length ∨
        maxNumWifiClients ≤ w.totalNumWifiClients
    · rw [if_pos hfull]
      refine ⟨fun h => (nomatch h), fun h => ?_⟩
      omega
    · rw [if_neg hfull, addClient_eq_ok_iff]
      simp only [not_or, Nat.not_le] at hfull
      simp [hfull.1, hfull.2]
  | staWan =>
    unfold handleWanHdrInit
    by_cases hknows : (w.table iface.ipaIfNum).Knows macAddr
    · simp [hknows]
    by_cases hfull : maxNumWanClients ≤ (w.table iface.ipaIfNum).clients.length
    · simp [hknows, hfull]
    · rw [if_neg hknows, if_neg hfull, addClient_eq_ok_iff]
      simp [hknows, Nat.lt_of_not_le hfull]

theorem detach_eq_ok {deleted : Bool} (h : w.detach iface macAddr deleted = .ok s') :
    s'.clients.Sublist (w.table iface.ipaIfNum).clients := by
  have hdown : ∀ {s : NamedTable}, handleClientDownEvt s macAddr deleted = .ok s' →
      s'.clients.Sublist s.clients := by
    intro s h
    unfold handleClientDownEvt at h
    split at h
    · split at h
      · cases h
        exact List.eraseP_sublist
      · cases h
    · cases h
  unfold HdrWorld.detach at h
  split at h
  · exact hdown h
  · exact hdown h
  · cases h

theorem ifaceOf_eq_some {n : Nat} (h : ifaceOf ifaces n = some iface) :
    iface ∈ ifaces ∧ iface.ipaIfNum = n :=
  ⟨List.mem_of_find?_eq_some h, by simpa using List.find?_some h⟩

theorem set_table_sublist (h : s'.clients.Sublist (w.table iface.ipaIfNum).clients) (n : Nat) :
    ((w.set iface s').table n).clients.Sublist (w.table n).clients := by
  unfold HdrWorld.set
  dsimp only
  by_cases hn : n = iface.ipaIfNum
  · subst hn
    rwa [update_self]
  · rw [update_of_ne hn]

/-- **What an event can do**: a client comes in at an interface, or no client comes in and some may
    go. -/
theorem step_cases {e : HdrEvent} {r : Bool} (hstep : step ifaces w e = .ok (w', r)) :
    (∃ i a macAddr, e = .attach i.ipaIfNum a macAddr ∧ ifaceOf ifaces i.ipaIfNum = some i ∧
      Joins w i a macAddr ∧
      w'.table = update w.table i.ipaIfNum ((w.table i.ipaIfNum).push i macAddr)) ∨
    Free ifaces w e ∧ ∀ n, (w'.table n).clients.Sublist (w.table n).clients := by
  unfold step at hstep
  cases hiface : ifaceOf ifaces e.ipaIfNum with
  | none =>
    rw [hiface] at hstep
    cases hstep
    refine .inr ⟨?_, fun n => .refl _⟩
    cases e with
    | attach n a macAddr =>
      intro i hi
      rw [Option.mem_def, show ifaceOf ifaces n = none from hiface] at hi
      cases hi
    | detach | linkDown => exact trivial
  | some i =>
    rw [hiface] at hstep
    have hhandle : (w.handle i e).1 = w' := (ok_pair hstep).1
    obtain ⟨-, hnum⟩ := ifaceOf_eq_some hiface
    cases e with
    | attach n a macAddr =>
      obtain rfl : i.ipaIfNum = n := hnum
      change (w.setOk i (w.attach i a macAddr)).1 = w' at hhandle
      cases hattach : w.attach i a macAddr with
      | error res =>
        rw [hattach] at hhandle
        obtain rfl : w = w' := hhandle
        refine .inr ⟨fun j hj hjoins => ?_, fun n => .refl _⟩
        -- the client does not come in
        rw [Option.mem_def, show ifaceOf ifaces i.ipaIfNum = some i from hiface] at hj
        cases hj
        rw [attach_eq_ok_iff.2 ⟨hjoins, rfl⟩] at hattach
        cases hattach
      | ok s =>
        rw [hattach] at hhandle
        obtain rfl : w.set i s = w' := hhandle
        obtain ⟨hjoins, rfl⟩ := attach_eq_ok_iff.1 hattach
        exact .inl ⟨i, a, macAddr, rfl, hiface, hjoins, rfl⟩
    | detach n macAddr deleted =>
      refine .inr ⟨trivial, ?_⟩
      change (w.setOk i (w.detach i macAddr deleted)).1 = w' at hhandle
      cases hdetach : w.detach i macAddr deleted with
      | error res =>
        rw [hdetach] at hhandle
        obtain rfl : w = w' := hhandle
        exact fun n => .refl _
      | ok s =>
        rw [hdetach] at hhandle
        obtain rfl : w.set i s = w' := hhandle
        exact set_table_sublist (detach_eq_ok hdetach)
    | linkDown n =>
      refine .inr ⟨trivial, ?_⟩
      obtain rfl : w.set i .init = w' := hhandle
      exact set_table_sublist (List.nil_sublist _)

/-- The names of a client are those for its count. -/
def Named (ifaces : List HdrIface) (w : HdrWorld) : Prop :=
  ∀ i ∈ ifaces, ∀ c ∈ (w.table i.ipaIfNum).clients, c.names = i.namesAt c.nameCount

theorem names_push (s : NamedTable) (iface : HdrIface) (macAddr : Mac) :
    (s.push iface macAddr).names = s.names ++ iface.namesAt s.headerNameCount := by
  simp [NamedTable.names, NamedTable.push]

theorem flatMap_at (hnum : (ifaces.map HdrIface.ipaIfNum).Nodup) (hi : i ∈ ifaces)
    (new : List String) :
    (ifaces.flatMap fun j => if j.ipaIfNum = i.ipaIfNum then new else []) = new := by
  induction ifaces with
  | nil => cases hi
  | cons j ifaces ih =>
    rw [List.map_cons, List.nodup_cons] at hnum
    rw [List.flatMap_cons]
    rcases List.mem_cons.1 hi with rfl | hi
    · have hnil : (ifaces.flatMap fun j => if j.ipaIfNum = i.ipaIfNum then new else []) = [] := by
        refine List.flatMap_eq_nil_iff.2 fun j hj => if_neg fun heq => hnum.1 ?_
        rw [← heq]
        exact List.mem_map_of_mem hj
      rw [if_pos rfl, hnil, List.append_nil]
    · have hne : j.ipaIfNum ≠ i.ipaIfNum := by
        intro heq
        rw [heq] at hnum
        exact hnum.1 (List.mem_map_of_mem hi)
      rw [if_neg hne, ih hnum.2 hi, List.nil_append]

theorem names_perm (hnum : (ifaces.map HdrIface.ipaIfNum).Nodup) (hi : i ∈ ifaces)
    {new : List String} (h : ∀ j ∈ ifaces, (w'.table j.ipaIfNum).names =
      (w.table j.ipaIfNum).names ++ if j.ipaIfNum = i.ipaIfNum then new else []) :
    (w'.names ifaces).Perm (w.names ifaces ++ new) := by
  have hperm := List.flatMap_append_perm ifaces (fun j => (w.table j.ipaIfNum).names)
    fun j => if j.ipaIfNum = i.ipaIfNum then new else []
  rw [flatMap_at hnum hi] at hperm
  have hsame : w'.names ifaces = ifaces.flatMap fun j => (w.table j.ipaIfNum).names ++
      if j.ipaIfNum = i.ipaIfNum then new else [] := List.flatMap_congr h
  rw [hsame]
  exact hperm.symm

theorem sublist_names (h : ∀ n, (w'.table n).clients.Sublist (w.table n).clients) :
    (w'.names ifaces).Sublist (w.names ifaces) :=
  .flatMap_right _ fun i _ => (h i.ipaIfNum).flatMap _

theorem Named.sublist (hnamed : Named ifaces w)
    (h : ∀ n, (w'.table n).clients.Sublist (w.table n).clients) : Named ifaces w' :=
  fun i hi c hc => hnamed i hi c ((h i.ipaIfNum).mem hc)

theorem Named.push (hnamed : Named ifaces w) (hnum : (ifaces.map HdrIface.ipaIfNum).Nodup)
    (hi : i ∈ ifaces)
    (htable : w'.table =
      update w.table i.ipaIfNum ((w.table i.ipaIfNum).push i macAddr)) : Named ifaces w' := by
  intro j hj c hc
  rw [htable] at hc
  by_cases heq : j.ipaIfNum = i.ipaIfNum
  · obtain rfl : j = i := List.inj_on_of_nodup_map hnum hj hi heq
    rw [update_self] at hc
    rcases List.mem_append.1 hc with hc | hc
    · exact hnamed j hj c hc
    · obtain rfl := List.mem_singleton.1 hc
      rfl
  · rw [update_of_ne heq] at hc
    exact hnamed j hj c hc

theorem disjoint_names_iff (hnamed : Named ifaces w) {count : Nat} :
    List.Disjoint (w.names ifaces) (i.namesAt count) ↔
      ∀ j ∈ ifaces, i.Close j → ∀ c ∈ (w.table j.ipaIfNum).clients,
        firstDigit c.nameCount ≠ firstDigit count := by
  constructor
  · intro h j hj hclose c hc
    refine namesAt_disjoint_iff.1 (fun name hi hname => h ?_ hi) hclose
    rw [← hnamed j hj c hc] at hname
    exact List.mem_flatMap.2 ⟨j, hj, List.mem_flatMap.2 ⟨c, hc, hname⟩⟩
  · intro h name hname hi
    obtain ⟨j, hj, hname⟩ := List.mem_flatMap.1 hname
    obtain ⟨c, hc, hname⟩ := List.mem_flatMap.1 hname
    rw [hnamed j hj c hc] at hname
    exact namesAt_disjoint_iff.2 (fun hclose => h j hj hclose c hc) hi hname

/-- **The step.** The names stay different if and only if the step meets the condition. -/
theorem step_distinct_iff (hnum : (ifaces.map HdrIface.ipaIfNum).Nodup) (hnamed : Named ifaces w)
    (hdistinct : w.Distinct ifaces) {e : HdrEvent} {r : Bool}
    (hstep : step ifaces w e = .ok (w', r)) :
    Named ifaces w' ∧ (w'.Distinct ifaces ↔ Free ifaces w e) := by
  rcases step_cases hstep with ⟨i, a, macAddr, rfl, hiface, hjoins, htable⟩ | ⟨hfree, hsub⟩
  · have hi := (ifaceOf_eq_some hiface).1
    refine ⟨hnamed.push hnum hi htable, ?_⟩
    have hperm : (w'.names ifaces).Perm
        (w.names ifaces ++ i.namesAt (w.table i.ipaIfNum).headerNameCount) := by
      refine names_perm hnum hi fun j _ => ?_
      rw [htable]
      by_cases heq : j.ipaIfNum = i.ipaIfNum
      · rw [heq, update_self, names_push, if_pos rfl]
      · rw [update_of_ne heq, if_neg heq, List.append_nil]
    have hfree : Free ifaces w (.attach i.ipaIfNum a macAddr) ↔
        ∀ j ∈ ifaces, i.Close j → ∀ c ∈ (w.table j.ipaIfNum).clients,
          firstDigit c.nameCount ≠ firstDigit (w.table i.ipaIfNum).headerNameCount := by
      constructor
      · exact fun h => h i hiface hjoins
      · intro h j hj _
        rw [hiface] at hj
        cases hj
        exact h
    unfold HdrWorld.Distinct
    rw [hperm.nodup_iff, List.nodup_append', hfree, ← disjoint_names_iff hnamed]
    exact ⟨fun h => h.2.2, fun h => ⟨hdistinct, namesAt_nodup .., h⟩⟩
  · exact ⟨hnamed.sublist hsub, fun _ => hfree, fun _ => hdistinct.sublist (sublist_names hsub)⟩

end Steps

/-- **The names of the headers of clients**, in every run in which each client that comes in meets
    no attached client of an interface that is close whose count has the same first digit: no two
    attached clients have a name in common. The next event leaves it so if and only if it meets the
    condition as well. -/
theorem run_header_names (ifaces : List HdrIface) (hnum : (ifaces.map HdrIface.ipaIfNum).Nodup)
    {tr : List (HdrEvent × Bool)} {w : HdrWorld}
    (run : Run (step ifaces) (Free ifaces) .init tr w) :
    w.Distinct ifaces ∧ ∀ e w' r, step ifaces w e = .ok (w', r) →
      (w'.Distinct ifaces ↔ Free ifaces w e) := by
  obtain ⟨hnamed, hdistinct⟩ : Named ifaces w ∧ w.Distinct ifaces := by
    refine run.invariant (fun _ w => Named ifaces w ∧ w.Distinct ifaces) ?_ ?_
    · refine ⟨fun i _ c hc => (nomatch hc), ?_⟩
      have hnil : HdrWorld.init.names ifaces = [] := List.flatMap_eq_nil_iff.2 fun _ _ => rfl
      unfold HdrWorld.Distinct
      rw [hnil]
      exact List.nodup_nil
    · intro tr w e w' r ⟨hnamed, hdistinct⟩ hfree hstep
      obtain ⟨hnamed', hiff⟩ := step_distinct_iff hnum hnamed hdistinct hstep
      exact ⟨hnamed', hiff.2 hfree⟩
  exact ⟨hdistinct, fun e w' r hstep => (step_distinct_iff hnum hnamed hdistinct hstep).2⟩

/-! ### An interface -/

/-- A USB interface. -/
def usb : HdrIface := ⟨.lan, 2, some [⟨.v4, "usb_v4", 16⟩, ⟨.v6, "usb_v6", 16⟩], 255⟩

/-- Every call succeeds. -/
def yes : HdrAnswers := ⟨true, fun _ => some 14, fun _ => true⟩

theorem free_singleton {w : HdrWorld} {iface : HdrIface} {a : HdrAnswers} {macAddr : Mac}
    (h : ∀ c ∈ (w.table iface.ipaIfNum).clients,
      firstDigit c.nameCount ≠ firstDigit (w.table iface.ipaIfNum).headerNameCount) :
    Free [iface] w (.attach iface.ipaIfNum a macAddr) := by
  intro i _ _ j hj _
  obtain rfl := List.mem_singleton.1 hj
  exact h

theorem run_header_names_two : ∃ tr w, Run (step [usb]) (Free [usb]) .init tr w ∧
    w.names [usb] = ["2IPACM_ETH_v40", "2IPACM_ETH_v60", "2IPACM_ETH_v41", "2IPACM_ETH_v61"] ∧
    w.Distinct [usb] := by
  have run : Run (step [usb]) (Free [usb]) .init [] .init := .nil
  have run := run.snoc (show step [usb] _ (.attach 2 yes 1) = .ok (_, _) from rfl)
    (free_singleton (by decide))
  have run := run.snoc (show step [usb] _ (.attach 2 yes 2) = .ok (_, _) from rfl)
    (free_singleton (by decide))
  exact ⟨_, _, run, by decide +kernel, (run_header_names [usb] (by decide) run).1⟩

/-- Eleven clients come. -/
def eleven : List HdrEvent := (List.range 11).map fun k => .attach 2 yes (BitVec.ofNat 48 k)

/-- The eleventh client has the names of the second. -/
theorem header_names_eleven : ¬ ∀ ifaces : List HdrIface, (ifaces.map HdrIface.ipaIfNum).Nodup →
    ∀ tr w, Run (step ifaces) (fun _ _ => True) .init tr w → w.Distinct ifaces := by
  intro h
  obtain ⟨tr, w, run, hnodup⟩ : ∃ tr w, Run (step [usb]) (fun _ _ => True) .init tr w ∧
      decide (w.names [usb]).Nodup = false :=
    Run.exists_of_exec (C := fun _ => True)
      (show (exec (step [usb]) .init eleven).toOption.map _ = _ by decide +kernel)
      fun _ _ => trivial
  exact of_decide_eq_false hnodup (h [usb] (by decide) tr w run)

end Nx508j.Ipacm.HdrNames
