import Nx508j.Ipacm.WlanClients

/-! # The clients of a WLAN interface as a finite map

What the array of clients is for: a map from MAC addresses, where a client in power save has no
routing rules. Where the ioctls succeed, an event does to the array what it should do to the map
unless a client is added that is there already, or one goes and the flags of those that move down
are not the same. -/

namespace Nx508j.Ipacm.WlanClients

open Nx508j.Lib EthClients
open HdrNames (maxNumWifiClients)
open Lan2Lan (IpType Mac Hdl V6Addr CopyHdr AddHdr macBytes overwrite ipaResourceNameMax)

/-! ## The map -/

/-- A client: what an Ethernet client has, its attributes, and whether it is in power save. -/
structure WlanEntry where
  client : Client
  attribs : List WlanHdrAttrib
  powerSave : Bool
deriving DecidableEq, Repr

namespace WlanEntry

variable (iface : WlanIface) (e : WlanEntry)

def mac : Mac := e.client.mac

/-- An address is new to the client. -/
def accepts (data : EventDataAll) : Bool :=
  match data.iptype with
  | .v4 => data.ipv4Addr ≠ 0 && e.client.v4Addr ≠ some data.ipv4Addr
  | .v6 => data.ipv6Addr = ⟨0, 0, 0, 0⟩ ||
      (e.client.v6Addr.length < EthClients.ipv6NumAddr && data.ipv6Addr ∉ e.client.v6Addr)

/-- The addresses get their routing rules, if the client is not in power save. -/
def routeRule (a : Answers) (t : IpType) : WlanEntry :=
  if e.powerSave then e else { e with client := e.client.routeRule iface.eth a t }

/-- The client has an address. -/
def ipaddr (rule : Answers) (data : EventDataAll) : WlanEntry :=
  if e.accepts data then
    { e with client := e.client.ipaddr data }.routeRule iface rule data.iptype
  else e

/-- The client goes to power save, and its routing rules with it. -/
def save : WlanEntry :=
  { e with client := { e.client with routeV4 := none, routeV6 := [] }, powerSave := true }

/-- The client comes back, and its addresses get their routing rules. -/
def recover (rule4 rule6 : Answers) : WlanEntry :=
  if e.powerSave then
    let e := { e with powerSave := false }
    let e := if e.client.v4Addr.isSome then e.routeRule iface rule4 .v4 else e
    if e.client.v6Addr = [] then e else e.routeRule iface rule6 .v6
  else e

end WlanEntry

/-- The MAC address among the attributes. -/
def givenMac (attribs : List WlanHdrAttrib) : Option Mac :=
  attribs.foldl (fun mac attrib => match attrib with | .macAddr _ m => some m | _ => mac) none

/-- The header of a version, for the first TX property that has it, where there is one. `none` is a
    failure. -/
def wlanHdrHdl (iface : WlanIface) (a : Answers) (headerNameCount : Nat)
    (attribs : List WlanHdrAttrib) (t : IpType) : Option (Option Hdl) :=
  match iface.eth.tx.find? fun tx => tx.ip = t with
  | none => some none
  | some tx =>
    match a.copyHeader tx.hdrName with
    | none => none
    | some sCopyHeader =>
      let name := wlanHdrName iface headerNameCount t
      if iface.hdrMaxSize < sCopyHeader.hdr.length then none
      else if ipaResourceNameMax < name.length then none
      else (a.addHeader ⟨name, wlanHdr attribs sCopyHeader.hdr⟩).map some

/-- The clients in the order they came in, how many headers were named, and the number of the
    clients of other interfaces. -/
structure WlanMap where
  clients : List WlanEntry
  headerNameCount : Nat
  others : Nat
deriving DecidableEq, Repr

namespace WlanMap

variable (iface : WlanIface) (m : WlanMap)

/-- The client with a MAC address. -/
def lookup (mac : Mac) : Option WlanEntry := record WlanEntry.mac m.clients mac

/-- A new client with a MAC address, if there is none with it and the interfaces are not full. -/
def insert (a : Answers) (attribs : List WlanHdrAttrib) : WlanMap :=
  if maxNumWifiClients ≤ m.clients.length + m.others ∨ iface.txProp = none ∨ a.calloc = false then m
  else
    match wlanHdrHdl iface a m.headerNameCount attribs .v4,
        wlanHdrHdl iface a m.headerNameCount attribs .v6, givenMac attribs with
    | some hdrV4, some hdrV6, some mac =>
      if iface.eth.tx = [] ∨ (m.lookup mac).isSome then m
      else
        { m with
          clients := m.clients ++ [⟨{ mac, hdrV4, hdrV6 }, attribs, false⟩]
          headerNameCount := m.headerNameCount + 1 }
    | _, _, _ => m

/-- What an event does to the map. -/
def apply : WlanClientEvent → WlanMap
  | .add a attribs => m.insert iface a attribs
  | .ipaddr _ rule data =>
    { m with
      clients := amend WlanEntry.mac (·.ipaddr iface rule data) data.macAddr m.clients }
  | .powerSave _ macAddr =>
    { m with
      clients := amend WlanEntry.mac (fun e => if e.powerSave then e else e.save) macAddr
        m.clients }
  | .recover rule4 rule6 macAddr =>
    { m with
      clients := amend WlanEntry.mac (·.recover iface rule4 rule6) macAddr m.clients }
  | .delete _ macAddr => { m with clients := discard WlanEntry.mac m.clients macAddr }
  | .other come =>
    if come then
      if maxNumWifiClients ≤ m.clients.length + m.others then m
      else { m with others := m.others + 1 }
    else { m with others := m.others - 1 }

end WlanMap

/-! ## The array as a map -/

variable {iface : WlanIface} {a : Answers} {c c' : WlanClient} {t : IpType} {n i : Nat}

/-- What the counters of a client say is there. -/
def view (iface : WlanIface) (c : WlanClient) : WlanEntry :=
  ⟨EthClients.view iface.eth c.toEthClient, c.pHdrInfo, c.powerSaveSet⟩

/-- The map that the array stands for. -/
def WlanTable.map (iface : WlanIface) (s : WlanTable) : WlanMap :=
  ⟨live s.numWifiClient fun i => view iface (s.wlanClient i), s.headerNameCount, s.others⟩

/-- Every ioctl for an event succeeds. -/
def WlanClientEvent.Succeeds : WlanClientEvent → Prop
  | .add a _ => a.Succeeds
  | .ipaddr addr rule _ => addr.Succeeds ∧ rule.Succeeds
  | .powerSave a _ => a.Succeeds
  | .recover rule4 rule6 _ => rule4.Succeeds ∧ rule6.Succeeds
  | .delete a _ => a.Succeeds
  | .other _ => True

/-! ## The condition -/

/-- There is room for a client, and its headers are not too long. -/
def Comes (iface : WlanIface) (s : WlanTable) (a : Answers) (attribs : List WlanHdrAttrib) : Prop :=
  s.numWifiClient + s.others < maxNumWifiClients ∧ iface.txProp ≠ none ∧ a.calloc = true ∧
    ∀ t, wlanHdrHdl iface a s.headerNameCount attribs t ≠ none

/-- A client that comes has a MAC address, and no client has it. When a client goes, it and those
    after it have the same flag. -/
def Meets (iface : WlanIface) (s : WlanTable) : WlanClientEvent → Prop
  | .add a attribs => Comes iface s a attribs → iface.eth.tx ≠ [] ∧
      ∃ mac ∈ givenMac attribs, s.getWlanClientIndex mac = none
  | .delete _ macAddr => ∀ i ∈ s.getWlanClientIndex macAddr, ∀ j, i ≤ j → j + 1 < s.numWifiClient →
      (s.wlanClient j).powerSaveSet = (s.wlanClient (j + 1)).powerSaveSet
  | .ipaddr .. | .powerSave .. | .recover .. | .other _ => True

/-! ## What becomes of a client -/

theorem handleIpaddr_accepts (h : Good iface.eth c.toEthClient) (data : EventDataAll) :
    (c.toEthClient.handleIpaddr iface.eth a data).2 = (view iface c).accepts data := by
  unfold EthClient.handleIpaddr WlanEntry.accepts
  cases data.iptype with
  | v4 =>
    by_cases hzero : data.ipv4Addr = 0
    · simp [hzero]
    rw [if_neg hzero, decide_eq_true hzero, Bool.true_and]
    have haddr : (view iface c).client.v4Addr = if c.ipv4Set then some c.v4Addr else none := rfl
    rw [haddr]
    by_cases hset : c.ipv4Set = false
    · simp [hset]
    have hset : c.ipv4Set = true := by simpa using hset
    by_cases hsame : data.ipv4Addr = c.v4Addr
    · simp [hset, hsame]
    · simp [hset, hsame, Ne.symm hsame]
  | v6 =>
    have hlength : (view iface c).client.v6Addr.length = c.ipv6Set := by
      simp only [view, EthClients.view, List.length_map]
      exact length_upTo h.numV6
    rw [hlength]
    by_cases hzero : data.ipv6Addr = ⟨0, 0, 0, 0⟩
    · simp [hzero]
    rw [if_neg hzero, decide_eq_false hzero, Bool.false_or]
    by_cases hlt : c.ipv6Set < EthClients.ipv6NumAddr
    · rw [dif_pos hlt, decide_eq_true hlt, Bool.true_and]
      by_cases hmem : ((upTo c.ipv6Set).any fun k => data.ipv6Addr = c.v6Addr k) = true
      · have hin : data.ipv6Addr ∈ (view iface c).client.v6Addr := mem_upTo_map.1 hmem
        rw [if_pos hmem]
        simp [hin]
      · have hout : data.ipv6Addr ∉ (view iface c).client.v6Addr := mt mem_upTo_map.2 hmem
        rw [if_neg hmem]
        simp [hout]
    · rw [dif_neg hlt, decide_eq_false hlt, Bool.false_and]

/-- A client in power save has no routing rules. -/
def Quiet (e : WlanEntry) : Prop :=
  e.powerSave = true → e.client.routeV4 = none ∧ e.client.routeV6 = []

/-- An entry that is in use is good, and it stands for what it should. -/
def Is (iface : WlanIface) (c : WlanClient) (e : WlanEntry) : Prop :=
  Good iface.eth c.toEthClient ∧ view iface c = e

/-- What `handle_wlan_client_route_rule` does to the client that is found. -/
def WlanClient.routeRule (iface : WlanIface) (a : Answers) (t : IpType) (c : WlanClient) :
    WlanClient :=
  if c.powerSaveSet then c else (c.onEth (·.handleRouteRule iface.eth a t)).1

variable {e : WlanEntry}

/-- Rules, as the map has them. -/
theorem routeRule_is (h : Is iface c e) (ha : a.Succeeds) (t : IpType) :
    Is iface (c.routeRule iface a t) (e.routeRule iface a t) := by
  obtain ⟨hgood, rfl⟩ := h
  unfold WlanClient.routeRule WlanEntry.routeRule
  by_cases hpower : c.powerSaveSet = true
  · rw [if_pos hpower, if_pos (show (view iface c).powerSave = true from hpower)]
    exact ⟨hgood, rfl⟩
  · rw [if_neg hpower, if_neg (show ¬ (view iface c).powerSave = true from hpower)]
    obtain ⟨hgood, hview⟩ := hgood.routeRule ha t
    exact ⟨hgood, congrArg (WlanEntry.mk · c.pHdrInfo c.powerSaveSet) hview⟩

theorem ipaddr_is (h : Good iface.eth c.toEthClient) (a : Answers) (data : EventDataAll) :
    Is iface (c.onEth (·.handleIpaddr iface.eth a data)).1
      { view iface c with client := (view iface c).client.ipaddr data } := by
  obtain ⟨hgood, hview⟩ := h.ipaddr (a := a) data
  exact ⟨hgood, congrArg (WlanEntry.mk · c.pHdrInfo c.powerSaveSet) hview⟩

theorem ipaddr_of_not_accepts {data : EventDataAll} (h : e.accepts data = false) :
    e.client.ipaddr data = e.client := by
  unfold WlanEntry.accepts at h
  unfold Client.ipaddr
  cases ht : data.iptype with
  | v4 =>
    rw [ht] at h
    rw [if_pos]
    by_cases hzero : data.ipv4Addr = 0
    · exact .inl hzero
    · rw [decide_eq_true hzero, Bool.true_and, decide_eq_false_iff_not, not_not] at h
      exact .inr h
  | v6 =>
    rw [ht] at h
    dsimp only at h ⊢
    rw [Bool.or_eq_false_iff, Bool.and_eq_false_iff, decide_eq_false_iff_not,
      decide_eq_false_iff_not, decide_eq_false_iff_not, not_lt, not_not] at h
    rw [if_pos (.inr h.2)]

/-- A client that sleeps has no rules. -/
theorem pwrsave_is (h : Good iface.eth c.toEthClient) (ha : a.Succeeds) :
    Is iface (c.pwrsave iface a)
      (if (view iface c).powerSave then view iface c else (view iface c).save) := by
  unfold WlanClient.pwrsave
  by_cases hpower : c.powerSaveSet = false
  · have hsave : (view iface c).powerSave = false := hpower
    rw [if_pos hpower, hsave]
    simp only [deleteEthRtrules_succeeds ha]
    exact ⟨⟨⟨h.v4, h.v6⟩, h.hdrV4, h.hdrV6, fun hset => (by cases hset), Nat.zero_le _, h.numV6⟩,
      rfl⟩
  · rw [if_neg hpower]
    have hpower : c.powerSaveSet = true := by simpa using hpower
    have hsave : (view iface c).powerSave = true := hpower
    rw [if_pos hsave]
    exact ⟨h, rfl⟩

/-- What `IPA_NEIGH_CLIENT_IP_ADDR_ADD_EVENT` does to the client. -/
def WlanClient.ipaddr (iface : WlanIface) (addr rule : Answers) (data : EventDataAll)
    (c : WlanClient) : WlanClient :=
  if (c.toEthClient.handleIpaddr iface.eth addr data).2 then
    (c.onEth (·.handleIpaddr iface.eth addr data)).1.routeRule iface rule data.iptype
  else (c.onEth (·.handleIpaddr iface.eth addr data)).1

theorem clientIpaddr_is {addr rule : Answers} (h : Good iface.eth c.toEthClient)
    (hrule : rule.Succeeds) (data : EventDataAll) :
    Is iface (c.ipaddr iface addr rule data) ((view iface c).ipaddr iface rule data) := by
  have his := ipaddr_is h addr data
  unfold WlanClient.ipaddr WlanEntry.ipaddr
  rw [handleIpaddr_accepts h]
  cases haccepts : (view iface c).accepts data with
  | true => exact routeRule_is his hrule data.iptype
  | false =>
    rw [ipaddr_of_not_accepts haccepts] at his
    exact his

/-- What `IPA_WLAN_CLIENT_RECOVER_EVENT` does to the client. -/
def WlanClient.recover (iface : WlanIface) (rule4 rule6 : Answers) (c : WlanClient) : WlanClient :=
  if c.powerSaveSet then
    let c := { c with powerSaveSet := false }
    let c := if c.ipv4Set then c.routeRule iface rule4 .v4 else c
    if c.ipv6Set ≠ 0 then c.routeRule iface rule6 .v6 else c
  else c

theorem Is.v4Addr (h : Is iface c e) : e.client.v4Addr.isSome = c.ipv4Set := by
  obtain ⟨-, rfl⟩ := h
  simp only [view, EthClients.view]
  cases c.ipv4Set <;> rfl

theorem Is.v6Addr (h : Is iface c e) : e.client.v6Addr = [] ↔ c.ipv6Set = 0 := by
  obtain ⟨hgood, rfl⟩ := h
  rw [← List.length_eq_zero_iff]
  simp only [view, EthClients.view, List.length_map]
  rw [length_upTo hgood.numV6]

/-- When it wakes, it has those of its addresses. -/
theorem recover_is {rule4 rule6 : Answers} (h : Good iface.eth c.toEthClient)
    (h4 : rule4.Succeeds) (h6 : rule6.Succeeds) :
    Is iface (c.recover iface rule4 rule6) ((view iface c).recover iface rule4 rule6) := by
  unfold WlanClient.recover WlanEntry.recover
  by_cases hpower : c.powerSaveSet = true
  · rw [if_pos hpower, if_pos (show (view iface c).powerSave = true from hpower)]
    have hawake : Is iface { c with powerSaveSet := false }
        { view iface c with powerSave := false } := ⟨h, rfl⟩
    have hv4 : Is iface
        (if c.ipv4Set then { c with powerSaveSet := false }.routeRule iface rule4 .v4
          else { c with powerSaveSet := false })
        (if (view iface c).client.v4Addr.isSome then
          { view iface c with powerSave := false }.routeRule iface rule4 .v4
          else { view iface c with powerSave := false }) := by
      rw [hawake.v4Addr]
      split
      · exact routeRule_is hawake h4 .v4
      · exact hawake
    by_cases hset : (if c.ipv4Set then { c with powerSaveSet := false }.routeRule iface rule4 .v4
        else { c with powerSaveSet := false }).ipv6Set = 0
    · rw [if_neg (not_not.2 hset), if_pos (hv4.v6Addr.2 hset)]
      exact hv4
    · rw [if_pos hset, if_neg (mt hv4.v6Addr.1 hset)]
      exact routeRule_is hv4 h6 .v6
  · rw [if_neg hpower, if_neg (show ¬ (view iface c).powerSave = true from hpower)]
    exact ⟨h, rfl⟩

/-! ### What stays -/

theorem routeRule_mac (iface : WlanIface) (a : Answers) (t : IpType) (e : WlanEntry) :
    (e.routeRule iface a t).mac = e.mac := by
  unfold WlanEntry.routeRule
  split
  · rfl
  · exact Client.routeRule_mac ..

theorem ipaddr_mac (iface : WlanIface) (rule : Answers) (data : EventDataAll) (e : WlanEntry) :
    (e.ipaddr iface rule data).mac = e.mac := by
  unfold WlanEntry.ipaddr
  split
  · rw [routeRule_mac]
    exact Client.ipaddr_mac ..
  · rfl

theorem recover_mac (iface : WlanIface) (rule4 rule6 : Answers) (e : WlanEntry) :
    (e.recover iface rule4 rule6).mac = e.mac := by
  have hlast : ∀ e : WlanEntry,
      (if e.client.v6Addr = [] then e else e.routeRule iface rule6 .v6).mac = e.mac := by
    intro e
    split
    · rfl
    · exact routeRule_mac ..
  unfold WlanEntry.recover
  split
  · refine (hlast _).trans ?_
    split
    · exact routeRule_mac ..
    · rfl
  · rfl

/-- Others stay as they are. -/
theorem routeRule_quiet (iface : WlanIface) (a : Answers) (t : IpType) (h : Quiet e) :
    Quiet (e.routeRule iface a t) := by
  unfold WlanEntry.routeRule
  split
  · exact h
  · next hpower => exact fun hsave => absurd hsave hpower

theorem ipaddr_quiet (iface : WlanIface) (rule : Answers) (data : EventDataAll) (h : Quiet e) :
    Quiet (e.ipaddr iface rule data) := by
  unfold WlanEntry.ipaddr
  split
  · refine routeRule_quiet iface rule _ fun hsave => ?_
    obtain ⟨h4, h6⟩ := h hsave
    unfold Client.ipaddr
    split <;> split
    · exact ⟨h4, h6⟩
    · exact ⟨rfl, h6⟩
    · exact ⟨h4, h6⟩
    · exact ⟨h4, h6⟩
  · exact h

theorem recover_quiet (iface : WlanIface) (rule4 rule6 : Answers) (h : Quiet e) :
    Quiet (e.recover iface rule4 rule6) := by
  have hlast : ∀ e : WlanEntry, Quiet e →
      Quiet (if e.client.v6Addr = [] then e else e.routeRule iface rule6 .v6) := by
    intro e h
    split
    · exact h
    · exact routeRule_quiet iface rule6 .v6 h
  have hawake : Quiet { e with powerSave := false } := fun hsave => by cases hsave
  unfold WlanEntry.recover
  split
  · refine hlast _ ?_
    split
    · exact routeRule_quiet iface rule4 .v4 hawake
    · exact hawake
  · exact h

theorem view_moveDown (dst src : WlanClient) : view iface (WlanClient.moveDown iface dst src) =
    { view iface src with powerSave := dst.powerSaveSet } :=
  congrArg (WlanEntry.mk · src.pHdrInfo dst.powerSaveSet)
    (EthClients.view_moveDown dst.toEthClient src.toEthClient)

/-! ### A client comes -/

theorem attribsMac_eq (attribs : List WlanHdrAttrib) (mac : Mac) :
    attribsMac attribs mac = (givenMac attribs).getD mac := by
  have hfold : ∀ o : Option Mac, attribsMac attribs (o.getD mac) =
      (attribs.foldl (fun mac attrib => match attrib with | .macAddr _ m => some m | _ => mac)
        o).getD mac := by
    unfold attribsMac
    induction attribs with
    | nil => exact fun _ => rfl
    | cons attrib attribs ih =>
      intro o
      rw [List.foldl_cons, List.foldl_cons]
      cases attrib with
      | macAddr _ m => exact ih (some m)
      | staId | other => exact ih o
  exact hfold none

/-- A client with a MAC address and the header of a version. -/
def WlanClient.headed (c : WlanClient) (mac : Mac) (t : IpType) (hdr : Option Hdl) : WlanClient :=
  { c with toEthClient := { c.toEthClient with mac }.setHdr t hdr }

theorem headed_mac (c : WlanClient) (mac : Mac) (t : IpType) (hdr : Option Hdl) :
    (c.headed mac t hdr).mac = mac := by
  cases hdr with
  | none => rfl
  | some hdl => cases t <;> rfl

theorem start_headed (c : WlanClient) (mac mac' : Mac) (hdrV4 hdrV6 : Option Hdl) :
    ((c.headed mac .v4 hdrV4).headed mac' .v6 hdrV6).start =
      ⟨newClient c.toEthClient mac' hdrV4 hdrV6, c.pHdrInfo, false⟩ := by
  cases hdrV4 <;> cases hdrV6 <;> rfl

section AddHdr

variable {count : Nat} {attribs : List WlanHdrAttrib}

theorem addHdr_none (c : WlanClient) (h : wlanHdrHdl iface a count attribs t = none) :
    ∃ mac, c.addHdr iface a count attribs t = ({ c with mac }, false) := by
  unfold wlanHdrHdl at h
  unfold WlanClient.addHdr
  cases htx : iface.eth.tx.find? fun tx => tx.ip = t with
  | none =>
    rw [htx] at h
    cases h
  | some tx =>
    rw [htx] at h
    dsimp only at h ⊢
    cases hcopy : a.copyHeader tx.hdrName with
    | none => exact ⟨c.mac, rfl⟩
    | some sCopyHeader =>
      rw [hcopy] at h
      dsimp only at h ⊢
      split at h
      · next hlong =>
        rw [if_pos hlong]
        exact ⟨c.mac, rfl⟩
      · next hlong =>
        rw [if_neg hlong]
        split at h
        · next hname =>
          rw [if_pos hname]
          exact ⟨_, rfl⟩
        · next hname =>
          rw [if_neg hname]
          rw [Option.map_eq_none_iff] at h
          rw [h]
          exact ⟨_, rfl⟩

theorem addHdr_some (c : WlanClient) {hdr : Option Hdl}
    (h : wlanHdrHdl iface a count attribs t = some hdr) :
    c.addHdr iface a count attribs t =
      (c.headed (if iface.eth.txOf t = [] then c.mac else attribsMac attribs c.mac) t hdr,
        true) := by
  unfold wlanHdrHdl at h
  unfold WlanClient.addHdr
  cases htx : iface.eth.tx.find? fun tx => tx.ip = t with
  | none =>
    rw [htx] at h
    cases h
    rw [if_pos (txOf_eq_nil.2 htx)]
    rfl
  | some tx =>
    rw [htx] at h
    rw [if_neg (by simp [txOf_eq_nil, htx])]
    dsimp only at h ⊢
    cases hcopy : a.copyHeader tx.hdrName with
    | none =>
      rw [hcopy] at h
      cases h
    | some sCopyHeader =>
      rw [hcopy] at h
      dsimp only at h ⊢
      split at h
      · cases h
      · next hlong =>
        rw [if_neg hlong]
        split at h
        · cases h
        · next hname =>
          rw [if_neg hname]
          obtain ⟨hdl, hadd, rfl⟩ := Option.map_eq_some_iff.1 h
          rw [hadd]
          rfl

theorem wlanHdrHdl_spec (ha : a.Succeeds) {hdr : Option Hdl}
    (h : wlanHdrHdl iface a count attribs t = some hdr) : IsHdr iface.eth t hdr := by
  unfold IsHdr
  rw [Ne, txOf_eq_nil]
  unfold wlanHdrHdl at h
  cases htx : iface.eth.tx.find? fun tx => tx.ip = t with
  | none =>
    rw [htx] at h
    cases h
    exact ⟨fun _ => rfl, fun hdl heq => by cases heq⟩
  | some tx =>
    rw [htx] at h
    dsimp only at h
    split at h
    · cases h
    split at h
    · cases h
    split at h
    · cases h
    · obtain ⟨hdl, hadd, rfl⟩ := Option.map_eq_some_iff.1 h
      obtain ⟨hdl', hadd', hne⟩ := ha.addHeader _
      cases hadd.symm.trans hadd'
      refine ⟨fun heq => (by cases heq), fun hdl' heq => ⟨by simp, ?_⟩⟩
      cases heq
      exact hne

theorem tx_eq_nil_iff : iface.eth.tx = [] ↔ iface.eth.txOf .v4 = [] ∧ iface.eth.txOf .v6 = [] := by
  rw [txOf_eq_nil, txOf_eq_nil, List.find?_eq_none, List.find?_eq_none]
  constructor
  · intro hnil
    rw [hnil]
    exact ⟨fun _ htx => (by cases htx), fun _ htx => by cases htx⟩
  · rintro ⟨h4, h6⟩
    refine List.eq_nil_iff_forall_not_mem.2 fun tx htx => ?_
    cases hip : tx.ip with
    | v4 => exact h4 tx htx (by simp [hip])
    | v6 => exact h6 tx htx (by simp [hip])

theorem mac_after (iface : WlanIface) (attribs : List WlanHdrAttrib) (mac : Mac) :
    (if iface.eth.txOf .v6 = [] then if iface.eth.txOf .v4 = [] then mac else attribsMac attribs mac
      else attribsMac attribs
        (if iface.eth.txOf .v4 = [] then mac else attribsMac attribs mac)) =
      if iface.eth.tx = [] then mac else (givenMac attribs).getD mac := by
  have htwice : (givenMac attribs).getD ((givenMac attribs).getD mac) =
      (givenMac attribs).getD mac := by
    cases givenMac attribs <;> rfl
  simp only [tx_eq_nil_iff, attribsMac_eq]
  by_cases h4 : iface.eth.txOf .v4 = []
  · by_cases h6 : iface.eth.txOf .v6 = [] <;> simp [h4, h6]
  · by_cases h6 : iface.eth.txOf .v6 = [] <;> simp [h4, h6, htwice]

/-- A new client, with the address that its message gives. -/
theorem start_is (ha : a.Succeeds) (h : Hdrs iface.eth c.toEthClient) {hdrV4 hdrV6 : Option Hdl}
    (h4 : wlanHdrHdl iface a count attribs .v4 = some hdrV4)
    (h6 : wlanHdrHdl iface a count attribs .v6 = some hdrV6) :
    ∃ c₄ c₆, c.addHdr iface a count attribs .v4 = (c₄, true) ∧
      c₄.addHdr iface a count attribs .v6 = (c₆, true) ∧
      Is iface c₆.start
        ⟨{ mac := if iface.eth.tx = [] then c.mac else (givenMac attribs).getD c.mac
           hdrV4, hdrV6 }, c.pHdrInfo, false⟩ := by
  refine ⟨_, _, addHdr_some c h4, addHdr_some _ h6, ?_⟩
  rw [headed_mac, mac_after, start_headed]
  obtain ⟨hgood, hview⟩ := h.newClient
    (if iface.eth.tx = [] then c.mac else (givenMac attribs).getD c.mac)
    (wlanHdrHdl_spec ha h4) (wlanHdrHdl_spec ha h6)
  exact ⟨hgood, congrArg (WlanEntry.mk · c.pHdrInfo false) hview⟩

end AddHdr

end Nx508j.Ipacm.WlanClients
