import Nx508j.Ipacm.EthClients

/-! # The Ethernet clients as a finite map

What the array of clients is for: a map from MAC addresses, where a client has the headers,
addresses and routing rules that its counters say are there. Where the ioctls succeed, each event
does to the array what it should do to the map. -/

namespace Nx508j.Ipacm.EthClients

open Nx508j.Lib Function
open Lan2Lan (IpType Mac Hdl V6Addr CopyHdr AddHdr macBytes overwrite ipaResourceNameMax)

/-! ## The map -/

/-- A client: its addresses, its header of each version, if there is one, the handles of the routing
    rules for its IPv4 address, if they are set, and of those for each of the first of its IPv6
    addresses, for each TX property of the version. -/
structure Client where
  mac : Mac
  hdrV4 : Option Hdl
  hdrV6 : Option Hdl
  v4Addr : Option (BitVec 32) := none
  v6Addr : List V6Addr := []
  routeV4 : Option (List Hdl) := none
  routeV6 : List (List (Hdl × Hdl)) := []
deriving DecidableEq, Repr

namespace Client

/-- The client has an address. The rules of an IPv4 address go with it. -/
def ipaddr (data : EventDataAll) (c : Client) : Client :=
  match data.iptype with
  | .v4 =>
    if data.ipv4Addr = 0 ∨ c.v4Addr = some data.ipv4Addr then c
    else { c with v4Addr := some data.ipv4Addr, routeV4 := none }
  | .v6 =>
    if data.ipv6Addr = ⟨0, 0, 0, 0⟩ ∨ ipv6NumAddr ≤ c.v6Addr.length ∨
        data.ipv6Addr ∈ c.v6Addr then c
    else { c with v6Addr := c.v6Addr ++ [data.ipv6Addr] }

/-- The handles of the rules for an IPv4 address. -/
def rulesV4 (iface : EthIface) (a : Answers) (c : Client) (addr : BitVec 32) : List Hdl :=
  (iface.txOf .v4).map fun x =>
    (a.addRoutingRule x.2
      ⟨.lanV4, some x.1.dstPipe, iface.odu.getD (c.hdrV4.getD 0), .inl addr⟩).getD 0

/-- The handles of the rules for an IPv6 address. -/
def rulesV6 (iface : EthIface) (a : Answers) (c : Client) (addr : V6Addr) : List (Hdl × Hdl) :=
  (iface.txOf .v6).map fun x =>
    ((a.addRoutingRule x.2 ⟨.v6, none, 0, .inr addr⟩).getD 0,
      (a.addRoutingRule x.2 ⟨.wanV6, some x.1.dstPipe, c.hdrV6.getD 0, .inr addr⟩).getD 0)

/-- The addresses that have no rules get them. -/
def routeRule (iface : EthIface) (a : Answers) (t : IpType) (c : Client) : Client :=
  if a.calloc = false then c
  else
    match t with
    | .v4 =>
      match c.routeV4, c.v4Addr with
      | none, some addr => { c with routeV4 := some (c.rulesV4 iface a addr) }
      | _, _ => c
    | .v6 =>
      { c with
        routeV6 := c.routeV6 ++ (c.v6Addr.drop c.routeV6.length).map (c.rulesV6 iface a) }

theorem ipaddr_mac (data : EventDataAll) (c : Client) : (c.ipaddr data).mac = c.mac := by
  unfold ipaddr
  split <;> split <;> rfl

theorem routeRule_mac (iface : EthIface) (a : Answers) (t : IpType) (c : Client) :
    (c.routeRule iface a t).mac = c.mac := by
  unfold routeRule
  split
  · rfl
  · split
    · split <;> rfl
    · rfl

end Client

/-- The clients in the order they came in, and how many headers were named. -/
structure EthMap where
  clients : List Client
  headerNameCount : Nat
deriving DecidableEq, Repr

namespace EthMap

def empty : EthMap := ⟨[], 0⟩

/-- The client with a MAC address. -/
def lookup (m : EthMap) (mac : Mac) : Option Client := record Client.mac m.clients mac

/-- A new client, if there is none with the address and the map is not full. -/
def insert (iface : EthIface) (a : Answers) (macAddr : Mac) (m : EthMap) : EthMap :=
  if (m.lookup macAddr).isSome ∨ maxNumEthClients ≤ m.clients.length ∨ iface.txProp = none ∨
      a.calloc = false then m
  else
    match constructHdr iface a m.headerNameCount macAddr .v4,
        constructHdr iface a m.headerNameCount macAddr .v6 with
    | some hdrV4, some hdrV6 =>
      ⟨m.clients ++ [{ mac := macAddr, hdrV4, hdrV6 }], m.headerNameCount + 1⟩
    | _, _ => m

/-- What an event does to the map. -/
def apply (iface : EthIface) (m : EthMap) : ClientEvent → EthMap
  | .hdrInit a macAddr => m.insert iface a macAddr
  | .ipaddr _ data =>
    { m with clients := amend Client.mac (Client.ipaddr data) data.macAddr m.clients }
  | .routeRule a macAddr t =>
    if iface.txProp = none then m
    else { m with clients := amend Client.mac (Client.routeRule iface a t) macAddr m.clients }
  | .down _ macAddr => { m with clients := discard Client.mac m.clients macAddr }

end EthMap

/-! ## The array as a map -/

variable {iface : EthIface} {a : Answers} {c c' : EthClient} {t : IpType} {n i : Nat}
  {data : EventDataAll}

/-- What the counters of a client say is there. -/
def view (iface : EthIface) (c : EthClient) : Client where
  mac := c.mac
  hdrV4 := if c.ipv4HeaderSet then some c.hdrHdlV4 else none
  hdrV6 := if c.ipv6HeaderSet then some c.hdrHdlV6 else none
  v4Addr := if c.ipv4Set then some c.v4Addr else none
  v6Addr := (upTo c.ipv6Set).map c.v6Addr
  routeV4 :=
    if c.routeRuleSetV4 then
      some ((iface.txOf .v4).map fun x => (c.ethRtHdl x.2).ethRtRuleHdlV4)
    else none
  routeV6 := (upTo c.routeRuleSetV6).map fun k => (iface.txOf .v6).map fun x =>
    ((c.ethRtHdl x.2).ethRtRuleHdlV6 k, (c.ethRtHdl x.2).ethRtRuleHdlV6Wan k)

/-- The map that the array stands for. -/
def EthTable.map (iface : EthIface) (s : EthTable) : EthMap :=
  ⟨live s.numEthClient fun i => view iface (s.ethClient i), s.headerNameCount⟩

/-- Every ioctl succeeds, and no header has the handle 0. -/
structure Answers.Succeeds (a : Answers) : Prop where
  copyHeader : ∀ name, a.copyHeader name ≠ none
  addHeader : ∀ hdr, ∃ hdl, a.addHeader hdr = some hdl ∧ hdl ≠ 0
  addRoutingRule : ∀ i rule, a.addRoutingRule i rule ≠ none
  deleteRoutingHdl : ∀ hdl, a.deleteRoutingHdl hdl = true
  deleteHeaderHdl : ∀ hdl, a.deleteHeaderHdl hdl = true

def ClientEvent.answers : ClientEvent → Answers
  | .hdrInit a _ => a
  | .ipaddr a _ => a
  | .routeRule a _ _ => a
  | .down a _ => a

/-! ## What holds of a client -/

/-- The headers of an entry, whether it is in use or not. -/
structure Hdrs (iface : EthIface) (c : EthClient) : Prop where
  v4 : c.ipv4HeaderSet = true → iface.txOf .v4 ≠ [] ∧ c.hdrHdlV4 ≠ 0
  v6 : c.ipv6HeaderSet = true → iface.txOf .v6 ≠ [] ∧ c.hdrHdlV6 ≠ 0

/-- An entry that is in use. -/
structure Good (iface : EthIface) (c : EthClient) : Prop extends Hdrs iface c where
  hdrV4 : iface.txOf .v4 ≠ [] → c.ipv4HeaderSet = true
  hdrV6 : iface.txOf .v6 ≠ [] → c.ipv6HeaderSet = true
  routeV4 : c.routeRuleSetV4 = true → c.ipv4Set = true
  routeV6 : c.routeRuleSetV6 ≤ c.ipv6Set
  numV6 : c.ipv6Set ≤ ipv6NumAddr

/-! ### Loops over the IPv6 addresses -/

theorem length_upTo (h : n ≤ ipv6NumAddr) : (upTo n).length = n := by
  revert n
  decide

theorem upTo_succ (h : n < ipv6NumAddr) : upTo (n + 1) = upTo n ++ [⟨n, h⟩] := by
  revert n
  decide

theorem mem_upTo {k : Fin ipv6NumAddr} : k ∈ upTo n ↔ k.val < n := by simp [upTo]

theorem drop_upTo {m : Nat} (hm : m ≤ n) (hn : n ≤ ipv6NumAddr) :
    (upTo n).drop m = (upTo n).filter fun k => m ≤ k.val := by
  revert hm
  revert m
  revert n
  decide

theorem take_upTo {m : Nat} (hm : m ≤ n) (hn : n ≤ ipv6NumAddr) : (upTo n).take m = upTo m := by
  revert hm
  revert m
  revert n
  decide

/-! ### An address -/

theorem deleteEthRtrules_v4 (iface : EthIface) (a : Answers) (c : EthClient) :
    (c.deleteEthRtrules iface a .v4).1 = c ∨
    (c.deleteEthRtrules iface a .v4).1 = { c with routeRuleSetV4 := false } := by
  rw [EthClient.deleteEthRtrules]
  split
  · exact .inl rfl
  · split
    · exact .inr rfl
    · exact .inl rfl

/-- A new IPv4 address. -/
def EthClient.setV4 (c : EthClient) (addr : BitVec 32) : EthClient :=
  { c with v4Addr := addr, ipv4Set := true, routeRuleSetV4 := false }

theorem Good.setV4 (h : Good iface c) (addr : BitVec 32) : Good iface (c.setV4 addr) ∧
      view iface (c.setV4 addr) = { view iface c with v4Addr := some addr, routeV4 := none } where
  left :=
    { v4 := h.v4
      v6 := h.v6
      hdrV4 := h.hdrV4
      hdrV6 := h.hdrV6
      routeV4 := fun _ => rfl
      routeV6 := h.routeV6
      numV6 := h.numV6 }
  right := rfl

theorem Good.handleIpaddr_v4 (h : Good iface c) (ht : data.iptype = .v4) :
    (c.handleIpaddr iface a data).1 =
      if data.ipv4Addr = 0 ∨ c.ipv4Set = true ∧ c.v4Addr = data.ipv4Addr then c
      else c.setV4 data.ipv4Addr := by
  simp only [EthClient.handleIpaddr, ht]
  split
  next hzero => rw [if_pos (.inl hzero)]
  next hzero =>
    split
    next hunset =>
      -- no rules are set without an address
      have hroute : c.routeRuleSetV4 = false := by
        rw [← Bool.not_eq_true]
        exact fun hroute => by simp [h.routeV4 hroute] at hunset
      rw [if_neg (by simpa [hunset] using hzero)]
      simp [EthClient.setV4, hroute]
    next hset =>
      have hset : c.ipv4Set = true := by simpa using hset
      split
      next hsame => rw [if_pos (.inr ⟨hset, hsame.symm⟩)]
      next hnew =>
        have hnot : ¬ (data.ipv4Addr = 0 ∨ c.ipv4Set = true ∧ c.v4Addr = data.ipv4Addr) := by
          rintro (hz | ⟨-, heq⟩)
          · exact hzero hz
          · exact hnew heq.symm
        rw [if_neg hnot]
        rcases deleteEthRtrules_v4 iface a c with heq | heq
        · simp [heq, EthClient.setV4, hset]
        · simp [heq, EthClient.setV4, hset]

theorem Good.ipaddr_v4 (h : Good iface c) (ht : data.iptype = .v4) :
    Good iface (c.handleIpaddr iface a data).1 ∧
      view iface (c.handleIpaddr iface a data).1 = (view iface c).ipaddr data := by
  rw [h.handleIpaddr_v4 ht]
  have hsame : (view iface c).v4Addr = some data.ipv4Addr ↔
      c.ipv4Set = true ∧ c.v4Addr = data.ipv4Addr := by simp [view]
  simp only [Client.ipaddr, ht, hsame]
  split
  · exact ⟨h, rfl⟩
  · exact h.setV4 data.ipv4Addr

theorem mem_upTo_map {addr : V6Addr} :
    ((upTo n).any fun k => addr = c.v6Addr k) = true ↔ addr ∈ (upTo n).map c.v6Addr := by
  simp only [List.any_eq_true, decide_eq_true_eq, List.mem_map, eq_comm (a := addr)]

theorem Good.addV6 (h : Good iface c) (hlt : c.ipv6Set < ipv6NumAddr) (addr : V6Addr) :
    let c' := { c with
      v6Addr := update c.v6Addr ⟨c.ipv6Set, hlt⟩ addr, ipv6Set := c.ipv6Set + 1 }
    Good iface c' ∧
      view iface c' = { view iface c with v6Addr := (view iface c).v6Addr ++ [addr] } where
  left :=
    { v4 := h.v4
      v6 := h.v6
      hdrV4 := h.hdrV4
      hdrV6 := h.hdrV6
      routeV4 := h.routeV4
      routeV6 := Nat.le_succ_of_le h.routeV6
      numV6 := hlt }
  right := by
    have hold : ∀ k ∈ upTo c.ipv6Set,
        update c.v6Addr ⟨c.ipv6Set, hlt⟩ addr k = c.v6Addr k := by
      intro k hk
      rw [update_of_ne]
      rintro rfl
      exact (mem_upTo.1 hk).ne rfl
    simp only [view, upTo_succ hlt, List.map_append, List.map_congr_left hold, List.map_cons,
      List.map_nil, update_self]

theorem Good.ipaddr_v6 (h : Good iface c) (ht : data.iptype = .v6) :
    Good iface (c.handleIpaddr iface a data).1 ∧
      view iface (c.handleIpaddr iface a data).1 = (view iface c).ipaddr data := by
  have hlength : (view iface c).v6Addr.length = c.ipv6Set := by
    rw [view, List.length_map, length_upTo h.numV6]
  simp only [EthClient.handleIpaddr, Client.ipaddr, ht, hlength]
  split
  next hzero =>
    rw [if_pos (.inl hzero)]
    exact ⟨h, rfl⟩
  next hzero =>
    split
    next hlt =>
      split
      next hmem =>
        rw [if_pos (.inr (.inr (mem_upTo_map.1 hmem)))]
        exact ⟨h, rfl⟩
      next hnew =>
        have hnot : ¬ (data.ipv6Addr = ⟨0, 0, 0, 0⟩ ∨ ipv6NumAddr ≤ c.ipv6Set ∨
            data.ipv6Addr ∈ (view iface c).v6Addr) := by
          rintro (hz | hfull | hmem)
          · exact hzero hz
          · exact hfull.not_gt hlt
          · exact hnew (mem_upTo_map.2 hmem)
        rw [if_neg hnot]
        exact h.addV6 hlt data.ipv6Addr
    next hfull =>
      rw [if_pos (.inr (.inl (not_lt.1 hfull)))]
      exact ⟨h, rfl⟩

/-- **An address** does to the client what it should. -/
theorem Good.ipaddr (h : Good iface c) (data : EventDataAll) :
    Good iface (c.handleIpaddr iface a data).1 ∧
      view iface (c.handleIpaddr iface a data).1 = (view iface c).ipaddr data := by
  cases ht : data.iptype with
  | v4 => exact h.ipaddr_v4 ht
  | v6 => exact h.ipaddr_v6 ht

/-! ### The routing rules -/

theorem nodup_txOf (iface : EthIface) (t : IpType) : ((iface.txOf t).map Prod.snd).Nodup := by
  have hsub := (List.filter_sublist (p := fun x => decide (x.1.ip = t))
    (l := iface.tx.zipIdx)).map Prod.snd
  refine List.Nodup.sublist hsub ?_
  rw [List.zipIdx_map_snd]
  exact List.nodup_range'

/-- The client with other handles of routing rules. -/
def EthClient.withRt (c : EthClient) (rt : Nat → EthClientRtHdl) : EthClient :=
  { c with ethRtHdl := rt }

section WithRt

variable {rt : Nat → EthClientRtHdl} {x : TxProp × Nat} {k : Fin ipv6NumAddr}

@[simp] theorem setRt_withRt {f : EthClientRtHdl → EthClientRtHdl} :
    (c.withRt rt).setRt i f = c.withRt (update rt i (f (rt i))) := rfl

@[simp] theorem ruleV4_withRt : (c.withRt rt).ruleV4 iface x = c.ruleV4 iface x := rfl

@[simp] theorem ruleV6_withRt : (c.withRt rt).ruleV6 k = c.ruleV6 k := rfl

@[simp] theorem ruleV6Wan_withRt : (c.withRt rt).ruleV6Wan x k = c.ruleV6Wan x k := rfl

end WithRt

theorem foldlM_withRt {f : EthClient → TxProp × Nat → Except EthClient EthClient}
    {g : TxProp × Nat → EthClientRtHdl → EthClientRtHdl} {l : List (TxProp × Nat)}
    (hf : ∀ rt, ∀ x ∈ l, f (c.withRt rt) x =
      .ok (c.withRt (update rt x.2 (g x (rt x.2)))))
    (hl : (l.map Prod.snd).Nodup) (rt : Nat → EthClientRtHdl) :
    ∃ rt', l.foldlM f (c.withRt rt) = .ok (c.withRt rt') ∧
      (∀ x ∈ l, rt' x.2 = g x (rt x.2)) ∧ ∀ i ∉ l.map Prod.snd, rt' i = rt i := by
  induction l generalizing rt with
  | nil => exact ⟨rt, rfl, by simp, by simp⟩
  | cons x l ih =>
    obtain ⟨hx, hl⟩ := List.nodup_cons.1 hl
    have hstep := hf rt x (List.mem_cons_self ..)
    obtain ⟨rt', hfold, hnew, hold⟩ :=
      ih (fun rt y hy => hf rt y (List.mem_cons_of_mem _ hy)) hl
        (update rt x.2 (g x (rt x.2)))
    refine ⟨rt', ?_, ?_, ?_⟩
    · rw [List.foldlM_cons, hstep]
      exact hfold
    · intro y hy
      rcases List.mem_cons.1 hy with rfl | hy
      · rw [hold _ hx, update_self]
      · have hne : y.2 ≠ x.2 := fun heq => hx (heq ▸ List.mem_map_of_mem hy)
        rw [hnew y hy, update_of_ne hne]
    · intro i hi
      obtain ⟨hix, hi⟩ : i ≠ x.2 ∧ i ∉ l.map Prod.snd := by simpa using hi
      rw [hold i hi, update_of_ne hix]

/-- The handles of a TX property after the loop over the addresses. -/
def EthClientRtHdl.setV6 (news : List (Fin ipv6NumAddr)) (hdl wan : Fin ipv6NumAddr → Hdl)
    (r : EthClientRtHdl) : EthClientRtHdl :=
  { r with
    ethRtRuleHdlV6 := fun k => if k ∈ news then hdl k else r.ethRtRuleHdlV6 k
    ethRtRuleHdlV6Wan := fun k => if k ∈ news then wan k else r.ethRtRuleHdlV6Wan k }

theorem EthClientRtHdl.setV6_cons {k : Fin ipv6NumAddr} {news : List (Fin ipv6NumAddr)}
    {hdl wan : Fin ipv6NumAddr → Hdl} {r : EthClientRtHdl} :
    EthClientRtHdl.setV6 news hdl wan
      { r with
        ethRtRuleHdlV6 := update r.ethRtRuleHdlV6 k (hdl k)
        ethRtRuleHdlV6Wan := update r.ethRtRuleHdlV6Wan k (wan k) } =
      r.setV6 (k :: news) hdl wan := by
  have hupdate : ∀ f v : Fin ipv6NumAddr → Hdl,
      (fun j => if j ∈ news then v j else update f k (v k) j) =
        fun j => if j ∈ k :: news then v j else f j := by
    intro f v
    funext j
    by_cases hj : j = k
    · subst hj
      simp
    · simp [hj]
  simp only [EthClientRtHdl.setV6, hupdate]

theorem foldlM_addRulesV6 (ha : a.Succeeds) (x : TxProp × Nat) (news : List (Fin ipv6NumAddr))
    (rt : Nat → EthClientRtHdl) :
    news.foldlM (fun c k => EthClient.addRulesV6 a c x k) (c.withRt rt) =
      .ok (c.withRt (update rt x.2 ((rt x.2).setV6 news
        (fun k => (a.addRoutingRule x.2 (c.ruleV6 k)).getD 0)
        fun k => (a.addRoutingRule x.2 (c.ruleV6Wan x k)).getD 0))) := by
  induction news generalizing rt with
  | nil =>
    have hsame : (rt x.2).setV6 [] (fun k => (a.addRoutingRule x.2 (c.ruleV6 k)).getD 0)
        (fun k => (a.addRoutingRule x.2 (c.ruleV6Wan x k)).getD 0) = rt x.2 := by
      simp [EthClientRtHdl.setV6]
    rw [hsame, update_eq_self]
    rfl
  | cons k news ih =>
    obtain ⟨hdl, hhdl⟩ := Option.ne_none_iff_exists'.1 (ha.addRoutingRule x.2 (c.ruleV6 k))
    obtain ⟨wan, hwan⟩ := Option.ne_none_iff_exists'.1 (ha.addRoutingRule x.2 (c.ruleV6Wan x k))
    have hstep : EthClient.addRulesV6 a (c.withRt rt) x k =
        .ok (c.withRt (update rt x.2 { rt x.2 with
          ethRtRuleHdlV6 := update (rt x.2).ethRtRuleHdlV6 k hdl
          ethRtRuleHdlV6Wan := update (rt x.2).ethRtRuleHdlV6Wan k wan })) := by
      simp [EthClient.addRulesV6, hhdl, hwan]
    rw [List.foldlM_cons, hstep]
    refine (ih _).trans ?_
    rw [update_self, update_idem, ← EthClientRtHdl.setV6_cons, hhdl, hwan]
    rfl

theorem Good.hdrV4_getD (h : Good iface c) {x : TxProp × Nat} (hx : x ∈ iface.txOf .v4) :
    (view iface c).hdrV4.getD 0 = c.hdrHdlV4 := by
  simp [view, h.hdrV4 (List.ne_nil_of_mem hx)]

theorem Good.hdrV6_getD (h : Good iface c) {x : TxProp × Nat} (hx : x ∈ iface.txOf .v6) :
    (view iface c).hdrV6.getD 0 = c.hdrHdlV6 := by
  simp [view, h.hdrV6 (List.ne_nil_of_mem hx)]

theorem Good.routeRule_v4 (h : Good iface c) (ha : a.Succeeds) :
    Good iface (c.handleRouteRule iface a .v4).1 ∧
      view iface (c.handleRouteRule iface a .v4).1 = (view iface c).routeRule iface a .v4 := by
  by_cases hcond : c.routeRuleSetV4 = false ∧ c.ipv4Set = true
  · rw [EthClient.handleRouteRule, if_pos hcond, Client.routeRule]
    split
    · exact ⟨h, rfl⟩
    -- each TX property gets a rule
    obtain ⟨rt, hfold, hnew, hold⟩ := foldlM_withRt (c := c) (l := iface.txOf .v4)
      (f := fun c x => EthClient.addRuleV4 iface a c x)
      (g := fun x r =>
        { r with ethRtRuleHdlV4 := (a.addRoutingRule x.2 (c.ruleV4 iface x)).getD 0 })
      (by
        intro rt x _
        obtain ⟨hdl, hhdl⟩ :=
          Option.ne_none_iff_exists'.1 (ha.addRoutingRule x.2 (c.ruleV4 iface x))
        simp [EthClient.addRuleV4, hhdl])
      (nodup_txOf iface .v4) c.ethRtHdl
    -- and nothing else of the handles changes
    have hv6 : ∀ i, (rt i).ethRtRuleHdlV6 = (c.ethRtHdl i).ethRtRuleHdlV6 ∧
        (rt i).ethRtRuleHdlV6Wan = (c.ethRtHdl i).ethRtRuleHdlV6Wan := by
      intro i
      by_cases hi : i ∈ (iface.txOf .v4).map Prod.snd
      · obtain ⟨x, hx, rfl⟩ := List.mem_map.1 hi
        rw [hnew x hx]
        exact ⟨rfl, rfl⟩
      · rw [hold i hi]
        exact ⟨rfl, rfl⟩
    have hfold : (iface.txOf .v4).foldlM (fun c x => EthClient.addRuleV4 iface a c x) c =
        .ok (c.withRt rt) := hfold
    simp only [hfold]
    refine ⟨⟨⟨h.v4, h.v6⟩, h.hdrV4, h.hdrV6, fun _ => hcond.2, h.routeV6, h.numV6⟩, ?_⟩
    have hrules : (iface.txOf .v4).map (fun x => (rt x.2).ethRtRuleHdlV4) =
        (view iface c).rulesV4 iface a c.v4Addr := by
      refine List.map_congr_left fun x hx => ?_
      rw [hnew x hx, h.hdrV4_getD hx]
      rfl
    have hview : view iface { c.withRt rt with routeRuleSetV4 := true } =
        { view iface c with routeV4 := some ((view iface c).rulesV4 iface a c.v4Addr) } := by
      rw [← hrules]
      simp only [view, EthClient.withRt, hv6, if_true]
      rfl
    have hroute : (view iface c).routeV4 = none := by simp [view, hcond.1]
    have haddr : (view iface c).v4Addr = some c.v4Addr := by simp [view, hcond.2]
    simp only [hview, hroute, haddr]
  · rw [EthClient.handleRouteRule, if_neg hcond, Client.routeRule]
    refine ⟨h, ?_⟩
    split
    · rfl
    · rcases not_and_or.1 hcond with hset | hunset
      · simp [view, hset]
      · simp [view, hunset]

theorem Good.routeRule_v6 (h : Good iface c) (ha : a.Succeeds) :
    Good iface (c.handleRouteRule iface a .v6).1 ∧
      view iface (c.handleRouteRule iface a .v6).1 = (view iface c).routeRule iface a .v6 := by
  have hlength : (view iface c).routeV6.length = c.routeRuleSetV6 := by
    rw [view, List.length_map, length_upTo (h.routeV6.trans h.numV6)]
  have hdrop : (view iface c).v6Addr.drop c.routeRuleSetV6 =
      ((upTo c.ipv6Set).filter fun k => c.routeRuleSetV6 ≤ k.val).map c.v6Addr := by
    rw [view, ← List.map_drop, drop_upTo h.routeV6 h.numV6]
  by_cases hcond : c.routeRuleSetV6 < c.ipv6Set
  · rw [EthClient.handleRouteRule, if_pos hcond, Client.routeRule]
    split
    · exact ⟨h, rfl⟩
    obtain ⟨news, hnews⟩ : ∃ news, news = (upTo c.ipv6Set).filter fun k =>
        c.routeRuleSetV6 ≤ k.val := ⟨_, rfl⟩
    rw [← hnews] at hdrop
    obtain ⟨rt, hfold, hnew, hold⟩ := foldlM_withRt (c := c) (l := iface.txOf .v6)
      (f := fun c x => news.foldlM (fun c k => EthClient.addRulesV6 a c x k) c)
      (fun rt x _ => foldlM_addRulesV6 ha x news rt) (nodup_txOf iface .v6) c.ethRtHdl
    have hv4 : ∀ i, (rt i).ethRtRuleHdlV4 = (c.ethRtHdl i).ethRtRuleHdlV4 := by
      intro i
      by_cases hi : i ∈ (iface.txOf .v6).map Prod.snd
      · obtain ⟨x, hx, rfl⟩ := List.mem_map.1 hi
        rw [hnew x hx]
        rfl
      · rw [hold i hi]
    have hfold : (iface.txOf .v6).foldlM
        (fun c x => news.foldlM (fun c k => EthClient.addRulesV6 a c x k) c) c =
        .ok (c.withRt rt) := hfold
    simp only [← hnews, hfold]
    refine ⟨⟨⟨h.v4, h.v6⟩, h.hdrV4, h.hdrV6, h.routeV4, le_rfl, h.numV6⟩, ?_⟩
    -- the addresses that have rules, and those that get them
    have hsplit : upTo c.ipv6Set = upTo c.routeRuleSetV6 ++ news := by
      rw [hnews, ← take_upTo h.routeV6 h.numV6, ← drop_upTo h.routeV6 h.numV6,
        List.take_append_drop]
    have hkept : ∀ k ∈ upTo c.routeRuleSetV6, ((iface.txOf .v6).map fun x =>
        ((rt x.2).ethRtRuleHdlV6 k, (rt x.2).ethRtRuleHdlV6Wan k)) =
        (iface.txOf .v6).map fun x =>
          ((c.ethRtHdl x.2).ethRtRuleHdlV6 k, (c.ethRtHdl x.2).ethRtRuleHdlV6Wan k) := by
      intro k hk
      have hnot : k ∉ news := by simpa [hnews] using fun _ => mem_upTo.1 hk
      refine List.map_congr_left fun x hx => ?_
      rw [hnew x hx]
      simp only [EthClientRtHdl.setV6, if_neg hnot]
    have hrules : ∀ k ∈ news, ((iface.txOf .v6).map fun x =>
        ((rt x.2).ethRtRuleHdlV6 k, (rt x.2).ethRtRuleHdlV6Wan k)) =
        (view iface c).rulesV6 iface a (c.v6Addr k) := by
      intro k hk
      refine List.map_congr_left fun x hx => ?_
      rw [hnew x hx, h.hdrV6_getD hx]
      simp only [EthClientRtHdl.setV6, if_pos hk]
      rfl
    have hroute : (upTo c.ipv6Set).map (fun k => (iface.txOf .v6).map fun x =>
        ((rt x.2).ethRtRuleHdlV6 k, (rt x.2).ethRtRuleHdlV6Wan k)) =
        (view iface c).routeV6 ++
          ((view iface c).v6Addr.drop (view iface c).routeV6.length).map
            ((view iface c).rulesV6 iface a) := by
      rw [hlength, hdrop, hsplit, List.map_append, List.map_congr_left hkept,
        List.map_congr_left hrules, List.map_map]
      rfl
    rw [← hroute]
    simp only [view, EthClient.withRt, hv4]
    rfl
  · -- every address has its rules
    rw [EthClient.handleRouteRule, if_neg hcond, Client.routeRule]
    refine ⟨h, ?_⟩
    have hnil : (view iface c).v6Addr.drop (view iface c).routeV6.length = [] := by
      rw [hlength, List.drop_eq_nil_iff, view, List.length_map, length_upTo h.numV6]
      exact not_lt.1 hcond
    split
    · rfl
    · rw [hnil, List.map_nil, List.append_nil]

/-- **The routing rules** of a client are set as they should. -/
theorem Good.routeRule (h : Good iface c) (ha : a.Succeeds) (t : IpType) :
    Good iface (c.handleRouteRule iface a t).1 ∧
      view iface (c.handleRouteRule iface a t).1 = (view iface c).routeRule iface a t := by
  cases t with
  | v4 => exact h.routeRule_v4 ha
  | v6 => exact h.routeRule_v6 ha

/-! ### A client goes -/

theorem deleteEthRtrules_succeeds (ha : a.Succeeds) (c : EthClient) (t : IpType) :
    c.deleteEthRtrules iface a t =
      (match t with
        | .v4 => { c with routeRuleSetV4 := false }
        | .v6 => { c with routeRuleSetV6 := 0 }, true) := by
  have hdelete : ∀ hdl, deleteRoutingHdl a hdl = true := by
    simp [deleteRoutingHdl, ha.deleteRoutingHdl]
  cases t with
  | v4 =>
    rw [EthClient.deleteEthRtrules]
    split
    next hset => simp [← hset]
    next => simp [hdelete]
  | v6 => simp [EthClient.deleteEthRtrules, hdelete]

theorem Hdrs.deleteHdr (h : Hdrs iface c) (ha : a.Succeeds) (t : IpType) :
    c.deleteHdr a t =
      (match t with
        | .v4 => { c with ipv4HeaderSet := false }
        | .v6 => { c with ipv6HeaderSet := false }, true) := by
  have hdelete : ∀ hdl, hdl ≠ 0 → deleteHeaderHdl a hdl = true := by
    intro hdl hne
    simpa [deleteHeaderHdl, ha.deleteHeaderHdl] using hne
  cases t with
  | v4 =>
    rw [EthClient.deleteHdr]
    split
    next hset => simp [← hset]
    next hset => simp [hdelete _ (h.v4 (by simpa using hset)).2]
  | v6 =>
    rw [EthClient.deleteHdr]
    split
    next hset => simp [← hset]
    next hset => simp [hdelete _ (h.v6 (by simpa using hset)).2]

theorem Hdrs.handleDown (h : Hdrs iface c) (ha : a.Succeeds) :
    ∃ c', c.handleDown iface a = (c', true) ∧ Hdrs iface c' := by
  have hrt : Hdrs iface { c with routeRuleSetV4 := false, routeRuleSetV6 := 0 } := ⟨h.v4, h.v6⟩
  have hv4 : Hdrs iface { c with
      routeRuleSetV4 := false, routeRuleSetV6 := 0, ipv4HeaderSet := false } :=
    ⟨fun hset => (by cases hset), h.v6⟩
  unfold EthClient.handleDown
  simp only [deleteEthRtrules_succeeds ha, hrt.deleteHdr ha, hv4.deleteHdr ha]
  exact ⟨_, rfl, fun hset => (by cases hset), fun hset => by cases hset⟩

theorem view_moveDown (dst src : EthClient) :
    view iface (EthClient.moveDown iface dst src) = view iface src := by
  have htx : ∀ {t : IpType}, ∀ x ∈ iface.txOf t, x.2 < iface.tx.length := by
    intro t x hx
    have hmem := List.mem_map_of_mem (f := Prod.snd) (List.mem_of_mem_filter hx)
    rw [List.zipIdx_map_snd, List.mem_range'_1] at hmem
    omega
  have haddr : (upTo src.ipv6Set).map (EthClient.moveDown iface dst src).v6Addr =
      (upTo src.ipv6Set).map src.v6Addr :=
    List.map_congr_left fun k hk => if_pos (mem_upTo.1 hk)
  have hv4 : (iface.txOf .v4).map (fun x =>
      ((EthClient.moveDown iface dst src).ethRtHdl x.2).ethRtRuleHdlV4) =
      (iface.txOf .v4).map fun x => (src.ethRtHdl x.2).ethRtRuleHdlV4 := by
    refine List.map_congr_left fun x hx => ?_
    simp only [EthClient.moveDown, if_pos (htx x hx)]
  have hv6 : (upTo src.routeRuleSetV6).map (fun k => (iface.txOf .v6).map fun x =>
      (((EthClient.moveDown iface dst src).ethRtHdl x.2).ethRtRuleHdlV6 k,
        ((EthClient.moveDown iface dst src).ethRtHdl x.2).ethRtRuleHdlV6Wan k)) =
      (upTo src.routeRuleSetV6).map fun k => (iface.txOf .v6).map fun x =>
        ((src.ethRtHdl x.2).ethRtRuleHdlV6 k, (src.ethRtHdl x.2).ethRtRuleHdlV6Wan k) := by
    refine List.map_congr_left fun k hk => List.map_congr_left fun x hx => ?_
    simp only [EthClient.moveDown, if_pos (htx x hx), if_pos (mem_upTo.1 hk)]
  unfold view
  rw [← haddr, ← hv4, ← hv6]
  rfl

theorem Hdrs.moveDown {dst src : EthClient} (h : Hdrs iface src) :
    Hdrs iface (EthClient.moveDown iface dst src) := ⟨h.v4, h.v6⟩

theorem Good.moveDown {dst src : EthClient} (h : Good iface src) :
    Good iface (EthClient.moveDown iface dst src) :=
  ⟨⟨h.v4, h.v6⟩, h.hdrV4, h.hdrV6, h.routeV4, h.routeV6, h.numV6⟩

theorem compact_eq_shiftDown (k i : Nat) (slots : Nat → EthClient) :
    compact iface k i slots = shiftDown (EthClient.moveDown iface) k i slots := by
  induction k generalizing i slots with
  | zero => rfl
  | succ k ih => rw [compact, shiftDown, ih]

theorem compact_apply (k i : Nat) (slots : Nat → EthClient) (j : Nat) : compact iface k i slots j =
      if i ≤ j ∧ j < i + k then EthClient.moveDown iface (slots j) (slots (j + 1)) else slots j := by
  rw [compact_eq_shiftDown, shiftDown_apply]

/-! ### A client comes -/

theorem txOf_eq_nil : iface.txOf t = [] ↔ (iface.tx.find? fun tx => tx.ip = t) = none := by
  have hfst : (iface.txOf t).map Prod.fst = iface.tx.filter fun tx => tx.ip = t := by
    rw [EthIface.txOf]
    conv_rhs => rw [← List.zipIdx_map_fst 0 iface.tx, List.filter_map]
    rfl
  rw [← List.map_eq_nil_iff (f := Prod.fst), hfst, List.filter_eq_nil_iff, List.find?_eq_none]

/-- A header is there just if there is a TX property for it, and has a handle. -/
def IsHdr (iface : EthIface) (t : IpType) (hdr : Option Hdl) : Prop :=
  (hdr = none → iface.txOf t = []) ∧ ∀ hdl, hdr = some hdl → iface.txOf t ≠ [] ∧ hdl ≠ 0

theorem constructHdr_spec (ha : a.Succeeds) {count : Nat} {mac : Mac} {hdr : Option Hdl}
    (h : constructHdr iface a count mac t = some hdr) : IsHdr iface t hdr := by
  unfold IsHdr
  rw [Ne, txOf_eq_nil]
  cases htx : iface.tx.find? fun tx => tx.ip = t with
  | none =>
    simp only [constructHdr, htx, Option.some.injEq] at h
    subst h
    exact ⟨fun _ => rfl, fun hdl heq => by cases heq⟩
  | some tx =>
    simp only [constructHdr, htx] at h
    split at h
    · cases h
    split at h
    · cases h
    split at h
    · cases h
    · obtain ⟨hdl, hadd, rfl⟩ := Option.map_eq_some_iff.1 h
      obtain ⟨hdl', hadd', hne⟩ := ha.addHeader _
      cases hadd.symm.trans hadd'
      refine ⟨fun heq => (by cases heq), fun hdl' heq => ⟨by simp, ?_⟩⟩
      cases heq
      exact hne

/-- The entry of a new client. -/
def newClient (c : EthClient) (mac : Mac) (hdrV4 hdrV6 : Option Hdl) : EthClient :=
  { ({ c with mac := mac }.setHdr .v4 hdrV4).setHdr .v6 hdrV6 with
    routeRuleSetV4 := false, routeRuleSetV6 := 0, ipv4Set := false, ipv6Set := 0 }

theorem newClient_eq (c : EthClient) (mac : Mac) (hdrV4 hdrV6 : Option Hdl) :
    newClient c mac hdrV4 hdrV6 = { c with
      mac := mac
      hdrHdlV4 := hdrV4.getD c.hdrHdlV4
      hdrHdlV6 := hdrV6.getD c.hdrHdlV6
      ipv4HeaderSet := hdrV4.isSome || c.ipv4HeaderSet
      ipv6HeaderSet := hdrV6.isSome || c.ipv6HeaderSet
      routeRuleSetV4 := false
      routeRuleSetV6 := 0
      ipv4Set := false
      ipv6Set := 0 } := by
  cases hdrV4 <;> cases hdrV6 <;> rfl

theorem Hdrs.setHdr (h : Hdrs iface c) {hdr : Option Hdl} (hhdr : IsHdr iface t hdr) :
    Hdrs iface (c.setHdr t hdr) := by
  cases hdr with
  | none => exact h
  | some hdl =>
    cases t with
    | v4 => exact ⟨fun _ => hhdr.2 hdl rfl, h.v6⟩
    | v6 => exact ⟨h.v4, fun _ => hhdr.2 hdl rfl⟩

theorem Hdrs.newClient (h : Hdrs iface c) (mac : Mac) {hdrV4 hdrV6 : Option Hdl}
    (h4 : IsHdr iface .v4 hdrV4) (h6 : IsHdr iface .v6 hdrV6) :
    Good iface (newClient c mac hdrV4 hdrV6) ∧
      view iface (newClient c mac hdrV4 hdrV6) = { mac, hdrV4, hdrV6 } := by
  obtain ⟨hnone4, hsome4⟩ := h4
  obtain ⟨hnone6, hsome6⟩ := h6
  -- an entry that was in use before has no flag for a header that is not there
  have hflag4 : (hdrV4.isSome || c.ipv4HeaderSet) = hdrV4.isSome := by
    cases hdrV4 with
    | none => simpa using fun hset => (h.v4 hset).1 (hnone4 rfl)
    | some => rfl
  have hflag6 : (hdrV6.isSome || c.ipv6HeaderSet) = hdrV6.isSome := by
    cases hdrV6 with
    | none => simpa using fun hset => (h.v6 hset).1 (hnone6 rfl)
    | some => rfl
  rw [newClient_eq, hflag4, hflag6]
  constructor
  · refine ⟨⟨?_, ?_⟩, ?_, ?_, fun hset => (by cases hset), le_rfl, Nat.zero_le _⟩
    · intro hset
      obtain ⟨hdl, rfl⟩ := Option.isSome_iff_exists.1 hset
      exact hsome4 hdl rfl
    · intro hset
      obtain ⟨hdl, rfl⟩ := Option.isSome_iff_exists.1 hset
      exact hsome6 hdl rfl
    · exact fun htx => Option.isSome_iff_ne_none.2 fun hnone => htx (hnone4 hnone)
    · exact fun htx => Option.isSome_iff_ne_none.2 fun hnone => htx (hnone6 hnone)
  · cases hdrV4 <;> cases hdrV6 <;> rfl

/-! ## The steps -/

namespace EthTable

variable {s s' : EthTable} {mac : Mac} {res : Bool}

/-- **The invariant.** -/
structure Inv (iface : EthIface) (s : EthTable) : Prop where
  hdrs : ∀ i, Hdrs iface (s.ethClient i)
  good : ∀ i < s.numEthClient, Good iface (s.ethClient i)
  macs : ((s.map iface).clients.map Client.mac).Nodup
  num : s.numEthClient ≤ maxNumEthClients

@[simp] theorem length_map (iface : EthIface) (s : EthTable) :
    (s.map iface).clients.length = s.numEthClient := length_live

theorem lookup_map (iface : EthIface) (s : EthTable) (mac : Mac) : (s.map iface).lookup mac =
      (s.getEthClientIndex mac).map fun i => view iface (s.ethClient i) :=
  record_live

theorem lookup_eq_none (iface : EthIface) :
    (s.map iface).lookup mac = none ↔ s.getEthClientIndex mac = none := by
  rw [lookup_map, Option.map_eq_none_iff]

theorem inv_init (iface : EthIface) : (init).Inv iface where
  hdrs := fun _ => ⟨fun hset => (by cases hset), fun hset => (by cases hset)⟩
  good := fun i hi => absurd hi (Nat.not_lt_zero i)
  macs := List.nodup_nil
  num := Nat.zero_le _

@[simp] theorem ethClient_set_self : (s.set i c).ethClient i = c := update_self ..

theorem ethClient_set_of_ne {j : Nat} (hj : j ≠ i) : (s.set i c).ethClient j = s.ethClient j :=
  update_of_ne hj ..

theorem map_set_of_le (hi : s.numEthClient ≤ i) : (s.set i c).map iface = s.map iface := by
  have hlive : live s.numEthClient (fun j => view iface ((s.set i c).ethClient j)) =
      live s.numEthClient fun j => view iface (s.ethClient j) := by
    refine live_congr fun j hj => ?_
    rw [ethClient_set_of_ne (by omega)]
  exact congrArg (EthMap.mk · s.headerNameCount) hlive

theorem map_set (hi : s.getEthClientIndex mac = some i) {f : Client → Client}
    (hview : view iface c = f (view iface (s.ethClient i))) : (s.set i c).map iface =
      { s.map iface with clients := amend Client.mac f mac (s.map iface).clients } := by
  refine congrArg (EthMap.mk · s.headerNameCount) (live_amend hi fun j _ => ?_)
  by_cases hj : j = i
  · subst hj
    rw [if_pos rfl, ethClient_set_self, hview]
  · rw [if_neg hj, ethClient_set_of_ne hj]

section

variable (h : s.Inv iface)
include h

theorem Inv.hdrs_set (hc : Hdrs iface c) (i j : Nat) : Hdrs iface ((s.set i c).ethClient j) := by
  by_cases hj : j = i
  · subst hj
    rwa [ethClient_set_self]
  · rw [ethClient_set_of_ne hj]
    exact h.hdrs j

theorem Inv.set (hi : s.getEthClientIndex mac = some i) {f : Client → Client}
    (hf : ∀ c, (f c).mac = c.mac) (hgood : Good iface c)
    (hview : view iface c = f (view iface (s.ethClient i))) : (s.set i c).Inv iface where
  hdrs := h.hdrs_set hgood.toHdrs i
  good := by
    intro j hj
    by_cases hji : j = i
    · subst hji
      rwa [ethClient_set_self]
    · rw [ethClient_set_of_ne hji]
      exact h.good j hj
  macs := by
    rw [map_set hi hview]
    rw [map_key_amend hf]
    exact h.macs
  num := h.num

theorem Inv.set_of_le (hi : s.numEthClient ≤ i) (hc : Hdrs iface c) : (s.set i c).Inv iface where
  hdrs := h.hdrs_set hc i
  good := by
    intro j hj
    rw [ethClient_set_of_ne (Nat.ne_of_lt (Nat.lt_of_lt_of_le hj hi))]
    exact h.good j hj
  macs := by
    rw [map_set_of_le hi]
    exact h.macs
  num := h.num

theorem Inv.push (hgood : Good iface c)
    (hnew : s.getEthClientIndex (view iface c).mac = none)
    (hnum : s.numEthClient < maxNumEthClients) :
    let s' := { s.set s.numEthClient c with
      numEthClient := s.numEthClient + 1, headerNameCount := s.headerNameCount + 1 }
    s'.Inv iface ∧
      s'.map iface = ⟨(s.map iface).clients ++ [view iface c], s.headerNameCount + 1⟩ := by
  have hold : (s.set s.numEthClient c).map iface = s.map iface := map_set_of_le le_rfl
  have hmap : live (s.numEthClient + 1)
      (fun j => view iface ((s.set s.numEthClient c).ethClient j)) =
      (s.map iface).clients ++ [view iface c] := by
    rw [live_succ, ethClient_set_self, ← hold]
    rfl
  refine ⟨⟨h.hdrs_set hgood.toHdrs _, fun j hj => ?_, ?_, hnum⟩, ?_⟩
  · by_cases hjn : j = s.numEthClient
    · subst hjn
      rwa [ethClient_set_self]
    · rw [ethClient_set_of_ne hjn]
      exact h.good j (Nat.lt_of_le_of_ne (Nat.le_of_lt_succ hj) hjn)
  · -- the MAC address is of no client that is there
    have hnot := record_eq_none.1 ((lookup_eq_none iface).2 hnew)
    have hnodup : (((s.map iface).clients ++ [view iface c]).map Client.mac).Nodup := by
      rw [List.map_append, List.nodup_append]
      refine ⟨h.macs, List.nodup_singleton _, ?_⟩
      rintro m hm _ hmac rfl
      rw [List.map_cons, List.map_nil, List.mem_singleton] at hmac
      subst hmac
      exact hnot hm
    rwa [← hmap] at hnodup
  · exact congrArg (EthMap.mk · (s.headerNameCount + 1)) hmap

theorem Inv.step_hdrInit (ha : a.Succeeds) (mac : Mac) :
    (s.handleEthHdrInit iface a mac).1.Inv iface ∧
      (s.handleEthHdrInit iface a mac).1.map iface = (s.map iface).insert iface a mac := by
  unfold handleEthHdrInit EthMap.insert
  have hknown : ((s.map iface).lookup mac).isSome = (s.getEthClientIndex mac).isSome := by
    rw [lookup_map, Option.isSome_map]
  rw [hknown, length_map]
  by_cases hindex : (s.getEthClientIndex mac).isSome
  · rw [if_pos hindex, if_pos (.inl hindex)]
    exact ⟨h, rfl⟩
  rw [if_neg hindex]
  by_cases hfull : maxNumEthClients ≤ s.numEthClient
  · rw [if_pos hfull, if_pos (.inr (.inl hfull))]
    exact ⟨h, rfl⟩
  rw [if_neg hfull]
  -- the entry after those in use is written, whatever comes of it
  have hmac : Hdrs iface { s.ethClient s.numEthClient with mac := mac } :=
    ⟨(h.hdrs _).v4, (h.hdrs _).v6⟩
  have hwritten : ∀ c, Hdrs iface c → (s.set s.numEthClient c).Inv iface ∧
      (s.set s.numEthClient c).map iface = s.map iface :=
    fun c hc => ⟨h.set_of_le le_rfl hc, map_set_of_le le_rfl⟩
  by_cases htx : iface.txProp = none
  · rw [if_pos htx, if_pos (.inr (.inr (.inl htx)))]
    exact hwritten _ hmac
  rw [if_neg htx]
  by_cases hcalloc : a.calloc = false
  · rw [if_pos hcalloc, if_pos (.inr (.inr (.inr hcalloc)))]
    exact hwritten _ hmac
  have hcount : (s.map iface).headerNameCount = s.headerNameCount := rfl
  rw [if_neg hcalloc, if_neg (by simp [hindex, hfull, htx, hcalloc]), hcount]
  cases h4 : constructHdr iface a s.headerNameCount mac .v4 with
  | none => exact hwritten _ hmac
  | some hdrV4 =>
    cases h6 : constructHdr iface a s.headerNameCount mac .v6 with
    | none => exact hwritten _ (hmac.setHdr (constructHdr_spec ha h4))
    | some hdrV6 =>
      obtain ⟨hgood, hview⟩ := (h.hdrs s.numEthClient).newClient mac
        (constructHdr_spec ha h4) (constructHdr_spec ha h6)
      have hnew : s.getEthClientIndex
          (view iface (newClient (s.ethClient s.numEthClient) mac hdrV4 hdrV6)).mac = none := by
        rw [hview]
        exact Option.not_isSome_iff_eq_none.1 hindex
      have hpush := h.push hgood hnew (not_le.1 hfull)
      rw [hview] at hpush
      exact hpush

theorem Inv.step_ipaddr (a : Answers) (data : EventDataAll) :
    (s.handleEthClientIpaddr iface a data).1.Inv iface ∧
      (s.handleEthClientIpaddr iface a data).1.map iface =
        { s.map iface with
          clients := amend Client.mac (Client.ipaddr data) data.macAddr (s.map iface).clients } := by
  unfold handleEthClientIpaddr
  cases hindex : s.getEthClientIndex data.macAddr with
  | none =>
    rw [amend_of_none ((lookup_eq_none iface).2 hindex)]
    exact ⟨h, rfl⟩
  | some i =>
    obtain ⟨hgood, hview⟩ := (h.good i (indexOf?_eq_some.1 hindex).1).ipaddr (a := a) data
    exact ⟨h.set hindex (Client.ipaddr_mac data) hgood hview, map_set hindex hview⟩

theorem Inv.step_routeRule (ha : a.Succeeds) (mac : Mac) (t : IpType) :
    (s.handleEthClientRouteRule iface a mac t).1.Inv iface ∧
      (s.handleEthClientRouteRule iface a mac t).1.map iface =
        if iface.txProp = none then s.map iface
        else
          { s.map iface with
            clients :=
              amend Client.mac (Client.routeRule iface a t) mac (s.map iface).clients } := by
  unfold handleEthClientRouteRule
  split
  · exact ⟨h, rfl⟩
  · cases hindex : s.getEthClientIndex mac with
    | none =>
      rw [amend_of_none ((lookup_eq_none iface).2 hindex)]
      exact ⟨h, rfl⟩
    | some i =>
      obtain ⟨hgood, hview⟩ := (h.good i (indexOf?_eq_some.1 hindex).1).routeRule ha t
      exact ⟨h.set hindex (Client.routeRule_mac iface a t) hgood hview, map_set hindex hview⟩

theorem Inv.step_down (ha : a.Succeeds) (mac : Mac) :
    (s.handleEthClientDownEvt iface a mac).1.Inv iface ∧
      (s.handleEthClientDownEvt iface a mac).1.map iface =
        { s.map iface with clients := discard Client.mac (s.map iface).clients mac } := by
  unfold handleEthClientDownEvt
  cases hindex : s.getEthClientIndex mac with
  | none =>
    rw [discard_of_none ((lookup_eq_none iface).2 hindex)]
    exact ⟨h, rfl⟩
  | some i =>
    obtain ⟨c, hdown, hc⟩ := (h.hdrs i).handleDown ha
    simp only [hdown]
    -- an entry is as it was, or has the client of the next one
    have hentry : ∀ j, compact iface (s.numEthClient - 1 - i) i (s.set i c).ethClient j =
        if i ≤ j ∧ j + 1 < s.numEthClient then
          EthClient.moveDown iface ((s.set i c).ethClient j) (s.ethClient (j + 1))
        else (s.set i c).ethClient j := by
      intro j
      rw [compact_apply]
      by_cases hj : i ≤ j ∧ j + 1 < s.numEthClient
      · rw [if_pos (by omega), if_pos hj, ethClient_set_of_ne (j := j + 1) (by omega)]
      · rw [if_neg (by omega), if_neg hj]
    have hmap : live (s.numEthClient - 1) (fun j => view iface
        (compact iface (s.numEthClient - 1 - i) i (s.set i c).ethClient j)) =
        discard Client.mac (s.map iface).clients mac := by
      refine live_discard hindex fun j hj => ?_
      rw [hentry]
      by_cases hij : i ≤ j
      · rw [if_pos ⟨hij, hj⟩, if_neg (by omega), view_moveDown]
      · rw [if_neg (by omega), if_pos (by omega), ethClient_set_of_ne (by omega)]
    refine ⟨⟨fun j => ?_, fun j hj => ?_, ?_, ?_⟩, ?_⟩
    · dsimp only
      rw [hentry]
      split
      · exact (h.hdrs (j + 1)).moveDown
      · exact h.hdrs_set hc i j
    · dsimp only at hj ⊢
      rw [hentry]
      split
      next hmove => exact (h.good (j + 1) hmove.2).moveDown
      next hstay =>
        rw [ethClient_set_of_ne (by omega)]
        exact h.good j (by omega)
    · have hnodup := nodup_discard h.macs mac
      rwa [← hmap] at hnodup
    · exact (Nat.sub_le ..).trans h.num
    · exact congrArg (EthMap.mk · s.headerNameCount) hmap

/-- **A step** does to the array what it should do to the map. -/
theorem Inv.step {e : ClientEvent} (ha : e.answers.Succeeds)
    (hstep : step iface s e = .ok (s', res)) :
    s'.Inv iface ∧ s'.map iface = (s.map iface).apply iface e := by
  cases e with
  | hdrInit a mac =>
    obtain rfl := (ok_pair hstep).1
    exact h.step_hdrInit ha mac
  | ipaddr a data =>
    obtain rfl := (ok_pair hstep).1
    exact h.step_ipaddr a data
  | routeRule a mac t =>
    obtain rfl := (ok_pair hstep).1
    exact h.step_routeRule ha mac t
  | down a mac =>
    obtain rfl := (ok_pair hstep).1
    exact h.step_down ha mac

end

/-- What the events of a run do to the map. -/
def spec (iface : EthIface) (tr : List (ClientEvent × Bool)) : EthMap :=
  tr.foldl (fun m x => m.apply iface x.1) EthMap.empty

/-- **The clients of an interface**, in every run in which the ioctls succeed: the array is the map
    that the events make, with as many clients, of different MAC addresses; and when a client goes,
    the others keep what they have. -/
theorem run_eth_clients {tr : List (ClientEvent × Bool)}
    (run : Run (EthTable.step iface) (fun _ e => e.answers.Succeeds) init tr s) :
    s.map iface = spec iface tr ∧ s.numEthClient = (spec iface tr).clients.length ∧
    s.numEthClient ≤ maxNumEthClients ∧ ((spec iface tr).clients.map Client.mac).Nodup ∧
    (∀ mac, (spec iface tr).lookup mac =
      (s.getEthClientIndex mac).map fun i => view iface (s.ethClient i)) ∧
    ∀ a mac s' res, a.Succeeds → EthTable.step iface s (.down a mac) = .ok (s', res) →
      ∀ mac', ((s'.getEthClientIndex mac').map fun i => view iface (s'.ethClient i)) =
        if mac' = mac then none
        else (s.getEthClientIndex mac').map fun i => view iface (s.ethClient i) := by
  obtain ⟨h, hmap⟩ : s.Inv iface ∧ s.map iface = spec iface tr := by
    refine run.invariant (fun tr s => s.Inv iface ∧ s.map iface = spec iface tr) ?_ ?_
    · exact ⟨inv_init iface, rfl⟩
    · intro tr s e s' res ⟨h, hmap⟩ ha hstep
      obtain ⟨h', hmap'⟩ := h.step ha hstep
      refine ⟨h', ?_⟩
      rw [hmap', hmap, spec, spec, List.foldl_append]
      rfl
  refine ⟨hmap, ?_, h.num, ?_, ?_, ?_⟩
  · rw [← hmap, length_map]
  · rw [← hmap]
    exact h.macs
  · intro mac
    rw [← hmap, lookup_map]
  · intro a mac s' res ha hstep mac'
    have hmap' := (h.step (e := .down a mac) ha hstep).2
    rw [← lookup_map, ← lookup_map, hmap']
    by_cases hmac : mac' = mac
    · rw [if_pos hmac, hmac]
      exact record_discard_self h.macs mac
    · rw [if_neg hmac]
      exact record_discard_of_ne hmac

/-! ### An example -/

/-- An interface with a TX property for each version. -/
def usb : EthIface := ⟨some [⟨.v4, "usb_v4", 16⟩, ⟨.v6, "usb_v6", 16⟩], 2, none, 255⟩

/-- The driver gives out the handles. -/
def answers (hdr rt : Hdl) : Answers where
  copyHeader := fun _ => some ⟨List.replicate 14 0, true, 0⟩
  addHeader := fun _ => some (hdr + 1)
  addRoutingRule := fun i _ => some (rt + BitVec.ofNat 32 i)
  deleteRoutingHdl := fun _ => true
  deleteHeaderHdl := fun _ => true

theorem answers_succeeds {hdr rt : Hdl} (hne : hdr + 1 ≠ 0) : (answers hdr rt).Succeeds where
  copyHeader := by simp [answers]
  addHeader := fun _ => ⟨hdr + 1, rfl, hne⟩
  addRoutingRule := by simp [answers]
  deleteRoutingHdl := fun _ => rfl
  deleteHeaderHdl := fun _ => rfl

/-- Two clients come, and the second one gets addresses and rules; the first one goes. -/
def comings : List ClientEvent :=
  [.hdrInit (answers 10 0) 1, .hdrInit (answers 11 0) 2,
    .ipaddr (answers 0 0) ⟨.v4, 2, 0xC0A80102, ⟨0, 0, 0, 0⟩⟩, .routeRule (answers 0 20) 2 .v4,
    .ipaddr (answers 0 0) ⟨.v6, 2, 0, ⟨0xFE800000, 0, 0, 2⟩⟩, .routeRule (answers 0 30) 2 .v6,
    .down (answers 0 0) 1]

/-- What is left. -/
def left : EthMap where
  clients := [{
    mac := 2
    hdrV4 := some 12
    hdrV6 := some 12
    v4Addr := some 0xC0A80102
    v6Addr := [⟨0xFE800000, 0, 0, 2⟩]
    routeV4 := some [20]
    routeV6 := [[(31, 31)]] }]
  headerNameCount := 2

theorem run_eth_clients_left : ∃ tr s,
    Run (EthTable.step usb) (fun _ e => e.answers.Succeeds) init tr s ∧ s.map usb = left ∧
    spec usb tr = left := by
  have hsucceeds : ∀ e ∈ comings, e.answers.Succeeds := by
    intro e he
    simp only [comings, List.mem_cons, List.not_mem_nil, or_false] at he
    rcases he with rfl | rfl | rfl | rfl | rfl | rfl | rfl <;> exact answers_succeeds (by decide)
  obtain ⟨tr, s, run, hmap⟩ : ∃ tr s,
      Run (EthTable.step usb) (fun _ e => e.answers.Succeeds) init tr s ∧ s.map usb = left :=
    Run.exists_of_exec (C := fun e : ClientEvent => e.answers.Succeeds)
      (show (exec (EthTable.step usb) init comings).toOption.map _ = _ by decide +kernel) hsucceeds
  exact ⟨tr, s, run, hmap, (run_eth_clients run).1.symm.trans hmap⟩

end EthTable

end Nx508j.Ipacm.EthClients
