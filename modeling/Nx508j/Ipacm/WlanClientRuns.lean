import Nx508j.Ipacm.WlanClientMap

/-! # The table of the clients of a WLAN interface

An event does to the array what it should do to the map, just if a client that comes has a MAC
address of no client, and the clients that move down when one goes have the flags of the entries
that they move to. So it is in whole runs. -/

namespace Nx508j.Ipacm.WlanClients

open Nx508j.Lib EthClients Function
open HdrNames (maxNumWifiClients)
open Lan2Lan (IpType Mac Hdl)

variable {iface : WlanIface} {a : Answers} {c : WlanClient} {i : Nat}

namespace WlanTable

variable {s s' : WlanTable} {mac : Mac}

/-- **The invariant.** -/
structure Inv (iface : WlanIface) (s : WlanTable) : Prop where
  hdrs : ∀ i, Hdrs iface.eth (s.wlanClient i).toEthClient
  good : ∀ i < s.numWifiClient, Good iface.eth (s.wlanClient i).toEthClient
  tx : s.numWifiClient ≠ 0 → iface.txProp ≠ none
  total : s.totalNumWifiClients = s.numWifiClient + s.others
  num : s.numWifiClient ≤ maxNumWifiClients
  macs : ((s.map iface).clients.map WlanEntry.mac).Nodup
  quiet : ∀ e ∈ (s.map iface).clients, Quiet e

@[simp] theorem length_map : (s.map iface).clients.length = s.numWifiClient := length_live

theorem wlanClient_set_self (s : WlanTable) (i : Nat) (c : WlanClient) :
    (s.set i c).wlanClient i = c := update_self ..

theorem wlanClient_set_of_ne {i j : Nat} (h : j ≠ i) :
    (s.set i c).wlanClient j = s.wlanClient j := update_of_ne h ..

theorem lookup_map (iface : WlanIface) (s : WlanTable) (mac : Mac) : (s.map iface).lookup mac =
    (s.getWlanClientIndex mac).map fun i => view iface (s.wlanClient i) :=
  record_live

theorem lookup_eq_none (iface : WlanIface) : (s.map iface).lookup mac = none ↔
    s.getWlanClientIndex mac = none := by
  rw [lookup_map, Option.map_eq_none_iff]

theorem lt_of_index (h : s.getWlanClientIndex mac = some i) : i < s.numWifiClient :=
  (indexOf?_eq_some.1 h).1

theorem map_set_of_le (iface : WlanIface) (c : WlanClient) (h : s.numWifiClient ≤ i) :
    (s.set i c).map iface = s.map iface := by
  have hlive : live s.numWifiClient (fun j => view iface ((s.set i c).wlanClient j)) =
      live s.numWifiClient fun j => view iface (s.wlanClient j) := by
    refine live_congr fun j hj => ?_
    rw [wlanClient_set_of_ne (Nat.ne_of_lt (Nat.lt_of_lt_of_le hj h))]
  exact congrArg (WlanMap.mk · s.headerNameCount s.others) hlive

theorem map_set (hi : s.getWlanClientIndex mac = some i) {f : WlanEntry → WlanEntry}
    (hview : view iface c = f (view iface (s.wlanClient i))) :
    (s.set i c).map iface =
      { s.map iface with clients := amend WlanEntry.mac f mac (s.map iface).clients } := by
  refine congrArg (WlanMap.mk · s.headerNameCount s.others) (live_amend hi fun j _ => ?_)
  by_cases hj : j = i
  · subst hj
    rw [if_pos rfl, wlanClient_set_self, hview]
  · rw [if_neg hj, wlanClient_set_of_ne hj]

theorem set_set (s : WlanTable) (i : Nat) (c c' : WlanClient) :
    (s.set i c).set i c' = s.set i c' := by
  unfold set
  rw [update_idem]

theorem set_self (s : WlanTable) (i : Nat) : s.set i (s.wlanClient i) = s := by
  unfold set
  rw [update_eq_self]

theorem amend_of_index_none (h : s.getWlanClientIndex mac = none) (f : WlanEntry → WlanEntry) :
    { s.map iface with clients := amend WlanEntry.mac f mac (s.map iface).clients } =
      s.map iface := by
  rw [amend_of_none ((lookup_eq_none iface).2 h)]

theorem index_set (hi : s.getWlanClientIndex mac = some i) (hc : c.mac = (s.wlanClient i).mac) :
    (s.set i c).getWlanClientIndex mac = some i := by
  obtain ⟨hlt, hmac, hbefore⟩ := indexOf?_eq_some.1 hi
  refine indexOf?_eq_some.2 ⟨hlt, ?_, fun j hj => ?_⟩
  · rw [wlanClient_set_self, hc]
    exact hmac
  · rw [wlanClient_set_of_ne (Nat.ne_of_lt hj)]
    exact hbefore j hj

theorem Inv.hdrs_set (h : s.Inv iface) (hc : Hdrs iface.eth c.toEthClient) (i j : Nat) :
    Hdrs iface.eth ((s.set i c).wlanClient j).toEthClient := by
  by_cases hj : j = i
  · subst hj
    rwa [wlanClient_set_self]
  · rw [wlanClient_set_of_ne hj]
    exact h.hdrs j

theorem Inv.set (h : s.Inv iface) (hi : s.getWlanClientIndex mac = some i)
    {f : WlanEntry → WlanEntry} (hf : ∀ e, (f e).mac = e.mac) (hquiet : ∀ e, Quiet e → Quiet (f e))
    (hc : Is iface c (f (view iface (s.wlanClient i)))) :
    (s.set i c).Inv iface ∧ (s.set i c).map iface =
      { s.map iface with clients := amend WlanEntry.mac f mac (s.map iface).clients } := by
  have hmap := map_set hi hc.2
  refine ⟨⟨h.hdrs_set hc.1.toHdrs i, fun j hj => ?_, h.tx, h.total, h.num, ?_, ?_⟩, hmap⟩
  · by_cases hji : j = i
    · subst hji
      rw [wlanClient_set_self]
      exact hc.1
    · rw [wlanClient_set_of_ne hji]
      exact h.good j hj
  · rw [hmap]
    rw [map_key_amend hf]
    exact h.macs
  · rw [hmap]
    intro e he
    rcases mem_amend he with he | ⟨e', he', rfl⟩
    · exact h.quiet e he
    · exact hquiet e' (h.quiet e' he')

theorem Inv.set_of_le (h : s.Inv iface) (hi : s.numWifiClient ≤ i)
    (hc : Hdrs iface.eth c.toEthClient) :
    (s.set i c).Inv iface ∧ (s.set i c).map iface = s.map iface := by
  have hmap := map_set_of_le iface c hi
  refine ⟨⟨h.hdrs_set hc i, fun j hj => ?_, h.tx, h.total, h.num, ?_, ?_⟩, hmap⟩
  · rw [wlanClient_set_of_ne (Nat.ne_of_lt (Nat.lt_of_lt_of_le hj hi))]
    exact h.good j hj
  · rw [hmap]
    exact h.macs
  · rw [hmap]
    exact h.quiet

theorem handleRouteRule_eq (htx : iface.txProp ≠ none) (hi : s.getWlanClientIndex mac = some i)
    (a : Answers) (t : IpType) : (s.handleWlanClientRouteRule iface a mac t).1 =
      s.set i ((s.wlanClient i).routeRule iface a t) := by
  unfold handleWlanClientRouteRule WlanClient.routeRule
  rw [if_neg htx, hi]
  dsimp only
  split
  · exact (s.set_self i).symm
  · rfl

theorem Inv.tx_ne (h : s.Inv iface) (hi : s.getWlanClientIndex mac = some i) :
    iface.txProp ≠ none :=
  h.tx (Nat.ne_of_gt (Nat.lt_of_le_of_lt (Nat.zero_le i) (lt_of_index hi)))

theorem Inv.ipaddr_eq (h : s.Inv iface) {data : EventDataAll}
    (hi : s.getWlanClientIndex data.macAddr = some i) (addr rule : Answers) :
    (s.neighClientIpAddrAdd iface addr rule data).1 =
      s.set i ((s.wlanClient i).ipaddr iface addr rule data) := by
  have his := ipaddr_is (h.good i (lt_of_index hi)) addr data
  have hmac : ((s.wlanClient i).onEth (·.handleIpaddr iface.eth addr data)).1.mac =
      (s.wlanClient i).mac := (congrArg WlanEntry.mac his.2).trans (Client.ipaddr_mac ..)
  unfold neighClientIpAddrAdd handleWlanClientIpaddr WlanClient.ipaddr
  rw [hi]
  dsimp only
  have hres : ((s.wlanClient i).onEth (·.handleIpaddr iface.eth addr data)).2 =
      ((s.wlanClient i).toEthClient.handleIpaddr iface.eth addr data).2 := rfl
  rw [hres]
  cases (((s.wlanClient i).toEthClient.handleIpaddr iface.eth addr data)).2 with
  | false => rfl
  | true =>
    rw [handleRouteRule_eq (h.tx_ne hi) (index_set hi hmac), set_set, wlanClient_set_self]
    rfl

theorem Inv.step_ipaddr (h : s.Inv iface) (addr : Answers) {rule : Answers} (hrule : rule.Succeeds)
    (data : EventDataAll) :
    (s.neighClientIpAddrAdd iface addr rule data).1.Inv iface ∧
      (s.neighClientIpAddrAdd iface addr rule data).1.map iface =
        (s.map iface).apply iface (.ipaddr addr rule data) := by
  cases hindex : s.getWlanClientIndex data.macAddr with
  | none =>
    unfold neighClientIpAddrAdd handleWlanClientIpaddr
    rw [hindex]
    exact ⟨h, (amend_of_index_none hindex _).symm⟩
  | some i =>
    rw [h.ipaddr_eq hindex]
    exact h.set hindex (ipaddr_mac iface rule data) (fun _ => ipaddr_quiet iface rule data)
      (clientIpaddr_is (h.good i (lt_of_index hindex)) hrule data)

theorem Inv.step_powerSave (h : s.Inv iface) (ha : a.Succeeds) (mac : Mac) :
    (s.handleWlanClientPwrsave iface a mac).1.Inv iface ∧
      (s.handleWlanClientPwrsave iface a mac).1.map iface =
        (s.map iface).apply iface (.powerSave a mac) := by
  unfold handleWlanClientPwrsave
  cases hindex : s.getWlanClientIndex mac with
  | none => exact ⟨h, (amend_of_index_none hindex _).symm⟩
  | some i =>
    refine h.set hindex (fun e => ?_) (fun e he => ?_)
      (pwrsave_is (h.good i (lt_of_index hindex)) ha)
    · split <;> rfl
    · split
      · exact he
      · exact fun _ => ⟨rfl, rfl⟩

theorem recoverRules_eq (htx : iface.txProp ≠ none) (hi : s.getWlanClientIndex mac = some i)
    {rule4 : Answers} (h4 : rule4.Succeeds) (rule6 : Answers) (hgood : Good iface.eth c.toEthClient)
    (hmac : c.mac = (s.wlanClient i).mac) {s₁ : WlanTable} {c₁ : WlanClient}
    (hs₁ : s₁ = if c.ipv4Set then ((s.set i c).handleWlanClientRouteRule iface rule4 mac .v4).1
      else s.set i c)
    (hc₁ : c₁ = if c.ipv4Set then c.routeRule iface rule4 .v4 else c) :
    (if (s₁.wlanClient i).ipv6Set ≠ 0 then s₁.handleWlanClientRouteRule iface rule6 mac .v6
      else (s₁, true)).1 =
      s.set i (if c₁.ipv6Set ≠ 0 then c₁.routeRule iface rule6 .v6 else c₁) := by
  -- after the rules for IPv4 the client is where it was
  obtain ⟨rfl, hmac₁⟩ : s₁ = s.set i c₁ ∧ c₁.mac = (s.wlanClient i).mac := by
    subst hs₁ hc₁
    split
    · rw [handleRouteRule_eq htx (index_set hi hmac), set_set, wlanClient_set_self]
      have his := routeRule_is ⟨hgood, rfl⟩ h4 .v4
      exact ⟨rfl, ((congrArg WlanEntry.mac his.2).trans (routeRule_mac ..)).trans hmac⟩
    · exact ⟨rfl, hmac⟩
  rw [wlanClient_set_self]
  split
  · rw [handleRouteRule_eq htx (index_set hi hmac₁), set_set, wlanClient_set_self]
  · rfl

theorem Inv.recover_eq (h : s.Inv iface) (hi : s.getWlanClientIndex mac = some i)
    {rule4 : Answers} (h4 : rule4.Succeeds) (rule6 : Answers) :
    (s.wlanClientRecover iface rule4 rule6 mac).1 =
      s.set i ((s.wlanClient i).recover iface rule4 rule6) := by
  unfold wlanClientRecover WlanClient.recover
  rw [hi]
  dsimp only
  by_cases hpower : (s.wlanClient i).powerSaveSet = true
  · rw [if_pos hpower, if_pos hpower, wlanClient_set_self]
    exact recoverRules_eq (c := { s.wlanClient i with powerSaveSet := false }) (h.tx_ne hi) hi h4
      rule6 (h.good i (lt_of_index hi)) rfl rfl rfl
  · rw [if_neg hpower, if_neg hpower, set_self]

theorem Inv.step_recover (h : s.Inv iface) {rule4 rule6 : Answers} (h4 : rule4.Succeeds)
    (h6 : rule6.Succeeds) (mac : Mac) :
    (s.wlanClientRecover iface rule4 rule6 mac).1.Inv iface ∧
      (s.wlanClientRecover iface rule4 rule6 mac).1.map iface =
        (s.map iface).apply iface (.recover rule4 rule6 mac) := by
  cases hindex : s.getWlanClientIndex mac with
  | none =>
    unfold wlanClientRecover
    rw [hindex]
    exact ⟨h, (amend_of_index_none hindex _).symm⟩
  | some i =>
    rw [h.recover_eq hindex h4]
    exact h.set hindex (recover_mac iface rule4 rule6) (fun _ => recover_quiet iface rule4 rule6)
      (recover_is (h.good i (lt_of_index hindex)) h4 h6)

/-! ### A client goes -/

theorem live_eq_iff {α : Type} {n : Nat} {f g : Nat → α} :
    live n f = live n g ↔ ∀ i < n, f i = g i := by
  unfold live
  rw [List.map_inj_left]
  simp only [List.mem_range]

theorem discard_map (hi : s.getWlanClientIndex mac = some i) :
    discard WlanEntry.mac (s.map iface).clients mac =
      live (s.numWifiClient - 1) fun j =>
        if j < i then view iface (s.wlanClient j) else view iface (s.wlanClient (j + 1)) := by
  have hindex : indexOf? WlanEntry.mac s.numWifiClient (fun j => view iface (s.wlanClient j)) mac =
      some i := hi
  exact (live_discard hindex fun _ _ => rfl).symm

theorem Inv.down_eq (h : s.Inv iface) (ha : a.Succeeds) (hi : s.getWlanClientIndex mac = some i) :
    ∃ slots, (s.handleWlanClientDownEvt iface a mac).1 =
        { s with
          wlanClient := slots
          numWifiClient := s.numWifiClient - 1
          totalNumWifiClients := s.totalNumWifiClients - 1 } ∧
      (∀ j, Hdrs iface.eth (slots j).toEthClient) ∧
      ∀ j, j + 1 < s.numWifiClient → Good iface.eth (slots j).toEthClient ∧
        view iface (slots j) = if j < i then view iface (s.wlanClient j)
          else { view iface (s.wlanClient (j + 1)) with
            powerSave := (s.wlanClient j).powerSaveSet } := by
  obtain ⟨c, hdown, hc⟩ := (h.hdrs i).handleDown ha
  have hgone : (s.wlanClient i).onEth (·.handleDown iface.eth a) =
      ({ s.wlanClient i with toEthClient := c }, true) := by
    unfold WlanClient.onEth
    dsimp only
    rw [hdown]
  generalize hd : ({ s.wlanClient i with toEthClient := c } : WlanClient) = d at hgone
  have hflag : ∀ j, ((s.set i d).wlanClient j).powerSaveSet = (s.wlanClient j).powerSaveSet := by
    intro j
    by_cases hj : j = i
    · subst hj
      rw [wlanClient_set_self, ← hd]
    · rw [wlanClient_set_of_ne hj]
  -- an entry is as it was, or has the client of the next one
  have hentry : ∀ j, shiftDown (WlanClient.moveDown iface) (s.numWifiClient - 1 - i) i
      (s.set i d).wlanClient j =
        if i ≤ j ∧ j + 1 < s.numWifiClient then
          WlanClient.moveDown iface ((s.set i d).wlanClient j) (s.wlanClient (j + 1))
        else (s.set i d).wlanClient j := by
    intro j
    rw [shiftDown_apply]
    by_cases hj : i ≤ j ∧ j + 1 < s.numWifiClient
    · rw [if_pos (by omega), if_pos hj, wlanClient_set_of_ne (j := j + 1) (by omega)]
    · rw [if_neg (by omega), if_neg hj]
  refine ⟨shiftDown (WlanClient.moveDown iface) (s.numWifiClient - 1 - i) i (s.set i d).wlanClient,
    ?_, fun j => ?_, fun j hj => ?_⟩
  · unfold handleWlanClientDownEvt
    rw [hi]
    dsimp only
    rw [hgone]
  · rw [hentry]
    split
    · exact (h.hdrs (j + 1)).moveDown
    · refine h.hdrs_set ?_ i j
      rw [← hd]
      exact hc
  · rw [hentry]
    by_cases hij : i ≤ j
    · rw [if_pos ⟨hij, hj⟩, if_neg (by omega), view_moveDown, hflag]
      exact ⟨(h.good (j + 1) hj).moveDown, rfl⟩
    · rw [if_neg (by omega), if_pos (by omega), wlanClient_set_of_ne (by omega)]
      exact ⟨h.good j (by omega), rfl⟩

theorem meets_delete : Meets iface s (.delete a mac) ↔ ∀ i ∈ s.getWlanClientIndex mac,
    ∀ j, i ≤ j → j + 1 < s.numWifiClient →
      (s.wlanClient j).powerSaveSet = (s.wlanClient (j + 1)).powerSaveSet := Iff.rfl

theorem Inv.step_delete (h : s.Inv iface) (ha : a.Succeeds) (mac : Mac) :
    ((s.handleWlanClientDownEvt iface a mac).1.map iface =
        (s.map iface).apply iface (.delete a mac) ↔ Meets iface s (.delete a mac)) ∧
      (Meets iface s (.delete a mac) → (s.handleWlanClientDownEvt iface a mac).1.Inv iface) := by
  cases hindex : s.getWlanClientIndex mac with
  | none =>
    have hsame : (s.handleWlanClientDownEvt iface a mac).1 = s := by
      unfold handleWlanClientDownEvt
      rw [hindex]
    have happly : (s.map iface).apply iface (.delete a mac) = s.map iface := by
      change { s.map iface with clients := discard WlanEntry.mac (s.map iface).clients mac } = _
      rw [discard_of_none ((lookup_eq_none iface).2 hindex)]
    rw [hsame, happly]
    refine ⟨iff_of_true rfl (meets_delete.2 fun i hi => ?_), fun _ => h⟩
    rw [hindex] at hi
    cases hi
  | some i =>
    obtain ⟨slots, hs', hhdrs, hslots⟩ := h.down_eq ha hindex
    have hlt := lt_of_index hindex
    have hmeets : Meets iface s (.delete a mac) ↔ ∀ j, i ≤ j → j + 1 < s.numWifiClient →
        (s.wlanClient j).powerSaveSet = (s.wlanClient (j + 1)).powerSaveSet := by
      rw [meets_delete, hindex]
      simp only [Option.mem_some_iff, forall_eq']
    have hclients : live (s.numWifiClient - 1) (fun j => view iface (slots j)) =
        discard WlanEntry.mac (s.map iface).clients mac ↔ Meets iface s (.delete a mac) := by
      rw [discard_map hindex, live_eq_iff, hmeets]
      constructor
      · intro hall j hij hj
        have hj' := hall j (by omega)
        rw [(hslots j hj).2, if_neg (by omega), if_neg (by omega)] at hj'
        exact congrArg WlanEntry.powerSave hj'
      · intro hflags j hj
        rw [(hslots j (by omega)).2]
        by_cases hij : j < i
        · rw [if_pos hij, if_pos hij]
        · rw [if_neg hij, if_neg hij, hflags j (by omega) (by omega)]
          rfl
    have hmap : (s.handleWlanClientDownEvt iface a mac).1.map iface =
        ⟨live (s.numWifiClient - 1) fun j => view iface (slots j), s.headerNameCount,
          s.others⟩ := by
      rw [hs']
      rfl
    have hiff : (s.handleWlanClientDownEvt iface a mac).1.map iface =
        (s.map iface).apply iface (.delete a mac) ↔ Meets iface s (.delete a mac) := by
      rw [← hclients, hmap]
      exact ⟨fun heq => congrArg WlanMap.clients heq,
        fun heq => congrArg (WlanMap.mk · s.headerNameCount s.others) heq⟩
    refine ⟨hiff, fun hm => ?_⟩
    have hclients := congrArg WlanMap.clients (hiff.2 hm)
    refine ⟨?_, ?_, ?_, ?_, ?_, ?_, ?_⟩
    · rw [hs']
      exact hhdrs
    · rw [hs']
      intro j hj
      dsimp only at hj ⊢
      exact (hslots j (by omega)).1
    · exact fun _ => h.tx_ne hindex
    · rw [hs']
      have htotal := h.total
      dsimp only
      omega
    · rw [hs']
      exact (Nat.sub_le ..).trans h.num
    · rw [hclients]
      exact nodup_discard h.macs mac
    · rw [hclients]
      exact fun e he => h.quiet e (mem_of_mem_discard he)

/-! ### A client comes -/

/-- The table with a client after those in use. -/
def push (s : WlanTable) (c : WlanClient) : WlanTable :=
  { s.set s.numWifiClient c with
    numWifiClient := s.numWifiClient + 1
    headerNameCount := s.headerNameCount + 1
    totalNumWifiClients := s.totalNumWifiClients + 1 }

theorem map_push (iface : WlanIface) (s : WlanTable) (c : WlanClient) : (s.push c).map iface =
    ⟨(s.map iface).clients ++ [view iface c], s.headerNameCount + 1, s.others⟩ := by
  have hold : (s.set s.numWifiClient c).map iface = s.map iface := map_set_of_le iface c le_rfl
  have hlive : live (s.numWifiClient + 1)
      (fun j => view iface ((s.set s.numWifiClient c).wlanClient j)) =
      (s.map iface).clients ++ [view iface c] := by
    rw [live_succ, wlanClient_set_self, ← hold]
    rfl
  exact congrArg (WlanMap.mk · (s.headerNameCount + 1) s.others) hlive

theorem Inv.push (h : s.Inv iface) {e : WlanEntry} (hc : Is iface c e) (hquiet : Quiet e)
    (htx : iface.txProp ≠ none) (hnew : s.getWlanClientIndex e.mac = none)
    (hnum : s.numWifiClient < maxNumWifiClients) : (s.push c).Inv iface := by
  have hclients : ((s.push c).map iface).clients = (s.map iface).clients ++ [e] := by
    rw [map_push, hc.2]
  refine ⟨h.hdrs_set hc.1.toHdrs _, fun j hj => ?_, fun _ => htx, ?_, hnum, ?_, ?_⟩
  · unfold WlanTable.push
    by_cases hjn : j = s.numWifiClient
    · subst hjn
      rw [wlanClient_set_self]
      exact hc.1
    · rw [wlanClient_set_of_ne hjn]
      exact h.good j (Nat.lt_of_le_of_ne (Nat.le_of_lt_succ hj) hjn)
  · have htotal := h.total
    unfold WlanTable.push WlanTable.set
    dsimp only
    omega
  · -- the MAC address is of no client that is there
    have hnot := record_eq_none.1 ((lookup_eq_none iface).2 hnew)
    rw [hclients, List.map_append, List.nodup_append]
    refine ⟨h.macs, List.nodup_singleton _, ?_⟩
    rintro m hm _ hmac rfl
    rw [List.map_cons, List.map_nil, List.mem_singleton] at hmac
    subst hmac
    exact hnot hm
  · rw [hclients]
    intro e' he'
    rcases List.mem_append.1 he' with he' | he'
    · exact h.quiet e' he'
    · rw [List.mem_singleton] at he'
      subst he'
      exact hquiet

theorem Inv.init_of_not_comes (h : s.Inv iface) (ha : a.Succeeds) {attribs : List WlanHdrAttrib}
    (hcomes : ¬ Comes iface s a attribs) :
    (s.handleWlanClientInitEx iface a attribs).1.Inv iface ∧
      (s.handleWlanClientInitEx iface a attribs).1.map iface = s.map iface := by
  have htotal := h.total
  unfold handleWlanClientInitEx
  by_cases hfull : maxNumWifiClients ≤ s.numWifiClient ∨ maxNumWifiClients ≤ s.totalNumWifiClients
  · rw [if_pos hfull]
    exact ⟨h, rfl⟩
  rw [if_neg hfull]
  by_cases htx : iface.txProp = none
  · rw [if_pos htx]
    exact ⟨h, rfl⟩
  rw [if_neg htx]
  by_cases hcalloc : a.calloc = false
  · rw [if_pos hcalloc]
    exact ⟨h, rfl⟩
  rw [if_neg hcalloc]
  -- the entry after those in use is written
  have hdrs : Hdrs iface.eth
      { s.wlanClient s.numWifiClient with pHdrInfo := attribs }.toEthClient :=
    h.hdrs s.numWifiClient
  dsimp only
  cases h4 : wlanHdrHdl iface a s.headerNameCount attribs .v4 with
  | none =>
    obtain ⟨mac, hadd⟩ := addHdr_none
      { s.wlanClient s.numWifiClient with pHdrInfo := attribs } h4
    rw [hadd]
    exact h.set_of_le le_rfl ⟨hdrs.v4, hdrs.v6⟩
  | some hdrV4 =>
    rw [addHdr_some _ h4]
    dsimp only
    cases h6 : wlanHdrHdl iface a s.headerNameCount attribs .v6 with
    | none =>
      obtain ⟨mac, hadd⟩ := addHdr_none _ h6
      rw [hadd]
      have hmac : Hdrs iface.eth
          ({ (s.wlanClient s.numWifiClient).toEthClient with
            mac := if iface.eth.txOf .v4 = [] then (s.wlanClient s.numWifiClient).mac
              else attribsMac attribs (s.wlanClient s.numWifiClient).mac }) :=
        ⟨hdrs.v4, hdrs.v6⟩
      have hheaded := hmac.setHdr (wlanHdrHdl_spec ha h4)
      exact h.set_of_le le_rfl ⟨hheaded.v4, hheaded.v6⟩
    | some hdrV6 =>
      refine absurd ⟨?_, htx, by simpa using hcalloc, fun t => ?_⟩ hcomes
      · omega
      · cases t with
        | v4 => simp [h4]
        | v6 => simp [h6]

theorem init_of_comes (ha : a.Succeeds) {attribs : List WlanHdrAttrib}
    (hdrs : Hdrs iface.eth (s.wlanClient s.numWifiClient).toEthClient)
    (htotal : s.totalNumWifiClients = s.numWifiClient + s.others)
    (hcomes : Comes iface s a attribs) {hdrV4 hdrV6 : Option Hdl}
    (h4 : wlanHdrHdl iface a s.headerNameCount attribs .v4 = some hdrV4)
    (h6 : wlanHdrHdl iface a s.headerNameCount attribs .v6 = some hdrV6) :
    ∃ c mac, (s.handleWlanClientInitEx iface a attribs).1 = s.push c ∧
      Is iface c ⟨{ mac, hdrV4, hdrV6 }, attribs, false⟩ ∧
      (iface.eth.tx ≠ [] → ∀ m ∈ givenMac attribs, mac = m) := by
  obtain ⟨hroom, htx, hcalloc, -⟩ := hcomes
  obtain ⟨c₄, c₆, hc₄, hc₆, his⟩ := start_is (c := { s.wlanClient s.numWifiClient with
    pHdrInfo := attribs }) ha hdrs h4 h6
  refine ⟨_, _, ?_, his, ?_⟩
  · unfold handleWlanClientInitEx
    rw [if_neg (by omega), if_neg htx, if_neg (by simp [hcalloc])]
    dsimp only
    rw [hc₄]
    dsimp only
    rw [hc₆]
    rfl
  · intro htx' m hm
    rw [if_neg htx', hm]
    rfl

theorem insert_of_not_comes {attribs : List WlanHdrAttrib} (hcomes : ¬ Comes iface s a attribs) :
    (s.map iface).insert iface a attribs = s.map iface := by
  unfold WlanMap.insert
  rw [length_map]
  split
  · rfl
  · next hroom =>
    simp only [not_or, not_le] at hroom
    obtain ⟨hroom, htx, hcalloc⟩ := hroom
    split
    · next h4 h6 _ =>
      refine absurd ⟨hroom, htx, by simpa using hcalloc, fun t => ?_⟩ hcomes
      have hcount : (s.map iface).headerNameCount = s.headerNameCount := rfl
      rw [hcount] at h4 h6
      cases t with
      | v4 => simp [h4]
      | v6 => simp [h6]
    · rfl

theorem insert_of_comes {attribs : List WlanHdrAttrib} (hcomes : Comes iface s a attribs)
    {hdrV4 hdrV6 : Option Hdl}
    (h4 : wlanHdrHdl iface a s.headerNameCount attribs .v4 = some hdrV4)
    (h6 : wlanHdrHdl iface a s.headerNameCount attribs .v6 = some hdrV6) :
    (s.map iface).insert iface a attribs =
      match givenMac attribs with
      | none => s.map iface
      | some mac =>
        if iface.eth.tx = [] ∨ (s.getWlanClientIndex mac).isSome then s.map iface
        else ⟨(s.map iface).clients ++ [⟨{ mac, hdrV4, hdrV6 }, attribs, false⟩],
          s.headerNameCount + 1, s.others⟩ := by
  obtain ⟨hroom, htx, hcalloc, -⟩ := hcomes
  have hcount : (s.map iface).headerNameCount = s.headerNameCount := rfl
  have hothers : (s.map iface).others = s.others := rfl
  unfold WlanMap.insert
  rw [length_map, hcount, hothers, if_neg (by simp [hroom, htx, hcalloc]), h4, h6]
  cases givenMac attribs with
  | none => rfl
  | some mac =>
    dsimp only
    rw [lookup_map, Option.isSome_map]

theorem Inv.step_add (h : s.Inv iface) (ha : a.Succeeds) (attribs : List WlanHdrAttrib) :
    ((s.handleWlanClientInitEx iface a attribs).1.map iface =
        (s.map iface).apply iface (.add a attribs) ↔ Meets iface s (.add a attribs)) ∧
      (Meets iface s (.add a attribs) →
        (s.handleWlanClientInitEx iface a attribs).1.Inv iface) := by
  have happly : (s.map iface).apply iface (.add a attribs) =
    (s.map iface).insert iface a attribs := rfl
  have hmeets : Meets iface s (.add a attribs) ↔ (Comes iface s a attribs → iface.eth.tx ≠ [] ∧
    ∃ mac ∈ givenMac attribs, s.getWlanClientIndex mac = none) := Iff.rfl
  rw [happly, hmeets]
  by_cases hcomes : Comes iface s a attribs
  · obtain ⟨hdrV4, h4⟩ := Option.ne_none_iff_exists'.1 (hcomes.2.2.2 .v4)
    obtain ⟨hdrV6, h6⟩ := Option.ne_none_iff_exists'.1 (hcomes.2.2.2 .v6)
    obtain ⟨c, mac, hs', his, hmac⟩ :=
      init_of_comes ha (h.hdrs s.numWifiClient) h.total hcomes h4 h6
    rw [hs', insert_of_comes hcomes h4 h6, map_push, his.2]
    by_cases hfresh : iface.eth.tx ≠ [] ∧
        ∃ mac ∈ givenMac attribs, s.getWlanClientIndex mac = none
    · obtain ⟨htx, m, hgiven, hindex⟩ := hfresh
      obtain rfl := hmac htx m hgiven
      rw [Option.mem_def] at hgiven
      rw [hgiven]
      dsimp only
      rw [hindex, if_neg (by simp [htx])]
      refine ⟨iff_of_true rfl fun _ => ⟨htx, mac, rfl, hindex⟩, fun _ => ?_⟩
      exact h.push his (fun hsave => by cases hsave) hcomes.2.1 hindex (by have := hcomes.1; omega)
    · -- a client comes to the array, and none to the map
      have hsame : (match givenMac attribs with
          | none => s.map iface
          | some mac =>
            if iface.eth.tx = [] ∨ (s.getWlanClientIndex mac).isSome then s.map iface
            else ⟨(s.map iface).clients ++ [⟨{ mac, hdrV4, hdrV6 }, attribs, false⟩],
              s.headerNameCount + 1, s.others⟩) = s.map iface := by
        split
        · rfl
        · next m hgiven =>
          rw [if_pos]
          by_contra hor
          rw [not_or, Option.not_isSome_iff_eq_none] at hor
          exact hfresh ⟨hor.1, m, hgiven, hor.2⟩
      rw [hsame]
      refine ⟨iff_of_false (fun heq => ?_) fun hall => hfresh (hall hcomes), fun hall =>
        absurd (hall hcomes) hfresh⟩
      have hlength := congrArg (fun m : WlanMap => m.clients.length) heq
      rw [List.length_append] at hlength
      exact absurd hlength (by simp)
  · obtain ⟨hinv, hmap⟩ := h.init_of_not_comes ha hcomes
    rw [hmap, insert_of_not_comes hcomes]
    exact ⟨iff_of_true rfl fun hall => absurd hall hcomes, fun _ => hinv⟩

/-! ### A client of another interface -/

theorem Inv.step_other (h : s.Inv iface) (come : Bool) :
    (s.other come).Inv iface ∧ (s.other come).map iface =
      (s.map iface).apply iface (.other come) := by
  have htotal := h.total
  have hothers : (s.map iface).others = s.others := rfl
  unfold other WlanMap.apply
  dsimp only
  rw [length_map, hothers, ← htotal]
  cases come with
  | true =>
    rw [if_pos rfl, if_pos rfl]
    split
    · exact ⟨h, rfl⟩
    · refine ⟨⟨h.hdrs, h.good, h.tx, ?_, h.num, h.macs, h.quiet⟩, rfl⟩
      dsimp only
      omega
  | false =>
    rw [if_neg Bool.false_ne_true, if_neg Bool.false_ne_true]
    split
    · next hzero =>
      refine ⟨h, ?_⟩
      rw [hzero]
      exact congrArg (WlanMap.mk (s.map iface).clients s.headerNameCount) hzero
    · refine ⟨⟨h.hdrs, h.good, h.tx, ?_, h.num, h.macs, h.quiet⟩, rfl⟩
      dsimp only
      omega

/-- **A step** does to the array what it should do to the map, just if it meets the condition. -/
theorem Inv.step {e : WlanClientEvent} {res : Bool} (h : s.Inv iface) (he : e.Succeeds)
    (hstep : step iface s e = .ok (s', res)) :
    (s'.map iface = (s.map iface).apply iface e ↔ Meets iface s e) ∧
      (Meets iface s e → s'.Inv iface) := by
  cases e with
  | add a attribs =>
    obtain rfl := (ok_pair hstep).1
    exact h.step_add he attribs
  | ipaddr addr rule data =>
    obtain rfl := (ok_pair hstep).1
    obtain ⟨hinv, hmap⟩ := h.step_ipaddr addr he.2 data
    exact ⟨iff_of_true hmap trivial, fun _ => hinv⟩
  | powerSave a mac =>
    obtain rfl := (ok_pair hstep).1
    obtain ⟨hinv, hmap⟩ := h.step_powerSave he mac
    exact ⟨iff_of_true hmap trivial, fun _ => hinv⟩
  | recover rule4 rule6 mac =>
    obtain rfl := (ok_pair hstep).1
    obtain ⟨hinv, hmap⟩ := h.step_recover he.1 he.2 mac
    exact ⟨iff_of_true hmap trivial, fun _ => hinv⟩
  | delete a mac =>
    obtain rfl := (ok_pair hstep).1
    exact h.step_delete he mac
  | other come =>
    cases hstep
    obtain ⟨hinv, hmap⟩ := h.step_other come
    exact ⟨iff_of_true hmap trivial, fun _ => hinv⟩

/-! ## Runs -/

theorem inv_init (iface : WlanIface) (others : Nat) : (init others).Inv iface where
  hdrs := fun _ => ⟨fun hset => (by cases hset), fun hset => (by cases hset)⟩
  good := fun i hi => absurd hi (Nat.not_lt_zero i)
  tx := fun hne => absurd rfl hne
  total := (Nat.zero_add others).symm
  num := Nat.zero_le _
  macs := List.nodup_nil
  quiet := fun e he => by cases he

/-- What the events of a run do to the map. -/
def spec (iface : WlanIface) (others : Nat) (tr : List (WlanClientEvent × Bool)) : WlanMap :=
  tr.foldl (fun m x => m.apply iface x.1) ⟨[], 0, others⟩

theorem inv_of_run {others : Nat} {tr : List (WlanClientEvent × Bool)}
    (run : Run (WlanTable.step iface) (fun s e => e.Succeeds ∧ Meets iface s e) (init others) tr
      s) :
    s.Inv iface ∧ s.map iface = spec iface others tr := by
  refine run.invariant (fun tr s => s.Inv iface ∧ s.map iface = spec iface others tr)
    ⟨inv_init iface others, rfl⟩ fun tr s e s' res ih hmeets hstep => ?_
  obtain ⟨h, hmap⟩ := ih
  obtain ⟨he, hmeets⟩ := hmeets
  obtain ⟨hiff, hinv⟩ := h.step he hstep
  refine ⟨hinv hmeets, ?_⟩
  rw [hiff.2 hmeets, hmap, spec, spec, List.foldl_append]
  rfl

/-- **The clients of a WLAN interface**, in every run in which the ioctls succeed and every event
    meets the condition: the array is the map that the events make, the counters tell how many
    clients there are, and a client in power save has no routing rules; when a client goes, the
    others keep what they have. The next event does what it should just if it meets the condition.
    -/
theorem run_wlan_clients {others : Nat} {tr : List (WlanClientEvent × Bool)}
    (run : Run (WlanTable.step iface) (fun s e => e.Succeeds ∧ Meets iface s e) (init others) tr
      s) :
    s.map iface = spec iface others tr ∧
    ((spec iface others tr).clients.map WlanEntry.mac).Nodup ∧
    s.numWifiClient = (spec iface others tr).clients.length ∧
    s.totalNumWifiClients = (spec iface others tr).clients.length + s.others ∧
    (∀ e ∈ (spec iface others tr).clients, Quiet e) ∧
    (∀ mac, (spec iface others tr).lookup mac =
      (s.getWlanClientIndex mac).map fun i => view iface (s.wlanClient i)) ∧
    (∀ a mac s' res, a.Succeeds → Meets iface s (.delete a mac) →
      WlanTable.step iface s (.delete a mac) = .ok (s', res) →
      ∀ mac', ((s'.getWlanClientIndex mac').map fun i => view iface (s'.wlanClient i)) =
        if mac' = mac then none
        else (s.getWlanClientIndex mac').map fun i => view iface (s.wlanClient i)) ∧
    ∀ e s' res, e.Succeeds → WlanTable.step iface s e = .ok (s', res) →
      (s'.map iface = (s.map iface).apply iface e ↔ Meets iface s e) := by
  obtain ⟨h, hmap⟩ := inv_of_run run
  refine ⟨hmap, ?_, ?_, ?_, ?_, ?_, ?_, ?_⟩
  · rw [← hmap]
    exact h.macs
  · rw [← hmap, length_map]
  · rw [← hmap, length_map]
    exact h.total
  · rw [← hmap]
    exact h.quiet
  · intro mac
    rw [← hmap, lookup_map]
  · intro a mac s' res ha hmeets hstep mac'
    have hmap' := (h.step (e := .delete a mac) ha hstep).1.2 hmeets
    rw [← lookup_map, ← lookup_map, hmap']
    by_cases hmac : mac' = mac
    · rw [if_pos hmac, hmac]
      exact record_discard_self h.macs mac
    · rw [if_neg hmac]
      exact record_discard_of_ne hmac
  · intro e s' res he hstep
    exact (h.step he hstep).1

/-! ### Two clients -/

/-- An interface with a TX property for each version. -/
def wlan : WlanIface := ⟨some [⟨.v4, "wlan_v4", 16⟩, ⟨.v6, "wlan_v6", 16⟩], 2, 255⟩

/-- The attributes of a client. -/
def attribs (mac : Mac) : List WlanHdrAttrib := [.macAddr 0 mac, .staId 7 [1]]

/-- The driver gives out the handles. -/
def answers (hdr rt : Hdl) : Answers where
  copyHeader := fun _ => some ⟨List.replicate 14 0, true, 0⟩
  addHeader := fun _ => some (hdr + 1)
  addRoutingRule := fun i _ => some (rt + BitVec.ofNat 32 i)
  deleteRoutingHdl := fun _ => true
  deleteHeaderHdl := fun _ => true

theorem answers_succeeds {hdr rt : Hdl} (hne : hdr + 1 ≠ 0) : (answers hdr rt).Succeeds where
  copyHeader := by simp [answers]
  addHeader := fun _ => ⟨hdr + 1, rfl, hne⟩
  addRoutingRule := by simp [answers]
  deleteRoutingHdl := fun _ => rfl
  deleteHeaderHdl := fun _ => rfl

/-- Two clients come, the second one gets an address, and goes to power save. -/
def comings : List WlanClientEvent :=
  [.add (answers 10 0) (attribs 1), .add (answers 11 0) (attribs 2),
    .ipaddr (answers 0 0) (answers 0 20) ⟨.v4, 2, 0xC0A80102, ⟨0, 0, 0, 0⟩⟩,
    .powerSave (answers 0 0) 2]

/-- The second client, in power save. -/
def saved : WlanEntry where
  client := {
    mac := 2
    hdrV4 := some 12
    hdrV6 := some 12
    v4Addr := some 0xC0A80102 }
  attribs := attribs 2
  powerSave := true

theorem run_wlan_clients_two : ∃ tr s,
    Run (WlanTable.step wlan) (fun s e => e.Succeeds ∧ Meets wlan s e) (init 3) tr s ∧
    s.totalNumWifiClients = 5 ∧ (spec wlan 3 tr).lookup 2 = some saved := by
  have hrun : Run (WlanTable.step wlan) (fun s e => e.Succeeds ∧ Meets wlan s e) (init 3) []
    (init 3) := .nil
  have hrun := hrun.snoc (show WlanTable.step wlan _ (.add (answers 10 0) (attribs 1)) = .ok (_, _)
    from rfl) ⟨answers_succeeds (by decide), fun _ => ⟨by decide, 1, rfl, rfl⟩⟩
  have hrun := hrun.snoc (show WlanTable.step wlan _ (.add (answers 11 0) (attribs 2)) = .ok (_, _)
    from rfl) ⟨answers_succeeds (by decide), fun _ => ⟨by decide, 2, rfl, by decide +kernel⟩⟩
  have hrun := hrun.snoc (show WlanTable.step wlan _ (.ipaddr (answers 0 0) (answers 0 20)
    ⟨.v4, 2, 0xC0A80102, ⟨0, 0, 0, 0⟩⟩) = .ok (_, _) from rfl)
    ⟨⟨answers_succeeds (by decide), answers_succeeds (by decide)⟩, trivial⟩
  have hrun := hrun.snoc (show WlanTable.step wlan _ (.powerSave (answers 0 0) 2) = .ok (_, _)
    from rfl) ⟨answers_succeeds (by decide), trivial⟩
  refine ⟨_, _, hrun, (run_wlan_clients hrun).2.2.2.1, ?_⟩
  decide +kernel

theorem comings_succeed : ∀ e ∈ comings, e.Succeeds := by
  intro e he
  simp only [comings, List.mem_cons, List.not_mem_nil, or_false] at he
  rcases he with rfl | rfl | rfl | rfl
  · exact answers_succeeds (by decide)
  · exact answers_succeeds (by decide)
  · exact ⟨answers_succeeds (by decide), answers_succeeds (by decide)⟩
  · exact answers_succeeds (by decide)

/-- A client that comes again is there twice; and when the first client goes, the second is not in
    power save any more. -/
theorem wlan_clients_not_kept :
    (¬ ∀ (iface : WlanIface) (others : Nat) tr s,
      Run (WlanTable.step iface) (fun _ e => e.Succeeds) (init others) tr s →
      ((s.map iface).clients.map WlanEntry.mac).Nodup) ∧
    ¬ ∀ (iface : WlanIface) (others : Nat) tr s,
      Run (WlanTable.step iface) (fun _ e => e.Succeeds) (init others) tr s →
      ∀ a mac s' res, a.Succeeds → WlanTable.step iface s (.delete a mac) = .ok (s', res) →
      ∀ mac', mac' ≠ mac →
        ((s'.getWlanClientIndex mac').map fun i => view iface (s'.wlanClient i)) =
          (s.getWlanClientIndex mac').map fun i => view iface (s.wlanClient i) := by
  constructor
  · intro hnodup
    obtain ⟨tr, s, run, htwice⟩ : ∃ tr s,
        Run (WlanTable.step wlan) (fun _ e => e.Succeeds) (init 0) tr s ∧
        (s.map wlan).clients.map WlanEntry.mac = [1, 1] :=
      Run.exists_of_exec (C := WlanClientEvent.Succeeds)
        (show (exec (WlanTable.step wlan) (init 0)
          [.add (answers 10 0) (attribs 1), .add (answers 11 0) (attribs 1)]).toOption.map _ = _ by
            decide +kernel)
        (by simp [WlanClientEvent.Succeeds, answers_succeeds])
    exact absurd (htwice ▸ hnodup wlan 0 tr s run) (by decide)
  · intro hkept
    obtain ⟨tr, s, run, hlost⟩ : ∃ tr s,
        Run (WlanTable.step wlan) (fun _ e => e.Succeeds) (init 3) tr s ∧
        decide (((s.handleWlanClientDownEvt wlan (answers 0 0) 1).1.map wlan).lookup 2 =
          (s.map wlan).lookup 2) = false :=
      Run.exists_of_exec (C := WlanClientEvent.Succeeds)
        (show (exec (WlanTable.step wlan) (init 3) comings).toOption.map _ = _ by decide +kernel)
        comings_succeed
    refine of_decide_eq_false hlost ?_
    rw [lookup_map, lookup_map]
    exact hkept wlan 3 tr s run (answers 0 0) 1 _ _ (answers_succeeds (by decide)) rfl 2 (by decide)

end WlanTable

end Nx508j.Ipacm.WlanClients
