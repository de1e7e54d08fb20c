import Nx508j.Ipacm.Wan
import Nx508j.Lib.Keyed

/-! # The routing rules of the clients of the bridge

For each client of the bridge `IPACM_Wlan` and `IPACM_Lan` have routing rules, one for each TX
property, in tables by where the packets come from and by family. A record of a table holds the MAC
and the handles of the rules; the rules of a client are added to one table at a time, and deleted
from that for IPv4 and then from that for IPv6. What the rules say is left out. -/

namespace Nx508j.Ipacm

open Nx508j.Lib Function

/-! ## The tables -/

/-- Which clients have the rules and from where the packets come:
    `eth_bridge_wlan_client_rt_from_wlan_info`, `eth_bridge_wlan_client_rt_from_usb_info` and
    `eth_bridge_usb_client_rt_info`. -/
inductive EthRtSrc where
  | wlanFromWlan
  | wlanFromUsb
  | usb
deriving DecidableEq, Repr

/-- `IPA_LAN_TO_LAN_MAX_WLAN_CLIENT` or `IPA_LAN_TO_LAN_MAX_USB_CLIENT` -/
def EthRtSrc.maxClient : EthRtSrc → Nat
  | .wlanFromWlan | .wlanFromUsb => 32
  | .usb => 1

structure EthRtTable where
  src : EthRtSrc
  iptype : IpFamily
deriving DecidableEq, Repr

def EthRtTable.all : List EthRtTable :=
  [.wlanFromWlan, .wlanFromUsb, .usb].flatMap fun src => [⟨src, .v4⟩, ⟨src, .v6⟩]

/-- `eth_bridge_client_rt_info` -/
structure EthClientRtInfo where
  mac : BitVec 48
  rt_rule_hdl : List Nat
deriving DecidableEq, Repr

/-- The families of the TX properties of the two interfaces, as far as they have them. -/
structure EthRtIfaces where
  wlan : Option (List IpFamily)
  lan : Option (List IpFamily)

def EthRtIfaces.tx_prop (x : EthRtIfaces) : EthRtSrc → Option (List IpFamily)
  | .wlanFromWlan | .wlanFromUsb => x.wlan
  | .usb => x.lan

/-- `each_client_rt_rule_count_v4` or `each_client_rt_rule_count_v6` -/
def EthRtIfaces.eachClientRtRuleCount (x : EthRtIfaces) (t : EthRtTable) : Nat :=
  ((x.tx_prop t.src).getD []).count t.iptype

/-- The tables, the rules that the driver has for each of them, the handles of those that were
    deleted, and the handles that were passed to be deleted when they already were. -/
structure EthRt where
  info : EthRtTable → List EthClientRtInfo := fun _ => []
  live : EthRtTable → List Nat := fun _ => []
  deleted : List Nat := []
  again : List Nat := []

/-- The handle is that of a rule of the driver. -/
def EthRt.IsLive (s : EthRt) (h : Nat) : Prop := ∃ t ∈ EthRtTable.all, h ∈ s.live t

instance (s : EthRt) (h : Nat) : Decidable (s.IsLive h) :=
  inferInstanceAs (Decidable (∃ t ∈ EthRtTable.all, h ∈ s.live t))

/-- The handles in a table. -/
def EthRt.hdls (s : EthRt) (t : EthRtTable) : List Nat := (s.info t).flatMap (·.rt_rule_hdl)

/-! ## Rules are added -/

/-- What is in the handle of a rule that is not added although the ioctl succeeds. -/
def noRtRuleHdl : Nat := 0xffffffff

/-- The driver gives out handles that are not zero. -/
def RealHdl (h : Nat) : Prop := h ≠ 0 ∧ h ≠ noRtRuleHdl

instance (h : Nat) : Decidable (RealHdl h) := inferInstanceAs (Decidable (_ ∧ _))

/-- What a call meets that adds rules: whether the header processing context is valid, the header
    type is one of the two, there is memory and the ioctl succeeds, and then for each rule its
    handle, if the rule is added. -/
structure EthRtAdd where
  hdr_proc_ctx : Bool := true
  hdr_type : Bool := true
  memory : Bool := true
  ioctl : Bool := true
  rules : (EthRtTable → List Nat) → Nat → List (Option Nat)
  rules_spec : ∀ live n, (rules live n).length = n ∧ ((rules live n).filterMap id).Nodup ∧
    ∀ h ∈ (rules live n).filterMap id, RealHdl h ∧ ∀ t, h ∉ live t

/-- What becomes of a handle that is passed to be deleted. -/
inductive DelHdlAnswer where
  | noMemory
  | failed
  | deleted
deriving DecidableEq, Repr

namespace EthRt

variable (x : EthRtIfaces) (s : EthRt)

/-- The driver added rules for a client, and the client is recorded with their handles. -/
def addRecord (t : EthRtTable) (mac : BitVec 48) (rules : List (Option Nat)) : EthRt :=
  { s with
    info := update s.info t (s.info t ++ [⟨mac, rules.map (·.getD noRtRuleHdl)⟩])
    live := update s.live t (rules.filterMap id ++ s.live t) }

/-- What the functions that add rules do alike: the state, and what is returned. -/
def addClientRtRule (t : EthRtTable) (mac : Option (BitVec 48)) (a : EthRtAdd) : EthRt × Int :=
  if x.tx_prop t.src = none then (s, 0)
  else
    match mac with
    | none => (s, -1)
    | some mac =>
      if (s.info t).length = t.src.maxClient then (s, -1)
      else if a.hdr_proc_ctx = false then (s, -1)
      else if mac ∈ (s.info t).map (·.mac) then (s, 0)
      else if a.memory = false then (s, -1)
      -- only the interface for USB looks at the header type, and only for a rule
      else if t.src = .usb ∧ 0 < x.eachClientRtRuleCount t ∧ a.hdr_type = false then (s, -1)
      else if a.ioctl = false then (s, -1)
      else
        (s.addRecord t mac (a.rules s.live (x.eachClientRtRuleCount t)), 0)

/-! ## Rules are deleted -/

/-- A handle is passed to be deleted. -/
def offer (h : Nat) : EthRt :=
  if h ∈ s.deleted ∧ ¬ s.IsLive h then { s with again := h :: s.again } else s

/-- `DeleteRoutingHdl`. That the driver fails is not told, and it does for what is no rule. -/
def deleteRoutingHdl (h : Nat) (answer : DelHdlAnswer) : EthRt × Bool :=
  if h = 0 then (s, true)
  else
    match answer with
    | .noMemory => (s.offer h, false)
    | .failed => (s.offer h, true)
    | .deleted =>
      ({ s.offer h with
        live := fun t => (s.live t).erase h
        deleted := if s.IsLive h then h :: s.deleted else s.deleted }, true)

/-- The handles of a record are passed, by their numbers, up to the first call that fails. -/
def deleteRoutingHdls (d : Nat → DelHdlAnswer) : List (Nat × Nat) → EthRt → EthRt × Bool
  | [], s => (s, true)
  | p :: ps, s =>
    match s.deleteRoutingHdl p.1 (d p.2) with
    | (s, false) => (s, false)
    | (s, true) => deleteRoutingHdls d ps s

/-- A client is no longer recorded. -/
def removeRecord (t : EthRtTable) (mac : BitVec 48) : EthRt :=
  { s with info := update s.info t (discard EthClientRtInfo.mac (s.info t) mac) }

/-- What became of the rules of a client in a table. -/
inductive DelRules where
  | notFound
  | failed
  | deleted
deriving DecidableEq, Repr

/-- The rules of a client are deleted, and then its record. -/
def delFamily (t : EthRtTable) (mac : BitVec 48) (d : IpFamily → Nat → DelHdlAnswer) :
    EthRt × DelRules :=
  match record EthClientRtInfo.mac (s.info t) mac with
  | none => (s, .notFound)
  | some r =>
    match deleteRoutingHdls (d t.iptype) r.rt_rule_hdl.zipIdx s with
    | (s, false) => (s, .failed)
    | (s, true) => (s.removeRecord t mac, .deleted)

/-- What the functions that delete rules do alike: the state, what is returned, and whether a call
    of `DeleteRoutingHdl` failed. -/
def delClientRtRule (src : EthRtSrc) (mac : Option (BitVec 48))
    (d : IpFamily → Nat → DelHdlAnswer) : EthRt × Int × Bool :=
  if x.tx_prop src = none then (s, 0, false)
  else
    match mac with
    | none => (s, -1, false)
    | some mac =>
      match s.delFamily ⟨src, .v4⟩ mac d with
      | (s, .notFound) => (s, -1, false)
      | (s, .failed) => (s, -1, true)
      | (s, .deleted) =>
        match s.delFamily ⟨src, .v6⟩ mac d with
        | (s, .notFound) => (s, -1, false)
        | (s, .failed) => (s, -1, true)
        | (s, .deleted) => (s, 0, false)

/-! ## The calls -/

/-- `eth_bridge_src_iface` -/
inductive EthBridgeSrcIface where
  | wlan
  | usb
deriving DecidableEq, Repr

def EthBridgeSrcIface.rtSrc : EthBridgeSrcIface → EthRtSrc
  | .wlan => .wlanFromWlan
  | .usb => .wlanFromUsb

def eth_bridge_add_wlan_client_rt_rule (mac : Option (BitVec 48)) (src : EthBridgeSrcIface)
    (iptype : IpFamily) (a : EthRtAdd) : EthRt × Int :=
  s.addClientRtRule x ⟨src.rtSrc, iptype⟩ mac a

def eth_bridge_del_wlan_client_rt_rule (mac : Option (BitVec 48)) (src : EthBridgeSrcIface)
    (d : IpFamily → Nat → DelHdlAnswer) : EthRt × Int × Bool :=
  s.delClientRtRule x src.rtSrc mac d

def eth_bridge_add_usb_client_rt_rule (mac : Option (BitVec 48)) (iptype : IpFamily)
    (a : EthRtAdd) : EthRt × Int :=
  s.addClientRtRule x ⟨.usb, iptype⟩ mac a

def eth_bridge_del_usb_client_rt_rule (mac : Option (BitVec 48))
    (d : IpFamily → Nat → DelHdlAnswer) : EthRt × Int × Bool :=
  s.delClientRtRule x .usb mac d

inductive Call where
  | addWlan (mac : Option (BitVec 48)) (src : EthBridgeSrcIface) (iptype : IpFamily)
      (a : EthRtAdd)
  | delWlan (mac : Option (BitVec 48)) (src : EthBridgeSrcIface)
      (d : IpFamily → Nat → DelHdlAnswer)
  | addUsb (mac : Option (BitVec 48)) (iptype : IpFamily) (a : EthRtAdd)
  | delUsb (mac : Option (BitVec 48)) (d : IpFamily → Nat → DelHdlAnswer)

def step : Call → EthRt
  | .addWlan mac src iptype a => (s.eth_bridge_add_wlan_client_rt_rule x mac src iptype a).1
  | .delWlan mac src d => (s.eth_bridge_del_wlan_client_rt_rule x mac src d).1
  | .addUsb mac iptype a => (s.eth_bridge_add_usb_client_rt_rule x mac iptype a).1
  | .delUsb mac d => (s.eth_bridge_del_usb_client_rt_rule x mac d).1

def run (calls : List Call) : EthRt := calls.foldl (step x) {}

/-! ## The property -/

/-- **The rules are recorded**: the MACs of a table are distinct, the handle of each rule that the
    driver has for a table is in exactly one slot of it, and no handle that was already deleted was
    passed to be deleted. -/
structure Recorded : Prop where
  macs : ∀ t, ((s.info t).map (·.mac)).Nodup
  slots : ∀ t, ∀ h ∈ s.live t, (s.hdls t).count h = 1
  again : s.again = []

/-- No table of a source holds a MAC. -/
def Gone (src : EthRtSrc) (mac : BitVec 48) : Prop :=
  ∀ iptype, mac ∉ (s.info ⟨src, iptype⟩).map (·.mac)

/-- After a call that deletes, if no call of `DeleteRoutingHdl` failed, the client is gone. -/
def Deletes : Call → Prop
  | .addWlan .. | .addUsb .. => True
  | .delWlan mac src d =>
    ∀ m, mac = some m → (s.eth_bridge_del_wlan_client_rt_rule x mac src d).2.2 = false →
      (s.eth_bridge_del_wlan_client_rt_rule x mac src d).1.Gone src.rtSrc m
  | .delUsb mac d =>
    ∀ m, mac = some m → (s.eth_bridge_del_usb_client_rt_rule x mac d).2.2 = false →
      (s.eth_bridge_del_usb_client_rt_rule x mac d).1.Gone .usb m

/-! ## The condition -/

/-- The handles that are passed before memory runs out. -/
def passed (d : Nat → DelHdlAnswer) (ps : List (Nat × Nat)) : List (Nat × Nat) :=
  ps.takeWhile fun p => d p.2 ≠ .noMemory

/-- **The condition** on the rules of a client in a table, by their handles and numbers: memory does
    not run out after one of its rules was deleted, and if it does not run out at all the driver
    fails for none of them. -/
structure Clean (t : EthRtTable) (ps : List (Nat × Nat)) (d : Nat → DelHdlAnswer) : Prop where
  memory : (∃ p ∈ ps, d p.2 = .noMemory) →
    ∀ p ∈ passed d ps, p.1 ∈ s.live t → d p.2 ≠ .deleted
  goes : (∀ p ∈ ps, d p.2 ≠ .noMemory) → ∀ p ∈ ps, p.1 ∈ s.live t → d p.2 ≠ .failed

/-- The rules of a client in a table, by their handles and numbers. -/
def rulesOf (t : EthRtTable) (mac : BitVec 48) : List (Nat × Nat) :=
  match record EthClientRtInfo.mac (s.info t) mac with
  | none => []
  | some r => r.rt_rule_hdl.zipIdx

/-- **The condition** for a client to be deleted: if it has rules for IPv6 it is in the table for
    IPv4, and its rules are deleted cleanly, where those for IPv6 are not looked at if memory runs
    out for IPv4. -/
structure DelFits (src : EthRtSrc) (mac : BitVec 48) (d : IpFamily → Nat → DelHdlAnswer) :
    Prop where
  found : mac ∈ (s.info ⟨src, .v6⟩).map (·.mac) → mac ∈ (s.info ⟨src, .v4⟩).map (·.mac)
  v4 : s.Clean ⟨src, .v4⟩ (s.rulesOf ⟨src, .v4⟩ mac) (d .v4)
  v6 : (∀ p ∈ s.rulesOf ⟨src, .v4⟩ mac, d .v4 p.2 ≠ .noMemory) →
    s.Clean ⟨src, .v6⟩ (s.rulesOf ⟨src, .v6⟩ mac) (d .v6)

/-- **The condition** on a call. -/
def Fits : Call → Prop
  | .addWlan .. | .addUsb .. => True
  | .delWlan mac src d => ∀ m, mac = some m → s.DelFits src.rtSrc m d
  | .delUsb mac d => ∀ m, mac = some m → s.DelFits .usb m d

/-- **The condition** on all calls of a run. -/
def AllFit (s : EthRt) : List Call → Prop
  | [] => True
  | c :: calls => s.Fits c ∧ AllFit (s.step x c) calls

/-! ## What is kept -/

variable {x s}

/-- What holds of the tables and the driver all along, also while the rules of a client are
    deleted. -/
structure Kept (x : EthRtIfaces) (s : EthRt) : Prop where
  macs : ∀ t, ((s.info t).map (·.mac)).Nodup
  nonzero : ∀ t, ∀ h ∈ s.hdls t, h ≠ 0
  slots : ∀ t, ∀ h ∈ s.live t, (s.hdls t).count h = 1
  nodup : ∀ t, (s.live t).Nodup
  apart : ∀ t t' h, h ∈ s.live t → h ∈ s.live t' → t = t'
  real : ∀ t, ∀ h ∈ s.live t, RealHdl h
  deleted : ∀ h ∈ s.deleted, RealHdl h
  again : s.again = []
  absent : ∀ t, x.tx_prop t.src = none → s.info t = []

/-- What holds between the calls: a handle that the driver gave and that is recorded is that of one
    of its rules. -/
structure Inv (x : EthRtIfaces) (s : EthRt) : Prop extends Kept x s where
  known : ∀ t, ∀ h ∈ s.hdls t, RealHdl h → h ∈ s.live t

theorem Inv.start (x : EthRtIfaces) : Inv x {} where
  macs _ := List.nodup_nil
  nonzero _ _ hh := by cases hh
  slots _ _ hh := by cases hh
  known _ _ hh := by cases hh
  nodup _ := List.nodup_nil
  apart _ _ _ hh := by cases hh
  real _ _ hh := by cases hh
  deleted _ hh := by cases hh
  again := rfl
  absent _ _ := rfl

theorem Inv.recorded (h : Inv x s) : s.Recorded := ⟨h.macs, h.slots, h.again⟩

theorem mem_all (t : EthRtTable) : t ∈ EthRtTable.all := by
  obtain ⟨src, iptype⟩ := t
  cases src <;> cases iptype <;> decide

theorem isLive_iff {n : Nat} : s.IsLive n ↔ ∃ t, n ∈ s.live t :=
  ⟨fun ⟨t, _, h⟩ => ⟨t, h⟩, fun ⟨t, h⟩ => ⟨t, mem_all t, h⟩⟩

/-! ## A client is added -/

theorem mem_written {rules : List (Option Nat)} {n : Nat}
    (hn : n ∈ rules.map (·.getD noRtRuleHdl)) : n ∈ rules.filterMap id ∨ n = noRtRuleHdl := by
  obtain ⟨r, hr, rfl⟩ := List.mem_map.1 hn
  cases r with
  | none => exact .inr rfl
  | some n => exact .inl (List.mem_filterMap.2 ⟨some n, hr, rfl⟩)

theorem count_written (rules : List (Option Nat)) {n : Nat} (hn : n ≠ noRtRuleHdl) :
    (rules.map (·.getD noRtRuleHdl)).count n = (rules.filterMap id).count n := by
  induction rules with
  | nil => rfl
  | cons r rules ih =>
    cases r with
    | none =>
      rw [List.filterMap_cons_none rfl, ← ih, List.map_cons]
      exact List.count_cons_of_ne (Ne.symm hn)
    | some m =>
      have hcons : (some m :: rules).filterMap id = m :: rules.filterMap id :=
        List.filterMap_cons_some rfl
      rw [hcons, List.map_cons, List.count_cons, ih, List.count_cons]
      rfl

section AddRecord

variable {t t' : EthRtTable} {mac : BitVec 48} {rules : List (Option Nat)}

@[simp] theorem addRecord_info_self : (s.addRecord t mac rules).info t =
    s.info t ++ [⟨mac, rules.map (·.getD noRtRuleHdl)⟩] := update_self ..

theorem addRecord_info_of_ne (hne : t' ≠ t) : (s.addRecord t mac rules).info t' = s.info t' :=
  update_of_ne hne ..

@[simp] theorem addRecord_live_self :
    (s.addRecord t mac rules).live t = rules.filterMap id ++ s.live t := update_self ..

theorem addRecord_live_of_ne (hne : t' ≠ t) : (s.addRecord t mac rules).live t' = s.live t' :=
  update_of_ne hne ..

@[simp] theorem addRecord_hdls_self : (s.addRecord t mac rules).hdls t =
    s.hdls t ++ rules.map (·.getD noRtRuleHdl) := by
  unfold hdls
  rw [addRecord_info_self, List.flatMap_append, List.flatMap_singleton]

theorem addRecord_hdls_of_ne (hne : t' ≠ t) : (s.addRecord t mac rules).hdls t' = s.hdls t' := by
  unfold hdls
  rw [addRecord_info_of_ne hne]

/-- A record with its rules is added to a table. -/
theorem Inv.addRecord (h : Inv x s) (htx : x.tx_prop t.src ≠ none)
    (hmac : mac ∉ (s.info t).map (·.mac)) (hnodup : (rules.filterMap id).Nodup)
    (hreal : ∀ n ∈ rules.filterMap id, RealHdl n)
    (hfresh : ∀ n ∈ rules.filterMap id, ∀ t', n ∉ s.live t') : Inv x (s.addRecord t mac rules) := by
  -- a handle that the table has is that of a rule, and the driver gives no such handle
  have hfits : ∀ n ∈ rules.filterMap id, n ∉ s.hdls t := fun n hn hin =>
    hfresh n hn t (h.known t n hin (hreal n hn))
  refine ⟨⟨fun t' => ?_, fun t' n hn => ?_, fun t' n hn => ?_, fun t' => ?_,
    fun t₁ t₂ n h₁ h₂ => ?_, fun t' n hn => ?_, h.deleted, h.again, fun t' hnone => ?_⟩,
    fun t' n hn hr => ?_⟩
  · rcases eq_or_ne t' t with rfl | hne
    · rw [addRecord_info_self, List.map_append]
      exact List.nodup_append_comm.1 (List.nodup_cons.2 ⟨hmac, h.macs t'⟩)
    · rw [addRecord_info_of_ne hne]
      exact h.macs t'
  · rcases eq_or_ne t' t with rfl | hne
    · rw [addRecord_hdls_self] at hn
      rcases List.mem_append.1 hn with hn | hn
      · exact h.nonzero t' n hn
      · rcases mem_written hn with hn | rfl
        · exact (hreal n hn).1
        · decide
    · rw [addRecord_hdls_of_ne hne] at hn
      exact h.nonzero t' n hn
  · rcases eq_or_ne t' t with rfl | hne
    · rw [addRecord_live_self] at hn
      rw [addRecord_hdls_self, List.count_append]
      rcases List.mem_append.1 hn with hn | hn
      · rw [count_written rules (hreal n hn).2, List.count_eq_one_of_mem hnodup hn,
          List.count_eq_zero_of_not_mem (hfits n hn)]
      · have hnew : n ∉ rules.filterMap id := fun hin => hfresh n hin t' hn
        rw [count_written rules (h.real t' n hn).2, List.count_eq_zero_of_not_mem hnew,
          h.slots t' n hn]
    · rw [addRecord_live_of_ne hne] at hn
      rw [addRecord_hdls_of_ne hne]
      exact h.slots t' n hn
  · rcases eq_or_ne t' t with rfl | hne
    · rw [addRecord_live_self]
      exact List.nodup_append.2 ⟨hnodup, h.nodup t', fun n hn m hm heq =>
        hfresh n hn t' (heq ▸ hm)⟩
    · rw [addRecord_live_of_ne hne]
      exact h.nodup t'
  · -- the new rules are of this table only
    have hold : ∀ t', n ∈ (s.addRecord t mac rules).live t' →
        (t' = t ∧ n ∈ rules.filterMap id) ∨ n ∈ s.live t' := by
      intro t' hn
      rcases eq_or_ne t' t with rfl | hne
      · rw [addRecord_live_self] at hn
        exact (List.mem_append.1 hn).imp_left fun hn => ⟨rfl, hn⟩
      · rw [addRecord_live_of_ne hne] at hn
        exact .inr hn
    rcases hold t₁ h₁ with ⟨rfl, hn₁⟩ | hn₁
    · rcases hold t₂ h₂ with ⟨rfl, -⟩ | hn₂
      · rfl
      · exact absurd hn₂ (hfresh n hn₁ t₂)
    · rcases hold t₂ h₂ with ⟨rfl, hn₂⟩ | hn₂
      · exact absurd hn₁ (hfresh n hn₂ t₁)
      · exact h.apart t₁ t₂ n hn₁ hn₂
  · rcases eq_or_ne t' t with rfl | hne
    · rw [addRecord_live_self] at hn
      rcases List.mem_append.1 hn with hn | hn
      · exact hreal n hn
      · exact h.real t' n hn
    · rw [addRecord_live_of_ne hne] at hn
      exact h.real t' n hn
  · rcases eq_or_ne t' t with rfl | hne
    · exact absurd hnone htx
    · exact (addRecord_info_of_ne hne).trans (h.absent t' hnone)
  · rcases eq_or_ne t' t with rfl | hne
    · rw [addRecord_hdls_self] at hn
      rw [addRecord_live_self]
      rcases List.mem_append.1 hn with hn | hn
      · exact List.mem_append_right _ (h.known t' n hn hr)
      · rcases mem_written hn with hn | rfl
        · exact List.mem_append_left _ hn
        · exact absurd rfl hr.2
    · rw [addRecord_hdls_of_ne hne] at hn
      rw [addRecord_live_of_ne hne]
      exact h.known t' n hn hr

end AddRecord

theorem Inv.addClientRtRule (h : Inv x s) (t : EthRtTable) (mac : Option (BitVec 48))
    (a : EthRtAdd) : Inv x (s.addClientRtRule x t mac a).1 := by
  obtain ⟨-, hnodup, hspec⟩ := a.rules_spec s.live (x.eachClientRtRuleCount t)
  unfold EthRt.addClientRtRule
  split
  · exact h
  · next htx =>
    cases mac with
    | none => exact h
    | some mac =>
      dsimp only
      split
      · exact h
      split
      · exact h
      split
      · exact h
      · next hmac =>
        split
        · exact h
        · split
          · exact h
          · split
            · exact h
            · exact h.addRecord htx hmac hnodup (fun n hn => (hspec n hn).1)
                fun n hn => (hspec n hn).2

end EthRt

end Nx508j.Ipacm
