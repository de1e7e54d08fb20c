import Mathlib.Data.Fintype.Card
import Nx508j.Ipacm.LanFlt

/-! # The filter rules for the WLAN clients

An interface of the Ethernet bridge has a pool of filter rules for each IP version, which were
installed once as dummies. For a WLAN client one of them is taken and changed into a rule for the
MAC address of the client. The handle leaves the pool before the driver is asked for the change, and
does not come back if the driver refuses. When the client goes, its IPv4 rule comes back first; if
the driver then refuses to reset the IPv6 rule, the client keeps both. -/

namespace Nx508j.Ipacm.EthBridge

open Nx508j.Lib Function
open Lan2Lan (IpType Mac Hdl FltRuleHdl)

/-- `IPA_LAN_TO_LAN_MAX_WLAN_CLIENT` -/
def maxWlanClient : Nat := 32

/-- `ipa_hdr_l2_type` -/
inductive HdrL2Type
  | none
  | ethernetII
  | l2_802_3
deriving DecidableEq, Repr

/-- What a filter rule is changed into: a rule for packets to a MAC address, which is looked for in
    the header of the type, or the dummy. -/
inductive FltRule
  | passToRouting (rtTblHdl : Hdl) (hdrType : HdrL2Type) (dstMacAddr : Mac)
  | dummy
deriving DecidableEq, Repr

/-- `struct ipa_flt_rule_mdfy` and the IP version. -/
structure FltRuleMdfy where
  ip : IpType
  ruleHdl : Hdl
  rule : FltRule
deriving DecidableEq, Repr

/-- `flt_rule_hdl_v4` and `flt_rule_set_v4`, or those of IPv6. -/
structure ClientRule where
  fltRuleHdl : Hdl := 0
  fltRuleSet : Bool := false
deriving DecidableEq, Repr

/-- `eth_bridge_client_flt_info` -/
structure ClientFltInfo where
  mac : Mac
  v4 : ClientRule := {}
  v6 : ClientRule := {}
deriving DecidableEq, Repr

namespace ClientFltInfo

def rule (c : ClientFltInfo) : IpType → ClientRule
  | .v4 => c.v4
  | .v6 => c.v6

def setRule (t : IpType) (r : ClientRule) (c : ClientFltInfo) : ClientFltInfo :=
  match t with
  | .v4 => { c with v4 := r }
  | .v6 => { c with v6 := r }

/-- The client owns the filter rule. -/
def Owns (t : IpType) (hdl : Hdl) (c : ClientFltInfo) : Prop :=
  (c.rule t).fltRuleSet = true ∧ (c.rule t).fltRuleHdl = hdl

instance instDecidableOwns (t : IpType) (hdl : Hdl) (c : ClientFltInfo) : Decidable (c.Owns t hdl) :=
  inferInstanceAs (Decidable (_ ∧ _))

end ClientFltInfo

/-- What a call meets: `rx_prop`, `usb_to_wlan_hdr_proc_ctx.valid`, `usb_hdr_type`, and what
    `malloc` and the driver answer. -/
structure Answers where
  rxProp : Bool := true
  hdrProcCtxValid : Bool := true
  usbHdrType : HdrL2Type := .ethernetII
  malloc : Bool := true
  getRoutingTable : IpType → Option Hdl
  modifyFilteringRule : FltRuleMdfy → Bool

/-- `wlan_client_flt_rule_hdl_v4` and `_v6`, whose free slots are the valid ones, and the first
    `wlan_client_flt_info_count` entries of `eth_bridge_wlan_client_flt_info`. The others are zero.
    -/
structure BridgeFlt where
  pool : IpType → Fin maxWlanClient → FltRuleHdl
  info : List ClientFltInfo

namespace BridgeFlt

variable (w : BridgeFlt)

def setSlot (t : IpType) (j : Fin maxWlanClient) (valid : Bool) : BridgeFlt :=
  { w with
    pool := update w.pool t (update (w.pool t) j { w.pool t j with valid }) }

/-- The first slot that is free. -/
def freeSlot (t : IpType) : Option (Fin maxWlanClient) :=
  Fin.find? fun j : Fin maxWlanClient => (w.pool t j).valid

/-- The first slot with the handle. -/
def slotOf (t : IpType) (hdl : Hdl) : Option (Fin maxWlanClient) :=
  Fin.find? fun j : Fin maxWlanClient => (w.pool t j).ruleHdl = hdl

/-- The rule of a client is set. A new client comes to the end. -/
def setRule (mac : Mac) (t : IpType) (r : ClientRule) : BridgeFlt :=
  { w with
    info :=
      match record ClientFltInfo.mac w.info mac with
      | none => w.info ++ [({ mac } : ClientFltInfo).setRule t r]
      | some _ => amend ClientFltInfo.mac (ClientFltInfo.setRule t r) mac w.info }

/-- `eth_bridge_add_wlan_client_flt_rule` -/
def addWlanClientFltRule (a : Answers) (mac : Option Mac) (t : IpType) : BridgeFlt × Bool :=
  if a.rxProp = false then (w, false)
  else
    match mac with
    | none => (w, false)
    | some mac =>
      let found := record ClientFltInfo.mac w.info mac
      if a.hdrProcCtxValid = false then (w, false)
      else if found.any fun c => (c.rule t).fltRuleSet then (w, true)
      else if found = none ∧ w.info.length = maxWlanClient then (w, false)
      else if a.malloc = false then (w, false)
      else
        match a.getRoutingTable t with
        | none => (w, false)
        | some rtTblHdl =>
          if a.usbHdrType = .none then (w, false)
          else
            match w.freeSlot t with
            | none => (w, false)
            | some i =>
              let hdl := (w.pool t i).ruleHdl
              -- the slot is taken, whatever the driver answers
              let w := w.setSlot t i false
              if a.modifyFilteringRule ⟨t, hdl, .passToRouting rtTblHdl a.usbHdrType mac⟩ then
                (w.setRule mac t ⟨hdl, true⟩, true)
              else (w, false)

/-- `reset_to_dummy_flt_rule`. A `malloc` that fails is an answer of the driver. -/
def resetToDummyFltRule (a : Answers) (t : IpType) (ruleHdl : Hdl) : Bool :=
  a.modifyFilteringRule ⟨t, ruleHdl, .dummy⟩

/-- What `eth_bridge_del_wlan_client_flt_rule` does for an IP version. -/
def releaseRule (a : Answers) (t : IpType) (c : ClientFltInfo) : BridgeFlt × Bool :=
  if (c.rule t).fltRuleSet = false then (w, true)
  else if resetToDummyFltRule a t (c.rule t).fltRuleHdl = false then (w, false)
  else
    match w.slotOf t (c.rule t).fltRuleHdl with
    | none => (w, false)
    | some j => (w.setSlot t j true, true)

/-- `eth_bridge_del_wlan_client_flt_rule` -/
def delWlanClientFltRule (a : Answers) (mac : Option Mac) : BridgeFlt × Bool :=
  match mac with
  | none => (w, false)
  | some mac =>
    match record ClientFltInfo.mac w.info mac with
    | none => (w, false)
    | some c =>
      match w.releaseRule a .v4 c with
      | (w, false) => (w, false)
      | (w, true) =>
        match w.releaseRule a .v6 c with
        | (w, false) => (w, false)
        | (w, true) => ({ w with info := discard ClientFltInfo.mac w.info mac }, true)

end BridgeFlt

inductive FltCall
  | add (a : Answers) (mac : Option Mac) (t : IpType)
  | del (a : Answers) (mac : Option Mac)

namespace BridgeFlt

def step (w : BridgeFlt) : FltCall → Except Fault (BridgeFlt × Bool)
  | .add a mac t => .ok (w.addWlanClientFltRule a mac t)
  | .del a mac => .ok (w.delWlanClientFltRule a mac)

/-- The pools as they were installed. A slot whose rule was not installed is zero. -/
def init (hdls : IpType → Fin maxWlanClient → Option Hdl) : BridgeFlt where
  pool := fun t j =>
    match hdls t j with
    | some hdl => ⟨hdl, true⟩
    | none => ⟨0, false⟩
  info := []

/-- The handle of a rule that was installed is in no other slot of its pool. -/
structure Distinct (hdls : IpType → Fin maxWlanClient → Option Hdl) : Prop where
  only : ∀ {t i j hdl}, hdls t i = some hdl → (hdls t j).getD 0 = hdl → i = j

/-! ## What is asked of the pools -/

/-- The clients that own the filter rule. -/
def owners (w : BridgeFlt) (t : IpType) (hdl : Hdl) : Nat :=
  w.info.countP fun c => c.Owns t hdl

/-- A filter rule that was installed is free and nobody's, or is not free and one client's; and the
    rule of a client is one of them. -/
structure Exact (hdls : IpType → Fin maxWlanClient → Option Hdl) (w : BridgeFlt) : Prop where
  slot : ∀ {t j hdl}, hdls t j = some hdl →
    w.owners t hdl = if (w.pool t j).valid then 0 else 1
  owned : ∀ c ∈ w.info, ∀ t, (c.rule t).fltRuleSet = true →
    ∃ j, hdls t j = some (c.rule t).fltRuleHdl

/-! ## What a call asks for -/

/-- The client, the slot that is taken for it, and the change that the driver is then asked for. -/
def asked (w : BridgeFlt) (a : Answers) (mac : Option Mac) (t : IpType) :
    Option (Mac × Fin maxWlanClient × FltRuleMdfy) := do
  guard (a.rxProp = true)
  let mac ← mac
  let found := record ClientFltInfo.mac w.info mac
  guard (a.hdrProcCtxValid = true ∧ ∀ c ∈ found, (c.rule t).fltRuleSet = false)
  guard (¬ (found = none ∧ w.info.length = maxWlanClient) ∧ a.malloc = true)
  let rtTblHdl ← a.getRoutingTable t
  guard (a.usbHdrType ≠ .none)
  let i ← w.freeSlot t
  return (mac, i, ⟨t, (w.pool t i).ruleHdl, .passToRouting rtTblHdl a.usbHdrType mac⟩)

variable {w w' : BridgeFlt} {a : Answers} {mac : Mac} {t t' : IpType} {i j : Fin maxWlanClient}
  {hdl hdl' : Hdl} {c : ClientFltInfo} {hdls : IpType → Fin maxWlanClient → Option Hdl} {m : Mac}
  (valid : Bool)

theorem add_of_none {mac : Option Mac} (h : w.asked a mac t = none) :
    (w.addWlanClientFltRule a mac t).1 = w := by
  unfold addWlanClientFltRule
  split
  · rfl
  next hrx =>
    split
    · rfl
    next mac =>
      dsimp only
      split
      · rfl
      next hctx =>
        split
        · rfl
        next hset =>
          split
          · rfl
          next hfull =>
            split
            · rfl
            next hmalloc =>
              split
              · rfl
              next rtTblHdl htbl =>
                split
                · rfl
                next htype =>
                  split
                  · rfl
                  next i hi =>
                    have hunset : ∀ c ∈ record ClientFltInfo.mac w.info mac,
                        (c.rule t).fltRuleSet = false := by
                      simpa [Option.any_eq_true] using hset
                    -- what is asked for would be `some` otherwise
                    obtain ⟨c, hc, hcset⟩ : ∃ c, record ClientFltInfo.mac w.info mac = some c ∧
                        (c.rule t).fltRuleSet = true := by
                      simpa [asked, hrx, hctx, hfull, hmalloc, htbl, htype, hi] using h
                    simp [hunset c hc] at hcset

theorem add_of_some {mac : Option Mac} {rule : FltRuleMdfy}
    (h : w.asked a mac t = some (m, i, rule)) : w.freeSlot t = some i ∧
    (∀ c, record ClientFltInfo.mac w.info m = some c → (c.rule t).fltRuleSet = false) ∧
    w.addWlanClientFltRule a mac t =
      if a.modifyFilteringRule rule then
        ((w.setSlot t i false).setRule m t ⟨(w.pool t i).ruleHdl, true⟩, true)
      else (w.setSlot t i false, false) := by
  simp only [asked, Option.bind_eq_bind, Option.bind_eq_some_iff, Option.guard_eq_some',
    Option.pure_def, Option.some.injEq, Prod.mk.injEq] at h
  obtain ⟨⟨⟩, hrx, m, rfl, ⟨⟩, ⟨hctx, hunset⟩, ⟨⟩, ⟨hfull, hmalloc⟩, rtTblHdl, htbl, ⟨⟩, htype, i,
    hi, rfl, rfl, rfl⟩ := h
  refine ⟨hi, hunset, ?_⟩
  have hset : ¬ (record ClientFltInfo.mac w.info m).any (fun c => (c.rule t).fltRuleSet) = true := by
    simpa [Option.any_eq_true] using hunset
  simp only [addWlanClientFltRule, hrx, hctx, hset, hfull, hmalloc, htbl, htype, hi,
    Bool.true_eq_false, Bool.false_eq_true, if_false]

/-! ## What the changes do to the pools and to the owners -/

theorem pool_setSlot : (w.setSlot t j valid).pool t' i =
      if t' = t ∧ i = j then { w.pool t j with valid } else w.pool t' i := by
  by_cases ht : t' = t
  · subst ht
    by_cases hi : i = j
    · subst hi
      simp [setSlot]
    · simp [setSlot, hi]
  · simp [setSlot, ht]

@[simp] theorem ruleHdl_setSlot :
    ((w.setSlot t j valid).pool t' i).ruleHdl = (w.pool t' i).ruleHdl := by
  rw [pool_setSlot]
  split
  next h => rw [h.1, h.2]
  · rfl

@[simp] theorem owners_setSlot :
    (w.setSlot t j valid).owners t' hdl = w.owners t' hdl := rfl

@[simp] theorem pool_setRule (m : Mac) (r : ClientRule) : (w.setRule m t r).pool = w.pool := rfl

theorem rule_setRule (r : ClientRule) :
    (c.setRule t r).rule t' = if t' = t then r else c.rule t' := by
  cases t <;> cases t' <;> rfl

@[simp] theorem mac_setRule (r : ClientRule) : (c.setRule t r).mac = c.mac := by
  cases t <;> rfl

theorem owns_setRule (c : ClientFltInfo) (t : IpType) (hdl : Hdl) (t' : IpType) (hdl' : Hdl)
    (hunset : (c.rule t).fltRuleSet = false) :
    (if (c.setRule t ⟨hdl, true⟩).Owns t' hdl' then 1 else 0) =
      (if c.Owns t' hdl' then 1 else 0) + if t' = t ∧ hdl' = hdl then 1 else 0 := by
  by_cases ht : t' = t
  · subst ht
    simp [ClientFltInfo.Owns, rule_setRule, hunset, eq_comm]
  · have hiff : (c.setRule t ⟨hdl, true⟩).Owns t' hdl' ↔ c.Owns t' hdl' := by
      rw [ClientFltInfo.Owns, rule_setRule, if_neg ht, ClientFltInfo.Owns]
    simp [hiff, ht]

theorem owners_setRule
    (hunset : ∀ c, record ClientFltInfo.mac w.info m = some c → (c.rule t).fltRuleSet = false) :
    (w.setRule m t ⟨hdl, true⟩).owners t' hdl' =
      w.owners t' hdl' + if t' = t ∧ hdl' = hdl then 1 else 0 := by
  unfold owners setRule
  cases hfound : record ClientFltInfo.mac w.info m with
  | none =>
    have hnew : ¬ (({ mac := m } : ClientFltInfo).Owns t' hdl') := by
      cases t' <;> simp [ClientFltInfo.Owns, ClientFltInfo.rule]
    have howns := owns_setRule { mac := m } t hdl t' hdl'
      (by cases t <;> rfl)
    rw [if_neg hnew, Nat.zero_add] at howns
    simp only [List.countP_append, List.countP_singleton, decide_eq_true_eq, howns]
  | some c =>
    have howns := owns_setRule c t hdl t' hdl' (hunset c hfound)
    rw [(perm_amend hfound).countP_eq, (perm_discard hfound).countP_eq, List.countP_cons,
      List.countP_cons]
    simp only [decide_eq_true_eq, howns]
    omega

theorem macs_setRule {r : ClientRule} (hmacs : (w.info.map ClientFltInfo.mac).Nodup) :
    ((w.setRule m t r).info.map ClientFltInfo.mac).Nodup := by
  unfold setRule
  cases hfound : record ClientFltInfo.mac w.info m with
  | none =>
    have hnot := record_eq_none.1 hfound
    have hne : ∀ c ∈ w.info, c.mac ≠ m := by
      rintro c hc rfl
      exact hnot (List.mem_map_of_mem hc)
    simpa [List.nodup_append, hmacs] using hne
  | some c =>
    rwa [map_key_amend fun c => mac_setRule r]

/-! ## The invariant -/

/-- **The invariant.** -/
structure Inv (hdls : IpType → Fin maxWlanClient → Option Hdl) (w : BridgeFlt) : Prop where
  ruleHdl : ∀ t j, (w.pool t j).ruleHdl = (hdls t j).getD 0
  free : ∀ {t j}, (w.pool t j).valid = true → (hdls t j).isSome
  slot : ∀ {t j hdl}, hdls t j = some hdl →
    w.owners t hdl = if (w.pool t j).valid then 0 else 1
  owned : ∀ {t hdl}, 0 < w.owners t hdl → ∃ j, hdls t j = some hdl
  macs : (w.info.map ClientFltInfo.mac).Nodup

theorem owners_pos (hc : c ∈ w.info) (hset : (c.rule t).fltRuleSet = true) :
    0 < w.owners t (c.rule t).fltRuleHdl :=
  List.countP_pos_iff.2 ⟨c, hc, by simp [ClientFltInfo.Owns, hset]⟩

theorem Inv.exact (h : w.Inv hdls) : w.Exact hdls where
  slot := h.slot
  owned := fun _ hc _ hset => h.owned (owners_pos hc hset)

theorem inv_init : (init hdls).Inv hdls where
  ruleHdl := by
    intro t j
    cases hj : hdls t j <;> simp [init, hj]
  free := by
    intro t j
    cases hj : hdls t j <;> simp [init, hj]
  slot := by
    intro t j hdl hj
    simp [init, hj, owners]
  owned := by simp [init, owners]
  macs := by simp [init]

theorem freeSlot_valid (hfree : w.freeSlot t = some i) : (w.pool t i).valid = true :=
  (Fin.find?_eq_some_iff.1 hfree).1

theorem Inv.of_freeSlot (h : w.Inv hdls) (hfree : w.freeSlot t = some i) :
    hdls t i = some (w.pool t i).ruleHdl ∧ w.owners t (w.pool t i).ruleHdl = 0 := by
  have hvalid := freeSlot_valid hfree
  obtain ⟨hdl, hhdl⟩ := Option.isSome_iff_exists.1 (h.free hvalid)
  have hrule : (w.pool t i).ruleHdl = hdl := by rw [h.ruleHdl, hhdl, Option.getD_some]
  have hslot := h.slot hhdl
  rw [hvalid, if_pos rfl] at hslot
  exact ⟨hrule ▸ hhdl, hrule ▸ hslot⟩

theorem Inv.take (h : w.Inv hdls) (hdist : Distinct hdls) (hfree : w.freeSlot t = some i)
    (hunset : ∀ c, record ClientFltInfo.mac w.info m = some c → (c.rule t).fltRuleSet = false) :
    ((w.setSlot t i false).setRule m t ⟨(w.pool t i).ruleHdl, true⟩).Inv hdls := by
  obtain ⟨hhdl, hnobody⟩ := h.of_freeSlot hfree
  have howners : ∀ t' hdl', ((w.setSlot t i false).setRule m t ⟨(w.pool t i).ruleHdl, true⟩).owners
      t' hdl' = w.owners t' hdl' + if t' = t ∧ hdl' = (w.pool t i).ruleHdl then 1 else 0 := by
    intro t' hdl'
    rw [owners_setRule (w := w.setSlot t i false) hunset, owners_setSlot]
  constructor
  · intro t' j
    rw [pool_setRule, ruleHdl_setSlot, h.ruleHdl]
  · intro t' j hvalid
    rw [pool_setRule, pool_setSlot] at hvalid
    split at hvalid
    · cases hvalid
    · exact h.free hvalid
  · intro t' j hdl' hj
    rw [howners, pool_setRule, pool_setSlot]
    by_cases hsame : t' = t ∧ j = i
    · obtain ⟨rfl, rfl⟩ := hsame
      obtain rfl : hdl' = (w.pool t' j).ruleHdl := Option.some.inj (hj.symm.trans hhdl)
      simp [hnobody]
    · -- another slot has another handle
      have hother : ¬ (t' = t ∧ hdl' = (w.pool t i).ruleHdl) := by
        rintro ⟨rfl, rfl⟩
        exact hsame ⟨rfl, hdist.only hj (by rw [hhdl, Option.getD_some])⟩
      rw [if_neg hother, if_neg hsame, Nat.add_zero, h.slot hj]
  · intro t' hdl' hpos
    rw [howners] at hpos
    by_cases hsame : t' = t ∧ hdl' = (w.pool t i).ruleHdl
    · obtain ⟨rfl, rfl⟩ := hsame
      exact ⟨i, hhdl⟩
    · rw [if_neg hsame, Nat.add_zero] at hpos
      exact h.owned hpos
  · exact macs_setRule h.macs

/-! ## A rule goes back -/

theorem slotOf_of_installed (hdist : Distinct hdls)
    (hrule : ∀ t j, (w.pool t j).ruleHdl = (hdls t j).getD 0) (hj : hdls t j = some hdl) :
    w.slotOf t hdl = some j := by
  refine Fin.find?_eq_some_iff.2 ⟨?_, fun i hi => ?_⟩
  · simp [hrule, hj]
  · have hne : (hdls t i).getD 0 ≠ hdl := fun heq => hi.ne' (hdist.only hj heq)
    simpa [hrule] using hne

/-- The driver does not reset the rule that the client has. -/
def Refuses (a : Answers) (t : IpType) (c : ClientFltInfo) : Prop :=
  (c.rule t).fltRuleSet = true ∧ resetToDummyFltRule a t (c.rule t).fltRuleHdl = false

instance instDecidableRefuses (a : Answers) (t : IpType) (c : ClientFltInfo) :
    Decidable (Refuses a t c) :=
  inferInstanceAs (Decidable (_ ∧ _))

/-- A pool after the rule of the client went back. -/
structure Released (t : IpType) (c : ClientFltInfo) (w w' : BridgeFlt) : Prop where
  info : w'.info = w.info
  ruleHdl : ∀ t' j, (w'.pool t' j).ruleHdl = (w.pool t' j).ruleHdl
  valid : ∀ t' j, (w'.pool t' j).valid = true ↔
    (w.pool t' j).valid = true ∨ t' = t ∧ c.Owns t (w.pool t j).ruleHdl

theorem releaseRule_of_refuses (h : Refuses a t c) : w.releaseRule a t c = (w, false) := by
  rw [releaseRule, if_neg (by simp [h.1]), if_pos h.2]

theorem releaseRule_of_not_refuses (hdist : Distinct hdls)
    (hrule : ∀ t j, (w.pool t j).ruleHdl = (hdls t j).getD 0)
    (howned : (c.rule t).fltRuleSet = true → ∃ j, hdls t j = some (c.rule t).fltRuleHdl)
    (h : ¬ Refuses a t c) : ∃ w', w.releaseRule a t c = (w', true) ∧ Released t c w w' := by
  by_cases hset : (c.rule t).fltRuleSet = true
  · obtain ⟨j, hj⟩ := howned hset
    have hreset : resetToDummyFltRule a t (c.rule t).fltRuleHdl ≠ false := fun heq => h ⟨hset, heq⟩
    refine ⟨w.setSlot t j true, ?_, rfl, fun t' i => ruleHdl_setSlot true, fun t' i => ?_⟩
    · rw [releaseRule, if_neg (by simp [hset]), if_neg hreset, slotOf_of_installed hdist hrule hj]
    · rw [pool_setSlot]
      by_cases hsame : t' = t ∧ i = j
      · obtain ⟨rfl, rfl⟩ := hsame
        simp [ClientFltInfo.Owns, hset, hrule, hj]
      · -- the client owns no other slot
        have hnot : ¬ (t' = t ∧ c.Owns t (w.pool t i).ruleHdl) := by
          rintro ⟨ht, -, heq⟩
          rw [hrule] at heq
          exact hsame ⟨ht, (hdist.only hj heq.symm).symm⟩
        rw [if_neg hsame, or_iff_left hnot]
  · refine ⟨w, ?_, rfl, fun _ _ => rfl, fun t' i => ?_⟩
    · rw [releaseRule, if_pos (by simpa using hset)]
    · exact (or_iff_left fun hown => hset hown.2.1).symm

theorem Inv.remove (h : w.Inv hdls) (hdist : Distinct hdls)
    (hfound : record ClientFltInfo.mac w.info m = some c)
    {w₁ w₂ : BridgeFlt} (h₁ : Released .v4 c w w₁) (h₂ : Released .v6 c w₁ w₂) :
    Inv hdls { w₂ with info := discard ClientFltInfo.mac w₂.info m } := by
  have hinfo : w₂.info = w.info := h₂.info.trans h₁.info
  have hrule : ∀ t j, (w₂.pool t j).ruleHdl = (w.pool t j).ruleHdl :=
    fun t j => (h₂.ruleHdl t j).trans (h₁.ruleHdl t j)
  -- a slot is free if it was, or if the client had it
  have hvalid : ∀ t j, (w₂.pool t j).valid = true ↔
      (w.pool t j).valid = true ∨ c.Owns t (w.pool t j).ruleHdl := by
    intro t j
    rw [h₂.valid, h₁.valid, h₁.ruleHdl]
    cases t <;> simp
  have howners : ∀ t hdl, w.owners t hdl =
      (discard ClientFltInfo.mac w.info m).countP (fun c => c.Owns t hdl) +
        if c.Owns t hdl then 1 else 0 := by
    intro t hdl
    rw [owners, (perm_discard hfound).countP_eq, List.countP_cons]
    simp only [decide_eq_true_eq]
  rw [hinfo]
  constructor
  · exact fun t j => (hrule t j).trans (h.ruleHdl t j)
  · intro t j hj
    rcases (hvalid t j).1 hj with hfree | hown
    · exact h.free hfree
    · -- the rule that the client had was installed, and so in this slot
      obtain ⟨i, hi⟩ := h.owned (owners_pos (mem_of_record hfound) hown.1)
      obtain rfl : i = j := hdist.only hi ((h.ruleHdl t j).symm.trans hown.2.symm)
      rw [hi, Option.isSome_some]
  · intro t j hdl hj
    have hslot := h.slot hj
    have hhdl : (w.pool t j).ruleHdl = hdl := by rw [h.ruleHdl, hj, Option.getD_some]
    have hfree := hvalid t j
    rw [hhdl] at hfree
    rw [howners] at hslot
    simp only [owners, hfree]
    by_cases hown : c.Owns t hdl
    · rw [if_pos hown] at hslot
      rw [if_pos (.inr hown)]
      split at hslot <;> omega
    · rw [if_neg hown, Nat.add_zero] at hslot
      simpa [hown] using hslot
  · intro t hdl hpos
    refine h.owned (Nat.lt_of_lt_of_le hpos ?_)
    rw [howners]
    exact Nat.le_add_right ..
  · exact nodup_discard h.macs m

/-! ## When a call keeps the pools exact -/

/-- The condition: the driver accepts the change of a rule that was taken for a client, and where it
    resets the IPv4 rule of a client that goes, it resets the IPv6 rule as well. -/
def Meets (w : BridgeFlt) : FltCall → Prop
  | .add a mac t => ∀ x ∈ w.asked a mac t, a.modifyFilteringRule x.2.2 = true
  | .del a mac =>
    ∀ c ∈ mac.bind (record ClientFltInfo.mac w.info),
      (c.rule .v4).fltRuleSet = true → Refuses a .v6 c → Refuses a .v4 c

theorem Inv.step_add (h : w.Inv hdls) (hdist : Distinct hdls) {mac : Option Mac} :
    (Meets w (.add a mac t) → (w.addWlanClientFltRule a mac t).1.Inv hdls) ∧
    ((w.addWlanClientFltRule a mac t).1.Exact hdls → Meets w (.add a mac t)) := by
  cases hasked : w.asked a mac t with
  | none =>
    rw [add_of_none hasked]
    exact ⟨fun _ => h, fun _ => by simp [Meets, hasked]⟩
  | some x =>
    obtain ⟨m, i, rule⟩ := x
    obtain ⟨hfree, hunset, heq⟩ := add_of_some hasked
    have hmeets : Meets w (.add a mac t) ↔ a.modifyFilteringRule rule = true := by
      simp [Meets, hasked]
    rw [heq, hmeets]
    by_cases hmodify : a.modifyFilteringRule rule = true
    · rw [if_pos hmodify]
      exact ⟨fun _ => h.take hdist hfree hunset, fun _ => hmodify⟩
    · rw [if_neg hmodify]
      refine ⟨fun hok => absurd hok hmodify, fun hexact => ?_⟩
      -- the slot is not free, and nobody owns the rule
      obtain ⟨hhdl, hnobody⟩ := h.of_freeSlot hfree
      have hslot := hexact.slot hhdl
      simp [pool_setSlot, hnobody] at hslot

theorem Inv.step_del (h : w.Inv hdls) (hdist : Distinct hdls) {mac : Option Mac} :
    (Meets w (.del a mac) → (w.delWlanClientFltRule a mac).1.Inv hdls) ∧
    ((w.delWlanClientFltRule a mac).1.Exact hdls → Meets w (.del a mac)) := by
  cases mac with
  | none => exact ⟨fun _ => h, fun _ => by simp [Meets]⟩
  | some m =>
    cases hfound : record ClientFltInfo.mac w.info m with
    | none =>
      simp only [delWlanClientFltRule, hfound]
      exact ⟨fun _ => h, fun _ => by simp [Meets, hfound]⟩
    | some c =>
      have howned : ∀ t, (c.rule t).fltRuleSet = true →
          ∃ j, hdls t j = some (c.rule t).fltRuleHdl :=
        fun t hset => h.owned (owners_pos (mem_of_record hfound) hset)
      have hmeets : Meets w (.del a (some m)) ↔
          ((c.rule .v4).fltRuleSet = true → Refuses a .v6 c → Refuses a .v4 c) := by
        simp [Meets, hfound]
      rw [hmeets]
      by_cases h4 : Refuses a .v4 c
      · simp only [delWlanClientFltRule, hfound, releaseRule_of_refuses h4]
        exact ⟨fun _ => h, fun _ _ _ => h4⟩
      obtain ⟨w₁, heq₁, hrel₁⟩ := releaseRule_of_not_refuses hdist h.ruleHdl (howned .v4) h4
      by_cases h6 : Refuses a .v6 c
      · simp only [delWlanClientFltRule, hfound, heq₁, releaseRule_of_refuses h6]
        by_cases hset : (c.rule .v4).fltRuleSet = true
        · refine ⟨fun hok => absurd (hok hset h6) h4, fun hexact => ?_⟩
          -- the IPv4 rule is free, and the client owns it
          obtain ⟨j, hj⟩ := howned .v4 hset
          have hhdl : (w.pool .v4 j).ruleHdl = (c.rule .v4).fltRuleHdl := by
            rw [h.ruleHdl, hj, Option.getD_some]
          have hfree : (w₁.pool .v4 j).valid = true :=
            (hrel₁.valid .v4 j).2 (.inr ⟨rfl, hset, hhdl.symm⟩)
          have hslot := hexact.slot hj
          rw [hfree, if_pos rfl, owners, hrel₁.info] at hslot
          exact absurd hslot (owners_pos (mem_of_record hfound) hset).ne'
        · refine ⟨fun _ => ?_, fun _ hset' => absurd hset' hset⟩
          have hsame : (w, true) = (w₁, true) := by
            rw [← heq₁, releaseRule, if_pos (by simpa using hset)]
          rwa [← (Prod.mk.inj hsame).1]
      · obtain ⟨w₂, heq₂, hrel₂⟩ := releaseRule_of_not_refuses (w := w₁) hdist
          (fun t j => (hrel₁.ruleHdl t j).trans (h.ruleHdl t j)) (howned .v6) h6
        simp only [delWlanClientFltRule, hfound, heq₁, heq₂]
        refine ⟨fun _ => h.remove hdist hfound hrel₁ hrel₂, fun _ _ hrefuses => ?_⟩
        exact absurd hrefuses h6

/-- **The filter rules for the WLAN clients**, in every run of calls that meet the condition: each
    rule of a pool is free or one client's, and the next call keeps it so just if it meets the
    condition. -/
theorem run_wlan_client_flt (hdist : Distinct hdls) {tr : List (FltCall × Bool)}
    (run : Run step Meets (init hdls) tr w) :
    w.Exact hdls ∧ ∀ call w' res, step w call = .ok (w', res) →
      (w'.Exact hdls ↔ Meets w call) := by
  have hstep : ∀ {w call w' res}, Inv hdls w → step w call = .ok (w', res) →
      (Meets w call → w'.Inv hdls) ∧ (w'.Exact hdls → Meets w call) := by
    intro w call w' res h hstep
    cases call with
    | add a mac t =>
      obtain rfl : (w.addWlanClientFltRule a mac t).1 = w' :=
        (ok_pair hstep).1
      exact h.step_add hdist
    | del a mac =>
      obtain rfl : (w.delWlanClientFltRule a mac).1 = w' :=
        (ok_pair hstep).1
      exact h.step_del hdist
  have h : w.Inv hdls := by
    refine run.invariant (fun _ w => w.Inv hdls) inv_init fun tr w call w' res h hmeets hs => ?_
    exact (hstep h hs).1 hmeets
  refine ⟨h.exact, fun call w' res hs => ?_⟩
  obtain ⟨hkeeps, honly⟩ := hstep h hs
  exact ⟨honly, fun hmeets => (hkeeps hmeets).exact⟩

/-! ### Examples -/

instance instDecidableMeets (w : BridgeFlt) (call : FltCall) : Decidable (Meets w call) :=
  match call with
  | .add a mac t =>
    inferInstanceAs (Decidable (∀ x ∈ w.asked a mac t, a.modifyFilteringRule x.2.2 = true))
  | .del a mac =>
    inferInstanceAs (Decidable (∀ c ∈ mac.bind (record ClientFltInfo.mac w.info),
      (c.rule .v4).fltRuleSet = true → Refuses a .v6 c → Refuses a .v4 c))

/-- Both pools were installed, with the handles from 100 on. -/
def pools (_ : IpType) (j : Fin maxWlanClient) : Option Hdl := some (BitVec.ofNat 32 (100 + j.val))

theorem distinct_pools : Distinct pools where
  only := by
    intro t i j hdl hi hj
    have heq : BitVec.ofNat 32 (100 + i.val) = BitVec.ofNat 32 (100 + j.val) :=
      (Option.some.inj hi).trans hj.symm
    have hval := congrArg BitVec.toNat heq
    simp only [BitVec.toNat_ofNat, maxWlanClient] at hval hi hj
    exact Fin.ext (by omega)

/-- The driver accepts just the changes of a rule of these versions. -/
def accepts (ips : List IpType) : Answers :=
  { getRoutingTable := fun _ => some 9, modifyFilteringRule := fun rule => rule.ip ∈ ips }

/-- The slots of a version that are not free, and the clients. -/
def outcome (w : BridgeFlt) (t : IpType) : List Nat × List ClientFltInfo :=
  (((List.finRange maxWlanClient).filter fun j => (w.pool t j).valid = false).map Fin.val, w.info)

/-- Two clients come. The first one cannot go while the driver does not reset its IPv4 rule. -/
def clients : List FltCall :=
  [.add (accepts [.v4, .v6]) (some 1) .v4, .add (accepts [.v4, .v6]) (some 1) .v6,
    .add (accepts [.v4]) (some 2) .v4, .del (accepts [.v6]) (some 1),
    .del (accepts [.v4, .v6]) (some 1)]

theorem run_wlan_client_flt_clients : ∃ tr w,
    Run step Meets (init pools) tr w ∧ tr.map Prod.fst = clients ∧
    outcome w .v4 = ([1], [{ mac := 2, v4 := ⟨101, true⟩ }]) ∧ w.Exact pools := by
  obtain ⟨tr, w, run, hcalls, houtcome⟩ := Run.exists_of_allMeet
    (g := fun w : BridgeFlt => outcome w .v4)
    (show (exec step (init pools) clients).toOption.map _ =
      some ([1], [{ mac := 2, v4 := ⟨101, true⟩ }]) by decide +kernel)
    (show allMeet step (fun w call => decide (Meets w call)) (init pools) clients = true by
      decide +kernel)
  exact ⟨tr, w, run, hcalls, houtcome, (run_wlan_client_flt distinct_pools run).1⟩

/-- The driver refuses the rule: it is not free any more, and there is no client. -/
theorem run_wlan_client_flt_refused : ¬ ∀ hdls, Distinct hdls → ∀ tr w,
    Run step (fun _ _ => True) (init hdls) tr w → w.Exact hdls := by
  intro hall
  obtain ⟨tr, w, run, houtcome⟩ : ∃ tr w, Run step (fun _ _ => True) (init pools) tr w ∧
      outcome w .v4 = ([0], []) :=
    Run.exists_of_exec (C := fun _ => True)
      (show (exec step (init pools) [.add (accepts []) (some 1) .v4]).toOption.map _ = _ by
        decide +kernel)
      fun _ _ => trivial
  obtain ⟨htaken, hinfo⟩ := Prod.mk.inj houtcome
  obtain ⟨j, hj, -⟩ := List.mem_map.1 (htaken.symm ▸ List.mem_singleton_self 0)
  have hvalid : (w.pool .v4 j).valid = false := by simpa using hj
  have hslot := (hall pools distinct_pools tr w run).slot (t := .v4) (j := j) rfl
  simp [owners, hinfo, hvalid] at hslot

end BridgeFlt

end Nx508j.Ipacm.EthBridge
