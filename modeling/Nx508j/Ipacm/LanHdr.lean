import Mathlib.Data.Fintype.Card
import Nx508j.Ipacm.LanToLan

/-! # The headers of an interface

For a link an `IPACM_Lan` installs a header, and keeps its handle in one of `MAX_OFFLOAD_PAIR` slots
for each IP version. The slot is marked before the driver is asked for the header, and the mark
stays if the driver refuses. There is no counter of the slots.

The answers of the driver come with a call. A handle that it has given out and not taken back counts
as a refusal. -/

namespace Nx508j.Ipacm.Lan2Lan

open Nx508j.Lib Function

/-- `lan2lan_hdr_hdl`: a slot. -/
structure HdrSlot where
  hdrHdl : Hdl := 0
  valid : Bool := false
deriving DecidableEq, Repr

/-- A TX property: its IP version and the name of its header. -/
structure TxProp where
  ip : IpType
  hdrName : String
deriving DecidableEq, Repr

/-- `struct ipa_ioc_copy_hdr`, with the `hdr_len` bytes of `hdr`. -/
structure CopyHdr where
  hdr : List (BitVec 8)
  isEth2OfstValid : Bool
  eth2Ofst : Nat
deriving DecidableEq, Repr

/-- `struct ipa_ioc_add_hdr` with its one header. -/
structure AddHdr where
  name : String
  hdr : List (BitVec 8)
deriving DecidableEq, Repr

/-- What an interface has: its TX properties, if any, and `IPA_HDR_MAX_SIZE`. -/
structure HdrIface where
  txProp : Option (List TxProp)
  hdrMaxSize : Nat

/-- What `malloc` and the driver answer. -/
structure HdrAnswers where
  malloc : Bool := true
  copyHeader : String → Option CopyHdr
  addHeader : AddHdr → Option Hdl

/-- `IPA_RESOURCE_NAME_MAX` of the driver. -/
def ipaResourceNameMax : Nat := 32

/-- `IPA_LAN_TO_LAN_USB_HDR_NAME_V4` and `IPA_LAN_TO_LAN_USB_HDR_NAME_V6`. -/
def lanToLanUsbHdrName : IpType → String
  | .v4 => "Lan2Lan_USB_v4"
  | .v6 => "Lan2Lan_USB_v6"

/-- The tables of the two IP versions. `installed` records the slots for which a header was
    installed that has not been deleted, with the handle. -/
structure HdrWorld where
  table : IpType → Fin maxOffloadPair → HdrSlot
  installed : IpType → List (Fin maxOffloadPair × Hdl)

namespace HdrWorld

/-- The constructor. -/
def init : HdrWorld := ⟨fun _ _ => {}, fun _ => []⟩

variable (w : HdrWorld)

def setSlot (t : IpType) (j : Fin maxOffloadPair) (x : HdrSlot) : HdrWorld :=
  { w with table := update w.table t (update (w.table t) j x) }

/-- A header has been installed for a slot. -/
def record (t : IpType) (j : Fin maxOffloadPair) (hdl : Hdl) : HdrWorld :=
  { w with installed := update w.installed t (w.installed t ++ [(j, hdl)]) }

/-- A header has been deleted. -/
def strike (hdl : Hdl) : HdrWorld :=
  { w with installed := fun t => (w.installed t).filter fun x => x.2 ≠ hdl }

/-- The header with the handle is installed. -/
def Installed (hdl : Hdl) : Prop :=
  hdl ∈ (w.installed .v4).map Prod.snd ∨ hdl ∈ (w.installed .v6).map Prod.snd

instance instDecidableInstalled (hdl : Hdl) : Decidable (w.Installed hdl) :=
  inferInstanceAs (Decidable (_ ∨ _))

/-- `AddHeader`. -/
def addHeader (a : HdrAnswers) (pHeader : AddHdr) : Option Hdl :=
  (a.addHeader pHeader).filter fun hdl => ¬ w.Installed hdl

/-- The first slot that is not valid. -/
def freeSlot (t : IpType) : Option (Fin maxOffloadPair) :=
  Fin.find? fun j : Fin maxOffloadPair => (w.table t j).valid = false

/-- The first slot with the handle. -/
def slotOf (t : IpType) (hdl : Hdl) : Option (Fin maxOffloadPair) :=
  Fin.find? fun i : Fin maxOffloadPair => (w.table t i).hdrHdl = hdl

end HdrWorld

def macBytes (m : Mac) : List (BitVec 8) :=
  (List.range 6).map fun i => m.extractLsb' (8 * (5 - i)) 8

/-- The bytes from `ofst` on are replaced. -/
def overwrite (l : List (BitVec 8)) (ofst : Nat) (bytes : List (BitVec 8)) : List (BitVec 8) :=
  l.take ofst ++ bytes ++ l.drop (ofst + bytes.length)

/-- The header of a link. -/
def linkHdr (c : CopyHdr) (srcMac dstMac : Mac) : List (BitVec 8) :=
  if c.isEth2OfstValid then
    overwrite (overwrite c.hdr c.eth2Ofst (macBytes dstMac)) (c.eth2Ofst + 6) (macBytes srcMac)
  else c.hdr

/-- The part of `add_lan2lan_hdr` for an IP version: whether it succeeds, and what it stores to
    `hdr_hdl`. Without a TX property of this version it does nothing and succeeds. -/
def addHdr (iface : HdrIface) (a : HdrAnswers) (t : IpType) (srcMac dstMac : Mac)
    (txProp : List TxProp) (w : HdrWorld) : HdrWorld × Bool × Option Hdl :=
  match txProp.find? fun tx => tx.ip = t with
  | none => (w, true, none)
  | some tx =>
    match a.copyHeader tx.hdrName with
    | none => (w, false, none)
    | some sCopyHeader =>
      if iface.hdrMaxSize < sCopyHeader.hdr.length then (w, false, none)
      else
        match w.freeSlot t with
        | none => (w, false, none)
        | some j =>
          let w := w.setSlot t j { w.table t j with valid := true }
          let name := lanToLanUsbHdrName t ++ toString j.val
          if ipaResourceNameMax < name.length then (w, false, none)
          else
            match w.addHeader a ⟨name, linkHdr sCopyHeader srcMac dstMac⟩ with
            | none => (w, false, none)
            | some hdl =>
              ((w.setSlot t j ⟨hdl, true⟩).record t j hdl, true, some hdl)

/-- `add_lan2lan_hdr`. A pointer that may be `NULL` is an option, and `out` is whether `hdr_hdl` is
    not. -/
def addLan2lanHdr (iface : HdrIface) (a : HdrAnswers) (iptype : Option IpType)
    (srcMac dstMac : Option Mac) (out : Bool) (w : HdrWorld) : HdrWorld × Bool × Option Hdl :=
  match iface.txProp, srcMac, dstMac with
  | some txProp, some srcMac, some dstMac =>
    if out = false then (w, false, none)
    else if a.malloc = false then (w, false, none)
    else
      match iptype with
      | none => (w, true, none)
      | some t => addHdr iface a t srcMac dstMac txProp w
  | _, _, _ => (w, false, none)

/-- `del_lan2lan_hdr`. `DeleteHeaderHdl` refuses the handle 0. -/
def delLan2lanHdr (answer : Bool) (iptype : Option IpType) (hdrHdl : Hdl) (w : HdrWorld) :
    HdrWorld × Bool :=
  if hdrHdl = 0 ∨ answer = false then (w, false)
  else
    let w := w.strike hdrHdl
    match iptype with
    | none => (w, false)
    | some t =>
      match w.slotOf t hdrHdl with
      | none => (w, false)
      | some i => (w.setSlot t i { w.table t i with valid := false }, true)

inductive HdrCall
  | add (a : HdrAnswers) (iptype : Option IpType) (srcMac dstMac : Option Mac) (out : Bool)
  | del (answer : Bool) (iptype : Option IpType) (hdrHdl : Hdl)

namespace HdrWorld

variable {w w' : HdrWorld} {t t' : IpType} {i j : Fin maxOffloadPair} {hdl : Hdl} (x : HdrSlot)

def step (iface : HdrIface) (w : HdrWorld) : HdrCall → Except Fault (HdrWorld × Bool)
  | .add a iptype srcMac dstMac out =>
    let (w, res, _) := addLan2lanHdr iface a iptype srcMac dstMac out w
    .ok (w, res)
  | .del answer iptype hdrHdl => .ok (delLan2lanHdr answer iptype hdrHdl w)

/-! ## What is asked of the slots -/

/-- A slot is valid just if it holds the handle of a header that was installed for it and not
    deleted, and as many slots are valid as there are such headers. -/
structure Exact (w : HdrWorld) : Prop where
  valid : ∀ t j, (w.table t j).valid = true ↔ (j, (w.table t j).hdrHdl) ∈ w.installed t
  count : ∀ t, (Finset.univ.filter fun j => (w.table t j).valid = true).card =
    (w.installed t).length

/-- **The invariant.** A handle that is installed is in one slot only, and in none before it, where
    the handle of a header that was deleted may be left. -/
structure Inv (w : HdrWorld) : Prop where
  valid : ∀ {t j}, (w.table t j).valid = true → (j, (w.table t j).hdrHdl) ∈ w.installed t
  holds : ∀ {t j hdl}, (j, hdl) ∈ w.installed t → w.table t j = ⟨hdl, true⟩
  slots : ∀ t, ((w.installed t).map Prod.fst).Nodup
  first : ∀ {t i j hdl}, (j, hdl) ∈ w.installed t → i < j → (w.table t i).hdrHdl ≠ hdl
  version : ∀ {t t' j j' hdl}, (j, hdl) ∈ w.installed t → (j', hdl) ∈ w.installed t' → t = t'

theorem Inv.exact (h : w.Inv) : w.Exact where
  valid := fun t j => ⟨h.valid, fun hmem => by rw [h.holds hmem]⟩
  count := fun t => by
    have hslots : (Finset.univ.filter fun j => (w.table t j).valid = true) =
        ((w.installed t).map Prod.fst).toFinset := by
      ext j
      simp only [Finset.mem_filter, Finset.mem_univ, true_and, List.mem_toFinset, List.mem_map]
      constructor
      · exact fun hvalid => ⟨_, h.valid hvalid, rfl⟩
      · rintro ⟨⟨j, hdl⟩, hmem, rfl⟩
        rw [h.holds hmem]
    rw [hslots, List.toFinset_card_of_nodup (h.slots t), List.length_map]

theorem inv_init : init.Inv where
  valid := by simp [init]
  holds := by simp [init]
  slots := by simp [init]
  first := by simp [init]
  version := by simp [init]

/-! ## The two changes of a slot -/

theorem table_setSlot :
    (w.setSlot t j x).table t' i = if t' = t ∧ i = j then x else w.table t' i := by
  by_cases ht : t' = t
  · subst ht
    by_cases hi : i = j
    · subst hi
      simp [setSlot]
    · simp [setSlot, hi]
  · simp [setSlot, ht]

@[simp] theorem installed_setSlot : (w.setSlot t j x).installed = w.installed := rfl

@[simp] theorem setSlot_setSlot (x y : HdrSlot) :
    (w.setSlot t j x).setSlot t j y = w.setSlot t j y := by
  simp [setSlot]

@[simp] theorem addHeader_setSlot (a : HdrAnswers) :
    (w.setSlot t j x).addHeader a = w.addHeader a := rfl

@[simp] theorem table_record : (w.record t j hdl).table = w.table := rfl

theorem mem_record {y : Fin maxOffloadPair × Hdl} :
    y ∈ (w.record t j hdl).installed t' ↔ y ∈ w.installed t' ∨ t' = t ∧ y = (j, hdl) := by
  by_cases ht : t' = t
  · subst ht
    simp [record]
  · simp [record, ht]

@[simp] theorem table_strike : (w.strike hdl).table = w.table := rfl

theorem mem_strike {y : Fin maxOffloadPair × Hdl} :
    y ∈ (w.strike hdl).installed t ↔ y ∈ w.installed t ∧ y.2 ≠ hdl := by
  simp [strike]

theorem Installed.of_mem (hmem : (j, hdl) ∈ w.installed t) : w.Installed hdl := by
  have hhdl := List.mem_map_of_mem (f := Prod.snd) hmem
  cases t with
  | v4 => exact .inl hhdl
  | v6 => exact .inr hhdl

theorem freeSlot_spec (h : w.freeSlot t = some j) :
    (w.table t j).valid = false ∧ ∀ i < j, (w.table t i).valid = true := by
  obtain ⟨hj, hbefore⟩ := Fin.find?_eq_some_iff.1 h
  exact ⟨by simpa using hj, fun i hi => by simpa using hbefore i hi⟩

theorem slotOf_spec (h : w.slotOf t hdl = some j) :
    (w.table t j).hdrHdl = hdl ∧ ∀ i < j, (w.table t i).hdrHdl ≠ hdl := by
  obtain ⟨hj, hbefore⟩ := Fin.find?_eq_some_iff.1 h
  exact ⟨by simpa using hj, fun i hi => by simpa using hbefore i hi⟩

theorem Inv.fill (h : w.Inv) (hfree : w.freeSlot t = some j) (hfresh : ¬ w.Installed hdl) :
    ((w.setSlot t j ⟨hdl, true⟩).record t j hdl).Inv := by
  obtain ⟨hj, hbefore⟩ := freeSlot_spec hfree
  -- no header is installed for a slot that is free
  have hnot : ∀ {hdl'}, (j, hdl') ∉ w.installed t := by
    intro hdl' hmem
    rw [h.holds hmem] at hj
    cases hj
  have hne : ∀ {t' j' hdl'}, (j', hdl') ∈ w.installed t' → hdl' ≠ hdl := by
    rintro t' j' hdl' hmem rfl
    exact hfresh (.of_mem hmem)
  constructor
  · intro t' i hvalid
    rw [table_record, table_setSlot] at hvalid ⊢
    rw [mem_record]
    split at hvalid
    next heq =>
      rw [if_pos heq]
      exact .inr ⟨heq.1, by rw [heq.2]⟩
    next hother =>
      rw [if_neg hother]
      exact .inl (h.valid hvalid)
  · intro t' i hdl' hmem
    rw [table_record, table_setSlot]
    obtain hmem | ⟨rfl, heq⟩ := mem_record.1 hmem
    · rw [if_neg, h.holds hmem]
      rintro ⟨rfl, rfl⟩
      exact hnot hmem
    · cases heq
      rw [if_pos ⟨rfl, rfl⟩]
  · intro t'
    by_cases ht : t' = t
    · subst ht
      simp only [record, installed_setSlot, update_self, List.map_append, List.map_cons,
        List.map_nil, List.nodup_append, h.slots, List.nodup_singleton, List.mem_singleton, true_and]
      rintro i hi _ rfl rfl
      obtain ⟨⟨i, hdl'⟩, hmem, rfl⟩ := List.mem_map.1 hi
      exact hnot hmem
    · simpa [record, ht] using h.slots t'
  · intro t' i i' hdl' hmem hlt
    rw [table_record, table_setSlot]
    obtain hmem | ⟨rfl, heq⟩ := mem_record.1 hmem
    · split
      · exact (hne hmem).symm
      · exact h.first hmem hlt
    · cases heq
      -- the slots before it are taken
      rw [if_neg fun hsame => hlt.ne hsame.2]
      exact hne (h.valid (hbefore i hlt))
  · intro t₁ t₂ j₁ j₂ hdl' hmem₁ hmem₂
    obtain hmem₁ | ⟨rfl, heq₁⟩ := mem_record.1 hmem₁ <;>
      obtain hmem₂ | ⟨rfl, heq₂⟩ := mem_record.1 hmem₂
    · exact h.version hmem₁ hmem₂
    · exact absurd (Prod.mk.inj heq₂).2 (hne hmem₁)
    · exact absurd (Prod.mk.inj heq₁).2 (hne hmem₂)
    · rfl

/-- A header is deleted, and the first slot with its handle is freed, where no other version of the
    table has it. -/
theorem Inv.free (h : w.Inv) (hslot : w.slotOf t hdl = some j)
    (hversion : ∀ t' j', (j', hdl) ∈ w.installed t' → t' = t) :
    ((w.strike hdl).setSlot t j { w.table t j with valid := false }).Inv := by
  obtain ⟨hj, hbefore⟩ := slotOf_spec hslot
  -- what is left has another handle, and so another slot
  have hother : ∀ {t' i hdl'}, (i, hdl') ∈ (w.strike hdl).installed t' →
      (i, hdl') ∈ w.installed t' ∧ hdl' ≠ hdl ∧ ¬ (t' = t ∧ i = j) := by
    intro t' i hdl' hmem
    obtain ⟨hmem, hne⟩ := mem_strike.1 hmem
    refine ⟨hmem, hne, ?_⟩
    rintro ⟨rfl, rfl⟩
    rw [h.holds hmem] at hj
    exact hne hj
  constructor
  · intro t' i hvalid
    rw [table_setSlot, table_strike] at hvalid ⊢
    split at hvalid
    next => cases hvalid
    next hnot =>
      rw [if_neg hnot, installed_setSlot, mem_strike]
      refine ⟨h.valid hvalid, fun heq : (w.table t' i).hdrHdl = hdl => hnot ?_⟩
      -- the handle is in the first slot that has it
      have hmem := h.valid hvalid
      rw [heq] at hmem
      have ht := hversion _ _ hmem
      subst ht
      refine ⟨rfl, ?_⟩
      rcases lt_trichotomy i j with hlt | rfl | hlt
      · exact absurd heq (hbefore i hlt)
      · rfl
      · exact absurd hj (h.first hmem hlt)
  · intro t' i hdl' hmem
    obtain ⟨hmem, -, hnot⟩ := hother hmem
    rw [table_setSlot, table_strike, if_neg hnot]
    exact h.holds hmem
  · intro t'
    exact (h.slots t').sublist ((List.filter_sublist ..).map _)
  · intro t' i i' hdl' hmem hlt
    obtain ⟨hmem, hne, -⟩ := hother hmem
    rw [table_setSlot, table_strike]
    split
    · rw [hj]
      exact hne.symm
    · exact h.first hmem hlt
  · intro t₁ t₂ j₁ j₂ hdl' hmem₁ hmem₂
    exact h.version (hother hmem₁).1 (hother hmem₂).1

/-! ## What a call asks for -/

/-- The slot that `add_lan2lan_hdr` claims, and the header that it then asks the driver for. -/
def asked (iface : HdrIface) (a : HdrAnswers) (iptype : Option IpType) (srcMac dstMac : Option Mac)
    (out : Bool) (w : HdrWorld) : Option (IpType × Fin maxOffloadPair × AddHdr) := do
  let txProp ← iface.txProp
  let srcMac ← srcMac
  let dstMac ← dstMac
  let t ← iptype
  guard (out = true ∧ a.malloc = true)
  let tx ← txProp.find? fun tx => tx.ip = t
  let sCopyHeader ← a.copyHeader tx.hdrName
  guard (sCopyHeader.hdr.length ≤ iface.hdrMaxSize)
  let j ← w.freeSlot t
  return (t, j, ⟨lanToLanUsbHdrName t ++ toString j.val, linkHdr sCopyHeader srcMac dstMac⟩)

variable {iface : HdrIface} {a : HdrAnswers} {iptype : Option IpType} {srcMac dstMac : Option Mac}
  {out answer : Bool} {pHeader : AddHdr}

theorem hdrName_length (t : IpType) (j : Fin maxOffloadPair) :
    (lanToLanUsbHdrName t ++ toString j.val).length ≤ ipaResourceNameMax := by
  cases t with
  | v4 | v6 =>
    revert j
    decide +kernel

theorem addLan2lanHdr_of_none (h : w.asked iface a iptype srcMac dstMac out = none) :
    (addLan2lanHdr iface a iptype srcMac dstMac out w).1 = w := by
  unfold addLan2lanHdr
  split
  next _ _ _ txProp src dst htxProp =>
    split
    · rfl
    next hout =>
      split
      · rfl
      next hmalloc =>
        split
        · rfl
        next t =>
          -- a version: the TX property, its header and a free slot
          unfold addHdr
          split
          · rfl
          next tx htx =>
            split
            · rfl
            next c hc =>
              split
              · rfl
              next hsize =>
                split
                · rfl
                next j hj =>
                  have hguard : out = true ∧ a.malloc = true := by simp_all
                  simp [asked, htxProp, hguard, htx, hc, not_lt.1 hsize, hj] at h
  · rfl

theorem addLan2lanHdr_of_some (h : w.asked iface a iptype srcMac dstMac out = some (t, j, pHeader)) :
    w.freeSlot t = some j ∧
    addLan2lanHdr iface a iptype srcMac dstMac out w =
      match w.addHeader a pHeader with
      | none => (w.setSlot t j { w.table t j with valid := true }, false, none)
      | some hdl => ((w.setSlot t j ⟨hdl, true⟩).record t j hdl, true, some hdl) := by
  simp only [asked, Option.bind_eq_bind, Option.bind_eq_some_iff, Option.guard_eq_some',
    Option.pure_def, Option.some.injEq, Prod.mk.injEq] at h
  obtain ⟨txProp, htxProp, src, rfl, dst, rfl, t, rfl, ⟨⟩, hguard, tx, htx, c, hc, ⟨⟩, hsize, j, hj,
    rfl, rfl, rfl⟩ := h
  refine ⟨hj, ?_⟩
  have hname := (hdrName_length t j).not_gt
  simp only [addLan2lanHdr, htxProp, hguard.1, hguard.2, addHdr, htx, hc, hsize.not_gt, hj, hname,
    addHeader_setSlot, setSlot_setSlot, Bool.true_eq_false, if_false]

/-! ## When a call keeps the slots exact -/

/-- The condition: a header that is asked for is installed, and a header that is deleted is deleted
    for the version it was added for. -/
def Meets (iface : HdrIface) (w : HdrWorld) : HdrCall → Prop
  | .add a iptype srcMac dstMac out =>
    ∀ x ∈ w.asked iface a iptype srcMac dstMac out, w.addHeader a x.2.2 ≠ none
  | .del answer iptype hdrHdl =>
    hdrHdl ≠ 0 → answer = true →
      ∀ t, ∀ x ∈ w.installed t, x.2 = hdrHdl → iptype = some t

/-- What is asked of a call: the slots are exact after it, and an addition that fails changes
    nothing. -/
def Keeps (w : HdrWorld) (call : HdrCall) (w' : HdrWorld) (res : Bool) : Prop :=
  w'.Exact ∧ ∀ a iptype srcMac dstMac out,
    call = .add a iptype srcMac dstMac out → res = false → w' = w

theorem not_exact (hvalid : (w.table t j).valid = true)
    (hnot : (j, (w.table t j).hdrHdl) ∉ w.installed t) : ¬ w.Exact :=
  fun h => hnot ((h.valid t j).1 hvalid)

theorem Inv.step_add (h : w.Inv) {res : Bool}
    (hstep : step iface w (.add a iptype srcMac dstMac out) = .ok (w', res)) :
    (Meets iface w (.add a iptype srcMac dstMac out) → w'.Inv ∧ (res = false → w' = w)) ∧
    (w'.Exact → Meets iface w (.add a iptype srcMac dstMac out)) := by
  obtain ⟨rfl, rfl⟩ : (addLan2lanHdr iface a iptype srcMac dstMac out w).1 = w' ∧
      (addLan2lanHdr iface a iptype srcMac dstMac out w).2.1 = res := by
    simpa [step] using hstep
  cases hasked : w.asked iface a iptype srcMac dstMac out with
  | none =>
    have hmeets : Meets iface w (.add a iptype srcMac dstMac out) := by simp [Meets, hasked]
    rw [addLan2lanHdr_of_none hasked]
    exact ⟨fun _ => ⟨h, fun _ => rfl⟩, fun _ => hmeets⟩
  | some x =>
    obtain ⟨t, j, pHeader⟩ := x
    obtain ⟨hfree, heq⟩ := addLan2lanHdr_of_some hasked
    rw [heq]
    cases hadd : w.addHeader a pHeader with
    | none =>
      -- the slot is claimed, and no header is installed for it
      have hnot : ¬ Meets iface w (.add a iptype srcMac dstMac out) := by
        simp [Meets, hasked, hadd]
      refine ⟨fun hmeets => absurd hmeets hnot, fun hexact => absurd hexact ?_⟩
      have hj := (freeSlot_spec hfree).1
      refine not_exact (t := t) (j := j) ?_ fun hmem => ?_
      · simp [table_setSlot]
      · rw [installed_setSlot] at hmem
        rw [h.holds hmem] at hj
        cases hj
    | some hdl =>
      have hmeets : Meets iface w (.add a iptype srcMac dstMac out) := by
        simp [Meets, hasked, hadd]
      have hfresh : ¬ w.Installed hdl := by
        simpa using (Option.mem_filter_iff.1 hadd).2
      exact ⟨fun _ => ⟨h.fill hfree hfresh, fun hres => by cases hres⟩, fun _ => hmeets⟩

theorem strike_of_not_mem (hnot : ∀ t, ∀ x ∈ w.installed t, x.2 ≠ hdl) : w.strike hdl = w := by
  have hinstalled : (fun t => (w.installed t).filter fun x => x.2 ≠ hdl) = w.installed := by
    funext t
    refine List.filter_eq_self.2 fun x hx => ?_
    simpa using hnot t x hx
  rw [strike, hinstalled]

theorem slotOf_ne_none (h : w.Inv) (hmem : (j, hdl) ∈ w.installed t) : w.slotOf t hdl ≠ none := by
  intro hnone
  have hne := Fin.find?_eq_none_iff.1 hnone j
  rw [h.holds hmem] at hne
  simp at hne

theorem delLan2lanHdr_other (hhdl : hdl ≠ 0) (hother : iptype ≠ some t) :
    (delLan2lanHdr true iptype hdl w).1.table t = w.table t ∧
    (delLan2lanHdr true iptype hdl w).1.installed = (w.strike hdl).installed := by
  rw [delLan2lanHdr, if_neg (by simpa using hhdl)]
  dsimp only
  split
  · exact ⟨rfl, rfl⟩
  next t' =>
    split
    · exact ⟨rfl, rfl⟩
    · have hne : t ≠ t' := fun heq => hother (congrArg some heq.symm)
      refine ⟨?_, rfl⟩
      funext i
      rw [table_setSlot, if_neg fun hsame => hne hsame.1, table_strike]

theorem Inv.step_del (h : w.Inv) {res : Bool}
    (hstep : step iface w (.del answer iptype hdl) = .ok (w', res)) :
    (Meets iface w (.del answer iptype hdl) → w'.Inv) ∧
    (w'.Exact → Meets iface w (.del answer iptype hdl)) := by
  obtain rfl : (delLan2lanHdr answer iptype hdl w).1 = w' := by
    simpa [step] using congrArg Prod.fst (Except.ok.inj hstep)
  by_cases hrefused : hdl = 0 ∨ answer = false
  · rw [delLan2lanHdr, if_pos hrefused]
    refine ⟨fun _ => h, fun _ hhdl hanswer => ?_⟩
    rcases hrefused with hzero | hfalse
    · exact absurd hzero hhdl
    · exact absurd hanswer (by simp [hfalse])
  · obtain ⟨hhdl, rfl⟩ : hdl ≠ 0 ∧ answer = true := by simpa using hrefused
    constructor
    · intro hmeets
      -- the header is one of this version
      have hversion : ∀ t' j', (j', hdl) ∈ w.installed t' → iptype = some t' :=
        fun _ _ hmem => hmeets hhdl rfl _ _ hmem rfl
      have hnot : (∀ t', ∀ x ∈ w.installed t', x.2 ≠ hdl) → (w.strike hdl).Inv :=
        fun hnone => (strike_of_not_mem hnone).symm ▸ h
      rw [delLan2lanHdr, if_neg hrefused]
      dsimp only
      split
      · refine hnot fun t' x hx hxhdl => ?_
        have hnone := hversion t' x.1 (hxhdl ▸ hx)
        cases hnone
      next t =>
        split
        next hslot =>
          refine hnot fun t' x hx hxhdl => ?_
          obtain rfl := Option.some.inj (hversion t' x.1 (hxhdl ▸ hx))
          exact slotOf_ne_none h (j := x.1) (hxhdl ▸ hx) hslot
        next i hslot =>
          exact h.free hslot fun _ _ hmem => (Option.some.inj (hversion _ _ hmem)).symm
    · intro hexact _ _ t x hx hxhdl
      by_contra hother
      -- the slot of the header is left as it is
      obtain ⟨htable, hinstalled⟩ := delLan2lanHdr_other (w := w) hhdl hother
      subst hxhdl
      refine not_exact (t := t) (j := x.1) ?_ ?_ hexact
      · rw [htable, h.holds hx]
      · rw [htable, hinstalled, h.holds hx, mem_strike]
        exact fun hmem => hmem.2 rfl

/-- **The slots of an interface**, in every run of calls that meet the condition: they are exact,
    and the next call keeps them so, and changes nothing where it is an addition that fails, just if
    it meets the condition. -/
theorem run_lan2lan_hdr {tr : List (HdrCall × Bool)}
    (run : Run (step iface) (Meets iface) init tr w) :
    w.Exact ∧ ∀ call w' res, step iface w call = .ok (w', res) →
      (Keeps w call w' res ↔ Meets iface w call) := by
  have h : w.Inv := by
    refine run.invariant (fun _ w => w.Inv) inv_init fun tr w call w' res h hmeets hstep => ?_
    cases call with
    | add => exact ((h.step_add hstep).1 hmeets).1
    | del => exact (h.step_del hstep).1 hmeets
  refine ⟨h.exact, fun call w' res hstep => ?_⟩
  cases call with
  | add a iptype srcMac dstMac out =>
    obtain ⟨hkeeps, honly⟩ := h.step_add hstep
    refine ⟨fun hk => honly hk.1, fun hmeets => ⟨(hkeeps hmeets).1.exact, ?_⟩⟩
    intro _ _ _ _ _ _ hres
    exact (hkeeps hmeets).2 hres
  | del answer iptype hdl =>
    obtain ⟨hkeeps, honly⟩ := h.step_del hstep
    exact ⟨fun hk => honly hk.1, fun hmeets => ⟨(hkeeps hmeets).exact,
      fun _ _ _ _ _ hcall => by cases hcall⟩⟩

/-! ### Examples -/

/-- A test for it. -/
def meetsTest (iface : HdrIface) (w : HdrWorld) : HdrCall → Bool
  | .add a iptype srcMac dstMac out =>
    (w.asked iface a iptype srcMac dstMac out).all fun x => (w.addHeader a x.2.2).isSome
  | .del answer iptype hdrHdl =>
    hdrHdl = 0 || !answer ||
      ((w.installed .v4).all fun x => x.2 ≠ hdrHdl || iptype = some .v4) &&
        (w.installed .v6).all fun x => x.2 ≠ hdrHdl || iptype = some .v6

theorem meetsTest_iff (iface : HdrIface) (w : HdrWorld) (call : HdrCall) :
    w.meetsTest iface call = true ↔ w.Meets iface call := by
  cases call with
  | add a iptype srcMac dstMac out =>
    simp [meetsTest, Meets, Option.all_eq_true, Option.isSome_iff_ne_none]
  | del answer iptype hdl =>
    have hversions : (∀ t, ∀ x ∈ w.installed t, x.2 = hdl → iptype = some t) ↔
        (∀ x ∈ w.installed .v4, x.2 = hdl → iptype = some .v4) ∧
          ∀ x ∈ w.installed .v6, x.2 = hdl → iptype = some .v6 :=
      ⟨fun h => ⟨h .v4, h .v6⟩, fun h t => match t with
        | .v4 => h.1
        | .v6 => h.2⟩
    rw [Meets, hversions]
    cases answer with
    | false => simp [meetsTest]
    | true => simp [meetsTest, imp_iff_not_or]

instance instDecidableMeets (iface : HdrIface) (w : HdrWorld) (call : HdrCall) :
    Decidable (Meets iface w call) :=
  decidable_of_iff _ (meetsTest_iff iface w call)

/-- An interface with a TX property for each version. -/
def usb : HdrIface := ⟨some [⟨.v4, "rmnet_v4"⟩, ⟨.v6, "rmnet_v6"⟩], 255⟩

/-- The driver answers with a header of 14 bytes, and gives out the handle. -/
def answers (hdl : Option Hdl) : HdrAnswers :=
  { copyHeader := fun _ => some ⟨List.replicate 14 0, true, 0⟩, addHeader := fun _ => hdl }

/-- A header is added for the version. -/
def addCall (t : IpType) (hdl : Option Hdl) : HdrCall :=
  .add (answers hdl) (some t) (some 0x0A0000000001) (some 0x0A0000000002) true

/-- The slots of a version that are valid, and what is installed for it. -/
def outcome (w : HdrWorld) (t : IpType) : List Nat × List (Nat × Hdl) :=
  (((List.finRange maxOffloadPair).filter fun j => (w.table t j).valid).map Fin.val,
    (w.installed t).map fun x => (x.1.val, x.2))

/-- Three links. The header of the first is deleted, and its handle comes back for the next one. -/
def links : List HdrCall :=
  [addCall .v4 (some 7), addCall .v4 (some 8), addCall .v6 (some 9), .del true (some .v4) 7,
    .del false (some .v6) 9, addCall .v4 (some 7)]

theorem run_lan2lan_hdr_links : ∃ tr w,
    Run (step usb) (Meets usb) init tr w ∧ tr.map Prod.fst = links ∧
    (outcome w .v4, outcome w .v6) = (([0, 1], [(1, 8), (0, 7)]), ([0], [(0, 9)])) ∧ w.Exact := by
  obtain ⟨tr, w, run, hcalls, houtcome⟩ := Run.exists_of_allMeet
    (g := fun w : HdrWorld => (outcome w .v4, outcome w .v6))
    (show (exec (step usb) init links).toOption.map _ =
      some (([0, 1], [(1, 8), (0, 7)]), ([0], [(0, 9)])) by decide +kernel)
    (show allMeet (step usb) (fun w call => decide (Meets usb w call)) init links = true by
      decide +kernel)
  exact ⟨tr, w, run, hcalls, houtcome, (run_lan2lan_hdr run).1⟩

/-- The driver refuses the header: the slot that was claimed for it stays valid. -/
theorem run_lan2lan_hdr_refused : ¬ ∀ iface tr w,
    Run (step iface) (fun _ _ => True) init tr w → w.Exact := by
  intro hall
  obtain ⟨tr, w, run, houtcome⟩ : ∃ tr w, Run (step usb) (fun _ _ => True) init tr w ∧
      outcome w .v4 = ([0], []) :=
    Run.exists_of_exec (C := fun _ => True)
      (show (exec (step usb) init [addCall .v4 none]).toOption.map _ = _ by decide +kernel)
      fun _ _ => trivial
  obtain ⟨hslots, hinstalled⟩ := Prod.mk.inj houtcome
  obtain ⟨j, hj, -⟩ := List.mem_map.1 (hslots.symm ▸ List.mem_singleton_self 0)
  have hvalid : (w.table .v4 j).valid = true := by simpa using hj
  have hmem := ((hall usb tr w run).valid .v4 j).1 hvalid
  rw [List.map_eq_nil_iff.1 hinstalled] at hmem
  cases hmem

end HdrWorld

end Nx508j.Ipacm.Lan2Lan
