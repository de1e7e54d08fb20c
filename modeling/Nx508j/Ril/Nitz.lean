import Mathlib.Data.List.Infix
import Nx508j.Lib.Memory

/-! # The network time that a client may have missed

A NITZ indication of the modem goes to the client of its slot. When there is none, a copy of its
data is kept, and handed to the client that connects next. There is room for one copy only, and
nothing says which slot it came for. -/

namespace Nx508j.Ril

open Nx508j.Lib Function

inductive RadioIndicationType
  | UNSOLICITED
  | UNSOLICITED_ACK_EXP
deriving DecidableEq, Repr

/-- A NITZ time that the client of a slot gets. -/
structure NitzTime (n : Nat) where
  slot : Fin n
  client : Nat
  type : RadioIndicationType
  nitzTime : List UInt8
  receivedTime : Int
deriving DecidableEq

/-- The clients of `n` slots by their numbers, the times of the last indications, and the copy.
    `lastSlot` says for which slot the copy was made; the program does not know. -/
structure RilNitz (n : Nat) where
  mRadioIndication : Fin n → Option Nat := fun _ => none
  nitzTimeReceived : Fin n → Int := fun _ => 0
  s_lastNITZTimeData : Option (List UInt8) := none
  s_lastNITZTimeDataSize : Nat := 0
  lastSlot : Option (Fin n) := none

/-- `RIL_UNSOL_NITZ_TIME_RECEIVED` with what can be read at its data; a client connects, or gives
    null pointers; a call of another callback has failed. It is said whether the calls of the client
    succeed, and whether there is memory for a timer and for a copy. -/
inductive NitzEvent (n : Nat)
  | nitz (soc_id : Fin n) (data : Option (List UInt8)) (datalen : Nat) (now : Int)
      (isOk timed copied : Bool)
  | setResponseFunctions (mSlotId : Fin n) (radioIndicationParam : Option Nat)
      (connectedOk stateOk isOk : Bool)
  | callFailed (slotId : Fin n)
deriving DecidableEq

/-! ## Strings in memory -/

/-- The bytes before the null byte. -/
def stringAt : List UInt8 → Except Fault (List UInt8)
  | [] => .error .outOfBounds
  | c :: mem => if c = 0 then .ok [] else do
      let s ← stringAt mem
      .ok (c :: s)

def convertCharPtrToHidlString : Option (List UInt8) → Except Fault (List UInt8)
  | none => .ok []
  | some mem => stringAt mem

/-- `memcpy` into a fresh block. -/
def copyOf (data : Option (List UInt8)) (datalen : Nat) : Except Fault (List UInt8) :=
  if datalen ≤ (data.getD []).length then .ok ((data.getD []).take datalen)
  else .error .outOfBounds

theorem stringAt_of_take {mem s : List UInt8} {len : Nat} (h : stringAt (mem.take len) = .ok s) :
    stringAt mem = .ok s := by
  induction mem generalizing len s with
  | nil => simpa using h
  | cons c mem ih =>
    cases len with
    | zero => cases h
    | succ len =>
      rw [List.take_succ_cons, stringAt] at h
      rw [stringAt]
      split at h
      · next hc => rwa [if_pos hc]
      · next hc =>
        obtain ⟨s', hs', h⟩ := bind_eq_ok h
        rw [if_neg hc, ih hs', ok_bind]
        exact h

namespace RilNitz

variable {n : Nat}

/-! ## What the program does -/

/-- A failed call clears the callbacks. -/
def checkReturnStatus (slotId : Fin n) (isOk : Bool) (w : RilNitz n) : RilNitz n :=
  if isOk then w
  else { w with mRadioIndication := update w.mRadioIndication slotId none }

def setNitzTimeReceived (slotId : Fin n) (timeReceived : Int) (w : RilNitz n) : RilNitz n :=
  { w with nitzTimeReceived := update w.nitzTimeReceived slotId timeReceived }

/-- Returns the state, the number it returns, and what the client gets. -/
def nitzTimeReceivedInd (slotId : Fin n) (type : RadioIndicationType)
    (response : Option (List UInt8)) (responseLen : Nat) (isOk : Bool) (w : RilNitz n) :
    Except Fault (RilNitz n × Int × List (NitzTime n)) :=
  match w.mRadioIndication slotId with
  | none => .ok (w, -1, [])
  | some client =>
    if response.isNone ∨ responseLen = 0 then .ok (w, 0, [])
    else do
      let nitzTime ← convertCharPtrToHidlString response
      let time : NitzTime n := ⟨slotId, client, type, nitzTime, w.nitzTimeReceived slotId⟩
      .ok (w.checkReturnStatus slotId isOk, 0, if isOk then [time] else [])

/-- `rilConnectedInd` and `radioStateChangedInd`, as far as the callbacks go. -/
def otherInd (slotId : Fin n) (isOk : Bool) (w : RilNitz n) : RilNitz n :=
  match w.mRadioIndication slotId with
  | none => w
  | some _ => w.checkReturnStatus slotId isOk

/-- `responseType` for a `version`, as `convertIntToRadioIndicationType` converts it. The NITZ
    indication is `WAKE_PARTIAL`. -/
def indicationType (version : Nat) : RadioIndicationType :=
  if 13 ≤ version then .UNSOLICITED_ACK_EXP else .UNSOLICITED

/-- The end of `RIL_onUnsolicitedResponse`. The old copy goes in any case. -/
def keepLast (soc_id : Fin n) (data : Option (List UInt8)) (datalen : Nat) (copied : Bool)
    (w : RilNitz n) : Except Fault (RilNitz n) :=
  if copied then do
    let copy ← copyOf data datalen
    .ok { w with
      s_lastNITZTimeData := some copy
      s_lastNITZTimeDataSize := datalen
      lastSlot := some soc_id }
  else .ok { w with s_lastNITZTimeData := none }

/-- `RIL_onUnsolicitedResponse` for a NITZ indication. -/
def RIL_onUnsolicitedResponse (version : Nat) (soc_id : Fin n) (data : Option (List UInt8))
    (datalen : Nat) (now : Int) (isOk timed copied : Bool) (w : RilNitz n) :
    Except Fault (RilNitz n × List (NitzTime n)) := do
  let r ← (w.setNitzTimeReceived soc_id now).nitzTimeReceivedInd soc_id (indicationType version)
    data datalen isOk
  -- without a timer for the wake lock, nothing is kept
  if version < 13 ∧ timed = false then .ok (r.1, r.2.2)
  else if r.2.1 ≠ 0 then do
    let w ← r.1.keepLast soc_id data datalen copied
    .ok (w, r.2.2)
  else .ok (r.1, r.2.2)

def resendLastNITZTimeData (version : Nat) (socket_id : Fin n) (isOk : Bool) (w : RilNitz n) :
    Except Fault (RilNitz n × List (NitzTime n)) :=
  match w.s_lastNITZTimeData with
  | none => .ok (w, [])
  | some data => do
      let r ← w.nitzTimeReceivedInd socket_id (indicationType version) (some data)
        w.s_lastNITZTimeDataSize isOk
      .ok (if r.2.1 = 0 then { r.1 with s_lastNITZTimeData := none } else r.1, r.2.2)

def onNewCommandConnect (version : Nat) (socket_id : Fin n) (connectedOk stateOk isOk : Bool)
    (w : RilNitz n) : Except Fault (RilNitz n × List (NitzTime n)) :=
  ((w.otherInd socket_id connectedOk).otherInd socket_id stateOk).resendLastNITZTimeData version
    socket_id isOk

def setResponseFunctions (version : Nat) (mSlotId : Fin n) (radioIndicationParam : Option Nat)
    (connectedOk stateOk isOk : Bool) (w : RilNitz n) :
    Except Fault (RilNitz n × List (NitzTime n)) :=
  { w with mRadioIndication := update w.mRadioIndication mSlotId radioIndicationParam }
    |>.onNewCommandConnect version mSlotId connectedOk stateOk isOk

def step (version : Nat) (w : RilNitz n) : NitzEvent n →
    Except Fault (RilNitz n × List (NitzTime n))
  | .nitz soc_id data datalen now isOk timed copied =>
    w.RIL_onUnsolicitedResponse version soc_id data datalen now isOk timed copied
  | .setResponseFunctions mSlotId radioIndicationParam connectedOk stateOk isOk =>
    w.setResponseFunctions version mSlotId radioIndicationParam connectedOk stateOk isOk
  | .callFailed slotId => .ok (w.checkReturnStatus slotId false, [])

end RilNitz

/-! ## What each slot is to get -/

/-- The NITZ time of an indication, with the clock when it came. -/
def timeOf (data : Option (List UInt8)) (datalen : Nat) (now : Int) : Option (List UInt8 × Int) :=
  if datalen = 0 then none
  else match stringAt (data.getD []) with
    | .ok nitzTime => some (nitzTime, now)
    | .error _ => none

namespace NitzEvent

variable {n : Nat}

/-- The NITZ time that comes for a slot. -/
def received (s : Fin n) : NitzEvent n → Option (List UInt8 × Int)
  | .nitz soc_id data datalen now _ _ _ => if soc_id = s then timeOf data datalen now else none
  | _ => none

/-- The NITZ time that the next client of a slot is to get, after an event that handed these to
    clients. Nothing is delivered by an indication that fails, and a client that answers gets what
    there is. -/
def owedAfter (s : Fin n) (owed : Option (List UInt8 × Int)) :
    NitzEvent n × List (NitzTime n) → Option (List UInt8 × Int)
  | (.nitz soc_id data datalen now _ _ _, []) =>
    if soc_id = s then timeOf data datalen now else owed
  | (.setResponseFunctions mSlotId (some _) true true true, _) =>
    if mSlotId = s then none else owed
  | _ => owed

theorem of_owedAfter {s : Fin n} {owed : Option (List UInt8 × Int)} {t : List UInt8 × Int}
    {x : NitzEvent n × List (NitzTime n)} (h : owedAfter s owed x = some t) :
    x.1.received s = some t ∨ owed = some t := by
  rw [owedAfter.eq_def] at h
  split at h
  · split at h
    · next hslot => exact .inl ((if_pos hslot).trans h)
    · exact .inr h
  · split at h
    · cases h
    · exact .inr h
  · exact .inr h

end NitzEvent

/-- What has happened, with what clients got. -/
abbrev NitzLog (n : Nat) := List (NitzEvent n × List (NitzTime n))

namespace NitzLog

variable {n : Nat}

/-- The NITZ times that came for a slot. -/
def received (s : Fin n) (log : NitzLog n) : List (List UInt8 × Int) :=
  log.filterMap fun x => x.1.received s

/-- The latest NITZ time for a slot that was not delivered, when no client has connected since. -/
def owed (s : Fin n) (log : NitzLog n) : Option (List UInt8 × Int) :=
  log.foldl (NitzEvent.owedAfter s) none

/-- A client gets what came for its slot, and a client that connects gets what its slot is owed. -/
structure Right (log : NitzLog n) (e : NitzEvent n) (out : List (NitzTime n)) : Prop where
  own : ∀ t ∈ out, (t.nitzTime, t.receivedTime) ∈ received t.slot (log ++ [(e, out)])
  redelivers : ∀ slot client owed, e = .setResponseFunctions slot (some client) true true true →
    NitzLog.owed slot log = some owed → ∃ t ∈ out,
      t.slot = slot ∧ t.client = client ∧ (t.nitzTime, t.receivedTime) = owed

/-- Every event of the log was right. -/
def AllRight (log : NitzLog n) : Prop :=
  ∀ before e out, before ++ [(e, out)] <+: log → Right before e out

variable {log : NitzLog n} {s : Fin n} {x : NitzEvent n × List (NitzTime n)}
  {t : List UInt8 × Int}

theorem owed_snoc : owed s (log ++ [x]) = NitzEvent.owedAfter s (owed s log) x := by
  rw [owed, List.foldl_append]
  rfl

theorem mem_received_snoc :
    t ∈ received s (log ++ [x]) ↔ t ∈ received s log ∨ x.1.received s = some t := by
  simp only [received, List.mem_filterMap, List.mem_append, List.mem_singleton]
  constructor
  · rintro ⟨y, hy | rfl, ht⟩
    · exact .inl ⟨y, hy, ht⟩
    · exact .inr ht
  · rintro (⟨y, hy, ht⟩ | ht)
    · exact ⟨y, .inl hy, ht⟩
    · exact ⟨x, .inr rfl, ht⟩

theorem mem_received_of_owed (h : owed s log = some t) : t ∈ received s log := by
  induction log using List.reverseRecOn with
  | nil => cases h
  | append_singleton log x ih =>
    rw [mem_received_snoc]
    rw [owed_snoc] at h
    rcases NitzEvent.of_owedAfter h with h | h
    · exact .inr h
    · exact .inl (ih h)

theorem AllRight.snoc {e : NitzEvent n} {out : List (NitzTime n)} (h : AllRight log)
    (hright : Right log e out) : AllRight (log ++ [(e, out)]) := by
  intro before e' out' hprefix
  rcases List.prefix_concat_iff.1 hprefix with heq | hprefix
  · obtain ⟨rfl, hlast⟩ := List.append_inj' heq rfl
    cases hlast
    exact hright
  · exact h before e' out' hprefix

end NitzLog

/-! ## When it goes well -/

namespace RilNitz

variable {n : Nat}

/-- The slot that a copy with anything in it is kept for. -/
def kept (w : RilNitz n) : Option (Fin n) :=
  match w.s_lastNITZTimeData with
  | none => none
  | some _ => if w.s_lastNITZTimeDataSize = 0 then none else w.lastSlot

/-- No copy is kept for another slot. -/
def KeptFor (w : RilNitz n) (s : Fin n) : Prop := w.kept = none ∨ w.kept = some s

/-- The copy of these data would have a string in it, if it has anything. -/
def Terminated (data : Option (List UInt8)) (datalen : Nat) : Prop :=
  datalen = 0 ∨ (stringAt ((data.getD []).take datalen)).toBool = true

/-- The calls of the clients succeed, the copies can be made, and neither does a copy replace one
    for another slot nor a client connect on another slot than the copy is for. -/
def Meets (version : Nat) (w : RilNitz n) : NitzEvent n → Prop
  | .nitz soc_id data datalen _ isOk timed copied =>
    match w.mRadioIndication soc_id with
    | some _ => isOk = true
    | none => w.KeptFor soc_id ∧ Terminated data datalen ∧ copied = true ∧
        (13 ≤ version ∨ timed = true)
  | .setResponseFunctions mSlotId (some _) true true isOk =>
    w.KeptFor mSlotId ∧ (w.kept = none ∨ isOk = true)
  | _ => True

/-- What the copy says that is kept for a slot. -/
def copyTime (w : RilNitz n) (s : Fin n) : Option (List UInt8 × Int) :=
  if w.kept = some s then
    match stringAt (w.s_lastNITZTimeData.getD []) with
    | .ok nitzTime => some (nitzTime, w.nitzTimeReceived s)
    | .error _ => none
  else none

/-- The copy says what is owed, to a slot without a client. -/
structure Inv (w : RilNitz n) (log : NitzLog n) : Prop where
  slot : w.s_lastNITZTimeData ≠ none → w.lastSlot ≠ none
  text : w.kept ≠ none → ∃ s, stringAt (w.s_lastNITZTimeData.getD []) = .ok s
  away : ∀ s, w.kept = some s → w.mRadioIndication s = none
  owed : ∀ s, NitzLog.owed s log = w.copyTime s

variable {w w' : RilNitz n} {log : NitzLog n} {version datalen client : Nat} {s soc_id : Fin n}
  {data : Option (List UInt8)} {now : Int} {isOk timed copied : Bool} {out : List (NitzTime n)}

theorem Inv.init : Inv ({} : RilNitz n) [] where
  slot h := absurd rfl h
  text h := absurd rfl h
  away _ h := nomatch h
  owed _ := rfl

theorem Inv.owed_none (h : Inv w log) (hs : w.kept ≠ some s) : NitzLog.owed s log = none := by
  rw [h.owed, copyTime, if_neg hs]

theorem copyTime_setNitzTimeReceived (hs : w.kept ≠ some soc_id) :
    (w.setNitzTimeReceived soc_id now).copyTime s = w.copyTime s := by
  by_cases heq : s = soc_id
  · subst heq
    exact (if_neg hs).trans (if_neg hs).symm
  · have hnow : (w.setNitzTimeReceived soc_id now).nitzTimeReceived s = w.nitzTimeReceived s :=
      update_of_ne heq ..
    simp only [copyTime, hnow]
    rfl

/-! ### An indication -/

theorem unsolicited_client (hclient : w.mRadioIndication soc_id = some client)
    (hstep : w.RIL_onUnsolicitedResponse version soc_id data datalen now true timed copied =
      .ok (w', out)) :
    w' = w.setNitzTimeReceived soc_id now ∧
      (out = [] ∧ timeOf data datalen now = none ∨
        ∃ nitzTime, timeOf data datalen now = some (nitzTime, now) ∧
          out = [⟨soc_id, client, indicationType version, nitzTime, now⟩]) := by
  have hclient' : (w.setNitzTimeReceived soc_id now).mRadioIndication soc_id = some client :=
    hclient
  have hnow : (w.setNitzTimeReceived soc_id now).nitzTimeReceived soc_id = now :=
    update_self ..
  rw [RIL_onUnsolicitedResponse, nitzTimeReceivedInd, hclient'] at hstep
  dsimp only at hstep
  split at hstep
  · next hempty =>
    have htime : timeOf data datalen now = none := by
      rcases hempty with hnone | hzero
      · obtain rfl := Option.isNone_iff_eq_none.1 hnone
        simp [timeOf, stringAt]
      · exact if_pos hzero
    simp only [ok_bind, ne_eq, not_true_eq_false, ↓reduceIte, ite_self, Except.ok.injEq,
      Prod.mk.injEq] at hstep
    exact ⟨hstep.1.symm, .inl ⟨hstep.2.symm, htime⟩⟩
  · next hempty =>
    rw [not_or] at hempty
    obtain ⟨mem, rfl⟩ : ∃ mem, data = some mem :=
      Option.ne_none_iff_exists'.1 (mt Option.isNone_iff_eq_none.2 hempty.1)
    obtain ⟨r, hr, hstep⟩ := bind_eq_ok hstep
    obtain ⟨nitzTime, hstring, hr⟩ := bind_eq_ok hr
    cases hr
    have htime : timeOf (some mem) datalen now = some (nitzTime, now) := by
      rw [timeOf, if_neg hempty.2]
      rw [show stringAt ((some mem).getD []) = .ok nitzTime from hstring]
    simp only [ne_eq, not_true_eq_false, ↓reduceIte, ite_self, Except.ok.injEq, Prod.mk.injEq,
      hnow, checkReturnStatus] at hstep
    exact ⟨hstep.1.symm, .inr ⟨nitzTime, htime, hstep.2.symm⟩⟩

theorem unsolicited_none (hclient : w.mRadioIndication soc_id = none)
    (htimed : 13 ≤ version ∨ timed = true)
    (hstep : w.RIL_onUnsolicitedResponse version soc_id data datalen now isOk timed true =
      .ok (w', out)) :
    out = [] ∧ ∃ copy, copyOf data datalen = .ok copy ∧
      w' = { w.setNitzTimeReceived soc_id now with
        s_lastNITZTimeData := some copy
        s_lastNITZTimeDataSize := datalen
        lastSlot := some soc_id } := by
  have hclient' : (w.setNitzTimeReceived soc_id now).mRadioIndication soc_id = none := hclient
  have hkeep : ¬ (version < 13 ∧ timed = false) := by
    rintro ⟨hlt, rfl⟩
    rcases htimed with hle | hfalse
    · omega
    · cases hfalse
  rw [RIL_onUnsolicitedResponse, nitzTimeReceivedInd, hclient'] at hstep
  simp only [ok_bind, if_neg hkeep] at hstep
  rw [if_pos (by decide), keepLast, if_pos rfl] at hstep
  obtain ⟨w₁, hcopy, hstep⟩ := bind_eq_ok hstep
  obtain ⟨copy, hcopy, hw₁⟩ := bind_eq_ok hcopy
  obtain ⟨rfl, rfl⟩ := ok_pair hstep
  exact ⟨rfl, copy, hcopy, (Except.ok.inj hw₁).symm⟩

theorem Inv.nitz_client (h : Inv w log) (hclient : w.mRadioIndication soc_id = some client)
    (hstep : w.RIL_onUnsolicitedResponse version soc_id data datalen now true timed copied =
      .ok (w', out)) :
    NitzLog.Right log (.nitz soc_id data datalen now true timed copied) out ∧
      Inv w' (log ++ [(.nitz soc_id data datalen now true timed copied, out)]) := by
  obtain ⟨rfl, hout⟩ := unsolicited_client hclient hstep
  have hkept : w.kept ≠ some soc_id := by
    intro hkept
    rw [h.away soc_id hkept] at hclient
    cases hclient
  refine ⟨⟨fun t ht => ?_, fun _ _ _ he => nomatch he⟩, ⟨h.slot, h.text, h.away, fun s => ?_⟩⟩
  · rcases hout with ⟨rfl, -⟩ | ⟨nitzTime, htime, rfl⟩
    · cases ht
    · obtain rfl := List.mem_singleton.1 ht
      exact NitzLog.mem_received_snoc.2 (.inr ((if_pos rfl).trans htime))
  · rw [NitzLog.owed_snoc, copyTime_setNitzTimeReceived hkept]
    rcases hout with ⟨rfl, htime⟩ | ⟨nitzTime, -, rfl⟩
    · by_cases hs : soc_id = s
      · subst hs
        rw [← h.owed, h.owed_none hkept]
        exact (if_pos rfl).trans htime
      · exact (if_neg hs).trans (h.owed s)
    · exact h.owed s

theorem Inv.nitz_none (h : Inv w log) (hclient : w.mRadioIndication soc_id = none)
    (hfor : w.KeptFor soc_id) (hdata : Terminated data datalen)
    (htimed : 13 ≤ version ∨ timed = true)
    (hstep : w.RIL_onUnsolicitedResponse version soc_id data datalen now isOk timed true =
      .ok (w', out)) :
    NitzLog.Right log (.nitz soc_id data datalen now isOk timed true) out ∧
      Inv w' (log ++ [(.nitz soc_id data datalen now isOk timed true, out)]) := by
  obtain ⟨rfl, copy, hcopy, rfl⟩ := unsolicited_none hclient htimed hstep
  have hcopy : copy = (data.getD []).take datalen := by
    rw [copyOf] at hcopy
    split at hcopy
    · exact (Except.ok.inj hcopy).symm
    · cases hcopy
  have hstring : datalen ≠ 0 → ∃ nitzTime, stringAt copy = .ok nitzTime := by
    intro hne
    have hdata := hdata.resolve_left hne
    rw [← hcopy] at hdata
    cases hstring : stringAt copy with
    | error f =>
      rw [hstring] at hdata
      cases hdata
    | ok nitzTime => exact ⟨nitzTime, rfl⟩
  refine ⟨⟨fun t ht => absurd ht List.not_mem_nil, fun _ _ _ he => nomatch he⟩,
    ⟨fun _ => Option.some_ne_none _, fun hkept => ?_, fun s hkept => ?_, fun s => ?_⟩⟩
  · refine hstring fun hzero => hkept ?_
    exact if_pos hzero
  · rw [kept] at hkept
    dsimp only at hkept
    split at hkept
    · cases hkept
    · cases hkept
      exact hclient
  · rw [NitzLog.owed_snoc]
    by_cases hs : soc_id = s
    · subst hs
      refine (if_pos rfl).trans ?_
      by_cases hzero : datalen = 0
      · rw [timeOf, if_pos hzero, copyTime, kept]
        rw [if_pos hzero, if_neg (by simp)]
      · obtain ⟨nitzTime, hcopied⟩ := hstring hzero
        have hread : stringAt (data.getD []) = .ok nitzTime :=
          stringAt_of_take (hcopy ▸ hcopied)
        rw [timeOf, if_neg hzero, hread, copyTime, kept]
        dsimp only [Option.getD_some]
        rw [if_neg hzero, if_pos rfl, hcopied]
        rw [setNitzTimeReceived]
        dsimp only
        rw [update_self]
    · refine (if_neg hs).trans ?_
      have hkept : w.kept ≠ some s := by
        rcases hfor with hnone | hsome
        · simp [hnone]
        · simp [hsome, hs]
      rw [h.owed_none hkept, copyTime, kept]
      dsimp only
      rw [if_neg]
      split
      · exact fun heq => nomatch heq
      · exact fun heq => hs (Option.some.inj heq)

/-! ### A client connects -/

theorem otherInd_eq (w : RilNitz n) (s : Fin n) (ok : Bool) :
    w.otherInd s ok = { w with
      mRadioIndication := update w.mRadioIndication s
        (if ok then w.mRadioIndication s else none) } := by
  rw [otherInd]
  split
  · next hnone =>
    rw [hnone, ite_self, ← hnone, update_eq_self]
  · cases ok with
    | false => rfl
    | true =>
      rw [if_pos rfl, update_eq_self]
      rfl

theorem setResponseFunctions_eq (w : RilNitz n) (s : Fin n) (client : Option Nat)
    (connectedOk stateOk isOk : Bool) :
    w.setResponseFunctions version s client connectedOk stateOk isOk =
      resendLastNITZTimeData version s isOk { w with
        mRadioIndication := update w.mRadioIndication s
          (if connectedOk && stateOk then client else none) } := by
  rw [setResponseFunctions, onNewCommandConnect, otherInd_eq, otherInd_eq]
  dsimp only
  rw [update_idem, update_idem, update_self, update_self]
  cases connectedOk <;> cases stateOk <;> rfl

theorem resend_none (hclient : w.mRadioIndication s = none) :
    w.resendLastNITZTimeData version s isOk = .ok (w, []) := by
  rw [resendLastNITZTimeData]
  split
  · rfl
  · rw [nitzTimeReceivedInd, hclient]
    rfl

theorem resend_client (hslot : w.s_lastNITZTimeData ≠ none → w.lastSlot ≠ none)
    (hclient : w.mRadioIndication s = some client) (hok : w.kept = none ∨ isOk = true)
    (hstep : w.resendLastNITZTimeData version s isOk = .ok (w', out)) :
    w' = { w with s_lastNITZTimeData := none } ∧
      (w.kept = none ∧ out = [] ∨
        w.kept ≠ none ∧ ∃ nitzTime, stringAt (w.s_lastNITZTimeData.getD []) = .ok nitzTime ∧
          out = [⟨s, client, indicationType version, nitzTime, w.nitzTimeReceived s⟩]) := by
  rw [resendLastNITZTimeData] at hstep
  split at hstep
  · next hnone =>
    cases hstep
    refine ⟨?_, .inl ⟨?_, rfl⟩⟩
    · rw [← hnone]
    · rw [kept, hnone]
  · next copy hcopy =>
    obtain ⟨r, hr, hstep⟩ := bind_eq_ok hstep
    rw [nitzTimeReceivedInd, hclient] at hr
    dsimp only at hr
    split at hr
    · next hempty =>
      have hzero : w.s_lastNITZTimeDataSize = 0 := hempty.resolve_left (by simp)
      cases hr
      cases hstep
      refine ⟨rfl, .inl ⟨?_, rfl⟩⟩
      rw [kept, hcopy]
      exact if_pos hzero
    · next hempty =>
      rw [not_or] at hempty
      obtain ⟨nitzTime, hstring, hr⟩ := bind_eq_ok hr
      have hkept : w.kept = w.lastSlot := by
        rw [kept, hcopy]
        exact if_neg hempty.2
      have hne : w.kept ≠ none := hkept ▸ hslot (by simp [hcopy])
      obtain rfl := hok.resolve_left hne
      cases hr
      cases hstep
      exact ⟨rfl, .inr ⟨hne, nitzTime, hcopy ▸ hstring, rfl⟩⟩

theorem Inv.connect_none (h : Inv w log) {p : Option Nat} {connectedOk stateOk : Bool}
    (hclient : (if connectedOk && stateOk then p else none) = none)
    (hstep : w.setResponseFunctions version s p connectedOk stateOk isOk = .ok (w', out)) :
    NitzLog.Right log (.setResponseFunctions s p connectedOk stateOk isOk) out ∧
      Inv w' (log ++ [(.setResponseFunctions s p connectedOk stateOk isOk, out)]) := by
  rw [setResponseFunctions_eq, hclient, resend_none (update_self ..)] at hstep
  cases hstep
  refine ⟨⟨fun t ht => absurd ht List.not_mem_nil, fun slot client owed he => ?_⟩,
    ⟨h.slot, h.text, fun s' hkept => ?_, fun s' => ?_⟩⟩
  · cases he
    cases hclient
  · by_cases hs : s' = s
    · subst hs
      exact update_self ..
    · exact (update_of_ne hs ..).trans (h.away s' hkept)
  · rw [NitzLog.owed_snoc]
    cases p with
    | none => exact h.owed s'
    | some client =>
      cases connectedOk with
      | false => exact h.owed s'
      | true =>
        cases stateOk with
        | false => exact h.owed s'
        | true => cases hclient

theorem Inv.connect_client (h : Inv w log) (hfor : w.KeptFor s) (hok : w.kept = none ∨ isOk = true)
    (hstep : w.setResponseFunctions version s (some client) true true isOk = .ok (w', out)) :
    NitzLog.Right log (.setResponseFunctions s (some client) true true isOk) out ∧
      Inv w' (log ++ [(.setResponseFunctions s (some client) true true isOk, out)]) := by
  rw [setResponseFunctions_eq] at hstep
  obtain ⟨rfl, hout⟩ := resend_client (w := { w with
    mRadioIndication := update w.mRadioIndication s (some client) }) h.slot
      (update_self ..) hok hstep
  have howed : w.kept ≠ none → ∀ nitzTime,
      stringAt (w.s_lastNITZTimeData.getD []) = .ok nitzTime →
        NitzLog.owed s log = some (nitzTime, w.nitzTimeReceived s) := by
    intro hne nitzTime hstring
    rw [h.owed, copyTime, if_pos (hfor.resolve_left hne), hstring]
  refine ⟨⟨fun t ht => ?_, fun slot client' owed he howed' => ?_⟩,
    ⟨fun hne => absurd rfl hne, fun hne => absurd rfl hne, fun _ hkept => (nomatch hkept),
      fun s' => ?_⟩⟩
  · rcases hout with ⟨-, rfl⟩ | ⟨hne, nitzTime, hstring, rfl⟩
    · cases ht
    · obtain rfl := List.mem_singleton.1 ht
      exact NitzLog.mem_received_snoc.2 (.inl (NitzLog.mem_received_of_owed
        (howed hne nitzTime hstring)))
  · cases he
    rcases hout with ⟨hnone, rfl⟩ | ⟨hne, nitzTime, hstring, rfl⟩
    · have hnone : w.kept = none := hnone
      rw [h.owed_none (by simp [hnone])] at howed'
      cases howed'
    · obtain rfl := Option.some.inj ((howed hne nitzTime hstring).symm.trans howed')
      exact ⟨_, List.mem_singleton_self _, rfl, rfl, rfl⟩
  · rw [NitzLog.owed_snoc]
    refine Eq.trans ?_ (if_neg (by exact fun heq => nomatch heq)).symm
    cases isOk with
    | false =>
      have hnone : w.kept = none := hok.resolve_right (by decide)
      exact h.owed_none (by simp [hnone])
    | true =>
      by_cases hs : s = s'
      · exact if_pos hs
      · refine (if_neg hs).trans (h.owed_none ?_)
        rcases hfor with hnone | hsome
        · simp [hnone]
        · simp [hsome, hs]

/-! ### Runs -/

theorem Inv.step {e : NitzEvent n} (h : Inv w log) (hmeets : Meets version w e)
    (hstep : step version w e = .ok (w', out)) :
    NitzLog.Right log e out ∧ Inv w' (log ++ [(e, out)]) := by
  cases e with
  | nitz soc_id data datalen now isOk timed copied =>
    rw [Meets] at hmeets
    cases hclient : w.mRadioIndication soc_id with
    | none =>
      rw [hclient] at hmeets
      obtain ⟨hfor, hdata, rfl, htimed⟩ := hmeets
      exact h.nitz_none hclient hfor hdata htimed hstep
    | some client =>
      rw [hclient] at hmeets
      obtain rfl : isOk = true := hmeets
      exact h.nitz_client hclient hstep
  | setResponseFunctions mSlotId p connectedOk stateOk isOk =>
    cases hclient : (if connectedOk && stateOk then p else none) with
    | none => exact h.connect_none hclient hstep
    | some client =>
      obtain ⟨hboth, rfl⟩ : (connectedOk && stateOk) = true ∧ p = some client := by
        split at hclient
        · next hboth => exact ⟨hboth, hclient⟩
        · cases hclient
      obtain ⟨rfl, rfl⟩ := Bool.and_eq_true_iff.1 hboth
      exact h.connect_client hmeets.1 hmeets.2 hstep
  | callFailed slotId =>
    cases hstep
    refine ⟨⟨fun t ht => absurd ht List.not_mem_nil, fun _ _ _ he => nomatch he⟩,
      ⟨h.slot, h.text, fun s hkept => ?_, fun s => ?_⟩⟩
    · by_cases hs : s = slotId
      · subst hs
        exact update_self ..
      · exact (update_of_ne hs ..).trans (h.away s hkept)
    · rw [NitzLog.owed_snoc]
      exact h.owed s

/-- When all events meet the conditions, clients get what came for their slots, and a client that
    connects gets the latest that its slot has missed. -/
theorem run_nitz {log : NitzLog n} (run : Run (step version) (Meets version) {} log w) :
    NitzLog.AllRight log := by
  have hinv : Inv w log ∧ NitzLog.AllRight log := by
    refine run.invariant (fun log w => Inv w log ∧ NitzLog.AllRight log) ⟨.init, ?_⟩ ?_
    · intro before e out hprefix
      have hnil := List.prefix_nil.1 hprefix
      simp at hnil
    · rintro log w e w' out ⟨hinv, hright⟩ hmeets hstep
      have hnext := hinv.step hmeets hstep
      exact ⟨hnext.2, hright.snoc hnext.1⟩
  exact hinv.2

/-- A time comes for the first of two slots before its client does, and one for the other slot when
    the first copy has been delivered. -/
def missed : List (NitzEvent 2) :=
  [.nitz 0 (some [50, 0]) 2 100 true true true, .setResponseFunctions 0 (some 7) true true true,
    .nitz 1 (some [51, 52, 0]) 3 200 true true true,
    .setResponseFunctions 1 (some 8) true true true]

theorem run_nitz_missed : ∃ log : NitzLog 2,
    log.map Prod.fst = missed ∧ NitzLog.AllRight log ∧
      log.map Prod.snd = [[], [⟨0, 7, .UNSOLICITED_ACK_EXP, [50], 100⟩], [],
        [⟨1, 8, .UNSOLICITED_ACK_EXP, [51, 52], 200⟩]] := by
  have first : Run (step 15) (Meets 15) ({} : RilNitz 2) _ _ :=
    .snoc .nil (show step 15 {} missed[0] = .ok (_, []) from rfl)
      ⟨.inl rfl, .inr rfl, rfl, .inl (by decide)⟩
  have second := Run.snoc first (show step 15 _ missed[1] = .ok (_, _) from rfl)
    ⟨.inr rfl, .inr rfl⟩
  have third := Run.snoc second (show step 15 _ missed[2] = .ok (_, _) from rfl)
    ⟨.inl rfl, .inr rfl, rfl, .inl (by decide)⟩
  have fourth := Run.snoc third (show step 15 _ missed[3] = .ok (_, _) from rfl)
    ⟨.inr rfl, .inr rfl⟩
  exact ⟨_, rfl, run_nitz fourth, rfl⟩

/-- A time comes for the first of two slots, and a client of the other slot connects first. -/
def misdelivered : List (NitzEvent 2) :=
  [.nitz 0 (some [50, 0]) 2 100 true true true, .setResponseFunctions 1 (some 7) true true true,
    .setResponseFunctions 0 (some 8) true true true]

/-- It gets the time of the first slot, whose client gets nothing. -/
theorem run_nitz_misdelivered : ∃ (log : NitzLog 2) (w : RilNitz 2),
    Run (step 15) (fun _ _ => True) {} log w ∧ log.map Prod.fst = misdelivered ∧
      log.map Prod.snd = [[], [⟨1, 7, .UNSOLICITED_ACK_EXP, [50], 0⟩], []] ∧
        ¬ NitzLog.AllRight log := by
  have run := Run.snoc (Run.snoc (Run.snoc
    (.nil : Run (step 15) (fun _ _ => True) ({} : RilNitz 2) [] _)
      (show step 15 {} misdelivered[0] = .ok (_, _) from rfl) trivial)
      (show step 15 _ misdelivered[1] = .ok (_, _) from rfl) trivial)
      (show step 15 _ misdelivered[2] = .ok (_, _) from rfl) trivial
  refine ⟨_, _, run, rfl, rfl, fun hright => ?_⟩
  have hown := (hright _ _ _ (List.prefix_append _ _)).own _ (List.mem_singleton_self _)
  revert hown
  decide +kernel

end RilNitz

end Nx508j.Ril
