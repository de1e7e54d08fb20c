import Mathlib.Data.List.Nodup
import Nx508j.Lib.Memory

/-! # Requests and their tokens

The address of a `RequestInfo` is the token that the vendor gets with the request and completes it
with. A request is answered by the completion of its token; by the dispatch function that made it,
when something fails before the vendor has it; and for one request also by its dispatch function
when the vendor has it. Addresses come back once a request is freed. What is done under the mutex of
a list is one step. -/

namespace Nx508j.Ril

open Nx508j.Lib Function

/-! ## What is dispatched -/

/-- `RIL_Errno`: those that `libril` answers with itself, and those of the vendor. -/
inductive RilErrno where
  | RIL_E_SUCCESS
  | RIL_E_NO_MEMORY
  | RIL_E_INTERNAL_ERR
  | vendor (e : Int)
deriving DecidableEq, Repr

/-- What `size` says of a string, and the length of what `c_str` returns. -/
structure HidlString where
  size : Nat
  c_str : Nat
deriving DecidableEq, Repr

/-- `copyHidlStringToRil`, up to the error that it answers with. -/
def copyHidlStringToRil (src : HidlString) (allowEmpty alloc : Bool) : Option RilErrno :=
  if src.size = 0 ∧ allowEmpty = false then none
  else if alloc = false then some .RIL_E_NO_MEMORY
  else if src.size + 1 ≤ src.c_str then some .RIL_E_INTERNAL_ERR
  else none

/-- Copies one string after the other, until one fails. -/
def copyStrings (allowEmpty : Bool) (alloc : Nat → Bool) : Nat → List HidlString → Option RilErrno
  | _, [] => none
  | i, s :: ss =>
    (copyHidlStringToRil s allowEmpty (alloc i)).or (copyStrings allowEmpty alloc (i + 1) ss)

/-- The dispatch functions, with what they copy. -/
inductive Dispatch where
  | dispatchVoid
  | dispatchString (str : HidlString)
  | dispatchStrings (allowEmpty : Bool) (strs : List HidlString)
  | dispatchStringVec (data : List HidlString)
  | dispatchInts (countInts : Nat)
  | dispatchCallForwardStatus (number : HidlString)
  | dispatchRaw
  | dispatchIccApdu (data : HidlString)
deriving DecidableEq, Repr

/-- What a dispatch function does between `addRequestToList` and `CALL_ONREQUEST`, up to the error
    that it answers with. -/
def Dispatch.prepare (alloc : Nat → Bool) : Dispatch → Option RilErrno
  | .dispatchVoid | .dispatchRaw => none
  | .dispatchString s | .dispatchCallForwardStatus s | .dispatchIccApdu s =>
    copyHidlStringToRil s false (alloc 0)
  | .dispatchStrings allowEmpty strs =>
    if alloc 0 = false then some .RIL_E_NO_MEMORY else copyStrings allowEmpty alloc 1 strs
  | .dispatchStringVec data =>
    if alloc 0 = false then some .RIL_E_NO_MEMORY else copyStrings false alloc 1 data
  | .dispatchInts _ => if alloc 0 = false then some .RIL_E_NO_MEMORY else none

/-- `RIL_REQUEST_SET_NETWORK_SELECTION_MANUAL` -/
def rilRequestSetNetworkSelectionManual : Nat := 47

/-! ## The requests -/

abbrev RequestPtr := Nat

/-- `RequestInfo`. `cancelled` and `local` stay 0; `p_next` is in the list. -/
structure RequestInfo where
  token : BitVec 32
  request : Nat
  socket_id : Nat
  wasAckSent : Bool := false
deriving DecidableEq, Repr

/-- A call of a `responseFunction`. -/
structure RilResponse where
  ackExp : Bool
  token : BitVec 32
  e : RilErrno
deriving DecidableEq, Repr

/-- Who completes a token. -/
inductive Completer where
  | vendor
  | dispatch
deriving DecidableEq, Repr

/-- Where a completion is: not begun, before the response, before the `free`, or over. -/
inductive CompletePc where
  | idle
  | respond
  | free
  | done
deriving DecidableEq, Repr

/-- Where the dispatch function is: before `CALL_ONREQUEST`, past it, or it has answered with an
    error. -/
inductive DispatchPc where
  | prepare
  | passed
  | failed
deriving DecidableEq, Repr

/-- A request with all that goes on about it, whatever has become of its `RequestInfo`. `acks` is
    how many acknowledgements have found it and are not over. -/
structure Request where
  pRI : RequestPtr := 0
  token : BitVec 32 := 0
  request : Nat := 0
  socket_id : Nat := 0
  fn : Dispatch := .dispatchVoid
  dispatch : DispatchPc := .prepare
  pc : Completer → CompletePc := fun _ => .idle
  acks : Nat := 0

/-- `dispatchStrings` completes it as soon as the vendor has it. -/
def Request.fake (r : Request) : Bool :=
  match r.fn with
  | .dispatchStrings _ _ => r.request = rilRequestSetNetworkSelectionManual
  | _ => false

/-- `SIM_COUNT`, and the version of the vendor's functions. -/
structure RilBuild where
  simCount : Nat
  version : Int

/-- The list of pending requests that a slot uses. -/
def RilBuild.list (b : RilBuild) (socket_id : Nat) : Nat :=
  if 1 ≤ socket_id ∧ socket_id < min b.simCount 4 then socket_id else 0

/-- The requests made so far are numbered. `owner` says which of them is at an address, if it is not
    freed, and `heap` what the memory there holds. Kept besides are the responses to each request,
    how often it was freed, whether memory was accessed that is free, and whether a token was
    answered or freed for another request than its own. -/
structure RilRequests where
  next : Nat := 0
  req : Nat → Request := fun _ => {}
  owner : RequestPtr → Option Nat := fun _ => none
  heap : RequestPtr → RequestInfo := fun _ => ⟨0, 0, 0, false⟩
  pending : Nat → List RequestPtr := fun _ => []
  answered : Nat → List RilResponse := fun _ => []
  freed : Nat → Nat := fun _ => 0
  touched : Bool := false
  crossed : Bool := false

/-- A dispatch function adds a request, at an address if there is memory; it goes on to the vendor,
    or fails; the vendor acknowledges a token, and returns from that; somebody completes a token,
    and goes on in that. -/
inductive RequestEvent where
  | add (token : BitVec 32) (socket_id request : Nat) (fn : Dispatch) (pRI : Option RequestPtr)
  | prepare (k : Nat) (alloc : Nat → Bool)
  | ack (k : Nat)
  | acknowledged (k : Nat)
  | complete (who : Completer) (k : Nat)
  | go (who : Completer) (k : Nat) (e : RilErrno)

namespace RilRequests

variable (b : RilBuild) (w : RilRequests)

/-! ## The steps -/

def setReq (k : Nat) (r : Request) : RilRequests := { w with req := update w.req k r }

def setPc (who : Completer) (k : Nat) (pc : CompletePc) : RilRequests :=
  w.setReq k { w.req k with pc := update (w.req k).pc who pc }

/-- A member of a `RequestInfo` is read. -/
def read (pRI : RequestPtr) : RilRequests :=
  { w with touched := w.touched || (w.owner pRI).isNone }

/-- `addRequestToList` with the address that `calloc` returns. -/
def addRequestToList (token : BitVec 32) (socket_id request : Nat) (fn : Dispatch)
    (pRI : RequestPtr) : RilRequests :=
  { w with
    next := w.next + 1
    req := update w.req w.next { pRI, token, request, socket_id, fn }
    owner := update w.owner pRI (some w.next)
    heap := update w.heap pRI { token, request, socket_id }
    pending := update w.pending (b.list socket_id) (pRI :: w.pending (b.list socket_id)) }

/-- `wasAckSent` is set. -/
def mark (pRI : RequestPtr) : RilRequests :=
  { w with heap := update w.heap pRI { w.heap pRI with wasAckSent := true } }

/-- `checkAndDequeueRequestInfoIfAck`. It looks at the slot of the token if there is more than one.
    -/
def checkAndDequeueRequestInfoIfAck (pRI : RequestPtr) (isAck : Bool) : Bool × RilRequests :=
  let w := if 2 ≤ b.simCount then w.read pRI else w
  let i := b.list (w.heap pRI).socket_id
  if pRI ∈ w.pending i then
    if isAck then (true, w.mark pRI)
    else (true, { w with pending := update w.pending i ((w.pending i).erase pRI) })
  else (false, w)

/-- The `responseFunction` is called for the token of request `k`. -/
def respond (k : Nat) (ackExp : Bool) (e : RilErrno) : RilRequests :=
  let pRI := (w.req k).pRI
  match w.owner pRI with
  | none => { w with touched := true }
  | some j =>
    { w with
      answered := update w.answered j
        (w.answered j ++ [{ ackExp, token := (w.heap pRI).token, e }])
      crossed := w.crossed || j ≠ k }

/-- The token of request `k` is freed. -/
def free (k : Nat) : RilRequests :=
  let pRI := (w.req k).pRI
  match w.owner pRI with
  | none => { w with touched := true }
  | some j =>
    { w with
      owner := update w.owner pRI none
      freed := update w.freed j (w.freed j + 1)
      crossed := w.crossed || j ≠ k }

/-- `RIL_onRequestComplete` of the token of request `k`, up to the list. -/
def complete (who : Completer) (k : Nat) : RilRequests :=
  let (found, w) := w.checkAndDequeueRequestInfoIfAck b (w.req k).pRI false
  w.setPc who k (if found then .respond else .done)

/-- The rest of it. -/
def go (who : Completer) (k : Nat) (e : RilErrno) : RilRequests :=
  match (w.req k).pc who with
  | .respond =>
    let ackExp := 13 ≤ b.version ∧ (w.heap (w.req k).pRI).wasAckSent = true
    (w.respond k ackExp e).setPc who k .free
  | .free => (w.free k).setPc who k .done
  | .idle | .done => w

/-- The vendor completes a token that it has got once, after its acknowledgements; the dispatch
    function completes the one request that it completes when `onRequest` has returned. -/
def Completes (who : Completer) (k : Nat) : Prop :=
  (w.req k).dispatch = .passed ∧ (w.req k).pc who = .idle ∧
    match who with
    | .vendor => (w.req k).acks = 0
    | .dispatch => (w.req k).fake = true

instance decidableCompletes (who : Completer) (k : Nat) : Decidable (w.Completes who k) :=
  match who with
  | .vendor => inferInstanceAs (Decidable (_ ∧ _ ∧ (w.req k).acks = 0))
  | .dispatch => inferInstanceAs (Decidable (_ ∧ _ ∧ (w.req k).fake = true))

/-- An event that cannot happen leaves everything as it is. -/
def advance : RequestEvent → RilRequests
  | .add token socket_id request fn (some pRI) =>
    if w.owner pRI = none then w.addRequestToList b token socket_id request fn pRI else w
  | .add _ _ _ _ none => w
  | .prepare k alloc =>
    if k < w.next ∧ (w.req k).dispatch = .prepare then
      match (w.req k).fn.prepare alloc with
      | none => w.setReq k { w.req k with dispatch := .passed }
      | some e => (w.respond k false e).setReq k { w.req k with dispatch := .failed }
    else w
  | .ack k =>
    if k < w.next ∧ (w.req k).dispatch = .passed ∧ (w.req k).pc .vendor = .idle then
      let (found, w) := w.checkAndDequeueRequestInfoIfAck b (w.req k).pRI true
      if found then w.setReq k { w.req k with acks := (w.req k).acks + 1 } else w
    else w
  | .acknowledged k =>
    if k < w.next ∧ 0 < (w.req k).acks then
      (w.read (w.req k).pRI).setReq k { w.req k with acks := (w.req k).acks - 1 }
    else w
  | .complete who k => if k < w.next ∧ w.Completes who k then w.complete b who k else w
  | .go who k e => if k < w.next then w.go b who k e else w

def step (w : RilRequests) (e : RequestEvent) : Except Fault (RilRequests × Unit) :=
  .ok (w.advance b e, ())

/-! ## The property -/

/-- **The property.** A request gets at most one response, with its own serial number. Once it has
    it, it is not pending, and it is freed once when nobody who has answered it is about to free it.
    No memory is accessed that is free, and no token is answered or freed for another request. -/
structure Right (w : RilRequests) : Prop where
  once : ∀ k, (w.answered k).length ≤ 1
  token : ∀ k, ∀ r ∈ w.answered k, r.token = (w.req k).token
  off : ∀ k, w.answered k ≠ [] → ∀ i, ∀ pRI ∈ w.pending i, w.owner pRI ≠ some k
  freed_le : ∀ k, w.freed k ≤ 1
  freed : ∀ k, w.answered k ≠ [] → (∀ who, (w.req k).pc who ≠ .free) → w.freed k = 1
  untouched : w.touched = false
  uncrossed : w.crossed = false

/-- A dispatch function does not fail once it has added the request, and the token of a request that
    its dispatch function completes is not looked up any more when the request is freed. -/
def Meets (w : RilRequests) : RequestEvent → Prop
  | .prepare k alloc => (w.req k).fn.prepare alloc = none
  | .ack k | .acknowledged k | .complete _ k => (w.req k).fake = true → w.freed k = 0
  | _ => True

instance decidableMeets (w : RilRequests) (e : RequestEvent) : Decidable (w.Meets e) :=
  match e with
  | .prepare _ _ => inferInstanceAs (Decidable (_ = _))
  | .ack k | .acknowledged k | .complete _ k =>
    inferInstanceAs (Decidable ((w.req k).fake = true → w.freed k = 0))
  | .add .. | .go .. => inferInstanceAs (Decidable True)

end RilRequests

/-! ## What holds in between -/

/-- The request is off the list and not yet freed. -/
def CompletePc.taken : CompletePc → Bool
  | .respond | .free => true
  | .idle | .done => false

namespace RilRequests

structure Inv (b : RilBuild) (w : RilRequests) : Prop where
  owner : ∀ p j, w.owner p = some j → j < w.next ∧ (w.req j).pRI = p
  heap : ∀ p j, w.owner p = some j →
    (w.heap p).token = (w.req j).token ∧ (w.heap p).socket_id = (w.req j).socket_id
  live : ∀ k < w.next, w.owner (w.req k).pRI = some k ↔ w.freed k = 0
  freed_le : ∀ k, w.freed k ≤ 1
  new : ∀ k, w.next ≤ k → w.answered k = [] ∧ w.freed k = 0
  pending : ∀ i, ∀ p ∈ w.pending i, ∃ j, w.owner p = some j ∧ b.list (w.req j).socket_id = i ∧
    ∀ who, ((w.req j).pc who).taken = false
  nodup : ∀ i, (w.pending i).Nodup
  taken : ∀ k < w.next, ∀ who, ((w.req k).pc who).taken = true → w.freed k = 0
  taken_one : ∀ k < w.next, ((w.req k).pc .vendor).taken = true →
    ((w.req k).pc .dispatch).taken = false
  gone : ∀ k, w.freed k ≠ 0 → ∃ who, (w.req k).pc who = .done
  answered_free : ∀ k < w.next, ∀ who, (w.req k).pc who = .free →
    ∃ r, w.answered k = [r] ∧ r.token = (w.req k).token
  answered_gone : ∀ k, w.freed k ≠ 0 → ∃ r, w.answered k = [r] ∧ r.token = (w.req k).token
  unanswered : ∀ k < w.next, w.freed k = 0 → (∀ who, (w.req k).pc who ≠ .free) → w.answered k = []
  fake : ∀ k, (w.req k).fake = false → (w.req k).pc .dispatch = .idle
  prepare : ∀ k, (w.req k).dispatch = .prepare →
    (∀ who, (w.req k).pc who = .idle) ∧ (w.req k).acks = 0
  acks : ∀ k, 0 < (w.req k).acks → (w.req k).pc .vendor = .idle
  untouched : w.touched = false
  uncrossed : w.crossed = false

variable {b : RilBuild} {w : RilRequests}

theorem inv_init (b : RilBuild) : Inv b {} := by
  constructor <;> simp

theorem Inv.answered (h : w.Inv b) (k : Nat) : w.answered k = [] ∨
    (∃ r, w.answered k = [r] ∧ r.token = (w.req k).token) ∧ k < w.next ∧
      (w.freed k = 0 → ∃ who, (w.req k).pc who = .free) := by
  by_cases hk : k < w.next
  · by_cases hfreed : w.freed k = 0
    · by_cases hfree : ∃ who, (w.req k).pc who = .free
      · obtain ⟨who, hwho⟩ := hfree
        exact .inr ⟨h.answered_free k hk who hwho, hk, fun _ => ⟨who, hwho⟩⟩
      · exact .inl (h.unanswered k hk hfreed (not_exists.1 hfree))
    · exact .inr ⟨h.answered_gone k hfreed, hk, fun hzero => absurd hzero hfreed⟩
  · exact .inl (h.new k (Nat.le_of_not_lt hk)).1

theorem Inv.right (h : w.Inv b) : w.Right := by
  refine ⟨fun k => ?_, fun k r hr => ?_, fun k hk i p hp howner => ?_, h.freed_le,
    fun k hk hfree => ?_, h.untouched, h.uncrossed⟩
  · rcases h.answered k with hempty | ⟨⟨r, hone, -⟩, -⟩
    · simp [hempty]
    · simp [hone]
  · rcases h.answered k with hempty | ⟨⟨r', hone, htoken⟩, -⟩
    · simp [hempty] at hr
    · rw [hone, List.mem_singleton] at hr
      rw [hr, htoken]
  · obtain ⟨hlt, rfl⟩ := h.owner p k howner
    obtain ⟨j, hj, -, htaken⟩ := h.pending i _ hp
    obtain rfl := Option.some.inj (hj.symm.trans howner)
    obtain ⟨-, -, hfree⟩ := (h.answered j).resolve_left hk
    obtain ⟨who, hwho⟩ := hfree ((h.live j hlt).1 howner)
    have := htaken who
    rw [hwho] at this
    cases this
  · obtain ⟨-, -, hzero⟩ := (h.answered k).resolve_left hk
    have hne : w.freed k ≠ 0 := fun hfreed => (hzero hfreed).elim hfree
    have := h.freed_le k
    omega

/-! ## One step after the other -/

theorem Inv.add (h : w.Inv b) {pRI : RequestPtr} (hfree : w.owner pRI = none) (token : BitVec 32)
    (socket_id request : Nat) (fn : Dispatch) :
    (w.addRequestToList b token socket_id request fn pRI).Inv b := by
  have hout : ∀ i, pRI ∉ w.pending i := by
    intro i hmem
    obtain ⟨j, hj, -⟩ := h.pending i pRI hmem
    rw [hfree] at hj
    cases hj
  unfold addRequestToList
  constructor
  case pending =>
    intro i p hp
    simp only [update_apply] at hp ⊢
    by_cases hpRI : p = pRI
    · subst hpRI
      have hi : i = b.list socket_id := by
        by_contra hne
        rw [if_neg hne] at hp
        exact hout i hp
      exact ⟨w.next, if_pos rfl, by simp [hi], by simp [CompletePc.taken]⟩
    · have hold : p ∈ w.pending i := by grind -linarith
      obtain ⟨j, hj, hlist, htaken⟩ := h.pending i p hold
      have hne : j ≠ w.next := Nat.ne_of_lt (h.owner p j hj).1
      exact ⟨j, by rw [if_neg hpRI, hj], by rw [if_neg hne]; exact hlist,
        by rw [if_neg hne]; exact htaken⟩
  all_goals
    cases h
    grind -linarith [CompletePc.taken]

theorem Inv.frame {w' : RilRequests} (h : w.Inv b)
    (hsame : w'.next = w.next ∧ w'.owner = w.owner ∧ w'.pending = w.pending ∧
      w'.answered = w.answered ∧ w'.freed = w.freed ∧ w'.touched = w.touched ∧
      w'.crossed = w.crossed)
    (hheap : ∀ p, (w'.heap p).token = (w.heap p).token ∧
      (w'.heap p).socket_id = (w.heap p).socket_id)
    (hreq : ∀ j, (w'.req j).pRI = (w.req j).pRI ∧ (w'.req j).token = (w.req j).token ∧
      (w'.req j).socket_id = (w.req j).socket_id ∧ (w'.req j).pc = (w.req j).pc ∧
      (w'.req j).fake = (w.req j).fake)
    (hprepare : ∀ j, (w'.req j).dispatch = .prepare →
      (w.req j).dispatch = .prepare ∧ (w'.req j).acks = (w.req j).acks)
    (hacks : ∀ j, 0 < (w'.req j).acks → (w.req j).pc .vendor = .idle) : w'.Inv b := by
  obtain ⟨hnext, howner, hpending, hanswered, hfreed, htouched, hcrossed⟩ := hsame
  have hpRI j := (hreq j).1
  have htoken j := (hreq j).2.1
  have hsocket j := (hreq j).2.2.1
  have hpc j := (hreq j).2.2.2.1
  have hfake j := (hreq j).2.2.2.2
  have hheap₁ p := (hheap p).1
  have hheap₂ p := (hheap p).2
  refine ⟨?_, ?_, ?_, ?_, ?_, ?_, ?_, ?_, ?_, ?_, ?_, ?_, ?_, ?_, fun j hj => ?_, fun j hj => ?_,
    ?_, ?_⟩
  case refine_15 =>
    obtain ⟨hold, hsame⟩ := hprepare j hj
    rw [hsame, hpc]
    exact h.prepare j hold
  case refine_16 =>
    rw [hpc]
    exact hacks j hj
  all_goals
    simp only [hnext, howner, hpending, hanswered, hfreed, htouched, hcrossed, hpRI, htoken, hsocket,
      hpc, hfake, hheap₁, hheap₂]
  exacts [h.owner, h.heap, h.live, h.freed_le, h.new, h.pending, h.nodup, h.taken, h.taken_one,
    h.gone, h.answered_free, h.answered_gone, h.unanswered, h.fake, h.untouched, h.uncrossed]

theorem Inv.setReq (h : w.Inv b) (k : Nat) (dispatch : DispatchPc) (acks : Nat)
    (hprepare : dispatch = .prepare → (w.req k).dispatch = .prepare ∧ acks = (w.req k).acks)
    (hacks : 0 < acks → (w.req k).pc .vendor = .idle) :
    (w.setReq k { w.req k with dispatch, acks }).Inv b := by
  refine h.frame ⟨rfl, rfl, rfl, rfl, rfl, rfl, rfl⟩ (fun p => ⟨rfl, rfl⟩) ?_ ?_ ?_
  all_goals
    intro j
    simp only [RilRequests.setReq, update_apply]
    by_cases hj : j = k
  · subst hj
    rw [if_pos rfl]
    exact ⟨rfl, rfl, rfl, rfl, rfl⟩
  · rw [if_neg hj]
    exact ⟨rfl, rfl, rfl, rfl, rfl⟩
  · subst hj
    rw [if_pos rfl]
    exact hprepare
  · rw [if_neg hj]
    exact fun hprepare => ⟨hprepare, rfl⟩
  · subst hj
    rw [if_pos rfl]
    exact hacks
  · rw [if_neg hj]
    exact h.acks j

section SetPc

variable (w : RilRequests) (who who' : Completer) (j k : Nat) (pc : CompletePc)

theorem setPc_pc : ((w.setPc who k pc).req j).pc who' =
    if j = k ∧ who' = who then pc else (w.req j).pc who' := by
  simp only [setPc, RilRequests.setReq, update_apply]
  by_cases hj : j = k
  · subst hj
    simp [update_apply]
  · simp [hj]

theorem setPc_req : ((w.setPc who k pc).req j).pRI = (w.req j).pRI ∧
    ((w.setPc who k pc).req j).token = (w.req j).token ∧
    ((w.setPc who k pc).req j).socket_id = (w.req j).socket_id ∧
    ((w.setPc who k pc).req j).dispatch = (w.req j).dispatch ∧
    ((w.setPc who k pc).req j).acks = (w.req j).acks ∧
    ((w.setPc who k pc).req j).fake = (w.req j).fake := by
  simp only [setPc, RilRequests.setReq, update_apply]
  by_cases hj : j = k
  · subst hj
    rw [if_pos rfl]
    exact ⟨rfl, rfl, rfl, rfl, rfl, rfl⟩
  · rw [if_neg hj]
    exact ⟨rfl, rfl, rfl, rfl, rfl, rfl⟩

theorem setPc_rest : (w.setPc who k pc).next = w.next ∧ (w.setPc who k pc).owner = w.owner ∧
    (w.setPc who k pc).heap = w.heap ∧ (w.setPc who k pc).pending = w.pending ∧
    (w.setPc who k pc).answered = w.answered ∧ (w.setPc who k pc).freed = w.freed ∧
    (w.setPc who k pc).touched = w.touched ∧ (w.setPc who k pc).crossed = w.crossed :=
  ⟨rfl, rfl, rfl, rfl, rfl, rfl, rfl, rfl⟩

end SetPc

theorem Inv.read (h : w.Inv b) {k : Nat} (hk : k < w.next) (hfreed : w.freed k = 0) :
    w.read (w.req k).pRI = w := by
  unfold RilRequests.read
  rw [(h.live k hk).2 hfreed]
  cases w
  simp_all

theorem Inv.check (h : w.Inv b) {k : Nat} (hk : k < w.next) (hfreed : w.freed k = 0) (isAck : Bool) :
    w.checkAndDequeueRequestInfoIfAck b (w.req k).pRI isAck =
      let i := b.list (w.req k).socket_id
      if (w.req k).pRI ∈ w.pending i then
        if isAck then (true, w.mark (w.req k).pRI)
        else
          (true,
            { w with pending := update w.pending i ((w.pending i).erase (w.req k).pRI) })
      else (false, w) := by
  unfold checkAndDequeueRequestInfoIfAck
  have hsocket := (h.heap _ _ ((h.live k hk).2 hfreed)).2
  rw [h.read hk hfreed, ite_self]
  dsimp only
  rw [hsocket]

theorem Inv.freed_eq_zero (h : w.Inv b) {k : Nat} (hfake : (w.req k).fake = false)
    (hvendor : (w.req k).pc .vendor = .idle) : w.freed k = 0 := by
  by_contra hfreed
  obtain ⟨who, hwho⟩ := h.gone k hfreed
  cases who with
  | vendor =>
    rw [hvendor] at hwho
    cases hwho
  | dispatch =>
    rw [h.fake k hfake] at hwho
    cases hwho

theorem Inv.complete (h : w.Inv b) {who : Completer} {k : Nat} (hk : k < w.next)
    (hcompletes : w.Completes who k) (hfreed : w.freed k = 0) : (w.complete b who k).Inv b := by
  obtain ⟨hpassed, hidle, hwho⟩ := hcompletes
  have howner := (h.live k hk).2 hfreed
  unfold RilRequests.complete
  rw [h.check hk hfreed]
  by_cases hmem : (w.req k).pRI ∈ w.pending (b.list (w.req k).socket_id)
  · have hothers : ∀ who, ((w.req k).pc who).taken = false := by
      obtain ⟨j, hj, -, htaken⟩ := h.pending _ _ hmem
      cases hj.symm.trans howner
      exact htaken
    rw [if_pos hmem]
    simp only [Bool.false_eq_true, if_false, if_true]
    constructor
    case pending =>
      intro i p hp
      simp only [setPc_pc, setPc_req, setPc_rest, update_apply] at hp ⊢
      have hold : p ∈ w.pending i ∧ p ≠ (w.req k).pRI := by
        split at hp
        · next hi =>
          subst hi
          exact ((h.nodup _).mem_erase_iff.1 hp).symm
        · next hi =>
          refine ⟨hp, fun hpRI => hi ?_⟩
          obtain ⟨j, hj, hlist, -⟩ := h.pending i p hp
          rw [hpRI, howner] at hj
          rw [← hlist, ← Option.some.inj hj]
      obtain ⟨j, hj, hlist, htaken⟩ := h.pending i p hold.1
      have hne : j ≠ k := fun hjk => hold.2 (by rw [← hjk, (h.owner p j hj).2])
      refine ⟨j, hj, hlist, fun who' => ?_⟩
      rw [if_neg fun hand => hne hand.1]
      exact htaken who'
    case nodup =>
      intro i
      simp only [setPc_rest, update_apply]
      split
      · exact (h.nodup _).erase _
      · exact h.nodup i
    all_goals
      cases h
      simp only [setPc_pc, setPc_req, setPc_rest]
      grind -linarith [CompletePc.taken]
  · rw [if_neg hmem]
    constructor
    all_goals
      cases h
      simp only [setPc_pc, setPc_req, setPc_rest]
      grind -linarith [CompletePc.taken]

theorem Inv.holder (h : w.Inv b) {who : Completer} {k : Nat} (hk : k < w.next)
    (htaken : ((w.req k).pc who).taken = true) : w.freed k = 0 ∧
      w.owner (w.req k).pRI = some k ∧ ∀ who', who' ≠ who → ((w.req k).pc who').taken = false := by
  have hfreed := h.taken k hk who htaken
  have hone := h.taken_one k hk
  refine ⟨hfreed, (h.live k hk).2 hfreed, fun who' hwho => ?_⟩
  cases who <;> cases who' <;> grind -linarith [CompletePc.taken]

theorem Inv.answer (h : w.Inv b) {who : Completer} {k : Nat} (hk : k < w.next)
    (hpc : (w.req k).pc who = .respond) (ackExp : Bool) (e : RilErrno) :
    ((w.respond k ackExp e).setPc who k .free).Inv b := by
  obtain ⟨hfreed, howner, hother⟩ := h.holder hk (by rw [hpc]; rfl)
  have htoken := (h.heap _ _ howner).1
  have hnone : w.answered k = [] := by
    refine h.unanswered k hk hfreed fun who' hfree => ?_
    by_cases hwho : who' = who
    · rw [hwho, hpc] at hfree
      cases hfree
    · have := hother who' hwho
      rw [hfree] at this
      cases this
  unfold respond
  dsimp only
  rw [howner]
  constructor
  case answered_free =>
    intro j hj who' hwho'
    simp only [setPc_pc, setPc_req, setPc_rest, update_apply] at hwho' ⊢
    by_cases hjk : j = k
    · subst hjk
      rw [if_pos rfl, hnone]
      exact ⟨_, rfl, htoken⟩
    · rw [if_neg fun hand => hjk hand.1] at hwho'
      rw [if_neg hjk]
      exact h.answered_free j hj who' hwho'
  all_goals
    cases h
    simp only [setPc_pc, setPc_req, setPc_rest, update_apply]
    grind -linarith [CompletePc.taken]

theorem Inv.free (h : w.Inv b) {who : Completer} {k : Nat} (hk : k < w.next)
    (hpc : (w.req k).pc who = .free) : ((w.free k).setPc who k .done).Inv b := by
  obtain ⟨hfreed, howner, hother⟩ := h.holder hk (by rw [hpc]; rfl)
  unfold RilRequests.free
  dsimp only
  rw [howner]
  cases h
  constructor
  all_goals
    simp only [setPc_pc, setPc_req, setPc_rest, update_apply]
    grind -linarith [CompletePc.taken]

theorem Inv.ack (h : w.Inv b) {k : Nat} (hk : k < w.next) (hpassed : (w.req k).dispatch = .passed)
    (hidle : (w.req k).pc .vendor = .idle) (hfreed : w.freed k = 0) :
    (w.advance b (.ack k)).Inv b := by
  unfold advance
  dsimp only
  rw [if_pos ⟨hk, hpassed, hidle⟩, h.check hk hfreed]
  dsimp only
  by_cases hmem : (w.req k).pRI ∈ w.pending (b.list (w.req k).socket_id)
  · rw [if_pos hmem]
    have hmarked : (w.mark (w.req k).pRI).Inv b := by
      refine h.frame ⟨rfl, rfl, rfl, rfl, rfl, rfl, rfl⟩ (fun p => ?_)
        (fun j => ⟨rfl, rfl, rfl, rfl, rfl⟩) (fun j hj => ⟨hj, rfl⟩) h.acks
      unfold mark
      simp only [update_apply]
      by_cases hp : p = (w.req k).pRI
      · subst hp
        simp
      · simp [hp]
    refine hmarked.setReq k (w.req k).dispatch ((w.req k).acks + 1) (fun hprepare => ?_)
      fun _ => hidle
    rw [hpassed] at hprepare
    cases hprepare
  · rw [if_neg hmem]
    exact h

/-- A step that meets the condition keeps it. -/
theorem Inv.advance (h : w.Inv b) {e : RequestEvent} (hmeets : w.Meets e) :
    (w.advance b e).Inv b := by
  cases e with
  | add token socket_id request fn pRI =>
    cases pRI with
    | none => exact h
    | some pRI =>
      unfold RilRequests.advance
      dsimp only
      split
      · next hfree => exact h.add hfree token socket_id request fn
      · exact h
  | prepare k alloc =>
    unfold RilRequests.advance
    dsimp only
    split
    · next hprepare =>
      rw [show (w.req k).fn.prepare alloc = none from hmeets]
      refine h.setReq k _ _ (fun hpassed => by cases hpassed) fun hacks => ?_
      exact h.acks k hacks
    · exact h
  | ack k =>
    by_cases hack : k < w.next ∧ (w.req k).dispatch = .passed ∧ (w.req k).pc .vendor = .idle
    · obtain ⟨hk, hpassed, hidle⟩ := hack
      refine h.ack hk hpassed hidle ?_
      cases hfake : (w.req k).fake with
      | true => exact hmeets hfake
      | false => exact h.freed_eq_zero hfake hidle
    · unfold RilRequests.advance
      dsimp only
      rw [if_neg hack]
      exact h
  | acknowledged k =>
    unfold RilRequests.advance
    dsimp only
    split
    · next hand =>
      obtain ⟨hk, hpos⟩ := hand
      have hidle := h.acks k hpos
      have hfreed : w.freed k = 0 := by
        cases hfake : (w.req k).fake with
        | true => exact hmeets hfake
        | false => exact h.freed_eq_zero hfake hidle
      rw [h.read hk hfreed]
      refine h.setReq k _ _ (fun hprepare => ?_) fun _ => hidle
      have := (h.prepare k hprepare).2
      omega
    · exact h
  | complete who k =>
    unfold RilRequests.advance
    dsimp only
    split
    · next hand =>
      obtain ⟨hk, hcompletes⟩ := hand
      refine h.complete hk hcompletes ?_
      cases hfake : (w.req k).fake with
      | true => exact hmeets hfake
      | false =>
        cases who with
        | vendor => exact h.freed_eq_zero hfake hcompletes.2.1
        | dispatch =>
          have := hcompletes.2.2
          simp [hfake] at this
    · exact h
  | go who k e =>
    unfold RilRequests.advance
    dsimp only
    split
    · next hk =>
      unfold RilRequests.go
      split
      · next hpc => exact h.answer hk hpc _ e
      · next hpc => exact h.free hk hpc
      · exact h
      · exact h
    · exact h

/-- **Requests and their tokens.** Let no dispatch function fail after it has added its request, and
    let the token of a manual network selection not be looked up any more once it is freed. Then in
    every order of the steps, with addresses used again and again, every request is answered at most
    once, with its own serial number, is off the list then and freed once, and no token stands for
    another request than its own. -/
theorem run_requests {tr : List (RequestEvent × Unit)} (run : Run (step b) Meets {} tr w) :
    w.Right := by
  have hinv : w.Inv b := by
    refine run.invariant (fun _ w => w.Inv b) (inv_init b) ?_
    rintro tr w e w' u hinv hmeets hstep
    cases hstep
    exact hinv.advance hmeets
  exact hinv.right

/-- A manual selection is completed by its dispatch function, and its address used for the next
    request, which the vendor acknowledges and completes. -/
def selectAgain : List RequestEvent :=
  [.add 7 0 rilRequestSetNetworkSelectionManual (.dispatchStrings true []) (some 100),
    .prepare 0 fun _ => true, .complete .dispatch 0, .go .dispatch 0 .RIL_E_SUCCESS,
    .go .dispatch 0 .RIL_E_SUCCESS, .add 8 0 1 .dispatchVoid (some 100), .prepare 1 fun _ => true,
    .ack 1, .acknowledged 1, .complete .vendor 1, .go .vendor 1 (.vendor 0),
    .go .vendor 1 (.vendor 0)]

theorem run_requests_again : ∃ tr w, Run (step ⟨2, 15⟩) Meets {} tr w ∧
    w.answered 0 = [⟨false, 7, .RIL_E_SUCCESS⟩] ∧ w.answered 1 = [⟨true, 8, .vendor 0⟩] ∧
      w.Right := by
  obtain ⟨tr, w, run, -, hw⟩ : ∃ tr w, Run (step ⟨2, 15⟩) Meets {} tr w ∧
      tr.map Prod.fst = selectAgain ∧ (w.answered 0, w.answered 1) =
        ([⟨false, 7, .RIL_E_SUCCESS⟩], [⟨true, 8, .vendor 0⟩]) :=
    Run.exists_of_allMeet (g := fun w : RilRequests => (w.answered 0, w.answered 1))
      (by decide +kernel) (by decide +kernel)
  obtain ⟨h0, h1⟩ := Prod.mk.inj hw
  exact ⟨tr, w, run, h0, h1, run_requests run⟩

/-- There is no memory for the numbers of a request. -/
def noMemory : List RequestEvent :=
  [.add 7 0 1 (.dispatchInts 1) (some 100), .prepare 0 fun _ => false]

/-- The vendor does complete a manual selection, and the next request is made where it was before
    `onRequest` has returned. -/
def selectTwice : List RequestEvent :=
  [.add 7 0 rilRequestSetNetworkSelectionManual (.dispatchStrings true []) (some 100),
    .prepare 0 fun _ => true, .complete .vendor 0, .go .vendor 0 (.vendor 0),
    .go .vendor 0 (.vendor 0), .add 8 0 1 .dispatchVoid (some 100), .prepare 1 fun _ => true,
    .complete .dispatch 0, .go .dispatch 0 .RIL_E_SUCCESS]

/-- The first stays in the list with its answer. The other ends with an answer of the first request
    to the second one. -/
theorem requests_wrong :
    (∃ tr w, Run (step ⟨2, 15⟩) (fun _ _ => True) {} tr w ∧ ¬ w.Right) ∧
      ∃ tr w, Run (step ⟨2, 15⟩) (fun _ _ => True) {} tr w ∧
        w.answered 1 = [⟨false, 8, .RIL_E_SUCCESS⟩] ∧ w.crossed = true := by
  constructor
  · obtain ⟨tr, w, run, hw⟩ : ∃ tr w, Run (step ⟨2, 15⟩) (fun _ _ => True) {} tr w ∧
        (w.answered 0, w.pending 0, w.owner 100) =
          ([⟨false, 7, .RIL_E_NO_MEMORY⟩], [100], some 0) :=
      Run.exists_of_exec (C := fun _ => True)
        (g := fun w : RilRequests => (w.answered 0, w.pending 0, w.owner 100))
        (show (exec _ _ noMemory).toOption.map _ = _ by decide +kernel) fun _ _ => trivial
    simp only [Prod.mk.injEq] at hw
    obtain ⟨hanswered, hpending, howner⟩ := hw
    refine ⟨tr, w, run, fun hright => ?_⟩
    exact hright.off 0 (by simp [hanswered]) 0 100 (by simp [hpending]) howner
  · obtain ⟨tr, w, run, hw⟩ : ∃ tr w, Run (step ⟨2, 15⟩) (fun _ _ => True) {} tr w ∧
        (w.answered 1, w.crossed) = ([⟨false, 8, .RIL_E_SUCCESS⟩], true) :=
      Run.exists_of_exec (C := fun _ => True)
        (g := fun w : RilRequests => (w.answered 1, w.crossed))
        (show (exec _ _ selectTwice).toOption.map _ = _ by decide +kernel) fun _ _ => trivial
    obtain ⟨hanswered, hcrossed⟩ := Prod.mk.inj hw
    exact ⟨tr, w, run, hanswered, hcrossed⟩

end RilRequests

end Nx508j.Ril
