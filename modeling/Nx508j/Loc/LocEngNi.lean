import Nx508j.Lib.Memory

/-! # Network-initiated requests

A request for a location that comes from the network is shown to the user, and a thread waits for
the answer or for the time to pass. There is one session for emergency requests and one for the
others. The message task takes the requests and the restarts of the modem; the user's answers come
on threads of their own. Only some of what these do is done under the lock of the session: each part
under a lock is a step here, and so is each assignment outside. -/

namespace Nx508j.Loc

open Nx508j.Lib Function

/-- `GPS_NI_RESPONSE_ACCEPT`, `GPS_NI_RESPONSE_NORESP` and `GPS_NI_RESPONSE_IGNORE` -/
def gpsNiResponseAccept : Int := 1

def gpsNiResponseNoresp : Int := 3

def gpsNiResponseIgnore : Int := 4

/-- `LOC_NI_NO_RESPONSE_TIME`, in seconds. -/
def locNiNoResponseTime : Int := 20

/-- `loc_eng_ni_session_s_type`, without the lock. -/
structure NiSession where
  respTimeLeft : Int := 0
  respRecvd : Bool := false
  rawRequest : Option Nat := none
  reqID : Int := 0
  resp : Int := 0

/-- What the message task does next for a request or a restart. -/
inductive NiHandler where
  | idle
  | saveRequest (es : Bool) (passThrough : Option Nat) (timeout : Int)
  | saveId (es : Bool) (timeout : Int)
  | saveTime (es : Bool) (timeout : Int)
  | createThread (es : Bool)
  | check (es : Bool)
  | free (es : Bool)
  | clear (es : Bool)
  | wake (es : Bool)
deriving DecidableEq, Repr

/-- `LocEngInformNiResponse`, which owns its payload. -/
structure LocEngInformNiResponse where
  mResponse : Int
  mPayload : Nat
deriving DecidableEq, Repr

/-- Where a thread is in `ni_thread_proc`. -/
inductive NiThreadPc where
  | start
  | wait (expire_time : Int)
  | clearTime (msg : Option LocEngInformNiResponse)
  | clearId (msg : Option LocEngInformNiResponse)
  | sendMsg (msg : Option LocEngInformNiResponse)
  | ended
deriving DecidableEq, Repr

structure NiThread where
  es : Bool
  pc : NiThreadPc
deriving DecidableEq, Repr

/-- `loc_eng_ni_data`, with `sessionEs` as the session of `true`; the threads of `ni_thread_proc`;
    and the calls of `loc_eng_ni_respond` with the sessions whose locks they take next, and what
    they leave there. The last fields record the payloads that came, and what became of them. -/
structure LocEngNi where
  now : Int
  session : Bool → NiSession := fun _ => {}
  reqIDCounter : Int := 0
  handler : NiHandler := .idle
  threads : List NiThread := []
  responds : List (List (Bool × Int)) := []
  received : List Nat := []
  sent : List LocEngInformNiResponse := []
  freed : List Nat := []

inductive NiEvent where
  | tick (now : Int)
  | request (es : Bool) (passThrough : Option Nat) (timeout : Int)
  | restart
  | handlerStep (created : Bool)
  | respond (notif_id user_response : Int)
  | respondStep (call : Nat)
  | threadStep (thread : Nat) (timedOut : Bool)
deriving DecidableEq, Repr

namespace LocEngNi

def setSession (es : Bool) (p : NiSession) (s : LocEngNi) : LocEngNi :=
  { s with session := update s.session es p }

/-! ## The message task -/

/-- The start of `loc_eng_ni_request_handler`, which frees what it ignores. -/
def request (es : Bool) (passThrough : Option Nat) (timeout : Int) (s : LocEngNi) : LocEngNi :=
  let busy := (s.session es).rawRequest.isSome || (s.session true).rawRequest.isSome
  let s := { s with received := s.received ++ passThrough.toList }
  if busy then { s with freed := s.freed ++ passThrough.toList }
  else { s with handler := .saveRequest es passThrough timeout }

/-- A restart goes on with the other session, or is done. -/
def restarted (es : Bool) : NiHandler := if es then .check false else .idle

/-- The rest of `loc_eng_ni_request_handler`, and `loc_eng_ni_reset_on_engine_restart`. -/
def handlerStep (created : Bool) (s : LocEngNi) : LocEngNi :=
  match s.handler with
  | .idle => s
  | .saveRequest es passThrough timeout =>
    { s.setSession es { s.session es with rawRequest := passThrough } with
      handler := .saveId es timeout }
  | .saveId es timeout =>
    { s.setSession es { s.session es with reqID := s.reqIDCounter + 1 } with
      reqIDCounter := s.reqIDCounter + 1
      handler := .saveTime es timeout }
  | .saveTime es timeout =>
    let time := if timeout ≠ 0 then timeout else locNiNoResponseTime
    { s.setSession es { s.session es with respTimeLeft := 5 + time } with
      handler := .createThread es }
  | .createThread es =>
    { s with threads := s.threads ++ if created then [⟨es, .start⟩] else [], handler := .idle }
  | .check es =>
    { s with handler := if (s.session es).rawRequest.isSome then .free es else restarted es }
  | .free es =>
    { s with freed := s.freed ++ (s.session es).rawRequest.toList, handler := .clear es }
  | .clear es =>
    { s.setSession es { s.session es with rawRequest := none } with handler := .wake es }
  | .wake es =>
    { s.setSession es { s.session es with respRecvd := true } with handler := restarted es }

/-! ## The user's answers -/

/-- `loc_eng_ni_respond`, up to the locks. -/
def respond (notif_id user_response : Int) (s : LocEngNi) : LocEngNi :=
  let active es := notif_id = (s.session es).reqID ∧ (s.session es).rawRequest.isSome = true
  let ops : List (Bool × Int) :=
    if active true then
      if user_response = gpsNiResponseAccept ∧ (s.session false).rawRequest.isSome = true then
        [(false, gpsNiResponseIgnore), (true, user_response)]
      else [(true, user_response)]
    else if active false then [(false, user_response)] else []
  { s with responds := s.responds ++ [ops] }

/-- The next lock that a call takes. -/
def respondStep (call : Nat) (s : LocEngNi) : LocEngNi :=
  match s.responds[call]? with
  | some ((es, resp) :: ops) =>
    { s.setSession es { s.session es with resp := resp, respRecvd := true } with
      responds := s.responds.set call ops }
  | _ => s

/-! ## The threads -/

/-- What `ni_thread_proc` does under the lock when its wait has ended. -/
def finish (es : Bool) (resp : Int) (s : LocEngNi) : LocEngNi × NiThreadPc :=
  let p := s.session es
  let s' := s.setSession es { p with resp := resp, respRecvd := false, rawRequest := none }
  if resp = gpsNiResponseIgnore then
    ({ s' with freed := s.freed ++ p.rawRequest.toList }, .clearTime none)
  else (s', .clearTime (p.rawRequest.map fun payload => ⟨resp, payload⟩))

/-- The response with which the wait of a thread ends, if it does. -/
def waitEnds (t : NiThread) (timedOut : Bool) (s : LocEngNi) : Option Int :=
  let answered :=
    if (s.session t.es).respRecvd then some (s.session t.es).resp else none
  match t.pc with
  | .start => answered
  | .wait expire_time =>
    if timedOut = true ∧ expire_time ≤ s.now then some gpsNiResponseNoresp else answered
  | _ => none

/-- A step of `ni_thread_proc`. -/
def ni_thread_proc (t : NiThread) (timedOut : Bool) (s : LocEngNi) : LocEngNi × NiThreadPc :=
  let p := s.session t.es
  match s.waitEnds t timedOut, t.pc with
  | some resp, _ => s.finish t.es resp
  | none, .start => (s, .wait (s.now + p.respTimeLeft))
  | none, .clearTime msg => (s.setSession t.es { p with respTimeLeft := 0 }, .clearId msg)
  | none, .clearId msg => (s.setSession t.es { p with reqID := 0 }, .sendMsg msg)
  | none, .sendMsg msg => ({ s with sent := s.sent ++ msg.toList }, .ended)
  | none, pc => (s, pc)

def threadStep (thread : Nat) (timedOut : Bool) (s : LocEngNi) : LocEngNi :=
  match s.threads[thread]? with
  | none => s
  | some t =>
    let (s, pc) := s.ni_thread_proc t timedOut
    { s with threads := s.threads.set thread { t with pc } }

/-- A step. The message task takes one message after the other, and the clock does not go back. -/
def advance (s : LocEngNi) : NiEvent → LocEngNi
  | .tick now => if s.now ≤ now then { s with now := now } else s
  | .request es passThrough timeout =>
    if s.handler = .idle then s.request es passThrough timeout else s
  | .restart => if s.handler = .idle then { s with handler := .check true } else s
  | .handlerStep created => s.handlerStep created
  | .respond notif_id user_response => s.respond notif_id user_response
  | .respondStep call => s.respondStep call
  | .threadStep thread timedOut => s.threadStep thread timedOut

def step (s : LocEngNi) (e : NiEvent) : Except Fault (LocEngNi × Unit) := .ok (s.advance e, ())

/-- Threads can be created, and no thread takes a payload between the two assignments with which a
    restart frees it. -/
def Orderly (s : LocEngNi) : NiEvent → Prop
  | .handlerStep created => created = true
  | .threadStep thread timedOut =>
    ∀ t ∈ s.threads[thread]?, s.handler = .clear t.es → s.waitEnds t timedOut = none
  | _ => True

end LocEngNi

/-! ## Where a payload is -/

/-- The payload that the handler has not saved yet. -/
def NiHandler.held : NiHandler → List Nat
  | .saveRequest _ passThrough _ => passThrough.toList
  | _ => []

/-- The handler is about to create a thread for what it has saved. -/
def NiHandler.Creates (es : Bool) : NiHandler → Prop
  | .saveId es' _ | .saveTime es' _ | .createThread es' => es' = es
  | _ => False

namespace NiThreadPc

/-- The payload that a thread is about to send. -/
def held : NiThreadPc → List Nat
  | .clearTime msg | .clearId msg | .sendMsg msg => msg.toList.map (·.mPayload)
  | _ => []

def Waits : NiThreadPc → Prop
  | .start | .wait _ => True
  | _ => False

end NiThreadPc

namespace LocEngNi

variable {s s' : LocEngNi} {es : Bool}

/-- The payload in a session, unless a restart has just freed it. -/
def rawHeld (s : LocEngNi) (es : Bool) : List Nat :=
  if s.handler = .clear es then [] else (s.session es).rawRequest.toList

/-- How often a payload is held, was sent or was freed. -/
def places (s : LocEngNi) (payload : Nat) : Nat :=
  s.handler.held.count payload + (s.rawHeld true).count payload + (s.rawHeld false).count payload +
    (s.threads.flatMap fun t => t.pc.held).count payload +
      (s.sent.map (·.mPayload)).count payload + s.freed.count payload

/-- A payload that came is in one place, and a thread waits for what is in a session. -/
structure Inv (s : LocEngNi) : Prop where
  places : ∀ payload, s.places payload = s.received.count payload
  saving : ∀ es passThrough timeout, s.handler = .saveRequest es passThrough timeout →
    (s.session es).rawRequest = none
  waited : ∀ es, (s.session es).rawRequest ≠ none →
    s.handler.Creates es ∨ ∃ t ∈ s.threads, t.es = es ∧ t.pc.Waits

@[simp] theorem rawRequest_setSession (es es' : Bool) (p : NiSession) :
    ((s.setSession es p).session es').rawRequest =
      if es' = es then p.rawRequest else (s.session es').rawRequest := by
  unfold setSession
  dsimp only
  by_cases h : es' = es
  · rw [h, update_self, if_pos rfl]
  · rw [update_of_ne h, if_neg h]

@[simp] theorem setSession_rest (es : Bool) (p : NiSession) :
    (s.setSession es p).handler = s.handler ∧ (s.setSession es p).threads = s.threads ∧
      (s.setSession es p).received = s.received ∧ (s.setSession es p).sent = s.sent ∧
        (s.setSession es p).freed = s.freed :=
  ⟨rfl, rfl, rfl, rfl, rfl⟩

/-- What moves no payload. -/
theorem Inv.frame (h : s.Inv) (hraw : ∀ es, (s'.session es).rawRequest = (s.session es).rawRequest)
    (hthreads : s'.threads = s.threads)
    (hlogs : s'.received = s.received ∧ s'.sent = s.sent ∧ s'.freed = s.freed)
    (hheld : s'.handler.held = s.handler.held)
    (hclear : ∀ es, s'.handler = .clear es ↔ s.handler = .clear es)
    (hsaving : ∀ es passThrough timeout, s'.handler = .saveRequest es passThrough timeout →
      s.handler = .saveRequest es passThrough timeout)
    (hcreates : ∀ es, s.handler.Creates es → s'.handler.Creates es) : s'.Inv := by
  obtain ⟨hreceived, hsent, hfreed⟩ := hlogs
  have hrawHeld : ∀ es, s'.rawHeld es = s.rawHeld es := by
    intro es
    rw [rawHeld, rawHeld, hraw]
    simp only [hclear]
  refine ⟨fun payload => ?_, fun es passThrough timeout hh => ?_, fun es hsome => ?_⟩
  · rw [LocEngNi.places, hheld, hrawHeld, hrawHeld, hthreads, hsent, hfreed, hreceived]
    exact h.places payload
  · rw [hraw]
    exact h.saving es passThrough timeout (hsaving es passThrough timeout hh)
  · rw [hraw] at hsome
    rw [hthreads]
    exact (h.waited es hsome).imp_left (hcreates es)

/-! ## What a step does -/

theorem Inv.request (h : s.Inv) (hidle : s.handler = .idle) (es : Bool) (passThrough : Option Nat)
    (timeout : Int) : (s.request es passThrough timeout).Inv := by
  have hplaces := h.places
  simp only [LocEngNi.places, rawHeld, hidle] at hplaces
  unfold LocEngNi.request
  dsimp only
  split
  · refine ⟨fun payload => ?_, h.saving, h.waited⟩
    have hp := hplaces payload
    simp [LocEngNi.places, rawHeld, hidle, NiHandler.held] at hp ⊢
    omega
  · next hbusy =>
    refine ⟨fun payload => ?_, ?_, fun es' hsome => .inr ?_⟩
    · have hp := hplaces payload
      simp [LocEngNi.places, rawHeld, NiHandler.held] at hp ⊢
      omega
    · rintro es' passThrough' timeout' hh
      obtain ⟨rfl, -, -⟩ := NiHandler.saveRequest.inj hh
      simp at hbusy
      exact hbusy.1
    · exact (h.waited es' hsome).resolve_left (by simp [hidle, NiHandler.Creates])

theorem restarted_cases (es : Bool) : restarted es = .check false ∨ restarted es = .idle := by
  cases es
  · exact .inr rfl
  · exact .inl rfl

theorem Inv.handlerStep (h : s.Inv) : (s.handlerStep true).Inv := by
  have hplaces := h.places
  have hwaited := h.waited
  unfold LocEngNi.handlerStep
  split
  · exact h
  · next es passThrough timeout hh =>
    have hnone := h.saving es passThrough timeout hh
    refine ⟨fun payload => ?_, fun _ _ _ hh' => (nomatch hh'), fun es' hsome => ?_⟩
    · have hp := hplaces payload
      cases es <;>
        simp [LocEngNi.places, rawHeld, hh, hnone, NiHandler.held] at hp ⊢ <;> omega
    · by_cases hes : es' = es
      · exact .inl hes.symm
      · simp [hes] at hsome
        exact .inr ((hwaited es' hsome).resolve_left (by simp [hh, NiHandler.Creates]))
  · next es timeout hh =>
    refine h.frame (by simp) rfl ⟨rfl, rfl, rfl⟩ ?_ ?_ ?_ ?_ <;>
      simp [hh, NiHandler.held, NiHandler.Creates]
  · next es timeout hh =>
    refine h.frame (by simp) rfl ⟨rfl, rfl, rfl⟩ ?_ ?_ ?_ ?_ <;>
      simp [hh, NiHandler.held, NiHandler.Creates]
  · next es hh =>
    refine ⟨fun payload => ?_, fun _ _ _ hh' => (nomatch hh'), fun es' hsome => .inr ?_⟩
    · have hp := hplaces payload
      simpa [LocEngNi.places, rawHeld, hh, NiHandler.held, NiThreadPc.held] using hp
    · rcases hwaited es' hsome with hc | ⟨t, ht, hwaits⟩
      · rw [hh] at hc
        exact ⟨⟨es, .start⟩, by simp, hc, trivial⟩
      · exact ⟨t, List.mem_append_left _ ht, hwaits⟩
  · next es hh =>
    refine h.frame (by simp) rfl ⟨rfl, rfl, rfl⟩ ?_ ?_ ?_ ?_ <;>
      split <;> rcases restarted_cases es with hr | hr <;>
        simp [hh, hr, NiHandler.held, NiHandler.Creates]
  · next es hh =>
    refine ⟨fun payload => ?_, fun _ _ _ hh' => (nomatch hh'), fun es' hsome => ?_⟩
    · have hp := hplaces payload
      cases es <;>
        simp [LocEngNi.places, rawHeld, hh, NiHandler.held] at hp ⊢ <;> omega
    · exact .inr ((hwaited es' hsome).resolve_left (by simp [hh, NiHandler.Creates]))
  · next es hh =>
    refine ⟨fun payload => ?_, fun _ _ _ hh' => (nomatch hh'), fun es' hsome => ?_⟩
    · have hp := hplaces payload
      cases es <;>
        simp [LocEngNi.places, rawHeld, hh, NiHandler.held] at hp ⊢ <;> omega
    · simp at hsome
      exact .inr ((hwaited es' hsome.2).resolve_left (by simp [hh, NiHandler.Creates]))
  · next es hh =>
    refine h.frame (by simp) rfl ⟨rfl, rfl, rfl⟩ ?_ ?_ ?_ ?_ <;>
      rcases restarted_cases es with hr | hr <;> simp [hh, hr, NiHandler.held, NiHandler.Creates]

/-- A thread takes the payload of its session, or it goes on with what it has. -/
theorem ni_thread_proc_spec {t : NiThread} {timedOut : Bool} {pc : NiThreadPc}
    (h : s.ni_thread_proc t timedOut = (s', pc)) :
    (s'.handler = s.handler ∧ s'.threads = s.threads ∧ s'.received = s.received ∧
      ∀ es ≠ t.es, (s'.session es).rawRequest = (s.session es).rawRequest) ∧
    ((s.waitEnds t timedOut ≠ none ∧ (s'.session t.es).rawRequest = none ∧ s'.sent = s.sent ∧
        t.pc.held = [] ∧
          (pc.held ++ s'.freed).Perm ((s.session t.es).rawRequest.toList ++ s.freed)) ∨
      ((s'.session t.es).rawRequest = (s.session t.es).rawRequest ∧ (t.pc.Waits → pc.Waits) ∧
        s'.freed = s.freed ∧ (pc.held ++ s'.sent.map (·.mPayload)).Perm
          (t.pc.held ++ s.sent.map (·.mPayload)))) := by
  unfold ni_thread_proc at h
  cases hends : s.waitEnds t timedOut with
  | some resp =>
    have hheld : t.pc.held = [] := by
      unfold waitEnds at hends
      cases hpc : t.pc with
      | start | wait => rfl
      | _ => simp [hpc] at hends
    rw [hends] at h
    simp only [finish] at h
    split at h
    all_goals
      cases h
      refine ⟨⟨rfl, rfl, rfl, fun es hne => by simp [hne]⟩, .inl ⟨by simp, ?_, rfl, hheld, ?_⟩⟩
    · simp
    · simpa [NiThreadPc.held] using List.perm_append_comm
    · simp
    · cases (s.session t.es).rawRequest <;> simp [NiThreadPc.held]
  | none =>
    rw [hends] at h
    cases hpc : t.pc
    all_goals
      rw [hpc] at h
      cases h
      refine ⟨⟨rfl, rfl, rfl, fun es hne => by simp [hne]⟩, .inr ⟨by simp, ?_, rfl, ?_⟩⟩
    all_goals simp [NiThreadPc.held, NiThreadPc.Waits]
    exact List.perm_append_comm

theorem Inv.threadStep (h : s.Inv) {thread : Nat} {timedOut : Bool}
    (hC : s.Orderly (.threadStep thread timedOut)) : (s.threadStep thread timedOut).Inv := by
  unfold LocEngNi.threadStep
  cases ht : s.threads[thread]? with
  | none => exact h
  | some t =>
    obtain ⟨l₁, l₂, hsplit, hset⟩ : ∃ l₁ l₂, s.threads = l₁ ++ t :: l₂ ∧
        ∀ t', s.threads.set thread t' = l₁ ++ t' :: l₂ := by
      obtain ⟨hlt, rfl⟩ := List.getElem?_eq_some_iff.1 ht
      refine ⟨s.threads.take thread, s.threads.drop (thread + 1), by simp, fun t' => ?_⟩
      rw [List.set_eq_take_append_cons_drop, if_pos hlt]
    rcases hrun : s.ni_thread_proc t timedOut with ⟨s', pc⟩
    obtain ⟨⟨hhandler, hthreads, hreceived, hother⟩, hdoes⟩ := ni_thread_proc_spec hrun
    have hends := hC t ht
    dsimp only
    rw [hrun]
    rw [hthreads, hset]
    refine ⟨fun payload => ?_, fun es passThrough timeout hh => ?_, fun es hsome => ?_⟩
    · -- only the session of the thread counts
      have hp := h.places payload
      obtain ⟨es, pc₀⟩ := t
      rcases hdoes with ⟨hne, hnone, hsent, hheld, hperm⟩ | ⟨hraw, -, hfreed, hperm⟩
      · have hcount := hperm.count_eq payload
        have hclear := mt hends hne
        cases es <;>
          simp [LocEngNi.places, rawHeld, hhandler, hreceived, hother, hnone, hsent, hheld, hsplit,
            hclear] at hp hcount ⊢ <;> omega
      · have hcount := hperm.count_eq payload
        cases es <;>
          simp [LocEngNi.places, rawHeld, hhandler, hreceived, hother, hraw, hfreed, hsplit]
            at hp hcount ⊢ <;> omega
    · have hsaving := h.saving es passThrough timeout (hhandler ▸ hh)
      by_cases hes : es = t.es
      · subst hes
        rcases hdoes with ⟨-, hnone, -⟩ | ⟨hraw, -⟩
        · exact hnone
        · exact hraw.trans hsaving
      · exact (hother es hes).trans hsaving
    · have hraw : (s'.session es).rawRequest = (s.session es).rawRequest ∧
          (es = t.es → t.pc.Waits → pc.Waits) := by
        by_cases hes : es = t.es
        · subst hes
          rcases hdoes with ⟨-, hnone, -⟩ | ⟨hraw, hwaits, -⟩
          · exact absurd hnone hsome
          · exact ⟨hraw, fun _ => hwaits⟩
        · exact ⟨hother es hes, fun heq => absurd heq hes⟩
      rcases h.waited es (hraw.1 ▸ hsome) with hc | ⟨t₀, ht₀, rfl, hwaits⟩
      · exact .inl (hhandler.symm ▸ hc)
      · refine .inr ?_
        rw [hsplit] at ht₀
        rcases List.mem_append.1 ht₀ with hmem | hmem
        · exact ⟨t₀, List.mem_append_left _ hmem, rfl, hwaits⟩
        rcases List.mem_cons.1 hmem with rfl | hmem
        · exact ⟨⟨t₀.es, pc⟩, by simp, rfl, hraw.2 rfl hwaits⟩
        · exact ⟨t₀, by simp [hmem], rfl, hwaits⟩

theorem Inv.advance (h : s.Inv) {e : NiEvent} (hC : s.Orderly e) : (s.advance e).Inv := by
  have same : ∀ s' : LocEngNi, s'.handler = s.handler → s'.threads = s.threads →
      s'.received = s.received ∧ s'.sent = s.sent ∧ s'.freed = s.freed →
      (∀ es, (s'.session es).rawRequest = (s.session es).rawRequest) → s'.Inv := by
    intro s' hhandler hthreads hlogs hraw
    refine h.frame hraw hthreads hlogs ?_ ?_ ?_ ?_ <;> simp [hhandler]
  cases e with
  | tick now =>
    unfold LocEngNi.advance
    dsimp only
    split
    · exact same _ rfl rfl ⟨rfl, rfl, rfl⟩ fun _ => rfl
    · exact h
  | request es passThrough timeout =>
    unfold LocEngNi.advance
    dsimp only
    split
    · next hidle => exact h.request hidle es passThrough timeout
    · exact h
  | restart =>
    unfold LocEngNi.advance
    dsimp only
    split
    · next hidle =>
      refine h.frame (fun _ => rfl) rfl ⟨rfl, rfl, rfl⟩ ?_ ?_ ?_ ?_ <;>
        simp [hidle, NiHandler.held, NiHandler.Creates]
    · exact h
  | handlerStep created =>
    obtain rfl : created = true := hC
    exact h.handlerStep
  | respond notif_id user_response => exact same _ rfl rfl ⟨rfl, rfl, rfl⟩ fun _ => rfl
  | respondStep call =>
    show (s.respondStep call).Inv
    unfold LocEngNi.respondStep
    split
    · exact same _ rfl rfl ⟨rfl, rfl, rfl⟩ (by simp)
    · exact h
  | threadStep thread timedOut => exact h.threadStep hC

/-- **No payload is lost.** However requests, restarts, answers and threads interleave, a payload
    that came is in one place, and when everything is done each was handed on or freed, once. -/
theorem run_payloads {now : Int} {tr : List (NiEvent × Unit)}
    (run : Run step Orderly { now := now } tr s) :
    (∀ payload, s.places payload = s.received.count payload) ∧
      (s.handler = .idle → (∀ t ∈ s.threads, t.pc = .ended) →
        (s.sent.map (·.mPayload) ++ s.freed).Perm s.received) := by
  have hinv : s.Inv := by
    refine run.invariant (fun _ s => s.Inv) ?_ fun tr s e s' u h hC hstep => ?_
    · exact ⟨fun _ => rfl, fun _ _ _ hh => (nomatch hh), fun _ hsome => absurd rfl hsome⟩
    · cases hstep
      exact h.advance hC
  refine ⟨hinv.places, fun hidle hended => List.perm_iff_count.2 fun payload => ?_⟩
  have hnone : ∀ es, (s.session es).rawRequest = none := by
    intro es
    by_contra hsome
    rcases hinv.waited es hsome with hc | ⟨t, ht, -, hwaits⟩
    · rw [hidle] at hc
      exact hc
    · rw [hended t ht] at hwaits
      exact hwaits
  have hheld : (s.threads.flatMap fun t => t.pc.held) = [] :=
    List.flatMap_eq_nil_iff.2 fun t ht => by rw [hended t ht]; rfl
  have hp := hinv.places payload
  simp [LocEngNi.places, rawHeld, hidle, hnone, hheld, NiHandler.held] at hp
  rw [List.count_append]
  exact hp

instance (s : LocEngNi) : ∀ e, Decidable (s.Orderly e)
  | .handlerStep created => inferInstanceAs (Decidable (created = true))
  | .threadStep thread timedOut => inferInstanceAs (Decidable (∀ t ∈ s.threads[thread]?,
      s.handler = .clear t.es → s.waitEnds t timedOut = none))
  | .tick _ | .request .. | .restart | .respond .. | .respondStep _ => .isTrue trivial

/-- The user answers the first request; the modem restarts before he answers the second. -/
def answerAndRestart : List NiEvent :=
  .request false (some 7) 10 :: List.replicate 4 (.handlerStep true) ++
    [.threadStep 0 false, .respond 1 gpsNiResponseAccept, .respondStep 0] ++
    List.replicate 4 (.threadStep 0 false) ++
    .request true (some 8) 0 :: List.replicate 4 (.handlerStep true) ++
    .restart :: List.replicate 5 (.handlerStep true) ++ List.replicate 4 (.threadStep 1 false)

theorem run_payloads_restart : ∃ tr s, Run step Orderly { now := 0 } tr s ∧
    tr.map Prod.fst = answerAndRestart ∧ s.sent = [⟨1, 7⟩] ∧ s.freed = [8] ∧
      (s.sent.map (·.mPayload) ++ s.freed).Perm s.received := by
  obtain ⟨tr, s, run, hcalls, hs⟩ : ∃ tr s, Run step Orderly { now := 0 } tr s ∧
      tr.map Prod.fst = answerAndRestart ∧ (s.sent, s.freed, s.handler, s.threads) =
        ([⟨1, 7⟩], [8], .idle, [⟨false, .ended⟩, ⟨true, .ended⟩]) :=
    Run.exists_of_allMeet (g := fun s : LocEngNi => (s.sent, s.freed, s.handler, s.threads))
      (by decide +kernel) (by decide +kernel)
  simp only [Prod.mk.injEq] at hs
  obtain ⟨hsent, hfreed, hidle, hthreads⟩ := hs
  refine ⟨tr, s, run, hcalls, hsent, hfreed, (run_payloads run).2 hidle ?_⟩
  rw [hthreads]
  simp

end LocEngNi

end Nx508j.Loc
