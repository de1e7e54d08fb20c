import Nx508j.Ril.RilSapSocket

/-! # The life of a request

What a run has to keep to so that each block is freed once and not used afterwards is `Clean`. In such
a run each step is about the blocks of one request, and where the request's call and its completion are
says what has become of them. -/

namespace Nx508j.Ril

open Nx508j.Lib Function

/-- The block has been freed, if it was allocated at all. -/
def Over (x : BlockState) : Prop := x = .unborn ∨ x = .gone

/-- What there is of one request. -/
structure SapLife where
  call : Option SapCall
  completion : Option SapCompletion
  hdr : MsgHeader
  request : SapSocketRequest
  queued : Nat → Nat
  msgHeader : BlockState
  buffer : BlockState
  payload : BlockState
  record : BlockState
  rspPayload : BlockState

namespace SapLife

/-- The request is in the queue of this socket, and in that only. -/
structure Pending (x : SapLife) (n k : Nat) : Prop where
  here : x.queued k = 1
  only : ∀ k' ≠ k, x.queued k' = 0
  request : x.request = ⟨x.hdr.token, n, k⟩
  msgHeader : x.msgHeader = .live
  record : x.record = .live

/-- The request has not been given to the socket yet. -/
structure Early (x : SapLife) : Prop where
  completion : x.completion = none
  queued : ∀ k, x.queued k = 0
  msgHeader : x.msgHeader = .live
  buffer : x.buffer = .live
  rspPayload : x.rspPayload = .unborn

/-- The socket is done with the request, or never had it. -/
structure Done (x : SapLife) : Prop where
  queued : ∀ k, x.queued k = 0
  msgHeader : Over x.msgHeader
  record : Over x.record
  rspPayload : Over x.rspPayload

/-- The completion is out of the queue. -/
structure Dequeued (x : SapLife) : Prop where
  queued : ∀ k, x.queued k = 0
  msgHeader : x.msgHeader = .live
  record : x.record = .gone
  rspPayload : Over x.rspPayload

/-- What is so at each point of a completion. -/
def CompletingAt (x : SapLife) (n : Nat) : Option SapCompletion → Prop
  | none => (∃ k, x.Pending n k) ∧ x.rspPayload = .unborn ∨ x.Done
  | some .handed => (∃ k, x.Pending n k) ∧ x.rspPayload = .unborn
  | some (.dequeue k hdr) => hdr = n ∧ x.Pending n k ∧ Over x.rspPayload
  | some (.freeHdr hdr) => hdr = n ∧ x.Dequeued

def Completing (x : SapLife) (n : Nat) : Prop := x.CompletingAt n x.completion

/-- What is so at each point of a call. -/
def StageAt (x : SapLife) (n : Nat) : Option SapCall → Prop
  | some ⟨_, .addPayload⟩ => x.Early ∧ x.payload = .unborn ∧ x.record = .unborn
  | some ⟨_, .dispatch⟩ =>
    x.Early ∧ x.hdr.payload = some n ∧ x.payload = .live ∧ x.record = .unborn
  | some ⟨k, .enqueue⟩ =>
    x.Early ∧ x.hdr.payload = some n ∧ x.payload = .live ∧ x.record = .live ∧
      x.request = ⟨x.hdr.token, n, k⟩
  | some ⟨k, .onRequest⟩ =>
    x.completion = none ∧ x.Pending n k ∧ x.rspPayload = .unborn ∧ x.buffer = .live ∧
      x.hdr.payload = some n ∧ x.payload = .live
  | some ⟨_, .freePayload⟩ =>
    x.Completing n ∧ x.msgHeader = .live ∧ x.buffer = .live ∧ x.hdr.payload = some n ∧
      x.payload = .live
  | some ⟨_, .freeBuffer⟩ => x.Completing n ∧ x.buffer = .live ∧ Over x.payload
  | none => x.Completing n ∧ Over x.buffer ∧ Over x.payload

def Stage (x : SapLife) (n : Nat) : Prop := x.StageAt n x.call

variable {x x' : SapLife} {n k : Nat}

theorem Completing.congr (h : x.Completing n)
    (hlife : x'.completion = x.completion ∧ x'.hdr = x.hdr ∧ x'.request = x.request ∧
      x'.queued = x.queued)
    (hblocks : x'.msgHeader = x.msgHeader ∧ x'.record = x.record ∧ x'.rspPayload = x.rspPayload) :
    x'.Completing n := by
  obtain ⟨hcompletion, hhdr, hrequest, hqueued⟩ := hlife
  obtain ⟨hmsgHeader, hrecord, hrsp⟩ := hblocks
  have hpending : ∀ k, x.Pending n k → x'.Pending n k := fun k hp =>
    ⟨hqueued ▸ hp.here, hqueued ▸ hp.only, by rw [hrequest, hhdr, hp.request],
      hmsgHeader.trans hp.msgHeader, hrecord.trans hp.record⟩
  unfold Completing at h ⊢
  rw [hcompletion]
  rcases hc : x.completion with _ | (_ | ⟨k, hdr⟩ | hdr) <;> rw [hc] at h
  · refine h.imp (fun hw => ⟨hw.1.imp hpending, hrsp.trans hw.2⟩) fun hdone => ?_
    exact ⟨hqueued ▸ hdone.queued, hmsgHeader ▸ hdone.msgHeader, hrecord ▸ hdone.record,
      hrsp ▸ hdone.rspPayload⟩
  · exact ⟨h.1.imp hpending, hrsp.trans h.2⟩
  · exact ⟨h.1, hpending k h.2.1, hrsp ▸ h.2.2⟩
  · exact ⟨h.1, hqueued ▸ h.2.queued, hmsgHeader.trans h.2.msgHeader, hrecord.trans h.2.record,
      hrsp ▸ h.2.rspPayload⟩

theorem Stage.completing (h : x.Stage n) (hcompletion : x.completion ≠ none) : x.Completing n := by
  unfold Stage StageAt at h
  split at h
  · exact absurd h.1.completion hcompletion
  · exact absurd h.1.completion hcompletion
  · exact absurd h.1.completion hcompletion
  · exact absurd h.1 hcompletion
  · exact h.1
  · exact h.1
  · exact h.1

theorem Stage.go_on (h : x.Stage n) (hcompletion : x.completion ≠ none)
    (hsame : x'.call = x.call ∧ x'.hdr = x.hdr ∧ x'.buffer = x.buffer ∧ x'.payload = x.payload)
    (hlive : ∀ k, x.call = some ⟨k, .freePayload⟩ → x'.msgHeader = .live)
    (hcompleting : x'.Completing n) : x'.Stage n := by
  obtain ⟨hcall, hhdr, hbuffer, hpayload⟩ := hsame
  unfold Stage at h ⊢
  unfold StageAt at ⊢
  rw [hcall, hhdr, hbuffer, hpayload]
  split
  · next hc => rw [hc] at h; exact absurd h.1.completion hcompletion
  · next hc => rw [hc] at h; exact absurd h.1.completion hcompletion
  · next hc => rw [hc] at h; exact absurd h.1.completion hcompletion
  · next hc => rw [hc] at h; exact absurd h.1 hcompletion
  · next k hc =>
    rw [hc] at h
    exact ⟨hcompleting, hlive k hc, h.2.2.1, h.2.2.2⟩
  · next hc =>
    rw [hc] at h
    exact ⟨hcompleting, h.2⟩
  · next hc =>
    rw [hc] at h
    exact ⟨hcompleting, h.2⟩

theorem Completing.pending (h : x.Completing n) (hqueued : x.queued k ≠ 0) : x.Pending n k := by
  have hwhere : ∀ k', x.Pending n k' → x.Pending n k := by
    intro k' hp
    by_cases hk : k = k'
    · exact hk ▸ hp
    · exact absurd (hp.only k hk) hqueued
  unfold Completing CompletingAt at h
  split at h
  · rcases h with ⟨⟨k', hp⟩, -⟩ | hdone
    · exact hwhere k' hp
    · exact absurd (hdone.queued k) hqueued
  · obtain ⟨⟨k', hp⟩, -⟩ := h
    exact hwhere k' hp
  · exact hwhere _ h.2.1
  · exact absurd (h.2.queued k) hqueued

theorem Stage.pending (h : x.Stage n) (hqueued : x.queued k ≠ 0) : x.Pending n k := by
  unfold Stage StageAt at h
  split at h
  · exact absurd (h.1.queued k) hqueued
  · exact absurd (h.1.queued k) hqueued
  · exact absurd (h.1.queued k) hqueued
  · next k' _ =>
    by_cases hk : k = k'
    · exact hk ▸ h.2.1
    · exact absurd (h.2.1.only k hk) hqueued
  · exact h.1.pending hqueued
  · exact h.1.pending hqueued
  · exact h.1.pending hqueued

end SapLife

namespace RilSap

variable {s s' : RilSap} {n m k : Nat} {oom : Bool}

/-- What is asked of a step. The record of a request is allocated. A completion looks for its record
    in the queue when there is no newer one in front of it with the same message id and token. And it
    frees the header when the call has freed the payload. -/
def Clean (s : RilSap) (e : SapEvent) : Prop :=
  match e with
  | .callStep n oom => ∀ k, s.calls n = some ⟨k, .dispatch⟩ → s.sockets k ≠ none → oom = false
  | .completeStep n _ =>
    (∀ k hdr, s.completions n = some (.dequeue k hdr) →
      ∀ newer ∈ (s.pendingResponseQueue k).takeWhile (· ≠ n),
        ¬ s.Matches (s.header hdr).id (s.header hdr).token newer) ∧
    ∀ hdr, s.completions n = some (.freeHdr hdr) → ∀ k pc, s.calls n = some ⟨k, pc⟩ →
      pc = .freeBuffer
  | _ => True

/-- Who will free the block: the call, or the completion, for which the record waits in a queue. -/
def Held (s : RilSap) : SapBlock → Prop
  | .msgHeader n => (∃ k pc, s.calls n = some ⟨k, pc⟩ ∧ (pc = .addPayload ∨ pc = .dispatch ∨
      pc = .enqueue)) ∨ (∃ k, n ∈ s.pendingResponseQueue k) ∨ s.completions n = some (.freeHdr n)
  | .buffer n => s.calls n ≠ none
  | .payload n => ∃ k pc, s.calls n = some ⟨k, pc⟩ ∧ pc ≠ .addPayload ∧ pc ≠ .freeBuffer
  | .record n => (∃ k, s.calls n = some ⟨k, .enqueue⟩) ∨ ∃ k, n ∈ s.pendingResponseQueue k
  | .rspPayload _ => False

def life (s : RilSap) (n : Nat) : SapLife where
  call := s.calls n
  completion := s.completions n
  hdr := s.header n
  request := s.record n
  queued := fun k => (s.pendingResponseQueue k).count n
  msgHeader := s.blocks.state (.msgHeader n)
  buffer := s.blocks.state (.buffer n)
  payload := s.blocks.state (.payload n)
  record := s.blocks.state (.record n)
  rspPayload := s.blocks.state (.rspPayload n)

structure Lifecycles (s : RilSap) : Prop where
  stage : ∀ n, (s.life n).Stage n
  fresh : ∀ n, s.next ≤ n → (s.life n).call = none ∧ (s.life n).completion = none ∧
    ∀ o : SapBlock, o.request = n → s.blocks.state o = .unborn
  sockets : ∀ k n, n ∈ s.pendingResponseQueue k ∨ s.calls n = some ⟨k, .enqueue⟩ → s.sockets k ≠ none
  misused : s.blocks.misused = []
  own : ∀ x ∈ s.completed, x.2 = some x.1

/-- The request is left alone. -/
structure SameAt (s s' : RilSap) (m : Nat) : Prop where
  calls : s'.calls m = s.calls m
  completions : s'.completions m = s.completions m
  header : s'.header m = s.header m
  record : s'.record m = s.record m
  queue : ∀ k, (s'.pendingResponseQueue k).count m = (s.pendingResponseQueue k).count m
  blocks : ∀ o : SapBlock, o.request = m → s'.blocks.state o = s.blocks.state o

theorem SameAt.life (h : SameAt s s' m) : s'.life m = s.life m := by
  rw [RilSap.life, RilSap.life, h.calls, h.completions, h.header, h.record,
    h.blocks (.msgHeader m) rfl, h.blocks (.buffer m) rfl, h.blocks (.payload m) rfl,
    h.blocks (.record m) rfl, h.blocks (.rspPayload m) rfl, funext h.queue]

theorem Lifecycles.touch (h : s.Lifecycles) (n : Nat) (hnext : s.next ≤ s'.next) (hn : n < s'.next)
    (hother : ∀ m ≠ n, SameAt s s' m) (hsockets : s'.sockets = s.sockets)
    (hsocket : ∀ k, n ∈ s'.pendingResponseQueue k ∨ s'.calls n = some ⟨k, .enqueue⟩ →
      s.sockets k ≠ none)
    (hmisused : s'.blocks.misused = s.blocks.misused)
    (hown : ∀ x ∈ s'.completed, x ∈ s.completed ∨ x.2 = some x.1)
    (hstage : (s'.life n).Stage n) : s'.Lifecycles := by
  refine ⟨fun m => ?_, fun m hm => ?_, fun k m hm => ?_, hmisused.trans h.misused, fun x hx => ?_⟩
  · by_cases hmn : m = n
    · rw [hmn]
      exact hstage
    · rw [(hother m hmn).life]
      exact h.stage m
  · have hmn : m ≠ n := fun hc => Nat.not_le_of_lt hn (hc ▸ hm)
    obtain ⟨hcall, hcompletion, hblocks⟩ := h.fresh m (Nat.le_trans hnext hm)
    rw [(hother m hmn).life]
    exact ⟨hcall, hcompletion, fun o ho => ((hother m hmn).blocks o ho).trans (hblocks o ho)⟩
  · rw [hsockets]
    by_cases hmn : m = n
    · subst hmn
      exact hsocket k hm
    · refine h.sockets k m (hm.imp (fun hq => ?_) fun hc => (hother m hmn).calls.symm.trans hc)
      rw [← List.count_pos_iff, ← (hother m hmn).queue k]
      exact List.count_pos_iff.2 hq
  · exact (hown x hx).elim (h.own x) id

theorem Lifecycles.lt_of_call (h : s.Lifecycles) {call : SapCall} (hcall : s.calls n = some call) :
    n < s.next := by
  refine Nat.lt_of_not_le fun hle => ?_
  cases (h.fresh n hle).1.symm.trans hcall

theorem Lifecycles.lt_of_completion (h : s.Lifecycles) {completion : SapCompletion}
    (hcompletion : s.completions n = some completion) : n < s.next := by
  refine Nat.lt_of_not_le fun hle => ?_
  cases (h.fresh n hle).2.1.symm.trans hcompletion

theorem SameAt.of_blocks {b b' : Blocks SapBlock} (hm : m ≠ n)
    (h : Blocks.SameOff (fun o : SapBlock => o.request = n) b b') (o : SapBlock)
    (ho : o.request = m) : b'.state o = b.state o :=
  h o fun hc => hm (ho.symm.trans hc)

theorem Lifecycles.stage_of_call (h : s.Lifecycles) {call : Option SapCall}
    (hcall : s.calls n = call) : (s.life n).StageAt n call :=
  hcall ▸ h.stage n

theorem stage_intro {call : Option SapCall} (hcall : s.calls n = call)
    (hstage : (s.life n).StageAt n call) : (s.life n).Stage n := by
  rw [← hcall] at hstage
  exact hstage

theorem completing_intro {completion : Option SapCompletion}
    (hcompletion : s.completions n = completion)
    (hcompleting : (s.life n).CompletingAt n completion) : (s.life n).Completing n := by
  rw [← hcompletion] at hcompleting
  exact hcompleting

theorem completing_elim {completion : Option SapCompletion}
    (hcompletion : s.completions n = completion) (hcompleting : (s.life n).Completing n) :
    (s.life n).CompletingAt n completion :=
  hcompletion ▸ hcompleting

/-! ## The calls -/

section

variable (h : s.Lifecycles)
include h

theorem Lifecycles.addSocketToList (k : Nat) (uimFuncs : Bool) :
    (s.addSocketToList k uimFuncs).Lifecycles := by
  unfold RilSap.addSocketToList
  split
  · refine ⟨h.stage, h.fresh, fun k' n hn => ?_, h.misused, h.own⟩
    show update s.sockets k (some uimFuncs) k' ≠ none
    by_cases hk : k' = k
    · rw [hk, update_self]
      exact nofun
    · rw [update_of_ne hk]
      exact h.sockets k' n hn
  · exact h

/-- The call is over before the socket has the request. -/
theorem Lifecycles.request (k : Nat) (id : MsgId) (token : Int)
    (encoding : SapEncoding) : (s.request k id token encoding).Lifecycles := by
  obtain ⟨hcall, hcompletion, hunborn⟩ := h.fresh s.next (Nat.le_refl _)
  obtain ⟨hcompleting, -, -⟩ := h.stage_of_call hcall
  have hqueued : ∀ k, (s.life s.next).queued k = 0 := by
    rcases completing_elim hcompletion hcompleting with ⟨⟨k', hpending⟩, -⟩ | hdone
    · cases hpending.msgHeader.symm.trans (hunborn (.msgHeader s.next) rfl)
    · exact hdone.queued
  have hnot : ∀ k', s.next ∉ s.pendingResponseQueue k' := fun k' => List.count_eq_zero.1 (hqueued k')
  have hheader := hunborn (.msgHeader s.next) rfl
  have hbuffer := hunborn (.buffer s.next) rfl
  have hpayload := hunborn (.payload s.next) rfl
  have hrecord := hunborn (.record s.next) rfl
  have hrsp := hunborn (.rspPayload s.next) rfl
  have hover : ∀ s' : RilSap, s'.calls s.next = none → s'.completions s.next = none →
      (∀ k, (s'.life s.next).queued k = 0) →
      (∀ o : SapBlock, o.request = s.next → Over (s'.blocks.state o)) → (s'.life s.next).Stage s.next := by
    intro s' hcall' hcompletion' hqueued' hblocks
    refine stage_intro hcall' ⟨completing_intro hcompletion' (.inr ⟨hqueued', ?_, ?_, ?_⟩), ?_, ?_⟩
    · exact hblocks (.msgHeader s.next) rfl
    · exact hblocks (.record s.next) rfl
    · exact hblocks (.rspPayload s.next) rfl
    · exact hblocks (.buffer s.next) rfl
    · exact hblocks (.payload s.next) rfl
  have hsocket : ∀ k', s.next ∈ s.pendingResponseQueue k' ∨ s.calls s.next = some ⟨k', .enqueue⟩ →
      s.sockets k' ≠ none := fun k' hk =>
    (hk.elim (hnot k') fun hc => nomatch hcall.symm.trans hc).elim
  cases encoding with
  | noHeader =>
    refine h.touch s.next (Nat.le_succ _) (Nat.lt_succ_self _) (fun m hm => ⟨rfl, rfl, rfl, rfl,
      fun _ => rfl, fun _ _ => rfl⟩) rfl hsocket rfl (fun _ hx => .inl hx)
      (hover _ hcall hcompletion hqueued fun o ho => .inl (hunborn o ho))
  | noBuffer =>
    refine h.touch s.next (Nat.le_succ _) (Nat.lt_succ_self _) (fun m hm => ⟨rfl, rfl,
      update_of_ne hm .., rfl, fun _ => rfl, SameAt.of_blocks hm
        (((Blocks.SameOff.refl _ _).alloc (by rfl)).free (by rfl))⟩) rfl hsocket rfl
      (fun _ hx => .inl hx) (hover _ hcall hcompletion hqueued fun o ho => ?_)
    show Over (((s.blocks.alloc (.msgHeader s.next)).free (.msgHeader s.next)).state o)
    by_cases heq : o = .msgHeader s.next
    · subst heq
      exact .inr (Blocks.state_free (Blocks.state_alloc hheader))
    · refine .inl ?_
      rw [Blocks.state_free_of_ne heq, Blocks.state_alloc_of_ne heq]
      exact hunborn o ho
  | notEncoded =>
    refine h.touch s.next (Nat.le_succ _) (Nat.lt_succ_self _) (fun m hm => ⟨rfl, rfl,
      update_of_ne hm .., rfl, fun _ => rfl, SameAt.of_blocks hm
        (((((Blocks.SameOff.refl _ _).alloc (by rfl)).alloc (by rfl)).free (by rfl)).free (by rfl))⟩)
      rfl hsocket rfl (fun _ hx => .inl hx) (hover _ hcall hcompletion hqueued fun o ho => ?_)
    show Over (((((s.blocks.alloc (.msgHeader s.next)).alloc (.buffer s.next)).free
      (.buffer s.next)).free (.msgHeader s.next)).state o)
    by_cases heq : o = .msgHeader s.next
    · subst heq
      refine .inr (Blocks.state_free ?_)
      rw [Blocks.state_free_of_ne (by simp), Blocks.state_alloc_of_ne (by simp)]
      exact Blocks.state_alloc hheader
    · rw [Blocks.state_free_of_ne heq]
      by_cases heq' : o = .buffer s.next
      · subst heq'
        refine .inr (Blocks.state_free (Blocks.state_alloc ?_))
        rw [Blocks.state_alloc_of_ne (by simp)]
        exact hbuffer
      · rw [Blocks.state_free_of_ne heq', Blocks.state_alloc_of_ne heq', Blocks.state_alloc_of_ne heq]
        exact .inl (hunborn o ho)
  | encoded =>
    refine h.touch s.next (Nat.le_succ _) (Nat.lt_succ_self _) (fun m hm =>
      ⟨update_of_ne hm .., rfl, update_of_ne hm .., rfl, fun _ => rfl,
        SameAt.of_blocks hm (((Blocks.SameOff.refl _ _).alloc (by rfl)).alloc (by rfl))⟩) rfl
      (fun k' hk => ?_) rfl (fun _ hx => .inl hx) ?_
    · rcases hk with hk | hk
      · exact absurd hk (hnot k')
      · cases (update_self ..).symm.trans hk
    · refine stage_intro (update_self ..) ⟨⟨hcompletion, hqueued, ?_, ?_, ?_⟩, ?_, ?_⟩
      · show ((s.blocks.alloc (.msgHeader s.next)).alloc (.buffer s.next)).state (.msgHeader s.next) = _
        rw [Blocks.state_alloc_of_ne (by simp)]
        exact Blocks.state_alloc hheader
      · exact Blocks.state_alloc (by simpa using hbuffer)
      · show ((s.blocks.alloc (.msgHeader s.next)).alloc (.buffer s.next)).state (.rspPayload s.next) = _
        simpa using hrsp
      · show ((s.blocks.alloc (.msgHeader s.next)).alloc (.buffer s.next)).state (.payload s.next) = _
        simpa using hpayload
      · show ((s.blocks.alloc (.msgHeader s.next)).alloc (.buffer s.next)).state (.record s.next) = _
        simpa using hrecord

theorem Lifecycles.addPayload (hcall : s.calls n = some ⟨k, .addPayload⟩)
    (oom : Bool) : (s.addPayload n k oom).Lifecycles := by
  obtain ⟨hearly, hpayload, hrecord⟩ := h.stage_of_call hcall
  have hheader : s.blocks.state (.msgHeader n) = .live := hearly.msgHeader
  have hbuffer : s.blocks.state (.buffer n) = .live := hearly.buffer
  have hrsp : s.blocks.state (.rspPayload n) = .unborn := hearly.rspPayload
  change s.blocks.state (.payload n) = .unborn at hpayload
  change s.blocks.state (.record n) = .unborn at hrecord
  have hnot : ∀ k', n ∉ s.pendingResponseQueue k' := fun k' => List.count_eq_zero.1 (hearly.queued k')
  have hmisused : (s.blocks.use [.msgHeader n]).misused = s.blocks.misused :=
    Blocks.misused_use (by simpa using hheader)
  unfold RilSap.addPayload
  simp only
  split
  · refine h.touch n (Nat.le_refl _) (h.lt_of_call hcall) (fun m hm => ⟨update_of_ne hm ..,
      rfl, rfl, rfl, fun _ => rfl, SameAt.of_blocks hm
        ((((Blocks.SameOff.refl _ _).use _).free (by rfl)).free (by rfl))⟩)
      rfl (fun k' hk => ?_) hmisused (fun _ hx => .inl hx)
      (stage_intro (update_self ..) ⟨completing_intro hearly.completion
        (.inr ⟨hearly.queued, .inr ?_, .inl ?_, .inl ?_⟩), .inr ?_, .inl ?_⟩)
    · rcases hk with hk | hk
      · exact absurd hk (hnot k')
      · cases (update_self ..).symm.trans hk
    · exact Blocks.state_free (by simpa [inBlocks] using hheader)
    · simpa [life, inBlocks, setCall] using hrecord
    · simpa [life, inBlocks, setCall] using hrsp
    · refine (Blocks.state_free_of_ne (by simp)).trans (Blocks.state_free ?_)
      exact hbuffer
    · simpa [life, inBlocks, setCall] using hpayload
  · refine h.touch n (Nat.le_refl _) (h.lt_of_call hcall) (fun m hm => ⟨update_of_ne hm ..,
      rfl, update_of_ne hm .., rfl, fun _ => rfl, SameAt.of_blocks hm
        (((Blocks.SameOff.refl _ _).use _).alloc (by rfl))⟩)
      rfl (fun k' hk => ?_) hmisused (fun _ hx => .inl hx)
      (stage_intro (update_self ..) ⟨⟨hearly.completion, hearly.queued, ?_, ?_, ?_⟩, ?_, ?_, ?_⟩)
    · rcases hk with hk | hk
      · exact absurd hk (hnot k')
      · cases (update_self ..).symm.trans hk
    · simpa [life, inBlocks, setCall] using hheader
    · simpa [life, inBlocks, setCall] using hbuffer
    · simpa [life, inBlocks, setCall] using hrsp
    · simp [life]
    · exact Blocks.state_alloc hpayload
    · simpa [life, inBlocks, setCall] using hrecord

theorem Lifecycles.dispatch (hcall : s.calls n = some ⟨k, .dispatch⟩)
    (hoom : s.sockets k ≠ none → oom = false) : (s.dispatch n k oom).Lifecycles := by
  obtain ⟨hearly, hptr, hpayload, hrecord⟩ := h.stage_of_call hcall
  have hheader : s.blocks.state (.msgHeader n) = .live := hearly.msgHeader
  have hbuffer : s.blocks.state (.buffer n) = .live := hearly.buffer
  have hrsp : s.blocks.state (.rspPayload n) = .unborn := hearly.rspPayload
  change s.blocks.state (.payload n) = .live at hpayload
  change s.blocks.state (.record n) = .unborn at hrecord
  have hnot : ∀ k', n ∉ s.pendingResponseQueue k' := fun k' => List.count_eq_zero.1 (hearly.queued k')
  have hmisused : (s.blocks.use [.msgHeader n]).misused = s.blocks.misused :=
    Blocks.misused_use (by simpa using hheader)
  unfold RilSap.dispatch
  simp only
  split
  · refine h.touch n (Nat.le_refl _) (h.lt_of_call hcall) (fun m hm => ⟨update_of_ne hm ..,
      rfl, rfl, rfl, fun _ => rfl, SameAt.of_blocks hm
        (((((Blocks.SameOff.refl _ _).use _).free (by rfl)).free (by rfl)).free (by rfl))⟩)
      rfl (fun k' hk => ?_) hmisused (fun _ hx => .inl hx)
      (stage_intro (update_self ..) ⟨completing_intro hearly.completion
        (.inr ⟨hearly.queued, .inr ?_, .inl ?_, .inl ?_⟩), .inr ?_, .inr ?_⟩)
    · rcases hk with hk | hk
      · exact absurd hk (hnot k')
      · cases (update_self ..).symm.trans hk
    · exact Blocks.state_free (by simpa [inBlocks] using hheader)
    · simpa [life, inBlocks, setCall] using hrecord
    · simpa [life, inBlocks, setCall] using hrsp
    · refine (Blocks.state_free_of_ne (by simp)).trans (Blocks.state_free ?_)
      simpa [inBlocks] using hbuffer
    · refine (Blocks.state_free_of_ne (by simp)).trans
        ((Blocks.state_free_of_ne (by simp)).trans (Blocks.state_free ?_))
      exact hpayload
  · next hsocket =>
    change s.sockets k ≠ none at hsocket
    rw [if_neg (by rw [hoom hsocket]; exact Bool.false_ne_true)]
    refine h.touch n (Nat.le_refl _) (h.lt_of_call hcall) (fun m hm => ⟨update_of_ne hm ..,
      rfl, rfl, update_of_ne hm .., fun _ => rfl, SameAt.of_blocks hm
        (((Blocks.SameOff.refl _ _).use _).alloc (by rfl))⟩)
      rfl (fun k' hk => ?_) hmisused (fun _ hx => .inl hx)
      (stage_intro (update_self ..)
        ⟨⟨hearly.completion, hearly.queued, ?_, ?_, ?_⟩, hptr, ?_, ?_, update_self ..⟩)
    · rcases hk with hk | hk
      · exact absurd hk (hnot k')
      · change update s.calls n _ n = _ at hk
        rw [update_self] at hk
        obtain ⟨rfl, -⟩ := SapCall.mk.inj (Option.some.inj hk)
        exact hsocket
    · simpa [life, inBlocks, setCall] using hheader
    · simpa [life, inBlocks, setCall] using hbuffer
    · simpa [life, inBlocks, setCall] using hrsp
    · simpa [life, inBlocks, setCall] using hpayload
    · exact Blocks.state_alloc hrecord

theorem Lifecycles.enqueue (hcall : s.calls n = some ⟨k, .enqueue⟩) :
    (s.enqueue n k).Lifecycles := by
  obtain ⟨hearly, hptr, hpayload, hrecord, hrequest⟩ := h.stage_of_call hcall
  have hqueued : ∀ k', (s.pendingResponseQueue k').count n = 0 := hearly.queued
  change s.blocks.state (.record n) = .live at hrecord
  have hsocket := h.sockets k n (.inr hcall)
  set queue := update s.pendingResponseQueue k (n :: s.pendingResponseQueue k) with hqueue
  have hself : queue k = n :: s.pendingResponseQueue k := update_self ..
  have hother : ∀ k' ≠ k, queue k' = s.pendingResponseQueue k' := fun k' hk =>
    update_of_ne hk ..
  refine h.touch n (Nat.le_refl _) (h.lt_of_call hcall) (fun m hm => ⟨update_of_ne hm ..,
    rfl, rfl, rfl, fun k' => ?_, fun _ _ => rfl⟩) rfl (fun k' hk => ?_)
    (Blocks.misused_use (by simpa using hrecord)) (fun _ hx => .inl hx)
    (stage_intro (update_self ..) ⟨hearly.completion, ⟨?_, fun k' hk => ?_, hrequest,
      hearly.msgHeader, hrecord⟩, hearly.rspPayload, hearly.buffer, hptr, hpayload⟩)
  · show (queue k').count m = _
    by_cases hk : k' = k
    · rw [hk, hself, List.count_cons_of_ne (Ne.symm hm)]
    · rw [hother k' hk]
  · by_cases hkk : k' = k
    · rw [hkk]
      exact hsocket
    · rcases hk with hk | hk
      · change n ∈ queue k' at hk
        rw [hother k' hkk] at hk
        exact absurd hk (List.count_eq_zero.1 (hqueued k'))
      · change update s.calls n _ n = _ at hk
        rw [update_self] at hk
        obtain ⟨rfl, -⟩ := SapCall.mk.inj (Option.some.inj hk)
        exact hsocket
  · show (queue k).count n = 1
    rw [hself, List.count_cons_self, hqueued k]
  · show (queue k').count n = 0
    rw [hother k' hk, hqueued k']

theorem Lifecycles.onRequest (hcall : s.calls n = some ⟨k, .onRequest⟩) :
    (s.onRequest n k).Lifecycles := by
  obtain ⟨hcompletion, hpending, hrsp, hbuffer, hptr, hpayload⟩ := h.stage_of_call hcall
  have hheader : s.blocks.state (.msgHeader n) = .live := hpending.msgHeader
  change s.blocks.state (.payload n) = .live at hpayload
  change (s.header n).payload = some n at hptr
  change (s.life n).Pending n k at hpending
  have hsocket : ∀ k', n ∈ s.pendingResponseQueue k' ∨
      update s.calls n (some ⟨k, .freePayload⟩) n = some ⟨k', .enqueue⟩ →
        s.sockets k' ≠ none := by
    intro k' hk
    refine h.sockets k' n (hk.imp_right fun hc => ?_)
    rw [update_self] at hc
    cases hc
  unfold RilSap.onRequest
  simp only
  split
  · refine h.touch n (Nat.le_refl _) (h.lt_of_call hcall) (fun m hm => ⟨update_of_ne hm ..,
      update_of_ne hm .., rfl, rfl, fun _ => rfl, fun _ _ => rfl⟩) rfl hsocket
      (Blocks.misused_use fun o ho => ?_) (fun _ hx => .inl hx)
      (stage_intro (update_self ..) ⟨completing_intro (update_self ..)
        ⟨⟨k, hpending.here, hpending.only, hpending.request, hpending.msgHeader, hpending.record⟩,
          hrsp⟩, hheader, hbuffer, hptr, hpayload⟩)
    change o ∈ SapBlock.msgHeader n :: (s.header n).payload.toList.map .payload at ho
    rw [hptr] at ho
    rcases List.mem_cons.1 ho with rfl | ho
    · exact hheader
    · rw [List.mem_singleton.1 ho]
      exact hpayload
  · exact h.touch n (Nat.le_refl _) (h.lt_of_call hcall) (fun m hm => ⟨update_of_ne hm ..,
      rfl, rfl, rfl, fun _ => rfl, fun _ _ => rfl⟩) rfl hsocket rfl (fun _ hx => .inl hx)
      (stage_intro (update_self ..) ⟨completing_intro hcompletion
        (.inl ⟨⟨k, hpending.here, hpending.only, hpending.request, hpending.msgHeader,
          hpending.record⟩, hrsp⟩), hheader, hbuffer, hptr, hpayload⟩)

theorem Lifecycles.callStep (hC : s.Clean (.callStep n oom)) : (s.callStep n oom).Lifecycles := by
  unfold RilSap.callStep
  split
  · exact h
  · next k hcall => exact h.addPayload hcall oom
  · next k hcall => exact h.dispatch hcall (hC k hcall)
  · next k hcall => exact h.enqueue hcall
  · next k hcall => exact h.onRequest hcall
  · next k hcall =>
    obtain ⟨hcompleting, hheader, hbuffer, hptr, hpayload⟩ := h.stage_of_call hcall
    change s.blocks.state (.msgHeader n) = .live at hheader
    change s.blocks.state (.buffer n) = .live at hbuffer
    change s.blocks.state (.payload n) = .live at hpayload
    change (s.header n).payload = some n at hptr
    change (s.life n).Completing n at hcompleting
    rw [hptr]
    refine h.touch n (Nat.le_refl _) (h.lt_of_call hcall) (fun m hm =>
      ⟨update_of_ne hm .., rfl, rfl, rfl, fun _ => rfl, SameAt.of_blocks hm
        (((Blocks.SameOff.refl _ _).use _).free (by rfl))⟩) rfl (fun k' hk => ?_)
      (Blocks.misused_use (by simpa using hheader)) (fun _ hx => .inl hx)
      (stage_intro (update_self ..) ⟨hcompleting.congr ⟨rfl, rfl, rfl, rfl⟩ ⟨?_, ?_, ?_⟩,
        ?_, .inr ?_⟩)
    · refine h.sockets k' n (hk.imp_right fun hc => ?_)
      cases (update_self ..).symm.trans hc
    · simp [life, inBlocks, setCall]
    · simp [life, inBlocks, setCall]
    · simp [life, inBlocks, setCall]
    · simpa [life, inBlocks, setCall] using hbuffer
    · exact Blocks.state_free hpayload
  · next k hcall =>
    obtain ⟨hcompleting, hbuffer, hpayload⟩ := h.stage_of_call hcall
    change (s.life n).Completing n at hcompleting
    refine h.touch n (Nat.le_refl _) (h.lt_of_call hcall) (fun m hm =>
      ⟨update_of_ne hm .., rfl, rfl, rfl, fun _ => rfl, SameAt.of_blocks hm
        ((Blocks.SameOff.refl _ _).free (by rfl))⟩) rfl (fun k' hk => ?_) rfl (fun _ hx => .inl hx)
      (stage_intro (update_self ..) ⟨hcompleting.congr ⟨rfl, rfl, rfl, rfl⟩ ⟨?_, ?_, ?_⟩,
        .inr (Blocks.state_free hbuffer), ?_⟩)
    · refine h.sockets k' n (hk.imp_right fun hc => ?_)
      cases (update_self ..).symm.trans hc
    · simp [life, inBlocks, setCall]
    · simp [life, inBlocks, setCall]
    · simp [life, inBlocks, setCall]
    · simpa [life, inBlocks, setCall, Over] using hpayload

/-! ## The completions -/

theorem Lifecycles.onRequestComplete (hhanded : s.completions n = some .handed) :
    (s.onRequestComplete n oom).Lifecycles := by
  have hne : (s.life n).completion ≠ none := fun hc => nomatch hhanded.symm.trans hc
  have hstage := h.stage n
  obtain ⟨⟨k, hpending⟩, hrsp⟩ := completing_elim hhanded (hstage.completing hne)
  change s.blocks.state (.rspPayload n) = .unborn at hrsp
  have hheader : s.blocks.state (.msgHeader n) = .live := hpending.msgHeader
  have hrecord : s.blocks.state (.record n) = .live := hpending.record
  have hrequest : s.record n = ⟨(s.header n).token, n, k⟩ := hpending.request
  have hmem : n ∈ s.pendingResponseQueue k := by
    refine List.count_pos_iff.1 ?_
    rw [show (s.pendingResponseQueue k).count n = 1 from hpending.here]
    exact Nat.one_pos
  have hsocket := h.sockets k n (.inl hmem)
  have hlt := h.lt_of_completion hhanded
  have hmisused : ((s.blocks.use [.record n]).use [.msgHeader n]).misused = s.blocks.misused := by
    rw [Blocks.misused_use (by simpa using hheader), Blocks.misused_use (by simpa using hrecord)]
  have hgo : ∀ s' : RilSap, s'.completions n = some (.dequeue k n) → (s'.life n).Pending n k →
      Over (s'.life n).rspPayload →
      (s'.life n).call = (s.life n).call ∧ (s'.life n).hdr = (s.life n).hdr ∧
        (s'.life n).buffer = (s.life n).buffer ∧ (s'.life n).payload = (s.life n).payload →
      (s'.life n).Stage n := by
    intro s' hcompletion hpending' hover hsame
    exact hstage.go_on hne hsame (fun _ _ => hpending'.msgHeader)
      (completing_intro hcompletion ⟨rfl, ⟨hpending'.here, hpending'.only, hpending'.request,
        hpending'.msgHeader, hpending'.record⟩, hover⟩)
  unfold RilSap.onRequestComplete
  simp only [hrequest]
  split
  · next hnone => exact absurd hnone hsocket
  cases oom with
  | true =>
    exact h.touch n (Nat.le_refl _) hlt (fun m hm => ⟨rfl, update_of_ne hm .., rfl, rfl,
      fun _ => rfl, fun _ _ => rfl⟩) rfl (fun k' hk => h.sockets k' n hk) hmisused
      (fun _ hx => .inl hx) (hgo _ (update_self ..)
        ⟨hpending.here, hpending.only, hrequest, hheader, hrecord⟩ (.inl hrsp) ⟨rfl, rfl, rfl, rfl⟩)
  | false =>
    refine h.touch n (Nat.le_refl _) hlt (fun m hm => ⟨rfl, update_of_ne hm .., rfl, rfl,
      fun _ => rfl, SameAt.of_blocks hm (((((Blocks.SameOff.refl _ _).use _).use _).alloc
        (by rfl)).use _ |>.free (by rfl))⟩) rfl (fun k' hk => h.sockets k' n hk) ?_
      (fun _ hx => .inl hx) (hgo _ (update_self ..)
        ⟨hpending.here, hpending.only, hrequest, ?_, ?_⟩ (.inr ?_) ⟨rfl, rfl, ?_, ?_⟩)
    · refine Eq.trans (Blocks.misused_use fun o ho => ?_) hmisused
      rw [List.mem_singleton.1 ho]
      exact Blocks.state_alloc hrsp
    · simpa [life, inBlocks, setCompletion] using hheader
    · simpa [life, inBlocks, setCompletion] using hrecord
    · exact Blocks.state_free (Blocks.state_alloc hrsp)
    · simp [life, inBlocks, setCompletion]
    · simp [life, inBlocks, setCompletion]

theorem Lifecycles.visited_live (id : MsgId) (token : Int) (l : List Nat)
    (hl : ∀ x ∈ l, x ∈ s.pendingResponseQueue k) :
    ∀ o ∈ s.visited id token l, s.blocks.state o = .live := by
  induction l with
  | nil => exact fun o ho => absurd ho List.not_mem_nil
  | cons x rest ih =>
    have hpending : (s.life x).Pending x k := (h.stage x).pending
      (Nat.ne_of_gt (List.count_pos_iff.2 (hl x (List.mem_cons_self ..))))
    have hrequest : s.record x = ⟨(s.header x).token, x, k⟩ := hpending.request
    intro o ho
    rw [visited] at ho
    rcases List.mem_cons.1 ho with rfl | ho
    · exact hpending.record
    rcases List.mem_append.1 ho with ho | ho
    · split at ho
      · rw [List.mem_singleton.1 ho, hrequest]
        exact hpending.msgHeader
      · cases ho
    · split at ho
      · cases ho
      · exact ih (fun y hy => hl y (List.mem_cons_of_mem _ hy)) o ho

end

theorem visited_inBlocks (f : Blocks SapBlock → Blocks SapBlock) (id : MsgId) (token : Int)
    (l : List Nat) : (s.inBlocks f).visited id token l = s.visited id token l := by
  induction l with
  | nil => rfl
  | cons x rest ih =>
    rw [visited, ih]
    rfl

theorem find?_of_first {p : Nat → Bool} {l : List Nat} (hn : n ∈ l) (hp : p n = true)
    (hfirst : ∀ x ∈ l.takeWhile (· ≠ n), p x = false) :
    l.find? p = some n ∧ l.eraseP p = l.erase n := by
  induction l with
  | nil => cases hn
  | cons a l ih =>
    by_cases ha : a = n
    · subst ha
      rw [List.find?_cons_of_pos hp, List.eraseP_cons_of_pos hp, List.erase_cons_head]
      exact ⟨rfl, rfl⟩
    · rw [List.takeWhile_cons_of_pos (by simpa using ha)] at hfirst
      have hpa : ¬ p a = true := by
        rw [hfirst a (List.mem_cons_self ..)]
        exact Bool.false_ne_true
      obtain ⟨hfind, herase⟩ := ih (List.mem_of_ne_of_mem (Ne.symm ha) hn) fun x hx =>
        hfirst x (List.mem_cons_of_mem _ hx)
      rw [List.find?_cons_of_neg hpa, List.eraseP_cons_of_neg hpa, herase,
        List.erase_cons_tail (by simpa using ha)]
      exact ⟨hfind, rfl⟩

theorem Lifecycles.dequeue (h : s.Lifecycles) {hdr : Nat}
    (hdequeue : s.completions n = some (.dequeue k hdr))
    (hfirst : ∀ newer ∈ (s.pendingResponseQueue k).takeWhile (· ≠ n),
      ¬ s.Matches (s.header hdr).id (s.header hdr).token newer) :
    (s.completeStep n oom).Lifecycles := by
  have hne : (s.life n).completion ≠ none := fun hc => nomatch hdequeue.symm.trans hc
  have hstage := h.stage n
  obtain ⟨rfl, hpending, hover⟩ := completing_elim hdequeue (hstage.completing hne)
  have hheader : s.blocks.state (.msgHeader hdr) = .live := hpending.msgHeader
  have hrecord : s.blocks.state (.record hdr) = .live := hpending.record
  have hrequest : s.record hdr = ⟨(s.header hdr).token, hdr, k⟩ := hpending.request
  have hcount : (s.pendingResponseQueue k).count hdr = 1 := hpending.here
  have hmem : hdr ∈ s.pendingResponseQueue k := by
    refine List.count_pos_iff.1 ?_
    rw [hcount]
    exact Nat.one_pos
  have hown : s.Matches (s.header hdr).id (s.header hdr).token hdr := by
    rw [Matches, hrequest]
    exact ⟨rfl, rfl⟩
  set p : Nat → Bool := fun x => decide (s.Matches (s.header hdr).id (s.header hdr).token x)
  obtain ⟨hfind, herase⟩ : (s.pendingResponseQueue k).find? p = some hdr ∧
      (s.pendingResponseQueue k).eraseP p = (s.pendingResponseQueue k).erase hdr :=
    find?_of_first hmem (decide_eq_true hown) fun x hx => decide_eq_false (hfirst x hx)
  set b := (s.blocks.use [.msgHeader hdr]).use
    (s.visited (s.header hdr).id (s.header hdr).token (s.pendingResponseQueue k)) with hb
  have hvisited : b.misused = s.blocks.misused :=
    calc
      b.misused = (s.blocks.use [.msgHeader hdr]).misused :=
        Blocks.misused_use (h.visited_live _ _ _ fun x hx => hx)
      _ = s.blocks.misused := Blocks.misused_use (by simpa using hheader)
  set queue := update s.pendingResponseQueue k ((s.pendingResponseQueue k).erase hdr)
    with hqueue
  have hself : queue k = (s.pendingResponseQueue k).erase hdr := update_self ..
  have hother : ∀ k' ≠ k, queue k' = s.pendingResponseQueue k' := fun k' hk =>
    update_of_ne hk ..
  have hstep : s.completeStep hdr oom =
      { s.setCompletion hdr (some (.freeHdr hdr)) with
        pendingResponseQueue := queue
        blocks := b.free (.record hdr)
        completed := s.completed ++ [(hdr, some hdr)] } := by
    have hcheck : (s.inBlocks fun b => b.use [.msgHeader hdr]).checkAndDequeue k (s.header hdr).id
        (s.header hdr).token =
          ({ s with pendingResponseQueue := queue, blocks := b.free (.record hdr) }, some hdr) := by
      unfold checkAndDequeue
      simp only
      rw [visited_inBlocks]
      show (({ s with
        pendingResponseQueue := update s.pendingResponseQueue k
          ((s.pendingResponseQueue k).eraseP p)
        blocks := b.freePtr (((s.pendingResponseQueue k).find? p).map .record) } : RilSap),
          (s.pendingResponseQueue k).find? p) = _
      rw [hfind, herase]
      rfl
    unfold RilSap.completeStep
    rw [hdequeue]
    show (fun r : RilSap × Option Nat => { r.1.setCompletion hdr (some (.freeHdr hdr)) with
      completed := r.1.completed ++ [(hdr, r.2)] }) ((s.inBlocks fun b =>
        b.use [.msgHeader hdr]).checkAndDequeue k (s.header hdr).id (s.header hdr).token) = _
    rw [hcheck]
    rfl
  rw [hstep]
  have hqueued : ∀ k', (queue k').count hdr = 0 := by
    intro k'
    by_cases hk : k' = k
    · rw [hk, hself, List.count_erase_self, hcount]
    · rw [hother k' hk]
      exact hpending.only k' hk
  refine h.touch hdr (Nat.le_refl _) (h.lt_of_completion hdequeue) (fun m hm => ⟨rfl,
    update_of_ne hm .., rfl, rfl, fun k' => ?_, SameAt.of_blocks hm
      ((((Blocks.SameOff.refl _ _).use _).use _).free (by rfl))⟩) rfl (fun k' hk => ?_)
    hvisited (fun x hx => ?_) (hstage.go_on hne ⟨rfl, rfl, ?_, ?_⟩ (fun _ _ => ?_)
      (completing_intro (update_self ..) ⟨rfl, hqueued, ?_, Blocks.state_free hrecord, ?_⟩))
  · show (queue k').count m = _
    by_cases hk : k' = k
    · rw [hk, hself, List.count_erase_of_ne (by simpa using hm)]
    · rw [hother k' hk]
  · refine h.sockets k' hdr (hk.imp_left fun hq => ?_)
    exact absurd hq (List.count_eq_zero.1 (hqueued k'))
  · refine (List.mem_append.1 hx).imp_right fun hx => ?_
    rw [List.mem_singleton.1 hx]
  · exact Blocks.state_free_of_ne (by simp)
  · exact Blocks.state_free_of_ne (by simp)
  · exact (Blocks.state_free_of_ne (by simp)).trans hheader
  · exact (Blocks.state_free_of_ne (by simp)).trans hheader
  · simpa [life, hb] using hover

theorem Lifecycles.completeStep (h : s.Lifecycles) (hC : s.Clean (.completeStep n oom)) :
    (s.completeStep n oom).Lifecycles := by
  cases hcompletion : s.completions n with
  | none =>
    unfold RilSap.completeStep
    rw [hcompletion]
    exact h
  | some completion =>
    cases completion with
    | handed =>
      unfold RilSap.completeStep
      rw [hcompletion]
      exact h.onRequestComplete hcompletion
    | dequeue k hdr => exact h.dequeue hcompletion (hC.1 k hdr hcompletion)
    | freeHdr hdr =>
      have hne : (s.life n).completion ≠ none := fun hc => nomatch hcompletion.symm.trans hc
      have hstage := h.stage n
      obtain ⟨rfl, hdequeued⟩ := completing_elim hcompletion (hstage.completing hne)
      have hrecord : s.blocks.state (.record hdr) = .gone := hdequeued.record
      unfold RilSap.completeStep
      rw [hcompletion]
      refine h.touch hdr (Nat.le_refl _) (h.lt_of_completion hcompletion) (fun m hm => ⟨rfl,
        update_of_ne hm .., rfl, rfl, fun _ => rfl, SameAt.of_blocks hm
          ((Blocks.SameOff.refl _ _).free (by rfl))⟩) rfl (fun k' hk => h.sockets k' hdr hk) rfl
        (fun _ hx => .inl hx) (hstage.go_on hne ⟨rfl, rfl, ?_, ?_⟩ (fun k hcall => ?_)
          (completing_intro (update_self ..) (.inr ⟨hdequeued.queued,
            .inr (Blocks.state_free hdequeued.msgHeader), .inr ?_, ?_⟩)))
      · exact Blocks.state_free_of_ne (by simp)
      · exact Blocks.state_free_of_ne (by simp)
      · cases hC.2 hdr hcompletion k _ hcall
      · exact (Blocks.state_free_of_ne (by simp)).trans hrecord
      · simpa [life, inBlocks, setCompletion] using hdequeued.rspPayload

theorem Lifecycles.advance (h : s.Lifecycles) {e : SapEvent} (hC : s.Clean e) :
    (s.advance e).Lifecycles := by
  cases e with
  | addSocketToList k uimFuncs => exact h.addSocketToList k uimFuncs
  | request k id token encoding => exact h.request k id token encoding
  | callStep n oom => exact h.callStep hC
  | completeStep n oom => exact h.completeStep hC

/-! ## Runs -/

/-- What is asked of the memory and of the queue. A block that was allocated has been freed, once, or
    is held by what will free it; none was used after it was freed; and each completion took its own
    record from the queue. -/
structure Tidy (s : RilSap) : Prop where
  once : ∀ o ∈ s.blocks.allocated,
    s.Held o ∧ s.blocks.freed.count o = 0 ∨ ¬ s.Held o ∧ s.blocks.freed.count o = 1
  notMisused : s.blocks.misused = []
  own : ∀ x ∈ s.completed, x.2 = some x.1

end RilSap

end Nx508j.Ril
