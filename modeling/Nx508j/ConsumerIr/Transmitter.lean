import Mathlib.Data.List.Basic

/-! # The infrared transmitter

`ConsumerirTransmitterService` has three threads. Commands come from the socket's thread and, as
broadcasts, on the main thread; they are queued for the thread of the handler, which gives them to
the QuickSet service or, while that is not connected, puts them into a cache. The main thread is
told when the service is connected, and queues what is in the cache again.

Two things a thread does without the lock in between are two steps here. That a bind failed and is
tried again does not matter: the service may be connected at any time. -/

namespace Nx508j.ConsumerIr

/-- A command; its time stamp is for the log. -/
structure IRCMDBean where
  carrierFrequency : Int
  pattern : List Int
deriving DecidableEq, Repr

/-! ## The cache -/

namespace IRCMDCacheManager

/-- `QUEUE_MAX_SIZE` -/
def queueMaxSize : Nat := 100

/-- If the queue is full, the command at its head is dropped. -/
def produce (mCacheQueue : List IRCMDBean) (ircmdBean : IRCMDBean) : List IRCMDBean :=
  if mCacheQueue.length < queueMaxSize then mCacheQueue ++ [ircmdBean]
  else mCacheQueue.tail ++ [ircmdBean]

end IRCMDCacheManager

/-! ## The service -/

structure ConsumerirTransmitterService where
  mBound : Bool := false
  /-- Whether it is not null. -/
  mControl : Bool := false
  /-- The commands in the messages for the handler. -/
  mHandler : List IRCMDBean := []
  mCacheQueue : List IRCMDBean := []
  /-- The command that the handler's thread took out of its messages last, if it is not done. -/
  cmd : Option IRCMDBean := none
  /-- The main thread is in the loop of `onServiceConnected`. -/
  connecting : Bool := false
  /-- The command that was consumed there and is not queued yet. -/
  ircmdBean : Option IRCMDBean := none
  /-- All commands that came. -/
  received : List IRCMDBean := []
  /-- All commands that were given to `IControl.transmit`. -/
  transmitted : List IRCMDBean := []
deriving DecidableEq, Repr

namespace ConsumerirTransmitterService

variable (s : ConsumerirTransmitterService)

/-- A command comes, and a message with it is sent to the handler. -/
def receive (ircmdBean : IRCMDBean) : ConsumerirTransmitterService :=
  { s with mHandler := s.mHandler ++ [ircmdBean], received := s.received ++ [ircmdBean] }

/-- What the handler does with a command, under the lock. -/
def transmitIrPattern (ircmdBean : IRCMDBean) : ConsumerirTransmitterService :=
  if s.mControl = false ∨ s.mBound = false then
    { s with mCacheQueue := IRCMDCacheManager.produce s.mCacheQueue ircmdBean }
  else { s with transmitted := s.transmitted ++ [ircmdBean] }

/-- What happens. -/
inductive Event where
  /-- The numbers that came through the socket. -/
  | socket (pattern : List Int)
  | broadcast (carrierFrequency : Int) (pattern : List Int)
  | takeMessage
  | handleMessage
  | onServiceConnected
  | consume
  | sendMessage
  | connected
  | onServiceDisconnected
deriving DecidableEq, Repr

/-- **The steps** of the threads. -/
inductive Step : ConsumerirTransmitterService → Event → ConsumerirTransmitterService → Prop where
  | socket {s : ConsumerirTransmitterService} {pattern : List Int} {carrierFrequency : Int}
      (hlast : pattern.getLast? = some carrierFrequency) :
      Step s (.socket pattern) (s.receive ⟨carrierFrequency, pattern.dropLast⟩)
  | broadcast {s : ConsumerirTransmitterService} {carrierFrequency : Int} {pattern : List Int}
      (hmain : s.connecting = false) :
      Step s (.broadcast carrierFrequency pattern) (s.receive ⟨carrierFrequency, pattern⟩)
  | takeMessage {s : ConsumerirTransmitterService} {b : IRCMDBean} {rest : List IRCMDBean}
      (hidle : s.cmd = none) (hmessages : s.mHandler = b :: rest) :
      Step s .takeMessage { s with cmd := some b, mHandler := rest }
  | handleMessage {s : ConsumerirTransmitterService} {b : IRCMDBean} (hcmd : s.cmd = some b) :
      Step s .handleMessage { s.transmitIrPattern b with cmd := none }
  | onServiceConnected {s : ConsumerirTransmitterService} (hmain : s.connecting = false) :
      Step s .onServiceConnected { s with mBound := true, mControl := true, connecting := true }
  | consume {s : ConsumerirTransmitterService} {b : IRCMDBean} {rest : List IRCMDBean}
      (hmain : s.connecting = true) (hnext : s.ircmdBean = none)
      (hcache : s.mCacheQueue = b :: rest) :
      Step s .consume { s with ircmdBean := some b, mCacheQueue := rest }
  | sendMessage {s : ConsumerirTransmitterService} {b : IRCMDBean} (hnext : s.ircmdBean = some b) :
      Step s .sendMessage { s with ircmdBean := none, mHandler := s.mHandler ++ [b] }
  | connected {s : ConsumerirTransmitterService} (hmain : s.connecting = true)
      (hnext : s.ircmdBean = none) (hcache : s.mCacheQueue = []) :
      Step s .connected { s with connecting := false }
  | onServiceDisconnected {s : ConsumerirTransmitterService} (hmain : s.connecting = false) :
      Step s .onServiceDisconnected { s with mBound := false, mControl := false }

/-- What can be reached by steps that are all allowed. -/
inductive Reached (Ok : ConsumerirTransmitterService → Event → Prop) :
    ConsumerirTransmitterService → Prop where
  | start : Reached Ok {}
  | step {s s' : ConsumerirTransmitterService} {e : Event} (h : Reached Ok s)
      (hstep : Step s e s') (hok : Ok s e) : Reached Ok s'

/-- The cache does not overflow. -/
def NoOverflow : Event → Prop
  | .handleMessage => s.mBound = true ∨ s.mCacheQueue.length < IRCMDCacheManager.queueMaxSize
  | _ => True

/-! ## The property -/

/-- **Commands are kept**: each one that came was transmitted once, or is in the cache or on its way
    through the queue; and while the service is connected, and that was dealt with, the cache is
    empty. -/
structure Kept : Prop where
  conserved : (s.transmitted ++ s.cmd.toList ++ s.mHandler ++ s.ircmdBean.toList ++
    s.mCacheQueue).Perm s.received
  noneStays : s.mBound = true → s.connecting = false → s.mCacheQueue = []

/-- **Commands are served**: they are kept, and transmitted in the order in which they came. -/
structure Served : Prop extends s.Kept where
  inOrder : s.transmitted <+: s.received

/-! ## The condition -/

/-- **The condition** for the order: when the service is connected there is nothing in the cache or
    nothing before the handler, and no command comes until the cache is empty. -/
def Fits : Event → Prop
  | .onServiceConnected => s.mCacheQueue = [] ∨ (s.cmd = none ∧ s.mHandler = [])
  | .socket _ | .broadcast .. =>
    s.connecting = false ∨ (s.ircmdBean = none ∧ s.mCacheQueue = [])
  | _ => True

/-! ## What is kept -/

section Kept

variable {s s' : ConsumerirTransmitterService} {e : Event}

/-- What holds of the threads in every state. -/
structure Inv (s : ConsumerirTransmitterService) : Prop extends s.Kept where
  control : s.mControl = s.mBound
  bound : s.connecting = true → s.mBound = true
  idle : s.connecting = false → s.ircmdBean = none

theorem produce_of_lt {mCacheQueue : List IRCMDBean}
    (h : mCacheQueue.length < IRCMDCacheManager.queueMaxSize) (b : IRCMDBean) :
    IRCMDCacheManager.produce mCacheQueue b = mCacheQueue ++ [b] := if_pos h

theorem transmitIrPattern_bound (hcontrol : s.mControl = s.mBound) (hbound : s.mBound = true)
    (b : IRCMDBean) :
    s.transmitIrPattern b = { s with transmitted := s.transmitted ++ [b] } := by
  rw [transmitIrPattern, hcontrol, hbound]
  rfl

theorem transmitIrPattern_unbound (hbound : s.mBound = false) (b : IRCMDBean) :
    s.transmitIrPattern b =
      { s with mCacheQueue := IRCMDCacheManager.produce s.mCacheQueue b } :=
  if_pos (.inr hbound)

/-- Commands move from one place to another. -/
theorem Inv.step (h : s.Inv) (hok : s.NoOverflow e) (hstep : Step s e s') : s'.Inv := by
  obtain ⟨⟨hconserved, hstays⟩, hcontrol, hbound, hidle⟩ := h
  rw [List.perm_iff_count] at hconserved
  cases hstep with
  | socket hlast | broadcast hmain =>
    refine ⟨⟨List.perm_iff_count.2 fun b => ?_, hstays⟩, hcontrol, hbound, hidle⟩
    have hb := hconserved b
    simp only [receive, List.count_append] at hb ⊢
    omega
  | takeMessage hnone hmessages =>
    refine ⟨⟨List.perm_iff_count.2 fun b => ?_, hstays⟩, hcontrol, hbound, hidle⟩
    have hb := hconserved b
    rw [hnone, hmessages] at hb
    simp only [List.count_append, Option.toList_none, Option.toList_some, List.count_nil,
      List.count_cons] at hb ⊢
    omega
  | @handleMessage b hcmd =>
    cases hservice : s.mBound with
    | true =>
      rw [transmitIrPattern_bound hcontrol hservice]
      refine ⟨⟨List.perm_iff_count.2 fun a => ?_, hstays⟩, hcontrol, hbound, hidle⟩
      have ha := hconserved a
      rw [hcmd] at ha
      simp only [List.count_append, Option.toList_none, Option.toList_some,
        List.count_nil] at ha ⊢
      omega
    | false =>
      -- nothing is dropped, and the main thread is not in its loop
      have hroom := hok.resolve_left (by rw [hservice]; decide)
      rw [transmitIrPattern_unbound hservice, produce_of_lt hroom]
      refine ⟨⟨List.perm_iff_count.2 fun a => ?_, fun h => ?_⟩, hcontrol, hbound, hidle⟩
      · have ha := hconserved a
        rw [hcmd] at ha
        simp only [List.count_append, Option.toList_none, Option.toList_some,
          List.count_nil] at ha ⊢
        omega
      · exact absurd (hservice.symm.trans h) (by decide)
  | onServiceConnected hmain =>
    exact ⟨⟨List.perm_iff_count.2 hconserved, fun _ h => by cases h⟩, rfl, fun _ => rfl,
      fun h => by cases h⟩
  | consume hmain hnext hcache =>
    refine ⟨⟨List.perm_iff_count.2 fun b => ?_, fun _ h => ?_⟩, hcontrol, hbound, fun h => ?_⟩
    · have hb := hconserved b
      rw [hnext, hcache] at hb
      simp only [List.count_append, Option.toList_none, Option.toList_some, List.count_nil,
        List.count_cons] at hb ⊢
      omega
    · exact absurd (hmain.symm.trans h) (by decide)
    · exact absurd (hmain.symm.trans h) (by decide)
  | sendMessage hnext =>
    refine ⟨⟨List.perm_iff_count.2 fun b => ?_, hstays⟩, hcontrol, hbound, fun _ => rfl⟩
    have hb := hconserved b
    rw [hnext] at hb
    simp only [List.count_append, Option.toList_none, Option.toList_some, List.count_nil] at hb ⊢
    omega
  | connected hmain hnext hcache =>
    exact ⟨⟨List.perm_iff_count.2 hconserved, fun _ _ => hcache⟩, hcontrol,
      fun h => (by cases h), fun _ => hnext⟩
  | onServiceDisconnected hmain =>
    refine ⟨⟨List.perm_iff_count.2 hconserved, fun h => by cases h⟩, rfl, fun h => ?_, hidle⟩
    exact absurd (hmain.symm.trans h) (by decide)

theorem reached_inv {Ok : ConsumerirTransmitterService → Event → Prop}
    (hok : ∀ s e, Ok s e → s.NoOverflow e) (h : Reached Ok s) : s.Inv := by
  induction h with
  | start => exact ⟨⟨.refl _, fun h => absurd h (by decide)⟩, rfl, fun h => absurd h (by decide),
      fun _ => rfl⟩
  | step _ hstep hallowed ih => exact ih.step (hok _ _ hallowed) hstep

end Kept

/-! ## The order -/

section Order

variable {s s' : ConsumerirTransmitterService} {e : Event}

/-- The commands in the order in which they will be transmitted if nothing else happens. -/
def line (s : ConsumerirTransmitterService) : List IRCMDBean :=
  if s.connecting = true then
    s.transmitted ++ s.cmd.toList ++ s.mHandler ++ s.ircmdBean.toList ++ s.mCacheQueue
  else s.transmitted ++ s.mCacheQueue ++ s.cmd.toList ++ s.mHandler

theorem line_connecting (h : s.connecting = true) : s.line =
    s.transmitted ++ s.cmd.toList ++ s.mHandler ++ s.ircmdBean.toList ++ s.mCacheQueue :=
  if_pos h

theorem line_not_connecting (h : s.connecting = false) :
    s.line = s.transmitted ++ s.mCacheQueue ++ s.cmd.toList ++ s.mHandler :=
  if_neg (by rw [h]; decide)

theorem line_receive (h : s.connecting = false ∨ (s.ircmdBean = none ∧ s.mCacheQueue = []))
    (b : IRCMDBean) : (s.receive b).line = s.line ++ [b] := by
  cases hmain : s.connecting with
  | false =>
    have hmain' : (s.receive b).connecting = false := hmain
    rw [line_not_connecting hmain, line_not_connecting hmain']
    simp only [receive, List.append_assoc]
  | true =>
    obtain ⟨hnext, hcache⟩ := h.resolve_left (by rw [hmain]; decide)
    have hmain' : (s.receive b).connecting = true := hmain
    rw [line_connecting hmain, line_connecting hmain']
    simp only [receive, hnext, hcache, Option.toList_none, List.append_nil, List.append_assoc]

/-- A step that fits does not change the order of the line. -/
theorem line_step (hinv : s.Inv) (hok : s.NoOverflow e) (hfits : s.Fits e)
    (hline : s.line = s.received) (hstep : Step s e s') : s'.line = s'.received := by
  cases hstep with
  | socket hlast | broadcast hmain => rw [line_receive hfits, hline]; rfl
  | takeMessage hnone hmessages =>
    rw [← hline]
    unfold line
    simp only [hnone, hmessages, Option.toList_none, Option.toList_some, List.append_nil,
      List.append_assoc, List.singleton_append]
  | @handleMessage b hcmd =>
    cases hservice : s.mBound with
    | true =>
      rw [transmitIrPattern_bound hinv.control hservice]
      show _ = s.received
      rw [← hline]
      -- while the main thread is not in its loop the cache is empty
      cases hmain : s.connecting with
      | true =>
        simp only [line, hmain, hcmd, ↓reduceIte, Option.toList_none, Option.toList_some,
          List.append_nil]
      | false =>
        simp only [line, hmain, hcmd, hinv.noneStays hservice hmain, Bool.false_eq_true,
          ↓reduceIte, Option.toList_none, Option.toList_some, List.append_nil]
    | false =>
      have hroom := hok.resolve_left (by rw [hservice]; decide)
      have hmain : s.connecting = false := by
        by_contra hne
        have hbound := hinv.bound (by simpa using hne)
        exact absurd (hservice.symm.trans hbound) (by decide)
      rw [transmitIrPattern_unbound hservice, produce_of_lt hroom]
      show _ = s.received
      rw [← hline]
      simp only [line, hmain, hcmd, Bool.false_eq_true, ↓reduceIte, Option.toList_none,
        Option.toList_some, List.append_nil, List.append_assoc]
  | onServiceConnected hmain =>
    show _ = s.received
    rw [← hline]
    -- the cache is now behind the handler's messages, and one of them is empty
    rcases hfits with hcache | ⟨hcmd, hmessages⟩
    · simp only [line, hmain, hinv.idle hmain, hcache, Bool.false_eq_true, ↓reduceIte,
        Option.toList_none, List.append_nil]
    · simp only [line, hmain, hinv.idle hmain, hcmd, hmessages, Bool.false_eq_true, ↓reduceIte,
        Option.toList_none, List.append_nil]
  | consume hmain hnext hcache =>
    show _ = s.received
    rw [← hline]
    simp only [line, hmain, hnext, hcache, ↓reduceIte, Option.toList_none, Option.toList_some,
      List.append_nil, List.append_assoc, List.singleton_append]
  | sendMessage hnext =>
    have hmain : s.connecting = true := by
      by_contra hne
      exact absurd (hnext.symm.trans (hinv.idle (by simpa using hne))) (by simp)
    show _ = s.received
    rw [← hline]
    simp only [line, hmain, hnext, ↓reduceIte, Option.toList_none, Option.toList_some,
      List.append_nil, List.append_assoc]
  | connected hmain hnext hcache =>
    show _ = s.received
    rw [← hline]
    simp only [line, hmain, hnext, hcache, Bool.false_eq_true, ↓reduceIte, Option.toList_none,
      List.append_nil]
  | onServiceDisconnected hmain =>
    show _ = s.received
    rw [← hline]
    simp only [line, hmain, Bool.false_eq_true, ↓reduceIte]

end Order

/-- **In every run** in which the cache does not overflow and whose steps meet the condition, the
    commands are served. -/
theorem reached_served {s : ConsumerirTransmitterService}
    (h : Reached (fun s e => s.NoOverflow e ∧ s.Fits e) s) : s.Served := by
  have hline : s.line = s.received := by
    induction h with
    | start => rfl
    | step hs hstep hok ih =>
      exact line_step (reached_inv (fun _ _ hok => hok.1) hs) hok.1 hok.2 ih hstep
  have hinv : s.Inv := reached_inv (fun _ _ hok => hok.1) h
  refine ⟨hinv.toKept, ?_⟩
  rw [← hline]
  unfold line
  split
  · simp only [List.append_assoc]
    exact List.prefix_append ..
  · simp only [List.append_assoc]
    exact List.prefix_append ..

/-- **In every run** in which the cache does not overflow, whenever the service comes and goes, no
    command is lost or transmitted twice. -/
theorem reached_kept {s : ConsumerirTransmitterService} (h : Reached NoOverflow s) : s.Kept :=
  (reached_inv (fun _ _ hok => hok) h).toKept

/-- Two commands. -/
def power : IRCMDBean := ⟨38000, [9000, 4500]⟩

def mute : IRCMDBean := ⟨38000, [560, 1690]⟩

/-- Two commands are cached, and transmitted in their order when the service was connected. -/
theorem reached_served_cached : ∃ s : ConsumerirTransmitterService,
    Reached (fun s e => s.NoOverflow e ∧ s.Fits e) s ∧ s.transmitted = [power, mute] ∧
      s.Served := by
  have received : Reached (fun s e => s.NoOverflow e ∧ s.Fits e)
      { mHandler := [power, mute], received := [power, mute] } :=
    (Reached.start.step (.socket (show [9000, 4500, 38000].getLast? = some 38000 from rfl))
      ⟨trivial, .inl rfl⟩).step (.socket (show [560, 1690, 38000].getLast? = some 38000 from rfl))
        ⟨trivial, .inl rfl⟩
  have cached : Reached (fun s e => s.NoOverflow e ∧ s.Fits e)
      { mCacheQueue := [power, mute], received := [power, mute] } :=
    (((received.step (.takeMessage rfl rfl) ⟨trivial, trivial⟩).step (.handleMessage rfl)
      ⟨.inr (by decide), trivial⟩).step (.takeMessage rfl rfl) ⟨trivial, trivial⟩).step
        (.handleMessage rfl) ⟨.inr (by decide), trivial⟩
  have queued : Reached (fun s e => s.NoOverflow e ∧ s.Fits e)
      { mBound := true, mControl := true, connecting := true, mHandler := [power, mute],
        received := [power, mute] } :=
    ((((cached.step (.onServiceConnected rfl) ⟨trivial, .inr ⟨rfl, rfl⟩⟩).step
      (.consume rfl rfl rfl) ⟨trivial, trivial⟩).step (.sendMessage rfl) ⟨trivial, trivial⟩).step
        (.consume rfl rfl rfl) ⟨trivial, trivial⟩).step (.sendMessage rfl) ⟨trivial, trivial⟩
  have transmitted : Reached (fun s e => s.NoOverflow e ∧ s.Fits e)
      { mBound := true, mControl := true, received := [power, mute],
        transmitted := [power, mute] } :=
    ((((queued.step (.connected rfl rfl rfl) ⟨trivial, trivial⟩).step (.takeMessage rfl rfl)
      ⟨trivial, trivial⟩).step (.handleMessage rfl) ⟨.inl rfl, trivial⟩).step
        (.takeMessage rfl rfl) ⟨trivial, trivial⟩).step (.handleMessage rfl) ⟨.inl rfl, trivial⟩
  exact ⟨_, transmitted, rfl, reached_served transmitted⟩

theorem reached_kept_cached : ∃ s : ConsumerirTransmitterService,
    Reached NoOverflow s ∧ s.mCacheQueue = [power] ∧ s.Kept := by
  have cached : Reached NoOverflow { mCacheQueue := [power], received := [power] } :=
    ((Reached.start.step
      (.socket (show [9000, 4500, 38000].getLast? = some 38000 from rfl)) trivial).step
        (.takeMessage rfl rfl) trivial).step (.handleMessage rfl) (.inr (by decide))
  exact ⟨_, cached, rfl, reached_kept cached⟩

/-- A command that waits in the cache is passed by one that waits before the handler when the
    service is connected. -/
theorem not_served_passed : ¬ ∀ s, Reached NoOverflow s → s.Served := by
  intro hall
  have cached : Reached NoOverflow { mCacheQueue := [power], received := [power] } :=
    ((Reached.start.step
      (.socket (show [9000, 4500, 38000].getLast? = some 38000 from rfl)) trivial).step
        (.takeMessage rfl rfl) trivial).step (.handleMessage rfl) (.inr (by decide))
  have behind : Reached NoOverflow
      { mBound := true, mControl := true, connecting := true, mHandler := [mute, power],
        received := [power, mute] } :=
    (((cached.step (.socket (show [560, 1690, 38000].getLast? = some 38000 from rfl))
      trivial).step (.onServiceConnected rfl) trivial).step (.consume rfl rfl rfl) trivial).step
        (.sendMessage rfl) trivial
  have passed : Reached NoOverflow
      { mBound := true, mControl := true, connecting := true, mHandler := [power],
        received := [power, mute], transmitted := [mute] } :=
    (behind.step (.takeMessage rfl rfl) trivial).step (.handleMessage rfl) (.inl rfl)
  have hprefix : [mute] <+: [power, mute] := (hall _ passed).inOrder
  revert hprefix
  decide

end ConsumerirTransmitterService

end Nx508j.ConsumerIr
