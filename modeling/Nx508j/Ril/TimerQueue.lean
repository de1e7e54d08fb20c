import Mathlib.Data.List.Perm.Basic

/-! # Timers that wait, expire and fire

What the timers of the event loop come to, whatever they are linked with: a timer waits in a list
sorted by timeouts; when the clock has passed its timeout it goes to the end of the events that are
to be called, and these are called one by one. -/

namespace Nx508j.Ril

/-- `struct timeval` -/
structure Timeval where
  tv_sec : Int
  tv_usec : Int
deriving DecidableEq, Repr

namespace Timeval

/-- `timercmp(a, b, <)` -/
def lt (a b : Timeval) : Bool :=
  if a.tv_sec = b.tv_sec then a.tv_usec < b.tv_usec else a.tv_sec < b.tv_sec

/-- `timeradd` -/
def add (a b : Timeval) : Timeval :=
  let sec := a.tv_sec + b.tv_sec
  let usec := a.tv_usec + b.tv_usec
  if 1000000 ≤ usec then ⟨sec + 1, usec - 1000000⟩ else ⟨sec, usec⟩

/-- `timersub` -/
def sub (a b : Timeval) : Timeval :=
  let sec := a.tv_sec - b.tv_sec
  let usec := a.tv_usec - b.tv_usec
  if usec < 0 then ⟨sec - 1, usec + 1000000⟩ else ⟨sec, usec⟩

/-- A relative time that goes back. -/
def Negative (tv : Timeval) : Prop := tv.tv_sec < 0 ∨ tv.tv_usec < 0

instance (tv : Timeval) : Decidable tv.Negative :=
  inferInstanceAs (Decidable (tv.tv_sec < 0 ∨ tv.tv_usec < 0))

variable {a b c : Timeval}

theorem lt_iff : a.lt b = true ↔
    a.tv_sec < b.tv_sec ∨ (a.tv_sec = b.tv_sec ∧ a.tv_usec < b.tv_usec) := by
  rw [lt]
  split
  · next h => simp [h]
  · next h =>
    rw [decide_eq_true_eq]
    omega

theorem not_lt_iff : a.lt b = false ↔
    b.tv_sec < a.tv_sec ∨ (b.tv_sec = a.tv_sec ∧ b.tv_usec ≤ a.tv_usec) := by
  rw [← Bool.not_eq_true, lt_iff]
  omega

theorem not_lt_of_lt (h : a.lt b = true) : b.lt a = false := by
  rw [lt_iff] at h
  rw [not_lt_iff]
  omega

theorem not_lt_trans (h : b.lt a = false) (h' : c.lt b = false) : c.lt a = false := by
  rw [not_lt_iff] at h h' ⊢
  omega

theorem lt_of_lt_of_not_lt (h : a.lt b = true) (h' : c.lt b = false) : a.lt c = true := by
  rw [lt_iff] at h ⊢
  rw [not_lt_iff] at h'
  omega

/-- A time that is not negative is not over at once. -/
theorem not_add_lt (h : ¬ b.Negative) : (a.add b).lt a = false := by
  rw [Negative] at h
  rw [not_lt_iff, add]
  split
  · left
    dsimp only
    omega
  · dsimp only
    omega

end Timeval

/-- A timer that was added: its number, its event, the relative time, the clock at that moment, and
    the numbers of the timers that had expired by then. -/
structure Timer where
  id : Nat
  ev : Nat
  tv : Timeval
  added : Timeval
  expired : List Nat
deriving DecidableEq, Repr

def Timer.timeout (t : Timer) : Timeval := t.added.add t.tv

/-- An event that is to be called: a timer, or an event whose descriptor is ready. -/
inductive Entry
  | timer (t : Timer)
  | ready (ev : Nat)
deriving DecidableEq, Repr

namespace Entry

def ev : Entry → Nat
  | .timer t => t.ev
  | .ready ev => ev

def timer? : Entry → Option Timer
  | .timer t => some t
  | .ready _ => none

end Entry

/-- The part of its turn that the loop comes to next. -/
inductive LoopPart
  | timeouts
  | readies
  | firing
deriving DecidableEq, Repr

/-- The timers that wait, the events that are to be called and those that were called, in order. All
    timers that were ever added are in `timers`. At the last look at the timeouts there were
    `swept.1` of them, and the clock was at `swept.2`. -/
structure TimerQueue where
  waiting : List Timer
  pending : List Entry
  called : List Entry
  timers : List Timer
  now : Timeval
  part : LoopPart
  swept : Nat × Timeval

namespace TimerQueue

def init (now : Timeval) : TimerQueue := ⟨[], [], [], [], now, .timeouts, (0, now)⟩

/-- The timers that were called, in order. -/
def fired (q : TimerQueue) : List Timer := q.called.filterMap Entry.timer?

/-- The timers that do not wait any more, in order. -/
def expired (q : TimerQueue) : List Timer := (q.called ++ q.pending).filterMap Entry.timer?

/-- The timer that is added for an event. -/
def newTimer (q : TimerQueue) (ev : Nat) (tv now : Timeval) : Timer :=
  ⟨q.timers.length, ev, tv, now, q.expired.map Timer.id⟩

/-- Add a timer in front of the first one that does not end sooner. -/
def timerAdd (ev : Nat) (tv now : Timeval) (q : TimerQueue) : TimerQueue :=
  let t := q.newTimer ev tv now
  let sooner := fun s : Timer => s.timeout.lt t.timeout
  { q with
    waiting := q.waiting.takeWhile sooner ++ t :: q.waiting.dropWhile sooner
    timers := q.timers ++ [t]
    now := now }

/-- The timers that have expired are to be called. -/
def processTimeouts (now : Timeval) (q : TimerQueue) : TimerQueue :=
  let due := fun t : Timer => t.timeout.lt now
  { q with
    waiting := q.waiting.dropWhile due
    pending := q.pending ++ (q.waiting.takeWhile due).map Entry.timer
    now := now
    part := .readies
    swept := (q.timers.length, now) }

def readReady (ev : Nat) (q : TimerQueue) : TimerQueue :=
  { q with pending := q.pending ++ [.ready ev] }

/-- Go on to calling the events, or call one. -/
def firePending (q : TimerQueue) : TimerQueue :=
  match q.part with
  | .firing =>
    match q.pending with
    | [] => { q with part := .timeouts }
    | e :: pending => { q with pending := pending, called := q.called ++ [e] }
  | _ => { q with part := .firing }

/-! ## What holds of them -/

/-- The first of two timers may well be called before the second: its timeout is not later, or it
    had expired before the second was added with a negative time. -/
def InOrder (s t : Timer) : Prop :=
  t.timeout.lt s.timeout = false ∨ (t.tv.Negative ∧ s.id ∈ t.expired)

structure Inv (q : TimerQueue) : Prop where
  ids : q.timers.map Timer.id = List.range q.timers.length
  once : (q.waiting ++ q.expired).Perm q.timers
  sorted : q.waiting.Pairwise fun s t => t.timeout.lt s.timeout = false
  late : ∀ t ∈ q.expired, t.timeout.lt q.now = true
  order : q.expired.Pairwise InOrder
  ahead : ∀ s ∈ q.expired, ∀ t ∈ q.waiting, InOrder s t
  swept : ∀ t ∈ q.waiting, t.id < q.swept.1 → t.timeout.lt q.swept.2 = false
  swept_le : q.swept.1 ≤ q.timers.length
  idle : q.part = .timeouts → q.pending = []

variable {q : TimerQueue} {now : Timeval} {t : Timer}

theorem Inv.init (now : Timeval) : (TimerQueue.init now).Inv where
  ids := rfl
  once := .refl []
  sorted := .nil
  late _ h := absurd h List.not_mem_nil
  order := .nil
  ahead _ h := absurd h List.not_mem_nil
  swept _ h := absurd h List.not_mem_nil
  swept_le := Nat.le_refl _
  idle _ := rfl

theorem not_lt_of_mem_dropWhile {l : List Timer}
    (hsorted : l.Pairwise fun s t => t.timeout.lt s.timeout = false)
    (ht : t ∈ l.dropWhile fun s => s.timeout.lt now) : t.timeout.lt now = false := by
  induction l with
  | nil => exact absurd ht List.not_mem_nil
  | cons s l ih =>
    rw [List.pairwise_cons] at hsorted
    rw [List.dropWhile_cons] at ht
    split at ht
    · exact ih hsorted.2 ht
    · next hs =>
      rw [Bool.not_eq_true] at hs
      rcases List.mem_cons.1 ht with rfl | ht
      · exact hs
      · exact Timeval.not_lt_trans hs (hsorted.1 t ht)

theorem lt_of_mem_takeWhile {l : List Timer}
    (ht : t ∈ l.takeWhile fun s => s.timeout.lt now) : t.timeout.lt now = true := by
  induction l with
  | nil => exact absurd ht List.not_mem_nil
  | cons s l ih =>
    rw [List.takeWhile_cons] at ht
    split at ht
    · next hs =>
      rcases List.mem_cons.1 ht with rfl | ht
      · exact hs
      · exact ih ht
    · exact absurd ht List.not_mem_nil

/-- What has expired stays so. -/
theorem Inv.late_of_le (h : q.Inv) (hnow : now.lt q.now = false) (ht : t ∈ q.expired) :
    t.timeout.lt now = true :=
  Timeval.lt_of_lt_of_not_lt (h.late t ht) hnow

/-- A new timer comes after those that have expired. -/
theorem Inv.inOrder_newTimer (h : q.Inv) (hnow : now.lt q.now = false) (ev : Nat) (tv : Timeval)
    {s : Timer} (hs : s ∈ q.expired) : InOrder s (q.newTimer ev tv now) := by
  by_cases hneg : tv.Negative
  · exact .inr ⟨hneg, List.mem_map.2 ⟨s, hs, rfl⟩⟩
  · refine .inl (Timeval.not_lt_trans ?_ (Timeval.not_add_lt hneg))
    exact Timeval.not_lt_of_lt (h.late_of_le hnow hs)

theorem Inv.timerAdd (h : q.Inv) (hnow : now.lt q.now = false) (ev : Nat) (tv : Timeval) :
    (q.timerAdd ev tv now).Inv := by
  have hsplit : q.waiting.takeWhile (fun s => s.timeout.lt (q.newTimer ev tv now).timeout) ++
      q.waiting.dropWhile (fun s => s.timeout.lt (q.newTimer ev tv now).timeout) = q.waiting :=
    List.takeWhile_append_dropWhile
  have hone : (q.timerAdd ev tv now).waiting.Perm (q.newTimer ev tv now :: q.waiting) := by
    conv => rhs; rw [← hsplit]
    exact List.perm_middle
  have hmem : ∀ t, t ∈ (q.timerAdd ev tv now).waiting ↔
      t = q.newTimer ev tv now ∨ t ∈ q.waiting := fun t => by rw [hone.mem_iff, List.mem_cons]
  refine ⟨?_, ?_, ?_, ?_, h.order, ?_, ?_, ?_, h.idle⟩
  · simp only [TimerQueue.timerAdd, List.map_append, h.ids, List.length_append,
      List.length_singleton, List.range_succ]
    rfl
  · have hall := (hone.append_right q.expired).trans (h.once.cons (q.newTimer ev tv now))
    exact hall.trans (List.perm_append_singleton _ _).symm
  · -- in front are those that end sooner, behind those that do not
    rw [TimerQueue.timerAdd, List.pairwise_append]
    have hsorted := h.sorted
    rw [← hsplit, List.pairwise_append] at hsorted
    refine ⟨hsorted.1, List.pairwise_cons.2 ⟨fun t ht => ?_, hsorted.2.1⟩, fun s hs t ht => ?_⟩
    · exact not_lt_of_mem_dropWhile h.sorted ht
    · rcases List.mem_cons.1 ht with rfl | ht
      · exact Timeval.not_lt_of_lt (lt_of_mem_takeWhile hs)
      · exact hsorted.2.2 s hs t ht
  · exact fun t ht => h.late_of_le hnow ht
  · intro s hs t ht
    rcases (hmem t).1 ht with rfl | ht
    · exact h.inOrder_newTimer hnow ev tv hs
    · exact h.ahead s hs t ht
  · intro t ht hid
    rcases (hmem t).1 ht with rfl | ht
    · exact absurd hid (Nat.not_lt_of_le h.swept_le)
    · exact h.swept t ht hid
  · refine Nat.le_trans h.swept_le ?_
    simp only [TimerQueue.timerAdd, List.length_append]
    omega

/-- Those that are due expire, the soonest first. -/
theorem expired_processTimeouts : (q.processTimeouts now).expired =
    q.expired ++ q.waiting.takeWhile fun t => t.timeout.lt now := by
  have htimers : ∀ l : List Timer, (l.map Entry.timer).filterMap Entry.timer? = l := by
    intro l
    rw [List.filterMap_map]
    exact List.filterMap_some
  rw [expired, expired, processTimeouts]
  rw [← List.append_assoc, List.filterMap_append, htimers]

theorem Inv.processTimeouts (h : q.Inv) (hnow : now.lt q.now = false) :
    (q.processTimeouts now).Inv := by
  have hsplit : q.waiting.takeWhile (fun t => t.timeout.lt now) ++
      q.waiting.dropWhile (fun t => t.timeout.lt now) = q.waiting :=
    List.takeWhile_append_dropWhile
  have hsorted := h.sorted
  rw [← hsplit, List.pairwise_append] at hsorted
  have hdue : ∀ t ∈ q.waiting.takeWhile (fun t => t.timeout.lt now), t ∈ q.waiting := by
    intro t ht
    rw [← hsplit]
    exact List.mem_append_left _ ht
  have hleft : ∀ t ∈ q.waiting.dropWhile (fun t => t.timeout.lt now), t ∈ q.waiting := by
    intro t ht
    rw [← hsplit]
    exact List.mem_append_right _ ht
  refine ⟨h.ids, ?_, hsorted.2.1, ?_, ?_, ?_, ?_, Nat.le_refl _, fun hpart => nomatch hpart⟩
  · rw [expired_processTimeouts]
    refine List.Perm.trans ?_ h.once
    conv => rhs; rw [← hsplit]
    rw [List.append_assoc]
    refine (List.perm_append_comm.append_left _).trans ?_
    rw [← List.append_assoc, ← List.append_assoc]
    exact List.perm_append_comm.append_right _
  · intro t ht
    rw [expired_processTimeouts] at ht
    rcases List.mem_append.1 ht with ht | ht
    · exact h.late_of_le hnow ht
    · exact lt_of_mem_takeWhile ht
  · -- those that expire now are sorted, and come behind the others
    rw [expired_processTimeouts, List.pairwise_append]
    exact ⟨h.order, hsorted.1.imp fun hst => .inl hst, fun s hs t ht => h.ahead s hs t (hdue t ht)⟩
  · intro s hs t ht
    rw [expired_processTimeouts] at hs
    rcases List.mem_append.1 hs with hs | hs
    · exact h.ahead s hs t (hleft t ht)
    · exact .inl (hsorted.2.2 s hs t ht)
  · exact fun t ht _ => not_lt_of_mem_dropWhile h.sorted ht

theorem Inv.of_expired (h : q.Inv) {q' : TimerQueue} (hwaiting : q'.waiting = q.waiting)
    (htimers : q'.timers = q.timers) (hnow : q'.now = q.now) (hswept : q'.swept = q.swept)
    (hexpired : q'.expired = q.expired) (hidle : q'.part = .timeouts → q'.pending = []) :
    q'.Inv where
  ids := htimers ▸ h.ids
  once := by
    rw [hwaiting, hexpired, htimers]
    exact h.once
  sorted := hwaiting ▸ h.sorted
  late := by
    rw [hexpired, hnow]
    exact h.late
  order := hexpired ▸ h.order
  ahead := by
    rw [hexpired, hwaiting]
    exact h.ahead
  swept := by
    rw [hwaiting, hswept]
    exact h.swept
  swept_le := by
    rw [hswept, htimers]
    exact h.swept_le
  idle := hidle

theorem Inv.readReady (h : q.Inv) (hpart : q.part = .readies) (ev : Nat) :
    (q.readReady ev).Inv := by
  refine h.of_expired rfl rfl rfl rfl ?_ fun hidle => nomatch hpart.symm.trans hidle
  rw [expired, expired, TimerQueue.readReady]
  rw [← List.append_assoc, List.filterMap_append]
  exact List.append_nil _

theorem Inv.firePending (h : q.Inv) : q.firePending.Inv := by
  rw [TimerQueue.firePending]
  split
  · next hpart =>
    split
    · next hpending => exact h.of_expired rfl rfl rfl rfl rfl fun _ => hpending
    · next e pending hpending =>
      -- one event goes from one list to the end of the other
      refine h.of_expired rfl rfl rfl rfl ?_ fun hidle => nomatch hpart.symm.trans hidle
      rw [expired, expired, hpending]
      rw [List.append_assoc, List.singleton_append]
  · exact h.of_expired rfl rfl rfl rfl rfl fun hidle => nomatch hidle

/-! ## What follows -/

theorem Inv.fired_order (h : q.Inv) : q.fired.Pairwise InOrder := by
  have horder := h.order
  rw [expired, List.filterMap_append, List.pairwise_append] at horder
  exact horder.1

theorem Inv.fired_late (h : q.Inv) (ht : t ∈ q.fired) : t.timeout.lt q.now = true := by
  refine h.late t ?_
  rw [expired, List.filterMap_append]
  exact List.mem_append_left _ ht

theorem Inv.once' (h : q.Inv) :
    (q.waiting ++ (q.pending.filterMap Entry.timer? ++ q.fired)).Perm q.timers := by
  refine List.Perm.trans ?_ h.once
  rw [expired, List.filterMap_append]
  exact List.perm_append_comm.append_left _

theorem Inv.mem_fired (h : q.Inv) (ht : t ∈ q.timers) (hid : t.id < q.swept.1)
    (hlt : t.timeout.lt q.swept.2 = true) (hpart : q.part = .timeouts) : t ∈ q.fired := by
  rcases List.mem_append.1 (h.once'.mem_iff.2 ht) with hwait | hrest
  · rw [h.swept t hwait hid] at hlt
    exact absurd hlt (by decide)
  · rw [h.idle hpart] at hrest
    exact hrest

end TimerQueue

end Nx508j.Ril
