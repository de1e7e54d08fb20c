import Nx508j.Lib.LinkedRing
import Nx508j.Lib.Memory
import Nx508j.Ril.TimerQueue

/-! # The timer list of the event loop

The events that wait and those that are to be called are linked in two rings around static
sentinels. Timers are added by any thread under a lock; a turn of the loop moves the expired timers
from one ring to the other, then those events whose descriptors are ready, and calls them one by one
without the lock. -/

namespace Nx508j.Ril

open Nx508j.Lib Function

/-- A `struct ril_event *`. Events have numbers for addresses. -/
inductive EvPtr
  | null
  | timer_list
  | pending_list
  | event (ev : Nat)
deriving DecidableEq

/-- Where `ril_event_loop` is. In `firing` the next event is known. -/
inductive TimerPc
  | timeouts
  | readies
  | firing (ev : EvPtr)
deriving DecidableEq

/-- The links, timeouts and descriptors of the events; the loop, the events whose function was
    called in order, the clock when it was read last, and the number of timers that were added. -/
structure TimerLoop where
  next : EvPtr → EvPtr
  prev : EvPtr → EvPtr
  timeout : EvPtr → Timeval
  fd : EvPtr → Int
  pc : TimerPc
  called : List EvPtr
  now : Timeval
  adds : Nat

/-- What is done to the timers: `timerAdd` by any thread or callback, the other calls by the loop in
    its turn. -/
inductive TimerCall
  | timerAdd (ev : Nat) (tv : Option Timeval) (now : Timeval)
  | processTimeouts (now : Timeval)
  | readReady (rev : Nat)
  | firePending
deriving DecidableEq

namespace TimerLoop

/-- A null pointer is not followed. -/
def deref (p : EvPtr) : Except Fault Unit :=
  if p = .null then .error .outOfBounds else .ok ()

def init_list (list : EvPtr) (w : TimerLoop) : TimerLoop :=
  { w with
    next := update w.next list list
    prev := update w.prev list list
    timeout := update w.timeout list ⟨0, 0⟩
    fd := update w.fd list (-1) }

/-- `ril_event_init` -/
def init (now : Timeval) : TimerLoop :=
  init_list .pending_list <| init_list .timer_list
    ⟨fun _ => .null, fun _ => .null, fun _ => ⟨0, 0⟩, fun _ => 0, .timeouts, [], now, 0⟩

def addToList (ev list : EvPtr) (w : TimerLoop) : Except Fault TimerLoop := do
  deref ev
  deref list
  let next := update w.next ev list
  let prev := update w.prev ev (w.prev list)
  deref (prev ev)
  let next := update next (prev ev) ev
  let prev := update prev list ev
  .ok { w with next := next, prev := prev }

def removeFromList (ev : EvPtr) (w : TimerLoop) : Except Fault TimerLoop := do
  deref ev
  deref (w.next ev)
  let prev := update w.prev (w.next ev) (w.prev ev)
  deref (prev ev)
  let next := update w.next (prev ev) (w.next ev)
  .ok { w with next := update next ev .null, prev := update prev ev .null }

/-- The loop of `ril_timer_add` that finds the place. -/
def placeFrom (timeout : Timeval) (w : TimerLoop) : Nat → EvPtr → Except Fault EvPtr
  | 0, _ => .error .diverges
  | fuel + 1, list => do
      deref list
      if (w.timeout list).lt timeout ∧ list ≠ .timer_list then
        placeFrom timeout w fuel (w.next list)
      else .ok list

def ril_timer_add (ev : Nat) (tv : Option Timeval) (now : Timeval) (w : TimerLoop) :
    Except Fault TimerLoop :=
  match tv with
  | none => .ok w
  | some tv => do
      let timeout := now.add tv
      let w := { w with
        fd := update w.fd (.event ev) (-1)
        timeout := update w.timeout (.event ev) timeout
        now := now
        adds := w.adds + 1 }
      let list ← placeFrom timeout w w.adds (w.next .timer_list)
      addToList (.event ev) list w

/-- The loop of `processTimeouts`. -/
def expireFrom (now : Timeval) : Nat → EvPtr → TimerLoop → Except Fault TimerLoop
  | 0, _, _ => .error .diverges
  | fuel + 1, tev, w => do
      deref tev
      if tev ≠ .timer_list ∧ (w.timeout tev).lt now then do
        let next := w.next tev
        let w ← removeFromList tev w
        let w ← addToList tev .pending_list w
        expireFrom now fuel next w
      else .ok w

def processTimeouts (now : Timeval) (w : TimerLoop) : Except Fault TimerLoop := do
  let w ← expireFrom now (w.adds + 1) (w.next .timer_list) w
  .ok { w with now := now, pc := .readies }

/-- How long `select` may wait, or NULL if there is no timer. -/
def calcNextTimeout (now : Timeval) (w : TimerLoop) : Except Fault (Option Timeval) := do
  let tev := w.next .timer_list
  if tev = .timer_list then .ok none
  else do
    deref tev
    .ok (some (if now.lt (w.timeout tev) then (w.timeout tev).sub now else ⟨0, 0⟩))

/-- `processReadReadies` for one event. -/
def readReady (rev : Nat) (w : TimerLoop) : Except Fault TimerLoop :=
  addToList (.event rev) .pending_list w

/-- `firePending`: the first event, then one event after the other. What its function does comes
    after. -/
def firePending (w : TimerLoop) : Except Fault TimerLoop :=
  match w.pc with
  | .firing ev =>
    if ev = .pending_list then .ok { w with pc := .timeouts }
    else do
      deref ev
      let next := w.next ev
      let w ← removeFromList ev w
      .ok { w with called := w.called ++ [ev], pc := .firing next }
  | _ => .ok { w with pc := .firing (w.next .pending_list) }

def step (w : TimerLoop) (c : TimerCall) : Except Fault (TimerLoop × Unit) := do
  let w ← match c with
    | .timerAdd ev tv now => ril_timer_add ev tv now w
    | .processTimeouts now => processTimeouts now w
    | .readReady rev => readReady rev w
    | .firePending => firePending w
  .ok (w, ())

/-- The clock does not go back, events are in no list when they are put into one, and the loop does
    one thing after the other. -/
def Allowed (w : TimerLoop) : TimerCall → Prop
  | .timerAdd ev _ now => w.next (.event ev) = .null ∧ now.lt w.now = false
  | .processTimeouts now => w.pc = .timeouts ∧ now.lt w.now = false
  | .readReady rev => w.pc = .readies ∧ w.next (.event rev) = .null
  | .firePending => w.pc ≠ .timeouts

instance (w : TimerLoop) : ∀ c, Decidable (Allowed w c)
  | .timerAdd ev _ now => inferInstanceAs
      (Decidable (w.next (.event ev) = .null ∧ now.lt w.now = false))
  | .processTimeouts now => inferInstanceAs (Decidable (w.pc = .timeouts ∧ now.lt w.now = false))
  | .readReady rev => inferInstanceAs (Decidable (w.pc = .readies ∧ w.next (.event rev) = .null))
  | .firePending => inferInstanceAs (Decidable (w.pc ≠ .timeouts))

end TimerLoop

/-! ## The two rings -/

namespace TimerLoop

variable {w : TimerLoop} {b c ev list x z : EvPtr} {l l₁ l₂ : List EvPtr}

theorem deref_ok (h : z ≠ .null) : deref z = .ok () := if_neg h

theorem addToList_ok (l₁ l₂ : List EvPtr) (h : LinkedRing w.next w.prev b (l₁ ++ l₂))
    (hlist : (l₂ ++ [b]).head? = some list) (hev : ev ∉ b :: (l₁ ++ l₂)) (hnull : ev ≠ .null)
    (hnulls : .null ∉ b :: (l₁ ++ l₂)) :
    ∃ next prev, addToList ev list w = .ok { w with next := next, prev := prev } ∧
      LinkedRing next prev b (l₁ ++ ev :: l₂) ∧
      ∀ a, a ∉ ev :: b :: (l₁ ++ l₂) → next a = w.next a ∧ prev a = w.prev a := by
  obtain ⟨x, hx⟩ := Option.isSome_iff_exists.1 (show ((b :: l₁).getLast?).isSome by simp)
  obtain ⟨-, hprev⟩ := h.seam hx hlist
  have hlist₂ : list ∈ l₂ ++ [b] := List.mem_of_head? hlist
  have hxmem : x ∈ b :: (l₁ ++ l₂) := by grind
  have hlistmem : list ∈ b :: (l₁ ++ l₂) := by grind
  have hevx : ev ≠ x := fun heq => hev (heq ▸ hxmem)
  have hevlist : ev ≠ list := fun heq => hev (heq ▸ hlistmem)
  have hlistnull : list ≠ .null := fun heq => hnulls (heq ▸ hlistmem)
  have hxnull : x ≠ .null := fun heq => hnulls (heq ▸ hxmem)
  refine ⟨update (update w.next ev list) x ev,
    update (update w.prev ev x) list ev, ?_, ?_, ?_⟩
  · rw [addToList, deref_ok hnull, ok_bind, deref_ok hlistnull, ok_bind]
    dsimp only
    rw [update_self, hprev, deref_ok hxnull, ok_bind]
  · refine h.insert l₁ l₂ hev hx hlist ⟨?_, ?_⟩ ⟨?_, ?_⟩ ?_ ?_
    · exact update_self ..
    · rw [update_of_ne hevlist, update_self]
    · rw [update_of_ne hevx, update_self]
    · exact update_self ..
    · intro a ha hax
      have haev : a ≠ ev := fun heq => hev (heq ▸ ha)
      rw [update_of_ne hax, update_of_ne haev]
    · intro a ha halist
      have haev : a ≠ ev := fun heq => hev (heq ▸ ha)
      rw [update_of_ne halist, update_of_ne haev]
  · intro a ha
    rw [List.mem_cons, not_or] at ha
    have hax : a ≠ x := fun heq => ha.2 (heq ▸ hxmem)
    have halist : a ≠ list := fun heq => ha.2 (heq ▸ hlistmem)
    rw [update_of_ne hax, update_of_ne ha.1, update_of_ne halist,
      update_of_ne ha.1]
    exact ⟨rfl, rfl⟩

theorem removeFromList_ok (l₁ l₂ : List EvPtr) (h : LinkedRing w.next w.prev b (l₁ ++ z :: l₂))
    (hnulls : .null ∉ b :: (l₁ ++ z :: l₂)) :
    ∃ next prev, removeFromList z w = .ok { w with next := next, prev := prev } ∧
      LinkedRing next prev b (l₁ ++ l₂) ∧ next z = .null ∧
      ∀ a, a ∉ b :: (l₁ ++ z :: l₂) → next a = w.next a ∧ prev a = w.prev a := by
  obtain ⟨hx, hy⟩ := h.neighbours
  obtain ⟨hprevz, hnextz⟩ := h.ne_self
  have hy₂ : w.next z ∈ l₂ ++ [b] := List.mem_of_head? hy
  have hxmem : w.prev z ∈ b :: (l₁ ++ z :: l₂) := by grind
  have hymem : w.next z ∈ b :: (l₁ ++ z :: l₂) := by grind
  have hz : z ≠ .null := by
    rintro rfl
    exact hnulls (by simp)
  have hxnull : w.prev z ≠ .null := fun heq => hnulls (heq ▸ hxmem)
  have hynull : w.next z ≠ .null := fun heq => hnulls (heq ▸ hymem)
  have hnotin : z ∉ b :: (l₁ ++ l₂) := by
    have hnodup := h.nodup
    grind
  refine ⟨update (update w.next (w.prev z) (w.next z)) z .null,
    update (update w.prev (w.next z) (w.prev z)) z .null, ?_, ?_,
    update_self .., ?_⟩
  · rw [removeFromList, deref_ok hz, ok_bind, deref_ok hynull, ok_bind]
    dsimp only
    rw [update_of_ne hnextz.symm, deref_ok hxnull, ok_bind]
  · refine h.unlink ⟨?_, ?_⟩ ?_ ?_
    · rw [update_of_ne hprevz, update_self]
    · rw [update_of_ne hnextz, update_self]
    · intro a ha hax
      have haz : a ≠ z := fun heq => hnotin (heq ▸ ha)
      rw [update_of_ne haz, update_of_ne hax]
    · intro a ha hay
      have haz : a ≠ z := fun heq => hnotin (heq ▸ ha)
      rw [update_of_ne haz, update_of_ne hay]
  · intro a ha
    have haz : a ≠ z := by
      rintro rfl
      exact ha (by simp)
    have hax : a ≠ w.prev z := fun heq => ha (heq ▸ hxmem)
    have hay : a ≠ w.next z := fun heq => ha (heq ▸ hymem)
    rw [update_of_ne haz, update_of_ne hax, update_of_ne haz,
      update_of_ne hay]
    exact ⟨rfl, rfl⟩

end TimerLoop

/-! ## The rings hold the timers -/

namespace TimerLoop

/-- The events of a list of timers. -/
def timerPtrs (l : List Timer) : List EvPtr := l.map fun t => .event t.ev

/-- The events of a list of entries. -/
def entryPtrs (l : List Entry) : List EvPtr := l.map fun e => .event e.ev

/-- Where the loop goes on. -/
def pcOf (part : LoopPart) (pending : List Entry) : TimerPc :=
  match part with
  | .timeouts => .timeouts
  | .readies => .readies
  | .firing => .firing ((entryPtrs pending).headD .pending_list)

/-- The two rings, of these timers and these entries. -/
structure Rings (next prev : EvPtr → EvPtr) (l : List Timer) (k : List Entry) : Prop where
  waiting : LinkedRing next prev .timer_list (timerPtrs l)
  pending : LinkedRing next prev .pending_list (entryPtrs k)
  apart : ∀ p ∈ timerPtrs l, p ∉ entryPtrs k

/-- The rings are those of the timers that wait and of the entries that are to be called. -/
structure Refines (w : TimerLoop) (q : TimerQueue) : Prop where
  rings : Rings w.next w.prev q.waiting q.pending
  timeout : ∀ t ∈ q.waiting, w.timeout (.event t.ev) = t.timeout
  called : w.called = entryPtrs q.called
  now : w.now = q.now
  adds : w.adds = q.timers.length
  pc : w.pc = pcOf q.part q.pending

variable {w : TimerLoop} {q : TimerQueue} {l l₁ l₂ : List Timer} {k k₁ k₂ : List Entry} {t : Timer}
  {e : Entry} {ev : Nat} {p : EvPtr}

theorem exists_of_mem_timerPtrs (h : p ∈ timerPtrs l) : ∃ ev, p = .event ev := by
  obtain ⟨t, -, rfl⟩ := List.mem_map.1 h
  exact ⟨t.ev, rfl⟩

theorem exists_of_mem_entryPtrs (h : p ∈ entryPtrs k) : ∃ ev, p = .event ev := by
  obtain ⟨e, -, rfl⟩ := List.mem_map.1 h
  exact ⟨e.ev, rfl⟩

theorem null_not_mem_timers : .null ∉ .timer_list :: timerPtrs l := by
  intro h
  rcases List.mem_cons.1 h with h | h
  · cases h
  · obtain ⟨ev, h⟩ := exists_of_mem_timerPtrs h
    cases h

theorem null_not_mem_entries : .null ∉ .pending_list :: entryPtrs k := by
  intro h
  rcases List.mem_cons.1 h with h | h
  · cases h
  · obtain ⟨ev, h⟩ := exists_of_mem_entryPtrs h
    cases h

theorem pending_list_not_mem_timers : .pending_list ∉ .timer_list :: timerPtrs l := by
  intro h
  rcases List.mem_cons.1 h with h | h
  · cases h
  · obtain ⟨ev, h⟩ := exists_of_mem_timerPtrs h
    cases h

theorem timer_list_not_mem_entries : .timer_list ∉ .pending_list :: entryPtrs k := by
  intro h
  rcases List.mem_cons.1 h with h | h
  · cases h
  · obtain ⟨ev, h⟩ := exists_of_mem_entryPtrs h
    cases h

theorem Refines.init (now : Timeval) : Refines (TimerLoop.init now) (TimerQueue.init now) where
  rings := ⟨LinkedRing.nil_iff.2 ⟨rfl, rfl⟩, LinkedRing.nil_iff.2 ⟨rfl, rfl⟩,
    fun _ h => absurd h List.not_mem_nil⟩
  timeout _ h := absurd h List.not_mem_nil
  called := rfl
  now := rfl
  adds := rfl
  pc := rfl

/-! ### What the list functions do to the rings -/

namespace Rings

variable {next prev : EvPtr → EvPtr}

theorem not_mem_entries (h : Rings next prev l k) {a : EvPtr}
    (ha : a ∈ .timer_list :: timerPtrs l) : a ∉ .pending_list :: entryPtrs k := by
  intro hmem
  rcases List.mem_cons.1 ha with rfl | ha
  · exact timer_list_not_mem_entries hmem
  · rcases List.mem_cons.1 hmem with rfl | hmem
    · exact pending_list_not_mem_timers (List.mem_cons_of_mem _ ha)
    · exact h.apart a ha hmem

theorem not_mem_timers (h : Rings next prev l k) {a : EvPtr}
    (ha : a ∈ .pending_list :: entryPtrs k) : a ∉ .timer_list :: timerPtrs l :=
  fun hmem => h.not_mem_entries hmem ha

theorem not_mem_of_next_eq_null (h : Rings next prev l k) (hp : next (.event ev) = .null) :
    .event ev ∉ .timer_list :: timerPtrs l ∧ .event ev ∉ .pending_list :: entryPtrs k :=
  ⟨fun hmem => null_not_mem_timers (hp ▸ (h.waiting.prev_next hmem).1),
    fun hmem => null_not_mem_entries (hp ▸ (h.pending.prev_next hmem).1)⟩

theorem timerPtrs_append : timerPtrs (l₁ ++ l₂) = timerPtrs l₁ ++ timerPtrs l₂ :=
  List.map_append ..

theorem entryPtrs_append : entryPtrs (k₁ ++ k₂) = entryPtrs k₁ ++ entryPtrs k₂ :=
  List.map_append ..

theorem place (h : Rings w.next w.prev (l₁ ++ l₂) k) {list : EvPtr}
    (hlist : (timerPtrs l₂ ++ [EvPtr.timer_list]).head? = some list)
    (ht : w.next (.event t.ev) = .null) :
    ∃ next prev, addToList (.event t.ev) list w = .ok { w with next := next, prev := prev } ∧
      Rings next prev (l₁ ++ t :: l₂) k := by
  obtain ⟨hnot, hnot'⟩ := h.not_mem_of_next_eq_null ht
  have hwaiting := h.waiting
  rw [timerPtrs_append] at hwaiting hnot
  obtain ⟨next, prev, hadd, hring, hkeep⟩ := addToList_ok (timerPtrs l₁) (timerPtrs l₂) hwaiting
    hlist hnot (by simp) (timerPtrs_append ▸ null_not_mem_timers)
  have hother : ∀ a ∈ .pending_list :: entryPtrs k, next a = w.next a ∧ prev a = w.prev a := by
    intro a ha
    refine hkeep a fun hmem => ?_
    rcases List.mem_cons.1 hmem with rfl | hmem
    · exact hnot' ha
    · exact h.not_mem_timers ha (timerPtrs_append ▸ hmem)
  refine ⟨next, prev, hadd, ?_, h.pending.congr (fun a ha => (hother a ha).1)
    (fun a ha => (hother a ha).2), ?_⟩
  · rw [timerPtrs_append]
    exact hring
  · intro p hp hmem
    rw [timerPtrs_append] at hp
    rcases List.mem_append.1 hp with hp | hp
    · exact h.apart p (timerPtrs_append ▸ List.mem_append_left _ hp) hmem
    · rcases List.mem_cons.1 hp with rfl | hp
      · exact hnot' (List.mem_cons_of_mem _ hmem)
      · exact h.apart p (timerPtrs_append ▸ List.mem_append_right _ hp) hmem

theorem append (h : Rings w.next w.prev l k) (hnot : .event e.ev ∉ .timer_list :: timerPtrs l)
    (hnot' : .event e.ev ∉ .pending_list :: entryPtrs k) :
    ∃ next prev, addToList (.event e.ev) .pending_list w =
        .ok { w with next := next, prev := prev } ∧ Rings next prev l (k ++ [e]) := by
  have hpending := h.pending
  have hnull := null_not_mem_entries (k := k)
  rw [← List.append_nil (entryPtrs k)] at hpending hnot' hnull
  obtain ⟨next, prev, hadd, hring, hkeep⟩ := addToList_ok (entryPtrs k) [] hpending rfl hnot'
    (by simp) hnull
  rw [List.append_nil] at hkeep
  have hother : ∀ a ∈ .timer_list :: timerPtrs l, next a = w.next a ∧ prev a = w.prev a := by
    intro a ha
    refine hkeep a fun hmem => ?_
    rcases List.mem_cons.1 hmem with rfl | hmem
    · exact hnot ha
    · exact h.not_mem_entries ha hmem
  refine ⟨next, prev, hadd, h.waiting.congr (fun a ha => (hother a ha).1)
    (fun a ha => (hother a ha).2), ?_, ?_⟩
  · rw [entryPtrs_append]
    exact hring
  · intro p hp hmem
    rw [entryPtrs_append] at hmem
    rcases List.mem_append.1 hmem with hmem | hmem
    · exact h.apart p hp hmem
    · obtain rfl : p = .event e.ev := List.mem_singleton.1 hmem
      exact hnot (List.mem_cons_of_mem _ hp)

theorem takeTimer (h : Rings w.next w.prev (t :: l) k) :
    ∃ next prev, removeFromList (.event t.ev) w = .ok { w with next := next, prev := prev } ∧
      Rings next prev l k ∧ .event t.ev ∉ .timer_list :: timerPtrs l ∧
      .event t.ev ∉ .pending_list :: entryPtrs k := by
  have hmem : .event t.ev ∈ .timer_list :: timerPtrs (t :: l) := by simp [timerPtrs]
  have hwaiting : LinkedRing w.next w.prev .timer_list ([] ++ .event t.ev :: timerPtrs l) :=
    h.waiting
  obtain ⟨next, prev, hremove, hring, -, hkeep⟩ := removeFromList_ok [] (timerPtrs l) hwaiting
    (null_not_mem_timers (l := t :: l))
  have hother : ∀ a ∈ .pending_list :: entryPtrs k, next a = w.next a ∧ prev a = w.prev a :=
    fun a ha => hkeep a (h.not_mem_timers ha)
  refine ⟨next, prev, hremove, ⟨hring, h.pending.congr (fun a ha => (hother a ha).1)
    (fun a ha => (hother a ha).2), fun p hp => h.apart p (List.mem_cons_of_mem _ hp)⟩, ?_,
    h.not_mem_entries hmem⟩
  have hnodup := h.waiting.nodup
  rw [timerPtrs, List.map_cons, List.nodup_cons, List.nodup_cons] at hnodup
  rw [List.mem_cons, not_or]
  exact ⟨by simp, hnodup.2.1⟩

theorem takeEntry (h : Rings w.next w.prev l (e :: k)) :
    ∃ next prev, removeFromList (.event e.ev) w = .ok { w with next := next, prev := prev } ∧
      Rings next prev l k := by
  have hpending : LinkedRing w.next w.prev .pending_list ([] ++ .event e.ev :: entryPtrs k) :=
    h.pending
  obtain ⟨next, prev, hremove, hring, -, hkeep⟩ := removeFromList_ok [] (entryPtrs k) hpending
    (null_not_mem_entries (k := e :: k))
  have hother : ∀ a ∈ .timer_list :: timerPtrs l, next a = w.next a ∧ prev a = w.prev a :=
    fun a ha => hkeep a (h.not_mem_entries ha)
  exact ⟨next, prev, hremove, h.waiting.congr (fun a ha => (hother a ha).1)
    (fun a ha => (hother a ha).2), hring,
    fun p hp hmem => h.apart p hp (List.mem_cons_of_mem _ hmem)⟩

end Rings

/-! ### Adding a timer -/

theorem placeFrom_ok (timeout : Timeval) (l₁ l₂ : List Timer)
    (hring : LinkedRing w.next w.prev .timer_list (timerPtrs (l₁ ++ l₂)))
    (htimeout : ∀ t ∈ l₂, w.timeout (.event t.ev) = t.timeout) (n : Nat) (hn : l₂.length < n)
    {p : EvPtr} (hp : (timerPtrs l₂ ++ [EvPtr.timer_list]).head? = some p) :
    ∃ list, placeFrom timeout w n p = .ok list ∧
      (timerPtrs (l₂.dropWhile fun t => t.timeout.lt timeout) ++ [EvPtr.timer_list]).head? =
        some list := by
  induction l₂ generalizing l₁ n p with
  | nil =>
    obtain ⟨n, rfl⟩ : ∃ i, n = i + 1 := Nat.exists_eq_succ_of_ne_zero (Nat.ne_of_gt hn)
    obtain rfl : .timer_list = p := Option.some.inj hp
    refine ⟨.timer_list, ?_, rfl⟩
    rw [placeFrom, deref_ok (by decide), ok_bind, if_neg fun h => h.2 rfl]
  | cons t l₂ ih =>
    obtain ⟨n, rfl⟩ : ∃ i, n = i + 1 := Nat.exists_eq_succ_of_ne_zero (Nat.ne_of_gt
      (Nat.lt_of_le_of_lt (Nat.zero_le _) hn))
    obtain rfl : .event t.ev = p := Option.some.inj hp
    rw [placeFrom, deref_ok (by simp), ok_bind, htimeout t (List.mem_cons_self ..),
      List.dropWhile_cons]
    by_cases hsooner : t.timeout.lt timeout = true
    · rw [if_pos ⟨hsooner, by simp⟩, if_pos hsooner]
      have hsplit : timerPtrs (l₁ ++ t :: l₂) =
          timerPtrs l₁ ++ .event t.ev :: timerPtrs l₂ := by
        simp [timerPtrs]
      have hnext := (hsplit ▸ hring).neighbours.2
      exact ih (l₁ ++ [t]) (by simpa using hring)
        (fun s hs => htimeout s (List.mem_cons_of_mem t hs)) n (Nat.lt_of_succ_lt_succ hn) hnext
    · rw [if_neg fun h => hsooner h.1, if_neg hsooner]
      exact ⟨.event t.ev, rfl, rfl⟩

theorem Refines.timerAdd (h : Refines w q) (hle : q.waiting.length ≤ q.timers.length)
    (hev : w.next (.event ev) = .null) (tv now : Timeval) :
    ∃ w', ril_timer_add ev (some tv) now w = .ok w' ∧ Refines w' (q.timerAdd ev tv now) := by
  have hnot := (h.rings.not_mem_of_next_eq_null hev).1
  have hne : ∀ t ∈ q.waiting, EvPtr.event t.ev ≠ .event ev := fun t ht heq =>
    hnot (heq ▸ List.mem_cons_of_mem _ (List.mem_map_of_mem ht))
  have htimeout : ∀ t ∈ q.waiting,
      update w.timeout (.event ev) (now.add tv) (.event t.ev) = t.timeout := by
    intro t ht
    rw [update_of_ne (hne t ht)]
    exact h.timeout t ht
  have hsplit : q.waiting.takeWhile (fun t => t.timeout.lt (now.add tv)) ++
      q.waiting.dropWhile (fun t => t.timeout.lt (now.add tv)) = q.waiting :=
    List.takeWhile_append_dropWhile
  rw [ril_timer_add]
  obtain ⟨list, hplace, hlist⟩ := placeFrom_ok (w := { w with
      fd := update w.fd (.event ev) (-1)
      timeout := update w.timeout (.event ev) (now.add tv)
      now := now
      adds := w.adds + 1 }) (now.add tv) [] q.waiting h.rings.waiting htimeout
    (w.adds + 1) (by rw [h.adds]; omega) h.rings.waiting.next_base
  obtain ⟨next, prev, hadd, hrings⟩ := Rings.place (w := { w with
      fd := update w.fd (.event ev) (-1)
      timeout := update w.timeout (.event ev) (now.add tv)
      now := now
      adds := w.adds + 1 }) (t := q.newTimer ev tv now) (hsplit.symm ▸ h.rings) hlist hev
  refine ⟨{ w with
      next := next
      prev := prev
      fd := update w.fd (.event ev) (-1)
      timeout := update w.timeout (.event ev) (now.add tv)
      now := now
      adds := w.adds + 1 }, ?_, ⟨hrings, ?_, h.called, rfl, ?_, h.pc⟩⟩
  · rw [hplace, ok_bind]
    exact hadd
  · intro t ht
    rcases List.mem_append.1 ht with ht | ht
    · exact htimeout t (hsplit ▸ List.mem_append_left _ ht)
    · rcases List.mem_cons.1 ht with rfl | ht
      · exact update_self ..
      · exact htimeout t (hsplit ▸ List.mem_append_right _ ht)
  · simp [TimerQueue.timerAdd, h.adds]

/-! ### A turn of the loop -/

theorem expireFrom_ok (now : Timeval) (l : List Timer) (k : List Entry)
    (hrings : Rings w.next w.prev l k) (htimeout : ∀ t ∈ l, w.timeout (.event t.ev) = t.timeout)
    (n : Nat) (hn : l.length < n) {p : EvPtr}
    (hp : (timerPtrs l ++ [EvPtr.timer_list]).head? = some p) :
    ∃ next prev, expireFrom now n p w = .ok { w with next := next, prev := prev } ∧
      Rings next prev (l.dropWhile fun t => t.timeout.lt now)
        (k ++ (l.takeWhile fun t => t.timeout.lt now).map Entry.timer) := by
  induction l generalizing w k n p with
  | nil =>
    obtain ⟨n, rfl⟩ : ∃ i, n = i + 1 := Nat.exists_eq_succ_of_ne_zero (Nat.ne_of_gt hn)
    obtain rfl : .timer_list = p := Option.some.inj hp
    refine ⟨w.next, w.prev, ?_, by simpa using hrings⟩
    rw [expireFrom, deref_ok (by decide), ok_bind, if_neg fun h => h.1 rfl]
  | cons t l ih =>
    obtain ⟨n, rfl⟩ : ∃ i, n = i + 1 := Nat.exists_eq_succ_of_ne_zero (Nat.ne_of_gt
      (Nat.lt_of_le_of_lt (Nat.zero_le _) hn))
    obtain rfl : .event t.ev = p := Option.some.inj hp
    rw [expireFrom, deref_ok (by simp), ok_bind, htimeout t (List.mem_cons_self ..),
      List.dropWhile_cons, List.takeWhile_cons]
    by_cases hdue : t.timeout.lt now = true
    · rw [if_pos ⟨by simp, hdue⟩, if_pos hdue, if_pos hdue, List.map_cons]
      have hnext := (show LinkedRing w.next w.prev .timer_list
        ([] ++ .event t.ev :: timerPtrs l) from hrings.waiting).neighbours.2
      obtain ⟨next₁, prev₁, hremove, hrings₁, hnot, hnot'⟩ := hrings.takeTimer
      obtain ⟨next₂, prev₂, hadd, hrings₂⟩ :=
        Rings.append (w := { w with next := next₁, prev := prev₁ }) (e := .timer t) hrings₁ hnot
          hnot'
      obtain ⟨next, prev, hexpire, hrings'⟩ :=
        ih (w := { w with next := next₂, prev := prev₂ }) (k ++ [.timer t]) hrings₂
          (fun s hs => htimeout s (List.mem_cons_of_mem t hs)) n (Nat.lt_of_succ_lt_succ hn) hnext
      refine ⟨next, prev, ?_, ?_⟩
      · dsimp only
        rw [hremove, ok_bind]
        exact (congrArg (· >>= _) hadd).trans hexpire
      · rw [List.append_assoc, List.singleton_append] at hrings'
        exact hrings'
    · rw [if_neg fun h => hdue h.2, if_neg hdue, if_neg hdue]
      exact ⟨w.next, w.prev, rfl, by simpa using hrings⟩

theorem Refines.processTimeouts (h : Refines w q) (hle : q.waiting.length ≤ q.timers.length)
    (now : Timeval) :
    ∃ w', TimerLoop.processTimeouts now w = .ok w' ∧ Refines w' (q.processTimeouts now) := by
  obtain ⟨next, prev, hexpire, hrings⟩ := expireFrom_ok now q.waiting q.pending h.rings
    h.timeout (w.adds + 1) (by rw [h.adds]; omega) h.rings.waiting.next_base
  refine ⟨{ w with next := next, prev := prev, now := now, pc := .readies }, ?_,
    ⟨hrings, fun t ht => h.timeout t ?_, h.called, rfl, h.adds, rfl⟩⟩
  · rw [TimerLoop.processTimeouts, hexpire, ok_bind]
  · rw [← List.takeWhile_append_dropWhile (p := fun t => t.timeout.lt now) (l := q.waiting)]
    exact List.mem_append_right _ ht

theorem Refines.readReady (h : Refines w q) (hpart : q.part = .readies)
    (hev : w.next (.event ev) = .null) :
    ∃ w', TimerLoop.readReady ev w = .ok w' ∧ Refines w' (q.readReady ev) := by
  obtain ⟨hnot, hnot'⟩ := h.rings.not_mem_of_next_eq_null hev
  obtain ⟨next, prev, hadd, hrings⟩ := h.rings.append (e := .ready ev) hnot hnot'
  refine ⟨_, hadd, ⟨hrings, h.timeout, h.called, h.now, h.adds, ?_⟩⟩
  have hpc := h.pc
  rw [hpart] at hpc
  rw [TimerQueue.readReady, hpart]
  exact hpc

theorem Refines.firePending (h : Refines w q) :
    ∃ w', TimerLoop.firePending w = .ok w' ∧ Refines w' q.firePending := by
  have hhead : (entryPtrs q.pending).headD .pending_list = w.next .pending_list := by
    have hnext := h.rings.pending.next_base
    cases hptrs : entryPtrs q.pending with
    | nil | cons p ptrs =>
      rw [hptrs] at hnext
      exact Option.some.inj hnext
  rw [TimerLoop.firePending, TimerQueue.firePending, h.pc]
  cases hpart : q.part with
  | timeouts | readies =>
    refine ⟨_, rfl, ⟨h.rings, h.timeout, h.called, h.now, h.adds, ?_⟩⟩
    rw [pcOf, ← hhead]
  | firing =>
    cases hpending : q.pending with
    | nil =>
      have hrings := h.rings
      rw [hpending] at hrings
      exact ⟨_, if_pos rfl, ⟨hrings, h.timeout, h.called, h.now, h.adds, rfl⟩⟩
    | cons e pending =>
      have hrings := h.rings
      rw [hpending] at hrings
      have hnext := (show LinkedRing w.next w.prev .pending_list
        ([] ++ .event e.ev :: entryPtrs pending) from hrings.pending).neighbours.2
      obtain ⟨next, prev, hremove, hrings'⟩ := hrings.takeEntry
      have hgo : w.next (.event e.ev) = (entryPtrs pending).headD .pending_list := by
        cases hptrs : entryPtrs pending with
        | nil | cons p ptrs =>
          rw [hptrs] at hnext
          exact (Option.some.inj hnext).symm
      refine ⟨{ w with
        next := next
        prev := prev
        called := w.called ++ [.event e.ev]
        pc := .firing (w.next (.event e.ev)) }, ?_,
        ⟨hrings', h.timeout, ?_, h.now, h.adds, ?_⟩⟩
      · have hfirst : (entryPtrs (e :: pending)).headD .pending_list = .event e.ev := rfl
        dsimp only [pcOf]
        rw [hfirst, if_neg (by simp), deref_ok (by simp), ok_bind, hremove, ok_bind]
      · rw [h.called]
        exact (show entryPtrs (q.called ++ [e]) = entryPtrs q.called ++ [.event e.ev] from
          List.map_append ..).symm
      · rw [hgo, pcOf]

end TimerLoop

/-! ## Runs -/

namespace TimerLoop

/-- What a call does to the timers. -/
def act (q : TimerQueue) : TimerCall → TimerQueue
  | .timerAdd _ none _ => q
  | .timerAdd ev (some tv) now => q.timerAdd ev tv now
  | .processTimeouts now => q.processTimeouts now
  | .readReady rev => q.readReady rev
  | .firePending => q.firePending

/-- The timers after these calls. -/
def queueAfter (now : Timeval) (calls : List TimerCall) : TimerQueue :=
  calls.foldl act (.init now)

/-- The event, the relative time and the clock of a timer that is added. -/
def adds? : TimerCall → Option (Nat × Timeval × Timeval)
  | .timerAdd ev (some tv) now => some (ev, tv, now)
  | _ => none

variable {w : TimerLoop} {q : TimerQueue} {c : TimerCall}

theorem Refines.step (h : Refines w q) (hq : q.Inv) (hc : Allowed w c) :
    ∃ w', TimerLoop.step w c = .ok (w', ()) ∧ Refines w' (act q c) ∧ (act q c).Inv := by
  have hle : q.waiting.length ≤ q.timers.length := by
    rw [← hq.once.length_eq, List.length_append]
    exact Nat.le_add_right ..
  have hpart : ∀ part, w.pc = pcOf part q.pending → part ≠ .firing → q.part = part := by
    intro part hpc hne
    rw [h.pc] at hpc
    cases hq : q.part <;> cases part <;> simp_all [pcOf]
  cases c with
  | timerAdd ev tv now =>
    cases tv with
    | none => exact ⟨w, rfl, h, hq⟩
    | some tv =>
      obtain ⟨w', hadd, h'⟩ := h.timerAdd hle hc.1 tv now
      refine ⟨w', ?_, h', hq.timerAdd (h.now ▸ hc.2) ev tv⟩
      rw [TimerLoop.step, hadd, ok_bind]
  | processTimeouts now =>
    obtain ⟨w', hprocess, h'⟩ := h.processTimeouts hle now
    refine ⟨w', ?_, h', hq.processTimeouts (h.now ▸ hc.2)⟩
    rw [TimerLoop.step, hprocess, ok_bind]
  | readReady rev =>
    have hreadies : q.part = .readies := hpart .readies hc.1 (by decide)
    obtain ⟨w', hready, h'⟩ := h.readReady hreadies hc.2
    refine ⟨w', ?_, h', hq.readReady hreadies rev⟩
    rw [TimerLoop.step, hready, ok_bind]
  | firePending =>
    obtain ⟨w', hfire, h'⟩ := h.firePending
    refine ⟨w', ?_, h', hq.firePending⟩
    rw [TimerLoop.step, hfire, ok_bind]

theorem run_refines {now : Timeval} {tr : List (TimerCall × Unit)}
    (run : Run TimerLoop.step Allowed (init now) tr w) :
    Refines w (queueAfter now (tr.map Prod.fst)) ∧ (queueAfter now (tr.map Prod.fst)).Inv := by
  induction run with
  | nil => exact ⟨.init now, .init now⟩
  | @snoc tr w w' c r _ hstep hc ih =>
    obtain ⟨w₁, hstep₁, h₁, hq₁⟩ := ih.1.step ih.2 hc
    obtain rfl : w₁ = w' := by
      rw [hstep₁] at hstep
      exact (ok_pair hstep).1
    rw [List.map_append, queueAfter, List.foldl_append]
    exact ⟨h₁, hq₁⟩

theorem timers_queueAfter (now : Timeval) (calls : List TimerCall) :
    (queueAfter now calls).timers.map (fun t => (t.ev, t.tv, t.added)) =
      calls.filterMap adds? := by
  have hgen : ∀ q : TimerQueue, (calls.foldl act q).timers.map (fun t => (t.ev, t.tv, t.added)) =
      q.timers.map (fun t => (t.ev, t.tv, t.added)) ++ calls.filterMap adds? := by
    induction calls with
    | nil => exact fun q => (List.append_nil _).symm
    | cons c calls ih =>
      intro q
      rw [List.foldl_cons, ih]
      cases c with
      | timerAdd ev tv now =>
        cases tv with
        | none => rfl
        | some tv => simp [act, TimerQueue.timerAdd, TimerQueue.newTimer, adds?]
      | processTimeouts now => rfl
      | readReady rev => rfl
      | firePending =>
        have hsame : q.firePending.timers = q.timers := by
          rw [TimerQueue.firePending]
          split
          · split <;> rfl
          · rfl
        rw [act, hsame]
        rfl
  exact hgen (.init now)

/-- What holds of the timers that these calls added, when the loop has come to this state. -/
structure Kept (now : Timeval) (calls : List TimerCall) (w : TimerLoop) (q : TimerQueue) :
    Prop where
  /-- The timer list is a ring, sorted by timeouts. -/
  ring : LinkedRing w.next w.prev .timer_list (timerPtrs q.waiting)
  sorted : (timerPtrs q.waiting).Pairwise fun s t => (w.timeout t).lt (w.timeout s) = false
  /-- The timers are those of the calls, and each has its own number. -/
  added : q.timers.map (fun t => (t.ev, t.tv, t.added)) = calls.filterMap adds?
  ids : q.timers.map Timer.id = List.range q.timers.length
  /-- Each waits, is to be called or was called, and is in one place only. -/
  once : (q.waiting ++ (q.pending.filterMap Entry.timer? ++ q.fired)).Perm q.timers
  called : w.called = entryPtrs q.called
  /-- None was called before its timeout. -/
  late : ∀ t ∈ q.fired, t.timeout.lt w.now = true
  /-- If its timeout had passed when the loop looked, it was called in that turn. -/
  fires : ∀ t ∈ q.timers, t.id < q.swept.1 → t.timeout.lt q.swept.2 = true →
    w.pc = .timeouts → t ∈ q.fired
  order : q.fired.Pairwise TimerQueue.InOrder
  /-- Whatever may be done next works. -/
  goes : ∀ c, Allowed w c → ∃ w', step w c = .ok (w', ())

/-- In every run, the timer list is a sorted ring; every timer is called once, not before its
    timeout and in the turn of the loop that finds its timeout passed; and timers are called in the
    order of their timeouts, apart from those that were added with a negative time when later ones
    had expired. -/
theorem run_timers {now : Timeval} {tr : List (TimerCall × Unit)}
    (run : Run step Allowed (init now) tr w) :
    Kept now (tr.map Prod.fst) w (queueAfter now (tr.map Prod.fst)) := by
  obtain ⟨h, hq⟩ := run_refines run
  refine ⟨h.rings.waiting, ?_, timers_queueAfter now _, hq.ids, hq.once', h.called, ?_, ?_,
    hq.fired_order, ?_⟩
  · rw [timerPtrs, List.pairwise_map]
    refine hq.sorted.imp_of_mem fun hs ht hst => ?_
    rw [h.timeout _ hs, h.timeout _ ht]
    exact hst
  · intro t ht
    rw [h.now]
    exact hq.fired_late ht
  · intro t ht hid hlt hpc
    refine hq.mem_fired ht hid hlt ?_
    rw [h.pc] at hpc
    cases hpart : (queueAfter now (tr.map Prod.fst)).part <;> simp_all [pcOf]
  · intro c hc
    obtain ⟨w', hstep, -, -⟩ := h.step hq hc
    exact ⟨w', hstep⟩

/-- In every run, the loop waits until the soonest of the timers that wait is due. -/
theorem run_nextTimeout {now₀ : Timeval} {tr : List (TimerCall × Unit)}
    (run : Run step Allowed (init now₀) tr w) (now : Timeval) :
    ((queueAfter now₀ (tr.map Prod.fst)).waiting = [] ∧ calcNextTimeout now w = .ok none) ∨
      ∃ t ∈ (queueAfter now₀ (tr.map Prod.fst)).waiting,
        (∀ s ∈ (queueAfter now₀ (tr.map Prod.fst)).waiting, s.timeout.lt t.timeout = false) ∧
          calcNextTimeout now w =
            .ok (some (if now.lt t.timeout then t.timeout.sub now else ⟨0, 0⟩)) := by
  obtain ⟨h, hq⟩ := run_refines run
  have hnext := h.rings.waiting.next_base
  have htimeout := h.timeout
  have hsorted := hq.sorted
  cases hwaiting : (queueAfter now₀ (tr.map Prod.fst)).waiting with
  | nil =>
    rw [hwaiting] at hnext
    exact .inl ⟨rfl, if_pos (Option.some.inj hnext).symm⟩
  | cons t rest =>
    rw [hwaiting] at hnext htimeout hsorted
    have hfirst : w.next .timer_list = .event t.ev := (Option.some.inj hnext).symm
    refine .inr ⟨t, List.mem_cons_self, fun s hs => ?_, ?_⟩
    · rcases List.mem_cons.1 hs with rfl | hs
      · rw [Timeval.not_lt_iff]
        omega
      · exact (List.pairwise_cons.1 hsorted).1 s hs
    · rw [calcNextTimeout, hfirst, if_neg (by simp), deref_ok (by simp), ok_bind,
        htimeout t List.mem_cons_self]

theorem run_nextTimeout_second : ∃ tr w, Run step Allowed (init ⟨0, 0⟩) tr w ∧
    tr.map Prod.fst = [.timerAdd 0 (some ⟨9, 0⟩) ⟨0, 0⟩, .timerAdd 1 (some ⟨5, 0⟩) ⟨0, 0⟩] ∧
      ∃ t ∈ (queueAfter ⟨0, 0⟩ (tr.map Prod.fst)).waiting, calcNextTimeout ⟨1, 0⟩ w =
        .ok (some (if Timeval.lt ⟨1, 0⟩ t.timeout then t.timeout.sub ⟨1, 0⟩ else ⟨0, 0⟩)) := by
  obtain ⟨tr, w, run, hcalls, -⟩ := Run.exists_of_allMeet (C := Allowed)
    (g := fun w : TimerLoop => w.next .timer_list)
    (show (exec step (init ⟨0, 0⟩) [.timerAdd 0 (some ⟨9, 0⟩) ⟨0, 0⟩,
      .timerAdd 1 (some ⟨5, 0⟩) ⟨0, 0⟩]).toOption.map (fun x => x.1.next .timer_list) =
        some (.event 1) by decide +kernel) (by decide +kernel)
  rcases run_nextTimeout run ⟨1, 0⟩ with ⟨hnone, -⟩ | ⟨t, ht, -, hwait⟩
  · rw [hcalls] at hnone
    exact absurd hnone (by decide +kernel)
  · exact ⟨tr, w, run, hcalls, t, ht, hwait⟩

/-- A timer expires and is called; then one is added that should have been called before it. -/
def backInTime : List TimerCall :=
  [.timerAdd 0 (some ⟨10, 0⟩) ⟨0, 0⟩, .processTimeouts ⟨11, 0⟩, .firePending, .firePending,
    .firePending, .timerAdd 1 (some ⟨-7, 0⟩) ⟨12, 0⟩, .processTimeouts ⟨13, 0⟩, .firePending,
    .firePending]

theorem run_timers_back : ∃ tr w, Run step Allowed (init ⟨0, 0⟩) tr w ∧
    tr.map Prod.fst = backInTime ∧ w.called = [.event 0, .event 1] ∧
      Kept ⟨0, 0⟩ (tr.map Prod.fst) w (queueAfter ⟨0, 0⟩ (tr.map Prod.fst)) := by
  obtain ⟨tr, w, run, hcalls, hcalled⟩ := Run.exists_of_allMeet (C := Allowed)
    (g := fun w : TimerLoop => w.called)
    (show (exec step (init ⟨0, 0⟩) backInTime).toOption.map (fun x => x.1.called) =
      some [.event 0, .event 1] by decide +kernel) (by decide +kernel)
  exact ⟨tr, w, run, hcalls, hcalled, run_timers run⟩

/-- Each of the two was added once, and their timeouts are not in the order of the calls. -/
theorem run_timers_out_of_order : ∃ tr w, Run step Allowed (init ⟨0, 0⟩) tr w ∧
    tr.map Prod.fst = backInTime ∧
      ¬ w.called.Pairwise fun s t => (w.timeout t).lt (w.timeout s) = false := by
  obtain ⟨tr, w, run, hcalls, hw⟩ := Run.exists_of_allMeet (C := Allowed)
    (g := fun w : TimerLoop => (w.called, w.timeout (.event 0), w.timeout (.event 1)))
    (show (exec step (init ⟨0, 0⟩) backInTime).toOption.map
      (fun x => (x.1.called, x.1.timeout (.event 0), x.1.timeout (.event 1))) =
        some ([.event 0, .event 1], ⟨10, 0⟩, ⟨5, 0⟩) by decide +kernel) (by decide +kernel)
  simp only [Prod.mk.injEq] at hw
  obtain ⟨hcalled, h0, h1⟩ := hw
  refine ⟨tr, w, run, hcalls, fun hordered => ?_⟩
  rw [hcalled, List.pairwise_pair, h0, h1] at hordered
  exact absurd hordered (by decide)

end TimerLoop

end Nx508j.Ril
