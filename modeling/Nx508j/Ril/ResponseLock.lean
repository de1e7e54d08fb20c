import Nx508j.Lib.Memory
import Nx508j.Lib.RwLock

/-! # The lock of the client callbacks

The callbacks of a client are installed by `setResponseFunctions`, called by the responses and
indications, and cleared by `checkReturnStatus` when a call has failed. It gives the lock of the
slot up in between, and tells by a counter whether the callbacks have been replaced meanwhile. What
is done in a section under the lock, and each call that takes or gives it up, is one step; the steps
of all threads come in any order. -/

namespace Nx508j.Ril

open Nx508j.Lib Function

/-! ## The callbacks -/

inductive RilService where
  | radio
  | oemHook
deriving DecidableEq, Repr

/-- `mRadioResponse` and so on, or `mOemHookResponse` and `mOemHookIndication`. -/
inductive RilCallback where
  | response
  | indication
  | responseV1_1
  | indicationV1_1
deriving DecidableEq, Repr

/-- A service of a slot. -/
structure RilSite where
  slotId : Nat
  service : RilService
deriving DecidableEq, Repr

/-- The callbacks of a service with its `mCounterRadio` or `mCounterOemHook`. The sets that
    `setResponseFunctions` installs are numbered, and a callback is told by its set. -/
structure RilClient where
  callbacks : RilCallback → Option Nat := fun _ => none
  counter : Nat := 0

/-- What `setResponseFunctions` stores. `given` says which of its arguments, and of what `castFrom`
    makes of them, are not null. -/
def installed (given : RilCallback → Bool) (set : Nat) : RilService → RilCallback → Option Nat
  | _, .response => if given .response then some set else none
  | _, .indication => if given .indication then some set else none
  | .radio, .responseV1_1 | .radio, .indicationV1_1 =>
    if given .responseV1_1 && given .indicationV1_1 then some set else none
  | .oemHook, .responseV1_1 | .oemHook, .indicationV1_1 => none

theorem installed_eq {given : RilCallback → Bool} {set s : Nat} {service : RilService}
    {c : RilCallback} (h : installed given set service c = some s) : s = set := by
  cases service <;> cases c <;> simp [installed] at h <;> exact h.2.symm

/-- The lock of a slot, by its number, for `SIM_COUNT`. -/
def getRadioServiceRwlock (simCount slotId : Nat) : Nat :=
  if slotId = 2 ∧ 2 ≤ simCount then 2
  else if slotId = 3 ∧ 3 ≤ simCount then 3
  else if slotId = 4 ∧ 4 ≤ simCount then 4
  else 1

/-! ## The threads -/

/-- What is next in `checkReturnStatus` after a failed call. -/
inductive CheckPc where
  | counter
  | unlock
  | wrlock
  | reset
  | release
  | rdlock
deriving DecidableEq, Repr

/-- Its arguments, the set that the call was made on, and the counter it noted. -/
structure RilCheck where
  site : RilSite
  set : Nat
  counter : Nat := 0
deriving DecidableEq, Repr

/-- Where a thread is: not at any of this, before it takes the lock for a section, in a section, in
    `checkReturnStatus`, or in `setResponseFunctions`, before it takes the lock, before it stores
    the callbacks, or before it gives the lock up. A section is `bare` that does not take the lock:
    the `responseFunction` that `sendErrorResponse` calls. -/
inductive RilPc where
  | idle
  | lock (slotId : Nat) (mode : RwMode)
  | run (slotId : Nat) (bare : Bool)
  | check (pc : CheckPc) (bare : Bool) (c : RilCheck)
  | setLock (site : RilSite) (given : RilCallback → Bool)
  | install (site : RilSite) (given : RilCallback → Bool)
  | setUnlock (slotId : Nat)

/-- Kept besides are which sets a call has failed on; whether `checkReturnStatus` was called without
    the lock, a lock was released by a thread that does not hold it, the hold of a thread was ended
    by another, or a set was cleared for another reason than a failed call on it; and whether an
    `assert` failed. -/
structure RilLocks where
  locks : Nat → RwLock Nat := fun _ => .free
  client : RilSite → RilClient := fun _ => {}
  next : Nat := 0
  failed : Nat → Bool := fun _ => false
  pc : Nat → RilPc := fun _ => .idle
  unheld : Bool := false
  released : Bool := false
  ended : Bool := false
  wrong : Bool := false
  aborted : Bool := false

/-- A thread begins a section under the lock (a completion, an acknowledgement or an indication; the
    time indication takes it for writing), or an error response, or `setResponseFunctions`. In a
    section it calls a callback, which fails if the client has died, and leaves it. Or a thread goes
    on in what it has begun. -/
inductive RilLockEvent where
  | begin (t slotId : Nat) (mode : RwMode)
  | sendErrorResponse (t slotId : Nat)
  | setResponseFunctions (t : Nat) (site : RilSite) (given : RilCallback → Bool)
  | call (t : Nat) (service : RilService) (c : RilCallback) (isOk : Bool)
  | leave (t : Nat)
  | go (t : Nat)

namespace RilLocks

variable (simCount : Nat) (w : RilLocks)

/-! ## The steps -/

def setPc (t : Nat) (pc : RilPc) : RilLocks := { w with pc := update w.pc t pc }

/-- `pthread_rwlock_rdlock` or `wrlock`; who has to wait stays where it is. -/
def acquire (t slotId : Nat) (mode : RwMode) (pc : RilPc) : RilLocks :=
  let i := getRadioServiceRwlock simCount slotId
  match (w.locks i).acquire t mode with
  | none => w
  | some l => { w.setPc t pc with locks := update w.locks i l }

/-- `pthread_rwlock_unlock`, with the `assert` after it. -/
def unlock (t slotId : Nat) : RilLocks :=
  let i := getRadioServiceRwlock simCount slotId
  match (w.locks i).ends t with
  | none => { w with released := true, aborted := true }
  | some h =>
    { w with
      locks := update w.locks i ((w.locks i).unlock t)
      released := w.released || h.1 ≠ t
      ended := w.ended || h.1 ≠ t }

/-- A callback is called unless it is null, and then `checkReturnStatus`. -/
def call (t : Nat) (service : RilService) (c : RilCallback) (isOk : Bool) : RilLocks :=
  match w.pc t with
  | .run slotId bare =>
    match (w.client ⟨slotId, service⟩).callbacks c with
    | none => w
    | some set =>
      let held := (w.locks (getRadioServiceRwlock simCount slotId)).Holds t
      let w := { w with unheld := w.unheld || !held }
      if isOk then w
      else
        { w.setPc t (.check .counter bare { site := ⟨slotId, service⟩, set }) with
          failed := update w.failed set true }
  | _ => w

/-- The callbacks of one set, and no others, are there, and a call on it has failed. -/
def Clears (callbacks : RilCallback → Option Nat) (set : Nat) : Prop :=
  w.failed set = true ∧ ∀ c, ∀ s ∈ callbacks c, s = set

instance decidableClears (callbacks : RilCallback → Option Nat) (set : Nat) :
    Decidable (w.Clears callbacks set) :=
  decidable_of_iff (w.failed set = true ∧ ∀ c ∈ [RilCallback.response, .indication, .responseV1_1,
    .indicationV1_1], ∀ s ∈ callbacks c, s = set)
    (and_congr_right fun _ => ⟨fun h c => h c (by cases c <;> simp), fun h c _ => h c⟩)

/-- What `checkReturnStatus` does under the lock for writing. -/
def reset (c : RilCheck) : RilLocks :=
  let r := w.client c.site
  if r.counter = c.counter then
    { w with
      client := update w.client c.site { counter := r.counter + 1 }
      wrong := w.wrong || !w.Clears r.callbacks c.set }
  else w

/-- And `setResponseFunctions`. -/
def install (site : RilSite) (given : RilCallback → Bool) : RilLocks :=
  { w with
    client := update w.client site
      { callbacks := installed given w.next site.service
        counter := (w.client site).counter + 1 }
    next := w.next + 1 }

/-- A thread goes on. -/
def go (t : Nat) : RilLocks :=
  match w.pc t with
  | .idle | .run _ _ => w
  | .lock slotId mode => w.acquire simCount t slotId mode (.run slotId false)
  | .check .counter bare c =>
    w.setPc t (.check .unlock bare { c with counter := (w.client c.site).counter })
  | .check .unlock bare c =>
    (w.unlock simCount t c.site.slotId).setPc t (.check .wrlock bare c)
  | .check .wrlock bare c => w.acquire simCount t c.site.slotId .write (.check .reset bare c)
  | .check .reset bare c => (w.reset c).setPc t (.check .release bare c)
  | .check .release bare c =>
    (w.unlock simCount t c.site.slotId).setPc t (.check .rdlock bare c)
  | .check .rdlock bare c =>
    w.acquire simCount t c.site.slotId .read (.run c.site.slotId bare)
  | .setLock site given => w.acquire simCount t site.slotId .write (.install site given)
  | .install site given => (w.install site given).setPc t (.setUnlock site.slotId)
  | .setUnlock slotId => (w.unlock simCount t slotId).setPc t .idle

/-- The end of a section. -/
def leave (t : Nat) : RilLocks :=
  match w.pc t with
  | .run slotId bare => (if bare then w else w.unlock simCount t slotId).setPc t .idle
  | _ => w

/-- A thread that is not at anything begins. -/
def begin (t : Nat) (pc : RilPc) : RilLocks :=
  match w.pc t with
  | .idle => w.setPc t pc
  | _ => w

/-- An event that cannot happen leaves everything as it is. -/
def advance (e : RilLockEvent) : RilLocks :=
  if w.aborted then w
  else
    match e with
    | .begin t slotId mode => w.begin t (.lock slotId mode)
    | .sendErrorResponse t slotId => w.begin t (.run slotId true)
    | .setResponseFunctions t site given => w.begin t (.setLock site given)
    | .call t service c isOk => w.call simCount t service c isOk
    | .leave t => w.leave simCount t
    | .go t => w.go simCount t

def step (w : RilLocks) (e : RilLockEvent) : Except Fault (RilLocks × Unit) :=
  .ok (w.advance simCount e, ())

/-! ## The property -/

/-- **The property.** Who calls `checkReturnStatus` holds the lock, a lock is released by a thread
    that holds it, and no hold is ended by another thread; and the callbacks that are cleared are
    all of the set that a call has failed on. -/
structure Right (w : RilLocks) : Prop where
  unheld : w.unheld = false
  released : w.released = false
  ended : w.ended = false
  wrong : w.wrong = false

/-- The thread is in an error response, and the callback that it calls is there. -/
def errorCalls (w : RilLocks) (t : Nat) (service : RilService) (c : RilCallback) : Bool :=
  match w.pc t with
  | .run slotId true => ((w.client ⟨slotId, service⟩).callbacks c).isSome
  | _ => false

/-- An error response finds no callback to call. -/
def Meets (w : RilLocks) : RilLockEvent → Prop
  | .call t service c _ => w.errorCalls t service c = false
  | _ => True

instance decidableMeets (w : RilLocks) (e : RilLockEvent) : Decidable (w.Meets e) :=
  match e with
  | .call _ _ _ _ => inferInstanceAs (Decidable (_ = _))
  | .begin _ _ _ | .sendErrorResponse _ _ | .setResponseFunctions _ _ _ | .leave _ | .go _ =>
    inferInstanceAs (Decidable True)

end RilLocks

/-! ## What holds in between -/

/-- The slot whose lock the thread holds. -/
def RilPc.slot : RilPc → Option Nat
  | .run slotId false => some slotId
  | .check .counter _ c | .check .unlock _ c | .check .reset _ c | .check .release _ c =>
    some c.site.slotId
  | .install site _ => some site.slotId
  | .setUnlock slotId => some slotId
  | _ => none

/-- It holds it for writing. -/
def RilPc.writes : RilPc → Bool
  | .check .reset _ _ | .check .release _ _ | .install _ _ | .setUnlock _ => true
  | _ => false

/-- The lock of a slot, if there is one. -/
def lockOf (simCount : Nat) (slot : Option Nat) : Option Nat :=
  slot.map (getRadioServiceRwlock simCount)

/-- Who holds which lock is who is where the lock is held. -/
structure Locked (simCount : Nat) (locks : Nat → RwLock Nat) (pc : Nat → RilPc) : Prop where
  once : ∀ i, (locks i).Once
  holds : ∀ i t, (locks i).Holds t ↔ lockOf simCount (pc t).slot = some i
  writes : ∀ i t, (pc t).writes = true → (locks i).Holds t → (t, .write) ∈ (locks i).holders

section Locked

variable {simCount : Nat} {locks : Nat → RwLock Nat} {pc : Nat → RilPc} {t i slotId : Nat}
  {p : RilPc}

theorem Locked.stay (h : Locked simCount locks pc) (hslot : p.slot = (pc t).slot)
    (hwrites : p.writes = true → (pc t).writes = true) :
    Locked simCount locks (update pc t p) := by
  refine ⟨h.once, fun i u => ?_, fun i u hu hholds => ?_⟩
  · by_cases heq : u = t
    · rw [heq, update_self, hslot, h.holds]
    · rw [update_of_ne heq, h.holds]
  · by_cases heq : u = t
    · rw [heq, update_self] at hu
      exact h.writes i u (heq ▸ hwrites hu) hholds
    · rw [update_of_ne heq] at hu
      exact h.writes i u hu hholds

theorem Locked.acquire {l : RwLock Nat} {mode : RwMode} (h : Locked simCount locks pc)
    (hnone : (pc t).slot = none)
    (hacquire : (locks (getRadioServiceRwlock simCount slotId)).acquire t mode = some l)
    (hslot : p.slot = some slotId) (hwrites : p.writes = true → mode = .write) :
    Locked simCount (update locks (getRadioServiceRwlock simCount slotId) l)
      (update pc t p) := by
  have hnot : ∀ i, ¬ (locks i).Holds t := by
    intro i hholds
    have := (h.holds i t).1 hholds
    simp [lockOf, hnone] at this
  refine ⟨fun i => ?_, fun i u => ?_, fun i u hu hholds => ?_⟩
  · by_cases hi : i = getRadioServiceRwlock simCount slotId
    · rw [hi, update_self]
      exact RwLock.once_acquire hacquire (h.once _) (hnot _)
    · rw [update_of_ne hi]
      exact h.once i
  · by_cases hi : i = getRadioServiceRwlock simCount slotId
    · rw [hi, update_self, RwLock.holds_acquire hacquire, h.holds]
      by_cases heq : u = t
      · simp [heq, hslot, lockOf]
      · simp [heq]
    · rw [update_of_ne hi, h.holds]
      by_cases heq : u = t
      · simp [heq, hslot, hnone, lockOf, Ne.symm hi]
      · simp [heq]
  · by_cases hi : i = getRadioServiceRwlock simCount slotId
    · rw [hi, update_self] at hholds ⊢
      by_cases heq : u = t
      · rw [heq, update_self] at hu
        rw [heq, ← hwrites hu]
        exact RwLock.mem_acquire hacquire
      · rw [update_of_ne heq] at hu
        have hbefore := ((RwLock.holds_acquire hacquire).1 hholds).resolve_left heq
        exact RwLock.mem_acquire_of_mem hacquire (h.writes _ u hu hbefore)
    · rw [update_of_ne hi] at hholds ⊢
      have heq : u ≠ t := fun heq => hnot i (heq ▸ hholds)
      rw [update_of_ne heq] at hu
      exact h.writes i u hu hholds

theorem Locked.unlock (h : Locked simCount locks pc) (hslot : (pc t).slot = some slotId)
    (hnone : p.slot = none) :
    Locked simCount
      (update locks (getRadioServiceRwlock simCount slotId)
        ((locks (getRadioServiceRwlock simCount slotId)).unlock t))
      (update pc t p) := by
  have hholds : ∀ i, (locks i).Holds t ↔ getRadioServiceRwlock simCount slotId = i := by
    intro i
    simp [h.holds, hslot, lockOf]
  have hself := (hholds _).2 rfl
  refine ⟨fun i => ?_, fun i u => ?_, fun i u hu hheld => ?_⟩
  · by_cases hi : i = getRadioServiceRwlock simCount slotId
    · rw [hi, update_self]
      exact RwLock.once_unlock (h.once _)
    · rw [update_of_ne hi]
      exact h.once i
  · by_cases hi : i = getRadioServiceRwlock simCount slotId
    · rw [hi, update_self, RwLock.holds_unlock (h.once _) hself, h.holds]
      by_cases heq : u = t
      · simp [heq, hnone, lockOf]
      · simp [heq]
    · rw [update_of_ne hi]
      by_cases heq : u = t
      · simp [heq, hnone, lockOf, hholds, Ne.symm hi]
      · rw [update_of_ne heq, h.holds]
  · by_cases hi : i = getRadioServiceRwlock simCount slotId
    · rw [hi, update_self] at hheld ⊢
      obtain ⟨hne, hbefore⟩ := (RwLock.holds_unlock (h.once _) hself).1 hheld
      rw [update_of_ne hne] at hu
      exact (RwLock.mem_unlock (h.once _) hself).2 ⟨hne, h.writes _ u hu hbefore⟩
    · rw [update_of_ne hi] at hheld ⊢
      have hne : u ≠ t := fun heq => hi ((hholds i).1 (heq ▸ hheld)).symm
      rw [update_of_ne hne] at hu
      exact h.writes i u hu hheld

theorem Locked.eq_of_writes {u : Nat} (h : Locked simCount locks pc)
    (hwrites : (pc t).writes = true) (ht : (pc t).slot = some slotId)
    (hu : (pc u).slot = some slotId) : u = t := by
  have hholds : ∀ v, (pc v).slot = some slotId →
      (locks (getRadioServiceRwlock simCount slotId)).Holds v := by
    intro v hv
    rw [h.holds, hv]
    rfl
  exact RwLock.eq_of_write (h.writes _ t hwrites (hholds t ht)) (hholds u hu)

end Locked

/-- The counter that a failed call was made at: the one that is there, until it is noted. -/
def RilCheck.stamp (client : RilSite → RilClient) (c : RilCheck) : CheckPc → Nat
  | .counter => (client c.site).counter
  | _ => c.counter

namespace RilLocks

/-- A thread in `checkReturnStatus` is there for a call that failed. `made` says for which service
    each set was installed, and what its counter was then. -/
def Failed (w : RilLocks) (made : Nat → RilSite × Nat) : RilPc → Prop
  | .check pc bare c => bare = false ∧ c.set < w.next ∧ w.failed c.set = true ∧
      made c.set = (c.site, c.stamp w.client pc)
  | _ => True

/-- Where the callbacks of a set are still there, the counter has not changed. -/
structure Stamped (made : Nat → RilSite × Nat) (w : RilLocks) : Prop where
  installed : ∀ site c, ∀ s ∈ (w.client site).callbacks c,
    s < w.next ∧ made s = (site, (w.client site).counter)
  inj : ∀ s < w.next, ∀ s' < w.next, made s = made s' → s = s'
  le : ∀ s < w.next, (made s).2 ≤ (w.client (made s).1).counter
  failed : ∀ t, w.Failed made (w.pc t)

structure Inv (simCount : Nat) (made : Nat → RilSite × Nat) (w : RilLocks) : Prop where
  locked : Locked simCount w.locks w.pc
  stamped : w.Stamped made
  right : w.Right

theorem inv_init (simCount : Nat) : Inv simCount (fun _ => (⟨0, .radio⟩, 0)) {} := by
  refine ⟨⟨fun _ => RwLock.once_free, fun i t => ?_, fun i t h => ?_⟩, ⟨?_, ?_, ?_, ?_⟩,
    ⟨rfl, rfl, rfl, rfl⟩⟩
  · simp [lockOf, RilPc.slot]
  · cases h
  · simp
  · simp
  · simp
  · simp [Failed]

variable {simCount : Nat} {made : Nat → RilSite × Nat} {w : RilLocks} {t slotId : Nat} {p : RilPc}

/-! ## One step after the other -/

theorem Stamped.move {w' : RilLocks} (h : w.Stamped made) (hp : w.Failed made p)
    (hclient : w'.client = w.client) (hnext : w'.next = w.next) (hfailed : w'.failed = w.failed)
    (hpc : w'.pc = update w.pc t p) : w'.Stamped made := by
  have hsame : ∀ p, w'.Failed made p ↔ w.Failed made p := by
    intro p
    simp only [Failed, hclient, hnext, hfailed]
  refine ⟨?_, ?_, ?_, fun u => ?_⟩
  · rw [hclient, hnext]
    exact h.installed
  · rw [hnext]
    exact h.inj
  · rw [hclient, hnext]
    exact h.le
  · rw [hsame, hpc]
    by_cases heq : u = t
    · rwa [heq, update_self]
    · rw [update_of_ne heq]
      exact h.failed u

theorem Inv.stay (h : Inv simCount made w) (hslot : p.slot = (w.pc t).slot)
    (hwrites : p.writes = true → (w.pc t).writes = true) (hp : w.Failed made p) :
    Inv simCount made (w.setPc t p) :=
  ⟨h.locked.stay hslot hwrites, h.stamped.move hp rfl rfl rfl rfl,
    ⟨h.right.unheld, h.right.released, h.right.ended, h.right.wrong⟩⟩

theorem Inv.acquire {mode : RwMode} (h : Inv simCount made w) (hnone : (w.pc t).slot = none)
    (hslot : p.slot = some slotId) (hwrites : p.writes = true → mode = .write)
    (hp : w.Failed made p) : Inv simCount made (w.acquire simCount t slotId mode p) := by
  unfold RilLocks.acquire
  dsimp only
  split
  · exact h
  · next l hacquire =>
    exact ⟨h.locked.acquire hnone hacquire hslot hwrites, h.stamped.move hp rfl rfl rfl rfl,
      ⟨h.right.unheld, h.right.released, h.right.ended, h.right.wrong⟩⟩

theorem Inv.unlock (h : Inv simCount made w) (hslot : (w.pc t).slot = some slotId)
    (hnone : p.slot = none) (hp : w.Failed made p) :
    Inv simCount made ((w.unlock simCount t slotId).setPc t p) := by
  have hholds : (w.locks (getRadioServiceRwlock simCount slotId)).Holds t := by
    rw [h.locked.holds, hslot]
    rfl
  obtain ⟨mode, hends⟩ := RwLock.ends_of_holds hholds
  simp only [RilLocks.unlock, hends]
  refine ⟨h.locked.unlock hslot hnone, h.stamped.move hp rfl rfl rfl rfl, h.right.unheld, ?_, ?_,
    h.right.wrong⟩
  · simp [setPc, h.right.released]
  · simp [setPc, h.right.ended]

theorem Inv.call (h : Inv simCount made w) {service : RilService} {c : RilCallback} {isOk : Bool}
    (hmeets : w.errorCalls t service c = false) :
    Inv simCount made (w.call simCount t service c isOk) := by
  unfold RilLocks.call
  split
  · next slotId bare hpc =>
    dsimp only
    split
    · exact h
    · next set hset =>
      have hbare : bare = false := by
        cases bare with
        | false => rfl
        | true => simp [errorCalls, hpc, hset] at hmeets
      subst hbare
      have hholds : (w.locks (getRadioServiceRwlock simCount slotId)).Holds t := by
        rw [h.locked.holds, hpc]
        rfl
      obtain ⟨hlt, hmade⟩ := h.stamped.installed _ _ _ hset
      have hunheld : (w.unheld ||
          !decide ((w.locks (getRadioServiceRwlock simCount slotId)).Holds t)) = false := by
        simp [h.right.unheld, hholds]
      split
      · exact ⟨h.locked, ⟨h.stamped.installed, h.stamped.inj, h.stamped.le, h.stamped.failed⟩,
          ⟨hunheld, h.right.released, h.right.ended, h.right.wrong⟩⟩
      refine ⟨h.locked.stay (by rw [hpc]; rfl) (fun hwrites => by cases hwrites), ?_,
        ⟨hunheld, h.right.released, h.right.ended, h.right.wrong⟩⟩
      refine ⟨h.stamped.installed, h.stamped.inj, h.stamped.le, fun u => ?_⟩
      simp only [setPc, update_apply]
      split
      · exact ⟨rfl, hlt, by simp, hmade⟩
      have hu := h.stamped.failed u
      cases hpcu : w.pc u with
      | check pc bare c =>
        rw [hpcu] at hu
        obtain ⟨hbare, hset, hfailed, hstamp⟩ := hu
        refine ⟨hbare, hset, ?_, hstamp⟩
        simp only [update_apply, hfailed, ite_self]
      | _ => trivial
  · exact h

theorem Failed.of_client {site : RilSite} {r : RilClient} (h : w.Failed made p)
    (hslot : p.slot ≠ some site.slotId) :
    ({ w with client := update w.client site r } : RilLocks).Failed made p := by
  cases p with
  | check pc bare c =>
    cases pc with
    | counter =>
      have hne : c.site ≠ site := fun heq => hslot (heq ▸ rfl)
      simpa [Failed, RilCheck.stamp, update_of_ne hne] using h
    | _ => exact h
  | _ => trivial

theorem Inv.reset (h : Inv simCount made w) {bare : Bool} {c : RilCheck}
    (hpc : w.pc t = .check .reset bare c) :
    Inv simCount made ((w.reset c).setPc t (.check .release bare c)) := by
  have hslot : (w.pc t).slot = some c.site.slotId := by rw [hpc]; rfl
  have hwrites : (w.pc t).writes = true := by rw [hpc]; rfl
  have hfailed := h.stamped.failed t
  rw [hpc] at hfailed
  obtain ⟨rfl, hlt, hset, hmade⟩ := hfailed
  unfold RilLocks.reset
  dsimp only
  split
  · next hcounter =>
    have hclears : w.Clears (w.client c.site).callbacks c.set := by
      refine ⟨hset, fun k s hs => ?_⟩
      obtain ⟨hslt, hsmade⟩ := h.stamped.installed _ _ _ hs
      refine h.stamped.inj s hslt _ hlt ?_
      rw [hsmade, hmade, hcounter]
      rfl
    refine ⟨h.locked.stay (by rw [hslot]; rfl) fun _ => hwrites, ⟨fun site k s hs => ?_,
      h.stamped.inj, fun s hs => ?_, fun u => ?_⟩, ⟨h.right.unheld, h.right.released,
      h.right.ended, by simp [setPc, h.right.wrong, hclears]⟩⟩
    · simp only [setPc, update_apply] at hs ⊢
      split at hs
      · cases hs
      · next hne =>
        rw [if_neg hne]
        exact h.stamped.installed site k s hs
    · have hle := h.stamped.le s hs
      simp only [setPc, update_apply]
      split
      · next heq =>
        rw [heq] at hle
        exact Nat.le_succ_of_le hle
      · exact hle
    · simp only [setPc, update_apply]
      split
      · exact ⟨rfl, hlt, hset, hmade⟩
      · next hne =>
        exact (h.stamped.failed u).of_client fun hu =>
          hne (h.locked.eq_of_writes hwrites hslot hu)
  · exact h.stay (by rw [hslot]; rfl) (fun _ => hwrites) ⟨rfl, hlt, hset, hmade⟩

theorem Inv.install (h : Inv simCount made w) {site : RilSite} {given : RilCallback → Bool}
    (hpc : w.pc t = .install site given) :
    Inv simCount (update made w.next (site, (w.client site).counter + 1))
      ((w.install site given).setPc t (.setUnlock site.slotId)) := by
  have hslot : (w.pc t).slot = some site.slotId := by rw [hpc]; rfl
  have hwrites : (w.pc t).writes = true := by rw [hpc]; rfl
  have hold : ∀ s < w.next, update made w.next (site, (w.client site).counter + 1) s =
      made s := fun s hs => update_of_ne (Nat.ne_of_lt hs) _ _
  have hnew : ∀ s < w.next, made s ≠ (site, (w.client site).counter + 1) := by
    intro s hs heq
    have hle := h.stamped.le s hs
    rw [heq] at hle
    exact absurd hle (Nat.not_succ_le_self _)
  unfold RilLocks.install
  refine ⟨h.locked.stay (by rw [hslot]; rfl) fun _ => hwrites, ⟨fun site' k s hs => ?_,
    fun s hs s' hs' heq => ?_, fun s hs => ?_, fun u => ?_⟩, ⟨h.right.unheld, h.right.released,
    h.right.ended, h.right.wrong⟩⟩
  · simp only [setPc, update_apply] at hs ⊢
    split at hs
    · next heq =>
      simp [installed_eq hs, heq]
    · next hne =>
      obtain ⟨hlt, hmade⟩ := h.stamped.installed site' k s hs
      rw [if_neg hne, if_neg (Nat.ne_of_lt hlt)]
      exact ⟨Nat.lt_succ_of_lt hlt, hmade⟩
  · rcases Nat.lt_succ_iff_lt_or_eq.1 hs with hlt | rfl <;>
      rcases Nat.lt_succ_iff_lt_or_eq.1 hs' with hlt' | rfl
    · rw [hold s hlt, hold s' hlt'] at heq
      exact h.stamped.inj s hlt s' hlt' heq
    · rw [hold s hlt, update_self] at heq
      exact absurd heq (hnew s hlt)
    · rw [hold s' hlt', update_self] at heq
      exact absurd heq.symm (hnew s' hlt')
    · rfl
  · rcases Nat.lt_succ_iff_lt_or_eq.1 hs with hlt | rfl
    · have hle := h.stamped.le s hlt
      simp only [setPc, hold s hlt, update_apply]
      split
      · next heq =>
        rw [heq] at hle
        exact Nat.le_succ_of_le hle
      · exact hle
    · simp [setPc]
  · simp only [setPc, update_apply]
    split
    · trivial
    · next hne =>
      have hu := (h.stamped.failed u).of_client
        (r := ⟨installed given w.next site.service, (w.client site).counter + 1⟩) fun hu =>
          hne (h.locked.eq_of_writes hwrites hslot hu)
      cases hpcu : w.pc u with
      | check pc bare c =>
        rw [hpcu] at hu
        obtain ⟨hbare, hlt, hset, hmade⟩ := hu
        exact ⟨hbare, Nat.lt_succ_of_lt hlt, hset, (hold _ hlt).trans hmade⟩
      | _ => trivial

theorem Inv.go (h : Inv simCount made w) (t : Nat) :
    ∃ made, Inv simCount made (w.go simCount t) := by
  have hfailed := h.stamped.failed t
  unfold RilLocks.go
  split
  · exact ⟨made, h⟩
  · exact ⟨made, h⟩
  · next hpc =>
    exact ⟨made, h.acquire (by rw [hpc]; rfl) rfl (fun hwrites => by cases hwrites) trivial⟩
  · next bare c hpc =>
    rw [hpc] at hfailed
    exact ⟨made, h.stay (by rw [hpc]; rfl) (fun hwrites => by cases hwrites) hfailed⟩
  · next bare c hpc =>
    rw [hpc] at hfailed
    exact ⟨made, h.unlock (by rw [hpc]; rfl) rfl hfailed⟩
  · next bare c hpc =>
    rw [hpc] at hfailed
    exact ⟨made, h.acquire (by rw [hpc]; rfl) rfl (fun _ => rfl) hfailed⟩
  · next bare c hpc => exact ⟨made, h.reset hpc⟩
  · next bare c hpc =>
    rw [hpc] at hfailed
    exact ⟨made, h.unlock (by rw [hpc]; rfl) rfl hfailed⟩
  · next bare c hpc =>
    rw [hpc] at hfailed
    obtain ⟨rfl, -⟩ := hfailed
    exact ⟨made, h.acquire (by rw [hpc]; rfl) rfl (fun hwrites => by cases hwrites) trivial⟩
  · next hpc => exact ⟨made, h.acquire (by rw [hpc]; rfl) rfl (fun _ => rfl) trivial⟩
  · next hpc => exact ⟨_, h.install hpc⟩
  · next hpc => exact ⟨made, h.unlock (by rw [hpc]; rfl) rfl trivial⟩

theorem Inv.begin (h : Inv simCount made w) (hslot : p.slot = none) (hwrites : p.writes = false)
    (hp : w.Failed made p) : Inv simCount made (w.begin t p) := by
  unfold RilLocks.begin
  split
  · next hpc => exact h.stay (by rw [hpc, hslot]; rfl) (by simp [hwrites]) hp
  · exact h

theorem Inv.leave (h : Inv simCount made w) (t : Nat) : Inv simCount made (w.leave simCount t) := by
  unfold RilLocks.leave
  split
  · next slotId bare hpc =>
    cases bare with
    | true => exact h.stay (by rw [hpc]; rfl) (fun hwrites => by cases hwrites) trivial
    | false => exact h.unlock (by rw [hpc]; rfl) rfl trivial
  · exact h

theorem Inv.advance (h : Inv simCount made w) {e : RilLockEvent} (hmeets : w.Meets e) :
    ∃ made, Inv simCount made (w.advance simCount e) := by
  unfold RilLocks.advance
  split
  · exact ⟨made, h⟩
  · cases e with
    | begin t slotId mode | sendErrorResponse t slotId
    | setResponseFunctions t site given => exact ⟨made, h.begin rfl rfl trivial⟩
    | call t service c isOk => exact ⟨made, h.call hmeets⟩
    | leave t => exact ⟨made, h.leave t⟩
    | go t => exact h.go t

/-- **The lock of the client callbacks.** Let no error response of a dispatch function find a
    callback to call. Then in every order of the steps, and whichever calls fail,
    `checkReturnStatus` is called with the lock held, nobody releases a lock that it does not hold
    or ends the section of another thread, and callbacks are cleared only after a call on the set
    that they are of. -/
theorem run_responseLock {tr : List (RilLockEvent × Unit)}
    (run : Run (step simCount) Meets {} tr w) : w.Right := by
  obtain ⟨made, h⟩ : ∃ made, Inv simCount made w := by
    refine run.invariant (fun _ w => ∃ made, Inv simCount made w) ⟨_, inv_init simCount⟩ ?_
    rintro tr w e w' u ⟨made, h⟩ hmeets hstep
    cases hstep
    exact h.advance hmeets
  exact h.right

/-- A client dies: a completion fails on its callbacks while an indication is under way, and the
    callbacks are cleared. -/
def clientDies : List RilLockEvent :=
  [.setResponseFunctions 0 ⟨0, .radio⟩ fun _ => true, .go 0, .go 0, .go 0, .begin 1 0 .read, .go 1,
    .begin 2 0 .read, .go 2, .call 1 .radio .response false, .go 1, .go 1, .go 1,
    .call 2 .radio .indication true, .leave 2, .go 1, .go 1, .go 1, .go 1, .leave 1,
    .sendErrorResponse 3 0, .call 3 .radio .response true, .leave 3]

theorem run_responseLock_clientDies : ∃ tr w, Run (step 2) Meets {} tr w ∧
    (w.client ⟨0, .radio⟩).counter = 2 ∧ (w.client ⟨0, .radio⟩).callbacks .response = none ∧
      w.Right := by
  obtain ⟨tr, w, run, -, hw⟩ : ∃ tr w, Run (step 2) Meets {} tr w ∧
      tr.map Prod.fst = clientDies ∧
        ((w.client ⟨0, .radio⟩).counter, (w.client ⟨0, .radio⟩).callbacks .response) = (2, none) :=
    Run.exists_of_allMeet
      (g := fun w : RilLocks =>
        ((w.client ⟨0, .radio⟩).counter, (w.client ⟨0, .radio⟩).callbacks .response))
      (by decide +kernel) (by decide +kernel)
  obtain ⟨hcounter, hcallback⟩ := Prod.mk.inj hw
  exact ⟨tr, w, run, hcounter, hcallback, run_responseLock run⟩

/-- A dispatch function answers with an error while a completion is in its section, and the client
    has died. -/
def errorFails : List RilLockEvent :=
  [.setResponseFunctions 0 ⟨0, .radio⟩ fun _ => true, .go 0, .go 0, .go 0, .begin 1 0 .read, .go 1,
    .sendErrorResponse 2 0, .call 2 .radio .response false, .go 2, .go 2, .go 2, .go 2]

/-- It releases the lock that the completion holds, and clears the callbacks in its section. -/
theorem responseLock_released : ∃ tr w, Run (step 2) (fun _ _ => True) {} tr w ∧
    (w.pc 1).slot = some 0 ∧ ¬ (w.locks (getRadioServiceRwlock 2 0)).Holds 1 ∧
      (w.client ⟨0, .radio⟩).callbacks .response = none ∧ ¬ w.Right := by
  obtain ⟨tr, w, run, hw⟩ : ∃ tr w, Run (step 2) (fun _ _ => True) {} tr w ∧
      ((w.pc 1).slot, decide ((w.locks (getRadioServiceRwlock 2 0)).Holds 1),
        (w.client ⟨0, .radio⟩).callbacks .response, w.ended) = (some 0, false, none, true) :=
    Run.exists_of_exec (C := fun _ => True)
      (g := fun w : RilLocks =>
        ((w.pc 1).slot, decide ((w.locks (getRadioServiceRwlock 2 0)).Holds 1),
          (w.client ⟨0, .radio⟩).callbacks .response, w.ended))
      (show (exec _ _ errorFails).toOption.map _ = _ by decide +kernel) fun _ _ => trivial
  obtain ⟨hslot, hw⟩ := Prod.mk.inj hw
  obtain ⟨hholds, hw⟩ := Prod.mk.inj hw
  obtain ⟨hcallback, hended⟩ := Prod.mk.inj hw
  refine ⟨tr, w, run, hslot, of_decide_eq_false hholds, hcallback, fun hright => ?_⟩
  rw [hright.ended] at hended
  cases hended

end RilLocks

end Nx508j.Ril
