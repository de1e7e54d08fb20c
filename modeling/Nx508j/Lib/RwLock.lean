import Mathlib.Data.List.Nodup

/-! # A reader/writer lock

The holders are kept with the mode they hold the lock in. `unlock` does not look at who calls it
unless the lock is held for writing: a reader more or less is all that the lock knows of. -/

namespace Nx508j.Lib

inductive RwMode where
  | read
  | write
deriving DecidableEq, Repr

/-- Who holds it for writing holds it alone. -/
structure RwLock (T : Type) where
  holders : List (T × RwMode)
  alone : ∀ t, (t, RwMode.write) ∈ holders → holders = [(t, RwMode.write)]

namespace RwLock

variable {T : Type} {l l' : RwLock T} {t u : T} {m m' : RwMode}

/-- Nobody has it. -/
def free : RwLock T := ⟨[], by simp⟩

/-- `rdlock` and `wrlock`, when the caller does not have to wait. -/
def acquire (l : RwLock T) (t : T) (m : RwMode) : Option (RwLock T) :=
  if l.holders = [] then
    some ⟨[(t, m)], by simp +contextual [Prod.ext_iff]⟩
  else if hread : m = .read ∧ ∀ h ∈ l.holders, h.2 = .read then
    some ⟨(t, m) :: l.holders, by
      intro u hu
      rcases List.mem_cons.1 hu with heq | hmem
      · exact absurd ((Prod.mk.inj heq).2.trans hread.1) (by decide)
      · exact absurd (hread.2 _ hmem) (by simp)⟩
  else none

/-- `t` holds it in some mode. -/
def Holds (l : RwLock T) (t : T) : Prop := ∃ m, (t, m) ∈ l.holders

/-- Nobody holds it twice. -/
def Once (l : RwLock T) : Prop := (l.holders.map Prod.fst).Nodup

theorem once_free : (free : RwLock T).Once := by simp [Once, free]

@[simp] theorem not_holds_free : ¬ (free : RwLock T).Holds t := by simp [Holds, free]

theorem acquire_eq_some (h : l.acquire t m = some l') :
    l'.holders = (t, m) :: l.holders ∧ (m = .write → l.holders = []) := by
  unfold acquire at h
  split at h
  · next hfree =>
    cases h
    simp [hfree]
  · split at h
    · next hread =>
      cases h
      simp [hread.1]
    · cases h

/-- Beside a writer there is nobody. -/
theorem eq_of_write (hw : (t, .write) ∈ l.holders) (hu : l.Holds u) : u = t := by
  obtain ⟨m, hm⟩ := hu
  rw [l.alone t hw] at hm
  exact (Prod.mk.inj (List.mem_singleton.1 hm)).1

/-- **Acquiring**: one more holder, and nobody holds it twice. -/
theorem holds_acquire (h : l.acquire t m = some l') : l'.Holds u ↔ u = t ∨ l.Holds u := by
  obtain ⟨hholders, -⟩ := acquire_eq_some h
  simp only [Holds, hholders, List.mem_cons, Prod.mk.injEq]
  constructor
  · rintro ⟨m', ⟨rfl, -⟩ | hm⟩
    · exact .inl rfl
    · exact .inr ⟨m', hm⟩
  · rintro (rfl | ⟨m', hm⟩)
    · exact ⟨m, .inl ⟨rfl, rfl⟩⟩
    · exact ⟨m', .inr hm⟩

theorem once_acquire (h : l.acquire t m = some l') (hl : l.Once) (ht : ¬ l.Holds t) : l'.Once := by
  obtain ⟨hholders, -⟩ := acquire_eq_some h
  rw [Once, hholders, List.map_cons, List.nodup_cons]
  refine ⟨?_, hl⟩
  simpa [Holds] using ht

theorem mem_acquire (h : l.acquire t m = some l') : (t, m) ∈ l'.holders := by
  simp [(acquire_eq_some h).1]

/-- Whoever held it still does, in the same mode. -/
theorem mem_acquire_of_mem (h : l.acquire t m = some l') (hu : (u, m') ∈ l.holders) :
    (u, m') ∈ l'.holders := by
  simp [(acquire_eq_some h).1, hu]

variable [DecidableEq T]

/-- The holder whose hold a call of `unlock` ends: the caller, if it has one, or else a reader. -/
def ends (l : RwLock T) (t : T) : Option (T × RwMode) :=
  (l.holders.find? (·.1 = t)).or (l.holders.find? (·.2 = .read))

def unlock (l : RwLock T) (t : T) : RwLock T :=
  match l.ends t with
  | none => l
  | some h => ⟨l.holders.erase h, by
      intro u hu
      have hall := l.alone u (List.mem_of_mem_erase hu)
      rw [hall] at hu ⊢
      by_cases heq : (u, RwMode.write) = h
      · simp [heq] at hu
      · rw [List.erase_cons_tail (by simpa using heq), List.erase_nil]⟩

instance decidableHolds (l : RwLock T) (t : T) : Decidable (l.Holds t) :=
  decidable_of_iff (t ∈ l.holders.map Prod.fst) (by simp [Holds])

theorem ends_of_holds (ht : l.Holds t) : ∃ m, l.ends t = some (t, m) := by
  obtain ⟨m, hm⟩ := ht
  cases hfind : l.holders.find? (·.1 = t) with
  | none =>
    have := List.find?_eq_none.1 hfind _ hm
    simp at this
  | some h =>
    have heq : h.1 = t := by simpa using List.find?_some hfind
    exact ⟨h.2, by rw [ends, hfind, ← heq]; rfl⟩

theorem mem_of_ends {h : T × RwMode} (hends : l.ends t = some h) : h ∈ l.holders := by
  rcases Option.or_eq_some_iff.1 hends with hfind | ⟨-, hfind⟩
  · exact List.mem_of_find?_eq_some hfind
  · exact List.mem_of_find?_eq_some hfind

theorem once_unlock (hl : l.Once) : (l.unlock t).Once := by
  unfold unlock
  split
  · exact hl
  · exact hl.sublist (List.erase_sublist.map _)

/-- **Unlocking** ends the hold of the caller, if it has one, and no other. -/
theorem mem_unlock (hl : l.Once) (ht : l.Holds t) :
    (u, m') ∈ (l.unlock t).holders ↔ u ≠ t ∧ (u, m') ∈ l.holders := by
  obtain ⟨m, hends⟩ := ends_of_holds ht
  have hmem := mem_of_ends hends
  have hnodup : l.holders.Nodup := List.Nodup.of_map _ hl
  simp only [unlock, hends, hnodup.mem_erase_iff]
  refine and_congr_left fun hu => not_congr ⟨fun heq => (Prod.mk.inj heq).1, fun heq => ?_⟩
  exact List.inj_on_of_nodup_map hl hu hmem heq

theorem holds_unlock (hl : l.Once) (ht : l.Holds t) : (l.unlock t).Holds u ↔ u ≠ t ∧ l.Holds u := by
  simp [Holds, mem_unlock hl ht]

end RwLock

end Nx508j.Lib
