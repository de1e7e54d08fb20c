import Mathlib.Data.Finset.Basic
import Mathlib.Data.Finset.Lattice.Lemmas

/-! # Ledgers: what was taken and not dropped

A component takes things from its environment and drops them again. The ledger is the list of what
it did; `held` is what the environment still holds for it. A ledger is made of `Sessions` if the
things are taken together and dropped together: what one session takes is what it drops. It is `Clean`
if nothing is taken that is held and nothing is dropped that is not; and what is held is `Leased` to
owners if each thing is on the list of one of them, once. -/

namespace Nx508j.Lib

open Function

/-- A line of a ledger. -/
inductive Entry (α : Type) where
  | take (a : α)
  | drop (a : α)
deriving DecidableEq, Repr

namespace Entry

variable {α : Type}

def item : Entry α → α
  | .take a => a
  | .drop a => a

variable [DecidableEq α]

def settle (H : Finset α) : Entry α → Finset α
  | .take a => insert a H
  | .drop a => H.erase a

end Entry

section Held

variable {α : Type} [DecidableEq α]

/-- What is held after the entries `es`, if it was `H` before them. -/
def held (H : Finset α) (es : List (Entry α)) : Finset α := es.foldl Entry.settle H

@[simp] theorem held_nil (H : Finset α) : held H [] = H := rfl

@[simp] theorem held_cons (H : Finset α) (e : Entry α) (es : List (Entry α)) :
    held H (e :: es) = held (e.settle H) es := rfl

theorem held_append (H : Finset α) (es es' : List (Entry α)) :
    held H (es ++ es') = held (held H es) es' :=
  List.foldl_append ..

theorem held_take (H : Finset α) (ds : List α) :
    held H (ds.map .take) = H ∪ ds.toFinset := by
  induction ds generalizing H with
  | nil => simp
  | cons d ds ih =>
    rw [List.map_cons, held_cons, ih, List.toFinset_cons]
    ext a
    simp only [Entry.settle, Finset.mem_union, Finset.mem_insert]
    tauto

theorem held_drop (H : Finset α) (ds : List α) :
    held H (ds.map .drop) = H \ ds.toFinset := by
  induction ds generalizing H with
  | nil => simp
  | cons d ds ih =>
    rw [List.map_cons, held_cons, ih, List.toFinset_cons]
    ext a
    simp only [Entry.settle, Finset.mem_sdiff, Finset.mem_erase, Finset.mem_insert]
    tauto

theorem filter_settle_of {p : α → Bool} {e : Entry α} (he : p e.item = true) (H : Finset α) :
    (e.settle H).filter (p ·) = e.settle (H.filter (p ·)) := by
  cases e with
  | take a => exact (Finset.filter_insert _ _ _).trans (if_pos he)
  | drop a =>
    ext b
    simp only [Entry.settle, Finset.mem_filter, Finset.mem_erase]
    tauto

theorem filter_settle_of_not {p : α → Bool} {e : Entry α} (he : ¬ p e.item = true)
    (H : Finset α) : (e.settle H).filter (p ·) = H.filter (p ·) := by
  cases e with
  | take a => exact (Finset.filter_insert _ _ _).trans (if_neg he)
  | drop a =>
    ext b
    simp only [Entry.settle, Finset.mem_filter, Finset.mem_erase]
    refine ⟨fun ⟨⟨_, hb⟩, hp⟩ => ⟨hb, hp⟩, fun ⟨hb, hp⟩ => ⟨⟨?_, hb⟩, hp⟩⟩
    rintro rfl
    exact he hp

/-- The entries about some of the things say which of these are held. -/
theorem held_filter (p : α → Bool) (H : Finset α) (es : List (Entry α)) :
    (held H es).filter (p ·) = held (H.filter (p ·)) (es.filter (p ·.item)) := by
  induction es generalizing H with
  | nil => rfl
  | cons e es ih =>
    rw [held_cons, ih]
    by_cases he : p e.item = true
    · rw [List.filter_cons, if_pos he, held_cons, filter_settle_of he]
    · rw [List.filter_cons, if_neg he, filter_settle_of_not he]

theorem mem_of_mem_held {H : Finset α} {es : List (Entry α)} {a : α} (ha : a ∈ held H es) :
    a ∈ H ∨ a ∈ es.map Entry.item := by
  induction es generalizing H with
  | nil => exact .inl ha
  | cons e es ih =>
    rw [held_cons] at ha
    rw [List.map_cons, List.mem_cons]
    rcases ih ha with hH | hes
    · cases e with
      | take b =>
        rcases Finset.mem_insert.1 hH with hb | hH
        · exact .inr (.inl hb)
        · exact .inl hH
      | drop b => exact .inl (Finset.mem_of_mem_erase hH)
    · exact .inr (.inr hes)

end Held

/-! ## Sessions -/

variable {α : Type}

/-- Take all of `ds`, then drop all of `ds`. -/
def session (ds : List α) : List (Entry α) := ds.map .take ++ ds.map .drop

/-- Sessions that are over, then one that has taken `ds`. -/
def Sessions (ds : List α) (es : List (Entry α)) : Prop :=
  ∃ past : List (List α), es = past.flatMap session ++ ds.map .take

namespace Sessions

variable {ds : List α} {es : List (Entry α)}

theorem nil : Sessions ([] : List α) [] := ⟨[], rfl⟩

theorem take (h : Sessions [] es) (ds : List α) : Sessions ds (es ++ ds.map .take) := by
  obtain ⟨past, rfl⟩ := h
  exact ⟨past, by simp⟩

theorem drop (h : Sessions ds es) : Sessions [] (es ++ ds.map .drop) := by
  obtain ⟨past, rfl⟩ := h
  exact ⟨past ++ [ds], by simp [session]⟩

/-- What is held is what the open session took. -/
theorem held_eq [DecidableEq α] (h : Sessions ds es) : held ∅ es = ds.toFinset := by
  obtain ⟨past, rfl⟩ := h
  have hpast : held ∅ (past.flatMap session) = ∅ := by
    induction past with
    | nil => rfl
    | cons d past ih =>
      rw [List.flatMap_cons, held_append, session, held_append, held_take, held_drop,
        Finset.empty_union, sdiff_self]
      exact ih
  rw [held_append, hpast, held_take, Finset.empty_union]

end Sessions

/-! ## Clean ledgers -/

section Clean

variable [DecidableEq α]

/-- Nothing is taken that is held, and nothing is dropped that is not. -/
inductive Clean : List (Entry α) → Prop
  | nil : Clean []
  | take {es : List (Entry α)} {a : α} (h : Clean es) (ha : a ∉ held ∅ es) : Clean (es ++ [.take a])
  | drop {es : List (Entry α)} {a : α} (h : Clean es) (ha : a ∈ held ∅ es) : Clean (es ++ [.drop a])

theorem held_concat (H : Finset α) (es : List (Entry α)) (e : Entry α) :
    held H (es ++ [e]) = e.settle (held H es) := by
  rw [held_append, held_cons, held_nil]

/-- Whatever is taken is dropped once for each time, but for the last time if it is held. -/
theorem Clean.count {es : List (Entry α)} (h : Clean es) (a : α) :
    es.count (.take a) = es.count (.drop a) + if a ∈ held ∅ es then 1 else 0 := by
  induction h with
  | nil => rfl
  | @take es b _ hb ih | @drop es b _ hb ih =>
    rw [held_concat, List.count_append, List.count_append, ih]
    by_cases hab : a = b
    · subst hab
      simp [Entry.settle, hb]
    · have hba : b ≠ a := Ne.symm hab
      simp [Entry.settle, hab, hba]

end Clean

/-! ## Leases -/

variable {V : Type}

/-- What is held is on the lists of owners: each thing on one list, once. -/
structure Leased (own : V → List α) (H : Finset α) : Prop where
  nodup : ∀ v, (own v).Nodup
  mem : ∀ a, a ∈ H ↔ ∃ v, a ∈ own v
  unique : ∀ a v v', a ∈ own v → a ∈ own v' → v = v'

namespace Leased

variable {own own' : V → List α} {H : Finset α} {a : α} {v : V}

theorem congr (h : Leased own H) (heq : ∀ v, own' v = own v) : Leased own' H := by
  obtain rfl : own' = own := funext heq
  exact h

theorem mem_held (h : Leased own H) (ha : a ∈ own v) : a ∈ H := (h.mem a).mpr ⟨v, ha⟩

variable [DecidableEq α] [DecidableEq V]

/-- An owner takes what is not held. -/
theorem take (h : Leased own H) (ha : a ∉ H) (v : V) :
    Leased (update own v (own v ++ [a])) (insert a H) := by
  have hnot : ∀ u, a ∉ own u := fun u hu => ha (h.mem_held hu)
  have hmem : ∀ b u, b ∈ update own v (own v ++ [a]) u ↔ b ∈ own u ∨ u = v ∧ b = a := by
    intro b u
    rw [update_apply]
    split
    · next hu => simp [hu]
    · next hu => simp [hu]
  refine ⟨fun u => ?_, fun b => ?_, fun b u u' hu hu' => ?_⟩
  · rw [update_apply]
    split
    · exact List.concat_eq_append ▸ (h.nodup v).concat (hnot v)
    · exact h.nodup u
  · simp only [Finset.mem_insert, hmem, h.mem]
    grind
  · rw [hmem] at hu hu'
    rcases hu with hu | ⟨rfl, rfl⟩
    · rcases hu' with hu' | ⟨rfl, rfl⟩
      · exact h.unique b u u' hu hu'
      · exact absurd hu (hnot u)
    · rcases hu' with hu' | ⟨rfl, -⟩
      · exact absurd hu' (hnot u')
      · rfl

/-- An owner drops what is on its list. -/
theorem drop (h : Leased own H) (ha : a ∈ own v) :
    Leased (update own v ((own v).erase a)) (H.erase a) := by
  have hmem : ∀ b u, b ∈ update own v ((own v).erase a) u ↔ b ∈ own u ∧ b ≠ a := by
    intro b u
    rw [update_apply]
    split
    · next hu => rw [hu, (h.nodup v).mem_erase_iff, and_comm]
    · next hu =>
      refine ⟨fun hb => ⟨hb, ?_⟩, fun hb => hb.1⟩
      rintro rfl
      exact hu (h.unique b u v hb ha)
  refine ⟨fun u => ?_, fun b => ?_, fun b u u' hu hu' => ?_⟩
  · rw [update_apply]
    split
    · exact (h.nodup v).erase a
    · exact h.nodup u
  · simp only [Finset.mem_erase, hmem, h.mem]
    grind
  · exact h.unique b u u' ((hmem b u).mp hu).1 ((hmem b u').mp hu').1

end Leased

end Nx508j.Lib
