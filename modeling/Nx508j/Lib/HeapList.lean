import Mathlib.Data.List.Nodup
import Nx508j.Lib.Memory

/-! # Linked lists on the heap

A heap of cells, each with a value and a pointer to the next one. `Seg h p l q` says that from `p` the
pointers lead over the cells of `l` to `q`; a list is a segment that ends in the null pointer. What
a write does to a segment is said once per kind of write: outside of it, and to the pointer of its
last cell. -/

namespace Nx508j.Lib

/-- A cell, and the address of the next one if there is one. -/
structure Cell (ν : Type) where
  val : ν
  next : Option Nat
deriving DecidableEq, Repr

/-- What is at an address: a cell, or nothing that may be accessed. -/
abbrev Heap (ν : Type) := Nat → Option (Cell ν)

namespace Heap

variable {ν : Type}

/-- Read the cell a pointer points to. The null pointer and a pointer to what was freed point to no
    cell. -/
def deref (h : Heap ν) : Option Nat → Except Fault (Cell ν)
  | none => .error .outOfBounds
  | some a =>
    match h a with
    | none => .error .outOfBounds
    | some c => .ok c

/-- Write the next pointer of the cell a pointer points to. -/
def setNext (h : Heap ν) (p next : Option Nat) : Except Fault (Heap ν) :=
  match p with
  | none => .error .outOfBounds
  | some a =>
    match h a with
    | none => .error .outOfBounds
    | some c => .ok (Function.update h a (some { c with next := next }))

def free (h : Heap ν) (a : Nat) : Heap ν := Function.update h a none

variable {h h' : Heap ν} {a : Nat} {c : Cell ν} {p q r : Option Nat} {l l' : List (Nat × ν)}

theorem deref_ok (ha : h a = some c) : h.deref (some a) = .ok c := by
  unfold deref
  dsimp only
  rw [ha]

theorem deref_freed (ha : h a = none) : h.deref (some a) = .error .outOfBounds := by
  unfold deref
  dsimp only
  rw [ha]

theorem setNext_ok (ha : h a = some c) (next : Option Nat) :
    h.setNext (some a) next = .ok (Function.update h a (some { c with next := next })) := by
  unfold setNext
  dsimp only
  rw [ha]

/-! ## Segments -/

/-- From `p` the pointers lead over the cells of `l` to `q`. -/
def Seg (h : Heap ν) : Option Nat → List (Nat × ν) → Option Nat → Prop
  | p, [], q => p = q
  | p, x :: l, q => p = some x.1 ∧ ∃ next, h x.1 = some ⟨x.2, next⟩ ∧ Seg h next l q

/-- The addresses of a segment. -/
def addrs (l : List (Nat × ν)) : List Nat := l.map Prod.fst

/-- The pointer to the first cell. -/
def first (l : List (Nat × ν)) : Option Nat := l.head?.map Prod.fst

theorem Seg.append : h.Seg p (l ++ l') q ↔ ∃ r, h.Seg p l r ∧ h.Seg r l' q := by
  induction l generalizing p with
  | nil => exact ⟨fun hs => ⟨p, rfl, hs⟩, fun ⟨r, hr, hs⟩ => hr ▸ hs⟩
  | cons x l ih =>
    constructor
    · rintro ⟨rfl, next, hx, hs⟩
      obtain ⟨r, h1, h2⟩ := ih.1 hs
      exact ⟨r, ⟨rfl, next, hx, h1⟩, h2⟩
    · rintro ⟨r, ⟨rfl, next, hx, h1⟩, h2⟩
      exact ⟨rfl, next, hx, ih.2 ⟨r, h1, h2⟩⟩

/-- A list starts at its first cell. -/
theorem Seg.first_eq (hs : h.Seg p l none) : p = first l := by
  cases l with
  | nil => exact hs
  | cons x l => exact hs.1

/-- Writes outside of a segment keep it. -/
theorem Seg.congr (hs : h.Seg p l q) (heq : ∀ a ∈ addrs l, h' a = h a) : h'.Seg p l q := by
  induction l generalizing p with
  | nil => exact hs
  | cons x l ih =>
    obtain ⟨rfl, next, hx, hs⟩ := hs
    refine ⟨rfl, next, ?_, ih hs fun a ha => heq a (List.mem_cons_of_mem _ ha)⟩
    rw [heq x.1 (List.mem_cons_self ..)]
    exact hx

theorem Seg.update (hs : h.Seg p l q) (ha : a ∉ addrs l) (v : Option (Cell ν)) :
    Seg (Function.update h a v) p l q := by
  refine hs.congr fun b hb => ?_
  have hne : b ≠ a := by
    rintro rfl
    exact ha hb
  exact Function.update_of_ne hne v h

/-- Following the pointers is deterministic, so of two segments from one pointer one is the start of
    the other. -/
theorem Seg.det (hs : h.Seg p l none) (hs' : h.Seg p l' none) : l = l' := by
  induction l generalizing p l' with
  | nil =>
    obtain rfl : p = none := hs
    cases l' with
    | nil => rfl
    | cons y l' => cases hs'.1
  | cons x l ih =>
    obtain ⟨rfl, next, hx, hs⟩ := hs
    cases l' with
    | nil => cases hs'
    | cons y l' =>
      obtain ⟨hxy, next', hy, hs'⟩ := hs'
      rw [← Option.some.inj hxy, hx] at hy
      obtain ⟨hval, rfl⟩ := Cell.mk.inj (Option.some.inj hy)
      rw [ih hs hs', Prod.ext (Option.some.inj hxy) hval]

/-- No cell is twice in a list. -/
theorem Seg.nodup (hs : h.Seg p l none) : (addrs l).Nodup := by
  induction l generalizing p with
  | nil => exact List.nodup_nil
  | cons x l ih =>
    have hall := hs
    obtain ⟨rfl, next, hx, hs⟩ := hs
    refine List.nodup_cons.2 ⟨fun hmem => ?_, ih hs⟩
    -- from the second occurrence the list goes on as from the first
    obtain ⟨y, hy, hxy⟩ := List.mem_map.1 hmem
    obtain ⟨l₁, l₂, rfl⟩ := List.append_of_mem hy
    obtain ⟨r, -, hs₂⟩ := Seg.append.1 hs
    have hr := hs₂.1
    rw [hr, hxy] at hs₂
    have hlen := congrArg List.length (hall.det hs₂)
    simp only [List.length_cons, List.length_append] at hlen
    omega

theorem Seg.ne_none (hs : h.Seg p l q) (ha : a ∈ addrs l) : h a ≠ none := by
  induction l generalizing p with
  | nil => cases ha
  | cons x l ih =>
    obtain ⟨-, next, hx, hs⟩ := hs
    rcases List.mem_cons.1 ha with rfl | ha
    · rw [hx]
      exact Option.some_ne_none _
    · exact ih hs ha

/-- The pointer of the last cell may be bent. -/
theorem Seg.bend {x : Nat × ν} (hs : h.Seg p (l ++ [x]) q) (hx : x.1 ∉ addrs l) (next : Option Nat) :
    ∃ c, h x.1 = some c ∧ Seg (Function.update h x.1 (some { c with next := next })) p (l ++ [x])
      next := by
  obtain ⟨r, h1, rfl, next', hcell, -⟩ := Seg.append.1 hs
  refine ⟨_, hcell, Seg.append.2 ⟨some x.1, h1.update hx _, rfl, next, ?_, rfl⟩⟩
  exact Function.update_self ..

end Heap

end Nx508j.Lib
