import Mathlib.Data.List.Basic

/-! # Blocks of memory

A program allocates blocks, uses them and frees them. What it did is on record: the blocks it
allocated, those it freed, and those it used when they were freed. From the records each block is
unborn, live or gone, or it has been allocated or freed in some other way. -/

namespace Nx508j.Lib

/-- What has become of a block. -/
inductive BlockState where
  | unborn
  | live
  | gone
  | broken
deriving DecidableEq, Repr

structure Blocks (α : Type) where
  allocated : List α := []
  freed : List α := []
  misused : List α := []

namespace Blocks

variable {α : Type} {a x : α} {b b' : Blocks α}

def alloc (a : α) (b : Blocks α) : Blocks α := { b with allocated := b.allocated ++ [a] }

def free (a : α) (b : Blocks α) : Blocks α := { b with freed := b.freed ++ [a] }

/-- Free the block that a pointer points to, if it is not null. -/
def freePtr (a : Option α) (b : Blocks α) : Blocks α :=
  match a with
  | none => b
  | some a => b.free a

@[simp] theorem misused_alloc (a : α) : (b.alloc a).misused = b.misused := rfl

@[simp] theorem misused_free (a : α) : (b.free a).misused = b.misused := rfl

@[simp] theorem freePtr_some (a : α) : b.freePtr (some a) = b.free a := rfl

variable [DecidableEq α] {as : List α} {P : α → Prop}

/-- Read or write these blocks. -/
def use (as : List α) (b : Blocks α) : Blocks α :=
  { b with misused := b.misused ++ as.filter (· ∈ b.freed) }

def state (b : Blocks α) (a : α) : BlockState :=
  match b.allocated.count a, b.freed.count a with
  | 0, 0 => .unborn
  | 1, 0 => .live
  | 1, 1 => .gone
  | _, _ => .broken

theorem state_eq_unborn : b.state a = .unborn ↔ b.allocated.count a = 0 ∧ b.freed.count a = 0 := by
  unfold state
  split <;> simp_all

theorem state_eq_live : b.state a = .live ↔ b.allocated.count a = 1 ∧ b.freed.count a = 0 := by
  unfold state
  split <;> simp_all

theorem state_eq_gone : b.state a = .gone ↔ b.allocated.count a = 1 ∧ b.freed.count a = 1 := by
  unfold state
  split <;> simp_all

@[simp] theorem state_init (a : α) : ({} : Blocks α).state a = .unborn := rfl

@[simp] theorem state_use (as : List α) (x : α) : (b.use as).state x = b.state x := rfl

theorem state_alloc (h : b.state a = .unborn) : (b.alloc a).state a = .live := by
  obtain ⟨ha, hf⟩ := state_eq_unborn.1 h
  refine state_eq_live.2 ⟨?_, hf⟩
  rw [alloc, List.count_append, ha, List.count_singleton_self]

theorem state_free (h : b.state a = .live) : (b.free a).state a = .gone := by
  obtain ⟨ha, hf⟩ := state_eq_live.1 h
  refine state_eq_gone.2 ⟨ha, ?_⟩
  rw [free, List.count_append, hf, List.count_singleton_self]

@[simp] theorem state_alloc_of_ne (h : x ≠ a) : (b.alloc a).state x = b.state x := by
  unfold state alloc
  rw [List.count_append, List.count_eq_zero.2 fun hc => h (List.mem_singleton.1 hc), Nat.add_zero]

@[simp] theorem state_free_of_ne (h : x ≠ a) : (b.free a).state x = b.state x := by
  unfold state free
  rw [List.count_append, List.count_eq_zero.2 fun hc => h (List.mem_singleton.1 hc), Nat.add_zero]

/-- Live blocks may be used. -/
theorem misused_use (h : ∀ a ∈ as, b.state a = .live) : (b.use as).misused = b.misused := by
  rw [use, List.filter_eq_nil_iff.2, List.append_nil]
  intro a ha
  rw [decide_eq_true_iff]
  exact List.count_eq_zero.1 (state_eq_live.1 (h a ha)).2

/-- The two records differ in blocks with `P` only. -/
def SameOff (P : α → Prop) (b b' : Blocks α) : Prop := ∀ a, ¬ P a → b'.state a = b.state a

namespace SameOff

theorem refl (P : α → Prop) (b : Blocks α) : SameOff P b b := fun _ _ => rfl

theorem alloc (h : SameOff P b b') (ha : P a) : SameOff P b (b'.alloc a) := by
  intro x hx
  rw [state_alloc_of_ne fun hxa => hx (by rwa [hxa])]
  exact h x hx

theorem free (h : SameOff P b b') (ha : P a) : SameOff P b (b'.free a) := by
  intro x hx
  rw [state_free_of_ne fun hxa => hx (by rwa [hxa])]
  exact h x hx

theorem use (h : SameOff P b b') (as : List α) : SameOff P b (b'.use as) := h

end SameOff

end Blocks

end Nx508j.Lib
