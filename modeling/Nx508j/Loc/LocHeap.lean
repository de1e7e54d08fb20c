import Mathlib.Data.List.Perm.Basic

/-! # The heap of rankable objects

`LocHeap` is a binary tree in which a parent is never outranked by its children. A new object goes
into the smaller subtree, changing places with every object that it outranks; the top leaves by
letting the higher ranked child move up, down to a leaf. The tree is over any objects with an
`outRanks`, and knows an object by its identity. -/

namespace Nx508j.Loc

/-- `LocHeapNode`, with `nil` for a pointer that is NULL. -/
inductive LocHeapNode (α : Type) where
  | nil
  | node (mSize : Int) (mLeft mRight : LocHeapNode α) (mData : α)
deriving Repr

namespace LocHeapNode

variable {α : Type}

def getSize : LocHeapNode α → Int
  | .nil => 0
  | .node mSize .. => mSize

/-- The object at the top. -/
def peek : LocHeapNode α → Option α
  | .nil => none
  | .node _ _ _ mData => some mData

def isNull : LocHeapNode α → Bool
  | .nil => true
  | .node .. => false

variable (outRanks : α → α → Bool)

/-- `LocHeap::push`: a new node for `data`, which is dropped into the tree. The nodes keep their
    places, only what they hold is swapped. -/
def push : LocHeapNode α → α → LocHeapNode α
  | .nil, data => .node 1 .nil .nil data
  | .node mSize mLeft mRight mData, data =>
    let (mData, data) := if outRanks data mData then (data, mData) else (mData, data)
    if mLeft.isNull then .node (mSize + 1) (push mLeft data) mRight mData
    else if mRight.isNull then .node (mSize + 1) mLeft (push mRight data) mData
    else if mLeft.getSize ≤ mRight.getSize then
      .node (mSize + 1) (push mLeft data) mRight mData
    else .node (mSize + 1) mLeft (push mRight data) mData

/-- `LocHeapNode::pop`: what is left without the top. -/
def pop : LocHeapNode α → LocHeapNode α
  | .nil => .nil
  | .node mSize mLeft mRight _ =>
    match mLeft.peek, mRight.peek with
    | none, none => .nil
    | none, some r => .node (mSize - 1) mLeft (pop mRight) r
    | some l, none => .node (mSize - 1) (pop mLeft) mRight l
    | some l, some r =>
      if outRanks l r then .node (mSize - 1) (pop mLeft) mRight l
      else .node (mSize - 1) mLeft (pop mRight) r

/-! ## What is in the heap -/

/-- The objects of the heap, the top first. -/
def elems : LocHeapNode α → List α
  | .nil => []
  | .node _ mLeft mRight mData => mData :: (mLeft.elems ++ mRight.elems)

/-- No object is outranked by one below it. -/
def Ordered : LocHeapNode α → Prop
  | .nil => True
  | .node _ mLeft mRight mData =>
    (∀ a ∈ mLeft.elems, outRanks a mData = false) ∧
      (∀ a ∈ mRight.elems, outRanks a mData = false) ∧ Ordered mLeft ∧ Ordered mRight

/-- What is asked of a ranking: to outrank is a strict weak order. -/
structure Ranking : Prop where
  asymm : ∀ a b, outRanks a b = true → outRanks b a = false
  trans : ∀ a b c, outRanks a b = false → outRanks b c = false → outRanks a c = false

theorem Ranking.irrefl {outRanks : α → α → Bool} (h : Ranking outRanks) (a : α) :
    outRanks a a = false := by
  cases hr : outRanks a a with
  | false => rfl
  | true => exact hr.symm.trans (h.asymm a a hr)

variable {outRanks} {t : LocHeapNode α} {a b : α}

theorem peek_eq_none (h : t.peek = none) : t.elems = [] := by
  cases t with
  | nil => rfl
  | node => cases h

theorem mem_of_peek (h : t.peek = some a) : a ∈ t.elems := by
  cases t with
  | nil => cases h
  | node _ mLeft mRight mData =>
    obtain rfl : mData = a := by simpa [peek] using h
    exact List.mem_cons_self ..

theorem peek_soonest (hr : Ranking outRanks) (ho : t.Ordered outRanks) (h : t.peek = some a) :
    ∀ b ∈ t.elems, outRanks b a = false := by
  cases t with
  | nil => cases h
  | node _ mLeft mRight mData =>
    obtain rfl : mData = a := by simpa [peek] using h
    intro b hb
    rcases List.mem_cons.1 hb with rfl | hb
    · exact hr.irrefl _
    rcases List.mem_append.1 hb with hb | hb
    · exact ho.1 b hb
    · exact ho.2.1 b hb

/-! ## Push -/

/-- The object that stays on top when `data` comes, and the one that goes down. -/
def placed (outRanks : α → α → Bool) (data mData : α) : α × α :=
  if outRanks data mData then (data, mData) else (mData, data)

theorem placed_perm (outRanks : α → α → Bool) (data mData : α) (l : List α) :
    ((placed outRanks data mData).1 :: (placed outRanks data mData).2 :: l).Perm
      (data :: mData :: l) := by
  unfold placed
  split
  · exact .refl _
  · exact .swap _ _ _

theorem push_node (outRanks : α → α → Bool) (mSize : Int) (mLeft mRight : LocHeapNode α)
    (mData data : α) :
    push outRanks (.node mSize mLeft mRight mData) data =
        .node (mSize + 1) (push outRanks mLeft (placed outRanks data mData).2) mRight
          (placed outRanks data mData).1 ∨
      push outRanks (.node mSize mLeft mRight mData) data =
        .node (mSize + 1) mLeft (push outRanks mRight (placed outRanks data mData).2)
          (placed outRanks data mData).1 := by
  rw [push]
  show (if mLeft.isNull then _ else _) = _ ∨ _
  by_cases hl : mLeft.isNull
  · exact .inl (if_pos hl)
  by_cases hr : mRight.isNull
  · exact .inr ((if_neg hl).trans (if_pos hr))
  by_cases hs : mLeft.getSize ≤ mRight.getSize
  · exact .inl ((if_neg hl).trans ((if_neg hr).trans (if_pos hs)))
  · exact .inr ((if_neg hl).trans ((if_neg hr).trans (if_neg hs)))

theorem push_perm (outRanks : α → α → Bool) (t : LocHeapNode α) (data : α) :
    (push outRanks t data).elems.Perm (data :: t.elems) := by
  induction t generalizing data with
  | nil => exact .refl _
  | node mSize mLeft mRight mData ihl ihr =>
    have hplaced := placed_perm outRanks data mData (mLeft.elems ++ mRight.elems)
    rcases push_node outRanks mSize mLeft mRight mData data with h | h
    · rw [h, elems]
      exact (((ihl _).append_right _).cons _).trans hplaced
    · rw [h, elems]
      exact ((((ihr _).append_left _).trans List.perm_middle).cons _).trans hplaced

theorem peek_push (outRanks : α → α → Bool) (t : LocHeapNode α) (data : α) :
    (push outRanks t data).peek = some (t.peek.elim data fun top => (placed outRanks data top).1) := by
  cases t with
  | nil => rfl
  | node mSize mLeft mRight mData =>
    rcases push_node outRanks mSize mLeft mRight mData data with h | h
    · rw [h]
      rfl
    · rw [h]
      rfl

theorem push_ordered (hr : Ranking outRanks) (ho : t.Ordered outRanks) (data : α) :
    (push outRanks t data).Ordered outRanks := by
  induction t generalizing data with
  | nil => exact ⟨by simp [elems], by simp [elems], trivial, trivial⟩
  | node mSize mLeft mRight mData ihl ihr =>
    obtain ⟨hl, hr', hol, hor⟩ := ho
    have hlow : outRanks (placed outRanks data mData).2 (placed outRanks data mData).1 = false := by
      unfold placed
      split
      · next h => exact hr.asymm _ _ h
      · next h => exact Bool.eq_false_iff.2 h
    -- what was not outranking the old top does not outrank the new one
    have hkeep : ∀ x, outRanks x mData = false →
        outRanks x (placed outRanks data mData).1 = false := by
      intro x hx
      unfold placed
      split
      · next h => exact hr.trans _ _ _ hx (hr.asymm _ _ h)
      · exact hx
    have hpushed : ∀ s : LocHeapNode α, (∀ x ∈ s.elems, outRanks x mData = false) →
        ∀ x ∈ (push outRanks s (placed outRanks data mData).2).elems,
          outRanks x (placed outRanks data mData).1 = false := by
      intro s hs x hx
      rcases List.mem_cons.1 ((push_perm outRanks s _).mem_iff.1 hx) with rfl | hx
      · exact hlow
      · exact hkeep x (hs x hx)
    rcases push_node outRanks mSize mLeft mRight mData data with h | h
    · rw [h]
      exact ⟨hpushed mLeft hl, fun x hx => hkeep x (hr' x hx), ihl hol _, hor⟩
    · rw [h]
      exact ⟨fun x hx => hkeep x (hl x hx), hpushed mRight hr', hol, ihr hor _⟩

/-! ## Pop -/

theorem pop_perm (h : t.peek = some a) : t.elems.Perm (a :: (pop outRanks t).elems) := by
  induction t generalizing a with
  | nil => cases h
  | node mSize mLeft mRight mData ihl ihr =>
    obtain rfl : mData = a := by simpa [peek] using h
    rw [pop, elems]
    split
    · next hl hr => simp [peek_eq_none hl, peek_eq_none hr, elems]
    · next r hl hr =>
      rw [elems]
      exact (((ihr hr).append_left _).trans List.perm_middle).cons _
    · next l hl hr => exact ((ihl hl).append_right _).cons _
    · next l r hl hr =>
      split
      · exact ((ihl hl).append_right _).cons _
      · rw [elems]
        exact (((ihr hr).append_left _).trans List.perm_middle).cons _

theorem mem_of_mem_pop (h : b ∈ (pop outRanks t).elems) : b ∈ t.elems := by
  cases ht : t.peek with
  | none =>
    cases t with
    | nil => exact h
    | node => cases ht
  | some a => exact (pop_perm ht).mem_iff.2 (List.mem_cons_of_mem _ h)

theorem pop_ordered (hr : Ranking outRanks) (ho : t.Ordered outRanks) :
    (pop outRanks t).Ordered outRanks := by
  induction t with
  | nil => exact trivial
  | node mSize mLeft mRight mData ihl ihr =>
    obtain ⟨-, -, hol, hor⟩ := ho
    rw [pop]
    split
    · exact trivial
    · next r hl hr' =>
      refine ⟨by simp [peek_eq_none hl], fun x hx => ?_, hol, ihr hor⟩
      exact peek_soonest hr hor hr' x (mem_of_mem_pop hx)
    · next l hl hr' =>
      refine ⟨fun x hx => ?_, by simp [peek_eq_none hr'], ihl hol, hor⟩
      exact peek_soonest hr hol hl x (mem_of_mem_pop hx)
    · next l r hl hr' =>
      have hleft := peek_soonest hr hol hl
      have hright := peek_soonest hr hor hr'
      split
      · next hlr =>
        exact ⟨fun x hx => hleft x (mem_of_mem_pop hx),
          fun x hx => hr.trans _ _ _ (hright x hx) (hr.asymm _ _ hlr), ihl hol, hor⟩
      · next hlr =>
        exact ⟨fun x hx => hr.trans _ _ _ (hleft x hx) (Bool.eq_false_iff.2 hlr),
          fun x hx => hright x (mem_of_mem_pop hx), hol, ihr hor⟩

/-! ## Remove -/

section Remove

variable [DecidableEq α]

/-- `LocHeapNode::remove`: what is left without `data`, and whether it was found. A subtree whose top
    is outranked by `data` is not searched. -/
def remove (outRanks : α → α → Bool) : LocHeapNode α → α → LocHeapNode α × Bool
  | .nil, _ => (.nil, false)
  | .node mSize mLeft mRight mData, data =>
    if data = mData then (pop outRanks (.node mSize mLeft mRight mData), true)
    else if outRanks data mData then (.node mSize mLeft mRight mData, false)
    else
      match remove outRanks mLeft data with
      | (mLeft', true) => (.node (mSize - 1) mLeft' mRight mData, true)
      | (_, false) =>
        match remove outRanks mRight data with
        | (mRight', true) => (.node (mSize - 1) mLeft mRight' mData, true)
        | (_, false) => (.node mSize mLeft mRight mData, false)

theorem remove_spec (outRanks : α → α → Bool) (t : LocHeapNode α) (data : α) :
    ((remove outRanks t data).2 = true →
        t.elems.Perm (data :: (remove outRanks t data).1.elems)) ∧
      ((remove outRanks t data).2 = false → (remove outRanks t data).1 = t) := by
  induction t with
  | nil => exact ⟨fun h => (by cases h), fun _ => rfl⟩
  | node mSize mLeft mRight mData ihl ihr =>
    rw [remove]
    split
    · next hd => exact ⟨fun _ => pop_perm (by simp [peek, hd]), fun h => by cases h⟩
    split
    · exact ⟨fun h => (by cases h), fun _ => rfl⟩
    cases hl : remove outRanks mLeft data with
    | mk mLeft' found =>
      rw [hl] at ihl
      cases found with
      | true =>
        refine ⟨fun _ => ?_, fun h => by cases h⟩
        exact (((ihl.1 rfl).append_right _).cons _).trans (.swap _ _ _)
      | false =>
        cases hr : remove outRanks mRight data with
        | mk mRight' found' =>
          rw [hr] at ihr
          cases found' with
          | true =>
            refine ⟨fun _ => ?_, fun h => by cases h⟩
            exact ((((ihr.1 rfl).append_left _).trans List.perm_middle).cons _).trans
              (.swap _ _ _)
          | false => exact ⟨fun h => (by cases h), fun _ => rfl⟩

theorem remove_found (ho : t.Ordered outRanks) (h : a ∈ t.elems) :
    (remove outRanks t a).2 = true := by
  induction t with
  | nil => exact absurd h List.not_mem_nil
  | node mSize mLeft mRight mData ihl ihr =>
    obtain ⟨hl, hr', hol, hor⟩ := ho
    rw [remove]
    by_cases hd : a = mData
    · rw [if_pos hd]
    rw [if_neg hd]
    have hbelow := (List.mem_cons.1 h).resolve_left hd
    have hnot : outRanks a mData = false := (List.mem_append.1 hbelow).elim (hl a) (hr' a)
    rw [hnot, if_neg Bool.false_ne_true]
    cases hleft : remove outRanks mLeft a with
    | mk mLeft' found =>
      cases found with
      | true => rfl
      | false =>
        have hmem : a ∈ mRight.elems := by
          refine (List.mem_append.1 hbelow).resolve_left fun hc => ?_
          have hf := ihl hol hc
          rw [hleft] at hf
          cases hf
        have hf := ihr hor hmem
        cases hright : remove outRanks mRight a with
        | mk mRight' found' =>
          rw [hright] at hf
          obtain rfl : found' = true := hf
          rfl

theorem remove_not_found (h : a ∉ t.elems) : remove outRanks t a = (t, false) := by
  obtain ⟨hfound, hnot⟩ := remove_spec outRanks t a
  cases hf : (remove outRanks t a).2 with
  | true => exact absurd ((hfound hf).mem_iff.2 (List.mem_cons_self ..)) h
  | false => exact Prod.ext (hnot hf) hf

theorem mem_of_mem_remove (h : b ∈ (remove outRanks t a).1.elems) : b ∈ t.elems := by
  obtain ⟨hfound, hnot⟩ := remove_spec outRanks t a
  cases hf : (remove outRanks t a).2 with
  | true => exact (hfound hf).mem_iff.2 (List.mem_cons_of_mem _ h)
  | false => rwa [hnot hf] at h

theorem peek_remove (outRanks : α → α → Bool) (t : LocHeapNode α) (data : α)
    (h : t.peek ≠ some data) : (remove outRanks t data).1.peek = t.peek := by
  cases t with
  | nil => rfl
  | node mSize mLeft mRight mData =>
    have hd : data ≠ mData := fun he => h (he ▸ rfl)
    rw [remove, if_neg hd]
    split
    · rfl
    split
    · rfl
    split <;> rfl

theorem remove_ordered (hr : Ranking outRanks) (ho : t.Ordered outRanks) (data : α) :
    (remove outRanks t data).1.Ordered outRanks := by
  induction t with
  | nil => exact trivial
  | node mSize mLeft mRight mData ihl ihr =>
    have hall := ho
    obtain ⟨hl, hr', hol, hor⟩ := ho
    rw [remove]
    split
    · exact pop_ordered hr hall
    split
    · exact hall
    cases hleft : remove outRanks mLeft data with
    | mk mLeft' found =>
      have ihl' := ihl hol
      have hmem := fun x => @mem_of_mem_remove _ outRanks mLeft data x _
      rw [hleft] at ihl' hmem
      cases found with
      | true => exact ⟨fun x hx => hl x (hmem x hx), hr', ihl', hor⟩
      | false =>
        cases hright : remove outRanks mRight data with
        | mk mRight' found' =>
          have ihr' := ihr hor
          have hmem' := fun x => @mem_of_mem_remove _ outRanks mRight data x _
          rw [hright] at ihr' hmem'
          cases found' with
          | true => exact ⟨hl, fun x hx => hr' x (hmem' x hx), hol, ihr'⟩
          | false => exact hall

end Remove

end LocHeapNode

end Nx508j.Loc
