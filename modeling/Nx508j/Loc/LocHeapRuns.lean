import Mathlib.Data.Multiset.AddSub
import Nx508j.Lib.Memory
import Nx508j.Loc.LocHeap

/-! # Runs of the heap

Whatever is pushed, popped and removed, the tree is one that `checkNodes` accepts: the sizes are
those of the subtrees, and no child outranks its parent. What is in the heap is a collection of
objects, in which an object may be more than once; a push adds one, a pop takes one that is not
outranked, and a removal takes the one it is given. -/

namespace Nx508j.Loc

open Nx508j.Lib

namespace LocHeapNode

variable {α : Type} {outRanks : α → α → Bool} {t : LocHeapNode α} {a : α}

/-! ## The check -/

/-- `mLeft->outRanks(*this)`, for a child that is there. -/
def topOutRanks (outRanks : α → α → Bool) (t : LocHeapNode α) (mData : α) : Bool :=
  match t.peek with
  | none => false
  | some top => outRanks top mData

/-- `LocHeapNode::checkNodes`. -/
def checkNodes (outRanks : α → α → Bool) : LocHeapNode α → Bool
  | .nil => true
  | .node mSize mLeft mRight mData =>
    if topOutRanks outRanks mLeft mData || !checkNodes outRanks mLeft then false
    else if topOutRanks outRanks mRight mData || !checkNodes outRanks mRight then false
    else mSize - mLeft.getSize - mRight.getSize = 1

/-- Each `mSize` is the number of objects in the subtree. (The `int` is a number here: the nodes
    that it could not count do not fit into memory.) -/
def Sized : LocHeapNode α → Prop
  | .nil => True
  | .node mSize mLeft mRight _ =>
    mSize = 1 + mLeft.elems.length + mRight.elems.length ∧ Sized mLeft ∧ Sized mRight

theorem Sized.getSize_eq (h : t.Sized) : t.getSize = t.elems.length := by
  cases t with
  | nil => rfl
  | node mSize mLeft mRight mData =>
    have hsize := h.1
    rw [getSize, elems, List.length_cons, List.length_append]
    omega

theorem topOutRanks_eq_false (hr : Ranking outRanks) (ho : t.Ordered outRanks) :
    topOutRanks outRanks t a = false ↔ ∀ b ∈ t.elems, outRanks b a = false := by
  cases t with
  | nil => exact iff_of_true rfl (by simp [elems])
  | node mSize mLeft mRight mData =>
    constructor
    · intro htop b hb
      have hb' : outRanks b mData = false := peek_soonest hr ho rfl b hb
      exact hr.trans b mData a hb' htop
    · intro hall
      exact hall mData (List.mem_cons_self ..)

/-- **The check.** A tree is accepted just if its sizes are right and no object is outranked by one
    below it. -/
theorem checkNodes_iff (hr : Ranking outRanks) :
    t.checkNodes outRanks = true ↔ t.Ordered outRanks ∧ t.Sized := by
  induction t with
  | nil => exact iff_of_true rfl ⟨trivial, trivial⟩
  | node mSize mLeft mRight mData ihl ihr =>
    have hsplit : (node mSize mLeft mRight mData).checkNodes outRanks = true ↔
        (topOutRanks outRanks mLeft mData = false ∧ mLeft.checkNodes outRanks = true) ∧
          (topOutRanks outRanks mRight mData = false ∧ mRight.checkNodes outRanks = true) ∧
            mSize - mLeft.getSize - mRight.getSize = 1 := by
      rw [checkNodes]
      simp
    rw [hsplit, ihl, ihr, Ordered, Sized]
    constructor
    · rintro ⟨⟨htl, hol, hsl⟩, ⟨htr, hor, hsr⟩, hsize⟩
      rw [topOutRanks_eq_false hr hol] at htl
      rw [topOutRanks_eq_false hr hor] at htr
      rw [hsl.getSize_eq, hsr.getSize_eq] at hsize
      exact ⟨⟨htl, htr, hol, hor⟩, by omega, hsl, hsr⟩
    · rintro ⟨⟨htl, htr, hol, hor⟩, hsize, hsl, hsr⟩
      rw [topOutRanks_eq_false hr hol, topOutRanks_eq_false hr hor, hsl.getSize_eq,
        hsr.getSize_eq]
      exact ⟨⟨htl, hol, hsl⟩, ⟨htr, hor, hsr⟩, by omega⟩

/-! ## The sizes -/

theorem push_sized (h : t.Sized) (data : α) : (push outRanks t data).Sized := by
  induction t generalizing data with
  | nil => exact ⟨rfl, trivial, trivial⟩
  | node mSize mLeft mRight mData ihl ihr =>
    obtain ⟨hsize, hsl, hsr⟩ := h
    rcases push_node outRanks mSize mLeft mRight mData data with h | h
    · have hlen := (push_perm outRanks mLeft (placed outRanks data mData).2).length_eq
      rw [List.length_cons] at hlen
      rw [h]
      exact ⟨by omega, ihl hsl _, hsr⟩
    · have hlen := (push_perm outRanks mRight (placed outRanks data mData).2).length_eq
      rw [List.length_cons] at hlen
      rw [h]
      exact ⟨by omega, hsl, ihr hsr _⟩

theorem pop_sized (h : t.Sized) : (pop outRanks t).Sized := by
  induction t with
  | nil => exact trivial
  | node mSize mLeft mRight mData ihl ihr =>
    obtain ⟨hsize, hsl, hsr⟩ := h
    have hleft : ∀ l, mLeft.peek = some l →
        (node (mSize - 1) (pop outRanks mLeft) mRight l).Sized := by
      intro l hl
      have hlen : mLeft.elems.length = (pop outRanks mLeft).elems.length + 1 :=
        (pop_perm hl).length_eq
      exact ⟨by omega, ihl hsl, hsr⟩
    have hright : ∀ r, mRight.peek = some r →
        (node (mSize - 1) mLeft (pop outRanks mRight) r).Sized := by
      intro r hr
      have hlen : mRight.elems.length = (pop outRanks mRight).elems.length + 1 :=
        (pop_perm hr).length_eq
      exact ⟨by omega, hsl, ihr hsr⟩
    rw [pop]
    split
    · exact trivial
    · next r _ hr => exact hright r hr
    · next l hl _ => exact hleft l hl
    · next l r hl hr =>
      split
      · exact hleft l hl
      · exact hright r hr

theorem remove_sized [DecidableEq α] (h : t.Sized) (data : α) :
    (remove outRanks t data).1.Sized := by
  induction t with
  | nil => exact trivial
  | node mSize mLeft mRight mData ihl ihr =>
    have hall := h
    obtain ⟨hsize, hsl, hsr⟩ := h
    have hleft := (remove_spec outRanks mLeft data).1
    have hright := (remove_spec outRanks mRight data).1
    have hsl' := ihl hsl
    have hsr' := ihr hsr
    rw [remove]
    split
    · exact pop_sized hall
    split
    · exact hall
    split
    · next mLeft' heq =>
      rw [heq] at hleft hsl'
      have hlen : mLeft.elems.length = mLeft'.elems.length + 1 := (hleft rfl).length_eq
      exact ⟨by omega, hsl', hsr⟩
    · split
      · next mRight' heq =>
        rw [heq] at hright hsr'
        have hlen : mRight.elems.length = mRight'.elems.length + 1 := (hright rfl).length_eq
        exact ⟨by omega, hsl, hsr'⟩
      · exact hall

/-! ## What is popped -/

/-- `LocHeapNode::pop` with what it swaps: the top, which now holds `data`, gives it to the higher
    ranked child and takes what that had, down to the leaf that is detached. -/
def popNode (outRanks : α → α → Bool) : LocHeapNode α → α → LocHeapNode α × α
  | .nil, data => (.nil, data)
  | .node mSize mLeft mRight _, data =>
    match mLeft.peek, mRight.peek with
    | none, none => (.nil, data)
    | none, some r =>
      let (mRight, poppedNode) := popNode outRanks mRight data
      (.node (mSize - 1) mLeft mRight r, poppedNode)
    | some l, none =>
      let (mLeft, poppedNode) := popNode outRanks mLeft data
      (.node (mSize - 1) mLeft mRight l, poppedNode)
    | some l, some r =>
      if outRanks l r then
        let (mLeft, poppedNode) := popNode outRanks mLeft data
        (.node (mSize - 1) mLeft mRight l, poppedNode)
      else
        let (mRight, poppedNode) := popNode outRanks mRight data
        (.node (mSize - 1) mLeft mRight r, poppedNode)

theorem popNode_eq (outRanks : α → α → Bool) (t : LocHeapNode α) (data : α) :
    popNode outRanks t data = (pop outRanks t, data) := by
  induction t with
  | nil => rfl
  | node mSize mLeft mRight mData ihl ihr =>
    rw [popNode, pop, ihl, ihr]
    cases mLeft.peek with
    | none => cases mRight.peek <;> rfl
    | some l =>
      cases mRight.peek with
      | none => rfl
      | some r =>
        dsimp only
        split <;> rfl

end LocHeapNode

/-! ## Runs -/

section Heap

variable {α : Type} [DecidableEq α]

/-- The calls of a `LocHeap`. -/
inductive HeapCall (α : Type) where
  | push (data : α)
  | pop
  | remove (data : α)

/-- `LocHeap::push`, `LocHeap::pop` and `LocHeap::remove`, with the object they return. -/
def heapStep (outRanks : α → α → Bool) (mTree : LocHeapNode α) :
    HeapCall α → Except Fault (LocHeapNode α × Option α)
  | .push data => .ok (mTree.push outRanks data, none)
  | .pop =>
    match mTree.peek with
    | none => .ok (mTree, none)
    | some top =>
      let (mTree, poppedNode) := mTree.popNode outRanks top
      .ok (mTree, some poppedNode)
  | .remove data =>
    let (mTree, found) := mTree.remove outRanks data
    .ok (mTree, if found then some data else none)

/-- What a call does to a collection of objects, and what it returns. -/
def Takes (outRanks : α → α → Bool) (m : Multiset α) (call : HeapCall α) (ret : Option α)
    (m' : Multiset α) : Prop :=
  match call, ret with
  | .push data, ret => ret = none ∧ m' = data ::ₘ m
  | .pop, none => m = 0 ∧ m' = m
  | .pop, some top => m = top ::ₘ m' ∧ ∀ b ∈ m, outRanks b top = false
  | .remove data, some found => found = data ∧ m = data ::ₘ m'
  | .remove data, none => data ∉ m ∧ m' = m

/-- The calls take an empty collection to `m`. -/
inductive TakesAll (outRanks : α → α → Bool) : List (HeapCall α × Option α) → Multiset α → Prop
  | nil : TakesAll outRanks [] 0
  | snoc {tr : List (HeapCall α × Option α)} {m m' : Multiset α} {call : HeapCall α}
      {ret : Option α} (all : TakesAll outRanks tr m) (takes : Takes outRanks m call ret m') :
      TakesAll outRanks (tr ++ [(call, ret)]) m'

variable {outRanks : α → α → Bool} {t t' : LocHeapNode α} {call : HeapCall α} {ret : Option α}

theorem heapStep_takes (hr : LocHeapNode.Ranking outRanks) (ho : t.Ordered outRanks)
    (hs : t.Sized) (h : heapStep outRanks t call = .ok (t', ret)) :
    t'.Ordered outRanks ∧ t'.Sized ∧
      Takes outRanks (t.elems : Multiset α) call ret (t'.elems : Multiset α) := by
  cases call with
  | push data =>
    cases h
    refine ⟨LocHeapNode.push_ordered hr ho data, LocHeapNode.push_sized hs data, rfl, ?_⟩
    exact Multiset.coe_eq_coe.2 (LocHeapNode.push_perm outRanks t data)
  | pop =>
    rw [heapStep] at h
    cases hpeek : t.peek with
    | none =>
      rw [hpeek] at h
      cases h
      refine ⟨ho, hs, ?_, rfl⟩
      rw [LocHeapNode.peek_eq_none hpeek]
      rfl
    | some top =>
      rw [hpeek] at h
      dsimp only at h
      rw [LocHeapNode.popNode_eq] at h
      cases h
      refine ⟨LocHeapNode.pop_ordered hr ho, LocHeapNode.pop_sized hs, ?_, ?_⟩
      · exact Multiset.coe_eq_coe.2 (LocHeapNode.pop_perm hpeek)
      · exact fun b hb => LocHeapNode.peek_soonest hr ho hpeek b hb
  | remove data =>
    have hspec := LocHeapNode.remove_spec outRanks t data
    have hord := LocHeapNode.remove_ordered hr ho data
    have hsized : (t.remove outRanks data).1.Sized := LocHeapNode.remove_sized hs data
    have hfind := LocHeapNode.remove_found (a := data) ho
    rw [heapStep] at h
    rcases hrem : t.remove outRanks data with ⟨left, found⟩
    rw [hrem] at h hspec hord hsized hfind
    cases found with
    | true =>
      cases h
      exact ⟨hord, hsized, rfl, Multiset.coe_eq_coe.2 (hspec.1 rfl)⟩
    | false =>
      obtain ⟨rfl, rfl⟩ := ok_pair h
      obtain rfl : left = t := hspec.2 rfl
      exact ⟨ho, hs, fun hmem => absurd (hfind hmem) Bool.false_ne_true, rfl⟩

theorem run_ordered {tr : List (HeapCall α × Option α)} (hr : LocHeapNode.Ranking outRanks)
    (run : Run (heapStep outRanks) (fun _ _ => True) .nil tr t) :
    (t.Ordered outRanks ∧ t.Sized) ∧ TakesAll outRanks tr (t.elems : Multiset α) := by
  refine run.invariant (fun tr t => (t.Ordered outRanks ∧ t.Sized) ∧
    TakesAll outRanks tr (t.elems : Multiset α)) ⟨⟨trivial, trivial⟩, .nil⟩ ?_
  rintro tr t call t' ret ⟨⟨ho, hs⟩, hall⟩ - hstep
  obtain ⟨ho', hs', htakes⟩ := heapStep_takes hr ho hs hstep
  exact ⟨⟨ho', hs'⟩, .snoc hall htakes⟩

/-- **The heap.** After any calls the check accepts the tree: no object is outranked by one below it
    and the sizes are those of the subtrees. And the calls did to the objects what they should. -/
theorem run_heap {tr : List (HeapCall α × Option α)} (hr : LocHeapNode.Ranking outRanks)
    (run : Run (heapStep outRanks) (fun _ _ => True) .nil tr t) :
    t.checkNodes outRanks = true ∧ t.Ordered outRanks ∧ t.Sized ∧
      TakesAll outRanks tr (t.elems : Multiset α) := by
  obtain ⟨hinv, hall⟩ := run_ordered hr run
  exact ⟨(LocHeapNode.checkNodes_iff hr).2 hinv, hinv.1, hinv.2, hall⟩

theorem ranking_lt : LocHeapNode.Ranking fun a b : Nat => decide (a < b) where
  asymm a b h := by
    have := of_decide_eq_true h
    exact decide_eq_false (by omega)
  trans a b c hab hbc := by
    have := of_decide_eq_false hab
    have := of_decide_eq_false hbc
    exact decide_eq_false (by omega)

/-- An object that is in the heap twice and is removed once, and a pop. -/
theorem run_heap_twice : ∃ tr t,
    Run (heapStep fun a b : Nat => decide (a < b)) (fun _ _ => True) .nil tr t ∧
      t.elems = [5, 7] ∧ t.checkNodes (fun a b => decide (a < b)) = true := by
  have hexec : (exec (heapStep fun a b : Nat => decide (a < b)) .nil
      [.push 7, .push 5, .push 5, .push 3, .remove 5, .pop]).toOption.map (fun x => x.1.elems) =
        some [5, 7] := by decide +kernel
  obtain ⟨tr, t, run, hleft⟩ := Run.exists_of_exec hexec (C := fun _ => True) fun _ _ => trivial
  exact ⟨tr, t, run, hleft, (run_heap ranking_lt run).1⟩

/-- **Pops come in order.** Whatever was done before, pops that follow one another return objects
    none of which is outranked by a later one or by one that is left, each as often as it was
    stored. -/
theorem run_pops {tr popped : List (HeapCall α × Option α)} (hr : LocHeapNode.Ranking outRanks)
    (run : Run (heapStep outRanks) (fun _ _ => True) .nil tr t)
    (pops : Run (heapStep outRanks) (fun _ call => call = .pop) t popped t') :
    t.elems.Perm (popped.filterMap Prod.snd ++ t'.elems) ∧
      (popped.filterMap Prod.snd).Pairwise (fun a b => outRanks b a = false) ∧
      ∀ a ∈ popped.filterMap Prod.snd, ∀ b ∈ t'.elems, outRanks b a = false := by
  refine (pops.invariant (fun popped t' => (t'.Ordered outRanks ∧ t'.Sized) ∧
    t.elems.Perm (popped.filterMap Prod.snd ++ t'.elems) ∧
      (popped.filterMap Prod.snd).Pairwise (fun a b => outRanks b a = false) ∧
      ∀ a ∈ popped.filterMap Prod.snd, ∀ b ∈ t'.elems, outRanks b a = false)
    ⟨(run_ordered hr run).1, .refl _, .nil, fun _ ha => nomatch ha⟩ ?_).2
  rintro popped t₁ call t₂ ret ⟨⟨ho, hs⟩, hperm, hsorted, hleft⟩ rfl hstep
  obtain ⟨ho', hs', htakes⟩ := heapStep_takes hr ho hs hstep
  refine ⟨⟨ho', hs'⟩, ?_⟩
  rw [List.filterMap_append]
  cases ret with
  | none =>
    obtain ⟨-, hsame⟩ := htakes
    have hsame : t₂.elems.Perm t₁.elems := Multiset.coe_eq_coe.1 hsame
    refine ⟨?_, by simpa using hsorted, fun a ha b hb => ?_⟩
    · simpa using hperm.trans (hsame.symm.append_left _)
    · exact hleft a (by simpa using ha) b (hsame.mem_iff.1 hb)
  | some top =>
    obtain ⟨htop, hfirst⟩ := htakes
    have htop : t₁.elems.Perm (top :: t₂.elems) := Multiset.coe_eq_coe.1 htop
    have hmem : top ∈ t₁.elems := htop.mem_iff.2 List.mem_cons_self
    have hrest : ∀ b ∈ t₂.elems, b ∈ t₁.elems :=
      fun b hb => htop.mem_iff.2 (List.mem_cons_of_mem top hb)
    refine ⟨?_, List.pairwise_append.2 ⟨hsorted, List.pairwise_singleton _ _, ?_⟩, ?_⟩
    · simpa using hperm.trans (htop.append_left _)
    · intro a ha b hb
      obtain rfl : b = top := List.mem_singleton.1 hb
      exact hleft a ha b hmem
    · intro a ha b hb
      rcases List.mem_append.1 ha with ha | ha
      · exact hleft a ha b (hrest b hb)
      · obtain rfl : a = top := List.mem_singleton.1 ha
        exact hfirst b (hrest b hb)

theorem run_pops_three : ∃ tr t, ∃ popped : List (HeapCall Nat × Option Nat),
    Run (heapStep fun a b => decide (a < b)) (fun _ _ => True) .nil tr t ∧
      popped.filterMap Prod.snd = [3, 5, 7] ∧ t.elems.Perm (popped.filterMap Prod.snd ++ []) := by
  obtain ⟨t, hpush, hpop⟩ : ∃ t : LocHeapNode Nat,
      exec (heapStep fun a b => decide (a < b)) .nil [.push 7, .push 3, .push 5] =
        .ok (t, [(.push 7, none), (.push 3, none), (.push 5, none)]) ∧
      exec (heapStep fun a b => decide (a < b)) t [.pop, .pop, .pop] =
        .ok (.nil, [(.pop, some 3), (.pop, some 5), (.pop, some 7)]) := ⟨_, rfl, rfl⟩
  have run := Run.of_exec (C := fun _ => True) hpush (by simp)
  have pops := Run.of_exec (C := fun call => call = .pop) hpop (by simp)
  exact ⟨_, t, _, run, rfl, (run_pops ranking_lt run pops).1⟩

/-! ## What a pop and a removal return -/

/-- `LocHeapNode::remove` with the node that it detaches: what is left, and what that node holds. -/
def LocHeapNode.removeNode (outRanks : α → α → Bool) :
    LocHeapNode α → α → LocHeapNode α × Option α
  | .nil, _ => (.nil, none)
  | .node mSize mLeft mRight mData, data =>
    if data = mData then
      let (top, poppedNode) := popNode outRanks (.node mSize mLeft mRight mData) mData
      (top, some poppedNode)
    else if outRanks data mData then (.node mSize mLeft mRight mData, none)
    else
      match removeNode outRanks mLeft data with
      | (mLeft, some removedNode) => (.node (mSize - 1) mLeft mRight mData, some removedNode)
      | (mLeft, none) =>
        match removeNode outRanks mRight data with
        | (mRight, some removedNode) => (.node (mSize - 1) mLeft mRight mData, some removedNode)
        | (mRight, none) => (.node mSize mLeft mRight mData, none)

theorem LocHeapNode.removeNode_eq (outRanks : α → α → Bool) (t : LocHeapNode α) (data : α) :
    removeNode outRanks t data =
      ((remove outRanks t data).1, if (remove outRanks t data).2 then some data else none) := by
  induction t with
  | nil => rfl
  | node mSize mLeft mRight mData ihl ihr =>
    have hleft := (remove_spec outRanks mLeft data).2
    have hright := (remove_spec outRanks mRight data).2
    rw [removeNode, remove]
    by_cases hd : data = mData
    · rw [if_pos hd, if_pos hd, popNode_eq]
      simp [hd]
    rw [if_neg hd, if_neg hd]
    by_cases hout : outRanks data mData = true
    · rw [if_pos hout, if_pos hout]
      rfl
    rw [if_neg hout, if_neg hout, ihl, ihr]
    rcases hl : remove outRanks mLeft data with ⟨mLeft', found⟩
    rcases hr : remove outRanks mRight data with ⟨mRight', found'⟩
    rw [hl] at hleft
    rw [hr] at hright
    -- a search that finds nothing leaves its subtree as it is
    cases found with
    | true => rfl
    | false =>
      obtain rfl := hleft rfl
      cases found' with
      | true => rfl
      | false =>
        obtain rfl := hright rfl
        rfl

/-- `LocHeap::pop` -/
def heapPop (outRanks : α → α → Bool) (mTree : LocHeapNode α) : LocHeapNode α × Option α :=
  match mTree.peek with
  | none => (mTree, none)
  | some mData =>
    let (mTree, heapNode) := mTree.popNode outRanks mData
    (mTree, some heapNode)

/-- `LocHeap::remove` -/
def heapRemove (outRanks : α → α → Bool) (mTree : LocHeapNode α) (rankable : α) :
    LocHeapNode α × Option α :=
  if mTree.isNull then (mTree, none) else mTree.removeNode outRanks rankable

/-- **The property.** A pop takes an object that no other outranks, and a removal takes the object
    that it is given, if it is there, and that one only; else the tree stays as it is. -/
structure PopsAndRemoves (outRanks : α → α → Bool) (t : LocHeapNode α) : Prop where
  empty : t.elems = [] → heapPop outRanks t = (t, none)
  pops : t.elems ≠ [] → ∃ top t', heapPop outRanks t = (t', some top) ∧
    t.elems.Perm (top :: t'.elems) ∧ ∀ b ∈ t'.elems, outRanks b top = false
  removes : ∀ d ∈ t.elems, ∃ t', heapRemove outRanks t d = (t', some d) ∧
    t.elems.Perm (d :: t'.elems)
  keeps : ∀ d, d ∉ t.elems → heapRemove outRanks t d = (t, none)

theorem heapRemove_stored (ho : t.Ordered outRanks) {d : α} (hd : d ∈ t.elems) :
    ∃ t', heapRemove outRanks t d = (t', some d) ∧ t.elems.Perm (d :: t'.elems) := by
  have hfound := LocHeapNode.remove_found ho hd
  have hspec := (LocHeapNode.remove_spec outRanks t d).1 hfound
  refine ⟨(LocHeapNode.remove outRanks t d).1, ?_, hspec⟩
  unfold heapRemove
  cases t with
  | nil => exact absurd hd List.not_mem_nil
  | node mSize mLeft mRight mData =>
    rw [if_neg (by simp [LocHeapNode.isNull]), LocHeapNode.removeNode_eq, hfound, if_pos rfl]

theorem heapRemove_absent {d : α} (hd : d ∉ t.elems) : heapRemove outRanks t d = (t, none) := by
  unfold heapRemove
  split
  · rfl
  · rw [LocHeapNode.removeNode_eq, LocHeapNode.remove_not_found hd]
    rfl

/-- **After any calls**, a pop and a removal take what they should. -/
theorem run_popsAndRemoves {tr : List (HeapCall α × Option α)} (hr : LocHeapNode.Ranking outRanks)
    (run : Run (heapStep outRanks) (fun _ _ => True) .nil tr t) : PopsAndRemoves outRanks t := by
  obtain ⟨⟨ho, -⟩, -⟩ := run_ordered hr run
  refine ⟨?_, ?_, fun d hd => heapRemove_stored ho hd, fun d hd => heapRemove_absent hd⟩
  · intro hempty
    cases t with
    | nil => rfl
    | node mSize mLeft mRight mData => cases hempty
  · intro hne
    unfold heapPop
    cases hpeek : t.peek with
    | none => exact absurd (LocHeapNode.peek_eq_none hpeek) hne
    | some top =>
      dsimp only
      rw [LocHeapNode.popNode_eq]
      refine ⟨top, t.pop outRanks, rfl, LocHeapNode.pop_perm hpeek, fun b hb => ?_⟩
      exact LocHeapNode.peek_soonest hr ho hpeek b (LocHeapNode.mem_of_mem_pop hb)

theorem ranking_fst : LocHeapNode.Ranking fun a b : Nat × Nat => decide (a.1 < b.1) where
  asymm a b := ranking_lt.asymm a.1 b.1
  trans a b c := ranking_lt.trans a.1 b.1 c.1

/-- Objects of the same rank, of which the last one is removed. -/
theorem run_popsAndRemoves_ties : ∃ tr t,
    Run (heapStep fun a b : Nat × Nat => decide (a.1 < b.1)) (fun _ _ => True) .nil tr t ∧
      t.elems = [(0, 3), (1, 1), (1, 0), (1, 2)] ∧
        PopsAndRemoves (fun a b : Nat × Nat => decide (a.1 < b.1)) t ∧
          ∃ t', heapRemove (fun a b : Nat × Nat => decide (a.1 < b.1)) t (1, 2) =
            (t', some (1, 2)) := by
  have hexec : (exec (heapStep fun a b : Nat × Nat => decide (a.1 < b.1)) .nil
      [.push (1, 0), .push (1, 1), .push (1, 2), .push (0, 3)]).toOption.map (fun x => x.1.elems) =
        some [(0, 3), (1, 1), (1, 0), (1, 2)] := by decide +kernel
  obtain ⟨tr, t, run, hleft⟩ := Run.exists_of_exec hexec (C := fun _ => True) fun _ _ => trivial
  have hproperty := run_popsAndRemoves ranking_fst run
  obtain ⟨t', hremove, -⟩ := hproperty.removes (1, 2) (by rw [hleft]; decide)
  exact ⟨tr, t, run, hleft, hproperty, t', hremove⟩

end Heap

end Nx508j.Loc
