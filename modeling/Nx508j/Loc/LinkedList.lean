import Nx508j.Lib.LinkedRing
import Nx508j.Lib.Memory

/-! # The linked list of the location utilities

Elements are allocated one by one and linked both ways between `p_head` and `p_tail`. New ones go in
at the head, `linked_list_remove` takes from the tail, and a search may take an element out from
anywhere. A pointer that leads nowhere is a fault when it is followed. -/

namespace Nx508j.Loc

open Nx508j.Lib Function

/-- `linked_list_err_type` -/
inductive LinkedListErr where
  | eLINKED_LIST_SUCCESS
  | eLINKED_LIST_FAILURE_GENERAL
  | eLINKED_LIST_INVALID_PARAMETER
  | eLINKED_LIST_INVALID_HANDLE
  | eLINKED_LIST_UNAVAILABLE_RESOURCE
  | eLINKED_LIST_INSUFFICIENT_BUFFER
deriving DecidableEq, Repr

/-- `list_element`. Addresses and functions are numbers, and `none` is the null pointer. -/
structure ListElement where
  next : Option Nat
  prev : Option Nat
  data_ptr : Nat
  dealloc_func : Option Nat
deriving DecidableEq, Repr

/-- `list_state`, with the elements that are allocated and their number. -/
structure LinkedList where
  p_head : Option Nat := none
  p_tail : Option Nat := none
  element : Nat → Option ListElement := fun _ => none
  used : Nat := 0

/-- What a call returns, what it writes to its output parameter if anything, and the calls of
    deallocation functions it makes, with their argument. -/
structure ListResult where
  err : LinkedListErr
  data : Option (Option Nat) := none
  deallocs : List (Nat × Nat) := []
deriving DecidableEq, Repr

/-- What the list holds for its user. -/
def ListElement.item (e : ListElement) : Nat × Option Nat := (e.data_ptr, e.dealloc_func)

/-- The call of the deallocation function, if there is one. -/
def ListElement.dealloc (e : ListElement) : List (Nat × Nat) :=
  e.dealloc_func.toList.map fun f => (f, e.data_ptr)

namespace LinkedList

def deref (s : LinkedList) (p : Option Nat) : Except Fault ListElement :=
  match p.bind s.element with
  | none => .error .outOfBounds
  | some e => .ok e

/-- Write to the element a pointer points to. -/
def modify (s : LinkedList) (p : Option Nat) (f : ListElement → ListElement) :
    Except Fault LinkedList :=
  match p with
  | none => .error .outOfBounds
  | some a =>
    match s.element a with
    | none => .error .outOfBounds
    | some e => .ok { s with element := update s.element a (some (f e)) }

/-- `p->next = v` -/
def setNext (s : LinkedList) (p v : Option Nat) : Except Fault LinkedList :=
  s.modify p fun e => { e with next := v }

/-- `p->prev = v` -/
def setPrev (s : LinkedList) (p v : Option Nat) : Except Fault LinkedList :=
  s.modify p fun e => { e with prev := v }

/-- The test of a pointer before its use: without an element, the head is what leads to `v`. -/
def setNextOrHead (s : LinkedList) (p v : Option Nat) : Except Fault LinkedList :=
  if p = none then .ok { s with p_head := v } else s.setNext p v

/-- The same at the other end. -/
def setPrevOrTail (s : LinkedList) (p v : Option Nat) : Except Fault LinkedList :=
  if p = none then .ok { s with p_tail := v } else s.setPrev p v

/-- A block that is not in use becomes an element. -/
def alloc (s : LinkedList) (a : Nat) (e : ListElement) : LinkedList :=
  { s with element := update s.element a (some e), used := s.used + 1 }

/-- `free(p)` -/
def free (s : LinkedList) : Option Nat → LinkedList
  | none => s
  | some a => { s with element := update s.element a none, used := s.used - 1 }

/-! ## The calls -/

/-- `linked_list_add`, with the block that `malloc` returns. It returns none that is in use. -/
def linked_list_add (s : LinkedList) (list_data : Bool) (data_obj dealloc malloc : Option Nat) :
    Except Fault (LinkedList × ListResult) :=
  if list_data = false then .ok (s, { err := .eLINKED_LIST_INVALID_HANDLE })
  else match data_obj with
  | none => .ok (s, { err := .eLINKED_LIST_INVALID_PARAMETER })
  | some data_obj =>
    match malloc.filter fun a => (s.element a).isNone with
    | none => .ok (s, { err := .eLINKED_LIST_FAILURE_GENERAL })
    | some elem => do
        let s := s.alloc elem ⟨none, none, data_obj, dealloc⟩
        let tmp := s.p_head
        let s := { s with p_head := some elem }
        let s ← s.setNext s.p_head tmp
        let s ← s.setPrevOrTail tmp s.p_head
        .ok (s, { err := .eLINKED_LIST_SUCCESS })

/-- `linked_list_remove`. Of the output parameter it is known whether it is there. -/
def linked_list_remove (s : LinkedList) (list_data data_obj : Bool) :
    Except Fault (LinkedList × ListResult) :=
  if list_data = false then .ok (s, { err := .eLINKED_LIST_INVALID_HANDLE })
  else if data_obj = false then .ok (s, { err := .eLINKED_LIST_INVALID_PARAMETER })
  else if s.p_tail = none then .ok (s, { err := .eLINKED_LIST_UNAVAILABLE_RESOURCE })
  else do
    let tmp := s.p_tail
    let e ← s.deref tmp
    let s := { s with p_tail := e.prev }
    let s ← s.setNextOrHead s.p_tail none
    let e ← s.deref tmp
    .ok (s.free tmp, { err := .eLINKED_LIST_SUCCESS, data := some (some e.data_ptr) })

/-- The loop of `linked_list_flush`. -/
def flushFrom : Nat → LinkedList → Except Fault (LinkedList × List (Nat × Nat))
  | 0, s => if s.p_head = none then .ok (s, []) else .error .diverges
  | fuel + 1, s =>
    if s.p_head = none then .ok (s, [])
    else do
      let e ← s.deref s.p_head
      let s := s.free s.p_head
      let (s, deallocs) ← flushFrom fuel { s with p_head := e.next }
      .ok (s, e.dealloc ++ deallocs)

def linked_list_flush (s : LinkedList) (list_data : Bool) :
    Except Fault (LinkedList × ListResult) :=
  if list_data = false then .ok (s, { err := .eLINKED_LIST_INVALID_HANDLE })
  else do
    let (s, deallocs) ← flushFrom s.used s
    .ok ({ s with p_tail := none }, { err := .eLINKED_LIST_SUCCESS, deallocs := deallocs })

/-- `linked_list_search` takes out the element it found. -/
def takeOut (s : LinkedList) (data_p : Bool) (tmp : Option Nat) :
    Except Fault (LinkedList × List (Nat × Nat)) := do
  let e ← s.deref tmp
  let s ← s.setNextOrHead e.prev e.next
  let e ← s.deref tmp
  let s ← s.setPrevOrTail e.next e.prev
  let s ← s.setNext tmp none
  let s ← s.setPrev tmp none
  let e ← s.deref tmp
  .ok (s.free tmp, if data_p then [] else e.dealloc)

/-- The loop of `linked_list_search`, with the data of the element it found. -/
def searchFrom (equal : Nat → Bool) (data_p rm_if_found : Bool) : Nat → LinkedList → Option Nat →
    Except Fault (LinkedList × Option Nat × List (Nat × Nat))
  | 0, s, tmp => if tmp = none then .ok (s, none, []) else .error .diverges
  | fuel + 1, s, tmp =>
    if tmp = none then .ok (s, none, [])
    else do
      let e ← s.deref tmp
      if equal e.data_ptr then do
        let (s, deallocs) ← if rm_if_found then s.takeOut data_p tmp else .ok (s, [])
        .ok (s, some e.data_ptr, deallocs)
      else searchFrom equal data_p rm_if_found fuel s e.next

/-- `linked_list_search`. `equal` has its first argument already. -/
def linked_list_search (s : LinkedList) (list_data data_p : Bool) (equal : Option (Nat → Bool))
    (rm_if_found : Bool) : Except Fault (LinkedList × ListResult) :=
  match equal with
  | none => .ok (s, { err := .eLINKED_LIST_INVALID_HANDLE })
  | some equal =>
    if list_data = false then .ok (s, { err := .eLINKED_LIST_INVALID_HANDLE })
    else if s.p_tail = none then .ok (s, { err := .eLINKED_LIST_UNAVAILABLE_RESOURCE })
    else do
      let (s, data, deallocs) ← searchFrom equal data_p rm_if_found s.used s s.p_head
      .ok (s, { err := .eLINKED_LIST_SUCCESS, data := if data_p then some data else none,
                deallocs := deallocs })

end LinkedList

/-- A call on a list. -/
inductive ListCall where
  | add (list_data : Bool) (data_obj dealloc malloc : Option Nat)
  | remove (list_data data_obj : Bool)
  | flush (list_data : Bool)
  | search (list_data data_p : Bool) (equal : Option (Nat → Bool)) (rm_if_found : Bool)

def LinkedList.step (s : LinkedList) : ListCall → Except Fault (LinkedList × ListResult)
  | .add list_data data_obj dealloc malloc => s.linked_list_add list_data data_obj dealloc malloc
  | .remove list_data data_obj => s.linked_list_remove list_data data_obj
  | .flush list_data => s.linked_list_flush list_data
  | .search list_data data_p equal rm_if_found =>
    s.linked_list_search list_data data_p equal rm_if_found

/-! ## What a list is for -/

/-- The data and the deallocation functions from the head to the tail: the last added is first. -/
abbrev Items := List (Nat × Option Nat)

/-- The calls of deallocation functions for these. -/
def Items.deallocs (items : Items) : List (Nat × Nat) :=
  items.flatMap fun i => i.2.toList.map fun f => (f, i.1)

/-- What a call does to the items and returns. `stored` says whether there was memory. -/
def Items.call (items : Items) (stored : Bool) : ListCall → Items × ListResult
  | .add list_data data_obj dealloc _ =>
    if list_data = false then (items, { err := .eLINKED_LIST_INVALID_HANDLE })
    else match data_obj with
    | none => (items, { err := .eLINKED_LIST_INVALID_PARAMETER })
    | some data_obj =>
      if stored then ((data_obj, dealloc) :: items, { err := .eLINKED_LIST_SUCCESS })
      else (items, { err := .eLINKED_LIST_FAILURE_GENERAL })
  | .remove list_data data_obj =>
    if list_data = false then (items, { err := .eLINKED_LIST_INVALID_HANDLE })
    else if data_obj = false then (items, { err := .eLINKED_LIST_INVALID_PARAMETER })
    else match items.getLast? with
    | none => (items, { err := .eLINKED_LIST_UNAVAILABLE_RESOURCE })
    | some oldest =>
      (items.dropLast, { err := .eLINKED_LIST_SUCCESS, data := some (some oldest.1) })
  | .flush list_data =>
    if list_data = false then (items, { err := .eLINKED_LIST_INVALID_HANDLE })
    else ([], { err := .eLINKED_LIST_SUCCESS, deallocs := items.deallocs })
  | .search list_data data_p equal rm_if_found =>
    match equal with
    | none => (items, { err := .eLINKED_LIST_INVALID_HANDLE })
    | some equal =>
      if list_data = false then (items, { err := .eLINKED_LIST_INVALID_HANDLE })
      else if items = [] then (items, { err := .eLINKED_LIST_UNAVAILABLE_RESOURCE })
      else
        let found := items.find? fun i => equal i.1
        (if rm_if_found then items.eraseP fun i => equal i.1 else items,
          { err := .eLINKED_LIST_SUCCESS
            data := if data_p then some (found.map Prod.fst) else none
            deallocs := if rm_if_found && !data_p then Items.deallocs found.toList else [] })

/-- The calls with these results leave these items. -/
inductive Behaves : List (ListCall × ListResult) → Items → Prop
  | nil : Behaves [] []
  | snoc {tr : List (ListCall × ListResult)} {items items' : Items} {c : ListCall} {r : ListResult}
      (stored : Bool) (h : Behaves tr items) (hcall : items.call stored c = (items', r)) :
      Behaves (tr ++ [(c, r)]) items'

/-- The data a call added. -/
def added : ListCall × ListResult → Option Nat
  | (.add _ data_obj _ _, r) => if r.err = .eLINKED_LIST_SUCCESS then data_obj else none
  | _ => none

/-- The data a call of `linked_list_remove` returned. -/
def removed : ListCall × ListResult → Option Nat
  | (.remove _ _, r) => r.data.join
  | _ => none

theorem Items.call_fifo {items items' : Items} {stored : Bool} {c : ListCall} {r : ListResult}
    (hcall : items.call stored c = (items', r)) :
    ((removed (c, r)).toList ++ (items'.map Prod.fst).reverse).Sublist
      ((items.map Prod.fst).reverse ++ (added (c, r)).toList) := by
  cases c with
  | add list_data data_obj dealloc malloc =>
    simp only [Items.call] at hcall
    split at hcall
    · obtain ⟨rfl, rfl⟩ := Prod.mk.inj hcall
      simp [removed]
    · split at hcall
      · obtain ⟨rfl, rfl⟩ := Prod.mk.inj hcall
        simp [removed]
      · split at hcall <;> obtain ⟨rfl, rfl⟩ := Prod.mk.inj hcall <;> simp [removed, added]
  | remove list_data data_obj =>
    simp only [Items.call] at hcall
    split at hcall
    · obtain ⟨rfl, rfl⟩ := Prod.mk.inj hcall
      simp [removed]
    split at hcall
    · obtain ⟨rfl, rfl⟩ := Prod.mk.inj hcall
      simp [removed]
    split at hcall
    · obtain ⟨rfl, rfl⟩ := Prod.mk.inj hcall
      simp [removed]
    · next oldest holdest =>
      -- the oldest is the last, and comes first from the tail on
      obtain ⟨rest, rfl⟩ := List.getLast?_eq_some_iff.1 holdest
      obtain ⟨rfl, rfl⟩ := Prod.mk.inj hcall
      simp [removed]
  | flush list_data =>
    simp only [Items.call] at hcall
    split at hcall <;> obtain ⟨rfl, rfl⟩ := Prod.mk.inj hcall <;> simp [removed]
  | search list_data data_p equal rm_if_found =>
    have hsub : items'.Sublist items := by
      simp only [Items.call] at hcall
      split at hcall
      · obtain ⟨rfl, rfl⟩ := Prod.mk.inj hcall
        exact .refl _
      split at hcall
      · obtain ⟨rfl, rfl⟩ := Prod.mk.inj hcall
        exact .refl _
      · split at hcall
        · obtain ⟨rfl, rfl⟩ := Prod.mk.inj hcall
          exact .refl _
        · obtain ⟨rfl, -⟩ := Prod.mk.inj hcall
          split
          · exact List.eraseP_sublist
          · exact .refl _
    simpa [removed, added] using (hsub.map Prod.fst).reverse

theorem Behaves.fifo {tr : List (ListCall × ListResult)} {items : Items} (h : Behaves tr items) :
    (tr.filterMap removed ++ (items.map Prod.fst).reverse).Sublist (tr.filterMap added) := by
  induction h with
  | nil => exact .slnil
  | @snoc tr items items' c r stored h hcall ih =>
    have hlast : ∀ f : ListCall × ListResult → Option Nat,
        (tr ++ [(c, r)]).filterMap f = tr.filterMap f ++ (f (c, r)).toList := fun f => by
      cases hf : f (c, r) <;> simp [hf]
    rw [hlast, hlast, List.append_assoc]
    refine ((Items.call_fifo hcall).append_left _).trans ?_
    rw [← List.append_assoc]
    exact ih.append_right _

/-! ## Well-formed lists -/

namespace LinkedList

/-- The `next` links, from the list itself to its head as well. -/
def nextOf (s : LinkedList) : Option Nat → Option Nat
  | none => s.p_head
  | some a => (s.element a).bind ListElement.next

/-- The `prev` links, from the list itself to its tail as well. -/
def prevOf (s : LinkedList) : Option Nat → Option Nat
  | none => s.p_tail
  | some a => (s.element a).bind ListElement.prev

/-- What the elements at these addresses hold. -/
def items (s : LinkedList) (l : List Nat) : Items :=
  l.filterMap fun a => (s.element a).map ListElement.item

/-- `l` is a doubly linked list from the head to the tail. -/
structure WellFormed (s : LinkedList) (l : List Nat) : Prop where
  nodup : l.Nodup
  null : s.p_head = none ↔ s.p_tail = none
  next_prev : ∀ a e b, a ∈ l → s.element a = some e → e.next = some b →
    b ∈ l ∧ ∃ e', s.element b = some e' ∧ e'.prev = some a
  prev_next : ∀ a e b, a ∈ l → s.element a = some e → e.prev = some b →
    b ∈ l ∧ ∃ e', s.element b = some e' ∧ e'.next = some a
  head_prev : ∀ a, s.p_head = some a → ∃ e, s.element a = some e ∧ e.prev = none
  tail_next : ∀ a, s.p_tail = some a → ∃ e, s.element a = some e ∧ e.next = none
  forward : walk s.nextOf none s.used s.p_head = l.map some
  backward : walk s.prevOf none s.used s.p_tail = (l.map some).reverse

/-- The links are a ring through the list itself, over every element that is allocated. -/
structure Holds (s : LinkedList) (l : List Nat) : Prop where
  ring : LinkedRing s.nextOf s.prevOf none (l.map some)
  live : ∀ a, s.element a ≠ none ↔ a ∈ l
  used : s.used = l.length

/-- The same elements are allocated and hold the same. -/
structure Alike (s s' : LinkedList) : Prop where
  item : ∀ a, (s'.element a).map ListElement.item = (s.element a).map ListElement.item
  used : s'.used = s.used

section Links

variable {s s' : LinkedList} {l : List Nat} {p v : Option Nat} {a : Nat} {e : ListElement}

theorem Alike.trans {s'' : LinkedList} (h : s.Alike s') (h' : s'.Alike s'') : s.Alike s'' :=
  ⟨fun a => (h'.item a).trans (h.item a), h'.used.trans h.used⟩

theorem Alike.live (h : s.Alike s') (a : Nat) : s'.element a ≠ none ↔ s.element a ≠ none := by
  have hitem := congrArg Option.isSome (h.item a)
  simp only [Option.isSome_map] at hitem
  rw [← Option.isSome_iff_ne_none, ← Option.isSome_iff_ne_none, hitem]

theorem Alike.items (h : s.Alike s') (l : List Nat) : s'.items l = s.items l :=
  List.filterMap_congr fun a _ => h.item a

theorem Alike.exists_element (h : s.Alike s') (he : s.element a = some e) :
    ∃ e', s'.element a = some e' ∧ e'.item = e.item := by
  have hitem := h.item a
  rw [he, Option.map_some, Option.map_eq_some_iff] at hitem
  exact hitem

theorem deref_ok (he : s.element a = some e) : s.deref (some a) = .ok e := by
  simp [deref, he]

/-- A write through a pointer to a live element. -/
theorem modify_ok {f : ListElement → ListElement} (he : s.element a = some e)
    (hf : (f e).item = e.item) : ∃ s', s.modify (some a) f = .ok s' ∧ s.Alike s' ∧
      s'.nextOf = update s.nextOf (some a) (f e).next ∧
      s'.prevOf = update s.prevOf (some a) (f e).prev := by
  refine ⟨{ s with element := update s.element a (some (f e)) },
    by simp only [modify, he], ⟨fun b => ?_, rfl⟩, ?_, ?_⟩
  · by_cases hb : b = a
    · subst hb
      simp [he, hf]
    · simp [hb]
  · funext q
    cases q with
    | none => simp [nextOf]
    | some b => by_cases hb : b = a <;> simp [nextOf, hb]
  · funext q
    cases q with
    | none => simp [prevOf]
    | some b => by_cases hb : b = a <;> simp [prevOf, hb]

theorem nextOf_eq (he : s.element a = some e) : s.nextOf (some a) = e.next := by
  simp [nextOf, he]

theorem prevOf_eq (he : s.element a = some e) : s.prevOf (some a) = e.prev := by
  simp [prevOf, he]

theorem nextOf_head (s : LinkedList) (v : Option Nat) :
    nextOf { s with p_head := v } = update s.nextOf none v := by
  funext q
  cases q <;> simp [nextOf]

theorem prevOf_tail (s : LinkedList) (v : Option Nat) :
    prevOf { s with p_tail := v } = update s.prevOf none v := by
  funext q
  cases q <;> simp [prevOf]

theorem nextOf_alloc (s : LinkedList) (a : Nat) (e : ListElement) :
    (s.alloc a e).nextOf = update s.nextOf (some a) e.next := by
  funext q
  cases q with
  | none => simp [nextOf, alloc]
  | some b => by_cases hb : b = a <;> simp [nextOf, alloc, hb]

theorem prevOf_alloc (s : LinkedList) (a : Nat) (e : ListElement) :
    (s.alloc a e).prevOf = update s.prevOf (some a) e.prev := by
  funext q
  cases q with
  | none => simp [prevOf, alloc]
  | some b => by_cases hb : b = a <;> simp [prevOf, alloc, hb]

/-- The pointer to what comes next, of an element or of the list itself. -/
theorem setNextOrHead_ok (hp : ∀ a, p = some a → s.element a ≠ none) (v : Option Nat) :
    ∃ s', s.setNextOrHead p v = .ok s' ∧
      s.Alike s' ∧ s'.nextOf = update s.nextOf p v ∧ s'.prevOf = s.prevOf := by
  cases p with
  | none =>
    refine ⟨{ s with p_head := v }, if_pos rfl, ⟨fun _ => rfl, rfl⟩, nextOf_head s v, ?_⟩
    funext q
    cases q <;> rfl
  | some a =>
    obtain ⟨e, he⟩ := Option.ne_none_iff_exists'.1 (hp a rfl)
    obtain ⟨s', hs', halike, hnext, hprev⟩ :=
      modify_ok (f := fun e => { e with next := v }) he rfl
    refine ⟨s', hs', halike, hnext, ?_⟩
    rw [hprev, ← prevOf_eq he, update_eq_self]

theorem setPrevOrTail_ok (hp : ∀ a, p = some a → s.element a ≠ none) (v : Option Nat) :
    ∃ s', s.setPrevOrTail p v = .ok s' ∧
      s.Alike s' ∧ s'.nextOf = s.nextOf ∧ s'.prevOf = update s.prevOf p v := by
  cases p with
  | none =>
    refine ⟨{ s with p_tail := v }, if_pos rfl, ⟨fun _ => rfl, rfl⟩, ?_, prevOf_tail s v⟩
    funext q
    cases q <;> rfl
  | some a =>
    obtain ⟨e, he⟩ := Option.ne_none_iff_exists'.1 (hp a rfl)
    obtain ⟨s', hs', halike, hnext, hprev⟩ :=
      modify_ok (f := fun e => { e with prev := v }) he rfl
    refine ⟨s', hs', halike, ?_, hprev⟩
    rw [hnext, ← nextOf_eq he, update_eq_self]

theorem Holds.nodup (h : s.Holds l) : l.Nodup :=
  (List.nodup_cons.1 h.ring.nodup).2.of_map

theorem Holds.exists_element (h : s.Holds l) (ha : a ∈ l) : ∃ e, s.element a = some e :=
  Option.ne_none_iff_exists'.1 ((h.live a).2 ha)

theorem Holds.live_of_mem (h : s.Holds l) {q : Option Nat} (hq : q ∈ none :: l.map some) :
    ∀ a, q = some a → s.element a ≠ none := by
  rintro a rfl
  exact (h.live a).2 (by simpa using hq)

theorem Holds.head_eq (h : s.Holds l) : s.p_head = l.head? := by
  have hnext := h.ring.next_base
  cases l with
  | nil | cons a l => simpa [nextOf, eq_comm] using hnext

/-- The next of an element is the next in the list. -/
theorem Holds.next_eq {l₁ l₂ : List Nat} {z : Nat} (h : s.Holds (l₁ ++ z :: l₂)) :
    s.nextOf (some z) = l₂.head? := by
  have hring : LinkedRing s.nextOf s.prevOf none (l₁.map some ++ some z :: l₂.map some) := by
    simpa using h.ring
  have hnext := hring.neighbours.2
  cases l₂ with
  | nil => simpa [eq_comm] using hnext
  | cons a l => simpa [eq_comm] using hnext

theorem items_cons (he : s.element a = some e) (l : List Nat) :
    s.items (a :: l) = e.item :: s.items l := by
  simp [items, he]

theorem items_append (s : LinkedList) (l l' : List Nat) :
    s.items (l ++ l') = s.items l ++ s.items l' :=
  List.filterMap_append

theorem Holds.tail_eq (h : s.Holds l) : s.p_tail = l.getLast? := by
  have hprev := h.ring.prev_base
  rw [List.getLast?_cons, List.getLast?_map] at hprev
  rw [show s.p_tail = s.prevOf none from rfl, ← Option.some.inj hprev]
  cases l.getLast? <;> rfl

end Links

/-! ## What the calls do -/

section Calls

variable {s : LinkedList} {l : List Nat} {z : Nat}

/-- A new element comes first. -/
theorem linked_list_add_stored (h : s.Holds l) (data_obj : Nat) (dealloc : Option Nat) {elem : Nat}
    (hfree : s.element elem = none) :
    ∃ s', s.linked_list_add true (some data_obj) dealloc (some elem) =
        .ok (s', { err := .eLINKED_LIST_SUCCESS }) ∧
      s'.Holds (elem :: l) ∧ s'.items (elem :: l) = (data_obj, dealloc) :: s.items l := by
  have hnew : elem ∉ l := fun hmem => (h.live elem).2 hmem hfree
  let s₁ := { s.alloc elem ⟨none, none, data_obj, dealloc⟩ with p_head := some elem }
  have he₁ : s₁.element elem = some ⟨none, none, data_obj, dealloc⟩ := by simp [s₁, alloc]
  have hlive₁ : ∀ a, s₁.element a ≠ none ↔ a = elem ∨ a ∈ l := fun a => by
    by_cases ha : a = elem <;> simp [s₁, alloc, ha, ← h.live]
  -- the pointer to the old head, and the one back from it
  obtain ⟨s₂, hs₂, halike₂, hnext₂, hprev₂⟩ :=
    modify_ok (f := fun e => { e with next := s.p_head }) he₁ rfl
  have hhead : s.p_head ∈ none :: l.map some := (h.ring.prev_next (x := none) (by simp)).1
  have hp : ∀ a, s.p_head = some a → s₂.element a ≠ none := fun a ha => by
    rw [halike₂.live, hlive₁]
    rw [ha] at hhead
    exact .inr (by simpa using hhead)
  obtain ⟨s₃, hs₃, halike₃, hnext₃, hprev₃⟩ := setPrevOrTail_ok hp s₂.p_head
  have hhead₂ : s₂.p_head = some elem := by
    rw [show s₂.p_head = s₂.nextOf none from rfl, hnext₂]
    simp [nextOf, s₁]
  have hnext₁ : s₁.nextOf =
      update (update s.nextOf (some elem) none) none (some elem) := by
    rw [nextOf_head, nextOf_alloc]
  have hprev₁ : s₁.prevOf = update s.prevOf (some elem) none :=
    prevOf_alloc s elem ⟨none, none, data_obj, dealloc⟩
  rw [hhead₂, hprev₂, hprev₁] at hprev₃
  rw [hnext₂, hnext₁] at hnext₃
  have hne : some elem ∉ none :: ([] ++ l.map some) := by simpa using hnew
  refine ⟨s₃, ?_, ⟨?_, fun a => ?_, ?_⟩, ?_⟩
  · have hs₂' : s₁.setNext (some elem) s.p_head = .ok s₂ := hs₂
    have hmalloc : (some elem).filter (fun a => (s.element a).isNone) = some elem := by
      simp [hfree]
    simp only [linked_list_add, Bool.true_eq_false, ↓reduceIte, hmalloc]
    refine (congrArg (· >>= _) hs₂').trans ?_
    rw [ok_bind]
    exact congrArg (· >>= _) hs₃
  · have hbase : s.nextOf none = s.p_head := rfl
    refine LinkedRing.insert [] (l.map some) h.ring hne rfl h.ring.next_base ?_ ?_ ?_ ?_
    · simp only [NextTo, hnext₃, hprev₃]
      grind
    · simp only [NextTo, hnext₃, hprev₃]
      grind
    · intro a ha hx
      rw [hnext₃]
      grind
    · intro a ha hy
      rw [hprev₃]
      grind
  · rw [halike₃.live, halike₂.live, hlive₁, List.mem_cons]
  · rw [halike₃.used, halike₂.used]
    simp [s₁, alloc, h.used]
  · rw [halike₃.items, halike₂.items]
    have hother : ∀ a ∈ l, s₁.element a = s.element a := fun a ha => by
      have hne : a ≠ elem := fun heq => hnew (heq ▸ ha)
      simp [s₁, alloc, hne]
    simp only [items, List.filterMap_cons, he₁, Option.map_some]
    rw [List.filterMap_congr fun a ha => by rw [hother a ha]]
    rfl

/-- Without its links an element can be freed. -/
theorem free_ok (l₁ l₂ : List Nat) (h : s.Holds l) (hl : l = l₁ ++ z :: l₂)
    {s' : LinkedList} (halike : s.Alike s')
    (hjoin : NextTo s'.nextOf s'.prevOf (s.prevOf (some z)) (s.nextOf (some z)))
    (hnext : ∀ a ∈ none :: (l₁ ++ l₂).map some, a ≠ s.prevOf (some z) → s'.nextOf a = s.nextOf a)
    (hprev : ∀ a ∈ none :: (l₁ ++ l₂).map some, a ≠ s.nextOf (some z) → s'.prevOf a = s.prevOf a) :
    (s'.free (some z)).Holds (l₁ ++ l₂) ∧
      (s'.free (some z)).items (l₁ ++ l₂) = s.items (l₁ ++ l₂) := by
  subst hl
  have hz : z ∉ l₁ ++ l₂ := by
    have hnodup := h.nodup
    grind
  have hother : ∀ a, a ≠ z → (s'.free (some z)).element a = s'.element a := fun a ha => by
    simp [free, ha]
  have hring₀ : LinkedRing s.nextOf s.prevOf none (l₁.map some ++ some z :: l₂.map some) := by
    simpa using h.ring
  have hring : LinkedRing s'.nextOf s'.prevOf none ((l₁ ++ l₂).map some) := by
    rw [List.map_append]
    refine hring₀.unlink hjoin ?_ ?_
    · simpa using hnext
    · simpa using hprev
  refine ⟨⟨hring.congr ?_ ?_, fun a => ?_, ?_⟩, ?_⟩
  · rintro (_ | a) ha
    · rfl
    · have hne : a ≠ z := fun heq => hz (by simpa [heq] using ha)
      simp only [nextOf, hother a hne]
  · rintro (_ | a) ha
    · rfl
    · have hne : a ≠ z := fun heq => hz (by simpa [heq] using ha)
      simp only [prevOf, hother a hne]
  · by_cases ha : a = z
    · subst ha
      simpa [free] using hz
    · rw [hother a ha, halike.live, h.live]
      grind
  · have hused := h.used
    rw [← halike.used] at hused
    simp only [free, List.length_append, List.length_cons] at hused ⊢
    omega
  · rw [← halike.items]
    refine List.filterMap_congr fun a ha => ?_
    have hne : a ≠ z := fun heq => hz (heq ▸ ha)
    rw [hother a hne]

theorem linked_list_remove_tail {l : List Nat} (h : s.Holds (l ++ [z])) :
    ∃ s' e, s.element z = some e ∧
      s.linked_list_remove true true =
        .ok (s', { err := .eLINKED_LIST_SUCCESS, data := some (some e.data_ptr) }) ∧
      s'.Holds l ∧ s'.items l = s.items l := by
  obtain ⟨e, he⟩ := h.exists_element (a := z) (by simp)
  have htail : s.p_tail = some z := by simpa using h.tail_eq
  have hprevOf : s.prevOf (some z) = e.prev := prevOf_eq he
  have hring : LinkedRing s.nextOf s.prevOf none (l.map some ++ some z :: []) := by
    simpa using h.ring
  have hnextOf : s.nextOf (some z) = none := by
    simpa [eq_comm] using hring.neighbours.2
  have hmem : e.prev ∈ none :: (l ++ [z]).map some :=
    hprevOf ▸ (h.ring.next_prev (x := some z) (by simp)).1
  obtain ⟨s₂, hs₂, halike, hnext₂, hprev₂⟩ :=
    setNextOrHead_ok (s := { s with p_tail := e.prev }) (h.live_of_mem hmem) none
  have halike' : s.Alike s₂ := ⟨halike.item, halike.used⟩
  obtain ⟨e', he', hitem⟩ := halike'.exists_element he
  have hprev₂' : s₂.prevOf = update s.prevOf none e.prev :=
    hprev₂.trans (prevOf_tail s e.prev)
  have hnext₂' : s₂.nextOf = update s.nextOf e.prev none := hnext₂
  have hjoin : NextTo s₂.nextOf s₂.prevOf (s.prevOf (some z)) (s.nextOf (some z)) := by
    rw [hprevOf, hnextOf, hprev₂', hnext₂']
    exact ⟨update_self .., update_self ..⟩
  obtain ⟨hholds, hitems⟩ := free_ok l [] h rfl halike' hjoin
    (fun a _ ha => by rw [hnext₂', update_of_ne (hprevOf ▸ ha)])
    (fun a _ ha => by rw [hprev₂', update_of_ne (hnextOf ▸ ha)])
  refine ⟨s₂.free (some z), e, he, ?_, by simpa using hholds, by simpa using hitems⟩
  have hdata : e'.data_ptr = e.data_ptr := congrArg Prod.fst hitem
  simp only [linked_list_remove, Bool.true_eq_false, ↓reduceIte, htail, reduceCtorEq,
    deref_ok he, ok_bind]
  refine (congrArg (· >>= _) hs₂).trans ?_
  rw [ok_bind, deref_ok he', ok_bind, hdata]

theorem takeOut_ok {l₁ l₂ : List Nat} {e : ListElement} (data_p : Bool)
    (h : s.Holds (l₁ ++ z :: l₂)) (he : s.element z = some e) :
    ∃ s', s.takeOut data_p (some z) = .ok (s', if data_p then [] else e.dealloc) ∧
      s'.Holds (l₁ ++ l₂) ∧ s'.items (l₁ ++ l₂) = s.items (l₁ ++ l₂) := by
  have hring : LinkedRing s.nextOf s.prevOf none (l₁.map some ++ some z :: l₂.map some) := by
    simpa using h.ring
  have hprevOf : s.prevOf (some z) = e.prev := prevOf_eq he
  have hnextOf : s.nextOf (some z) = e.next := nextOf_eq he
  obtain ⟨hprev_ne, hnext_ne⟩ := hring.ne_self
  rw [hprevOf] at hprev_ne
  rw [hnextOf] at hnext_ne
  have hmem : some z ∈ none :: (l₁ ++ z :: l₂).map some := by simp
  have hprev_mem : e.prev ∈ none :: (l₁ ++ z :: l₂).map some :=
    hprevOf ▸ (h.ring.next_prev hmem).1
  have hnext_mem : e.next ∈ none :: (l₁ ++ z :: l₂).map some :=
    hnextOf ▸ (h.ring.prev_next hmem).1
  -- the links of the neighbours
  obtain ⟨s₁, hs₁, halike₁, hnext₁, hprev₁⟩ := setNextOrHead_ok (h.live_of_mem hprev_mem) e.next
  obtain ⟨e₁, he₁, hitem₁⟩ := halike₁.exists_element he
  have he₁_next : e₁.next = e.next := by
    rw [← nextOf_eq he₁, hnext₁, update_of_ne hprev_ne.symm, hnextOf]
  have he₁_prev : e₁.prev = e.prev := by rw [← prevOf_eq he₁, hprev₁, hprevOf]
  have hlive₁ : ∀ a, e₁.next = some a → s₁.element a ≠ none := fun a ha => by
    rw [halike₁.live]
    exact h.live_of_mem hnext_mem a (he₁_next ▸ ha)
  obtain ⟨s₂, hs₂, halike₂, hnext₂, hprev₂⟩ := setPrevOrTail_ok hlive₁ e₁.prev
  -- the links of the element itself
  obtain ⟨e₂, he₂, hitem₂⟩ := halike₂.exists_element he₁
  obtain ⟨s₃, hs₃, halike₃, hnext₃, hprev₃⟩ :=
    modify_ok (f := fun e => { e with next := none }) he₂ rfl
  obtain ⟨e₃, he₃, hitem₃⟩ := halike₃.exists_element he₂
  obtain ⟨s₄, hs₄, halike₄, hnext₄, hprev₄⟩ :=
    modify_ok (f := fun e => { e with prev := none }) he₃ rfl
  obtain ⟨e₄, he₄, hitem₄⟩ := halike₄.exists_element he₃
  have halike : s.Alike s₄ := ((halike₁.trans halike₂).trans halike₃).trans halike₄
  have hnext : ∀ a, a ≠ some z → s₄.nextOf a = update s.nextOf e.prev e.next a :=
    fun a ha => by
      rw [hnext₄, update_of_ne ha, hnext₃, update_of_ne ha, hnext₂, hnext₁]
  have hprev : ∀ a, a ≠ some z → s₄.prevOf a = update s.prevOf e.next e.prev a :=
    fun a ha => by
      rw [hprev₄, update_of_ne ha, hprev₃, update_of_ne ha, hprev₂, hprev₁,
        he₁_next, he₁_prev]
  have hjoin : NextTo s₄.nextOf s₄.prevOf (s.prevOf (some z)) (s.nextOf (some z)) := by
    rw [hprevOf, hnextOf]
    refine ⟨?_, ?_⟩
    · rw [hnext _ hprev_ne, update_self]
    · rw [hprev _ hnext_ne, update_self]
  have hout : ∀ a ∈ none :: (l₁ ++ l₂).map some, a ≠ some z := by
    have hnodup := h.nodup
    rintro a ha rfl
    simp only [List.mem_cons, reduceCtorEq, false_or, List.mem_map, Option.some.injEq,
      exists_eq_right] at ha
    grind
  obtain ⟨hholds, hitems⟩ := free_ok l₁ l₂ h rfl halike hjoin
    (fun a hin ha => by rw [hnext a (hout a hin), update_of_ne (hprevOf ▸ ha)])
    (fun a hin ha => by rw [hprev a (hout a hin), update_of_ne (hnextOf ▸ ha)])
  refine ⟨s₄.free (some z), ?_, hholds, hitems⟩
  have hdealloc : e₄.dealloc = e.dealloc := by
    have hitem : e₄.item = e.item := hitem₄.trans (hitem₃.trans (hitem₂.trans hitem₁))
    simp only [ListElement.item, Prod.mk.injEq] at hitem
    rw [ListElement.dealloc, ListElement.dealloc, hitem.1, hitem.2]
  have hs₃' : s₂.setNext (some z) none = .ok s₃ := hs₃
  have hs₄' : s₃.setPrev (some z) none = .ok s₄ := hs₄
  simp only [takeOut, deref_ok he, ok_bind, hs₁, deref_ok he₁, hs₂, hs₃', hs₄', deref_ok he₄,
    hdealloc]

/-- By induction on the elements that are left. -/
theorem searchFrom_ok (equal : Nat → Bool) (data_p rm_if_found : Bool) (l₁ l₂ : List Nat)
    (fuel : Nat) (h : s.Holds (l₁ ++ l₂)) (hfuel : l₂.length ≤ fuel) :
    let found := (s.items l₂).find? fun i => equal i.1
    ∃ s' l', searchFrom equal data_p rm_if_found fuel s l₂.head? =
        .ok (s', found.map Prod.fst,
          if rm_if_found && !data_p then Items.deallocs found.toList else []) ∧
      s'.Holds (l₁ ++ l') ∧
      s'.items (l₁ ++ l') = s.items l₁ ++
        if rm_if_found then (s.items l₂).eraseP fun i => equal i.1 else s.items l₂ := by
  induction l₂ generalizing l₁ fuel with
  | nil =>
    refine ⟨s, [], ?_, h, ?_⟩
    · cases fuel <;> simp [searchFrom, items, Items.deallocs]
    · cases rm_if_found <;> simp [items]
  | cons z l₂ ih =>
    obtain ⟨e, he⟩ := h.exists_element (a := z) (by simp)
    obtain ⟨fuel, rfl⟩ : ∃ n, fuel = n + 1 :=
      Nat.exists_eq_succ_of_ne_zero (by simp at hfuel; omega)
    rw [items_cons he]
    cases heq : equal e.data_ptr with
    | false =>
      -- the search goes on behind this element
      have hnext : e.next = l₂.head? := by rw [← nextOf_eq he, h.next_eq]
      obtain ⟨s', l', hrun, hholds, hitems⟩ :=
        ih (l₁ ++ [z]) fuel (by simpa using h) (by simp at hfuel; omega)
      refine ⟨s', z :: l', ?_, by simpa using hholds, ?_⟩
      · simp only [searchFrom, List.head?_cons, reduceCtorEq, ↓reduceIte, deref_ok he, ok_bind,
          heq, Bool.false_eq_true, hnext]
        rw [List.find?_cons_of_neg (by simp [ListElement.item, heq])]
        exact hrun
      · have hskip : (e.item :: s.items l₂).eraseP (fun i => equal i.1) =
            e.item :: (s.items l₂).eraseP fun i => equal i.1 :=
          List.eraseP_cons_of_neg (by simp [ListElement.item, heq])
        rw [hskip]
        rw [items_append s, items_cons he, List.append_assoc, List.append_assoc] at hitems
        have hitems' : s'.items (l₁ ++ z :: l') = _ := hitems
        rw [hitems']
        cases rm_if_found <;> rfl
    | true =>
      have hfound : (e.item :: s.items l₂).find? (fun i => equal i.1) = some e.item :=
        List.find?_cons_of_pos (by simp [ListElement.item, heq])
      have herase : (e.item :: s.items l₂).eraseP (fun i => equal i.1) = s.items l₂ :=
        List.eraseP_cons_of_pos (by simp [ListElement.item, heq])
      have hdealloc : Items.deallocs (some e.item).toList = e.dealloc := by
        simp [Items.deallocs, ListElement.item, ListElement.dealloc]
      simp only [hfound, herase, hdealloc]
      cases rm_if_found with
      | false =>
        refine ⟨s, z :: l₂, ?_, h, ?_⟩
        · simp [searchFrom, deref_ok he, heq, ListElement.item]
        · rw [items_append, items_cons he]
          simp
      | true =>
        obtain ⟨s', hs', hholds, hitems⟩ := takeOut_ok data_p h he
        refine ⟨s', l₂, ?_, hholds, ?_⟩
        · cases data_p <;> simp [searchFrom, deref_ok he, heq, hs', ListElement.item]
        · rw [hitems, items_append]
          simp

theorem flushFrom_ok {fuel : Nat} (hnodup : l.Nodup)
    (hchain : (none :: l.map some ++ [none]).IsChain fun x y => s.nextOf x = y)
    (hlive : ∀ a, s.element a ≠ none ↔ a ∈ l) (hfuel : l.length ≤ fuel) :
    ∃ s', flushFrom fuel s = .ok (s', Items.deallocs (s.items l)) ∧ s'.p_head = none ∧
      (∀ a, s'.element a = none) ∧ s'.used = s.used - l.length := by
  induction l generalizing s fuel with
  | nil =>
    have hhead : s.p_head = none := by
      have hrel := hchain.rel
      exact hrel
    refine ⟨s, ?_, hhead, fun a => ?_, by simp⟩
    · cases fuel <;> simp [flushFrom, hhead, items, Items.deallocs]
    · have hnot := hlive a
      simp only [List.not_mem_nil, iff_false, not_not] at hnot
      exact hnot
  | cons z l ih =>
    obtain ⟨fuel, rfl⟩ : ∃ n, fuel = n + 1 :=
      Nat.exists_eq_succ_of_ne_zero (by simp at hfuel; omega)
    obtain ⟨e, he⟩ := Option.ne_none_iff_exists'.1 ((hlive z).2 (List.mem_cons_self ..))
    have hhead : s.p_head = some z := by
      have hrel := hchain.rel
      exact hrel
    obtain ⟨hz, hnodup⟩ := List.nodup_cons.1 hnodup
    -- without its first element the list is one still
    let s₁ := { s.free (some z) with p_head := e.next }
    have hother : ∀ a, a ≠ z → s₁.element a = s.element a := fun a ha => by
      simp [s₁, free, ha]
    have hchain₁ : (none :: l.map some ++ [none]).IsChain fun x y => s₁.nextOf x = y := by
      have htail := hchain.tail
      rw [List.cons_append, List.tail_cons, List.map_cons, List.cons_append,
        List.isChain_cons] at htail
      rw [List.cons_append, List.isChain_cons]
      refine ⟨fun y hy => (nextOf_eq he).symm.trans (htail.1 y hy), ?_⟩
      refine isChain_imp htail.2 fun x hx y _ hxy => ?_
      rw [List.dropLast_concat] at hx
      obtain ⟨a, ha, rfl⟩ := List.mem_map.1 hx
      rw [← hxy]
      simp only [nextOf, hother a fun heq => hz (heq ▸ ha)]
    have hlive₁ : ∀ a, s₁.element a ≠ none ↔ a ∈ l := fun a => by
      by_cases ha : a = z
      · subst ha
        simpa [s₁, free] using hz
      · rw [hother a ha, hlive]
        simp [ha]
    obtain ⟨s', hs', hhead', hfree', hused'⟩ := ih hnodup hchain₁ hlive₁ (by simpa using hfuel)
    have hitems : s₁.items l = s.items l := List.filterMap_congr fun a ha => by
      rw [hother a fun heq => hz (heq ▸ ha)]
    refine ⟨s', ?_, hhead', hfree', ?_⟩
    · have hrest : flushFrom fuel { s.free (some z) with p_head := e.next } = _ := hs'
      simp only [flushFrom, hhead, reduceCtorEq, ↓reduceIte, deref_ok he, ok_bind, hrest, hitems,
        items_cons he]
      rfl
    · rw [hused']
      simp only [s₁, free, List.length_cons]
      omega

theorem items_length (hlive : ∀ a ∈ l, s.element a ≠ none) : (s.items l).length = l.length := by
  induction l with
  | nil => rfl
  | cons a l ih =>
    obtain ⟨e, he⟩ := Option.ne_none_iff_exists'.1 (hlive a (List.mem_cons_self ..))
    rw [items_cons he, List.length_cons, List.length_cons,
      ih fun b hb => hlive b (List.mem_cons_of_mem a hb)]

theorem Holds.items_eq_nil (h : s.Holds l) : s.items l = [] ↔ l = [] := by
  rw [← List.length_eq_zero_iff, ← List.length_eq_zero_iff,
    items_length fun a ha => (h.live a).2 ha]

theorem Holds.tail_eq_none (h : s.Holds l) : s.p_tail = none ↔ l = [] := by
  rw [h.tail_eq]
  simp

theorem add_call (h : s.Holds l) (list_data : Bool) (data_obj dealloc malloc : Option Nat) :
    ∃ s' r l' stored, s.linked_list_add list_data data_obj dealloc malloc = .ok (s', r) ∧
      s'.Holds l' ∧
      (s.items l).call stored (.add list_data data_obj dealloc malloc) = (s'.items l', r) := by
  cases list_data with
  | false => exact ⟨s, _, l, false, rfl, h, rfl⟩
  | true =>
  cases data_obj with
  | none => exact ⟨s, _, l, false, rfl, h, rfl⟩
  | some data_obj =>
  cases hmalloc : malloc.filter fun a => (s.element a).isNone with
  | none =>
    refine ⟨s, _, l, false, ?_, h, rfl⟩
    simp only [linked_list_add, Bool.true_eq_false, ↓reduceIte, hmalloc]
  | some elem =>
    obtain ⟨rfl, hfree⟩ := Option.filter_eq_some_iff.1 hmalloc
    obtain ⟨s', hs', hholds, hitems⟩ := linked_list_add_stored h data_obj dealloc
      (Option.isNone_iff_eq_none.1 hfree)
    refine ⟨s', _, elem :: l, true, hs', hholds, ?_⟩
    rw [hitems]
    rfl

theorem remove_call (h : s.Holds l) (list_data data_obj : Bool) :
    ∃ s' r l' stored, s.linked_list_remove list_data data_obj = .ok (s', r) ∧ s'.Holds l' ∧
      (s.items l).call stored (.remove list_data data_obj) = (s'.items l', r) := by
  cases list_data with
  | false => exact ⟨s, _, l, false, rfl, h, rfl⟩
  | true =>
  cases data_obj with
  | false => exact ⟨s, _, l, false, rfl, h, rfl⟩
  | true =>
  rcases l.eq_nil_or_concat' with rfl | ⟨l, z, rfl⟩
  · refine ⟨s, _, [], false, ?_, h, rfl⟩
    simp only [linked_list_remove, Bool.true_eq_false, ↓reduceIte, h.tail_eq_none.2]
  · obtain ⟨s', e, he, hs', hholds, hitems⟩ := linked_list_remove_tail h
    refine ⟨s', _, l, false, hs', hholds, ?_⟩
    rw [hitems, items_append, items_cons he]
    simp [Items.call, items, ListElement.item]

theorem flush_call (h : s.Holds l) (list_data : Bool) :
    ∃ s' r l' stored, s.linked_list_flush list_data = .ok (s', r) ∧ s'.Holds l' ∧
      (s.items l).call stored (.flush list_data) = (s'.items l', r) := by
  cases list_data with
  | false => exact ⟨s, _, l, false, rfl, h, rfl⟩
  | true =>
    have hchain : (none :: l.map some ++ [none]).IsChain fun x y => s.nextOf x = y :=
      h.ring.joined.imp fun x y hxy => hxy.1
    obtain ⟨s', hs', hhead, hfree, hused⟩ :=
      flushFrom_ok h.nodup hchain h.live h.used.ge
    refine ⟨{ s' with p_tail := none }, _, [], false, ?_, ⟨?_, fun a => ?_, ?_⟩, rfl⟩
    · simp only [linked_list_flush, Bool.true_eq_false, ↓reduceIte, hs', ok_bind]
    · exact LinkedRing.nil_iff.2 ⟨hhead, rfl⟩
    · simp [hfree]
    · rw [hused, h.used]
      simp

theorem search_call (h : s.Holds l) (list_data data_p : Bool) (equal : Option (Nat → Bool))
    (rm_if_found : Bool) : ∃ s' r l' stored,
      s.linked_list_search list_data data_p equal rm_if_found = .ok (s', r) ∧ s'.Holds l' ∧
      (s.items l).call stored (.search list_data data_p equal rm_if_found) =
        (s'.items l', r) := by
  cases equal with
  | none => exact ⟨s, _, l, false, rfl, h, rfl⟩
  | some equal =>
  cases list_data with
  | false => exact ⟨s, _, l, false, rfl, h, rfl⟩
  | true =>
  by_cases hl : l = []
  · refine ⟨s, { err := .eLINKED_LIST_UNAVAILABLE_RESOURCE }, l, false, ?_, h, ?_⟩
    · simp only [linked_list_search, Bool.true_eq_false, ↓reduceIte, h.tail_eq_none.2 hl]
    · simp only [Items.call, Bool.true_eq_false, ↓reduceIte, h.items_eq_nil.2 hl]
  · obtain ⟨s', l', hrun, hholds, hitems⟩ := searchFrom_ok equal data_p rm_if_found [] l
      s.used h h.used.ge
    let found := (s.items l).find? fun i => equal i.1
    let r : ListResult :=
      { err := .eLINKED_LIST_SUCCESS
        data := if data_p then some (found.map Prod.fst) else none
        deallocs := if rm_if_found && !data_p then Items.deallocs found.toList else [] }
    refine ⟨s', r, l', false, ?_, hholds, ?_⟩
    · rw [linked_list_search]
      simp only [Bool.true_eq_false, ↓reduceIte, mt h.tail_eq_none.1 hl]
      rw [h.head_eq, hrun, ok_bind]
    · have hitems' : s'.items l' = _ := hitems
      rw [hitems']
      simp only [Items.call, Bool.true_eq_false, ↓reduceIte, mt h.items_eq_nil.1 hl]
      rfl

/-- Every call does what it does to a sequence. -/
theorem step_call (h : s.Holds l) (c : ListCall) :
    ∃ s' r l' stored, s.step c = .ok (s', r) ∧ s'.Holds l' ∧
      (s.items l).call stored c = (s'.items l', r) := by
  cases c with
  | add list_data data_obj dealloc malloc => exact add_call h list_data data_obj dealloc malloc
  | remove list_data data_obj => exact remove_call h list_data data_obj
  | flush list_data => exact flush_call h list_data
  | search list_data data_p equal rm_if_found =>
    exact search_call h list_data data_p equal rm_if_found

theorem Holds.wellFormed (h : s.Holds l) : s.WellFormed l where
  nodup := h.nodup
  null := by
    rw [h.head_eq, h.tail_eq]
    simp
  next_prev a e b ha he hb := by
    obtain ⟨hmem, hback⟩ := h.ring.prev_next (x := some a) (by simp [ha])
    rw [nextOf_eq he, hb] at hmem hback
    have hb : b ∈ l := by simpa using hmem
    obtain ⟨e', he'⟩ := h.exists_element hb
    exact ⟨hb, e', he', (prevOf_eq he').symm.trans hback⟩
  prev_next a e b ha he hb := by
    obtain ⟨hmem, hback⟩ := h.ring.next_prev (x := some a) (by simp [ha])
    rw [prevOf_eq he, hb] at hmem hback
    have hb : b ∈ l := by simpa using hmem
    obtain ⟨e', he'⟩ := h.exists_element hb
    exact ⟨hb, e', he', (nextOf_eq he').symm.trans hback⟩
  head_prev a ha := by
    obtain ⟨hmem, hback⟩ := h.ring.prev_next (x := none) (by simp)
    rw [show s.nextOf none = some a from ha] at hmem hback
    obtain ⟨e, he⟩ := h.exists_element (a := a) (by simpa using hmem)
    exact ⟨e, he, (prevOf_eq he).symm.trans hback⟩
  tail_next a ha := by
    obtain ⟨hmem, hback⟩ := h.ring.next_prev (x := none) (by simp)
    rw [show s.prevOf none = some a from ha] at hmem hback
    obtain ⟨e, he⟩ := h.exists_element (a := a) (by simpa using hmem)
    exact ⟨e, he, (nextOf_eq he).symm.trans hback⟩
  forward := h.ring.walk_next (by simp [h.used])
  backward := h.ring.walk_prev (by simp [h.used])

end Calls

theorem Holds.empty : Holds {} [] := by
  refine ⟨LinkedRing.nil_iff.2 ⟨rfl, rfl⟩, fun a => ?_, rfl⟩
  simp

/-- Every run of calls keeps a doubly linked list, and the calls return what they return on the list
    of its items. -/
theorem run_linked_list {tr : List (ListCall × ListResult)} {s : LinkedList}
    (run : Run step (fun _ _ => True) {} tr s) :
    ∃ l, s.WellFormed l ∧ Behaves tr (s.items l) ∧
      (tr.filterMap removed ++ ((s.items l).map Prod.fst).reverse).Sublist (tr.filterMap added) ∧
      ∀ c, ∃ s' r, s.step c = .ok (s', r) := by
  have hinv : ∃ l, s.Holds l ∧ Behaves tr (s.items l) := by
    refine run.invariant (fun tr s => ∃ l, s.Holds l ∧ Behaves tr (s.items l))
      ⟨[], .empty, .nil⟩ ?_
    rintro tr s c s' r ⟨l, hholds, hbehaves⟩ - hstep
    obtain ⟨s₁, r₁, l', stored, hstep₁, hholds', hcall⟩ := step_call hholds c
    cases hstep₁.symm.trans hstep
    exact ⟨l', hholds', hbehaves.snoc stored hcall⟩
  obtain ⟨l, hholds, hbehaves⟩ := hinv
  refine ⟨l, hholds.wellFormed, hbehaves, hbehaves.fifo, fun c => ?_⟩
  obtain ⟨s', r, _, _, hstep, -⟩ := step_call hholds c
  exact ⟨s', r, hstep⟩

/-- Three are added, and the one in the middle is searched for and taken out. -/
def middleTaken : List ListCall :=
  [.add true (some 10) none (some 1), .add true (some 20) (some 7) (some 2),
    .add true (some 30) none (some 3), .search true false (some (· == 20)) true]

theorem run_linked_list_middle :
    ∃ (tr : List (ListCall × ListResult)) (s : LinkedList),
      (s.p_head = some 3 ∧ s.p_tail = some 1) ∧ ∃ l, s.WellFormed l ∧ Behaves tr (s.items l) ∧
        (tr.filterMap removed ++ ((s.items l).map Prod.fst).reverse).Sublist
          (tr.filterMap added) ∧
        ∀ c, ∃ s' r, s.step c = .ok (s', r) := by
  obtain ⟨tr, s, run, hs⟩ := Run.exists_of_exec (C := fun _ => True)
    (g := fun s : LinkedList => (s.p_head, s.p_tail))
    (show (exec step {} middleTaken).toOption.map (fun x => (x.1.p_head, x.1.p_tail)) =
      some (some 3, some 1) by decide +kernel) fun _ _ => trivial
  exact ⟨tr, s, Prod.mk.inj hs, run_linked_list run⟩

end LinkedList

end Nx508j.Loc
