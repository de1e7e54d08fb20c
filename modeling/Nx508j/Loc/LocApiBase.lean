import Mathlib.Data.List.Induction
import Mathlib.Data.List.Perm.Basic
import Nx508j.Lib.SlotList

/-! # The adapters of a location API

Reports go to every adapter in an array of ten, up to the first null pointer. Adapters come and go;
a removal moves the last adapter into the hole, and the API is closed when none is left. -/

namespace Nx508j.Loc.LocApiBase

open Nx508j.Lib

/-- `MAX_ADAPTERS` -/
def MAX_ADAPTERS : Nat := 10

/-- The array, the number of calls of `close`, and the number of messages sent that open the API
    again. -/
structure LocApi (A : Type) where
  mLocAdapters : Region (Option A)
  closed : Nat
  opened : Nat

section Model

variable {A : Type}

/-- `LocApiBase::LocApiBase` -/
def LocApi.init : LocApi A := ⟨.fill MAX_ADAPTERS none, 0, 0⟩

/-- `TO_ALL_ADAPTERS`: `n` slots are left, from `i` on. -/
def toAllFrom {S : Type} (call : S → A → S) (m : Region (Option A)) :
    Nat → Nat → S → Except Fault S
  | 0, _, s => .ok s
  | n + 1, i, s => do
      match ← m.read i with
      | none => .ok s
      | some a => toAllFrom call m n (i + 1) (call s a)

/-- `TO_1ST_HANDLING_ADAPTER`: the call says whether the adapter handled it. -/
def toFirstFrom {S : Type} (call : S → A → S × Bool) (m : Region (Option A)) :
    Nat → Nat → S → Except Fault S
  | 0, _, s => .ok s
  | n + 1, i, s => do
      match ← m.read i with
      | none => .ok s
      | some a =>
        match call s a with
        | (s, true) => .ok s
        | (s, false) => toFirstFrom call m n (i + 1) s

/-- `LocApiBase::getEvtMask` -/
def getEvtMask (mExcludedMask : UInt32) (evtMask : A → UInt32) (api : LocApi A) :
    Except Fault UInt32 := do
  let mask ← toAllFrom (fun mask a => mask ||| evtMask a) api.mLocAdapters MAX_ADAPTERS 0 0
  .ok (mask &&& ~~~mExcludedMask)

/-- `LocApiBase::isInSession` -/
def isInSession (inSession : A → Bool) (api : LocApi A) : Except Fault Bool :=
  toFirstFrom (fun _ a => (inSession a, inSession a)) api.mLocAdapters MAX_ADAPTERS 0 false

variable [DecidableEq A]

/-- The loop of `addAdapter`. -/
def addFrom (adapter : Option A) : Nat → Nat → LocApi A → Except Fault (LocApi A)
  | 0, _, api => .ok api
  | n + 1, i, api => do
      let p ← api.mLocAdapters.read i
      if p = adapter then .ok api
      else if p = none then do
        let m ← api.mLocAdapters.write i adapter
        .ok { api with mLocAdapters := m, opened := api.opened + 1 }
      else addFrom adapter n (i + 1) api

/-- `while (++i < MAX_ADAPTERS && mLocAdapters[i] != NULL);` -/
def scanFrom (m : Region (Option A)) : Nat → Nat → Except Fault Nat
  | 0, i => .ok i
  | n + 1, i => do
      match ← m.read i with
      | none => .ok i
      | some _ => scanFrom m n (i + 1)

/-- Take out the adapter in slot `j`; the index that the loop goes on from. -/
def takeOut (j : Nat) (api : LocApi A) : Except Fault (LocApi A × Nat) := do
  let m ← api.mLocAdapters.write j none
  let i ← scanFrom m (MAX_ADAPTERS - (j + 1)) (j + 1)
  let i := i - 1
  let last ← m.read i
  let m ← m.write j last
  let m ← m.write i none
  -- without adapters the API is closed
  if i = 0 then .ok ({ api with mLocAdapters := m, closed := api.closed + 1 }, i)
  else .ok ({ api with mLocAdapters := m, opened := api.opened + 1 }, i)

/-- The loop of `removeAdapter`. -/
def removeFrom (adapter : Option A) : Nat → Nat → LocApi A → Except Fault (LocApi A)
  | 0, _, _ => .error .diverges
  | fuel + 1, i, api =>
    if i < MAX_ADAPTERS then do
      let p ← api.mLocAdapters.read i
      if p = none then .ok api
      else if p = adapter then do
        let (api, i) ← takeOut i api
        removeFrom adapter fuel (i + 1) api
      else removeFrom adapter fuel (i + 1) api
    else .ok api

/-- What is done to the API. -/
inductive AdapterOp (A : Type)
  | add (adapter : Option A)
  | remove (adapter : Option A)
deriving DecidableEq

/-- `LocApiBase::addAdapter`, `LocApiBase::removeAdapter` -/
def step (api : LocApi A) : AdapterOp A → Except Fault (LocApi A)
  | .add adapter => addFrom adapter MAX_ADAPTERS 0 api
  | .remove adapter => removeFrom adapter (MAX_ADAPTERS + 1) 0 api

def run (api : LocApi A) : List (AdapterOp A) → Except Fault (LocApi A)
  | [] => .ok api
  | op :: ops => do
      let api ← step api op
      run api ops

end Model

/-! ## The adapters there should be -/

section Registered

variable {A : Type} [DecidableEq A]

/-- What becomes of the registered adapters. -/
def register (s : List A) : AdapterOp A → List A
  | .add none => s
  | .add (some a) => if a ∈ s ∨ s.length = MAX_ADAPTERS then s else s ++ [a]
  | .remove none => s
  | .remove (some a) => s.erase a

def registered (ops : List (AdapterOp A)) : List A := ops.foldl register []

/-- The removals that leave no adapter. -/
def emptied (s : List A) : List (AdapterOp A) → Nat
  | [] => 0
  | op :: ops =>
    (if s ≠ [] ∧ register s op = [] then 1 else 0) + emptied (register s op) ops

/-- The calls up to the first adapter that handles one. -/
def untilHandled {S : Type} (call : S → A → S × Bool) (s : S) : List A → S
  | [] => s
  | a :: as => if (call s a).2 then (call s a).1 else untilHandled call (call s a).1 as

end Registered

/-! ## One call -/

section Steps

variable {A : Type} {api : LocApi A} {l l₁ l₂ : List A} {a : A}

/-- The array holds these adapters. -/
structure LocApi.Holds (api : LocApi A) (l : List A) : Prop where
  size : api.mLocAdapters.size = MAX_ADAPTERS
  slots : SlotList api.mLocAdapters l

theorem LocApi.Holds.length_le (h : api.Holds l) : l.length ≤ MAX_ADAPTERS :=
  h.size ▸ h.slots.fits

theorem toAllFrom_ok {S : Type} (call : S → A → S) (l₁ l₂ : List A) (h : api.Holds (l₁ ++ l₂))
    (n : Nat) (s : S) (hn : l₁.length + n = MAX_ADAPTERS) :
    toAllFrom call api.mLocAdapters n l₁.length s = .ok (l₂.foldl call s) := by
  induction n generalizing l₁ l₂ s with
  | zero =>
    have hfits := h.length_le
    rw [List.length_append] at hfits
    obtain rfl : l₂ = [] := List.eq_nil_of_length_eq_zero (by omega)
    rfl
  | succ n ih =>
    cases l₂ with
    | nil =>
      rw [List.append_nil] at h
      rw [toAllFrom, h.slots.read_of_le (Nat.le_refl _) (by rw [h.size]; omega)]
      rfl
    | cons a l₂ =>
      rw [toAllFrom, h.slots.read_length, ok_bind]
      have hrest := ih (l₁ ++ [a]) l₂ (by simpa using h) (call s a)
        (by rw [List.length_append, List.length_singleton]; omega)
      rw [List.length_append, List.length_singleton] at hrest
      exact hrest

theorem toFirstFrom_ok {S : Type} (call : S → A → S × Bool) (l₁ l₂ : List A)
    (h : api.Holds (l₁ ++ l₂)) (n : Nat) (s : S) (hn : l₁.length + n = MAX_ADAPTERS) :
    toFirstFrom call api.mLocAdapters n l₁.length s = .ok (untilHandled call s l₂) := by
  induction n generalizing l₁ l₂ s with
  | zero =>
    have hfits := h.length_le
    rw [List.length_append] at hfits
    obtain rfl : l₂ = [] := List.eq_nil_of_length_eq_zero (by omega)
    rfl
  | succ n ih =>
    cases l₂ with
    | nil =>
      rw [List.append_nil] at h
      rw [toFirstFrom, h.slots.read_of_le (Nat.le_refl _) (by rw [h.size]; omega)]
      rfl
    | cons a l₂ =>
      rw [toFirstFrom, h.slots.read_length, ok_bind, untilHandled]
      have hrest := ih (l₁ ++ [a]) l₂ (by simpa using h) (call s a).1
        (by rw [List.length_append, List.length_singleton]; omega)
      rw [List.length_append, List.length_singleton] at hrest
      dsimp only
      cases hhandled : (call s a).2 with
      | true =>
        rw [show call s a = ((call s a).1, true) from Prod.ext rfl hhandled]
        rfl
      | false =>
        rw [show call s a = ((call s a).1, false) from Prod.ext rfl hhandled] at hrest ⊢
        exact hrest

theorem getEvtMask_ok (h : api.Holds l) (mExcludedMask : UInt32) (evtMask : A → UInt32) :
    getEvtMask mExcludedMask evtMask api =
      .ok (l.foldl (fun mask a => mask ||| evtMask a) 0 &&& ~~~mExcludedMask) := by
  rw [getEvtMask]
  have hall := toAllFrom_ok (fun mask a => mask ||| evtMask a) [] l h MAX_ADAPTERS 0
    (Nat.zero_add _)
  rw [List.length_nil] at hall
  rw [hall, ok_bind]

theorem isInSession_ok (h : api.Holds l) (inSession : A → Bool) :
    isInSession inSession api = .ok (l.any inSession) := by
  have hfirst := toFirstFrom_ok (fun _ a => (inSession a, inSession a)) [] l h MAX_ADAPTERS false
    (Nat.zero_add _)
  rw [List.length_nil] at hfirst
  rw [isInSession, hfirst]
  clear hfirst h
  congr 1
  induction l with
  | nil => rfl
  | cons a l ih =>
    rw [untilHandled, List.any_cons]
    cases ha : inSession a with
    | true => simp
    | false => simpa [ha] using ih

variable [DecidableEq A]

theorem addFrom_ok (l₁ l₂ : List A) (h : api.Holds (l₁ ++ l₂)) (ha : a ∉ l₁) (n : Nat)
    (hn : l₁.length + n = MAX_ADAPTERS) :
    ∃ api', addFrom (some a) n l₁.length api = .ok api' ∧ api'.closed = api.closed ∧
      api'.Holds (if a ∈ l₂ ∨ (l₁ ++ l₂).length = MAX_ADAPTERS then l₁ ++ l₂
        else l₁ ++ l₂ ++ [a]) := by
  induction n generalizing l₁ l₂ with
  | zero =>
    have hfits := h.length_le
    rw [List.length_append] at hfits
    have hfull : (l₁ ++ l₂).length = MAX_ADAPTERS := by
      rw [List.length_append]
      omega
    exact ⟨api, rfl, rfl, by rw [if_pos (.inr hfull)]; exact h⟩
  | succ n ih =>
    rw [addFrom]
    cases l₂ with
    | nil =>
      rw [List.append_nil] at h ⊢
      have hlt : l₁.length < api.mLocAdapters.size := by
        rw [h.size]
        omega
      have hnot : ¬ (a ∈ ([] : List A) ∨ l₁.length = MAX_ADAPTERS) := by
        rintro (hmem | hfull)
        · exact List.not_mem_nil hmem
        · omega
      rw [h.slots.read_of_le (Nat.le_refl _) hlt, ok_bind, if_neg (by simp), if_pos rfl,
        Region.write_ok hlt, if_neg hnot]
      exact ⟨_, rfl, rfl, ⟨h.size, h.slots.append ha hlt⟩⟩
    | cons b l₂ =>
      rw [h.slots.read_length, ok_bind]
      by_cases hb : b = a
      · subst hb
        refine ⟨api, if_pos rfl, rfl, ?_⟩
        rw [if_pos (.inl (List.mem_cons_self ..))]
        exact h
      · rw [if_neg (by simpa using hb), if_neg (by simp)]
        obtain ⟨api', hadd, hclosed, hholds⟩ := ih (l₁ ++ [b]) l₂
          (by simpa using h) (by simp [ha, Ne.symm hb])
          (by rw [List.length_append, List.length_singleton]; omega)
        rw [List.length_append, List.length_singleton] at hadd
        refine ⟨api', hadd, hclosed, ?_⟩
        simpa [Ne.symm hb] using hholds

theorem addFrom_none (l₁ l₂ : List A) (h : api.Holds (l₁ ++ l₂)) (n : Nat)
    (hn : l₁.length + n = MAX_ADAPTERS) : addFrom none n l₁.length api = .ok api := by
  induction n generalizing l₁ l₂ with
  | zero => rfl
  | succ n ih =>
    rw [addFrom]
    cases l₂ with
    | nil =>
      rw [List.append_nil] at h
      rw [h.slots.read_of_le (Nat.le_refl _) (by rw [h.size]; omega), ok_bind, if_pos rfl]
    | cons b l₂ =>
      rw [h.slots.read_length, ok_bind, if_neg (by simp), if_neg (by simp)]
      have hrest := ih (l₁ ++ [b]) l₂ (by simpa using h)
        (by rw [List.length_append, List.length_singleton]; omega)
      rw [List.length_append, List.length_singleton] at hrest
      exact hrest

omit [DecidableEq A] in
theorem scanFrom_ok {m : Region (Option A)} (n i e : Nat) (hi : i ≤ e)
    (hn : i + n = m.size) (hused : ∀ k, i ≤ k → k < e → m.get k ≠ none) (he : e ≤ m.size)
    (hfree : e < m.size → m.get e = none) : scanFrom m n i = .ok e := by
  induction n generalizing i with
  | zero =>
    obtain rfl : i = e := by omega
    rfl
  | succ n ih =>
    rw [scanFrom, Region.read_ok (by omega), ok_bind]
    by_cases heq : i = e
    · subst heq
      rw [hfree (by omega)]
    · obtain ⟨b, hb⟩ := Option.ne_none_iff_exists'.1 (hused i (Nat.le_refl i) (by omega))
      rw [hb]
      exact ih (i + 1) (by omega) (by omega) fun k hk => hused k (by omega)

omit [DecidableEq A] in
theorem takeOut_ok (h : api.Holds (l₁ ++ a :: l₂)) :
    ∃ api' i l', takeOut l₁.length api = .ok (api', i) ∧ i + 1 = (l₁ ++ a :: l₂).length ∧
      api'.Holds l' ∧ l'.Perm (l₁ ++ l₂) ∧
      api'.closed = api.closed + if l' = [] then 1 else 0 := by
  have hfits := h.length_le
  have hlength : (l₁ ++ a :: l₂).length = l₁.length + 1 + l₂.length := by
    simp only [List.length_append, List.length_cons]
    omega
  have hsize : (api.mLocAdapters.set l₁.length none).size = MAX_ADAPTERS := h.size
  have hscan : scanFrom (api.mLocAdapters.set l₁.length none) (MAX_ADAPTERS - (l₁.length + 1))
      (l₁.length + 1) = .ok (l₁ ++ a :: l₂).length := by
    refine scanFrom_ok _ _ _ (by omega) (by rw [hsize]; omega) ?_ (by rw [hsize]; exact hfits) ?_
    · intro k hk hlt
      rw [Region.get_set, if_neg (by omega), h.slots.get k (by rw [h.size]; omega),
        List.getElem?_eq_getElem hlt]
      simp
    · intro hlt
      rw [hsize] at hlt
      rw [Region.get_set, if_neg (by omega), h.slots.get _ (by rw [h.size]; exact hlt),
        List.getElem?_eq_none (Nat.le_refl _)]
  have hlast : (l₁ ++ a :: l₂).length - 1 = l₁.length + l₂.length := by omega
  rw [takeOut, Region.write_ok (by rw [h.size]; omega), ok_bind, hscan, ok_bind]
  dsimp only
  rw [hlast, Region.read_ok (by rw [hsize]; omega), ok_bind,
    Region.write_ok (by rw [hsize]; omega), ok_bind,
    Region.write_ok (by rw [Region.size_set, hsize]; omega), ok_bind]
  -- the last adapter is the one that is taken out, or another one
  rcases List.eq_nil_or_concat l₂ with rfl | ⟨l₃, z, rfl⟩
  · rw [List.length_nil, Nat.add_zero, Region.get_set, if_pos rfl]
    have hslots : SlotList (((api.mLocAdapters.set l₁.length none).set l₁.length none).set
        l₁.length none) l₁ := by
      refine h.slots.dropLast.congr rfl fun i _ => ?_
      simp only [Region.get_set]
      by_cases hi : i = l₁.length <;> simp [hi]
    by_cases hzero : l₁.length = 0
    · refine ⟨_, l₁.length, l₁, if_pos hzero, by simp, ⟨h.size, hslots⟩, by simp, ?_⟩
      rw [if_pos (List.eq_nil_of_length_eq_zero hzero)]
    · refine ⟨_, l₁.length, l₁, if_neg hzero, by simp, ⟨h.size, hslots⟩, by simp, ?_⟩
      rw [if_neg (fun hnil => hzero (congrArg List.length hnil))]
      rfl
  · rw [List.concat_eq_append] at h hfits ⊢
    have hlt : (l₁ ++ a :: l₃).length < MAX_ADAPTERS := by
      simp only [List.length_append, List.length_cons, List.length_nil] at hfits ⊢
      omega
    have hindex : l₁.length + (l₃ ++ [z]).length = (l₁ ++ a :: l₃).length := by simp
    have hz : (api.mLocAdapters.set l₁.length none).get (l₁ ++ a :: l₃).length = some z := by
      have hsplit : l₁ ++ a :: (l₃ ++ [z]) = l₁ ++ a :: l₃ ++ [z] := by simp
      rw [Region.get_set, if_neg (by simp), h.slots.get _ (by rw [h.size]; exact hlt), hsplit,
        List.getElem?_append_right (Nat.le_refl _)]
      simp
    rw [hindex, hz, if_neg (by simp)]
    have hsucc : (l₁ ++ a :: l₃).length + 1 = (l₁ ++ a :: (l₃ ++ [z])).length := by
      simp only [List.length_append, List.length_cons, List.length_nil]
      omega
    refine ⟨_, (l₁ ++ a :: l₃).length, l₁ ++ z :: l₃, rfl, hsucc, ⟨h.size, ?_⟩, ?_, ?_⟩
    · exact (show SlotList api.mLocAdapters (l₁ ++ a :: l₃ ++ [z]) by
        simpa using h.slots).moveLast
    · exact (List.Perm.append_left l₁ (List.perm_append_singleton z l₃).symm)
    · rw [if_neg (by simp)]
      rfl

theorem removeFrom_end (h : api.Holds l) (adapter : Option A) (n : Nat) {i : Nat}
    (hi : l.length ≤ i) : removeFrom adapter (n + 1) i api = .ok api := by
  rw [removeFrom]
  split
  · next hlt => rw [h.slots.read_of_le hi (by rw [h.size]; exact hlt), ok_bind, if_pos rfl]
  · rfl

theorem removeFrom_ok (l₁ l₂ : List A) (h : api.Holds (l₁ ++ l₂)) (ha : a ∉ l₁) (n : Nat)
    (hn : l₂.length < n) :
    ∃ api' l', removeFrom (some a) n l₁.length api = .ok api' ∧ api'.Holds l' ∧
      l'.Perm ((l₁ ++ l₂).erase a) ∧
      api'.closed = api.closed + if l₁ ++ l₂ ≠ [] ∧ l' = [] then 1 else 0 := by
  induction n generalizing l₁ l₂ with
  | zero => exact absurd hn (Nat.not_lt_zero _)
  | succ n ih =>
    have hfits := h.length_le
    cases l₂ with
    | nil =>
      rw [List.append_nil] at h ⊢
      refine ⟨api, l₁, removeFrom_end h _ n (Nat.le_refl _), h, by rw [List.erase_of_not_mem ha], ?_⟩
      rw [if_neg fun hempty => hempty.1 hempty.2]
      rfl
    | cons b l₂ =>
      have hlt : l₁.length < MAX_ADAPTERS := by
        rw [List.length_append, List.length_cons] at hfits
        omega
      rw [removeFrom, if_pos hlt, h.slots.read_length, ok_bind, if_neg (by simp)]
      by_cases hb : b = a
      · subst hb
        obtain ⟨api₁, i, l', htake, hi, hholds, hperm, hclosed⟩ := takeOut_ok h
        have hlength := hperm.length_eq
        refine ⟨api₁, l', ?_, hholds, ?_, ?_⟩
        · rw [if_pos rfl, htake, ok_bind]
          dsimp only
          rw [hi]
          -- nothing is behind what was the last adapter
          cases n with
          | zero =>
            rw [List.length_cons] at hn
            omega
          | succ n =>
            exact removeFrom_end hholds (some b) n (by simp at hlength ⊢; omega)
        · rw [List.erase_append_right _ ha, List.erase_cons_head]
          exact hperm
        · rw [hclosed]
          simp
      · rw [if_neg (by simpa using hb)]
        obtain ⟨api', l', hremove, hholds, hperm, hclosed⟩ := ih (l₁ ++ [b]) l₂
          (by simpa using h) (by simp [ha, Ne.symm hb]) (Nat.lt_of_succ_lt_succ hn)
        rw [List.length_append, List.length_singleton] at hremove
        refine ⟨api', l', hremove, hholds, by simpa using hperm, ?_⟩
        simpa using hclosed

theorem removeFrom_none (l₁ l₂ : List A) (h : api.Holds (l₁ ++ l₂)) (n : Nat)
    (hn : l₂.length < n) : removeFrom none n l₁.length api = .ok api := by
  induction n generalizing l₁ l₂ with
  | zero => exact absurd hn (Nat.not_lt_zero _)
  | succ n ih =>
    have hfits := h.length_le
    cases l₂ with
    | nil =>
      rw [List.append_nil] at h
      exact removeFrom_end h none n (Nat.le_refl _)
    | cons b l₂ =>
      have hlt : l₁.length < MAX_ADAPTERS := by
        rw [List.length_append, List.length_cons] at hfits
        omega
      rw [removeFrom, if_pos hlt, h.slots.read_length, ok_bind, if_neg (by simp), if_neg (by simp)]
      have hrest := ih (l₁ ++ [b]) l₂ (by simpa using h) (Nat.lt_of_succ_lt_succ hn)
      rw [List.length_append, List.length_singleton] at hrest
      exact hrest

end Steps

/-! ## Runs -/

section Runs

variable {A : Type} [DecidableEq A] {api : LocApi A} {l s : List A} {op : AdapterOp A}
  (ops : List (AdapterOp A))

theorem nodup_register (hs : s.Nodup) : (register s op).Nodup := by
  cases op with
  | add adapter =>
    cases adapter with
    | none => exact hs
    | some a =>
      rw [register]
      split
      · exact hs
      · next h =>
        rw [not_or] at h
        rw [List.nodup_append]
        exact ⟨hs, List.nodup_singleton a, fun b hb c hc => by
          rw [List.mem_singleton.1 hc]
          rintro rfl
          exact h.1 hb⟩
  | remove adapter =>
    cases adapter with
    | none => exact hs
    | some a => exact hs.erase a

theorem step_ok (h : api.Holds l) (hperm : l.Perm s) (op : AdapterOp A) :
    ∃ api' l', step api op = .ok api' ∧ api'.Holds l' ∧ l'.Perm (register s op) ∧
      api'.closed = api.closed + if s ≠ [] ∧ register s op = [] then 1 else 0 := by
  have hsame : ¬ (s ≠ [] ∧ s = []) := fun hboth => hboth.1 hboth.2
  cases op with
  | add adapter =>
    cases adapter with
    | none =>
      refine ⟨api, l, addFrom_none [] l h MAX_ADAPTERS (Nat.zero_add _), h, hperm, ?_⟩
      rw [register, if_neg hsame]
      rfl
    | some a =>
      obtain ⟨api', hadd, hclosed, hholds⟩ :=
        addFrom_ok [] l h List.not_mem_nil MAX_ADAPTERS (Nat.zero_add _)
      rw [List.nil_append] at hholds
      refine ⟨api', _, hadd, hholds, ?_, ?_⟩
      · simp only [register, hperm.mem_iff, hperm.length_eq]
        split
        · exact hperm
        · exact hperm.append_right [a]
      · rw [hclosed, register]
        by_cases hin : a ∈ s ∨ s.length = MAX_ADAPTERS
        · rw [if_pos hin, if_neg hsame]
          rfl
        · rw [if_neg hin, if_neg (by simp)]
          rfl
  | remove adapter =>
    cases adapter with
    | none =>
      refine ⟨api, l, ?_, h, hperm, ?_⟩
      · exact removeFrom_none [] l h (MAX_ADAPTERS + 1) (Nat.lt_succ_of_le h.length_le)
      · rw [register, if_neg hsame]
        rfl
    | some a =>
      obtain ⟨api', l', hremove, hholds, hperm', hclosed⟩ := removeFrom_ok [] l h
        List.not_mem_nil (MAX_ADAPTERS + 1) (Nat.lt_succ_of_le h.length_le)
      rw [List.nil_append] at hperm' hclosed
      have hregistered := hperm'.trans (hperm.erase a)
      refine ⟨api', l', hremove, hholds, hregistered, ?_⟩
      rw [hclosed, register]
      have hnil : l = [] ↔ s = [] := ⟨fun hl => (hl ▸ hperm).nil_eq.symm,
        fun hs => (hs ▸ hperm).eq_nil⟩
      have hnil' : l' = [] ↔ s.erase a = [] :=
        ⟨fun hl => (hl ▸ hregistered).nil_eq.symm, fun hs => (hs ▸ hregistered).eq_nil⟩
      simp only [ne_eq, hnil, hnil']

theorem run_ok (h : api.Holds l) (hperm : l.Perm s) (ops : List (AdapterOp A)) :
    ∃ api' l', run api ops = .ok api' ∧ api'.Holds l' ∧ l'.Perm (ops.foldl register s) ∧
      api'.closed = api.closed + emptied s ops := by
  induction ops generalizing api l s with
  | nil => exact ⟨api, l, rfl, h, hperm, rfl⟩
  | cons op ops ih =>
    obtain ⟨api₁, l₁, hstep, h₁, hperm₁, hclosed₁⟩ := step_ok h hperm op
    obtain ⟨api', l', hrun, h', hperm', hclosed⟩ := ih h₁ hperm₁
    refine ⟨api', l', ?_, h', hperm', ?_⟩
    · rw [run, hstep, ok_bind, hrun]
    · rw [hclosed, hclosed₁, emptied, Nat.add_assoc]

theorem registered_append : registered (ops ++ [op]) = register (registered ops) op := by
  rw [registered, List.foldl_append, List.foldl_cons, List.foldl_nil, registered]

theorem nodup_registered : (registered ops).Nodup := by
  induction ops using List.reverseRecOn with
  | nil => exact .nil
  | append_singleton ops op ih =>
    rw [registered_append]
    exact nodup_register ih

theorem length_register_le (hs : s.length ≤ MAX_ADAPTERS) :
    (register s op).length ≤ MAX_ADAPTERS := by
  cases op with
  | add adapter =>
    cases adapter with
    | none => exact hs
    | some a =>
      rw [register]
      split
      · exact hs
      · next h =>
        rw [not_or] at h
        rw [List.length_append, List.length_singleton]
        omega
  | remove adapter =>
    cases adapter with
    | none => exact hs
    | some a => exact Nat.le_trans List.length_erase_le hs

theorem length_registered_le : (registered ops).length ≤ MAX_ADAPTERS := by
  induction ops using List.reverseRecOn with
  | nil => exact Nat.zero_le _
  | append_singleton ops op ih =>
    rw [registered_append]
    exact length_register_le ih

/-- After a call an adapter is registered if it was added with room for it, or was registered
    before and is not removed. -/
theorem mem_register_iff {a : A} (hnodup : s.Nodup) (hs : s.length ≤ MAX_ADAPTERS) :
    a ∈ register s op ↔
      (op = .add (some a) ∧ s.length < MAX_ADAPTERS) ∨ (a ∈ s ∧ op ≠ .remove (some a)) := by
  cases op with
  | add adapter =>
    cases adapter with
    | none => simp [register]
    | some b =>
      rw [register]
      by_cases hin : b ∈ s ∨ s.length = MAX_ADAPTERS
      · rw [if_pos hin]
        refine ⟨fun hmem => .inr ⟨hmem, by simp⟩, fun h => ?_⟩
        rcases h with ⟨heq, hlt⟩ | ⟨hmem, -⟩
        · obtain rfl : b = a := by simpa using heq
          exact hin.resolve_right (Nat.ne_of_lt hlt)
        · exact hmem
      · rw [if_neg hin, List.mem_append, List.mem_singleton]
        rw [not_or] at hin
        constructor
        · rintro (hmem | rfl)
          · exact .inr ⟨hmem, by simp⟩
          · exact .inl ⟨rfl, Nat.lt_of_le_of_ne hs hin.2⟩
        · rintro (⟨heq, -⟩ | ⟨hmem, -⟩)
          · obtain rfl : b = a := by simpa using heq
            exact .inr rfl
          · exact .inl hmem
  | remove adapter =>
    cases adapter with
    | none => simp [register]
    | some b =>
      rw [register, hnodup.mem_erase_iff]
      simp [and_comm, eq_comm]

theorem mem_registered_iff {a : A} :
    a ∈ registered ops ↔ ∃ before after, ops = before ++ .add (some a) :: after ∧
      (registered before).length < MAX_ADAPTERS ∧ .remove (some a) ∉ after := by
  induction ops using List.reverseRecOn with
  | nil => simp [registered]
  | append_singleton ops op ih =>
    rw [registered_append, mem_register_iff (nodup_registered ops) (length_registered_le ops), ih]
    constructor
    · rintro (⟨rfl, hroom⟩ | ⟨⟨before, after, rfl, hroom, hnot⟩, hop⟩)
      · exact ⟨ops, [], rfl, hroom, List.not_mem_nil⟩
      · refine ⟨before, after ++ [op], by simp, hroom, ?_⟩
        simp [hnot, Ne.symm hop]
    · rintro ⟨before, after, heq, hroom, hnot⟩
      -- the last call is the one that added it, or came after that
      rcases List.eq_nil_or_concat after with rfl | ⟨after, op', rfl⟩
      · obtain ⟨rfl, hop⟩ := List.append_inj' heq rfl
        exact .inl ⟨List.singleton_injective hop, hroom⟩
      · rw [List.concat_eq_append] at heq hnot
        rw [← List.cons_append, ← List.append_assoc] at heq
        obtain ⟨rfl, hop⟩ := List.append_inj' heq rfl
        obtain rfl := List.singleton_injective hop
        rw [List.mem_append, not_or, List.mem_singleton] at hnot
        exact .inr ⟨⟨before, after, rfl, hroom, hnot.1⟩, Ne.symm hnot.2⟩

/-- After any calls the array holds the registered adapters, each once and without holes, so that
    every loop over it gets to all of them; and the API was closed as often as a removal left
    none. -/
theorem run_adapters (ops : List (AdapterOp A)) :
    ∃ api l, run LocApi.init ops = .ok api ∧ api.Holds l ∧ l.Perm (registered ops) ∧
      (∀ a, a ∈ l ↔ ∃ before after, ops = before ++ .add (some a) :: after ∧
        (registered before).length < MAX_ADAPTERS ∧ .remove (some a) ∉ after) ∧
      (∀ (S : Type) (call : S → A → S) (s : S),
        toAllFrom call api.mLocAdapters MAX_ADAPTERS 0 s = .ok (l.foldl call s)) ∧
      (∀ (S : Type) (call : S → A → S × Bool) (s : S),
        toFirstFrom call api.mLocAdapters MAX_ADAPTERS 0 s = .ok (untilHandled call s l)) ∧
      api.closed = emptied [] ops := by
  have hinit : (LocApi.init : LocApi A).Holds [] := ⟨rfl, .fill MAX_ADAPTERS⟩
  obtain ⟨api, l, hrun, hholds, hperm, hclosed⟩ := run_ok hinit (List.Perm.refl []) ops
  refine ⟨api, l, hrun, hholds, hperm, fun a => ?_, fun S call s => ?_, fun S call s => ?_, ?_⟩
  · rw [hperm.mem_iff]
    exact mem_registered_iff ops
  · exact toAllFrom_ok call [] l hholds MAX_ADAPTERS s (Nat.zero_add _)
  · exact toFirstFrom_ok call [] l hholds MAX_ADAPTERS s (Nat.zero_add _)
  · rw [hclosed]
    exact Nat.zero_add _

/-- After any calls the mask has the events of all registered adapters, wherever removals moved them
    in the array, and there is a session if one of them has one. -/
theorem run_evtMask (ops : List (AdapterOp A)) (mExcludedMask : UInt32) (evtMask : A → UInt32)
    (inSession : A → Bool) : ∃ api, run LocApi.init ops = .ok api ∧
      getEvtMask mExcludedMask evtMask api =
        .ok ((registered ops).foldl (fun mask a => mask ||| evtMask a) 0 &&& ~~~mExcludedMask) ∧
      isInSession inSession api = .ok ((registered ops).any inSession) := by
  have hinit : (LocApi.init : LocApi A).Holds [] := ⟨rfl, .fill MAX_ADAPTERS⟩
  obtain ⟨api, l, hrun, hholds, hperm, -⟩ := run_ok hinit (List.Perm.refl []) ops
  refine ⟨api, hrun, ?_, ?_⟩
  · rw [getEvtMask_ok hholds, hperm.foldl_eq' fun a _ b _ mask => ?_]
    · rfl
    · rw [UInt32.or_assoc, UInt32.or_assoc, UInt32.or_comm (evtMask a)]
  · rw [isInSession_ok hholds, hperm.any_eq]
    rfl

end Runs

end Nx508j.Loc.LocApiBase
