import Mathlib.Logic.Function.Basic

/-! # Bounded memory and runs of a fallible step function

A `Region` is an array of the modelled program: every access is checked against its size, and an
access past it is a `Fault` of the model rather than a value. A step of the program either returns a
result or faults; `Run` collects the calls that returned, in order, with what they returned, and
`exec` makes a list of calls. -/

namespace Nx508j.Lib

/-- Why a call of the model has no result. -/
inductive Fault
  | outOfBounds
  | diverges
deriving DecidableEq, Repr

@[simp] theorem ok_bind {ε α β : Type} (a : α) (f : α → Except ε β) :
    (Except.ok a >>= f) = f a := rfl

@[simp] theorem error_bind {ε α β : Type} (e : ε) (f : α → Except ε β) :
    (Except.error e >>= f) = Except.error e := rfl

/-- Something is known of the result, so there is one. -/
theorem ok_of_map {ε α β : Type} {x : Except ε α} {g : α → β} {b : β}
    (h : x.toOption.map g = some b) : ∃ a, x = .ok a ∧ g a = b := by
  cases x with
  | error e => cases h
  | ok a => exact ⟨a, rfl, Option.some.inj h⟩

/-- A computation that returned was built from a first part that returned. -/
theorem bind_eq_ok {ε α β : Type} {x : Except ε α} {f : α → Except ε β} {b : β}
    (h : (x >>= f) = .ok b) : ∃ a, x = .ok a ∧ f a = .ok b := by
  cases x with
  | error e => cases h
  | ok a => exact ⟨a, rfl, h⟩

/-- Two results that are the same are so in both parts. -/
theorem ok_pair {ε α β : Type} {a a' : α} {b b' : β}
    (h : (Except.ok (a, b) : Except ε (α × β)) = .ok (a', b')) : a = a' ∧ b = b' :=
  Prod.mk.inj (Except.ok.inj h)

/-! ## Regions -/

/-- An array of `size` elements. What `get` says at or past `size` is never observed. -/
structure Region (α : Type) where
  size : Nat
  get : Nat → α

namespace Region

variable {α : Type}

/-- `n` elements set to `z` (`memset` of a fresh array). -/
def fill (n : Nat) (z : α) : Region α := ⟨n, fun _ => z⟩

def read (m : Region α) (i : Nat) : Except Fault α :=
  if i < m.size then .ok (m.get i) else .error .outOfBounds

/-- The array with element `i` replaced, whether or not `i` is in it. -/
def set (m : Region α) (i : Nat) (v : α) : Region α :=
  { m with get := Function.update m.get i v }

def write (m : Region α) (i : Nat) (v : α) : Except Fault (Region α) :=
  if i < m.size then .ok (m.set i v) else .error .outOfBounds

/-- Apply `f` to element `i` in place. -/
def modify (m : Region α) (i : Nat) (f : α → α) : Except Fault (Region α) :=
  if i < m.size then .ok (m.set i (f (m.get i))) else .error .outOfBounds

/-- Set the first `n` elements to `z`. -/
def memset (m : Region α) (n : Nat) (z : α) : Except Fault (Region α) :=
  if n ≤ m.size then .ok { m with get := fun i => if i < n then z else m.get i }
  else .error .outOfBounds

variable {m : Region α}

theorem memset_ok {n : Nat} (h : n ≤ m.size) (z : α) :
    m.memset n z = .ok { m with get := fun i => if i < n then z else m.get i } :=
  if_pos h

variable {i : Nat}

theorem read_ok (h : i < m.size) : m.read i = .ok (m.get i) :=
  if_pos h

theorem write_ok (h : i < m.size) (v : α) : m.write i v = .ok (m.set i v) :=
  if_pos h

theorem lt_of_read {v : α} (h : m.read i = .ok v) : i < m.size ∧ v = m.get i := by
  unfold read at h
  split at h
  · next hi => exact ⟨hi, (Except.ok.inj h).symm⟩
  · cases h

theorem modify_ok (h : i < m.size) (f : α → α) : m.modify i f = .ok (m.set i (f (m.get i))) :=
  if_pos h

theorem lt_of_modify {m m' : Region α} {f : α → α} (h : m.modify i f = .ok m') :
    i < m.size ∧ m' = m.set i (f (m.get i)) := by
  unfold modify at h
  split at h
  · next hi => exact ⟨hi, (Except.ok.inj h).symm⟩
  · cases h

theorem lt_of_write {m m' : Region α} {v : α} (h : m.write i v = .ok m') :
    i < m.size ∧ m' = m.set i v := by
  unfold write at h
  split at h
  · next hi => exact ⟨hi, (Except.ok.inj h).symm⟩
  · cases h

@[simp] theorem size_fill (n : Nat) (z : α) : (fill n z).size = n := rfl

@[simp] theorem size_set (m : Region α) (i : Nat) (v : α) : (m.set i v).size = m.size := rfl

theorem get_set (m : Region α) (i j : Nat) (v : α) :
    (m.set i v).get j = if j = i then v else m.get j :=
  Function.update_apply m.get i v j

@[simp] theorem get_set_self (m : Region α) (i : Nat) (v : α) : (m.set i v).get i = v := by
  simp [get_set]

end Region

/-! ## What a computation can end in -/

/-- The computation returns a value with `P`, or ends in a fault that `F` allows. -/
def Ends {α : Type} (F : Fault → Prop) (x : Except Fault α) (P : α → Prop) : Prop :=
  match x with
  | .ok a => P a
  | .error f => F f

namespace Ends

variable {α β : Type} {F : Fault → Prop} {x : Except Fault α} {P Q : α → Prop}

theorem ok {a : α} (h : P a) : Ends F (.ok a) P := h

theorem imp (hx : Ends F x P) (h : ∀ a, x = .ok a → P a → Q a) : Ends F x Q := by
  cases x with
  | error f => exact hx
  | ok a => exact h a rfl hx

theorem bind {f : α → Except Fault β} {R : β → Prop} (hx : Ends F x P)
    (hf : ∀ a, x = .ok a → P a → Ends F (f a) R) : Ends F (x >>= f) R := by
  cases x with
  | error e => exact hx
  | ok a => exact hf a rfl hx

/-- A part that is known to return may be replaced by its value. -/
theorem bind_ok {f : α → Except Fault β} {R : β → Prop} {a : α} (hx : x = .ok a)
    (hf : Ends F (f a) R) : Ends F (x >>= f) R := by
  rw [hx]
  exact hf

theorem exists_ok (hx : Ends (fun _ => False) x P) : ∃ a, x = .ok a ∧ P a := by
  cases x with
  | error f => exact hx.elim
  | ok a => exact ⟨a, rfl, hx⟩

theorem ne_error (hx : Ends F x P) {f : Fault} (hf : ¬ F f) : x ≠ .error f := by
  rintro rfl
  exact hf hx

/-- The rule for a loop over a list. -/
theorem foldlM {f : β → α → Except Fault β} {I : β → Prop} {l : List α} {b : β} (hb : I b)
    (hstep : ∀ b, I b → ∀ a ∈ l, Ends F (f b a) I) : Ends F (l.foldlM f b) I := by
  induction l generalizing b with
  | nil => exact hb
  | cons a l ih =>
    rw [List.foldlM_cons]
    refine (hstep b hb a (List.mem_cons_self ..)).bind fun b' _ hb' => ?_
    exact ih hb' fun c hc d hd => hstep c hc d (List.mem_cons_of_mem _ hd)

end Ends

/-! ## Runs -/

section Run

variable {σ κ ρ : Type} {step : σ → κ → Except Fault (σ × ρ)} {C : σ → κ → Prop}

/-- `Run step C s₀ tr s`: from `s₀`, the calls of `tr` returned one after the other, each with the
    result `tr` records, and left the state `s`. Each call met `C` in the state it was made in. -/
inductive Run (step : σ → κ → Except Fault (σ × ρ)) (C : σ → κ → Prop) (s₀ : σ) :
    List (κ × ρ) → σ → Prop
  | nil : Run step C s₀ [] s₀
  | snoc {tr : List (κ × ρ)} {s s' : σ} {c : κ} {r : ρ} (run : Run step C s₀ tr s)
      (hstep : step s c = .ok (s', r)) (hC : C s c) : Run step C s₀ (tr ++ [(c, r)]) s'

namespace Run

variable {tr : List (κ × ρ)}

/-- **Invariant rule**, for what may speak of the calls made so far: it holds at the start and every
    call that meets the condition keeps it. -/
theorem invariant {s₀ s : σ} (P : List (κ × ρ) → σ → Prop) (h₀ : P [] s₀)
    (hkeep : ∀ tr s c s' r, P tr s → C s c → step s c = .ok (s', r) → P (tr ++ [(c, r)]) s')
    (run : Run step C s₀ tr s) : P tr s := by
  induction run with
  | nil => exact h₀
  | snoc _ hstep hC ih => exact hkeep _ _ _ _ _ ih hC hstep

/-- A run may be held to a weaker condition. -/
theorem imp {C' : σ → κ → Prop} {s₀ s : σ} (run : Run step C s₀ tr s) (h : ∀ s c, C s c → C' s c) :
    Run step C' s₀ tr s := by
  induction run with
  | nil => exact .nil
  | snoc _ hstep hC ih => exact .snoc ih hstep (h _ _ hC)

theorem cons {s₀ s₁ s : σ} {c : κ} {r : ρ} (hstep : step s₀ c = .ok (s₁, r)) (hC : C s₀ c)
    (run : Run step C s₁ tr s) : Run step C s₀ ((c, r) :: tr) s := by
  induction run with
  | nil => exact .snoc .nil hstep hC
  | snoc _ hstep' hC' ih => exact .snoc ih hstep' hC'

end Run

/-- Make the calls of a list, one after the other. -/
def exec (step : σ → κ → Except Fault (σ × ρ)) : σ → List κ → Except Fault (σ × List (κ × ρ))
  | s, [] => .ok (s, [])
  | s, c :: cs => do
      let (s', r) ← step s c
      let (s'', tr) ← exec step s' cs
      .ok (s'', (c, r) :: tr)

variable {cs : List κ} {tr : List (κ × ρ)} {s s' : σ}

/-- What `exec` did is a run of its calls. -/
theorem Run.of_exec {C : κ → Prop} (h : exec step s cs = .ok (s', tr))
    (hC : ∀ c ∈ cs, C c) : Run step (fun _ => C) s tr s' := by
  induction cs generalizing s tr with
  | nil =>
    obtain ⟨rfl, rfl⟩ : s = s' ∧ [] = tr := by simpa [exec] using h
    exact .nil
  | cons c cs ih =>
    obtain ⟨⟨s₁, r⟩, hstep, h⟩ := bind_eq_ok h
    obtain ⟨⟨s₂, tr₂⟩, hexec, h⟩ := bind_eq_ok h
    obtain ⟨rfl, rfl⟩ : s₂ = s' ∧ (c, r) :: tr₂ = tr := by simpa using h
    exact .cons hstep (hC c (List.mem_cons_self ..))
      (ih hexec fun d hd => hC d (List.mem_cons_of_mem _ hd))

/-- Whether every call of a list meets a test in the state it is made in. -/
def allMeet (step : σ → κ → Except Fault (σ × ρ)) (test : σ → κ → Bool) : σ → List κ → Bool
  | _, [] => true
  | s, c :: cs =>
    test s c &&
      match step s c with
      | .ok (s', _) => allMeet step test s' cs
      | .error _ => true

/-- The same for a condition on the state, by a test for it. -/
theorem Run.of_exec_of_allMeet {test : σ → κ → Bool}
    (htest : ∀ s, ∀ c ∈ cs, test s c = true → C s c) (h : exec step s cs = .ok (s', tr))
    (hall : allMeet step test s cs = true) : Run step C s tr s' := by
  induction cs generalizing s tr with
  | nil =>
    obtain ⟨rfl, rfl⟩ : s = s' ∧ [] = tr := by simpa [exec] using h
    exact .nil
  | cons c cs ih =>
    obtain ⟨⟨s₁, r⟩, hstep, h⟩ := bind_eq_ok h
    obtain ⟨⟨s₂, tr₂⟩, hexec, h⟩ := bind_eq_ok h
    obtain ⟨rfl, rfl⟩ : s₂ = s' ∧ (c, r) :: tr₂ = tr := by simpa using h
    rw [allMeet, hstep, Bool.and_eq_true] at hall
    exact .cons hstep (htest s c (List.mem_cons_self ..) hall.1)
      (ih (fun s d hd => htest s d (List.mem_cons_of_mem _ hd)) hexec hall.2)

/-- A list of calls of which something is known at the end goes through. -/
theorem exec_of_map {β : Type} {s₀ : σ} {g : σ × List (κ × ρ) → β} {v : β}
    (h : (exec step s₀ cs).toOption.map g = some v) :
    ∃ s tr, exec step s₀ cs = .ok (s, tr) ∧ g (s, tr) = v := by
  obtain ⟨⟨s, tr⟩, hexec, h⟩ := ok_of_map h
  exact ⟨s, tr, hexec, h⟩

/-- A run of a list of calls, and something about the state that it leaves. -/
theorem Run.exists_of_exec {C : κ → Prop} {β : Type} {s₀ : σ} {g : σ → β} {v : β}
    (h : (exec step s₀ cs).toOption.map (fun x => g x.1) = some v) (hC : ∀ c ∈ cs, C c) :
    ∃ tr s, Run step (fun _ => C) s₀ tr s ∧ g s = v := by
  obtain ⟨s, tr, hexec, h⟩ := exec_of_map h
  exact ⟨tr, s, Run.of_exec hexec hC, h⟩

/-- What `exec` records are the calls it made. -/
theorem map_fst_of_exec (h : exec step s cs = .ok (s', tr)) : tr.map Prod.fst = cs := by
  induction cs generalizing s tr with
  | nil =>
    obtain ⟨rfl, rfl⟩ : s = s' ∧ [] = tr := by simpa [exec] using h
    rfl
  | cons c cs ih =>
    obtain ⟨⟨s₁, r⟩, hstep, h⟩ := bind_eq_ok h
    obtain ⟨⟨s₂, tr₂⟩, hexec, h⟩ := bind_eq_ok h
    obtain ⟨rfl, rfl⟩ : s₂ = s' ∧ (c, r) :: tr₂ = tr := by simpa using h
    rw [List.map_cons, ih hexec]

/-- A run of a list of calls that all meet a condition on the state. -/
theorem Run.exists_of_allMeet [∀ s c, Decidable (C s c)] {β : Type} {s₀ : σ} {g : σ → β} {v : β}
    (h : (exec step s₀ cs).toOption.map (fun x => g x.1) = some v)
    (hall : allMeet step (fun s c => decide (C s c)) s₀ cs = true) :
    ∃ tr s, Run step C s₀ tr s ∧ tr.map Prod.fst = cs ∧ g s = v := by
  obtain ⟨s, tr, hexec, h⟩ := exec_of_map h
  exact ⟨tr, s, Run.of_exec_of_allMeet (fun s c _ hc => of_decide_eq_true hc) hexec hall,
    map_fst_of_exec hexec, h⟩

end Run

end Nx508j.Lib
