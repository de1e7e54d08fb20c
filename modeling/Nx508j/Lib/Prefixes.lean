import Mathlib.Data.List.Basic

/-! # The states of a run of a total step function

The states that a run goes through are those after the beginnings of its list of events. A step that
keeps a property if and only if the event is of some kind makes the property hold of all of them if
and only if all events are of that kind. -/

namespace Nx508j.Lib

variable {σ ε : Type} {step : σ → ε → σ} {P : σ → Prop} {C : σ → ε → Prop}

/-- The state after `n` events. -/
def stateAt (step : σ → ε → σ) (s : σ) (es : List ε) (n : Nat) : σ := (es.take n).foldl step s

theorem stateAt_nil (s : σ) (n : Nat) : stateAt step s [] n = s := by
  simp [stateAt]

/-- Every event is of the kind, in the state it comes in. -/
def AllMeet (step : σ → ε → σ) (C : σ → ε → Prop) (s : σ) (es : List ε) : Prop :=
  ∀ n e, es[n]? = some e → C (stateAt step s es n) e

theorem allMeet_nil (s : σ) : AllMeet step C s [] := by
  intro n e h
  cases h

theorem allMeet_cons {s : σ} {e : ε} {es : List ε} :
    AllMeet step C s (e :: es) ↔ C s e ∧ AllMeet step C (step s e) es := by
  constructor
  · intro h
    exact ⟨h 0 e rfl, fun n d hd => h (n + 1) d (by simpa using hd)⟩
  · rintro ⟨hhead, htail⟩ n d hd
    cases n with
    | zero =>
      obtain rfl : e = d := by simpa using hd
      exact hhead
    | succ n => exact htail n d (by simpa using hd)

/-- **The rule for runs.** What the first state has, all states have if and only if every event is
    one that keeps it. -/
theorem forall_stateAt_iff (hstep : ∀ s e, P s → (P (step s e) ↔ C s e)) {s : σ} (h : P s)
    (es : List ε) : (∀ n, P (stateAt step s es n)) ↔ AllMeet step C s es := by
  induction es generalizing s with
  | nil => exact iff_of_true (fun n => by rwa [stateAt_nil]) (allMeet_nil s)
  | cons e es ih =>
    rw [allMeet_cons]
    constructor
    · intro hall
      have hnext : P (step s e) := hall 1
      exact ⟨(hstep s e h).1 hnext, (ih hnext).1 fun n => hall (n + 1)⟩
    · rintro ⟨hhead, htail⟩ n
      have hnext := (hstep s e h).2 hhead
      cases n with
      | zero => exact h
      | succ n => exact (ih hnext).2 htail n

end Nx508j.Lib
