import Nx508j.Lib.Memory

/-! # Walking an XML tree

A node is linked to its first child and to its next sibling. A walk does something at each element
whose tag it knows and goes to the children of some of them. It comes down to what it does at the
elements it visits, in document order; what that needs is told by the elements visited before. -/

namespace Nx508j.Lib

inductive XmlNodeType where
  | element
  | text
  | other
deriving DecidableEq, Repr

/-- A node with what comes after it, or the null pointer. -/
inductive XmlNode (α : Type) where
  | null
  | node (type : XmlNodeType) (name content : Option α) (children next : XmlNode α)
deriving Repr

namespace XmlNode

variable {α τ γ ν : Type}

/-- The content of the first text node. -/
def firstText : XmlNode α → Option α
  | .null => none
  | .node .text _ content _ _ => content
  | .node .element _ _ _ next | .node .other _ _ _ next => next.firstText

section Walk

variable (tag : Option α → Option τ) (descends : τ → Bool)

/-- The walk over a node and its siblings. -/
def walk (act : τ → Option α → γ → Except Fault γ) : XmlNode α → γ → Except Fault γ
  | .null, c => .ok c
  | .node .element name _ children next, c =>
    match tag name with
    | none => next.walk act c
    | some t => do
        let c ← act t children.firstText c
        let c ← if descends t then children.walk act c else .ok c
        next.walk act c
  | .node .text _ _ _ next, c | .node .other _ _ _ next, c => next.walk act c

/-- The elements it visits that it knows the tag of, with their texts, in document order. -/
def visited : XmlNode α → List (τ × Option α)
  | .null => []
  | .node .element name _ children next =>
    match tag name with
    | none => next.visited
    | some t =>
      (t, children.firstText) :: ((if descends t then children.visited else []) ++ next.visited)
  | .node .text _ _ _ next | .node .other _ _ _ next => next.visited

/-- What it does at a visited element. -/
def visit (act : τ → Option α → γ → Except Fault γ) (c : γ) (v : τ × Option α) : Except Fault γ :=
  act v.1 v.2 c

variable {tag descends} {act : τ → Option α → γ → Except Fault γ}

theorem walk_eq_foldlM (n : XmlNode α) (c : γ) :
    n.walk tag descends act c = (n.visited tag descends).foldlM (visit act) c := by
  induction n generalizing c with
  | null => rfl
  | node type name content children next ihchildren ihnext =>
    cases type with
    | text => exact ihnext c
    | other => exact ihnext c
    | element =>
      simp only [walk, visited]
      cases tag name with
      | none => exact ihnext c
      | some t =>
        simp only [List.foldlM_cons, List.foldlM_append]
        refine congrArg _ (funext fun c => ?_)
        cases descends t with
        | false => exact ihnext c
        | true =>
          simp only [if_true, ihchildren]
          exact congrArg _ (funext fun c => ihnext c)

end Walk

end XmlNode

section Counted

variable {σ κ ν : Type} {act : σ → κ → Except Fault σ}

/-- **Counted steps.** Whether a step returns is told by what has been counted so far: then all of
    them return if and only if each fits what those before it have counted. -/
theorem foldlM_ok_iff (num : σ → ν) (count : ν → κ → ν) (fits : ν → κ → Prop)
    (hok : ∀ s c, (∃ s', act s c = .ok s') ↔ fits (num s) c)
    (hnum : ∀ s c s', act s c = .ok s' → num s' = count (num s) c) (s : σ) (cs : List κ) :
    (∃ s', cs.foldlM act s = .ok s') ↔
      ∀ i c, cs[i]? = some c → fits ((cs.take i).foldl count (num s)) c := by
  induction cs generalizing s with
  | nil => simp [pure, Except.pure]
  | cons c cs ih =>
    constructor
    · rintro ⟨s', h⟩
      rw [List.foldlM_cons] at h
      obtain ⟨s₁, hact, hfold⟩ := bind_eq_ok h
      have hrest := (ih s₁).1 ⟨s', hfold⟩
      rw [hnum s c s₁ hact] at hrest
      intro i d hd
      cases i with
      | zero =>
        obtain rfl := Option.some.inj (by simpa using hd)
        exact (hok s c).1 ⟨s₁, hact⟩
      | succ i => exact hrest i d (by simpa using hd)
    · intro h
      obtain ⟨s₁, hact⟩ := (hok s c).2 (h 0 c rfl)
      obtain ⟨s', hfold⟩ := (ih s₁).2 fun i d hd => by
        rw [hnum s c s₁ hact]
        exact h (i + 1) d (by simpa using hd)
      exact ⟨s', by rw [List.foldlM_cons, hact, ok_bind, hfold]⟩

end Counted

/-- **The rule for walks**: one returns if and only if each element that it comes to fits what those
    before it have counted. -/
theorem XmlNode.walk_ok_iff {α τ γ ν : Type} {tag : Option α → Option τ} {descends : τ → Bool}
    {act : τ → Option α → γ → Except Fault γ} (num : γ → ν) (count : ν → τ × Option α → ν)
    (fits : ν → τ × Option α → Prop)
    (hok : ∀ c t content, (∃ c', act t content c = .ok c') ↔ fits (num c) (t, content))
    (hnum : ∀ c t content c', act t content c = .ok c' → num c' = count (num c) (t, content))
    (root : XmlNode α) (c : γ) : (∃ c', root.walk tag descends act c = .ok c') ↔
      ∀ i v, (root.visited tag descends)[i]? = some v →
        fits (((root.visited tag descends).take i).foldl count (num c)) v := by
  rw [walk_eq_foldlM]
  exact foldlM_ok_iff num count fits (fun c v => hok c v.1 v.2) (fun c v => hnum c v.1 v.2) c _

end Nx508j.Lib
