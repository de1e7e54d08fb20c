import Nx508j.Lib.XmlTree

/-! # Siblings in another order

Elements of an XML tree may stand before or behind their siblings. A walk visits the same elements
in whatever order they stand, each with the same text, and the elements it does not go into can be
visited in the opposite order as well. -/

namespace Nx508j.Lib

namespace XmlNode

variable {α τ : Type}

/-- The same tree with elements in other places among their siblings, at any level. What is not an
    element keeps its place among its like. -/
inductive Shuffle : XmlNode α → XmlNode α → Prop
  | null : Shuffle .null .null
  | node (type : XmlNodeType) (name content : Option α) {children children' next next' : XmlNode α}
      (hchildren : Shuffle children children') (hnext : Shuffle next next') :
      Shuffle (.node type name content children next) (.node type name content children' next')
  | swap {type type' : XmlNodeType} (helement : type = .element ∨ type' = .element)
      (name content : Option α) (children : XmlNode α) (name' content' : Option α)
      (children' next : XmlNode α) :
      Shuffle (.node type name content children (.node type' name' content' children' next))
        (.node type' name' content' children' (.node type name content children next))
  | trans {n n' n'' : XmlNode α} (h : Shuffle n n') (h' : Shuffle n' n'') : Shuffle n n''

theorem Shuffle.refl (n : XmlNode α) : Shuffle n n := by
  induction n with
  | null => exact .null
  | node type name content children next ihchildren ihnext =>
    exact .node type name content ihchildren ihnext

theorem Shuffle.firstText {n n' : XmlNode α} (h : Shuffle n n') : n.firstText = n'.firstText := by
  induction h with
  | null => rfl
  | node type name content hchildren hnext ihchildren ihnext =>
    cases type with
    | text => rfl
    | element | other => exact ihnext
  | @swap type type' helement =>
    rcases helement with rfl | rfl
    · cases type' <;> rfl
    · cases type <;> rfl
  | trans h h' ih ih' => exact ih.trans ih'

section Visited

variable (tag : Option α → Option τ) (descends : τ → Bool)

/-- An element with what is visited inside it. -/
def entered (name : Option α) (children : XmlNode α) : List (τ × Option α) :=
  match tag name with
  | none => []
  | some t => (t, children.firstText) :: if descends t then children.visited tag descends else []

theorem visited_element (name content : Option α) (children next : XmlNode α) :
    (node .element name content children next).visited tag descends =
      entered tag descends name children ++ next.visited tag descends := by
  rw [visited, entered]
  cases tag name with
  | none => rfl
  | some t => rfl

theorem visited_node (type : XmlNodeType) (name content : Option α) (children next : XmlNode α) :
    (node type name content children next).visited tag descends =
      (node type name content children null).visited tag descends ++
        next.visited tag descends := by
  cases type with
  | text | other => rfl
  | element => rw [visited_element, visited_element, visited, List.append_nil]

/-- The elements that a walk comes to do not depend on the order. -/
theorem Shuffle.visited_perm {n n' : XmlNode α} (h : Shuffle n n') :
    (n.visited tag descends).Perm (n'.visited tag descends) := by
  induction h with
  | null => exact .refl _
  | trans h h' ih ih' => exact ih.trans ih'
  | @swap type type' helement name content children name' content' children' next =>
    rw [visited_node tag descends type name content children (.node type' ..),
      visited_node tag descends type' name' content' children' next,
      visited_node tag descends type' name' content' children' (.node type ..),
      visited_node tag descends type name content children next]
    exact List.perm_append_comm_assoc ..
  | node type name content hchildren hnext ihchildren ihnext =>
    cases type with
    | text | other => exact ihnext
    | element =>
      rw [visited_element, visited_element]
      refine .append ?_ ihnext
      unfold entered
      cases tag name with
      | none => exact .refl _
      | some t =>
        rw [hchildren.firstText]
        refine .cons _ ?_
        split
        · exact ihchildren
        · exact .refl _

/-- The elements that the walk comes to and does not go into. -/
def leaves (n : XmlNode α) : List (τ × Option α) :=
  (n.visited tag descends).filter fun v => !descends v.1

end Visited

/-! ## The opposite order -/

/-- Siblings behind others. -/
def append : XmlNode α → XmlNode α → XmlNode α
  | .null, m => m
  | .node type name content children next, m => .node type name content children (next.append m)

/-- The elements at each level in the opposite order, behind what is not an element. -/
def reversed : XmlNode α → XmlNode α
  | .null => .null
  | .node .element name content children next =>
    next.reversed.append (.node .element name content children.reversed .null)
  | .node .text name content children next => .node .text name content children next.reversed
  | .node .other name content children next => .node .other name content children next.reversed

theorem shuffle_append (name content : Option α) (children n : XmlNode α) :
    Shuffle (.node .element name content children n)
      (n.append (.node .element name content children .null)) := by
  induction n with
  | null => exact .refl _
  | node type name' content' children' next _ ih =>
    exact .trans (.swap (.inl rfl) ..) (.node type name' content' (.refl _) ih)

theorem shuffle_reversed (n : XmlNode α) : Shuffle n n.reversed := by
  induction n with
  | null => exact .null
  | node type name content children next ihchildren ihnext =>
    cases type with
    | element => exact .trans (.node _ name content ihchildren ihnext) (shuffle_append ..)
    | text | other => exact .node _ name content (.refl _) ihnext

section Leaves

variable (tag : Option α → Option τ) (descends : τ → Bool)

theorem visited_append (n m : XmlNode α) :
    (n.append m).visited tag descends = n.visited tag descends ++ m.visited tag descends := by
  induction n with
  | null => rfl
  | node type name content children next _ ih =>
    rw [append, visited_node, ih, visited_node tag descends type name content children next,
      List.append_assoc]

/-- They are visited in the opposite order. -/
theorem leaves_reversed (n : XmlNode α) :
    n.reversed.leaves tag descends = (n.leaves tag descends).reverse := by
  induction n with
  | null => rfl
  | node type name content children next ihchildren ihnext =>
    unfold leaves at ihchildren ihnext ⊢
    cases type with
    | text | other => exact ihnext
    | element =>
      rw [reversed, visited_append, visited_element, visited_element, visited, List.append_nil,
        List.filter_append, List.filter_append, List.reverse_append, ihnext]
      refine congrArg _ ?_
      unfold entered
      cases tag name with
      | none => rfl
      | some t =>
        rw [← (shuffle_reversed children).firstText]
        cases hdescends : descends t with
        | true => simp [hdescends, ihchildren]
        | false => simp [hdescends]

end Leaves

end XmlNode

end Nx508j.Lib
