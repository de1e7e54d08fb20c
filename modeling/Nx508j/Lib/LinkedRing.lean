import Mathlib.Data.List.Chain
import Mathlib.Data.List.Nodup

/-! # Doubly linked lists

A doubly linked list is a ring: from a base the `next` links lead over the nodes and back to the
base, and the `prev` links lead back the same way. The base of a circular list is its sentinel. The
base of a list that ends in null pointers is the null pointer itself, with the pointers to the first
and the last node for links. What an edit does is said once: `splice` exchanges a part of a ring, and
linking a node in or out are its cases. -/

namespace Nx508j.Lib

variable {P : Type*}

/-- `x` is followed by `y`, and `y` leads back to it. -/
def NextTo (next prev : P → P) (x y : P) : Prop := next x = y ∧ prev y = x

/-- The links lead from `b` over `l` and back to `b`. -/
structure LinkedRing (next prev : P → P) (b : P) (l : List P) : Prop where
  nodup : (b :: l).Nodup
  joined : (b :: l ++ [b]).IsChain (NextTo next prev)

/-- The nodes met from `p` on before `b`, at most `n` of them. -/
def walk [DecidableEq P] (next : P → P) (b : P) : Nat → P → List P
  | 0, _ => []
  | n + 1, p => if p = b then [] else p :: walk next b n (next p)

variable {next prev next' prev' : P → P} {b x y z : P} {l l₁ l₂ m m' : List P}

/-- Only neighbours are compared in a chain, so the last element is never the first of two. -/
theorem isChain_imp {R S : P → P → Prop} (h : l.IsChain R)
    (himp : ∀ a ∈ l.dropLast, ∀ c ∈ l.tail, R a c → S a c) : l.IsChain S := by
  induction h with
  | nil => exact .nil
  | singleton a => exact .singleton a
  | @cons_cons a c l hr _ ih =>
    refine .cons_cons (himp a (by simp) c (by simp) hr) (ih fun d hd e he => ?_)
    exact himp d (List.mem_cons_of_mem a hd) e (List.mem_cons_of_mem c he)

namespace LinkedRing

/-- The links the other way around are a ring as well. -/
theorem reverse (h : LinkedRing next prev b l) : LinkedRing prev next b l.reverse := by
  refine ⟨?_, ?_⟩
  · have hnodup := h.nodup
    simp only [List.nodup_cons, List.mem_reverse, List.nodup_reverse] at hnodup ⊢
    exact hnodup
  · have hrev : b :: l.reverse ++ [b] = (b :: l ++ [b]).reverse := by simp
    rw [hrev, List.isChain_reverse]
    exact h.joined.imp fun a c hac => ⟨hac.2, hac.1⟩

theorem nil_iff : LinkedRing next prev b [] ↔ next b = b ∧ prev b = b := by
  refine ⟨fun h => ?_, fun h => ⟨List.nodup_singleton b, ?_⟩⟩
  · simpa [NextTo] using h.joined
  · simpa [NextTo] using h

/-- Where a ring is cut, one part leads to the other. -/
theorem seam (h : LinkedRing next prev b (l₁ ++ l₂)) (hx : (b :: l₁).getLast? = some x)
    (hy : (l₂ ++ [b]).head? = some y) : NextTo next prev x y := by
  have hchain : ((b :: l₁) ++ (l₂ ++ [b])).IsChain (NextTo next prev) := by
    simpa using h.joined
  exact (List.isChain_append.1 hchain).2.2 x hx y hy

/-- Whoever is linked both ways has these neighbours. -/
theorem neighbours (h : LinkedRing next prev b (l₁ ++ z :: l₂)) :
    (b :: l₁).getLast? = some (prev z) ∧ (l₂ ++ [b]).head? = some (next z) := by
  have hchain : ((b :: l₁) ++ z :: (l₂ ++ [b])).IsChain (NextTo next prev) := by
    simpa using h.joined
  obtain ⟨-, hright, hseam⟩ := List.isChain_append.1 hchain
  obtain ⟨x, hx⟩ := Option.isSome_iff_exists.1 (show ((b :: l₁).getLast?).isSome by simp)
  obtain ⟨y, hy⟩ := Option.isSome_iff_exists.1 (show ((l₂ ++ [b]).head?).isSome by simp)
  have hxz : NextTo next prev x z := hseam x hx z rfl
  have hzy : NextTo next prev z y := hright.rel_head? hy
  rw [hx, hy, hxz.2, hzy.1]
  exact ⟨rfl, rfl⟩

/-- A node is not its own neighbour. -/
theorem ne_self (h : LinkedRing next prev b (l₁ ++ z :: l₂)) : prev z ≠ z ∧ next z ≠ z := by
  obtain ⟨hx, hy⟩ := h.neighbours
  have hnodup := h.nodup
  have hprev : prev z ∈ b :: l₁ := List.mem_of_getLast? hx
  have hnext : next z ∈ l₂ ++ [b] := List.mem_of_head? hy
  constructor
  · rintro heq
    grind
  · rintro heq
    grind

/-- The base is followed by the first node. -/
theorem next_base (h : LinkedRing next prev b l) : (l ++ [b]).head? = some (next b) := by
  have hchain : (b :: (l ++ [b])).IsChain (NextTo next prev) := h.joined
  cases hl : l ++ [b] with
  | nil => simp at hl
  | cons y l' =>
    rw [hl] at hchain
    exact congrArg some hchain.rel.1.symm

theorem prev_base (h : LinkedRing next prev b l) : (b :: l).getLast? = some (prev b) := by
  have hnext := h.reverse.next_base
  rw [← List.reverse_cons, List.head?_reverse] at hnext
  exact hnext

/-- The links are inverse to each other on the base and the nodes. -/
theorem prev_next (h : LinkedRing next prev b l) (hx : x ∈ b :: l) :
    next x ∈ b :: l ∧ prev (next x) = x := by
  obtain ⟨k₁, k₂, hk⟩ := List.append_of_mem hx
  have hchain : (k₁ ++ x :: (k₂ ++ [b])).IsChain (NextTo next prev) := by
    have hjoined := h.joined
    rw [hk] at hjoined
    simpa using hjoined
  obtain ⟨y, hy⟩ := Option.isSome_iff_exists.1 (show ((k₂ ++ [b]).head?).isSome by simp)
  have hxy : NextTo next prev x y := hchain.right_of_append.rel_head? hy
  rw [hxy.1]
  refine ⟨?_, hxy.2⟩
  rcases List.mem_append.1 (List.mem_of_head? hy) with hmem | hmem
  · rw [hk]
    exact List.mem_append_right _ (List.mem_cons_of_mem _ hmem)
  · rw [List.mem_singleton.1 hmem]
    exact List.mem_cons_self ..

theorem next_prev (h : LinkedRing next prev b l) (hx : x ∈ b :: l) :
    prev x ∈ b :: l ∧ next (prev x) = x := by
  obtain ⟨hmem, heq⟩ := h.reverse.prev_next (x := x) (by simpa using hx)
  exact ⟨by simpa using hmem, heq⟩

/-- **Splice.** A part of a ring is exchanged when the new part is linked in between its neighbours
    and the links of the others, away from the seams, are kept. -/
theorem splice (h : LinkedRing next prev b (l₁ ++ m ++ l₂)) (hnodup : (b :: (l₁ ++ m' ++ l₂)).Nodup)
    (hx : (b :: l₁).getLast? = some x) (hy : (l₂ ++ [b]).head? = some y)
    (hm : (x :: (m' ++ [y])).IsChain (NextTo next' prev'))
    (hnext : ∀ a ∈ b :: (l₁ ++ l₂), a ≠ x → next' a = next a)
    (hprev : ∀ a ∈ b :: (l₁ ++ l₂), a ≠ y → prev' a = prev a) :
    LinkedRing next' prev' b (l₁ ++ m' ++ l₂) := by
  obtain ⟨i₁, hi₁⟩ := List.getLast?_eq_some_iff.1 hx
  obtain ⟨i₂, hi₂⟩ := List.head?_eq_some_iff.1 hy
  -- both rings, cut at the seams
  have hcut : ∀ k : List P, b :: (l₁ ++ k ++ l₂) ++ [b] = i₁ ++ x :: (k ++ y :: i₂) := fun k => by
    have hseams : i₁ ++ x :: (k ++ y :: i₂) = (i₁ ++ [x]) ++ (k ++ (y :: i₂)) := by simp
    rw [hseams, ← hi₁, ← hi₂]
    simp
  have hold : (b :: (l₁ ++ m ++ l₂)).Nodup := h.nodup
  have hchain : (i₁ ++ x :: (m ++ y :: i₂)).IsChain (NextTo next prev) := hcut m ▸ h.joined
  have hleft : (i₁ ++ [x]).IsChain (NextTo next prev) := (List.isChain_split.1 hchain).1
  have hright : (y :: i₂).IsChain (NextTo next prev) := by
    have htail := (List.isChain_split.1 hchain).2
    rw [← List.cons_append] at htail
    exact htail.right_of_append
  have hx₁ : x ∈ b :: l₁ := List.mem_of_getLast? hx
  have hy₂ : y ∈ l₂ ++ [b] := List.mem_of_head? hy
  have hnodup₁ : (i₁ ++ [x]).Nodup := by
    rw [← hi₁]
    exact hold.sublist (by simp)
  have hnodup₂ : (y :: i₂).Nodup := by
    rw [← hi₂]
    grind
  refine ⟨hnodup, ?_⟩
  rw [hcut m', List.isChain_split]
  refine ⟨isChain_imp hleft fun a ha c hc hac => ?_, ?_⟩
  · -- before the seam: `a` is not the last of these, and `c` is not the base
    rw [List.dropLast_concat] at ha
    rw [← hi₁, List.tail_cons] at hc
    have ha₁ : a ∈ b :: l₁ := hi₁ ▸ List.mem_append_left _ ha
    have hax : a ≠ x := by grind
    have hcy : c ≠ y := by grind
    exact ⟨(hnext a (by grind) hax).trans hac.1, (hprev c (by grind) hcy).trans hac.2⟩
  · rw [← List.cons_append, List.isChain_split]
    refine ⟨hm, isChain_imp hright fun a ha c hc hac => ?_⟩
    -- behind the seam: `a` is not the base, and `c` is not the first of these
    rw [← hi₂, List.dropLast_concat] at ha
    rw [List.tail_cons] at hc
    have hc₂ : c ∈ l₂ ++ [b] := hi₂ ▸ List.mem_cons_of_mem y hc
    have hax : a ≠ x := by grind
    have hcy : c ≠ y := by grind
    exact ⟨(hnext a (by grind) hax).trans hac.1, (hprev c (by grind) hcy).trans hac.2⟩

/-- The links of the nodes and of the base are all that a ring depends on. -/
theorem congr (h : LinkedRing next prev b l) (hnext : ∀ a ∈ b :: l, next' a = next a)
    (hprev : ∀ a ∈ b :: l, prev' a = prev a) : LinkedRing next' prev' b l := by
  refine ⟨h.nodup, h.joined.imp_of_mem_imp fun a c ha hc hac => ?_⟩
  have hin : ∀ d ∈ b :: l ++ [b], d ∈ b :: l := fun d hd => by
    rcases List.mem_append.1 hd with hd | hd
    · exact hd
    · rw [List.mem_singleton.1 hd]
      exact List.mem_cons_self ..
  exact ⟨(hnext a (hin a ha)).trans hac.1, (hprev c (hin c hc)).trans hac.2⟩

/-- A node is linked in between two neighbours. -/
theorem insert (l₁ l₂ : List P) (h : LinkedRing next prev b (l₁ ++ l₂)) (hz : z ∉ b :: (l₁ ++ l₂))
    (hx : (b :: l₁).getLast? = some x) (hy : (l₂ ++ [b]).head? = some y)
    (hxz : NextTo next' prev' x z) (hzy : NextTo next' prev' z y)
    (hnext : ∀ a ∈ b :: (l₁ ++ l₂), a ≠ x → next' a = next a)
    (hprev : ∀ a ∈ b :: (l₁ ++ l₂), a ≠ y → prev' a = prev a) :
    LinkedRing next' prev' b (l₁ ++ z :: l₂) := by
  have hnodup : (b :: (l₁ ++ [z] ++ l₂)).Nodup := by
    have hold := h.nodup
    grind
  have hnew : LinkedRing next' prev' b (l₁ ++ [z] ++ l₂) := by
    refine splice (m := []) (by simpa using h) hnodup hx hy ?_ hnext hprev
    exact .cons_cons hxz (.cons_cons hzy (.singleton y))
  simpa using hnew

/-- A node is linked out when its neighbours are joined. -/
theorem unlink (h : LinkedRing next prev b (l₁ ++ z :: l₂))
    (hjoin : NextTo next' prev' (prev z) (next z))
    (hnext : ∀ a ∈ b :: (l₁ ++ l₂), a ≠ prev z → next' a = next a)
    (hprev : ∀ a ∈ b :: (l₁ ++ l₂), a ≠ next z → prev' a = prev a) :
    LinkedRing next' prev' b (l₁ ++ l₂) := by
  obtain ⟨hx, hy⟩ := h.neighbours
  have hnodup : (b :: (l₁ ++ [] ++ l₂)).Nodup := by
    refine h.nodup.sublist ?_
    simp
  have hnew : LinkedRing next' prev' b (l₁ ++ [] ++ l₂) := by
    refine splice (m := [z]) (by simpa using h) hnodup hx hy ?_ hnext hprev
    exact .cons_cons hjoin (.singleton _)
  simpa using hnew

variable [DecidableEq P] {n : Nat}

/-- Following the links from a node meets what is behind it. -/
theorem walk_suffix (hchain : (x :: l ++ [b]).IsChain (NextTo next prev)) (hb : b ∉ l)
    (hn : l.length ≤ n) : walk next b n (next x) = l := by
  induction l generalizing x n with
  | nil =>
    have hnext : next x = b := hchain.rel.1
    cases n with
    | zero => rfl
    | succ n => simp [walk, hnext]
  | cons y l ih =>
    rw [List.cons_append, List.cons_append, List.isChain_cons_cons] at hchain
    obtain ⟨⟨rfl, -⟩, hchain⟩ := hchain
    cases n with
    | zero => simp at hn
    | succ n =>
      have hy : next x ≠ b := fun heq => hb (heq ▸ List.mem_cons_self ..)
      rw [walk, if_neg hy, ih hchain (fun hmem => hb (List.mem_cons_of_mem _ hmem))
        (Nat.le_of_succ_le_succ hn)]

/-- Walking forward meets the nodes in order. -/
theorem walk_next (h : LinkedRing next prev b l) (hn : l.length ≤ n) : walk next b n (next b) = l :=
  walk_suffix h.joined (List.nodup_cons.1 h.nodup).1 hn

/-- Walking backward meets them the other way around. -/
theorem walk_prev (h : LinkedRing next prev b l) (hn : l.length ≤ n) :
    walk prev b n (prev b) = l.reverse :=
  h.reverse.walk_next (by simpa using hn)

end LinkedRing

end Nx508j.Lib
