import Mathlib.Data.Sym.Sym2

/-! # Mutual lists

Everybody has a list of others. The lists are mutual if each one is on the lists of those on its own:
then they are the lists of a set of unordered pairs, and to link two, to part two, or to part one from
all others is to add and to remove pairs. -/

namespace Nx508j.Lib

variable {V : Type}

/-- `E` is the set of the pairs that are on each other's lists. -/
structure Mutual (adj : V → List V) (E : Finset (Sym2 V)) : Prop where
  nodup : ∀ p, (adj p).Nodup
  loopless : ∀ p, p ∉ adj p
  mem : ∀ p q, s(p, q) ∈ E ↔ q ∈ adj p

namespace Mutual

variable {adj adj' : V → List V} {E : Finset (Sym2 V)} {a b : V}

theorem nil : Mutual (fun _ : V => []) ∅ where
  nodup := fun _ => .nil
  loopless := fun _ => List.not_mem_nil
  mem := fun _ _ => by simp

theorem congr (h : Mutual adj E) (heq : ∀ p, adj' p = adj p) : Mutual adj' E := by
  obtain rfl : adj' = adj := funext heq
  exact h

theorem symm (h : Mutual adj E) (p q : V) : q ∈ adj p ↔ p ∈ adj q := by
  rw [← h.mem, ← h.mem, Sym2.eq_swap]

variable [DecidableEq V]

/-- To link two that are not linked is one pair more. -/
theorem join (h : Mutual adj E) (hab : a ≠ b) (hnot : b ∉ adj a)
    (ha : adj' a = adj a ++ [b]) (hb : adj' b = adj b ++ [a])
    (hother : ∀ p, p ≠ a → p ≠ b → adj' p = adj p) :
    Mutual adj' (insert s(a, b) E) ∧ (insert s(a, b) E).card = E.card + 1 := by
  have hnot' : a ∉ adj b := fun hmem => hnot ((h.symm a b).mpr hmem)
  refine ⟨⟨fun p => ?_, fun p => ?_, fun p q => ?_⟩, ?_⟩
  · by_cases hpa : p = a
    · rw [hpa, ha]
      exact List.concat_eq_append ▸ (h.nodup a).concat hnot
    · by_cases hpb : p = b
      · rw [hpb, hb]
        exact List.concat_eq_append ▸ (h.nodup b).concat hnot'
      · rw [hother p hpa hpb]
        exact h.nodup p
  · by_cases hpa : p = a
    · rw [hpa, ha, List.mem_append, List.mem_singleton]
      exact not_or.mpr ⟨h.loopless a, hab⟩
    · by_cases hpb : p = b
      · rw [hpb, hb, List.mem_append, List.mem_singleton]
        exact not_or.mpr ⟨h.loopless b, Ne.symm hab⟩
      · rw [hother p hpa hpb]
        exact h.loopless p
  · rw [Finset.mem_insert, Sym2.eq_iff, h.mem]
    by_cases hpa : p = a
    · subst hpa
      rw [ha, List.mem_append, List.mem_singleton]
      grind
    · by_cases hpb : p = b
      · subst hpb
        rw [hb, List.mem_append, List.mem_singleton]
        grind
      · rw [hother p hpa hpb]
        grind
  · exact Finset.card_insert_of_notMem fun hmem => hnot ((h.mem a b).mp hmem)

/-- To part two that are linked is one pair less. -/
theorem part (h : Mutual adj E) (hab : b ∈ adj a) (ha : adj' a = (adj a).erase b)
    (hb : adj' b = (adj b).erase a) (hother : ∀ p, p ≠ a → p ≠ b → adj' p = adj p) :
    Mutual adj' (E.erase s(a, b)) ∧ (E.erase s(a, b)).card + 1 = E.card := by
  have herase : ∀ p, ∃ q, adj' p = (adj p).erase q ∧ (p = a ∧ q = b ∨ p = b ∧ q = a) ∨
      p ≠ a ∧ p ≠ b ∧ adj' p = adj p := by
    intro p
    by_cases hpa : p = a
    · exact ⟨b, .inl ⟨hpa ▸ ha, .inl ⟨hpa, rfl⟩⟩⟩
    · by_cases hpb : p = b
      · exact ⟨a, .inl ⟨hpb ▸ hb, .inr ⟨hpb, rfl⟩⟩⟩
      · exact ⟨a, .inr ⟨hpa, hpb, hother p hpa hpb⟩⟩
  refine ⟨⟨fun p => ?_, fun p => ?_, fun p q => ?_⟩, ?_⟩
  · obtain ⟨q, ⟨heq, -⟩ | ⟨-, -, heq⟩⟩ := herase p
    · rw [heq]
      exact (h.nodup p).erase q
    · rw [heq]
      exact h.nodup p
  · obtain ⟨q, ⟨heq, -⟩ | ⟨-, -, heq⟩⟩ := herase p
    · rw [heq]
      exact fun hmem => h.loopless p (List.mem_of_mem_erase hmem)
    · rw [heq]
      exact h.loopless p
  · rw [Finset.mem_erase, Ne, Sym2.eq_iff, h.mem]
    obtain ⟨x, ⟨heq, hx⟩ | ⟨hpa, hpb, heq⟩⟩ := herase p
    · rw [heq, (h.nodup p).mem_erase_iff]
      grind
    · rw [heq]
      grind
  · exact Finset.card_erase_add_one ((h.mem a b).mpr hab)

/-- To part one from all others is to lose as many pairs as its list has. -/
theorem isolate (h : Mutual adj E) (ha : adj' a = [])
    (hother : ∀ p, p ≠ a → adj' p = (adj p).erase a) :
    ∃ E', Mutual adj' E' ∧ E'.card + (adj a).length = E.card := by
  refine ⟨E.filter (a ∉ ·), ⟨fun p => ?_, fun p => ?_, fun p q => ?_⟩, ?_⟩
  · by_cases hp : p = a
    · rw [hp, ha]
      exact .nil
    · rw [hother p hp]
      exact (h.nodup p).erase a
  · by_cases hp : p = a
    · rw [hp, ha]
      exact List.not_mem_nil
    · rw [hother p hp]
      exact fun hmem => h.loopless p (List.mem_of_mem_erase hmem)
  · rw [Finset.mem_filter, Sym2.mem_iff, h.mem]
    by_cases hp : p = a
    · subst hp
      rw [ha]
      simp
    · rw [hother p hp, (h.nodup p).mem_erase_iff]
      grind
  · have hlost : E.filter (a ∈ ·) = ((adj a).map fun q => s(a, q)).toFinset := by
      ext e
      induction e using Sym2.ind with
      | _ p q =>
        rw [Finset.mem_filter, Sym2.mem_iff, List.mem_toFinset, List.mem_map]
        constructor
        · rintro ⟨he, rfl | rfl⟩
          · exact ⟨q, (h.mem _ q).mp he, rfl⟩
          · exact ⟨p, (h.symm p _).mp ((h.mem p _).mp he), Sym2.eq_swap⟩
        · rintro ⟨x, hx, he⟩
          rw [← he]
          refine ⟨(h.mem a x).mpr hx, ?_⟩
          rw [← Sym2.mem_iff, ← he]
          exact Sym2.mem_mk_left a x
    have hcard : (E.filter (a ∈ ·)).card = (adj a).length := by
      rw [hlost, List.toFinset_card_of_nodup, List.length_map]
      exact (h.nodup a).map fun _ _ he => Sym2.congr_right.mp he
    rw [← hcard, add_comm]
    exact Finset.card_filter_add_card_filter_not _

end Mutual

end Nx508j.Lib
