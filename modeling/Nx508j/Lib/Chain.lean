import Mathlib.Data.Finset.Card
import Mathlib.Data.Nat.Find

/-! # Overflow chains of a bucket table

A bucket table keeps its collisions in singly linked chains: every head (a bucket) owns the chain of
overflow nodes reached by following `next` until `nil`. `Path` is the walk from one node, `Back` the
matching predecessor links, and `Chained` the invariant of a whole table: the chains are finite,
disjoint, repeat no node, and hold exactly the occupied overflow nodes.

`Chained` speaks of whole lists, which no single write of a table preserves on its face. It is proved
from two local invariants, each about one link at a time: `Threaded` (what a `next` link points at is
occupied and points back) and `Anchored` (an occupied node is what its predecessor points at, and
predecessors lead back to the head that owns it). The updates of a table (`insert`, `insertHead`,
`unlink`, `removeHeads`) are stated for the local ones, and pointwise, so that a table kept in any
representation can use them. -/

namespace Nx508j.Lib

open Function

variable {α : Type*}

/-! ## Walks -/

/-- Following `next` from `h` visits exactly `l` and then reaches `nil`. -/
def Path (nil : α) (next : α → α) : α → List α → Prop
  | h, [] => next h = nil
  | h, y :: ys => next h = y ∧ y ≠ nil ∧ Path nil next y ys

/-- The `prev` links of the nodes `l`, walked from `h`, name each node's predecessor. -/
def Back (prev : α → α) : α → List α → Prop
  | _, [] => True
  | h, y :: ys => prev y = h ∧ Back prev y ys

/-- The nodes met by following `next` from `h`, at most `fuel` of them. -/
def chainFrom [DecidableEq α] (nil : α) (next : α → α) : Nat → α → List α
  | 0, _ => []
  | fuel + 1, h => if next h = nil then [] else next h :: chainFrom nil next fuel (next h)

variable {nil : α} {next next' prev prev' : α → α}

/-- Enough fuel meets the whole walk. -/
theorem Path.chainFrom_eq [DecidableEq α] {h : α} {l : List α} (hp : Path nil next h l)
    {fuel : Nat} (hf : l.length ≤ fuel) : chainFrom nil next fuel h = l := by
  induction l generalizing h fuel with
  | nil =>
    cases fuel with
    | zero => rfl
    | succ fuel => exact if_pos hp
  | cons y ys ih =>
    cases fuel with
    | zero => simp at hf
    | succ fuel =>
      obtain ⟨rfl, hne, hrest⟩ := hp
      rw [chainFrom, if_neg hne, ih hrest (by simpa using hf)]

/-- A walk goes on from each of its nodes. -/
theorem Path.next_mem {h x : α} {l : List α} (hp : Path nil next h l) (hx : x ∈ h :: l)
    (hne : next x ≠ nil) : next x ∈ l := by
  induction l generalizing h with
  | nil =>
    obtain rfl : x = h := by simpa using hx
    exact absurd hp hne
  | cons y ys ih =>
    rcases List.mem_cons.1 hx with rfl | hx
    · exact hp.1 ▸ List.mem_cons_self ..
    · exact List.mem_cons_of_mem _ (ih hp.2.2 hx)

theorem path_iterate {h : α} {n : Nat} (hlt : ∀ k < n, next^[k + 1] h ≠ nil)
    (hn : next^[n + 1] h = nil) : Path nil next h ((List.range n).map fun k => next^[k + 1] h) := by
  induction n generalizing h with
  | zero => exact hn
  | succ n ih =>
    rw [List.range_succ_eq_map, List.map_cons, List.map_map]
    refine ⟨rfl, hlt 0 (Nat.succ_pos n), ?_⟩
    refine ih (h := next h) (fun k hk => ?_) ?_
    · rw [← Function.iterate_succ_apply]
      exact hlt (k + 1) (by omega)
    · rw [← Function.iterate_succ_apply]
      exact hn

/-! ## The chains of a table -/

/-- The overflow chains of a bucket table: `chain h` is the chain of head `h`, and the chains hold
    exactly the occupied nodes that are not heads, each once. -/
structure Chained (nil : α) (next prev : α → α) (head occ : α → Prop) (chain : α → List α) :
    Prop where
  path : ∀ h, head h → Path nil next h (chain h)
  back : ∀ h, head h → Back prev h (chain h)
  nodup : ∀ h, head h → (chain h).Nodup
  disjoint : ∀ h h' x, head h → head h' → x ∈ chain h → x ∈ chain h' → h = h'
  not_head : ∀ h x, head h → x ∈ chain h → ¬ head x
  occ_iff : ∀ x, ¬ head x → (occ x ↔ ∃ h, head h ∧ x ∈ chain h)

/-- What a `next` link names is an occupied overflow node whose `prev` link names it back. -/
def Threaded (nil : α) (next prev : α → α) (head occ : α → Prop) : Prop :=
  ∀ q, next q ≠ nil → ¬ head (next q) ∧ occ (next q) ∧ prev (next q) = q

/-- An occupied overflow node is what its predecessor links to. Predecessors were occupied earlier
    (`age`) and lead to the head that owns the chain (`owner`). -/
structure Anchored (next prev : α → α) (head occ : α → Prop) (age : α → Nat) (owner : α → α) :
    Prop where
  occ_prev : ∀ x, ¬ head x → occ x → occ (prev x)
  next_prev : ∀ x, ¬ head x → occ x → next (prev x) = x
  age_lt : ∀ x, ¬ head x → occ x → ¬ head (prev x) → age (prev x) < age x
  owner_eq : ∀ x, ¬ head x → occ x → owner x = owner (prev x)
  owner_head : ∀ h, head h → owner h = h

variable {head occ occ' : α → Prop} {age : α → Nat} {owner : α → α}

/-! ### From local to whole chains -/

namespace Threaded

variable {h : α}

section

variable (H : Threaded nil next prev head occ)
include H

theorem prev_iterate {k : Nat}
    (hne : next^[k + 1] h ≠ nil) : prev (next^[k + 1] h) = next^[k] h := by
  rw [Function.iterate_succ_apply'] at hne ⊢
  exact (H _ hne).2.2

theorem not_head_iterate {k : Nat} (hne : next^[k + 1] h ≠ nil) : ¬ head (next^[k + 1] h) := by
  rw [Function.iterate_succ_apply'] at hne ⊢
  exact (H _ hne).1

/-- A walk that started at a head comes to no node twice: going back from both visits at once, one
    of them reaches the head first. -/
theorem iterate_ne (hh : head h) {i j : Nat}
    (hij : i < j) (hne : ∀ k < j, next^[k + 1] h ≠ nil) : next^[i] h ≠ next^[j] h := by
  obtain ⟨j, rfl⟩ : ∃ j', j = j' + 1 := ⟨j - 1, by omega⟩
  induction i generalizing j with
  | zero =>
    intro he
    refine H.not_head_iterate (hne j (by omega)) ?_
    rw [← he]
    exact hh
  | succ i ih =>
    intro he
    have hi := H.prev_iterate (hne i (by omega))
    have hj := H.prev_iterate (hne j (by omega))
    obtain ⟨j, rfl⟩ : ∃ j', j = j' + 1 := ⟨j - 1, by omega⟩
    refine ih j (by omega) (fun k hk => hne k (by omega)) ?_
    rw [← hi, ← hj, he]

/-- The chain of a head is finite, repeats no node and is at most as long as there are nodes. -/
theorem exists_path (nodes : Finset α) (hnodes : ∀ x, ¬ head x → occ x → x ∈ nodes) (hh : head h) :
    ∃ l, Path nil next h l ∧ l.Nodup ∧ l.length ≤ nodes.card := by
  classical
  have hmem : ∀ k, next^[k + 1] h ≠ nil → next^[k + 1] h ∈ nodes := by
    intro k hne
    rw [Function.iterate_succ_apply'] at hne ⊢
    exact hnodes _ (H _ hne).1 (H _ hne).2.1
  have hinj : ∀ n, (∀ k < n, next^[k + 1] h ≠ nil) → ∀ i < n, ∀ j < n,
      next^[i + 1] h = next^[j + 1] h → i = j := by
    intro n hne i hi j hj he
    by_contra hij
    rcases Nat.lt_or_gt_of_ne hij with hlt | hlt
    · exact H.iterate_ne hh (Nat.succ_lt_succ hlt) (fun k hk => hne k (by omega)) he
    · exact H.iterate_ne hh (Nat.succ_lt_succ hlt) (fun k hk => hne k (by omega)) he.symm
  have hcard : ∀ n, (∀ k < n, next^[k + 1] h ≠ nil) → n ≤ nodes.card := by
    intro n hne
    rw [← Finset.card_range n]
    refine Finset.card_le_card_of_injOn (fun k => next^[k + 1] h) (fun k hk => ?_) ?_
    · exact hmem k (hne k (Finset.mem_range.1 hk))
    · intro i hi j hj
      exact hinj n hne i (by simpa using hi) j (by simpa using hj)
  have hend : ∃ n, next^[n + 1] h = nil := by
    by_contra hnone
    push Not at hnone
    have := hcard (nodes.card + 1) fun k _ => hnone k
    omega
  have hmin : ∀ k < Nat.find hend, next^[k + 1] h ≠ nil := fun k hk => Nat.find_min hend hk
  refine ⟨_, path_iterate hmin (Nat.find_spec hend), ?_, ?_⟩
  · refine (List.nodup_range).map_on fun i hi j hj => ?_
    exact hinj _ hmin i (List.mem_range.1 hi) j (List.mem_range.1 hj)
  · simpa using hcard _ hmin

theorem back {l : List α} (hp : Path nil next h l) : Back prev h l := by
  induction l generalizing h with
  | nil => trivial
  | cons y ys ih =>
    obtain ⟨rfl, hne, hrest⟩ := hp
    exact ⟨(H h hne).2.2, ih hrest⟩

end

/-- Walking from a head meets its chain, with fuel for all the nodes there are. -/
theorem path_chainFrom [DecidableEq α] (H : Threaded nil next prev head occ) (nodes : Finset α)
    (hnodes : ∀ x, ¬ head x → occ x → x ∈ nodes) {fuel : Nat} (hf : nodes.card ≤ fuel)
    (hh : head h) :
    Path nil next h (chainFrom nil next fuel h) ∧ (chainFrom nil next fuel h).Nodup := by
  obtain ⟨l, hp, hnd, hlen⟩ := H.exists_path nodes hnodes hh
  rw [hp.chainFrom_eq (hlen.trans hf)]
  exact ⟨hp, hnd⟩

theorem mem_path (H : Threaded nil next prev head occ) {h x : α} {l : List α}
    (hp : Path nil next h l) (hx : x ∈ l) : ¬ head x ∧ occ x := by
  induction l generalizing h with
  | nil => simp at hx
  | cons y ys ih =>
    obtain ⟨rfl, hne, hrest⟩ := hp
    rcases List.mem_cons.1 hx with rfl | hx
    · exact ⟨(H h hne).1, (H h hne).2.1⟩
    · exact ih hrest hx

end Threaded

namespace Anchored

theorem owner_of_mem (A : Anchored next prev head occ age owner)
    (H : Threaded nil next prev head occ) {h x : α} {l : List α} (hp : Path nil next h l)
    (hx : x ∈ l) : owner x = owner h := by
  induction l generalizing h with
  | nil => simp at hx
  | cons y ys ih =>
    obtain ⟨rfl, hne, hrest⟩ := hp
    obtain ⟨hnh, hocc, hprev⟩ := H h hne
    have hy : owner (next h) = owner h := by rw [A.owner_eq _ hnh hocc, hprev]
    rcases List.mem_cons.1 hx with rfl | hx
    · exact hy
    · exact (ih hrest hx).trans hy

/-- The chain of a head holds exactly the occupied overflow nodes it owns. -/
theorem mem_iff (A : Anchored next prev head occ age owner)
    (H : Threaded nil next prev head occ) (hnil : head nil) {h x : α} (hh : head h) {l : List α}
    (hp : Path nil next h l) : x ∈ l ↔ ¬ head x ∧ occ x ∧ owner x = h := by
  constructor
  · intro hx
    obtain ⟨hnh, hocc⟩ := H.mem_path hp hx
    exact ⟨hnh, hocc, (A.owner_of_mem H hp hx).trans (A.owner_head h hh)⟩
  · rintro ⟨hnh, hocc, how⟩
    induction hn : age x using Nat.strong_induction_on generalizing x with
    | _ n ih =>
      have hnp := A.next_prev x hnh hocc
      have hne : next (prev x) ≠ nil := fun he => hnh (by rwa [← hnp, he])
      have how' : owner (prev x) = h := (A.owner_eq x hnh hocc).symm.trans how
      have hin : prev x ∈ h :: l := by
        by_cases hph : head (prev x)
        · rw [A.owner_head _ hph] at how'
          rw [how']
          exact List.mem_cons_self ..
        · refine List.mem_cons_of_mem _ (ih _ ?_ hph (A.occ_prev x hnh hocc) how' rfl)
          exact hn ▸ A.age_lt x hnh hocc hph
      have := hp.next_mem hin hne
      rwa [hnp] at this

/-- **A threaded and anchored table is chained.** -/
theorem chained (A : Anchored next prev head occ age owner)
    (H : Threaded nil next prev head occ) (hnil : head nil) {chain : α → List α}
    (hpath : ∀ h, head h → Path nil next h (chain h))
    (hnodup : ∀ h, head h → (chain h).Nodup) (hown : ∀ x, ¬ head x → occ x → head (owner x)) :
    Chained nil next prev head occ chain where
  path := hpath
  back h hh := H.back (hpath h hh)
  nodup := hnodup
  disjoint h h' x hh hh' hx hx' :=
    ((A.mem_iff H hnil hh (hpath h hh)).1 hx).2.2.symm.trans
      ((A.mem_iff H hnil hh' (hpath h' hh')).1 hx').2.2
  not_head h x hh hx := ((A.mem_iff H hnil hh (hpath h hh)).1 hx).1
  occ_iff x hx := by
    constructor
    · intro hocc
      have hh := hown x hx hocc
      exact ⟨owner x, hh, (A.mem_iff H hnil hh (hpath _ hh)).2 ⟨hx, hocc, rfl⟩⟩
    · rintro ⟨h, hh, hxh⟩
      exact ((A.mem_iff H hnil hh (hpath h hh)).1 hxh).2.1

/-- Every occupied overflow node is owned by a head. -/
theorem head_owner (A : Anchored next prev head occ age owner) {x : α} (hx : ¬ head x)
    (hocc : occ x) : head (owner x) := by
  induction hn : age x using Nat.strong_induction_on generalizing x with
  | _ n ih =>
    rw [A.owner_eq x hx hocc]
    by_cases hph : head (prev x)
    · rw [A.owner_head _ hph]
      exact hph
    · exact ih _ (hn ▸ A.age_lt x hx hocc hph) hph (A.occ_prev x hx hocc) rfl

/-- The chains that are found by walking are the chains of the table. -/
theorem chained_chainFrom [DecidableEq α] (A : Anchored next prev head occ age owner)
    (H : Threaded nil next prev head occ) (hnil : head nil) (nodes : Finset α)
    (hnodes : ∀ x, ¬ head x → occ x → x ∈ nodes) {fuel : Nat} (hf : nodes.card ≤ fuel) :
    Chained nil next prev head occ (chainFrom nil next fuel) :=
  A.chained H hnil (fun _ hh => (H.path_chainFrom nodes hnodes hf hh).1)
    (fun _ hh => (H.path_chainFrom nodes hnodes hf hh).2) fun _ hx hocc => A.head_owner hx hocc

end Anchored

/-! ## Updates -/

/-- Fill the free node `y`, which may also be linked behind a node. -/
theorem Threaded.insert (H : Threaded nil next prev head occ) {y : α} (hfree : head y ∨ ¬ occ y)
    (hnew : next' y = nil)
    (hnext : ∀ z, z ≠ y → next' z = next z ∨ (next' z = y ∧ ¬ head y ∧ prev' y = z))
    (hprev : ∀ z, z ≠ y → ¬ head z → prev' z = prev z) (hocc : ∀ z, occ z ∨ z = y → occ' z) :
    Threaded nil next' prev' head occ' := by
  intro q hq
  have hqy : q ≠ y := fun he => hq (he ▸ hnew)
  rcases hnext q hqy with heq | ⟨heq, hyh, hpy⟩
  · rw [heq] at hq ⊢
    obtain ⟨hnh, ho, hp⟩ := H q hq
    have hny : next q ≠ y := fun he => hfree.elim (he ▸ hnh) fun hf => hf (he ▸ ho)
    exact ⟨hnh, hocc _ (Or.inl ho), (hprev _ hny hnh).trans hp⟩
  · rw [heq]
    exact ⟨hyh, hocc _ (Or.inr rfl), hpy⟩

/-- Free the node `x`, to which no link remains; whoever takes over its `next` link becomes the
    predecessor of what that names. -/
theorem Threaded.unlink (H : Threaded nil next prev head occ) {x : α} (hx : next' x = nil)
    (hcut : ∀ z, z ≠ x → next' z ≠ x) (hnext : ∀ z, z ≠ x → next' z = next z ∨ next' z = nil ∨
      (next' z = next x ∧ prev' (next x) = z))
    (hprev : ∀ z, z ≠ x → z ≠ next x → ¬ head z → prev' z = prev z)
    (hocc : ∀ z, occ z → z ≠ x → occ' z) : Threaded nil next' prev' head occ' := by
  intro q hq
  have hqx : q ≠ x := fun he => hq (he ▸ hx)
  rcases hnext q hqx with heq | heq | ⟨heq, hpy⟩
  · have hcutq := hcut q hqx
    rw [heq] at hq hcutq ⊢
    obtain ⟨hnh, ho, hp⟩ := H q hq
    refine ⟨hnh, hocc _ ho hcutq, (hprev _ hcutq (fun he => ?_) hnh).trans hp⟩
    have hxn : next x ≠ nil := he ▸ hq
    exact hqx (hp.symm.trans ((congrArg prev he).trans (H x hxn).2.2))
  · exact absurd heq hq
  · have hcutq := hcut q hqx
    rw [heq] at hq hcutq ⊢
    exact ⟨(H x hq).1, hocc _ (H x hq).2.1 hcutq, hpy⟩

/-- Free the heads in `D`. -/
theorem Threaded.removeHeads (H : Threaded nil next prev head occ) {D : α → Prop}
    (hD : ∀ z, D z → head z) (hnextD : ∀ z, D z → next' z = nil)
    (hnext : ∀ z, ¬ D z → next' z = next z) (hprev : ∀ z, ¬ head z → prev' z = prev z)
    (hocc : ∀ z, occ z → ¬ D z → occ' z) : Threaded nil next' prev' head occ' := by
  intro q hq
  have hqD : ¬ D q := fun hd => hq (hnextD q hd)
  rw [hnext q hqD] at hq ⊢
  obtain ⟨hnh, ho, hp⟩ := H q hq
  exact ⟨hnh, hocc _ ho fun hd => hnh (hD _ hd), (hprev _ hnh).trans hp⟩

namespace Anchored

/-- Link the free node `y` behind `p`, the last node of its chain. -/
theorem insert [DecidableEq α] (A : Anchored next prev head occ age owner) (hnil : head nil)
    {y p : α} (hyh : ¬ head y) (hfree : ¬ occ y) (hp : occ p) (hlast : next p = nil)
    (hlink : next' p = y) (hback : prev' y = p) (hnext : ∀ z, z ≠ y → z ≠ p → next' z = next z)
    (hprev : ∀ z, z ≠ y → ¬ head z → prev' z = prev z) (hocc : ∀ z, occ' z ↔ occ z ∨ z = y) :
    Anchored next' prev' head occ' (update age y (age p + 1))
      (update owner y (owner p)) := by
  have hpy : p ≠ y := fun he => hfree (he ▸ hp)
  have hold : ∀ x, ¬ head x → occ x → x ≠ y ∧ prev x ≠ y ∧ prev x ≠ p := by
    refine fun x hx ho => ⟨fun he => hfree (he ▸ ho), fun he => ?_, fun he => ?_⟩
    · exact hfree (he ▸ A.occ_prev x hx ho)
    · have := A.next_prev x hx ho
      rw [he, hlast] at this
      exact hx (this ▸ hnil)
  constructor
  · intro x hx ho
    rcases (hocc x).1 ho with ho | rfl
    · rw [hprev x (hold x hx ho).1 hx]
      exact (hocc _).2 (Or.inl (A.occ_prev x hx ho))
    · rw [hback]
      exact (hocc _).2 (Or.inl hp)
  · intro x hx ho
    rcases (hocc x).1 ho with ho | rfl
    · obtain ⟨hxy, hpy, hpp⟩ := hold x hx ho
      rw [hprev x hxy hx, hnext _ hpy hpp]
      exact A.next_prev x hx ho
    · rw [hback, hlink]
  · intro x hx ho hph
    rcases (hocc x).1 ho with ho | rfl
    · obtain ⟨hxy, hpy, -⟩ := hold x hx ho
      rw [hprev x hxy hx] at hph ⊢
      rw [update_of_ne hxy, update_of_ne hpy]
      exact A.age_lt x hx ho hph
    · rw [hback, update_self, update_of_ne hpy]
      exact Nat.lt_succ_self _
  · intro x hx ho
    rcases (hocc x).1 ho with ho | rfl
    · obtain ⟨hxy, hpy, -⟩ := hold x hx ho
      rw [hprev x hxy hx, update_of_ne hxy, update_of_ne hpy]
      exact A.owner_eq x hx ho
    · rw [hback, update_self, update_of_ne hpy]
  · intro h hh
    have hhy : h ≠ y := fun he => hyh (by rw [← he]; exact hh)
    rw [update_of_ne hhy]
    exact A.owner_head h hh

/-- Fill the free head `y`. -/
theorem insertHead (A : Anchored next prev head occ age owner) {y : α} (hfree : ¬ occ y)
    (hnext : ∀ z, z ≠ y → next' z = next z) (hprev : ∀ z, ¬ head z → prev' z = prev z)
    (hyh : head y) (hocc : ∀ z, occ' z ↔ occ z ∨ z = y) :
    Anchored next' prev' head occ' age owner := by
  have hback : ∀ x, ¬ head x → occ' x → occ x := fun x hx ho =>
    ((hocc x).1 ho).resolve_right fun he => hx (by rw [he]; exact hyh)
  constructor
  · intro x hx ho
    rw [hprev x hx]
    exact (hocc _).2 (Or.inl (A.occ_prev x hx (hback x hx ho)))
  · intro x hx ho
    have hpy : prev x ≠ y := fun he => hfree (he ▸ A.occ_prev x hx (hback x hx ho))
    rw [hprev x hx, hnext _ hpy]
    exact A.next_prev x hx (hback x hx ho)
  · intro x hx ho hph
    rw [hprev x hx] at hph ⊢
    exact A.age_lt x hx (hback x hx ho) hph
  · intro x hx ho
    rw [hprev x hx]
    exact A.owner_eq x hx (hback x hx ho)
  · exact A.owner_head

/-- Free the overflow node `x`: its predecessor takes over its `next` link, and its successor, if it
    has one, its `prev` link. -/
theorem unlink (A : Anchored next prev head occ age owner)
    (H : Threaded nil next prev head occ) (hnil : head nil) {x : α} (hxh : ¬ head x) (hxo : occ x)
    (hby : next' (prev x) = next x) (hnext : ∀ z, z ≠ x → z ≠ prev x → next' z = next z)
    (hprevn : next x ≠ nil → prev' (next x) = prev x)
    (hprev : ∀ z, z ≠ x → z ≠ next x → ¬ head z → prev' z = prev z)
    (hocc : ∀ z, occ' z ↔ occ z ∧ z ≠ x) : Anchored next' prev' head occ' age owner := by
  have hpx : prev x ≠ x := by
    intro he
    by_cases hph : head (prev x)
    · exact hxh (he ▸ hph)
    · have := A.age_lt x hxh hxo hph
      rw [he] at this
      exact lt_irrefl _ this
  -- `x`'s successor now follows `x`'s predecessor; every other node keeps the one it had
  have hcase : ∀ z, ¬ head z → occ z → z ≠ x →
      (z = next x ∧ prev z = x ∧ prev' z = prev x) ∨
        (prev' z = prev z ∧ prev z ≠ x ∧ prev z ≠ prev x) := by
    intro z hz ho hzx
    by_cases he : z = next x
    · have hne : next x ≠ nil := fun hn => hz (by rw [he, hn]; exact hnil)
      exact Or.inl ⟨he, by rw [he, (H x hne).2.2], by rw [he, hprevn hne]⟩
    · refine Or.inr ⟨hprev z hzx he hz, fun hp => he ?_, fun hp => hzx ?_⟩
      · rw [← A.next_prev z hz ho, hp]
      · rw [← A.next_prev z hz ho, hp, A.next_prev x hxh hxo]
  constructor
  · intro z hz ho
    obtain ⟨ho, hzx⟩ := (hocc z).1 ho
    rcases hcase z hz ho hzx with ⟨-, -, hp⟩ | ⟨hp, hpz, -⟩
    · rw [hp]
      exact (hocc _).2 ⟨A.occ_prev x hxh hxo, hpx⟩
    · rw [hp]
      exact (hocc _).2 ⟨A.occ_prev z hz ho, hpz⟩
  · intro z hz ho
    obtain ⟨ho, hzx⟩ := (hocc z).1 ho
    rcases hcase z hz ho hzx with ⟨he, -, hp⟩ | ⟨hp, hpz, hpp⟩
    · rw [hp, hby, he]
    · rw [hp, hnext _ hpz hpp]
      exact A.next_prev z hz ho
  · intro z hz ho hph
    obtain ⟨ho, hzx⟩ := (hocc z).1 ho
    rcases hcase z hz ho hzx with ⟨-, hpz, hp⟩ | ⟨hp, -, -⟩
    · rw [hp] at hph ⊢
      have hzx' := A.age_lt z hz ho (by rw [hpz]; exact hxh)
      rw [hpz] at hzx'
      exact (A.age_lt x hxh hxo hph).trans hzx'
    · rw [hp] at hph ⊢
      exact A.age_lt z hz ho hph
  · intro z hz ho
    obtain ⟨ho, hzx⟩ := (hocc z).1 ho
    rcases hcase z hz ho hzx with ⟨-, hpz, hp⟩ | ⟨hp, -, -⟩
    · rw [hp, A.owner_eq z hz ho, hpz, A.owner_eq x hxh hxo]
    · rw [hp]
      exact A.owner_eq z hz ho
  · exact A.owner_head

/-- Free the heads in `D`, whose chains are empty. -/
theorem removeHeads (A : Anchored next prev head occ age owner) (hnil : head nil)
    {D : α → Prop} (hlast : ∀ z, D z → next z = nil) (hnext : ∀ z, ¬ D z → next' z = next z)
    (hprev : ∀ z, ¬ head z → prev' z = prev z) (hocc : ∀ z, occ' z ↔ occ z ∧ ¬ D z) :
    Anchored next' prev' head occ' age owner := by
  have hpx : ∀ z, ¬ head z → occ z → ¬ D (prev z) := by
    intro z hz ho hd
    have := A.next_prev z hz ho
    rw [hlast _ hd] at this
    exact hz (this ▸ hnil)
  constructor
  · intro z hz ho
    have ho := ((hocc z).1 ho).1
    rw [hprev z hz]
    exact (hocc _).2 ⟨A.occ_prev z hz ho, hpx z hz ho⟩
  · intro z hz ho
    have ho := ((hocc z).1 ho).1
    rw [hprev z hz, hnext _ (hpx z hz ho)]
    exact A.next_prev z hz ho
  · intro z hz ho hph
    rw [hprev z hz] at hph ⊢
    exact A.age_lt z hz ((hocc z).1 ho).1 hph
  · intro z hz ho
    rw [hprev z hz]
    exact A.owner_eq z hz ((hocc z).1 ho).1
  · exact A.owner_head

end Anchored

end Nx508j.Lib
