import Mathlib.Data.List.DropRight
import Nx508j.Lib.CString
import Nx508j.Loc.LocCfg

/-! # Trimming a string in place

`loc_util_trim_space` goes through a string once. From the first character on that is no space, it
moves what it reads to the front of the string, and it remembers the place behind the last such
character it moved. A null byte ends the string there. A string of spaces has no such place, and
stays as it is. -/

namespace Nx508j.Loc.TrimSpace

open Nx508j.Lib Function

/-! ## The function -/

/-- `isspace` -/
def isspace (c : UInt8) : Bool := Loc.isspace (Char.ofUInt8 c)

/-- The pointers of `loc_util_trim_space`. Null pointers are `none`. -/
structure Pointers where
  scan_ptr : Nat
  write_ptr : Nat
  first_nonspace : Option Nat
  last_nonspace : Option Nat

/-- The body of the loop. -/
def trimRound (mem : Region UInt8) (p : Pointers) : Except Fault (Region UInt8 × Pointers) := do
  let c ← mem.read p.scan_ptr
  let first_nonspace :=
    if !isspace c && p.first_nonspace.isNone then some p.scan_ptr else p.first_nonspace
  if first_nonspace.isSome then
    let mem ← mem.write p.write_ptr c
    let write_ptr := p.write_ptr + 1
    -- the character is read again, after the write
    let c ← mem.read p.scan_ptr
    let last_nonspace := if !isspace c then some write_ptr else p.last_nonspace
    .ok (mem, ⟨p.scan_ptr + 1, write_ptr, first_nonspace, last_nonspace⟩)
  else .ok (mem, { p with scan_ptr := p.scan_ptr + 1 })

/-- The loop, over as many bytes as the memory still has. -/
def trimLoop : Nat → Region UInt8 → Pointers → Except Fault (Region UInt8 × Pointers)
  | 0, _, _ => .error .outOfBounds
  | n + 1, mem, p => do
    let c ← mem.read p.scan_ptr
    if c = 0 then .ok (mem, p)
    else
      let r ← trimRound mem p
      trimLoop n r.1 r.2

def loc_util_trim_space (mem : Region UInt8) : Option Nat → Except Fault (Region UInt8)
  | none => .ok mem
  | some org_string => do
    let r ← trimLoop (mem.size - org_string) mem ⟨org_string, org_string, none, none⟩
    match r.2.last_nonspace with
    | some last_nonspace => r.1.write last_nonspace 0
    | none => .ok r.1

/-! ## What it is for -/

/-- What the loop moves to the front. -/
def shifted (s : List UInt8) : List UInt8 := s.dropWhile isspace

/-- The string without its leading and its trailing spaces. -/
def trimmed (s : List UInt8) : List UInt8 := (shifted s).rdropWhile isspace

/-- The memory as it looks from an address on. -/
def suffixOf (mem : Region UInt8) (a : Nat) : Region UInt8 :=
  ⟨mem.size - a, fun i => mem.get (a + i)⟩

theorem suffixOf_set (mem : Region UInt8) (a i : Nat) (c : UInt8) :
    suffixOf (mem.set (a + i) c) a = (suffixOf mem a).set i c := by
  refine congrArg (Region.mk _) (funext fun j => ?_)
  simp only [suffixOf, Region.set, update_apply, Nat.add_left_cancel_iff]

theorem cString_suffixOf {mem : Region UInt8} (s : List UInt8) {t : List UInt8}
    (h : CString mem (s ++ t)) : CString (suffixOf mem s.length) t where
  fits := by
    have hfits := h.fits
    rw [List.length_append] at hfits
    exact Nat.lt_sub_iff_add_lt'.2 hfits
  filled := h.get_append
  nul := by
    have hnul := h.nul
    rw [List.length_append] at hnul
    exact hnul
  nonzero c hc := h.nonzero c (List.mem_append_right _ hc)

/-- The string at this address is replaced by the trimmed one, and no byte outside of it changes.
    Where the memory ends with the string, to go past it is a fault. -/
def TrimsInPlace (mem : Region UInt8) (a : Nat) (s : List UInt8) : Prop :=
  ∃ mem', loc_util_trim_space mem (some a) = .ok mem' ∧ mem'.size = mem.size ∧
    CString (suffixOf mem' a) (trimmed s) ∧
    ∀ i, i < a ∨ a + s.length ≤ i → mem'.get i = mem.get i

theorem shifted_snoc (s : List UInt8) (c : UInt8) :
    shifted (s ++ [c]) = if shifted s = [] ∧ isspace c = true then [] else shifted s ++ [c] := by
  unfold shifted
  rw [List.dropWhile_append]
  cases s.dropWhile isspace with
  | nil => cases hc : isspace c <;> simp [hc]
  | cons d l => simp

theorem shifted_eq_nil_iff {s : List UInt8} : shifted s = [] ↔ ∀ c ∈ s, isspace c = true :=
  List.dropWhile_eq_nil_iff

theorem length_shifted_le (s : List UInt8) : (shifted s).length ≤ s.length :=
  (List.dropWhile_sublist _).length_le

theorem length_trimmed_le (s : List UInt8) : (trimmed s).length ≤ (shifted s).length :=
  (List.rdropWhile_prefix ..).length_le

theorem not_isspace_of_head? {l : List UInt8} {c : UInt8}
    (h : (l.dropWhile isspace).head? = some c) : isspace c = false := by
  have hnot := List.head?_dropWhile_not isspace l
  rw [h] at hnot
  exact hnot

theorem trimmed_spec (s : List UInt8) :
    ∃ l r, s = l ++ trimmed s ++ r ∧ (∀ c ∈ l ++ r, isspace c = true) ∧
      (∀ c, (trimmed s).head? = some c → isspace c = false) ∧
      ∀ c, (trimmed s).getLast? = some c → isspace c = false := by
  have hsplit : trimmed s ++ (shifted s).rtakeWhile isspace = shifted s :=
    List.rdropWhile_append_rtakeWhile ..
  refine ⟨s.takeWhile isspace, (shifted s).rtakeWhile isspace, ?_, fun c hc => ?_, fun c hc => ?_,
    fun c hc => ?_⟩
  · rw [List.append_assoc, hsplit]
    exact List.takeWhile_append_dropWhile.symm
  · rcases List.mem_append.1 hc with hc | hc
    · exact List.mem_takeWhile_imp hc
    · exact List.mem_rtakeWhile_imp hc
  · have hhead : (shifted s).head? = some c := by
      rw [← hsplit, List.head?_append, hc]
      rfl
    exact not_isspace_of_head? hhead
  · rw [trimmed, List.rdropWhile, List.getLast?_reverse] at hc
    exact not_isspace_of_head? hc

/-! ## One round -/

/-- The loop has read this much of the string. -/
structure Shifted (mem₀ : Region UInt8) (a : Nat) (s : List UInt8) (mem : Region UInt8)
    (p : Pointers) : Prop where
  size : mem.size = mem₀.size
  scan : p.scan_ptr = a + s.length
  write : p.write_ptr = a + (shifted s).length
  first : p.first_nonspace = none ↔ shifted s = []
  last : p.last_nonspace = if shifted s = [] then none else some (a + (trimmed s).length)
  filled : Filled (suffixOf mem a) (shifted s)
  frame : ∀ i, i < a ∨ p.write_ptr ≤ i → mem.get i = mem₀.get i

namespace Shifted

variable {mem₀ mem : Region UInt8} {a : Nat} {s : List UInt8} {p : Pointers}

theorem init (mem₀ : Region UInt8) (a : Nat) : Shifted mem₀ a [] mem₀ ⟨a, a, none, none⟩ where
  size := rfl
  scan := rfl
  write := rfl
  first := iff_of_true rfl rfl
  last := rfl
  filled := Filled.nil _
  frame _ _ := rfl

theorem get_scan (h : Shifted mem₀ a s mem p) : mem.get p.scan_ptr = mem₀.get (a + s.length) := by
  have hle := length_shifted_le s
  rw [← h.scan]
  exact h.frame _ (.inr (by rw [h.write, h.scan]; omega))

theorem read_scan (h : Shifted mem₀ a s mem p) (hfits : a + s.length < mem₀.size) :
    mem.read p.scan_ptr = .ok (mem₀.get (a + s.length)) := by
  rw [Region.read_ok (by rw [h.scan, h.size]; exact hfits), h.get_scan]

theorem space (h : Shifted mem₀ a s mem p) (hs : shifted s = []) {c : UInt8}
    (hc : isspace c = true) :
    Shifted mem₀ a (s ++ [c]) mem { p with scan_ptr := p.scan_ptr + 1 } := by
  have hnil : shifted (s ++ [c]) = [] := by rw [shifted_snoc, if_pos ⟨hs, hc⟩]
  refine ⟨h.size, ?_, ?_, ?_, ?_, ?_, h.frame⟩
  · simp only [h.scan, List.length_append, List.length_singleton, Nat.add_assoc]
  · simp only [h.write, hs, hnil]
  · exact h.first.trans (iff_of_true hs hnil)
  · simp only [h.last, hs, hnil, if_true]
  · rw [hnil]
    exact Filled.nil _

theorem move (h : Shifted mem₀ a s mem p) {c : UInt8} (hc : ¬ (shifted s = [] ∧ isspace c = true))
    (first : Option Nat) (hfirst : first ≠ none) :
    Shifted mem₀ a (s ++ [c]) (mem.set p.write_ptr c) ⟨p.scan_ptr + 1, p.write_ptr + 1, first,
      if !isspace c then some (p.write_ptr + 1) else p.last_nonspace⟩ := by
  have hsnoc : shifted (s ++ [c]) = shifted s ++ [c] := by rw [shifted_snoc, if_neg hc]
  have hne : shifted (s ++ [c]) ≠ [] := by simp [hsnoc]
  refine ⟨h.size, ?_, ?_, iff_of_false hfirst hne, ?_, ?_, fun i hi => ?_⟩
  · simp only [h.scan, List.length_append, List.length_singleton, Nat.add_assoc]
  · simp only [h.write, hsnoc, List.length_append, List.length_singleton, Nat.add_assoc]
  · rw [if_neg hne, trimmed, hsnoc, List.rdropWhile_concat]
    cases hspace : isspace c with
    | false => simp [h.write, Nat.add_assoc]
    | true =>
      have hs : shifted s ≠ [] := fun hs => hc ⟨hs, hspace⟩
      simp [h.last, hs, trimmed]
  · have hset : suffixOf (mem.set p.write_ptr c) a = (suffixOf mem a).set (shifted s).length c := by
      refine congrArg (Region.mk _) (funext fun i => ?_)
      simp only [suffixOf, Region.set, update_apply, h.write, Nat.add_left_cancel_iff]
    rw [hsnoc, hset]
    exact h.filled.snoc c
  · dsimp only at hi
    have hle := h.write
    rw [Region.get_set, if_neg (by omega)]
    exact h.frame i (by omega)

theorem trimRound_ok (h : Shifted mem₀ a s mem p) (hfits : a + s.length < mem₀.size) :
    ∃ r, trimRound mem p = .ok r ∧
      Shifted mem₀ a (s ++ [mem₀.get (a + s.length)]) r.1 r.2 := by
  have hle := length_shifted_le s
  have hwrite : p.write_ptr < mem.size := by rw [h.write, h.size]; omega
  have hread := h.read_scan hfits
  generalize mem₀.get (a + s.length) = c at hread
  obtain ⟨hscan, hget⟩ := Region.lt_of_read hread
  have hagain : (mem.set p.write_ptr c).read p.scan_ptr = .ok c := by
    rw [Region.read_ok (by exact hscan), Region.get_set, ← hget, ite_self]
  unfold trimRound
  rw [hread, ok_bind]
  by_cases hskip : shifted s = [] ∧ isspace c = true
  · obtain ⟨hs, hc⟩ := hskip
    have hfirst : p.first_nonspace = none := h.first.2 hs
    simp only [hfirst, hc, Bool.not_true, Bool.false_and, Bool.false_eq_true, if_false,
      Option.isSome_none]
    refine ⟨_, rfl, ?_⟩
    have hspace := h.space hs hc
    rwa [hfirst] at hspace
  · have hsome : (if !isspace c && p.first_nonspace.isNone then some p.scan_ptr
        else p.first_nonspace) ≠ none := by
      intro hnone
      cases hfirst : p.first_nonspace with
      | some f => simp [hfirst] at hnone
      | none => exact hskip ⟨h.first.1 hfirst, by simpa [hfirst] using hnone⟩
    have hmove := h.move hskip _ hsome
    refine ⟨(_, _), ?_, hmove⟩
    rw [if_pos (Option.isSome_iff_ne_none.2 hsome), Region.write_ok hwrite, ok_bind, hagain,
      ok_bind]
    rfl

end Shifted

/-! ## The whole string -/

/-- What the function leaves of a string. -/
def leftOf (s : List UInt8) : List UInt8 := if shifted s = [] then s else trimmed s

theorem trimLoop_ok {mem₀ mem : Region UInt8} {a n : Nat} {s t : List UInt8} {p : Pointers}
    (h : Shifted mem₀ a s mem p) (hs : CString (suffixOf mem₀ a) (s ++ t)) (hn : t.length < n) :
    ∃ r, trimLoop n mem p = .ok r ∧ Shifted mem₀ a (s ++ t) r.1 r.2 := by
  induction t generalizing s mem p n with
  | nil =>
    obtain ⟨n, rfl⟩ := Nat.exists_eq_add_one_of_ne_zero (Nat.ne_of_gt hn)
    rw [List.append_nil] at hs ⊢
    have hnul : mem₀.get (a + s.length) = 0 := hs.nul
    have hfits : s.length < mem₀.size - a := hs.fits
    refine ⟨(mem, p), ?_, h⟩
    rw [trimLoop, h.read_scan (by omega), ok_bind, if_pos hnul]
  | cons c t ih =>
    obtain ⟨n, rfl⟩ := Nat.exists_eq_add_one_of_ne_zero (Nat.ne_zero_of_lt hn)
    have hget : mem₀.get (a + s.length) = c := hs.get_length
    have hc : c ≠ 0 := hs.nonzero c (List.mem_append_right _ List.mem_cons_self)
    have hfits : (s ++ c :: t).length < mem₀.size - a := hs.fits
    rw [List.length_append] at hfits
    obtain ⟨r, hr, hround⟩ := h.trimRound_ok (by omega)
    rw [List.append_cons] at hs ⊢
    rw [hget] at hround
    obtain ⟨r', hr', hrest⟩ := ih hround hs (Nat.lt_of_succ_lt_succ hn)
    refine ⟨r', ?_, hrest⟩
    rw [trimLoop, h.read_scan (by omega), ok_bind, hget, if_neg hc, hr, ok_bind]
    exact hr'

theorem loc_util_trim_space_ok {mem : Region UInt8} {a : Nat} {s : List UInt8}
    (h : CString (suffixOf mem a) s) :
    ∃ mem', loc_util_trim_space mem (some a) = .ok mem' ∧ mem'.size = mem.size ∧
      CString (suffixOf mem' a) (leftOf s) ∧
      ∀ i, i < a ∨ a + s.length ≤ i → mem'.get i = mem.get i := by
  have hfits : s.length < mem.size - a := h.fits
  obtain ⟨r, hr, hshift⟩ := trimLoop_ok (Shifted.init mem a) h hfits
  rw [List.nil_append] at hshift
  unfold loc_util_trim_space leftOf
  dsimp only
  rw [hr, ok_bind, hshift.last]
  by_cases hs : shifted s = []
  · -- nothing was moved, and no null byte is written
    have hmem : r.1 = mem := by
      have hwrite := hshift.write
      rw [hs] at hwrite
      have hget : r.1.get = mem.get := funext fun i =>
        hshift.frame i (by rw [hwrite]; exact Nat.lt_or_ge i a)
      exact congr (congrArg Region.mk hshift.size) hget
    rw [if_pos hs, if_pos hs]
    exact ⟨r.1, rfl, hshift.size, by rw [hmem]; exact h, fun i _ => by rw [hmem]⟩
  · have hle := length_shifted_le s
    have htrim := length_trimmed_le s
    rw [if_neg hs, if_neg hs]
    refine ⟨_, Region.write_ok (by rw [hshift.size]; omega) 0, hshift.size, ?_, fun i hi => ?_⟩
    · rw [suffixOf_set]
      have hfilled : Filled (suffixOf r.1 a) (trimmed s ++ (shifted s).rtakeWhile isspace) := by
        rw [trimmed, List.rdropWhile_append_rtakeWhile]
        exact hshift.filled
      refine .cut hfilled ?_ fun c hc => h.nonzero c ?_
      · rw [suffixOf, hshift.size]
        exact Nat.lt_of_le_of_lt (Nat.le_trans htrim hle) hfits
      · obtain ⟨l, r, hsplit, -⟩ := trimmed_spec s
        rw [hsplit]
        exact List.mem_append_left _ (List.mem_append_right _ hc)
    · rw [Region.get_set]
      split
      · next hi' =>
        have hlen : s.length = (trimmed s).length := by omega
        have hnul : mem.get (a + s.length) = 0 := h.nul
        rw [hi', ← hlen, hnul]
      · exact hshift.frame i (by rw [hshift.write]; omega)

theorem leftOf_eq (s : List UInt8) :
    (leftOf s).map Char.ofUInt8 = Loc.loc_util_trim_space (s.map Char.ofUInt8) := by
  have hdrop : (s.map Char.ofUInt8).dropWhile Loc.isspace = (shifted s).map Char.ofUInt8 :=
    List.dropWhile_map
  unfold leftOf Loc.loc_util_trim_space trimmed
  rw [hdrop]
  cases shifted s with
  | nil => rfl
  | cons c l =>
    have hback : ((c :: l).map Char.ofUInt8).reverse.dropWhile Loc.isspace =
        ((c :: l).reverse.dropWhile isspace).map Char.ofUInt8 := by
      rw [← List.map_reverse]
      exact List.dropWhile_map
    rw [if_neg (List.cons_ne_nil c l), List.rdropWhile, List.map_reverse, ← hback]
    rfl

/-- A string is trimmed unless it is one of spaces only that is not empty. -/
theorem trims_in_place_iff {mem : Region UInt8} {a : Nat} {s : List UInt8}
    (h : CString (suffixOf mem a) s) :
    TrimsInPlace mem a s ↔ s = [] ∨ ∃ c ∈ s, isspace c = false := by
  obtain ⟨mem', hmem', hsize, hleft, hframe⟩ := loc_util_trim_space_ok h
  have htrims : TrimsInPlace mem a s ↔ leftOf s = trimmed s := by
    constructor
    · rintro ⟨mem'', hmem'', -, htrim, -⟩
      rw [hmem', Except.ok.injEq] at hmem''
      exact hleft.unique (hmem'' ▸ htrim)
    · intro heq
      exact ⟨mem', hmem', hsize, heq ▸ hleft, hframe⟩
  rw [htrims]
  constructor
  · intro heq
    by_cases hs : shifted s = []
    · left
      rw [leftOf, if_pos hs, trimmed, hs] at heq
      exact heq
    · right
      by_contra hnone
      push Not at hnone
      exact hs (shifted_eq_nil_iff.2 fun c hc => by simpa using hnone c hc)
  · rintro (rfl | ⟨c, hc, hspace⟩)
    · rfl
    · have hs : shifted s ≠ [] := fun hs => by
        rw [shifted_eq_nil_iff.1 hs c hc] at hspace
        cases hspace
      rw [leftOf, if_neg hs]

/-- Spaces around two words. -/
theorem trims_in_place_words : TrimsInPlace (.ofString 9 [45, 32, 65, 32, 66, 9]) 1
    [32, 65, 32, 66, 9] :=
  (trims_in_place_iff (cString_suffixOf [45] (.ofString (by decide) (by simp)))).2
    (.inr ⟨65, by decide, by decide⟩)

/-- A space alone stays. -/
theorem not_trims_space : ¬ TrimsInPlace (.ofString 2 [32]) 0 [32] := by
  rintro ⟨mem', hmem', -, htrim, -⟩
  have hsame : loc_util_trim_space (.ofString 2 [32]) (some 0) = .ok (.ofString 2 [32]) := rfl
  rw [hsame, Except.ok.injEq] at hmem'
  subst hmem'
  exact absurd htrim.nul (by decide)

end Nx508j.Loc.TrimSpace
