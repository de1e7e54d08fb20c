import Mathlib.Data.List.TakeWhile

/-! # Tokens and lines

A reader takes a piece from the front of a text and leaves the rest. What it yields in the end is
the list of all pieces: the parts between delimiters for `strtok_r`, the lines for `fgets`. -/

namespace Nx508j.Lib

variable {α : Type}

/-- Taking piece after piece yields this list. -/
inductive Yields (next : List α → Option (List α × List α)) : List α → List (List α) → Prop
  | done {s : List α} (h : next s = none) : Yields next s []
  | piece {s t r : List α} {ts : List (List α)} (h : next s = some (t, r))
      (hr : Yields next r ts) : Yields next s (t :: ts)

variable [DecidableEq α]

/-! ## Tokens -/

/-- The next token, and what is behind its delimiter. -/
def strtok_r (d : α) (s : List α) : Option (List α × List α) :=
  match s.dropWhile (· == d) with
  | [] => none
  | c :: s => some ((c :: s).takeWhile (· != d), ((c :: s).dropWhile (· != d)).drop 1)

/-- The parts between delimiters that are not empty. -/
def tokens (d : α) (s : List α) : List (List α) := (s.splitOn d).filter (· ≠ [])

variable {d c : α} {s t r : List α}

theorem tokens_nil : tokens d [] = [] := by simp [tokens, List.splitOn]

theorem tokens_cons_self : tokens d (d :: s) = tokens d s := by
  simp [tokens, List.splitOn_cons_eq_if_modifyHead]

theorem tokens_dropWhile : tokens d (s.dropWhile (· == d)) = tokens d s := by
  induction s with
  | nil => rfl
  | cons c s ih =>
    by_cases hc : c = d
    · subst hc
      rw [List.dropWhile_cons_of_pos (by simp), ih, tokens_cons_self]
    · rw [List.dropWhile_cons_of_neg (by simpa using hc)]

/-- A part without delimiters, then the rest. -/
theorem tokens_append (ht : d ∉ t) (hne : t ≠ []) : tokens d (t ++ d :: s) = t :: tokens d s := by
  rw [tokens, List.splitOn_append_cons_self_of_not_mem ht, List.filter_cons_of_pos (by simpa)]
  rfl

theorem tokens_of_not_mem (ht : d ∉ t) (hne : t ≠ []) : tokens d t = [t] := by
  rw [tokens, List.splitOn_eq_singleton ht, List.filter_cons_of_pos (by simpa)]
  rfl

theorem tokens_of_strtok_r_eq_none (h : strtok_r d s = none) : tokens d s = [] := by
  rw [← tokens_dropWhile]
  rw [strtok_r] at h
  split at h
  · next hnil => rw [hnil, tokens_nil]
  · cases h

theorem tokens_of_strtok_r (h : strtok_r d s = some (t, r)) :
    tokens d s = t :: tokens d r ∧ r.length < s.length := by
  rw [← tokens_dropWhile]
  have hle : (s.dropWhile (· == d)).length ≤ s.length := List.length_dropWhile_le ..
  have hhead := List.head?_dropWhile_not (· == d) s
  rw [strtok_r] at h
  split at h
  · cases h
  · next c s' hs' =>
    rw [hs'] at hle hhead ⊢
    have hc : c ≠ d := by simpa using hhead
    cases h
    have hne : (c :: s').takeWhile (· != d) ≠ [] := by
      rw [List.takeWhile_cons_of_pos (by simpa using hc)]
      exact List.cons_ne_nil _ _
    have hnot : d ∉ (c :: s').takeWhile (· != d) := fun hmem => by
      simpa using List.mem_takeWhile_imp hmem
    have happend := List.takeWhile_append_dropWhile (p := (· != d)) (l := c :: s')
    cases hrest : (c :: s').dropWhile (· != d) with
    | nil =>
      rw [hrest, List.append_nil] at happend
      rw [happend] at hne hnot ⊢
      refine ⟨?_, ?_⟩
      · rw [tokens_of_not_mem hnot hne, List.drop_nil, tokens_nil]
      · rw [List.drop_nil]
        exact Nat.lt_of_lt_of_le (Nat.succ_pos _) hle
    | cons e r =>
      have he := List.head?_dropWhile_not (· != d) (c :: s')
      rw [hrest] at he happend
      obtain rfl : e = d := by simpa using he
      rw [List.drop_succ_cons, List.drop_zero]
      refine ⟨?_, ?_⟩
      · calc tokens e (c :: s')
            = tokens e ((c :: s').takeWhile (· != e) ++ e :: r) := by rw [happend]
          _ = _ := tokens_append hnot hne
      · have hlength := congrArg List.length happend
        rw [List.length_append, List.length_cons] at hlength
        omega

/-- The tokens of a text are those between its delimiters. -/
theorem yields_strtok_r (d : α) (s : List α) : Yields (strtok_r d) s (tokens d s) := by
  induction hn : s.length using Nat.strongRecOn generalizing s with
  | ind n ih =>
    cases h : strtok_r d s with
    | none =>
      rw [tokens_of_strtok_r_eq_none h]
      exact .done h
    | some p =>
      obtain ⟨htokens, hlt⟩ := tokens_of_strtok_r h
      rw [htokens]
      exact .piece h (ih p.2.length (hn ▸ hlt) p.2 rfl)

theorem length_tokens_le (d : α) (s : List α) : (tokens d s).length ≤ s.length := by
  induction hn : s.length using Nat.strongRecOn generalizing s with
  | ind n ih =>
    cases h : strtok_r d s with
    | none =>
      rw [tokens_of_strtok_r_eq_none h]
      exact Nat.zero_le _
    | some p =>
      obtain ⟨htokens, hlt⟩ := tokens_of_strtok_r h
      have hle := ih p.2.length (hn ▸ hlt) p.2 rfl
      rw [htokens, List.length_cons]
      omega

/-! ## Lines -/

/-- At most `n` elements, up to the first newline. -/
def takeLine (nl : α) : Nat → List α → List α × List α
  | 0, s => ([], s)
  | _ + 1, [] => ([], [])
  | n + 1, c :: s =>
    if c = nl then ([c], s)
    else
      let (t, r) := takeLine nl n s
      (c :: t, r)

/-- `fgets` with a buffer of `n` bytes, one of them for the null byte. -/
def fgets (nl : α) (n : Nat) (s : List α) : Option (List α × List α) :=
  if s = [] then none else some (takeLine nl (n - 1) s)

/-- The lines of a text, with their newlines. -/
def fileLines (nl : α) : List α → List (List α)
  | [] => []
  | c :: s =>
    if c = nl then [c] :: fileLines nl s
    else
      match fileLines nl s with
      | [] => [[c]]
      | t :: ts => (c :: t) :: ts

theorem fileLines_ne_nil {nl : α} (hs : s ≠ []) : fileLines nl s ≠ [] := by
  cases s with
  | nil => exact absurd rfl hs
  | cons c s =>
    rw [fileLines]
    split
    · exact List.cons_ne_nil _ _
    · split <;> exact List.cons_ne_nil _ _

/-- A line that is short enough is taken whole. -/
theorem takeLine_of_fileLines {nl : α} {ts : List (List α)} (n : Nat)
    (h : fileLines nl s = t :: ts) (hn : t.length ≤ n) :
    (takeLine nl n s).1 = t ∧ fileLines nl (takeLine nl n s).2 = ts ∧
      (takeLine nl n s).2.length < s.length := by
  induction s generalizing n t ts with
  | nil => simp [fileLines] at h
  | cons c s ih =>
    rw [fileLines] at h
    by_cases hc : c = nl
    · rw [if_pos hc] at h
      cases h
      obtain ⟨n, rfl⟩ : ∃ i, n = i + 1 := Nat.exists_eq_succ_of_ne_zero (by
        rw [List.length_singleton] at hn
        omega)
      rw [takeLine, if_pos hc]
      exact ⟨rfl, rfl, Nat.lt_succ_self _⟩
    · rw [if_neg hc] at h
      cases hlines : fileLines nl s with
      | nil =>
        rw [hlines] at h
        cases h
        obtain rfl : s = [] := by
          by_contra hne
          exact fileLines_ne_nil hne hlines
        obtain ⟨n, rfl⟩ : ∃ i, n = i + 1 := Nat.exists_eq_succ_of_ne_zero (by
          rw [List.length_singleton] at hn
          omega)
        have hend : takeLine nl n ([] : List α) = ([], []) := by cases n <;> rfl
        rw [takeLine, if_neg hc, hend]
        exact ⟨rfl, rfl, Nat.succ_pos _⟩
      | cons t' ts' =>
        rw [hlines] at h
        cases h
        rw [List.length_cons] at hn
        obtain ⟨n, rfl⟩ : ∃ i, n = i + 1 := Nat.exists_eq_succ_of_ne_zero (by omega)
        obtain ⟨htake, hrest, hlt⟩ := ih n hlines (Nat.le_of_succ_le_succ hn)
        rw [takeLine, if_neg hc]
        exact ⟨congrArg (c :: ·) htake, hrest, Nat.lt_succ_of_lt hlt⟩

/-- A text whose lines are short enough is read line by line. -/
theorem yields_fgets (nl : α) (n : Nat) (s : List α) (h : ∀ t ∈ fileLines nl s, t.length < n) :
    Yields (fgets nl n) s (fileLines nl s) := by
  induction hk : s.length using Nat.strongRecOn generalizing s with
  | ind k ih =>
    cases hlines : fileLines nl s with
    | nil =>
      have hs : s = [] := by
        by_contra hne
        exact fileLines_ne_nil hne hlines
      exact .done (if_pos hs)
    | cons t ts =>
      have hs : s ≠ [] := by
        rintro rfl
        simp [fileLines] at hlines
      have hlt : t.length < n := h t (by simp [hlines])
      obtain ⟨htake, hrest, hdecreases⟩ := takeLine_of_fileLines (n - 1) hlines (by omega)
      have hfgets : fgets nl n s = some (t, (takeLine nl (n - 1) s).2) := by
        rw [fgets, if_neg hs, ← htake]
      have hyields := ih _ (hk ▸ hdecreases) (takeLine nl (n - 1) s).2 (fun u hu => h u (by
        rw [hlines]
        exact List.mem_cons_of_mem t (hrest ▸ hu))) rfl
      rw [hrest] at hyields
      exact .piece hfgets hyields

theorem length_fileLines_le (nl : α) (s : List α) : (fileLines nl s).length ≤ s.length := by
  induction s with
  | nil => exact Nat.le_refl _
  | cons c s ih =>
    rw [fileLines]
    split
    · simpa using ih
    · split
      · simp
      · next t ts hlines =>
        rw [hlines] at ih
        exact Nat.le_succ_of_le ih

end Nx508j.Lib
