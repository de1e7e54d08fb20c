import Mathlib.Data.List.Basic
import Nx508j.Lib.Memory

/-! # Strings that end in a null byte

A string is the bytes of an array before the first null byte. `snprintf` prints a text from an
offset on into as much room as it is given: it cuts the text to what fits with its null byte, and
returns how long the text would have been. -/

namespace Nx508j.Lib

namespace Region

variable {α : Type}

/-- Write a list of elements from an index on. -/
def writeAll (m : Region α) (off : Nat) : List α → Except Fault (Region α)
  | [] => .ok m
  | c :: cs => do
      let m ← m.write off c
      m.writeAll (off + 1) cs

theorem writeAll_ok {m : Region α} (off : Nat) (l : List α) (h : off + l.length ≤ m.size) :
    ∃ m', m.writeAll off l = .ok m' ∧ m'.size = m.size ∧
      ∀ i, m'.get i = if off ≤ i then (l[i - off]?).getD (m.get i) else m.get i := by
  induction l generalizing m off with
  | nil =>
    refine ⟨m, rfl, rfl, fun i => ?_⟩
    simp
  | cons c cs ih =>
    rw [List.length_cons] at h
    obtain ⟨m', hm', hsize, hget⟩ := ih (m := m.set off c) (off + 1) (by
      rw [size_set]
      omega)
    refine ⟨m', ?_, hsize, fun i => ?_⟩
    · rw [writeAll, write_ok (by omega) c]
      exact hm'
    · rw [hget, get_set]
      by_cases hi : i = off
      · subst hi
        have hnot : ¬ i + 1 ≤ i := Nat.not_succ_le_self i
        simp [hnot]
      · by_cases hlt : off ≤ i
        · obtain ⟨k, rfl⟩ : ∃ k, i = off + 1 + k := ⟨i - (off + 1), by omega⟩
          have hk : off + 1 + k - off = k + 1 := by omega
          simp [hi, hk, hlt]
        · have hlt' : ¬ off + 1 ≤ i := by omega
          simp [hi, hlt, hlt']

end Region

/-- The array starts with these bytes. -/
def Filled (m : Region UInt8) (s : List UInt8) : Prop := ∀ i (h : i < s.length), m.get i = s[i]

theorem Filled.nil (m : Region UInt8) : Filled m [] := fun i hi => absurd hi (Nat.not_lt_zero i)

variable {m : Region UInt8}

theorem Filled.snoc {s : List UInt8} (h : Filled m s) (c : UInt8) :
    Filled (m.set s.length c) (s ++ [c]) := by
  intro i hi
  rw [Region.get_set]
  by_cases heq : i = s.length
  · subst heq
    simp
  · rw [List.length_append, List.length_singleton] at hi
    have hlt : i < s.length := by omega
    rw [if_neg heq, List.getElem_append_left hlt]
    exact h i hlt

/-- The array holds this string. -/
structure CString (m : Region UInt8) (s : List UInt8) : Prop where
  fits : s.length < m.size
  filled : Filled m s
  nul : m.get s.length = 0
  nonzero : ∀ c ∈ s, c ≠ 0

namespace CString

variable {m : Region UInt8} {s t : List UInt8}

/-- The bytes from here on, up to the null byte. -/
theorem get_append (h : CString m (s ++ t)) (i : Nat) (hi : i < t.length) :
    m.get (s.length + i) = t[i] := by
  have hlt : s.length + i < (s ++ t).length := by
    rw [List.length_append]
    omega
  rw [h.filled _ hlt, List.getElem_append_right (Nat.le_add_right ..)]
  simp

/-- The byte at the end of a part of a string. -/
theorem get_length {c : UInt8} (h : CString m (s ++ c :: t)) : m.get s.length = c :=
  h.get_append 0 (Nat.succ_pos _)

end CString

/-- An array holds one string. -/
theorem CString.unique {s t : List UInt8} (hs : CString m s) (ht : CString m t) : s = t := by
  have hnot {s t : List UInt8} (hs : CString m s) (ht : CString m t) : ¬ s.length < t.length := by
    intro hlt
    refine ht.nonzero _ (List.getElem_mem hlt) ?_
    rw [← ht.filled _ hlt, hs.nul]
  have hlen : s.length = t.length := by
    have h₁ := hnot hs ht
    have h₂ := hnot ht hs
    omega
  refine List.ext_getElem hlen fun i h₁ h₂ => ?_
  rw [← hs.filled i h₁, ht.filled i h₂]

/-- A null byte cuts off what comes from there on. -/
theorem CString.cut {s t : List UInt8} (h : Filled m (s ++ t)) (hfits : s.length < m.size)
    (hs : ∀ c ∈ s, c ≠ 0) : CString (m.set s.length 0) s := by
  refine ⟨hfits, fun i hi => ?_, Region.get_set_self .., hs⟩
  have hi' : i < (s ++ t).length := by
    rw [List.length_append]
    omega
  rw [Region.get_set, if_neg (Nat.ne_of_lt hi), h i hi', List.getElem_append_left hi]

/-- An array of `n` bytes that starts with a string, and null bytes behind it. -/
def Region.ofString (n : Nat) (s : List UInt8) : Region UInt8 := ⟨n, fun i => (s[i]?).getD 0⟩

theorem CString.ofString {n : Nat} {s : List UInt8} (hn : s.length < n) (hs : ∀ c ∈ s, c ≠ 0) :
    CString (.ofString n s) s := by
  refine ⟨hn, fun i hi => ?_, ?_, hs⟩
  · simp [Region.ofString, hi]
  · simp [Region.ofString]

/-! ## Printing into an array -/

/-- `snprintf` of a text to the array from `off` on, as if `n` bytes were there. -/
def snprintf (m : Region UInt8) (off n : Nat) (text : List UInt8) :
    Except Fault (Region UInt8 × Nat) := do
  let m ← m.writeAll off (if n = 0 then [] else text.take (n - 1) ++ [0])
  .ok (m, text.length)

/-- Printing behind the first bytes appends what fits. -/
theorem snprintf_ok {s text : List UInt8} {n : Nat} (h : Filled m s) (hs : ∀ c ∈ s, c ≠ 0)
    (hn : 0 < n) (hroom : s.length + n ≤ m.size) (htext : ∀ c ∈ text, c ≠ 0) :
    ∃ m', snprintf m s.length n text = .ok (m', text.length) ∧ m'.size = m.size ∧
      CString m' (s ++ text.take (n - 1)) := by
  have hlen : (text.take (n - 1)).length ≤ n - 1 := List.length_take_le ..
  obtain ⟨m', hm', hsize, hget⟩ := Region.writeAll_ok (m := m) s.length
    (text.take (n - 1) ++ [0]) (by
      rw [List.length_append, List.length_singleton]
      omega)
  refine ⟨m', ?_, hsize, ⟨?_, fun i hi => ?_, ?_, fun c hc => ?_⟩⟩
  · rw [snprintf, if_neg (Nat.ne_of_gt hn), hm', ok_bind]
  · rw [List.length_append, hsize]
    omega
  · rw [hget]
    split
    · next hle =>
      rw [List.getElem_append_right hle]
      rw [List.length_append] at hi
      rw [List.getElem?_append_left (by omega), List.getElem?_eq_getElem (by omega),
        Option.getD_some]
    · next hlt =>
      rw [List.getElem_append_left (Nat.lt_of_not_le hlt)]
      exact h i (Nat.lt_of_not_le hlt)
  · rw [hget, List.length_append, if_pos (Nat.le_add_right ..)]
    simp
  · rcases List.mem_append.1 hc with hc | hc
    · exact hs c hc
    · exact htext c (List.mem_of_mem_take hc)

/-! ## Reading from an array -/

/-- What follows on a result that is kept follows on. -/
theorem bind_ok_mono {ε α β : Type} {x y : Except ε α} {f g : α → Except ε β} {b : β}
    (hxy : ∀ a, x = .ok a → y = .ok a) (hfg : ∀ a, f a = .ok b → g a = .ok b)
    (h : (x >>= f) = .ok b) : (y >>= g) = .ok b := by
  obtain ⟨a, hx, hf⟩ := bind_eq_ok h
  rw [hxy a hx, ok_bind]
  exact hfg a hf

namespace Region

/-- Some elements from an index on. -/
def slice {α : Type} (m : Region α) (off n : Nat) : Except Fault (List α) :=
  if off + n ≤ m.size then .ok ((List.range n).map fun i => m.get (off + i))
  else .error .outOfBounds

/-- The string that starts at an index, if it ends within `n` bytes. -/
def scan (m : Region UInt8) : Nat → Nat → Except Fault (List UInt8)
  | _, 0 => .error .outOfBounds
  | off, n + 1 =>
    if m.get off = 0 then .ok []
    else do
      let s ← m.scan (off + 1) n
      .ok (m.get off :: s)

/-- `strlcpy` from an index: what is copied of the string. The string is read to its end all the
    same. -/
def strlcpy (m : Region UInt8) (off size : Nat) : Except Fault (List UInt8) := do
  let s ← m.scan off (m.size - off)
  .ok (s.take (size - 1))

variable {α : Type} {size size' : Nat}

variable {off n : Nat}

theorem slice_ok {m : Region α} (h : off + n ≤ m.size) :
    m.slice off n = .ok ((List.range n).map fun i => m.get (off + i)) := if_pos h

theorem slice_error {m : Region α} (h : ¬ off + n ≤ m.size) :
    m.slice off n = .error .outOfBounds := if_neg h

theorem read_error {m : Region α} {i : Nat} (h : ¬ i < m.size) : m.read i = .error .outOfBounds :=
  if_neg h

/-- A string is read if a null byte comes. -/
theorem scan_ok_iff {m : Region UInt8} :
    (∃ s, m.scan off n = .ok s) ↔ ∃ i < n, m.get (off + i) = 0 := by
  induction n generalizing off with
  | zero => simp [scan]
  | succ n ih =>
    unfold scan
    split
    · next hnul => exact iff_of_true ⟨_, rfl⟩ ⟨0, Nat.succ_pos n, hnul⟩
    · next hne =>
      have hrest : (∃ s, (do let s ← m.scan (off + 1) n; .ok (m.get off :: s)) =
          (Except.ok s : Except Fault (List UInt8))) ↔ ∃ s, m.scan (off + 1) n = .ok s := by
        refine ⟨fun ⟨s, hs⟩ => ?_, fun ⟨s, hs⟩ => ⟨m.get off :: s, by rw [hs, ok_bind]⟩⟩
        obtain ⟨s', hs', -⟩ := bind_eq_ok hs
        exact ⟨s', hs'⟩
      rw [hrest, ih]
      constructor
      · rintro ⟨i, hi, hnul⟩
        exact ⟨i + 1, by omega, by rw [← hnul]; congr 1; omega⟩
      · rintro ⟨i, hi, hnul⟩
        obtain ⟨j, rfl⟩ : ∃ j, i = j + 1 := by
          cases i with
          | zero => exact absurd hnul hne
          | succ j => exact ⟨j, rfl⟩
        exact ⟨j, by omega, by rw [← hnul]; congr 1; omega⟩

theorem strlcpy_ok_iff {m : Region UInt8} :
    (∃ s, m.strlcpy off n = .ok s) ↔ ∃ i, off + i < m.size ∧ m.get (off + i) = 0 := by
  have hscan : (∃ s, m.strlcpy off n = .ok s) ↔ ∃ s, m.scan off (m.size - off) = .ok s := by
    refine ⟨fun ⟨s, hs⟩ => ?_, fun ⟨s, hs⟩ => ⟨s.take (n - 1), by rw [strlcpy, hs, ok_bind]⟩⟩
    obtain ⟨s', hs', -⟩ := bind_eq_ok hs
    exact ⟨s', hs'⟩
  rw [hscan, scan_ok_iff]
  constructor
  · rintro ⟨i, hi, hnul⟩
    exact ⟨i, by omega, hnul⟩
  · rintro ⟨i, hi, hnul⟩
    exact ⟨i, by omega, hnul⟩

/-! What is read is read whatever lies behind the array. -/

section Mono

variable {get : Nat → α} {get' : Nat → UInt8} (hle : size ≤ size')

include hle

theorem read_mono {i : Nat} {a : α} (h : (Region.mk size get).read i = .ok a) :
    (Region.mk size' get).read i = .ok a := by
  obtain ⟨hi, rfl⟩ := lt_of_read h
  exact read_ok (Nat.lt_of_lt_of_le hi hle)

theorem slice_mono {off n : Nat} {l : List α} (h : (Region.mk size get).slice off n = .ok l) :
    (Region.mk size' get).slice off n = .ok l := by
  unfold slice at h ⊢
  split at h
  · next hfits =>
    rw [if_pos (Nat.le_trans hfits hle)]
    exact h
  · cases h

omit hle in
theorem scan_mono {off n n' : Nat} {s : List UInt8} (hn : n ≤ n')
    (h : (Region.mk size get').scan off n = .ok s) :
    (Region.mk size' get').scan off n' = .ok s := by
  induction n generalizing off n' s with
  | zero => cases h
  | succ n ih =>
    obtain ⟨k, rfl⟩ : ∃ k, n' = k + 1 := ⟨n' - 1, by omega⟩
    unfold scan at h ⊢
    split at h
    · next hnul =>
      rw [if_pos hnul]
      exact h
    · next hne =>
      rw [if_neg hne]
      exact bind_ok_mono (fun a ha => ih (by omega) ha) (fun a ha => ha) h

theorem strlcpy_mono {off n : Nat} {s : List UInt8}
    (h : (Region.mk size get').strlcpy off n = .ok s) :
    (Region.mk size' get').strlcpy off n = .ok s :=
  bind_ok_mono (fun _ ha => scan_mono (Nat.sub_le_sub_right hle off) ha) (fun _ ha => ha) h

end Mono

end Region

end Nx508j.Lib
