import Nx508j.ConsumerIr.Transmitter

/-! # The messages for the infrared service

The HAL writes a command as decimal numbers with commas between them, the carrier frequency as the
last one; the service splits what it reads at the commas. Both sides use ASCII, so that bytes are
characters here. -/

namespace Nx508j.ConsumerIr

/-! ## Writing -/

/-- `<<` of an `int32_t`. -/
def decimal (n : Int32) : List Char :=
  (if n.toInt < 0 then ['-'] else []) ++ Nat.toDigits 10 n.toInt.natAbs

/-- What `ConsumerIr::transmit` sends, if anything. -/
def transmit (carrierFreq : Int32) (pattern : List Int32) : Option (List Char) :=
  if pattern = [] then none
  else some (pattern.flatMap (fun n => decimal n ++ [',']) ++ decimal carrierFreq)

/-! ## Reading -/

/-- `String.split(",")`: if there is a comma, empty parts at the end are left out. -/
def split (msg : List Char) : List (List Char) :=
  if ',' ∈ msg then ((msg.splitOn ',').reverse.dropWhile List.isEmpty).reverse else [msg]

/-- `String.trim` -/
def trim (s : List Char) : List Char :=
  ((s.dropWhile (· ≤ ' ')).reverse.dropWhile (· ≤ ' ')).reverse

/-- The sign of a number, and its digits. -/
def signOf : List Char → Int × List Char
  | '-' :: digits => (-1, digits)
  | '+' :: digits => (1, digits)
  | digits => (1, digits)

/-- `Integer.parseInt`, unless it throws. -/
def parseInt (s : List Char) : Option Int :=
  let digits := (signOf s).2
  let n := (signOf s).1 * Nat.ofDigitChars 10 digits 0
  if digits ≠ [] ∧ digits.all Char.isDigit = true ∧ -2147483648 ≤ n ∧ n ≤ 2147483647 then some n
  else none

/-- `startSocketServer` with a message: the numbers in it, unless one of them or none can be
    parsed and an exception is caught. -/
def readMsg (msg : List Char) : Option (List Int) := do
  let pattern ← (split msg).mapM fun s => parseInt (trim s)
  if pattern = [] then none else some pattern

/-! ## There and back -/

variable (n : Int32)

theorem decimal_ne_nil : decimal n ≠ [] := by
  simp [decimal, Nat.toDigits_ne_nil]

/-- What is written for a number is neither white space nor a comma. -/
theorem of_mem_decimal {n : Int32} {c : Char} (h : c ∈ decimal n) : ' ' < c ∧ c ≠ ',' := by
  rcases List.mem_append.1 h with hsign | hdigit
  · split at hsign
    · obtain rfl := List.mem_singleton.1 hsign
      decide
    · cases hsign
  · have hc := Nat.isDigit_of_mem_toDigits (by decide) (by decide) hdigit
    refine ⟨?_, ?_⟩
    · simp only [Char.isDigit, Bool.and_eq_true, decide_eq_true_eq] at hc
      exact Nat.lt_of_lt_of_le (by decide) hc.1
    · rintro rfl
      revert hc
      decide

theorem trim_decimal : trim (decimal n) = decimal n := by
  have hkeep : ∀ l : List Char, (∀ c ∈ l, ' ' < c) → l.dropWhile (· ≤ ' ') = l := by
    intro l hl
    cases l with
    | nil => rfl
    | cons c l =>
      rw [List.dropWhile_cons_of_neg]
      simpa using hl c (List.mem_cons_self ..)
  unfold trim
  rw [hkeep _ fun c hc => (of_mem_decimal hc).1,
    hkeep _ fun c hc => (of_mem_decimal (List.mem_reverse.1 hc)).1, List.reverse_reverse]

theorem signOf_decimal :
    signOf (decimal n) = (if n.toInt < 0 then -1 else 1, Nat.toDigits 10 n.toInt.natAbs) := by
  unfold decimal
  split
  · rfl
  rw [List.nil_append]
  have hdigit {c : Char} (h : c ∈ Nat.toDigits 10 n.toInt.natAbs) : c.isDigit = true :=
    Nat.isDigit_of_mem_toDigits (by decide) (by decide) h
  cases hl : Nat.toDigits 10 n.toInt.natAbs with
  | nil => rfl
  | cons c l =>
    have hc : c.isDigit = true := hdigit (hl ▸ List.mem_cons_self ..)
    unfold signOf
    split
    · next heq =>
      obtain ⟨rfl, -⟩ := List.cons.inj heq
      cases hc
    · next heq =>
      obtain ⟨rfl, -⟩ := List.cons.inj heq
      cases hc
    · rfl

theorem parseInt_decimal : parseInt (decimal n) = some n.toInt := by
  have hle := n.le_toInt
  have hlt := n.toInt_lt
  have hall : (Nat.toDigits 10 n.toInt.natAbs).all Char.isDigit = true :=
    List.all_eq_true.2 fun c h => Nat.isDigit_of_mem_toDigits (by decide) (by decide) h
  have hvalue : (if n.toInt < 0 then (-1 : Int) else 1) * (n.toInt.natAbs : Nat) = n.toInt := by
    split <;> omega
  unfold parseInt
  rw [signOf_decimal]
  dsimp only
  rw [Nat.ofDigitChars_ten_toDigits, hvalue, if_pos ⟨Nat.toDigits_ne_nil, hall, hle, by omega⟩]

/-- The parts of a message are the numbers. -/
theorem splitOn_transmit (carrierFreq : Int32) (pattern : List Int32) :
    (pattern.flatMap (fun n => decimal n ++ [',']) ++ decimal carrierFreq).splitOn ',' =
      (pattern ++ [carrierFreq]).map decimal := by
  induction pattern with
  | nil => exact List.splitOn_eq_singleton fun h => (of_mem_decimal h).2 rfl
  | cons n pattern ih =>
    rw [List.flatMap_cons, List.append_assoc, List.append_assoc, List.singleton_append,
      List.splitOn_append_cons_self_of_not_mem fun h => (of_mem_decimal h).2 rfl, ih]
    rfl

theorem mapM_decimal (ns : List Int32) :
    (ns.map decimal).mapM (fun s => parseInt (trim s)) = some (ns.map Int32.toInt) := by
  induction ns with
  | nil => rfl
  | cons n ns ih => simp [trim_decimal, parseInt_decimal, ih]

/-- **Commands arrive as they were sent**: whatever pattern and frequency the HAL transmits, the
    service receives this pattern with this frequency. -/
theorem transmit_received (s : ConsumerirTransmitterService) (carrierFreq n : Int32)
    (pattern : List Int32) :
    ∃ msg numbers, transmit carrierFreq (n :: pattern) = some msg ∧ readMsg msg = some numbers ∧
      ConsumerirTransmitterService.Step s (.socket numbers)
        (s.receive ⟨carrierFreq.toInt, (n :: pattern).map Int32.toInt⟩) := by
  have hnumbers : ((n :: pattern) ++ [carrierFreq]).map Int32.toInt =
      (n :: pattern).map Int32.toInt ++ [carrierFreq.toInt] := List.map_append
  refine ⟨_, ((n :: pattern) ++ [carrierFreq]).map Int32.toInt, rfl, ?_, ?_⟩
  · rw [readMsg, split, if_pos (by simp), splitOn_transmit, List.map_append, List.reverse_append,
      List.map_singleton, List.reverse_singleton, List.singleton_append,
      List.dropWhile_cons_of_neg (by simp [decimal_ne_nil]), List.reverse_cons, List.reverse_reverse]
    rw [← List.map_singleton, ← List.map_append, mapM_decimal]
    rfl
  · have hlast : ((n :: pattern).map Int32.toInt ++ [carrierFreq.toInt]).getLast? =
        some carrierFreq.toInt := List.getLast?_concat
    have hstep := ConsumerirTransmitterService.Step.socket (s := s) hlast
    rw [List.dropLast_concat] at hstep
    exact hnumbers ▸ hstep

end Nx508j.ConsumerIr
