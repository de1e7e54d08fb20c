import Mathlib.Data.List.Forall2
import Nx508j.Lib.Memory
import Nx508j.Lib.TextLines

/-! # Reading a configuration

A table of parameters is filled from lines `key = value`. Reading does not go on to the end of the
text: a countdown ends it after a number of lines that set a parameter. -/

namespace Nx508j.Loc

open Nx508j.Lib

/-- `LOC_MAX_PARAM_STRING` -/
def LOC_MAX_PARAM_STRING : Nat := 80

/-- `LOC_MAX_PARAM_LINE` -/
def LOC_MAX_PARAM_LINE : Nat := 80 + 80

/-- The library functions that read numbers, and the double zero. -/
structure NumberParsers (D : Type) where
  atoi : List Char → Int
  /-- `strtol` with base 16 -/
  strtol16 : List Char → Int
  atof : List Char → D
  zero : D

/-- `param_type`: a string, a number, a float, or a letter for none of these. -/
inductive ParamType
  | s
  | n
  | f
  | other
deriving DecidableEq

/-- What a parameter holds. -/
inductive ParamValue (D : Type)
  | str (s : List Char)
  | int (i : Int)
  | double (x : D)
deriving DecidableEq

/-- `loc_param_s_type`, with what its pointers point to; null pointers are `none`. -/
structure ConfEntry (D : Type) where
  param_name : List Char
  param_ptr : Option (ParamValue D)
  param_set : Option Bool
  param_type : ParamType

/-- `loc_param_v_type` -/
structure ConfValue (D : Type) where
  param_name : List Char
  param_str_value : List Char
  param_int_value : Int
  param_double_value : D

/-- What is before the null byte. -/
def cString (s : List Char) : List Char := s.takeWhile (· != '\x00')

/-- `isspace` -/
def isspace (c : Char) : Bool := c = ' ' || (9 ≤ c.toNat && c.toNat ≤ 13)

/-- `loc_util_trim_space`: a string of spaces only stays as it is. -/
def loc_util_trim_space (s : List Char) : List Char :=
  match s.dropWhile isspace with
  | [] => s
  | c :: s => ((c :: s).reverse.dropWhile isspace).reverse

section Model

variable {D : Type} (num : NumberParsers D)

/-- `loc_set_config_entry`, with whether it set the entry. -/
def loc_set_config_entry (e : ConfEntry D) (v : ConfValue D) : ConfEntry D × Bool :=
  let put (value : ParamValue D) : ConfEntry D :=
    { e with param_ptr := some value, param_set := e.param_set.map fun _ => true }
  if e.param_name = v.param_name ∧ e.param_ptr.isSome then
    match e.param_type with
    | .s =>
      if v.param_str_value = "NULL".toList then (put (.str []), true)
      else (put (.str (v.param_str_value.take LOC_MAX_PARAM_STRING)), true)
    | .n => (put (.int v.param_int_value), true)
    | .f => (put (.double v.param_double_value), true)
    | .other => (e, false)
  else (e, false)

/-- The first half of `loc_fill_conf_item`: what the line says. -/
def parseConfItem (input_buf : List Char) : Option (ConfValue D) := do
  let (param_name, lasts) ← strtok_r '=' (cString input_buf)
  let (param_str_value, _) ← strtok_r '=' lasts
  let param_name := loc_util_trim_space param_name
  let param_str_value := loc_util_trim_space param_str_value
  if 3 ≤ param_str_value.length ∧ param_str_value[0]? = some '0' ∧
      (param_str_value[1]? = some 'x' ∨ param_str_value[1]? = some 'X') then
    some ⟨param_name, param_str_value, num.strtol16 (param_str_value.drop 2), num.zero⟩
  else
    some ⟨param_name, param_str_value, num.atoi param_str_value, num.atof param_str_value⟩

/-- `loc_fill_conf_item`, with the number of entries that it set. -/
def loc_fill_conf_item (input_buf : List Char) (table : List (ConfEntry D)) :
    List (ConfEntry D) × Nat :=
  match parseConfItem num input_buf with
  | none => (table, 0)
  | some v =>
    let set := table.map fun e => loc_set_config_entry e v
    (set.map Prod.fst, set.countP Prod.snd)

/-- The loop of `loc_read_conf_r` and `loc_update_conf` over the lines that `next` reads: what is
    left of the text, the number of lines and the table. -/
def confLoop (next : List Char → Option (List Char × List Char)) :
    Nat → Nat → List Char → Nat → List (ConfEntry D) →
      Except Fault (List Char × Nat × List (ConfEntry D))
  | _, 0, text, lines, table => .ok (text, lines, table)
  | 0, _ + 1, _, _, _ => .error .diverges
  | fuel + 1, num_params + 1, text, lines, table =>
    match next text with
    | none => .ok (text, lines, table)
    | some (input_buf, text) =>
      let (table, filled) := loc_fill_conf_item num input_buf table
      -- the number is unsigned
      confLoop next fuel ((num_params + 1 + 0x100000000 - filled) % 0x100000000) text
        (lines + 1) table

/-- Clear the validity bit. -/
def ConfEntry.clear (e : ConfEntry D) : ConfEntry D :=
  { e with param_set := e.param_set.map fun _ => false }

/-- `loc_read_conf_r`: what is left of the file, and the table. -/
def loc_read_conf_r (conf_fp : List Char) (table : List (ConfEntry D)) :
    Except Fault (List Char × List (ConfEntry D)) := do
  let (conf_fp, _, table) ← confLoop num (fgets '\n' LOC_MAX_PARAM_LINE) (conf_fp.length + 1)
    table.length conf_fp 0 (table.map ConfEntry.clear)
  .ok (conf_fp, table)

/-- `loc_update_conf`: the number it returns, and the table. -/
def loc_update_conf (conf_data : List Char) (table : List (ConfEntry D)) :
    Except Fault (Int × List (ConfEntry D)) :=
  if conf_data.isEmpty || table.isEmpty then .ok (-1, table)
  else do
    let conf_copy := cString conf_data
    -- start with one record off
    let (_, ret, table) ← confLoop num (strtok_r '\n') (conf_copy.length + 1) (table.length - 1)
      conf_copy 0 table
    .ok (ret, table)

/-- `loc_param_table` with `DEBUG_LEVEL` and `TIMESTAMP`. -/
def loc_param_table (DEBUG_LEVEL TIMESTAMP : Int) : List (ConfEntry D) :=
  [ ⟨"DEBUG_LEVEL".toList, some (.int DEBUG_LEVEL), none, .n⟩,
    ⟨"TIMESTAMP".toList, some (.int TIMESTAMP), none, .n⟩ ]

/-- `loc_read_conf` with the caller's table and `loc_param_table`. Without a text the file could not
    be opened. -/
def loc_read_conf (conf_file : Option (List Char)) (table : List (ConfEntry D))
    (DEBUG_LEVEL TIMESTAMP : Int) :
    Except Fault (List (ConfEntry D) × List (ConfEntry D)) :=
  match conf_file with
  | none => .ok (table, loc_param_table DEBUG_LEVEL TIMESTAMP)
  | some text => do
      let (_, table) ← (if table.isEmpty then .ok ([], table) else loc_read_conf_r num text table)
      -- rewind
      let (_, own) ← loc_read_conf_r num text (loc_param_table DEBUG_LEVEL TIMESTAMP)
      .ok (table, own)

end Model

/-! ## What a configuration says -/

section Meaning

variable {D : Type} (num : NumberParsers D)

namespace ConfEntry

/-- The entry has a variable, of one of the three types. -/
def settable (e : ConfEntry D) : Bool := e.param_ptr.isSome && e.param_type ≠ .other

/-- The trimmed key of the line is the name of the entry. -/
def NamedBy (e : ConfEntry D) (line : List Char) : Prop :=
  ∃ v, parseConfItem num line = some v ∧ e.param_name = v.param_name

end ConfEntry

/-- The value of a line for a parameter of some type. -/
def ConfValue.valueFor (v : ConfValue D) : ParamType → Option (ParamValue D)
  | .s =>
    if v.param_str_value = "NULL".toList then some (.str [])
    else some (.str (v.param_str_value.take LOC_MAX_PARAM_STRING))
  | .n => some (.int v.param_int_value)
  | .f => some (.double v.param_double_value)
  | .other => none

/-- A parameter holds the value that one of the lines has for this entry. -/
def HoldsOne (lines : List (List Char)) (e : ConfEntry D) (ptr : Option (ParamValue D)) : Prop :=
  ∃ line ∈ lines, ∃ v value, parseConfItem num line = some v ∧ e.param_name = v.param_name ∧
    v.valueFor e.param_type = some value ∧ ptr = some value

/-- An entry before and after the lines: it holds the value of one of the lines that name it, and
    without such a line it is as it was. -/
structure Applied (lines : List (List Char)) (e e' : ConfEntry D) : Prop where
  name : e'.param_name = e.param_name
  type : e'.param_type = e.param_type
  named : (∃ line ∈ lines, e.NamedBy num line) → HoldsOne num lines e e'.param_ptr
  unnamed : (¬ ∃ line ∈ lines, e.NamedBy num line) → e'.param_ptr = e.param_ptr

/-- The line sets an entry of the table. -/
def setsEntry (table : List (ConfEntry D)) (line : List Char) : Bool :=
  match parseConfItem num line with
  | none => false
  | some v => table.any fun e => e.param_name = v.param_name && e.settable

/-- If lines name the entry, it can be set and one of them comes before `n` lines have set entries;
    or the entry holds the value of one of them already. -/
def Reached (table : List (ConfEntry D)) (n : Nat) (lines : List (List Char)) (e : ConfEntry D) :
    Prop :=
  (∃ line ∈ lines, e.NamedBy num line) →
    (e.settable ∧ ∃ before line after, lines = before ++ line :: after ∧ e.NamedBy num line ∧
      before.countP (setsEntry num table) < n) ∨
    HoldsOne num lines e e.param_ptr

end Meaning

/-! ## One line -/

section Line

variable {D : Type} {num : NumberParsers D} {e : ConfEntry D} {v : ConfValue D}
  {line : List Char} {table : List (ConfEntry D)}

/-- The line as it acts on one entry. -/
def setLine (num : NumberParsers D) (e : ConfEntry D) (line : List Char) : ConfEntry D :=
  match parseConfItem num line with
  | none => e
  | some v => (loc_set_config_entry e v).1

theorem set_snd : (loc_set_config_entry e v).2 =
    (decide (e.param_name = v.param_name) && e.settable) := by
  rw [loc_set_config_entry, ConfEntry.settable]
  split
  · next h =>
    rw [h.1, h.2]
    split
    · next htype => split <;> simp [htype]
    all_goals next htype => simp [htype]
  · next h =>
    rw [not_and_or] at h
    rcases h with h | h <;> simp [h]

theorem set_fst : (loc_set_config_entry e v).1.param_name = e.param_name ∧
    (loc_set_config_entry e v).1.param_type = e.param_type ∧
    (loc_set_config_entry e v).1.settable = e.settable := by
  rw [loc_set_config_entry]
  split
  · next h =>
    simp only [ConfEntry.settable, h.2]
    split
    · split <;> simp
    all_goals simp [h.2]
  · simp

theorem set_fst_of_settable (hname : e.param_name = v.param_name) (hset : e.settable = true) :
    (loc_set_config_entry e v).1.param_ptr = v.valueFor e.param_type ∧
      (v.valueFor e.param_type).isSome = true := by
  rw [ConfEntry.settable, Bool.and_eq_true, decide_eq_true_eq] at hset
  rw [loc_set_config_entry, if_pos ⟨hname, hset.1⟩]
  cases htype : e.param_type with
  | s =>
    by_cases hnull : v.param_str_value = "NULL".toList
    · simp only [ConfValue.valueFor, hnull, ↓reduceIte, Option.isSome_some, and_self]
    · simp only [ConfValue.valueFor, hnull, ↓reduceIte, Option.isSome_some, and_self]
  | n => exact ⟨rfl, rfl⟩
  | f => exact ⟨rfl, rfl⟩
  | other => exact absurd htype hset.2

theorem set_fst_of_not (h : ¬ (e.param_name = v.param_name ∧ e.settable = true)) :
    (loc_set_config_entry e v).1 = e := by
  rw [loc_set_config_entry]
  split
  · next hif =>
    split
    · next htype => exact absurd ⟨hif.1, by simp [ConfEntry.settable, hif.2, htype]⟩ h
    · next htype => exact absurd ⟨hif.1, by simp [ConfEntry.settable, hif.2, htype]⟩ h
    · next htype => exact absurd ⟨hif.1, by simp [ConfEntry.settable, hif.2, htype]⟩ h
    · rfl
  · rfl

theorem setLine_name : (setLine num e line).param_name = e.param_name := by
  rw [setLine]
  split
  · rfl
  · exact set_fst.1

theorem setLine_type : (setLine num e line).param_type = e.param_type := by
  rw [setLine]
  split
  · rfl
  · exact set_fst.2.1

theorem setLine_settable : (setLine num e line).settable = e.settable := by
  rw [setLine]
  split
  · rfl
  · exact set_fst.2.2

theorem setsEntry_map {f : ConfEntry D → ConfEntry D}
    (hname : ∀ e, (f e).param_name = e.param_name) (hset : ∀ e, (f e).settable = e.settable) :
    setsEntry num (table.map f) line = setsEntry num table line := by
  rw [setsEntry, setsEntry]
  split
  · rfl
  · rw [List.any_map]
    congr 1
    funext e
    rw [Function.comp, hname, hset]

theorem countP_named {p : ConfEntry D → Bool} {name : List Char}
    (hnames : (table.map ConfEntry.param_name).Nodup) :
    table.countP (fun e => decide (e.param_name = name) && p e) =
      if table.any (fun e => decide (e.param_name = name) && p e) then 1 else 0 := by
  induction table with
  | nil => rfl
  | cons e table ih =>
    rw [List.map_cons, List.nodup_cons] at hnames
    rw [List.countP_cons, ih hnames.2, List.any_cons]
    by_cases he : (decide (e.param_name = name) && p e) = true
    · have hrest : table.any (fun e => decide (e.param_name = name) && p e) = false := by
        rw [List.any_eq_false]
        intro e' he'
        rw [Bool.and_eq_true, decide_eq_true_eq] at he
        rw [Bool.and_eq_true, decide_eq_true_eq]
        exact fun h => hnames.1 (List.mem_map.2 ⟨e', he', h.1.trans he.1.symm⟩)
      rw [hrest, he]
      rfl
    · rw [Bool.not_eq_true] at he
      rw [he, Bool.false_or]
      rfl

theorem loc_fill_conf_item_eq (hnames : (table.map ConfEntry.param_name).Nodup) :
    loc_fill_conf_item num line table =
      (table.map fun e => setLine num e line, if setsEntry num table line then 1 else 0) := by
  rw [loc_fill_conf_item, setsEntry]
  cases h : parseConfItem num line with
  | none => simp [setLine, h]
  | some v =>
    refine Prod.ext ?_ ?_
    · simp [setLine, h, Function.comp_def]
    · simp only [List.countP_map]
      rw [← countP_named hnames]
      congr 1
      funext e
      exact set_snd

end Line

/-! ## The countdown -/

section Countdown

variable {D : Type} {num : NumberParsers D} {lines : List (List Char)} {table : List (ConfEntry D)}
  {e : ConfEntry D} {n : Nat}

/-- The lines that are looked at: no more once `n` of them have set an entry. -/
def looked (num : NumberParsers D) (table : List (ConfEntry D)) :
    Nat → List (List Char) → List (List Char)
  | 0, _ => []
  | _ + 1, [] => []
  | n + 1, line :: lines =>
    line :: looked num table (if setsEntry num table line then n else n + 1) lines

theorem looked_map {f : ConfEntry D → ConfEntry D}
    (hname : ∀ e, (f e).param_name = e.param_name) (hset : ∀ e, (f e).settable = e.settable) :
    looked num (table.map f) n lines = looked num table n lines := by
  induction lines generalizing n with
  | nil => cases n <;> rfl
  | cons line lines ih =>
    cases n with
    | zero => rfl
    | succ n => rw [looked, looked, ih, setsEntry_map hname hset]

theorem mem_of_mem_looked {line : List Char} (h : line ∈ looked num table n lines) :
    line ∈ lines := by
  induction lines generalizing n with
  | nil => cases n <;> simp [looked] at h
  | cons l lines ih =>
    cases n with
    | zero => simp [looked] at h
    | succ n =>
      rw [looked] at h
      rcases List.mem_cons.1 h with rfl | h
      · exact List.mem_cons_self ..
      · exact List.mem_cons_of_mem l (ih h)

theorem exists_mem_looked_iff {P : List Char → Prop} : (∃ line ∈ looked num table n lines, P line) ↔
      ∃ before line after, lines = before ++ line :: after ∧ P line ∧
        before.countP (setsEntry num table) < n := by
  induction lines generalizing n with
  | nil =>
    cases n <;> simp [looked]
  | cons l lines ih =>
    cases n with
    | zero => simp [looked]
    | succ n =>
      rw [looked]
      constructor
      · rintro ⟨line, hmem, hline⟩
        rcases List.mem_cons.1 hmem with rfl | hmem
        · exact ⟨[], line, lines, rfl, hline, Nat.succ_pos n⟩
        obtain ⟨before, line, after, rfl, hline, hcount⟩ := ih.1 ⟨line, hmem, hline⟩
        refine ⟨l :: before, line, after, rfl, hline, ?_⟩
        rw [List.countP_cons]
        by_cases hl : setsEntry num table l = true
        · rw [if_pos hl] at hcount ⊢
          omega
        · rw [if_neg hl] at hcount ⊢
          omega
      · rintro ⟨before, line, after, heq, hline, hcount⟩
        cases before with
        | nil =>
          cases heq
          exact ⟨l, List.mem_cons_self .., hline⟩
        | cons b before =>
          obtain ⟨rfl, htail⟩ := List.cons.inj heq
          have hleft : before.countP (setsEntry num table) <
              if setsEntry num table l then n else n + 1 := by
            rw [List.countP_cons] at hcount
            by_cases hl : setsEntry num table l = true
            · rw [if_pos hl] at hcount ⊢
              omega
            · rw [if_neg hl] at hcount ⊢
              omega
          obtain ⟨line', hmem, hline'⟩ := ih.2 ⟨before, line, after, htail, hline, hleft⟩
          exact ⟨line', List.mem_cons_of_mem l hmem, hline'⟩

theorem confLoop_ok (num : NumberParsers D)
    {next : List Char → Option (List Char × List Char)} {text : List Char}
    (hyields : Yields next text lines) (m n k : Nat) (table : List (ConfEntry D))
    (hm : lines.length < m) (hn : n < 0x100000000)
    (hnames : (table.map ConfEntry.param_name).Nodup) : ∃ rest, confLoop num next m n text k table =
      .ok (rest, k + (looked num table n lines).length,
        table.map fun e => (looked num table n lines).foldl (setLine num) e) := by
  induction hyields generalizing m n k table with
  | @done text h =>
    obtain ⟨m, rfl⟩ : ∃ i, m = i + 1 := Nat.exists_eq_succ_of_ne_zero (Nat.ne_of_gt hm)
    cases n with
    | zero => exact ⟨text, by simp [confLoop, looked]⟩
    | succ n => exact ⟨text, by simp [confLoop, looked, h]⟩
  | @piece text line rest lines h hrest ih =>
    rw [List.length_cons] at hm
    obtain ⟨m, rfl⟩ : ∃ i, m = i + 1 := Nat.exists_eq_succ_of_ne_zero (by omega)
    cases n with
    | zero => exact ⟨text, by simp [confLoop, looked]⟩
    | succ n =>
      have hnames' : ((table.map fun e => setLine num e line).map
          ConfEntry.param_name).Nodup := by
        rw [List.map_map]
        have : ConfEntry.param_name ∘ (fun e => setLine num e line) = ConfEntry.param_name :=
          funext fun e => setLine_name
        rwa [this]
      have hleft :
          (n + 1 + 0x100000000 - if setsEntry num table line then 1 else 0) % 0x100000000 =
            if setsEntry num table line then n else n + 1 := by
        split <;> omega
      obtain ⟨rest', hloop⟩ := ih m (if setsEntry num table line then n else n + 1) (k + 1)
        (table.map fun e => setLine num e line) (by omega) (by split <;> omega) hnames'
      refine ⟨rest', ?_⟩
      rw [confLoop, h]
      dsimp only
      rw [loc_fill_conf_item_eq hnames]
      rw [hleft, hloop, looked_map (fun e => setLine_name) (fun e => setLine_settable), looked,
        List.length_cons, List.map_map]
      simp [Function.comp_def, Nat.add_assoc, Nat.add_comm 1]

end Countdown

/-! ## One entry -/

section Entry

variable {D : Type} {num : NumberParsers D} {lines ls : List (List Char)}
  {table : List (ConfEntry D)} {e : ConfEntry D} {line : List Char}

theorem namedBy_setLine {line' : List Char} :
    (setLine num e line).NamedBy num line' ↔ e.NamedBy num line' := by
  rw [ConfEntry.NamedBy, setLine_name, ConfEntry.NamedBy]

theorem HoldsOne.of_setLine {ptr : Option (ParamValue D)}
    (h : HoldsOne num lines (setLine num e line) ptr) : HoldsOne num lines e ptr := by
  obtain ⟨line', hmem, v, value, hparse, hname, hvalue, hptr⟩ := h
  exact ⟨line', hmem, v, value, hparse, setLine_name ▸ hname, setLine_type ▸ hvalue, hptr⟩

theorem HoldsOne.mono {ptr : Option (ParamValue D)} (h : HoldsOne num ls e ptr)
    (hsub : ∀ line ∈ ls, line ∈ lines) : HoldsOne num lines e ptr := by
  obtain ⟨line', hmem, hrest⟩ := h
  exact ⟨line', hsub line' hmem, hrest⟩

theorem setLine_of_not (h : ¬ (e.settable = true ∧ e.NamedBy num line)) :
    setLine num e line = e := by
  rw [setLine]
  split
  · rfl
  · next v hparse => exact set_fst_of_not fun hboth => h ⟨hboth.2, v, hparse, hboth.1⟩

theorem holdsOne_setLine (hset : e.settable = true) (hnamed : e.NamedBy num line)
    (hmem : line ∈ lines) : HoldsOne num lines e (setLine num e line).param_ptr := by
  obtain ⟨v, hparse, hname⟩ := hnamed
  obtain ⟨hptr, hsome⟩ := set_fst_of_settable hname hset
  obtain ⟨value, hvalue⟩ := Option.isSome_iff_exists.1 hsome
  refine ⟨line, hmem, v, value, hparse, hname, hvalue, ?_⟩
  rw [setLine, hparse]
  exact hptr.trans hvalue

theorem foldl_setLine_name : (ls.foldl (setLine num) e).param_name = e.param_name ∧
    (ls.foldl (setLine num) e).param_type = e.param_type := by
  induction ls generalizing e with
  | nil => exact ⟨rfl, rfl⟩
  | cons line ls ih =>
    rw [List.foldl_cons, ih.1, ih.2]
    exact ⟨setLine_name, setLine_type⟩

theorem foldl_setLine_of_not (h : ¬ (e.settable = true ∧ ∃ line ∈ ls, e.NamedBy num line)) :
    ls.foldl (setLine num) e = e := by
  induction ls with
  | nil => rfl
  | cons line ls ih =>
    rw [List.foldl_cons, setLine_of_not fun hl => h ⟨hl.1, line, List.mem_cons_self .., hl.2⟩]
    exact ih fun ⟨hset, line', hmem, hnamed⟩ =>
      h ⟨hset, line', List.mem_cons_of_mem line hmem, hnamed⟩

theorem holdsOne_foldl (hset : e.settable = true) (h : ∃ line ∈ ls, e.NamedBy num line) :
    HoldsOne num ls e (ls.foldl (setLine num) e).param_ptr := by
  induction ls generalizing e with
  | nil =>
    obtain ⟨line, hmem, -⟩ := h
    exact absurd hmem List.not_mem_nil
  | cons line ls ih =>
    rw [List.foldl_cons]
    by_cases hlater : ∃ line' ∈ ls, e.NamedBy num line'
    · obtain ⟨line', hmem, hnamed⟩ := hlater
      have hholds := ih (e := setLine num e line) (setLine_settable.trans hset)
        ⟨line', hmem, namedBy_setLine.2 hnamed⟩
      exact hholds.of_setLine.mono fun l hl => List.mem_cons_of_mem line hl
    · -- the line itself is the last one
      have hnamed : e.NamedBy num line := by
        obtain ⟨line', hmem, hnamed⟩ := h
        rcases List.mem_cons.1 hmem with rfl | hmem
        · exact hnamed
        · exact absurd ⟨line', hmem, hnamed⟩ hlater
      rw [foldl_setLine_of_not fun hl => hlater (by
        obtain ⟨-, line', hmem, hnamed'⟩ := hl
        exact ⟨line', hmem, namedBy_setLine.1 hnamed'⟩)]
      exact holdsOne_setLine hset hnamed (List.mem_cons_self ..)

theorem applied_iff {n : Nat} :
    Applied num lines e ((looked num table n lines).foldl (setLine num) e) ↔
      Reached num table n lines e := by
  by_cases hlooked : e.settable = true ∧ ∃ line ∈ looked num table n lines, e.NamedBy num line
  · have hholds : HoldsOne num lines e
        ((looked num table n lines).foldl (setLine num) e).param_ptr :=
      (holdsOne_foldl hlooked.1 hlooked.2).mono fun line hline => mem_of_mem_looked hline
    obtain ⟨line, hmem, hnamed⟩ := hlooked.2
    refine ⟨fun _ _ => .inl ⟨hlooked.1, exists_mem_looked_iff.1 hlooked.2⟩, fun _ => ?_⟩
    exact ⟨foldl_setLine_name.1, foldl_setLine_name.2, fun _ => hholds,
      fun h => absurd ⟨line, mem_of_mem_looked hmem, hnamed⟩ h⟩
  · rw [foldl_setLine_of_not hlooked]
    constructor
    · exact fun h hnamed => .inr (h.named hnamed)
    · intro h
      refine ⟨rfl, rfl, fun hnamed => ?_, fun _ => rfl⟩
      rcases h hnamed with ⟨hset, hreached⟩ | hholds
      · exact absurd ⟨hset, exists_mem_looked_iff.2 hreached⟩ hlooked
      · exact hholds

theorem forall₂_applied_iff {n : Nat} : List.Forall₂ (Applied num lines) table
        (table.map fun e => (looked num table n lines).foldl (setLine num) e) ↔
      ∀ e ∈ table, Reached num table n lines e := by
  rw [List.forall₂_map_right_iff, List.forall₂_same]
  simp only [applied_iff]

end Entry

/-! ## The two ways in -/

section Read

variable {D : Type}

theorem applied_clear {num : NumberParsers D} {lines : List (List Char)} {e e' : ConfEntry D} :
    Applied num lines e.clear e' ↔ Applied num lines e e' :=
  ⟨fun h => ⟨h.name, h.type, h.named, h.unnamed⟩, fun h => ⟨h.name, h.type, h.named, h.unnamed⟩⟩

theorem loc_read_conf_r_ok (num : NumberParsers D) (text : List Char) (table : List (ConfEntry D))
    (hlines : ∀ line ∈ fileLines '\n' text, line.length < LOC_MAX_PARAM_LINE)
    (hnames : (table.map ConfEntry.param_name).Nodup) (hlength : table.length < 0x100000000) :
    ∃ rest table', loc_read_conf_r num text table = .ok (rest, table') ∧
      (List.Forall₂ (Applied num (fileLines '\n' text)) table table' ↔
        ∀ e ∈ table, Reached num table table.length (fileLines '\n' text) e) := by
  have hcleared : (table.map ConfEntry.clear).map ConfEntry.param_name =
      table.map ConfEntry.param_name := by
    rw [List.map_map]
    rfl
  obtain ⟨rest, hloop⟩ := confLoop_ok num (yields_fgets '\n' LOC_MAX_PARAM_LINE text hlines)
    (text.length + 1) table.length 0 (table.map ConfEntry.clear)
    (Nat.lt_succ_of_le (length_fileLines_le '\n' text)) hlength (hcleared ▸ hnames)
  rw [looked_map (f := ConfEntry.clear) (fun _ => rfl) (fun _ => rfl)] at hloop
  refine ⟨rest, (table.map ConfEntry.clear).map fun e =>
    (looked num table table.length (fileLines '\n' text)).foldl (setLine num) e, ?_, ?_⟩
  · rw [loc_read_conf_r, hloop, ok_bind]
  · rw [List.map_map, List.forall₂_map_right_iff, List.forall₂_same]
    refine forall₂_congr fun e _ => ?_
    rw [Function.comp, ← applied_clear, applied_iff]
    exact Iff.rfl

theorem loc_update_conf_ok (num : NumberParsers D) (text : List Char) (table : List (ConfEntry D))
    (hnames : (table.map ConfEntry.param_name).Nodup) (hlength : table.length < 0x100000000) :
    ∃ ret table', loc_update_conf num text table = .ok (ret, table') ∧
      (List.Forall₂ (Applied num (tokens '\n' (cString text))) table table' ↔
        ∀ e ∈ table, Reached num table (table.length - 1) (tokens '\n' (cString text)) e) := by
  rw [loc_update_conf]
  by_cases hempty : (text.isEmpty || table.isEmpty) = true
  · rw [if_pos hempty]
    refine ⟨-1, table, rfl, ?_⟩
    rw [Bool.or_eq_true, List.isEmpty_iff, List.isEmpty_iff] at hempty
    rcases hempty with rfl | rfl
    · have hnone : tokens '\n' (cString []) = [] := tokens_nil
      rw [hnone, List.forall₂_same]
      refine ⟨fun _ e _ h => ?_, fun _ e _ => ⟨rfl, rfl, fun h => ?_, fun _ => rfl⟩⟩
      · obtain ⟨line, hmem, -⟩ := h
        exact absurd hmem List.not_mem_nil
      · obtain ⟨line, hmem, -⟩ := h
        exact absurd hmem List.not_mem_nil
    · simp
  · rw [if_neg hempty]
    obtain ⟨rest, hloop⟩ := confLoop_ok num (yields_strtok_r '\n' (cString text))
      ((cString text).length + 1) (table.length - 1) 0 table
      (Nat.lt_succ_of_le (length_tokens_le '\n' (cString text))) (by omega) hnames
    refine ⟨(0 + (looked num table (table.length - 1) (tokens '\n' (cString text))).length : Nat),
      _, ?_, forall₂_applied_iff⟩
    dsimp only
    rw [hloop, ok_bind]

/-- Both ways of reading apply a configuration as it says if every entry that it names is reached,
    and only then. -/
theorem loc_conf_applied_iff (num : NumberParsers D) (text : List Char)
    (table : List (ConfEntry D)) (DEBUG_LEVEL TIMESTAMP : Int)
    (hnames : (table.map ConfEntry.param_name).Nodup) (hlength : table.length < 0x100000000) :
    ((∀ line ∈ fileLines '\n' text, line.length < LOC_MAX_PARAM_LINE) →
      ∃ table' own, loc_read_conf num (some text) table DEBUG_LEVEL TIMESTAMP =
          .ok (table', own) ∧
        (List.Forall₂ (Applied num (fileLines '\n' text)) table table' ↔
          ∀ e ∈ table, Reached num table table.length (fileLines '\n' text) e)) ∧
    ∃ ret table', loc_update_conf num text table = .ok (ret, table') ∧
      (List.Forall₂ (Applied num (tokens '\n' (cString text))) table table' ↔
        ∀ e ∈ table, Reached num table (table.length - 1) (tokens '\n' (cString text)) e) := by
  refine ⟨fun hlines => ?_, loc_update_conf_ok num text table hnames hlength⟩
  obtain ⟨rest, table', hread, hiff⟩ := loc_read_conf_r_ok num text table hlines hnames hlength
  obtain ⟨rest', own, hown, -⟩ := loc_read_conf_r_ok num text
    (loc_param_table DEBUG_LEVEL TIMESTAMP) hlines
    (show ["DEBUG_LEVEL".toList, "TIMESTAMP".toList].Nodup by decide)
    (show 2 < 0x100000000 by decide)
  rw [loc_read_conf]
  cases hempty : table.isEmpty with
  | true =>
    obtain rfl := List.isEmpty_iff.1 hempty
    refine ⟨[], own, ?_, by simp⟩
    simp only [↓reduceIte, ok_bind, hown]
  | false =>
    refine ⟨table', own, ?_, hiff⟩
    simp only [Bool.false_eq_true, ↓reduceIte, hread, ok_bind, hown]

end Read

/-! ## A table of one entry -/

/-- The digits at the start of a string, in base 10. -/
def digitsValue (s : List Char) : Int :=
  (s.takeWhile Char.isDigit).foldl (fun n c => 10 * n + (c.toNat - '0'.toNat : Nat)) 0

/-- Numbers without sign and fraction. -/
def digitParsers : NumberParsers Int := ⟨digitsValue, digitsValue, digitsValue, 0⟩

/-- One parameter, and none of the text is looked at. -/
theorem loc_update_conf_one : ∃ ret table',
    loc_update_conf digitParsers "A=1".toList [⟨"A".toList, some (.int 0), none, .n⟩] =
      .ok (ret, table') ∧
    ¬ List.Forall₂ (Applied digitParsers (tokens '\n' (cString "A=1".toList)))
      [⟨"A".toList, some (.int 0), none, .n⟩] table' := by
  obtain ⟨ret, table', hrun, hiff⟩ := loc_update_conf_ok digitParsers "A=1".toList
    [⟨"A".toList, some (.int 0), none, .n⟩] (by decide) (by decide)
  refine ⟨ret, table', hrun, fun happlied => ?_⟩
  have hlines : tokens '\n' (cString "A=1".toList) = ["A=1".toList] := by decide
  have hparse : parseConfItem digitParsers "A=1".toList =
      some ⟨"A".toList, "1".toList, 1, 1⟩ := by rfl
  rw [hlines] at hiff happlied
  rcases hiff.1 happlied _ (List.mem_singleton_self _)
      ⟨_, List.mem_singleton_self _, _, hparse, rfl⟩ with ⟨-, before, -, -, -, -, hcount⟩ | hholds
  · exact absurd hcount (Nat.not_lt_zero _)
  · obtain ⟨line, hmem, v, value, hv, -, hvalue, hptr⟩ := hholds
    rw [List.mem_singleton.1 hmem, hparse] at hv
    cases hv
    cases hvalue
    exact absurd (Option.some.inj hptr) (by decide)

def twoEntries : List (ConfEntry Int) :=
  [⟨"A".toList, some (.int 0), some false, .n⟩, ⟨"B".toList, some (.str []), none, .s⟩]

def twoLines : List Char := "A = 0x1\nB=x\n".toList

theorem loc_conf_applied_iff_two :
    (∃ table' own, loc_read_conf digitParsers (some twoLines) twoEntries 255 0 =
        .ok (table', own) ∧
      (List.Forall₂ (Applied digitParsers (fileLines '\n' twoLines)) twoEntries table' ↔
        ∀ e ∈ twoEntries, Reached digitParsers twoEntries 2 (fileLines '\n' twoLines) e)) ∧
    ∃ ret table', loc_update_conf digitParsers twoLines twoEntries = .ok (ret, table') ∧
      (List.Forall₂ (Applied digitParsers (tokens '\n' (cString twoLines))) twoEntries table' ↔
        ∀ e ∈ twoEntries, Reached digitParsers twoEntries 1 (tokens '\n' (cString twoLines)) e) :=
  have h := loc_conf_applied_iff digitParsers twoLines twoEntries 255 0 (by decide) (by decide)
  ⟨h.1 (by decide), h.2⟩

end Nx508j.Loc
