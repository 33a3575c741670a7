import Mathlib.Data.List.Forall2

/-!
# Comma-separated values

The format of RFC 4180, with rows ended by LF. A field is either bare, without
commas, quotes and line breaks, or quoted, with its quotes doubled. The reader
goes over the text once and gives the rows, or nothing if the text is malformed.
-/

set_option autoImplicit false

namespace FreeDV.Lib.Csv

def COMMA : UInt8 := 44

def DQUOTE : UInt8 := 34

def CR : UInt8 := 13

def LF : UInt8 := 10

/-- What a bare field cannot hold. -/
def isSpecial (c : UInt8) : Bool := c == COMMA || c == DQUOTE || c == CR || c == LF

/-! ## Reading -/

inductive Mode where
  | fieldStart
  | bare
  | quoted
  | quoteSeen
deriving DecidableEq

structure Reader where
  rows : List (List (List UInt8))
  /-- The fields of the row under way that are complete. -/
  row : List (List UInt8)
  field : List UInt8
  mode : Mode

def Reader.put (r : Reader) (c : UInt8) (mode : Mode) : Reader :=
  { r with field := r.field ++ [c], mode := mode }

def Reader.endField (r : Reader) : Reader :=
  { r with row := r.row ++ [r.field], field := [], mode := .fieldStart }

def Reader.endRow (r : Reader) : Reader :=
  { rows := r.rows ++ [r.row ++ [r.field]], row := [], field := [], mode := .fieldStart }

/-- The next character. Behind a quoted field only a separator may follow, and a bare field holds
no quote and no CR. -/
def Reader.step (r : Reader) (c : UInt8) : Option Reader :=
  match r.mode with
  | .quoted => some (if c = DQUOTE then { r with mode := .quoteSeen } else r.put c .quoted)
  | .fieldStart =>
      if c = COMMA then some r.endField
      else if c = LF then some r.endRow
      else if c = DQUOTE then some { r with mode := .quoted }
      else if c = CR then none
      else some (r.put c .bare)
  | .bare =>
      if c = COMMA then some r.endField
      else if c = LF then some r.endRow
      else if c = DQUOTE ∨ c = CR then none
      else some (r.put c .bare)
  | .quoteSeen =>
      if c = COMMA then some r.endField
      else if c = LF then some r.endRow
      else if c = DQUOTE then some (r.put c .quoted)
      else none

/-- At the start of a row. -/
def Reader.atRow (rows : List (List (List UInt8))) : Reader := ⟨rows, [], [], .fieldStart⟩

/-- The rows of a text all of whose rows are ended. -/
def parse (text : List UInt8) : Option (List (List (List UInt8))) :=
  match text.foldlM Reader.step (.atRow []) with
  | none => none
  | some r => if r.mode = .fieldStart ∧ r.row = [] then some r.rows else none

/-! ## Fields -/

variable {r : Reader} {text value : List UInt8}

/-- A reader at the start of a field has read the value behind the text, and a separator may
follow. -/
def Encodes (text value : List UInt8) : Prop :=
  ∀ r : Reader, r.mode = .fieldStart → r.field = [] →
    ∃ mode, mode ≠ .quoted ∧ text.foldlM Reader.step r = some { r with field := value, mode := mode }

theorem Reader.step_comma (separated : r.mode ≠ .quoted) : r.step COMMA = some r.endField := by
  unfold Reader.step
  cases mode : r.mode with
  | quoted => exact absurd mode separated
  | fieldStart => rfl
  | bare => rfl
  | quoteSeen => rfl

theorem Reader.step_lf (separated : r.mode ≠ .quoted) : r.step LF = some r.endRow := by
  unfold Reader.step
  cases mode : r.mode with
  | quoted => exact absurd mode separated
  | fieldStart => rfl
  | bare => rfl
  | quoteSeen => rfl

theorem Reader.step_plain {c : UInt8} (plain : isSpecial c = false)
    (outside : r.mode = .fieldStart ∨ r.mode = .bare) : r.step c = some (r.put c .bare) := by
  simp only [isSpecial, Bool.or_eq_false_iff, beq_eq_false_iff_ne] at plain
  obtain ⟨⟨⟨comma, quote⟩, cr⟩, lf⟩ := plain
  unfold Reader.step
  rcases outside with mode | mode
  · simp only [mode, if_neg comma, if_neg quote, if_neg cr, if_neg lf]
  · simp only [mode, if_neg comma, if_neg lf, if_neg (not_or.mpr ⟨quote, cr⟩)]

theorem foldlM_plain (plain : ∀ c ∈ text, isSpecial c = false)
    (outside : r.mode = .fieldStart ∨ r.mode = .bare) :
    ∃ mode, mode ≠ .quoted ∧
      text.foldlM Reader.step r = some { r with field := r.field ++ text, mode := mode } := by
  induction text generalizing r with
  | nil =>
      refine ⟨r.mode, ?_, by simp⟩
      rcases outside with mode | mode <;> simp [mode]
  | cons c rest ih =>
      obtain ⟨first, later⟩ := List.forall_mem_cons.mp plain
      obtain ⟨mode, separated, read⟩ := @ih (r.put c .bare) later (.inr rfl)
      refine ⟨mode, separated, ?_⟩
      rw [List.foldlM_cons, Reader.step_plain first outside]
      simpa [Reader.put] using read

/-- A bare field stands for itself. -/
theorem encodes_bare (plain : ∀ c ∈ value, isSpecial c = false) : Encodes value value := by
  intro r start empty
  obtain ⟨mode, separated, read⟩ := foldlM_plain plain (.inl start)
  rw [empty, List.nil_append] at read
  exact ⟨mode, separated, read⟩

/-- The quotes of a quoted field are doubled. -/
def doubled (value : List UInt8) : List UInt8 :=
  value.flatMap fun c => if c = DQUOTE then [DQUOTE, DQUOTE] else [c]

theorem foldlM_doubled (inside : r.mode = .quoted) :
    (doubled value).foldlM Reader.step r = some { r with field := r.field ++ value } := by
  induction value generalizing r with
  | nil => simp [doubled]
  | cons c rest ih =>
      have step : (if c = DQUOTE then [DQUOTE, DQUOTE] else [c]).foldlM Reader.step r =
          some (r.put c .quoted) := by
        by_cases quote : c = DQUOTE
        · subst quote
          simp [Reader.step, inside, Reader.put, DQUOTE, COMMA, LF]
        · simp [Reader.step, inside, quote]
      have later : (doubled rest).foldlM Reader.step (r.put c .quoted) = _ := ih rfl
      rw [doubled, List.flatMap_cons, List.foldlM_append, step]
      rw [doubled] at later
      simpa [Reader.put, inside] using later

/-- A quoted field stands for what is between its quotes. -/
theorem encodes_quoted (value : List UInt8) :
    Encodes (DQUOTE :: (doubled value ++ [DQUOTE])) value := by
  intro r start empty
  have opened : r.step DQUOTE = some { r with mode := .quoted } := by
    simp [Reader.step, start, DQUOTE, COMMA, LF]
  have read : (doubled value).foldlM Reader.step { r with mode := .quoted } = _ :=
    foldlM_doubled rfl
  refine ⟨.quoteSeen, by decide, ?_⟩
  rw [List.foldlM_cons, opened, Option.bind_eq_bind, Option.bind_some, List.foldlM_append, read]
  simp [Reader.step, empty]

/-! ## Rows -/

/-- The text of a row, from the texts of its fields. -/
def rowText : List (List UInt8) → List UInt8
  | [] => [LF]
  | [field] => field ++ [LF]
  | field :: next :: rest => field ++ COMMA :: rowText (next :: rest)

theorem foldlM_row {texts values : List (List UInt8)} (nonempty : texts ≠ [])
    (encode : List.Forall₂ Encodes texts values) (start : r.mode = .fieldStart)
    (empty : r.field = []) :
    (rowText texts).foldlM Reader.step r = some (.atRow (r.rows ++ [r.row ++ values])) := by
  induction encode generalizing r with
  | nil => exact absurd rfl nonempty
  | cons first later ih =>
      obtain ⟨mode, separated, read⟩ := first r start empty
      cases later with
      | nil =>
          rw [rowText, List.foldlM_append, read, Option.bind_eq_bind, Option.bind_some,
            List.foldlM_cons, Reader.step_lf separated]
          rfl
      | cons second later =>
          rw [rowText, List.foldlM_append, read, Option.bind_eq_bind, Option.bind_some,
            List.foldlM_cons, Reader.step_comma separated, Option.bind_eq_bind, Option.bind_some,
            ih (by simp) rfl rfl]
          simp [Reader.endField]

theorem foldlM_rows {texts values : List (List (List UInt8))}
    (nonempty : ∀ row ∈ texts, row ≠ [])
    (encode : List.Forall₂ (List.Forall₂ Encodes) texts values)
    (rows : List (List (List UInt8))) :
    (texts.flatMap rowText).foldlM Reader.step (.atRow rows) = some (.atRow (rows ++ values)) := by
  induction encode generalizing rows with
  | nil => simp
  | cons first later ih =>
      obtain ⟨row, others⟩ := List.forall_mem_cons.mp nonempty
      rw [List.flatMap_cons, List.foldlM_append, foldlM_row row first rfl rfl,
        Option.bind_eq_bind, Option.bind_some, ih others]
      simp [Reader.atRow]

/-- A text made of rows is read as their values. -/
theorem parse_rows {texts values : List (List (List UInt8))}
    (nonempty : ∀ row ∈ texts, row ≠ [])
    (encode : List.Forall₂ (List.Forall₂ Encodes) texts values) :
    parse (texts.flatMap rowText) = some values := by
  rw [parse, foldlM_rows nonempty encode]
  exact if_pos ⟨rfl, rfl⟩

end FreeDV.Lib.Csv
