import FreeDV.Reporting.CsvReporter

/-!
# What is in the CSV log

Every field is read back as the value it was written for, whatever characters it
holds. Over any number of reporters the log is the header and one row for each
record, and no more than the header ever waits in a stream.
-/

set_option autoImplicit false

namespace FreeDV.Reporting.CsvReporter

open Lib

/-! ## Reading numbers -/

def readDigit (number : Nat) (c : UInt8) : Option Nat :=
  if 48 ≤ c ∧ c ≤ 57 then some (10 * number + (c.toNat - 48)) else none

/-- A number without a sign. -/
def readDecimal (text : List UInt8) : Option Nat :=
  if text = [] then none else text.foldlM readDigit 0

/-- A number that may have a minus sign. -/
def readDecimalInt (text : List UInt8) : Option Int :=
  match text with
  | 45 :: digits => (readDecimal digits).map fun number : Nat => -(number : Int)
  | digits => (readDecimal digits).map fun number : Nat => (number : Int)

theorem toNat_digit (n : Nat) : (digit n).toNat = 48 + n % 10 := by
  rw [digit, UInt8.toNat_ofNat']
  exact Nat.mod_eq_of_lt (by omega)

theorem readDigit_digit (number n : Nat) :
    readDigit number (digit n) = some (10 * number + n % 10) := by
  have range : 48 ≤ digit n ∧ digit n ≤ 57 := by
    rw [UInt8.le_iff_toNat_le, UInt8.le_iff_toNat_le, toNat_digit]
    exact ⟨Nat.le_add_right 48 _, show 48 + n % 10 ≤ 57 by omega⟩
  rw [readDigit, if_pos range, toNat_digit, Nat.add_sub_cancel_left]

theorem foldlM_decimal (n : Nat) : (decimal n).foldlM readDigit 0 = some n := by
  fun_induction decimal n with
  | case1 n small => simp [readDigit_digit, Nat.mod_eq_of_lt small]
  | case2 n large ih =>
      rw [List.foldlM_append, ih]
      simp only [Option.bind_eq_bind, Option.bind_some, List.foldlM_cons, List.foldlM_nil,
        readDigit_digit]
      exact congrArg some (Nat.div_add_mod n 10)

theorem decimal_ne_nil (n : Nat) : decimal n ≠ [] := by
  rw [decimal]
  split
  · exact List.cons_ne_nil _ _
  · exact List.append_ne_nil_of_right_ne_nil _ (List.cons_ne_nil _ _)

theorem readDecimal_decimal (n : Nat) : readDecimal (decimal n) = some n := by
  rw [readDecimal, if_neg (decimal_ne_nil n), foldlM_decimal]

theorem le_digit (n : Nat) : 48 ≤ digit n := by
  rw [UInt8.le_iff_toNat_le, toNat_digit]
  exact Nat.le_add_right 48 _

theorem le_of_mem_decimal (n : Nat) : ∀ c ∈ decimal n, 48 ≤ c := by
  fun_induction decimal n with
  | case1 n small => simp [le_digit]
  | case2 n large ih =>
      intro c member
      rcases List.mem_append.mp member with earlier | last
      · exact ih c earlier
      · rw [List.mem_singleton.mp last]
        exact le_digit n

theorem readDecimalInt_decimalInt (n : Int) : readDecimalInt (decimalInt n) = some n := by
  rw [decimalInt]
  split
  · rename_i negative
    have minus : ascii "-" ++ decimal n.natAbs = 45 :: decimal n.natAbs := rfl
    rw [minus, readDecimalInt, readDecimal_decimal, Option.map_some]
    exact congrArg some (by omega)
  · rename_i positive
    have same : (n.natAbs : Int) = n := by omega
    cases text : decimal n.natAbs with
    | nil => exact absurd text (decimal_ne_nil _)
    | cons c rest =>
        have large : c ≠ 45 := by
          rintro rfl
          have bound := le_of_mem_decimal n.natAbs 45 (by rw [text]; exact List.mem_cons_self)
          exact absurd bound (by decide)
        have read := readDecimal_decimal n.natAbs
        rw [text] at read
        rw [readDecimalInt, read, Option.map_some, same]
        intro digits separated
        exact large (List.cons.inj separated).1

/-! ## Fields -/

/-- Everything from the minus sign on is written as it is. -/
theorem encodes_of_le {text : List UInt8} (bound : ∀ c ∈ text, 45 ≤ c) : Csv.Encodes text text := by
  apply Csv.encodes_bare
  intro c member
  have large := bound c member
  simp only [Csv.isSpecial, Bool.or_eq_false_iff, beq_eq_false_iff_ne]
  refine ⟨⟨⟨?_, ?_⟩, ?_⟩, ?_⟩ <;> rintro rfl <;> exact absurd large (by decide)

theorem le_of_mem_decimalInt (n : Int) : ∀ c ∈ decimalInt n, 45 ≤ c := by
  have digits : ∀ c ∈ decimal n.natAbs, 45 ≤ c := fun c member =>
    UInt8.le_trans (by decide) (le_of_mem_decimal n.natAbs c member)
  rw [decimalInt]
  split
  · exact List.forall_mem_cons.mpr ⟨UInt8.le_refl 45, digits⟩
  · exact digits

theorem le_of_mem_twoDigits (n : Nat) : ∀ c ∈ twoDigits n, 45 ≤ c := by
  have bound : ∀ k, 45 ≤ digit k := fun k => UInt8.le_trans (by decide) (le_digit k)
  simp [twoDigits, bound]

theorem encodes_date (tm : Tm) : Csv.Encodes tm.date tm.date := by
  apply encodes_of_le
  intro c member
  simp only [Tm.date, List.mem_append] at member
  rcases member with (((year | dash) | month) | dash) | day
  · exact le_of_mem_decimalInt _ c year
  · exact (List.mem_singleton.mp dash) ▸ UInt8.le_refl 45
  · exact le_of_mem_twoDigits _ c month
  · exact (List.mem_singleton.mp dash) ▸ UInt8.le_refl 45
  · exact le_of_mem_twoDigits _ c day

theorem encodes_time (tm : Tm) : Csv.Encodes tm.time tm.time := by
  have colon : (45 : UInt8) ≤ 58 := by decide
  apply encodes_of_le
  intro c member
  simp only [Tm.time, List.mem_append] at member
  rcases member with (((hour | between) | minute) | between) | second
  · exact le_of_mem_twoDigits _ c hour
  · exact (List.mem_singleton.mp between) ▸ colon
  · exact le_of_mem_twoDigits _ c minute
  · exact (List.mem_singleton.mp between) ▸ colon
  · exact le_of_mem_twoDigits _ c second

/-- Whatever a string holds, the field written for it is read as that string. -/
theorem encodes_csvField (value : List UInt8) : Csv.Encodes (csvField value) value := by
  have loop : ∀ (rest quoted : List UInt8), rest.foldl
      (fun quoted c => (if c = Csv.DQUOTE then quoted ++ [Csv.DQUOTE] else quoted) ++ [c])
      quoted = quoted ++ Csv.doubled rest := by
    intro rest
    induction rest with
    | nil => simp [Csv.doubled]
    | cons c rest ih =>
        intro quoted
        rw [List.foldl_cons, ih]
        by_cases quote : c = Csv.DQUOTE <;> simp [Csv.doubled, quote]
  rw [csvField]
  split
  · rename_i plain
    exact Csv.encodes_bare (by simpa using plain)
  · rw [loop]
    exact Csv.encodes_quoted value

/-! ## Rows -/

def headerRow : List (List UInt8) :=
  [ascii "date", ascii "time", ascii "callsign", ascii "mode", ascii "frequency_hz",
    ascii "snr_db"]

theorem header_eq : header = Csv.rowText headerRow := by
  decide

/-- The texts of the fields of a record. -/
def Call.fields (call : Call) : List (List UInt8) :=
  [call.now.date, call.now.time, csvField call.callsign, csvField call.mode,
    decimal call.frequency.toNat, decimalInt call.snr.toInt]

/-- What a reader finds in them. -/
def Call.row (call : Call) : List (List UInt8) :=
  [call.now.date, call.now.time, call.callsign, call.mode, decimal call.frequency.toNat,
    decimalInt call.snr.toInt]

theorem Call.text_eq (call : Call) : call.text = Csv.rowText call.fields := by
  have comma : ascii "," = [Csv.COMMA] := by decide
  have lf : ascii "\n" = [Csv.LF] := by decide
  simp [Call.text, Call.fields, Csv.rowText, comma, lf]

theorem Call.encodes_fields (call : Call) : List.Forall₂ Csv.Encodes call.fields call.row := by
  have frequency : ∀ c ∈ decimal call.frequency.toNat, 45 ≤ c := fun c member =>
    UInt8.le_trans (by decide) (le_of_mem_decimal _ c member)
  exact .cons (encodes_date _) <| .cons (encodes_time _) <| .cons (encodes_csvField _) <|
    .cons (encodes_csvField _) <| .cons (encodes_of_le frequency) <|
    .cons (encodes_of_le (le_of_mem_decimalInt _)) .nil

theorem encodes_headerRow : List.Forall₂ Csv.Encodes headerRow headerRow := by
  rw [List.forall₂_same]
  have letters : headerRow.all (fun field => field.all fun c => 45 ≤ c) = true := by decide
  intro field member
  apply encodes_of_le
  intro c inside
  exact of_decide_eq_true (List.all_eq_true.mp (List.all_eq_true.mp letters field member) c inside)

/-- The header and the rows of some records are read as such. -/
theorem parse_log (calls : List Call) :
    Csv.parse (header ++ calls.flatMap Call.text) = some (headerRow :: calls.map Call.row) := by
  have text : header ++ calls.flatMap Call.text =
      (headerRow :: calls.map Call.fields).flatMap Csv.rowText := by
    rw [List.flatMap_cons, List.flatMap_map, header_eq, funext Call.text_eq]
  rw [text]
  apply Csv.parse_rows
  · simp [headerRow, Call.fields]
  · refine .cons encodes_headerRow ?_
    rw [List.forall₂_map_left_iff, List.forall₂_map_right_iff, List.forall₂_same]
    exact fun call _ => call.encodes_fields

/-! ## Runs -/

/-- Every file can be opened. -/
def Opens (_ : State) : Action → Prop
  | .construct opens => opens = true
  | _ => True

instance (s : State) (action : Action) : Decidable (Opens s action) := by
  cases action <;> unfold Opens <;> infer_instance

/-- Before the first reporter there is nothing. After it, the log is complete up to what the stream
holds, and this can only be the header. -/
structure Logged (s : State) : Prop where
  unused : s.constructions = 0 → s.content = [] ∧ s.reporter = none ∧ s.calls = []
  complete : 0 < s.constructions → s.content ++ s.buffered = header ++ s.calls.flatMap Call.text
  opened : ∀ file_, s.reporter = some file_ → file_.isOpen = true
  flushed : s.reporter = none ∨ s.calls ≠ [] → s.buffered = []

theorem Logged.initial {file : Option (List UInt8)} (absent : file.getD [] = []) :
    Logged (State.initial file) where
  unused _ := ⟨absent, rfl, rfl⟩
  complete constructed := absurd constructed (Nat.lt_irrefl 0)
  opened _ none := by cases none
  flushed _ := rfl

theorem Logged.construct {s : State} (h : Logged s) (closed : s.reporter = none) :
    Logged (construct s true) := by
  have buffered : s.buffered = [] := h.flushed (.inl closed)
  have nonempty : ∀ rest, (header ++ rest).length ≠ 0 := by
    intro rest
    rw [List.length_append, header_eq]
    exact Nat.ne_of_gt (Nat.lt_of_lt_of_le (by decide) (Nat.le_add_right _ _))
  rcases Nat.eq_zero_or_pos s.constructions with first | later
  · -- the file is empty, and the header waits in the stream
    obtain ⟨content, -, calls⟩ := h.unused first
    have result : CsvReporter.construct s true =
        { s with file := some [], reporter := some ⟨true, header⟩, constructions := 1 } := by
      simp [CsvReporter.construct, content, first]
    rw [result]
    exact {
      unused := fun none => absurd none Nat.one_ne_zero
      complete := fun _ => by simp [State.content, State.buffered, calls]
      opened := fun _ same => by cases same; rfl
      flushed := by
        rintro (none | some)
        · cases none
        · exact absurd calls some }
  · have content := h.complete later
    rw [buffered, List.append_nil] at content
    have result : CsvReporter.construct s true =
        { s with
          file := some s.content
          reporter := some ⟨true, []⟩
          constructions := s.constructions + 1 } := by
      simp only [CsvReporter.construct, if_true, if_neg (content ▸ nonempty _)]
    rw [result]
    exact {
      unused := fun none => absurd none (Nat.succ_ne_zero _)
      complete := fun _ => by simpa [State.content, State.buffered] using content
      opened := fun _ same => by cases same; rfl
      flushed := fun _ => rfl }

theorem Logged.constructed {s : State} (h : Logged s) {file_ : Ofstream}
    (alive : s.reporter = some file_) : 0 < s.constructions := by
  apply Nat.pos_of_ne_zero
  intro none
  have closed := (h.unused none).2.1
  rw [alive] at closed
  cases closed

theorem Logged.addReceiveRecord {s : State} (h : Logged s) {file_ : Ofstream}
    (alive : s.reporter = some file_) (call : Call) : Logged (addReceiveRecord s file_ call) := by
  have constructed := h.constructed alive
  have complete := h.complete constructed
  have buffered : s.buffered = file_.buffer := by rw [State.buffered, alive]; rfl
  rw [buffered] at complete
  rw [CsvReporter.addReceiveRecord, if_pos (h.opened file_ alive)]
  exact {
    unused := fun none => absurd none (Nat.ne_of_gt constructed)
    complete := fun _ => by
      simp only [State.content, State.buffered, Option.getD_some, Option.elim_some,
        List.append_nil, List.flatMap_append, List.flatMap_singleton]
      rw [← List.append_assoc, ← List.append_assoc, ← complete]
      rfl
    opened := fun _ same => by cases same; exact h.opened file_ alive
    flushed := fun _ => rfl }

theorem Logged.destroy {s : State} (h : Logged s) {file_ : Ofstream}
    (alive : s.reporter = some file_) : Logged (destroy s file_) := by
  have constructed := h.constructed alive
  have complete := h.complete constructed
  have buffered : s.buffered = file_.buffer := by rw [State.buffered, alive]; rfl
  rw [buffered] at complete
  rw [CsvReporter.destroy, if_pos (h.opened file_ alive)]
  exact {
    unused := fun none => absurd none (Nat.ne_of_gt constructed)
    complete := fun _ => (List.append_nil _).trans complete
    opened := fun _ same => by cases same
    flushed := fun _ => rfl }

theorem Logged.next {s after : State} (h : Logged s) {action : Action} (opens : Opens s action)
    (taken : next s action = some after) : Logged after := by
  unfold CsvReporter.next at taken
  split at taken
  · rename_i closed
    cases opens
    cases taken
    exact h.construct closed
  · rename_i alive
    cases taken
    exact h.addReceiveRecord alive _
  · rename_i alive
    cases taken
    exact h.destroy alive
  · cases taken

/-- The fields of a row, numbers as such. -/
def Logs (call : Call) (row : List (List UInt8)) : Prop :=
  ∃ date time frequency snr,
    row = [date, time, call.callsign, call.mode, frequency, snr] ∧
      readDecimal frequency = some call.frequency.toNat ∧
      readDecimalInt snr = some call.snr.toInt

theorem Call.logs_row (call : Call) : Logs call call.row :=
  ⟨_, _, _, _, rfl, readDecimal_decimal _, readDecimalInt_decimalInt _⟩

theorem not_logs_headerRow (call : Call) : ¬ Logs call headerRow := by
  rintro ⟨date, time, frequency, snr, same, number, -⟩
  have text : frequency = ascii "frequency_hz" := by
    simp only [headerRow, List.cons.injEq] at same
    exact same.2.2.2.2.1.symm
  rw [text] at number
  have unread : readDecimal (ascii "frequency_hz") = none := by decide
  rw [unread] at number
  cases number

/-- From an absent or empty file on, over any reporters and records, the log holds the header, once
and first, and one row for each record in the order of the calls. All of it is in the file unless
the first reporter has not seen a record yet. -/
theorem log_round_trip {file : Option (List UInt8)} (absent : file.getD [] = []) {s : State}
    (reachable : Reachable next Opens (State.initial file) s) (constructed : 0 < s.constructions) :
    (∃ rows, Csv.parse (s.content ++ s.buffered) = some (headerRow :: rows) ∧
      List.Forall₂ Logs s.calls rows ∧ headerRow ∉ rows) ∧
    (s.reporter = none ∨ s.calls ≠ [] → s.buffered = []) := by
  have logged : Logged s := reachable.invariant Logged (Logged.initial absent)
    fun _ _ _ h opens taken => h.next opens taken
  refine ⟨⟨s.calls.map Call.row, ?_, ?_, ?_⟩, logged.flushed⟩
  · rw [logged.complete constructed]
    exact parse_log s.calls
  · rw [List.forall₂_map_right_iff, List.forall₂_same]
    exact fun call _ => call.logs_row
  · intro member
    obtain ⟨call, -, same⟩ := List.mem_map.mp member
    exact not_logs_headerRow call (same ▸ call.logs_row)

/-- Two reporters; the second record has a comma, a quote and a line break in its callsign. -/
theorem log_round_trip_of_two_reporters :
    ∃ s, Reachable next Opens (State.initial none) s ∧ s.constructions = 2 ∧ s.calls.length = 2 ∧
      s.content = header ++
        ascii "2025-01-31,09:05:59,K1ABC,RADEV1,14236000,-3\n" ++
        ascii "2025-02-01,00:00:00,\"A,\"\"\n\",,18446744073709551615,127\n" ∧
      (∃ rows, Csv.parse (s.content ++ s.buffered) = some (headerRow :: rows) ∧
        List.Forall₂ Logs s.calls rows ∧ headerRow ∉ rows) ∧ s.buffered = [] := by
  let first : Call := ⟨ascii "K1ABC", ascii "RADEV1", 14236000, -3, ⟨2025, 1, 31, 9, 5, 59⟩⟩
  let second : Call :=
    ⟨ascii "A,\"\n", [], 18446744073709551615, 127, ⟨2025, 2, 1, 0, 0, 0⟩⟩
  have executed :
      (runActions next Opens (State.initial none)
        [.construct true, .addReceiveRecord first, .destroy, .construct true,
          .addReceiveRecord second]).map
        (fun s => (s.constructions, s.calls.length, s.content)) =
      some (2, 2, header ++
        ascii "2025-01-31,09:05:59,K1ABC,RADEV1,14236000,-3\n" ++
        ascii "2025-02-01,00:00:00,\"A,\"\"\n\",,18446744073709551615,127\n") := by
    decide +kernel
  obtain ⟨s, run, result⟩ := Option.map_eq_some_iff.mp executed
  obtain ⟨constructions, rest⟩ := Prod.mk.inj result
  obtain ⟨calls, content⟩ := Prod.mk.inj rest
  have reachable : Reachable next Opens (State.initial none) s :=
    Reachable.start.of_runActions _ run
  obtain ⟨parsed, flushed⟩ := log_round_trip rfl reachable (by omega)
  refine ⟨s, reachable, constructions, calls, content, parsed, flushed (.inr ?_)⟩
  intro none
  rw [none] at calls
  cases calls

end FreeDV.Reporting.CsvReporter
