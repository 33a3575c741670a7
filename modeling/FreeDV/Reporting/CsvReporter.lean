import FreeDV.Lib.Csv
import FreeDV.Lib.Transition

/-!
# The CSV log

`CsvReporter` appends a row to a log file for each callsign that was received,
and a header to a file that is new. The stream keeps what it is given until it is
flushed or closed. Strings are their bytes. `constructions` and `calls` record
what the application did and are not read.
-/

set_option autoImplicit false

namespace FreeDV.Reporting.CsvReporter

open Lib

/-! ## Formatting -/

/-- The bytes of a literal. -/
def ascii (text : String) : List UInt8 := text.toList.map fun c => UInt8.ofNat c.toNat

/-- Quotes a field if it contains a comma, quote or line break. -/
def csvField (value : List UInt8) : List UInt8 :=
  if value.all fun c => !Csv.isSpecial c then value
  else
    let quoted := value.foldl
      (fun quoted c => (if c = Csv.DQUOTE then quoted ++ [Csv.DQUOTE] else quoted) ++ [c])
      [Csv.DQUOTE]
    quoted ++ [Csv.DQUOTE]

def digit (n : Nat) : UInt8 := UInt8.ofNat (48 + n % 10)

/-- `<<` of an unsigned number. -/
def decimal (n : Nat) : List UInt8 :=
  if n < 10 then [digit n] else decimal (n / 10) ++ [digit n]

/-- `<<` of a signed number. -/
def decimalInt (n : Int) : List UInt8 :=
  if n < 0 then ascii "-" ++ decimal n.natAbs else decimal n.natAbs

def twoDigits (n : Nat) : List UInt8 := [digit (n / 10), digit n]

/-- What `gmtime_r` fills in. -/
structure Tm where
  year : Int
  month : Nat
  day : Nat
  hour : Nat
  minute : Nat
  second : Nat

/-- `strftime` with `%Y-%m-%d`. -/
def Tm.date (tm : Tm) : List UInt8 :=
  decimalInt tm.year ++ ascii "-" ++ twoDigits tm.month ++ ascii "-" ++ twoDigits tm.day

/-- `strftime` with `%H:%M:%S`. -/
def Tm.time (tm : Tm) : List UInt8 :=
  twoDigits tm.hour ++ ascii ":" ++ twoDigits tm.minute ++ ascii ":" ++ twoDigits tm.second

/-! ## The reporter and its file -/

def header : List UInt8 := ascii "date,time,callsign,mode,frequency_hz,snr_db\n"

/-- A call of `addReceiveRecord`, and the time at which it is made. -/
structure Call where
  callsign : List UInt8
  mode : List UInt8
  frequency : UInt64
  snr : Int8
  now : Tm

def Call.text (call : Call) : List UInt8 :=
  call.now.date ++ ascii "," ++
    call.now.time ++ ascii "," ++
    csvField call.callsign ++ ascii "," ++
    csvField call.mode ++ ascii "," ++
    decimal call.frequency.toNat ++ ascii "," ++
    decimalInt call.snr.toInt ++ ascii "\n"

/-- `file_`: what is not written out yet is in its buffer. -/
structure Ofstream where
  isOpen : Bool
  buffer : List UInt8

structure State where
  /-- The log file, if there is one. -/
  file : Option (List UInt8)
  /-- The reporter that is alive. -/
  reporter : Option Ofstream
  constructions : Nat
  calls : List Call

def State.content (s : State) : List UInt8 := s.file.getD []

/-- What is still to be written out. -/
def State.buffered (s : State) : List UInt8 := s.reporter.elim [] Ofstream.buffer

def State.initial (file : Option (List UInt8)) : State := ⟨file, none, 0, []⟩

/-- The constructor; `opens` is whether the file could be opened for appending. -/
def construct (s : State) (opens : Bool) : State :=
  if opens then
    -- `tellp` at the end of the file
    let buffer := if s.content.length = 0 then header else []
    { s with
      file := some s.content
      reporter := some ⟨true, buffer⟩
      constructions := s.constructions + 1 }
  else { s with reporter := some ⟨false, []⟩, constructions := s.constructions + 1 }

def addReceiveRecord (s : State) (file_ : Ofstream) (call : Call) : State :=
  if file_.isOpen then
    { s with
      file := some (s.content ++ (file_.buffer ++ call.text))
      reporter := some { file_ with buffer := [] }
      calls := s.calls ++ [call] }
  else { s with calls := s.calls ++ [call] }

/-- The destructor, which closes the stream. -/
def destroy (s : State) (file_ : Ofstream) : State :=
  if file_.isOpen then { s with file := some (s.content ++ file_.buffer), reporter := none }
  else { s with reporter := none }

inductive Action where
  | construct (opens : Bool)
  | addReceiveRecord (call : Call)
  | destroy

/-- One reporter at a time. -/
def next (s : State) (action : Action) : Option State :=
  match action, s.reporter with
  | .construct opens, none => some (construct s opens)
  | .addReceiveRecord call, some file_ => some (addReceiveRecord s file_ call)
  | .destroy, some file_ => some (destroy s file_)
  | _, _ => none

end FreeDV.Reporting.CsvReporter
