import FreeDV.Util.GenericFifo

/-!
# TapStep

The audio thread hands its samples on unchanged and copies them into a FIFO; a
thread of its own takes blocks of 10 ms out of it and gives them to the tapped
step. A step is one atomic access, one semaphore operation or one call of the
tapped step, with the local work behind it; the accesses that the FIFO makes
are steps of the FIFO. Counters stay within `int`, and the semaphore counts as
the one of POSIX does.
-/

set_option autoImplicit false

namespace FreeDV.Pipeline.TapStep

open FreeDV.Util
open FreeDV.Util.GenericFifo (Pos computeUsed writeReturn readReturn)

/-- A nonnegative `int` as a `float`: 24 significant bits, ties to even. -/
def toFloat (value : Nat) : Nat :=
  let unit := 2 ^ (value.log2 - 23)
  let quotient := value / unit
  let rest := value % unit
  if unit < 2 * rest ∨ 2 * rest = unit ∧ quotient % 2 = 1 then (quotient + 1) * unit
  else quotient * unit

/-- `sampleRate * 0.25f` as the FIFO's constructor gets it. -/
def fifoLength (sampleRate : Nat) : Nat := toFloat sampleRate / 4

/-! ## Threads -/

/-- The locals of `execute`; `tmpInputSamples` is an offset into `inputSamples`. -/
structure Call where
  inputSamples : List Int16
  numOutputSamples : Nat
  tmpInputSamples : Nat
  numInputSamples : Nat
  samplesDropped : Nat
deriving DecidableEq

def Call.start (inputSamples : List Int16) : Call where
  inputSamples := inputSamples
  numOutputSamples := inputSamples.length
  tmpInputSamples := 0
  numInputSamples := inputSamples.length
  samplesDropped := 0

/-- The samples that are written next. -/
def Call.piece (call : Call) (samplesToRead : Nat) : List Int16 :=
  (call.inputSamples.drop call.tmpInputSamples).take samplesToRead

/-- The rest of the loop body, behind a `write` that returned `value`. -/
def Call.advance (call : Call) (samplesToRead : Nat) (value : Int) : Call :=
  { call with
    samplesDropped :=
      if value ≠ 0 then call.samplesDropped + samplesToRead else call.samplesDropped
    tmpInputSamples := call.tmpInputSamples + samplesToRead
    numInputSamples := call.numInputSamples - samplesToRead }

/-- Where the audio thread is in `execute`. -/
inductive Audio where
  | idle
  | write (call : Call) (samplesToRead : Nat)
  | loadPin (call : Call)
  | loadPout (call : Call) (ppin : Pos)
  | signal (call : Call)
  | addSamples (call : Call)
  | addDrops (call : Call)
deriving DecidableEq

/-- Where the tap thread is; `last` says that it has left its loop. -/
inductive Tap where
  | loadEnding
  | loadPin (last : Bool)
  | loadPout (last : Bool) (ppin : Pos)
  | read (last : Bool)
  | execute (last : Bool)
  | executing (last : Bool)
  | exchangeDrops (last : Bool)
  | exchangeSamples (last : Bool) (drops : Nat)
  | wait
  | finished
deriving DecidableEq

inductive Destructor where
  | notCalled
  | signal
  | join
  | returned
deriving DecidableEq

structure State where
  endingTapThread : Bool
  tapThreadInput : GenericFifo.State Int16
  sem : Nat
  unreportedDroppedSamples : Nat
  unreportedDrops : Nat
  dropping : Bool
  samplesDropped : Nat
  fifoInput : List Int16
  audio : Audio
  tap : Tap
  destructor : Destructor
  log : List String
  /-- What `execute` was given, call by call. -/
  calls : List (List Int16)
  /-- What the calls that are over returned. -/
  returned : List (List Int16)
  /-- The pieces written so far, and whether `write` returned 0. -/
  pieces : List (List Int16 × Bool)
  /-- The blocks given to the tapped step. -/
  tapped : List (List Int16)
  /-- Everything that was ever added to `samplesDropped_`. -/
  added : Nat
  /-- Samples that `reportDrops_` collected without adding them. -/
  lost : Nat

/-- A new step over memory with arbitrary content, its thread at the start. -/
def State.initial (sampleRate : Nat) (buf memory : Nat → Int16) : State where
  endingTapThread := false
  tapThreadInput := .initial buf
  sem := 0
  unreportedDroppedSamples := 0
  unreportedDrops := 0
  dropping := false
  samplesDropped := 0
  fifoInput := (List.range (sampleRate / 100)).map memory
  audio := .idle
  tap := .loadEnding
  destructor := .notCalled
  log := []
  calls := []
  returned := []
  pieces := []
  tapped := []
  added := 0
  lost := 0

/-! ## The audio thread -/

/-- The loop of `execute`, up to the next access. -/
def writeNext (sampleRate : Nat) (s : State) (call : Call) : Option State :=
  if 0 < call.numInputSamples then
    let samplesToRead := min (sampleRate / 100) call.numInputSamples
    match GenericFifo.next (fifoLength sampleRate) s.tapThreadInput
        (.write (call.piece samplesToRead)) with
    | none => none
    | some fifo => some { s with tapThreadInput := fifo, audio := .write call samplesToRead }
  else
    some { s with audio := .loadPin call }

def returnSamples (s : State) (call : Call) : State :=
  { s with
    returned := s.returned ++ [call.inputSamples.take call.numOutputSamples]
    audio := .idle }

/-- The end of `execute`, behind the wakeup. -/
def countDrops (s : State) (call : Call) : State :=
  if 0 < call.samplesDropped then { s with audio := .addSamples call }
  else returnSamples s call

def execute (sampleRate : Nat) (s : State) (inputSamples : List Int16) : Option State :=
  match s.audio with
  | .idle =>
      writeNext sampleRate { s with calls := s.calls ++ [inputSamples] } (.start inputSamples)
  | _ => none

def audioStep (sampleRate : Nat) (s : State) : Option State :=
  match s.audio with
  | .idle => none
  | .write call samplesToRead =>
      match GenericFifo.next (fifoLength sampleRate) s.tapThreadInput .writerStep with
      | none => none
      | some fifo =>
          match writeReturn (fifoLength sampleRate) s.tapThreadInput with
          | none => some { s with tapThreadInput := fifo }
          | some value =>
              writeNext sampleRate
                { s with
                  tapThreadInput := fifo
                  pieces := s.pieces ++ [(call.piece samplesToRead, decide (value = 0))] }
                (call.advance samplesToRead value)
  | .loadPin call => some { s with audio := .loadPout call s.tapThreadInput.pin }
  | .loadPout call ppin =>
      let used := (computeUsed (fifoLength sampleRate) ppin s.tapThreadInput.pout).getD 0
      if used ≥ sampleRate / 100 then some { s with audio := .signal call }
      else some (countDrops s call)
  | .signal call => some (countDrops { s with sem := s.sem + 1 } call)
  | .addSamples call =>
      some { s with
        unreportedDroppedSamples := s.unreportedDroppedSamples + call.samplesDropped
        audio := .addDrops call }
  | .addDrops call => some (returnSamples { s with unreportedDrops := s.unreportedDrops + 1 } call)

/-! ## The tap thread -/

/-- What `reportDrops_` does with the numbers it has collected. -/
def reportDrops (s : State) (drops samples : Nat) : State :=
  if drops > 0 then
    let s :=
      if ¬ s.dropping then
        { s with
          log := s.log ++ [s!"Tap FIFO full, dropping samples ({samples} so far)"]
          dropping := true }
      else s
    { s with samplesDropped := s.samplesDropped + samples, added := s.added + samples }
  else
    let s := { s with lost := s.lost + samples }
    let missing := s.samplesDropped
    if s.dropping then
      { s with
        log := s.log ++ [s!"Tap FIFO drops ended; tap is missing {missing} samples"]
        dropping := false
        samplesDropped := 0 }
    else s

def tapStep (sampleRate : Nat) (s : State) : Option State :=
  match s.tap with
  | .loadEnding => some { s with tap := .loadPin s.endingTapThread }
  | .loadPin last => some { s with tap := .loadPout last s.tapThreadInput.pin }
  | .loadPout last ppin =>
      let used := (computeUsed (fifoLength sampleRate) ppin s.tapThreadInput.pout).getD 0
      if used ≥ sampleRate / 100 then
        match GenericFifo.next (fifoLength sampleRate) s.tapThreadInput
            (.read (sampleRate / 100)) with
        | none => none
        | some fifo => some { s with tapThreadInput := fifo, tap := .read last }
      else some { s with tap := .exchangeDrops last }
  | .read last =>
      match GenericFifo.next (fifoLength sampleRate) s.tapThreadInput .readerStep with
      | none => none
      | some fifo =>
          match readReturn (fifoLength sampleRate) s.tapThreadInput with
          | none => some { s with tapThreadInput := fifo }
          | some (_, result) =>
              -- the returned value is not looked at
              some { s with
                tapThreadInput := fifo
                fifoInput := result ++ s.fifoInput.drop result.length
                tap := .execute last }
  | .execute last =>
      some { s with tapped := s.tapped ++ [s.fifoInput], tap := .executing last }
  | .executing _ => none
  | .exchangeDrops last =>
      some { s with unreportedDrops := 0, tap := .exchangeSamples last s.unreportedDrops }
  | .exchangeSamples last drops =>
      let samples := s.unreportedDroppedSamples
      let s := reportDrops { s with unreportedDroppedSamples := 0 } drops samples
      some { s with tap := if last then .finished else .wait }
  | .wait => if 0 < s.sem then some { s with sem := s.sem - 1, tap := .loadEnding } else none
  | .finished => none

/-- The tapped step returns; meanwhile it may have used its input buffer for anything. -/
def tapStepReturns (s : State) (buffer : List Int16) : Option State :=
  match s.tap with
  | .executing last =>
      if buffer.length = s.fifoInput.length then
        some { s with fifoInput := buffer, tap := .loadPin last }
      else none
  | _ => none

/-! ## The destructor -/

def destroy (s : State) : Option State :=
  match s.destructor with
  | .notCalled => some { s with endingTapThread := true, destructor := .signal }
  | _ => none

def destructorStep (s : State) : Option State :=
  match s.destructor with
  | .notCalled => none
  | .signal => some { s with sem := s.sem + 1, destructor := .join }
  | .join =>
      match s.tap with
      | .finished =>
          let missing := s.samplesDropped
          let stopped :=
            s!"Tap was still dropping samples when stopped; tap is missing {missing} samples"
          some { s with
            log := if s.dropping then s.log ++ [stopped] else s.log
            destructor := .returned }
      | _ => none
  | .returned => none

inductive Action where
  | execute (inputSamples : List Int16)
  | audioStep
  | tapStep
  | tapStepReturns (buffer : List Int16)
  | destroy
  | destructorStep

def next (sampleRate : Nat) (s : State) : Action → Option State
  | .execute inputSamples => execute sampleRate s inputSamples
  | .audioStep => audioStep sampleRate s
  | .tapStep => tapStep sampleRate s
  | .tapStepReturns buffer => tapStepReturns s buffer
  | .destroy => destroy s
  | .destructorStep => destructorStep s

end FreeDV.Pipeline.TapStep
