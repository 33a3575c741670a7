import FreeDV.Lib.Transition
import FreeDV.Pipeline.MinimalTxRxThread
import FreeDV.Pipeline.RxPipeline

/-!
# The receive thread

`rxProcessing_` is called again and again; the application writes modem samples
into `infifo2`, drains `outfifo2` and stores `g_tx` meanwhile. A step is one load
of the flag, one FIFO operation or one call into the pipeline. `session` records
what happened since the FIFOs were cleared and is not read.
-/

set_option autoImplicit false

namespace FreeDV.Pipeline.MinimalTxRxThread.Receive

open Util.GenericFifo
open TxPipeline (Rates)
open RxPipeline (Libraries Run)

/-- The rates, and the slots of the two FIFOs. -/
structure Config where
  rates : Rates
  infifo2 : Nat
  outfifo2 : Nat

def Config.nsam (config : Config) : Nat :=
  config.rates.inputSampleRate * FRAME_DURATION_MS / MS_TO_SEC

def getRxNumSpeechSamples (sizes : RadeSizes) : Nat :=
  sizes.nFeaturesInOut * LPCNET_FRAME_SIZE / sizes.nbTotalFeatures

def Config.nsam_one_speech_frame (config : Config) (sizes : RadeSizes) : Nat :=
  getRxNumSpeechSamples sizes * config.rates.outputSampleRate / RADE_SPEECH_SAMPLE_RATE

/-- Where the thread is in `rxProcessing_`. -/
inductive Thread where
  | idle
  | resetInfifo2
  | resetOutfifo2
  | mustStopWork (processInputFifo : Bool)
  | numFree
  | read
  | execute (block : List Int16)
  | write (outputSamples : List Int16)
  | loadTx

/-- What a run of the pipeline put out, and whether `outfifo2` has it. -/
structure Outcome where
  outputSamples : List Int16
  accepted : Bool

/-- The reception since the FIFOs were cleared. -/
structure Session (sizes : RadeSizes) (F S R G T B : Type) where
  /-- The pipeline when it began. -/
  start : RxPipeline.State sizes F S R G T B
  /-- What was written to `infifo2`. -/
  written : List Int16
  /-- The blocks given to the pipeline. -/
  passed : List (List Int16)
  outcomes : List Outcome
  /-- What was read from `outfifo2`. -/
  played : List Int16

structure State (config : Config) (sizes : RadeSizes) (F S R G T B : Type) where
  g_tx : Bool
  infifo2 : Queue Int16 config.infifo2
  outfifo2 : Queue Int16 config.outfifo2
  pipeline : RxPipeline.State sizes F S R G T B
  thread : Thread
  session : Session sizes F S R G T B

variable {config : Config} {sizes : RadeSizes} {F S R G T B : Type}

def Session.begin (start : RxPipeline.State sizes F S R G T B) : Session sizes F S R G T B :=
  ⟨start, [], [], [], []⟩

/-- Before the first call, behind the `clearFifos_` of `Entry`. -/
def State.initial (g_tx : Bool) (pipeline : RxPipeline.State sizes F S R G T B) :
    State config sizes F S R G T B where
  g_tx := g_tx
  infifo2 := .empty
  outfifo2 := .empty
  pipeline := pipeline
  thread := .idle
  session := .begin pipeline

/-! ## The thread -/

variable [FloatArith F] (lib : Libraries sizes F S R G T B)

def execute (s : State config sizes F S R G T B) (block : List Int16) :
    State config sizes F S R G T B :=
  let (run, pipeline) := RxPipeline.execute lib config.rates s.pipeline block
  let nout := run.outputSamples.length
  let session := { s.session with passed := s.session.passed ++ [block] }
  if nout > 0 then { s with pipeline, session, thread := .write run.outputSamples }
  else
    { s with
      pipeline
      session := { session with outcomes := session.outcomes ++ [⟨[], true⟩] }
      thread := .loadTx }

/-- `outFifo->write`, whose result is not looked at. -/
def write (s : State config sizes F S R G T B) (outputSamples : List Int16) :
    State config sizes F S R G T B :=
  let accepted := (s.outfifo2.write outputSamples).isSome
  { s with
    outfifo2 := s.outfifo2.writeAny outputSamples
    thread := .loadTx
    session := { s.session with
      outcomes := s.session.outcomes ++ [⟨outputSamples, accepted⟩] } }

/-- The next step of the thread; `mustStopWork` is what the helper answers if it is asked. -/
def threadStep (s : State config sizes F S R G T B) (mustStopWork : Bool) :
    State config sizes F S R G T B :=
  match s.thread with
  | .idle => { s with thread := if s.g_tx then .resetInfifo2 else .mustStopWork true }
  | .resetInfifo2 =>
      { s with infifo2 := .empty, thread := .resetOutfifo2, session := .begin s.pipeline }
  | .resetOutfifo2 =>
      { s with
        outfifo2 := .empty
        thread := .mustStopWork false
        session := { s.session with played := [] } }
  | .mustStopWork processInputFifo =>
      { s with thread := if !mustStopWork && processInputFifo then .numFree else .idle }
  | .numFree =>
      { s with
        thread :=
          if s.outfifo2.numFree ≥ config.nsam_one_speech_frame sizes then .read else .idle }
  | .read =>
      match s.infifo2.read config.nsam with
      | some (block, infifo2) => { s with infifo2, thread := .execute block }
      | none => { s with thread := .idle }
  | .execute block => execute lib s block
  | .write outputSamples => write s outputSamples
  | .loadTx => { s with thread := .mustStopWork (!s.g_tx) }

/-! ## The application -/

inductive Action where
  | threadStep (mustStopWork : Bool)
  | write (samples : List Int16)
  | drain (len : Nat)
  | storeTx (value : Bool)

/-- A write to `infifo2`, which the FIFO may refuse. -/
def fill (s : State config sizes F S R G T B) (samples : List Int16) :
    State config sizes F S R G T B :=
  match s.infifo2.write samples with
  | some infifo2 =>
      { s with infifo2, session := { s.session with written := s.session.written ++ samples } }
  | none => s

def drain (s : State config sizes F S R G T B) (len : Nat) : State config sizes F S R G T B :=
  match s.outfifo2.read len with
  | some (result, outfifo2) =>
      { s with outfifo2, session := { s.session with played := s.session.played ++ result } }
  | none => s

def next (s : State config sizes F S R G T B) (action : Action) :
    Option (State config sizes F S R G T B) :=
  match action with
  | .threadStep mustStopWork => some (threadStep lib s mustStopWork)
  | .write samples => some (fill s samples)
  | .drain len => some (drain s len)
  | .storeTx value => some { s with g_tx := value }

end FreeDV.Pipeline.MinimalTxRxThread.Receive
