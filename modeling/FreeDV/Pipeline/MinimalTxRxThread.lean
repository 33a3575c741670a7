import FreeDV.Lib.Transition
import FreeDV.Pipeline.AudioPipeline

/-!
# The transmit thread

`txProcessing_` is called again and again; the application writes speech into
`infifo1`, drains `outfifo1` and stores the flags meanwhile. A step is one load
or store of a flag, one FIFO operation or one call into the pipeline. `turn`
records what happened in the transmission in progress and is not read.
-/

set_option autoImplicit false

namespace FreeDV.Pipeline.MinimalTxRxThread

open Util.GenericFifo
open RADETransmitStep (TxSizes NUM_SAMPLES_SILENCE)
open TxPipeline (Libraries Rates Run)

def FRAME_DURATION_MS : Nat := 20

def MS_TO_SEC : Nat := 1000

/-- The rates, and the slots of the two FIFOs. -/
structure Config where
  rates : Rates
  infifo1 : Nat
  outfifo1 : Nat

def Config.nsam_in_48 (config : Config) : Nat :=
  config.rates.inputSampleRate * FRAME_DURATION_MS / MS_TO_SEC

/-- `getTxNNomModemSamples` -/
def getTxNNomModemSamples (sizes : TxSizes) : Nat :=
  max sizes.nTxOut (sizes.nTxEooOut + NUM_SAMPLES_SILENCE)

def Config.nsam_one_modem_frame (config : Config) (sizes : TxSizes) : Nat :=
  getTxNNomModemSamples sizes * config.rates.outputSampleRate / RADE_MODEM_SAMPLE_RATE

/-- Where the thread is in `txProcessing_`. A block that could not be read is `none`, and zeros
take its place. -/
inductive Thread where
  | idle
  | resetPipeline
  | resetInfifo1
  | resetOutfifo1
  | mustStopWork
  | numFree
  | read
  | loadEndingTx
  | restartVocoder
  | executeEoo
  | writeEoo (outputSamples : List Int16)
  | storeEnqueued
  | storeNotEnqueued (block : Option (List Int16))
  | executeBlock (block : Option (List Int16))
  | writeOutput (outputSamples : List Int16)
deriving DecidableEq

/-- The transmission in progress: from a call that sees `g_tx` set behind one that saw it unset,
to the next that sees it unset. -/
structure Over (F L : Type) where
  /-- `endingTx` was set behind the first iteration only, stays set, and nothing is written to
  `infifo1` from then on. -/
  orderly : Bool
  /-- An iteration of the loop is over. -/
  iterated : Bool
  /-- What was written to `infifo1` since its reset. -/
  written : List Int16
  /-- The blocks read from `infifo1` that were given to the pipeline. -/
  passed : List (List Int16)
  restarts : Nat
  /-- A run of the pipeline without input has put out nothing, behind a restart. -/
  emptied : Bool
  /-- The encoder's state at the reset. -/
  encState : L
  /-- The runs of the pipeline. -/
  runs : List (Run F)
  /-- What `rade_tx` and `rade_tx_eoo` gave, with the silence behind the latter. -/
  produced : List Int16

structure State (config : Config) (F N S E W L R : Type) where
  g_tx : Bool
  endingTx : Bool
  g_eoo_enqueued : Bool
  infifo1 : Queue Int16 config.infifo1
  outfifo1 : Queue Int16 config.outfifo1
  deferReset : Bool
  hasEooBeenSent : Bool
  pipeline : TxPipeline.State F N S E W L R
  thread : Thread
  log : List String
  turn : Option (Over F L)

variable {config : Config} {sizes : TxSizes} {D F N S E W L R : Type}

/-- Before the first call, with flags left by the application. -/
def State.initial (g_tx endingTx g_eoo_enqueued : Bool)
    (pipeline : TxPipeline.State F N S E W L R) : State config F N S E W L R where
  g_tx := g_tx
  endingTx := endingTx
  g_eoo_enqueued := g_eoo_enqueued
  infifo1 := .empty
  outfifo1 := .empty
  deferReset := false
  hasEooBeenSent := false
  pipeline := pipeline
  thread := .idle
  log := []
  turn := none

def Over.start (endingTx : Bool) (encState : L) : Over F L where
  orderly := !endingTx
  iterated := false
  written := []
  passed := []
  restarts := 0
  emptied := false
  encState := encState
  runs := []
  produced := []

/-- Changes the record of the transmission in progress, if there is one. -/
def State.record (s : State config F N S E W L R) (change : Over F L → Over F L) :
    State config F N S E W L R :=
  { s with turn := s.turn.map change }

/-! ## The thread -/

variable [FloatArith D] [FloatArith F] (lib : Libraries sizes D F N S E W L R)

/-- `restartVocoder`, and the samples it queues. -/
def restart (s : State config F N S E W L R) : State config F N S E W L R :=
  let eoo := RADETransmitStep.radeOutShort lib.rade (lib.rade.radeTxEoo s.pipeline.tx.dv).1 ++
    List.replicate NUM_SAMPLES_SILENCE 0
  { s with
    pipeline := { s.pipeline with
      tx := RADETransmitStep.restartVocoder lib.rade s.pipeline.tx }
    hasEooBeenSent := true
    thread := .executeEoo
    turn := s.turn.map fun turn =>
      { turn with restarts := turn.restarts + 1, produced := turn.produced ++ eoo } }

/-- A run without input, for the samples of the end of over. -/
def executeEoo (s : State config F N S E W L R) : State config F N S E W L R :=
  let (run, pipeline) := TxPipeline.execute lib config.rates s.pipeline []
  let nout := run.outputSamples.length
  { s with
    pipeline
    thread := if nout > 0 then .writeEoo run.outputSamples else .storeEnqueued
    turn := s.turn.map fun turn =>
      { turn with
        emptied := turn.emptied || (decide (0 < turn.restarts) && nout = 0)
        runs := turn.runs ++ [run]
        produced := turn.produced ++ run.tx.produced } }

/-- A run on a block, or on zeros. -/
def executeBlock (s : State config F N S E W L R) (block : Option (List Int16)) :
    State config F N S E W L R :=
  let inputPtr := block.getD (List.replicate config.nsam_in_48 0)
  let (run, pipeline) := TxPipeline.execute lib config.rates s.pipeline inputPtr
  { s with
    pipeline
    thread := .writeOutput run.outputSamples
    turn := s.turn.map fun turn =>
      { turn with
        passed := turn.passed ++ block.toList
        runs := turn.runs ++ [run]
        produced := turn.produced ++ run.tx.produced } }

/-- `outfifo1->write` with a warning if there is no room. -/
def writeEoo (s : State config F N S E W L R) (outputSamples : List Int16) :
    State config F N S E W L R :=
  match s.outfifo1.write outputSamples with
  | some outfifo1 => { s with outfifo1, thread := .idle }
  | none =>
      let space := s.outfifo1.numFree
      let warning :=
        s!"Could not inject resampled EOO samples (space remaining in FIFO = {space})"
      { s with log := s.log ++ [warning], thread := .idle }

/-- The next step of the thread; `mustStopWork` is what the helper answers if it is asked. -/
def threadStep (s : State config F N S E W L R) (mustStopWork : Bool) :
    State config F N S E W L R :=
  match s.thread with
  | .idle =>
      if s.g_tx then
        if s.deferReset then
          { s with
            deferReset := false
            thread := .resetPipeline
            turn := some (.start s.endingTx s.pipeline.tx.encState) }
        else { s with thread := .mustStopWork }
      else { s with deferReset := true, turn := none }
  | .resetPipeline =>
      { s with pipeline := TxPipeline.reset lib s.pipeline, thread := .resetInfifo1 }
  | .resetInfifo1 =>
      { s with
        infifo1 := .empty
        thread := .resetOutfifo1
        turn := s.turn.map fun turn => { turn with written := [] } }
  | .resetOutfifo1 => { s with outfifo1 := .empty, thread := .mustStopWork }
  | .mustStopWork => { s with thread := if mustStopWork then .idle else .numFree }
  | .numFree =>
      { s with
        thread := if s.outfifo1.numFree ≥ config.nsam_one_modem_frame sizes then .read else .idle }
  | .read =>
      match s.infifo1.read config.nsam_in_48 with
      | some (block, infifo1) => { s with infifo1, thread := .storeNotEnqueued (some block) }
      | none => { s with thread := .loadEndingTx }
  | .loadEndingTx =>
      { s with
        thread :=
          if s.endingTx then
            if s.hasEooBeenSent then .executeEoo else .restartVocoder
          else .storeNotEnqueued none }
  | .restartVocoder => restart lib s
  | .executeEoo => executeEoo lib s
  | .writeEoo outputSamples => writeEoo s outputSamples
  | .storeEnqueued => { s with g_eoo_enqueued := true, thread := .idle }
  | .storeNotEnqueued block =>
      { s with g_eoo_enqueued := false, hasEooBeenSent := false, thread := .executeBlock block }
  | .executeBlock block => executeBlock lib s block
  | .writeOutput outputSamples =>
      { s with
        outfifo1 := s.outfifo1.writeAny outputSamples
        thread := .mustStopWork
        turn := s.turn.map fun turn => { turn with iterated := true } }

/-! ## The application -/

inductive Action where
  | threadStep (mustStopWork : Bool)
  | write (samples : List Int16)
  | drain (len : Nat)
  | storeTx (value : Bool)
  | storeEndingTx (value : Bool)

/-- A write to `infifo1`, which the FIFO may refuse. -/
def write (s : State config F N S E W L R) (samples : List Int16) : State config F N S E W L R :=
  let s := s.record fun turn => { turn with orderly := turn.orderly && !s.endingTx }
  match s.infifo1.write samples with
  | some infifo1 =>
      { s with
        infifo1
        turn := s.turn.map fun turn => { turn with written := turn.written ++ samples } }
  | none => s

def drain (s : State config F N S E W L R) (len : Nat) : State config F N S E W L R :=
  match s.outfifo1.read len with
  | some (_, outfifo1) => { s with outfifo1 }
  | none => s

def storeEndingTx (s : State config F N S E W L R) (value : Bool) : State config F N S E W L R :=
  { s with
    endingTx := value
    turn := s.turn.map fun turn =>
      { turn with
        orderly := turn.orderly && if s.endingTx then value else !value || turn.iterated } }

def next (s : State config F N S E W L R) (action : Action) :
    Option (State config F N S E W L R) :=
  match action with
  | .threadStep mustStopWork => some (threadStep lib s mustStopWork)
  | .write samples => some (write s samples)
  | .drain len => some (drain s len)
  | .storeTx value => some { s with g_tx := value }
  | .storeEndingTx value => some (storeEndingTx s value)

end FreeDV.Pipeline.MinimalTxRxThread
