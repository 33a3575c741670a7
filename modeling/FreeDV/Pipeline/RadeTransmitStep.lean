import FreeDV.Pipeline.RadeReceiveStep

/-!
# The RADE transmitter step

`RADETransmitStep` cuts speech into frames, extracts their features, hands sets
of features to the modulator and puts out the modem samples it returns. `lpcnet`
and `rade` are parameters. `frames`, `batches` and `produced` record what went
through the step and are not read.
-/

set_option autoImplicit false

namespace FreeDV.Pipeline.RADETransmitStep

open Util.GenericFifo

def RADE_SCALING_FACTOR : Int := 16383

/-- `NUM_SAMPLES_SILENCE`: 200 ms behind the end-of-over frame. -/
def NUM_SAMPLES_SILENCE : Nat := 200 * RADE_MODEM_SAMPLE_RATE / 1000

/-- `rade_n_features_in_out`, `rade_n_tx_out`, `rade_n_tx_eoo_out` and `NB_TOTAL_FEATURES`. -/
structure TxSizes where
  nFeaturesInOut : Nat
  nTxOut : Nat
  nTxEooOut : Nat
  nbTotalFeatures : Nat
  positive : 0 < nbTotalFeatures

/-- Feature extraction, the modulator and the conversion to `short`, over types of floats and of
the states of `lpcnet` and `rade`. -/
structure Library (sizes : TxSizes) (F E R : Type) where
  computeSingleFrameFeatures : E → List Int16 → List F × E
  length_features : ∀ encState pcm,
    (computeSingleFrameFeatures encState pcm).1.length = sizes.nbTotalFeatures
  radeTx : R → List F → List (RadeComp F) × R
  length_tx : ∀ dv featureList, (radeTx dv featureList).1.length = sizes.nTxOut
  radeTxEoo : R → List (RadeComp F) × R
  length_eoo : ∀ dv, (radeTxEoo dv).1.length = sizes.nTxEooOut
  toShort : F → Int16

structure State (F E R : Type) where
  dv : R
  encState : E
  inputSampleFifo : Queue Int16 (LPCNET_FRAME_SIZE + 1)
  outputSampleFifo : Queue Int16 RADE_MODEM_SAMPLE_RATE
  -- `featureList_` up to `featureListIdx_`
  featureList : List F

variable {sizes : TxSizes} {F E R : Type} [FloatArith F] (lib : Library sizes F E R)

/-- The real part is enough for the transmitter. -/
def radeOutShort (radeOut : List (RadeComp F)) : List Int16 :=
  radeOut.map fun sample => lib.toShort (sample.real * FloatArith.lit RADE_SCALING_FACTOR)

/-- The modulator, and what it is given and gives. -/
structure Modulation (F R : Type) where
  dv : R
  outputSampleFifo : Queue Int16 RADE_MODEM_SAMPLE_RATE
  featureList : List F
  numOutputSamples : Nat
  batches : List (List F)
  produced : List Int16

/-- One feature: a full `featureList_` goes to `rade_tx`. -/
def pushFeature (m : Modulation F R) (feature : F) : Modulation F R :=
  let featureList := m.featureList ++ [feature]
  if featureList.length = sizes.nFeaturesInOut then
    let (radeOut, dv) := lib.radeTx m.dv featureList
    let samples := radeOutShort lib radeOut
    let outputSampleFifo := m.outputSampleFifo.writeAny samples
    { dv
      outputSampleFifo
      featureList := []
      numOutputSamples := outputSampleFifo.numUsed
      batches := m.batches ++ [featureList]
      produced := m.produced ++ samples }
  else { m with featureList }

/-- `execute` at work. -/
structure Execution (F E R : Type) where
  encState : E
  inputSampleFifo : Queue Int16 (LPCNET_FRAME_SIZE + 1)
  inputSamples : List Int16
  modulation : Modulation F R
  frames : List (List Int16)

/-- The samples the loop can still use. -/
def Execution.pending (run : Execution F E R) : List Int16 :=
  run.inputSampleFifo.elements ++ run.inputSamples

/-- Feature extraction for a frame, and its features one by one. -/
def Execution.processFrame (run : Execution F E R) (pcm : List Int16)
    (fifo : Queue Int16 (LPCNET_FRAME_SIZE + 1)) (inputSamples : List Int16) : Execution F E R where
  encState := (lib.computeSingleFrameFeatures run.encState pcm).2
  inputSampleFifo := fifo
  inputSamples := inputSamples
  modulation :=
    (lib.computeSingleFrameFeatures run.encState pcm).1.foldl (pushFeature lib) run.modulation
  frames := run.frames ++ [pcm]

/-- The loop of `execute`. The FIFO has no room left exactly if a frame can be read from it. -/
def Execution.loop (run : Execution F E R) : Execution F E R :=
  if run.modulation.numOutputSamples + sizes.nTxOut < RADE_MODEM_SAMPLE_RATE then
    match _done : (run.inputSampleFifo.fill run.inputSamples).1.read LPCNET_FRAME_SIZE with
    | none =>
        { run with
          inputSampleFifo := (run.inputSampleFifo.fill run.inputSamples).1
          inputSamples := (run.inputSampleFifo.fill run.inputSamples).2 }
    | some (pcm, fifo) =>
        (run.processFrame lib pcm fifo (run.inputSampleFifo.fill run.inputSamples).2).loop
  else run
termination_by run.pending.length
decreasing_by
  obtain ⟨enough, -, rest⟩ := Queue.read_eq_some _done
  have whole := congrArg List.length (run.inputSampleFifo.fill_append run.inputSamples)
  rw [List.length_append] at whole
  simp only [Execution.pending, Execution.processFrame, rest, List.length_append, List.length_drop,
    Queue.numUsed, LPCNET_FRAME_SIZE] at whole enough ⊢
  omega

/-- What a call of `execute` did. -/
structure Call (F : Type) where
  outputSamples : List Int16
  frames : List (List Int16)
  batches : List (List F)
  produced : List Int16

def Execution.start (step : State F E R) (inputSamples : List Int16) : Execution F E R where
  encState := step.encState
  inputSampleFifo := step.inputSampleFifo
  inputSamples := inputSamples
  modulation := ⟨step.dv, step.outputSampleFifo, step.featureList, 0, [], []⟩
  frames := []

/-- Takes `numOutputSamples` from the output FIFO, which holds at least as many. -/
def readOutput (fifo : Queue Int16 RADE_MODEM_SAMPLE_RATE) (numOutputSamples : Nat) :
    List Int16 × Queue Int16 RADE_MODEM_SAMPLE_RATE :=
  (fifo.read numOutputSamples).getD ([], fifo)

def execute (step : State F E R) (inputSamples : List Int16) : Call F × State F E R :=
  if inputSamples.length = 0 then
    -- the samples of an end-of-over frame
    let (outputSamples, fifo) := readOutput step.outputSampleFifo step.outputSampleFifo.numUsed
    (⟨outputSamples, [], [], []⟩, { step with outputSampleFifo := fifo })
  else
    let run := (Execution.start step inputSamples).loop lib
    let m := run.modulation
    let (outputSamples, fifo) := readOutput m.outputSampleFifo m.numOutputSamples
    (⟨outputSamples, run.frames, m.batches, m.produced⟩,
      { dv := m.dv
        encState := run.encState
        inputSampleFifo := run.inputSampleFifo
        outputSampleFifo := fifo
        featureList := m.featureList })

/-- `restartVocoder` queues the end-of-over frame and silence, if there is room for both. -/
def restartVocoder (step : State F E R) : State F E R :=
  let (eooOut, dv) := lib.radeTxEoo step.dv
  { step with
    dv
    outputSampleFifo := step.outputSampleFifo.writeAny
      (radeOutShort lib eooOut ++ List.replicate NUM_SAMPLES_SILENCE 0) }

def reset (step : State F E R) : State F E R :=
  { step with inputSampleFifo := .empty, outputSampleFifo := .empty, featureList := [] }

/-- A new step. -/
def initial (dv : R) (encState : E) : State F E R := ⟨dv, encState, .empty, .empty, []⟩

end FreeDV.Pipeline.RADETransmitStep
