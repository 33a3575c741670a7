import FreeDV.Pipeline.BlockSteps
import FreeDV.Pipeline.RadeTransmitStep

/-!
# The transmit pipeline

`initializePipeline_` puts the noise reducer, the AGC, the transmitter and the
level adjustment one behind the other, and `AudioPipeline` a resampler between
steps whose sample rates differ. `resamplers_` holds a null pointer where they
agree; the state kept for such a place is not used.
-/

set_option autoImplicit false

namespace FreeDV.Pipeline

open Util.GenericFifo

/-! ## Resampling -/

namespace ResampleStep

/-- libsamplerate and the conversions from and to `short`, over a type of library states. A call
of `srcProcess` is one of `src_process` with the ratio of the two rates. -/
structure Library (S : Type) where
  srcNew : S
  srcReset : S → S
  srcProcess : (inputSampleRate outputSampleRate : Nat) → S → List Int16 → List Int16 × S

variable {S : Type} (lib : Library S) (inputSampleRate outputSampleRate : Nat)

/-- The loop of `execute`, in pieces of 10 ms. At rates below 100 Hz a piece is empty, and the
loop would not end. -/
def processAll (state : S) (inputSamples : List Int16) : List Int16 × S :=
  let inputSize := min inputSamples.length (inputSampleRate * 10 / 1000)
  if 0 < inputSize then
    let (output, state) :=
      lib.srcProcess inputSampleRate outputSampleRate state (inputSamples.take inputSize)
    let (rest, state) := processAll state (inputSamples.drop inputSize)
    (output ++ rest, state)
  else ([], state)
termination_by inputSamples.length
decreasing_by
  rw [List.length_drop]
  omega

def execute (state : S) (inputSamples : List Int16) : List Int16 × S :=
  if inputSamples.length = 0 then ([], state)
  else if inputSampleRate = outputSampleRate then (inputSamples, state)
  else processAll lib inputSampleRate outputSampleRate state inputSamples

end ResampleStep

/-! ## Level adjustment -/

namespace LevelAdjustStep

open FloatArith (lit)

variable {D F E W : Type} [FloatArith F] (lib : AgcStep.Library D F E W)

/-- `ConvertToFloatSampleType_`, which divides by one more than the largest `short`. -/
def toFloat (sample : Int16) : F := lit sample.toInt * (lit 1 / lit 32768)

def execute (scaleFactor : F) (inputSamples : List Int16) : List Int16 :=
  inputSamples.map fun sample => AgcStep.toShort lib (toFloat sample * scaleFactor)

end LevelAdjustStep

/-! ## The steps together -/

namespace TxPipeline

open RADETransmitStep (TxSizes)

/-- Everything outside the repository that a transmission uses. -/
structure Libraries (sizes : TxSizes) (D F N S E W L R : Type) where
  rnnoise : RNNoiseStep.Library F N
  resample : ResampleStep.Library S
  agc : AgcStep.Library D F E W
  rade : RADETransmitStep.Library sizes F L R

/-- The rates of the sound cards. Below 100 Hz no 10 ms of samples exist. -/
structure Rates where
  inputSampleRate : Nat
  outputSampleRate : Nat
  inputAudible : 100 ≤ inputSampleRate
  outputAudible : 100 ≤ outputSampleRate

/-- The sample rate of the AGC, which is that of the transmitter's input. -/
def AGC_SAMPLE_RATE : Int := RADE_SPEECH_SAMPLE_RATE

structure State (F N S E W L R : Type) where
  inputResampler : S
  rnnoise : BlockStep RNNoiseStep.blockSizes (RNNoiseStep.State N)
  agcResampler : S
  agc : BlockStep (AgcStep.blockSizes AGC_SAMPLE_RATE) (AgcStep.State F E W)
  tx : RADETransmitStep.State F L R
  outputResampler : S

variable {sizes : TxSizes} {D F N S E W L R : Type} [FloatArith D] [FloatArith F]
  (lib : Libraries sizes D F N S E W L R) (rates : Rates)

/-- A place for a resampler; there is none between equal rates. -/
def resample (inputSampleRate outputSampleRate : Nat) (state : S) (samples : List Int16) :
    List Int16 × S :=
  if inputSampleRate = outputSampleRate then (samples, state)
  else ResampleStep.execute lib.resample inputSampleRate outputSampleRate state samples

/-- The part in front of the transmitter. -/
def prepare (pipeline : State F N S E W L R) (inputSamples : List Int16) :
    List Int16 × State F N S E W L R :=
  let (samples, inputResampler) :=
    resample lib rates.inputSampleRate RNNoiseStep.RNNOISE_SAMPLE_RATE pipeline.inputResampler
      inputSamples
  let (denoised, rnnoise) := RNNoiseStep.execute lib.rnnoise pipeline.rnnoise samples
  let (samples, agcResampler) :=
    resample lib RNNoiseStep.RNNOISE_SAMPLE_RATE (AgcStep.runRate AGC_SAMPLE_RATE)
      pipeline.agcResampler denoised.output
  let (levelled, agc) := AgcStep.execute lib.agc AGC_SAMPLE_RATE pipeline.agc samples
  (levelled.output, { pipeline with inputResampler, rnnoise, agcResampler, agc })

def TxScaleFactor : F := FloatArith.lit 2

/-- The part behind the transmitter. -/
def finish (outputResampler : S) (modemSamples : List Int16) : List Int16 × S :=
  let (samples, outputResampler) :=
    resample lib RADE_MODEM_SAMPLE_RATE rates.outputSampleRate outputResampler modemSamples
  (LevelAdjustStep.execute lib.agc TxScaleFactor samples, outputResampler)

/-- What a call of `execute` put out, and what the transmitter did in it. -/
structure Run (F : Type) where
  outputSamples : List Int16
  tx : RADETransmitStep.Call F

def execute (pipeline : State F N S E W L R) (inputSamples : List Int16) :
    Run F × State F N S E W L R :=
  let (speech, pipeline) := prepare lib rates pipeline inputSamples
  let (call, tx) := RADETransmitStep.execute lib.rade pipeline.tx speech
  let (outputSamples, outputResampler) :=
    finish lib rates pipeline.outputResampler call.outputSamples
  (⟨outputSamples, call⟩, { pipeline with tx, outputResampler })

def reset (pipeline : State F N S E W L R) : State F N S E W L R where
  inputResampler := lib.resample.srcReset pipeline.inputResampler
  rnnoise := RNNoiseStep.reset lib.rnnoise pipeline.rnnoise
  agcResampler := lib.resample.srcReset pipeline.agcResampler
  agc := AgcStep.reset lib.agc AGC_SAMPLE_RATE pipeline.agc
  tx := RADETransmitStep.reset pipeline.tx
  outputResampler := lib.resample.srcReset pipeline.outputResampler

/-- A new pipeline over an open modem. -/
def initial (dv : R) (encState : L) : State F N S E W L R where
  inputResampler := lib.resample.srcNew
  rnnoise := RNNoiseStep.initial lib.rnnoise
  agcResampler := lib.resample.srcNew
  agc := AgcStep.initial lib.agc AGC_SAMPLE_RATE
  tx := RADETransmitStep.initial dv encState
  outputResampler := lib.resample.srcNew

end TxPipeline

end FreeDV.Pipeline
