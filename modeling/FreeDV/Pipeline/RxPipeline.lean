import FreeDV.Pipeline.AudioPipeline
import FreeDV.Pipeline.RadeReceiveStep

/-!
# The receive pipeline

`initializePipeline_` puts the RADE receiver and the bandwidth expansion one
behind the other. Their rates meet at 16 kHz, so there are resamplers in front of
and behind them only.
-/

set_option autoImplicit false

namespace FreeDV.Pipeline.RxPipeline

open TxPipeline (Rates)

/-- Everything outside the repository that a reception uses. -/
structure Libraries (sizes : RadeSizes) (F S R G T B : Type) where
  resample : ResampleStep.Library S
  rade : RADEReceiveStep.Library sizes F R G T
  bwe : BandwidthExpandStep.Library B

structure State (sizes : RadeSizes) (F S R G T B : Type) where
  inputResampler : S
  rx : RADEReceiveStep.State sizes F R G T
  bwe : BlockStep BandwidthExpandStep.blockSizes B
  outputResampler : S

/-- What a call of `execute` put out, and what the receiver did in it. -/
structure Run where
  outputSamples : List Int16
  modemSamples : List Int16
  rx : RADEReceiveStep.Call

variable {sizes : RadeSizes} {F S R G T B : Type} [FloatArith F]
  (lib : Libraries sizes F S R G T B) (rates : Rates)

omit [FloatArith F] in
/-- A place for a resampler; there is none between equal rates. -/
def resample (inputSampleRate outputSampleRate : Nat) (state : S) (samples : List Int16) :
    List Int16 × S :=
  if inputSampleRate = outputSampleRate then (samples, state)
  else ResampleStep.execute lib.resample inputSampleRate outputSampleRate state samples

def execute (pipeline : State sizes F S R G T B) (inputSamples : List Int16) :
    Run × State sizes F S R G T B :=
  let (modemSamples, inputResampler) :=
    resample lib rates.inputSampleRate RADE_MODEM_SAMPLE_RATE pipeline.inputResampler inputSamples
  let (call, rx) := RADEReceiveStep.execute lib.rade pipeline.rx modemSamples
  let (expanded, bwe) := BandwidthExpandStep.execute lib.bwe pipeline.bwe call.outputSamples
  let (outputSamples, outputResampler) :=
    resample lib BandwidthExpandStep.OUTPUT_SAMPLE_RATE rates.outputSampleRate
      pipeline.outputResampler expanded.output
  (⟨outputSamples, modemSamples, call⟩, { inputResampler, rx, bwe, outputResampler })

/-- A new pipeline over an open modem. -/
def initial (inputBuf : List Int16) (dv : R) (fargan : G) (textPtr : Option T) :
    State sizes F S R G T B where
  inputResampler := lib.resample.srcNew
  rx := RADEReceiveStep.initial inputBuf dv fargan textPtr
  bwe := BandwidthExpandStep.initial lib.bwe
  outputResampler := lib.resample.srcNew

end FreeDV.Pipeline.RxPipeline
