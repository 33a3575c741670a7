import FreeDV.Pipeline.BlockStepsProperties
import FreeDV.Pipeline.RadeReceiveStepBounds
import FreeDV.Pipeline.RxPipeline

/-!
# How much a run of the receive pipeline puts out

A run is given 20 ms of audio, of which the demodulator asks for several at a
time. It therefore demodulates once at most and puts out one speech frame at
most, also behind the bandwidth expansion, which works in pieces of two frames of
10 ms: an even number of them leaves room for what is carried over.
-/

set_option autoImplicit false

namespace FreeDV.Pipeline

open Lib Util.GenericFifo

/-! ## One demodulator call -/

namespace RADEReceiveStep

variable {sizes : RadeSizes} {F R G T : Type} [FloatArith F] {lib : Library sizes F R G T}

/-- The most frames a demodulator call gives. -/
def framesPerCall (sizes : RadeSizes) : Nat := sizes.nFeaturesInOut / sizes.nbTotalFeatures

/-- With input for less than two demodulator calls at most one is made. -/
theorem Loops.one_call {run last : Execution sizes F R G T} {ending : Ending}
    (bounded : RxBounded lib) (loops : Loops lib run last ending) (aligned : Aligned run)
    (empty : run.outputSamples = []) {ninMin : Nat} (asked : ∀ dv, ninMin ≤ (lib.radeNin dv).1)
    (short : run.pending.length < 2 * ninMin) (few : framesPerCall sizes < 99) :
    last.outputSamples.length ≤ framesPerCall sizes * LPCNET_FRAME_SIZE ∧
      last.modem.pendingFeatures = [] ∧ last.inputSampleFifo.numUsed < sizes.ninMax := by
  cases loops with
  | full full =>
      refine absurd ?_ full
      rw [Execution.HasRoom, empty]
      decide
  | drained room missing whole output rxCalls modem =>
      rw [output, empty, modem, Queue.numUsed, whole]
      exact ⟨Nat.zero_le _, aligned.features, missing.trans_le (lib.nin_le _)⟩
  | block room advances further =>
      rename_i next
      obtain ⟨alignedNext, frames, most, length, -⟩ := advances.output_le bounded aligned
      have single : frames ≤ framesPerCall sizes := most.trans (Nat.min_le_left _ _)
      rw [empty, List.length_nil, Nat.zero_add] at length
      have left : next.pending.length < ninMin := by
        have least := asked run.modem.dv
        have enough := advances.enough
        rw [advances.pending, List.length_drop]
        omega
      cases further with
      | full full =>
          refine absurd ?_ full
          rw [Execution.HasRoom, length, LPCNET_FRAME_SIZE, RADE_SPEECH_SAMPLE_RATE]
          omega
      | drained room missing whole output rxCalls modem =>
          rw [output, length, modem, Queue.numUsed, whole]
          exact ⟨Nat.mul_le_mul_right _ single, alignedNext.features,
            missing.trans_le (lib.nin_le _)⟩
      | block room advances further =>
          have least := asked next.modem.dv
          have enough := advances.enough
          omega

theorem execute_one_call (bounded : RxBounded lib) {step : State sizes F R G T}
    (fresh : step.modem.pendingFeatures = []) (inputSamples : List Int16) {ninMin : Nat}
    (asked : ∀ dv, ninMin ≤ (lib.radeNin dv).1)
    (short : step.inputSampleFifo.numUsed + inputSamples.length < 2 * ninMin)
    (few : framesPerCall sizes < 99) :
    let made := execute lib step inputSamples
    made.1.outputSamples.length ≤ framesPerCall sizes * LPCNET_FRAME_SIZE ∧
      made.2.modem.pendingFeatures = [] ∧ made.2.inputSampleFifo.numUsed < sizes.ninMax := by
  refine ((Execution.start step inputSamples).loop_loops lib).one_call bounded
    ⟨fresh, Nat.dvd_zero _⟩ rfl asked ?_ few
  rwa [Execution.start, Execution.pending, List.length_append]

end RADEReceiveStep

/-! ## The pipeline -/

namespace RxPipeline

open RADEReceiveStep (RxBounded framesPerCall)
open BandwidthExpandStep (BWE_FRAME_SIZE)
open TxPipeline (Rates)

variable {sizes : RadeSizes} {F S R G T B : Type} [FloatArith F]
  {lib : Libraries sizes F S R G T B} {rates : Rates} {nsam ninMin : Nat}

/-- The modem asks for at least `ninMin` samples, a block of `nsam` samples is less than what is left
of two such calls, and a call gives an even number of frames at most. The output is not
resampled. -/
structure Budget (lib : Libraries sizes F S R G T B) (rates : Rates) (nsam ninMin : Nat) :
    Prop where
  rx : RxBounded lib.rade
  asked : ∀ dv, ninMin ≤ (lib.rade.radeNin dv).1
  block : ∀ state block, block.length = nsam →
    (resample lib rates.inputSampleRate RADE_MODEM_SAMPLE_RATE state block).1.length +
      sizes.ninMax ≤ 2 * ninMin
  even : 2 ∣ framesPerCall sizes
  few : framesPerCall sizes < 99
  outputRate : rates.outputSampleRate = BandwidthExpandStep.OUTPUT_SAMPLE_RATE

/-- Between two runs nothing waits that would make a run longer. -/
structure Settled (pipeline : State sizes F S R G T B) : Prop where
  features : pipeline.rx.modem.pendingFeatures = []
  modem : pipeline.rx.inputSampleFifo.numUsed < sizes.ninMax
  speech : pipeline.bwe.inputSampleFifo.numUsed < BWE_FRAME_SIZE

omit [FloatArith F] in
theorem Settled.initial [FloatArith F] (inputBuf : List Int16) (dv : R) (fargan : G)
    (textPtr : Option T) :
    Settled (initial lib inputBuf dv fargan textPtr) where
  features := rfl
  modem := (Nat.lt_of_lt_of_le Nat.zero_lt_one (lib.rade.nin_pos dv)).trans_le (lib.rade.nin_le dv)
  speech := Nat.succ_pos 319

/-- A speech frame at the output rate. -/
theorem frame_expanded (even : 2 ∣ framesPerCall sizes) {carried speech : Nat}
    (short : carried < BWE_FRAME_SIZE)
    (single : speech ≤ framesPerCall sizes * LPCNET_FRAME_SIZE) :
    (carried + speech) / BWE_FRAME_SIZE * BandwidthExpandStep.outputSize ≤
      sizes.nFeaturesInOut * LPCNET_FRAME_SIZE / sizes.nbTotalFeatures *
        BandwidthExpandStep.OUTPUT_SAMPLE_RATE / RADE_SPEECH_SAMPLE_RATE := by
  obtain ⟨pairs, count⟩ := even
  have whole : framesPerCall sizes * LPCNET_FRAME_SIZE ≤
      sizes.nFeaturesInOut * LPCNET_FRAME_SIZE / sizes.nbTotalFeatures := by
    rw [Nat.le_div_iff_mul_le sizes.positive, framesPerCall, Nat.mul_right_comm]
    exact Nat.mul_le_mul_right _ (Nat.div_mul_le_self _ _)
  have pieces : (carried + speech) / BWE_FRAME_SIZE ≤ pairs := by
    rw [count] at single
    rw [BWE_FRAME_SIZE] at short ⊢
    rw [LPCNET_FRAME_SIZE] at single
    omega
  rw [count] at whole
  have width : BandwidthExpandStep.outputSize = 960 := rfl
  rw [width]
  simp only [BandwidthExpandStep.OUTPUT_SAMPLE_RATE, RADE_SPEECH_SAMPLE_RATE]
  rw [LPCNET_FRAME_SIZE] at whole ⊢
  omega

/-- A run puts out one speech frame at most, and leaves the pipeline ready for the next. -/
theorem Settled.execute (budget : Budget lib rates nsam ninMin) {pipeline : State sizes F S R G T B}
    (settled : Settled pipeline) {block : List Int16} (length : block.length = nsam) :
    Settled (RxPipeline.execute lib rates pipeline block).2 ∧
      (RxPipeline.execute lib rates pipeline block).1.outputSamples.length ≤
        sizes.nFeaturesInOut * LPCNET_FRAME_SIZE / sizes.nbTotalFeatures *
          rates.outputSampleRate / RADE_SPEECH_SAMPLE_RATE := by
  have input := budget.block pipeline.inputResampler block length
  have carried := settled.modem
  obtain ⟨single, features, modem⟩ := RADEReceiveStep.execute_one_call budget.rx settled.features
    (resample lib rates.inputSampleRate RADE_MODEM_SAMPLE_RATE pipeline.inputResampler block).1
    budget.asked (by omega) budget.few
  obtain ⟨expanded, speech⟩ := (bandwidthExpandStep_executes lib.bwe).output_le settled.speech
    (RADEReceiveStep.execute lib.rade pipeline.rx (resample lib rates.inputSampleRate
      RADE_MODEM_SAMPLE_RATE pipeline.inputResampler block).1).1.outputSamples
  refine ⟨⟨features, modem, speech⟩, ?_⟩
  have frame := frame_expanded budget.even settled.speech single
  have output : (RxPipeline.execute lib rates pipeline block).1.outputSamples =
      (BandwidthExpandStep.execute lib.bwe pipeline.bwe
        (RADEReceiveStep.execute lib.rade pipeline.rx (resample lib rates.inputSampleRate
          RADE_MODEM_SAMPLE_RATE pipeline.inputResampler block).1).1.outputSamples).1.output := by
    simp only [RxPipeline.execute, resample, budget.outputRate, if_true]
  rw [output, budget.outputRate]
  exact expanded.trans frame

theorem Settled.mapBlocks (budget : Budget lib rates nsam ninMin)
    {pipeline : State sizes F S R G T B} (settled : Settled pipeline) {items : List (List Int16)}
    (lengths : ∀ block ∈ items, block.length = nsam) :
    let made := Lib.mapBlocks (RxPipeline.execute lib rates) pipeline items
    Settled made.2 ∧ ∀ run ∈ made.1, run.outputSamples.length ≤
      sizes.nFeaturesInOut * LPCNET_FRAME_SIZE / sizes.nbTotalFeatures *
        rates.outputSampleRate / RADE_SPEECH_SAMPLE_RATE := by
  induction items generalizing pipeline with
  | nil => exact ⟨settled, fun run member => by cases member⟩
  | cons block rest ih =>
      obtain ⟨here, later⟩ := List.forall_mem_cons.mp lengths
      obtain ⟨next, first⟩ := settled.execute budget here
      obtain ⟨final, runs⟩ := ih next later
      exact ⟨final, List.forall_mem_cons.mpr ⟨first, runs⟩⟩

end RxPipeline

end FreeDV.Pipeline
