import FreeDV.Pipeline.BlockStepsProperties
import FreeDV.Pipeline.MinimalTxRxThread
import FreeDV.Pipeline.RadeTransmitStepProperties

/-!
# How much a run of the transmit pipeline puts out

A run is given 20 ms of speech, and the modulator takes several such pieces at a
time. It therefore modulates once at most, takes all of its input, and leaves no
modem sample behind. The end of over is longer, but nothing else is put out with
it.
-/

set_option autoImplicit false

namespace FreeDV.Pipeline

open Lib Util.GenericFifo

/-- A step that puts out as much as it takes never gains more than a block. -/
theorem Executes.output_le_add {sizes : BlockSizes} {σ : Type} {body : BlockBody σ}
    {execute : BlockStep sizes σ → List Int16 → BlockCall × BlockStep sizes σ}
    (executes : Executes body execute) (width : body.width = sizes.block)
    {step : BlockStep sizes σ} (short : step.inputSampleFifo.numUsed < sizes.block)
    (inputSamples : List Int16) :
    (execute step inputSamples).2.inputSampleFifo.numUsed < sizes.block ∧
      (execute step inputSamples).1.output.length ≤ inputSamples.length + sizes.block := by
  obtain ⟨output, left⟩ := executes.output_le short inputSamples
  rw [width] at output
  have pieces := output.trans (Nat.div_mul_le_self _ _)
  exact ⟨left, by omega⟩

/-! ## One modulator call -/

namespace RADETransmitStep

variable {sizes : TxSizes} {F E R : Type} [FloatArith F] {lib : Library sizes F E R}

/-- Every full set of features gives its samples. -/
theorem Loops.produced_le (whole : sizes.Whole) {run last : Execution F E R}
    (loops : Loops lib run last) (delivers : Delivers run.modulation) {frames : Nat}
    (holds : HoldsFrames sizes run.modulation.featureList frames) :
    last.modulation.produced.length ≤ run.modulation.produced.length +
      (frames + run.pending.length / LPCNET_FRAME_SIZE) / framesPerTx sizes * sizes.nTxOut := by
  induction loops generalizing frames with
  | full full => exact Nat.le_add_right _ _
  | short room missing fifo rest made encState modulation =>
      rw [modulation]
      exact Nat.le_add_right _ _
  | frame room advances further ih =>
      rename_i run next last
      have turns : run.pending.length / LPCNET_FRAME_SIZE =
          next.pending.length / LPCNET_FRAME_SIZE + 1 := by
        rw [advances.pending, List.length_drop, ← Nat.add_div_right _ (by decide),
          Nat.sub_add_cancel advances.enough]
      obtain ⟨nextDelivers, ⟨-, more, same⟩ | ⟨full, none, grown⟩⟩ :=
        Delivers.advance whole advances room delivers holds
      · have later := ih nextDelivers more
        rwa [same, Nat.add_assoc, Nat.add_comm 1, ← turns] at later
      · have later := ih nextDelivers none
        have sets : (frames + run.pending.length / LPCNET_FRAME_SIZE) / framesPerTx sizes =
            (0 + next.pending.length / LPCNET_FRAME_SIZE) / framesPerTx sizes + 1 := by
          rw [← Nat.add_div_right _ whole.positive, turns, ← full]
          congr 1
          omega
        rw [sets, Nat.succ_mul]
        omega

theorem Loops.left_short {run last : Execution F E R} (loops : Loops lib run last)
    (short : run.inputSampleFifo.numUsed < LPCNET_FRAME_SIZE) :
    last.inputSampleFifo.numUsed < LPCNET_FRAME_SIZE := by
  induction loops with
  | full full => exact short
  | short room missing fifo rest made encState modulation => rwa [Queue.numUsed, fifo]
  | frame room advances further ih =>
      apply ih
      rw [Queue.numUsed, advances.emptied]
      exact Nat.succ_pos 159

/-- A call without input only empties the output. -/
theorem execute_nil (lib : Library sizes F E R) (step : State F E R) :
    execute lib step [] =
      (⟨step.outputSampleFifo.elements, [], [], []⟩, { step with outputSampleFifo := .empty }) := by
  simp only [execute, List.length_nil, if_true, readOutput_numUsed]

/-- With input for one set of features at most, all of it is taken and one set is modulated. -/
theorem execute_one_tx (lib : Library sizes F E R) (whole : sizes.Whole) {step : State F E R}
    {frames : Nat} (rests : Rests sizes step frames)
    (short : step.inputSampleFifo.numUsed < LPCNET_FRAME_SIZE) {inputSamples : List Int16}
    (few : step.inputSampleFifo.numUsed + inputSamples.length <
      (framesPerTx sizes + 1) * LPCNET_FRAME_SIZE)
    (twice : 2 * sizes.nTxOut < RADE_MODEM_SAMPLE_RATE) :
    let made := execute lib step inputSamples
    (∃ later, Rests sizes made.2 later) ∧
      made.2.inputSampleFifo.numUsed < LPCNET_FRAME_SIZE ∧
      made.1.outputSamples = made.1.produced ∧ made.1.outputSamples.length ≤ sizes.nTxOut ∧
      made.1.frames.flatten ++ made.2.inputSampleFifo.elements =
        step.inputSampleFifo.elements ++ inputSamples := by
  by_cases given : inputSamples = []
  · subst given
    rw [execute_nil, rests.output]
    exact ⟨⟨frames, rfl, rests.features⟩, short, rfl, Nat.zero_le _, (List.append_nil _).symm⟩
  obtain ⟨later, inOrder, -, -, lost, accounts, lossless⟩ :=
    execute_spec lib whole rests given
  have loops := (Execution.start step inputSamples).loop_loops lib
  have delivers : Delivers (Execution.start step inputSamples).modulation := by
    refine ⟨?_, rfl, show 0 < RADE_MODEM_SAMPLE_RATE by decide⟩
    rw [Execution.start, rests.output]
    rfl
  have bound := loops.produced_le whole delivers rests.features
  have left := loops.left_short short
  have pending : (Execution.start step inputSamples).pending.length =
      step.inputSampleFifo.numUsed + inputSamples.length := List.length_append
  have turns : (step.inputSampleFifo.numUsed + inputSamples.length) / LPCNET_FRAME_SIZE ≤
      framesPerTx sizes := Nat.le_of_lt_succ (Nat.div_lt_of_lt_mul (by rwa [Nat.mul_comm] at few))
  have started := rests.features.2
  have once : (frames + (step.inputSampleFifo.numUsed + inputSamples.length) / LPCNET_FRAME_SIZE) /
      framesPerTx sizes ≤ 1 :=
    Nat.le_of_lt_succ (Nat.div_lt_of_lt_mul (by omega))
  have absorbed : Absorbs sizes step inputSamples := by
    have held : step.featureList.length / sizes.nbTotalFeatures = frames := by
      rw [rests.features.1, Nat.mul_div_cancel _ sizes.positive]
    have before : txNeeded sizes frames (step.inputSampleFifo.numUsed + inputSamples.length) ≤ 1 :=
      (Nat.div_le_div_right (Nat.add_le_add_left (Nat.div_le_div_right (Nat.sub_le _ _)) _)).trans
        once
    rw [Absorbs, held]
    exact (Nat.mul_le_mul_right _ (Nat.succ_le_succ before)).trans_lt twice
  rw [pending] at bound
  have single : (execute lib step inputSamples).1.produced.length ≤ sizes.nTxOut := by
    have made : (execute lib step inputSamples).1.produced =
        ((Execution.start step inputSamples).loop lib).modulation.produced := by
      rw [execute, if_neg fun none => given (List.eq_nil_of_length_eq_zero none)]
    rw [made]
    refine bound.trans ?_
    have most := Nat.mul_le_mul_right sizes.nTxOut once
    rw [Nat.one_mul] at most
    exact (Nat.zero_add _).trans_le most
  refine ⟨later, ?_, inOrder, inOrder ▸ single, ?_⟩
  · rw [execute, if_neg fun none => given (List.eq_nil_of_length_eq_zero none)]
    exact left
  · rw [lossless.mpr absorbed, List.append_nil] at accounts
    exact accounts

end RADETransmitStep

/-! ## The pipeline -/

namespace TxPipeline

open RADETransmitStep (TxSizes framesPerTx HoldsFrames Rests NUM_SAMPLES_SILENCE)
open MinimalTxRxThread (getTxNNomModemSamples)

variable {sizes : TxSizes} {D F N S E W L R : Type} [FloatArith D] [FloatArith F]
  {lib : Libraries sizes D F N S E W L R} {rates : Rates}
  {nsam denoised levelled modemFrame : Nat}

/-- What the resamplers make of a block of `nsam` samples is at most one set of features, and what
they make of one modem frame, or of the end of over, has room in `modemFrame` samples. -/
structure Budget (lib : Libraries sizes D F N S E W L R) (rates : Rates)
    (nsam denoised levelled modemFrame : Nat) : Prop where
  whole : sizes.Whole
  block : ∀ state block, block.length = nsam →
    (resample lib rates.inputSampleRate RNNoiseStep.RNNOISE_SAMPLE_RATE state block).1.length +
      RNNoiseStep.RNNOISE_FRAME_SIZE ≤ denoised
  agc : ∀ state samples, samples.length ≤ denoised →
    (resample lib RNNoiseStep.RNNOISE_SAMPLE_RATE (AgcStep.runRate AGC_SAMPLE_RATE) state
      samples).1.length + AgcStep.MAX_AGC_SAMPLES ≤ levelled
  frames : levelled ≤ framesPerTx sizes * LPCNET_FRAME_SIZE
  twice : 2 * sizes.nTxOut < RADE_MODEM_SAMPLE_RATE
  eoo : sizes.nTxEooOut + NUM_SAMPLES_SILENCE < RADE_MODEM_SAMPLE_RATE
  card : ∀ state samples, samples.length ≤ getTxNNomModemSamples sizes →
    (resample lib RADE_MODEM_SAMPLE_RATE rates.outputSampleRate state samples).1.length ≤ modemFrame

/-- Between two runs no step holds a whole block of its own. -/
structure Settled (pipeline : State F N S E W L R) (sizes : TxSizes) : Prop where
  denoiser : pipeline.rnnoise.inputSampleFifo.numUsed < RNNoiseStep.RNNOISE_FRAME_SIZE
  levels : pipeline.agc.inputSampleFifo.numUsed < AgcStep.MAX_AGC_SAMPLES
  speech : pipeline.tx.inputSampleFifo.numUsed < LPCNET_FRAME_SIZE
  features : ∃ frames, HoldsFrames sizes pipeline.tx.featureList frames

omit [FloatArith D] in
theorem Settled.reset (whole : sizes.Whole)
    (pipeline : State F N S E W L R) : Settled (reset lib pipeline) sizes where
  denoiser := Nat.succ_pos 479
  levels := Nat.succ_pos 159
  speech := Nat.succ_pos 159
  features := ⟨0, (Nat.zero_mul _).symm, whole.positive⟩

/-- The part in front of the transmitter gives at most one set of frames. -/
theorem Settled.prepare (budget : Budget lib rates nsam denoised levelled modemFrame)
    {pipeline : State F N S E W L R} (settled : Settled pipeline sizes) {block : List Int16}
    (length : block.length = nsam) :
    Settled (prepare lib rates pipeline block).2 sizes ∧
      (prepare lib rates pipeline block).1.length ≤ levelled := by
  have heard := budget.block pipeline.inputResampler block length
  obtain ⟨denoiser, cleaned⟩ := (rnnoiseStep_executes lib.rnnoise).output_le_add rfl
    settled.denoiser (resample lib rates.inputSampleRate RNNoiseStep.RNNOISE_SAMPLE_RATE
      pipeline.inputResampler block).1
  have resampled := budget.agc pipeline.agcResampler _ (cleaned.trans heard)
  obtain ⟨levels, adjusted⟩ := (agcStep_executes lib.agc AGC_SAMPLE_RATE).output_le_add rfl
    settled.levels (resample lib RNNoiseStep.RNNOISE_SAMPLE_RATE (AgcStep.runRate AGC_SAMPLE_RATE)
      pipeline.agcResampler (RNNoiseStep.execute lib.rnnoise pipeline.rnnoise
        (resample lib rates.inputSampleRate RNNoiseStep.RNNOISE_SAMPLE_RATE
          pipeline.inputResampler block).1).1.output).1
  exact ⟨⟨denoiser, levels, settled.speech, settled.features⟩, adjusted.trans resampled⟩

omit [FloatArith D] in
/-- The part behind the transmitter. -/
theorem Budget.finish_le (budget : Budget lib rates nsam denoised levelled modemFrame)
    (outputResampler : S) {modemSamples : List Int16}
    (few : modemSamples.length ≤ getTxNNomModemSamples sizes) :
    (finish lib rates outputResampler modemSamples).1.length ≤ modemFrame := by
  have room := budget.card outputResampler modemSamples few
  simp only [finish, LevelAdjustStep.execute, List.length_map]
  exact room

/-- What a run on a block does when no modem sample was left. -/
structure Clears (lib : Libraries sizes D F N S E W L R) (rates : Rates) (modemFrame : Nat)
    (pipeline : State F N S E W L R) (block : List Int16) (run : Run F)
    (after : State F N S E W L R) : Prop where
  settled : Settled after sizes
  empty : after.tx.outputSampleFifo = .empty
  all : run.tx.outputSamples = run.tx.produced
  fits : run.outputSamples.length ≤ modemFrame
  frames : run.tx.frames.flatten ++ after.tx.inputSampleFifo.elements =
    pipeline.tx.inputSampleFifo.elements ++ (TxPipeline.prepare lib rates pipeline block).1

theorem Settled.execute (budget : Budget lib rates nsam denoised levelled modemFrame)
    {pipeline : State F N S E W L R} (settled : Settled pipeline sizes)
    (empty : pipeline.tx.outputSampleFifo = .empty) {block : List Int16}
    (length : block.length = nsam) :
    Clears lib rates modemFrame pipeline block (execute lib rates pipeline block).1
      (execute lib rates pipeline block).2 := by
  obtain ⟨before, short⟩ := settled.prepare budget length
  obtain ⟨frames, features⟩ := settled.features
  have carried := settled.speech
  have few : pipeline.tx.inputSampleFifo.numUsed +
      (TxPipeline.prepare lib rates pipeline block).1.length <
        (framesPerTx sizes + 1) * LPCNET_FRAME_SIZE := by
    have sets := short.trans budget.frames
    rw [Nat.succ_mul]
    omega
  obtain ⟨⟨later, rests⟩, speech, all, once, taken⟩ := RADETransmitStep.execute_one_tx lib.rade
    budget.whole (⟨empty, features⟩ : Rests sizes pipeline.tx frames) carried few budget.twice
  exact {
    settled := ⟨before.denoiser, before.levels, speech, later, rests.features⟩
    empty := rests.output
    all := all
    fits := budget.finish_le _ (once.trans (Nat.le_max_left _ _))
    frames := taken }

end TxPipeline

end FreeDV.Pipeline
