import FreeDV.Lib.Simulation
import FreeDV.Pipeline.AudioPipeline
import FreeDV.Pipeline.BlockStepsProperties
import FreeDV.Pipeline.RadeTransmitStepRuns

/-!
# Pipelines that cannot be told apart

Behind a reset, two pipelines with different histories hand the same frames to
the feature extraction as long as they get the same input. What they put out
differs, since the encoder and the modem are not reset, but not in length.
-/

set_option autoImplicit false

namespace FreeDV.Pipeline

open Lib Util.GenericFifo

/-! ## Block steps -/

section BlockSteps

variable {sizes : BlockSizes} {σ : Type} {body : BlockBody σ} {related : σ → σ → Prop}
  {execute : BlockStep sizes σ → List Int16 → BlockCall × BlockStep sizes σ}
  {step step' : BlockStep sizes σ}

structure BlockAlike (related : σ → σ → Prop) (step step' : BlockStep sizes σ) : Prop where
  fifo : step.inputSampleFifo = step'.inputSampleFifo
  short : step.inputSampleFifo.numUsed < sizes.block
  library : related step.library step'.library

theorem BlockAlike.call (executes : Executes body execute)
    (agree : ∀ state state' block, related state state' →
      (body.process state block).1 = (body.process state' block).1 ∧
        related (body.process state block).2 (body.process state' block).2)
    (alike : BlockAlike related step step') {input input' : List Int16} (same : input = input') :
    (execute step input).1.output = (execute step' input').1.output ∧
      BlockAlike related (execute step input).2 (execute step' input').2 := by
  subst same
  obtain ⟨after, consumed, executed⟩ := executes step input alike.short
  obtain ⟨after', consumed', executed'⟩ := executes step' input (alike.fifo ▸ alike.short)
  rw [← alike.fifo] at consumed'
  obtain ⟨same, further⟩ := mapBlocks_related agree alike.library
    (blocks sizes.block (step.inputSampleFifo.elements ++ input))
  rw [executed, executed']
  refine ⟨?_, ?_, consumed.short, ?_⟩
  · rw [Execution.call, Execution.call, consumed.output, consumed'.output]
    exact congrArg (fun results => [] ++ results.flatten) same
  · ext1
    exact consumed.buffered.trans consumed'.buffered.symm
  · rw [Execution.behind, Execution.behind, consumed.library, consumed'.library]
    exact further

end BlockSteps

/-! ## Noise reduction and AGC -/

section RNNoiseStep

variable {F N : Type} (lib : RNNoiseStep.Library F N)

def RNNoiseStep.Related (s s' : RNNoiseStep.State N) : Prop :=
  s.firstFrame = s'.firstFrame ∧ Alike id id lib.rnnoiseProcessFrame s.rnnoise s'.rnnoise

theorem RNNoiseStep.agree (s s' : RNNoiseStep.State N) (block : List Int16)
    (related : RNNoiseStep.Related lib s s') :
    (RNNoiseStep.processBlock lib s block).1 = (RNNoiseStep.processBlock lib s' block).1 ∧
      RNNoiseStep.Related lib (RNNoiseStep.processBlock lib s block).2
        (RNNoiseStep.processBlock lib s' block).2 := by
  obtain ⟨first, alike⟩ := related
  have frame : (lib.rnnoiseProcessFrame s.rnnoise (block.map lib.toFloat)).1 =
      (lib.rnnoiseProcessFrame s'.rnnoise (block.map lib.toFloat)).1 := alike.answer rfl
  refine ⟨?_, rfl, alike.behind rfl⟩
  simp only [RNNoiseStep.processBlock, RNNoiseStep.denoise, first, frame]

end RNNoiseStep

section AgcStep

variable {D F E W : Type} [FloatArith D] [FloatArith F] (lib : AgcStep.Library D F E W)

/-- A block is added, and the loudness behind it is what can be seen. -/
def AgcStep.hear (ebur128State : E) (block : List Int16) : (Int × D) × E :=
  (lib.ebur128LoudnessMomentary (lib.ebur128AddFramesShort ebur128State block),
    lib.ebur128AddFramesShort ebur128State block)

def AgcStep.limit (agcState : W) (input : List Int16 × Nat) : List Int16 × W :=
  lib.webRtcAgcProcess agcState input.1 input.2

structure AgcStep.Related (s s' : AgcStep.State F E W) : Prop where
  same : s' = { s with ebur128State := s'.ebur128State, agcState := s'.agcState }
  ebur128 : Alike id id (AgcStep.hear lib) s.ebur128State s'.ebur128State
  webRtcAgc : Alike id id (AgcStep.limit lib) s.agcState s'.agcState

variable {lib} {s s' : AgcStep.State F E W}

theorem AgcStep.Related.measure (related : AgcStep.Related lib s s') (block : List Int16) :
    AgcStep.Related lib (AgcStep.measure lib s block) (AgcStep.measure lib s' block) := by
  obtain ⟨target, current, count, valid, ebur128State, agcState⟩ := s
  obtain ⟨same, alike, limits⟩ := related
  have loudness : lib.ebur128LoudnessMomentary (lib.ebur128AddFramesShort ebur128State block) =
      lib.ebur128LoudnessMomentary (lib.ebur128AddFramesShort s'.ebur128State block) :=
    alike.answer rfl
  have heard : Alike id id (AgcStep.hear lib) (lib.ebur128AddFramesShort ebur128State block)
      (lib.ebur128AddFramesShort s'.ebur128State block) := alike.behind rfl
  rw [same]
  unfold AgcStep.measure
  split
  · simp only [loudness]
    exact ⟨rfl, heard, limits⟩
  · exact ⟨rfl, heard, limits⟩

omit [FloatArith D] in
theorem AgcStep.Related.rampGain (related : AgcStep.Related lib s s') (sampleRate : Int) :
    AgcStep.Related lib (AgcStep.rampGain sampleRate s) (AgcStep.rampGain sampleRate s') := by
  rw [related.same]
  unfold AgcStep.rampGain
  dsimp only
  split
  · exact ⟨rfl, related.ebur128, related.webRtcAgc⟩
  · exact ⟨rfl, related.ebur128, related.webRtcAgc⟩

theorem AgcStep.agree (sampleRate : Int) (s s' : AgcStep.State F E W) (block : List Int16)
    (related : AgcStep.Related lib s s') :
    (AgcStep.processBlock lib sampleRate s block).1 =
        (AgcStep.processBlock lib sampleRate s' block).1 ∧
      AgcStep.Related lib (AgcStep.processBlock lib sampleRate s block).2
        (AgcStep.processBlock lib sampleRate s' block).2 := by
  have ready := (related.measure block).rampGain sampleRate
  unfold AgcStep.processBlock
  generalize AgcStep.rampGain sampleRate (AgcStep.measure lib s block) = t at ready
  generalize AgcStep.rampGain sampleRate (AgcStep.measure lib s' block) = t' at ready
  have gain : t'.currentGainDb = t.currentGainDb := by rw [ready.same]
  have limited : (lib.webRtcAgcProcess t.agcState (AgcStep.scale lib t.currentGainDb block)
        (AgcStep.numSamplesPerRun sampleRate)).1 =
      (lib.webRtcAgcProcess t'.agcState (AgcStep.scale lib t.currentGainDb block)
        (AgcStep.numSamplesPerRun sampleRate)).1 :=
    ready.webRtcAgc.answer (Eq.refl (id (_, _)))
  have further : Alike id id (AgcStep.limit lib)
      (lib.webRtcAgcProcess t.agcState (AgcStep.scale lib t.currentGainDb block)
        (AgcStep.numSamplesPerRun sampleRate)).2
      (lib.webRtcAgcProcess t'.agcState (AgcStep.scale lib t.currentGainDb block)
        (AgcStep.numSamplesPerRun sampleRate)).2 :=
    ready.webRtcAgc.behind (Eq.refl (id (_, _)))
  simp only [gain]
  refine ⟨limited, ?_, ready.ebur128, further⟩
  rw [ready.same]

end AgcStep

/-! ## Resampling -/

/-- What is looked at of samples: the samples themselves, or their number. -/
structure View {κ : Type} (seen : List Int16 → κ) : Prop where
  length : ∀ {xs ys}, seen xs = seen ys → xs.length = ys.length
  take : ∀ {xs ys} (n : Nat), seen xs = seen ys → seen (xs.take n) = seen (ys.take n)
  drop : ∀ {xs ys} (n : Nat), seen xs = seen ys → seen (xs.drop n) = seen (ys.drop n)
  append : ∀ {xs ys xs' ys'}, seen xs = seen ys → seen xs' = seen ys' →
    seen (xs ++ xs') = seen (ys ++ ys')
  map : ∀ {xs ys} (f : Int16 → Int16), seen xs = seen ys → seen (xs.map f) = seen (ys.map f)

theorem View.samples : View (id : List Int16 → List Int16) where
  length same := congrArg List.length same
  take n same := congrArg (List.take n) same
  drop n same := congrArg (List.drop n) same
  append same rest := congrArg₂ (· ++ ·) same rest
  map f same := congrArg (List.map f) same

theorem View.count : View (List.length : List Int16 → Nat) where
  length same := same
  take n same := by rw [List.length_take, List.length_take, same]
  drop n same := by rw [List.length_drop, List.length_drop, same]
  append same rest := by rw [List.length_append, List.length_append, same, rest]
  map f same := by rw [List.length_map, List.length_map, same]

section ResampleStep

variable {S κ : Type} {lib : ResampleStep.Library S} {inputSampleRate outputSampleRate : Nat}
  {seen : List Int16 → κ} {state state' : S} {samples samples' : List Int16}

theorem ResampleStep.processAll_alike (view : View seen)
    (alike : Alike seen seen (lib.srcProcess inputSampleRate outputSampleRate) state state')
    (same : seen samples = seen samples') :
    seen (ResampleStep.processAll lib inputSampleRate outputSampleRate state samples).1 =
        seen (ResampleStep.processAll lib inputSampleRate outputSampleRate state' samples').1 ∧
      Alike seen seen (lib.srcProcess inputSampleRate outputSampleRate)
        (ResampleStep.processAll lib inputSampleRate outputSampleRate state samples).2
        (ResampleStep.processAll lib inputSampleRate outputSampleRate state' samples').2 := by
  have length := view.length same
  induction count : samples.length using Nat.strongRecOn generalizing samples samples' state state'
    with
  | ind _ ih =>
      rw [ResampleStep.processAll, ResampleStep.processAll]
      simp only [← length]
      split
      · rename_i more
        have piece := view.take (min samples.length (inputSampleRate * 10 / 1000)) same
        have rest := view.drop (min samples.length (inputSampleRate * 10 / 1000)) same
        obtain ⟨later, final⟩ := ih _ (by rw [List.length_drop]; omega) (alike.behind piece) rest
          (view.length rest) rfl
        exact ⟨view.append (alike.answer piece) later, final⟩
      · exact ⟨rfl, alike⟩

theorem ResampleStep.execute_alike (view : View seen)
    (alike : Alike seen seen (lib.srcProcess inputSampleRate outputSampleRate) state state')
    (same : seen samples = seen samples') :
    seen (ResampleStep.execute lib inputSampleRate outputSampleRate state samples).1 =
        seen (ResampleStep.execute lib inputSampleRate outputSampleRate state' samples').1 ∧
      Alike seen seen (lib.srcProcess inputSampleRate outputSampleRate)
        (ResampleStep.execute lib inputSampleRate outputSampleRate state samples).2
        (ResampleStep.execute lib inputSampleRate outputSampleRate state' samples').2 := by
  rw [ResampleStep.execute, ResampleStep.execute, view.length same]
  split
  · exact ⟨rfl, alike⟩
  · split
    · exact ⟨same, alike⟩
    · exact ResampleStep.processAll_alike view alike same

end ResampleStep

/-! ## The pipeline -/

namespace TxPipeline

open RADETransmitStep (TxSizes)

variable {sizes : TxSizes} {D F N S E W L R : Type} [FloatArith D] [FloatArith F]
  {lib : Libraries sizes D F N S E W L R} {rates : Rates}
  {pipeline pipeline' : State F N S E W L R}

/-- What a reset leaves of a library cannot be told from a new one. libebur128 has no reset of its
own and is given 400 ms of silence. -/
structure ResetsLibraries (lib : Libraries sizes D F N S E W L R) : Prop where
  rnnoise : ∀ state, Alike id id lib.rnnoise.rnnoiseProcessFrame
    (lib.rnnoise.rnnoiseInit state) lib.rnnoise.rnnoiseCreate
  ebur128 : ∀ state, Alike id id (AgcStep.hear lib.agc)
    (AgcStep.feedSilence lib.agc AGC_SAMPLE_RATE (AgcStep.runRate AGC_SAMPLE_RATE * 4 / 10) state)
    lib.agc.ebur128Init
  webRtcAgc : ∀ state, Alike id id (AgcStep.limit lib.agc)
    (lib.agc.webRtcAgcInit state) (lib.agc.webRtcAgcInit lib.agc.webRtcAgcCreate)
  resample : ∀ inputSampleRate outputSampleRate state,
    Alike id id (lib.resample.srcProcess inputSampleRate outputSampleRate)
      (lib.resample.srcReset state) lib.resample.srcNew

/-- How many samples a new resampler gives depends only on how many it is given. -/
def CountsSamples (lib : ResampleStep.Library S) : Prop :=
  ∀ inputSampleRate outputSampleRate, Alike List.length List.length
    (lib.srcProcess inputSampleRate outputSampleRate) lib.srcNew lib.srcNew

/-- Pipelines that treat the same speech alike up to the transmitter, and count alike from there
on. -/
structure SpeechAlike (lib : Libraries sizes D F N S E W L R) (rates : Rates)
    (pipeline pipeline' : State F N S E W L R) : Prop where
  inputResampler : Alike id id
    (lib.resample.srcProcess rates.inputSampleRate RNNoiseStep.RNNOISE_SAMPLE_RATE)
    pipeline.inputResampler pipeline'.inputResampler
  rnnoise : BlockAlike (RNNoiseStep.Related lib.rnnoise) pipeline.rnnoise pipeline'.rnnoise
  agcResampler : Alike id id
    (lib.resample.srcProcess RNNoiseStep.RNNOISE_SAMPLE_RATE (AgcStep.runRate AGC_SAMPLE_RATE))
    pipeline.agcResampler pipeline'.agcResampler
  agc : BlockAlike (AgcStep.Related lib.agc) pipeline.agc pipeline'.agc
  tx : pipeline.tx.Counts pipeline'.tx
  outputResampler : Alike List.length List.length
    (lib.resample.srcProcess RADE_MODEM_SAMPLE_RATE rates.outputSampleRate)
    pipeline.outputResampler pipeline'.outputResampler

omit [FloatArith D] in
/-- Two resets leave pipelines alike, whatever there was before. -/
theorem SpeechAlike.reset (resets : ResetsLibraries lib) (counts : CountsSamples lib.resample)
    (rates : Rates) (pipeline pipeline' : State F N S E W L R) :
    SpeechAlike lib rates (reset lib pipeline) (reset lib pipeline') where
  inputResampler := (resets.resample _ _ _).trans (resets.resample _ _ _).symm
  rnnoise := ⟨rfl, RNNoiseStep.blockSizes.positive, rfl,
    (resets.rnnoise _).trans (resets.rnnoise _).symm⟩
  agcResampler := (resets.resample _ _ _).trans (resets.resample _ _ _).symm
  agc := ⟨rfl, (AgcStep.blockSizes AGC_SAMPLE_RATE).positive, rfl,
    (resets.ebur128 _).trans (resets.ebur128 _).symm,
    (resets.webRtcAgc _).trans (resets.webRtcAgc _).symm⟩
  tx := ⟨rfl, rfl, rfl⟩
  outputResampler :=
    ((resets.resample _ _ _).coarsen (counts _ _)).trans
      ((resets.resample _ _ _).coarsen (counts _ _)).symm

omit [FloatArith D] [FloatArith F] in
theorem resample_alike {κ : Type} {seen : List Int16 → κ} (view : View seen)
    {inputSampleRate outputSampleRate : Nat} {state state' : S} {samples samples' : List Int16}
    (alike : Alike seen seen (lib.resample.srcProcess inputSampleRate outputSampleRate) state
      state') (same : seen samples = seen samples') :
    seen (resample lib inputSampleRate outputSampleRate state samples).1 =
        seen (resample lib inputSampleRate outputSampleRate state' samples').1 ∧
      Alike seen seen (lib.resample.srcProcess inputSampleRate outputSampleRate)
        (resample lib inputSampleRate outputSampleRate state samples).2
        (resample lib inputSampleRate outputSampleRate state' samples').2 := by
  rw [resample, resample]
  split
  · exact ⟨same, alike⟩
  · exact ResampleStep.execute_alike view alike same

/-- The same speech reaches the transmitter. -/
theorem SpeechAlike.prepare (alike : SpeechAlike lib rates pipeline pipeline')
    (inputSamples : List Int16) :
    (prepare lib rates pipeline inputSamples).1 = (prepare lib rates pipeline' inputSamples).1 ∧
      SpeechAlike lib rates (prepare lib rates pipeline inputSamples).2
        (prepare lib rates pipeline' inputSamples).2 := by
  obtain ⟨samples, inputResampler⟩ :=
    resample_alike View.samples alike.inputResampler (Eq.refl (id inputSamples))
  obtain ⟨denoised, rnnoise⟩ := alike.rnnoise.call (rnnoiseStep_executes lib.rnnoise)
    (RNNoiseStep.agree lib.rnnoise) samples
  obtain ⟨converted, agcResampler⟩ := resample_alike View.samples alike.agcResampler denoised
  obtain ⟨levelled, agc⟩ := alike.agc.call (agcStep_executes lib.agc AGC_SAMPLE_RATE)
    (AgcStep.agree AGC_SAMPLE_RATE) converted
  exact ⟨levelled, inputResampler, rnnoise, agcResampler, agc, alike.tx, alike.outputResampler⟩

omit [FloatArith D] in
theorem finish_alike {κ : Type} {seen : List Int16 → κ} (view : View seen) {state state' : S}
    (alike : Alike seen seen
      (lib.resample.srcProcess RADE_MODEM_SAMPLE_RATE rates.outputSampleRate) state state')
    {modemSamples modemSamples' : List Int16} (same : seen modemSamples = seen modemSamples') :
    seen (finish lib rates state modemSamples).1 = seen (finish lib rates state' modemSamples').1 ∧
      Alike seen seen (lib.resample.srcProcess RADE_MODEM_SAMPLE_RATE rates.outputSampleRate)
        (finish lib rates state modemSamples).2 (finish lib rates state' modemSamples').2 := by
  obtain ⟨converted, further⟩ := resample_alike view alike same
  exact ⟨view.map _ converted, further⟩

/-- The same input gives the same frames, and as many samples. -/
theorem SpeechAlike.execute (alike : SpeechAlike lib rates pipeline pipeline')
    (inputSamples : List Int16) :
    let made := execute lib rates pipeline inputSamples
    let made' := execute lib rates pipeline' inputSamples
    made.1.tx.frames = made'.1.tx.frames ∧
      made.1.outputSamples.length = made'.1.outputSamples.length ∧
      SpeechAlike lib rates made.2 made'.2 := by
  obtain ⟨speech, ready⟩ := alike.prepare inputSamples
  obtain ⟨frames, length, tx⟩ := ready.tx.execute lib.rade speech
  obtain ⟨output, outputResampler⟩ := finish_alike View.count ready.outputResampler length
  exact ⟨frames, output, { ready with tx, outputResampler }⟩

end TxPipeline

end FreeDV.Pipeline
