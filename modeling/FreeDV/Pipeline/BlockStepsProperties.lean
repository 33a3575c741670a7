import FreeDV.Pipeline.BlockSteps

/-!
# Block steps do not depend on how their input is cut

A call hands the library the whole blocks of what was buffered and what it was
given, and keeps the rest. Calls compose, so a sequence of calls does what one
call with the concatenated input would do.
-/

set_option autoImplicit false

namespace FreeDV.Pipeline

open Lib Util.GenericFifo

variable {sizes : BlockSizes} {σ : Type} {body : BlockBody σ} {run middle after : Execution sizes σ}

/-! ## One call -/

/-- From `run` to `after` the blocks of `stream` were worked off. -/
structure Consumed (body : BlockBody σ) (stream : List Int16) (run after : Execution sizes σ) :
    Prop where
  buffered : after.inputSampleFifo.elements = remainder sizes.block stream
  library : after.library = (mapBlocks body.process run.library (blocks sizes.block stream)).2
  handed : after.handed = run.handed ++ blocks sizes.block stream
  output : after.output =
    run.output ++ (mapBlocks body.process run.library (blocks sizes.block stream)).1.flatten
  touched : after.touched ≤
    max run.touched (run.output.length + stream.length / sizes.block * body.width)

theorem length_flatten_le (process : σ → List Int16 → List Int16 × σ) {width : Nat}
    (bounded : ∀ state block, (process state block).1.length ≤ width) (state : σ)
    (items : List (List Int16)) :
    (mapBlocks process state items).1.flatten.length ≤ items.length * width := by
  induction items generalizing state with
  | nil => simp [mapBlocks]
  | cons block rest ih =>
      have first := bounded state block
      have later := ih (process state block).2
      simp only [mapBlocks, List.flatten_cons, List.length_append, List.length_cons, Nat.succ_mul]
      omega

theorem Consumed.none (short : run.inputSampleFifo.numUsed < sizes.block) :
    Consumed body run.inputSampleFifo.elements run run where
  buffered := (remainder_of_short short).symm
  library := by rw [blocks_of_short short, mapBlocks]
  handed := by rw [blocks_of_short short, List.append_nil]
  output := by rw [blocks_of_short short, mapBlocks, List.flatten_nil, List.append_nil]
  touched := Nat.le_max_left _ _

theorem Consumed.trans {first second : List Int16} (begun : Consumed body first run middle)
    (continued : Consumed body (middle.inputSampleFifo.elements ++ second) middle after) :
    Consumed body (first ++ second) run after := by
  obtain ⟨split, rest⟩ := blocks_append sizes.positive first second
  have whole := length_blocks sizes.block (first ++ second)
  rw [split, List.length_append, length_blocks, length_blocks, ← begun.buffered] at whole
  rw [← begun.buffered] at split rest
  constructor
  · rw [continued.buffered, rest]
  · rw [continued.library, begun.library, split, mapBlocks_append]
  · rw [continued.handed, begun.handed, split, List.append_assoc]
  · rw [continued.output, begun.output, begun.library, split, mapBlocks_append, List.flatten_append,
      List.append_assoc]
  · have emitted := length_flatten_le body.process body.bounded run.library (blocks sizes.block first)
    have bound := continued.touched
    have earlier := begun.touched
    rw [begun.output, List.length_append] at bound
    rw [length_blocks] at emitted
    rw [← whole, Nat.add_mul]
    omega

theorem Consumed.drain (body : BlockBody σ) (run : Execution sizes σ) :
    Consumed body run.inputSampleFifo.elements run (run.drain body) := by
  fun_induction Execution.drain body run with
  | case1 run taken =>
      apply Consumed.none
      by_contra long
      rw [Queue.read_of_le (Nat.le_of_not_lt long)] at taken
      cases taken
  | case2 run block fifo taken ih =>
      obtain ⟨enough, rfl, rest⟩ := Queue.read_eq_some taken
      have count := length_div_of_long sizes.positive enough
      constructor
      · rw [ih.buffered, remainder_of_long sizes.positive enough, ← rest]
        rfl
      · rw [ih.library, blocks_of_long sizes.positive enough, ← rest]
        rfl
      · rw [ih.handed, blocks_of_long sizes.positive enough, ← rest]
        simp only [Execution.processBlock, List.append_assoc, List.singleton_append]
      · rw [ih.output, blocks_of_long sizes.positive enough, ← rest]
        simp only [Execution.processBlock, List.append_assoc, mapBlocks, List.flatten_cons]
      · have emitted := body.bounded run.library (run.inputSampleFifo.elements.take sizes.block)
        apply Nat.le_trans ih.touched
        simp only [Execution.processBlock, rest, List.length_append]
        rw [count, Nat.succ_mul]
        omega

theorem Consumed.feedPiece {piece : List Int16} (room : piece.length ≤ run.inputSampleFifo.numFree) :
    Consumed body (run.inputSampleFifo.elements ++ piece) run (run.feedPiece body piece) := by
  have drained := Consumed.drain body
    { run with inputSampleFifo := run.inputSampleFifo.writeAny piece }
  simp only [Queue.elements_writeAny room] at drained
  exact ⟨drained.buffered, drained.library, drained.handed, drained.output, drained.touched⟩

theorem Consumed.short {stream : List Int16} (consumed : Consumed body stream run after) :
    after.inputSampleFifo.numUsed < sizes.block := by
  rw [Queue.numUsed, consumed.buffered]
  exact length_remainder_lt sizes.positive stream

/-- A turn of the outer loop, and the loop behind it. -/
theorem Consumed.feedPiece_trans {inputSamples : List Int16} {samplesToWrite : Nat}
    (room : samplesToWrite ≤ run.inputSampleFifo.numFree)
    (continued : (run.feedPiece body (inputSamples.take samplesToWrite)).inputSampleFifo.numUsed <
        sizes.block →
      Consumed body
        ((run.feedPiece body (inputSamples.take samplesToWrite)).inputSampleFifo.elements ++
          inputSamples.drop samplesToWrite)
        (run.feedPiece body (inputSamples.take samplesToWrite)) after) :
    Consumed body (run.inputSampleFifo.elements ++ inputSamples) run after := by
  have fits : (inputSamples.take samplesToWrite).length ≤ run.inputSampleFifo.numFree := by
    rw [List.length_take]
    omega
  have piece : Consumed body _ run _ := Consumed.feedPiece fits
  have whole := piece.trans (continued piece.short)
  rwa [List.append_assoc, List.take_append_drop] at whole

theorem Consumed.feed (inputSamples : List Int16) (short : run.inputSampleFifo.numUsed < sizes.block) :
    Consumed body (run.inputSampleFifo.elements ++ inputSamples) run (run.feed body inputSamples) := by
  fun_induction Execution.feed body run inputSamples with
  | case1 run inputSamples pending samplesToWrite stuck =>
      -- a full FIFO holds a block
      have block := sizes.fits
      have whole := run.inputSampleFifo.numUsed_add_numFree
      omega
  | case2 run inputSamples pending samplesToWrite stuck ih =>
      exact Consumed.feedPiece_trans (Nat.min_le_left _ _) ih
  | case3 run inputSamples empty =>
      rw [List.eq_nil_of_length_eq_zero (Nat.eq_zero_of_not_pos empty), List.append_nil]
      exact Consumed.none short

theorem Consumed.feedAll (inputSamples : List Int16)
    (short : run.inputSampleFifo.numUsed < sizes.block) :
    Consumed body (run.inputSampleFifo.elements ++ inputSamples) run
      (run.feedAll body inputSamples) := by
  fun_induction Execution.feedAll body run inputSamples with
  | case1 run inputSamples pending samplesToWrite ih =>
      exact Consumed.feedPiece_trans (Nat.min_le_left _ _) ih
  | case2 run inputSamples empty =>
      rw [List.eq_nil_of_length_eq_zero (Nat.eq_zero_of_not_pos empty), List.append_nil]
      exact Consumed.none short

/-! ## Sequences of calls -/

/-- What a sequence of calls, of which `stream` is the whole input, has done: the blocks handed
to the library, the samples left in the FIFO and the samples put out, where `results` are the
library's results for a sequence of blocks. No call leaves the buffer of `buffer` samples. -/
structure WorkedOff (size buffer : Nat) (results : List (List Int16) → List (List Int16))
    (stream : List Int16) (made : List BlockCall) (left : List Int16) : Prop where
  handed : made.flatMap BlockCall.handed = blocks size stream
  buffered : left = remainder size stream
  short : left.length < size
  output : made.flatMap BlockCall.output = (results (blocks size stream)).flatten
  fits : ∀ call ∈ made, call.output.length ≤ buffer ∧ call.touched ≤ buffer

/-- Every sequence of calls with at most `second` samples each works off the concatenated input;
so two ways of cutting the same input do the same. -/
def ChunkingIndependent (second buffer : Nat) (results : List (List Int16) → List (List Int16))
    (execute : BlockStep sizes σ → List Int16 → BlockCall × BlockStep sizes σ)
    (start : BlockStep sizes σ) : Prop :=
  ∀ calls : List (List Int16), (∀ input ∈ calls, input.length ≤ second) →
    let made := mapBlocks execute start calls
    WorkedOff sizes.block buffer results calls.flatten made.1 made.2.inputSampleFifo.elements ∧
    ∀ others : List (List Int16), (∀ input ∈ others, input.length ≤ second) →
      others.flatten = calls.flatten →
      let remade := mapBlocks execute start others
      remade.1.flatMap BlockCall.handed = made.1.flatMap BlockCall.handed ∧
        remade.1.flatMap BlockCall.output = made.1.flatMap BlockCall.output ∧
        remade.2.inputSampleFifo.elements = made.2.inputSampleFifo.elements

variable {execute : BlockStep sizes σ → List Int16 → BlockCall × BlockStep sizes σ}
  {second buffer : Nat}

/-- `execute` works off what is buffered and its input. -/
def Executes (body : BlockBody σ)
    (execute : BlockStep sizes σ → List Int16 → BlockCall × BlockStep sizes σ) : Prop :=
  ∀ step input, step.inputSampleFifo.numUsed < sizes.block →
    ∃ after, Consumed body (step.inputSampleFifo.elements ++ input) (Execution.start step) after ∧
      execute step input = (after.call, after.behind)

/-- A call puts out the results of the blocks it completes, and leaves less than a block. -/
theorem Executes.output_le (executes : Executes body execute) {step : BlockStep sizes σ}
    (short : step.inputSampleFifo.numUsed < sizes.block) (inputSamples : List Int16) :
    let made := execute step inputSamples
    made.1.output.length ≤
        (step.inputSampleFifo.numUsed + inputSamples.length) / sizes.block * body.width ∧
      made.2.inputSampleFifo.numUsed < sizes.block := by
  obtain ⟨after, consumed, executed⟩ := executes step inputSamples short
  have bound := length_flatten_le body.process body.bounded step.library
    (blocks sizes.block (step.inputSampleFifo.elements ++ inputSamples))
  have output : after.output = (mapBlocks body.process step.library
      (blocks sizes.block (step.inputSampleFifo.elements ++ inputSamples))).1.flatten :=
    consumed.output
  rw [length_blocks, List.length_append, ← output] at bound
  dsimp only
  rw [executed]
  exact ⟨bound, consumed.short⟩

/-- One second of input is a whole number of blocks, whose results fill the buffer. -/
structure FillsBuffer (sizes : BlockSizes) (body : BlockBody σ) (second buffer : Nat) : Prop where
  whole : second / sizes.block * sizes.block = second
  buffer : second / sizes.block * body.width = buffer

theorem FillsBuffer.bound (fills : FillsBuffer sizes body second buffer) {carried input : Nat}
    (short : carried < sizes.block) (limit : input ≤ second) :
    (carried + input) / sizes.block * body.width ≤ buffer := by
  have positive := sizes.positive
  have count : (carried + input) / sizes.block ≤ second / sizes.block := by
    rw [← Nat.lt_succ_iff, Nat.div_lt_iff_lt_mul positive, Nat.succ_mul, fills.whole]
    omega
  rw [← fills.buffer]
  exact Nat.mul_le_mul_right _ count

theorem mapBlocks_execute (executes : Executes body execute)
    (fills : FillsBuffer sizes body second buffer) (step : BlockStep sizes σ)
    (short : step.inputSampleFifo.numUsed < sizes.block) (calls : List (List Int16))
    (limit : ∀ input ∈ calls, input.length ≤ second) :
    let made := mapBlocks execute step calls
    let stream := step.inputSampleFifo.elements ++ calls.flatten
    WorkedOff sizes.block buffer (fun items => (mapBlocks body.process step.library items).1) stream
      made.1 made.2.inputSampleFifo.elements := by
  induction calls generalizing step with
  | nil =>
      simp only [mapBlocks, List.flatten_nil, List.append_nil]
      exact ⟨by simp [blocks_of_short short], (remainder_of_short short).symm, short,
        by simp [blocks_of_short short, mapBlocks], by simp⟩
  | cons input rest ih =>
      obtain ⟨inputLimit, restLimit⟩ := List.forall_mem_cons.mp limit
      obtain ⟨after, consumed, executed⟩ := executes step input short
      have later := ih after.behind consumed.short restLimit
      obtain ⟨split, rest⟩ := blocks_append sizes.positive
        (step.inputSampleFifo.elements ++ input) rest.flatten
      rw [← consumed.buffered] at split rest
      have handed := consumed.handed
      have output := consumed.output
      have library := consumed.library
      simp only [Execution.start, List.nil_append] at handed output library
      simp only [mapBlocks, executed, List.flatten_cons]
      rw [← List.append_assoc]
      constructor
      · rw [List.flatMap_cons, later.handed, split]
        exact congrArg (· ++ _) handed
      · rw [later.buffered, rest]
        rfl
      · exact later.short
      · rw [List.flatMap_cons, later.output, split, mapBlocks_append, List.flatten_append]
        simp only [Execution.behind, Execution.call, output, library]
      · have bound := fills.bound short inputLimit
        have touched := consumed.touched
        have emitted := length_flatten_le body.process body.bounded step.library
          (blocks sizes.block (step.inputSampleFifo.elements ++ input))
        simp only [Execution.start, List.length_nil, Nat.zero_add, Nat.zero_max,
          List.length_append] at touched
        rw [length_blocks, List.length_append] at emitted
        intro call member
        rcases List.mem_cons.mp member with rfl | made
        · simp only [Execution.call, output]
          exact ⟨Nat.le_trans emitted bound, Nat.le_trans touched bound⟩
        · exact later.fits call made

theorem chunkingIndependent (executes : Executes body execute)
    (fills : FillsBuffer sizes body second buffer) {start : BlockStep sizes σ}
    (fresh : start.inputSampleFifo = .empty) {results : List (List Int16) → List (List Int16)}
    (same : ∀ items, (mapBlocks body.process start.library items).1.flatten =
      (results items).flatten) :
    ChunkingIndependent second buffer results execute start := by
  have short : start.inputSampleFifo.numUsed < sizes.block := by
    rw [fresh]
    exact sizes.positive
  have worked : ∀ calls : List (List Int16), (∀ input ∈ calls, input.length ≤ second) →
      WorkedOff sizes.block buffer results calls.flatten (mapBlocks execute start calls).1
        (mapBlocks execute start calls).2.inputSampleFifo.elements := by
    intro calls limit
    have made := mapBlocks_execute executes fills start short calls limit
    simp only [fresh, Queue.elements_empty, List.nil_append] at made
    exact ⟨made.handed, made.buffered, made.short, made.output.trans (same _), made.fits⟩
  intro calls limit made
  refine ⟨worked calls limit, ?_⟩
  intro others othersLimit flat remade
  have first := worked calls limit
  have second := worked others othersLimit
  rw [flat] at second
  exact ⟨second.handed.trans first.handed.symm, second.output.trans first.output.symm,
    second.buffered.trans first.buffered.symm⟩

/-! ## The steps -/

section AgcStep

variable {D F E W : Type} [FloatArith D] [FloatArith F] (lib : AgcStep.Library D F E W)
  (sampleRate : Int)

theorem agcStep_executes :
    Executes (AgcStep.body lib sampleRate) (AgcStep.execute lib sampleRate) := by
  intro step input short
  have consumed : Consumed (AgcStep.body lib sampleRate) _ (Execution.start step) _ :=
    Consumed.feed input short
  exact ⟨_, consumed, rfl⟩

theorem agcStep_fillsBuffer :
    FillsBuffer (AgcStep.blockSizes sampleRate) (AgcStep.body lib sampleRate)
      (AgcStep.runRate sampleRate) (AgcStep.runRate sampleRate) := by
  have whole : AgcStep.runRate sampleRate / AgcStep.numSamplesPerRun sampleRate *
      AgcStep.numSamplesPerRun sampleRate = AgcStep.runRate sampleRate := by
    rcases AgcStep.runRate_cases sampleRate with rate | rate | rate | rate <;>
      simp [AgcStep.numSamplesPerRun, rate, AgcStep.MAX_AGC_SAMPLES, AgcStep.TEN_MS_DIVIDER]
  exact ⟨whole, whole⟩

end AgcStep

section RNNoiseStep

variable {F R : Type} (lib : RNNoiseStep.Library F R)

theorem rnnoiseStep_executes : Executes (RNNoiseStep.body lib) (RNNoiseStep.execute lib) := by
  intro step input short
  have consumed : Consumed (RNNoiseStep.body lib) _ (Execution.start step) _ :=
    Consumed.feed input short
  exact ⟨_, consumed, rfl⟩

theorem rnnoiseStep_fillsBuffer :
    FillsBuffer RNNoiseStep.blockSizes (RNNoiseStep.body lib) RNNoiseStep.RNNOISE_SAMPLE_RATE
      RNNoiseStep.RNNOISE_SAMPLE_RATE :=
  ⟨rfl, rfl⟩

theorem rnnoiseStep_results_behind_first (rnnoise : R) (items : List (List Int16)) :
    (mapBlocks (RNNoiseStep.processBlock lib) ⟨false, rnnoise⟩ items).1 =
      (mapBlocks (RNNoiseStep.denoise lib) rnnoise items).1 := by
  induction items generalizing rnnoise with
  | nil => rfl
  | cons block rest ih => simp only [mapBlocks, RNNoiseStep.processBlock, ih, Bool.false_eq_true,
      if_false]

/-- Behind a start the result for the first block is left out. -/
theorem rnnoiseStep_results (rnnoise : R) (items : List (List Int16)) :
    (mapBlocks (RNNoiseStep.processBlock lib) ⟨true, rnnoise⟩ items).1.flatten =
      ((mapBlocks (RNNoiseStep.denoise lib) rnnoise items).1.drop 1).flatten := by
  cases items with
  | nil => rfl
  | cons block rest =>
      have behind := rnnoiseStep_results_behind_first lib
        (RNNoiseStep.denoise lib rnnoise block).2 rest
      simp only [mapBlocks, RNNoiseStep.processBlock, behind, if_true, List.flatten_cons,
        List.nil_append, List.drop_succ_cons, List.drop_zero]

end RNNoiseStep

section BandwidthExpandStep

variable {B : Type} (lib : BandwidthExpandStep.Library B)

theorem bandwidthExpandStep_executes :
    Executes (BandwidthExpandStep.body lib) (BandwidthExpandStep.execute lib) := by
  intro step input short
  have consumed : Consumed (BandwidthExpandStep.body lib) _ (Execution.start step) _ :=
    Consumed.feedAll input short
  exact ⟨_, consumed, rfl⟩

theorem bandwidthExpandStep_fillsBuffer :
    FillsBuffer BandwidthExpandStep.blockSizes (BandwidthExpandStep.body lib)
      BandwidthExpandStep.INPUT_SAMPLE_RATE BandwidthExpandStep.OUTPUT_SAMPLE_RATE :=
  ⟨rfl, rfl⟩

end BandwidthExpandStep

/-- From construction or a reset on, each of the three steps works off its input in consecutive
blocks, however the input is cut into calls of at most one second. The noise reducer leaves out
the result for its first block. The loops of the steps are total functions. -/
theorem blockSteps_chunkingIndependent :
    (∀ (D F E W : Type) [FloatArith D] [FloatArith F] (lib : AgcStep.Library D F E W)
      (sampleRate : Int) (start : BlockStep (AgcStep.blockSizes sampleRate) (AgcStep.State F E W)),
      start = AgcStep.initial lib sampleRate ∨ (∃ step, start = AgcStep.reset lib sampleRate step) →
      ChunkingIndependent (AgcStep.runRate sampleRate) (AgcStep.runRate sampleRate)
        (fun items => (mapBlocks (AgcStep.processBlock lib sampleRate) start.library items).1)
        (AgcStep.execute lib sampleRate) start) ∧
    (∀ (F R : Type) (lib : RNNoiseStep.Library F R)
      (start : BlockStep RNNoiseStep.blockSizes (RNNoiseStep.State R)),
      start = RNNoiseStep.initial lib ∨ (∃ step, start = RNNoiseStep.reset lib step) →
      ChunkingIndependent RNNoiseStep.RNNOISE_SAMPLE_RATE RNNoiseStep.RNNOISE_SAMPLE_RATE
        (fun items => (mapBlocks (RNNoiseStep.denoise lib) start.library.rnnoise items).1.drop 1)
        (RNNoiseStep.execute lib) start) ∧
    ∀ (B : Type) (lib : BandwidthExpandStep.Library B)
      (start : BlockStep BandwidthExpandStep.blockSizes B),
      start = BandwidthExpandStep.initial lib ∨
        (∃ step, start = BandwidthExpandStep.reset lib step) →
      ChunkingIndependent BandwidthExpandStep.INPUT_SAMPLE_RATE
        BandwidthExpandStep.OUTPUT_SAMPLE_RATE
        (fun items => (mapBlocks lib.osceBwe start.library items).1)
        (BandwidthExpandStep.execute lib) start := by
  refine ⟨?_, ?_, ?_⟩
  · intro D F E W _ _ lib sampleRate start fresh
    have empty : start.inputSampleFifo = .empty := by
      rcases fresh with rfl | ⟨step, rfl⟩ <;> rfl
    exact chunkingIndependent (agcStep_executes lib sampleRate) (agcStep_fillsBuffer lib sampleRate)
      empty fun _ => rfl
  · intro F R lib start fresh
    have empty : start.inputSampleFifo = .empty := by
      rcases fresh with rfl | ⟨step, rfl⟩ <;> rfl
    have first : start.library = ⟨true, start.library.rnnoise⟩ := by
      rcases fresh with rfl | ⟨step, rfl⟩ <;> rfl
    apply chunkingIndependent (rnnoiseStep_executes lib) (rnnoiseStep_fillsBuffer lib) empty
    intro items
    rw [first]
    exact rnnoiseStep_results lib _ items
  · intro B lib start fresh
    have empty : start.inputSampleFifo = .empty := by
      rcases fresh with rfl | ⟨step, rfl⟩ <;> rfl
    exact chunkingIndependent (bandwidthExpandStep_executes lib)
      (bandwidthExpandStep_fillsBuffer lib) empty fun _ => rfl

/-- The first `size` samples, filled up with silence. -/
def passThrough (size : Nat) (block : List Int16) : List Int16 :=
  (List.range size).map fun k => block.getD k 0

/-- Loudness on target, no limiting. -/
def passThroughAgc : AgcStep.Library ℚ ℚ Unit Unit where
  ebur128AddFramesShort _ _ := ()
  ebur128LoudnessMomentary _ := (0, -23)
  ebur128Init := ()
  webRtcAgcInit _ := ()
  webRtcAgcCreate := ()
  webRtcAgcProcess _ block samples := (passThrough samples block, ())
  length_process _ _ _ := by rw [passThrough, List.length_map, List.length_range]
  hugeVal := 10 ^ 300
  narrow := id
  widen := id
  expf _ := 1
  logf _ := 1
  trunc value := Int16.ofInt value.floor

def passThroughRNNoise : RNNoiseStep.Library Int16 Unit where
  rnnoiseCreate := ()
  rnnoiseInit _ := ()
  rnnoiseProcessFrame _ frame := (passThrough RNNoiseStep.RNNOISE_FRAME_SIZE frame, ())
  length_process _ _ := by rw [passThrough, List.length_map, List.length_range]
  toFloat := id
  toShort := id

def passThroughBwe : BandwidthExpandStep.Library Unit where
  osceCreate := ()
  osceReset _ := ()
  osceBwe _ block := (passThrough BandwidthExpandStep.outputSize block, ())
  length_process _ _ := by rw [passThrough, List.length_map, List.length_range]

/-- Two calls of 300 samples each, to all three steps. -/
theorem blockSteps_chunkingIndependent_two_calls :
    letI := exactArith ℚ
    let calls : List (List Int16) := [List.replicate 300 1, List.replicate 300 2]
    let agc := mapBlocks (AgcStep.execute passThroughAgc 8000)
      (AgcStep.initial passThroughAgc 8000) calls
    let rnnoise := mapBlocks (RNNoiseStep.execute passThroughRNNoise)
      (RNNoiseStep.initial passThroughRNNoise) calls
    let bwe := mapBlocks (BandwidthExpandStep.execute passThroughBwe)
      (BandwidthExpandStep.initial passThroughBwe) calls
    agc.1.flatMap BlockCall.handed = blocks 80 calls.flatten ∧
      rnnoise.1.flatMap BlockCall.handed = blocks 480 calls.flatten ∧
      bwe.1.flatMap BlockCall.handed = blocks 320 calls.flatten := by
  let := exactArith ℚ
  intro calls agc rnnoise bwe
  have limit : ∀ second, 300 ≤ second → ∀ input ∈ calls, input.length ≤ second := by
    intro second enough input member
    rcases List.mem_cons.mp member with rfl | member
    · rwa [List.length_replicate]
    · rwa [List.mem_singleton.mp member, List.length_replicate]
  obtain ⟨agcStep, rnnoiseStep, bweStep⟩ := blockSteps_chunkingIndependent
  exact ⟨(agcStep ℚ ℚ Unit Unit passThroughAgc 8000 _ (.inl rfl) calls (limit _ (by decide))).1.handed,
    (rnnoiseStep Int16 Unit passThroughRNNoise _ (.inl rfl) calls (limit _ (by decide))).1.handed,
    (bweStep Unit passThroughBwe _ (.inl rfl) calls (limit _ (by decide))).1.handed⟩

end FreeDV.Pipeline
