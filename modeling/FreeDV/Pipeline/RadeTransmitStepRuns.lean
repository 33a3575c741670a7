import FreeDV.Pipeline.RadeTransmitStepProperties

/-!
# What passes through the RADE transmitter step

Whatever the step has been through before, the sets of features it hands to the
modulator are the features of its frames, one behind the other, and the samples
it puts out are samples it was given by the modem. How many there are depends on
its input and on counts only.
-/

set_option autoImplicit false

namespace FreeDV.Pipeline.RADETransmitStep

open Lib Util.GenericFifo

variable {sizes : TxSizes} {F E R : Type} [FloatArith F] {lib : Library sizes F E R}

/-! ## Features -/

/-- Features handed over and features waiting, in order. -/
def Modulation.collected (m : Modulation F R) : List F := m.batches.flatten ++ m.featureList

theorem collected_pushFeature (lib : Library sizes F E R) (m : Modulation F R) (feature : F) :
    (pushFeature lib m feature).collected = m.collected ++ [feature] := by
  simp only [pushFeature]
  split
  · simp [Modulation.collected]
  · simp [Modulation.collected]

theorem collected_pushFeatures (lib : Library sizes F E R) (m : Modulation F R)
    (features : List F) :
    (features.foldl (pushFeature lib) m).collected = m.collected ++ features := by
  induction features generalizing m with
  | nil => simp
  | cons feature rest ih => rw [List.foldl_cons, ih, collected_pushFeature, List.append_assoc,
      List.singleton_append]

theorem Loops.collects {run last : Execution F E R} (loops : Loops lib run last) :
    ∃ made, last.frames = run.frames ++ made ∧
      last.encState = (mapBlocks lib.computeSingleFrameFeatures run.encState made).2 ∧
      last.modulation.collected = run.modulation.collected ++
        (mapBlocks lib.computeSingleFrameFeatures run.encState made).1.flatten := by
  induction loops with
  | full full => exact ⟨[], (List.append_nil _).symm, rfl, (List.append_nil _).symm⟩
  | short room missing fifo rest frames encState modulation =>
      refine ⟨[], by rw [frames, List.append_nil], encState, ?_⟩
      rw [modulation]
      exact (List.append_nil _).symm
  | frame room advances further ih =>
      obtain ⟨made, frames, encState, collected⟩ := ih
      rw [advances.encState] at encState collected
      refine ⟨_ :: made, ?_, encState, ?_⟩
      · rw [frames, advances.frames, List.append_assoc, List.singleton_append]
      · rw [collected, advances.modulation, collected_pushFeatures, List.append_assoc]
        rfl

/-- The features of the frames of a call come behind those that were waiting. -/
theorem execute_collects (lib : Library sizes F E R) (step : State F E R)
    (inputSamples : List Int16) :
    let made := execute lib step inputSamples
    let heard := mapBlocks lib.computeSingleFrameFeatures step.encState made.1.frames
    made.2.encState = heard.2 ∧
      made.1.batches.flatten ++ made.2.featureList = step.featureList ++ heard.1.flatten := by
  rw [execute]
  split
  · exact ⟨rfl, (List.append_nil _).symm⟩
  · obtain ⟨made, frames, encState, collected⟩ :=
      ((Execution.start step inputSamples).loop_loops lib).collects
    rw [show (Execution.start step inputSamples).frames = [] from rfl, List.nil_append] at frames
    dsimp only
    rw [frames]
    exact ⟨encState, collected⟩

/-! ## Samples -/

theorem sublist_pushFeature (lib : Library sizes F E R) (m : Modulation F R) (feature : F)
    {before : List Int16} (queued : m.outputSampleFifo.elements.Sublist (before ++ m.produced)) :
    (pushFeature lib m feature).outputSampleFifo.elements.Sublist
      (before ++ (pushFeature lib m feature).produced) := by
  simp only [pushFeature]
  split
  · refine (Queue.sublist_writeAny _ _).trans ?_
    rw [← List.append_assoc]
    exact queued.append (List.Sublist.refl _)
  · exact queued

theorem sublist_pushFeatures (lib : Library sizes F E R) (m : Modulation F R) (features : List F)
    {before : List Int16} (queued : m.outputSampleFifo.elements.Sublist (before ++ m.produced)) :
    (features.foldl (pushFeature lib) m).outputSampleFifo.elements.Sublist
      (before ++ (features.foldl (pushFeature lib) m).produced) := by
  induction features generalizing m with
  | nil => exact queued
  | cons feature rest ih => exact ih _ (sublist_pushFeature lib m feature queued)

theorem Loops.queues {run last : Execution F E R} (loops : Loops lib run last)
    {before : List Int16}
    (queued : run.modulation.outputSampleFifo.elements.Sublist
      (before ++ run.modulation.produced)) :
    last.modulation.outputSampleFifo.elements.Sublist (before ++ last.modulation.produced) := by
  induction loops with
  | full full => exact queued
  | short room missing fifo rest frames encState modulation =>
      rw [modulation]
      exact queued
  | frame room advances further ih =>
      apply ih
      rw [advances.modulation]
      exact sublist_pushFeatures lib _ _ queued

omit [FloatArith F] in
theorem readOutput_append (fifo : Queue Int16 RADE_MODEM_SAMPLE_RATE) (count : Nat) :
    (readOutput fifo count).1 ++ (readOutput fifo count).2.elements = fifo.elements := by
  by_cases enough : count ≤ fifo.numUsed
  · rw [readOutput, Queue.read_of_le enough]
    exact List.take_append_drop _ _
  · rw [readOutput, Queue.read_of_lt (Nat.lt_of_not_le enough)]
    rfl

/-- What a call puts out and leaves queued was queued before or is what the modulator gave. -/
theorem execute_emits (lib : Library sizes F E R) (step : State F E R)
    (inputSamples : List Int16) :
    let made := execute lib step inputSamples
    (made.1.outputSamples ++ made.2.outputSampleFifo.elements).Sublist
      (step.outputSampleFifo.elements ++ made.1.produced) := by
  rw [execute]
  split
  · dsimp only
    rw [readOutput_append, List.append_nil]
  · dsimp only
    rw [readOutput_append]
    refine ((Execution.start step inputSamples).loop_loops lib).queues ?_
    exact List.sublist_append_left _ _

/-! ## Counts -/

/-- Modulators that agree in what is counted. -/
structure Modulation.Counts (m m' : Modulation F R) : Prop where
  queued : m.outputSampleFifo.numUsed = m'.outputSampleFifo.numUsed
  features : m.featureList.length = m'.featureList.length
  output : m.numOutputSamples = m'.numOutputSamples

theorem Modulation.Counts.pushFeature {m m' : Modulation F R} (counts : m.Counts m')
    (feature feature' : F) :
    (pushFeature lib m feature).Counts (pushFeature lib m' feature') := by
  have length : (m'.featureList ++ [feature']).length = (m.featureList ++ [feature]).length := by
    rw [List.length_append, List.length_append, counts.features]
    rfl
  have queued := Queue.numUsed_writeAny counts.queued
    ((length_radeOutShort lib m.dv (m.featureList ++ [feature])).trans
      (length_radeOutShort lib m'.dv (m'.featureList ++ [feature'])).symm)
  simp only [RADETransmitStep.pushFeature, length]
  split
  · exact ⟨queued, rfl, queued⟩
  · exact ⟨counts.queued, length.symm, counts.output⟩

theorem Modulation.Counts.pushFeatures {m m' : Modulation F R} (counts : m.Counts m')
    {features features' : List F} (length : features.length = features'.length) :
    (features.foldl (RADETransmitStep.pushFeature lib) m).Counts
      (features'.foldl (RADETransmitStep.pushFeature lib) m') := by
  induction features generalizing m m' features' with
  | nil =>
      rw [List.eq_nil_of_length_eq_zero length.symm]
      exact counts
  | cons feature rest ih =>
      cases features' with
      | nil => cases length
      | cons feature' rest' =>
          exact ih (counts.pushFeature feature feature') (Nat.succ.inj length)

/-- Executions on the same input that agree in what is counted. -/
structure Execution.Counts (run run' : Execution F E R) : Prop where
  fifo : run.inputSampleFifo = run'.inputSampleFifo
  input : run.inputSamples = run'.inputSamples
  frames : run.frames = run'.frames
  modulation : run.modulation.Counts run'.modulation

theorem Execution.loop_of_short {run : Execution F E R}
    (room : run.modulation.numOutputSamples + sizes.nTxOut < RADE_MODEM_SAMPLE_RATE)
    (refused : (run.inputSampleFifo.fill run.inputSamples).1.read LPCNET_FRAME_SIZE = none) :
    run.loop lib =
      { run with
        inputSampleFifo := (run.inputSampleFifo.fill run.inputSamples).1
        inputSamples := (run.inputSampleFifo.fill run.inputSamples).2 } := by
  rw [Execution.loop, if_pos room]
  split
  · rfl
  · rename_i done
    cases refused.symm.trans done

theorem Execution.loop_of_read {run : Execution F E R}
    (room : run.modulation.numOutputSamples + sizes.nTxOut < RADE_MODEM_SAMPLE_RATE)
    {pcm : List Int16} {fifo : Queue Int16 (LPCNET_FRAME_SIZE + 1)}
    (done : (run.inputSampleFifo.fill run.inputSamples).1.read LPCNET_FRAME_SIZE =
      some (pcm, fifo)) :
    run.loop lib =
      (run.processFrame lib pcm fifo (run.inputSampleFifo.fill run.inputSamples).2).loop lib := by
  rw [Execution.loop, if_pos room]
  split
  · rename_i refused
    cases done.symm.trans refused
  · rename_i done'
    cases done.symm.trans done'
    rfl

theorem Execution.Counts.loop {run run' : Execution F E R} (counts : run.Counts run') :
    (run.loop lib).Counts (run'.loop lib) := by
  fun_induction Execution.loop lib run generalizing run' with
  | case1 run room refused =>
      rw [counts.modulation.output] at room
      rw [counts.fifo, counts.input] at refused
      rw [Execution.loop_of_short room refused]
      exact ⟨by rw [counts.fifo, counts.input], by rw [counts.fifo, counts.input], counts.frames,
        counts.modulation⟩
  | case2 run room pcm fifo done ih =>
      have further : Execution.Counts
          (run.processFrame lib pcm fifo (run.inputSampleFifo.fill run.inputSamples).2)
          (run'.processFrame lib pcm fifo (run'.inputSampleFifo.fill run'.inputSamples).2) := by
        refine ⟨rfl, by simp only [Execution.processFrame, counts.fifo, counts.input], ?_, ?_⟩
        · rw [Execution.processFrame, Execution.processFrame, counts.frames]
        · exact counts.modulation.pushFeatures
            ((lib.length_features _ _).trans (lib.length_features _ _).symm)
      rw [counts.modulation.output] at room
      rw [counts.fifo, counts.input] at done
      rw [Execution.loop_of_read room done]
      exact ih further
  | case3 run full =>
      rw [counts.modulation.output] at full
      rw [Execution.loop, if_neg full]
      exact counts

/-- Steps that agree in what is counted, and in the samples they hold back. -/
structure State.Counts (step step' : State F E R) : Prop where
  input : step.inputSampleFifo = step'.inputSampleFifo
  queued : step.outputSampleFifo.numUsed = step'.outputSampleFifo.numUsed
  features : step.featureList.length = step'.featureList.length

/-- The same input gives the same frames and as many samples. -/
theorem State.Counts.execute (lib : Library sizes F E R) {step step' : State F E R}
    (counts : step.Counts step') {inputSamples inputSamples' : List Int16}
    (same : inputSamples = inputSamples') :
    let made := execute lib step inputSamples
    let made' := execute lib step' inputSamples'
    made.1.frames = made'.1.frames ∧
      made.1.outputSamples.length = made'.1.outputSamples.length ∧ made.2.Counts made'.2 := by
  subst same
  rw [RADETransmitStep.execute, RADETransmitStep.execute]
  split
  · obtain ⟨length, left⟩ := Queue.getD_read_counts counts.queued step.outputSampleFifo.numUsed
    dsimp only
    rw [← counts.queued]
    exact ⟨rfl, length, counts.input, left, counts.features⟩
  · have start : (Execution.start step inputSamples).Counts (Execution.start step' inputSamples) :=
      ⟨counts.input, rfl, rfl, counts.queued, counts.features, rfl⟩
    have last : ((Execution.start step inputSamples).loop lib).Counts
        ((Execution.start step' inputSamples).loop lib) := start.loop
    obtain ⟨length, left⟩ := Queue.getD_read_counts last.modulation.queued
      ((Execution.start step inputSamples).loop lib).modulation.numOutputSamples
    dsimp only
    rw [← last.modulation.output]
    exact ⟨last.frames, length, last.fifo, left, last.modulation.features⟩

theorem State.Counts.restartVocoder (lib : Library sizes F E R) {step step' : State F E R}
    (counts : step.Counts step') :
    (restartVocoder lib step).Counts (restartVocoder lib step') := by
  refine ⟨counts.input, Queue.numUsed_writeAny counts.queued ?_, counts.features⟩
  rw [List.length_append, List.length_append, radeOutShort, radeOutShort, List.length_map,
    List.length_map, lib.length_eoo, lib.length_eoo]

end FreeDV.Pipeline.RADETransmitStep
