import FreeDV.Lib.Simulation
import FreeDV.Pipeline.RadeTransmitStep

/-!
# What the RADE transmitter step does with its input

The samples `rade_tx` returns all leave with the call that produced them. The
output guard is tested before each frame, though, so a call can end with input
that is neither in a frame nor in the FIFO.
-/

set_option autoImplicit false

namespace FreeDV.Pipeline.RADETransmitStep

open Lib Util.GenericFifo

variable {sizes : TxSizes} {F E R : Type} [FloatArith F] {lib : Library sizes F E R}

/-! ## Features of a frame -/

/-- A full set of features is handed to the modulator. -/
def transmit (lib : Library sizes F E R) (m : Modulation F R) (featureList : List F) :
    Modulation F R :=
  let samples := radeOutShort lib (lib.radeTx m.dv featureList).1
  { dv := (lib.radeTx m.dv featureList).2
    outputSampleFifo := m.outputSampleFifo.writeAny samples
    featureList := []
    numOutputSamples := (m.outputSampleFifo.writeAny samples).numUsed
    batches := m.batches ++ [featureList]
    produced := m.produced ++ samples }

theorem length_radeOutShort (lib : Library sizes F E R) (dv : R) (featureList : List F) :
    (radeOutShort lib (lib.radeTx dv featureList).1).length = sizes.nTxOut := by
  rw [radeOutShort, List.length_map, lib.length_tx]

theorem pushFeatures_of_lt (m : Modulation F R) (features : List F)
    (short : m.featureList.length + features.length < sizes.nFeaturesInOut) :
    features.foldl (pushFeature lib) m = { m with featureList := m.featureList ++ features } := by
  induction features generalizing m with
  | nil => simp
  | cons feature rest ih =>
      have unfilled : (m.featureList ++ [feature]).length ≠ sizes.nFeaturesInOut := by
        rw [List.length_append, List.length_singleton]
        rw [List.length_cons] at short
        omega
      have pushed : pushFeature lib m feature = { m with featureList := m.featureList ++ [feature] } :=
        if_neg unfilled
      rw [List.foldl_cons, pushed, ih]
      · simp
      · rw [List.length_cons] at short
        rw [List.length_append, List.length_singleton]
        omega

theorem pushFeatures_of_eq (m : Modulation F R) {features : List F} (nonempty : features ≠ [])
    (whole : m.featureList.length + features.length = sizes.nFeaturesInOut) :
    features.foldl (pushFeature lib) m = transmit lib m (m.featureList ++ features) := by
  obtain ⟨front, last, rfl⟩ := List.eq_nil_or_concat features |>.resolve_left nonempty
  rw [List.concat_eq_append] at whole ⊢
  rw [List.length_append, List.length_singleton] at whole
  have filled : (m.featureList ++ front ++ [last]).length = sizes.nFeaturesInOut := by
    rw [List.length_append, List.length_append, List.length_singleton]
    omega
  rw [List.foldl_append, pushFeatures_of_lt m front (by omega), List.foldl_cons, List.foldl_nil,
    ← List.append_assoc]
  exact if_pos filled

/-- The modulator takes the features of a whole number of frames. -/
def framesPerTx (sizes : TxSizes) : Nat := sizes.nFeaturesInOut / sizes.nbTotalFeatures

/-- `rade_n_features_in_out` is a positive multiple of `NB_TOTAL_FEATURES`. -/
structure TxSizes.Whole (sizes : TxSizes) : Prop where
  positive : 0 < framesPerTx sizes
  multiple : sizes.nFeaturesInOut = framesPerTx sizes * sizes.nbTotalFeatures

/-- `featureList_` holds the features of some frames, fewer than the modulator takes. -/
def HoldsFrames (sizes : TxSizes) (featureList : List F) (frames : Nat) : Prop :=
  featureList.length = frames * sizes.nbTotalFeatures ∧ frames < framesPerTx sizes

/-- What the features of one frame do. -/
theorem pushFrame (lib : Library sizes F E R) (whole : sizes.Whole) (m : Modulation F R) {features : List F} {frames : Nat}
    (holds : HoldsFrames sizes m.featureList frames)
    (size : features.length = sizes.nbTotalFeatures) :
    (frames + 1 < framesPerTx sizes ∧
      features.foldl (pushFeature lib) m = { m with featureList := m.featureList ++ features }) ∨
    (frames + 1 = framesPerTx sizes ∧
      features.foldl (pushFeature lib) m = transmit lib m (m.featureList ++ features)) := by
  have total : m.featureList.length + features.length = (frames + 1) * sizes.nbTotalFeatures := by
    rw [holds.1, size, Nat.succ_mul]
  rcases Nat.lt_or_eq_of_le holds.2 with more | last
  · refine .inl ⟨more, pushFeatures_of_lt m features ?_⟩
    rw [total, whole.multiple]
    exact Nat.mul_lt_mul_of_pos_right more sizes.positive
  · refine .inr ⟨last, pushFeatures_of_eq m ?_ ?_⟩
    · rintro rfl
      have positive := sizes.positive
      rw [List.length_nil] at size
      omega
    · rw [total, whole.multiple, ← last]

/-! ## Runs of the loop -/

/-- The output guard at the head of the loop. -/
def Execution.HasRoom (sizes : TxSizes) (run : Execution F E R) : Prop :=
  run.modulation.numOutputSamples + sizes.nTxOut < RADE_MODEM_SAMPLE_RATE

/-- The next frame is taken, and nothing is left of it in the FIFO. -/
structure Advances (lib : Library sizes F E R) (run next : Execution F E R) : Prop where
  enough : LPCNET_FRAME_SIZE ≤ run.pending.length
  emptied : next.inputSampleFifo.elements = []
  rest : next.inputSamples = run.pending.drop LPCNET_FRAME_SIZE
  frames : next.frames = run.frames ++ [run.pending.take LPCNET_FRAME_SIZE]
  encState : next.encState =
    (lib.computeSingleFrameFeatures run.encState (run.pending.take LPCNET_FRAME_SIZE)).2
  modulation : next.modulation =
    (lib.computeSingleFrameFeatures run.encState (run.pending.take LPCNET_FRAME_SIZE)).1.foldl
      (pushFeature lib) run.modulation

theorem Advances.pending {run next : Execution F E R} (advances : Advances lib run next) :
    next.pending = run.pending.drop LPCNET_FRAME_SIZE := by
  rw [Execution.pending, advances.emptied, advances.rest, List.nil_append]

/-- A run of the loop from its first state to the one it ends in. -/
inductive Loops (lib : Library sizes F E R) : Execution F E R → Execution F E R → Prop
  | full {run : Execution F E R} : ¬ run.HasRoom sizes → Loops lib run run
  | short {run last : Execution F E R} : run.HasRoom sizes →
      run.pending.length < LPCNET_FRAME_SIZE → last.inputSampleFifo.elements = run.pending →
      last.inputSamples = [] → last.frames = run.frames → last.encState = run.encState →
      last.modulation = run.modulation → Loops lib run last
  | frame {run next last : Execution F E R} : run.HasRoom sizes → Advances lib run next →
      Loops lib next last → Loops lib run last

theorem Execution.loop_loops (lib : Library sizes F E R) (run : Execution F E R) :
    Loops lib run (run.loop lib) := by
  have fits : LPCNET_FRAME_SIZE ≤ capacity (LPCNET_FRAME_SIZE + 1) := Nat.le_refl _
  fun_induction Execution.loop lib run with
  | case1 run room refused =>
      by_cases enough : LPCNET_FRAME_SIZE ≤ run.pending.length
      · obtain ⟨after, done, -⟩ := Queue.read_fill fits enough
        cases refused.symm.trans done
      · obtain ⟨-, rest⟩ := Queue.read_fill_none fits (Nat.lt_of_not_le enough)
        have whole := run.inputSampleFifo.fill_append run.inputSamples
        rw [rest, List.append_nil] at whole
        exact .short room (Nat.lt_of_not_le enough) whole rest rfl rfl rfl
  | case2 run room pcm fifo done ih =>
      by_cases enough : LPCNET_FRAME_SIZE ≤ run.pending.length
      · obtain ⟨after, same, rest⟩ := Queue.read_fill fits enough
        cases done.symm.trans same
        obtain ⟨-, -, dropped⟩ := Queue.read_eq_some done
        have emptied : fifo.elements = [] := by
          rw [dropped]
          exact List.drop_eq_nil_of_le (run.inputSampleFifo.fill run.inputSamples).1.fits
        rw [emptied, List.nil_append] at rest
        exact .frame room ⟨enough, emptied, rest, rfl, rfl, rfl⟩ ih
      · obtain ⟨refused, -⟩ := Queue.read_fill_none fits (Nat.lt_of_not_le enough)
        cases done.symm.trans refused
  | case3 run full => exact .full full

/-- Frames and what is left make up the samples the loop had. -/
theorem Loops.accounts {run last : Execution F E R} (loops : Loops lib run last) :
    ∃ made, last.frames = run.frames ++ made ∧
      (∀ frame ∈ made, frame.length = LPCNET_FRAME_SIZE) ∧
      made.flatten ++ last.pending = run.pending := by
  induction loops with
  | full full => exact ⟨[], (List.append_nil _).symm, by simp, rfl⟩
  | short room missing fifo rest frames encState modulation =>
      refine ⟨[], by rw [frames, List.append_nil], by simp, ?_⟩
      rw [Execution.pending, fifo, rest, List.flatten_nil, List.nil_append, List.append_nil]
  | frame room advances further ih =>
      obtain ⟨made, frames, sized, whole⟩ := ih
      refine ⟨_ :: made, ?_, List.forall_mem_cons.mpr
        ⟨List.length_take_of_le advances.enough, sized⟩, ?_⟩
      · rw [frames, advances.frames, List.append_assoc, List.singleton_append]
      · rw [List.flatten_cons, List.append_assoc, whole, advances.pending, List.take_append_drop]

/-! ## Output -/

/-- Within a call all that was produced is in the output FIFO, and counted. -/
structure Delivers (m : Modulation F R) : Prop where
  content : m.outputSampleFifo.elements = m.produced
  counted : m.numOutputSamples = m.produced.length
  bounded : m.produced.length < RADE_MODEM_SAMPLE_RATE

theorem Delivers.transmit {m : Modulation F R} (delivers : Delivers m)
    (room : m.numOutputSamples + sizes.nTxOut < RADE_MODEM_SAMPLE_RATE) (featureList : List F) :
    Delivers (transmit lib m featureList) := by
  have size := length_radeOutShort lib m.dv featureList
  rw [delivers.counted, ← size, ← delivers.content] at room
  have fits : (radeOutShort lib (lib.radeTx m.dv featureList).1).length ≤
      m.outputSampleFifo.numFree := by
    have whole := m.outputSampleFifo.numUsed_add_numFree
    rw [Queue.numUsed, capacity] at whole
    omega
  have content := Queue.elements_writeAny fits
  constructor
  · rw [RADETransmitStep.transmit, content, delivers.content]
  · rw [RADETransmitStep.transmit, Queue.numUsed, content, delivers.content]
  · rw [RADETransmitStep.transmit, List.length_append, ← delivers.content]
    exact room

theorem Delivers.advance (whole : sizes.Whole) {run next : Execution F E R} {frames : Nat}
    (advances : Advances lib run next) (room : run.HasRoom sizes)
    (delivers : Delivers run.modulation)
    (holds : HoldsFrames sizes run.modulation.featureList frames) :
    Delivers next.modulation ∧
      ((frames + 1 < framesPerTx sizes ∧
        HoldsFrames sizes next.modulation.featureList (frames + 1) ∧
        next.modulation.produced.length = run.modulation.produced.length) ∨
      (frames + 1 = framesPerTx sizes ∧ HoldsFrames sizes next.modulation.featureList 0 ∧
        next.modulation.produced.length = run.modulation.produced.length + sizes.nTxOut)) := by
  have size := lib.length_features run.encState (run.pending.take LPCNET_FRAME_SIZE)
  rw [advances.modulation]
  rcases pushFrame lib whole run.modulation holds size with ⟨more, same⟩ | ⟨last, same⟩
  · rw [same]
    refine ⟨⟨delivers.content, delivers.counted, delivers.bounded⟩, .inl ⟨more, ⟨?_, more⟩, rfl⟩⟩
    rw [List.length_append, holds.1, size, Nat.succ_mul]
  · rw [same]
    refine ⟨delivers.transmit room _, .inr ⟨last, ⟨?_, whole.positive⟩, ?_⟩⟩
    · exact (Nat.zero_mul _).symm
    · rw [RADETransmitStep.transmit, List.length_append, length_radeOutShort]

/-- The samples produced are kept in order until the loop ends. -/
theorem Loops.delivers (whole : sizes.Whole) {run last : Execution F E R}
    (loops : Loops lib run last) (delivers : Delivers run.modulation)
    {frames : Nat} (holds : HoldsFrames sizes run.modulation.featureList frames) :
    Delivers last.modulation ∧ ∃ later, HoldsFrames sizes last.modulation.featureList later := by
  induction loops generalizing frames with
  | full full => exact ⟨delivers, frames, holds⟩
  | short room missing fifo rest made encState modulation =>
      rw [modulation]
      exact ⟨delivers, frames, holds⟩
  | frame room advances further ih =>
      obtain ⟨next, ⟨-, more, -⟩ | ⟨-, none, -⟩⟩ :=
        Delivers.advance whole advances room delivers holds
      · exact ih next more
      · exact ih next none

/-! ## Lost input -/

theorem Loops.nothing_left {run last : Execution F E R} (loops : Loops lib run last)
    (none : run.inputSamples = []) : last.inputSamples = [] := by
  induction loops with
  | full full => exact none
  | short room missing fifo rest frames encState modulation => exact rest
  | frame room advances further ih =>
      rename_i run next last
      apply ih
      rw [advances.rest, Execution.pending, none, List.append_nil]
      exact List.drop_eq_nil_of_le run.inputSampleFifo.fits

/-- How many sets of features the loop must hand to the modulator before its last turn. -/
def txNeeded (sizes : TxSizes) (frames samples : Nat) : Nat :=
  (frames + (samples - 1) / LPCNET_FRAME_SIZE) / framesPerTx sizes

/-- One turn of the loop leaves as many sets to be handed over as it does not hand over itself. -/
theorem txNeeded_step (whole : sizes.Whole) (frames : Nat) {samples : Nat}
    (long : LPCNET_FRAME_SIZE < samples) :
    (frames + 1 < framesPerTx sizes →
      txNeeded sizes frames samples = txNeeded sizes (frames + 1) (samples - LPCNET_FRAME_SIZE)) ∧
    (frames + 1 = framesPerTx sizes →
      txNeeded sizes frames samples = txNeeded sizes 0 (samples - LPCNET_FRAME_SIZE) + 1) := by
  have turns : (samples - 1) / LPCNET_FRAME_SIZE =
      (samples - LPCNET_FRAME_SIZE - 1) / LPCNET_FRAME_SIZE + 1 := by
    rw [← Nat.add_div_right _ (by decide)]
    congr 1
    omega
  unfold txNeeded
  constructor
  · intro more
    congr 1
    omega
  · intro last
    rw [← Nat.add_div_right _ whole.positive]
    congr 1
    omega

theorem txNeeded_of_le {frames samples : Nat} (few : frames < framesPerTx sizes)
    (short : samples ≤ LPCNET_FRAME_SIZE) : txNeeded sizes frames samples = 0 := by
  have none : (samples - 1) / LPCNET_FRAME_SIZE = 0 := by
    rw [LPCNET_FRAME_SIZE] at short ⊢
    omega
  rw [txNeeded, none, Nat.add_zero, Nat.div_eq_of_lt few]

theorem Loops.nothing_left_iff (whole : sizes.Whole) {run last : Execution F E R}
    (loops : Loops lib run last) (delivers : Delivers run.modulation) {frames sent : Nat}
    (holds : HoldsFrames sizes run.modulation.featureList frames)
    (output : run.modulation.produced.length = sent * sizes.nTxOut)
    (given : run.inputSamples ≠ []) :
    last.inputSamples = [] ↔
      (sent + txNeeded sizes frames run.pending.length + 1) * sizes.nTxOut <
        RADE_MODEM_SAMPLE_RATE := by
  have sum : (sent + 1) * sizes.nTxOut = sent * sizes.nTxOut + sizes.nTxOut := Nat.succ_mul _ _
  induction loops generalizing frames sent with
  | full full =>
      rename_i run
      rw [Execution.HasRoom, delivers.counted, output, ← sum] at full
      have more : (sent + 1) * sizes.nTxOut ≤
          (sent + txNeeded sizes frames run.pending.length + 1) * sizes.nTxOut :=
        Nat.mul_le_mul_right _ (by omega)
      exact ⟨fun none => absurd none given, fun fits => by omega⟩
  | short room missing fifo rest made encState modulation =>
      rw [Execution.HasRoom, delivers.counted, output, ← sum] at room
      rw [txNeeded_of_le holds.2 (Nat.le_of_lt missing), Nat.add_zero]
      exact ⟨fun _ => room, fun _ => rest⟩
  | frame room advances further ih =>
      rename_i run next last
      obtain ⟨nextDelivers, counts⟩ := Delivers.advance whole advances room delivers holds
      by_cases long : LPCNET_FRAME_SIZE < run.pending.length
      · have left : next.inputSamples ≠ [] := by
          rw [advances.rest]
          exact fun none => absurd (List.drop_eq_nil_iff.mp none) (Nat.not_le_of_lt long)
        have length : next.pending.length = run.pending.length - LPCNET_FRAME_SIZE := by
          rw [advances.pending, List.length_drop]
        obtain ⟨kept, handed⟩ := txNeeded_step whole frames long
        rcases counts with ⟨more, holdsMore, same⟩ | ⟨full, holdsNone, grown⟩
        · rw [kept more, ← length]
          exact ih nextDelivers holdsMore (same.trans output) left sum
        · have sentMore : next.modulation.produced.length = (sent + 1) * sizes.nTxOut := by
            rw [grown, output, sum]
          rw [handed full, ← length, ← Nat.add_assoc, Nat.add_right_comm sent]
          exact ih nextDelivers holdsNone sentMore left (Nat.succ_mul _ _)
      · have last : run.pending.length ≤ LPCNET_FRAME_SIZE := Nat.le_of_not_lt long
        rw [Execution.HasRoom, delivers.counted, output, ← sum] at room
        rw [txNeeded_of_le holds.2 last, Nat.add_zero]
        refine ⟨fun _ => room, fun _ => further.nothing_left ?_⟩
        rw [advances.rest]
        exact List.drop_eq_nil_of_le last

/-! ## Calls -/

theorem readOutput_numUsed (fifo : Queue Int16 RADE_MODEM_SAMPLE_RATE) :
    readOutput fifo fifo.numUsed = (fifo.elements, .empty) := by
  rw [readOutput, Queue.read_of_le (Nat.le_refl _), Option.getD_some, Queue.numUsed, List.take_length]
  congr 1
  ext1
  exact List.drop_length

/-- A step between two calls that only executed: the output FIFO is empty. -/
structure Rests (sizes : TxSizes) (step : State F E R) (frames : Nat) : Prop where
  output : step.outputSampleFifo = .empty
  features : HoldsFrames sizes step.featureList frames

/-- The sets of features a call needs to have sent before its last turn fit in the output. -/
def Absorbs (sizes : TxSizes) (step : State F E R) (inputSamples : List Int16) : Prop :=
  (txNeeded sizes (step.featureList.length / sizes.nbTotalFeatures)
      (step.inputSampleFifo.numUsed + inputSamples.length) + 1) * sizes.nTxOut <
    RADE_MODEM_SAMPLE_RATE

instance (step : State F E R) (inputSamples : List Int16) :
    Decidable (Absorbs sizes step inputSamples) :=
  inferInstanceAs (Decidable (_ < _))

theorem execute_spec (lib : Library sizes F E R) (whole : sizes.Whole) {step : State F E R}
    {frames : Nat} (rests : Rests sizes step frames) {inputSamples : List Int16}
    (given : inputSamples ≠ []) :
    let made := execute lib step inputSamples
    (∃ later, Rests sizes made.2 later) ∧ made.1.outputSamples = made.1.produced ∧
      made.1.outputSamples.length ≤ RADE_MODEM_SAMPLE_RATE ∧
      (∀ frame ∈ made.1.frames, frame.length = LPCNET_FRAME_SIZE) ∧
      ∃ lost, made.1.frames.flatten ++ made.2.inputSampleFifo.elements ++ lost =
          step.inputSampleFifo.elements ++ inputSamples ∧
        (lost = [] ↔ Absorbs sizes step inputSamples) := by
  have loops := (Execution.start step inputSamples).loop_loops lib
  have delivers : Delivers (Execution.start step inputSamples).modulation := by
    refine ⟨?_, rfl, show 0 < RADE_MODEM_SAMPLE_RATE by decide⟩
    rw [Execution.start, rests.output]
    rfl
  obtain ⟨delivered, later, holds⟩ := loops.delivers whole delivers rests.features
  obtain ⟨made, madeFrames, sized, accounts⟩ := loops.accounts
  have lossless := loops.nothing_left_iff whole delivers rests.features
    (Nat.zero_mul sizes.nTxOut).symm given
  rw [Nat.zero_add] at lossless
  rw [show (Execution.start step inputSamples).frames = [] from rfl, List.nil_append] at madeFrames
  have all : ((Execution.start step inputSamples).loop lib).modulation.numOutputSamples =
      ((Execution.start step inputSamples).loop lib).modulation.outputSampleFifo.numUsed := by
    rw [delivered.counted, Queue.numUsed, delivered.content]
  rw [execute, if_neg (fun none => given (List.eq_nil_of_length_eq_zero none))]
  simp only [all, readOutput_numUsed, delivered.content, madeFrames]
  refine ⟨⟨later, rfl, holds⟩, trivial, Nat.le_of_lt delivered.bounded, sized,
    ((Execution.start step inputSamples).loop lib).inputSamples, ?_, ?_⟩
  · rw [List.append_assoc]
    exact accounts
  · have frames : step.featureList.length / sizes.nbTotalFeatures = frames := by
      rw [rests.features.1, Nat.mul_div_cancel _ sizes.positive]
    rw [Absorbs, frames, Queue.numUsed, ← List.length_append]
    exact lossless

/-- The frames of all calls and the FIFO hold the input, in order. -/
def Lossless (inputs : List Int16) (made : List (Call F)) (last : State F E R) : Prop :=
  (made.flatMap Call.frames).flatten ++ last.inputSampleFifo.elements = inputs ∧
    ∀ frame ∈ made.flatMap Call.frames, frame.length = LPCNET_FRAME_SIZE

theorem mapBlocks_spec (lib : Library sizes F E R) (whole : sizes.Whole) (step : State F E R)
    {frames : Nat} (rests : Rests sizes step frames) (calls : List (List Int16))
    (given : ∀ input ∈ calls, input ≠ []) :
    let made := mapBlocks (execute lib) step calls
    (made.1.flatMap Call.outputSamples = made.1.flatMap Call.produced ∧
      ∀ call ∈ made.1, call.outputSamples.length ≤ RADE_MODEM_SAMPLE_RATE) ∧
    (∀ frame ∈ made.1.flatMap Call.frames, frame.length = LPCNET_FRAME_SIZE) ∧
    (made.1.flatMap Call.frames).flatten.length + made.2.inputSampleFifo.numUsed ≤
      step.inputSampleFifo.numUsed + calls.flatten.length ∧
    ((made.1.flatMap Call.frames).flatten ++ made.2.inputSampleFifo.elements =
        step.inputSampleFifo.elements ++ calls.flatten ↔
      AllSteps (fun step input => (execute lib step input).2) (Absorbs sizes) step calls) := by
  induction calls generalizing step frames with
  | nil => simp [mapBlocks, AllSteps, Queue.numUsed]
  | cons input rest ih =>
      obtain ⟨inputGiven, restGiven⟩ := List.forall_mem_cons.mp given
      obtain ⟨⟨later, laterRests⟩, inOrder, bound, sized, lost, accounts, lossless⟩ :=
        execute_spec lib whole rests inputGiven
      obtain ⟨⟨laterInOrder, laterBound⟩, laterSized, laterLength, laterLossless⟩ :=
        ih _ laterRests restGiven
      have length := congrArg List.length accounts
      simp only [mapBlocks, List.flatMap_cons, List.flatten_cons, List.forall_mem_cons,
        List.forall_mem_append, List.flatten_append, List.length_append, AllSteps,
        Queue.numUsed] at laterLength length ⊢
      refine ⟨⟨?_, bound, laterBound⟩, ⟨sized, laterSized⟩, by omega, ?_⟩
      · rw [inOrder, laterInOrder]
      · rw [← lossless, ← laterLossless]
        constructor
        · intro same
          -- equal lengths leave no room for lost samples
          have lengths := congrArg List.length same
          simp only [List.length_append] at lengths
          have none : lost = [] := List.eq_nil_of_length_eq_zero (by omega)
          rw [none, List.append_nil] at accounts
          refine ⟨none, ?_⟩
          rw [← List.append_assoc, ← accounts, List.append_assoc, List.append_assoc] at same
          exact List.append_cancel_left same
        · rintro ⟨rfl, same⟩
          rw [List.append_nil] at accounts
          rw [List.append_assoc, same, ← List.append_assoc, accounts, List.append_assoc]

/-- Every sample `rade_tx` produced leaves exactly once, in order and with its own call, and no
call puts out more than a second. The frames handed to feature extraction and the FIFO hold all
of the input exactly if in each call the sets of features to be sent before its last turn, and one
more, fit in the output. -/
theorem speech_is_lossless_iff (sizes : TxSizes) (whole : sizes.Whole) (F E R : Type) [FloatArith F]
    (lib : Library sizes F E R) (dv : R) (encState : E) (calls : List (List Int16))
    (given : ∀ input ∈ calls, input ≠ []) :
    let made := mapBlocks (execute lib) (initial dv encState) calls
    made.1.flatMap Call.outputSamples = made.1.flatMap Call.produced ∧
      (∀ call ∈ made.1, call.outputSamples.length ≤ RADE_MODEM_SAMPLE_RATE) ∧
      (Lossless calls.flatten made.1 made.2 ↔
        AllSteps (fun step input => (execute lib step input).2) (Absorbs sizes)
          (initial dv encState) calls) := by
  have rests : Rests sizes (initial dv encState : State F E R) 0 :=
    ⟨rfl, (Nat.zero_mul _).symm, whole.positive⟩
  obtain ⟨⟨inOrder, bound⟩, sized, -, lossless⟩ :=
    mapBlocks_spec lib whole (initial dv encState) rests calls given
  refine ⟨inOrder, bound, ?_⟩
  rw [← lossless]
  exact ⟨And.left, fun same => ⟨same, sized⟩⟩

/-- Sizes of a modulator that takes the features of twelve frames. -/
def twelveFrames : TxSizes := ⟨432, 960, 1152, NB_TOTAL_FEATURES, NB_TOTAL_FEATURES_pos⟩

theorem twelveFrames_whole : twelveFrames.Whole := ⟨by decide, by decide⟩

/-- Features and modem samples without content. -/
def silentLibrary : Library twelveFrames ℚ Unit Unit where
  computeSingleFrameFeatures _ _ := (List.replicate 36 0, ())
  length_features _ _ := List.length_replicate
  radeTx _ _ := (List.replicate 960 ⟨0, 0⟩, ())
  length_tx _ _ := List.length_replicate
  radeTxEoo _ := (List.replicate 1152 ⟨0, 0⟩, ())
  length_eoo _ := List.length_replicate
  toShort value := Int16.ofInt value.floor

/-- A call that leaves samples in the FIFO, and one that completes a frame with them. -/
theorem speech_of_two_calls_is_lossless :
    letI := exactArith ℚ
    let calls : List (List Int16) := [List.replicate 100 1, List.replicate 100 2]
    let made := mapBlocks (execute silentLibrary) (initial () ()) calls
    AllSteps (fun step input => (execute silentLibrary step input).2) (Absorbs twelveFrames)
        (initial () ()) calls ∧
      Lossless calls.flatten made.1 made.2 := by
  let := exactArith ℚ
  intro calls made
  have given : ∀ input ∈ calls, input ≠ [] := by decide
  have absorbs : AllSteps (fun step input => (execute silentLibrary step input).2)
      (Absorbs twelveFrames) (initial () ()) calls :=
    ⟨by decide +kernel, by decide +kernel, trivial⟩
  exact ⟨absorbs, (speech_is_lossless_iff twelveFrames twelveFrames_whole ℚ Unit Unit silentLibrary
    () () calls given).2.2.mpr absorbs⟩

theorem not_lossless_of_first_call (lib : Library sizes F E R) (whole : sizes.Whole) (dv : R)
    (encState : E) {input : List Int16} (given : input ≠ [])
    (excess : ¬ Absorbs sizes (initial dv encState : State F E R) input) :
    ¬ Lossless [input].flatten (mapBlocks (execute lib) (initial dv encState) [input]).1
      (mapBlocks (execute lib) (initial dv encState) [input]).2 := by
  intro lossless
  have rests : Rests sizes (initial dv encState : State F E R) 0 :=
    ⟨rfl, (Nat.zero_mul _).symm, whole.positive⟩
  obtain ⟨-, -, -, condition⟩ :=
    mapBlocks_spec lib whole (initial dv encState) rests [input] (by simpa using given)
  exact excess (condition.mp lossless.1).1

/-- A first call with one second of speech needs eight sets of features sent before its last turn:
the guard ends the loop before, and the rest of the input is lost. -/
theorem one_second_of_speech_is_not_lossless :
    letI := exactArith ℚ
    let calls : List (List Int16) := [List.replicate RADE_SPEECH_SAMPLE_RATE 1]
    let made := mapBlocks (execute silentLibrary) (initial () ()) calls
    ¬ Lossless calls.flatten made.1 made.2 := by
  let := exactArith ℚ
  apply not_lossless_of_first_call silentLibrary twelveFrames_whole
  · intro none
    have length := congrArg List.length none
    rw [List.length_replicate] at length
    cases length
  · rw [Absorbs, List.length_replicate]
    decide

end FreeDV.Pipeline.RADETransmitStep
