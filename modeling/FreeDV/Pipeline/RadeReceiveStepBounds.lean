import FreeDV.Lib.Simulation
import FreeDV.Pipeline.RadeReceiveStepProperties

/-!
# How much speech a call of the RADE receiver step puts out

The output guard leaves room for one frame, but a demodulator call can give
several. With no more speech than modem time the buffer of one second holds as
long as a call has less than one second and one frame to work on.
-/

set_option autoImplicit false

namespace FreeDV.Pipeline.RADEReceiveStep

open Lib Util.GenericFifo

variable {sizes : RadeSizes} {F R G T : Type} [FloatArith F] {lib : Library sizes F R G T}

/-- The demodulator returns whole sets of features, no more than `featuresOut_` holds, for no
more speech time than modem time. -/
def RxBounded (lib : Library sizes F R G T) : Prop :=
  ∀ dv block, 1 ≤ block.length → block.length ≤ sizes.ninMax →
    (lib.radeRx dv block).1.featuresOut.length ≤ sizes.nFeaturesInOut ∧
    sizes.nbTotalFeatures ∣ (lib.radeRx dv block).1.featuresOut.length ∧
    (lib.radeRx dv block).1.featuresOut.length / sizes.nbTotalFeatures * LPCNET_FRAME_SIZE ≤
      2 * block.length

/-- The most frames one demodulator call can give. -/
def maxFrames (sizes : RadeSizes) : Nat :=
  min (sizes.nFeaturesInOut / sizes.nbTotalFeatures) (2 * sizes.ninMax / LPCNET_FRAME_SIZE)

/-- What is buffered and the input make up less than a second and a frame, or a demodulator call
gives at most two frames. -/
def FitsOutput (step : State sizes F R G T) (inputSamples : List Int16) : Prop :=
  step.inputSampleFifo.numUsed + inputSamples.length <
      RADE_MODEM_SAMPLE_RATE + LPCNET_FRAME_SIZE / 2 ∨
    maxFrames sizes < 3

/-! ## Frames -/

theorem length_freqShift (foff : F) (rect phase : RadeComp F) (samples : List (RadeComp F)) :
    (freqShift foff rect phase samples).1.length = samples.length := by
  induction samples generalizing phase with
  | nil => rfl
  | cons sample rest ih => simp only [freqShift, List.length_cons, ih]

theorem pushFeatures_frames (lib : Library sizes F R G T) (modem : Modem F R G T)
    (features : List F) (short : modem.pendingFeatures.length < sizes.nbTotalFeatures) :
    (pushFeatures lib modem features).1.length =
        (modem.pendingFeatures.length + features.length) / sizes.nbTotalFeatures *
          LPCNET_FRAME_SIZE ∧
      (pushFeatures lib modem features).2.pendingFeatures.length =
        (modem.pendingFeatures.length + features.length) % sizes.nbTotalFeatures := by
  induction features generalizing modem with
  | nil => simp [pushFeatures, Nat.div_eq_of_lt short, Nat.mod_eq_of_lt short]
  | cons feature rest ih =>
      have positive := sizes.positive
      by_cases whole : modem.pendingFeatures.length + 1 = sizes.nbTotalFeatures
      · obtain ⟨frames, left⟩ := ih
          { modem with
            fargan := (lib.farganSynthesize modem.fargan (modem.pendingFeatures ++ [feature])).2
            pendingFeatures := [] } positive
        have count : modem.pendingFeatures.length + (rest.length + 1) =
            rest.length + sizes.nbTotalFeatures := by
          omega
        simp only [List.length_nil, Nat.zero_add] at frames left
        simp only [pushFeatures, pushFeature, List.length_append, List.length_cons, List.length_nil,
          Nat.zero_add, whole, if_true, frames, left, List.length_map, lib.length_synthesize, count,
          Nat.add_div_right _ positive, Nat.add_mod_right, Nat.succ_mul]
        exact ⟨Nat.add_comm _ _, trivial⟩
      · obtain ⟨frames, left⟩ := ih
          { modem with pendingFeatures := modem.pendingFeatures ++ [feature] } (by
            rw [List.length_append, List.length_singleton]
            omega)
        have count : modem.pendingFeatures.length + 1 + rest.length =
            modem.pendingFeatures.length + (rest.length + 1) := by
          omega
        simp only [List.length_append, List.length_singleton, count] at frames left
        simp only [pushFeatures, pushFeature, List.length_append, whole, if_false,
          List.length_nil, Nat.zero_add, List.length_cons, frames, left]
        exact ⟨trivial, trivial⟩

/-- A block goes to `rade_rx` sample by sample, and the features of its result to the vocoder. -/
theorem demodulate_eq (lib : Library sizes F R G T) (modem : Modem F R G T) (block : List Int16) :
    ∃ rxFdmOffset modem', rxFdmOffset.length = block.length ∧
      modem'.pendingFeatures = modem.pendingFeatures ∧
      modem'.dv = (lib.radeRx (lib.freqOffsetFn modem.dv).2 rxFdmOffset).2 ∧
      demodulate lib modem block =
        if (lib.radeRx (lib.freqOffsetFn modem.dv).2 rxFdmOffset).1.hasEooOut = true then
          ([], modem')
        else pushFeatures lib modem'
          (lib.radeRx (lib.freqOffsetFn modem.dv).2 rxFdmOffset).1.featuresOut := by
  have length : (freqShiftCoh lib (lib.freqOffsetFn modem.dv).1 modem.rxFreqOffsetPhaseRectObjs
      (block.map fun sample => ⟨lib.toFloat sample, FloatArith.lit 0⟩)).1.length = block.length := by
    rw [freqShiftCoh, length_freqShift, List.length_map]
  unfold demodulate
  dsimp only
  split
  · rename_i eoo
    refine ⟨_, _, length, ?_, ?_, (if_pos eoo).symm⟩ <;> rfl
  · rename_i features
    refine ⟨_, _, length, ?_, ?_, (if_neg features).symm⟩ <;> rfl

/-- A demodulated block gives whole frames, no more than the demodulator may return for it. -/
theorem demodulate_frames (bounded : RxBounded lib) (modem : Modem F R G T) (block : List Int16)
    (fresh : modem.pendingFeatures = []) (positive : 1 ≤ block.length)
    (fits : block.length ≤ sizes.ninMax) :
    ∃ frames, (demodulate lib modem block).1.length = frames * LPCNET_FRAME_SIZE ∧
      frames * LPCNET_FRAME_SIZE ≤ 2 * block.length ∧ frames ≤ maxFrames sizes ∧
      (demodulate lib modem block).2.pendingFeatures = [] := by
  obtain ⟨rxFdmOffset, modem', length, features, -, same⟩ := demodulate_eq lib modem block
  rw [fresh] at features
  rw [← length] at positive fits
  obtain ⟨most, whole, time⟩ := bounded (lib.freqOffsetFn modem.dv).2 rxFdmOffset positive fits
  rw [same]
  split
  · exact ⟨0, rfl, by omega, Nat.zero_le _, features⟩
  · obtain ⟨frames, left⟩ := pushFeatures_frames lib modem'
      (lib.radeRx (lib.freqOffsetFn modem.dv).2 rxFdmOffset).1.featuresOut
      (by rw [features]; exact sizes.positive)
    rw [features, List.length_nil, Nat.zero_add] at frames left
    refine ⟨_, frames, length ▸ time, ?_, ?_⟩
    · apply Nat.le_min.mpr
      constructor
      · exact Nat.div_le_div_right most
      · rw [Nat.le_div_iff_mul_le (by decide)]
        omega
    · apply List.eq_nil_of_length_eq_zero
      rw [left]
      exact Nat.mod_eq_zero_of_dvd whole

/-! ## The bound -/

/-- What has been put out are whole frames, and the next feature starts a new one. -/
structure Aligned (run : Execution sizes F R G T) : Prop where
  features : run.modem.pendingFeatures = []
  frames : LPCNET_FRAME_SIZE ∣ run.outputSamples.length

theorem Advances.output_le {run next : Execution sizes F R G T} (bounded : RxBounded lib)
    (advances : Advances lib run next) (aligned : Aligned run) :
    Aligned next ∧ ∃ frames ≤ maxFrames sizes,
      next.outputSamples.length = run.outputSamples.length + frames * LPCNET_FRAME_SIZE ∧
      next.outputSamples.length + 2 * next.pending.length ≤
        run.outputSamples.length + 2 * run.pending.length := by
  have enough := advances.enough
  have positive := lib.nin_pos run.modem.dv
  have fits := lib.nin_le run.modem.dv
  have taken := List.length_take_of_le enough
  obtain ⟨frames, count, time, most, features⟩ := demodulate_frames bounded
    { run.modem with dv := (lib.radeNin run.modem.dv).2 }
    (run.pending.take (lib.radeNin run.modem.dv).1) aligned.features
    (by rwa [taken]) (by rwa [taken])
  have length : next.outputSamples.length =
      run.outputSamples.length + frames * LPCNET_FRAME_SIZE := by
    rw [advances.output, List.length_append, count]
  have left : next.pending.length = run.pending.length - (lib.radeNin run.modem.dv).1 := by
    rw [advances.pending, List.length_drop]
  refine ⟨⟨by rw [advances.modem, features], ?_⟩, frames, most, length, by omega⟩
  rw [length]
  exact Nat.dvd_add aligned.frames (Nat.dvd_mul_left _ _)

theorem Loops.output_le {run last : Execution sizes F R G T} {ending : Ending}
    (bounded : RxBounded lib) (loops : Loops lib run last ending) (aligned : Aligned run)
    (below : run.outputSamples.length ≤ RADE_SPEECH_SAMPLE_RATE)
    (fits : run.outputSamples.length + 2 * run.pending.length <
        RADE_SPEECH_SAMPLE_RATE + LPCNET_FRAME_SIZE ∨ maxFrames sizes < 3) :
    last.outputSamples.length ≤ RADE_SPEECH_SAMPLE_RATE ∧ last.modem.pendingFeatures = [] := by
  induction loops with
  | full full => exact ⟨below, aligned.features⟩
  | drained room missing whole output rxCalls modem =>
      rw [output, modem]
      exact ⟨below, aligned.features⟩
  | block room advances further ih =>
      rename_i run next last ending
      obtain ⟨alignedNext, frames, most, length, potential⟩ := advances.output_le bounded aligned
      obtain ⟨before, beforeLength⟩ := aligned.frames
      obtain ⟨behind, behindLength⟩ := alignedNext.frames
      simp only [LPCNET_FRAME_SIZE, RADE_SPEECH_SAMPLE_RATE] at *
      simp only [Execution.HasRoom, LPCNET_FRAME_SIZE, RADE_SPEECH_SAMPLE_RATE] at room
      apply ih alignedNext
      · omega
      · omega

theorem execute_output_le (bounded : RxBounded lib) {step : State sizes F R G T}
    (fresh : step.modem.pendingFeatures = []) {inputSamples : List Int16}
    (fits : FitsOutput step inputSamples) :
    (execute lib step inputSamples).1.outputSamples.length ≤ RADE_SPEECH_SAMPLE_RATE ∧
      (execute lib step inputSamples).2.modem.pendingFeatures = [] := by
  apply ((Execution.start step inputSamples).loop_loops lib).output_le bounded
  · exact ⟨fresh, Nat.dvd_zero _⟩
  · exact Nat.zero_le _
  · rcases fits with short | few
    · left
      simp only [Execution.start, Execution.pending, List.length_append, List.length_nil,
        LPCNET_FRAME_SIZE, RADE_SPEECH_SAMPLE_RATE, RADE_MODEM_SAMPLE_RATE, Queue.numUsed] at short ⊢
      omega
    · exact .inr few

theorem mapBlocks_output_le (bounded : RxBounded lib) (step : State sizes F R G T)
    (fresh : step.modem.pendingFeatures = []) (calls : List (List Int16))
    (fits : AllSteps (fun step input => (execute lib step input).2) FitsOutput step calls) :
    ∀ call ∈ (mapBlocks (execute lib) step calls).1,
      call.outputSamples.length ≤ RADE_SPEECH_SAMPLE_RATE := by
  induction calls generalizing step with
  | nil => simp [mapBlocks]
  | cons input rest ih =>
      obtain ⟨bound, features⟩ := execute_output_le bounded fresh fits.1
      simp only [mapBlocks, List.forall_mem_cons]
      exact ⟨bound, ih _ features fits.2⟩

/-! ## More than a second -/

theorem Loops.output_mono {run last : Execution sizes F R G T} {ending : Ending}
    (loops : Loops lib run last ending) : run.outputSamples.length ≤ last.outputSamples.length := by
  induction loops with
  | full full => exact Nat.le_refl _
  | drained room missing whole output rxCalls modem => rw [output]
  | block room advances further ih =>
      rw [advances.output, List.length_append] at ih
      omega

/-- A call with less than the demodulator asks for only fills the FIFO. -/
theorem Loops.of_short {run last : Execution sizes F R G T} {ending : Ending}
    (loops : Loops lib run last ending) (room : run.HasRoom)
    (short : run.pending.length < (lib.radeNin run.modem.dv).1) :
    last.inputSampleFifo.elements = run.pending ∧
      last.modem = { run.modem with dv := (lib.radeNin run.modem.dv).2 } := by
  cases loops with
  | full full => exact absurd room full
  | drained room missing whole output rxCalls modem => exact ⟨whole, modem⟩
  | block room advances further => exact absurd advances.enough (Nat.not_le_of_lt short)

theorem execute_of_short (lib : Library sizes F R G T) (step : State sizes F R G T)
    (inputSamples : List Int16)
    (short : (step.inputSampleFifo.elements ++ inputSamples).length < (lib.radeNin step.modem.dv).1) :
    (execute lib step inputSamples).2.inputSampleFifo.elements =
        step.inputSampleFifo.elements ++ inputSamples ∧
      (execute lib step inputSamples).2.modem =
        { step.modem with dv := (lib.radeNin step.modem.dv).2 } := by
  have room : (Execution.start step inputSamples).HasRoom := show 0 + 160 < 16000 by decide
  exact ((Execution.start step inputSamples).loop_loops lib).of_short room short

theorem pushFeatures_dv (lib : Library sizes F R G T) (modem : Modem F R G T) (features : List F) :
    (pushFeatures lib modem features).2.dv = modem.dv := by
  induction features generalizing modem with
  | nil => rfl
  | cons feature rest ih =>
      simp only [pushFeatures, ih, pushFeature]
      split <;> rfl

/-- The block sizes of a demodulator that first asks for more than there is, then for 98 blocks of
one frame each and then for blocks of three frames. -/
def overrunNin (sizes : RadeSizes) : Nat → Nat
  | 0 => sizes.ninMax
  | count + 1 => if count < 98 then 80 else 240

/-- The frames it returns for a block. -/
def overrunFrames (dv length : Nat) : Nat :=
  let frames := if dv < 99 then 1 else 3
  if 80 * frames ≤ length then frames else 0

theorem roomy_sizes {sizes : RadeSizes} (roomy : 3 ≤ maxFrames sizes) :
    3 * sizes.nbTotalFeatures ≤ sizes.nFeaturesInOut ∧ 240 ≤ sizes.ninMax := by
  obtain ⟨features, time⟩ := Nat.le_min.mp roomy
  rw [Nat.le_div_iff_mul_le sizes.positive] at features
  rw [Nat.le_div_iff_mul_le (by decide), LPCNET_FRAME_SIZE] at time
  exact ⟨features, by omega⟩

theorem overrunNin_bounds {sizes : RadeSizes} (roomy : 3 ≤ maxFrames sizes) (dv : Nat) :
    1 ≤ overrunNin sizes dv ∧ overrunNin sizes dv ≤ sizes.ninMax := by
  have room := (roomy_sizes roomy).2
  unfold overrunNin
  split
  · omega
  · split <;> omega

def overrunLibrary (sizes : RadeSizes) (roomy : 3 ≤ maxFrames sizes) :
    Library sizes ℚ Nat Unit Unit where
  radeNin dv := (overrunNin sizes dv, max dv 1)
  nin_pos dv := (overrunNin_bounds roomy dv).1
  nin_le dv := (overrunNin_bounds roomy dv).2
  radeRx dv block :=
    (⟨List.replicate (overrunFrames dv block.length * sizes.nbTotalFeatures) 0, false, []⟩, dv + 1)
  radeSync _ := 1
  radeSnr _ := 0
  radeTextRx _ _ := ()
  farganSynthesize _ _ := (List.replicate LPCNET_FRAME_SIZE 0, ())
  length_synthesize _ _ := List.length_replicate
  freqOffsetFn dv := (0, dv)
  toFloat sample := sample.toInt / 32767
  foffRect _ := ⟨1, 0⟩
  sqrtf value := value
  floorHalf value := Int16.ofInt (value + 1 / 2).floor

theorem overrunFrames_bounds (dv length : Nat) :
    overrunFrames dv length ≤ 3 ∧ overrunFrames dv length * 160 ≤ 2 * length := by
  unfold overrunFrames
  dsimp only
  split <;> split <;> omega

section Overrun

attribute [local instance] exactArith

variable {sizes : RadeSizes} (roomy : 3 ≤ maxFrames sizes)

@[simp] theorem overrunLibrary_radeNin (dv : Nat) :
    (overrunLibrary sizes roomy).radeNin dv = (overrunNin sizes dv, max dv 1) := rfl

@[simp] theorem overrunLibrary_radeRx (dv : Nat) (block : List (RadeComp ℚ)) :
    (overrunLibrary sizes roomy).radeRx dv block =
      (⟨List.replicate (overrunFrames dv block.length * sizes.nbTotalFeatures) 0, false, []⟩,
        dv + 1) := rfl

@[simp] theorem overrunLibrary_freqOffsetFn (dv : Nat) :
    (overrunLibrary sizes roomy).freqOffsetFn dv = (0, dv) := rfl

theorem overrunLibrary_bounded : RxBounded (overrunLibrary sizes roomy) := by
  intro dv block _ _
  obtain ⟨few, time⟩ := overrunFrames_bounds dv block.length
  have features := (roomy_sizes roomy).1
  rw [overrunLibrary_radeRx, List.length_replicate]
  refine ⟨?_, Nat.dvd_mul_left _ _, ?_⟩
  · exact Nat.le_trans (Nat.mul_le_mul_right _ few) features
  · rw [Nat.mul_div_cancel _ sizes.positive]
    exact time

theorem overrun_demodulate (modem : Modem ℚ Nat Unit Unit) (fresh : modem.pendingFeatures = [])
    (block : List Int16) :
    (demodulate (overrunLibrary sizes roomy) modem block).1.length =
        overrunFrames modem.dv block.length * LPCNET_FRAME_SIZE ∧
      (demodulate (overrunLibrary sizes roomy) modem block).2.dv = modem.dv + 1 ∧
      (demodulate (overrunLibrary sizes roomy) modem block).2.pendingFeatures = [] := by
  obtain ⟨rxFdmOffset, modem', length, features, dv, same⟩ :=
    demodulate_eq (overrunLibrary sizes roomy) modem block
  rw [fresh] at features
  obtain ⟨frames, left⟩ := pushFeatures_frames (overrunLibrary sizes roomy) modem'
    (List.replicate (overrunFrames modem.dv block.length * sizes.nbTotalFeatures) 0)
    (by rw [features]; exact sizes.positive)
  rw [features, List.length_nil, Nat.zero_add, List.length_replicate] at frames left
  rw [Nat.mul_div_cancel _ sizes.positive] at frames
  rw [Nat.mul_mod_left] at left
  simp only [overrunLibrary_radeRx, overrunLibrary_freqOffsetFn, length, Bool.false_eq_true,
    if_false] at same dv
  rw [same]
  refine ⟨frames, ?_, List.eq_nil_of_length_eq_zero left⟩
  rw [← dv]
  exact pushFeatures_dv _ _ _

/-- From 98 blocks of one frame to 101 frames. -/
theorem overrun_loops {run last : Execution sizes ℚ Nat Unit Unit} {ending : Ending}
    (loops : Loops (overrunLibrary sizes roomy) run last ending) {count : Nat}
    (early : count ≤ 98) (dv : run.modem.dv = count + 1) (fresh : run.modem.pendingFeatures = [])
    (output : run.outputSamples.length = 160 * count)
    (pending : 80 * (98 - count) + 240 ≤ run.pending.length) :
    RADE_SPEECH_SAMPLE_RATE < last.outputSamples.length := by
  induction loops generalizing count with
  | full full =>
      simp only [Execution.HasRoom, LPCNET_FRAME_SIZE, RADE_SPEECH_SAMPLE_RATE] at full
      omega
  | drained room missing whole same rxCalls modem =>
      rw [overrunLibrary_radeNin, dv, overrunNin] at missing
      split at missing <;> omega
  | block room advances further ih =>
      rename_i run next last ending
      obtain ⟨enough, rest, -, modem, audio⟩ := advances
      rw [overrunLibrary_radeNin, dv] at enough rest modem audio
      dsimp only at enough rest modem audio
      have kept : max (count + 1) 1 = count + 1 := Nat.max_eq_left (by omega)
      rw [kept] at modem audio
      have taken := List.length_take_of_le enough
      obtain ⟨frames, later, features⟩ := overrun_demodulate roomy
        { run.modem with dv := count + 1 } fresh (run.pending.take (overrunNin sizes (count + 1)))
      rw [taken] at frames
      have longer := congrArg List.length audio
      rw [List.length_append, frames, output] at longer
      have shorter := congrArg List.length rest
      rw [List.length_drop] at shorter
      by_cases first : count < 98
      · have nin : overrunNin sizes (count + 1) = 80 := if_pos first
        have one : overrunFrames (count + 1) 80 = 1 := by
          simp [overrunFrames, Nat.succ_lt_succ_iff.mpr first]
        rw [nin] at shorter longer
        rw [one, LPCNET_FRAME_SIZE] at longer
        refine ih (show count + 1 ≤ 98 by omega) ?_ ?_ ?_ ?_
        · rw [modem, later]
        · rw [modem, features]
        · omega
        · omega
      · have nin : overrunNin sizes (count + 1) = 240 := if_neg first
        have three : overrunFrames (count + 1) 240 = 3 := by
          have late : ¬ count + 1 < 99 := by omega
          simp [overrunFrames, late]
        rw [nin, three, LPCNET_FRAME_SIZE] at longer
        have grown := further.output_mono
        rw [RADE_SPEECH_SAMPLE_RATE]
        omega

/-- A call that leaves samples in the FIFO, and a second one that gets more than a second and a
frame to work on with them. -/
theorem overrun_calls {carried input : Nat} (left : carried < sizes.ninMax)
    (long : RADE_MODEM_SAMPLE_RATE + LPCNET_FRAME_SIZE / 2 ≤ carried + input) :
    ∃ call ∈ (mapBlocks (execute (overrunLibrary sizes roomy)) (initial [] 0 () none)
        [List.replicate carried 0, List.replicate input 0]).1,
      RADE_SPEECH_SAMPLE_RATE < call.outputSamples.length := by
  obtain ⟨whole, modem⟩ := execute_of_short (overrunLibrary sizes roomy)
    (initial [] 0 () none) (List.replicate carried 0) (by
      rw [List.length_append, List.length_replicate]
      exact (Nat.zero_add carried).symm ▸ left)
  have second := overrun_loops roomy ((Execution.start
    (execute (overrunLibrary sizes roomy) (initial [] 0 () none) (List.replicate carried 0)).2
    (List.replicate input 0)).loop_loops _) (Nat.zero_le 98)
    (by rw [Execution.start, modem]; rfl) (by rw [Execution.start, modem]; rfl) rfl (by
      rw [Execution.pending, Execution.start, whole, List.length_append, List.length_append,
        List.length_replicate, List.length_replicate]
      exact Nat.le_trans long (Nat.add_le_add_right (Nat.le_add_left _ _) _))
  exact ⟨_, List.mem_cons_of_mem _ List.mem_cons_self, second⟩

end Overrun

/-- In a run all of whose calls get less than a second and a frame to work on, or whose
demodulator gives at most two frames at once, no call puts out more than a second. Where neither
holds, a demodulator that keeps to its bounds makes a call put out more. -/
theorem output_fits_in_one_second (sizes : RadeSizes) :
    (∀ (F R G T : Type) [FloatArith F] (lib : Library sizes F R G T), RxBounded lib →
      ∀ (inputBuf : List Int16) (dv : R) (fargan : G) (textPtr : Option T)
        (calls : List (List Int16)),
        AllSteps (fun step input => (execute lib step input).2) FitsOutput
          (initial inputBuf dv fargan textPtr) calls →
        ∀ call ∈ (mapBlocks (execute lib) (initial inputBuf dv fargan textPtr) calls).1,
          call.outputSamples.length ≤ RADE_SPEECH_SAMPLE_RATE) ∧
    ∀ carried input : Nat, carried < sizes.ninMax →
      ¬ (carried + input < RADE_MODEM_SAMPLE_RATE + LPCNET_FRAME_SIZE / 2 ∨ maxFrames sizes < 3) →
      letI := exactArith ℚ
      ∃ lib : Library sizes ℚ Nat Unit Unit, RxBounded lib ∧
        ∃ call ∈ (mapBlocks (execute lib) (initial [] 0 () none)
            [List.replicate carried 0, List.replicate input 0]).1,
          RADE_SPEECH_SAMPLE_RATE < call.outputSamples.length := by
  constructor
  · intro F R G T _ lib bounded inputBuf dv fargan textPtr calls fits
    exact mapBlocks_output_le bounded _ rfl calls fits
  · intro carried input left excess
    rw [not_or] at excess
    have roomy : 3 ≤ maxFrames sizes := Nat.le_of_not_lt excess.2
    exact ⟨overrunLibrary sizes roomy, overrunLibrary_bounded roomy,
      overrun_calls roomy left (Nat.le_of_not_lt excess.1)⟩

/-- Sizes of a demodulator that gives up to twelve frames at once. -/
def twelveFrames : RadeSizes := ⟨1120, 432, NB_TOTAL_FEATURES, NB_TOTAL_FEATURES_pos⟩

theorem twelveFrames_roomy : 3 ≤ maxFrames twelveFrames := by decide

/-- Two calls of 960 samples each. -/
theorem output_of_two_short_calls_fits :
    letI := exactArith ℚ
    let lib := overrunLibrary twelveFrames twelveFrames_roomy
    let calls : List (List Int16) := [List.replicate 960 0, List.replicate 960 0]
    RxBounded lib ∧
      AllSteps (fun step input => (execute lib step input).2) FitsOutput (initial [] 0 () none)
        calls ∧
      ∀ call ∈ (mapBlocks (execute lib) (initial [] 0 () none) calls).1,
        call.outputSamples.length ≤ RADE_SPEECH_SAMPLE_RATE := by
  let := exactArith ℚ
  intro lib calls
  have bounded : RxBounded lib := overrunLibrary_bounded twelveFrames_roomy
  have short : ∀ step : State twelveFrames ℚ Nat Unit Unit,
      FitsOutput step (List.replicate 960 0) := by
    intro step
    left
    have used := step.inputSampleFifo.numUsed_le
    rw [List.length_replicate]
    exact Nat.lt_of_le_of_lt (Nat.add_le_add_right used 960) (by decide)
  have fits : AllSteps (fun step input => (execute lib step input).2) FitsOutput
      (initial [] 0 () none) calls :=
    ⟨short _, short _, trivial⟩
  exact ⟨bounded, fits, (output_fits_in_one_second twelveFrames).1 ℚ Nat Unit Unit lib bounded []
    0 () none calls fits⟩

/-- With 80 samples left from the call before, a call with one second of input puts out more than
a second of speech. -/
theorem output_overruns_one_second :
    letI := exactArith ℚ
    let lib := overrunLibrary twelveFrames twelveFrames_roomy
    let calls : List (List Int16) := [List.replicate 80 0, List.replicate RADE_MODEM_SAMPLE_RATE 0]
    RxBounded lib ∧ (∀ input ∈ calls, input.length ≤ RADE_MODEM_SAMPLE_RATE) ∧
      ∃ call ∈ (mapBlocks (execute lib) (initial [] 0 () none) calls).1,
        RADE_SPEECH_SAMPLE_RATE < call.outputSamples.length := by
  let := exactArith ℚ
  intro lib calls
  refine ⟨overrunLibrary_bounded twelveFrames_roomy, ?_,
    overrun_calls twelveFrames_roomy (by decide) (by decide)⟩
  intro input member
  rcases List.mem_cons.mp member with rfl | member
  · rw [List.length_replicate]
    decide
  · rw [List.mem_singleton.mp member, List.length_replicate]

end FreeDV.Pipeline.RADEReceiveStep
