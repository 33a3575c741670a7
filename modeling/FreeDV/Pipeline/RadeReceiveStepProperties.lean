import FreeDV.Pipeline.RadeReceiveStep

/-!
# What the RADE receiver step demodulates

The FIFO holds as many samples as the demodulator can ask for, so a read fails
only when all input has been written to it. The blocks demodulated are therefore
consecutive pieces of the input.
-/

set_option autoImplicit false

namespace FreeDV.Pipeline.RADEReceiveStep

open Lib Util.GenericFifo

variable {sizes : RadeSizes} {F R G T : Type} [FloatArith F] {lib : Library sizes F R G T}

/-! ## Runs of the loop -/

/-- The output guard at the head of the loop. -/
def Execution.HasRoom (run : Execution sizes F R G T) : Prop :=
  run.outputSamples.length + LPCNET_FRAME_SIZE < RADE_SPEECH_SAMPLE_RATE

/-- The next block is demodulated. -/
structure Advances (lib : Library sizes F R G T) (run next : Execution sizes F R G T) : Prop where
  enough : (lib.radeNin run.modem.dv).1 ≤ run.pending.length
  pending : next.pending = run.pending.drop (lib.radeNin run.modem.dv).1
  rxCalls : next.rxCalls = run.rxCalls ++ [⟨(lib.radeNin run.modem.dv).1,
    run.pending.take (lib.radeNin run.modem.dv).1, true⟩]
  modem : next.modem = (demodulate lib { run.modem with dv := (lib.radeNin run.modem.dv).2 }
    (run.pending.take (lib.radeNin run.modem.dv).1)).2
  output : next.outputSamples = run.outputSamples ++
    (demodulate lib { run.modem with dv := (lib.radeNin run.modem.dv).2 }
      (run.pending.take (lib.radeNin run.modem.dv).1)).1

/-- A run of the loop from its first state to the one it ends in. -/
inductive Loops (lib : Library sizes F R G T) :
    Execution sizes F R G T → Execution sizes F R G T → Ending → Prop
  | full {run : Execution sizes F R G T} : ¬ run.HasRoom → Loops lib run run .full
  | drained {run last : Execution sizes F R G T} : run.HasRoom →
      run.pending.length < (lib.radeNin run.modem.dv).1 →
      last.inputSampleFifo.elements = run.pending → last.outputSamples = run.outputSamples →
      last.rxCalls = run.rxCalls →
      last.modem = { run.modem with dv := (lib.radeNin run.modem.dv).2 } →
      Loops lib run last .drained
  | block {run next last : Execution sizes F R G T} {ending : Ending} : run.HasRoom →
      Advances lib run next → Loops lib next last ending → Loops lib run last ending

theorem Execution.advances {run : Execution sizes F R G T}
    {after : Queue Int16 (sizes.ninMax + 1)}
    (enough : (lib.radeNin run.modem.dv).1 ≤ run.pending.length)
    (rest : after.elements ++ (run.refill lib).inputSamples =
      run.pending.drop (lib.radeNin run.modem.dv).1) :
    Advances lib run
      (((run.refill lib).take (lib.radeNin run.modem.dv).1
        (run.pending.take (lib.radeNin run.modem.dv).1) after).demodulate lib
          (lib.radeNin run.modem.dv).1 true) := by
  have front : ((run.refill lib).take (lib.radeNin run.modem.dv).1
      (run.pending.take (lib.radeNin run.modem.dv).1) after).inputBuf.take
        (lib.radeNin run.modem.dv).1 = run.pending.take (lib.radeNin run.modem.dv).1 := by
    rw [Execution.take, List.take_append_of_le_length (by rw [List.length_take]; omega),
      List.take_take, Nat.min_self]
  constructor
  · exact enough
  · exact rest
  · simp only [Execution.demodulate, front]
    rfl
  · simp only [Execution.demodulate, front]
    rfl
  · simp only [Execution.demodulate, front]
    rfl

/-- The loop never demodulates what is left in `inputBuf_` from an earlier read. -/
theorem Execution.loop_loops (lib : Library sizes F R G T) (run : Execution sizes F R G T) :
    Loops lib run (run.loop lib).1 (run.loop lib).2 := by
  fun_induction Execution.loop lib run with
  | case1 run room nin refused empty =>
      rcases run.refill_read lib with ⟨missing, -, -, whole⟩ | ⟨after, -, done, -⟩
      · exact .drained room missing whole rfl rfl rfl
      · cases refused.symm.trans done
  | case2 run room nin refused left ih =>
      rcases run.refill_read lib with ⟨-, -, empty, -⟩ | ⟨after, -, done, -⟩
      · exact absurd empty left
      · cases refused.symm.trans done
  | case3 run room nin samples fifo done ih =>
      rcases run.refill_read lib with ⟨-, refused, -, -⟩ | ⟨after, enough, same, rest⟩
      · cases done.symm.trans refused
      · cases done.symm.trans same
        exact .block room (Execution.advances enough rest) ih
  | case4 run full => exact .full full

/-! ## Consecutive slices of the input -/

/-- A demodulator call with samples that were read for it. -/
def RxCall.Sound (rx : RxCall) : Prop := rx.fresh = true ∧ rx.block.length = rx.nin

/-- What a number of demodulator calls were given. -/
def given (rxCalls : List RxCall) : List Int16 := rxCalls.flatMap RxCall.block

@[simp] theorem given_append (first second : List RxCall) :
    given (first ++ second) = given first ++ given second :=
  List.flatMap_append

theorem Advances.sound {run next : Execution sizes F R G T} (advances : Advances lib run next) :
    RxCall.Sound ⟨(lib.radeNin run.modem.dv).1,
      run.pending.take (lib.radeNin run.modem.dv).1, true⟩ :=
  ⟨rfl, List.length_take_of_le advances.enough⟩

theorem Loops.slices {run last : Execution sizes F R G T} {ending : Ending}
    (loops : Loops lib run last ending) :
    ∃ made, last.rxCalls = run.rxCalls ++ made ∧ (∀ rx ∈ made, rx.Sound) ∧
      (ending = .drained → given made ++ last.inputSampleFifo.elements = run.pending) := by
  induction loops with
  | full full =>
      refine ⟨[], (List.append_nil _).symm, by simp, ?_⟩
      intro ended
      cases ended
  | drained room missing whole output rxCalls modem =>
      refine ⟨[], by rw [rxCalls, List.append_nil], by simp, ?_⟩
      intro _
      exact whole
  | block room advances further ih =>
      obtain ⟨made, rxCalls, sound, slices⟩ := ih
      refine ⟨_ :: made, ?_, List.forall_mem_cons.mpr ⟨advances.sound, sound⟩, ?_⟩
      · rw [rxCalls, advances.rxCalls, List.append_assoc, List.singleton_append]
      · intro drained
        rw [given, List.flatMap_cons, ← given, List.append_assoc, slices drained, advances.pending,
          List.take_append_drop]

theorem execute_slices (lib : Library sizes F R G T) (step : State sizes F R G T)
    (inputSamples : List Int16) :
    (∀ rx ∈ (execute lib step inputSamples).1.rxCalls, rx.Sound) ∧
      ((execute lib step inputSamples).1.ending = .drained →
        given (execute lib step inputSamples).1.rxCalls ++
            (execute lib step inputSamples).2.inputSampleFifo.elements =
          step.inputSampleFifo.elements ++ inputSamples) := by
  obtain ⟨made, rxCalls, sound, slices⟩ :=
    ((Execution.start step inputSamples).loop_loops lib).slices
  simp only [Execution.start, List.nil_append] at rxCalls
  simp only [execute, Execution.start, rxCalls]
  exact ⟨sound, slices⟩

theorem mapBlocks_slices (step : State sizes F R G T) (calls : List (List Int16)) :
    let made := mapBlocks (execute lib) step calls
    (∀ call ∈ made.1, ∀ rx ∈ call.rxCalls, rx.Sound) ∧
      ((∀ call ∈ made.1, call.ending = .drained) →
        given (made.1.flatMap Call.rxCalls) ++ made.2.inputSampleFifo.elements =
          step.inputSampleFifo.elements ++ calls.flatten) := by
  induction calls generalizing step with
  | nil => simp [mapBlocks, given]
  | cons inputSamples rest ih =>
      obtain ⟨sound, slices⟩ := execute_slices lib step inputSamples
      obtain ⟨laterSound, laterSlices⟩ := ih (execute lib step inputSamples).2
      simp only [mapBlocks, List.forall_mem_cons]
      refine ⟨⟨sound, laterSound⟩, ?_⟩
      rintro ⟨drained, laterDrained⟩
      rw [List.flatMap_cons, given_append, List.append_assoc, laterSlices laterDrained,
        ← List.append_assoc, slices drained, List.append_assoc, List.flatten_cons]

/-- Each demodulator call is given as many samples as it asked for, all read for it. As long as
no call of `execute` was ended by the output guard, the calls are given the consecutive pieces of
the input and the rest of it is in the FIFO. `execute` itself is total. -/
theorem rx_calls_are_given_the_input (sizes : RadeSizes) (F R G T : Type) [FloatArith F]
    (lib : Library sizes F R G T) (inputBuf : List Int16) (dv : R) (fargan : G) (textPtr : Option T)
    (calls : List (List Int16)) :
    let made := mapBlocks (execute lib) (initial inputBuf dv fargan textPtr) calls
    (∀ call ∈ made.1, ∀ rx ∈ call.rxCalls, rx.fresh = true ∧ rx.block.length = rx.nin) ∧
      ((∀ call ∈ made.1, call.ending = .drained) →
        (made.1.flatMap Call.rxCalls).flatMap RxCall.block ++ made.2.inputSampleFifo.elements =
          calls.flatten) :=
  mapBlocks_slices (initial inputBuf dv fargan textPtr) calls

def smallSizes : RadeSizes := ⟨4, 36, NB_TOTAL_FEATURES, NB_TOTAL_FEATURES_pos⟩

/-- A demodulator that takes four samples at a time and finds nothing in them. -/
def silentLibrary : Library smallSizes ℚ Unit Unit Unit where
  radeNin _ := (4, ())
  nin_pos _ := by decide
  nin_le _ := by decide
  radeRx _ _ := (⟨[], false, []⟩, ())
  radeSync _ := 0
  radeSnr _ := 0
  radeTextRx _ _ := ()
  farganSynthesize _ _ := (List.replicate LPCNET_FRAME_SIZE 0, ())
  length_synthesize _ _ := rfl
  freqOffsetFn _ := (0, ())
  toFloat sample := sample.toInt
  foffRect _ := ⟨1, 0⟩
  sqrtf value := value
  floorHalf value := Int16.ofInt value.floor

/-- Two calls, of three samples and of two. -/
theorem rx_calls_are_given_five_samples :
    letI := exactArith ℚ
    let made := mapBlocks (execute silentLibrary) (initial [7, 7, 7, 7] () () none)
      [[1, 2, 3], [4, 5]]
    (∀ call ∈ made.1, call.ending = .drained) ∧
      (made.1.flatMap Call.rxCalls).flatMap RxCall.block ++ made.2.inputSampleFifo.elements =
        [1, 2, 3, 4, 5] := by
  let := exactArith ℚ
  have drained : ∀ call ∈ (mapBlocks (execute silentLibrary) (initial [7, 7, 7, 7] () () none)
      [[1, 2, 3], [4, 5]]).1, call.ending = .drained := by
    decide +kernel
  exact ⟨drained, (rx_calls_are_given_the_input smallSizes ℚ Unit Unit Unit silentLibrary
    [7, 7, 7, 7] () () none [[1, 2, 3], [4, 5]]).2 drained⟩

end FreeDV.Pipeline.RADEReceiveStep
