import FreeDV.Lib.Portions
import FreeDV.Pipeline.RadeReceiveStepBounds

/-!
# How the input of the RADE receiver step is cut does not matter

While the output guard stays out of the way, `execute` works off the input in the
portions the demodulator asks for. What is demodulated, and the speech made of it,
is therefore a function of the input stream, however it was cut into calls.
-/

set_option autoImplicit false

namespace FreeDV.Pipeline.RADEReceiveStep

open Lib Util.GenericFifo

variable {sizes : RadeSizes} {F R G T : Type} [FloatArith F]

/-- The demodulator as a consumer of the stream: the speech of a block, and the call it was
demodulated by. -/
def receiver (lib : Library sizes F R G T) :
    Consumer (Modem F R G T) Int16 (List Int16 × RxCall) where
  ask modem := (lib.radeNin modem.dv).1
  ask_pos modem := lib.nin_pos modem.dv
  process modem block :=
    let speech := demodulate lib modem block
    ((speech.1, ⟨(lib.radeNin modem.dv).1, block, true⟩), speech.2)

/-- `rade_nin` only tells how many samples are needed. -/
def NinIsGetter (lib : Library sizes F R G T) : Prop := ∀ dv, (lib.radeNin dv).2 = dv

/-- Twice the samples to work on, with what has been put out, stays below the guard. -/
def StaysBelow (run : Execution sizes F R G T) : Prop :=
  run.outputSamples.length + 2 * run.pending.length + LPCNET_FRAME_SIZE < RADE_SPEECH_SAMPLE_RATE

variable {lib : Library sizes F R G T}

omit [FloatArith F] in
theorem StaysBelow.hasRoom {run : Execution sizes F R G T} (below : StaysBelow run) :
    run.HasRoom := by
  unfold StaysBelow at below
  unfold Execution.HasRoom
  omega

/-- What a run of the loop makes of its input. -/
theorem Loops.work {run last : Execution sizes F R G T} {ending : Ending}
    (getter : NinIsGetter lib) (bounded : RxBounded lib) (loops : Loops lib run last ending)
    (aligned : Aligned run) (below : StaysBelow run) :
    let work := (receiver lib).work run.modem run.pending
    last.outputSamples = run.outputSamples ++ work.made.flatMap Prod.fst ∧
      last.rxCalls = run.rxCalls ++ work.made.map Prod.snd ∧
      last.modem = work.state ∧ last.inputSampleFifo.elements = work.rest ∧
      last.modem.pendingFeatures = [] := by
  induction loops with
  | full full => exact absurd below.hasRoom full
  | drained room missing whole output rxCalls modem =>
      rename_i run last
      have same : last.modem = run.modem := by rw [modem, getter]
      rw [(receiver lib).work_of_short missing]
      simp [output, rxCalls, same, whole, aligned.features]
  | block room advances further ih =>
      rename_i run next last ending
      obtain ⟨alignedNext, frames, most, length, potential⟩ := advances.output_le bounded aligned
      have belowNext : StaysBelow next := by
        unfold StaysBelow at below ⊢
        omega
      obtain ⟨output, rxCalls, modem, left, features⟩ := ih alignedNext belowNext
      have here : next.modem = (demodulate lib run.modem
          (run.pending.take (lib.radeNin run.modem.dv).1)).2 := by
        rw [advances.modem, getter]
      have speech : next.outputSamples = run.outputSamples ++ (demodulate lib run.modem
          (run.pending.take (lib.radeNin run.modem.dv).1)).1 := by
        rw [advances.output, getter]
      rw [here, advances.pending] at output rxCalls modem left
      rw [(receiver lib).work_of_enough advances.enough]
      refine ⟨?_, ?_, modem, left, features⟩
      · rw [output, speech, List.append_assoc]
        rfl
      · rw [rxCalls, advances.rxCalls, List.append_assoc]
        rfl

/-- Input that cannot make the output guard end the call, whatever is still in the FIFO. -/
def ShortCall (sizes : RadeSizes) (inputSamples : List Int16) : Prop :=
  2 * (sizes.ninMax + inputSamples.length) + LPCNET_FRAME_SIZE ≤ RADE_SPEECH_SAMPLE_RATE

/-- Between two calls: no half frame of features, and less in the FIFO than is asked for. -/
structure Between (lib : Library sizes F R G T) (step : State sizes F R G T) : Prop where
  features : step.modem.pendingFeatures = []
  short : step.inputSampleFifo.elements.length < (receiver lib).ask step.modem

theorem execute_work (getter : NinIsGetter lib) (bounded : RxBounded lib)
    {step : State sizes F R G T} (between : Between lib step) {inputSamples : List Int16}
    (short : ShortCall sizes inputSamples) :
    let made := execute lib step inputSamples
    let work := (receiver lib).work step.modem (step.inputSampleFifo.elements ++ inputSamples)
    made.1.outputSamples = work.made.flatMap Prod.fst ∧
      made.1.rxCalls = work.made.map Prod.snd ∧ made.2.modem = work.state ∧
      made.2.inputSampleFifo.elements = work.rest ∧ Between lib made.2 := by
  intro made work
  have carried : step.inputSampleFifo.elements.length < sizes.ninMax :=
    between.short.trans_le (lib.nin_le _)
  have below : StaysBelow (Execution.start step inputSamples) := by
    unfold ShortCall at short
    simp only [StaysBelow, Execution.start, Execution.pending, List.length_append, List.length_nil]
    omega
  obtain ⟨output, rxCalls, modem, left, features⟩ :=
    ((Execution.start step inputSamples).loop_loops lib).work getter bounded
      ⟨between.features, Nat.dvd_zero _⟩ below
  refine ⟨output, rxCalls, modem, left, features, ?_⟩
  have rest := (receiver lib).work_rest_lt step.modem
    (step.inputSampleFifo.elements ++ inputSamples)
  have state : made.2.modem = work.state := modem
  have queue : made.2.inputSampleFifo.elements = work.rest := left
  rwa [state, queue]

theorem mapBlocks_feed (getter : NinIsGetter lib) (bounded : RxBounded lib)
    {step : State sizes F R G T} (between : Between lib step) {calls : List (List Int16)}
    (short : ∀ call ∈ calls, ShortCall sizes call) :
    let made := mapBlocks (execute lib) step calls
    let fed := (receiver lib).feed step.modem step.inputSampleFifo.elements calls
    made.1.flatMap Call.outputSamples = fed.made.flatMap Prod.fst ∧
      made.1.flatMap Call.rxCalls = fed.made.map Prod.snd ∧ made.2.modem = fed.state ∧
      made.2.inputSampleFifo.elements = fed.rest := by
  induction calls generalizing step with
  | nil => exact ⟨rfl, rfl, rfl, rfl⟩
  | cons call rest ih =>
      obtain ⟨now, later⟩ := List.forall_mem_cons.mp short
      obtain ⟨output, rxCalls, modem, left, between'⟩ := execute_work getter bounded between now
      obtain ⟨outputs, allRxCalls, finalModem, finalLeft⟩ := ih between' later
      rw [modem, left] at outputs allRxCalls finalModem finalLeft
      simp only [mapBlocks, Consumer.feed, List.flatMap_cons, List.flatMap_append, List.map_append]
      exact ⟨by rw [output, outputs], by rw [rxCalls, allRxCalls], finalModem, finalLeft⟩

/-- However the input is cut into calls, as long as none of them is so long that its speech could
reach the output guard: the speech, the calls of the demodulator, the state of the modem and what
stays in the FIFO are those of the whole input worked off at once. -/
theorem cutting_does_not_matter (sizes : RadeSizes) (F R G T : Type) [FloatArith F]
    (lib : Library sizes F R G T) (getter : NinIsGetter lib) (bounded : RxBounded lib)
    (inputBuf : List Int16) (dv : R) (fargan : G) (textPtr : Option T) (calls : List (List Int16))
    (short : ∀ call ∈ calls, ShortCall sizes call) :
    let step := initial inputBuf dv fargan textPtr
    let made := mapBlocks (execute lib) step calls
    let whole := (receiver lib).work step.modem calls.flatten
    made.1.flatMap Call.outputSamples = whole.made.flatMap Prod.fst ∧
      made.1.flatMap Call.rxCalls = whole.made.map Prod.snd ∧ made.2.modem = whole.state ∧
      made.2.inputSampleFifo.elements = whole.rest := by
  intro step made whole
  have between : Between lib step := ⟨rfl, lib.nin_pos dv⟩
  have fed := mapBlocks_feed getter bounded between short
  rw [(receiver lib).feed_eq_work between.short calls] at fed
  exact fed

/-! ## A regular demodulator -/

def regularFrame (_ : Unit) (_ : List ℚ) : List ℚ × Unit := (List.replicate LPCNET_FRAME_SIZE 0, ())

theorem length_regularFrame (fargan : Unit) (features : List ℚ) :
    (regularFrame fargan features).1.length = LPCNET_FRAME_SIZE :=
  List.length_replicate

theorem regular_pos {nin : Nat} (positive : 1 ≤ nin) (_ : Unit) : 1 ≤ nin := positive

theorem regular_le (nin : Nat) (_ : Unit) : nin ≤ nin := Nat.le_refl nin

/-- A demodulator that makes `count` features of silence of each `nin` samples. -/
def regularLibrary (nin count : Nat) (positive : 1 ≤ nin) :
    Library ⟨nin, count, NB_TOTAL_FEATURES, NB_TOTAL_FEATURES_pos⟩ ℚ Unit Unit Unit where
  radeNin _ := (nin, ())
  nin_pos := regular_pos positive
  nin_le := regular_le nin
  radeRx _ block := (⟨if block.length = nin then List.replicate count 0 else [], false, []⟩, ())
  radeSync _ := 1
  radeSnr _ := 0
  radeTextRx _ _ := ()
  farganSynthesize := regularFrame
  length_synthesize := length_regularFrame
  freqOffsetFn _ := (0, ())
  toFloat sample := sample.toInt
  foffRect _ := ⟨1, 0⟩
  sqrtf value := value
  floorHalf value := Int16.ofInt value.floor

theorem eighty_pos : 1 ≤ 80 := Nat.le_add_left 1 79

def steadyLibrary : Library ⟨80, 36, NB_TOTAL_FEATURES, NB_TOTAL_FEATURES_pos⟩ ℚ Unit Unit Unit :=
  regularLibrary 80 36 eighty_pos

theorem steadyLibrary_bounded :
    letI := exactArith ℚ
    RxBounded steadyLibrary := by
  let := exactArith ℚ
  intro dv block positive fits
  by_cases whole : block.length = 80
  · simp [steadyLibrary, regularLibrary, whole, NB_TOTAL_FEATURES, LPCNET_FRAME_SIZE]
  · simp [steadyLibrary, regularLibrary, whole]

/-- Two calls that make one block. -/
theorem cutting_does_not_matter_for_a_block :
    letI := exactArith ℚ
    let step := initial [] () () none
    let made := mapBlocks (execute steadyLibrary) step [List.replicate 50 1, List.replicate 60 2]
    let whole := (receiver steadyLibrary).work step.modem
      [List.replicate 50 1, List.replicate 60 2].flatten
    made.1.flatMap Call.outputSamples = whole.made.flatMap Prod.fst ∧
      made.1.flatMap Call.rxCalls = whole.made.map Prod.snd ∧ made.2.modem = whole.state ∧
      made.2.inputSampleFifo.elements = whole.rest := by
  let := exactArith ℚ
  exact cutting_does_not_matter _ ℚ Unit Unit Unit steadyLibrary (fun _ => rfl)
    steadyLibrary_bounded [] () () none [List.replicate 50 1, List.replicate 60 2]
    (by simp [ShortCall, LPCNET_FRAME_SIZE, RADE_SPEECH_SAMPLE_RATE])

end FreeDV.Pipeline.RADEReceiveStep
