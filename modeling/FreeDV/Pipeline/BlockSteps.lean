import FreeDV.Lib.Blocks
import FreeDV.Pipeline.LdpcDecode
import FreeDV.Util.GenericFifoQueue

/-!
# Pipeline steps that work in blocks

`AgcStep`, `RNNoiseStep` and `BandwidthExpandStep` collect their input in a FIFO
and hand it to a DSP library in blocks of a fixed size. The libraries are
parameters: any function of a state and a block. `handed` and `touched` record
what a call does and are not read.
-/

set_option autoImplicit false

namespace FreeDV.Pipeline

open Lib Util.GenericFifo

/-- The block size of a step and the number of slots of its `inputSampleFifo_`. -/
structure BlockSizes where
  block : Nat
  nelem : Nat
  positive : 0 < block
  fits : block ≤ capacity nelem

/-- A step between two calls: the buffered input, and the state the blocks are processed with. -/
structure BlockStep (sizes : BlockSizes) (σ : Type) where
  inputSampleFifo : Queue Int16 sizes.nelem
  library : σ

/-- What happens to a block: the samples put out for it, and the part of `outputSamples_`
from `tmpOutput` on that is written to. -/
structure BlockBody (σ : Type) where
  process : σ → List Int16 → List Int16 × σ
  width : Nat
  bounded : ∀ state block, (process state block).1.length ≤ width

/-- `execute` at work. -/
structure Execution (sizes : BlockSizes) (σ : Type) where
  inputSampleFifo : Queue Int16 sizes.nelem
  library : σ
  handed : List (List Int16)
  output : List Int16
  -- the end of the part of `outputSamples_` written to so far
  touched : Nat

variable {sizes : BlockSizes} {σ : Type}

namespace Execution

def start (step : BlockStep sizes σ) : Execution sizes σ :=
  ⟨step.inputSampleFifo, step.library, [], [], 0⟩

def behind (run : Execution sizes σ) : BlockStep sizes σ := ⟨run.inputSampleFifo, run.library⟩

/-- A block that was read from the FIFO. -/
def processBlock (body : BlockBody σ) (run : Execution sizes σ) (block : List Int16)
    (fifo : Queue Int16 sizes.nelem) : Execution sizes σ where
  inputSampleFifo := fifo
  library := (body.process run.library block).2
  handed := run.handed ++ [block]
  output := run.output ++ (body.process run.library block).1
  touched := max run.touched (run.output.length + body.width)

/-- `while (inputSampleFifo_.numUsed() >= ...)`: there is a block exactly if the read succeeds. -/
def drain (body : BlockBody σ) (run : Execution sizes σ) : Execution sizes σ :=
  match _taken : run.inputSampleFifo.read sizes.block with
  | none => run
  | some (block, fifo) => drain body (run.processBlock body block fifo)
termination_by run.inputSampleFifo.numUsed
decreasing_by
  obtain ⟨enough, -, rest⟩ := Queue.read_eq_some _taken
  have positive := sizes.positive
  simp only [processBlock, Queue.numUsed, rest, List.length_drop] at enough ⊢
  omega

theorem numUsed_drain_le (body : BlockBody σ) (run : Execution sizes σ) :
    (drain body run).inputSampleFifo.numUsed ≤ run.inputSampleFifo.numUsed := by
  fun_induction drain body run with
  | case1 run taken => exact Nat.le_refl _
  | case2 run block fifo taken ih =>
      obtain ⟨-, -, rest⟩ := Queue.read_eq_some taken
      have shorter : fifo.numUsed ≤ run.inputSampleFifo.numUsed := by
        simp only [Queue.numUsed, rest, List.length_drop]
        omega
      exact Nat.le_trans ih shorter

theorem numUsed_drain_lt (body : BlockBody σ) {run : Execution sizes σ}
    (long : sizes.block ≤ run.inputSampleFifo.numUsed) :
    (drain body run).inputSampleFifo.numUsed < run.inputSampleFifo.numUsed := by
  have positive := sizes.positive
  rw [drain]
  split
  · rename_i taken
    rw [Queue.read_of_le long] at taken
    cases taken
  · rename_i block fifo taken
    obtain ⟨-, -, rest⟩ := Queue.read_eq_some taken
    have shorter : fifo.numUsed < run.inputSampleFifo.numUsed := by
      simp only [Queue.numUsed, rest, List.length_drop] at long ⊢
      omega
    exact Nat.lt_of_le_of_lt (numUsed_drain_le body _) shorter

/-- One turn of the outer loop: as much as fits into the FIFO, then all blocks in it. -/
def feedPiece (body : BlockBody σ) (run : Execution sizes σ) (inputSamples : List Int16) :
    Execution sizes σ :=
  drain body { run with inputSampleFifo := run.inputSampleFifo.writeAny inputSamples }

theorem numUsed_feedPiece_le (body : BlockBody σ) (run : Execution sizes σ)
    {inputSamples : List Int16} (room : inputSamples.length ≤ run.inputSampleFifo.numFree) :
    (feedPiece body run inputSamples).inputSampleFifo.numUsed ≤
      run.inputSampleFifo.numUsed + inputSamples.length := by
  have shorter := numUsed_drain_le body
    { run with inputSampleFifo := run.inputSampleFifo.writeAny inputSamples }
  have written := Queue.elements_writeAny room
  simp only [Queue.numUsed, written, List.length_append] at shorter ⊢
  exact shorter

/-- A turn that writes something, or finds a block, makes progress. -/
theorem feedPiece_progress (body : BlockBody σ) (run : Execution sizes σ)
    (inputSamples : List Int16)
    (moves : 0 < min run.inputSampleFifo.numFree inputSamples.length ∨
      sizes.block ≤ run.inputSampleFifo.numUsed) :
    2 * (inputSamples.drop (min run.inputSampleFifo.numFree inputSamples.length)).length +
        (feedPiece body run (inputSamples.take
          (min run.inputSampleFifo.numFree inputSamples.length))).inputSampleFifo.numUsed <
      2 * inputSamples.length + run.inputSampleFifo.numUsed := by
  by_cases written : 0 < min run.inputSampleFifo.numFree inputSamples.length
  · have room : (inputSamples.take (min run.inputSampleFifo.numFree inputSamples.length)).length ≤
        run.inputSampleFifo.numFree := by
      rw [List.length_take]
      omega
    have used := numUsed_feedPiece_le body run room
    rw [List.length_take] at used
    rw [List.length_drop]
    omega
  · have none : min run.inputSampleFifo.numFree inputSamples.length = 0 := by omega
    have same : run.inputSampleFifo.writeAny [] = run.inputSampleFifo := by
      ext1
      rw [Queue.elements_writeAny (Nat.zero_le _), List.append_nil]
    have used := numUsed_drain_lt body (moves.resolve_left written)
    rw [none, List.drop_zero, List.take_zero, feedPiece, same]
    exact Nat.add_lt_add_left used _

/-- The loop of `AgcStep` and `RNNoiseStep`, which gives up if nothing was written and there is
no block. -/
def feed (body : BlockBody σ) (run : Execution sizes σ) (inputSamples : List Int16) :
    Execution sizes σ :=
  if 0 < inputSamples.length then
    let samplesToWrite := min run.inputSampleFifo.numFree inputSamples.length
    if _stuck : samplesToWrite = 0 ∧ run.inputSampleFifo.numUsed < sizes.block then run
    else
      feed body (feedPiece body run (inputSamples.take samplesToWrite))
        (inputSamples.drop samplesToWrite)
  else run
termination_by 2 * inputSamples.length + run.inputSampleFifo.numUsed
decreasing_by exact feedPiece_progress body run inputSamples (by omega)

/-- The loop of `BandwidthExpandStep`, which has no such check: a full FIFO holds a block. -/
def feedAll (body : BlockBody σ) (run : Execution sizes σ) (inputSamples : List Int16) :
    Execution sizes σ :=
  if _pending : 0 < inputSamples.length then
    let samplesToWrite := min run.inputSampleFifo.numFree inputSamples.length
    feedAll body (feedPiece body run (inputSamples.take samplesToWrite))
      (inputSamples.drop samplesToWrite)
  else run
termination_by 2 * inputSamples.length + run.inputSampleFifo.numUsed
decreasing_by
  have block := sizes.fits
  have whole := run.inputSampleFifo.numUsed_add_numFree
  exact feedPiece_progress body run inputSamples (by omega)

end Execution

/-- What a call of `execute` did. -/
structure BlockCall where
  handed : List (List Int16)
  output : List Int16
  touched : Nat

def Execution.call (run : Execution sizes σ) : BlockCall := ⟨run.handed, run.output, run.touched⟩

/-! ## AGC -/

namespace AgcStep

def TEN_MS_DIVIDER : Nat := 100

def MAX_AGC_SAMPLES : Nat := 160

def LOUDNESS_UPDATE_INTERVAL_BLOCKS : Nat := 5

def EBUR128_SUCCESS : Int := 0

/-- `sampleRate_`: an unsupported rate falls back to 48 kHz. -/
def runRate (sampleRate : Int) : Nat :=
  if sampleRate = 8000 ∨ sampleRate = 16000 ∨ sampleRate = 32000 ∨ sampleRate = 48000 then
    sampleRate.toNat
  else 48000

theorem runRate_cases (sampleRate : Int) :
    runRate sampleRate = 8000 ∨ runRate sampleRate = 16000 ∨ runRate sampleRate = 32000 ∨
      runRate sampleRate = 48000 := by
  unfold runRate
  split <;> omega

def numSamplesPerRun (sampleRate : Int) : Nat :=
  min MAX_AGC_SAMPLES (runRate sampleRate / TEN_MS_DIVIDER)

theorem numSamplesPerRun_pos (sampleRate : Int) : 0 < numSamplesPerRun sampleRate := by
  rcases runRate_cases sampleRate with rate | rate | rate | rate <;>
    simp [numSamplesPerRun, rate, MAX_AGC_SAMPLES, TEN_MS_DIVIDER]

def blockSizes (sampleRate : Int) : BlockSizes where
  block := numSamplesPerRun sampleRate
  nelem := MAX_AGC_SAMPLES + 1
  positive := numSamplesPerRun_pos sampleRate
  fits := Nat.min_le_left _ _

/-- libebur128, the WebRTC AGC and the float operations between them, over types of doubles,
floats and library states. -/
structure Library (D F E W : Type) where
  ebur128AddFramesShort : E → List Int16 → E
  ebur128LoudnessMomentary : E → Int × D
  ebur128Init : E
  -- `WebRtcAgc_Init` and `WebRtcAgc_set_config` on a created state
  webRtcAgcInit : W → W
  webRtcAgcCreate : W
  webRtcAgcProcess : W → List Int16 → Nat → List Int16 × W
  length_process : ∀ state block samples, (webRtcAgcProcess state block samples).1.length = samples
  hugeVal : D
  narrow : D → F
  widen : F → D
  expf : F → F
  logf : F → F
  trunc : F → Int16

structure State (F E W : Type) where
  targetGainDb : F
  currentGainDb : F
  blocksSinceLoudnessUpdate : Nat
  lastMeasurementValid : Bool
  ebur128State : E
  agcState : W

open FloatArith (lit lt le)

variable {D F E W : Type} [FloatArith D] [FloatArith F] (lib : Library D F E W)

/-- Steps 1 and 2: the loudness is measured every fifth block. -/
def measure (s : State F E W) (block : List Int16) : State F E W :=
  let ebur128State := lib.ebur128AddFramesShort s.ebur128State block
  if LOUDNESS_UPDATE_INTERVAL_BLOCKS ≤ s.blocksSinceLoudnessUpdate + 1 then
    let (result, lufs) := lib.ebur128LoudnessMomentary ebur128State
    let silent := le lufs (-lib.hugeVal) && le (-lib.hugeVal) lufs
    let valid := result = EBUR128_SUCCESS && !silent && lt (lib.widen (lit (-33))) lufs
    let target := lib.narrow (lib.widen (lit (-23)) - lufs)
    let target := if le (lit 12) target then lit 12 else target
    let target := if le target (lit (-20)) then lit (-20) else target
    { s with
      ebur128State
      blocksSinceLoudnessUpdate := 0
      lastMeasurementValid := valid
      targetGainDb := if valid then target else s.targetGainDb }
  else
    { s with ebur128State, blocksSinceLoudnessUpdate := s.blocksSinceLoudnessUpdate + 1 }

/-- Step 3: the gain moves towards its target. -/
def rampGain (sampleRate : Int) (s : State F E W) : State F E W :=
  if s.lastMeasurementValid then
    let agcInterval : F := if lt s.targetGainDb s.currentGainDb then lit (1 / 2) else lit 6
    { s with currentGainDb := s.currentGainDb + (s.targetGainDb - s.currentGainDb) / agcInterval *
        (lit (numSamplesPerRun sampleRate) / lit (runRate sampleRate)) }
  else s

/-- `ConvertSingleSampleToFloatSampleType_`, with the largest `short` as its divisor. -/
def toFloat (sample : Int16) : F := lit sample.toInt * (lit 1 / lit 32767)

/-- `ConvertSingleSampleToIntSampleType_`. -/
def toShort (value : F) : Int16 :=
  let temp := value * lit 32768
  if le temp (lit (-32768)) then Int16.minValue
  else if le (lit 32767) temp then Int16.maxValue
  else lib.trunc temp

def scale (currentGainDb : F) (block : List Int16) : List Int16 :=
  let scaleFactor := lib.expf (currentGainDb / lit 20 * lib.logf (lit 10))
  block.map fun sample => toShort lib (toFloat sample * scaleFactor)

/-- The body of the inner loop. -/
def processBlock (sampleRate : Int) (s : State F E W) (block : List Int16) :
    List Int16 × State F E W :=
  let s := rampGain sampleRate (measure lib s block)
  let (output, agcState) := lib.webRtcAgcProcess s.agcState (scale lib s.currentGainDb block)
    (numSamplesPerRun sampleRate)
  (output, { s with agcState })

def body (sampleRate : Int) : BlockBody (State F E W) where
  process := processBlock lib sampleRate
  width := numSamplesPerRun sampleRate
  bounded _ _ := Nat.le_of_eq (lib.length_process _ _ _)

/-- The constructor. -/
def initial (sampleRate : Int) : BlockStep (blockSizes sampleRate) (State F E W) where
  inputSampleFifo := .empty
  library :=
    { targetGainDb := lit 0
      currentGainDb := lit 0
      blocksSinceLoudnessUpdate := 0
      lastMeasurementValid := false
      ebur128State := lib.ebur128Init
      agcState := lib.webRtcAgcInit lib.webRtcAgcCreate }

def execute (sampleRate : Int) (step : BlockStep (blockSizes sampleRate) (State F E W))
    (inputSamples : List Int16) : BlockCall × BlockStep (blockSizes sampleRate) (State F E W) :=
  let run := (Execution.start step).feed (body lib sampleRate) inputSamples
  (run.call, run.behind)

omit [FloatArith D] [FloatArith F] in
/-- The loop that feeds libebur128 with silence. -/
def feedSilence (sampleRate : Int) (remaining : Nat) (ebur128State : E) : E :=
  if 0 < remaining then
    feedSilence sampleRate (remaining - numSamplesPerRun sampleRate)
      (lib.ebur128AddFramesShort ebur128State
        (List.replicate (min remaining (numSamplesPerRun sampleRate)) 0))
  else ebur128State
termination_by remaining
decreasing_by
  have positive := numSamplesPerRun_pos sampleRate
  omega

def reset (sampleRate : Int) (step : BlockStep (blockSizes sampleRate) (State F E W)) :
    BlockStep (blockSizes sampleRate) (State F E W) where
  inputSampleFifo := .empty
  library :=
    { targetGainDb := lit 0
      currentGainDb := lit 0
      blocksSinceLoudnessUpdate := 0
      lastMeasurementValid := false
      ebur128State :=
        feedSilence lib sampleRate (runRate sampleRate * 4 / 10) step.library.ebur128State
      agcState := lib.webRtcAgcInit step.library.agcState }

end AgcStep

/-! ## Noise reduction -/

namespace RNNoiseStep

def RNNOISE_SAMPLE_RATE : Nat := 48000

def RNNOISE_FRAME_SIZE : Nat := 480

def blockSizes : BlockSizes where
  block := RNNOISE_FRAME_SIZE
  nelem := RNNOISE_FRAME_SIZE + 1
  positive := by decide
  fits := Nat.le_refl _

/-- RNNoise, over types of floats and library states. -/
structure Library (F R : Type) where
  rnnoiseCreate : R
  rnnoiseInit : R → R
  rnnoiseProcessFrame : R → List F → List F × R
  length_process : ∀ state frame, (rnnoiseProcessFrame state frame).1.length = RNNOISE_FRAME_SIZE
  toFloat : Int16 → F
  toShort : F → Int16

structure State (R : Type) where
  firstFrame : Bool
  rnnoise : R

variable {F R : Type} (lib : Library F R)

/-- The library's result for a block, in `short` samples. -/
def denoise (rnnoise : R) (block : List Int16) : List Int16 × R :=
  let (frame, rnnoise) := lib.rnnoiseProcessFrame rnnoise (block.map lib.toFloat)
  (frame.map lib.toShort, rnnoise)

/-- The body of the inner loop. The first frame is not put out. -/
def processBlock (s : State R) (block : List Int16) : List Int16 × State R :=
  let (output, rnnoise) := denoise lib s.rnnoise block
  (if s.firstFrame then [] else output, ⟨false, rnnoise⟩)

theorem length_denoise (rnnoise : R) (block : List Int16) :
    (denoise lib rnnoise block).1.length = RNNOISE_FRAME_SIZE := by
  rw [denoise, List.length_map, lib.length_process]

theorem length_processBlock (s : State R) (block : List Int16) :
    (processBlock lib s block).1.length ≤ RNNOISE_FRAME_SIZE := by
  unfold processBlock
  dsimp only
  split
  · exact Nat.zero_le _
  · exact Nat.le_of_eq (length_denoise lib _ _)

def body : BlockBody (State R) where
  process := processBlock lib
  width := RNNOISE_FRAME_SIZE
  bounded := length_processBlock lib

/-- The constructor. -/
def initial : BlockStep blockSizes (State R) := ⟨.empty, ⟨true, lib.rnnoiseCreate⟩⟩

def execute (step : BlockStep blockSizes (State R)) (inputSamples : List Int16) :
    BlockCall × BlockStep blockSizes (State R) :=
  let run := (Execution.start step).feed (body lib) inputSamples
  (run.call, run.behind)

def reset (step : BlockStep blockSizes (State R)) : BlockStep blockSizes (State R) :=
  ⟨.empty, ⟨true, lib.rnnoiseInit step.library.rnnoise⟩⟩

end RNNoiseStep

/-! ## Bandwidth expansion -/

namespace BandwidthExpandStep

def INPUT_SAMPLE_RATE : Nat := 16000

def OUTPUT_SAMPLE_RATE : Nat := 48000

def BWE_FRAME_SIZE : Nat := 320

def blockSizes : BlockSizes where
  block := BWE_FRAME_SIZE
  nelem := INPUT_SAMPLE_RATE / 2
  positive := by decide
  fits := by decide

/-- The samples put out for a block. -/
def outputSize : Nat := BWE_FRAME_SIZE * (OUTPUT_SAMPLE_RATE / INPUT_SAMPLE_RATE)

/-- BBWENet, over a type of library states. -/
structure Library (B : Type) where
  osceCreate : B
  -- `osce_load_models` and `osce_bwe_reset`
  osceReset : B → B
  osceBwe : B → List Int16 → List Int16 × B
  length_process : ∀ state block, (osceBwe state block).1.length = outputSize

variable {B : Type} (lib : Library B)

def body : BlockBody B where
  process := lib.osceBwe
  width := outputSize
  bounded _ _ := Nat.le_of_eq (lib.length_process _ _)

/-- The constructor. -/
def initial : BlockStep blockSizes B := ⟨.empty, lib.osceReset lib.osceCreate⟩

def execute (step : BlockStep blockSizes B) (inputSamples : List Int16) :
    BlockCall × BlockStep blockSizes B :=
  let run := (Execution.start step).feedAll (body lib) inputSamples
  (run.call, run.behind)

def reset (step : BlockStep blockSizes B) : BlockStep blockSizes B :=
  ⟨.empty, lib.osceReset step.library⟩

end BandwidthExpandStep

end FreeDV.Pipeline
