import FreeDV.Lib.Blocks
import FreeDV.Pipeline.LdpcDecode
import FreeDV.Util.GenericFifoQueue

/-!
# The RADE receiver step

`RADEReceiveStep` collects modem samples, demodulates them in blocks whose size
the demodulator asks for, and synthesizes speech from the features it returns.
`rade`, `fargan` and the float functions are parameters. `rxCalls` records the
demodulator calls and is not read.
-/

set_option autoImplicit false

namespace FreeDV.Pipeline

open Util.GenericFifo

def LPCNET_FRAME_SIZE : Nat := 160

def RADE_SPEECH_SAMPLE_RATE : Nat := 16000

def RADE_MODEM_SAMPLE_RATE : Nat := 8000

/-- The number of features of `lpcnet`, for sizes in examples. -/
def NB_TOTAL_FEATURES : Nat := 36

theorem NB_TOTAL_FEATURES_pos : 0 < NB_TOTAL_FEATURES := Nat.succ_pos 35

/-- `rade_nin_max`, `rade_n_features_in_out` and `NB_TOTAL_FEATURES`. -/
structure RadeSizes where
  ninMax : Nat
  nFeaturesInOut : Nat
  nbTotalFeatures : Nat
  positive : 0 < nbTotalFeatures

namespace RADEReceiveStep

/-- The first `nout` of `featuresOut_`, and what was received of an end-of-over frame. -/
structure RxResult (F : Type) where
  featuresOut : List F
  hasEooOut : Bool
  eooOut : List F

/-- The demodulator, the vocoder, the text decoder and the float functions, over types of
floats and of the states of `rade`, `fargan` and `rade_text`. -/
structure Library (sizes : RadeSizes) (F R G T : Type) where
  radeNin : R → Nat × R
  nin_pos : ∀ dv, 1 ≤ (radeNin dv).1
  nin_le : ∀ dv, (radeNin dv).1 ≤ sizes.ninMax
  radeRx : R → List (RadeComp F) → RxResult F × R
  radeSync : R → Int
  radeSnr : R → Int
  radeTextRx : T → List F → T
  farganSynthesize : G → List F → List F × G
  length_synthesize : ∀ fargan features, (farganSynthesize fargan features).1.length = LPCNET_FRAME_SIZE
  freqOffsetFn : R → F × R
  -- a sample divided by 32767, the step of the oscillator, `sqrtf`, and `(int)floor(.5 + value)`
  toFloat : Int16 → F
  foffRect : F → RadeComp F
  sqrtf : F → F
  floorHalf : F → Int16

open FloatArith (lit lt le)

/-- A call of `rade_rx`: how many samples were asked for, the samples in `inputBuf_` it was made
with, and whether the read in front of it succeeded. -/
structure RxCall where
  nin : Nat
  block : List Int16
  fresh : Bool
deriving DecidableEq

/-- What the blocks are demodulated and synthesized with. -/
structure Modem (F R G T : Type) where
  dv : R
  fargan : G
  textPtr : Option T
  rxFreqOffsetPhaseRectObjs : RadeComp F
  -- `pendingFeatures_` up to `pendingFeaturesIdx_`
  pendingFeatures : List F

structure State (sizes : RadeSizes) (F R G T : Type) where
  inputSampleFifo : Queue Int16 (sizes.ninMax + 1)
  inputBuf : List Int16
  modem : Modem F R G T
  syncState : Int
  snr : Int

variable {sizes : RadeSizes} {F R G T : Type} [FloatArith F] (lib : Library sizes F R G T)

/-! ## One block -/

def cmult (a b : RadeComp F) : RadeComp F :=
  ⟨a.real * b.real - a.imag * b.imag, a.real * b.imag + a.imag * b.real⟩

def cabsolute (a : RadeComp F) : F := lib.sqrtf (a.real * a.real + a.imag * a.imag)

/-- The loop of `freq_shift_coh` over the samples. -/
def freqShift (foff : F) (rect phase : RadeComp F) :
    List (RadeComp F) → List (RadeComp F) × RadeComp F
  | [] => ([], phase)
  | sample :: rest =>
      let phase := cmult phase rect
      let shifted :=
        if le foff (lit 0) && le (lit 0) foff then sample else cmult sample phase
      let later := freqShift foff rect phase rest
      (shifted :: later.1, later.2)

def freqShiftCoh (foff : F) (phase : RadeComp F) (samples : List (RadeComp F)) :
    List (RadeComp F) × RadeComp F :=
  let (shifted, phase) := freqShift foff (lib.foffRect foff) phase samples
  let mag := cabsolute lib phase
  (shifted, ⟨phase.real / mag, phase.imag / mag⟩)

/-- The conversion of a synthesized sample. -/
def toPcm (value : F) : Int16 :=
  let scaled := FloatArith.max (lit (-32767)) (lit 32768 * value)
  lib.floorHalf (if lt scaled (lit 32767) then scaled else lit 32767)

/-- One feature: a full set of them is synthesized into a frame. -/
def pushFeature (modem : Modem F R G T) (feature : F) : List Int16 × Modem F R G T :=
  let pendingFeatures := modem.pendingFeatures ++ [feature]
  if pendingFeatures.length = sizes.nbTotalFeatures then
    let (fpcm, fargan) := lib.farganSynthesize modem.fargan pendingFeatures
    (fpcm.map (toPcm lib), { modem with fargan, pendingFeatures := [] })
  else ([], { modem with pendingFeatures })

def pushFeatures (modem : Modem F R G T) : List F → List Int16 × Modem F R G T
  | [] => ([], modem)
  | feature :: rest =>
      let first := pushFeature lib modem feature
      let later := pushFeatures first.2 rest
      (first.1 ++ later.1, later.2)

/-- From the samples in `inputBuf_` to speech. -/
def demodulate (modem : Modem F R G T) (block : List Int16) : List Int16 × Modem F R G T :=
  let inputBufCplx := block.map fun sample => (⟨lib.toFloat sample, lit 0⟩ : RadeComp F)
  let (offset, dv) := lib.freqOffsetFn modem.dv
  let (rxFdmOffset, phase) := freqShiftCoh lib offset modem.rxFreqOffsetPhaseRectObjs inputBufCplx
  let (result, dv) := lib.radeRx dv rxFdmOffset
  let modem := { modem with dv, rxFreqOffsetPhaseRectObjs := phase }
  if result.hasEooOut then
    ([], { modem with textPtr := modem.textPtr.map fun text => lib.radeTextRx text result.eooOut })
  else pushFeatures lib modem result.featuresOut

/-! ## The loop -/

/-- `execute` at work. -/
structure Execution (sizes : RadeSizes) (F R G T : Type) where
  inputSampleFifo : Queue Int16 (sizes.ninMax + 1)
  inputBuf : List Int16
  modem : Modem F R G T
  inputSamples : List Int16
  outputSamples : List Int16
  rxCalls : List RxCall

/-- The samples the loop can still use. -/
def Execution.pending (run : Execution sizes F R G T) : List Int16 :=
  run.inputSampleFifo.elements ++ run.inputSamples

/-- `rade_nin`, and as much input as fits. -/
def Execution.refill (run : Execution sizes F R G T) : Execution sizes F R G T :=
  { run with
    modem := { run.modem with dv := (lib.radeNin run.modem.dv).2 }
    inputSampleFifo := (run.inputSampleFifo.fill run.inputSamples).1
    inputSamples := (run.inputSampleFifo.fill run.inputSamples).2 }

/-- The body of the loop behind the read. -/
def Execution.demodulate (run : Execution sizes F R G T) (nin : Nat) (fresh : Bool) :
    Execution sizes F R G T :=
  let block := run.inputBuf.take nin
  let (audio, modem) := RADEReceiveStep.demodulate lib run.modem block
  { run with
    modem
    outputSamples := run.outputSamples ++ audio
    rxCalls := run.rxCalls ++ [⟨nin, block, fresh⟩] }

/-- A successful read fills the front of `inputBuf_`. -/
def Execution.take (run : Execution sizes F R G T) (nin : Nat) (samples : List Int16)
    (fifo : Queue Int16 (sizes.ninMax + 1)) : Execution sizes F R G T :=
  { run with inputSampleFifo := fifo, inputBuf := samples ++ run.inputBuf.drop nin }

/-- Why the loop ended. -/
inductive Ending where
  -- the output guard
  | full
  -- no input left, and not enough in the FIFO
  | drained
deriving DecidableEq

omit [FloatArith F] in
/-- What the demodulator asks for can be read as soon as it has arrived. -/
theorem Execution.refill_read (run : Execution sizes F R G T) :
    (run.pending.length < (lib.radeNin run.modem.dv).1 ∧
      (run.refill lib).inputSampleFifo.read (lib.radeNin run.modem.dv).1 = none ∧
      (run.refill lib).inputSamples = [] ∧
      (run.refill lib).inputSampleFifo.elements = run.pending) ∨
    ∃ after, (lib.radeNin run.modem.dv).1 ≤ run.pending.length ∧
      (run.refill lib).inputSampleFifo.read (lib.radeNin run.modem.dv).1 =
        some (run.pending.take (lib.radeNin run.modem.dv).1, after) ∧
      after.elements ++ (run.refill lib).inputSamples =
        run.pending.drop (lib.radeNin run.modem.dv).1 := by
  have fits : (lib.radeNin run.modem.dv).1 ≤ capacity (sizes.ninMax + 1) := lib.nin_le _
  by_cases enough : (lib.radeNin run.modem.dv).1 ≤ run.pending.length
  · obtain ⟨after, done, rest⟩ := Queue.read_fill fits enough
    exact .inr ⟨after, enough, done, rest⟩
  · have missing := Nat.lt_of_not_le enough
    obtain ⟨refused, rest⟩ := Queue.read_fill_none fits missing
    have whole := run.inputSampleFifo.fill_append run.inputSamples
    rw [rest, List.append_nil] at whole
    exact .inl ⟨missing, refused, rest, whole⟩

def Execution.loop (run : Execution sizes F R G T) : Execution sizes F R G T × Ending :=
  if run.outputSamples.length + LPCNET_FRAME_SIZE < RADE_SPEECH_SAMPLE_RATE then
    let nin := (lib.radeNin run.modem.dv).1
    match _done : (run.refill lib).inputSampleFifo.read nin with
    | none =>
        if (run.refill lib).inputSamples = [] then (run.refill lib, .drained)
        else ((run.refill lib).demodulate lib nin false).loop
    | some (samples, fifo) =>
        (((run.refill lib).take nin samples fifo).demodulate lib nin true).loop
  else (run, .full)
termination_by run.pending.length
decreasing_by
  · rename_i left
    rcases run.refill_read lib with ⟨-, -, empty, -⟩ | ⟨after, -, done, -⟩
    · exact absurd empty left
    · cases _done.symm.trans done
  · rcases run.refill_read lib with ⟨-, refused, -, -⟩ | ⟨after, enough, done, rest⟩
    · cases _done.symm.trans refused
    · cases _done.symm.trans done
      have positive := lib.nin_pos run.modem.dv
      have length := congrArg List.length rest
      rw [List.length_drop] at length
      simp only [Execution.pending, Execution.demodulate, Execution.take] at length enough ⊢
      omega

/-- A new step, with arbitrary content of `inputBuf_`. -/
def initial (inputBuf : List Int16) (dv : R) (fargan : G) (textPtr : Option T) :
    State sizes F R G T where
  inputSampleFifo := .empty
  inputBuf := inputBuf
  modem := ⟨dv, fargan, textPtr, ⟨lit 1, lit 0⟩, []⟩
  syncState := 0
  snr := 0

/-- What a call of `execute` did. -/
structure Call where
  outputSamples : List Int16
  rxCalls : List RxCall
  ending : Ending

def Execution.start (step : State sizes F R G T) (inputSamples : List Int16) :
    Execution sizes F R G T :=
  ⟨step.inputSampleFifo, step.inputBuf, step.modem, inputSamples, [], []⟩

def execute (step : State sizes F R G T) (inputSamples : List Int16) :
    Call × State sizes F R G T :=
  let (run, ending) := (Execution.start step inputSamples).loop lib
  let sync := lib.radeSync run.modem.dv
  (⟨run.outputSamples, run.rxCalls, ending⟩,
    { inputSampleFifo := run.inputSampleFifo
      inputBuf := run.inputBuf
      modem := run.modem
      syncState := sync
      snr := if sync ≠ 0 then lib.radeSnr run.modem.dv else step.snr })

def reset (step : State sizes F R G T) : State sizes F R G T :=
  { step with
    inputSampleFifo := .empty
    modem := { step.modem with pendingFeatures := [] } }

end RADEReceiveStep

end FreeDV.Pipeline
