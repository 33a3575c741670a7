import FreeDV.Lib.Transition

/-!
# Rates in the audio pipeline

`AudioPipeline` owns its steps. It resamples in front of each step, and once
behind the last, wherever two rates differ. What steps and resamplers do with
samples is a parameter. The rate of audio is not in the code: it is known as long
as everything was given audio at the rate it declares, and `given` records this.
-/

set_option autoImplicit false

namespace FreeDV.Pipeline.AudioPipeline

open Lib

/-- A step or a resampler; its rates are fixed. -/
structure PipelineStep (S : Type) where
  inputSampleRate : Int
  outputSampleRate : Int
  state : S

structure Library (S R : Type) where
  stepExecute : S → List Int16 → List Int16 × S
  stepReset : S → S
  srcNew : (inputSampleRate outputSampleRate : Int) → R
  srcExecute : R → List Int16 → List Int16 × R
  srcReset : R → R

structure State (S R : Type) where
  inputSampleRate : Int
  outputSampleRate : Int
  pipelineSteps : List (PipelineStep S)
  resamplers : List (Option (PipelineStep R))
  resultSampler : Option (PipelineStep R)

variable {S R : Type} (lib : Library S R)

/-! ## Building a pipeline -/

/-- The output rate in front of a step. -/
def prevOutputSampleRate (p : State S R) : Nat → Option Int
  | 0 => some p.inputSampleRate
  | index + 1 => p.pipelineSteps[index]?.map PipelineStep.outputSampleRate

def newResampler (inputSampleRate outputSampleRate : Int) : Option (PipelineStep R) :=
  if outputSampleRate ≠ inputSampleRate then
    some ⟨inputSampleRate, outputSampleRate, lib.srcNew inputSampleRate outputSampleRate⟩
  else none

def reloadResampler (p : State S R) (index : Nat) : Option (State S R) :=
  match p.resamplers[index]?, p.pipelineSteps[index]?, prevOutputSampleRate p index with
  | some resampleStep, some step, some prevOutputSampleRate =>
      let createResampler :=
        match resampleStep with
        | none => true
        | some resampleStep =>
            resampleStep.outputSampleRate = step.inputSampleRate ∨
              (index ≠ 0 ∧ resampleStep.inputSampleRate ≠ prevOutputSampleRate)
      if createResampler then
        let resampleStep := newResampler lib prevOutputSampleRate step.inputSampleRate
        some { p with resamplers := p.resamplers.set index resampleStep }
      else
        -- the resampler would be deleted by the assignment to its own place
        none
  | _, _, _ => none

def lastOutputSampleRate (p : State S R) : Int :=
  p.pipelineSteps.getLast?.elim p.inputSampleRate PipelineStep.outputSampleRate

def reloadResultResampler (p : State S R) : State S R :=
  let createResampler :=
    match p.resultSampler with
    | none => true
    | some resultSampler =>
        (p.pipelineSteps.length = 0 ∧
          (resultSampler.inputSampleRate ≠ p.inputSampleRate ∨
            resultSampler.outputSampleRate ≠ p.outputSampleRate)) ∨
        (0 < p.pipelineSteps.length ∧
          resultSampler.inputSampleRate ≠ lastOutputSampleRate p)
  if createResampler then
    { p with resultSampler := newResampler lib (lastOutputSampleRate p) p.outputSampleRate }
  else p

/-- The constructor. -/
def construct (inputSampleRate outputSampleRate : Int) : State S R :=
  let p := ⟨inputSampleRate, outputSampleRate, [], [], none⟩
  if inputSampleRate ≠ outputSampleRate then reloadResultResampler lib p else p

def appendPipelineStep (p : State S R) (pipelineStep : PipelineStep S) :
    Option (State S R) :=
  let p := { p with
    pipelineSteps := p.pipelineSteps ++ [pipelineStep]
    resamplers := p.resamplers ++ [none] }
  (reloadResampler lib p (p.pipelineSteps.length - 1)).map (reloadResultResampler lib)

/-! ## Execution -/

structure Audio where
  samples : List Int16
  rate : Option Int

/-- The rate a step or a resampler declares, and that of the audio it was given. -/
structure Given where
  declared : Int
  rate : Option Int

def PipelineStep.execute {T : Type} (run : T → List Int16 → List Int16 × T)
    (step : PipelineStep T) (input : Audio) : Audio × PipelineStep T :=
  let (samples, state) := run step.state input.samples
  let rate := if input.rate = some step.inputSampleRate then some step.outputSampleRate else none
  (⟨samples, rate⟩, { step with state })

structure Resampled (R : Type) where
  output : Audio
  resampler : Option (PipelineStep R)
  given : List Given

def resample (resampler : Option (PipelineStep R)) (input : Audio) : Resampled R :=
  match resampler with
  | none => ⟨input, none, []⟩
  | some resampler =>
      let (output, after) := resampler.execute lib.srcExecute input
      ⟨output, some after, [⟨resampler.inputSampleRate, input.rate⟩]⟩

structure Run (S R : Type) where
  output : Audio
  pipelineSteps : List (PipelineStep S)
  resamplers : List (Option (PipelineStep R))
  given : List Given

/-- The loop over the steps, until an assertion fails. -/
def executeSteps : List (PipelineStep S) → List (Option (PipelineStep R)) → Audio →
    Option (Run S R)
  | [], resamplers, input => some ⟨input, [], resamplers, []⟩
  | _ :: _, [], _ => none
  | step :: steps, resampler :: resamplers, input =>
      if resampler.all fun resampler => resampler.outputSampleRate = step.inputSampleRate then
        let resampled := resample lib resampler input
        let (output, after) := step.execute lib.stepExecute resampled.output
        (executeSteps steps resamplers output).map fun run =>
          { run with
            pipelineSteps := after :: run.pipelineSteps
            resamplers := resampled.resampler :: run.resamplers
            given := resampled.given ++ ⟨step.inputSampleRate, resampled.output.rate⟩ ::
              run.given }
      else none

/-- The samples are at the input rate of the pipeline. -/
def execute (p : State S R) (inputSamples : List Int16) :
    Option (Audio × List Given × State S R) :=
  match executeSteps lib p.pipelineSteps p.resamplers ⟨inputSamples, some p.inputSampleRate⟩ with
  | none => none
  | some run =>
      let resampled := resample lib p.resultSampler run.output
      some (resampled.output, run.given ++ resampled.given,
        { p with
          pipelineSteps := run.pipelineSteps
          resamplers := run.resamplers
          resultSampler := resampled.resampler })

def reset (p : State S R) : State S R :=
  let resetResampler := fun resampleStep : PipelineStep R =>
    { resampleStep with state := lib.srcReset resampleStep.state }
  { p with
    pipelineSteps := p.pipelineSteps.map fun step =>
      { step with state := lib.stepReset step.state }
    resamplers := p.resamplers.map (Option.map resetResampler)
    resultSampler := p.resultSampler.map resetResampler }

inductive Action (S : Type) where
  | appendPipelineStep (pipelineStep : PipelineStep S)
  | execute (inputSamples : List Int16)
  | reset

def next (p : State S R) : Action S → Option (State S R)
  | .appendPipelineStep pipelineStep => appendPipelineStep lib p pipelineStep
  | .execute inputSamples => (execute lib p inputSamples).map fun call => call.2.2
  | .reset => some (reset lib p)

end FreeDV.Pipeline.AudioPipeline
