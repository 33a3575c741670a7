import FreeDV.Pipeline.AudioPipelineRates

/-!
# All audio is at the rate declared for it

The chain of rates from the pipeline's input to its output holds after
construction and is kept by appending, execution and reset. Over a chain,
execution gives every step and resampler audio at its input rate.
-/

set_option autoImplicit false

namespace FreeDV.Pipeline.AudioPipeline

open Lib

variable {S R : Type}

/-! ## Resamplers where they are needed -/

/-- There is a resampler between two rates exactly if they differ, and then it is one between
these. -/
def Converts {R : Type} (resampler : Option (PipelineStep R)) (before after : Int) : Prop :=
  match resampler with
  | none => before = after
  | some resampler =>
      before ≠ after ∧ resampler.inputSampleRate = before ∧ resampler.outputSampleRate = after

/-- The steps follow each other, from one rate to another. -/
inductive Chain {S R : Type} :
    Int → List (PipelineStep S) → List (Option (PipelineStep R)) → Int → Prop where
  | nil {rate : Int} : Chain rate [] [] rate
  | cons {rate final : Int} {step : PipelineStep S} {steps : List (PipelineStep S)}
      {resampler : Option (PipelineStep R)} {resamplers : List (Option (PipelineStep R))} :
      Converts resampler rate step.inputSampleRate →
      Chain step.outputSampleRate steps resamplers final →
      Chain rate (step :: steps) (resampler :: resamplers) final

structure Consistent (p : State S R) : Prop where
  chain : Chain p.inputSampleRate p.pipelineSteps p.resamplers (lastOutputSampleRate p)
  result : Converts p.resultSampler (lastOutputSampleRate p) p.outputSampleRate

variable {lib : Library S R} {p : State S R} {steps : List (PipelineStep S)}
  {resamplers : List (Option (PipelineStep R))} {rate final : Int}

theorem converts_newResampler (lib : Library S R) (before after : Int) :
    Converts (newResampler lib before after) before after := by
  rw [newResampler]
  split
  · rename_i different
    exact ⟨Ne.symm different, rfl, rfl⟩
  · rename_i same
    exact (not_not.mp same).symm

theorem Chain.length (chain : Chain rate steps resamplers final) :
    resamplers.length = steps.length := by
  induction chain with
  | nil => rfl
  | cons _ _ ih => exact congrArg Nat.succ ih

theorem Chain.append (chain : Chain rate steps resamplers final) {step : PipelineStep S}
    {resampler : Option (PipelineStep R)}
    (converts : Converts resampler final step.inputSampleRate) :
    Chain rate (steps ++ [step]) (resamplers ++ [resampler]) step.outputSampleRate := by
  induction chain with
  | nil => exact .cons converts .nil
  | cons first _ ih => exact .cons first (ih converts)

theorem Chain.last (chain : Chain rate steps resamplers final) :
    final = steps.getLast?.elim rate PipelineStep.outputSampleRate := by
  induction chain with
  | nil => rfl
  | @cons _ _ step steps _ _ _ _ ih =>
      rw [ih, List.getLast?_cons]
      cases steps.getLast? <;> rfl

theorem Chain.converts (chain : Chain rate steps resamplers final) {index : Nat}
    {step : PipelineStep S} (found : steps[index]? = some step) :
    ∃ resampler before, resamplers[index]? = some resampler ∧
      prevOutputSampleRate ⟨rate, final, steps, resamplers, none⟩ index = some before ∧
      Converts resampler before step.inputSampleRate := by
  induction chain generalizing index with
  | nil => cases found
  | @cons rate final first steps resampler resamplers converts chain ih =>
      cases index with
      | zero =>
          cases found
          exact ⟨resampler, rate, rfl, rfl, converts⟩
      | succ index =>
          obtain ⟨resampler, before, place, previous, converts⟩ := ih found
          refine ⟨resampler, before, place, ?_, converts⟩
          cases index with
          | zero =>
              cases previous
              rfl
          | succ index => exact previous

/-! ## Construction and appending -/

theorem reloadResampler_of_absent {index : Nat} {step : PipelineStep S} {before : Int}
    (absent : p.resamplers[index]? = some none) (found : p.pipelineSteps[index]? = some step)
    (previous : prevOutputSampleRate p index = some before) :
    reloadResampler lib p index =
      some { p with
        resamplers := p.resamplers.set index (newResampler lib before step.inputSampleRate) } := by
  simp only [reloadResampler, absent, found, previous, if_true]

theorem reloadResultResampler_eq (p : State S R) :
    reloadResultResampler lib p =
      { p with resultSampler := (reloadResultResampler lib p).resultSampler } := by
  have choice : ∀ (create : Bool) (resultSampler : Option (PipelineStep R)),
      (if create then { p with resultSampler } else p) =
        { p with
          resultSampler := (if create then { p with resultSampler } else p).resultSampler } := by
    intro create resultSampler
    cases create <;> rfl
  exact choice _ _

/-- A resampler that was made for the output is kept only if it is still the right one. -/
theorem converts_reloadResultResampler (lib : Library S R)
    (made : ∀ resultSampler, p.resultSampler = some resultSampler →
      resultSampler.outputSampleRate = p.outputSampleRate ∧
        resultSampler.inputSampleRate ≠ p.outputSampleRate) :
    Converts (reloadResultResampler lib p).resultSampler (lastOutputSampleRate p)
      p.outputSampleRate := by
  cases result : p.resultSampler with
  | none =>
      simp only [reloadResultResampler, result, if_true]
      exact converts_newResampler lib _ _
  | some resultSampler =>
      simp only [reloadResultResampler, result]
      split
      · exact converts_newResampler lib _ _
      · rename_i kept
        obtain ⟨output, different⟩ := made resultSampler result
        have input : resultSampler.inputSampleRate = lastOutputSampleRate p := by
          simp only [decide_eq_true_eq, not_or, not_and, not_not] at kept
          rcases Nat.eq_zero_or_pos p.pipelineSteps.length with empty | nonempty
          · rw [(kept.1 empty).1, lastOutputSampleRate, List.length_eq_zero_iff.mp empty]
            rfl
          · exact kept.2 nonempty
        rw [result]
        exact ⟨input ▸ different, input, output⟩

theorem Consistent.construct (inputSampleRate outputSampleRate : Int) :
    Consistent (construct lib inputSampleRate outputSampleRate) := by
  rw [AudioPipeline.construct]
  split
  · rw [reloadResultResampler_eq]
    exact ⟨.nil, converts_reloadResultResampler lib fun _ made => by cases made⟩
  · rename_i same
    exact ⟨.nil, not_not.mp same⟩

theorem prevOutputSampleRate_length (p : State S R) (step : PipelineStep S)
    (resamplers : List (Option (PipelineStep R))) :
    prevOutputSampleRate
        { p with pipelineSteps := p.pipelineSteps ++ [step], resamplers := resamplers }
        p.pipelineSteps.length =
      some (lastOutputSampleRate p) := by
  rw [lastOutputSampleRate]
  cases steps : p.pipelineSteps.reverse with
  | nil =>
      rw [List.reverse_eq_nil_iff.mp steps]
      rfl
  | cons last earlier =>
      have split : p.pipelineSteps = earlier.reverse ++ [last] := by
        rw [← List.reverse_reverse p.pipelineSteps, steps, List.reverse_cons]
      simp [split, prevOutputSampleRate]

/-- Appending succeeds, and only changes what it should. -/
theorem Consistent.appendPipelineStep (h : Consistent p) (lib : Library S R)
    (step : PipelineStep S) :
    ∃ after, appendPipelineStep lib p step = some after ∧ Consistent after ∧
      after.inputSampleRate = p.inputSampleRate ∧ after.outputSampleRate = p.outputSampleRate ∧
      after.pipelineSteps = p.pipelineSteps ++ [step] := by
  let resampler := newResampler lib (lastOutputSampleRate p) step.inputSampleRate
  let appended : State S R := { p with
    pipelineSteps := p.pipelineSteps ++ [step]
    resamplers := p.resamplers ++ [resampler] }
  have length : p.resamplers.length = p.pipelineSteps.length := h.chain.length
  have reloaded : AudioPipeline.appendPipelineStep lib p step =
      some (reloadResultResampler lib appended) := by
    have place : (p.resamplers ++ [none])[p.pipelineSteps.length]? = some none := by
      rw [← length, List.getElem?_concat_length]
    have set : (p.resamplers ++ [none]).set p.pipelineSteps.length resampler =
        p.resamplers ++ [resampler] := by
      rw [← length, List.set_append_right _ _ (Nat.le_refl _), Nat.sub_self]
      rfl
    have index : (p.pipelineSteps ++ [step]).length - 1 = p.pipelineSteps.length := by simp
    dsimp only [AudioPipeline.appendPipelineStep]
    rw [index, reloadResampler_of_absent place List.getElem?_concat_length
      (prevOutputSampleRate_length p step _)]
    simp only [Option.map_some, set, appended, resampler]
  have last : lastOutputSampleRate appended = step.outputSampleRate := by
    simp [lastOutputSampleRate, appended]
  have converts := converts_reloadResultResampler (p := appended) lib <| by
    intro resultSampler made
    have result := h.result
    have same : p.resultSampler = some resultSampler := made
    rw [same] at result
    exact ⟨result.2.2, result.2.1 ▸ result.1⟩
  refine ⟨_, reloaded, ?_⟩
  rw [reloadResultResampler_eq]
  refine ⟨⟨?_, converts⟩, rfl, rfl, rfl⟩
  have chain := h.chain.append (converts_newResampler lib _ step.inputSampleRate)
  exact last.symm ▸ chain

/-! ## Execution -/

/-- What the resamplers and steps declare, in the order in which they are reached. -/
def declaredRates : List (PipelineStep S) → List (Option (PipelineStep R)) → List Int
  | step :: steps, resampler :: resamplers =>
      (resampler.map PipelineStep.inputSampleRate).toList ++
        step.inputSampleRate :: declaredRates steps resamplers
  | _, _ => []

/-- Everything was given audio at the rate it declares. -/
def asDeclared (rates : List Int) : List Given := rates.map fun rate => ⟨rate, some rate⟩

theorem PipelineStep.execute_rate {T : Type} (run : T → List Int16 → List Int16 × T)
    (step : PipelineStep T) {input : Audio} (given : input.rate = some step.inputSampleRate) :
    (step.execute run input).1.rate = some step.outputSampleRate :=
  if_pos given

theorem resample_of_converts (lib : Library S R) {resampler : Option (PipelineStep R)}
    {before after : Int} (converts : Converts resampler before after) {input : Audio}
    (given : input.rate = some before) :
    (resample lib resampler input).output.rate = some after ∧
      Converts (resample lib resampler input).resampler before after ∧
      (resample lib resampler input).given =
        asDeclared (resampler.map PipelineStep.inputSampleRate).toList := by
  cases resampler with
  | none =>
      cases converts
      exact ⟨given, rfl, rfl⟩
  | some resampler =>
      obtain ⟨different, declared, output⟩ := converts
      have atInput : input.rate = some resampler.inputSampleRate := by rw [given, declared]
      refine ⟨?_, ⟨different, declared, output⟩, ?_⟩
      · rw [← output]
        exact resampler.execute_rate lib.srcExecute atInput
      · simp [resample, asDeclared, atInput]

/-- Over a chain of rates no assertion fails, and the chain stays as it is. -/
theorem executeSteps_of_chain (lib : Library S R) (chain : Chain rate steps resamplers final)
    {input : Audio} (given : input.rate = some rate) :
    ∃ run, executeSteps lib steps resamplers input = some run ∧ run.output.rate = some final ∧
      run.given = asDeclared (declaredRates steps resamplers) ∧
      Chain rate run.pipelineSteps run.resamplers final := by
  induction chain generalizing input with
  | nil => exact ⟨⟨input, [], [], []⟩, rfl, given, rfl, .nil⟩
  | @cons rate final step steps resampler resamplers converts chain ih =>
      obtain ⟨rateOut, convertsOut, givenOut⟩ := resample_of_converts lib converts given
      have stepped := step.execute_rate lib.stepExecute rateOut
      obtain ⟨run, executed, output, record, kept⟩ := ih stepped
      have asserted : (resampler.all fun resampler =>
          resampler.outputSampleRate = step.inputSampleRate) = true := by
        cases resampler with
        | none => rfl
        | some resampler => exact decide_eq_true converts.2.2
      have loop : executeSteps lib (step :: steps) (resampler :: resamplers) input =
          some
            { output := run.output
              pipelineSteps :=
                (step.execute lib.stepExecute (resample lib resampler input).output).2 ::
                  run.pipelineSteps
              resamplers := (resample lib resampler input).resampler :: run.resamplers
              given := (resample lib resampler input).given ++
                ⟨step.inputSampleRate, (resample lib resampler input).output.rate⟩ ::
                  run.given } := by
        simp only [executeSteps, asserted, if_true, executed, Option.map_some]
      refine ⟨_, loop, output, ?_, .cons convertsOut kept⟩
      simp only [givenOut, record, rateOut, asDeclared, declaredRates, List.map_append,
        List.map_cons]

theorem Consistent.execute (h : Consistent p) (lib : Library S R) (inputSamples : List Int16) :
    ∃ output given after, execute lib p inputSamples = some (output, given, after) ∧
      output.rate = some p.outputSampleRate ∧
      given = asDeclared (declaredRates p.pipelineSteps p.resamplers ++
        (p.resultSampler.map PipelineStep.inputSampleRate).toList) ∧
      Consistent after ∧ after.inputSampleRate = p.inputSampleRate ∧
      after.outputSampleRate = p.outputSampleRate := by
  let input : Audio := ⟨inputSamples, some p.inputSampleRate⟩
  obtain ⟨run, executed, rateOut, record, kept⟩ :=
    executeSteps_of_chain lib h.chain (rfl : input.rate = some p.inputSampleRate)
  obtain ⟨output, converts, given⟩ := resample_of_converts lib h.result rateOut
  let after : State S R := { p with
    pipelineSteps := run.pipelineSteps
    resamplers := run.resamplers
    resultSampler := (resample lib p.resultSampler run.output).resampler }
  have last : lastOutputSampleRate after = lastOutputSampleRate p := kept.last.symm
  refine ⟨_, run.given ++ (resample lib p.resultSampler run.output).given, after, ?_, output, ?_,
    ⟨?_, ?_⟩, rfl, rfl⟩
  · simp only [AudioPipeline.execute, executed, input, after]
  · rw [record, given, asDeclared, asDeclared, asDeclared, List.map_append]
  · exact last.symm ▸ kept
  · exact last.symm ▸ converts

theorem Converts.map {resampler : Option (PipelineStep R)} {before after : Int}
    (converts : Converts resampler before after) (f : PipelineStep R → PipelineStep R)
    (input : ∀ step, (f step).inputSampleRate = step.inputSampleRate)
    (output : ∀ step, (f step).outputSampleRate = step.outputSampleRate) :
    Converts (resampler.map f) before after := by
  cases resampler with
  | none => exact converts
  | some resampler =>
      obtain ⟨different, before, after⟩ := converts
      exact ⟨different, (input resampler).trans before, (output resampler).trans after⟩

theorem Consistent.reset (h : Consistent p) (lib : Library S R) : Consistent (reset lib p) := by
  have chained : ∀ {rate final steps resamplers}, Chain rate steps resamplers final →
      Chain rate (steps.map fun step => { step with state := lib.stepReset step.state })
        (resamplers.map (Option.map fun resampleStep : PipelineStep R =>
          { resampleStep with state := lib.srcReset resampleStep.state })) final := by
    intro rate final steps resamplers chain
    induction chain with
    | nil => exact .nil
    | cons converts _ ih => exact .cons (converts.map _ (fun _ => rfl) fun _ => rfl) ih
  have chain := chained h.chain
  have last : lastOutputSampleRate (AudioPipeline.reset lib p) = lastOutputSampleRate p :=
    chain.last.symm
  exact ⟨last.symm ▸ chain, last.symm ▸ h.result.map _ (fun _ => rfl) fun _ => rfl⟩

/-! ## Runs -/

/-- A pipeline with these rates that was built, extended and used in any way. -/
def Built (lib : Library S R) (inputSampleRate outputSampleRate : Int) (p : State S R) : Prop :=
  Reachable (next lib) (fun _ _ => True) (construct lib inputSampleRate outputSampleRate) p

theorem Built.consistent {inputSampleRate outputSampleRate : Int}
    (built : Built lib inputSampleRate outputSampleRate p) :
    Consistent p ∧ p.inputSampleRate = inputSampleRate ∧
      p.outputSampleRate = outputSampleRate := by
  refine Reachable.invariant
    (fun p : State S R => Consistent p ∧ p.inputSampleRate = inputSampleRate ∧
      p.outputSampleRate = outputSampleRate) ?_ ?_ built
  · refine ⟨Consistent.construct _ _, ?_⟩
    rw [construct]
    split
    · rw [reloadResultResampler_eq]
      exact ⟨rfl, rfl⟩
    · exact ⟨rfl, rfl⟩
  · intro before action after property _ taken
    obtain ⟨consistent, input, output⟩ := property
    cases action with
    | appendPipelineStep step =>
        obtain ⟨appended, succeeded, kept, inputKept, outputKept, -⟩ :=
          consistent.appendPipelineStep lib step
        cases succeeded.symm.trans taken
        exact ⟨kept, inputKept.trans input, outputKept.trans output⟩
    | execute inputSamples =>
        obtain ⟨_, _, executed, succeeded, -, -, kept, inputKept, outputKept⟩ :=
          consistent.execute lib inputSamples
        simp only [next, succeeded, Option.map_some, Option.some.injEq] at taken
        subst taken
        exact ⟨kept, inputKept.trans input, outputKept.trans output⟩
    | reset =>
        cases taken
        exact ⟨consistent.reset lib, input, output⟩

/-- Resamplers are exactly where two rates differ, and convert between these. Appending succeeds; so
does execution, in which all audio is at the rate declared for it. -/
theorem rates_agree {inputSampleRate outputSampleRate : Int}
    (built : Built lib inputSampleRate outputSampleRate p) :
    (p.resamplers.length = p.pipelineSteps.length ∧
      (∀ index step, p.pipelineSteps[index]? = some step →
        ∃ resampler before, p.resamplers[index]? = some resampler ∧
          prevOutputSampleRate p index = some before ∧
          Converts resampler before step.inputSampleRate) ∧
      Converts p.resultSampler (lastOutputSampleRate p) outputSampleRate ∧
      p.inputSampleRate = inputSampleRate) ∧
    (∀ step, ∃ after, appendPipelineStep lib p step = some after ∧
      after.pipelineSteps = p.pipelineSteps ++ [step]) ∧
    ∀ inputSamples, ∃ output given after, execute lib p inputSamples = some (output, given, after) ∧
      output.rate = some outputSampleRate ∧
      given = asDeclared (declaredRates p.pipelineSteps p.resamplers ++
        (p.resultSampler.map PipelineStep.inputSampleRate).toList) := by
  obtain ⟨consistent, rfl, rfl⟩ := built.consistent
  refine ⟨⟨consistent.chain.length, ?_, consistent.result, rfl⟩, ?_, ?_⟩
  · intro index step found
    obtain ⟨resampler, before, place, previous, converts⟩ := consistent.chain.converts found
    refine ⟨resampler, before, place, ?_, converts⟩
    cases index with
    | zero => exact previous
    | succ index => exact previous
  · intro step
    obtain ⟨after, succeeded, -, -, -, steps⟩ := consistent.appendPipelineStep lib step
    exact ⟨after, succeeded, steps⟩
  · intro inputSamples
    obtain ⟨output, given, after, succeeded, rate, record, -⟩ :=
      consistent.execute lib inputSamples
    exact ⟨output, given, after, succeeded, rate, record⟩

/-- Steps that pass their samples on. -/
def passThrough : Library Unit Unit where
  stepExecute _ samples := (samples, ())
  stepReset _ := ()
  srcNew _ _ := ()
  srcExecute _ samples := (samples, ())
  srcReset _ := ()

/-- From 8 to 48 kHz through steps at 8, 16 and 48 kHz: the resampler at the output is replaced
with each step, and not needed any more behind the last. -/
theorem rates_agree_of_three_steps :
    ∃ p : State Unit Unit, Built passThrough 8000 48000 p ∧
      p.resamplers = [none, some ⟨8000, 16000, ()⟩, some ⟨16000, 48000, ()⟩] ∧
      p.resultSampler = none ∧
      ∀ inputSamples, ∃ output given after,
        execute passThrough p inputSamples = some (output, given, after) ∧
        output.rate = some 48000 ∧
        given = asDeclared (declaredRates p.pipelineSteps p.resamplers ++
          (p.resultSampler.map PipelineStep.inputSampleRate).toList) := by
  let steps : List (PipelineStep Unit) :=
    [⟨8000, 8000, ()⟩, ⟨16000, 16000, ()⟩, ⟨48000, 48000, ()⟩]
  let p : State Unit Unit :=
    ⟨8000, 48000, steps, [none, some ⟨8000, 16000, ()⟩, some ⟨16000, 48000, ()⟩], none⟩
  have built : Built passThrough 8000 48000 p :=
    Reachable.start.of_runActions (steps.map .appendPipelineStep) rfl
  exact ⟨p, built, rfl, rfl, (rates_agree built).2.2⟩

end FreeDV.Pipeline.AudioPipeline
