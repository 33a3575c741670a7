import Mathlib.Logic.Basic

/-!
# Machines that answer

A deterministic machine takes an input, gives an output and goes on in a new
state. Two machines related by a simulation give the same outputs as long as
each step meets a condition; where the outputs differ at a step that does not,
the condition is exact.
-/

set_option autoImplicit false

namespace FreeDV.Lib

variable {σ τ ι ο : Type*}

/-- Each input is allowed in the state in which it arrives. -/
def AllSteps (next : σ → ι → σ) (allowed : σ → ι → Prop) : σ → List ι → Prop
  | _, [] => True
  | state, input :: rest => allowed state input ∧ AllSteps next allowed (next state input) rest

/-- What a machine answers to a list of inputs. -/
def outputs (step : σ → ι → ο × σ) : σ → List ι → List ο
  | _, [] => []
  | state, input :: rest => (step state input).1 :: outputs step (step state input).2 rest

variable {next : σ → ι → σ} {allowed : σ → ι → Prop}

theorem AllSteps.append_iff (state : σ) (first second : List ι) :
    AllSteps next allowed state (first ++ second) ↔
      AllSteps next allowed state first ∧
        AllSteps next allowed (first.foldl next state) second := by
  induction first generalizing state with
  | nil => simp [AllSteps]
  | cons input rest ih => simp only [List.cons_append, AllSteps, List.foldl_cons, ih, and_assoc]

/-- Invariant rule for a run whose steps are all allowed. -/
theorem AllSteps.invariant (property : σ → Prop)
    (preserved : ∀ state input, property state → allowed state input →
      property (next state input))
    {state : σ} {inputs : List ι} (run : AllSteps next allowed state inputs)
    (start : property state) : property (inputs.foldl next state) := by
  induction inputs generalizing state with
  | nil => exact start
  | cons input rest ih => exact ih run.2 (preserved state input start run.1)

/-- A property that each step keeps exactly if it is allowed. -/
theorem foldl_iff_allSteps (property : σ → Prop)
    (exact : ∀ state input, property (next state input) ↔ property state ∧ allowed state input)
    (state : σ) (inputs : List ι) :
    property (inputs.foldl next state) ↔ property state ∧ AllSteps next allowed state inputs := by
  induction inputs generalizing state with
  | nil => simp [AllSteps]
  | cons input rest ih => rw [List.foldl_cons, ih, exact, AllSteps, and_assoc]

variable {step : σ → ι → ο × σ} {step' : τ → ι → ο × τ}

/-- A simulation whose steps agree exactly when they are allowed. -/
theorem outputs_eq_iff (related : σ → τ → Prop)
    (agree : ∀ state state' input, related state state' → allowed state input →
      (step state input).1 = (step' state' input).1 ∧
        related (step state input).2 (step' state' input).2)
    (differ : ∀ state state' input, related state state' → ¬ allowed state input →
      (step state input).1 ≠ (step' state' input).1)
    {state : σ} {state' : τ} (start : related state state') (inputs : List ι) :
    outputs step state inputs = outputs step' state' inputs ↔
      AllSteps (fun state input => (step state input).2) allowed state inputs := by
  induction inputs generalizing state state' with
  | nil => simp [outputs, AllSteps]
  | cons input rest ih =>
      simp only [outputs, AllSteps, List.cons.injEq]
      by_cases permitted : allowed state input
      · obtain ⟨same, further⟩ := agree state state' input start permitted
        simp only [same, permitted, true_and]
        exact ih further
      · simp only [differ state state' input start permitted, permitted, false_and]

/-! ## States that cannot be told apart -/

variable {κ μ : Type*} {seen : ι → κ} {shown : ο → μ} {state state' other : σ} {input input' : ι}

/-- From either state, inputs of which the same is seen give outputs of which the same is shown. -/
def Alike (seen : ι → κ) (shown : ο → μ) (step : σ → ι → ο × σ) (state state' : σ) : Prop :=
  ∀ inputs inputs' : List ι, inputs.map seen = inputs'.map seen →
    (outputs step state inputs).map shown = (outputs step state' inputs').map shown

theorem Alike.answer (alike : Alike seen shown step state state')
    (same : seen input = seen input') :
    shown (step state input).1 = shown (step state' input').1 := by
  have first := alike [input] [input'] (congrArg (fun item => [item]) same)
  exact (List.cons.inj first).1

theorem Alike.behind (alike : Alike seen shown step state state')
    (same : seen input = seen input') :
    Alike seen shown step (step state input).2 (step state' input').2 := by
  intro inputs inputs' rest
  have all := alike (input :: inputs) (input' :: inputs') (by rw [List.map_cons, same, rest]; rfl)
  exact (List.cons.inj all).2

/-- A machine whose answers do not depend on its state. -/
theorem Alike.of_answers
    (answers : ∀ state state' input input', seen input = seen input' →
      shown (step state input).1 = shown (step state' input').1) (state state' : σ) :
    Alike seen shown step state state' := by
  intro inputs
  induction inputs generalizing state state' with
  | nil =>
      intro inputs' same
      cases inputs' with
      | nil => rfl
      | cons input' rest' => cases same
  | cons input rest ih =>
      intro inputs' same
      cases inputs' with
      | nil => cases same
      | cons input' rest' =>
          obtain ⟨first, later⟩ := List.cons.inj same
          rw [outputs, outputs, List.map_cons, List.map_cons, ih _ _ rest' later,
            answers state state' input input' first]

theorem Alike.symm (alike : Alike seen shown step state state') :
    Alike seen shown step state' state :=
  fun inputs inputs' same => (alike inputs' inputs same.symm).symm

theorem Alike.trans (first : Alike seen shown step state state')
    (second : Alike seen shown step state' other) : Alike seen shown step state other :=
  fun inputs inputs' same => (first inputs inputs rfl).trans (second inputs inputs' same)

/-- States that give the same outputs are alike to whoever sees less, if one of them is alike to
itself. -/
theorem Alike.coarsen (same : Alike id id step state state')
    (alike : Alike seen shown step state' state') : Alike seen shown step state state' := by
  intro inputs inputs' agree
  have equal := same inputs inputs rfl
  rw [List.map_id, List.map_id] at equal
  rw [equal]
  exact alike inputs inputs' agree

end FreeDV.Lib
