import Mathlib.Order.Basic

/-!
# Transition systems

Components with several parties are given by a step function `next` on a whole
state: an action of one party either is not enabled or leads to one successor.
Assumptions about the environment are a predicate on the steps of a run.
-/

set_option autoImplicit false

namespace FreeDV.Lib

variable {σ α : Type*} {next : σ → α → Option σ} {allowed : σ → α → Prop} {start : σ}

/-- States reached from `start` by runs all of whose steps are `allowed`. -/
inductive Reachable (next : σ → α → Option σ) (allowed : σ → α → Prop) (start : σ) : σ → Prop
  | start : Reachable next allowed start start
  | step {before after : σ} (action : α) :
      Reachable next allowed start before → allowed before action →
      next before action = some after → Reachable next allowed start after

/-- Invariant rule: what holds at the start and is kept by every allowed step always holds. -/
theorem Reachable.invariant (property : σ → Prop) (initial : property start)
    (preserved : ∀ before action after, property before → allowed before action →
      next before action = some after → property after)
    {state : σ} (reachable : Reachable next allowed start state) : property state := by
  induction reachable with
  | start => exact initial
  | step action _ permitted taken ih => exact preserved _ action _ ih permitted taken

theorem Reachable.trans {middle final : σ} (first : Reachable next allowed start middle)
    (second : Reachable next allowed middle final) : Reachable next allowed start final := by
  induction second with
  | start => exact first
  | step action _ permitted taken ih => exact ih.step action permitted taken

theorem Reachable.mono {weaker : σ → α → Prop}
    (implied : ∀ state action, allowed state action → weaker state action) {state : σ}
    (reachable : Reachable next allowed start state) : Reachable next weaker start state := by
  induction reachable with
  | start => exact .start
  | step action _ permitted taken ih => exact ih.step action (implied _ _ permitted) taken

/-- Executes a list of actions, if each of them is allowed and enabled in turn. -/
def runActions (next : σ → α → Option σ) (allowed : σ → α → Prop)
    [∀ state action, Decidable (allowed state action)] : σ → List α → Option σ
  | state, [] => some state
  | state, action :: rest =>
      if allowed state action then
        match next state action with
        | none => none
        | some state => runActions next allowed state rest
      else none

section Runs

variable [∀ state action, Decidable (allowed state action)]

theorem runActions_cons {state final : σ} {action : α} {rest : List α} :
    runActions next allowed state (action :: rest) = some final ↔
      allowed state action ∧
        ∃ middle, next state action = some middle ∧
          runActions next allowed middle rest = some final := by
  rw [runActions]
  split
  · rename_i permitted
    cases taken : next state action with
    | none => simp
    | some middle => simp [permitted]
  · rename_i refused
    simp [refused]

theorem Reachable.of_runActions (actions : List α) {middle final : σ}
    (reachable : Reachable next allowed start middle)
    (executed : runActions next allowed middle actions = some final) :
    Reachable next allowed start final := by
  induction actions generalizing middle with
  | nil =>
      cases executed
      exact reachable
  | cons action rest ih =>
      obtain ⟨permitted, state, taken, further⟩ := runActions_cons.mp executed
      exact ih (reachable.step action permitted taken) further

/-- Two runs with the same actions stay related if each step keeps them so. -/
theorem runActions_related (related : σ → σ → Prop)
    (preserved : ∀ {state state' after after'} (action : α), related state state' →
      allowed state action → allowed state' action → next state action = some after →
      next state' action = some after' → related after after')
    {state state' final final' : σ} {actions : List α} (alike : related state state')
    (first : runActions next allowed state actions = some final)
    (second : runActions next allowed state' actions = some final') : related final final' := by
  induction actions generalizing state state' with
  | nil =>
      cases first
      cases second
      exact alike
  | cons action rest ih =>
      obtain ⟨permitted, middle, taken, further⟩ := runActions_cons.mp first
      obtain ⟨permitted', middle', taken', further'⟩ := runActions_cons.mp second
      exact ih (preserved action alike permitted permitted' taken taken') further further'

end Runs

end FreeDV.Lib
