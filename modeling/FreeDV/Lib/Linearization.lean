import Mathlib.Logic.Function.Basic

/-!
# Histories and atomic objects

Clients of a shared object see calls and answers, in the order in which they
happen. Of an atomic object each operation takes effect in one step between its
call and its answer. An implementation is linearizable if every history of it is
a history of the atomic object, which a forward simulation shows.
-/

set_option autoImplicit false

namespace FreeDV.Lib

variable {σ τ α β ε : Type*}

/-! ## Histories -/

/-- Runs of a system whose steps say what is seen of them. -/
inductive Traces (next : σ → α → Option (σ × List ε)) (start : σ) : List ε → σ → Prop
  | start : Traces next start [] start
  | step {history : List ε} {before after : σ} {events : List ε} (action : α) :
      Traces next start history before → next before action = some (after, events) →
      Traces next start (history ++ events) after

section Simulation

variable {next : σ → α → Option (σ × List ε)} {next' : τ → β → Option (τ × List ε)}
  {start : σ} {start' : τ}

theorem Traces.single {before after : σ} {events : List ε} (action : α)
    (taken : next before action = some (after, events)) : Traces next before events after := by
  have run := Traces.start.step action taken
  rwa [List.nil_append] at run

theorem Traces.trans {middle final : σ} {first second : List ε}
    (before : Traces next start first middle) (behind : Traces next middle second final) :
    Traces next start (first ++ second) final := by
  induction behind with
  | start => rwa [List.append_nil]
  | step action _ taken ih =>
      rw [← List.append_assoc]
      exact ih.step action taken

/-- Forward simulation: if each step is matched by a run of which the same is seen, then each
history is a history of the other system. -/
theorem Traces.simulated (related : σ → τ → Prop) (initially : related start start')
    (matched : ∀ before before' action after events, related before before' →
      next before action = some (after, events) →
      ∃ after', Traces next' before' events after' ∧ related after after')
    {history : List ε} {state : σ} (run : Traces next start history state) :
    ∃ state', Traces next' start' history state' ∧ related state state' := by
  induction run with
  | start => exact ⟨start', .start, initially⟩
  | step action _ taken ih =>
      obtain ⟨middle, before, relatedBefore⟩ := ih
      obtain ⟨after, behind, relatedAfter⟩ := matched _ middle action _ _ relatedBefore taken
      exact ⟨after, before.trans behind, relatedAfter⟩

/-- Invariant rule for a client that goes by the history of a system. -/
theorem Traces.followed {μ : Type*} {follow : μ → ε → Option μ} (holds : σ → μ → Prop) {first : μ}
    (initially : holds start first)
    (preserved : ∀ before middle action after events last, holds before middle →
      next before action = some (after, events) → events.foldlM follow middle = some last →
      holds after last)
    {history : List ε} {state : σ} (run : Traces next start history state) {last : μ}
    (followed : history.foldlM follow first = some last) : holds state last := by
  induction run generalizing last with
  | start =>
      cases followed
      exact initially
  | step action _ taken ih =>
      rw [List.foldlM_append] at followed
      obtain ⟨middle, before, behind⟩ := Option.bind_eq_some_iff.mp followed
      exact preserved _ middle action _ _ last (ih before) taken behind

/-- Executes a list of actions, if each of them is enabled in turn. -/
def runEvents (next : σ → α → Option (σ × List ε)) : σ → List α → Option (List ε × σ)
  | state, [] => some ([], state)
  | state, action :: rest =>
      match next state action with
      | none => none
      | some (middle, events) =>
          (runEvents next middle rest).map fun (history, final) => (events ++ history, final)

theorem Traces.of_runEvents (actions : List α) {state final : σ} {history : List ε}
    (executed : runEvents next state actions = some (history, final)) :
    Traces next state history final := by
  induction actions generalizing state history with
  | nil =>
      cases executed
      exact .start
  | cons action rest ih =>
      rw [runEvents] at executed
      split at executed
      · cases executed
      · rename_i middle events taken
        obtain ⟨⟨later, last⟩, further, same⟩ := Option.map_eq_some_iff.mp executed
        cases same
        exact (Traces.single action taken).trans (ih further)

end Simulation

/-! ## Atomic objects -/

section Atomic

variable {π κ ρ : Type*}

inductive Event (π κ ρ : Type*) where
  | call (party : π) (call : κ)
  | answer (party : π) (result : ρ)
deriving DecidableEq

/-- A party makes one call at a time. -/
inductive Pending (κ ρ : Type*) where
  | idle
  | called (call : κ)
  | done (result : ρ)

/-- The object, and how far the call of each party is. -/
structure Atomic (τ π κ ρ : Type*) where
  object : τ
  pending : π → Pending κ ρ

inductive AtomicAction (π κ : Type*) where
  | call (party : π) (call : κ)
  | takeEffect (party : π)
  | answer (party : π)

def Atomic.initial (object : τ) : Atomic τ π κ ρ := ⟨object, fun _ => .idle⟩

variable [DecidableEq π]

/-- An operation of the object takes effect at once, at any time while its call is pending. -/
def Atomic.next (operation : τ → κ → ρ × τ) (atomic : Atomic τ π κ ρ) :
    AtomicAction π κ → Option (Atomic τ π κ ρ × List (Event π κ ρ))
  | .call party call =>
      match atomic.pending party with
      | .idle =>
          some (⟨atomic.object, Function.update atomic.pending party (.called call)⟩,
            [.call party call])
      | _ => none
  | .takeEffect party =>
      match atomic.pending party with
      | .called call =>
          let (result, object) := operation atomic.object call
          some (⟨object, Function.update atomic.pending party (.done result)⟩, [])
      | _ => none
  | .answer party =>
      match atomic.pending party with
      | .done result =>
          some (⟨atomic.object, Function.update atomic.pending party .idle⟩,
            [.answer party result])
      | _ => none

variable {operation : τ → κ → ρ × τ} {atomic : Atomic τ π κ ρ} {party : π}

theorem Atomic.runs_call (call : κ) (idle : atomic.pending party = .idle) :
    Traces (Atomic.next operation) atomic [.call party call]
      ⟨atomic.object, Function.update atomic.pending party (.called call)⟩ := by
  apply Traces.single (AtomicAction.call party call)
  simp only [Atomic.next, idle]

variable (operation) in
theorem Atomic.runs_effect {call : κ} (called : atomic.pending party = .called call) :
    Traces (Atomic.next operation) atomic []
      ⟨(operation atomic.object call).2,
        Function.update atomic.pending party (.done (operation atomic.object call).1)⟩ := by
  apply Traces.single (AtomicAction.takeEffect party)
  simp only [Atomic.next, called]

theorem Atomic.runs_answer {result : ρ} (done : atomic.pending party = .done result) :
    Traces (Atomic.next operation) atomic [.answer party result]
      ⟨atomic.object, Function.update atomic.pending party .idle⟩ := by
  apply Traces.single (AtomicAction.answer party)
  simp only [Atomic.next, done]

/-- An operation whose last step is the one that takes effect. -/
theorem Atomic.runs_return {call : κ} (called : atomic.pending party = .called call) :
    Traces (Atomic.next operation) atomic [.answer party (operation atomic.object call).1]
      ⟨(operation atomic.object call).2, Function.update atomic.pending party .idle⟩ := by
  have effect := Atomic.runs_effect operation called
  have answer := effect.trans (Atomic.runs_answer (Function.update_self party _ _))
  rwa [Function.update_idem, List.nil_append] at answer

end Atomic

end FreeDV.Lib
