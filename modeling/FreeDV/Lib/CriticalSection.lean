import FreeDV.Lib.Linearization
import FreeDV.Lib.Transition

/-!
# Critical sections

An operation on shared data is a program of several steps, which threads run
inside a lock. Since only the holder of the lock touches the data, the whole
program takes effect at once for all others.
-/

set_option autoImplicit false

namespace FreeDV.Lib

variable {τ π κ lam ρ : Type*}

/-- A program over the data, with its own variables. It goes on or gives its result. -/
structure CriticalSection (τ κ lam ρ : Type*) where
  start : κ → lam
  step : lam → τ → (lam × τ) ⊕ ρ

namespace CriticalSection

def next (body : CriticalSection τ κ lam ρ) (point : lam × τ) (_ : Unit) : Option (lam × τ) :=
  match body.step point.1 point.2 with
  | .inl later => some later
  | .inr _ => none

/-- What can be reached from the start of a call, alone with the data. -/
def Reaches (body : CriticalSection τ κ lam ρ) (call : κ) (object : τ) (point : lam × τ) : Prop :=
  Reachable body.next (fun _ _ => True) (body.start call, object) point

/-- Run alone, the program computes the operation. -/
def Implements (body : CriticalSection τ κ lam ρ) (operation : τ → κ → ρ × τ) : Prop :=
  ∀ object call locals data result, body.Reaches call object (locals, data) →
    body.step locals data = .inr result → operation object call = (result, data)

theorem Reaches.step {body : CriticalSection τ κ lam ρ} {call : κ} {object data data' : τ}
    {locals locals' : lam} (reached : body.Reaches call object (locals, data))
    (goes : body.step locals data = .inl (locals', data')) :
    body.Reaches call object (locals', data') := by
  apply Reachable.step () reached trivial
  simp only [next, goes]

end CriticalSection

/-! ## A lock around the data -/

inductive Phase (κ lam ρ : Type*) where
  | idle
  | waiting (call : κ)
  | inside (call : κ) (locals : lam)
  | leaving (call : κ) (result : ρ)
  | returning (result : ρ)

namespace Phase

def holds : Phase κ lam ρ → Bool
  | .inside _ _ => true
  | .leaving _ _ => true
  | _ => false

def pending : Phase κ lam ρ → Pending κ ρ
  | .idle => .idle
  | .waiting call => .called call
  | .inside call _ => .called call
  | .leaving call _ => .called call
  | .returning result => .done result

end Phase

/-- The data, the thread that holds the lock, and how far the call of each thread is. -/
structure Guarded (τ π κ lam ρ : Type*) where
  data : τ
  holder : Option π
  phase : π → Phase κ lam ρ

inductive GuardedAction (π κ : Type*) where
  | call (party : π) (call : κ)
  | acquire (party : π)
  | step (party : π)
  | release (party : π)
  | answer (party : π)

namespace Guarded

def initial (data : τ) : Guarded τ π κ lam ρ := ⟨data, none, fun _ => .idle⟩

/-- The program of the holder is on its way from the object as it is for the others. -/
structure Refines (body : CriticalSection τ κ lam ρ) (operation : τ → κ → ρ × τ)
    (g : Guarded τ π κ lam ρ) (atomic : Atomic τ π κ ρ) : Prop where
  pending : ∀ party, atomic.pending party = (g.phase party).pending
  holder : ∀ party, (g.phase party).holds = true ↔ g.holder = some party
  free : g.holder = none → atomic.object = g.data
  inside : ∀ party call locals, g.phase party = .inside call locals →
    body.Reaches call atomic.object (locals, g.data)
  leaving : ∀ party call result, g.phase party = .leaving call result →
    operation atomic.object call = (result, g.data)

variable {body : CriticalSection τ κ lam ρ} {operation : τ → κ → ρ × τ}
  {g g' : Guarded τ π κ lam ρ} {atomic : Atomic τ π κ ρ} {party : π}

theorem Refines.initial (object : τ) :
    Refines body operation (Guarded.initial object) (Atomic.initial (π := π) object) where
  pending _ := rfl
  holder _ := by
    constructor
    · intro holds
      cases holds
    · intro held
      cases held
  free _ := rfl
  inside _ _ _ here := by cases here
  leaving _ _ _ here := by cases here

theorem Refines.exclusive (h : Refines body operation g atomic) {other : π}
    (first : (g.phase party).holds = true) (second : (g.phase other).holds = true) :
    party = other := by
  have holder := (h.holder party).mp first
  rw [(h.holder other).mp second] at holder
  exact (Option.some.inj holder).symm

theorem Refines.others_outside (h : Refines body operation g atomic)
    (holds : (g.phase party).holds = true) {other : π} (different : other ≠ party) :
    (g.phase other).holds = false := by
  cases inside : (g.phase other).holds with
  | false => rfl
  | true => exact absurd (h.exclusive inside holds) different

theorem Refines.all_outside (h : Refines body operation g atomic) (free : g.holder = none)
    (other : π) : (g.phase other).holds = false := by
  cases inside : (g.phase other).holds with
  | false => rfl
  | true =>
      have holder := (h.holder other).mp inside
      rw [free] at holder
      cases holder

variable [DecidableEq π]

def setPhase (g : Guarded τ π κ lam ρ) (party : π) (phase : Phase κ lam ρ) :
    Guarded τ π κ lam ρ :=
  { g with phase := Function.update g.phase party phase }

def next (body : CriticalSection τ κ lam ρ) (g : Guarded τ π κ lam ρ) :
    GuardedAction π κ → Option (Guarded τ π κ lam ρ × List (Event π κ ρ))
  | .call party call =>
      match g.phase party with
      | .idle => some (g.setPhase party (.waiting call), [.call party call])
      | _ => none
  | .acquire party =>
      match g.phase party, g.holder with
      | .waiting call, none =>
          some ({ g with holder := some party }.setPhase party (.inside call (body.start call)), [])
      | _, _ => none
  | .step party =>
      match g.phase party with
      | .inside call locals =>
          match body.step locals g.data with
          | .inl (locals, data) =>
              some ({ g with data := data }.setPhase party (.inside call locals), [])
          | .inr result => some (g.setPhase party (.leaving call result), [])
      | _ => none
  | .release party =>
      match g.phase party with
      | .leaving _ result =>
          some ({ g with holder := none }.setPhase party (.returning result), [])
      | _ => none
  | .answer party =>
      match g.phase party with
      | .returning result => some (g.setPhase party .idle, [.answer party result])
      | _ => none

/-- A thread moves outside the lock. -/
theorem Refines.outside (h : Refines body operation g atomic) {phase : Phase κ lam ρ}
    (before : (g.phase party).holds = false) (after : phase.holds = false) :
    Refines body operation (g.setPhase party phase)
      ⟨atomic.object, Function.update atomic.pending party phase.pending⟩ where
  pending other := by
    by_cases same : other = party
    · subst same
      simp only [setPhase, Function.update_self]
    · simp only [setPhase, Function.update_of_ne same, h.pending other]
  holder other := by
    by_cases same : other = party
    · subst same
      have holder := h.holder other
      rw [before] at holder
      simp only [setPhase, Function.update_self, after, holder]
    · simp only [setPhase, Function.update_of_ne same, h.holder other]
  free := h.free
  inside other call locals here := by
    by_cases same : other = party
    · subst same
      simp only [setPhase, Function.update_self] at here
      rw [here] at after
      cases after
    · simp only [setPhase, Function.update_of_ne same] at here
      exact h.inside other call locals here
  leaving other call result here := by
    by_cases same : other = party
    · subst same
      simp only [setPhase, Function.update_self] at here
      rw [here] at after
      cases after
    · simp only [setPhase, Function.update_of_ne same] at here
      exact h.leaving other call result here

/-- A thread moves, and nobody else is inside the lock. -/
theorem Refines.alone (h : Refines body operation g atomic) {phase : Phase κ lam ρ}
    {holder : Option π} {data : τ} {later : Atomic τ π κ ρ}
    (others : ∀ other, other ≠ party → (g.phase other).holds = false)
    (held : holder = if phase.holds then some party else none)
    (pending : later.pending = Function.update atomic.pending party phase.pending)
    (free : phase.holds = false → later.object = data)
    (inside : ∀ call locals, phase = .inside call locals →
      body.Reaches call later.object (locals, data))
    (leaving : ∀ call result, phase = .leaving call result →
      operation later.object call = (result, data)) :
    Refines body operation ⟨data, holder, Function.update g.phase party phase⟩ later where
  pending other := by
    rw [pending]
    by_cases same : other = party
    · subst same
      simp only [Function.update_self]
    · simp only [Function.update_of_ne same, h.pending other]
  holder other := by
    subst held
    by_cases same : other = party
    · subst same
      cases holds : phase.holds <;> simp [holds]
    · have outside := others other same
      have different : party ≠ other := fun equal => same equal.symm
      cases holds : phase.holds <;> simp [same, outside, different]
  free unheld := by
    cases holds : phase.holds with
    | false => exact free holds
    | true =>
        rw [if_pos holds] at held
        exact absurd (held.symm.trans unheld) (Option.some_ne_none party)
  inside other call locals here := by
    by_cases same : other = party
    · subst same
      simp only [Function.update_self] at here
      exact inside call locals here
    · simp only [Function.update_of_ne same] at here
      have outside := others other same
      rw [here] at outside
      cases outside
  leaving other call result here := by
    by_cases same : other = party
    · subst same
      simp only [Function.update_self] at here
      exact leaving call result here
    · simp only [Function.update_of_ne same] at here
      have outside := others other same
      rw [here] at outside
      cases outside

/-- The pending call is still the same. -/
theorem Refines.still_pending (h : Refines body operation g atomic) {phase : Phase κ lam ρ}
    (same : phase.pending = (g.phase party).pending) :
    atomic.pending = Function.update atomic.pending party phase.pending := by
  rw [same, ← h.pending party, Function.update_eq_self]

theorem Refines.acquire (h : Refines body operation g atomic) {call : κ}
    (waiting : g.phase party = .waiting call) (free : g.holder = none) :
    Refines body operation
      ({ g with holder := some party }.setPhase party (.inside call (body.start call))) atomic := by
  apply h.alone
  · intro other _
    exact h.all_outside free other
  · rfl
  · exact h.still_pending (by rw [waiting]; rfl)
  · intro outside
    cases outside
  · intro _ _ same
    cases same
    rw [h.free free]
    exact .start
  · intro _ _ same
    cases same

theorem Refines.goes_on (h : Refines body operation g atomic) {call : κ} {locals locals' : lam}
    {data : τ} (inside : g.phase party = .inside call locals)
    (goes : body.step locals g.data = .inl (locals', data)) :
    Refines body operation ({ g with data := data }.setPhase party (.inside call locals'))
      atomic := by
  have holds : (g.phase party).holds = true := by rw [inside]; rfl
  apply h.alone
  · intro other
    exact h.others_outside holds
  · exact (h.holder party).mp holds
  · exact h.still_pending (by rw [inside]; rfl)
  · intro outside
    cases outside
  · intro _ _ same
    cases same
    exact (h.inside party call locals inside).step goes
  · intro _ _ same
    cases same

theorem Refines.finishes (implements : body.Implements operation)
    (h : Refines body operation g atomic) {call : κ} {locals : lam} {result : ρ}
    (inside : g.phase party = .inside call locals)
    (ends : body.step locals g.data = .inr result) :
    Refines body operation (g.setPhase party (.leaving call result)) atomic := by
  have holds : (g.phase party).holds = true := by rw [inside]; rfl
  apply h.alone
  · intro other
    exact h.others_outside holds
  · exact (h.holder party).mp holds
  · exact h.still_pending (by rw [inside]; rfl)
  · intro outside
    cases outside
  · intro _ _ same
    cases same
  · intro _ _ same
    cases same
    exact implements _ _ _ _ _ (h.inside party call locals inside) ends

/-- The operation takes effect when the lock is released. -/
theorem Refines.release (h : Refines body operation g atomic) {call : κ} {result : ρ}
    (leaving : g.phase party = .leaving call result) :
    ∃ later, Traces (Atomic.next operation) atomic [] later ∧
      Refines body operation ({ g with holder := none }.setPhase party (.returning result))
        later := by
  have holds : (g.phase party).holds = true := by rw [leaving]; rfl
  have called := h.pending party
  rw [leaving] at called
  have computed := h.leaving party call result leaving
  refine ⟨_, Atomic.runs_effect operation called, ?_⟩
  rw [computed]
  apply h.alone
  · intro other
    exact h.others_outside holds
  · rfl
  · rfl
  · intro _
    rfl
  · intro _ _ same
    cases same
  · intro _ _ same
    cases same

theorem Refines.next (implements : body.Implements operation)
    (h : Refines body operation g atomic) (action : GuardedAction π κ)
    {events : List (Event π κ ρ)} (taken : g.next body action = some (g', events)) :
    ∃ later, Traces (Atomic.next operation) atomic events later ∧
      Refines body operation g' later := by
  cases action with
  | call party call =>
      rw [Guarded.next] at taken
      split at taken
      · rename_i idle
        cases taken
        have pending := h.pending party
        rw [idle] at pending
        exact ⟨_, Atomic.runs_call call pending, h.outside (by rw [idle]; rfl) rfl⟩
      · cases taken
  | acquire party =>
      rw [Guarded.next] at taken
      split at taken
      · rename_i waiting free
        cases taken
        exact ⟨atomic, .start, h.acquire waiting free⟩
      · cases taken
  | step party =>
      rw [Guarded.next] at taken
      split at taken
      · rename_i inside
        split at taken
        · rename_i goes
          cases taken
          exact ⟨atomic, .start, h.goes_on inside goes⟩
        · rename_i ends
          cases taken
          exact ⟨atomic, .start, h.finishes implements inside ends⟩
      · cases taken
  | release party =>
      rw [Guarded.next] at taken
      split at taken
      · rename_i leaving
        cases taken
        exact h.release leaving
      · cases taken
  | answer party =>
      rw [Guarded.next] at taken
      split at taken
      · rename_i returning
        cases taken
        have pending := h.pending party
        rw [returning] at pending
        exact ⟨_, Atomic.runs_answer pending, h.outside (by rw [returning]; rfl) rfl⟩
      · cases taken

/-- Each history of the guarded data is one of the atomic object. -/
theorem atomic_run (implements : body.Implements operation) (object : τ)
    {history : List (Event π κ ρ)} (run : Traces (next body) (.initial object) history g) :
    ∃ atomic, Traces (Atomic.next operation) (.initial object) history atomic ∧
      Refines body operation g atomic :=
  run.simulated (Refines body operation) (Refines.initial object)
    fun _ _ action _ _ h taken => h.next implements action taken

end Guarded

end FreeDV.Lib
