import FreeDV.Lib.CriticalSection
import Mathlib.Data.Fin.VecNotation

/-!
# The spin mutex

`audio_spin_mutex` is one flag. `try_lock` tests it before it tests and sets it,
and `lock` tries again and again, with pauses that grow from loop to loop; a pause
or a `yield` has no effect here. Any number of threads each lock the mutex for a
program over the data that it protects.
-/

set_option autoImplicit false

namespace FreeDV.Util.AudioSpinMutex

open Lib

variable {τ π κ lam ρ : Type*}

def iterations : Fin 3 → Nat := ![5, 10, 3000]

/-- Where `lock` is in its loops. -/
structure Attempt where
  loop : Fin 3
  i : Nat
deriving DecidableEq

def Attempt.first : Attempt := ⟨0, 0⟩

/-- The last loop is started again. -/
def Attempt.failed (attempt : Attempt) : Attempt :=
  if attempt.i + 1 < iterations attempt.loop then ⟨attempt.loop, attempt.i + 1⟩
  else if attempt.loop = 0 then ⟨1, 0⟩
  else ⟨2, 0⟩

inductive Thread (κ lam ρ : Type*) where
  | idle
  -- in `try_lock`: `flag.load`, `flag.exchange`
  | load (call : κ) (attempt : Attempt)
  | exchange (call : κ) (attempt : Attempt)
  | inside (call : κ) (locals : lam)
  | unlock (call : κ) (result : ρ)
  | returning (result : ρ)

structure State (τ π κ lam ρ : Type*) where
  flag : Bool
  data : τ
  thread : π → Thread κ lam ρ

inductive Action (π κ : Type*) where
  | call (party : π) (call : κ)
  | step (party : π)

namespace State

def initial (data : τ) : State τ π κ lam ρ := ⟨false, data, fun _ => .idle⟩

variable [DecidableEq π]

def setThread (s : State τ π κ lam ρ) (party : π) (thread : Thread κ lam ρ) :
    State τ π κ lam ρ :=
  { s with thread := Function.update s.thread party thread }

def next (body : CriticalSection τ κ lam ρ) (s : State τ π κ lam ρ) :
    Action π κ → Option (State τ π κ lam ρ × List (Event π κ ρ))
  | .call party call =>
      match s.thread party with
      | .idle => some (s.setThread party (.load call .first), [.call party call])
      | _ => none
  | .step party =>
      match s.thread party with
      | .idle => none
      | .load call attempt =>
          if s.flag then some (s.setThread party (.load call attempt.failed), [])
          else some (s.setThread party (.exchange call attempt), [])
      | .exchange call attempt =>
          let taken := s.flag
          let s := { s with flag := true }
          if taken then some (s.setThread party (.load call attempt.failed), [])
          else some (s.setThread party (.inside call (body.start call)), [])
      | .inside call locals =>
          match body.step locals s.data with
          | .inl (locals, data) =>
              some ({ s with data := data }.setThread party (.inside call locals), [])
          | .inr result => some (s.setThread party (.unlock call result), [])
      | .unlock _ result =>
          some ({ s with flag := false }.setThread party (.returning result), [])
      | .returning result => some (s.setThread party .idle, [.answer party result])

end State

/-! ## An exclusive lock -/

def Thread.phase : Thread κ lam ρ → Phase κ lam ρ
  | .idle => .idle
  | .load call _ => .waiting call
  | .exchange call _ => .waiting call
  | .inside call locals => .inside call locals
  | .unlock call result => .leaving call result
  | .returning result => .returning result

/-- The flag says whether somebody holds the lock. -/
structure Locks (s : State τ π κ lam ρ) (g : Guarded τ π κ lam ρ) : Prop where
  flag : s.flag = g.holder.isSome
  data : s.data = g.data
  phase : ∀ party, g.phase party = (s.thread party).phase

theorem Locks.initial (data : τ) :
    Locks (State.initial data : State τ π κ lam ρ) (Guarded.initial data) where
  flag := rfl
  data := rfl
  phase _ := rfl

variable {body : CriticalSection τ κ lam ρ} {s s' : State τ π κ lam ρ}
  {g : Guarded τ π κ lam ρ} {party : π}

theorem Locks.phase_eq (h : Locks s g) {thread : Thread κ lam ρ} (here : s.thread party = thread) :
    g.phase party = thread.phase := by
  rw [h.phase party, here]

theorem Locks.flag_eq_false_iff (h : Locks s g) : s.flag = false ↔ g.holder = none := by
  rw [h.flag]
  exact Option.isSome_eq_false_iff.trans Option.isNone_iff_eq_none

section Steps

variable [DecidableEq π]

theorem Locks.setThread (h : Locks s g) {flag : Bool} {holder : Option π}
    (held : flag = holder.isSome) {data data' : τ} (same : data = data')
    (thread : Thread κ lam ρ) :
    Locks ({ s with flag := flag, data := data }.setThread party thread)
      ({ g with holder := holder, data := data' }.setPhase party thread.phase) where
  flag := held
  data := same
  phase other := by
    by_cases here : other = party
    · subst here
      simp only [State.setThread, Guarded.setPhase, Function.update_self]
    · simp only [State.setThread, Guarded.setPhase, Function.update_of_ne here, h.phase other]

/-- A thread tries again, and nothing else changes. -/
theorem Locks.again (h : Locks s g) {flag : Bool} (unchanged : flag = s.flag)
    {thread : Thread κ lam ρ} (same : thread.phase = (s.thread party).phase) :
    Locks ({ s with flag := flag }.setThread party thread) g where
  flag := unchanged.trans h.flag
  data := h.data
  phase other := by
    by_cases here : other = party
    · subst here
      simp only [State.setThread, Function.update_self, same, h.phase other]
    · simp only [State.setThread, Function.update_of_ne here, h.phase other]

theorem Locks.exchange (h : Locks s g) {call : κ} {attempt : Attempt}
    (here : s.thread party = .exchange call attempt) {events : List (Event π κ ρ)}
    (taken : s.next body (.step party) = some (s', events)) :
    ∃ later, Traces (Guarded.next body) g events later ∧ Locks s' later := by
  have waiting := h.phase_eq here
  simp only [State.next, here] at taken
  split at taken
  · rename_i set
    cases taken
    exact ⟨g, .start, h.again set.symm (by rw [here]; rfl)⟩
  · rename_i clear
    cases taken
    have free := h.flag_eq_false_iff.mp (Bool.eq_false_iff.mpr clear)
    have held : true = (some party).isSome := rfl
    refine ⟨{ g with holder := some party }.setPhase party _, ?_, h.setThread held h.data _⟩
    apply Traces.single (GuardedAction.acquire party)
    simp only [Guarded.next, waiting, Thread.phase, free]

theorem Locks.inside (h : Locks s g) {call : κ} {locals : lam}
    (here : s.thread party = .inside call locals) {events : List (Event π κ ρ)}
    (taken : s.next body (.step party) = some (s', events)) :
    ∃ later, Traces (Guarded.next body) g events later ∧ Locks s' later := by
  have inside := h.phase_eq here
  simp only [State.next, here] at taken
  split at taken
  · rename_i locals' data goes
    cases taken
    refine ⟨{ g with data := data }.setPhase party _, ?_, h.setThread h.flag rfl _⟩
    apply Traces.single (GuardedAction.step party)
    rw [h.data] at goes
    simp only [Guarded.next, inside, Thread.phase, goes]
  · rename_i result ends
    cases taken
    refine ⟨g.setPhase party _, ?_, h.setThread h.flag h.data _⟩
    apply Traces.single (GuardedAction.step party)
    rw [h.data] at ends
    simp only [Guarded.next, inside, Thread.phase, ends]

theorem Locks.next (h : Locks s g) (action : Action π κ) {events : List (Event π κ ρ)}
    (taken : s.next body action = some (s', events)) :
    ∃ later, Traces (Guarded.next body) g events later ∧ Locks s' later := by
  cases action with
  | call party call =>
      rw [State.next] at taken
      split at taken
      · rename_i here
        cases taken
        have idle := h.phase_eq here
        refine ⟨g.setPhase party _, ?_, h.setThread h.flag h.data _⟩
        apply Traces.single (GuardedAction.call party call)
        simp only [Guarded.next, idle, Thread.phase]
      · cases taken
  | step party =>
      cases here : s.thread party with
      | idle =>
          simp only [State.next, here] at taken
          cases taken
      | load call attempt =>
          simp only [State.next, here] at taken
          split at taken
          · cases taken
            exact ⟨g, .start, h.again rfl (by rw [here]; rfl)⟩
          · cases taken
            exact ⟨g, .start, h.again rfl (by rw [here]; rfl)⟩
      | exchange call attempt => exact h.exchange here taken
      | inside call locals => exact h.inside here taken
      | unlock call result =>
          have leaving := h.phase_eq here
          simp only [State.next, here] at taken
          cases taken
          have held : false = (none : Option π).isSome := rfl
          refine ⟨{ g with holder := none }.setPhase party _, ?_, h.setThread held h.data _⟩
          apply Traces.single (GuardedAction.release party)
          simp only [Guarded.next, leaving, Thread.phase]
      | returning result =>
          have returning := h.phase_eq here
          simp only [State.next, here] at taken
          cases taken
          refine ⟨g.setPhase party _, ?_, h.setThread h.flag h.data _⟩
          apply Traces.single (GuardedAction.answer party)
          simp only [Guarded.next, returning, Thread.phase]

theorem guarded_run (data : τ) {history : List (Event π κ ρ)}
    (run : Traces (State.next body) (.initial data) history s) :
    ∃ g, Traces (Guarded.next body) (.initial data) history g ∧ Locks s g :=
  run.simulated Locks (Locks.initial data) fun _ _ action _ _ h taken => h.next action taken

/-- A thread that waits while the flag is clear has the mutex after two steps of its own. -/
theorem takes_a_free_mutex (clear : s.flag = false) {call : κ}
    (waiting : (s.thread party).phase = .waiting call) :
    ∃ steps ≤ 2, ∃ later, runEvents (State.next body) s (List.replicate steps (.step party)) =
      some ([], later) ∧ later.thread party = .inside call (body.start call) := by
  cases here : s.thread party with
  | load call attempt =>
      rw [here] at waiting
      cases waiting
      refine ⟨2, Nat.le_refl 2, { s.setThread party (.exchange call attempt) with
        flag := true }.setThread party (.inside call (body.start call)), ?_,
        Function.update_self party _ _⟩
      simp [runEvents, State.next, here, clear, State.setThread]
  | exchange call attempt =>
      rw [here] at waiting
      cases waiting
      refine ⟨1, Nat.le_succ 1, { s with flag := true }.setThread party
        (.inside call (body.start call)), ?_, Function.update_self party _ _⟩
      simp [runEvents, State.next, here, clear, State.setThread]
  | idle =>
      rw [here] at waiting
      cases waiting
  | inside call locals =>
      rw [here] at waiting
      cases waiting
  | unlock call result =>
      rw [here] at waiting
      cases waiting
  | returning result =>
      rw [here] at waiting
      cases waiting

/-- However the threads' accesses are interleaved: no two are inside the mutex, each program over
the data takes effect at once between call and answer, and while nobody is inside, the data is what
these programs made of it, and the next thread to try gets in. -/
theorem critical_sections_are_atomic (body : CriticalSection τ κ lam ρ)
    (operation : τ → κ → ρ × τ) (implements : body.Implements operation) (data : τ)
    {history : List (Event π κ ρ)} {s : State τ π κ lam ρ}
    (run : Traces (State.next body) (.initial data) history s) :
    (∀ first second, (s.thread first).phase.holds = true →
      (s.thread second).phase.holds = true → first = second) ∧
    ∃ atomic : Atomic τ π κ ρ, Traces (Atomic.next operation) (.initial data) history atomic ∧
      ((∀ party, (s.thread party).phase.holds = false) →
        atomic.object = s.data ∧
        ∀ party call, (s.thread party).phase = .waiting call →
          ∃ steps ≤ 2, ∃ later,
            runEvents (State.next body) s (List.replicate steps (.step party)) =
              some ([], later) ∧ later.thread party = .inside call (body.start call)) := by
  obtain ⟨g, guarded, locks⟩ := guarded_run data run
  obtain ⟨atomic, atomicRun, refines⟩ := Guarded.atomic_run implements data guarded
  refine ⟨?_, atomic, atomicRun, ?_⟩
  · intro first second firstHolds secondHolds
    rw [← locks.phase] at firstHolds secondHolds
    exact refines.exclusive firstHolds secondHolds
  · intro outside
    have free : g.holder = none := by
      cases held : g.holder with
      | none => rfl
      | some party =>
          have holds := (refines.holder party).mpr held
          rw [locks.phase, outside party] at holds
          cases holds
    refine ⟨(refines.free free).trans locks.data.symm, ?_⟩
    intro party call waiting
    exact takes_a_free_mutex (locks.flag_eq_false_iff.mpr free) waiting

end Steps

/-! ## A counter -/

inductive Increment where
  | read
  | write (value : Nat)
  | wrote (value : Nat)
deriving DecidableEq

/-- `counter++`, which reads before it writes. -/
def increment : CriticalSection Nat Unit Increment Nat where
  start _ := .read
  step
    | .read, counter => .inl (.write counter, counter)
    | .write value, _ => .inl (.wrote value, value + 1)
    | .wrote value, _ => .inr value

def Increment.value (object counter : Nat) : Increment → Prop
  | .read => counter = object
  | .write value => value = object ∧ counter = object
  | .wrote value => value = object ∧ counter = object + 1

theorem increment_value {call : Unit} {object : Nat} {point : Increment × Nat}
    (reached : increment.Reaches call object point) : point.1.value object point.2 := by
  apply reached.invariant fun point => point.1.value object point.2
  · rfl
  · rintro ⟨locals, counter⟩ _ after value _ taken
    cases locals with
    | read =>
        cases taken
        exact ⟨value, value⟩
    | write written =>
        cases taken
        exact ⟨value.1, congrArg (· + 1) value.1⟩
    | wrote written => cases taken

theorem increment_implements :
    increment.Implements fun counter _ => (counter, counter + 1) := by
  intro object _ locals counter result reached ends
  have value := increment_value reached
  cases locals with
  | read => cases ends
  | write written => cases ends
  | wrote written =>
      cases ends
      obtain ⟨rfl, rfl⟩ := value
      rfl

/-- Both threads find the mutex free, and one of them sets the flag first. -/
theorem critical_sections_are_atomic_for_two_threads :
    ∃ (history : List (Event Bool Unit Nat)) (s : State Nat Bool Unit Increment Nat),
      Traces (State.next increment) (.initial 0) history s ∧
      history = [.call false (), .call true (), .answer false 0, .answer true 1] ∧ s.data = 2 ∧
      ∃ atomic : Atomic Nat Bool Unit Nat,
        Traces (Atomic.next fun counter _ => (counter, counter + 1)) (.initial 0) history
          atomic := by
  let actions : List (Action Bool Unit) :=
    [.call false (), .call true (), .step false, .step true, .step false, .step true] ++
      List.replicate 3 (.step false) ++ [.step true, .step false] ++
      List.replicate 6 (.step true) ++ [.step false, .step true]
  have executed :
      (runEvents (State.next increment) (.initial 0) actions).map
        (fun result => (result.1, result.2.data)) =
        some ([.call false (), .call true (), .answer false 0, .answer true 1], 2) := by
    decide
  obtain ⟨⟨history, s⟩, run, seen⟩ := Option.map_eq_some_iff.mp executed
  obtain ⟨events, data⟩ := Prod.mk.inj seen
  have runs := Traces.of_runEvents actions run
  obtain ⟨-, atomic, atomicRun, -⟩ :=
    critical_sections_are_atomic increment _ increment_implements 0 runs
  exact ⟨history, s, runs, events, data, atomic, atomicRun⟩

end FreeDV.Util.AudioSpinMutex
