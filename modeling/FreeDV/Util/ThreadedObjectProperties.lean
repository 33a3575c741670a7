import FreeDV.Util.ThreadedObject
import Mathlib.Data.List.Range

/-!
# Tasks run in order

Until the destructor empties the queue, every function ever pushed has been
called, has just been dequeued or is still queued, in this order. Behind it
nothing is called any more, so what was called stays a first part of what was
pushed.
-/

set_option autoImplicit false

namespace FreeDV.Util.ThreadedObject

open FreeDV.Lib

variable {callable : Nat → Bool} {s s' : State}

/-- The tasks that have been pushed, without the empty functions. -/
def pushedTasks (callable : Nat → Bool) (s : State) : List Nat :=
  (List.range s.pushes).filter callable

theorem pushedTasks_push (s : State) :
    pushedTasks callable (push s) = pushedTasks callable s ++ [s.pushes].filter callable := by
  simp only [pushedTasks, push, List.range_succ, List.filter_append]

/-- What is to be called next, in this order. -/
def pendingTasks (callable : Nat → Bool) (s : State) : List Nat :=
  (s.thread.unstarted.toList ++ s.eventQueue).filter callable

structure ObjectOk (callable : Nat → Bool) (s : State) : Prop where
  executing : s.taskCurrentlyExecuting = s.thread.task.isSome
  oneAtATime : s.started = s.completed ++ s.thread.runs.toList
  order : s.started <+: pushedTasks callable s
  complete : s.isDestroying = false →
    s.started ++ pendingTasks callable s = pushedTasks callable s
  before : ∀ client before destructor, s.clients client = .waitCalled before destructor ∨
    s.clients client = .waiting before destructor → before ≤ s.pushes

/-! ## Moves of the thread -/

theorem ObjectOk.resume (ok : ObjectOk callable s)
    (executing : s'.taskCurrentlyExecuting = s'.thread.task.isSome)
    (oneAtATime : s'.started = s'.completed ++ s'.thread.runs.toList)
    (started : s'.started = s.started) (pushes : s'.pushes = s.pushes)
    (isDestroying : s'.isDestroying = false → s.isDestroying = false)
    (pending : s'.isDestroying = false → pendingTasks callable s' = pendingTasks callable s)
    (clients : ∀ client before destructor, s'.clients client = .waitCalled before destructor ∨
      s'.clients client = .waiting before destructor → before ≤ s.pushes) :
    ObjectOk callable s' := by
  have same : pushedTasks callable s' = pushedTasks callable s := by
    rw [pushedTasks, pushedTasks, pushes]
  refine ⟨executing, oneAtATime, ?_, ?_, ?_⟩
  · rw [started, same]
    exact ok.order
  · intro alive
    rw [started, pending alive, same]
    exact ok.complete (isDestroying alive)
  · rw [pushes]
    exact clients

theorem ObjectOk.goOn (ok : ObjectOk callable s) {thread : Thread}
    (task : thread.task = s.thread.task) (runs : thread.runs = s.thread.runs)
    (unstarted : thread.unstarted = s.thread.unstarted) :
    ObjectOk callable { s with thread := thread } := by
  refine ok.resume ?_ ?_ rfl rfl id ?_ ok.before
  · rw [ok.executing, task]
  · rw [ok.oneAtATime, runs]
  · intro _
    rw [pendingTasks, pendingTasks, unstarted]

theorem ObjectOk.takeFront (ok : ObjectOk callable s) (idle : s.thread.task = none)
    (runs : s.thread.runs = none) (unstarted : s.thread.unstarted = none) :
    ObjectOk callable (takeFront s) := by
  unfold ThreadedObject.takeFront
  split
  case isTrue => exact ok.goOn idle.symm runs.symm unstarted.symm
  case isFalse =>
    split
    case h_1 => exact ok.goOn idle.symm runs.symm unstarted.symm
    case h_2 task rest front =>
      refine ok.resume rfl ?_ rfl rfl id ?_ ok.before
      · rw [ok.oneAtATime, runs]
        rfl
      · intro _
        rw [pendingTasks, pendingTasks, unstarted, front]
        rfl

theorem ObjectOk.call (ok : ObjectOk callable s) {task count : Nat}
    (phase : s.thread = .dequeued task count) (alive : s.isDestroying = false)
    (nonempty : callable task = true) :
    ObjectOk callable { s with thread := .running task count, started := s.started ++ [task] } := by
  have complete := ok.complete alive
  have pending : pendingTasks callable s = task :: s.eventQueue.filter callable := by
    simp [pendingTasks, phase, Thread.unstarted, nonempty]
  rw [pending, ← List.singleton_append, ← List.append_assoc] at complete
  refine ⟨?_, ?_, ⟨_, complete⟩, fun _ => complete, ok.before⟩
  · rw [ok.executing, phase]
    rfl
  · have before := ok.oneAtATime
    rw [phase] at before
    simp only [Thread.runs, Option.toList_none, List.append_nil] at before
    simp only [before, Thread.runs, Option.toList_some]

theorem ObjectOk.skip (ok : ObjectOk callable s) {task count : Nat}
    (phase : s.thread = .dequeued task count)
    (reason : ¬ (s.isDestroying = false ∧ callable task = true)) :
    ObjectOk callable { s with thread := .completing task count } := by
  refine ok.resume ?_ ?_ rfl rfl id ?_ ok.before
  · rw [ok.executing, phase]
    rfl
  · rw [ok.oneAtATime, phase]
    rfl
  · intro (alive : s.isDestroying = false)
    have empty : callable task = false := by simpa [alive] using reason
    simp [pendingTasks, phase, Thread.unstarted, empty]

theorem ObjectOk.push (ok : ObjectOk callable s) : ObjectOk callable (push s) where
  executing := ok.executing
  oneAtATime := ok.oneAtATime
  order := by
    rw [pushedTasks_push]
    exact ok.order.trans (List.prefix_append _ _)
  complete alive := by
    rw [pushedTasks_push, ← ok.complete alive]
    simp only [pendingTasks, ThreadedObject.push, List.filter_append, List.append_assoc]
  before client before destructor phase :=
    Nat.le_succ_of_le (ok.before client before destructor phase)

theorem ObjectOk.threadStep (ok : ObjectOk callable s)
    (taken : threadStep callable s = some s') : ObjectOk callable s' := by
  unfold ThreadedObject.threadStep at taken
  split at taken
  case h_1 phase =>
    cases taken
    split
    · exact ok.goOn (by rw [phase]; rfl) (by rw [phase]; rfl) (by rw [phase]; rfl)
    · exact ok.goOn (by rw [phase]; rfl) (by rw [phase]; rfl) (by rw [phase]; rfl)
  case h_2 phase =>
    split at taken
    · cases taken
      exact ok.goOn (by rw [phase]; rfl) (by rw [phase]; rfl) (by rw [phase]; rfl)
    · cases taken
      exact ok.takeFront (by rw [phase]; rfl) (by rw [phase]; rfl) (by rw [phase]; rfl)
  case h_3 phase =>
    split at taken
    · cases taken
      exact ok.takeFront (by rw [phase]; rfl) (by rw [phase]; rfl) (by rw [phase]; rfl)
    · cases taken
  case h_4 phase =>
    split at taken
    case isTrue calls =>
      cases taken
      exact ok.call phase calls.1 calls.2
    case isFalse reason =>
      cases taken
      exact ok.skip phase reason
  case h_5 phase =>
    cases taken
    have same : (ThreadedObject.push s).thread = _ := phase
    exact ok.push.goOn (by rw [same]; rfl) (by rw [same]; rfl) (by rw [same]; rfl)
  case h_6 phase =>
    cases taken
    refine ok.resume rfl ?_ rfl rfl id ?_ ok.before
    · rw [ok.oneAtATime, phase]
      rfl
    · intro _
      rw [pendingTasks, pendingTasks, phase]
      rfl
  case h_7 phase =>
    cases taken
    split
    · exact ok.goOn (by rw [phase]; rfl) (by rw [phase]; rfl) (by rw [phase]; rfl)
    · exact ok.goOn (by rw [phase]; rfl) (by rw [phase]; rfl) (by rw [phase]; rfl)
  case h_8 => cases taken
  case h_9 => cases taken

theorem ObjectOk.taskEnqueue (ok : ObjectOk callable s) {timed : Bool}
    (taken : taskEnqueue s timed = some s') : ObjectOk callable s' := by
  unfold ThreadedObject.taskEnqueue at taken
  split at taken
  case h_1 phase =>
    cases taken
    split
    · exact ok.goOn (by rw [phase]) (by rw [phase]) (by rw [phase])
    · exact ok.goOn (by rw [phase]; rfl) (by rw [phase]; rfl) (by rw [phase]; rfl)
  case h_2 => cases taken

theorem ObjectOk.taskGiveUp (ok : ObjectOk callable s) (taken : taskGiveUp s = some s') :
    ObjectOk callable s' := by
  unfold ThreadedObject.taskGiveUp at taken
  split at taken
  case h_1 phase =>
    cases taken
    exact ok.goOn (by rw [phase]; rfl) (by rw [phase]; rfl) (by rw [phase]; rfl)
  case h_2 => cases taken

theorem ObjectOk.taskReturn (ok : ObjectOk callable s) (taken : taskReturn s = some s') :
    ObjectOk callable s' := by
  unfold ThreadedObject.taskReturn at taken
  split at taken
  case h_1 phase =>
    cases taken
    refine ok.resume ?_ ?_ rfl rfl id ?_ ok.before
    · rw [ok.executing, phase]
      rfl
    · rw [ok.oneAtATime, phase]
      simp [Thread.runs]
    · intro _
      rw [pendingTasks, pendingTasks, phase]
      rfl
  case h_2 => cases taken

/-! ## Moves of the clients -/

theorem ObjectOk.continueAt (ok : ObjectOk callable s) {client : Nat} {phase : Client}
    (before : ∀ before destructor, phase = .waitCalled before destructor ∨
      phase = .waiting before destructor → before ≤ s.pushes) :
    ObjectOk callable (continueAt s client phase) := by
  refine ok.resume ok.executing ok.oneAtATime rfl rfl id (fun _ => rfl) ?_
  intro other count destructor waits
  by_cases same : other = client
  · subst same
    simp only [ThreadedObject.continueAt, Function.update_self] at waits
    exact before count destructor waits
  · simp only [ThreadedObject.continueAt, Function.update_of_ne same] at waits
    exact ok.before other count destructor waits

theorem ObjectOk.setSuppress (ok : ObjectOk callable s) (suppress : Bool) :
    ObjectOk callable { s with suppressEnqueue := suppress } :=
  ok.resume ok.executing ok.oneAtATime rfl rfl id (fun _ => rfl) ok.before

theorem ObjectOk.evaluate (ok : ObjectOk callable s) {client before : Nat} {destructor : Bool}
    (bound : before ≤ s.pushes) : ObjectOk callable (evaluate s client before destructor) := by
  unfold ThreadedObject.evaluate
  split
  · refine ok.continueAt ?_
    intro count _ waits
    cases waits with
    | inl called => cases called
    | inr waiting =>
        cases waiting
        exact bound
  · refine (ok.setSuppress false).continueAt ?_
    intro count _ waits
    cases destructor with
    | _ => simp at waits

theorem ObjectOk.clear (ok : ObjectOk callable s) :
    ObjectOk callable { s with eventQueue := [], isDestroying := true } := by
  refine ok.resume ok.executing ok.oneAtATime rfl rfl ?_ ?_ ok.before
  · intro alive
    cases alive
  · intro alive
    cases alive

theorem ObjectOk.clientStep (ok : ObjectOk callable s) {client : Nat}
    (taken : clientStep s client = some s') : ObjectOk callable s' := by
  unfold ThreadedObject.clientStep at taken
  split at taken
  case h_1 => cases taken
  case h_2 =>
    cases taken
    exact ok.push.continueAt (by simp)
  case h_3 phase =>
    cases taken
    exact (ok.setSuppress true).evaluate (ok.before client _ _ (.inl phase))
  case h_4 phase =>
    cases taken
    exact ok.evaluate (ok.before client _ _ (.inr phase))
  case h_5 =>
    cases taken
    exact ok.clear.continueAt (by simp)
  case h_6 =>
    split at taken
    · cases taken
      exact ok.continueAt (by simp)
    · cases taken

theorem ObjectOk.clientWait (ok : ObjectOk callable s) {client : Nat} {destructor : Bool}
    (taken : clientWait s client destructor = some s') : ObjectOk callable s' := by
  unfold ThreadedObject.clientWait at taken
  split at taken
  case h_1 =>
    cases taken
    refine ok.continueAt ?_
    intro count _ waits
    cases waits with
    | inl called =>
        cases called
        exact Nat.le_refl _
    | inr waiting => cases waiting
  case h_2 => cases taken

theorem ObjectOk.next (ok : ObjectOk callable s) {action : Action}
    (taken : next callable s action = some s') : ObjectOk callable s' := by
  cases action with
  | threadStep => exact ok.threadStep taken
  | taskEnqueue => exact ok.taskEnqueue taken
  | taskGiveUp => exact ok.taskGiveUp taken
  | taskReturn => exact ok.taskReturn taken
  | enqueue =>
      simp only [ThreadedObject.next, clientEnqueue] at taken
      split at taken
      · cases taken
        refine ok.continueAt ?_
        split <;> simp
      · cases taken
  | giveUp =>
      simp only [ThreadedObject.next, clientGiveUp] at taken
      split at taken
      · cases taken
        exact ok.continueAt (by simp)
      · cases taken
  | wait => exact ok.clientWait taken
  | destroy =>
      simp only [ThreadedObject.next] at taken
      split at taken
      · cases taken
      · have called : ObjectOk callable { s with destructorCalled := true } :=
          ok.resume ok.executing ok.oneAtATime rfl rfl id (fun _ => rfl) ok.before
        exact called.clientWait taken
  | clientStep => exact ok.clientStep taken

theorem ObjectOk.initial : ObjectOk callable State.initial where
  executing := rfl
  oneAtATime := rfl
  order := List.prefix_refl _
  complete _ := rfl
  before client before destructor waits := by
    cases waits with
    | _ phase => cases phase

theorem objectOk_of_reachable
    (reachable : Reachable (next callable) (fun _ _ => True) State.initial s) :
    ObjectOk callable s := by
  refine reachable.invariant (ObjectOk callable) .initial ?_
  intro before action after ok _ taken
  exact ok.next taken

/-! ## Waiting for all tasks -/

/-- A wait that returns has found the queue empty and no task marked as running. -/
theorem exit_condition {client before : Nat} {destructor : Bool}
    (waits : s.clients client = .waitCalled before destructor ∨
      s.clients client = .waiting before destructor)
    (taken : clientStep s client = some s')
    (returns : s'.clients client ≠ .waiting before destructor) :
    s.eventQueue = [] ∧ s.taskCurrentlyExecuting = false := by
  have ended : ∀ start : State, start.eventQueue = s.eventQueue →
      start.taskCurrentlyExecuting = s.taskCurrentlyExecuting →
      s' = evaluate start client before destructor →
      s.eventQueue = [] ∧ s.taskCurrentlyExecuting = false := by
    rintro start queue executing rfl
    by_contra busy
    have continues : start.eventQueue ≠ [] ∨ start.taskCurrentlyExecuting = true := by
      rw [queue, executing]
      by_cases empty : s.eventQueue = []
      · right
        simpa [empty] using busy
      · exact .inl empty
    rw [evaluate, if_pos continues] at returns
    exact returns (Function.update_self client _ _)
  rcases waits with called | waiting
  · simp only [clientStep, called, Option.some.injEq] at taken
    exact ended { s with suppressEnqueue := true } rfl rfl taken.symm
  · simp only [clientStep, waiting, Option.some.injEq] at taken
    exact ended s rfl rfl taken.symm

/-- With nothing queued and nothing running, all that was pushed has completed. -/
theorem ObjectOk.all_completed (ok : ObjectOk callable s) (empty : s.eventQueue = [])
    (idle : s.thread.task = none) (alive : s.isDestroying = false) :
    s.completed = pushedTasks callable s := by
  have quiet : s.thread.runs = none ∧ s.thread.unstarted = none := by
    cases phase : s.thread with
    | dequeued => simp [phase, Thread.task] at idle
    | running => simp [phase, Thread.task] at idle
    | enqueueing => simp [phase, Thread.task] at idle
    | _ => exact ⟨rfl, rfl⟩
  have started := ok.oneAtATime
  have complete := ok.complete alive
  rw [quiet.1, Option.toList_none, List.append_nil] at started
  rw [pendingTasks, quiet.2, empty, Option.toList_none, List.append_nil, List.filter_nil,
    List.append_nil, started] at complete
  exact complete

/-- Tasks are called one at a time, as a first part of those pushed, in this order; until the
destructor sets `isDestroying_` each of the others is dequeued or queued. A wait returns when
nothing is queued or running; if `isDestroying_` is not set by then, every task pushed before
the call has completed. -/
theorem tasks_run_in_order
    (reachable : Reachable (next callable) (fun _ _ => True) State.initial s) :
    s.started <+: pushedTasks callable s ∧
      s.started = s.completed ++ s.thread.runs.toList ∧
      (s.isDestroying = false →
        s.started ++ pendingTasks callable s = pushedTasks callable s) ∧
      ∀ client before destructor s',
        s.clients client = .waitCalled before destructor ∨
          s.clients client = .waiting before destructor →
        next callable s (.clientStep client) = some s' →
        s'.clients client ≠ .waiting before destructor →
          s.eventQueue = [] ∧ s.thread.task = none ∧
            (s.isDestroying = false →
              ∀ task < before, callable task = true → task ∈ s.completed) := by
  have ok := objectOk_of_reachable reachable
  refine ⟨ok.order, ok.oneAtATime, ok.complete, ?_⟩
  intro client before destructor s' waits taken returns
  obtain ⟨empty, executing⟩ := exit_condition waits taken returns
  have idle : s.thread.task = none := by
    rw [ok.executing, Option.isSome_eq_false_iff, Option.isNone_iff_eq_none] at executing
    exact executing
  refine ⟨empty, idle, ?_⟩
  intro alive task earlier nonempty
  have bound := ok.before client before destructor waits
  rw [ok.all_completed empty idle alive, pushedTasks, List.mem_filter, List.mem_range]
  exact ⟨Nat.lt_of_lt_of_le earlier bound, nonempty⟩

/-- A task pushes another one while a client waits. -/
theorem a_wait_sees_two_tasks_complete :
    ∃ s s', Reachable (next fun _ => true) (fun _ _ => True) State.initial s ∧
      s.clients 1 = .waiting 1 false ∧
      next (fun _ => true) s (.clientStep 1) = some s' ∧ s'.clients 1 = .idle ∧
      s.started = [0, 1] ∧ s.eventQueue = [] ∧ s.thread.task = none ∧
      ∀ task < 1, task ∈ s.completed := by
  have executed : ((runActions (next fun _ => true) (fun _ _ => True) State.initial
      (List.flatten [[.enqueue 0 true, .clientStep 0], List.replicate 3 .threadStep,
        [.taskEnqueue false, .wait 1, .clientStep 1, .threadStep, .taskReturn],
        List.replicate 5 .threadStep, [.taskReturn, .threadStep]])).bind
      fun s => (next (fun _ => true) s (.clientStep 1)).map
      fun s' => (s.isDestroying, s.clients 1, s'.clients 1, s.started)) =
      some (false, .waiting 1 false, .idle, [0, 1]) := by
    decide +kernel
  obtain ⟨s, executed, returned⟩ := Option.bind_eq_some_iff.mp executed
  obtain ⟨s', taken, result⟩ := Option.map_eq_some_iff.mp returned
  simp only [Prod.mk.injEq] at result
  obtain ⟨alive, waits, idle, started⟩ := result
  have reachable := Reachable.of_runActions _ .start executed
  have returns : s'.clients 1 ≠ .waiting 1 false := by
    rw [idle]
    nofun
  obtain ⟨empty, quiet, completed⟩ :=
    (tasks_run_in_order reachable).2.2.2 1 1 false s' (.inr waits) taken returns
  exact ⟨s, s', reachable, waits, taken, idle, started, empty, quiet,
    fun task earlier => completed alive task earlier rfl⟩

/-- The destructor has waited, a task is pushed, another client begins to wait, and the destructor
empties the queue: the wait returns, and the task never ran. -/
theorem a_cleared_task_is_not_waited_for :
    ∃ s s', Reachable (next fun _ => true) (fun _ _ => True) State.initial s ∧
      s.clients 2 = .waitCalled 1 false ∧
      next (fun _ => true) s (.clientStep 2) = some s' ∧ s'.clients 2 = .idle ∧
      s'.started = [] ∧ s'.completed = [] := by
  have executed : ((runActions (next fun _ => true) (fun _ _ => True) State.initial
      [.destroy 0, .clientStep 0, .enqueue 1 false, .clientStep 1, .wait 2, .clientStep 0]).bind
      fun s => (next (fun _ => true) s (.clientStep 2)).map
      fun s' => (s.clients 2, s'.clients 2, s'.started, s'.completed)) =
      some (.waitCalled 1 false, .idle, [], []) := by
    decide +kernel
  obtain ⟨s, executed, returned⟩ := Option.bind_eq_some_iff.mp executed
  obtain ⟨s', taken, result⟩ := Option.map_eq_some_iff.mp returned
  simp only [Prod.mk.injEq] at result
  obtain ⟨waits, idle, started, completed⟩ := result
  exact ⟨s, s', Reachable.of_runActions _ .start executed, waits, taken, idle, started, completed⟩

end FreeDV.Util.ThreadedObject
