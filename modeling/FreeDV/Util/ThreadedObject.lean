import FreeDV.Lib.Transition
import Mathlib.Logic.Function.Basic

/-!
# Objects with a thread of their own

A `ThreadedObject` without a parent: its thread runs `eventLoop_`, any number of
clients call `enqueue_` and `waitForAllTasksComplete_`, and one of them calls the
destructor. A step is one section under `eventQueueMutex_`, one look at a flag
outside of it, or the begin or end of a task. `try_lock` may fail at any time.

Pushed functions are numbered from zero; `callable` tells which of them are not
empty. `pushes`, `started` and `completed` record what happened and are not read.
-/

set_option autoImplicit false

namespace FreeDV.Util.ThreadedObject

/-- The object's thread in `eventLoop_`. -/
inductive Thread where
  -- the condition of the outer loop
  | outer
  -- before the section that dequeues, and in its wait
  | dequeue
  | waiting
  -- behind that section
  | dequeued (task count : Nat)
  -- in a task, and in a call of `enqueue_` it makes
  | running (task count : Nat)
  | enqueueing (task count : Nat) (timed : Bool)
  -- before the section that ends the task, and at the condition of the inner loop
  | completing (task count : Nat)
  | inner (count : Nat)
  | finished
deriving DecidableEq

/-- The task that is marked as running. -/
def Thread.task : Thread → Option Nat
  | .dequeued task _ => some task
  | .running task _ => some task
  | .enqueueing task _ _ => some task
  | .completing task _ => some task
  | _ => none

/-- The task whose function is being called. -/
def Thread.runs : Thread → Option Nat
  | .running task _ => some task
  | .enqueueing task _ _ => some task
  | _ => none

/-- The task that has been dequeued, but not called yet. -/
def Thread.unstarted : Thread → Option Nat
  | .dequeued task _ => some task
  | _ => none

/-- A thread other than the object's own. `before` counts the pushes before the call. -/
inductive Client where
  | idle
  -- `enqueue_`, behind its look at `suppressEnqueue_`
  | enqueueing (timed : Bool)
  -- `waitForAllTasksComplete_`, before its first section and between two of them
  | waitCalled (before : Nat) (destructor : Bool)
  | waiting (before : Nat) (destructor : Bool)
  -- the destructor behind its wait, and in `join`
  | clearing
  | joining
deriving DecidableEq

structure State where
  eventQueue : List Nat
  suppressEnqueue : Bool
  isDestroying : Bool
  taskCurrentlyExecuting : Bool
  thread : Thread
  clients : Nat → Client
  destructorCalled : Bool
  pushes : Nat
  /-- The tasks that have been called, in this order. -/
  started : List Nat
  /-- The tasks that have returned. -/
  completed : List Nat

def State.initial : State where
  eventQueue := []
  suppressEnqueue := false
  isDestroying := false
  taskCurrentlyExecuting := false
  thread := .outer
  clients _ := .idle
  destructorCalled := false
  pushes := 0
  started := []
  completed := []

/-- `eventQueue_.push_back` -/
def push (s : State) : State :=
  { s with eventQueue := s.eventQueue ++ [s.pushes], pushes := s.pushes + 1 }

/-! ## The object's thread -/

/-- The section that dequeues, behind the wait. -/
def takeFront (s : State) : State :=
  if s.isDestroying then { s with thread := .outer }
  else
    match s.eventQueue with
    | [] => { s with thread := .outer }
    | task :: rest =>
        { s with
          eventQueue := rest
          taskCurrentlyExecuting := true
          thread := .dequeued task s.eventQueue.length }

/-- The next step of the thread, except for what a task does. -/
def threadStep (callable : Nat → Bool) (s : State) : Option State :=
  match s.thread with
  | .outer => some { s with thread := if s.isDestroying then .finished else .dequeue }
  | .dequeue =>
      if s.eventQueue = [] ∧ s.isDestroying = false then some { s with thread := .waiting }
      else some (takeFront s)
  | .waiting =>
      if s.isDestroying = true ∨ s.eventQueue ≠ [] then some (takeFront s) else none
  | .dequeued task count =>
      if s.isDestroying = false ∧ callable task = true then
        some { s with thread := .running task count, started := s.started ++ [task] }
      else some { s with thread := .completing task count }
  | .enqueueing task count _ => some { push s with thread := .running task count }
  | .completing _ count =>
      some { s with taskCurrentlyExecuting := false, thread := .inner (count - 1) }
  | .inner count =>
      some { s with
        thread := if s.isDestroying = false ∧ 0 < count then .dequeue else .outer }
  | .running _ _ => none
  | .finished => none

/-- A task calls `enqueue_`. -/
def taskEnqueue (s : State) (timed : Bool) : Option State :=
  match s.thread with
  | .running task count =>
      some { s with
        thread := if s.suppressEnqueue then .running task count else .enqueueing task count timed }
  | _ => none

/-- The lock could not be had in time. -/
def taskGiveUp (s : State) : Option State :=
  match s.thread with
  | .enqueueing task count true => some { s with thread := .running task count }
  | _ => none

def taskReturn (s : State) : Option State :=
  match s.thread with
  | .running task count =>
      some { s with thread := .completing task count, completed := s.completed ++ [task] }
  | _ => none

/-! ## Clients -/

def continueAt (s : State) (client : Nat) (phase : Client) : State :=
  { s with clients := Function.update s.clients client phase }

/-- The condition of the loop in `waitForAllTasksComplete_`, and its end. -/
def evaluate (s : State) (client before : Nat) (destructor : Bool) : State :=
  if s.eventQueue ≠ [] ∨ s.taskCurrentlyExecuting = true then
    continueAt s client (.waiting before destructor)
  else
    continueAt { s with suppressEnqueue := false } client (if destructor then .clearing else .idle)

def clientStep (s : State) (client : Nat) : Option State :=
  match s.clients client with
  | .idle => none
  | .enqueueing _ => some (continueAt (push s) client .idle)
  | .waitCalled before destructor =>
      some (evaluate { s with suppressEnqueue := true } client before destructor)
  | .waiting before destructor => some (evaluate s client before destructor)
  | .clearing =>
      some (continueAt { s with eventQueue := [], isDestroying := true } client .joining)
  | .joining => if s.thread = .finished then some (continueAt s client .idle) else none

/-- A call of `enqueue_`; it returns at once while `suppressEnqueue_` is set. -/
def clientEnqueue (s : State) (client : Nat) (timed : Bool) : Option State :=
  match s.clients client with
  | .idle => some (continueAt s client (if s.suppressEnqueue then .idle else .enqueueing timed))
  | _ => none

def clientGiveUp (s : State) (client : Nat) : Option State :=
  match s.clients client with
  | .enqueueing true => some (continueAt s client .idle)
  | _ => none

/-- A call of `waitForAllTasksComplete_`, directly or by the destructor. -/
def clientWait (s : State) (client : Nat) (destructor : Bool) : Option State :=
  match s.clients client with
  | .idle => some (continueAt s client (.waitCalled s.pushes destructor))
  | _ => none

inductive Action where
  | threadStep
  | taskEnqueue (timed : Bool)
  | taskGiveUp
  | taskReturn
  | enqueue (client : Nat) (timed : Bool)
  | giveUp (client : Nat)
  | wait (client : Nat)
  | destroy (client : Nat)
  | clientStep (client : Nat)

def next (callable : Nat → Bool) (s : State) : Action → Option State
  | .threadStep => threadStep callable s
  | .taskEnqueue timed => taskEnqueue s timed
  | .taskGiveUp => taskGiveUp s
  | .taskReturn => taskReturn s
  | .enqueue client timed => clientEnqueue s client timed
  | .giveUp client => clientGiveUp s client
  | .wait client => clientWait s client false
  | .destroy client =>
      if s.destructorCalled then none
      else clientWait { s with destructorCalled := true } client true
  | .clientStep client => clientStep s client

end FreeDV.Util.ThreadedObject
