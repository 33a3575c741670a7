import FreeDV.Lib.Heap
import FreeDV.Lib.Transition
import Mathlib.Logic.Function.Basic

/-!
# The timer server

One thread fires all `ThreadedTimer`s; any number of clients start, stop and
restart them, and so do the callbacks. A step is one section under `mutex_` or
under a timer's `timerMutex_`, or a call. The event loop holds `mutex_` from the
end of one wait or callback to the next, over several steps, in which no client
gets it. A wait may end at any time. Times are in nanoseconds, and heap
operations are those of the standard library in use.

`fireTimes` and `fires` record what happened and are not read.
-/

set_option autoImplicit false

namespace FreeDV.Util.ThreadedTimer

open FreeDV.Lib.Heap

/-- `std::chrono::milliseconds` -/
def milliseconds (count : Int) : Int := count * 1000000

structure Timer where
  isRunning : Bool
  nextFireTime : Int
  scheduledIntervalMs : Int
  scheduledRepeat : Bool
  /-- Whether `fn_` holds a function. -/
  fn : Bool
  repeats : Bool
  timeoutMilliseconds : Int

/-- A timer as its default constructor leaves it. -/
def Timer.initial : Timer where
  isRunning := false
  nextFireTime := 0
  scheduledIntervalMs := 0
  scheduledRepeat := false
  fn := false
  repeats := false
  timeoutMilliseconds := 0

inductive Client (τ : Type) where
  | idle
  -- `start`, before and behind the look at the configuration
  | startCalled (timer : τ)
  | registering (timer : τ) (intervalMs : Int) (repeats : Bool)
  -- `stop`, before it has `mutex_` and in its wait for the callback
  | stopCalled (timer : τ)
  | waiting (timer : τ)
deriving DecidableEq

/-- The thread of the event loop. -/
inductive Thread (τ : Type) where
  -- with `mutex_`, and in a wait on `timerCV_`
  | looping
  | waiting
  -- in `fire_`, and in a callback, between its calls or in a call of `start`
  | firing (timer : τ)
  | calling (timer : τ)
  | startCalled (timer : τ) (target : τ)
  | registering (timer : τ) (target : τ) (intervalMs : Int) (repeats : Bool)
  -- behind `fire_`
  | fired (timer : τ)
  | finished
deriving DecidableEq

/-- The timer whose callback the thread is running. -/
def Thread.timer {τ : Type} : Thread τ → Option τ
  | .looping => none
  | .waiting => none
  | .firing timer => some timer
  | .calling timer => some timer
  | .startCalled timer _ => some timer
  | .registering timer _ _ _ => some timer
  | .fired timer => some timer
  | .finished => none

structure State (τ : Type) where
  now : Int
  timers : τ → Timer
  timerQueue : List τ
  firingTimer : Option τ
  isDestroying : Bool
  thread : Thread τ
  clients : Nat → Client τ
  /-- The values of `nextFireTime_` since the last `start`. -/
  fireTimes : τ → List Int
  /-- How often a timer has been fired since its last `start`. -/
  fires : τ → Nat

variable {τ : Type}

def State.initial : State τ where
  now := 0
  timers _ := .initial
  timerQueue := []
  firingTimer := none
  isDestroying := false
  thread := .looping
  clients _ := .idle
  fireTimes _ := []
  fires _ := 0

def fireTimeComparator (timers : τ → Timer) (lhs rhs : τ) : Bool :=
  (timers lhs).nextFireTime > (timers rhs).nextFireTime

variable [DecidableEq τ]

def setTimer (s : State τ) (timer : τ) (value : Timer) : State τ :=
  { s with timers := Function.update s.timers timer value }

/-! ## The queue -/

section

variable (heap : HeapOps τ)

def removeLocked (s : State τ) (timer : τ) : State τ :=
  if timer ∈ s.timerQueue then
    { s with
      timerQueue := heap.makeHeap (fireTimeComparator s.timers) (s.timerQueue.erase timer) }
  else s

/-- `push_back` and `push_heap` -/
def pushTimer (s : State τ) (timer : τ) : State τ :=
  { s with
    timerQueue := heap.pushHeap (fireTimeComparator s.timers) (s.timerQueue ++ [timer]) }

/-- `registerTimer` under `mutex_`. -/
def registerTimer (s : State τ) (timer : τ) (intervalMs : Int) (repeats : Bool) : State τ :=
  let s := removeLocked heap s timer
  let nextFireTime := s.now + milliseconds intervalMs
  let s := setTimer s timer { s.timers timer with
    scheduledIntervalMs := intervalMs
    scheduledRepeat := repeats
    nextFireTime := nextFireTime
    isRunning := true }
  pushTimer heap { s with
    fireTimes := Function.update s.fireTimes timer [nextFireTime]
    fires := Function.update s.fires timer 0 } timer

/-- `unregisterTimer` under `mutex_`, up to the wait for the callback. -/
def unregisterTimer (s : State τ) (timer : τ) : State τ :=
  let s := removeLocked heap s timer
  setTimer s timer { s.timers timer with isRunning := false }

/-! ## Threads -/

/-- The earliest timer is due. -/
def fireFront (s : State τ) : Option (State τ) :=
  let range := heap.popHeap (fireTimeComparator s.timers) s.timerQueue
  match range.getLast? with
  | none => none
  | some timer =>
      let s := { s with
        timerQueue := range.dropLast
        fires := Function.update s.fires timer (s.fires timer + 1) }
      let scheduled := s.timers timer
      let s :=
        if scheduled.scheduledRepeat then
          let nextFireTime := scheduled.nextFireTime + milliseconds scheduled.scheduledIntervalMs
          let s := setTimer s timer { scheduled with nextFireTime := nextFireTime }
          pushTimer heap { s with
            fireTimes := Function.update s.fireTimes timer (s.fireTimes timer ++ [nextFireTime]) }
            timer
        else setTimer s timer { scheduled with isRunning := false }
      some { s with firingTimer := some timer, thread := .firing timer }

/-- One pass of the event loop, up to a wait or a callback. -/
def eventLoop (s : State τ) : Option (State τ) :=
  if s.isDestroying then some { s with thread := .finished }
  else
    match s.timerQueue with
    | [] => some { s with thread := .waiting }
    | front :: _ =>
        if s.now < (s.timers front).nextFireTime then some { s with thread := .waiting }
        else fireFront heap s

/-- The next step of the thread, except for what a callback calls. -/
def threadStep (s : State τ) : Option (State τ) :=
  match s.thread with
  | .looping => eventLoop heap s
  | .waiting => some { s with thread := .looping }
  | .firing timer =>
      some { s with thread := if (s.timers timer).fn then .calling timer else .fired timer }
  | .startCalled timer target =>
      let config := s.timers target
      some { s with
        thread := .registering timer target config.timeoutMilliseconds config.repeats }
  | .registering timer target intervalMs repeats =>
      some { registerTimer heap s target intervalMs repeats with thread := .calling timer }
  | .fired _ => some { s with firingTimer := none, thread := .looping }
  | .calling _ => none
  | .finished => none

/-- The next step of a call from a client. -/
def clientStep (s : State τ) (client : Nat) : Option (State τ) :=
  let continueAt (s : State τ) (phase : Client τ) : State τ :=
    { s with clients := Function.update s.clients client phase }
  match s.clients client with
  | .idle => none
  | .startCalled timer =>
      let config := s.timers timer
      some (continueAt s (.registering timer config.timeoutMilliseconds config.repeats))
  | .registering timer intervalMs repeats =>
      if s.thread = .looping then none
      else some (continueAt (registerTimer heap s timer intervalMs repeats) .idle)
  | .stopCalled timer =>
      if s.thread = .looping then none
      else some (continueAt (unregisterTimer heap s timer)
        (if s.firingTimer ≠ some timer then .idle else .waiting timer))
  | .waiting timer =>
      if s.thread = .looping then none
      else some (continueAt s (if s.firingTimer ≠ some timer then .idle else .waiting timer))

end

inductive Action (τ : Type) where
  -- time passes
  | tick (duration : Nat)
  -- by any thread
  | setTimeout (timer : τ) (milliseconds : Int)
  | setCallback (timer : τ) (fn : Bool)
  | setRepeat (timer : τ) (repeats : Bool)
  -- `start` and `restart`, which calls nothing else
  | start (client : Nat) (timer : τ)
  | stop (client : Nat) (timer : τ)
  | clientStep (client : Nat)
  | threadStep
  -- what a callback does
  | callbackStart (timer : τ)
  | callbackStop (timer : τ)
  | callbackReturn
  -- the destructor of the server
  | destroy

def callbackStart (s : State τ) (target : τ) : Option (State τ) :=
  match s.thread with
  | .calling timer => some { s with thread := .startCalled timer target }
  | _ => none

/-- A callback does not wait for itself. -/
def callbackStop (heap : HeapOps τ) (s : State τ) (target : τ) : Option (State τ) :=
  match s.thread with
  | .calling _ => some (unregisterTimer heap s target)
  | _ => none

def callbackReturn (s : State τ) : Option (State τ) :=
  match s.thread with
  | .calling timer => some { s with thread := .fired timer }
  | _ => none

/-- A client calls. -/
def clientCall (s : State τ) (client : Nat) (phase : Client τ) : Option (State τ) :=
  match s.clients client with
  | .idle => some { s with clients := Function.update s.clients client phase }
  | _ => none

def next (heap : HeapOps τ) (s : State τ) : Action τ → Option (State τ)
  | .tick duration => some { s with now := s.now + duration }
  | .setTimeout timer milliseconds =>
      some (setTimer s timer { s.timers timer with timeoutMilliseconds := milliseconds })
  | .setCallback timer fn => some (setTimer s timer { s.timers timer with fn := fn })
  | .setRepeat timer repeats => some (setTimer s timer { s.timers timer with repeats := repeats })
  | .start client timer => clientCall s client (.startCalled timer)
  | .stop client timer => clientCall s client (.stopCalled timer)
  | .clientStep client => clientStep heap s client
  | .threadStep => threadStep heap s
  | .callbackStart timer => callbackStart s timer
  | .callbackStop timer => callbackStop heap s timer
  | .callbackReturn => callbackReturn s
  | .destroy => if s.thread = .looping then none else some { s with isDestroying := true }

end FreeDV.Util.ThreadedTimer
