import FreeDV.Util.UlogRing

/-!
# Asynchronous logging

Producers call `ulog_async_enqueue`, one thread calls `ulog_async_start` and
`ulog_async_stop`, the consumer thread drains the ring, and one thread calls
`ulog_async_flush`. A step is one access to memory the threads share, together
with what its thread computes from it. Ring positions are counters; that
`size_t` wraps is treated with the ring. The semaphore is left out: every wait
for it times out, so a waiting thread may go on at any time.

`call` numbers the calls of `ulog_async_enqueue`. It and the histories `calls`,
`emitted`, `droppedCalls`, `warnings` and `inside` are not read by the code.
-/

set_option autoImplicit false

namespace FreeDV.Util.UlogAsync

open FreeDV.Util.UlogRing

/-- The fields in front of the arguments, with the number of the call. -/
structure Header (η : Type) where
  call : Nat
  fields : η
deriving DecidableEq

/-- Where a call of `ulog_async_enqueue` is. -/
inductive Caller (η : Type) where
  | idle
  | loadReady (rec : Record (Header η))
  | serialized (rec : Record (Header η))
  | pushing (call : Nat)
  | countDropped (call : Nat)
  | signal
deriving DecidableEq

/-- Where a call of `drain` is. -/
inductive Drain (η : Type) where
  | popping
  | emitting (rec : Popped (Header η))
  | report

/-- Where `consumerMain` is. -/
inductive Consumer where
  | absent
  | loadRunning
  | draining (final : Bool)
  | markIdle
  | waiting
  | finished
deriving DecidableEq

/-- Where a call of `ulog_async_start` or `ulog_async_stop` is. -/
inductive Controller where
  | idle
  | startRunning
  | loadDropped
  | initSeq (i : Nat)
  | initEnqueuePos
  | initDequeuePos
  | initIdle
  | initReady
  | spawn
  | stopRunning
  | join
  | draining
  | clearReady
deriving DecidableEq

/-- Where a call of `ulog_async_flush` is, after `tries` rounds of its loop. It compares two
positions, which it loads in either order. -/
inductive Flusher where
  | idle
  | loadRunning
  | loadFirst (tries : Nat)
  | loadEnqueuePos (tries : Nat) (dequeuePos : Nat)
  | loadDequeuePos (tries : Nat) (enqueuePos : Nat)
  | loadIdle (tries : Nat)
  | notRunning
  | flushed
  | gaveUp
deriving DecidableEq

structure State (η : Type) where
  ring : Ring Nat (Header η)
  ready : Bool
  running : Bool
  consumerIdle : Bool
  dropped : Nat
  droppedReported : Nat
  callers : Nat → Caller η
  consumer : Consumer
  controller : Controller
  /-- The running call of `drain`, of the consumer or of `ulog_async_stop`. -/
  drain : Option (Drain η)
  flusher : Flusher
  /-- Thread and record of every call of `ulog_async_enqueue`. -/
  calls : List (Nat × Record η)
  /-- Records whose `emitRecord` has returned. -/
  emitted : List (Popped (Header η))
  /-- Calls that added to `g_dropped`. -/
  droppedCalls : List Nat
  /-- Numbers of dropped records reported by `drain`. -/
  warnings : List Nat
  /-- Threads inside `ringPush`. -/
  inside : List Nat
  /-- Calls of `ringPush` that had returned true when the last `ulog_async_flush` was called. -/
  acceptedBefore : List (Nat × Record (Header η))

variable {η : Type}

/-- The state of a process before `ulog_async_start`. -/
def State.initial (memory : Nat → Cell Nat (Header η)) : State η where
  ring := { Ring.initial memory with cells := memory }
  ready := false
  running := false
  consumerIdle := false
  dropped := 0
  droppedReported := 0
  callers _ := .idle
  consumer := .absent
  controller := .idle
  drain := none
  flusher := .idle
  calls := []
  emitted := []
  droppedCalls := []
  warnings := []
  inside := []
  acceptedBefore := []

def setCaller (s : State η) (thread : Nat) (phase : Caller η) : State η :=
  { s with callers := Function.update s.callers thread phase }

/-- The next access of `ulog_async_enqueue` in one thread. -/
def callerStep (s : State η) (thread : Nat) (spurious : Bool) : Option (State η) :=
  match s.callers thread with
  | .idle => none
  | .loadReady rec =>
      if s.ready then some (setCaller s thread (.serialized rec))
      else some (setCaller s thread (.countDropped rec.header.call))
  | .serialized rec =>
      some (setCaller
        { s with
          ring := setPusher s.ring thread (.loadPos rec), inside := thread :: s.inside }
        thread (.pushing rec.header.call))
  | .pushing call =>
      match pushStep s.ring thread spurious with
      | none => none
      | some ring =>
          let left := s.inside.filter (· ≠ thread)
          match ring.pushers thread with
          | .returned true =>
              some (setCaller { s with ring := ring, inside := left } thread .signal)
          | .returned false =>
              some (setCaller { s with ring := ring, inside := left } thread (.countDropped call))
          | _ => some { s with ring := ring }
  | .countDropped call =>
      some (setCaller
        { s with dropped := s.dropped + 1, droppedCalls := s.droppedCalls ++ [call] }
        thread .idle)
  | .signal => some (setCaller s thread .idle)

/-- The loop of `drain` calls `ringPop`. -/
def callPop (s : State η) : State η :=
  { s with ring := { s.ring with popper := .loadPos }, drain := some .popping }

/-- The next access of `drain`; `none` where it has returned. -/
def drainStep (s : State η) (spurious : Bool) : Option (State η) :=
  match s.drain with
  | none => none
  | some .popping =>
      match popStep s.ring spurious with
      | none => none
      | some ring =>
          match ring.popper with
          | .returned none => some { s with ring := ring, drain := some .report }
          | .returned (some rec) => some { s with ring := ring, drain := some (.emitting rec) }
          | _ => some { s with ring := ring }
  | some (.emitting rec) => some (callPop { s with emitted := s.emitted ++ [rec] })
  | some .report =>
      if s.dropped ≠ s.droppedReported then
        some { s with
          drain := none
          droppedReported := s.dropped
          warnings := s.warnings ++ [s.dropped - s.droppedReported] }
      else
        some { s with drain := none }

/-- The next access of `consumerMain`. -/
def consumerStep (s : State η) (spurious : Bool) : Option (State η) :=
  match s.consumer with
  | .absent => none
  | .loadRunning => some (callPop { s with consumer := .draining (!s.running) })
  | .draining final =>
      match s.drain with
      | some _ => drainStep s spurious
      | none => some { s with consumer := if final then .finished else .markIdle }
  | .markIdle => some { s with consumerIdle := true, consumer := .waiting }
  | .waiting => some { s with consumerIdle := false, consumer := .loadRunning }
  | .finished => none

/-- The next access of `ulog_async_start` or `ulog_async_stop`. The histories of the ring begin
anew when `ringInit` has reset its positions. -/
def controllerStep (s : State η) (spurious : Bool) : Option (State η) :=
  match s.controller with
  | .idle => none
  | .startRunning =>
      if s.running then some { s with controller := .idle }
      else some { s with running := true, controller := .loadDropped }
  | .loadDropped => some { s with droppedReported := s.dropped, controller := .initSeq 0 }
  | .initSeq i =>
      some { s with
        ring := { s.ring with cells := Function.update s.ring.cells i { s.ring.cells i with seq := i } }
        controller := if i + 1 < kQueueLen then .initSeq (i + 1) else .initEnqueuePos }
  | .initEnqueuePos =>
      some { s with ring := { s.ring with enqueuePos := 0 }, controller := .initDequeuePos }
  | .initDequeuePos =>
      some { s with
        ring := { s.ring with
          dequeuePos := 0, claims := [], published := [], accepted := [], popped := [] }
        controller := .initIdle }
  | .initIdle => some { s with consumerIdle := false, controller := .initReady }
  | .initReady => some { s with ready := true, controller := .spawn }
  | .spawn => some { s with consumer := .loadRunning, controller := .idle }
  | .stopRunning =>
      if s.running then some { s with running := false, controller := .join }
      else some { s with controller := .idle }
  | .join =>
      if s.consumer = .finished then
        some (callPop { s with consumer := .absent, controller := .draining })
      else none
  | .draining =>
      match s.drain with
      | some _ => drainStep s spurious
      | none => some { s with controller := .clearReady }
  | .clearReady => some { s with ready := false, controller := .idle }

/-- The next access of `ulog_async_flush`. -/
def flusherStep (s : State η) (enqueueFirst : Bool) : Option (State η) :=
  let again (tries : Nat) : Flusher := if tries + 1 < 2000 then .loadFirst (tries + 1) else .gaveUp
  match s.flusher with
  | .loadRunning =>
      some { s with flusher := if s.running then .loadFirst 0 else .notRunning }
  | .loadFirst tries =>
      some { s with
        flusher :=
          if enqueueFirst then .loadDequeuePos tries s.ring.enqueuePos
          else .loadEnqueuePos tries s.ring.dequeuePos }
  | .loadEnqueuePos tries dequeuePos =>
      some { s with
        flusher := if s.ring.enqueuePos = dequeuePos then .loadIdle tries else again tries }
  | .loadDequeuePos tries enqueuePos =>
      some { s with
        flusher := if enqueuePos = s.ring.dequeuePos then .loadIdle tries else again tries }
  | .loadIdle tries =>
      some { s with flusher := if s.consumerIdle then .flushed else again tries }
  | _ => none

inductive Action (η : Type) where
  | enqueue (thread : Nat) (rec : Record η)
  | callerStep (thread : Nat) (spurious : Bool)
  | consumerStep (spurious : Bool)
  | start
  | stop
  | controllerStep (spurious : Bool)
  | flush
  | flusherStep (enqueueFirst : Bool)

/-- Calls may be made whenever the previous one of the thread has returned. -/
def next (s : State η) : Action η → Option (State η)
  | .enqueue thread rec =>
      match s.callers thread with
      | .idle =>
          some (setCaller { s with calls := s.calls ++ [(thread, rec)] } thread
            (.loadReady ⟨⟨s.calls.length, rec.header⟩, rec.args⟩))
      | _ => none
  | .callerStep thread spurious => callerStep s thread spurious
  | .consumerStep spurious => consumerStep s spurious
  | .start => if s.controller = .idle then some { s with controller := .startRunning } else none
  | .stop => if s.controller = .idle then some { s with controller := .stopRunning } else none
  | .controllerStep spurious => controllerStep s spurious
  | .flush =>
      match s.flusher with
      | .idle | .notRunning | .flushed | .gaveUp =>
          some { s with flusher := .loadRunning, acceptedBefore := s.ring.accepted }
      | _ => none
  | .flusherStep enqueueFirst => flusherStep s enqueueFirst

end FreeDV.Util.UlogAsync
