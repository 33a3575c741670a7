import FreeDV.Util.UlogAsync
import FreeDV.Util.UlogRingRuns

/-!
# The steps of asynchronous logging

What each party can do, and the invariants of its control state that hold in
every run.
-/

set_option autoImplicit false

namespace FreeDV.Util.UlogAsync

open FreeDV.Util.UlogRing

variable {η : Type} {s s' : State η}

/-! ## What a step does -/

/-- The moves of `ulog_async_enqueue` in one thread. -/
inductive CallerMove (s : State η) (thread : Nat) : State η → Prop
  | passed {rec : Record (Header η)} (phase : s.callers thread = .loadReady rec)
      (ready : s.ready = true) : CallerMove s thread (setCaller s thread (.serialized rec))
  | unready {rec : Record (Header η)} (phase : s.callers thread = .loadReady rec)
      (ready : s.ready = false) :
      CallerMove s thread (setCaller s thread (.countDropped rec.header.call))
  | enter {rec : Record (Header η)} (phase : s.callers thread = .serialized rec) :
      CallerMove s thread (setCaller
        { s with
          ring := setPusher s.ring thread (.loadPos rec), inside := thread :: s.inside }
        thread (.pushing rec.header.call))
  | push {call : Nat} {ring : Ring Nat (Header η)} (phase : s.callers thread = .pushing call)
      (move : PushMove s.ring thread ring) (busy : ∀ ok, ring.pushers thread ≠ .returned ok) :
      CallerMove s thread { s with ring := ring }
  | accepted {call : Nat} {ring : Ring Nat (Header η)} (phase : s.callers thread = .pushing call)
      (move : PushMove s.ring thread ring) (returned : ring.pushers thread = .returned true) :
      CallerMove s thread (setCaller
        { s with ring := ring, inside := s.inside.filter (· ≠ thread) } thread .signal)
  | full {call : Nat} {ring : Ring Nat (Header η)} (phase : s.callers thread = .pushing call)
      (move : PushMove s.ring thread ring) (returned : ring.pushers thread = .returned false) :
      CallerMove s thread (setCaller
        { s with ring := ring, inside := s.inside.filter (· ≠ thread) } thread (.countDropped call))
  | counted {call : Nat} (phase : s.callers thread = .countDropped call) :
      CallerMove s thread (setCaller
        { s with dropped := s.dropped + 1, droppedCalls := s.droppedCalls ++ [call] }
        thread .idle)
  | signalled (phase : s.callers thread = .signal) :
      CallerMove s thread (setCaller s thread .idle)

/-- The moves of `drain`. -/
inductive DrainMove (s : State η) : State η → Prop
  | pop {ring : Ring Nat (Header η)} (phase : s.drain = some .popping)
      (move : PopMove s.ring ring) (busy : ∀ dst, ring.popper ≠ .returned dst) :
      DrainMove s { s with ring := ring, drain := some .popping }
  | popped {ring : Ring Nat (Header η)} {rec : Popped (Header η)} (phase : s.drain = some .popping)
      (move : PopMove s.ring ring) (returned : ring.popper = .returned (some rec)) :
      DrainMove s { s with ring := ring, drain := some (.emitting rec) }
  | empty {ring : Ring Nat (Header η)} (phase : s.drain = some .popping)
      (move : PopMove s.ring ring) (returned : ring.popper = .returned none) :
      DrainMove s { s with ring := ring, drain := some .report }
  | emitted {rec : Popped (Header η)} (phase : s.drain = some (.emitting rec)) :
      DrainMove s (callPop { s with emitted := s.emitted ++ [rec] })
  | reported {droppedReported : Nat} {warnings : List Nat} (phase : s.drain = some .report) :
      DrainMove s
        { s with drain := none, droppedReported := droppedReported, warnings := warnings }

/-- The moves of `consumerMain`. -/
inductive ConsumerMove (s : State η) : State η → Prop
  | loadRunning (phase : s.consumer = .loadRunning) :
      ConsumerMove s (callPop { s with consumer := .draining (!s.running) })
  | drain {final : Bool} {s' : State η} (phase : s.consumer = .draining final)
      (move : DrainMove s s') : ConsumerMove s s'
  | drained {final : Bool} (phase : s.consumer = .draining final) (done : s.drain = none) :
      ConsumerMove s { s with consumer := if final then .finished else .markIdle }
  | markIdle (phase : s.consumer = .markIdle) :
      ConsumerMove s { s with consumerIdle := true, consumer := .waiting }
  | wake (phase : s.consumer = .waiting) :
      ConsumerMove s { s with consumerIdle := false, consumer := .loadRunning }

/-- The moves of `ulog_async_start` and `ulog_async_stop`. -/
inductive ControllerMove (s : State η) : State η → Prop
  | startRefused (phase : s.controller = .startRunning) (running : s.running = true) :
      ControllerMove s { s with controller := .idle }
  | startRunning (phase : s.controller = .startRunning) (running : s.running = false) :
      ControllerMove s { s with running := true, controller := .loadDropped }
  | loadDropped (phase : s.controller = .loadDropped) :
      ControllerMove s { s with droppedReported := s.dropped, controller := .initSeq 0 }
  | initSeq {i : Nat} (phase : s.controller = .initSeq i) :
      ControllerMove s { s with
        ring := { s.ring with cells := Function.update s.ring.cells i { s.ring.cells i with seq := i } }
        controller := if i + 1 < kQueueLen then .initSeq (i + 1) else .initEnqueuePos }
  | initEnqueuePos (phase : s.controller = .initEnqueuePos) :
      ControllerMove s
        { s with ring := { s.ring with enqueuePos := 0 }, controller := .initDequeuePos }
  | initDequeuePos (phase : s.controller = .initDequeuePos) :
      ControllerMove s { s with
        ring := { s.ring with
          dequeuePos := 0, claims := [], published := [], accepted := [], popped := [] }
        controller := .initIdle }
  | initIdle (phase : s.controller = .initIdle) :
      ControllerMove s { s with consumerIdle := false, controller := .initReady }
  | initReady (phase : s.controller = .initReady) :
      ControllerMove s { s with ready := true, controller := .spawn }
  | spawn (phase : s.controller = .spawn) :
      ControllerMove s { s with consumer := .loadRunning, controller := .idle }
  | stopRunning (phase : s.controller = .stopRunning) (running : s.running = true) :
      ControllerMove s { s with running := false, controller := .join }
  | stopRefused (phase : s.controller = .stopRunning) (running : s.running = false) :
      ControllerMove s { s with controller := .idle }
  | join (phase : s.controller = .join) (finished : s.consumer = .finished) :
      ControllerMove s (callPop { s with consumer := .absent, controller := .draining })
  | drain {s' : State η} (phase : s.controller = .draining) (move : DrainMove s s') :
      ControllerMove s s'
  | drained (phase : s.controller = .draining) (done : s.drain = none) :
      ControllerMove s { s with controller := .clearReady }
  | clearReady (phase : s.controller = .clearReady) :
      ControllerMove s { s with ready := false, controller := .idle }

theorem callerStep_move {thread : Nat} {spurious : Bool}
    (step : callerStep s thread spurious = some s') : CallerMove s thread s' := by
  unfold callerStep at step
  cases phase : s.callers thread with
  | idle => simp [phase] at step
  | loadReady rec =>
      rw [phase] at step
      dsimp only at step
      split at step
      next ready =>
        cases step
        exact .passed phase ready
      next ready =>
        cases step
        exact .unready phase (by simpa using ready)
  | serialized rec =>
      rw [phase] at step
      cases step
      exact .enter phase
  | pushing call =>
      rw [phase] at step
      dsimp only at step
      cases pushed : pushStep s.ring thread spurious with
      | none => simp [pushed] at step
      | some ring =>
          rw [pushed] at step
          dsimp only at step
          split at step
          next returned =>
            cases step
            exact .accepted phase (pushStep_move pushed) returned
          next returned =>
            cases step
            exact .full phase (pushStep_move pushed) returned
          next accepted full =>
            cases step
            refine .push phase (pushStep_move pushed) ?_
            intro ok
            cases ok with
            | false => exact full
            | true => exact accepted
  | countDropped call =>
      rw [phase] at step
      cases step
      exact .counted phase
  | signal =>
      rw [phase] at step
      cases step
      exact .signalled phase

theorem drainStep_move {spurious : Bool} (step : drainStep s spurious = some s') :
    DrainMove s s' := by
  unfold drainStep at step
  cases phase : s.drain with
  | none => simp [phase] at step
  | some drain =>
      cases drain with
      | popping =>
          rw [phase] at step
          dsimp only at step
          cases popped : popStep s.ring spurious with
          | none => simp [popped] at step
          | some ring =>
              rw [popped] at step
              dsimp only at step
              split at step
              next returned =>
                cases step
                exact .empty phase (popStep_move popped) returned
              next rec returned =>
                cases step
                exact .popped phase (popStep_move popped) returned
              next empty some =>
                cases step
                refine .pop phase (popStep_move popped) ?_
                intro dst
                cases dst with
                | none => exact empty
                | some rec => exact some rec
      | emitting rec =>
          rw [phase] at step
          cases step
          exact .emitted phase
      | report =>
          rw [phase] at step
          dsimp only at step
          split at step
          · cases step
            exact .reported phase
          · cases step
            exact .reported phase

theorem consumerStep_move {spurious : Bool} (step : consumerStep s spurious = some s') :
    ConsumerMove s s' := by
  unfold consumerStep at step
  cases phase : s.consumer with
  | absent => simp [phase] at step
  | finished => simp [phase] at step
  | loadRunning =>
      rw [phase] at step
      cases step
      exact .loadRunning phase
  | draining final =>
      rw [phase] at step
      dsimp only at step
      split at step
      · exact .drain phase (drainStep_move step)
      · rename_i done
        cases step
        exact .drained phase done
  | markIdle =>
      rw [phase] at step
      cases step
      exact .markIdle phase
  | waiting =>
      rw [phase] at step
      cases step
      exact .wake phase

theorem controllerStep_move {spurious : Bool} (step : controllerStep s spurious = some s') :
    ControllerMove s s' := by
  unfold controllerStep at step
  cases phase : s.controller with
  | idle => simp [phase] at step
  | startRunning =>
      rw [phase] at step
      dsimp only at step
      split at step
      · rename_i running
        cases step
        exact .startRefused phase running
      · rename_i running
        cases step
        exact .startRunning phase (by simpa using running)
  | loadDropped =>
      rw [phase] at step
      cases step
      exact .loadDropped phase
  | initSeq i =>
      rw [phase] at step
      cases step
      exact .initSeq phase
  | initEnqueuePos =>
      rw [phase] at step
      cases step
      exact .initEnqueuePos phase
  | initDequeuePos =>
      rw [phase] at step
      cases step
      exact .initDequeuePos phase
  | initIdle =>
      rw [phase] at step
      cases step
      exact .initIdle phase
  | initReady =>
      rw [phase] at step
      cases step
      exact .initReady phase
  | spawn =>
      rw [phase] at step
      cases step
      exact .spawn phase
  | stopRunning =>
      rw [phase] at step
      dsimp only at step
      split at step
      · rename_i running
        cases step
        exact .stopRunning phase running
      · rename_i running
        cases step
        exact .stopRefused phase (by simpa using running)
  | join =>
      rw [phase] at step
      dsimp only at step
      split at step
      · rename_i finished
        cases step
        exact .join phase finished
      · cases step
  | draining =>
      rw [phase] at step
      dsimp only at step
      split at step
      · exact .drain phase (drainStep_move step)
      · rename_i done
        cases step
        exact .drained phase done
  | clearReady =>
      rw [phase] at step
      cases step
      exact .clearReady phase

/-! ## Control -/

/-- No call of `ringPop` is running. -/
def PopperQuiet (popper : Popper Nat (Header η)) : Prop :=
  popper = .idle ∨ ∃ dst, popper = .returned dst

/-- The flags and the consumer in each phase of the controlling thread. -/
def Stage (s : State η) : Prop :=
  match s.controller with
  | .idle | .startRunning | .stopRunning =>
      s.ready = s.running ∧ (s.running = true → s.consumer ≠ .absent) ∧
        (s.running = false → s.consumer = .absent)
  | .loadDropped | .initSeq _ | .initEnqueuePos | .initDequeuePos | .initIdle | .initReady =>
      s.running = true ∧ s.ready = false ∧ s.consumer = .absent
  | .spawn => s.running = true ∧ s.ready = true ∧ s.consumer = .absent
  | .join => s.running = false ∧ s.ready = true ∧ s.consumer ≠ .absent
  | .draining => s.running = false ∧ s.ready = true ∧ s.consumer = .absent
  | .clearReady => s.running = false ∧ s.ready = true ∧ s.consumer = .absent

structure ControlOk (s : State η) : Prop where
  stage : Stage s
  drain : s.drain = none ∨ (∃ final, s.consumer = .draining final) ∨ s.controller = .draining
  popper : s.drain = some .popping ∨ PopperQuiet s.ring.popper
  consumerIdle : s.consumerIdle = true → s.consumer = .waiting

theorem Stage.drainers_apart (stage : Stage s) (controller : s.controller = .draining) :
    s.consumer = .absent := by
  unfold Stage at stage
  rw [controller] at stage
  exact stage.2.2

theorem ControlOk.drainMove (ok : ControlOk s) (move : DrainMove s s') : ControlOk s' := by
  have running : s.drain ≠ none := by
    cases move <;> simp_all
  have owner := ok.drain.resolve_left running
  cases move with
  | pop phase pop busy => exact { ok with drain := .inr owner, popper := .inl rfl }
  | popped phase pop returned =>
      exact { ok with drain := .inr owner, popper := .inr (.inr ⟨_, returned⟩) }
  | empty phase pop returned =>
      exact { ok with drain := .inr owner, popper := .inr (.inr ⟨_, returned⟩) }
  | emitted phase => exact { ok with drain := .inr owner, popper := .inl rfl }
  | reported phase =>
      refine { ok with drain := .inl rfl, popper := .inr ?_ }
      exact ok.popper.resolve_left (by simp [phase])

theorem CallerMove.frame {thread : Nat} (move : CallerMove s thread s') :
    s'.ready = s.ready ∧ s'.running = s.running ∧ s'.consumerIdle = s.consumerIdle ∧
      s'.consumer = s.consumer ∧ s'.controller = s.controller ∧ s'.drain = s.drain ∧
      s'.ring.popper = s.ring.popper := by
  cases move with
  | passed phase ready => exact ⟨rfl, rfl, rfl, rfl, rfl, rfl, rfl⟩
  | unready phase ready => exact ⟨rfl, rfl, rfl, rfl, rfl, rfl, rfl⟩
  | enter phase => exact ⟨rfl, rfl, rfl, rfl, rfl, rfl, rfl⟩
  | push phase push busy =>
      refine ⟨rfl, rfl, rfl, rfl, rfl, rfl, ?_⟩
      cases push <;> rfl
  | accepted phase push returned =>
      refine ⟨rfl, rfl, rfl, rfl, rfl, rfl, ?_⟩
      cases push <;> rfl
  | full phase push returned =>
      refine ⟨rfl, rfl, rfl, rfl, rfl, rfl, ?_⟩
      cases push <;> rfl
  | counted phase => exact ⟨rfl, rfl, rfl, rfl, rfl, rfl, rfl⟩
  | signalled phase => exact ⟨rfl, rfl, rfl, rfl, rfl, rfl, rfl⟩

theorem ControlOk.callerMove (ok : ControlOk s) {thread : Nat} (move : CallerMove s thread s') :
    ControlOk s' := by
  obtain ⟨ready, running, consumerIdle, consumer, controller, drain, popper⟩ := move.frame
  refine { stage := ?_, drain := ?_, popper := ?_, consumerIdle := ?_ }
  · have stage := ok.stage
    unfold Stage at stage ⊢
    rw [ready, running, consumer, controller]
    exact stage
  · rw [drain, consumer, controller]
    exact ok.drain
  · rw [drain, popper]
    exact ok.popper
  · rw [consumerIdle, consumer]
    exact ok.consumerIdle

theorem Stage.consumer_phases (stage : Stage s) (present : s.consumer ≠ .absent) :
    (s.controller = .idle ∨ s.controller = .startRunning ∨ s.controller = .stopRunning ∨
      s.controller = .join) ∧ s.ready = true := by
  unfold Stage at stage
  cases controller : s.controller <;> simp_all

theorem Stage.setConsumer (stage : Stage s) (present : s.consumer ≠ .absent)
    (controller : s'.controller = s.controller) (ready : s'.ready = s.ready)
    (running : s'.running = s.running) (still : s'.consumer ≠ .absent) : Stage s' := by
  have phases := (stage.consumer_phases present).1
  unfold Stage at stage ⊢
  rw [controller, ready, running]
  rcases phases with phase | phase | phase | phase <;> simp_all

theorem ControlOk.consumerMove (ok : ControlOk s) (move : ConsumerMove s s') : ControlOk s' := by
  cases move with
  | loadRunning phase =>
      refine { stage := ?_, drain := .inr (.inl ⟨_, rfl⟩), popper := .inl rfl, consumerIdle := ?_ }
      · exact ok.stage.setConsumer (by simp [phase]) rfl rfl rfl (by simp [callPop])
      · intro idle
        have waiting := ok.consumerIdle idle
        rw [phase] at waiting
        cases waiting
  | drain phase drain => exact ok.drainMove drain
  | @drained final phase done =>
      refine { ok with stage := ?_, drain := .inl done, consumerIdle := ?_ }
      · refine ok.stage.setConsumer (by simp [phase]) rfl rfl rfl ?_
        cases final <;> simp
      · intro idle
        have waiting := ok.consumerIdle idle
        rw [phase] at waiting
        cases waiting
  | markIdle phase =>
      refine { ok with stage := ?_, drain := ?_, consumerIdle := fun _ => rfl }
      · exact ok.stage.setConsumer (by simp [phase]) rfl rfl rfl (by simp)
      · rcases ok.drain with done | ⟨final, draining⟩ | draining
        · exact .inl done
        · rw [phase] at draining
          cases draining
        · exact .inr (.inr draining)
  | wake phase =>
      refine { ok with stage := ?_, drain := ?_, consumerIdle := by simp }
      · exact ok.stage.setConsumer (by simp [phase]) rfl rfl rfl (by simp)
      · rcases ok.drain with done | ⟨final, draining⟩ | draining
        · exact .inl done
        · rw [phase] at draining
          cases draining
        · exact .inr (.inr draining)

theorem ControlOk.alone (ok : ControlOk s) (consumer : s.consumer = .absent)
    (elsewhere : s.controller ≠ .draining) : s.drain = none ∧ s.consumerIdle = false := by
  constructor
  · rcases ok.drain with done | ⟨final, draining⟩ | draining
    · exact done
    · rw [consumer] at draining
      cases draining
    · exact absurd draining elsewhere
  · by_contra idle
    have waiting := ok.consumerIdle (by simpa using idle)
    rw [consumer] at waiting
    cases waiting

theorem ControlOk.controllerMove (ok : ControlOk s) (move : ControllerMove s s') :
    ControlOk s' := by
  have stage := ok.stage
  have drain := ok.drain
  unfold Stage at stage
  cases move with
  | drain phase drain => exact ok.drainMove drain
  | join phase finished =>
      refine { stage := ?_, drain := .inr (.inr rfl), popper := .inl rfl, consumerIdle := ?_ }
      · simp_all [Stage, callPop]
      · intro idle
        have waiting := ok.consumerIdle idle
        rw [finished] at waiting
        cases waiting
  | @initSeq i phase =>
      refine { ok with stage := ?_, drain := by simp_all }
      rw [phase] at stage
      by_cases more : i + 1 < kQueueLen
      · simp only [Stage, if_pos more]
        exact stage
      · simp only [Stage, if_neg more]
        exact stage
  | spawn phase =>
      obtain ⟨done, idle⟩ := ok.alone (by simp_all) (by simp_all)
      refine { ok with stage := ?_, drain := .inl done, consumerIdle := by simp [idle] }
      simp_all [Stage]
  | startRefused phase running => exact { ok with stage := by simp_all [Stage], drain := by simp_all }
  | startRunning phase running => exact { ok with stage := by simp_all [Stage], drain := by simp_all }
  | loadDropped phase => exact { ok with stage := by simp_all [Stage], drain := by simp_all }
  | initEnqueuePos phase => exact { ok with stage := by simp_all [Stage], drain := by simp_all }
  | initDequeuePos phase => exact { ok with stage := by simp_all [Stage], drain := by simp_all }
  | initIdle phase =>
      exact { ok with
        stage := by simp_all [Stage], drain := by simp_all, consumerIdle := by simp }
  | initReady phase => exact { ok with stage := by simp_all [Stage], drain := by simp_all }
  | stopRunning phase running => exact { ok with stage := by simp_all [Stage], drain := by simp_all }
  | stopRefused phase running => exact { ok with stage := by simp_all [Stage], drain := by simp_all }
  | drained phase done => exact { ok with stage := by simp_all [Stage], drain := .inl done }
  | clearReady phase => exact { ok with stage := by simp_all [Stage], drain := by simp_all }

/-! ## Producers and the ring -/

/-- The record a call of `ringPush` works on. -/
def pushed : Pusher Nat (Header η) → Option (Record (Header η))
  | .idle => none
  | .loadPos src => some src
  | .loadSeq src _ => some src
  | .claim src _ => some src
  | .copyHeader src _ => some src
  | .copyArg src _ _ => some src
  | .publish src _ => some src
  | .returned _ => none

/-- A call of `ringPush` that has not yet claimed a position. -/
def unclaimed : Pusher Nat (Header η) → Bool
  | .loadPos _ => true
  | .loadSeq _ _ => true
  | .claim _ _ => true
  | _ => false

/-- What a step of `ringPush` on the record `src` means for its caller. -/
inductive PushEffect (r r' : Ring Nat (Header η)) (thread : Nat) (src : Record (Header η)) : Prop
  | kept (still : pushed (r'.pushers thread) = some src)
      (same : unclaimed (r'.pushers thread) = unclaimed (r.pushers thread))
      (claims : r'.claims = r.claims)
  | claimed (still : pushed (r'.pushers thread) = some src)
      (before : unclaimed (r.pushers thread) = true)
      (after : unclaimed (r'.pushers thread) = false)
      (claims : r'.claims = r.claims ++ [(thread, src)])
  | accepted (returned : r'.pushers thread = .returned true)
      (before : unclaimed (r.pushers thread) = false) (claims : r'.claims = r.claims)
  | full (returned : r'.pushers thread = .returned false)
      (before : unclaimed (r.pushers thread) = true) (claims : r'.claims = r.claims)

theorem pushMove_effect {r r' : Ring Nat (Header η)} {thread : Nat} (move : PushMove r thread r') :
    ∃ src, pushed (r.pushers thread) = some src ∧ PushEffect r r' thread src := by
  cases move with
  | @loadPos src phase =>
      exact ⟨src, by rw [phase]; rfl, .kept (by simp [setPusher, pushed])
        (by simp [setPusher, unclaimed, phase]) rfl⟩
  | @free src pos phase zero =>
      exact ⟨src, by rw [phase]; rfl, .kept (by simp [setPusher, pushed])
        (by simp [setPusher, unclaimed, phase]) rfl⟩
  | @full src pos phase negative =>
      exact ⟨src, by rw [phase]; rfl, .full (by simp [setPusher]) (by rw [phase]; rfl) rfl⟩
  | @retry src pos phase =>
      exact ⟨src, by rw [phase]; rfl, .kept (by simp [setPusher, pushed])
        (by simp [setPusher, unclaimed, phase]) rfl⟩
  | @claim src phase =>
      exact ⟨src, by rw [phase]; rfl, .claimed (by simp [setPusher, pushed])
        (by rw [phase]; rfl) (by simp [setPusher, unclaimed]) rfl⟩
  | @lost src pos phase =>
      exact ⟨src, by rw [phase]; rfl, .kept (by simp [setPusher, pushed])
        (by simp [setPusher, unclaimed, phase]) rfl⟩
  | @header src pos phase =>
      exact ⟨src, by rw [phase]; rfl, .kept (by simp [setPusher, pushed])
        (by simp [setPusher, unclaimed, phase]) rfl⟩
  | @arg src pos copied byte phase read =>
      exact ⟨src, by rw [phase]; rfl, .kept (by simp [setPusher, pushed])
        (by simp [setPusher, unclaimed, phase]) rfl⟩
  | @argLen src pos copied phase read =>
      exact ⟨src, by rw [phase]; rfl, .kept (by simp [setPusher, pushed])
        (by simp [setPusher, unclaimed, phase]) rfl⟩
  | @publish src pos phase =>
      exact ⟨src, by rw [phase]; rfl, .accepted (by simp [setPusher]) (by rw [phase]; rfl) rfl⟩

theorem pushMove_others {r r' : Ring Nat (Header η)} {thread : Nat} (move : PushMove r thread r') :
    r'.popped = r.popped ∧ ∀ other, other ≠ thread → r'.pushers other = r.pushers other := by
  cases move <;>
    exact ⟨rfl, fun other different => by simp [setPusher, Function.update_of_ne different]⟩

/-- The record of a call without its number. -/
def plain (rec : Record (Header η)) : Record η := ⟨rec.header.fields, rec.args⟩

/-- `rec` is the record of a call that `thread` has made. -/
def IsCall (s : State η) (thread : Nat) (rec : Record (Header η)) : Prop :=
  s.calls[rec.header.call]? = some (thread, plain rec)

def CallerOk (s : State η) (thread : Nat) : Caller η → Prop
  | .idle => pushed (s.ring.pushers thread) = none
  | .loadReady rec => pushed (s.ring.pushers thread) = none ∧ IsCall s thread rec
  | .serialized rec => pushed (s.ring.pushers thread) = none ∧ IsCall s thread rec
  | .pushing call => thread ∈ s.inside ∧ ∃ rec, pushed (s.ring.pushers thread) = some rec ∧
      rec.header.call = call ∧ IsCall s thread rec
  | .countDropped call => pushed (s.ring.pushers thread) = none ∧
      ∃ rec : Record (Header η), rec.header.call = call ∧ IsCall s thread rec
  | .signal => pushed (s.ring.pushers thread) = none

structure CallersOk (s : State η) : Prop where
  callers : ∀ thread, CallerOk s thread (s.callers thread)
  claims : ∀ entry ∈ s.ring.claims, IsCall s entry.1 entry.2

theorem IsCall.mono {thread : Nat} {rec : Record (Header η)} (call : IsCall s thread rec)
    (more : List (Nat × Record η)) (calls : s'.calls = s.calls ++ more) : IsCall s' thread rec := by
  unfold IsCall at call ⊢
  rw [calls, List.getElem?_append_left (List.getElem?_eq_some_iff.mp call).1, call]

theorem CallerOk.mono {thread : Nat} {phase : Caller η} (ok : CallerOk s thread phase)
    (pushers : s'.ring.pushers thread = s.ring.pushers thread)
    (inside : thread ∈ s.inside → thread ∈ s'.inside) (more : List (Nat × Record η))
    (calls : s'.calls = s.calls ++ more) : CallerOk s' thread phase := by
  cases phase with
  | idle =>
      rw [CallerOk, pushers]
      exact ok
  | signal =>
      rw [CallerOk, pushers]
      exact ok
  | loadReady rec =>
      rw [CallerOk, pushers]
      exact ⟨ok.1, ok.2.mono more calls⟩
  | serialized rec =>
      rw [CallerOk, pushers]
      exact ⟨ok.1, ok.2.mono more calls⟩
  | pushing call =>
      obtain ⟨member, rec, work, same, call⟩ := ok
      rw [CallerOk, pushers]
      exact ⟨inside member, rec, work, same, call.mono more calls⟩
  | countDropped call =>
      obtain ⟨done, rec, same, call⟩ := ok
      rw [CallerOk, pushers]
      exact ⟨done, rec, same, call.mono more calls⟩

theorem CallersOk.of_others (ok : CallersOk s) (thread : Nat)
    (callers : ∀ other, other ≠ thread → s'.callers other = s.callers other)
    (pushers : ∀ other, other ≠ thread → s'.ring.pushers other = s.ring.pushers other)
    (inside : ∀ other, other ≠ thread → other ∈ s.inside → other ∈ s'.inside)
    (more : List (Nat × Record η)) (calls : s'.calls = s.calls ++ more)
    (self : CallerOk s' thread (s'.callers thread))
    (claims : ∀ entry ∈ s'.ring.claims, entry ∈ s.ring.claims ∨ IsCall s' entry.1 entry.2) :
    CallersOk s' where
  callers other := by
    by_cases same : other = thread
    · rw [same]
      exact self
    · rw [callers other same]
      exact (ok.callers other).mono (pushers other same) (inside other same) more calls
  claims entry member := by
    rcases claims entry member with before | call
    · exact (ok.claims entry before).mono more calls
    · exact call

theorem setCaller_other {thread other : Nat} {phase : Caller η} (different : other ≠ thread) :
    (setCaller s thread phase).callers other = s.callers other :=
  Function.update_of_ne different _ _

@[simp] theorem setCaller_same {thread : Nat} {phase : Caller η} :
    (setCaller s thread phase).callers thread = phase :=
  Function.update_self _ _ _

theorem CallersOk.setCaller (ok : CallersOk s) {thread : Nat} {phase : Caller η} {dropped : Nat}
    {droppedCalls : List Nat} (valid : CallerOk s thread phase) :
    CallersOk (setCaller
      { s with dropped := dropped, droppedCalls := droppedCalls } thread phase) := by
  refine ok.of_others thread (fun other different => setCaller_other different) (fun _ _ => rfl)
    (fun _ _ member => member) [] (by simp [UlogAsync.setCaller]) ?_ (fun _ member => .inl member)
  rw [setCaller_same]
  exact valid.mono rfl id [] (by simp [UlogAsync.setCaller])

theorem CallersOk.callerMove (ok : CallersOk s) {thread : Nat} (move : CallerMove s thread s') :
    CallersOk s' := by
  have valid := ok.callers thread
  cases move with
  | passed phase ready =>
      rw [phase] at valid
      exact ok.setCaller valid
  | unready phase ready =>
      rw [phase] at valid
      exact ok.setCaller ⟨valid.1, _, rfl, valid.2⟩
  | counted phase =>
      rw [phase] at valid
      exact ok.setCaller valid.1
  | signalled phase =>
      rw [phase] at valid
      exact ok.setCaller valid
  | @enter rec phase =>
      rw [phase] at valid
      refine ok.of_others thread (fun other different => setCaller_other different) ?_ ?_ [] (by
        simp [UlogAsync.setCaller]) ?_ (fun _ member => .inl member)
      · intro other different
        simp [UlogAsync.setCaller, setPusher, Function.update_of_ne different]
      · intro other different member
        exact List.mem_cons_of_mem _ member
      · rw [setCaller_same]
        refine ⟨List.mem_cons_self, rec, ?_, rfl, valid.2⟩
        simp [UlogAsync.setCaller, setPusher, pushed]
  | @push call ring phase push busy =>
      obtain ⟨src, work, effect⟩ := pushMove_effect push
      obtain ⟨_, others⟩ := pushMove_others push
      rw [phase] at valid
      obtain ⟨member, rec, work', same, isCall⟩ := valid
      rw [work] at work'
      cases work'
      refine ok.of_others thread (fun _ _ => rfl) others (fun _ _ member => member) [] (by simp) ?_ ?_
      · rw [phase]
        cases effect with
        | kept still _ _ => exact ⟨member, src, still, same, isCall⟩
        | claimed still _ _ _ => exact ⟨member, src, still, same, isCall⟩
        | accepted returned _ _ => exact absurd returned (busy true)
        | full returned _ _ => exact absurd returned (busy false)
      · intro entry member
        cases effect with
        | kept _ _ claims => exact .inl (claims ▸ member)
        | claimed _ _ _ claims =>
            have member' : entry ∈ s.ring.claims ++ [(thread, src)] := claims ▸ member
            rcases List.mem_append.mp member' with before | last
            · exact .inl before
            · rw [List.mem_singleton.mp last]
              exact .inr isCall
        | accepted returned _ _ => exact absurd returned (busy true)
        | full returned _ _ => exact absurd returned (busy false)
  | @accepted call ring phase push returned =>
      obtain ⟨src, work, effect⟩ := pushMove_effect push
      obtain ⟨_, others⟩ := pushMove_others push
      refine ok.of_others thread (fun other different => setCaller_other different) others ?_ [] (by
        simp [UlogAsync.setCaller]) ?_ ?_
      · intro other different member
        exact List.mem_filter.mpr ⟨member, by simpa using different⟩
      · rw [setCaller_same]
        simp [CallerOk, UlogAsync.setCaller, returned, pushed]
      · intro entry member
        cases effect with
        | kept still _ _ => simp [returned, pushed] at still
        | claimed still _ _ _ => simp [returned, pushed] at still
        | accepted _ _ claims => exact .inl (claims ▸ member)
        | full _ _ claims => exact .inl (claims ▸ member)
  | @full call ring phase push returned =>
      obtain ⟨src, work, effect⟩ := pushMove_effect push
      obtain ⟨_, others⟩ := pushMove_others push
      rw [phase] at valid
      obtain ⟨_, rec, _, same, isCall⟩ := valid
      refine ok.of_others thread (fun other different => setCaller_other different) others ?_ [] (by
        simp [UlogAsync.setCaller]) ?_ ?_
      · intro other different member
        exact List.mem_filter.mpr ⟨member, by simpa using different⟩
      · rw [setCaller_same]
        refine ⟨?_, rec, same, isCall⟩
        simp [UlogAsync.setCaller, returned, pushed]
      · intro entry member
        cases effect with
        | kept still _ _ => simp [returned, pushed] at still
        | claimed still _ _ _ => simp [returned, pushed] at still
        | accepted _ _ claims => exact .inl (claims ▸ member)
        | full _ _ claims => exact .inl (claims ▸ member)

theorem CallersOk.frame (ok : CallersOk s) (callers : s'.callers = s.callers)
    (pushers : s'.ring.pushers = s.ring.pushers) (inside : s'.inside = s.inside)
    (calls : s'.calls = s.calls) (claims : ∀ entry ∈ s'.ring.claims, entry ∈ s.ring.claims) :
    CallersOk s' := by
  refine ok.of_others 0 (fun other _ => by rw [callers]) (fun other _ => by rw [pushers])
    (fun other _ member => inside ▸ member) [] (by simp [calls]) ?_
    (fun entry member => .inl (claims entry member))
  rw [callers]
  exact (ok.callers 0).mono (by rw [pushers]) (fun member => inside ▸ member) [] (by simp [calls])

theorem popMove_others {r r' : Ring Nat (Header η)} (move : PopMove r r') :
    r'.pushers = r.pushers ∧ r'.claims = r.claims ∧ r'.accepted = r.accepted ∧
      r'.enqueuePos = r.enqueuePos := by
  cases move <;> exact ⟨rfl, rfl, rfl, rfl⟩

theorem CallersOk.drainMove (ok : CallersOk s) (move : DrainMove s s') : CallersOk s' := by
  cases move with
  | pop phase pop busy =>
      obtain ⟨pushers, claims, _, _⟩ := popMove_others pop
      exact ok.frame rfl pushers rfl rfl (fun _ member => claims ▸ member)
  | popped phase pop returned =>
      obtain ⟨pushers, claims, _, _⟩ := popMove_others pop
      exact ok.frame rfl pushers rfl rfl (fun _ member => claims ▸ member)
  | empty phase pop returned =>
      obtain ⟨pushers, claims, _, _⟩ := popMove_others pop
      exact ok.frame rfl pushers rfl rfl (fun _ member => claims ▸ member)
  | emitted phase => exact ok.frame rfl rfl rfl rfl (fun _ member => member)
  | reported phase => exact ok.frame rfl rfl rfl rfl (fun _ member => member)

theorem CallersOk.consumerMove (ok : CallersOk s) (move : ConsumerMove s s') : CallersOk s' := by
  cases move with
  | loadRunning phase => exact ok.frame rfl rfl rfl rfl (fun _ member => member)
  | drain phase drain => exact ok.drainMove drain
  | drained phase done => exact ok.frame rfl rfl rfl rfl (fun _ member => member)
  | markIdle phase => exact ok.frame rfl rfl rfl rfl (fun _ member => member)
  | wake phase => exact ok.frame rfl rfl rfl rfl (fun _ member => member)

theorem CallersOk.controllerMove (ok : CallersOk s) (move : ControllerMove s s') :
    CallersOk s' := by
  cases move with
  | drain phase drain => exact ok.drainMove drain
  | initDequeuePos phase => exact ok.frame rfl rfl rfl rfl (fun _ member => by cases member)
  | startRefused phase running => exact ok.frame rfl rfl rfl rfl (fun _ member => member)
  | startRunning phase running => exact ok.frame rfl rfl rfl rfl (fun _ member => member)
  | loadDropped phase => exact ok.frame rfl rfl rfl rfl (fun _ member => member)
  | initSeq phase => exact ok.frame rfl rfl rfl rfl (fun _ member => member)
  | initEnqueuePos phase => exact ok.frame rfl rfl rfl rfl (fun _ member => member)
  | initIdle phase => exact ok.frame rfl rfl rfl rfl (fun _ member => member)
  | initReady phase => exact ok.frame rfl rfl rfl rfl (fun _ member => member)
  | spawn phase => exact ok.frame rfl rfl rfl rfl (fun _ member => member)
  | stopRunning phase running => exact ok.frame rfl rfl rfl rfl (fun _ member => member)
  | stopRefused phase running => exact ok.frame rfl rfl rfl rfl (fun _ member => member)
  | join phase finished => exact ok.frame rfl rfl rfl rfl (fun _ member => member)
  | drained phase done => exact ok.frame rfl rfl rfl rfl (fun _ member => member)
  | clearReady phase => exact ok.frame rfl rfl rfl rfl (fun _ member => member)

theorem CallersOk.enqueue (ok : CallersOk s) {thread : Nat} {rec : Record η}
    (phase : s.callers thread = .idle) :
    CallersOk (UlogAsync.setCaller { s with calls := s.calls ++ [(thread, rec)] } thread
      (.loadReady ⟨⟨s.calls.length, rec.header⟩, rec.args⟩)) := by
  have valid := ok.callers thread
  rw [phase] at valid
  refine ok.of_others thread (fun other different => setCaller_other different) (fun _ _ => rfl)
    (fun _ _ member => member) [(thread, rec)] rfl ?_ (fun _ member => .inl member)
  rw [setCaller_same]
  exact ⟨valid, by simp [IsCall, UlogAsync.setCaller, plain]⟩

end FreeDV.Util.UlogAsync
