import FreeDV.Util.UlogAsyncProperties

/-!
# Every log call is accounted for

A call that passed its check of `g_ringReady` may still push when
`ulog_async_stop` has made its last sweep; its record then stays in the ring.
In runs where this does not happen, every call is emitted or counted as dropped.
-/

set_option autoImplicit false

namespace FreeDV.Util.UlogAsync

open FreeDV.Lib FreeDV.Util.UlogRing

variable {η : Type} {s s' : State η}

/-! ## Clean stops -/

/-- From the end of the last sweep of `ulog_async_stop` until `ringInit` has run again, nobody
will pop what is pushed. -/
def closed (s : State η) : Bool :=
  match s.controller with
  | .clearReady => true
  | .draining =>
      match s.drain with
      | none => true
      | some .report => true
      | some .popping => false
      | some (.emitting _) => false
  | _ => !s.ready

/-- The running `ringPop` is about to find the ring empty. -/
def seesEmpty (ring : Ring Nat (Header η)) : Bool :=
  match ring.popper with
  | .loadSeq pos =>
      decide (Position.diff (ring.cells (Position.cell pos)).seq (Position.succ pos) < 0)
  | _ => false

/-- No call is inside `ringPush` when `ulog_async_stop` finds the ring empty, and none enters it
from then on until the ring is ready again. -/
def cleanStop (s : State η) : Action η → Bool
  | .callerStep thread _ =>
      match s.callers thread with
      | .serialized _ => !closed s
      | _ => true
  | .controllerStep _ =>
      if s.controller = .draining ∧ seesEmpty s.ring = true then s.inside.isEmpty else true
  | _ => true

/-! ## The ring across sessions -/

/-- How far `ringInit` has come. -/
def InitOk (s : State η) : Prop :=
  match s.controller with
  | .initSeq i => i < kQueueLen ∧ ∀ j < i, (s.ring.cells j).seq = j
  | .initEnqueuePos => ∀ j < kQueueLen, (s.ring.cells j).seq = j
  | .initDequeuePos => (∀ j < kQueueLen, (s.ring.cells j).seq = j) ∧ s.ring.enqueuePos = 0
  | _ => True

structure RingInv (s : State η) : Prop where
  live : s.ready = true ∨ s.controller = .initIdle ∨ s.controller = .initReady →
    RingOk s.ring ∧ CallsOk s.ring
  quiet : closed s = true → (∀ thread, pushed (s.ring.pushers thread) = none) ∧
    s.ring.claims.length = s.ring.popped.length
  init : InitOk s

theorem owned_of_pushed {phase : Pusher Nat (Header η)} (quiet : pushed phase = none) :
    phase.owned = none := by
  cases phase <;> simp_all [pushed, Pusher.owned]

theorem pending_of_pushed {phase : Pusher Nat (Header η)} (thread : Nat)
    (quiet : pushed phase = none) : phase.pending thread = [] := by
  cases phase <;> simp_all [pushed, Pusher.pending]

theorem ready_of_not_closed (control : ControlOk s) (unclosed : closed s = false) :
    s.ready = true := by
  have stage := control.stage
  unfold Stage at stage
  unfold closed at unclosed
  cases phase : s.controller <;> simp_all

theorem initOk_of_ready (control : ControlOk s) (ready : s.ready = true) : InitOk s := by
  have stage := control.stage
  unfold Stage at stage
  unfold InitOk
  cases phase : s.controller <;> simp_all

theorem RingInv.frame (inv : RingInv s) (ring : s'.ring = s.ring) (ready : s'.ready = s.ready)
    (controller : s'.controller = s.controller) (drain : s'.drain = s.drain) : RingInv s' := by
  have closedSame : closed s' = closed s := by
    unfold closed
    rw [ready, controller, drain]
  refine { live := ?_, quiet := ?_, init := ?_ }
  · rw [ring, ready, controller]
    exact inv.live
  · rw [closedSame, ring]
    exact inv.quiet
  · have init := inv.init
    unfold InitOk at init ⊢
    rw [controller, ring]
    exact init

theorem RingInv.of_open (inv : RingInv s) (control : ControlOk s') (unclosed : closed s = false)
    (controlBefore : ControlOk s) (still : closed s' = closed s) (ready : s'.ready = s.ready)
    (ring : RingOk s.ring → CallsOk s.ring → RingOk s'.ring ∧ CallsOk s'.ring) : RingInv s' := by
  have isReady := ready_of_not_closed controlBefore unclosed
  obtain ⟨ok, calls⟩ := inv.live (.inl isReady)
  refine { live := fun _ => ring ok calls, quiet := ?_, init := ?_ }
  · intro shut
    rw [still, unclosed] at shut
    cases shut
  · exact initOk_of_ready control (ready.trans isReady)

theorem RingInv.callerMove (inv : RingInv s) (control : ControlOk s) (callers : CallersOk s)
    {thread : Nat} (move : CallerMove s thread s')
    (clean : ∀ rec, s.callers thread = .serialized rec → closed s = false) : RingInv s' := by
  have control' := control.callerMove move
  obtain ⟨ready, _, _, _, controller, drain, _⟩ := move.frame
  have still : closed s' = closed s := by
    unfold closed
    rw [ready, controller, drain]
  have valid := callers.callers thread
  -- a producer inside `ringPush` keeps the ring open
  have opened : ∀ call, s.callers thread = .pushing call → closed s = false := by
    intro call phase
    rw [phase] at valid
    obtain ⟨_, rec, work, _⟩ := valid
    by_contra shut
    have quiet := (inv.quiet (by simpa using shut)).1 thread
    rw [work] at quiet
    cases quiet
  cases move with
  | passed phase _ => exact inv.frame rfl rfl rfl rfl
  | unready phase _ => exact inv.frame rfl rfl rfl rfl
  | counted phase => exact inv.frame rfl rfl rfl rfl
  | signalled phase => exact inv.frame rfl rfl rfl rfl
  | enter phase =>
      refine inv.of_open control' (clean _ phase) control still ready ?_
      intro ok calls
      rw [phase] at valid
      have same : ∀ rec : Record (Header η),
          (Pusher.loadPos rec : Pusher Nat (Header η)).pending thread =
            (s.ring.pushers thread).pending thread := by
        intro rec
        rw [pending_of_pushed thread valid.1]
        rfl
      exact ⟨ok.setPusher (owned_of_pushed valid.1) trivial, calls.setPusher (same _)⟩
  | push phase push busy =>
      refine inv.of_open control' (opened _ phase) control still ready ?_
      intro ok calls
      exact ⟨ok.pushMove push trivial, calls.pushMove ok push⟩
  | accepted phase push returned =>
      refine inv.of_open control' (opened _ phase) control still ready ?_
      intro ok calls
      exact ⟨ok.pushMove push trivial, calls.pushMove ok push⟩
  | full phase push returned =>
      refine inv.of_open control' (opened _ phase) control still ready ?_
      intro ok calls
      exact ⟨ok.pushMove push trivial, calls.pushMove ok push⟩

theorem RingOk.callPop {r : Ring Nat (Header η)} (ok : RingOk r) (quiet : PopperQuiet r.popper) :
    RingOk { r with popper := .loadPos } := by
  refine ok.setPopper ?_ trivial
  rcases quiet with idle | ⟨dst, returned⟩
  · rw [idle]
    rfl
  · rw [returned]
    rfl

/-- When nobody pushes and the front is not published, the ring is empty. -/
theorem RingOk.empty_of_quiet {r r' : Ring Nat (Header η)} (ok : RingOk r) (move : PopMove r r')
    (returned : r'.popper = .returned none)
    (quiet : ∀ thread, pushed (r.pushers thread) = none) : r.claims.length = r.popped.length := by
  cases move with
  | @empty pos phase negative =>
      have valid := ok.popper
      rw [phase] at valid
      have same : pos = Position.ofNat r.popped.length := valid
      subst same
      have unpublished : (Position.ofNat r.popped.length : Nat) ∉ r.published := by
        intro published
        have zero := ok.front_published.mpr published
        omega
      by_contra different
      have released := ok.popped_le
      obtain ⟨thread, owned⟩ := ok.owned r.popped.length (by omega) unpublished
      rw [owned_of_pushed (quiet thread)] at owned
      cases owned
  | _ => simp_all

theorem ready_of_drain (control : ControlOk s) {phase : Drain η} (drain : s.drain = some phase) :
    s.ready = true := by
  rcases control.drain with done | ⟨final, consumer⟩ | controller
  · rw [drain] at done
    cases done
  · exact (control.stage.consumer_phases (by simp [consumer])).2
  · have stage := control.stage
    unfold Stage at stage
    rw [controller] at stage
    exact stage.2.1

theorem controller_of_closed (shut : closed s = true) (ready : s.ready = true) :
    s.controller = .draining ∨ s.controller = .clearReady := by
  unfold closed at shut
  cases controller : s.controller <;> simp_all

theorem not_clearing_of_drain (control : ControlOk s) {phase : Drain η}
    (drain : s.drain = some phase) : s.controller ≠ .clearReady := by
  intro clearing
  have stage := control.stage
  unfold Stage at stage
  rw [clearing] at stage
  have done := (control.alone stage.2.2 (by simp [clearing])).1
  rw [drain] at done
  cases done

/-- While records are popped and emitted the ring is open. -/
theorem open_of_drain (control : ControlOk s) {phase : Drain η} (drain : s.drain = some phase)
    (sweeping : phase ≠ .report) : closed s = false := by
  by_contra shut
  have shut' : closed s = true := by simpa using shut
  rcases controller_of_closed shut' (ready_of_drain control drain) with draining | clearing
  · unfold closed at shut'
    rw [draining, drain] at shut'
    cases phase with
    | popping => cases shut'
    | emitting rec => cases shut'
    | report => exact sweeping rfl
  · exact not_clearing_of_drain control drain clearing

theorem RingInv.drainMove (inv : RingInv s) (control : ControlOk s) (move : DrainMove s s')
    (clean : s.controller = .draining → seesEmpty s.ring = true →
      ∀ thread, pushed (s.ring.pushers thread) = none) : RingInv s' := by
  have control' := control.drainMove move
  have ready : s.ready = true := by
    cases move with
    | pop phase _ _ => exact ready_of_drain control phase
    | popped phase _ _ => exact ready_of_drain control phase
    | empty phase _ _ => exact ready_of_drain control phase
    | emitted phase => exact ready_of_drain control phase
    | reported phase => exact ready_of_drain control phase
  obtain ⟨ok, calls⟩ := inv.live (.inl ready)
  cases move with
  | pop phase pop busy =>
      refine {
        live := fun _ => ⟨ok.popMove pop, calls.popMove pop⟩
        quiet := fun shut => ?_
        init := initOk_of_ready control' ready }
      rw [open_of_drain control' rfl (by simp)] at shut
      cases shut
  | popped phase pop returned =>
      refine {
        live := fun _ => ⟨ok.popMove pop, calls.popMove pop⟩
        quiet := fun shut => ?_
        init := initOk_of_ready control' ready }
      rw [open_of_drain control' rfl (by simp)] at shut
      cases shut
  | @empty ring phase pop returned =>
      refine {
        live := fun _ => ⟨ok.popMove pop, calls.popMove pop⟩
        quiet := fun shut => ?_
        init := initOk_of_ready control' ready }
      -- only the last sweep of `ulog_async_stop` closes the ring
      have controller : s.controller = .draining := by
        rcases controller_of_closed shut ready with draining | clearing
        · exact draining
        · exact absurd clearing (not_clearing_of_drain control' rfl)
      have emptySeen : seesEmpty s.ring = true ∧ ring.popped = s.ring.popped := by
        cases pop with
        | empty poll negative =>
            refine ⟨?_, rfl⟩
            simp only [seesEmpty, poll]
            exact decide_eq_true negative
        | _ => simp_all
      have quiet := clean controller emptySeen.1
      obtain ⟨pushers, claims, _, _⟩ := popMove_others pop
      refine ⟨?_, ?_⟩
      · intro thread
        simp only [pushers]
        exact quiet thread
      · simp only [claims, emptySeen.2]
        exact RingOk.empty_of_quiet ok pop returned quiet
  | emitted phase =>
      have popperQuiet := control.popper.resolve_left (by simp [phase])
      refine {
        live := fun _ => ⟨RingOk.callPop ok popperQuiet, { calls with }⟩
        quiet := fun shut => ?_
        init := initOk_of_ready control' ready }
      rw [open_of_drain control' rfl (by simp)] at shut
      cases shut
  | reported phase =>
      refine {
        live := fun _ => ⟨ok, calls⟩
        quiet := fun shut => inv.quiet ?_
        init := initOk_of_ready control' ready }
      unfold closed at shut ⊢
      rw [phase]
      cases controller : s.controller <;> simp_all

theorem RingInv.consumerMove (inv : RingInv s) (control : ControlOk s) (move : ConsumerMove s s') :
    RingInv s' := by
  cases move with
  | loadRunning phase =>
      obtain ⟨phases, ready⟩ := control.stage.consumer_phases (by simp [phase])
      have elsewhere : s.drain = none := by
        have owner := control.drain
        rcases phases with idle | start | stop | join <;> simp_all
      have popperQuiet := control.popper.resolve_left (by simp [elsewhere])
      have control' := control.consumerMove (.loadRunning phase)
      obtain ⟨ok, calls⟩ := inv.live (.inl ready)
      refine {
        live := fun _ => ⟨RingOk.callPop ok popperQuiet, { calls with }⟩
        quiet := fun shut => ?_
        init := initOk_of_ready control' ready }
      rw [open_of_drain control' rfl (by simp)] at shut
      cases shut
  | drain phase drain =>
      refine inv.drainMove control drain ?_
      intro controller
      rw [control.stage.drainers_apart controller] at phase
      cases phase
  | drained phase done => exact inv.frame rfl rfl rfl rfl
  | markIdle phase => exact inv.frame rfl rfl rfl rfl
  | wake phase => exact inv.frame rfl rfl rfl rfl

theorem RingInv.of_controller (inv : RingInv s) (ring : s'.ring = s.ring)
    (live : s'.ready = true ∨ s'.controller = .initIdle ∨ s'.controller = .initReady →
      s.ready = true ∨ s.controller = .initIdle ∨ s.controller = .initReady)
    (shut : closed s' = true → closed s = true) (init : InitOk s') : RingInv s' := by
  refine { live := ?_, quiet := ?_, init := init }
  · intro now
    rw [ring]
    exact inv.live (live now)
  · intro now
    rw [ring]
    exact inv.quiet (shut now)

theorem RingOk.of_init {r : Ring Nat (Header η)} (seqs : ∀ j < kQueueLen, (r.cells j).seq = j)
    (enqueuePos : r.enqueuePos = 0) (quiet : ∀ thread, pushed (r.pushers thread) = none)
    (popper : PopperQuiet r.popper) :
    RingOk { r with
      dequeuePos := 0, claims := [], published := [], accepted := [], popped := [] } where
  fits := trivial
  enqueuePos := enqueuePos
  dequeuePos := by
    rcases popper with idle | ⟨dst, returned⟩
    · simp [idle, Popper.held, Position.ofNat]
    · simp [returned, Popper.held, Position.ofNat]
  bound := by simp
  published_lt := by simp
  released := by simp
  seq_published := by simp
  seq_free p _ high _ := by
    have inside : p % kQueueLen = p := Nat.mod_eq_of_lt (by simpa using high)
    simp only [inside]
    exact seqs p (by simpa using high)
  content := by simp
  owned := by simp
  pushers thread := by
    have done := quiet thread
    cases phase : r.pushers thread <;> simp_all [pushed, PusherOk]
  popper := by
    rcases popper with idle | ⟨dst, returned⟩
    · simp [idle, PopperOk]
    · simp [returned, PopperOk]
  popped := by simp

theorem RingInv.controllerMove (inv : RingInv s) (control : ControlOk s)
    (move : ControllerMove s s')
    (clean : s.controller = .draining → seesEmpty s.ring = true →
      ∀ thread, pushed (s.ring.pushers thread) = none) : RingInv s' := by
  have control' := control.controllerMove move
  have stage := control.stage
  unfold Stage at stage
  have init := inv.init
  unfold InitOk at init
  cases move with
  | drain phase drain => exact inv.drainMove control drain clean
  | startRefused phase running =>
      rw [phase] at stage
      exact inv.of_controller rfl (by simp_all) (by simp [closed, stage.1, running]) trivial
  | startRunning phase running =>
      rw [phase] at stage
      exact inv.of_controller rfl (by simp_all) (by simp [closed, phase]) trivial
  | loadDropped phase =>
      exact inv.of_controller rfl (by simp_all) (by simp [closed, phase])
        ⟨by decide, fun j before => by cases before⟩
  | @initSeq i phase =>
      rw [phase] at stage init
      have shut : closed s = true := by simp [closed, phase, stage.2.1]
      have seqs : ∀ j < i + 1, (Function.update s.ring.cells i
          { s.ring.cells i with seq := i } j).seq = j := by
        intro j before
        by_cases same : j = i
        · subst same
          simp
        · rw [Function.update_of_ne same]
          exact init.2 j (by omega)
      refine { live := ?_, quiet := fun _ => inv.quiet shut, init := ?_ }
      · intro now
        by_cases more : i + 1 < kQueueLen
        · simp [if_pos more, stage.2.1] at now
        · simp [if_neg more, stage.2.1] at now
      · by_cases more : i + 1 < kQueueLen
        · simp only [InitOk, if_pos more]
          exact ⟨more, seqs⟩
        · simp only [InitOk, if_neg more]
          intro j before
          exact seqs j (by omega)
  | initEnqueuePos phase =>
      rw [phase] at stage init
      have shut : closed s = true := by simp [closed, phase, stage.2.1]
      exact { live := by simp [stage.2.1], quiet := fun _ => inv.quiet shut, init := ⟨init, rfl⟩ }
  | initDequeuePos phase =>
      rw [phase] at stage init
      have shut : closed s = true := by simp [closed, phase, stage.2.1]
      have quiet := (inv.quiet shut).1
      have done := (control.alone stage.2.2 (by simp [phase])).1
      have popper := control.popper.resolve_left (by simp [done])
      refine { live := fun _ => ⟨RingOk.of_init init.1 init.2 quiet popper, ?_⟩, quiet := ?_,
               init := trivial }
      · exact {
          accepted := .nil, once := List.nodup_nil,
          threads := fun thread => by
            simp only [pending_of_pushed thread (quiet thread)]
            rfl }
      · exact fun _ => ⟨quiet, rfl⟩
  | initIdle phase =>
      rw [phase] at stage
      exact inv.of_controller rfl (by simp_all) (by simp [closed, phase]) trivial
  | initReady phase =>
      exact inv.of_controller rfl (by simp_all) (by simp [closed]) trivial
  | spawn phase =>
      rw [phase] at stage
      exact inv.of_controller rfl (by simp_all) (by simp [closed, stage.2.1]) trivial
  | stopRunning phase running =>
      rw [phase] at stage
      exact inv.of_controller rfl (by simp_all) (by simp [closed, stage.1, running]) trivial
  | stopRefused phase running =>
      rw [phase] at stage
      exact inv.of_controller rfl (by simp_all) (by simp [closed, phase]) trivial
  | join phase finished =>
      rw [phase] at stage
      have ready : s.ready = true := stage.2.1
      have done : s.drain = none := by
        have owner := control.drain
        simp_all
      have popper := control.popper.resolve_left (by simp [done])
      obtain ⟨ok, calls⟩ := inv.live (.inl ready)
      refine {
        live := fun _ => ⟨RingOk.callPop ok popper, { calls with }⟩
        quiet := fun shut => ?_
        init := initOk_of_ready control' ready }
      rw [open_of_drain control' rfl (by simp)] at shut
      cases shut
  | drained phase done =>
      exact inv.of_controller rfl (by simp_all) (by simp [closed, phase, done]) trivial
  | clearReady phase =>
      exact inv.of_controller rfl (by simp_all) (by simp [closed, phase]) trivial

/-! ## Where a call is -/

/-- The call a thread has still to push or to count. -/
def held (s : State η) (thread : Nat) : Option Nat :=
  match s.callers thread with
  | .idle => none
  | .loadReady rec => some rec.header.call
  | .serialized rec => some rec.header.call
  | .pushing call => if unclaimed (s.ring.pushers thread) then some call else none
  | .countDropped call => some call
  | .signal => none

/-- The calls whose records are in the ring. -/
def ringCalls (ring : Ring Nat (Header η)) : List Nat :=
  (ring.claims.drop ring.popped.length).map fun entry => entry.2.header.call

/-- The call whose record is being emitted. -/
def drainCalls : Option (Drain η) → List Nat
  | some (.emitting rec) => [rec.header.call]
  | _ => []

def emittedCalls (s : State η) : List Nat := s.emitted.map fun rec => rec.header.call

/-- How often a call is emitted, dropped or on the way from the ring to the output. -/
def settled (s : State η) (call : Nat) : Nat :=
  (emittedCalls s).count call + (drainCalls s.drain).count call + s.droppedCalls.count call +
    (ringCalls s.ring).count call

/-- `dst` is the record of some call. -/
def IsRecord (s : State η) (dst : Popped (Header η)) : Prop :=
  dst.argLen = dst.args.length ∧
    ∃ thread, s.calls[dst.header.call]? = some (thread, ⟨dst.header.fields, dst.args⟩)

structure AccountOk (s : State η) : Prop where
  once : ∀ (call thread : Nat) (rec : Record η), s.calls[call]? = some (thread, rec) →
    settled s call = if held s thread = some call then 0 else 1
  fresh : ∀ call, s.calls.length ≤ call → settled s call = 0
  emitted : ∀ dst ∈ s.emitted, IsRecord s dst
  emitting : ∀ dst, s.drain = some (.emitting dst) → IsRecord s dst
  dropped : s.dropped = s.droppedCalls.length

theorem AccountOk.keep (ok : AccountOk s) (calls : s'.calls = s.calls)
    (same : ∀ call, settled s' call = settled s call) (holders : ∀ thread, held s' thread = held s thread)
    (emitted : ∀ dst ∈ s'.emitted, IsRecord s dst)
    (emitting : ∀ dst, s'.drain = some (.emitting dst) → IsRecord s dst)
    (dropped : s'.dropped = s'.droppedCalls.length) : AccountOk s' := by
  refine { once := ?_, fresh := ?_, emitted := ?_, emitting := ?_, dropped := dropped }
  · intro call thread rec made
    rw [same, holders]
    exact ok.once call thread rec (calls ▸ made)
  · intro call beyond
    rw [same]
    exact ok.fresh call (calls ▸ beyond)
  · intro dst member
    unfold IsRecord
    rw [calls]
    exact emitted dst member
  · intro dst phase
    unfold IsRecord
    rw [calls]
    exact emitting dst phase

theorem AccountOk.settle (ok : AccountOk s) (calls : s'.calls = s.calls) {thread call : Nat}
    {rec : Record η} (made : s.calls[call]? = some (thread, rec))
    (before : held s thread = some call) (after : held s' thread = none)
    (others : ∀ other, other ≠ thread → held s' other = held s other)
    (added : ∀ other, settled s' other = settled s other + if other = call then 1 else 0)
    (emitted : s'.emitted = s.emitted) (drain : s'.drain = s.drain)
    (dropped : s'.dropped = s'.droppedCalls.length) : AccountOk s' := by
  refine { once := ?_, fresh := ?_, emitted := ?_, emitting := ?_, dropped := dropped }
  · intro other holder rec' made'
    rw [calls] at made'
    rw [added]
    have old := ok.once other holder rec' made'
    by_cases same : other = call
    · subst same
      rw [made] at made'
      cases made'
      rw [if_pos before] at old
      simp [old, after]
    · by_cases self : holder = thread
      · subst self
        have different : held s holder ≠ some other := by
          rw [before]
          simpa using Ne.symm same
        rw [if_neg different] at old
        simp [old, after, same]
      · simp [others holder self, old, same]
  · intro other beyond
    rw [calls] at beyond
    have known := (List.getElem?_eq_some_iff.mp made).1
    rw [added, ok.fresh other beyond, if_neg (by omega)]
  · rw [emitted]
    unfold IsRecord
    rw [calls]
    exact ok.emitted
  · rw [drain]
    unfold IsRecord
    rw [calls]
    exact ok.emitting

private theorem count_single (call other : Nat) :
    [call].count other = if other = call then 1 else 0 := by
  rw [List.count_singleton]
  by_cases same : other = call
  · simp [same]
  · simp [same, Ne.symm same]

theorem held_congr {thread : Nat} (callers : s'.callers thread = s.callers thread)
    (pushers : s'.ring.pushers thread = s.ring.pushers thread) :
    held s' thread = held s thread := by
  unfold held
  rw [callers, pushers]

theorem AccountOk.callerKeep (ok : AccountOk s) {thread : Nat} {phase : Caller η}
    {ring : Ring Nat (Header η)} {inside : List Nat}
    (others : ∀ other, other ≠ thread → ring.pushers other = s.ring.pushers other)
    (claims : ring.claims = s.ring.claims) (popped : ring.popped = s.ring.popped)
    (same : held (setCaller { s with ring := ring, inside := inside } thread phase) thread =
      held s thread) :
    AccountOk (setCaller { s with ring := ring, inside := inside } thread phase) := by
  refine ok.keep rfl ?_ ?_ ok.emitted ok.emitting ok.dropped
  · intro call
    simp only [settled, emittedCalls, setCaller, ringCalls, claims, popped]
  · intro other
    by_cases self : other = thread
    · rw [self]
      exact same
    · exact held_congr (setCaller_other self) (others other self)

theorem AccountOk.callerMove (ok : AccountOk s) (callers : CallersOk s) (ring : s.ready = true → RingOk s.ring)
    {thread : Nat} (move : CallerMove s thread s')
    (opened : ∀ call, s.callers thread = .pushing call → s.ready = true) : AccountOk s' := by
  have valid := callers.callers thread
  cases move with
  | passed phase ready =>
      refine ok.callerKeep (fun _ _ => rfl) rfl rfl ?_
      simp [held, phase]
  | unready phase ready =>
      refine ok.callerKeep (fun _ _ => rfl) rfl rfl ?_
      simp [held, phase]
  | signalled phase =>
      refine ok.callerKeep (fun _ _ => rfl) rfl rfl ?_
      simp [held, phase]
  | enter phase =>
      refine ok.callerKeep ?_ rfl rfl ?_
      · intro other different
        simp [setPusher, Function.update_of_ne different]
      · simp [held, phase, setCaller, setPusher, unclaimed]
  | @counted call phase =>
      rw [phase] at valid
      obtain ⟨_, rec, rfl, made⟩ := valid
      refine ok.settle rfl made (by simp [held, phase]) (by simp [held]) ?_ ?_ rfl rfl ?_
      · intro other different
        exact held_congr (setCaller_other different) rfl
      · intro other
        simp only [settled, emittedCalls, setCaller, List.count_append, count_single]
        omega
      · simp [setCaller, ok.dropped]
  | @push call ring' phase push busy =>
      obtain ⟨src, work, effect⟩ := pushMove_effect push
      obtain ⟨popped, others⟩ := pushMove_others push
      rw [phase] at valid
      obtain ⟨_, rec, work', same, made⟩ := valid
      rw [work] at work'
      cases work'
      cases effect with
      | accepted returned _ _ => exact absurd returned (busy true)
      | full returned _ _ => exact absurd returned (busy false)
      | kept still unclaimedSame claims =>
          refine ok.keep rfl ?_ ?_ ok.emitted ok.emitting ok.dropped
          · intro call
            simp only [settled, emittedCalls, ringCalls, claims, popped]
          · intro other
            by_cases self : other = thread
            · subst self
              simp only [held, phase, unclaimedSame]
            · exact held_congr rfl (others other self)
      | claimed still before after claims =>
          subst same
          refine ok.settle rfl made (by simp [held, phase, before]) (by simp [held, phase, after])
            (fun other different => held_congr rfl (others other different)) ?_ rfl rfl ok.dropped
          intro other
          have released := (ring (opened _ phase)).popped_le
          simp only [settled, emittedCalls, ringCalls, claims, popped,
            List.drop_append_of_le_length released, List.map_append, List.map_cons, List.map_nil,
            List.count_append, count_single]
          omega
  | @accepted call ring' phase push returned =>
      obtain ⟨src, work, effect⟩ := pushMove_effect push
      obtain ⟨popped, others⟩ := pushMove_others push
      cases effect with
      | kept still _ _ => simp [returned, pushed] at still
      | claimed still _ _ _ => simp [returned, pushed] at still
      | full refused _ _ => simp [returned] at refused
      | accepted _ before claims =>
          refine ok.callerKeep others claims popped ?_
          simp [held, phase, before]
  | @full call ring' phase push returned =>
      obtain ⟨src, work, effect⟩ := pushMove_effect push
      obtain ⟨popped, others⟩ := pushMove_others push
      cases effect with
      | kept still _ _ => simp [returned, pushed] at still
      | claimed still _ _ _ => simp [returned, pushed] at still
      | accepted accepted _ _ => simp [returned] at accepted
      | full _ before claims =>
          refine ok.callerKeep others claims popped ?_
          simp [held, phase, before]

/-- What a step of `ringPop` takes out of the ring. -/
theorem popMove_calls {r r' : Ring Nat (Header η)} (ok : RingOk r) (move : PopMove r r') :
    ((∀ dst, r'.popper ≠ .returned (some dst)) ∧ ringCalls r' = ringCalls r) ∨
      ∃ dst, r'.popper = .returned (some dst) ∧ ringCalls r = dst.header.call :: ringCalls r' ∧
        ∃ entry ∈ r.claims, dst.Agrees entry.2 := by
  cases move with
  | @release pos dst phase =>
      refine .inr ⟨dst, rfl, ?_⟩
      have valid := ok.popper
      rw [phase] at valid
      obtain ⟨pops, agrees⟩ := valid
      obtain ⟨entry, claimed, _⟩ := ok.front pops
      have inside := (List.getElem?_eq_some_iff.mp claimed).1
      have is := (List.getElem?_eq_some_iff.mp claimed).2
      refine ⟨?_, entry, List.mem_of_getElem? claimed, agrees entry claimed⟩
      simp only [ringCalls, List.length_append, List.length_singleton]
      rw [List.drop_eq_getElem_cons inside, List.map_cons, is, (agrees entry claimed).header]
  | loadPos phase => exact .inl ⟨by simp, rfl⟩
  | ready phase zero => exact .inl ⟨by simp, rfl⟩
  | empty phase negative => exact .inl ⟨by simp, rfl⟩
  | retry phase => exact .inl ⟨by simp, rfl⟩
  | claim phase => exact .inl ⟨by simp, rfl⟩
  | lost phase => exact .inl ⟨by simp, rfl⟩
  | argLen phase => exact .inl ⟨by simp, rfl⟩
  | header phase => exact .inl ⟨by simp, rfl⟩
  | arg phase more => exact .inl ⟨by simp, rfl⟩
  | copied phase done => exact .inl ⟨by simp, rfl⟩

theorem AccountOk.drainMove (ok : AccountOk s) (callers : CallersOk s) (ring : RingOk s.ring)
    (move : DrainMove s s') : AccountOk s' := by
  cases move with
  | @pop ring' phase pop busy =>
      obtain ⟨pushers, _, _, _⟩ := popMove_others pop
      rcases popMove_calls ring pop with ⟨_, same⟩ | ⟨dst, returned, _⟩
      · refine ok.keep rfl ?_ (fun thread => held_congr rfl (congrFun pushers thread)) ok.emitted
          (by simp) ok.dropped
        intro call
        simp only [settled, emittedCalls, phase, same]
      · exact absurd returned (busy _)
  | @popped ring' rec phase pop returned =>
      obtain ⟨pushers, _, _, _⟩ := popMove_others pop
      rcases popMove_calls ring pop with ⟨none, _⟩ | ⟨dst, returned', taken, entry, member, agrees⟩
      · exact absurd returned (none rec)
      · rw [returned] at returned'
        cases returned'
        refine ok.keep rfl ?_ (fun thread => held_congr rfl (congrFun pushers thread)) ok.emitted ?_
          ok.dropped
        · intro call
          simp only [settled, emittedCalls, phase, taken, drainCalls, List.count_cons,
            List.count_nil]
          omega
        · intro dst phase'
          cases phase'
          have made := callers.claims entry member
          unfold IsCall at made
          refine ⟨by rw [agrees.argLen, agrees.args], entry.1, ?_⟩
          rw [agrees.header, agrees.args]
          exact made
  | @empty ring' phase pop returned =>
      obtain ⟨pushers, _, _, _⟩ := popMove_others pop
      rcases popMove_calls ring pop with ⟨_, same⟩ | ⟨dst, returned', _⟩
      · refine ok.keep rfl ?_ (fun thread => held_congr rfl (congrFun pushers thread)) ok.emitted
          (by simp) ok.dropped
        intro call
        simp only [settled, emittedCalls, phase, same, drainCalls]
      · rw [returned] at returned'
        cases returned'
  | @emitted rec phase =>
      refine ok.keep rfl ?_ (fun _ => rfl) ?_ (by simp [callPop]) ok.dropped
      · intro call
        simp only [settled, emittedCalls, phase, callPop, drainCalls, ringCalls, List.map_append,
          List.map_cons, List.map_nil, List.count_append, List.count_nil]
        omega
      · intro dst member
        rcases List.mem_append.mp member with before | last
        · exact ok.emitted dst before
        · rw [List.mem_singleton.mp last]
          exact ok.emitting rec phase
  | reported phase =>
      refine ok.keep rfl ?_ (fun _ => rfl) ok.emitted (by simp) ok.dropped
      intro call
      simp only [settled, emittedCalls, phase, drainCalls]

theorem AccountOk.consumerMove (ok : AccountOk s) (control : ControlOk s) (callers : CallersOk s)
    (ring : s.ready = true → RingOk s.ring) (move : ConsumerMove s s') : AccountOk s' := by
  cases move with
  | loadRunning phase =>
      refine ok.keep rfl ?_ (fun _ => rfl) ok.emitted (by simp [callPop]) ok.dropped
      intro call
      have phases := (control.stage.consumer_phases (by simp [phase])).1
      have done : s.drain = none := by
        have owner := control.drain
        rcases phases with idle | start | stop | join <;> simp_all
      simp only [settled, emittedCalls, callPop, ringCalls, done, drainCalls]
  | drain phase drain =>
      have ready := (control.stage.consumer_phases (by simp [phase])).2
      exact ok.drainMove callers (ring ready) drain
  | drained phase done =>
      exact ok.keep rfl (fun _ => rfl) (fun _ => rfl) ok.emitted ok.emitting ok.dropped
  | markIdle phase =>
      exact ok.keep rfl (fun _ => rfl) (fun _ => rfl) ok.emitted ok.emitting ok.dropped
  | wake phase =>
      exact ok.keep rfl (fun _ => rfl) (fun _ => rfl) ok.emitted ok.emitting ok.dropped

theorem AccountOk.frame (ok : AccountOk s) (calls : s'.calls = s.calls)
    (callers : s'.callers = s.callers) (pushers : s'.ring.pushers = s.ring.pushers)
    (ring : ringCalls s'.ring = ringCalls s.ring) (drain : s'.drain = s.drain)
    (emitted : s'.emitted = s.emitted) (dropped : s'.dropped = s.dropped)
    (droppedCalls : s'.droppedCalls = s.droppedCalls) : AccountOk s' := by
  refine ok.keep calls ?_ (fun thread => held_congr (congrFun callers thread) (congrFun pushers thread))
    ?_ ?_ ?_
  · intro call
    simp only [settled, emittedCalls, ring, drain, emitted, droppedCalls]
  · rw [emitted]
    exact ok.emitted
  · rw [drain]
    exact ok.emitting
  · rw [dropped, droppedCalls]
    exact ok.dropped

theorem ringCalls_of_quiet {r : Ring Nat (Header η)} (equal : r.claims.length = r.popped.length) :
    ringCalls r = [] := by
  simp [ringCalls, ← equal]

theorem AccountOk.controllerMove (ok : AccountOk s) (control : ControlOk s) (callers : CallersOk s)
    (inv : RingInv s) (move : ControllerMove s s') : AccountOk s' := by
  have stage := control.stage
  unfold Stage at stage
  cases move with
  | drain phase drain =>
      rw [phase] at stage
      exact ok.drainMove callers (inv.live (.inl stage.2.1)).1 drain
  | initDequeuePos phase =>
      rw [phase] at stage
      have shut : closed s = true := by simp [closed, phase, stage.2.1]
      refine ok.frame rfl rfl rfl ?_ rfl rfl rfl rfl
      rw [ringCalls_of_quiet (inv.quiet shut).2]
      rfl
  | join phase finished =>
      have done : s.drain = none := by
        have owner := control.drain
        simp_all
      refine ok.keep rfl ?_ (fun _ => rfl) ok.emitted (by simp [callPop]) ok.dropped
      intro call
      simp only [settled, emittedCalls, callPop, ringCalls, done, drainCalls]
  | startRefused phase running => exact ok.frame rfl rfl rfl rfl rfl rfl rfl rfl
  | startRunning phase running => exact ok.frame rfl rfl rfl rfl rfl rfl rfl rfl
  | loadDropped phase => exact ok.frame rfl rfl rfl rfl rfl rfl rfl rfl
  | initSeq phase => exact ok.frame rfl rfl rfl rfl rfl rfl rfl rfl
  | initEnqueuePos phase => exact ok.frame rfl rfl rfl rfl rfl rfl rfl rfl
  | initIdle phase => exact ok.frame rfl rfl rfl rfl rfl rfl rfl rfl
  | initReady phase => exact ok.frame rfl rfl rfl rfl rfl rfl rfl rfl
  | spawn phase => exact ok.frame rfl rfl rfl rfl rfl rfl rfl rfl
  | stopRunning phase running => exact ok.frame rfl rfl rfl rfl rfl rfl rfl rfl
  | stopRefused phase running => exact ok.frame rfl rfl rfl rfl rfl rfl rfl rfl
  | drained phase done => exact ok.frame rfl rfl rfl rfl rfl rfl rfl rfl
  | clearReady phase => exact ok.frame rfl rfl rfl rfl rfl rfl rfl rfl

theorem AccountOk.enqueue (ok : AccountOk s) {thread : Nat} {rec : Record η}
    (phase : s.callers thread = .idle) :
    AccountOk (setCaller { s with calls := s.calls ++ [(thread, rec)] } thread
      (.loadReady ⟨⟨s.calls.length, rec.header⟩, rec.args⟩)) := by
  have records : ∀ dst, IsRecord s dst →
      IsRecord (setCaller { s with calls := s.calls ++ [(thread, rec)] } thread
        (.loadReady ⟨⟨s.calls.length, rec.header⟩, rec.args⟩)) dst := by
    rintro dst ⟨length, owner, made⟩
    refine ⟨length, owner, ?_⟩
    simp only [setCaller]
    rw [List.getElem?_append_left (List.getElem?_eq_some_iff.mp made).1, made]
  refine { once := ?_, fresh := ?_, emitted := ?_, emitting := ?_, dropped := ok.dropped }
  · intro call holder rec' made
    simp only [setCaller] at made
    by_cases last : call = s.calls.length
    · subst last
      rw [List.getElem?_concat_length] at made
      cases made
      simp only [held, setCaller_same, if_true]
      exact ok.fresh _ le_rfl
    · have before : call < s.calls.length := by
        have within := (List.getElem?_eq_some_iff.mp made).1
        simp only [List.length_append, List.length_singleton] at within
        omega
      rw [List.getElem?_append_left before] at made
      have old := ok.once call holder rec' made
      by_cases self : holder = thread
      · subst self
        have nothing : held s holder = none := by simp [held, phase]
        rw [nothing, if_neg (by simp)] at old
        simp only [held, setCaller_same]
        rw [if_neg (by simpa using Ne.symm last)]
        exact old
      · rw [held_congr (setCaller_other self) rfl]
        exact old
  · intro call beyond
    simp only [setCaller, List.length_append, List.length_singleton] at beyond
    exact ok.fresh call (by omega)
  · exact fun dst member => records dst (ok.emitted dst member)
  · exact fun dst phase => records dst (ok.emitting dst phase)

/-! ## Runs -/

structure Invariant (s : State η) : Prop where
  control : ControlOk s
  callers : CallersOk s
  ring : RingInv s
  account : AccountOk s

theorem Invariant.initial (memory : Nat → Cell Nat (Header η)) :
    Invariant (State.initial memory) where
  control := {
    stage := ⟨rfl, by simp [State.initial], fun _ => rfl⟩
    drain := .inl rfl
    popper := .inr (.inl rfl)
    consumerIdle := by simp [State.initial] }
  callers := { callers := fun _ => rfl, claims := by simp [State.initial, Ring.initial] }
  ring := {
    live := by simp [State.initial]
    quiet := fun _ => ⟨fun _ => rfl, rfl⟩
    init := trivial }
  account := {
    once := by simp [State.initial]
    fresh := fun _ _ => rfl
    emitted := by simp [State.initial]
    emitting := by simp [State.initial]
    dropped := rfl }

/-- A step that changes only the phases of the controlling thread outside its calls, or of the
flusher. -/
theorem Invariant.other (inv : Invariant s) {controller : Controller} {flusher : Flusher}
    {acceptedBefore : List (Nat × Record (Header η))}
    (entering : controller = s.controller ∨ s.controller = .idle ∧
      (controller = .startRunning ∨ controller = .stopRunning)) :
    Invariant { s with
      controller := controller, flusher := flusher, acceptedBefore := acceptedBefore } where
  control := by
    have stage := inv.control.stage
    have drain := inv.control.drain
    unfold Stage at stage
    rcases entering with rfl | ⟨idle, rfl | rfl⟩
    · exact { inv.control with }
    · exact { inv.control with stage := by simp_all [Stage], drain := by simp_all }
    · exact { inv.control with stage := by simp_all [Stage], drain := by simp_all }
  callers := inv.callers.frame rfl rfl rfl rfl (fun _ member => member)
  ring := by
    rcases entering with rfl | ⟨idle, rfl | rfl⟩
    · exact inv.ring.frame rfl rfl rfl rfl
    · exact inv.ring.of_controller rfl (by simp_all) (by simp [closed, idle]) trivial
    · exact inv.ring.of_controller rfl (by simp_all) (by simp [closed, idle]) trivial
  account := inv.account.frame rfl rfl rfl rfl rfl rfl rfl rfl

theorem Invariant.next (inv : Invariant s) {action : Action η} (clean : cleanStop s action = true)
    (step : next s action = some s') : Invariant s' := by
  cases action with
  | enqueue thread rec =>
      simp only [UlogAsync.next] at step
      split at step
      next phase =>
        cases step
        refine {
          control := { inv.control with }
          callers := inv.callers.enqueue phase
          ring := inv.ring.frame rfl rfl rfl rfl
          account := inv.account.enqueue phase }
      next => cases step
  | callerStep thread spurious =>
      have move := callerStep_move step
      have entering : ∀ rec, s.callers thread = .serialized rec → closed s = false := by
        intro rec phase
        simpa [cleanStop, phase] using clean
      have opened : ∀ call, s.callers thread = .pushing call → s.ready = true := by
        intro call phase
        by_contra unready
        have valid := inv.callers.callers thread
        rw [phase] at valid
        obtain ⟨_, rec, work, _⟩ := valid
        have shut : closed s = true := by
          by_contra unclosed
          exact unready (ready_of_not_closed inv.control (by simpa using unclosed))
        rw [(inv.ring.quiet shut).1 thread] at work
        cases work
      exact {
        control := inv.control.callerMove move
        callers := inv.callers.callerMove move
        ring := inv.ring.callerMove inv.control inv.callers move entering
        account := inv.account.callerMove inv.callers
          (fun ready => (inv.ring.live (.inl ready)).1) move opened }
  | consumerStep spurious =>
      have move := consumerStep_move step
      exact {
        control := inv.control.consumerMove move
        callers := inv.callers.consumerMove move
        ring := inv.ring.consumerMove inv.control move
        account := inv.account.consumerMove inv.control inv.callers
          (fun ready => (inv.ring.live (.inl ready)).1) move }
  | controllerStep spurious =>
      have move := controllerStep_move step
      have sweep : s.controller = .draining → seesEmpty s.ring = true →
          ∀ thread, pushed (s.ring.pushers thread) = none := by
        intro draining empty thread
        have nobody : s.inside = [] := by simpa [cleanStop, draining, empty] using clean
        have valid := inv.callers.callers thread
        cases phase : s.callers thread with
        | idle =>
            rw [phase] at valid
            exact valid
        | loadReady rec =>
            rw [phase] at valid
            exact valid.1
        | serialized rec =>
            rw [phase] at valid
            exact valid.1
        | pushing call =>
            rw [phase] at valid
            have member := valid.1
            rw [nobody] at member
            cases member
        | countDropped call =>
            rw [phase] at valid
            exact valid.1
        | signal =>
            rw [phase] at valid
            exact valid
      exact {
        control := inv.control.controllerMove move
        callers := inv.callers.controllerMove move
        ring := inv.ring.controllerMove inv.control move sweep
        account := inv.account.controllerMove inv.control inv.callers inv.ring move }
  | start =>
      simp only [UlogAsync.next] at step
      split at step
      next idle =>
        cases step
        exact inv.other (.inr ⟨idle, .inl rfl⟩)
      next => cases step
  | stop =>
      simp only [UlogAsync.next] at step
      split at step
      next idle =>
        cases step
        exact inv.other (.inr ⟨idle, .inr rfl⟩)
      next => cases step
  | flush =>
      simp only [UlogAsync.next] at step
      split at step <;> cases step <;> exact inv.other (.inl rfl)
  | flusherStep enqueueFirst =>
      simp only [UlogAsync.next, flusherStep] at step
      split at step <;> cases step <;> exact inv.other (.inl rfl)

theorem Invariant.of_reachable {memory : Nat → Cell Nat (Header η)}
    (reachable : Reachable UlogAsync.next (fun s action => cleanStop s action = true)
      (State.initial memory) s) : Invariant s := by
  refine reachable.invariant Invariant (Invariant.initial memory) ?_
  intro before action after inv clean step
  exact inv.next clean step

/-- In runs with clean stops, once all calls have returned and logging is stopped, every call was
emitted or counted as dropped, and exactly once. -/
theorem calls_are_emitted_or_dropped_once {memory : Nat → Cell Nat (Header η)}
    (reachable : Reachable next (fun s action => cleanStop s action = true)
      (State.initial memory) s)
    (stopped : s.running = false ∧ s.controller = .idle)
    (returned : ∀ entry ∈ s.calls, s.callers entry.1 = .idle) :
    s.dropped = s.droppedCalls.length ∧
      (∀ call < s.calls.length, (emittedCalls s ++ s.droppedCalls).count call = 1) ∧
      ∀ dst ∈ s.emitted, ∃ thread,
        s.calls[dst.header.call]? = some (thread, ⟨dst.header.fields, dst.args⟩) := by
  have inv := Invariant.of_reachable reachable
  have stage := inv.control.stage
  unfold Stage at stage
  rw [stopped.2] at stage
  have shut : closed s = true := by simp [closed, stopped.2, stage.1, stopped.1]
  have done := (inv.control.alone (stage.2.2 stopped.1) (by simp [stopped.2])).1
  refine ⟨inv.account.dropped, ?_, ?_⟩
  · intro call known
    have once := inv.account.once call s.calls[call].1 s.calls[call].2
      (List.getElem?_eq_getElem known)
    have nothing : held s s.calls[call].1 = none := by
      simp [held, returned _ (List.getElem_mem known)]
    rw [nothing, if_neg (by simp), settled, done, ringCalls_of_quiet (inv.ring.quiet shut).2] at once
    simpa [drainCalls, List.count_append] using once
  · intro dst member
    exact (inv.account.emitted dst member).2

/-- The steps of `ulog_async_start`. -/
def startSteps : List (Action Nat) :=
  .start :: List.replicate (kQueueLen + 7) (.controllerStep false)

/-- The steps of `ulog_async_stop` on an empty ring, and of the consumer it joins. -/
def stopSteps : List (Action Nat) :=
  [.stop, .controllerStep false] ++ List.replicate 5 (.consumerStep false) ++
    List.replicate 6 (.controllerStep false)

def startMemory : Nat → Cell Nat (Header Nat) := fun _ => ⟨0, ⟨0, 0⟩, 0, fun _ => 0⟩

/-- What a run of two callers leaves behind. -/
structure Outcome where
  running : Bool
  controller : Controller
  callers : Caller Nat × Caller Nat
  calls : List (Nat × Record Nat)
  emitted : List (Popped (Header Nat))
  droppedCalls : List Nat
  dropped : Nat
deriving DecidableEq

def outcome (s : State Nat) : Outcome :=
  ⟨s.running, s.controller, (s.callers 1, s.callers 2), s.calls, s.emitted, s.droppedCalls,
    s.dropped⟩

/-- One call is emitted; a second one comes after `ulog_async_stop`. -/
theorem a_call_is_emitted_and_a_late_one_dropped :
    ∃ s : State Nat,
      Reachable next (fun s action => cleanStop s action = true) (State.initial startMemory) s ∧
      (s.running = false ∧ s.controller = .idle) ∧
      (∀ entry ∈ s.calls, s.callers entry.1 = .idle) ∧
      s.emitted = [⟨⟨0, 40⟩, 1, [9]⟩] ∧ s.droppedCalls = [1] ∧
      ∀ call < s.calls.length, (emittedCalls s ++ s.droppedCalls).count call = 1 := by
  have executed : (runActions next (fun s action => cleanStop s action = true)
      (State.initial startMemory)
      (List.flatten [startSteps, [.enqueue 1 ⟨40, [9]⟩], List.replicate 10 (.callerStep 1 false),
        List.replicate 16 (.consumerStep false), stopSteps,
        [.enqueue 2 ⟨41, []⟩], List.replicate 2 (.callerStep 2 false)])).map outcome =
      some ⟨false, .idle, (.idle, .idle), [(1, ⟨40, [9]⟩), (2, ⟨41, []⟩)],
        [⟨⟨0, 40⟩, 1, [9]⟩], [1], 1⟩ := by
    decide +kernel
  obtain ⟨s, executed, result⟩ := Option.map_eq_some_iff.mp executed
  simp only [outcome, Outcome.mk.injEq, Prod.mk.injEq] at result
  obtain ⟨running, controller, ⟨first, second⟩, calls, emitted, dropped, _⟩ := result
  have reachable := Reachable.of_runActions _ .start executed
  have returned : ∀ entry ∈ s.calls, s.callers entry.1 = .idle := by
    simp [calls, first, second]
  exact ⟨s, reachable, ⟨running, controller⟩, returned, emitted, dropped,
    (calls_are_emitted_or_dropped_once reachable ⟨running, controller⟩ returned).2.1⟩

/-- A call that passed its check before `ulog_async_stop` and pushes after it is lost. -/
theorem a_call_across_a_stop_is_lost :
    ∃ s : State Nat,
      Reachable next (fun _ _ => True) (State.initial startMemory) s ∧
      (s.running = false ∧ s.controller = .idle) ∧
      (∀ entry ∈ s.calls, s.callers entry.1 = .idle) ∧
      s.calls.length = 1 ∧ s.emitted = [] ∧ s.droppedCalls = [] ∧ s.dropped = 0 := by
  have executed : (runActions next (fun _ _ => True) (State.initial startMemory)
      (startSteps ++ [.enqueue 1 ⟨40, [9]⟩, .callerStep 1 false] ++ stopSteps ++
        List.replicate 9 (.callerStep 1 false))).map outcome =
      some ⟨false, .idle, (.idle, .idle), [(1, ⟨40, [9]⟩)], [], [], 0⟩ := by
    decide +kernel
  obtain ⟨s, executed, result⟩ := Option.map_eq_some_iff.mp executed
  simp only [outcome, Outcome.mk.injEq, Prod.mk.injEq] at result
  obtain ⟨running, controller, ⟨first, _⟩, calls, emitted, droppedCalls, dropped⟩ := result
  refine ⟨s, Reachable.of_runActions _ .start executed, ⟨running, controller⟩, ?_, ?_, emitted,
    droppedCalls, dropped⟩
  · simp [calls, first]
  · simp [calls]

end FreeDV.Util.UlogAsync
