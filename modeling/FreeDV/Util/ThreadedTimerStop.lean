import FreeDV.Util.ThreadedTimerProperties

/-!
# What a stopped timer does

`stop` takes the timer out of the queue and waits until its callback is over.
From then on the timer can only come back through `registerTimer`: the loop
pushes a repeating timer again before its callback, not behind it.
-/

set_option autoImplicit false

namespace FreeDV.Util.ThreadedTimer

open FreeDV.Lib
open FreeDV.Lib.Heap

variable {τ : Type} {s s' : State τ} {action : Action τ}

/-- The timer for which a step runs `registerTimer`. -/
def registers (s : State τ) : Action τ → Option τ
  | .clientStep client =>
      match s.clients client with
      | .registering timer _ _ => some timer
      | _ => none
  | .threadStep =>
      match s.thread with
      | .registering _ target _ _ => some target
      | _ => none
  | _ => none

/-- Where a step finds what is in the queue, what fires and who waits behind it. -/
structure Traced (s : State τ) (action : Action τ) (s' : State τ) : Prop where
  queue : ∀ timer ∈ s'.timerQueue, timer ∈ s.timerQueue ∨ registers s action = some timer
  firing : ∀ timer, s'.firingTimer = some timer → s.firingTimer = some timer ∨ timer ∈ s.timerQueue
  waiting : ∀ client timer, s'.clients client = .waiting timer →
    s.clients client = .waiting timer ∨ timer ∉ s'.timerQueue
  thread : s.firingTimer = s.thread.timer → s'.firingTimer = s'.thread.timer

theorem Traced.quiet (queue : s'.timerQueue = s.timerQueue)
    (firing : s'.firingTimer = s.firingTimer) (clients : s'.clients = s.clients)
    (thread : s'.thread.timer = s.thread.timer) : Traced s action s' where
  queue timer member := .inl (queue ▸ member)
  firing timer current := .inl (firing ▸ current)
  waiting client timer phase := .inl (clients ▸ phase)
  thread same := by rw [firing, thread, same]

theorem waiting_update {clients : Nat → Client τ} {client other : Nat} {phase : Client τ}
    {timer : τ} (waits : Function.update clients client phase other = .waiting timer) :
    clients other = .waiting timer ∨ other = client ∧ phase = .waiting timer := by
  by_cases same : other = client
  · subst same
    rw [Function.update_self] at waits
    exact .inr ⟨rfl, waits⟩
  · rw [Function.update_of_ne same] at waits
    exact .inl waits

theorem Traced.client {client : Nat} {phase : Client τ} (queue : s'.timerQueue = s.timerQueue)
    (firing : s'.firingTimer = s.firingTimer)
    (clients : s'.clients = Function.update s.clients client phase)
    (phases : ∀ timer, phase = .waiting timer → s.clients client = .waiting timer)
    (thread : s'.thread = s.thread) : Traced s action s' where
  queue timer member := .inl (queue ▸ member)
  firing timer current := .inl (firing ▸ current)
  waiting other timer waits := by
    rw [clients] at waits
    rcases waiting_update waits with waited | ⟨rfl, waiting⟩
    · exact .inl waited
    · exact .inl (phases timer waiting)
  thread same := by rw [firing, thread, same]

theorem clientCall_traced {client : Nat} {phase : Client τ}
    (phases : ∀ timer, phase ≠ .waiting timer) (taken : clientCall s client phase = some s') :
    Traced s action s' := by
  unfold clientCall at taken
  split at taken
  · cases taken
    exact .client rfl rfl rfl (fun timer waits => absurd waits (phases timer)) rfl
  · cases taken

variable [DecidableEq τ] (heap : HeapOps τ)

/-! ## Steps -/

theorem Traced.threadRegister (ok : SchedulingOk s) {timer target : τ} {intervalMs : Int}
    {repeats : Bool} (phase : s.thread = .registering timer target intervalMs repeats) :
    Traced s .threadStep
      { registerTimer heap s target intervalMs repeats with thread := .calling timer } := by
  obtain ⟨queue, equation, same, -⟩ := registerTimer_eq heap target intervalMs repeats ok.queue
  rw [equation]
  refine ⟨?_, fun _ => .inl, fun _ _ => .inl, ?_⟩
  · intro other member
    rcases List.mem_cons.mp (same.mem_iff.mp member) with new | old
    · right
      rw [registers, phase, new]
    · exact .inl (List.mem_of_mem_erase old)
  · intro current
    rw [phase] at current
    exact current

theorem Traced.clientRegister (ok : SchedulingOk s) {client : Nat} {target : τ} {intervalMs : Int}
    {repeats : Bool} (phase : s.clients client = .registering target intervalMs repeats) :
    Traced s (.clientStep client) { registerTimer heap s target intervalMs repeats with
      clients := Function.update (registerTimer heap s target intervalMs repeats).clients client
        .idle } := by
  obtain ⟨queue, equation, same, -⟩ := registerTimer_eq heap target intervalMs repeats ok.queue
  rw [equation]
  refine ⟨?_, fun _ => .inl, ?_, id⟩
  · intro other member
    rcases List.mem_cons.mp (same.mem_iff.mp member) with new | old
    · right
      rw [registers, phase, new]
    · exact .inl (List.mem_of_mem_erase old)
  · intro other timer waits
    rcases waiting_update waits with waited | ⟨-, waiting⟩
    · exact .inl waited
    · cases waiting

theorem Traced.clientUnregister (ok : SchedulingOk s) {client : Nat} {target : τ}
    {phase : Client τ} (phases : phase = .idle ∨ phase = .waiting target) :
    Traced s (.clientStep client) { unregisterTimer heap s target with
      clients := Function.update (unregisterTimer heap s target).clients client phase } := by
  obtain ⟨queue, equation, same, outside, -⟩ := unregisterTimer_eq heap target ok.queue
  rw [equation]
  refine ⟨?_, fun _ => .inl, ?_, id⟩
  · intro other member
    exact .inl (List.mem_of_mem_erase (same.mem_iff.mp member))
  · intro other timer waits
    rcases waiting_update waits with waited | ⟨-, waiting⟩
    · exact .inl waited
    · right
      rcases phases with rfl | rfl
      · cases waiting
      · cases waiting
        exact outside

theorem Traced.callbackUnregister (ok : SchedulingOk s) (target : τ) :
    Traced s action (unregisterTimer heap s target) := by
  obtain ⟨queue, equation, same, -⟩ := unregisterTimer_eq heap target ok.queue
  rw [equation]
  refine ⟨?_, fun _ => .inl, fun _ _ => .inl, id⟩
  intro other member
  exact .inl (List.mem_of_mem_erase (same.mem_iff.mp member))

theorem Traced.eventLoop (ok : SchedulingOk s) (looping : s.thread = .looping)
    (taken : eventLoop heap s = some s') : Traced s .threadStep s' := by
  obtain rfl | rfl | ⟨front, rest, found, -, fired⟩ := eventLoop_cases heap taken
  · exact .quiet rfl rfl rfl (by rw [looping]; rfl)
  · exact .quiet rfl rfl rfl (by rw [looping]; rfl)
  · obtain ⟨queue, equation, same, -⟩ := fireFront_eq heap found ok.queue
    rw [equation, Option.some.injEq] at fired
    subst fired
    refine ⟨?_, ?_, fun _ _ => .inl, fun _ => rfl⟩
    · intro timer member
      have old := same.mem_iff.mp member
      left
      rw [found]
      split at old
      · exact old
      · exact List.mem_cons_of_mem front old
    · intro timer fires
      cases fires
      exact .inr (found ▸ List.mem_cons_self)

theorem threadStep_traced (ok : SchedulingOk s) (taken : threadStep heap s = some s') :
    Traced s .threadStep s' := by
  unfold threadStep at taken
  split at taken
  case h_1 looping => exact .eventLoop heap ok looping taken
  case h_2 phase =>
    cases taken
    exact .quiet rfl rfl rfl (by rw [phase]; rfl)
  case h_3 phase =>
    cases taken
    refine .quiet rfl rfl rfl ?_
    rw [phase]
    dsimp only
    split <;> rfl
  case h_4 phase =>
    cases taken
    exact .quiet rfl rfl rfl (by rw [phase]; rfl)
  case h_5 phase =>
    cases taken
    exact .threadRegister heap ok phase
  case h_6 =>
    cases taken
    exact ⟨fun _ => .inl, nofun, fun _ _ => .inl, fun _ => rfl⟩
  case h_7 => cases taken
  case h_8 => cases taken

theorem clientStep_traced (ok : SchedulingOk s) {client : Nat}
    (taken : clientStep heap s client = some s') : Traced s (.clientStep client) s' := by
  unfold clientStep at taken
  dsimp only at taken
  split at taken
  case h_1 => cases taken
  case h_2 =>
    cases taken
    exact .client rfl rfl rfl nofun rfl
  case h_3 phase =>
    split at taken
    · cases taken
    · cases taken
      exact .clientRegister heap ok phase
  case h_4 =>
    split at taken
    · cases taken
    · cases taken
      refine .clientUnregister heap ok ?_
      split
      · exact .inl rfl
      · exact .inr rfl
  case h_5 timer phase =>
    split at taken
    · cases taken
    · cases taken
      refine .client rfl rfl rfl ?_ rfl
      intro other waits
      split at waits
      · cases waits
      · rw [phase, waits]

theorem next_traced (ok : SchedulingOk s) (taken : next heap s action = some s') :
    Traced s action s' := by
  cases action with
  | tick =>
      cases taken
      exact .quiet rfl rfl rfl rfl
  | setTimeout =>
      cases taken
      exact .quiet rfl rfl rfl rfl
  | setCallback =>
      cases taken
      exact .quiet rfl rfl rfl rfl
  | setRepeat =>
      cases taken
      exact .quiet rfl rfl rfl rfl
  | start =>
      refine clientCall_traced ?_ taken
      intro timer
      nofun
  | stop =>
      refine clientCall_traced ?_ taken
      intro timer
      nofun
  | clientStep => exact clientStep_traced heap ok taken
  | threadStep => exact threadStep_traced heap ok taken
  | callbackStart =>
      simp only [next, callbackStart] at taken
      split at taken
      case h_1 phase =>
        cases taken
        exact .quiet rfl rfl rfl (by rw [phase]; rfl)
      case h_2 => cases taken
  | callbackStop =>
      simp only [next, callbackStop] at taken
      split at taken
      · cases taken
        exact .callbackUnregister heap ok _
      · cases taken
  | callbackReturn =>
      simp only [next, callbackReturn] at taken
      split at taken
      case h_1 phase =>
        cases taken
        exact .quiet rfl rfl rfl (by rw [phase]; rfl)
      case h_2 => cases taken
  | destroy =>
      simp only [next] at taken
      split at taken
      · cases taken
      · cases taken
        exact .quiet rfl rfl rfl rfl

/-! ## Runs -/

/-- What holds in every run: the schedule, and `firingTimer_` tells what the thread does. -/
structure ServerOk (s : State τ) : Prop where
  scheduling : SchedulingOk s
  firing : s.firingTimer = s.thread.timer

theorem ServerOk.next (ok : ServerOk s) (taken : next heap s action = some s') : ServerOk s' :=
  ⟨ok.scheduling.next heap taken, (next_traced heap ok.scheduling taken).thread ok.firing⟩

theorem ServerOk.run {allowed : State τ → Action τ → Prop} (ok : ServerOk s)
    (reachable : Reachable (ThreadedTimer.next heap) allowed s s') : ServerOk s' := by
  refine reachable.invariant ServerOk ok ?_
  intro before action after ok _ taken
  exact ok.next heap taken

theorem ServerOk.initial : ServerOk (State.initial : State τ) := ⟨.initial, rfl⟩

/-- The timer is out of the queue and does not fire. -/
structure Silent (timer : τ) (s : State τ) : Prop where
  queue : timer ∉ s.timerQueue
  firing : s.firingTimer ≠ some timer

theorem Silent.next {timer : τ} (silent : Silent timer s) (ok : ServerOk s)
    (unregistered : registers s action ≠ some timer)
    (taken : ThreadedTimer.next heap s action = some s') : Silent timer s' := by
  have traced := next_traced heap ok.scheduling taken
  constructor
  · intro member
    rcases traced.queue timer member with old | new
    · exact silent.queue old
    · exact unregistered new
  · intro fires
    rcases traced.firing timer fires with current | queued
    · exact silent.firing current
    · exact silent.queue queued

/-- While a client waits for the callback of a timer, the timer stays out of the queue. -/
theorem waiting_next {client : Nat} {timer : τ} (ok : ServerOk s)
    (gone : s.clients client = .waiting timer → timer ∉ s.timerQueue)
    (early : registers s action = some timer → s.clients client = .stopCalled timer)
    (taken : next heap s action = some s') :
    s'.clients client = .waiting timer → timer ∉ s'.timerQueue := by
  have traced := next_traced heap ok.scheduling taken
  intro waits member
  rcases traced.waiting client timer waits with waited | outside
  · rcases traced.queue timer member with old | new
    · exact gone waited old
    · rw [early new] at waited
      cases waited
  · exact outside member

/-- The step in which `stop` returns. -/
theorem silent_of_return {client : Nat} {timer : τ} (ok : ServerOk s)
    (inside : s.clients client = .stopCalled timer ∨ s.clients client = .waiting timer)
    (gone : s.clients client = .waiting timer → timer ∉ s.timerQueue)
    (taken : clientStep heap s client = some s') (idle : s'.clients client = .idle) :
    Silent timer s' := by
  rcases inside with called | waits
  · simp only [clientStep, called] at taken
    split at taken
    · cases taken
    · obtain ⟨queue, equation, -, outside, -⟩ :=
        unregisterTimer_eq heap timer ok.scheduling.queue
      rw [equation] at taken
      cases taken
      dsimp only at idle
      rw [Function.update_self] at idle
      refine ⟨outside, ?_⟩
      intro fires
      rw [if_neg (not_not.mpr fires)] at idle
      cases idle
  · simp only [clientStep, waits] at taken
    split at taken
    · cases taken
    · cases taken
      dsimp only at idle
      rw [Function.update_self] at idle
      refine ⟨gone waits, ?_⟩
      intro fires
      rw [if_neg (not_not.mpr fires)] at idle
      cases idle

/-- Once `stop` has returned, the timer is not queued and does not fire, now and later. Nothing may
run `registerTimer` for it behind the section in which `stop` takes it out of the queue. -/
theorem stop_is_final {client : Nat} {timer : τ} {invoked called before returned later : State τ}
    (reachable : Reachable (next heap) (fun _ _ => True) State.initial invoked)
    (invocation : next heap invoked (.stop client timer) = some called)
    (during : Reachable (next heap)
      (fun s action => registers s action = some timer → s.clients client = .stopCalled timer)
      called before)
    (inside : before.clients client = .stopCalled timer ∨ before.clients client = .waiting timer)
    (returns : next heap before (.clientStep client) = some returned)
    (idle : returned.clients client = .idle)
    (after : Reachable (next heap) (fun s action => registers s action ≠ some timer)
      returned later) :
    timer ∉ later.timerQueue ∧ later.firingTimer ≠ some timer ∧
      later.thread.timer ≠ some timer := by
  have calledOk : ServerOk called := (ServerOk.initial.run heap reachable).next heap invocation
  have notYet : called.clients client = .stopCalled timer := by
    simp only [next, clientCall] at invocation
    split at invocation
    · cases invocation
      exact Function.update_self client _ _
    · cases invocation
  have waiting : ServerOk before ∧
      (before.clients client = .waiting timer → timer ∉ before.timerQueue) := by
    refine during.invariant (fun s => ServerOk s ∧
      (s.clients client = .waiting timer → timer ∉ s.timerQueue)) ⟨calledOk, ?_⟩ ?_
    · intro early
      cases notYet.symm.trans early
    · intro s action s' ok early taken
      exact ⟨ok.1.next heap taken, waiting_next heap ok.1 ok.2 early taken⟩
  have silent := silent_of_return heap waiting.1 inside waiting.2 returns idle
  have always : ServerOk later ∧ Silent timer later := by
    refine after.invariant (fun s => ServerOk s ∧ Silent timer s)
      ⟨waiting.1.next heap returns, silent⟩ ?_
    intro s action s' ok unregistered taken
    exact ⟨ok.1.next heap taken, ok.2.next heap ok.1 unregistered taken⟩
  refine ⟨always.2.queue, always.2.firing, ?_⟩
  rw [← always.1.firing]
  exact always.2.firing

/-- A timer of 10 ms with a callback is started, and its callback runs. -/
def untilCallback : List (Action Nat) :=
  [.setTimeout 0 10, .setCallback 0 true, .threadStep, .start 0 0, .clientStep 0, .clientStep 0,
    .tick 10000000, .threadStep, .threadStep, .threadStep]

/-- A timer is stopped while its callback runs; a minute later it still has not fired again. -/
theorem a_stopped_timer_stays_silent :
    ∃ invoked called before returned later : State Nat,
      (Reachable (next .sorted) (fun _ _ => True) State.initial invoked ∧
        invoked.thread = .calling 0 ∧ next .sorted invoked (.stop 1 0) = some called) ∧
      (before.clients 1 = .waiting 0 ∧ next .sorted before (.clientStep 1) = some returned ∧
        returned.clients 1 = .idle) ∧
      0 ∉ later.timerQueue ∧ later.firingTimer ≠ some 0 ∧ later.thread.timer ≠ some 0 := by
  have executed : ((runActions (next .sorted) (fun _ _ => True) State.initial untilCallback).bind
      fun invoked => (next .sorted invoked (.stop 1 0)).bind
      fun called => (runActions (next .sorted)
        (fun s action => registers s action = some 0 → s.clients 1 = .stopCalled 0) called
        [.clientStep 1, .callbackReturn, .threadStep, .threadStep]).bind
      fun before => (next .sorted before (.clientStep 1)).bind
      fun returned => (runActions (next .sorted) (fun s action => registers s action ≠ some 0)
        returned [.tick 60000000000, .threadStep, .threadStep]).map
      fun _ => (invoked.thread, before.clients 1, returned.clients 1)) =
      some (.calling 0, .waiting 0, .idle) := by
    decide +kernel
  obtain ⟨invoked, first, executed⟩ := Option.bind_eq_some_iff.mp executed
  obtain ⟨called, invocation, executed⟩ := Option.bind_eq_some_iff.mp executed
  obtain ⟨before, second, executed⟩ := Option.bind_eq_some_iff.mp executed
  obtain ⟨returned, returns, executed⟩ := Option.bind_eq_some_iff.mp executed
  obtain ⟨later, third, result⟩ := Option.map_eq_some_iff.mp executed
  simp only [Prod.mk.injEq] at result
  obtain ⟨calling, waits, idle⟩ := result
  have reachable := Reachable.of_runActions _ .start first
  exact ⟨invoked, called, before, returned, later, ⟨reachable, calling, invocation⟩,
    ⟨waits, returns, idle⟩,
    stop_is_final .sorted reachable invocation (Reachable.of_runActions _ .start second)
      (.inr waits) returns idle (Reachable.of_runActions _ .start third)⟩

def callsStart : Action τ → Option τ
  | .start _ timer => some timer
  | _ => none

/-- The callback restarts its own timer while `stop` waits for it: `stop` returns with the timer in
the queue, and the callback runs again. -/
theorem a_stopped_timer_fires :
    ∃ invoked called before returned later : State Nat,
      Reachable (next .sorted) (fun _ _ => True) State.initial invoked ∧
        next .sorted invoked (.stop 1 0) = some called ∧
        Reachable (next .sorted) (fun _ action => callsStart action ≠ some 0) called before ∧
        before.clients 1 = .waiting 0 ∧ next .sorted before (.clientStep 1) = some returned ∧
        returned.clients 1 = .idle ∧ returned.timerQueue = [0] ∧
        Reachable (next .sorted) (fun _ action => callsStart action ≠ some 0) returned later ∧
        later.thread = .calling 0 := by
  have executed : ((runActions (next .sorted) (fun _ _ => True) State.initial untilCallback).bind
      fun invoked => (next .sorted invoked (.stop 1 0)).bind
      fun called => (runActions (next .sorted) (fun _ action => callsStart action ≠ some 0) called
        [.clientStep 1, .callbackStart 0, .threadStep, .threadStep, .callbackReturn, .threadStep,
          .threadStep]).bind
      fun before => (next .sorted before (.clientStep 1)).bind
      fun returned => (runActions (next .sorted) (fun _ action => callsStart action ≠ some 0)
        returned [.tick 10000000, .threadStep, .threadStep, .threadStep]).map
      fun later => (before.clients 1, returned.clients 1, returned.timerQueue, later.thread)) =
      some (.waiting 0, .idle, [0], .calling 0) := by
    decide +kernel
  obtain ⟨invoked, first, executed⟩ := Option.bind_eq_some_iff.mp executed
  obtain ⟨called, invocation, executed⟩ := Option.bind_eq_some_iff.mp executed
  obtain ⟨before, second, executed⟩ := Option.bind_eq_some_iff.mp executed
  obtain ⟨returned, returns, executed⟩ := Option.bind_eq_some_iff.mp executed
  obtain ⟨later, third, result⟩ := Option.map_eq_some_iff.mp executed
  simp only [Prod.mk.injEq] at result
  obtain ⟨waits, idle, queued, calling⟩ := result
  exact ⟨invoked, called, before, returned, later, Reachable.of_runActions _ .start first,
    invocation, Reachable.of_runActions _ .start second, waits, returns, idle, queued,
    Reachable.of_runActions _ .start third, calling⟩

end FreeDV.Util.ThreadedTimer
