import FreeDV.Util.TcpHandlerSteps

/-!
# Reconnecting

A handler that is to reconnect and has no socket always has an attempt coming:
the timer is scheduled, is firing, or a task for it is queued. The other way
round, an attempt that the timer was started for can come when it is no longer
wanted: `connect` changes `enableReconnect_` and leaves a running timer alone.
-/

set_option autoImplicit false

namespace FreeDV.Util.TcpHandler

open FreeDV.Lib

variable {s s' : State}

/-! ## A reconnect is never lost -/

/-- Tasks that call `connectImpl_`. -/
def Task.callsConnectImpl : Task → Bool
  | .connect _ _ => true
  | .reconnect => true
  | _ => false

def ReconnectPending (s : State) : Prop :=
  s.timerScheduled = true ∨ s.timerFiring = true ∨
    ∃ task ∈ s.queue, task.callsConnectImpl = true

/-- The worker is in the middle of `connectImpl_` or `disconnectImpl_`. -/
def Worker.changesSocket : Worker → Bool
  | .connecting => true
  | .negotiating => true
  | .disconnecting _ => true
  | .joining _ => true
  | _ => false

def ReconnectOk (s : State) : Prop :=
  s.worker.changesSocket = false → s.enableReconnect = true → s.socket = none →
    ReconnectPending s

theorem ReconnectPending.mono (pending : ReconnectPending s)
    (scheduled : s'.timerScheduled = s.timerScheduled) (firing : s'.timerFiring = s.timerFiring)
    (queue : ∀ task ∈ s.queue, task.callsConnectImpl = true → task ∈ s'.queue) :
    ReconnectPending s' := by
  rcases pending with timer | firing' | ⟨task, queued, connects⟩
  · exact .inl (scheduled.trans timer)
  · exact .inr (.inl (firing.trans firing'))
  · exact .inr (.inr ⟨task, queue task queued connects, connects⟩)

theorem ReconnectOk.keep (ok : ReconnectOk s) (worker : s.worker.changesSocket = false)
    (enabled : s'.enableReconnect = s.enableReconnect) (socket : s'.socket = s.socket)
    (scheduled : s'.timerScheduled = s.timerScheduled) (firing : s'.timerFiring = s.timerFiring)
    (queue : ∀ task ∈ s.queue, task.callsConnectImpl = true → task ∈ s'.queue) :
    ReconnectOk s' := by
  intro _ enabled' invalid
  have pending := ok worker (enabled.symm.trans enabled') (socket.symm.trans invalid)
  exact pending.mono scheduled firing queue

theorem not_mem_of_head {task : Task} {queue : List Task} (head : s.queue = task :: queue)
    (other : task.callsConnectImpl = false) :
    ∀ queued ∈ s.queue, queued.callsConnectImpl = true → queued ∈ queue := by
  intro queued member connects
  rw [head] at member
  cases member with
  | head =>
      rw [other] at connects
      cases connects
  | tail _ member => exact member

theorem scheduleReconnect_scheduled (enabled : s.enableReconnect = true) :
    (scheduleReconnect s).timerScheduled = true := by
  simp [scheduleReconnect, enabled]

theorem ReconnectOk.workerMove (ok : ReconnectOk s) (move : WorkerMove s s') : ReconnectOk s' := by
  have between (idle : s.worker = .idle) : s.worker.changesSocket = false := by
    rw [idle]
    rfl
  have busy {phase : Worker} (current : s.worker = phase) (quiet : phase.changesSocket = false) :
      s.worker.changesSocket = false := current ▸ quiet
  cases move with
  | @skip task queue cancelConnect onRecvEndFn idle head kind =>
      intro _ enabled invalid
      change s.socket = none at invalid
      refine (ok (between idle) enabled invalid).mono rfl rfl (not_mem_of_head head ?_)
      -- without a socket, the tasks for `connectImpl_` are not skipped
      rw [invalid] at kind
      cases task with
      | connect enableReconnect enableTLS => cases kind
      | reconnect => cases kind
      | _ => rfl
  | connect idle head invalid kind => exact fun changes => nomatch changes
  | disconnect idle head valid kind => exact fun changes => nomatch changes
  | send idle head valid =>
      exact ok.keep (between idle) rfl rfl rfl rfl (not_mem_of_head head rfl)
  | onConnect idle head =>
      exact ok.keep (between idle) rfl rfl rfl rfl (not_mem_of_head head rfl)
  | dispatch idle head =>
      exact ok.keep (between idle) rfl rfl rfl rfl (not_mem_of_head head rfl)
  | clearTls phase => exact fun changes => nomatch changes
  | join phase finished =>
      intro _ enabled _
      exact .inl (scheduleReconnect_scheduled enabled)
  | measure phase valid =>
      exact ok.keep (busy phase rfl) rfl rfl rfl rfl fun _ member _ => member
  | endDispatch phase =>
      unfold endDispatch
      split
      · exact ok.keep (busy phase rfl) rfl rfl rfl rfl fun _ member _ => member
      · exact ok.keep (busy phase rfl) rfl rfl rfl rfl fun _ member _ => member
  | deliver phase valid =>
      exact ok.keep (busy phase rfl) rfl rfl rfl rfl fun _ member _ => member
  | discard phase invalid =>
      exact ok.keep (busy phase rfl) rfl rfl rfl rfl fun _ member _ => member
  | connected phase => exact fun changes => nomatch changes
  | refused phase =>
      intro _ enabled _
      exact .inl (scheduleReconnect_scheduled enabled)
  | rejected phase usingTLS =>
      intro _ enabled _
      exact .inl (scheduleReconnect_scheduled enabled)
  | sendOn sending sending' queue =>
      have quiet : s.worker.changesSocket = false := by
        revert sending
        cases s.worker <;> simp [Worker.sending, Worker.changesSocket]
      refine ok.keep quiet rfl rfl rfl rfl ?_
      intro task member _
      rcases queue with rfl | rfl
      · exact member
      · exact List.mem_append_left _ member

theorem ReconnectOk.establish (fresh : s.socket = some s.connections) :
    ReconnectOk (establish s) := by
  intro _ _ invalid
  change s.socket = none at invalid
  rw [fresh] at invalid
  cases invalid

theorem ReconnectOk.receiverMove (ok : ReconnectOk s) (own : s.receiver.ownTask = true)
    (move : ReceiverMove s s') : ReconnectOk s' := by
  obtain ⟨frame, scheduled, firing⟩ := move.frame
  intro between enabled invalid
  rw [frame.worker] at between
  rw [frame.enableReconnect] at enabled
  rw [frame.socket] at invalid
  refine (ok between enabled invalid).mono scheduled firing ?_
  intro task member _
  obtain same | ⟨added, _, grown⟩ := move.queue own
  · exact same ▸ member
  · exact grown ▸ List.mem_append_left _ member

theorem ReconnectOk.outsideMove (ok : ReconnectOk s) (move : OutsideMove s s') :
    ReconnectOk s' := by
  have frame := move.frame
  intro between enabled invalid
  rw [frame.worker] at between
  rw [frame.enableReconnect] at enabled
  rw [frame.socket] at invalid
  have pending := ok between enabled invalid
  cases move with
  | call own => exact pending.mono rfl rfl fun _ member _ => member
  | enqueue queueing =>
      exact pending.mono rfl rfl fun _ member _ => List.mem_append_left _ member
  | timerFires scheduled => exact .inr (.inl rfl)
  | timerEnqueues firing =>
      refine .inr (.inr ⟨.reconnect, ?_, rfl⟩)
      exact List.mem_append_right _ (List.mem_singleton.mpr rfl)

/-- Whenever the worker is between tasks, reconnecting is enabled and there is no socket, the
timer is scheduled or firing, or a task that calls `connectImpl_` is queued. -/
theorem a_reconnect_is_pending (reachable : Reachable next (fun _ _ => True) State.initial s)
    (idle : s.worker = .idle) (enabled : s.enableReconnect = true) (invalid : s.socket = none) :
    s.timerScheduled = true ∨ s.timerFiring = true ∨
      ∃ task ∈ s.queue, task.callsConnectImpl = true := by
  have ok : ReconnectOk s := by
    refine (invariant_of_moves ReconnectOk ?_ ?_ reachable).2
    · intro _ enabled _
      cases enabled
    · intro s action s' handler ok _ move
      cases move with
      | worker _ move => exact ok.workerMove move
      | establish _ phase => exact .establish (handler.atPhase phase).1
      | receiver move => exact ok.receiverMove handler.receiver move
      | outside move => exact ok.outsideMove move
  exact ok (by rw [idle]; rfl) enabled invalid

/-- A refused connection waits for the timer. -/
theorem a_refused_connect_waits_for_the_timer :
    ∃ s, Reachable next (fun _ _ => True) State.initial s ∧ s.worker = .idle ∧
      s.enableReconnect = true ∧ s.socket = none ∧ s.queue = [] ∧
      (s.timerScheduled = true ∨ s.timerFiring = true ∨
        ∃ task ∈ s.queue, task.callsConnectImpl = true) := by
  have executed : (runActions next (fun _ _ => True) State.initial
      [.connect 1 true false, .clientStep 1, .workerStep, .connectStep false]).map
        (fun s => (s.worker, s.enableReconnect, s.socket, s.queue)) =
      some (.idle, true, none, []) := by
    decide +kernel
  obtain ⟨s, executed, result⟩ := Option.map_eq_some_iff.mp executed
  simp only [Prod.mk.injEq] at result
  obtain ⟨idle, enabled, invalid, queue⟩ := result
  have reachable := Reachable.of_runActions _ .start executed
  exact ⟨s, reachable, idle, enabled, invalid, queue,
    a_reconnect_is_pending reachable idle enabled invalid⟩

/-! ## Attempts that are no longer wanted -/

def timerQuiet (s : State) : Bool :=
  !s.timerScheduled && !s.timerFiring && !s.queue.contains .reconnect

/-- The worker is about to run `connectImpl_` for a `connect` without reconnecting. -/
def switchesOff (s : State) : Bool :=
  match s.worker with
  | .idle =>
      match s.queue with
      | .connect false _ :: _ => s.socket.isNone
      | _ => false
  | _ => false

structure TimerOk (s : State) : Prop where
  scheduled : s.enableReconnect = false → s.timerScheduled = false
  firing : s.enableReconnect = false → s.timerFiring = false
  queue : s.enableReconnect = false → .reconnect ∉ s.queue

theorem TimerOk.keep (ok : TimerOk s) (enabled : s'.enableReconnect = s.enableReconnect)
    (scheduled : s'.timerScheduled = true → s.timerScheduled = true ∨ s.enableReconnect = true)
    (firing : s'.timerFiring = true → s.timerFiring = true ∨ s.enableReconnect = true)
    (queue : .reconnect ∈ s'.queue → .reconnect ∈ s.queue ∨ s.enableReconnect = true) :
    TimerOk s' := by
  constructor
  · intro disabled
    rw [enabled] at disabled
    rw [← Bool.not_eq_true]
    intro running
    have before := ok.scheduled disabled
    have cause := scheduled running
    simp [before, disabled] at cause
  · intro disabled
    rw [enabled] at disabled
    rw [← Bool.not_eq_true]
    intro running
    have before := ok.firing disabled
    have cause := firing running
    simp [before, disabled] at cause
  · intro disabled queued
    rw [enabled] at disabled
    have before := ok.queue disabled
    have cause := queue queued
    simp [before, disabled] at cause

theorem timerQuiet_spec (quiet : timerQuiet s = true) :
    s.timerScheduled = false ∧ s.timerFiring = false ∧ .reconnect ∉ s.queue := by
  simp only [timerQuiet, Bool.and_eq_true, Bool.not_eq_true', List.contains_eq_mem,
    decide_eq_false_iff_not] at quiet
  exact ⟨quiet.1.1, quiet.1.2, quiet.2⟩

theorem TimerOk.frame (ok : TimerOk s) (enabled : s'.enableReconnect = s.enableReconnect)
    (scheduled : s'.timerScheduled = s.timerScheduled) (firing : s'.timerFiring = s.timerFiring)
    (queue : .reconnect ∈ s'.queue → .reconnect ∈ s.queue) : TimerOk s' := by
  refine ok.keep enabled ?_ ?_ (fun queued => .inl (queue queued))
  · rw [scheduled]
    exact .inl
  · rw [firing]
    exact .inl

theorem TimerOk.scheduleReconnect (ok : TimerOk s) : TimerOk (scheduleReconnect s) := by
  refine ok.keep rfl ?_ .inl .inl
  intro running
  simp only [TcpHandler.scheduleReconnect, Bool.or_eq_true] at running
  exact running.symm

theorem mem_of_mem_tail {task : Task} {queue : List Task} (head : s.queue = task :: queue)
    (queued : .reconnect ∈ queue) : .reconnect ∈ s.queue := by
  rw [head]
  exact List.mem_cons_of_mem _ queued

theorem TimerOk.connect (ok : TimerOk s) (clean : switchesOff s = true → timerQuiet s = true)
    {task : Task} {queue : List Task} {enableReconnect usingTLS : Bool} (idle : s.worker = .idle)
    (head : s.queue = task :: queue) (invalid : s.socket = none)
    (kind : task.Connects s enableReconnect usingTLS) :
    TimerOk { s with
      queue := queue, enableReconnect := enableReconnect, usingTLS := usingTLS
      worker := .connecting } := by
  cases kind with
  | reconnect => exact ok.frame rfl rfl rfl (mem_of_mem_tail head)
  | connect =>
      cases enableReconnect with
      | true => exact ⟨nofun, nofun, nofun⟩
      | false =>
          have off : switchesOff s = true := by
            simp [switchesOff, idle, head, invalid]
          obtain ⟨scheduled, firing, none⟩ := timerQuiet_spec (clean off)
          exact ⟨fun _ => scheduled, fun _ => firing,
            fun _ queued => none (mem_of_mem_tail head queued)⟩

theorem TimerOk.workerMove (ok : TimerOk s)
    (clean : s.worker = .idle → switchesOff s = true → timerQuiet s = true)
    (move : WorkerMove s s') : TimerOk s' := by
  cases move with
  | skip idle head kind => exact ok.frame rfl rfl rfl (mem_of_mem_tail head)
  | connect idle head invalid kind => exact ok.connect (clean idle) idle head invalid kind
  | disconnect idle head valid kind => exact ok.frame rfl rfl rfl (mem_of_mem_tail head)
  | send idle head valid => exact ok.frame rfl rfl rfl (mem_of_mem_tail head)
  | onConnect idle head => exact ok.frame rfl rfl rfl (mem_of_mem_tail head)
  | dispatch idle head => exact ok.frame rfl rfl rfl (mem_of_mem_tail head)
  | join phase finished =>
      have scheduled := ok.scheduleReconnect
      exact scheduled.frame rfl rfl rfl id
  | endDispatch phase =>
      unfold endDispatch
      split
      · exact ok.frame rfl rfl rfl id
      · exact ok.frame rfl rfl rfl id
  | refused phase => exact ok.scheduleReconnect.frame rfl rfl rfl id
  | rejected phase usingTLS => exact ok.scheduleReconnect.frame rfl rfl rfl id
  | sendOn sending sending' queue =>
      refine ok.frame rfl rfl rfl ?_
      intro queued
      rcases queue with rfl | rfl
      · exact queued
      · simpa using queued
  | _ => exact ok.frame rfl rfl rfl id

theorem TimerOk.receiverMove (ok : TimerOk s) (own : s.receiver.ownTask = true)
    (move : ReceiverMove s s') : TimerOk s' := by
  obtain ⟨frame, scheduled, firing⟩ := move.frame
  refine ok.frame frame.enableReconnect scheduled firing ?_
  intro queued
  obtain same | ⟨task, rfl | rfl, grown⟩ := move.queue own
  · exact same ▸ queued
  · simpa [grown] using queued
  · simpa [grown] using queued

theorem TimerOk.outsideMove (ok : TimerOk s)
    (clients : ∀ client task, s.clients client = .enqueueing task → task.fromClient = true)
    (move : OutsideMove s s') : TimerOk s' := by
  cases move with
  | call own => exact ok.frame rfl rfl rfl id
  | @enqueue client task queueing =>
      refine ok.frame rfl rfl rfl ?_
      intro queued
      rcases List.mem_append.mp queued with before | added
      · exact before
      · have own := clients client task queueing
        rw [← List.mem_singleton.mp added] at own
        cases own
  | timerFires scheduled =>
      refine ok.keep rfl nofun ?_ .inl
      intro _
      right
      by_contra disabled
      have stopped := ok.scheduled (Bool.not_eq_true _ ▸ disabled)
      rw [stopped] at scheduled
      cases scheduled
  | timerEnqueues firing =>
      refine ok.keep rfl .inl nofun ?_
      intro _
      right
      by_contra disabled
      have stopped := ok.firing (Bool.not_eq_true _ ▸ disabled)
      rw [stopped] at firing
      cases firing

end FreeDV.Util.TcpHandler
