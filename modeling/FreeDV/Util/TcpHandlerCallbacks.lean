import FreeDV.Util.TcpHandlerSteps

/-!
# The order of the callbacks

A child class is to see `onConnect_`, then any number of `onReceive_`, then
`onDisconnect_`, over and over. `onConnect_` is a task of its own, at the end of
the queue: a task already queued there that disconnects or dispatches runs
first. Without such a task the order is kept.
-/

set_option autoImplicit false

namespace FreeDV.Util.TcpHandler

open FreeDV.Lib

variable {s s' : State}

/-- One more call in a sequence, in or out of a session. `onRecvEndFn_` is no virtual call and
stands anywhere. -/
def Callback.follow : Bool → Callback → Option Bool
  | false, .onConnect => some true
  | true, .onConnect => none
  | true, .onReceive _ _ => some true
  | false, .onReceive _ _ => none
  | true, .onDisconnect => some false
  | false, .onDisconnect => none
  | session, .onRecvEnd => some session

theorem Callback.follow_onRecvEnd (session : Bool) :
    Callback.follow session .onRecvEnd = some session := by
  cases session with
  | true => rfl
  | false => rfl

/-- Whether a sequence of calls that keeps to the protocol ends inside a session. -/
def protocol (callbacks : List Callback) : Option Bool := callbacks.foldlM Callback.follow false

theorem protocol_append {callbacks : List Callback} {session : Bool} (callback : Callback)
    (kept : protocol callbacks = some session) :
    protocol (callbacks ++ [callback]) = callback.follow session := by
  rw [protocol] at kept ⊢
  rw [List.foldlM_append, kept]
  simp

/-- How many connections `onConnect_` has been called for. The connections are announced in the
order in which they were established, so the next call announces the one with this number. -/
def announced (s : State) : Nat := s.callbacks.count .onConnect

/-- Tasks that call `onReceive_` or `onDisconnect_`. -/
def Task.callsBack : Task → Bool
  | .disconnect => true
  | .close => true
  | .dispatch => true
  | _ => false

/-! ## The invariant -/

structure Announced (s : State) (session : Bool) : Prop where
  protocol : protocol s.callbacks = some session
  queue : .onConnect ∉ s.queue
  all : announced s = s.connections

/-- The open connection has not been announced; nothing in front of its `onConnect_` calls back. -/
structure Unannounced (s : State) : Prop where
  protocol : protocol s.callbacks = some false
  queue : ∃ front rest, s.queue = front ++ .onConnect :: rest ∧
    (∀ task ∈ front, task.callsBack = false ∧ task ≠ .onConnect) ∧ .onConnect ∉ rest
  socket : s.socket = some (announced s)
  all : announced s + 1 = s.connections

def CallbacksOk (s : State) : Worker → Prop
  | .idle => Announced s s.socket.isSome ∨ Unannounced s
  | .sendSelect _ => Announced s s.socket.isSome ∨ Unannounced s
  | .sendWrite _ => Announced s s.socket.isSome ∨ Unannounced s
  | .measuring => Announced s s.socket.isSome
  | .reading _ => Announced s s.socket.isSome
  | .connecting => Announced s false
  | .negotiating => Announced s false
  | .disconnecting _ => Announced s true
  | .joining _ => Announced s true

/-- The queue is unchanged, or a task other than `onConnect_` was added. -/
def QueueGrows (s s' : State) : Prop :=
  s'.queue = s.queue ∨ ∃ task, task ≠ .onConnect ∧ s'.queue = s.queue ++ [task]

theorem Announced.keep {session : Bool} (ok : Announced s session)
    (callbacks : s'.callbacks = s.callbacks) (connections : s'.connections = s.connections)
    (queue : .onConnect ∈ s'.queue → .onConnect ∈ s.queue) : Announced s' session where
  protocol := by
    rw [callbacks]
    exact ok.protocol
  queue queued := ok.queue (queue queued)
  all := by
    rw [announced, callbacks, connections]
    exact ok.all

theorem QueueGrows.onConnect (grows : QueueGrows s s') (queued : .onConnect ∈ s'.queue) :
    .onConnect ∈ s.queue := by
  obtain same | ⟨task, other, grown⟩ := grows
  · exact same ▸ queued
  · rw [grown] at queued
    rcases List.mem_append.mp queued with before | added
    · exact before
    · exact absurd (List.mem_singleton.mp added).symm other

theorem Unannounced.keep (ok : Unannounced s) (callbacks : s'.callbacks = s.callbacks)
    (connections : s'.connections = s.connections) (socket : s'.socket = s.socket)
    (grows : QueueGrows s s') : Unannounced s' where
  protocol := by
    rw [callbacks]
    exact ok.protocol
  queue := by
    obtain ⟨front, rest, split, quiet, once⟩ := ok.queue
    obtain same | ⟨task, other, grown⟩ := grows
    · exact ⟨front, rest, same.trans split, quiet, once⟩
    · refine ⟨front, rest ++ [task], ?_, quiet, ?_⟩
      · rw [grown, split, List.append_assoc, List.cons_append]
      · simp [once, other.symm]
  socket := by
    rw [socket, announced, callbacks]
    exact ok.socket
  all := by
    rw [announced, callbacks, connections]
    exact ok.all

theorem CallbacksOk.frame {worker : Worker} (ok : CallbacksOk s worker) (frame : Frame s s')
    (grows : QueueGrows s s') : CallbacksOk s' worker := by
  have announced {session : Bool} (ok : Announced s session) : Announced s' session :=
    ok.keep frame.callbacks frame.connections grows.onConnect
  have unannounced (ok : Unannounced s) : Unannounced s' :=
    ok.keep frame.callbacks frame.connections frame.socket grows
  have settled (ok : Announced s s.socket.isSome) : Announced s' s'.socket.isSome := by
    rw [frame.socket]
    exact announced ok
  cases worker with
  | idle => exact ok.imp settled unannounced
  | sendSelect buf => exact ok.imp settled unannounced
  | sendWrite buf => exact ok.imp settled unannounced
  | measuring => exact settled ok
  | reading toRead => exact settled ok
  | connecting => exact announced ok
  | negotiating => exact announced ok
  | disconnecting requested => exact announced ok
  | joining requested => exact announced ok

/-! ## The worker -/

theorem Unannounced.pop (ok : Unannounced s) {task : Task} {queue : List Task}
    (head : s.queue = task :: queue) (other : task ≠ .onConnect) :
    task.callsBack = false ∧ ∃ front rest, queue = front ++ .onConnect :: rest ∧
      (∀ task ∈ front, task.callsBack = false ∧ task ≠ .onConnect) ∧ .onConnect ∉ rest := by
  obtain ⟨front, rest, split, quiet, once⟩ := ok.queue
  rw [head] at split
  cases front with
  | nil =>
      cases split
      exact absurd rfl other
  | cons first front =>
      cases split
      refine ⟨(quiet task (List.mem_cons_self ..)).1, front, rest, rfl, ?_, once⟩
      intro task member
      exact quiet task (List.mem_cons_of_mem _ member)

theorem Unannounced.head (ok : Unannounced s) {queue : List Task}
    (head : s.queue = .onConnect :: queue) : .onConnect ∉ queue := by
  obtain ⟨front, rest, split, quiet, once⟩ := ok.queue
  rw [head] at split
  cases front with
  | nil =>
      cases split
      exact once
  | cons first front =>
      cases split
      exact absurd rfl (quiet _ (List.mem_cons_self ..)).2

theorem Announced.pop {session : Bool} (ok : Announced s session) {task : Task}
    {queue : List Task} (head : s.queue = task :: queue) (queued : .onConnect ∈ queue) : False :=
  ok.queue (head ▸ List.mem_cons_of_mem _ queued)

theorem callbacksOk_pop (ok : Announced s s.socket.isSome ∨ Unannounced s) {task : Task}
    {queue : List Task} (head : s.queue = task :: queue) (other : task ≠ .onConnect)
    (queue' : s'.queue = queue) (callbacks : s'.callbacks = s.callbacks)
    (connections : s'.connections = s.connections) (socket : s'.socket = s.socket) :
    Announced s' s'.socket.isSome ∨ Unannounced s' := by
  refine ok.imp ?_ ?_
  · intro ok
    rw [socket]
    refine ok.keep callbacks connections ?_
    intro queued
    rw [queue'] at queued
    exact (ok.pop head queued).elim
  · intro ok
    refine ⟨callbacks ▸ ok.protocol, ?_, ?_, ?_⟩
    · rw [queue']
      exact (ok.pop head other).2
    · rw [socket, announced, callbacks]
      exact ok.socket
    · rw [announced, callbacks, connections]
      exact ok.all

/-- A task that may call back is only taken once the open connection has been announced. -/
theorem announced_of_callsBack (ok : Announced s s.socket.isSome ∨ Unannounced s) {task : Task}
    {queue : List Task} (head : s.queue = task :: queue) (calls : task.callsBack = true) :
    Announced { s with queue := queue } s.socket.isSome := by
  have other : task ≠ .onConnect := by
    rintro rfl
    cases calls
  cases ok with
  | inl ok =>
      refine ok.keep rfl rfl ?_
      intro queued
      exact (ok.pop head queued).elim
  | inr ok =>
      have quiet := (ok.pop head other).1
      rw [calls] at quiet
      cases quiet

theorem announced_of_invalid (ok : Announced s s.socket.isSome ∨ Unannounced s)
    (invalid : s.socket = none) : Announced s false := by
  cases ok with
  | inl ok =>
      rw [invalid] at ok
      exact ok
  | inr ok =>
      have valid := ok.socket
      rw [invalid] at valid
      cases valid

theorem Announced.call {session session' : Bool} (ok : Announced s session) {callback : Callback}
    (follows : callback.follow session = some session') (other : callback ≠ .onConnect) :
    Announced (call s callback) session' where
  protocol := (protocol_append callback ok.protocol).trans follows
  queue := ok.queue
  all := by
    rw [announced, TcpHandler.call, List.count_append, List.count_singleton, beq_false_of_ne other]
    exact ok.all

theorem CallbacksOk.workerMove (ok : CallbacksOk s s.worker) (handler : HandlerOk s)
    (move : WorkerMove s s') : CallbacksOk s' s'.worker := by
  have atPhase {worker : Worker} (phase : s.worker = worker) : CallbacksOk s worker := phase ▸ ok
  cases move with
  | @skip task queue cancelConnect onRecvEndFn idle head kind =>
      have other : task ≠ .onConnect := by
        rintro rfl
        cases kind
      simp only [idle]
      exact callbacksOk_pop (atPhase idle) head other rfl rfl rfl rfl
  | connect idle head invalid kind =>
      have ok := announced_of_invalid (atPhase idle) invalid
      refine ok.keep rfl rfl ?_
      intro queued
      exact (ok.pop head queued).elim
  | @disconnect task queue requested connection idle head valid kind =>
      have calls : task.callsBack = true := by
        cases kind with
        | disconnect => rfl
        | close => rfl
      have ok := announced_of_callsBack (atPhase idle) head calls
      rw [valid] at ok
      exact ok.keep rfl rfl id
  | send idle head valid =>
      exact callbacksOk_pop (atPhase idle) head (by simp) rfl rfl rfl rfl
  | @onConnect queue idle head =>
      have ok : Announced s s.socket.isSome ∨ Unannounced s := atPhase idle
      simp only [call, idle]
      cases ok with
      | inl ok => exact absurd (head ▸ List.mem_cons_self ..) ok.queue
      | inr ok =>
          left
          refine ⟨?_, ok.head head, ?_⟩
          · rw [ok.socket]
            exact protocol_append .onConnect ok.protocol
          · rw [announced, List.count_append]
            exact ok.all
  | dispatch idle head => exact (announced_of_callsBack (atPhase idle) head rfl).keep rfl rfl id
  | clearTls phase => exact Announced.keep (atPhase phase) rfl rfl id
  | join phase finished =>
      have closed := (handler.atPhase phase).1
      have ok : Announced s true := atPhase phase
      have ended : Announced (call s .onDisconnect) false := ok.call rfl (by simp)
      left
      simp only [scheduleReconnect, call, closed]
      exact ended.keep rfl rfl id
  | measure phase valid => exact Announced.keep (atPhase phase) rfl rfl id
  | endDispatch phase =>
      have ok : Announced s s.socket.isSome := atPhase phase
      unfold endDispatch
      split
      · have ended : Announced (call s .onRecvEnd) s.socket.isSome :=
          ok.call (Callback.follow_onRecvEnd _) (by simp)
        exact .inl (ended.keep rfl rfl id)
      · exact .inl (ok.keep rfl rfl id)
  | @deliver toRead connection phase valid =>
      have ok : Announced s s.socket.isSome := atPhase phase
      rw [valid] at ok
      have given : Announced (call s (.onReceive connection (s.receiveBuffer.take toRead))) true :=
        ok.call rfl (by simp)
      simp only [call, CallbacksOk, valid]
      exact given.keep rfl rfl id
  | discard phase invalid => exact Announced.keep (atPhase phase) rfl rfl id
  | connected phase => exact Announced.keep (atPhase phase) rfl rfl id
  | refused phase =>
      have closed := (handler.atPhase phase).1
      left
      simp only [scheduleReconnect, closed]
      exact Announced.keep (atPhase phase) rfl rfl id
  | rejected phase usingTLS => exact .inl (Announced.keep (atPhase phase) rfl rfl id)
  | @sendOn worker queue sending sending' queue' =>
      have ok : Announced s s.socket.isSome ∨ Unannounced s := by
        cases phase : s.worker with
        | sendSelect buf => exact atPhase phase
        | sendWrite buf => exact atPhase phase
        | _ => simp [phase, Worker.sending] at sending
      have grows : QueueGrows s { s with queue := queue, worker := worker } :=
        queue'.imp id fun grown => ⟨.close, by simp, grown⟩
      have kept : Announced { s with queue := queue, worker := worker } s.socket.isSome ∨
          Unannounced { s with queue := queue, worker := worker } :=
        ok.imp (fun ok => ok.keep rfl rfl grows.onConnect) (fun ok => ok.keep rfl rfl rfl grows)
      rcases sending' with rfl | sending'
      · exact kept
      · cases worker with
        | sendSelect buf => exact kept
        | sendWrite buf => exact kept
        | _ => cases sending'

/-! ## Whole runs -/

/-- When `onConnect_` is queued, no task that calls back is queued in front of it. -/
def announcesFirst (s : State) : Action → Bool
  | .negotiateStep true => s.queue.all fun task => !task.callsBack
  | _ => true

theorem CallbacksOk.establish (ok : CallbacksOk s s.worker) (handler : HandlerOk s)
    (phase : s.worker = .negotiating) (first : ∀ task ∈ s.queue, task.callsBack = false) :
    CallbacksOk (establish s) (establish s).worker := by
  rw [phase] at ok
  have ok : Announced s false := ok
  have fresh := (handler.atPhase phase).1
  right
  refine ⟨ok.protocol, ⟨s.queue, [], rfl, ?_, nofun⟩, ?_, ?_⟩
  · intro task member
    refine ⟨first task member, ?_⟩
    rintro rfl
    exact ok.queue member
  · exact fresh.trans (congrArg some ok.all.symm)
  · exact congrArg Nat.succ ok.all

theorem OutsideMove.queueGrows (move : OutsideMove s s')
    (clients : ∀ client task, s.clients client = .enqueueing task → task.fromClient = true) :
    QueueGrows s s' := by
  cases move with
  | call own => exact .inl rfl
  | @enqueue client task queueing =>
      refine .inr ⟨task, ?_, rfl⟩
      rintro rfl
      cases clients client _ queueing
  | timerFires scheduled => exact .inl rfl
  | timerEnqueues firing => exact .inr ⟨.reconnect, by simp, rfl⟩

theorem callbacksOk_of_reachable
    (reachable : Reachable next (fun s action => announcesFirst s action = true) State.initial s) :
    CallbacksOk s s.worker := by
  refine (invariant_of_moves (fun s => CallbacksOk s s.worker) ?_ ?_ reachable).2
  · exact .inl ⟨rfl, nofun, rfl⟩
  · intro s action s' handler ok first move
    cases move with
    | worker _ move => exact ok.workerMove handler move
    | establish starts phase =>
        subst starts
        refine ok.establish handler phase ?_
        intro task member
        simpa using List.all_eq_true.mp first task member
    | receiver move =>
        obtain ⟨frame, _⟩ := move.frame
        rw [frame.worker]
        refine ok.frame frame ?_
        obtain same | ⟨task, own, grown⟩ := move.queue handler.receiver
        · exact .inl same
        · refine .inr ⟨task, ?_, grown⟩
          rintro rfl
          simp at own
    | outside move =>
        have frame := move.frame
        rw [frame.worker]
        exact ok.frame frame (move.queueGrows handler.clients)

theorem CallbacksOk.protocol_isSome {worker : Worker} (ok : CallbacksOk s worker) :
    (protocol s.callbacks).isSome = true := by
  have announced {session : Bool} (ok : Announced s session) :
      (protocol s.callbacks).isSome = true := by
    rw [ok.protocol]
    rfl
  have settled (ok : Announced s s.socket.isSome ∨ Unannounced s) :
      (protocol s.callbacks).isSome = true := by
    cases ok with
    | inl ok => exact announced ok
    | inr ok =>
        rw [ok.protocol]
        rfl
  cases worker with
  | idle => exact settled ok
  | sendSelect buf => exact settled ok
  | sendWrite buf => exact settled ok
  | measuring => exact announced ok
  | reading toRead => exact announced ok
  | connecting => exact announced ok
  | negotiating => exact announced ok
  | disconnecting requested => exact announced ok
  | joining requested => exact announced ok

/-- While no task that calls back is queued in front of an `onConnect_`, the calls keep to the
protocol, and each `onConnect_` is called while its connection is the open one. -/
theorem callbacks_keep_to_the_protocol
    (reachable : Reachable next (fun s action => announcesFirst s action = true) State.initial s) :
    (protocol s.callbacks).isSome = true ∧
      ∀ queue, s.worker = .idle → s.queue = .onConnect :: queue →
        s.socket = some (announced s) := by
  have ok := callbacksOk_of_reachable reachable
  refine ⟨ok.protocol_isSome, ?_⟩
  intro queue idle head
  rw [idle] at ok
  cases ok with
  | inl ok => exact absurd (head ▸ List.mem_cons_self ..) ok.queue
  | inr ok => exact ok.socket

/-- `connect` with its `onConnect_`, a byte, and a disconnect. -/
def sessionSteps : List Action :=
  [.connect 1 false false, .clientStep 1, .workerStep, .connectStep true, .negotiateStep true,
    .workerStep,
    .receiverStep, .receiverStep, .receiverPending false, .receiverSelect .ready, .receiverStep,
    .receiverStep, .receiverStep, .receiverStep, .receiverRead (.data [65]), .receiverStep,
    .receiverStep, .receiverStep, .workerStep, .workerStep, .workerStep, .workerStep,
    .disconnect 1, .clientStep 1, .workerStep, .workerStep, .receiverStep, .workerStep]

/-- Two sessions one after the other. -/
theorem two_sessions_keep_to_the_protocol :
    ∃ s, Reachable next (fun s action => announcesFirst s action = true) State.initial s ∧
      s.callbacks = [.onConnect, .onReceive 0 [(0, 65)], .onDisconnect,
        .onConnect, .onReceive 1 [(1, 65)], .onDisconnect] ∧
      (protocol s.callbacks).isSome = true := by
  have executed : (runActions next (fun s action => announcesFirst s action = true) State.initial
      (sessionSteps ++ sessionSteps)).map (·.callbacks) =
      some [.onConnect, .onReceive 0 [(0, 65)], .onDisconnect,
        .onConnect, .onReceive 1 [(1, 65)], .onDisconnect] := by
    decide +kernel
  obtain ⟨s, executed, callbacks⟩ := Option.map_eq_some_iff.mp executed
  have reachable := Reachable.of_runActions _ .start executed
  exact ⟨s, reachable, callbacks, (callbacks_keep_to_the_protocol reachable).1⟩

/-- A disconnect that is requested during the connection attempt runs before `onConnect_`. -/
theorem a_connection_is_announced_after_its_end :
    ∃ s, Reachable next (fun _ _ => True) State.initial s ∧
      s.callbacks = [.onDisconnect, .onConnect] ∧ s.socket = none ∧
      ¬ (protocol s.callbacks).isSome = true := by
  have executed : (runActions next (fun _ _ => True) State.initial
      [.connect 1 false false, .clientStep 1, .workerStep, .connectStep true,
        .disconnect 1, .clientStep 1, .negotiateStep true,
        .workerStep, .workerStep, .receiverStep, .workerStep, .workerStep]).map
        (fun s => (s.callbacks, s.socket)) = some ([.onDisconnect, .onConnect], none) := by
    decide +kernel
  obtain ⟨s, executed, result⟩ := Option.map_eq_some_iff.mp executed
  simp only [Prod.mk.injEq] at result
  refine ⟨s, Reachable.of_runActions _ .start executed, result.1, result.2, ?_⟩
  rw [result.1]
  decide

end FreeDV.Util.TcpHandler
