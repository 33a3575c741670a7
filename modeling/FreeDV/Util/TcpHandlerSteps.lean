import FreeDV.Util.TcpHandler
import Mathlib.Data.List.Basic

/-!
# What a step of the handler can do

Each step of a run is one of a few moves: of the worker, of the receive thread,
or of the clients and the timer. Invariants are checked against the moves.
-/

set_option autoImplicit false

namespace FreeDV.Util.TcpHandler

open FreeDV.Lib

variable {s s' : State}

/-- Tasks that end in `disconnectImpl_`, with the flag of `disconnect`'s own task. -/
inductive Task.Disconnects : Task → Bool → Prop
  | disconnect : Disconnects .disconnect true
  | close : Disconnects .close false

/-- Tasks that lead into `connectImpl_`, with the settings it runs under. -/
inductive Task.Connects (s : State) : Task → Bool → Bool → Prop
  | connect (enableReconnect enableTLS : Bool) :
      Connects s (.connect enableReconnect enableTLS) enableReconnect enableTLS
  | reconnect : Connects s .reconnect s.enableReconnect s.usingTLS

/-- Tasks that do nothing while `socket_` is valid, or while it is not. -/
def Task.idles : Task → Option Nat → Bool
  | .connect _ _, socket => socket.isSome
  | .reconnect, socket => socket.isSome
  | .disconnect, socket => socket.isNone
  | .close, socket => socket.isNone
  | .send _, socket => socket.isNone
  | .setOnRecvEndFn _, _ => true
  | .onConnect, _ => false
  | .dispatch, _ => false

def Worker.sending : Worker → Bool
  | .sendSelect _ => true
  | .sendWrite _ => true
  | _ => false

/-- What a step of the worker can do, up to the one that establishes a connection. -/
inductive WorkerMove (s : State) : State → Prop
  | skip {task : Task} {queue : List Task} {cancelConnect onRecvEndFn : Bool} :
      s.worker = .idle → s.queue = task :: queue → task.idles s.socket = true →
      WorkerMove s { s with
        queue := queue, cancelConnect := cancelConnect, onRecvEndFn := onRecvEndFn }
  | connect {task : Task} {queue : List Task} {enableReconnect usingTLS : Bool} :
      s.worker = .idle → s.queue = task :: queue → s.socket = none →
      task.Connects s enableReconnect usingTLS →
      WorkerMove s { s with
        queue := queue, enableReconnect := enableReconnect, usingTLS := usingTLS
        worker := .connecting }
  | disconnect {task : Task} {queue : List Task} {requested : Bool} {connection : Nat} :
      s.worker = .idle → s.queue = task :: queue → s.socket = some connection →
      task.Disconnects requested →
      WorkerMove s { s with
        queue := queue, socket := none, worker := .disconnecting requested }
  | send {buf : List UInt8} {queue : List Task} {connection : Nat} :
      s.worker = .idle → s.queue = .send buf :: queue → s.socket = some connection →
      WorkerMove s { s with queue := queue, worker := .sendSelect buf }
  | onConnect {queue : List Task} :
      s.worker = .idle → s.queue = .onConnect :: queue →
      WorkerMove s (call { s with queue := queue } .onConnect)
  | dispatch {queue : List Task} :
      s.worker = .idle → s.queue = .dispatch :: queue →
      WorkerMove s { s with queue := queue, worker := .measuring }
  | clearTls {requested : Bool} :
      s.worker = .disconnecting requested →
      WorkerMove s { s with ssl := none, worker := .joining requested }
  | join {requested cancelConnect : Bool} :
      s.worker = .joining requested → s.receiver = .finished →
      WorkerMove s { scheduleReconnect (call { s with receiver := .absent } .onDisconnect) with
        cancelConnect := cancelConnect, worker := .idle }
  | measure {connection : Nat} :
      s.worker = .measuring → s.socket = some connection →
      WorkerMove s { s with worker := .reading (min (numUsed s) READ_SIZE_BYTES) }
  | endDispatch : s.worker = .measuring → WorkerMove s (endDispatch s)
  | deliver {toRead connection : Nat} :
      s.worker = .reading toRead → s.socket = some connection →
      WorkerMove s (call { s with
        receiveBuffer := s.receiveBuffer.drop toRead, worker := .measuring }
        (.onReceive connection (s.receiveBuffer.take toRead)))
  | discard {toRead : Nat} :
      s.worker = .reading toRead → s.socket = none →
      WorkerMove s { s with receiveBuffer := s.receiveBuffer.drop toRead, worker := .measuring }
  | connected :
      s.worker = .connecting →
      WorkerMove s { s with socket := some s.connections, worker := .negotiating }
  | refused :
      s.worker = .connecting → WorkerMove s (scheduleReconnect { s with worker := .idle })
  | rejected :
      s.worker = .negotiating → s.usingTLS = true →
      WorkerMove s (scheduleReconnect { s with socket := none, ssl := none, worker := .idle })
  | sendOn {worker : Worker} {queue : List Task} :
      s.worker.sending = true → worker = .idle ∨ worker.sending = true →
      queue = s.queue ∨ queue = s.queue ++ [.close] →
      WorkerMove s { s with queue := queue, worker := worker }

/-- A connection is established: its receive thread starts. -/
def establish (s : State) : State :=
  { enqueue s .onConnect with
    ssl := if s.usingTLS then s.socket else none
    receiver := .top
    connections := s.connections + 1
    worker := .idle }

theorem disconnectImpl_move {task : Task} {queue : List Task} {requested : Bool}
    (idle : s.worker = .idle) (head : s.queue = task :: queue) (kind : task.Disconnects requested) :
    WorkerMove s (disconnectImpl { s with queue := queue } requested) := by
  unfold disconnectImpl
  split
  case h_1 invalid =>
    refine .skip idle head ?_
    change s.socket = none at invalid
    rw [invalid]
    cases kind with
    | disconnect => rfl
    | close => rfl
  case h_2 connection valid => exact .disconnect idle head valid kind

theorem beginTask_move {task : Task} {queue : List Task} (idle : s.worker = .idle)
    (head : s.queue = task :: queue) :
    WorkerMove s (beginTask { s with queue := queue } task) := by
  cases task with
  | connect enableReconnect enableTLS =>
      simp only [beginTask, connectImpl]
      split
      case h_1 invalid =>
        split
        · exact .connect idle head invalid (.connect enableReconnect enableTLS)
        · rename_i valid
          cases valid
      case h_2 connection valid => exact .skip idle head (by rw [valid]; rfl)
  | reconnect =>
      simp only [beginTask, connectImpl]
      split
      case h_1 invalid => exact .connect idle head invalid .reconnect
      case h_2 connection valid => exact .skip idle head (by rw [valid]; rfl)
  | disconnect => exact disconnectImpl_move idle head .disconnect
  | close => exact disconnectImpl_move idle head .close
  | send buf =>
      simp only [beginTask]
      split
      case h_1 invalid => exact .skip idle head (by rw [invalid]; rfl)
      case h_2 connection valid => exact .send idle head valid
  | setOnRecvEndFn present => exact .skip idle head rfl
  | onConnect => exact .onConnect idle head
  | dispatch => exact .dispatch idle head

theorem workerStep_move (taken : workerStep s = some s') : WorkerMove s s' := by
  unfold workerStep at taken
  split at taken
  case h_1 idle =>
    split at taken
    case h_1 => cases taken
    case h_2 task queue head =>
      cases taken
      exact beginTask_move idle head
  case h_2 requested phase =>
    cases taken
    exact .clearTls phase
  case h_3 requested phase =>
    split at taken
    case h_1 finished =>
      cases taken
      exact .join phase finished
    case h_2 => cases taken
  case h_4 phase =>
    dsimp only at taken
    split at taken
    case isTrue more =>
      cases taken
      obtain ⟨connection, valid⟩ := Option.isSome_iff_exists.mp more.1
      exact .measure phase valid
    case isFalse =>
      cases taken
      exact .endDispatch phase
  case h_5 toRead phase =>
    split at taken
    case h_1 invalid =>
      cases taken
      exact .discard phase invalid
    case h_2 connection valid =>
      cases taken
      exact .deliver phase valid
  all_goals cases taken

theorem connectStep_move {connected : Bool} (taken : connectStep s connected = some s') :
    WorkerMove s s' := by
  unfold connectStep at taken
  split at taken
  case h_1 phase =>
    split at taken
    · cases taken
      exact .connected phase
    · cases taken
      exact .refused phase
  case h_2 => cases taken

theorem negotiateStep_move {established : Bool} (taken : negotiateStep s established = some s') :
    WorkerMove s s' ∨ established = true ∧ s.worker = .negotiating ∧ s' = establish s := by
  unfold negotiateStep at taken
  split at taken
  case h_1 phase =>
    cases established with
    | true =>
        cases taken
        exact .inr ⟨rfl, phase, rfl⟩
    | false =>
        simp only [Bool.false_eq_true, if_false] at taken
        split at taken
        case isTrue usingTLS =>
          cases taken
          exact .inl (.rejected phase usingTLS)
        case isFalse => cases taken
  case h_2 => cases taken

theorem sendSelect_move {result : SelectResult} (taken : sendSelect s result = some s') :
    WorkerMove s s' := by
  unfold sendSelect at taken
  split at taken
  case h_1 phase =>
    cases taken
    exact .sendOn (by rw [phase]; rfl) (.inl rfl) (.inl rfl)
  case h_2 byte buf phase =>
    have sending : s.worker.sending = true := by
      rw [phase]
      rfl
    cases result with
    | ready =>
        cases taken
        exact .sendOn sending (.inr rfl) (.inl rfl)
    | timeout =>
        cases taken
        refine .sendOn sending ?_ (.inl rfl)
        split
        · exact .inl rfl
        · exact .inr sending
    | failed =>
        cases taken
        exact .sendOn sending (.inr sending) (.inr rfl)
  case h_3 => cases taken

theorem sendWrite_move {result : WriteResult} (taken : sendWrite s result = some s') :
    WorkerMove s s' := by
  unfold sendWrite at taken
  split at taken
  case h_1 buf phase =>
    dsimp only at taken
    have sending : s.worker.sending = true := by
      rw [phase]
      rfl
    have failed : WorkerMove s (enqueue { s with worker := .idle } .close) :=
      .sendOn sending (.inl rfl) (.inr rfl)
    split at taken
    case h_1 =>
      cases taken
      exact failed
    case h_2 count =>
      split at taken
      · cases taken
        exact .sendOn sending (.inr rfl) (.inl rfl)
      · cases taken
    case h_3 =>
      cases taken
      exact failed
    case h_4 =>
      split at taken
      · cases taken
        exact .sendOn sending (.inr rfl) (.inl rfl)
      · cases taken
    case h_5 waited =>
      split at taken
      · split at taken
        · cases taken
          exact failed
        · cases taken
          exact .sendOn sending (.inr sending) (.inl rfl)
      · cases taken
  case h_2 => cases taken

/-! ## The receive thread -/

def Receiver.emptyHanded : Receiver → Bool
  | .absent => false
  | .write _ _ => false
  | _ => true

/-- The thread has found room for one more read. -/
def Receiver.hasRoom : Receiver → Bool
  | .chooseRead _ => true
  | .sslRead _ => true
  | .plainRead _ => true
  | .write _ _ => true
  | _ => false

/-- The thread only queues tasks of its own. -/
def Receiver.ownTask : Receiver → Bool
  | .enqueueing .dispatch _ => true
  | .enqueueing .close _ => true
  | .enqueueing _ _ => false
  | _ => true

/-- What a step of the receive thread can do. -/
inductive ReceiverMove (s : State) : State → Prop
  | goOn {receiver : Receiver} :
      s.receiver.emptyHanded = true → receiver.emptyHanded = true → receiver.hasRoom = false →
      receiver.ownTask = true → ReceiverMove s { s with receiver := receiver }
  | findRoom {receiver : Receiver} :
      s.receiver.emptyHanded = true → receiver.emptyHanded = true →
      s.receiver.hasRoom = true ∨ READ_SIZE_BYTES ≤ numFree s →
      receiver.ownTask = true → ReceiverMove s { s with receiver := receiver }
  | read {pass : Pass} {connection : Nat} {data : List UInt8} {s' : State} :
      s.receiver.emptyHanded = true → s.receiver.hasRoom = true →
      s.socket = some connection ∨ s.ssl = some connection →
      received s pass connection data = some s' → ReceiverMove s s'
  | write {pass : Pass} {buf : List Byte} {receiver : Receiver} :
      s.receiver = .write pass buf → receiver.emptyHanded = true → receiver.hasRoom = false →
      receiver.ownTask = true → ReceiverMove s { writeBuffer s buf with receiver := receiver }
  | enqueue {task : Task} {stop : Bool} :
      s.receiver = .enqueueing task stop →
      ReceiverMove s { enqueue s task with receiver := if stop then .finished else .top }

theorem endPass_move {pass : Pass} {bufferFull : Bool} (empty : s.receiver.emptyHanded = true) :
    ReceiverMove s { s with receiver := endPass s pass bufferFull } := by
  unfold endPass
  split
  · exact .goOn empty rfl rfl rfl
  · split
    · exact .goOn empty rfl rfl rfl
    · split
      · exact .goOn empty rfl rfl rfl
      · exact .goOn empty rfl rfl rfl

theorem ReceiverMove.decide {condition : Prop} [Decidable condition] {first second : Receiver}
    (empty : s.receiver.emptyHanded = true)
    (firstOk : first.emptyHanded = true ∧ first.hasRoom = false ∧ first.ownTask = true)
    (secondOk : second.emptyHanded = true ∧ second.hasRoom = false ∧ second.ownTask = true) :
    ReceiverMove s { s with receiver := if condition then first else second } := by
  split
  · exact .goOn empty firstOk.1 firstOk.2.1 firstOk.2.2
  · exact .goOn empty secondOk.1 secondOk.2.1 secondOk.2.2

theorem receiverStep_move (taken : receiverStep s = some s') : ReceiverMove s s' := by
  have empty {receiver : Receiver} (phase : s.receiver = receiver)
      (empty : receiver.emptyHanded = true) : s.receiver.emptyHanded = true := phase ▸ empty
  unfold receiverStep at taken
  split at taken
  case h_1 phase =>
    cases taken
    exact .decide (empty phase rfl) ⟨rfl, rfl, rfl⟩ ⟨rfl, rfl, rfl⟩
  case h_2 phase =>
    cases taken
    exact .decide (empty phase rfl) ⟨rfl, rfl, rfl⟩ ⟨rfl, rfl, rfl⟩
  case h_3 phase =>
    cases taken
    exact .decide (empty phase rfl) ⟨rfl, rfl, rfl⟩ ⟨rfl, rfl, rfl⟩
  case h_4 phase =>
    cases taken
    exact .decide (empty phase rfl) ⟨rfl, rfl, rfl⟩ ⟨rfl, rfl, rfl⟩
  case h_5 pass phase =>
    cases taken
    exact .decide (empty phase rfl) ⟨rfl, rfl, rfl⟩ ⟨rfl, rfl, rfl⟩
  case h_6 pass phase =>
    cases taken
    by_cases full : numFree s < READ_SIZE_BYTES
    · rw [if_pos full]
      exact .goOn (empty phase rfl) rfl rfl rfl
    · rw [if_neg full]
      exact .findRoom (empty phase rfl) rfl (.inr (Nat.le_of_not_lt full)) rfl
  case h_7 pass phase =>
    cases taken
    have room : s.receiver.hasRoom = true := by
      rw [phase]
      rfl
    split
    · exact .findRoom (empty phase rfl) rfl (.inl room) rfl
    · exact .findRoom (empty phase rfl) rfl (.inl room) rfl
  case h_8 pass sslErr phase =>
    split at taken
    · split at taken
      · cases taken
        exact .decide (empty phase rfl) ⟨rfl, rfl, rfl⟩ ⟨rfl, rfl, rfl⟩
      · cases taken
        exact .goOn (empty phase rfl) rfl rfl rfl
      · cases taken
        exact .goOn (empty phase rfl) rfl rfl rfl
    · cases taken
      exact .goOn (empty phase rfl) rfl rfl rfl
  case h_9 pass phase =>
    cases taken
    exact .decide (empty phase rfl) ⟨rfl, rfl, rfl⟩ ⟨rfl, rfl, rfl⟩
  case h_10 pass buf phase =>
    cases taken
    split
    · exact .write phase rfl rfl rfl
    · exact .write phase rfl rfl rfl
  case h_11 pass bufferFull phase =>
    cases taken
    exact endPass_move (empty phase rfl)
  case h_12 task stop phase =>
    cases taken
    exact .enqueue phase
  all_goals cases taken

theorem receiverPending_move {sslPending : Bool}
    (taken : receiverPending s sslPending = some s') : ReceiverMove s s' := by
  unfold receiverPending at taken
  split at taken
  case h_1 phase =>
    cases taken
    exact .decide (by rw [phase]; rfl) ⟨rfl, rfl, rfl⟩ ⟨rfl, rfl, rfl⟩
  case h_2 => cases taken

theorem receiverSelect_move {result : SelectResult}
    (taken : receiverSelect s result = some s') : ReceiverMove s s' := by
  unfold receiverSelect at taken
  split at taken
  case h_1 phase =>
    have empty : s.receiver.emptyHanded = true := by
      rw [phase]
      rfl
    cases result with
    | ready =>
        cases taken
        exact .goOn empty rfl rfl rfl
    | timeout =>
        cases taken
        exact .goOn empty rfl rfl rfl
    | failed =>
        cases taken
        exact .goOn empty rfl rfl rfl
  case h_2 => cases taken

theorem receiverRead_move {result : ReadResult} (taken : receiverRead s result = some s') :
    ReceiverMove s s' := by
  unfold receiverRead at taken
  split at taken
  case h_1 pass phase =>
    have empty : s.receiver.emptyHanded = true := by
      rw [phase]
      rfl
    split at taken
    case h_1 =>
      cases taken
      exact .goOn empty rfl rfl rfl
    case h_2 connection valid =>
      cases result with
      | data data => exact .read empty (by rw [phase]; rfl) (.inl valid) taken
      | eof =>
          cases taken
          exact .goOn empty rfl rfl rfl
      | failed =>
          cases taken
          exact .goOn empty rfl rfl rfl
  case h_2 => cases taken

theorem receiverSslRead_move {result : SslResult} (taken : receiverSslRead s result = some s') :
    ReceiverMove s s' := by
  unfold receiverSslRead at taken
  split at taken
  case h_1 pass phase =>
    have empty : s.receiver.emptyHanded = true := by
      rw [phase]
      rfl
    split at taken
    case h_1 =>
      cases taken
      exact .goOn empty rfl rfl rfl
    case h_2 connection valid =>
      cases result with
      | data data => exact .read empty (by rw [phase]; rfl) (.inr valid) taken
      | eof =>
          cases taken
          exact .goOn empty rfl rfl rfl
      | failed sslErr =>
          cases taken
          exact .goOn empty rfl rfl rfl
  case h_2 => cases taken

/-! ## Clients, the timer and whole steps -/

def Task.fromClient : Task → Bool
  | .connect _ _ => true
  | .disconnect => true
  | .send _ => true
  | .setOnRecvEndFn _ => true
  | _ => false

inductive OutsideMove (s : State) : State → Prop
  | call {client : Nat} {task : Task} {cancelConnect : Bool} :
      task.fromClient = true →
      OutsideMove s { s with
        cancelConnect := cancelConnect
        clients := Function.update s.clients client (.enqueueing task) }
  | enqueue {client : Nat} {task : Task} :
      s.clients client = .enqueueing task →
      OutsideMove s { enqueue s task with clients := Function.update s.clients client .idle }
  | timerFires :
      s.timerScheduled = true →
      OutsideMove s { s with timerScheduled := false, timerFiring := true }
  | timerEnqueues :
      s.timerFiring = true →
      OutsideMove s { TcpHandler.enqueue s .reconnect with timerFiring := false }

theorem clientCall_move {client : Nat} {task : Task} {cancelConnect : Bool}
    (own : task.fromClient = true) (taken : clientCall s client task cancelConnect = some s') :
    OutsideMove s s' := by
  unfold clientCall at taken
  split at taken
  · cases taken
    exact .call own
  · cases taken

theorem clientStep_move {client : Nat} (taken : clientStep s client = some s') :
    OutsideMove s s' := by
  unfold clientStep at taken
  split at taken
  case h_1 => cases taken
  case h_2 task busy =>
    cases taken
    exact .enqueue busy

/-- What a step of a run can do. An idle worker only moves by `workerStep`. -/
inductive Move (s : State) (action : Action) : State → Prop
  | worker {s' : State} :
      (s.worker = .idle → action = .workerStep) → WorkerMove s s' → Move s action s'
  | establish :
      action = .negotiateStep true → s.worker = .negotiating → Move s action (establish s)
  | receiver {s' : State} : ReceiverMove s s' → Move s action s'
  | outside {s' : State} : OutsideMove s s' → Move s action s'

theorem connectStep_busy {connected : Bool} (taken : connectStep s connected = some s') :
    s.worker ≠ .idle := by
  intro idle
  simp [connectStep, idle] at taken

theorem negotiateStep_busy {established : Bool} (taken : negotiateStep s established = some s') :
    s.worker ≠ .idle := by
  intro idle
  simp [negotiateStep, idle] at taken

theorem sendSelect_busy {result : SelectResult} (taken : sendSelect s result = some s') :
    s.worker ≠ .idle := by
  intro idle
  simp [sendSelect, idle] at taken

theorem sendWrite_busy {result : WriteResult} (taken : sendWrite s result = some s') :
    s.worker ≠ .idle := by
  intro idle
  simp [sendWrite, idle] at taken

theorem next_move {action : Action} (taken : next s action = some s') : Move s action s' := by
  cases action with
  | connect client enableReconnect enableTLS => exact .outside (clientCall_move rfl taken)
  | disconnect client => exact .outside (clientCall_move rfl taken)
  | send client buf => exact .outside (clientCall_move rfl taken)
  | setOnRecvEndFn client present => exact .outside (clientCall_move rfl taken)
  | clientStep client => exact .outside (clientStep_move taken)
  | timerFires =>
      simp only [next] at taken
      split at taken
      case isTrue due =>
        cases taken
        exact .outside (.timerFires due.1)
      case isFalse => cases taken
  | timerEnqueues =>
      simp only [next] at taken
      split at taken
      case isTrue firing =>
        cases taken
        exact .outside (.timerEnqueues firing)
      case isFalse => cases taken
  | workerStep => exact .worker (fun _ => rfl) (workerStep_move taken)
  | connectStep connected =>
      exact .worker (fun idle => absurd idle (connectStep_busy taken)) (connectStep_move taken)
  | negotiateStep established =>
      cases negotiateStep_move taken with
      | inl move => exact .worker (fun idle => absurd idle (negotiateStep_busy taken)) move
      | inr established =>
          obtain ⟨rfl, phase, rfl⟩ := established
          exact .establish rfl phase
  | sendSelect result =>
      exact .worker (fun idle => absurd idle (sendSelect_busy taken)) (sendSelect_move taken)
  | sendWrite result =>
      exact .worker (fun idle => absurd idle (sendWrite_busy taken)) (sendWrite_move taken)
  | receiverStep => exact .receiver (receiverStep_move taken)
  | receiverPending sslPending => exact .receiver (receiverPending_move taken)
  | receiverSelect result => exact .receiver (receiverSelect_move taken)
  | receiverRead result => exact .receiver (receiverRead_move taken)
  | receiverSslRead result => exact .receiver (receiverSslRead_move taken)

/-- What only the worker changes. -/
structure Frame (s s' : State) : Prop where
  worker : s'.worker = s.worker
  socket : s'.socket = s.socket
  enableReconnect : s'.enableReconnect = s.enableReconnect
  connections : s'.connections = s.connections
  callbacks : s'.callbacks = s.callbacks

theorem ReceiverMove.frame (move : ReceiverMove s s') :
    Frame s s' ∧ s'.timerScheduled = s.timerScheduled ∧ s'.timerFiring = s.timerFiring := by
  cases move with
  | goOn empty empty' noRoom own => exact ⟨⟨rfl, rfl, rfl, rfl, rfl⟩, rfl, rfl⟩
  | findRoom empty empty' room own => exact ⟨⟨rfl, rfl, rfl, rfl, rfl⟩, rfl, rfl⟩
  | read empty room source taken =>
      unfold received at taken
      split at taken
      · cases taken
        exact ⟨⟨rfl, rfl, rfl, rfl, rfl⟩, rfl, rfl⟩
      · cases taken
  | write writing empty' noRoom own =>
      unfold writeBuffer
      split
      · exact ⟨⟨rfl, rfl, rfl, rfl, rfl⟩, rfl, rfl⟩
      · exact ⟨⟨rfl, rfl, rfl, rfl, rfl⟩, rfl, rfl⟩
  | enqueue queueing => exact ⟨⟨rfl, rfl, rfl, rfl, rfl⟩, rfl, rfl⟩

theorem ReceiverMove.queue (move : ReceiverMove s s') (own : s.receiver.ownTask = true) :
    s'.queue = s.queue ∨
      ∃ task, (task = .dispatch ∨ task = .close) ∧ s'.queue = s.queue ++ [task] := by
  cases move with
  | goOn empty empty' noRoom own => exact .inl rfl
  | findRoom empty empty' room own => exact .inl rfl
  | read empty room source taken =>
      unfold received at taken
      split at taken
      · cases taken
        exact .inl rfl
      · cases taken
  | write writing empty' noRoom own =>
      unfold writeBuffer
      split
      · exact .inl rfl
      · exact .inl rfl
  | @enqueue task stop queueing =>
      rw [queueing] at own
      refine .inr ⟨task, ?_, rfl⟩
      cases task with
      | dispatch => exact .inl rfl
      | close => exact .inr rfl
      | _ => cases own

theorem OutsideMove.frame (move : OutsideMove s s') : Frame s s' := by
  cases move with
  | _ => exact ⟨rfl, rfl, rfl, rfl, rfl⟩

/-! ## What holds in every run -/

/-- Between tasks, `socket_` is valid while there is a receive thread, and only then. -/
structure Settled (s : State) : Prop where
  current : ∀ connection, s.socket = some connection → connection + 1 = s.connections
  joinable : s.socket = none ↔ s.receiver = .absent

def WorkerOk (s : State) : Worker → Prop
  | .idle => Settled s
  | .sendSelect _ => Settled s
  | .sendWrite _ => Settled s
  | .measuring => Settled s
  | .reading toRead => Settled s ∧ s.socket.isSome = true ∧ toRead ≤ numUsed s
  | .connecting => s.socket = none ∧ s.receiver = .absent
  | .negotiating => s.socket = some s.connections ∧ s.receiver = .absent
  | .disconnecting _ => s.socket = none ∧ s.receiver ≠ .absent
  | .joining _ => s.socket = none ∧ s.receiver ≠ .absent

/-- The state of the worker, and what the other threads are about to queue. -/
structure HandlerOk (s : State) : Prop where
  worker : WorkerOk s s.worker
  receiver : s.receiver.ownTask = true
  clients : ∀ client task, s.clients client = .enqueueing task → task.fromClient = true

theorem Settled.keep (settled : Settled s) (socket : s'.socket = s.socket)
    (connections : s'.connections = s.connections)
    (absent : s'.receiver = .absent ↔ s.receiver = .absent) : Settled s' := by
  constructor
  · rw [socket, connections]
    exact settled.current
  · rw [socket, absent]
    exact settled.joinable

theorem Settled.running (settled : Settled s) {connection : Nat}
    (valid : s.socket = some connection) : s.receiver ≠ .absent := by
  intro absent
  rw [settled.joinable.mpr absent] at valid
  cases valid

theorem Settled.closed (invalid : s.socket = none) (absent : s.receiver = .absent) :
    Settled s := by
  constructor
  · intro connection valid
    rw [invalid] at valid
    cases valid
  · exact iff_of_true invalid absent

theorem WorkerOk.frame {worker : Worker} (ok : WorkerOk s worker) (socket : s'.socket = s.socket)
    (connections : s'.connections = s.connections)
    (absent : s'.receiver = .absent ↔ s.receiver = .absent) (used : numUsed s ≤ numUsed s') :
    WorkerOk s' worker := by
  have settled (settled : Settled s) : Settled s' := settled.keep socket connections absent
  cases worker with
  | idle => exact settled ok
  | sendSelect buf => exact settled ok
  | sendWrite buf => exact settled ok
  | measuring => exact settled ok
  | reading toRead => exact ⟨settled ok.1, socket ▸ ok.2.1, Nat.le_trans ok.2.2 used⟩
  | connecting => exact ⟨socket.trans ok.1, absent.mpr ok.2⟩
  | negotiating =>
      exact ⟨socket.trans (ok.1.trans (congrArg some connections.symm)), absent.mpr ok.2⟩
  | disconnecting requested => exact ⟨socket.trans ok.1, absent.not.mpr ok.2⟩
  | joining requested => exact ⟨socket.trans ok.1, absent.not.mpr ok.2⟩

theorem WorkerOk.sending {worker : Worker} (ok : WorkerOk s worker)
    (sending : worker.sending = true) : Settled s := by
  cases worker with
  | sendSelect buf => exact ok
  | sendWrite buf => exact ok
  | _ => cases sending

theorem WorkerOk.of_settled {worker : Worker} (settled : Settled s)
    (phase : worker = .idle ∨ worker.sending = true) : WorkerOk s worker := by
  cases phase with
  | inl idle =>
      subst idle
      exact settled
  | inr sending =>
      cases worker with
      | sendSelect buf => exact settled
      | sendWrite buf => exact settled
      | _ => cases sending

theorem WorkerOk.current {worker : Worker} (ok : WorkerOk s worker)
    (running : s.receiver ≠ .absent) {connection : Nat} (valid : s.socket = some connection) :
    connection + 1 = s.connections := by
  cases worker with
  | idle => exact Settled.current ok connection valid
  | sendSelect buf => exact Settled.current ok connection valid
  | sendWrite buf => exact Settled.current ok connection valid
  | measuring => exact Settled.current ok connection valid
  | reading toRead => exact ok.1.current connection valid
  | connecting => exact absurd ok.2 running
  | negotiating => exact absurd ok.2 running
  | disconnecting requested => simp [ok.1] at valid
  | joining requested => simp [ok.1] at valid

theorem HandlerOk.initial : HandlerOk State.initial where
  worker := Settled.closed rfl rfl
  receiver := rfl
  clients client task busy := by cases busy

theorem HandlerOk.atPhase {worker : Worker} (ok : HandlerOk s) (phase : s.worker = worker) :
    WorkerOk s worker :=
  phase ▸ ok.worker

theorem HandlerOk.workerMove (ok : HandlerOk s) (move : WorkerMove s s') : HandlerOk s' := by
  cases move with
  | skip idle head kind =>
      refine ⟨?_, ok.receiver, ok.clients⟩
      exact ok.worker.frame rfl rfl Iff.rfl (Nat.le_refl _)
  | connect idle head invalid kind =>
      refine ⟨⟨invalid, ?_⟩, ok.receiver, ok.clients⟩
      exact (Settled.joinable (ok.atPhase idle)).mp invalid
  | disconnect idle head valid kind =>
      have settled : Settled s := ok.atPhase idle
      exact ⟨⟨rfl, settled.running valid⟩, ok.receiver, ok.clients⟩
  | send idle head valid =>
      exact ⟨Settled.keep (ok.atPhase idle) rfl rfl Iff.rfl, ok.receiver, ok.clients⟩
  | onConnect idle head =>
      refine ⟨?_, ok.receiver, ok.clients⟩
      exact ok.worker.frame rfl rfl Iff.rfl (Nat.le_refl _)
  | dispatch idle head =>
      exact ⟨Settled.keep (ok.atPhase idle) rfl rfl Iff.rfl, ok.receiver, ok.clients⟩
  | clearTls phase =>
      exact ⟨ok.atPhase phase, ok.receiver, ok.clients⟩
  | join phase finished =>
      exact ⟨Settled.closed (ok.atPhase phase).1 rfl, rfl, ok.clients⟩
  | measure phase valid =>
      refine ⟨⟨Settled.keep (ok.atPhase phase) rfl rfl Iff.rfl, ?_, Nat.min_le_left _ _⟩, ok.receiver,
        ok.clients⟩
      simp [valid]
  | endDispatch phase =>
      unfold TcpHandler.endDispatch
      split
      · exact ⟨Settled.keep (ok.atPhase phase) rfl rfl Iff.rfl, ok.receiver, ok.clients⟩
      · exact ⟨Settled.keep (ok.atPhase phase) rfl rfl Iff.rfl, ok.receiver, ok.clients⟩
  | deliver phase valid =>
      exact ⟨Settled.keep (ok.atPhase phase).1 rfl rfl Iff.rfl, ok.receiver, ok.clients⟩
  | discard phase invalid =>
      exact ⟨Settled.keep (ok.atPhase phase).1 rfl rfl Iff.rfl, ok.receiver, ok.clients⟩
  | connected phase =>
      exact ⟨⟨rfl, (ok.atPhase phase).2⟩, ok.receiver, ok.clients⟩
  | refused phase =>
      have closed := ok.atPhase phase
      exact ⟨Settled.closed closed.1 closed.2, ok.receiver, ok.clients⟩
  | rejected phase usingTLS =>
      exact ⟨Settled.closed rfl (ok.atPhase phase).2, ok.receiver, ok.clients⟩
  | sendOn sending sending' queue =>
      refine ⟨WorkerOk.of_settled ?_ sending', ok.receiver, ok.clients⟩
      exact (ok.worker.sending sending).keep rfl rfl Iff.rfl

theorem HandlerOk.establish (ok : HandlerOk s) (phase : s.worker = .negotiating) :
    HandlerOk (establish s) := by
  have fresh := (ok.atPhase phase).1
  refine ⟨⟨?_, ?_⟩, rfl, ok.clients⟩
  · intro connection valid
    change s.socket = some connection at valid
    rw [fresh] at valid
    cases valid
    rfl
  · refine iff_of_false ?_ ?_
    · change s.socket ≠ none
      simp [fresh]
    · simp [TcpHandler.establish]

theorem Receiver.emptyHanded_running {receiver : Receiver}
    (empty : receiver.emptyHanded = true) : receiver ≠ .absent := by
  rintro rfl
  cases empty

theorem HandlerOk.receiverMove (ok : HandlerOk s) (move : ReceiverMove s s') : HandlerOk s' := by
  cases move with
  | goOn empty empty' noRoom own =>
      refine ⟨ok.worker.frame rfl rfl ?_ (Nat.le_refl _), own, ok.clients⟩
      exact iff_of_false (Receiver.emptyHanded_running empty')
        (Receiver.emptyHanded_running empty)
  | findRoom empty empty' room own =>
      refine ⟨ok.worker.frame rfl rfl ?_ (Nat.le_refl _), own, ok.clients⟩
      exact iff_of_false (Receiver.emptyHanded_running empty')
        (Receiver.emptyHanded_running empty)
  | read empty room source taken =>
      unfold received at taken
      split at taken
      · cases taken
        refine ⟨ok.worker.frame rfl rfl ?_ (Nat.le_refl _), rfl, ok.clients⟩
        exact iff_of_false (by simp) (Receiver.emptyHanded_running empty)
      · cases taken
  | write writing empty' noRoom own =>
      unfold writeBuffer
      have absent : s.receiver ≠ .absent := by
        rw [writing]
        simp
      split
      · refine ⟨ok.worker.frame rfl rfl ?_ ?_, own, ok.clients⟩
        · exact iff_of_false (Receiver.emptyHanded_running empty') absent
        · simp [numUsed]
      · refine ⟨ok.worker.frame rfl rfl ?_ (Nat.le_refl _), own, ok.clients⟩
        exact iff_of_false (Receiver.emptyHanded_running empty') absent
  | @enqueue task stop queueing =>
      refine ⟨ok.worker.frame rfl rfl ?_ (Nat.le_refl _), ?_, ok.clients⟩
      · rw [queueing]
        cases stop with
        | true => exact iff_of_false (by simp) (by simp)
        | false => exact iff_of_false (by simp) (by simp)
      · cases stop with
        | true => rfl
        | false => rfl

theorem HandlerOk.outsideMove (ok : HandlerOk s) (move : OutsideMove s s') : HandlerOk s' := by
  cases move with
  | @call client task cancelConnect own =>
      refine ⟨ok.worker.frame rfl rfl Iff.rfl (Nat.le_refl _), ok.receiver, ?_⟩
      intro other queued busy
      by_cases same : other = client
      · subst same
        simp only [Function.update_self, Client.enqueueing.injEq] at busy
        exact busy ▸ own
      · simp only [Function.update_of_ne same] at busy
        exact ok.clients other queued busy
  | @enqueue client task queueing =>
      refine ⟨ok.worker.frame rfl rfl Iff.rfl (Nat.le_refl _), ok.receiver, ?_⟩
      intro other queued busy
      by_cases same : other = client
      · subst same
        simp at busy
      · simp only [Function.update_of_ne same] at busy
        exact ok.clients other queued busy
  | timerFires scheduled =>
      exact ⟨ok.worker.frame rfl rfl Iff.rfl (Nat.le_refl _), ok.receiver, ok.clients⟩
  | timerEnqueues firing =>
      exact ⟨ok.worker.frame rfl rfl Iff.rfl (Nat.le_refl _), ok.receiver, ok.clients⟩

theorem HandlerOk.move {action : Action} (ok : HandlerOk s) (move : Move s action s') :
    HandlerOk s' := by
  cases move with
  | worker _ move => exact ok.workerMove move
  | establish _ phase => exact ok.establish phase
  | receiver move => exact ok.receiverMove move
  | outside move => exact ok.outsideMove move

/-- Invariant rule for the handler: a property of the moves may use `HandlerOk`. -/
theorem invariant_of_moves {allowed : State → Action → Prop} (property : State → Prop)
    (initial : property State.initial)
    (preserved : ∀ s action s', HandlerOk s → property s → allowed s action →
      Move s action s' → property s')
    (reachable : Reachable next allowed State.initial s) : HandlerOk s ∧ property s := by
  refine reachable.invariant (fun s => HandlerOk s ∧ property s) ⟨.initial, initial⟩ ?_
  intro before action after ok permitted taken
  have move := next_move taken
  exact ⟨ok.1.move move, preserved before action after ok.1 ok.2 permitted move⟩

end FreeDV.Util.TcpHandler
