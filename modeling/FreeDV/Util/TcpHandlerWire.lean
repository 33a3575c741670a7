import FreeDV.Lib.History
import FreeDV.Lib.Messages
import FreeDV.Util.TcpHandlerSteps

/-!
# What the sends come to

The buffers of `send` on their way through the queue to a connection. Their
tasks are taken in the order in which they were queued. A connection accepts
beginnings of the buffers whose tasks found it, one behind the other, and all of
every buffer until a write is given up. A connection that a write was given up
on is on its way to `disconnectImpl_`, but further buffers may follow the cut
one until it gets there.
-/

set_option autoImplicit false

namespace FreeDV.Util.TcpHandler

open FreeDV.Lib

variable {s s' : State}

def Task.buf : Task → Option (List UInt8)
  | .send buf => some buf
  | _ => none

/-- What the worker still has to send. -/
def Worker.unsent : Worker → Option (List UInt8)
  | .sendSelect buf => some buf
  | .sendWrite buf => some buf
  | _ => none

/-- What the sends of a run have come to. -/
structure Wire where
  /-- The buffers of the tasks that were queued. -/
  queued : List (List UInt8)
  /-- Those whose task was taken, with the connection of `socket_`. -/
  begun : List (List UInt8 × Option Nat)
  /-- What each connection has accepted. -/
  accepted : Nat → List UInt8
  /-- Whether a write to the connection was given up. -/
  abandoned : Nat → Bool

namespace Wire

variable {wire : Wire}

def initial : Wire where
  queued := []
  begun := []
  accepted _ := []
  abandoned _ := false

def queue (wire : Wire) : Task → Wire
  | .send buf => { wire with queued := wire.queued ++ [buf] }
  | _ => wire

def begin (wire : Wire) (socket : Option Nat) : Task → Wire
  | .send buf => { wire with begun := wire.begun ++ [(buf, socket)] }
  | _ => wire

def accept (wire : Wire) (data : List UInt8) : Option Nat → Wire
  | some connection =>
      { wire with
        accepted :=
          Function.update wire.accepted connection (wire.accepted connection ++ data) }
  | none => wire

def abandon (wire : Wire) : Option Nat → Wire
  | some connection =>
      { wire with abandoned := Function.update wire.abandoned connection true }
  | none => wire

/-- The buffers whose task found the connection. -/
def sentOn (wire : Wire) (connection : Nat) : List (List UInt8) :=
  (wire.begun.filter fun send => send.2 = some connection).map Prod.fst

theorem sentOn_begin (socket : Option Nat) (buf : List UInt8) (connection : Nat) :
    (wire.begin socket (.send buf)).sentOn connection =
      wire.sentOn connection ++ if socket = some connection then [buf] else [] := by
  rw [sentOn, sentOn, begin, List.filter_append, List.map_append]
  by_cases found : socket = some connection
  · simp [found]
  · simp [found]

end Wire

/-- The history of the sends. -/
def watch (s : State) (action : Action) (wire : Wire) : Wire :=
  match action with
  | .clientStep client =>
      match s.clients client with
      | .enqueueing task => wire.queue task
      | .idle => wire
  | .workerStep =>
      match s.worker, s.queue with
      | .idle, task :: _ => wire.begin s.socket task
      | _, _ => wire
  | .sendSelect .timeout =>
      if s.cancelConnect = true ∧ s.worker ≠ .sendSelect [] then wire.abandon s.socket else wire
  | .sendWrite .failed => wire.abandon s.socket
  | .sendWrite (.wrote 0) => wire.abandon s.socket
  | .sendWrite (.wrote (count + 1)) =>
      wire.accept ((s.worker.unsent.getD []).take (count + 1)) s.socket
  | .sendWrite (.wantRead .timeout) => if s.cancelConnect then wire.abandon s.socket else wire
  | _ => wire

/-! ## Disconnects that were asked for -/

/-- A task of `disconnect` is queued, or a client is about to queue it. -/
def DisconnectPending (s : State) : Prop :=
  .disconnect ∈ s.queue ∨ ∃ client, s.clients client = .enqueueing .disconnect

/-- A task that ends in `disconnectImpl_` is queued, or a client is about to queue it. -/
def EndPending (s : State) : Prop := .close ∈ s.queue ∨ DisconnectPending s

theorem DisconnectPending.keep (pending : DisconnectPending s)
    (queue : .disconnect ∈ s.queue → .disconnect ∈ s'.queue)
    (clients : s'.clients = s.clients) : DisconnectPending s' := by
  rcases pending with queued | ⟨client, busy⟩
  · exact .inl (queue queued)
  · exact .inr ⟨client, by rw [clients]; exact busy⟩

theorem EndPending.keep (pending : EndPending s) (queue : ∀ task ∈ s.queue, task ∈ s'.queue)
    (clients : s'.clients = s.clients) : EndPending s' :=
  pending.imp (queue _) fun pending => pending.keep (queue _) clients

/-- Another task is taken off the queue. -/
theorem EndPending.pop (pending : EndPending s) {task : Task} {queue : List Task}
    (head : s.queue = task :: queue) (other : ∀ requested, ¬ task.Disconnects requested)
    (queue' : s'.queue = queue) (clients : s'.clients = s.clients) : EndPending s' := by
  rcases pending with queued | queued | ⟨client, busy⟩
  · rw [head] at queued
    cases queued with
    | head => exact absurd .close (other false)
    | tail _ queued => exact .inl (queue' ▸ queued)
  · rw [head] at queued
    cases queued with
    | head => exact absurd .disconnect (other true)
    | tail _ queued => exact .inr (.inl (queue' ▸ queued))
  · exact .inr (.inr ⟨client, by rw [clients]; exact busy⟩)

/-- A client that was idle begins a call. -/
theorem DisconnectPending.call (pending : DisconnectPending s) {client : Nat} {busy : Client}
    (idle : s.clients client = .idle) (queue : s'.queue = s.queue)
    (clients : s'.clients = Function.update s.clients client busy) : DisconnectPending s' := by
  rcases pending with queued | ⟨other, calling⟩
  · exact .inl (queue ▸ queued)
  · right
    refine ⟨other, ?_⟩
    have different : other ≠ client := by
      rintro rfl
      rw [idle] at calling
      cases calling
    rw [clients, Function.update_of_ne different]
    exact calling

/-- A client queues its task. -/
theorem DisconnectPending.enqueue (pending : DisconnectPending s) {client : Nat} {task : Task}
    (busy : s.clients client = .enqueueing task) (queue : s'.queue = s.queue ++ [task])
    (clients : s'.clients = Function.update s.clients client .idle) : DisconnectPending s' := by
  rcases pending with queued | ⟨other, calling⟩
  · exact .inl (queue ▸ List.mem_append_left _ queued)
  · by_cases same : other = client
    · subst same
      rw [busy] at calling
      cases calling
      exact .inl (queue ▸ List.mem_append_right _ (List.mem_singleton_self _))
    · right
      refine ⟨other, ?_⟩
      rw [clients, Function.update_of_ne same]
      exact calling

/-- `cancelConnect_` is set for a `disconnect` that has yet to return from `disconnectImpl_`. -/
def CancelOk (s : State) : Prop :=
  s.cancelConnect = true →
    DisconnectPending s ∨ s.worker = .disconnecting true ∨ s.worker = .joining true

theorem ReceiverMove.others (move : ReceiverMove s s') :
    s'.clients = s.clients ∧ s'.cancelConnect = s.cancelConnect := by
  cases move with
  | read empty room source taken =>
      unfold received at taken
      split at taken
      · cases taken
        exact ⟨rfl, rfl⟩
      · cases taken
  | write writing empty' noRoom own =>
      unfold writeBuffer
      split
      · exact ⟨rfl, rfl⟩
      · exact ⟨rfl, rfl⟩
  | _ => exact ⟨rfl, rfl⟩

theorem ReceiverMove.queued (move : ReceiverMove s s') (own : s.receiver.ownTask = true)
    (task : Task) (queued : task ∈ s.queue) : task ∈ s'.queue := by
  obtain same | ⟨added, _, grown⟩ := move.queue own
  · exact same ▸ queued
  · exact grown ▸ List.mem_append_left _ queued

/-- The worker leaves all of this alone within a task, but for the end of `disconnectImpl_`. -/
theorem WorkerMove.others (move : WorkerMove s s') (busy : s.worker ≠ .idle)
    (apart : ∀ requested, s.worker ≠ .joining requested) :
    s'.cancelConnect = s.cancelConnect ∧ s'.clients = s.clients ∧
      ∀ task ∈ s.queue, task ∈ s'.queue := by
  cases move with
  | skip idle head kind => exact absurd idle busy
  | connect idle head invalid kind => exact absurd idle busy
  | disconnect idle head valid kind => exact absurd idle busy
  | send idle head valid => exact absurd idle busy
  | onConnect idle head => exact absurd idle busy
  | dispatch idle head => exact absurd idle busy
  | join phase finished => exact absurd phase (apart _)
  | endDispatch phase =>
      unfold TcpHandler.endDispatch
      split
      · exact ⟨rfl, rfl, fun _ queued => queued⟩
      · exact ⟨rfl, rfl, fun _ queued => queued⟩
  | sendOn sending sending' queue =>
      refine ⟨rfl, rfl, fun task queued => ?_⟩
      rcases queue with rfl | rfl
      · exact queued
      · exact List.mem_append_left _ queued
  | _ => exact ⟨rfl, rfl, fun _ queued => queued⟩

theorem CancelOk.keep (ok : CancelOk s) (cancelConnect : s'.cancelConnect = s.cancelConnect)
    (pending : DisconnectPending s → DisconnectPending s')
    (worker : s'.worker = s.worker ∨ s.worker ≠ .disconnecting true ∧ s.worker ≠ .joining true) :
    CancelOk s' := by
  intro cancelled
  rcases ok (cancelConnect.symm.trans cancelled) with asked | phase
  · exact .inl (pending asked)
  · rcases worker with same | other
    · right
      rw [same]
      exact phase
    · exact absurd phase (not_or.mpr other)

theorem CancelOk.workerMove (ok : CancelOk s) (move : WorkerMove s s') (busy : s.worker ≠ .idle)
    (calm : ∀ requested, s.worker ≠ .disconnecting requested ∧ s.worker ≠ .joining requested) :
    CancelOk s' := by
  obtain ⟨cancelConnect, clients, queue⟩ := move.others busy fun requested => (calm requested).2
  exact ok.keep cancelConnect (fun asked => asked.keep (queue _) clients) (.inr (calm true))

theorem beginTask_others (s : State) {task : Task} (other : task ≠ .disconnect) :
    (beginTask s task).cancelConnect = s.cancelConnect ∧ (beginTask s task).queue = s.queue ∧
      (beginTask s task).clients = s.clients := by
  cases task with
  | connect enableReconnect enableTLS =>
      simp only [beginTask, connectImpl]
      split
      · split
        · exact ⟨rfl, rfl, rfl⟩
        · exact ⟨rfl, rfl, rfl⟩
      · exact ⟨rfl, rfl, rfl⟩
  | reconnect =>
      simp only [beginTask, connectImpl]
      split
      · exact ⟨rfl, rfl, rfl⟩
      · exact ⟨rfl, rfl, rfl⟩
  | disconnect => exact absurd rfl other
  | close =>
      simp only [beginTask, disconnectImpl]
      split
      · exact ⟨rfl, rfl, rfl⟩
      · exact ⟨rfl, rfl, rfl⟩
  | send buf =>
      simp only [beginTask]
      split
      · exact ⟨rfl, rfl, rfl⟩
      · exact ⟨rfl, rfl, rfl⟩
  | _ => exact ⟨rfl, rfl, rfl⟩

theorem CancelOk.beginTask (ok : CancelOk s) {task : Task} {queue : List Task}
    (idle : s.worker = .idle) (head : s.queue = task :: queue) :
    CancelOk (beginTask { s with queue := queue } task) := by
  by_cases disconnects : task = .disconnect
  · subst disconnects
    simp only [TcpHandler.beginTask, disconnectImpl]
    split
    · simp [CancelOk]
    · exact fun _ => .inr (.inl rfl)
  · obtain ⟨cancelConnect, queue', clients⟩ :=
      beginTask_others { s with queue := queue } disconnects
    refine ok.keep cancelConnect ?_ (.inr (by simp [idle]))
    intro asked
    refine asked.keep ?_ clients
    intro queued
    rw [head] at queued
    rw [queue']
    rcases List.mem_cons.mp queued with same | queued
    · exact absurd same.symm disconnects
    · exact queued

theorem CancelOk.workerStep (ok : CancelOk s) (taken : workerStep s = some s') : CancelOk s' := by
  have move := workerStep_move taken
  unfold TcpHandler.workerStep at taken
  split at taken
  case h_1 idle =>
    split at taken
    case h_1 => cases taken
    case h_2 task queue head =>
      cases taken
      exact ok.beginTask idle head
  case h_2 requested phase =>
    cases taken
    intro cancelled
    rcases ok cancelled with asked | ending | ending
    · exact .inl asked
    · rw [phase] at ending
      cases ending
      exact .inr (.inr rfl)
    · rw [phase] at ending
      cases ending
  case h_3 requested phase =>
    split at taken
    case h_1 =>
      cases taken
      cases requested with
      | true => simp [CancelOk]
      | false => exact ok.keep rfl (fun asked => asked) (.inr (by simp [phase]))
    case h_2 => cases taken
  case h_4 phase => exact ok.workerMove move (by simp [phase]) (by simp [phase])
  case h_5 toRead phase => exact ok.workerMove move (by simp [phase]) (by simp [phase])
  all_goals cases taken

theorem CancelOk.clientCall (ok : CancelOk s) {client : Nat} {task : Task} {cancelConnect : Bool}
    (taken : clientCall s client task cancelConnect = some s')
    (asks : cancelConnect = true → s.cancelConnect = true ∨ task = .disconnect) :
    CancelOk s' := by
  unfold TcpHandler.clientCall at taken
  split at taken
  case h_1 idle =>
    cases taken
    intro cancelled
    rcases asks cancelled with before | rfl
    · exact (ok before).imp_left fun asked => asked.call idle rfl rfl
    · exact .inl (.inr ⟨client, Function.update_self ..⟩)
  case h_2 => cases taken

theorem CancelOk.receiverMove (ok : CancelOk s) (own : s.receiver.ownTask = true)
    (move : ReceiverMove s s') : CancelOk s' := by
  obtain ⟨clients, cancelConnect⟩ := move.others
  exact ok.keep cancelConnect (fun asked => asked.keep (move.queued own _) clients)
    (.inl move.frame.1.worker)

theorem connectStep_phase {connected : Bool} (taken : connectStep s connected = some s') :
    s.worker = .connecting := by
  unfold connectStep at taken
  split at taken
  case h_1 phase => exact phase
  case h_2 => cases taken

theorem negotiateStep_phase {established : Bool}
    (taken : negotiateStep s established = some s') : s.worker = .negotiating := by
  unfold negotiateStep at taken
  split at taken
  case h_1 phase => exact phase
  case h_2 => cases taken

theorem sendSelect_phase {result : SelectResult} (taken : sendSelect s result = some s') :
    ∃ buf, s.worker = .sendSelect buf := by
  unfold sendSelect at taken
  split at taken
  case h_1 phase => exact ⟨_, phase⟩
  case h_2 byte buf phase => exact ⟨_, phase⟩
  case h_3 => cases taken

theorem sendWrite_phase {result : WriteResult} (taken : sendWrite s result = some s') :
    ∃ buf, s.worker = .sendWrite buf := by
  unfold sendWrite at taken
  split at taken
  case h_1 buf phase => exact ⟨buf, phase⟩
  case h_2 => cases taken

theorem CancelOk.next (ok : CancelOk s) (handler : HandlerOk s) {action : Action}
    (taken : next s action = some s') : CancelOk s' := by
  cases action with
  | connect client enableReconnect enableTLS => exact ok.clientCall taken nofun
  | disconnect client => exact ok.clientCall taken fun _ => .inr rfl
  | send client buf => exact ok.clientCall taken .inl
  | setOnRecvEndFn client present => exact ok.clientCall taken .inl
  | clientStep client =>
      simp only [TcpHandler.next, clientStep] at taken
      split at taken
      case h_1 => cases taken
      case h_2 task busy =>
        cases taken
        exact ok.keep rfl (fun asked => asked.enqueue busy rfl rfl) (.inl rfl)
  | timerFires =>
      simp only [TcpHandler.next] at taken
      split at taken
      · cases taken
        exact ok.keep rfl (fun asked => asked) (.inl rfl)
      · cases taken
  | timerEnqueues =>
      simp only [TcpHandler.next] at taken
      split at taken
      · cases taken
        exact ok.keep rfl (fun asked => asked.keep (List.mem_append_left _) rfl) (.inl rfl)
      · cases taken
  | workerStep => exact ok.workerStep taken
  | connectStep connected =>
      have phase := connectStep_phase taken
      exact ok.workerMove (connectStep_move taken) (by simp [phase]) (by simp [phase])
  | negotiateStep established =>
      have phase := negotiateStep_phase taken
      cases negotiateStep_move taken with
      | inl move => exact ok.workerMove move (by simp [phase]) (by simp [phase])
      | inr done =>
          obtain ⟨_, _, rfl⟩ := done
          exact ok.keep rfl (fun asked => asked.keep (List.mem_append_left _) rfl)
            (.inr (by simp [phase]))
  | sendSelect result =>
      obtain ⟨buf, phase⟩ := sendSelect_phase taken
      exact ok.workerMove (sendSelect_move taken) (by simp [phase]) (by simp [phase])
  | sendWrite result =>
      obtain ⟨buf, phase⟩ := sendWrite_phase taken
      exact ok.workerMove (sendWrite_move taken) (by simp [phase]) (by simp [phase])
  | receiverStep => exact ok.receiverMove handler.receiver (receiverStep_move taken)
  | receiverPending sslPending =>
      exact ok.receiverMove handler.receiver (receiverPending_move taken)
  | receiverSelect result => exact ok.receiverMove handler.receiver (receiverSelect_move taken)
  | receiverRead result => exact ok.receiverMove handler.receiver (receiverRead_move taken)
  | receiverSslRead result => exact ok.receiverMove handler.receiver (receiverSslRead_move taken)

/-! ## The sends -/

structure WireOk (s : State) (wire : Wire) : Prop where
  /-- The tasks are taken in the order in which they were queued; none is lost or taken twice. -/
  order : wire.begun.map Prod.fst ++ s.queue.filterMap Task.buf = wire.queued
  /-- A connection accepts nothing but beginnings of the buffers sent on it, in their order. -/
  conveyed : ∀ connection, Conveys (wire.accepted connection) (wire.sentOn connection)
  /-- The buffer in hand is the last that was sent on the open connection. -/
  sending : ∀ rest, s.worker.unsent = some rest → ∃ connection, s.socket = some connection ∧
    Conveying (wire.accepted connection) (wire.sentOn connection) rest
  /-- Unless a write was given up, nothing is missing but what is still in hand. -/
  whole : ∀ connection, wire.abandoned connection = false →
    wire.accepted connection ++
      (if s.socket = some connection then s.worker.unsent.getD [] else []) =
      (wire.sentOn connection).flatten
  /-- A connection that a write was given up on is about to be closed. -/
  abandoned : ∀ connection, wire.abandoned connection = true → connection < s.connections ∧
    (s.socket = some connection → EndPending s)

variable {wire : Wire}

theorem WireOk.initial : WireOk State.initial Wire.initial where
  order := rfl
  conveyed _ := .nil
  sending _ := nofun
  whole _ _ := rfl
  abandoned _ := nofun

/-- A step that sends nothing. `socket_` may only change while the worker has nothing to send. -/
theorem WireOk.keep (ok : WireOk s wire)
    (sends : s'.queue.filterMap Task.buf = s.queue.filterMap Task.buf)
    (unsent : s'.worker.unsent = s.worker.unsent ∨
      s.worker.unsent = some [] ∧ s'.worker.unsent = none)
    (socket : s'.socket = s.socket ∨ s.worker.unsent = none ∧ s'.worker.unsent = none ∧
      ∀ connection, s'.socket = some connection → s.connections ≤ connection)
    (connections : s.connections ≤ s'.connections)
    (ending : ∀ connection, s'.socket = some connection → EndPending s → EndPending s') :
    WireOk s' wire where
  order := by
    rw [sends]
    exact ok.order
  conveyed := ok.conveyed
  sending rest remaining := by
    rcases unsent with same | ⟨_, done⟩
    · rcases socket with kept | ⟨_, done, _⟩
      · rw [kept]
        exact ok.sending rest (same.symm.trans remaining)
      · rw [done] at remaining
        cases remaining
    · rw [done] at remaining
      cases remaining
  whole connection kept := by
    have whole := ok.whole connection kept
    rcases socket with same | ⟨none, none', _⟩
    · rw [same]
      rcases unsent with same' | ⟨empty, done⟩
      · rw [same']
        exact whole
      · rw [done]
        rw [empty] at whole
        exact whole
    · rw [none']
      rw [none] at whole
      simpa using whole
  abandoned connection given := by
    obtain ⟨below, pending⟩ := ok.abandoned connection given
    refine ⟨Nat.lt_of_lt_of_le below connections, fun valid => ?_⟩
    rcases socket with same | ⟨_, _, fresh⟩
    · exact ending connection valid (pending (same.symm.trans valid))
    · exact absurd (fresh connection valid) (Nat.not_le_of_lt below)

/-- A step of the worker or the timer that neither sends nor touches what else counts here. -/
theorem WireOk.work (ok : WireOk s wire)
    (same : s'.queue = s.queue ∧ s'.clients = s.clients ∧ s'.socket = s.socket ∧
      s'.connections = s.connections)
    (unsent : s'.worker.unsent = s.worker.unsent ∨
      s.worker.unsent = some [] ∧ s'.worker.unsent = none) : WireOk s' wire := by
  obtain ⟨queue, clients, socket, connections⟩ := same
  refine ok.keep (by rw [queue]) unsent (.inl socket) (Nat.le_of_eq connections.symm) ?_
  exact fun _ _ pending => pending.keep (fun _ queued => queue ▸ queued) clients

/-- A task that sends nothing is queued. -/
theorem filterMap_queue {task : Task} (silent : task.buf = none) (queue : List Task) :
    (queue ++ [task]).filterMap Task.buf = queue.filterMap Task.buf := by
  rw [List.filterMap_append, List.filterMap_cons_none silent, List.filterMap_nil,
    List.append_nil]

theorem WireOk.begin (ok : WireOk s wire) {buf : List UInt8} {queue : List Task}
    (idle : s.worker = .idle) (head : s.queue = .send buf :: queue) :
    WireOk (beginTask { s with queue := queue } (.send buf))
      (wire.begin s.socket (.send buf)) := by
  have order : (wire.begin s.socket (.send buf)).begun.map Prod.fst ++ queue.filterMap Task.buf =
      wire.queued := by
    have before := ok.order
    rw [head] at before
    rw [Wire.begin, List.map_append, List.append_assoc]
    exact before
  have ending (pending : EndPending s) (s' : State) (queue' : s'.queue = queue)
      (clients : s'.clients = s.clients) : EndPending s' :=
    pending.pop head (fun _ ends => by cases ends) queue' clients
  obtain valid | ⟨current, valid⟩ := Option.eq_none_or_eq_some s.socket
  · have begun : beginTask { s with queue := queue } (.send buf) = { s with queue := queue } := by
      simp only [beginTask, valid]
    -- without a connection the buffer is dropped
    have same (connection : Nat) :
        (wire.begin s.socket (.send buf)).sentOn connection = wire.sentOn connection := by
      rw [Wire.sentOn_begin, valid]
      simp
    rw [begun]
    refine ⟨order, fun connection => ?_, fun rest remaining => ?_, fun connection kept => ?_,
      fun connection given => ?_⟩
    · rw [same]
      exact ok.conveyed connection
    · rw [idle] at remaining
      cases remaining
    · rw [same]
      exact ok.whole connection kept
    · refine ⟨(ok.abandoned connection given).1, fun valid' => ?_⟩
      cases valid.symm.trans valid'
  · have begun : beginTask { s with queue := queue } (.send buf) =
        { s with queue := queue, worker := .sendSelect buf } := by
      simp only [beginTask, valid]
    have sent : (wire.begin s.socket (.send buf)).sentOn current =
        wire.sentOn current ++ [buf] := by
      rw [Wire.sentOn_begin, if_pos valid]
    have same {connection : Nat} (other : s.socket ≠ some connection) :
        (wire.begin s.socket (.send buf)).sentOn connection = wire.sentOn connection := by
      rw [Wire.sentOn_begin, if_neg other, List.append_nil]
    rw [begun]
    refine ⟨order, fun connection => ?_, fun rest remaining => ?_, fun connection kept => ?_,
      fun connection given => ?_⟩
    · by_cases found : s.socket = some connection
      · cases valid.symm.trans found
        rw [sent]
        exact ((ok.conveyed current).begin buf).conveys
      · rw [same found]
        exact ok.conveyed connection
    · cases remaining
      refine ⟨current, valid, ?_⟩
      rw [sent]
      exact (ok.conveyed current).begin buf
    · have before : wire.accepted connection ++ (if s.socket = some connection then [] else []) =
          (wire.sentOn connection).flatten := by
        have whole := ok.whole connection kept
        rw [idle] at whole
        exact whole
      rw [ite_self, List.append_nil] at before
      by_cases found : s.socket = some connection
      · cases valid.symm.trans found
        rw [if_pos valid, sent, List.flatten_append, List.flatten_singleton, ← before]
        rfl
      · rw [if_neg found, same found, ← before]
        exact List.append_nil _
    · obtain ⟨below, pending⟩ := ok.abandoned connection given
      exact ⟨below, fun valid' => ending (pending valid') _ rfl rfl⟩

theorem WireOk.accept (ok : WireOk s wire) {buf : List UInt8} (phase : s.worker = .sendWrite buf)
    (count : Nat) :
    WireOk { s with worker := .sendSelect (buf.drop count) }
      (wire.accept (buf.take count) s.socket) := by
  obtain ⟨current, valid, conveying⟩ := ok.sending buf (by rw [phase]; rfl)
  have recorded : wire.accept (buf.take count) s.socket =
      wire.accept (buf.take count) (some current) := by
    rw [valid]
  have later := conveying.take count
  rw [recorded]
  refine ⟨ok.order, fun connection => ?_, fun rest remaining => ?_, fun connection kept => ?_,
    ok.abandoned⟩
  · by_cases same : connection = current
    · subst same
      simp only [Wire.accept, Function.update_self]
      exact later.conveys
    · simp only [Wire.accept, Function.update_of_ne same]
      exact ok.conveyed connection
  · cases remaining
    refine ⟨current, valid, ?_⟩
    simp only [Wire.accept, Function.update_self]
    exact later
  · have before := ok.whole connection kept
    rw [phase] at before
    by_cases same : connection = current
    · subst same
      rw [if_pos valid] at before ⊢
      simp only [Wire.accept, Function.update_self]
      refine Eq.trans ?_ before
      rw [List.append_assoc]
      exact congrArg _ (List.take_append_drop count buf)
    · have other : s.socket ≠ some connection := by
        rw [valid]
        simpa using Ne.symm same
      rw [if_neg other] at before ⊢
      simp only [Wire.accept, Function.update_of_ne same]
      exact before

theorem WireOk.abandon (ok : WireOk s wire) (settled : Settled s) {rest : List UInt8}
    (remaining : s.worker.unsent = some rest)
    (sends : s'.queue.filterMap Task.buf = s.queue.filterMap Task.buf)
    (idle : s'.worker = .idle) (socket : s'.socket = s.socket)
    (connections : s'.connections = s.connections) (pending : EndPending s') :
    WireOk s' (wire.abandon s.socket) := by
  obtain ⟨current, valid, -⟩ := ok.sending rest remaining
  have recorded : wire.abandon s.socket = wire.abandon (some current) := by
    rw [valid]
  rw [recorded]
  refine ⟨?_, ok.conveyed, fun rest busy => ?_, fun connection kept => ?_,
    fun connection given => ?_⟩
  · rw [sends]
    exact ok.order
  · rw [idle] at busy
    cases busy
  · have other : connection ≠ current := by
      rintro rfl
      simp only [Wire.abandon, Function.update_self] at kept
      cases kept
    simp only [Wire.abandon, Function.update_of_ne other] at kept
    have whole := ok.whole connection kept
    have apart : s.socket ≠ some connection := by
      rw [valid]
      simpa using Ne.symm other
    rw [if_neg apart] at whole
    rw [socket, if_neg apart]
    exact whole
  · refine ⟨?_, fun _ => pending⟩
    rw [connections]
    by_cases same : connection = current
    · subst same
      have latest := settled.current connection valid
      omega
    · simp only [Wire.abandon, Function.update_of_ne same] at given
      exact (ok.abandoned connection given).1

/-- A move of the worker that neither takes a buffer nor works on one. -/
theorem WireOk.workerMove (ok : WireOk s wire) (move : WorkerMove s s')
    (quiet : s.worker.unsent = none)
    (other : ∀ buf queue, s.worker = .idle → s.queue ≠ .send buf :: queue) : WireOk s' wire := by
  have popped {task : Task} {queue : List Task} (idle : s.worker = .idle)
      (head : s.queue = task :: queue) :
      queue.filterMap Task.buf = s.queue.filterMap Task.buf := by
    rw [head]
    cases task with
    | send buf => exact absurd head (other buf queue idle)
    | _ => rfl
  have unsent {worker : Worker} (none' : worker.unsent = none) :
      worker.unsent = s.worker.unsent ∨ s.worker.unsent = some [] ∧ worker.unsent = none :=
    .inl (none'.trans quiet.symm)
  cases move with
  | skip idle head kind =>
      refine ok.keep (popped idle head) (.inl rfl) (.inl rfl) (Nat.le_refl _) ?_
      intro connection valid pending
      refine pending.pop head ?_ rfl rfl
      -- the tasks for `disconnectImpl_` are only skipped without a socket
      change s.socket = some connection at valid
      rw [valid] at kind
      intro requested ends
      cases ends with
      | disconnect => cases kind
      | close => cases kind
  | connect idle head invalid kind =>
      refine ok.keep (popped idle head) (unsent rfl) (.inl rfl) (Nat.le_refl _) ?_
      intro connection valid
      cases invalid.symm.trans valid
  | disconnect idle head valid kind =>
      refine ok.keep (popped idle head) (unsent rfl) (.inr ⟨quiet, rfl, nofun⟩) (Nat.le_refl _) ?_
      intro connection valid
      cases valid
  | send idle head valid => exact absurd head (other _ _ idle)
  | onConnect idle head =>
      refine ok.keep (popped idle head) (.inl rfl) (.inl rfl) (Nat.le_refl _) ?_
      intro _ _ pending
      exact pending.pop head (fun _ ends => by cases ends) rfl rfl
  | dispatch idle head =>
      refine ok.keep (popped idle head) (unsent rfl) (.inl rfl) (Nat.le_refl _) ?_
      intro _ _ pending
      exact pending.pop head (fun _ ends => by cases ends) rfl rfl
  | endDispatch phase =>
      unfold endDispatch
      split
      · exact ok.work ⟨rfl, rfl, rfl, rfl⟩ (unsent rfl)
      · exact ok.work ⟨rfl, rfl, rfl, rfl⟩ (unsent rfl)
  | connected phase =>
      refine ok.keep rfl (unsent rfl) (.inr ⟨quiet, rfl, ?_⟩) (Nat.le_refl _)
        fun _ _ pending => pending
      intro connection valid
      cases valid
      exact Nat.le_refl _
  | rejected phase usingTLS =>
      exact ok.keep rfl (unsent rfl) (.inr ⟨quiet, rfl, nofun⟩) (Nat.le_refl _)
        fun _ _ pending => pending
  | sendOn sending sending' queue =>
      cases phase : s.worker with
      | sendSelect buf => simp [phase, Worker.unsent] at quiet
      | sendWrite buf => simp [phase, Worker.unsent] at quiet
      | _ => simp [phase, Worker.sending] at sending
  | _ => exact ok.work ⟨rfl, rfl, rfl, rfl⟩ (unsent rfl)

theorem watch_workerStep (other : ∀ buf queue, s.worker = .idle → s.queue ≠ .send buf :: queue) :
    watch s .workerStep wire = wire := by
  simp only [watch]
  split
  case h_1 task queue idle head =>
    cases task with
    | send buf => exact absurd head (other buf queue idle)
    | _ => rfl
  case h_2 => rfl

theorem WireOk.workerStep (ok : WireOk s wire) (taken : workerStep s = some s') :
    WireOk s' (watch s .workerStep wire) := by
  by_cases sends : ∃ buf queue, s.worker = .idle ∧ s.queue = .send buf :: queue
  · obtain ⟨buf, queue, idle, head⟩ := sends
    have stepped : TcpHandler.workerStep s =
        some (beginTask { s with queue := queue } (.send buf)) := by
      simp only [TcpHandler.workerStep, idle, head]
    have recorded : watch s .workerStep wire = wire.begin s.socket (.send buf) := by
      simp only [watch, idle, head]
    cases stepped.symm.trans taken
    rw [recorded]
    exact ok.begin idle head
  · have other (buf : List UInt8) (queue : List Task) (idle : s.worker = .idle) :
        s.queue ≠ .send buf :: queue := fun head => sends ⟨buf, queue, idle, head⟩
    rw [watch_workerStep other]
    refine ok.workerMove (workerStep_move taken) ?_ other
    cases phase : s.worker with
    | sendSelect buf => simp [TcpHandler.workerStep, phase] at taken
    | sendWrite buf => simp [TcpHandler.workerStep, phase] at taken
    | _ => rfl

theorem WireOk.sendSelect (ok : WireOk s wire) (settled : Settled s) (cancel : CancelOk s)
    {result : SelectResult} (taken : sendSelect s result = some s') :
    WireOk s' (watch s (.sendSelect result) wire) := by
  unfold TcpHandler.sendSelect at taken
  split at taken
  case h_1 phase =>
    cases taken
    have same : watch s (.sendSelect result) wire = wire := by
      cases result with
      | timeout => simp [watch, phase]
      | _ => rfl
    rw [same]
    refine ok.work ⟨rfl, rfl, rfl, rfl⟩ (.inr ⟨?_, rfl⟩)
    rw [phase]
    rfl
  case h_2 byte buf phase =>
    have remaining : s.worker.unsent = some (byte :: buf) := by
      rw [phase]
      rfl
    cases result with
    | ready =>
        cases taken
        exact ok.work ⟨rfl, rfl, rfl, rfl⟩ (.inl remaining.symm)
    | timeout =>
        cases taken
        by_cases cancelled : s.cancelConnect = true
        · have recorded : watch s (.sendSelect .timeout) wire = wire.abandon s.socket := by
            simp [watch, phase, cancelled]
          -- the write is given up for a disconnect, which has not begun
          have asked : DisconnectPending s := by
            simpa [phase] using cancel cancelled
          rw [recorded]
          exact ok.abandon settled remaining rfl (if_pos cancelled) rfl rfl (.inr asked)
        · have same : watch s (.sendSelect .timeout) wire = wire := by
            simp [watch, cancelled]
          rw [same]
          refine ok.work ⟨rfl, rfl, rfl, rfl⟩ (.inl ?_)
          exact congrArg Worker.unsent (if_neg cancelled)
    | failed =>
        cases taken
        refine ok.keep (filterMap_queue rfl _) (.inl rfl) (.inl rfl) (Nat.le_refl _) ?_
        intro _ _ pending
        exact pending.keep (fun _ => List.mem_append_left _) rfl
  case h_3 => cases taken

theorem WireOk.sendWrite (ok : WireOk s wire) (settled : Settled s) {result : WriteResult}
    (taken : sendWrite s result = some s') : WireOk s' (watch s (.sendWrite result) wire) := by
  unfold TcpHandler.sendWrite at taken
  split at taken
  case h_1 buf phase =>
    dsimp only at taken
    have remaining : s.worker.unsent = some buf := by
      rw [phase]
      rfl
    have failed : WireOk (enqueue { s with worker := .idle } .close) (wire.abandon s.socket) :=
      ok.abandon settled remaining (filterMap_queue rfl _) rfl rfl rfl
        (.inl (List.mem_append_right _ (List.mem_singleton_self _)))
    split at taken
    case h_1 =>
      cases taken
      exact failed
    case h_2 count =>
      split at taken
      · cases taken
        have recorded : watch s (.sendWrite (.wrote (count + 1))) wire =
            wire.accept (buf.take (count + 1)) s.socket := by
          simp only [watch, remaining, Option.getD_some]
        rw [recorded]
        exact ok.accept phase (count + 1)
      · cases taken
    case h_3 =>
      cases taken
      exact failed
    case h_4 =>
      split at taken
      · cases taken
        exact ok.work ⟨rfl, rfl, rfl, rfl⟩ (.inl remaining.symm)
      · cases taken
    case h_5 waited =>
      split at taken
      · split at taken
        case isTrue gaveUp =>
          cases taken
          obtain ⟨rfl, cancelled⟩ := gaveUp
          have recorded : watch s (.sendWrite (.wantRead .timeout)) wire =
              wire.abandon s.socket := by
            simp only [watch, cancelled, if_true]
          rw [recorded]
          exact failed
        case isFalse goesOn =>
          cases taken
          have same : watch s (.sendWrite (.wantRead waited)) wire = wire := by
            cases waited with
            | timeout =>
                have going : s.cancelConnect ≠ true := fun cancelled => goesOn ⟨rfl, cancelled⟩
                simp [watch, going]
            | _ => rfl
          rw [same]
          exact ok
      · cases taken
  case h_2 => cases taken

/-! ## Whole runs -/

theorem WireOk.receiverMove (ok : WireOk s wire) (own : s.receiver.ownTask = true)
    (move : ReceiverMove s s') : WireOk s' wire := by
  obtain ⟨frame, -⟩ := move.frame
  refine ok.keep ?_ (.inl (by rw [frame.worker])) (.inl frame.socket)
    (Nat.le_of_eq frame.connections.symm) ?_
  · obtain same | ⟨task, silent, grown⟩ := move.queue own
    · rw [same]
    · rw [grown]
      rcases silent with rfl | rfl
      · exact filterMap_queue rfl _
      · exact filterMap_queue rfl _
  · intro _ _ pending
    exact pending.keep (move.queued own) move.others.1

theorem WireOk.clientCall (ok : WireOk s wire) {client : Nat} {task : Task} {cancelConnect : Bool}
    (taken : clientCall s client task cancelConnect = some s') : WireOk s' wire := by
  unfold TcpHandler.clientCall at taken
  split at taken
  case h_1 idle =>
    cases taken
    refine ok.keep rfl (.inl rfl) (.inl rfl) (Nat.le_refl _) ?_
    exact fun _ _ pending => pending.imp id fun asked => asked.call idle rfl rfl
  case h_2 => cases taken

theorem WireOk.clientStep (ok : WireOk s wire) {client : Nat}
    (taken : clientStep s client = some s') : WireOk s' (watch s (.clientStep client) wire) := by
  unfold TcpHandler.clientStep at taken
  split at taken
  case h_1 => cases taken
  case h_2 task busy =>
    cases taken
    simp only [watch, busy]
    have ending (pending : EndPending s) :
        EndPending { enqueue s task with clients := Function.update s.clients client .idle } :=
      pending.imp (List.mem_append_left _) fun asked => asked.enqueue busy rfl rfl
    cases task with
    | send buf =>
        refine ⟨?_, ok.conveyed, ok.sending, ok.whole, fun connection given => ?_⟩
        · simp only [Wire.queue, enqueue, List.filterMap_append, ← List.append_assoc, ok.order]
          rfl
        · exact (ok.abandoned connection given).imp id fun pending valid => ending (pending valid)
    | _ =>
        exact ok.keep (filterMap_queue rfl _) (.inl rfl) (.inl rfl) (Nat.le_refl _)
          fun _ _ => ending

theorem WireOk.next (ok : WireOk s wire) (handler : HandlerOk s) (cancel : CancelOk s)
    {action : Action} (taken : next s action = some s') :
    WireOk s' (watch s action wire) := by
  cases action with
  | connect client enableReconnect enableTLS => exact ok.clientCall taken
  | disconnect client => exact ok.clientCall taken
  | send client buf => exact ok.clientCall taken
  | setOnRecvEndFn client present => exact ok.clientCall taken
  | clientStep client => exact ok.clientStep taken
  | timerFires =>
      simp only [TcpHandler.next] at taken
      split at taken
      · cases taken
        exact ok.work ⟨rfl, rfl, rfl, rfl⟩ (.inl rfl)
      · cases taken
  | timerEnqueues =>
      simp only [TcpHandler.next] at taken
      split at taken
      · cases taken
        refine ok.keep (filterMap_queue rfl _) (.inl rfl) (.inl rfl) (Nat.le_refl _) ?_
        intro _ _ pending
        exact pending.keep (fun _ => List.mem_append_left _) rfl
      · cases taken
  | workerStep => exact ok.workerStep taken
  | connectStep connected =>
      have phase := connectStep_phase taken
      exact ok.workerMove (connectStep_move taken) (by rw [phase]; rfl) (by simp [phase])
  | negotiateStep established =>
      have phase := negotiateStep_phase taken
      have quiet : s.worker.unsent = none := by
        rw [phase]
        rfl
      cases negotiateStep_move taken with
      | inl move => exact ok.workerMove move quiet (by simp [phase])
      | inr done =>
          obtain ⟨_, _, rfl⟩ := done
          refine ok.keep (filterMap_queue rfl _) (.inl quiet.symm) (.inl rfl) (Nat.le_succ _) ?_
          intro _ _ pending
          exact pending.keep (fun _ => List.mem_append_left _) rfl
  | sendSelect result =>
      obtain ⟨buf, phase⟩ := sendSelect_phase taken
      exact ok.sendSelect (handler.atPhase phase) cancel taken
  | sendWrite result =>
      obtain ⟨buf, phase⟩ := sendWrite_phase taken
      exact ok.sendWrite (handler.atPhase phase) taken
  | receiverStep => exact ok.receiverMove handler.receiver (receiverStep_move taken)
  | receiverPending sslPending =>
      exact ok.receiverMove handler.receiver (receiverPending_move taken)
  | receiverSelect result => exact ok.receiverMove handler.receiver (receiverSelect_move taken)
  | receiverRead result => exact ok.receiverMove handler.receiver (receiverRead_move taken)
  | receiverSslRead result => exact ok.receiverMove handler.receiver (receiverSslRead_move taken)

theorem cancelOk_of_reachable (reachable : Reachable next (fun _ _ => True) State.initial s) :
    HandlerOk s ∧ CancelOk s := by
  refine reachable.invariant (fun s => HandlerOk s ∧ CancelOk s) ⟨.initial, nofun⟩ ?_
  intro before action after ok _ taken
  exact ⟨ok.1.move (next_move taken), ok.2.next ok.1 taken⟩

/-- In every run, whatever the threads and the network do, the sends go out in the order of their
tasks, and none of them is cut short but on a connection that is about to be closed. -/
theorem sends_go_out_in_order
    (reachable : Reachable (withHistory next watch) (fun _ _ => True)
      (State.initial, Wire.initial) (s, wire)) : WireOk s wire := by
  refine Reachable.with_history (fun _ _ => True) WireOk .initial ?_ reachable
  intro before wire action after reached ok _ taken
  obtain ⟨handler, cancel⟩ := cancelOk_of_reachable reached
  exact ok.next handler cancel taken

/-- The second of two buffers is given up half way. -/
theorem sends_go_out_in_order_until_a_disconnect :
    ∃ s wire, wire.accepted 0 = [65, 66, 67] ∧ wire.sentOn 0 = [[65, 66], [67, 68]] ∧
      wire.abandoned 0 = true ∧ WireOk s wire := by
  have executed : (runActions (withHistory next watch) (fun _ _ => True)
      (State.initial, Wire.initial)
      [.connect 1 false false, .clientStep 1, .workerStep, .connectStep true, .negotiateStep true,
        .workerStep, .send 1 [65, 66], .send 2 [67, 68], .clientStep 1, .clientStep 2,
        .workerStep, .sendSelect .ready, .sendWrite (.wrote 2), .sendSelect .ready, .workerStep,
        .sendSelect .ready, .sendWrite (.wrote 1), .disconnect 1, .sendSelect .timeout]).map
        (fun watched => (watched.2.accepted 0, watched.2.sentOn 0, watched.2.abandoned 0)) =
      some ([65, 66, 67], [[65, 66], [67, 68]], true) := by
    decide +kernel
  obtain ⟨⟨s, wire⟩, executed, observed⟩ := Option.map_eq_some_iff.mp executed
  simp only [Prod.mk.injEq] at observed
  obtain ⟨accepted, sent, abandoned⟩ := observed
  exact ⟨s, wire, accepted, sent, abandoned,
    sends_go_out_in_order (Reachable.of_runActions _ .start executed)⟩

end FreeDV.Util.TcpHandler
