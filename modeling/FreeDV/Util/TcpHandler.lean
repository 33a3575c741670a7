import FreeDV.Lib.Transition
import Mathlib.Logic.Function.Basic

/-!
# The TCP connection handler

`TcpConnectionHandler` as the threads that share it: the worker, which runs the
queued tasks, the receive thread of the open connection, the reconnect timer and
any number of clients. A step is one access to what they share, with the system
call it is made for and the local work behind it. What `connectImpl_` does until
it has a socket or gives up is one step here; `TcpConnect` has its inside.

Only the worker stores to `socket_` and `ssl_`, so its own loads of them go with
the step around them. The one producer and the one consumer of `receiveBuffer_`
see a plain queue; the handler never resets it. Established connections are
numbered from zero, and every byte carries the number of the connection it was
read from. The numbers, `reads` and `callbacks` record what happened.
-/

set_option autoImplicit false

namespace FreeDV.Util.TcpHandler

def READ_SIZE_BYTES : Nat := 1024

def RX_BUFFER_SIZE : Nat := 128 * 1024

abbrev Byte := Nat × UInt8

inductive Task where
  | connect (enableReconnect enableTLS : Bool)
  -- `connectImpl_`, queued by the timer
  | reconnect
  | disconnect
  -- `disconnectImpl_`, queued by the receive thread and by `sendImpl_`
  | close
  | send (buf : List UInt8)
  | setOnRecvEndFn (present : Bool)
  | onConnect
  | dispatch
deriving DecidableEq

/-- A client between its store to `cancelConnect_` and its call of `enqueue_`. -/
inductive Client where
  | idle
  | enqueueing (task : Task)
deriving DecidableEq

inductive Worker where
  | idle
  -- `connectImpl_` without a socket, and with one that is not yet established
  | connecting
  | negotiating
  -- `disconnectImpl_` behind its store to `socket_`, and behind its store to `ssl_`
  | disconnecting (requested : Bool)
  | joining (requested : Bool)
  -- `sendImpl_` before `select`, and before a write
  | sendSelect (buf : List UInt8)
  | sendWrite (buf : List UInt8)
  -- the dispatch task before a look at `numUsed`, and before a read
  | measuring
  | reading (toRead : Nat)
deriving DecidableEq

inductive SslError where
  | wantRead
  | wantWrite
  | other
deriving DecidableEq

/-- The local variables of one pass over the readable socket. -/
structure Pass where
  numHaveRead : Nat
  numRead : Int
deriving DecidableEq

/-- The receive thread. -/
inductive Receiver where
  -- `receiveThread_` is not joinable
  | absent
  | top
  | room
  | pending
  | select
  -- behind `select`, for a positive and for a negative result
  | selected
  | selectFailed
  -- the loop over the reads of one pass
  | inner (pass : Pass)
  | innerRoom (pass : Pass)
  | chooseRead (pass : Pass)
  | sslRead (pass : Pass)
  | sslFailed (pass : Pass) (sslErr : SslError)
  | sslWantWrite (pass : Pass)
  | plainRead (pass : Pass)
  | write (pass : Pass) (buf : List Byte)
  | passEnd (pass : Pass) (bufferFull : Bool)
  -- a task to queue, after which the thread goes on or stops
  | enqueueing (task : Task) (stop : Bool)
  -- the thread has returned and can be joined
  | finished
deriving DecidableEq

inductive Callback where
  | onConnect
  | onReceive (connection : Nat) (buf : List Byte)
  | onRecvEnd
  | onDisconnect
deriving DecidableEq

structure State where
  queue : List Task
  clients : Nat → Client
  worker : Worker
  receiver : Receiver
  /-- `socket_`, with the number of its connection. -/
  socket : Option Nat
  ssl : Option Nat
  usingTLS : Bool
  enableReconnect : Bool
  cancelConnect : Bool
  onRecvEndFn : Bool
  timerScheduled : Bool
  timerFiring : Bool
  receiveBuffer : List Byte
  /-- How many connections have been established. -/
  connections : Nat
  /-- What `receiveImpl_` has read from each connection. -/
  reads : Nat → List UInt8
  callbacks : List Callback

def State.initial : State where
  queue := []
  clients _ := .idle
  worker := .idle
  receiver := .absent
  socket := none
  ssl := none
  usingTLS := false
  enableReconnect := false
  cancelConnect := false
  onRecvEndFn := false
  timerScheduled := false
  timerFiring := false
  receiveBuffer := []
  connections := 0
  reads _ := []
  callbacks := []

def numUsed (s : State) : Nat := s.receiveBuffer.length

def numFree (s : State) : Nat := RX_BUFFER_SIZE - numUsed s - 1

def enqueue (s : State) (task : Task) : State := { s with queue := s.queue ++ [task] }

def call (s : State) (callback : Callback) : State :=
  { s with callbacks := s.callbacks ++ [callback] }

/-- `if (enableReconnect_) reconnectTimer_.start()` -/
def scheduleReconnect (s : State) : State :=
  { s with timerScheduled := s.enableReconnect || s.timerScheduled }

/-! ## The worker -/

/-- `disconnectImpl_` until `socket_` is invalid. `requested` tells the task of `disconnect`. -/
def disconnectImpl (s : State) (requested : Bool) : State :=
  match s.socket with
  | none => { s with cancelConnect := if requested then false else s.cancelConnect }
  | some _ => { s with socket := none, worker := .disconnecting requested }

/-- The check at the start of `connectImpl_`. -/
def connectImpl (s : State) : State :=
  match s.socket with
  | none => { s with worker := .connecting }
  | some _ => s

/-- A task that has been taken off the queue. -/
def beginTask (s : State) : Task → State
  | .connect enableReconnect enableTLS =>
      match s.socket with
      | none =>
          connectImpl { s with usingTLS := enableTLS, enableReconnect := enableReconnect }
      | some _ => s
  | .reconnect => connectImpl s
  | .disconnect => disconnectImpl s true
  | .close => disconnectImpl s false
  | .send buf =>
      match s.socket with
      | none => s
      | some _ => { s with worker := .sendSelect buf }
  | .setOnRecvEndFn present => { s with onRecvEndFn := present }
  | .onConnect => call s .onConnect
  | .dispatch => { s with worker := .measuring }

/-- Behind the loop of the dispatch task. -/
def endDispatch (s : State) : State :=
  if s.socket.isSome = true ∧ s.onRecvEndFn = true then call { s with worker := .idle } .onRecvEnd
  else { s with worker := .idle }

/-- The next step of the worker where it makes no call with an outcome of its own. -/
def workerStep (s : State) : Option State :=
  match s.worker with
  | .idle =>
      match s.queue with
      | [] => none
      | task :: queue => some (beginTask { s with queue := queue } task)
  | .disconnecting requested => some { s with ssl := none, worker := .joining requested }
  | .joining requested =>
      let closed := scheduleReconnect (call { s with receiver := .absent } .onDisconnect)
      match s.receiver with
      | .finished =>
          some { closed with
            cancelConnect := if requested then false else s.cancelConnect, worker := .idle }
      | _ => none
  | .measuring =>
      let toRead := min (numUsed s) READ_SIZE_BYTES
      if s.socket.isSome = true ∧ 0 < toRead then some { s with worker := .reading toRead }
      else some (endDispatch s)
  | .reading toRead =>
      let remaining := { s with
        receiveBuffer := s.receiveBuffer.drop toRead, worker := .measuring }
      match s.socket with
      | none => some remaining
      | some connection => some (call remaining (.onReceive connection (s.receiveBuffer.take toRead)))
  | .connecting => none
  | .negotiating => none
  | .sendSelect _ => none
  | .sendWrite _ => none

/-- The attempts of `connectImpl_` end, with or without a socket. -/
def connectStep (s : State) (connected : Bool) : Option State :=
  match s.worker with
  | .connecting =>
      if connected then some { s with socket := some s.connections, worker := .negotiating }
      else some (scheduleReconnect { s with worker := .idle })
  | _ => none

/-- The rest of `connectImpl_`. A negotiation that fails ends in `disconnectImpl_(false)`, before
there is a receive thread; without TLS there is none to fail. -/
def negotiateStep (s : State) (established : Bool) : Option State :=
  match s.worker with
  | .negotiating =>
      if established then
        some { enqueue s .onConnect with
          ssl := if s.usingTLS then s.socket else none
          receiver := .top
          connections := s.connections + 1
          worker := .idle }
      else if s.usingTLS then
        some (scheduleReconnect { s with socket := none, ssl := none, worker := .idle })
      else none
  | _ => none

inductive SelectResult where
  | ready
  | timeout
  | failed
deriving DecidableEq

/-- `select` in `sendImpl_`; the loop ends when nothing is left to send. -/
def sendSelect (s : State) (result : SelectResult) : Option State :=
  match s.worker with
  | .sendSelect [] => some { s with worker := .idle }
  | .sendSelect (byte :: buf) =>
      match result with
      | .ready => some { s with worker := .sendWrite (byte :: buf) }
      | .timeout => some { s with worker := if s.cancelConnect then .idle else s.worker }
      | .failed => some (enqueue s .close)
  | _ => none

inductive WriteResult where
  | wrote (count : Nat)
  | failed
  -- results of `SSL_write`: want-write, and want-read with the outcome of the wait for it
  | wantWrite
  | wantRead (result : SelectResult)
deriving DecidableEq

/-- `write` or `sslWrite_` in `sendImpl_`. -/
def sendWrite (s : State) (result : WriteResult) : Option State :=
  match s.worker with
  | .sendWrite buf =>
      let failed := enqueue { s with worker := .idle } .close
      match result with
      | .wrote 0 => some failed
      | .wrote (count + 1) =>
          if count < buf.length then
            some { s with worker := .sendSelect (buf.drop (count + 1)) }
          else none
      | .failed => some failed
      | .wantWrite => if s.ssl.isSome then some { s with worker := .sendSelect buf } else none
      | .wantRead waited =>
          if s.ssl.isSome then
            if waited = .timeout ∧ s.cancelConnect = true then some failed else some s
          else none
  | _ => none

/-! ## The receive thread -/

/-- `receiveBuffer_.write`, which takes all of the elements or none. -/
def writeBuffer (s : State) (buf : List Byte) : State :=
  if buf.length ≤ numFree s then { s with receiveBuffer := s.receiveBuffer ++ buf } else s

/-- Behind the loop over the reads of one pass. -/
def endPass (s : State) (pass : Pass) (bufferFull : Bool) : Receiver :=
  if pass.numHaveRead > 0 ∧ s.socket.isSome = true then .enqueueing .dispatch false
  else if bufferFull then .top
  else if pass.numRead ≤ 0 ∧ s.socket.isSome = true then .enqueueing .close true
  else .top

/-- The next step of the thread where it makes no call with an outcome of its own. -/
def receiverStep (s : State) : Option State :=
  match s.receiver with
  | .top => some { s with receiver := if s.socket.isSome then .room else .finished }
  | .room =>
      some { s with receiver := if numFree s < READ_SIZE_BYTES then .top else .pending }
  | .selected =>
      some { s with receiver := if s.socket.isSome then .inner ⟨0, 0⟩ else .top }
  | .selectFailed =>
      some { s with receiver := if s.socket.isSome then .enqueueing .close true else .top }
  | .inner pass =>
      some { s with
        receiver := if s.usingTLS = false ∨ s.ssl.isSome = true then .innerRoom pass
          else .passEnd pass false }
  | .innerRoom pass =>
      some { s with
        receiver := if numFree s < READ_SIZE_BYTES then .passEnd pass true
          else .chooseRead pass }
  | .chooseRead pass =>
      some { s with
        receiver := if s.usingTLS = true ∧ s.ssl.isSome = true then .sslRead pass
          else .plainRead pass }
  | .sslFailed pass sslErr =>
      if s.ssl.isSome then
        match sslErr with
        | .wantRead =>
            some { s with receiver := if pass.numHaveRead > 0 then .passEnd pass false else .top }
        | .wantWrite => some { s with receiver := .sslWantWrite pass }
        | .other => some { s with receiver := .passEnd pass false }
      else some { s with receiver := .passEnd pass false }
  | .sslWantWrite pass =>
      some { s with receiver := if s.socket.isSome then .inner pass else .passEnd pass false }
  | .write pass buf =>
      some { writeBuffer s buf with
        receiver := if pass.numRead < READ_SIZE_BYTES then .passEnd pass false else .inner pass }
  | .passEnd pass bufferFull => some { s with receiver := endPass s pass bufferFull }
  | .enqueueing task stop =>
      some { enqueue s task with receiver := if stop then .finished else .top }
  | .absent => none
  | .pending => none
  | .select => none
  | .sslRead _ => none
  | .plainRead _ => none
  | .finished => none

/-- `!usingTLS_ || sslPending_() == 0` -/
def receiverPending (s : State) (sslPending : Bool) : Option State :=
  match s.receiver with
  | .pending =>
      let decrypted := s.usingTLS && s.ssl.isSome && sslPending
      some { s with receiver := if decrypted then .selected else .select }
  | _ => none

def receiverSelect (s : State) (result : SelectResult) : Option State :=
  match s.receiver with
  | .select =>
      match result with
      | .ready => some { s with receiver := .selected }
      | .timeout => some { s with receiver := .top }
      | .failed => some { s with receiver := .selectFailed }
  | _ => none

/-- Bytes have arrived in `buf`, from the given connection. -/
def received (s : State) (pass : Pass) (connection : Nat) (data : List UInt8) : Option State :=
  if 0 < data.length ∧ data.length ≤ READ_SIZE_BYTES then
    some { s with
      reads := Function.update s.reads connection (s.reads connection ++ data)
      receiver := .write ⟨pass.numHaveRead + data.length, data.length⟩
        (data.map fun byte => (connection, byte)) }
  else none

inductive ReadResult where
  | data (data : List UInt8)
  | eof
  | failed
deriving DecidableEq

/-- `read(socket_, buf, READ_SIZE_BYTES)`, which fails on an invalid socket. -/
def receiverRead (s : State) (result : ReadResult) : Option State :=
  match s.receiver with
  | .plainRead pass =>
      let failed := { s with receiver := .passEnd { pass with numRead := -1 } false }
      match s.socket with
      | none => some failed
      | some connection =>
          match result with
          | .data data => received s pass connection data
          | .eof => some { s with receiver := .passEnd { pass with numRead := 0 } false }
          | .failed => some failed
  | _ => none

inductive SslResult where
  | data (data : List UInt8)
  | eof
  | failed (sslErr : SslError)
deriving DecidableEq

/-- `sslRead_`, which fails without an SSL object. -/
def receiverSslRead (s : State) (result : SslResult) : Option State :=
  match s.receiver with
  | .sslRead pass =>
      match s.ssl with
      | none => some { s with receiver := .sslFailed { pass with numRead := -1 } .other }
      | some connection =>
          match result with
          | .data data => received s pass connection data
          | .eof => some { s with receiver := .passEnd { pass with numRead := 0 } false }
          | .failed sslErr =>
              some { s with receiver := .sslFailed { pass with numRead := -1 } sslErr }
  | _ => none

/-! ## Clients and the timer -/

/-- A call of a client, up to its call of `enqueue_`. -/
def clientCall (s : State) (client : Nat) (task : Task) (cancelConnect : Bool) : Option State :=
  match s.clients client with
  | .idle =>
      some { s with
        cancelConnect := cancelConnect
        clients := Function.update s.clients client (.enqueueing task) }
  | .enqueueing _ => none

def clientStep (s : State) (client : Nat) : Option State :=
  match s.clients client with
  | .idle => none
  | .enqueueing task =>
      some { enqueue s task with clients := Function.update s.clients client .idle }

inductive Action where
  | connect (client : Nat) (enableReconnect enableTLS : Bool)
  | disconnect (client : Nat)
  | send (client : Nat) (buf : List UInt8)
  | setOnRecvEndFn (client : Nat) (present : Bool)
  | clientStep (client : Nat)
  | timerFires
  | timerEnqueues
  | workerStep
  | connectStep (connected : Bool)
  | negotiateStep (established : Bool)
  | sendSelect (result : SelectResult)
  | sendWrite (result : WriteResult)
  | receiverStep
  | receiverPending (sslPending : Bool)
  | receiverSelect (result : SelectResult)
  | receiverRead (result : ReadResult)
  | receiverSslRead (result : SslResult)

def next (s : State) : Action → Option State
  | .connect client enableReconnect enableTLS =>
      clientCall s client (.connect enableReconnect enableTLS) false
  | .disconnect client => clientCall s client .disconnect true
  | .send client buf => clientCall s client (.send buf) s.cancelConnect
  | .setOnRecvEndFn client present =>
      clientCall s client (.setOnRecvEndFn present) s.cancelConnect
  | .clientStep client => clientStep s client
  | .timerFires =>
      if s.timerScheduled = true ∧ s.timerFiring = false then
        some { s with timerScheduled := false, timerFiring := true }
      else none
  | .timerEnqueues =>
      if s.timerFiring then some { enqueue s .reconnect with timerFiring := false } else none
  | .workerStep => workerStep s
  | .connectStep connected => connectStep s connected
  | .negotiateStep established => negotiateStep s established
  | .sendSelect result => sendSelect s result
  | .sendWrite result => sendWrite s result
  | .receiverStep => receiverStep s
  | .receiverPending sslPending => receiverPending s sslPending
  | .receiverSelect result => receiverSelect s result
  | .receiverRead result => receiverRead s result
  | .receiverSslRead result => receiverSslRead s result

end FreeDV.Util.TcpHandler
