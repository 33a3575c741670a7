import FreeDV.Util.TcpHandlerSteps
import Mathlib.Data.List.Basic

/-!
# Receive stream integrity

What a connection's `onReceive_` calls are given is a prefix of what was read
from that connection, in every run that starts each receive thread on an empty
`receiveBuffer_`. The handler does not see to that itself: bytes that a
disconnect overtakes stay in the buffer and reach the next connection.
-/

set_option autoImplicit false

namespace FreeDV.Util.TcpHandler

open FreeDV.Lib

variable {s s' : State}

/-! ## What has been delivered and what has been read -/

def Callback.received (connection : Nat) : Callback → List Byte
  | .onReceive current buf => if current = connection then buf else []
  | .onConnect => []
  | .onRecvEnd => []
  | .onDisconnect => []

/-- The bytes passed to `onReceive_` while `socket_` held the connection. -/
def delivered (s : State) (connection : Nat) : List Byte :=
  s.callbacks.flatMap (Callback.received connection)

/-- The bytes `receiveImpl_` has read from the connection. -/
def readFrom (s : State) (connection : Nat) : List Byte :=
  (s.reads connection).map fun byte => (connection, byte)

theorem delivered_call (s : State) (callback : Callback) (connection : Nat) :
    delivered (call s callback) connection =
      delivered s connection ++ callback.received connection := by
  simp [delivered, call]

/-- Bytes that have been read but are not yet in the buffer. -/
def Receiver.inHand : Receiver → List Byte
  | .write _ buf => buf
  | _ => []

theorem Receiver.emptyHanded_inHand {receiver : Receiver}
    (empty : receiver.emptyHanded = true) : receiver.inHand = [] := by
  cases receiver with
  | write pass buf => cases empty
  | _ => rfl

/-! ## The invariant -/

structure StreamOk (s : State) : Prop where
  inOrder : ∀ connection, delivered s connection <+: readFrom s connection
  later : ∀ connection, s.connections ≤ connection →
    s.reads connection = [] ∧ delivered s connection = []
  /-- What was read from the latest connection is delivered, in the buffer or on its way there. -/
  latest : s.receiver ≠ .absent → ∀ connection, connection + 1 = s.connections →
    delivered s connection ++ (s.receiveBuffer ++ s.receiver.inHand) = readFrom s connection
  ssl : ∀ connection, s.ssl = some connection → connection + 1 = s.connections
  room : s.receiver.hasRoom = true → READ_SIZE_BYTES ≤ numFree s
  inHand : s.receiver.inHand.length ≤ READ_SIZE_BYTES

theorem StreamOk.initial : StreamOk State.initial where
  inOrder _ := List.nil_prefix
  later _ _ := ⟨rfl, rfl⟩
  latest running := absurd rfl running
  ssl connection valid := by cases valid
  room room := by cases room
  inHand := Nat.zero_le _

theorem StreamOk.keep (ok : StreamOk s)
    (delivered : ∀ connection, delivered s' connection = delivered s connection)
    (reads : s'.reads = s.reads) (connections : s'.connections = s.connections)
    (receiver : s'.receiver = s.receiver) (receiveBuffer : s'.receiveBuffer = s.receiveBuffer)
    (ssl : s'.ssl = s.ssl ∨ s'.ssl = none) : StreamOk s' where
  inOrder connection := by
    rw [delivered, readFrom, reads]
    exact ok.inOrder connection
  later connection later := by
    rw [connections] at later
    rw [delivered, reads]
    exact ok.later connection later
  latest running connection latest := by
    rw [receiver] at running
    rw [connections] at latest
    rw [delivered, receiveBuffer, receiver, readFrom, reads]
    exact ok.latest running connection latest
  ssl connection valid := by
    rw [connections]
    cases ssl with
    | inl same => exact ok.ssl connection (same.symm.trans valid)
    | inr none =>
        rw [none] at valid
        cases valid
  room needed := by
    rw [receiver] at needed
    rw [numFree, numUsed, receiveBuffer]
    exact ok.room needed
  inHand := by
    rw [receiver]
    exact ok.inHand

/-! ## The receive thread -/

theorem StreamOk.advance (ok : StreamOk s) (empty : s.receiver.emptyHanded = true)
    {receiver : Receiver} {queue : List Task} (empty' : receiver.emptyHanded = true)
    (room : receiver.hasRoom = true → s.receiver.hasRoom = true ∨ READ_SIZE_BYTES ≤ numFree s) :
    StreamOk { s with receiver := receiver, queue := queue } where
  inOrder := ok.inOrder
  later := ok.later
  latest _ connection current := by
    have latest := ok.latest (Receiver.emptyHanded_running empty) connection current
    rw [Receiver.emptyHanded_inHand empty] at latest
    rw [Receiver.emptyHanded_inHand empty']
    exact latest
  ssl := ok.ssl
  room needed := (room needed).elim ok.room id
  inHand := by
    rw [Receiver.emptyHanded_inHand empty']
    exact Nat.zero_le _

theorem StreamOk.received (ok : StreamOk s) (empty : s.receiver.emptyHanded = true) {pass : Pass}
    {connection : Nat} {data : List UInt8}
    (room : s.receiver.hasRoom = true) (current : connection + 1 = s.connections)
    (taken : received s pass connection data = some s') : StreamOk s' := by
  unfold TcpHandler.received at taken
  split at taken
  case isTrue bounds =>
    cases taken
    refine ⟨?_, ?_, ?_, ok.ssl, fun _ => ok.room room, ?_⟩
    · intro other
      by_cases same : other = connection
      · subst same
        have grown : readFrom s other <+: (s.reads other ++ data).map fun byte => (other, byte) := by
          rw [List.map_append]
          exact List.prefix_append _ _
        simp only [readFrom, Function.update_self]
        exact (ok.inOrder other).trans grown
      · simp only [readFrom, Function.update_of_ne same]
        exact ok.inOrder other
    · intro other later
      have different : other ≠ connection := by
        intro same
        subst same
        change s.connections ≤ other at later
        omega
      simp only [Function.update_of_ne different]
      exact ok.later other later
    · intro _ other latest
      have same : other = connection := by
        change other + 1 = s.connections at latest
        omega
      subst same
      have before := ok.latest (Receiver.emptyHanded_running empty) other current
      rw [Receiver.emptyHanded_inHand empty, List.append_nil] at before
      simp only [readFrom, Function.update_self, Receiver.inHand, List.map_append]
      rw [← List.append_assoc]
      exact congrArg (· ++ data.map fun byte => (other, byte)) before
    · simp only [Receiver.inHand, List.length_map]
      exact bounds.2
  case isFalse => cases taken

/-- The write behind the check for room does not fail. -/
theorem StreamOk.fits (ok : StreamOk s) {pass : Pass} {buf : List Byte}
    (writing : s.receiver = .write pass buf) : buf.length ≤ numFree s := by
  have free := ok.room (by rw [writing]; rfl)
  have length := ok.inHand
  rw [writing] at length
  exact Nat.le_trans length free

theorem StreamOk.write (ok : StreamOk s) {pass : Pass} {buf : List Byte} {receiver : Receiver}
    (writing : s.receiver = .write pass buf) (empty' : receiver.emptyHanded = true)
    (room : receiver.hasRoom = false) :
    StreamOk { writeBuffer s buf with receiver := receiver } := by
  have running : s.receiver ≠ .absent := by
    rw [writing]
    simp
  have inHand := Receiver.emptyHanded_inHand empty'
  rw [writeBuffer, if_pos (ok.fits writing)]
  refine ⟨ok.inOrder, ok.later, ?_, ok.ssl, ?_, ?_⟩
  · intro _ connection current
    have latest := ok.latest running connection current
    rw [writing] at latest
    simp only [inHand, List.append_nil]
    exact latest
  · intro needed
    rw [room] at needed
    cases needed
  · simp [inHand]

theorem StreamOk.receiverMove (ok : StreamOk s) (handler : HandlerOk s)
    (move : ReceiverMove s s') : StreamOk s' := by
  cases move with
  | goOn empty empty' noRoom own =>
      refine ok.advance empty empty' ?_
      intro room
      rw [noRoom] at room
      cases room
  | findRoom empty empty' room own => exact ok.advance empty empty' fun _ => room
  | read empty room source taken =>
      have running := Receiver.emptyHanded_running empty
      have current := source.elim (handler.worker.current running) (ok.ssl _)
      exact ok.received empty room current taken
  | write writing empty' noRoom own => exact ok.write writing empty' noRoom
  | @enqueue task stop queueing =>
      have empty : s.receiver.emptyHanded = true := by
        rw [queueing]
        rfl
      cases stop with
      | true => exact ok.advance empty rfl nofun
      | false => exact ok.advance empty rfl nofun

/-! ## The worker -/

theorem delivered_call_other {callback : Callback}
    (other : ∀ connection, callback.received connection = []) (connection : Nat) :
    delivered (call s callback) connection = delivered s connection := by
  rw [delivered_call, other, List.append_nil]

theorem StreamOk.deliver (ok : StreamOk s) (settled : Settled s) {connection : Nat}
    (valid : s.socket = some connection) (toRead : Nat) :
    StreamOk (call { s with
      receiveBuffer := s.receiveBuffer.drop toRead, worker := .measuring }
      (.onReceive connection (s.receiveBuffer.take toRead))) := by
  have current := settled.current connection valid
  have latest := ok.latest (settled.running valid) connection current
  -- only the open connection is given anything
  have others : ∀ other, other ≠ connection →
      delivered (call { s with
        receiveBuffer := s.receiveBuffer.drop toRead, worker := .measuring }
        (.onReceive connection (s.receiveBuffer.take toRead))) other = delivered s other := by
    intro other different
    rw [delivered_call]
    simp [Callback.received, different.symm, delivered]
  have grown : delivered (call { s with
        receiveBuffer := s.receiveBuffer.drop toRead, worker := .measuring }
        (.onReceive connection (s.receiveBuffer.take toRead))) connection =
      delivered s connection ++ s.receiveBuffer.take toRead := by
    rw [delivered_call]
    simp [Callback.received, delivered]
  have split : delivered s connection ++ s.receiveBuffer.take toRead ++
      (s.receiveBuffer.drop toRead ++ s.receiver.inHand) = readFrom s connection := by
    rw [List.append_assoc, ← List.append_assoc (s.receiveBuffer.take toRead),
      List.take_append_drop]
    exact latest
  refine ⟨?_, ?_, ?_, ok.ssl, ?_, ok.inHand⟩
  · intro other
    by_cases same : other = connection
    · subst same
      rw [grown]
      exact ⟨_, split⟩
    · rw [others other same]
      exact ok.inOrder other
  · intro other later
    have different : other ≠ connection := by
      intro same
      subst same
      change s.connections ≤ other at later
      omega
    rw [others other different]
    exact ok.later other later
  · intro _ other newest
    have same : other = connection := by
      change other + 1 = s.connections at newest
      omega
    subst same
    rw [grown]
    exact split
  · intro needed
    have room := ok.room needed
    simp only [call, numFree, numUsed, List.length_drop] at room ⊢
    omega

theorem StreamOk.join (ok : StreamOk s) {cancelConnect : Bool} :
    StreamOk { scheduleReconnect (call { s with receiver := .absent } .onDisconnect) with
      cancelConnect := cancelConnect, worker := .idle } := by
  have same (connection : Nat) :
      delivered (call { s with receiver := .absent } .onDisconnect) connection =
        delivered s connection := delivered_call_other (fun _ => rfl) connection
  refine ⟨?_, ?_, fun running => absurd rfl running, ok.ssl, ?_, Nat.zero_le _⟩
  · intro connection
    change delivered (call { s with receiver := .absent } .onDisconnect) connection <+: _
    rw [same]
    exact ok.inOrder connection
  · intro connection later
    change _ ∧ delivered (call { s with receiver := .absent } .onDisconnect) connection = _
    rw [same]
    exact ok.later connection later
  · intro needed
    cases needed

theorem StreamOk.workerMove (ok : StreamOk s) (handler : HandlerOk s)
    (move : WorkerMove s s') : StreamOk s' := by
  cases move with
  | onConnect idle head =>
      exact ok.keep (delivered_call_other fun _ => rfl) rfl rfl rfl rfl (.inl rfl)
  | clearTls phase => exact ok.keep (fun _ => rfl) rfl rfl rfl rfl (.inr rfl)
  | join phase finished => exact ok.join
  | endDispatch phase =>
      unfold endDispatch
      split
      · exact ok.keep (delivered_call_other fun _ => rfl) rfl rfl rfl rfl (.inl rfl)
      · exact ok.keep (fun _ => rfl) rfl rfl rfl rfl (.inl rfl)
  | deliver phase valid => exact ok.deliver (handler.atPhase phase).1 valid _
  | discard phase invalid =>
      have valid := (handler.atPhase phase).2.1
      simp [invalid] at valid
  | rejected phase usingTLS => exact ok.keep (fun _ => rfl) rfl rfl rfl rfl (.inr rfl)
  | _ => exact ok.keep (fun _ => rfl) rfl rfl rfl rfl (.inl rfl)

/-- A connection is established: nothing has been read from it, and the buffer is empty. -/
theorem StreamOk.establish (ok : StreamOk s) (fresh : s.socket = some s.connections)
    (empty : s.receiveBuffer = []) : StreamOk (establish s) := by
  have unread := ok.later s.connections (Nat.le_refl _)
  refine ⟨ok.inOrder, ?_, ?_, ?_, nofun, Nat.zero_le _⟩
  · intro connection later
    exact ok.later connection (Nat.le_of_succ_le later)
  · intro _ connection newest
    have same : connection = s.connections := Nat.succ.inj newest
    subst same
    change delivered s s.connections ++ (s.receiveBuffer ++ []) = readFrom s s.connections
    simp [readFrom, unread.1, unread.2, empty]
  · intro connection valid
    simp only [TcpHandler.establish] at valid ⊢
    split at valid
    · rw [fresh] at valid
      cases valid
      rfl
    · cases valid

/-! ## Whole runs -/

/-- Each receive thread starts on an empty buffer. -/
def cleanStart (s : State) : Action → Bool
  | .negotiateStep true => s.receiveBuffer.isEmpty
  | _ => true

theorem StreamOk.outsideMove (ok : StreamOk s) (move : OutsideMove s s') : StreamOk s' := by
  cases move with
  | _ => exact ok.keep (fun _ => rfl) rfl rfl rfl rfl (.inl rfl)

theorem streamOk_of_reachable
    (reachable : Reachable next (fun s action => cleanStart s action = true) State.initial s) :
    StreamOk s := by
  refine (invariant_of_moves StreamOk .initial ?_ reachable).2
  intro s action s' handler ok clean move
  cases move with
  | worker _ move => exact ok.workerMove handler move
  | establish starts phase =>
      subst starts
      exact ok.establish (handler.atPhase phase).1 (List.isEmpty_iff.mp clean)
  | receiver move => exact ok.receiverMove handler move
  | outside move => exact ok.outsideMove move

/-- While each receive thread starts on an empty buffer, a connection's `onReceive_` calls are
given what was read from that connection, from its first byte on. -/
theorem deliveries_are_a_prefix_of_the_reads
    (reachable : Reachable next (fun s action => cleanStart s action = true) State.initial s) :
    ∀ connection, delivered s connection <+: readFrom s connection :=
  (streamOk_of_reachable reachable).inOrder

structure Summary where
  socket : Option Nat
  connections : Nat
  receiveBuffer : List Byte
  reads : List UInt8 × List UInt8
  callbacks : List Callback
deriving DecidableEq

def summary (s : State) : Summary :=
  ⟨s.socket, s.connections, s.receiveBuffer, (s.reads 0, s.reads 1), s.callbacks⟩

/-- `connect`, up to the start of the receive thread and the call of `onConnect_`. -/
def connectSteps (enableTLS : Bool) : List Action :=
  [.connect 1 false enableTLS, .clientStep 1, .workerStep, .connectStep true, .negotiateStep true,
    .workerStep]

/-- One pass of the receive thread, up to the write of the bytes to the buffer. -/
def readSteps (data : List UInt8) : List Action :=
  [.receiverStep, .receiverStep, .receiverPending false, .receiverSelect .ready, .receiverStep,
    .receiverStep, .receiverStep, .receiverStep, .receiverRead (.data data), .receiverStep]

/-- The end of the pass, which queues a dispatch task, and that task. -/
def dispatchSteps : List Action :=
  [.receiverStep, .receiverStep, .workerStep, .workerStep, .workerStep, .workerStep]

/-- A disconnect that overtakes the dispatch task of the bytes that were read last. -/
def overtakingSteps : List Action :=
  [.disconnect 1, .clientStep 1, .receiverStep, .receiverStep, .workerStep, .workerStep,
    .receiverStep, .workerStep, .workerStep, .workerStep]

/-- Two connections, each of which is given its own byte. -/
theorem two_connections_deliver_their_own_reads :
    ∃ s, Reachable next (fun s action => cleanStart s action = true) State.initial s ∧
      delivered s 0 = [(0, 65)] ∧ delivered s 1 = [(1, 66)] ∧
      ∀ connection, delivered s connection <+: readFrom s connection := by
  have executed : (runActions next (fun s action => cleanStart s action = true) State.initial
      (List.flatten [connectSteps false, readSteps [65], dispatchSteps,
        [.disconnect 1, .clientStep 1, .workerStep, .workerStep, .receiverStep, .workerStep],
        connectSteps false, readSteps [66], dispatchSteps])).map summary =
      some ⟨some 1, 2, [], ([65], [66]), [.onConnect, .onReceive 0 [(0, 65)], .onDisconnect,
        .onConnect, .onReceive 1 [(1, 66)]]⟩ := by
    decide +kernel
  obtain ⟨s, executed, result⟩ := Option.map_eq_some_iff.mp executed
  simp only [summary, Summary.mk.injEq] at result
  obtain ⟨_, _, _, _, callbacks⟩ := result
  have reachable := Reachable.of_runActions _ .start executed
  refine ⟨s, reachable, ?_, ?_, deliveries_are_a_prefix_of_the_reads reachable⟩
  · rw [delivered, callbacks]
    rfl
  · rw [delivered, callbacks]
    rfl

/-- A byte read from the first connection is delivered on the second one. -/
theorem a_stale_byte_is_delivered :
    ∃ s, Reachable next (fun _ _ => True) State.initial s ∧ s.socket = some 1 ∧
      delivered s 1 = [(0, 65), (1, 66)] ∧ readFrom s 1 = [(1, 66)] ∧
      ¬ ∀ connection, delivered s connection <+: readFrom s connection := by
  have executed : (runActions next (fun _ _ => True) State.initial
      (connectSteps false ++ readSteps [65] ++ overtakingSteps ++
        connectSteps false ++ readSteps [66] ++ dispatchSteps)).map summary =
      some ⟨some 1, 2, [], ([65], [66]), [.onConnect, .onDisconnect, .onConnect,
        .onReceive 1 [(0, 65), (1, 66)]]⟩ := by
    decide +kernel
  obtain ⟨s, executed, result⟩ := Option.map_eq_some_iff.mp executed
  simp only [summary, Summary.mk.injEq, Prod.mk.injEq] at result
  obtain ⟨socket, _, _, ⟨_, second⟩, callbacks⟩ := result
  have passed : delivered s 1 = [(0, 65), (1, 66)] := by
    rw [delivered, callbacks]
    rfl
  have read : readFrom s 1 = [(1, 66)] := by
    rw [readFrom, second]
    rfl
  refine ⟨s, Reachable.of_runActions _ .start executed, socket, passed, read, ?_⟩
  intro prefixes
  have stale := prefixes 1
  rw [passed, read] at stale
  exact absurd stale (by decide)

end FreeDV.Util.TcpHandler
