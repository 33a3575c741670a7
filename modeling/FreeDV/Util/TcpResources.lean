import FreeDV.Util.TcpConnect
import FreeDV.Util.TcpHandler

/-!
# What the connection handler owns

The handler with the inside of `connectImpl_` put in: while the worker is in
there, the address search of `TcpConnect` runs with the file descriptors it
opens, then the TLS set-up, and at the end the address lists are freed.
Descriptors are numbered in the order they are opened, calls of `connectImpl_`
that pass its first check in the order they are made. `answers` are the lists
the two lookups of each call return; an empty list is a null pointer.
-/

set_option autoImplicit false

namespace FreeDV.Util.TcpResources

open TcpConnect (Family Outcome SocketStatus)

/-- How far a call of `connectImpl_` has got. -/
inductive Stage where
  -- the lookups and the address loop, then the wait for the sockets still pending
  | searching
  | watching
  -- the TLS set-up
  | sslCtxNew
  | sslNew
  | sslConnect
  -- a connection to start the receive thread for
  | established
  -- the lookups are waited for and their lists freed
  | freeing
deriving DecidableEq

structure Call (α : Type) where
  number : Nat
  stage : Stage
  search : TcpConnect.State α
  /-- `pendingSockets`, by descriptor. -/
  pendingSockets : List Nat

structure State (α : Type) where
  handler : TcpHandler.State
  call : Option (Call α)
  calls : Nat
  opened : Nat
  closed : List Nat
  /-- The descriptor in `socket_`, or in `tmp` while `disconnectImpl_` closes it. -/
  descriptor : Option Nat
  sslCtx : Bool
  ssl : Bool
  /-- The calls of `freeaddrinfo`. -/
  freed : List (Nat × Family)

variable {α : Type}

def State.initial : State α where
  handler := .initial
  call := none
  calls := 0
  opened := 0
  closed := []
  descriptor := none
  sslCtx := false
  ssl := false
  freed := []

/-! ## The address search -/

/-- `checkConnections_` over the descriptors from number `i` on: those still pending, those it
closes, and the first that connected. -/
def checkConnections (status : Nat → SocketStatus) :
    List Nat → Nat → List Nat × List Nat × Option Nat
  | [], _ => ([], [], none)
  | sock :: rest, i =>
      match status i with
      | .failed =>
          let (kept, closed, connected) := checkConnections status rest (i + 1)
          (kept, sock :: closed, connected)
      | .connected => (sock :: rest, [], some sock)
      | .waiting =>
          let (kept, closed, connected) := checkConnections status rest (i + 1)
          (sock :: kept, closed, connected)

/-- A call of `checkConnections_` on the descriptors. -/
def check (s : State α) (call : Call α) (status : Nat → SocketStatus) : State α :=
  let (kept, closed, connected) := checkConnections status call.pendingSockets 0
  { s with
    call := some { call with pendingSockets := kept }
    closed := s.closed ++ closed
    descriptor := connected.or s.descriptor }

/-- The system calls for one address. -/
def attempt (s : State α) (call : Call α) : Outcome → State α
  | .socketFailed => { s with call := some call }
  | .fcntlFailed =>
      { s with call := some call, opened := s.opened + 1, closed := s.closed ++ [s.opened] }
  | .connectFailed =>
      { s with call := some call, opened := s.opened + 1, closed := s.closed ++ [s.opened] }
  | .connected =>
      { s with
        call := some { call with pendingSockets := call.pendingSockets ++ [s.opened] }
        opened := s.opened + 1
        descriptor := some s.opened }
  | .inProgress =>
      { s with
        call := some { call with pendingSockets := call.pendingSockets ++ [s.opened] }
        opened := s.opened + 1 }

/-- A step of the search in which the worker makes no system call. -/
def searchStep (answers : Family → List α) (call : Call α) (cancelConnect : Bool) :
    Option (Call α) :=
  match TcpConnect.workerStep answers { call.search with cancelConnect := cancelConnect } with
  | none => none
  | some search => some { call with search := search }

/-! ## TLS and the end of `connectImpl_` -/

/-- `disconnectImpl_(false)`: there is no receive thread yet. -/
def reject (s : State α) (call : Call α) : Option (State α) :=
  match TcpHandler.negotiateStep s.handler false with
  | none => none
  | some handler =>
      some { s with
        handler := handler
        call := some { call with stage := .freeing }
        closed := s.closed ++ s.descriptor.toList
        descriptor := none
        sslCtx := false
        ssl := false }

/-- The end of the wait for pending sockets: they are closed, except the one that connected. -/
def closePending (s : State α) (call : Call α) : Option (State α) :=
  match TcpHandler.connectStep s.handler s.descriptor.isSome with
  | none => none
  | some handler =>
      let stage : Stage :=
        match s.descriptor with
        | none => .freeing
        | some _ => if s.handler.usingTLS then .sslCtxNew else .established
      some { s with
        handler := handler
        call := some { call with stage := stage, pendingSockets := [] }
        closed := s.closed ++ call.pendingSockets.filter fun sock => some sock ≠ s.descriptor
        sslCtx := s.descriptor.isNone && s.sslCtx
        ssl := s.descriptor.isNone && s.ssl }

inductive HandshakeResult where
  | connected
  -- want-read or want-write, with a look at the clock
  | again (timedOut : Bool)
  | failed
deriving DecidableEq

def Family.all : List Family := [.ipv4, .ipv6]

/-- Both lookups are complete, so both lists are in `heads`, collected before or only now. -/
def freeAddresses (answers : Family → List α) (s : State α) (call : Call α) : State α :=
  { s with
    call := none
    freed := s.freed ++
      (Family.all.filter fun family => answers family ≠ []).map fun family => (call.number, family) }

/-! ## Steps -/

/-- Actions of the clients, the timer and the receive thread. -/
def fromOutside : TcpHandler.Action → Bool
  | .workerStep => false
  | .connectStep _ => false
  | .negotiateStep _ => false
  | .sendSelect _ => false
  | .sendWrite _ => false
  | _ => true

/-- What the descriptors and the TLS objects have to do with a step of the worker outside of
`connectImpl_`. -/
def followWorker (s : State α) (handler : TcpHandler.State) : State α :=
  match s.handler.worker with
  | .idle =>
      if handler.worker = .connecting then
        { s with
          handler := handler
          call := some ⟨s.calls, .searching, .initial, []⟩
          calls := s.calls + 1 }
      else { s with handler := handler }
  | .disconnecting _ => { s with handler := handler, sslCtx := false, ssl := false }
  | .joining _ =>
      { s with
        handler := handler
        closed := s.closed ++ s.descriptor.toList
        descriptor := none }
  | _ => { s with handler := handler }

inductive Action where
  | handler (action : TcpHandler.Action)
  -- the resolver threads
  | publish (family : Family)
  | complete (family : Family)
  -- `connectImpl_`
  | search
  | attempt (outcome : Outcome)
  | check (status : Nat → SocketStatus)
  | leave
  | watch (status : Nat → SocketStatus)
  | sslCtxNew (created : Bool)
  | sslNew (assigned : Bool)
  | sslConnect (result : HandshakeResult)
  | start
  | free

/-- A step inside of `connectImpl_`. -/
def callStep (answers : Family → List α) (s : State α) (call : Call α) : Action → Option (State α)
  | .publish family =>
      match TcpConnect.next answers call.search (.publish family) with
      | none => none
      | some search => some { s with call := some { call with search := search } }
  | .complete family =>
      match TcpConnect.next answers call.search (.complete family) with
      | none => none
      | some search => some { s with call := some { call with search := search } }
  | .search =>
      if call.stage = .searching then
        match searchStep answers call s.handler.cancelConnect with
        | none => none
        | some call => some { s with call := some call }
      else none
  | .attempt outcome =>
      if call.stage = .searching then
        match TcpConnect.attempt call.search outcome with
        | none => none
        | some search => some (attempt s { call with search := search } outcome)
      else none
  | .check status =>
      if call.stage = .searching then
        match TcpConnect.check call.search status with
        | none => none
        | some search => some (check s { call with search := search } status)
      else none
  | .leave =>
      if call.stage = .searching ∧ call.search.point = .left then
        some { s with call := some { call with stage := .watching } }
      else none
  | .watch status =>
      if call.stage = .watching then
        if s.handler.cancelConnect = true ∨ call.pendingSockets = [] ∨ s.descriptor.isSome = true then
          closePending s call
        else some (check s call status)
      else none
  | .sslCtxNew created =>
      if call.stage = .sslCtxNew then
        if created then
          some { s with call := some { call with stage := .sslNew }, sslCtx := true }
        else reject s call
      else none
  | .sslNew assigned =>
      if call.stage = .sslNew then
        if assigned then
          some { s with call := some { call with stage := .sslConnect }, ssl := true }
        else reject { s with ssl := true } call
      else none
  | .sslConnect result =>
      if call.stage = .sslConnect then
        match result with
        | .connected => some { s with call := some { call with stage := .established } }
        | .again timedOut =>
            if s.handler.cancelConnect = true ∨ timedOut = true then reject s call else some s
        | .failed => reject s call
      else none
  | .start =>
      if call.stage = .established then
        match TcpHandler.negotiateStep s.handler true with
        | none => none
        | some handler =>
            some { s with handler := handler, call := some { call with stage := .freeing } }
      else none
  | .free =>
      if call.stage = .freeing ∧ call.search.complete .ipv4 = true ∧
          call.search.complete .ipv6 = true then
        some (freeAddresses answers s call)
      else none
  | .handler action =>
      if fromOutside action then
        match TcpHandler.next s.handler action with
        | none => none
        | some handler => some { s with handler := handler }
      else none

/-- A step while the worker is not in `connectImpl_`. -/
def taskStep (s : State α) : Action → Option (State α)
  | .handler action =>
      match TcpHandler.next s.handler action with
      | none => none
      | some handler =>
          if fromOutside action then some { s with handler := handler }
          else some (followWorker s handler)
  | _ => none

def next (answers : Nat → Family → List α) (s : State α) (action : Action) : Option (State α) :=
  match s.call with
  | none => taskStep s action
  | some call => callStep (answers call.number) s call action

end FreeDV.Util.TcpResources
