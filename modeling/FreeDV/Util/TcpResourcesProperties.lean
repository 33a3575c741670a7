import FreeDV.Util.TcpConnectProperties
import FreeDV.Util.TcpHandlerSteps
import FreeDV.Util.TcpResources
import Mathlib.Data.List.Count

/-!
# Nothing leaks

Between two tasks of the worker, every descriptor that was opened has been
closed once, except the one in `socket_`; there is a receive thread exactly
while there is a socket; TLS objects exist only with a socket; and each address
list has been freed once.
-/

set_option autoImplicit false

namespace FreeDV.Util.TcpResources

open FreeDV.Lib
open TcpConnect (Family Outcome SocketStatus)

variable {α : Type} {answers : Nat → Family → List α} {s s' : State α}

/-! ## The handler inside -/

theorem fromOutside_frame {handler handler' : TcpHandler.State} {action : TcpHandler.Action}
    (outside : fromOutside action = true)
    (taken : TcpHandler.next handler action = some handler') :
    TcpHandler.Frame handler handler' := by
  cases action with
  | connect client enableReconnect enableTLS =>
      exact (TcpHandler.clientCall_move rfl taken).frame
  | disconnect client => exact (TcpHandler.clientCall_move rfl taken).frame
  | send client buf => exact (TcpHandler.clientCall_move rfl taken).frame
  | setOnRecvEndFn client present => exact (TcpHandler.clientCall_move rfl taken).frame
  | clientStep client => exact (TcpHandler.clientStep_move taken).frame
  | timerFires =>
      simp only [TcpHandler.next] at taken
      split at taken
      · cases taken
        exact ⟨rfl, rfl, rfl, rfl, rfl⟩
      · cases taken
  | timerEnqueues =>
      simp only [TcpHandler.next] at taken
      split at taken
      · cases taken
        exact ⟨rfl, rfl, rfl, rfl, rfl⟩
      · cases taken
  | receiverStep => exact (TcpHandler.receiverStep_move taken).frame.1
  | receiverPending sslPending => exact (TcpHandler.receiverPending_move taken).frame.1
  | receiverSelect result => exact (TcpHandler.receiverSelect_move taken).frame.1
  | receiverRead result => exact (TcpHandler.receiverRead_move taken).frame.1
  | receiverSslRead result => exact (TcpHandler.receiverSslRead_move taken).frame.1
  | _ => cases outside

/-! ## What a step can do -/

/-- What a step inside of `connectImpl_` can do. -/
inductive CallMove (answers : Family → List α) (s : State α) (call : Call α) : State α → Prop
  | outside {handler : TcpHandler.State} {action : TcpHandler.Action} :
      TcpHandler.next s.handler action = some handler → TcpHandler.Frame s.handler handler →
      CallMove answers s call { s with handler := handler }
  | resolver {search : TcpConnect.State α} :
      search.point = call.search.point → search.socket = call.search.socket →
      search.pendingSockets = call.search.pendingSockets →
      CallMove answers s call { s with call := some { call with search := search } }
  | search {search : TcpConnect.State α} {cancelConnect : Bool} :
      call.stage = .searching →
      TcpConnect.workerStep answers { call.search with cancelConnect := cancelConnect } =
        some search →
      CallMove answers s call { s with call := some { call with search := search } }
  | attempt {search : TcpConnect.State α} {outcome : Outcome} :
      call.stage = .searching → TcpConnect.attempt call.search outcome = some search →
      CallMove answers s call (attempt s { call with search := search } outcome)
  | check {search : TcpConnect.State α} {status : Nat → SocketStatus} :
      call.stage = .searching → TcpConnect.check call.search status = some search →
      CallMove answers s call (check s { call with search := search } status)
  | leave :
      call.stage = .searching →
      CallMove answers s call { s with call := some { call with stage := .watching } }
  | watch {status : Nat → SocketStatus} :
      call.stage = .watching → s.descriptor = none →
      CallMove answers s call (TcpResources.check s call status)
  | closePending {s' : State α} :
      call.stage = .watching → closePending s call = some s' → CallMove answers s call s'
  | sslCtxNew :
      call.stage = .sslCtxNew →
      CallMove answers s call { s with call := some { call with stage := .sslNew }, sslCtx := true }
  | sslNew :
      call.stage = .sslNew →
      CallMove answers s call { s with call := some { call with stage := .sslConnect }, ssl := true }
  | sslConnect :
      call.stage = .sslConnect →
      CallMove answers s call { s with call := some { call with stage := .established } }
  | again : CallMove answers s call s
  | reject {ssl : Bool} {s' : State α} :
      call.stage = .sslCtxNew ∨ call.stage = .sslNew ∨ call.stage = .sslConnect →
      reject { s with ssl := ssl } call = some s' → CallMove answers s call s'
  | start {handler : TcpHandler.State} :
      call.stage = .established → TcpHandler.negotiateStep s.handler true = some handler →
      CallMove answers s call
        { s with handler := handler, call := some { call with stage := .freeing } }
  | free :
      call.stage = .freeing → CallMove answers s call (freeAddresses answers s call)

theorem callStep_move {answers : Family → List α} {call : Call α} {action : Action}
    (taken : callStep answers s call action = some s') : CallMove answers s call s' := by
  cases action with
  | handler action =>
      simp only [callStep] at taken
      split at taken
      case isTrue outside =>
        split at taken
        case h_1 => cases taken
        case h_2 handler stepped =>
          cases taken
          exact .outside stepped (fromOutside_frame outside stepped)
      case isFalse => cases taken
  | publish family =>
      simp only [callStep, TcpConnect.next] at taken
      split at taken
      case h_1 => cases taken
      case h_2 search stepped =>
        cases taken
        split at stepped
        · cases stepped
        · cases stepped
          exact .resolver rfl rfl rfl
  | complete family =>
      simp only [callStep, TcpConnect.next] at taken
      split at taken
      case h_1 => cases taken
      case h_2 search stepped =>
        cases taken
        split at stepped
        · cases stepped
          exact .resolver rfl rfl rfl
        · cases stepped
  | search =>
      simp only [callStep, searchStep] at taken
      split at taken
      case isTrue stage =>
        split at taken
        case h_1 => cases taken
        case h_2 call' stepped =>
          cases taken
          split at stepped
          case h_1 => cases stepped
          case h_2 search found =>
            cases stepped
            exact .search stage found
      case isFalse => cases taken
  | attempt outcome =>
      simp only [callStep] at taken
      split at taken
      case isTrue stage =>
        split at taken
        case h_1 => cases taken
        case h_2 search stepped =>
          cases taken
          exact .attempt stage stepped
      case isFalse => cases taken
  | check status =>
      simp only [callStep] at taken
      split at taken
      case isTrue stage =>
        split at taken
        case h_1 => cases taken
        case h_2 search stepped =>
          cases taken
          exact .check stage stepped
      case isFalse => cases taken
  | leave =>
      simp only [callStep] at taken
      split at taken
      case isTrue stage =>
        cases taken
        exact .leave stage.1
      case isFalse => cases taken
  | watch status =>
      simp only [callStep] at taken
      split at taken
      case isTrue stage =>
        split at taken
        case isTrue ended => exact .closePending stage taken
        case isFalse goesOn =>
          cases taken
          refine .watch stage ?_
          cases held : s.descriptor with
          | none => rfl
          | some descriptor => simp [held] at goesOn
      case isFalse => cases taken
  | sslCtxNew created =>
      simp only [callStep] at taken
      split at taken
      case isTrue stage =>
        split at taken
        · cases taken
          exact .sslCtxNew stage
        · exact .reject (.inl stage) taken
      case isFalse => cases taken
  | sslNew assigned =>
      simp only [callStep] at taken
      split at taken
      case isTrue stage =>
        split at taken
        · cases taken
          exact .sslNew stage
        · exact .reject (.inr (.inl stage)) taken
      case isFalse => cases taken
  | sslConnect result =>
      simp only [callStep] at taken
      split at taken
      case isTrue stage =>
        cases result with
        | connected =>
            cases taken
            exact .sslConnect stage
        | again timedOut =>
            dsimp only at taken
            split at taken
            · exact .reject (.inr (.inr stage)) taken
            · cases taken
              exact .again
        | failed => exact .reject (.inr (.inr stage)) taken
      case isFalse => cases taken
  | start =>
      simp only [callStep] at taken
      split at taken
      case isTrue stage =>
        split at taken
        case h_1 => cases taken
        case h_2 handler stepped =>
          cases taken
          exact .start stage stepped
      case isFalse => cases taken
  | free =>
      simp only [callStep] at taken
      split at taken
      case isTrue ready =>
        cases taken
        exact .free ready.1
      case isFalse => cases taken

/-- What a step outside of `connectImpl_` can do. -/
inductive TaskMove (s : State α) : State α → Prop
  | outside {handler : TcpHandler.State} {action : TcpHandler.Action} :
      TcpHandler.next s.handler action = some handler → TcpHandler.Frame s.handler handler →
      TaskMove s { s with handler := handler }
  | worker {handler : TcpHandler.State} {action : TcpHandler.Action} :
      TcpHandler.next s.handler action = some handler → TcpHandler.WorkerMove s.handler handler →
      TaskMove s (followWorker s handler)

theorem taskStep_move {action : Action} (connecting : s.handler.worker ≠ .negotiating)
    (taken : taskStep s action = some s') : TaskMove s s' := by
  cases action with
  | handler action =>
      simp only [taskStep] at taken
      split at taken
      case h_1 => cases taken
      case h_2 handler stepped =>
        split at taken
        case isTrue outside =>
          cases taken
          exact .outside stepped (fromOutside_frame outside stepped)
        case isFalse inside =>
          cases taken
          cases action with
          | workerStep => exact .worker stepped (TcpHandler.workerStep_move stepped)
          | connectStep connected => exact .worker stepped (TcpHandler.connectStep_move stepped)
          | negotiateStep established =>
              cases TcpHandler.negotiateStep_move stepped with
              | inl move => exact .worker stepped move
              | inr establishing => exact absurd establishing.2.1 connecting
          | sendSelect result => exact .worker stepped (TcpHandler.sendSelect_move stepped)
          | sendWrite result => exact .worker stepped (TcpHandler.sendWrite_move stepped)
          | _ => exact absurd rfl inside
  | _ => cases taken

theorem followWorker_handler (s : State α) (handler : TcpHandler.State) :
    (followWorker s handler).handler = handler := by
  unfold followWorker
  split
  · split
    · rfl
    · rfl
  · rfl
  · rfl
  · rfl

/-! ## The handler takes its own steps -/

theorem reject_handler {call : Call α} (taken : reject s call = some s') :
    TcpHandler.next s.handler (.negotiateStep false) = some s'.handler := by
  unfold reject at taken
  split at taken
  case h_1 => cases taken
  case h_2 handler stepped =>
    cases taken
    exact stepped

theorem closePending_handler {call : Call α} (taken : closePending s call = some s') :
    TcpHandler.next s.handler (.connectStep s.descriptor.isSome) = some s'.handler := by
  unfold closePending at taken
  split at taken
  case h_1 => cases taken
  case h_2 handler stepped =>
    cases taken
    exact stepped

theorem attempt_handler (s : State α) (call : Call α) (outcome : Outcome) :
    (attempt s call outcome).handler = s.handler := by
  cases outcome with
  | _ => rfl

theorem CallMove.handler {answers : Family → List α} {call : Call α}
    (move : CallMove answers s call s') :
    s'.handler = s.handler ∨ ∃ action, TcpHandler.next s.handler action = some s'.handler := by
  cases move with
  | outside stepped frame => exact .inr ⟨_, stepped⟩
  | attempt stage stepped => exact .inl (attempt_handler _ _ _)
  | closePending stage stepped => exact .inr ⟨_, closePending_handler stepped⟩
  | reject stage stepped => exact .inr ⟨_, reject_handler stepped⟩
  | start stage stepped => exact .inr ⟨.negotiateStep true, stepped⟩
  | _ => exact .inl rfl

theorem next_handler {action : Action} (taken : next answers s action = some s') :
    s'.handler = s.handler ∨ ∃ action, TcpHandler.next s.handler action = some s'.handler := by
  unfold next at taken
  split at taken
  case h_1 =>
    cases action with
    | handler action =>
        simp only [taskStep] at taken
        split at taken
        case h_1 => cases taken
        case h_2 handler stepped =>
          refine .inr ⟨action, ?_⟩
          split at taken
          · cases taken
            exact stepped
          · cases taken
            rw [followWorker_handler]
            exact stepped
    | _ => cases taken
  case h_2 call _ => exact (callStep_move taken).handler

/-- The handler with its resources refines the handler. -/
theorem handler_reachable
    (reachable : Reachable (next answers) (fun _ _ => True) State.initial s) :
    Reachable TcpHandler.next (fun _ _ => True) TcpHandler.State.initial s.handler := by
  refine reachable.invariant (fun s => Reachable TcpHandler.next (fun _ _ => True)
    TcpHandler.State.initial s.handler) .start ?_
  intro before action after ok _ taken
  obtain same | ⟨action, stepped⟩ := next_handler taken
  · rw [same]
    exact ok
  · exact ok.step action trivial stepped

/-! ## Who owns what -/

def Stage.early : Stage → Bool
  | .searching => true
  | .watching => true
  | _ => false

/-- The descriptors that are still to be closed. -/
def owned (s : State α) : List Nat :=
  match s.call with
  | none => s.descriptor.toList
  | some call => if call.stage.early then call.pendingSockets else s.descriptor.toList

def Accounted (s : State α) : Prop :=
  ∀ descriptor, s.closed.count descriptor + (owned s).count descriptor =
    if descriptor < s.opened then 1 else 0

/-- Points at which the search may have its socket. -/
def connectedPoint : TcpConnect.Point → Bool
  | .left => true
  | .pendingIpv4 => true
  | .pendingIpv6 => true
  | .pendingCancel => true
  | .afterWait => true
  | _ => false

/-- The descriptors follow the search. -/
structure SearchOk (s : State α) (call : Call α) : Prop where
  length : call.pendingSockets.length = call.search.pendingSockets.length
  socket : s.descriptor.isSome = call.search.socket.isSome
  point : call.search.socket.isSome = true → connectedPoint call.search.point = true

/-- There is a socket, and at most then TLS. -/
structure OpenOk (s : State α) : Prop where
  descriptor : s.descriptor.isSome = s.handler.socket.isSome
  tls : s.ssl = true ∨ s.sslCtx = true → s.handler.socket.isSome = true

structure EarlyOk (s : State α) (call : Call α) : Prop where
  worker : s.handler.worker = .connecting
  tls : s.ssl = false ∧ s.sslCtx = false
  descriptor : ∀ descriptor, s.descriptor = some descriptor → descriptor ∈ call.pendingSockets

def CallOk (s : State α) (call : Call α) : Stage → Prop
  | .searching => EarlyOk s call ∧ SearchOk s call
  | .watching => EarlyOk s call
  | .sslCtxNew => s.handler.worker = .negotiating ∧ s.descriptor.isSome = true
  | .sslNew => s.handler.worker = .negotiating ∧ s.descriptor.isSome = true
  | .sslConnect => s.handler.worker = .negotiating ∧ s.descriptor.isSome = true
  | .established => s.handler.worker = .negotiating ∧ s.descriptor.isSome = true
  | .freeing => s.handler.worker = .idle ∧ OpenOk s

def TaskOk (s : State α) : TcpHandler.Worker → Prop
  | .idle => OpenOk s
  | .sendSelect _ => OpenOk s
  | .sendWrite _ => OpenOk s
  | .measuring => OpenOk s
  | .reading _ => OpenOk s
  | .connecting => False
  | .negotiating => False
  | .disconnecting _ => s.descriptor.isSome = true
  | .joining _ => s.descriptor.isSome = true ∧ s.ssl = false ∧ s.sslCtx = false

def PhaseOk (s : State α) : Prop :=
  match s.call with
  | none => TaskOk s s.handler.worker
  | some call => CallOk s call call.stage

/-- The lists of all calls that have returned are freed. -/
structure ListsOk (answers : Nat → Family → List α) (s : State α) : Prop where
  number : ∀ call, s.call = some call → call.number + 1 = s.calls
  freed : ∀ number family, s.freed.count (number, family) =
    if (number < s.calls ∧ s.call.map Call.number ≠ some number) ∧ answers number family ≠ [] then 1
    else 0

structure ResourcesOk (answers : Nat → Family → List α) (s : State α) : Prop where
  accounted : Accounted s
  phase : PhaseOk s
  lists : ListsOk answers s

/-! ## Checking the pending sockets -/

theorem checkConnections_count (status : Nat → SocketStatus) (sockets : List Nat) (i : Nat)
    (descriptor : Nat) :
    (checkConnections status sockets i).1.count descriptor +
      (checkConnections status sockets i).2.1.count descriptor = sockets.count descriptor := by
  induction sockets generalizing i with
  | nil => rfl
  | cons sock rest ih =>
      have scanned := ih (i + 1)
      simp only [checkConnections]
      generalize checkConnections status rest (i + 1) = result at scanned ⊢
      obtain ⟨kept, closed, connected⟩ := result
      cases status i with
      | waiting =>
          simp only [List.count_cons] at scanned ⊢
          omega
      | failed =>
          simp only [List.count_cons] at scanned ⊢
          omega
      | connected => simp

theorem checkConnections_connected (status : Nat → SocketStatus) (sockets : List Nat) (i : Nat)
    {descriptor : Nat} (connected : (checkConnections status sockets i).2.2 = some descriptor) :
    descriptor ∈ (checkConnections status sockets i).1 := by
  induction sockets generalizing i with
  | nil => cases connected
  | cons sock rest ih =>
      simp only [checkConnections] at connected ⊢
      cases outcome : status i with
      | waiting =>
          rw [outcome] at connected
          exact List.mem_cons_of_mem _ (ih (i + 1) connected)
      | failed =>
          rw [outcome] at connected
          exact ih (i + 1) connected
      | connected =>
          rw [outcome] at connected
          cases connected
          exact List.mem_cons_self ..

/-- The descriptors and the addresses are scanned in step. -/
theorem checkConnections_agrees (status : Nat → SocketStatus) (sockets : List Nat)
    (addresses : List (Family × α)) (i : Nat) (length : sockets.length = addresses.length) :
    (checkConnections status sockets i).1.length =
        (TcpConnect.checkConnections status addresses i).1.length ∧
      (checkConnections status sockets i).2.2.isSome =
        (TcpConnect.checkConnections status addresses i).2.isSome := by
  induction sockets generalizing addresses i with
  | nil =>
      cases addresses with
      | nil => exact ⟨rfl, rfl⟩
      | cons address rest => cases length
  | cons sock rest ih =>
      cases addresses with
      | nil => cases length
      | cons address others =>
          have rest := ih others (i + 1) (Nat.succ.inj length)
          simp only [checkConnections, TcpConnect.checkConnections]
          cases status i with
          | waiting => exact ⟨congrArg Nat.succ rest.1, rest.2⟩
          | failed => exact rest
          | connected => exact ⟨length, rfl⟩

/-! ## Every descriptor is closed once -/

theorem Accounted.keep (ok : Accounted s) (opened : s'.opened = s.opened)
    (closed : s'.closed = s.closed) (same : owned s' = owned s) : Accounted s' := by
  intro descriptor
  rw [opened, closed, same]
  exact ok descriptor

theorem Accounted.close (ok : Accounted s) (before : owned s = s.descriptor.toList)
    (opened : s'.opened = s.opened) (closed : s'.closed = s.closed ++ s.descriptor.toList)
    (after : owned s' = []) : Accounted s' := by
  intro descriptor
  have count := ok descriptor
  rw [before] at count
  rw [opened, closed, after, List.count_append]
  exact count

theorem owned_early {call : Call α} (current : s.call = some call)
    (early : call.stage.early = true) : owned s = call.pendingSockets := by
  simp [owned, current, early]

theorem owned_late {call : Call α} (current : s.call = some call)
    (late : call.stage.early = false) : owned s = s.descriptor.toList := by
  simp [owned, current, late]

theorem Accounted.check (ok : Accounted s) {call : Call α} (status : Nat → SocketStatus)
    (before : owned s = call.pendingSockets) (early : call.stage.early = true) :
    Accounted (TcpResources.check s call status) := by
  intro descriptor
  have count := ok descriptor
  have scanned := checkConnections_count status call.pendingSockets 0 descriptor
  have after : owned (TcpResources.check s call status) =
      (checkConnections status call.pendingSockets 0).1 := by
    simp [owned, TcpResources.check, early]
  rw [before] at count
  rw [after]
  change (s.closed ++ (checkConnections status call.pendingSockets 0).2.1).count descriptor +
    _ = if descriptor < s.opened then 1 else 0
  rw [List.count_append]
  omega

theorem Accounted.open (ok : Accounted s) (opened : s'.opened = s.opened + 1)
    (grown : ∀ descriptor, s'.closed.count descriptor + (owned s').count descriptor =
      s.closed.count descriptor + (owned s).count descriptor + [s.opened].count descriptor) :
    Accounted s' := by
  intro descriptor
  rw [grown, ok descriptor, opened, List.count_singleton]
  simp only [beq_iff_eq]
  split_ifs <;> omega

theorem Accounted.attempt (ok : Accounted s) {call : Call α} (outcome : Outcome)
    (before : owned s = call.pendingSockets) (early : call.stage.early = true) :
    Accounted (attempt s call outcome) := by
  have closed : ∀ s' : State α, s'.call = some call → s'.opened = s.opened + 1 →
      s'.closed = s.closed ++ [s.opened] → Accounted s' := by
    intro s' current opened closed
    refine ok.open opened ?_
    intro descriptor
    rw [owned_early current early, before, closed, List.count_append]
    omega
  have pending : ∀ s' : State α,
      s'.call = some { call with pendingSockets := call.pendingSockets ++ [s.opened] } →
      s'.opened = s.opened + 1 → s'.closed = s.closed → Accounted s' := by
    intro s' current opened closed
    refine ok.open opened ?_
    intro descriptor
    rw [owned_early current early, before, closed, List.count_append]
    omega
  cases outcome with
  | socketFailed => exact ok.keep rfl rfl ((owned_early rfl early).trans before.symm)
  | fcntlFailed => exact closed _ rfl rfl rfl
  | connectFailed => exact closed _ rfl rfl rfl
  | connected => exact pending _ rfl rfl rfl
  | inProgress => exact pending _ rfl rfl rfl

theorem Accounted.closePending (ok : Accounted s) {call : Call α}
    (before : owned s = call.pendingSockets)
    (inside : ∀ descriptor, s.descriptor = some descriptor → descriptor ∈ call.pendingSockets)
    (taken : closePending s call = some s') : Accounted s' := by
  have after : owned s' = s.descriptor.toList ∧ s'.opened = s.opened ∧
      s'.closed = s.closed ++ call.pendingSockets.filter fun sock => some sock ≠ s.descriptor := by
    unfold TcpResources.closePending at taken
    split at taken
    case h_1 => cases taken
    case h_2 handler stepped =>
      cases taken
      refine ⟨owned_late rfl ?_, rfl, rfl⟩
      cases s.descriptor with
      | none => rfl
      | some descriptor =>
          dsimp only
          split
          · rfl
          · rfl
  obtain ⟨owned', opened, closed⟩ := after
  intro descriptor
  have count := ok descriptor
  rw [before] at count
  rw [owned', opened, closed, List.count_append, ← count, Nat.add_assoc]
  congr 1
  cases held : s.descriptor with
  | none => simp
  | some current =>
      by_cases same : descriptor = current
      · subst same
        have once : call.pendingSockets.count descriptor = 1 := by
          have positive := List.count_pos_iff.mpr (inside descriptor held)
          split at count <;> omega
        have removed : (call.pendingSockets.filter fun sock => some sock ≠ some descriptor).count
            descriptor = 0 := by
          rw [List.count_eq_zero]
          simp
        rw [removed, once]
        simp
      · have kept : (call.pendingSockets.filter fun sock => some sock ≠ some current).count
            descriptor = call.pendingSockets.count descriptor :=
          List.count_filter (by simp [same])
        rw [kept]
        simp [Ne.symm same]

/-! ## Descriptors and TLS objects in each phase -/

theorem OpenOk.keep (ok : OpenOk s) (descriptor : s'.descriptor = s.descriptor)
    (socket : s'.handler.socket = s.handler.socket)
    (tls : s'.ssl = true ∨ s'.sslCtx = true → s.ssl = true ∨ s.sslCtx = true) : OpenOk s' where
  descriptor := by
    rw [descriptor, socket]
    exact ok.descriptor
  tls present := by
    rw [socket]
    exact ok.tls (tls present)

theorem openOk_closed (descriptor : s.descriptor = none) (socket : s.handler.socket = none)
    (tls : s.ssl = false ∧ s.sslCtx = false) : OpenOk s where
  descriptor := by
    simp [descriptor, socket]
  tls present := by simp [tls.1, tls.2] at present

theorem TaskOk.outside {worker : TcpHandler.Worker} (ok : TaskOk s worker)
    {handler : TcpHandler.State} (socket : handler.socket = s.handler.socket) :
    TaskOk { s with handler := handler } worker := by
  have opened (ok : OpenOk s) : OpenOk { s with handler := handler } := ok.keep rfl socket id
  cases worker with
  | idle => exact opened ok
  | sendSelect buf => exact opened ok
  | sendWrite buf => exact opened ok
  | measuring => exact opened ok
  | reading toRead => exact opened ok
  | connecting => exact ok
  | negotiating => exact ok
  | disconnecting requested => exact ok
  | joining requested => exact ok

theorem TaskOk.settled {worker : TcpHandler.Worker} (ok : OpenOk s)
    (phase : worker = .idle ∨ worker.sending = true) : TaskOk s worker := by
  rcases phase with rfl | sending
  · exact ok
  · cases worker with
    | sendSelect buf => exact ok
    | sendWrite buf => exact ok
    | _ => cases sending

theorem TaskOk.sending {worker : TcpHandler.Worker} (ok : TaskOk s worker)
    (sending : worker.sending = true) : OpenOk s := by
  cases worker with
  | sendSelect buf => exact ok
  | sendWrite buf => exact ok
  | _ => cases sending

theorem phaseOk_task (outside : s.call = none) (ok : TaskOk s s.handler.worker) : PhaseOk s := by
  unfold PhaseOk
  rw [outside]
  exact ok

theorem phaseOk_call {call : Call α} (current : s.call = some call)
    (ok : CallOk s call call.stage) : PhaseOk s := by
  unfold PhaseOk
  rw [current]
  exact ok

theorem followWorker_settled {handler : TcpHandler.State} (outside : s.call = none)
    (ok : OpenOk s) (before : ∀ requested, s.handler.worker ≠ .disconnecting requested ∧
      s.handler.worker ≠ .joining requested)
    (phase : handler.worker ≠ .connecting)
    (settled : OpenOk { s with handler := handler } →
      TaskOk { s with handler := handler } handler.worker)
    (socket : handler.socket = s.handler.socket) : PhaseOk (followWorker s handler) := by
  have kept : PhaseOk { s with handler := handler } :=
    phaseOk_task outside (settled (ok.keep rfl socket id))
  unfold followWorker
  split
  case h_1 =>
    rw [if_neg phase]
    exact kept
  case h_2 requested current => exact absurd current (before requested).1
  case h_3 requested current => exact absurd current (before requested).2
  case h_4 => exact kept

theorem PhaseOk.worker (ok : PhaseOk s) (handler : TcpHandler.HandlerOk s.handler)
    (outside : s.call = none) {after : TcpHandler.State}
    (move : TcpHandler.WorkerMove s.handler after) : PhaseOk (followWorker s after) := by
  simp only [PhaseOk, outside] at ok
  have atPhase {worker : TcpHandler.Worker} (phase : s.handler.worker = worker) :
      TaskOk s worker := phase ▸ ok
  have notClosing {worker : TcpHandler.Worker} (phase : s.handler.worker = worker)
      (other : ∀ requested, worker ≠ .disconnecting requested ∧ worker ≠ .joining requested) :
      ∀ requested, s.handler.worker ≠ .disconnecting requested ∧
        s.handler.worker ≠ .joining requested := phase ▸ other
  cases move with
  | skip idle head kind =>
      exact followWorker_settled outside (atPhase idle) (notClosing idle (by simp))
        (by simp [idle]) (by simp only [idle]; exact id) rfl
  | connect idle head invalid kind =>
      have opened : OpenOk s := atPhase idle
      have none : s.descriptor = none := by
        have held := opened.descriptor
        simpa [invalid] using held
      have tls : s.ssl = false ∧ s.sslCtx = false := by
        have tls := opened.tls
        simp only [invalid] at tls
        cases ssl : s.ssl <;> cases ctx : s.sslCtx <;> simp_all
      simp only [followWorker, idle, if_true]
      refine phaseOk_call rfl ⟨⟨rfl, tls, ?_⟩, ⟨rfl, ?_, ?_⟩⟩
      · intro descriptor held
        rw [none] at held
        cases held
      · simp [none, TcpConnect.State.initial]
      · intro connected
        cases connected
  | disconnect idle head valid kind =>
      have opened : OpenOk s := atPhase idle
      have held := opened.descriptor
      rw [valid] at held
      simp only [followWorker, idle]
      exact phaseOk_task outside held
  | send idle head valid =>
      exact followWorker_settled outside (atPhase idle) (notClosing idle (by simp))
        (by simp) id rfl
  | onConnect idle head =>
      exact followWorker_settled outside (atPhase idle) (notClosing idle (by simp))
        (by simp [TcpHandler.call, idle]) (by simp only [TcpHandler.call, idle]; exact id) rfl
  | dispatch idle head =>
      exact followWorker_settled outside (atPhase idle) (notClosing idle (by simp))
        (by simp) id rfl
  | clearTls phase =>
      have held : s.descriptor.isSome = true := atPhase phase
      simp only [followWorker, phase]
      exact phaseOk_task outside ⟨held, rfl, rfl⟩
  | join phase finished =>
      have held : s.descriptor.isSome = true ∧ s.ssl = false ∧ s.sslCtx = false := atPhase phase
      have closed := (handler.atPhase phase).1
      simp only [followWorker, phase]
      exact phaseOk_task outside (openOk_closed rfl closed held.2)
  | measure phase valid =>
      exact followWorker_settled outside (atPhase phase) (notClosing phase (by simp))
        (by simp) id rfl
  | endDispatch phase =>
      unfold TcpHandler.endDispatch
      split
      · exact followWorker_settled outside (atPhase phase) (notClosing phase (by simp))
          (by simp [TcpHandler.call]) id rfl
      · exact followWorker_settled outside (atPhase phase) (notClosing phase (by simp))
          (by simp) id rfl
  | deliver phase valid =>
      exact followWorker_settled outside (atPhase phase) (notClosing phase (by simp))
        (by simp [TcpHandler.call]) id rfl
  | discard phase invalid =>
      exact followWorker_settled outside (atPhase phase) (notClosing phase (by simp))
        (by simp) id rfl
  | connected phase => exact (atPhase phase).elim
  | refused phase => exact (atPhase phase).elim
  | rejected phase usingTLS => exact (atPhase phase).elim
  | @sendOn worker queue sending sending' queue' =>
      refine followWorker_settled outside (ok.sending sending) ?_ ?_
        (fun opened => TaskOk.settled opened sending') rfl
      · intro requested
        refine ⟨?_, ?_⟩
        · intro phase
          rw [phase] at sending
          cases sending
        · intro phase
          rw [phase] at sending
          cases sending
      · rintro rfl
        simp [TcpHandler.Worker.sending] at sending'

/-! ## The search in step with its descriptors -/

theorem workerStep_connectedPoint {answers : Family → List α} {search search' : TcpConnect.State α}
    (ok : search.socket.isSome = true → connectedPoint search.point = true)
    (taken : TcpConnect.workerStep answers search = some search') :
    search'.socket.isSome = true → connectedPoint search'.point = true := by
  intro connected
  rw [(TcpConnect.workerStep_frame taken).socket] at connected
  have point := ok connected
  unfold TcpConnect.workerStep at taken
  cases current : search.point with
  | pendingIpv4 =>
      simp only [current, Option.some.injEq] at taken
      subst taken
      dsimp only
      split <;> rfl
  | pendingIpv6 =>
      simp only [current, Option.some.injEq] at taken
      subst taken
      dsimp only
      split <;> rfl
  | pendingCancel =>
      simp only [current, connected, or_true, if_true, Option.some.injEq] at taken
      subst taken
      rfl
  | afterWait =>
      simp only [current, connected, true_or, if_true, Option.some.injEq] at taken
      subst taken
      rfl
  | left => simp [current] at taken
  | _ =>
      rw [current] at point
      cases point

theorem SearchOk.search {call : Call α} (ok : SearchOk s call) {answers : Family → List α}
    {cancelConnect : Bool} {search : TcpConnect.State α}
    (taken : TcpConnect.workerStep answers { call.search with cancelConnect := cancelConnect } =
      some search) :
    SearchOk { s with call := some { call with search := search } }
      { call with search := search } := by
  have frame := TcpConnect.workerStep_frame taken
  have before : ({ call.search with cancelConnect := cancelConnect } :
      TcpConnect.State α).socket.isSome = true → connectedPoint ({ call.search with
        cancelConnect := cancelConnect } : TcpConnect.State α).point = true := ok.point
  refine ⟨?_, ?_, workerStep_connectedPoint before taken⟩
  · rw [frame.pendingSockets]
    exact ok.length
  · rw [frame.socket]
    exact ok.socket

theorem SearchOk.unconnected {call : Call α} (ok : SearchOk s call)
    (busy : connectedPoint call.search.point = false) :
    s.descriptor = none ∧ call.search.socket = none := by
  have none : call.search.socket = none := by
    cases socket : call.search.socket with
    | none => rfl
    | some address =>
        have point := ok.point (by rw [socket]; rfl)
        rw [busy] at point
        cases point
  have held := ok.socket
  rw [none] at held
  exact ⟨Option.isNone_iff_eq_none.mp (by simpa using held), none⟩

theorem attempt_busy {search search' : TcpConnect.State α} {outcome : Outcome}
    (taken : TcpConnect.attempt search outcome = some search') :
    connectedPoint search.point = false := by
  unfold TcpConnect.attempt at taken
  split at taken
  case h_1 point =>
    rw [point]
    rfl
  case h_2 => cases taken

theorem check_busy {search search' : TcpConnect.State α} {status : Nat → SocketStatus}
    (taken : TcpConnect.check search status = some search') :
    connectedPoint search.point = false := by
  unfold TcpConnect.check at taken
  dsimp only at taken
  split at taken
  case h_1 point =>
    rw [point]
    rfl
  case h_2 point =>
    rw [point]
    rfl
  case h_3 => cases taken

theorem phaseOk_searching {call : Call α} (current : s.call = some call)
    (stage : call.stage = .searching) (early : EarlyOk s call) (ok : SearchOk s call) :
    PhaseOk s := by
  refine phaseOk_call current ?_
  rw [stage]
  exact ⟨early, ok⟩

theorem phaseOk_watching {call : Call α} (current : s.call = some call)
    (stage : call.stage = .watching) (early : EarlyOk s call) : PhaseOk s := by
  refine phaseOk_call current ?_
  rw [stage]
  exact early

theorem phaseOk_attempt {call : Call α} (early : EarlyOk s call) (ok : SearchOk s call)
    (stage : call.stage = .searching) {search : TcpConnect.State α} {outcome : Outcome}
    (taken : TcpConnect.attempt call.search outcome = some search) :
    PhaseOk (attempt s { call with search := search } outcome) := by
  obtain ⟨free, noSocket⟩ := ok.unconnected (attempt_busy taken)
  have nothing {pending : List Nat} : ∀ descriptor, s.descriptor = some descriptor →
      descriptor ∈ pending := by
    intro descriptor held
    rw [free] at held
    cases held
  have unconnected {point : TcpConnect.Point} :
      call.search.socket.isSome = true → connectedPoint point = true := by
    simp [noSocket]
  unfold TcpConnect.attempt at taken
  split at taken
  case h_2 => cases taken
  case h_1 point =>
    split at taken
    case h_1 => cases taken
    case h_2 current rest results =>
      cases outcome with
      | socketFailed =>
          cases taken
          exact phaseOk_searching rfl stage ⟨early.worker, early.tls, nothing⟩
            ⟨ok.length, ok.socket, unconnected⟩
      | fcntlFailed =>
          cases taken
          exact phaseOk_searching rfl stage ⟨early.worker, early.tls, nothing⟩
            ⟨ok.length, ok.socket, unconnected⟩
      | connectFailed =>
          cases taken
          exact phaseOk_searching rfl stage ⟨early.worker, early.tls, nothing⟩
            ⟨ok.length, ok.socket, unconnected⟩
      | connected =>
          cases taken
          refine phaseOk_searching rfl stage ⟨early.worker, early.tls, ?_⟩ ⟨?_, rfl, fun _ => rfl⟩
          · intro descriptor held
            cases held
            exact List.mem_append_right _ (List.mem_singleton.mpr rfl)
          · simp [ok.length]
      | inProgress =>
          cases taken
          refine phaseOk_searching rfl stage ⟨early.worker, early.tls, nothing⟩
            ⟨?_, ok.socket, unconnected⟩
          simp [ok.length]

theorem EarlyOk.check {call : Call α} (early : EarlyOk s call) (free : s.descriptor = none)
    (status : Nat → SocketStatus) :
    EarlyOk (TcpResources.check s call status)
      { call with pendingSockets := (checkConnections status call.pendingSockets 0).1 } where
  worker := early.worker
  tls := early.tls
  descriptor := by
    intro descriptor held
    simp only [TcpResources.check, free, Option.or_none] at held
    exact checkConnections_connected status call.pendingSockets 0 held

theorem phaseOk_check {call : Call α} (early : EarlyOk s call) (ok : SearchOk s call)
    (stage : call.stage = .searching) {search : TcpConnect.State α}
    {status : Nat → SocketStatus} (taken : TcpConnect.check call.search status = some search) :
    PhaseOk (TcpResources.check s { call with search := search } status) := by
  obtain ⟨free, noSocket⟩ := ok.unconnected (check_busy taken)
  have agrees := checkConnections_agrees status call.pendingSockets call.search.pendingSockets 0
    ok.length
  have early' : EarlyOk s { call with search := search } :=
    ⟨early.worker, early.tls, early.descriptor⟩
  refine phaseOk_searching rfl stage (early'.check free status) ?_
  -- the search has the same answer for its addresses
  have found : search.pendingSockets =
        (TcpConnect.checkConnections status call.search.pendingSockets 0).1 ∧
      search.socket = (TcpConnect.checkConnections status call.search.pendingSockets 0).2 ∧
      (search.socket.isSome = true → connectedPoint search.point = true) := by
    unfold TcpConnect.check at taken
    simp only [noSocket, Option.or_none] at taken
    split at taken
    case h_1 =>
      cases taken
      refine ⟨rfl, rfl, ?_⟩
      intro connected
      dsimp only at connected ⊢
      rw [if_pos connected]
      rfl
    case h_2 =>
      cases taken
      exact ⟨rfl, rfl, fun _ => rfl⟩
    case h_3 => cases taken
  refine ⟨?_, ?_, found.2.2⟩
  · rw [found.1]
    exact agrees.1
  · simp only [TcpResources.check, free, Option.or_none]
    rw [found.2.1]
    exact agrees.2

/-! ## The rest of a call -/

theorem phaseOk_closePending {call : Call α} (early : EarlyOk s call)
    (handler : TcpHandler.HandlerOk s.handler) (taken : closePending s call = some s') :
    PhaseOk s' := by
  have closed := (handler.atPhase early.worker).1
  unfold closePending at taken
  split at taken
  case h_1 => cases taken
  case h_2 after stepped =>
    cases taken
    simp only [TcpHandler.connectStep, early.worker] at stepped
    cases held : s.descriptor with
    | none =>
        simp only [held, Option.isSome_none, Bool.false_eq_true, if_false,
          Option.some.injEq] at stepped
        subst stepped
        refine phaseOk_call rfl ⟨rfl, openOk_closed rfl closed ?_⟩
        simp [early.tls.1, early.tls.2]
    | some descriptor =>
        simp only [held, Option.isSome_some, if_true, Option.some.injEq] at stepped
        subst stepped
        refine phaseOk_call rfl ?_
        dsimp only
        split
        · exact ⟨rfl, rfl⟩
        · exact ⟨rfl, rfl⟩

theorem phaseOk_reject {call : Call α} (taken : reject s call = some s') : PhaseOk s' := by
  unfold reject at taken
  split at taken
  case h_1 => cases taken
  case h_2 after stepped =>
    cases taken
    cases TcpHandler.negotiateStep_move stepped with
    | inr establishing => cases establishing.1
    | inl move =>
        unfold TcpHandler.negotiateStep at stepped
        split at stepped
        case h_2 => cases stepped
        case h_1 =>
          simp only [Bool.false_eq_true, if_false] at stepped
          split at stepped
          · cases stepped
            exact phaseOk_call rfl ⟨rfl, openOk_closed rfl rfl ⟨rfl, rfl⟩⟩
          · cases stepped

theorem phaseOk_start {call : Call α} (held : s.descriptor.isSome = true)
    (negotiating : s.handler.worker = .negotiating) (handler : TcpHandler.HandlerOk s.handler)
    {after : TcpHandler.State} (stepped : TcpHandler.negotiateStep s.handler true = some after) :
    PhaseOk { s with handler := after, call := some { call with stage := .freeing } } := by
  have valid := (handler.atPhase negotiating).1
  simp only [TcpHandler.negotiateStep, negotiating, if_true, Option.some.injEq] at stepped
  subst stepped
  have opened : s.handler.socket.isSome = true := by
    rw [valid]
    rfl
  exact phaseOk_call rfl ⟨rfl, held.trans opened.symm, fun _ => opened⟩

theorem CallOk.outside {call : Call α} {stage : Stage} (ok : CallOk s call stage)
    {handler : TcpHandler.State} (frame : TcpHandler.Frame s.handler handler) :
    CallOk { s with handler := handler } call stage := by
  have early (ok : EarlyOk s call) : EarlyOk { s with handler := handler } call :=
    ⟨frame.worker.trans ok.worker, ok.tls, ok.descriptor⟩
  cases stage with
  | searching => exact ⟨early ok.1, ok.2.length, ok.2.socket, ok.2.point⟩
  | watching => exact early ok
  | sslCtxNew => exact ⟨frame.worker.trans ok.1, ok.2⟩
  | sslNew => exact ⟨frame.worker.trans ok.1, ok.2⟩
  | sslConnect => exact ⟨frame.worker.trans ok.1, ok.2⟩
  | established => exact ⟨frame.worker.trans ok.1, ok.2⟩
  | freeing => exact ⟨frame.worker.trans ok.1, ok.2.keep rfl frame.socket id⟩

theorem CallOk.resolver {call : Call α} {stage : Stage} (ok : CallOk s call stage)
    {search : TcpConnect.State α} (point : search.point = call.search.point)
    (socket : search.socket = call.search.socket)
    (pending : search.pendingSockets = call.search.pendingSockets) :
    CallOk { s with call := some { call with search := search } } { call with search := search }
      stage := by
  have early (ok : EarlyOk s call) :
      EarlyOk { s with call := some { call with search := search } }
        { call with search := search } := ⟨ok.worker, ok.tls, ok.descriptor⟩
  cases stage with
  | searching =>
      refine ⟨early ok.1, ?_, ?_, ?_⟩
      · rw [pending]
        exact ok.2.length
      · rw [socket]
        exact ok.2.socket
      · rw [socket, point]
        exact ok.2.point
  | watching => exact early ok
  | sslCtxNew => exact ok
  | sslNew => exact ok
  | sslConnect => exact ok
  | established => exact ok
  | freeing => exact ⟨ok.1, ok.2.keep rfl rfl id⟩

theorem PhaseOk.call {answers : Family → List α} {call : Call α} (ok : PhaseOk s)
    (handler : TcpHandler.HandlerOk s.handler) (current : s.call = some call)
    (move : CallMove answers s call s') : PhaseOk s' := by
  have inside : CallOk s call call.stage := by
    unfold PhaseOk at ok
    rw [current] at ok
    exact ok
  have atStage {stage : Stage} (reached : call.stage = stage) : CallOk s call stage :=
    reached ▸ inside
  cases move with
  | outside stepped frame => exact phaseOk_call current (inside.outside frame)
  | resolver point socket pending => exact phaseOk_call rfl (inside.resolver point socket pending)
  | search stage taken =>
      have ok := atStage stage
      exact phaseOk_searching rfl stage ⟨ok.1.worker, ok.1.tls, ok.1.descriptor⟩ (ok.2.search taken)
  | attempt stage taken =>
      have ok := atStage stage
      exact phaseOk_attempt ok.1 ok.2 stage taken
  | check stage taken =>
      have ok := atStage stage
      exact phaseOk_check ok.1 ok.2 stage taken
  | leave stage =>
      have ok := atStage stage
      exact phaseOk_call rfl ⟨ok.1.worker, ok.1.tls, ok.1.descriptor⟩
  | watch stage free =>
      have ok : EarlyOk s call := atStage stage
      exact phaseOk_watching rfl stage (ok.check free _)
  | closePending stage taken =>
      have ok : EarlyOk s call := atStage stage
      exact phaseOk_closePending ok handler taken
  | sslCtxNew stage => exact phaseOk_call rfl (atStage stage)
  | sslNew stage => exact phaseOk_call rfl (atStage stage)
  | sslConnect stage => exact phaseOk_call rfl (atStage stage)
  | again => exact ok
  | reject stage taken => exact phaseOk_reject taken
  | start stage stepped =>
      have ok := atStage stage
      exact phaseOk_start ok.2 ok.1 handler stepped
  | free stage =>
      have ok := atStage stage
      refine phaseOk_task rfl ?_
      change TaskOk _ s.handler.worker
      rw [ok.1]
      exact ok.2.keep rfl rfl id

theorem Accounted.call {answers : Family → List α} {call : Call α} (ok : Accounted s)
    (phase : PhaseOk s) (current : s.call = some call) (move : CallMove answers s call s') :
    Accounted s' := by
  have early (stage : call.stage.early = true) : owned s = call.pendingSockets :=
    owned_early current stage
  have late (stage : call.stage.early = false) : owned s = s.descriptor.toList :=
    owned_late current stage
  have same {stage : Stage} (reached : call.stage = stage) : call.stage.early = stage.early :=
    congrArg Stage.early reached
  cases move with
  | outside stepped frame => exact ok.keep rfl rfl rfl
  | resolver point socket pending =>
      refine ok.keep rfl rfl ?_
      simp [owned, current]
  | search stage taken =>
      refine ok.keep rfl rfl ?_
      simp [owned, current]
  | attempt stage taken => exact ok.attempt _ (early (same stage)) (same stage)
  | check stage taken => exact ok.check _ (early (same stage)) (same stage)
  | leave stage =>
      refine ok.keep rfl rfl ?_
      rw [early (same stage)]
      rfl
  | watch stage free => exact ok.check _ (early (same stage)) (same stage)
  | closePending stage taken =>
      have inside : EarlyOk s call := by
        unfold PhaseOk at phase
        rw [current] at phase
        simp only [stage] at phase
        exact phase
      exact ok.closePending (early (same stage)) inside.descriptor taken
  | sslCtxNew stage => exact ok.keep rfl rfl (late (same stage)).symm
  | sslNew stage => exact ok.keep rfl rfl (late (same stage)).symm
  | sslConnect stage => exact ok.keep rfl rfl (late (same stage)).symm
  | again => exact ok
  | reject stage taken =>
      have before : owned s = s.descriptor.toList := by
        rcases stage with stage | stage | stage
        · exact late (same stage)
        · exact late (same stage)
        · exact late (same stage)
      unfold reject at taken
      split at taken
      case h_1 => cases taken
      case h_2 after stepped =>
        cases taken
        exact ok.close before rfl rfl rfl
  | start stage stepped => exact ok.keep rfl rfl (late (same stage)).symm
  | free stage => exact ok.keep rfl rfl (late (same stage)).symm

/-! ## The address lists -/

theorem ListsOk.keep (ok : ListsOk answers s) (calls : s'.calls = s.calls)
    (freed : s'.freed = s.freed) (number : s'.call.map Call.number = s.call.map Call.number) :
    ListsOk answers s' where
  number call current := by
    rw [calls]
    rw [current, Option.map_some] at number
    obtain ⟨before, found, same⟩ := Option.map_eq_some_iff.mp number.symm
    rw [← same]
    exact ok.number before found
  freed other family := by
    rw [freed, number, calls]
    exact ok.freed other family

theorem ListsOk.begin (ok : ListsOk answers s) (outside : s.call = none) {call : Call α}
    (number : call.number = s.calls) (current : s'.call = some call)
    (calls : s'.calls = s.calls + 1) (freed : s'.freed = s.freed) : ListsOk answers s' where
  number other found := by
    rw [current, Option.some.injEq] at found
    rw [← found, number, calls]
  freed other family := by
    have count := ok.freed other family
    rw [outside] at count
    rw [freed, count, current, calls, Option.map_some, number]
    simp only [Option.map_none, ne_eq, reduceCtorEq, not_false_eq_true, and_true,
      Option.some.injEq]
    congr 2
    simp only [eq_iff_iff]
    omega

theorem count_freed (answers : Family → List α) (call number : Nat) (family : Family) :
    ((Family.all.filter fun family => answers family ≠ []).map fun family => (call, family)).count
      (number, family) = if call = number ∧ answers family ≠ [] then 1 else 0 := by
  by_cases ipv4 : answers .ipv4 = []
  · by_cases ipv6 : answers .ipv6 = []
    · cases family with
      | ipv4 => simp [Family.all, ipv4, ipv6]
      | ipv6 => simp [Family.all, ipv4, ipv6]
    · cases family with
      | ipv4 => simp [Family.all, ipv4, ipv6]
      | ipv6 => simp [Family.all, ipv4, ipv6, List.count_cons]
  · by_cases ipv6 : answers .ipv6 = []
    · cases family with
      | ipv4 => simp [Family.all, ipv4, ipv6, List.count_cons]
      | ipv6 => simp [Family.all, ipv4, ipv6]
    · cases family with
      | ipv4 => simp [Family.all, ipv4, ipv6, List.count_cons]
      | ipv6 => simp [Family.all, ipv4, ipv6, List.count_cons]

theorem ListsOk.free (ok : ListsOk answers s) {call : Call α} (current : s.call = some call) :
    ListsOk answers (freeAddresses (answers call.number) s call) where
  number other found := by cases found
  freed number family := by
    have count := ok.freed number family
    have last := ok.number call current
    rw [current, Option.map_some] at count
    change (s.freed ++ _).count (number, family) = _
    rw [List.count_append, count_freed, count]
    change _ = if (number < s.calls ∧ (none : Option Nat) ≠ some number) ∧ _ then 1 else 0
    by_cases same : call.number = number
    · subst same
      simp [← last]
    · simp [same]

/-! ## Whole runs -/

theorem begin_descriptor {handler : TcpHandler.State} (phase : PhaseOk (followWorker s handler))
    (idle : s.handler.worker = .idle) (connecting : handler.worker = .connecting) :
    s.descriptor = none := by
  simp only [followWorker, idle, connecting, if_true] at phase
  have early : EarlyOk _ _ := phase.1
  cases held : s.descriptor with
  | none => rfl
  | some descriptor => cases early.descriptor descriptor held

theorem followWorker_accounted (ok : Accounted s) (outside : s.call = none)
    (handler : TcpHandler.State) (idle : s.handler.worker = .idle → handler.worker = .connecting →
      s.descriptor = none) : Accounted (followWorker s handler) := by
  have before : owned s = s.descriptor.toList := by simp [owned, outside]
  have same (s' : State α) (call : s'.call = none) (descriptor : s'.descriptor = s.descriptor) :
      owned s' = owned s := by
    simp [owned, call, outside, descriptor]
  unfold followWorker
  split
  case h_1 phase =>
    split
    case isTrue connecting =>
      refine ok.keep rfl rfl ?_
      rw [before, idle phase connecting]
      rfl
    case isFalse => exact ok.keep rfl rfl (same _ outside rfl)
  case h_2 => exact ok.keep rfl rfl (same _ outside rfl)
  case h_3 =>
    refine ok.close before rfl rfl ?_
    simp [owned, outside]
  case h_4 => exact ok.keep rfl rfl (same _ outside rfl)

theorem followWorker_lists (ok : ListsOk answers s) (outside : s.call = none)
    (handler : TcpHandler.State) : ListsOk answers (followWorker s handler) := by
  unfold followWorker
  split
  · split
    · exact ok.begin outside rfl rfl rfl rfl
    · exact ok.keep rfl rfl rfl
  · exact ok.keep rfl rfl rfl
  · exact ok.keep rfl rfl rfl
  · exact ok.keep rfl rfl rfl

theorem attempt_lists (ok : ListsOk answers s) {call : Call α} (outcome : Outcome)
    (number : s.call.map Call.number = some call.number) :
    ListsOk answers (attempt s call outcome) := by
  cases outcome with
  | _ => exact ok.keep rfl rfl number.symm

theorem ListsOk.call {call : Call α} (ok : ListsOk answers s) (current : s.call = some call)
    (move : CallMove (answers call.number) s call s') : ListsOk answers s' := by
  have number : s.call.map Call.number = some call.number := by
    rw [current]
    rfl
  cases move with
  | attempt stage taken => exact attempt_lists ok _ number
  | outside stepped frame => exact ok.keep rfl rfl rfl
  | closePending stage taken =>
      unfold closePending at taken
      split at taken
      case h_1 => cases taken
      case h_2 after stepped =>
        cases taken
        exact ok.keep rfl rfl number.symm
  | reject stage taken =>
      unfold reject at taken
      split at taken
      case h_1 => cases taken
      case h_2 after stepped =>
        cases taken
        exact ok.keep rfl rfl number.symm
  | again => exact ok
  | free stage => exact ok.free current
  | _ => exact ok.keep rfl rfl number.symm

theorem ResourcesOk.next {action : Action} (ok : ResourcesOk answers s)
    (handler : TcpHandler.HandlerOk s.handler) (taken : next answers s action = some s') :
    ResourcesOk answers s' := by
  unfold TcpResources.next at taken
  split at taken
  case h_1 outside =>
    have phase := ok.phase
    unfold PhaseOk at phase
    rw [outside] at phase
    have idle : s.handler.worker ≠ .negotiating := by
      intro negotiating
      rw [negotiating] at phase
      exact phase
    cases taskStep_move idle taken with
    | outside stepped frame =>
        refine ⟨ok.accounted.keep rfl rfl rfl, phaseOk_task outside ?_, ok.lists.keep rfl rfl rfl⟩
        dsimp only
        rw [frame.worker]
        exact TaskOk.outside phase frame.socket
    | worker stepped move =>
        have phase' := ok.phase.worker handler outside move
        refine ⟨?_, phase', followWorker_lists ok.lists outside _⟩
        exact followWorker_accounted ok.accounted outside _ (begin_descriptor phase')
  case h_2 call current =>
    have move := callStep_move taken
    exact ⟨ok.accounted.call ok.phase current move, ok.phase.call handler current move,
      ok.lists.call current move⟩

theorem ResourcesOk.initial : ResourcesOk answers State.initial where
  accounted descriptor := by simp [State.initial, owned]
  phase := openOk_closed rfl rfl ⟨rfl, rfl⟩
  lists := ⟨fun _ called => (Option.some_ne_none _ called.symm).elim,
    fun number family => by simp [State.initial]⟩

theorem resourcesOk_of_reachable
    (reachable : Reachable (next answers) (fun _ _ => True) State.initial s) :
    ResourcesOk answers s ∧ TcpHandler.HandlerOk s.handler := by
  refine reachable.invariant
    (fun s => ResourcesOk answers s ∧ TcpHandler.HandlerOk s.handler) ⟨.initial, .initial⟩ ?_
  intro before action after ok _ taken
  refine ⟨ok.1.next ok.2 taken, ?_⟩
  obtain same | ⟨action, stepped⟩ := next_handler taken
  · rw [same]
    exact ok.2
  · exact ok.2.move (TcpHandler.next_move stepped)

/-- Between two tasks: `socket_` is valid exactly while there is a receive thread, there are TLS
objects only with it, all other descriptors have been closed once, and each list that a lookup
returned has been freed once. -/
theorem resources_are_released_once
    (reachable : Reachable (next answers) (fun _ _ => True) State.initial s)
    (idle : s.handler.worker = .idle) (between : s.call = none) :
    (s.handler.socket.isSome = true ↔ s.handler.receiver ≠ .absent) ∧
      (s.ssl = true ∨ s.sslCtx = true → s.handler.socket.isSome = true) ∧
      s.descriptor.isSome = s.handler.socket.isSome ∧
      (∀ descriptor < s.opened,
        s.closed.count descriptor = if s.descriptor = some descriptor then 0 else 1) ∧
      ∀ call < s.calls, ∀ family,
        s.freed.count (call, family) = if answers call family = [] then 0 else 1 := by
  obtain ⟨ok, handler⟩ := resourcesOk_of_reachable reachable
  have opened : OpenOk s := by
    have phase := ok.phase
    unfold PhaseOk at phase
    rw [between] at phase
    simp only [idle] at phase
    exact phase
  have settled : TcpHandler.Settled s.handler := handler.atPhase idle
  refine ⟨?_, opened.tls, opened.descriptor, ?_, ?_⟩
  · rw [← not_iff_not, not_not, ← settled.joinable]
    simp
  · intro descriptor below
    have count := ok.accounted descriptor
    rw [if_pos below] at count
    simp only [owned, between] at count
    by_cases held : s.descriptor = some descriptor
    · rw [held, Option.toList_some, List.count_singleton_self] at count
      rw [if_pos held]
      omega
    · have absent : s.descriptor.toList.count descriptor = 0 :=
        List.count_eq_zero.mpr fun member => held (Option.mem_toList.mp member)
      rw [if_neg held]
      omega
  · intro call below family
    have count := ok.lists.freed call family
    rw [between] at count
    simpa [below] using count

/-- Two lookups of one address each: the attempt at the first is still pending when the second
connects, so its descriptor is closed and the other one stays, with TLS. -/
theorem one_of_two_descriptors_stays_open :
    ∃ s : State Family,
      Reachable (next fun _ family => [family]) (fun _ _ => True) State.initial s ∧
        (s.handler.worker = .idle ∧ s.call = none) ∧
        (s.descriptor = some 1 ∧ s.opened = 2 ∧ s.calls = 1) ∧
        (∀ descriptor < s.opened,
          s.closed.count descriptor = if s.descriptor = some descriptor then 0 else 1) ∧
        ∀ call < s.calls, ∀ family, s.freed.count (call, family) = 1 := by
  have executed : (runActions (next fun _ family => [family]) (fun _ _ => True)
      (State.initial : State Family)
      (List.flatten [[.handler (.connect 0 false true), .handler (.clientStep 0),
          .handler .workerStep, .publish .ipv6, .complete .ipv6, .publish .ipv4, .complete .ipv4],
        List.replicate 7 .search,
        [.attempt .inProgress, .check fun _ => .waiting, .search, .search, .attempt .connected,
          .leave, .watch fun _ => .waiting, .sslCtxNew true, .sslNew true,
          .sslConnect (.again false), .sslConnect .connected, .start, .free]])).map
        (fun s => (s.handler.worker, s.call.isNone, s.descriptor, s.opened, s.calls)) =
      some (.idle, true, some 1, 2, 1) := by
    decide +kernel
  obtain ⟨s, executed, result⟩ := Option.map_eq_some_iff.mp executed
  simp only [Prod.mk.injEq, Option.isNone_iff_eq_none] at result
  obtain ⟨idle, between, opened⟩ := result
  have reachable := Reachable.of_runActions _ .start executed
  obtain ⟨_, _, _, closed, freed⟩ := resources_are_released_once reachable idle between
  refine ⟨s, reachable, ⟨idle, between⟩, opened, closed, ?_⟩
  intro call below family
  rw [freed call below family, if_neg (List.cons_ne_nil family [])]

end FreeDV.Util.TcpResources
