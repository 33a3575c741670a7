import FreeDV.Lib.Transition
import Mathlib.Logic.Function.Basic

/-!
# Connecting with Happy Eyeballs

`connectImpl_` of `TcpConnectionHandler` from the start of the two DNS lookups
until it leaves its address loop. Each lookup first publishes its addresses
(the promise) and later sets its completion flag. A step of the worker is one
load of a flag, one look at a future or one system call; the rest of what it
computes goes with it. `attempts` and `cancelled` record what happened.
-/

set_option autoImplicit false

namespace FreeDV.Util.TcpConnect

/-- The two lookups, `results[0]` and `results[1]` in the source. -/
inductive Family where
  | ipv6
  | ipv4
deriving DecidableEq

/-- `(whichIndex + 1) % 2` -/
def Family.other : Family → Family
  | .ipv6 => .ipv4
  | .ipv4 => .ipv6

inductive Point where
  -- `while (!cancelConnect_ && !ipv4Complete_ && !ipv6Complete_)`
  | waitCancel
  | waitIpv4
  | waitIpv6
  -- the first look at each flag, and the second and third at IPv6's
  | firstIpv6
  | firstIpv4
  | secondIpv6
  | thirdIpv6
  -- "no valid IPv6 results, need to wait for IPv4 before continuing"
  | needIpv4
  | getIpv4
  -- the address loop
  | loopTop
  | attempting
  | checking
  | nextAddress
  -- "ran out of addresses to check but DNS requests are still pending"
  | exhaustedIpv4
  | exhaustedIpv6
  | pendingIpv4
  | pendingIpv6
  | pendingCancel
  | pendingCheck
  | afterWait
  | collectIpv4
  | collectIpv6
  | left
deriving DecidableEq

/-- What becomes of the system calls for one address. -/
inductive Outcome where
  | socketFailed
  | fcntlFailed
  | connectFailed
  | connected
  | inProgress
deriving DecidableEq

/-- What `select` and `getsockopt` say about a pending socket. -/
inductive SocketStatus where
  | waiting
  | failed
  | connected
deriving DecidableEq

structure State (α : Type) where
  published : Family → Bool
  complete : Family → Bool
  cancelConnect : Bool
  point : Point
  /-- The future of the lookup is no longer valid. -/
  collected : Family → Bool
  results : Family → List α
  whichIndex : Family
  pendingSockets : List (Family × α)
  socket : Option (Family × α)
  attempts : List (Family × α)
  /-- `cancelConnect_` has been set since the call. -/
  cancelled : Bool

variable {α : Type}

def State.initial : State α where
  published _ := false
  complete _ := false
  cancelConnect := false
  point := .waitCancel
  collected _ := false
  results _ := []
  whichIndex := .ipv6
  pendingSockets := []
  socket := none
  attempts := []
  cancelled := false

/-- `checkConnections_` over the sockets from number `i` on: those that failed are removed, the
first that connected is taken and ends the scan. -/
def checkConnections (status : Nat → SocketStatus) :
    List (Family × α) → Nat → List (Family × α) × Option (Family × α)
  | [], _ => ([], none)
  | sock :: rest, i =>
      match status i with
      | .failed => checkConnections status rest (i + 1)
      | .connected => (sock :: rest, some sock)
      | .waiting =>
          let (kept, connected) := checkConnections status rest (i + 1)
          (sock :: kept, connected)

/-- `heads[family] = future.get(); results[family] = heads[family]` -/
def collect (answers : Family → List α) (s : State α) (family : Family) : State α :=
  { s with
    collected := Function.update s.collected family true
    results := Function.update s.results family (answers family) }

/-- The family the address loop starts with. -/
def chooseFirst (s : State α) : State α :=
  { s with
    whichIndex :=
      if s.results .ipv6 ≠ [] then .ipv6 else if s.results .ipv4 ≠ [] then .ipv4 else .ipv6
    point := .loopTop }

/-- The loop condition after the load of `cancelConnect_`, and the choice of the address. -/
def beginAttempt (s : State α) : State α :=
  let whichIndex := if s.results s.whichIndex = [] then s.whichIndex.other else s.whichIndex
  match s.results whichIndex with
  | [] => { s with point := .left }
  | current :: _ =>
      { s with
        whichIndex := whichIndex
        attempts := s.attempts ++ [(whichIndex, current)]
        point := .attempting }

/-- The test whether addresses are left in either list. -/
def findAddress (s : State α) : State α :=
  if s.results s.whichIndex = [] then
    { s with
      whichIndex := s.whichIndex.other
      point := if s.results s.whichIndex.other = [] then .exhaustedIpv4 else .loopTop }
  else
    { s with point := .loopTop }

/-- From `next_fd` to that test. Only an answer that is already in is collected. -/
def advance (answers : Family → List α) (s : State α) : State α :=
  let skipped := { s with
    results := Function.update s.results s.whichIndex (s.results s.whichIndex).tail
    whichIndex := s.whichIndex.other
    point := .loopTop }
  if s.collected s.whichIndex.other = false ∧ s.published s.whichIndex.other = true then
    findAddress (collect answers skipped s.whichIndex.other)
  else findAddress skipped

/-- The next step of the worker where it makes no call with an outcome of its own. -/
def workerStep (answers : Family → List α) (s : State α) : Option (State α) :=
  match s.point with
  | .waitCancel => some { s with point := if s.cancelConnect then .firstIpv6 else .waitIpv4 }
  | .waitIpv4 => some { s with point := if s.complete .ipv4 then .firstIpv6 else .waitIpv6 }
  | .waitIpv6 => some { s with point := if s.complete .ipv6 then .firstIpv6 else .waitCancel }
  | .firstIpv6 =>
      let s := if s.complete .ipv6 then collect answers s .ipv6 else s
      some { s with point := .firstIpv4 }
  | .firstIpv4 =>
      let s := if s.complete .ipv4 then collect answers s .ipv4 else s
      some { s with point := .secondIpv6 }
  | .secondIpv6 => some { s with point := if s.complete .ipv6 then .needIpv4 else .thirdIpv6 }
  | .thirdIpv6 =>
      let s := if s.complete .ipv6 then collect answers s .ipv6 else s
      some { s with point := .needIpv4 }
  | .needIpv4 =>
      if s.collected .ipv4 = false ∧ s.complete .ipv6 = true ∧ s.results .ipv6 = [] then
        some { s with point := .getIpv4 }
      else some (chooseFirst s)
  | .getIpv4 =>
      if s.published .ipv4 then some (chooseFirst (collect answers s .ipv4)) else none
  | .loopTop =>
      if s.cancelConnect then some { s with point := .left } else some (beginAttempt s)
  | .nextAddress => some (advance answers s)
  | .exhaustedIpv4 =>
      some { s with point := if s.complete .ipv4 then .exhaustedIpv6 else .pendingIpv4 }
  | .exhaustedIpv6 =>
      some { s with point := if s.complete .ipv6 then .loopTop else .pendingIpv4 }
  | .pendingIpv4 =>
      some { s with point := if s.complete .ipv4 then .pendingIpv6 else .pendingCancel }
  | .pendingIpv6 =>
      some { s with point := if s.complete .ipv6 then .afterWait else .pendingCancel }
  | .pendingCancel =>
      if s.cancelConnect = true ∨ s.socket.isSome = true then some { s with point := .afterWait }
      else some { s with point := if s.pendingSockets = [] then .pendingIpv4 else .pendingCheck }
  | .afterWait =>
      if s.socket.isSome = true ∨ s.cancelConnect = true then some { s with point := .left }
      else some { s with point := .collectIpv4 }
  | .collectIpv4 =>
      if s.collected .ipv4 then some { s with point := .collectIpv6 }
      else if s.published .ipv4 then
        some { collect answers s .ipv4 with whichIndex := .ipv4, point := .collectIpv6 }
      else none
  | .collectIpv6 =>
      if s.collected .ipv6 then some { s with point := .loopTop }
      else if s.published .ipv6 then
        some { collect answers s .ipv6 with
          whichIndex := if answers .ipv6 ≠ [] then .ipv6 else s.whichIndex, point := .loopTop }
      else none
  | .attempting => none
  | .checking => none
  | .pendingCheck => none
  | .left => none

/-- The system calls for the current address. -/
def attempt (s : State α) (outcome : Outcome) : Option (State α) :=
  match s.point with
  | .attempting =>
      match s.results s.whichIndex with
      | [] => none
      | current :: _ =>
          let pendingSockets := s.pendingSockets ++ [(s.whichIndex, current)]
          match outcome with
          | .socketFailed => some { s with point := .nextAddress }
          | .fcntlFailed => some { s with point := .nextAddress }
          | .connectFailed => some { s with point := .nextAddress }
          | .connected =>
              some { s with
                pendingSockets := pendingSockets, socket := some (s.whichIndex, current),
                point := .left }
          | .inProgress => some { s with pendingSockets := pendingSockets, point := .checking }
  | _ => none

/-- A call of `checkConnections_`, and the look at `socket_` behind it. -/
def check (s : State α) (status : Nat → SocketStatus) : Option (State α) :=
  let (pendingSockets, connected) := checkConnections status s.pendingSockets 0
  let socket := connected.or s.socket
  match s.point with
  | .checking =>
      some { s with
        pendingSockets := pendingSockets, socket := socket,
        point := if socket.isSome then .left else .nextAddress }
  | .pendingCheck =>
      some { s with pendingSockets := pendingSockets, socket := socket, point := .pendingIpv4 }
  | _ => none

inductive Action where
  | step
  | attempt (outcome : Outcome)
  | check (status : Nat → SocketStatus)
  -- the resolver threads
  | publish (family : Family)
  | complete (family : Family)
  -- `disconnect` and `connect`, called by other threads
  | disconnect
  | connect

def next (answers : Family → List α) (s : State α) : Action → Option (State α)
  | .step => workerStep answers s
  | .attempt outcome => attempt s outcome
  | .check status => check s status
  | .publish family =>
      if s.published family then none
      else some { s with published := Function.update s.published family true }
  | .complete family =>
      if s.published family = true ∧ s.complete family = false then
        some { s with complete := Function.update s.complete family true }
      else none
  | .disconnect => some { s with cancelConnect := true, cancelled := true }
  | .connect => some { s with cancelConnect := false }

end FreeDV.Util.TcpConnect
