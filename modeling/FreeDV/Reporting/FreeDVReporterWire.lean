import FreeDV.Reporting.FreeDVReporterEvents
import FreeDV.Reporting.FreeDVReporterReplay

/-!
# The reporter behind the wire

A websocket message may enqueue a task that handles an event, and a bulk update
handles further events in its place. Between any two handlers other threads may
use the reporter. Whatever the server sends, each event is handled once, in order,
and nothing of it reaches what the user has set.
-/

set_option autoImplicit false

namespace FreeDV.Reporting.FreeDVReporter

open Lib Lib.Json Util.SocketIoClient

abbrev EventFnMap := List UInt8 → Option EventHandler

/-- Tasks of the client's thread. -/
inductive Task where
  | on (eventName : List UInt8) (fn : EventHandler)
  | event (eventDoc : Json)

/-- A handler that was called, and the functions that were set then. -/
structure Handled where
  call : Call
  handler : EventHandler
  callbacks : Callbacks

/-- `agenda` has the events that the running task, and the loops of the bulk updates in it, have
not looked at. The last four fields record what has happened and are not read. -/
structure Client where
  reporter : Reporter
  callbacks : Callbacks
  eventFnMap : EventFnMap
  tasks : List Task
  agenda : List Json
  userCalls : List UserCall
  messages : List (List UInt8)
  started : List (EventFnMap × Json)
  handled : List Handled
  operations : List Operation

namespace Client

def initial (callsign gridSquare : List UInt8) (callbacks : Callbacks) : Client where
  reporter := make callsign gridSquare
  callbacks := callbacks
  eventFnMap := fun _ => none
  tasks := []
  agenda := []
  userCalls := []
  messages := []
  started := []
  handled := []
  operations := []

/-- The other operations come from the socket and the server. -/
def fromUser : Operation → Bool
  | .onConnect => false
  | .onDisconnect => false
  | .onConnectionSuccessful => false
  | _ => true

def operate (s : Client) (operation : Operation) : Client :=
  { s with
    reporter := FreeDVReporter.operate s.reporter operation
    operations := s.operations ++ [operation] }

def receive (yyjsonRead : List UInt8 → Option Json) (s : Client) (payload : List UInt8) : Client :=
  let s := { s with messages := s.messages ++ [payload] }
  match handleEngineIoMessage yyjsonRead payload with
  | .message .callOnConnectFn => s.operate .onConnect
  | .message (.enqueue eventDoc) => { s with tasks := s.tasks ++ [.event eventDoc] }
  | _ => s

def runTask (s : Client) : Task → Client
  | .on eventName fn => { s with eventFnMap := Function.update s.eventFnMap eventName (some fn) }
  | .event eventDoc =>
      { s with
        agenda := [eventDoc]
        started := s.started ++ [(s.eventFnMap, eventDoc)] }

/-- The user's function is called before the reporter does anything. -/
def callHandler (s : Client) (handler : EventHandler) (call : Call) : Client :=
  let s := { s with
    userCalls := s.userCalls ++ handler.userCalls s.callbacks call.params
    handled := s.handled ++ [⟨call, handler, s.callbacks⟩] }
  match handler.operation with
  | none => s
  | some operation => s.operate operation

/-- The events of a bulk update are looked at before those behind it. -/
def nested (handler : EventHandler) (params : Option Json) : List Json :=
  match handler with
  | .bulkUpdate => elements params
  | _ => []

/-- An event is looked at as `handleEvent` and the loop of a bulk update do alike. -/
def visit (s : Client) (msg : Json) (rest : List Json) : Client :=
  match eventOf msg with
  | none => { s with agenda := rest }
  | some (eventName, params) =>
      match s.eventFnMap eventName with
      | none => { s with agenda := rest }
      | some handler =>
          callHandler { s with agenda := nested handler params ++ rest } handler ⟨eventName, params⟩

inductive Action where
  | operate (operation : Operation)
  | setCallbacks (callbacks : Callbacks)
  /-- `connect_` enqueues the registration of a handler. -/
  | on (registration : Fin registrations.length)
  | message (payload : List UInt8)
  | onDisconnect
  | runTask
  | visit

/-- The client's thread goes on to something else when the running task is through. -/
def next (yyjsonRead : List UInt8 → Option Json) (s : Client) : Action → Option Client
  | .operate operation => if fromUser operation then some (s.operate operation) else none
  | .setCallbacks callbacks => some { s with callbacks := callbacks }
  | .on registration =>
      let (eventName, fn) := registrations.get registration
      some { s with tasks := s.tasks ++ [.on eventName fn] }
  | .message payload =>
      match s.agenda with
      | [] => some (s.receive yyjsonRead payload)
      | _ :: _ => none
  | .onDisconnect =>
      match s.agenda with
      | [] => some (s.operate .onDisconnect)
      | _ :: _ => none
  | .runTask =>
      match s.agenda, s.tasks with
      | [], task :: tasks => some ({ s with tasks := tasks }.runTask task)
      | _, _ => none
  | .visit =>
      match s.agenda with
      | [] => none
      | msg :: rest => some (s.visit msg rest)

end Client

end FreeDV.Reporting.FreeDVReporter
