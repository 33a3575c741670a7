import FreeDV.Reporting.FreeDVReporterWire

/-!
# Each event is handled once

What has been handled and what the loops still have to look at are the flattened
events of the tasks that were started, and these are, in order, the events that
were received, but for those whose tasks are still enqueued.
-/

set_option autoImplicit false

namespace FreeDV.Reporting.FreeDVReporter

open Lib Lib.Json Util.SocketIoClient

def kinds (eventFnMap : EventFnMap) (name : List UInt8) : Option Handler :=
  (eventFnMap name).map EventHandler.kind

section Flattened

variable {eventFnMap : List UInt8 → Option Handler} {msg : Json} {name : List UInt8}
  {params : Option Json}

theorem flattened_of_no_event (other : eventOf msg = none) : flattened eventFnMap msg = [] := by
  rw [flattened]
  split
  · rfl
  · rename_i event
    rw [other] at event
    cases event

theorem flattened_unregistered (event : eventOf msg = some (name, params))
    (unregistered : eventFnMap name = none) : flattened eventFnMap msg = [] := by
  rw [flattened]
  split
  · rfl
  · rename_i again
    rw [event] at again
    cases again
    simp [unregistered]

theorem flattened_other (event : eventOf msg = some (name, params))
    (registered : eventFnMap name = some .other) :
    flattened eventFnMap msg = [⟨name, params⟩] := by
  rw [flattened]
  split
  · rename_i none
    rw [event] at none
    cases none
  · rename_i again
    rw [event] at again
    cases again
    simp [registered]

end Flattened

namespace Client

/-- What is in front of the events that are nested in an event. -/
theorem flattened_nested {eventFnMap : EventFnMap} {msg : Json} {name : List UInt8}
    {params : Option Json} {handler : EventHandler} (event : eventOf msg = some (name, params))
    (registered : eventFnMap name = some handler) :
    flattened (kinds eventFnMap) msg =
      ⟨name, params⟩ :: (nested handler params).flatMap (flattened (kinds eventFnMap)) := by
  have kind : kinds eventFnMap name = some handler.kind := by
    rw [kinds, registered]
    rfl
  cases handler with
  | bulkUpdate => exact flattened_bulkUpdate event kind
  | _ => exact flattened_other event kind

def eventDoc (yyjsonRead : List UInt8 → Option Json) (payload : List UInt8) : Option Json :=
  match handleEngineIoMessage yyjsonRead payload with
  | .message (.enqueue doc) => some doc
  | _ => none

end Client

def Task.eventDoc : Task → Option Json
  | .on _ _ => none
  | .event eventDoc => some eventDoc

def Handled.userCalls (handled : Handled) : List UserCall :=
  handled.handler.userCalls handled.callbacks handled.call.params

namespace Client

structure Ok (yyjsonRead : List UInt8 → Option Json) (callsign gridSquare : List UInt8)
    (s : Client) : Prop where
  received : s.messages.filterMap (eventDoc yyjsonRead) =
    s.started.map Prod.snd ++ s.tasks.filterMap Task.eventDoc
  handled : s.handled.map Handled.call ++ s.agenda.flatMap (flattened (kinds s.eventFnMap)) =
    s.started.flatMap fun started => flattened (kinds started.1) started.2
  userCalls : s.userCalls = s.handled.flatMap Handled.userCalls
  reporter : s.reporter = s.operations.foldl FreeDVReporter.operate (make callsign gridSquare)
  successes : s.operations.filter (· = .onConnectionSuccessful) =
    s.handled.filterMap fun handled => handled.handler.operation
  registered : ∀ name handler, s.eventFnMap name = some handler → (name, handler) ∈ registrations
  tasks : ∀ name handler, .on name handler ∈ s.tasks → (name, handler) ∈ registrations
  handlers : ∀ handled ∈ s.handled, (handled.call.eventName, handled.handler) ∈ registrations

variable {yyjsonRead : List UInt8 → Option Json} {callsign gridSquare : List UInt8}
  {s s' : Client}

theorem Ok.initial (callbacks : Callbacks) :
    Ok yyjsonRead callsign gridSquare (.initial callsign gridSquare callbacks) where
  received := rfl
  handled := rfl
  userCalls := rfl
  reporter := rfl
  successes := rfl
  registered _ _ absent := by cases absent
  tasks _ _ absent := by cases absent
  handlers _ absent := by cases absent

/-- The socket and the other threads use the reporter. -/
theorem Ok.operate (h : Ok yyjsonRead callsign gridSquare s) {operation : Operation}
    (other : operation ≠ .onConnectionSuccessful) :
    Ok yyjsonRead callsign gridSquare (s.operate operation) where
  received := h.received
  handled := h.handled
  userCalls := h.userCalls
  reporter := by
    simp only [Client.operate, List.foldl_append, List.foldl_cons, List.foldl_nil, h.reporter]
  successes := by
    simp only [Client.operate, List.filter_append, h.successes]
    simp [other]
  registered := h.registered
  tasks := h.tasks
  handlers := h.handlers

theorem Ok.message (h : Ok yyjsonRead callsign gridSquare s) {payload : List UInt8}
    {doc : Option Json} (read : eventDoc yyjsonRead payload = doc) :
    Ok yyjsonRead callsign gridSquare { s with
      messages := s.messages ++ [payload]
      tasks := s.tasks ++ doc.toList.map .event } where
  received := by
    subst read
    rw [List.filterMap_append, List.filterMap_append, h.received, List.append_assoc]
    cases read : eventDoc yyjsonRead payload <;> simp [read, Task.eventDoc]
  handled := h.handled
  userCalls := h.userCalls
  reporter := h.reporter
  successes := h.successes
  registered := h.registered
  tasks name handler member := by
    rcases List.mem_append.mp member with old | new
    · exact h.tasks name handler old
    · obtain ⟨_, -, same⟩ := List.mem_map.mp new
      cases same
  handlers := h.handlers

theorem Ok.receive (h : Ok yyjsonRead callsign gridSquare s) (payload : List UInt8) :
    Ok yyjsonRead callsign gridSquare (s.receive yyjsonRead payload) := by
  have silent (read : eventDoc yyjsonRead payload = none) :
      Ok yyjsonRead callsign gridSquare { s with messages := s.messages ++ [payload] } := by
    have ok := h.message read
    rwa [Option.toList_none, List.map_nil, List.append_nil] at ok
  unfold Client.receive
  cases reaction : handleEngineIoMessage yyjsonRead payload with
  | message reaction' =>
      cases reaction' with
      | callOnConnectFn =>
          exact (silent (by rw [eventDoc, reaction])).operate (by decide)
      | enqueue doc =>
          have read : eventDoc yyjsonRead payload = some doc := by rw [eventDoc, reaction]
          exact h.message read
      | disconnect => exact silent (by rw [eventDoc, reaction])
      | nothing => exact silent (by rw [eventDoc, reaction])
  | startPingTimer => exact silent (by rw [eventDoc, reaction])
  | disconnect => exact silent (by rw [eventDoc, reaction])
  | pong => exact silent (by rw [eventDoc, reaction])
  | nothing => exact silent (by rw [eventDoc, reaction])

/-- A task starts when the loops of the one before are through. -/
theorem Ok.runTask (h : Ok yyjsonRead callsign gridSquare s) (idle : s.agenda = []) {task : Task}
    {tasks : List Task} (queued : s.tasks = task :: tasks) :
    Ok yyjsonRead callsign gridSquare ({ s with tasks := tasks }.runTask task) := by
  have received := h.received
  have handled := h.handled
  rw [queued] at received
  rw [idle, List.flatMap_nil, List.append_nil] at handled
  have others : ∀ name handler, .on name handler ∈ tasks → (name, handler) ∈ registrations := by
    intro name handler member
    exact h.tasks name handler (by rw [queued]; exact List.mem_cons_of_mem _ member)
  cases task with
  | on eventName fn =>
      refine ⟨received, ?_, h.userCalls, h.reporter, h.successes, ?_, others, h.handlers⟩
      · simp only [Client.runTask, idle, List.flatMap_nil, List.append_nil, handled]
      · intro name handler here
        simp only [Client.runTask, Function.update_apply] at here
        split at here
        · rename_i same
          cases here
          rw [same]
          exact h.tasks eventName fn (by rw [queued]; exact List.mem_cons_self)
        · exact h.registered name handler here
  | event eventDoc =>
      refine ⟨?_, ?_, h.userCalls, h.reporter, h.successes, h.registered, others, h.handlers⟩
      · simpa [Client.runTask, Task.eventDoc] using received
      · simp [Client.runTask, handled]

/-- A handler is called for the event that the loops look at. -/
theorem Ok.callHandler (h : Ok yyjsonRead callsign gridSquare s) {msg : Json} {rest : List Json}
    (visited : s.agenda = msg :: rest) {name : List UInt8} {params : Option Json}
    (event : eventOf msg = some (name, params)) {handler : EventHandler}
    (registered : s.eventFnMap name = some handler) :
    Ok yyjsonRead callsign gridSquare
      (callHandler { s with agenda := nested handler params ++ rest } handler ⟨name, params⟩) := by
  have handled := h.handled
  rw [visited, List.flatMap_cons, flattened_nested event registered] at handled
  have known := h.registered name handler registered
  have handlers : ∀ entry ∈ s.handled ++ [⟨⟨name, params⟩, handler, s.callbacks⟩],
      (entry.call.eventName, entry.handler) ∈ registrations := by
    intro entry member
    rcases List.mem_append.mp member with old | new
    · exact h.handlers entry old
    · rw [List.mem_singleton.mp new]
      exact known
  unfold Client.callHandler
  cases operation : handler.operation with
  | none =>
      refine ⟨h.received, ?_, ?_, h.reporter, ?_, h.registered, h.tasks, handlers⟩
      · simpa using handled
      · simp [h.userCalls, Handled.userCalls]
      · simp [h.successes, operation]
  | some operation' =>
      refine ⟨h.received, ?_, ?_, ?_, ?_, h.registered, h.tasks, handlers⟩
      · simpa [Client.operate] using handled
      · simp [Client.operate, h.userCalls, Handled.userCalls]
      · simp [Client.operate, h.reporter]
      · have success : operation' = .onConnectionSuccessful := by
          cases handler <;> simp [EventHandler.operation] at operation
          exact operation.symm
        simp [Client.operate, h.successes, operation, success]

theorem Ok.skip (h : Ok yyjsonRead callsign gridSquare s) {msg : Json} {rest : List Json}
    (visited : s.agenda = msg :: rest)
    (silent : flattened (kinds s.eventFnMap) msg = []) :
    Ok yyjsonRead callsign gridSquare { s with agenda := rest } where
  received := h.received
  handled := by
    have handled := h.handled
    rwa [visited, List.flatMap_cons, silent, List.nil_append] at handled
  userCalls := h.userCalls
  reporter := h.reporter
  successes := h.successes
  registered := h.registered
  tasks := h.tasks
  handlers := h.handlers

theorem Ok.visit (h : Ok yyjsonRead callsign gridSquare s) {msg : Json} {rest : List Json}
    (visited : s.agenda = msg :: rest) :
    Ok yyjsonRead callsign gridSquare (s.visit msg rest) := by
  cases event : eventOf msg with
  | none =>
      simp only [Client.visit, event]
      exact h.skip visited (flattened_of_no_event event)
  | some named =>
      obtain ⟨name, params⟩ := named
      cases registered : s.eventFnMap name with
      | none =>
          simp only [Client.visit, event, registered]
          exact h.skip visited (flattened_unregistered event (by rw [kinds, registered]; rfl))
      | some handler =>
          simp only [Client.visit, event, registered]
          exact h.callHandler visited event registered

theorem Ok.next (h : Ok yyjsonRead callsign gridSquare s) {action : Action}
    (taken : s.next yyjsonRead action = some s') : Ok yyjsonRead callsign gridSquare s' := by
  cases action with
  | operate operation =>
      rw [Client.next] at taken
      split at taken
      · rename_i fromUser
        cases taken
        exact h.operate (by rintro rfl; cases fromUser)
      · cases taken
  | setCallbacks callbacks =>
      cases taken
      exact ⟨h.received, h.handled, h.userCalls, h.reporter, h.successes, h.registered, h.tasks,
        h.handlers⟩
  | on registration =>
      cases taken
      refine ⟨?_, h.handled, h.userCalls, h.reporter, h.successes, h.registered, ?_, h.handlers⟩
      · simp [h.received, Task.eventDoc]
      · intro name handler member
        rcases List.mem_append.mp member with old | new
        · exact h.tasks name handler old
        · cases List.mem_singleton.mp new
          exact List.get_mem registrations registration
  | message payload =>
      rw [Client.next] at taken
      split at taken
      · cases taken
        exact h.receive payload
      · cases taken
  | onDisconnect =>
      rw [Client.next] at taken
      split at taken
      · cases taken
        exact h.operate (by decide)
      · cases taken
  | runTask =>
      rw [Client.next] at taken
      split at taken
      · rename_i idle queued
        cases taken
        exact h.runTask idle queued
      · cases taken
  | visit =>
      rw [Client.next] at taken
      split at taken
      · cases taken
      · rename_i visited
        cases taken
        exact h.visit visited

theorem ok_of_reachable {callbacks : Callbacks}
    (reachable : Reachable (next yyjsonRead) (fun _ _ => True)
      (.initial callsign gridSquare callbacks) s) : Ok yyjsonRead callsign gridSquare s :=
  reachable.invariant (Ok yyjsonRead callsign gridSquare) (Ok.initial callbacks)
    fun _ _ _ h _ taken => h.next taken

/-! ## Every task ends -/

theorem sizeOf_append_succ (items rest : List Json) :
    sizeOf (items ++ rest) + 1 = sizeOf items + sizeOf rest := by
  induction items with
  | nil => simp [Nat.add_comm]
  | cons item items ih =>
      simp only [List.cons_append, List.cons.sizeOf_spec]
      omega

theorem sizeOf_nested_le {msg : Json} {name : List UInt8} {params : Option Json}
    (event : eventOf msg = some (name, params)) (handler : EventHandler) :
    sizeOf (nested handler params) ≤ sizeOf msg := by
  have positive : 1 ≤ sizeOf msg := by
    cases msg <;> simp
  cases handler with
  | bulkUpdate =>
      rw [eventOf_eq] at event
      obtain ⟨text, -, same⟩ := Option.map_eq_some_iff.mp event
      cases params with
      | none => exact positive
      | some value =>
          have smaller := sizeOf_lt_of_arrGet (Prod.mk.inj same).2
          cases value with
          | arr items =>
              calc
                sizeOf items ≤ sizeOf (Json.arr items) := by simp
                _ ≤ sizeOf msg := smaller.le
          | _ => exact positive
  | _ => exact positive

theorem callHandler_agenda (handler : EventHandler) (call : Call) :
    (s.callHandler handler call).agenda = s.agenda := by
  unfold callHandler
  cases handler.operation <;> rfl

theorem visit_smaller (msg : Json) (rest : List Json) :
    sizeOf (s.visit msg rest).agenda < sizeOf (msg :: rest) := by
  rw [List.cons.sizeOf_spec]
  cases event : eventOf msg with
  | none =>
      simp only [visit, event]
      omega
  | some named =>
      obtain ⟨name, params⟩ := named
      cases registered : s.eventFnMap name with
      | none =>
          simp only [visit, event, registered]
          omega
      | some handler =>
          have smaller := sizeOf_nested_le event handler
          have together := sizeOf_append_succ (nested handler params) rest
          simp only [visit, event, registered, callHandler_agenda]
          omega

theorem visits_end (yyjsonRead : List UInt8 → Option Json) (s : Client) :
    ∃ visits later, runActions (next yyjsonRead) (fun _ _ => True) s
      (List.replicate visits .visit) = some later ∧ later.agenda = [] := by
  induction size : sizeOf s.agenda using Nat.strong_induction_on generalizing s with
  | _ n ih =>
      cases agenda : s.agenda with
      | nil => exact ⟨0, s, rfl, agenda⟩
      | cons msg rest =>
          have smaller := s.visit_smaller msg rest
          rw [← agenda, size] at smaller
          obtain ⟨visits, later, run, ended⟩ := ih _ smaller (s.visit msg rest) rfl
          refine ⟨visits + 1, later, ?_, ended⟩
          rw [List.replicate_succ, runActions_cons]
          refine ⟨trivial, s.visit msg rest, ?_, run⟩
          simp only [Client.next, agenda]

/-! ## What a run does -/

/-- Whatever the server sends, and whatever other threads do between two handlers: the events
received are those whose tasks were started and those still enqueued, in order; the handlers called,
and the events the running loops have yet to look at, are the flattened events of these tasks; the
user has been told what the handlers called say; and the running task ends. -/
theorem events_are_handled_once_in_order (yyjsonRead : List UInt8 → Option Json)
    (callsign gridSquare : List UInt8) (callbacks : Callbacks) (s : Client)
    (reachable : Reachable (next yyjsonRead) (fun _ _ => True)
      (.initial callsign gridSquare callbacks) s) :
    s.messages.filterMap (eventDoc yyjsonRead) =
      s.started.map Prod.snd ++ s.tasks.filterMap Task.eventDoc ∧
    s.handled.map Handled.call ++ s.agenda.flatMap (flattened (kinds s.eventFnMap)) =
      s.started.flatMap (fun started => flattened (kinds started.1) started.2) ∧
    (∀ handled ∈ s.handled, (handled.call.eventName, handled.handler) ∈ registrations) ∧
    s.userCalls = s.handled.flatMap Handled.userCalls ∧
    ∃ visits later, runActions (next yyjsonRead) (fun _ _ => True) s
      (List.replicate visits .visit) = some later ∧ later.agenda = [] := by
  have h := ok_of_reachable reachable
  exact ⟨h.received, h.handled, h.handlers, h.userCalls, visits_end yyjsonRead s⟩

def messageUpdateText (message : String) : List UInt8 :=
  key "[\"message_update\",\x7b\"sid\":\"a\",\"last_update\":\"b\",\"message\":" ++
    key message ++ key "\x7d]"

def bulkText : List UInt8 :=
  key "[\"bulk_update\",[[\"connection_successful\"]," ++ messageUpdateText "\"c\"" ++ key "," ++
    messageUpdateText "null" ++ key "]]"

def bulkDoc : Json :=
  .arr [.str (key "bulk_update"), .arr [.arr [.str (key "connection_successful")],
    .arr [.str (key "message_update"), .obj [(key "sid", .str (key "a")),
      (key "last_update", .str (key "b")), (key "message", .str (key "c"))]],
    .arr [.str (key "message_update"), .obj [(key "sid", .str (key "a")),
      (key "last_update", .str (key "b")), (key "message", .null)]]]]

def bulkRead (text : List UInt8) : Option Json := if text = bulkText then some bulkDoc else none

def allSet : Callbacks := ⟨true, true, true, true, true, true, true, true⟩

/-- While the events of the bulk update are handled, the user sets a frequency. -/
theorem bulk_update_received :
    ∃ s, Reachable (next bulkRead) (fun _ _ => True) (.initial (key "K6AQ") (key "DM12") allSet) s ∧
      s.userCalls = [.onConnectionSuccessfulFn, .onMessageUpdateFn (key "a") (key "b") (key "c")] ∧
      s.agenda.length = 1 ∧ s.reporter.isFullyConnected = true ∧ s.reporter.hidden = false ∧
      s.operations.filter fromUser = [.freqChange 14236000] := by
  let actions : List Action :=
    [.on ⟨1, by decide⟩, .on ⟨6, by decide⟩, .on ⟨8, by decide⟩, .runTask, .runTask,
      .runTask, .message (key "42" ++ bulkText), .runTask, .visit, .visit,
      .operate (.freqChange 14236000), .visit]
  have executed :
      (runActions (next bulkRead) (fun _ _ => True) (.initial (key "K6AQ") (key "DM12") allSet)
        actions).map (fun s => (s.userCalls, s.agenda.length, s.reporter.isFullyConnected,
          s.reporter.hidden, s.operations.filter fromUser)) =
        some ([.onConnectionSuccessfulFn, .onMessageUpdateFn (key "a") (key "b") (key "c")], 1,
          true, false, [.freqChange 14236000]) := by
    decide +kernel
  obtain ⟨s, run, seen⟩ := Option.map_eq_some_iff.mp executed
  simp only [Prod.mk.injEq] at seen
  exact ⟨s, Reachable.start.of_runActions actions run, seen⟩

theorem events_are_handled_once_in_order_of_bulk_update :
    ∃ s : Client, s.userCalls =
        [.onConnectionSuccessfulFn, .onMessageUpdateFn (key "a") (key "b") (key "c")] ∧
      s.userCalls = s.handled.flatMap Handled.userCalls ∧
      s.handled.map Handled.call ++ s.agenda.flatMap (flattened (kinds s.eventFnMap)) =
        s.started.flatMap (fun started => flattened (kinds started.1) started.2) := by
  obtain ⟨s, reachable, calls, -⟩ := bulk_update_received
  have handled := events_are_handled_once_in_order bulkRead (key "K6AQ") (key "DM12") allSet s
    reachable
  exact ⟨s, calls, handled.2.2.2.1, handled.2.1⟩

end Client

end FreeDV.Reporting.FreeDVReporter
