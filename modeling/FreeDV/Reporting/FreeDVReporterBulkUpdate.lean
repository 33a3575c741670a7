import FreeDV.Util.SocketIoClient

/-!
# Bulk updates

The server packs several events into one `bulk_update`, whose handler sends them
through the client's dispatch again, so they may contain further bulk updates.
The other handlers do not fire events. A depth of calls is given to each handler;
at depth zero it cannot be called.
-/

set_option autoImplicit false

namespace FreeDV.Reporting.FreeDVReporter

open Lib Util.SocketIoClient

inductive Handler where
  | bulkUpdate
  | other
deriving DecidableEq

/-- `fire` is the client's `fireEvent`. A null pointer is no string. -/
def onFreeDVReporterBulkUpdate (fire : List UInt8 → Option Json → Option (List Call))
    (msgParams : Option Json) : Option (List Call) :=
  inOrder (Json.elements msgParams) fun msg =>
    let eventName := Json.arrGet (some msg) 0
    let eventArgs := Json.arrGet (some msg) 1
    if Json.isStr eventName then
      match Json.getStr eventName with
      | some eventNameStr => fire eventNameStr eventArgs
      | none => none
    else some []

section Registered

variable (eventFnMap : List UInt8 → Option Handler)

def runHandler : Nat → Handler → Option Json → Option (List Call)
  | 0, _, _ => none
  | depth + 1, .bulkUpdate, msgParams =>
      onFreeDVReporterBulkUpdate (fireEvent eventFnMap (runHandler depth)) msgParams
  | _ + 1, .other, _ => some []

/-- The events are sent by the server one at a time. -/
def deliver (depth : Nat) (events : List Json) : Option (List Call) :=
  inOrder events (handleEvent eventFnMap (runHandler eventFnMap depth))

/-! ## Flattening -/

/-- All calls an event leads to. -/
def flattened (msg : Json) : List Call :=
  match event : eventOf msg with
  | none => []
  | some (name, params) =>
      match eventFnMap name with
      | none => []
      | some .other => [⟨name, params⟩]
      | some .bulkUpdate =>
          ⟨name, params⟩ ::
            (Json.elements params).attach.flatMap fun nested =>
              have := sizeOf_lt_of_eventOf event nested.2
              flattened nested.1
termination_by sizeOf msg

variable {eventFnMap : List UInt8 → Option Handler}

/-- Inside a bulk update an event is checked in another way, with the same outcome. -/
theorem onFreeDVReporterBulkUpdate_eq (run : Handler → Option Json → Option (List Call))
    (msgParams : Option Json) :
    onFreeDVReporterBulkUpdate (fireEvent eventFnMap run) msgParams =
      inOrder (Json.elements msgParams) (handleEvent eventFnMap run) := by
  have same : ∀ msg : Json,
      (if Json.isStr (Json.arrGet (some msg) 0) then
        match Json.getStr (Json.arrGet (some msg) 0) with
        | some eventNameStr =>
            fireEvent eventFnMap run eventNameStr (Json.arrGet (some msg) 1)
        | none => none
      else some []) = handleEvent eventFnMap run msg := by
    intro msg
    rw [handleEvent]
    cases Json.arrGet (some msg) 0 with
    | none => rfl
    | some first => cases first <;> rfl
  exact congrArg (inOrder _) (funext same)

/-- An event ends, whatever it holds. -/
theorem ends_handleEvent (msg : Json) :
    Ends (fun depth => handleEvent eventFnMap (runHandler eventFnMap depth) msg)
      (flattened eventFnMap msg) := by
  rw [flattened]
  split
  · rename_i none
    refine ends_of_eq fun depth => ?_
    rw [handleEvent_eq, none]
  · rename_i name params event
    have fired : ∀ depth,
        handleEvent eventFnMap (runHandler eventFnMap depth) msg =
          fireEvent eventFnMap (runHandler eventFnMap depth) name params := by
      intro depth
      rw [handleEvent_eq, event]
    simp only [fired, fireEvent]
    cases registered : eventFnMap name with
    | none => exact ends_of_eq fun _ => rfl
    | some handler =>
        cases handler with
        | other => exact (Ends.deeper (ends_of_eq fun _ => rfl) fun _ => rfl).map _
        | bulkUpdate =>
            have nested : Ends
                (fun depth => inOrder (Json.elements params)
                  (handleEvent eventFnMap (runHandler eventFnMap depth)))
                ((Json.elements params).flatMap (flattened eventFnMap)) :=
              Ends.inOrder fun inner member =>
                have smaller := sizeOf_lt_of_eventOf event member
                ends_handleEvent inner
            have attached : (Json.elements params).attach.flatMap
                (fun nested => flattened eventFnMap nested.1) =
                  (Json.elements params).flatMap (flattened eventFnMap) := by
              simp
            rw [attached]
            exact (nested.deeper fun _ => onFreeDVReporterBulkUpdate_eq _ _).map _
termination_by sizeOf msg

theorem flattened_eq_nil {msg : Json} (other : isEvent msg = false) :
    flattened eventFnMap msg = [] := by
  have none := eventOf_eq_none other
  rw [flattened]
  split
  · rfl
  · rename_i event
    rw [none] at event
    cases event

theorem flatMap_filter_isEvent (messages : List Json) :
    (messages.filter isEvent).flatMap (flattened eventFnMap) =
      messages.flatMap (flattened eventFnMap) := by
  induction messages with
  | nil => rfl
  | cons msg rest ih =>
      cases event : isEvent msg with
      | true => rw [List.filter_cons_of_pos event, List.flatMap_cons, List.flatMap_cons, ih]
      | false =>
          rw [List.filter_cons_of_neg (by simp [event]), List.flatMap_cons,
            flattened_eq_nil event, ih, List.nil_append]

theorem ends_bulkUpdate (msgParams : Option Json) :
    Ends (fun depth => runHandler eventFnMap depth .bulkUpdate msgParams)
      ((Json.elements msgParams).flatMap (flattened eventFnMap)) :=
  (Ends.inOrder fun msg _ => ends_handleEvent msg).deeper fun _ =>
    onFreeDVReporterBulkUpdate_eq _ _

/-- A bulk update makes the calls that its events make when they are sent one by one, and these are
the calls of its flattened events. Without a list of events there are none. -/
theorem bulkUpdate_flattens (eventFnMap : List UInt8 → Option Handler)
    (msgParams : Option Json) :
    ∃ calls,
      Ends (fun depth => runHandler eventFnMap depth .bulkUpdate msgParams) calls ∧
      Ends (fun depth => deliver eventFnMap depth ((Json.elements msgParams).filter isEvent))
        calls ∧
      calls = (Json.elements msgParams).flatMap (flattened eventFnMap) ∧
      (calls = [] ∨ ∃ elements, msgParams = some (.arr elements)) := by
  refine ⟨_, ends_bulkUpdate msgParams, ?_, rfl, ?_⟩
  · rw [← flatMap_filter_isEvent]
    exact Ends.inOrder fun msg _ => ends_handleEvent msg
  · unfold Json.elements
    split
    · exact .inr ⟨_, rfl⟩
    · exact .inl rfl

/-- A bulk update inside of another, an event without a name and one without a handler. -/
example :
    runHandler (fun name => if name = [98] then some .bulkUpdate else
        if name = [102] then some .other else none) 3 .bulkUpdate
      (some (.arr [.null, .arr [.str [102]], .arr [.uint 1],
        .arr [.str [98], .arr [.arr [.str [120], .null], .arr [.str [102], .null]]]])) =
    some [⟨[102], none⟩,
      ⟨[98], some (.arr [.arr [.str [120], .null], .arr [.str [102], .null]])⟩,
      ⟨[102], some .null⟩] := by
  rfl

theorem flattened_bulkUpdate {msg : Json} {name : List UInt8} {params : Option Json}
    (event : eventOf msg = some (name, params)) (registered : eventFnMap name = some .bulkUpdate) :
    flattened eventFnMap msg =
      ⟨name, params⟩ :: (Json.elements params).flatMap (flattened eventFnMap) := by
  rw [flattened]
  split
  · rename_i none
    rw [event] at none
    cases none
  · rename_i again
    rw [event] at again
    cases again
    simp [registered]

/-! ## Messages -/

/-- All calls a message leads to. -/
def messageCalls (eventFnMap : List UInt8 → Option Handler)
    (yyjsonRead : List UInt8 → Option Json) (ptr : List UInt8) : List Call :=
  match handleSocketIoMessage yyjsonRead ptr with
  | .enqueue eventDoc => flattened eventFnMap eventDoc
  | _ => []

theorem messageCalls_event (yyjsonRead : List UInt8 → Option Json) (text : List UInt8) :
    messageCalls eventFnMap yyjsonRead (50 :: text) =
      (yyjsonRead (Json.cString text)).elim [] (flattened eventFnMap) := by
  rw [messageCalls, handleSocketIoMessage]
  cases yyjsonRead (Json.cString text) <;> rfl

theorem ends_receive (yyjsonRead : List UInt8 → Option Json) (messages : List (List UInt8)) :
    Ends (fun depth => receive eventFnMap (runHandler eventFnMap depth) yyjsonRead messages)
      (messages.flatMap (messageCalls eventFnMap yyjsonRead)) := by
  apply Ends.inOrder
  intro ptr _
  rw [messageCalls]
  cases handleSocketIoMessage yyjsonRead ptr with
  | enqueue eventDoc => exact ends_handleEvent eventDoc
  | callOnConnectFn => exact ends_of_eq fun _ => rfl
  | disconnect => exact ends_of_eq fun _ => rfl
  | nothing => exact ends_of_eq fun _ => rfl

/-- The server may send one message for all events of a list, or one for each. -/
theorem receive_bulk_update {yyjsonRead : List UInt8 → Option Json} {text name : List UInt8}
    {eventDoc : Json} {params : Option Json} {texts : List (List UInt8)}
    (read : yyjsonRead (Json.cString text) = some eventDoc)
    (event : eventOf eventDoc = some (name, params))
    (registered : eventFnMap name = some .bulkUpdate)
    (readEach : texts.map (fun text => yyjsonRead (Json.cString text)) =
      (Json.elements params).map some) :
    ∃ calls,
      Ends (fun depth =>
        receive eventFnMap (runHandler eventFnMap depth) yyjsonRead [50 :: text])
        (⟨name, params⟩ :: calls) ∧
      Ends (fun depth =>
        receive eventFnMap (runHandler eventFnMap depth) yyjsonRead (texts.map (50 :: ·)))
        calls := by
  have together : [50 :: text].flatMap (messageCalls eventFnMap yyjsonRead) =
      ⟨name, params⟩ :: (Json.elements params).flatMap (flattened eventFnMap) := by
    rw [List.flatMap_singleton, messageCalls_event, read, Option.elim_some,
      flattened_bulkUpdate event registered]
  have apart : (texts.map (50 :: ·)).flatMap (messageCalls eventFnMap yyjsonRead) =
      (Json.elements params).flatMap (flattened eventFnMap) := by
    calc
      (texts.map (50 :: ·)).flatMap (messageCalls eventFnMap yyjsonRead)
          = (texts.map fun text => yyjsonRead (Json.cString text)).flatMap
              fun eventDoc => eventDoc.elim [] (flattened eventFnMap) := by
            simp only [List.flatMap_map, messageCalls_event]
      _ = (Json.elements params).flatMap (flattened eventFnMap) := by
            rw [readEach, List.flatMap_map]
            rfl
  exact ⟨_, together ▸ ends_receive yyjsonRead _, apart ▸ ends_receive yyjsonRead _⟩

end Registered

end FreeDV.Reporting.FreeDVReporter
