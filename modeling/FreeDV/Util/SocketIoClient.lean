import FreeDV.Lib.Depth
import FreeDV.Lib.Json

/-!
# Events of the socket.io client

`SocketIoClient` reads the events the server sends and calls the handler that is
registered for each. What a handler does is left to its owner: `run` gives the
calls made while it runs, or nothing if it does not return. An entry of
`eventFnMap_` without a function counts as no entry. `yyjson_read` is a parameter.
-/

set_option autoImplicit false

namespace FreeDV.Util.SocketIoClient

open Lib

/-- A handler was called for this event. -/
structure Call where
  eventName : List UInt8
  params : Option Json

/-- What a socket.io message makes the client do. -/
inductive Reaction where
  | callOnConnectFn
  | enqueue (eventDoc : Json)
  | disconnect
  | nothing

def handleSocketIoMessage (yyjsonRead : List UInt8 → Option Json) (ptr : List UInt8) : Reaction :=
  match ptr with
  | 48 :: _ => .callOnConnectFn
  | 50 :: rest =>
      match yyjsonRead (Json.cString rest) with
      | some eventDoc => .enqueue eventDoc
      | none => .nothing
  | 52 :: _ => .disconnect
  | _ => .nothing

/-- What an engine.io message makes the client do. -/
inductive EngineReaction where
  | startPingTimer
  | disconnect
  | pong
  | message (reaction : Reaction)
  | nothing

def handleEngineIoMessage (yyjsonRead : List UInt8 → Option Json) (ptr : List UInt8) :
    EngineReaction :=
  match ptr with
  | 48 :: _ => .startPingTimer
  | 49 :: _ => .disconnect
  | 50 :: _ => .pong
  | 52 :: rest => .message (handleSocketIoMessage yyjsonRead rest)
  | c :: _ => if 48 ≤ c ∧ c ≤ 57 then .nothing else .disconnect
  | [] => .disconnect

section Dispatch

variable {Handler : Type} (eventFnMap : List UInt8 → Option Handler)
  (run : Handler → Option Json → Option (List Call))

def fireEvent (eventName : List UInt8) (params : Option Json) : Option (List Call) :=
  match eventFnMap eventName with
  | none => some []
  | some fn => (run fn params).map (⟨eventName, params⟩ :: ·)

/-- The task enqueued for an event. -/
def handleEvent (eventDoc : Json) : Option (List Call) :=
  let eventRoot := some eventDoc
  let eventName := Json.arrGet eventRoot 0
  let eventArgs := Json.arrGet eventRoot 1
  if eventName.isSome then
    match Json.getStr eventName with
    | some eventStr => fireEvent eventFnMap run eventStr eventArgs
    | none => some []
  else some []

/-- The tasks enqueued by some messages are run in their order. -/
def receive (yyjsonRead : List UInt8 → Option Json) (messages : List (List UInt8)) :
    Option (List Call) :=
  inOrder messages fun ptr =>
    match handleSocketIoMessage yyjsonRead ptr with
    | .enqueue eventDoc => handleEvent eventFnMap run eventDoc
    | _ => some []

end Dispatch

/-- An event has a name; its argument may be missing. -/
def eventOf : Json → Option (List UInt8 × Option Json)
  | .arr (.str name :: rest) => some (Json.cString name, rest.head?)
  | _ => none

/-- An array whose first element is a string. -/
def isEvent : Json → Bool
  | .arr (.str _ :: _) => true
  | _ => false

theorem eventOf_eq_none {msg : Json} (other : isEvent msg = false) : eventOf msg = none := by
  unfold eventOf
  split
  · cases other
  · rfl

theorem eventOf_eq (msg : Json) :
    eventOf msg =
      (Json.getStr (Json.arrGet (some msg) 0)).map fun name =>
        (name, Json.arrGet (some msg) 1) := by
  unfold eventOf
  split
  · rename_i name rest
    cases rest <;> rfl
  · rename_i shape
    cases msg with
    | arr elements =>
        cases elements with
        | nil => rfl
        | cons first rest =>
            cases first with
            | str name => exact absurd rfl (shape name rest)
            | _ => rfl
    | _ => rfl

/-- A message that is no event calls nothing. -/
theorem handleEvent_eq {Handler : Type} (eventFnMap : List UInt8 → Option Handler)
    (run : Handler → Option Json → Option (List Call)) (msg : Json) :
    handleEvent eventFnMap run msg =
      match eventOf msg with
      | none => some []
      | some (name, params) => fireEvent eventFnMap run name params := by
  rw [eventOf_eq, handleEvent]
  cases first : Json.arrGet (some msg) 0 with
  | none => rfl
  | some eventName => cases Json.getStr (some eventName) <;> rfl

theorem sizeOf_lt_of_eventOf {msg nested : Json} {name : List UInt8} {params : Option Json}
    (event : eventOf msg = some (name, params)) (member : nested ∈ Json.elements params) :
    sizeOf nested < sizeOf msg := by
  rw [eventOf_eq] at event
  obtain ⟨text, -, same⟩ := Option.map_eq_some_iff.mp event
  cases params with
  | none => cases member
  | some value =>
      calc
        sizeOf nested < sizeOf value := Json.sizeOf_lt_of_mem_elements member
        _ < sizeOf msg := Json.sizeOf_lt_of_arrGet (Prod.mk.inj same).2

end FreeDV.Util.SocketIoClient
