import FreeDV.Lib.JsonFields
import FreeDV.Lib.Transition
import FreeDV.Reporting.FreeDVReporter
import FreeDV.Reporting.FreeDVReporterBulkUpdate

/-!
# Events from the server

The handlers of `FreeDVReporter` pass on what the server says about other stations
to the functions that its user has set. They run one after the other on the
client's thread, each under `objMutex_`, so that other threads may use the
reporter between any two of them, also inside of a bulk update.
-/

set_option autoImplicit false

namespace FreeDV.Reporting.FreeDVReporter

open Lib Lib.Json Util.SocketIoClient

/-! ## Calls of the user's functions -/

/-- An SNR before it becomes a `float`: an integer, or the bits of a `double`. -/
inductive Snr where
  | ofInt (value : Int32)
  | ofReal (bits : UInt64)
deriving DecidableEq

inductive UserCall where
  | onUserConnectFn (sid lastUpdate callsign gridSquare version : List UInt8) (rxOnly : Bool)
      (connectTime : List UInt8)
  | onUserDisconnectFn (sid lastUpdate callsign gridSquare version : List UInt8) (rxOnly : Bool)
      (connectTime : List UInt8)
  | onTransmitUpdateFn (sid lastUpdate callsign gridSquare txMode : List UInt8)
      (transmitting : Bool) (lastTx : List UInt8)
  | onReceiveUpdateFn (sid lastUpdate callsign gridSquare receivedCallsign : List UInt8)
      (snr : Snr) (rxMode : List UInt8)
  | onFrequencyChangeFn (sid lastUpdate callsign gridSquare : List UInt8) (frequency : UInt64)
  | onMessageUpdateFn (sid lastUpdate message : List UInt8)
  | onQsyRequestFn (callsign : List UInt8) (frequency : UInt64) (message : List UInt8)
  | onConnectionSuccessfulFn
deriving DecidableEq

/-- Which of the functions are set. -/
structure Callbacks where
  onUserConnectFn : Bool
  onUserDisconnectFn : Bool
  onTransmitUpdateFn : Bool
  onReceiveUpdateFn : Bool
  onFrequencyChangeFn : Bool
  onMessageUpdateFn : Bool
  onQsyRequestFn : Bool
  onConnectionSuccessfulFn : Bool

/-! ## Handlers -/

/-- A function is called if it is set and the data has the right types. -/
def callIf (fn typed : Bool) (call : UserCall) : List UserCall :=
  if fn then if typed then [call] else [] else []

variable (callbacks : Callbacks) (msgParams : Option Json)

def onFreeDVReporterNewConnection : List UserCall :=
  let sidJson := objGet msgParams (key "sid")
  let lastUpdateJson := objGet msgParams (key "last_update")
  let callsignJson := objGet msgParams (key "callsign")
  let gridSquareJson := objGet msgParams (key "grid_square")
  let versionJson := objGet msgParams (key "version")
  let rxOnlyJson := objGet msgParams (key "rx_only")
  let connTimeJson := objGet msgParams (key "connect_time")
  callIf callbacks.onUserConnectFn
    (isStr sidJson && isStr lastUpdateJson && isStr callsignJson && isStr gridSquareJson &&
      isStr versionJson && isBool rxOnlyJson && isStr connTimeJson)
    (.onUserConnectFn (text sidJson) (text lastUpdateJson) (text callsignJson)
      (text gridSquareJson) (text versionJson) (getBool rxOnlyJson) (text connTimeJson))

def onFreeDVReporterRemoveConnection : List UserCall :=
  let sidJson := objGet msgParams (key "sid")
  let lastUpdateJson := objGet msgParams (key "last_update")
  let callsignJson := objGet msgParams (key "callsign")
  let gridSquareJson := objGet msgParams (key "grid_square")
  let versionJson := objGet msgParams (key "version")
  let rxOnlyJson := objGet msgParams (key "rx_only")
  callIf callbacks.onUserDisconnectFn
    (isStr sidJson && isStr lastUpdateJson && isStr callsignJson && isStr gridSquareJson &&
      isStr versionJson && isBool rxOnlyJson)
    (.onUserDisconnectFn (text sidJson) (text lastUpdateJson) (text callsignJson)
      (text gridSquareJson) (text versionJson) (getBool rxOnlyJson) [])

def onFreeDVReporterTransmitReport : List UserCall :=
  let sidJson := objGet msgParams (key "sid")
  let lastUpdateJson := objGet msgParams (key "last_update")
  let callsignJson := objGet msgParams (key "callsign")
  let gridSquareJson := objGet msgParams (key "grid_square")
  let lastTxJson := objGet msgParams (key "last_tx")
  let modeJson := objGet msgParams (key "mode")
  let transmittingJson := objGet msgParams (key "transmitting")
  callIf callbacks.onTransmitUpdateFn
    (isStr sidJson && isStr lastUpdateJson && isStr callsignJson && isStr gridSquareJson &&
      isStr modeJson && isBool transmittingJson)
    (.onTransmitUpdateFn (text sidJson) (text lastUpdateJson) (text callsignJson)
      (text gridSquareJson) (text modeJson) (getBool transmittingJson)
      (if isStr lastTxJson then text lastTxJson else []))

def onFreeDVReporterReceiveReport : List UserCall :=
  let sid := objGet msgParams (key "sid")
  let lastUpdate := objGet msgParams (key "last_update")
  let receiverCallsign := objGet msgParams (key "receiver_callsign")
  let receiverGridSquare := objGet msgParams (key "receiver_grid_square")
  let callsign := objGet msgParams (key "callsign")
  let snr := objGet msgParams (key "snr")
  let mode := objGet msgParams (key "mode")
  let snrInteger := isInt snr
  let snrFloat := isReal snr
  let snrValid := snrInteger || snrFloat
  let snrVal : Snr :=
    if snrInteger then .ofInt (getInt snr) else if snrFloat then .ofReal (getReal snr) else .ofInt 0
  callIf callbacks.onReceiveUpdateFn
    (isStr sid && isStr lastUpdate && isStr callsign && isStr receiverCallsign &&
      isStr receiverGridSquare && isStr mode && snrValid)
    (.onReceiveUpdateFn (text sid) (text lastUpdate) (text receiverCallsign)
      (text receiverGridSquare) (text callsign) snrVal (text mode))

def onFreeDVReporterFrequencyChange : List UserCall :=
  let sid := objGet msgParams (key "sid")
  let lastUpdate := objGet msgParams (key "last_update")
  let callsign := objGet msgParams (key "callsign")
  let gridSquare := objGet msgParams (key "grid_square")
  let frequency := objGet msgParams (key "freq")
  callIf callbacks.onFrequencyChangeFn
    (isStr sid && isStr lastUpdate && isStr callsign && isStr gridSquare && isUint frequency)
    (.onFrequencyChangeFn (text sid) (text lastUpdate) (text callsign) (text gridSquare)
      (getUint frequency))

def onFreeDVReporterMessageUpdate : List UserCall :=
  let sid := objGet msgParams (key "sid")
  let lastUpdate := objGet msgParams (key "last_update")
  let message := objGet msgParams (key "message")
  callIf callbacks.onMessageUpdateFn (isStr sid && isStr lastUpdate && isStr message)
    (.onMessageUpdateFn (text sid) (text lastUpdate) (text message))

def onFreeDVReporterQsyRequest : List UserCall :=
  let callsign := objGet msgParams (key "callsign")
  let frequency := objGet msgParams (key "frequency")
  let message := objGet msgParams (key "message")
  callIf callbacks.onQsyRequestFn (isStr callsign && isUint frequency && isStr message)
    (.onQsyRequestFn (text callsign) (getUint frequency) (text message))

/-- The user is told before the reports are made. -/
def onFreeDVReporterConnectionSuccessful : List UserCall :=
  callIf callbacks.onConnectionSuccessfulFn true .onConnectionSuccessfulFn

inductive EventHandler where
  | newConnection
  | connectionSuccessful
  | removeConnection
  | transmitReport
  | receiveReport
  | frequencyChange
  | messageUpdate
  | qsyRequest
  | bulkUpdate
deriving DecidableEq

/-- The events that `connect_` registers handlers for, in this order. -/
def registrations : List (List UInt8 × EventHandler) :=
  [(key "new_connection", .newConnection), (key "connection_successful", .connectionSuccessful),
    (key "remove_connection", .removeConnection), (key "tx_report", .transmitReport),
    (key "rx_report", .receiveReport), (key "freq_change", .frequencyChange),
    (key "message_update", .messageUpdate), (key "qsy_request", .qsyRequest),
    (key "bulk_update", .bulkUpdate)]

/-- What a handler tells the user; the events of a bulk update come behind it. -/
def EventHandler.userCalls : EventHandler → List UserCall
  | .newConnection => onFreeDVReporterNewConnection callbacks msgParams
  | .connectionSuccessful => onFreeDVReporterConnectionSuccessful callbacks
  | .removeConnection => onFreeDVReporterRemoveConnection callbacks msgParams
  | .transmitReport => onFreeDVReporterTransmitReport callbacks msgParams
  | .receiveReport => onFreeDVReporterReceiveReport callbacks msgParams
  | .frequencyChange => onFreeDVReporterFrequencyChange callbacks msgParams
  | .messageUpdate => onFreeDVReporterMessageUpdate callbacks msgParams
  | .qsyRequest => onFreeDVReporterQsyRequest callbacks msgParams
  | .bulkUpdate => []

/-- What a handler does to the reporter. -/
def EventHandler.operation : EventHandler → Option Operation
  | .connectionSuccessful => some .onConnectionSuccessful
  | _ => none

def EventHandler.kind : EventHandler → Handler
  | .bulkUpdate => .bulkUpdate
  | _ => .other

/-! ## What an event says -/

/-- What a member of the event's object is passed on as. -/
inductive Field where
  | text (value : List UInt8)
  | flag (value : Bool)
  | count (value : UInt64)
  | level (value : Snr)
  /-- Nothing is passed on for a value that is no text. -/
  | optional (value : List UInt8)
  /-- Nothing is passed on. -/
  | unread (value : List UInt8)

def Field.Shows : Field → Option Json → Prop
  | .text value, member => ∃ bytes, member = some (.str bytes) ∧ value = cString bytes
  | .flag value, member => member = some (.bool value)
  | .count value, member => member = some (.uint value)
  | .level (.ofInt value), member =>
      (∃ number : UInt64, member = some (.uint number) ∧ value = number.toUInt32.toInt32) ∨
        ∃ number : Int64, member = some (.sint number) ∧ value = number.toInt32
  | .level (.ofReal bits), member => member = some (.real bits)
  | .optional value, member =>
      (∃ bytes, member = some (.str bytes) ∧ value = cString bytes) ∨
        (∀ bytes, member ≠ some (.str bytes)) ∧ value = []
  | .unread value, _ => value = []

namespace UserCall

def handler : UserCall → EventHandler
  | .onUserConnectFn .. => .newConnection
  | .onUserDisconnectFn .. => .removeConnection
  | .onTransmitUpdateFn .. => .transmitReport
  | .onReceiveUpdateFn .. => .receiveReport
  | .onFrequencyChangeFn .. => .frequencyChange
  | .onMessageUpdateFn .. => .messageUpdate
  | .onQsyRequestFn .. => .qsyRequest
  | .onConnectionSuccessfulFn => .connectionSuccessful

def isSet (callbacks : Callbacks) : UserCall → Bool
  | .onUserConnectFn .. => callbacks.onUserConnectFn
  | .onUserDisconnectFn .. => callbacks.onUserDisconnectFn
  | .onTransmitUpdateFn .. => callbacks.onTransmitUpdateFn
  | .onReceiveUpdateFn .. => callbacks.onReceiveUpdateFn
  | .onFrequencyChangeFn .. => callbacks.onFrequencyChangeFn
  | .onMessageUpdateFn .. => callbacks.onMessageUpdateFn
  | .onQsyRequestFn .. => callbacks.onQsyRequestFn
  | .onConnectionSuccessfulFn => callbacks.onConnectionSuccessfulFn

/-- The members of an event's object, under their names. -/
def fields : UserCall → List (String × Field)
  | .onUserConnectFn sid lastUpdate callsign gridSquare version rxOnly connectTime =>
      [("sid", .text sid), ("last_update", .text lastUpdate), ("callsign", .text callsign),
        ("grid_square", .text gridSquare), ("version", .text version), ("rx_only", .flag rxOnly),
        ("connect_time", .text connectTime)]
  | .onUserDisconnectFn sid lastUpdate callsign gridSquare version rxOnly connectTime =>
      [("sid", .text sid), ("last_update", .text lastUpdate), ("callsign", .text callsign),
        ("grid_square", .text gridSquare), ("version", .text version), ("rx_only", .flag rxOnly),
        ("connect_time", .unread connectTime)]
  | .onTransmitUpdateFn sid lastUpdate callsign gridSquare txMode transmitting lastTx =>
      [("sid", .text sid), ("last_update", .text lastUpdate), ("callsign", .text callsign),
        ("grid_square", .text gridSquare), ("mode", .text txMode),
        ("transmitting", .flag transmitting), ("last_tx", .optional lastTx)]
  | .onReceiveUpdateFn sid lastUpdate callsign gridSquare receivedCallsign snr rxMode =>
      [("sid", .text sid), ("last_update", .text lastUpdate), ("receiver_callsign", .text callsign),
        ("receiver_grid_square", .text gridSquare), ("callsign", .text receivedCallsign),
        ("snr", .level snr), ("mode", .text rxMode)]
  | .onFrequencyChangeFn sid lastUpdate callsign gridSquare frequency =>
      [("sid", .text sid), ("last_update", .text lastUpdate), ("callsign", .text callsign),
        ("grid_square", .text gridSquare), ("freq", .count frequency)]
  | .onMessageUpdateFn sid lastUpdate message =>
      [("sid", .text sid), ("last_update", .text lastUpdate), ("message", .text message)]
  | .onQsyRequestFn callsign frequency message =>
      [("callsign", .text callsign), ("frequency", .count frequency), ("message", .text message)]
  | .onConnectionSuccessfulFn => []

/-- The event says what the user is told. -/
def ShownBy (call : UserCall) (msgParams : Option Json) : Prop :=
  ∀ field ∈ call.fields, field.2.Shows (objGet msgParams (key field.1))

end UserCall

theorem shows_text {value : List UInt8} {member : Option Json} :
    (Field.text value).Shows member ↔ isStr member = true ∧ value = text member := by
  rw [← getStr_eq_some_iff, Field.Shows]
  unfold getStr
  split
  · simp [eq_comm]
  · rename_i other
    simp only [reduceCtorEq, iff_false]
    rintro ⟨bytes, same, -⟩
    exact other bytes same

theorem shows_flag {value : Bool} {member : Option Json} :
    (Field.flag value).Shows member ↔ isBool member = true ∧ value = getBool member :=
  eq_bool_iff

theorem shows_count {value : UInt64} {member : Option Json} :
    (Field.count value).Shows member ↔ isUint member = true ∧ value = getUint member :=
  eq_uint_iff

theorem shows_optional {value : List UInt8} {member : Option Json} :
    (Field.optional value).Shows member ↔ value = if isStr member then text member else [] := by
  rw [Field.Shows]
  unfold isStr
  split
  · simp [text, getStr]
  · rename_i other
    simp only [Bool.false_eq_true, if_false]
    constructor
    · rintro (⟨bytes, same, -⟩ | ⟨-, same⟩)
      · exact absurd same (other bytes)
      · exact same
    · intro same
      exact .inr ⟨other, same⟩

theorem shows_unread {value : List UInt8} {member : Option Json} :
    (Field.unread value).Shows member ↔ value = [] :=
  Iff.rfl

theorem shows_level {value : Snr} {member : Option Json} :
    (Field.level value).Shows member ↔
      (isInt member || isReal member) = true ∧
        value = if isInt member then .ofInt (getInt member)
          else if isReal member then .ofReal (getReal member) else .ofInt 0 := by
  cases value <;> unfold isInt isReal getInt getReal Field.Shows <;>
    (cases member with
    | none => simp
    | some value => cases value <;> simp [eq_comm])

theorem mem_callIf_iff {fn typed : Bool} {made call : UserCall} :
    call ∈ callIf fn typed made ↔ fn = true ∧ typed = true ∧ call = made := by
  unfold callIf
  cases fn <;> cases typed <;> simp

theorem callIf_length (fn typed : Bool) (made : UserCall) : (callIf fn typed made).length ≤ 1 := by
  unfold callIf
  cases fn <;> cases typed <;> simp

theorem userCalls_length (handler : EventHandler) (callbacks : Callbacks)
    (msgParams : Option Json) : (handler.userCalls callbacks msgParams).length ≤ 1 := by
  cases handler with
  | bulkUpdate => exact Nat.zero_le 1
  | _ => exact callIf_length _ _ _

theorem mem_userCalls_iff (handler : EventHandler) (callbacks : Callbacks)
    (msgParams : Option Json) (call : UserCall) :
    call ∈ handler.userCalls callbacks msgParams ↔
      call.handler = handler ∧ call.isSet callbacks = true ∧ call.ShownBy msgParams := by
  cases handler with
  | newConnection
  | removeConnection
  | transmitReport
  | receiveReport
  | frequencyChange
  | messageUpdate
  | qsyRequest =>
      simp only [EventHandler.userCalls, onFreeDVReporterNewConnection,
        onFreeDVReporterRemoveConnection, onFreeDVReporterTransmitReport,
        onFreeDVReporterReceiveReport, onFreeDVReporterFrequencyChange,
        onFreeDVReporterMessageUpdate, onFreeDVReporterQsyRequest, mem_callIf_iff]
      cases call <;> simp [UserCall.handler, UserCall.isSet, UserCall.ShownBy, UserCall.fields,
        shows_text, shows_flag, shows_count, shows_optional, shows_level, shows_unread]
      -- of each field both sides say what type it has and what is passed on
      intro _
      exact iff_of_eq (by ac_rfl)
  | connectionSuccessful =>
      simp only [EventHandler.userCalls, onFreeDVReporterConnectionSuccessful, mem_callIf_iff]
      cases call <;> simp [UserCall.handler, UserCall.isSet, UserCall.ShownBy, UserCall.fields]
  | bulkUpdate => cases call <;> simp [EventHandler.userCalls, UserCall.handler]

/-- A handler calls the user's function just if it is set and all fields of the event have the right
types, and then with what they say; otherwise it calls nothing. -/
theorem user_is_told_what_events_say (handler : EventHandler) (callbacks : Callbacks)
    (msgParams : Option Json) :
    (∀ call, handler.userCalls callbacks msgParams = [call] ↔
      call.handler = handler ∧ call.isSet callbacks = true ∧ call.ShownBy msgParams) ∧
    (handler.userCalls callbacks msgParams = [] ↔
      ∀ call : UserCall, call.handler = handler → call.isSet callbacks = true →
        ¬ call.ShownBy msgParams) := by
  have member := mem_userCalls_iff handler callbacks msgParams
  have few := userCalls_length handler callbacks msgParams
  cases calls : handler.userCalls callbacks msgParams with
  | nil =>
      rw [calls] at member
      constructor
      · intro call
        rw [← member]
        simp
      · simp only [true_iff]
        intro call same set shown
        exact List.not_mem_nil ((member call).mpr ⟨same, set, shown⟩)
  | cons made rest =>
      rw [calls] at member few
      have alone : rest = [] :=
        List.eq_nil_of_length_eq_zero (Nat.le_zero.mp (Nat.le_of_succ_le_succ few))
      subst alone
      constructor
      · intro call
        rw [← member, List.mem_singleton, List.singleton_inj, eq_comm]
      · simp only [reduceCtorEq, false_iff]
        intro silent
        obtain ⟨same, set, shown⟩ := (member made).mp (List.mem_singleton_self made)
        exact silent made same set shown

end FreeDV.Reporting.FreeDVReporter
