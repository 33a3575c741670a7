import Mathlib.Data.List.Basic

/-!
# The FreeDV Reporter client

What `FreeDVReporter` remembers, and which events it emits when. Its operations
and the handlers of server events run one after the other under `objMutex_`, so
each of them is one step; the user's callbacks do not call back into the
reporter. Strings are their bytes, and JSON values get what `c_str` shows of them.

Every emission carries what the two gates said at its moment. `emitted` and
`sinceConnection` record what happened and are not read.
-/

set_option autoImplicit false

namespace FreeDV.Reporting.FreeDVReporter

/-- The C string of a `std::string`. -/
def cStr (text : List UInt8) : List UInt8 := text.takeWhile (· ≠ 0)

inductive Event where
  | freqChange (freq : UInt64)
  | txReport (mode : List UInt8) (transmitting : Bool)
  | messageUpdate (message : List UInt8)
  | hideSelf
  | showSelf
  | rxReport (callsign mode : List UInt8) (snr : Int)
  | qsyRequest (destSid message : List UInt8) (frequency : UInt64)
deriving DecidableEq

structure Emission where
  event : Event
  validForReporting : Bool
  fullyConnected : Bool
deriving DecidableEq

structure Reporter where
  callsign : List UInt8
  gridSquare : List UInt8
  isConnecting : Bool
  isFullyConnected : Bool
  lastFrequency : UInt64
  mode : List UInt8
  tx : Bool
  hidden : Bool
  message : List UInt8
  emitted : List Emission
  /-- The events emitted since the last `connection_successful`. -/
  sinceConnection : List Event

/-- The constructor. -/
def make (callsign gridSquare : List UInt8) : Reporter where
  callsign := callsign
  gridSquare := gridSquare
  isConnecting := false
  isFullyConnected := false
  lastFrequency := 0
  mode := []
  tx := false
  hidden := false
  message := []
  emitted := []
  sinceConnection := []

def isValidForReporting (r : Reporter) : Bool := r.callsign ≠ [] ∧ r.gridSquare ≠ []

def emit (r : Reporter) (event : Event) : Reporter :=
  { r with
    emitted := r.emitted ++ [⟨event, isValidForReporting r, r.isFullyConnected⟩]
    sinceConnection := r.sinceConnection ++ [event] }

/-! ## Reports -/

def freqChangeImpl (r : Reporter) (frequency : UInt64) : Reporter :=
  let r := if r.isFullyConnected then emit r (.freqChange frequency) else r
  { r with lastFrequency := frequency }

def transmitImpl (r : Reporter) (mode : List UInt8) (tx : Bool) : Reporter :=
  let r := if r.isFullyConnected then emit r (.txReport (cStr mode) tx) else r
  { r with mode := mode, tx := tx }

def sendMessageImpl (r : Reporter) (message : List UInt8) : Reporter :=
  let r := if r.isFullyConnected then emit r (.messageUpdate (cStr message)) else r
  { r with message := message }

def hideFromViewImpl (r : Reporter) : Reporter :=
  let r := { r with hidden := true }
  if r.isFullyConnected then emit r .hideSelf else r

def showOurselvesImpl (r : Reporter) : Reporter :=
  let r := { r with hidden := false }
  let r := if r.isFullyConnected then emit r .showSelf else r
  let r := freqChangeImpl r r.lastFrequency
  let r := transmitImpl r r.mode r.tx
  sendMessageImpl r r.message

/-! ## Operations -/

def requestQSY (r : Reporter) (sid : List UInt8) (frequencyHz : UInt64) (message : List UInt8) :
    Reporter :=
  if isValidForReporting r then emit r (.qsyRequest (cStr sid) (cStr message) frequencyHz) else r

def updateMessage (r : Reporter) (message : List UInt8) : Reporter :=
  if isValidForReporting r then sendMessageImpl r message else r

def freqChange (r : Reporter) (frequency : UInt64) : Reporter :=
  if isValidForReporting r then freqChangeImpl r frequency else r

def transmit (r : Reporter) (mode : List UInt8) (tx : Bool) : Reporter :=
  if isValidForReporting r then transmitImpl r mode tx else r

def hideFromView (r : Reporter) : Reporter :=
  if isValidForReporting r then hideFromViewImpl r else r

def showOurselves (r : Reporter) : Reporter :=
  if isValidForReporting r then showOurselvesImpl r else r

def inAnalogMode (r : Reporter) (inAnalog : Bool) : Reporter :=
  if isValidForReporting r then if inAnalog then hideFromView r else showOurselves r else r

def addReceiveRecord (r : Reporter) (callsign mode : List UInt8) (snr : Int8) : Reporter :=
  if isValidForReporting r = true ∧ r.isFullyConnected = true then
    emit r (.rxReport (cStr callsign) (cStr mode) snr.toInt)
  else r

/-- `connect_`, as far as the flags go. -/
def connect (r : Reporter) : Reporter :=
  { r with isConnecting := true, isFullyConnected := false }

/-- The handler of the socket's connection. -/
def onConnect (r : Reporter) : Reporter := { r with isConnecting := false }

def onDisconnect (r : Reporter) : Reporter :=
  { r with isConnecting := false, isFullyConnected := false }

/-- The handler of `connection_successful`. -/
def onConnectionSuccessful (r : Reporter) : Reporter :=
  let r := { r with isFullyConnected := true, sinceConnection := [] }
  if r.hidden then hideFromViewImpl r
  else
    let r := freqChangeImpl r r.lastFrequency
    let r := transmitImpl r r.mode r.tx
    sendMessageImpl r r.message

inductive Operation where
  | connect
  | requestQSY (sid : List UInt8) (frequencyHz : UInt64) (message : List UInt8)
  | updateMessage (message : List UInt8)
  | freqChange (frequency : UInt64)
  | transmit (mode : List UInt8) (tx : Bool)
  | hideFromView
  | showOurselves
  | inAnalogMode (inAnalog : Bool)
  -- the third parameter of the source, a frequency, has no name and no use
  | addReceiveRecord (callsign mode : List UInt8) (snr : Int8)
  | send
  -- from the socket and the server
  | onConnect
  | onDisconnect
  | onConnectionSuccessful
deriving DecidableEq

def operate (r : Reporter) : Operation → Reporter
  | .connect => connect r
  | .requestQSY sid frequencyHz message => requestQSY r sid frequencyHz message
  | .updateMessage message => updateMessage r message
  | .freqChange frequency => freqChange r frequency
  | .transmit mode tx => transmit r mode tx
  | .hideFromView => hideFromView r
  | .showOurselves => showOurselves r
  | .inAnalogMode inAnalog => inAnalogMode r inAnalog
  | .addReceiveRecord callsign mode snr => addReceiveRecord r callsign mode snr
  | .send => r
  | .onConnect => onConnect r
  | .onDisconnect => onDisconnect r
  | .onConnectionSuccessful => onConnectionSuccessful r

/-! ## The server's side -/

/-- What the server knows of a session. -/
structure Session where
  frequency : Option UInt64
  mode : Option (List UInt8)
  tx : Option Bool
  message : Option (List UInt8)
  visible : Bool
deriving DecidableEq

def Session.blank : Session where
  frequency := none
  mode := none
  tx := none
  message := none
  visible := true

def Session.receive (session : Session) : Event → Session
  | .freqChange freq => { session with frequency := some freq }
  | .txReport mode transmitting => { session with mode := some mode, tx := some transmitting }
  | .messageUpdate message => { session with message := some message }
  | .hideSelf => { session with visible := false }
  | .showSelf => { session with visible := true }
  | .rxReport _ _ _ => session
  | .qsyRequest _ _ _ => session

def Event.isVisibility : Event → Bool
  | .hideSelf => true
  | .showSelf => true
  | _ => false

/-! ## What the user has set -/

structure Settings where
  frequency : UInt64
  mode : List UInt8
  tx : Bool
  message : List UInt8
deriving DecidableEq

def Settings.initial : Settings where
  frequency := 0
  mode := []
  tx := false
  message := []

def Settings.apply (settings : Settings) : Operation → Settings
  | .freqChange frequency => { settings with frequency := frequency }
  | .transmit mode tx => { settings with mode := mode, tx := tx }
  | .updateMessage message => { settings with message := message }
  | _ => settings

end FreeDV.Reporting.FreeDVReporter
