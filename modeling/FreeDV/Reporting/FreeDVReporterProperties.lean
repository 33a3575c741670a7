import FreeDV.Lib.Simulation
import FreeDV.Reporting.FreeDVReporter

/-!
# When events are emitted

An event is only emitted by a reporter that may report and is fully connected,
except in two operations that leave out one of the gates.
-/

set_option autoImplicit false

namespace FreeDV.Reporting.FreeDVReporter

open FreeDV.Lib

variable {r r' : Reporter}

/-! ## Emissions -/

/-- A step of a reporter that stays as valid and as connected as it was, and only emits while it is
connected. -/
structure Reports (r r' : Reporter) : Prop where
  valid : isValidForReporting r' = isValidForReporting r
  connected : r'.isFullyConnected = r.isFullyConnected
  emitted : ∃ events : List Event,
    r'.emitted = r.emitted ++ events.map (⟨·, isValidForReporting r, true⟩) ∧
      (r.isFullyConnected = false → events = [])

theorem Reports.refl (r : Reporter) : Reports r r where
  valid := rfl
  connected := rfl
  emitted := ⟨[], by simp, fun _ => rfl⟩

theorem Reports.trans {r'' : Reporter} (first : Reports r r') (second : Reports r' r'') :
    Reports r r'' := by
  obtain ⟨events, emitted, idle⟩ := first.emitted
  obtain ⟨more, further, idle'⟩ := second.emitted
  refine ⟨second.valid.trans first.valid, second.connected.trans first.connected,
    events ++ more, ?_, ?_⟩
  · rw [further, emitted, first.valid, List.map_append, List.append_assoc]
  · intro unconnected
    rw [idle unconnected, idle' (first.connected.trans unconnected), List.append_nil]

theorem Reports.of_gate (event : Event)
    (valid : isValidForReporting r' = isValidForReporting r)
    (connected : r'.isFullyConnected = r.isFullyConnected)
    (emitted : r'.emitted = if r.isFullyConnected then (emit r event).emitted else r.emitted) :
    Reports r r' := by
  refine ⟨valid, connected, ?_⟩
  cases gate : r.isFullyConnected with
  | true =>
      refine ⟨[event], ?_, nofun⟩
      rw [emitted, gate, if_pos rfl, emit, gate]
      rfl
  | false =>
      refine ⟨[], ?_, fun _ => rfl⟩
      rw [emitted, gate, if_neg Bool.false_ne_true]
      simp

theorem freqChangeImpl_reports (r : Reporter) (frequency : UInt64) :
    Reports r (freqChangeImpl r frequency) := by
  refine .of_gate (.freqChange frequency) ?_ ?_ ?_
  all_goals
    unfold freqChangeImpl
    split <;> rfl

theorem transmitImpl_reports (r : Reporter) (mode : List UInt8) (tx : Bool) :
    Reports r (transmitImpl r mode tx) := by
  refine .of_gate (.txReport (cStr mode) tx) ?_ ?_ ?_
  all_goals
    unfold transmitImpl
    split <;> rfl

theorem sendMessageImpl_reports (r : Reporter) (message : List UInt8) :
    Reports r (sendMessageImpl r message) := by
  refine .of_gate (.messageUpdate (cStr message)) ?_ ?_ ?_
  all_goals
    unfold sendMessageImpl
    split <;> rfl

theorem hideFromViewImpl_reports (r : Reporter) : Reports r (hideFromViewImpl r) := by
  refine .of_gate .hideSelf ?_ ?_ ?_
  all_goals
    unfold hideFromViewImpl
    dsimp only
    split <;> rfl

/-- The three reports that the handlers replay. -/
def replay (r : Reporter) : Reporter :=
  let r := freqChangeImpl r r.lastFrequency
  let r := transmitImpl r r.mode r.tx
  sendMessageImpl r r.message

theorem replay_reports (r : Reporter) : Reports r (replay r) :=
  (freqChangeImpl_reports _ _).trans
    ((transmitImpl_reports _ _ _).trans (sendMessageImpl_reports _ _))

/-- The reporter as `showOurselvesImpl_` has announced it. -/
def announced (r : Reporter) : Reporter :=
  let r := { r with hidden := false }
  if r.isFullyConnected then emit r .showSelf else r

theorem showOurselvesImpl_reports (r : Reporter) : Reports r (showOurselvesImpl r) := by
  have first : Reports r (announced r) := by
    refine .of_gate .showSelf ?_ ?_ ?_
    all_goals
      unfold announced
      dsimp only
      split <;> rfl
  exact first.trans (replay_reports (announced r))

/-! ## The gates -/

/-- Every event was emitted by a valid reporter that was fully connected. -/
def GateKept (r : Reporter) : Prop :=
  ∀ emission ∈ r.emitted, emission.validForReporting = true ∧ emission.fullyConnected = true

/-- `requestQSY` does not look at `isFullyConnected_`, and the handler of `connection_successful`
does not ask whether the reporter is valid. -/
def passesGates (r : Reporter) : Operation → Bool
  | .requestQSY _ _ _ => !isValidForReporting r || r.isFullyConnected
  | .onConnectionSuccessful => isValidForReporting r
  | _ => true

theorem GateKept.reports_iff (reports : Reports r r') (valid : isValidForReporting r = true) :
    GateKept r' ↔ GateKept r := by
  obtain ⟨events, emitted, -⟩ := reports.emitted
  simp only [GateKept, emitted, List.mem_append, List.mem_map]
  constructor
  · intro kept emission member
    exact kept emission (.inl member)
  · rintro kept emission (old | ⟨event, _, rfl⟩)
    · exact kept emission old
    · exact ⟨valid, rfl⟩

theorem GateKept.valid_iff (reports : Reports r r') :
    GateKept (if isValidForReporting r then r' else r) ↔ GateKept r := by
  split
  case isTrue valid => exact reports_iff reports valid
  case isFalse => exact Iff.rfl

theorem GateKept.emit_iff (event : Event) :
    GateKept (emit r event) ↔
      GateKept r ∧ isValidForReporting r = true ∧ r.isFullyConnected = true := by
  simp only [GateKept, emit, List.mem_append, List.mem_singleton]
  constructor
  · intro kept
    exact ⟨fun emission member => kept emission (.inl member), kept _ (.inr rfl)⟩
  · rintro ⟨kept, gates⟩ emission (old | rfl)
    · exact kept emission old
    · exact gates

theorem inAnalogMode_reports (r : Reporter) (inAnalog : Bool) :
    Reports r (if inAnalog then hideFromView r else showOurselves r) := by
  unfold hideFromView showOurselves
  split
  · split
    · exact hideFromViewImpl_reports r
    · exact .refl r
  · split
    · exact showOurselvesImpl_reports r
    · exact .refl r

theorem requestQSY_gates (sid : List UInt8) (frequencyHz : UInt64) (message : List UInt8) :
    GateKept (requestQSY r sid frequencyHz message) ↔
      GateKept r ∧ passesGates r (.requestQSY sid frequencyHz message) = true := by
  unfold requestQSY passesGates
  split
  case isTrue valid =>
    rw [GateKept.emit_iff, valid]
    simp
  case isFalse invalid => simp [invalid]

/-- The reporter while the handler of `connection_successful` reports. -/
def accepted (r : Reporter) : Reporter :=
  { r with isFullyConnected := true, sinceConnection := [] }

theorem onConnectionSuccessful_reports (r : Reporter) :
    Reports (accepted r) (onConnectionSuccessful r) := by
  unfold onConnectionSuccessful
  dsimp only
  split
  · exact hideFromViewImpl_reports (accepted r)
  · exact replay_reports (accepted r)

/-- The handler always emits something. -/
theorem onConnectionSuccessful_emits (r : Reporter) :
    ∃ event, ⟨event, isValidForReporting r, true⟩ ∈ (onConnectionSuccessful r).emitted := by
  unfold onConnectionSuccessful
  dsimp only
  split
  case isTrue hidden =>
    exact ⟨.hideSelf, List.mem_append_right r.emitted (List.mem_singleton_self _)⟩
  case isFalse =>
    refine ⟨.freqChange r.lastFrequency, ?_⟩
    obtain ⟨events, emitted, -⟩ := ((transmitImpl_reports
      (freqChangeImpl (accepted r) r.lastFrequency) r.mode r.tx).trans
        (sendMessageImpl_reports _ r.message)).emitted
    have first : (⟨.freqChange r.lastFrequency, isValidForReporting r, true⟩ : Emission) ∈
        (freqChangeImpl (accepted r) r.lastFrequency).emitted :=
      List.mem_append_right r.emitted (List.mem_singleton_self _)
    exact emitted ▸ List.mem_append_left _ first

theorem onConnectionSuccessful_gates :
    GateKept (onConnectionSuccessful r) ↔
      GateKept r ∧ passesGates r .onConnectionSuccessful = true := by
  have reports := onConnectionSuccessful_reports r
  cases valid : isValidForReporting r with
  | true =>
      rw [GateKept.reports_iff reports valid, passesGates, valid]
      exact (and_iff_left rfl).symm
  | false =>
      obtain ⟨event, emitted⟩ := onConnectionSuccessful_emits r
      constructor
      · intro kept
        exact absurd ((kept _ emitted).1.symm.trans valid) Bool.noConfusion
      · intro passed
        exact absurd (passed.2.symm.trans valid) Bool.noConfusion

theorem operate_gates (r : Reporter) (operation : Operation) :
    GateKept (operate r operation) ↔ GateKept r ∧ passesGates r operation = true := by
  have free : ∀ after, (GateKept after ↔ GateKept r) → (GateKept after ↔ GateKept r ∧ true = true) := by
    intro after same
    rw [same, and_iff_left rfl]
  cases operation with
  | requestQSY sid frequencyHz message => exact requestQSY_gates sid frequencyHz message
  | onConnectionSuccessful => exact onConnectionSuccessful_gates
  | updateMessage message => exact free _ (GateKept.valid_iff (sendMessageImpl_reports r message))
  | freqChange frequency => exact free _ (GateKept.valid_iff (freqChangeImpl_reports r frequency))
  | transmit mode tx => exact free _ (GateKept.valid_iff (transmitImpl_reports r mode tx))
  | hideFromView => exact free _ (GateKept.valid_iff (hideFromViewImpl_reports r))
  | showOurselves => exact free _ (GateKept.valid_iff (showOurselvesImpl_reports r))
  | inAnalogMode inAnalog => exact free _ (GateKept.valid_iff (inAnalogMode_reports r inAnalog))
  | addReceiveRecord callsign mode snr =>
      refine free _ ?_
      simp only [operate, addReceiveRecord]
      split
      case isTrue gates =>
        rw [GateKept.emit_iff]
        exact and_iff_left gates
      case isFalse => exact Iff.rfl
  | connect => exact free _ Iff.rfl
  | send => exact free _ Iff.rfl
  | onConnect => exact free _ Iff.rfl
  | onDisconnect => exact free _ Iff.rfl

/-! ## Silence -/

/-- Validity never changes, and only the server's word connects a reporter. -/
structure Silent (r r' : Reporter) : Prop where
  emitted : r'.emitted = r.emitted
  valid : isValidForReporting r' = isValidForReporting r
  connected : r.isFullyConnected = false → r'.isFullyConnected = false

theorem Silent.refl (r : Reporter) : Silent r r := ⟨rfl, rfl, id⟩

theorem Silent.of_reports (reports : Reports r r')
    (gate : isValidForReporting r = false ∨ r.isFullyConnected = false) :
    Silent r (if isValidForReporting r then r' else r) := by
  split
  case isTrue valid =>
    have unconnected : r.isFullyConnected = false :=
      gate.resolve_left fun invalid => Bool.noConfusion (valid.symm.trans invalid)
    obtain ⟨events, emitted, idle⟩ := reports.emitted
    refine ⟨?_, reports.valid, fun _ => reports.connected.trans unconnected⟩
    rw [emitted, idle unconnected, List.map_nil, List.append_nil]
  case isFalse => exact .refl r

theorem operate_silent {operation : Operation} (passed : passesGates r operation = true)
    (gate : isValidForReporting r = false ∨
      r.isFullyConnected = false ∧ operation ≠ .onConnectionSuccessful) :
    Silent r (operate r operation) := by
  have either : isValidForReporting r = false ∨ r.isFullyConnected = false :=
    gate.imp_right And.left
  cases operation with
  | requestQSY sid frequencyHz message =>
      have invalid : isValidForReporting r = false := by
        rcases either with invalid | unconnected
        · exact invalid
        · simpa [passesGates, unconnected] using passed
      simp only [operate, requestQSY, invalid, Bool.false_eq_true, if_false]
      exact .refl r
  | onConnectionSuccessful =>
      rcases gate with invalid | ⟨-, other⟩
      · exact Bool.noConfusion (invalid.symm.trans passed)
      · exact absurd rfl other
  | updateMessage message => exact .of_reports (sendMessageImpl_reports r message) either
  | freqChange frequency => exact .of_reports (freqChangeImpl_reports r frequency) either
  | transmit mode tx => exact .of_reports (transmitImpl_reports r mode tx) either
  | hideFromView => exact .of_reports (hideFromViewImpl_reports r) either
  | showOurselves => exact .of_reports (showOurselvesImpl_reports r) either
  | inAnalogMode inAnalog => exact .of_reports (inAnalogMode_reports r inAnalog) either
  | addReceiveRecord callsign mode snr =>
      have closed : ¬ (isValidForReporting r = true ∧ r.isFullyConnected = true) := by
        rintro ⟨valid, connected⟩
        rcases either with invalid | unconnected
        · exact Bool.noConfusion (valid.symm.trans invalid)
        · exact Bool.noConfusion (connected.symm.trans unconnected)
      simp only [operate, addReceiveRecord, if_neg closed]
      exact .refl r
  | connect => exact ⟨rfl, rfl, fun _ => rfl⟩
  | send => exact .refl r
  | onConnect => exact ⟨rfl, rfl, id⟩
  | onDisconnect => exact ⟨rfl, rfl, fun _ => rfl⟩

theorem foldl_silent_of_invalid {operations : List Operation}
    (passed : AllSteps operate (fun r operation => passesGates r operation = true) r operations)
    (invalid : isValidForReporting r = false) :
    (operations.foldl operate r).emitted = r.emitted := by
  have kept := passed.invariant
    (fun after => after.emitted = r.emitted ∧ isValidForReporting after = false) ?_ ⟨rfl, invalid⟩
  · exact kept.1
  · intro after operation same passed
    have silent := operate_silent passed (.inl same.2)
    exact ⟨silent.emitted.trans same.1, silent.valid.trans same.2⟩

theorem foldl_silent_of_unconnected {operations : List Operation}
    (passed : AllSteps operate (fun r operation => passesGates r operation = true) r operations)
    (unconnected : r.isFullyConnected = false) (never : .onConnectionSuccessful ∉ operations) :
    (operations.foldl operate r).emitted = r.emitted := by
  induction operations generalizing r with
  | nil => rfl
  | cons operation rest ih =>
      have other : operation ≠ .onConnectionSuccessful :=
        fun same => never (same ▸ List.mem_cons_self)
      have silent := operate_silent passed.1 (.inr ⟨unconnected, other⟩)
      have later := ih passed.2 (silent.connected unconnected)
        fun member => never (List.mem_cons_of_mem operation member)
      exact later.trans silent.emitted

/-- All events pass both gates exactly if no `requestQSY` of a valid reporter comes while it is not
connected and no `connection_successful` reaches one that is not valid. Then a view-only reporter
emits nothing, and nothing is emitted from a disconnect to the next `connection_successful`. -/
theorem emissions_pass_the_gates (callsign gridSquare : List UInt8) (operations : List Operation) :
    (GateKept (operations.foldl operate (make callsign gridSquare)) ↔
      AllSteps operate (fun r operation => passesGates r operation = true)
        (make callsign gridSquare) operations) ∧
    (AllSteps operate (fun r operation => passesGates r operation = true)
        (make callsign gridSquare) operations →
      (isValidForReporting (make callsign gridSquare) = false →
        (operations.foldl operate (make callsign gridSquare)).emitted = []) ∧
      ∀ before after, operations = before ++ .onDisconnect :: after →
        .onConnectionSuccessful ∉ after →
          (operations.foldl operate (make callsign gridSquare)).emitted =
            (before.foldl operate (make callsign gridSquare)).emitted) := by
  constructor
  · have start : GateKept (make callsign gridSquare) := by
      intro emission member
      cases member
    rw [foldl_iff_allSteps GateKept operate_gates, and_iff_right start]
  · intro passed
    constructor
    · intro invalid
      exact foldl_silent_of_invalid passed invalid
    · rintro before after rfl never
      obtain ⟨_, disconnected, passed⟩ := (AllSteps.append_iff _ _ _).mp passed
      rw [List.foldl_append, List.foldl_cons]
      exact foldl_silent_of_unconnected passed rfl never

/-- A valid reporter asks for a QSY before it has ever been connected; a view-only reporter reports
its initial settings when the server accepts it. -/
theorem two_operations_miss_a_gate :
    ¬ GateKept ([.requestQSY [0x31] 14236000 []].foldl operate (make [0x4e] [0x43])) ∧
      ¬ GateKept ([.connect, .onConnect, .onConnectionSuccessful].foldl operate (make [] [])) := by
  unfold GateKept
  decide

end FreeDV.Reporting.FreeDVReporter
