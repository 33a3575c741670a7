import FreeDV.Reporting.FreeDVReporterProperties
import Mathlib.Data.List.TakeWhile

/-!
# What the server knows

The events since the last `connection_successful`, taken in by a server that
knew nothing, leave it with the settings the user made last: each report brings
one of them up to date, and connecting or showing up again replays them all.
-/

set_option autoImplicit false

namespace FreeDV.Reporting.FreeDVReporter

variable {r r' : Reporter}

/-! ## Sessions -/

/-- What the server makes of the events since it accepted the reporter. -/
def session (r : Reporter) : Session := r.sinceConnection.foldl Session.receive .blank

def lastVisibility (r : Reporter) : Option Event :=
  (r.sinceConnection.filter Event.isVisibility).getLast?

theorem session_emit (event : Event) : session (emit r event) = (session r).receive event := by
  rw [session, session, emit, List.foldl_append]
  rfl

theorem lastVisibility_emit (event : Event) :
    lastVisibility (emit r event) =
      if event.isVisibility then some event else lastVisibility r := by
  rw [lastVisibility, lastVisibility, emit, List.filter_append]
  cases visibility : event.isVisibility with
  | true => simp [visibility]
  | false => simp [visibility]

/-- The session of a user with these settings, as the server knows it. -/
def reported (settings : Settings) : Session where
  frequency := some settings.frequency
  mode := some (cStr settings.mode)
  tx := some settings.tx
  message := some (cStr settings.message)
  visible := true

/-- What the reporter remembers. -/
def settings (r : Reporter) : Settings := ⟨r.lastFrequency, r.mode, r.tx, r.message⟩

theorem freqChangeImpl_remembers (r : Reporter) (frequency : UInt64) :
    settings (freqChangeImpl r frequency) = { settings r with frequency := frequency } ∧
      (freqChangeImpl r frequency).hidden = r.hidden := by
  unfold freqChangeImpl
  split <;> exact ⟨rfl, rfl⟩

theorem transmitImpl_remembers (r : Reporter) (mode : List UInt8) (tx : Bool) :
    settings (transmitImpl r mode tx) = { settings r with mode := mode, tx := tx } ∧
      (transmitImpl r mode tx).hidden = r.hidden := by
  unfold transmitImpl
  split <;> exact ⟨rfl, rfl⟩

theorem sendMessageImpl_remembers (r : Reporter) (message : List UInt8) :
    settings (sendMessageImpl r message) = { settings r with message := message } ∧
      (sendMessageImpl r message).hidden = r.hidden := by
  unfold sendMessageImpl
  split <;> exact ⟨rfl, rfl⟩

theorem replay_remembers (r : Reporter) :
    settings (replay r) = settings r ∧ (replay r).hidden = r.hidden := by
  let first := freqChangeImpl r r.lastFrequency
  let second := transmitImpl first first.mode first.tx
  have firstKept := freqChangeImpl_remembers r r.lastFrequency
  have secondKept := transmitImpl_remembers first first.mode first.tx
  have thirdKept := sendMessageImpl_remembers second second.message
  constructor
  · calc settings (replay r) = settings second := thirdKept.1
      _ = settings first := secondKept.1
      _ = settings r := firstKept.1
  · exact thirdKept.2.trans (secondKept.2.trans firstKept.2)

/-- Connected and shown, the reporter has told the server all its settings; connected and hidden,
it has last told it to hide. -/
structure Replayed (r : Reporter) : Prop where
  visible : r.isFullyConnected = true → r.hidden = false → session r = reported (settings r)
  hidden : r.isFullyConnected = true → r.hidden = true → lastVisibility r = some .hideSelf

theorem Replayed.report (ok : Replayed r) (event : Event)
    (connected : r'.isFullyConnected = r.isFullyConnected) (hidden : r'.hidden = r.hidden)
    (since : r'.sinceConnection =
      if r.isFullyConnected then (emit r event).sinceConnection else r.sinceConnection)
    (effect : (reported (settings r)).receive event = reported (settings r'))
    (other : event.isVisibility = false) : Replayed r' := by
  constructor
  · intro connected' visible
    rw [connected] at connected'
    rw [hidden] at visible
    rw [connected', if_pos rfl] at since
    rw [session, since, ← session, session_emit, ok.visible connected' visible, effect]
  · intro connected' invisible
    rw [connected] at connected'
    rw [hidden] at invisible
    rw [connected', if_pos rfl] at since
    rw [lastVisibility, since, ← lastVisibility, lastVisibility_emit, other,
      if_neg Bool.false_ne_true]
    exact ok.hidden connected' invisible

theorem Replayed.freqChangeImpl (ok : Replayed r) (frequency : UInt64) :
    Replayed (freqChangeImpl r frequency) := by
  refine ok.report (.freqChange frequency) ?_ ?_ ?_ ?_ rfl
  all_goals
    unfold FreeDVReporter.freqChangeImpl
    split <;> rfl

theorem Replayed.transmitImpl (ok : Replayed r) (mode : List UInt8) (tx : Bool) :
    Replayed (transmitImpl r mode tx) := by
  refine ok.report (.txReport (cStr mode) tx) ?_ ?_ ?_ ?_ rfl
  all_goals
    unfold FreeDVReporter.transmitImpl
    split <;> rfl

theorem Replayed.sendMessageImpl (ok : Replayed r) (message : List UInt8) :
    Replayed (sendMessageImpl r message) := by
  refine ok.report (.messageUpdate (cStr message)) ?_ ?_ ?_ ?_ rfl
  all_goals
    unfold FreeDVReporter.sendMessageImpl
    split <;> rfl

theorem hideFromViewImpl_replayed (r : Reporter) : Replayed (hideFromViewImpl r) := by
  unfold hideFromViewImpl
  dsimp only
  split
  case isTrue connected =>
    refine ⟨fun _ => nofun, fun _ _ => ?_⟩
    rw [lastVisibility_emit]
    rfl
  case isFalse unconnected => exact ⟨fun connected => absurd connected unconnected,
    fun connected => absurd connected unconnected⟩

/-- The replay tells the server everything but the visibility. -/
theorem session_replay (connected : r.isFullyConnected = true) :
    session (replay r) = { reported (settings r) with visible := (session r).visible } := by
  have events : (replay r).sinceConnection = r.sinceConnection ++
      [.freqChange r.lastFrequency, .txReport (cStr r.mode) r.tx, .messageUpdate (cStr r.message)] := by
    simp [replay, freqChangeImpl, transmitImpl, sendMessageImpl, emit, connected]
  rw [session, events, List.foldl_append]
  rfl

theorem replay_replayed (shown : r.hidden = false)
    (visible : r.isFullyConnected = true → (session r).visible = true) : Replayed (replay r) := by
  constructor
  · intro connected _
    rw [(replay_reports r).connected] at connected
    rw [session_replay connected, visible connected, (replay_remembers r).1]
    rfl
  · intro _ hidden
    rw [(replay_remembers r).2, shown] at hidden
    cases hidden

theorem showOurselvesImpl_replayed (r : Reporter) : Replayed (showOurselvesImpl r) := by
  have shown : (announced r).hidden = false := by
    unfold announced
    dsimp only
    split <;> rfl
  refine replay_replayed (r := announced r) shown ?_
  unfold announced
  dsimp only
  split
  case isTrue =>
    intro _
    rw [session_emit]
    rfl
  case isFalse unconnected =>
    intro connected
    exact absurd connected unconnected

theorem showOurselvesImpl_settings (r : Reporter) :
    settings (showOurselvesImpl r) = settings r := by
  have same : settings (announced r) = settings r := by
    unfold announced
    dsimp only
    split <;> rfl
  exact (replay_remembers (announced r)).1.trans same

theorem hideFromViewImpl_settings (r : Reporter) : settings (hideFromViewImpl r) = settings r := by
  unfold hideFromViewImpl
  dsimp only
  split <;> rfl

theorem onConnectionSuccessful_replayed (r : Reporter) : Replayed (onConnectionSuccessful r) := by
  unfold onConnectionSuccessful
  dsimp only
  split
  case isTrue => exact hideFromViewImpl_replayed (accepted r)
  case isFalse shown =>
    exact replay_replayed (r := accepted r) (Bool.not_eq_true _ ▸ shown) (fun _ => rfl)

theorem onConnectionSuccessful_settings (r : Reporter) :
    settings (onConnectionSuccessful r) = settings r := by
  unfold onConnectionSuccessful
  dsimp only
  split
  · exact hideFromViewImpl_settings (accepted r)
  · exact (replay_remembers (accepted r)).1

theorem Replayed.gated (ok : Replayed r) (after : Replayed r') :
    Replayed (if isValidForReporting r then r' else r) := by
  split
  · exact after
  · exact ok

theorem Replayed.unconnected (unconnected : r.isFullyConnected = false) : Replayed r := by
  constructor
  · intro connected
    exact Bool.noConfusion (unconnected.symm.trans connected)
  · intro connected
    exact Bool.noConfusion (unconnected.symm.trans connected)

theorem Replayed.emit (ok : Replayed r) {event : Event} (connected : r.isFullyConnected = true)
    (ignored : ∀ session : Session, session.receive event = session)
    (other : event.isVisibility = false) : Replayed (emit r event) := by
  refine ok.report event rfl rfl ?_ (ignored _) other
  rw [connected, if_pos rfl]

theorem Replayed.inAnalogMode (ok : Replayed r) (inAnalog : Bool) :
    Replayed (inAnalogMode r inAnalog) := by
  refine ok.gated ?_
  split
  · exact ok.gated (hideFromViewImpl_replayed r)
  · exact ok.gated (showOurselvesImpl_replayed r)

theorem Replayed.operate (ok : Replayed r) (operation : Operation) :
    Replayed (operate r operation) := by
  cases operation with
  | requestQSY sid frequencyHz message =>
      refine ok.gated ?_
      cases connected : r.isFullyConnected with
      | true => exact ok.emit connected (fun _ => rfl) rfl
      | false => exact .unconnected connected
  | updateMessage message => exact ok.gated (ok.sendMessageImpl message)
  | freqChange frequency => exact ok.gated (ok.freqChangeImpl frequency)
  | transmit mode tx => exact ok.gated (ok.transmitImpl mode tx)
  | hideFromView => exact ok.gated (hideFromViewImpl_replayed r)
  | showOurselves => exact ok.gated (showOurselvesImpl_replayed r)
  | inAnalogMode inAnalog => exact ok.inAnalogMode inAnalog
  | addReceiveRecord callsign mode snr =>
      simp only [FreeDVReporter.operate, addReceiveRecord]
      split
      case isTrue gates => exact ok.emit gates.2 (fun _ => rfl) rfl
      case isFalse => exact ok
  | connect => exact .unconnected rfl
  | send => exact ok
  | onConnect => exact ⟨ok.visible, ok.hidden⟩
  | onDisconnect => exact .unconnected rfl
  | onConnectionSuccessful => exact onConnectionSuccessful_replayed r

theorem settings_operate (valid : isValidForReporting r = true) (operation : Operation) :
    settings (operate r operation) = (settings r).apply operation := by
  have gated : ∀ after, settings (if isValidForReporting r then after else r) = settings after := by
    intro after
    rw [valid, if_pos rfl]
  cases operation with
  | requestQSY sid frequencyHz message => exact gated _
  | updateMessage message => exact (gated _).trans (sendMessageImpl_remembers r message).1
  | freqChange frequency => exact (gated _).trans (freqChangeImpl_remembers r frequency).1
  | transmit mode tx => exact (gated _).trans (transmitImpl_remembers r mode tx).1
  | hideFromView => exact (gated _).trans (hideFromViewImpl_settings r)
  | showOurselves => exact (gated _).trans (showOurselvesImpl_settings r)
  | inAnalogMode inAnalog =>
      refine (gated _).trans ?_
      cases inAnalog with
      | true => exact (gated _).trans (hideFromViewImpl_settings r)
      | false => exact (gated _).trans (showOurselvesImpl_settings r)
  | addReceiveRecord callsign mode snr =>
      simp only [operate, addReceiveRecord]
      split <;> rfl
  | connect => rfl
  | send => rfl
  | onConnect => rfl
  | onDisconnect => rfl
  | onConnectionSuccessful => exact onConnectionSuccessful_settings r

theorem valid_operate (operation : Operation) :
    isValidForReporting (operate r operation) = isValidForReporting r := by
  have gated : ∀ after, Reports r after →
      isValidForReporting (if isValidForReporting r then after else r) = isValidForReporting r := by
    intro after reports
    split
    · exact reports.valid
    · rfl
  cases operation with
  | requestQSY sid frequencyHz message =>
      simp only [operate, requestQSY]
      split <;> rfl
  | updateMessage message => exact gated _ (sendMessageImpl_reports r message)
  | freqChange frequency => exact gated _ (freqChangeImpl_reports r frequency)
  | transmit mode tx => exact gated _ (transmitImpl_reports r mode tx)
  | hideFromView => exact gated _ (hideFromViewImpl_reports r)
  | showOurselves => exact gated _ (showOurselvesImpl_reports r)
  | inAnalogMode inAnalog => exact gated _ (inAnalogMode_reports r inAnalog)
  | addReceiveRecord callsign mode snr =>
      simp only [operate, addReceiveRecord]
      split <;> rfl
  | connect => rfl
  | send => rfl
  | onConnect => rfl
  | onDisconnect => rfl
  | onConnectionSuccessful => exact (onConnectionSuccessful_reports r).valid

theorem foldl_replayed (ok : Replayed r) (operations : List Operation) :
    Replayed (operations.foldl operate r) := by
  induction operations generalizing r with
  | nil => exact ok
  | cons operation rest ih => exact ih (ok.operate operation)

theorem foldl_settings (valid : isValidForReporting r = true) (operations : List Operation) :
    settings (operations.foldl operate r) = operations.foldl Settings.apply (settings r) := by
  induction operations generalizing r with
  | nil => rfl
  | cons operation rest ih =>
      rw [List.foldl_cons, List.foldl_cons, ih ((valid_operate operation).trans valid),
        settings_operate valid]

theorem cStr_eq_self_iff (text : List UInt8) : cStr text = text ↔ 0 ∉ text := by
  rw [cStr, List.takeWhile_eq_self_iff]
  constructor
  · intro whole member
    simpa using whole 0 member
  · intro absent byte member
    rw [decide_eq_true_eq]
    rintro rfl
    exact absent member

/-- A reporter that is connected and shown has given the server exactly the settings made last, and
one that is connected and hidden has last told it to hide: this holds exactly as long as a mode or
message that is to be shown has no NUL byte, at which `c_str` would end. -/
theorem server_knows_the_settings_iff (callsign gridSquare : List UInt8) (named : callsign ≠ [])
    (located : gridSquare ≠ []) (operations : List Operation) :
    ((operations.foldl operate (make callsign gridSquare)).isFullyConnected = true →
      ((operations.foldl operate (make callsign gridSquare)).hidden = false →
        session (operations.foldl operate (make callsign gridSquare)) =
          ⟨some (operations.foldl Settings.apply .initial).frequency,
            some (operations.foldl Settings.apply .initial).mode,
            some (operations.foldl Settings.apply .initial).tx,
            some (operations.foldl Settings.apply .initial).message, true⟩) ∧
      ((operations.foldl operate (make callsign gridSquare)).hidden = true →
        lastVisibility (operations.foldl operate (make callsign gridSquare)) =
          some .hideSelf)) ↔
    ((operations.foldl operate (make callsign gridSquare)).isFullyConnected = true →
      (operations.foldl operate (make callsign gridSquare)).hidden = false →
        0 ∉ (operations.foldl Settings.apply .initial).mode ∧
          0 ∉ (operations.foldl Settings.apply .initial).message) := by
  have valid : isValidForReporting (make callsign gridSquare) = true :=
    decide_eq_true ⟨named, located⟩
  have replayed := foldl_replayed (.unconnected (r := make callsign gridSquare) rfl) operations
  have remembered := foldl_settings valid operations
  have start : settings (make callsign gridSquare) = .initial := rfl
  rw [start] at remembered
  set final := operations.foldl operate (make callsign gridSquare)
  set last := operations.foldl Settings.apply .initial
  have exact_iff : reported last = ⟨some last.frequency, some last.mode, some last.tx,
      some last.message, true⟩ ↔ 0 ∉ last.mode ∧ 0 ∉ last.message := by
    simp only [reported, Session.mk.injEq, Option.some.injEq, true_and, and_true, cStr_eq_self_iff]
  constructor
  · intro law connected shown
    have known := (law connected).1 shown
    rw [replayed.visible connected shown, remembered] at known
    exact exact_iff.mp known
  · intro clean connected
    refine ⟨fun shown => ?_, replayed.hidden connected⟩
    rw [replayed.visible connected shown, remembered]
    exact exact_iff.mpr (clean connected shown)

/-- A reporter is hidden, told a frequency and a message, reconnected and shown again. -/
theorem a_hidden_reporter_is_shown_again :
    (([.onConnectionSuccessful, .hideFromView, .freqChange 14236000, .onDisconnect,
          .updateMessage [0x37, 0x33], .onConnectionSuccessful, .transmit [0x52] true,
          .inAnalogMode false].foldl operate (make [0x4e] [0x43])).isFullyConnected = true ∧
      ([.onConnectionSuccessful, .hideFromView, .freqChange 14236000, .onDisconnect,
          .updateMessage [0x37, 0x33], .onConnectionSuccessful, .transmit [0x52] true,
          .inAnalogMode false].foldl operate (make [0x4e] [0x43])).hidden = false) ∧
      session ([.onConnectionSuccessful, .hideFromView, .freqChange 14236000, .onDisconnect,
          .updateMessage [0x37, 0x33], .onConnectionSuccessful, .transmit [0x52] true,
          .inAnalogMode false].foldl operate (make [0x4e] [0x43])) =
        ⟨some 14236000, some [0x52], some true, some [0x37, 0x33], true⟩ := by
  refine ⟨by decide, ?_⟩
  have law := (server_knows_the_settings_iff [0x4e] [0x43] (by decide) (by decide)
    [.onConnectionSuccessful, .hideFromView, .freqChange 14236000, .onDisconnect,
      .updateMessage [0x37, 0x33], .onConnectionSuccessful, .transmit [0x52] true,
      .inAnalogMode false]).mpr (by decide)
  exact (law (by decide)).1 (by decide)

/-- A message with a NUL byte in it reaches the server cut off there. -/
theorem a_message_is_cut_off :
    ([.onConnectionSuccessful, .updateMessage [0x61, 0, 0x62]].foldl operate
        (make [0x4e] [0x43])).isFullyConnected = true ∧
      ([.onConnectionSuccessful, .updateMessage [0x61, 0, 0x62]].foldl operate
        (make [0x4e] [0x43])).hidden = false ∧
      (session ([.onConnectionSuccessful, .updateMessage [0x61, 0, 0x62]].foldl operate
        (make [0x4e] [0x43]))).message = some [0x61] ∧
      ([.onConnectionSuccessful, .updateMessage [0x61, 0, 0x62]].foldl Settings.apply
        .initial).message = [0x61, 0, 0x62] := by
  decide

end FreeDV.Reporting.FreeDVReporter
