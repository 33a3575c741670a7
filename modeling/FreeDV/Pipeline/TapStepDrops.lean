import FreeDV.Lib.Transition
import FreeDV.Pipeline.TapStep
import Mathlib.Data.List.Basic

/-!
# Dropped samples

Every piece written is accepted or rejected as a whole. The samples of the
rejected ones are counted by the call that wrote them; their counts are then
added up, kept in `unreportedDroppedSamples_` or, when they are collected
without a drop, lost. None of this depends on how the FIFO decides.
-/

set_option autoImplicit false

namespace FreeDV.Pipeline.TapStep

open FreeDV.Lib
open FreeDV.Util

/-! ## Records -/

/-- The pieces whose write failed. -/
def State.rejected (s : State) : List (List Int16) := (s.pieces.filter (! ·.2)).map (·.1)

theorem length_rejected (pieces : List (List Int16 × Bool)) (piece : List Int16) (stored : Bool) :
    (((pieces ++ [(piece, stored)]).filter (! ·.2)).map (·.1)).flatten.length =
      ((pieces.filter (! ·.2)).map (·.1)).flatten.length +
        if stored then 0 else piece.length := by
  cases stored <;> simp

/-- The call in progress. -/
def Audio.call : Audio → Option Call
  | .idle => none
  | .write call _ => some call
  | .loadPin call => some call
  | .loadPout call _ => some call
  | .signal call => some call
  | .addSamples call => some call
  | .addDrops call => some call

/-- Samples of rejected pieces that the call in progress has still to count. -/
def Audio.uncounted : Audio → Nat
  | .addDrops _ => 0
  | audio => (audio.call.map (·.samplesDropped)).getD 0

/-- What the call in progress has still to write. -/
def remaining (call : Option Call) : List Int16 :=
  (call.map fun call => call.inputSamples.drop call.tmpInputSamples).getD []

structure Records (s : State) (call : Option Call) (uncounted : Nat) : Prop where
  position : ∀ c ∈ call, c.tmpInputSamples + c.numInputSamples = c.inputSamples.length ∧
    c.numOutputSamples = c.inputSamples.length
  returned : s.calls = s.returned ++ (call.map (·.inputSamples)).toList
  offered : s.calls.flatten = (s.pieces.map (·.1)).flatten ++ remaining call
  drops : s.added + s.unreportedDroppedSamples + s.lost + uncounted = s.rejected.flatten.length

/-- Inside the loop a piece is being written; behind it nothing is left to write. -/
def InLoop (sampleRate : Nat) : Audio → Prop
  | .write call samplesToRead => 0 < call.numInputSamples ∧
      samplesToRead = min (sampleRate / 100) call.numInputSamples
  | audio => ∀ call ∈ audio.call, call.numInputSamples = 0

structure Audited (sampleRate : Nat) (s : State) : Prop where
  records : Records s s.audio.call s.audio.uncounted
  loop : InLoop sampleRate s.audio

variable {sampleRate : Nat} {s after : State} {call : Call}

/-! ## The records of the audio thread -/

theorem length_piece {samplesToRead : Nat}
    (position : call.tmpInputSamples + call.numInputSamples = call.inputSamples.length)
    (inside : samplesToRead ≤ call.numInputSamples) :
    (call.piece samplesToRead).length = samplesToRead := by
  rw [Call.piece, List.length_take_of_le]
  rw [List.length_drop]
  omega

/-- The records behind one write. -/
theorem Records.advance (records : Records s (some call) call.samplesDropped)
    {samplesToRead : Nat} (inside : samplesToRead ≤ call.numInputSamples) (value : Int) :
    Records
      { s with pieces := s.pieces ++ [(call.piece samplesToRead, decide (value = 0))] }
      (some (call.advance samplesToRead value)) (call.advance samplesToRead value).samplesDropped := by
  obtain ⟨position, length⟩ := records.position call rfl
  have drops := records.drops
  constructor
  case position =>
    rintro _ ⟨⟩
    refine ⟨?_, length⟩
    simp only [Call.advance]
    omega
  case returned => exact records.returned
  case offered =>
    rw [records.offered]
    simp only [remaining, Option.map_some, Option.getD_some, Call.advance, Call.piece,
      List.map_append, List.flatten_append, List.append_assoc, List.map_cons, List.map_nil,
      List.flatten_cons, List.flatten_nil, List.append_nil]
    rw [← List.drop_drop, List.take_append_drop]
  case drops =>
    rw [State.rejected] at drops ⊢
    rw [length_rejected, length_piece position inside, ← drops]
    by_cases stored : value = 0
    · simp [stored, Call.advance]
    · simp [stored, Call.advance, Nat.add_assoc]

theorem Records.returnSamples (records : Records s (some call) 0) (done : call.numInputSamples = 0) :
    Records (returnSamples s call) none 0 := by
  obtain ⟨position, length⟩ := records.position call rfl
  have all : call.inputSamples.drop call.tmpInputSamples = [] :=
    List.drop_eq_nil_of_le (by omega)
  have offered := records.offered
  simp only [remaining, Option.map_some, Option.getD_some, all] at offered
  refine ⟨nofun, ?_, offered, records.drops⟩
  rw [TapStep.returnSamples, length, List.take_length]
  simpa using records.returned

theorem Audited.writeNext (records : Records s (some call) call.samplesDropped)
    (stepped : writeNext sampleRate s call = some after) : Audited sampleRate after := by
  unfold TapStep.writeNext at stepped
  split at stepped
  · rename_i more
    cases accessed : GenericFifo.next (fifoLength sampleRate) s.tapThreadInput
        (.write (call.piece (min (sampleRate / 100) call.numInputSamples))) with
    | none => simp [accessed] at stepped
    | some fifo =>
        simp only [accessed] at stepped
        cases stepped
        exact ⟨{ records with }, more, rfl⟩
  · rename_i done
    cases stepped
    refine ⟨{ records with }, ?_⟩
    rintro _ ⟨⟩
    exact Nat.eq_zero_of_not_pos done

theorem Audited.countDrops (records : Records s (some call) call.samplesDropped)
    (done : call.numInputSamples = 0) : Audited sampleRate (countDrops s call) := by
  unfold TapStep.countDrops
  split
  · refine ⟨{ records with }, ?_⟩
    rintro _ ⟨⟩
    exact done
  · rename_i none
    rw [Nat.eq_zero_of_not_pos none] at records
    exact ⟨records.returnSamples done, nofun⟩

theorem Audited.execute (audited : Audited sampleRate s) {inputSamples : List Int16}
    (stepped : execute sampleRate s inputSamples = some after) : Audited sampleRate after := by
  have records := audited.records
  unfold TapStep.execute at stepped
  split at stepped
  · rename_i idle
    rw [idle] at records
    refine Audited.writeNext ⟨?_, ?_, ?_, records.drops⟩ stepped
    · rintro _ ⟨⟩
      exact ⟨Nat.zero_add _, rfl⟩
    · have returned := records.returned
      simp only [Audio.call, Option.map_none, Option.toList_none, List.append_nil] at returned
      rw [returned]
      rfl
    · have offered := records.offered
      simp only [Audio.call, remaining, Option.map_none, Option.getD_none, List.append_nil]
        at offered
      rw [List.flatten_append, offered]
      simp [remaining, Call.start]
  · cases stepped

theorem Audited.audioStep (audited : Audited sampleRate s)
    (stepped : audioStep sampleRate s = some after) : Audited sampleRate after := by
  have records := audited.records
  have loop := audited.loop
  unfold TapStep.audioStep at stepped
  cases phase : s.audio with
  | idle => simp [phase] at stepped
  | write call samplesToRead =>
      simp only [phase] at stepped records loop
      split at stepped
      · cases stepped
      · split at stepped
        · cases stepped
          exact ⟨{ records with }, loop⟩
        · rename_i value _
          obtain ⟨_, amount⟩ := loop
          have advanced := records.advance (by omega : samplesToRead ≤ call.numInputSamples) value
          refine Audited.writeNext ?_ stepped
          exact { advanced with }
  | loadPin call =>
      simp only [phase] at stepped records loop
      cases stepped
      exact ⟨{ records with }, loop⟩
  | loadPout call ppin =>
      simp only [phase] at stepped records loop
      split at stepped
      · cases stepped
        exact ⟨{ records with }, loop⟩
      · cases stepped
        exact Audited.countDrops { records with } (loop call rfl)
  | signal call =>
      simp only [phase] at stepped records loop
      cases stepped
      exact Audited.countDrops { records with } (loop call rfl)
  | addSamples call =>
      simp only [phase] at stepped records loop
      cases stepped
      refine ⟨{ records with drops := ?_ }, loop⟩
      have drops := records.drops
      simp only [Audio.uncounted, Audio.call, Option.map_some, Option.getD_some, State.rejected]
        at drops ⊢
      omega
  | addDrops call =>
      simp only [phase] at stepped records loop
      cases stepped
      have counted : Records { s with unreportedDrops := s.unreportedDrops + 1 } (some call) 0 :=
        { records with }
      exact ⟨counted.returnSamples (loop call rfl), nofun⟩

/-- The steps of the tap thread move counts about, but lose none unrecorded. -/
theorem Audited.of_drops (audited : Audited sampleRate s) {s' : State}
    (audio : s'.audio = s.audio) (calls : s'.calls = s.calls) (returned : s'.returned = s.returned)
    (pieces : s'.pieces = s.pieces)
    (drops : s'.added + s'.unreportedDroppedSamples + s'.lost =
      s.added + s.unreportedDroppedSamples + s.lost) : Audited sampleRate s' := by
  obtain ⟨records, loop⟩ := audited
  rw [← audio] at records loop
  refine ⟨⟨records.position, ?_, ?_, ?_⟩, loop⟩
  · rw [calls, returned, records.returned]
  · rw [calls, pieces, records.offered]
  · rw [drops, records.drops, State.rejected, State.rejected, pieces]

/-- `reportDrops_` touches its own variables only, and what it does not add is lost. -/
theorem reportDrops_frame (s : State) (drops samples : Nat) :
    ∃ log dropping samplesDropped added lost,
      reportDrops s drops samples =
        { s with
          log := log
          dropping := dropping
          samplesDropped := samplesDropped
          added := added
          lost := lost } ∧
      added + lost = s.added + s.lost + samples ∧
      (drops = 0 → samples = 0 → lost = s.lost) ∧ (0 < drops → lost = s.lost) := by
  simp only [reportDrops]
  split
  · rename_i some
    split
    · exact ⟨_, _, _, _, _, rfl, Nat.add_right_comm _ _ _, fun none => absurd none (by omega),
        fun _ => rfl⟩
    · exact ⟨_, _, _, _, _, rfl, Nat.add_right_comm _ _ _, fun none => absurd none (by omega),
        fun _ => rfl⟩
  · rename_i none
    split
    · exact ⟨_, _, _, _, _, rfl, (Nat.add_assoc _ _ _).symm,
        fun _ zero => zero ▸ Nat.add_zero _, fun some => absurd some none⟩
    · exact ⟨_, _, _, _, _, rfl, (Nat.add_assoc _ _ _).symm,
        fun _ zero => zero ▸ Nat.add_zero _, fun some => absurd some none⟩

theorem Audited.tapStep (audited : Audited sampleRate s)
    (stepped : tapStep sampleRate s = some after) : Audited sampleRate after := by
  unfold TapStep.tapStep at stepped
  cases phase : s.tap with
  | exchangeSamples last drops =>
      simp only [phase] at stepped
      obtain ⟨log, dropping, samplesDropped, added, lost, same, sum, _⟩ :=
        reportDrops_frame { s with unreportedDroppedSamples := 0, tap := .exchangeSamples last drops }
          drops s.unreportedDroppedSamples
      rw [same] at stepped
      cases stepped
      refine audited.of_drops rfl rfl rfl rfl ?_
      simp only at sum ⊢
      omega
  | loadPout last ppin =>
      simp only [phase] at stepped
      split at stepped
      · split at stepped
        · cases stepped
        · cases stepped
          exact audited.of_drops rfl rfl rfl rfl rfl
      · cases stepped
        exact audited.of_drops rfl rfl rfl rfl rfl
  | read last =>
      simp only [phase] at stepped
      split at stepped
      · cases stepped
      · split at stepped <;> cases stepped <;> exact audited.of_drops rfl rfl rfl rfl rfl
  | wait =>
      simp only [phase] at stepped
      split at stepped
      · cases stepped
        exact audited.of_drops rfl rfl rfl rfl rfl
      · cases stepped
  | loadEnding | loadPin last | execute last | exchangeDrops last =>
      simp only [phase] at stepped
      cases stepped
      exact audited.of_drops rfl rfl rfl rfl rfl
  | executing last | finished => simp [phase] at stepped

/-- What the audio thread does not touch. -/
structure AudioFrame (s after : State) : Prop where
  endingTapThread : after.endingTapThread = s.endingTapThread
  destructor : after.destructor = s.destructor
  tap : after.tap = s.tap
  lost : after.lost = s.lost

theorem AudioFrame.writeNext (stepped : writeNext sampleRate s call = some after) :
    AudioFrame s after := by
  simp only [TapStep.writeNext] at stepped
  split at stepped
  · split at stepped
    · cases stepped
    · cases stepped
      exact ⟨rfl, rfl, rfl, rfl⟩
  · cases stepped
    exact ⟨rfl, rfl, rfl, rfl⟩

theorem AudioFrame.countDrops (s : State) (call : Call) : AudioFrame s (countDrops s call) := by
  unfold TapStep.countDrops
  split <;> exact ⟨rfl, rfl, rfl, rfl⟩

theorem AudioFrame.execute {inputSamples : List Int16}
    (stepped : execute sampleRate s inputSamples = some after) : AudioFrame s after := by
  unfold TapStep.execute at stepped
  split at stepped
  · have frame := AudioFrame.writeNext stepped
    exact { frame with }
  · cases stepped

theorem AudioFrame.audioStep (stepped : audioStep sampleRate s = some after) :
    AudioFrame s after := by
  unfold TapStep.audioStep at stepped
  cases phase : s.audio with
  | idle => simp [phase] at stepped
  | write call samplesToRead =>
      simp only [phase] at stepped
      split at stepped
      · cases stepped
      · split at stepped
        · cases stepped
          exact ⟨rfl, rfl, rfl, rfl⟩
        · have frame := AudioFrame.writeNext stepped
          exact { frame with }
  | loadPout call ppin =>
      simp only [phase] at stepped
      split at stepped
      · cases stepped
        exact ⟨rfl, rfl, rfl, rfl⟩
      · cases stepped
        exact { AudioFrame.countDrops _ call with }
  | signal call =>
      simp only [phase] at stepped
      cases stepped
      exact { AudioFrame.countDrops _ call with }
  | loadPin call | addSamples call | addDrops call =>
      simp only [phase] at stepped
      cases stepped
      exact ⟨rfl, rfl, rfl, rfl⟩

/-! ## Whole runs -/

theorem Audited.initial (buf memory : Nat → Int16) :
    Audited sampleRate (State.initial sampleRate buf memory) :=
  ⟨⟨nofun, rfl, rfl, rfl⟩, nofun⟩

theorem Audited.next (audited : Audited sampleRate s) {action : Action}
    (stepped : next sampleRate s action = some after) : Audited sampleRate after := by
  cases action with
  | execute inputSamples => exact audited.execute stepped
  | audioStep => exact audited.audioStep stepped
  | tapStep => exact audited.tapStep stepped
  | tapStepReturns buffer =>
      simp only [TapStep.next, tapStepReturns] at stepped
      split at stepped
      · split at stepped
        · cases stepped
          exact audited.of_drops rfl rfl rfl rfl rfl
        · cases stepped
      · cases stepped
  | destroy =>
      simp only [TapStep.next, destroy] at stepped
      split at stepped <;> cases stepped
      exact audited.of_drops rfl rfl rfl rfl rfl
  | destructorStep =>
      simp only [TapStep.next, destructorStep] at stepped
      split at stepped
      · cases stepped
      · cases stepped
        exact audited.of_drops rfl rfl rfl rfl rfl
      · split at stepped <;> cases stepped
        exact audited.of_drops rfl rfl rfl rfl rfl
      · cases stepped

theorem audited_of_reachable {allowed : State → Action → Prop} {buf memory : Nat → Int16}
    (reachable : Reachable (next sampleRate) allowed (State.initial sampleRate buf memory) s) :
    Audited sampleRate s :=
  reachable.invariant _ (Audited.initial buf memory) fun _ _ _ audited _ => audited.next

/-! ## Reported drops -/

/-- What `reportDrops_` collects without having seen a drop is nothing. -/
def Collected (s : State) : Action → Prop
  | .tapStep =>
      match s.tap with
      | .exchangeSamples _ 0 => s.unreportedDroppedSamples = 0
      | _ => True
  | _ => True

instance (s : State) : (action : Action) → Decidable (Collected s action)
  | .execute _ => inferInstanceAs (Decidable True)
  | .audioStep => inferInstanceAs (Decidable True)
  | .tapStep =>
      match found : s.tap with
      | .exchangeSamples _ 0 =>
          decidable_of_iff (s.unreportedDroppedSamples = 0) (by simp [Collected, found])
      | .exchangeSamples _ (_ + 1) => isTrue (by simp [Collected, found])
      | .loadEnding | .loadPin _ | .loadPout _ _ | .read _ | .execute _ | .executing _
      | .exchangeDrops _ | .wait | .finished => isTrue (by simp [Collected, found])
  | .tapStepReturns _ => inferInstanceAs (Decidable True)
  | .destroy => inferInstanceAs (Decidable True)
  | .destructorStep => inferInstanceAs (Decidable True)

theorem lost_tapStep (collected : Collected s .tapStep)
    (stepped : tapStep sampleRate s = some after) : after.lost = s.lost := by
  unfold tapStep at stepped
  cases phase : s.tap with
  | exchangeSamples last drops =>
      simp only [phase] at stepped
      obtain ⟨log, dropping, samplesDropped, added, lost, same, _, none, some⟩ :=
        reportDrops_frame { s with unreportedDroppedSamples := 0, tap := .exchangeSamples last drops }
          drops s.unreportedDroppedSamples
      rw [same] at stepped
      cases stepped
      cases drops with
      | zero =>
          simp only [Collected, phase] at collected
          exact none rfl collected
      | succ drops => exact some (Nat.succ_pos _)
  | loadPout last ppin =>
      simp only [phase] at stepped
      split at stepped
      · split at stepped <;> cases stepped
        rfl
      · cases stepped
        rfl
  | read last =>
      simp only [phase] at stepped
      split at stepped
      · cases stepped
      · split at stepped <;> cases stepped <;> rfl
  | wait =>
      simp only [phase] at stepped
      split at stepped <;> cases stepped
      rfl
  | loadEnding | loadPin last | execute last | exchangeDrops last =>
      simp only [phase] at stepped
      cases stepped
      rfl
  | executing last | finished => simp [phase] at stepped

theorem lost_next {action : Action} (collected : Collected s action)
    (stepped : next sampleRate s action = some after) : after.lost = s.lost := by
  cases action with
  | execute inputSamples => exact (AudioFrame.execute stepped).lost
  | audioStep => exact (AudioFrame.audioStep stepped).lost
  | tapStep => exact lost_tapStep collected stepped
  | tapStepReturns buffer =>
      simp only [next, tapStepReturns] at stepped
      split at stepped
      · split at stepped <;> cases stepped
        rfl
      · cases stepped
  | destroy =>
      simp only [next, destroy] at stepped
      split at stepped <;> cases stepped
      rfl
  | destructorStep =>
      simp only [next, destructorStep] at stepped
      split at stepped
      · cases stepped
      · cases stepped
        rfl
      · split at stepped <;> cases stepped
        rfl
      · cases stepped

/-- Between `execute` calls, whatever the tap thread does, no dropped sample is missing from what
was added and what is still to be collected, unless samples were collected without a drop. -/
theorem drops_are_added (sampleRate : Nat) (buf memory : Nat → Int16) (s : State)
    (reachable : Reachable (next sampleRate) Collected (State.initial sampleRate buf memory) s)
    (idle : s.audio = .idle) :
    s.added + s.unreportedDroppedSamples = s.rejected.flatten.length := by
  have nothing : s.lost = 0 := by
    refine reachable.invariant (fun s => s.lost = 0) rfl ?_
    intro before action after none collected stepped
    rw [lost_next collected stepped, none]
  have drops := (audited_of_reachable reachable).records.drops
  rw [idle, nothing] at drops
  exact drops

/-- The sample that does not fit is added when both counters were up before the collection. -/
theorem drops_are_added_behind_the_call :
    ∃ s, Reachable (next 100) Collected (State.initial 100 (fun _ => 0) (fun _ => 0)) s ∧
      s.added = 1 ∧ s.added + s.unreportedDroppedSamples = s.rejected.flatten.length := by
  have executed : (runActions (next 100) Collected (State.initial 100 (fun _ => 0) (fun _ => 0))
      (List.flatten [List.replicate 3 .tapStep, [.execute (List.replicate 25 7)],
        List.replicate 104 .audioStep, List.replicate 2 .tapStep])).map
        (fun s => (s.audio, s.added)) =
      some (.idle, 1) := by
    decide +kernel
  obtain ⟨s, executed, observed⟩ := Option.map_eq_some_iff.mp executed
  simp only [Prod.mk.injEq] at observed
  obtain ⟨idle, added⟩ := observed
  have reachable := Reachable.of_runActions _ .start executed
  exact ⟨s, reachable, added, drops_are_added 100 _ _ s reachable idle⟩

/-- A call is between its two additions when `reportDrops_` collects: the sample is lost. -/
theorem drops_are_lost_between_additions :
    ¬ ∀ (sampleRate : Nat) (buf memory : Nat → Int16) (s : State),
      Reachable (next sampleRate) (fun _ _ => True) (State.initial sampleRate buf memory) s →
      s.audio = .idle → (∀ last drops, s.tap ≠ .exchangeSamples last drops) →
      s.added + s.unreportedDroppedSamples = s.rejected.flatten.length := by
  intro claimed
  have executed : (runActions (next 100) (fun _ _ => True)
      (State.initial 100 (fun _ => 0) (fun _ => 0))
      (List.flatten [List.replicate 3 .tapStep, [.execute (List.replicate 25 7)],
        List.replicate 103 .audioStep, List.replicate 2 .tapStep, [.audioStep]])).map
        (fun s => (s.audio, s.tap, s.added, s.unreportedDroppedSamples,
          s.rejected.flatten.length)) =
      some (.idle, .wait, 0, 0, 1) := by
    decide +kernel
  obtain ⟨s, executed, observed⟩ := Option.map_eq_some_iff.mp executed
  simp only [Prod.mk.injEq] at observed
  obtain ⟨idle, waiting, added, unreported, rejected⟩ := observed
  have counted := claimed 100 _ _ s (Reachable.of_runActions _ .start executed) idle
    (fun _ _ => by simp [waiting])
  rw [added, unreported, rejected] at counted
  cases counted

end FreeDV.Pipeline.TapStep
