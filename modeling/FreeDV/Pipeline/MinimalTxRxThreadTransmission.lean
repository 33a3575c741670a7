import FreeDV.Lib.History
import FreeDV.Pipeline.MinimalTxRxThreadOvers
import FreeDV.Pipeline.TxPipelineBounds
import Mathlib.Data.List.ReduceOption

/-!
# What a transmission plays

Over a whole over the speech written to `infifo1` is followed through the
pipeline and out of `outfifo1`. What goes in, and what the application reads at
the other end, is a history of the thread; the thread itself does not know it.
-/

set_option autoImplicit false

namespace FreeDV.Pipeline.MinimalTxRxThread

open Lib Util.GenericFifo
open RADETransmitStep (TxSizes NUM_SAMPLES_SILENCE)
open TxPipeline (Libraries Settled Budget prepare finish)

variable {config : Config} {sizes : TxSizes} {D F N S E W L R : Type} [FloatArith D]
  [FloatArith F] {lib : Libraries sizes D F N S E W L R} {s s' : State config F N S E W L R}
  {turn after : Over F L} {denoised levelled : Nat}

/-! ## The history of an over -/

/-- The pipeline behind its reset, what it was given since, and what was read from `outfifo1` since
that was cleared. A block that could not be read is `none`. -/
structure Transmission (F N S E W L R : Type) where
  start : TxPipeline.State F N S E W L R
  given : List (Option (List Int16))
  played : List Int16

variable {t : Transmission F N S E W L R}

def listen (lib : Libraries sizes D F N S E W L R) (s : State config F N S E W L R)
    (action : Action) (t : Transmission F N S E W L R) : Transmission F N S E W L R :=
  match action with
  | .threadStep _ =>
      match s.thread with
      | .resetPipeline => { t with start := TxPipeline.reset lib s.pipeline, given := [] }
      | .resetOutfifo1 => { t with played := [] }
      | .executeBlock block => { t with given := t.given ++ [block] }
      | _ => t
  | .drain len =>
      { t with played := t.played ++ ((s.outfifo1.read len).getD ([], s.outfifo1)).1 }
  | _ => t

/-- What the pipeline is given for a block: zeros take the place of one that could not be read. -/
def Config.input (config : Config) (block : Option (List Int16)) : List Int16 :=
  block.getD (List.replicate config.nsam_in_48 0)

/-- What the part in front of the transmitter makes of it, run by run, and its state then. -/
def Transmission.speech (t : Transmission F N S E W L R) (lib : Libraries sizes D F N S E W L R)
    (config : Config) : List (List Int16) × TxPipeline.State F N S E W L R :=
  mapBlocks (prepare lib config.rates) t.start (t.given.map config.input)

/-- What the part behind the transmitter makes of some modem samples. -/
def Transmission.sound (t : Transmission F N S E W L R) (lib : Libraries sizes D F N S E W L R)
    (config : Config) (modemSamples : List (List Int16)) : List (List Int16) × S :=
  mapBlocks (finish lib config.rates) t.start.outputResampler modemSamples

omit [FloatArith D] in
theorem Transmission.sound_concat (modemSamples : List (List Int16)) (last : List Int16) :
    t.sound lib config (modemSamples ++ [last]) =
      ((t.sound lib config modemSamples).1 ++
          [(finish lib config.rates (t.sound lib config modemSamples).2 last).1],
        (finish lib config.rates (t.sound lib config modemSamples).2 last).2) := by
  rw [Transmission.sound, mapBlocks_append]
  rfl

/-! ## The FIFO of the microphone -/

theorem Streams.next (known : ∀ turn, s.turn = some turn → Streams config s turn)
    {action : Action} (stepped : next lib s action = some s') :
    ∀ after, s'.turn = some after → Streams config s' after := by
  intro after recorded
  cases action with
  | threadStep mustStopWork =>
      cases stepped
      by_cases idle : s.thread = .idle
      · simp only [MinimalTxRxThread.threadStep, idle] at recorded ⊢
        split at recorded
        · rename_i transmitting
          rw [if_pos transmitting]
          split at recorded
          · rename_i deferred
            rw [if_pos deferred]
            cases recorded
            exact ⟨fun _ => rfl, by simp [Over.start, Thread.inHand], by rintro ⟨⟩⟩
          · rename_i going
            rw [if_neg going]
            exact (known after recorded).keep (by rw [idle]; rfl) rfl rfl (by rw [idle]; rfl) rfl
        · cases recorded
      · obtain ⟨turn, current, -⟩ := threadStep_over mustStopWork idle recorded
        exact (known turn current).threadStep current mustStopWork idle recorded
  | write samples =>
      cases stepped
      simp only [MinimalTxRxThread.write, State.record] at recorded ⊢
      cases written : s.infifo1.write samples with
      | none =>
          simp only [written] at recorded ⊢
          obtain ⟨turn, current, rfl⟩ := Option.map_eq_some_iff.mp recorded
          exact { known turn current with }
      | some infifo1 =>
          simp only [written, Option.map_map] at recorded ⊢
          obtain ⟨turn, current, rfl⟩ := Option.map_eq_some_iff.mp recorded
          obtain ⟨unread, whole, stream⟩ := known turn current
          refine ⟨unread, whole, fun started => ?_⟩
          simp only [(Queue.write_eq_some written).2, Function.comp_apply, ← stream started,
            List.append_assoc]
  | drain len =>
      cases stepped
      rw [drain_eq] at recorded ⊢
      exact { known after recorded with }
  | storeTx value =>
      cases stepped
      exact { known after recorded with }
  | storeEndingTx value =>
      cases stepped
      obtain ⟨turn, current, rfl⟩ := Option.map_eq_some_iff.mp recorded
      exact { known turn current with }

/-- In every over what was written is passed on, in hand or still in `infifo1`. -/
theorem Streams.of_reachable {g_tx endingTx g_eoo_enqueued : Bool}
    {pipeline : TxPipeline.State F N S E W L R}
    (reachable : Reachable (MinimalTxRxThread.next lib) (fun _ _ => True)
      (State.initial g_tx endingTx g_eoo_enqueued pipeline) s) :
    ∀ turn, s.turn = some turn → Streams config s turn := by
  refine reachable.invariant (fun s => ∀ turn, s.turn = some turn → Streams config s turn) ?_ ?_
  · intro turn none
    cases none
  · intro before action after known _ stepped
    exact Streams.next known stepped

/-! ## The pipeline -/

/-- Behind its reset the pipeline loses nothing: all the speech it was given reaches the frames, all
their features the modulator or its list, and all the modulator gives the output, but for what
still waits. -/
structure Carries (lib : Libraries sizes D F N S E W L R) (config : Config)
    (pipeline : TxPipeline.State F N S E W L R) (turn : Over F L)
    (t : Transmission F N S E W L R) : Prop where
  settled : Settled pipeline sizes
  front : pipeline = { (t.speech lib config).2 with
    tx := pipeline.tx, outputResampler := pipeline.outputResampler }
  given : t.given.reduceOption = turn.passed
  frames : turn.frames.flatten ++ pipeline.tx.inputSampleFifo.elements =
    (t.speech lib config).1.flatten
  encState : pipeline.tx.encState = (turn.features lib).2
  features : turn.batches.flatten ++ pipeline.tx.featureList = (turn.features lib).1.flatten
  modem : turn.modemSamples.flatten ++ pipeline.tx.outputSampleFifo.elements = turn.produced
  sound : (turn.outputSamples, pipeline.outputResampler) = t.sound lib config turn.modemSamples

theorem Carries.reset (whole : sizes.Whole) (pipeline : TxPipeline.State F N S E W L R)
    (runs : turn.runs = []) (produced : turn.produced = []) (passed : turn.passed = [])
    (encState : pipeline.tx.encState = turn.encState) (played : List Int16) :
    Carries lib config (TxPipeline.reset lib pipeline) turn
      ⟨TxPipeline.reset lib pipeline, [], played⟩ := by
  obtain ⟨frames, batches, modemSamples, outputSamples⟩ := Over.no_run runs
  have none : turn.features lib = ([], turn.encState) := by
    rw [Over.features, frames]
    rfl
  refine ⟨.reset whole pipeline, rfl, passed.symm, ?_, ?_, ?_, ?_, ?_⟩
  · rw [frames]
    rfl
  · rw [none]
    exact encState
  · rw [none, batches]
    rfl
  · rw [modemSamples, produced]
    rfl
  · rw [modemSamples, outputSamples]
    rfl

theorem prepare_frame (pipeline : TxPipeline.State F N S E W L R)
    (tx : RADETransmitStep.State F L R) (outputResampler : S) (input : List Int16) :
    prepare lib config.rates { pipeline with tx := tx, outputResampler := outputResampler } input =
      ((prepare lib config.rates pipeline input).1,
        { (prepare lib config.rates pipeline input).2 with
          tx := tx, outputResampler := outputResampler }) := rfl

/-- The next block behind what the pipeline was given. -/
theorem Carries.speech (carries : Carries lib config s.pipeline turn t)
    (block : Option (List Int16)) :
    (Transmission.speech { t with given := t.given ++ [block] } lib config).1 =
        (t.speech lib config).1 ++ [(prepare lib config.rates s.pipeline (config.input block)).1] ∧
      (prepare lib config.rates s.pipeline (config.input block)).2 =
        { (Transmission.speech { t with given := t.given ++ [block] } lib config).2 with
          tx := s.pipeline.tx, outputResampler := s.pipeline.outputResampler } := by
  have behind : prepare lib config.rates s.pipeline (config.input block) =
      ((prepare lib config.rates (t.speech lib config).2 (config.input block)).1,
        { (prepare lib config.rates (t.speech lib config).2 (config.input block)).2 with
          tx := s.pipeline.tx, outputResampler := s.pipeline.outputResampler }) := by
    conv_lhs => rw [carries.front]
    exact prepare_frame _ _ _ _
  rw [behind]
  simp only [Transmission.speech, List.map_append, mapBlocks_append, List.map_cons, List.map_nil,
    mapBlocks]
  exact ⟨trivial, trivial⟩

/-- A run's samples behind the transmitter go through the same resampler as those before. -/
theorem Carries.finishes (carries : Carries lib config s.pipeline turn t) {input : List Int16}
    (runs : after.runs =
      turn.runs ++ [(TxPipeline.execute lib config.rates s.pipeline input).1]) :
    (after.outputSamples,
        (TxPipeline.execute lib config.rates s.pipeline input).2.outputResampler) =
      t.sound lib config after.modemSamples := by
  obtain ⟨-, -, modemSamples, outputSamples⟩ := Over.append_run runs
  rw [modemSamples, outputSamples, Transmission.sound_concat, ← carries.sound]
  rfl

/-- A run on a block takes all of it, and leaves no modem sample. -/
theorem Carries.execute
    (budget : Budget lib config.rates config.nsam_in_48 denoised levelled
      (config.nsam_one_modem_frame sizes))
    (carries : Carries lib config s.pipeline turn t)
    (empty : s.pipeline.tx.outputSampleFifo = .empty) {block : Option (List Int16)}
    (length : (config.input block).length = config.nsam_in_48)
    (runs : after.runs =
      turn.runs ++ [(TxPipeline.execute lib config.rates s.pipeline (config.input block)).1])
    (produced : after.produced = turn.produced ++
      (TxPipeline.execute lib config.rates s.pipeline (config.input block)).1.tx.produced)
    (encState : after.encState = turn.encState)
    (passed : after.passed = turn.passed ++ block.toList) :
    Carries lib config (TxPipeline.execute lib config.rates s.pipeline (config.input block)).2
      after { t with given := t.given ++ [block] } := by
  have cleared := carries.settled.execute budget empty length
  obtain ⟨frames, batches, modemSamples, -⟩ := Over.append_run runs
  obtain ⟨speech, front⟩ := carries.speech block
  obtain ⟨heardState, heard⟩ := RADETransmitStep.execute_collects lib.rade s.pipeline.tx
    (prepare lib config.rates s.pipeline (config.input block)).1
  have features : after.features lib =
      ((turn.features lib).1 ++ (mapBlocks lib.rade.computeSingleFrameFeatures
          s.pipeline.tx.encState (TxPipeline.execute lib config.rates s.pipeline
            (config.input block)).1.tx.frames).1,
        (mapBlocks lib.rade.computeSingleFrameFeatures s.pipeline.tx.encState
          (TxPipeline.execute lib config.rates s.pipeline
            (config.input block)).1.tx.frames).2) := by
    rw [Over.features, encState, frames, mapBlocks_append, carries.encState]
    rfl
  have modem := carries.modem
  rw [empty, Queue.elements_empty, List.append_nil] at modem
  refine ⟨cleared.settled, ?_, ?_, ?_, ?_, ?_, ?_, carries.finishes runs⟩
  · exact congrArg (fun pipeline : TxPipeline.State F N S E W L R => { pipeline with
      tx := (TxPipeline.execute lib config.rates s.pipeline (config.input block)).2.tx
      outputResampler := (TxPipeline.execute lib config.rates s.pipeline
        (config.input block)).2.outputResampler }) front
  · rw [List.reduceOption_append, List.reduceOption_singleton, carries.given, passed]
  · rw [speech, frames, List.flatten_append, List.flatten_append, List.append_assoc,
      cleared.frames, ← List.append_assoc, carries.frames, List.flatten_singleton]
  · rw [features]
    exact heardState
  · rw [features, batches, List.flatten_append, List.flatten_append, List.append_assoc,
      ← carries.features, List.append_assoc]
    exact congrArg (turn.batches.flatten ++ ·) heard
  · rw [modemSamples, produced, cleared.empty, Queue.elements_empty, List.append_nil,
      List.flatten_append, List.flatten_singleton, modem, cleared.all]

/-- A run without input only takes what the transmitter has queued. -/
theorem execute_nil (lib : Libraries sizes D F N S E W L R) (config : Config)
    (pipeline : TxPipeline.State F N S E W L R) :
    TxPipeline.execute lib config.rates pipeline [] =
      (⟨(finish lib config.rates pipeline.outputResampler pipeline.tx.outputSampleFifo.elements).1,
          ⟨pipeline.tx.outputSampleFifo.elements, [], [], []⟩⟩,
        { pipeline with
          tx := { pipeline.tx with outputSampleFifo := .empty }
          outputResampler := (finish lib config.rates pipeline.outputResampler
            pipeline.tx.outputSampleFifo.elements).2 }) := by
  simp only [TxPipeline.execute, prepare_nil, RADETransmitStep.execute_nil]

theorem Carries.executeEoo (carries : Carries lib config s.pipeline turn t)
    (runs : after.runs = turn.runs ++ [(TxPipeline.execute lib config.rates s.pipeline []).1])
    (produced : after.produced = turn.produced) (encState : after.encState = turn.encState)
    (passed : after.passed = turn.passed) :
    Carries lib config (TxPipeline.execute lib config.rates s.pipeline []).2 after t := by
  have sound := carries.finishes runs
  obtain ⟨frames, batches, modemSamples, -⟩ := Over.append_run runs
  rw [execute_nil] at frames batches modemSamples sound ⊢
  dsimp only at frames batches modemSamples sound ⊢
  rw [List.append_nil] at frames batches
  have features : after.features lib = turn.features lib := by
    rw [Over.features, encState, frames]
    rfl
  refine ⟨{ carries.settled with }, ?_, ?_, ?_, ?_, ?_, ?_, sound⟩
  · exact congrArg (fun pipeline : TxPipeline.State F N S E W L R => { pipeline with
      tx := { s.pipeline.tx with outputSampleFifo := .empty }
      outputResampler := (finish lib config.rates s.pipeline.outputResampler
        s.pipeline.tx.outputSampleFifo.elements).2 }) carries.front
  · rw [carries.given, passed]
  · rw [frames]
    exact carries.frames
  · rw [features]
    exact carries.encState
  · rw [features, batches]
    exact carries.features
  · rw [modemSamples, produced, Queue.elements_empty, List.append_nil, List.flatten_append,
      List.flatten_singleton]
    exact carries.modem

/-- The end of over has room in an empty FIFO. -/
theorem Carries.restart (carries : Carries lib config s.pipeline turn t)
    (empty : s.pipeline.tx.outputSampleFifo = .empty)
    (eoo : sizes.nTxEooOut + NUM_SAMPLES_SILENCE < RADE_MODEM_SAMPLE_RATE) (restarts : Nat) :
    let queued := RADETransmitStep.radeOutShort lib.rade (lib.rade.radeTxEoo s.pipeline.tx.dv).1 ++
      List.replicate NUM_SAMPLES_SILENCE 0
    let tx := RADETransmitStep.restartVocoder lib.rade s.pipeline.tx
    Carries lib config { s.pipeline with tx }
        { turn with restarts, produced := turn.produced ++ queued } t ∧
      tx.outputSampleFifo.numUsed = sizes.nTxEooOut + NUM_SAMPLES_SILENCE := by
  intro queued tx
  have length : queued.length = sizes.nTxEooOut + NUM_SAMPLES_SILENCE := by
    rw [List.length_append, RADETransmitStep.radeOutShort, List.length_map, lib.rade.length_eoo,
      List.length_replicate]
  have fits : queued.length ≤ s.pipeline.tx.outputSampleFifo.numFree := by
    rw [length, empty]
    exact Nat.le_sub_one_of_lt eoo
  have content : tx.outputSampleFifo.elements = queued := by
    have written := Queue.elements_writeAny fits
    rwa [empty, Queue.elements_empty, List.nil_append, ← empty] at written
  have modem := carries.modem
  rw [empty, Queue.elements_empty, List.append_nil] at modem
  refine ⟨⟨{ carries.settled with }, ?_, carries.given, carries.frames, carries.encState,
    carries.features, ?_, carries.sound⟩, ?_⟩
  · exact congrArg (fun pipeline : TxPipeline.State F N S E W L R => { pipeline with tx })
      carries.front
  · rw [content]
    exact congrArg (· ++ queued) modem
  · rw [Queue.numUsed, content, length]

theorem Carries.transfer {pipeline : TxPipeline.State F N S E W L R}
    (carries : Carries lib config pipeline turn t) (same : turn.SameRuns after)
    (passed : after.passed = turn.passed) : Carries lib config pipeline after t := by
  obtain ⟨orderly, iterated, written, passed', restarts, emptied, encState, runs, produced⟩ := after
  obtain ⟨rfl, rfl, rfl⟩ := same
  cases passed
  exact { carries with }

/-! ## The thread -/

/-- The thread has seen room for a modem frame, and has not written it yet. -/
def Thread.hasRoom : Thread → Bool
  | .read => true
  | .loadEndingTx => true
  | .restartVocoder => true
  | .executeEoo => true
  | .writeEoo _ => true
  | .storeNotEnqueued _ => true
  | .executeBlock _ => true
  | .writeOutput _ => true
  | _ => false

structure Transmits (lib : Libraries sizes D F N S E W L R) (s : State config F N S E W L R)
    (turn : Over F L) (t : Transmission F N S E W L R) : Prop where
  fresh : s.thread.clearing = true → turn.runs = [] ∧ turn.produced = [] ∧ turn.passed = []
  encState : s.thread = .resetPipeline → s.pipeline.tx.encState = turn.encState
  carries : s.thread ≠ .resetPipeline → Carries lib config s.pipeline turn t
  empty : s.thread ≠ .resetPipeline → s.thread ≠ .executeEoo →
    s.pipeline.tx.outputSampleFifo = .empty
  queued : s.thread = .executeEoo →
    s.pipeline.tx.outputSampleFifo.numUsed ≤ getTxNNomModemSamples sizes
  played : s.thread.clearing = false →
    t.played ++ (s.outfifo1.elements ++ s.thread.pending) = turn.outputSamples.flatten
  room : s.thread.hasRoom = true → config.nsam_one_modem_frame sizes ≤ s.outfifo1.numFree
  short : s.thread.pending.length ≤ config.nsam_one_modem_frame sizes

/-- Moving on behind the resets. -/
theorem Transmits.goto (h : Transmits lib s turn t) (same : turn.SameRuns after)
    (passed : after.passed = turn.passed) (started : s.thread.clearing = false)
    (started' : s'.thread.clearing = false) (nothing : s.thread.pending = [])
    (nothing' : s'.thread.pending = []) (away : s.thread ≠ .executeEoo)
    (pipeline : s'.pipeline = s.pipeline) (outfifo1 : s'.outfifo1 = s.outfifo1)
    (room : s'.thread.hasRoom = true → config.nsam_one_modem_frame sizes ≤ s.outfifo1.numFree) :
    Transmits lib s' after t := by
  have behind := Thread.ne_resetPipeline started
  have empty := h.empty behind away
  refine ⟨fun clearing => ?_, fun reset => ?_, fun _ => ?_, fun _ _ => ?_, fun _ => ?_,
    fun _ => ?_, fun looked => ?_, ?_⟩
  · cases started'.symm.trans clearing
  · exact absurd reset (Thread.ne_resetPipeline started')
  · rw [pipeline]
    exact (h.carries behind).transfer same passed
  · rw [pipeline, empty]
  · rw [pipeline, empty]
    exact Nat.zero_le _
  · have played := h.played started
    rw [nothing] at played
    rw [outfifo1, nothing', Over.outputSamples, same.runs]
    exact played
  · rw [outfifo1]
    exact room looked
  · rw [nothing']
    exact Nat.zero_le _

/-- A run of the pipeline, whose output is put to `outfifo1` next. -/
theorem Transmits.executed (h : Transmits lib s turn t) (started : s.thread.clearing = false)
    (nothing : s.thread.pending = []) (looked : s.thread.hasRoom = true)
    {input : List Int16} {t' : Transmission F N S E W L R} (played : t'.played = t.played)
    (started' : s'.thread.clearing = false) (away : s'.thread ≠ .executeEoo)
    (outfifo1 : s'.outfifo1 = s.outfifo1)
    (runs : after.runs = turn.runs ++ [(TxPipeline.execute lib config.rates s.pipeline input).1])
    (pending : s'.thread.pending =
      (TxPipeline.execute lib config.rates s.pipeline input).1.outputSamples)
    (carries : Carries lib config s'.pipeline after t')
    (empty : s'.pipeline.tx.outputSampleFifo = .empty)
    (short : (TxPipeline.execute lib config.rates s.pipeline input).1.outputSamples.length ≤
      config.nsam_one_modem_frame sizes) : Transmits lib s' after t' := by
  refine ⟨fun clearing => ?_, fun reset => ?_, fun _ => carries, fun _ _ => empty, fun here => ?_,
    fun _ => ?_, fun _ => ?_, ?_⟩
  · cases started'.symm.trans clearing
  · exact absurd reset (Thread.ne_resetPipeline started')
  · exact absurd here away
  · have before := h.played started
    rw [nothing, List.append_nil] at before
    rw [played, outfifo1, pending, (Over.append_run runs).2.2.2, List.flatten_append,
      List.flatten_singleton, ← before, List.append_assoc]
  · rw [outfifo1]
    exact h.room looked
  · rw [pending]
    exact short

/-- What was put out has room in `outfifo1`. -/
theorem Transmits.written (h : Transmits lib s turn t) (same : turn.SameRuns after)
    (passed : after.passed = turn.passed) (started : s.thread.clearing = false)
    (away : s.thread ≠ .executeEoo) (looked : s.thread.hasRoom = true)
    (started' : s'.thread.clearing = false) (nothing' : s'.thread.pending = [])
    (blind : s'.thread.hasRoom = false) (pipeline : s'.pipeline = s.pipeline)
    (outfifo1 : s'.outfifo1 = s.outfifo1.writeAny s.thread.pending) :
    Transmits lib s' after t := by
  have behind := Thread.ne_resetPipeline started
  have empty := h.empty behind away
  have content := Queue.elements_writeAny (h.short.trans (h.room looked))
  refine ⟨fun clearing => ?_, fun reset => ?_, fun _ => ?_, fun _ _ => ?_, fun _ => ?_,
    fun _ => ?_, fun looked => ?_, ?_⟩
  · cases started'.symm.trans clearing
  · exact absurd reset (Thread.ne_resetPipeline started')
  · rw [pipeline]
    exact (h.carries behind).transfer same passed
  · rw [pipeline, empty]
  · rw [pipeline, empty]
    exact Nat.zero_le _
  · rw [outfifo1, content, nothing', List.append_nil, Over.outputSamples, same.runs]
    exact h.played started
  · cases blind.symm.trans looked
  · rw [nothing']
    exact Nat.zero_le _

/-- The resets with which an over begins. -/
theorem Transmits.clear (whole : sizes.Whole) (h : Transmits lib s turn t)
    (current : s.turn = some turn) (mustStopWork : Bool) (clearing : s.thread.clearing = true)
    (recorded : (threadStep lib s mustStopWork).turn = some after) :
    Transmits lib (threadStep lib s mustStopWork) after
      (listen lib s (.threadStep mustStopWork) t) := by
  obtain ⟨runs, produced, passed⟩ := h.fresh clearing
  cases phase : s.thread <;> rw [phase] at clearing <;> try cases clearing
  case resetPipeline =>
    simp only [threadStep, listen, phase, current] at recorded ⊢
    cases recorded
    exact ⟨fun _ => ⟨runs, produced, passed⟩, by rintro ⟨⟩,
      fun _ => .reset whole s.pipeline runs produced passed (h.encState phase) t.played,
      fun _ _ => rfl, by rintro ⟨⟩, by rintro ⟨⟩, by rintro ⟨⟩, Nat.zero_le _⟩
  case resetInfifo1 =>
    simp only [threadStep, listen, phase, current, Option.map_some] at recorded ⊢
    cases recorded
    have carries := h.carries (by rw [phase]; rintro ⟨⟩)
    have empty := h.empty (by rw [phase]; rintro ⟨⟩) (by rw [phase]; rintro ⟨⟩)
    exact ⟨fun _ => ⟨runs, produced, passed⟩, by rintro ⟨⟩,
      fun _ => carries.transfer ⟨rfl, rfl, rfl⟩ rfl, fun _ _ => empty, by rintro ⟨⟩,
      by rintro ⟨⟩, by rintro ⟨⟩, Nat.zero_le _⟩
  case resetOutfifo1 =>
    simp only [threadStep, listen, phase, current] at recorded ⊢
    cases recorded
    have carries := h.carries (by rw [phase]; rintro ⟨⟩)
    have empty := h.empty (by rw [phase]; rintro ⟨⟩) (by rw [phase]; rintro ⟨⟩)
    refine ⟨by rintro ⟨⟩, by rintro ⟨⟩, fun _ => { carries with }, fun _ _ => empty, by rintro ⟨⟩,
      fun _ => ?_, by rintro ⟨⟩, Nat.zero_le _⟩
    rw [(Over.no_run runs).2.2.2]
    rfl

/-- Steps between the resets, the runs of the pipeline and the writes. -/
theorem Transmits.quiet (h : Transmits lib s turn t) (current : s.turn = some turn)
    (mustStopWork : Bool) (quiet : s.thread.quiet = true)
    (recorded : (threadStep lib s mustStopWork).turn = some after) :
    Transmits lib (threadStep lib s mustStopWork) after
      (listen lib s (.threadStep mustStopWork) t) := by
  obtain ⟨-, pipeline, outfifo1, record, started', nothing'⟩ :=
    threadStep_of_quiet lib mustStopWork quiet
  obtain rfl : after = turn := Option.some.inj (recorded.symm.trans (record.trans current))
  have here : s.thread.clearing = false ∧ s.thread.pending = [] ∧ s.thread ≠ .executeEoo ∧
      listen lib s (.threadStep mustStopWork) t = t := by
    cases phase : s.thread <;> rw [phase] at quiet <;> try cases quiet
    all_goals exact ⟨rfl, rfl, by rintro ⟨⟩, by simp only [listen, phase]⟩
  obtain ⟨started, nothing, away, unheard⟩ := here
  rw [unheard]
  refine h.goto (.refl _) rfl started started' nothing nothing' away pipeline outfifo1 ?_
  intro looked
  have room := h.room
  cases phase : s.thread <;> rw [phase] at quiet room <;> try cases quiet
  case mustStopWork =>
    simp only [threadStep, phase] at looked
    cases mustStopWork <;> cases looked
  case numFree =>
    simp only [threadStep, phase] at looked
    split at looked
    · assumption
    · cases looked
  case storeEnqueued =>
    simp only [threadStep, phase] at looked
    cases looked
  all_goals exact room rfl

omit [FloatArith D] [FloatArith F] in
theorem Streams.length_input (streams : Streams config s turn)
    {block : Option (List Int16)} (phase : s.thread = .executeBlock block) :
    (config.input block).length = config.nsam_in_48 := by
  have whole := streams.whole
  rw [phase] at whole
  cases block with
  | none => exact List.length_replicate
  | some block => exact whole block (List.mem_append_right _ (List.mem_singleton_self block))

/-- The other steps of a call. -/
theorem Transmits.threadStep
    (budget : Budget lib config.rates config.nsam_in_48 denoised levelled
      (config.nsam_one_modem_frame sizes))
    (streams : Streams config s turn) (h : Transmits lib s turn t)
    (current : s.turn = some turn) (mustStopWork : Bool) (running : s.thread ≠ .idle)
    (started : s.thread.clearing = false)
    (recorded : (threadStep lib s mustStopWork).turn = some after) :
    Transmits lib (MinimalTxRxThread.threadStep lib s mustStopWork) after
      (listen lib s (.threadStep mustStopWork) t) := by
  by_cases quiet : s.thread.quiet = true
  · exact h.quiet current mustStopWork quiet recorded
  have behind := Thread.ne_resetPipeline started
  have carries := h.carries behind
  cases phase : s.thread <;> rw [phase] at quiet started <;> try contradiction
  case restartVocoder =>
    have empty := h.empty behind (by rw [phase]; rintro ⟨⟩)
    obtain ⟨restarted, queued⟩ := carries.restart empty budget.eoo (turn.restarts + 1)
    have played := h.played (by rw [phase]; rfl)
    have room := h.room (by rw [phase]; rfl)
    rw [phase] at played
    simp only [MinimalTxRxThread.threadStep, restart, listen, phase, current, Option.map_some]
      at recorded ⊢
    cases recorded
    exact ⟨by rintro ⟨⟩, by rintro ⟨⟩, fun _ => restarted, fun _ away => absurd rfl away,
      fun _ => queued.trans_le (Nat.le_max_right _ _), fun _ => played, fun _ => room,
      Nat.zero_le _⟩
  case executeEoo =>
    have short := budget.finish_le s.pipeline.outputResampler (h.queued phase)
    have made := execute_nil lib config s.pipeline
    have empty := execute_nil_empties lib config s.pipeline
    have nothing : (TxPipeline.execute lib config.rates s.pipeline []).1.tx.produced = [] := by
      rw [made]
    simp only [MinimalTxRxThread.threadStep, executeEoo, listen, phase, current, Option.map_some,
      nothing, List.append_nil] at recorded ⊢
    cases recorded
    refine h.executed (by rw [phase]; rfl) (by rw [phase]; rfl) (by rw [phase]; rfl) rfl ?_ ?_ rfl
      rfl ?_ (carries.executeEoo rfl rfl rfl rfl) empty (by rwa [made])
    · split <;> rfl
    · split <;> rintro ⟨⟩
    · split
      · rfl
      · rename_i silent
        exact (List.eq_nil_of_length_eq_zero (Nat.eq_zero_of_not_pos silent)).symm
  case executeBlock block =>
    have length := streams.length_input phase
    have empty := h.empty behind (by rw [phase]; rintro ⟨⟩)
    have cleared := carries.settled.execute budget empty length
    simp only [MinimalTxRxThread.threadStep, executeBlock, listen, phase, current,
      Option.map_some] at recorded ⊢
    cases recorded
    exact h.executed (by rw [phase]; rfl) (by rw [phase]; rfl) (by rw [phase]; rfl) rfl rfl
      (by rintro ⟨⟩) rfl rfl rfl (carries.execute budget empty length rfl rfl rfl rfl)
      cleared.empty cleared.fits
  case writeEoo outputSamples =>
    obtain ⟨log, written⟩ := writeEoo_eq s outputSamples
    simp only [MinimalTxRxThread.threadStep, listen, phase, written] at recorded ⊢
    cases current.symm.trans recorded
    exact h.written (.refl turn) rfl (by rw [phase]; rfl) (by rw [phase]; rintro ⟨⟩)
      (by rw [phase]; rfl) rfl rfl rfl rfl (by rw [phase]; rfl)
  case writeOutput outputSamples =>
    simp only [MinimalTxRxThread.threadStep, listen, phase, current, Option.map_some] at recorded ⊢
    cases recorded
    exact h.written ⟨rfl, rfl, rfl⟩ rfl (by rw [phase]; rfl) (by rw [phase]; rintro ⟨⟩)
      (by rw [phase]; rfl) rfl rfl rfl rfl (by rw [phase]; rfl)

/-- A call begins: an over goes on, begins or ends. -/
theorem Transmits.call (known : ∀ turn, s.turn = some turn → Transmits lib s turn t)
    (mustStopWork : Bool) (idle : s.thread = .idle)
    (recorded : (MinimalTxRxThread.threadStep lib s mustStopWork).turn = some after) :
    Transmits lib (MinimalTxRxThread.threadStep lib s mustStopWork) after
      (listen lib s (.threadStep mustStopWork) t) := by
  simp only [MinimalTxRxThread.threadStep, listen, idle] at recorded ⊢
  split at recorded
  · rename_i transmitting
    rw [if_pos transmitting]
    split at recorded
    · rename_i deferred
      rw [if_pos deferred]
      cases recorded
      exact ⟨fun _ => ⟨rfl, rfl, rfl⟩, fun _ => rfl, fun running => absurd rfl running,
        fun running => absurd rfl running, by rintro ⟨⟩, by rintro ⟨⟩, by rintro ⟨⟩, Nat.zero_le _⟩
    · rename_i going
      rw [if_neg going]
      exact (known after recorded).goto (.refl _) rfl (by rw [idle]; rfl) rfl (by rw [idle]; rfl)
        rfl (by rw [idle]; rintro ⟨⟩) rfl rfl (by rintro ⟨⟩)
  · cases recorded

/-! ## The application -/

/-- A step that moves samples from `outfifo1` to what was played, at most. -/
theorem Transmits.applied {t' : Transmission F N S E W L R} (h : Transmits lib s turn t)
    (same : turn.SameRuns after)
    (passed : after.passed = turn.passed) (thread : s'.thread = s.thread)
    (pipeline : s'.pipeline = s.pipeline)
    (start : t'.start = t.start) (given : t'.given = t.given)
    (moved : t'.played ++ s'.outfifo1.elements = t.played ++ s.outfifo1.elements)
    (room : s.outfifo1.numFree ≤ s'.outfifo1.numFree) : Transmits lib s' after t' := by
  obtain ⟨start', given', played⟩ := t'
  cases start
  cases given
  refine ⟨?_, ?_, ?_, ?_, ?_, ?_, ?_, ?_⟩
  · rw [thread, same.runs, same.produced, passed]
    exact h.fresh
  · rw [thread, pipeline, same.encState]
    exact h.encState
  · rw [thread, pipeline]
    exact fun started => { (h.carries started).transfer same passed with }
  · rw [thread, pipeline]
    exact h.empty
  · rw [thread, pipeline]
    exact h.queued
  · rw [thread, Over.outputSamples, same.runs, ← List.append_assoc, moved, List.append_assoc]
    exact h.played
  · rw [thread]
    exact fun looked => (h.room looked).trans room
  · rw [thread]
    exact h.short

theorem Transmits.next
    (budget : Budget lib config.rates config.nsam_in_48 denoised levelled
      (config.nsam_one_modem_frame sizes))
    (streams : ∀ turn, s.turn = some turn → Streams config s turn)
    (known : ∀ turn, s.turn = some turn → Transmits lib s turn t) {action : Action}
    (stepped : next lib s action = some s') :
    ∀ after, s'.turn = some after → Transmits lib s' after (listen lib s action t) := by
  intro after recorded
  cases action with
  | threadStep mustStopWork =>
      cases stepped
      by_cases idle : s.thread = .idle
      · exact Transmits.call known mustStopWork idle recorded
      obtain ⟨turn, current, -⟩ := threadStep_over mustStopWork idle recorded
      cases clearing : s.thread.clearing with
      | true => exact (known turn current).clear budget.whole current mustStopWork clearing recorded
      | false =>
          exact (known turn current).threadStep budget (streams turn current) current mustStopWork
            idle clearing recorded
  | write samples =>
      cases stepped
      simp only [MinimalTxRxThread.write, State.record] at recorded ⊢
      cases written : s.infifo1.write samples with
      | none =>
          simp only [written] at recorded ⊢
          obtain ⟨turn, current, rfl⟩ := Option.map_eq_some_iff.mp recorded
          exact (known turn current).applied ⟨rfl, rfl, rfl⟩ rfl rfl rfl rfl rfl rfl (Nat.le_refl _)
      | some infifo1 =>
          simp only [written, Option.map_map] at recorded ⊢
          obtain ⟨turn, current, rfl⟩ := Option.map_eq_some_iff.mp recorded
          exact (known turn current).applied ⟨rfl, rfl, rfl⟩ rfl rfl rfl rfl rfl rfl (Nat.le_refl _)
  | drain len =>
      cases stepped
      rw [drain_eq] at recorded ⊢
      refine (known after recorded).applied (.refl _) rfl rfl rfl rfl rfl ?_ ?_
      · simp only [listen, List.append_assoc, Queue.getD_read_append]
      · exact Nat.sub_le_sub_left (s.outfifo1.sublist_getD_read len).length_le _
  | storeTx value =>
      cases stepped
      exact (known after recorded).applied (.refl _) rfl rfl rfl rfl rfl rfl (Nat.le_refl _)
  | storeEndingTx value =>
      cases stepped
      obtain ⟨turn, current, rfl⟩ := Option.map_eq_some_iff.mp recorded
      exact (known turn current).applied ⟨rfl, rfl, rfl⟩ rfl rfl rfl rfl rfl rfl (Nat.le_refl _)

/-! ## Every transmission -/

/-- Nothing of an over is lost between the microphone and the radio. -/
structure Complete (lib : Libraries sizes D F N S E W L R) (s : State config F N S E W L R)
    (turn : Over F L) (t : Transmission F N S E W L R) : Prop where
  /-- What was written to `infifo1` was given to the pipeline, is in hand or is still there. -/
  written : (t.given.reduceOption ++ s.thread.inHand).flatten ++ s.infifo1.elements = turn.written
  /-- The speech made of it is in the frames, or waits for a whole one. -/
  frames : turn.frames.flatten ++ s.pipeline.tx.inputSampleFifo.elements =
    (t.speech lib config).1.flatten
  /-- The features of the frames are in the batches, or wait for a full one. -/
  features : turn.batches.flatten ++ s.pipeline.tx.featureList = (turn.features lib).1.flatten
  /-- What the modulator made of the batches, and the end of over, went to the sound card's side
  or is still queued. -/
  modem : turn.modemSamples.flatten ++ s.pipeline.tx.outputSampleFifo.elements = turn.produced
  /-- What was made of that was read from `outfifo1`, is in it or is about to be written to it. -/
  played : t.played ++ (s.outfifo1.elements ++ s.thread.pending) =
    (t.sound lib config turn.modemSamples).1.flatten

/-- Within the budget a transmission loses nothing, from the reset on and under every interleaving:
neither speech nor features nor modem samples nor what is written to `outfifo1`. -/
theorem transmission_loses_nothing (config : Config) (lib : Libraries sizes D F N S E W L R)
    (denoised levelled : Nat)
    (budget : Budget lib config.rates config.nsam_in_48 denoised levelled
      (config.nsam_one_modem_frame sizes))
    (g_tx endingTx g_eoo_enqueued : Bool) (pipeline : TxPipeline.State F N S E W L R)
    (begun t : Transmission F N S E W L R) (s : State config F N S E W L R)
    (reachable : Reachable (withHistory (next lib) (listen lib)) (fun _ _ => True)
      (State.initial g_tx endingTx g_eoo_enqueued pipeline, begun) (s, t))
    (turn : Over F L) (current : s.turn = some turn) (started : s.thread.clearing = false) :
    Complete lib s turn t := by
  have transmits : ∀ turn, s.turn = some turn → Transmits lib s turn t := by
    refine Reachable.with_history (fun _ _ => True)
      (fun s t => ∀ turn, s.turn = some turn → Transmits lib s turn t) ?_ ?_ reachable
    · intro turn none
      cases none
    · intro before t action after reached known _ stepped
      exact Transmits.next budget (Streams.of_reachable reached) known stepped
  have h := transmits turn current
  have carries := h.carries (Thread.ne_resetPipeline started)
  have streams := Streams.of_reachable (reachable.forget fun _ _ => True) turn current
  refine ⟨?_, carries.frames, carries.features, carries.modem, ?_⟩
  · rw [carries.given]
    exact streams.stream (Thread.resetting_of_started started)
  · rw [h.played started, ← carries.sound]

/-! ### A short transmission -/

section Silence

open RADETransmitStep (twelveFrames_whole)

theorem length_silentResampler {inputSampleRate outputSampleRate : Nat}
    (slower : outputSampleRate ≤ inputSampleRate) (state : Unit) (samples : List Int16) :
    (ResampleStep.processAll silentResampler inputSampleRate outputSampleRate state
      samples).1.length ≤ samples.length := by
  fun_induction ResampleStep.processAll silentResampler inputSampleRate outputSampleRate state
    samples with
  | case1 state samples inputSize positive output state' given rest state'' further ih =>
      have piece : output.length ≤ inputSize := by
        have same : output = List.replicate
            ((samples.take inputSize).length * outputSampleRate / inputSampleRate) 0 :=
          congrArg Prod.fst given.symm
        rw [same, List.length_replicate, List.length_take_of_le (Nat.min_le_left _ _)]
        exact Nat.div_le_of_le_mul (by rw [Nat.mul_comm]; exact Nat.mul_le_mul_right _ slower)
      simp only [further, List.length_drop] at ih
      rw [List.length_append]
      have most : inputSize ≤ samples.length := Nat.min_le_left _ _
      omega
  | case2 => exact Nat.zero_le _

theorem silentLibraries_budget :
    letI := exactArith ℚ
    Budget silentLibraries soundCards.rates soundCards.nsam_in_48 1440 1600
      (soundCards.nsam_one_modem_frame RADETransmitStep.twelveFrames) := by
  let := exactArith ℚ
  constructor
  · exact twelveFrames_whole
  · intro state block length
    have same : (TxPipeline.resample silentLibraries soundCards.rates.inputSampleRate
        RNNoiseStep.RNNOISE_SAMPLE_RATE state block).1 = block := rfl
    rw [same, length]
    decide
  · intro state samples short
    have fewer : (TxPipeline.resample silentLibraries RNNoiseStep.RNNOISE_SAMPLE_RATE
        (AgcStep.runRate TxPipeline.AGC_SAMPLE_RATE) state samples).1.length ≤ samples.length := by
      rw [TxPipeline.resample, ResampleStep.execute]
      split
      · exact Nat.le_refl _
      · split
        · exact Nat.zero_le _
        · exact length_silentResampler (by decide) state samples
    exact Nat.add_le_add (fewer.trans short) (Nat.le_refl 160)
  · decide
  · decide
  · decide
  · intro state samples short
    have same : (TxPipeline.resample silentLibraries RADE_MODEM_SAMPLE_RATE
        soundCards.rates.outputSampleRate state samples).1 = samples := rfl
    rw [same]
    exact short

/-- One block of speech and the end of over, of which the application reads a part. -/
theorem transmission_loses_nothing_of_one_block :
    letI := exactArith ℚ
    ∃ (s : State soundCards ℚ Unit Unit Unit Unit Unit Unit)
      (t : Transmission ℚ Unit Unit Unit Unit Unit Unit) (turn : Over ℚ Unit),
      s.turn = some turn ∧ turn.passed.length = 1 ∧ t.played.length = 2000 ∧
      Complete silentLibraries s turn t := by
  let := exactArith ℚ
  have executed : (runActions (withHistory (next silentLibraries) (listen silentLibraries))
      (fun _ _ => True) (soundCardsStart, ⟨soundCardsStart.pipeline, [], []⟩)
      (List.flatten [firstIteration, [.write (List.replicate 960 5)],
        List.replicate 6 (.threadStep false), [.storeEndingTx true],
        List.replicate 14 (.threadStep false), [.drain 2000]])).map
        (fun watched => (watched.1.thread.clearing, watched.2.played.length,
          watched.1.turn.map fun turn => turn.passed.length)) =
      some (false, 2000, some 1) := by
    decide +kernel
  obtain ⟨⟨s, t⟩, executed, observed⟩ := Option.map_eq_some_iff.mp executed
  simp only [Prod.mk.injEq] at observed
  obtain ⟨started, played, recorded⟩ := observed
  obtain ⟨turn, current, passed⟩ := Option.map_eq_some_iff.mp recorded
  exact ⟨s, t, turn, current, passed, played,
    transmission_loses_nothing soundCards silentLibraries 1440 1600 silentLibraries_budget false
      false false _ _ t s (Reachable.of_runActions _ .start executed) turn current started⟩

end Silence

end FreeDV.Pipeline.MinimalTxRxThread
