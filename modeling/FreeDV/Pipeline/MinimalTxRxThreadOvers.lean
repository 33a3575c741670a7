import FreeDV.Pipeline.AudioPipelineProperties
import FreeDV.Pipeline.MinimalTxRxThreadEoo

/-!
# What an over hands on

An over begins with a reset of the pipeline and of both FIFOs. From then on the
features that reach the modulator are those of the over's own frames, and the
samples that reach `outfifo1` stem from what the modem gave in the over.
-/

set_option autoImplicit false

namespace FreeDV.Pipeline.MinimalTxRxThread

open Lib Util.GenericFifo
open RADETransmitStep (TxSizes)
open TxPipeline (Libraries Rates ResetsLibraries finish)

variable {config : Config} {sizes : TxSizes} {D F N S E W L R : Type} [FloatArith D]
  [FloatArith F] {lib : Libraries sizes D F N S E W L R} {rates : Rates}
  {s s' : State config F N S E W L R} {turn after : Over F L}

/-! ## What goes through the pipeline in an over -/

/-- The frames passed to the feature extraction. -/
def Over.frames (turn : Over F L) : List (List Int16) := turn.runs.flatMap fun run => run.tx.frames

/-- The sets of features passed to `rade_tx`. -/
def Over.batches (turn : Over F L) : List (List F) := turn.runs.flatMap fun run => run.tx.batches

/-- What each run of the pipeline has behind the transmitter. -/
def Over.modemSamples (turn : Over F L) : List (List Int16) :=
  turn.runs.map fun run => run.tx.outputSamples

/-- What each run of the pipeline puts out. -/
def Over.outputSamples (turn : Over F L) : List (List Int16) :=
  turn.runs.map fun run => run.outputSamples

/-- The features computed in an over, and the encoder behind them. -/
def Over.features (lib : Libraries sizes D F N S E W L R) (turn : Over F L) : List (List F) × L :=
  mapBlocks lib.rade.computeSingleFrameFeatures turn.encState turn.frames

/-- Where the pipeline stands in an over: the features of its frames are passed on or waiting, the
samples it has put out or queued are those the modem gave, and they went through a resampler that
was like new. -/
structure Flows (lib : Libraries sizes D F N S E W L R) (rates : Rates)
    (pipeline : TxPipeline.State F N S E W L R) (turn : Over F L) : Prop where
  encState : pipeline.tx.encState = (turn.features lib).2
  features : turn.batches.flatten ++ pipeline.tx.featureList = (turn.features lib).1.flatten
  modem : (turn.modemSamples.flatten ++ pipeline.tx.outputSampleFifo.elements).Sublist turn.produced
  resampler : Alike id id
    (lib.resample.srcProcess RADE_MODEM_SAMPLE_RATE rates.outputSampleRate)
    pipeline.outputResampler
    (mapBlocks (finish lib rates) lib.resample.srcNew turn.modemSamples).2
  output : turn.outputSamples =
    (mapBlocks (finish lib rates) lib.resample.srcNew turn.modemSamples).1

/-- Records of an over with the same runs of the pipeline. -/
structure Over.SameRuns (turn after : Over F L) : Prop where
  encState : after.encState = turn.encState
  runs : after.runs = turn.runs
  produced : after.produced = turn.produced

omit [FloatArith D] in
theorem Flows.transfer {pipeline : TxPipeline.State F N S E W L R}
    (flows : Flows lib rates pipeline turn) (same : turn.SameRuns after) :
    Flows lib rates pipeline after := by
  obtain ⟨orderly, iterated, written, passed, restarts, emptied, encState, runs, produced⟩ := after
  obtain ⟨rfl, rfl, rfl⟩ := same
  exact { flows with }

omit [FloatArith D] [FloatArith F] in
theorem Over.no_run (runs : turn.runs = []) :
    turn.frames = [] ∧ turn.batches = [] ∧ turn.modemSamples = [] ∧ turn.outputSamples = [] := by
  simp [Over.frames, Over.batches, Over.modemSamples, Over.outputSamples, runs]

omit [FloatArith D] [FloatArith F] in
theorem Over.append_run {run : TxPipeline.Run F} (runs : after.runs = turn.runs ++ [run]) :
    after.frames = turn.frames ++ run.tx.frames ∧ after.batches = turn.batches ++ run.tx.batches ∧
      after.modemSamples = turn.modemSamples ++ [run.tx.outputSamples] ∧
      after.outputSamples = turn.outputSamples ++ [run.outputSamples] := by
  simp [Over.frames, Over.batches, Over.modemSamples, Over.outputSamples, runs]

omit [FloatArith D] in
theorem Flows.reset (resets : ResetsLibraries lib) (rates : Rates)
    {pipeline : TxPipeline.State F N S E W L R} (runs : turn.runs = [])
    (produced : turn.produced = []) (encState : pipeline.tx.encState = turn.encState) :
    Flows lib rates (TxPipeline.reset lib pipeline) turn := by
  obtain ⟨frames, batches, modem, output⟩ := Over.no_run runs
  refine ⟨?_, ?_, ?_, ?_, ?_⟩
  · rw [Over.features, frames]
    exact encState
  · rw [Over.features, frames, batches]
    rfl
  · rw [modem, produced]
    exact List.Sublist.refl []
  · rw [modem]
    exact resets.resample _ _ _
  · rw [modem, output]
    rfl

/-- A run of the pipeline. -/
theorem Flows.execute {pipeline : TxPipeline.State F N S E W L R}
    (flows : Flows lib rates pipeline turn) (input : List Int16)
    (runs : after.runs = turn.runs ++ [(TxPipeline.execute lib rates pipeline input).1])
    (produced : after.produced =
      turn.produced ++ (TxPipeline.execute lib rates pipeline input).1.tx.produced)
    (encState : after.encState = turn.encState) :
    Flows lib rates (TxPipeline.execute lib rates pipeline input).2 after := by
  obtain ⟨frames, batches, modemSamples, outputSamples⟩ := Over.append_run runs
  obtain ⟨heardState, heard⟩ := RADETransmitStep.execute_collects lib.rade pipeline.tx
    (TxPipeline.prepare lib rates pipeline input).1
  have emitted := RADETransmitStep.execute_emits lib.rade pipeline.tx
    (TxPipeline.prepare lib rates pipeline input).1
  obtain ⟨finished, resampler⟩ := TxPipeline.finish_alike View.samples flows.resampler
    (Eq.refl (id (TxPipeline.execute lib rates pipeline input).1.tx.outputSamples))
  have features : after.features lib =
      ((turn.features lib).1 ++ (mapBlocks lib.rade.computeSingleFrameFeatures
          pipeline.tx.encState (TxPipeline.execute lib rates pipeline input).1.tx.frames).1,
        (mapBlocks lib.rade.computeSingleFrameFeatures pipeline.tx.encState
          (TxPipeline.execute lib rates pipeline input).1.tx.frames).2) := by
    rw [Over.features, encState, frames, mapBlocks_append, flows.encState]
    rfl
  refine ⟨?_, ?_, ?_, ?_, ?_⟩
  · rw [features]
    exact heardState
  · rw [features, batches, List.flatten_append, List.flatten_append, List.append_assoc,
      ← flows.features, List.append_assoc]
    exact congrArg (turn.batches.flatten ++ ·) heard
  · rw [modemSamples, produced, List.flatten_append, List.flatten_singleton, List.append_assoc]
    refine ((List.Sublist.refl turn.modemSamples.flatten).append emitted).trans ?_
    rw [← List.append_assoc]
    exact flows.modem.append (List.Sublist.refl _)
  · rw [modemSamples, mapBlocks_append]
    exact resampler
  · rw [modemSamples, outputSamples, mapBlocks_append, flows.output]
    exact congrArg (fun samples => _ ++ [samples]) finished

omit [FloatArith D] in
/-- The end of over is queued, if there is room for it. -/
theorem Flows.restart {pipeline : TxPipeline.State F N S E W L R}
    (flows : Flows lib rates pipeline turn) (restarts : Nat) :
    Flows lib rates
      { pipeline with tx := RADETransmitStep.restartVocoder lib.rade pipeline.tx }
      { turn with
        restarts
        produced := turn.produced ++
          (RADETransmitStep.radeOutShort lib.rade (lib.rade.radeTxEoo pipeline.tx.dv).1 ++
            List.replicate RADETransmitStep.NUM_SAMPLES_SILENCE 0) } := by
  refine { flows with modem := ?_ }
  have queued := pipeline.tx.outputSampleFifo.sublist_writeAny
    (RADETransmitStep.radeOutShort lib.rade (lib.rade.radeTxEoo pipeline.tx.dv).1 ++
      List.replicate RADETransmitStep.NUM_SAMPLES_SILENCE 0)
  refine ((List.Sublist.refl turn.modemSamples.flatten).append queued).trans ?_
  rw [← List.append_assoc]
  exact flows.modem.append (List.Sublist.refl _)

/-! ## The thread in an over -/

/-- The over begins with these. -/
def Thread.clearing : Thread → Bool
  | .resetPipeline => true
  | .resetInfifo1 => true
  | .resetOutfifo1 => true
  | _ => false

omit [FloatArith D] [FloatArith F] in
theorem Thread.resetting_of_started {thread : Thread} (started : thread.clearing = false) :
    thread.resetting = false := by
  cases thread with
  | resetPipeline | resetInfifo1 => cases started
  | _ => rfl

/-- What the thread is about to write to `outfifo1`. -/
def Thread.pending : Thread → List Int16
  | .writeEoo outputSamples => outputSamples
  | .writeOutput outputSamples => outputSamples
  | _ => []

/-- Nothing from before the over is left, but for what the resets under way will remove. -/
structure Clean (lib : Libraries sizes D F N S E W L R) (s : State config F N S E W L R)
    (turn : Over F L) : Prop where
  deferReset : s.deferReset = false
  fresh : s.thread.clearing = true →
    turn.iterated = false ∧ turn.runs = [] ∧ turn.produced = []
  encState : s.thread = .resetPipeline → s.pipeline.tx.encState = turn.encState
  flows : s.thread ≠ .resetPipeline → Flows lib config.rates s.pipeline turn
  queued : s.thread.clearing = false →
    (s.outfifo1.elements ++ s.thread.pending).Sublist turn.outputSamples.flatten

omit [FloatArith D] [FloatArith F] in
theorem Thread.ne_resetPipeline {thread : Thread} (started : thread.clearing = false) :
    thread ≠ .resetPipeline := by
  rintro rfl
  cases started

omit [FloatArith D] in
/-- Behind the resets, no more than samples on their way may be lost. -/
theorem Clean.keep (clean : Clean lib s turn) (same : turn.SameRuns after)
    (started : s.thread.clearing = false) (started' : s'.thread.clearing = false)
    (deferReset : s'.deferReset = s.deferReset) (pipeline : s'.pipeline = s.pipeline)
    (fewer : (s'.outfifo1.elements ++ s'.thread.pending).Sublist
      (s.outfifo1.elements ++ s.thread.pending)) :
    Clean lib s' after := by
  refine ⟨deferReset.trans clean.deferReset, ?_, ?_, ?_, ?_⟩
  · intro clearing
    cases started'.symm.trans clearing
  · intro reset
    exact absurd reset (Thread.ne_resetPipeline started')
  · intro _
    rw [pipeline]
    exact (clean.flows (Thread.ne_resetPipeline started)).transfer same
  · intro _
    rw [Over.outputSamples, same.runs]
    exact fewer.trans (clean.queued started)

/-- A run of the pipeline, whose output is put to `outfifo1` next, if there is any. -/
theorem Clean.execute (clean : Clean lib s turn) (started : s.thread.clearing = false)
    (idle : s.thread.pending = []) (input : List Int16) (started' : s'.thread.clearing = false)
    (deferReset : s'.deferReset = s.deferReset)
    (pipeline : s'.pipeline = (TxPipeline.execute lib config.rates s.pipeline input).2)
    (outfifo1 : s'.outfifo1 = s.outfifo1)
    (pending : s'.thread.pending.Sublist
      (TxPipeline.execute lib config.rates s.pipeline input).1.outputSamples)
    (encState : after.encState = turn.encState)
    (runs : after.runs = turn.runs ++ [(TxPipeline.execute lib config.rates s.pipeline input).1])
    (produced : after.produced =
      turn.produced ++ (TxPipeline.execute lib config.rates s.pipeline input).1.tx.produced) :
    Clean lib s' after := by
  have queued := clean.queued started
  rw [idle, List.append_nil] at queued
  refine ⟨deferReset.trans clean.deferReset, ?_, ?_, ?_, ?_⟩
  · intro clearing
    cases started'.symm.trans clearing
  · intro reset
    exact absurd reset (Thread.ne_resetPipeline started')
  · intro _
    rw [pipeline]
    exact (clean.flows (Thread.ne_resetPipeline started)).execute input runs produced encState
  · intro _
    rw [outfifo1, (Over.append_run runs).2.2.2, List.flatten_append, List.flatten_singleton]
    exact queued.append pending

omit [FloatArith D] [FloatArith F] in
theorem Over.SameRuns.refl (turn : Over F L) : turn.SameRuns turn := ⟨rfl, rfl, rfl⟩

/-- The resets. -/
theorem Clean.clear (resets : ResetsLibraries lib) (clean : Clean lib s turn)
    (current : s.turn = some turn) (mustStopWork : Bool) (clearing : s.thread.clearing = true)
    (recorded : (threadStep lib s mustStopWork).turn = some after) :
    Clean lib (threadStep lib s mustStopWork) after := by
  obtain ⟨iterated, runs, produced⟩ := clean.fresh clearing
  cases phase : s.thread <;> rw [phase] at clearing <;> try cases clearing
  case resetPipeline =>
    simp only [threadStep, phase, current] at recorded ⊢
    cases recorded
    exact ⟨clean.deferReset, fun _ => ⟨iterated, runs, produced⟩, by rintro ⟨⟩,
      fun _ => Flows.reset resets _ runs produced (clean.encState phase), by rintro ⟨⟩⟩
  case resetInfifo1 =>
    simp only [threadStep, phase, current, Option.map_some] at recorded ⊢
    cases recorded
    have flows := clean.flows (by rw [phase]; rintro ⟨⟩)
    exact ⟨clean.deferReset, fun _ => ⟨iterated, runs, produced⟩, by rintro ⟨⟩, fun _ => { flows with },
      (by rintro ⟨⟩)⟩
  case resetOutfifo1 =>
    simp only [threadStep, phase, current] at recorded ⊢
    cases recorded
    have flows := clean.flows (by rw [phase]; rintro ⟨⟩)
    exact ⟨clean.deferReset, by rintro ⟨⟩, by rintro ⟨⟩, fun _ => flows, fun _ => List.nil_sublist _⟩

/-- Steps between the resets, the runs of the pipeline and the writes. -/
def Thread.quiet : Thread → Bool
  | .mustStopWork => true
  | .numFree => true
  | .read => true
  | .loadEndingTx => true
  | .storeEnqueued => true
  | .storeNotEnqueued _ => true
  | _ => false

theorem threadStep_of_quiet (lib : Libraries sizes D F N S E W L R) (mustStopWork : Bool)
    (quiet : s.thread.quiet = true) :
    let s' := threadStep lib s mustStopWork
    s'.deferReset = s.deferReset ∧ s'.pipeline = s.pipeline ∧ s'.outfifo1 = s.outfifo1 ∧
      s'.turn = s.turn ∧ s'.thread.clearing = false ∧ s'.thread.pending = [] := by
  cases phase : s.thread <;> rw [phase] at quiet <;> try cases quiet
  case mustStopWork =>
    simp only [threadStep, phase, true_and]
    cases mustStopWork <;> exact ⟨rfl, rfl⟩
  case numFree =>
    simp only [threadStep, phase, true_and]
    split <;> exact ⟨rfl, rfl⟩
  case read =>
    simp only [threadStep, phase]
    split <;> exact ⟨rfl, rfl, rfl, rfl, rfl, rfl⟩
  case loadEndingTx =>
    simp only [threadStep, phase, true_and]
    cases s.endingTx <;> cases s.hasEooBeenSent <;> exact ⟨rfl, rfl⟩
  case storeEnqueued =>
    simp only [threadStep, phase, true_and]
    exact ⟨rfl, rfl⟩
  case storeNotEnqueued block =>
    simp only [threadStep, phase, true_and]
    exact ⟨rfl, rfl⟩

omit [FloatArith D] [FloatArith F] in
/-- A write that fails leaves no more than a warning. -/
theorem writeEoo_eq (s : State config F N S E W L R) (outputSamples : List Int16) :
    ∃ log, writeEoo s outputSamples =
      { s with outfifo1 := s.outfifo1.writeAny outputSamples, thread := .idle, log := log } := by
  unfold writeEoo Queue.writeAny
  split
  · rename_i written
    rw [written]
    exact ⟨s.log, rfl⟩
  · rename_i refused
    rw [refused]
    exact ⟨_, rfl⟩

/-- The other steps of a call. -/
theorem Clean.threadStep (clean : Clean lib s turn) (current : s.turn = some turn)
    (mustStopWork : Bool) (running : s.thread ≠ .idle) (started : s.thread.clearing = false)
    (recorded : (threadStep lib s mustStopWork).turn = some after) :
    Clean lib (MinimalTxRxThread.threadStep lib s mustStopWork) after := by
  by_cases quiet : s.thread.quiet = true
  · obtain ⟨deferReset, pipeline, outfifo1, record, started', pending⟩ :=
      threadStep_of_quiet lib mustStopWork quiet
    cases current.symm.trans (record.symm.trans recorded)
    refine clean.keep (.refl turn) started started' deferReset pipeline ?_
    rw [outfifo1, pending, List.append_nil]
    exact List.sublist_append_left _ _
  cases phase : s.thread <;> rw [phase] at quiet started <;> try contradiction
  case restartVocoder =>
    simp only [MinimalTxRxThread.threadStep, restart, phase, current, Option.map_some] at recorded ⊢
    cases recorded
    have queued := clean.queued (by rw [phase]; rfl)
    rw [phase] at queued
    have flows := clean.flows (by rw [phase]; rintro ⟨⟩)
    exact ⟨clean.deferReset, by rintro ⟨⟩, by rintro ⟨⟩, fun _ => flows.restart _, fun _ => queued⟩
  case executeEoo =>
    simp only [MinimalTxRxThread.threadStep, executeEoo, phase, current, Option.map_some]
      at recorded ⊢
    cases recorded
    refine clean.execute (by rw [phase]; rfl) (by rw [phase]; rfl) [] ?_ rfl rfl rfl ?_ rfl rfl rfl
    · split <;> rfl
    · split
      · exact List.Sublist.refl _
      · exact List.nil_sublist _
  case executeBlock block =>
    simp only [MinimalTxRxThread.threadStep, executeBlock, phase, current, Option.map_some]
      at recorded ⊢
    cases recorded
    exact clean.execute (by rw [phase]; rfl) (by rw [phase]; rfl) _ rfl rfl rfl rfl
      (List.Sublist.refl _) rfl rfl rfl
  case writeEoo outputSamples =>
    obtain ⟨log, written⟩ := writeEoo_eq s outputSamples
    simp only [MinimalTxRxThread.threadStep, phase, written] at recorded ⊢
    cases current.symm.trans recorded
    refine clean.keep (.refl turn) (by rw [phase]; rfl) rfl rfl rfl ?_
    rw [phase]
    exact (List.append_nil _).symm ▸ s.outfifo1.sublist_writeAny outputSamples
  case writeOutput outputSamples =>
    simp only [MinimalTxRxThread.threadStep, phase, current, Option.map_some] at recorded ⊢
    cases recorded
    refine clean.keep ⟨rfl, rfl, rfl⟩ (by rw [phase]; rfl) rfl rfl rfl ?_
    rw [phase]
    exact (List.append_nil _).symm ▸ s.outfifo1.sublist_writeAny outputSamples

/-- What a step of the application leaves as it is. -/
structure Applied (s s' : State config F N S E W L R) : Prop where
  deferReset : s'.deferReset = s.deferReset
  hasEooBeenSent : s'.hasEooBeenSent = s.hasEooBeenSent
  pipeline : s'.pipeline = s.pipeline
  thread : s'.thread = s.thread
  outfifo1 : s'.outfifo1.elements.Sublist s.outfifo1.elements
  turn : ∃ change, s'.turn = s.turn.map change ∧
    ∀ turn, turn.SameRuns (change turn) ∧ (change turn).iterated = turn.iterated

omit [FloatArith D] [FloatArith F] in
theorem write_eq (s : State config F N S E W L R) (samples : List Int16) :
    ∃ change, write s samples =
        { s with infifo1 := s.infifo1.writeAny samples, turn := s.turn.map change } ∧
      ∀ turn, turn.SameRuns (change turn) ∧ (change turn).iterated = turn.iterated := by
  unfold write State.record Queue.writeAny
  dsimp only
  split
  · rename_i written
    rw [written, Option.map_map]
    exact ⟨_, rfl, fun turn => ⟨⟨rfl, rfl, rfl⟩, rfl⟩⟩
  · rename_i refused
    rw [refused]
    exact ⟨_, rfl, fun turn => ⟨⟨rfl, rfl, rfl⟩, rfl⟩⟩

omit [FloatArith D] [FloatArith F] in
theorem drain_eq (s : State config F N S E W L R) (len : Nat) :
    drain s len = { s with outfifo1 := ((s.outfifo1.read len).getD ([], s.outfifo1)).2 } := by
  unfold drain
  split
  · rename_i taken
    rw [taken]
    rfl
  · rename_i refused
    rw [refused]
    rfl

theorem applied_of_next {action : Action}
    (stepped : next lib s action = some s')
    (application : ∀ mustStopWork, action ≠ .threadStep mustStopWork) : Applied s s' := by
  cases action with
  | threadStep mustStopWork => exact absurd rfl (application mustStopWork)
  | write samples =>
      cases stepped
      obtain ⟨change, written, same⟩ := write_eq s samples
      rw [written]
      exact ⟨rfl, rfl, rfl, rfl, List.Sublist.refl _, change, rfl, same⟩
  | drain len =>
      cases stepped
      have kept : s.turn = s.turn.map id := Option.map_id'.symm ▸ rfl
      rw [drain_eq]
      refine ⟨rfl, rfl, rfl, rfl, ?_, id, kept, fun turn => ⟨.refl turn, rfl⟩⟩
      exact s.outfifo1.sublist_getD_read len
  | storeTx value =>
      cases stepped
      have kept : s.turn = s.turn.map id := Option.map_id'.symm ▸ rfl
      exact ⟨rfl, rfl, rfl, rfl, List.Sublist.refl _, id, kept, fun turn => ⟨.refl turn, rfl⟩⟩
  | storeEndingTx value =>
      cases stepped
      exact ⟨rfl, rfl, rfl, rfl, List.Sublist.refl _, _, rfl, fun turn => ⟨⟨rfl, rfl, rfl⟩, rfl⟩⟩

omit [FloatArith D] in
theorem Clean.applied (clean : Clean lib s turn) (applied : Applied s s')
    (same : turn.SameRuns after) (iterated : after.iterated = turn.iterated) :
    Clean lib s' after := by
  have outputSamples : after.outputSamples = turn.outputSamples := by
    rw [Over.outputSamples, same.runs, Over.outputSamples]
  refine ⟨applied.deferReset.trans clean.deferReset, ?_, ?_, ?_, ?_⟩
  · rw [applied.thread, iterated, same.runs, same.produced]
    exact clean.fresh
  · rw [applied.thread, applied.pipeline, same.encState]
    exact clean.encState
  · rw [applied.thread, applied.pipeline]
    exact fun started => (clean.flows started).transfer same
  · rw [applied.thread, outputSamples]
    exact fun started =>
      (applied.outfifo1.append (List.Sublist.refl _)).trans (clean.queued started)

/-- Overs begin with the resets, and nothing else survives into them. -/
structure OwnOver (lib : Libraries sizes D F N S E W L R) (s : State config F N S E W L R) :
    Prop where
  begun : s.thread.clearing = true → s.turn.isSome = true
  clean : ∀ turn, s.turn = some turn → Clean lib s turn

/-- A call begins: an over goes on, begins or ends. -/
theorem OwnOver.call (own : OwnOver lib s) (mustStopWork : Bool) (idle : s.thread = .idle) :
    OwnOver lib (threadStep lib s mustStopWork) := by
  simp only [threadStep, idle]
  split
  · split
    · refine ⟨fun _ => rfl, fun turn started => ?_⟩
      cases started
      exact ⟨rfl, fun _ => ⟨rfl, rfl, rfl⟩, fun _ => rfl, fun running => absurd rfl running, by rintro ⟨⟩⟩
    · refine ⟨(by rintro ⟨⟩), fun turn current => ?_⟩
      have clean := own.clean turn current
      refine clean.keep (.refl turn) (by rw [idle]; rfl) rfl rfl rfl ?_
      rw [idle]
      exact List.Sublist.refl _
  · refine ⟨(by rintro ⟨⟩), fun turn current => ?_⟩
    cases current

theorem clearing_of_threadStep (mustStopWork : Bool) (running : s.thread ≠ .idle)
    (clearing : (threadStep lib s mustStopWork).thread.clearing = true) :
    s.thread = .resetPipeline ∨ s.thread = .resetInfifo1 := by
  by_cases quiet : s.thread.quiet = true
  · obtain ⟨-, -, -, -, started, -⟩ := threadStep_of_quiet lib mustStopWork quiet
    cases started.symm.trans clearing
  cases phase : s.thread <;> rw [phase] at quiet <;>
    simp only [threadStep, phase] at clearing <;> try contradiction
  case resetPipeline => exact .inl rfl
  case resetInfifo1 => exact .inr rfl
  case executeEoo =>
    unfold executeEoo at clearing
    dsimp only at clearing
    split at clearing <;> cases clearing
  case writeEoo outputSamples =>
    obtain ⟨log, written⟩ := writeEoo_eq s outputSamples
    rw [written] at clearing
    cases clearing

theorem OwnOver.threadStep (resets : ResetsLibraries lib) (own : OwnOver lib s)
    (mustStopWork : Bool) : OwnOver lib (threadStep lib s mustStopWork) := by
  by_cases idle : s.thread = .idle
  · exact own.call mustStopWork idle
  refine ⟨?_, ?_⟩
  · intro clearing
    rcases clearing_of_threadStep mustStopWork idle clearing with phase | phase
    · simp only [MinimalTxRxThread.threadStep, phase]
      exact own.begun (by rw [phase]; rfl)
    · simp only [MinimalTxRxThread.threadStep, phase, Option.isSome_map]
      exact own.begun (by rw [phase]; rfl)
  · intro after recorded
    obtain ⟨turn, current, -⟩ := threadStep_over mustStopWork idle recorded
    cases clearing : s.thread.clearing with
    | true => exact (own.clean turn current).clear resets current mustStopWork clearing recorded
    | false => exact (own.clean turn current).threadStep current mustStopWork idle clearing recorded

theorem OwnOver.next (resets : ResetsLibraries lib) (own : OwnOver lib s) {action : Action}
    (stepped : next lib s action = some s') : OwnOver lib s' := by
  by_cases thread : ∃ mustStopWork, action = .threadStep mustStopWork
  · obtain ⟨mustStopWork, rfl⟩ := thread
    cases stepped
    exact own.threadStep resets mustStopWork
  · have applied := applied_of_next stepped (fun mustStopWork step => thread ⟨mustStopWork, step⟩)
    obtain ⟨change, record, same⟩ := applied.turn
    refine ⟨?_, ?_⟩
    · rw [applied.thread, record, Option.isSome_map]
      exact own.begun
    · intro after recorded
      rw [record] at recorded
      obtain ⟨turn, current, rfl⟩ := Option.map_eq_some_iff.mp recorded
      exact (own.clean turn current).applied applied (same turn).1 (same turn).2

theorem OwnOver.of_reachable {allowed : State config F N S E W L R → Action → Prop}
    (resets : ResetsLibraries lib) (own : OwnOver lib s)
    (reachable : Reachable (MinimalTxRxThread.next lib) allowed s s') : OwnOver lib s' := by
  refine reachable.invariant (OwnOver lib) own ?_
  intro before action after known _ stepped
  exact known.next resets stepped

omit [FloatArith D] in
theorem OwnOver.initial (g_tx endingTx g_eoo_enqueued : Bool)
    (pipeline : TxPipeline.State F N S E W L R) :
    OwnOver lib
      (State.initial g_tx endingTx g_eoo_enqueued pipeline : State config F N S E W L R) := by
  refine ⟨nofun, ?_⟩
  intro turn none
  cases none

/-- What an over hands on is its own: the features passed to `rade_tx` are the first of those
computed from its frames, the modem samples are samples `rade_tx` and `rade_tx_eoo` gave in it, in
order, and what is in `outfifo1` was made from these by a resampler that was like new. -/
structure Isolated (lib : Libraries sizes D F N S E W L R) (s : State config F N S E W L R)
    (turn : Over F L) : Prop where
  batches : turn.batches.flatten <+: (turn.features lib).1.flatten
  modem : turn.modemSamples.flatten.Sublist turn.produced
  output : turn.outputSamples =
    (mapBlocks (finish lib config.rates) lib.resample.srcNew turn.modemSamples).1
  queued : s.thread.clearing = false →
    s.outfifo1.elements.Sublist turn.outputSamples.flatten

omit [FloatArith D] in
theorem Clean.isolated (clean : Clean lib s turn) : Isolated lib s turn := by
  have queued : s.thread.clearing = false →
      s.outfifo1.elements.Sublist turn.outputSamples.flatten :=
    fun started => (List.sublist_append_left _ _).trans (clean.queued started)
  by_cases reset : s.thread = .resetPipeline
  · obtain ⟨-, runs, -⟩ := clean.fresh (by rw [reset]; rfl)
    obtain ⟨-, batches, modem, output⟩ := Over.no_run runs
    refine ⟨?_, ?_, ?_, queued⟩
    · rw [batches]
      exact List.nil_prefix
    · rw [modem]
      exact List.nil_sublist _
    · rw [modem, output]
      rfl
  · have flows := clean.flows reset
    exact ⟨⟨_, flows.features⟩, (List.sublist_append_left _ _).trans flows.modem, flows.output,
      queued⟩

end FreeDV.Pipeline.MinimalTxRxThread
