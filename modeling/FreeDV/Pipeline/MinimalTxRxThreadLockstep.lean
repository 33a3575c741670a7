import FreeDV.Pipeline.MinimalTxRxThreadOvers

/-!
# Overs are isolated

Two threads with different histories that are treated alike from the resets of
an over on stay in lockstep, and pass the same frames to the feature extraction.
The encoder and the modem are not reset and their outputs may differ; how many
samples reach `outfifo1` must not depend on them.
-/

set_option autoImplicit false

namespace FreeDV.Pipeline.MinimalTxRxThread

open Lib Util.GenericFifo
open RADETransmitStep (TxSizes)
open TxPipeline (Libraries ResetsLibraries CountsSamples SpeechAlike finish)

variable {config : Config} {sizes : TxSizes} {D F N S E W L R : Type} [FloatArith D]
  [FloatArith F] {lib : Libraries sizes D F N S E W L R} {s s' : State config F N S E W L R}
  {turn turn' after after' : Over F L}

/-! ## Two threads in lockstep -/

/-- The same place, but for the values of the samples to be written. -/
inductive Thread.Same : Thread → Thread → Prop
  | refl (thread : Thread) : Same thread thread
  | writeEoo {outputSamples outputSamples' : List Int16} :
      outputSamples.length = outputSamples'.length →
      Same (.writeEoo outputSamples) (.writeEoo outputSamples')
  | writeOutput {outputSamples outputSamples' : List Int16} :
      outputSamples.length = outputSamples'.length →
      Same (.writeOutput outputSamples) (.writeOutput outputSamples')

/-- Two threads within overs with the same actions. Each part of the state is the same, or counted
the same, as soon as the reset that clears it is over; before the first iteration the end of over
is not thought of. -/
structure Lockstep (lib : Libraries sizes D F N S E W L R) (s s' : State config F N S E W L R)
    (turn turn' : Over F L) : Prop where
  thread : s.thread.Same s'.thread
  endingTx : s.endingTx = s'.endingTx
  deferReset : s.deferReset = false ∧ s'.deferReset = false
  iterated : turn.iterated = turn'.iterated
  frames : turn.frames = turn'.frames
  pipeline : s.thread ≠ .resetPipeline → SpeechAlike lib config.rates s.pipeline s'.pipeline
  infifo1 : s.thread.resetting = false → s.infifo1 = s'.infifo1
  outfifo1 : s.thread.clearing = false → s.outfifo1.numUsed = s'.outfifo1.numUsed
  first : turn.iterated = false → s.endingTx = false ∧ s.thread.ending = false
  sent : turn.iterated = true ∨ s.thread.announced = true → s.hasEooBeenSent = s'.hasEooBeenSent

/-- What is the same behind the resets, whatever the threads do next. -/
structure Abreast (lib : Libraries sizes D F N S E W L R) (s s' : State config F N S E W L R)
    (turn turn' : Over F L) : Prop where
  endingTx : s.endingTx = s'.endingTx
  deferReset : s.deferReset = false ∧ s'.deferReset = false
  iterated : turn.iterated = turn'.iterated
  frames : turn.frames = turn'.frames
  pipeline : SpeechAlike lib config.rates s.pipeline s'.pipeline
  infifo1 : s.infifo1 = s'.infifo1
  outfifo1 : s.outfifo1.numUsed = s'.outfifo1.numUsed
  first : turn.iterated = false → s.endingTx = false
  sent : turn.iterated = true → s.hasEooBeenSent = s'.hasEooBeenSent

omit [FloatArith D] [FloatArith F] in
theorem Lockstep.abreast (lock : Lockstep lib s s' turn turn')
    (started : s.thread.clearing = false) : Abreast lib s s' turn turn' where
  endingTx := lock.endingTx
  deferReset := lock.deferReset
  iterated := lock.iterated
  frames := lock.frames
  pipeline := lock.pipeline (Thread.ne_resetPipeline started)
  infifo1 := lock.infifo1 (Thread.resetting_of_started started)
  outfifo1 := lock.outfifo1 started
  first before := (lock.first before).1
  sent behind := lock.sent (.inl behind)

omit [FloatArith D] [FloatArith F] in
theorem Abreast.lockstep (abreast : Abreast lib s s' turn turn') (thread : s.thread.Same s'.thread)
    (ending : turn.iterated = false → s.thread.ending = false)
    (announced : s.thread.announced = true → s.hasEooBeenSent = s'.hasEooBeenSent) :
    Lockstep lib s s' turn turn' where
  thread := thread
  endingTx := abreast.endingTx
  deferReset := abreast.deferReset
  iterated := abreast.iterated
  frames := abreast.frames
  pipeline _ := abreast.pipeline
  infifo1 _ := abreast.infifo1
  outfifo1 _ := abreast.outfifo1
  first before := ⟨abreast.first before, ending before⟩
  sent known := known.elim abreast.sent announced

def Thread.writes : Thread → Bool
  | .writeEoo _ => true
  | .writeOutput _ => true
  | _ => false

theorem Thread.Same.eq {thread thread' : Thread} (same : thread.Same thread')
    (quiet : thread.writes = false) : thread' = thread := by
  cases same with
  | refl => rfl
  | writeEoo length => cases quiet
  | writeOutput length => cases quiet

theorem Thread.Same.of_writeEoo {outputSamples : List Int16} {thread' : Thread}
    (same : (Thread.writeEoo outputSamples).Same thread') :
    ∃ outputSamples', thread' = .writeEoo outputSamples' ∧
      outputSamples.length = outputSamples'.length := by
  cases same with
  | refl => exact ⟨_, rfl, rfl⟩
  | writeEoo length => exact ⟨_, rfl, length⟩

theorem Thread.Same.of_writeOutput {outputSamples : List Int16} {thread' : Thread}
    (same : (Thread.writeOutput outputSamples).Same thread') :
    ∃ outputSamples', thread' = .writeOutput outputSamples' ∧
      outputSamples.length = outputSamples'.length := by
  cases same with
  | refl => exact ⟨_, rfl, rfl⟩
  | writeOutput length => exact ⟨_, rfl, length⟩

/-- Both records, in lockstep. -/
def Together (lib : Libraries sizes D F N S E W L R) (s s' : State config F N S E W L R) : Prop :=
  ∃ turn turn', s.turn = some turn ∧ s'.turn = some turn' ∧ Lockstep lib s s' turn turn'

/-! ## Steps of the thread -/

/-- The resets make the states alike one by one. -/
theorem Lockstep.clear (resets : ResetsLibraries lib) (counts : CountsSamples lib.resample)
    (lock : Lockstep lib s s' turn turn') (current : s.turn = some turn)
    (current' : s'.turn = some turn') (mustStopWork : Bool) (clearing : s.thread.clearing = true) :
    Together lib (threadStep lib s mustStopWork) (threadStep lib s' mustStopWork) := by
  have same := lock.thread
  cases phase : s.thread <;> rw [phase] at clearing same <;> try cases clearing
  case resetPipeline =>
    simp only [threadStep, phase, same.eq rfl]
    exact ⟨turn, turn', current, current',
      { lock with
        thread := .refl _
        pipeline := fun _ => SpeechAlike.reset resets counts _ _ _
        infifo1 := by rintro ⟨⟩
        outfifo1 := by rintro ⟨⟩
        first := fun before => ⟨(lock.first before).1, rfl⟩
        sent := fun known => lock.sent (known.imp_right (by rintro ⟨⟩)) }⟩
  case resetInfifo1 =>
    have pipeline := lock.pipeline (by rw [phase]; rintro ⟨⟩)
    simp only [threadStep, phase, same.eq rfl, current, current', Option.map_some]
    exact ⟨_, _, rfl, rfl,
      { lock with
        thread := .refl _
        pipeline := fun _ => pipeline
        infifo1 := fun _ => rfl
        outfifo1 := by rintro ⟨⟩
        first := fun before => ⟨(lock.first before).1, rfl⟩
        sent := fun known => lock.sent (known.imp_right (by rintro ⟨⟩)) }⟩
  case resetOutfifo1 =>
    have pipeline := lock.pipeline (by rw [phase]; rintro ⟨⟩)
    have infifo1 := lock.infifo1 (by rw [phase]; rfl)
    simp only [threadStep, phase, same.eq rfl]
    exact ⟨turn, turn', current, current',
      { lock with
        thread := .refl _
        pipeline := fun _ => pipeline
        infifo1 := fun _ => infifo1
        outfifo1 := fun _ => rfl
        first := fun before => ⟨(lock.first before).1, rfl⟩
        sent := fun known => lock.sent (known.imp_right (by rintro ⟨⟩)) }⟩

theorem Lockstep.quiet (lock : Lockstep lib s s' turn turn') (current : s.turn = some turn)
    (current' : s'.turn = some turn') (mustStopWork : Bool) (quiet : s.thread.quiet = true) :
    Together lib (threadStep lib s mustStopWork) (threadStep lib s' mustStopWork) := by
  have same := lock.thread
  cases phase : s.thread <;> rw [phase] at quiet same <;> try cases quiet
  case mustStopWork =>
    have abreast := lock.abreast (by rw [phase]; rfl)
    simp only [threadStep, phase, same.eq rfl]
    refine ⟨turn, turn', current, current', Abreast.lockstep { abreast with } (.refl _) ?_ ?_⟩
    · cases mustStopWork <;> exact fun _ => rfl
    · cases mustStopWork <;> rintro ⟨⟩
  case numFree =>
    have abreast := lock.abreast (by rw [phase]; rfl)
    have free : s'.outfifo1.numFree = s.outfifo1.numFree := by
      rw [Queue.numFree, Queue.numFree, abreast.outfifo1]
    simp only [threadStep, phase, same.eq rfl, free]
    refine ⟨turn, turn', current, current', Abreast.lockstep { abreast with } (.refl _) ?_ ?_⟩
    · split <;> exact fun _ => rfl
    · split <;> rintro ⟨⟩
  case read =>
    have abreast := lock.abreast (by rw [phase]; rfl)
    simp only [threadStep, phase, same.eq rfl, ← abreast.infifo1]
    split
    · exact ⟨turn, turn', current, current',
        Abreast.lockstep { abreast with infifo1 := rfl } (.refl _) (fun _ => rfl) (by rintro ⟨⟩)⟩
    · exact ⟨turn, turn', current, current',
        Abreast.lockstep { abreast with infifo1 := rfl } (.refl _) (fun _ => rfl) (by rintro ⟨⟩)⟩
  case loadEndingTx =>
    have abreast := lock.abreast (by rw [phase]; rfl)
    simp only [threadStep, phase, same.eq rfl, ← abreast.endingTx]
    split
    · rename_i ending
      -- the first iteration is over, and the end of over is or is not sent in both
      have behind : turn.iterated = true := by
        cases before : turn.iterated with
        | true => rfl
        | false => cases (abreast.first before).symm.trans ending
      rw [← abreast.sent behind]
      refine ⟨turn, turn', current, current',
        Abreast.lockstep { abreast with endingTx := rfl, sent := fun _ => rfl } (.refl _) ?_
          (fun _ => rfl)⟩
      intro before
      cases behind.symm.trans before
    · exact ⟨turn, turn', current, current',
        Abreast.lockstep { abreast with endingTx := rfl } (.refl _) (fun _ => rfl) (by rintro ⟨⟩)⟩
  case storeEnqueued =>
    have abreast := lock.abreast (by rw [phase]; rfl)
    simp only [threadStep, phase, same.eq rfl]
    exact ⟨turn, turn', current, current',
      Abreast.lockstep { abreast with } (.refl _) (fun _ => rfl) (by rintro ⟨⟩)⟩
  case storeNotEnqueued block =>
    have abreast := lock.abreast (by rw [phase]; rfl)
    simp only [threadStep, phase, same.eq rfl]
    exact ⟨turn, turn', current, current',
      Abreast.lockstep { abreast with sent := fun _ => rfl } (.refl _) (fun _ => rfl)
        (fun _ => rfl)⟩

/-- A run of the pipeline on the same input. -/
theorem Abreast.execute (abreast : Abreast lib s s' turn turn') (input : List Int16) :
    let made := TxPipeline.execute lib config.rates s.pipeline input
    let made' := TxPipeline.execute lib config.rates s'.pipeline input
    (∀ {after after' : Over F L}, after.runs = turn.runs ++ [made.1] →
        after'.runs = turn'.runs ++ [made'.1] → after.frames = after'.frames) ∧
      made.1.outputSamples.length = made'.1.outputSamples.length ∧
      SpeechAlike lib config.rates made.2 made'.2 := by
  obtain ⟨frames, length, pipeline⟩ := abreast.pipeline.execute input
  refine ⟨fun runs runs' => ?_, length, pipeline⟩
  rw [(Over.append_run runs).1, (Over.append_run runs').1, abreast.frames, frames]

omit [FloatArith D] [FloatArith F] in
theorem Lockstep.iterated_of_ending (lock : Lockstep lib s s' turn turn')
    (ending : s.thread.ending = true) : turn.iterated = true := by
  cases before : turn.iterated with
  | true => rfl
  | false => cases (lock.first before).2.symm.trans ending

/-- Runs of the pipeline and the writes behind them. -/
theorem Lockstep.run (lock : Lockstep lib s s' turn turn') (current : s.turn = some turn)
    (current' : s'.turn = some turn') (mustStopWork : Bool) (running : s.thread ≠ .idle)
    (started : s.thread.clearing = false) (busy : s.thread.quiet = false) :
    Together lib (threadStep lib s mustStopWork) (threadStep lib s' mustStopWork) := by
  have same := lock.thread
  have abreast := lock.abreast started
  cases phase : s.thread <;> rw [phase] at started busy same <;> try contradiction
  case restartVocoder =>
    have behind := lock.iterated_of_ending (by rw [phase]; rfl)
    have pipeline : SpeechAlike lib config.rates
        { s.pipeline with tx := RADETransmitStep.restartVocoder lib.rade s.pipeline.tx }
        { s'.pipeline with tx := RADETransmitStep.restartVocoder lib.rade s'.pipeline.tx } :=
      { abreast.pipeline with tx := abreast.pipeline.tx.restartVocoder lib.rade }
    simp only [threadStep, restart, phase, same.eq rfl, current, current', Option.map_some]
    refine ⟨_, _, rfl, rfl,
      Abreast.lockstep { abreast with pipeline, sent := fun _ => rfl } (.refl _) ?_ (fun _ => rfl)⟩
    intro before
    cases behind.symm.trans before
  case executeEoo =>
    have behind := lock.iterated_of_ending (by rw [phase]; rfl)
    obtain ⟨frames, length, pipeline⟩ := abreast.execute []
    simp only [threadStep, executeEoo, phase, same.eq rfl, current, current', Option.map_some,
      ← length]
    refine ⟨_, _, rfl, rfl,
      Abreast.lockstep { abreast with frames := frames rfl rfl, pipeline } ?_ ?_ ?_⟩
    · split
      · exact .writeEoo length
      · exact .refl _
    · intro before
      cases behind.symm.trans before
    · split <;> rintro ⟨⟩
  case executeBlock block =>
    have sent := lock.sent (.inr (by rw [phase]; rfl))
    obtain ⟨frames, length, pipeline⟩ :=
      abreast.execute (block.getD (List.replicate config.nsam_in_48 0))
    simp only [threadStep, executeBlock, phase, same.eq rfl, current, current', Option.map_some]
    exact ⟨_, _, rfl, rfl,
      Abreast.lockstep { abreast with frames := frames rfl rfl, pipeline } (.writeOutput length)
        (fun _ => rfl) (fun _ => sent)⟩
  case writeEoo outputSamples =>
    obtain ⟨outputSamples', phase', length⟩ := same.of_writeEoo
    obtain ⟨log, written⟩ := writeEoo_eq s outputSamples
    obtain ⟨log', written'⟩ := writeEoo_eq s' outputSamples'
    simp only [threadStep, phase, phase', written, written']
    exact ⟨turn, turn', current, current',
      Abreast.lockstep { abreast with outfifo1 := Queue.numUsed_writeAny abreast.outfifo1 length }
        (.refl _) (fun _ => rfl) (by rintro ⟨⟩)⟩
  case writeOutput outputSamples =>
    obtain ⟨outputSamples', phase', length⟩ := same.of_writeOutput
    have sent := lock.sent (.inr (by rw [phase]; rfl))
    simp only [threadStep, phase, phase', current, current', Option.map_some]
    exact ⟨_, _, rfl, rfl,
      Abreast.lockstep
        { abreast with
          outfifo1 := Queue.numUsed_writeAny abreast.outfifo1 length
          iterated := rfl
          first := by rintro ⟨⟩
          sent := fun _ => sent }
        (.refl _) (fun _ => rfl) (by rintro ⟨⟩)⟩

/-! ## Whole overs -/

/-- Steps of one over, in which `endingTx` is set behind the first iteration only. -/
def WithinOver (s : State config F N S E W L R) : Action → Prop
  | .threadStep _ => s.thread = .idle → s.g_tx = true
  | .storeEndingTx value => value = true → s.turn.all (fun turn => turn.iterated) = true
  | _ => True

omit [FloatArith F] in
instance (s : State config F N S E W L R) : (action : Action) → Decidable (WithinOver s action)
  | .threadStep _ => inferInstanceAs (Decidable (_ → _))
  | .write _ => inferInstanceAs (Decidable True)
  | .drain _ => inferInstanceAs (Decidable True)
  | .storeTx _ => inferInstanceAs (Decidable True)
  | .storeEndingTx _ => inferInstanceAs (Decidable (_ → _))

theorem Together.threadStep (resets : ResetsLibraries lib) (counts : CountsSamples lib.resample)
    (together : Together lib s s') (mustStopWork : Bool) (goes : s.thread = .idle → s.g_tx = true)
    (goes' : s'.thread = .idle → s'.g_tx = true) :
    Together lib (threadStep lib s mustStopWork) (threadStep lib s' mustStopWork) := by
  obtain ⟨turn, turn', current, current', lock⟩ := together
  by_cases idle : s.thread = .idle
  · have same := lock.thread
    rw [idle] at same
    have idle' : s'.thread = .idle := same.eq rfl
    have abreast := lock.abreast (by rw [idle]; rfl)
    simp only [MinimalTxRxThread.threadStep, idle, idle', goes idle, goes' idle', if_true,
      lock.deferReset.1, lock.deferReset.2, Bool.false_eq_true, if_false]
    exact ⟨turn, turn', current, current',
      Abreast.lockstep { abreast with deferReset := ⟨rfl, rfl⟩ } (.refl _) (fun _ => rfl) (by rintro ⟨⟩)⟩
  cases clearing : s.thread.clearing with
  | true => exact lock.clear resets counts current current' mustStopWork clearing
  | false =>
      cases quiet : s.thread.quiet with
      | true => exact lock.quiet current current' mustStopWork quiet
      | false => exact lock.run current current' mustStopWork idle clearing quiet

omit [FloatArith D] [FloatArith F] in
/-- The same step of the application in both. -/
theorem Lockstep.applied {t t' : State config F N S E W L R} (lock : Lockstep lib s s' turn turn')
    (current : s.turn = some turn) (current' : s'.turn = some turn') (applied : Applied s t)
    (applied' : Applied s' t') (endingTx : t.endingTx = t'.endingTx)
    (infifo1 : s.infifo1 = s'.infifo1 → t.infifo1 = t'.infifo1)
    (outfifo1 : s.outfifo1.numUsed = s'.outfifo1.numUsed →
      t.outfifo1.numUsed = t'.outfifo1.numUsed)
    (first : turn.iterated = false → t.endingTx = false) : Together lib t t' := by
  obtain ⟨change, record, kept⟩ := applied.turn
  obtain ⟨change', record', kept'⟩ := applied'.turn
  rw [current, Option.map_some] at record
  rw [current', Option.map_some] at record'
  obtain ⟨same, iterated⟩ := kept turn
  obtain ⟨same', iterated'⟩ := kept' turn'
  refine ⟨_, _, record, record', ?_⟩
  have frames : (change turn).frames = (change' turn').frames := by
    rw [Over.frames, same.runs, Over.frames, same'.runs]
    exact lock.frames
  refine ⟨?_, endingTx, ?_, by rw [iterated, iterated', lock.iterated], frames, ?_, ?_, ?_, ?_, ?_⟩
  · rw [applied.thread, applied'.thread]
    exact lock.thread
  · rw [applied.deferReset, applied'.deferReset]
    exact lock.deferReset
  · rw [applied.thread, applied.pipeline, applied'.pipeline]
    exact lock.pipeline
  · rw [applied.thread]
    exact fun cleared => infifo1 (lock.infifo1 cleared)
  · rw [applied.thread]
    exact fun cleared => outfifo1 (lock.outfifo1 cleared)
  · rw [applied.thread, iterated]
    exact fun before => ⟨first before, (lock.first before).2⟩
  · rw [applied.thread, applied.hasEooBeenSent, applied'.hasEooBeenSent, iterated]
    exact lock.sent

theorem Together.next (resets : ResetsLibraries lib) (counts : CountsSamples lib.resample)
    {t t' : State config F N S E W L R} (action : Action) (together : Together lib s s')
    (within : WithinOver s action) (within' : WithinOver s' action)
    (stepped : next lib s action = some t) (stepped' : next lib s' action = some t') :
    Together lib t t' := by
  by_cases thread : ∃ mustStopWork, action = .threadStep mustStopWork
  · obtain ⟨mustStopWork, rfl⟩ := thread
    cases stepped
    cases stepped'
    exact together.threadStep resets counts mustStopWork within within'
  obtain ⟨turn, turn', current, current', lock⟩ := together
  have application : ∀ mustStopWork, action ≠ .threadStep mustStopWork :=
    fun mustStopWork step => thread ⟨mustStopWork, step⟩
  have applied := applied_of_next stepped application
  have applied' := applied_of_next stepped' application
  cases action with
  | threadStep mustStopWork => exact absurd rfl (application mustStopWork)
  | write samples =>
      obtain ⟨change, written, -⟩ := write_eq s samples
      obtain ⟨change', written', -⟩ := write_eq s' samples
      cases stepped
      cases stepped'
      refine lock.applied current current' applied applied' ?_ ?_ ?_ ?_ <;> rw [written]
      · rw [written']
        exact lock.endingTx
      · rw [written']
        exact fun same => congrArg (fun queue => queue.writeAny samples) same
      · rw [written']
        exact id
      · exact fun before => (lock.first before).1
  | drain len =>
      cases stepped
      cases stepped'
      refine lock.applied current current' applied applied' ?_ ?_ ?_ ?_ <;> rw [drain_eq]
      · rw [drain_eq]
        exact lock.endingTx
      · rw [drain_eq]
        exact id
      · rw [drain_eq]
        exact fun used => (Queue.getD_read_counts used len).2
      · exact fun before => (lock.first before).1
  | storeTx value =>
      cases stepped
      cases stepped'
      exact lock.applied current current' applied applied' lock.endingTx id id
        (fun before => (lock.first before).1)
  | storeEndingTx value =>
      cases stepped
      cases stepped'
      refine lock.applied current current' applied applied' rfl id id ?_
      intro before
      cases value with
      | false => rfl
      | true =>
          have behind := within rfl
          rw [current] at behind
          cases before.symm.trans behind

omit [FloatArith D] in
/-- At the resets, whatever there was before. -/
theorem together_of_atReset (own : OwnOver lib s) (own' : OwnOver lib s')
    (atReset : s.thread = .resetPipeline) (atReset' : s'.thread = .resetPipeline)
    (running : s.endingTx = false) (running' : s'.endingTx = false) : Together lib s s' := by
  obtain ⟨turn, current⟩ := Option.isSome_iff_exists.mp (own.begun (by rw [atReset]; rfl))
  obtain ⟨turn', current'⟩ := Option.isSome_iff_exists.mp (own'.begun (by rw [atReset']; rfl))
  have clean := own.clean turn current
  have clean' := own'.clean turn' current'
  obtain ⟨iterated, runs, -⟩ := clean.fresh (by rw [atReset]; rfl)
  obtain ⟨iterated', runs', -⟩ := clean'.fresh (by rw [atReset']; rfl)
  refine ⟨turn, turn', current, current', ?_⟩
  constructor
  case thread =>
    rw [atReset, atReset']
    exact .refl _
  case endingTx => rw [running, running']
  case deferReset => exact ⟨clean.deferReset, clean'.deferReset⟩
  case iterated => rw [iterated, iterated']
  case frames => rw [Over.frames, runs, Over.frames, runs']
  case pipeline => exact fun started => absurd atReset started
  case infifo1 => rw [atReset]; rintro ⟨⟩
  case outfifo1 => rw [atReset]; rintro ⟨⟩
  case first => rw [atReset]; exact fun _ => ⟨running, rfl⟩
  case sent =>
    rw [iterated, atReset]
    rintro (behind | announced)
    · cases behind
    · cases announced

/-- Overs are isolated: whatever happened before its resets, the same actions pass the same frames
to the feature extraction, and what the over hands on is its own. -/
theorem overs_are_isolated (config : Config) (lib : Libraries sizes D F N S E W L R)
    (resets : ResetsLibraries lib) (counts : CountsSamples lib.resample)
    (g_tx endingTx g_eoo_enqueued g_tx' endingTx' g_eoo_enqueued' : Bool)
    (pipeline pipeline' : TxPipeline.State F N S E W L R) (s s' : State config F N S E W L R)
    (history : Reachable (next lib) (fun _ _ => True)
      (State.initial g_tx endingTx g_eoo_enqueued pipeline) s)
    (history' : Reachable (next lib) (fun _ _ => True)
      (State.initial g_tx' endingTx' g_eoo_enqueued' pipeline') s')
    (atReset : s.thread = .resetPipeline) (atReset' : s'.thread = .resetPipeline)
    (running : s.endingTx = false) (running' : s'.endingTx = false) (actions : List Action)
    (t t' : State config F N S E W L R)
    (run : runActions (next lib) WithinOver s actions = some t)
    (run' : runActions (next lib) WithinOver s' actions = some t') :
    ∃ turn turn', t.turn = some turn ∧ t'.turn = some turn' ∧ turn.frames = turn'.frames ∧
      Isolated lib t turn ∧ Isolated lib t' turn' := by
  have own := (OwnOver.initial _ _ _ _).of_reachable resets history
  have own' := (OwnOver.initial _ _ _ _).of_reachable resets history'
  obtain ⟨turn, turn', current, current', lock⟩ : Together lib t t' :=
    runActions_related (Together lib) (Together.next resets counts)
      (together_of_atReset own own' atReset atReset' running running') run run'
  refine ⟨turn, turn', current, current', lock.frames, ?_, ?_⟩
  · have later := own.of_reachable resets (Reachable.of_runActions actions .start run)
    exact (later.clean turn current).isolated
  · have later := own'.of_reachable resets (Reachable.of_runActions actions .start run')
    exact (later.clean turn' current').isolated

/-! ## Sound cards at 48 and 8 kHz -/

section Silence

theorem alike_of_unit {ι ο : Type} (step : Unit → ι → ο × Unit) (state state' : Unit) :
    Alike id id step state state' := by
  refine Alike.of_answers ?_ state state'
  rintro ⟨⟩ ⟨⟩ input _ rfl
  rfl

omit [FloatArith D] [FloatArith F] in
/-- Libraries without a state have nothing to be reset. -/
theorem resets_of_unit (lib : Libraries sizes D F Unit Unit Unit Unit L R) :
    ResetsLibraries lib where
  rnnoise _ := alike_of_unit _ _ _
  ebur128 _ := alike_of_unit _ _ _
  webRtcAgc _ := alike_of_unit _ _ _
  resample _ _ _ := alike_of_unit _ _ _

theorem silentResampler_counts : CountsSamples silentResampler := by
  intro inputSampleRate outputSampleRate
  refine Alike.of_answers ?_ _ _
  intro _ _ input input' length
  simp only [silentResampler, List.length_replicate, length]

/-- The first call of an over. -/
def firstCall : List Action := [.threadStep false, .storeTx true, .threadStep false]

/-- An over that is broken off with a part of a block left behind, and the first call of the
next. -/
def brokenOff : List Action :=
  List.flatten [firstIteration, [.write (List.replicate 700 7), .storeTx false, .threadStep true],
    firstCall]

/-- Two iterations, the second with a block. -/
def twoIterations : List Action :=
  List.flatten [List.replicate 10 (.threadStep false), [.write (List.replicate 960 5)],
    List.replicate 6 (.threadStep false)]

/-- What is looked at of an over that is tried out. -/
def trial (lib : Libraries sizes D F N S E W L R) (start : State config F N S E W L R)
    (history actions : List Action) : Option (Thread × Bool × Nat × Option (Option Nat)) :=
  (runActions (next lib) (fun _ _ => True) start history).map fun s =>
    (s.thread, s.endingTx, s.infifo1.numUsed,
      (runActions (next lib) WithinOver s actions).map fun t =>
        t.turn.map fun turn => turn.frames.length)

theorem exists_of_trial {start : State config F N S E W L R} {history actions : List Action}
    {used frames : Nat}
    (tried : trial lib start history actions =
      some (.resetPipeline, false, used, some (some frames))) :
    ∃ s t turn, Reachable (next lib) (fun _ _ => True) start s ∧ s.thread = .resetPipeline ∧
      s.endingTx = false ∧ s.infifo1.numUsed = used ∧
      runActions (next lib) WithinOver s actions = some t ∧ t.turn = some turn ∧
      turn.frames.length = frames := by
  obtain ⟨s, executed, observed⟩ := Option.map_eq_some_iff.mp tried
  simp only [Prod.mk.injEq] at observed
  obtain ⟨atReset, running, left, further⟩ := observed
  obtain ⟨t, run, recorded⟩ := Option.map_eq_some_iff.mp further
  obtain ⟨turn, current, length⟩ := Option.map_eq_some_iff.mp recorded
  exact ⟨s, t, turn, Reachable.of_runActions history .start executed, atReset, running, left, run,
    current, length⟩

/-- The first over, and one behind an over that was broken off. -/
theorem overs_are_isolated_of_two :
    letI := exactArith ℚ
    ∃ (s s' t t' : State soundCards ℚ Unit Unit Unit Unit Unit Unit) (turn turn' : Over ℚ Unit),
      s.infifo1.numUsed = 0 ∧ s'.infifo1.numUsed = 700 ∧
      runActions (next silentLibraries) WithinOver s twoIterations = some t ∧
      runActions (next silentLibraries) WithinOver s' twoIterations = some t' ∧
      t.turn = some turn ∧ t'.turn = some turn' ∧ turn.frames.length = 3 ∧
      turn.frames = turn'.frames ∧ Isolated silentLibraries t turn ∧
      Isolated silentLibraries t' turn' := by
  let := exactArith ℚ
  have first : trial silentLibraries soundCardsStart firstCall twoIterations =
      some (.resetPipeline, false, 0, some (some 3)) := by
    decide +kernel
  have second : trial silentLibraries soundCardsStart brokenOff twoIterations =
      some (.resetPipeline, false, 700, some (some 3)) := by
    decide +kernel
  obtain ⟨s, t, turn, history, atReset, running, nothing, run, current, length⟩ :=
    exists_of_trial first
  obtain ⟨s', t', turn', history', atReset', running', left, run', current', -⟩ :=
    exists_of_trial second
  obtain ⟨_, _, known, known', frames, isolated, isolated'⟩ :=
    overs_are_isolated soundCards silentLibraries (resets_of_unit _) silentResampler_counts
      false false false false false false _ _ s s' history history' atReset atReset' running
      running' twoIterations t t' run run'
  cases current.symm.trans known
  cases current'.symm.trans known'
  exact ⟨s, s', t, t', turn, turn', nothing, left, run, run', current, current', length, frames,
    isolated, isolated'⟩

/-- Every frame comes out the same, and none of them silent. -/
def hummingRNNoise : RNNoiseStep.Library ℚ Unit where
  rnnoiseCreate := ()
  rnnoiseInit _ := ()
  rnnoiseProcessFrame _ _ := (List.replicate RNNoiseStep.RNNOISE_FRAME_SIZE 1, ())
  length_process _ _ := List.length_replicate
  toFloat sample := sample.toInt
  toShort value := Int16.ofInt value.floor

/-- A resampler that gives nothing for silence. -/
def swallowingResampler : ResampleStep.Library Unit where
  srcNew := ()
  srcReset _ := ()
  srcProcess inputSampleRate outputSampleRate _ samples :=
    if samples.all (· == 0) then ([], ())
    else (List.replicate (samples.length * outputSampleRate / inputSampleRate) 1, ())

/-- A sample for each feature. -/
def oneFeature : TxSizes := ⟨1, 1, 0, 1, Nat.one_pos⟩

/-- A modem that begins with silence once and for all. -/
def hesitantRade : RADETransmitStep.Library oneFeature ℚ Unit Bool where
  computeSingleFrameFeatures _ _ := ([0], ())
  length_features _ _ := rfl
  radeTx begun _ := ([⟨if begun then 1 else 0, 0⟩], true)
  length_tx _ _ := rfl
  radeTxEoo begun := ([], begun)
  length_eoo _ := rfl
  toShort value := Int16.ofInt value.floor

def hesitantLibraries : Libraries oneFeature ℚ ℚ Unit Unit Unit Unit Unit Bool where
  rnnoise := hummingRNNoise
  resample := swallowingResampler
  agc := passThroughAgc
  rade := hesitantRade

theorem tightCards_inputAudible : 100 ≤ 48000 := by decide

theorem tightCards_outputAudible : 100 ≤ 16000 := by decide

/-- Room for one sample more than the end of over needs. -/
def tightCards : Config :=
  ⟨⟨48000, 16000, tightCards_inputAudible, tightCards_outputAudible⟩, 2000, 3202⟩

def tightCardsStart : State tightCards ℚ Unit Unit Unit Unit Unit Bool :=
  letI := exactArith ℚ
  State.initial false false false (TxPipeline.initial hesitantLibraries false ())

/-- Where the number of samples depends on what they are, the modem's past decides how many
iterations there are. -/
theorem overs_differ_in_iterations :
    letI := exactArith ℚ
    ResetsLibraries hesitantLibraries ∧
      ¬ ∀ (s s' : State tightCards ℚ Unit Unit Unit Unit Unit Bool),
        Reachable (next hesitantLibraries) (fun _ _ => True) tightCardsStart s →
        Reachable (next hesitantLibraries) (fun _ _ => True) tightCardsStart s' →
        s.thread = .resetPipeline → s'.thread = .resetPipeline → s.endingTx = false →
        s'.endingTx = false → ∀ (actions : List Action) t t',
        runActions (next hesitantLibraries) WithinOver s actions = some t →
        runActions (next hesitantLibraries) WithinOver s' actions = some t' →
        ∀ turn turn', t.turn = some turn → t'.turn = some turn' → turn.frames = turn'.frames := by
  let := exactArith ℚ
  refine ⟨resets_of_unit _, ?_⟩
  intro claimed
  have first : trial hesitantLibraries tightCardsStart firstCall
      (List.replicate 16 (.threadStep false)) =
      some (.resetPipeline, false, 0, some (some 3)) := by
    decide +kernel
  have second : trial hesitantLibraries tightCardsStart brokenOff
      (List.replicate 16 (.threadStep false)) =
      some (.resetPipeline, false, 700, some (some 1)) := by
    decide +kernel
  obtain ⟨s, t, turn, history, atReset, running, -, run, current, length⟩ :=
    exists_of_trial first
  obtain ⟨s', t', turn', history', atReset', running', -, run', current', length'⟩ :=
    exists_of_trial second
  have same := claimed s s' history history' atReset atReset' running running' _ t t' run run' turn
    turn' current current'
  rw [same, length'] at length
  cases length

end Silence

end FreeDV.Pipeline.MinimalTxRxThread
