import FreeDV.Lib.Blocks
import FreeDV.Pipeline.BlockStepsProperties
import FreeDV.Pipeline.MinimalTxRxThread
import FreeDV.Pipeline.RadeTransmitStepProperties

/-!
# The end of an over

Once the thread has sent the end of over, nothing it could still read may arrive
in `infifo1`. An application that keeps to the order of things writes nothing
behind `endingTx`, but a block written between the thread's read and its look at
`endingTx` is overlooked. Where that does not happen, the handshake holds.
-/

set_option autoImplicit false

namespace FreeDV.Pipeline.MinimalTxRxThread

open Lib Util.GenericFifo
open RADETransmitStep (TxSizes)
open TxPipeline (Libraries)

variable {config : Config} {sizes : TxSizes} {D F N S E W L R : Type} [FloatArith D]
  [FloatArith F] {lib : Libraries sizes D F N S E W L R} {s : State config F N S E W L R}
  {turn : Over F L}

theorem Config.nsam_in_48_pos (config : Config) : 0 < config.nsam_in_48 := by
  have audible := config.rates.inputAudible
  simp only [nsam_in_48, FRAME_DURATION_MS, MS_TO_SEC]
  omega

/-! ## Runs without input -/

omit [FloatArith D] [FloatArith F] in
theorem resample_nil (inputSampleRate outputSampleRate : Nat) (state : S) :
    TxPipeline.resample lib inputSampleRate outputSampleRate state [] = ([], state) := by
  rw [TxPipeline.resample]
  split
  · rfl
  · exact if_pos rfl

theorem feed_nil {block : BlockSizes} {σ : Type} (body : BlockBody σ) (run : Execution block σ) :
    run.feed body [] = run := by
  rw [Execution.feed]
  exact if_neg (Nat.lt_irrefl 0)

theorem prepare_nil (pipeline : TxPipeline.State F N S E W L R) :
    TxPipeline.prepare lib config.rates pipeline [] = ([], pipeline) := by
  have denoised : (Execution.start pipeline.rnnoise).call.output = [] := rfl
  simp only [TxPipeline.prepare, resample_nil, RNNoiseStep.execute, AgcStep.execute, feed_nil,
    denoised]
  rfl

/-- A run without input takes all that the transmitter has queued. -/
theorem execute_nil_empties (lib : Libraries sizes D F N S E W L R) (config : Config)
    (pipeline : TxPipeline.State F N S E W L R) :
    (TxPipeline.execute lib config.rates pipeline []).2.tx.outputSampleFifo = .empty := by
  simp only [TxPipeline.execute, prepare_nil, RADETransmitStep.execute, List.length_nil, if_true,
    RADETransmitStep.readOutput_numUsed]

/-! ## What was written and what was read -/

/-- The block that was read and is not yet given to the pipeline. -/
def Thread.inHand : Thread → List (List Int16)
  | .storeNotEnqueued block => block.toList
  | .executeBlock block => block.toList
  | _ => []

/-- The FIFOs of the over are not reset yet. -/
def Thread.resetting : Thread → Bool
  | .resetPipeline => true
  | .resetInfifo1 => true
  | _ => false

/-- Behind the reset, what was written is passed on, in hand or still in `infifo1`. -/
structure Streams (config : Config) (s : State config F N S E W L R) (turn : Over F L) : Prop where
  unread : s.thread.resetting = true → turn.passed = []
  whole : ∀ block ∈ turn.passed ++ s.thread.inHand, block.length = config.nsam_in_48
  stream : s.thread.resetting = false →
    (turn.passed ++ s.thread.inHand).flatten ++ s.infifo1.elements = turn.written

omit [FloatArith D] [FloatArith F] in
/-- The whole blocks are passed on when there is none in hand and none to be read. -/
theorem Streams.passed (streams : Streams config s turn) (started : s.thread.resetting = false)
    (none : s.thread.inHand = []) (short : s.infifo1.numUsed < config.nsam_in_48) :
    turn.passed = blocks config.nsam_in_48 turn.written := by
  have whole := streams.whole
  have stream := streams.stream started
  rw [none, List.append_nil] at whole stream
  rw [← stream, blocks_flatten_append config.nsam_in_48_pos whole, blocks_of_short short,
    List.append_nil]

/-! ## The handshake -/

/-- The thread has seen `endingTx` set. -/
def Thread.ending : Thread → Bool
  | .restartVocoder => true
  | .executeEoo => true
  | .writeEoo _ => true
  | .storeEnqueued => true
  | _ => false

/-- The end of over is queued. -/
def Thread.restarted : Thread → Bool
  | .executeEoo => true
  | .writeEoo _ => true
  | .storeEnqueued => true
  | _ => false

/-- The thread is about to process a block. -/
def Thread.generating : Thread → Bool
  | .storeNotEnqueued _ => true
  | .executeBlock _ => true
  | .writeOutput _ => true
  | _ => false

/-- The block is announced as not being the end. -/
def Thread.announced : Thread → Bool
  | .executeBlock _ => true
  | .writeOutput _ => true
  | _ => false

/-- Up to the end of the first iteration. -/
structure BeforeFirst (s : State config F N S E W L R) (turn : Over F L) : Prop where
  running : s.endingTx = false
  notEnding : s.thread.ending = false
  none : turn.restarts = 0
  announced : s.thread.announced = true → s.g_eoo_enqueued = false ∧ s.hasEooBeenSent = false

/-- From then on. -/
structure AfterFirst (s : State config F N S E W L R) (turn : Over F L) : Prop where
  restarts : turn.restarts = if s.hasEooBeenSent then 1 else 0
  quiet : s.hasEooBeenSent = true ∨ s.thread.ending = true →
    s.endingTx = true ∧ s.infifo1.numUsed < config.nsam_in_48
  restarting : s.thread = .restartVocoder → s.hasEooBeenSent = false
  restarted : s.thread.restarted = true → s.hasEooBeenSent = true
  generating : s.thread.generating = true → s.hasEooBeenSent = false
  storing : s.thread = .storeEnqueued →
    turn.emptied = true ∧ s.pipeline.tx.outputSampleFifo = .empty
  enqueued : s.g_eoo_enqueued = true → s.hasEooBeenSent = true ∧ turn.emptied = true ∧
    s.pipeline.tx.outputSampleFifo = .empty

structure Invariant (s : State config F N S E W L R) (turn : Over F L) : Prop where
  streams : Streams config s turn
  first : turn.orderly = true → turn.iterated = false → BeforeFirst s turn
  later : turn.orderly = true → turn.iterated = true → AfterFirst s turn

/-- When the thread sees `endingTx` set behind a read that failed, there is still no block. -/
def NoBlockOverlooked (s : State config F N S E W L R) : Action → Prop
  | .threadStep _ => s.thread = .loadEndingTx → s.endingTx = true →
      s.infifo1.numUsed < config.nsam_in_48
  | _ => True

omit [FloatArith F] in
instance (s : State config F N S E W L R) : (action : Action) → Decidable (NoBlockOverlooked s action)
  | .threadStep _ => inferInstanceAs (Decidable (_ → _ → _))
  | .write _ => inferInstanceAs (Decidable True)
  | .drain _ => inferInstanceAs (Decidable True)
  | .storeTx _ => inferInstanceAs (Decidable True)
  | .storeEndingTx _ => inferInstanceAs (Decidable True)

/-! ## Steps of the thread -/

omit [FloatArith D] [FloatArith F] in
theorem Streams.keep (streams : Streams config s turn) {s' : State config F N S E W L R}
    {after : Over F L} (started : s.thread.resetting = false)
    (started' : s'.thread.resetting = false) (infifo1 : s'.infifo1 = s.infifo1)
    (passed : after.passed ++ s'.thread.inHand = turn.passed ++ s.thread.inHand)
    (written : after.written = turn.written) : Streams config s' after := by
  refine ⟨fun resets => ?_, ?_, fun _ => ?_⟩
  · rw [started'] at resets
    cases resets
  · rw [passed]
    exact streams.whole
  · rw [passed, infifo1, written]
    exact streams.stream started

omit [FloatArith D] [FloatArith F] in
/-- Reading a block takes it in hand. -/
theorem Streams.read (streams : Streams config s turn) (phase : s.thread = .read)
    {block : List Int16} {infifo1 : Queue Int16 config.infifo1}
    (taken : s.infifo1.read config.nsam_in_48 = some (block, infifo1)) :
    Streams config { s with infifo1 := infifo1, thread := .storeNotEnqueued (some block) } turn := by
  obtain ⟨_, whole, stream⟩ := streams
  simp only [phase, Thread.inHand, List.append_nil] at whole stream
  obtain ⟨enough, rfl, dropped⟩ := Queue.read_eq_some taken
  have length : (s.infifo1.elements.take config.nsam_in_48).length = config.nsam_in_48 :=
    List.length_take_of_le enough
  refine ⟨by simp [Thread.resetting], ?_, ?_⟩
  · intro block member
    rcases List.mem_append.mp member with old | new
    · exact whole block old
    · rw [List.mem_singleton.mp new]
      exact length
  · intro _
    rw [← stream rfl]
    simp [Thread.inHand, dropped]

theorem Streams.threadStep (streams : Streams config s turn) (current : s.turn = some turn)
    (mustStopWork : Bool) {after : Over F L} (running : s.thread ≠ .idle)
    (recorded : (threadStep lib s mustStopWork).turn = some after) :
    Streams config (threadStep lib s mustStopWork) after := by
  cases phase : s.thread with
  | idle => exact absurd phase running
  | resetPipeline =>
      simp only [MinimalTxRxThread.threadStep, phase, current] at recorded ⊢
      cases recorded
      have none := streams.unread (by rw [phase]; rfl)
      exact ⟨fun _ => none, by simp [none, Thread.inHand], by simp [Thread.resetting]⟩
  | resetInfifo1 =>
      simp only [MinimalTxRxThread.threadStep, phase, current, Option.map_some] at recorded ⊢
      cases recorded
      have none := streams.unread (by rw [phase]; rfl)
      exact ⟨fun _ => none, by simp [none, Thread.inHand], by simp [none, Thread.inHand]⟩
  | read =>
      simp only [MinimalTxRxThread.threadStep, phase] at recorded ⊢
      cases taken : s.infifo1.read config.nsam_in_48 with
      | none =>
          simp only [taken, current] at recorded ⊢
          cases recorded
          exact streams.keep (by rw [phase]; rfl) rfl rfl (by rw [phase]; rfl) rfl
      | some outcome =>
          simp only [taken, current] at recorded ⊢
          cases recorded
          exact { streams.read phase taken with }
  | executeBlock block =>
      simp only [MinimalTxRxThread.threadStep, phase, executeBlock, current, Option.map_some]
        at recorded ⊢
      cases recorded
      exact streams.keep (by rw [phase]; rfl) rfl rfl
        (by rw [phase]; simp [Thread.inHand]) rfl
  | mustStopWork =>
      simp only [MinimalTxRxThread.threadStep, phase, current] at recorded ⊢
      cases recorded
      cases mustStopWork <;>
        exact streams.keep (by rw [phase]; rfl) rfl rfl (by rw [phase]; rfl) rfl
  | numFree =>
      simp only [MinimalTxRxThread.threadStep, phase, current] at recorded ⊢
      cases recorded
      split <;> exact streams.keep (by rw [phase]; rfl) rfl rfl (by rw [phase]; rfl) rfl
  | loadEndingTx =>
      simp only [MinimalTxRxThread.threadStep, phase, current] at recorded ⊢
      cases recorded
      split
      · split <;> exact streams.keep (by rw [phase]; rfl) rfl rfl (by rw [phase]; rfl) rfl
      · exact streams.keep (by rw [phase]; rfl) rfl rfl (by rw [phase]; rfl) rfl
  | restartVocoder =>
      simp only [MinimalTxRxThread.threadStep, phase, restart, current, Option.map_some]
        at recorded ⊢
      cases recorded
      exact streams.keep (by rw [phase]; rfl) rfl rfl (by rw [phase]; rfl) rfl
  | executeEoo =>
      simp only [MinimalTxRxThread.threadStep, phase, executeEoo, current, Option.map_some]
        at recorded ⊢
      cases recorded
      split <;> exact streams.keep (by rw [phase]; rfl) rfl rfl (by rw [phase]; rfl) rfl
  | writeEoo outputSamples =>
      simp only [MinimalTxRxThread.threadStep, phase, writeEoo] at recorded ⊢
      split at recorded <;> (rw [current] at recorded; cases recorded) <;>
        exact streams.keep (by rw [phase]; rfl) rfl rfl (by rw [phase]; rfl) rfl
  | writeOutput outputSamples =>
      simp only [MinimalTxRxThread.threadStep, phase, current, Option.map_some] at recorded ⊢
      cases recorded
      exact streams.keep (by rw [phase]; rfl) rfl rfl (by rw [phase]; rfl) rfl
  | resetOutfifo1 | storeEnqueued | storeNotEnqueued block =>
      simp only [MinimalTxRxThread.threadStep, phase, current] at recorded ⊢
      cases recorded
      exact streams.keep (by rw [phase]; rfl) rfl rfl (by rw [phase]; rfl) rfl

omit [FloatArith D] [FloatArith F] in
/-- A step that touches neither flag keeps what is known before the first iteration is over. -/
theorem BeforeFirst.keep (before : BeforeFirst s turn) {s' : State config F N S E W L R}
    {after : Over F L} (endingTx : s'.endingTx = s.endingTx) (restarts : after.restarts = turn.restarts)
    (notEnding : s'.thread.ending = false)
    (announced : s'.thread.announced = true →
      s'.g_eoo_enqueued = false ∧ s'.hasEooBeenSent = false) : BeforeFirst s' after :=
  ⟨endingTx.trans before.running, notEnding, restarts.trans before.none, announced⟩

theorem BeforeFirst.threadStep (before : BeforeFirst s turn) (current : s.turn = some turn)
    (mustStopWork : Bool) {after : Over F L} (running : s.thread ≠ .idle)
    (recorded : (threadStep lib s mustStopWork).turn = some after) :
    BeforeFirst (threadStep lib s mustStopWork) after := by
  have announced := before.announced
  have ending := before.notEnding
  cases phase : s.thread with
  | idle => exact absurd phase running
  | resetPipeline | resetOutfifo1 | storeNotEnqueued block =>
      simp only [MinimalTxRxThread.threadStep, phase, current] at recorded ⊢
      cases recorded
      exact before.keep rfl rfl rfl (by simp [Thread.announced])
  | resetInfifo1 =>
      simp only [MinimalTxRxThread.threadStep, phase, current, Option.map_some] at recorded ⊢
      cases recorded
      exact before.keep rfl rfl rfl nofun
  | mustStopWork =>
      simp only [MinimalTxRxThread.threadStep, phase, current] at recorded ⊢
      cases recorded
      cases mustStopWork <;> exact before.keep rfl rfl rfl nofun
  | numFree =>
      simp only [MinimalTxRxThread.threadStep, phase, current] at recorded ⊢
      cases recorded
      split <;> exact before.keep rfl rfl rfl nofun
  | read =>
      simp only [MinimalTxRxThread.threadStep, phase] at recorded ⊢
      split at recorded <;> (rw [current] at recorded; cases recorded) <;>
        exact before.keep rfl rfl rfl nofun
  | loadEndingTx =>
      simp only [MinimalTxRxThread.threadStep, phase, current, before.running] at recorded ⊢
      cases recorded
      exact before.keep before.running.symm rfl rfl nofun
  | executeBlock block =>
      rw [phase] at announced
      simp only [MinimalTxRxThread.threadStep, phase, executeBlock, current, Option.map_some]
        at recorded ⊢
      cases recorded
      exact before.keep rfl rfl rfl (fun _ => announced rfl)
  | writeOutput outputSamples =>
      simp only [MinimalTxRxThread.threadStep, phase, current, Option.map_some] at recorded ⊢
      cases recorded
      exact before.keep rfl rfl rfl nofun
  | restartVocoder | executeEoo | writeEoo outputSamples | storeEnqueued =>
      rw [phase] at ending
      cases ending

/-- The end of the first iteration. -/
theorem BeforeFirst.iterate (before : BeforeFirst s turn) (mustStopWork : Bool)
    {outputSamples : List Int16} (phase : s.thread = .writeOutput outputSamples) {after : Over F L}
    (restarts : after.restarts = turn.restarts) :
    AfterFirst (MinimalTxRxThread.threadStep lib s mustStopWork) after := by
  have announced := before.announced
  rw [phase] at announced
  obtain ⟨waiting, unsent⟩ := announced rfl
  simp only [MinimalTxRxThread.threadStep, phase]
  constructor
  case restarts => rw [restarts, before.none, unsent]; rfl
  case quiet => simp [unsent, Thread.ending]
  case restarting => exact fun _ => unsent
  case restarted => nofun
  case generating => nofun
  case storing => nofun
  case enqueued => simp [waiting]

omit [FloatArith D] [FloatArith F] in
/-- A step that changes nothing but the place of the thread, to one outside the end of over. -/
theorem AfterFirst.keep (later : AfterFirst s turn) {s' : State config F N S E W L R}
    {after : Over F L}
    (flags : s'.endingTx = s.endingTx ∧ s'.g_eoo_enqueued = s.g_eoo_enqueued ∧
      s'.hasEooBeenSent = s.hasEooBeenSent)
    (infifo1 : s'.infifo1.numUsed ≤ s.infifo1.numUsed)
    (fifo : s.pipeline.tx.outputSampleFifo = .empty → s'.pipeline.tx.outputSampleFifo = .empty)
    (records : after.restarts = turn.restarts ∧ (turn.emptied = true → after.emptied = true))
    (outside : s'.thread.ending = false) (working : s'.thread.generating = true →
      s.hasEooBeenSent = false) : AfterFirst s' after := by
  obtain ⟨endingTx, g_eoo_enqueued, hasEooBeenSent⟩ := flags
  obtain ⟨restarts, emptied⟩ := records
  constructor
  case restarts => rw [restarts, hasEooBeenSent, later.restarts]
  case quiet =>
    rw [outside, endingTx, hasEooBeenSent]
    rintro (sent | impossible)
    · obtain ⟨ending, short⟩ := later.quiet (.inl sent)
      exact ⟨ending, Nat.lt_of_le_of_lt infifo1 short⟩
    · cases impossible
  case restarting =>
    intro phase
    rw [phase] at outside
    cases outside
  case restarted =>
    intro phase
    cases place : s'.thread <;> simp_all [Thread.ending, Thread.restarted]
  case generating =>
    rw [hasEooBeenSent]
    exact working
  case storing =>
    intro phase
    rw [phase] at outside
    cases outside
  case enqueued =>
    rw [g_eoo_enqueued, hasEooBeenSent]
    intro enqueued
    obtain ⟨sent, none, empty⟩ := later.enqueued enqueued
    exact ⟨sent, emptied none, fifo empty⟩

omit [FloatArith D] in
theorem AfterFirst.restart (later : AfterFirst s turn) (phase : s.thread = .restartVocoder)
    {after : Over F L} (restarts : after.restarts = turn.restarts + 1) :
    AfterFirst (restart lib s) after := by
  have unsent := later.restarting phase
  have quiet := later.quiet (.inr (by rw [phase]; rfl))
  constructor
  case restarts => rw [restarts, later.restarts, unsent]; rfl
  case quiet => exact fun _ => quiet
  case restarting => nofun
  case restarted => exact fun _ => rfl
  case generating => nofun
  case storing => nofun
  case enqueued =>
    intro enqueued
    rw [(later.enqueued enqueued).1] at unsent
    cases unsent

/-- A run without input: it puts out nothing only if nothing is queued any more. -/
theorem AfterFirst.executeEoo (later : AfterFirst s turn) (current : s.turn = some turn)
    (phase : s.thread = .executeEoo) {after : Over F L}
    (recorded : (executeEoo lib s).turn = some after) : AfterFirst (executeEoo lib s) after := by
  have sent := later.restarted (by rw [phase]; rfl)
  have quiet := later.quiet (.inl sent)
  have once := later.restarts
  rw [sent, if_pos rfl] at once
  have empties := execute_nil_empties lib config s.pipeline
  simp only [MinimalTxRxThread.executeEoo, current, Option.map_some] at recorded ⊢
  cases recorded
  constructor
  case restarts => rw [sent, if_pos rfl]; exact once
  case quiet => exact fun _ => quiet
  case restarting =>
    dsimp only
    split <;> nofun
  case restarted => exact fun _ => sent
  case generating =>
    dsimp only
    split <;> nofun
  case storing =>
    dsimp only
    split
    · nofun
    · rename_i none
      intro _
      exact ⟨by simp [once, Nat.eq_zero_of_not_pos none], empties⟩
  case enqueued =>
    intro enqueued
    obtain ⟨_, emptied, _⟩ := later.enqueued enqueued
    exact ⟨sent, by simp [emptied], empties⟩

theorem AfterFirst.threadStep (later : AfterFirst s turn) (current : s.turn = some turn)
    (mustStopWork : Bool) (overlooked : NoBlockOverlooked s (.threadStep mustStopWork))
    {after : Over F L} (running : s.thread ≠ .idle)
    (recorded : (threadStep lib s mustStopWork).turn = some after) :
    AfterFirst (threadStep lib s mustStopWork) after := by
  cases phase : s.thread with
  | idle => exact absurd phase running
  | resetPipeline =>
      simp only [MinimalTxRxThread.threadStep, phase, current] at recorded ⊢
      cases recorded
      exact later.keep ⟨rfl, rfl, rfl⟩ (Nat.le_refl _) (fun _ => rfl) ⟨rfl, id⟩ rfl (by rintro ⟨⟩)
  | resetInfifo1 =>
      simp only [MinimalTxRxThread.threadStep, phase, current, Option.map_some] at recorded ⊢
      cases recorded
      exact later.keep ⟨rfl, rfl, rfl⟩ (Nat.zero_le _) id ⟨rfl, id⟩ rfl (by rintro ⟨⟩)
  | resetOutfifo1 =>
      simp only [MinimalTxRxThread.threadStep, phase, current] at recorded ⊢
      cases recorded
      exact later.keep ⟨rfl, rfl, rfl⟩ (Nat.le_refl _) id ⟨rfl, id⟩ rfl (by rintro ⟨⟩)
  | mustStopWork =>
      simp only [MinimalTxRxThread.threadStep, phase, current] at recorded ⊢
      cases recorded
      cases mustStopWork <;>
        exact later.keep ⟨rfl, rfl, rfl⟩ (Nat.le_refl _) id ⟨rfl, id⟩ rfl (by rintro ⟨⟩)
  | numFree =>
      simp only [MinimalTxRxThread.threadStep, phase, current] at recorded ⊢
      cases recorded
      split <;> exact later.keep ⟨rfl, rfl, rfl⟩ (Nat.le_refl _) id ⟨rfl, id⟩ rfl (by rintro ⟨⟩)
  | read =>
      simp only [MinimalTxRxThread.threadStep, phase] at recorded ⊢
      cases taken : s.infifo1.read config.nsam_in_48 with
      | none =>
          simp only [taken, current] at recorded ⊢
          cases recorded
          exact later.keep ⟨rfl, rfl, rfl⟩ (Nat.le_refl _) id ⟨rfl, id⟩ rfl (by rintro ⟨⟩)
      | some outcome =>
          obtain ⟨block, infifo1⟩ := outcome
          simp only [taken, current] at recorded ⊢
          cases recorded
          obtain ⟨enough, _, dropped⟩ := Queue.read_eq_some taken
          refine later.keep ⟨rfl, rfl, rfl⟩ ?_ id ⟨rfl, id⟩ rfl ?_
          · simp only [Queue.numUsed, dropped, List.length_drop]
            exact Nat.sub_le _ _
          · -- with the end of over sent there would be no block to read
            intro _
            cases sent : s.hasEooBeenSent with
            | false => rfl
            | true => exact absurd (later.quiet (.inl sent)).2 (Nat.not_lt_of_le enough)
  | loadEndingTx =>
      simp only [MinimalTxRxThread.threadStep, phase, current] at recorded ⊢
      cases recorded
      cases ending : s.endingTx with
      | false =>
          have unsent : s.hasEooBeenSent = false := by
            cases sent : s.hasEooBeenSent with
            | false => rfl
            | true => rw [(later.quiet (.inl sent)).1] at ending; cases ending
          exact later.keep ⟨ending.symm, rfl, rfl⟩ (Nat.le_refl _) id ⟨rfl, id⟩ rfl (fun _ => unsent)
      | true =>
          have short := overlooked phase ending
          cases sent : s.hasEooBeenSent with
          | false =>
              refine ⟨by rw [later.restarts, sent], fun _ => ⟨rfl, short⟩, fun _ => rfl, ?_, ?_, ?_,
                by simpa [sent] using later.enqueued⟩ <;> rintro ⟨⟩
          | true =>
              refine ⟨by rw [later.restarts, sent], fun _ => ⟨rfl, short⟩, ?_, fun _ => rfl, ?_, ?_,
                by simpa [sent] using later.enqueued⟩ <;> rintro ⟨⟩
  | restartVocoder =>
      simp only [MinimalTxRxThread.threadStep, phase] at recorded ⊢
      simp only [MinimalTxRxThread.restart, current, Option.map_some] at recorded
      cases recorded
      exact later.restart phase rfl
  | executeEoo =>
      simp only [MinimalTxRxThread.threadStep, phase] at recorded ⊢
      exact later.executeEoo current phase recorded
  | writeEoo outputSamples =>
      simp only [MinimalTxRxThread.threadStep, phase, writeEoo] at recorded ⊢
      split at recorded <;> (rw [current] at recorded; cases recorded) <;>
        exact later.keep ⟨rfl, rfl, rfl⟩ (Nat.le_refl _) id ⟨rfl, id⟩ rfl (by rintro ⟨⟩)
  | storeEnqueued =>
      simp only [MinimalTxRxThread.threadStep, phase, current] at recorded ⊢
      cases recorded
      have sent := later.restarted (by rw [phase]; rfl)
      refine ⟨later.restarts, fun _ => later.quiet (.inl sent), ?_, ?_, ?_, ?_,
        fun _ => ⟨sent, later.storing phase⟩⟩ <;> rintro ⟨⟩
  | storeNotEnqueued block =>
      simp only [MinimalTxRxThread.threadStep, phase, current] at recorded ⊢
      cases recorded
      have unsent := later.generating (by rw [phase]; rfl)
      refine ⟨by rw [later.restarts, unsent], ?_, by rintro ⟨⟩, by rintro ⟨⟩, fun _ => rfl,
        by rintro ⟨⟩, by rintro ⟨⟩⟩
      rintro (sent | ending)
      · cases sent
      · cases ending
  | executeBlock block =>
      simp only [MinimalTxRxThread.threadStep, phase, executeBlock, current, Option.map_some]
        at recorded ⊢
      cases recorded
      have unsent := later.generating (by rw [phase]; rfl)
      refine ⟨by rw [later.restarts], ?_, by rintro ⟨⟩, by rintro ⟨⟩, fun _ => unsent,
        by rintro ⟨⟩, ?_⟩
      · rw [unsent]
        rintro (sent | ending)
        · cases sent
        · cases ending
      · intro enqueued
        rw [(later.enqueued enqueued).1] at unsent
        cases unsent
  | writeOutput outputSamples =>
      simp only [MinimalTxRxThread.threadStep, phase, current, Option.map_some] at recorded ⊢
      cases recorded
      exact later.keep ⟨rfl, rfl, rfl⟩ (Nat.le_refl _) id ⟨rfl, id⟩ rfl (by rintro ⟨⟩)

/-- Within a call the record stays that of the same over; only the end of an iteration says that
one is over. -/
theorem threadStep_over (mustStopWork : Bool) {after : Over F L} (running : s.thread ≠ .idle)
    (recorded : (threadStep lib s mustStopWork).turn = some after) :
    ∃ turn, s.turn = some turn ∧ after.orderly = turn.orderly ∧
      (after.iterated = turn.iterated ∨
        ∃ outputSamples, s.thread = .writeOutput outputSamples ∧ after.iterated = true ∧
          after.restarts = turn.restarts) := by
  have step : s.turn.isSome := by
    cases current : s.turn with
    | some turn => rfl
    | none =>
        cases phase : s.thread <;>
          simp [threadStep, phase, restart, executeEoo, executeBlock, writeEoo, current] at recorded
        case idle => exact absurd phase running
        case read => split at recorded <;> simp at recorded
        case writeEoo => split at recorded <;> simp at recorded
  obtain ⟨turn, current⟩ := Option.isSome_iff_exists.mp step
  refine ⟨turn, current, ?_⟩
  cases phase : s.thread <;>
    simp only [threadStep, phase, restart, executeEoo, executeBlock, writeEoo, current,
      Option.map_some] at recorded
  case idle => exact absurd phase running
  case read => split at recorded <;> (cases recorded; exact ⟨rfl, .inl rfl⟩)
  case writeEoo => split at recorded <;> (cases recorded; exact ⟨rfl, .inl rfl⟩)
  case writeOutput outputSamples =>
    cases recorded
    exact ⟨rfl, .inr ⟨outputSamples, rfl, rfl, rfl⟩⟩
  all_goals
    cases recorded
    exact ⟨rfl, .inl rfl⟩

theorem Invariant.threadStep (inv : ∀ turn, s.turn = some turn → Invariant s turn)
    (mustStopWork : Bool) (overlooked : NoBlockOverlooked s (.threadStep mustStopWork))
    (running : s.thread ≠ .idle) {after : Over F L}
    (recorded : (threadStep lib s mustStopWork).turn = some after) :
    Invariant (threadStep lib s mustStopWork) after := by
  obtain ⟨turn, current, orderly, iterated⟩ := threadStep_over mustStopWork running recorded
  have known := inv turn current
  refine ⟨known.streams.threadStep current mustStopWork running recorded, ?_, ?_⟩
  · intro order first
    rw [orderly] at order
    rcases iterated with same | ⟨_, _, done, _⟩
    · rw [same] at first
      exact (known.first order first).threadStep current mustStopWork running recorded
    · rw [done] at first
      cases first
  · intro order done
    rw [orderly] at order
    cases first : turn.iterated with
    | true =>
        exact (known.later order first).threadStep current mustStopWork overlooked running recorded
    | false =>
        rcases iterated with same | ⟨outputSamples, phase, _, restarts⟩
        · rw [same, first] at done
          cases done
        · exact (known.first order first).iterate mustStopWork phase restarts

/-- A call begins: an over goes on, begins or ends. -/
theorem Invariant.call (inv : ∀ turn, s.turn = some turn → Invariant s turn)
    (mustStopWork : Bool) (idle : s.thread = .idle) {after : Over F L}
    (recorded : (MinimalTxRxThread.threadStep lib s mustStopWork).turn = some after) :
    Invariant (MinimalTxRxThread.threadStep lib s mustStopWork) after := by
  simp only [MinimalTxRxThread.threadStep, idle] at recorded ⊢
  cases transmitting : s.g_tx with
  | false => simp [transmitting] at recorded
  | true =>
      cases deferred : s.deferReset with
      | true =>
          simp only [transmitting, deferred, if_true] at recorded ⊢
          cases recorded
          refine ⟨⟨fun _ => rfl, by simp [Over.start, Thread.inHand], by simp [Thread.resetting]⟩,
            ?_, nofun⟩
          intro order _
          exact ⟨by simpa [Over.start] using order, rfl, rfl, nofun⟩
      | false =>
          simp only [transmitting, deferred, if_true, Bool.false_eq_true, if_false] at recorded ⊢
          obtain ⟨streams, first, later⟩ := inv after recorded
          refine ⟨streams.keep (by rw [idle]; rfl) rfl rfl (by rw [idle]; rfl) rfl, ?_, ?_⟩
          · exact fun order before => (first order before).keep rfl rfl rfl nofun
          · exact fun order behind => (later order behind).keep ⟨rfl, rfl, rfl⟩ (Nat.le_refl _) id
              ⟨rfl, id⟩ rfl nofun

/-! ## Steps of the application -/

omit [FloatArith F] in
/-- What a write in order leaves behind: nobody reads the record of the end of over yet. -/
theorem Invariant.append (inv : Invariant s turn) {infifo1 : Queue Int16 config.infifo1}
    {samples : List Int16} (appended : infifo1.elements = s.infifo1.elements ++ samples)
    {s' : State config F N S E W L R} (same : s' = { s with infifo1 := infifo1, turn := s'.turn }) :
    Invariant s'
      { turn with
        orderly := turn.orderly && !s.endingTx
        written := turn.written ++ samples } := by
  obtain ⟨streams, first, later⟩ := inv
  rw [same]
  refine ⟨⟨streams.unread, streams.whole, ?_⟩, ?_, ?_⟩
  · intro started
    rw [appended, ← List.append_assoc, streams.stream started]
  · intro order before
    obtain ⟨orderly, _⟩ := Bool.and_eq_true_iff.mp order
    have known := first orderly before
    exact ⟨known.running, known.notEnding, known.none, known.announced⟩
  · intro order behind
    obtain ⟨orderly, running⟩ := Bool.and_eq_true_iff.mp order
    have known := later orderly behind
    refine ⟨known.restarts, ?_, known.restarting, known.restarted, known.generating, known.storing,
      known.enqueued⟩
    intro ending
    rw [(known.quiet ending).1] at running
    cases running

omit [FloatArith F] in
theorem Invariant.write (inv : ∀ turn, s.turn = some turn → Invariant s turn)
    (samples : List Int16) {after : Over F L}
    (recorded : (write s samples).turn = some after) : Invariant (write s samples) after := by
  simp only [MinimalTxRxThread.write, State.record] at recorded ⊢
  cases written : s.infifo1.write samples with
  | none =>
      simp only [written] at recorded ⊢
      obtain ⟨turn, current, rfl⟩ := Option.map_eq_some_iff.mp recorded
      have nothing : turn.written = turn.written ++ [] := (List.append_nil _).symm
      rw [nothing]
      exact (inv turn current).append (List.append_nil s.infifo1.elements).symm rfl
  | some infifo1 =>
      simp only [written, Option.map_map] at recorded ⊢
      obtain ⟨turn, current, rfl⟩ := Option.map_eq_some_iff.mp recorded
      exact (inv turn current).append (Queue.write_eq_some written).2 rfl

omit [FloatArith F] in
theorem Invariant.storeEndingTx (inv : ∀ turn, s.turn = some turn → Invariant s turn)
    (value : Bool) {after : Over F L}
    (recorded : (storeEndingTx s value).turn = some after) :
    Invariant (storeEndingTx s value) after := by
  simp only [MinimalTxRxThread.storeEndingTx] at recorded
  obtain ⟨turn, current, rfl⟩ := Option.map_eq_some_iff.mp recorded
  obtain ⟨streams, first, later⟩ := inv turn current
  refine ⟨⟨streams.unread, streams.whole, streams.stream⟩, ?_, ?_⟩
  · intro order before
    simp only [Bool.and_eq_true] at order before
    obtain ⟨orderly, kept⟩ := order
    have known := first orderly before
    refine ⟨?_, known.notEnding, known.none, known.announced⟩
    rw [known.running, before] at kept
    simpa [MinimalTxRxThread.storeEndingTx] using kept
  · intro order behind
    simp only [Bool.and_eq_true] at order behind
    obtain ⟨orderly, kept⟩ := order
    have known := later orderly behind
    refine ⟨known.restarts, ?_, known.restarting, known.restarted, known.generating, known.storing,
      known.enqueued⟩
    intro ending
    obtain ⟨set, short⟩ := known.quiet ending
    rw [set] at kept
    exact ⟨by simpa [MinimalTxRxThread.storeEndingTx] using kept, short⟩

/-! ## Whole runs -/

omit [FloatArith F] in
/-- Steps that touch no more than `g_tx` and `outfifo1`. -/
theorem Invariant.frame (inv : ∀ turn, s.turn = some turn → Invariant s turn) (g_tx : Bool)
    (outfifo1 : Queue Int16 config.outfifo1) {turn : Over F L} (current : s.turn = some turn) :
    Invariant { s with g_tx := g_tx, outfifo1 := outfifo1 } turn := by
  obtain ⟨streams, first, later⟩ := inv turn current
  refine ⟨{ streams with }, fun order before => ?_, fun order behind => ?_⟩
  · exact { first order before with }
  · exact { later order behind with }

theorem Invariant.next (inv : ∀ turn, s.turn = some turn → Invariant s turn) {action : Action}
    (overlooked : NoBlockOverlooked s action) {s' : State config F N S E W L R}
    (stepped : next lib s action = some s') : ∀ turn, s'.turn = some turn → Invariant s' turn := by
  intro after recorded
  cases action with
  | threadStep mustStopWork =>
      cases stepped
      by_cases idle : s.thread = .idle
      · exact Invariant.call inv mustStopWork idle recorded
      · exact Invariant.threadStep inv mustStopWork overlooked idle recorded
  | write samples =>
      cases stepped
      exact Invariant.write inv samples recorded
  | drain len =>
      cases stepped
      unfold drain at recorded ⊢
      split at recorded
      · exact Invariant.frame inv s.g_tx _ recorded
      · exact inv after recorded
  | storeTx value =>
      cases stepped
      exact Invariant.frame inv value s.outfifo1 recorded
  | storeEndingTx value =>
      cases stepped
      exact Invariant.storeEndingTx inv value recorded

/-- What the application may rely on in an over. -/
structure Handshake (config : Config) (s : State config F N S E W L R) (turn : Over F L) :
    Prop where
  once : turn.restarts ≤ 1
  /-- The end of over is queued behind all that was written. -/
  passed : s.thread = .restartVocoder → turn.passed = blocks config.nsam_in_48 turn.written
  /-- It is reported when it was queued and nothing of it is left. -/
  reported : turn.iterated = true → s.g_eoo_enqueued = true →
    0 < turn.restarts ∧ turn.emptied = true ∧ s.pipeline.tx.outputSampleFifo = .empty

omit [FloatArith F] in
theorem Invariant.handshake (inv : Invariant s turn) (orderly : turn.orderly = true) :
    Handshake config s turn := by
  obtain ⟨streams, first, later⟩ := inv
  cases iterated : turn.iterated with
  | false =>
      have known := first orderly iterated
      refine ⟨by rw [known.none]; exact Nat.zero_le _, ?_, by simp [iterated]⟩
      intro phase
      have outside := known.notEnding
      rw [phase] at outside
      cases outside
  | true =>
      have known := later orderly iterated
      refine ⟨?_, ?_, ?_⟩
      · rw [known.restarts]
        split <;> decide
      · intro phase
        have short := (known.quiet (.inr (by rw [phase]; rfl))).2
        exact streams.passed (by rw [phase]; rfl) (by rw [phase]; rfl) short
      · intro _ enqueued
        obtain ⟨sent, emptied, empty⟩ := known.enqueued enqueued
        refine ⟨?_, emptied, empty⟩
        rw [known.restarts, sent]
        decide

/-- In every run in which no block is overlooked, the handshake holds in every orderly over. -/
theorem eoo_handshake (config : Config) (lib : Libraries sizes D F N S E W L R)
    (g_tx endingTx g_eoo_enqueued : Bool) (pipeline : TxPipeline.State F N S E W L R)
    (s : State config F N S E W L R)
    (reachable : Reachable (next lib) NoBlockOverlooked
      (State.initial g_tx endingTx g_eoo_enqueued pipeline) s)
    (turn : Over F L) (current : s.turn = some turn) (orderly : turn.orderly = true) :
    Handshake config s turn := by
  have inv : ∀ turn, s.turn = some turn → Invariant s turn := by
    refine reachable.invariant (fun s => ∀ turn, s.turn = some turn → Invariant s turn) ?_ ?_
    · intro turn none
      cases none
    intro before action after known overlooked stepped
    exact Invariant.next known overlooked stepped
  exact (inv turn current).handshake orderly

/-! ## Sound cards at 48 and 8 kHz -/

section Silence

open RADETransmitStep (twelveFrames silentLibrary)

/-- Everything is noise. -/
def silentRNNoise : RNNoiseStep.Library ℚ Unit where
  rnnoiseCreate := ()
  rnnoiseInit _ := ()
  rnnoiseProcessFrame _ _ := (List.replicate RNNoiseStep.RNNOISE_FRAME_SIZE 0, ())
  length_process _ _ := List.length_replicate
  toFloat sample := sample.toInt
  toShort value := Int16.ofInt value.floor

/-- The right number of samples. -/
def silentResampler : ResampleStep.Library Unit where
  srcNew := ()
  srcReset _ := ()
  srcProcess inputSampleRate outputSampleRate _ samples :=
    (List.replicate (samples.length * outputSampleRate / inputSampleRate) 0, ())

def silentLibraries : Libraries twelveFrames ℚ ℚ Unit Unit Unit Unit Unit Unit where
  rnnoise := silentRNNoise
  resample := silentResampler
  agc := passThroughAgc
  rade := silentLibrary

theorem soundCards_audible : 100 ≤ 48000 ∧ 100 ≤ 8000 := by decide

/-- Room for two blocks of speech and for a second of modem samples. -/
def soundCards : Config :=
  ⟨⟨48000, 8000, soundCards_audible.1, soundCards_audible.2⟩, 2000, RADE_MODEM_SAMPLE_RATE⟩

/-- A new thread, nobody transmitting. -/
def soundCardsStart : State soundCards ℚ Unit Unit Unit Unit Unit Unit :=
  letI := exactArith ℚ
  State.initial false false false (TxPipeline.initial silentLibraries () ())

/-- The application asks for a transmission, and the first iteration finds no speech. -/
def firstIteration : List Action :=
  [.threadStep false, .storeTx true] ++ List.replicate 11 (.threadStep false)

/-- One block of speech, then the end: it is reported behind the run that puts out nothing. -/
theorem eoo_handshake_of_one_block :
    letI := exactArith ℚ
    ∃ s turn, Reachable (next silentLibraries) NoBlockOverlooked soundCardsStart s ∧
      s.turn = some turn ∧ s.g_eoo_enqueued = true ∧ turn.passed.length = 1 ∧
      Handshake soundCards s turn := by
  let := exactArith ℚ
  have executed : (runActions (next silentLibraries) NoBlockOverlooked soundCardsStart
      (List.flatten [firstIteration, [.write (List.replicate 960 5)],
        List.replicate 6 (.threadStep false), [.storeEndingTx true],
        List.replicate 14 (.threadStep false)])).map
        (fun s => (s.g_eoo_enqueued, s.turn.map fun turn =>
          (turn.orderly, turn.passed.length))) =
      some (true, some (true, 1)) := by
    decide +kernel
  obtain ⟨s, executed, observed⟩ := Option.map_eq_some_iff.mp executed
  obtain ⟨enqueued, recorded⟩ := Prod.mk.inj observed
  obtain ⟨turn, current, recorded⟩ := Option.map_eq_some_iff.mp recorded
  obtain ⟨orderly, passed⟩ := Prod.mk.inj recorded
  have reachable := Reachable.of_runActions _ .start executed
  exact ⟨s, turn, reachable, current, enqueued, passed,
    eoo_handshake soundCards silentLibraries false false false _ s reachable turn current orderly⟩

/-- A block that is written between the thread's read and its look at `endingTx`. -/
theorem eoo_overlooks_a_block :
    letI := exactArith ℚ
    ¬ ∀ (s : State soundCards ℚ Unit Unit Unit Unit Unit Unit) (turn : Over ℚ Unit),
      Reachable (next silentLibraries) (fun _ _ => True) soundCardsStart s →
      s.turn = some turn → turn.orderly = true → Handshake soundCards s turn := by
  let := exactArith ℚ
  intro claimed
  have executed : (runActions (next silentLibraries) (fun _ _ => True) soundCardsStart
      (List.flatten [firstIteration, List.replicate 3 (.threadStep false),
        [.write (List.replicate 960 5), .storeEndingTx true, .threadStep false]])).map
        (fun s => (s.thread, s.turn.map fun turn => (turn.orderly, turn.passed.length,
          (blocks soundCards.nsam_in_48 turn.written).length))) =
      some (.restartVocoder, some (true, 0, 1)) := by
    decide +kernel
  obtain ⟨s, executed, observed⟩ := Option.map_eq_some_iff.mp executed
  obtain ⟨restarting, recorded⟩ := Prod.mk.inj observed
  obtain ⟨turn, current, recorded⟩ := Option.map_eq_some_iff.mp recorded
  simp only [Prod.mk.injEq] at recorded
  obtain ⟨orderly, passed, written⟩ := recorded
  have handshake := claimed s turn (Reachable.of_runActions _ .start executed) current orderly
  rw [handshake.passed restarting, written] at passed
  cases passed

end Silence

end FreeDV.Pipeline.MinimalTxRxThread
