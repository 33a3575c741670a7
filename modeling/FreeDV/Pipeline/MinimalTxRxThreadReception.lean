import FreeDV.Pipeline.MinimalTxRxThreadReceive
import FreeDV.Pipeline.RadeReceiveStepChunks
import FreeDV.Pipeline.RxPipelineBounds

/-!
# What a reception plays

From the time the FIFOs were cleared, the pipeline is given the consecutive
blocks of what was written, and what can be read from `outfifo2` is what it put
out for them, in order. When it runs there is room for one speech frame, since
nobody else writes to `outfifo2`, so only a longer output can be refused.
-/

set_option autoImplicit false

namespace FreeDV.Pipeline.MinimalTxRxThread.Receive

open Lib Util.GenericFifo
open RxPipeline (Libraries Run)

variable {config : Config} {sizes : RadeSizes} {F S R G T B : Type}

/-- The block that was read and not yet given to the pipeline. -/
def Thread.pendingBlocks : Thread → List (List Int16)
  | .execute block => [block]
  | _ => []

/-- The output that was not yet written. -/
def Thread.pendingOutputs : Thread → List (List Int16)
  | .write outputSamples => [outputSamples]
  | _ => []

/-- The free space was looked at, and nothing was written since. -/
def Thread.looked : Thread → Bool
  | .read => true
  | .execute _ => true
  | .write _ => true
  | _ => false

/-- Nothing is in flight, and neither FIFO is being cleared. -/
def Thread.between : Thread → Bool
  | .resetOutfifo2 => false
  | .execute _ => false
  | .write _ => false
  | _ => true

theorem Thread.pending_of_between {thread : Thread} (between : thread.between = true) :
    thread.pendingBlocks = [] ∧ thread.pendingOutputs = [] ∧ thread ≠ .resetOutfifo2 := by
  cases thread with
  | resetOutfifo2 => cases between
  | execute block => cases between
  | write outputSamples => cases between
  | _ => exact ⟨rfl, rfl, by rintro ⟨⟩⟩

def Outcome.taken (outcome : Outcome) : List Int16 :=
  if outcome.accepted then outcome.outputSamples else []

variable [FloatArith F] (lib : Libraries sizes F S R G T B)

/-- The runs of the pipeline on some blocks, and the pipeline behind them. -/
def results (config : Config) (start : RxPipeline.State sizes F S R G T B)
    (passed : List (List Int16)) : List Run × RxPipeline.State sizes F S R G T B :=
  mapBlocks (RxPipeline.execute lib config.rates) start passed

theorem results_concat (start : RxPipeline.State sizes F S R G T B) (passed : List (List Int16))
    (block : List Int16) :
    results lib config start (passed ++ [block]) =
      ((results lib config start passed).1 ++
          [(RxPipeline.execute lib config.rates (results lib config start passed).2 block).1],
        (RxPipeline.execute lib config.rates (results lib config start passed).2 block).2) := by
  simp only [results, mapBlocks_append, mapBlocks]

structure Receives (s : State config sizes F S R G T B) : Prop where
  input : s.session.passed.flatten ++ (s.thread.pendingBlocks.flatten ++ s.infifo2.elements) =
    s.session.written
  whole : ∀ block ∈ s.session.passed ++ s.thread.pendingBlocks, block.length = config.nsam
  pipeline : s.pipeline = (results lib config s.session.start s.session.passed).2
  outcomes : s.session.outcomes.map Outcome.outputSamples ++ s.thread.pendingOutputs =
    (results lib config s.session.start s.session.passed).1.map Run.outputSamples
  output : s.thread ≠ .resetOutfifo2 →
    s.session.played ++ s.outfifo2.elements = s.session.outcomes.flatMap Outcome.taken
  cleared : s.thread = .resetOutfifo2 → s.session.outcomes = []
  room : s.thread.looked = true → config.nsam_one_speech_frame sizes ≤ s.outfifo2.numFree
  refused : ∀ outcome ∈ s.session.outcomes, outcome.accepted = false →
    config.nsam_one_speech_frame sizes < outcome.outputSamples.length

variable {lib} {s : State config sizes F S R G T B}

theorem Receives.initial (g_tx : Bool) (pipeline : RxPipeline.State sizes F S R G T B) :
    Receives lib (State.initial g_tx pipeline : State config sizes F S R G T B) where
  input := rfl
  whole block member := by cases member
  pipeline := rfl
  outcomes := rfl
  output _ := rfl
  cleared _ := rfl
  room looked := by cases looked
  refused _ member := by cases member

/-- Moving on with nothing in flight. -/
theorem Receives.goto (h : Receives lib s) {thread : Thread} (here : s.thread.between = true)
    (there : thread.between = true)
    (room : thread.looked = true → config.nsam_one_speech_frame sizes ≤ s.outfifo2.numFree) :
    Receives lib { s with thread := thread } := by
  obtain ⟨blocks, outputs, elsewhere⟩ := Thread.pending_of_between here
  obtain ⟨nextBlocks, nextOutputs, away⟩ := Thread.pending_of_between there
  have input := h.input
  have whole := h.whole
  have outcomes := h.outcomes
  rw [blocks] at input whole
  rw [outputs] at outcomes
  exact {
    input := by rwa [nextBlocks]
    whole := by rwa [nextBlocks]
    pipeline := h.pipeline
    outcomes := by rwa [nextOutputs]
    output := fun _ => h.output elsewhere
    cleared := fun same => absurd same away
    room := room
    refused := h.refused }

theorem Receives.execute (h : Receives lib s) {block : List Int16}
    (phase : s.thread = .execute block) : Receives lib (Receive.execute lib s block) := by
  have input := h.input
  have whole := h.whole
  have outcomes := h.outcomes
  have room := h.room
  have output := h.output
  rw [phase] at input whole outcomes room output
  have passed : (s.session.passed ++ [block]).flatten ++ s.infifo2.elements = s.session.written := by
    rw [List.flatten_append, List.append_assoc]
    exact input
  have behind : results lib config s.session.start (s.session.passed ++ [block]) = _ :=
    results_concat lib s.session.start s.session.passed block
  rw [← h.pipeline] at behind
  unfold Receive.execute
  dsimp only
  split
  · exact {
      input := passed
      whole := by simpa [Thread.pendingBlocks] using whole
      pipeline := by rw [behind]
      outcomes := by
        rw [behind, List.map_append, ← outcomes]
        simp only [Thread.pendingOutputs, List.append_nil, List.map_cons, List.map_nil]
      output := fun _ => output (by simp)
      cleared := by rintro ⟨⟩
      room := fun _ => room rfl
      refused := h.refused }
  · rename_i silent
    have empty : (RxPipeline.execute lib config.rates s.pipeline block).1.outputSamples = [] :=
      List.eq_nil_of_length_eq_zero (Nat.eq_zero_of_not_pos silent)
    exact {
      input := passed
      whole := by simpa [Thread.pendingBlocks] using whole
      pipeline := by rw [behind]
      outcomes := by
        rw [behind, List.map_append, List.map_append, ← outcomes]
        simp [Thread.pendingOutputs, empty]
      output := fun _ => by
        rw [List.flatMap_append, ← output (by simp)]
        simp [Outcome.taken]
      cleared := by rintro ⟨⟩
      room := by rintro ⟨⟩
      refused := fun outcome member denied => by
        rcases List.mem_append.mp member with earlier | now
        · exact h.refused outcome earlier denied
        · rw [List.mem_singleton.mp now] at denied
          cases denied }

theorem Receives.write (h : Receives lib s) {outputSamples : List Int16}
    (phase : s.thread = .write outputSamples) : Receives lib (Receive.write s outputSamples) := by
  have input := h.input
  have whole := h.whole
  have outcomes := h.outcomes
  have room := h.room
  have output := h.output
  rw [phase] at input whole outcomes room output
  have enough := room rfl
  exact {
    input := input
    whole := whole
    pipeline := h.pipeline
    outcomes := by simpa [Receive.write, Thread.pendingOutputs] using outcomes
    output := fun _ => by
      by_cases fits : outputSamples.length ≤ s.outfifo2.numFree
      · simp only [Receive.write, List.flatMap_append, ← output (by simp),
          Queue.elements_writeAny fits, Queue.write_of_le fits, Option.isSome_some,
          List.flatMap_singleton, Outcome.taken, if_true, List.append_assoc]
      · simp [Receive.write, ← output (by simp), Queue.writeAny_of_full fits, Queue.write, fits,
          Outcome.taken]
    cleared := by rintro ⟨⟩
    room := by rintro ⟨⟩
    refused := fun outcome member denied => by
      rcases List.mem_append.mp member with earlier | now
      · exact h.refused outcome earlier denied
      · rw [List.mem_singleton.mp now] at denied ⊢
        by_contra short
        have fits : outputSamples.length ≤ s.outfifo2.numFree :=
          (Nat.le_of_not_lt short).trans enough
        rw [Queue.write_of_le fits] at denied
        cases denied }

theorem Receives.read (h : Receives lib s) (phase : s.thread = .read) (mustStopWork : Bool) :
    Receives lib (threadStep lib s mustStopWork) := by
  have input := h.input
  have whole := h.whole
  have outcomes := h.outcomes
  have room := h.room
  have output := h.output
  rw [phase] at input whole outcomes room output
  have enough := room rfl
  simp only [threadStep, phase]
  split
  · rename_i block infifo2 taken
    obtain ⟨long, rfl, rest⟩ := Queue.read_eq_some taken
    exact {
      input := by
        rw [← input, rest]
        simp [Thread.pendingBlocks]
      whole := fun block member => by
        rcases List.mem_append.mp member with earlier | now
        · exact whole block (List.mem_append_left _ earlier)
        · rw [List.mem_singleton.mp now]
          exact List.length_take_of_le long
      pipeline := h.pipeline
      outcomes := outcomes
      output := fun _ => output (by simp)
      cleared := by rintro ⟨⟩
      room := fun _ => enough
      refused := h.refused }
  · exact h.goto (by rw [phase]; rfl) rfl (by rintro ⟨⟩)

/-- The FIFOs are cleared one behind the other. -/
theorem Receives.reset (h : Receives lib s) (mustStopWork : Bool) :
    (s.thread = .resetInfifo2 → Receives lib (threadStep lib s mustStopWork)) ∧
      (s.thread = .resetOutfifo2 → Receives lib (threadStep lib s mustStopWork)) := by
  constructor
  · intro phase
    simp only [threadStep, phase]
    exact {
      input := rfl
      whole := fun block member => by cases member
      pipeline := rfl
      outcomes := rfl
      output := fun elsewhere => absurd rfl elsewhere
      cleared := fun _ => rfl
      room := by rintro ⟨⟩
      refused := fun _ member => by cases member }
  · intro phase
    have input := h.input
    have whole := h.whole
    have outcomes := h.outcomes
    have cleared := h.cleared phase
    rw [phase] at input whole outcomes
    simp only [threadStep, phase]
    exact {
      input := input
      whole := whole
      pipeline := h.pipeline
      outcomes := outcomes
      output := fun _ => by
        rw [cleared]
        rfl
      cleared := by rintro ⟨⟩
      room := by rintro ⟨⟩
      refused := h.refused }

theorem Receives.threadStep (h : Receives lib s) (mustStopWork : Bool) :
    Receives lib (Receive.threadStep lib s mustStopWork) := by
  cases phase : s.thread with
  | idle =>
      simp only [Receive.threadStep, phase]
      refine h.goto (by rw [phase]; rfl) ?_ ?_
      · split <;> rfl
      · split <;> rintro ⟨⟩
  | resetInfifo2 => exact (h.reset mustStopWork).1 phase
  | resetOutfifo2 => exact (h.reset mustStopWork).2 phase
  | mustStopWork processInputFifo =>
      simp only [Receive.threadStep, phase]
      refine h.goto (by rw [phase]; rfl) ?_ ?_
      · split <;> rfl
      · split <;> rintro ⟨⟩
  | numFree =>
      simp only [Receive.threadStep, phase]
      refine h.goto (by rw [phase]; rfl) ?_ ?_
      · split <;> rfl
      · split
        · rename_i enough
          exact fun _ => enough
        · rintro ⟨⟩
  | read => exact h.read phase mustStopWork
  | execute block =>
      simp only [Receive.threadStep, phase]
      exact h.execute phase
  | write outputSamples =>
      simp only [Receive.threadStep, phase]
      exact h.write phase
  | loadTx =>
      simp only [Receive.threadStep, phase]
      exact h.goto (by rw [phase]; rfl) rfl (by rintro ⟨⟩)

/-! ## The application -/

theorem Receives.fill (h : Receives lib s) (samples : List Int16) :
    Receives lib (Receive.fill s samples) := by
  unfold Receive.fill
  split
  · rename_i infifo2 written
    obtain ⟨-, elements⟩ := Queue.write_eq_some written
    refine { h with input := ?_ }
    simp only [elements, ← h.input, List.append_assoc]
  · exact h

theorem Receives.drain (h : Receives lib s) (len : Nat) : Receives lib (Receive.drain s len) := by
  unfold Receive.drain
  split
  · rename_i result outfifo2 taken
    obtain ⟨enough, rfl, rest⟩ := Queue.read_eq_some taken
    refine { h with output := fun elsewhere => ?_, room := fun looked => ?_ }
    · rw [← h.output elsewhere, rest, List.append_assoc, List.take_append_drop]
    · have before := h.room looked
      have used : outfifo2.numUsed ≤ s.outfifo2.numUsed := by
        rw [Queue.numUsed, rest, List.length_drop]
        exact Nat.sub_le _ _
      exact before.trans (Nat.sub_le_sub_left used _)
  · exact h

theorem Receives.next (h : Receives lib s) {action : Action} {after : State config sizes F S R G T B}
    (taken : next lib s action = some after) : Receives lib after := by
  cases action with
  | threadStep mustStopWork =>
      cases taken
      exact h.threadStep mustStopWork
  | write samples =>
      cases taken
      exact h.fill samples
  | drain len =>
      cases taken
      exact h.drain len
  | storeTx value =>
      cases taken
      exact { h with }

/-! ## Every reception -/

theorem Config.nsam_pos (config : Config) : 0 < config.nsam := by
  have audible := config.rates.inputAudible
  rw [Config.nsam, FRAME_DURATION_MS, MS_TO_SEC]
  omega

theorem Receives.of_reachable {g_tx : Bool} {pipeline : RxPipeline.State sizes F S R G T B}
    (reachable : Reachable (Receive.next lib) (fun _ _ => True) (.initial g_tx pipeline) s) :
    Receives lib s :=
  reachable.invariant (Receives lib) (Receives.initial g_tx pipeline)
    fun _ _ _ h _ taken => h.next taken

theorem Receives.blocks_written (h : Receives lib s) :
    blocks config.nsam s.session.written = s.session.passed ++
      blocks config.nsam (s.thread.pendingBlocks.flatten ++ s.infifo2.elements) := by
  rw [← h.input]
  exact blocks_flatten_append config.nsam_pos
    (fun block member => h.whole block (List.mem_append_left _ member)) _

theorem Receives.outcomes_prefix (h : Receives lib s) :
    s.session.outcomes.map Outcome.outputSamples <+:
      (results lib config s.session.start (blocks config.nsam s.session.written)).1.map
        Run.outputSamples := by
  rw [h.blocks_written, results, mapBlocks_append, List.map_append, ← results, ← h.outcomes,
    List.append_assoc]
  exact List.prefix_append _ _

/-- Since the FIFOs were cleared, the blocks given to the pipeline are the first blocks of what was
written, and nothing of it is lost. What was read from `outfifo2` and what is in it are the outputs
of these runs in order, but for those that were refused, and these are longer than one speech
frame. -/
theorem reception_in_order (config : Config) (lib : Libraries sizes F S R G T B) (g_tx : Bool)
    (pipeline : RxPipeline.State sizes F S R G T B) (s : State config sizes F S R G T B)
    (reachable : Reachable (next lib) (fun _ _ => True) (.initial g_tx pipeline) s)
    (here : s.thread ≠ .resetOutfifo2) :
    s.session.passed <+: blocks config.nsam s.session.written ∧
    s.session.passed.flatten ++ (s.thread.pendingBlocks.flatten ++ s.infifo2.elements) =
      s.session.written ∧
    s.session.outcomes.map Outcome.outputSamples <+:
      (results lib config s.session.start (blocks config.nsam s.session.written)).1.map
        Run.outputSamples ∧
    s.session.played ++ s.outfifo2.elements = s.session.outcomes.flatMap Outcome.taken ∧
    ∀ outcome ∈ s.session.outcomes, outcome.accepted = false →
      config.nsam_one_speech_frame sizes < outcome.outputSamples.length := by
  have h := Receives.of_reachable reachable
  exact ⟨⟨_, h.blocks_written.symm⟩, h.input, h.outcomes_prefix, h.output here, h.refused⟩

/-! ## Within the budget -/

theorem Receives.settled (h : Receives lib s) {ninMin : Nat}
    (budget : RxPipeline.Budget lib config.rates config.nsam ninMin)
    (start : RxPipeline.Settled s.session.start) : RxPipeline.Settled s.pipeline := by
  rw [h.pipeline]
  exact (start.mapBlocks budget fun block member =>
    h.whole block (List.mem_append_left _ member)).1

/-- No run puts out more than there is room for. -/
theorem Receives.accepted (h : Receives lib s) {ninMin : Nat}
    (budget : RxPipeline.Budget lib config.rates config.nsam ninMin)
    (start : RxPipeline.Settled s.session.start) :
    ∀ outcome ∈ s.session.outcomes, outcome.accepted = true := by
  intro outcome member
  obtain ⟨-, bounded⟩ := start.mapBlocks budget fun block member =>
    h.whole block (List.mem_append_left _ member)
  have output : outcome.outputSamples ∈
      (results lib config s.session.start s.session.passed).1.map Run.outputSamples := by
    rw [← h.outcomes]
    exact List.mem_append_left _ (List.mem_map_of_mem member)
  obtain ⟨run, made, same⟩ := List.mem_map.mp output
  have short := bounded run made
  rw [same] at short
  by_contra denied
  have long := h.refused outcome member (Bool.eq_false_iff.mpr denied)
  exact absurd short (Nat.not_le_of_lt long)

def twoFrames : RadeSizes := ⟨160, 72, NB_TOTAL_FEATURES, NB_TOTAL_FEATURES_pos⟩

theorem one_le_160 : 1 ≤ 160 := Nat.le_add_left 1 159

def silentBwe (_ : Unit) (_ : List Int16) : List Int16 × Unit :=
  (List.replicate BandwidthExpandStep.outputSize 0, ())

theorem length_silentBwe (osce : Unit) (block : List Int16) :
    (silentBwe osce block).1.length = BandwidthExpandStep.outputSize :=
  List.length_replicate

/-- A modem that makes two silent frames of 160 samples, between sound cards at the rates of the
pipeline. -/
def twoFrameLibraries : Libraries twoFrames ℚ Unit Unit Unit Unit Unit where
  resample := ⟨(), id, fun _ _ _ samples => (samples, ())⟩
  rade := RADEReceiveStep.regularLibrary 160 72 one_le_160
  bwe := ⟨(), id, silentBwe, length_silentBwe⟩

theorem audible (rate : Nat) : 100 ≤ rate + 100 := Nat.le_add_left 100 rate

def cardsAtModemRates : Config := ⟨⟨8000, 48000, audible 7900, audible 47900⟩, 400, 1000⟩

/-- 20 ms are received, and a part of the speech is read. -/
theorem one_block_received :
    letI := exactArith ℚ
    ∃ s : State cardsAtModemRates twoFrames ℚ Unit Unit Unit Unit Unit,
      Reachable (next twoFrameLibraries) (fun _ _ => True)
        (.initial false (RxPipeline.initial twoFrameLibraries [] () () none)) s ∧
      s.thread ≠ .resetOutfifo2 ∧ s.session.played.length = 500 := by
  let := exactArith ℚ
  have executed : (runActions (next twoFrameLibraries) (fun _ _ => True)
      (State.initial false (RxPipeline.initial twoFrameLibraries [] () () none) :
        State cardsAtModemRates twoFrames ℚ Unit Unit Unit Unit Unit)
      ([.write (List.replicate 160 1)] ++ List.replicate 7 (.threadStep false) ++ [.drain 500])).map
        (fun s => (s.thread.between, s.session.played.length)) = some (true, 500) := by
    decide +kernel
  obtain ⟨s, run, seen⟩ := Option.map_eq_some_iff.mp executed
  obtain ⟨between, played⟩ := Prod.mk.inj seen
  exact ⟨s, Reachable.start.of_runActions _ run, (Thread.pending_of_between between).2.2, played⟩

theorem reception_in_order_of_one_block :
    letI := exactArith ℚ
    ∃ s : State cardsAtModemRates twoFrames ℚ Unit Unit Unit Unit Unit,
      s.session.played.length = 500 ∧
      s.session.passed <+: blocks cardsAtModemRates.nsam s.session.written ∧
      s.session.played ++ s.outfifo2.elements = s.session.outcomes.flatMap Outcome.taken := by
  let := exactArith ℚ
  obtain ⟨s, reachable, here, played⟩ := one_block_received
  have order := reception_in_order cardsAtModemRates twoFrameLibraries false
    (RxPipeline.initial twoFrameLibraries [] () () none) s reachable here
  exact ⟨s, played, order.1, order.2.2.2.1⟩

end FreeDV.Pipeline.MinimalTxRxThread.Receive
