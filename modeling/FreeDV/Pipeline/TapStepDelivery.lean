import FreeDV.Lib.Blocks
import FreeDV.Pipeline.TapStepDrops
import FreeDV.Util.GenericFifoSteady

/-!
# What the tapped step gets

The pieces that were accepted make up the stream of the FIFO, of which the tap
thread has taken off a number of whole blocks. A last pass that begins when
nobody writes any more leaves less than one block behind.
-/

set_option autoImplicit false

namespace FreeDV.Pipeline.TapStep

open FreeDV.Lib
open FreeDV.Util
open FreeDV.Util.GenericFifo (Ghost Pos Steady computeUsed writeReturn readReturn tag)

theorem toFloat_of_small {value : Nat} (small : value < 2 ^ 24) : toFloat value = value := by
  have exponent : value.log2 - 23 = 0 := by
    by_cases zero : value = 0
    · simp [zero]
    · have := (Nat.log2_lt zero).mpr small
      omega
  simp only [toFloat, exponent, Nat.pow_zero, Nat.div_one, Nat.mul_one, Nat.mod_one]
  rw [if_neg (by omega)]

theorem le_toFloat {value : Nat} (large : 2 ^ 24 ≤ value) : 2 ^ 23 ≤ toFloat value := by
  have exponent : 24 ≤ value.log2 := (Nat.le_log2 (by omega)).mpr large
  have unit : 0 < 2 ^ (value.log2 - 23) := Nat.two_pow_pos _
  have quotient : 2 ^ 23 ≤ value / 2 ^ (value.log2 - 23) := by
    rw [Nat.le_div_iff_mul_le unit, ← Nat.pow_add, Nat.add_sub_of_le (by omega)]
    exact Nat.log2_self_le (by omega)
  have scaled : value / 2 ^ (value.log2 - 23) ≤
      value / 2 ^ (value.log2 - 23) * 2 ^ (value.log2 - 23) := Nat.le_mul_of_pos_right _ unit
  simp only [toFloat]
  split_ifs
  · rw [Nat.add_mul]
    omega
  · omega

theorem fifoLength_pos {sampleRate : Nat} (hundred : 100 ≤ sampleRate) :
    0 < fifoLength sampleRate := by
  rw [fifoLength]
  by_cases small : sampleRate < 2 ^ 24
  · rw [toFloat_of_small small]
    omega
  · have := le_toFloat (Nat.le_of_not_lt small)
    omega

/-! ## The stream -/

/-- The pieces whose write returned 0. -/
def State.accepted (s : State) : List (List Int16) := (s.pieces.filter (·.2)).map (·.1)

theorem flatten_accepted (pieces : List (List Int16 × Bool)) (piece : List Int16) (stored : Bool) :
    (((pieces ++ [(piece, stored)]).filter (·.2)).map (·.1)).flatten =
      ((pieces.filter (·.2)).map (·.1)).flatten ++ if stored then piece else [] := by
  cases stored <;> simp

/-- The block that was read and is not yet given to the tapped step. -/
def State.inHand (s : State) : List Int16 :=
  match s.tap with
  | .execute _ => s.fifoInput
  | _ => []

/-- `tapThreadInput_.numUsed()` -/
def State.numUsed (sampleRate : Nat) (s : State) : Nat :=
  (computeUsed (fifoLength sampleRate) s.tapThreadInput.pin s.tapThreadInput.pout).getD 0

/-- The write in progress is that of the next piece. -/
def Writes (s : State) : Audio → Prop
  | .write call samplesToRead => s.tapThreadInput.writer.data = call.piece samplesToRead
  | _ => s.tapThreadInput.writer = .idle

/-- A read in progress is for one block, and there is one. -/
def Reads (sampleRate : Nat) (s : State) (g : Ghost Int16) : Tap → Prop
  | .read _ => s.tapThreadInput.reader.len = some (sampleRate / 100) ∧
      g.popped + sampleRate / 100 ≤ g.stream.length
  | .loadPout _ ppin => s.tapThreadInput.reader = .idle ∧
      ∃ pushed, g.popped ≤ pushed ∧ pushed ≤ g.stream.length ∧
        ppin = ⟨tag 0, pushed % fifoLength sampleRate⟩
  | _ => s.tapThreadInput.reader = .idle

/-- What was read are whole blocks off the front of the stream. -/
structure Blocks (sampleRate : Nat) (s : State) (g : Ghost Int16) : Prop where
  buffer : s.fifoInput.length = sampleRate / 100
  whole : ∀ block ∈ s.tapped, block.length = sampleRate / 100
  front : s.tapped.flatten ++ s.inHand = g.stream.take g.popped

structure Invariant (sampleRate : Nat) (s : State) (g : Ghost Int16) : Prop where
  steady : Steady (fifoLength sampleRate) s.tapThreadInput g
  stream : s.accepted.flatten = g.stream
  writes : Writes s s.audio
  reads : Reads sampleRate s g s.tap
  blocks : Blocks sampleRate s g

variable {sampleRate : Nat} {s after : State} {g : Ghost Int16} {call : Call}

/-! ## The stream seen from the audio thread -/

/-- The audio thread's steps leave the tap thread's part alone. -/
theorem Blocks.grow (blocks : Blocks sampleRate s g) {g' : Ghost Int16} {more : List Int16}
    (order : g.popped ≤ g.stream.length) (stream : g'.stream = g.stream ++ more)
    (popped : g'.popped = g.popped) : Blocks sampleRate s g' := by
  refine { blocks with front := ?_ }
  rw [blocks.front, stream, popped, List.take_append_of_le_length order]

theorem Reads.grow {tap : Tap} (reads : Reads sampleRate s g tap) {s' : State} {g' : Ghost Int16}
    {more : List Int16} (reader : s'.tapThreadInput.reader = s.tapThreadInput.reader)
    (stream : g'.stream = g.stream ++ more) (popped : g'.popped = g.popped) :
    Reads sampleRate s' g' tap := by
  have longer : g.stream.length ≤ g'.stream.length := by
    rw [stream, List.length_append]
    exact Nat.le_add_right _ _
  cases tap with
  | read last =>
      obtain ⟨reading, enough⟩ := reads
      exact ⟨reader ▸ reading, popped ▸ enough.trans longer⟩
  | loadPout last ppin =>
      obtain ⟨idle, pushed, order, old, loaded⟩ := reads
      exact ⟨reader ▸ idle, pushed, popped ▸ order, old.trans longer, loaded⟩
  | loadEnding | loadPin last | execute last | executing last | exchangeDrops last
  | exchangeSamples last drops | wait | finished => exact reader.trans reads

/-- `execute` with no write in progress. -/
structure Between (sampleRate : Nat) (s : State) (g : Ghost Int16) : Prop where
  steady : Steady (fifoLength sampleRate) s.tapThreadInput g
  stream : s.accepted.flatten = g.stream
  idle : s.tapThreadInput.writer = .idle
  reads : Reads sampleRate s g s.tap
  blocks : Blocks sampleRate s g

theorem Between.writeNext (between : Between sampleRate s g)
    (stepped : writeNext sampleRate s call = some after) : Invariant sampleRate after g := by
  unfold TapStep.writeNext at stepped
  split at stepped
  · simp only [GenericFifo.next, between.idle] at stepped
    cases stepped
    exact ⟨between.steady.write _, between.stream, rfl,
      between.reads.grow rfl (List.append_nil _).symm rfl, { between.blocks with }⟩
  · cases stepped
    exact ⟨between.steady, between.stream, between.idle,
      between.reads.grow rfl (List.append_nil _).symm rfl, { between.blocks with }⟩

theorem Between.countDrops (between : Between sampleRate s g) :
    Invariant sampleRate (countDrops s call) g := by
  unfold TapStep.countDrops
  split <;> exact ⟨between.steady, between.stream, between.idle,
    between.reads.grow rfl (List.append_nil _).symm rfl, { between.blocks with }⟩

theorem Invariant.execute (inv : Invariant sampleRate s g) {inputSamples : List Int16}
    (stepped : execute sampleRate s inputSamples = some after) : Invariant sampleRate after g := by
  have writes := inv.writes
  unfold TapStep.execute at stepped
  split at stepped
  · rename_i idle
    rw [idle] at writes
    have between : Between sampleRate { s with calls := s.calls ++ [inputSamples] } g :=
      ⟨inv.steady, inv.stream, writes, inv.reads.grow rfl (List.append_nil _).symm rfl,
        { inv.blocks with }⟩
    exact between.writeNext stepped
  · cases stepped

theorem Invariant.writing (hundred : 100 ≤ sampleRate) (inv : Invariant sampleRate s g)
    {samplesToRead : Nat} (phase : s.audio = .write call samplesToRead)
    {fifo : GenericFifo.State Int16}
    (access : GenericFifo.writerStep (fifoLength sampleRate) s.tapThreadInput = some fifo) :
    (writeReturn (fifoLength sampleRate) s.tapThreadInput = none →
      ∃ g', Invariant sampleRate
        { s with tapThreadInput := fifo, audio := .write call samplesToRead } g') ∧
    ∀ value, writeReturn (fifoLength sampleRate) s.tapThreadInput = some value →
      ∃ g', Between sampleRate
        { s with
          tapThreadInput := fifo
          audio := .write call samplesToRead
          pieces := s.pieces ++ [(call.piece samplesToRead, decide (value = 0))] } g' := by
  have piece := inv.writes
  rw [phase] at piece
  obtain ⟨reader, _, _, _, further, last⟩ := GenericFifo.writerStep_frame access
  obtain ⟨g', steady, popped, stream⟩ :=
    inv.steady.writerStep (fifoLength_pos hundred) access
  have reads : Reads sampleRate { s with tapThreadInput := fifo } g' s.tap :=
    inv.reads.grow reader stream popped
  have blocks := inv.blocks.grow inv.steady.popped_le stream popped
  constructor
  · intro unfinished
    simp only [unfinished, reduceCtorEq, if_false, List.append_nil] at stream
    exact ⟨g', steady, inv.stream.trans stream.symm, (further unfinished).2.trans piece, reads,
      { blocks with }⟩
  · intro value returned
    refine ⟨g', steady, ?_, last (by simp [returned]), reads, { blocks with }⟩
    rw [State.accepted, flatten_accepted, stream, ← inv.stream, State.accepted, returned, piece]
    simp

theorem Invariant.audioStep (hundred : 100 ≤ sampleRate) (inv : Invariant sampleRate s g)
    (stepped : audioStep sampleRate s = some after) : ∃ g', Invariant sampleRate after g' := by
  have writes := inv.writes
  unfold TapStep.audioStep at stepped
  cases phase : s.audio with
  | idle => simp [phase] at stepped
  | write call samplesToRead =>
      simp only [phase, GenericFifo.next] at stepped
      cases access : GenericFifo.writerStep (fifoLength sampleRate) s.tapThreadInput with
      | none => simp [access] at stepped
      | some fifo =>
          obtain ⟨unfinished, finished⟩ := inv.writing hundred phase access
          cases returned : writeReturn (fifoLength sampleRate) s.tapThreadInput with
          | none =>
              simp only [access, returned] at stepped
              cases stepped
              exact unfinished returned
          | some value =>
              simp only [access, returned] at stepped
              obtain ⟨g', between⟩ := finished value returned
              exact ⟨g', between.writeNext stepped⟩
  | loadPin call | addSamples call =>
      simp only [phase] at stepped writes
      cases stepped
      exact ⟨g, inv.steady, inv.stream, writes,
        inv.reads.grow rfl (List.append_nil _).symm rfl, { inv.blocks with }⟩
  | loadPout call ppin =>
      simp only [phase] at stepped writes
      have between : Between sampleRate s g :=
        ⟨inv.steady, inv.stream, writes, inv.reads, inv.blocks⟩
      split at stepped
      · cases stepped
        exact ⟨g, inv.steady, inv.stream, writes,
          inv.reads.grow rfl (List.append_nil _).symm rfl, { inv.blocks with }⟩
      · cases stepped
        exact ⟨g, between.countDrops⟩
  | signal call =>
      simp only [phase] at stepped writes
      cases stepped
      have between : Between sampleRate { s with sem := s.sem + 1 } g :=
        ⟨inv.steady, inv.stream, writes, inv.reads.grow rfl (List.append_nil _).symm rfl,
          { inv.blocks with }⟩
      exact ⟨g, between.countDrops⟩
  | addDrops call =>
      simp only [phase] at stepped writes
      cases stepped
      exact ⟨g, inv.steady, inv.stream, writes,
        inv.reads.grow rfl (List.append_nil _).symm rfl, { inv.blocks with }⟩

/-! ## The stream seen from the tap thread -/

/-- The tap thread may move where it holds no block and reads nothing. -/
theorem Invariant.setTap (inv : Invariant sampleRate s g) {tap : Tap}
    (reads : Reads sampleRate s g tap) (inHand : s.inHand = [])
    (inHand' : State.inHand { s with tap := tap } = []) :
    Invariant sampleRate { s with tap := tap } g := by
  refine ⟨inv.steady, inv.stream, inv.writes,
    reads.grow rfl (List.append_nil _).symm rfl, { inv.blocks with front := ?_ }⟩
  rw [inHand', ← inHand]
  exact inv.blocks.front

theorem Invariant.loadPout (hundred : 100 ≤ sampleRate) (inv : Invariant sampleRate s g)
    {last : Bool} {ppin : Pos} (phase : s.tap = .loadPout last ppin)
    (enough : (computeUsed (fifoLength sampleRate) ppin s.tapThreadInput.pout).getD 0 ≥
      sampleRate / 100) :
    s.tapThreadInput.reader = .idle ∧
      Invariant sampleRate
        { s with
          tapThreadInput :=
            { s.tapThreadInput with reader := .loadResetting (sampleRate / 100) }
          tap := .read last } g := by
  have reads := inv.reads
  rw [phase] at reads
  obtain ⟨idle, pushed, order, old, rfl⟩ := reads
  rw [inv.steady.computeUsed (fifoLength_pos hundred) order old, Option.getD_some] at enough
  refine ⟨idle, inv.steady.read _, inv.stream, inv.writes,
    ⟨rfl, by omega⟩, { inv.blocks with front := ?_ }⟩
  have front := inv.blocks.front
  rw [State.inHand, phase] at front
  exact front

theorem Invariant.reading (hundred : 100 ≤ sampleRate) (inv : Invariant sampleRate s g)
    {last : Bool} (phase : s.tap = .read last) {fifo : GenericFifo.State Int16}
    (access : GenericFifo.readerStep (fifoLength sampleRate) s.tapThreadInput = some fifo) :
    (readReturn (fifoLength sampleRate) s.tapThreadInput = none →
      ∃ g', Invariant sampleRate { s with tapThreadInput := fifo, tap := .read last } g') ∧
    ∀ value result, readReturn (fifoLength sampleRate) s.tapThreadInput = some (value, result) →
      ∃ g', Invariant sampleRate
        { s with
          tapThreadInput := fifo
          fifoInput := result ++ s.fifoInput.drop result.length
          tap := .execute last } g' := by
  have reads := inv.reads
  have front := inv.blocks.front
  rw [phase] at reads
  rw [State.inHand, phase, List.append_nil] at front
  obtain ⟨reading, enough⟩ := reads
  have positive := fifoLength_pos hundred
  obtain ⟨writer, _, _, _, further, finished⟩ := GenericFifo.readerStep_frame access
  obtain ⟨g', steady, stream, popped⟩ := inv.steady.readerStep positive reading enough access
  have writes : Writes { s with tapThreadInput := fifo } s.audio := by
    have writes := inv.writes
    unfold Writes at writes ⊢
    simpa only [writer] using writes
  constructor
  · intro unfinished
    rw [if_pos unfinished] at popped
    refine ⟨g', steady, inv.stream.trans stream.symm, writes,
      ⟨(further unfinished).trans reading, ?_⟩, { inv.blocks with front := ?_ }⟩
    · rw [popped, stream]
      exact enough
    · rw [stream, popped, ← front]
      exact List.append_nil _
  · intro value result returned
    -- the returned value is not checked, but with a block to read it is 0
    obtain ⟨_, taken⟩ := Prod.mk.inj (inv.steady.readReturn positive reading enough returned)
    have length : result.length = sampleRate / 100 := by
      rw [taken, List.length_take_of_le]
      rw [List.length_drop]
      omega
    have whole : result ++ s.fifoInput.drop result.length = result := by
      rw [length, ← inv.blocks.buffer, List.drop_length, List.append_nil]
    have read : readReturn (fifoLength sampleRate) s.tapThreadInput ≠ none := by
      simp [returned]
    rw [if_neg read] at popped
    rw [whole]
    refine ⟨g', steady, inv.stream.trans stream.symm, writes,
      finished read, { inv.blocks with buffer := length, front := ?_ }⟩
    rw [State.inHand, stream, popped, front, taken, List.take_add]

theorem Invariant.tapStep (hundred : 100 ≤ sampleRate) (inv : Invariant sampleRate s g)
    (stepped : tapStep sampleRate s = some after) : ∃ g', Invariant sampleRate after g' := by
  have reads := inv.reads
  unfold TapStep.tapStep at stepped
  cases phase : s.tap with
  | loadEnding =>
      simp only [phase] at stepped reads
      cases stepped
      exact ⟨g, inv.setTap reads (by rw [State.inHand, phase]) rfl⟩
  | loadPin last =>
      simp only [phase] at stepped reads
      cases stepped
      exact ⟨g, inv.setTap ⟨reads, g.stream.length, inv.steady.popped_le, Nat.le_refl _,
        inv.steady.pin⟩ (by rw [State.inHand, phase]) rfl⟩
  | loadPout last ppin =>
      simp only [phase] at stepped reads
      split at stepped
      · rename_i enough
        obtain ⟨idle, reading⟩ := inv.loadPout hundred phase enough
        simp only [GenericFifo.next, idle] at stepped
        cases stepped
        exact ⟨g, reading⟩
      · cases stepped
        exact ⟨g, inv.setTap reads.1 (by rw [State.inHand, phase]) rfl⟩
  | read last =>
      simp only [phase, GenericFifo.next] at stepped
      cases access : GenericFifo.readerStep (fifoLength sampleRate) s.tapThreadInput with
      | none => simp [access] at stepped
      | some fifo =>
          obtain ⟨unfinished, finished⟩ := inv.reading hundred phase access
          cases returned : readReturn (fifoLength sampleRate) s.tapThreadInput with
          | none =>
              simp only [access, returned] at stepped
              cases stepped
              exact unfinished returned
          | some outcome =>
              simp only [access, returned] at stepped
              cases stepped
              exact finished outcome.1 outcome.2 returned
  | execute last =>
      simp only [phase] at stepped reads
      cases stepped
      have front := inv.blocks.front
      rw [State.inHand, phase] at front
      refine ⟨g, inv.steady, inv.stream, inv.writes, reads,
        { inv.blocks with whole := ?_, front := ?_ }⟩
      · intro block member
        rcases List.mem_append.mp member with old | new
        · exact inv.blocks.whole block old
        · rw [List.mem_singleton.mp new]
          exact inv.blocks.buffer
      · rw [← front]
        simp [State.inHand]
  | executing last => simp [phase] at stepped
  | exchangeDrops last =>
      simp only [phase] at stepped reads
      cases stepped
      have moved : Invariant sampleRate
          { s with tap := .exchangeSamples last s.unreportedDrops } g :=
        inv.setTap reads (by rw [State.inHand, phase]) rfl
      exact ⟨g, moved.steady, moved.stream, moved.writes, moved.reads,
        { moved.blocks with }⟩
  | exchangeSamples last drops =>
      simp only [phase] at stepped reads
      obtain ⟨log, dropping, samplesDropped, added, lost, same, _⟩ :=
        reportDrops_frame { s with unreportedDroppedSamples := 0, tap := .exchangeSamples last drops }
          drops s.unreportedDroppedSamples
      rw [same] at stepped
      cases stepped
      have moved : Invariant sampleRate { s with tap := if last then .finished else .wait } g := by
        cases last <;> exact inv.setTap reads (by rw [State.inHand, phase]) rfl
      exact ⟨g, moved.steady, moved.stream, moved.writes, moved.reads, { moved.blocks with }⟩
  | wait =>
      simp only [phase] at stepped reads
      split at stepped
      · cases stepped
        have moved : Invariant sampleRate { s with tap := .loadEnding } g :=
          inv.setTap reads (by rw [State.inHand, phase]) rfl
        exact ⟨g, moved.steady, moved.stream, moved.writes, moved.reads,
          { moved.blocks with }⟩
      · cases stepped
  | finished => simp [phase] at stepped

/-! ## The last pass -/

/-- The tap thread has left its loop. -/
def Tap.last : Tap → Bool
  | .loadPin last => last
  | .loadPout last _ => last
  | .read last => last
  | .execute last => last
  | .executing last => last
  | .exchangeDrops last => last
  | .exchangeSamples last _ => last
  | .finished => true
  | .loadEnding => false
  | .wait => false

/-- The blocks of the pass in progress are given to the tapped step. -/
def Tap.drained : Tap → Bool
  | .exchangeDrops _ => true
  | .exchangeSamples _ _ => true
  | .finished => true
  | _ => false

/-- No call of `execute` goes on once the destructor has begun. -/
def QuietAfterDestructor (s : State) : Action → Prop
  | .execute _ => s.destructor = .notCalled
  | .audioStep => s.destructor = .notCalled
  | _ => True

instance (s : State) : (action : Action) → Decidable (QuietAfterDestructor s action)
  | .execute _ => inferInstanceAs (Decidable (s.destructor = .notCalled))
  | .audioStep => inferInstanceAs (Decidable (s.destructor = .notCalled))
  | .tapStep => inferInstanceAs (Decidable True)
  | .tapStepReturns _ => inferInstanceAs (Decidable True)
  | .destroy => inferInstanceAs (Decidable True)
  | .destructorStep => inferInstanceAs (Decidable True)

structure Ended (sampleRate : Nat) (s : State) : Prop where
  begun : s.endingTapThread = true → s.destructor ≠ .notCalled
  last : s.tap.last = true → s.endingTapThread = true
  loaded : ∀ ppin, s.tap = .loadPout true ppin → ppin = s.tapThreadInput.pin
  drained : s.tap.last = true → s.tap.drained = true →
    s.numUsed sampleRate < sampleRate / 100
  returned : s.destructor = .returned → s.tap = .finished

/-- As long as the destructor has not begun, no pass is the last. -/
theorem Ended.of_notCalled {s' : State} (ended : Ended sampleRate s)
    (waiting : s.destructor = .notCalled) (frame : AudioFrame s s') : Ended sampleRate s' := by
  obtain ⟨ending, destructor, tap, _⟩ := frame
  have running : s.tap.last ≠ true := fun last => ended.begun (ended.last last) waiting
  constructor
  case begun => exact fun begun => absurd waiting (ended.begun (ending ▸ begun))
  case last => exact fun last => absurd (tap ▸ last) running
  case loaded =>
    intro ppin loaded
    rw [tap] at loaded
    exact absurd (congrArg Tap.last loaded) running
  case drained => exact fun last _ => absurd (tap ▸ last) running
  case returned =>
    intro returned
    rw [destructor, waiting] at returned
    cases returned

/-- A step of the tap thread that stays outside the FIFO's words. -/
theorem Ended.setTap {s' : State} (ended : Ended sampleRate s)
    (same : s'.endingTapThread = s.endingTapThread ∧ s'.destructor = s.destructor)
    (running : s.tap ≠ .finished) (last : s'.tap.last = true → s.tap.last = true)
    (loaded : ∀ ppin, s'.tap = .loadPout true ppin → ppin = s'.tapThreadInput.pin)
    (drained : s'.tap.last = true → s'.tap.drained = true →
      s'.numUsed sampleRate < sampleRate / 100) : Ended sampleRate s' := by
  obtain ⟨ending, destructor⟩ := same
  refine ⟨?_, ?_, loaded, drained, ?_⟩
  · rw [ending, destructor]
    exact ended.begun
  · rw [ending]
    exact fun behind => ended.last (last behind)
  · rw [destructor]
    exact fun returned => absurd (ended.returned returned) running

theorem Ended.tapStep (ended : Ended sampleRate s) (stepped : tapStep sampleRate s = some after) :
    Ended sampleRate after := by
  have drained := ended.drained
  unfold TapStep.tapStep at stepped
  cases phase : s.tap with
  | loadEnding =>
      simp only [phase] at stepped
      cases stepped
      refine ⟨ended.begun, fun last => last, nofun, nofun, ?_⟩
      intro returned
      exact absurd (ended.returned returned) (by simp [phase])
  | loadPin last =>
      simp only [phase] at stepped
      cases stepped
      refine ended.setTap ⟨rfl, rfl⟩ (by simp [phase]) (fun behind => by rwa [phase]) ?_ nofun
      rintro ppin ⟨⟩
      rfl
  | loadPout last ppin =>
      simp only [phase] at stepped
      split at stepped
      · split at stepped
        · cases stepped
        · cases stepped
          exact ended.setTap ⟨rfl, rfl⟩ (by simp [phase]) (fun behind => by rwa [phase]) nofun
            nofun
      · rename_i short
        cases stepped
        refine ended.setTap ⟨rfl, rfl⟩ (by simp [phase]) (fun behind => by rwa [phase]) nofun ?_
        -- `ppin` is still the value of `pin_`, as nobody writes any more
        rintro ⟨⟩ _
        rw [ended.loaded ppin phase] at short
        exact Nat.lt_of_not_ge short
  | read last =>
      simp only [phase] at stepped
      split at stepped
      · cases stepped
      · split at stepped <;> cases stepped <;>
          exact ended.setTap ⟨rfl, rfl⟩ (by simp [phase]) (fun behind => by rwa [phase]) nofun
            nofun
  | execute last =>
      simp only [phase] at stepped
      cases stepped
      exact ended.setTap ⟨rfl, rfl⟩ (by simp [phase]) (fun behind => by rwa [phase]) nofun nofun
  | executing last => simp [phase] at stepped
  | exchangeDrops last =>
      simp only [phase] at stepped
      rw [phase] at drained
      cases stepped
      exact ended.setTap ⟨rfl, rfl⟩ (by simp [phase]) (fun behind => by rwa [phase]) nofun drained
  | exchangeSamples last drops =>
      simp only [phase] at stepped
      rw [phase] at drained
      obtain ⟨log, dropping, samplesDropped, added, lost, same, _⟩ :=
        reportDrops_frame { s with unreportedDroppedSamples := 0, tap := .exchangeSamples last drops }
          drops s.unreportedDroppedSamples
      rw [same] at stepped
      cases stepped
      cases last with
      | false => exact ended.setTap ⟨rfl, rfl⟩ (by simp [phase]) nofun nofun nofun
      | true =>
          exact ended.setTap ⟨rfl, rfl⟩ (by simp [phase]) (fun _ => by rw [phase]; rfl) nofun drained
  | wait =>
      simp only [phase] at stepped
      split at stepped
      · cases stepped
        exact ended.setTap ⟨rfl, rfl⟩ (by simp [phase]) nofun nofun nofun
      · cases stepped
  | finished => simp [phase] at stepped

/-! ## Whole runs -/

theorem Invariant.initial (hundred : 100 ≤ sampleRate) (buf memory : Nat → Int16) :
    Invariant sampleRate (State.initial sampleRate buf memory) ⟨[], [], 0, 0, 0, 0⟩ := by
  refine ⟨Steady.initial (fifoLength_pos hundred) buf, rfl, rfl, rfl, ?_, nofun, rfl⟩
  rw [State.initial, List.length_map, List.length_range]

theorem Invariant.next (hundred : 100 ≤ sampleRate) (inv : Invariant sampleRate s g)
    {action : Action} (stepped : next sampleRate s action = some after) :
    ∃ g', Invariant sampleRate after g' := by
  cases action with
  | execute inputSamples => exact ⟨g, inv.execute stepped⟩
  | audioStep => exact inv.audioStep hundred stepped
  | tapStep => exact inv.tapStep hundred stepped
  | tapStepReturns buffer =>
      simp only [TapStep.next, tapStepReturns] at stepped
      split at stepped
      · rename_i last executing
        split at stepped
        · rename_i sized
          cases stepped
          have reads := inv.reads
          rw [executing] at reads
          have moved : Invariant sampleRate { s with tap := .loadPin last } g :=
            inv.setTap reads (by rw [State.inHand, executing]) rfl
          exact ⟨g, moved.steady, moved.stream, moved.writes, moved.reads,
            { moved.blocks with buffer := sized.trans inv.blocks.buffer }⟩
        · cases stepped
      · cases stepped
  | destroy =>
      simp only [TapStep.next, destroy] at stepped
      split at stepped <;> cases stepped
      exact ⟨g, inv.steady, inv.stream, inv.writes,
        inv.reads.grow rfl (List.append_nil _).symm rfl, { inv.blocks with }⟩
  | destructorStep =>
      simp only [TapStep.next, destructorStep] at stepped
      split at stepped
      · cases stepped
      · cases stepped
        exact ⟨g, inv.steady, inv.stream, inv.writes,
          inv.reads.grow rfl (List.append_nil _).symm rfl, { inv.blocks with }⟩
      · split at stepped <;> cases stepped
        exact ⟨g, inv.steady, inv.stream, inv.writes,
          inv.reads.grow rfl (List.append_nil _).symm rfl, { inv.blocks with }⟩
      · cases stepped

theorem Ended.initial (buf memory : Nat → Int16) :
    Ended sampleRate (State.initial sampleRate buf memory) :=
  ⟨nofun, nofun, nofun, nofun, nofun⟩

theorem Ended.next (ended : Ended sampleRate s) {action : Action}
    (quiet : QuietAfterDestructor s action) (stepped : next sampleRate s action = some after) :
    Ended sampleRate after := by
  cases action with
  | execute inputSamples => exact ended.of_notCalled quiet (.execute stepped)
  | audioStep => exact ended.of_notCalled quiet (.audioStep stepped)
  | tapStep => exact ended.tapStep stepped
  | tapStepReturns buffer =>
      simp only [TapStep.next, tapStepReturns] at stepped
      split at stepped
      · rename_i last executing
        split at stepped
        · cases stepped
          exact ended.setTap ⟨rfl, rfl⟩ (by simp [executing]) (fun behind => by rwa [executing])
            (by rintro _ ⟨⟩) (by rintro _ ⟨⟩)
        · cases stepped
      · cases stepped
  | destroy =>
      simp only [TapStep.next, destroy] at stepped
      split at stepped <;> cases stepped
      exact ⟨by rintro _ ⟨⟩, fun _ => rfl, ended.loaded, ended.drained, by rintro ⟨⟩⟩
  | destructorStep =>
      simp only [TapStep.next, destructorStep] at stepped
      split at stepped
      · cases stepped
      · cases stepped
        exact ⟨by rintro _ ⟨⟩, ended.last, ended.loaded, ended.drained, by rintro ⟨⟩⟩
      · split at stepped
        · rename_i finished
          cases stepped
          exact ⟨by rintro _ ⟨⟩, ended.last, ended.loaded, ended.drained, fun _ => finished⟩
        · cases stepped
      · cases stepped

theorem inv_of_reachable {allowed : State → Action → Prop} {buf memory : Nat → Int16}
    (hundred : 100 ≤ sampleRate)
    (reachable : Reachable (next sampleRate) allowed (State.initial sampleRate buf memory) s) :
    ∃ g, Invariant sampleRate s g := by
  refine reachable.invariant (fun s => ∃ g, Invariant sampleRate s g)
    ⟨_, Invariant.initial hundred buf memory⟩ ?_
  rintro before action after ⟨g, inv⟩ _ stepped
  exact inv.next hundred stepped

/-! ## Delivery -/

theorem length_pieces (pieces : List (List Int16 × Bool)) :
    (pieces.map (·.1)).flatten.length =
      ((pieces.filter (·.2)).map (·.1)).flatten.length +
        ((pieces.filter (! ·.2)).map (·.1)).flatten.length := by
  induction pieces with
  | nil => rfl
  | cons piece rest ih =>
      obtain ⟨samples, stored⟩ := piece
      cases stored with
      | false =>
          simp only [List.map_cons, List.flatten_cons, List.length_append, ih,
            List.filter_cons_of_neg, Bool.false_eq_true, not_false_iff, Bool.not_false,
            List.filter_cons_of_pos]
          omega
      | true =>
          simp only [List.map_cons, List.flatten_cons, List.length_append, ih,
            List.filter_cons_of_pos, Bool.not_true, Bool.false_eq_true, not_false_iff,
            List.filter_cons_of_neg]
          omega

theorem Invariant.numUsed (hundred : 100 ≤ sampleRate) (inv : Invariant sampleRate s g) :
    s.numUsed sampleRate = g.stream.length - g.popped := by
  have used := inv.steady.computeUsed (fifoLength_pos hundred) inv.steady.popped_le
    (Nat.le_refl _)
  rw [← inv.steady.pin] at used
  rw [State.numUsed, used, Option.getD_some]

theorem Invariant.length_front (inv : Invariant sampleRate s g) :
    s.tapped.flatten.length + s.inHand.length = g.popped := by
  rw [← List.length_append, inv.blocks.front, List.length_take_of_le inv.steady.popped_le]

/-- Where the samples given to `execute` are. -/
structure Delivery (sampleRate : Nat) (s : State) : Prop where
  /-- A call that is over has returned its input; at most one is in progress. -/
  returned : s.calls = s.returned ++ (s.audio.call.map (·.inputSamples)).toList
  /-- The pieces are the samples in order. -/
  offered : s.calls.flatten = (s.pieces.map (·.1)).flatten ++ remaining s.audio.call
  tapped : s.tapped <+: Lib.blocks (sampleRate / 100) s.accepted.flatten
  accounting : s.calls.flatten.length =
    s.tapped.flatten.length + (s.numUsed sampleRate + s.inHand.length) +
      s.rejected.flatten.length + (remaining s.audio.call).length

theorem Invariant.delivery (hundred : 100 ≤ sampleRate) (inv : Invariant sampleRate s g)
    (audited : Audited sampleRate s) : Delivery sampleRate s := by
  refine ⟨audited.records.returned, audited.records.offered, ?_, ?_⟩
  · rw [inv.stream, ← List.take_append_drop g.popped g.stream, ← inv.blocks.front,
      List.append_assoc, blocks_flatten_append (by omega) inv.blocks.whole]
    exact List.prefix_append _ _
  · have front := inv.length_front
    have order := inv.steady.popped_le
    have stream := congrArg List.length inv.stream
    rw [State.accepted] at stream
    rw [audited.records.offered, List.length_append, length_pieces, stream, inv.numUsed hundred,
      State.rejected]
    omega

/-- Every sample given to `execute` is returned, and is delivered in order, on its way or in a
rejected piece; a destructor that is not disturbed leaves less than one block behind. -/
theorem tap_delivers (sampleRate : Nat) (positive : 0 < sampleRate) (multiple : 100 ∣ sampleRate)
    (buf memory : Nat → Int16) :
    (∀ s, Reachable (next sampleRate) (fun _ _ => True) (State.initial sampleRate buf memory) s →
      Delivery sampleRate s) ∧
    ∀ s, Reachable (next sampleRate) QuietAfterDestructor (State.initial sampleRate buf memory) s →
      s.destructor = .returned →
      s.accepted.flatten.length < s.tapped.flatten.length + sampleRate / 100 := by
  have hundred : 100 ≤ sampleRate := Nat.le_of_dvd positive multiple
  constructor
  · intro s reachable
    obtain ⟨g, inv⟩ := inv_of_reachable hundred reachable
    exact inv.delivery hundred (audited_of_reachable reachable)
  · intro s reachable returned
    obtain ⟨g, inv⟩ := inv_of_reachable hundred reachable
    have ended : Ended sampleRate s :=
      reachable.invariant _ (Ended.initial buf memory) fun _ _ _ ended quiet =>
        ended.next quiet
    have finished := ended.returned returned
    have short := ended.drained (by rw [finished]; rfl) (by rw [finished]; rfl)
    have front := inv.length_front
    rw [State.inHand, finished, List.length_nil, Nat.add_zero] at front
    rw [inv.numUsed hundred] at short
    rw [inv.stream]
    omega

/-- Three samples at a block size of two: one block is delivered at the end, one sample stays. -/
theorem tap_delivers_the_last_block :
    ∃ s, Reachable (next 200) QuietAfterDestructor
        (State.initial 200 (fun _ => 0) (fun _ => 0)) s ∧
      (s.returned = [[1, 2, 3]] ∧ s.tapped = [[1, 2]] ∧ s.accepted = [[1, 2], [3]]) ∧
      Delivery 200 s ∧ s.accepted.flatten.length < s.tapped.flatten.length + 200 / 100 := by
  have executed : (runActions (next 200) QuietAfterDestructor
      (State.initial 200 (fun _ => 0) (fun _ => 0))
      (List.flatten [[.execute [1, 2, 3]], List.replicate 12 .audioStep, [.destroy, .destructorStep],
        List.replicate 10 .tapStep, [.tapStepReturns [9, 9]], List.replicate 4 .tapStep,
        [.destructorStep]])).map
        (fun s => (s.destructor, s.returned, s.tapped, s.accepted)) =
      some (.returned, [[1, 2, 3]], [[1, 2]], [[1, 2], [3]]) := by
    decide +kernel
  obtain ⟨s, executed, observed⟩ := Option.map_eq_some_iff.mp executed
  simp only [Prod.mk.injEq] at observed
  obtain ⟨returned, records⟩ := observed
  have reachable := Reachable.of_runActions _ .start executed
  have delivers := tap_delivers 200 (by decide) (by decide) (fun _ => 0) (fun _ => 0)
  exact ⟨s, reachable, records, delivers.1 s (reachable.mono fun _ _ _ => trivial),
    delivers.2 s reachable returned⟩

end FreeDV.Pipeline.TapStep
