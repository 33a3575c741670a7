import FreeDV.Util.GenericFifoProperties

/-!
# The FIFO without resets

As long as nobody resets the FIFO, both words belong to one generation. A
producer and a consumer then see one stream: `write` puts its elements behind
it or leaves it as it is, and a `read` for which there is enough cannot fail,
whatever the producer does meanwhile.
-/

set_option autoImplicit false

namespace FreeDV.Util.GenericFifo

variable {α : Type} {n : Nat} {s after : State α} {g : Ghost α}

structure Steady (n : Nat) (s : State α) (g : Ghost α) : Prop where
  invariant : Invariant n s g
  resets : s.resets = 0
  unlocked : s.resetting = false

theorem Steady.initial (positive : 0 < n) (buf : Nat → α) :
    Steady n (State.initial buf) ⟨[], [], 0, 0, 0, 0⟩ :=
  ⟨Invariant.initial positive buf, rfl, rfl⟩

theorem Steady.poutGen (steady : Steady n s g) : g.poutGen = 0 := by
  have bound := steady.invariant.shared.poutGen_le
  rw [steady.resets] at bound
  exact Nat.le_zero.mp bound

theorem Steady.pin (steady : Steady n s g) : s.pin = ⟨tag 0, g.stream.length % n⟩ := by
  have current : s.resets = g.poutGen := steady.resets.trans steady.poutGen.symm
  have generation := steady.invariant.shared.pinGeneration
  have index := steady.invariant.shared.pinIndex
  rw [steady.resets] at generation
  rw [if_pos current] at index
  rw [← generation, ← index]

theorem Steady.pout (steady : Steady n s g) : s.pout = ⟨tag 0, g.popped % n⟩ := by
  have generation := steady.invariant.shared.poutGeneration
  rw [steady.poutGen] at generation
  rw [← generation, ← steady.invariant.shared.poutIndex]

theorem Steady.popped_le (steady : Steady n s g) : g.popped ≤ g.stream.length :=
  steady.invariant.shared.popped_le.trans steady.invariant.shared.cachedPushed_le

/-- `numUsed` counts from a `pin_` that may have been loaded some writes ago. -/
theorem Steady.computeUsed (positive : 0 < n) (steady : Steady n s g) {pushed : Nat}
    (order : g.popped ≤ pushed) (old : pushed ≤ g.stream.length) :
    computeUsed n ⟨tag 0, pushed % n⟩ s.pout = some (pushed - g.popped) := by
  rw [steady.pout]
  exact computeUsed_eq positive order (Nat.lt_of_le_of_lt old steady.invariant.shared.near)

/-! ## The producer -/

theorem Steady.write (steady : Steady n s g) (data : List α) :
    Steady n { s with writer := .loadResetting data } g :=
  ⟨steady.invariant.setWriter trivial, steady.resets, steady.unlocked⟩

/-- The accesses of `write` belong to the producer's part of the state. -/
theorem writerStep_frame (stepped : writerStep n s = some after) :
    after.reader = s.reader ∧ after.pout = s.pout ∧ after.resets = s.resets ∧
      after.resetting = s.resetting ∧
      (writeReturn n s = none → after.writer ≠ .idle ∧ after.writer.data = s.writer.data) ∧
      (writeReturn n s ≠ none → after.writer = .idle) := by
  unfold writerStep at stepped
  unfold writeReturn
  cases phase : s.writer with
  | idle => simp [phase] at stepped
  | loadResetting data =>
      simp only [phase] at stepped ⊢
      split at stepped <;> cases stepped <;> simp_all [Writer.data]
  | loadPin data =>
      simp only [phase] at stepped ⊢
      split at stepped <;> cases stepped <;> simp [Writer.data]
  | loadPout data ppin =>
      simp only [phase] at stepped ⊢
      split at stepped <;> cases stepped <;> simp_all [Writer.data]
  | copy data startPos copied =>
      simp only [phase] at stepped ⊢
      split at stepped
      · rename_i element found
        cases stepped
        simp [Writer.data]
      · rename_i complete
        split at stepped <;> cases stepped <;> simp_all

theorem Steady.writerStep (positive : 0 < n) (steady : Steady n s g)
    (stepped : writerStep n s = some after) :
    ∃ g', Steady n after g' ∧ g'.popped = g.popped ∧
      g'.stream = g.stream ++ if writeReturn n s = some 0 then s.writer.data else [] := by
  obtain ⟨_, _, resets, resetting, _⟩ := writerStep_frame stepped
  obtain ⟨g', invariant, popped, stream⟩ := steady.invariant.writerStep positive stepped
  exact ⟨g', ⟨invariant, resets.trans steady.resets, resetting.trans steady.unlocked⟩, popped,
    stream⟩

theorem Steady.hasRoom (positive : 0 < n) (steady : Steady n s g) {len : Nat}
    (room : g.stream.length + len < g.popped + n) : hasRoom n s.pin s.pout len = true := by
  have used := steady.computeUsed positive steady.popped_le (Nat.le_refl _)
  rw [← steady.pin] at used
  have order := steady.popped_le
  simp only [GenericFifo.hasRoom, used, decide_not, Bool.not_eq_true', decide_eq_false_iff_not]
  omega

/-- The position a write in progress started from is still the one in `pin_`. -/
theorem LoadedPin.current (steady : Steady n s g) {ppin : Pos} {gen : Nat}
    (loaded : LoadedPin n s g ppin gen) : ppin = s.pin := by
  have bound := loaded.1
  rw [steady.resets] at bound
  exact loaded.2.2.2 ((Nat.le_zero.mp bound).trans steady.resets.symm)

/-- A write for which there is room returns 0. -/
theorem Steady.writeReturn (positive : 0 < n) (steady : Steady n s g)
    (room : g.stream.length + s.writer.data.length < g.popped + n) {returned : Int}
    (last : writeReturn n s = some returned) : returned = 0 := by
  have ok := steady.invariant.writer
  unfold GenericFifo.writeReturn at last
  cases phase : s.writer with
  | idle => simp [phase] at last
  | loadResetting _ => simp [phase, steady.unlocked] at last
  | loadPin _ => simp [phase] at last
  | loadPout data ppin =>
      simp only [phase, Writer.data] at room last ok
      obtain ⟨gen, loaded⟩ := ok
      rw [loaded.current steady, if_pos (steady.hasRoom positive room)] at last
      cases last
  | copy data startPos copied =>
      simp only [phase] at last ok
      obtain ⟨_, gen, _, loaded, _⟩ := ok
      split at last
      · cases last
      · rw [if_pos (loaded.current steady).symm, Option.some.injEq] at last
        exact last.symm

/-! ## The consumer -/

theorem Steady.read (steady : Steady n s g) (len : Nat) :
    Steady n { s with reader := .loadResetting len } g :=
  ⟨steady.invariant.setReader trivial, steady.resets, steady.unlocked⟩

/-- The accesses of `read` belong to the consumer's part of the state. -/
theorem readerStep_frame (stepped : readerStep n s = some after) :
    after.writer = s.writer ∧ after.pin = s.pin ∧ after.resets = s.resets ∧
      after.resetting = s.resetting ∧
      (readReturn n s = none → after.reader.len = s.reader.len) ∧
      (readReturn n s ≠ none → after.reader = .idle) := by
  unfold readerStep at stepped
  unfold readReturn
  cases phase : s.reader with
  | idle => simp [phase] at stepped
  | loadResetting len =>
      simp only [phase] at stepped ⊢
      split at stepped <;> cases stepped <;> simp_all [Reader.len]
  | loadPout len =>
      simp only [phase] at stepped ⊢
      split at stepped <;> cases stepped <;> simp [Reader.len]
  | loadPin len ppout =>
      simp only [phase] at stepped ⊢
      split at stepped <;> cases stepped <;> simp_all [Reader.len]
  | copy len startPos result =>
      simp only [phase] at stepped ⊢
      split at stepped
      · rename_i missing
        cases stepped
        simp [missing, Reader.len]
      · rename_i complete
        split at stepped <;> cases stepped <;> simp_all

theorem Steady.hasElements (positive : 0 < n) (steady : Steady n s g) {len : Nat}
    (enough : g.popped + len ≤ g.stream.length) : hasElements n s.pin s.pout len = true := by
  have used := steady.computeUsed positive steady.popped_le (Nat.le_refl _)
  rw [← steady.pin] at used
  simp only [GenericFifo.hasElements, used, decide_not, Bool.not_eq_true',
    decide_eq_false_iff_not]
  omega

/-- The position a read in progress started from is still the one in `pout_`. -/
theorem LoadedPout.current (steady : Steady n s g) {ppout : Pos} {gen : Nat}
    (loaded : LoadedPout s g ppout gen) : gen = g.poutGen ∧ s.pout = ppout := by
  have first : gen = g.poutGen := by
    have bound := loaded.1
    rw [steady.poutGen] at bound ⊢
    exact Nat.le_zero.mp bound
  exact ⟨first, (loaded.2.2 first).symm⟩

/-- A read for which there is enough returns 0, with the front of the stream. -/
theorem Steady.readReturn (positive : 0 < n) (steady : Steady n s g) {len : Nat}
    (reading : s.reader.len = some len) (enough : g.popped + len ≤ g.stream.length)
    {returned : Int × List α} (last : readReturn n s = some returned) :
    returned = (0, (g.stream.drop g.popped).take len) := by
  have ok := steady.invariant.reader
  unfold GenericFifo.readReturn at last
  cases phase : s.reader with
  | idle => simp [phase] at last
  | loadResetting _ => simp [phase, steady.unlocked] at last
  | loadPout _ => simp [phase] at last
  | loadPin wanted ppout =>
      simp only [phase, Reader.len, Option.some.injEq] at reading last ok
      obtain ⟨gen, loaded⟩ := ok
      obtain ⟨_, same⟩ := loaded.current steady
      rw [← same, reading, if_pos (steady.hasElements positive enough)] at last
      cases last
  | copy wanted startPos result =>
      simp only [phase, Reader.len, Option.some.injEq] at reading last ok
      obtain ⟨short, gen, loaded, front⟩ := ok
      obtain ⟨current, same⟩ := loaded.current steady
      obtain ⟨_, copied⟩ := front current
      split at last
      · cases last
      · rename_i complete
        have length : result.length = len := by omega
        rw [Option.some.injEq] at last
        rw [← last, ← length, ← copied]

theorem Steady.readerStep_amount (positive : 0 < n) (steady : Steady n s g)
    (stepped : readerStep n s = some after) :
    ∃ g', Steady n after g' ∧ g'.stream = g.stream ∧
      g'.popped = g.popped + amountRead (GenericFifo.readReturn n s) := by
  obtain ⟨_, _, resets, resetting, _⟩ := readerStep_frame stepped
  obtain ⟨g', invariant, stream, popped⟩ := steady.invariant.readerStep positive stepped
  exact ⟨g', ⟨invariant, resets.trans steady.resets, resetting.trans steady.unlocked⟩, stream,
    popped⟩

theorem Steady.readerStep (positive : 0 < n) (steady : Steady n s g) {len : Nat}
    (reading : s.reader.len = some len) (enough : g.popped + len ≤ g.stream.length)
    (stepped : readerStep n s = some after) :
    ∃ g', Steady n after g' ∧ g'.stream = g.stream ∧
      g'.popped = if GenericFifo.readReturn n s = none then g.popped else g.popped + len := by
  obtain ⟨g', kept, stream, popped⟩ := steady.readerStep_amount positive stepped
  refine ⟨g', kept, stream, ?_⟩
  rw [popped]
  cases last : GenericFifo.readReturn n s with
  | none => simp [amountRead]
  | some returned =>
      have front := steady.readReturn positive reading enough last
      have length : ((g.stream.drop g.popped).take len).length = len := by
        rw [List.length_take_of_le]
        rw [List.length_drop]
        omega
      rw [front]
      simp [amountRead, length]

end FreeDV.Util.GenericFifo
