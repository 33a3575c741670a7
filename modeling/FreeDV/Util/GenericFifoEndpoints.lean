import FreeDV.Util.GenericFifoSteady

/-!
# Asking before a transfer

A producer asks for the free space before it writes, and a consumer for the used
space before it reads. Both answers come from two loads, between which and after
which the other side goes on. Nobody resets the FIFO. `free` and `used` are the
answers since the last transfer; they and the records are not in the code.
-/

set_option autoImplicit false

namespace FreeDV.Util.GenericFifo

open FreeDV.Lib

variable {α : Type}

/-! ## Endpoints -/

/-- A call of `numUsed`, or of `numFree` which calls it. -/
inductive Query where
  | idle
  | loadPin
  | loadPout (ppin : Pos)

/-- A transfer that has returned, and the answers before it. -/
structure Transfer where
  answers : List Int
  len : Nat
  returned : Int
deriving DecidableEq

structure Endpoints (α : Type) where
  fifo : State α
  producer : Query
  free : List Int
  consumer : Query
  used : List Int
  writes : List Transfer
  reads : List Transfer

def Endpoints.initial (buf : Nat → α) : Endpoints α :=
  ⟨State.initial buf, .idle, [], .idle, [], [], []⟩

/-- `numUsed` from the loaded words. -/
def usedBetween (nelem : Nat) (ppin ppout : Pos) : Int :=
  match computeUsed nelem ppin ppout with
  | none => 0
  | some used => used

inductive EndpointAction (α : Type) where
  | write (data : List α)
  | writerStep
  | numFree
  | numFreeStep
  | read (len : Nat)
  | readerStep
  | numUsed
  | numUsedStep

/-- An endpoint makes one call at a time. -/
def endpointNext (nelem : Nat) (e : Endpoints α) : EndpointAction α → Option (Endpoints α)
  | .write data =>
      match e.producer, e.fifo.writer with
      | .idle, .idle => some { e with fifo := { e.fifo with writer := .loadResetting data } }
      | _, _ => none
  | .writerStep =>
      match writerStep nelem e.fifo, writeReturn nelem e.fifo with
      | none, _ => none
      | some fifo, none => some { e with fifo }
      | some fifo, some returned =>
          some { e with
            fifo
            free := []
            writes := e.writes ++ [⟨e.free, e.fifo.writer.data.length, returned⟩] }
  | .numFree =>
      match e.producer, e.fifo.writer with
      | .idle, .idle => some { e with producer := .loadPin }
      | _, _ => none
  | .numFreeStep =>
      match e.producer with
      | .idle => none
      | .loadPin => some { e with producer := .loadPout e.fifo.pin }
      | .loadPout ppin =>
          let numFree := nelem - usedBetween nelem ppin e.fifo.pout - 1
          some { e with producer := .idle, free := e.free ++ [numFree] }
  | .read len =>
      match e.consumer, e.fifo.reader with
      | .idle, .idle => some { e with fifo := { e.fifo with reader := .loadResetting len } }
      | _, _ => none
  | .readerStep =>
      match readerStep nelem e.fifo, readReturn nelem e.fifo with
      | none, _ => none
      | some fifo, none => some { e with fifo }
      | some fifo, some returned =>
          some { e with
            fifo
            used := []
            reads := e.reads ++ [⟨e.used, e.fifo.reader.len.getD 0, returned.1⟩] }
  | .numUsed =>
      match e.consumer, e.fifo.reader with
      | .idle, .idle => some { e with consumer := .loadPin }
      | _, _ => none
  | .numUsedStep =>
      match e.consumer with
      | .idle => none
      | .loadPin => some { e with consumer := .loadPout e.fifo.pin }
      | .loadPout ppin =>
          some { e with
            consumer := .idle
            used := e.used ++ [usedBetween nelem ppin e.fifo.pout] }

/-! ## Answers stay true -/

variable {n : Nat} {e after : Endpoints α} {g : Ghost α}

/-- The answers were within the capacity, and a transfer within an answer returned 0. -/
def Transfer.Kept (n : Nat) (transfer : Transfer) : Prop :=
  ∀ answer ∈ transfer.answers, 0 ≤ answer ∧ answer ≤ n - 1 ∧
    (transfer.len ≤ answer → transfer.returned = 0)

/-- There is room for each answer of `numFree`, and there are enough elements for each of `numUsed`.
The producer alone moves `pin_`; the consumer may hold an older value of it. -/
structure Promised (n : Nat) (e : Endpoints α) (g : Ghost α) : Prop where
  steady : Steady n e.fifo g
  free : ∀ answer ∈ e.free, 0 ≤ answer ∧ g.stream.length + answer < g.popped + n
  used : ∀ answer ∈ e.used, 0 ≤ answer ∧ g.popped + answer ≤ g.stream.length
  producerIdle : e.producer = .idle ∨ e.fifo.writer = .idle
  consumerIdle : e.consumer = .idle ∨ e.fifo.reader = .idle
  producerPin : ∀ ppin, e.producer = .loadPout ppin → ppin = e.fifo.pin
  consumerPin : ∀ ppin, e.consumer = .loadPout ppin → ∃ pushed, ppin = ⟨tag 0, pushed % n⟩ ∧
    g.popped ≤ pushed ∧ pushed ≤ g.stream.length
  writes : ∀ transfer ∈ e.writes, transfer.Kept n
  reads : ∀ transfer ∈ e.reads, transfer.Kept n

theorem Promised.initial (positive : 0 < n) (buf : Nat → α) :
    Promised n (.initial buf) ⟨[], [], 0, 0, 0, 0⟩ where
  steady := Steady.initial positive buf
  free _ member := by cases member
  used _ member := by cases member
  producerIdle := .inl rfl
  consumerIdle := .inl rfl
  producerPin _ same := by cases same
  consumerPin _ same := by cases same
  writes _ member := by cases member
  reads _ member := by cases member

theorem Promised.used_le (h : Promised n e g) : g.stream.length < g.popped + n :=
  h.steady.invariant.shared.near

/-! ### The producer -/

theorem Promised.producer_idle (h : Promised n e g) {fifo : State α}
    (stepped : writerStep n e.fifo = some fifo) : e.producer = .idle := by
  rcases h.producerIdle with idle | idle
  · exact idle
  · rw [writerStep, idle] at stepped
    cases stepped

theorem Promised.transfer_kept (positive : 0 < n) (h : Promised n e g) {returned : Int}
    (last : writeReturn n e.fifo = some returned) :
    Transfer.Kept n ⟨e.free, e.fifo.writer.data.length, returned⟩ := by
  intro answer member
  obtain ⟨positiveAnswer, room⟩ := h.free answer member
  have order := h.steady.popped_le
  refine ⟨positiveAnswer, by omega, fun within => ?_⟩
  have within : (e.fifo.writer.data.length : Int) ≤ answer := within
  exact h.steady.writeReturn positive (by omega) last

theorem Promised.writerStep (positive : 0 < n) (h : Promised n e g)
    (taken : endpointNext n e .writerStep = some after) : ∃ g', Promised n after g' := by
  simp only [endpointNext] at taken
  cases stepped : GenericFifo.writerStep n e.fifo with
  | none => simp [stepped] at taken
  | some fifo =>
      have idle := h.producer_idle stepped
      obtain ⟨reader, -⟩ := writerStep_frame stepped
      obtain ⟨g', steady, popped, stream⟩ := h.steady.writerStep positive stepped
      have grown : g.stream.length ≤ g'.stream.length := by
        rw [stream, List.length_append]
        exact Nat.le_add_right _ _
      have consumerIdle : e.consumer = .idle ∨ fifo.reader = .idle := reader ▸ h.consumerIdle
      have producerPin : ∀ ppin, e.producer = .loadPout ppin → ppin = fifo.pin := by
        intro ppin asking
        rw [idle] at asking
        cases asking
      have used : ∀ answer ∈ e.used, 0 ≤ answer ∧ g'.popped + answer ≤ g'.stream.length := by
        intro answer member
        obtain ⟨positiveAnswer, enough⟩ := h.used answer member
        exact ⟨positiveAnswer, by omega⟩
      have consumerPin : ∀ ppin, e.consumer = .loadPout ppin → ∃ pushed,
          ppin = ⟨tag 0, pushed % n⟩ ∧ g'.popped ≤ pushed ∧ pushed ≤ g'.stream.length := by
        intro ppin asking
        obtain ⟨pushed, same, order, old⟩ := h.consumerPin ppin asking
        exact ⟨pushed, same, popped ▸ order, old.trans grown⟩
      cases last : writeReturn n e.fifo with
      | none =>
          simp only [stepped, last, Option.some.injEq] at taken
          subst taken
          have unchanged : g'.stream = g.stream := by simpa [last] using stream
          refine ⟨g', { h with
            steady, used, consumerIdle, producerPin, consumerPin
            producerIdle := .inl idle
            free := ?_ }⟩
          rw [unchanged, popped]
          exact h.free
      | some returned =>
          simp only [stepped, last, Option.some.injEq] at taken
          subst taken
          refine ⟨g', { h with
            steady, used, consumerIdle, producerPin, consumerPin
            producerIdle := .inl idle
            free := fun _ member => by cases member
            writes := ?_ }⟩
          intro transfer member
          rcases List.mem_append.mp member with earlier | now
          · exact h.writes transfer earlier
          · rw [List.mem_singleton.mp now]
            exact h.transfer_kept positive last

theorem Promised.numFreeStep (positive : 0 < n) (h : Promised n e g)
    (taken : endpointNext n e .numFreeStep = some after) : Promised n after g := by
  simp only [endpointNext] at taken
  cases phase : e.producer with
  | idle => simp [phase] at taken
  | loadPin =>
      simp only [phase, Option.some.injEq] at taken
      subst taken
      have quiet : e.fifo.writer = .idle := by simpa [phase] using h.producerIdle
      exact { h with
        producerIdle := .inr quiet
        producerPin := fun ppin same => by cases same; rfl }
  | loadPout ppin =>
      simp only [phase, Option.some.injEq] at taken
      subst taken
      have order := h.steady.popped_le
      have near := h.used_le
      have used : usedBetween n ppin e.fifo.pout = (g.stream.length - g.popped : Nat) := by
        have loads := h.steady.computeUsed positive order (Nat.le_refl _)
        rw [← h.steady.pin, ← h.producerPin ppin phase] at loads
        rw [usedBetween, loads]
      exact { h with
        producerIdle := .inl rfl
        producerPin := fun _ same => by cases same
        free := by
          intro answer member
          rcases List.mem_append.mp member with earlier | now
          · exact h.free answer earlier
          · rw [List.mem_singleton.mp now, used]
            omega }

/-! ### The consumer -/

theorem Promised.consumer_idle (h : Promised n e g) {fifo : State α}
    (stepped : readerStep n e.fifo = some fifo) :
    e.consumer = .idle ∧ ∃ len, e.fifo.reader.len = some len := by
  cases phase : e.fifo.reader with
  | idle =>
      rw [GenericFifo.readerStep, phase] at stepped
      cases stepped
  | _ => exact ⟨by simpa [phase] using h.consumerIdle, _, rfl⟩

theorem Promised.delivery_kept (positive : 0 < n) (h : Promised n e g) {len : Nat}
    (reading : e.fifo.reader.len = some len) {returned : Int × List α}
    (last : readReturn n e.fifo = some returned) :
    Transfer.Kept n ⟨e.used, e.fifo.reader.len.getD 0, returned.1⟩ := by
  intro answer member
  obtain ⟨positiveAnswer, enough⟩ := h.used answer member
  have near := h.used_le
  refine ⟨positiveAnswer, by omega, fun within => ?_⟩
  have within : ((e.fifo.reader.len.getD 0 : Nat) : Int) ≤ answer := within
  rw [reading, Option.getD_some] at within
  rw [h.steady.readReturn positive reading (by omega) last]

theorem Promised.readerStep (positive : 0 < n) (h : Promised n e g)
    (taken : endpointNext n e .readerStep = some after) : ∃ g', Promised n after g' := by
  simp only [endpointNext] at taken
  cases stepped : GenericFifo.readerStep n e.fifo with
  | none => simp [stepped] at taken
  | some fifo =>
      obtain ⟨idle, len, reading⟩ := h.consumer_idle stepped
      obtain ⟨writer, pin, -⟩ := readerStep_frame stepped
      obtain ⟨g', steady, stream, popped⟩ := h.steady.readerStep_amount positive stepped
      have producerIdle : e.producer = .idle ∨ fifo.writer = .idle := writer ▸ h.producerIdle
      have producerPin : ∀ ppin, e.producer = .loadPout ppin → ppin = fifo.pin :=
        pin ▸ h.producerPin
      have consumerPin : ∀ ppin, e.consumer = .loadPout ppin → ∃ pushed,
          ppin = ⟨tag 0, pushed % n⟩ ∧ g'.popped ≤ pushed ∧ pushed ≤ g'.stream.length := by
        intro ppin asking
        rw [idle] at asking
        cases asking
      have free : ∀ answer ∈ e.free,
          0 ≤ answer ∧ g'.stream.length + answer < g'.popped + n := by
        intro answer member
        obtain ⟨positiveAnswer, room⟩ := h.free answer member
        rw [stream]
        exact ⟨positiveAnswer, by omega⟩
      cases last : readReturn n e.fifo with
      | none =>
          simp only [stepped, last, Option.some.injEq] at taken
          subst taken
          have unchanged : g'.popped = g.popped := by simpa [last, amountRead] using popped
          refine ⟨g', { h with
            steady, free, producerIdle, producerPin, consumerPin
            consumerIdle := .inl idle
            used := ?_ }⟩
          rw [unchanged, stream]
          exact h.used
      | some returned =>
          simp only [stepped, last, Option.some.injEq] at taken
          subst taken
          refine ⟨g', { h with
            steady, free, producerIdle, producerPin, consumerPin
            consumerIdle := .inl idle
            used := fun _ member => by cases member
            reads := ?_ }⟩
          intro transfer member
          rcases List.mem_append.mp member with earlier | now
          · exact h.reads transfer earlier
          · rw [List.mem_singleton.mp now]
            exact h.delivery_kept positive reading last

theorem Promised.numUsedStep (positive : 0 < n) (h : Promised n e g)
    (taken : endpointNext n e .numUsedStep = some after) : Promised n after g := by
  simp only [endpointNext] at taken
  cases phase : e.consumer with
  | idle => simp [phase] at taken
  | loadPin =>
      simp only [phase, Option.some.injEq] at taken
      subst taken
      have quiet : e.fifo.reader = .idle := by simpa [phase] using h.consumerIdle
      exact { h with
        consumerIdle := .inr quiet
        consumerPin := fun ppin same => by
          cases same
          exact ⟨_, h.steady.pin, h.steady.popped_le, Nat.le_refl _⟩ }
  | loadPout ppin =>
      simp only [phase, Option.some.injEq] at taken
      subst taken
      obtain ⟨pushed, same, order, old⟩ := h.consumerPin ppin phase
      have used : usedBetween n ppin e.fifo.pout = (pushed - g.popped : Nat) := by
        rw [usedBetween, same, h.steady.computeUsed positive order old]
      exact { h with
        consumerIdle := .inl rfl
        consumerPin := fun _ same => by cases same
        used := by
          intro answer member
          rcases List.mem_append.mp member with earlier | now
          · exact h.used answer earlier
          · rw [List.mem_singleton.mp now, used]
            omega }

/-! ## Runs -/

theorem Promised.next (positive : 0 < n) (h : Promised n e g) {action : EndpointAction α}
    (taken : endpointNext n e action = some after) : ∃ g', Promised n after g' := by
  cases action with
  | write data =>
      simp only [endpointNext] at taken
      split at taken
      · rename_i idle _
        cases taken
        exact ⟨g, { h with steady := h.steady.write data, producerIdle := .inl idle }⟩
      · cases taken
  | writerStep => exact h.writerStep positive taken
  | numFree =>
      simp only [endpointNext] at taken
      split at taken
      · rename_i quiet
        cases taken
        exact ⟨g, { h with
          producerIdle := .inr quiet
          producerPin := fun _ same => by cases same }⟩
      · cases taken
  | numFreeStep => exact ⟨g, h.numFreeStep positive taken⟩
  | read len =>
      simp only [endpointNext] at taken
      split at taken
      · rename_i idle _
        cases taken
        exact ⟨g, { h with steady := h.steady.read len, consumerIdle := .inl idle }⟩
      · cases taken
  | readerStep => exact h.readerStep positive taken
  | numUsed =>
      simp only [endpointNext] at taken
      split at taken
      · rename_i quiet
        cases taken
        exact ⟨g, { h with
          consumerIdle := .inr quiet
          consumerPin := fun _ same => by cases same }⟩
      · cases taken
  | numUsedStep => exact ⟨g, h.numUsedStep positive taken⟩

/-- The accesses that are left, at most. -/
def Writer.accesses : Writer α → Nat
  | .idle => 0
  | .loadResetting data => data.length + 4
  | .loadPin data => data.length + 3
  | .loadPout data _ => data.length + 2
  | .copy data _ copied => data.length - copied + 1

def Reader.accesses : Reader α → Nat
  | .idle => 0
  | .loadResetting len => len + 4
  | .loadPout len => len + 3
  | .loadPin len _ => len + 2
  | .copy len _ result => len - result.length + 1

/-- A write is never blocked, and has an end. -/
theorem writerStep_progress (s : State α) (busy : s.writer ≠ .idle) :
    ∃ after, writerStep n s = some after ∧ after.writer.accesses < s.writer.accesses := by
  unfold writerStep
  cases phase : s.writer with
  | idle => exact absurd phase busy
  | loadResetting data =>
      dsimp only
      split <;> exact ⟨_, rfl, by simp [Writer.accesses]⟩
  | loadPin data =>
      dsimp only
      split <;> exact ⟨_, rfl, by simp [Writer.accesses]⟩
  | loadPout data ppin =>
      dsimp only
      split <;> exact ⟨_, rfl, by simp [Writer.accesses]⟩
  | copy data startPos copied =>
      dsimp only
      split
      · rename_i element found
        have inside := (List.getElem?_eq_some_iff.mp found).1
        exact ⟨_, rfl, by simp only [Writer.accesses]; omega⟩
      · split <;> exact ⟨_, rfl, by simp [Writer.accesses]⟩

theorem readerStep_progress (s : State α) (busy : s.reader ≠ .idle) :
    ∃ after, readerStep n s = some after ∧ after.reader.accesses < s.reader.accesses := by
  unfold readerStep
  cases phase : s.reader with
  | idle => exact absurd phase busy
  | loadResetting len =>
      dsimp only
      split <;> exact ⟨_, rfl, by simp [Reader.accesses]⟩
  | loadPout len =>
      dsimp only
      split <;> exact ⟨_, rfl, by simp [Reader.accesses]⟩
  | loadPin len ppout =>
      dsimp only
      split <;> exact ⟨_, rfl, by simp [Reader.accesses]⟩
  | copy len startPos result =>
      dsimp only
      split
      · exact ⟨_, rfl, by simp only [Reader.accesses, List.length_append]; simp; omega⟩
      · split <;> exact ⟨_, rfl, by simp [Reader.accesses]⟩

/-- What `numFree` said to the producer, or `numUsed` to the consumer, was between 0 and the
capacity, and the next transfer of at most so many elements returned 0, whatever the other side did
in between. A transfer is never blocked and ends. -/
theorem answers_are_kept (nelem : Nat) (positive : 1 ≤ nelem) (buf : Nat → α) (e : Endpoints α)
    (reachable : Reachable (endpointNext nelem) (fun _ _ => True) (.initial buf) e) :
    (∀ transfer ∈ e.writes ++ e.reads, ∀ answer ∈ transfer.answers,
      0 ≤ answer ∧ answer ≤ nelem - 1 ∧ (transfer.len ≤ answer → transfer.returned = 0)) ∧
    (∀ answer ∈ e.free ++ e.used, 0 ≤ answer ∧ answer ≤ nelem - 1) ∧
    (e.fifo.writer ≠ .idle → ∃ fifo, writerStep nelem e.fifo = some fifo ∧
      fifo.writer.accesses < e.fifo.writer.accesses) ∧
    (e.fifo.reader ≠ .idle → ∃ fifo, readerStep nelem e.fifo = some fifo ∧
      fifo.reader.accesses < e.fifo.reader.accesses) := by
  have promised : ∃ g, Promised nelem e g :=
    reachable.invariant (fun e => ∃ g, Promised nelem e g) ⟨_, Promised.initial positive buf⟩
      fun _ _ _ ⟨_, h⟩ _ taken => h.next positive taken
  obtain ⟨g, h⟩ := promised
  refine ⟨?_, ?_, writerStep_progress e.fifo, readerStep_progress e.fifo⟩
  · intro transfer member
    rcases List.mem_append.mp member with write | read
    · exact h.writes transfer write
    · exact h.reads transfer read
  · have near := h.used_le
    have order := h.steady.popped_le
    intro answer member
    rcases List.mem_append.mp member with free | used
    · obtain ⟨positiveAnswer, room⟩ := h.free answer free
      exact ⟨positiveAnswer, by omega⟩
    · obtain ⟨positiveAnswer, enough⟩ := h.used answer used
      exact ⟨positiveAnswer, by omega⟩

/-- A FIFO of two elements is filled. While the producer asks again, between its two loads, the
consumer takes one; both sides then rely on caches that are out of date. -/
theorem answers_are_kept_of_interleaving :
    ∃ e : Endpoints Nat,
      Reachable (endpointNext 3) (fun _ _ => True) (.initial fun _ => 0) e ∧
      e.writes = [⟨[2], 2, 0⟩, ⟨[1], 1, 0⟩] ∧ e.reads = [⟨[2], 1, 0⟩] ∧
      ∀ transfer ∈ e.writes ++ e.reads, ∀ answer ∈ transfer.answers,
        0 ≤ answer ∧ answer ≤ 3 - 1 ∧ (transfer.len ≤ answer → transfer.returned = 0) := by
  let fill : List (EndpointAction Nat) :=
    [.numFree, .numFreeStep, .numFreeStep, .write [7, 8]] ++ List.replicate 5 .writerStep
  let take : List (EndpointAction Nat) :=
    [.numUsed, .numUsedStep, .numUsedStep, .read 1] ++ List.replicate 5 .readerStep
  let refill : List (EndpointAction Nat) :=
    [.numFreeStep, .write [9]] ++ List.replicate 5 .writerStep
  have executed :
      (runActions (endpointNext 3) (fun _ _ => True) (.initial fun _ => 0)
        (fill ++ [.numFree, .numFreeStep] ++ take ++ refill)).map
        (fun e => (e.writes, e.reads)) =
      some ([⟨[2], 2, 0⟩, ⟨[1], 1, 0⟩], [⟨[2], 1, 0⟩]) := by
    decide +kernel
  obtain ⟨e, run, transfers⟩ := Option.map_eq_some_iff.mp executed
  obtain ⟨writes, reads⟩ := Prod.mk.inj transfers
  have reachable := Reachable.start.of_runActions _ run
  exact ⟨e, reachable, writes, reads, (answers_are_kept 3 (by decide) _ e reachable).1⟩

end FreeDV.Util.GenericFifo
