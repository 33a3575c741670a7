import FreeDV.Lib.Linearization
import FreeDV.Util.GenericFifoEndpoints
import FreeDV.Util.GenericFifoQueue

/-!
# The FIFO is linearizable

A producer and a consumer share a FIFO that nobody resets. Each makes one call at
a time, and either may ask how much is used or free. What they see is what they
would see of a bounded queue whose operations take effect at once: a transfer
takes effect at its last access, a question of the producer when `pout_` is
loaded, and one of the consumer when `pin_` is loaded.
-/

set_option autoImplicit false

namespace FreeDV.Util.GenericFifo

open FreeDV.Lib

variable {α : Type}

/-! ## Clients -/

inductive Endpoint where
  | producer
  | consumer
deriving DecidableEq

inductive Question where
  | numUsed
  | numFree
deriving DecidableEq

/-- A question in progress. -/
inductive Asking where
  | nothing
  | loadPin (question : Question)
  | loadPout (question : Question) (ppin : Pos)

structure Clients (α : Type) where
  fifo : State α
  asking : Endpoint → Asking

def Clients.initial (buf : Nat → α) : Clients α := ⟨State.initial buf, fun _ => .nothing⟩

def Question.call : Question → Call α
  | .numUsed => .numUsed
  | .numFree => .numFree

/-- What a question returns, from the result of `numUsed`. -/
def Question.answer (nelem : Nat) (used : Int) : Question → Int
  | .numUsed => used
  | .numFree => nelem - used - 1

/-- No call of the endpoint is in progress. -/
def Clients.free (c : Clients α) : Endpoint → Bool
  | .producer =>
      match c.fifo.writer, c.asking .producer with
      | .idle, .nothing => true
      | _, _ => false
  | .consumer =>
      match c.fifo.reader, c.asking .consumer with
      | .idle, .nothing => true
      | _, _ => false

inductive ClientAction (α : Type) where
  | write (data : List α)
  | writerStep
  | read (len : Nat)
  | readerStep
  | ask (endpoint : Endpoint) (question : Question)
  | askStep (endpoint : Endpoint)

abbrev Seen (α : Type) := Event Endpoint (Call α) (Result α)

/-- The next access of an endpoint, and what its client sees of it. -/
def clientNext (nelem : Nat) (c : Clients α) :
    ClientAction α → Option (Clients α × List (Seen α))
  | .write data =>
      if c.free .producer then
        some ({ c with fifo := { c.fifo with writer := .loadResetting data } },
          [.call .producer (.write data)])
      else none
  | .writerStep =>
      match writerStep nelem c.fifo, writeReturn nelem c.fifo with
      | none, _ => none
      | some fifo, none => some ({ c with fifo }, [])
      | some fifo, some value => some ({ c with fifo }, [.answer .producer ⟨value, []⟩])
  | .read len =>
      if c.free .consumer then
        some ({ c with fifo := { c.fifo with reader := .loadResetting len } },
          [.call .consumer (.read len)])
      else none
  | .readerStep =>
      match readerStep nelem c.fifo, readReturn nelem c.fifo with
      | none, _ => none
      | some fifo, none => some ({ c with fifo }, [])
      | some fifo, some (value, result) =>
          some ({ c with fifo }, [.answer .consumer ⟨value, result⟩])
  | .ask endpoint question =>
      if c.free endpoint then
        some ({ c with asking := Function.update c.asking endpoint (.loadPin question) },
          [.call endpoint question.call])
      else none
  | .askStep endpoint =>
      match c.asking endpoint with
      | .nothing => none
      | .loadPin question =>
          let asking := Function.update c.asking endpoint (.loadPout question c.fifo.pin)
          some ({ c with asking }, [])
      | .loadPout question ppin =>
          let used := usedBetween nelem ppin c.fifo.pout
          some ({ c with asking := Function.update c.asking endpoint .nothing },
            [.answer endpoint ⟨question.answer nelem used, []⟩])

/-! ## Transfers return what the queue returns -/

variable {n : Nat} {s after : State α} {g : Ghost α}

/-- The elements behind `pout_`. -/
def Ghost.queue (g : Ghost α) : List α := g.stream.drop g.popped

theorem Steady.length_queue (steady : Steady n s g) :
    g.queue.length = g.stream.length - g.popped ∧ g.queue.length ≤ capacity n := by
  have near := steady.invariant.shared.near
  have order := steady.popped_le
  rw [Ghost.queue, List.length_drop, capacity]
  omega

theorem writeReturn_values {value : Int} (last : writeReturn n s = some value) :
    value = 0 ∨ value = -1 := by
  unfold writeReturn at last
  cases phase : s.writer with
  | idle => simp [phase] at last
  | loadResetting data =>
      simp only [phase] at last
      split at last <;> cases last
      exact .inr rfl
  | loadPin data => simp [phase] at last
  | loadPout data ppin =>
      simp only [phase] at last
      split at last <;> cases last
      exact .inr rfl
  | copy data startPos copied =>
      simp only [phase] at last
      split at last
      · cases last
      · split at last <;> cases last
        · exact .inl rfl
        · exact .inr rfl

theorem Steady.write_exact (positive : 0 < n) (steady : Steady n s g)
    (stepped : GenericFifo.writerStep n s = some after) :
    ∃ g', Steady n after g' ∧
      match GenericFifo.writeReturn n s with
      | none => g'.queue = g.queue
      | some value =>
          (⟨value, []⟩, g'.queue) = queueCall (capacity n) g.queue (.write s.writer.data) := by
  obtain ⟨g', kept, popped, stream⟩ := steady.writerStep positive stepped
  refine ⟨g', kept, ?_⟩
  obtain ⟨length, -⟩ := steady.length_queue
  have order := steady.popped_le
  have near := kept.invariant.shared.near
  have behind : g'.queue =
      g.queue ++ if GenericFifo.writeReturn n s = some 0 then s.writer.data else [] := by
    rw [Ghost.queue, Ghost.queue, popped, stream, List.drop_append_of_le_length order]
  cases last : GenericFifo.writeReturn n s with
  | none => simpa [last] using behind
  | some value =>
      have exactly : s.writer.data.length ≤ capacity n - g.queue.length ↔ value = 0 := by
        constructor
        · intro room
          refine steady.writeReturn positive ?_ last
          rw [capacity] at room
          have before := steady.invariant.shared.near
          by_cases none : s.writer.data.length = 0
          · omega
          · omega
        · rintro rfl
          rw [stream, if_pos last, List.length_append, popped] at near
          rw [capacity]
          omega
      rw [last] at behind
      by_cases room : s.writer.data.length ≤ capacity n - g.queue.length
      · have zero := exactly.mp room
        simp only [queueCall, if_pos room, behind, zero, if_true]
      · have refused : value ≠ 0 := fun zero => room (exactly.mpr zero)
        have minus := (writeReturn_values last).resolve_left refused
        simp [queueCall, room, behind, minus]

/-- Without resets no commit of a read fails. -/
theorem Steady.readReturn_values (steady : Steady n s g) {len : Nat}
    (reading : s.reader.len = some len) {value : Int} {result : List α}
    (last : GenericFifo.readReturn n s = some (value, result)) :
    value = 0 ∧ result.length = len ∨ value = -1 ∧ result = [] := by
  have ok := steady.invariant.reader
  unfold GenericFifo.readReturn at last
  cases phase : s.reader with
  | idle => simp [phase] at last
  | loadResetting _ => simp [phase, steady.unlocked] at last
  | loadPout _ => simp [phase] at last
  | loadPin wanted ppout =>
      simp only [phase] at last
      split at last
      · cases last
      · cases last
        exact .inr ⟨rfl, rfl⟩
  | copy wanted startPos copied =>
      simp only [phase, Reader.len, Option.some.injEq] at reading last ok
      obtain ⟨short, gen, loaded, -⟩ := ok
      split at last
      · cases last
      · rename_i complete
        rw [if_pos (loaded.current steady).2, Option.some.injEq, Prod.mk.injEq] at last
        obtain ⟨rfl, rfl⟩ := last
        exact .inl ⟨rfl, by omega⟩

theorem Steady.read_exact (positive : 0 < n) (steady : Steady n s g) {len : Nat}
    (reading : s.reader.len = some len) (stepped : GenericFifo.readerStep n s = some after) :
    ∃ g', Steady n after g' ∧
      match GenericFifo.readReturn n s with
      | none => g'.queue = g.queue
      | some (value, result) =>
          (⟨value, result⟩, g'.queue) = queueCall (capacity n) g.queue (.read len) := by
  obtain ⟨g', kept, stream, popped⟩ := steady.readerStep_amount positive stepped
  refine ⟨g', kept, ?_⟩
  obtain ⟨length, -⟩ := steady.length_queue
  have order := kept.popped_le
  have behind : g'.queue = g.queue.drop (amountRead (GenericFifo.readReturn n s)) := by
    rw [Ghost.queue, Ghost.queue, popped, stream, List.drop_drop]
  cases last : GenericFifo.readReturn n s with
  | none => simpa [last, amountRead] using behind
  | some returned =>
      obtain ⟨value, result⟩ := returned
      rw [last] at behind popped
      rw [stream] at order
      by_cases enough : len ≤ g.queue.length
      · have front : (value, result) = (0, g.queue.take len) :=
          steady.readReturn positive reading (by omega) last
        obtain ⟨rfl, rfl⟩ := Prod.mk.inj front
        have taken : (g.queue.take len).length = len := List.length_take_of_le enough
        simp only [queueCall, if_pos enough, behind, amountRead, if_true, taken]
      · rcases steady.readReturn_values reading last with ⟨rfl, complete⟩ | ⟨rfl, rfl⟩
        · simp only [amountRead, if_true] at popped
          omega
        · simp [queueCall, enough, behind, amountRead]

/-! ## The atomic queue -/

/-- How far the call of an endpoint is, seen as a call of the queue. A question of the consumer has
its answer as soon as `pin_` is loaded, since nobody else moves `pout_`. -/
def Clients.pending (n : Nat) (c : Clients α) : Endpoint → Pending (Call α) (Result α)
  | .producer =>
      match c.asking .producer, c.fifo.writer with
      | .loadPin question, _ => .called question.call
      | .loadPout question _, _ => .called question.call
      | .nothing, .idle => .idle
      | .nothing, writer => .called (.write writer.data)
  | .consumer =>
      match c.asking .consumer, c.fifo.reader.len with
      | .loadPin question, _ => .called question.call
      | .loadPout question ppin, _ =>
          .done ⟨question.answer n (usedBetween n ppin c.fifo.pout), []⟩
      | .nothing, none => .idle
      | .nothing, some len => .called (.read len)

structure Consistent (n : Nat) (c : Clients α) (g : Ghost α) : Prop where
  steady : Steady n c.fifo g
  producer : c.asking .producer = .nothing ∨ c.fifo.writer = .idle
  consumer : c.asking .consumer = .nothing ∨ c.fifo.reader = .idle
  producerPin : ∀ question ppin, c.asking .producer = .loadPout question ppin → ppin = c.fifo.pin

def Clients.atomic (n : Nat) (c : Clients α) (g : Ghost α) :
    Atomic (List α) Endpoint (Call α) (Result α) :=
  ⟨g.queue, c.pending n⟩

variable {c later : Clients α} {events : List (Seen α)}

theorem Consistent.initial (positive : 0 < n) (buf : Nat → α) :
    Consistent n (.initial buf) ⟨[], [], 0, 0, 0, 0⟩ where
  steady := Steady.initial positive buf
  producer := .inl rfl
  consumer := .inl rfl
  producerPin _ _ same := by cases same

theorem Clients.atomic_initial (buf : Nat → α) :
    (Clients.initial buf).atomic n ⟨[], [], 0, 0, 0, 0⟩ = Atomic.initial [] := by
  rw [Clients.atomic, Atomic.initial, Atomic.mk.injEq]
  refine ⟨rfl, ?_⟩
  funext endpoint
  cases endpoint <;> rfl

/-- An endpoint that is free waits for nothing. -/
theorem Clients.pending_of_free {endpoint : Endpoint} (free : c.free endpoint = true) :
    c.asking endpoint = .nothing ∧ c.pending n endpoint = .idle := by
  cases endpoint with
  | producer =>
      simp only [Clients.free] at free
      split at free
      · rename_i idle nothing
        exact ⟨nothing, by simp only [Clients.pending, nothing, idle]⟩
      · cases free
  | consumer =>
      simp only [Clients.free] at free
      split at free
      · rename_i idle nothing
        exact ⟨nothing, by simp only [Clients.pending, nothing, idle, Reader.len]⟩
      · cases free

/-- Both questions have the answers of the queue while one side stands still. -/
theorem Steady.answer_exact (positive : 0 < n) (steady : Steady n s g) (question : Question) :
    queueCall (capacity n) g.queue (question.call : Call α) =
      (⟨question.answer n (usedBetween n s.pin s.pout), []⟩, g.queue) := by
  have used : usedBetween n s.pin s.pout = (g.queue.length : Nat) := by
    have loads := steady.computeUsed positive steady.popped_le (Nat.le_refl _)
    rw [usedBetween, steady.pin, loads, steady.length_queue.1]
  cases question with
  | numUsed => simp only [Question.call, queueCall, Question.answer, used]
  | numFree =>
      have elements : ((n - 1 : Nat) : Int) = n - 1 := by omega
      simp only [Question.call, queueCall, Question.answer, used, capacity, elements,
        Prod.mk.injEq, Result.mk.injEq, and_true]
      omega

/-! ### Calls -/

theorem Clients.runs_call {endpoint : Endpoint} (free : c.free endpoint = true) {call : Call α}
    (pending : later.pending n = Function.update (c.pending n) endpoint (.called call)) :
    Traces (Atomic.next (queueCall (capacity n))) (c.atomic n g) [.call endpoint call]
      (later.atomic n g) := by
  rw [Clients.atomic, Clients.atomic, pending]
  exact Atomic.runs_call call (Clients.pending_of_free free).2

theorem Clients.runs_silent {g' : Ghost α} (queue : g'.queue = g.queue)
    (pending : later.pending n = c.pending n) :
    Traces (Atomic.next (queueCall (capacity n))) (c.atomic n g) [] (later.atomic n g') := by
  rw [Clients.atomic, Clients.atomic, queue, pending]
  exact .start

theorem Clients.runs_return {endpoint : Endpoint} {call : Call α} {result : Result α}
    {g' : Ghost α} (called : c.pending n endpoint = .called call)
    (answer : (result, g'.queue) = queueCall (capacity n) g.queue call)
    (pending : later.pending n = Function.update (c.pending n) endpoint .idle) :
    Traces (Atomic.next (queueCall (capacity n))) (c.atomic n g) [.answer endpoint result]
      (later.atomic n g') := by
  have first : result = (queueCall (capacity n) g.queue call).1 := congrArg Prod.fst answer
  have second : g'.queue = (queueCall (capacity n) g.queue call).2 := congrArg Prod.snd answer
  rw [Clients.atomic, Clients.atomic, pending, first, second]
  exact Atomic.runs_return called

theorem Clients.runs_effect {endpoint : Endpoint} {call : Call α} {result : Result α}
    (called : c.pending n endpoint = .called call)
    (answer : (result, g.queue) = queueCall (capacity n) g.queue call)
    (pending : later.pending n = Function.update (c.pending n) endpoint (.done result)) :
    Traces (Atomic.next (queueCall (capacity n))) (c.atomic n g) [] (later.atomic n g) := by
  have runs : Traces (Atomic.next (queueCall (capacity n))) (c.atomic n g) []
      ⟨(queueCall (capacity n) g.queue call).2, Function.update (c.pending n) endpoint
        (.done (queueCall (capacity n) g.queue call).1)⟩ :=
    Atomic.runs_effect _ called
  rwa [← answer, ← pending] at runs

theorem Clients.runs_answer {endpoint : Endpoint} {result : Result α}
    (done : c.pending n endpoint = .done result)
    (pending : later.pending n = Function.update (c.pending n) endpoint .idle) :
    Traces (Atomic.next (queueCall (capacity n))) (c.atomic n g) [.answer endpoint result]
      (later.atomic n g) := by
  rw [Clients.atomic, Clients.atomic, pending]
  exact Atomic.runs_answer done

theorem Consistent.write (h : Consistent n c g) {data : List α}
    (taken : clientNext n c (.write data) = some (later, events)) :
    Consistent n later g ∧
      Traces (Atomic.next (queueCall (capacity n))) (c.atomic n g) events (later.atomic n g) := by
  rw [clientNext] at taken
  split at taken
  · rename_i free
    obtain ⟨nothing, -⟩ := Clients.pending_of_free (n := n) free
    cases taken
    refine ⟨{ h with steady := h.steady.write data, producer := .inl nothing }, ?_⟩
    refine Clients.runs_call free ?_
    funext endpoint
    cases endpoint with
    | producer => simp only [Function.update_self, Clients.pending, nothing, Writer.data]
    | consumer => rfl
  · cases taken

theorem Consistent.read (h : Consistent n c g) {len : Nat}
    (taken : clientNext n c (.read len) = some (later, events)) :
    Consistent n later g ∧
      Traces (Atomic.next (queueCall (capacity n))) (c.atomic n g) events (later.atomic n g) := by
  rw [clientNext] at taken
  split at taken
  · rename_i free
    obtain ⟨nothing, -⟩ := Clients.pending_of_free (n := n) free
    cases taken
    refine ⟨{ h with steady := h.steady.read len, consumer := .inl nothing }, ?_⟩
    refine Clients.runs_call free ?_
    funext endpoint
    cases endpoint with
    | producer => rfl
    | consumer => simp only [Function.update_self, Clients.pending, nothing, Reader.len]
  · cases taken

theorem Clients.idle_of_free {endpoint : Endpoint} (free : c.free endpoint = true) :
    (endpoint = .producer → c.fifo.writer = .idle) ∧
      (endpoint = .consumer → c.fifo.reader = .idle) := by
  cases endpoint with
  | producer =>
      simp only [Clients.free] at free
      split at free
      · rename_i idle _
        exact ⟨fun _ => idle, by rintro ⟨⟩⟩
      · cases free
  | consumer =>
      simp only [Clients.free] at free
      split at free
      · rename_i idle _
        exact ⟨by rintro ⟨⟩, fun _ => idle⟩
      · cases free

theorem Consistent.ask (h : Consistent n c g) {endpoint : Endpoint} {question : Question}
    (taken : clientNext n c (.ask endpoint question) = some (later, events)) :
    Consistent n later g ∧
      Traces (Atomic.next (queueCall (capacity n))) (c.atomic n g) events (later.atomic n g) := by
  rw [clientNext] at taken
  split at taken
  · rename_i free
    obtain ⟨producer, consumer⟩ := Clients.idle_of_free free
    cases taken
    cases endpoint with
    | producer =>
        refine ⟨{ h with
          producer := .inr (producer rfl)
          producerPin := fun _ _ same => by cases same }, ?_⟩
        refine Clients.runs_call free ?_
        funext endpoint
        cases endpoint <;> rfl
    | consumer =>
        refine ⟨{ h with consumer := .inr (consumer rfl) }, ?_⟩
        refine Clients.runs_call free ?_
        funext endpoint
        cases endpoint <;> rfl
  · cases taken

/-! ### Transfers -/

theorem Clients.pending_writing (nothing : c.asking .producer = .nothing)
    (busy : c.fifo.writer ≠ .idle) :
    c.pending n .producer = .called (.write c.fifo.writer.data) := by
  rw [Clients.pending, nothing]
  cases phase : c.fifo.writer with
  | idle => exact absurd phase busy
  | _ => rfl

theorem Consistent.writerStep (positive : 0 < n) (h : Consistent n c g)
    (taken : clientNext n c .writerStep = some (later, events)) :
    ∃ g', Consistent n later g' ∧
      Traces (Atomic.next (queueCall (capacity n))) (c.atomic n g) events (later.atomic n g') := by
  simp only [clientNext] at taken
  cases stepped : GenericFifo.writerStep n c.fifo with
  | none => simp [stepped] at taken
  | some fifo =>
      obtain ⟨reader, pout, -, -, further, finished⟩ := writerStep_frame stepped
      obtain ⟨g', steady, result⟩ := h.steady.write_exact positive stepped
      have busy : c.fifo.writer ≠ .idle := by
        intro idle
        rw [GenericFifo.writerStep, idle] at stepped
        cases stepped
      have nothing : c.asking .producer = .nothing := h.producer.resolve_right busy
      have consumerIdle : c.asking .consumer = .nothing ∨ fifo.reader = .idle :=
        reader ▸ h.consumer
      have producerPin : ∀ question ppin,
          c.asking .producer = .loadPout question ppin → ppin = fifo.pin := by
        intro question ppin asking
        rw [nothing] at asking
        cases asking
      have kept : Consistent n { c with fifo } g' :=
        ⟨steady, .inl nothing, consumerIdle, producerPin⟩
      have consumer : ({ c with fifo } : Clients α).pending n .consumer = c.pending n .consumer := by
        simp only [Clients.pending, reader, pout]
      have writing := Clients.pending_writing (n := n) nothing busy
      cases last : writeReturn n c.fifo with
      | none =>
          obtain ⟨busy', data⟩ := further last
          simp only [stepped, last, Option.some.injEq, Prod.mk.injEq] at taken
          obtain ⟨rfl, rfl⟩ := taken
          rw [last] at result
          refine ⟨g', kept, Clients.runs_silent result ?_⟩
          funext endpoint
          cases endpoint with
          | producer =>
              rw [writing, Clients.pending_writing (c := { c with fifo }) nothing busy', data]
          | consumer => exact consumer
      | some value =>
          have idle := finished (by rw [last]; exact Option.some_ne_none _)
          simp only [stepped, last, Option.some.injEq, Prod.mk.injEq] at taken
          obtain ⟨rfl, rfl⟩ := taken
          rw [last] at result
          refine ⟨g', kept, Clients.runs_return writing result ?_⟩
          funext endpoint
          cases endpoint with
          | producer => simp only [Function.update_self, Clients.pending, nothing, idle]
          | consumer => exact consumer

theorem Clients.pending_reading (nothing : c.asking .consumer = .nothing) {len : Nat}
    (reading : c.fifo.reader.len = some len) :
    c.pending n .consumer = .called (.read len) := by
  rw [Clients.pending, nothing, reading]

theorem Consistent.readerStep (positive : 0 < n) (h : Consistent n c g)
    (taken : clientNext n c .readerStep = some (later, events)) :
    ∃ g', Consistent n later g' ∧
      Traces (Atomic.next (queueCall (capacity n))) (c.atomic n g) events (later.atomic n g') := by
  simp only [clientNext] at taken
  cases stepped : GenericFifo.readerStep n c.fifo with
  | none => simp [stepped] at taken
  | some fifo =>
      obtain ⟨writer, pin, -, -, further, finished⟩ := readerStep_frame stepped
      have busy : c.fifo.reader ≠ .idle := by
        intro idle
        rw [GenericFifo.readerStep, idle] at stepped
        cases stepped
      have nothing : c.asking .consumer = .nothing := h.consumer.resolve_right busy
      obtain ⟨len, reading⟩ : ∃ len, c.fifo.reader.len = some len := by
        cases phase : c.fifo.reader with
        | idle => exact absurd phase busy
        | _ => exact ⟨_, rfl⟩
      obtain ⟨g', steady, result⟩ := h.steady.read_exact positive reading stepped
      have producerIdle : c.asking .producer = .nothing ∨ fifo.writer = .idle :=
        writer ▸ h.producer
      have kept : Consistent n { c with fifo } g' :=
        ⟨steady, producerIdle, .inl nothing, pin ▸ h.producerPin⟩
      have producer : ({ c with fifo } : Clients α).pending n .producer = c.pending n .producer := by
        simp only [Clients.pending, writer]
      have called := Clients.pending_reading (n := n) nothing reading
      cases last : readReturn n c.fifo with
      | none =>
          simp only [stepped, last, Option.some.injEq, Prod.mk.injEq] at taken
          obtain ⟨rfl, rfl⟩ := taken
          rw [last] at result
          refine ⟨g', kept, Clients.runs_silent result ?_⟩
          funext endpoint
          cases endpoint with
          | producer => exact producer
          | consumer =>
              rw [called]
              exact Clients.pending_reading (c := { c with fifo }) nothing
                ((further last).trans reading)
      | some returned =>
          obtain ⟨value, values⟩ := returned
          have idle := finished (by rw [last]; exact Option.some_ne_none _)
          simp only [stepped, last, Option.some.injEq, Prod.mk.injEq] at taken
          obtain ⟨rfl, rfl⟩ := taken
          rw [last] at result
          refine ⟨g', kept, Clients.runs_return called result ?_⟩
          funext endpoint
          cases endpoint with
          | producer => exact producer
          | consumer =>
              simp only [Function.update_self, Clients.pending, nothing, idle, Reader.len]

/-! ### Questions -/

/-- The producer owns `pin_`, so its question takes effect at the load of `pout_`. -/
theorem Consistent.askStep_producer (positive : 0 < n) (h : Consistent n c g)
    (taken : clientNext n c (.askStep .producer) = some (later, events)) :
    Consistent n later g ∧
      Traces (Atomic.next (queueCall (capacity n))) (c.atomic n g) events (later.atomic n g) := by
  simp only [clientNext] at taken
  cases asking : c.asking .producer with
  | nothing => simp [asking] at taken
  | loadPin question =>
      simp only [asking, Option.some.injEq, Prod.mk.injEq] at taken
      obtain ⟨rfl, rfl⟩ := taken
      have quiet : c.fifo.writer = .idle := by simpa [asking] using h.producer
      refine ⟨{ h with
        producer := .inr quiet
        producerPin := fun _ _ same => by cases same; rfl }, Clients.runs_silent rfl ?_⟩
      funext endpoint
      cases endpoint with
      | producer => simp only [Clients.pending, Function.update_self, asking]
      | consumer => rfl
  | loadPout question ppin =>
      simp only [asking, Option.some.injEq, Prod.mk.injEq] at taken
      obtain ⟨rfl, rfl⟩ := taken
      have quiet : c.fifo.writer = .idle := by simpa [asking] using h.producer
      have called : c.pending n .producer = .called question.call := by
        simp only [Clients.pending, asking]
      refine ⟨{ h with
        producer := .inl rfl
        producerPin := fun _ _ same => by cases same }, Clients.runs_return called ?_ ?_⟩
      · rw [h.steady.answer_exact positive question, h.producerPin question ppin asking]
      · funext endpoint
        cases endpoint with
        | producer => simp only [Clients.pending, Function.update_self, quiet]
        | consumer => rfl

/-- The consumer owns `pout_`, so its question takes effect at the load of `pin_`. -/
theorem Consistent.askStep_consumer (positive : 0 < n) (h : Consistent n c g)
    (taken : clientNext n c (.askStep .consumer) = some (later, events)) :
    Consistent n later g ∧
      Traces (Atomic.next (queueCall (capacity n))) (c.atomic n g) events (later.atomic n g) := by
  simp only [clientNext] at taken
  cases asking : c.asking .consumer with
  | nothing => simp [asking] at taken
  | loadPin question =>
      simp only [asking, Option.some.injEq, Prod.mk.injEq] at taken
      obtain ⟨rfl, rfl⟩ := taken
      have quiet : c.fifo.reader = .idle := by simpa [asking] using h.consumer
      have called : c.pending n .consumer = .called question.call := by
        simp only [Clients.pending, asking]
      refine ⟨{ h with consumer := .inr quiet }, Clients.runs_effect called
        (h.steady.answer_exact positive question).symm ?_⟩
      funext endpoint
      cases endpoint with
      | producer => rfl
      | consumer => simp only [Clients.pending, Function.update_self]
  | loadPout question ppin =>
      simp only [asking, Option.some.injEq, Prod.mk.injEq] at taken
      obtain ⟨rfl, rfl⟩ := taken
      have quiet : c.fifo.reader = .idle := by simpa [asking] using h.consumer
      have done : c.pending n .consumer =
          .done ⟨question.answer n (usedBetween n ppin c.fifo.pout), []⟩ := by
        simp only [Clients.pending, asking]
      refine ⟨{ h with consumer := .inl rfl }, Clients.runs_answer done ?_⟩
      funext endpoint
      cases endpoint with
      | producer => rfl
      | consumer => simp only [Clients.pending, Function.update_self, quiet, Reader.len]

/-! ## Every history -/

theorem Consistent.next (positive : 0 < n) (h : Consistent n c g) {action : ClientAction α}
    (taken : clientNext n c action = some (later, events)) :
    ∃ g', Consistent n later g' ∧
      Traces (Atomic.next (queueCall (capacity n))) (c.atomic n g) events (later.atomic n g') := by
  cases action with
  | write data => exact ⟨g, h.write taken⟩
  | writerStep => exact h.writerStep positive taken
  | read len => exact ⟨g, h.read taken⟩
  | readerStep => exact h.readerStep positive taken
  | ask endpoint question => exact ⟨g, h.ask taken⟩
  | askStep endpoint =>
      cases endpoint with
      | producer => exact ⟨g, h.askStep_producer positive taken⟩
      | consumer => exact ⟨g, h.askStep_consumer positive taken⟩

theorem Consistent.atomic_run (positive : 0 < n) {buf : Nat → α} {history : List (Seen α)}
    (run : Traces (clientNext n) (.initial buf) history c) :
    ∃ g, Consistent n c g ∧
      Traces (Atomic.next (queueCall (capacity n))) (.initial []) history (c.atomic n g) := by
  obtain ⟨atomic, history, g, consistent, rfl⟩ := run.simulated
    (fun clients atomic => ∃ g, Consistent n clients g ∧ atomic = clients.atomic n g)
    ⟨_, Consistent.initial positive buf, (Clients.atomic_initial buf).symm⟩
    (by
      rintro before _ action after events ⟨g, h, rfl⟩ taken
      obtain ⟨g', kept, runs⟩ := h.next positive taken
      exact ⟨_, runs, g', kept, rfl⟩)
  exact ⟨g, consistent, history⟩

/-- Whatever the accesses of the two endpoints do to each other, the calls and answers they see are a
history of a queue of `nelem - 1` elements, whose operations take effect at once between call and
answer. -/
theorem fifo_linearizable (nelem : Nat) (positive : 1 ≤ nelem) (buf : Nat → α)
    {history : List (Seen α)} {clients : Clients α}
    (run : Traces (clientNext nelem) (.initial buf) history clients) :
    ∃ atomic : Atomic (List α) Endpoint (Call α) (Result α),
      Traces (Atomic.next (queueCall (capacity nelem))) (.initial []) history atomic := by
  obtain ⟨g, -, history⟩ := Consistent.atomic_run positive run
  exact ⟨clients.atomic nelem g, history⟩

/-- The consumer asks, and the producer writes between the two loads: the answer is the one from
before the write. The read that follows takes both elements all the same. -/
theorem fifo_linearizable_of_overlap :
    ∃ (history : List (Seen Nat)) (clients : Clients Nat),
      Traces (clientNext 3) (.initial fun _ => 0) history clients ∧
      history = [.call .consumer .numUsed, .call .producer (.write [7, 8]),
        .answer .producer ⟨0, []⟩, .answer .consumer ⟨0, []⟩, .call .consumer (.read 2),
        .answer .consumer ⟨0, [7, 8]⟩] ∧
      ∃ atomic : Atomic (List Nat) Endpoint (Call Nat) (Result Nat),
        Traces (Atomic.next (queueCall (capacity 3))) (.initial []) history atomic := by
  let actions : List (ClientAction Nat) :=
    [.ask .consumer .numUsed, .askStep .consumer, .write [7, 8]] ++
      List.replicate 5 .writerStep ++ [.askStep .consumer, .read 2] ++ List.replicate 6 .readerStep
  have executed :
      (runEvents (clientNext 3) (.initial fun _ => 0) actions).map Prod.fst =
        some [.call .consumer .numUsed, .call .producer (.write [7, 8]),
          .answer .producer ⟨0, []⟩, .answer .consumer ⟨0, []⟩, .call .consumer (.read 2),
          .answer .consumer ⟨0, [7, 8]⟩] := rfl
  obtain ⟨⟨history, clients⟩, run, seen⟩ := Option.map_eq_some_iff.mp executed
  have runs := Traces.of_runEvents actions run
  exact ⟨history, clients, runs, seen, fifo_linearizable 3 (by decide) _ runs⟩

end FreeDV.Util.GenericFifo
