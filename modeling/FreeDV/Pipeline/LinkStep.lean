import FreeDV.Util.GenericFifoLinearization

/-!
# Two pipelines linked by a FIFO

`LinkStep` hands samples from the end of one pipeline to the start of another,
which runs on another thread. Both threads are seen by the calls they make of the
FIFO: the input step writes, the output step asks how much there is and reads as
much as it may return. Since the FIFO is linearizable, they may be reasoned about
as if its operations were atomic.
-/

set_option autoImplicit false

namespace FreeDV.Pipeline

open Lib Util.GenericFifo

namespace LinkStep

/-- Where `InputStep::execute` is. -/
inductive InputStep where
  | idle
  | writing (samples : List Int16)

/-- Where `OutputStep::execute` is. -/
inductive OutputStep where
  | idle
  | counting (numInputSamples : Int)
  | counted (num : Nat)
  | reading (num : Nat)

end LinkStep

/-- The two threads. The call with number `k` of the output step has `requests k` input samples.
`accepted` and `returned` record the samples that were written and those that were returned. -/
structure LinkStep where
  input : LinkStep.InputStep
  output : LinkStep.OutputStep
  outputSamples : List Int16
  calls : Nat
  accepted : List Int16
  returned : List (List Int16)

namespace LinkStep

/-- The samples of the write in progress. -/
def InputStep.inFlight : InputStep → List Int16
  | .idle => []
  | .writing samples => samples

/-- The number of samples a call returns. -/
def numOutputSamples (sampleRate : Nat) (numUsed numInputSamples : Int) : Int :=
  min (if numInputSamples > 0 then min numUsed numInputSamples else numUsed) sampleRate

/-- `outputSamples_` may hold anything at first. -/
def initial (outputSamples : List Int16) : LinkStep := ⟨.idle, .idle, outputSamples, 0, [], []⟩

/-- The answer to the call `execute` waits for. -/
def OutputStep.resume (sampleRate : Nat) (link : LinkStep) (answer : Result Int16) :
    OutputStep → Option LinkStep
  | .counting numInputSamples =>
      let num := numOutputSamples sampleRate answer.value numInputSamples
      if num > 0 then some { link with output := .counted num.toNat }
      else some { link with output := .idle, returned := link.returned ++ [[]] }
  | .reading num =>
      let outputSamples :=
        if answer.value = 0 then answer.result ++ link.outputSamples.drop num
        else link.outputSamples
      some { link with
        output := .idle
        outputSamples
        returned := link.returned ++ [outputSamples.take num] }
  | _ => none

/-- What the two threads do with the FIFO, call by call and answer by answer. -/
def follow (sampleRate : Nat) (requests : Nat → Int) (link : LinkStep) :
    Seen Int16 → Option LinkStep
  | .call .producer (.write samples) =>
      match link.input with
      | .idle => if samples = [] then none else some { link with input := .writing samples }
      | _ => none
  | .answer .producer answer =>
      match link.input with
      | .writing samples =>
          some { link with
            input := .idle
            accepted := link.accepted ++ if answer.value = 0 then samples else [] }
      | _ => none
  | .call .consumer .numUsed =>
      match link.output with
      | .idle =>
          some { link with output := .counting (requests link.calls), calls := link.calls + 1 }
      | _ => none
  | .call .consumer (.read len) =>
      match link.output with
      | .counted num => if len = num then some { link with output := .reading num } else none
      | _ => none
  | .answer .consumer answer => link.output.resume sampleRate link answer
  | _ => none

/-! ## The threads on an atomic queue -/

variable {sampleRate cap : Nat} {requests : Nat → Int} {link : LinkStep}
  {atomic : Atomic (List Int16) Endpoint (Call Int16) (Result Int16)}

/-- The call of the input step, and what of its samples is already in the queue. -/
inductive Writes : InputStep → Pending (Call Int16) (Result Int16) → List Int16 → Prop
  | idle : Writes .idle .idle []
  | called {samples : List Int16} : Writes (.writing samples) (.called (.write samples)) []
  | accepted {samples result : List Int16} : Writes (.writing samples) (.done ⟨0, result⟩) samples
  | refused {samples : List Int16} {answer : Result Int16} :
      answer.value ≠ 0 → Writes (.writing samples) (.done answer) []

/-- The call of the output step on a queue, and what it has already taken. -/
inductive Reads (sampleRate : Nat) (queue : List Int16) :
    OutputStep → Pending (Call Int16) (Result Int16) → List Int16 → Prop
  | idle : Reads sampleRate queue .idle .idle []
  | counting {numInputSamples : Int} :
      Reads sampleRate queue (.counting numInputSamples) (.called .numUsed) []
  | answered {numInputSamples : Int} {used : Nat} : used ≤ queue.length →
      Reads sampleRate queue (.counting numInputSamples) (.done ⟨used, []⟩) []
  | counted {num : Nat} : num ≤ sampleRate → num ≤ queue.length →
      Reads sampleRate queue (.counted num) .idle []
  | reading {num : Nat} : num ≤ sampleRate → num ≤ queue.length →
      Reads sampleRate queue (.reading num) (.called (.read num)) []
  | read {num : Nat} {block : List Int16} : num ≤ sampleRate → block.length = num →
      Reads sampleRate queue (.reading num) (.done ⟨0, block⟩) block

/-- Everything accepted is returned, on its way, or in the queue. -/
structure Linked (sampleRate cap : Nat)
    (atomic : Atomic (List Int16) Endpoint (Call Int16) (Result Int16)) (link : LinkStep) :
    Prop where
  intro ::
  fits : atomic.object.length ≤ cap
  bounded : ∀ block ∈ link.returned, block.length ≤ sampleRate
  flow : ∃ written taken,
    Writes link.input (atomic.pending .producer) written ∧
    Reads sampleRate atomic.object link.output (atomic.pending .consumer) taken ∧
    link.returned.flatten ++ (taken ++ atomic.object) = link.accepted ++ written

theorem Linked.initial (outputSamples : List Int16) :
    Linked sampleRate cap (Atomic.initial []) (LinkStep.initial outputSamples) where
  fits := Nat.zero_le _
  bounded := by
    intro block member
    cases member
  flow := ⟨[], [], .idle, .idle, rfl⟩

theorem Reads.longer {queue : List Int16} {output : OutputStep}
    {pending : Pending (Call Int16) (Result Int16)} {taken : List Int16}
    (reads : Reads sampleRate queue output pending taken) (more : List Int16) :
    Reads sampleRate (queue ++ more) output pending taken := by
  have grown : queue.length ≤ (queue ++ more).length := by
    rw [List.length_append]
    omega
  cases reads with
  | idle => exact .idle
  | counting => exact .counting
  | answered used => exact .answered (used.trans grown)
  | counted few enough => exact .counted few (enough.trans grown)
  | reading few enough => exact .reading few (enough.trans grown)
  | read few length => exact .read few length

theorem Linked.call (h : Linked sampleRate cap atomic link) {party : Endpoint} {call : Call Int16}
    (pending : atomic.pending party = .idle) {last : LinkStep}
    (follows : follow sampleRate requests link (.call party call) = some last) :
    Linked sampleRate cap
      ⟨atomic.object, Function.update atomic.pending party (.called call)⟩ last := by
  obtain ⟨input, output, outputSamples, calls, accepted, returned⟩ := link
  obtain ⟨fits, bounded, written, taken, writes, reads, flow⟩ := h
  dsimp only at bounded writes reads flow
  cases party with
  | producer =>
      rw [pending] at writes
      cases writes
      cases call with
      | write samples =>
          simp only [follow] at follows
          split at follows
          · cases follows
          · cases follows
            exact ⟨fits, bounded, [], taken, .called, reads, flow⟩
      | _ => cases follows
  | consumer =>
      rw [pending] at reads
      cases reads with
      | idle =>
          cases call with
          | numUsed =>
              cases follows
              exact ⟨fits, bounded, written, [], writes, .counting, flow⟩
          | _ => cases follows
      | counted few enough =>
          cases call with
          | read len =>
              simp only [follow] at follows
              split at follows
              · rename_i same
                cases follows
                cases same
                exact ⟨fits, bounded, written, [], writes, .reading few enough, flow⟩
              · cases follows
          | _ => cases follows

theorem Linked.takeEffect (h : Linked sampleRate cap atomic link) {party : Endpoint}
    {call : Call Int16} (pending : atomic.pending party = .called call) :
    Linked sampleRate cap
      ⟨(queueCall cap atomic.object call).2,
        Function.update atomic.pending party (.done (queueCall cap atomic.object call).1)⟩ link := by
  obtain ⟨input, output, outputSamples, calls, accepted, returned⟩ := link
  obtain ⟨fits, bounded, written, taken, writes, reads, flow⟩ := h
  dsimp only at bounded writes reads flow
  cases party with
  | producer =>
      rw [pending] at writes
      cases writes with
      | @called samples =>
          by_cases room : samples.length ≤ cap - atomic.object.length
          · simp only [queueCall, if_pos room]
            refine ⟨?_, bounded, samples, taken, .accepted, reads.longer samples, ?_⟩
            · rw [List.length_append]
              omega
            · dsimp only
              rw [← List.append_assoc taken, ← List.append_assoc, flow, List.append_nil]
          · simp only [queueCall, if_neg room]
            exact ⟨fits, bounded, [], taken, .refused (by decide), reads, flow⟩
  | consumer =>
      rw [pending] at reads
      cases reads with
      | counting =>
          exact ⟨fits, bounded, written, [], writes, .answered (Nat.le_refl _), flow⟩
      | reading few enough =>
          rename_i num
          simp only [queueCall, if_pos enough]
          refine ⟨?_, bounded, written, _, writes, .read few (List.length_take_of_le enough), ?_⟩
          · rw [List.length_drop]
            omega
          · dsimp only
            rw [List.take_append_drop]
            exact flow

theorem numOutputSamples_le (sampleRate : Nat) (numUsed numInputSamples : Int) :
    numOutputSamples sampleRate numUsed numInputSamples ≤ numUsed ∧
      numOutputSamples sampleRate numUsed numInputSamples ≤ sampleRate := by
  unfold numOutputSamples
  split <;> omega

theorem bounded_concat {returned : List (List Int16)} {newest : List Int16}
    (bounded : ∀ block ∈ returned, block.length ≤ sampleRate) (short : newest.length ≤ sampleRate) :
    ∀ block ∈ returned ++ [newest], block.length ≤ sampleRate :=
  List.forall_mem_append.mpr ⟨bounded, List.forall_mem_singleton.mpr short⟩

theorem Linked.answer (h : Linked sampleRate cap atomic link) {party : Endpoint}
    {answer : Result Int16} (pending : atomic.pending party = .done answer) {last : LinkStep}
    (follows : follow sampleRate requests link (.answer party answer) = some last) :
    Linked sampleRate cap
      ⟨atomic.object, Function.update atomic.pending party .idle⟩ last := by
  obtain ⟨input, output, outputSamples, calls, accepted, returned⟩ := link
  obtain ⟨fits, bounded, written, taken, writes, reads, flow⟩ := h
  dsimp only at bounded writes reads flow
  cases party with
  | producer =>
      rw [pending] at writes
      cases writes with
      | accepted =>
          cases follows
          exact ⟨fits, bounded, [], taken, .idle, reads, by simpa using flow⟩
      | refused failed =>
          simp only [follow, if_neg failed] at follows
          cases follows
          exact ⟨fits, bounded, [], taken, .idle, reads, by simpa using flow⟩
  | consumer =>
      rw [pending] at reads
      cases reads with
      | answered enough =>
          rename_i numInputSamples used
          obtain ⟨most, few⟩ := numOutputSamples_le sampleRate used numInputSamples
          simp only [follow, OutputStep.resume] at follows
          split at follows
          · have left : (numOutputSamples sampleRate used numInputSamples).toNat ≤
                atomic.object.length := by omega
            cases follows
            exact ⟨fits, bounded, written, [], writes, .counted (by omega) left, flow⟩
          · cases follows
            exact ⟨fits, bounded_concat bounded (Nat.zero_le _), written, [], writes, .idle,
              by simpa using flow⟩
      | read few length =>
          rename_i num
          subst length
          simp only [follow, OutputStep.resume, if_true, List.take_left] at follows
          cases follows
          exact ⟨fits, bounded_concat bounded few, written, [], writes, .idle, by simpa using flow⟩

theorem Linked.next (h : Linked sampleRate cap atomic link)
    {action : AtomicAction Endpoint (Call Int16)}
    {after : Atomic (List Int16) Endpoint (Call Int16) (Result Int16)}
    {events : List (Seen Int16)} (taken : Atomic.next (queueCall cap) atomic action =
      some (after, events)) {last : LinkStep}
    (follows : events.foldlM (follow sampleRate requests) link = some last) :
    Linked sampleRate cap after last := by
  cases action with
  | call party call =>
      simp only [Atomic.next] at taken
      split at taken
      · rename_i pending
        cases taken
        simp only [List.foldlM_cons, List.foldlM_nil, bind_pure] at follows
        exact h.call pending follows
      · cases taken
  | takeEffect party =>
      simp only [Atomic.next] at taken
      split at taken
      · rename_i call pending
        cases taken
        cases follows
        exact h.takeEffect pending
      · cases taken
  | answer party =>
      simp only [Atomic.next] at taken
      split at taken
      · rename_i answer pending
        cases taken
        simp only [List.foldlM_cons, List.foldlM_nil, bind_pure] at follows
        exact h.answer pending follows
      · cases taken

theorem Reads.nothing {queue : List Int16} {output : OutputStep}
    {pending : Pending (Call Int16) (Result Int16)} {taken : List Int16}
    (reads : Reads sampleRate queue output pending taken) (idle : output = .idle) : taken = [] := by
  subst idle
  cases reads
  rfl

theorem Writes.prefix_inFlight {input : InputStep}
    {pending : Pending (Call Int16) (Result Int16)} {written : List Int16}
    (writes : Writes input pending written) : written <+: input.inFlight := by
  cases writes with
  | idle => exact List.prefix_refl _
  | called => exact List.nil_prefix
  | accepted => exact List.prefix_refl _
  | refused => exact List.nil_prefix

/-! ## The threads on the FIFO -/

/-- Whatever the accesses of the two threads do to each other: the output step returns, in order and
never more than a second at a time, the samples that the input step could write, and at most what
the FIFO holds is still on its way when it is idle. -/
theorem output_returns_the_input (numSamples : Nat) (positive : 1 ≤ numSamples) (sampleRate : Nat)
    (requests : Nat → Int) (buf : Nat → Int16) (outputSamples : List Int16)
    {history : List (Seen Int16)} {clients : Clients Int16} {link : LinkStep}
    (run : Traces (clientNext numSamples) (.initial buf) history clients)
    (follows : history.foldlM (follow sampleRate requests) (.initial outputSamples) = some link) :
    link.returned.flatten <+: link.accepted ++ link.input.inFlight ∧
      (∀ block ∈ link.returned, block.length ≤ sampleRate) ∧
      (link.output = .idle →
        link.accepted.length ≤ link.returned.flatten.length + (numSamples - 1)) := by
  obtain ⟨g, -, atomicRun⟩ := Consistent.atomic_run positive run
  have linked : Linked sampleRate (capacity numSamples) (clients.atomic numSamples g) link :=
    atomicRun.followed (Linked sampleRate (capacity numSamples)) (Linked.initial outputSamples)
      (fun _ _ _ _ _ _ h taken further => h.next taken further) follows
  obtain ⟨written, taken, writes, reads, flow⟩ := linked.flow
  refine ⟨?_, linked.bounded, ?_⟩
  · have front : link.returned.flatten <+: link.accepted ++ written := ⟨_, flow⟩
    exact front.trans ((List.prefix_append_right_inj _).mpr writes.prefix_inFlight)
  · intro idle
    have nothing := reads.nothing idle
    have fits := linked.fits
    have lengths := congrArg List.length flow
    simp only [nothing, List.nil_append, List.length_append, capacity] at lengths fits
    omega

/-- Two samples are written while the output step, which is asked for one, has already counted none;
its next call returns one of them. -/
theorem output_returns_the_input_of_overlap :
    ∃ (history : List (Seen Int16)) (clients : Clients Int16) (link : LinkStep),
      Traces (clientNext 4) (.initial fun _ => 0) history clients ∧
      history.foldlM (follow 8000 fun _ => 1) (.initial [9]) = some link ∧
      link.returned = [[], [7]] ∧
      link.returned.flatten <+: link.accepted ++ link.input.inFlight ∧
      (∀ block ∈ link.returned, block.length ≤ 8000) ∧
      (link.output = .idle → link.accepted.length ≤ link.returned.flatten.length + (4 - 1)) := by
  let actions : List (ClientAction Int16) :=
    [.ask .consumer .numUsed, .askStep .consumer, .write [7, 8]] ++
      List.replicate 5 .writerStep ++ [.askStep .consumer] ++
      [.ask .consumer .numUsed, .askStep .consumer, .askStep .consumer, .read 1] ++
      List.replicate 5 .readerStep
  have executed :
      (runEvents (clientNext 4) (.initial fun _ => 0) actions).map Prod.fst =
        some [.call .consumer .numUsed, .call .producer (.write [7, 8]),
          .answer .producer ⟨0, []⟩, .answer .consumer ⟨0, []⟩, .call .consumer .numUsed,
          .answer .consumer ⟨2, []⟩, .call .consumer (.read 1), .answer .consumer ⟨0, [7]⟩] := rfl
  obtain ⟨⟨history, clients⟩, run, seen⟩ := Option.map_eq_some_iff.mp executed
  have runs := Traces.of_runEvents actions run
  dsimp only at seen
  subst seen
  refine ⟨_, clients, ⟨.idle, .idle, [7], 2, [7, 8], [[], [7]]⟩, runs, rfl, rfl, ?_⟩
  exact output_returns_the_input 4 (by decide) 8000 (fun _ => 1) _ [9] runs rfl

end LinkStep

end FreeDV.Pipeline
