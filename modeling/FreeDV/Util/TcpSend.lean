import FreeDV.Util.TcpHandlerSteps
import Mathlib.Algebra.Order.Ring.Int

/-!
# The write loop of a TCP connection

`sendImpl_` waits until the socket can be written, writes what it takes and goes
on with the rest. The results of `select`, `write` and `SSL_write` and the flags
the loop loads are the answers of its environment; every other step is its own.
-/

set_option autoImplicit false

namespace FreeDV.Util.TcpSend

open TcpHandler (SslError)

/-- The calls of `sendImpl_` whose answer it waits for. -/
inductive Point where
  | select
  | write
  -- the loop around `sslWrite_`, with its last result
  | sslWrite (numWritten : Int)
  -- `select` on the read set, behind a want-read
  | waitRead (numWritten : Int)
  | returned
deriving DecidableEq

structure State where
  buf : List UInt8
  point : Point
  -- the bytes the socket or the TLS layer took, and the disconnect tasks queued
  accepted : List UInt8
  disconnects : Nat
deriving DecidableEq

inductive Answer where
  -- the result of `select`, `cancelConnect_`, and whether TLS is used and `ssl_` is set
  | select (rv : Int) (cancelConnect : Bool) (tls : Bool)
  | write (rv : Int)
  -- `ssl_` at the head of the loop, the result of `sslWrite_`, and whether the socket is valid
  | sslWrite (present : Bool) (rv : Int) (sslErr : SslError) (socketValid : Bool)
  | waitRead (rv : Int) (cancelConnect : Bool)
deriving DecidableEq

/-- `while (length > 0)`. -/
def loop (s : State) : State :=
  { s with point := if s.buf = [] then .returned else .select }

def start (socketValid : Bool) (buf : List UInt8) : State :=
  if socketValid then loop ⟨buf, .select, [], 0⟩ else ⟨buf, .returned, [], 0⟩

/-- `enqueue_` of `disconnectImpl_`. -/
def enqueueDisconnect (s : State) : State := { s with disconnects := s.disconnects + 1 }

/-- The layer takes the first `count` bytes it was given. -/
def accept (s : State) (count : Nat) : State :=
  { s with accepted := s.accepted ++ s.buf.take count }

/-- The branches over `numWritten` behind a write. -/
def afterWrite (s : State) (numWritten : Int) : State :=
  if 0 < numWritten then loop { s with buf := s.buf.drop numWritten.toNat }
  else { enqueueDisconnect s with point := .returned }

def selectStep (s : State) (rv : Int) (cancelConnect tls : Bool) : State :=
  if rv = 0 ∧ cancelConnect = true then { s with point := .returned }
  else if 0 < rv then { s with point := if tls then .sslWrite 0 else .write }
  else if rv < 0 then loop (enqueueDisconnect s)
  else loop s

def sslWriteStep (s : State) (numWritten : Int) (present : Bool) (rv : Int) (sslErr : SslError)
    (socketValid : Bool) : State :=
  if present = false then afterWrite s numWritten
  else if 0 ≤ rv then afterWrite (accept s rv.toNat) rv
  else if sslErr = .wantWrite then loop s
  else if sslErr = .wantRead ∧ socketValid = true then { s with point := .waitRead rv }
  else afterWrite s rv

def waitReadStep (s : State) (numWritten rv : Int) (cancelConnect : Bool) : State :=
  if rv = 0 ∧ cancelConnect = true then afterWrite s numWritten
  else { s with point := .sslWrite numWritten }

/-- One answer. Neither `write` nor `SSL_write` takes more than it was given. -/
def next (s : State) (answer : Answer) : Option State :=
  match s.point, answer with
  | .select, .select rv cancelConnect tls => some (selectStep s rv cancelConnect tls)
  | .write, .write rv =>
      if rv ≤ s.buf.length then some (afterWrite (accept s rv.toNat) rv) else none
  | .sslWrite numWritten, .sslWrite present rv sslErr socketValid =>
      if rv ≤ s.buf.length then some (sslWriteStep s numWritten present rv sslErr socketValid)
      else none
  | .waitRead numWritten, .waitRead rv cancelConnect =>
      some (waitReadStep s numWritten rv cancelConnect)
  | _, _ => none

/-- The state behind a sequence of answers. -/
def run (s : State) (answers : List Answer) : Option State := answers.foldlM next s

namespace Answer

/-- A negative result of one of the two calls of `select`. -/
def selectFailed : Answer → Bool
  | .select rv _ _ => rv < 0
  | .waitRead rv _ => rv < 0
  | _ => false

/-- A write that returned zero or a fatal negative value. -/
def writeFailed : Answer → Bool
  | .write rv => rv ≤ 0
  | .sslWrite present rv sslErr socketValid =>
      present && (rv = 0 || rv < 0 && sslErr ≠ .wantWrite &&
        !(sslErr = .wantRead && socketValid))
  | _ => false

def failing (answer : Answer) : Bool := answer.selectFailed || answer.writeFailed

end Answer

/-- At the first failing answer the loop stops with one disconnect task queued. -/
def StopsAtFirstFailure (first : State) (answers : List Answer) : Prop :=
  ∀ before answer after, answers = before ++ answer :: after →
    (∀ earlier ∈ before, earlier.failing = false) → answer.failing = true →
    ∃ s, run first (before ++ [answer]) = some s ∧ s.point = .returned ∧ s.disconnects = 1

/-- The first failing answer, if any, is the one of a write. -/
def WriteFailsFirst (answers : List Answer) : Prop :=
  ∀ answer, answers.find? Answer.failing = some answer → answer.selectFailed = false

/-! ## What a step does -/

/-- The four calls, each with its answer. -/
theorem next_cases {s after : State} {answer : Answer} (taken : next s answer = some after) :
    (∃ rv cancelConnect tls, s.point = .select ∧ answer = .select rv cancelConnect tls ∧
      after = selectStep s rv cancelConnect tls) ∨
    (∃ rv, s.point = .write ∧ answer = .write rv ∧ rv ≤ s.buf.length ∧
      after = afterWrite (accept s rv.toNat) rv) ∨
    (∃ numWritten present rv sslErr socketValid, s.point = .sslWrite numWritten ∧
      answer = .sslWrite present rv sslErr socketValid ∧ rv ≤ s.buf.length ∧
      after = sslWriteStep s numWritten present rv sslErr socketValid) ∨
    ∃ numWritten rv cancelConnect, s.point = .waitRead numWritten ∧
      answer = .waitRead rv cancelConnect ∧ after = waitReadStep s numWritten rv cancelConnect := by
  unfold next at taken
  split at taken
  · rename_i rv cancelConnect tls point
    exact .inl ⟨rv, cancelConnect, tls, point, rfl, (Option.some.inj taken).symm⟩
  · rename_i rv point
    split at taken
    · rename_i bounded
      exact .inr (.inl ⟨rv, point, rfl, bounded, (Option.some.inj taken).symm⟩)
    · cases taken
  · rename_i numWritten present rv sslErr socketValid point
    split at taken
    · rename_i bounded
      exact .inr (.inr (.inl ⟨numWritten, present, rv, sslErr, socketValid, point, rfl, bounded,
        (Option.some.inj taken).symm⟩))
    · cases taken
  · rename_i numWritten rv cancelConnect point
    exact .inr (.inr (.inr ⟨numWritten, rv, cancelConnect, point, rfl,
      (Option.some.inj taken).symm⟩))
  · cases taken

theorem afterWrite_of_nonpos (s : State) {numWritten : Int} (failed : numWritten ≤ 0) :
    afterWrite s numWritten = { enqueueDisconnect s with point := .returned } :=
  if_neg (not_lt.mpr failed)

/-- What was accepted and what is left make up the buffer; the inner loop holds no count of
its own. -/
structure Sound (buf : List UInt8) (s : State) : Prop where
  complete : s.accepted ++ s.buf = buf
  pending : s.point = .select → s.buf ≠ []
  sslWrite : ∀ numWritten, s.point = .sslWrite numWritten → numWritten ≤ 0
  waitRead : ∀ numWritten, s.point = .waitRead numWritten → numWritten ≤ 0

theorem Sound.loop {buf : List UInt8} {s : State} (complete : s.accepted ++ s.buf = buf) :
    Sound buf (loop s) := by
  by_cases empty : s.buf = []
  · exact ⟨complete, by simp [TcpSend.loop, empty], by simp [TcpSend.loop, empty],
      by simp [TcpSend.loop, empty]⟩
  · exact ⟨complete, fun _ => empty, by simp [TcpSend.loop, empty], by simp [TcpSend.loop, empty]⟩

theorem Sound.start (socketValid : Bool) (buf : List UInt8) : Sound buf (start socketValid buf) := by
  cases socketValid with
  | false => exact ⟨rfl, by simp [TcpSend.start], by simp [TcpSend.start], by simp [TcpSend.start]⟩
  | true => exact Sound.loop rfl

theorem Sound.returned {buf : List UInt8} {s : State} (complete : s.accepted ++ s.buf = buf) :
    Sound buf { s with point := .returned } :=
  ⟨complete, by simp, by simp, by simp⟩

theorem Sound.failedWrite {buf : List UInt8} {s : State} (complete : s.accepted ++ s.buf = buf)
    {numWritten : Int} (failed : numWritten ≤ 0) : Sound buf (afterWrite s numWritten) := by
  rw [afterWrite_of_nonpos s failed]
  exact Sound.returned complete

theorem Sound.acceptedWrite {buf : List UInt8} {s : State} (complete : s.accepted ++ s.buf = buf)
    (count : Int) : Sound buf (afterWrite (accept s count.toNat) count) := by
  by_cases positive : 0 < count
  · rw [afterWrite, if_pos positive]
    apply Sound.loop
    simpa [accept] using complete
  · have none : count.toNat = 0 := by omega
    apply Sound.failedWrite _ (not_lt.mp positive)
    simpa [accept, none] using complete

theorem Sound.next {buf : List UInt8} {s after : State} {answer : Answer} (sound : Sound buf s)
    (taken : next s answer = some after) : Sound buf after := by
  rcases next_cases taken with ⟨rv, cancelConnect, tls, point, rfl, rfl⟩ | ⟨rv, point, rfl, -, rfl⟩ |
    ⟨numWritten, present, rv, sslErr, socketValid, point, rfl, -, rfl⟩ |
    ⟨numWritten, rv, cancelConnect, point, rfl, rfl⟩
  · unfold selectStep
    split_ifs
    · exact Sound.returned sound.complete
    · exact ⟨sound.complete, by simp, by simp [eq_comm], by simp⟩
    · exact ⟨sound.complete, by simp, by simp, by simp⟩
    · exact Sound.loop sound.complete
    · exact Sound.loop sound.complete
  · exact Sound.acceptedWrite sound.complete rv
  · have count := sound.sslWrite numWritten point
    unfold sslWriteStep
    split_ifs with absent positive
    · exact Sound.failedWrite sound.complete count
    · exact Sound.acceptedWrite sound.complete rv
    · exact Sound.loop sound.complete
    · refine ⟨sound.complete, by simp, by simp, ?_⟩
      rintro _ ⟨⟩
      omega
    · exact Sound.failedWrite sound.complete (by omega)
  · have count := sound.waitRead numWritten point
    unfold waitReadStep
    split_ifs
    · exact Sound.failedWrite sound.complete count
    · refine ⟨sound.complete, by simp, ?_, by simp⟩
      rintro _ ⟨⟩
      exact count

/-! ## Disconnect tasks -/

/-- No disconnect task is queued while the loop goes on. -/
def Quiet (s : State) : Prop := s.point ≠ .returned → s.disconnects = 0

theorem Quiet.afterWrite {s : State} (none : s.disconnects = 0) (numWritten : Int) :
    Quiet (afterWrite s numWritten) := by
  by_cases positive : 0 < numWritten
  · rw [TcpSend.afterWrite, if_pos positive]
    exact fun _ => none
  · rw [afterWrite_of_nonpos s (not_lt.mp positive)]
    exact fun going => absurd rfl going

theorem Quiet.next {s after : State} {answer : Answer} (quiet : Quiet s)
    (fine : answer.failing = false) (taken : next s answer = some after) : Quiet after := by
  rcases next_cases taken with ⟨rv, cancelConnect, tls, point, rfl, rfl⟩ | ⟨rv, point, rfl, -, rfl⟩ |
    ⟨numWritten, present, rv, sslErr, socketValid, point, rfl, -, rfl⟩ |
    ⟨numWritten, rv, cancelConnect, point, rfl, rfl⟩ <;>
    have none : s.disconnects = 0 := quiet (by simp [point])
  · have nonneg : 0 ≤ rv := by
      simpa [Answer.failing, Answer.selectFailed, Answer.writeFailed] using fine
    unfold selectStep
    split_ifs
    all_goals first | exact fun _ => none | omega
  · exact Quiet.afterWrite (s := accept s rv.toNat) none rv
  · unfold sslWriteStep
    split_ifs
    · exact Quiet.afterWrite none numWritten
    · exact Quiet.afterWrite (s := accept s rv.toNat) none rv
    · exact fun _ => none
    · exact fun _ => none
    · exact Quiet.afterWrite none rv
  · unfold waitReadStep
    split_ifs
    · exact Quiet.afterWrite none numWritten
    · exact fun _ => none

theorem next_of_writeFailed {s after : State} {answer : Answer} (failed : answer.writeFailed = true)
    (taken : next s answer = some after) :
    after.point = .returned ∧ after.disconnects = s.disconnects + 1 := by
  rcases next_cases taken with ⟨rv, cancelConnect, tls, point, rfl, rfl⟩ | ⟨rv, point, rfl, -, rfl⟩ |
    ⟨numWritten, present, rv, sslErr, socketValid, point, rfl, -, rfl⟩ |
    ⟨numWritten, rv, cancelConnect, point, rfl, rfl⟩
  · cases failed
  · have nonpos : rv ≤ 0 := by simpa [Answer.writeFailed] using failed
    rw [afterWrite_of_nonpos _ nonpos]
    exact ⟨rfl, rfl⟩
  · obtain ⟨set, result⟩ : present = true ∧ (rv = 0 ∨ (rv < 0 ∧ ¬ sslErr = .wantWrite) ∧
        (¬ sslErr = .wantRead ∨ socketValid = false)) := by
      simpa [Answer.writeFailed] using failed
    rcases result with zero | ⟨⟨negative, notWrite⟩, notRead⟩
    · subst zero
      simp only [sslWriteStep, set, Bool.true_eq_false, if_false, le_refl, if_true]
      rw [afterWrite_of_nonpos _ (le_refl 0)]
      exact ⟨rfl, rfl⟩
    · have fatal : ¬ (sslErr = .wantRead ∧ socketValid = true) := by
        rintro ⟨wantRead, valid⟩
        exact notRead.elim (fun other => other wantRead) (by simp [valid])
      simp only [sslWriteStep, set, Bool.true_eq_false, not_le.mpr negative, notWrite, fatal,
        if_false]
      rw [afterWrite_of_nonpos _ negative.le]
      exact ⟨rfl, rfl⟩
  · cases failed

theorem next_of_selectFailed {buf : List UInt8} {s after : State} {answer : Answer}
    (sound : Sound buf s) (failed : answer.selectFailed = true)
    (taken : next s answer = some after) : after.point ≠ .returned := by
  rcases next_cases taken with ⟨rv, cancelConnect, tls, point, rfl, rfl⟩ | ⟨rv, point, rfl, -, rfl⟩ |
    ⟨numWritten, present, rv, sslErr, socketValid, point, rfl, -, rfl⟩ |
    ⟨numWritten, rv, cancelConnect, point, rfl, rfl⟩
  · have negative : rv < 0 := by simpa [Answer.selectFailed] using failed
    have left : (enqueueDisconnect s).buf ≠ [] := sound.pending point
    simp [selectStep, negative, negative.ne, not_lt.mpr negative.le, TcpSend.loop, left]
  · cases failed
  · cases failed
  · have negative : rv < 0 := by simpa [Answer.selectFailed] using failed
    simp [waitReadStep, negative.ne]

/-! ## Runs -/

theorem run_append (s : State) (first second : List Answer) :
    run s (first ++ second) = (run s first).bind fun s => run s second :=
  List.foldlM_append

theorem run_singleton (s : State) (answer : Answer) : run s [answer] = next s answer := by
  cases taken : next s answer <;> simp [run, taken]

theorem Sound.run {buf : List UInt8} {first last : State} (sound : Sound buf first)
    (answers : List Answer) (executed : run first answers = some last) : Sound buf last := by
  induction answers generalizing first with
  | nil =>
      cases executed
      exact sound
  | cons answer rest ih =>
      obtain ⟨s, taken, further⟩ := Option.bind_eq_some_iff.mp executed
      exact ih (sound.next taken) further

theorem Quiet.run {first last : State} (quiet : Quiet first) (answers : List Answer)
    (fine : ∀ answer ∈ answers, answer.failing = false) (executed : run first answers = some last) :
    Quiet last := by
  induction answers generalizing first with
  | nil =>
      cases executed
      exact quiet
  | cons answer rest ih =>
      obtain ⟨s, taken, further⟩ := Option.bind_eq_some_iff.mp executed
      obtain ⟨fine, fineRest⟩ := List.forall_mem_cons.mp fine
      exact ih (quiet.next fine taken) fineRest further

theorem quiet_start (socketValid : Bool) (buf : List UInt8) : Quiet (start socketValid buf) := by
  cases socketValid <;> exact fun _ => rfl

/-- An executed run that contains an answer was in the state in which it arrived. -/
theorem run_split {first last : State} {before after : List Answer} {answer : Answer}
    (executed : run first (before ++ answer :: after) = some last) :
    ∃ s s', run first before = some s ∧ next s answer = some s' ∧
      run first (before ++ [answer]) = some s' := by
  rw [run_append] at executed
  obtain ⟨s, reached, further⟩ := Option.bind_eq_some_iff.mp executed
  obtain ⟨s', taken, -⟩ := Option.bind_eq_some_iff.mp further
  refine ⟨s, s', reached, taken, ?_⟩
  rw [run_append, reached, Option.bind_some, run_singleton, taken]

theorem stopsAtFirstFailure_iff {buf : List UInt8} {first last : State} (sound : Sound buf first)
    (quiet : Quiet first) {answers : List Answer} (executed : run first answers = some last) :
    StopsAtFirstFailure first answers ↔ WriteFailsFirst answers := by
  constructor
  · intro stops answer found
    obtain ⟨failing, before, after, rfl, fine⟩ := List.find?_eq_some_iff_append.mp found
    obtain ⟨s, s', reached, taken, behind⟩ := run_split executed
    obtain ⟨stopped, ended, point, -⟩ := stops before answer after rfl
      (fun earlier member => by simpa using fine earlier member) failing
    cases behind.symm.trans ended
    by_contra failed
    exact next_of_selectFailed (sound.run before reached) (by simpa using failed) taken point
  · rintro writes before answer after rfl fine failing
    obtain ⟨s, s', reached, taken, behind⟩ := run_split executed
    have found : (before ++ answer :: after).find? Answer.failing = some answer :=
      List.find?_eq_some_iff_append.mpr
        ⟨failing, before, after, rfl, fun earlier member => by simp [fine earlier member]⟩
    have failed : answer.writeFailed = true := by
      simpa [Answer.failing, writes answer found] using failing
    obtain ⟨point, disconnects⟩ := next_of_writeFailed failed taken
    have going : s.point ≠ .returned := by
      intro returned
      simp [next, returned] at taken
    refine ⟨s', behind, point, ?_⟩
    rw [disconnects, quiet.run before fine reached going]

/-- The bytes accepted are always a prefix of the buffer. The loop stops at the first failing
result, with one disconnect task queued, exactly if that result is not one of `select`. -/
theorem sendImpl_stops_iff (socketValid : Bool) (buf : List UInt8) (answers : List Answer)
    (last : State) (executed : run (start socketValid buf) answers = some last) :
    last.accepted <+: buf ∧
      (StopsAtFirstFailure (start socketValid buf) answers ↔ WriteFailsFirst answers) :=
  ⟨⟨last.buf, ((Sound.start socketValid buf).run answers executed).complete⟩,
    stopsAtFirstFailure_iff (Sound.start socketValid buf) (quiet_start socketValid buf) executed⟩

/-- A partial write, then a failing one. -/
theorem sendImpl_stops_at_failing_write :
    let answers : List Answer :=
      [.select 1 false false, .write 2, .select 1 false false, .write (-1)]
    run (start true [1, 2, 3]) answers = some ⟨[3], .returned, [1, 2], 1⟩ ∧
      ([1, 2] : List UInt8) <+: [1, 2, 3] ∧
      (StopsAtFirstFailure (start true [1, 2, 3]) answers ↔ WriteFailsFirst answers) := by
  intro answers
  have executed : run (start true [1, 2, 3]) answers = some ⟨[3], .returned, [1, 2], 1⟩ := by
    decide
  exact ⟨executed, sendImpl_stops_iff true [1, 2, 3] answers _ executed⟩

theorem run_failing_selects (byte : UInt8) (buf : List UInt8) (count : Nat) :
    run (start true (byte :: buf)) (List.replicate count (.select (-1) false false)) =
      some ⟨byte :: buf, .select, [], count⟩ := by
  induction count with
  | zero => rfl
  | succ count ih =>
      rw [List.replicate_succ', run_append, ih, Option.bind_some, run_singleton]
      rfl

/-- While `select` keeps failing, the loop queues one disconnect after the other. -/
theorem sendImpl_does_not_stop_at_failed_select :
    let answers : List Answer := [.select (-1) false false, .select (-1) false false]
    run (start true [1]) answers = some ⟨[1], .select, [], 2⟩ ∧
      ¬ StopsAtFirstFailure (start true [1]) answers := by
  refine ⟨run_failing_selects 1 [] 2, fun stops => ?_⟩
  obtain ⟨s, ended, point, -⟩ := stops [] (.select (-1) false false) [.select (-1) false false] rfl
    (by simp) (by decide)
  cases (run_failing_selects 1 [] 1).symm.trans ended
  cases point

/-! ## The send task of the connection handler -/

/-- Where the worker of the handler is. An emptied buffer is noticed at the next `select`. -/
def Models (s : State) (h : TcpHandler.State) : Prop :=
  match s.point with
  | .select => h.worker = .sendSelect s.buf
  | .returned => h.worker = .idle ∨ h.worker = .sendSelect []
  | _ => h.worker = .sendWrite s.buf

/-- The flags in the answer are those of the handler. -/
def Loads (h : TcpHandler.State) : Answer → Prop
  | .select _ cancelConnect _ => cancelConnect = h.cancelConnect
  | .write _ => True
  | .sslWrite present _ _ _ => present = true → h.ssl.isSome = true
  | .waitRead _ cancelConnect => cancelConnect = h.cancelConnect

/-- The handler gets from one state to the other in at most one step, queueing some closes. -/
def Follows (h h' : TcpHandler.State) (closes : Nat) : Prop :=
  (h' = h ∨ ∃ action, TcpHandler.next h action = some h') ∧
    h'.queue = h.queue ++ List.replicate closes .close

theorem models_loop {s : State} {h : TcpHandler.State} (worker : h.worker = .sendSelect s.buf) :
    Models (loop s) h := by
  by_cases empty : s.buf = []
  · rw [empty] at worker
    simpa [Models, loop, empty] using .inr worker
  · simpa [Models, loop, empty] using worker

theorem failed_follows {s : State} {h : TcpHandler.State} (worker : h.worker = .sendWrite s.buf)
    {numWritten : Int} (failed : numWritten ≤ 0) :
    ∃ h', Models (afterWrite s numWritten) h' ∧ Follows h h' 1 := by
  refine ⟨TcpHandler.enqueue { h with worker := .idle } .close, ?_, .inr ⟨.sendWrite .failed, ?_⟩, rfl⟩
  · rw [afterWrite_of_nonpos s failed]
    exact .inl rfl
  · simp [TcpHandler.next, TcpHandler.sendWrite, worker]

theorem wrote_follows {s : State} {h : TcpHandler.State} (worker : h.worker = .sendWrite s.buf)
    {rv : Int} (bounded : rv ≤ s.buf.length) :
    ∃ h' closes, Models (afterWrite (accept s rv.toNat) rv) h' ∧ Follows h h' closes ∧
      (afterWrite (accept s rv.toNat) rv).disconnects = s.disconnects + closes := by
  by_cases positive : 0 < rv
  · obtain ⟨count, same⟩ : ∃ count, rv.toNat = count + 1 := ⟨rv.toNat - 1, by omega⟩
    rw [afterWrite, if_pos positive, same]
    refine ⟨{ h with worker := .sendSelect (s.buf.drop (count + 1)) }, 0, models_loop rfl,
      ⟨.inr ⟨.sendWrite (.wrote (count + 1)), ?_⟩, by simp⟩, rfl⟩
    have fits : count < s.buf.length := by omega
    simp [TcpHandler.next, TcpHandler.sendWrite, worker, fits]
  · obtain ⟨h', models, follows⟩ :=
      failed_follows (s := accept s rv.toNat) worker (not_lt.mp positive)
    refine ⟨h', 1, models, follows, ?_⟩
    rw [afterWrite_of_nonpos _ (not_lt.mp positive)]
    rfl

theorem select_follows {s : State} {h : TcpHandler.State} (pending : s.buf ≠ [])
    (worker : h.worker = .sendSelect s.buf) (rv : Int) (tls : Bool) :
    ∃ h' closes, Models (selectStep s rv h.cancelConnect tls) h' ∧ Follows h h' closes ∧
      (selectStep s rv h.cancelConnect tls).disconnects = s.disconnects + closes := by
  obtain ⟨byte, rest, buf⟩ := List.exists_cons_of_ne_nil pending
  rw [buf] at worker
  unfold selectStep
  split_ifs with abandoned ready usesTls negative
  · refine ⟨{ h with worker := .idle }, 0, .inl rfl, ⟨.inr ⟨.sendSelect .timeout, ?_⟩, by simp⟩, rfl⟩
    simp [TcpHandler.next, TcpHandler.sendSelect, worker, abandoned.2]
  · refine ⟨{ h with worker := .sendWrite s.buf }, 0, rfl, ⟨.inr ⟨.sendSelect .ready, ?_⟩, by simp⟩,
      rfl⟩
    simp [TcpHandler.next, TcpHandler.sendSelect, worker, buf]
  · refine ⟨{ h with worker := .sendWrite s.buf }, 0, rfl, ⟨.inr ⟨.sendSelect .ready, ?_⟩, by simp⟩,
      rfl⟩
    simp [TcpHandler.next, TcpHandler.sendSelect, worker, buf]
  · refine ⟨TcpHandler.enqueue h .close, 1, models_loop (worker.trans (by rw [← buf]; rfl)),
      ⟨.inr ⟨.sendSelect .failed, ?_⟩, rfl⟩, rfl⟩
    simp [TcpHandler.next, TcpHandler.sendSelect, worker]
  · exact ⟨h, 0, models_loop (worker.trans (by rw [← buf])), ⟨.inl rfl, by simp⟩, rfl⟩

/-- Each step of the loop is at most one step of the handler's send task, with the same
disconnects queued. -/
theorem next_follows {buf : List UInt8} {s after : State} {answer : Answer} {h : TcpHandler.State}
    (sound : Sound buf s) (models : Models s h) (loads : Loads h answer)
    (taken : next s answer = some after) :
    ∃ h' closes, Models after h' ∧ Follows h h' closes ∧
      after.disconnects = s.disconnects + closes := by
  have same : ∀ {s' : State}, Models s' h → s'.disconnects = s.disconnects →
      ∃ h' closes, Models s' h' ∧ Follows h h' closes ∧ s'.disconnects = s.disconnects + closes :=
    fun models none => ⟨h, 0, models, ⟨.inl rfl, by simp⟩, none⟩
  have failed : ∀ {numWritten : Int}, h.worker = .sendWrite s.buf → numWritten ≤ 0 →
      ∃ h' closes, Models (afterWrite s numWritten) h' ∧ Follows h h' closes ∧
        (afterWrite s numWritten).disconnects = s.disconnects + closes := by
    intro numWritten worker nonpos
    obtain ⟨h', models, follows⟩ := failed_follows worker nonpos
    exact ⟨h', 1, models, follows, by rw [afterWrite_of_nonpos s nonpos]; rfl⟩
  rcases next_cases taken with ⟨rv, cancelConnect, tls, point, rfl, rfl⟩ |
    ⟨rv, point, rfl, bounded, rfl⟩ |
    ⟨numWritten, present, rv, sslErr, socketValid, point, rfl, bounded, rfl⟩ |
    ⟨numWritten, rv, cancelConnect, point, rfl, rfl⟩
  all_goals simp only [Models, point] at models
  · cases loads
    exact select_follows (sound.pending point) models rv tls
  · exact wrote_follows models bounded
  · unfold sslWriteStep
    split_ifs with absent nonneg wantWrite wantRead
    · exact failed models (sound.sslWrite _ point)
    · exact wrote_follows models bounded
    · refine ⟨{ h with worker := .sendSelect s.buf }, 0, models_loop rfl,
        ⟨.inr ⟨.sendWrite .wantWrite, ?_⟩, by simp⟩, rfl⟩
      simp [TcpHandler.next, TcpHandler.sendWrite, models, loads (by simpa using absent)]
    · exact same models rfl
    · exact failed models (by omega)
  · unfold waitReadStep
    split_ifs with abandoned
    · exact failed models (sound.waitRead _ point)
    · exact same models rfl

end FreeDV.Util.TcpSend
