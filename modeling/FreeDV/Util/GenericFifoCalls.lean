import FreeDV.Lib.Simulation
import FreeDV.Lib.Transition
import FreeDV.Util.GenericFifoSequential

/-!
# Calls as runs

The FIFO in one thread is the FIFO of several threads in those runs in which
every call returns before the next one begins: each access that a call makes is
a step, and the two `copy_n` of a transfer go through the slots one by one.
-/

set_option autoImplicit false

namespace FreeDV.Util.GenericFifo

open FreeDV.Lib

variable {α : Type} {n : Nat} {fifo : Fifo α} {s t : State α}

/-! ## Slots -/

/-- Stores elements through `slot`, from the `k`-th of `len` on. -/
def copySlots (n idx len : Nat) (buf : Nat → α) (k : Nat) : List α → Nat → α
  | [] => buf
  | element :: rest =>
      copySlots n idx len (Function.update buf (slot n idx len k) element) (k + 1) rest

theorem copySlots_append (idx len k : Nat) (buf : Nat → α) (first second : List α) :
    copySlots n idx len buf k (first ++ second) =
      copySlots n idx len (copySlots n idx len buf k first) (k + first.length) second := by
  induction first generalizing buf k with
  | nil => rfl
  | cons element rest ih =>
      rw [List.cons_append, copySlots, copySlots, ih, List.length_cons, Nat.add_right_comm,
        Nat.add_assoc]

theorem copySlots_front {idx len k : Nat} (buf : Nat → α) {data : List α}
    (inside : k + data.length ≤ min len (n - idx)) :
    copySlots n idx len buf k data = copyIn buf (idx + k) data := by
  induction data generalizing buf k with
  | nil => rfl
  | cons element rest ih =>
      rw [List.length_cons] at inside
      have first : slot n idx len k = idx + k := by
        simp only [slot]
        rw [if_pos (by omega)]
      rw [copySlots, copyIn, first, ih _ (by omega), Nat.add_assoc]

theorem copySlots_back {idx len k : Nat} (buf : Nat → α) (data : List α)
    (behind : min len (n - idx) ≤ k) :
    copySlots n idx len buf k data = copyIn buf (k - min len (n - idx)) data := by
  induction data generalizing buf k with
  | nil => rfl
  | cons element rest ih =>
      have first : slot n idx len k = k - min len (n - idx) := by
        simp only [slot]
        rw [if_neg (by omega)]
      rw [copySlots, copyIn, first, ih _ (by omega), Nat.sub_add_comm behind]

theorem copySlots_eq (idx : Nat) (buf : Nat → α) (data : List α) :
    let numToCopy := min data.length (n - idx)
    copySlots n idx data.length buf 0 data =
      copyIn (copyIn buf idx (data.take numToCopy)) 0 (data.drop numToCopy) := by
  intro numToCopy
  have taken : (data.take numToCopy).length = numToCopy :=
    List.length_take_of_le (Nat.min_le_left _ _)
  have halves := copySlots_append (n := n) idx data.length 0 buf (data.take numToCopy)
    (data.drop numToCopy)
  rw [List.take_append_drop, taken] at halves
  rw [halves, copySlots_front buf (by omega), copySlots_back _ _ (by omega)]
  congr 1
  omega

theorem store_copySlots (fifo : Fifo α) (idx : Nat) (data : List α) :
    (fifo.store n idx data).1 = advance n idx data.length ∧
      ∃ accessed, (fifo.store n idx data).2 =
        { fifo with buf := copySlots n idx data.length fifo.buf 0 data, accessed := accessed } := by
  rw [copySlots_eq]
  simp only [Fifo.store, advance]
  split
  case isTrue wraps => exact ⟨List.length_drop, _, rfl⟩
  case isFalse inside =>
    have all : data.drop (min data.length (n - idx)) = [] := List.drop_eq_nil_of_le (by omega)
    rw [all]
    exact ⟨rfl, _, rfl⟩

/-- What is read through `slot`. -/
def readSlots (n idx len : Nat) (buf : Nat → α) (count : Nat) : List α :=
  (List.range count).map fun k => buf (slot n idx len k)

theorem readSlots_eq (idx len : Nat) (buf : Nat → α) :
    let numToCopy := min len (n - idx)
    readSlots n idx len buf len = copyOut buf idx numToCopy ++ copyOut buf 0 (len - numToCopy) := by
  intro numToCopy
  have whole : numToCopy + (len - numToCopy) = len := Nat.add_sub_of_le (Nat.min_le_left _ _)
  simp only [readSlots, copyOut]
  have halves : List.range len =
      List.range numToCopy ++ (List.range (len - numToCopy)).map (numToCopy + ·) := by
    rw [← List.range_add, whole]
  rw [halves, List.map_append, List.map_map]
  congr 1
  · apply List.map_congr_left
    intro k member
    have inside := List.mem_range.mp member
    rw [slot, if_pos inside]
  · apply List.map_congr_left
    intro k _
    have behind : ¬ numToCopy + k < numToCopy := by omega
    rw [Function.comp_apply, slot, if_neg behind]
    congr 1
    omega

theorem fetch_readSlots (fifo : Fifo α) (idx len : Nat) :
    (fifo.fetch n idx len).1 = advance n idx len ∧
      (fifo.fetch n idx len).2.1 = readSlots n idx len fifo.buf len ∧
      ∃ accessed, (fifo.fetch n idx len).2.2 = { fifo with accessed := accessed } := by
  rw [readSlots_eq]
  simp only [Fifo.fetch, advance]
  split
  case isTrue wraps => exact ⟨rfl, rfl, _, rfl⟩
  case isFalse inside =>
    have all : len - min len (n - idx) = 0 := by omega
    rw [all]
    exact ⟨rfl, (List.append_nil _).symm, _, rfl⟩

/-! ## Runs -/

/-- Runs of the FIFO with several threads. -/
abbrev Runs (n : Nat) (s s' : State α) : Prop := Reachable (next n) (fun _ _ => True) s s'

/-- No call is running, and the fields are those of `fifo`. -/
structure AtRest (fifo : Fifo α) (s : State α) : Prop where
  buf : s.buf = fifo.buf
  pin : s.pin = fifo.pin
  poutCache : s.poutCache = fifo.poutCache
  pout : s.pout = fifo.pout
  pinCache : s.pinCache = fifo.pinCache
  unlocked : fifo.resetting = false
  resetting : s.resetting = false
  writer : s.writer = .idle
  reader : s.reader = .idle
  resetters : ∀ thread, s.resetters thread = .idle

theorem AtRest.initial (buf : Nat → α) : AtRest (.initial buf) (State.initial buf) :=
  ⟨rfl, rfl, rfl, rfl, rfl, rfl, rfl, rfl, rfl, fun _ => rfl⟩

theorem copy_runs {data rest : List α} {startPos : Pos} {copied : Nat} {buf : Nat → α}
    (remaining : data.drop copied = rest)
    (copying : Runs n s { t with buf := buf, writer := .copy data startPos copied }) :
    Runs n s { t with
      buf := copySlots n startPos.index data.length buf copied rest
      writer := .copy data startPos (copied + rest.length) } := by
  induction rest generalizing copied buf with
  | nil => exact copying
  | cons element rest ih =>
      have found : data[copied]? = some element := by
        rw [← List.head?_drop, remaining, List.head?_cons]
      have tail : data.drop (copied + 1) = rest := by
        rw [← List.tail_drop, remaining, List.tail_cons]
      have stored : Runs n s { t with
          buf := Function.update buf (slot n startPos.index data.length copied) element
          writer := .copy data startPos (copied + 1) } :=
        copying.step .writerStep trivial (by simp only [next, writerStep, found])
      have copied := ih tail stored
      rw [Nat.add_right_comm, Nat.add_assoc] at copied
      exact copied

theorem AtRest.commit {fifo' : Fifo α} {idx : Nat} (rest : AtRest fifo t) (data : List α)
    (stored : fifo.store n fifo.pin.index data = (idx, fifo'))
    (granted : Runs n s { t with writer := .copy data t.pin 0 }) :
    ∃ s', Runs n s s' ∧ fifo'.pin = fifo.pin ∧
      AtRest { fifo' with pin := ⟨fifo.pin.generation, idx⟩ } s' ∧
      s'.deliveries = t.deliveries ∧
      s'.committed = t.committed ++ data.map (fifo.pin.generation, ·) := by
  have copied : Runs n s { t with
      buf := copySlots n t.pin.index data.length t.buf 0 data
      writer := .copy data t.pin data.length } := by
    have all := copy_runs (List.drop_zero : data.drop 0 = data) granted
    rw [Nat.zero_add] at all
    exact all
  have behind : data[data.length]? = none := List.getElem?_eq_none (Nat.le_refl _)
  have committed : Runs n s { t with
      buf := copySlots n t.pin.index data.length t.buf 0 data
      pin := ⟨t.pin.generation, advance n t.pin.index data.length⟩
      committed := t.committed ++ data.map (t.pin.generation, ·)
      writer := .idle } :=
    copied.step .writerStep trivial (by simp only [next, writerStep, behind, if_true])
  obtain ⟨index, accessed, same⟩ := store_copySlots (n := n) fifo fifo.pin.index data
  simp only [stored] at index same
  subst idx fifo'
  refine ⟨_, committed, rfl, ?_, rfl, ?_⟩
  · rw [← rest.pin, ← rest.buf]
    exact ⟨rfl, rfl, rest.poutCache, rest.pout, rest.pinCache, rest.unlocked, rest.resetting, rfl,
      rest.reader, rest.resetters⟩
  · rw [← rest.pin]

/-- The elements of a write that returned 0. -/
def written : Call α → Result α → List α
  | .write data, ⟨value, _⟩ => if value = 0 then data else []
  | _, _ => []

/-- The length and the result of a read that returned 0. -/
def delivered : Call α → Result α → List (Nat × List α)
  | .read len, ⟨value, result⟩ => if value = 0 then [(len, result)] else []
  | _, _ => []

/-- A call from its start to its end is a run, in which it does what it does in one thread. -/
structure Follows (n : Nat) (s : State α) (call : Call α) (returned : Result α × Fifo α)
    (s' : State α) : Prop where
  runs : Runs n s s'
  rest : AtRest returned.2 s'
  committed : s'.committed.map Prod.snd = s.committed.map Prod.snd ++ written call returned.1
  deliveries : s'.deliveries = s.deliveries ++ delivered call returned.1

theorem AtRest.canWrite (rest : AtRest fifo s) (data : List α) :
    ∃ t, AtRest (fifo.canWrite n data.length).2 t ∧
      (t.committed = s.committed ∧ t.deliveries = s.deliveries) ∧
      ((fifo.canWrite n data.length).1 = none ∧ Runs n s t ∨
        (fifo.canWrite n data.length).1 = some (fifo.canWrite n data.length).2.pin ∧
          Runs n s { t with writer := .copy data t.pin 0 }) := by
  have called : Runs n s { s with writer := .loadResetting data } :=
    Reachable.start.step (.write data) trivial (by simp only [next, rest.writer])
  have unlocked : Runs n s { s with writer := .loadPin data } :=
    called.step .writerStep trivial (by simp [next, writerStep, rest.resetting])
  by_cases cached : hasRoom n fifo.pin fifo.poutCache data.length = true
  · have granted : Runs n s { s with writer := .copy data s.pin 0 } :=
      unlocked.step .writerStep trivial
        (by simp [next, writerStep, rest.pin, rest.poutCache, cached])
    have answer : fifo.canWrite n data.length = (some fifo.pin, fifo) := by
      simp [Fifo.canWrite, rest.unlocked, cached]
    rw [answer]
    exact ⟨s, rest, ⟨rfl, rfl⟩, .inr ⟨rfl, granted⟩⟩
  · have loading : Runs n s { s with writer := .loadPout data s.pin } :=
      unlocked.step .writerStep trivial
        (by simp [next, writerStep, rest.pin, rest.poutCache, cached])
    have reloaded : AtRest { fifo with poutCache := fifo.pout }
        { s with poutCache := s.pout, writer := .idle } :=
      ⟨rest.buf, rest.pin, rest.pout, rest.pout, rest.pinCache, rest.unlocked, rest.resetting, rfl,
        rest.reader, rest.resetters⟩
    by_cases fresh : hasRoom n fifo.pin fifo.pout data.length = true
    · have granted : Runs n s { s with poutCache := s.pout, writer := .copy data s.pin 0 } :=
        loading.step .writerStep trivial (by simp [next, writerStep, rest.pin, rest.pout, fresh])
      have answer : fifo.canWrite n data.length =
          (some fifo.pin, { fifo with poutCache := fifo.pout }) := by
        simp [Fifo.canWrite, rest.unlocked, cached, fresh]
      rw [answer]
      exact ⟨_, reloaded, ⟨rfl, rfl⟩, .inr ⟨rfl, granted⟩⟩
    · have refused : Runs n s { s with poutCache := s.pout, writer := .idle } :=
        loading.step .writerStep trivial (by simp [next, writerStep, rest.pin, rest.pout, fresh])
      have answer : fifo.canWrite n data.length =
          (none, { fifo with poutCache := fifo.pout }) := by
        simp [Fifo.canWrite, rest.unlocked, cached, fresh]
      rw [answer]
      exact ⟨_, reloaded, ⟨rfl, rfl⟩, .inl ⟨rfl, refused⟩⟩

theorem AtRest.write (rest : AtRest fifo s) (data : List α) :
    ∃ s', Follows n s (.write data) (fifo.call n (.write data)) s' := by
  obtain ⟨t, idle, ⟨committed, deliveries⟩, outcome⟩ := rest.canWrite (n := n) data
  simp only [Fifo.call, Fifo.write]
  generalize fifo.canWrite n data.length = granted at idle outcome
  obtain ⟨answer, fifo⟩ := granted
  dsimp only at idle outcome
  rcases outcome with ⟨refused, runs⟩ | ⟨granted, copying⟩
  · subst refused
    refine ⟨t, runs, idle, ?_, ?_⟩
    · rw [committed]
      exact (List.append_nil _).symm
    · rw [deliveries]
      exact (List.append_nil _).symm
  · subst granted
    cases stored : fifo.store n fifo.pin.index data with
    | mk idx fifo' =>
    obtain ⟨s', runs, unmoved, rest', sameDeliveries, added⟩ := idle.commit data stored copying
    simp only [stored, unmoved, if_true]
    refine ⟨s', runs, rest', ?_, ?_⟩
    · rw [added, committed, List.map_append, List.map_map]
      exact congrArg _ (List.map_id _)
    · rw [sameDeliveries, deliveries]
      exact (List.append_nil _).symm

theorem fetch_runs {startPos : Pos} {len count : Nat}
    (inside : count ≤ len) (copying : Runs n s { t with reader := .copy len startPos [] }) :
    Runs n s { t with
      reader := .copy len startPos (readSlots n startPos.index len t.buf count) } := by
  induction count with
  | zero => exact copying
  | succ count ih =>
      have before := ih (Nat.le_of_succ_le inside)
      have length : (readSlots n startPos.index len t.buf count).length = count := by
        rw [readSlots, List.length_map, List.length_range]
      have one : readSlots n startPos.index len t.buf (count + 1) =
          readSlots n startPos.index len t.buf count ++
            [t.buf (slot n startPos.index len count)] := by
        rw [readSlots, List.range_succ, List.map_append]
        rfl
      rw [one]
      apply before.step .readerStep trivial
      simp only [next, readerStep, length]
      rw [if_pos (Nat.lt_of_succ_le inside)]

theorem AtRest.deliver {fifo' : Fifo α} {idx len : Nat} {result : List α} (rest : AtRest fifo t)
    (fetched : fifo.fetch n fifo.pout.index len = (idx, result, fifo'))
    (granted : Runs n s { t with reader := .copy len t.pout [] }) :
    ∃ s', Runs n s s' ∧ fifo'.pout = fifo.pout ∧
      AtRest { fifo' with pout := ⟨fifo.pout.generation, idx⟩ } s' ∧
      s'.committed = t.committed ∧ s'.deliveries = t.deliveries ++ [(len, result)] := by
  have copied := fetch_runs (Nat.le_refl len) granted
  have length : (readSlots n t.pout.index len t.buf len).length = len := by
    rw [readSlots, List.length_map, List.length_range]
  have delivered : Runs n s { t with
      pout := ⟨t.pout.generation, advance n t.pout.index len⟩
      deliveries := t.deliveries ++ [(len, readSlots n t.pout.index len t.buf len)]
      reader := .idle } :=
    copied.step .readerStep trivial (by simp [next, readerStep, length])
  obtain ⟨index, same, accessed, kept⟩ := fetch_readSlots (n := n) fifo fifo.pout.index len
  simp only [fetched] at index same kept
  subst idx result fifo'
  refine ⟨_, delivered, rfl, ?_, rfl, ?_⟩
  · rw [← rest.pout]
    exact ⟨rest.buf, rest.pin, rest.poutCache, rfl, rest.pinCache, rest.unlocked, rest.resetting,
      rest.writer, rfl, rest.resetters⟩
  · rw [← rest.pout, ← rest.buf]

theorem AtRest.canRead (rest : AtRest fifo s) (len : Nat) :
    ∃ t, AtRest (fifo.canRead n len).2 t ∧
      (t.committed = s.committed ∧ t.deliveries = s.deliveries) ∧
      ((fifo.canRead n len).1 = none ∧ Runs n s t ∨
        (fifo.canRead n len).1 = some (fifo.canRead n len).2.pout ∧
          Runs n s { t with reader := .copy len t.pout [] }) := by
  have called : Runs n s { s with reader := .loadResetting len } :=
    Reachable.start.step (.read len) trivial (by simp only [next, rest.reader])
  have unlocked : Runs n s { s with reader := .loadPout len } :=
    called.step .readerStep trivial (by simp [next, readerStep, rest.resetting])
  by_cases cached : hasElements n fifo.pinCache fifo.pout len = true
  · have granted : Runs n s { s with reader := .copy len s.pout [] } :=
      unlocked.step .readerStep trivial
        (by simp [next, readerStep, rest.pout, rest.pinCache, cached])
    have answer : fifo.canRead n len = (some fifo.pout, fifo) := by
      simp [Fifo.canRead, rest.unlocked, cached]
    rw [answer]
    exact ⟨s, rest, ⟨rfl, rfl⟩, .inr ⟨rfl, granted⟩⟩
  · have loading : Runs n s { s with reader := .loadPin len s.pout } :=
      unlocked.step .readerStep trivial
        (by simp [next, readerStep, rest.pout, rest.pinCache, cached])
    have reloaded : AtRest { fifo with pinCache := fifo.pin }
        { s with pinCache := s.pin, reader := .idle } :=
      ⟨rest.buf, rest.pin, rest.poutCache, rest.pout, rest.pin, rest.unlocked, rest.resetting,
        rest.writer, rfl, rest.resetters⟩
    by_cases fresh : hasElements n fifo.pin fifo.pout len = true
    · have granted : Runs n s { s with pinCache := s.pin, reader := .copy len s.pout [] } :=
        loading.step .readerStep trivial (by simp [next, readerStep, rest.pin, rest.pout, fresh])
      have answer : fifo.canRead n len = (some fifo.pout, { fifo with pinCache := fifo.pin }) := by
        simp [Fifo.canRead, rest.unlocked, cached, fresh]
      rw [answer]
      exact ⟨_, reloaded, ⟨rfl, rfl⟩, .inr ⟨rfl, granted⟩⟩
    · have refused : Runs n s { s with pinCache := s.pin, reader := .idle } :=
        loading.step .readerStep trivial (by simp [next, readerStep, rest.pin, rest.pout, fresh])
      have answer : fifo.canRead n len = (none, { fifo with pinCache := fifo.pin }) := by
        simp [Fifo.canRead, rest.unlocked, cached, fresh]
      rw [answer]
      exact ⟨_, reloaded, ⟨rfl, rfl⟩, .inl ⟨rfl, refused⟩⟩

theorem AtRest.read (rest : AtRest fifo s) (len : Nat) :
    ∃ s', Follows n s (.read len) (fifo.call n (.read len)) s' := by
  obtain ⟨t, idle, ⟨committed, deliveries⟩, outcome⟩ := rest.canRead (n := n) len
  simp only [Fifo.call, Fifo.read]
  generalize fifo.canRead n len = granted at idle outcome
  obtain ⟨answer, fifo⟩ := granted
  dsimp only at idle outcome
  rcases outcome with ⟨refused, runs⟩ | ⟨granted, copying⟩
  · subst refused
    refine ⟨t, runs, idle, ?_, ?_⟩
    · rw [committed]
      exact (List.append_nil _).symm
    · rw [deliveries]
      exact (List.append_nil _).symm
  · subst granted
    cases fetched : fifo.fetch n fifo.pout.index len with
    | mk idx rest' =>
    obtain ⟨result, fifo'⟩ := rest'
    obtain ⟨s', runs, unmoved, idle', sameCommitted, added⟩ := idle.deliver fetched copying
    simp only [fetched, unmoved, if_true]
    refine ⟨s', runs, idle', ?_, ?_⟩
    · rw [sameCommitted, committed]
      exact (List.append_nil _).symm
    · rw [added, deliveries]
      rfl

theorem AtRest.reset (rest : AtRest fifo s) :
    ∃ s', Follows n s .reset (fifo.call n .reset) s' := by
  have executed : runActions (next n) (fun _ _ => True) s
      (.reset 0 :: List.replicate 5 (.resetterStep 0 false)) =
      some { s with
        pin := ⟨s.pin.generation + 1, 0⟩
        pout := ⟨s.pin.generation + 1, 0⟩
        resetting := false
        resets := s.resets + 1
        resetters := Function.update s.resetters 0 .idle } := by
    simp [runActions, next, resetterStep, rest.resetters, rest.resetting]
  have idle : Function.update s.resetters 0 .idle = s.resetters := by
    rw [← rest.resetters 0, Function.update_eq_self]
  refine ⟨_, Reachable.of_runActions _ .start executed, ?_, ?_, ?_⟩
  · simp only [Fifo.call, Fifo.reset, idle, rest.pin]
    exact ⟨rest.buf, rfl, rest.poutCache, rfl, rest.pinCache, rfl, rfl, rest.writer, rest.reader,
      rest.resetters⟩
  · exact (List.append_nil _).symm
  · exact (List.append_nil _).symm

theorem AtRest.call (rest : AtRest fifo s) (call : Call α) :
    ∃ s', Follows n s call (fifo.call n call) s' := by
  cases call with
  | write data => exact rest.write data
  | read len => exact rest.read len
  | reset => exact rest.reset
  | numUsed => exact ⟨s, .start, rest, (List.append_nil _).symm, (List.append_nil _).symm⟩
  | numFree => exact ⟨s, .start, rest, (List.append_nil _).symm, (List.append_nil _).symm⟩

theorem AtRest.calls (rest : AtRest fifo s) (calls : List (Call α)) :
    ∃ s', Runs n s s' ∧ AtRest (calls.foldl (Fifo.afterCall n) fifo) s' ∧
      s'.committed.map Prod.snd = s.committed.map Prod.snd ++
        (List.zipWith written calls (outputs (Fifo.call n) fifo calls)).flatten ∧
      s'.deliveries = s.deliveries ++
        (List.zipWith delivered calls (outputs (Fifo.call n) fifo calls)).flatten := by
  induction calls generalizing fifo s with
  | nil => exact ⟨s, .start, rest, (List.append_nil _).symm, (List.append_nil _).symm⟩
  | cons call calls ih =>
      obtain ⟨middle, first⟩ := rest.call (n := n) call
      obtain ⟨s', runs, idle, committed, deliveries⟩ := ih first.rest
      refine ⟨s', first.runs.trans runs, idle, ?_, ?_⟩
      · rw [committed, first.committed, List.append_assoc]
        rfl
      · rw [deliveries, first.deliveries, List.append_assoc]
        rfl

/-- What the calls of one thread commit and deliver, a run of the FIFO with several threads commits
and delivers, and it ends in the same positions over the same buffer. -/
theorem calls_are_a_run (n : Nat) (buf : Nat → α) (calls : List (Call α)) :
    ∃ s, Runs n (State.initial buf) s ∧
      AtRest (calls.foldl (Fifo.afterCall n) (.initial buf)) s ∧
      s.committed.map Prod.snd =
        (List.zipWith written calls (outputs (Fifo.call n) (.initial buf) calls)).flatten ∧
      s.deliveries =
        (List.zipWith delivered calls (outputs (Fifo.call n) (.initial buf) calls)).flatten :=
  (AtRest.initial buf).calls calls

end FreeDV.Util.GenericFifo
