import FreeDV.Util.GenericFifoSequentialProperties

/-!
# The FIFO as its users see it

A pipeline step that owns a `GenericFIFO` uses it as a queue of at most
`nelem - 1` elements. The operations here are those of the queue; the FIFO
answers them in the same way.
-/

set_option autoImplicit false

namespace FreeDV.Util.GenericFifo

/-- A FIFO of `nelem` slots, by what is in it. -/
@[ext] structure Queue (α : Type) (nelem : Nat) where
  elements : List α
  fits : elements.length ≤ capacity nelem
deriving DecidableEq

namespace Queue

variable {α : Type} {nelem : Nat}

/-- A new or a reset FIFO. -/
def empty : Queue α nelem := ⟨[], Nat.zero_le _⟩

def numUsed (queue : Queue α nelem) : Nat := queue.elements.length

def numFree (queue : Queue α nelem) : Nat := capacity nelem - queue.numUsed

theorem fits_append {queue : Queue α nelem} {data : List α}
    (room : data.length ≤ queue.numFree) :
    (queue.elements ++ data).length ≤ capacity nelem := by
  have fits := queue.fits
  rw [numFree, numUsed] at room
  rw [List.length_append]
  omega

theorem fits_drop (queue : Queue α nelem) (len : Nat) :
    (queue.elements.drop len).length ≤ capacity nelem := by
  have fits := queue.fits
  rw [List.length_drop]
  omega

/-- `write`, which takes all of the elements or none. -/
def write (queue : Queue α nelem) (data : List α) : Option (Queue α nelem) :=
  if room : data.length ≤ queue.numFree then some ⟨queue.elements ++ data, fits_append room⟩
  else none

/-- `read`, which gives all of the elements asked for or none. -/
def read (queue : Queue α nelem) (len : Nat) : Option (List α × Queue α nelem) :=
  if len ≤ queue.numUsed then
    some (queue.elements.take len, ⟨queue.elements.drop len, queue.fits_drop len⟩)
  else none

/-- The queue behind a `write` whose result is not looked at. -/
def writeAny (queue : Queue α nelem) (data : List α) : Queue α nelem :=
  (queue.write data).getD queue

@[simp] theorem elements_empty : (empty : Queue α nelem).elements = [] := rfl

theorem numUsed_le (queue : Queue α nelem) : queue.numUsed ≤ capacity nelem := queue.fits

theorem numUsed_add_numFree (queue : Queue α nelem) :
    queue.numUsed + queue.numFree = capacity nelem := by
  have fits := queue.numUsed_le
  rw [numFree]
  omega

theorem write_of_le {queue : Queue α nelem} {data : List α} (room : data.length ≤ queue.numFree) :
    queue.write data = some ⟨queue.elements ++ data, fits_append room⟩ :=
  dif_pos room

theorem write_eq_some {queue after : Queue α nelem} {data : List α}
    (written : queue.write data = some after) :
    data.length ≤ queue.numFree ∧ after.elements = queue.elements ++ data := by
  by_cases room : data.length ≤ queue.numFree
  · rw [write_of_le room] at written
    cases written
    exact ⟨room, rfl⟩
  · rw [write, dif_neg room] at written
    cases written

theorem elements_writeAny {queue : Queue α nelem} {data : List α}
    (room : data.length ≤ queue.numFree) :
    (queue.writeAny data).elements = queue.elements ++ data := by
  rw [writeAny, write_of_le room, Option.getD_some]

theorem writeAny_of_full {queue : Queue α nelem} {data : List α}
    (full : ¬ data.length ≤ queue.numFree) : queue.writeAny data = queue := by
  rw [writeAny, write, dif_neg full, Option.getD_none]

theorem read_of_le {queue : Queue α nelem} {len : Nat} (enough : len ≤ queue.numUsed) :
    queue.read len =
      some (queue.elements.take len, ⟨queue.elements.drop len, queue.fits_drop len⟩) :=
  if_pos enough

theorem read_of_lt {queue : Queue α nelem} {len : Nat} (missing : queue.numUsed < len) :
    queue.read len = none :=
  if_neg (Nat.not_le_of_lt missing)

theorem read_eq_some {queue after : Queue α nelem} {len : Nat} {result : List α}
    (done : queue.read len = some (result, after)) :
    len ≤ queue.numUsed ∧ result = queue.elements.take len ∧
      after.elements = queue.elements.drop len := by
  by_cases enough : len ≤ queue.numUsed
  · rw [read_of_le enough] at done
    cases done
    exact ⟨enough, rfl, rfl⟩
  · rw [read_of_lt (Nat.lt_of_not_le enough)] at done
    cases done

theorem sublist_writeAny (queue : Queue α nelem) (data : List α) :
    (queue.writeAny data).elements.Sublist (queue.elements ++ data) := by
  by_cases room : data.length ≤ queue.numFree
  · rw [elements_writeAny room]
  · rw [writeAny_of_full room]
    exact List.sublist_append_left _ _

/-- Whether a write fits depends on counts only. -/
theorem numUsed_writeAny {queue queue' : Queue α nelem} {data data' : List α}
    (used : queue.numUsed = queue'.numUsed) (length : data.length = data'.length) :
    (queue.writeAny data).numUsed = (queue'.writeAny data').numUsed := by
  have free : queue.numFree = queue'.numFree := by rw [numFree, numFree, used]
  rw [numUsed, numUsed] at used
  by_cases room : data.length ≤ queue.numFree
  · have room' : data'.length ≤ queue'.numFree := by rwa [← length, ← free]
    rw [numUsed, numUsed, elements_writeAny room, elements_writeAny room', List.length_append,
      List.length_append, used, length]
  · have full : ¬ data'.length ≤ queue'.numFree := by rwa [← length, ← free]
    rw [writeAny_of_full room, writeAny_of_full full]
    exact used

theorem sublist_getD_read (queue : Queue α nelem) (len : Nat) :
    ((queue.read len).getD ([], queue)).2.elements.Sublist queue.elements := by
  by_cases enough : len ≤ queue.numUsed
  · rw [read_of_le enough]
    exact List.drop_sublist _ _
  · rw [read_of_lt (Nat.lt_of_not_le enough)]
    exact List.Sublist.refl _

theorem getD_read_append (queue : Queue α nelem) (len : Nat) :
    ((queue.read len).getD ([], queue)).1 ++ ((queue.read len).getD ([], queue)).2.elements =
      queue.elements := by
  by_cases enough : len ≤ queue.numUsed
  · rw [read_of_le enough]
    exact List.take_append_drop _ _
  · rw [read_of_lt (Nat.lt_of_not_le enough)]
    rfl

/-- What a read that may fail gives and leaves, in numbers. -/
theorem getD_read_counts {queue queue' : Queue α nelem} (used : queue.numUsed = queue'.numUsed)
    (len : Nat) :
    ((queue.read len).getD ([], queue)).1.length = ((queue'.read len).getD ([], queue')).1.length ∧
      ((queue.read len).getD ([], queue)).2.numUsed =
        ((queue'.read len).getD ([], queue')).2.numUsed := by
  by_cases enough : len ≤ queue.numUsed
  · have enough' : len ≤ queue'.numUsed := used ▸ enough
    rw [numUsed, numUsed] at used
    simp only [read_of_le enough, read_of_le enough', Option.getD_some, numUsed, List.length_take,
      List.length_drop, used, and_self]
  · have missing : ¬ len ≤ queue'.numUsed := used ▸ enough
    simp only [read_of_lt (Nat.lt_of_not_le enough), read_of_lt (Nat.lt_of_not_le missing),
      Option.getD_none]
    exact ⟨trivial, used⟩

/-! ## Filling up -/

/-- Writes as much of the data as there is room for, and gives back the rest. -/
def fill (queue : Queue α nelem) (data : List α) : Queue α nelem × List α :=
  let samplesToWrite := min queue.numFree data.length
  (queue.writeAny (data.take samplesToWrite), data.drop samplesToWrite)

theorem elements_fill (queue : Queue α nelem) (data : List α) :
    (queue.fill data).1.elements =
      queue.elements ++ data.take (min queue.numFree data.length) := by
  apply elements_writeAny
  rw [List.length_take]
  omega

theorem fill_append (queue : Queue α nelem) (data : List α) :
    (queue.fill data).1.elements ++ (queue.fill data).2 = queue.elements ++ data := by
  rw [elements_fill, List.append_assoc, fill, List.take_append_drop]

theorem fill_rest (queue : Queue α nelem) (data : List α) :
    (queue.fill data).2 = [] ∨ (queue.fill data).1.numUsed = capacity nelem := by
  by_cases all : data.length ≤ queue.numFree
  · left
    rw [fill, Nat.min_eq_right all, List.drop_length]
  · right
    have whole := queue.numUsed_add_numFree
    rw [numUsed, elements_fill, List.length_append, List.length_take]
    rw [numUsed] at whole
    omega

/-- What is there or arrives can be read, if the FIFO can hold it at all. -/
theorem read_fill {queue : Queue α nelem} {data : List α} {len : Nat} (fits : len ≤ capacity nelem)
    (enough : len ≤ (queue.elements ++ data).length) :
    ∃ after, (queue.fill data).1.read len = some ((queue.elements ++ data).take len, after) ∧
      after.elements ++ (queue.fill data).2 = (queue.elements ++ data).drop len := by
  have whole := queue.fill_append data
  have there : len ≤ (queue.fill data).1.elements.length := by
    rcases queue.fill_rest data with none | full
    · rw [none, List.append_nil] at whole
      rwa [whole]
    · rw [← numUsed, full]
      exact fits
  rw [← whole, List.take_append_of_le_length there, List.drop_append_of_le_length there]
  exact ⟨_, read_of_le there, rfl⟩

theorem read_fill_none {queue : Queue α nelem} {data : List α} {len : Nat} (fits : len ≤ capacity nelem)
    (missing : (queue.elements ++ data).length < len) :
    (queue.fill data).1.read len = none ∧ (queue.fill data).2 = [] := by
  have whole := congrArg List.length (queue.fill_append data)
  rw [List.length_append] at whole
  constructor
  · apply read_of_lt
    rw [numUsed]
    omega
  · rcases queue.fill_rest data with none | full
    · exact none
    · rw [numUsed] at full
      omega

/-! ## The FIFO behind the queue -/

/-- The answer of an operation, in the terms of the FIFO. -/
def call (queue : Queue α nelem) : Call α → Result α × List α
  | .write data =>
      match queue.write data with
      | some after => (⟨0, []⟩, after.elements)
      | none => (⟨-1, []⟩, queue.elements)
  | .read len =>
      match queue.read len with
      | some (result, after) => (⟨0, result⟩, after.elements)
      | none => (⟨-1, []⟩, queue.elements)
  | .reset => (⟨0, []⟩, (empty : Queue α nelem).elements)
  | .numUsed => (⟨queue.numUsed, []⟩, queue.elements)
  | .numFree => (⟨queue.numFree, []⟩, queue.elements)

theorem call_eq (queue : Queue α nelem) (call : Call α) :
    queue.call call = queueCall (capacity nelem) queue.elements call := by
  cases call with
  | write data =>
      by_cases room : data.length ≤ queue.numFree
      · simp only [Queue.call, write_of_le room, queueCall]
        exact (if_pos room).symm
      · simp only [Queue.call, write, room, dite_false, queueCall]
        exact (if_neg room).symm
  | read len =>
      by_cases enough : len ≤ queue.numUsed
      · simp only [Queue.call, read_of_le enough, queueCall]
        exact (if_pos enough).symm
      · simp only [Queue.call, read_of_lt (Nat.lt_of_not_le enough), queueCall]
        exact (if_neg enough).symm
  | reset => rfl
  | numUsed => rfl
  | numFree =>
      have fits := queue.fits
      simp only [Queue.call, queueCall, numFree, numUsed, Int.ofNat_sub fits]

/-- The FIFO does what the queue does, for each call that is not a stale read. -/
theorem fifo_agrees (positive : 0 < nelem) {fifo : Fifo α} {queue : Queue α nelem} (call : Call α)
    (represents : ∃ popped, Represents nelem fifo queue.elements popped)
    (fresh : staleRead nelem fifo call = false) :
    (fifo.call nelem call).1 = (queue.call call).1 ∧
      ∃ popped, Represents nelem (fifo.call nelem call).2 (queue.call call).2 popped := by
  rw [call_eq]
  exact call_agrees positive call represents fresh

end Queue

end FreeDV.Util.GenericFifo
