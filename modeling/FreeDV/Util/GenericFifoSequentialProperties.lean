import FreeDV.Lib.Simulation
import FreeDV.Util.GenericFifoProperties
import FreeDV.Util.GenericFifoSequential

/-!
# A bounded queue

In one thread the FIFO is a queue of capacity `nelem - 1`, until a read meets a
`pinCache_` whose generation number has come round again. On the other side the
number may come round as well: an old `poutCache_` still bounds the free space
from below, since the indices start at zero after a reset.
-/

set_option autoImplicit false

namespace FreeDV.Util.GenericFifo

open FreeDV.Lib

variable {α : Type} {n popped : Nat} {fifo : Fifo α} {queue : List α}

/-! ## Copies -/

theorem copyIn_eq_writeFrom {buf : Nat → α} {idx position : Nat} {data : List α}
    (slots : ∀ k < data.length, (position + k) % n = idx + k) :
    copyIn buf idx data = Ring.writeFrom n buf position data := by
  induction data generalizing buf idx position with
  | nil => rfl
  | cons element rest ih =>
      have first : position % n = idx := slots 0 (Nat.succ_pos _)
      rw [copyIn, Ring.writeFrom, first]
      apply ih
      intro k below
      have later := slots (k + 1) (Nat.succ_lt_succ below)
      rw [Nat.add_right_comm, Nat.add_assoc, later]
      omega

theorem copyOut_eq_readFrom {buf : Nat → α} {idx position count : Nat}
    (slots : ∀ k < count, (position + k) % n = idx + k) :
    copyOut buf idx count = Ring.readFrom n buf position count := by
  apply List.map_congr_left
  intro k member
  rw [slots k (List.mem_range.mp member)]

theorem slots_split (position : Nat) {len : Nat} (positive : 0 < n) (small : len < n) :
    (∀ k < min len (n - position % n), (position + k) % n = position % n + k) ∧
      ∀ k < len - min len (n - position % n),
        (position + min len (n - position % n) + k) % n = 0 + k := by
  have below := Nat.mod_lt position positive
  constructor
  · intro k inside
    rw [Ring.slot_add positive (by omega), if_pos (by omega)]
  · intro k inside
    rw [Nat.add_assoc, Ring.slot_add positive (by omega), if_neg (by omega)]
    omega

theorem accessed_below {idx len : Nat} (below : idx < n) (small : len < n) :
    (∀ index ∈ idx :: List.range' idx (min len (n - idx)), index < n) ∧
      ∀ index ∈ List.range (len - min len (n - idx)), index < n := by
  constructor
  · intro index member
    rcases List.mem_cons.mp member with same | inside
    · omega
    · have bounds := List.mem_range'_1.mp inside
      omega
  · intro index member
    have bound := List.mem_range.mp member
    omega

theorem copies_in_eq (buf : Nat → α) (position : Nat) (data : List α) (positive : 0 < n)
    (small : data.length < n) :
    let numToCopy := min data.length (n - position % n)
    copyIn (copyIn buf (position % n) (data.take numToCopy)) 0 (data.drop numToCopy) =
      Ring.writeFrom n buf position data := by
  intro numToCopy
  obtain ⟨front, back⟩ := slots_split position positive small
  have taken : (data.take numToCopy).length = numToCopy :=
    List.length_take_of_le (Nat.min_le_left _ _)
  have first : copyIn buf (position % n) (data.take numToCopy) =
      Ring.writeFrom n buf position (data.take numToCopy) :=
    copyIn_eq_writeFrom fun k inside => front k (by rwa [taken] at inside)
  conv_rhs => rw [← List.take_append_drop numToCopy data, Ring.writeFrom_append, taken, ← first]
  apply copyIn_eq_writeFrom
  intro k inside
  rw [List.length_drop] at inside
  exact back k inside

theorem copies_out_eq (buf : Nat → α) (position : Nat) {len : Nat} (positive : 0 < n)
    (small : len < n) :
    let numToCopy := min len (n - position % n)
    copyOut buf (position % n) numToCopy ++ copyOut buf 0 (len - numToCopy) =
      Ring.readFrom n buf position len := by
  intro numToCopy
  obtain ⟨front, back⟩ := slots_split position positive small
  have whole : numToCopy + (len - numToCopy) = len := Nat.add_sub_of_le (Nat.min_le_left _ _)
  conv_rhs => rw [← whole, Ring.readFrom_add]
  rw [copyOut_eq_readFrom front, copyOut_eq_readFrom back]

theorem store_eq (fifo : Fifo α) (position : Nat) (data : List α) (positive : 0 < n)
    (small : data.length < n) :
    ∃ accessed, (∀ index ∈ accessed, index < n) ∧
      fifo.store n (position % n) data =
        ((position + data.length) % n,
          { fifo with
            buf := Ring.writeFrom n fifo.buf position data
            accessed := fifo.accessed ++ accessed }) := by
  obtain ⟨front, back⟩ := accessed_below (Nat.mod_lt position positive) small
  have copies := copies_in_eq fifo.buf position data positive small
  rw [← advance_eq positive small, ← copies]
  unfold Fifo.store advance
  dsimp only
  split
  case isTrue wraps =>
    rw [List.length_drop, List.append_assoc]
    refine ⟨_, ?_, rfl⟩
    intro index member
    exact (List.mem_append.mp member).elim (front index) (back index)
  case isFalse inside =>
    have all : data.drop (min data.length (n - position % n)) = [] :=
      List.drop_eq_nil_of_le (by omega)
    rw [all]
    exact ⟨_, front, rfl⟩

theorem fetch_eq (fifo : Fifo α) (position : Nat) {len : Nat} (positive : 0 < n)
    (small : len < n) :
    ∃ accessed, (∀ index ∈ accessed, index < n) ∧
      fifo.fetch n (position % n) len =
        ((position + len) % n, Ring.readFrom n fifo.buf position len,
          { fifo with accessed := fifo.accessed ++ accessed }) := by
  obtain ⟨front, back⟩ := accessed_below (Nat.mod_lt position positive) small
  have copies := copies_out_eq fifo.buf position positive small
  rw [← advance_eq positive small, ← copies]
  unfold Fifo.fetch advance
  dsimp only
  split
  case isTrue wraps =>
    rw [List.append_assoc]
    refine ⟨_, ?_, rfl⟩
    intro index member
    exact (List.mem_append.mp member).elim (front index) (back index)
  case isFalse inside =>
    have all : len - min len (n - position % n) = 0 := by omega
    rw [all, copyOut, copyOut, List.range_zero, List.map_nil, List.append_nil]
    exact ⟨_, front, rfl⟩

theorem fetch_frame (fifo : Fifo α) (idx len : Nat) :
    ∃ accessed, (fifo.fetch n idx len).2.2 = { fifo with accessed := accessed } := by
  unfold Fifo.fetch
  dsimp only
  split <;> exact ⟨_, rfl⟩

/-! ## What the FIFO stands for -/

/-- A `poutCache_` of the current generation stands for a position that `pin_` has not reached
and that lies within the capacity. -/
structure Bounds (n : Nat) (fifo : Fifo α) (pushed popped : Nat) : Prop where
  inside : fifo.poutCache.index < n
  limit : fifo.poutCache.generation = fifo.pin.generation →
    ∃ barrier, fifo.poutCache.index = barrier % n ∧ pushed < barrier ∧ barrier ≤ popped + n

/-- The FIFO holds `queue`, of which the first element was the `popped`-th since the reset. -/
structure Represents (n : Nat) (fifo : Fifo α) (queue : List α) (popped : Nat) : Prop where
  unlocked : fifo.resetting = false
  generation : fifo.pin.generation = fifo.pout.generation
  pinIndex : fifo.pin.index = (popped + queue.length) % n
  poutIndex : fifo.pout.index = popped % n
  fits : queue.length < n
  content : Ring.Stores n fifo.buf popped queue
  bounds : Bounds n fifo (popped + queue.length) popped
  accessed : ∀ index ∈ fifo.accessed, index < n

theorem Represents.computeUsed_eq (represents : Represents n fifo queue popped) (positive : 0 < n) :
    computeUsed n fifo.pin fifo.pout = some queue.length := by
  have pin : fifo.pin = ⟨fifo.pout.generation, (popped + queue.length) % n⟩ := by
    rw [← represents.generation, ← represents.pinIndex]
  have pout : fifo.pout = ⟨fifo.pout.generation, popped % n⟩ := by
    rw [← represents.poutIndex]
  have fits := represents.fits
  rw [pin, pout, GenericFifo.computeUsed_eq positive (by omega) (by omega)]
  congr 1
  omega

theorem Represents.not_resetting (represents : Represents n fifo queue popped) :
    ¬ fifo.resetting = true := by
  rw [represents.unlocked]
  exact Bool.false_ne_true

theorem Represents.hasRoom_eq (represents : Represents n fifo queue popped) (positive : 0 < n) (len : Nat) :
    hasRoom n fifo.pin fifo.pout len = decide (queue.length + len < n) := by
  rw [hasRoom, represents.computeUsed_eq positive, decide_eq_decide]
  omega

theorem Represents.hasElements_eq (represents : Represents n fifo queue popped) (positive : 0 < n) (len : Nat) :
    hasElements n fifo.pin fifo.pout len = decide (len ≤ queue.length) := by
  rw [hasElements, represents.computeUsed_eq positive, decide_eq_decide]
  omega

theorem Bounds.of_hasRoom {pushed len : Nat} (positive : 0 < n)
    (bounds : Bounds n fifo pushed popped) (order : popped ≤ pushed)
    (pinIndex : fifo.pin.index = pushed % n)
    (room : hasRoom n fifo.pin fifo.poutCache len = true) :
    pushed + len < popped + n ∧ Bounds n fifo (pushed + len) popped := by
  obtain ⟨same, spec⟩ := hasRoom_spec positive room
  obtain ⟨barrier, index, before, within⟩ := bounds.limit same.symm
  -- seen from the barrier, `pin_` is one turn ahead
  have turned : fifo.pin.index = (pushed + n) % n := by rw [pinIndex, Nat.add_mod_right]
  have ahead := spec (pushed + n) barrier (by omega) (by omega) turned index
  exact ⟨by omega, bounds.inside, fun _ => ⟨barrier, index, by omega, within⟩⟩

theorem Represents.loadedBounds (represents : Represents n fifo queue popped) (positive : 0 < n)
    {pushed : Nat} (fits : pushed < popped + n) :
    Bounds n { fifo with poutCache := fifo.pout } pushed popped := by
  constructor
  · rw [represents.poutIndex]
    exact Nat.mod_lt popped positive
  · intro _
    refine ⟨popped + n, ?_, fits, Nat.le_refl _⟩
    rw [represents.poutIndex, Nat.add_mod_right]

theorem Represents.setPoutCache (represents : Represents n fifo queue popped) {poutCache : Pos}
    (bounds : Bounds n { fifo with poutCache := poutCache } (popped + queue.length) popped) :
    Represents n { fifo with poutCache := poutCache } queue popped :=
  { represents with bounds := bounds }

/-! ## Writing -/

/-- `canWrite_` lets a write through exactly if it fits, and leaves a `poutCache_` that is good for
what the write adds. -/
theorem Represents.canWrite (represents : Represents n fifo queue popped) (positive : 0 < n)
    (len : Nat) :
    ∃ poutCache, Represents n { fifo with poutCache := poutCache } queue popped ∧
      if queue.length + len < n then
        fifo.canWrite n len = (some fifo.pin, { fifo with poutCache := poutCache }) ∧
          Bounds n { fifo with poutCache := poutCache } (popped + queue.length + len) popped
      else fifo.canWrite n len = (none, { fifo with poutCache := poutCache }) := by
  have actual := represents.hasRoom_eq positive len
  have fits := represents.fits
  unfold Fifo.canWrite
  rw [if_neg represents.not_resetting]
  dsimp only
  by_cases cached : hasRoom n fifo.pin fifo.poutCache len = true
  · obtain ⟨room, bounds⟩ := represents.bounds.of_hasRoom positive (Nat.le_add_right _ _)
      represents.pinIndex cached
    refine ⟨fifo.poutCache, represents, ?_⟩
    rw [if_pos cached, if_pos (by omega)]
    exact ⟨rfl, bounds⟩
  · refine ⟨fifo.pout, represents.setPoutCache (represents.loadedBounds positive (by omega)), ?_⟩
    rw [if_neg cached, actual]
    by_cases room : queue.length + len < n
    · have within : popped + queue.length + len < popped + n := by omega
      rw [if_pos room, if_pos (decide_eq_true room)]
      exact ⟨rfl, represents.loadedBounds positive within⟩
    · rw [if_neg room, if_neg (by simpa using room)]

theorem Represents.write_eq (represents : Represents n fifo queue popped) (positive : 0 < n)
    (data : List α) :
    ∃ poutCache, Represents n { fifo with poutCache := poutCache } queue popped ∧
      if queue.length + data.length < n then
        Bounds n { fifo with poutCache := poutCache } (popped + queue.length + data.length) popped ∧
          ∃ accessed, (∀ index ∈ accessed, index < n) ∧
            fifo.write n data = (0, { fifo with
              poutCache := poutCache
              buf := Ring.writeFrom n fifo.buf (popped + queue.length) data
              accessed := fifo.accessed ++ accessed
              pin := ⟨fifo.pin.generation, (popped + queue.length + data.length) % n⟩ })
      else fifo.write n data = (-1, { fifo with poutCache := poutCache }) := by
  obtain ⟨poutCache, kept, admitted⟩ := represents.canWrite positive data.length
  refine ⟨poutCache, kept, ?_⟩
  split at admitted
  case isTrue room =>
    obtain ⟨admitted, bounds⟩ := admitted
    obtain ⟨accessed, below, stored⟩ := store_eq { fifo with poutCache := poutCache }
      (popped + queue.length) data positive (by omega)
    rw [if_pos room, Fifo.write, admitted]
    dsimp only
    rw [represents.pinIndex, stored]
    exact ⟨bounds, accessed, below, if_pos rfl⟩
  case isFalse full => rw [if_neg full, Fifo.write, admitted]

theorem Represents.write (represents : Represents n fifo queue popped) (positive : 0 < n)
    (data : List α) :
    if queue.length + data.length < n then
      (fifo.write n data).1 = 0 ∧ Represents n (fifo.write n data).2 (queue ++ data) popped
    else (fifo.write n data).1 = -1 ∧ Represents n (fifo.write n data).2 queue popped := by
  obtain ⟨poutCache, kept, written⟩ := represents.write_eq positive data
  split at written
  case isTrue room =>
    obtain ⟨bounds, accessed, below, written⟩ := written
    rw [if_pos room, written]
    refine ⟨rfl, ?_⟩
    exact {
      unlocked := represents.unlocked
      generation := represents.generation
      pinIndex := by rw [List.length_append, ← Nat.add_assoc]
      poutIndex := represents.poutIndex
      fits := by rwa [List.length_append]
      content := represents.content.writeFrom_behind data (Nat.le_of_lt room)
      bounds := by
        rw [List.length_append, ← Nat.add_assoc]
        exact ⟨bounds.inside, bounds.limit⟩
      accessed := by
        intro index member
        exact (List.mem_append.mp member).elim (represents.accessed index) (below index) }
  case isFalse full =>
    rw [if_neg full, written]
    exact ⟨rfl, kept⟩

/-! ## Reading -/

theorem Represents.setPinCache (represents : Represents n fifo queue popped) (pinCache : Pos) :
    Represents n { fifo with pinCache := pinCache } queue popped :=
  { represents with bounds := ⟨represents.bounds.inside, represents.bounds.limit⟩ }

/-- Except for a stale read, `canRead_` lets a read through exactly if there are the elements. -/
theorem Represents.canRead (represents : Represents n fifo queue popped) (positive : 0 < n)
    (len : Nat) :
    fifo.canRead n len =
      if hasElements n fifo.pinCache fifo.pout len = true then (some fifo.pout, fifo)
      else (if len ≤ queue.length then some fifo.pout else none, { fifo with pinCache := fifo.pin }) := by
  have actual := represents.hasElements_eq positive len
  unfold Fifo.canRead
  rw [if_neg represents.not_resetting]
  dsimp only
  rw [actual]
  by_cases enough : len ≤ queue.length
  · simp only [enough, decide_true, if_true]
  · simp only [enough, decide_false, Bool.false_eq_true, if_false]

/-- What a read leaves in `pinCache_`. -/
def pinCacheAfter (n : Nat) (fifo : Fifo α) (len : Nat) : Pos :=
  if hasElements n fifo.pinCache fifo.pout len = true then fifo.pinCache else fifo.pin

theorem Represents.read_eq (represents : Represents n fifo queue popped) (positive : 0 < n)
    {len : Nat} (enough : len ≤ queue.length) :
    ∃ accessed, (∀ index ∈ accessed, index < n) ∧
      fifo.read n len = (0, queue.take len, { fifo with
        pinCache := pinCacheAfter n fifo len
        accessed := fifo.accessed ++ accessed
        pout := ⟨fifo.pout.generation, (popped + len) % n⟩ }) := by
  have admitted : fifo.canRead n len =
      (some fifo.pout, { fifo with pinCache := pinCacheAfter n fifo len }) := by
    rw [represents.canRead positive, pinCacheAfter]
    split <;> rfl
  obtain ⟨accessed, below, fetched⟩ := fetch_eq { fifo with pinCache := pinCacheAfter n fifo len }
    popped positive (Nat.lt_of_le_of_lt enough represents.fits)
  refine ⟨accessed, below, ?_⟩
  rw [Fifo.read, admitted]
  dsimp only
  rw [represents.poutIndex, fetched]
  dsimp only
  rw [if_pos rfl, represents.content.readFrom_eq enough]

theorem Represents.read (represents : Represents n fifo queue popped) (positive : 0 < n)
    {len : Nat} (enough : len ≤ queue.length) :
    (fifo.read n len).1 = 0 ∧ (fifo.read n len).2.1 = queue.take len ∧
      Represents n (fifo.read n len).2.2 (queue.drop len) (popped + len) := by
  have fits := represents.fits
  obtain ⟨accessed, below, result⟩ := represents.read_eq positive enough
  rw [result]
  refine ⟨rfl, rfl, ?_⟩
  have behind : popped + len + (queue.drop len).length = popped + queue.length := by
    rw [List.length_drop]
    omega
  exact {
    unlocked := represents.unlocked
    generation := represents.generation
    pinIndex := by rw [behind, ← represents.pinIndex]
    poutIndex := rfl
    fits := by rw [List.length_drop]; omega
    content := represents.content.drop len
    bounds := by
      rw [behind]
      refine ⟨represents.bounds.inside, ?_⟩
      intro same
      obtain ⟨barrier, index, before, within⟩ := represents.bounds.limit same
      exact ⟨barrier, index, before, by omega⟩
    accessed := by
      intro index member
      exact (List.mem_append.mp member).elim (represents.accessed index) (below index) }

theorem Represents.read_refused (represents : Represents n fifo queue popped) (positive : 0 < n)
    {len : Nat} (missing : ¬ len ≤ queue.length)
    (uncached : ¬ hasElements n fifo.pinCache fifo.pout len = true) :
    fifo.read n len = (-1, [], { fifo with pinCache := pinCacheAfter n fifo len }) := by
  rw [Fifo.read, represents.canRead positive, if_neg uncached, if_neg missing, pinCacheAfter,
    if_neg uncached]

theorem Represents.read_stale (represents : Represents n fifo queue popped) (positive : 0 < n)
    {len : Nat} (cached : hasElements n fifo.pinCache fifo.pout len = true) :
    (fifo.read n len).1 = 0 := by
  obtain ⟨accessed, unchanged⟩ := fetch_frame (n := n) fifo fifo.pout.index len
  rw [Fifo.read, represents.canRead positive, if_pos cached]
  dsimp only
  rw [unchanged, if_pos rfl]

/-! ## Calls -/

/-- A reset rewinds the positions; whatever `poutCache_` holds lies ahead of them. -/
theorem Represents.reset (represents : Represents n fifo queue popped) (positive : 0 < n) :
    Represents n fifo.reset [] 0 where
  unlocked := rfl
  generation := rfl
  pinIndex := (Nat.zero_mod n).symm
  poutIndex := (Nat.zero_mod n).symm
  fits := positive
  content := .nil
  bounds := by
    have inside : fifo.reset.poutCache.index < n := represents.bounds.inside
    refine ⟨inside, ?_⟩
    intro _
    by_cases rewound : fifo.reset.poutCache.index = 0
    · exact ⟨n, by rw [rewound, Nat.mod_self], positive, by omega⟩
    · exact ⟨_, (Nat.mod_eq_of_lt inside).symm, Nat.pos_of_ne_zero rewound, by omega⟩
  accessed := represents.accessed

theorem Represents.numUsed (represents : Represents n fifo queue popped) (positive : 0 < n) :
    fifo.numUsed n = queue.length := by
  rw [Fifo.numUsed, represents.computeUsed_eq positive]

/-- A call that is not a stale read does what the queue does. -/
theorem call_agrees (positive : 0 < n) (call : Call α)
    (represents : ∃ popped, Represents n fifo queue popped) (fresh : staleRead n fifo call = false) :
    (fifo.call n call).1 = (queueCall (capacity n) queue call).1 ∧
      ∃ popped, Represents n (fifo.call n call).2 (queueCall (capacity n) queue call).2 popped := by
  obtain ⟨popped, represents⟩ := represents
  have fits := represents.fits
  cases call with
  | write data =>
      have written := represents.write positive data
      have same : data.length ≤ capacity n - queue.length ↔ queue.length + data.length < n := by
        rw [capacity]
        omega
      simp only [Fifo.call, queueCall, same]
      split at written
      case isTrue room =>
        obtain ⟨value, after⟩ := written
        rw [if_pos room, value]
        exact ⟨rfl, popped, after⟩
      case isFalse full =>
        obtain ⟨value, after⟩ := written
        rw [if_neg full, value]
        exact ⟨rfl, popped, after⟩
  | read len =>
      simp only [Fifo.call, queueCall]
      by_cases enough : len ≤ queue.length
      · obtain ⟨value, result, after⟩ := represents.read positive enough
        rw [if_pos enough, value, result]
        exact ⟨rfl, popped + len, after⟩
      · simp only [staleRead, represents.hasElements_eq positive, enough, decide_false,
          Bool.not_false, Bool.and_true] at fresh
        rw [if_neg enough, represents.read_refused positive enough (by rw [fresh]; decide)]
        exact ⟨rfl, popped, represents.setPinCache _⟩
  | reset => exact ⟨rfl, 0, represents.reset positive⟩
  | numUsed =>
      simp only [Fifo.call, queueCall, represents.numUsed positive]
      exact ⟨trivial, popped, represents⟩
  | numFree =>
      have free : (n : Int) - queue.length - 1 = (capacity n : Int) - queue.length := by
        rw [capacity]
        omega
      simp only [Fifo.call, queueCall, Fifo.numFree, represents.numUsed positive, free]
      exact ⟨trivial, popped, represents⟩

/-- A stale read succeeds where the queue refuses. -/
theorem call_differs (positive : 0 < n) (call : Call α)
    (represents : ∃ popped, Represents n fifo queue popped) (stale : staleRead n fifo call = true) :
    (fifo.call n call).1 ≠ (queueCall (capacity n) queue call).1 := by
  obtain ⟨popped, represents⟩ := represents
  cases call with
  | read len =>
      simp only [staleRead, represents.hasElements_eq positive, Bool.and_eq_true, Bool.not_eq_true',
        decide_eq_false_iff_not] at stale
      obtain ⟨cached, missing⟩ := stale
      have succeeds := represents.read_stale positive cached
      simp only [Fifo.call, queueCall, succeeds, if_neg missing]
      intro same
      cases congrArg Result.value same
  | write => cases stale
  | reset => cases stale
  | numUsed => cases stale
  | numFree => cases stale

theorem Represents.initial (positive : 0 < n) (buf : Nat → α) :
    Represents n (Fifo.initial buf) [] 0 where
  unlocked := rfl
  generation := rfl
  pinIndex := (Nat.zero_mod n).symm
  poutIndex := (Nat.zero_mod n).symm
  fits := positive
  content := .nil
  bounds := ⟨positive, fun _ => ⟨n, (Nat.mod_self n).symm, positive, by omega⟩⟩
  accessed := by
    intro index member
    cases member

/-- The calls of a run that are no stale reads. -/
abbrev NoStaleRead (n : Nat) (fifo : Fifo α) (calls : List (Call α)) : Prop :=
  AllSteps (Fifo.afterCall n) (fun fifo call => staleRead n fifo call = false) fifo calls

theorem outputs_eq_iff_noStaleRead (positive : 0 < n) (represents : Represents n fifo queue popped)
    (calls : List (Call α)) :
    outputs (Fifo.call n) fifo calls = outputs (queueCall (capacity n)) queue calls ↔
      NoStaleRead n fifo calls := by
  refine outputs_eq_iff (fun fifo queue => ∃ popped, Represents n fifo queue popped) ?_ ?_
    ⟨popped, represents⟩ calls
  · intro fifo queue call represents fresh
    exact call_agrees positive call represents fresh
  · intro fifo queue call represents stale
    exact call_differs positive call represents (by simpa using stale)

/-- The FIFO answers each call as a queue of capacity `nelem - 1` that starts empty, with all
indices inside of `buf`, exactly if no read is stale. -/
theorem is_a_bounded_queue_iff (nelem : Nat) (positive : 1 ≤ nelem) (buf : Nat → α)
    (calls : List (Call α)) :
    (outputs (Fifo.call nelem) (Fifo.initial buf) calls =
        outputs (queueCall (capacity nelem)) [] calls ∧
      ∀ index ∈ (calls.foldl (Fifo.afterCall nelem) (Fifo.initial buf)).accessed, index < nelem) ↔
      AllSteps (Fifo.afterCall nelem) (fun fifo call => staleRead nelem fifo call = false)
        (Fifo.initial buf) calls := by
  have start : Represents nelem (Fifo.initial buf) [] 0 := .initial positive buf
  constructor
  · intro agrees
    exact (outputs_eq_iff_noStaleRead positive start calls).mp agrees.1
  · intro fresh
    refine ⟨(outputs_eq_iff_noStaleRead positive start calls).mpr fresh, ?_⟩
    have final := fresh.invariant (fun fifo => ∃ queue popped, Represents nelem fifo queue popped)
      (fun fifo call ⟨queue, represents⟩ fresh => ⟨_, (call_agrees positive call represents fresh).2⟩)
      ⟨[], 0, start⟩
    obtain ⟨queue, popped, represents⟩ := final
    exact represents.accessed

/-- A queue of two elements, with a refused write, a wrap and a reset. -/
theorem a_queue_of_two_elements :
    (1 ≤ 3 ∧ outputs (queueCall (capacity 3)) []
        [.write [1, 2], .write [3], .read 1, .write [3], .read 2, .reset, .read 1, .numFree] =
      [⟨0, []⟩, ⟨-1, []⟩, ⟨0, [1]⟩, ⟨0, []⟩, ⟨0, [2, 3]⟩, ⟨0, []⟩, ⟨-1, []⟩, ⟨2, []⟩]) ∧
    outputs (Fifo.call 3) (Fifo.initial fun _ => 0)
        [.write [1, 2], .write [3], .read 1, .write [3], .read 2, .reset, .read 1, .numFree] =
      outputs (queueCall (capacity 3)) []
        [.write [1, 2], .write [3], .read 1, .write [3], .read 2, .reset, .read 1, .numFree] := by
  refine ⟨by decide, ?_⟩
  have fresh : AllSteps (Fifo.afterCall 3) (fun fifo call => staleRead 3 fifo call = false)
      (Fifo.initial fun _ => 0)
      [.write [1, 2], .write [3], .read 1, .write [3], .read 2, .reset, .read 1, .numFree] := by
    simp only [AllSteps]
    decide
  exact ((is_a_bounded_queue_iff 3 (by decide) (fun _ => 0) _).mpr fresh).1

/-! ## Generations -/

theorem foldl_resets (fifo : Fifo α) (count : Nat) :
    (List.replicate (count + 1) .reset).foldl (Fifo.afterCall n) fifo =
      { fifo with
        pin := ⟨fifo.pin.generation + UInt32.ofNat (count + 1), 0⟩
        pout := ⟨fifo.pin.generation + UInt32.ofNat (count + 1), 0⟩
        resetting := false } := by
  induction count generalizing fifo with
  | zero => rfl
  | succ count ih =>
      have generation : fifo.reset.pin.generation + UInt32.ofNat (count + 1) =
          fifo.pin.generation + UInt32.ofNat (count + 1 + 1) := by
        have once : fifo.reset.pin.generation = fifo.pin.generation + 1 := rfl
        rw [once, UInt32.add_assoc, UInt32.ofNat_add (count + 1) 1, UInt32.add_comm 1]
        rfl
      rw [List.replicate_succ, List.foldl_cons, Fifo.afterCall, Fifo.call, ih fifo.reset, generation]
      rfl

/-- While the resets can be counted in 32 bits: `pinCache_` is from an older generation, or stands
for a position between those of `pout_` and `pin_`. -/
structure Current (n : Nat) (fifo : Fifo α) (resets popped pushed : Nat) : Prop where
  few : resets < 2 ^ 32
  generation : fifo.pin.generation = tag resets
  pinCache : ∃ gen ≤ resets, fifo.pinCache.generation = tag gen ∧
    (gen = resets →
      ∃ cached, fifo.pinCache.index = cached % n ∧ popped ≤ cached ∧ cached ≤ pushed)

theorem Current.of_hasElements {resets len : Nat} (positive : 0 < n)
    (current : Current n fifo resets popped (popped + queue.length))
    (represents : Represents n fifo queue popped)
    (cached : hasElements n fifo.pinCache fifo.pout len = true) :
    len ≤ queue.length ∧ ∃ position, fifo.pinCache.index = position % n ∧
      popped + len ≤ position ∧ position ≤ popped + queue.length := by
  have fits := represents.fits
  obtain ⟨same, spec⟩ := hasElements_spec positive cached
  obtain ⟨gen, older, generation, index⟩ := current.pinCache
  have few := current.few
  have latest : gen = resets := by
    apply tag_injective (by omega) few
    rw [← generation, same, ← represents.generation, current.generation]
  obtain ⟨position, index, above, below⟩ := index latest
  have enough := spec position popped above (by omega) index represents.poutIndex
  exact ⟨by omega, position, index, enough, below⟩

theorem Current.read {resets len : Nat} (positive : 0 < n)
    (current : Current n fifo resets popped (popped + queue.length))
    (represents : Represents n fifo queue popped) {after : Fifo α} {popped' : Nat}
    (pin : after.pin = fifo.pin) (pinCache : after.pinCache = pinCacheAfter n fifo len)
    (least : popped' ≤ popped + len) (most : popped' ≤ popped + queue.length) :
    Current n after resets popped' (popped + queue.length) := by
  refine ⟨current.few, by rw [pin, current.generation], resets, Nat.le_refl _, ?_⟩
  rw [pinCache, pinCacheAfter]
  split
  case isTrue cached =>
    obtain ⟨-, position, index, above, below⟩ := current.of_hasElements positive represents cached
    have same := (hasElements_spec positive cached).1
    refine ⟨?_, fun _ => ⟨position, index, by omega, below⟩⟩
    rw [same, ← represents.generation, current.generation]
  case isFalse uncached =>
    exact ⟨current.generation, fun _ => ⟨_, represents.pinIndex, most, Nat.le_refl _⟩⟩

theorem Current.mono {resets pushed pushed' : Nat} (current : Current n fifo resets popped pushed)
    (order : pushed ≤ pushed') {after : Fifo α}
    (generation : after.pin.generation = fifo.pin.generation)
    (pinCache : after.pinCache = fifo.pinCache) : Current n after resets popped pushed' := by
  obtain ⟨gen, older, tagged, index⟩ := current.pinCache
  refine ⟨current.few, by rw [generation, current.generation], gen, older, by rw [pinCache, tagged], ?_⟩
  intro latest
  obtain ⟨position, index, above, below⟩ := index latest
  exact ⟨position, by rw [pinCache, index], above, Nat.le_trans below order⟩

theorem Current.reset {resets pushed : Nat} (current : Current n fifo resets popped pushed)
    (few : resets + 1 < 2 ^ 32) : Current n fifo.reset (resets + 1) 0 0 := by
  obtain ⟨gen, older, tagged, -⟩ := current.pinCache
  refine ⟨few, ?_, gen, by omega, tagged, by omega⟩
  rw [← tag_succ, ← current.generation]
  rfl

def isReset : Call α → Bool
  | .reset => true
  | _ => false

theorem Current.call {resets : Nat} (positive : 0 < n) (call : Call α)
    (current : Current n fifo resets popped (popped + queue.length))
    (represents : Represents n fifo queue popped)
    (few : resets + (if isReset call then 1 else 0) < 2 ^ 32) :
    staleRead n fifo call = false ∧ ∃ queue popped,
      Represents n (fifo.call n call).2 queue popped ∧
        Current n (fifo.call n call).2 (resets + if isReset call then 1 else 0) popped
          (popped + queue.length) := by
  cases call with
  | write data =>
      refine ⟨rfl, ?_⟩
      have written := represents.write positive data
      obtain ⟨poutCache, -, explicit⟩ := represents.write_eq positive data
      by_cases room : queue.length + data.length < n
      · rw [if_pos room] at written explicit
        obtain ⟨-, accessed, -, explicit⟩ := explicit
        refine ⟨queue ++ data, popped, written.2, ?_⟩
        simp only [Fifo.call, explicit]
        exact current.mono (by rw [List.length_append]; omega) rfl rfl
      · rw [if_neg room] at written explicit
        refine ⟨queue, popped, written.2, ?_⟩
        simp only [Fifo.call, explicit]
        exact current.mono (Nat.le_refl _) rfl rfl
  | read len =>
      have fits := represents.fits
      by_cases enough : len ≤ queue.length
      · constructor
        · simp [staleRead, represents.hasElements_eq positive, enough]
        · obtain ⟨accessed, -, explicit⟩ := represents.read_eq positive enough
          refine ⟨queue.drop len, popped + len, (represents.read positive enough).2.2, ?_⟩
          have behind : popped + len + (queue.drop len).length = popped + queue.length := by
            rw [List.length_drop]
            omega
          rw [behind]
          simp only [Fifo.call, explicit]
          exact current.read positive represents rfl rfl (Nat.le_refl _) (by omega)
      · have uncached : ¬ hasElements n fifo.pinCache fifo.pout len = true := by
          intro cached
          exact enough (current.of_hasElements positive represents cached).1
        have refused := represents.read_refused positive enough uncached
        constructor
        · simp [staleRead, uncached]
        · refine ⟨queue, popped, ?_, ?_⟩
          · simp only [Fifo.call, refused]
            exact represents.setPinCache _
          · simp only [Fifo.call, refused]
            exact current.read positive represents rfl rfl (by omega) (by omega)
  | reset => exact ⟨rfl, [], 0, represents.reset positive, current.reset few⟩
  | numUsed => exact ⟨rfl, queue, popped, represents, current⟩
  | numFree => exact ⟨rfl, queue, popped, represents, current⟩

theorem Current.noStaleRead {resets : Nat} (positive : 0 < n) (calls : List (Call α))
    (current : Current n fifo resets popped (popped + queue.length))
    (represents : Represents n fifo queue popped)
    (few : resets + calls.countP isReset < 2 ^ 32) : NoStaleRead n fifo calls := by
  induction calls generalizing fifo resets queue popped with
  | nil => trivial
  | cons call rest ih =>
      rw [List.countP_cons] at few
      obtain ⟨fresh, queue, popped, represents, current⟩ :=
        current.call positive call represents (by omega)
      exact ⟨fresh, ih current represents (by omega)⟩

/-- With fewer than `2 ^ 32` resets there is no stale read. -/
theorem noStaleRead_of_few_resets (positive : 0 < n) (buf : Nat → α) (calls : List (Call α))
    (few : calls.countP isReset < 2 ^ 32) : NoStaleRead n (Fifo.initial buf) calls := by
  have current : Current n (Fifo.initial buf) 0 0 (0 + ([] : List α).length) := by
    refine ⟨by decide, rfl, 0, Nat.le_refl _, rfl, ?_⟩
    intro _
    exact ⟨0, (Nat.zero_mod n).symm, Nat.le_refl _, Nat.zero_le _⟩
  exact current.noStaleRead positive calls (.initial positive buf) (by omega)

/-- After `2 ^ 32` resets the generation is the one `pinCache_` was loaded in. -/
theorem an_empty_queue_is_read :
    outputs (Fifo.call 2) (Fifo.initial fun _ => 0)
        ([.write [7], .read 1] ++ List.replicate (2 ^ 32) .reset ++ [.read 1]) ≠
      outputs (queueCall (capacity 2)) []
        ([.write [7], .read 1] ++ List.replicate (2 ^ 32) .reset ++ [.read 1]) := by
  intro same
  have start : Represents 2 (Fifo.initial fun _ => 0) [] 0 := .initial (by decide) _
  have fresh := (outputs_eq_iff_noStaleRead (by decide) start _).mp same
  have last := ((AllSteps.append_iff _ _ _).mp fresh).2
  rw [List.foldl_append] at last
  have rewound := foldl_resets (n := 2)
    ([.write [7], .read 1].foldl (Fifo.afterCall 2) (Fifo.initial fun _ => 0)) (2 ^ 32 - 1)
  rw [Nat.sub_add_cancel Nat.one_le_two_pow] at rewound
  rw [rewound] at last
  exact absurd last.1 (by decide)

end FreeDV.Util.GenericFifo
