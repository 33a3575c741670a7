import FreeDV.Lib.Ring
import FreeDV.Util.GenericFifo
import Mathlib.Data.Nat.Basic

/-!
# What a successful read delivers

Seen from `pout_`, the FIFO holds one stream of committed elements, of which a
first part was popped. A reset that has only rewound `pin_` leaves this stream
as it is, because nothing can be written until `pout_` follows. The invariant
ties both words, both caches, the copies in flight and the resets to it.
-/

set_option autoImplicit false

namespace FreeDV.Util.GenericFifo

open FreeDV.Lib

/-! ## Index arithmetic -/

theorem computeUsed_eq {n pushed popped : Nat} {generation : UInt32} (positive : 0 < n)
    (order : popped ≤ pushed) (near : pushed < popped + n) :
    computeUsed n ⟨generation, pushed % n⟩ ⟨generation, popped % n⟩ = some (pushed - popped) := by
  obtain ⟨used, rfl⟩ := Nat.exists_eq_add_of_le order
  have below := Nat.mod_lt popped positive
  have wrapped : (popped + used) % n =
      if popped % n + used < n then popped % n + used else popped % n + used - n :=
    Ring.slot_add positive (by omega)
  simp only [computeUsed, ne_eq, not_true_eq_false, if_false, wrapped, Option.some.injEq]
  split_ifs <;> omega

theorem hasRoom_spec {n len : Nat} {ppin pout : Pos} (positive : 0 < n)
    (room : hasRoom n ppin pout len = true) :
    ppin.generation = pout.generation ∧
      ∀ pushed popped, popped ≤ pushed → pushed < popped + n → ppin.index = pushed % n →
        pout.index = popped % n → pushed + len < popped + n := by
  by_cases same : ppin.generation = pout.generation
  · refine ⟨same, ?_⟩
    intro pushed popped order near pinIndex poutIndex
    have used : computeUsed n ⟨ppin.generation, pushed % n⟩ ⟨ppin.generation, popped % n⟩ =
        some (pushed - popped) := computeUsed_eq positive order near
    have pinEq : ppin = ⟨ppin.generation, pushed % n⟩ := by rw [← pinIndex]
    have poutEq : pout = ⟨ppin.generation, popped % n⟩ := by rw [same, ← poutIndex]
    rw [hasRoom, pinEq, poutEq, used] at room
    simp only [decide_not, Bool.not_eq_true', decide_eq_false_iff_not] at room
    omega
  · simp [hasRoom, computeUsed, same] at room

theorem hasElements_spec {n len : Nat} {pin ppout : Pos} (positive : 0 < n)
    (enough : hasElements n pin ppout len = true) :
    pin.generation = ppout.generation ∧
      ∀ pushed popped, popped ≤ pushed → pushed < popped + n → pin.index = pushed % n →
        ppout.index = popped % n → popped + len ≤ pushed := by
  by_cases same : pin.generation = ppout.generation
  · refine ⟨same, ?_⟩
    intro pushed popped order near pinIndex poutIndex
    have used : computeUsed n ⟨pin.generation, pushed % n⟩ ⟨pin.generation, popped % n⟩ =
        some (pushed - popped) := computeUsed_eq positive order near
    have pinEq : pin = ⟨pin.generation, pushed % n⟩ := by rw [← pinIndex]
    have poutEq : ppout = ⟨pin.generation, popped % n⟩ := by rw [same, ← poutIndex]
    rw [hasElements, pinEq, poutEq, used] at enough
    simp only [decide_not, Bool.not_eq_true', decide_eq_false_iff_not] at enough
    omega
  · simp [hasElements, computeUsed, same] at enough

theorem slot_eq {n position len k : Nat} (positive : 0 < n) (small : len < n) (inside : k < len) :
    slot n (position % n) len k = (position + k) % n := by
  have below := Nat.mod_lt position positive
  rw [Ring.slot_add positive (by omega), slot]
  split_ifs <;> omega

theorem advance_eq {n position len : Nat} (positive : 0 < n) (small : len < n) :
    advance n (position % n) len = (position + len) % n := by
  have below := Nat.mod_lt position positive
  rw [Ring.slot_add positive small, advance]
  split_ifs <;> omega

/-! ## The invariant -/

/-- The generation number as it is stored. -/
def tag (generation : Nat) : UInt32 := UInt32.ofNat generation

theorem tag_injective {first second : Nat} (firstSmall : first < 2 ^ 32)
    (secondSmall : second < 2 ^ 32) (same : tag first = tag second) : first = second := by
  have values := congrArg UInt32.toNat same
  simp only [tag, UInt32.toNat_ofNat'] at values
  omega

theorem tag_succ (generation : Nat) : tag generation + 1 = tag (generation + 1) := by
  simp [tag, UInt32.ofNat_add]

/-- What the words and caches stand for: `stream` is what was committed in the generation of
`pout_`, `older` what was committed before. -/
structure Ghost (α : Type) where
  older : List (UInt32 × α)
  stream : List α
  popped : Nat
  cachedPopped : Nat
  cachedPushed : Nat
  poutGen : Nat

variable {α : Type} {n : Nat} {s : State α} {g : Ghost α}

structure Shared (n : Nat) (s : State α) (g : Ghost α) : Prop where
  fewResets : s.resets < 2 ^ 32
  pinGeneration : s.pin.generation = tag s.resets
  poutGeneration : s.pout.generation = tag g.poutGen
  generations : s.resets = g.poutGen ∨ s.resets = g.poutGen + 1
  committed : s.committed = g.older ++ g.stream.map (tag g.poutGen, ·)
  pinIndex : s.pin.index = if s.resets = g.poutGen then g.stream.length % n else 0
  poutIndex : s.pout.index = g.popped % n
  cachedPopped_le : g.cachedPopped ≤ g.popped
  popped_le : g.popped ≤ g.cachedPushed
  cachedPushed_le : g.cachedPushed ≤ g.stream.length
  room : g.stream.length < g.cachedPopped + n
  content : Ring.Stores n s.buf g.popped (g.stream.drop g.popped)
  poutCache : ∃ gen ≤ g.poutGen, s.poutCache.generation = tag gen ∧
    (gen = g.poutGen → s.poutCache.index = g.cachedPopped % n)
  pinCache : ∃ gen ≤ s.resets, s.pinCache.generation = tag gen ∧
    (gen = g.poutGen → s.pinCache.index = g.cachedPushed % n) ∧
    (g.poutGen < gen → s.pinCache.index = 0)

/-- What the producer knows about a value it has loaded from `pin_`. -/
def LoadedPin (n : Nat) (s : State α) (g : Ghost α) (ppin : Pos) (gen : Nat) : Prop :=
  gen ≤ s.resets ∧ ppin.generation = tag gen ∧
    (gen = g.poutGen → ppin.index = g.stream.length % n) ∧ (gen = s.resets → ppin = s.pin)

/-- What the consumer knows about a value it has loaded from `pout_`. -/
def LoadedPout (s : State α) (g : Ghost α) (ppout : Pos) (gen : Nat) : Prop :=
  gen ≤ g.poutGen ∧ ppout.generation = tag gen ∧ (gen = g.poutGen → ppout = s.pout)

/-- A write in flight only touches free slots, or nothing is stored at all. -/
def WriterOk (n : Nat) (s : State α) (g : Ghost α) : Writer α → Prop
  | .loadPout _ ppin => ∃ gen, LoadedPin n s g ppin gen
  | .copy data startPos copied => copied ≤ data.length ∧
      ∃ gen ≤ g.poutGen, LoadedPin n s g startPos gen ∧
        (gen = g.poutGen → g.stream.length + data.length < g.cachedPopped + n ∧
          Ring.Stores n s.buf g.stream.length (data.take copied)) ∧
        (gen ≠ g.poutGen → g.popped = g.stream.length)
  | _ => True

/-- A read in flight has copied the front of the stream, unless its commit is bound to fail. -/
def ReaderOk (s : State α) (g : Ghost α) : Reader α → Prop
  | .loadPin _ ppout => ∃ gen, LoadedPout s g ppout gen
  | .copy len startPos result => result.length ≤ len ∧
      ∃ gen, LoadedPout s g startPos gen ∧
        (gen = g.poutGen → g.popped + len ≤ g.cachedPushed ∧
          result = (g.stream.drop g.popped).take result.length)
  | _ => True

/-- A thread that holds the reset lock, and how far the reset is. -/
def Holds (s : State α) (g : Ghost α) : Resetter → Prop
  | .idle => False
  | .locking => False
  | .loadPin => s.resets = g.poutGen
  | .storePin oldPin => s.resets = g.poutGen ∧ oldPin.generation = s.pin.generation
  | .storePout freshPos => s.resets = g.poutGen + 1 ∧ freshPos = s.pin
  | .unlock => s.resets = g.poutGen

def Resetter.outside : Resetter → Bool
  | .idle => true
  | .locking => true
  | _ => false

structure ResettersOk (s : State α) (g : Ghost α) : Prop where
  released : s.resetting = false → s.resets = g.poutGen
  holder : ∀ thread, (s.resetters thread).outside = false →
    s.resetting = true ∧ Holds s g (s.resetters thread)
  exclusive : ∀ first second, (s.resetters first).outside = false →
    (s.resetters second).outside = false → first = second

/-- A delivery and the place of its elements in the committed order. -/
structure Located (α : Type) where
  generation : UInt32
  start : Nat
  values : List α

/-- The deliveries are runs of one generation each, in order and without overlap. -/
def InOrder (committed : List (UInt32 × α)) (deliveries : List (Nat × List α))
    (located : List (Located α)) : Prop :=
  located.map (fun l => (l.values.length, l.values)) = deliveries ∧
    located.Pairwise (fun earlier later => earlier.start + earlier.values.length ≤ later.start) ∧
    ∀ l ∈ located, (committed.drop l.start).take l.values.length = l.values.map (l.generation, ·)

structure Invariant (n : Nat) (s : State α) (g : Ghost α) : Prop where
  shared : Shared n s g
  writer : WriterOk n s g s.writer
  reader : ReaderOk s g s.reader
  resetters : ResettersOk s g
  deliveries : ∃ located, InOrder s.committed s.deliveries located ∧
    ∀ l ∈ located, l.start + l.values.length ≤ g.older.length + g.popped

/-! ## Facts about the shared words -/

theorem Shared.poutGen_le (shared : Shared n s g) : g.poutGen ≤ s.resets := by
  have := shared.generations
  omega

theorem Shared.poutGen_small (shared : Shared n s g) : g.poutGen < 2 ^ 32 :=
  Nat.lt_of_le_of_lt shared.poutGen_le shared.fewResets

theorem Shared.near (shared : Shared n s g) : g.stream.length < g.popped + n :=
  Nat.lt_of_lt_of_le shared.room (Nat.add_le_add_right shared.cachedPopped_le n)

theorem Shared.loadedPin (shared : Shared n s g) : LoadedPin n s g s.pin s.resets := by
  refine ⟨le_rfl, shared.pinGeneration, ?_, fun _ => rfl⟩
  intro current
  rw [shared.pinIndex, if_pos current]

theorem Shared.loadedPout (shared : Shared n s g) : LoadedPout s g s.pout g.poutGen :=
  ⟨le_rfl, shared.poutGeneration, fun _ => rfl⟩

/-! ## Steps of the producer -/

theorem Invariant.setWriter (inv : Invariant n s g) {writer : Writer α}
    (ok : WriterOk n s g writer) : Invariant n { s with writer := writer } g :=
  ⟨{ inv.shared with }, ok, inv.reader, { inv.resetters with }, inv.deliveries⟩

theorem Shared.reloadPoutCache (shared : Shared n s g) :
    Shared n { s with poutCache := s.pout } { g with cachedPopped := g.popped } :=
  { shared with
    cachedPopped_le := le_rfl
    room := shared.near
    poutCache := ⟨g.poutGen, le_rfl, shared.poutGeneration, fun _ => shared.poutIndex⟩ }

theorem Invariant.reloadPoutCache (inv : Invariant n s g) {writer : Writer α}
    (ok : WriterOk n s { g with cachedPopped := g.popped } writer) :
    Invariant n { s with poutCache := s.pout, writer := writer }
      { g with cachedPopped := g.popped } :=
  ⟨{ inv.shared.reloadPoutCache with }, ok, inv.reader, { inv.resetters with }, inv.deliveries⟩

theorem Invariant.writer_loadPin (positive : 0 < n) (inv : Invariant n s g) (data : List α)
    (room : hasRoom n s.pin s.poutCache data.length = true) :
    WriterOk n s g (.copy data s.pin 0) := by
  obtain ⟨same, spec⟩ := hasRoom_spec positive room
  obtain ⟨gen, older, cached, cachedIndex⟩ := inv.shared.poutCache
  have bound := inv.shared.poutGen_le
  have small := inv.shared.fewResets
  rw [inv.shared.pinGeneration, cached] at same
  have current := tag_injective small (by omega) same
  have reached : g.poutGen = s.resets := by omega
  have index := inv.shared.loadedPin.2.2.1 reached.symm
  have order := inv.shared.cachedPopped_le.trans
    (inv.shared.popped_le.trans inv.shared.cachedPushed_le)
  refine ⟨Nat.zero_le _, s.resets, reached.ge, inv.shared.loadedPin, ?_, ?_⟩
  · intro _
    exact ⟨spec _ _ order inv.shared.room index (cachedIndex (by omega)), Ring.Stores.nil⟩
  · intro stale
    exact absurd reached.symm stale

theorem Invariant.writer_loadPout (positive : 0 < n) (inv : Invariant n s g) {data : List α}
    {ppin : Pos} (located : s.writer = .loadPout data ppin)
    (room : hasRoom n ppin s.pout data.length = true) :
    WriterOk n s { g with cachedPopped := g.popped } (.copy data ppin 0) := by
  have ok := inv.writer
  rw [located] at ok
  obtain ⟨gen, le, generation, index, same⟩ := ok
  obtain ⟨equal, spec⟩ := hasRoom_spec positive room
  rw [generation, inv.shared.poutGeneration] at equal
  have small := inv.shared.fewResets
  have current : gen = g.poutGen := tag_injective (by omega) inv.shared.poutGen_small equal
  refine ⟨Nat.zero_le _, gen, current.le, ⟨le, generation, index, same⟩, ?_, ?_⟩
  · intro _
    exact ⟨spec _ _ (inv.shared.popped_le.trans inv.shared.cachedPushed_le) inv.shared.near
      (index current) inv.shared.poutIndex, Ring.Stores.nil⟩
  · intro stale
    exact absurd current stale

theorem Invariant.writer_copy (positive : 0 < n) (inv : Invariant n s g) {data : List α}
    {startPos : Pos} {copied : Nat} (located : s.writer = .copy data startPos copied) {element : α}
    (found : data[copied]? = some element) :
    Invariant n
      { s with
        buf := Function.update s.buf (slot n startPos.index data.length copied) element
        writer := .copy data startPos (copied + 1) } g := by
  have ok := inv.writer
  rw [located] at ok
  obtain ⟨_, gen, le, loaded, free, stale⟩ := ok
  obtain ⟨inside, value⟩ := List.getElem?_eq_some_iff.mp found
  have extended : data.take (copied + 1) = data.take copied ++ [element] := by
    rw [List.take_add_one, found, Option.toList_some]
  by_cases current : gen = g.poutGen
  · obtain ⟨room, stored⟩ := free current
    have order := inv.shared.cachedPopped_le
    have pushed := inv.shared.popped_le.trans inv.shared.cachedPushed_le
    have position : slot n startPos.index data.length copied =
        (g.stream.length + copied) % n := by
      rw [loaded.2.2.1 current]
      exact slot_eq positive (by omega) inside
    have length : (data.take copied).length = copied :=
      List.length_take_of_le inside.le
    rw [position]
    refine ⟨{ inv.shared with content := ?_ }, ?_, inv.reader, { inv.resetters with },
      inv.deliveries⟩
    · refine inv.shared.content.update_outside element ?_ (by omega)
      rw [List.length_drop]
      omega
    · refine ⟨inside, gen, le, loaded, fun _ => ⟨room, ?_⟩, stale⟩
      have behind := stored.update_behind element (by omega)
      rwa [length, ← extended] at behind
  · have empty := stale current
    refine ⟨{ inv.shared with content := ?_ }, ?_, inv.reader, { inv.resetters with },
      inv.deliveries⟩
    · rw [List.drop_eq_nil_of_le empty.ge]
      exact Ring.Stores.nil
    · exact ⟨inside, gen, le, loaded, fun fresh => absurd fresh current, stale⟩

theorem ReaderOk.append_stream {reader : Reader α} (ok : ReaderOk s g reader)
    (shared : Shared n s g) (data : List α) :
    ReaderOk s { g with stream := g.stream ++ data } reader := by
  cases reader with
  | loadPin len ppout => exact ok
  | copy len startPos result =>
      obtain ⟨short, gen, loaded, front⟩ := ok
      refine ⟨short, gen, loaded, ?_⟩
      intro current
      obtain ⟨enough, copied⟩ := front current
      have pushed := shared.cachedPushed_le
      have inside : g.popped ≤ g.stream.length := by omega
      have covered : result.length ≤ (g.stream.drop g.popped).length := by
        rw [List.length_drop]
        omega
      refine ⟨enough, ?_⟩
      rw [List.drop_append_of_le_length inside, List.take_append_of_le_length covered]
      exact copied
  | idle => trivial
  | loadResetting len => trivial
  | loadPout len => trivial

theorem InOrder.append {committed : List (UInt32 × α)} {deliveries : List (Nat × List α)}
    {located : List (Located α)} (ordered : InOrder committed deliveries located)
    (more : List (UInt32 × α)) : InOrder (committed ++ more) deliveries located := by
  obtain ⟨values, pairwise, found⟩ := ordered
  refine ⟨values, pairwise, ?_⟩
  intro l member
  have here := found l member
  have length : l.values.length ≤ (committed.drop l.start).length := by
    have sizes := congrArg List.length here
    rw [List.length_take, List.length_map] at sizes
    omega
  by_cases inside : l.start ≤ committed.length
  · rw [List.drop_append_of_le_length inside, List.take_append_of_le_length length, here]
  · have none : l.values = [] := by
      rw [List.length_drop] at length
      exact List.length_eq_zero_iff.mp (by omega)
    simp [none]

theorem Invariant.writer_commit (positive : 0 < n) (inv : Invariant n s g) {data : List α}
    {startPos : Pos} {copied : Nat} (located : s.writer = .copy data startPos copied)
    (complete : data[copied]? = none) (unchanged : s.pin = startPos) :
    Invariant n
      { s with
        pin := ⟨startPos.generation, advance n startPos.index data.length⟩
        committed := s.committed ++ data.map (startPos.generation, ·)
        writer := .idle }
      { g with stream := g.stream ++ data } := by
  have ok := inv.writer
  rw [located] at ok
  obtain ⟨_, gen, le, loaded, free, _⟩ := ok
  have bound := inv.shared.poutGen_le
  have small := inv.shared.fewResets
  have generation : tag s.resets = tag gen := by
    rw [← inv.shared.pinGeneration, unchanged, loaded.2.1]
  have current := tag_injective small (by omega) generation
  have reached : s.resets = g.poutGen := by omega
  obtain ⟨room, stored⟩ := free (by omega)
  have order := inv.shared.cachedPopped_le
  have pushed := inv.shared.popped_le.trans inv.shared.cachedPushed_le
  have whole : data.take copied = data :=
    List.take_of_length_le (List.getElem?_eq_none_iff.mp complete)
  rw [whole] at stored
  have startGeneration : startPos.generation = tag g.poutGen := by
    rw [loaded.2.1, ← current, reached]
  refine ⟨{ inv.shared with
      pinGeneration := ?_, committed := ?_, pinIndex := ?_, cachedPushed_le := ?_, room := ?_
      content := ?_ }, trivial, ?_, ?_, ?_⟩
  · rw [loaded.2.1, ← generation]
  · simp [inv.shared.committed, startGeneration]
  · rw [if_pos reached, loaded.2.2.1 (by omega), advance_eq positive (by omega),
      List.length_append]
  · rw [List.length_append]
    exact inv.shared.cachedPushed_le.trans (Nat.le_add_right _ _)
  · rw [List.length_append]
    exact room
  · have behind : g.popped + (g.stream.drop g.popped).length = g.stream.length := by
      rw [List.length_drop]
      omega
    rw [List.drop_append_of_le_length pushed]
    exact inv.shared.content.append (behind ▸ stored)
  · exact inv.reader.append_stream inv.shared data
  · refine { inv.resetters with holder := ?_ }
    intro thread inside
    obtain ⟨locked, holds⟩ := inv.resetters.holder thread inside
    refine ⟨locked, ?_⟩
    cases phase : s.resetters thread with
    | idle => simp [phase, Resetter.outside] at inside
    | locking => simp [phase, Resetter.outside] at inside
    | loadPin => exact reached
    | storePin oldPin =>
        rw [phase] at holds
        exact ⟨reached, holds.2.trans (unchanged ▸ rfl)⟩
    | storePout freshPos =>
        rw [phase] at holds
        exact absurd holds.1 (by omega)
    | unlock => exact reached
  · obtain ⟨located, ordered, bounds⟩ := inv.deliveries
    exact ⟨located, ordered.append _, bounds⟩

/-- An access of `write` adds to the stream only when the write returns 0. -/
theorem Invariant.writerStep (positive : 0 < n) (inv : Invariant n s g) {after : State α}
    (taken : writerStep n s = some after) :
    ∃ g', Invariant n after g' ∧ g'.popped = g.popped ∧
      g'.stream = g.stream ++ if writeReturn n s = some 0 then s.writer.data else [] := by
  unfold GenericFifo.writerStep at taken
  cases phase : s.writer with
  | idle => simp [phase] at taken
  | loadResetting data =>
      simp only [phase] at taken
      split at taken
      · cases taken
        exact ⟨g, inv.setWriter trivial, rfl, by simp_all [writeReturn]⟩
      · cases taken
        exact ⟨g, inv.setWriter trivial, rfl, by simp_all [writeReturn]⟩
  | loadPin data =>
      simp only [phase] at taken
      split at taken
      · rename_i room
        cases taken
        exact ⟨g, inv.setWriter (inv.writer_loadPin positive data room), rfl,
          by simp [writeReturn, phase]⟩
      · cases taken
        exact ⟨g, inv.setWriter ⟨s.resets, inv.shared.loadedPin⟩, rfl,
          by simp [writeReturn, phase]⟩
  | loadPout data ppin =>
      simp only [phase] at taken
      split at taken
      · rename_i room
        cases taken
        exact ⟨_, inv.reloadPoutCache (inv.writer_loadPout positive phase room), rfl,
          by simp [writeReturn, phase, room]⟩
      · rename_i full
        cases taken
        exact ⟨_, inv.reloadPoutCache trivial, rfl, by simp [writeReturn, phase, full]⟩
  | copy data startPos copied =>
      simp only [phase] at taken
      split at taken
      · rename_i element found
        cases taken
        exact ⟨g, inv.writer_copy positive phase found, rfl,
          by simp [writeReturn, phase, found]⟩
      · rename_i complete
        split at taken
        · rename_i unchanged
          cases taken
          exact ⟨_, inv.writer_commit positive phase complete unchanged, rfl,
            by simp [writeReturn, phase, complete, unchanged, Writer.data]⟩
        · rename_i moved
          cases taken
          exact ⟨g, inv.setWriter trivial, rfl,
            by simp [writeReturn, phase, complete, moved]⟩

/-! ## Steps of the consumer -/

theorem Invariant.setReader (inv : Invariant n s g) {reader : Reader α}
    (ok : ReaderOk s g reader) : Invariant n { s with reader := reader } g :=
  ⟨{ inv.shared with }, inv.writer, ok, { inv.resetters with }, inv.deliveries⟩

theorem Invariant.reloadPinCache (inv : Invariant n s g) {reader : Reader α}
    (ok : ReaderOk s { g with cachedPushed := g.stream.length } reader) :
    Invariant n { s with pinCache := s.pin, reader := reader }
      { g with cachedPushed := g.stream.length } := by
  have pushed := inv.shared.popped_le.trans inv.shared.cachedPushed_le
  refine ⟨{ inv.shared with popped_le := pushed, cachedPushed_le := le_rfl, pinCache := ?_ },
    inv.writer, ok, { inv.resetters with }, inv.deliveries⟩
  refine ⟨s.resets, le_rfl, inv.shared.pinGeneration, inv.shared.loadedPin.2.2.1, ?_⟩
  intro behind
  exact inv.shared.pinIndex.trans (if_neg (Nat.ne_of_gt behind))

theorem Invariant.reader_loadPout (positive : 0 < n) (inv : Invariant n s g) (len : Nat)
    (enough : hasElements n s.pinCache s.pout len = true) :
    ReaderOk s g (.copy len s.pout []) := by
  obtain ⟨same, spec⟩ := hasElements_spec positive enough
  obtain ⟨gen, le, cached, cachedIndex, _⟩ := inv.shared.pinCache
  have small := inv.shared.fewResets
  rw [cached, inv.shared.poutGeneration] at same
  have current := tag_injective (by omega) inv.shared.poutGen_small same
  have near := inv.shared.near
  have pushed := inv.shared.cachedPushed_le
  refine ⟨Nat.zero_le _, g.poutGen, inv.shared.loadedPout, fun _ => ⟨?_, by simp⟩⟩
  exact spec _ _ inv.shared.popped_le (by omega) (cachedIndex current) inv.shared.poutIndex

theorem Invariant.reader_loadPin (positive : 0 < n) (inv : Invariant n s g) {len : Nat}
    {ppout : Pos} (located : s.reader = .loadPin len ppout)
    (enough : hasElements n s.pin ppout len = true) :
    ReaderOk s { g with cachedPushed := g.stream.length } (.copy len ppout []) := by
  have ok := inv.reader
  rw [located] at ok
  obtain ⟨gen, le, generation, same⟩ := ok
  obtain ⟨equal, spec⟩ := hasElements_spec positive enough
  have bound := inv.shared.poutGen_le
  have small := inv.shared.fewResets
  rw [inv.shared.pinGeneration, generation] at equal
  have current := tag_injective small (by omega) equal
  refine ⟨Nat.zero_le _, gen, ⟨le, generation, same⟩, fun reached => ⟨?_, by simp⟩⟩
  have index := inv.shared.loadedPin.2.2.1 (by omega)
  refine spec _ _ (inv.shared.popped_le.trans inv.shared.cachedPushed_le) inv.shared.near index ?_
  rw [same reached]
  exact inv.shared.poutIndex

theorem Invariant.reader_copy (positive : 0 < n) (inv : Invariant n s g) {len : Nat}
    {startPos : Pos} {result : List α} (located : s.reader = .copy len startPos result)
    (missing : result.length < len) :
    ReaderOk s g (.copy len startPos
      (result ++ [s.buf (slot n startPos.index len result.length)])) := by
  have ok := inv.reader
  rw [located] at ok
  obtain ⟨_, gen, loaded, front⟩ := ok
  have length : (result ++ [s.buf (slot n startPos.index len result.length)]).length =
      result.length + 1 := by
    simp
  refine ⟨length ▸ missing, gen, loaded, fun current => ?_⟩
  obtain ⟨enough, copied⟩ := front current
  have near := inv.shared.near
  have pushed := inv.shared.cachedPushed_le
  refine ⟨enough, ?_⟩
  have inside : result.length < (g.stream.drop g.popped).length := by
    rw [List.length_drop]
    omega
  have position : slot n startPos.index len result.length = (g.popped + result.length) % n := by
    rw [loaded.2.2 current, inv.shared.poutIndex]
    exact slot_eq positive (by omega) missing
  have value := inv.shared.content result.length _ (List.getElem?_eq_getElem inside)
  rw [length, List.take_add_one, ← copied, List.getElem?_eq_getElem inside, position, value,
    Option.toList_some]

/-- Delivering the front of the stream keeps the deliveries in order. -/
theorem InOrder.deliver {committed : List (UInt32 × α)} {deliveries : List (Nat × List α)}
    {located : List (Located α)} (ordered : InOrder committed deliveries located)
    (latest : Located α) (bounds : ∀ l ∈ located, l.start + l.values.length ≤ latest.start)
    (found : (committed.drop latest.start).take latest.values.length =
      latest.values.map (latest.generation, ·)) :
    InOrder committed (deliveries ++ [(latest.values.length, latest.values)])
      (located ++ [latest]) := by
  obtain ⟨values, pairwise, earlier⟩ := ordered
  refine ⟨by simp [values], ?_, ?_⟩
  · refine List.pairwise_append.mpr ⟨pairwise, List.pairwise_singleton _ _, ?_⟩
    intro l member last isLast
    rw [List.mem_singleton.mp isLast]
    exact bounds l member
  · intro l member
    rcases List.mem_append.mp member with old | new
    · exact earlier l old
    · rw [List.mem_singleton.mp new]
      exact found

theorem WriterOk.advance_popped {writer : Writer α} (ok : WriterOk n s g writer) {len : Nat}
    (bound : g.popped + len ≤ g.stream.length) :
    WriterOk n s { g with popped := g.popped + len } writer := by
  cases writer with
  | copy data startPos copied =>
      obtain ⟨short, gen, le, loaded, free, stale⟩ := ok
      refine ⟨short, gen, le, loaded, free, fun different => ?_⟩
      have empty := stale different
      exact Nat.le_antisymm bound (empty ▸ Nat.le_add_right _ _)
  | loadPout data ppin => exact ok
  | idle => trivial
  | loadResetting data => trivial
  | loadPin data => trivial

theorem Invariant.reader_commit (positive : 0 < n) (inv : Invariant n s g) {len : Nat}
    {startPos : Pos} {result : List α} (located : s.reader = .copy len startPos result)
    (complete : ¬ result.length < len) (unchanged : s.pout = startPos) :
    Invariant n
      { s with
        pout := ⟨startPos.generation, advance n startPos.index len⟩
        deliveries := s.deliveries ++ [(len, result)]
        reader := .idle }
      { g with popped := g.popped + len } := by
  have ok := inv.reader
  rw [located] at ok
  obtain ⟨short, gen, loaded, front⟩ := ok
  have length : result.length = len := by omega
  have small := inv.shared.poutGen_small
  have generation : tag g.poutGen = tag gen := by
    rw [← inv.shared.poutGeneration, unchanged, loaded.2.1]
  have current : gen = g.poutGen :=
    (tag_injective small (Nat.lt_of_le_of_lt loaded.1 small) generation).symm
  obtain ⟨enough, copied⟩ := front current
  have near := inv.shared.near
  have pushed := inv.shared.cachedPushed_le
  refine ⟨{ inv.shared with
      poutGeneration := ?_, poutIndex := ?_, cachedPopped_le := ?_, popped_le := enough
      content := ?_ }, inv.writer.advance_popped (by omega), trivial, { inv.resetters with }, ?_⟩
  · rw [loaded.2.1, ← generation]
  · rw [← unchanged, inv.shared.poutIndex, advance_eq positive (by omega)]
  · exact inv.shared.cachedPopped_le.trans (Nat.le_add_right _ _)
  · rw [← List.drop_drop]
    exact inv.shared.content.drop len
  · obtain ⟨earlier, ordered, bounds⟩ := inv.deliveries
    refine ⟨earlier ++ [⟨tag g.poutGen, g.older.length + g.popped, result⟩], ?_, ?_⟩
    · rw [← length]
      refine ordered.deliver ⟨tag g.poutGen, g.older.length + g.popped, result⟩ bounds ?_
      rw [inv.shared.committed, List.drop_length_add_append, ← List.map_drop, ← List.map_take,
        ← copied]
    · intro l member
      rcases List.mem_append.mp member with old | new
      · exact (bounds l old).trans (Nat.add_le_add_left (Nat.le_add_right _ _) _)
      · rw [List.mem_singleton.mp new, length]
        exact (Nat.add_assoc _ _ _).le

/-- What a read that returned 0 has taken off the stream. -/
def amountRead : Option (Int × List α) → Nat
  | some (value, result) => if value = 0 then result.length else 0
  | none => 0

/-- An access of `read` takes from the stream only when the read returns 0. -/
theorem Invariant.readerStep (positive : 0 < n) (inv : Invariant n s g) {after : State α}
    (stepped : readerStep n s = some after) :
    ∃ g', Invariant n after g' ∧ g'.stream = g.stream ∧
      g'.popped = g.popped + amountRead (readReturn n s) := by
  unfold GenericFifo.readerStep at stepped
  cases phase : s.reader with
  | idle => simp [phase] at stepped
  | loadResetting len =>
      simp only [phase] at stepped
      split at stepped
      · cases stepped
        exact ⟨g, inv.setReader trivial, rfl, by simp_all [readReturn, amountRead]⟩
      · cases stepped
        exact ⟨g, inv.setReader trivial, rfl, by simp_all [readReturn, amountRead]⟩
  | loadPout len =>
      simp only [phase] at stepped
      split at stepped
      · rename_i enough
        cases stepped
        exact ⟨g, inv.setReader (inv.reader_loadPout positive len enough), rfl,
          by simp [readReturn, phase, amountRead]⟩
      · cases stepped
        exact ⟨g, inv.setReader ⟨g.poutGen, inv.shared.loadedPout⟩, rfl,
          by simp [readReturn, phase, amountRead]⟩
  | loadPin len ppout =>
      simp only [phase] at stepped
      split at stepped
      · rename_i enough
        cases stepped
        exact ⟨_, inv.reloadPinCache (inv.reader_loadPin positive phase enough), rfl,
          by simp [readReturn, phase, amountRead, enough]⟩
      · rename_i short
        cases stepped
        exact ⟨_, inv.reloadPinCache trivial, rfl, by simp [readReturn, phase, amountRead, short]⟩
  | copy len startPos result =>
      simp only [phase] at stepped
      split at stepped
      · rename_i missing
        cases stepped
        exact ⟨g, inv.setReader (inv.reader_copy positive phase missing), rfl,
          by simp [readReturn, phase, amountRead, missing]⟩
      · rename_i complete
        split at stepped
        · rename_i unchanged
          cases stepped
          have ok := inv.reader
          rw [phase] at ok
          have length : result.length = len := Nat.le_antisymm ok.1 (Nat.le_of_not_lt complete)
          exact ⟨_, inv.reader_commit positive phase complete unchanged, rfl,
            by simp [readReturn, phase, amountRead, unchanged, length]⟩
        · rename_i moved
          cases stepped
          exact ⟨g, inv.setReader trivial, rfl,
            by simp [readReturn, phase, amountRead, complete, moved]⟩

/-! ## Steps of the resets -/

theorem ResettersOk.others_outside (ok : ResettersOk s g) {thread : Nat}
    (inside : (s.resetters thread).outside = false) {other : Nat} (different : other ≠ thread) :
    (s.resetters other).outside = true := by
  cases found : (s.resetters other).outside with
  | true => rfl
  | false => exact absurd (ok.exclusive other thread found inside) different

theorem ResettersOk.move {s' : State α} {g' : Ghost α} {thread : Nat} {phase : Resetter}
    (others : ∀ other, other ≠ thread → (s.resetters other).outside = true)
    (moved : s'.resetters = Function.update s.resetters thread phase)
    (released : s'.resetting = false → s'.resets = g'.poutGen)
    (holds : phase.outside = false → s'.resetting = true ∧ Holds s' g' phase) :
    ResettersOk s' g' := by
  have only : ∀ other, (s'.resetters other).outside = false → other = thread := by
    intro other inside
    by_contra different
    rw [moved, Function.update_of_ne different, others other different] at inside
    cases inside
  refine ⟨released, ?_, ?_⟩
  · intro other inside
    obtain rfl := only other inside
    rw [moved, Function.update_self] at inside ⊢
    exact holds inside
  · intro first second insideFirst insideSecond
    rw [only first insideFirst, only second insideSecond]

theorem LoadedPin.rewind {ppin fresh : Pos} {gen : Nat} (loaded : LoadedPin n s g ppin gen) :
    LoadedPin n { s with pin := fresh, resets := s.resets + 1 } g ppin gen :=
  ⟨loaded.1.trans (Nat.le_succ _), loaded.2.1, loaded.2.2.1,
    fun impossible => absurd loaded.1 (by simp [impossible])⟩

theorem WriterOk.rewind {writer : Writer α} {fresh : Pos} (ok : WriterOk n s g writer) :
    WriterOk n { s with pin := fresh, resets := s.resets + 1 } g writer := by
  cases writer with
  | loadPout data ppin =>
      obtain ⟨gen, loaded⟩ := ok
      exact ⟨gen, loaded.rewind⟩
  | copy data startPos copied =>
      obtain ⟨short, gen, le, loaded, free, stale⟩ := ok
      exact ⟨short, gen, le, loaded.rewind, free, stale⟩
  | idle => trivial
  | loadResetting data => trivial
  | loadPin data => trivial

/-- The first half of a reset: the stream of `pout_` stays what it was. -/
theorem Invariant.storePin (inv : Invariant n s g) {thread : Nat} {oldPin : Pos}
    (phase : s.resetters thread = .storePin oldPin) (few : s.resets + 1 < 2 ^ 32) :
    Invariant n
      { s with
        pin := ⟨oldPin.generation + 1, 0⟩
        resets := s.resets + 1
        resetters := Function.update s.resetters thread
          (.storePout ⟨oldPin.generation + 1, 0⟩) } g := by
  have inside : (s.resetters thread).outside = false := by simp [phase, Resetter.outside]
  obtain ⟨locked, holds⟩ := inv.resetters.holder thread inside
  rw [phase] at holds
  obtain ⟨quiet, generation⟩ := holds
  have fresh : oldPin.generation + 1 = tag (s.resets + 1) := by
    rw [generation, inv.shared.pinGeneration, tag_succ]
  refine ⟨{ inv.shared with
      fewResets := few, pinGeneration := fresh, generations := ?_, pinIndex := ?_
      pinCache := ?_ }, inv.writer.rewind, inv.reader, ?_, inv.deliveries⟩
  · exact .inr (by rw [quiet])
  · rw [if_neg (by simp [quiet])]
  · obtain ⟨gen, le, cached, index, ahead⟩ := inv.shared.pinCache
    exact ⟨gen, le.trans (Nat.le_succ _), cached, index, ahead⟩
  · refine ResettersOk.move (fun other => inv.resetters.others_outside inside) rfl ?_ ?_
    · intro released
      exact absurd locked (by simp [show s.resetting = false from released])
    · intro _
      exact ⟨locked, by simp [quiet], rfl⟩

/-- The empty stream of the next generation. -/
def Ghost.restart (g : Ghost α) (committed : List (UInt32 × α)) : Ghost α where
  older := committed
  stream := []
  popped := 0
  cachedPopped := 0
  cachedPushed := 0
  poutGen := g.poutGen + 1

theorem Shared.rewound (shared : Shared n s g) (half : s.resets = g.poutGen + 1) :
    s.pin.index = 0 := by
  rw [shared.pinIndex, if_neg (by omega)]

theorem LoadedPin.restart (shared : Shared n s g) (half : s.resets = g.poutGen + 1)
    {ppin : Pos} {gen : Nat} (loaded : LoadedPin n s g ppin gen) :
    LoadedPin n s (g.restart s.committed) ppin gen := by
  refine ⟨loaded.1, loaded.2.1, ?_, loaded.2.2.2⟩
  intro current
  rw [loaded.2.2.2 (current.trans half.symm), shared.rewound half]
  simp [Ghost.restart]

theorem WriterOk.restart (shared : Shared n s g) (half : s.resets = g.poutGen + 1)
    {writer : Writer α} (ok : WriterOk n s g writer) :
    WriterOk n s (g.restart s.committed) writer := by
  cases writer with
  | loadPout data ppin =>
      obtain ⟨gen, loaded⟩ := ok
      exact ⟨gen, loaded.restart shared half⟩
  | copy data startPos copied =>
      obtain ⟨short, gen, le, loaded, _, _⟩ := ok
      have stale : gen ≠ (g.restart s.committed).poutGen := Nat.ne_of_lt (Nat.lt_succ_of_le le)
      exact ⟨short, gen, le.trans (Nat.le_succ _), loaded.restart shared half,
        fun current => absurd current stale, fun _ => rfl⟩
  | idle => trivial
  | loadResetting data => trivial
  | loadPin data => trivial

theorem LoadedPout.restart {ppout pout : Pos} {gen : Nat} (loaded : LoadedPout s g ppout gen)
    (committed : List (UInt32 × α)) :
    LoadedPout { s with pout := pout } (g.restart committed) ppout gen :=
  ⟨loaded.1.trans (Nat.le_succ _), loaded.2.1,
    fun current => absurd current (Nat.ne_of_lt (Nat.lt_succ_of_le loaded.1))⟩

theorem ReaderOk.restart {pout : Pos} {reader : Reader α} (ok : ReaderOk s g reader)
    (committed : List (UInt32 × α)) :
    ReaderOk { s with pout := pout } (g.restart committed) reader := by
  cases reader with
  | loadPin len ppout =>
      obtain ⟨gen, loaded⟩ := ok
      exact ⟨gen, loaded.restart committed⟩
  | copy len startPos result =>
      obtain ⟨short, gen, loaded, _⟩ := ok
      have stale : gen ≠ (g.restart committed).poutGen :=
        Nat.ne_of_lt (Nat.lt_succ_of_le loaded.1)
      exact ⟨short, gen, loaded.restart committed, fun current => absurd current stale⟩
  | idle => trivial
  | loadResetting len => trivial
  | loadPout len => trivial

theorem Invariant.storePout (positive : 0 < n) (inv : Invariant n s g) {thread : Nat}
    {freshPos : Pos} (phase : s.resetters thread = .storePout freshPos) :
    Invariant n
      { s with
        pout := freshPos
        resetters := Function.update s.resetters thread .unlock }
      (g.restart s.committed) := by
  have inside : (s.resetters thread).outside = false := by simp [phase, Resetter.outside]
  obtain ⟨locked, holds⟩ := inv.resetters.holder thread inside
  rw [phase] at holds
  obtain ⟨half, rfl⟩ := holds
  refine ⟨?_, inv.writer.restart inv.shared half, inv.reader.restart s.committed, ?_, ?_⟩
  · refine { inv.shared with
      poutGeneration := ?_, generations := .inl half, committed := ?_, pinIndex := ?_
      poutIndex := ?_, cachedPopped_le := le_rfl, popped_le := le_rfl, cachedPushed_le := le_rfl
      room := positive.trans_le (Nat.le_add_left _ _), content := Ring.Stores.nil, poutCache := ?_
      pinCache := ?_ }
    · rw [inv.shared.pinGeneration, half]
      rfl
    · simp [Ghost.restart]
    · rw [inv.shared.rewound half]
      simp [Ghost.restart, half]
    · rw [inv.shared.rewound half]
      simp [Ghost.restart]
    · obtain ⟨gen, le, cached, _⟩ := inv.shared.poutCache
      exact ⟨gen, le.trans (Nat.le_succ _), cached,
        fun current => absurd current (Nat.ne_of_lt (Nat.lt_succ_of_le le))⟩
    · obtain ⟨gen, le, cached, _, ahead⟩ := inv.shared.pinCache
      refine ⟨gen, le, cached, ?_, ?_⟩
      · intro current
        rw [ahead (by rw [current]; exact Nat.lt_succ_self _)]
        simp [Ghost.restart]
      · intro impossible
        exact absurd (le.trans half.le) (Nat.not_le_of_gt impossible)
  · refine ResettersOk.move (fun other => inv.resetters.others_outside inside) rfl ?_ ?_
    · intro _
      exact half
    · intro _
      exact ⟨locked, half⟩
  · obtain ⟨located, ordered, bounds⟩ := inv.deliveries
    refine ⟨located, ordered, ?_⟩
    intro l member
    have pushed := inv.shared.popped_le.trans inv.shared.cachedPushed_le
    refine (bounds l member).trans ?_
    simp only [Ghost.restart, inv.shared.committed, List.length_append, List.length_map]
    omega

theorem Invariant.resetterStep (positive : 0 < n) (inv : Invariant n s g) {thread : Nat}
    {spurious : Bool} {after : State α} (taken : resetterStep s thread spurious = some after)
    (few : after.resets < 2 ^ 32) : ∃ g, Invariant n after g := by
  unfold GenericFifo.resetterStep at taken
  cases phase : s.resetters thread with
  | idle => simp [phase] at taken
  | locking =>
      simp only [phase] at taken
      split at taken
      · cases taken
        exact ⟨g, inv⟩
      · rename_i acquired
        have free : s.resetting = false := by simpa using (not_or.mp acquired).2
        have outside : ∀ other, (s.resetters other).outside = true := by
          intro other
          cases found : (s.resetters other).outside with
          | true => rfl
          | false =>
              have locked := (inv.resetters.holder other found).1
              rw [free] at locked
              cases locked
        cases taken
        refine ⟨g, { inv.shared with }, inv.writer, inv.reader, ?_, inv.deliveries⟩
        refine ResettersOk.move (fun other _ => outside other) rfl ?_ ?_
        · intro released
          cases released
        · intro _
          exact ⟨rfl, inv.resetters.released free⟩
  | loadPin =>
      have inside : (s.resetters thread).outside = false := by simp [phase, Resetter.outside]
      obtain ⟨locked, holds⟩ := inv.resetters.holder thread inside
      rw [phase] at holds
      simp only [phase] at taken
      cases taken
      refine ⟨g, { inv.shared with }, inv.writer, inv.reader, ?_, inv.deliveries⟩
      exact ResettersOk.move (fun other => inv.resetters.others_outside inside) rfl
        inv.resetters.released (fun _ => ⟨locked, holds, rfl⟩)
  | storePin oldPin =>
      simp only [phase] at taken
      cases taken
      exact ⟨g, inv.storePin phase few⟩
  | storePout freshPos =>
      simp only [phase] at taken
      cases taken
      exact ⟨_, inv.storePout positive phase⟩
  | unlock =>
      have inside : (s.resetters thread).outside = false := by simp [phase, Resetter.outside]
      obtain ⟨locked, holds⟩ := inv.resetters.holder thread inside
      rw [phase] at holds
      simp only [phase] at taken
      cases taken
      refine ⟨g, { inv.shared with }, inv.writer, inv.reader, ?_, inv.deliveries⟩
      exact ResettersOk.move (fun other => inv.resetters.others_outside inside) rfl
        (fun _ => holds) (fun impossible => by cases impossible)

/-! ## Runs -/

/-- Fewer than 2^32 resets take effect. -/
def FewResets (n : Nat) (s : State α) (action : Action α) : Prop :=
  ∀ after, next n s action = some after → after.resets < 2 ^ 32

instance (n : Nat) (s : State α) (action : Action α) : Decidable (FewResets n s action) :=
  match taken : next n s action with
  | none => isTrue (by simp [FewResets, taken])
  | some after => decidable_of_iff (after.resets < 2 ^ 32) (by simp [FewResets, taken])

theorem Invariant.initial (positive : 0 < n) (buf : Nat → α) :
    Invariant n (State.initial buf) ⟨[], [], 0, 0, 0, 0⟩ where
  shared :=
    { fewResets := by simp [State.initial]
      pinGeneration := rfl
      poutGeneration := rfl
      generations := .inl rfl
      committed := rfl
      pinIndex := by simp [State.initial]
      poutIndex := by simp [State.initial]
      cachedPopped_le := le_rfl
      popped_le := le_rfl
      cachedPushed_le := le_rfl
      room := positive.trans_le (Nat.le_add_left _ _)
      content := Ring.Stores.nil
      poutCache := ⟨0, le_rfl, rfl, by simp [State.initial]⟩
      pinCache := ⟨0, le_rfl, rfl, by simp [State.initial], by simp⟩ }
  writer := trivial
  reader := trivial
  resetters :=
    { released := fun _ => rfl
      holder := fun _ inside => by cases inside
      exclusive := fun _ _ inside => by cases inside }
  deliveries := ⟨[], ⟨rfl, .nil, by simp⟩, by simp⟩

theorem ResettersOk.call (ok : ResettersOk s g) (thread : Nat) :
    ResettersOk { s with resetters := Function.update s.resetters thread .locking } g := by
  have kept : ∀ other, (Function.update s.resetters thread .locking other).outside = false →
      other ≠ thread := by
    intro other inside same
    rw [same, Function.update_self] at inside
    cases inside
  refine ⟨ok.released, ?_, ?_⟩
  · intro other inside
    have different := kept other inside
    simp only [Function.update_of_ne different] at inside ⊢
    exact ok.holder other inside
  · intro first second insideFirst insideSecond
    have differentFirst := kept first insideFirst
    have differentSecond := kept second insideSecond
    simp only [Function.update_of_ne differentFirst] at insideFirst
    simp only [Function.update_of_ne differentSecond] at insideSecond
    exact ok.exclusive first second insideFirst insideSecond

theorem Invariant.next (positive : 0 < n) (inv : Invariant n s g) {action : Action α}
    {after : State α} (few : FewResets n s action) (taken : next n s action = some after) :
    ∃ g, Invariant n after g := by
  cases action with
  | write data =>
      simp only [GenericFifo.next] at taken
      split at taken
      · cases taken
        exact ⟨g, inv.setWriter trivial⟩
      · cases taken
  | writerStep =>
      obtain ⟨after, kept, _⟩ := inv.writerStep positive taken
      exact ⟨after, kept⟩
  | read len =>
      simp only [GenericFifo.next] at taken
      split at taken
      · cases taken
        exact ⟨g, inv.setReader trivial⟩
      · cases taken
  | readerStep =>
      obtain ⟨after, kept, _⟩ := inv.readerStep positive taken
      exact ⟨after, kept⟩
  | reset thread =>
      simp only [GenericFifo.next] at taken
      split at taken
      · cases taken
        exact ⟨g, { inv.shared with }, inv.writer, inv.reader, inv.resetters.call thread,
          inv.deliveries⟩
      · cases taken
  | resetterStep thread spurious => exact inv.resetterStep positive taken (few after taken)

/-- For every FIFO size, every interleaving of one producer, one consumer and any number of
resetting threads, with fewer than 2^32 resets: each successful read has delivered exactly the
requested number of consecutive committed elements of one generation, and later reads deliver
elements that were committed strictly later. -/
theorem deliveries_are_committed_in_order (nelem : Nat) (positive : 1 ≤ nelem) (buf : Nat → α)
    (state : State α)
    (reachable : Reachable (next nelem) (FewResets nelem) (State.initial buf) state) :
    ∃ located, InOrder state.committed state.deliveries located := by
  have holds : ∃ g, Invariant nelem state g := by
    refine reachable.invariant (fun s => ∃ g, Invariant nelem s g) ⟨_, .initial positive buf⟩ ?_
    rintro before action after ⟨g, inv⟩ few taken
    exact inv.next positive few taken
  obtain ⟨g, inv⟩ := holds
  obtain ⟨located, ordered, _⟩ := inv.deliveries
  exact ⟨located, ordered⟩

/-- A write that is lost to a reset, then a write and a read across the end of the buffer. -/
theorem deliveries_across_a_reset :
    ∃ state : State Nat,
      Reachable (next 3) (FewResets 3) (State.initial fun _ => 0) state ∧
      state.deliveries = [(1, [5]), (2, [10, 20])] ∧
      ∃ located, InOrder state.committed state.deliveries located := by
  have executed : (runActions (next 3) (FewResets 3) (State.initial fun _ => 0)
      (List.flatten [[.write [7]], List.replicate 3 .writerStep, [.reset 4, .resetterStep 4 true],
        List.replicate 5 (.resetterStep 4 false), [.writerStep, .write [5]],
        List.replicate 5 .writerStep, [.read 1], List.replicate 5 .readerStep, [.write [10, 20]],
        List.replicate 6 .writerStep, [.read 2], List.replicate 6 .readerStep])).map State.deliveries =
      some [(1, [5]), (2, [10, 20])] := by
    decide +kernel
  obtain ⟨state, executed, deliveries⟩ := Option.map_eq_some_iff.mp executed
  have reachable := Reachable.of_runActions _ .start executed
  exact ⟨state, reachable, deliveries,
    deliveries_are_committed_in_order 3 (by decide) _ _ reachable⟩

end FreeDV.Util.GenericFifo
