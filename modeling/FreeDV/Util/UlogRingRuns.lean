import FreeDV.Util.UlogRingProperties
import Mathlib.Data.List.Forall2

/-!
# Runs of the ring

What every run of any number of producers and one consumer hands over, on
machine words, and the one run in which a producer that slept through half the
range of a word takes an empty ring for a full one.
-/

set_option autoImplicit false

namespace FreeDV.Util.UlogRing

open FreeDV.Lib

variable {ω η : Type} [Position ω] [LawfulPosition ω]

/-! ## The calls of `ringPush` -/

/-- The record of a call that has claimed its position and has not returned. -/
def Pusher.pending (thread : Nat) : Pusher ω η → List (Nat × Record η)
  | .copyHeader src _ => [(thread, src)]
  | .copyArg src _ _ => [(thread, src)]
  | .publish src _ => [(thread, src)]
  | _ => []

/-- The entries of one thread. -/
def ofThread (thread : Nat) (entries : List (Nat × Record η)) : List (Nat × Record η) :=
  entries.filter fun entry => entry.1 = thread

/-- Every accepted call has a position of its own, and the calls of a thread claim theirs in the
order in which they are made. -/
structure CallsOk (r : Ring ω η) : Prop where
  accepted : List.Forall₂
    (fun pos entry => ∃ p, pos = Position.ofNat p ∧ r.claims[p]? = some entry)
    r.published r.accepted
  once : r.published.Nodup
  threads : ∀ thread, ofThread thread r.claims =
    ofThread thread r.accepted ++ (r.pushers thread).pending thread

omit [LawfulPosition ω] in
theorem CallsOk.setPusher {r : Ring ω η} (calls : CallsOk r) {cells : Nat → Cell ω η} {thread : Nat}
    {phase : Pusher ω η} (same : phase.pending thread = (r.pushers thread).pending thread) :
    CallsOk (setPusher { r with cells := cells } thread phase) := by
  refine { calls with threads := ?_ }
  intro other
  by_cases equal : other = thread
  · subst equal
    simp only [UlogRing.setPusher, Function.update_self, same]
    exact calls.threads other
  · simp only [UlogRing.setPusher, Function.update_of_ne equal]
    exact calls.threads other

omit [LawfulPosition ω] in
theorem CallsOk.claimPosition {r : Ring ω η} (calls : CallsOk r) {thread : Nat} {src : Record η}
    {pos after : ω} (free : (r.pushers thread).pending thread = []) :
    CallsOk (UlogRing.setPusher
      { r with enqueuePos := after, claims := r.claims ++ [(thread, src)] }
      thread (.copyHeader src pos)) := by
  refine { calls with accepted := ?_, threads := ?_ }
  · refine calls.accepted.imp ?_
    rintro pos entry ⟨p, same, claimed⟩
    refine ⟨p, same, ?_⟩
    simp only [UlogRing.setPusher]
    rw [List.getElem?_append_left (List.getElem?_eq_some_iff.mp claimed).1, claimed]
  · intro other
    have before := calls.threads other
    by_cases equal : other = thread
    · subst equal
      rw [free, List.append_nil] at before
      simp only [ofThread] at before
      simp [UlogRing.setPusher, Pusher.pending, ofThread, before]
    · have apart : ¬ thread = other := fun same => equal same.symm
      simp only [ofThread] at before
      simp [UlogRing.setPusher, Function.update_of_ne equal, ofThread, apart, before]

theorem CallsOk.publish {r : Ring ω η} (calls : CallsOk r) (ok : RingOk r) {thread : Nat}
    {src : Record η} {pos : ω} (phase : r.pushers thread = .publish src pos)
    {cells : Nat → Cell ω η} :
    CallsOk (UlogRing.setPusher
      { r with
        cells := cells
        published := r.published ++ [pos]
        accepted := r.accepted ++ [(thread, src)] }
      thread (.returned true)) := by
  have valid := ok.pushers thread
  rw [phase] at valid
  obtain ⟨⟨p, rfl, claimed, fresh⟩, _⟩ := valid
  refine { accepted := ?_, once := ?_, threads := ?_ }
  · refine List.rel_append calls.accepted (.cons ?_ .nil)
    exact ⟨p, rfl, claimed⟩
  · simp only [UlogRing.setPusher]
    rw [List.nodup_append]
    refine ⟨calls.once, by simp, ?_⟩
    intro old member new last same
    rw [List.mem_singleton.mp last] at same
    exact fresh (same ▸ member)
  · intro other
    have before := calls.threads other
    by_cases equal : other = thread
    · subst equal
      rw [phase] at before
      simp only [ofThread] at before
      simp [UlogRing.setPusher, Pusher.pending, ofThread, before]
    · have apart : ¬ thread = other := fun same => equal same.symm
      simp only [ofThread] at before
      simp [UlogRing.setPusher, Function.update_of_ne equal, ofThread, apart, before]

theorem CallsOk.pushMove {r r' : Ring ω η} (calls : CallsOk r) (ok : RingOk r) {thread : Nat}
    (move : PushMove r thread r') : CallsOk r' := by
  cases move with
  | claim phase => exact calls.claimPosition (by rw [phase]; rfl)
  | publish phase => exact calls.publish ok phase
  | loadPos phase => exact calls.setPusher (by rw [phase]; rfl)
  | free phase zero => exact calls.setPusher (by rw [phase]; rfl)
  | full phase negative => exact calls.setPusher (by rw [phase]; rfl)
  | retry phase => exact calls.setPusher (by rw [phase]; rfl)
  | lost phase => exact calls.setPusher (by rw [phase]; rfl)
  | header phase => exact calls.setPusher (by rw [phase]; rfl)
  | arg phase read => exact calls.setPusher (by rw [phase]; rfl)
  | argLen phase read => exact calls.setPusher (by rw [phase]; rfl)

omit [LawfulPosition ω] in
theorem CallsOk.popMove {r r' : Ring ω η} (calls : CallsOk r) (move : PopMove r r') :
    CallsOk r' := by
  cases move <;> exact { calls with }

omit [LawfulPosition ω] in
theorem CallsOk.initial (memory : Nat → Cell ω η) : CallsOk (Ring.initial memory) where
  accepted := .nil
  once := List.nodup_nil
  threads _ := rfl

/-! ## Who writes a cell -/

omit [LawfulPosition ω] in
theorem setCell_of_ne {cells : Nat → Cell ω η} {pos : ω} {change : Cell ω η → Cell ω η} {i : Nat}
    (apart : i ≠ Position.cell pos) : setCell cells pos change i = cells i :=
  Function.update_of_ne apart _ _

omit [LawfulPosition ω] in
theorem PushMove.cells {r r' : Ring ω η} {thread : Nat} (move : PushMove r thread r') (i : Nat) :
    r'.cells i = r.cells i ∨
      ∃ pos, (r.pushers thread).owned = some pos ∧ i = Position.cell pos := by
  cases move with
  | loadPos phase => exact .inl rfl
  | free phase zero => exact .inl rfl
  | full phase negative => exact .inl rfl
  | retry phase => exact .inl rfl
  | claim phase => exact .inl rfl
  | lost phase => exact .inl rfl
  | @header src pos phase =>
      rw [phase]
      by_cases same : i = Position.cell pos
      · exact .inr ⟨pos, rfl, same⟩
      · exact .inl (by simp [UlogRing.setPusher, setCell_of_ne same])
  | @arg src pos copied byte phase read =>
      rw [phase]
      by_cases same : i = Position.cell pos
      · exact .inr ⟨pos, rfl, same⟩
      · exact .inl (by simp [UlogRing.setPusher, setCell_of_ne same])
  | @argLen src pos copied phase read =>
      rw [phase]
      by_cases same : i = Position.cell pos
      · exact .inr ⟨pos, rfl, same⟩
      · exact .inl (by simp [UlogRing.setPusher, setCell_of_ne same])
  | @publish src pos phase =>
      rw [phase]
      by_cases same : i = Position.cell pos
      · exact .inr ⟨pos, rfl, same⟩
      · exact .inl (by simp [UlogRing.setPusher, setCell_of_ne same])

/-- A record that is published and not released stays in its cell while producers move. -/
theorem RingOk.cell_kept_by_push {r r' : Ring ω η} (ok : RingOk r) {thread : Nat}
    (move : PushMove r thread r') {p : Nat} (unreleased : r.popped.length ≤ p)
    (claimed : p < r.claims.length) (published : (Position.ofNat p : ω) ∈ r.published) :
    r'.cells (p % kQueueLen) = r.cells (p % kQueueLen) := by
  rcases move.cells (p % kQueueLen) with kept | ⟨pos, owned, same⟩
  · exact kept
  · obtain ⟨src, q, rfl, claimed', fresh⟩ := ok.owner owned
    have apart : p ≠ q := by
      intro equal
      exact fresh (equal ▸ published)
    rw [LawfulPosition.cell_ofNat] at same
    exact absurd same
      (ok.cell_ne unreleased claimed (ok.released_le fresh) (Owns.claimed claimed') apart)

theorem RingOk.cell_kept_by_pop {r r' : Ring ω η} (ok : RingOk r) (move : PopMove r r') {p : Nat}
    (unreleased : r.popped.length ≤ p) (claimed : p < r.claims.length) :
    p < r'.popped.length ∨ r'.cells (p % kQueueLen) = r.cells (p % kQueueLen) := by
  cases move with
  | @release pos dst phase =>
      have valid := ok.popper
      rw [phase] at valid
      obtain ⟨rfl, _⟩ := valid.1
      by_cases front : p = r.popped.length
      · exact .inl (by simp [front])
      · have bound := ok.bound
        have apart : p % kQueueLen ≠ r.popped.length % kQueueLen :=
          (Ring.slot_ne (by omega) (by omega)).symm
        exact .inr (by simp [setCell, LawfulPosition.cell_ofNat, apart])
  | loadPos phase => exact .inr rfl
  | ready phase zero => exact .inr rfl
  | empty phase negative => exact .inr rfl
  | retry phase => exact .inr rfl
  | claim phase => exact .inr rfl
  | lost phase => exact .inr rfl
  | argLen phase => exact .inr rfl
  | header phase => exact .inr rfl
  | arg phase more => exact .inr rfl
  | copied phase done => exact .inr rfl

/-- `ringPush` gives up only when all cells hold unreleased positions. -/
theorem RingOk.full_of_returned_false {r r' : Ring ω η} (ok : RingOk r) {thread : Nat}
    (move : PushMove r thread r') (returned : r'.pushers thread = .returned false) :
    r.claims.length = r.popped.length + kQueueLen := by
  cases move with
  | full phase negative =>
      have valid := ok.pushers thread
      rw [phase] at valid
      obtain ⟨p, claimed, rfl⟩ := valid
      exact (ok.seq_cases claimed).2 negative
  | loadPos phase => simp [UlogRing.setPusher] at returned
  | free phase zero => simp [UlogRing.setPusher] at returned
  | retry phase => simp [UlogRing.setPusher] at returned
  | claim phase => simp [UlogRing.setPusher] at returned
  | lost phase => simp [UlogRing.setPusher] at returned
  | header phase => simp [UlogRing.setPusher] at returned
  | arg phase read => simp [UlogRing.setPusher] at returned
  | argLen phase read => simp [UlogRing.setPusher] at returned
  | publish phase => simp [UlogRing.setPusher] at returned

/-! ## Runs -/

variable [DecidableEq ω]

theorem CallsOk.next {r r' : Ring ω η} (calls : CallsOk r) (ok : RingOk r) {action : Action η}
    (step : next r action = some r') : CallsOk r' := by
  cases action with
  | push thread src =>
      simp only [UlogRing.next] at step
      split at step
      next phase =>
        cases step
        exact calls.setPusher (by rw [phase]; rfl)
      next phase =>
        cases step
        exact calls.setPusher (by rw [phase]; rfl)
      next => cases step
  | pushStep thread spurious => exact calls.pushMove ok (pushStep_move step)
  | pop =>
      simp only [UlogRing.next] at step
      split at step
      · cases step
        exact { calls with }
      · cases step
        exact { calls with }
      · cases step
  | popStep spurious => exact calls.popMove (popStep_move step)

omit [LawfulPosition ω] in
theorem claims_length_le {r r' : Ring ω η} {action : Action η} (step : next r action = some r') :
    r.claims.length ≤ r'.claims.length := by
  cases action with
  | push thread src =>
      simp only [next] at step
      split at step <;> cases step <;> exact le_rfl
  | pushStep thread spurious =>
      cases pushStep_move step <;> simp [setPusher]
  | pop =>
      simp only [next] at step
      split at step <;> cases step <;> exact le_rfl
  | popStep spurious =>
      cases popStep_move step <;> exact le_rfl

theorem RingOk.of_reachable {memory : Nat → Cell ω η} {r : Ring ω η}
    (reachable : Reachable UlogRing.next (fun _ _ => True) (Ring.initial memory) r)
    (fits : LawfulPosition.fits ω (r.claims.length + (kQueueLen - 1))) : RingOk r ∧ CallsOk r := by
  refine reachable.invariant
    (fun r => LawfulPosition.fits ω (r.claims.length + (kQueueLen - 1)) → RingOk r ∧ CallsOk r)
    ?_ ?_ fits
  · intro fits
    exact ⟨RingOk.initial memory (by simpa [Ring.initial] using fits), CallsOk.initial memory⟩
  · intro before action after holds _ step fits
    have longer := claims_length_le step
    obtain ⟨ok, calls⟩ := holds (LawfulPosition.fits_of_le (by omega) fits)
    exact ⟨ok.next step fits, calls.next ok step⟩

omit [DecidableEq ω] in
theorem RingOk.popped_in_order {r : Ring ω η} (ok : RingOk r) :
    List.Forall₂ (fun dst entry => dst.Agrees entry.2) r.popped
      (r.claims.take r.popped.length) := by
  rw [List.forall₂_iff_get]
  have released := ok.popped_le
  refine ⟨by simp [released], ?_⟩
  intro p inside inside'
  obtain ⟨entry, claimed, agrees⟩ := ok.popped p _ (List.getElem?_eq_getElem inside)
  have same := (List.getElem?_eq_some_iff.mp claimed).2
  simpa [same] using agrees

/-- Every run with fewer than `2 ^ 63 - 255` claimed positions hands over each accepted record
once, in the order of positions and of each producer's calls. -/
theorem records_are_handed_over_in_order {memory : Nat → Cell UInt64 η} {r : Ring UInt64 η}
    (reachable : Reachable next (fun _ _ => True) (Ring.initial memory) r)
    (few : r.claims.length < 2 ^ 63 - 255) :
    -- every call that returned true has a position of its own
    (r.published.Nodup ∧ List.Forall₂
      (fun pos entry => ∃ p, pos = UInt64.ofNat p ∧ r.claims[p]? = some entry)
      r.published r.accepted) ∧
    -- the popped records are those of the first positions, all of them published
    (List.Forall₂ (fun dst entry => dst.Agrees entry.2) r.popped
        (r.claims.take r.popped.length) ∧
      ∀ p < r.popped.length, UInt64.ofNat p ∈ r.published) ∧
    -- a producer claims its positions in the order of its calls
    (∀ thread, ofThread thread r.claims =
      ofThread thread r.accepted ++ (r.pushers thread).pending thread) ∧
    -- a published record is not overwritten before it is popped
    (∀ action r' p, next r action = some r' → r.popped.length ≤ p → p < r.claims.length →
      UInt64.ofNat p ∈ r.published →
      p < r'.popped.length ∨ r'.cells (p % kQueueLen) = r.cells (p % kQueueLen)) ∧
    -- `ringPush` returns false only on a full ring
    (∀ thread spurious r', pushStep r thread spurious = some r' →
      r'.pushers thread = .returned false → r.claims.length = r.popped.length + kQueueLen) := by
  have fits : r.claims.length + (kQueueLen - 1) < 2 ^ 63 := by
    simp only [kQueueLen]
    omega
  obtain ⟨ok, calls⟩ := RingOk.of_reachable reachable fits
  refine ⟨⟨calls.once, calls.accepted⟩, ⟨ok.popped_in_order, ok.released⟩, calls.threads, ?_, ?_⟩
  · intro action r' p step unreleased claimed published
    cases action with
    | push thread src =>
        simp only [next] at step
        split at step <;> cases step <;> exact .inr rfl
    | pushStep thread spurious =>
        exact .inr (ok.cell_kept_by_push (pushStep_move step) unreleased claimed published)
    | pop =>
        simp only [next] at step
        split at step <;> cases step <;> exact .inr rfl
    | popStep spurious => exact ok.cell_kept_by_pop (popStep_move step) unreleased claimed
  · intro thread spurious r' step returned
    exact ok.full_of_returned_false (pushStep_move step) returned

/-- The producer of position 0 stalls while position 1 is published; the consumer waits for it. -/
theorem records_are_handed_over_from_two_threads :
    ∃ r : Ring UInt64 Nat,
      Reachable next (fun _ _ => True) (Ring.initial fun _ => ⟨7, 9, 3, fun _ => 5⟩) r ∧
      r.popped = [⟨10, 1, [77]⟩, ⟨20, 0, []⟩] ∧ r.claims.length < 2 ^ 63 - 255 ∧
      List.Forall₂ (fun dst entry => dst.Agrees entry.2) r.popped
        (r.claims.take r.popped.length) := by
  have executed : (runActions next (fun _ _ => True)
      (Ring.initial fun _ => ⟨7, 9, 3, fun _ => 5⟩ : Ring UInt64 Nat)
      (List.flatten [[.push 1 ⟨10, [77]⟩, .push 2 ⟨20, []⟩], List.replicate 3 (.pushStep 1 false),
        [.pushStep 2 false, .pushStep 2 false, .pushStep 2 true],
        List.replicate 5 (.pushStep 2 false), [.pop, .popStep false, .popStep false],
        List.replicate 4 (.pushStep 1 false), [.pop], List.replicate 8 (.popStep false),
        [.pop], List.replicate 7 (.popStep false)])).map (fun r => (r.popped, r.claims.length)) =
      some ([⟨10, 1, [77]⟩, ⟨20, 0, []⟩], 2) := by
    decide +kernel
  obtain ⟨r, executed, result⟩ := Option.map_eq_some_iff.mp executed
  simp only [Prod.mk.injEq] at result
  obtain ⟨popped, claims⟩ := result
  have reachable := Reachable.of_runActions _ .start executed
  have few : r.claims.length < 2 ^ 63 - 255 := by
    rw [claims]
    decide
  exact ⟨r, reachable, popped, few, (records_are_handed_over_in_order reachable few).2.1.1⟩

/-! ## A producer that sleeps for half the range of a word -/

def emptyRecord : Record Unit := ⟨(), []⟩

/-- Producer 0 has loaded position 0 and sleeps; `rounds` records went through the ring since. -/
structure Asleep (rounds : Nat) (r : Ring UInt64 Unit) : Prop where
  sleeper : r.pushers 0 = .loadSeq emptyRecord (UInt64.ofNat 0)
  worker : r.pushers 1 = .idle ∨ ∃ ok, r.pushers 1 = .returned ok
  popper : r.popper = .idle ∨ ∃ dst, r.popper = .returned dst
  enqueuePos : r.enqueuePos = UInt64.ofNat rounds
  dequeuePos : r.dequeuePos = UInt64.ofNat rounds
  seq : ∀ p, rounds ≤ p → p < rounds + kQueueLen →
    (r.cells (p % kQueueLen)).seq = UInt64.ofNat p
  claims : r.claims.length = rounds
  popped : r.popped.length = rounds

private theorem diff_self (pos : UInt64) : Position.diff pos pos = 0 := by
  simp [Position.diff]

theorem push_round {r : Ring UInt64 Unit}
    (worker : r.pushers 1 = .idle ∨ ∃ ok, r.pushers 1 = .returned ok)
    (free : (r.cells (Position.cell r.enqueuePos)).seq = r.enqueuePos) :
    runActions next (fun _ _ => True) r
        (.push 1 emptyRecord :: List.replicate 6 (.pushStep 1 false)) =
      some { r with
        cells := setCell r.cells r.enqueuePos fun cell =>
          { cell with seq := Position.succ r.enqueuePos, header := (), argLen := 0 }
        enqueuePos := Position.succ r.enqueuePos
        pushers := Function.update r.pushers 1 (.returned true)
        claims := r.claims ++ [(1, emptyRecord)]
        published := r.published ++ [r.enqueuePos]
        accepted := r.accepted ++ [(1, emptyRecord)] } := by
  have called : next r (.push 1 emptyRecord) = some (setPusher r 1 (.loadPos emptyRecord)) := by
    rcases worker with idle | ⟨ok, returned⟩
    · simp [next, idle]
    · simp [next, returned]
  simp only [List.replicate, runActions, called]
  simp [next, pushStep, setPusher, free, diff_self, setCell, emptyRecord]

theorem pop_round {r : Ring UInt64 Unit} (popper : r.popper = .idle ∨ ∃ dst, r.popper = .returned dst)
    (ready : (r.cells (Position.cell r.dequeuePos)).seq = Position.succ r.dequeuePos)
    (short : (r.cells (Position.cell r.dequeuePos)).argLen = 0) :
    runActions next (fun _ _ => True) r (.pop :: List.replicate 7 (.popStep false)) =
      some { r with
        cells := setCell r.cells r.dequeuePos fun cell =>
          { cell with seq := Position.lap r.dequeuePos }
        dequeuePos := Position.succ r.dequeuePos
        popper := .returned (some ⟨(), 0, []⟩)
        popped := r.popped ++ [⟨(), 0, []⟩] } := by
  have called : next r .pop = some { r with popper := .loadPos } := by
    rcases popper with idle | ⟨dst, returned⟩
    · simp [next, idle]
    · simp [next, returned]
  simp only [List.replicate, runActions, called]
  simp [next, popStep, ready, short, diff_self, setCell]

/-- One more record goes through the ring while producer 0 sleeps. -/
theorem Asleep.round {start r : Ring UInt64 Unit} {rounds : Nat} (asleep : Asleep rounds r)
    (reachable : Reachable next (fun _ _ => True) start r) :
    ∃ r', Reachable next (fun _ _ => True) start r' ∧ Asleep (rounds + 1) r' := by
  have positive : 0 < kQueueLen := by decide
  have cellIs : Position.cell (UInt64.ofNat rounds) = rounds % kQueueLen :=
    LawfulPosition.cell_ofNat rounds
  have succIs : Position.succ (UInt64.ofNat rounds) = UInt64.ofNat (rounds + 1) :=
    LawfulPosition.succ_ofNat rounds
  have lapIs : Position.lap (UInt64.ofNat rounds) = UInt64.ofNat (rounds + kQueueLen) :=
    LawfulPosition.lap_ofNat rounds
  have pushed := push_round asleep.worker (by
    rw [asleep.enqueuePos, cellIs]
    exact asleep.seq rounds le_rfl (by omega))
  have reachable' := Reachable.of_runActions _ reachable pushed
  have popped := Reachable.of_runActions _ reachable' (pop_round asleep.popper (by
    simp [asleep.enqueuePos, asleep.dequeuePos, setCell]) (by
    simp [asleep.enqueuePos, asleep.dequeuePos, setCell]))
  refine ⟨_, popped, ?_⟩
  refine {
    sleeper := ?_, worker := ?_, popper := .inr ⟨_, rfl⟩, enqueuePos := ?_, dequeuePos := ?_,
    seq := ?_, claims := ?_, popped := ?_ }
  · simpa using asleep.sleeper
  · exact .inr ⟨true, by simp⟩
  · simp [asleep.enqueuePos, succIs]
  · simp [asleep.dequeuePos, succIs]
  · intro p low high
    simp only [asleep.enqueuePos, asleep.dequeuePos, setCell, cellIs, lapIs]
    by_cases last : p = rounds + kQueueLen
    · subst last
      simp
    · have apart : p % kQueueLen ≠ rounds % kQueueLen := (Ring.slot_ne (by omega) (by omega)).symm
      simp only [Function.update_of_ne apart]
      exact asleep.seq p (by omega) (by omega)
  · simp [asleep.claims]
  · simp [asleep.popped]

theorem asleep_reachable (rounds : Nat) :
    ∃ r, Reachable next (fun _ _ => True) (Ring.initial fun _ => ⟨0, (), 0, fun _ => 0⟩) r ∧
      Asleep rounds r := by
  induction rounds with
  | zero =>
      refine ⟨_, Reachable.of_runActions [.push 0 emptyRecord, .pushStep 0 false] .start rfl, ?_⟩
      refine {
        sleeper := rfl, worker := .inl rfl, popper := .inl rfl, enqueuePos := rfl,
        dequeuePos := rfl, seq := ?_, claims := rfl, popped := rfl }
      intro p _ high
      have small : p % kQueueLen = p := Nat.mod_eq_of_lt (by omega)
      simp only [small]
      rfl
  | succ rounds ih =>
      obtain ⟨r, reachable, asleep⟩ := ih
      exact asleep.round reachable

/-- With fewer than `2 ^ 63` pushes, `ringPush` can take an empty ring for a full one. -/
theorem push_returns_false_on_an_empty_ring :
    ∃ r r' : Ring UInt64 Unit,
      Reachable next (fun _ _ => True) (Ring.initial fun _ => ⟨0, (), 0, fun _ => 0⟩) r ∧
      r.claims.length + 1 < 2 ^ 63 ∧ pushStep r 0 false = some r' ∧
      r'.pushers 0 = .returned false ∧ r.claims.length = r.popped.length := by
  obtain ⟨r, reachable, asleep⟩ := asleep_reachable (2 ^ 63 - 255)
  refine ⟨r, setPusher r 0 (.returned false), reachable, ?_, ?_, by simp [setPusher], ?_⟩
  · rw [asleep.claims]
    decide
  · have seq := asleep.seq (2 ^ 63) (by decide) (by decide)
    have cell : Position.cell (UInt64.ofNat 0) = 2 ^ 63 % kQueueLen := by decide
    have negative : Position.diff (UInt64.ofNat (2 ^ 63)) (UInt64.ofNat 0) = -(2 ^ 63) := by decide
    simp only [pushStep, asleep.sleeper, cell, seq, negative]
    rfl
  · rw [asleep.claims, asleep.popped]

end FreeDV.Util.UlogRing
