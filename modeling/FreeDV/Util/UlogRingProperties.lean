import FreeDV.Lib.Ring
import FreeDV.Util.UlogRing
import Mathlib.Algebra.Ring.Nat

/-!
# What the ring hands over

Of the positions claimed so far, a first part has been released by the consumer
and the rest, at most `kQueueLen` of them, each have a cell of their own. The
sequence number of that cell tells whether the record is published; until then
it belongs to the producer that claimed it.
-/

set_option autoImplicit false

namespace FreeDV.Util.UlogRing

open FreeDV.Lib

/-! ## Positions -/

/-- Positions whose numbers fit behave like numbers. -/
class LawfulPosition (ω : Type) [Position ω] where
  fits : Nat → Prop
  fits_of_le {low high : Nat} : low ≤ high → fits high → fits low
  injective {first second : Nat} : fits first → fits second →
    (Position.ofNat first : ω) = Position.ofNat second → first = second
  succ_ofNat (number : Nat) : Position.succ (Position.ofNat number : ω) = Position.ofNat (number + 1)
  lap_ofNat (number : Nat) :
    Position.lap (Position.ofNat number : ω) = Position.ofNat (number + kQueueLen)
  cell_ofNat (number : Nat) : Position.cell (Position.ofNat number : ω) = number % kQueueLen
  diff_eq_zero {first second : Nat} : fits first → fits second →
    (Position.diff (Position.ofNat first : ω) (Position.ofNat second) = 0 ↔ first = second)
  diff_neg {first second : Nat} : fits first → fits second →
    (Position.diff (Position.ofNat first : ω) (Position.ofNat second) < 0 ↔ first < second)

instance : LawfulPosition Nat where
  fits _ := True
  fits_of_le _ _ := trivial
  injective _ _ same := same
  succ_ofNat _ := rfl
  lap_ofNat _ := rfl
  cell_ofNat _ := rfl
  diff_eq_zero _ _ := by
    simp only [Position.diff, Position.ofNat]
    omega
  diff_neg _ _ := by
    simp only [Position.diff, Position.ofNat]
    omega

private theorem toInt_sub_ofNat {first second : Nat} (firstFits : first < 2 ^ 63)
    (secondFits : second < 2 ^ 63) :
    (UInt64.ofNat first - UInt64.ofNat second).toBitVec.toInt = (first : Int) - (second : Int) := by
  have bits : (UInt64.ofNat first - UInt64.ofNat second).toBitVec =
      BitVec.ofNat 64 first - BitVec.ofNat 64 second := rfl
  rw [bits, BitVec.toInt_sub, BitVec.toInt_eq_toNat_bmod, BitVec.toInt_eq_toNat_bmod,
    BitVec.toNat_ofNat, BitVec.toNat_ofNat]
  simp only [Int.bmod_def]
  omega

instance : LawfulPosition UInt64 where
  fits number := number < 2 ^ 63
  fits_of_le le fits := Nat.lt_of_le_of_lt le fits
  injective firstFits secondFits same := by
    have values := congrArg UInt64.toNat same
    simp only [Position.ofNat, UInt64.toNat_ofNat'] at values
    omega
  succ_ofNat number := by
    simp [Position.succ, Position.ofNat, UInt64.ofNat_add]
  lap_ofNat number := by
    simp [Position.lap, Position.ofNat, UInt64.ofNat_add]
  cell_ofNat number := by
    have mask : (UInt64.ofNat kQueueLen - 1).toNat = 2 ^ 8 - 1 := by decide
    simp only [Position.cell, Position.ofNat, UInt64.toNat_and]
    rw [mask, Nat.and_two_pow_sub_one_eq_mod, UInt64.toNat_ofNat', kQueueLen]
    omega
  diff_eq_zero firstFits secondFits := by
    simp only [Position.diff, Position.ofNat, toInt_sub_ofNat firstFits secondFits]
    omega
  diff_neg firstFits secondFits := by
    simp only [Position.diff, Position.ofNat, toInt_sub_ofNat firstFits secondFits]
    omega

/-! ## What a step does -/

section

variable {ω η : Type} [Position ω]

/-- The moves of `ringPush` in one thread. -/
inductive PushMove (r : Ring ω η) (thread : Nat) : Ring ω η → Prop
  | loadPos {src : Record η} (phase : r.pushers thread = .loadPos src) :
      PushMove r thread (setPusher r thread (.loadSeq src r.enqueuePos))
  | free {src : Record η} {pos : ω} (phase : r.pushers thread = .loadSeq src pos)
      (zero : Position.diff (r.cells (Position.cell pos)).seq pos = 0) :
      PushMove r thread (setPusher r thread (.claim src pos))
  | full {src : Record η} {pos : ω} (phase : r.pushers thread = .loadSeq src pos)
      (negative : Position.diff (r.cells (Position.cell pos)).seq pos < 0) :
      PushMove r thread (setPusher r thread (.returned false))
  | retry {src : Record η} {pos : ω} (phase : r.pushers thread = .loadSeq src pos) :
      PushMove r thread (setPusher r thread (.loadPos src))
  | claim {src : Record η} (phase : r.pushers thread = .claim src r.enqueuePos) :
      PushMove r thread (setPusher
        { r with
          enqueuePos := Position.succ r.enqueuePos, claims := r.claims ++ [(thread, src)] }
        thread (.copyHeader src r.enqueuePos))
  | lost {src : Record η} {pos : ω} (phase : r.pushers thread = .claim src pos) :
      PushMove r thread (setPusher r thread (.loadSeq src r.enqueuePos))
  | header {src : Record η} {pos : ω} (phase : r.pushers thread = .copyHeader src pos) :
      PushMove r thread (setPusher
        { r with
          cells := setCell r.cells pos fun cell =>
            { cell with header := src.header, argLen := src.args.length } }
        thread (.copyArg src pos 0))
  | arg {src : Record η} {pos : ω} {copied : Nat} {byte : UInt8}
      (phase : r.pushers thread = .copyArg src pos copied)
      (read : src.args[copied]? = some byte) :
      PushMove r thread (setPusher
        { r with
          cells := setCell r.cells pos fun cell =>
            { cell with args := Function.update cell.args copied byte } }
        thread (.copyArg src pos (copied + 1)))
  | argLen {src : Record η} {pos : ω} {copied : Nat}
      (phase : r.pushers thread = .copyArg src pos copied) (read : src.args[copied]? = none) :
      PushMove r thread (setPusher
        { r with
          cells := setCell r.cells pos fun cell => { cell with argLen := src.args.length } }
        thread (.publish src pos))
  | publish {src : Record η} {pos : ω} (phase : r.pushers thread = .publish src pos) :
      PushMove r thread (setPusher
        { r with
          cells := setCell r.cells pos fun cell => { cell with seq := Position.succ pos }
          published := r.published ++ [pos]
          accepted := r.accepted ++ [(thread, src)] }
        thread (.returned true))

/-- The moves of `ringPop`. -/
inductive PopMove (r : Ring ω η) : Ring ω η → Prop
  | loadPos (phase : r.popper = .loadPos) :
      PopMove r { r with popper := .loadSeq r.dequeuePos }
  | ready {pos : ω} (phase : r.popper = .loadSeq pos)
      (zero : Position.diff (r.cells (Position.cell pos)).seq (Position.succ pos) = 0) :
      PopMove r { r with popper := .claim pos }
  | empty {pos : ω} (phase : r.popper = .loadSeq pos)
      (negative : Position.diff (r.cells (Position.cell pos)).seq (Position.succ pos) < 0) :
      PopMove r { r with popper := .returned none }
  | retry {pos : ω} (phase : r.popper = .loadSeq pos) : PopMove r { r with popper := .loadPos }
  | claim (phase : r.popper = .claim r.dequeuePos) :
      PopMove r { r with
        dequeuePos := Position.succ r.dequeuePos, popper := .loadArgLen r.dequeuePos }
  | lost {pos : ω} (phase : r.popper = .claim pos) :
      PopMove r { r with popper := .loadSeq r.dequeuePos }
  | argLen {pos : ω} (phase : r.popper = .loadArgLen pos) :
      PopMove r { r with popper := .copyHeader pos (r.cells (Position.cell pos)).argLen }
  | header {pos : ω} {size : Nat} (phase : r.popper = .copyHeader pos size) :
      PopMove r { r with popper := .copyArg pos size (r.cells (Position.cell pos)).header [] }
  | arg {pos : ω} {size : Nat} {header : η} {args : List UInt8}
      (phase : r.popper = .copyArg pos size header args) (more : args.length < size) :
      PopMove r { r with
        popper := .copyArg pos size header
          (args ++ [(r.cells (Position.cell pos)).args args.length]) }
  | copied {pos : ω} {size : Nat} {header : η} {args : List UInt8}
      (phase : r.popper = .copyArg pos size header args) (done : ¬ args.length < size) :
      PopMove r { r with
        popper := .release pos ⟨header, (r.cells (Position.cell pos)).argLen, args⟩ }
  | release {pos : ω} {dst : Popped η} (phase : r.popper = .release pos dst) :
      PopMove r { r with
        cells := setCell r.cells pos fun cell => { cell with seq := Position.lap pos }
        popper := .returned (some dst)
        popped := r.popped ++ [dst] }

variable [DecidableEq ω] {r r' : Ring ω η}

theorem pushStep_move {thread : Nat} {spurious : Bool}
    (step : pushStep r thread spurious = some r') : PushMove r thread r' := by
  unfold pushStep at step
  cases phase : r.pushers thread with
  | idle => simp [phase] at step
  | returned result => simp [phase] at step
  | loadPos src =>
      rw [phase] at step
      cases step
      exact .loadPos phase
  | loadSeq src pos =>
      rw [phase] at step
      dsimp only at step
      split at step
      next zero =>
        cases step
        exact .free phase zero
      next =>
        split at step
        next negative =>
          cases step
          exact .full phase negative
        next =>
          cases step
          exact .retry phase
  | claim src pos =>
      rw [phase] at step
      dsimp only at step
      split at step
      next success =>
        obtain ⟨_, rfl⟩ := success
        cases step
        exact .claim phase
      next =>
        cases step
        exact .lost phase
  | copyHeader src pos =>
      rw [phase] at step
      cases step
      exact .header phase
  | copyArg src pos copied =>
      rw [phase] at step
      dsimp only at step
      split at step
      next byte read =>
        cases step
        exact .arg phase read
      next read =>
        cases step
        exact .argLen phase read
  | publish src pos =>
      rw [phase] at step
      cases step
      exact .publish phase

theorem popStep_move {spurious : Bool} (step : popStep r spurious = some r') : PopMove r r' := by
  unfold popStep at step
  cases phase : r.popper with
  | idle => simp [phase] at step
  | returned result => simp [phase] at step
  | loadPos =>
      rw [phase] at step
      cases step
      exact .loadPos phase
  | loadSeq pos =>
      rw [phase] at step
      dsimp only at step
      split at step
      next zero =>
        cases step
        exact .ready phase zero
      next =>
        split at step
        next negative =>
          cases step
          exact .empty phase negative
        next =>
          cases step
          exact .retry phase
  | claim pos =>
      rw [phase] at step
      dsimp only at step
      split at step
      next success =>
        obtain ⟨_, rfl⟩ := success
        cases step
        exact .claim phase
      next =>
        cases step
        exact .lost phase
  | loadArgLen pos =>
      rw [phase] at step
      cases step
      exact .argLen phase
  | copyHeader pos size =>
      rw [phase] at step
      cases step
      exact .header phase
  | copyArg pos size header args =>
      rw [phase] at step
      dsimp only at step
      split at step
      next more =>
        cases step
        exact .arg phase more
      next done =>
        cases step
        exact .copied phase done
  | release pos dst =>
      rw [phase] at step
      cases step
      exact .release phase

end

/-! ## The invariant -/

variable {ω η : Type} [Position ω]

/-- The memory of a cell holds a record. -/
structure Cell.Holds (cell : Cell ω η) (src : Record η) : Prop where
  header : cell.header = src.header
  argLen : cell.argLen = src.args.length
  args : ∀ k byte, src.args[k]? = some byte → cell.args k = byte

/-- A popped record agrees with what was pushed. -/
structure Popped.Agrees (dst : Popped η) (src : Record η) : Prop where
  header : dst.header = src.header
  argLen : dst.argLen = src.args.length
  args : dst.args = src.args

/-- The position a call has claimed and not yet published. -/
def Pusher.owned : Pusher ω η → Option ω
  | .copyHeader _ pos => some pos
  | .copyArg _ pos _ => some pos
  | .publish _ pos => some pos
  | _ => none

/-- How many claimed positions the consumer has not yet released. -/
def Popper.held : Popper ω η → Nat
  | .loadArgLen _ => 1
  | .copyHeader _ _ => 1
  | .copyArg _ _ _ _ => 1
  | .release _ _ => 1
  | _ => 0

/-- `thread` has claimed `pos` for `src` and not yet published it. -/
def Owns (r : Ring ω η) (thread : Nat) (src : Record η) (pos : ω) : Prop :=
  ∃ p, pos = Position.ofNat p ∧ r.claims[p]? = some (thread, src) ∧
    Position.ofNat p ∉ r.published

def PusherOk (r : Ring ω η) (thread : Nat) : Pusher ω η → Prop
  | .loadSeq _ pos => ∃ p ≤ r.claims.length, pos = Position.ofNat p
  | .claim _ pos => ∃ p ≤ r.claims.length, pos = Position.ofNat p ∧ p < r.popped.length + kQueueLen
  | .copyHeader src pos => Owns r thread src pos
  | .copyArg src pos copied => Owns r thread src pos ∧
      (r.cells (Position.cell pos)).header = src.header ∧
      ∀ k byte, k < copied → src.args[k]? = some byte →
        (r.cells (Position.cell pos)).args k = byte
  | .publish src pos => Owns r thread src pos ∧ (r.cells (Position.cell pos)).Holds src
  | _ => True

/-- The consumer is at the first unreleased position, which is published. -/
def Pops (r : Ring ω η) (pos : ω) : Prop :=
  pos = Position.ofNat r.popped.length ∧ pos ∈ r.published

def PopperOk (r : Ring ω η) : Popper ω η → Prop
  | .loadSeq pos => pos = Position.ofNat r.popped.length
  | .claim pos => Pops r pos
  | .loadArgLen pos => Pops r pos
  | .copyHeader pos size => Pops r pos ∧
      ∀ entry, r.claims[r.popped.length]? = some entry → size = entry.2.args.length
  | .copyArg pos size header args => Pops r pos ∧
      ∀ entry, r.claims[r.popped.length]? = some entry → size = entry.2.args.length ∧
        header = entry.2.header ∧ args.length ≤ size ∧ args = entry.2.args.take args.length
  | .release pos dst => Pops r pos ∧
      ∀ entry, r.claims[r.popped.length]? = some entry → dst.Agrees entry.2
  | _ => True

structure RingOk [LawfulPosition ω] (r : Ring ω η) : Prop where
  fits : LawfulPosition.fits ω (r.claims.length + (kQueueLen - 1))
  enqueuePos : r.enqueuePos = Position.ofNat r.claims.length
  dequeuePos : r.dequeuePos = Position.ofNat (r.popped.length + r.popper.held)
  bound : r.claims.length ≤ r.popped.length + kQueueLen
  published_lt : ∀ pos ∈ r.published, ∃ p < r.claims.length, pos = Position.ofNat p
  released : ∀ p < r.popped.length, Position.ofNat p ∈ r.published
  seq_published : ∀ p, r.popped.length ≤ p → p < r.popped.length + kQueueLen →
    Position.ofNat p ∈ r.published →
    (r.cells (p % kQueueLen)).seq = Position.ofNat (p + 1)
  seq_free : ∀ p, r.popped.length ≤ p → p < r.popped.length + kQueueLen →
    Position.ofNat p ∉ r.published → (r.cells (p % kQueueLen)).seq = Position.ofNat p
  content : ∀ p entry, r.popped.length ≤ p → Position.ofNat p ∈ r.published →
    r.claims[p]? = some entry → (r.cells (p % kQueueLen)).Holds entry.2
  owned : ∀ p < r.claims.length, Position.ofNat p ∉ r.published →
    ∃ thread, (r.pushers thread).owned = some (Position.ofNat p)
  pushers : ∀ thread, PusherOk r thread (r.pushers thread)
  popper : PopperOk r r.popper
  popped : ∀ (p : Nat) (dst : Popped η), r.popped[p]? = some dst →
    ∃ entry : Nat × Record η, r.claims[p]? = some entry ∧ dst.Agrees entry.2

section

variable [LawfulPosition ω] {r : Ring ω η}

theorem RingOk.fits_claim (ok : RingOk r) {p : Nat} (le : p ≤ r.claims.length + (kQueueLen - 1)) :
    LawfulPosition.fits ω p :=
  LawfulPosition.fits_of_le le ok.fits

theorem RingOk.not_published (ok : RingOk r) {p : Nat} (unclaimed : r.claims.length ≤ p)
    (le : p ≤ r.claims.length + (kQueueLen - 1)) :
    (Position.ofNat p : ω) ∉ r.published := by
  intro member
  obtain ⟨q, claimed, same⟩ := ok.published_lt _ member
  have equal := LawfulPosition.injective (ok.fits_claim le) (ok.fits_claim (by omega)) same
  omega

theorem RingOk.popped_le (ok : RingOk r) : r.popped.length ≤ r.claims.length := by
  by_contra beyond
  have member := ok.released r.claims.length (by omega)
  exact ok.not_published le_rfl (by omega) member

theorem RingOk.released_le (ok : RingOk r) {p : Nat}
    (unpublished : (Position.ofNat p : ω) ∉ r.published) : r.popped.length ≤ p := by
  by_contra released
  exact unpublished (ok.released p (by omega))

/-- What a load of a sequence number tells about the position `p`. -/
theorem RingOk.seq_cases (ok : RingOk r) {p : Nat} (claimed : p ≤ r.claims.length) :
    let seq := (r.cells (Position.cell (Position.ofNat p : ω))).seq
    (Position.diff seq (Position.ofNat p) = 0 → p < r.popped.length + kQueueLen) ∧
      (Position.diff seq (Position.ofNat p) < 0 →
        r.claims.length = r.popped.length + kQueueLen) := by
  have positive : 0 < kQueueLen := by decide
  have released := ok.popped_le
  have bound := ok.bound
  -- `q` is the unreleased position that lives in the cell of `p`
  obtain ⟨q, low, high, same⟩ : ∃ q, r.popped.length ≤ q ∧ q < r.popped.length + kQueueLen ∧
      q % kQueueLen = p % kQueueLen := by
    refine ⟨r.popped.length + (p + kQueueLen - r.popped.length % kQueueLen) % kQueueLen, ?_, ?_, ?_⟩
    · omega
    · have := Nat.mod_lt (p + kQueueLen - r.popped.length % kQueueLen) positive
      omega
    · have below := Nat.mod_lt r.popped.length positive
      simp only [kQueueLen] at *
      omega
  have qFits : LawfulPosition.fits ω q := ok.fits_claim (by omega)
  have pFits : LawfulPosition.fits ω p := ok.fits_claim (by omega)
  rw [LawfulPosition.cell_ofNat, ← same]
  by_cases published : (Position.ofNat q : ω) ∈ r.published
  · have before : q < r.claims.length := by
      by_contra unclaimed
      exact ok.not_published (by omega) (by omega) published
    have nextFits : LawfulPosition.fits ω (q + 1) := ok.fits_claim (by omega)
    simp only [ok.seq_published q low high published, LawfulPosition.diff_eq_zero nextFits pFits,
      LawfulPosition.diff_neg nextFits pFits]
    simp only [kQueueLen] at *
    omega
  · simp only [ok.seq_free q low high published, LawfulPosition.diff_eq_zero qFits pFits,
      LawfulPosition.diff_neg qFits pFits]
    simp only [kQueueLen] at *
    omega

theorem RingOk.cell_ne (ok : RingOk r) {p q : Nat} (pLow : r.popped.length ≤ p)
    (pHigh : p < r.claims.length) (qLow : r.popped.length ≤ q) (qHigh : q < r.claims.length)
    (different : p ≠ q) : p % kQueueLen ≠ q % kQueueLen := by
  have bound := ok.bound
  rcases Nat.lt_or_gt_of_ne different with before | after
  · exact Ring.slot_ne before (by omega)
  · exact (Ring.slot_ne after (by omega)).symm

omit [LawfulPosition ω] in
/-- Facts of a producer survive steps that only add claims and releases, and that leave its own
position alone. -/
theorem PusherOk.mono {r' : Ring ω η} {thread : Nat} {phase : Pusher ω η}
    (ok : PusherOk r thread phase) (more : List (Nat × Record η))
    (claims : r'.claims = r.claims ++ more) (popped : r.popped.length ≤ r'.popped.length)
    (unpublished : ∀ pos, phase.owned = some pos → pos ∉ r.published → pos ∉ r'.published)
    (cells : ∀ pos, phase.owned = some pos →
      r'.cells (Position.cell pos) = r.cells (Position.cell pos)) :
    PusherOk r' thread phase := by
  have longer : r.claims.length ≤ r'.claims.length := by simp [claims]
  have owns : ∀ src pos, phase.owned = some pos → Owns r thread src pos →
      Owns r' thread src pos := by
    rintro src pos owned ⟨p, rfl, claimed, fresh⟩
    refine ⟨p, rfl, ?_, unpublished _ owned fresh⟩
    rw [claims, List.getElem?_append_left (List.getElem?_eq_some_iff.mp claimed).1, claimed]
  cases phase with
  | idle => trivial
  | loadPos src => trivial
  | returned result => trivial
  | loadSeq src pos =>
      obtain ⟨p, le, same⟩ := ok
      exact ⟨p, le.trans longer, same⟩
  | claim src pos =>
      obtain ⟨p, le, same, near⟩ := ok
      exact ⟨p, le.trans longer, same, by omega⟩
  | copyHeader src pos => exact owns src pos rfl ok
  | copyArg src pos copied =>
      obtain ⟨owner, header, args⟩ := ok
      refine ⟨owns src pos rfl owner, ?_, ?_⟩
      · rw [cells pos rfl, header]
      · rw [cells pos rfl]
        exact args
  | publish src pos =>
      obtain ⟨owner, holds⟩ := ok
      refine ⟨owns src pos rfl owner, ?_⟩
      rw [cells pos rfl]
      exact holds

theorem PopperOk.mono (valid : RingOk r) {r' : Ring ω η} {phase : Popper ω η}
    (ok : PopperOk r phase) (more : List (Nat × Record η)) (claims : r'.claims = r.claims ++ more)
    (popped : r'.popped = r.popped) (published : ∀ pos ∈ r.published, pos ∈ r'.published) :
    PopperOk r' phase := by
  have pops : ∀ pos, Pops r pos → Pops r' pos := by
    intro pos ⟨same, member⟩
    exact ⟨by rw [popped, same], published pos member⟩
  have entry : ∀ pos, Pops r pos →
      r'.claims[r'.popped.length]? = r.claims[r.popped.length]? := by
    intro pos ⟨same, member⟩
    have claimed : r.popped.length < r.claims.length := by
      by_contra beyond
      have released := valid.popped_le
      exact valid.not_published (by omega) (by omega) (same ▸ member)
    rw [claims, popped, List.getElem?_append_left claimed]
  cases phase with
  | idle => trivial
  | loadPos => trivial
  | returned result => trivial
  | loadSeq pos => exact (show pos = _ from ok).trans (by rw [popped])
  | claim pos => exact pops pos ok
  | loadArgLen pos => exact pops pos ok
  | copyHeader pos size =>
      refine ⟨pops pos ok.1, ?_⟩
      rw [entry pos ok.1]
      exact ok.2
  | copyArg pos size header args =>
      refine ⟨pops pos ok.1, ?_⟩
      rw [entry pos ok.1]
      exact ok.2
  | release pos dst =>
      refine ⟨pops pos ok.1, ?_⟩
      rw [entry pos ok.1]
      exact ok.2

/-! ## Steps of the producers -/

theorem RingOk.owner (ok : RingOk r) {thread : Nat} {pos : ω}
    (owned : (r.pushers thread).owned = some pos) : ∃ src, Owns r thread src pos := by
  have valid := ok.pushers thread
  revert owned valid
  cases r.pushers thread with
  | idle => simp [Pusher.owned]
  | loadPos src => simp [Pusher.owned]
  | loadSeq src at' => simp [Pusher.owned]
  | claim src at' => simp [Pusher.owned]
  | returned result => simp [Pusher.owned]
  | copyHeader src at' =>
      intro owned valid
      cases owned
      exact ⟨src, valid⟩
  | copyArg src at' copied =>
      intro owned valid
      cases owned
      exact ⟨src, valid.1⟩
  | publish src at' =>
      intro owned valid
      cases owned
      exact ⟨src, valid.1⟩

omit [Position ω] [LawfulPosition ω] in
theorem Owns.claimed {thread : Nat} {src : Record η} {p : Nat}
    (claimed : r.claims[p]? = some (thread, src)) : p < r.claims.length :=
  (List.getElem?_eq_some_iff.mp claimed).1

theorem RingOk.owners_apart (ok : RingOk r) {first second : Nat} {src : Record η} {pos pos' : ω}
    (different : second ≠ first) (owns : Owns r first src pos)
    (owned : (r.pushers second).owned = some pos') :
    pos' ≠ pos ∧ Position.cell pos' ≠ Position.cell pos := by
  obtain ⟨p, rfl, claimed, fresh⟩ := owns
  obtain ⟨src', q, rfl, claimed', fresh'⟩ := ok.owner owned
  have apart : q ≠ p := by
    intro same
    rw [same, claimed] at claimed'
    cases claimed'
    exact different rfl
  have pHigh := Owns.claimed claimed
  have qHigh := Owns.claimed claimed'
  have cells := ok.cell_ne (ok.released_le fresh') qHigh (ok.released_le fresh) pHigh apart
  constructor
  · intro same
    exact apart (LawfulPosition.injective (ok.fits_claim (by omega)) (ok.fits_claim (by omega)) same)
  · rw [LawfulPosition.cell_ofNat, LawfulPosition.cell_ofNat]
    exact cells

theorem RingOk.setPusher (ok : RingOk r) {thread : Nat} {phase : Pusher ω η}
    (free : (r.pushers thread).owned = none) (valid : PusherOk r thread phase) :
    RingOk (setPusher r thread phase) := by
  refine { ok with owned := ?_, pushers := ?_ }
  · intro p claimed unpublished
    obtain ⟨owner, owned⟩ := ok.owned p claimed unpublished
    have different : owner ≠ thread := by
      intro same
      rw [same, free] at owned
      cases owned
    exact ⟨owner, by simpa [UlogRing.setPusher, Function.update_of_ne different] using owned⟩
  · intro other
    by_cases same : other = thread
    · subst same
      simp only [UlogRing.setPusher, Function.update_self]
      exact valid
    · simp only [UlogRing.setPusher, Function.update_of_ne same]
      exact ok.pushers other

theorem RingOk.writeCell (ok : RingOk r) {thread : Nat} {src : Record η} {pos : ω}
    {phase : Pusher ω η} {change : Cell ω η → Cell ω η}
    (owned : (r.pushers thread).owned = some pos) (owns : Owns r thread src pos)
    (keeps : ∀ cell, (change cell).seq = cell.seq) (still : phase.owned = some pos)
    (valid : PusherOk { r with cells := setCell r.cells pos change } thread phase) :
    RingOk (UlogRing.setPusher { r with cells := setCell r.cells pos change } thread phase) := by
  have seqs : ∀ i, (setCell r.cells pos change i).seq = (r.cells i).seq := by
    intro i
    by_cases same : i = Position.cell pos
    · subst same
      simp [setCell, keeps]
    · simp [setCell, Function.update_of_ne same]
  refine { ok with
    seq_published := ?_, seq_free := ?_, content := ?_, owned := ?_, pushers := ?_, popper := ?_ }
  · intro p low high published
    exact (seqs _).trans (ok.seq_published p low high published)
  · intro p low high unpublished
    exact (seqs _).trans (ok.seq_free p low high unpublished)
  · intro p entry low published claimed
    obtain ⟨q, rfl, claimed', fresh⟩ := owns
    have apart : p ≠ q := by
      intro same
      exact fresh (same ▸ published)
    have cells := ok.cell_ne low (List.getElem?_eq_some_iff.mp claimed).1 (ok.released_le fresh)
      (Owns.claimed claimed') apart
    simp only [UlogRing.setPusher, setCell, LawfulPosition.cell_ofNat, Function.update_of_ne cells]
    exact ok.content p entry low published claimed
  · intro p claimed unpublished
    obtain ⟨owner, owned'⟩ := ok.owned p claimed unpublished
    refine ⟨owner, ?_⟩
    by_cases same : owner = thread
    · subst same
      simp only [UlogRing.setPusher, Function.update_self]
      rw [still, ← owned, owned']
    · simpa [UlogRing.setPusher, Function.update_of_ne same] using owned'
  · intro other
    by_cases same : other = thread
    · subst same
      simp only [UlogRing.setPusher, Function.update_self]
      exact valid
    · simp only [UlogRing.setPusher, Function.update_of_ne same]
      refine (ok.pushers other).mono [] (by simp) le_rfl (fun _ _ fresh => fresh) ?_
      intro pos' owned'
      have cells := (ok.owners_apart same owns owned').2
      simp [setCell, Function.update_of_ne cells]
  · exact PopperOk.mono ok ok.popper [] (by simp [UlogRing.setPusher]) rfl (fun _ member => member)

/-- The compare-exchange on `enqueuePos` succeeds. -/
theorem RingOk.claimPosition (ok : RingOk r) {thread : Nat} {src : Record η}
    (phase : r.pushers thread = .claim src r.enqueuePos)
    (fits : LawfulPosition.fits ω (r.claims.length + 1 + (kQueueLen - 1))) :
    RingOk (UlogRing.setPusher
      { r with
        enqueuePos := Position.succ r.enqueuePos, claims := r.claims ++ [(thread, src)] }
      thread (.copyHeader src r.enqueuePos)) := by
  have near : r.claims.length < r.popped.length + kQueueLen := by
    have valid := ok.pushers thread
    rw [phase, ok.enqueuePos] at valid
    obtain ⟨p, le, same, near⟩ := valid
    have equal := LawfulPosition.injective (ok.fits_claim (by omega)) (ok.fits_claim (by omega)) same
    omega
  have extend : ∀ (p : Nat) (entry : Nat × Record η), r.claims[p]? = some entry →
      (r.claims ++ [(thread, src)])[p]? = some entry := by
    intro p entry claimed
    rw [List.getElem?_append_left (List.getElem?_eq_some_iff.mp claimed).1, claimed]
  have fresh : (Position.ofNat r.claims.length : ω) ∉ r.published :=
    ok.not_published le_rfl (by omega)
  refine { ok with
    fits := ?_, enqueuePos := ?_, bound := ?_, published_lt := ?_, content := ?_, owned := ?_,
    pushers := ?_, popper := ?_, popped := ?_ }
  · simpa [UlogRing.setPusher] using fits
  · simp [UlogRing.setPusher, ok.enqueuePos, LawfulPosition.succ_ofNat]
  · simp [UlogRing.setPusher]
    omega
  · intro pos member
    obtain ⟨p, lt, same⟩ := ok.published_lt pos member
    exact ⟨p, by simp [UlogRing.setPusher]; omega, same⟩
  · intro p entry low published claimed
    have before : p < r.claims.length := by
      by_contra beyond
      have le : p ≤ r.claims.length := by
        have inside := (List.getElem?_eq_some_iff.mp claimed).1
        simp [UlogRing.setPusher] at inside
        omega
      exact ok.not_published (by omega) (by omega) published
    simp only [UlogRing.setPusher, List.getElem?_append_left before] at claimed
    exact ok.content p entry low published claimed
  · intro p claimed unpublished
    by_cases last : p = r.claims.length
    · refine ⟨thread, ?_⟩
      simp [UlogRing.setPusher, Pusher.owned, ok.enqueuePos, last]
    · obtain ⟨owner, owned⟩ := ok.owned p
        (by simp [UlogRing.setPusher] at claimed; omega) unpublished
      have different : owner ≠ thread := by
        intro same
        rw [same, phase] at owned
        cases owned
      exact ⟨owner, by simpa [UlogRing.setPusher, Function.update_of_ne different] using owned⟩
  · intro other
    by_cases same : other = thread
    · subst same
      simp only [UlogRing.setPusher, Function.update_self]
      exact ⟨r.claims.length, ok.enqueuePos, by simp, fresh⟩
    · simp only [UlogRing.setPusher, Function.update_of_ne same]
      exact (ok.pushers other).mono [(thread, src)] rfl le_rfl (fun _ _ fresh => fresh)
        (fun _ _ => rfl)
  · exact PopperOk.mono ok ok.popper [(thread, src)] rfl rfl (fun _ member => member)
  · intro p dst member
    obtain ⟨entry, claimed, agrees⟩ := ok.popped p dst member
    exact ⟨entry, extend p entry claimed, agrees⟩

/-- The store that publishes a record. -/
theorem RingOk.publish (ok : RingOk r) {thread : Nat} {src : Record η} {pos : ω}
    (phase : r.pushers thread = .publish src pos) :
    RingOk (UlogRing.setPusher
      { r with
        cells := setCell r.cells pos fun cell => { cell with seq := Position.succ pos }
        published := r.published ++ [pos]
        accepted := r.accepted ++ [(thread, src)] }
      thread (.returned true)) := by
  have valid := ok.pushers thread
  rw [phase] at valid
  obtain ⟨owns, holds⟩ := valid
  obtain ⟨p, rfl, claimed, fresh⟩ := id owns
  have pHigh := Owns.claimed claimed
  have pLow := ok.released_le fresh
  have bound := ok.bound
  have released := ok.popped_le
  have different : ∀ q, q ≤ r.claims.length + (kQueueLen - 1) → q ≠ p →
      (Position.ofNat q : ω) ≠ Position.ofNat p := by
    intro q le apart same
    exact apart (LawfulPosition.injective (ok.fits_claim le) (ok.fits_claim (by omega)) same)
  have near : p < r.popped.length + kQueueLen := by omega
  have otherCell : ∀ q, r.popped.length ≤ q → q < r.popped.length + kQueueLen → q ≠ p →
      q % kQueueLen ≠ p % kQueueLen := by
    intro q low high apart
    rcases Nat.lt_or_gt_of_ne apart with before | after
    · exact Ring.slot_ne before (by omega)
    · exact (Ring.slot_ne after (by omega)).symm
  refine { ok with
    published_lt := ?_, released := ?_, seq_published := ?_, seq_free := ?_, content := ?_,
    owned := ?_, pushers := ?_, popper := ?_ }
  · intro pos member
    simp only [UlogRing.setPusher, List.mem_append, List.mem_singleton] at member
    rcases member with before | rfl
    · exact ok.published_lt pos before
    · exact ⟨p, pHigh, rfl⟩
  · intro q below
    simp only [UlogRing.setPusher, List.mem_append]
    exact .inl (ok.released q below)
  · intro q low high published
    by_cases same : q = p
    · subst same
      simp [UlogRing.setPusher, setCell, LawfulPosition.cell_ofNat, LawfulPosition.succ_ofNat]
    · simp only [UlogRing.setPusher, setCell, LawfulPosition.cell_ofNat,
        Function.update_of_ne (otherCell q low high same)]
      simp only [UlogRing.setPusher, List.mem_append, List.mem_singleton] at published
      have le : q ≤ r.claims.length + (kQueueLen - 1) := by
        simp only [UlogRing.setPusher] at high
        omega
      exact ok.seq_published q low high (published.resolve_right (different q le same))
  · intro q low high unpublished
    simp only [UlogRing.setPusher, List.mem_append, List.mem_singleton, not_or] at unpublished
    have apart : q ≠ p := by
      intro same
      exact unpublished.2 (by rw [same])
    simp only [UlogRing.setPusher, setCell, LawfulPosition.cell_ofNat,
      Function.update_of_ne (otherCell q low high apart)]
    exact ok.seq_free q low high unpublished.1
  · intro q entry low published claimed'
    by_cases same : q = p
    · subst same
      simp only [UlogRing.setPusher] at claimed'
      rw [claimed] at claimed'
      cases claimed'
      rw [LawfulPosition.cell_ofNat] at holds
      simp only [UlogRing.setPusher, setCell, LawfulPosition.cell_ofNat, Function.update_self]
      exact ⟨holds.header, holds.argLen, holds.args⟩
    · have qHigh : q < r.claims.length := (List.getElem?_eq_some_iff.mp claimed').1
      simp only [UlogRing.setPusher, setCell, LawfulPosition.cell_ofNat,
        Function.update_of_ne (otherCell q low (by omega) same)]
      simp only [UlogRing.setPusher, List.mem_append, List.mem_singleton] at published
      exact ok.content q entry low (published.resolve_right (different q (by omega) same)) claimed'
  · intro q claimed' unpublished
    simp only [UlogRing.setPusher, List.mem_append, List.mem_singleton, not_or] at unpublished
    obtain ⟨owner, owned⟩ := ok.owned q claimed' unpublished.1
    have apart : owner ≠ thread := by
      intro same
      rw [same, phase] at owned
      exact unpublished.2 (Option.some.inj owned).symm
    exact ⟨owner, by simpa [UlogRing.setPusher, Function.update_of_ne apart] using owned⟩
  · intro other
    by_cases same : other = thread
    · subst same
      simp only [UlogRing.setPusher, Function.update_self]
      trivial
    · simp only [UlogRing.setPusher, Function.update_of_ne same]
      refine (ok.pushers other).mono [] (by simp) le_rfl ?_ ?_
      · intro pos' owned' fresh'
        simp only [List.mem_append, List.mem_singleton, not_or]
        exact ⟨fresh', (ok.owners_apart same owns owned').1⟩
      · intro pos' owned'
        simp [setCell, Function.update_of_ne (ok.owners_apart same owns owned').2]
  · refine PopperOk.mono ok ok.popper [] (by simp [UlogRing.setPusher]) rfl ?_
    intro pos member
    simp [UlogRing.setPusher, member]

theorem RingOk.pushMove {r' : Ring ω η} (ok : RingOk r) {thread : Nat}
    (move : PushMove r thread r')
    (fits : LawfulPosition.fits ω (r'.claims.length + (kQueueLen - 1))) : RingOk r' := by
  have valid := ok.pushers thread
  cases move with
  | loadPos phase =>
      exact ok.setPusher (by rw [phase]; rfl) ⟨r.claims.length, le_rfl, ok.enqueuePos⟩
  | free phase zero =>
      rw [phase] at valid
      obtain ⟨p, claimed, rfl⟩ := valid
      exact ok.setPusher (by rw [phase]; rfl) ⟨p, claimed, rfl, (ok.seq_cases claimed).1 zero⟩
  | full phase negative => exact ok.setPusher (by rw [phase]; rfl) trivial
  | retry phase => exact ok.setPusher (by rw [phase]; rfl) trivial
  | claim phase => exact ok.claimPosition phase (by simpa [UlogRing.setPusher] using fits)
  | lost phase =>
      exact ok.setPusher (by rw [phase]; rfl) ⟨r.claims.length, le_rfl, ok.enqueuePos⟩
  | header phase =>
      rw [phase] at valid
      refine ok.writeCell (by rw [phase]; rfl) valid (fun _ => rfl) rfl ⟨valid, ?_, ?_⟩
      · simp [setCell]
      · intro k byte before
        cases before
  | @arg src pos copied byte phase read =>
      rw [phase] at valid
      obtain ⟨owns, header, args⟩ := valid
      refine ok.writeCell (by rw [phase]; rfl) owns (fun _ => rfl) rfl ⟨owns, ?_, ?_⟩
      · simpa [setCell] using header
      · intro k value before inside
        by_cases last : k = copied
        · subst last
          rw [read] at inside
          cases inside
          simp [setCell]
        · simpa [setCell, Function.update_of_ne last] using args k value (by omega) inside
  | @argLen src pos copied phase read =>
      rw [phase] at valid
      obtain ⟨owns, header, args⟩ := valid
      refine ok.writeCell (by rw [phase]; rfl) owns (fun _ => rfl) rfl ⟨owns, ?_, ?_, ?_⟩
      · simpa [setCell] using header
      · simp [setCell]
      · intro k value inside
        have before : k < src.args.length := (List.getElem?_eq_some_iff.mp inside).1
        have all : src.args.length ≤ copied := List.getElem?_eq_none_iff.mp read
        simpa [setCell] using args k value (by omega) inside
  | publish phase => exact ok.publish phase

/-! ## Steps of the consumer -/

theorem RingOk.setPopper (ok : RingOk r) {phase : Popper ω η} (held : phase.held = r.popper.held)
    (valid : PopperOk r phase) : RingOk { r with popper := phase } := by
  refine { ok with dequeuePos := ?_, popper := valid }
  rw [ok.dequeuePos, held]

theorem RingOk.front (ok : RingOk r) {pos : ω} (pops : Pops r pos) :
    ∃ entry : Nat × Record η, r.claims[r.popped.length]? = some entry ∧
      (r.cells (Position.cell pos)).Holds entry.2 := by
  obtain ⟨rfl, member⟩ := pops
  have released := ok.popped_le
  have claimed : r.popped.length < r.claims.length := by
    by_contra beyond
    exact ok.not_published (by omega) (by omega) member
  refine ⟨r.claims[r.popped.length], List.getElem?_eq_getElem claimed, ?_⟩
  rw [LawfulPosition.cell_ofNat]
  exact ok.content _ _ le_rfl member (List.getElem?_eq_getElem claimed)

/-- The cell in front holds the record that was claimed for it. -/
theorem RingOk.front_holds (ok : RingOk r) {pos : ω} (pops : Pops r pos) {entry : Nat × Record η}
    (claimed : r.claims[r.popped.length]? = some entry) :
    (r.cells (Position.cell pos)).Holds entry.2 := by
  obtain ⟨entry', claimed', holds⟩ := ok.front pops
  rw [claimed] at claimed'
  cases claimed'
  exact holds

/-- The load of a sequence number by the consumer tells whether the front is published. -/
theorem RingOk.front_published (ok : RingOk r) :
    Position.diff (r.cells (Position.cell (Position.ofNat r.popped.length : ω))).seq
        (Position.succ (Position.ofNat r.popped.length)) = 0 ↔
      (Position.ofNat r.popped.length : ω) ∈ r.published := by
  have released := ok.popped_le
  have positive : 0 < kQueueLen := by decide
  have fits : LawfulPosition.fits ω r.popped.length := ok.fits_claim (by omega)
  have more : kQueueLen - 1 ≠ 0 := by decide
  have nextFits : LawfulPosition.fits ω (r.popped.length + 1) := ok.fits_claim (by omega)
  rw [LawfulPosition.cell_ofNat, LawfulPosition.succ_ofNat]
  by_cases published : (Position.ofNat r.popped.length : ω) ∈ r.published
  · rw [ok.seq_published _ le_rfl (by omega) published,
      LawfulPosition.diff_eq_zero nextFits nextFits]
    simp [published]
  · rw [ok.seq_free _ le_rfl (by omega) published, LawfulPosition.diff_eq_zero fits nextFits]
    simp [published]

/-- The store that gives a cell back to the producers. -/
theorem RingOk.release (ok : RingOk r) {pos : ω} {dst : Popped η}
    (phase : r.popper = .release pos dst) :
    RingOk { r with
      cells := setCell r.cells pos fun cell => { cell with seq := Position.lap pos }
      popper := .returned (some dst)
      popped := r.popped ++ [dst] } := by
  have valid := ok.popper
  rw [phase] at valid
  obtain ⟨pops, agrees⟩ := valid
  obtain ⟨entry, claimed, _⟩ := ok.front pops
  have inside := (List.getElem?_eq_some_iff.mp claimed).1
  obtain ⟨rfl, member⟩ := pops
  have bound := ok.bound
  have positive : 0 < kQueueLen := by decide
  have otherCell : ∀ q, r.popped.length + 1 ≤ q → q < r.popped.length + kQueueLen →
      q % kQueueLen ≠ r.popped.length % kQueueLen := by
    intro q low high
    exact (Ring.slot_ne (by omega) (by omega)).symm
  refine { ok with
    dequeuePos := ?_, bound := ?_, released := ?_, seq_published := ?_, seq_free := ?_,
    content := ?_, pushers := ?_, popper := trivial, popped := ?_ }
  · rw [ok.dequeuePos, phase]
    simp [Popper.held]
  · simp only [List.length_append, List.length_singleton]
    omega
  · intro p below
    simp only [List.length_append, List.length_singleton] at below
    by_cases last : p = r.popped.length
    · rw [last]
      exact member
    · exact ok.released p (by omega)
  · intro p low high published
    simp only [List.length_append, List.length_singleton] at low high
    have beyond : p < r.claims.length := by
      by_contra unclaimed
      exact ok.not_published (by omega) (by omega) published
    simp only [setCell, LawfulPosition.cell_ofNat,
      Function.update_of_ne (otherCell p low (by omega))]
    exact ok.seq_published p (by omega) (by omega) published
  · intro p low high unpublished
    simp only [List.length_append, List.length_singleton] at low high
    by_cases last : p = r.popped.length + kQueueLen
    · subst last
      simp [setCell, LawfulPosition.cell_ofNat, LawfulPosition.lap_ofNat]
    · simp only [setCell, LawfulPosition.cell_ofNat,
        Function.update_of_ne (otherCell p low (by omega))]
      exact ok.seq_free p (by omega) (by omega) unpublished
  · intro p entry low published claimed'
    simp only [List.length_append, List.length_singleton] at low
    have beyond : p < r.claims.length := (List.getElem?_eq_some_iff.mp claimed').1
    simp only [setCell, LawfulPosition.cell_ofNat,
      Function.update_of_ne (otherCell p low (by omega))]
    exact ok.content p entry (by omega) published claimed'
  · intro thread
    refine (ok.pushers thread).mono [] (by simp) (by simp) (fun _ _ fresh => fresh) ?_
    intro pos' owned
    obtain ⟨src, q, rfl, claimed', fresh⟩ := ok.owner owned
    have low := ok.released_le fresh
    have high := Owns.claimed claimed'
    have apart : q ≠ r.popped.length := by
      intro same
      exact fresh (same ▸ member)
    simp [setCell, LawfulPosition.cell_ofNat,
      Function.update_of_ne (otherCell q (by omega) (by omega))]
  · intro p dst' popped
    by_cases last : p = r.popped.length
    · subst last
      simp only [List.getElem?_concat_length, Option.some.injEq] at popped
      subst popped
      exact ⟨entry, claimed, agrees entry claimed⟩
    · have before : p < r.popped.length := by
        have within := (List.getElem?_eq_some_iff.mp popped).1
        simp only [List.length_append, List.length_singleton] at within
        omega
      rw [List.getElem?_append_left before] at popped
      exact ok.popped p dst' popped

omit [Position ω] [LawfulPosition ω] in
theorem extend_copy {cell : Cell ω η} {src : Record η} (holds : cell.Holds src) {args : List UInt8}
    (copied : args = src.args.take args.length) (inside : args.length < src.args.length) :
    args ++ [cell.args args.length] =
      src.args.take (args ++ [cell.args args.length]).length := by
  have byte := holds.args args.length _ (List.getElem?_eq_getElem inside)
  rw [byte, List.length_append, List.length_singleton, List.take_add_one, ← copied,
    List.getElem?_eq_getElem inside]
  rfl

theorem RingOk.popMove {r' : Ring ω η} (ok : RingOk r) (move : PopMove r r') : RingOk r' := by
  have valid := ok.popper
  have dequeuePos := ok.dequeuePos
  cases move with
  | loadPos phase =>
      rw [phase] at dequeuePos
      exact ok.setPopper (by rw [phase]; rfl) dequeuePos
  | @ready pos phase zero =>
      rw [phase] at valid
      have same : pos = Position.ofNat r.popped.length := valid
      subst same
      exact ok.setPopper (by rw [phase]; rfl) ⟨rfl, ok.front_published.mp zero⟩
  | empty phase negative => exact ok.setPopper (by rw [phase]; rfl) trivial
  | retry phase => exact ok.setPopper (by rw [phase]; rfl) trivial
  | claim phase =>
      rw [phase] at dequeuePos valid
      refine { ok with dequeuePos := ?_, popper := valid }
      simp [dequeuePos, Popper.held, LawfulPosition.succ_ofNat]
  | lost phase =>
      rw [phase] at dequeuePos
      exact ok.setPopper (by rw [phase]; rfl) dequeuePos
  | argLen phase =>
      rw [phase] at valid
      refine ok.setPopper (by rw [phase]; rfl) ⟨valid, ?_⟩
      exact fun entry claimed => (ok.front_holds valid claimed).argLen
  | header phase =>
      rw [phase] at valid
      refine ok.setPopper (by rw [phase]; rfl) ⟨valid.1, ?_⟩
      intro entry claimed
      have holds := ok.front_holds valid.1 claimed
      exact ⟨valid.2 entry claimed, holds.header, by simp, by simp⟩
  | arg phase more =>
      rw [phase] at valid
      obtain ⟨pops, facts⟩ := valid
      refine ok.setPopper (by rw [phase]; rfl) ⟨pops, ?_⟩
      intro entry claimed
      have holds := ok.front_holds pops claimed
      obtain ⟨sizeIs, headerIs, short, copied⟩ := facts entry claimed
      refine ⟨sizeIs, headerIs, by simp; omega, ?_⟩
      exact extend_copy holds copied (by omega)
  | copied phase done =>
      rw [phase] at valid
      obtain ⟨pops, facts⟩ := valid
      refine ok.setPopper (by rw [phase]; rfl) ⟨pops, ?_⟩
      intro entry claimed
      have holds := ok.front_holds pops claimed
      obtain ⟨sizeIs, headerIs, short, copied⟩ := facts entry claimed
      refine ⟨headerIs, holds.argLen, ?_⟩
      rw [copied]
      exact List.take_of_length_le (by omega)
  | release phase => exact ok.release phase

/-! ## All steps -/

variable [DecidableEq ω]

theorem RingOk.next {r' : Ring ω η} (ok : RingOk r) {action : Action η}
    (step : next r action = some r')
    (fits : LawfulPosition.fits ω (r'.claims.length + (kQueueLen - 1))) : RingOk r' := by
  cases action with
  | push thread src =>
      simp only [UlogRing.next] at step
      split at step
      next phase =>
        cases step
        exact ok.setPusher (by rw [phase]; rfl) trivial
      next phase =>
        cases step
        exact ok.setPusher (by rw [phase]; rfl) trivial
      next => cases step
  | pushStep thread spurious => exact ok.pushMove (pushStep_move step) fits
  | pop =>
      simp only [UlogRing.next] at step
      split at step
      next phase =>
        cases step
        exact ok.setPopper (by rw [phase]; rfl) trivial
      next phase =>
        cases step
        exact ok.setPopper (by rw [phase]; rfl) trivial
      next => cases step
  | popStep spurious => exact ok.popMove (popStep_move step)

omit [DecidableEq ω] in
theorem RingOk.initial (memory : Nat → Cell ω η) (fits : LawfulPosition.fits ω (kQueueLen - 1)) :
    RingOk (Ring.initial memory) where
  fits := by simpa [Ring.initial] using fits
  enqueuePos := rfl
  dequeuePos := rfl
  bound := by simp [Ring.initial]
  published_lt := by simp [Ring.initial]
  released := by simp [Ring.initial]
  seq_published := by simp [Ring.initial]
  seq_free p _ high _ := by
    have small : p % kQueueLen = p := Nat.mod_eq_of_lt (by simpa [Ring.initial] using high)
    simp [Ring.initial, small]
  content := by simp [Ring.initial]
  owned := by simp [Ring.initial]
  pushers _ := trivial
  popper := trivial
  popped := by simp [Ring.initial]

end

end FreeDV.Util.UlogRing
