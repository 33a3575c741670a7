import FreeDV.Lib.Transition
import Mathlib.Algebra.Ring.Nat
import Mathlib.Logic.Function.Basic

/-!
# The lock-free FIFO

One producer writes, one consumer reads and any number of threads reset. A step
is one atomic access or one element copy; the local work up to the next access
belongs to the step. `pin_` and `pout_` pack a generation and an index into one
word, here a pair; indices stay below `nelem` and never reach their 32 bits.
`resets`, `committed` and `deliveries` record what happened and are not read.
-/

set_option autoImplicit false

namespace FreeDV.Util.GenericFifo

structure Pos where
  generation : UInt32
  index : Nat
deriving DecidableEq

def computeUsed (nelem : Nat) (pinVal poutVal : Pos) : Option Nat :=
  if pinVal.generation ≠ poutVal.generation then none
  else
    let diff : Int := (pinVal.index : Int) - (poutVal.index : Int)
    let diff := if diff < 0 then diff + nelem else diff
    some diff.toNat

/-- Where the `k`-th of `len` elements is copied by the two `copy_n` calls. -/
def slot (nelem idx len k : Nat) : Nat :=
  let numToCopy := min len (nelem - idx)
  if k < numToCopy then idx + k else k - numToCopy

/-- The index behind the `len` copied elements. -/
def advance (nelem idx len : Nat) : Nat :=
  let numToCopy := min len (nelem - idx)
  let idx := idx + numToCopy
  if idx ≥ nelem then len - numToCopy else idx

/-! ## Threads -/

/-- `copy` has stored the first `copied` elements; behind the last one comes the commit. -/
inductive Writer (α : Type) where
  | idle
  | loadResetting (data : List α)
  | loadPin (data : List α)
  | loadPout (data : List α) (ppin : Pos)
  | copy (data : List α) (startPos : Pos) (copied : Nat)

inductive Reader (α : Type) where
  | idle
  | loadResetting (len : Nat)
  | loadPout (len : Nat)
  | loadPin (len : Nat) (ppout : Pos)
  | copy (len : Nat) (startPos : Pos) (result : List α)

inductive Resetter where
  | idle
  | locking
  | loadPin
  | storePin (oldPin : Pos)
  | storePout (freshPos : Pos)
  | unlock

structure State (α : Type) where
  buf : Nat → α
  pin : Pos
  poutCache : Pos
  pout : Pos
  pinCache : Pos
  resetting : Bool
  writer : Writer α
  reader : Reader α
  resetters : Nat → Resetter
  /-- Resets that have rewound `pin_`. -/
  resets : Nat
  /-- Elements of the writes that returned 0, with their generation. -/
  committed : List (UInt32 × α)
  /-- Lengths and results of the reads that returned 0. -/
  deliveries : List (Nat × List α)

variable {α : Type}

/-- A new FIFO over memory with arbitrary content. -/
def State.initial (buf : Nat → α) : State α where
  buf := buf
  pin := ⟨0, 0⟩
  poutCache := ⟨0, 0⟩
  pout := ⟨0, 0⟩
  pinCache := ⟨0, 0⟩
  resetting := false
  writer := .idle
  reader := .idle
  resetters := fun _ => .idle
  resets := 0
  committed := []
  deliveries := []

/-- The room test of `canWrite_`. -/
def hasRoom (nelem : Nat) (ppin pout : Pos) (len : Nat) : Bool :=
  match computeUsed nelem ppin pout with
  | none => false
  | some used => ¬ (nelem : Int) - (used : Int) - 1 < (len : Int)

/-- The test of `canRead_`. -/
def hasElements (nelem : Nat) (pin ppout : Pos) (len : Nat) : Bool :=
  match computeUsed nelem pin ppout with
  | none => false
  | some used => ¬ used < len

/-- The next access of `write`. -/
def writerStep (nelem : Nat) (s : State α) : Option (State α) :=
  match s.writer with
  | .idle => none
  | .loadResetting data =>
      if s.resetting then some { s with writer := .idle }
      else some { s with writer := .loadPin data }
  | .loadPin data =>
      if hasRoom nelem s.pin s.poutCache data.length then
        some { s with writer := .copy data s.pin 0 }
      else
        some { s with writer := .loadPout data s.pin }
  | .loadPout data ppin =>
      if hasRoom nelem ppin s.pout data.length then
        some { s with poutCache := s.pout, writer := .copy data ppin 0 }
      else
        some { s with poutCache := s.pout, writer := .idle }
  | .copy data startPos copied =>
      match data[copied]? with
      | some element =>
          some { s with
            buf := Function.update s.buf (slot nelem startPos.index data.length copied) element
            writer := .copy data startPos (copied + 1) }
      | none =>
          -- the compare-exchange
          if s.pin = startPos then
            some { s with
              pin := ⟨startPos.generation, advance nelem startPos.index data.length⟩
              committed := s.committed ++ data.map (startPos.generation, ·)
              writer := .idle }
          else
            some { s with writer := .idle }

/-- The next access of `read`. -/
def readerStep (nelem : Nat) (s : State α) : Option (State α) :=
  match s.reader with
  | .idle => none
  | .loadResetting len =>
      if s.resetting then some { s with reader := .idle }
      else some { s with reader := .loadPout len }
  | .loadPout len =>
      if hasElements nelem s.pinCache s.pout len then
        some { s with reader := .copy len s.pout [] }
      else
        some { s with reader := .loadPin len s.pout }
  | .loadPin len ppout =>
      if hasElements nelem s.pin ppout len then
        some { s with pinCache := s.pin, reader := .copy len ppout [] }
      else
        some { s with pinCache := s.pin, reader := .idle }
  | .copy len startPos result =>
      if result.length < len then
        some { s with
          reader := .copy len startPos
            (result ++ [s.buf (slot nelem startPos.index len result.length)]) }
      else
        -- the compare-exchange
        if s.pout = startPos then
          some { s with
            pout := ⟨startPos.generation, advance nelem startPos.index len⟩
            deliveries := s.deliveries ++ [(len, result)]
            reader := .idle }
        else
          some { s with reader := .idle }

/-! ## Returned values -/

/-- The elements of the write in progress. -/
def Writer.data : Writer α → List α
  | .idle => []
  | .loadResetting data => data
  | .loadPin data => data
  | .loadPout data _ => data
  | .copy data _ _ => data

/-- The length of the read in progress. -/
def Reader.len : Reader α → Option Nat
  | .idle => none
  | .loadResetting len => some len
  | .loadPout len => some len
  | .loadPin len _ => some len
  | .copy len _ _ => some len

/-- What `write` returns, if its next access is the last. -/
def writeReturn (nelem : Nat) (s : State α) : Option Int :=
  match s.writer with
  | .idle => none
  | .loadResetting _ => if s.resetting then some (-1) else none
  | .loadPin _ => none
  | .loadPout data ppin => if hasRoom nelem ppin s.pout data.length then none else some (-1)
  | .copy data startPos copied =>
      match data[copied]? with
      | some _ => none
      | none => if s.pin = startPos then some 0 else some (-1)

/-- What `read` returns and has stored into `result`, if its next access is the last. -/
def readReturn (nelem : Nat) (s : State α) : Option (Int × List α) :=
  match s.reader with
  | .idle => none
  | .loadResetting _ => if s.resetting then some (-1, []) else none
  | .loadPout _ => none
  | .loadPin len ppout => if hasElements nelem s.pin ppout len then none else some (-1, [])
  | .copy len startPos result =>
      if result.length < len then none
      else if s.pout = startPos then some (0, result) else some (-1, result)

/-- The next access of `reset` in one thread; taking the lock may fail spuriously. -/
def resetterStep (s : State α) (thread : Nat) (spurious : Bool) : Option (State α) :=
  let continueAt (s : State α) (pc : Resetter) : State α :=
    { s with resetters := Function.update s.resetters thread pc }
  match s.resetters thread with
  | .idle => none
  | .locking =>
      if spurious ∨ s.resetting = true then some s
      else some (continueAt { s with resetting := true } .loadPin)
  | .loadPin => some (continueAt s (.storePin s.pin))
  | .storePin oldPin =>
      let freshPos : Pos := ⟨oldPin.generation + 1, 0⟩
      some (continueAt { s with pin := freshPos, resets := s.resets + 1 } (.storePout freshPos))
  | .storePout freshPos => some (continueAt { s with pout := freshPos } .unlock)
  | .unlock => some (continueAt { s with resetting := false } .idle)

inductive Action (α : Type) where
  | write (data : List α)
  | writerStep
  | read (len : Nat)
  | readerStep
  | reset (thread : Nat)
  | resetterStep (thread : Nat) (spurious : Bool)

def next (nelem : Nat) (s : State α) : Action α → Option (State α)
  | .write data =>
      match s.writer with
      | .idle => some { s with writer := .loadResetting data }
      | _ => none
  | .writerStep => writerStep nelem s
  | .read len =>
      match s.reader with
      | .idle => some { s with reader := .loadResetting len }
      | _ => none
  | .readerStep => readerStep nelem s
  | .reset thread =>
      match s.resetters thread with
      | .idle => some { s with resetters := Function.update s.resetters thread .locking }
      | _ => none
  | .resetterStep thread spurious => resetterStep s thread spurious

end FreeDV.Util.GenericFifo
