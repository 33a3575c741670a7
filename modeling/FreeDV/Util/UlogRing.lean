import FreeDV.Lib.Transition
import Mathlib.Logic.Function.Basic

/-!
# The lock-free ring of log records

A bounded queue with any number of producers and one consumer. Every cell has a
sequence number that says for which position it is free or published. A step is
one atomic access or one copy of a header or an argument byte. The positions
are machine words; `Position` collects what the ring computes with them, for
`size_t` and for counters that never wrap. `claims`, `published`, `accepted` and
`popped` record what happened and are not read.
-/

set_option autoImplicit false

namespace FreeDV.Util.UlogRing

def kQueueLen : Nat := 256

/-- The arithmetic of ring positions. -/
class Position (ω : Type) where
  ofNat : Nat → ω
  /-- `pos + 1` -/
  succ : ω → ω
  /-- `pos + kQueueLen` -/
  lap : ω → ω
  /-- `pos & (kQueueLen - 1)` -/
  cell : ω → Nat
  /-- `static_cast<intptr_t>(seq) - static_cast<intptr_t>(pos)` -/
  diff : ω → ω → Int

instance : Position UInt64 where
  ofNat := UInt64.ofNat
  succ pos := pos + 1
  lap pos := pos + UInt64.ofNat kQueueLen
  cell pos := (pos &&& (UInt64.ofNat kQueueLen - 1)).toNat
  diff seq pos := (seq - pos).toBitVec.toInt

instance : Position Nat where
  ofNat number := number
  succ pos := pos + 1
  lap pos := pos + kQueueLen
  cell pos := pos % kQueueLen
  diff seq pos := (seq : Int) - (pos : Int)

/-- A record: the fields in front of the arguments, and `argLen` argument bytes. -/
structure Record (η : Type) where
  header : η
  args : List UInt8
deriving DecidableEq

structure Cell (ω η : Type) where
  seq : ω
  header : η
  argLen : Nat
  args : Nat → UInt8

/-- A record as `ringPop` leaves it in its destination. -/
structure Popped (η : Type) where
  header : η
  argLen : Nat
  args : List UInt8
deriving DecidableEq

/-- Where a call of `ringPush` is. `copyArg` has copied the first bytes; behind the last one
`argLen` is stored. -/
inductive Pusher (ω η : Type) where
  | idle
  | loadPos (src : Record η)
  | loadSeq (src : Record η) (pos : ω)
  | claim (src : Record η) (pos : ω)
  | copyHeader (src : Record η) (pos : ω)
  | copyArg (src : Record η) (pos : ω) (copied : Nat)
  | publish (src : Record η) (pos : ω)
  | returned (ok : Bool)

/-- Where a call of `ringPop` is. -/
inductive Popper (ω η : Type) where
  | idle
  | loadPos
  | loadSeq (pos : ω)
  | claim (pos : ω)
  | loadArgLen (pos : ω)
  | copyHeader (pos : ω) (size : Nat)
  | copyArg (pos : ω) (size : Nat) (header : η) (args : List UInt8)
  | release (pos : ω) (dst : Popped η)
  | returned (dst : Option (Popped η))

structure Ring (ω η : Type) where
  cells : Nat → Cell ω η
  enqueuePos : ω
  dequeuePos : ω
  pushers : Nat → Pusher ω η
  popper : Popper ω η
  /-- Thread and record of every claimed position, in the order of positions. -/
  claims : List (Nat × Record η)
  /-- Positions whose record was published, in the order in which `ringPush` returned true. -/
  published : List ω
  /-- Thread and record of each of these calls. -/
  accepted : List (Nat × Record η)
  /-- Records whose cell was released, in order. -/
  popped : List (Popped η)

variable {ω η : Type} [Position ω] [DecidableEq ω]

/-- A ring as `ringInit` leaves it, over memory with arbitrary content. -/
def Ring.initial (memory : Nat → Cell ω η) : Ring ω η where
  cells i := { memory i with seq := Position.ofNat i }
  enqueuePos := Position.ofNat 0
  dequeuePos := Position.ofNat 0
  pushers _ := .idle
  popper := .idle
  claims := []
  published := []
  accepted := []
  popped := []

def setCell (cells : Nat → Cell ω η) (pos : ω) (change : Cell ω η → Cell ω η) :
    Nat → Cell ω η :=
  Function.update cells (Position.cell pos) (change (cells (Position.cell pos)))

def setPusher (r : Ring ω η) (thread : Nat) (phase : Pusher ω η) : Ring ω η :=
  { r with pushers := Function.update r.pushers thread phase }

/-- The next access of `ringPush` in one thread. A compare-exchange may fail spuriously; a
failing one loads the current position. -/
def pushStep (r : Ring ω η) (thread : Nat) (spurious : Bool) : Option (Ring ω η) :=
  match r.pushers thread with
  | .idle => none
  | .loadPos src => some (setPusher r thread (.loadSeq src r.enqueuePos))
  | .loadSeq src pos =>
      let diff := Position.diff (r.cells (Position.cell pos)).seq pos
      if diff = 0 then some (setPusher r thread (.claim src pos))
      else if diff < 0 then some (setPusher r thread (.returned false))
      else some (setPusher r thread (.loadPos src))
  | .claim src pos =>
      if spurious = false ∧ r.enqueuePos = pos then
        some (setPusher
          { r with enqueuePos := Position.succ pos, claims := r.claims ++ [(thread, src)] }
          thread (.copyHeader src pos))
      else
        some (setPusher r thread (.loadSeq src r.enqueuePos))
  | .copyHeader src pos =>
      some (setPusher
        { r with
          cells := setCell r.cells pos fun cell =>
            { cell with header := src.header, argLen := src.args.length } }
        thread (.copyArg src pos 0))
  | .copyArg src pos copied =>
      match src.args[copied]? with
      | some byte =>
          some (setPusher
            { r with
              cells := setCell r.cells pos fun cell =>
                { cell with args := Function.update cell.args copied byte } }
            thread (.copyArg src pos (copied + 1)))
      | none =>
          some (setPusher
            { r with
              cells := setCell r.cells pos fun cell => { cell with argLen := src.args.length } }
            thread (.publish src pos))
  | .publish src pos =>
      some (setPusher
        { r with
          cells := setCell r.cells pos fun cell => { cell with seq := Position.succ pos }
          published := r.published ++ [pos]
          accepted := r.accepted ++ [(thread, src)] }
        thread (.returned true))
  | .returned _ => none

/-- The next access of `ringPop`. -/
def popStep (r : Ring ω η) (spurious : Bool) : Option (Ring ω η) :=
  match r.popper with
  | .idle => none
  | .loadPos => some { r with popper := .loadSeq r.dequeuePos }
  | .loadSeq pos =>
      let diff := Position.diff (r.cells (Position.cell pos)).seq (Position.succ pos)
      if diff = 0 then some { r with popper := .claim pos }
      else if diff < 0 then some { r with popper := .returned none }
      else some { r with popper := .loadPos }
  | .claim pos =>
      if spurious = false ∧ r.dequeuePos = pos then
        some { r with dequeuePos := Position.succ pos, popper := .loadArgLen pos }
      else
        some { r with popper := .loadSeq r.dequeuePos }
  | .loadArgLen pos =>
      some { r with popper := .copyHeader pos (r.cells (Position.cell pos)).argLen }
  | .copyHeader pos size =>
      some { r with popper := .copyArg pos size (r.cells (Position.cell pos)).header [] }
  | .copyArg pos size header args =>
      if args.length < size then
        some { r with
          popper := .copyArg pos size header
            (args ++ [(r.cells (Position.cell pos)).args args.length]) }
      else
        some { r with
          popper := .release pos ⟨header, (r.cells (Position.cell pos)).argLen, args⟩ }
  | .release pos dst =>
      some { r with
        cells := setCell r.cells pos fun cell => { cell with seq := Position.lap pos }
        popper := .returned (some dst)
        popped := r.popped ++ [dst] }
  | .returned _ => none

inductive Action (η : Type) where
  | push (thread : Nat) (src : Record η)
  | pushStep (thread : Nat) (spurious : Bool)
  | pop
  | popStep (spurious : Bool)

/-- Calls may be made whenever the previous one of the thread has returned. -/
def next (r : Ring ω η) : Action η → Option (Ring ω η)
  | .push thread src =>
      match r.pushers thread with
      | .idle => some (setPusher r thread (.loadPos src))
      | .returned _ => some (setPusher r thread (.loadPos src))
      | _ => none
  | .pushStep thread spurious => pushStep r thread spurious
  | .pop =>
      match r.popper with
      | .idle => some { r with popper := .loadPos }
      | .returned _ => some { r with popper := .loadPos }
      | _ => none
  | .popStep spurious => popStep r spurious

end FreeDV.Util.UlogRing
