import FreeDV.Util.GenericFifo

/-!
# The FIFO in one thread

The calls of `GenericFIFO` as a single thread makes them, each from its start to
its end. `accessed` records the indices into `buf` and is not read.
-/

set_option autoImplicit false

namespace FreeDV.Util.GenericFifo

structure Fifo (α : Type) where
  buf : Nat → α
  pin : Pos
  poutCache : Pos
  pout : Pos
  pinCache : Pos
  resetting : Bool
  accessed : List Nat

variable {α : Type}

/-- A new FIFO over memory with arbitrary content. -/
def Fifo.initial (buf : Nat → α) : Fifo α where
  buf := buf
  pin := ⟨0, 0⟩
  poutCache := ⟨0, 0⟩
  pout := ⟨0, 0⟩
  pinCache := ⟨0, 0⟩
  resetting := false
  accessed := []

/-- `std::copy_n` into `buf`, from `idx` on. -/
def copyIn (buf : Nat → α) (idx : Nat) : List α → Nat → α
  | [] => buf
  | element :: rest => copyIn (Function.update buf idx element) (idx + 1) rest

/-- `std::copy_n` out of `buf`, from `idx` on. -/
def copyOut (buf : Nat → α) (idx count : Nat) : List α :=
  (List.range count).map fun k => buf (idx + k)

namespace Fifo

/-- A refused call, too, may have reloaded `poutCache_`. -/
def canWrite (nelem : Nat) (fifo : Fifo α) (len : Nat) : Option Pos × Fifo α :=
  if fifo.resetting then (none, fifo)
  else
    let ppin := fifo.pin
    if hasRoom nelem ppin fifo.poutCache len then (some ppin, fifo)
    else
      let fifo := { fifo with poutCache := fifo.pout }
      if hasRoom nelem ppin fifo.poutCache len then (some ppin, fifo) else (none, fifo)

def canRead (nelem : Nat) (fifo : Fifo α) (len : Nat) : Option Pos × Fifo α :=
  if fifo.resetting then (none, fifo)
  else
    let ppout := fifo.pout
    if hasElements nelem fifo.pinCache ppout len then (some ppout, fifo)
    else
      let fifo := { fifo with pinCache := fifo.pin }
      if hasElements nelem fifo.pinCache ppout len then (some ppout, fifo) else (none, fifo)

/-- The part of `write` behind `canWrite_`, up to the commit. -/
def store (nelem : Nat) (fifo : Fifo α) (idx : Nat) (data : List α) : Nat × Fifo α :=
  let numToCopy := min data.length (nelem - idx)
  let fifo := { fifo with
    buf := copyIn fifo.buf idx (data.take numToCopy)
    accessed := fifo.accessed ++ idx :: List.range' idx numToCopy }
  let rest := data.drop numToCopy
  let idx := idx + numToCopy
  if idx ≥ nelem then
    (rest.length, { fifo with
      buf := copyIn fifo.buf 0 rest
      accessed := fifo.accessed ++ List.range rest.length })
  else (idx, fifo)

def write (nelem : Nat) (fifo : Fifo α) (data : List α) : Int × Fifo α :=
  match canWrite nelem fifo data.length with
  | (none, fifo) => (-1, fifo)
  | (some startPos, fifo) =>
      let (idx, fifo) := store nelem fifo startPos.index data
      if fifo.pin = startPos then (0, { fifo with pin := ⟨startPos.generation, idx⟩ })
      else (-1, fifo)

/-- The part of `read` behind `canRead_`, up to the commit. -/
def fetch (nelem : Nat) (fifo : Fifo α) (idx len : Nat) : Nat × List α × Fifo α :=
  let numToCopy := min len (nelem - idx)
  let result := copyOut fifo.buf idx numToCopy
  let fifo := { fifo with accessed := fifo.accessed ++ idx :: List.range' idx numToCopy }
  let idx := idx + numToCopy
  let len := len - numToCopy
  if idx ≥ nelem then
    (len, result ++ copyOut fifo.buf 0 len,
      { fifo with accessed := fifo.accessed ++ List.range len })
  else (idx, result, fifo)

/-- Returns the value and what is in `result` behind the call. -/
def read (nelem : Nat) (fifo : Fifo α) (len : Nat) : Int × List α × Fifo α :=
  match canRead nelem fifo len with
  | (none, fifo) => (-1, [], fifo)
  | (some startPos, fifo) =>
      let (idx, result, fifo) := fetch nelem fifo startPos.index len
      if fifo.pout = startPos then (0, result, { fifo with pout := ⟨startPos.generation, idx⟩ })
      else (-1, result, fifo)

/-- No other thread holds `resetting_`. -/
def reset (fifo : Fifo α) : Fifo α :=
  let freshPos : Pos := ⟨fifo.pin.generation + 1, 0⟩
  { fifo with pin := freshPos, pout := freshPos, resetting := false }

def numUsed (nelem : Nat) (fifo : Fifo α) : Int :=
  match computeUsed nelem fifo.pin fifo.pout with
  | none => 0
  | some used => used

def numFree (nelem : Nat) (fifo : Fifo α) : Int := nelem - numUsed nelem fifo - 1

end Fifo

def capacity (nelem : Nat) : Nat := nelem - 1

/-! ## Calls -/

inductive Call (α : Type) where
  | write (data : List α)
  | read (len : Nat)
  | reset
  | numUsed
  | numFree

/-- What a call returns, and what it has stored in `result`. -/
structure Result (α : Type) where
  value : Int
  result : List α
deriving DecidableEq

def Fifo.call (nelem : Nat) (fifo : Fifo α) : Call α → Result α × Fifo α
  | .write data =>
      let (value, fifo) := fifo.write nelem data
      (⟨value, []⟩, fifo)
  | .read len =>
      let (value, result, fifo) := fifo.read nelem len
      (⟨value, result⟩, fifo)
  | .reset => (⟨0, []⟩, fifo.reset)
  | .numUsed => (⟨fifo.numUsed nelem, []⟩, fifo)
  | .numFree => (⟨fifo.numFree nelem, []⟩, fifo)

/-- The FIFO behind a call. -/
def Fifo.afterCall (nelem : Nat) (fifo : Fifo α) (call : Call α) : Fifo α :=
  (fifo.call nelem call).2

/-- The same calls on a bounded queue. -/
def queueCall (capacity : Nat) (queue : List α) : Call α → Result α × List α
  | .write data =>
      if data.length ≤ capacity - queue.length then (⟨0, []⟩, queue ++ data) else (⟨-1, []⟩, queue)
  | .read len =>
      if len ≤ queue.length then (⟨0, queue.take len⟩, queue.drop len) else (⟨-1, []⟩, queue)
  | .reset => (⟨0, []⟩, [])
  | .numUsed => (⟨queue.length, []⟩, queue)
  | .numFree => (⟨(capacity : Int) - queue.length, []⟩, queue)

/-- A read that only `pinCache_`, left from before a reset, lets through. -/
def staleRead (nelem : Nat) (fifo : Fifo α) : Call α → Bool
  | .read len =>
      hasElements nelem fifo.pinCache fifo.pout len && !hasElements nelem fifo.pin fifo.pout len
  | _ => false

end FreeDV.Util.GenericFifo
