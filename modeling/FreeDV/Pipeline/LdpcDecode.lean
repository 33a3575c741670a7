import FreeDV.Pipeline.LdpcEncode
import Mathlib.Algebra.Order.Field.Basic
import Mathlib.Algebra.Order.Group.Abs
import Mathlib.Data.Rat.Cast.Defs

/-!
# LDPC(112, 56) decoder

`ldpc_decode` runs belief propagation on the Tanner graph of `HRA_56_56` and
checks its hard decision against the raw table after every iteration. The float
arithmetic is a parameter without laws: any rounding, any NaN rule and any `phi`
gives one instance of the model.
-/

set_option autoImplicit false

namespace FreeDV.Pipeline

/-- The float operations of the receiver. Comparisons may answer `false` both ways. -/
class FloatArith (F : Type) extends Add F, Sub F, Mul F, Div F, Neg F where
  /-- A literal of the source, or an integer converted to float. -/
  lit : ℚ → F
  lt : F → F → Bool
  le : F → F → Bool
  abs : F → F

namespace FloatArith

variable {F : Type} [FloatArith F]

/-- `std::max`. -/
def max (x y : F) : F := if lt x y then y else x

/-- `std::clamp`. -/
def clamp (value low high : F) : F :=
  if lt value low then low else if lt high value then high else value

end FloatArith

/-- Float arithmetic read as the exact arithmetic of an ordered field. -/
@[reducible] def exactArith (K : Type) [Field K] [LinearOrder K] : FloatArith K where
  lit q := (q : K)
  lt x y := decide (x < y)
  le x y := decide (x ≤ y)
  abs x := |x|

open FloatArith (lit lt le)

structure RadeComp (F : Type) where
  real : F
  imag : F

section Demapper

variable {F : Type} [FloatArith F]

def llrMax : F := lit 10000

def calcLikelihood (sym : RadeComp F) (var real imag amp avgAmp : F) : F :=
  let errR := sym.real - real
  let errI := sym.imag - imag
  let a := amp / avgAmp
  let scale := -var * a * a
  scale * (errR * errR + errI * errI)

def maxStar (x y : F) : F :=
  let maxXY := FloatArith.max x y
  let absdiff := FloatArith.abs (x - y)
  let logXY :=
    if le absdiff (lit (245 / 100)) then lit (-24 / 100) * absdiff + lit (596 / 1000)
    else if lt (lit (245 / 100)) absdiff && le absdiff (lit (35 / 10)) then lit (48 / 1000)
    else lit 0
  maxXY + logXY

/-- The two channel LLRs of one symbol, from the likelihoods of the four constellation
points in the order 00, 01, 10, 11. -/
def symbolLlrs (likelihood : Fin 4 → F) : F × F :=
  let den0 := maxStar (-llrMax) (likelihood 0)
  let den1 := maxStar (-llrMax) (likelihood 0)
  let den0 := maxStar den0 (likelihood 1)
  let num1 := maxStar (-llrMax) (likelihood 1)
  let num0 := maxStar (-llrMax) (likelihood 2)
  let den1 := maxStar den1 (likelihood 2)
  let num0 := maxStar num0 (likelihood 3)
  let num1 := maxStar num1 (likelihood 3)
  (-FloatArith.clamp (num0 - den0) (-llrMax) llrMax,
    -FloatArith.clamp (num1 - den1) (-llrMax) llrMax)

def meanAmp (amplitudes : Fin 56 → F) : F :=
  (List.finRange 56).foldl (fun sum k => sum + amplitudes k) (lit 0) / lit 56

/-- The four likelihoods of symbol `k`. -/
def symLikelihoods (syms : Fin 56 → RadeComp F) (amplitudes : Fin 56 → F) (noiseVar : F)
    (k : Fin 56) : Fin 4 → F :=
  let esNo := lit 1 / (lit 2 * noiseVar)
  let point := fun real imag =>
    calcLikelihood (syms k) esNo real imag (amplitudes k) (meanAmp amplitudes)
  ![point (lit 1) (lit 0), point (lit 0) (lit 1), point (lit 0) (lit (-1)),
    point (lit (-1)) (lit 0)]

/-- `ldpc_linear_log_map`: the LLRs of bits `2k` and `2k + 1` come from symbol `k`. -/
def ldpcLinearLogMap (syms : Fin 56 → RadeComp F) (amplitudes : Fin 56 → F) (noiseVar : F) :
    Fin 112 → F := fun bit =>
  let llrs := symbolLlrs (symLikelihoods syms amplitudes noiseVar ⟨bit.val / 2, by omega⟩)
  if bit.val % 2 = 0 then llrs.1 else llrs.2

end Demapper

/-- `LDPCGraph::Edge`. -/
structure Edge where
  check : Fin 56
  var : Fin 112
  deriving DecidableEq

/-- The edges of the Tanner graph, in the order `LDPCGraph` adds them. -/
def graphEdges : List Edge :=
  (List.finRange 56).flatMap fun i =>
    ((List.finRange 112).filter fun j => hra5656 i j ≠ 0).map fun j => ⟨i, j⟩

/-- `graph.check_edges[i]`. -/
def checkEdges (i : Fin 56) : List Edge := graphEdges.filter fun e => e.check = i

/-- `graph.var_edges[j]`. -/
def varEdges (j : Fin 112) : List Edge := graphEdges.filter fun e => e.var = j

section Propagation

variable {F : Type} [FloatArith F]

/-- The sign the check update gives a message. -/
def messageSign (v : F) : Int := if le (lit 0) v then 1 else -1

/-- Check-to-variable update. Every edge belongs to one check, so the loop over the checks
sets every message once. -/
def checkToVariable (phi : F → F) (mVc : Edge → F) : Edge → F := fun e =>
  let ce := checkEdges e.check
  let sign := ce.foldl (fun sign k => sign * messageSign (mVc k)) 1
  let sum := ce.foldl
    (fun sum k => sum + FloatArith.max (lit 0) (phi (FloatArith.abs (mVc k)))) (lit 0)
  let v := mVc e
  FloatArith.clamp
    (lit (messageSign v * sign : Int) *
      FloatArith.max (lit 0) (phi (sum - phi (FloatArith.abs v))))
    (-llrMax) llrMax

/-- The channel LLR plus all incoming check messages of variable `j`. -/
def posterior (llrCh : Fin 112 → F) (mCv : Edge → F) (j : Fin 112) : F :=
  (varEdges j).foldl (fun total e => total + mCv e) (llrCh j)

/-- Variable-to-check update. -/
def variableToCheck (llrCh : Fin 112 → F) (mCv : Edge → F) : Edge → F := fun e =>
  FloatArith.clamp (posterior llrCh mCv e.var - mCv e) (-llrMax) llrMax

/-- Hard decision on the posterior LLRs. -/
def hardDecision (llrCh : Fin 112 → F) (mCv : Edge → F) : Bytes 112 := fun j =>
  if lt (posterior llrCh mCv j) (lit 0) then 1 else 0

end Propagation

/-- The sum of row `i` over the message, as the syndrome loop counts it. -/
def rowCtr (message : Bytes 112) (i : Fin 56) : Nat :=
  ∑ j : Fin 112, hra5656 i j * (message j).toNat

/-- The syndrome loop: all 56 rows give an even sum. -/
def syndromeOk (message : Bytes 112) : Bool :=
  (List.finRange 56).all fun i => rowCtr message i % 2 = 0

structure LdpcDecodeResult where
  message : Bytes 112
  converged : Bool
  iterations : Nat

section Decoder

variable {F : Type} [FloatArith F]

/-- The iteration loop of `ldpc_decode`, with `remaining` iterations left. -/
def decodeLoop (phi : F → F) (llrCh : Fin 112 → F) :
    Nat → Nat → (Edge → F) → LdpcDecodeResult → LdpcDecodeResult
  | 0, _, _, result => result
  | remaining + 1, iter, mVc, result =>
      let mCv := checkToVariable phi mVc
      let message := hardDecision llrCh mCv
      let result := { result with message, iterations := iter + 1 }
      if syndromeOk message then { result with converged := true }
      else decodeLoop phi llrCh remaining (iter + 1) (variableToCheck llrCh mCv) result

@[irreducible] def ldpcDecode (phi : F → F) (syms : Fin 56 → RadeComp F) (amplitudes : Fin 56 → F)
    (noiseVar : F) (maxIter : Nat) : LdpcDecodeResult :=
  let noiseVar := if lt noiseVar (lit (1 / 10 ^ 10)) then lit (1 / 10 ^ 10) else noiseVar
  let llrCh := ldpcLinearLogMap syms amplitudes noiseVar
  decodeLoop phi llrCh maxIter 0 (fun e => llrCh e.var) ⟨fun _ => 0, false, 0⟩

end Decoder

end FreeDV.Pipeline
