import FreeDV.Pipeline.LdpcExact
import FreeDV.Pipeline.RadeText
import Mathlib.Tactic.Ring

/-!
# The demapper in exact arithmetic

`max_star` moves with its arguments: the same amount added to both is added to
the result. The likelihoods of the points with a bit set are those of the points
without it, all moved by the same amount, so the correction terms cancel and the
LLRs are linear in the symbol.
-/

set_option autoImplicit false

namespace FreeDV.Pipeline

section Exact

variable {K : Type} [Field K] [LinearOrder K] [IsStrictOrderedRing K]

attribute [local instance] exactArith

/-- The correction term of `max_star`. -/
def maxStarCorrection (absdiff : K) : K :=
  if absdiff ≤ 245 / 100 then -24 / 100 * absdiff + 596 / 1000
  else if 245 / 100 < absdiff ∧ absdiff ≤ 35 / 10 then 48 / 1000
  else 0

theorem maxStar_eq (x y : K) : maxStar x y = max x y + maxStarCorrection |x - y| := by
  have larger : FloatArith.max x y = max x y := by
    rw [FloatArith.max, max_def_lt]
    simp only [exactArith_lt]
  rw [maxStar, larger, maxStarCorrection]
  simp only [exactArith_abs, exactArith_lit, exactArith_le, exactArith_lt, Bool.and_eq_true]
  norm_num

/-- `max_star` moves with its arguments. -/
theorem maxStar_add (x y shift : K) : maxStar (x + shift) (y + shift) = maxStar x y + shift := by
  rw [maxStar_eq, maxStar_eq, max_add_add_right, add_sub_add_right_eq_sub, add_right_comm]

theorem maxStar_moved {x y x' y' shift : K} (first : x' = x + shift) (second : y' = y + shift) :
    maxStar x' y' - maxStar x y = shift := by
  rw [first, second, maxStar_add, add_sub_cancel_left]

theorem maxStar_of_below {x y : K} (far : x + 35 / 10 < y) : maxStar x y = y := by
  have below : x < y := by linarith
  have gap : |x - y| = y - x := by
    rw [abs_sub_comm]
    exact abs_of_pos (by linarith)
  have none : maxStarCorrection (y - x) = 0 := by
    rw [maxStarCorrection, if_neg (by linarith), if_neg (by rintro ⟨-, near⟩; linarith)]
  rw [maxStar_eq, gap, none, max_eq_right below.le, add_zero]

theorem maxStar_of_above {x y : K} (far : y + 35 / 10 < x) : maxStar x y = x := by
  rw [maxStar_eq, max_comm, abs_sub_comm, ← maxStar_eq]
  exact maxStar_of_below far

omit [IsStrictOrderedRing K] in
theorem llrMax_eq : (llrMax : K) = 10000 := by norm_num [llrMax]

theorem neg_clamp (value : K) :
    -FloatArith.clamp value (-llrMax) llrMax = max (-10000) (min 10000 (-value)) := by
  rw [FloatArith.clamp, llrMax_eq]
  simp only [exactArith_lt]
  split
  · rename_i below
    rw [min_eq_left (by linarith), max_eq_right (by norm_num), neg_neg]
  · split
    · rename_i above
      rw [min_eq_right (by linarith), max_eq_left (by linarith)]
    · rename_i above below
      rw [min_eq_right (by linarith), max_eq_right (by linarith)]

/-- No likelihood is near the value the accumulators start with. -/
def FarFromStart (likelihood : Fin 4 → K) : Prop := ∀ point, -99965 / 10 < likelihood point

theorem FarFromStart.absorb {likelihood : Fin 4 → K} (far : FarFromStart likelihood)
    (point : Fin 4) : maxStar (-llrMax) (likelihood point) = likelihood point := by
  apply maxStar_of_below
  have bound := far point
  rw [llrMax_eq]
  linarith

/-- The likelihoods of the points with the first bit set are those of the points without it, moved
by the same amount, and so for the second bit. -/
theorem symbolLlrs_of_moved {likelihood : Fin 4 → K} (far : FarFromStart likelihood) {shift : K}
    (first : likelihood 2 = likelihood 0 + shift) (second : likelihood 3 = likelihood 1 + shift) :
    symbolLlrs likelihood =
      (max (-10000) (min 10000 (-shift)),
        max (-10000) (min 10000 (likelihood 0 - likelihood 1))) := by
  have firstBit := maxStar_moved first second
  have secondBit : maxStar (likelihood 1) (likelihood 3) - maxStar (likelihood 0) (likelihood 2) =
      likelihood 1 - likelihood 0 := by
    apply maxStar_moved
    · ring
    · rw [first, second]
      ring
  simp only [symbolLlrs, far.absorb, firstBit, secondBit, neg_clamp, neg_sub]

/-- The demapper is the linear LLR of QPSK, for every symbol whose likelihoods are above the
start of the accumulators. -/
theorem ldpcLinearLogMap_linear (syms : Fin 56 → RadeComp K) (amplitudes : Fin 56 → K)
    (noiseVar : K) (k : Fin 56)
    (far : ∀ point, -99965 / 10 < symLikelihoods syms amplitudes noiseVar k point) :
    let scale := (amplitudes k / meanAmp amplitudes) ^ 2
    ldpcLinearLogMap syms amplitudes noiseVar (evenBit k) =
        max (-10000) (min 10000 (scale * ((syms k).real + (syms k).imag) / noiseVar)) ∧
      ldpcLinearLogMap syms amplitudes noiseVar (oddBit k) =
        max (-10000) (min 10000 (scale * ((syms k).real - (syms k).imag) / noiseVar)) := by
  intro scale
  have first : symLikelihoods syms amplitudes noiseVar k 2 =
      symLikelihoods syms amplitudes noiseVar k 0 +
        -(scale * ((syms k).real + (syms k).imag) / noiseVar) := by
    simp [symLikelihoods, calcLikelihood, scale]
    ring
  have second : symLikelihoods syms amplitudes noiseVar k 3 =
      symLikelihoods syms amplitudes noiseVar k 1 +
        -(scale * ((syms k).real + (syms k).imag) / noiseVar) := by
    simp [symLikelihoods, calcLikelihood, scale]
    ring
  have between : symLikelihoods syms amplitudes noiseVar k 0 -
      symLikelihoods syms amplitudes noiseVar k 1 =
        scale * ((syms k).real - (syms k).imag) / noiseVar := by
    simp [symLikelihoods, calcLikelihood, scale]
    ring
  have llrs := symbolLlrs_of_moved far first second
  rw [neg_neg, between] at llrs
  have even : (⟨2 * k.val / 2, by omega⟩ : Fin 56) = k :=
    Fin.ext (show 2 * k.val / 2 = k.val by omega)
  have odd : (⟨(2 * k.val + 1) / 2, by omega⟩ : Fin 56) = k :=
    Fin.ext (show (2 * k.val + 1) / 2 = k.val by omega)
  constructor
  · simp only [ldpcLinearLogMap, evenBit, even, llrs]
    exact if_pos (Nat.mul_mod_right 2 _)
  · simp only [ldpcLinearLogMap, oddBit, odd, llrs]
    exact if_neg (by omega)

end Exact

/-- A noisy symbol, at half the mean amplitude. -/
theorem ldpcLinearLogMap_linear_of_weak_symbol :
    letI := exactArith ℚ
    let syms : Fin 56 → RadeComp ℚ := fun _ => ⟨3 / 5, -4 / 5⟩
    let amplitudes : Fin 56 → ℚ := fun k => if k = 0 then 1 / 2 else 111 / 110
    ldpcLinearLogMap syms amplitudes (1 / 10) ⟨0, by decide⟩ =
        max (-10000) (min 10000 ((1 / 2) ^ 2 * (-1 / 5) / (1 / 10))) ∧
      ldpcLinearLogMap syms amplitudes (1 / 10) ⟨1, by decide⟩ =
        max (-10000) (min 10000 ((1 / 2) ^ 2 * (7 / 5) / (1 / 10))) := by
  let := exactArith ℚ
  intro syms amplitudes
  have far : ∀ point, -99965 / 10 < symLikelihoods syms amplitudes (1 / 10) 0 point := by
    decide +kernel
  have scale : amplitudes 0 / meanAmp amplitudes = 1 / 2 := by decide +kernel
  obtain ⟨first, second⟩ := ldpcLinearLogMap_linear syms amplitudes (1 / 10) 0 far
  rw [scale, show (syms 0).real + (syms 0).imag = -1 / 5 by decide +kernel] at first
  rw [scale, show (syms 0).real - (syms 0).imag = 7 / 5 by decide +kernel] at second
  exact ⟨first, second⟩

end FreeDV.Pipeline
