import Mathlib.Algebra.BigOperators.Ring.Finset
import Mathlib.Algebra.Order.BigOperators.Group.Finset
import Mathlib.Algebra.Order.BigOperators.Ring.Finset
import Mathlib.Analysis.Complex.ExponentialBounds
import Mathlib.Analysis.SpecialFunctions.Exp
import Mathlib.Analysis.SpecialFunctions.Log.Basic
import Mathlib.Tactic.Linarith
import Mathlib.Tactic.Positivity
import Mathlib.Tactic.Ring

/-!
# One round of the sum-product rule

A Tanner graph joins each check to the variables it adds up. In one round every
check tells each of its variables what the others make of it: the product of their
signs, and a magnitude that `φ` computes from their magnitudes. Weak variables that
do not meet in a check, and do not meet in a strong variable either, are all
outvoted in one round, whatever their signs were.
-/

set_option autoImplicit false

namespace FreeDV.Lib

section Involution

/-- The function of Gallager's sum-product rule, which is its own inverse. -/
noncomputable def involution (x : ℝ) : ℝ := Real.log ((Real.exp x + 1) / (Real.exp x - 1))

variable {x y b : ℝ}

theorem exp_sub_one_pos (positive : 0 < x) : 0 < Real.exp x - 1 :=
  sub_pos.mpr (Real.one_lt_exp_iff.mpr positive)

theorem exp_involution (positive : 0 < x) :
    Real.exp (involution x) = (Real.exp x + 1) / (Real.exp x - 1) :=
  Real.exp_log (div_pos (by positivity) (exp_sub_one_pos positive))

theorem involution_pos (positive : 0 < x) : 0 < involution x := by
  apply Real.log_pos
  rw [one_lt_div (exp_sub_one_pos positive)]
  linarith

theorem involution_involution (positive : 0 < x) : involution (involution x) = x := by
  have below := exp_sub_one_pos positive
  rw [involution, exp_involution positive]
  have ratio : ((Real.exp x + 1) / (Real.exp x - 1) + 1) /
      ((Real.exp x + 1) / (Real.exp x - 1) - 1) = Real.exp x := by
    rw [div_add_one below.ne', div_sub_one below.ne', div_div_div_cancel_right₀ below.ne']
    ring
  rw [ratio, Real.log_exp]

theorem involution_lt (positive : 0 < x) (less : x < y) : involution y < involution x := by
  have below := exp_sub_one_pos positive
  have above := exp_sub_one_pos (positive.trans less)
  have more := Real.exp_lt_exp.mpr less
  apply Real.log_lt_log (div_pos (by positivity) above)
  rw [div_lt_div_iff₀ above below]
  linarith

theorem involution_antitone (positive : 0 < x) (less : x ≤ y) : involution y ≤ involution x := by
  rcases less.eq_or_lt with rfl | less
  · exact le_rfl
  · exact (involution_lt positive less).le

theorem lt_two_mul_pow {u : ℝ} (one : 1 < u) (small : u ≤ 25 / 22) : u ^ 8 + 1 < 2 * u ^ 5 := by
  let s := u ^ 3 + u ^ 2 + u
  have sum : s ≤ (25 / 22) ^ 3 + (25 / 22) ^ 2 + 25 / 22 := by
    have nonneg : 0 ≤ u := by linarith
    exact add_le_add (add_le_add (pow_le_pow_left₀ nonneg small 3)
      (pow_le_pow_left₀ nonneg small 2)) small
  have least : 1 < s := by
    have cube : 0 < u ^ 3 := by positivity
    have square : 0 < u ^ 2 := by positivity
    linarith
  have fourth : u ^ 4 ≤ (25 / 22) ^ 4 := pow_le_pow_left₀ (by linarith) small 4
  have factor : u ^ 4 * (s - 1) < s + 1 :=
    calc
      u ^ 4 * (s - 1) ≤ (25 / 22) ^ 4 * (s - 1) :=
        mul_le_mul_of_nonneg_right fourth (by linarith)
      _ < s + 1 := by
        norm_num at sum ⊢
        linarith
  have product : 0 < (u - 1) * (s + 1 - u ^ 4 * (s - 1)) :=
    mul_pos (sub_pos.mpr one) (sub_pos.mpr factor)
  have expanded : (u - 1) * (s + 1 - u ^ 4 * (s - 1)) = 2 * u ^ 5 - (u ^ 8 + 1) := by
    simp only [s]
    ring
  linarith

/-- Four copies of a large argument still weigh more than half of it. -/
theorem lt_two_mul_involution (large : 3 ≤ b) : b < 2 * involution (4 * involution b) := by
  have positive : 0 < b := by linarith
  have below := exp_sub_one_pos positive
  have big : 47 / 3 < Real.exp b := by
    have e := Real.exp_one_gt_d9
    calc
      (47 / 3 : ℝ) < 2.7182818283 ^ 3 := by norm_num
      _ < Real.exp 1 ^ 3 := by gcongr
      _ = Real.exp 3 := by rw [← Real.exp_nat_mul]; norm_num
      _ ≤ Real.exp b := Real.exp_le_exp.mpr large
  let u := Real.exp (involution b)
  have value : u = (Real.exp b + 1) / (Real.exp b - 1) := exp_involution positive
  have one : 1 < u := Real.one_lt_exp_iff.mpr (involution_pos positive)
  have small : u < 25 / 22 := by
    rw [value, div_lt_div_iff₀ below (by norm_num)]
    linarith
  have four : Real.exp (4 * involution b) = u ^ 4 := by
    rw [← Real.exp_nat_mul]
    norm_num
  have fourPos : 0 < 4 * involution b := by linarith [involution_pos positive]
  have power : 1 < u ^ 4 := one_lt_pow₀ one (by norm_num)
  have ratio : Real.exp b = (u + 1) / (u - 1) := by
    have back := exp_involution (involution_pos positive)
    rwa [involution_involution positive] at back
  have key := lt_two_mul_pow one small.le
  rw [← Real.exp_lt_exp, two_mul, Real.exp_add, exp_involution fourPos, four, ratio]
  rw [div_mul_div_comm, div_lt_div_iff₀ (sub_pos.mpr one) (by nlinarith)]
  nlinarith

end Involution

/-- Checks and variables, and which of them meet. -/
structure TannerGraph (Check Variable : Type) where
  members : Check → Finset Variable
  checks : Variable → Finset Check
  mem_checks : ∀ {check v}, check ∈ checks v ↔ v ∈ members check

namespace TannerGraph

variable {Check Variable K : Type} [DecidableEq Variable]
  [Field K] [LinearOrder K] [IsStrictOrderedRing K] (graph : TannerGraph Check Variable)

/-- The sign of a likelihood, positive for zero. -/
def hardSign (x : K) : Int := if 0 ≤ x then 1 else -1

/-- The others in a check, as one of its variables sees them. -/
def others (check : Check) (v : Variable) : Finset Variable := (graph.members check).erase v

/-- What `check` tells `v`: nothing that `v` itself said enters. -/
def extrinsic (φ : K → K) (llr : Variable → K) (check : Check) (v : Variable) : K :=
  ((∏ u ∈ graph.others check v, hardSign (llr u) : Int) : K) *
    φ (∑ u ∈ graph.others check v, φ |llr u|)

/-- The likelihood of `v` with what all its checks told it. -/
def belief (φ : K → K) (llr : Variable → K) (v : Variable) : K :=
  llr v + ∑ check ∈ graph.checks v, graph.extrinsic φ llr check v

/-- The weak variables can be outvoted: no two of them meet in a check, no other variable has
two checks with weak ones, and each of them has two checks. -/
structure Outvoted [DecidableEq Check] (weak : Finset Variable) : Prop where
  alone : ∀ u ∈ weak, ∀ v ∈ weak, u ≠ v → Disjoint (graph.checks u) (graph.checks v)
  apart : ∀ v, v ∉ weak → (graph.checks v ∩ weak.biUnion graph.checks).card ≤ 1
  twoChecks : ∀ v ∈ weak, 2 ≤ (graph.checks v).card

/-- A threshold between weak and strong likelihoods, where checks have at most `degree + 1`
variables: a check with a weak variable says less than `b`, and two checks that have none
beside the one they speak to say more. -/
structure Threshold (φ : K → K) (degree : Nat) (b : K) : Prop where
  positive : ∀ x, 0 < φ x
  antitone : Antitone φ
  weak : ∀ x, φ b < x → φ x < b
  strong : b < 2 * φ (degree * φ b)

/-- The signs of a word fit all checks, and all strong variables show them. -/
structure Shows (weak : Finset Variable) (sign : Variable → Int) (b : K) (llr : Variable → K) :
    Prop where
  unit : ∀ v, sign v = 1 ∨ sign v = -1
  even : ∀ check, ∏ v ∈ graph.members check, sign v = 1
  strong : ∀ v, v ∉ weak → b ≤ sign v * llr v
  weak : ∀ v, v ∈ weak → |llr v| ≤ b

omit [DecidableEq Variable] in
theorem Threshold.pos {φ : K → K} {degree : Nat} {b : K} (h : Threshold φ degree b) : 0 < b :=
  (h.positive (φ b + 1)).trans (h.weak (φ b + 1) (lt_add_one _))

section Round

variable {graph} {φ : K → K} {weak : Finset Variable} {sign : Variable → Int} {b : K}
  {llr : Variable → K} {degree : Nat} {check : Check} {v : Variable}

omit [DecidableEq Variable] in
theorem Shows.abs_sign (h : graph.Shows weak sign b llr) (v : Variable) :
    |(sign v : K)| = 1 := by
  rcases h.unit v with one | negative
  · rw [one, Int.cast_one, abs_one]
  · rw [negative, Int.cast_neg, Int.cast_one, abs_neg, abs_one]

omit [DecidableEq Variable] in
theorem Shows.hardSign_eq (h : graph.Shows weak sign b llr) (positive : 0 < b)
    (strong : v ∉ weak) : hardSign (llr v) = sign v := by
  have above := positive.trans_le (h.strong v strong)
  rcases h.unit v with one | negative
  · rw [one, Int.cast_one, one_mul] at above
    rw [one, hardSign, if_pos above.le]
  · rw [negative, Int.cast_neg, Int.cast_one, neg_one_mul] at above
    rw [negative, hardSign, if_neg (by linarith)]

omit [DecidableEq Variable] in
theorem Shows.le_abs (h : graph.Shows weak sign b llr) (strong : v ∉ weak) : b ≤ |llr v| :=
  calc
    b ≤ sign v * llr v := h.strong v strong
    _ ≤ |sign v * llr v| := le_abs_self _
    _ = |llr v| := by rw [abs_mul, h.abs_sign, one_mul]

/-- A check without weak variables, but for the one it speaks to, gives the right sign. -/
theorem Shows.extrinsic_strong (h : graph.Shows weak sign b llr) (positive : 0 < b)
    (member : v ∈ graph.members check) (strong : ∀ u ∈ graph.others check v, u ∉ weak) :
    sign v * graph.extrinsic φ llr check v = φ (∑ u ∈ graph.others check v, φ |llr u|) := by
  have signs : ∏ u ∈ graph.others check v, hardSign (llr u) =
      ∏ u ∈ graph.others check v, sign u :=
    Finset.prod_congr rfl fun u other => h.hardSign_eq positive (strong u other)
  have right : sign v * ∏ u ∈ graph.others check v, sign u = 1 := by
    rw [others, Finset.mul_prod_erase _ _ member, h.even]
  rw [extrinsic, signs, ← mul_assoc, ← Int.cast_mul, right, Int.cast_one, one_mul]

theorem abs_extrinsic (magnitudes : ∀ x, 0 < φ x) :
    |graph.extrinsic φ llr check v| = φ (∑ u ∈ graph.others check v, φ |llr u|) := by
  have unit : ∀ u, |hardSign (llr u)| = 1 := by
    intro u
    rw [hardSign]
    split <;> rfl
  have signs : |((∏ u ∈ graph.others check v, hardSign (llr u) : Int) : K)| = 1 := by
    rw [← Int.cast_abs, Finset.abs_prod, Finset.prod_eq_one fun u _ => unit u, Int.cast_one]
  rw [extrinsic, abs_mul, signs, one_mul, abs_of_pos (magnitudes _)]

/-- What a check without weak variables says is more than half the threshold. -/
theorem Shows.half_lt (h : graph.Shows weak sign b llr) (threshold : Threshold φ degree b)
    (few : (graph.others check v).card ≤ degree)
    (strong : ∀ u ∈ graph.others check v, u ∉ weak) :
    b < 2 * φ (∑ u ∈ graph.others check v, φ |llr u|) := by
  have least := (threshold.positive b).le
  have sum : ∑ u ∈ graph.others check v, φ |llr u| ≤ degree * φ b :=
    calc
      ∑ u ∈ graph.others check v, φ |llr u| ≤ (graph.others check v).card • φ b :=
        Finset.sum_le_card_nsmul _ _ _ fun u other =>
          threshold.antitone (h.le_abs (strong u other))
      _ ≤ degree * φ b := by
        rw [nsmul_eq_mul]
        exact mul_le_mul_of_nonneg_right (Nat.cast_le.mpr few) least
  have more := threshold.antitone sum
  linarith [threshold.strong]

/-- What a check with a weak variable says to another is less than the threshold. -/
theorem Shows.lt_of_weak (h : graph.Shows weak sign b llr) (threshold : Threshold φ degree b)
    (two : 2 ≤ (graph.others check v).card) {u : Variable} (other : u ∈ graph.others check v)
    (isWeak : u ∈ weak) : φ (∑ u ∈ graph.others check v, φ |llr u|) < b := by
  apply threshold.weak
  obtain ⟨w, present, different⟩ := Finset.exists_mem_ne two u
  have low : φ b ≤ φ |llr u| := threshold.antitone (h.weak u isWeak)
  have one : φ |llr w| ≤ ∑ u ∈ (graph.others check v).erase u, φ |llr u| :=
    Finset.single_le_sum (f := fun u => φ |llr u|) (fun k _ => (threshold.positive _).le)
      (Finset.mem_erase.mpr ⟨different, present⟩)
  rw [← Finset.add_sum_erase _ _ other]
  linarith [threshold.positive |llr w|]

theorem Shows.extrinsic_pos (h : graph.Shows weak sign b llr) (threshold : Threshold φ degree b)
    (member : v ∈ graph.members check) (strong : ∀ u ∈ graph.others check v, u ∉ weak) :
    0 < sign v * graph.extrinsic φ llr check v := by
  rw [h.extrinsic_strong threshold.pos member strong]
  exact threshold.positive _

theorem Shows.belief_weak [DecidableEq Check] (h : graph.Shows weak sign b llr)
    (threshold : Threshold φ degree b) (outvoted : graph.Outvoted weak)
    (few : ∀ check, ∀ v ∈ graph.members check, (graph.others check v).card ≤ degree) (isWeak : v ∈ weak) :
    0 < sign v * graph.belief φ llr v := by
  have own : -b ≤ sign v * llr v := by
    have bounded : |sign v * llr v| ≤ b := by
      rw [abs_mul, h.abs_sign, one_mul]
      exact h.weak v isWeak
    exact (abs_le.mp bounded).1
  have told : ∀ check ∈ graph.checks v,
      b / 2 < sign v * graph.extrinsic φ llr check v := by
    intro check meets
    have member := graph.mem_checks.mp meets
    have strong : ∀ u ∈ graph.others check v, u ∉ weak := by
      intro u other isWeak'
      obtain ⟨different, present⟩ := Finset.mem_erase.mp other
      exact Finset.disjoint_left.mp (outvoted.alone u isWeak' v isWeak different)
        (graph.mem_checks.mpr present) meets
    rw [h.extrinsic_strong threshold.pos member strong]
    linarith [h.half_lt threshold (few check v member) strong]
  have two := outvoted.twoChecks v isWeak
  have sum : (graph.checks v).card • (b / 2) <
      ∑ check ∈ graph.checks v, sign v * graph.extrinsic φ llr check v := by
    rw [← Finset.sum_const]
    exact Finset.sum_lt_sum_of_nonempty (Finset.card_pos.mp (by omega)) told
  have pair : b ≤ (graph.checks v).card • (b / 2) := by
    have half : 0 ≤ b / 2 := by linarith [threshold.pos]
    calc
      b = (2 : Nat) • (b / 2) := by rw [two_nsmul, add_halves]
      _ ≤ (graph.checks v).card • (b / 2) := nsmul_le_nsmul_left half two
  rw [belief, mul_add, Finset.mul_sum]
  linarith

theorem Shows.belief_strong [DecidableEq Check] (h : graph.Shows weak sign b llr)
    (threshold : Threshold φ degree b) (outvoted : graph.Outvoted weak)
    (two : ∀ check, ∀ v ∈ graph.members check, 2 ≤ (graph.others check v).card)
    (strong : v ∉ weak) : 0 < sign v * graph.belief φ llr v := by
  have own := h.strong v strong
  have untouched : ∀ check ∈ graph.checks v, (∀ u ∈ graph.members check, u ∉ weak) →
      0 ≤ sign v * graph.extrinsic φ llr check v := by
    intro check meets clean
    exact (h.extrinsic_pos threshold (graph.mem_checks.mp meets)
      fun u other => clean u (Finset.mem_of_mem_erase other)).le
  rw [belief, mul_add, Finset.mul_sum]
  by_cases touched : ∃ check ∈ graph.checks v, ∃ u ∈ graph.members check, u ∈ weak
  · obtain ⟨check, meets, u, present, isWeak⟩ := touched
    have other : u ∈ graph.others check v :=
      Finset.mem_erase.mpr ⟨fun same => strong (same ▸ isWeak), present⟩
    have bounded : |sign v * graph.extrinsic φ llr check v| < b := by
      rw [abs_mul, h.abs_sign, one_mul, abs_extrinsic threshold.positive]
      exact h.lt_of_weak threshold (two check v (graph.mem_checks.mp meets)) other isWeak
    have low := (abs_lt.mp bounded).1
    have shared : ∀ {c w}, c ∈ graph.checks v → w ∈ weak → w ∈ graph.members c →
        c ∈ graph.checks v ∩ weak.biUnion graph.checks := by
      intro c w meets' isWeak' present'
      exact Finset.mem_inter.mpr
        ⟨meets', Finset.mem_biUnion.mpr ⟨w, isWeak', graph.mem_checks.mpr present'⟩⟩
    have rest : 0 ≤ ∑ c ∈ (graph.checks v).erase check,
        sign v * graph.extrinsic φ llr c v := by
      apply Finset.sum_nonneg
      intro c member
      obtain ⟨different, meets'⟩ := Finset.mem_erase.mp member
      apply untouched c meets'
      intro w present' isWeak'
      exact different (Finset.card_le_one.mp (outvoted.apart v strong) c
        (shared meets' isWeak' present') check (shared meets isWeak present))
    rw [← Finset.add_sum_erase _ _ meets]
    linarith
  · have rest : 0 ≤ ∑ check ∈ graph.checks v, sign v * graph.extrinsic φ llr check v :=
      Finset.sum_nonneg fun check meets => untouched check meets fun u present isWeak =>
        touched ⟨check, meets, u, present, isWeak⟩
    linarith [threshold.pos]

/-- After one round every variable leans to its right sign. -/
theorem Shows.belief_pos [DecidableEq Check] (h : graph.Shows weak sign b llr)
    (threshold : Threshold φ degree b) (outvoted : graph.Outvoted weak)
    (few : ∀ check, ∀ v ∈ graph.members check, (graph.others check v).card ≤ degree)
    (two : ∀ check, ∀ v ∈ graph.members check, 2 ≤ (graph.others check v).card)
    (v : Variable) : 0 < sign v * graph.belief φ llr v := by
  by_cases isWeak : v ∈ weak
  · exact h.belief_weak threshold outvoted few isWeak
  · exact h.belief_strong threshold outvoted two isWeak

end Round

end TannerGraph

end FreeDV.Lib
