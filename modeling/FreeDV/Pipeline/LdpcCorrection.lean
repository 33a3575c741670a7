import FreeDV.Pipeline.LdpcDemapper
import FreeDV.Pipeline.LdpcTannerGraph

/-!
# Errors the decoder corrects

The decoder with its own `phi`, in exact arithmetic. Bits whose channel LLRs are
weak, or wrong, are corrected in the first iteration when they lie apart in the
Tanner graph and all other bits are received well.
-/

set_option autoImplicit false

namespace FreeDV.Pipeline

open Lib

/-- `phi`, with the exponential and the logarithm it calls. -/
def phi {F : Type} [FloatArith F] (exp log : F → F) (x : F) : F :=
  if FloatArith.lt x (FloatArith.lit (1 / 10 ^ 10)) then llrMax
  else
    let expx := exp x
    if FloatArith.lt expx (FloatArith.lit (1 / 10 ^ 10)) then llrMax
    else log ((expx + FloatArith.lit 1) / (expx - FloatArith.lit 1))

attribute [local instance] exactArith

/-! ## The function `phi` -/

section Phi

/-- `phi` on real numbers. -/
noncomputable abbrev realPhi : ℝ → ℝ := phi Real.exp Real.log

variable {x : ℝ}

theorem realPhi_small (small : x < 1 / 10 ^ 10) : realPhi x = 10000 := by
  have below : FloatArith.lt x (FloatArith.lit (1 / 10 ^ 10)) = true := by
    rw [exactArith_lt, exactArith_lit]
    push_cast
    exact small
  rw [realPhi, phi, if_pos below, llrMax, exactArith_lit]
  norm_num

theorem realPhi_large (large : 1 / 10 ^ 10 ≤ x) : realPhi x = involution x := by
  have above : ¬ FloatArith.lt x (FloatArith.lit (1 / 10 ^ 10)) = true := by
    rw [exactArith_lt, exactArith_lit]
    push_cast
    exact large.not_gt
  have one : 1 < Real.exp x := Real.one_lt_exp_iff.mpr (lt_of_lt_of_le (by norm_num) large)
  have finite : ¬ FloatArith.lt (Real.exp x) (FloatArith.lit (1 / 10 ^ 10)) = true := by
    rw [exactArith_lt, exactArith_lit]
    push_cast
    linarith
  rw [realPhi, phi, if_neg above]
  dsimp only
  rw [if_neg finite, involution, exactArith_lit, Rat.cast_one]

theorem le_involution (bound : x ≤ 23) (positive : 0 < x) : 1 / 10 ^ 10 ≤ involution x := by
  have below := exp_sub_one_pos positive
  have e : Real.exp x < 10 ^ 10 :=
    calc
      Real.exp x ≤ Real.exp 23 := Real.exp_le_exp.mpr bound
      _ = Real.exp 1 ^ 23 := by rw [← Real.exp_nat_mul]; norm_num
      _ < 2.7182818286 ^ 23 := by
        gcongr
        exact Real.exp_one_lt_d9
      _ < 10 ^ 10 := by norm_num
  have least : (1 / 10 ^ 10 : ℝ) ≤ 1 - ((Real.exp x + 1) / (Real.exp x - 1))⁻¹ := by
    rw [inv_div, one_sub_div (by positivity), le_div_iff₀ (by positivity)]
    linarith
  exact least.trans (Real.one_sub_inv_le_log_of_pos (div_pos (by positivity) below))

theorem involution_le (large : 1 / 10 ^ 10 ≤ x) : involution x ≤ 10000 := by
  have positive : 0 < x := lt_of_lt_of_le (by norm_num) large
  have below := exp_sub_one_pos positive
  have least : (1 / 10 ^ 10 : ℝ) ≤ Real.exp x - 1 := by linarith [Real.add_one_le_exp x]
  have power : (2 : ℝ) ^ 35 ≤ Real.exp 35 :=
    calc
      (2 : ℝ) ^ 35 ≤ Real.exp 1 ^ 35 := by
        gcongr
        linarith [Real.exp_one_gt_d9]
      _ = Real.exp 35 := by rw [← Real.exp_nat_mul]; norm_num
  have ratio : (Real.exp x + 1) / (Real.exp x - 1) ≤ Real.exp 35 := by
    rw [div_le_iff₀ below]
    calc
      Real.exp x + 1 ≤ 2 ^ 35 * (Real.exp x - 1) := by linarith
      _ ≤ Real.exp 35 * (Real.exp x - 1) := mul_le_mul_of_nonneg_right power below.le
  calc
    involution x ≤ Real.log (Real.exp 35) := Real.log_le_log (div_pos (by positivity) below) ratio
    _ = 35 := Real.log_exp 35
    _ ≤ 10000 := by norm_num

theorem realPhi_pos (x : ℝ) : 0 < realPhi x := by
  rcases lt_or_ge x (1 / 10 ^ 10) with small | large
  · rw [realPhi_small small]
    norm_num
  · rw [realPhi_large large]
    exact involution_pos (lt_of_lt_of_le (by norm_num) large)

theorem realPhi_le (x : ℝ) : realPhi x ≤ 10000 := by
  rcases lt_or_ge x (1 / 10 ^ 10) with small | large
  · exact (realPhi_small small).le
  · rw [realPhi_large large]
    exact involution_le large

theorem realPhi_antitone : Antitone realPhi := by
  intro x y less
  rcases lt_or_ge x (1 / 10 ^ 10) with small | large
  · rw [realPhi_small small]
    exact realPhi_le y
  · rw [realPhi_large large, realPhi_large (large.trans less)]
    exact involution_antitone (lt_of_lt_of_le (by norm_num) large) less

/-- `phi` separates weak from strong for every threshold from 3 to 23. -/
theorem realPhi_threshold {b : ℝ} (low : 3 ≤ b) (high : b ≤ 23) :
    TannerGraph.Threshold realPhi 4 b := by
  have here : realPhi b = involution b := realPhi_large (le_trans (by norm_num) low)
  have least : 1 / 10 ^ 10 ≤ involution b := le_involution high (by linarith)
  exact {
    positive := realPhi_pos
    antitone := realPhi_antitone
    weak := by
      intro x above
      rw [here] at above
      rw [realPhi_large (least.trans above.le), ← involution_involution (x := b) (by linarith)]
      exact involution_lt (involution_pos (by linarith)) above
    strong := by
      have more := lt_two_mul_involution low
      have four : 1 / 10 ^ 10 ≤ 4 * involution b := by linarith
      rw [here]
      push_cast
      rwa [realPhi_large four] }

end Phi

/-! ## One iteration -/

section Iteration

theorem messageSign_eq (x : ℝ) : messageSign x = TannerGraph.hardSign x := by
  simp only [messageSign, TannerGraph.hardSign, exactArith_le, exactArith_lit, Rat.cast_zero]

theorem foldl_add_eq {α M : Type} [AddCommMonoid M] (items : List α) (value : α → M) (start : M) :
    items.foldl (fun total item => total + value item) start =
      start + (items.map value).sum := by
  induction items generalizing start with
  | nil => simp
  | cons item rest ih => rw [List.foldl_cons, ih, List.map_cons, List.sum_cons, add_assoc]

theorem max_zero_realPhi (x : ℝ) :
    FloatArith.max (FloatArith.lit 0) (realPhi x) = realPhi x := by
  rw [FloatArith.max, if_pos]
  rw [exactArith_lt, exactArith_lit, Rat.cast_zero]
  exact realPhi_pos x

theorem clamp_of_abs_le {x : ℝ} (bounded : |x| ≤ 10000) :
    FloatArith.clamp x (-llrMax) llrMax = x := by
  obtain ⟨low, high⟩ := abs_le.mp bounded
  have limit : (llrMax : ℝ) = 10000 := by
    rw [llrMax, exactArith_lit]
    norm_num
  rw [FloatArith.clamp, if_neg, if_neg]
  · rw [exactArith_lt, limit]
    exact high.not_gt
  · rw [exactArith_lt, limit]
    exact low.not_gt

/-- In the first iteration a check sends each bit what the other bits make of it. -/
theorem checkToVariable_eq (llr : Fin 112 → ℝ) {i : Fin 56} {j : Fin 112}
    (member : j ∈ tannerGraph.members i) :
    checkToVariable realPhi (fun e => llr e.var) ⟨i, j⟩ =
      tannerGraph.extrinsic realPhi llr i j := by
  have sign : (checkEdges i).foldl (fun sign k => sign * messageSign (llr k.var)) 1 =
      ∏ k ∈ tannerGraph.members i, TannerGraph.hardSign (llr k) := by
    rw [← prod_checkEdges fun e => TannerGraph.hardSign (llr e.var), List.prod_eq_foldl,
      List.foldl_map]
    simp only [messageSign_eq]
  have sum : (checkEdges i).foldl
      (fun sum k => sum + FloatArith.max (FloatArith.lit 0) (realPhi (FloatArith.abs (llr k.var))))
      (FloatArith.lit 0) = ∑ k ∈ tannerGraph.members i, realPhi |llr k| := by
    simp only [max_zero_realPhi, exactArith_abs]
    rw [foldl_add_eq, sum_checkEdges, exactArith_lit, Rat.cast_zero, zero_add]
  have own : messageSign (llr j) * ∏ k ∈ tannerGraph.members i, TannerGraph.hardSign (llr k) =
      ∏ k ∈ tannerGraph.others i j, TannerGraph.hardSign (llr k) := by
    have square : TannerGraph.hardSign (llr j) * TannerGraph.hardSign (llr j) = 1 := by
      rw [TannerGraph.hardSign]
      split <;> rfl
    rw [messageSign_eq, ← Finset.mul_prod_erase _ _ member, ← mul_assoc, square, one_mul,
      TannerGraph.others]
  have rest : ∑ k ∈ tannerGraph.members i, realPhi |llr k| - realPhi |llr j| =
      ∑ k ∈ tannerGraph.others i j, realPhi |llr k| := by
    rw [← Finset.add_sum_erase _ _ member, add_sub_cancel_left, TannerGraph.others]
  have product : FloatArith.lit (messageSign (llr j) *
        (checkEdges i).foldl (fun sign k => sign * messageSign (llr k.var)) 1 : Int) *
      FloatArith.max (FloatArith.lit 0) (realPhi ((checkEdges i).foldl
        (fun sum k => sum + FloatArith.max (FloatArith.lit 0)
          (realPhi (FloatArith.abs (llr k.var)))) (FloatArith.lit 0) -
        realPhi (FloatArith.abs (llr j)))) =
      tannerGraph.extrinsic realPhi llr i j := by
    rw [sign, sum, max_zero_realPhi, exactArith_abs, rest, own, exactArith_lit,
      TannerGraph.extrinsic]
    norm_cast
  have bounded : |tannerGraph.extrinsic realPhi llr i j| ≤ 10000 := by
    rw [TannerGraph.abs_extrinsic realPhi_pos]
    exact realPhi_le _
  unfold checkToVariable
  dsimp only
  rw [product, clamp_of_abs_le bounded]

theorem posterior_eq (llr : Fin 112 → ℝ) (j : Fin 112) :
    posterior llr (checkToVariable realPhi fun e => llr e.var) j =
      tannerGraph.belief realPhi llr j := by
  rw [posterior, foldl_add_eq, sum_varEdges, TannerGraph.belief]
  congr 1
  exact Finset.sum_congr rfl fun i meets =>
    checkToVariable_eq llr (tannerGraph.mem_checks.mp meets)

theorem hardDecision_of_belief {llr : Fin 112 → ℝ} {word : Bytes 112} (bits : IsBits word)
    (right : ∀ j, 0 < bitSign (word j) * tannerGraph.belief realPhi llr j) :
    hardDecision llr (checkToVariable realPhi fun e => llr e.var) = word := by
  funext j
  have leans := right j
  rw [hardDecision, posterior_eq]
  rcases bits j with bit | bit
  · rw [bit, bitSign, if_pos rfl, Int.cast_one, one_mul] at leans
    rw [bit, if_neg]
    rw [exactArith_lt, exactArith_lit, Rat.cast_zero]
    exact leans.not_gt
  · rw [bit, bitSign, if_neg (by decide), Int.cast_neg, Int.cast_one, neg_one_mul] at leans
    rw [bit, if_pos]
    rw [exactArith_lt, exactArith_lit, Rat.cast_zero]
    linarith

theorem decodeLoop_of_decided {llr : Fin 112 → ℝ} {word : Bytes 112}
    (decided : hardDecision llr (checkToVariable realPhi fun e => llr e.var) = word)
    (accepted : syndromeOk word = true) (remaining : Nat) (result : LdpcDecodeResult) :
    decodeLoop realPhi llr (remaining + 1) 0 (fun e => llr e.var) result = ⟨word, true, 1⟩ := by
  simp only [decodeLoop, decided, accepted, if_true]

theorem syndromeOk_ldpcEncode {info : Bytes 56} (bits : IsBits info) :
    syndromeOk (ldpcEncode info) = true :=
  (syndromeOk_iff_eq_ldpcEncode (ldpcEncode_isBits bits)).mpr (by rw [(ldpcEncode_spec info).1])

theorem prod_bitSign {word : Bytes 112} (bits : IsBits word) (accepted : syndromeOk word = true)
    (i : Fin 56) : ∏ j ∈ tannerGraph.members i, bitSign (word j) = 1 := by
  rw [← prod_checkEdges fun e => bitSign (word e.var), List.prod_eq_foldl, List.foldl_map]
  exact check_sign_eq_one bits accepted i

end Iteration

/-- All bits of the word outside `weak` are received with their right sign and a channel LLR of
at least `b`; those in `weak` with at most `b`, of any sign. -/
structure Received (weak : Finset (Fin 112)) (word : Bytes 112) (b : ℝ) (llr : Fin 112 → ℝ) :
    Prop where
  strong : ∀ j, j ∉ weak → b ≤ bitSign (word j) * llr j
  weak : ∀ j, j ∈ weak → |llr j| ≤ b

/-- The beliefs of the first iteration already spell the word that was sent. -/
theorem Received.decided {info : Bytes 56} (bits : IsBits info) {weak : Finset (Fin 112)}
    (outvoted : tannerGraph.Outvoted weak) {b : ℝ} (low : 3 ≤ b) (high : b ≤ 23)
    {llr : Fin 112 → ℝ} (received : Received weak (ldpcEncode info) b llr) :
    hardDecision llr (checkToVariable realPhi fun e => llr e.var) = ldpcEncode info := by
  have wordBits := ldpcEncode_isBits bits
  have accepted := syndromeOk_ldpcEncode bits
  have reception : tannerGraph.Shows weak (fun j => bitSign (ldpcEncode info j)) b llr := {
    unit := by
      intro j
      rw [bitSign]
      split
      · exact .inl rfl
      · exact .inr rfl
    even := prod_bitSign wordBits accepted
    strong := received.strong
    weak := received.weak }
  exact hardDecision_of_belief wordBits fun j =>
    reception.belief_pos (realPhi_threshold low high) outvoted
      (fun i j member => (card_others member).2) (fun i j member => (card_others member).1) j

theorem ldpcDecode_of_decided {syms : Fin 56 → RadeComp ℝ} {amplitudes : Fin 56 → ℝ}
    {noiseVar : ℝ} {maxIter : Nat} (positive : 1 ≤ maxIter) {info : Bytes 56} (bits : IsBits info)
    (decided : hardDecision (channelLlr syms amplitudes noiseVar) (checkToVariable realPhi fun e =>
      channelLlr syms amplitudes noiseVar e.var) = ldpcEncode info) :
    ldpcDecode realPhi syms amplitudes noiseVar maxIter = ⟨ldpcEncode info, true, 1⟩ := by
  obtain ⟨remaining, rfl⟩ := Nat.exists_eq_add_of_le' positive
  unfold ldpcDecode
  exact decodeLoop_of_decided decided (syndromeOk_ldpcEncode bits) remaining _

/-- Belief propagation corrects bits that lie apart: when the weak bits, whatever signs they are
received with, can be outvoted, and all others are received well, the decoder returns the word
that was sent after one iteration. -/
theorem ldpcDecode_corrects (syms : Fin 56 → RadeComp ℝ) (amplitudes : Fin 56 → ℝ) (noiseVar : ℝ)
    (maxIter : Nat) (positive : 1 ≤ maxIter) (info : Bytes 56) (bits : IsBits info)
    (weak : Finset (Fin 112)) (outvoted : tannerGraph.Outvoted weak) (b : ℝ) (low : 3 ≤ b)
    (high : b ≤ 23)
    (received : Received weak (ldpcEncode info) b (channelLlr syms amplitudes noiseVar)) :
    ldpcDecode realPhi syms amplitudes noiseVar maxIter = ⟨ldpcEncode info, true, 1⟩ := by
  have decided := received.decided bits outvoted low high
  exact ldpcDecode_of_decided positive bits decided

/-- One bit that is lost or received wrong is corrected wherever it lies, except for bits 33, 110
and 111. -/
theorem ldpcDecode_corrects_single (syms : Fin 56 → RadeComp ℝ) (amplitudes : Fin 56 → ℝ)
    (noiseVar : ℝ) (maxIter : Nat) (positive : 1 ≤ maxIter) (info : Bytes 56) (bits : IsBits info)
    (v : Fin 112) (first : v ≠ 33) (second : v ≠ 110) (last : v ≠ 111) (b : ℝ) (low : 3 ≤ b)
    (high : b ≤ 23)
    (received : Received {v} (ldpcEncode info) b (channelLlr syms amplitudes noiseVar)) :
    ldpcDecode realPhi syms amplitudes noiseVar maxIter = ⟨ldpcEncode info, true, 1⟩ := by
  have outvoted := outvoted_singleton last first second
  exact ldpcDecode_of_decided positive bits (received.decided bits outvoted low high)

/-! ### Six wrong bits -/

def wrongSymbols : Finset (Fin 56) := {24, 25, 27, 36, 45, 54}

/-- The word of zeros, with the second bit of six symbols turned over. -/
def turnedSymbols (k : Fin 56) : RadeComp ℝ := if k ∈ wrongSymbols then ⟨0, 1⟩ else ⟨1, 0⟩

theorem outvoted_wrongBits : tannerGraph.Outvoted (wrongSymbols.image oddBit) where
  alone := by decide +kernel
  apart := by decide +kernel
  twoChecks := by decide +kernel

theorem meanAmp_ones : meanAmp (fun _ => 1 : Fin 56 → ℝ) = 1 := by
  rw [meanAmp, foldl_add_eq, List.map_const', List.sum_replicate, List.length_finRange]
  norm_num

theorem turnedSymbols_llrs (k : Fin 56) :
    symbolLlrs (symLikelihoods turnedSymbols (fun _ => 1) (1 / 10) k) =
      (10, if k ∈ wrongSymbols then -10 else 10) := by
  by_cases wrong : k ∈ wrongSymbols
  · have likelihoods : symLikelihoods turnedSymbols (fun _ => 1) (1 / 10) k =
        ![-10, 0, -20, -10] := by
      funext point
      fin_cases point <;>
        norm_num [symLikelihoods, calcLikelihood, turnedSymbols, wrong, meanAmp_ones]
    have first : (![-10, 0, -20, -10] : Fin 4 → ℝ) 2 = (![-10, 0, -20, -10] : Fin 4 → ℝ) 0 + -10 := by
      simp only [Matrix.cons_val]
      norm_num
    rw [likelihoods, symbolLlrs_of_moved _ first, if_pos wrong]
    · norm_num
    · simp only [Matrix.cons_val]
      norm_num
    · intro point
      fin_cases point <;> norm_num
  · have likelihoods : symLikelihoods turnedSymbols (fun _ => 1) (1 / 10) k =
        ![0, -10, -10, -20] := by
      funext point
      fin_cases point <;>
        norm_num [symLikelihoods, calcLikelihood, turnedSymbols, wrong, meanAmp_ones]
    have first : (![0, -10, -10, -20] : Fin 4 → ℝ) 2 = (![0, -10, -10, -20] : Fin 4 → ℝ) 0 + -10 := by
      simp only [Matrix.cons_val]
      norm_num
    rw [likelihoods, symbolLlrs_of_moved _ first, if_neg wrong]
    · norm_num
    · simp only [Matrix.cons_val]
      norm_num
    · intro point
      fin_cases point <;> norm_num

theorem turnedSymbols_channelLlr (j : Fin 112) :
    channelLlr turnedSymbols (fun _ => 1) (1 / 10) j =
      if j ∈ wrongSymbols.image oddBit then -10 else 10 := by
  have noise : ¬ FloatArith.lt (1 / 10 : ℝ) (FloatArith.lit (1 / 10 ^ 10)) = true := by
    rw [exactArith_lt, exactArith_lit]
    norm_num
  have turned : j ∈ wrongSymbols.image oddBit ↔
      j.val % 2 = 1 ∧ (⟨j.val / 2, by omega⟩ : Fin 56) ∈ wrongSymbols := by
    rw [Finset.mem_image]
    constructor
    · rintro ⟨k, member, rfl⟩
      have same : (⟨(2 * k.val + 1) / 2, by omega⟩ : Fin 56) = k := Fin.ext (by dsimp only; omega)
      exact ⟨by simp only [oddBit]; omega, by simpa only [oddBit, same] using member⟩
    · rintro ⟨odd, member⟩
      exact ⟨_, member, Fin.ext (by simp only [oddBit]; omega)⟩
  rw [channelLlr, if_neg noise, ldpcLinearLogMap]
  rw [turnedSymbols_llrs]
  by_cases even : j.val % 2 = 0
  · have right : j ∉ wrongSymbols.image oddBit := by
      rw [turned]
      omega
    rw [if_pos even, if_neg right]
  · rw [if_neg even]
    simp only [turned, show j.val % 2 = 1 by omega, true_and]

theorem turnedSymbols_received :
    Received (wrongSymbols.image oddBit) (ldpcEncode fun _ => 0) 10
      (channelLlr turnedSymbols (fun _ => 1) (1 / 10)) := by
  have chain : ParityChain fun _ => 0 := fun i => by simp [parityByte, infoCtr]
  have info : infoHalf (fun _ => 0) = fun _ => 0 := rfl
  have zero := (parityChain_iff_eq_ldpcEncode _).mp chain
  rw [info] at zero
  constructor
  · intro j strong
    rw [turnedSymbols_channelLlr, if_neg strong, ← zero, bitSign, if_pos rfl]
    norm_num
  · intro j weak
    rw [turnedSymbols_channelLlr, if_pos weak]
    norm_num

/-- Six wrong bits are corrected at once. -/
theorem ldpcDecode_corrects_turnedSymbols :
    tannerGraph.Outvoted (wrongSymbols.image oddBit) ∧
      Received (wrongSymbols.image oddBit) (ldpcEncode fun _ => 0) 10
        (channelLlr turnedSymbols (fun _ => 1) (1 / 10)) ∧
      ldpcDecode realPhi turnedSymbols (fun _ => 1) (1 / 10) 1 =
        ⟨ldpcEncode fun _ => 0, true, 1⟩ :=
  ⟨outvoted_wrongBits, turnedSymbols_received,
    ldpcDecode_corrects turnedSymbols (fun _ => 1) (1 / 10) 1 (le_refl 1) (fun _ => 0)
      (fun _ => .inl rfl) (wrongSymbols.image oddBit) outvoted_wrongBits 10 (by norm_num)
      (by norm_num) turnedSymbols_received⟩

end FreeDV.Pipeline
