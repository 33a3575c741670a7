import FreeDV.Pipeline.LdpcDecode
import Mathlib.Algebra.Order.Field.Rat

/-!
# Encoder and decoder use one code

The decoder's syndrome loop checks the raw table, the encoder runs the parity
chain. On bit words both describe the same set of words.
-/

set_option autoImplicit false

namespace FreeDV.Pipeline

open FloatArith (lit lt)

theorem pred_lt {n : Nat} (i : Fin n) : i.val - 1 < n := by
  omega

theorem previousRow_lt (i : Fin 56) : i.val - 1 < 56 :=
  pred_lt i

/-- The parity byte before index `i`, zero in the first row. -/
def previousParity (word : Bytes 112) (i : Fin 56) : Nat :=
  if i.val = 0 then 0 else (word (parityColumn ⟨i.val - 1, previousRow_lt i⟩)).toNat

private theorem sum_eq_own_add_previous {n : Nat} (value : Fin n → Nat) (i : Fin n) :
    (∑ k : Fin n, (if k = i ∨ k.val + 1 = i.val then 1 else 0) * value k) =
      value i + (if i.val = 0 then 0 else value ⟨i.val - 1, pred_lt i⟩) := by
  have terms : ∀ k : Fin n, (if k = i ∨ k.val + 1 = i.val then 1 else 0) * value k =
      (if k = i then value k else 0) + (if k.val + 1 = i.val then value k else 0) := by
    intro k
    by_cases own : k = i
    · subst k
      simp
    · by_cases before : k.val + 1 = i.val <;> simp [own, before]
  rw [Finset.sum_congr rfl fun k _ => terms k, Finset.sum_add_distrib, Finset.sum_ite_eq',
    if_pos (Finset.mem_univ i)]
  congr 1
  split
  · next zero =>
    apply Finset.sum_eq_zero
    intro k _
    simp [zero]
  · next positive =>
    rw [Finset.sum_eq_single_of_mem (⟨i.val - 1, pred_lt i⟩ : Fin n) (Finset.mem_univ _)]
    · rw [if_pos (by simp only; omega)]
    · intro k _ different
      rw [if_neg]
      intro before
      exact different (Fin.ext (by simp only; omega))

/-- A row of the table splits into the encoder's sum and the two parity bytes. -/
theorem rowCtr_eq (word : Bytes 112) (i : Fin 56) :
    rowCtr word i =
      infoCtr word i + ((word (parityColumn i)).toNat + previousParity word i) := by
  have halves : rowCtr word i =
      (∑ j : Fin 56, hra5656 i (infoColumn j) * (word (infoColumn j)).toNat) +
        ∑ k : Fin 56, hra5656 i (parityColumn k) * (word (parityColumn k)).toNat :=
    Fin.sum_univ_add (fun j : Fin (56 + 56) => hra5656 i j * (word j).toNat)
  have infoSum : (∑ j : Fin 56, hra5656 i (infoColumn j) * (word (infoColumn j)).toNat) =
      infoCtr word i :=
    Finset.sum_congr rfl fun j _ => Nat.mul_comm _ _
  have paritySum : (∑ k : Fin 56, hra5656 i (parityColumn k) * (word (parityColumn k)).toNat) =
      (word (parityColumn i)).toNat + previousParity word i := by
    simp only [hra5656_parityColumn]
    exact sum_eq_own_add_previous (fun k => (word (parityColumn k)).toNat) i
  rw [halves, infoSum, paritySum]

private theorem parityByte_eq (word : Bytes 112) (i : Fin 56) :
    parityByte word i = if (infoCtr word i + previousParity word i) % 2 ≠ 0 then 1 else 0 := by
  unfold parityByte previousParity
  split <;> simp

theorem rowCtr_even_iff {word : Bytes 112} (bits : IsBits word) (i : Fin 56) :
    rowCtr word i % 2 = 0 ↔ word (parityColumn i) = parityByte word i := by
  rw [rowCtr_eq, parityByte_eq]
  generalize infoCtr word i = info
  generalize previousParity word i = previous
  rcases bits (parityColumn i) with stored | stored <;> rw [stored] <;>
    by_cases odd : (info + previous) % 2 = 0
  · simp [odd]
  · simp [odd]
  · rw [if_neg (by simpa using odd)]
    refine ⟨fun even => ?_, fun same => absurd same (by decide)⟩
    rw [UInt8.toNat_one] at even
    omega
  · rw [if_pos odd]
    simp only [UInt8.toNat_one, iff_true]
    omega

theorem syndromeOk_iff_parityChain {word : Bytes 112} (bits : IsBits word) :
    syndromeOk word = true ↔ ParityChain word := by
  simp only [syndromeOk, List.all_eq_true, List.mem_finRange, decide_eq_true_eq, true_implies,
    rowCtr_even_iff bits, ParityChain]

/-- On bit words the syndrome loop accepts exactly the encoder's outputs. -/
theorem syndromeOk_iff_eq_ldpcEncode {word : Bytes 112} (bits : IsBits word) :
    syndromeOk word = true ↔ word = ldpcEncode (infoHalf word) := by
  rw [syndromeOk_iff_parityChain bits, parityChain_iff_eq_ldpcEncode]

section Decoder

variable {F : Type} [FloatArith F]

theorem hardDecision_isBits (llrCh : Fin 112 → F) (mCv : Edge → F) :
    IsBits (hardDecision llrCh mCv) := by
  intro j
  unfold hardDecision
  split <;> simp

/-- What a finished decoder run says: the message is a bit word, the flag is its
syndrome, and the loop only gives up after the last iteration. -/
structure DecodeSpec (maxIter : Nat) (result : LdpcDecodeResult) : Prop where
  bits : IsBits result.message
  flag : result.converged = syndromeOk result.message
  first : 1 ≤ result.iterations
  last : result.iterations ≤ maxIter
  exhausted : result.converged = false → result.iterations = maxIter

/-- The loop keeps the specification: from iteration `iter`, with no convergence so far and
at least one iteration left. -/
theorem decodeLoop_spec (phi : F → F) (llrCh : Fin 112 → F) (remaining iter : Nat)
    (mVc : Edge → F) (result : LdpcDecodeResult) (pending : result.converged = false) :
    DecodeSpec (iter + (remaining + 1))
      (decodeLoop phi llrCh (remaining + 1) iter mVc result) := by
  induction remaining generalizing iter mVc result with
  | zero =>
      simp only [decodeLoop]
      have bits := hardDecision_isBits llrCh (checkToVariable phi mVc)
      split
      · next accepted =>
        exact ⟨bits, accepted.symm, by simp, by simp, by simp⟩
      · next rejected =>
        exact ⟨bits, by simpa [pending] using rejected, by simp, by simp, by simp⟩
  | succ remaining ih =>
      rw [decodeLoop]
      have bits := hardDecision_isBits llrCh (checkToVariable phi mVc)
      split
      · next accepted =>
        exact ⟨bits, accepted.symm, by simp, by simp, by simp⟩
      · have spec := ih (iter + 1)
          (variableToCheck llrCh (checkToVariable phi mVc))
          { result with
            message := hardDecision llrCh (checkToVariable phi mVc)
            iterations := iter + 1 } pending
        have same : iter + 1 + (remaining + 1) = iter + (remaining + 1 + 1) := by omega
        exact same ▸ spec

theorem ldpcDecode_spec (phi : F → F) (syms : Fin 56 → RadeComp F) (amplitudes : Fin 56 → F)
    (noiseVar : F) {maxIter : Nat} (positive : 1 ≤ maxIter) :
    DecodeSpec maxIter (ldpcDecode phi syms amplitudes noiseVar maxIter) := by
  obtain ⟨remaining, rfl⟩ := Nat.exists_eq_add_of_le' positive
  have spec := decodeLoop_spec phi
    (ldpcLinearLogMap syms amplitudes
      (if lt noiseVar (lit (1 / 10 ^ 10)) then lit (1 / 10 ^ 10) else noiseVar))
    remaining 0 (fun e => ldpcLinearLogMap syms amplitudes
      (if lt noiseVar (lit (1 / 10 ^ 10)) then lit (1 / 10 ^ 10) else noiseVar) e.var)
    ⟨fun _ => 0, false, 0⟩ rfl
  rw [Nat.zero_add] at spec
  unfold ldpcDecode
  exact spec

end Decoder

/-- Encoder and decoder agree on the code. The syndrome loop accepts a bit word exactly when
it is the encoding of its first half; hence, whatever the float arithmetic does, a converged
result is a codeword found within the allowed iterations, and a result that did not converge
used all of them and is not a codeword. -/
theorem decoder_accepts_exactly_encoder_outputs :
    (∀ word : Bytes 112, IsBits word →
      (syndromeOk word = true ↔ word = ldpcEncode (infoHalf word))) ∧
    ∀ (F : Type) [FloatArith F] (phi : F → F) (syms : Fin 56 → RadeComp F)
      (amplitudes : Fin 56 → F) (noiseVar : F) (maxIter : Nat), 1 ≤ maxIter →
      let result := ldpcDecode phi syms amplitudes noiseVar maxIter
      (result.converged = true →
        result.message = ldpcEncode (infoHalf result.message) ∧
          1 ≤ result.iterations ∧ result.iterations ≤ maxIter) ∧
      (result.converged = false →
        result.iterations = maxIter ∧
          result.message ≠ ldpcEncode (infoHalf result.message)) := by
  refine ⟨fun word bits => syndromeOk_iff_eq_ldpcEncode bits, ?_⟩
  intro F _ phi syms amplitudes noiseVar maxIter positive result
  have spec : DecodeSpec maxIter result := ldpcDecode_spec phi syms amplitudes noiseVar positive
  have codeword := syndromeOk_iff_eq_ldpcEncode spec.bits
  constructor
  · intro converged
    exact ⟨codeword.mp (spec.flag ▸ converged), spec.first, spec.last⟩
  · intro pending
    refine ⟨spec.exhausted pending, fun same => ?_⟩
    rw [spec.flag, codeword.mpr same] at pending
    cases pending

/-- The statement at the zero word, and at a decoder run over the rationals. -/
theorem decoder_accepts_zero_word :
    (IsBits (fun _ => 0 : Bytes 112) ∧
      (syndromeOk (fun _ => 0) = true ↔
        (fun _ => 0 : Bytes 112) = ldpcEncode (infoHalf fun _ => 0))) ∧
    let result := @ldpcDecode ℚ (exactArith ℚ) (fun x => x) (fun _ => ⟨1, 0⟩) (fun _ => 1) 1 30
    (result.converged = true →
      result.message = ldpcEncode (infoHalf result.message) ∧
        1 ≤ result.iterations ∧ result.iterations ≤ 30) ∧
    (result.converged = false →
      result.iterations = 30 ∧ result.message ≠ ldpcEncode (infoHalf result.message)) :=
  ⟨⟨fun _ => .inl rfl, decoder_accepts_exactly_encoder_outputs.1 _ fun _ => .inl rfl⟩,
    letI := exactArith ℚ
    decoder_accepts_exactly_encoder_outputs.2 ℚ (fun x => x) (fun _ => ⟨1, 0⟩) (fun _ => 1) 1 30
      (by decide)⟩

end FreeDV.Pipeline
