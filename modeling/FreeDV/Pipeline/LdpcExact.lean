import FreeDV.Pipeline.LdpcProperties
import Mathlib.Tactic.Linarith
import Mathlib.Tactic.Positivity

/-!
# Belief propagation in exact arithmetic

Float arithmetic read as the exact arithmetic of an ordered field. When the signs
of the channel LLRs already form a codeword, every check message agrees in sign
with the bit it is sent to, so one iteration confirms the codeword, whatever
`phi` is.
-/

set_option autoImplicit false

namespace FreeDV.Pipeline

section Graph

private theorem flatMap_ite_eq_of_nodup {α β : Type} [DecidableEq α] (items : List α)
    (unique : items.Nodup) (block : α → List β) (chosen : α) (member : chosen ∈ items) :
    (items.flatMap fun item => if item = chosen then block item else []) = block chosen := by
  induction items with
  | nil => cases member
  | cons head tail ih =>
      obtain ⟨fresh, tailUnique⟩ := List.nodup_cons.mp unique
      rw [List.flatMap_cons]
      by_cases same : head = chosen
      · subst head
        have rest : (tail.flatMap fun item => if item = chosen then block item else []) = [] := by
          rw [List.flatMap_eq_nil_iff]
          intro item itemMember
          rw [if_neg]
          rintro rfl
          exact fresh itemMember
        rw [if_pos rfl, rest, List.append_nil]
      · have later : chosen ∈ tail :=
          (List.mem_cons.mp member).resolve_left fun equal => same equal.symm
        rw [if_neg same, List.nil_append, ih tailUnique later]

theorem checkEdges_eq (i : Fin 56) :
    checkEdges i = ((List.finRange 112).filter fun j => hra5656 i j ≠ 0).map fun j => ⟨i, j⟩ := by
  have rows : ∀ k : Fin 56,
      (((List.finRange 112).filter fun j => hra5656 k j ≠ 0).map fun j =>
          (⟨k, j⟩ : Edge)).filter (fun e => decide (e.check = i)) =
        if k = i then ((List.finRange 112).filter fun j => hra5656 k j ≠ 0).map fun j => ⟨k, j⟩
        else [] := by
    intro k
    rw [List.filter_map]
    by_cases same : k = i
    · subst k
      simp [Function.comp_def]
    · simp [Function.comp_def, same]
  rw [checkEdges, graphEdges, List.filter_flatMap]
  simp only [rows]
  exact flatMap_ite_eq_of_nodup _ (List.nodup_finRange 56)
    (fun k => ((List.finRange 112).filter fun j => hra5656 k j ≠ 0).map fun j =>
      (⟨k, j⟩ : Edge)) i (List.mem_finRange i)

theorem mem_varEdges_check {e : Edge} {j : Fin 112} (member : e ∈ varEdges j) :
    e.var = j ∧ e ∈ checkEdges e.check := by
  obtain ⟨inGraph, var⟩ := List.mem_filter.mp member
  exact ⟨of_decide_eq_true var, List.mem_filter.mpr ⟨inGraph, by simp⟩⟩

private theorem sum_map_filter {α : Type} (items : List α) (keep : α → Bool) (value : α → Nat) :
    ((items.filter keep).map value).sum =
      (items.map fun item => if keep item then value item else 0).sum := by
  induction items with
  | nil => rfl
  | cons head tail ih => cases kept : keep head <;> simp [kept, ih]

theorem checkEdges_sum (message : Bytes 112) (i : Fin 56) :
    ((checkEdges i).map fun e => (message e.var).toNat).sum = rowCtr message i := by
  rw [checkEdges_eq, List.map_map, rowCtr, Fin.sum_univ_def]
  simp only [Function.comp_def]
  rw [sum_map_filter]
  congr 1
  apply List.map_congr_left
  intro j _
  have bound := hra5656_le_one i j
  by_cases zero : hra5656 i j = 0
  · simp [zero]
  · have one : hra5656 i j = 1 := by omega
    simp [one]

end Graph

section Exact

variable {K : Type} [Field K] [LinearOrder K] [IsStrictOrderedRing K]

attribute [local instance] exactArith

omit [IsStrictOrderedRing K] in
@[simp] theorem exactArith_lit (q : ℚ) : (FloatArith.lit q : K) = (q : K) := rfl

omit [IsStrictOrderedRing K] in
@[simp] theorem exactArith_abs (x : K) : FloatArith.abs x = |x| := rfl

omit [IsStrictOrderedRing K] in
@[simp] theorem exactArith_lt (x y : K) : FloatArith.lt x y = true ↔ x < y := decide_eq_true_iff

omit [IsStrictOrderedRing K] in
@[simp] theorem exactArith_le (x y : K) : FloatArith.le x y = true ↔ x ≤ y := decide_eq_true_iff

/-- The sign a bit gives its LLR: positive for zero, negative for one. -/
def bitSign (bit : UInt8) : Int := if bit = 0 then 1 else -1

/-- The signs of the channel LLRs, none of them zero, spell the word. -/
def SpellsWord (llrCh : Fin 112 → K) (word : Bytes 112) : Prop :=
  ∀ j, (word j = 0 ∧ 0 < llrCh j) ∨ (word j = 1 ∧ llrCh j < 0)

omit [IsStrictOrderedRing K] in
theorem SpellsWord.isBits {llrCh : Fin 112 → K} {word : Bytes 112}
    (spells : SpellsWord llrCh word) : IsBits word :=
  fun j => (spells j).imp And.left And.left

omit [IsStrictOrderedRing K] in
theorem SpellsWord.messageSign {llrCh : Fin 112 → K} {word : Bytes 112}
    (spells : SpellsWord llrCh word) (j : Fin 112) :
    messageSign (llrCh j) = bitSign (word j) := by
  rcases spells j with ⟨bit, positive⟩ | ⟨bit, negative⟩
  · simp [Pipeline.messageSign, bitSign, bit, FloatArith.le, FloatArith.lit, positive.le]
  · simp [Pipeline.messageSign, bitSign, bit, FloatArith.le, FloatArith.lit, negative]

private theorem foldl_sign (edges : List Edge) (word : Bytes 112) (start : Int)
    (bits : IsBits word) :
    edges.foldl (fun sign k => sign * bitSign (word k.var)) start =
      start * (-1) ^ (edges.map fun e => (word e.var).toNat).sum := by
  induction edges generalizing start with
  | nil => simp
  | cons e rest ih =>
      rw [List.foldl_cons, ih, List.map_cons, List.sum_cons, pow_add]
      rcases bits e.var with bit | bit <;> simp [bit, bitSign]

theorem check_sign_eq_one {word : Bytes 112} (bits : IsBits word)
    (accepted : syndromeOk word = true) (i : Fin 56) :
    (checkEdges i).foldl (fun sign k => sign * bitSign (word k.var)) 1 = 1 := by
  have even : rowCtr word i % 2 = 0 := by
    simp only [syndromeOk, List.all_eq_true, decide_eq_true_eq] at accepted
    exact accepted i (List.mem_finRange i)
  rw [foldl_sign _ _ _ bits, checkEdges_sum, one_mul]
  exact Even.neg_one_pow (Nat.even_iff.mpr even)

omit [IsStrictOrderedRing K] in
private theorem max_zero_nonneg (x : K) : 0 ≤ FloatArith.max (FloatArith.lit 0 : K) x := by
  simp only [FloatArith.max, FloatArith.lt, FloatArith.lit, decide_eq_true_eq, Rat.cast_zero]
  by_cases positive : 0 < x
  · rw [if_pos positive]
    exact positive.le
  · rw [if_neg positive]

private theorem llrMax_pos : (0 : K) < llrMax := by
  simp only [llrMax, FloatArith.lit, Rat.cast_ofNat]
  positivity

private theorem clamp_nonneg {x : K} (nonneg : 0 ≤ x) :
    0 ≤ FloatArith.clamp x (-llrMax) llrMax := by
  have limit : (0 : K) < llrMax := llrMax_pos
  have above : FloatArith.lt x (-llrMax) = false := decide_eq_false (by linarith)
  rw [FloatArith.clamp, above]
  by_cases high : FloatArith.lt llrMax x = true
  · simpa [high] using limit.le
  · simpa [high] using nonneg

private theorem clamp_nonpos {x : K} (nonpos : x ≤ 0) :
    FloatArith.clamp x (-llrMax) llrMax ≤ 0 := by
  have limit : (0 : K) < llrMax := llrMax_pos
  have below : FloatArith.lt llrMax x = false := decide_eq_false (by linarith)
  rw [FloatArith.clamp, below]
  by_cases low : FloatArith.lt x (-llrMax) = true
  · simpa [low] using limit.le
  · simpa [low] using nonpos

/-- Every message a check sends agrees in sign with the bit it is sent to. -/
theorem checkToVariable_sign (phi : K → K) {llrCh : Fin 112 → K} {word : Bytes 112}
    (spells : SpellsWord llrCh word) (accepted : syndromeOk word = true) (e : Edge) :
    (word e.var = 0 → 0 ≤ checkToVariable phi (fun k => llrCh k.var) e) ∧
      (word e.var = 1 → checkToVariable phi (fun k => llrCh k.var) e ≤ 0) := by
  have magnitude := fun x : K => max_zero_nonneg x
  simp only [checkToVariable, spells.messageSign,
    check_sign_eq_one spells.isBits accepted, mul_one]
  constructor
  · intro bit
    apply clamp_nonneg
    simpa [bit, bitSign, FloatArith.lit] using magnitude _
  · intro bit
    apply clamp_nonpos
    simpa [bit, bitSign, FloatArith.lit] using magnitude _

private theorem foldl_add_pos (edges : List Edge) (message : Edge → K) (start : K)
    (positive : 0 < start) (nonneg : ∀ e ∈ edges, 0 ≤ message e) :
    0 < edges.foldl (fun total e => total + message e) start := by
  induction edges generalizing start with
  | nil => exact positive
  | cons e rest ih =>
      refine ih _ ?_ fun k member => nonneg k (List.mem_cons_of_mem _ member)
      exact add_pos_of_pos_of_nonneg positive (nonneg e List.mem_cons_self)

private theorem foldl_add_neg (edges : List Edge) (message : Edge → K) (start : K)
    (negative : start < 0) (nonpos : ∀ e ∈ edges, message e ≤ 0) :
    edges.foldl (fun total e => total + message e) start < 0 := by
  induction edges generalizing start with
  | nil => exact negative
  | cons e rest ih =>
      refine ih _ ?_ fun k member => nonpos k (List.mem_cons_of_mem _ member)
      exact add_neg_of_neg_of_nonpos negative (nonpos e List.mem_cons_self)

theorem hardDecision_eq (phi : K → K) {llrCh : Fin 112 → K} {word : Bytes 112}
    (spells : SpellsWord llrCh word) (accepted : syndromeOk word = true) :
    hardDecision llrCh (checkToVariable phi fun k => llrCh k.var) = word := by
  funext j
  simp only [hardDecision, posterior, FloatArith.lt, FloatArith.lit, decide_eq_true_eq,
    Rat.cast_zero]
  rcases spells j with ⟨bit, positive⟩ | ⟨bit, negative⟩
  · have total := foldl_add_pos (varEdges j) (checkToVariable phi fun k => llrCh k.var)
      (llrCh j) positive (by
        intro e member
        exact (checkToVariable_sign phi spells accepted e).1
          ((mem_varEdges_check member).1 ▸ bit))
    rw [if_neg (not_lt_of_gt total), bit]
  · have total := foldl_add_neg (varEdges j) (checkToVariable phi fun k => llrCh k.var)
      (llrCh j) negative (by
        intro e member
        exact (checkToVariable_sign phi spells accepted e).2
          ((mem_varEdges_check member).1 ▸ bit))
    rw [if_pos total, bit]

/-- A codeword spelled by the channel LLRs is confirmed in the first iteration. -/
theorem decodeLoop_of_spells (phi : K → K) {llrCh : Fin 112 → K} {word : Bytes 112}
    (spells : SpellsWord llrCh word) (accepted : syndromeOk word = true) (remaining : Nat)
    (result : LdpcDecodeResult) :
    decodeLoop phi llrCh (remaining + 1) 0 (fun e => llrCh e.var) result =
      ⟨word, true, 1⟩ := by
  simp only [decodeLoop, hardDecision_eq phi spells accepted, accepted, if_true]

/-- The channel LLRs `ldpc_decode` computes, with the noise variance it uses. -/
def channelLlr (syms : Fin 56 → RadeComp K) (amplitudes : Fin 56 → K) (noiseVar : K) :
    Fin 112 → K :=
  ldpcLinearLogMap syms amplitudes
    (if FloatArith.lt noiseVar (FloatArith.lit (1 / 10 ^ 10)) then FloatArith.lit (1 / 10 ^ 10)
    else noiseVar)

/-- The word the signs of the LLRs form: one where the LLR is negative. -/
def signWord (llrCh : Fin 112 → K) : Bytes 112 := fun j => if llrCh j < 0 then 1 else 0

/-- A codeword of the parity check matrix: its product with each row is zero modulo two. -/
def IsCodeword (word : Bytes 112) : Prop :=
  ∀ i : Fin 56, 2 ∣ ∑ j : Fin 112, hra5656 i j * (word j).toNat

theorem isCodeword_iff_syndromeOk (word : Bytes 112) :
    IsCodeword word ↔ syndromeOk word = true := by
  rw [syndromeOk, List.all_eq_true]
  constructor
  · intro codeword i _
    exact decide_eq_true (Nat.mod_eq_zero_of_dvd (codeword i))
  · intro accepted i
    exact Nat.dvd_of_mod_eq_zero (of_decide_eq_true (accepted i (List.mem_finRange i)))

omit [IsStrictOrderedRing K] in
theorem signWord_spells {llrCh : Fin 112 → K} (nonzero : ∀ j, llrCh j ≠ 0) :
    SpellsWord llrCh (signWord llrCh) := by
  intro j
  rcases lt_or_gt_of_ne (nonzero j) with negative | positive
  · exact .inr ⟨if_pos negative, negative⟩
  · exact .inl ⟨if_neg (not_lt_of_gt positive), positive⟩

/-- Belief propagation keeps a correct hard decision: when no channel LLR is zero and their
signs form a codeword, the decoder returns that codeword after one iteration, whatever `phi`
is. -/
theorem ldpcDecode_keeps_codeword (phi : K → K) (syms : Fin 56 → RadeComp K)
    (amplitudes : Fin 56 → K) (noiseVar : K) (maxIter : Nat) (positive : 1 ≤ maxIter)
    (nonzero : ∀ j, channelLlr syms amplitudes noiseVar j ≠ 0)
    (codeword : IsCodeword (signWord (channelLlr syms amplitudes noiseVar))) :
    let result := ldpcDecode phi syms amplitudes noiseVar maxIter
    result.converged = true ∧ result.iterations = 1 ∧
      result.message = signWord (channelLlr syms amplitudes noiseVar) := by
  obtain ⟨remaining, rfl⟩ := Nat.exists_eq_add_of_le' positive
  have decoded : ldpcDecode phi syms amplitudes noiseVar (remaining + 1) =
      ⟨signWord (channelLlr syms amplitudes noiseVar), true, 1⟩ := by
    unfold ldpcDecode
    exact decodeLoop_of_spells phi (signWord_spells nonzero)
      ((isCodeword_iff_syndromeOk _).mp codeword) remaining _
  rw [decoded]
  exact ⟨rfl, rfl, rfl⟩

end Exact

private theorem zeroWord_llr_pos :
    letI := exactArith ℚ
    ∀ j, 0 < channelLlr (fun _ => ⟨1, 0⟩ : Fin 56 → RadeComp ℚ) (fun _ => 1) (1 / 10) j := by
  decide +kernel

/-- The symbols of the zero word, with some noise variance. -/
theorem ldpcDecode_keeps_zero_codeword :
    letI := exactArith ℚ
    let syms : Fin 56 → RadeComp ℚ := fun _ => ⟨1, 0⟩
    (∀ j, channelLlr syms (fun _ => 1) (1 / 10) j ≠ 0) ∧
    IsCodeword (signWord (channelLlr syms (fun _ => 1) (1 / 10))) ∧
    let result := ldpcDecode (fun x => x) syms (fun _ => 1) (1 / 10) 1
    result.converged = true ∧ result.iterations = 1 ∧
      result.message = signWord (channelLlr syms (fun _ => 1) (1 / 10)) := by
  let := exactArith ℚ
  have nonzero : ∀ j, channelLlr (fun _ => ⟨1, 0⟩ : Fin 56 → RadeComp ℚ) (fun _ => 1) (1 / 10) j ≠ 0 :=
    fun j => (zeroWord_llr_pos j).ne'
  have zero : signWord (channelLlr (fun _ => ⟨1, 0⟩ : Fin 56 → RadeComp ℚ) (fun _ => 1) (1 / 10)) =
      fun _ => 0 :=
    funext fun j => if_neg (zeroWord_llr_pos j).not_gt
  have codeword : IsCodeword
      (signWord (channelLlr (fun _ => ⟨1, 0⟩ : Fin 56 → RadeComp ℚ) (fun _ => 1) (1 / 10))) := by
    rw [zero]
    intro i
    simp
  exact ⟨nonzero, codeword,
    ldpcDecode_keeps_codeword (fun x => x) (fun _ => ⟨1, 0⟩) (fun _ => 1) (1 / 10) 1 (le_refl 1)
      nonzero codeword⟩

end FreeDV.Pipeline
