import FreeDV.Pipeline.RadeTextProperties
import Mathlib.Tactic.FieldSimp
import Mathlib.Tactic.FinCases
import Mathlib.Tactic.Linarith

/-!
# Reliable text through noise

Each symbol arrives with a gain of its own and with noise. As long as the noise
does not carry it over a decision line, and no amplitude is so far above the mean
that its likelihoods reach the start of the accumulators, the signs of the LLRs
are those of the sent block and the text is delivered unchanged.
-/

set_option autoImplicit false

namespace FreeDV.Pipeline

/-! ## Decision lines -/

section Demapper

variable {K : Type} [Field K] [LinearOrder K] [IsStrictOrderedRing K]

attribute [local instance] exactArith

/-- The value has the sign of the bit: positive for zero, negative for one. -/
def SpellsBit (value : K) (bit : UInt8) : Prop :=
  (bit = 0 ∧ 0 < value) ∨ (bit = 1 ∧ value < 0)

/-- The symbol lies where the two bits are decided: the lines are the diagonals. -/
def RadeComp.Decides (sym : RadeComp K) (first second : UInt8) : Prop :=
  SpellsBit (sym.real + sym.imag) first ∧ SpellsBit (sym.real - sym.imag) second

theorem SpellsBit.scale {value factor : K} {bit : UInt8} (spelled : SpellsBit value bit)
    (positive : 0 < factor) : SpellsBit (factor * value) bit := by
  rcases spelled with ⟨zero, above⟩ | ⟨one, below⟩
  · exact .inl ⟨zero, mul_pos positive above⟩
  · exact .inr ⟨one, mul_neg_of_pos_of_neg positive below⟩

theorem SpellsBit.clamp {value : K} {bit : UInt8} (spelled : SpellsBit value bit) :
    SpellsBit (max (-10000) (min 10000 value)) bit := by
  rcases spelled with ⟨zero, above⟩ | ⟨one, below⟩
  · exact .inl ⟨zero, lt_max_of_lt_right (lt_min (by norm_num) above)⟩
  · exact .inr ⟨one, max_lt (by norm_num) (min_lt_of_right_lt below)⟩

theorem RadeComp.Decides.scale {sym : RadeComp K} {first second : UInt8}
    (decides : sym.Decides first second) {factor : K} (positive : 0 < factor) :
    RadeComp.Decides ⟨factor * sym.real, factor * sym.imag⟩ first second := by
  obtain ⟨sum, difference⟩ := decides
  constructor
  · rw [← mul_add]
    exact sum.scale positive
  · rw [← mul_sub]
    exact difference.scale positive

/-- Noise of less than one in both parts together leaves a sent symbol where it was. -/
theorem decides_of_noise {first second : UInt8} (firstBit : first = 0 ∨ first = 1)
    (secondBit : second = 0 ∨ second = 1) (old : RadeComp K) {real imag : K}
    (small : |real| + |imag| < 1) :
    RadeComp.Decides
      ⟨(qpskSymbol first second old).real + real, (qpskSymbol first second old).imag + imag⟩
      first second := by
  have above := abs_le.mp (le_refl |real|)
  have beside := abs_le.mp (le_refl |imag|)
  rcases firstBit with rfl | rfl <;> rcases secondBit with rfl | rfl
  · exact ⟨.inl ⟨rfl, by simp [qpskSymbol]; linarith⟩, .inl ⟨rfl, by simp [qpskSymbol]; linarith⟩⟩
  · exact ⟨.inl ⟨rfl, by simp [qpskSymbol]; linarith⟩, .inr ⟨rfl, by simp [qpskSymbol]; linarith⟩⟩
  · exact ⟨.inr ⟨rfl, by simp [qpskSymbol]; linarith⟩, .inl ⟨rfl, by simp [qpskSymbol]; linarith⟩⟩
  · exact ⟨.inr ⟨rfl, by simp [qpskSymbol]; linarith⟩, .inr ⟨rfl, by simp [qpskSymbol]; linarith⟩⟩

/-- No amplitude is so far above the mean that a likelihood reaches the start of the accumulators. -/
def LevelAmplitudes (amplitudes : Fin 56 → K) (noiseVar : K) : Prop :=
  ∀ k, 4 * amplitudes k ^ 2 < 19993 * noiseVar * meanAmp amplitudes ^ 2

/-- A likelihood of a normalized symbol is at most four times its weight below zero. -/
theorem calcLikelihood_far {sym : RadeComp K} (unit : sym.real ^ 2 + sym.imag ^ 2 = 1)
    {noiseVar amp avgAmp : K} (positive : 0 < noiseVar) (mean : avgAmp ≠ 0)
    (level : 4 * amp ^ 2 < 19993 * noiseVar * avgAmp ^ 2) {real imag : K}
    (point : real ^ 2 + imag ^ 2 = 1) :
    -99965 / 10 < calcLikelihood sym (1 / (2 * noiseVar)) real imag amp avgAmp := by
  have near : (sym.real - real) * (sym.real - real) + (sym.imag - imag) * (sym.imag - imag) ≤ 4 := by
    nlinarith [sq_nonneg (sym.real + real), sq_nonneg (sym.imag + imag)]
  have meanPos : 0 < avgAmp ^ 2 := by positivity
  have value : calcLikelihood sym (1 / (2 * noiseVar)) real imag amp avgAmp =
      -(amp ^ 2 / (2 * noiseVar * avgAmp ^ 2)) *
        ((sym.real - real) * (sym.real - real) + (sym.imag - imag) * (sym.imag - imag)) := by
    rw [calcLikelihood]
    field_simp
  have weight : amp ^ 2 / (2 * noiseVar * avgAmp ^ 2) < 99965 / 40 := by
    rw [div_lt_iff₀ (by positivity)]
    linarith
  have weightNonneg : 0 ≤ amp ^ 2 / (2 * noiseVar * avgAmp ^ 2) := by positivity
  rw [value]
  nlinarith

/-- A normalized symbol on the right side of the decision lines gives LLRs of the right sign. -/
theorem symbolLlrs_spell {syms : Fin 56 → RadeComp K} {amplitudes : Fin 56 → K} {noiseVar : K}
    (positive : 0 < noiseVar) {k : Fin 56} (amplitude : amplitudes k ≠ 0)
    (level : LevelAmplitudes amplitudes noiseVar)
    (unit : (syms k).real ^ 2 + (syms k).imag ^ 2 = 1) {first second : UInt8}
    (decides : (syms k).Decides first second) :
    SpellsBit (symbolLlrs (symLikelihoods syms amplitudes noiseVar k)).1 first ∧
      SpellsBit (symbolLlrs (symLikelihoods syms amplitudes noiseVar k)).2 second := by
  have mean : meanAmp amplitudes ≠ 0 := by
    intro zero
    have below := level k
    have square : 0 ≤ 4 * amplitudes k ^ 2 := by positivity
    rw [zero] at below
    norm_num at below
    linarith
  have far : FarFromStart (symLikelihoods syms amplitudes noiseVar k) := by
    intro point
    fin_cases point <;>
      simp only [symLikelihoods, exactArith_lit, Rat.cast_one, Rat.cast_zero, Rat.cast_neg,
        Rat.cast_ofNat, Fin.isValue, Fin.zero_eta, Fin.mk_one, Fin.reduceFinMk,
        Matrix.cons_val] <;>
      exact calcLikelihood_far unit positive mean (level k) (by norm_num)
  let weight := (amplitudes k / meanAmp amplitudes) ^ 2 / noiseVar
  have weightPos : 0 < weight := by positivity
  have first : symLikelihoods syms amplitudes noiseVar k 2 =
      symLikelihoods syms amplitudes noiseVar k 0 +
        -(weight * ((syms k).real + (syms k).imag)) := by
    simp [symLikelihoods, calcLikelihood, weight]
    ring
  have second : symLikelihoods syms amplitudes noiseVar k 3 =
      symLikelihoods syms amplitudes noiseVar k 1 +
        -(weight * ((syms k).real + (syms k).imag)) := by
    simp [symLikelihoods, calcLikelihood, weight]
    ring
  have between : symLikelihoods syms amplitudes noiseVar k 0 -
      symLikelihoods syms amplitudes noiseVar k 1 =
        weight * ((syms k).real - (syms k).imag) := by
    simp [symLikelihoods, calcLikelihood, weight]
    ring
  rw [symbolLlrs_of_moved far first second, neg_neg, between]
  exact ⟨(decides.1.scale weightPos).clamp, (decides.2.scale weightPos).clamp⟩

/-- What a block of normalized symbols has to be like to be decided bit by bit. -/
structure DecidedBlock (syms : Fin 56 → RadeComp K) (amplitudes : Fin 56 → K) (noiseVar : K)
    (word : Bytes 112) : Prop where
  amplitude : ∀ k, amplitudes k ≠ 0
  level : LevelAmplitudes amplitudes noiseVar
  unit : ∀ k, (syms k).real ^ 2 + (syms k).imag ^ 2 = 1
  decides : ∀ k, (syms k).Decides (word (evenBit k)) (word (oddBit k))

theorem DecidedBlock.spells {syms : Fin 56 → RadeComp K} {amplitudes : Fin 56 → K} {noiseVar : K}
    {word : Bytes 112} (positive : 0 < noiseVar)
    (block : DecidedBlock syms amplitudes noiseVar word) :
    SpellsWord (ldpcLinearLogMap syms amplitudes noiseVar) word := by
  intro bit
  simp only [ldpcLinearLogMap]
  obtain ⟨even, odd⟩ := symbolLlrs_spell positive (block.amplitude ⟨bit.val / 2, by omega⟩)
    block.level (block.unit _) (block.decides _)
  rcases evenBit_or_oddBit bit with ⟨parity, same⟩ | ⟨parity, same⟩
  · rw [if_pos parity]
    rwa [← same] at even
  · rw [if_neg (by omega)]
    rwa [← same] at odd

/-- A block decided bit by bit into a codeword converges to it, whatever `phi` is. -/
theorem radeTextLdpcDecode_of_decided (libm : Libm K) {obj : RadeTextImpl K} {noiseVar : K}
    {word : Bytes 112} (accepted : syndromeOk word = true)
    (block : DecidedBlock obj.inboundPendingSyms obj.inboundPendingAmps
      (max noiseVar (1 / 10 ^ 6)) word) :
    radeTextLdpcDecode libm obj noiseVar = some (unpackBits word) := by
  have sigma2 : (if FloatArith.lt noiseVar (FloatArith.lit (1 / 10 ^ 6)) then
      FloatArith.lit (1 / 10 ^ 6) else noiseVar) = max noiseVar (1 / 10 ^ 6) := by
    have literal : ((1 / 10 ^ 6 : ℚ) : K) = 1 / 10 ^ 6 := by norm_num
    simp only [exactArith_lt, exactArith_lit, literal]
    split
    · rename_i below
      rw [max_eq_right below.le]
    · rename_i above
      rw [max_eq_left (not_lt.mp above)]
  have floor : ¬ max noiseVar (1 / 10 ^ 6) < ((1 / 10 ^ 10 : ℚ) : K) := by
    rw [not_lt]
    exact le_max_of_le_right (by norm_num)
  have positive : 0 < max noiseVar (1 / 10 ^ 6) := lt_max_of_lt_right (by norm_num)
  have decoded : ldpcDecode libm.phi obj.inboundPendingSyms obj.inboundPendingAmps
      (max noiseVar (1 / 10 ^ 6)) 30 = ⟨word, true, 1⟩ := by
    simp only [ldpcDecode, exactArith_lt, exactArith_lit, floor, if_false]
    exact decodeLoop_of_spells libm.phi (block.spells positive) accepted 29 _
  rw [radeTextLdpcDecode]
  simp only [sigma2, decoded, if_true]

end Demapper

/-! ## The channel -/

section Channel

attribute [local instance] exactArith

/-- Each symbol of the block arrives with a gain of its own, and with noise of less than one in both
parts together, measured at the transmitter. -/
def NoisyBlock (sent received : Nat → ℝ) : Prop :=
  ∀ k < 56, ∃ gain real imag : ℝ, 0 < gain ∧ |real| + |imag| < 1 ∧
    received (2 * k) = gain * (sent (2 * k) + real) ∧
    received (2 * k + 1) = gain * (sent (2 * k + 1) + imag)

theorem SentBlock.parts {word : Bytes 112} {symSize : Nat} {sent : Nat → ℝ}
    (block : SentBlock word symSize sent) (k : Fin 56) :
    ∃ old, sent (2 * (interleavedIndex k).val) =
        (qpskSymbol (word (evenBit k)) (word (oddBit k)) old).real ∧
      sent (2 * (interleavedIndex k).val + 1) =
        (qpskSymbol (word (evenBit k)) (word (oddBit k)) old).imag := by
  obtain ⟨old, symbols⟩ := block.block
  exact ⟨old k, congrArg RadeComp.real (symbols k), congrArg RadeComp.imag (symbols k)⟩

theorem NoisyBlock.decides {sent received : Nat → ℝ} (noisy : NoisyBlock sent received)
    {word : Bytes 112} (bits : IsBits word) {symSize : Nat} (block : SentBlock word symSize sent)
    (k : Fin 56) :
    (deinterleaveComp received k).Decides (word (evenBit k)) (word (oddBit k)) := by
  obtain ⟨gain, real, imag, positive, small, realPart, imagPart⟩ :=
    noisy (interleavedIndex k).val (interleavedIndex k).isLt
  obtain ⟨old, first, second⟩ := block.parts k
  have decides := (decides_of_noise (bits (evenBit k)) (bits (oddBit k)) old small).scale
    positive
  rwa [deinterleaveComp, realPart, imagPart, first, second]

/-- Off the decision lines there is an amplitude to divide by. -/
theorem RadeComp.Decides.normalized {sym : RadeComp ℝ} {first second : UInt8}
    (decides : sym.Decides first second) :
    let amp := √(sym.real * sym.real + sym.imag * sym.imag)
    0 < amp ∧ (sym.real / amp) ^ 2 + (sym.imag / amp) ^ 2 = 1 ∧
      RadeComp.Decides ⟨sym.real / amp, sym.imag / amp⟩ first second := by
  intro amp
  have nonzero : sym.real + sym.imag ≠ 0 := by
    rcases decides.1 with ⟨-, above⟩ | ⟨-, below⟩
    · exact above.ne'
    · exact below.ne
  have power : 0 < sym.real * sym.real + sym.imag * sym.imag := by
    have square : 0 < (sym.real + sym.imag) ^ 2 := by positivity
    nlinarith [sq_nonneg (sym.real - sym.imag)]
  have positive : 0 < amp := Real.sqrt_pos.mpr power
  have square : amp ^ 2 = sym.real * sym.real + sym.imag * sym.imag := Real.sq_sqrt power.le
  refine ⟨positive, ?_, ?_⟩
  · rw [div_pow, div_pow, ← add_div, square, pow_two, pow_two]
    exact div_self power.ne'
  · rw [div_eq_inv_mul, div_eq_inv_mul]
    exact decides.scale (inv_pos.mpr positive)

theorem prepareDecode_decided (phi : ℝ → ℝ) (rx : RadeTextImpl ℝ) {sent received : Nat → ℝ}
    (noisy : NoisyBlock sent received) {word : Bytes 112} (bits : IsBits word) {symSize : Nat}
    (block : SentBlock word symSize sent)
    (level : LevelAmplitudes (prepareDecode ⟨Real.sqrt, phi⟩ rx received symSize).1.inboundPendingAmps
      (max (prepareDecode ⟨Real.sqrt, phi⟩ rx received symSize).2 (1 / 10 ^ 6))) :
    DecidedBlock (prepareDecode ⟨Real.sqrt, phi⟩ rx received symSize).1.inboundPendingSyms
      (prepareDecode ⟨Real.sqrt, phi⟩ rx received symSize).1.inboundPendingAmps
      (max (prepareDecode ⟨Real.sqrt, phi⟩ rx received symSize).2 (1 / 10 ^ 6)) word where
  amplitude k := (noisy.decides bits block k).normalized.1.ne'
  level := level
  unit k := (noisy.decides bits block k).normalized.2.1
  decides k := (noisy.decides bits block k).normalized.2.2

/-- With floats read as exact reals and any `phi`: noise that carries no symbol over a decision line
does not change the text, as long as no amplitude is too far above the mean for the noise variance
the receiver has estimated. What arrives behind the block may be anything. -/
theorem radeTextRx_through_noise (phi : ℝ → ℝ) (tx rx : RadeTextImpl ℝ)
    (registered : rx.textRxCallback = true) (str : List UInt8) (strlength symSize : Nat)
    (syms received : Nat → ℝ)
    (noisy : NoisyBlock (radeTextGenerateTxString tx str strlength syms (2 * symSize)).2 received)
    (level : LevelAmplitudes (prepareDecode ⟨Real.sqrt, phi⟩ rx received symSize).1.inboundPendingAmps
      (max (prepareDecode ⟨Real.sqrt, phi⟩ rx received symSize).2 (1 / 10 ^ 6))) :
    (radeTextRx ⟨Real.sqrt, phi⟩ rx received symSize).2 =
      [⟨expectedText str strlength, (expectedText str strlength).length⟩] := by
  have bits := ldpcEncode_isBits (packBits_isBits (rawText str strlength))
  have accepted := (syndromeOk_iff_parityChain bits).mpr (ldpcEncode_spec _).2
  have sent := radeTextGenerateTxString_sentBlock tx str strlength syms symSize
  have decoded := radeTextLdpcDecode_of_decided ⟨Real.sqrt, phi⟩ accepted
    (prepareDecode_decided phi rx noisy bits sent level)
  rw [radeTextRx_calls, decoded, Option.elim_some, registered, unpackBits_sent,
    deliverText_rawText]

/-! ### A noisy reception -/

theorem meanAmp_of_le {amplitudes : Fin 56 → ℝ} {low : ℝ} (above : ∀ k, low ≤ amplitudes k) :
    low ≤ meanAmp amplitudes := by
  have total : ∀ (items : List (Fin 56)) (start : ℝ),
      start + items.length * low ≤ items.foldl (fun sum k => sum + amplitudes k) start := by
    intro items
    induction items with
    | nil => simp
    | cons k rest ih =>
        intro start
        have behind := ih (start + amplitudes k)
        have here := above k
        rw [List.foldl_cons, List.length_cons, Nat.cast_succ]
        linarith
  have sum := total (List.finRange 56) 0
  rw [List.length_finRange, zero_add] at sum
  rw [meanAmp, exactArith_lit, exactArith_lit, Rat.cast_zero, le_div_iff₀ (by norm_num)]
  norm_num at sum ⊢
  linarith

/-- A channel of gain two that adds a half to each real part. The one symbol behind the block arrives
a quarter turn from where it was sent. -/
def biasedReception {K : Type} [Field K] (sent : Nat → K) : Nat → K := fun position =>
  if position < 112 then 2 * (sent position + if position % 2 = 0 then 1 / 2 else 0)
  else if position = 112 then 0 else 1

theorem biasedReception_noisy (sent : Nat → ℝ) : NoisyBlock sent (biasedReception sent) := by
  intro k inside
  have odd : (2 * k + 1) % 2 ≠ 0 := by omega
  refine ⟨2, 1 / 2, 0, by norm_num, by norm_num, ?_, ?_⟩
  · rw [biasedReception, if_pos (by omega), if_pos (by omega)]
  · rw [biasedReception, if_pos (by omega), if_neg odd]

theorem biasedReception_noiseVar (phi : ℝ → ℝ) (rx : RadeTextImpl ℝ) (sent : Nat → ℝ) :
    (prepareDecode ⟨Real.sqrt, phi⟩ rx (biasedReception sent) 57).2 = 2 := by
  have block : (List.range 56).foldl
      (eooStep ⟨Real.sqrt, phi⟩ rx.enableStats (biasedReception sent)) ⟨0, 0, 0, 0⟩ =
        ⟨0, 0, 0, 0⟩ := by
    refine Lib.foldl_invariant _ (fun _ (stats : EooStats ℝ) => stats = ⟨0, 0, 0, 0⟩)
      (List.range 56) ⟨0, 0, 0, 0⟩ rfl ?_
    intro visited index rest stats split unchanged
    have member : index ∈ List.range 56 := by
      rw [split]
      simp
    rw [eooStep, if_pos (List.mem_range.mp member), unchanged]
  have real : biasedReception sent 112 = 0 := by simp [biasedReception]
  have imag : biasedReception sent 113 = 1 := by simp [biasedReception]
  have filler : eooStep ⟨Real.sqrt, phi⟩ rx.enableStats (biasedReception sent) ⟨0, 0, 0, 0⟩ 56 =
      ⟨2, 2, if rx.enableStats then 2 else 0, 0⟩ := by
    cases rx.enableStats <;> norm_num [eooStep, real, imag]
  simp only [prepareDecode, List.range_succ (n := 56), List.foldl_append, List.foldl_cons,
    List.foldl_nil, exactArith_lit, Rat.cast_zero, block, filler]
  norm_num

theorem qpskSymbol_points {first second : UInt8} (firstBit : first = 0 ∨ first = 1)
    (secondBit : second = 0 ∨ second = 1) (old : RadeComp ℝ) :
    let sym := qpskSymbol first second old
    (sym.real = 1 ∧ sym.imag = 0) ∨ (sym.real = 0 ∧ sym.imag = 1) ∨
      (sym.real = 0 ∧ sym.imag = -1) ∨ (sym.real = -1 ∧ sym.imag = 0) := by
  rcases firstBit with rfl | rfl <;> rcases secondBit with rfl | rfl <;> simp [qpskSymbol]

theorem biasedReception_amplitude {sent : Nat → ℝ} {word : Bytes 112} (bits : IsBits word)
    {symSize : Nat} (block : SentBlock word symSize sent) (k : Fin 56) :
    let sym := deinterleaveComp (biasedReception sent) k
    1 ≤ √(sym.real * sym.real + sym.imag * sym.imag) ∧
      √(sym.real * sym.real + sym.imag * sym.imag) ≤ 3 := by
  obtain ⟨old, first, second⟩ := block.parts k
  have inside := (interleavedIndex k).isLt
  have real : (deinterleaveComp (biasedReception sent) k).real =
      2 * ((qpskSymbol (word (evenBit k)) (word (oddBit k)) old).real + 1 / 2) := by
    rw [← first, deinterleaveComp, biasedReception, if_pos (by omega), if_pos (by omega)]
  have imag : (deinterleaveComp (biasedReception sent) k).imag =
      2 * (qpskSymbol (word (evenBit k)) (word (oddBit k)) old).imag := by
    have below : 2 * (interleavedIndex k).val + 1 < 112 := by omega
    rw [← second]
    simp [deinterleaveComp, biasedReception, below]
  intro sym
  rw [Real.one_le_sqrt, Real.sqrt_le_left (by norm_num), real, imag]
  rcases qpskSymbol_points (bits (evenBit k)) (bits (oddBit k)) old with
    ⟨re, im⟩ | ⟨re, im⟩ | ⟨re, im⟩ | ⟨re, im⟩ <;>
    rw [re, im] <;> norm_num

/-- The callsign `k6aq`, received with that bias. -/
theorem radeTextRx_through_noise_of_k6aq :
    let rx : RadeTextImpl ℝ := radeTextSetRxCallback radeTextCreate
    let sent := (radeTextGenerateTxString radeTextCreate [107, 54, 97, 113] 4 (fun _ => 0)
      (2 * 57)).2
    rx.textRxCallback = true ∧ NoisyBlock sent (biasedReception sent) ∧
      LevelAmplitudes
        (prepareDecode ⟨Real.sqrt, id⟩ rx (biasedReception sent) 57).1.inboundPendingAmps
        (max (prepareDecode ⟨Real.sqrt, id⟩ rx (biasedReception sent) 57).2 (1 / 10 ^ 6)) ∧
      (radeTextRx ⟨Real.sqrt, id⟩ rx (biasedReception sent) 57).2 = [⟨[75, 54, 65, 81], 4⟩] := by
  intro rx sent
  have block := radeTextGenerateTxString_sentBlock (radeTextCreate : RadeTextImpl ℝ)
    [107, 54, 97, 113] 4 (fun _ => 0) 57
  have bounds := biasedReception_amplitude
    (ldpcEncode_isBits (packBits_isBits (rawText [107, 54, 97, 113] 4))) block
  have level : LevelAmplitudes
      (prepareDecode ⟨Real.sqrt, id⟩ rx (biasedReception sent) 57).1.inboundPendingAmps
      (max (prepareDecode ⟨Real.sqrt, id⟩ rx (biasedReception sent) 57).2 (1 / 10 ^ 6)) := by
    intro k
    let amplitudes :=
      (prepareDecode ⟨Real.sqrt, id⟩ rx (biasedReception sent) 57).1.inboundPendingAmps
    have mean : 1 ≤ meanAmp amplitudes := meanAmp_of_le fun k => (bounds k).1
    have low : 1 ≤ amplitudes k := (bounds k).1
    have high : amplitudes k ≤ 3 := (bounds k).2
    rw [biasedReception_noiseVar, max_eq_left (by norm_num)]
    have square : amplitudes k ^ 2 ≤ 3 ^ 2 := pow_le_pow_left₀ (by linarith) high 2
    have meanSquare : 1 ≤ meanAmp amplitudes ^ 2 := one_le_pow₀ mean
    calc 4 * amplitudes k ^ 2 ≤ 4 * 3 ^ 2 := by linarith
      _ < 19993 * 2 * 1 := by norm_num
      _ ≤ 19993 * 2 * meanAmp amplitudes ^ 2 := by linarith
  exact ⟨rfl, biasedReception_noisy sent, level,
    radeTextRx_through_noise id radeTextCreate rx rfl [107, 54, 97, 113] 4 57 (fun _ => 0)
      (biasedReception sent) (biasedReception_noisy sent) level⟩

end Channel

end FreeDV.Pipeline
