import FreeDV.Pipeline.LdpcDemapper
import FreeDV.Pipeline.RadeText
import Mathlib.Analysis.Real.Sqrt
import Mathlib.Data.FinEnum
import Mathlib.Data.List.TakeWhile
import Mathlib.Tactic.NormNum

/-!
# Noiseless round trip of reliable text

Each transmitter stage is undone by its receiver stage: character codes, bit
packing, the LDPC block, the interleaver and the QPSK symbols. In exact
arithmetic the received block therefore decodes to the sent one.
-/

set_option autoImplicit false

namespace FreeDV.Pipeline

section Text

theorem convertString_eq (table : UInt8 → Option UInt8) (input : List UInt8) (maxLength : Nat) :
    convertString table input maxLength =
      ((input.take maxLength).takeWhile (· ≠ 0)).filterMap table := by
  induction input generalizing maxLength with
  | nil => cases maxLength <;> rfl
  | cons ch rest ih =>
      cases maxLength with
      | zero => rfl
      | succ maxLength =>
          rw [convertString, List.take_succ_cons, List.takeWhile_cons]
          by_cases terminator : ch = 0
          · simp [terminator]
          · rw [if_neg terminator, if_pos (by simpa using terminator), ih, List.filterMap_cons]
            cases table ch <;> rfl

theorem crcLoop_eq (crc : UInt8) (input : List UInt8) (length : Nat) :
    crcLoop crc input length = ((input.take length).takeWhile (· ≠ 0)).foldl crcByte crc := by
  induction input generalizing crc length with
  | nil => cases length <;> rfl
  | cons ch rest ih =>
      cases length with
      | zero => rfl
      | succ length =>
          rw [crcLoop, List.take_succ_cons, List.takeWhile_cons]
          by_cases terminator : ch = 0
          · simp [terminator]
          · rw [if_neg terminator, if_pos (by simpa using terminator), ih, List.foldl_cons]

/-- The character a callsign character is received as, if it can be sent at all. -/
def receivedChar (ch : UInt8) : Option UInt8 :=
  if 97 ≤ ch ∧ ch ≤ 122 then some (ch - 32)
  else if (38 ≤ ch ∧ ch ≤ 46) ∨ ch = 47 ∨ (48 ≤ ch ∧ ch ≤ 57) ∨ (65 ≤ ch ∧ ch ≤ 90) then some ch
  else none

/-- The text a receiver should report: the first `min strlength 8` characters up to the first
NUL, letters in upper case, without the characters that have no code. -/
def expectedText (str : List UInt8) (strlength : Nat) : List UInt8 :=
  ((str.take (min strlength 8)).takeWhile (· ≠ 0)).filterMap receivedChar

theorem otaCode_bind_callsignChar (ch : UInt8) :
    (otaCode ch).bind callsignChar = receivedChar ch := by
  revert ch
  decide +kernel

theorem otaCode_range {ch code : UInt8} (found : otaCode ch = some code) :
    1 ≤ code ∧ code ≤ 46 := by
  have every : ∀ ch, (otaCode ch).all (fun code => 1 ≤ code ∧ code ≤ 46) = true := by
    decide +kernel
  simpa [found] using every ch

theorem receivedChar_ne_zero {ch out : UInt8} (found : receivedChar ch = some out) : out ≠ 0 := by
  have every : ∀ ch, (receivedChar ch).all (fun out => out ≠ 0) = true := by
    decide +kernel
  simpa [found] using every ch

/-- The codes sent for a string. -/
def sentCodes (str : List UInt8) (strlength : Nat) : List UInt8 :=
  convertCallsignToOtaString str (if strlength < 8 then strlength else 8)

theorem sentCodes_eq (str : List UInt8) (strlength : Nat) :
    sentCodes str strlength =
      ((str.take (min strlength 8)).takeWhile (· ≠ 0)).filterMap otaCode := by
  have limit : (if strlength < 8 then strlength else 8) = min strlength 8 := by
    split <;> omega
  rw [sentCodes, convertCallsignToOtaString, limit, convertString_eq]

theorem sentCodes_length (str : List UInt8) (strlength : Nat) :
    (sentCodes str strlength).length ≤ 8 := by
  rw [sentCodes_eq]
  refine (List.length_filterMap_le _ _).trans ((List.takeWhile_prefix _).length_le.trans ?_)
  rw [List.length_take]
  omega

theorem sentCodes_range {str : List UInt8} {strlength : Nat} {code : UInt8}
    (member : code ∈ sentCodes str strlength) : 1 ≤ code ∧ code ≤ 46 := by
  rw [sentCodes_eq] at member
  obtain ⟨ch, _, found⟩ := List.mem_filterMap.mp member
  exact otaCode_range found

private theorem takeWhile_ne_zero {codes : List UInt8} (nonzero : ∀ code ∈ codes, code ≠ 0) :
    codes.takeWhile (· ≠ 0) = codes :=
  List.takeWhile_eq_self_iff.mpr fun code member => by simpa using nonzero code member

theorem sentCodes_ne_zero {str : List UInt8} {strlength : Nat} :
    ∀ code ∈ sentCodes str strlength, code ≠ 0 := by
  intro code member zero
  have range := sentCodes_range member
  rw [zero] at range
  exact absurd range.1 (by decide)

theorem strlen_sentCodes (str : List UInt8) (strlength : Nat) :
    strlen (sentCodes str strlength) = (sentCodes str strlength).length := by
  rw [strlen, takeWhile_ne_zero sentCodes_ne_zero]

theorem sentCodes_filterMap (str : List UInt8) (strlength : Nat) :
    (sentCodes str strlength).filterMap callsignChar = expectedText str strlength := by
  rw [sentCodes_eq, List.filterMap_filterMap, expectedText]
  simp only [otaCode_bind_callsignChar]

theorem strlen_expectedText (str : List UInt8) (strlength : Nat) :
    strlen (expectedText str strlength) = (expectedText str strlength).length := by
  rw [strlen, takeWhile_ne_zero]
  intro out member
  obtain ⟨ch, _, found⟩ := List.mem_filterMap.mp member
  exact receivedChar_ne_zero found

/-- Index zero of the raw buffer is the CRC of the codes behind it. -/
theorem rawText_eq (str : List UInt8) (strlength : Nat) (k : Fin 10) :
    rawText str strlength k =
      if k.val = 0 then (sentCodes str strlength).foldl crcByte 0
      else (sentCodes str strlength).getD (k.val - 1) 0 := by
  have bound := sentCodes_length str strlength
  change (if k.val = 0 then calculateCRC8 (sentCodes str strlength)
      (if strlen (sentCodes str strlength) ≥ 8 then 8 else strlen (sentCodes str strlength))
    else (sentCodes str strlength).getD (k.val - 1) 0) = _
  have length : (if strlen (sentCodes str strlength) ≥ 8 then 8
      else strlen (sentCodes str strlength)) = (sentCodes str strlength).length := by
    rw [strlen_sentCodes]
    split <;> omega
  rw [length, calculateCRC8, crcLoop_eq, List.take_length, takeWhile_ne_zero sentCodes_ne_zero]

private theorem map_getD_finRange (codes : List UInt8) (n : Nat) (bound : codes.length ≤ n) :
    ((List.finRange n).map fun k => codes.getD k.val 0) =
      codes ++ List.replicate (n - codes.length) 0 := by
  apply List.ext_getElem
  · simp
    omega
  · intro index left right
    simp only [List.getElem_map, List.getElem_finRange, Fin.val_cast]
    by_cases inside : index < codes.length
    · simp [List.getD_eq_getElem?_getD, List.getElem_append_left inside, inside]
    · rw [List.getElem_append_right (by omega)]
      simp [List.getD_eq_getElem?_getD, List.getElem?_eq_none (by omega : codes.length ≤ index)]

theorem textOf_rawText (str : List UInt8) (strlength : Nat) :
    ((textOf (rawText str strlength)).take 8).takeWhile (· ≠ 0) = sentCodes str strlength := by
  have bound := sentCodes_length str strlength
  have view : textOf (rawText str strlength) =
      sentCodes str strlength ++ List.replicate (9 - (sentCodes str strlength).length) 0 := by
    rw [← map_getD_finRange _ 9 (by omega)]
    apply List.map_congr_left
    intro k _
    simp [rawText_eq]
  have count : 8 - (sentCodes str strlength).length ≤ 9 - (sentCodes str strlength).length := by
    omega
  rw [view, List.take_append, List.take_of_length_le bound,
    List.takeWhile_append_of_pos (by simpa using sentCodes_ne_zero), List.take_replicate,
    Nat.min_eq_left count]
  cases 8 - (sentCodes str strlength).length <;> simp [List.replicate_succ]

end Text

section Block

private theorem collect_own_bits (slot : Fin 10) (value : UInt8)
    (text : slot.val ≠ 0 → value.toNat < 64) (last : slot.val = 9 → value = 0) :
    ((List.finRange 56).filter fun bit => destSlot bit = slot).foldl
        (fun byte bit =>
          if hasBit value (destBit bit) then byte ||| (1 <<< UInt8.ofNat (destBit bit)) else byte)
        0 = value := by
  revert slot value
  decide +kernel

theorem orBit_eq_update (dest : Bytes 10) (slot : Fin 10) (bit : Nat) (message : UInt8) :
    orBit dest slot bit message =
      Function.update dest slot
        (if message ≠ 0 then dest slot ||| (1 <<< UInt8.ofNat bit) else dest slot) := by
  unfold orBit
  split
  · rfl
  · rw [Function.update_eq_self]

theorem packBits_eq (tmp : Bytes 10) (bit : Fin 56) :
    packBits tmp bit = if hasBit (tmp (destSlot bit)) (destBit bit) then 1 else 0 := by
  unfold packBits destSlot destBit
  split <;> rfl

theorem packBits_isBits (tmp : Bytes 10) : IsBits (packBits tmp) := by
  intro bit
  rw [packBits_eq]
  split <;> simp

/-- Unpacking inverts packing on buffers that hold a byte and eight 6 bit codes. -/
theorem unpackBits_of_infoHalf {message : Bytes 112} {tmp : Bytes 10}
    (info : infoHalf message = packBits tmp)
    (text : ∀ slot : Fin 10, slot.val ≠ 0 → (tmp slot).toNat < 64) (last : tmp 9 = 0) :
    unpackBits message = tmp := by
  funext slot
  have written : ∀ bit, message (infoColumn bit) = packBits tmp bit := fun bit => congrFun info bit
  simp only [unpackBits, orBit_eq_update]
  rw [Lib.foldl_update_apply destSlot (fun byte bit =>
    if message (infoColumn bit) ≠ 0 then byte ||| (1 <<< UInt8.ofNat (destBit bit)) else byte)]
  rw [← collect_own_bits slot (tmp slot) (text slot)
    (fun nine => (Fin.ext nine : slot = 9) ▸ last)]
  apply List.foldl_ext
  intro byte bit member
  have own : destSlot bit = slot := by simpa using (List.mem_filter.mp member).2
  simp only [written, packBits_eq, own]
  cases hasBit (tmp slot) (destBit bit) <;> simp

theorem blockBits_eq (tmp : Bytes 10) : blockBits tmp = ldpcEncode (packBits tmp) := by
  funext k
  simp only [blockBits]
  split
  · next inside =>
    exact (congrFun (ldpcEncode_spec (packBits tmp)).1 ⟨k.val, inside⟩).symm
  · rfl

theorem interleavedIndex_injective : Function.Injective interleavedIndex := by
  decide +kernel

private theorem evenBit_ne_oddBit (left right : Fin 56) : evenBit left ≠ oddBit right := by
  intro same
  have values := congrArg Fin.val same
  simp only [evenBit, oddBit] at values
  omega

private theorem evenBit_injective : Function.Injective evenBit := by
  intro left right same
  have values := congrArg Fin.val same
  simp only [evenBit] at values
  exact Fin.ext (by omega)

private theorem oddBit_injective : Function.Injective oddBit := by
  intro left right same
  have values := congrArg Fin.val same
  simp only [oddBit] at values
  exact Fin.ext (by omega)

/-- Symbol `index` of the block is sent at its interleaved index. -/
theorem interleaveBits_spec (out input : Bytes 112) (index : Fin 56) :
    interleaveBits out input (evenBit (interleavedIndex index)) = input (evenBit index) ∧
      interleaveBits out input (oddBit (interleavedIndex index)) = input (oddBit index) := by
  have valid := Lib.foldl_invariant
    (fun (out : Bytes 112) index =>
      Function.update
        (Function.update out (evenBit (interleavedIndex index)) (input (evenBit index)))
        (oddBit (interleavedIndex index)) (input (oddBit index)))
    (fun visited state => ∀ earlier ∈ visited,
      state (evenBit (interleavedIndex earlier)) = input (evenBit earlier) ∧
        state (oddBit (interleavedIndex earlier)) = input (oddBit earlier))
    (List.finRange 56) out (by simp) ?_
  · exact valid index (List.mem_finRange index)
  · intro visited current rest state split kept earlier member
    by_cases same : earlier = current
    · subst earlier
      rw [Function.update_self, Function.update_of_ne (evenBit_ne_oddBit _ _),
        Function.update_self]
      exact ⟨rfl, rfl⟩
    · have visitedMember : earlier ∈ visited := by
        simpa [same] using member
      have moved := interleavedIndex_injective.ne same
      rw [Function.update_of_ne (evenBit_ne_oddBit _ _),
        Function.update_of_ne (evenBit_injective.ne moved),
        Function.update_of_ne (oddBit_injective.ne moved),
        Function.update_of_ne (evenBit_ne_oddBit _ _).symm]
      exact kept earlier visitedMember

theorem unpackBits_sent (str : List UInt8) (strlength : Nat) :
    unpackBits (ldpcEncode (packBits (rawText str strlength))) = rawText str strlength := by
  have bound := sentCodes_length str strlength
  apply unpackBits_of_infoHalf (ldpcEncode_spec _).1
  · intro slot text
    rw [rawText_eq, if_neg text]
    by_cases inside : slot.val - 1 < (sentCodes str strlength).length
    · have range := sentCodes_range (List.getElem_mem inside)
      have small := UInt8.le_iff_toNat_le.mp range.2
      rw [List.getD_eq_getElem?_getD, List.getElem?_eq_getElem inside, Option.getD_some]
      exact lt_of_le_of_lt small (by decide)
    · rw [List.getD_eq_getElem?_getD, List.getElem?_eq_none (by omega)]
      decide
  · rw [rawText_eq, if_neg (by decide), List.getD_eq_getElem?_getD,
      List.getElem?_eq_none (show (sentCodes str strlength).length ≤ ((9 : Fin 10) : Nat) - 1
        from bound)]
    rfl

theorem deliverText_rawText (str : List UInt8) (strlength : Nat) :
    deliverText true (rawText str strlength) =
      [⟨expectedText str strlength, (expectedText str strlength).length⟩] := by
  have crc : rawText str strlength 0 = calculateCRC8 (textOf (rawText str strlength)) 8 := by
    rw [calculateCRC8, crcLoop_eq, textOf_rawText, rawText_eq]
    rfl
  have text : convertOtaStringToCallsign (textOf (rawText str strlength)) 8 =
      expectedText str strlength := by
    rw [convertOtaStringToCallsign, convertString_eq, textOf_rawText, sentCodes_filterMap]
  simp only [deliverText, text, strlen_expectedText, ← crc, and_self, if_true]

end Block

theorem radeTextRx_calls {F : Type} [FloatArith F] (libm : Libm F) (rx : RadeTextImpl F)
    (syms : Nat → F) (symSize : Nat) :
    (radeTextRx libm rx syms symSize).2 =
      (radeTextLdpcDecode libm (prepareDecode libm rx syms symSize).1
        (prepareDecode libm rx syms symSize).2).elim [] (deliverText rx.textRxCallback) := rfl

section Exact

variable {K : Type} [Field K] [LinearOrder K] [IsStrictOrderedRing K]

attribute [local instance] exactArith

/-- The LLR of a noiseless bit. -/
def noiselessLlr (bit : UInt8) : K := if bit = 0 then 10000 else -10000

omit [IsStrictOrderedRing K] in
private theorem noiselessLlr_zero : (noiselessLlr 0 : K) = 10000 := if_pos rfl

omit [IsStrictOrderedRing K] in
private theorem noiselessLlr_one : (noiselessLlr 1 : K) = -10000 := if_neg (by decide)

omit [IsStrictOrderedRing K] in
private theorem qpskSymbol_bits (old : RadeComp K) :
    qpskSymbol 0 0 old = ⟨1, 0⟩ ∧ qpskSymbol 0 1 old = ⟨0, 1⟩ ∧
      qpskSymbol 1 0 old = ⟨0, -1⟩ ∧ qpskSymbol 1 1 old = ⟨-1, 0⟩ := by
  simp [qpskSymbol]

/-- With every wrong constellation point far away, the two LLRs sit at the clamping limits. -/
private theorem symbolLlrs_noiseless {likelihood : Fin 4 → K} {first second : UInt8}
    {old sym : RadeComp K} (firstBit : first = 0 ∨ first = 1) (secondBit : second = 0 ∨ second = 1)
    (sent : sym = qpskSymbol first second old)
    (l0 : likelihood 0 = -500000 * ((sym.real - 1) ^ 2 + sym.imag ^ 2))
    (l1 : likelihood 1 = -500000 * (sym.real ^ 2 + (sym.imag - 1) ^ 2))
    (l2 : likelihood 2 = -500000 * (sym.real ^ 2 + (sym.imag + 1) ^ 2))
    (l3 : likelihood 3 = -500000 * ((sym.real + 1) ^ 2 + sym.imag ^ 2)) :
    symbolLlrs likelihood = (noiselessLlr first, noiselessLlr second) := by
  have low : FloatArith.clamp (-10000 : K) (-10000) 10000 = -10000 := by
    norm_num [FloatArith.clamp]
  have high : FloatArith.clamp (10000 : K) (-10000) 10000 = 10000 := by
    norm_num [FloatArith.clamp]
  obtain ⟨s00, s01, s10, s11⟩ := qpskSymbol_bits old
  subst sym
  rcases firstBit with rfl | rfl <;> rcases secondBit with rfl | rfl <;>
    norm_num [s00, s01, s10, s11] at l0 l1 l2 l3 <;>
    simp (disch := norm_num) only [symbolLlrs, llrMax_eq, l0, l1, l2, l3, maxStar_of_below,
      maxStar_of_above] <;>
    norm_num [low, high, noiselessLlr_zero, noiselessLlr_one]

private theorem half_lt (bit : Fin 112) : bit.val / 2 < 56 := by
  omega

theorem evenBit_or_oddBit (bit : Fin 112) :
    (bit.val % 2 = 0 ∧ bit = evenBit ⟨bit.val / 2, half_lt bit⟩) ∨
      (bit.val % 2 = 1 ∧ bit = oddBit ⟨bit.val / 2, half_lt bit⟩) := by
  rcases Nat.mod_two_eq_zero_or_one bit.val with even | odd
  · exact .inl ⟨even, Fin.ext (by simp only [evenBit]; omega)⟩
  · exact .inr ⟨odd, Fin.ext (by simp only [oddBit]; omega)⟩

private theorem meanAmp_one {amplitudes : Fin 56 → K} (unit : ∀ k, amplitudes k = 1) :
    meanAmp amplitudes = 1 := by
  have total : ∀ (items : List (Fin 56)) (start : K),
      items.foldl (fun sum k => sum + amplitudes k) start = start + items.length := by
    intro items
    induction items with
    | nil => simp
    | cons k rest ih =>
        intro start
        rw [List.foldl_cons, ih, unit, List.length_cons, Nat.cast_succ]
        ring
  rw [meanAmp, total]
  norm_num

theorem ldpcLinearLogMap_noiseless {syms : Fin 56 → RadeComp K} {amplitudes : Fin 56 → K}
    {word : Bytes 112} (bits : IsBits word) (unit : ∀ k, amplitudes k = 1)
    (old : Fin 56 → RadeComp K)
    (sent : ∀ k, syms k = qpskSymbol (word (evenBit k)) (word (oddBit k)) (old k)) :
    SpellsWord (ldpcLinearLogMap syms amplitudes (FloatArith.lit (1 / 10 ^ 6))) word := by
  have mean := meanAmp_one unit
  have scale : (FloatArith.lit 1 / (FloatArith.lit 2 * FloatArith.lit (1 / 10 ^ 6)) : K) =
      500000 := by
    norm_num
  have llrs : ∀ k, symbolLlrs (symLikelihoods syms amplitudes (FloatArith.lit (1 / 10 ^ 6)) k) =
      (noiselessLlr (word (evenBit k)), noiselessLlr (word (oddBit k))) := by
    intro k
    apply symbolLlrs_noiseless (bits _) (bits _) (sent k) <;>
      simp only [symLikelihoods, calcLikelihood, scale, mean, unit, Matrix.cons_val] <;>
      norm_num <;> ring
  have signs : ∀ bit : UInt8, bit = 0 ∨ bit = 1 →
      (bit = 0 ∧ (0 : K) < noiselessLlr bit) ∨ (bit = 1 ∧ (noiselessLlr bit : K) < 0) := by
    rintro bit (rfl | rfl)
    · exact .inl ⟨rfl, by norm_num [noiselessLlr_zero]⟩
    · exact .inr ⟨rfl, by norm_num [noiselessLlr_one]⟩
  intro bit
  simp only [ldpcLinearLogMap, llrs]
  rcases evenBit_or_oddBit bit with ⟨even, same⟩ | ⟨odd, same⟩
  · rw [if_pos even, ← same]
    exact signs _ (bits bit)
  · rw [if_neg (by omega), ← same]
    exact signs _ (bits bit)

/-- The sent buffer holds the symbols of the interleaved block, then filler symbols (1, 0). -/
structure SentBlock (word : Bytes 112) (symSize : Nat) (syms : Nat → K) : Prop where
  block : ∃ old : Fin 56 → RadeComp K, ∀ k,
    deinterleaveComp syms k = qpskSymbol (word (evenBit k)) (word (oddBit k)) (old k)
  filler : ∀ index, 56 ≤ index → index < symSize →
    syms (2 * index) = 1 ∧ syms (2 * index + 1) = 0

omit [IsStrictOrderedRing K] in
theorem radeTextGenerateTxString_sentBlock (tx : RadeTextImpl K) (str : List UInt8)
    (strlength : Nat) (syms : Nat → K) (symSize : Nat) :
    SentBlock (ldpcEncode (packBits (rawText str strlength))) symSize
      (radeTextGenerateTxString tx str strlength syms (2 * symSize)).2 := by
  constructor
  · refine ⟨fun k => ⟨syms (2 * (interleavedIndex k).val),
      syms (2 * (interleavedIndex k).val + 1)⟩, fun k => ?_⟩
    have even : 2 * (interleavedIndex k).val < 112 := by omega
    have odd : 2 * (interleavedIndex k).val + 1 < 112 := by omega
    have half : (2 * (interleavedIndex k).val + 1) / 2 = (interleavedIndex k).val := by omega
    obtain ⟨evenSent, oddSent⟩ := interleaveBits_spec (fun _ => 0)
      (ldpcEncode (packBits (rawText str strlength))) k
    rw [← evenSent, ← oddSent]
    simp only [deinterleaveComp, radeTextGenerateTxString, blockBits_eq, even, odd, dif_pos,
      Nat.mul_mod_right, if_pos, Nat.mul_add_mod_self_left, half,
      Nat.mul_div_cancel_left _ (by decide : 0 < 2)]
    rfl
  · intro index beyond inside
    have even : ¬ 2 * index < 112 := by omega
    have odd : ¬ 2 * index + 1 < 112 := by omega
    have evenInside : 2 * index < 2 * symSize := by omega
    have oddInside : 2 * index + 1 < 2 * symSize := by omega
    simp [radeTextGenerateTxString, even, odd, evenInside, oddInside]

theorem eooStep_filler (libm : Libm K) (sqrtOne : libm.sqrt 1 = 1) {word : Bytes 112}
    {symSize : Nat} {syms : Nat → K} (sent : SentBlock word symSize syms) (enableStats : Bool)
    {stats : EooStats K} (quiet : stats.ss = 0) {index : Nat} (inside : index < symSize) :
    (eooStep libm enableStats syms stats index).ss = 0 := by
  unfold eooStep
  split
  · exact quiet
  · next beyond =>
    obtain ⟨real, imag⟩ := sent.filler index (by omega) inside
    have amp : libm.sqrt (syms (2 * index) * syms (2 * index) +
        syms (2 * index + 1) * syms (2 * index + 1)) = 1 := by
      rw [real, imag, mul_one, mul_zero, add_zero, sqrtOne]
    simp only [amp]
    cases enableStats <;> simp [real, imag, quiet]

theorem noise_estimate_zero (libm : Libm K) (sqrtOne : libm.sqrt 1 = 1) {word : Bytes 112}
    {symSize : Nat} {syms : Nat → K} (sent : SentBlock word symSize syms) (enableStats : Bool) :
    ((List.range symSize).foldl (eooStep libm enableStats syms)
      ⟨FloatArith.lit 0, 0, 0, 0⟩).ss = 0 := by
  refine Lib.foldl_invariant (eooStep libm enableStats syms) (fun _ stats => stats.ss = 0)
    (List.range symSize) ⟨FloatArith.lit 0, 0, 0, 0⟩ (by simp) ?_
  intro visited index rest stats split quiet
  have member : index ∈ List.range symSize := by
    rw [split]
    simp
  exact eooStep_filler libm sqrtOne sent enableStats quiet (List.mem_range.mp member)

omit [IsStrictOrderedRing K] in
theorem qpskSymbol_amplitude (libm : Libm K) (sqrtOne : libm.sqrt 1 = 1) {first second : UInt8}
    (firstBit : first = 0 ∨ first = 1) (secondBit : second = 0 ∨ second = 1)
    (old : RadeComp K) :
    libm.sqrt ((qpskSymbol first second old).real * (qpskSymbol first second old).real +
      (qpskSymbol first second old).imag * (qpskSymbol first second old).imag) = 1 := by
  obtain ⟨s00, s01, s10, s11⟩ := qpskSymbol_bits old
  rcases firstBit with rfl | rfl <;> rcases secondBit with rfl | rfl <;>
    simp [s00, s01, s10, s11, sqrtOne]

/-- A block received as sent converges to the word it was made from. -/
theorem radeTextLdpcDecode_noiseless (libm : Libm K) {obj : RadeTextImpl K} {word : Bytes 112}
    (bits : IsBits word) (accepted : syndromeOk word = true) (old : Fin 56 → RadeComp K)
    (sent : ∀ k, obj.inboundPendingSyms k =
      qpskSymbol (word (evenBit k)) (word (oddBit k)) (old k))
    (unit : ∀ k, obj.inboundPendingAmps k = 1) :
    radeTextLdpcDecode libm obj 0 = some (unpackBits word) := by
  have tiny : (0 : K) < ((1 / 10 ^ 6 : ℚ) : K) := by norm_num
  have floor : ¬ ((1 / 10 ^ 6 : ℚ) : K) < ((1 / 10 ^ 10 : ℚ) : K) := by norm_num
  have spells := ldpcLinearLogMap_noiseless bits unit old sent
  have decoded : ldpcDecode libm.phi obj.inboundPendingSyms obj.inboundPendingAmps
      (FloatArith.lit (1 / 10 ^ 6)) 30 = ⟨word, true, 1⟩ := by
    simp only [ldpcDecode, exactArith_lt, exactArith_lit, floor, if_false]
    exact decodeLoop_of_spells libm.phi spells accepted 29 _
  simp only [radeTextLdpcDecode, exactArith_lt, exactArith_lit, tiny, if_true]
  rw [← exactArith_lit, decoded]
  rfl

/-- Before decoding a sent block, the symbols are those of the block, with amplitude one and
no noise. -/
theorem prepareDecode_of_sentBlock (libm : Libm K) (sqrtOne : libm.sqrt 1 = 1)
    (rx : RadeTextImpl K) {word : Bytes 112} (bits : IsBits word) {symSize : Nat}
    {syms : Nat → K} (sent : SentBlock word symSize syms) :
    (∃ old : Fin 56 → RadeComp K, ∀ k,
      (prepareDecode libm rx syms symSize).1.inboundPendingSyms k =
        qpskSymbol (word (evenBit k)) (word (oddBit k)) (old k)) ∧
    (∀ k, (prepareDecode libm rx syms symSize).1.inboundPendingAmps k = 1) ∧
    (prepareDecode libm rx syms symSize).2 = 0 := by
  obtain ⟨old, block⟩ := sent.block
  have amp : ∀ k, (prepareDecode libm rx syms symSize).1.inboundPendingAmps k = 1 := by
    intro k
    have unit := qpskSymbol_amplitude libm sqrtOne (bits (evenBit k)) (bits (oddBit k)) (old k)
    rw [← block k] at unit
    exact unit
  refine ⟨⟨old, fun k => ?_⟩, amp, ?_⟩
  · have normalized : (prepareDecode libm rx syms symSize).1.inboundPendingSyms k =
        ⟨(deinterleaveComp syms k).real /
            (prepareDecode libm rx syms symSize).1.inboundPendingAmps k,
          (deinterleaveComp syms k).imag /
            (prepareDecode libm rx syms symSize).1.inboundPendingAmps k⟩ := rfl
    rw [normalized, amp, div_one, div_one, block]
  · have quiet := noise_estimate_zero libm sqrtOne sent rx.enableStats
    simp only [prepareDecode, quiet, zero_div]

/-- A receiver that is given a sent block delivers the buffer the block was made from. -/
theorem radeTextRx_of_sentBlock (libm : Libm K) (sqrtOne : libm.sqrt 1 = 1)
    {rx : RadeTextImpl K} {word : Bytes 112} (bits : IsBits word)
    (accepted : syndromeOk word = true) {symSize : Nat} {syms : Nat → K}
    (sent : SentBlock word symSize syms) :
    (radeTextRx libm rx syms symSize).2 = deliverText rx.textRxCallback (unpackBits word) := by
  obtain ⟨⟨old, block⟩, amp, quiet⟩ := prepareDecode_of_sentBlock libm sqrtOne rx bits sent
  have decoded := radeTextLdpcDecode_noiseless libm bits accepted old block amp
  rw [← quiet] at decoded
  rw [radeTextRx_calls, decoded, Option.elim_some]

end Exact

section RoundTrip

attribute [local instance] exactArith

/-- Noiseless round trip, with floats read as exact reals and any `phi`: a receiver with a
registered callback that is given an unmodified transmission of any string calls back exactly
once, with the sendable characters of the first `min strlength 8` in upper case and their
number. -/
theorem radeTextRx_of_radeTextGenerateTxString (phi : ℝ → ℝ) (tx rx : RadeTextImpl ℝ)
    (registered : rx.textRxCallback = true) (str : List UInt8) (strlength symSize : Nat)
    (_enough : 56 ≤ symSize) (syms : Nat → ℝ) :
    (radeTextRx ⟨Real.sqrt, phi⟩ rx
        (radeTextGenerateTxString tx str strlength syms (2 * symSize)).2 symSize).2 =
      [⟨expectedText str strlength, (expectedText str strlength).length⟩] := by
  have bits := ldpcEncode_isBits (packBits_isBits (rawText str strlength))
  have accepted := (syndromeOk_iff_parityChain bits).mpr (ldpcEncode_spec _).2
  rw [radeTextRx_of_sentBlock ⟨Real.sqrt, phi⟩ Real.sqrt_one bits accepted
    (radeTextGenerateTxString_sentBlock tx str strlength syms symSize), registered,
    unpackBits_sent, deliverText_rawText]

/-- The round trip of the callsign `k6aq`, in a buffer without filler symbols. -/
theorem radeTextRx_of_k6aq :
    (radeTextSetRxCallback (radeTextCreate : RadeTextImpl ℝ)).textRxCallback = true ∧ 56 ≤ 56 ∧
      (radeTextRx ⟨Real.sqrt, fun x => x⟩ (radeTextSetRxCallback (radeTextCreate : RadeTextImpl ℝ))
        (radeTextGenerateTxString radeTextCreate [107, 54, 97, 113] 4 (fun _ => 0)
          (2 * 56)).2 56).2 = [⟨[75, 54, 65, 81], 4⟩] :=
  ⟨rfl, le_rfl, radeTextRx_of_radeTextGenerateTxString (fun x => x) radeTextCreate
    (radeTextSetRxCallback radeTextCreate) rfl [107, 54, 97, 113] 4 56 le_rfl (fun _ => 0)⟩

end RoundTrip

end FreeDV.Pipeline
