import FreeDV.Pipeline.RadeTextCrc

/-!
# Single wrong bits in a received text

The CRC covers the codes before the first null code. A wrong bit that leaves their
number as it is cannot go unnoticed and change the text. One that ends the codes
early, or goes on behind their end, is only noticed if the CRC changes.
-/

set_option autoImplicit false

namespace FreeDV.Pipeline

/-! ## Unpacking -/

def flipBit (message : Bytes 112) (bit : Fin 56) : Bytes 112 :=
  Function.update message (infoColumn bit) (if message (infoColumn bit) = 0 then 1 else 0)

theorem hasBit_shift {bit index : Nat} (small : bit < 8) (bound : index < 8) :
    hasBit (1 <<< UInt8.ofNat bit) index = decide (bit = index) := by
  have all : ∀ bit index : Fin 8,
      hasBit (1 <<< UInt8.ofNat bit.val) index.val = decide (bit.val = index.val) := by
    decide
  exact all ⟨bit, small⟩ ⟨index, bound⟩

theorem hasBit_or (a b : UInt8) (index : Nat) :
    hasBit (a ||| b) index = (hasBit a index || hasBit b index) := by
  rw [hasBit, UInt8.toNat_or, Nat.testBit_or]
  rfl

theorem destBit_lt (bit : Fin 56) : destBit bit < 8 := by
  revert bit
  decide

theorem hasBit_collect (message : Fin 56 → UInt8) (bits : List (Fin 56)) (byte : UInt8)
    {index : Nat} (bound : index < 8) :
    hasBit (bits.foldl (fun byte bit =>
        if message bit ≠ 0 then byte ||| (1 <<< UInt8.ofNat (destBit bit)) else byte) byte) index =
      (hasBit byte index || bits.any fun bit => message bit ≠ 0 ∧ destBit bit = index) := by
  induction bits generalizing byte with
  | nil => simp
  | cons bit bits ih =>
      rw [List.foldl_cons, ih, List.any_cons]
      by_cases set : message bit ≠ 0
      · rw [if_pos set, hasBit_or, hasBit_shift (destBit_lt bit) bound]
        simp [set, Bool.or_assoc]
      · rw [if_neg set]
        simp [set]

theorem hasBit_unpackBits (message : Bytes 112) (slot : Fin 10) {index : Nat}
    (bound : index < 8) :
    hasBit (unpackBits message slot) index = true ↔
      ∃ bit, destSlot bit = slot ∧ message (infoColumn bit) ≠ 0 ∧ destBit bit = index := by
  simp only [unpackBits, orBit_eq_update]
  rw [Lib.foldl_update_apply destSlot (fun byte bit =>
    if message (infoColumn bit) ≠ 0 then byte ||| (1 <<< UInt8.ofNat (destBit bit)) else byte),
    hasBit_collect (fun bit => message (infoColumn bit)) _ _ bound]
  have empty : hasBit 0 index = false := Nat.zero_testBit index
  simp [empty]

theorem destSlot_destBit_injective {left right : Fin 56} (slot : destSlot left = destSlot right)
    (bit : destBit left = destBit right) : left = right := by
  revert left right
  decide +kernel

theorem hasBit_own (message : Bytes 112) (bit : Fin 56) :
    hasBit (unpackBits message (destSlot bit)) (destBit bit) = true ↔
      message (infoColumn bit) ≠ 0 := by
  rw [hasBit_unpackBits message _ (destBit_lt bit)]
  constructor
  · rintro ⟨other, slot, set, index⟩
    exact destSlot_destBit_injective slot index ▸ set
  · exact fun set => ⟨bit, rfl, set, rfl⟩

/-- A wrong bit of the message is one of the bytes it is unpacked to. -/
theorem unpackBits_flipBit (message : Bytes 112) (bit : Fin 56) :
    unpackBits (flipBit message bit) =
      Function.update (unpackBits message) (destSlot bit)
        (unpackBits message (destSlot bit) ^^^ (1 <<< UInt8.ofNat (destBit bit))) := by
  have others : ∀ other, other ≠ bit →
      flipBit message bit (infoColumn other) = message (infoColumn other) := fun other different =>
    Function.update_of_ne (fun same => different (Fin.castAdd_injective 56 56 same)) _ _
  funext slot
  apply eq_of_hasBit
  intro index bound
  by_cases here : destSlot bit = slot ∧ destBit bit = index
  · obtain ⟨rfl, rfl⟩ := here
    rw [Function.update_self, hasBit_xor, hasBit_shift (destBit_lt bit) bound, Bool.eq_iff_iff,
      hasBit_own, flipBit, Function.update_self]
    have before := hasBit_own message bit
    by_cases clear : message (infoColumn bit) = 0 <;> simp_all
  · have elsewhere : hasBit (unpackBits (flipBit message bit) slot) index =
        hasBit (unpackBits message slot) index := by
      rw [Bool.eq_iff_iff, hasBit_unpackBits _ _ bound, hasBit_unpackBits _ _ bound]
      refine exists_congr fun other => and_congr_right fun same => and_congr_left fun place => ?_
      rw [others other fun equal => here (equal ▸ ⟨same, place⟩)]
    rw [elsewhere]
    by_cases same : slot = destSlot bit
    · subst same
      have apart : destBit bit ≠ index := fun place => here ⟨rfl, place⟩
      rw [Function.update_self, hasBit_xor, hasBit_shift (destBit_lt bit) bound,
        decide_eq_false apart, Bool.xor_false]
    · rw [Function.update_of_ne same]

/-! ## Codes before the first null -/

/-- The codes that are checked and converted. -/
def receivedCodes (raw : Bytes 10) : List UInt8 := ((textOf raw).take 8).takeWhile (· ≠ 0)

theorem calculateCRC8_textOf (raw : Bytes 10) :
    calculateCRC8 (textOf raw) 8 = crcRegister 0 (receivedCodes raw) := by
  rw [calculateCRC8, crcLoop_eq, crcRegister, receivedCodes]

theorem deliverText_eq (raw : Bytes 10) :
    deliverText true raw =
      if raw 0 = crcRegister 0 (receivedCodes raw) then
        [⟨(receivedCodes raw).filterMap callsignChar,
          strlen ((receivedCodes raw).filterMap callsignChar)⟩]
      else [] := by
  have text : convertOtaStringToCallsign (textOf raw) 8 =
      (receivedCodes raw).filterMap callsignChar := by
    rw [convertOtaStringToCallsign, convertString_eq, receivedCodes]
  simp only [deliverText, calculateCRC8_textOf, text]
  by_cases accepted : raw 0 = crcRegister 0 (receivedCodes raw) <;> simp [accepted]

/-- What becomes of the codes in front of the first null when one place changes: nothing, another
code, an end there, or no end there. -/
inductive Changed (old new : UInt8) (codes after : List UInt8) : Prop where
  | behind : after = codes → Changed old new codes after
  | replaced (front back : List UInt8) : codes = front ++ old :: back →
      after = front ++ new :: back → Changed old new codes after
  | ended (front back : List UInt8) : new = 0 → codes = front ++ old :: back → after = front →
      Changed old new codes after
  | extended (front back : List UInt8) : old = 0 → codes = front → after = front ++ new :: back →
      Changed old new codes after

theorem changed_takeWhile {input : List UInt8} {place : Nat} {old : UInt8} (new : UInt8)
    (found : input[place]? = some old) :
    Changed old new (input.takeWhile (· ≠ 0)) ((input.set place new).takeWhile (· ≠ 0)) := by
  induction input generalizing place with
  | nil => cases found
  | cons ch rest ih =>
      cases place with
      | zero =>
          cases found
          rw [List.set_cons_zero, List.takeWhile_cons, List.takeWhile_cons]
          by_cases first : old = 0 <;> by_cases second : new = 0
          · exact .behind (by simp [first, second])
          · exact .extended [] (rest.takeWhile (· ≠ 0)) first (by simp [first]) (by simp [second])
          · exact .ended [] (rest.takeWhile (· ≠ 0)) second (by simp [first]) (by simp [second])
          · exact .replaced [] (rest.takeWhile (· ≠ 0)) (by simp [first]) (by simp [second])
      | succ place =>
          rw [List.set_cons_succ, List.takeWhile_cons, List.takeWhile_cons]
          by_cases first : ch = 0
          · exact .behind (by simp [first])
          · rw [if_pos (by simpa using first), if_pos (by simpa using first)]
            cases ih found with
            | behind same => exact .behind (congrArg _ same)
            | replaced front back before after =>
                exact .replaced (ch :: front) back (congrArg _ before) (congrArg _ after)
            | ended front back null before after =>
                exact .ended (ch :: front) back null (congrArg _ before) (congrArg _ after)
            | extended front back null before after =>
                exact .extended (ch :: front) back null (congrArg _ before) (congrArg _ after)

/-! ## Flips -/

/-- Whether a wrong bit changes how many codes are checked, and the CRC does not show it. -/
def Missed (raw flipped : Bytes 10) : Prop :=
  (receivedCodes flipped).length ≠ (receivedCodes raw).length ∧
    calculateCRC8 (textOf flipped) 8 = calculateCRC8 (textOf raw) 8

theorem crcRegister_replace {old new : UInt8} (different : old ≠ new) (front back : List UInt8) :
    crcRegister 0 (front ++ old :: back) ≠ crcRegister 0 (front ++ new :: back) := by
  intro same
  have registers : crcRegister (crcByte (crcRegister 0 front) old) back =
      crcRegister (crcByte (crcRegister 0 front) new) back := by
    simpa [crcRegister] using same
  have bytes := crcShifts_injective (crcRegister_inj.mp registers)
  exact different ((UInt8.xor_right_inj _).mp bytes)

/-- A code of one bit has a character. -/
theorem callsignChar_oneBit {code : UInt8} {bit : Nat} (small : bit < 6)
    (one : code = 1 <<< UInt8.ofNat bit) : ∃ ch, callsignChar code = some ch := by
  have all : ∀ bit : Fin 6, (callsignChar (1 <<< UInt8.ofNat bit.val)).isSome = true := by
    decide
  rw [one]
  exact Option.isSome_iff_exists.mp (all ⟨bit, small⟩)

theorem filterMap_ne {code ch : UInt8} (shown : callsignChar code = some ch)
    (front back : List UInt8) :
    (front ++ code :: back).filterMap callsignChar ≠ front.filterMap callsignChar := by
  intro same
  have lengths := congrArg List.length same
  rw [List.filterMap_append, List.filterMap_cons_some shown, List.length_append,
    List.length_cons] at lengths
  omega

theorem getElem?_textOf (raw : Bytes 10) (place : Fin 9) :
    (textOf raw)[place.val]? = some (raw place.succ) := by
  simp [textOf]

theorem textOf_update (raw : Bytes 10) (place : Fin 9) (value : UInt8) :
    textOf (Function.update raw place.succ value) = (textOf raw).set place.val value := by
  have length : ∀ raw : Bytes 10, (textOf raw).length = 9 := fun raw => by simp [textOf]
  apply List.ext_getElem?
  intro index
  rcases Nat.lt_or_ge index 9 with inside | beyond
  · let here : Fin 9 := ⟨index, inside⟩
    rw [List.getElem?_set, getElem?_textOf _ here, getElem?_textOf _ here]
    by_cases same : place = here
    · subst same
      rw [Function.update_self, if_pos rfl, if_pos ((length raw).symm ▸ inside)]
    · rw [Function.update_of_ne fun equal => same (Fin.succ_inj.mp equal).symm,
        if_neg fun equal => same (Fin.ext equal)]
  · rw [List.getElem?_eq_none ((length _).symm ▸ beyond),
      List.getElem?_eq_none (by rw [List.length_set, length]; exact beyond)]

theorem receivedCodes_crcBit (raw : Bytes 10) (value : UInt8) :
    receivedCodes (Function.update raw 0 value) = receivedCodes raw := by
  have same : textOf (Function.update raw 0 value) = textOf raw :=
    List.map_congr_left fun k _ => Function.update_of_ne (Fin.succ_ne_zero k) _ _
  rw [receivedCodes, same, receivedCodes]

theorem changed_receivedCodes (raw : Bytes 10) {place : Fin 9} (inside : place.val < 8)
    (value : UInt8) :
    Changed (raw place.succ) value (receivedCodes raw)
      (receivedCodes (Function.update raw place.succ value)) := by
  rw [receivedCodes, receivedCodes, textOf_update, List.take_set]
  apply changed_takeWhile
  rw [List.getElem?_take_of_lt inside, getElem?_textOf]

/-- Where the number of codes and the text have changed, the flip is missed if the CRC is right. -/
theorem deliverText_of_lengths {raw flipped : Bytes 10} {t : TextRx} (crc : flipped 0 = raw 0)
    (delivered : deliverText true raw = [t])
    (lengths : (receivedCodes flipped).length ≠ (receivedCodes raw).length)
    (texts : (receivedCodes flipped).filterMap callsignChar ≠
      (receivedCodes raw).filterMap callsignChar) :
    (deliverText true flipped = [] ∨ deliverText true flipped = [t]) ↔ ¬ Missed raw flipped := by
  rw [deliverText_eq] at delivered
  split at delivered
  · rename_i accepted
    cases delivered
    rw [deliverText_eq, Missed, calculateCRC8_textOf, calculateCRC8_textOf, crc, accepted]
    by_cases same : crcRegister 0 (receivedCodes flipped) = crcRegister 0 (receivedCodes raw)
    · simp [same, lengths, texts]
    · simp [Ne.symm same, same]
  · cases delivered

/-- The byte of a bit is that of the CRC or one of eight codes, and a code has six bits. -/
theorem destSlot_cases (bit : Fin 56) :
    destSlot bit = 0 ∨
      ∃ place : Fin 9, destSlot bit = place.succ ∧ place.val < 8 ∧ destBit bit < 6 := by
  revert bit
  decide +kernel

/-- If one bit of an accepted text is wrong, then the text is rejected or the same, unless the flip
changes the number of codes and leaves the CRC as it is. -/
theorem deliverText_flipBit (message : Bytes 112) (bit : Fin 56) (t : TextRx)
    (delivered : deliverText true (unpackBits message) = [t]) :
    (deliverText true (unpackBits (flipBit message bit)) = [] ∨
        deliverText true (unpackBits (flipBit message bit)) = [t]) ↔
      ¬ Missed (unpackBits message) (unpackBits (flipBit message bit)) := by
  rw [unpackBits_flipBit]
  generalize unpackBits message = raw at delivered ⊢
  have accepted : raw 0 = crcRegister 0 (receivedCodes raw) := by
    by_contra refused
    rw [deliverText_eq, if_neg refused] at delivered
    cases delivered
  have oneBit : (1 : UInt8) <<< UInt8.ofNat (destBit bit) ≠ 0 := by
    have all : ∀ bit : Fin 8, (1 : UInt8) <<< UInt8.ofNat bit.val ≠ 0 := by
      decide
    exact all ⟨destBit bit, destBit_lt bit⟩
  have different : ∀ code : UInt8, code ≠ code ^^^ (1 <<< UInt8.ofNat (destBit bit)) :=
    fun code same => oneBit ((UInt8.xor_right_inj code).mp (same.symm.trans UInt8.xor_zero.symm))
  rcases destSlot_cases bit with crcBit | ⟨place, slot, inside, small⟩
  · -- the CRC is wrong, and the codes are right
    rw [crcBit]
    have codes := receivedCodes_crcBit raw (raw 0 ^^^ (1 <<< UInt8.ofNat (destBit bit)))
    refine iff_of_true (.inl ?_) fun missed => missed.1 (by rw [codes])
    rw [deliverText_eq, codes, Function.update_self, if_neg]
    exact fun same => different (raw 0) (accepted.trans same.symm)
  · rw [slot]
    have changed := changed_receivedCodes raw inside
      (raw place.succ ^^^ (1 <<< UInt8.ofNat (destBit bit)))
    have crc : ∀ value, Function.update raw place.succ value 0 = raw 0 := fun value =>
      Function.update_of_ne (Fin.succ_ne_zero place).symm _ _
    cases changed with
    | behind same =>
        refine iff_of_true (.inr ?_) fun missed => missed.1 (by rw [same])
        rw [deliverText_eq, same, crc, ← deliverText_eq, delivered]
    | replaced front back before after =>
        refine iff_of_true (.inl ?_) fun missed => missed.1 (by rw [before, after]; simp)
        rw [deliverText_eq, crc, accepted, after, before, if_neg]
        exact crcRegister_replace (different _) front back
    | ended front back null before after =>
        have one : raw place.succ = 1 <<< UInt8.ofNat (destBit bit) :=
          UInt8.xor_eq_zero_iff.mp null
        obtain ⟨ch, shown⟩ := callsignChar_oneBit small one
        refine deliverText_of_lengths (crc _) delivered ?_ ?_
        · rw [before, after]
          simp
        · rw [before, after]
          exact (filterMap_ne shown front back).symm
    | extended front back null before after =>
        have one : raw place.succ ^^^ (1 <<< UInt8.ofNat (destBit bit)) =
            1 <<< UInt8.ofNat (destBit bit) := by
          rw [null, UInt8.zero_xor]
        obtain ⟨ch, shown⟩ := callsignChar_oneBit small one
        refine deliverText_of_lengths (crc _) delivered ?_ ?_
        · rw [before, after]
          simp
        · rw [before, after]
          exact filterMap_ne shown front back

/-- The second bit of the first code of `K6AQ`. -/
theorem deliverText_flipBit_of_k6aq :
    let message : Bytes 112 := fun k =>
      if info : k.val < 56 then packBits (rawText [75, 54, 65, 81] 4) ⟨k.val, info⟩ else 0
    deliverText true (unpackBits message) = [⟨[75, 54, 65, 81], 4⟩] ∧
      (deliverText true (unpackBits (flipBit message 9)) = [] ∨
        deliverText true (unpackBits (flipBit message 9)) = [⟨[75, 54, 65, 81], 4⟩]) := by
  intro message
  have delivered : deliverText true (unpackBits message) = [⟨[75, 54, 65, 81], 4⟩] := by
    decide +kernel
  have seen : ¬ Missed (unpackBits message) (unpackBits (flipBit message 9)) := by
    unfold Missed
    decide +kernel
  exact ⟨delivered, (deliverText_flipBit message 9 _ delivered).mpr seen⟩

/-- The codes 1 and 29 have the CRC 0, and so has no code at all. -/
theorem deliverText_flipBit_missed :
    ¬ ∀ (message : Bytes 112) (bit : Fin 56) (t : TextRx),
      deliverText true (unpackBits message) = [t] →
        deliverText true (unpackBits (flipBit message bit)) = [] ∨
          deliverText true (unpackBits (flipBit message bit)) = [t] := by
  intro claim
  have flipped := claim (fun k => if k.val ∈ [8, 14, 16, 17, 18] then 1 else 0) 8 ⟨[38, 74], 2⟩
    (by decide +kernel)
  revert flipped
  decide +kernel

end FreeDV.Pipeline
