import FreeDV.Pipeline.RadeTextProperties

/-!
# The CRC of a text

The shift register is linear over exclusive or, and none of its steps loses
anything. So the difference of two CRCs is the register run over the difference of
the inputs, and a difference within eight consecutive bits is always seen.
-/

set_option autoImplicit false

namespace FreeDV.Pipeline

/-! ## The shift register -/

theorem xor_xor_xor_comm (a b c d : UInt8) : a ^^^ b ^^^ (c ^^^ d) = a ^^^ c ^^^ (b ^^^ d) := by
  rw [UInt8.xor_assoc, ← UInt8.xor_assoc b, UInt8.xor_comm b c, UInt8.xor_assoc c,
    ← UInt8.xor_assoc a]

theorem hasBit_xor (a b : UInt8) (index : Nat) :
    hasBit (a ^^^ b) index = (hasBit a index ^^ hasBit b index) := by
  rw [hasBit, UInt8.toNat_xor, Nat.testBit_xor]
  rfl

/-- A shift, and what is added for the bit that is shifted out. -/
theorem crcShift_eq (crc : UInt8) :
    crcShift crc = (crc <<< 1) ^^^ (if hasBit crc 7 then 0x1D else 0) := by
  revert crc
  decide +kernel

theorem crcShift_xor (a b : UInt8) : crcShift (a ^^^ b) = crcShift a ^^^ crcShift b := by
  have feedback : (if hasBit a 7 ^^ hasBit b 7 then (0x1D : UInt8) else 0) =
      (if hasBit a 7 then 0x1D else 0) ^^^ (if hasBit b 7 then 0x1D else 0) := by
    cases hasBit a 7 <;> cases hasBit b 7 <;> rfl
  rw [crcShift_eq, crcShift_eq, crcShift_eq, hasBit_xor, feedback, UInt8.shiftLeft_xor,
    xor_xor_xor_comm]

theorem crcShift_injective : Function.Injective crcShift := by
  have kernel : ∀ crc, crcShift crc = 0 → crc = 0 := by
    decide +kernel
  intro a b same
  have difference : crcShift (a ^^^ b) = 0 := by rw [crcShift_xor, same, UInt8.xor_self]
  exact UInt8.xor_eq_zero_iff.mp (kernel _ difference)

/-- Eight shifts. -/
theorem crcShifts_xor (a b : UInt8) :
    crcShift^[8] (a ^^^ b) = crcShift^[8] a ^^^ crcShift^[8] b := by
  have shifts : ∀ n a b, crcShift^[n] (a ^^^ b) = crcShift^[n] a ^^^ crcShift^[n] b := by
    intro n
    induction n with
    | zero => exact fun _ _ => rfl
    | succ n ih =>
        intro a b
        rw [Function.iterate_succ_apply, Function.iterate_succ_apply,
          Function.iterate_succ_apply, crcShift_xor, ih]
  exact shifts 8 a b

theorem crcShifts_injective : Function.Injective crcShift^[8] := crcShift_injective.iterate 8

theorem crcByte_xor (a b x y : UInt8) :
    crcByte (a ^^^ b) (x ^^^ y) = crcByte a x ^^^ crcByte b y := by
  rw [crcByte, crcByte, crcByte, xor_xor_xor_comm, crcShifts_xor]

theorem crcByte_inj {a b ch : UInt8} : crcByte a ch = crcByte b ch ↔ a = b :=
  crcShifts_injective.eq_iff.trans (UInt8.xor_left_inj ch)

/-! ## Registers over an input -/

/-- The register over all bytes of an input. -/
def crcRegister (crc : UInt8) (input : List UInt8) : UInt8 := input.foldl crcByte crc

theorem calculateCRC8_eq {input : List UInt8} (nonzero : ∀ ch ∈ input, ch ≠ 0) :
    calculateCRC8 input input.length = crcRegister 0 input := by
  have all : input.takeWhile (· ≠ 0) = input :=
    List.takeWhile_eq_self_iff.mpr fun ch member => by simpa using nonzero ch member
  rw [calculateCRC8, crcLoop_eq, List.take_length, all, crcRegister]

theorem crcRegister_xor {a b : List UInt8} (length : a.length = b.length) (c d : UInt8) :
    crcRegister c a ^^^ crcRegister d b =
      crcRegister (c ^^^ d) (List.zipWith (· ^^^ ·) a b) := by
  induction a generalizing b c d with
  | nil =>
      rw [List.length_eq_zero_iff.mp length.symm]
      rfl
  | cons x a ih =>
      cases b with
      | nil => cases length
      | cons y b =>
          have shorter : a.length = b.length := Nat.succ.inj length
          have rest := ih shorter (crcByte c x) (crcByte d y)
          rw [← crcByte_xor] at rest
          exact rest

theorem crcRegister_inj {c d : UInt8} {input : List UInt8} :
    crcRegister c input = crcRegister d input ↔ c = d := by
  induction input generalizing c d with
  | nil => exact Iff.rfl
  | cons ch input ih => exact ih.trans crcByte_inj

/-! ## Bursts -/

/-- The bit at a position, with the most significant bit of each byte first. -/
def bitAt (input : List UInt8) (position : Nat) : Bool :=
  hasBit (input.getD (position / 8) 0) (7 - position % 8)

def DifferWithin (a b : List UInt8) (start : Nat) : Prop :=
  ∀ position, bitAt a position ≠ bitAt b position → start ≤ position ∧ position < start + 8

theorem bitAt_cons_of_lt (ch : UInt8) (input : List UInt8) {position : Nat} (first : position < 8) :
    bitAt (ch :: input) position = hasBit ch (7 - position) := by
  rw [bitAt, Nat.div_eq_of_lt first, Nat.mod_eq_of_lt first, List.getD_cons_zero]

theorem bitAt_cons_add (ch : UInt8) (input : List UInt8) (position : Nat) :
    bitAt (ch :: input) (position + 8) = bitAt input position := by
  rw [bitAt, Nat.add_div_right _ (by decide), Nat.add_mod_right, List.getD_cons_succ, bitAt]

theorem eq_of_hasBit {a b : UInt8} (same : ∀ index < 8, hasBit a index = hasBit b index) :
    a = b := by
  apply UInt8.toNat_inj.mp
  apply Nat.eq_of_testBit_eq
  intro index
  rcases Nat.lt_or_ge index 8 with small | large
  · exact same index small
  · have beyond : 2 ^ 8 ≤ 2 ^ index := Nat.pow_le_pow_right (by decide) large
    rw [Nat.testBit_lt_two_pow (Nat.lt_of_lt_of_le a.toNat_lt beyond),
      Nat.testBit_lt_two_pow (Nat.lt_of_lt_of_le b.toNat_lt beyond)]

theorem eq_of_bitAt_cons {x y : UInt8} {a b : List UInt8}
    (same : ∀ position < 8, bitAt (x :: a) position = bitAt (y :: b) position) : x = y := by
  apply eq_of_hasBit
  intro index small
  have read := same (7 - index) (by omega)
  rw [bitAt_cons_of_lt x a (by omega), bitAt_cons_of_lt y b (by omega)] at read
  have back : 7 - (7 - index) = index := by omega
  rwa [back] at read

theorem eq_of_bitAt {a b : List UInt8} (length : a.length = b.length)
    (same : ∀ position, bitAt a position = bitAt b position) : a = b := by
  induction a generalizing b with
  | nil => exact (List.length_eq_zero_iff.mp length.symm).symm
  | cons x a ih =>
      cases b with
      | nil => cases length
      | cons y b =>
          have rest : a = b := ih (Nat.succ.inj length) fun position => by
            have later := same (position + 8)
            rwa [bitAt_cons_add, bitAt_cons_add] at later
          rw [eq_of_bitAt_cons fun position _ => same position, rest]

/-- Eight shifts bring the low bits of a burst above those of the next byte. -/
theorem eq_zero_of_window (offset : Fin 8) (low : UInt8)
    (before : ∀ index : Fin 8, hasBit low index.val → index.val + offset.val < 8)
    (behind : ∀ index : Fin 8, hasBit (crcShift^[8] low) index.val → 8 ≤ index.val + offset.val) :
    low = 0 := by
  revert offset low
  decide +kernel

/-- Two bytes with a burst across them lead to different registers. -/
theorem crcByte_burst {x y x' y' crc : UInt8} (offset : Fin 8)
    (before : ∀ index < 8, hasBit x index ≠ hasBit y index → index + offset.val < 8)
    (behind : ∀ index < 8, hasBit x' index ≠ hasBit y' index → 8 ≤ index + offset.val)
    (same : crcByte (crcByte crc x) x' = crcByte (crcByte crc y) y') : x = y ∧ x' = y' := by
  have registers : crcByte crc x ^^^ x' = crcByte crc y ^^^ y' := crcShifts_injective same
  have difference : crcShift^[8] (x ^^^ y) = x' ^^^ y' := by
    have bytes : crcByte crc x ^^^ crcByte crc y = crcShift^[8] (x ^^^ y) := by
      rw [← crcByte_xor, UInt8.xor_self, crcByte, UInt8.zero_xor]
    rw [← bytes, ← UInt8.xor_eq_zero_iff, xor_xor_xor_comm, registers, UInt8.xor_self]
  have low : x ^^^ y = 0 := by
    apply eq_zero_of_window offset
    · intro index set
      rw [hasBit_xor] at set
      exact before index.val index.isLt (by simpa using set)
    · intro index set
      rw [difference, hasBit_xor] at set
      exact behind index.val index.isLt (by simpa using set)
  rw [low] at difference
  exact ⟨UInt8.xor_eq_zero_iff.mp low, UInt8.xor_eq_zero_iff.mp difference.symm⟩

theorem DifferWithin.bit_cons {x y : UInt8} {a b : List UInt8} {start index : Nat}
    (within : DifferWithin (x :: a) (y :: b) start) (small : index < 8)
    (different : hasBit x index ≠ hasBit y index) : start ≤ 7 - index ∧ 7 - index < start + 8 := by
  apply within (7 - index)
  have back : 7 - (7 - index) = index := by omega
  rwa [bitAt_cons_of_lt x a (by omega), bitAt_cons_of_lt y b (by omega), back]

theorem DifferWithin.bit_second {x y x' y' : UInt8} {a b : List UInt8} {start index : Nat}
    (within : DifferWithin (x :: x' :: a) (y :: y' :: b) start) (small : index < 8)
    (different : hasBit x' index ≠ hasBit y' index) : 15 - index < start + 8 := by
  have read := within (7 - index + 8)
  have back : 7 - (7 - index) = index := by omega
  rw [bitAt_cons_add, bitAt_cons_add, bitAt_cons_of_lt x' a (by omega),
    bitAt_cons_of_lt y' b (by omega), back] at read
  have bound := (read different).2
  omega

/-- A burst that begins in the first byte ends in the second. -/
theorem crcRegister_ne_of_burst_head {x y crc : UInt8} {a b : List UInt8} {start : Nat}
    (first : start < 8) (length : a.length = b.length) (different : x :: a ≠ y :: b)
    (within : DifferWithin (x :: a) (y :: b) start) :
    crcRegister crc (x :: a) ≠ crcRegister crc (y :: b) := by
  intro same
  have before : ∀ index < 8, hasBit x index ≠ hasBit y index → index + start < 8 := by
    intro index small unequal
    have bound := (within.bit_cons small unequal).1
    omega
  cases a with
  | nil =>
      rw [List.length_eq_zero_iff.mp length.symm] at same different
      have registers : crc ^^^ x = crc ^^^ y := crcShifts_injective same
      exact different (congrArg (· :: []) ((UInt8.xor_right_inj crc).mp registers))
  | cons x' a =>
      cases b with
      | nil => cases length
      | cons y' b =>
          have rest : a = b := eq_of_bitAt (Nat.succ.inj length) fun position => by
            by_contra unequal
            have bound := (within (position + 8 + 8) (by
              rwa [bitAt_cons_add, bitAt_cons_add, bitAt_cons_add, bitAt_cons_add])).2
            omega
          subst rest
          have behind : ∀ index < 8, hasBit x' index ≠ hasBit y' index → 8 ≤ index + start := by
            intro index small unequal
            have bound := within.bit_second small unequal
            omega
          have registers : crcRegister (crcByte (crcByte crc x) x') a =
              crcRegister (crcByte (crcByte crc y) y') a := same
          obtain ⟨rfl, rfl⟩ :=
            crcByte_burst ⟨start, first⟩ before behind (crcRegister_inj.mp registers)
          exact different rfl

/-- Inputs that differ in a burst lead to different registers, from any register on. -/
theorem crcRegister_ne_of_burst {a b : List UInt8} {start : Nat} (length : a.length = b.length)
    (different : a ≠ b) (within : DifferWithin a b start) (crc : UInt8) :
    crcRegister crc a ≠ crcRegister crc b := by
  induction a generalizing b start crc with
  | nil => exact absurd (List.length_eq_zero_iff.mp length.symm).symm different
  | cons x a ih =>
      cases b with
      | nil => cases length
      | cons y b =>
          have shorter : a.length = b.length := Nat.succ.inj length
          rcases Nat.lt_or_ge start 8 with first | later
          · exact crcRegister_ne_of_burst_head first shorter different within
          · -- the first bytes agree
            have same : x = y := by
              apply eq_of_bitAt_cons (a := a) (b := b)
              intro position small
              by_contra unequal
              have bound := (within position unequal).1
              omega
            subst same
            have rest : DifferWithin a b (start - 8) := by
              intro position unequal
              have bound := within (position + 8) (by rwa [bitAt_cons_add, bitAt_cons_add])
              omega
            exact ih shorter (fun same => different (congrArg _ same)) rest (crcByte crc x)

/-- A difference in one character only is a burst. -/
theorem differWithin_of_one {a b : List UInt8} {index : Nat}
    (same : ∀ other : Nat, other ≠ index → a[other]? = b[other]?) :
    DifferWithin a b (8 * index) := by
  intro position unequal
  have here : position / 8 = index := by
    by_contra elsewhere
    apply unequal
    rw [bitAt, bitAt, List.getD_eq_getElem?_getD, List.getD_eq_getElem?_getD,
      same _ elsewhere]
  omega

/-- The CRC is linear, and it tells inputs of the same length apart if they differ within eight
consecutive bits, so in one character. -/
theorem calculateCRC8_difference {a b : List UInt8} (length : a.length = b.length)
    (first : ∀ ch ∈ a, ch ≠ 0) (second : ∀ ch ∈ b, ch ≠ 0) :
    calculateCRC8 a a.length ^^^ calculateCRC8 b b.length =
        crcRegister 0 (List.zipWith (· ^^^ ·) a b) ∧
      (a ≠ b → (∃ start, DifferWithin a b start) →
        calculateCRC8 a a.length ≠ calculateCRC8 b b.length) ∧
      (a ≠ b → (∃ index, ∀ other : Nat, other ≠ index → a[other]? = b[other]?) →
        calculateCRC8 a a.length ≠ calculateCRC8 b b.length) := by
  rw [calculateCRC8_eq first, calculateCRC8_eq second]
  refine ⟨crcRegister_xor length 0 0, ?_, ?_⟩
  · rintro different ⟨start, within⟩
    exact crcRegister_ne_of_burst length different within 0
  · rintro different ⟨index, same⟩
    exact crcRegister_ne_of_burst length different (differWithin_of_one same) 0

theorem bitAt_of_length_le {input : List UInt8} {position : Nat}
    (beyond : 8 * input.length ≤ position) : bitAt input position = false := by
  rw [bitAt, List.getD_eq_getElem?_getD, List.getElem?_eq_none (by omega), hasBit]
  exact Nat.zero_testBit _

/-- The codes of `K6AQ`, and a burst of eight bits across the second and the third. -/
theorem calculateCRC8_difference_of_k6aq :
    calculateCRC8 [30, 16, 20, 36] 4 ≠ calculateCRC8 [30, 25, 132, 36] 4 := by
  have within : DifferWithin [30, 16, 20, 36] [30, 25, 132, 36] 12 := by
    have inside : ∀ position : Fin 32, bitAt [30, 16, 20, 36] position.val ≠
        bitAt [30, 25, 132, 36] position.val → 12 ≤ position.val ∧ position.val < 20 := by
      decide +kernel
    intro position unequal
    rcases Nat.lt_or_ge position 32 with small | beyond
    · exact inside ⟨position, small⟩ unequal
    · exact absurd ((bitAt_of_length_le beyond).trans (bitAt_of_length_le beyond).symm) unequal
  have different : [30, 16, 20, 36] ≠ ([30, 25, 132, 36] : List UInt8) := by
    decide +kernel
  have length : ([30, 16, 20, 36] : List UInt8).length = [30, 25, 132, 36].length := rfl
  exact (calculateCRC8_difference length (by decide +kernel) (by decide +kernel)).2.1 different
    ⟨12, within⟩

end FreeDV.Pipeline
