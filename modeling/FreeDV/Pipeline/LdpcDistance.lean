import FreeDV.Pipeline.LdpcTannerGraph
import Mathlib.InformationTheory.Hamming

/-!
# The minimum distance of the LDPC code

Where two codewords differ, every check sees an even number of bits. A bit of the
information half is in three checks and meets any other bit in one of them at most,
but for one pair, so two more bits are not enough to make all three even.
-/

set_option autoImplicit false

namespace FreeDV.Pipeline

/-- The bits in which two words differ. -/
def differences (left right : Bytes 112) : Finset (Fin 112) :=
  Finset.univ.filter fun j => left j ≠ right j

theorem card_differences (left right : Bytes 112) :
    (differences left right).card = hammingDist left right := rfl

/-- Every check has an even number of the bits. -/
def EvenChecks (bits : Finset (Fin 112)) : Prop :=
  ∀ i, Even (tannerGraph.members i ∩ bits).card

theorem sum_row_eq (i : Fin 56) (bits : Finset (Fin 112)) :
    (tannerGraph.members i ∩ bits).card =
      ∑ j : Fin 112, hra5656 i j * if j ∈ bits then 1 else 0 := by
  have both : tannerGraph.members i ∩ bits =
      Finset.univ.filter fun j => hra5656 i j ≠ 0 ∧ j ∈ bits := by
    ext j
    simp [tannerGraph]
  rw [both, Finset.card_filter]
  apply Finset.sum_congr rfl
  intro j _
  have bound := hra5656_le_one i j
  by_cases zero : hra5656 i j = 0
  · simp [zero]
  · have one : hra5656 i j = 1 := by omega
    simp [one]

theorem evenChecks_differences {left right : Bytes 112} (leftBits : IsBits left)
    (rightBits : IsBits right) (leftWord : IsCodeword left) (rightWord : IsCodeword right) :
    EvenChecks (differences left right) := by
  intro i
  have pointwise : ∀ j, hra5656 i j * (left j).toNat + hra5656 i j * (right j).toNat =
      (hra5656 i j * if j ∈ differences left right then 1 else 0) +
        2 * (hra5656 i j * ((left j).toNat * (right j).toNat)) := by
    intro j
    simp only [differences, Finset.mem_filter, Finset.mem_univ, true_and]
    rcases leftBits j with zero | one <;> rcases rightBits j with zero' | one'
    · simp [zero, zero']
    · simp [zero, one']
    · simp [one, zero']
    · simp [one, one']
      omega
  have sums := Finset.sum_congr rfl fun j (_ : j ∈ (Finset.univ : Finset (Fin 112))) => pointwise j
  rw [Finset.sum_add_distrib, Finset.sum_add_distrib, ← Finset.mul_sum] at sums
  have first := leftWord i
  have second := rightWord i
  rw [sum_row_eq, even_iff_two_dvd]
  omega

/-- Another bit in the same check. -/
theorem EvenChecks.second {bits : Finset (Fin 112)} (even : EvenChecks bits) {u : Fin 112}
    (member : u ∈ bits) {i : Fin 56} (meets : i ∈ tannerGraph.checks u) :
    ∃ v ∈ bits, v ≠ u ∧ i ∈ tannerGraph.checks v := by
  have own : u ∈ tannerGraph.members i ∩ bits :=
    Finset.mem_inter.mpr ⟨tannerGraph.mem_checks.mp meets, member⟩
  have more : 1 < (tannerGraph.members i ∩ bits).card := by
    obtain ⟨half, count⟩ := even i
    have positive := Finset.card_pos.mpr ⟨u, own⟩
    omega
  obtain ⟨v, other, different⟩ := Finset.exists_mem_ne more u
  obtain ⟨meets', member'⟩ := Finset.mem_inter.mp other
  exact ⟨v, member', different, tannerGraph.mem_checks.mpr meets'⟩

/-- Three bits that make all checks even include bits 33 and 110. -/
theorem EvenChecks.double {bits : Finset (Fin 112)} (even : EvenChecks bits)
    (few : bits.card ≤ 3) {j : Fin 56} (info : infoColumn j ∈ bits) :
    (33 : Fin 112) ∈ bits ∧ (110 : Fin 112) ∈ bits := by
  by_contra missing
  let u := infoColumn j
  have covered : tannerGraph.checks u ⊆
      (bits.erase u).biUnion fun v => tannerGraph.checks u ∩ tannerGraph.checks v := by
    intro i meets
    obtain ⟨v, member, different, meets'⟩ := even.second info meets
    exact Finset.mem_biUnion.mpr
      ⟨v, Finset.mem_erase.mpr ⟨different, member⟩, Finset.mem_inter.mpr ⟨meets, meets'⟩⟩
  have once : ∀ v ∈ bits.erase u, (tannerGraph.checks u ∩ tannerGraph.checks v).card ≤ 1 := by
    intro v other
    obtain ⟨different, member⟩ := Finset.mem_erase.mp other
    rcases card_common_checks different.symm with one | ⟨first, second⟩ | ⟨first, second⟩
    · exact one
    · exact absurd ⟨first ▸ info, second ▸ member⟩ missing
    · exact absurd ⟨second ▸ member, first ▸ info⟩ missing
  have total : 3 ≤ bits.card - 1 :=
    calc
      3 = (tannerGraph.checks u).card := (card_checks_infoColumn j).symm
      _ ≤ ((bits.erase u).biUnion fun v => tannerGraph.checks u ∩ tannerGraph.checks v).card :=
        Finset.card_le_card covered
      _ ≤ (bits.erase u).card * 1 := Finset.card_biUnion_le_card_mul _ _ _ once
      _ = bits.card - 1 := by rw [mul_one, Finset.card_erase_of_mem info]
  omega

theorem EvenChecks.not_double {bits : Finset (Fin 112)} (even : EvenChecks bits)
    (few : bits.card ≤ 3) (first : (33 : Fin 112) ∈ bits) (second : (110 : Fin 112) ∈ bits) :
    False := by
  obtain ⟨w, member, different, meets⟩ := even.second first (i := 39) (by decide)
  have row : w.val ∈ [33, 35, 42, 94, 95] := mem_members_iff.mp (tannerGraph.mem_checks.mp meets)
  have others : w ∈ [35, 42, 94, 95] := by
    simp only [List.mem_cons, List.not_mem_nil, or_false] at row ⊢
    omega
  have apart : ∀ v ∈ [35, 42, 94, 95], v ≠ 110 ∧ ∃ i ∈ tannerGraph.checks v,
      i ∉ tannerGraph.checks 33 ∧ i ∉ tannerGraph.checks 110 := by
    decide +kernel
  obtain ⟨different', i, meets', other, other'⟩ := apart w others
  have three : ({33, 110, w} : Finset (Fin 112)) = bits := by
    apply Finset.eq_of_subset_of_card_le
    · intro v present
      simp only [Finset.mem_insert, Finset.mem_singleton] at present
      rcases present with rfl | rfl | rfl
      · exact first
      · exact second
      · exact member
    · rw [Finset.card_insert_of_notMem, Finset.card_insert_of_notMem, Finset.card_singleton]
      · exact few
      · simpa using different'.symm
      · simp [different.symm]
  obtain ⟨v, present, distinct, meets''⟩ := even.second member meets'
  rw [← three] at present
  simp only [Finset.mem_insert, Finset.mem_singleton] at present
  rcases present with rfl | rfl | rfl
  · exact other meets''
  · exact other' meets''
  · exact distinct rfl

theorem ldpcEncode_isCodeword {info : Bytes 56} (bits : IsBits info) :
    IsCodeword (ldpcEncode info) :=
  (isCodeword_iff_syndromeOk _).mpr
    ((syndromeOk_iff_eq_ldpcEncode (ldpcEncode_isBits bits)).mpr
      (by rw [(ldpcEncode_spec info).1]))

/-- The codewords of different information words differ in at least four bits. -/
theorem four_le_hammingDist {left right : Bytes 56} (leftBits : IsBits left)
    (rightBits : IsBits right) (different : left ≠ right) :
    4 ≤ hammingDist (ldpcEncode left) (ldpcEncode right) := by
  by_contra close
  have few : (differences (ldpcEncode left) (ldpcEncode right)).card ≤ 3 := by
    rw [card_differences]
    omega
  have even := evenChecks_differences (ldpcEncode_isBits leftBits) (ldpcEncode_isBits rightBits)
    (ldpcEncode_isCodeword leftBits) (ldpcEncode_isCodeword rightBits)
  obtain ⟨j, unequal⟩ := Function.ne_iff.mp different
  have info : infoColumn j ∈ differences (ldpcEncode left) (ldpcEncode right) := by
    have leftByte : ldpcEncode left (infoColumn j) = left j :=
      congrFun (ldpcEncode_spec left).1 j
    have rightByte : ldpcEncode right (infoColumn j) = right j :=
      congrFun (ldpcEncode_spec right).1 j
    simpa [differences, leftByte, rightByte] using unequal
  obtain ⟨first, second⟩ := even.double few info
  exact even.not_double few first second

/-- A codeword with four ones. -/
def lightWord : Bytes 112 := fun j => if j ∈ [34, 103, 104, 111] then 1 else 0

theorem lightWord_isBits : IsBits lightWord := by
  intro j
  rw [lightWord]
  split
  · exact .inr rfl
  · exact .inl rfl

theorem lightWord_accepted : syndromeOk lightWord = true := by
  decide +kernel

theorem zeroWord_accepted : syndromeOk (fun _ => 0) = true := by
  simp [syndromeOk, rowCtr]

/-- The minimum distance of the code is four: two codewords never differ in one, two or three
bits, and some differ in four. -/
theorem ldpcEncode_minimum_distance :
    IsLeast {distance | ∃ left right : Bytes 56, IsBits left ∧ IsBits right ∧ left ≠ right ∧
      distance = hammingDist (ldpcEncode left) (ldpcEncode right)} 4 := by
  constructor
  · have light := (syndromeOk_iff_eq_ldpcEncode lightWord_isBits).mp lightWord_accepted
    have zero := (syndromeOk_iff_eq_ldpcEncode fun _ => .inl rfl).mp zeroWord_accepted
    refine ⟨infoHalf lightWord, infoHalf fun _ => 0, fun j => lightWord_isBits _,
      fun _ => .inl rfl, ?_, ?_⟩
    · intro same
      have byte := congrFun same 34
      revert byte
      decide
    · rw [← light, ← zero]
      decide +kernel
  · rintro distance ⟨left, right, leftBits, rightBits, different, rfl⟩
    exact four_le_hammingDist leftBits rightBits different

end FreeDV.Pipeline
