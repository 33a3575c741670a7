import FreeDV.Lib.Fold
import FreeDV.Pipeline.ParityCheckMatrix

/-!
# LDPC(112, 56) encoder

`ldpc_encode` copies the 56 information bytes and appends 56 parity bytes, each
computed from the left half of its row and the parity byte before it. A word is
a codeword when its parity bytes satisfy that recurrence.
-/

set_option autoImplicit false

namespace FreeDV.Pipeline

/-- The sum of a row's left half over the information bytes of `codeword`. -/
def infoCtr (codeword : Bytes 112) (i : Fin 56) : Nat :=
  ∑ j : Fin 56, (codeword (infoColumn j)).toNat * hra5656 i (infoColumn j)

/-- The value stored at parity index `i`: the parity of the row's left half plus,
except in row zero, the parity byte stored just before. -/
def parityByte (codeword : Bytes 112) (i : Fin 56) : UInt8 :=
  if i.val = 0 then
    if infoCtr codeword i % 2 ≠ 0 then 1 else 0
  else
    if (infoCtr codeword i +
        (codeword (parityColumn ⟨i.val - 1, by omega⟩)).toNat) % 2 ≠ 0 then 1 else 0

/-- One iteration of the parity loop. -/
def encodeStep (codeword : Bytes 112) (i : Fin 56) : Bytes 112 :=
  Function.update codeword (parityColumn i) (parityByte codeword i)

/-- The zero-initialised codeword with the information bytes copied in. -/
def prepopulate (s : Bytes 56) : Bytes 112 := fun column =>
  if info : column.val < 56 then s ⟨column.val, info⟩ else 0

def ldpcEncode (s : Bytes 56) : Bytes 112 :=
  (List.finRange 56).foldl encodeStep (prepopulate s)

/-- The first 56 bytes of a word. -/
def infoHalf (word : Bytes 112) : Bytes 56 := fun j => word (infoColumn j)

/-- Every byte is a bit. -/
def IsBits {n : Nat} (word : Bytes n) : Prop := ∀ j, word j = 0 ∨ word j = 1

instance {n : Nat} (word : Bytes n) : Decidable (IsBits word) :=
  inferInstanceAs (Decidable (∀ j, word j = 0 ∨ word j = 1))

/-- The parity bytes satisfy the encoder's recurrence. -/
def ParityChain (word : Bytes 112) : Prop := ∀ i, word (parityColumn i) = parityByte word i

theorem parityByte_congr {left right : Bytes 112} (i : Fin 56)
    (info : ∀ j, left (infoColumn j) = right (infoColumn j))
    (previous : ∀ k : Fin 56, k < i → left (parityColumn k) = right (parityColumn k)) :
    parityByte left i = parityByte right i := by
  have sums : infoCtr left i = infoCtr right i := by
    simp only [infoCtr, info]
  unfold parityByte
  split
  · rw [sums]
  · next positive =>
    have before : (⟨i.val - 1, by omega⟩ : Fin 56) < i := by
      rw [Fin.lt_def]
      simp only
      omega
    rw [sums, previous _ before]

theorem ldpcEncode_spec (s : Bytes 56) :
    infoHalf (ldpcEncode s) = s ∧ ParityChain (ldpcEncode s) := by
  have valid := Lib.foldl_invariant encodeStep
    (fun visited word => infoHalf word = s ∧
      ∀ i ∈ visited, word (parityColumn i) = parityByte word i)
    (List.finRange 56) (prepopulate s) ⟨?_, by simp⟩ ?_
  · exact ⟨valid.1, fun i => valid.2 i (List.mem_finRange i)⟩
  · funext j
    simp [infoHalf, prepopulate, infoColumn]
  · intro visited i rest word split before
    obtain ⟨info, chain⟩ := before
    have infoKept : ∀ j, encodeStep word i (infoColumn j) = word (infoColumn j) := fun j =>
      Function.update_of_ne (infoColumn_ne_parityColumn j i) _ _
    have parityKept : ∀ k, k ≠ i → encodeStep word i (parityColumn k) = word (parityColumn k) :=
      fun k different => Function.update_of_ne (parityColumn_injective.ne different) _ _
    have byteKept : ∀ k, k ≤ i → parityByte (encodeStep word i) k = parityByte word k :=
      fun k bounded => parityByte_congr k infoKept
        (fun earlier below => parityKept earlier (ne_of_lt (lt_of_lt_of_le below bounded)))
    refine ⟨(funext infoKept : infoHalf (encodeStep word i) = infoHalf word).trans info, ?_⟩
    intro k member
    rcases List.mem_append.mp member with earlier | current
    · have below := (Lib.mem_visited_finRange_iff split k).mp earlier
      rw [parityKept k (ne_of_lt below), byteKept k (le_of_lt below)]
      exact chain k earlier
    · rw [List.mem_singleton.mp current, byteKept i le_rfl]
      exact Function.update_self _ _ _

theorem ParityChain.eq_of_infoHalf {left right : Bytes 112} (leftChain : ParityChain left)
    (rightChain : ParityChain right) (info : infoHalf left = infoHalf right) : left = right := by
  have infoSame : ∀ j, left (infoColumn j) = right (infoColumn j) := fun j => congrFun info j
  have paritySame : ∀ n, ∀ i : Fin 56, i.val = n →
      left (parityColumn i) = right (parityColumn i) := by
    intro n
    induction n using Nat.strongRecOn with
    | _ n ih =>
        intro i value
        rw [leftChain i, rightChain i]
        apply parityByte_congr i infoSame
        intro k below
        exact ih k.val (value ▸ below) k rfl
  funext column
  rcases infoColumn_or_parityColumn column with ⟨j, rfl⟩ | ⟨i, rfl⟩
  · exact infoSame j
  · exact paritySame i.val i rfl

theorem parityChain_iff_eq_ldpcEncode (word : Bytes 112) :
    ParityChain word ↔ word = ldpcEncode (infoHalf word) := by
  obtain ⟨info, chain⟩ := ldpcEncode_spec (infoHalf word)
  constructor
  · intro wordChain
    exact wordChain.eq_of_infoHalf chain info.symm
  · intro same
    rw [same]
    exact chain

theorem parityByte_isBit (codeword : Bytes 112) (i : Fin 56) :
    parityByte codeword i = 0 ∨ parityByte codeword i = 1 := by
  unfold parityByte
  split <;> split <;> simp

theorem ldpcEncode_isBits {s : Bytes 56} (bits : IsBits s) : IsBits (ldpcEncode s) := by
  obtain ⟨info, chain⟩ := ldpcEncode_spec s
  intro column
  rcases infoColumn_or_parityColumn column with ⟨j, rfl⟩ | ⟨i, rfl⟩
  · have same : ldpcEncode s (infoColumn j) = s j := congrFun info j
    rw [same]
    exact bits j
  · rw [chain i]
    exact parityByte_isBit _ i

end FreeDV.Pipeline
