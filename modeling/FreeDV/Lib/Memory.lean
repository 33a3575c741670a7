import Mathlib.Data.List.Basic

/-!
# Checked writes into a byte buffer

A buffer is a list of bytes of fixed length. A write that would leave the
buffer has no result, so a computed buffer was only written inside its bounds.
-/

set_option autoImplicit false

namespace FreeDV.Lib

/-- Stores `bytes` from position `offset` on; fails unless they fit. -/
def poke (buffer : List UInt8) (offset : Nat) (bytes : List UInt8) : Option (List UInt8) :=
  if offset + bytes.length ≤ buffer.length then
    some (buffer.take offset ++ bytes ++ buffer.drop (offset + bytes.length))
  else
    none

theorem poke_fits {buffer bytes : List UInt8} {offset : Nat}
    (fits : offset + bytes.length ≤ buffer.length) :
    ∃ result, poke buffer offset bytes = some result ∧ result.length = buffer.length ∧
      result.take (offset + bytes.length) = buffer.take offset ++ bytes := by
  have front : (buffer.take offset ++ bytes).length = offset + bytes.length := by
    rw [List.length_append, List.length_take, Nat.min_eq_left (by omega)]
  refine ⟨_, if_pos fits, ?_, ?_⟩
  · rw [List.length_append, front, List.length_drop]
    omega
  · rw [← front, List.take_left]

/-- Writing `gap` bytes behind the finished part of a zeroed buffer. -/
theorem poke_zeros {finished bytes : List UInt8} {offset gap room : Nat}
    (position : offset = finished.length + gap) :
    poke (finished ++ List.replicate (gap + bytes.length + room) 0) offset bytes =
      some (finished ++ List.replicate gap 0 ++ bytes ++ List.replicate room 0) := by
  have inside : offset + bytes.length ≤
      (finished ++ List.replicate (gap + bytes.length + room) (0 : UInt8)).length := by
    simp only [position, List.length_append, List.length_replicate]
    omega
  have front : (finished ++ List.replicate gap (0 : UInt8)).length = offset := by
    simp [position]
  rw [poke, if_pos inside, Nat.add_assoc, List.replicate_add, ← List.append_assoc, ← front,
    List.take_left, List.drop_append, List.drop_eq_nil_of_le (by omega), List.replicate_add]
  simp

theorem poke_zeros_start (bytes : List UInt8) (room : Nat) :
    poke (List.replicate (bytes.length + room) 0) 0 bytes =
      some (bytes ++ List.replicate room 0) := by
  simp [poke]

theorem poke_bind_poke {first second : List UInt8} {offset behind : Nat} {buffer : List UInt8}
    (adjacent : behind = offset + first.length) :
    ((poke buffer offset first).bind fun buffer => poke buffer behind second) =
      poke buffer offset (first ++ second) := by
  subst adjacent
  by_cases fits : offset + first.length ≤ buffer.length
  · rw [poke, if_pos fits, Option.bind_some]
    have front : (buffer.take offset ++ first).length = offset + first.length := by
      rw [List.length_append, List.length_take, Nat.min_eq_left (by omega)]
    simp only [poke, List.length_append, List.length_take, List.length_drop]
    rw [← front, List.take_left, List.drop_append, front]
    by_cases both : offset + (first.length + second.length) ≤ buffer.length
    · rw [if_pos (by omega), if_pos both, List.drop_eq_nil_of_le (by omega), List.drop_drop]
      simp [Nat.add_assoc]
    · rw [if_neg (by omega), if_neg both]
  · have short : ¬ offset + (first ++ second).length ≤ buffer.length := by
      rw [List.length_append]
      omega
    rw [poke, if_neg fits, Option.bind_none, poke, if_neg short]

theorem poke_bind_poke_bind {β : Type} {first second : List UInt8} {offset behind : Nat}
    {buffer : List UInt8} {rest : List UInt8 → Option β}
    (adjacent : behind = offset + first.length) :
    ((poke buffer offset first).bind fun buffer => (poke buffer behind second).bind rest) =
      (poke buffer offset (first ++ second)).bind rest := by
  rw [← poke_bind_poke adjacent, Option.bind_assoc]

end FreeDV.Lib
