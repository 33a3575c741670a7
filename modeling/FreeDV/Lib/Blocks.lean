import Mathlib.Data.List.Basic

/-!
# Consecutive blocks of a stream

A stream that arrives in pieces is worked off in blocks of a fixed size: the
whole blocks of what has arrived, in order, and a rest shorter than one block.
How the pieces were cut does not matter.
-/

set_option autoImplicit false

namespace FreeDV.Lib

variable {α β γ σ : Type*}

/-- The whole blocks of `size` elements, from the start on. -/
def blocks (size : Nat) (stream : List α) : List (List α) :=
  (List.range (stream.length / size)).map fun k => (stream.drop (k * size)).take size

/-- What is left behind the whole blocks. -/
def remainder (size : Nat) (stream : List α) : List α :=
  stream.drop (stream.length / size * size)

variable {size : Nat} {stream : List α}

theorem length_remainder (size : Nat) (stream : List α) :
    (remainder size stream).length = stream.length % size := by
  rw [remainder, List.length_drop, Nat.mod_eq_sub_div_mul]

theorem length_remainder_lt (positive : 0 < size) (stream : List α) :
    (remainder size stream).length < size := by
  rw [length_remainder]
  exact Nat.mod_lt _ positive

@[simp] theorem length_blocks (size : Nat) (stream : List α) :
    (blocks size stream).length = stream.length / size := by
  simp [blocks]

theorem blocks_of_short (short : stream.length < size) : blocks size stream = [] := by
  rw [blocks, Nat.div_eq_of_lt short, List.range_zero, List.map_nil]

theorem remainder_of_short (short : stream.length < size) : remainder size stream = stream := by
  rw [remainder, Nat.div_eq_of_lt short, Nat.zero_mul, List.drop_zero]

theorem length_div_of_long (positive : 0 < size) (long : size ≤ stream.length) :
    stream.length / size = (stream.drop size).length / size + 1 := by
  rw [List.length_drop, ← Nat.add_div_right _ positive, Nat.sub_add_cancel long]

theorem blocks_of_long (positive : 0 < size) (long : size ≤ stream.length) :
    blocks size stream = stream.take size :: blocks size (stream.drop size) := by
  rw [blocks, length_div_of_long positive long, List.range_succ_eq_map, List.map_cons,
    Nat.zero_mul, List.drop_zero, List.map_map, blocks]
  congr 1
  apply List.map_congr_left
  intro k _
  rw [Function.comp_apply, List.drop_drop, Nat.succ_mul, Nat.add_comm size]

theorem remainder_of_long (positive : 0 < size) (long : size ≤ stream.length) :
    remainder size stream = remainder size (stream.drop size) := by
  rw [remainder, remainder, length_div_of_long positive long, List.drop_drop, Nat.succ_mul,
    Nat.add_comm size]

/-- Blocks can be taken off while more arrives behind them. -/
theorem blocks_append (positive : 0 < size) (first second : List α) :
    blocks size (first ++ second) =
        blocks size first ++ blocks size (remainder size first ++ second) ∧
      remainder size (first ++ second) = remainder size (remainder size first ++ second) := by
  induction length : first.length using Nat.strongRecOn generalizing first with
  | ind _ ih =>
      by_cases short : first.length < size
      · rw [blocks_of_short short, remainder_of_short short]
        exact ⟨rfl, rfl⟩
      · have long : size ≤ first.length := Nat.le_of_not_lt short
        have longer : size ≤ (first ++ second).length := by
          rw [List.length_append]
          omega
        have later := ih (first.drop size).length (by rw [List.length_drop]; omega) _ rfl
        rw [blocks_of_long positive longer, blocks_of_long positive long,
          remainder_of_long positive longer, remainder_of_long positive long,
          List.take_append_of_le_length long, List.drop_append_of_le_length long]
        exact ⟨congrArg (_ :: ·) later.1, later.2⟩

theorem blocks_flatten (positive : 0 < size) {pieces : List (List α)}
    (whole : ∀ piece ∈ pieces, piece.length = size) :
    blocks size pieces.flatten = pieces ∧ remainder size pieces.flatten = [] := by
  induction pieces with
  | nil => exact ⟨blocks_of_short positive, remainder_of_short positive⟩
  | cons piece rest ih =>
      obtain ⟨length, later⟩ := List.forall_mem_cons.mp whole
      obtain ⟨same, nothing⟩ := ih later
      have long : size ≤ (piece :: rest).flatten.length := by
        rw [List.flatten_cons, List.length_append]
        omega
      have first : (piece :: rest).flatten.take size = piece := by
        rw [List.flatten_cons, ← length, List.take_left]
      have behind : (piece :: rest).flatten.drop size = rest.flatten := by
        rw [List.flatten_cons, ← length, List.drop_left]
      rw [blocks_of_long positive long, remainder_of_long positive long, first, behind, same]
      exact ⟨rfl, nothing⟩

/-- Pieces of one block each are the first blocks of a stream they begin. -/
theorem blocks_flatten_append (positive : 0 < size) {pieces : List (List α)}
    (whole : ∀ piece ∈ pieces, piece.length = size) (rest : List α) :
    blocks size (pieces.flatten ++ rest) = pieces ++ blocks size rest := by
  obtain ⟨same, nothing⟩ := blocks_flatten positive whole
  rw [(blocks_append positive _ _).1, same, nothing, List.nil_append]

/-! ## A block function with a state -/

/-- Applies a stateful function to one block after the other. -/
def mapBlocks (process : σ → β → γ × σ) : σ → List β → List γ × σ
  | state, [] => ([], state)
  | state, block :: rest =>
      let result := process state block
      let later := mapBlocks process result.2 rest
      (result.1 :: later.1, later.2)

theorem mapBlocks_append (process : σ → β → γ × σ) (state : σ) (first second : List β) :
    mapBlocks process state (first ++ second) =
      ((mapBlocks process state first).1 ++
          (mapBlocks process (mapBlocks process state first).2 second).1,
        (mapBlocks process (mapBlocks process state first).2 second).2) := by
  induction first generalizing state with
  | nil => rfl
  | cons block rest ih => simp only [List.cons_append, mapBlocks, ih]

/-- Related states that agree on each block agree on all of them. -/
theorem mapBlocks_related {process : σ → β → γ × σ} {related : σ → σ → Prop}
    (agree : ∀ state state' block, related state state' →
      (process state block).1 = (process state' block).1 ∧
        related (process state block).2 (process state' block).2)
    {state state' : σ} (start : related state state') (items : List β) :
    (mapBlocks process state items).1 = (mapBlocks process state' items).1 ∧
      related (mapBlocks process state items).2 (mapBlocks process state' items).2 := by
  induction items generalizing state state' with
  | nil => exact ⟨rfl, start⟩
  | cons block rest ih =>
      obtain ⟨same, further⟩ := agree state state' block start
      obtain ⟨later, final⟩ := ih further
      exact ⟨by simp only [mapBlocks, same, later], final⟩

end FreeDV.Lib
