import Mathlib.Algebra.BigOperators.Fin
import Mathlib.Data.Fintype.Basic

/-!
# The LDPC(112, 56) parity check matrix

`HRA_56_56.h` holds a 56 by 112 table of zeros and ones. It is kept here as the
columns of the ones of each row, and read back entry by entry as the table.
-/

set_option autoImplicit false

namespace FreeDV.Pipeline

/-- An array of `n` bytes, as `std::array<uint8_t, n>`. -/
abbrev Bytes (n : Nat) := Fin n → UInt8

/-- Columns of the ones of each row of `HRA_56_56`, from left to right. -/
def hraColumns : List (List Nat) :=
  [[3, 13, 40, 56], [32, 45, 54, 56, 57], [21, 38, 46, 57, 58], [1, 26, 43, 58, 59],
   [6, 42, 55, 59, 60], [11, 21, 45, 60, 61], [14, 18, 19, 61, 62], [40, 44, 54, 62, 63],
   [5, 15, 20, 63, 64], [1, 22, 39, 64, 65], [7, 30, 36, 65, 66], [3, 51, 52, 66, 67],
   [0, 2, 12, 67, 68], [6, 7, 31, 68, 69], [19, 50, 51, 69, 70], [9, 12, 21, 70, 71],
   [1, 30, 31, 71, 72], [0, 10, 23, 72, 73], [27, 30, 43, 73, 74], [6, 35, 41, 74, 75],
   [2, 10, 48, 75, 76], [24, 27, 37, 76, 77], [17, 29, 47, 77, 78], [18, 20, 23, 78, 79],
   [16, 37, 55, 79, 80], [14, 25, 47, 80, 81], [7, 41, 49, 81, 82], [12, 28, 38, 82, 83],
   [8, 22, 25, 83, 84], [11, 32, 49, 84, 85], [38, 44, 53, 85, 86], [5, 18, 25, 86, 87],
   [16, 27, 36, 87, 88], [31, 39, 55, 88, 89], [2, 9, 13, 89, 90], [5, 22, 26, 90, 91],
   [9, 40, 45, 91, 92], [17, 24, 43, 92, 93], [3, 28, 44, 93, 94], [33, 35, 42, 94, 95],
   [0, 28, 52, 95, 96], [13, 48, 51, 96, 97], [8, 37, 39, 97, 98], [4, 10, 20, 98, 99],
   [14, 29, 50, 99, 100], [11, 41, 46, 100, 101], [4, 15, 29, 101, 102], [34, 36, 49, 102, 103],
   [4, 48, 50, 103, 104], [16, 34, 42, 104, 105], [15, 17, 26, 105, 106],
   [35, 46, 53, 106, 107], [19, 23, 52, 107, 108], [8, 24, 47, 108, 109],
   [33, 53, 54, 109, 110], [32, 33, 34, 110, 111]]

/-- The table entry `HRA_56_56[row][column]`. -/
def hra5656 (row : Fin 56) (column : Fin 112) : Nat :=
  if column.val ∈ hraColumns.getD row.val [] then 1 else 0

/-- Column of the information half. -/
def infoColumn (j : Fin 56) : Fin 112 := Fin.castAdd 56 j

/-- Column of the parity half. -/
def parityColumn (i : Fin 56) : Fin 112 := Fin.natAdd 56 i

theorem hra5656_le_one (row : Fin 56) (column : Fin 112) : hra5656 row column ≤ 1 := by
  unfold hra5656
  split <;> omega

/-- The right half of the table is dual diagonal: row `i` has exactly the parity
columns `i` and `i - 1`, and row zero only its own. -/
theorem hra5656_parityColumn (row column : Fin 56) :
    hra5656 row (parityColumn column) =
      if column = row ∨ column.val + 1 = row.val then 1 else 0 := by
  revert row column
  decide +kernel

theorem infoColumn_or_parityColumn (column : Fin 112) :
    (∃ j, column = infoColumn j) ∨ ∃ i, column = parityColumn i := by
  by_cases info : column.val < 56
  · exact .inl ⟨⟨column.val, info⟩, rfl⟩
  · refine .inr ⟨⟨column.val - 56, by omega⟩, Fin.ext ?_⟩
    simp only [parityColumn, Fin.natAdd_mk]
    omega

theorem infoColumn_ne_parityColumn (j i : Fin 56) : infoColumn j ≠ parityColumn i := by
  intro same
  have values := congrArg Fin.val same
  simp only [infoColumn, parityColumn, Fin.val_castAdd, Fin.val_natAdd] at values
  omega

theorem parityColumn_injective : Function.Injective parityColumn := by
  intro left right same
  have values := congrArg Fin.val same
  simp only [parityColumn, Fin.val_natAdd] at values
  exact Fin.ext (by omega)

end FreeDV.Pipeline
