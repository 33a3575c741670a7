import Mathlib.Data.List.Basic
import Mathlib.Tactic.Ring

/-!
# Numbers as bytes

Fixed-width numbers in network order, and in the order of a little-endian host.
-/

set_option autoImplicit false

namespace FreeDV.Lib

def beValue (bytes : List UInt8) : Nat :=
  bytes.foldl (fun value byte => value * 256 + byte.toNat) 0

def beBytes : Nat → Nat → List UInt8
  | 0, _ => []
  | width + 1, value => UInt8.ofNat (value / 256 ^ width) :: beBytes width value

@[simp] theorem length_beBytes (width value : Nat) : (beBytes width value).length = width := by
  induction width with
  | zero => rfl
  | succ width ih => simp [beBytes, ih]

private theorem foldl_beBytes (width value high : Nat) :
    (beBytes width value).foldl (fun value byte => value * 256 + byte.toNat) high =
      high * 256 ^ width + value % 256 ^ width := by
  induction width generalizing high with
  | zero => simp [beBytes, Nat.mod_one]
  | succ width ih =>
      have split : value % 256 ^ (width + 1) =
          256 ^ width * (value / 256 ^ width % 256) + value % 256 ^ width := by
        rw [Nat.pow_succ, Nat.mod_mul, Nat.add_comm]
      rw [beBytes, List.foldl_cons, ih, split, UInt8.toNat_ofNat']
      ring

theorem beValue_beBytes (width value : Nat) :
    beValue (beBytes width value) = value % 256 ^ width := by
  rw [beValue, foldl_beBytes, Nat.zero_mul, Nat.zero_add]

def leBytes (width value : Nat) : List UInt8 :=
  (beBytes width value).reverse

def leValue (bytes : List UInt8) : Nat :=
  beValue bytes.reverse

@[simp] theorem length_leBytes (width value : Nat) : (leBytes width value).length = width := by
  simp [leBytes]

theorem leValue_leBytes (width value : Nat) :
    leValue (leBytes width value) = value % 256 ^ width := by
  rw [leValue, leBytes, List.reverse_reverse, beValue_beBytes]

end FreeDV.Lib
