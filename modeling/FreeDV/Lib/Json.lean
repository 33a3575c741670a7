import Mathlib.Data.List.Basic

/-!
# JSON values

Values as a reader returns them, and accessors that give nothing for a value of
another type or none at all. Strings are their bytes, which may contain NULs; what
C sees of a string ends before the first of them.
-/

set_option autoImplicit false

namespace FreeDV.Lib

inductive Json where
  | null
  | bool (value : Bool)
  | uint (value : UInt64)
  | sint (value : Int64)
  | real (bits : UInt64)
  | str (value : List UInt8)
  | arr (elements : List Json)
  | obj (members : List (List UInt8 × Json))

namespace Json

/-- Like a string as `const char*`. -/
def cString (text : List UInt8) : List UInt8 := text.takeWhile (· ≠ 0)

def elements : Option Json → List Json
  | some (.arr elements) => elements
  | _ => []

def arrGet (value : Option Json) (idx : Nat) : Option Json := (elements value)[idx]?

def isStr : Option Json → Bool
  | some (.str _) => true
  | _ => false

def getStr : Option Json → Option (List UInt8)
  | some (.str value) => some (cString value)
  | _ => none

theorem sizeOf_lt_of_mem_elements {value item : Json} (member : item ∈ elements (some value)) :
    sizeOf item < sizeOf value := by
  cases value with
  | arr items =>
      have smaller : sizeOf item < sizeOf items := List.sizeOf_lt_of_mem member
      simp only [arr.sizeOf_spec]
      omega
  | _ => cases member

theorem sizeOf_lt_of_arrGet {value item : Json} {idx : Nat}
    (found : arrGet (some value) idx = some item) : sizeOf item < sizeOf value :=
  sizeOf_lt_of_mem_elements (List.mem_of_getElem? found)

end Json

end FreeDV.Lib
