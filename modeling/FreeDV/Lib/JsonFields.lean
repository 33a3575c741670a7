import FreeDV.Lib.Json

/-!
# Members of a JSON object

The member with a key is the first one. Predicates are false, and accessors give
zero, for a value of another type or none at all; a reader makes an integer
unsigned if it is not negative.
-/

set_option autoImplicit false

namespace FreeDV.Lib.Json

def key (name : String) : List UInt8 := name.toList.map Char.toUInt8

def objGet (value : Option Json) (name : List UInt8) : Option Json :=
  match value with
  | some (.obj members) => (members.find? fun member => member.1 = name).map Prod.snd
  | _ => none

def isBool : Option Json → Bool
  | some (.bool _) => true
  | _ => false

def isUint : Option Json → Bool
  | some (.uint _) => true
  | _ => false

def isInt : Option Json → Bool
  | some (.uint _) => true
  | some (.sint _) => true
  | _ => false

def isReal : Option Json → Bool
  | some (.real _) => true
  | _ => false

/-- The text that a string made of the pointer has. -/
def text (value : Option Json) : List UInt8 := (getStr value).getD []

def getBool : Option Json → Bool
  | some (.bool value) => value
  | _ => false

def getUint : Option Json → UInt64
  | some (.uint value) => value
  | some (.sint value) => value.toUInt64
  | _ => 0

/-- Cut off to the `int` it is returned as. -/
def getInt : Option Json → Int32
  | some (.uint value) => value.toUInt32.toInt32
  | some (.sint value) => value.toInt32
  | _ => 0

def getReal : Option Json → UInt64
  | some (.real bits) => bits
  | _ => 0

theorem getStr_eq_some_iff {value : Option Json} {string : List UInt8} :
    getStr value = some string ↔ isStr value = true ∧ string = text value := by
  unfold getStr isStr text getStr
  split
  · simp [eq_comm]
  · simp

theorem eq_bool_iff {value : Option Json} {flag : Bool} :
    value = some (.bool flag) ↔ isBool value = true ∧ flag = getBool value := by
  unfold isBool getBool
  split
  · simp [eq_comm]
  · rename_i other
    simp only [Bool.false_eq_true, false_and, iff_false]
    exact other flag

theorem eq_uint_iff {value : Option Json} {number : UInt64} :
    value = some (.uint number) ↔ isUint value = true ∧ number = getUint value := by
  unfold isUint
  split
  · simp [getUint, eq_comm]
  · rename_i other
    simp only [Bool.false_eq_true, false_and, iff_false]
    exact other number

end FreeDV.Lib.Json
