import FreeDV.Lib.Bytes

/-!
# Reading IPFIX messages

A message is a 16-byte header followed by sets. Every set starts with its id
and its whole length; template sets describe the records of the data sets that
carry the template's id. A data set is read by its template until fewer than
four bytes remain, which are padding.
-/

set_option autoImplicit false

namespace FreeDV.Lib.Ipfix

/-! ## Readers -/

def readBytes (count : Nat) (bytes : List UInt8) : Option (List UInt8 × List UInt8) :=
  if count ≤ bytes.length then some (bytes.take count, bytes.drop count) else none

def readNat (width : Nat) (bytes : List UInt8) : Option (Nat × List UInt8) := do
  let (raw, rest) ← readBytes width bytes
  some (beValue raw, rest)

theorem readBytes_append {count : Nat} {bytes : List UInt8} (size : bytes.length = count)
    (rest : List UInt8) : readBytes count (bytes ++ rest) = some (bytes, rest) := by
  subst size
  simp [readBytes]

theorem readNat_beBytes (width value : Nat) (rest : List UInt8) :
    readNat width (beBytes width value ++ rest) = some (value % 256 ^ width, rest) := by
  rw [readNat, readBytes_append (length_beBytes width value)]
  simp [beValue_beBytes]

/-! ## Templates -/

structure FieldSpecifier where
  element : Nat
  enterprise : Option Nat
  length : Nat
deriving DecidableEq

def readSpecifier (bytes : List UInt8) : Option (FieldSpecifier × List UInt8) := do
  let (element, rest) ← readNat 2 bytes
  let (length, rest) ← readNat 2 rest
  if 0x8000 ≤ element then
    let (enterprise, rest) ← readNat 4 rest
    some (⟨element - 0x8000, some enterprise, length⟩, rest)
  else
    some (⟨element, none, length⟩, rest)

def readSpecifiers : Nat → List UInt8 → Option (List FieldSpecifier × List UInt8)
  | 0, bytes => some ([], bytes)
  | count + 1, bytes => do
      let (field, rest) ← readSpecifier bytes
      let (fields, rest) ← readSpecifiers count rest
      some (field :: fields, rest)

structure Template where
  id : Nat
  fields : List FieldSpecifier
deriving DecidableEq

/-- A set as it is delimited by its header. -/
structure RawSet where
  id : Nat
  body : List UInt8
deriving DecidableEq

/-- The template of a template set (id 2) or an options template set (id 3). -/
def RawSet.template? (set : RawSet) : Option Template :=
  match set.id with
  | 2 => do
      let (id, rest) ← readNat 2 set.body
      let (count, rest) ← readNat 2 rest
      let (fields, _) ← readSpecifiers count rest
      some ⟨id, fields⟩
  | 3 => do
      let (id, rest) ← readNat 2 set.body
      let (count, rest) ← readNat 2 rest
      let (_, rest) ← readNat 2 rest
      let (fields, _) ← readSpecifiers count rest
      some ⟨id, fields⟩
  | _ => none

/-! ## Sets and data records -/

/-- Walks the sets by their length fields; the last one has to end with the message. -/
def walkSets : Nat → List UInt8 → Option (List RawSet)
  | _, [] => some []
  | 0, _ :: _ => none
  | fuel + 1, byte :: bytes => do
      let (id, rest) ← readNat 2 (byte :: bytes)
      let (length, rest) ← readNat 2 rest
      if 4 ≤ length then
        let (body, rest) ← readBytes (length - 4) rest
        let sets ← walkSets fuel rest
        some (⟨id, body⟩ :: sets)
      else
        none

/-- A field value; length 65535 announces a one-byte (or 255 and two-byte) length prefix. -/
def readField (length : Nat) (bytes : List UInt8) : Option (List UInt8 × List UInt8) :=
  if length = 65535 then do
    let (short, rest) ← readNat 1 bytes
    if short < 255 then
      readBytes short rest
    else
      let (long, rest) ← readNat 2 rest
      readBytes long rest
  else
    readBytes length bytes

def readRecord : List FieldSpecifier → List UInt8 → Option (List (List UInt8) × List UInt8)
  | [], bytes => some ([], bytes)
  | field :: fields, bytes => do
      let (value, rest) ← readField field.length bytes
      let (values, rest) ← readRecord fields rest
      some (value :: values, rest)

/-- The data records of a set and the padding behind them. -/
def readRecords (fields : List FieldSpecifier) :
    Nat → List UInt8 → Option (List (List (List UInt8)) × List UInt8)
  | 0, bytes => if bytes.length < 4 then some ([], bytes) else none
  | fuel + 1, bytes =>
      if bytes.length < 4 then
        some ([], bytes)
      else do
        let (record, rest) ← readRecord fields bytes
        let (records, padding) ← readRecords fields fuel rest
        some (record :: records, padding)

/-- Decodes the data set `id` by the template of that id found in the same message. -/
def decodeSet (sets : List RawSet) (id : Nat) :
    Option (List (List (List UInt8)) × List UInt8) := do
  let template ← (sets.filterMap RawSet.template?).find? (·.id = id)
  let set ← sets.find? (·.id = id)
  readRecords template.fields set.body.length set.body

/-- Up to three zero bytes. -/
def IsPadding (bytes : List UInt8) : Prop :=
  bytes.length ≤ 3 ∧ ∀ byte ∈ bytes, byte = 0

/-! ## What is written is read back -/

/-- A set as it is laid out in a message. -/
def RawSet.bytes (set : RawSet) : List UInt8 :=
  beBytes 2 set.id ++ beBytes 2 (4 + set.body.length) ++ set.body

@[simp] theorem RawSet.length_bytes (set : RawSet) : set.bytes.length = 4 + set.body.length := by
  simp only [RawSet.bytes, List.length_append, length_beBytes]

theorem walkSets_flatMap_bytes (sets : List RawSet)
    (ids : ∀ set ∈ sets, set.id < 65536) (lengths : ∀ set ∈ sets, set.body.length + 4 < 65536)
    (fuel : Nat) (enough : sets.length ≤ fuel) :
    walkSets fuel (sets.flatMap RawSet.bytes) = some sets := by
  induction sets generalizing fuel with
  | nil => cases fuel <;> rfl
  | cons set sets ih =>
      obtain ⟨idSmall, idsRest⟩ := List.forall_mem_cons.mp ids
      obtain ⟨lengthSmall, lengthsRest⟩ := List.forall_mem_cons.mp lengths
      cases fuel with
      | zero => simp at enough
      | succ fuel =>
          have rest := ih idsRest lengthsRest fuel (by simpa using enough)
          have layout : (set :: sets).flatMap RawSet.bytes =
              beBytes 2 set.id ++ (beBytes 2 (4 + set.body.length) ++
                (set.body ++ sets.flatMap RawSet.bytes)) := by
            simp [RawSet.bytes]
          have idRead : set.id % 256 ^ 2 = set.id := Nat.mod_eq_of_lt idSmall
          have lengthRead : (4 + set.body.length) % 256 ^ 2 = 4 + set.body.length :=
            Nat.mod_eq_of_lt (by omega)
          rw [layout]
          cases bytes : beBytes 2 set.id ++ (beBytes 2 (4 + set.body.length) ++
              (set.body ++ sets.flatMap RawSet.bytes)) with
          | nil => simp [beBytes] at bytes
          | cons first others =>
              rw [walkSets, ← bytes, readNat_beBytes, idRead]
              simp only [Option.bind_eq_bind, Option.bind_some]
              rw [readNat_beBytes, lengthRead]
              simp [readBytes_append, rest]

theorem readField_fixed {length : Nat} {value : List UInt8} (fixed : length ≠ 65535)
    (size : value.length = length) (rest : List UInt8) :
    readField length (value ++ rest) = some (value, rest) := by
  rw [readField, if_neg fixed, readBytes_append size]

theorem readField_variable {value : List UInt8} (short : value.length < 255)
    (rest : List UInt8) :
    readField 65535 (UInt8.ofNat value.length :: (value ++ rest)) = some (value, rest) := by
  have prefixed : UInt8.ofNat value.length :: (value ++ rest) =
      beBytes 1 value.length ++ (value ++ rest) := by
    simp [beBytes]
  have small : value.length % 256 ^ 1 = value.length := Nat.mod_eq_of_lt (by omega)
  rw [prefixed, readField, if_pos rfl, readNat_beBytes, small]
  simp [short, readBytes_append]

/-- Data records that are each read back are all read back, up to the padding. -/
theorem readRecords_flatMap {β : Type*} (fields : List FieldSpecifier) (encode : β → List UInt8)
    (values : β → List (List UInt8)) (records : List β)
    (reads : ∀ record ∈ records, ∀ rest,
      readRecord fields (encode record ++ rest) = some (values record, rest))
    (padding : List UInt8) (short : padding.length < 4)
    (last : ∀ record ∈ records, 4 ≤ (encode record ++ padding).length)
    (fuel : Nat) (enough : records.length ≤ fuel) :
    readRecords fields fuel (records.flatMap encode ++ padding) =
      some (records.map values, padding) := by
  induction records generalizing fuel with
  | nil => cases fuel <;> simp [readRecords, short]
  | cons record records ih =>
      obtain ⟨readsFirst, readsRest⟩ := List.forall_mem_cons.mp reads
      obtain ⟨lastFirst, lastRest⟩ := List.forall_mem_cons.mp last
      cases fuel with
      | zero => simp at enough
      | succ fuel =>
          have rest := ih readsRest lastRest fuel (by simpa using enough)
          have notPadding :
              ¬ ((record :: records).flatMap encode ++ padding).length < 4 := by
            simp only [List.flatMap_cons, List.length_append] at lastFirst ⊢
            omega
          rw [readRecords, if_neg notPadding, List.flatMap_cons, List.append_assoc, readsFirst]
          simp [rest]

end FreeDV.Lib.Ipfix
