import FreeDV.Lib.Transition
import FreeDV.Util.UlogFormatProperties

/-!
# Bounds of the format walkers

Both walkers of a format move forward and stop at its end. The producer stays
inside the argument buffer. The consumer reads what the producer has laid out
there, so a string fits its copy, and however the output fills up, the characters
in use stay in front of a NUL inside the buffer.
-/

set_option autoImplicit false

namespace FreeDV.Util

open FreeDV.Lib

/-! ## Parsing -/

section

variable {toDouble : BitVec 80 → BitVec 64} {s : Spec} {arg : Arg} {w after : BlobWriter}
  {truncated cut ok : Bool}

/-- The bytes a number of this kind takes. -/
def numberWidth : ArgKind → Option Nat
  | .s64 => some 8
  | .u64 => some 8
  | .dbl => some 8
  | .chr => some 4
  | .ptr => some 8
  | _ => none

/-- What one argument can look like in the buffer. -/
inductive Captured : ArgKind → List UInt8 → Prop where
  | number {kind : ArgKind} {bytes : List UInt8} :
      numberWidth kind = some bytes.length → Captured kind bytes
  | null : Captured .str (leBytes 2 0xFFFF)
  | string {text : List UInt8} : text.length ≤ kStrMax →
      Captured .str (leBytes 2 text.length ++ text)

/-- The bytes behind which the producer has walked on from a place of the format: it may have
stopped anywhere, or behind the length of a string. -/
inductive Laid : List UInt8 → List UInt8 → Prop where
  | stopped {p : List UInt8} : Laid p []
  | literal {ch : UInt8} {p bytes : List UInt8} : ch ≠ '%'.toUInt8 → Laid p bytes →
      Laid (ch :: p) bytes
  | percent {p bytes : List UInt8} : (parseSpec ('%'.toUInt8 :: p)).kind = .none →
      Laid (('%'.toUInt8 :: p).drop (parseSpec ('%'.toUInt8 :: p)).totalLen) bytes →
      Laid ('%'.toUInt8 :: p) bytes
  | half {p : List UInt8} {count : Nat} : (parseSpec ('%'.toUInt8 :: p)).kind = .str →
      count ≤ kStrMax → Laid ('%'.toUInt8 :: p) (leBytes 2 count)
  | conversion {p bytes rest : List UInt8} : Captured (parseSpec ('%'.toUInt8 :: p)).kind bytes →
      Laid (('%'.toUInt8 :: p).drop (parseSpec ('%'.toUInt8 :: p)).totalLen) rest →
      Laid ('%'.toUInt8 :: p) (bytes ++ rest)

end

/-! ## Reading a record -/

section

variable {kind : ArgKind} {r after : BlobReader} {value : Value}
  {p bytes bytes' rest rest' : List UInt8}

/-- The bytes that have not been read yet. -/
def BlobReader.unread (self : BlobReader) : List UInt8 :=
  self.buf.drop self.pos

/-- What the consumer takes for one argument. -/
inductive Answered : ArgKind → List UInt8 → Value → Prop where
  | number {kind : ArgKind} {bytes : List UInt8} {value : Value} :
      numberWidth kind = some bytes.length → (∀ text, value ≠ .str text) →
      Answered kind bytes value
  | null {count : List UInt8} : count.length = 2 → leValue count = 0xFFFF →
      Answered .str count (.str nullText)
  | string {count text : List UInt8} : count.length = 2 → leValue count ≠ 0xFFFF →
      text.length = leValue count → Answered .str (count ++ text) (.str text)

/-- The consumer takes exactly the bytes that were laid out for an argument. -/
theorem Captured.answered (captured : Captured kind bytes) (answered : Answered kind bytes' value)
    (same : bytes ++ rest = bytes' ++ rest') :
    rest = rest' ∧ ∀ text, value = .str text → text.length ≤ kStrMax := by
  cases answered with
  | number wide plain =>
      refine ⟨?_, fun text shown => (plain text shown).elim⟩
      cases captured with
      | number width =>
          rw [width, Option.some.injEq] at wide
          exact (List.append_inj same wide).2
      | null => cases wide
      | string => cases wide
  | null size marked =>
      refine ⟨?_, by rintro _ ⟨⟩; decide⟩
      cases captured with
      | number width => cases width
      | null =>
          have sizes : (leBytes 2 0xFFFF).length = bytes'.length := by rw [length_leBytes, size]
          exact (List.append_inj same sizes).2
      | string short =>
          rw [List.append_assoc] at same
          obtain ⟨rfl, -⟩ := List.append_inj same (by rw [length_leBytes, size])
          rw [leValue_leBytes, Nat.mod_eq_of_lt (by simp only [kStrMax] at short; omega)] at marked
          simp only [kStrMax] at short
          omega
  | string size unmarked length =>
      rename_i count text
      rw [List.append_assoc count] at same
      cases captured with
      | number width => cases width
      | null =>
          obtain ⟨rfl, -⟩ := List.append_inj same (by rw [length_leBytes, size])
          rw [leValue_leBytes] at unmarked
          exact (unmarked rfl).elim
      | string short =>
          rw [List.append_assoc] at same
          obtain ⟨rfl, behind⟩ := List.append_inj same (by rw [length_leBytes, size])
          rw [leValue_leBytes, Nat.mod_eq_of_lt (by simp only [kStrMax] at short; omega)] at length
          refine ⟨(List.append_inj behind length.symm).2, ?_⟩
          rintro _ ⟨⟩
          exact length ▸ short

end

/-! ## The output buffer -/

section

variable {output : Output} {cap used count : Nat}

/-- The characters in use stand in front of a NUL, inside of the `cap` bytes. -/
structure Output.Terminated (output : Output) (cap : Nat) : Prop where
  size : output.out.length = cap
  used : output.used < cap
  closed : ∃ k, output.used ≤ k ∧ k < cap ∧ output.out[k]? = some 0

theorem poke_closed (buffer bytes : List UInt8) (offset : Nat)
    (fits : offset + bytes.length < buffer.length) :
    ∃ out, poke buffer offset (bytes ++ [0]) = some out ∧ out.length = buffer.length ∧
      out[offset + bytes.length]? = some 0 := by
  have inside : offset + (bytes ++ [(0 : UInt8)]).length ≤ buffer.length := by
    rw [List.length_append, List.length_singleton]
    omega
  obtain ⟨out, stored, size, front⟩ := poke_fits inside
  refine ⟨out, stored, size, ?_⟩
  have last : offset + bytes.length < offset + (bytes ++ [(0 : UInt8)]).length := by
    rw [List.length_append, List.length_singleton]
    omega
  have position : (buffer.take offset ++ bytes).length = offset + bytes.length := by
    rw [List.length_append, List.length_take, Nat.min_eq_left (by omega)]
  rw [← List.getElem?_take_of_lt last, front, ← List.append_assoc, ← position,
    List.getElem?_concat_length]

theorem Output.Terminated.appendLiteral (terminated : output.Terminated cap) (ch : UInt8) :
    ∃ after, output.appendLiteral cap ch = some after ∧ after.Terminated cap := by
  rw [Output.appendLiteral]
  split
  · rename_i room
    obtain ⟨out, stored, size, closed⟩ := poke_closed output.out [ch] output.used (by
      rw [terminated.size]
      exact room)
    refine ⟨⟨out, output.used + 1⟩, ?_, size.trans terminated.size, room,
      output.used + 1, le_rfl, room, closed⟩
    have adjacent : output.used + 1 = output.used + [ch].length := rfl
    rw [Option.bind_eq_bind, poke_bind_poke_bind adjacent, stored, Option.bind_some]
  · exact ⟨output, rfl, terminated⟩

/-- Whatever fits of a text is stored and closed; `used` may then move up to the end of the whole
text, as long as it stays in the buffer. -/
theorem Output.Terminated.print (terminated : output.Terminated cap) (text : List UInt8) :
    ∃ out, output.print (cap - output.used) (some text) = some (out, text.length) ∧
      ∀ used, used ≤ output.used + text.length → used < cap →
        Output.Terminated ⟨out, used⟩ cap := by
  have room := terminated.used
  have shown : (text.take (cap - output.used - 1)).length =
      min (cap - output.used - 1) text.length := List.length_take
  obtain ⟨out, stored, size, closed⟩ := poke_closed output.out
    (text.take (cap - output.used - 1)) output.used (by
      rw [terminated.size, shown]
      omega)
  refine ⟨out, ?_, ?_⟩
  · rw [Output.print, if_neg (by omega), Option.bind_eq_bind, stored, Option.bind_some]
  · intro used covered inside
    rw [shown] at closed
    refine ⟨size.trans terminated.size, inside, _, ?_, ?_, closed⟩
    · change used ≤ output.used + min (cap - output.used - 1) text.length
      omega
    · omega

end

/-! ## Rendering step by step -/

/-- Where the consumer is between two rounds of its loop. -/
structure Walk where
  p : List UInt8
  r : BlobReader
  argsExhausted : Bool
  output : Output
deriving DecidableEq

/-- In front of the first round, with the NUL already stored. -/
def Message.walk (self : Message) (out : List UInt8) : Walk where
  p := self.fmt
  r := ⟨self.args, 0⟩
  argsExhausted := false
  output := ⟨out, 0⟩

/-- The reader is where the producer was at this place of the format, and the output is
closed. -/
structure Walk.Sound (walk : Walk) (cap : Nat) : Prop where
  laid : walk.argsExhausted = false → Laid walk.p walk.r.unread
  output : walk.output.Terminated cap

section

variable {snprintf : List UInt8 → Value → List UInt8} {cap : Nat} {walk : Walk}

end

end FreeDV.Util
