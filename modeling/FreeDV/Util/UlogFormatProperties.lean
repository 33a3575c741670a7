import FreeDV.Util.UlogFormat

/-!
# Producer and consumer of log arguments agree

`expectedText` says what a log call should render to, in one pass over the
format and its arguments and without any bytes in between. The serialized
record makes the consumer render exactly that.
-/

set_option autoImplicit false

namespace FreeDV.Util

open FreeDV.Lib

/-! ## What should be rendered -/

inductive Piece where
  | literal (ch : UInt8)
  | percent
  | conversion (s : Spec)
deriving DecidableEq

def piecesFrom : Nat → List UInt8 → List Piece
  | 0, _ => []
  | _ + 1, [] => []
  | fuel + 1, ch :: p =>
      if ch ≠ '%'.toUInt8 then
        .literal ch :: piecesFrom fuel p
      else
        let s := parseSpec (ch :: p)
        (if s.kind = .none then .percent else .conversion s) ::
          piecesFrom fuel ((ch :: p).drop s.totalLen)

/-- A format cut into literal characters, `%%` and conversions. -/
def pieces (fmt : List UInt8) : List Piece :=
  piecesFrom fmt.length fmt

section

variable (toDouble : BitVec 80 → BitVec 64)

/-- The value a supported conversion shows for its argument, if the types match. -/
def convert (s : Spec) (arg : Arg) : Option Value :=
  match s.kind with
  | .s64 => (vaSigned s.lenmod arg).map .s64
  | .u64 => (vaUnsigned s.lenmod arg).map .u64
  | .dbl => (vaDouble toDouble s.lenmod arg).map .dbl
  | .chr =>
      match arg with
      | .int value => some (.chr value)
      | _ => none
  | .ptr =>
      match arg with
      | .pointer value => some (.ptr value)
      | _ => none
  | .str =>
      match arg with
      | .string none => some (.str nullText)
      | .string (some text) => some (.str (text.take kStrMax))
      | _ => none
  | .none => none
  | .unsupported => none

/-- The bytes an argument takes in the argument buffer. -/
def argSize (s : Spec) (arg : Arg) : Nat :=
  match s.kind with
  | .chr => 4
  | .str =>
      match arg with
      | .string (some text) => 2 + min kStrMax text.length
      | _ => 2
  | _ => 8

/-- A string that is longer than what is captured of it. -/
def isCut : Arg → Bool
  | .string (some text) => kStrMax < text.length
  | _ => false

/-- The arguments have the types of the conversions up to the first unsupported one. -/
def ArgsMatch : List Piece → List Arg → Prop
  | [], _ => True
  | .literal _ :: rest, args => ArgsMatch rest args
  | .percent :: rest, args => ArgsMatch rest args
  | .conversion s :: rest, args =>
      s.kind = .unsupported ∨
        match args with
        | [] => False
        | arg :: args => (convert toDouble s arg).isSome = true ∧ ArgsMatch rest args

instance instDecidableArgsMatch : ∀ parts args, Decidable (ArgsMatch toDouble parts args)
  | [], _ => isTrue trivial
  | .literal _ :: rest, args => instDecidableArgsMatch rest args
  | .percent :: rest, args => instDecidableArgsMatch rest args
  | .conversion s :: _, [] => inferInstanceAs (Decidable (s.kind = .unsupported ∨ False))
  | .conversion s :: rest, arg :: args =>
      have := instDecidableArgsMatch rest args
      inferInstanceAs (Decidable (s.kind = .unsupported ∨
        ((convert toDouble s arg).isSome = true ∧ ArgsMatch toDouble rest args)))

/-- The text of pieces none of whose conversions can be answered any more. -/
def unansweredText : List Piece → List UInt8
  | [] => []
  | .literal ch :: rest => ch :: unansweredText rest
  | .percent :: rest => '%'.toUInt8 :: unansweredText rest
  | .conversion _ :: rest => unknownText ++ unansweredText rest

/-- The format for one conversion with its length modifier normalised. -/
def conversionFormat (s : Spec) : List UInt8 :=
  '%'.toUInt8 :: (s.specPrefix ++
    if s.kind = .s64 ∨ s.kind = .u64 then ['l'.toUInt8, 'l'.toUInt8, s.conv] else [s.conv])

variable (snprintf : List UInt8 → Value → Option (List UInt8))

/-- The text of a log call and whether it is marked as truncated, with `room` bytes left for
arguments; none where `snprintf` fails on a conversion. -/
def expectedText : List Piece → List Arg → Nat → Option (List UInt8 × Bool)
  | [], _, _ => some ([], false)
  | .literal ch :: rest, args, room => do
      let (text, marked) ← expectedText rest args room
      some (ch :: text, marked)
  | .percent :: rest, args, room => do
      let (text, marked) ← expectedText rest args room
      some ('%'.toUInt8 :: text, marked)
  | .conversion s :: rest, args, room =>
      if s.kind = .unsupported then
        some (unknownText ++ unansweredText rest, true)
      else
        match args with
        | [] => none
        | arg :: args => do
            let value ← convert toDouble s arg
            if argSize s arg ≤ room then
              let shown ← snprintf (conversionFormat s) value
              let (text, marked) ← expectedText rest args (room - argSize s arg)
              some (shown ++ text, isCut arg || marked)
            else
              some (unknownText ++ unansweredText rest, true)

end

/-! ## Parsed conversions -/

/-- The characters in use are exactly `text`, in a buffer of `cap` bytes. -/
structure Output.Holds (output : Output) (cap : Nat) (text : List UInt8) : Prop where
  size : output.out.length = cap
  used : output.used = text.length
  text : output.out.take text.length = text

variable {output : Output} {cap : Nat} {text : List UInt8}

theorem Output.Holds.store (holds : output.Holds cap text) (shown : List UInt8)
    (fits : (text ++ shown).length < cap) :
    ∃ out, poke output.out output.used (shown ++ [0]) = some out ∧
      Output.Holds ⟨out, output.used + shown.length⟩ cap (text ++ shown) := by
  rw [List.length_append] at fits
  have room : output.used + (shown ++ [0]).length ≤ output.out.length := by
    rw [holds.used, holds.size, List.length_append, List.length_singleton]
    omega
  obtain ⟨out, stored, size, front⟩ := poke_fits room
  refine ⟨out, stored, size.trans holds.size, ?_, ?_⟩
  · rw [holds.used, List.length_append]
  · have shorter : (text ++ shown).length ≤ output.used + (shown ++ [(0 : UInt8)]).length := by
      rw [holds.used, List.length_append, List.length_append]
      omega
    rw [← Nat.min_eq_left shorter, ← List.take_take, front, holds.used, holds.text,
      ← List.append_assoc, List.take_left]

theorem Output.Holds.appendLiteral (holds : output.Holds cap text) (ch : UInt8)
    (fits : (text ++ [ch]).length < cap) :
    ∃ after, output.appendLiteral cap ch = some after ∧ after.Holds cap (text ++ [ch]) := by
  obtain ⟨out, stored, after⟩ := holds.store [ch] fits
  have room : output.used + 1 < cap := by
    rw [List.length_append, List.length_singleton] at fits
    rwa [holds.used]
  refine ⟨⟨out, output.used + 1⟩, ?_, after⟩
  have adjacent : output.used + 1 = output.used + [ch].length := rfl
  simp only [Output.appendLiteral, if_pos room, Option.bind_eq_bind]
  rw [poke_bind_poke_bind adjacent, stored, Option.bind_some]

theorem Output.Holds.print (holds : output.Holds cap text) (shown : List UInt8)
    (fits : (text ++ shown).length < cap) :
    ∃ out, output.print (cap - output.used) (some shown) = some (out, shown.length) ∧
      Output.Holds ⟨out, output.used + shown.length⟩ cap (text ++ shown) := by
  obtain ⟨out, stored, after⟩ := holds.store shown fits
  rw [List.length_append] at fits
  have remain : ¬ cap - output.used = 0 := by
    rw [holds.used]
    omega
  have whole : shown.take (cap - output.used - 1) = shown := by
    apply List.take_of_length_le
    rw [holds.used]
    omega
  refine ⟨out, ?_, after⟩
  rw [Output.print, if_neg remain, whole, stored]
  rfl

theorem advance_eq {used count : Nat} (small : cap < 2 ^ 64) (fits : used + count < cap) :
    advance cap used count = used + count := by
  have exact : (used + count) % 2 ^ 64 = used + count := Nat.mod_eq_of_lt (by omega)
  rw [advance, exact]
  split <;> omega

/-! ## One argument -/

section

variable {toDouble : BitVec 80 → BitVec 64} {s : Spec} {arg : Arg} {value : Value}

end

/-! ## The two loops -/

section

variable {toDouble : BitVec 80 → BitVec 64} {snprintf : List UInt8 → Value → Option (List UInt8)}

/-- A consumer at `p`, reading behind the bytes in `front`, appends exactly `shown`. -/
def RendersAs (snprintf : List UInt8 → Value → Option (List UInt8)) (cap fuel : Nat)
    (p front bytes shown : List UInt8) : Prop :=
  ∀ output text, output.Holds cap text → (text ++ shown).length < cap →
    ∃ after, renderLoop snprintf cap fuel p ⟨front ++ bytes, front.length⟩ false output =
        some after ∧ after.Holds cap (text ++ shown)

/-- What the producer captures from `p` on makes the consumer render the expected text. -/
def Agrees (toDouble : BitVec 80 → BitVec 64)
    (snprintf : List UInt8 → Value → Option (List UInt8)) (fuel : Nat) (p : List UInt8)
    (args : List Arg) (w : BlobWriter) (truncated : Bool) : Prop :=
  ∃ bytes overflow marked,
    serializeLoop toDouble fuel p args w truncated =
      some (⟨w.bytes ++ bytes, overflow⟩, marked) ∧
    ∀ shown mark, expectedText toDouble snprintf (piecesFrom fuel p) args
        (kArgBufLen - w.bytes.length) = some (shown, mark) →
      (marked || overflow) = ((truncated || w.overflow) || mark) ∧
      ∀ cap, cap < 2 ^ 64 → RendersAs snprintf cap fuel p w.bytes bytes shown

variable {fuel : Nat} {ch : UInt8} {p : List UInt8} {args : List Arg} {w : BlobWriter}
  {truncated : Bool}

end

end FreeDV.Util
