import FreeDV.Lib.Bytes
import FreeDV.Lib.Memory

/-!
# Deferred formatting of log messages

A log call captures its unformatted arguments into a bounded byte buffer; the
consumer thread walks the same format again and renders them one conversion at
a time. Strings are the bytes in front of their NUL. `snprintf` for a single
conversion is a parameter: the text it makes, or none where it fails. Integers
are those of an LP64 platform, and long double is converted by a parameter.
-/

set_option autoImplicit false

namespace FreeDV.Util

open FreeDV.Lib

def kArgBufLen : Nat := 384
def kStrMax : Nat := 160
def kSpecPrefixMax : Nat := 24

/-! ## Conversion specifications -/

inductive ArgKind where
  | none | s64 | u64 | dbl | chr | str | ptr | unsupported
deriving DecidableEq

inductive LenMod where
  | none | h | hh | l | ll | j | z | t | longDouble
deriving DecidableEq

structure Spec where
  kind : ArgKind
  lenmod : LenMod
  conv : UInt8
  totalLen : Nat
  specPrefix : List UInt8
  prefixFits : specPrefix.length ≤ kSpecPrefixMax
deriving DecidableEq

def isFlag (ch : UInt8) : Bool :=
  ch ∈ ['-'.toUInt8, '+'.toUInt8, ' '.toUInt8, '#'.toUInt8, '0'.toUInt8]

def isDigit (ch : UInt8) : Bool :=
  '0'.toUInt8 ≤ ch ∧ ch ≤ '9'.toUInt8

/-- The characters `unsupportedSpecLen` skips: `0123456789.*$-+ #hljztL`. -/
def isSpecChar (ch : UInt8) : Bool :=
  isDigit ch ∨ ch ∈ ['.'.toUInt8, '*'.toUInt8, '$'.toUInt8, '-'.toUInt8, '+'.toUInt8, ' '.toUInt8,
    '#'.toUInt8, 'h'.toUInt8, 'l'.toUInt8, 'j'.toUInt8, 'z'.toUInt8, 't'.toUInt8, 'L'.toUInt8]

/-- `p` is a suffix of `start`; the result is the length of the whole conversion. -/
def unsupportedSpecLen (start p : List UInt8) : Nat :=
  let p := p.dropWhile isSpecChar
  start.length - (p.drop 1).length

def unsupportedSpec (totalLen : Nat) (lenmod : LenMod) (specPrefix : List UInt8)
    (prefixFits : specPrefix.length ≤ kSpecPrefixMax) : Spec where
  kind := .unsupported
  lenmod := lenmod
  conv := 0
  totalLen := totalLen
  specPrefix := specPrefix
  prefixFits := prefixFits

def parseLenMod (p : List UInt8) : LenMod × List UInt8 :=
  if p.head? = some 'h'.toUInt8 then
    let p := p.drop 1
    if p.head? = some 'h'.toUInt8 then (.hh, p.drop 1) else (.h, p)
  else if p.head? = some 'l'.toUInt8 then
    let p := p.drop 1
    if p.head? = some 'l'.toUInt8 then (.ll, p.drop 1) else (.l, p)
  else if p.head? = some 'j'.toUInt8 then (.j, p.drop 1)
  else if p.head? = some 'z'.toUInt8 then (.z, p.drop 1)
  else if p.head? = some 't'.toUInt8 then (.t, p.drop 1)
  else if p.head? = some 'L'.toUInt8 then (.longDouble, p.drop 1)
  else (.none, p)

def convKind (lenmod : LenMod) (conv : UInt8) : ArgKind :=
  if conv ∈ ['d'.toUInt8, 'i'.toUInt8] then .s64
  else if conv ∈ ['u'.toUInt8, 'o'.toUInt8, 'x'.toUInt8, 'X'.toUInt8] then .u64
  else if conv ∈ ['f'.toUInt8, 'F'.toUInt8, 'e'.toUInt8, 'E'.toUInt8, 'g'.toUInt8, 'G'.toUInt8,
      'a'.toUInt8, 'A'.toUInt8] then .dbl
  else if conv = 'c'.toUInt8 then (if lenmod = .l then .unsupported else .chr)
  else if conv = 's'.toUInt8 then (if lenmod = .l then .unsupported else .str)
  else if conv = 'p'.toUInt8 then .ptr
  else .unsupported

/-- The part of `parseSpec` behind flags, width and precision, which end at `p`. -/
def parseConversion (start prefixStart p : List UInt8) : Spec :=
  let specPrefix := (prefixStart.take (prefixStart.length - p.length)).take kSpecPrefixMax
  have prefixFits : specPrefix.length ≤ kSpecPrefixMax := List.length_take_le ..
  let (lenmod, p) := parseLenMod p
  match p with
  | [] => unsupportedSpec (start.length - p.length) lenmod specPrefix prefixFits
  | conv :: _ =>
      { kind := convKind lenmod conv
        lenmod := lenmod
        conv := conv
        totalLen := start.length - p.length + 1
        specPrefix := specPrefix
        prefixFits := prefixFits }

/-- `start` points at a `%`. -/
def parseSpec (start : List UInt8) : Spec :=
  let unsupported p := unsupportedSpec (unsupportedSpecLen start p) .none [] (Nat.zero_le _)
  let p := start.drop 1
  if p.head? = some '%'.toUInt8 then
    { kind := .none, lenmod := .none, conv := 0, totalLen := 2, specPrefix := []
      prefixFits := Nat.zero_le _ }
  else
    let prefixStart := p
    let p := p.dropWhile isFlag
    if p.head? = some '*'.toUInt8 then unsupported p
    else
      let p := p.dropWhile isDigit
      if p.head? = some '$'.toUInt8 then unsupported p
      else if p.head? = some '.'.toUInt8 then
        let p := p.drop 1
        if p.head? = some '*'.toUInt8 then unsupported p
        else parseConversion start prefixStart (p.dropWhile isDigit)
      else parseConversion start prefixStart p

/-! ## Producer -/

/-- An argument as it is passed through `...`: `int` and `long` stand for every integer type of
that width, signed or not. -/
inductive Arg where
  | int (value : BitVec 32)
  | long (value : BitVec 64)
  | double (bits : BitVec 64)
  | longDouble (bits : BitVec 80)
  | pointer (value : BitVec 64)
  | string (text : Option (List UInt8))
deriving DecidableEq

/-- `buf[0 .. len)` and the overflow flag of a writer of capacity `kArgBufLen`. -/
structure BlobWriter where
  bytes : List UInt8
  overflow : Bool
deriving DecidableEq

def BlobWriter.put (self : BlobWriter) (value : List UInt8) : Bool × BlobWriter :=
  if self.bytes.length + value.length > kArgBufLen then
    (false, { self with overflow := true })
  else
    (true, { self with bytes := self.bytes ++ value })

/-- The parts of a record that formatting reads; `argLen` is the length of `args`. -/
structure Message where
  fmt : List UInt8
  args : List UInt8
  truncated : Bool
deriving DecidableEq

/-- The signed value a conversion reads, widened to `long long`. Length modifiers that C does
not define for it read an `int`. -/
def vaSigned : LenMod → Arg → Option (BitVec 64)
  | .l, .long value => some value
  | .ll, .long value => some value
  | .j, .long value => some value
  | .z, .long value => some value
  | .t, .long value => some value
  | .hh, .int value => some ((value.setWidth 8).signExtend 64)
  | .h, .int value => some ((value.setWidth 16).signExtend 64)
  | .none, .int value => some (value.signExtend 64)
  | .longDouble, .int value => some (value.signExtend 64)
  | _, _ => none

def vaUnsigned : LenMod → Arg → Option (BitVec 64)
  | .l, .long value => some value
  | .ll, .long value => some value
  | .j, .long value => some value
  | .z, .long value => some value
  | .t, .long value => some value
  | .hh, .int value => some ((value.setWidth 8).setWidth 64)
  | .h, .int value => some ((value.setWidth 16).setWidth 64)
  | .none, .int value => some (value.setWidth 64)
  | .longDouble, .int value => some (value.setWidth 64)
  | _, _ => none

section

variable (toDouble : BitVec 80 → BitVec 64)

def vaDouble (lenmod : LenMod) (arg : Arg) : Option (BitVec 64) :=
  if lenmod = .longDouble then
    match arg with
    | .longDouble bits => some (toDouble bits)
    | _ => none
  else
    match arg with
    | .double bits => some bits
    | _ => none

/-- Captures the argument of one supported conversion: whether it fitted, and the new state.
None is a `va_arg` of the wrong type. -/
def serializeArg (s : Spec) (arg : Arg) (w : BlobWriter) (truncated : Bool) :
    Option (Bool × BlobWriter × Bool) :=
  match s.kind with
  | .s64 => do
      let v ← vaSigned s.lenmod arg
      let (ok, w) := w.put (leBytes 8 v.toNat)
      some (ok, w, truncated)
  | .u64 => do
      let v ← vaUnsigned s.lenmod arg
      let (ok, w) := w.put (leBytes 8 v.toNat)
      some (ok, w, truncated)
  | .dbl => do
      let v ← vaDouble toDouble s.lenmod arg
      let (ok, w) := w.put (leBytes 8 v.toNat)
      some (ok, w, truncated)
  | .chr =>
      match arg with
      | .int v =>
          let (ok, w) := w.put (leBytes 4 v.toNat)
          some (ok, w, truncated)
      | _ => none
  | .ptr =>
      match arg with
      | .pointer v =>
          let (ok, w) := w.put (leBytes 8 v.toNat)
          some (ok, w, truncated)
      | _ => none
  | .str =>
      match arg with
      | .string none =>
          let (ok, w) := w.put (leBytes 2 0xFFFF)
          some (ok, w, truncated)
      | .string (some str) =>
          let sl := min kStrMax str.length
          let truncated := truncated || decide (sl < str.length)
          let (ok, w) := w.put (leBytes 2 sl)
          if ok then
            let (ok, w) := w.put (str.take sl)
            some (ok, w, truncated)
          else some (false, w, truncated)
      | _ => none
  | .none => some (false, w, truncated)
  | .unsupported => some (false, w, truncated)

/-- The loop of `serializeArgs` at `p`; every round consumes at least one character. -/
def serializeLoop : Nat → List UInt8 → List Arg → BlobWriter → Bool → Option (BlobWriter × Bool)
  | _, [], _, w, truncated => some (w, truncated)
  | 0, _ :: _, _, _, _ => none
  | fuel + 1, ch :: p, ap, w, truncated =>
      if ch ≠ '%'.toUInt8 then
        serializeLoop fuel p ap w truncated
      else
        let s := parseSpec (ch :: p)
        let p := (ch :: p).drop s.totalLen
        if s.kind = .none then
          serializeLoop fuel p ap w truncated
        else if s.kind = .unsupported then
          some (w, true)
        else
          match ap with
          | [] => none
          | arg :: ap => do
              let (ok, w, truncated) ← serializeArg toDouble s arg w truncated
              if ok then serializeLoop fuel p ap w truncated else some (w, true)

end

/-! ## Consumer -/

/-- The value handed to `snprintf` for one conversion. -/
inductive Value where
  | s64 (value : BitVec 64)
  | u64 (value : BitVec 64)
  | dbl (bits : BitVec 64)
  | chr (value : BitVec 32)
  | ptr (value : BitVec 64)
  | str (text : List UInt8)
deriving DecidableEq

structure BlobReader where
  buf : List UInt8
  pos : Nat
deriving DecidableEq

/-- Both `get` and `peek`. -/
def BlobReader.get (self : BlobReader) (n : Nat) : Option (List UInt8 × BlobReader) :=
  if self.pos + n > self.buf.length then none
  else some ((self.buf.drop self.pos).take n, { self with pos := self.pos + n })

/-- The single-conversion format rebuilt for `snprintf`, cut to `sizeof spec - 1`. -/
def rebuildSpec (s : Spec) : List UInt8 :=
  let tail : List UInt8 :=
    match s.kind with
    | .s64 => ['l'.toUInt8, 'l'.toUInt8, s.conv]
    | .u64 => ['l'.toUInt8, 'l'.toUInt8, s.conv]
    | .ptr => ['p'.toUInt8]
    | .str => ['s'.toUInt8]
    | _ => [s.conv]
  ('%'.toUInt8 :: (s.specPrefix ++ tail)).take (kSpecPrefixMax + 8 - 1)

def nullText : List UInt8 :=
  ['('.toUInt8, 'n'.toUInt8, 'u'.toUInt8, 'l'.toUInt8, 'l'.toUInt8, ')'.toUInt8]

def readNumber (width : Nat) (r : BlobReader) : Option (Nat × BlobReader) := do
  let (bytes, r) ← r.get width
  some (leValue bytes, r)

/-- Reads the argument of one conversion; none means the arguments are exhausted. -/
def readArg (kind : ArgKind) (r : BlobReader) : Option (Value × BlobReader) :=
  match kind with
  | .s64 => do
      let (v, r) ← readNumber 8 r
      some (.s64 (BitVec.ofNat 64 v), r)
  | .u64 => do
      let (v, r) ← readNumber 8 r
      some (.u64 (BitVec.ofNat 64 v), r)
  | .dbl => do
      let (v, r) ← readNumber 8 r
      some (.dbl (BitVec.ofNat 64 v), r)
  | .chr => do
      let (v, r) ← readNumber 4 r
      some (.chr (BitVec.ofNat 32 v), r)
  | .ptr => do
      let (v, r) ← readNumber 8 r
      some (.ptr (BitVec.ofNat 64 v), r)
  | .str => do
      let (sl, r) ← readNumber 2 r
      if sl = 0xFFFF then
        some (.str nullText, r)
      else
        let (text, r) ← r.get sl
        some (.str text, r)
  | _ => none

/-- The output buffer and the number of characters in use. -/
structure Output where
  out : List UInt8
  used : Nat
deriving DecidableEq

def Output.appendLiteral (self : Output) (cap : Nat) (ch : UInt8) : Option Output :=
  if self.used + 1 < cap then do
    let out ← poke self.out self.used [ch]
    let out ← poke out (self.used + 1) [0]
    some ⟨out, self.used + 1⟩
  else some self

/-- `snprintf(out + used, remain, ...)`: what fits is stored with a NUL, the length of the whole
text is returned. A failing call returns `(size_t)-1` and is taken to store nothing. -/
def Output.print (self : Output) (remain : Nat) (text : Option (List UInt8)) :
    Option (List UInt8 × Nat) :=
  match text with
  | none => some (self.out, 2 ^ 64 - 1)
  | some text =>
      if remain = 0 then some (self.out, text.length)
      else do
        let out ← poke self.out self.used (text.take (remain - 1) ++ [0])
        some (out, text.length)

def unknownText : List UInt8 := ['<'.toUInt8, '?'.toUInt8, '>'.toUInt8]

section

variable (snprintf : List UInt8 → Value → Option (List UInt8))

/-- `if (n > 0 && used + n < cap) used += n;` in the arithmetic of `size_t`. -/
def advance (cap used n : Nat) : Nat :=
  if n > 0 ∧ (used + n) % 2 ^ 64 < cap then (used + n) % 2 ^ 64 else used

def renderLoop (cap : Nat) :
    Nat → List UInt8 → BlobReader → Bool → Output → Option Output
  | _, [], _, _, output => some output
  | 0, _ :: _, _, _, _ => none
  | fuel + 1, ch :: p, r, argsExhausted, output =>
      if ch ≠ '%'.toUInt8 then do
        let output ← output.appendLiteral cap ch
        renderLoop cap fuel p r argsExhausted output
      else
        let s := parseSpec (ch :: p)
        let p := (ch :: p).drop s.totalLen
        if s.kind = .none then do
          let output ← output.appendLiteral cap '%'.toUInt8
          renderLoop cap fuel p r argsExhausted output
        else if s.kind = .unsupported ∨ argsExhausted = true then do
          let (out, n) ← output.print (cap - output.used) (some unknownText)
          renderLoop cap fuel p r true ⟨out, advance cap output.used n⟩
        else
          let remain := cap - output.used
          match readArg s.kind r with
          | none => do
              let (out, n) ← output.print remain (some unknownText)
              let used := if n > 0 ∧ (output.used + n) % 2 ^ 64 < cap then
                (output.used + n) % 2 ^ 64 else if n > 0 then cap - 1 else output.used
              renderLoop cap fuel p r true ⟨out, used⟩
          | some (value, r) => do
              let (out, n) ← output.print remain (snprintf (rebuildSpec s) value)
              let used := if n > 0 ∧ (output.used + n) % 2 ^ 64 < cap then
                (output.used + n) % 2 ^ 64 else if n > 0 then cap - 1 else output.used
              renderLoop cap fuel p r false ⟨out, used⟩

end

end FreeDV.Util
