import FreeDV.Pipeline.LdpcDecode

/-!
# Reliable text over RADE

`rade_text.cpp` sends up to eight characters as one LDPC(112, 56) block of QPSK
symbols and recovers them at the receiver. Strings are the bytes behind a
`const char *`; reading past the end of the list reads the terminating NUL.
-/

set_option autoImplicit false

namespace FreeDV.Pipeline

open FloatArith (lit lt)

section Text

/-- The loop shared by both conversions: at most `maxLength` characters, stopping at NUL,
and leaving out every character without an entry in the table. -/
def convertString (table : UInt8 → Option UInt8) : List UInt8 → Nat → List UInt8
  | _, 0 => []
  | [], _ + 1 => []
  | ch :: rest, maxLength + 1 =>
      if ch = 0 then []
      else (table ch).toList ++ convertString table rest maxLength

/-- The 6 bit code of a character. -/
def otaCode (ch : UInt8) : Option UInt8 :=
  if 38 ≤ ch ∧ ch ≤ 46 then some (ch - 37)
  else if ch = 47 then some 46
  else if 48 ≤ ch ∧ ch ≤ 57 then some (ch - 48 + 10)
  else if 65 ≤ ch ∧ ch ≤ 90 then some (ch - 65 + 20)
  else if 97 ≤ ch ∧ ch ≤ 122 then some (ch - 32 - 65 + 20)
  else none

def convertCallsignToOtaString (input : List UInt8) (maxLength : Nat) : List UInt8 :=
  convertString otaCode input maxLength

/-- The character of a 6 bit code. -/
def callsignChar (code : UInt8) : Option UInt8 :=
  if 1 ≤ code ∧ code ≤ 9 then some (code + 37)
  else if 10 ≤ code ∧ code ≤ 19 then some (code - 10 + 48)
  else if 20 ≤ code ∧ code ≤ 45 then some (code - 20 + 65)
  else if code = 46 then some 47
  else none

def convertOtaStringToCallsign (input : List UInt8) (maxLength : Nat) : List UInt8 :=
  convertString callsignChar input maxLength

/-- One shift of the CRC register with generator `0x1D`. -/
def crcShift (crc : UInt8) : UInt8 :=
  if crc &&& 0x80 ≠ 0 then (crc <<< 1) ^^^ 0x1D else crc <<< 1

/-- The register after one more input byte. -/
def crcByte (crc ch : UInt8) : UInt8 := crcShift^[8] (crc ^^^ ch)

/-- The loop of `calculateCRC8_` from a given register. -/
def crcLoop : UInt8 → List UInt8 → Nat → UInt8
  | crc, _, 0 => crc
  | crc, [], _ + 1 => crc
  | crc, ch :: rest, length + 1 => if ch = 0 then crc else crcLoop (crcByte crc ch) rest length

def calculateCRC8 (input : List UInt8) (length : Nat) : UInt8 := crcLoop 0 input length

def strlen (input : List UInt8) : Nat := (input.takeWhile (· ≠ 0)).length

/-- `(INTERLEAVER_B * index) % syms` for the 56 symbols of a block. -/
def interleavedIndex (index : Fin 56) : Fin 56 := ⟨37 * index.val % 56, by omega⟩

/-- Bit `2 * index` of a block of symbols. -/
def evenBit (index : Fin 56) : Fin 112 := ⟨2 * index.val, by omega⟩

/-- Bit `2 * index + 1` of a block of symbols. -/
def oddBit (index : Fin 56) : Fin 112 := ⟨2 * index.val + 1, by omega⟩

def interleaveBits (out input : Bytes 112) : Bytes 112 :=
  (List.finRange 56).foldl
    (fun out index =>
      Function.update
        (Function.update out (evenBit (interleavedIndex index)) (input (evenBit index)))
        (oddBit (interleavedIndex index)) (input (oddBit index)))
    out

/-- The bit `index` of a byte, as a test with `1 << index`. -/
def hasBit (byte : UInt8) (index : Nat) : Bool := byte.toNat.testBit index

/-- The 56 information bits: eight CRC bits, then eight 6 bit characters. -/
def packBits (tmp : Bytes 10) : Bytes 56 := fun index =>
  if index.val < 8 then
    if hasBit (tmp 0) index.val then 1 else 0
  else
    if hasBit (tmp ⟨1 + (index.val - 8) / 6, by omega⟩) ((index.val - 8) % 6) then 1 else 0

/-- `dest[slot] |= 1 << bit` when the message bit is set. -/
def orBit (dest : Bytes 10) (slot : Fin 10) (bit : Nat) (message : UInt8) : Bytes 10 :=
  if message ≠ 0 then Function.update dest slot (dest slot ||| (1 <<< UInt8.ofNat bit)) else dest

/-- The byte of `dest` a message bit belongs to. -/
def destSlot (bitIndex : Fin 56) : Fin 10 :=
  if bitIndex.val < 8 then 0 else ⟨1 + (bitIndex.val - 8) / 6, by omega⟩

/-- The position of a message bit within its byte of `dest`. -/
def destBit (bitIndex : Fin 56) : Nat :=
  if bitIndex.val < 8 then bitIndex.val else (bitIndex.val - 8) % 6

/-- The two loops that put the decoded information bits back into bytes. -/
def unpackBits (message : Bytes 112) : Bytes 10 :=
  (List.finRange 56).foldl
    (fun dest bitIndex =>
      orBit dest (destSlot bitIndex) (destBit bitIndex) (message (infoColumn bitIndex)))
    (fun _ => 0)

/-- The string starting at index `RADE_TEXT_CRC_LENGTH` of a raw buffer. -/
def textOf (raw : Bytes 10) : List UInt8 := (List.finRange 9).map fun k => raw k.succ

end Text

section Transfer

variable {F : Type} [FloatArith F]

/-- `RadeTextImpl`, without the fields nothing reads back. -/
structure RadeTextImpl (F : Type) where
  /-- Whether `rade_text_set_rx_callback` registered a callback. -/
  textRxCallback : Bool
  txText : Bytes 112
  inboundPendingSyms : Fin 56 → RadeComp F
  inboundPendingAmps : Fin 56 → F
  enableStats : Bool
  unusedEooBitCount : Nat
  unusedEooErrCount : Nat

def radeTextCreate : RadeTextImpl F where
  textRxCallback := false
  txText := fun _ => 0
  inboundPendingSyms := fun _ => ⟨lit 0, lit 0⟩
  inboundPendingAmps := fun _ => lit 0
  enableStats := true
  unusedEooBitCount := 0
  unusedEooErrCount := 0

/-- `rade_text_set_rx_callback` with a callback. -/
def radeTextSetRxCallback (impl : RadeTextImpl F) : RadeTextImpl F :=
  { impl with textRxCallback := true }

def radeTextEnableStatsOutput (impl : RadeTextImpl F) (enable : Bool) : RadeTextImpl F :=
  { impl with enableStats := enable }

/-- The QPSK symbol of two bits; other byte values leave the buffer as it was. -/
def qpskSymbol (first second : UInt8) (old : RadeComp F) : RadeComp F :=
  if first = 0 ∧ second = 0 then ⟨lit 1, lit 0⟩
  else if first = 0 ∧ second = 1 then ⟨lit 0, lit 1⟩
  else if first = 1 ∧ second = 0 then ⟨lit 0, lit (-1)⟩
  else if first = 1 ∧ second = 1 then ⟨lit (-1), lit 0⟩
  else old

/-- The raw buffer of the transmitter: the CRC and the converted string. -/
def rawText (str : List UInt8) (strlength : Nat) : Bytes 10 :=
  let ota := convertCallsignToOtaString str (if strlength < 8 then strlength else 8)
  let txtLength := if strlen ota ≥ 8 then 8 else strlen ota
  fun k => if k.val = 0 then calculateCRC8 ota txtLength else ota.getD (k.val - 1) 0

/-- The 112 bits handed to the interleaver. -/
def blockBits (tmp : Bytes 10) : Bytes 112 :=
  let ibits := packBits tmp
  let totalBits := ldpcEncode ibits
  fun k => if info : k.val < 56 then ibits ⟨k.val, info⟩ else totalBits k

/-- `rade_text_generate_tx_string`, with `symSize` the number of floats in the buffer. -/
def radeTextGenerateTxString (impl : RadeTextImpl F) (str : List UInt8) (strlength : Nat)
    (syms : Nat → F) (symSize : Nat) : RadeTextImpl F × (Nat → F) :=
  let txText := interleaveBits (fun _ => 0) (blockBits (rawText str strlength))
  let sym := fun index : Fin 56 =>
    qpskSymbol (txText (evenBit index)) (txText (oddBit index))
      ⟨syms (2 * index.val), syms (2 * index.val + 1)⟩
  let out := fun position =>
    if info : position < 112 then
      if position % 2 = 0 then (sym ⟨position / 2, by omega⟩).real
      else (sym ⟨position / 2, by omega⟩).imag
    else if position < symSize then
      if position % 2 ≠ 0 then lit 0 else lit 1
    else syms position
  ({ impl with txText }, out)

/-- The library functions the receiver calls on floats. -/
structure Libm (F : Type) where
  sqrt : F → F
  /-- `phi` of the LDPC decoder. -/
  phi : F → F

/-- `deinterleave_comp` on the received floats. -/
def deinterleaveComp (syms : Nat → F) : Fin 56 → RadeComp F := fun index =>
  ⟨syms (2 * (interleavedIndex index).val), syms (2 * (interleavedIndex index).val + 1)⟩

/-- The totals gathered over the unused part of the EOO. -/
structure EooStats (F : Type) where
  ss : F
  ssCnt : Nat
  bitCount : Nat
  errCount : Nat

/-- One symbol of the loop over all received symbols, with respect to noise estimation. -/
def eooStep (libm : Libm F) (enableStats : Bool) (syms : Nat → F) (stats : EooStats F)
    (index : Nat) : EooStats F :=
  if index < 56 then stats
  else
    let real := syms (2 * index)
    let imag := syms (2 * index + 1)
    let symAmp := libm.sqrt (real * real + imag * imag)
    let stats :=
      if lt (lit 0) symAmp then
        let errR := lit 1 - real / symAmp
        let errI := lit 0 - imag / symAmp
        { stats with ss := stats.ss + errR * errR + errI * errI, ssCnt := stats.ssCnt + 2 }
      else stats
    if enableStats then
      { stats with
        bitCount := stats.bitCount + 2
        errCount := if lt imag (lit 0) then stats.errCount + 1 else stats.errCount }
    else stats

/-- `rade_text_ldpc_decode`: the raw buffer, when the decoder converged. -/
def radeTextLdpcDecode (libm : Libm F) (obj : RadeTextImpl F) (noiseVar : F) :
    Option (Bytes 10) :=
  let sigma2 := if lt noiseVar (lit (1 / 10 ^ 6)) then lit (1 / 10 ^ 6) else noiseVar
  let decodeResult :=
    ldpcDecode libm.phi obj.inboundPendingSyms obj.inboundPendingAmps sigma2 30
  if decodeResult.converged then some (unpackBits decodeResult.message) else none

/-- One call of the text callback: the string and the length passed with it. -/
structure TextRx where
  txt : List UInt8
  length : Nat
  deriving DecidableEq

/-- The end of `rade_text_rx`: the callback calls made for a decoded raw buffer. -/
def deliverText (textRxCallback : Bool) (raw : Bytes 10) : List TextRx :=
  let decoded := convertOtaStringToCallsign (textOf raw) 8
  let calcCRC := calculateCRC8 (textOf raw) 8
  if raw 0 = calcCRC ∧ textRxCallback then [⟨decoded, strlen decoded⟩] else []

/-- The part of `rade_text_rx` before decoding: deinterleaved and normalized symbols with their
amplitudes, the counts of the unused part of the EOO, and the noise variance. -/
def prepareDecode (libm : Libm F) (obj : RadeTextImpl F) (syms : Nat → F) (symSize : Nat) :
    RadeTextImpl F × F :=
  let received := deinterleaveComp syms
  let stats := (List.range symSize).foldl (eooStep libm obj.enableStats syms) ⟨lit 0, 0, 0, 0⟩
  let amp := fun index =>
    libm.sqrt (((received index).real * (received index).real) +
      (received index).imag * (received index).imag)
  ({ obj with
      inboundPendingSyms := fun index =>
        ⟨(received index).real / amp index, (received index).imag / amp index⟩
      inboundPendingAmps := amp
      unusedEooBitCount := stats.bitCount
      unusedEooErrCount := stats.errCount },
    stats.ss / lit ((stats.ssCnt : Int) - 1 : Int))

/-- `rade_text_rx`, with the callback calls it makes. -/
def radeTextRx (libm : Libm F) (obj : RadeTextImpl F) (syms : Nat → F) (symSize : Nat) :
    RadeTextImpl F × List TextRx :=
  let prepared := prepareDecode libm obj syms symSize
  (prepared.1, (radeTextLdpcDecode libm prepared.1 prepared.2).elim []
    (deliverText prepared.1.textRxCallback))

end Transfer

end FreeDV.Pipeline
