import FreeDV.Lib.Ipfix
import FreeDV.Lib.Memory
import FreeDV.Lib.Transition

/-!
# The PSK Reporter client

Records are collected under a lock and sent as one IPFIX datagram by a
background thread. The datagram is written through raw pointers into a zeroed
buffer whose size is computed up front; `poke` keeps the writes honest. Strings
are their bytes, `time(0)` is an argument of the functions that read the clock.
-/

set_option autoImplicit false

namespace FreeDV.Reporting

open FreeDV.Lib
open FreeDV.Lib.Ipfix

def rxFormatHeader : List UInt8 :=
  [0x00, 0x03, 0x00, 0x24, 0x99, 0x92, 0x00, 0x03, 0x00, 0x00,
   0x80, 0x02, 0xFF, 0xFF, 0x00, 0x00, 0x76, 0x8F,
   0x80, 0x04, 0xFF, 0xFF, 0x00, 0x00, 0x76, 0x8F,
   0x80, 0x08, 0xFF, 0xFF, 0x00, 0x00, 0x76, 0x8F,
   0x00, 0x00]

def txFormatHeader : List UInt8 :=
  [0x00, 0x02, 0x00, 0x34, 0x99, 0x93, 0x00, 0x06,
   0x80, 0x01, 0xFF, 0xFF, 0x00, 0x00, 0x76, 0x8F,
   0x80, 0x05, 0x00, 0x05, 0x00, 0x00, 0x76, 0x8F,
   0x80, 0x06, 0x00, 0x01, 0x00, 0x00, 0x76, 0x8F,
   0x80, 0x0A, 0xFF, 0xFF, 0x00, 0x00, 0x76, 0x8F,
   0x80, 0x0B, 0x00, 0x01, 0x00, 0x00, 0x76, 0x8F,
   0x00, 0x96, 0x00, 0x04]

structure SenderRecord where
  callsign : List UInt8
  frequency : UInt64
  snr : Int8
  mode : List UInt8
  infoSource : UInt8
  flowTimeSeconds : Int32
deriving DecidableEq

namespace SenderRecord

/-- The constructor; the mode is the text `FREEDV`. -/
def make (callsign : List UInt8) (frequency : UInt64) (snr : Int8) (now : Int64) :
    SenderRecord where
  callsign := callsign
  frequency := frequency
  snr := snr
  mode := [0x46, 0x52, 0x45, 0x45, 0x44, 0x56]
  infoSource := 1
  flowTimeSeconds := now.toInt32

def recordSize (self : SenderRecord) : Nat :=
  (1 + self.callsign.length) + 5 + 1 + (1 + self.mode.length) + 1 + 4

def encode (self : SenderRecord) (buf : List UInt8) (start : Nat) : Option (List UInt8) := do
  let fieldPtr := start
  let buf ← poke buf fieldPtr [UInt8.ofNat self.callsign.length]
  let buf ← poke buf (fieldPtr + 1) self.callsign
  let fieldPtr := fieldPtr + (1 + self.callsign.length)
  let buf ← poke buf fieldPtr [((self.frequency >>> 32) &&& 0xff).toUInt8]
  let buf ← poke buf (fieldPtr + 1) [((self.frequency >>> 24) &&& 0xff).toUInt8]
  let buf ← poke buf (fieldPtr + 2) [((self.frequency >>> 16) &&& 0xff).toUInt8]
  let buf ← poke buf (fieldPtr + 3) [((self.frequency >>> 8) &&& 0xff).toUInt8]
  let buf ← poke buf (fieldPtr + 4) [(self.frequency &&& 0xff).toUInt8]
  let fieldPtr := fieldPtr + 5
  let buf ← poke buf fieldPtr [self.snr.toUInt8]
  let fieldPtr := fieldPtr + 1
  let buf ← poke buf fieldPtr [UInt8.ofNat self.mode.length]
  let buf ← poke buf (fieldPtr + 1) self.mode
  let fieldPtr := fieldPtr + (1 + self.mode.length)
  let buf ← poke buf fieldPtr [self.infoSource]
  let fieldPtr := fieldPtr + 1
  poke buf fieldPtr (beBytes 4 self.flowTimeSeconds.toUInt32.toNat)

end SenderRecord

structure PskReporter where
  currentSequenceNumber : UInt32
  randomIdentifier : UInt32
  receiverCallsign : List UInt8
  receiverGridSquare : List UInt8
  decodingSoftware : List UInt8
  recordList : List SenderRecord
deriving DecidableEq

namespace PskReporter

/-- Pads a size to the next aligned boundary. -/
def alignSize (size : Nat) : Nat :=
  if size % 4 > 0 then size + (4 - size % 4) else size

def getRxDataSize (self : PskReporter) : Nat :=
  alignSize (4 + (1 + self.receiverCallsign.length) + (1 + self.receiverGridSquare.length) +
    (1 + self.decodingSoftware.length))

def getTxDataSize (self : PskReporter) : Nat :=
  if self.recordList.length = 0 then 0
  else alignSize (self.recordList.foldl (fun size item => size + item.recordSize) 4)

def encodeReceiverRecord (self : PskReporter) (buf : List UInt8) (start : Nat) :
    Option (List UInt8) := do
  let buf ← poke buf start [0x99]
  let buf ← poke buf (start + 1) [0x92]
  let fieldLoc := start + 2
  let buf ← poke buf fieldLoc (beBytes 2 self.getRxDataSize)
  let fieldLoc := fieldLoc + 2
  let buf ← poke buf fieldLoc [UInt8.ofNat self.receiverCallsign.length]
  let buf ← poke buf (fieldLoc + 1) self.receiverCallsign
  let fieldLoc := fieldLoc + (1 + self.receiverCallsign.length)
  let buf ← poke buf fieldLoc [UInt8.ofNat self.receiverGridSquare.length]
  let buf ← poke buf (fieldLoc + 1) self.receiverGridSquare
  let fieldLoc := fieldLoc + (1 + self.receiverGridSquare.length)
  let buf ← poke buf fieldLoc [UInt8.ofNat self.decodingSoftware.length]
  poke buf (fieldLoc + 1) self.decodingSoftware

/-- The loop of `encodeSenderRecords` over the record list. -/
def encodeRecordList : List SenderRecord → List UInt8 → Nat → Option (List UInt8)
  | [], buf, _ => some buf
  | rec :: rest, buf, fieldLoc => do
      let buf ← rec.encode buf fieldLoc
      encodeRecordList rest buf (fieldLoc + rec.recordSize)

def encodeSenderRecords (self : PskReporter) (buf : List UInt8) (start : Nat) :
    Option (List UInt8) :=
  if self.recordList.length = 0 then
    some buf
  else do
    let buf ← poke buf start [0x99]
    let buf ← poke buf (start + 1) [0x93]
    let fieldLoc := start + 2
    let buf ← poke buf fieldLoc (beBytes 2 self.getTxDataSize)
    encodeRecordList self.recordList buf (fieldLoc + 2)

/-- The datagram size as `reportCommon` computes it. -/
def dgSize (self : PskReporter) : Nat :=
  let size := 16 + rxFormatHeader.length + txFormatHeader.length + self.getRxDataSize +
    self.getTxDataSize
  if self.getTxDataSize = 0 then size - txFormatHeader.length else size

/-- The part of `reportCommon` that fills the packet. -/
def encodePacket (self : PskReporter) (now : Int64) : Option (List UInt8) := do
  let packet := List.replicate self.dgSize 0
  let packet ← poke packet 0 [0x00]
  let packet ← poke packet 1 [0x0A]
  let fieldLoc := 2
  let packet ← poke packet fieldLoc (beBytes 2 self.dgSize)
  let fieldLoc := fieldLoc + 2
  let packet ← poke packet fieldLoc (beBytes 4 now.toInt32.toUInt32.toNat)
  let fieldLoc := fieldLoc + 4
  let packet ← poke packet fieldLoc (beBytes 4 self.currentSequenceNumber.toNat)
  let fieldLoc := fieldLoc + 4
  let packet ← poke packet fieldLoc (beBytes 4 self.randomIdentifier.toNat)
  let fieldLoc := fieldLoc + 4
  let packet ← poke packet fieldLoc rxFormatHeader
  let fieldLoc := fieldLoc + rxFormatHeader.length
  if self.getTxDataSize > 0 then
    let packet ← poke packet fieldLoc txFormatHeader
    let fieldLoc := fieldLoc + txFormatHeader.length
    let packet ← self.encodeReceiverRecord packet fieldLoc
    self.encodeSenderRecords packet (fieldLoc + self.getRxDataSize)
  else
    let packet ← self.encodeReceiverRecord packet fieldLoc
    self.encodeSenderRecords packet (fieldLoc + self.getRxDataSize)

/-- One report: the packet (none if it was overrun) and the reporter left behind. Whether the
network takes the packet has no influence on either. -/
def reportCommon (self : PskReporter) (now : Int64) : Option (List UInt8) × PskReporter :=
  (self.encodePacket now,
    { self with
      currentSequenceNumber := self.currentSequenceNumber + 1
      recordList := [] })

end PskReporter

/-! ## Threads

Client threads add records and ask for reports, the background thread encodes
them. `send` waits for the previous background thread before starting the next
one, and the destructor waits for the last one. -/

/-- A report that was made: the records then pending and the packet that was encoded. -/
structure Report where
  pending : List SenderRecord
  packet : Option (List UInt8)
deriving DecidableEq

structure Session where
  reporter : PskReporter
  /-- Calls of `send` that have not yet started their thread. -/
  sendCalls : Nat
  /-- `sendThread_` was started and has not reported yet. -/
  sending : Bool
  destroyed : Bool
  reports : List Report
  added : List SenderRecord
deriving DecidableEq

namespace Session

def start (reporter : PskReporter) : Session where
  reporter := reporter
  sendCalls := 0
  sending := false
  destroyed := false
  reports := []
  added := []

/-- Runs `reportCommon` and keeps its packet. -/
def report (self : Session) (now : Int64) : Session :=
  { self with
    reporter := (self.reporter.reportCommon now).2
    reports := self.reports ++ [⟨self.reporter.recordList, (self.reporter.reportCommon now).1⟩] }

inductive Action where
  | addReceiveRecord (callsign : List UInt8) (frequency : UInt64) (snr : Int8) (now : Int64)
  | send
  | startThread
  | runThread (now : Int64)
  | destroy (now : Int64)
deriving DecidableEq

/-- Pushes the record and asks for a report once 50 records are pending. -/
def addReceiveRecord (self : Session) (record : SenderRecord) : Session :=
  let recordList := self.reporter.recordList ++ [record]
  { self with
    reporter := { self.reporter with recordList := recordList }
    sendCalls := if recordList.length ≥ 50 then self.sendCalls + 1 else self.sendCalls
    added := self.added ++ [record] }

def next (self : Session) : Action → Option Session
  | .addReceiveRecord callsign frequency snr now =>
      if self.destroyed then none
      else some (self.addReceiveRecord (.make callsign frequency snr now))
  | .send =>
      if self.destroyed then none else some { self with sendCalls := self.sendCalls + 1 }
  | .startThread =>
      if 0 < self.sendCalls ∧ self.sending = false then
        some { self with sendCalls := self.sendCalls - 1, sending := true }
      else none
  | .runThread now =>
      if self.sending then some { self.report now with sending := false } else none
  | .destroy now =>
      if self.sending = false ∧ self.sendCalls = 0 ∧ self.destroyed = false then
        if 0 < self.reporter.recordList.length then
          some { self.report now with destroyed := true }
        else
          some { self with destroyed := true }
      else none

end Session

end FreeDV.Reporting
