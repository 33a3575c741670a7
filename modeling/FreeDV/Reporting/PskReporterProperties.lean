import FreeDV.Reporting.PskReporter

/-!
# PSK Reporter datagrams

The writes of one report are adjacent and fill the zeroed packet with a header
and two or four aligned sets. A reader that knows nothing but the packet gets
the receiver and the pending records back. Over a run of the threads no record
is lost, repeated or reordered.
-/

set_option autoImplicit false

namespace FreeDV.Reporting

open FreeDV.Lib
open FreeDV.Lib.Ipfix

/-! ## Records -/

namespace SenderRecord

/-- The bytes of a record on the wire. -/
def wire (self : SenderRecord) : List UInt8 :=
  UInt8.ofNat self.callsign.length :: self.callsign ++
    [((self.frequency >>> 32) &&& 0xff).toUInt8, ((self.frequency >>> 24) &&& 0xff).toUInt8,
      ((self.frequency >>> 16) &&& 0xff).toUInt8, ((self.frequency >>> 8) &&& 0xff).toUInt8,
      (self.frequency &&& 0xff).toUInt8, self.snr.toUInt8] ++
    UInt8.ofNat self.mode.length :: self.mode ++
    self.infoSource :: beBytes 4 self.flowTimeSeconds.toUInt32.toNat

theorem length_wire (self : SenderRecord) : self.wire.length = self.recordSize := by
  simp only [wire, recordSize, List.length_append, List.length_cons, List.length_nil,
    length_beBytes]
  omega

theorem encode_eq_poke (self : SenderRecord) (buf : List UInt8) (start : Nat) :
    self.encode buf start = poke buf start self.wire := by
  unfold encode
  simp (disch := first | with_reducible rfl | (simp <;> omega)) only [Option.bind_eq_bind, poke_bind_poke, poke_bind_poke_bind]
  simp [wire]

/-- The field values of a record as a reader of the sender template sees them. -/
def fieldValues (self : SenderRecord) : List (List UInt8) :=
  [self.callsign, beBytes 5 self.frequency.toNat, [self.snr.toUInt8], self.mode,
    [self.infoSource], beBytes 4 self.flowTimeSeconds.toUInt32.toNat]

/-- Rebuilds a record from the field values of the sender template. -/
def ofFieldValues : List (List UInt8) → Option SenderRecord
  | [callsign, frequency, [snr], mode, [infoSource], flowTimeSeconds] =>
      some
        { callsign := callsign
          frequency := UInt64.ofNat (beValue frequency)
          snr := snr.toInt8
          mode := mode
          infoSource := infoSource
          flowTimeSeconds := (UInt32.ofNat (beValue flowTimeSeconds)).toInt32 }
  | _ => none

/-- What the format can carry of a record. -/
structure Fits (record : SenderRecord) : Prop where
  callsign : record.callsign.length ≤ 254
  mode : record.mode.length ≤ 254
  frequency : record.frequency.toNat < 2 ^ 40

theorem ofFieldValues_fieldValues (self : SenderRecord) (fits : self.Fits) :
    ofFieldValues self.fieldValues = some self := by
  have frequency : UInt64.ofNat (beValue (beBytes 5 self.frequency.toNat)) = self.frequency := by
    rw [beValue_beBytes, Nat.mod_eq_of_lt (by simpa using fits.frequency), UInt64.ofNat_toNat]
  have time : UInt32.ofNat (beValue (beBytes 4 self.flowTimeSeconds.toUInt32.toNat)) =
      self.flowTimeSeconds.toUInt32 := by
    rw [beValue_beBytes, Nat.mod_eq_of_lt (by simpa using UInt32.toNat_lt _), UInt32.ofNat_toNat]
  simp only [fieldValues, ofFieldValues, frequency, time]
  rfl

private theorem byte_of_shift (frequency : UInt64) (shift : UInt64) (small : shift.toNat < 64) :
    ((frequency >>> shift) &&& 0xff).toUInt8 =
      UInt8.ofNat (frequency.toNat / 2 ^ shift.toNat) := by
  apply UInt8.toNat_inj.mp
  have mask : (255 : Nat) = 2 ^ 8 - 1 := rfl
  simp only [UInt64.toNat_toUInt8, UInt64.toNat_and, UInt64.toNat_shiftRight, UInt8.toNat_ofNat',
    Nat.mod_eq_of_lt small, Nat.shiftRight_eq_div_pow, UInt64.reduceToNat]
  rw [mask, Nat.and_two_pow_sub_one_eq_mod, Nat.mod_mod]

theorem wire_eq (self : SenderRecord) :
    self.wire = UInt8.ofNat self.callsign.length :: (self.callsign ++
      (beBytes 5 self.frequency.toNat ++ ([self.snr.toUInt8] ++
        UInt8.ofNat self.mode.length :: (self.mode ++
          ([self.infoSource] ++ beBytes 4 self.flowTimeSeconds.toUInt32.toNat))))) := by
  have last : (self.frequency &&& 0xff).toUInt8 = ((self.frequency >>> 0) &&& 0xff).toUInt8 := by
    simp
  rw [wire, last, byte_of_shift _ 32 (by decide), byte_of_shift _ 24 (by decide),
    byte_of_shift _ 16 (by decide), byte_of_shift _ 8 (by decide), byte_of_shift _ 0 (by decide)]
  simp [beBytes]

end SenderRecord

/-! ## The bytes of a packet -/

namespace PskReporter

theorem alignSize_mod (size : Nat) : alignSize size % 4 = 0 := by
  unfold alignSize
  split <;> omega

theorem le_alignSize (size : Nat) : size ≤ alignSize size ∧ alignSize size ≤ size + 3 := by
  unfold alignSize
  split <;> omega

def receiverFields (self : PskReporter) : List UInt8 :=
  UInt8.ofNat self.receiverCallsign.length :: (self.receiverCallsign ++
    UInt8.ofNat self.receiverGridSquare.length :: (self.receiverGridSquare ++
      UInt8.ofNat self.decodingSoftware.length :: self.decodingSoftware))

def senderFields (self : PskReporter) : List UInt8 :=
  self.recordList.flatMap SenderRecord.wire

def receiverPadding (self : PskReporter) : Nat :=
  self.getRxDataSize - (4 + self.receiverFields.length)

def senderPadding (self : PskReporter) : Nat :=
  self.getTxDataSize - (4 + self.senderFields.length)

def receiverSet (self : PskReporter) : RawSet :=
  ⟨0x9992, self.receiverFields ++ List.replicate self.receiverPadding 0⟩

def senderSet (self : PskReporter) : RawSet :=
  ⟨0x9993, self.senderFields ++ List.replicate self.senderPadding 0⟩

def rxTemplateSet : RawSet := ⟨3, rxFormatHeader.drop 4⟩

def txTemplateSet : RawSet := ⟨2, txFormatHeader.drop 4⟩

/-- The sets of a packet in order. -/
def sets (self : PskReporter) : List RawSet :=
  if self.recordList = [] then [rxTemplateSet, self.receiverSet]
  else [rxTemplateSet, txTemplateSet, self.receiverSet, self.senderSet]

def header (self : PskReporter) (now : Int64) : List UInt8 :=
  [0x00, 0x0A] ++ beBytes 2 self.dgSize ++ beBytes 4 now.toInt32.toUInt32.toNat ++
    beBytes 4 self.currentSequenceNumber.toNat ++ beBytes 4 self.randomIdentifier.toNat

theorem receiverSize (self : PskReporter) :
    self.getRxDataSize = 4 + self.receiverFields.length + self.receiverPadding ∧
      self.receiverPadding ≤ 3 ∧ self.getRxDataSize % 4 = 0 := by
  have aligned := alignSize_mod (4 + (1 + self.receiverCallsign.length) +
    (1 + self.receiverGridSquare.length) + (1 + self.decodingSoftware.length))
  have bounds := le_alignSize (4 + (1 + self.receiverCallsign.length) +
    (1 + self.receiverGridSquare.length) + (1 + self.decodingSoftware.length))
  have fields : self.receiverFields.length = (1 + self.receiverCallsign.length) +
      (1 + self.receiverGridSquare.length) + (1 + self.decodingSoftware.length) := by
    simp only [receiverFields, List.length_append, List.length_cons]
    omega
  simp only [receiverPadding, getRxDataSize, fields]
  omega

private theorem foldl_recordSize (records : List SenderRecord) (size : Nat) :
    records.foldl (fun size item => size + item.recordSize) size =
      size + (records.flatMap SenderRecord.wire).length := by
  induction records generalizing size with
  | nil => rfl
  | cons record records ih =>
      rw [List.foldl_cons, ih, List.flatMap_cons, List.length_append, SenderRecord.length_wire]
      omega

theorem senderSize (self : PskReporter) (pending : self.recordList ≠ []) :
    self.getTxDataSize = 4 + self.senderFields.length + self.senderPadding ∧
      self.senderPadding ≤ 3 ∧ self.getTxDataSize % 4 = 0 := by
  have some : self.recordList.length ≠ 0 := by simpa using pending
  have size : self.getTxDataSize = alignSize (4 + self.senderFields.length) := by
    rw [getTxDataSize, if_neg some, foldl_recordSize, senderFields]
  have aligned := alignSize_mod (4 + self.senderFields.length)
  have bounds := le_alignSize (4 + self.senderFields.length)
  simp only [senderPadding, size]
  omega

theorem getTxDataSize_eq_zero_iff (self : PskReporter) :
    self.getTxDataSize = 0 ↔ self.recordList = [] := by
  constructor
  · intro zero
    by_contra pending
    have size := (self.senderSize pending).1
    omega
  · intro empty
    simp [getTxDataSize, empty]

theorem encodeReceiverRecord_eq_poke (self : PskReporter) (buf : List UInt8) (start : Nat) :
    self.encodeReceiverRecord buf start =
      poke buf start (0x99 :: 0x92 :: (beBytes 2 self.getRxDataSize ++ self.receiverFields)) := by
  unfold encodeReceiverRecord
  simp (disch := first | with_reducible rfl | (simp <;> omega)) only [Option.bind_eq_bind, poke_bind_poke, poke_bind_poke_bind]
  simp [receiverFields]

theorem poke_bind_encodeRecordList (records : List SenderRecord) (buf first : List UInt8)
    (start behind : Nat) (adjacent : behind = start + first.length) :
    ((poke buf start first).bind fun buf => encodeRecordList records buf behind) =
      poke buf start (first ++ records.flatMap SenderRecord.wire) := by
  induction records generalizing first behind with
  | nil => simp [encodeRecordList]
  | cons record records ih =>
      simp only [encodeRecordList, Option.bind_eq_bind, SenderRecord.encode_eq_poke,
        poke_bind_poke_bind adjacent]
      rw [ih (first ++ record.wire) _ (by simp [SenderRecord.length_wire]; omega)]
      simp

theorem encodeSenderRecords_eq_poke (self : PskReporter) (pending : self.recordList ≠ [])
    (buf : List UInt8) (start : Nat) :
    self.encodeSenderRecords buf start =
      poke buf start (0x99 :: 0x93 :: (beBytes 2 self.getTxDataSize ++ self.senderFields)) := by
  have some : self.recordList.length ≠ 0 := by simpa using pending
  rw [encodeSenderRecords, if_neg some]
  simp (disch := first | with_reducible rfl | (simp <;> omega)) only [Option.bind_eq_bind, poke_bind_poke,
    poke_bind_encodeRecordList]
  simp [senderFields]

@[simp] theorem length_rxFormatHeader : rxFormatHeader.length = 36 := rfl

@[simp] theorem length_txFormatHeader : txFormatHeader.length = 52 := rfl

/-- Everything in front of the sender set, without the padding of the receiver set. -/
def front (self : PskReporter) (now : Int64) : List UInt8 :=
  self.header now ++ rxFormatHeader ++ (if self.recordList = [] then [] else txFormatHeader) ++
    0x99 :: 0x92 :: (beBytes 2 self.getRxDataSize ++ self.receiverFields)

theorem encodePacket_eq_poke (self : PskReporter) (now : Int64) :
    self.encodePacket now =
      (poke (List.replicate self.dgSize 0) 0 (self.front now)).bind
        fun packet => self.encodeSenderRecords packet
          (52 + (if self.recordList = [] then 0 else 52) + self.getRxDataSize) := by
  by_cases pending : self.recordList = []
  · have absent : ¬ self.getTxDataSize > 0 := by
      simp [self.getTxDataSize_eq_zero_iff, pending]
    simp only [encodePacket, if_neg absent, Option.bind_eq_bind, encodeReceiverRecord_eq_poke]
    simp (disch := first | with_reducible rfl | (simp <;> omega)) only [poke_bind_poke_bind]
    simp [front, header, pending]
  · have present : self.getTxDataSize > 0 :=
      Nat.pos_of_ne_zero (mt self.getTxDataSize_eq_zero_iff.mp pending)
    simp only [encodePacket, if_pos present, Option.bind_eq_bind, encodeReceiverRecord_eq_poke]
    simp (disch := first | with_reducible rfl | (simp <;> omega)) only [poke_bind_poke_bind]
    simp [front, header, pending]

theorem length_header (self : PskReporter) (now : Int64) : (self.header now).length = 16 := by
  simp [header]

theorem length_front (self : PskReporter) (now : Int64) :
    (self.front now).length + self.receiverPadding =
      52 + (if self.recordList = [] then 0 else 52) + self.getRxDataSize := by
  have receiver := self.receiverSize
  simp only [front, List.length_append, List.length_cons, length_header, length_beBytes,
    length_rxFormatHeader]
  split
  · rw [List.length_nil]
    omega
  · rw [length_txFormatHeader]
    omega

theorem length_front_dgSize (self : PskReporter) (now : Int64) :
    self.dgSize = (self.front now).length + (self.receiverPadding + self.getTxDataSize) := by
  have front := self.length_front now
  by_cases pending : self.recordList = []
  · have zero : self.getTxDataSize = 0 := self.getTxDataSize_eq_zero_iff.mpr pending
    rw [dgSize, if_pos zero, length_rxFormatHeader, length_txFormatHeader]
    rw [if_pos pending] at front
    omega
  · have present : ¬ self.getTxDataSize = 0 := mt self.getTxDataSize_eq_zero_iff.mp pending
    rw [dgSize, if_neg present, length_rxFormatHeader, length_txFormatHeader]
    rw [if_neg pending] at front
    omega

theorem front_append_padding (self : PskReporter) (now : Int64) :
    self.front now ++ List.replicate self.receiverPadding 0 =
      self.header now ++ rxTemplateSet.bytes ++
        (if self.recordList = [] then [] else txTemplateSet.bytes) ++ self.receiverSet.bytes := by
  have rxLayout : rxTemplateSet.bytes = rxFormatHeader := by decide
  have txLayout : txTemplateSet.bytes = txFormatHeader := by decide
  have receiverLayout : self.receiverSet.bytes =
      0x99 :: 0x92 :: (beBytes 2 self.getRxDataSize ++ self.receiverFields) ++
        List.replicate self.receiverPadding 0 := by
    rw [self.receiverSize.1]
    simp [receiverSet, RawSet.bytes, beBytes, Nat.add_assoc]
  rw [rxLayout, txLayout, receiverLayout, front]
  simp

/-- A report fills its packet, without leaving it, with the header and the sets. -/
theorem encodePacket_eq (self : PskReporter) (now : Int64) :
    self.encodePacket now = some (self.header now ++ self.sets.flatMap RawSet.bytes) := by
  have start := self.front_append_padding now
  rw [encodePacket_eq_poke, self.length_front_dgSize now, poke_zeros_start, Option.bind_some]
  by_cases pending : self.recordList = []
  · have zero : self.getTxDataSize = 0 := self.getTxDataSize_eq_zero_iff.mpr pending
    simp [zero, start, encodeSenderRecords, sets, pending]
  · have sender := self.senderSize pending
    have room : self.receiverPadding + self.getTxDataSize =
        self.receiverPadding +
          (0x99 :: 0x93 :: (beBytes 2 self.getTxDataSize ++ self.senderFields)).length +
            self.senderPadding := by
      simp only [List.length_cons, List.length_append, length_beBytes]
      omega
    have senderLayout : self.senderSet.bytes =
        0x99 :: 0x93 :: (beBytes 2 self.getTxDataSize ++ self.senderFields) ++
          List.replicate self.senderPadding 0 := by
      rw [sender.1]
      simp [senderSet, RawSet.bytes, beBytes, Nat.add_assoc]
    rw [self.encodeSenderRecords_eq_poke pending, room, ← self.length_front now, poke_zeros rfl,
      start, if_neg pending, sets, if_neg pending]
    simp [senderLayout]

theorem length_sets (self : PskReporter) :
    rxTemplateSet.bytes.length = 36 ∧ txTemplateSet.bytes.length = 52 ∧
      self.receiverSet.bytes.length = self.getRxDataSize ∧
      (self.recordList ≠ [] → self.senderSet.bytes.length = self.getTxDataSize) := by
  refine ⟨rfl, rfl, ?_, ?_⟩
  · have receiver := self.receiverSize
    simp only [RawSet.length_bytes, receiverSet, List.length_append, List.length_replicate]
    omega
  · intro pending
    have sender := self.senderSize pending
    simp only [RawSet.length_bytes, senderSet, List.length_append, List.length_replicate]
    omega

theorem length_packet (self : PskReporter) (now : Int64) :
    (self.header now ++ self.sets.flatMap RawSet.bytes).length = self.dgSize := by
  obtain ⟨rxSize, txSize, receiver, sender⟩ := self.length_sets
  by_cases pending : self.recordList = []
  · have zero : self.getTxDataSize = 0 := self.getTxDataSize_eq_zero_iff.mpr pending
    simp only [sets, if_pos pending, dgSize, List.length_append, List.flatMap_cons,
      List.flatMap_nil, List.length_nil, length_header, rxSize, receiver, zero, if_true,
      length_rxFormatHeader, length_txFormatHeader]
    omega
  · have present : ¬ self.getTxDataSize = 0 := mt self.getTxDataSize_eq_zero_iff.mp pending
    simp only [sets, if_neg pending, dgSize, if_neg present, List.length_append, List.flatMap_cons,
      List.flatMap_nil, List.length_nil, length_header, rxSize, txSize, receiver, sender pending,
      length_rxFormatHeader, length_txFormatHeader]
    omega

end PskReporter

/-! ## Reading a packet -/

/-- The length field of the message header. -/
def headerLength (packet : List UInt8) : Nat :=
  beValue ((packet.drop 2).take 2)

/-- The sets behind the message header. -/
def packetSets (packet : List UInt8) : Option (List RawSet) :=
  walkSets packet.length (packet.drop 16)

/-- The sender records a reader gets out of a packet; none without a sender set. -/
def decodedRecords (packet : List UInt8) : Option (List SenderRecord) := do
  let sets ← packetSets packet
  if sets.any (·.id = 0x9993) then
    let (records, _) ← decodeSet sets 0x9993
    records.mapM SenderRecord.ofFieldValues
  else
    some []

/-- A packet that tells a reader about one receiver and the given records, and nothing else. -/
structure Describes (reporter : PskReporter) (records : List SenderRecord)
    (packet : List UInt8) : Prop where
  size : packet.length = { reporter with recordList := records }.dgSize
  lengthField : headerLength packet = packet.length
  sets : ∃ sets, packetSets packet = some sets ∧
    (∀ set ∈ sets, set.bytes.length % 4 = 0) ∧
    sets.map RawSet.id = (if records = [] then [3, 0x9992] else [3, 2, 0x9992, 0x9993]) ∧
    (∃ padding, IsPadding padding ∧
      decodeSet sets 0x9992 =
        some ([[reporter.receiverCallsign, reporter.receiverGridSquare,
          reporter.decodingSoftware]], padding)) ∧
    (records ≠ [] → ∃ values padding, IsPadding padding ∧
      decodeSet sets 0x9993 = some (values, padding) ∧
      values.mapM SenderRecord.ofFieldValues = some records)
  decoded : decodedRecords packet = some records

/-- What the format can carry of the receiver's description. -/
structure PskReporter.ReceiverFits (reporter : PskReporter) : Prop where
  callsign : reporter.receiverCallsign.length ≤ 254
  gridSquare : reporter.receiverGridSquare.length ≤ 254
  software : reporter.decodingSoftware.length ≤ 254

namespace PskReporter

def rxTemplate : Template :=
  ⟨0x9992, [⟨2, some 30351, 65535⟩, ⟨4, some 30351, 65535⟩, ⟨8, some 30351, 65535⟩]⟩

def txTemplate : Template :=
  ⟨0x9993, [⟨1, some 30351, 65535⟩, ⟨5, some 30351, 5⟩, ⟨6, some 30351, 1⟩,
    ⟨10, some 30351, 65535⟩, ⟨11, some 30351, 1⟩, ⟨150, none, 4⟩]⟩

theorem template?_rxTemplateSet : rxTemplateSet.template? = some rxTemplate := by decide

theorem template?_txTemplateSet : txTemplateSet.template? = some txTemplate := by decide

theorem isPadding_replicate {count : Nat} (short : count ≤ 3) :
    IsPadding (List.replicate count 0) :=
  ⟨by simpa using short, fun _ member => List.eq_of_mem_replicate member⟩

theorem decodeSet_receiver (self : PskReporter) (fits : self.ReceiverFits) :
    decodeSet self.sets 0x9992 =
      some ([[self.receiverCallsign, self.receiverGridSquare, self.decodingSoftware]],
        List.replicate self.receiverPadding 0) := by
  have template : (self.sets.filterMap RawSet.template?).find? (·.id = 0x9992) =
      some rxTemplate := by
    unfold sets
    split <;> simp [template?_rxTemplateSet, rxTemplate]
  have set : self.sets.find? (·.id = 0x9992) = some self.receiverSet := by
    unfold sets
    split <;> simp [rxTemplateSet, txTemplateSet, receiverSet]
  have reads : ∀ rest, readRecord rxTemplate.fields (self.receiverFields ++ rest) =
      some ([self.receiverCallsign, self.receiverGridSquare, self.decodingSoftware], rest) := by
    intro rest
    have callsign : self.receiverCallsign.length < 255 := Nat.lt_succ_of_le fits.callsign
    have gridSquare : self.receiverGridSquare.length < 255 := Nat.lt_succ_of_le fits.gridSquare
    have software : self.decodingSoftware.length < 255 := Nat.lt_succ_of_le fits.software
    simp [receiverFields, rxTemplate, readRecord, readField_variable, callsign, gridSquare,
      software]
  have size := self.receiverSize
  have long : 4 ≤ (self.receiverFields ++ List.replicate self.receiverPadding 0).length := by
    have fields : 3 ≤ self.receiverFields.length := by
      simp only [receiverFields, List.length_cons, List.length_append]
      omega
    simp only [List.length_append, List.length_replicate]
    omega
  have records := readRecords_flatMap rxTemplate.fields receiverFields
    (fun self => [self.receiverCallsign, self.receiverGridSquare, self.decodingSoftware]) [self]
    (by simpa using reads) (List.replicate self.receiverPadding 0) (by simp; omega)
    (by simpa using long) self.receiverSet.body.length (Nat.le_trans (by simp) long)
  simp only [decodeSet, template, set, Option.bind_eq_bind, Option.bind_some]
  simpa [receiverSet] using records

theorem readRecord_wire (record : SenderRecord) (fits : record.Fits) (rest : List UInt8) :
    readRecord txTemplate.fields (record.wire ++ rest) = some (record.fieldValues, rest) := by
  have callsign : record.callsign.length < 255 := Nat.lt_succ_of_le fits.callsign
  have mode : record.mode.length < 255 := Nat.lt_succ_of_le fits.mode
  have frequency : ∀ tail, readField 5 (beBytes 5 record.frequency.toNat ++ tail) =
      some (beBytes 5 record.frequency.toNat, tail) :=
    readField_fixed (by decide) (length_beBytes _ _)
  have byte : ∀ value tail, readField 1 (value :: tail) = some ([value], tail) := by
    intro value tail
    have fixed : (1 : Nat) ≠ 65535 := by decide
    exact readField_fixed fixed (List.length_singleton (a := value)) tail
  have time : ∀ tail,
      readField 4 (beBytes 4 record.flowTimeSeconds.toUInt32.toNat ++ tail) =
        some (beBytes 4 record.flowTimeSeconds.toUInt32.toNat, tail) :=
    readField_fixed (by decide) (length_beBytes _ _)
  simp [SenderRecord.wire_eq, SenderRecord.fieldValues, txTemplate, readRecord,
    readField_variable, callsign, mode, frequency, byte, time]

theorem decodeSet_sender (self : PskReporter) (pending : self.recordList ≠ [])
    (fits : ∀ record ∈ self.recordList, record.Fits) :
    decodeSet self.sets 0x9993 =
      some (self.recordList.map SenderRecord.fieldValues,
        List.replicate self.senderPadding 0) := by
  have template : (self.sets.filterMap RawSet.template?).find? (·.id = 0x9993) =
      some txTemplate := by
    rw [sets, if_neg pending]
    simp [template?_rxTemplateSet, template?_txTemplateSet, rxTemplate, txTemplate]
  have set : self.sets.find? (·.id = 0x9993) = some self.senderSet := by
    rw [sets, if_neg pending]
    simp [rxTemplateSet, txTemplateSet, receiverSet, senderSet]
  have long : ∀ record : SenderRecord, 4 ≤ record.wire.length := by
    intro record
    rw [SenderRecord.length_wire, SenderRecord.recordSize]
    omega
  have enough : self.recordList.length ≤ self.senderSet.body.length := by
    have perRecord : ∀ records : List SenderRecord,
        records.length ≤ (records.flatMap SenderRecord.wire).length := by
      intro records
      induction records with
      | nil => simp
      | cons record records ih =>
          have := long record
          simp only [List.flatMap_cons, List.length_append, List.length_cons]
          omega
    have := perRecord self.recordList
    simp only [senderSet, senderFields, List.length_append]
    omega
  have records := readRecords_flatMap txTemplate.fields SenderRecord.wire
    SenderRecord.fieldValues self.recordList
    (fun record member => readRecord_wire record (fits record member))
    (List.replicate self.senderPadding 0)
    (by have := self.senderSize pending; simp; omega)
    (fun record _ => by have := long record; simp; omega) self.senderSet.body.length enough
  simp only [decodeSet, template, set, Option.bind_eq_bind, Option.bind_some]
  simpa [senderSet, senderFields] using records

theorem headerLength_eq (self : PskReporter) (now : Int64) (small : self.dgSize < 65536)
    (rest : List UInt8) : headerLength (self.header now ++ rest) = self.dgSize := by
  have field : ((self.header now ++ rest).drop 2).take 2 = beBytes 2 self.dgSize := by
    simp [header, beBytes]
  rw [headerLength, field, beValue_beBytes]
  exact Nat.mod_eq_of_lt small

theorem packetSets_eq (self : PskReporter) (now : Int64) (small : self.dgSize < 65536) :
    packetSets (self.header now ++ self.sets.flatMap RawSet.bytes) = some self.sets := by
  have behind : (self.header now ++ self.sets.flatMap RawSet.bytes).drop 16 =
      self.sets.flatMap RawSet.bytes := by
    rw [List.drop_append, List.drop_eq_nil_of_le (by rw [length_header]), length_header]
    rfl
  have whole := self.length_packet now
  rw [List.length_append, length_header] at whole
  have lengths : ∀ set ∈ self.sets, set.body.length + 4 < 65536 := by
    intro set member
    have part : set.bytes.length ≤ (self.sets.flatMap RawSet.bytes).length := by
      obtain ⟨before, after, split⟩ := List.append_of_mem member
      rw [split, List.flatMap_append, List.flatMap_cons, List.length_append, List.length_append]
      omega
    rw [RawSet.length_bytes] at part
    omega
  have ids : ∀ set ∈ self.sets, set.id < 65536 := by
    unfold sets
    split <;> simp [rxTemplateSet, txTemplateSet, receiverSet, senderSet]
  have count : self.sets.length ≤ 4 := by
    unfold sets
    split <;> simp
  rw [packetSets, behind, List.length_append, length_header]
  exact walkSets_flatMap_bytes self.sets ids lengths _ (by omega)

theorem mapM_ofFieldValues (records : List SenderRecord) (fits : ∀ record ∈ records, record.Fits) :
    (records.map SenderRecord.fieldValues).mapM SenderRecord.ofFieldValues = some records := by
  induction records with
  | nil => rfl
  | cons record records ih =>
      obtain ⟨first, rest⟩ := List.forall_mem_cons.mp fits
      simp [record.ofFieldValues_fieldValues first, ih rest]

/-- Every report that the format can carry describes exactly the receiver and its records. -/
theorem encodePacket_describes (self : PskReporter) (now : Int64) (receiver : self.ReceiverFits)
    (records : ∀ record ∈ self.recordList, record.Fits) (small : self.dgSize < 65536) :
    ∃ packet, self.encodePacket now = some packet ∧ Describes self self.recordList packet := by
  refine ⟨_, self.encodePacket_eq now, ?_⟩
  have walked := self.packetSets_eq now small
  refine ⟨self.length_packet now, ?_, ⟨self.sets, walked, ?_, ?_, ?_, ?_⟩, ?_⟩
  · rw [self.headerLength_eq now small, self.length_packet now]
  · obtain ⟨rxSize, txSize, receiverSize, senderSize⟩ := self.length_sets
    have receiverAligned := self.receiverSize.2.2
    by_cases pending : self.recordList = []
    · simp [sets, pending, rxSize, receiverSize, receiverAligned, - RawSet.length_bytes]
    · have senderAligned := (self.senderSize pending).2.2
      simp [sets, pending, rxSize, txSize, receiverSize, receiverAligned, senderSize,
        senderAligned, - RawSet.length_bytes]
  · unfold sets
    split <;> rfl
  · exact ⟨_, isPadding_replicate self.receiverSize.2.1, self.decodeSet_receiver receiver⟩
  · intro pending
    exact ⟨_, _, isPadding_replicate (self.senderSize pending).2.1,
      self.decodeSet_sender pending records, mapM_ofFieldValues _ records⟩
  · by_cases pending : self.recordList = []
    · have absent : self.sets.any (·.id = 0x9993) = false := by
        simp [sets, pending, rxTemplateSet, receiverSet]
      simp only [decodedRecords, walked, Option.bind_eq_bind, Option.bind_some, absent, pending]
      rfl
    · have present : self.sets.any (·.id = 0x9993) = true := by
        simp [sets, pending, senderSet]
      simp only [decodedRecords, walked, Option.bind_eq_bind, Option.bind_some, present, if_true,
        self.decodeSet_sender pending records, mapM_ofFieldValues _ records]

end PskReporter

/-! ## Runs -/

namespace Session

/-- What the clients and the receiver's description must keep to. -/
def WithinLimits (self : Session) : Action → Prop
  | .addReceiveRecord callsign frequency _ _ =>
      callsign.length ≤ 254 ∧ frequency.toNat < 2 ^ 40
  | .runThread _ => self.reporter.dgSize < 65536
  | .destroy _ => self.reporter.dgSize < 65536
  | _ => True

instance (session : Session) : ∀ action, Decidable (session.WithinLimits action)
  | .addReceiveRecord _ _ _ _ => inferInstanceAs (Decidable (_ ∧ _))
  | .send => inferInstanceAs (Decidable True)
  | .startThread => inferInstanceAs (Decidable True)
  | .runThread _ => inferInstanceAs (Decidable (_ < _))
  | .destroy _ => inferInstanceAs (Decidable (_ < _))

/-- The receiver never changes, every report describes what was pending, and every added record
was either reported or is still pending. -/
structure Accounted (reporter : PskReporter) (session : Session) : Prop where
  callsign : session.reporter.receiverCallsign = reporter.receiverCallsign
  gridSquare : session.reporter.receiverGridSquare = reporter.receiverGridSquare
  software : session.reporter.decodingSoftware = reporter.decodingSoftware
  fits : ∀ record ∈ session.reporter.recordList, record.Fits
  described : ∀ report ∈ session.reports, ∃ packet,
    report.packet = some packet ∧ Describes reporter report.pending packet
  order : session.reports.flatMap Report.pending ++ session.reporter.recordList = session.added
  closed : session.destroyed = true → session.reporter.recordList = []

variable {reporter : PskReporter} {session after : Session}

theorem Accounted.report (accounted : Accounted reporter session) (receiver : reporter.ReceiverFits)
    (now : Int64) (small : session.reporter.dgSize < 65536) :
    Accounted reporter (session.report now) := by
  have receiverNow : session.reporter.ReceiverFits :=
    ⟨accounted.callsign ▸ receiver.callsign, accounted.gridSquare ▸ receiver.gridSquare,
      accounted.software ▸ receiver.software⟩
  obtain ⟨packet, encoded, describes⟩ :=
    session.reporter.encodePacket_describes now receiverNow accounted.fits small
  have sameReceiver : Describes reporter session.reporter.recordList packet := by
    obtain ⟨size, lengthField, sets, decoded⟩ := describes
    simp only [PskReporter.dgSize, PskReporter.getRxDataSize, PskReporter.getTxDataSize,
      accounted.callsign, accounted.gridSquare, accounted.software] at size sets
    exact ⟨size, lengthField, sets, decoded⟩
  constructor
  · exact accounted.callsign
  · exact accounted.gridSquare
  · exact accounted.software
  · simp [Session.report, PskReporter.reportCommon]
  · intro report member
    rcases List.mem_append.mp member with earlier | latest
    · exact accounted.described report earlier
    · rw [List.mem_singleton] at latest
      subst latest
      exact ⟨packet, encoded, sameReceiver⟩
  · simpa [Session.report, PskReporter.reportCommon] using accounted.order
  · intro _
    rfl

theorem Accounted.addReceiveRecord (accounted : Accounted reporter session)
    (running : session.destroyed = false) (record : SenderRecord) (fits : record.Fits) :
    Accounted reporter (session.addReceiveRecord record) := by
  constructor
  · exact accounted.callsign
  · exact accounted.gridSquare
  · exact accounted.software
  · intro pending member
    rcases List.mem_append.mp member with earlier | latest
    · exact accounted.fits pending earlier
    · rw [List.mem_singleton] at latest
      exact latest ▸ fits
  · exact accounted.described
  · simp [Session.addReceiveRecord, ← accounted.order]
  · intro destroyed
    exact absurd (running.symm.trans destroyed) Bool.false_ne_true

theorem Accounted.next (accounted : Accounted reporter session) (receiver : reporter.ReceiverFits)
    (action : Action) (permitted : session.WithinLimits action)
    (taken : session.next action = some after) : Accounted reporter after := by
  cases action with
  | addReceiveRecord callsign frequency snr now =>
      simp only [Session.next] at taken
      split at taken
      · cases taken
      · rename_i running
        cases taken
        exact accounted.addReceiveRecord (by simpa using running) _
          ⟨permitted.1, by simp [SenderRecord.make], permitted.2⟩
  | send =>
      simp only [Session.next] at taken
      split at taken
      · cases taken
      · cases taken
        exact { accounted with }
  | startThread =>
      simp only [Session.next] at taken
      split at taken
      · cases taken
        exact { accounted with }
      · cases taken
  | runThread now =>
      simp only [Session.next] at taken
      split at taken
      · cases taken
        exact { accounted.report receiver now permitted with }
      · cases taken
  | destroy now =>
      simp only [Session.next] at taken
      split at taken
      · split at taken
        · cases taken
          exact { accounted.report receiver now permitted with closed := fun _ => rfl }
        · rename_i empty
          cases taken
          have none : session.reporter.recordList = [] := by simpa using empty
          exact { accounted with closed := fun _ => none }
      · cases taken

end Session

end FreeDV.Reporting
