import Mathlib.Data.Vector.Basic
import Mathlib.Logic.Function.Iterate

/-!
# Wire codecs of the fix queue (`lib/fix_queue`)

The two fixed layouts the firmware keeps on flash: a 64-byte `FixRecord` slot and a 32-byte
`FixQueueMeta` slot, each closed by a CRC-16, and the ring arithmetic shared by the store and its
tests. A buffer is the list of its bytes; an encoder that reports failure returns `none`.
-/

namespace OpenGps.Firmware

/-! ## Integers and checksum -/

/-- One bit of CRC-16/MODBUS. -/
def crcBit (crc : UInt16) : UInt16 :=
  if crc &&& 1 ≠ 0 then (crc >>> 1) ^^^ 0xA001 else crc >>> 1

def crcByte (crc : UInt16) (byte : UInt8) : UInt16 :=
  crcBit^[8] (crc ^^^ byte.toUInt16)

/-- CRC-16/MODBUS — same polynomial for records and meta. -/
def calculateCrc16 (data : List UInt8) : UInt16 :=
  data.foldl crcByte 0xFFFF

def writeUint32 (value : UInt32) : List UInt8 :=
  [value.toUInt8, (value >>> 8).toUInt8, (value >>> 16).toUInt8, (value >>> 24).toUInt8]

def readUint32 (buf : List UInt8) (offset : Nat) : UInt32 :=
  (buf.getD offset 0).toUInt32 |||
  ((buf.getD (offset + 1) 0).toUInt32 <<< 8) |||
  ((buf.getD (offset + 2) 0).toUInt32 <<< 16) |||
  ((buf.getD (offset + 3) 0).toUInt32 <<< 24)

def writeUint16 (value : UInt16) : List UInt8 :=
  [value.toUInt8, (value >>> 8).toUInt8]

def readUint16 (buf : List UInt8) (offset : Nat) : UInt16 :=
  (buf.getD offset 0).toUInt16 ||| ((buf.getD (offset + 1) 0).toUInt16 <<< 8)

@[simp] theorem length_writeUint32 (v : UInt32) : (writeUint32 v).length = 4 := by
  simp [writeUint32]

@[simp] theorem length_writeUint16 (v : UInt16) : (writeUint16 v).length = 2 := by
  simp [writeUint16]

private theorem uint32_of_bytes (v : UInt32) :
    v.toUInt8.toUInt32 ||| ((v >>> 8).toUInt8.toUInt32 <<< 8) |||
      ((v >>> 16).toUInt8.toUInt32 <<< 16) ||| ((v >>> 24).toUInt8.toUInt32 <<< 24) = v := by
  apply UInt32.eq_of_toBitVec_eq
  simp only [UInt32.toBitVec_or, UInt32.toBitVec_shiftLeft, UInt8.toBitVec_toUInt32,
    UInt32.toBitVec_toUInt8, UInt32.toBitVec_shiftRight]
  ext i hi
  simp
  -- Bit `i` of the value is a bit of exactly one of the four bytes.
  have hbyte : i < 8 ∨ (8 ≤ i ∧ i < 16) ∨ (16 ≤ i ∧ i < 24) ∨ 24 ≤ i := by omega
  rcases hbyte with h | ⟨h₁, h₂⟩ | ⟨h₁, h₂⟩ | h <;> grind

private theorem uint16_of_bytes (v : UInt16) :
    v.toUInt8.toUInt16 ||| ((v >>> 8).toUInt8.toUInt16 <<< 8) = v := by
  apply UInt16.eq_of_toBitVec_eq
  simp only [UInt16.toBitVec_or, UInt16.toBitVec_shiftLeft, UInt8.toBitVec_toUInt16,
    UInt16.toBitVec_toUInt8, UInt16.toBitVec_shiftRight]
  ext i hi
  simp
  grind

private theorem bytes_of_uint32 (a b c d : UInt8) :
    writeUint32 (a.toUInt32 ||| (b.toUInt32 <<< 8) ||| (c.toUInt32 <<< 16) |||
      (d.toUInt32 <<< 24)) = [a, b, c, d] := by
  simp only [writeUint32, List.cons.injEq, and_true]
  refine ⟨?_, ?_, ?_, ?_⟩ <;>
  · apply UInt8.eq_of_toBitVec_eq
    simp only [UInt32.toBitVec_or, UInt32.toBitVec_shiftLeft, UInt8.toBitVec_toUInt32,
      UInt32.toBitVec_toUInt8, UInt32.toBitVec_shiftRight]
    ext i hi
    simp <;> grind

private theorem bytes_of_uint16 (a b : UInt8) :
    writeUint16 (a.toUInt16 ||| (b.toUInt16 <<< 8)) = [a, b] := by
  simp only [writeUint16, List.cons.injEq, and_true]
  refine ⟨?_, ?_⟩ <;>
  · apply UInt8.eq_of_toBitVec_eq
    simp only [UInt16.toBitVec_or, UInt16.toBitVec_shiftLeft, UInt8.toBitVec_toUInt16,
      UInt16.toBitVec_toUInt8, UInt16.toBitVec_shiftRight]
    ext i hi
    simp <;> grind

/-! Reading a field of a concatenation: skip what stands before it, then read it back. -/

theorem getD_skip {xs rest : List UInt8} {offset : Nat} (h : xs.length ≤ offset) :
    (xs ++ rest).getD offset 0 = rest.getD (offset - xs.length) 0 := by
  rw [List.getD_eq_getElem?_getD, List.getElem?_append_right h, List.getD_eq_getElem?_getD]

theorem readUint32_skip {xs rest : List UInt8} {offset : Nat} (h : xs.length ≤ offset) :
    readUint32 (xs ++ rest) offset = readUint32 rest (offset - xs.length) := by
  have hk : ∀ k, (xs ++ rest).getD (offset + k) 0 = rest.getD (offset - xs.length + k) 0 := by
    intro k
    rw [getD_skip (by omega)]
    congr 1
    omega
  simp only [readUint32, getD_skip h, hk]

theorem readUint16_skip {xs rest : List UInt8} {offset : Nat} (h : xs.length ≤ offset) :
    readUint16 (xs ++ rest) offset = readUint16 rest (offset - xs.length) := by
  have hk : (xs ++ rest).getD (offset + 1) 0 = rest.getD (offset - xs.length + 1) 0 := by
    rw [getD_skip (by omega)]
    congr 1
    omega
  simp only [readUint16, getD_skip h, hk]

@[simp] theorem readUint32_write (v : UInt32) (rest : List UInt8) :
    readUint32 (writeUint32 v ++ rest) 0 = v :=
  uint32_of_bytes v

@[simp] theorem readUint16_write (v : UInt16) (rest : List UInt8) :
    readUint16 (writeUint16 v ++ rest) 0 = v :=
  uint16_of_bytes v

private theorem map_getD_range {buf : List UInt8} {offset n : Nat} (h : offset + n ≤ buf.length) :
    ((List.range n).map fun i => buf.getD (offset + i) 0) = (buf.drop offset).take n := by
  apply List.ext_getElem
  · simp
    omega
  · intro i hi _
    simp only [List.length_map, List.length_range] at hi
    simp only [List.getElem_map, List.getElem_range, List.getElem_take, List.getElem_drop]
    rw [List.getD_eq_getElem?_getD, List.getElem?_eq_getElem (by omega)]
    rfl

/-- Writing back what was read gives the bytes that were read. -/
theorem writeUint32_read {buf : List UInt8} {offset : Nat} (h : offset + 4 ≤ buf.length) :
    writeUint32 (readUint32 buf offset) = (buf.drop offset).take 4 := by
  rw [readUint32, bytes_of_uint32, ← map_getD_range h]
  rfl

theorem writeUint16_read {buf : List UInt8} {offset : Nat} (h : offset + 2 ≤ buf.length) :
    writeUint16 (readUint16 buf offset) = (buf.drop offset).take 2 := by
  rw [readUint16, bytes_of_uint16, ← map_getD_range h]
  rfl

/-! ## Fix records -/

def fixRecordVersion : UInt8 := 1

/-- The place of the terminator in a timestamp array. -/
theorem fixTimestampEnd : 20 < 21 := by decide

def fixRecordWireSize : Nat := 64

/-- Fixed-width representation of one accepted fix; `recordedAt` is the C character array. -/
structure FixRecord where
  sequenceId : UInt32
  bootId : UInt32
  recordedAt : Vector UInt8 21
  latitudeE6 : Int32
  longitudeE6 : Int32
  altitudeCm : Int32
  speedMmps : Int32
  accuracyCm : Int32
  satellitesUsed : UInt16
  batteryMv : UInt16
  signalStrength : Int8
  validFields : UInt8
  deriving DecidableEq, Repr

/-- The 62 checksummed bytes of a record: each field at its offset, bytes 56 to 61 zero. -/
def FixRecord.body (record : FixRecord) : List UInt8 :=
  [fixRecordVersion] ++ (writeUint32 record.sequenceId ++ (writeUint32 record.bootId ++
  (record.recordedAt.toList ++ (writeUint32 record.latitudeE6.toUInt32 ++
  (writeUint32 record.longitudeE6.toUInt32 ++ (writeUint32 record.altitudeCm.toUInt32 ++
  (writeUint32 record.speedMmps.toUInt32 ++ (writeUint32 record.accuracyCm.toUInt32 ++
  (writeUint16 record.satellitesUsed ++ (writeUint16 record.batteryMv ++
  ([record.signalStrength.toUInt8, record.validFields] ++ List.replicate 6 0)))))))))))

/-- Serialize a record with version and CRC into a buffer of `length` bytes. -/
def fixRecordEncode (record : FixRecord) (length : Nat) : Option (List UInt8) :=
  if length < fixRecordWireSize ∨ record.recordedAt[20] ≠ 0 then none
  else some (record.body ++ writeUint16 (calculateCrc16 record.body))

/-- Decode and validate version and CRC. -/
def fixRecordDecode (buffer : List UInt8) : Option FixRecord :=
  if buffer.length < fixRecordWireSize ∨ buffer.getD 0 0 ≠ fixRecordVersion ∨
      readUint16 buffer 62 ≠ calculateCrc16 (buffer.take 62) then none
  else
    let record : FixRecord :=
      { sequenceId := readUint32 buffer 1
        bootId := readUint32 buffer 5
        recordedAt := Vector.ofFn fun i => buffer.getD (9 + i) 0
        latitudeE6 := (readUint32 buffer 30).toInt32
        longitudeE6 := (readUint32 buffer 34).toInt32
        altitudeCm := (readUint32 buffer 38).toInt32
        speedMmps := (readUint32 buffer 42).toInt32
        accuracyCm := (readUint32 buffer 46).toInt32
        satellitesUsed := readUint16 buffer 50
        batteryMv := readUint16 buffer 52
        signalStrength := (buffer.getD 54 0).toInt8
        validFields := buffer.getD 55 0 }
    if record.recordedAt[20] = 0 then some record else none

@[simp] theorem FixRecord.length_body (record : FixRecord) : record.body.length = 62 := by
  simp [FixRecord.body]

theorem fixRecordEncode_eq_some {record : FixRecord} {length : Nat} {wire : List UInt8} :
    fixRecordEncode record length = some wire ↔
      64 ≤ length ∧ record.recordedAt[20] = 0 ∧
        wire = record.body ++ writeUint16 (calculateCrc16 record.body) := by
  unfold fixRecordEncode fixRecordWireSize
  split
  · next h => simp; intro h1 h2; rcases h with h | h <;> [omega; exact absurd h2 h]
  · next h => simp at h; simp [h, eq_comm]

theorem length_of_fixRecordEncode {record : FixRecord} {length : Nat} {wire : List UInt8}
    (h : fixRecordEncode record length = some wire) : wire.length = 64 := by
  simp [(fixRecordEncode_eq_some.mp h).2.2]

/-- The fields of a record read back from its body, whatever follows it. -/
private theorem fields_of_body (record : FixRecord) (rest : List UInt8) :
    readUint32 (record.body ++ rest) 1 = record.sequenceId ∧
    readUint32 (record.body ++ rest) 5 = record.bootId ∧
    readUint32 (record.body ++ rest) 30 = record.latitudeE6.toUInt32 ∧
    readUint32 (record.body ++ rest) 34 = record.longitudeE6.toUInt32 ∧
    readUint32 (record.body ++ rest) 38 = record.altitudeCm.toUInt32 ∧
    readUint32 (record.body ++ rest) 42 = record.speedMmps.toUInt32 ∧
    readUint32 (record.body ++ rest) 46 = record.accuracyCm.toUInt32 ∧
    readUint16 (record.body ++ rest) 50 = record.satellitesUsed ∧
    readUint16 (record.body ++ rest) 52 = record.batteryMv ∧
    (record.body ++ rest).getD 54 0 = record.signalStrength.toUInt8 ∧
    (record.body ++ rest).getD 55 0 = record.validFields := by
  simp only [FixRecord.body, List.append_assoc]
  refine ⟨?_, ?_, ?_, ?_, ?_, ?_, ?_, ?_, ?_, ?_, ?_⟩ <;>
    simp (disch := simp) only [readUint32_skip, readUint16_skip, getD_skip, List.length_cons,
      List.length_nil, length_writeUint32, length_writeUint16, Vector.length_toList, Nat.reduceSub,
      Nat.reduceAdd, readUint32_write, readUint16_write]
  · rfl
  · rfl

/-- The timestamp bytes read back from a body. -/
private theorem stamp_of_body (record : FixRecord) (rest : List UInt8) :
    (Vector.ofFn fun i : Fin 21 => (record.body ++ rest).getD (9 + i) 0) = record.recordedAt := by
  apply Vector.ext
  intro i hi
  rw [Vector.getElem_ofFn, FixRecord.body]
  simp only [List.append_assoc]
  rw [getD_skip (by simp; omega), getD_skip (by simp; omega), getD_skip (by simp; omega),
    List.getD_eq_getElem?_getD, List.getElem?_append_left (by simp; omega)]
  simp only [List.length_singleton, length_writeUint32]
  rw [show 9 + i - 1 - 4 - 4 = i by omega]
  simp [hi]

/-- The record codec round trip. -/
theorem fixRecordDecode_encode {record : FixRecord} {length : Nat} {wire : List UInt8}
    (h : fixRecordEncode record length = some wire) : fixRecordDecode wire = some record := by
  obtain ⟨-, hnul, rfl⟩ := fixRecordEncode_eq_some.mp h
  generalize hcrc : calculateCrc16 record.body = crc
  have hread : readUint16 (record.body ++ writeUint16 crc) 62 = crc := by
    rw [readUint16_skip (by simp)]
    simpa using readUint16_write crc []
  have htake : (record.body ++ writeUint16 crc).take 62 = record.body :=
    List.take_left' (by simp)
  obtain ⟨h1, h2, h3, h4, h5, h6, h7, h8, h9, h10, h11⟩ := fields_of_body record (writeUint16 crc)
  unfold fixRecordDecode
  rw [if_neg (by
    rw [hread, htake, hcrc]
    simp [fixRecordWireSize, FixRecord.body])]
  simp only [stamp_of_body, h1, h2, h3, h4, h5, h6, h7, h8, h9, h10, h11, hnul, if_true]
  rfl

/-! ## Queue meta -/

def fixQueueMetaWireSize : Nat := 32

/-- Metadata of the persistent ring, stored twice (A/B) on flash. -/
structure FixQueueMeta where
  generation : UInt32
  capacity : UInt32
  head : UInt32
  tail : UInt32
  count : UInt32
  nextSeq : UInt32
  lostCount : UInt32
  crc : UInt16
  deriving DecidableEq, Repr

/-- Fresh empty meta; `nextSeq` starts at 1, the backend rejects smaller ids. -/
def fixQueueMetaFresh (capacity : UInt32) : FixQueueMeta :=
  { generation := 0, capacity := capacity, head := 0, tail := 0, count := 0, nextSeq := 1
    lostCount := 0, crc := 0 }

/-- The structural check the encoder and the decoder share. -/
def FixQueueMeta.WellFormed (m : FixQueueMeta) : Prop :=
  m.capacity ≠ 0 ∧ m.head < m.capacity ∧ m.tail < m.capacity ∧ m.count ≤ m.capacity

instance (m : FixQueueMeta) : Decidable m.WellFormed :=
  inferInstanceAs (Decidable (_ ∧ _ ∧ _ ∧ _))

/-- The 28 checksummed bytes of a meta slot. -/
def FixQueueMeta.body (m : FixQueueMeta) : List UInt8 :=
  writeUint32 m.generation ++ (writeUint32 m.capacity ++ (writeUint32 m.head ++
  (writeUint32 m.tail ++ (writeUint32 m.count ++ (writeUint32 m.nextSeq ++
  writeUint32 m.lostCount)))))

/-- Serialize with fixed layout and CRC; the last two bytes of the slot stay zero. -/
def fixQueueMetaEncode (m : FixQueueMeta) (length : Nat) : Option (List UInt8) :=
  if length < fixQueueMetaWireSize ∨ ¬ m.WellFormed then none
  else some (m.body ++ (writeUint16 (calculateCrc16 m.body) ++ [0, 0]))

/-- Decode and verify CRC and structure. Unlike the encoder it also refuses `nextSeq = 0`. -/
def fixQueueMetaDecode (buf : List UInt8) : Option FixQueueMeta :=
  if buf.length < fixQueueMetaWireSize then none
  else if readUint16 buf 28 ≠ calculateCrc16 (buf.take 28) then none
  else
    let m : FixQueueMeta :=
      { generation := readUint32 buf 0
        capacity := readUint32 buf 4
        head := readUint32 buf 8
        tail := readUint32 buf 12
        count := readUint32 buf 16
        nextSeq := readUint32 buf 20
        lostCount := readUint32 buf 24
        crc := readUint16 buf 28 }
    if ¬ m.WellFormed then none
    else if m.nextSeq = 0 then none
    else some m

/-- The meta that survives a power loss: invalid slots are ignored, the higher generation wins,
and on equal generations slot A does. -/
def fixQueueMetaPick (a b : Option FixQueueMeta) : Option FixQueueMeta :=
  match a, b with
  | some a, some b => some (if b.generation > a.generation then b else a)
  | some a, none => some a
  | none, some b => some b
  | none, none => none

def fixQueueIsFull (m : FixQueueMeta) : Bool := m.count ≥ m.capacity

/-- Advance `index` modulo `capacity`. -/
def fixQueueAdvance (index capacity : UInt32) : UInt32 :=
  if capacity = 0 then 0 else (index + 1) % capacity

/-- The meta as the decoder returns it, with the checksum of its body. -/
def FixQueueMeta.sealed (m : FixQueueMeta) : FixQueueMeta :=
  { m with crc := calculateCrc16 m.body }

@[simp] theorem FixQueueMeta.length_body (m : FixQueueMeta) : m.body.length = 28 := by
  simp [FixQueueMeta.body]

theorem fixQueueMetaEncode_eq_some {m : FixQueueMeta} {length : Nat} {wire : List UInt8} :
    fixQueueMetaEncode m length = some wire ↔
      32 ≤ length ∧ m.WellFormed ∧
        wire = m.body ++ (writeUint16 (calculateCrc16 m.body) ++ [0, 0]) := by
  unfold fixQueueMetaEncode fixQueueMetaWireSize
  split
  · next h => simp; intro h1 h2; rcases h with h | h <;> [omega; exact absurd h2 h]
  · next h => simp at h; simp [h, eq_comm]

theorem length_of_fixQueueMetaEncode {m : FixQueueMeta} {length : Nat} {wire : List UInt8}
    (h : fixQueueMetaEncode m length = some wire) : wire.length = 32 := by
  simp [(fixQueueMetaEncode_eq_some.mp h).2.2]

private theorem fields_of_metaBody (m : FixQueueMeta) (rest : List UInt8) :
    readUint32 (m.body ++ rest) 0 = m.generation ∧
    readUint32 (m.body ++ rest) 4 = m.capacity ∧
    readUint32 (m.body ++ rest) 8 = m.head ∧
    readUint32 (m.body ++ rest) 12 = m.tail ∧
    readUint32 (m.body ++ rest) 16 = m.count ∧
    readUint32 (m.body ++ rest) 20 = m.nextSeq ∧
    readUint32 (m.body ++ rest) 24 = m.lostCount := by
  simp only [FixQueueMeta.body, List.append_assoc]
  refine ⟨?_, ?_, ?_, ?_, ?_, ?_, ?_⟩ <;>
    simp (disch := simp) only [readUint32_skip, length_writeUint32, Nat.reduceSub,
      readUint32_write]

/-- What an encoded slot decodes to: the meta itself, unless its `nextSeq` wrapped to zero. -/
theorem fixQueueMetaDecode_encode {m : FixQueueMeta} {length : Nat} {wire : List UInt8}
    (h : fixQueueMetaEncode m length = some wire) :
    fixQueueMetaDecode wire = if m.nextSeq = 0 then none else some m.sealed := by
  obtain ⟨-, hwf, rfl⟩ := fixQueueMetaEncode_eq_some.mp h
  have htake : (m.body ++ (writeUint16 (calculateCrc16 m.body) ++ [0, 0])).take 28 = m.body :=
    List.take_left' (by simp)
  have hread : readUint16 (m.body ++ (writeUint16 (calculateCrc16 m.body) ++ [0, 0])) 28 =
      calculateCrc16 m.body := by
    rw [readUint16_skip (by simp)]
    simp
  obtain ⟨h1, h2, h3, h4, h5, h6, h7⟩ :=
    fields_of_metaBody m (writeUint16 (calculateCrc16 m.body) ++ [0, 0])
  unfold fixQueueMetaDecode
  rw [if_neg (by simp [fixQueueMetaWireSize]), if_neg (by rw [hread, htake]; simp)]
  simp only [h1, h2, h3, h4, h5, h6, h7, hread]
  have hwf' : m.sealed.WellFormed := hwf
  show (if ¬ m.sealed.WellFormed then none else if m.nextSeq = 0 then none else some m.sealed) = _
  rw [if_neg (not_not_intro hwf')]

/-- Whatever decodes is well formed and has a positive next sequence id. -/
theorem wellFormed_of_fixQueueMetaDecode {buf : List UInt8} {m : FixQueueMeta}
    (h : fixQueueMetaDecode buf = some m) : m.WellFormed ∧ m.nextSeq ≠ 0 := by
  unfold fixQueueMetaDecode at h
  split at h
  · cases h
  split at h
  · cases h
  dsimp only at h
  split at h
  · cases h
  split at h
  · cases h
  next hwf hseq =>
    cases h
    exact ⟨not_not.mp hwf, hseq⟩

end OpenGps.Firmware
