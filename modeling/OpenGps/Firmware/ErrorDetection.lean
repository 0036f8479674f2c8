import OpenGps.Firmware.FixQueue
import OpenGps.Lib.Crc

/-!
# Corruption the record and meta codecs detect (`lib/fix_queue`)

`calculateCrc16` is the reflected register of width 16 with taps `0xA001`. Its bytes are stored low
byte first right behind the bytes they cover, so that the checked part of a slot, read bit by bit
with the least significant bit of each byte first, is a codeword of `Lib.Crc`. A second slot that
also passes the check is another codeword of the same length.
-/

namespace OpenGps.Firmware

open OpenGps.Lib

/-! ## The checksum as a register -/

def crcTaps : BitVec 16 := 0xA001

theorem low_bit_iff (crc : UInt16) : crc &&& 1 ≠ 0 ↔ crc.toBitVec.getLsbD 0 = true := by
  have h : (crc &&& 1).toBitVec = BitVec.setWidth 16 (BitVec.ofBool (crc.toBitVec.getLsbD 0)) := by
    rw [UInt16.toBitVec_and]
    exact BitVec.and_one_eq_setWidth_ofBool_getLsbD
  rw [← UInt16.toBitVec_inj.ne, h]
  cases crc.toBitVec.getLsbD 0 <;> decide

theorem toBitVec_crcBit (crc : UInt16) :
    (crcBit crc).toBitVec = Crc.shift crcTaps crc.toBitVec := by
  rw [crcBit, Crc.shift]
  by_cases hlow : crc &&& 1 ≠ 0
  · rw [if_pos hlow, if_pos ((low_bit_iff crc).mp hlow), UInt16.toBitVec_xor,
      UInt16.toBitVec_shiftRight]
    rfl
  · rw [if_neg hlow, if_neg (mt (low_bit_iff crc).mpr hlow), UInt16.toBitVec_shiftRight]
    rfl

theorem toBitVec_crcByte (crc : UInt16) (byte : UInt8) :
    (crcByte crc byte).toBitVec = Crc.absorb crcTaps crc.toBitVec byte.toBitVec := by
  have hiter : ∀ (n : ℕ) (s : UInt16),
      (crcBit^[n] s).toBitVec = (Crc.shift crcTaps)^[n] s.toBitVec := fun n s =>
    Function.Semiconj.iterate_right toBitVec_crcBit n s
  rw [crcByte, hiter, UInt16.toBitVec_xor, UInt8.toBitVec_toUInt16]
  rfl

theorem toBitVec_calculateCrc16 (data : List UInt8) :
    (calculateCrc16 data).toBitVec =
      Crc.checksum crcTaps 0xFFFF (data.map UInt8.toBitVec) := by
  have hfold : ∀ crc : UInt16, (data.foldl crcByte crc).toBitVec =
      Crc.checksum crcTaps crc.toBitVec (data.map UInt8.toBitVec) := by
    induction data with
    | nil => exact fun _ => rfl
    | cons byte data ih =>
      intro crc
      rw [List.foldl_cons, ih, toBitVec_crcByte]
      rfl
  exact hfold 0xFFFF

/-! ## Slots as codewords -/

/-- The bits of some bytes, the least significant bit of each byte first. -/
def bitsOf (bytes : List UInt8) : List Bool := bytes.flatMap fun b => Crc.bits b.toBitVec

theorem bitsOf_writeUint16 (v : UInt16) : bitsOf (writeUint16 v) = Crc.bits v.toBitVec := by
  simp [bitsOf, writeUint16, Crc.bits]

theorem bitsOf_checksummed (data : List UInt8) :
    bitsOf (data ++ writeUint16 (calculateCrc16 data)) =
      Crc.codeword crcTaps 0xFFFF (data.map UInt8.toBitVec) := by
  rw [bitsOf, List.flatMap_append, ← bitsOf, ← bitsOf, bitsOf_writeUint16, toBitVec_calculateCrc16,
    Crc.codeword, List.flatMap_map]
  rfl

/-- The bits in which the first `n` bytes of two slots differ. -/
def flipped (n : ℕ) (wire wire' : List UInt8) : List Bool :=
  Crc.diff (bitsOf (wire.take n)) (bitsOf (wire'.take n))

/-- The errors the checksum is for: an odd number of bits, or some bits that all lie within 16
consecutive positions. -/
def Detectable (e : List Bool) : Prop := Odd (e.count true) ∨ Crc.Burst 16 e

/-- A slot whose two bytes at `n` are the checksum of the bytes before them. -/
def CrcPasses (n : ℕ) (buf : List UInt8) : Prop :=
  n + 2 ≤ buf.length ∧ readUint16 buf n = calculateCrc16 (buf.take n)

theorem CrcPasses.bitsOf_take {n : ℕ} {buf : List UInt8} (h : CrcPasses n buf) :
    bitsOf (buf.take (n + 2)) =
      Crc.codeword crcTaps 0xFFFF ((buf.take n).map UInt8.toBitVec) := by
  rw [← bitsOf_checksummed, ← h.2, writeUint16_read h.1, List.take_add]

/-- Two slots that pass the check do not differ by a detectable error. -/
theorem CrcPasses.not_detectable {n : ℕ} {buf buf' : List UInt8} (h : CrcPasses n buf)
    (h' : CrcPasses n buf') : ¬ Detectable (flipped (n + 2) buf buf') := by
  have hlen : ((buf.take n).map UInt8.toBitVec).length =
      ((buf'.take n).map UInt8.toBitVec).length := by
    have h1 := h.1
    have h2 := h'.1
    simp
    omega
  rw [flipped, h.bitsOf_take, h'.bitsOf_take]
  rintro (hodd | hburst)
  · exact Crc.not_odd_of_codewords crcTaps (by decide) (by decide) _ hlen hodd
  · exact Crc.not_burst_of_codewords crcTaps (by decide) (by decide) (by decide) _ hlen hburst

/-! ## The two codecs -/

theorem CrcPasses.of_recordDecode {buf : List UInt8} {record : FixRecord}
    (h : fixRecordDecode buf = some record) : CrcPasses 62 buf := by
  unfold fixRecordDecode at h
  split at h
  · cases h
  · next haccept =>
    obtain ⟨hlen, -, hcrc⟩ : 64 ≤ buf.length ∧ buf.getD 0 0 = fixRecordVersion ∧
        readUint16 buf 62 = calculateCrc16 (buf.take 62) := by
      simpa [fixRecordWireSize] using haccept
    exact ⟨hlen, hcrc⟩

theorem CrcPasses.of_metaDecode {buf : List UInt8} {m : FixQueueMeta}
    (h : fixQueueMetaDecode buf = some m) : CrcPasses 28 buf := by
  unfold fixQueueMetaDecode at h
  split at h
  · cases h
  next hlen =>
  split at h
  · cases h
  next hcrc =>
  have hlen : 32 ≤ buf.length := not_lt.mp hlen
  exact ⟨by omega, not_not.mp hcrc⟩

theorem crcPasses_append {data : List UInt8} {n : ℕ} (rest : List UInt8) (h : data.length = n) :
    CrcPasses n (data ++ (writeUint16 (calculateCrc16 data) ++ rest)) := by
  subst h
  constructor
  · simp
  · rw [readUint16_skip le_rfl, Nat.sub_self, readUint16_write, List.take_left]

/-- A record comes back from its encoding, and no slot that differs from an encoded record, or from
an encoded meta up to its checksum, by a detectable error is accepted. -/
theorem codecs_detect_corruption :
    (∀ (record : FixRecord) (length : ℕ) (wire : List UInt8),
      fixRecordEncode record length = some wire →
        fixRecordDecode wire = some record ∧
          ∀ wire', Detectable (flipped 64 wire wire') → fixRecordDecode wire' = none) ∧
    (∀ (m : FixQueueMeta) (length : ℕ) (wire : List UInt8),
      fixQueueMetaEncode m length = some wire →
        ∀ wire', Detectable (flipped 30 wire wire') → fixQueueMetaDecode wire' = none) := by
  refine ⟨fun record length wire henc => ⟨fixRecordDecode_encode henc, fun wire' herr => ?_⟩,
    fun m length wire henc wire' herr => ?_⟩
  · have hpass : CrcPasses 62 wire := .of_recordDecode (fixRecordDecode_encode henc)
    by_contra hsome
    obtain ⟨record', hdec⟩ := Option.ne_none_iff_exists'.mp hsome
    exact hpass.not_detectable (.of_recordDecode hdec) herr
  · -- An encoded meta passes the check even where the decoder refuses its `nextSeq`.
    have hpass : CrcPasses 28 wire := by
      rw [(fixQueueMetaEncode_eq_some.mp henc).2.2]
      exact crcPasses_append _ m.length_body
    by_contra hsome
    obtain ⟨m', hdec⟩ := Option.ne_none_iff_exists'.mp hsome
    exact hpass.not_detectable (.of_metaDecode hdec) herr

set_option maxRecDepth 100000 in
/-- One flipped bit, in a record and in the capacity of a fresh meta. -/
theorem flipped_bit_detected :
    (∃ record wire, fixRecordEncode record 64 = some wire ∧ fixRecordDecode wire = some record ∧
      fixRecordDecode (wire.set 10 (wire.getD 10 0 ^^^ 1)) = none) ∧
    (∃ wire, fixQueueMetaEncode (fixQueueMetaFresh 4) 32 = some wire ∧
      fixQueueMetaDecode (wire.set 4 (wire.getD 4 0 ^^^ 1)) = none) := by
  constructor
  · let record : FixRecord :=
      { sequenceId := 7, bootId := 1, recordedAt := Vector.replicate 21 0, latitudeE6 := 0
        longitudeE6 := 0, altitudeCm := 0, speedMmps := 0, accuracyCm := 0, satellitesUsed := 0
        batteryMv := 0, signalStrength := 0, validFields := 0 }
    have henc := fixRecordEncode_eq_some.mpr
      ⟨le_refl 64, (show record.recordedAt[20] = 0 by decide), rfl⟩
    obtain ⟨hdec, hreject⟩ := codecs_detect_corruption.1 record 64 _ henc
    exact ⟨record, _, henc, hdec, hreject _ (.inl (by decide +kernel))⟩
  · have henc := fixQueueMetaEncode_eq_some.mpr
      ⟨le_refl 32, (show (fixQueueMetaFresh 4).WellFormed by decide), rfl⟩
    exact ⟨_, henc, codecs_detect_corruption.2 _ 32 _ henc _ (.inl (by decide +kernel))⟩

end OpenGps.Firmware
