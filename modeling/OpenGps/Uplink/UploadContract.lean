import OpenGps.Firmware.SamplingPolicy
import OpenGps.Firmware.StoreQueue
import OpenGps.Uplink.BatchUpload
import OpenGps.Uplink.RecordedAt

/-!
# What the device queues and what the backend validates

A fix passes the sampling policy, is converted to a record, stamped and written to flash, and comes
back as an item of a batch. The backend validates the items of a request as a whole, so one invalid
item holds back the queue. Coordinates, speed, accuracy, battery and signal of a queued record are
always in range; the altitude and the calendar fields are checked by neither the policy nor the
conversion.
-/

namespace OpenGps.Uplink

open OpenGps.Lib OpenGps.Lib.CrashIo OpenGps.Firmware OpenGps.Backend

/-! ## The record of a fix -/

section
variable {unspecified : Double → Int64}

theorem scaled_eq {q scale : ℚ} (h : |q * scale| ≤ 2 ^ 52) :
    scaled unspecified (.finite q) scale =
      ((Double.finite (Binary64.nearest (q * scale))).llround unspecified).toInt32 := by
  rw [scaled, show (Double.finite q * .finite scale) = .ofRat (q * scale) from rfl, Double.ofRat_eq h]

/-- A 32-bit result on either side of zero. -/
theorem scaled_between (lo hi : ℤ) {q scale : ℚ} (hlo : -2 ^ 31 ≤ lo) (hlo' : lo ≤ 0)
    (hhi : hi < 2 ^ 31) (hhi' : 0 ≤ hi) (h : lo ≤ q * scale) (h' : q * scale ≤ hi) :
    lo ≤ (scaled unspecified (.finite q) scale).toInt ∧
      (scaled unspecified (.finite q) scale).toInt ≤ hi := by
  have hloQ : (-2 ^ 31 : ℚ) ≤ lo := by exact_mod_cast hlo
  have hhiQ : (hi : ℚ) ≤ 2 ^ 31 := by exact_mod_cast hhi.le
  have hround := Binary64.nearest_between lo hi (by rw [abs_lt]; omega) (by rw [abs_lt]; omega) h h'
  have hint := (Double.llround_between_iff unspecified hlo' hhi'
    (abs_le.mpr ⟨by linarith, by linarith⟩)).mpr ⟨by linarith, by linarith⟩
  rw [scaled_eq (abs_le.mpr ⟨by linarith, by linarith⟩), Int64.toInt_toInt32,
    Int.bmod_eq_of_le (by omega) (by omega)]
  exact hint

/-- What the later fields of a record leave alone; a known field stays known. -/
structure SameFix (out out' : FixRecord) : Prop where
  sequenceId : out'.sequenceId = out.sequenceId
  recordedAt : out'.recordedAt = out.recordedAt
  latitudeE6 : out'.latitudeE6 = out.latitudeE6
  longitudeE6 : out'.longitudeE6 = out.longitudeE6
  altitudeCm : out'.altitudeCm = out.altitudeCm
  altitude : out.has fixFieldAltitude → out'.has fixFieldAltitude

theorem SameFix.trans {r₁ r₂ r₃ : FixRecord} (h : SameFix r₁ r₂) (h' : SameFix r₂ r₃) :
    SameFix r₁ r₃ where
  sequenceId := h'.sequenceId.trans h.sequenceId
  recordedAt := h'.recordedAt.trans h.recordedAt
  latitudeE6 := h'.latitudeE6.trans h.latitudeE6
  longitudeE6 := h'.longitudeE6.trans h.longitudeE6
  altitudeCm := h'.altitudeCm.trans h.altitudeCm
  altitude known := h'.altitude (h.altitude known)

theorem FixRecord.has_or {record : FixRecord} {field : UInt8} (other : UInt8)
    (h : record.has field) :
    FixRecord.has { record with validFields := record.validFields ||| other } field := by
  have hdistrib : (record.validFields ||| other) &&& field =
      record.validFields &&& field ||| other &&& field := by
    rw [← UInt8.toNat_inj]
    simp only [UInt8.toNat_and, UInt8.toNat_or, Nat.and_or_distrib_right]
  simp only [FixRecord.has, ne_eq, decide_eq_true_eq] at h ⊢
  rw [hdistrib, UInt8.or_eq_zero_iff]
  exact fun hzero => h hzero.1

variable {p : LocationPayload} {out : FixRecord}

theorem sameFix_storeSpeed : SameFix out (storeSpeed unspecified p out) := by
  unfold storeSpeed
  split
  · exact ⟨rfl, rfl, rfl, rfl, rfl, FixRecord.has_or _⟩
  · exact ⟨rfl, rfl, rfl, rfl, rfl, fun h => h⟩

theorem sameFix_storeAccuracy : SameFix out (storeAccuracy unspecified p out) := by
  unfold storeAccuracy
  split
  · exact ⟨rfl, rfl, rfl, rfl, rfl, FixRecord.has_or _⟩
  · exact ⟨rfl, rfl, rfl, rfl, rfl, fun h => h⟩

theorem sameFix_storeSatellites : SameFix out (storeSatellites p out) := by
  unfold storeSatellites
  split
  · exact ⟨rfl, rfl, rfl, rfl, rfl, FixRecord.has_or _⟩
  · exact ⟨rfl, rfl, rfl, rfl, rfl, fun h => h⟩

theorem sameFix_storeBattery : SameFix out (storeBattery unspecified p out) := by
  unfold storeBattery
  split
  · dsimp only
    by_cases hmv : batteryMillivolts unspecified p.batteryVoltage > 0
    · rw [if_pos hmv]
      exact ⟨rfl, rfl, rfl, rfl, rfl, FixRecord.has_or _⟩
    · rw [if_neg hmv]
      exact ⟨rfl, rfl, rfl, rfl, rfl, fun h => h⟩
  · exact ⟨rfl, rfl, rfl, rfl, rfl, fun h => h⟩

theorem sameFix_storeSignal : SameFix out (storeSignal p out) := by
  unfold storeSignal
  split
  · exact ⟨rfl, rfl, rfl, rfl, rfl, FixRecord.has_or _⟩
  · exact ⟨rfl, rfl, rfl, rfl, rfl, fun h => h⟩

/-- The altitude a record holds: none when it is unknown, and otherwise a known one. -/
def storedAltitude (unspecified : Double → Int64) (altitude : Double) : Int32 :=
  if altitude = .finite 0 then 0 else scaled unspecified altitude 100

/-- What the conversion keeps of a fix. -/
structure RecordOf (unspecified : Double → Int64) (fix : LocationPayload) (sequenceId : UInt32)
    (record : FixRecord) : Prop where
  sequenceId : record.sequenceId = sequenceId
  recordedAt : record.recordedAt = fix.recordedAt
  latitudeE6 : record.latitudeE6 = scaled unspecified fix.latitude 1000000
  longitudeE6 : record.longitudeE6 = scaled unspecified fix.longitude 1000000
  altitudeCm : record.altitudeCm = storedAltitude unspecified fix.altitude
  altitude : fix.altitude ≠ .finite 0 → record.has fixFieldAltitude

/-- `push` gives the record its sequence id. -/
theorem RecordOf.stamp {fix : LocationPayload} {record : FixRecord}
    (h : RecordOf unspecified fix 0 record) (s : PersistentFixStore) :
    RecordOf unspecified fix s.queueMeta.nextSeq (s.stamp record) := by
  rw [PersistentFixStore.stamp, if_pos h.sequenceId]
  exact ⟨rfl, h.recordedAt, h.latitudeE6, h.longitudeE6, h.altitudeCm, h.altitude⟩

theorem recordOf_toFixRecord {fix : LocationPayload} {sequenceId bootId : UInt32}
    {record : FixRecord}
    (h : locationPayloadToFixRecord unspecified fix sequenceId bootId = some record) :
    RecordOf unspecified fix sequenceId record := by
  unfold locationPayloadToFixRecord at h
  split at h
  · cases h
  dsimp only at h
  generalize hout : ({ sequenceId, bootId, recordedAt := fix.recordedAt
                       latitudeE6 := scaled unspecified fix.latitude 1000000
                       longitudeE6 := scaled unspecified fix.longitude 1000000
                       altitudeCm := 0, speedMmps := 0, accuracyCm := 0, satellitesUsed := 0
                       batteryMv := 0, signalStrength := 0, validFields := 0 } : FixRecord) =
    out at h
  have hsame := (@sameFix_storeSpeed unspecified fix (storeAltitude unspecified fix out)).trans <|
    (@sameFix_storeAccuracy unspecified fix _).trans <| (@sameFix_storeSatellites fix _).trans <|
    (@sameFix_storeBattery unspecified fix _).trans <| @sameFix_storeSignal fix _
  rw [Option.some.inj h] at hsame
  have hbase : RecordOf unspecified fix sequenceId (storeAltitude unspecified fix out) := by
    subst hout
    unfold storeAltitude
    split
    · next halt =>
      refine ⟨rfl, rfl, rfl, rfl, (if_neg halt).symm, fun _ => ?_⟩
      show decide (((0 : UInt8) ||| 1) &&& 1 ≠ 0) = true
      decide
    · next halt =>
      exact ⟨rfl, rfl, rfl, rfl, (if_pos (not_not.mp halt)).symm, fun h => absurd h halt⟩
  exact ⟨hsame.sequenceId.trans hbase.sequenceId, hsame.recordedAt.trans hbase.recordedAt,
    hsame.latitudeE6.trans hbase.latitudeE6, hsame.longitudeE6.trans hbase.longitudeE6,
    hsame.altitudeCm.trans hbase.altitudeCm, fun h => hsame.altitude (hbase.altitude h)⟩

/-! ## The battery of a record -/

@[simp] theorem batteryMv_storeSignal : (storeSignal p out).batteryMv = out.batteryMv := by
  unfold storeSignal
  split <;> rfl

@[simp] theorem batteryMv_storeSatellites : (storeSatellites p out).batteryMv = out.batteryMv := by
  unfold storeSatellites
  split <;> rfl

@[simp] theorem batteryMv_storeAccuracy :
    (storeAccuracy unspecified p out).batteryMv = out.batteryMv := by
  unfold storeAccuracy
  split <;> rfl

@[simp] theorem batteryMv_storeSpeed : (storeSpeed unspecified p out).batteryMv = out.batteryMv := by
  unfold storeSpeed
  split <;> rfl

@[simp] theorem batteryMv_storeAltitude :
    (storeAltitude unspecified p out).batteryMv = out.batteryMv := by
  unfold storeAltitude
  split <;> rfl

theorem batteryMv_stamp (s : PersistentFixStore) (record : FixRecord) :
    (s.stamp record).batteryMv = record.batteryMv := by
  unfold PersistentFixStore.stamp
  split <;> rfl

theorem toNat_batteryMillivolts_le {q : ℚ} (h : 0 ≤ q) (h' : q ≤ 6) :
    (batteryMillivolts unspecified (.finite q)).toNat ≤ 6000 := by
  have hmv : Double.finite q * .finite 1000 = .finite (Binary64.nearest (q * 1000)) :=
    Double.ofRat_eq (abs_le.mpr ⟨by linarith, by linarith⟩)
  have hbound := Binary64.nearest_between 0 6000 (q := q * 1000) (by norm_num) (by norm_num)
    (by push_cast; linarith) (by push_cast; linarith)
  push_cast at hbound
  have hround := (Double.llround_between_iff unspecified (le_refl 0) (by norm_num : (0 : ℤ) ≤ 6000)
    (abs_le.mpr ⟨by linarith, by linarith⟩)).mpr ⟨by push_cast; linarith, by push_cast; linarith⟩
  unfold batteryMillivolts
  dsimp only
  split
  · rw [hmv]
    generalize (Double.finite (Binary64.nearest (q * 1000))).llround unspecified = x at hround
    have hpos : 0 ≤ x := Int64.le_iff_toInt_le.mpr hround.1
    rw [UInt64.toNat_toUInt16, Int64.toNat_toUInt64_of_le hpos]
    have hnat : x.toNatClampNeg ≤ 6000 := by
      rw [Int64.toNatClampNeg]
      omega
    omega
  · exact Nat.zero_le _

/-- A live reading is in the range of the API. -/
theorem battery_between {live : LiveReadings} {v : Double} (h : live.battery = some v) :
    ∃ q, v = .finite q ∧ 0 ≤ q ∧ q ≤ 6 := by
  unfold LiveReadings.battery at h
  dsimp only at h
  split at h
  · next hrange =>
    cases h
    have hmv := Double.ofInt_div_between live.batteryMv.toNat 0 65536
      (by norm_num : (0 : ℚ) < 1000) (by norm_num) (by norm_num) (by simp)
      (by have := live.batteryMv.toNat_lt; push_cast; norm_num; exact_mod_cast (by omega))
    refine ⟨_, hmv.1, by exact_mod_cast hmv.2.1, ?_⟩
    have hle := hrange.2
    rw [hmv.1] at hle
    exact Double.finite_le_finite.mp hle
  · cases h

theorem toNat_batteryMv_le {live : LiveReadings} {fix : LocationPayload}
    {sequenceId bootId : UInt32} {record : FixRecord} (hfix : fix.batteryVoltage = .finite 0)
    (h : locationPayloadToFixRecord unspecified (enrich live fix) sequenceId bootId =
      some record) : record.batteryMv.toNat ≤ 6000 := by
  unfold locationPayloadToFixRecord at h
  split at h
  · cases h
  cases h
  rw [batteryMv_storeSignal, storeBattery]
  split
  · obtain ⟨q, hq, hlo, hhi⟩ : ∃ q, (enrich live fix).batteryVoltage = .finite q ∧ 0 ≤ q ∧ q ≤ 6 := by
      rw [enrich]
      dsimp only
      rcases hlive : live.battery with _ | v
      · exact ⟨0, hfix, le_refl _, by norm_num⟩
      · exact battery_between hlive
    rw [hq]
    exact toNat_batteryMillivolts_le hlo hhi
  · simp

end

/-! ## The item of a record -/

/-- What the device relies on when it writes a number: integers are written exactly, the order is
kept, and up to a hundred thousand nothing is off by more than a thousandth. -/
structure FaithfulNumbers (number : Rat → Rat) : Prop where
  mono : Monotone number
  int : ∀ n : ℤ, |n| ≤ 1000000 → number n = n
  close : ∀ x, |x| ≤ 100000 → |number x - x| ≤ 1 / 1000

section
variable {number : Rat → Rat} (hnumber : FaithfulNumbers number)
include hnumber

theorem FaithfulNumbers.between (lo hi : ℤ) {q : ℚ} (hlo : |lo| ≤ 1000000) (hhi : |hi| ≤ 1000000)
    (h : lo ≤ q) (h' : q ≤ hi) : lo ≤ number q ∧ number q ≤ hi := by
  have hmono := hnumber.mono h
  have hmono' := hnumber.mono h'
  rw [hnumber.int lo hlo] at hmono
  rw [hnumber.int hi hhi] at hmono'
  exact ⟨hmono, hmono'⟩

/-- A member that is written only when it is positive. -/
theorem positive_member_valid (x : Double) :
    ((if x > .finite 0 then some x else none).bind (decodeNumber number)).all
      fun y => decide (0 ≤ y) := by
  split
  · next hpos =>
    cases x with
    | finite q =>
      have hq : (0 : ℚ) < q := Double.finite_lt_finite.mp hpos
      have hmono := hnumber.mono hq.le
      rw [show number 0 = 0 by exact_mod_cast hnumber.int 0 (by norm_num)] at hmono
      exact decide_eq_true hmono
    | infinite s => rfl
    | nan => rfl
  · rfl

/-- A coordinate in range, in millionths of a degree. -/
theorem coordinate_member_valid (bound : ℤ) {e6 : Int32} (hbound : 0 ≤ bound)
    (hbound' : bound ≤ 180) (h : -bound * 1000000 ≤ e6.toInt) (h' : e6.toInt ≤ bound * 1000000) :
    let x := Double.ofInt e6.toInt / .finite 1000000
    ((if x ≥ .finite (-(bound : ℚ)) ∧ x ≤ .finite (bound : ℚ) then some x else none).bind
      (decodeNumber number)).any fun y => decide (-(bound : ℚ) ≤ y ∧ y ≤ (bound : ℚ)) := by
  have hdiv := Double.ofInt_div_between e6.toInt (-bound) bound
    (by norm_num : (0 : ℚ) < 1000000) (by omega) (by omega) (by exact_mod_cast h)
    (by exact_mod_cast h')
  dsimp only
  rw [hdiv.1]
  have hlo : (-bound : ℚ) ≤ Binary64.nearest (e6.toInt / 1000000) := by exact_mod_cast hdiv.2.1
  have hnum := hnumber.between (-bound) bound (by rw [abs_le]; omega)
    (by rw [abs_le]; omega) hdiv.2.1 hdiv.2.2
  rw [if_pos ⟨Double.finite_le_finite.mpr hlo, Double.finite_le_finite.mpr hdiv.2.2⟩]
  exact decide_eq_true ⟨by exact_mod_cast hnum.1, hnum.2⟩

/-- A voltage is written when it is finite and positive. -/
theorem battery_member_valid {q : ℚ} (h : q ≤ 6) :
    ((if (Double.finite q).isFinite ∧ Double.finite q > .finite 0 then some (Double.finite q)
      else none).bind (decodeNumber number)).all fun y => decide (0 ≤ y ∧ y ≤ 6) := by
  split
  · next hpos =>
    have hq : (0 : ℚ) < q := Double.finite_lt_finite.mp hpos.2
    have hnum := hnumber.between 0 6 (by norm_num) (by norm_num)
      (by exact_mod_cast hq.le) (by exact_mod_cast h)
    exact decide_eq_true ⟨by exact_mod_cast hnum.1, by exact_mod_cast hnum.2⟩
  · rfl

/-- The altitude the backend reads is in its range exactly when the centimetres are: a centimetre
beyond a bound is more than the double and its digits can be off. -/
theorem altitude_number_iff {cm : ℤ} (hcm : -2 ^ 31 ≤ cm) (hcm' : cm < 2 ^ 31) :
    -500 ≤ number (Binary64.nearest (cm / 100)) ∧ number (Binary64.nearest (cm / 100)) ≤ 10000 ↔
      -50000 ≤ cm ∧ cm ≤ 1000000 := by
  constructor
  · rintro ⟨hlo, hhi⟩
    constructor
    · by_contra hlt
      have hle : (cm : ℚ) / 100 ≤ (-64001 : ℤ) * 2 ^ (-7 : ℤ) := by
        have : (cm : ℚ) ≤ -50001 := by exact_mod_cast (by omega : cm ≤ -50001)
        norm_num
        linarith
      have hnear := Binary64.nearest_mono hle
      rw [Binary64.nearest_eq_self ⟨_, _, by norm_num, by norm_num, rfl⟩] at hnear
      have hclose := abs_le.mp (hnumber.close ((-64001 : ℤ) * 2 ^ (-7 : ℤ)) (by norm_num))
      have hmono := hnumber.mono hnear
      norm_num at hclose hmono
      linarith
    · by_contra hlt
      have hle : (1280001 : ℤ) * 2 ^ (-7 : ℤ) ≤ (cm : ℚ) / 100 := by
        have : (1000001 : ℚ) ≤ cm := by exact_mod_cast (by omega : 1000001 ≤ cm)
        norm_num
        linarith
      have hnear := Binary64.nearest_mono hle
      rw [Binary64.nearest_eq_self ⟨_, _, by norm_num, by norm_num, rfl⟩] at hnear
      have hclose := abs_le.mp (hnumber.close ((1280001 : ℤ) * 2 ^ (-7 : ℤ)) (by norm_num))
      have hmono := hnumber.mono hnear
      norm_num at hclose hmono
      linarith
  · rintro ⟨hlo, hhi⟩
    have hbetween := Binary64.nearest_between (-500) 10000 (q := (cm : ℚ) / 100)
      (by norm_num) (by norm_num)
      (by have : (-50000 : ℚ) ≤ cm := by exact_mod_cast hlo
          push_cast; linarith)
      (by have : (cm : ℚ) ≤ 1000000 := by exact_mod_cast hhi
          push_cast; linarith)
    have hnum := hnumber.between _ _ (by norm_num) (by norm_num) hbetween.1 hbetween.2
    exact ⟨by exact_mod_cast hnum.1, by exact_mod_cast hnum.2⟩

theorem altitude_member_valid_iff (cm : Int32) :
    let x := Double.ofInt cm.toInt / .finite 100
    ((if x ≠ .finite 0 then some x else none).bind (decodeNumber number)).all
      (fun y => decide (-500 ≤ y ∧ y ≤ 10000)) = true ↔
        -50000 ≤ cm.toInt ∧ cm.toInt ≤ 1000000 := by
  have hmin := cm.le_toInt
  have hmax := cm.toInt_lt
  have hdiv := Double.ofInt_div_between cm.toInt (-2 ^ 31) (2 ^ 31)
    (by norm_num : (0 : ℚ) < 100) (by norm_num) (by norm_num)
    (by exact_mod_cast (by omega : (-2 ^ 31 * 100 : ℤ) ≤ cm.toInt))
    (by exact_mod_cast (by omega : cm.toInt ≤ (2 ^ 31 * 100 : ℤ)))
  have hiff := altitude_number_iff hnumber hmin hmax
  dsimp only
  rw [hdiv.1, ← hiff]
  by_cases hzero : Binary64.nearest (cm.toInt / 100) = 0
  · -- A zero is not written, and would be in range.
    rw [hzero, if_neg (not_not.mpr rfl),
      show number 0 = 0 by exact_mod_cast hnumber.int 0 (by norm_num)]
    norm_num
  · rw [if_pos fun h => hzero (Double.finite.inj h)]
    exact decide_eq_true_iff

end

/-! ## Valid items -/

theorem altitude_fromFixRecord {unspecified : Double → Int64} {fix : LocationPayload}
    {sequenceId : UInt32} {record : FixRecord} (h : RecordOf unspecified fix sequenceId record) :
    (locationPayloadFromFixRecord record).altitude =
      .ofInt record.altitudeCm.toInt / .finite 100 := by
  by_cases hknown : record.has fixFieldAltitude
  · exact if_pos hknown
  · have hzero : fix.altitude = .finite 0 := by
      by_contra hne
      exact hknown (h.altitude hne)
    rw [h.altitudeCm, storedAltitude, if_pos hzero]
    exact (if_neg hknown).trans (by decide +kernel)

/-- The voltage of a payload: the queued one, the reading of the upload, or zero. -/
theorem battery_batchPayload (live : LiveReadings) {record : FixRecord}
    (h : record.batteryMv.toNat ≤ 6000) :
    ∃ q, (batchPayload live record).batteryVoltage = .finite q ∧ q ≤ 6 := by
  unfold batchPayload locationPayloadFromFixRecord
  dsimp only
  split
  · have hdiv := Double.ofInt_div_between record.batteryMv.toNat 0 6
      (by norm_num : (0 : ℚ) < 1000) (by norm_num) (by norm_num) (by simp)
      (by push_cast; norm_num; exact_mod_cast h)
    exact ⟨_, hdiv.1, by exact_mod_cast hdiv.2.2⟩
  · rcases hlive : live.battery with _ | v
    · exact ⟨0, rfl, by norm_num⟩
    · obtain ⟨q, hq, -, hle⟩ := battery_between hlive
      exact ⟨q, hq, hle⟩

theorem sequenceID_pos_iff {number : Rat → Rat} {live : LiveReadings} {record : FixRecord} :
    0 < (uploadItem number live record).sequenceID ↔ record.sequenceId ≠ 0 := by
  have hpayload : (batchPayload live record).sequenceId = record.sequenceId := ite_self _
  have hsequence : (uploadItem number live record).sequenceID = record.sequenceId.toUInt64 := by
    unfold uploadItem decodeItem locationPayloadToJson
    dsimp only
    simp only [hpayload]
    split
    · rfl
    · next hpos =>
      rw [not_not.mp (mt UInt32.pos_iff_ne_zero.mpr hpos)]
      rfl
  rw [hsequence, UInt64.pos_iff_ne_zero]
  exact not_congr (show record.sequenceId.toUInt64 = UInt32.toUInt64 0 ↔ _ from
    UInt32.toUInt64_inj)

theorem signal_member_valid (signal : Int8) :
    ((if signal ≥ 0 ∧ signal ≤ 31 then some signal else none).map Int8.toInt).all
      fun x => decide (0 ≤ x ∧ x ≤ 31) := by
  split
  · next hrange =>
    exact decide_eq_true ⟨Int8.le_iff_toInt_le.mp hrange.1, Int8.le_iff_toInt_le.mp hrange.2⟩
  · rfl

section
variable {number : Rat → Rat} (hnumber : FaithfulNumbers number)
include hnumber

/-- Of the item of a record everything is valid but the altitude and the timestamp. -/
theorem uploadItem_valid_iff {unspecified : Double → Int64} {fix : LocationPayload}
    {sequenceId : UInt32} {record : FixRecord} (live : LiveReadings)
    (h : RecordOf unspecified fix sequenceId record) (hfix : SamplingPolicy.validCoordinates fix)
    (hbattery : record.batteryMv.toNat ≤ 6000) :
    (uploadItem number live record).Valid ↔
      (-50000 ≤ record.altitudeCm.toInt ∧ record.altitudeCm.toInt ≤ 1000000) ∧
        (Rfc3339.parse (cString record.recordedAt)).isSome := by
  obtain ⟨-, -, hlat, hlat', hlon, hlon', -, -⟩ := of_decide_eq_true hfix
  -- The policy has checked the coordinates before they were scaled to integers.
  obtain ⟨lat, hlatEq, hlatLo, hlatHi⟩ := Double.finite_of_between hlat hlat'
  obtain ⟨lon, hlonEq, hlonLo, hlonHi⟩ := Double.finite_of_between hlon hlon'
  have hlatE6 : -90 * 1000000 ≤ record.latitudeE6.toInt ∧
      record.latitudeE6.toInt ≤ 90 * 1000000 := by
    rw [h.latitudeE6, hlatEq]
    exact scaled_between (-90 * 1000000) (90 * 1000000) (by norm_num) (by norm_num) (by norm_num)
      (by norm_num) (by push_cast; linarith) (by push_cast; linarith)
  have hlonE6 : -180 * 1000000 ≤ record.longitudeE6.toInt ∧
      record.longitudeE6.toInt ≤ 180 * 1000000 := by
    rw [h.longitudeE6, hlonEq]
    exact scaled_between (-180 * 1000000) (180 * 1000000) (by norm_num) (by norm_num)
      (by norm_num) (by norm_num) (by push_cast; linarith) (by push_cast; linarith)
  obtain ⟨volts, hvolts, hvoltsLe⟩ := battery_batchPayload live hbattery
  have haltitude : ((uploadItem number live record).altitude.all fun x => -500 ≤ x ∧ x ≤ 10000) =
      true ↔ -50000 ≤ record.altitudeCm.toInt ∧ record.altitudeCm.toInt ≤ 1000000 := by
    have hiff := altitude_member_valid_iff hnumber record.altitudeCm
    rw [← altitude_fromFixRecord h] at hiff
    exact hiff
  constructor
  · intro hvalid
    exact ⟨haltitude.mp hvalid.altitude, hvalid.recordedAt.2⟩
  · rintro ⟨hcm, htime⟩
    have hne : cString record.recordedAt ≠ [] := by
      intro hnil
      rw [hnil] at htime
      cases htime
    exact {
      sequenceID := (eq_or_ne _ 0).imp id UInt64.pos_iff_ne_zero.mpr
      recordedAt := ⟨hne, htime⟩
      latitude := coordinate_member_valid hnumber 90 (by norm_num) (by norm_num) hlatE6.1 hlatE6.2
      longitude :=
        coordinate_member_valid hnumber 180 (by norm_num) (by norm_num) hlonE6.1 hlonE6.2
      altitude := haltitude.mpr hcm
      speed := positive_member_valid hnumber _
      accuracy := positive_member_valid hnumber _
      batteryVoltage := by
        have hmember := battery_member_valid hnumber hvoltsLe
        rw [← hvolts] at hmember
        exact hmember
      signalStrength := signal_member_valid _ }

end

/-! ## Queued fixes -/

/-- What `push` stored can be read back: the record with its sequence id, in the head slot. -/
theorem slotRecord_of_push {s s' : PersistentFixStore} {record stored : FixRecord}
    {d d' : Disk StorePath} (h : s.push record d = (some (true, s', stored), d')) :
    slotRecord (d'.files .data) s.queueMeta.head = some (s.stamp record) := by
  have hwp : wp (s.push record)
      (fun r d' => r.1 = true → slotRecord (d'.files .data) s.queueMeta.head = some (s.stamp record))
      (fun _ => True) d := by
    apply PersistentFixStore.wp_push
    · intro _ hfalse
      cases hfalse
    · intro _ _ _ _ _ hfalse
      cases hfalse
    · intro _ wire hwire d₁ hwritten _
      obtain ⟨base, -, hdata⟩ := hwritten.data
      have hslot : slotRecord (d₁.files .data) s.queueMeta.head = some (s.stamp record) := by
        rw [hdata]
        exact slotRecord_written hwire rfl
      apply PersistentFixStore.wp_commitMeta
      · intro _ hfalse
        cases hfalse
      · intro d₂ hpublished _ _
        rw [hpublished.data]
        exact hslot
      · intro _ _ _ _ _ hfalse
        cases hfalse
      · intros; trivial
      · intros; trivial
    · intros; trivial
  exact wp_of_returns hwp h rfl

/-- The values of one `getGPS`. -/
structure Poll where
  latitude : Double
  longitude : Double
  speedKmh : Double
  altitude : Double
  satsUsed : UInt16
  accuracyM : Double
  (yy mo dd hh mi ss : Int16)

def Poll.fix (poll : Poll) : LocationPayload :=
  locationPayloadFromFix poll.latitude poll.longitude poll.speedKmh poll.altitude poll.satsUsed
    poll.accuracyM poll.yy poll.mo poll.dd poll.hh poll.mi poll.ss

/-- A fix that the policy decided to upload, that was converted with the readings of that moment and
that `push` stored. -/
structure QueuedFix (math : MathFunctions) (unspecified : Double → Int64) where
  poll : Poll
  policy : SamplingPolicy
  nowMs : UInt32
  live : LiveReadings
  bootId : UInt32
  record : FixRecord
  store : PersistentFixStore
  disk : Disk StorePath
  store' : PersistentFixStore
  stored : FixRecord
  disk' : Disk StorePath
  shouldUpload : (policy.onFix math nowMs poll.fix).1.shouldUpload
  converted : locationPayloadToFixRecord unspecified (enrich live poll.fix) 0 bootId = some record
  pushed : store.push record disk = (some (true, store', stored), disk')

/-- The main loop from a polled fix to the queue. -/
def enqueue (math : MathFunctions) (unspecified : Double → Int64) (policy : SamplingPolicy)
    (nowMs : UInt32) (poll : Poll) (live : LiveReadings) (bootId : UInt32)
    (store : PersistentFixStore) (disk : Disk StorePath) : Option (QueuedFix math unspecified) :=
  if shouldUpload : (policy.onFix math nowMs poll.fix).1.shouldUpload then
    match converted : locationPayloadToFixRecord unspecified (enrich live poll.fix) 0 bootId with
    | none => none
    | some record =>
      match pushed : store.push record disk with
      | (some (true, store', stored), disk') =>
        some { poll, policy, nowMs, live, bootId, record, store, disk, store', stored, disk'
               shouldUpload, converted, pushed }
      | _ => none
  else none

/-- The altitude is less than half a centimetre beyond the range of the API. -/
def AltitudeFits (unspecified : Double → Int64) (altitude : Double) : Prop :=
  let cm := altitude * .finite 100
  if .finite (-2 ^ 31) ≤ cm ∧ cm ≤ .finite (2 ^ 31 - 1) then
    .finite (-50000 - 1 / 2) < cm ∧ cm < .finite (1000000 + 1 / 2)
  else
    -- Twenty thousand kilometres: what `int32_t` makes of the centimetres.
    -50000 ≤ (scaled unspecified altitude 100).toInt ∧
      (scaled unspecified altitude 100).toInt ≤ 1000000

section
variable {math : MathFunctions} {unspecified : Double → Int64} {number : Rat → Rat}

namespace QueuedFix
variable (fix : QueuedFix math unspecified)

/-- The item an upload builds from the record in flash. -/
def item (number : Rat → Rat) (drained : LiveReadings) : Option IngestLocationRequest :=
  (slotRecord (fix.disk'.files .data) fix.store.queueMeta.head).map (uploadItem number drained)

/-- What neither the policy nor the conversion checks. -/
structure Conforms : Prop where
  altitude : AltitudeFits unspecified fix.poll.altitude
  time : CalendarTime fix.poll.yy fix.poll.mo fix.poll.dd fix.poll.hh fix.poll.mi fix.poll.ss
  nextSeq : fix.store.queueMeta.nextSeq ≠ 0

theorem altitudeFits_iff {altitude : Double} :
    AltitudeFits unspecified altitude ↔
      -50000 ≤ (storedAltitude unspecified altitude).toInt ∧
        (storedAltitude unspecified altitude).toInt ≤ 1000000 := by
  by_cases hzero : altitude = .finite 0
  · subst hzero
    have hcm : Double.finite 0 * .finite 100 = .finite 0 := by decide +kernel
    rw [storedAltitude, if_pos rfl, AltitudeFits, hcm]
    simp
    norm_num
  · rw [storedAltitude, if_neg hzero, AltitudeFits]
    split
    · next hfits =>
      obtain ⟨cm, hcm, hlo, hhi⟩ := Double.finite_of_between hfits.1 hfits.2
      have hcm' : |cm| ≤ 2 ^ 62 := abs_le.mpr ⟨by linarith, by linarith⟩
      have hint := (Double.llround_between_iff unspecified (by norm_num : (-2 ^ 31 : ℤ) ≤ 0)
        (by norm_num : (0 : ℤ) ≤ 2 ^ 31 - 1) hcm').mpr
        ⟨by push_cast; linarith, by push_cast; linarith⟩
      have hiff := Double.llround_between_iff unspecified (by norm_num : (-50000 : ℤ) ≤ 0)
        (by norm_num : (0 : ℤ) ≤ 1000000) hcm'
      rw [scaled, hcm, Int64.toInt_toInt32, Int.bmod_eq_of_le (by omega) (by omega), hiff]
      push_cast
      exact and_congr Double.finite_lt_finite Double.finite_lt_finite
    · exact Iff.rfl

/-- An upload sends a valid item for a queued fix exactly when the fix conforms. -/
theorem queued_item_valid_iff (hnumber : FaithfulNumbers number) (drained : LiveReadings) :
    ∃ item, fix.item number drained = some item ∧
      (item.Valid ∧ 0 < item.sequenceID ↔ fix.Conforms) := by
  have hrecord := slotRecord_of_push fix.pushed
  have hvalid := SamplingPolicy.validCoordinates_of_shouldUpload math fix.shouldUpload
  have hof := (recordOf_toFixRecord fix.converted).stamp fix.store
  have hbattery : (fix.store.stamp fix.record).batteryMv.toNat ≤ 6000 := by
    rw [batteryMv_stamp]
    exact toNat_batteryMv_le rfl fix.converted
  have hiff := uploadItem_valid_iff hnumber drained hof hvalid hbattery
  rw [hof.altitudeCm, hof.recordedAt] at hiff
  refine ⟨_, by rw [item, hrecord]; rfl, ?_⟩
  rw [hiff, sequenceID_pos_iff, hof.sequenceId]
  constructor
  · rintro ⟨⟨haltitude, htime⟩, hne⟩
    exact ⟨altitudeFits_iff.mpr haltitude, isSome_parse_timestamp_iff.mp htime, hne⟩
  · rintro ⟨haltitude, htime, hne⟩
    exact ⟨⟨altitudeFits_iff.mp haltitude, isSome_parse_timestamp_iff.mpr htime⟩, hne⟩

end QueuedFix

end

/-! ## A fix above the range -/

/-- A number with nine decimals. -/
def nineDecimals (x : Rat) : Rat := ⌊x * 10 ^ 9 + 1 / 2⌋ / 10 ^ 9

theorem nineDecimals_faithful : FaithfulNumbers nineDecimals where
  mono x y h := by
    unfold nineDecimals
    gcongr
  int n _ := by
    rw [nineDecimals, div_eq_iff (by norm_num)]
    have hfloor : ⌊(n : ℚ) * 10 ^ 9 + 1 / 2⌋ = n * 10 ^ 9 := by
      rw [Int.floor_eq_iff]
      push_cast
      constructor <;> linarith
    rw [hfloor]
    push_cast
    rfl
  close x _ := by
    have hle := Int.floor_le (x * 10 ^ 9 + 1 / 2)
    have hlt := Int.lt_floor_add_one (x * 10 ^ 9 + 1 / 2)
    rw [nineDecimals, abs_le]
    constructor <;> linarith

/-- No distance is computed for the first fix. -/
def noMath : MathFunctions := ⟨fun _ => .nan, fun _ => .nan, fun _ => .nan, fun _ => .nan⟩

/-- The first fix after the first boot, at an altitude. -/
def firstFix (altitude : Double) : Option (QueuedFix noMath fun _ => 0) :=
  match newDevice.store.begin 2 (newDevice.disk []) with
  | (some r, d) =>
    enqueue noMath (fun _ => 0) (.init trackerSampling) 60000
      { latitude := .finite 19.4375, longitude := .finite (-99.125), speedKmh := .finite 0, altitude
        satsUsed := 8, accuracyM := .finite 5
        yy := 2026, mo := 7, dd := 15, hh := 12, mi := 0, ss := 0 } ⟨3700, 20⟩ 1 r.store d
  | _ => none

set_option maxRecDepth 20000 in
theorem queued_item_valid_first_fix : ∃ fix, firstFix (.finite 2240) = some fix ∧ fix.Conforms ∧
    ∃ item, fix.item nineDecimals ⟨3600, 18⟩ = some item ∧ item.Valid ∧ 0 < item.sequenceID := by
  obtain ⟨item, hitem, hvalid⟩ := Option.map_eq_some_iff.mp
    (show ((firstFix (.finite 2240)).bind (QueuedFix.item · nineDecimals ⟨3600, 18⟩)).map
      (fun item => (decide item.Valid, item.sequenceID)) = some (true, 1) by decide +kernel)
  obtain ⟨hvalid, hseq⟩ := Prod.mk.inj hvalid
  obtain ⟨fix, hfix, hitem⟩ := Option.bind_eq_some_iff.mp hitem
  obtain ⟨item', hitem', hiff⟩ := fix.queued_item_valid_iff nineDecimals_faithful ⟨3600, 18⟩
  cases hitem.symm.trans hitem'
  have hboth : item.Valid ∧ 0 < item.sequenceID :=
    ⟨of_decide_eq_true hvalid, by rw [hseq]; decide⟩
  exact ⟨fix, hfix, hiff.mp hboth, item, hitem, hboth⟩

set_option maxRecDepth 20000 in
/-- At 10500 m every batch with the fix in it is refused. -/
theorem high_fix_refuses_batch : ∃ fix item, firstFix (.finite 10500) = some fix ∧
    fix.item nineDecimals ⟨3600, 18⟩ = some item ∧ ¬ item.Valid ∧
      ∀ (db : Database Nat) clock commit items, item ∈ items →
        handleIngestBatch db 7 clock commit items = (.badRequest, db) := by
  obtain ⟨item, hitem, hinvalid⟩ := Option.map_eq_some_iff.mp
    (show ((firstFix (.finite 10500)).bind (QueuedFix.item · nineDecimals ⟨3600, 18⟩)).map
      (fun item => decide item.Valid) = some false by decide +kernel)
  obtain ⟨fix, hfix, hitem⟩ := Option.bind_eq_some_iff.mp hitem
  refine ⟨fix, item, hfix, hitem, of_decide_eq_false hinvalid, fun db clock commit items hmem => ?_⟩
  have hbatch : ¬ validBatch items := fun hvalid =>
    of_decide_eq_false hinvalid ((of_decide_eq_true hvalid).2.2 item hmem)
  rw [handleIngestBatch, if_pos hbatch]

end OpenGps.Uplink
