import OpenGps.Lib.FixedPoint
import OpenGps.Firmware.LocationPayload

/-!
# A payload stored and read back (`lib/location_payload`, `lib/fix_queue`)

A queued fix passes two converters and the codec of the record between them. The converters are
written here for any numbers: over doubles they are those of the firmware, and over the rationals,
where nothing is lost but to the rounding of the record, a field comes back within half a unit.
-/

namespace OpenGps.Firmware

open OpenGps.Lib

/-! ## The converters over any numbers -/

/-- The constants and the functions of `<cmath>` over the numbers of a payload. -/
structure Arithmetic (K : Type) where
  number : ℚ → K
  isFinite : K → Bool
  llround : K → Int64

/-- A payload whose measurements are in `K`. -/
structure PayloadOf (K : Type) where
  recordedAt : Vector UInt8 21
  latitude : K
  longitude : K
  altitude : K
  speedMps : K
  accuracyM : K
  satellitesUsed : UInt16
  batteryVoltage : K
  signalStrength : Int8
  sequenceId : UInt32
  deriving DecidableEq

namespace Arithmetic

variable {K : Type} [DecidableEq K] [Mul K] [Div K] [LT K] [LE K] [DecidableLT K] [DecidableLE K]
  (A : Arithmetic K)

def scaled (x : K) (scale : ℚ) : Int32 := (A.llround (x * A.number scale)).toInt32

def storeAltitude (in_ : PayloadOf K) (out : FixRecord) : FixRecord :=
  if in_.altitude ≠ A.number 0 then
    { out with
      altitudeCm := A.scaled in_.altitude 100
      validFields := out.validFields ||| fixFieldAltitude }
  else out

def storeSpeed (in_ : PayloadOf K) (out : FixRecord) : FixRecord :=
  if in_.speedMps > A.number 0 then
    { out with
      speedMmps := A.scaled in_.speedMps 1000
      validFields := out.validFields ||| fixFieldSpeed }
  else out

def storeAccuracy (in_ : PayloadOf K) (out : FixRecord) : FixRecord :=
  if in_.accuracyM > A.number 0 then
    { out with
      accuracyCm := A.scaled in_.accuracyM 100
      validFields := out.validFields ||| fixFieldAccuracy }
  else out

def batteryMillivolts (voltage : K) : UInt16 :=
  let mv := voltage * A.number 1000
  if mv ≥ A.number 0 ∧ mv ≤ A.number 65535 then (A.llround mv).toUInt64.toUInt16 else 0

def storeBattery (in_ : PayloadOf K) (out : FixRecord) : FixRecord :=
  if A.isFinite in_.batteryVoltage ∧ in_.batteryVoltage > A.number 0 then
    let batteryMv := A.batteryMillivolts in_.batteryVoltage
    { out with
      batteryMv
      validFields :=
        if batteryMv > 0 then out.validFields ||| fixFieldBattery else out.validFields }
  else out

end Arithmetic

def PayloadOf.storeSatellites {K : Type} (in_ : PayloadOf K) (out : FixRecord) : FixRecord :=
  if in_.satellitesUsed > 0 then
    { out with
      satellitesUsed := in_.satellitesUsed
      validFields := out.validFields ||| fixFieldSatellites }
  else out

def PayloadOf.storeSignal {K : Type} (in_ : PayloadOf K) (out : FixRecord) : FixRecord :=
  if in_.signalStrength ≥ 0 ∧ in_.signalStrength ≤ 31 then
    { out with
      signalStrength := in_.signalStrength
      validFields := out.validFields ||| fixFieldSignal }
  else out

namespace Arithmetic

variable {K : Type} [DecidableEq K] [Mul K] [Div K] [LT K] [LE K] [DecidableLT K] [DecidableLE K]
  (A : Arithmetic K)

/-- What is checked before a payload is converted. -/
def Refused (in_ : PayloadOf K) : Prop :=
  getElem in_.recordedAt 20 fixTimestampEnd ≠ 0 ∨
    in_.latitude < A.number (-90) ∨ in_.latitude > A.number 90 ∨
    in_.longitude < A.number (-180) ∨ in_.longitude > A.number 180

instance (in_ : PayloadOf K) : Decidable (A.Refused in_) :=
  inferInstanceAs (Decidable (_ ∨ _ ∨ _ ∨ _ ∨ _))

def toFixRecord (in_ : PayloadOf K) (sequenceId bootId : UInt32) : Option FixRecord :=
  if A.Refused in_ then none
  else
    let out : FixRecord :=
      { sequenceId, bootId
        recordedAt := in_.recordedAt
        latitudeE6 := A.scaled in_.latitude 1000000
        longitudeE6 := A.scaled in_.longitude 1000000
        altitudeCm := 0
        speedMmps := 0
        accuracyCm := 0
        satellitesUsed := 0
        batteryMv := 0
        signalStrength := 0
        validFields := 0 }
    some (in_.storeSignal (A.storeBattery in_ (in_.storeSatellites
      (A.storeAccuracy in_ (A.storeSpeed in_ (A.storeAltitude in_ out))))))

/-- An integer of the record over its scale. -/
def widened (n : ℤ) (scale : ℚ) : K := A.number n / A.number scale

def fromFixRecord (record : FixRecord) : PayloadOf K where
  recordedAt := record.recordedAt
  sequenceId := record.sequenceId
  latitude := A.widened record.latitudeE6.toInt 1000000
  longitude := A.widened record.longitudeE6.toInt 1000000
  altitude :=
    if record.has fixFieldAltitude then A.widened record.altitudeCm.toInt 100 else A.number 0
  speedMps :=
    if record.has fixFieldSpeed then A.widened record.speedMmps.toInt 1000 else A.number 0
  accuracyM :=
    if record.has fixFieldAccuracy then A.widened record.accuracyCm.toInt 100 else A.number 0
  satellitesUsed := if record.has fixFieldSatellites then record.satellitesUsed else 0
  batteryVoltage :=
    if record.has fixFieldBattery then A.widened record.batteryMv.toNat 1000 else A.number 0
  signalStrength := if record.has fixFieldSignal then record.signalStrength else -1

end Arithmetic

/-! ## The firmware's doubles -/

def doubles (unspecified : Double → Int64) : Arithmetic Double where
  number := .finite
  isFinite := Double.isFinite
  llround := Double.llround unspecified

def LocationPayload.toPayloadOf (p : LocationPayload) : PayloadOf Double where
  recordedAt := p.recordedAt
  latitude := p.latitude
  longitude := p.longitude
  altitude := p.altitude
  speedMps := p.speedMps
  accuracyM := p.accuracyM
  satellitesUsed := p.satellitesUsed
  batteryVoltage := p.batteryVoltage
  signalStrength := p.signalStrength
  sequenceId := p.sequenceId

/-- Over doubles the converters are the firmware's. -/
theorem toFixRecord_doubles (unspecified : Double → Int64) (p : LocationPayload)
    (sequenceId bootId : UInt32) :
    (doubles unspecified).toFixRecord p.toPayloadOf sequenceId bootId =
      locationPayloadToFixRecord unspecified p sequenceId bootId :=
  rfl

theorem fromFixRecord_doubles (unspecified : Double → Int64) (record : FixRecord) :
    (doubles unspecified).fromFixRecord record =
      (locationPayloadFromFixRecord record).toPayloadOf :=
  rfl

/-! ## The record of a payload -/

/-- The bit of a field that is known. -/
def knownBit (known : Bool) (field : UInt8) : UInt8 := if known then field else 0

def knownBits (altitude speed accuracy satellites battery signal : Bool) : UInt8 :=
  0 ||| knownBit altitude fixFieldAltitude ||| knownBit speed fixFieldSpeed |||
    knownBit accuracy fixFieldAccuracy ||| knownBit satellites fixFieldSatellites |||
    knownBit battery fixFieldBattery ||| knownBit signal fixFieldSignal

/-- Each bit is in the mask exactly when its field is known. -/
theorem knownBits_and : ∀ altitude speed accuracy satellites battery signal : Bool,
    let mask := knownBits altitude speed accuracy satellites battery signal
    (mask &&& fixFieldAltitude ≠ 0 ↔ altitude) ∧ (mask &&& fixFieldSpeed ≠ 0 ↔ speed) ∧
      (mask &&& fixFieldAccuracy ≠ 0 ↔ accuracy) ∧
      (mask &&& fixFieldSatellites ≠ 0 ↔ satellites) ∧
      (mask &&& fixFieldBattery ≠ 0 ↔ battery) ∧ (mask &&& fixFieldSignal ≠ 0 ↔ signal) := by
  decide +kernel

/-- What the record of a payload holds: a field that is known, and its bit for those alone. -/
structure Stored (A : Arithmetic ℚ) (p : PayloadOf ℚ) (sequenceId : UInt32) (record : FixRecord) :
    Prop where
  sequenceId : record.sequenceId = sequenceId
  recordedAt : record.recordedAt = p.recordedAt
  latitudeE6 : record.latitudeE6 = A.scaled p.latitude 1000000
  longitudeE6 : record.longitudeE6 = A.scaled p.longitude 1000000
  altitude : record.has fixFieldAltitude ↔ p.altitude ≠ A.number 0
  altitudeCm : p.altitude ≠ A.number 0 → record.altitudeCm = A.scaled p.altitude 100
  speed : record.has fixFieldSpeed ↔ p.speedMps > A.number 0
  speedMmps : p.speedMps > A.number 0 → record.speedMmps = A.scaled p.speedMps 1000
  accuracy : record.has fixFieldAccuracy ↔ p.accuracyM > A.number 0
  accuracyCm : p.accuracyM > A.number 0 → record.accuracyCm = A.scaled p.accuracyM 100
  satellites : record.has fixFieldSatellites ↔ p.satellitesUsed > 0
  satellitesUsed : p.satellitesUsed > 0 → record.satellitesUsed = p.satellitesUsed
  battery : record.has fixFieldBattery ↔ (A.isFinite p.batteryVoltage ∧
    p.batteryVoltage > A.number 0) ∧ A.batteryMillivolts p.batteryVoltage > 0
  batteryMv : A.isFinite p.batteryVoltage ∧ p.batteryVoltage > A.number 0 →
    record.batteryMv = A.batteryMillivolts p.batteryVoltage
  signal : record.has fixFieldSignal ↔ p.signalStrength ≥ 0 ∧ p.signalStrength ≤ 31
  signalStrength : p.signalStrength ≥ 0 ∧ p.signalStrength ≤ 31 →
    record.signalStrength = p.signalStrength

section
variable {A : Arithmetic ℚ} {p : PayloadOf ℚ} {out : FixRecord}

theorem storeAltitude_eq : A.storeAltitude p out =
    { out with
      altitudeCm := if p.altitude ≠ A.number 0 then A.scaled p.altitude 100 else out.altitudeCm
      validFields := out.validFields ||| knownBit (p.altitude ≠ A.number 0) fixFieldAltitude } := by
  by_cases h : p.altitude ≠ A.number 0 <;> simp [Arithmetic.storeAltitude, knownBit, h]

theorem storeSpeed_eq : A.storeSpeed p out =
    { out with
      speedMmps := if p.speedMps > A.number 0 then A.scaled p.speedMps 1000 else out.speedMmps
      validFields := out.validFields ||| knownBit (p.speedMps > A.number 0) fixFieldSpeed } := by
  by_cases h : p.speedMps > A.number 0 <;> simp [Arithmetic.storeSpeed, knownBit, h]

theorem storeAccuracy_eq : A.storeAccuracy p out =
    { out with
      accuracyCm := if p.accuracyM > A.number 0 then A.scaled p.accuracyM 100 else out.accuracyCm
      validFields := out.validFields ||| knownBit (p.accuracyM > A.number 0) fixFieldAccuracy } :=
    by
  by_cases h : p.accuracyM > A.number 0 <;> simp [Arithmetic.storeAccuracy, knownBit, h]

theorem storeSatellites_eq : p.storeSatellites out =
    { out with
      satellitesUsed := if p.satellitesUsed > 0 then p.satellitesUsed else out.satellitesUsed
      validFields := out.validFields ||| knownBit (p.satellitesUsed > 0) fixFieldSatellites } := by
  by_cases h : p.satellitesUsed > 0 <;> simp [PayloadOf.storeSatellites, knownBit, h]

theorem storeBattery_eq : A.storeBattery p out =
    { out with
      batteryMv :=
        if A.isFinite p.batteryVoltage ∧ p.batteryVoltage > A.number 0 then
          A.batteryMillivolts p.batteryVoltage
        else out.batteryMv
      validFields := out.validFields ||| knownBit ((A.isFinite p.batteryVoltage ∧
        p.batteryVoltage > A.number 0) ∧ A.batteryMillivolts p.batteryVoltage > 0)
        fixFieldBattery } := by
  unfold Arithmetic.storeBattery knownBit
  split
  · next h =>
    dsimp only
    by_cases hmv : A.batteryMillivolts p.batteryVoltage > 0 <;> simp [h, hmv]
  · next h => simp [h]

theorem storeSignal_eq : p.storeSignal out =
    { out with
      signalStrength :=
        if p.signalStrength ≥ 0 ∧ p.signalStrength ≤ 31 then p.signalStrength
        else out.signalStrength
      validFields := out.validFields |||
        knownBit (p.signalStrength ≥ 0 ∧ p.signalStrength ≤ 31) fixFieldSignal } := by
  by_cases h : p.signalStrength ≥ 0 ∧ p.signalStrength ≤ 31 <;>
    simp [PayloadOf.storeSignal, knownBit, h]

theorem has_iff {record : FixRecord} {field mask : UInt8} {known : Prop} [Decidable known]
    (hmask : record.validFields = mask) (h : mask &&& field ≠ 0 ↔ decide known = true) :
    record.has field ↔ known := by
  rw [FixRecord.has, hmask, decide_eq_true_iff, h, decide_eq_true_iff]

theorem stored_toFixRecord (sequenceId bootId : UInt32) (h : ¬ A.Refused p) :
    ∃ record, A.toFixRecord p sequenceId bootId = some record ∧ Stored A p sequenceId record := by
  refine ⟨_, if_neg h, ?_⟩
  rw [storeAltitude_eq, storeSpeed_eq, storeAccuracy_eq, storeSatellites_eq, storeBattery_eq,
    storeSignal_eq]
  have hbits := knownBits_and (p.altitude ≠ A.number 0) (p.speedMps > A.number 0)
    (p.accuracyM > A.number 0) (p.satellitesUsed > 0)
    ((A.isFinite p.batteryVoltage ∧ p.batteryVoltage > A.number 0) ∧
      A.batteryMillivolts p.batteryVoltage > 0)
    (p.signalStrength ≥ 0 ∧ p.signalStrength ≤ 31)
  exact
    { sequenceId := rfl
      recordedAt := rfl
      latitudeE6 := rfl
      longitudeE6 := rfl
      altitude := has_iff rfl hbits.1
      altitudeCm := fun known => if_pos known
      speed := has_iff rfl hbits.2.1
      speedMmps := fun known => if_pos known
      accuracy := has_iff rfl hbits.2.2.1
      accuracyCm := fun known => if_pos known
      satellites := has_iff rfl hbits.2.2.2.1
      satellitesUsed := fun known => if_pos known
      battery := has_iff rfl hbits.2.2.2.2.1
      batteryMv := fun known => if_pos known
      signal := has_iff rfl hbits.2.2.2.2.2
      signalStrength := fun known => if_pos known }

end

/-! ## Exact numbers -/

/-- Exact numbers; what `llround` returns where a value does not fit `long long` stays open. -/
def rationals (unspecified : ℚ → Int64) : Arithmetic ℚ where
  number := id
  isFinite _ := true
  llround q :=
    if -2 ^ 63 ≤ roundHalfAway q ∧ roundHalfAway q < 2 ^ 63 then Int64.ofInt (roundHalfAway q)
    else unspecified q

/-- The scaled value is in the range of an `int32_t`. -/
def FitsInt32 (x scale : ℚ) : Prop := -2 ^ 31 ≤ x * scale ∧ x * scale ≤ 2 ^ 31 - 1

/-- The scaled values of a payload are in the ranges of the integers a record keeps them in. -/
structure PayloadOf.Fits (p : PayloadOf ℚ) : Prop where
  latitude : FitsInt32 p.latitude 1000000
  longitude : FitsInt32 p.longitude 1000000
  altitude : FitsInt32 p.altitude 100
  speed : FitsInt32 p.speedMps 1000
  accuracy : FitsInt32 p.accuracyM 100
  battery : 0 ≤ p.batteryVoltage * 1000 ∧ p.batteryVoltage * 1000 ≤ 65535

section
variable (unspecified : ℚ → Int64)

theorem widened_rationals (n : ℤ) (scale : ℚ) :
    (rationals unspecified).widened n scale = n / scale :=
  rfl

theorem toInt_scaled {x scale : ℚ} (h : FitsInt32 x scale) :
    ((rationals unspecified).scaled x scale).toInt = roundHalfAway (x * scale) := by
  have hlo : -2 ^ 31 ≤ roundHalfAway (x * scale) :=
    FixedPoint.le_roundHalfAway (by push_cast; exact h.1)
  have hhi : roundHalfAway (x * scale) ≤ 2 ^ 31 - 1 :=
    FixedPoint.roundHalfAway_le (h.2.trans (by norm_num))
  show ((if -2 ^ 63 ≤ roundHalfAway (x * scale) ∧ roundHalfAway (x * scale) < 2 ^ 63 then
    Int64.ofInt (roundHalfAway (x * scale)) else unspecified (x * scale)).toInt32).toInt = _
  rw [if_pos ⟨by omega, by omega⟩, Int64.toInt_toInt32,
    Int64.toInt_ofInt_of_le (by omega) (by omega), Int.bmod_eq_of_le (by omega) (by omega)]

theorem toNat_batteryMillivolts {voltage : ℚ} (h : 0 ≤ voltage * 1000)
    (h' : voltage * 1000 ≤ 65535) :
    (((rationals unspecified).batteryMillivolts voltage).toNat : ℤ) =
      roundHalfAway (voltage * 1000) := by
  have hlo : 0 ≤ roundHalfAway (voltage * 1000) := FixedPoint.roundHalfAway_nonneg h
  have hhi : roundHalfAway (voltage * 1000) ≤ 65535 :=
    FixedPoint.roundHalfAway_le (by push_cast; exact h')
  show (((if voltage * 1000 ≥ 0 ∧ voltage * 1000 ≤ 65535 then
    (if -2 ^ 63 ≤ roundHalfAway (voltage * 1000) ∧ roundHalfAway (voltage * 1000) < 2 ^ 63 then
      Int64.ofInt (roundHalfAway (voltage * 1000))
      else unspecified (voltage * 1000)).toUInt64.toUInt16 else 0).toNat : ℕ) : ℤ) = _
  generalize roundHalfAway (voltage * 1000) = n at hlo hhi
  have hint : (Int64.ofInt n).toInt = n := Int64.toInt_ofInt_of_le (by omega) (by omega)
  have hpos : 0 ≤ Int64.ofInt n := by
    rw [Int64.le_iff_toInt_le, hint]
    exact hlo
  rw [if_pos ⟨h, h'⟩, if_pos ⟨by omega, by omega⟩, UInt64.toNat_toUInt16,
    Int64.toNat_toUInt64_of_le hpos, Int64.toNatClampNeg, hint]
  omega

/-- A field that is stored when it is known, and zero otherwise. -/
theorem rounds_stored {scale x : ℚ} {has : Bool} {known : Prop} {n : ℤ} (hscale : 0 < scale)
    (hhas : has ↔ known) (hn : known → n = roundHalfAway (x * scale)) (hunknown : ¬ known → x = 0) :
    Rounds scale x (if has then (rationals unspecified).widened n scale
      else (rationals unspecified).number 0) := by
  split
  · next h =>
    rw [hn (hhas.mp h)]
    exact Rounds.of_round hscale
  · next h =>
    rw [hunknown fun hknown => h (hhas.mpr hknown)]
    exact Rounds.zero hscale

/-- A field that is stored when it is positive. -/
theorem rounds_stored_pos {scale x : ℚ} {has : Bool} {n : ℤ} (hscale : 0 < scale)
    (hhas : has ↔ x > 0) (hn : x > 0 → n = roundHalfAway (x * scale)) :
    Rounds scale (max x 0)
      (if has then (rationals unspecified).widened n scale else (rationals unspecified).number 0) :=
  rounds_stored unspecified hscale hhas
    (fun known => by rw [hn known, max_eq_left (le_of_lt known)])
    fun unknown => max_eq_right (not_lt.mp unknown)

/-- A coordinate comes back in its range: the bounds are whole units. -/
theorem rounds_coordinate {x : ℚ} {n : ℤ} (lo hi : ℤ) (hn : n = roundHalfAway (x * 1000000))
    (h : ¬ x < lo) (h' : ¬ x > hi) :
    Rounds 1000000 x ((rationals unspecified).widened n 1000000) ∧
      lo ≤ (rationals unspecified).widened n 1000000 ∧
      (rationals unspecified).widened n 1000000 ≤ hi := by
  subst hn
  have hlo : lo * 1000000 ≤ roundHalfAway (x * 1000000) :=
    FixedPoint.le_roundHalfAway (by push_cast; linarith)
  have hhi : roundHalfAway (x * 1000000) ≤ hi * 1000000 :=
    FixedPoint.roundHalfAway_le (by push_cast; linarith)
  rw [widened_rationals]
  refine ⟨Rounds.of_round (by norm_num), ?_, ?_⟩
  · exact (le_div_iff₀ (by norm_num)).mpr (by exact_mod_cast hlo)
  · exact (div_le_iff₀ (by norm_num)).mpr (by exact_mod_cast hhi)

/-- A voltage that rounds to zero is stored as an unknown one. -/
theorem rounds_battery {p : PayloadOf ℚ} {sequenceId : UInt32} {record : FixRecord}
    (h : Stored (rationals unspecified) p sequenceId record) (hfits : p.Fits) :
    Rounds 1000 p.batteryVoltage ((rationals unspecified).fromFixRecord record).batteryVoltage := by
  obtain ⟨hpos, hle⟩ := hfits.battery
  have hround := toNat_batteryMillivolts unspecified hpos hle
  show Rounds 1000 p.batteryVoltage (if record.has fixFieldBattery then
    (rationals unspecified).widened record.batteryMv.toNat 1000
    else (rationals unspecified).number 0)
  split
  · next hhas =>
    obtain ⟨hknown, -⟩ := h.battery.mp hhas
    rw [h.batteryMv hknown, hround]
    exact Rounds.of_round (by norm_num)
  · next hhas =>
    -- The voltage is zero, or its millivolts are.
    have hzero : roundHalfAway (p.batteryVoltage * 1000) = 0 := by
      rcases eq_or_lt_of_le hpos with heq | hlt
      · rw [← heq, FixedPoint.roundHalfAway_zero]
      · have hvoltage : p.batteryVoltage > 0 := by linarith
        have hmv := fun hmv => hhas (h.battery.mpr ⟨⟨rfl, hvoltage⟩, hmv⟩)
        have hnat := UInt16.lt_iff_toNat_lt.not.mp hmv
        rw [← hround]
        rw [UInt16.toNat_zero] at hnat
        omega
    have hback : Rounds 1000 p.batteryVoltage (roundHalfAway (p.batteryVoltage * 1000) / 1000) :=
      Rounds.of_round (by norm_num)
    rwa [hzero, Int.cast_zero, zero_div] at hback

end

/-! ## The round trip -/

/-- What comes back of a payload that was queued under a sequence id. Readings that are not positive
stand for unknown ones where the sign says so, and so does a signal outside the modem's scale. -/
structure ComesBack (p : PayloadOf ℚ) (sequenceId : UInt32) (q : PayloadOf ℚ) : Prop where
  latitude : Rounds 1000000 p.latitude q.latitude
  latitudeRange : -90 ≤ q.latitude ∧ q.latitude ≤ 90
  longitude : Rounds 1000000 p.longitude q.longitude
  longitudeRange : -180 ≤ q.longitude ∧ q.longitude ≤ 180
  altitude : Rounds 100 p.altitude q.altitude
  speed : Rounds 1000 (max p.speedMps 0) q.speedMps
  accuracy : Rounds 100 (max p.accuracyM 0) q.accuracyM
  battery : Rounds 1000 p.batteryVoltage q.batteryVoltage
  recordedAt : q.recordedAt = p.recordedAt
  sequenceId : q.sequenceId = sequenceId
  satellites : q.satellitesUsed = p.satellitesUsed
  signal : q.signalStrength =
    if p.signalStrength ≥ 0 ∧ p.signalStrength ≤ 31 then p.signalStrength else -1

section
variable {A : Arithmetic ℚ} {p : PayloadOf ℚ} {sequenceId : UInt32} {record : FixRecord}

theorem Stored.satellites_back (h : Stored A p sequenceId record) :
    (A.fromFixRecord record).satellitesUsed = p.satellitesUsed := by
  show (if record.has fixFieldSatellites then record.satellitesUsed else 0) = _
  split
  · next hhas => exact h.satellitesUsed (h.satellites.mp hhas)
  · next hhas =>
    have hzero := UInt16.lt_iff_toNat_lt.not.mp fun known => hhas (h.satellites.mpr known)
    rw [← UInt16.toNat_inj]
    rw [UInt16.toNat_zero] at hzero ⊢
    omega

theorem Stored.signal_back (h : Stored A p sequenceId record) :
    (A.fromFixRecord record).signalStrength =
      if p.signalStrength ≥ 0 ∧ p.signalStrength ≤ 31 then p.signalStrength else -1 := by
  show (if record.has fixFieldSignal then record.signalStrength else -1) = _
  split
  · next hhas =>
    have hknown := h.signal.mp hhas
    rw [if_pos hknown, h.signalStrength hknown]
  · next hhas => exact (if_neg fun known => hhas (h.signal.mpr known)).symm

end

theorem Stored.comesBack {unspecified : ℚ → Int64} {p : PayloadOf ℚ} {sequenceId : UInt32}
    {record : FixRecord} (h : Stored (rationals unspecified) p sequenceId record) (hfits : p.Fits)
    (haccepted : ¬ (rationals unspecified).Refused p) :
    ComesBack p sequenceId ((rationals unspecified).fromFixRecord record) := by
  simp only [Arithmetic.Refused, not_or] at haccepted
  obtain ⟨-, hlat, hlat', hlon, hlon'⟩ := haccepted
  have hlatE6 := toInt_scaled unspecified hfits.latitude
  have hlonE6 := toInt_scaled unspecified hfits.longitude
  rw [← h.latitudeE6] at hlatE6
  rw [← h.longitudeE6] at hlonE6
  have hlatitude := rounds_coordinate unspecified (-90) 90 hlatE6
    (by exact_mod_cast hlat) (by exact_mod_cast hlat')
  have hlongitude := rounds_coordinate unspecified (-180) 180 hlonE6
    (by exact_mod_cast hlon) (by exact_mod_cast hlon')
  exact
    { latitude := hlatitude.1
      latitudeRange := by exact_mod_cast hlatitude.2
      longitude := hlongitude.1
      longitudeRange := by exact_mod_cast hlongitude.2
      altitude := rounds_stored unspecified (by norm_num) h.altitude
        (fun known => by rw [h.altitudeCm known, toInt_scaled unspecified hfits.altitude])
        not_not.mp
      speed := rounds_stored_pos unspecified (by norm_num) h.speed
        fun known => by rw [h.speedMmps known, toInt_scaled unspecified hfits.speed]
      accuracy := rounds_stored_pos unspecified (by norm_num) h.accuracy
        fun known => by rw [h.accuracyCm known, toInt_scaled unspecified hfits.accuracy]
      battery := rounds_battery unspecified h hfits
      recordedAt := h.recordedAt
      sequenceId := h.sequenceId
      satellites := h.satellites_back
      signal := h.signal_back }

/-- A payload that is not refused is stored, and read back from its slot. -/
theorem stored_payload_comesBack (unspecified : ℚ → Int64) (p : PayloadOf ℚ)
    (sequenceId bootId : UInt32) (length : Nat) (hlength : fixRecordWireSize ≤ length)
    (haccepted : ¬ (rationals unspecified).Refused p) (hfits : p.Fits) :
    ∃ record wire, (rationals unspecified).toFixRecord p sequenceId bootId = some record ∧
      fixRecordEncode record length = some wire ∧ fixRecordDecode wire = some record ∧
      ComesBack p sequenceId ((rationals unspecified).fromFixRecord record) := by
  obtain ⟨record, hrecord, hstored⟩ := stored_toFixRecord sequenceId bootId haccepted
  have hnul : record.recordedAt[20] = 0 := by
    rw [hstored.recordedAt]
    exact not_not.mp fun h => haccepted (.inl h)
  have hwire := fixRecordEncode_eq_some.mpr ⟨hlength, hnul, rfl⟩
  exact ⟨record, _, hrecord, hwire, fixRecordDecode_encode hwire,
    hstored.comesBack hfits haccepted⟩

/-- A speed below half a millimetre a second, and no signal. -/
def parked : PayloadOf ℚ where
  recordedAt := Vector.replicate 21 0
  latitude := 19.4326085
  longitude := -99.1332080
  altitude := 2240.125
  speedMps := 0.0004
  accuracyM := 2.5
  satellitesUsed := 9
  batteryVoltage := 3.7
  signalStrength := -1
  sequenceId := 0

theorem parked_fits : parked.Fits := by
  refine ⟨?_, ?_, ?_, ?_, ?_, ?_⟩ <;> norm_num [FitsInt32, parked]

theorem parked_not_refused (unspecified : ℚ → Int64) :
    ¬ (rationals unspecified).Refused parked := by
  norm_num [Arithmetic.Refused, rationals, parked]

theorem parked_comesBack : ∃ record wire,
    (rationals fun _ => 0).toFixRecord parked 7 1 = some record ∧
      fixRecordEncode record 64 = some wire ∧ fixRecordDecode wire = some record ∧
      ComesBack parked 7 ((rationals fun _ => 0).fromFixRecord record) :=
  stored_payload_comesBack _ parked 7 1 64 (by decide) (parked_not_refused _) parked_fits

/-- A payload that reports a negative speed and a signal outside the modem's scale. -/
def reversing : PayloadOf ℚ := { parked with speedMps := -1, signalStrength := 40 }

/-- Both come back as unknown, and a latitude beyond the pole is not stored at all. -/
theorem reversing_not_comesBack :
    (reversing.Fits ∧ ∃ record wire,
      (rationals fun _ => 0).toFixRecord reversing 7 1 = some record ∧
      fixRecordEncode record 64 = some wire ∧ fixRecordDecode wire = some record ∧
      ¬ |((rationals fun _ => 0).fromFixRecord record).speedMps - reversing.speedMps| ≤
        1 / 2 / 1000 ∧
      ((rationals fun _ => 0).fromFixRecord record).signalStrength ≠ reversing.signalStrength) ∧
    PayloadOf.Fits { parked with latitude := 91 } ∧
      (rationals fun _ => 0).toFixRecord { parked with latitude := 91 } 7 1 = none := by
  have haccepted : ¬ (rationals fun _ => 0).Refused reversing := by
    norm_num [Arithmetic.Refused, rationals, reversing, parked]
  have hfits : reversing.Fits := { parked_fits with speed := by norm_num [FitsInt32, reversing] }
  obtain ⟨record, hrecord, hstored⟩ := stored_toFixRecord 7 1 haccepted
  have hnul : record.recordedAt[20] = 0 := by
    rw [hstored.recordedAt]
    rfl
  have hwire := fixRecordEncode_eq_some.mpr ⟨le_refl 64, hnul, rfl⟩
  have hback := hstored.comesBack hfits haccepted
  have hspeed := hback.speed.nothing (by norm_num [reversing])
  refine ⟨⟨hfits, record, _, hrecord, hwire, fixRecordDecode_encode hwire, ?_, ?_⟩,
    { parked_fits with latitude := by norm_num [FitsInt32] }, if_pos ?_⟩
  · rw [hspeed]
    norm_num [reversing]
  · rw [hback.signal]
    decide
  · exact .inr (.inr (.inl (by norm_num [rationals])))

end OpenGps.Firmware
