import OpenGps.Firmware.FixQueue
import OpenGps.Lib.Binary64

/-!
# Location payloads (`lib/location_payload`)

A fix on its way through the device: from the values of the modem to a payload, from the payload to
the record that is queued, and back to the payload whose JSON object is uploaded.

The text of a JSON number is left to the serializer; the object is modelled by the values written.
-/

namespace OpenGps.Firmware

open OpenGps.Lib

def fixFieldAltitude : UInt8 := 1
def fixFieldSpeed : UInt8 := 2
def fixFieldAccuracy : UInt8 := 4
def fixFieldSatellites : UInt8 := 8
def fixFieldBattery : UInt8 := 16
def fixFieldSignal : UInt8 := 32

/-- One fix shaped for the API; `recordedAt` is the C character array. -/
structure LocationPayload where
  recordedAt : Vector UInt8 21
  latitude : Double
  longitude : Double
  altitude : Double
  speedMps : Double
  accuracyM : Double
  satellitesUsed : UInt16
  batteryVoltage : Double
  signalStrength : Int8
  sequenceId : UInt32
  deriving DecidableEq

/-- The text of a character array, which its first NUL ends. -/
def cString {n : Nat} (chars : Vector UInt8 n) : List UInt8 := chars.toList.takeWhile (· ≠ 0)

/-! ## From the modem -/

/-- The characters `%0<width>d` prints. -/
def formatInt (width : Nat) (value : Int) : List Char :=
  let sign := if value < 0 then ['-'] else []
  let digits := Nat.toDigits 10 value.natAbs
  sign ++ List.replicate (width - sign.length - digits.length) '0' ++ digits

/-- What `snprintf` leaves in a zeroed array: the text cut off before the last character. -/
def snprintf (text : List Char) : Vector UInt8 21 :=
  Vector.ofFn fun i => (((text.take 20).map fun c => UInt8.ofNat c.toNat).getD i 0)

/-- `"%04d-%02d-%02dT%02d:%02d:%02dZ"`. -/
def timestamp (yy mo dd hh mi ss : Int16) : List Char :=
  formatInt 4 yy.toInt ++ '-' :: (formatInt 2 mo.toInt ++ '-' :: (formatInt 2 dd.toInt ++ 'T' ::
    (formatInt 2 hh.toInt ++ ':' :: (formatInt 2 mi.toInt ++ ':' :: (formatInt 2 ss.toInt ++
      ['Z'])))))

/-- The payload of a poll: zeroed, then filled from the values of `getGPS`. -/
def locationPayloadFromFix (lat lon speedKmh alt : Double) (satsUsed : UInt16) (accuracyM : Double)
    (yy mo dd hh mi ss : Int16) : LocationPayload where
  recordedAt := snprintf (timestamp yy mo dd hh mi ss)
  latitude := lat
  longitude := lon
  altitude := alt
  speedMps := speedKmh / .ofRat 3.6
  accuracyM := accuracyM
  satellitesUsed := satsUsed
  batteryVoltage := .finite 0
  signalStrength := 0
  sequenceId := 0

/-! ## To the queue -/

section
variable (unspecified : Double → Int64)

/-- `static_cast<int32_t>(std::llround(x * scale))`. -/
def scaled (x : Double) (scale : ℚ) : Int32 :=
  ((x * .finite scale).llround unspecified).toInt32

/-- The fields a record holds only when they are known, and the bit that says so. -/
def storeAltitude (in_ : LocationPayload) (out : FixRecord) : FixRecord :=
  if in_.altitude ≠ .finite 0 then
    { out with
      altitudeCm := scaled unspecified in_.altitude 100
      validFields := out.validFields ||| fixFieldAltitude }
  else out

def storeSpeed (in_ : LocationPayload) (out : FixRecord) : FixRecord :=
  if in_.speedMps > .finite 0 then
    { out with
      speedMmps := scaled unspecified in_.speedMps 1000
      validFields := out.validFields ||| fixFieldSpeed }
  else out

def storeAccuracy (in_ : LocationPayload) (out : FixRecord) : FixRecord :=
  if in_.accuracyM > .finite 0 then
    { out with
      accuracyCm := scaled unspecified in_.accuracyM 100
      validFields := out.validFields ||| fixFieldAccuracy }
  else out

def storeSatellites (in_ : LocationPayload) (out : FixRecord) : FixRecord :=
  if in_.satellitesUsed > 0 then
    { out with
      satellitesUsed := in_.satellitesUsed
      validFields := out.validFields ||| fixFieldSatellites }
  else out

/-- Zero for a voltage that does not fit. -/
def batteryMillivolts (voltage : Double) : UInt16 :=
  let mv := voltage * .finite 1000
  if mv ≥ .finite 0 ∧ mv ≤ .finite 65535 then (mv.llround unspecified).toUInt64.toUInt16 else 0

/-- A voltage of zero millivolts stays unknown. -/
def storeBattery (in_ : LocationPayload) (out : FixRecord) : FixRecord :=
  if in_.batteryVoltage.isFinite ∧ in_.batteryVoltage > .finite 0 then
    let batteryMv := batteryMillivolts unspecified in_.batteryVoltage
    { out with
      batteryMv
      validFields :=
        if batteryMv > 0 then out.validFields ||| fixFieldBattery else out.validFields }
  else out

def storeSignal (in_ : LocationPayload) (out : FixRecord) : FixRecord :=
  if in_.signalStrength ≥ 0 ∧ in_.signalStrength ≤ 31 then
    { out with
      signalStrength := in_.signalStrength
      validFields := out.validFields ||| fixFieldSignal }
  else out

/-- The record of a payload, unless its timestamp is not terminated or a coordinate is out of range.
A coordinate that is not a number is not out of range. -/
def locationPayloadToFixRecord (in_ : LocationPayload) (sequenceId bootId : UInt32) :
    Option FixRecord :=
  if getElem in_.recordedAt 20 fixTimestampEnd ≠ 0 ∨
      in_.latitude < .finite (-90) ∨ in_.latitude > .finite 90 ∨
      in_.longitude < .finite (-180) ∨ in_.longitude > .finite 180 then none
  else
    let out : FixRecord :=
      { sequenceId, bootId
        recordedAt := in_.recordedAt
        latitudeE6 := scaled unspecified in_.latitude 1000000
        longitudeE6 := scaled unspecified in_.longitude 1000000
        altitudeCm := 0
        speedMmps := 0
        accuracyCm := 0
        satellitesUsed := 0
        batteryMv := 0
        signalStrength := 0
        validFields := 0 }
    some (storeSignal in_ (storeBattery unspecified in_ (storeSatellites in_
      (storeAccuracy unspecified in_ (storeSpeed unspecified in_
        (storeAltitude unspecified in_ out))))))

end

/-! ## From the queue to the wire -/

def FixRecord.has (record : FixRecord) (field : UInt8) : Bool := record.validFields &&& field ≠ 0

def locationPayloadFromFixRecord (record : FixRecord) : LocationPayload where
  recordedAt := record.recordedAt
  sequenceId := record.sequenceId
  latitude := .ofInt record.latitudeE6.toInt / .finite 1000000
  longitude := .ofInt record.longitudeE6.toInt / .finite 1000000
  altitude :=
    if record.has fixFieldAltitude then .ofInt record.altitudeCm.toInt / .finite 100
    else .finite 0
  speedMps :=
    if record.has fixFieldSpeed then .ofInt record.speedMmps.toInt / .finite 1000 else .finite 0
  accuracyM :=
    if record.has fixFieldAccuracy then .ofInt record.accuracyCm.toInt / .finite 100
    else .finite 0
  satellitesUsed := if record.has fixFieldSatellites then record.satellitesUsed else 0
  batteryVoltage :=
    if record.has fixFieldBattery then .ofInt record.batteryMv.toNat / .finite 1000
    else .finite 0
  signalStrength := if record.has fixFieldSignal then record.signalStrength else -1

/-- The members of the JSON object of a payload. -/
structure LocationJson where
  recordedAt : List UInt8
  latitude : Option Double
  longitude : Option Double
  altitude : Option Double
  speed : Option Double
  accuracy : Option Double
  satellitesUsed : Option UInt16
  batteryVoltage : Option Double
  signalStrength : Option Int8
  sequenceId : Option UInt32
  deriving DecidableEq

def locationPayloadToJson (p : LocationPayload) : LocationJson where
  recordedAt := cString p.recordedAt
  latitude :=
    if p.latitude ≥ .finite (-90) ∧ p.latitude ≤ .finite 90 then some p.latitude else none
  longitude :=
    if p.longitude ≥ .finite (-180) ∧ p.longitude ≤ .finite 180 then some p.longitude else none
  altitude := if p.altitude ≠ .finite 0 then some p.altitude else none
  speed := if p.speedMps > .finite 0 then some p.speedMps else none
  accuracy := if p.accuracyM > .finite 0 then some p.accuracyM else none
  satellitesUsed := if p.satellitesUsed > 0 then some p.satellitesUsed else none
  batteryVoltage :=
    if p.batteryVoltage.isFinite ∧ p.batteryVoltage > .finite 0 then some p.batteryVoltage
    else none
  signalStrength :=
    if p.signalStrength ≥ 0 ∧ p.signalStrength ≤ 31 then some p.signalStrength else none
  sequenceId := if p.sequenceId > 0 then some p.sequenceId else none

/-- The readings an upload takes once for all its records. -/
structure LiveReadings where
  batteryMv : UInt16
  csq : Int16
  deriving DecidableEq

/-- A reading in the range of the API, in volts. -/
def LiveReadings.battery (live : LiveReadings) : Option Double :=
  let v := Double.ofInt live.batteryMv.toNat / .finite 1000
  if v > .finite 0 ∧ v ≤ .finite 6 then some v else none

def LiveReadings.signal (live : LiveReadings) : Option Int8 :=
  if live.csq ≥ 0 ∧ live.csq ≤ 31 then some live.csq.toInt8 else none

/-- The payload `transportPostBatch` sends for a record: what was unknown when it was queued is
filled in from the readings. -/
def batchPayload (live : LiveReadings) (record : FixRecord) : LocationPayload :=
  let p := locationPayloadFromFixRecord record
  { p with
    batteryVoltage :=
      if record.has fixFieldBattery then p.batteryVoltage else live.battery.getD p.batteryVoltage
    signalStrength :=
      if record.has fixFieldSignal then p.signalStrength else live.signal.getD p.signalStrength
    sequenceId := if p.sequenceId = 0 then record.sequenceId else p.sequenceId }

/-- The payload the main loop queues for a fix. -/
def enrich (live : LiveReadings) (fix : LocationPayload) : LocationPayload :=
  { fix with
    batteryVoltage := live.battery.getD fix.batteryVoltage
    signalStrength := live.signal.getD (-1) }

end OpenGps.Firmware
