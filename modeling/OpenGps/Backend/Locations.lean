import Mathlib.Algebra.Order.Ring.Int
import OpenGps.Lib.Table

/-!
# Locations

The ingest and live-read paths of the location service (`internal/app/locations`) over its tables.
A transaction of the adapter is one function on the database: its statements, in order, with the
constraints of the tables. Its error leaves the database as it was.

Instants are in microseconds, the resolution of a `timestamptz`; those of a request have nanoseconds,
and the driver writes them in microseconds. The numbers of a request are decimal, so the doubles of
the source are rationals here.
-/

namespace OpenGps.Backend

open OpenGps.Lib

abbrev Time := Int

/-- An instant or a duration in nanoseconds, the resolution of the instants in a request. -/
abbrev Nanos := Int

def Nanos.ofTime (t : Time) : Nanos := t * 1000

/-- How the driver writes an instant: to the microsecond, and those of the database as they are. -/
structure TimestampCodec where
  encode : Nanos → Time
  encode_ofTime : ∀ t, encode (.ofTime t) = t
  mono : ∀ {s t}, s ≤ t → encode s ≤ encode t

namespace TimestampCodec

variable (codec : TimestampCodec) {t : Time} {instant : Nanos}

theorem encode_le (h : instant ≤ .ofTime t) : codec.encode instant ≤ t := by
  rw [← codec.encode_ofTime t]
  exact codec.mono h

end TimestampCodec

/-- The driver cuts off what is below a microsecond. -/
def microsecondCodec : TimestampCodec where
  encode t := t / 1000
  encode_ofTime t := Int.mul_ediv_cancel t (by decide)
  mono h := Int.ediv_le_ediv (by decide) h

/-! ## Data -/

/-- The columns of `locations` beside its key. -/
structure Telemetry where
  latitude : Rat
  longitude : Rat
  altitude : Option Rat
  speed : Option Rat
  accuracy : Option Rat
  batteryVoltage : Option Rat
  signalStrength : Option Int
  deriving DecidableEq

/-- A location before the handler stamps the device of the API key on it. -/
structure LocationItem extends Telemetry where
  sequenceID : UInt64
  recordedAt : Time
  deriving DecidableEq

structure Location (δ : Type) extends LocationItem where
  deviceID : δ
  deriving DecidableEq

inductive PresenceState where
  | neverSeen
  | onlineMoving
  | onlineStationary
  | offline
  deriving DecidableEq

structure DevicePresence where
  state : PresenceState
  lastContactAt : Option Time
  expiresAt : Option Time
  deriving DecidableEq

structure LiveLocation (δ : Type) where
  deviceID : δ
  location : Option (Location δ)
  presence : DevicePresence
  serverTime : Time
  deriving DecidableEq

structure Device where
  lastContactAt : Option Time
  deletedAt : Option Time
  deriving DecidableEq

structure Database (δ : Type) where
  devices : Table δ Device
  locations : Table (δ × Time) Telemetry
  locationIngestKeys : Table (δ × UInt64) Time

/-- The errors of PostgreSQL and of its driver that an insert can meet. -/
inductive PgError where
  | foreignKeyViolation
  | checkViolation
  | outOfRange
  | connection
  deriving DecidableEq

variable {δ : Type}

/-- `toDomainIngest`, after the text of the time has been parsed. -/
def toDomainIngest (item : LocationItem) (deviceID : δ) : Location δ := { item with deviceID }

/-- A row of `locations` has no sequence id. -/
def locationFromRow (device : δ) (recordedAt : Time) (row : Telemetry) : Location δ :=
  { row with sequenceID := 0, recordedAt, deviceID := device }

/-! ## Validation -/

def ErrInvalidLatitude := "invalid latitude"
def ErrInvalidLongitude := "invalid longitude"
def ErrInvalidAltitude := "invalid altitude"
def ErrInvalidSpeed := "invalid speed"
def ErrInvalidAccuracy := "invalid accuracy"
def ErrInvalidBatteryVoltage := "invalid battery voltage"
def ErrInvalidSignalStrength := "invalid signal strength"

def maxAltitudeMeters : Rat := 10000
def minAltitudeMeters : Rat := -500
def maxBatteryVoltage : Rat := 6
def minSignalStrength : Int := 0
def maxSignalStrength : Int := 31

def validateRanges (loc : Location δ) : Option String :=
  if loc.latitude < -90 ∨ loc.latitude > 90 then some ErrInvalidLatitude
  else if loc.longitude < -180 ∨ loc.longitude > 180 then some ErrInvalidLongitude
  else if loc.altitude.any fun a => a < minAltitudeMeters || a > maxAltitudeMeters then
    some ErrInvalidAltitude
  else if loc.speed.any fun v => v < 0 then some ErrInvalidSpeed
  else if loc.accuracy.any fun a => a < 0 then some ErrInvalidAccuracy
  else if loc.batteryVoltage.any fun b => b < 0 || b > maxBatteryVoltage then
    some ErrInvalidBatteryVoltage
  else if loc.signalStrength.any fun r => r < minSignalStrength || r > maxSignalStrength then
    some ErrInvalidSignalStrength
  else none

def validateLocation (loc : Location δ) : Option String :=
  if loc.sequenceID = 0 then some "invalid_sequence_id" else validateRanges loc

structure BatchRejection where
  sequenceID : UInt64
  code : String
  deriving DecidableEq

/-- The accumulators of the loop in `IngestBatch`. -/
structure Sorted (δ : Type) where
  valid : List (Location δ)
  rejected : List BatchRejection
  seen : List UInt64

def sortItem (acc : Sorted δ) (item : Location δ) : Sorted δ :=
  if item.sequenceID ∈ acc.seen then
    { acc with rejected := acc.rejected ++ [⟨item.sequenceID, "duplicate_sequence_id"⟩] }
  else
    let seen := item.sequenceID :: acc.seen
    match validateLocation item with
    | some err => { acc with seen, rejected := acc.rejected ++ [⟨item.sequenceID, err⟩] }
    | none => { acc with seen, valid := acc.valid ++ [item] }

def sortItems (items : List (Location δ)) : Sorted δ := items.foldl sortItem ⟨[], [], []⟩

/-! ## Presence -/

/-- Six minutes. -/
def livePresenceTimeout : Time := 6 * 60 * 1000000

def movingSpeedThresholdMPS : Rat := 1

def derivePresence (lastContactAt : Option Time) (latest : Option (Location δ)) (now timeout : Time)
    (motionThresholdMPS : Rat) : DevicePresence :=
  match lastContactAt with
  | none => ⟨.neverSeen, none, none⟩
  | some contact =>
    let expiresAt := contact + timeout
    let moving := (latest.bind (·.speed)).any fun v => v > motionThresholdMPS
    let state :=
      if ¬ now < expiresAt then .offline
      else if moving then .onlineMoving
      else .onlineStationary
    ⟨state, some contact, some expiresAt⟩

namespace Database

variable [DecidableEq δ]

/-! ## Statements -/

/-- `sequence_id` is a `bigint`, so the driver refuses the upper half of the range. -/
def insertIngestKey (db : Database δ) (device : δ) (sequenceID : UInt64) (recordedAt : Time) :
    Except PgError (Nat × Database δ) :=
  if sequenceID.toNat ≥ 2 ^ 63 then throw .outOfRange
  else if sequenceID = 0 then throw .checkViolation
  else
    let (rows, locationIngestKeys) :=
      db.locationIngestKeys.insertNew (device, sequenceID) recordedAt
    if rows ≠ 0 ∧ device ∉ db.devices then throw .foreignKeyViolation
    else return (rows, { db with locationIngestKeys })

def insertLocation (db : Database δ) (device : δ) (recordedAt : Time) (row : Telemetry) :
    Except PgError (Database δ) :=
  let (rows, locations) := db.locations.insertNew (device, recordedAt) row
  if rows ≠ 0 ∧ device ∉ db.devices then throw .foreignKeyViolation
  else return { db with locations }

/-- `UPDATE devices SET last_contact_at = CURRENT_TIMESTAMP`. -/
def touch (db : Database δ) (device : δ) (clock : Time) : Database δ :=
  { db with
    devices := (db.devices.updateAt device (·.deletedAt.isNone)
      fun d => { d with lastContactAt := some clock }).2 }

def newer (device : δ) (best : Option (Time × Telemetry)) (row : (δ × Time) × Telemetry) :
    Option (Time × Telemetry) :=
  if row.1.1 = device ∧ best.all (·.1 < row.1.2) then some (row.1.2, row.2) else best

/-- `ORDER BY recorded_at DESC LIMIT 1`; no two rows of a device have the same `recorded_at`. -/
def getLatest (db : Database δ) (device : δ) : Option (Location δ) :=
  (db.locations.rows.foldl (newer device) none).map fun row => locationFromRow device row.1 row.2

/-- `none` is `ErrNotFound`. -/
def getLive (db : Database δ) (device : δ) (now timeout : Time) (motionThreshold : Rat) :
    Option (LiveLocation δ) :=
  match db.devices.lookup device with
  | some ⟨last, none⟩ =>
    let latest := db.getLatest device
    some ⟨device, latest, derivePresence last latest now timeout motionThreshold, now⟩
  | _ => none

/-! ## Transactions -/

/-- The conversion `int32(*loc.SignalStrength)`. -/
def toInt32 (v : Int) : Int := v.bmod (2 ^ 32)

def insert (db : Database δ) (clock : Time) (loc : Location δ) : Except PgError (Database δ) := do
  let db ← db.insertLocation loc.deviceID loc.recordedAt
    { loc.toTelemetry with signalStrength := loc.signalStrength.map toInt32 }
  return db.touch loc.deviceID clock

/-- One iteration of the loop in `InsertBatch`. -/
def insertItem (acc : List UInt64 × Database δ) (loc : Location δ) :
    Except PgError (List UInt64 × Database δ) := do
  let (rows, db) ← acc.2.insertIngestKey loc.deviceID loc.sequenceID loc.recordedAt
  if rows = 0 then return (acc.1 ++ [loc.sequenceID], db)
  let db ← db.insertLocation loc.deviceID loc.recordedAt loc.toTelemetry
  return (acc.1 ++ [loc.sequenceID], db)

def insertBatch (db : Database δ) (clock : Time) (locations : List (Location δ)) :
    Except PgError (List UInt64 × Database δ) := do
  let (accepted, db) ← locations.foldlM insertItem ([], db)
  match locations with
  | [] => return (accepted, db)
  | loc :: _ => return (accepted, db.touch loc.deviceID clock)

end Database

/-! ## The service -/

/-- How a transaction that met no error ends: the commit of a lost reply has taken effect. -/
inductive Commit where
  | done
  | failed
  | unconfirmed
  deriving DecidableEq

/-- A statement that changes the state: when its reply is lost, it has taken effect. -/
def settle {σ α : Type} (commit : Commit) (s s' : σ) (ok err : α) : α × σ :=
  match commit with
  | .done => (ok, s')
  | .failed => (err, s)
  | .unconfirmed => (err, s')

theorem settle_snd {σ α : Type} (commit : Commit) (s s' : σ) (ok err : α) :
    (settle commit s s' ok err).2 = s ∨ (settle commit s s' ok err).2 = s' := by
  cases commit with
  | done => exact .inr rfl
  | failed => exact .inl rfl
  | unconfirmed => exact .inr rfl

/-- The answer of a transaction to the service, and the database after it. -/
def transact {α : Type} (commit : Commit) (db : Database δ) :
    Except PgError (α × Database δ) → Except PgError α × Database δ
  | .error e => (.error e, db)
  | .ok (a, db') =>
    match commit with
    | .done => (.ok a, db')
    | .failed => (.error .connection, db)
    | .unconfirmed => (.error .connection, db')

inductive IngestError where
  | invalid (message : String)
  | writer (err : PgError)
  deriving DecidableEq

variable [DecidableEq δ]

/-- `Ingest` up to the reply of the writer. -/
def ingestWrite (db : Database δ) (clock : Time) (commit : Commit) (loc : Location δ) :
    Except IngestError Unit × Database δ :=
  match validateRanges loc with
  | some err => (.error (.invalid err), db)
  | none =>
    match transact commit db ((db.insert clock loc).map ((), ·)) with
    | (.error err, db) => (.error (.writer err), db)
    | (.ok (), db) => (.ok (), db)

structure BatchResult where
  accepted : List UInt64
  rejected : List BatchRejection
  deriving DecidableEq

def ingestBatch (db : Database δ) (clock : Time) (commit : Commit) (items : List (Location δ)) :
    Except IngestError BatchResult × Database δ :=
  let sorted := sortItems items
  match transact commit db (db.insertBatch clock sorted.valid) with
  | (.error err, db) => (.error (.writer err), db)
  | (.ok accepted, db) => (.ok ⟨accepted, sorted.rejected⟩, db)

/-- The first statement of `GetLive`: the last contact of a device that is not deleted. -/
def Database.getContact (db : Database δ) (device : δ) : Option (Option Time) :=
  match db.devices.lookup device with
  | some ⟨last, none⟩ => some last
  | _ => none

/-- The rest of `GetLive`. -/
def Database.liveWith (db : Database δ) (device : δ) (last : Option Time) (now : Time) :
    LiveLocation δ :=
  let latest := db.getLatest device
  ⟨device, latest,
    derivePresence last latest now livePresenceTimeout movingSpeedThresholdMPS, now⟩

/-- `GetLive` of the service. -/
def getLive (db : Database δ) (device : δ) (now : Time) : Option (LiveLocation δ) :=
  db.getLive device now livePresenceTimeout movingSpeedThresholdMPS

theorem getLive_eq (db : Database δ) (device : δ) (now : Time) :
    getLive db device now = (db.getContact device).map (db.liveWith device · now) := by
  rw [getLive, Database.getLive, Database.getContact]
  split
  · rfl
  · rfl

end OpenGps.Backend
