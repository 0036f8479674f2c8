import Mathlib.Data.Int.ConditionallyCompleteOrder
import Mathlib.Data.Prod.Lex
import Mathlib.Tactic.Linarith
import OpenGps.Backend.Access
import OpenGps.Backend.Reports

/-!
# The data of a report

The filter of a report request (`internal/transport/http/handlers/reports.go`) and the two queries
that select the devices and the points of its data (`internal/infra/postgres/reports_adapter.go`).

Each query is put together from conditions whose arguments are bound by number, so a condition names
its placeholder here too. A statement that cannot bind its arguments fails as a whole. The driver
sends an instant as a `timestamptz`, in microseconds.
-/

namespace OpenGps.Backend.Reports

open OpenGps.Lib

/-! ## Requests -/

inductive VehicleType where
  | bicycle | motorcycle | car | truck | van | other
  deriving DecidableEq

/-- The labels of `device_vehicle_type`. -/
def VehicleType.ofLabel : String → Option VehicleType
  | "bicycle" => some .bicycle
  | "motorcycle" => some .motorcycle
  | "car" => some .car
  | "truck" => some .truck
  | "van" => some .van
  | "other" => some .other
  | _ => none

/-- An empty list selects all devices, and an empty text all types. -/
structure ReportFilter (δ : Type) extends Filter where
  deviceIDs : List δ
  vehicleType : String

/-- The parameters of the URL, as they are written. -/
structure ReportQuery where
  zone : String
  start : String
  stop : String
  deviceIDs : String
  vehicleType : String

/-- `time.ParseInLocation`, with `time.LoadLocation` before it, and `uuid.Parse` of a trimmed text. A
text of an instant may have a fraction of a second, which the layout does not show. -/
structure Parsers (ζ δ : Type) where
  loadLocation : String → Option ζ
  parseInLocation : String → ζ → Option Nanos
  parseID : String → Option δ

section
variable {ζ δ : Type} (parsers : Parsers ζ δ)

def parseReportRange (query : ReportQuery) : Except String Filter :=
  if query.zone = "" then throw "from, to, and time-zone are required"
  else
    match parsers.loadLocation query.zone with
    | none => throw "invalid time-zone"
    | some location =>
      match parsers.parseInLocation query.start location with
      | none => throw "invalid from"
      | some start =>
        match parsers.parseInLocation query.stop location with
        | none => throw "invalid to"
        | some stop =>
          if ¬ start < stop then throw "from must be before to"
          else if stop - start > maxReportRange then throw "report range cannot exceed 31 days"
          else return ⟨start, stop⟩

def parseReportIDs (raw : String) : Except String (List δ) :=
  if raw = "" then return []
  else
    match (raw.splitOn ",").mapM parsers.parseID with
    | none => throw "invalid device id"
    | some ids => return ids

def validVehicle (value : String) : Bool := (VehicleType.ofLabel value).isSome

def reportRequest (query : ReportQuery) : Except String (ReportFilter δ) := do
  let range ← parseReportRange parsers query
  let deviceIDs ← parseReportIDs parsers query.deviceIDs
  if query.vehicleType ≠ "" ∧ ¬ validVehicle query.vehicleType then throw "invalid vehicle_type"
  return { range with deviceIDs, vehicleType := query.vehicleType }

/-- What the handler has checked. -/
structure Accepted (filter : ReportFilter δ) : Prop where
  nonempty : filter.start < filter.stop
  bounded : filter.stop - filter.start ≤ maxReportRange
  vehicle : filter.vehicleType = "" ∨ ∃ v, VehicleType.ofLabel filter.vehicleType = some v

variable {parsers}

theorem bind_eq_ok {ε α β : Type} {x : Except ε α} {f : α → Except ε β} {b : β} :
    x >>= f = .ok b ↔ ∃ a, x = .ok a ∧ f a = .ok b := by
  cases x with
  | error e =>
    constructor
    · intro h
      cases h
    · rintro ⟨a, ha, -⟩
      cases ha
  | ok a =>
    constructor
    · exact fun h => ⟨a, rfl, h⟩
    · rintro ⟨a', ha, h⟩
      cases ha
      exact h

theorem parseReportRange_bounds {query : ReportQuery} {range : Filter}
    (h : parseReportRange parsers query = .ok range) :
    range.start < range.stop ∧ range.stop - range.start ≤ maxReportRange := by
  unfold parseReportRange at h
  split at h
  · cases h
  · split at h
    · cases h
    · split at h
      · cases h
      · split at h
        · cases h
        · split at h
          · cases h
          · next hpositive =>
            split at h
            · cases h
            · next hbounded =>
              cases h
              exact ⟨not_not.mp hpositive, not_lt.mp hbounded⟩

theorem accepted_of_reportRequest {query : ReportQuery} {filter : ReportFilter δ}
    (h : reportRequest parsers query = .ok filter) : Accepted filter := by
  obtain ⟨range, hrange, h⟩ := bind_eq_ok.mp h
  obtain ⟨ids, -, h⟩ := bind_eq_ok.mp h
  obtain ⟨hpositive, hbounded⟩ := parseReportRange_bounds hrange
  split at h
  · cases h
  · next hvehicle =>
    cases h
    refine ⟨hpositive, hbounded, ?_⟩
    rw [not_and, not_not] at hvehicle
    by_cases hempty : query.vehicleType = ""
    · exact .inl hempty
    · exact .inr (Option.isSome_iff_exists.mp (hvehicle hempty))

end

/-! ## Tables -/

/-- The columns of `devices` that a report reads. -/
structure DeviceRow where
  name : String
  vehicleType : VehicleType
  deletedAt : Option Time

/-- The columns of `locations` that a report reads, beside its key. -/
structure LocationRow (K : Type) where
  latitude : K
  longitude : K
  altitude : Option K
  speed : Option K

structure ReportDb (υ δ K : Type) where
  devices : Table δ DeviceRow
  access : Grants υ δ
  locations : Table (δ × Time) (LocationRow K)

/-! ## Statements -/

/-- What can be bound to a placeholder. -/
inductive Arg (υ δ : Type) where
  | user (id : υ)
  | instant (t : Nanos)
  | devices (ids : List δ)
  | text (s : String)
  | count (n : ℕ)

/-- A row of the joins on the device; a query for devices joins no location. -/
structure JoinedRow (υ δ K : Type) where
  device : δ
  row : DeviceRow
  user : υ
  grant : Grant
  point : Option (Point δ K)

/-- A condition, with the number of its placeholder. -/
inductive Condition where
  /-- `d.deleted_at IS NULL` -/
  | deviceActive
  /-- `uda.deleted_at IS NULL` -/
  | accessActive
  /-- `uda.user_id = $n` -/
  | userIs (n : ℕ)
  /-- `l.recorded_at >= $n` -/
  | recordedFrom (n : ℕ)
  /-- `l.recorded_at < $n` -/
  | recordedBefore (n : ℕ)
  /-- `d.id = ANY($n::uuid[])`, or `l.device_id`, which the join equates with it. -/
  | deviceAmong (n : ℕ)
  /-- `d.vehicle_type = $n::device_vehicle_type` -/
  | vehicleIs (n : ℕ)
  deriving DecidableEq

def Condition.placeholder : Condition → Option ℕ
  | .deviceActive | .accessActive => none
  | .userIs n | .recordedFrom n | .recordedBefore n | .deviceAmong n | .vehicleIs n => some n

/-- The conditions after `WHERE`, and the placeholder after `LIMIT`. -/
structure Statement where
  conditions : List Condition
  limit : Option ℕ

section
variable {υ δ K : Type} [DecidableEq υ] [LinearOrder δ] (codec : TimestampCodec)

/-- Placeholders are numbered from 1. -/
def argAt (args : List (Arg υ δ)) : ℕ → Option (Arg υ δ)
  | 0 => none
  | n + 1 => args[n]?

/-- The condition on a row, or `none` if its argument is missing or has another type. -/
def Condition.resolve (args : List (Arg υ δ)) : Condition → Option (JoinedRow υ δ K → Bool)
  | .deviceActive => some fun r => r.row.deletedAt.isNone
  | .accessActive => some fun r => r.grant.deletedAt.isNone
  | .userIs n =>
    match argAt args n with
    | some (.user id) => some fun r => r.user = id
    | _ => none
  | .recordedFrom n =>
    match argAt args n with
    | some (.instant t) => some fun r => r.point.any (codec.encode t ≤ ·.recordedAt)
    | _ => none
  | .recordedBefore n =>
    match argAt args n with
    | some (.instant t) => some fun r => r.point.any (·.recordedAt < codec.encode t)
    | _ => none
  | .deviceAmong n =>
    match argAt args n with
    | some (.devices ids) => some fun r => r.device ∈ ids
    | _ => none
  | .vehicleIs n =>
    match argAt args n with
    | some (.text s) => (VehicleType.ofLabel s).map fun v r => r.row.vehicleType = v
    | _ => none

namespace Statement

/-- Every argument has a placeholder. -/
def bindsAll (q : Statement) (args : List (Arg υ δ)) : Bool :=
  (List.range args.length).all fun n =>
    q.conditions.any (·.placeholder = some (n + 1)) || q.limit = some (n + 1)

def filter (q : Statement) (args : List (Arg υ δ)) : Option (JoinedRow υ δ K → Bool) :=
  if q.bindsAll args then
    (q.conditions.mapM (Condition.resolve codec args)).map fun conditions row =>
      conditions.all (· row)
  else none

/-- The rows that are left by `LIMIT`. -/
def take {ρ : Type} (q : Statement) (args : List (Arg υ δ)) (rows : List ρ) : Option (List ρ) :=
  match q.limit with
  | none => some rows
  | some n =>
    match argAt args n with
    | some (.count k) => some (rows.take k)
    | _ => none

end Statement

/-! ## The adapter -/

def deviceQuery (filter : ReportFilter δ) : Statement × List (Arg υ δ) :=
  let conditions := [.deviceActive, .accessActive, .userIs 1]
  let (conditions, args) :=
    if filter.deviceIDs ≠ [] then
      (conditions ++ [.deviceAmong 2], [.devices filter.deviceIDs])
    else (conditions, [])
  let (conditions, args) :=
    if filter.vehicleType ≠ "" then
      let position := if filter.deviceIDs ≠ [] then 3 else 2
      (conditions ++ [.vehicleIs position], args ++ [.text filter.vehicleType])
    else (conditions, args)
  (⟨conditions, none⟩, args)

def pointQuery (user : υ) (filter : ReportFilter δ) (limit : ℕ) : Statement × List (Arg υ δ) :=
  let conditions :=
    [.userIs 1, .deviceActive, .accessActive, .recordedFrom 2, .recordedBefore 3]
  let args := [.user user, .instant filter.start, .instant filter.stop]
  let next := 4
  let (conditions, args, next) :=
    if filter.deviceIDs ≠ [] then
      (conditions ++ [.deviceAmong next], args ++ [.devices filter.deviceIDs], next + 1)
    else (conditions, args, next)
  let (conditions, args, next) :=
    if filter.vehicleType ≠ "" then
      (conditions ++ [.vehicleIs next], args ++ [.text filter.vehicleType], next + 1)
    else (conditions, args, next)
  if limit > 0 then (⟨conditions, some next⟩, args ++ [.count limit])
  else (⟨conditions, none⟩, args)

namespace ReportDb
variable (db : ReportDb υ δ K)

/-- `devices d JOIN user_device_access uda ON uda.device_id = d.id`. -/
def joinAccess (point : Option (Point δ K)) (device : δ) (row : DeviceRow) :
    List (JoinedRow υ δ K) :=
  (db.access.rows.filter fun a => a.1.2 = device).map fun a => ⟨device, row, a.1.1, a.2, point⟩

def deviceRows : List (JoinedRow υ δ K) :=
  db.devices.rows.flatMap fun d => db.joinAccess none d.1 d.2

def pointOfRow (key : δ × Time) (row : LocationRow K) : Point δ K :=
  ⟨key.1, key.2, row.latitude, row.longitude, row.altitude, row.speed⟩

def pointRows : List (JoinedRow υ δ K) :=
  db.locations.rows.flatMap fun l =>
    (db.devices.lookup l.1.1).toList.flatMap fun d =>
      db.joinAccess (some (pointOfRow l.1 l.2)) l.1.1 d

/-- `ORDER BY d.name`; the collation of the database is a parameter. -/
def getDevices (nameLe : String → String → Bool) (user : υ) (filter : ReportFilter δ) :
    Option (List δ) :=
  let query := (deviceQuery (υ := υ) filter).1
  let args := .user user :: (deviceQuery filter).2
  (query.filter codec args).bind fun condition =>
    let rows := (db.deviceRows.filter condition).mergeSort fun a b => nameLe a.row.name b.row.name
    query.take args (rows.map (·.device))

/-- `ORDER BY l.device_id, l.recorded_at`. -/
def getPoints (user : υ) (filter : ReportFilter δ) (limit : ℕ) : Option (List (Point δ K)) :=
  let query := (pointQuery user filter limit).1
  let args := (pointQuery user filter limit).2
  (query.filter codec args).bind fun condition =>
    let points := (db.pointRows.filter condition).filterMap (·.point)
    query.take args (points.mergeSort fun a b =>
      toLex (a.deviceID, a.recordedAt) ≤ toLex (b.deviceID, b.recordedAt))

end ReportDb

end

/-! ## What the statements select -/

section
variable {υ δ K : Type} [DecidableEq υ] [LinearOrder δ] (codec : TimestampCodec)

/-- What a condition is to say of a row, whatever its number. -/
def Condition.Means (user : υ) (filter : ReportFilter δ) (r : JoinedRow υ δ K) : Condition → Prop
  | .deviceActive => r.row.deletedAt = none
  | .accessActive => r.grant.deletedAt = none
  | .userIs _ => r.user = user
  | .recordedFrom _ => ∃ p, r.point = some p ∧ codec.encode filter.start ≤ p.recordedAt
  | .recordedBefore _ => ∃ p, r.point = some p ∧ p.recordedAt < codec.encode filter.stop
  | .deviceAmong _ => r.device ∈ filter.deviceIDs
  | .vehicleIs _ => VehicleType.ofLabel filter.vehicleType = some r.row.vehicleType

/-- The number of the condition is that of the argument it is to be compared with. -/
def Condition.Binds (user : υ) (filter : ReportFilter δ) (args : List (Arg υ δ)) :
    Condition → Prop
  | .deviceActive | .accessActive => True
  | .userIs n => argAt args n = some (.user user)
  | .recordedFrom n => argAt args n = some (.instant filter.start)
  | .recordedBefore n => argAt args n = some (.instant filter.stop)
  | .deviceAmong n => argAt args n = some (.devices filter.deviceIDs)
  | .vehicleIs n => argAt args n = some (.text filter.vehicleType) ∧ filter.vehicleType ≠ ""

variable {user : υ} {filter : ReportFilter δ} {args : List (Arg υ δ)}

theorem Condition.resolve_of_binds (h : Accepted filter) {c : Condition}
    (hbinds : c.Binds user filter args) :
    ∃ p : JoinedRow υ δ K → Bool, c.resolve codec args = some p ∧
      ∀ r, p r = true ↔ c.Means codec user filter r := by
  cases c with
  | deviceActive => exact ⟨_, rfl, fun r => Option.isNone_iff_eq_none⟩
  | accessActive => exact ⟨_, rfl, fun r => Option.isNone_iff_eq_none⟩
  | userIs n =>
    refine ⟨fun r => r.user = user, ?_, fun r => decide_eq_true_iff⟩
    rw [Condition.resolve, hbinds]
  | recordedFrom n =>
    refine ⟨fun r => r.point.any (codec.encode filter.start ≤ ·.recordedAt), ?_, fun r => ?_⟩
    · rw [Condition.resolve, hbinds]
    · simp only [Option.any_eq_true, decide_eq_true_eq, Condition.Means]
  | recordedBefore n =>
    refine ⟨fun r => r.point.any (·.recordedAt < codec.encode filter.stop), ?_, fun r => ?_⟩
    · rw [Condition.resolve, hbinds]
    · simp only [Option.any_eq_true, decide_eq_true_eq, Condition.Means]
  | deviceAmong n =>
    refine ⟨fun r => r.device ∈ filter.deviceIDs, ?_, fun r => decide_eq_true_iff⟩
    rw [Condition.resolve, hbinds]
  | vehicleIs n =>
    obtain ⟨hbinds, hne⟩ := hbinds
    obtain ⟨v, hv⟩ := h.vehicle.resolve_left hne
    refine ⟨fun r => r.row.vehicleType = v, ?_, fun r => ?_⟩
    · rw [Condition.resolve, hbinds]
      dsimp only
      rw [hv]
      rfl
    · simp only [Condition.Means, hv, decide_eq_true_eq, Option.some.injEq]
      exact eq_comm

theorem resolve_conditions (h : Accepted filter) {conditions : List Condition}
    (hbinds : ∀ c ∈ conditions, c.Binds user filter args) :
    ∃ ps : List (JoinedRow υ δ K → Bool),
      conditions.mapM (Condition.resolve codec args) = some ps ∧
      ∀ r, ps.all (· r) = true ↔ ∀ c ∈ conditions, c.Means codec user filter r := by
  induction conditions with
  | nil => exact ⟨[], rfl, fun r => by simp⟩
  | cons c conditions ih =>
    obtain ⟨p, hp, hpr⟩ := Condition.resolve_of_binds (K := K) codec h
      (hbinds c List.mem_cons_self)
    obtain ⟨ps, hps, hpsr⟩ := ih fun c' hc' => hbinds c' (List.mem_cons_of_mem _ hc')
    refine ⟨p :: ps, ?_, fun r => ?_⟩
    · rw [List.mapM_cons, hp, hps]
      rfl
    · rw [List.all_cons, Bool.and_eq_true, hpr, hpsr, List.forall_mem_cons]

namespace Statement

theorem filter_of_binds (h : Accepted filter) {q : Statement} (hall : q.bindsAll args = true)
    (hbinds : ∀ c ∈ q.conditions, c.Binds user filter args) :
    ∃ condition : JoinedRow υ δ K → Bool, q.filter codec args = some condition ∧
      ∀ r, condition r = true ↔ ∀ c ∈ q.conditions, c.Means codec user filter r := by
  obtain ⟨ps, hps, hpsr⟩ := resolve_conditions (K := K) codec h hbinds
  refine ⟨fun row => ps.all (· row), ?_, hpsr⟩
  rw [Statement.filter, if_pos hall, hps]
  rfl

omit [DecidableEq υ] [LinearOrder δ] in
theorem resolve_of_mapM {α β : Type} {f : α → Option β} {xs : List α} {ys : List β}
    (h : xs.mapM f = some ys) {x : α} (hx : x ∈ xs) : ∃ y ∈ ys, f x = some y := by
  induction xs generalizing ys with
  | nil => cases hx
  | cons x' xs ih =>
    rw [List.mapM_cons] at h
    obtain ⟨y, hy, h⟩ := Option.bind_eq_some_iff.mp h
    obtain ⟨ys, hys, h⟩ := Option.bind_eq_some_iff.mp h
    cases h
    obtain rfl | hx := List.mem_cons.mp hx
    · exact ⟨y, List.mem_cons_self, hy⟩
    · obtain ⟨y', hy', hfx⟩ := ih hys hx
      exact ⟨y', List.mem_cons_of_mem _ hy', hfx⟩

variable {codec} in
/-- A row that is selected meets each condition. -/
theorem resolve_of_filter {q : Statement} {condition : JoinedRow υ δ K → Bool}
    (h : q.filter codec args = some condition) {c : Condition} (hc : c ∈ q.conditions) :
    ∃ p, c.resolve codec args = some p ∧ ∀ r, condition r = true → p r = true := by
  unfold Statement.filter at h
  split at h
  · obtain ⟨ps, hps, rfl⟩ := Option.map_eq_some_iff.mp h
    obtain ⟨p, hp, hresolve⟩ := resolve_of_mapM hps hc
    exact ⟨p, hresolve, fun r hr => List.all_eq_true.mp hr p hp⟩
  · cases h

end Statement

/-- The filter selects the device for the user. -/
structure Selected (user : υ) (filter : ReportFilter δ) (r : JoinedRow υ δ K) : Prop where
  active : r.row.deletedAt = none
  granted : r.grant.deletedAt = none
  own : r.user = user
  among : filter.deviceIDs = [] ∨ r.device ∈ filter.deviceIDs
  vehicle : filter.vehicleType = "" ∨
    VehicleType.ofLabel filter.vehicleType = some r.row.vehicleType

omit [DecidableEq υ] [LinearOrder δ] in
theorem selected_iff {r : JoinedRow υ δ K} :
    Selected user filter r ↔ r.row.deletedAt = none ∧ r.grant.deletedAt = none ∧ r.user = user ∧
      (filter.deviceIDs = [] ∨ r.device ∈ filter.deviceIDs) ∧
      (filter.vehicleType = "" ∨
        VehicleType.ofLabel filter.vehicleType = some r.row.vehicleType) := by
  constructor
  · exact fun ⟨hactive, hgranted, hown, hamong, hvehicle⟩ =>
      ⟨hactive, hgranted, hown, hamong, hvehicle⟩
  · exact fun ⟨hactive, hgranted, hown, hamong, hvehicle⟩ =>
      ⟨hactive, hgranted, hown, hamong, hvehicle⟩

theorem filter_deviceQuery (h : Accepted filter) (user : υ) :
    ∃ condition : JoinedRow υ δ K → Bool,
      (deviceQuery (υ := υ) filter).1.filter codec (.user user :: (deviceQuery filter).2) =
        some condition ∧
      ∀ r, condition r = true ↔ Selected user filter r := by
  -- Each of the two optional conditions is there or not, and its number follows.
  have hbinds : (deviceQuery (υ := υ) filter).1.bindsAll
        (.user user :: (deviceQuery filter).2) = true ∧
      ∀ c ∈ (deviceQuery (υ := υ) filter).1.conditions,
        c.Binds user filter (.user user :: (deviceQuery filter).2) := by
    by_cases hids : filter.deviceIDs = [] <;> by_cases hvehicle : filter.vehicleType = "" <;>
      simp [deviceQuery, hids, hvehicle, Statement.bindsAll, List.range_succ,
        Condition.placeholder, Condition.Binds, argAt]
  obtain ⟨condition, hcondition, hmeans⟩ :=
    Statement.filter_of_binds (K := K) codec h hbinds.1 hbinds.2
  refine ⟨condition, hcondition, fun r => (hmeans r).trans ?_⟩
  rw [selected_iff]
  by_cases hids : filter.deviceIDs = [] <;> by_cases hvehicle : filter.vehicleType = "" <;>
    simp [deviceQuery, hids, hvehicle, Condition.Means]

/-- The point is in the range of the filter, as the driver writes it. -/
def InRange (codec : TimestampCodec) (filter : ReportFilter δ) (p : Point δ K) : Prop :=
  codec.encode filter.start ≤ p.recordedAt ∧ p.recordedAt < codec.encode filter.stop

theorem filter_pointQuery (h : Accepted filter) (user : υ) (limit : ℕ) :
    ∃ condition : JoinedRow υ δ K → Bool,
      (pointQuery user filter limit).1.filter codec (pointQuery user filter limit).2 =
        some condition ∧
      ∀ r p, r.point = some p → (condition r = true ↔
        Selected user filter r ∧ InRange codec filter p) := by
  have hbinds : (pointQuery user filter limit).1.bindsAll (pointQuery user filter limit).2 = true ∧
      ∀ c ∈ (pointQuery user filter limit).1.conditions,
        c.Binds user filter (pointQuery user filter limit).2 := by
    by_cases hids : filter.deviceIDs = [] <;> by_cases hvehicle : filter.vehicleType = "" <;>
      by_cases hlimit : limit > 0 <;>
      simp [pointQuery, hids, hvehicle, hlimit, Statement.bindsAll, List.range_succ,
        Condition.placeholder, Condition.Binds, argAt]
  obtain ⟨condition, hcondition, hmeans⟩ :=
    Statement.filter_of_binds (K := K) codec h hbinds.1 hbinds.2
  refine ⟨condition, hcondition, fun r p hp => (hmeans r).trans ?_⟩
  rw [selected_iff, InRange]
  by_cases hids : filter.deviceIDs = [] <;> by_cases hvehicle : filter.vehicleType = "" <;>
    by_cases hlimit : limit > 0 <;>
    simp [pointQuery, hids, hvehicle, hlimit, Condition.Means, hp] <;> grind

omit [DecidableEq υ] [LinearOrder δ] in
theorem take_deviceQuery {ρ : Type} (filter : ReportFilter δ) (user : υ) (rows : List ρ) :
    (deviceQuery (υ := υ) filter).1.take (.user user :: (deviceQuery filter).2) rows =
      some rows := by
  by_cases hids : filter.deviceIDs = [] <;> by_cases hvehicle : filter.vehicleType = "" <;>
    simp [deviceQuery, hids, hvehicle, Statement.take]

omit [DecidableEq υ] [LinearOrder δ] in
/-- No limit is asked for by 0. -/
theorem take_pointQuery {ρ : Type} (filter : ReportFilter δ) (user : υ) (limit : ℕ)
    (rows : List ρ) :
    (pointQuery user filter limit).1.take (pointQuery user filter limit).2 rows =
      some (if limit > 0 then rows.take limit else rows) := by
  by_cases hids : filter.deviceIDs = [] <;> by_cases hvehicle : filter.vehicleType = "" <;>
    by_cases hlimit : limit > 0 <;>
    simp [pointQuery, hids, hvehicle, hlimit, Statement.take, argAt]

/-! ## What the adapter returns -/

namespace ReportDb
variable {db : ReportDb υ δ K} {nameLe : String → String → Bool}

omit [DecidableEq υ] in
theorem mem_joinAccess {point : Option (Point δ K)} {device : δ} {row : DeviceRow}
    {r : JoinedRow υ δ K} (hr : r ∈ db.joinAccess point device row) :
    r.device = device ∧ r.row = row ∧ r.point = point ∧
      ((r.user, device), r.grant) ∈ db.access.rows := by
  obtain ⟨a, ha, rfl⟩ := List.mem_map.mp hr
  obtain ⟨hmem, hdevice⟩ := List.mem_filter.mp ha
  obtain rfl := of_decide_eq_true hdevice
  exact ⟨rfl, rfl, rfl, hmem⟩

omit [DecidableEq υ] in
theorem joinAccess_of_mem {point : Option (Point δ K)} {device : δ} {row : DeviceRow} {user : υ}
    {grant : Grant} (h : ((user, device), grant) ∈ db.access.rows) :
    ⟨device, row, user, grant, point⟩ ∈ db.joinAccess point device row :=
  List.mem_map.mpr ⟨_, List.mem_filter.mpr ⟨h, decide_eq_true rfl⟩, rfl⟩

omit [DecidableEq υ] in
/-- A device and a user have one row in the join. -/
theorem pairwise_deviceRows (db : ReportDb υ δ K) :
    db.deviceRows.Pairwise fun a b => a.user = b.user → a.device ≠ b.device := by
  refine List.pairwise_flatMap.mpr ⟨fun d _ => ?_, ?_⟩
  · refine List.pairwise_map.mpr ((db.access.pairwise_rows.filter _).imp_of_mem ?_)
    intro a b ha hb hne huser
    have ha' := of_decide_eq_true (List.mem_filter.mp ha).2
    have hb' := of_decide_eq_true (List.mem_filter.mp hb).2
    exact absurd (Prod.ext huser (ha'.trans hb'.symm)) hne
  · refine db.devices.pairwise_rows.imp fun hne a ha b hb _ heq => hne ?_
    rw [← (mem_joinAccess ha).1, ← (mem_joinAccess hb).1, heq]

omit [DecidableEq υ] [LinearOrder δ] in
theorem userIs_mem_deviceQuery (filter : ReportFilter δ) :
    .userIs 1 ∈ (deviceQuery (υ := υ) filter).1.conditions := by
  by_cases hids : filter.deviceIDs = [] <;> by_cases hvehicle : filter.vehicleType = "" <;>
    simp [deviceQuery, hids, hvehicle]

variable {codec} in
theorem getDevices_eq {user : υ} {filter : ReportFilter δ} {devices : List δ}
    (h : db.getDevices codec nameLe user filter = some devices) :
    ∃ condition, (deviceQuery (υ := υ) filter).1.filter codec (.user user :: (deviceQuery filter).2) =
      some condition ∧ devices.Perm ((db.deviceRows.filter condition).map (·.device)) := by
  obtain ⟨condition, hcondition, h⟩ := Option.bind_eq_some_iff.mp h
  obtain rfl := Option.some.inj ((take_deviceQuery filter user _).symm.trans h)
  exact ⟨condition, hcondition, (List.mergeSort_perm _ _).map _⟩

variable {codec} in
theorem nodup_getDevices {user : υ} {filter : ReportFilter δ} {devices : List δ}
    (h : db.getDevices codec nameLe user filter = some devices) : devices.Nodup := by
  obtain ⟨condition, hcondition, hperm⟩ := getDevices_eq h
  obtain ⟨p, hp, hown⟩ := Statement.resolve_of_filter hcondition (userIs_mem_deviceQuery filter)
  cases hp
  refine hperm.nodup_iff.mpr (List.pairwise_map.mpr ?_)
  refine (db.pairwise_deviceRows.filter condition).imp_of_mem fun ha hb hne => hne ?_
  have ha := of_decide_eq_true (hown _ (List.mem_filter.mp ha).2)
  have hb := of_decide_eq_true (hown _ (List.mem_filter.mp hb).2)
  exact ha.trans hb.symm

/-- The device is there, the user has access to it and the filter is for it. -/
def Shows (db : ReportDb υ δ K) (user : υ) (filter : ReportFilter δ) (device : δ) : Prop :=
  ∃ row grant, db.devices.lookup device = some row ∧ db.access.lookup (user, device) = some grant ∧
    row.deletedAt = none ∧ grant.deletedAt = none ∧
    (filter.deviceIDs = [] ∨ device ∈ filter.deviceIDs) ∧
    (filter.vehicleType = "" ∨ VehicleType.ofLabel filter.vehicleType = some row.vehicleType)

theorem getDevices_spec {filter : ReportFilter δ} (h : Accepted filter)
    (db : ReportDb υ δ K) (nameLe : String → String → Bool) (user : υ) :
    ∃ devices, db.getDevices codec nameLe user filter = some devices ∧
      ∀ device, device ∈ devices ↔ db.Shows user filter device := by
  obtain ⟨condition, hcondition, hselected⟩ := filter_deviceQuery (K := K) codec h user
  have hget : db.getDevices codec nameLe user filter = some
      (((db.deviceRows.filter condition).mergeSort fun a b => nameLe a.row.name b.row.name).map
        (·.device)) := by
    rw [getDevices, hcondition]
    exact take_deviceQuery filter user _
  refine ⟨_, hget, fun device => ?_⟩
  simp only [List.mem_map, List.mem_mergeSort, List.mem_filter, hselected]
  constructor
  · rintro ⟨r, ⟨hr, hactive, hgranted, hown, hamong, hvehicle⟩, rfl⟩
    obtain ⟨d, hd, hr⟩ := List.mem_flatMap.mp hr
    obtain ⟨hdevice, hrow, -, haccess⟩ := mem_joinAccess hr
    subst hown
    rw [← hdevice] at haccess
    exact ⟨r.row, r.grant, by rw [hdevice, hrow]; exact Table.mem_rows.mp hd,
      Table.mem_rows.mp haccess, hactive, hgranted, hamong, hvehicle⟩
  · rintro ⟨row, grant, hdevice, haccess, hactive, hgranted, hamong, hvehicle⟩
    refine ⟨⟨device, row, user, grant, none⟩, ⟨?_, hactive, hgranted, rfl, hamong, hvehicle⟩, rfl⟩
    exact List.mem_flatMap.mpr ⟨(device, row), Table.mem_rows.mpr hdevice,
      joinAccess_of_mem (Table.mem_rows.mpr haccess)⟩

omit [DecidableEq υ] in
/-- A location, with the device and the access that the joins find for it. -/
theorem mem_pointRows {r : JoinedRow υ δ K} {p : Point δ K} (hp : r.point = some p) :
    r ∈ db.pointRows ↔ r.device = p.deviceID ∧
      (∃ row, db.locations.lookup (p.deviceID, p.recordedAt) = some row ∧
        pointOfRow (p.deviceID, p.recordedAt) row = p) ∧
      db.devices.lookup p.deviceID = some r.row ∧
      ((r.user, p.deviceID), r.grant) ∈ db.access.rows := by
  constructor
  · intro hr
    obtain ⟨l, hl, hr⟩ := List.mem_flatMap.mp hr
    obtain ⟨row, hrow, hr⟩ := List.mem_flatMap.mp hr
    obtain ⟨hdevice, rfl, hpoint, haccess⟩ := mem_joinAccess hr
    obtain rfl := Option.some.inj (hpoint.symm.trans hp)
    exact ⟨hdevice, ⟨l.2, Table.mem_rows.mp hl, rfl⟩, Option.mem_toList.mp hrow, haccess⟩
  · obtain ⟨device, row, user, grant, point⟩ := r
    rintro ⟨rfl, ⟨location, hlocation, hpoint⟩, hdevice, haccess⟩
    obtain rfl : point = some p := hp
    refine List.mem_flatMap.mpr ⟨((p.deviceID, p.recordedAt), location),
      Table.mem_rows.mpr hlocation, List.mem_flatMap.mpr ⟨row, Option.mem_toList.mpr hdevice, ?_⟩⟩
    rw [hpoint]
    exact joinAccess_of_mem haccess

/-- The point is stored. -/
def Stored (db : ReportDb υ δ K) (p : Point δ K) : Prop :=
  ∃ row, db.locations.lookup (p.deviceID, p.recordedAt) = some row ∧
    pointOfRow (p.deviceID, p.recordedAt) row = p

theorem getPoints_spec {filter : ReportFilter δ} (h : Accepted filter)
    (db : ReportDb υ δ K) (user : υ) :
    ∃ points, db.getPoints codec user filter 0 = some points ∧
      ∀ p, p ∈ points ↔
        db.Shows user filter p.deviceID ∧ InRange codec filter p ∧ db.Stored p := by
  obtain ⟨condition, hcondition, hselected⟩ := filter_pointQuery (K := K) codec h user 0
  have hget : db.getPoints codec user filter 0 = some
      (((db.pointRows.filter condition).filterMap (·.point)).mergeSort fun a b =>
        toLex (a.deviceID, a.recordedAt) ≤ toLex (b.deviceID, b.recordedAt)) := by
    rw [getPoints, hcondition]
    exact take_pointQuery filter user 0 _
  refine ⟨_, hget, fun p => ?_⟩
  simp only [List.mem_mergeSort, List.mem_filterMap, List.mem_filter]
  constructor
  · rintro ⟨r, ⟨hr, hcond⟩, hp⟩
    obtain ⟨⟨hactive, hgranted, hown, hamong, hvehicle⟩, hrange⟩ := (hselected r p hp).mp hcond
    obtain ⟨hdevice, hstored, hrow, haccess⟩ := (mem_pointRows hp).mp hr
    rw [hdevice] at hamong
    rw [hown] at haccess
    exact ⟨⟨r.row, r.grant, hrow, Table.mem_rows.mp haccess, hactive, hgranted, hamong, hvehicle⟩,
      hrange, hstored⟩
  · rintro ⟨⟨row, grant, hrow, haccess, hactive, hgranted, hamong, hvehicle⟩, hrange, hstored⟩
    refine ⟨⟨p.deviceID, row, user, grant, some p⟩, ⟨(mem_pointRows rfl).mpr ?_,
      (hselected _ p rfl).mpr ⟨⟨hactive, hgranted, rfl, hamong, hvehicle⟩, hrange⟩⟩, rfl⟩
    exact ⟨rfl, hstored, hrow, Table.mem_rows.mpr haccess⟩

/-- The data of a report, or `none` when a statement fails. -/
def getDataset (db : ReportDb υ δ K) (nameLe : String → String → Bool) (user : υ)
    (filter : ReportFilter δ) (limit : ℕ) : Option (Dataset δ K) :=
  match h : db.getDevices codec nameLe user filter with
  | none => none
  | some devices =>
    (db.getPoints codec user filter limit).map fun points =>
      ⟨devices, points, nodup_getDevices h⟩

theorem getDataset_spec {filter : ReportFilter δ} (h : Accepted filter)
    (db : ReportDb υ δ K) (nameLe : String → String → Bool) (user : υ) :
    ∃ data, db.getDataset codec nameLe user filter 0 = some data ∧
      (∀ device, device ∈ data.devices ↔ db.Shows user filter device) ∧
      ∀ p, p ∈ data.points ↔
        db.Shows user filter p.deviceID ∧ InRange codec filter p ∧ db.Stored p := by
  obtain ⟨devices, hdevices, hshows⟩ := getDevices_spec codec h db nameLe user
  obtain ⟨points, hpoints, hmem⟩ := getPoints_spec codec h db user
  refine ⟨⟨devices, points, nodup_getDevices hdevices⟩, ?_, hshows, hmem⟩
  unfold getDataset
  split
  · next hnone =>
    rw [hdevices] at hnone
    cases hnone
  · next found hfound =>
    obtain rfl := Option.some.inj (hdevices.symm.trans hfound)
    rw [hpoints]
    rfl

end ReportDb

end
end OpenGps.Backend.Reports
