import OpenGps.Backend.Access

/-!
# Reading locations

The four session routes that read the locations of a device (`latest`, `live`, history and route),
with their guard, their parameters and their queries. Only `GetLive` looks at the row of the device.
The bounds of a window have nanoseconds, and the queries take what the driver writes of them.
-/

namespace OpenGps.Backend

open OpenGps.Lib

variable {υ δ : Type} [DecidableEq υ] [DecidableEq δ]

/-! ## Queries -/

namespace Database

/-- The rows of a device with `recorded_at >= from AND recorded_at < to`. -/
def locationsIn (db : Database δ) (device : δ) (start stop : Time) : List (Location δ) :=
  db.locations.rows.filterMap fun x =>
    if x.1.1 = device ∧ start ≤ x.1.2 ∧ x.1.2 < stop then
      some (locationFromRow device x.1.2 x.2)
    else none

/-- `GetLocationsForDevice`: newest first; a negative offset is an error. -/
def getHistory (codec : TimestampCodec) (db : Database δ) (device : δ) (start stop : Nanos)
    (limit offset : Int) : Option (List (Location δ) × Int) :=
  let offset := toInt32 offset
  let rows := db.locationsIn device (codec.encode start) (codec.encode stop)
  if offset < 0 then none
  else
    let newest := rows.mergeSort fun a b => b.recordedAt ≤ a.recordedAt
    some ((newest.drop offset.toNat).take (toInt32 limit).toNat, rows.length)

/-- The bucket that `NTILE(n)` gives to the row with this index out of `count`. -/
def ntile (n count i : Nat) : Nat :=
  let size := count / n
  let longer := count % n
  if i < longer * (size + 1) then i / (size + 1) else longer + (i - longer * (size + 1)) / size

/-- `GetRouteForDevice`: the first row of each bucket, and the last row. -/
def getRouteForDevice (db : Database δ) (device : δ) (start stop : Time) (n : Nat) :
    List (Location δ) :=
  let ranked := (db.locationsIn device start stop).mergeSort fun a b => a.recordedAt ≤ b.recordedAt
  let bucket := ntile n ranked.length
  ranked.zipIdx.filterMap fun x =>
    if x.2 = 0 ∨ bucket x.2 ≠ bucket (x.2 - 1) ∨ x.2 + 1 = ranked.length then some x.1 else none

/-- `GetRoute` of the adapter: the points, their number before the sampling, and whether they were
sampled. -/
def getRoute (codec : TimestampCodec) (db : Database δ) (device : δ) (start stop : Nanos)
    (maxPoints : Int) : List (Location δ) × Int × Bool :=
  let start := codec.encode start
  let stop := codec.encode stop
  let total : Int := (db.locationsIn device start stop).length
  match db.getRouteForDevice device start stop (toInt32 maxPoints).toNat with
  | [] => ([], 0, false)
  | row :: rows => (row :: rows, total, total > maxPoints)

end Database

/-! ## Parameters -/

/-- The query of a range: whether the three parameters are there, whether the zone is known, and the
instants that parse. -/
structure RangeQuery where
  isComplete : Bool
  zoneIsKnown : Bool
  start : Option Nanos
  stop : Option Nanos
  deriving DecidableEq

def parseLocationRange (q : RangeQuery) : Except String (Nanos × Nanos) :=
  if ¬ q.isComplete then throw "from, to, and time-zone are required"
  else if ¬ q.zoneIsKnown then throw "invalid time-zone"
  else
    match q.start, q.stop with
    | none, _ => throw "invalid from"
    | some _, none => throw "invalid to"
    | some start, some stop =>
      if ¬ start < stop then throw "from must be before to" else return (start, stop)

def defaultPage : Int := 1
def defaultPageSize : Int := 20
def maxPageSize : Int := 100

/-- The arguments are the parameters that are there and are numbers. -/
def parsePagination (page pageSize : Option Int) : Int × Int :=
  let page := page.getD defaultPage
  let pageSize := pageSize.getD defaultPageSize
  (if page < 1 then defaultPage else page,
    if pageSize < 1 ∨ pageSize > maxPageSize then defaultPageSize else pageSize)

def defaultRouteMaxPoints : Int := 1000
def maxRouteMaxPoints : Int := 1000

def parseRouteMaxPoints (maxPoints : Option Int) : Int :=
  match maxPoints with
  | none => defaultRouteMaxPoints
  | some value => if value < 2 ∨ value > maxRouteMaxPoints then defaultRouteMaxPoints else value

/-! ## Routes -/

inductive LocationRequest where
  | latest
  | live (now : Time)
  | history (range : RangeQuery) (page pageSize : Option Int)
  | route (range : RangeQuery) (maxPoints : Option Int)
  deriving DecidableEq

inductive LocationAnswer (δ : Type) where
  | latest (location : Location δ)
  | live (value : LiveLocation δ)
  | history (items : List (Location δ)) (page pageSize total totalPages : Int)
  | route (items : List (Location δ)) (totalPoints returned : Int) (sampled : Bool)
  deriving DecidableEq

def latestHandler (db : Database δ) (device : δ) : Except Refusal (LocationAnswer δ) :=
  match db.getLatest device with
  | none => throw ⟨404, "no location reported for this device yet"⟩
  | some location => return .latest location

def liveHandler (db : Database δ) (device : δ) (now : Time) : Except Refusal (LocationAnswer δ) :=
  match getLive db device now with
  | none => throw ⟨404, "device not found"⟩
  | some value => return .live value

section
variable (codec : TimestampCodec)

def historyHandler (db : Database δ) (device : δ) (range : RangeQuery) (page pageSize : Option Int) :
    Except Refusal (LocationAnswer δ) :=
  match parseLocationRange range with
  | .error message => throw ⟨400, message⟩
  | .ok (start, stop) =>
    let (page, pageSize) := parsePagination page pageSize
    match db.getHistory codec device start stop pageSize ((page - 1) * pageSize) with
    | none => throw ⟨500, "internal server error"⟩
    | some (items, total) =>
      let totalPages := total / pageSize + if total % pageSize > 0 then 1 else 0
      return .history items page pageSize total totalPages

def routeHandler (db : Database δ) (device : δ) (range : RangeQuery) (maxPoints : Option Int) :
    Except Refusal (LocationAnswer δ) :=
  match parseLocationRange range with
  | .error message => throw ⟨400, message⟩
  | .ok (start, stop) =>
    let (items, total, sampled) :=
      db.getRoute codec device start stop (parseRouteMaxPoints maxPoints)
    return .route items total items.length sampled

def readHandler (db : Database δ) (device : δ) :
    LocationRequest → Except Refusal (LocationAnswer δ)
  | .latest => latestHandler db device
  | .live now => liveHandler db device now
  | .history range page pageSize => historyHandler codec db device range page pageSize
  | .route range maxPoints => routeHandler codec db device range maxPoints

def readRoute (g : Grants υ δ) (db : Database δ) (session : Session υ) (id : Option δ)
    (request : LocationRequest) : Except Refusal (LocationAnswer δ) :=
  match deviceGuard .viewer g session id with
  | .error refusal => throw refusal
  | .ok _ =>
    match id with
    | none => throw ⟨400, "invalid device id"⟩
    | some device => readHandler codec db device request

end

/-! ## What an answer carries -/

/-- Locations of the device, or their number. -/
def LocationAnswer.Carries : LocationAnswer δ → Prop
  | .latest _ => True
  | .live value => value.location.isSome
  | .history items _ _ total _ => items ≠ [] ∨ total ≠ 0
  | .route items totalPoints _ _ => items ≠ [] ∨ totalPoints ≠ 0

/-- The device has a location recorded in the range. -/
def Database.Stores (db : Database δ) (device : δ) (start stop : Time) : Prop :=
  ∃ recordedAt row, db.locations.lookup (device, recordedAt) = some row ∧ start ≤ recordedAt ∧
    recordedAt < stop

/-- The parameters are accepted, and the query of the request, which does not look at the row of the
device, finds locations. -/
def LocationRequest.Selects (codec : TimestampCodec) (db : Database δ) (device : δ) :
    LocationRequest → Prop
  | .latest => ∃ recordedAt row, db.locations.lookup (device, recordedAt) = some row
  | .live _ => False
  | .history range page pageSize => ∃ start stop, parseLocationRange range = .ok (start, stop) ∧
      0 ≤ Database.toInt32 (((parsePagination page pageSize).1 - 1) *
        (parsePagination page pageSize).2) ∧
      db.Stores device (codec.encode start) (codec.encode stop)
  | .route range _ => ∃ start stop, parseLocationRange range = .ok (start, stop) ∧
      db.Stores device (codec.encode start) (codec.encode stop)

namespace Database

variable {db : Database δ} {device : δ} {start stop : Time}

theorem locationsIn_ne_nil : db.locationsIn device start stop ≠ [] ↔ db.Stores device start stop := by
  rw [Ne, List.eq_nil_iff_forall_not_mem, not_forall_not]
  simp only [locationsIn, List.mem_filterMap, Table.mem_rows]
  constructor
  · rintro ⟨loc, ⟨⟨d, t⟩, row⟩, hrow, hloc⟩
    dsimp only at hrow hloc
    split at hloc
    · next h =>
      obtain ⟨rfl, hstart, hstop⟩ := h
      exact ⟨t, row, hrow, hstart, hstop⟩
    · cases hloc
  · rintro ⟨t, row, hrow, hstart, hstop⟩
    exact ⟨_, ((device, t), row), hrow, if_pos ⟨rfl, hstart, hstop⟩⟩

theorem foldl_newer_eq_none {rows : List ((δ × Time) × Telemetry)} :
    ∀ {best : Option (Time × Telemetry)}, rows.foldl (newer device) best = none ↔
      best = none ∧ ∀ x ∈ rows, x.1.1 ≠ device := by
  induction rows with
  | nil => simp
  | cons x rows ih =>
    intro best
    rw [List.foldl_cons, ih, List.forall_mem_cons]
    cases best with
    | none =>
      by_cases hx : x.1.1 = device
      · simp [newer, hx]
      · simp [newer, hx]
    | some b =>
      unfold newer
      split <;> simp

theorem getLatest_isSome : (db.getLatest device).isSome ↔
    ∃ recordedAt row, db.locations.lookup (device, recordedAt) = some row := by
  rw [getLatest, Option.isSome_map, Option.isSome_iff_ne_none, Ne, foldl_newer_eq_none]
  simp only [true_and, Table.mem_rows]
  constructor
  · intro h
    by_contra hnone
    exact h fun x hx hd => hnone ⟨x.1.2, x.2, hd ▸ hx⟩
  · rintro ⟨t, row, hrow⟩ h
    exact h ((device, t), row) hrow rfl

/-- The first row is always sampled. -/
theorem getRouteForDevice_eq_nil {n : Nat} :
    db.getRouteForDevice device start stop n = [] ↔ db.locationsIn device start stop = [] := by
  constructor
  · intro h
    by_contra hne
    have hlen : 0 < ((db.locationsIn device start stop).mergeSort
        fun a b => a.recordedAt ≤ b.recordedAt).length := by
      rw [List.length_mergeSort]
      exact List.length_pos_iff.mpr hne
    have hmem : (((db.locationsIn device start stop).mergeSort
        fun a b => a.recordedAt ≤ b.recordedAt)[0], 0) ∈ ((db.locationsIn device start stop).mergeSort
        fun a b => a.recordedAt ≤ b.recordedAt).zipIdx := by
      rw [List.mem_zipIdx_iff_getElem?]
      exact List.getElem?_eq_getElem hlen
    rw [getRouteForDevice, List.filterMap_eq_nil_iff] at h
    have hsampled := h _ hmem
    rw [if_pos (.inl rfl)] at hsampled
    cases hsampled
  · intro h
    simp [getRouteForDevice, h]

end Database

variable {codec : TimestampCodec} {g : Grants υ δ} {db : Database δ} {session : Session υ}
  {device : δ}

/-- `GetLive` finds no deleted device. -/
theorem getLive_deleted {r : Device} (hr : db.devices.lookup device = some r)
    (hdeleted : r.deletedAt.isSome) (now : Time) : getLive db device now = none := by
  obtain ⟨last, deletedAt⟩ := r
  obtain ⟨t, rfl⟩ := Option.isSome_iff_exists.mp hdeleted
  rw [getLive, Database.getLive, hr]

/-- The offset is in range, and the page or its total tells of a location. -/
theorem getHistory_eq_some {start stop : Nanos} {limit offset : Int} {items : List (Location δ)}
    {total : Int} (h : db.getHistory codec device start stop limit offset = some (items, total)) :
    0 ≤ Database.toInt32 offset ∧ ((items ≠ [] ∨ total ≠ 0) ↔
      db.Stores device (codec.encode start) (codec.encode stop)) := by
  rw [Database.getHistory] at h
  split at h
  · cases h
  · next hoffset =>
    cases h
    refine ⟨Int.not_lt.mp hoffset, ?_⟩
    rw [← Database.locationsIn_ne_nil]
    constructor
    · rintro (hitems | htotal)
      · rintro hnil
        rw [hnil] at hitems
        simp at hitems
      · rintro hnil
        rw [hnil] at htotal
        exact htotal rfl
    · intro hne
      have hlen := List.length_pos_iff.mpr hne
      exact .inr (by omega)

theorem getRoute_tells {start stop : Nanos} {maxPoints : Int} :
    (db.getRoute codec device start stop maxPoints).1 ≠ [] ∨
        (db.getRoute codec device start stop maxPoints).2.1 ≠ 0 ↔
      db.Stores device (codec.encode start) (codec.encode stop) := by
  rw [← Database.locationsIn_ne_nil, Database.getRoute]
  split
  · next hnil =>
    rw [Database.getRouteForDevice_eq_nil] at hnil
    simp [hnil]
  · next row rows hrows =>
    have hne : db.locationsIn device (codec.encode start) (codec.encode stop) ≠ [] := by
      intro hnil
      rw [Database.getRouteForDevice_eq_nil.mpr hnil] at hrows
      cases hrows
    exact ⟨fun _ => hne, fun _ => .inl (List.cons_ne_nil _ _)⟩

/-- Behind the guard, the answers about a deleted device carry what their queries select. -/
theorem readHandler_carries_iff {r : Device} (hr : db.devices.lookup device = some r)
    (hdeleted : r.deletedAt.isSome) (request : LocationRequest) :
    (∃ a, readHandler codec db device request = .ok a ∧ a.Carries) ↔
      request.Selects codec db device := by
  cases request with
  | latest =>
    rw [LocationRequest.Selects, ← Database.getLatest_isSome, readHandler, latestHandler]
    cases db.getLatest device with
    | none =>
      constructor
      · rintro ⟨a, ha, -⟩
        cases ha
      · intro h
        cases h
    | some location => exact ⟨fun _ => rfl, fun _ => ⟨.latest location, rfl, trivial⟩⟩
  | live now =>
    -- Of the four reads only this one looks at the mark of the device.
    rw [readHandler, liveHandler, getLive_deleted hr hdeleted]
    constructor
    · rintro ⟨a, ha, -⟩
      cases ha
    · exact False.elim
  | history range page pageSize =>
    rw [readHandler, historyHandler, LocationRequest.Selects]
    cases hrange : parseLocationRange range with
    | error message =>
      constructor
      · rintro ⟨a, ha, -⟩
        cases ha
      · rintro ⟨start, stop, h, -⟩
        cases h
    | ok window =>
      obtain ⟨start, stop⟩ := window
      dsimp only
      cases hpage : db.getHistory codec device start stop (parsePagination page pageSize).2
          (((parsePagination page pageSize).1 - 1) * (parsePagination page pageSize).2) with
      | none =>
        constructor
        · rintro ⟨a, ha, -⟩
          cases ha
        · rintro ⟨_, _, h, hoffset, -⟩
          cases h
          rw [Database.getHistory, if_neg (Int.not_lt.mpr hoffset)] at hpage
          cases hpage
      | some found =>
        obtain ⟨hoffset, htells⟩ := getHistory_eq_some hpage
        constructor
        · rintro ⟨a, ha, hcarries⟩
          cases ha
          exact ⟨start, stop, rfl, hoffset, htells.mp hcarries⟩
        · rintro ⟨_, _, h, -, hstores⟩
          cases h
          exact ⟨_, rfl, htells.mpr hstores⟩
  | route range maxPoints =>
    rw [readHandler, routeHandler, LocationRequest.Selects]
    cases hrange : parseLocationRange range with
    | error message =>
      constructor
      · rintro ⟨a, ha, -⟩
        cases ha
      · rintro ⟨start, stop, h, -⟩
        cases h
    | ok window =>
      obtain ⟨start, stop⟩ := window
      constructor
      · rintro ⟨a, ha, hcarries⟩
        cases ha
        exact ⟨start, stop, rfl, getRoute_tells.mp hcarries⟩
      · rintro ⟨_, _, h, hstores⟩
        cases h
        exact ⟨_, rfl, getRoute_tells.mpr hstores⟩

/-- The answer about a deleted device carries no location data exactly when the guard refuses the
request, or it is for the live location, or its parameters or its query select nothing. -/
theorem deleted_device_hidden_iff {r : Device} (hr : db.devices.lookup device = some r)
    (hdeleted : r.deletedAt.isSome) (request : LocationRequest) :
    (∀ a, readRoute codec g db session (some device) request = .ok a → ¬ a.Carries) ↔
      ¬ ((∃ actor, deviceGuard .viewer g session (some device) = .ok actor) ∧
        request.Selects codec db device) := by
  rw [← readHandler_carries_iff hr hdeleted, readRoute]
  cases deviceGuard .viewer g session (some device) with
  | error refusal =>
    constructor
    · rintro - ⟨⟨actor, hactor⟩, -⟩
      cases hactor
    · rintro - a ha
      cases ha
  | ok actor =>
    constructor
    · rintro hnone ⟨-, a, ha, hcarries⟩
      exact hnone a ha hcarries
    · intro hnone a ha hcarries
      exact hnone ⟨⟨actor, rfl⟩, a, ha, hcarries⟩

/-- A deleted device with one location, which user 2 was granted. -/
def deletedDevice : Database Nat where
  devices := AList.singleton 7 ⟨some 5, some 9⟩
  locations := AList.singleton (7, 3) ⟨10, 20, none, none, none, none, none⟩
  locationIngestKeys := ∅

def viewerOfSeven : Grants Nat Nat := AList.singleton (2, 7) ⟨.viewer, none⟩

theorem deleted_device_live_hidden :
    ¬ ∃ a, readRoute microsecondCodec viewerOfSeven deletedDevice (.ok ⟨2, false⟩) (some 7)
      (.live 10) = .ok a ∧ a.Carries := by
  rintro ⟨a, hread, hcarries⟩
  have hdevice : deletedDevice.devices.lookup 7 = some ⟨some 5, some 9⟩ := by decide
  exact (deleted_device_hidden_iff hdevice rfl (.live 10)).mpr (fun h => h.2) a hread hcarries

/-- The latest location, the history and the route of a deleted device are still answered. -/
theorem deleted_device_read :
    (∃ a, readRoute microsecondCodec viewerOfSeven deletedDevice (.ok ⟨2, false⟩) (some 7) .latest =
      .ok a ∧ a.Carries) ∧
    (∃ a, readRoute microsecondCodec viewerOfSeven deletedDevice (.ok ⟨2, false⟩) (some 7)
      (.history ⟨true, true, some 0, some 5000⟩ none none) = .ok a ∧ a.Carries) ∧
    ∃ a, readRoute microsecondCodec viewerOfSeven deletedDevice (.ok ⟨2, false⟩) (some 7)
      (.route ⟨true, true, some 0, some 5000⟩ none) = .ok a ∧ a.Carries := by
  have hactor : deviceGuard .viewer viewerOfSeven (.ok ⟨2, false⟩) (some 7) = .ok ⟨2, false⟩ := by
    decide
  have hrow : deletedDevice.locations.lookup (7, 3) =
      some ⟨10, 20, none, none, none, none, none⟩ := by decide
  have hdevice : deletedDevice.devices.lookup 7 = some ⟨some 5, some 9⟩ := by decide
  have hroute : ∀ request : LocationRequest, request.Selects microsecondCodec deletedDevice 7 →
      ∃ a, readRoute microsecondCodec viewerOfSeven deletedDevice (.ok ⟨2, false⟩) (some 7) request =
        .ok a ∧ a.Carries := by
    intro request hselects
    rw [readRoute, hactor]
    exact (readHandler_carries_iff hdevice rfl request).mpr hselects
  exact ⟨hroute _ ⟨3, _, hrow⟩, hroute _ ⟨0, 5000, rfl, by decide, 3, _, hrow, by decide, by decide⟩,
    hroute _ ⟨0, 5000, rfl, 3, _, hrow, by decide, by decide⟩⟩

end OpenGps.Backend
