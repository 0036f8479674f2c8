import Mathlib.Data.List.Sort
import OpenGps.Backend.Locations
import OpenGps.Lib.Rfc3339Format

/-!
# The live location of a device in the browser

`reduceLiveLocation` (`lib/live-location.ts`) and the state that it folds. A value has passed
`isLiveSnapshot` when it is a `LiveLocationSnapshot` here.

The texts of instants are compared with `<` where the newest location is chosen and with
`localeCompare` where the route is sorted; the second is that of the browser, so it is a parameter.
-/

namespace OpenGps.Frontend

open OpenGps.Lib OpenGps.Backend

structure LocationPoint (δ : Type) extends Telemetry where
  deviceID : δ
  recordedAt : String
  deriving DecidableEq

/-- `DevicePresence` of the client. -/
structure Presence where
  state : PresenceState
  lastContactAt : Option String
  expiresAt : Option String
  deriving DecidableEq

structure LiveLocationSnapshot (δ : Type) where
  deviceID : δ
  location : Option (LocationPoint δ)
  presence : Presence
  serverTime : String
  deriving DecidableEq

structure LiveLocationState (δ : Type) where
  snapshot : Option (LiveLocationSnapshot δ)
  route : List (LocationPoint δ)
  deriving DecidableEq

variable {δ : Type}

/-- An instant in JSON. -/
def timeText (t : Time) : String := String.ofList (Rfc3339.format t)

/-- `LocationFromDomain` (`internal/transport/http/dto/location.go`). -/
def locationFromDomain (location : Location δ) : LocationPoint δ :=
  { location.toTelemetry with
    deviceID := location.deviceID
    recordedAt := timeText location.recordedAt }

def EMPTY_LIVE_LOCATION_STATE : LiveLocationState δ := ⟨none, []⟩

def LIVE_ROUTE_MAX_POINTS : Nat := 1000

/-- `route.slice(-maxPoints)`; `-0` is `0`. -/
def sliceLast {α : Type} (maxPoints : Nat) (route : List α) : List α :=
  if maxPoints = 0 then route else route.drop (route.length - maxPoints)

/-- The location to keep: the next one unless its text is smaller than the current one's. -/
def newest (current next : Option (LocationPoint δ)) : Option (LocationPoint δ) :=
  match next, current with
  | none, current => current
  | some next, none => some next
  | some next, some current =>
    if next.recordedAt < current.recordedAt then some current else some next

variable (localeCompare : String → String → Ordering)

def extendRoute (route : List (LocationPoint δ)) :
    Option (LocationPoint δ) → List (LocationPoint δ)
  | none => route
  | some next =>
    if route.any (·.recordedAt = next.recordedAt) then route
    else
      (route ++ [next]).insertionSort fun a b => localeCompare a.recordedAt b.recordedAt ≠ .gt

def reduceLiveLocation [DecidableEq δ] (current : LiveLocationState δ)
    (next : LiveLocationSnapshot δ) (maxPoints : Nat) : LiveLocationState δ :=
  if current.snapshot.any (·.deviceID ≠ next.deviceID) then current
  else
    { snapshot := some { next with
        location := newest (current.snapshot.bind (·.location)) next.location }
      route := sliceLast maxPoints (extendRoute localeCompare current.route next.location) }

/-! ## Snapshots of one device -/

/-- A snapshot that the backend sends for the device. -/
structure LiveLocationSnapshot.Of (s : LiveLocationSnapshot δ) (device : δ) : Prop where
  deviceID : s.deviceID = device
  point : ∀ p ∈ s.location, p.deviceID = device

/-- The view is empty or belongs to the device. -/
structure LiveLocationState.Of (s : LiveLocationState δ) (device : δ) : Prop where
  current : ∀ snapshot ∈ s.snapshot, snapshot.Of device
  points : ∀ p ∈ s.route, p.deviceID = device

theorem LiveLocationState.of_empty (device : δ) :
    (EMPTY_LIVE_LOCATION_STATE : LiveLocationState δ).Of device where
  current := fun s hs => by cases hs
  points := fun p hp => by cases hp

theorem mem_sliceLast {α : Type} {maxPoints : Nat} {route : List α} {p : α}
    (h : p ∈ sliceLast maxPoints route) : p ∈ route := by
  unfold sliceLast at h
  split at h
  · exact h
  · exact List.mem_of_mem_drop h

theorem newest_none (next : Option (LocationPoint δ)) : newest none next = next := by
  cases next with
  | none => rfl
  | some _ => rfl

theorem mem_newest {current next : Option (LocationPoint δ)} {p : LocationPoint δ}
    (h : p ∈ newest current next) : p ∈ current ∨ p ∈ next := by
  unfold newest at h
  split at h
  · exact .inl h
  · exact .inr h
  · split at h
    · exact .inl h
    · exact .inr h

theorem mem_extendRoute {route : List (LocationPoint δ)} {next : Option (LocationPoint δ)}
    {p : LocationPoint δ} (h : p ∈ extendRoute localeCompare route next) : p ∈ route ∨ p ∈ next := by
  unfold extendRoute at h
  split at h
  · exact .inl h
  · next q =>
    split at h
    · exact .inl h
    · rw [List.mem_insertionSort, List.mem_append, List.mem_singleton] at h
      rcases h with hold | rfl
      · exact .inl hold
      · exact .inr rfl

variable [DecidableEq δ] (maxPoints : Nat) {current : LiveLocationState δ}
  {next : LiveLocationSnapshot δ}

/-- A snapshot of another device is ignored. -/
theorem reduceLiveLocation_of_ne {snapshot : LiveLocationSnapshot δ}
    (hsnapshot : current.snapshot = some snapshot) (hne : snapshot.deviceID ≠ next.deviceID) :
    reduceLiveLocation localeCompare current next maxPoints = current := by
  refine if_pos ?_
  rw [hsnapshot]
  exact decide_eq_true hne

theorem reduceLiveLocation_of_forall
    (h : ∀ snapshot ∈ current.snapshot, snapshot.deviceID = next.deviceID) :
    reduceLiveLocation localeCompare current next maxPoints =
      { snapshot := some { next with
          location := newest (current.snapshot.bind (·.location)) next.location }
        route := sliceLast maxPoints (extendRoute localeCompare current.route next.location) } := by
  refine if_neg ?_
  cases hs : current.snapshot with
  | none => simp
  | some snapshot => simp [h snapshot hs]

/-- A snapshot of the device of the view is applied. -/
theorem LiveLocationState.Of.reduce {device : δ} (h : current.Of device) (hnext : next.Of device) :
    (reduceLiveLocation localeCompare current next maxPoints).Of device ∧
      ∃ location, (reduceLiveLocation localeCompare current next maxPoints).snapshot =
        some { next with location } := by
  have hsame : ∀ snapshot ∈ current.snapshot, snapshot.deviceID = next.deviceID :=
    fun snapshot hs => (h.current snapshot hs).deviceID.trans hnext.deviceID.symm
  rw [reduceLiveLocation_of_forall localeCompare maxPoints hsame]
  refine ⟨⟨?_, fun p hp => ?_⟩, _, rfl⟩
  · rintro snapshot ⟨⟩
    refine ⟨hnext.deviceID, fun p hp => ?_⟩
    rcases mem_newest hp with hold | hnew
    · obtain ⟨s, hs, hp⟩ := Option.bind_eq_some_iff.mp hold
      exact (h.current s hs).point p hp
    · exact hnext.point p hnew
  · rcases mem_extendRoute localeCompare (mem_sliceLast hp) with hold | hnew
    · exact h.points p hold
    · exact hnext.point p hnew

end OpenGps.Frontend
