import Mathlib.Algebra.BigOperators.Group.List.Basic
import Mathlib.Algebra.Order.BigOperators.Group.List
import Mathlib.Algebra.Field.Rat
import Mathlib.Algebra.Order.Field.Basic
import Mathlib.Algebra.Order.Ring.Rat
import OpenGps.Backend.Locations
import OpenGps.Lib.Pairs
import OpenGps.Lib.Segments

/-!
# Reports

The overview and the route report (`internal/app/reports`). Both measure the track of a device: the
overview as a whole, the routes in sessions without a gap of more than five minutes.

The arithmetic is that of an ordered field, and the distance of two points on the map is a parameter
that is not negative. A device stands for its identifier.
-/

namespace OpenGps.Backend.Reports

open OpenGps.Lib

/-- Durations between points are in microseconds. -/
def gapThreshold : Time := 5 * 60 * 1000000

def maxReportRange : Nanos := 31 * 24 * 60 * 60 * 1000000000

def minRoutePoints : ℕ := 2

def maxRoutePoints : ℕ := 1000

structure Point (δ K : Type) where
  deviceID : δ
  recordedAt : Time
  latitude : K
  longitude : K
  altitude : Option K
  speed : Option K
  deriving DecidableEq

/-- The devices are rows of a table, so each is there once. -/
structure Dataset (δ K : Type) where
  devices : List δ
  points : List (Point δ K)
  nodup : devices.Nodup

structure Filter where
  start : Nanos
  stop : Nanos
  deriving DecidableEq

variable {δ K : Type}

/-! ## Tracks -/

section
variable [DecidableEq δ]

/-- What belongs to the points of one device, in the order of their times. -/
def groupBy {α : Type} (point : α → Point δ K) (points : List α) (device : δ) : List α :=
  (points.filter fun p => (point p).deviceID = device).mergeSort fun a b =>
    (point a).recordedAt ≤ (point b).recordedAt

def groupPoints (points : List (Point δ K)) (device : δ) : List (Point δ K) :=
  groupBy id points device

end

/-- One turn of the loop: the point starts a session, or goes on with the current one. -/
def sessionStep (result : List (List (Point δ K))) (point : Point δ K) : List (List (Point δ K)) :=
  match result.getLast? with
  | none => [[point]]
  | some current =>
    if current.getLast?.any fun last => point.recordedAt - last.recordedAt > gapThreshold then
      result ++ [[point]]
    else result.dropLast ++ [current ++ [point]]

def sessions : List (Point δ K) → List (List (Point δ K))
  | [] => []
  | point :: points => points.foldl sessionStep [[point]]

structure TrackMetrics (K : Type) where
  distance : K
  jumps : ℕ
  first : Option Time
  last : Option Time
  longest : Time

section
variable [Field K] [LinearOrder K]

/-- A distance on the map, in meters. -/
structure DistanceFunction (δ K : Type) [Field K] [LinearOrder K] where
  meters : Point δ K → Point δ K → K
  nonneg : ∀ a b, 0 ≤ meters a b

def maxJumpSpeedKPH : K := 200

def seconds (gap : Time) : K := gap / 1000000

variable (dist : DistanceFunction δ K)

/-- `none` when a coordinate is off the map. -/
def haversine (a b : Point δ K) : Option K :=
  if |a.latitude| > 90 ∨ |b.latitude| > 90 ∨ |a.longitude| > 180 ∨ |b.longitude| > 180 then none
  else some (dist.meters a b)

/-- The segment is too fast to be driven. -/
def isJump (a b : Point δ K) (meters : K) : Prop :=
  b.recordedAt - a.recordedAt > 0 ∧
    meters / seconds (b.recordedAt - a.recordedAt) * (36 / 10) > maxJumpSpeedKPH

instance (a b : Point δ K) (meters : K) : Decidable (isJump a b meters) :=
  inferInstanceAs (Decidable (_ ∧ _))

namespace TrackMetrics

/-- One turn of the loop of `trackMetrics`. -/
def addSegment (m : TrackMetrics K) (segment : Point δ K × Point δ K) : TrackMetrics K :=
  let gap := segment.2.recordedAt - segment.1.recordedAt
  let m := if gap > m.longest then { m with longest := gap } else m
  match haversine dist segment.1 segment.2 with
  | none => m
  | some meters =>
    -- A jump counts as a segment but adds no distance.
    if isJump segment.1 segment.2 meters then { m with jumps := m.jumps + 1 }
    else { m with distance := m.distance + meters }

end TrackMetrics

def trackMetrics (points : List (Point δ K)) : TrackMetrics K :=
  (pairs points).foldl (TrackMetrics.addSegment dist)
    ⟨0, 0, points.head?.map (·.recordedAt), points.getLast?.map (·.recordedAt), 0⟩

/-! ## The overview -/

structure DeviceSummary (δ K : Type) where
  device : δ
  pointCount : ℕ
  distanceMeters : K
  firstReport : Option Time
  latestReport : Option Time
  longestGapSeconds : K
  jumpCount : ℕ

structure BucketCount where
  startedAt : Nanos
  count : ℕ

structure OverviewReport (δ K : Type) where
  deviceCount : ℕ
  pointCount : ℕ
  mostActivePointCount : ℕ
  estimatedDistanceMeters : K
  mostActiveDevice : Option δ
  longestGap : Time
  bucket : Nanos
  series : List BucketCount
  devices : List (DeviceSummary δ K)

def bucketDuration (span : Nanos) : Nanos :=
  if span ≤ 6 * 60 * 60 * 1000000000 then 15 * 60 * 1000000000
  else if span ≤ 24 * 60 * 60 * 1000000000 then 60 * 60 * 1000000000
  else if span ≤ 7 * 24 * 60 * 60 * 1000000000 then 6 * 60 * 60 * 1000000000
  else 24 * 60 * 60 * 1000000000

def pointSeries (points : List (Point δ K)) (start stop bucket : Nanos) : List BucketCount :=
  let starts := points.filterMap fun p =>
    let offset := Nanos.ofTime p.recordedAt - start
    if offset < 0 ∨ Nanos.ofTime p.recordedAt > stop then none
    else some (start + offset / bucket * bucket)
  (starts.eraseDups.mergeSort fun a b => a ≤ b).map fun started => ⟨started, starts.count started⟩

omit [Field K] [LinearOrder K] in
/-- The data of a report: a range that is too long is refused before the repository is asked. -/
def dataset {α : Type} (filter : Filter) (repo : Except String α) : Except String α :=
  if filter.stop - filter.start > maxReportRange then throw "report range cannot exceed 31 days"
  else repo

variable [DecidableEq δ]

def deviceSummary (points : List (Point δ K)) (device : δ) : DeviceSummary δ K :=
  let m := trackMetrics dist points
  ⟨device, points.length, m.distance, m.first, m.last, seconds m.longest, m.jumps⟩

namespace OverviewReport

/-- One turn of the loop over the devices. -/
def addDevice (points : List (Point δ K)) (report : OverviewReport δ K) (device : δ) :
    OverviewReport δ K :=
  let track := groupPoints points device
  let m := trackMetrics dist track
  let report :=
    { report with
      devices := report.devices ++ [deviceSummary dist track device]
      deviceCount := report.deviceCount + if track.length > 0 then 1 else 0
      pointCount := report.pointCount + track.length
      estimatedDistanceMeters := report.estimatedDistanceMeters + m.distance
      longestGap := if m.longest > report.longestGap then m.longest else report.longestGap }
  -- Of two devices that are equally active the first is kept.
  if track.length > report.mostActivePointCount then
    { report with mostActivePointCount := track.length, mostActiveDevice := some device }
  else report

end OverviewReport

def overview (filter : Filter) (repo : Except String (Dataset δ K)) :
    Except String (OverviewReport δ K) :=
  match dataset filter repo with
  | .error message => throw ("get report dataset: " ++ message)
  | .ok data =>
    let bucket := bucketDuration (filter.stop - filter.start)
    let report := data.devices.foldl (OverviewReport.addDevice dist data.points)
      ⟨0, 0, 0, 0, none, 0, bucket, [], []⟩
    return { report with series := pointSeries data.points filter.start filter.stop bucket }

/-! ## The routes -/

structure RouteSummary (δ K : Type) where
  device : δ
  startedAt : Time
  endedAt : Time
  durationSeconds : K
  distanceMeters : K
  averageSpeedMPS : K
  maximumSpeedMPS : K
  completePointCount : ℕ
  jumpCount : ℕ
  points : List (Point δ K)

omit [Field K] [LinearOrder K] [DecidableEq δ] in
def samplePoints (points : List (Point δ K)) (max : ℕ) : List (Point δ K) :=
  if points.length ≤ max then points
  else (List.range max).filterMap fun i => points[i * (points.length - 1) / (max - 1)]?

/-- The session as a route, with the speeds of the points that have one. -/
def routeSummary (device : δ) (first last : Point δ K) (session : List (Point δ K)) :
    RouteSummary δ K :=
  let m := trackMetrics dist session
  let speeds := session.filterMap (·.speed)
  { device
    startedAt := first.recordedAt
    endedAt := last.recordedAt
    durationSeconds := seconds (last.recordedAt - first.recordedAt)
    distanceMeters := m.distance
    averageSpeedMPS := if speeds.length > 0 then speeds.foldl (· + ·) 0 / speeds.length else 0
    maximumSpeedMPS := speeds.foldl (fun most speed => if speed > most then speed else most) 0
    completePointCount := session.length
    jumpCount := m.jumps
    points := samplePoints session maxRoutePoints }

/-- A session of one point makes no route. -/
def routeOf (device : δ) (session : List (Point δ K)) : Option (RouteSummary δ K) :=
  if session.length < minRoutePoints then none
  else
    match session.head?, session.getLast? with
    | some first, some last => some (routeSummary dist device first last session)
    | _, _ => none

def routes (filter : Filter) (repo : Except String (Dataset δ K)) :
    Except String (List (RouteSummary δ K)) :=
  match dataset filter repo with
  | .error message => throw ("get route dataset: " ++ message)
  | .ok data => return data.devices.flatMap fun device =>
      (sessions (groupPoints data.points device)).filterMap (routeOf dist device)

end

/-! ## Sessions -/

/-- The gap between two points is within a session. -/
def isClose (a b : Point δ K) : Bool := b.recordedAt - a.recordedAt ≤ gapThreshold

theorem sessionStep_splitBy {points : List (Point δ K)} (h : points ≠ []) (point : Point δ K) :
    sessionStep (points.splitBy isClose) point = (points ++ [point]).splitBy isClose := by
  obtain ⟨init, current, hparts, hlast⟩ := exists_splitBy_eq_concat (r := isClose) h
  rw [sessionStep, hparts, List.getLast?_concat]
  dsimp only
  rw [hlast, Option.any_some]
  by_cases hgap : point.recordedAt - (points.getLast h).recordedAt > gapThreshold
  · have hfar : isClose (points.getLast h) point = false := decide_eq_false (not_le.mpr hgap)
    rw [decide_eq_true hgap, if_pos rfl, splitBy_concat_of_not h hfar, hparts]
  · have hclose : isClose (points.getLast h) point = true := decide_eq_true (not_lt.mp hgap)
    rw [decide_eq_false hgap, if_neg Bool.false_ne_true, List.dropLast_concat,
      splitBy_concat_of h hclose hparts]

theorem sessions_eq_splitBy (points : List (Point δ K)) :
    sessions points = points.splitBy isClose := by
  cases points with
  | nil => rfl
  | cons first points =>
    show points.foldl sessionStep ([first].splitBy isClose) = ([first] ++ points).splitBy isClose
    generalize hstart : [first] = start
    have hne : start ≠ [] := by
      rintro rfl
      cases hstart
    clear hstart
    induction points generalizing start with
    | nil => rw [List.foldl_nil, List.append_nil]
    | cons point points ih =>
      rw [List.foldl_cons, sessionStep_splitBy hne, ih _ (by simp), List.append_assoc]
      rfl

/-- Sessions: a track cut at its long gaps. -/
structure Partitions (points : List (Point δ K)) (parts : List (List (Point δ K))) : Prop where
  nonempty : ∀ part ∈ parts, part ≠ []
  whole : parts.flatten = points
  close : ∀ part ∈ parts, part.IsChain fun a b =>
    0 ≤ b.recordedAt - a.recordedAt ∧ b.recordedAt - a.recordedAt ≤ gapThreshold
  apart : parts.IsChain fun a b => ∃ ha hb,
    (b.head hb).recordedAt - (a.getLast ha).recordedAt > gapThreshold

theorem partitions_sessions {points : List (Point δ K)}
    (h : points.Pairwise fun a b => a.recordedAt ≤ b.recordedAt) :
    Partitions points (sessions points) := by
  rw [sessions_eq_splitBy]
  refine ⟨fun part hpart => List.ne_nil_of_mem_splitBy hpart, List.flatten_splitBy _ _, ?_, ?_⟩
  · intro part hpart
    have hsorted : part.IsChain fun a b => a.recordedAt ≤ b.recordedAt := by
      have hsub : part.Sublist points := by
        rw [← List.flatten_splitBy isClose points]
        exact List.sublist_flatten_of_mem hpart
      exact (h.sublist hsub).isChain
    have hclose := List.isChain_of_mem_splitBy hpart
    rw [List.isChain_iff_getElem] at hsorted hclose ⊢
    exact fun i hi => ⟨sub_nonneg.mpr (hsorted i hi), of_decide_eq_true (hclose i hi)⟩
  · exact (List.isChain_getLast_head_splitBy isClose points).imp fun a b ⟨ha, hb, hfar⟩ =>
      ⟨ha, hb, not_le.mp (of_decide_eq_false hfar)⟩

/-! ## Metrics -/

section
variable [Field K] [LinearOrder K] (dist : DistanceFunction δ K)

/-- What a segment adds to the distance. -/
def segmentDistance (segment : Point δ K × Point δ K) : K :=
  match haversine dist segment.1 segment.2 with
  | none => 0
  | some meters => if isJump segment.1 segment.2 meters then 0 else meters

/-- What a segment adds to the jumps. -/
def segmentJumps (segment : Point δ K × Point δ K) : ℕ :=
  match haversine dist segment.1 segment.2 with
  | none => 0
  | some meters => if isJump segment.1 segment.2 meters then 1 else 0

theorem segmentDistance_nonneg (segment : Point δ K × Point δ K) :
    0 ≤ segmentDistance dist segment := by
  unfold segmentDistance haversine
  split
  · exact le_rfl
  · next h =>
    split
    · exact le_rfl
    · split at h
      · cases h
      · cases h
        exact dist.nonneg _ _

theorem addSegment_eq (m : TrackMetrics K) (segment : Point δ K × Point δ K) :
    (m.addSegment dist segment).distance = m.distance + segmentDistance dist segment ∧
      (m.addSegment dist segment).jumps = m.jumps + segmentJumps dist segment := by
  unfold TrackMetrics.addSegment segmentDistance segmentJumps
  dsimp only
  cases haversine dist segment.1 segment.2 with
  | none =>
    dsimp only
    split <;> exact ⟨(add_zero _).symm, rfl⟩
  | some meters =>
    by_cases hjump : isJump segment.1 segment.2 meters
    · simp only [hjump, if_true]
      split <;> exact ⟨(add_zero _).symm, rfl⟩
    · simp only [hjump, if_false]
      split <;> exact ⟨rfl, rfl⟩

theorem foldl_addSegment (segments : List (Point δ K × Point δ K)) (m : TrackMetrics K) :
    (segments.foldl (TrackMetrics.addSegment dist) m).distance =
        m.distance + (segments.map (segmentDistance dist)).sum ∧
      (segments.foldl (TrackMetrics.addSegment dist) m).jumps =
        m.jumps + (segments.map (segmentJumps dist)).sum := by
  induction segments generalizing m with
  | nil => simp
  | cons segment segments ih =>
    obtain ⟨hdistance, hjumps⟩ := addSegment_eq dist m segment
    obtain ⟨ihDistance, ihJumps⟩ := ih (m.addSegment dist segment)
    rw [List.foldl_cons, ihDistance, ihJumps, hdistance, hjumps]
    simp [add_assoc]

theorem trackMetrics_eq (points : List (Point δ K)) :
    (trackMetrics dist points).distance = ((pairs points).map (segmentDistance dist)).sum ∧
      (trackMetrics dist points).jumps = ((pairs points).map (segmentJumps dist)).sum := by
  obtain ⟨hdistance, hjumps⟩ := foldl_addSegment dist (pairs points)
    ⟨0, 0, points.head?.map (·.recordedAt), points.getLast?.map (·.recordedAt), 0⟩
  rw [trackMetrics, hdistance, hjumps]
  exact ⟨zero_add _, Nat.zero_add _⟩

/-- The metrics of a track are those of its sessions and of the segments between them. -/
theorem trackMetrics_sessions (points : List (Point δ K)) :
    (trackMetrics dist points).distance =
        ((sessions points).map fun part => (trackMetrics dist part).distance).sum +
          ((seams (sessions points)).map (segmentDistance dist)).sum ∧
      (trackMetrics dist points).jumps =
        ((sessions points).map fun part => (trackMetrics dist part).jumps).sum +
          ((seams (sessions points)).map (segmentJumps dist)).sum := by
  have hnil : [] ∉ sessions points := by
    rw [sessions_eq_splitBy]
    exact List.nil_notMem_splitBy _ _
  have hperm := pairs_flatten hnil
  rw [sessions_eq_splitBy, List.flatten_splitBy, ← sessions_eq_splitBy] at hperm
  constructor
  · rw [(trackMetrics_eq dist points).1, (hperm.map _).sum_eq, List.map_append, List.sum_append,
      List.map_flatMap, List.flatMap_def, List.sum_flatten, List.map_map]
    simp only [Function.comp_def, (trackMetrics_eq dist _).1]
  · rw [(trackMetrics_eq dist points).2, (hperm.map _).sum_eq, List.map_append, List.sum_append,
      List.map_flatMap, List.flatMap_def, List.sum_flatten, List.map_map]
    simp only [Function.comp_def, (trackMetrics_eq dist _).2]

/-! ## Routes against the overview -/

variable [DecidableEq δ]

theorem foldl_addDevice (points : List (Point δ K)) (devices : List δ)
    (report : OverviewReport δ K) :
    (devices.foldl (OverviewReport.addDevice dist points) report).devices =
      report.devices ++ devices.map fun device =>
        deviceSummary dist (groupPoints points device) device := by
  induction devices generalizing report with
  | nil => simp
  | cons device devices ih =>
    have hstep : (report.addDevice dist points device).devices =
        report.devices ++ [deviceSummary dist (groupPoints points device) device] := by
      unfold OverviewReport.addDevice
      dsimp only
      split <;> rfl
    rw [List.foldl_cons, ih, hstep, List.map_cons, List.append_assoc]
    rfl

omit [DecidableEq δ] in
theorem device_of_routeOf {device : δ} {session : List (Point δ K)} {route : RouteSummary δ K}
    (h : routeOf dist device session = some route) :
    route.device = device ∧ route.distanceMeters = (trackMetrics dist session).distance ∧
      route.jumpCount = (trackMetrics dist session).jumps := by
  unfold routeOf at h
  split at h
  · cases h
  · split at h
    · cases h
      exact ⟨rfl, rfl, rfl⟩
    · cases h

/-- The routes of a device among those of all devices. -/
theorem filter_routes {devices : List δ} (hnodup : devices.Nodup) {device : δ}
    (hmem : device ∈ devices) (track : δ → List (List (Point δ K))) :
    ((devices.flatMap fun d => (track d).filterMap (routeOf dist d)).filter
        fun route => route.device = device) =
      (track device).filterMap (routeOf dist device) := by
  have hown : ∀ d, ((track d).filterMap (routeOf dist d)).filter
      (fun route => decide (route.device = device)) =
        if d = device then (track d).filterMap (routeOf dist d) else [] := by
    intro d
    split
    · next hd =>
      refine List.filter_eq_self.mpr fun route hroute => ?_
      obtain ⟨session, -, hsession⟩ := List.mem_filterMap.mp hroute
      exact decide_eq_true ((device_of_routeOf dist hsession).1.trans hd)
    · next hd =>
      refine List.filter_eq_nil_iff.mpr fun route hroute => ?_
      obtain ⟨session, -, hsession⟩ := List.mem_filterMap.mp hroute
      rw [(device_of_routeOf dist hsession).1]
      simpa using hd
  rw [List.filter_flatMap]
  simp only [hown]
  induction devices with
  | nil => cases hmem
  | cons d devices ih =>
    obtain ⟨hd, hnodup⟩ := List.nodup_cons.mp hnodup
    rw [List.flatMap_cons]
    obtain rfl | hmem := List.mem_cons.mp hmem
    · -- No other device of the list is this one.
      have hrest : devices.flatMap (fun d => if d = device then (track d).filterMap (routeOf dist d)
          else []) = [] := by
        refine List.flatMap_eq_nil_iff.mpr fun d' hd' => if_neg ?_
        rintro rfl
        exact hd hd'
      rw [if_pos rfl, hrest, List.append_nil]
    · rw [if_neg fun heq : d = device => hd (heq ▸ hmem), List.nil_append]
      exact ih hnodup hmem

omit [DecidableEq δ] in
/-- The routes of a track measure no more than the track. -/
theorem routes_le_track [IsStrictOrderedRing K] (device : δ) (points : List (Point δ K)) :
    (((sessions points).filterMap (routeOf dist device)).map (·.distanceMeters)).sum ≤
        (trackMetrics dist points).distance ∧
      (((sessions points).filterMap (routeOf dist device)).map (·.jumpCount)).sum ≤
        (trackMetrics dist points).jumps := by
  obtain ⟨hdistance, hjumps⟩ := trackMetrics_sessions dist points
  have hnonneg : ∀ part : List (Point δ K), 0 ≤ (trackMetrics dist part).distance := by
    intro part
    rw [(trackMetrics_eq dist part).1]
    exact List.sum_nonneg fun x hx => by
      obtain ⟨segment, -, rfl⟩ := List.mem_map.mp hx
      exact segmentDistance_nonneg dist segment
  have hseams : 0 ≤ ((seams (sessions points)).map (segmentDistance dist)).sum :=
    List.sum_nonneg fun x hx => by
      obtain ⟨segment, -, rfl⟩ := List.mem_map.mp hx
      exact segmentDistance_nonneg dist segment
  -- Session by session: a route has the metrics of its session, and no route adds nothing.
  have hparts : ∀ parts : List (List (Point δ K)),
      ((parts.filterMap (routeOf dist device)).map (·.distanceMeters)).sum ≤
          (parts.map fun part => (trackMetrics dist part).distance).sum ∧
        ((parts.filterMap (routeOf dist device)).map (·.jumpCount)).sum ≤
          (parts.map fun part => (trackMetrics dist part).jumps).sum := by
    intro parts
    induction parts with
    | nil => exact ⟨le_rfl, le_rfl⟩
    | cons part parts ih =>
      cases hroute : routeOf dist device part with
      | none =>
        rw [List.filterMap_cons_none hroute, List.map_cons, List.map_cons, List.sum_cons,
          List.sum_cons]
        exact ⟨ih.1.trans (le_add_of_nonneg_left (hnonneg part)), ih.2.trans (Nat.le_add_left _ _)⟩
      | some route =>
        obtain ⟨-, hmeters, hcount⟩ := device_of_routeOf dist hroute
        rw [List.filterMap_cons_some hroute]
        simp only [List.map_cons, List.sum_cons, hmeters, hcount]
        exact ⟨add_le_add_right ih.1 _, Nat.add_le_add_left ih.2 _⟩
  rw [hdistance, hjumps]
  exact ⟨(hparts _).1.trans (le_add_of_nonneg_right hseams), (hparts _).2.trans (Nat.le_add_right _ _)⟩

/-- Sessions partition a track, its metrics are those of the sessions and of the segments between
them, and the routes of a device measure no more than its line in the overview. -/
theorem sessions_partition [IsStrictOrderedRing K] :
    (∀ points : List (Point δ K), points.Pairwise (fun a b => a.recordedAt ≤ b.recordedAt) →
      Partitions points (sessions points) ∧
      (trackMetrics dist points).distance =
        ((sessions points).map fun part => (trackMetrics dist part).distance).sum +
          ((seams (sessions points)).map (segmentDistance dist)).sum ∧
      (trackMetrics dist points).jumps =
        ((sessions points).map fun part => (trackMetrics dist part).jumps).sum +
          ((seams (sessions points)).map (segmentJumps dist)).sum) ∧
    ∀ (filter : Filter) (repo : Except String (Dataset δ K)) (report : OverviewReport δ K)
      (shown : List (RouteSummary δ K)), overview dist filter repo = .ok report →
      routes dist filter repo = .ok shown → ∀ summary ∈ report.devices,
        ((shown.filter (·.device = summary.device)).map (·.distanceMeters)).sum ≤
          summary.distanceMeters ∧
        ((shown.filter (·.device = summary.device)).map (·.jumpCount)).sum ≤
          summary.jumpCount := by
  constructor
  · exact fun points hsorted => ⟨partitions_sessions hsorted, trackMetrics_sessions dist points⟩
  · intro filter repo report shown hreport hshown summary hsummary
    unfold overview at hreport
    unfold routes at hshown
    cases hdata : dataset filter repo with
    | error message =>
      rw [hdata] at hreport
      cases hreport
    | ok data =>
      rw [hdata] at hreport hshown
      cases hreport
      cases hshown
      rw [foldl_addDevice, List.nil_append] at hsummary
      obtain ⟨device, hdevice, rfl⟩ := List.mem_map.mp hsummary
      rw [show (deviceSummary dist (groupPoints data.points device) device).device = device from rfl,
        filter_routes dist data.nodup hdevice]
      exact routes_le_track dist device (groupPoints data.points device)

end

/-- The distance along the axes, for a test. -/
def gridDistance : DistanceFunction ℕ ℚ where
  meters a b := |a.latitude - b.latitude| + |a.longitude - b.longitude|
  nonneg _ _ := add_nonneg (abs_nonneg _) (abs_nonneg _)

/-- Two points within five minutes, and a third an hour later. -/
def threePoints : List (Point ℕ ℚ) :=
  [⟨7, 0, 10, 20, none, none⟩, ⟨7, 60000000, 11, 20, none, none⟩,
    ⟨7, 3660000000, 14, 20, none, none⟩]

def threeData : Dataset ℕ ℚ := ⟨[7], threePoints, by decide⟩

theorem sessions_partition_three :
    Partitions threePoints (sessions threePoints) ∧ (sessions threePoints).length = 2 ∧
    ∃ report shown, overview gridDistance ⟨0, 9⟩ (.ok threeData) = .ok report ∧
      routes gridDistance ⟨0, 9⟩ (.ok threeData) = .ok shown ∧
      ∀ summary ∈ report.devices,
        ((shown.filter (·.device = summary.device)).map (·.distanceMeters)).sum ≤
          summary.distanceMeters := by
  refine ⟨((sessions_partition gridDistance).1 threePoints (by decide +kernel)).1,
    by decide +kernel, _, _, rfl, rfl, ?_⟩
  exact fun summary hsummary =>
    ((sessions_partition gridDistance).2 ⟨0, 9⟩ (.ok threeData) _ _ rfl rfl summary hsummary).1

end OpenGps.Backend.Reports
