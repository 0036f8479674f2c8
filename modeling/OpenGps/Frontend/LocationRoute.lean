import OpenGps.Backend.Reports
import OpenGps.Frontend.LiveLocation

/-!
# The segments of a route on the map

`splitLocationRoute` (`lib/location-utils.ts`) cuts a route at its long gaps, as the reports of the
backend do. The page reads the texts of the instants as a `Date`, in milliseconds, and compares
these; and it cuts a gap of exactly five minutes, which the backend does not.
-/

namespace OpenGps.Frontend

open OpenGps.Lib OpenGps.Backend

variable {δ : Type}

/-- The point of a report. -/
def reportPoint (location : Location δ) : Reports.Point δ Rat :=
  ⟨location.deviceID, location.recordedAt, location.latitude, location.longitude,
    location.altitude, location.speed⟩

/-- `new Date(text).getTime()`, which drops what is less than a millisecond. -/
structure DateParser where
  getTime : String → Int
  getTime_timeText : ∀ t, Rfc3339.InCalendar t → getTime (timeText t) = t / 1000

/-! ## Segments -/

def LIVE_ROUTE_GAP_THRESHOLD_MS : Int := 5 * 60 * 1000

section
variable (date : DateParser)

/-- One turn of the loop, for a point and the one before it. -/
def splitStep (gapThresholdMs : Int) (segments : List (List (LocationPoint δ)))
    (step : LocationPoint δ × LocationPoint δ) : List (List (LocationPoint δ)) :=
  let gap := date.getTime step.2.recordedAt - date.getTime step.1.recordedAt
  let segments := if gap ≥ gapThresholdMs then segments ++ [[]] else segments
  segments.dropLast ++ [segments.getLast?.getD [] ++ [step.2]]

def splitLocationRoute (points : List (LocationPoint δ)) (gapThresholdMs : Int) :
    List (List (LocationPoint δ)) :=
  match points.mergeSort fun a b => date.getTime a.recordedAt ≤ date.getTime b.recordedAt with
  | [] => []
  | first :: rest =>
    ((pairs (first :: rest)).foldl (splitStep date gapThresholdMs) [[first]]).filter
      fun segment => segment.length > 1

/-- The gap between two points is within a segment. -/
def isNear (gapThresholdMs : Int) (a b : LocationPoint δ) : Bool :=
  date.getTime b.recordedAt - date.getTime a.recordedAt < gapThresholdMs

theorem splitStep_splitBy (gapThresholdMs : Int) {points : List (LocationPoint δ)}
    (h : points ≠ []) (point : LocationPoint δ) :
    splitStep date gapThresholdMs (points.splitBy (isNear date gapThresholdMs))
        (points.getLast h, point) =
      (points ++ [point]).splitBy (isNear date gapThresholdMs) := by
  obtain ⟨init, current, hparts, -⟩ :=
    exists_splitBy_eq_concat (r := isNear date gapThresholdMs) h
  unfold splitStep
  dsimp only
  by_cases hgap : date.getTime point.recordedAt - date.getTime (points.getLast h).recordedAt ≥
      gapThresholdMs
  · have hfar : isNear date gapThresholdMs (points.getLast h) point = false :=
      decide_eq_false (not_lt.mpr hgap)
    rw [if_pos hgap, List.dropLast_concat, List.getLast?_concat, splitBy_concat_of_not h hfar]
    rfl
  · have hnear : isNear date gapThresholdMs (points.getLast h) point = true :=
      decide_eq_true (not_le.mp hgap)
    rw [if_neg hgap, hparts, List.dropLast_concat, List.getLast?_concat,
      splitBy_concat_of h hnear hparts]
    rfl

theorem foldl_splitStep (gapThresholdMs : Int) (rest : List (LocationPoint δ)) :
    ∀ {points : List (LocationPoint δ)} (h : points ≠ []),
      (pairs (points.getLast h :: rest)).foldl (splitStep date gapThresholdMs)
          (points.splitBy (isNear date gapThresholdMs)) =
        (points ++ rest).splitBy (isNear date gapThresholdMs) := by
  induction rest with
  | nil =>
    intro points h
    rw [pairs_singleton, List.foldl_nil, List.append_nil]
  | cons point rest ih =>
    intro points h
    have hstep := splitStep_splitBy date gapThresholdMs h point
    have ih := ih (List.append_ne_nil_of_right_ne_nil points (List.cons_ne_nil point []))
    rw [List.getLast_concat, List.append_assoc] at ih
    rw [pairs_cons_cons, List.foldl_cons, hstep, ih]
    rfl

theorem splitLocationRoute_eq {points : List (LocationPoint δ)} (gapThresholdMs : Int)
    (h : points.Pairwise fun a b => date.getTime a.recordedAt ≤ date.getTime b.recordedAt) :
    splitLocationRoute date points gapThresholdMs =
      (points.splitBy (isNear date gapThresholdMs)).filter fun segment => 2 ≤ segment.length := by
  have hsort : (points.mergeSort fun a b =>
      date.getTime a.recordedAt ≤ date.getTime b.recordedAt) = points :=
    List.mergeSort_of_pairwise (h.imp fun hle => decide_eq_true hle)
  unfold splitLocationRoute
  rw [hsort]
  cases points with
  | nil => rfl
  | cons first rest =>
    have hfold := foldl_splitStep date gapThresholdMs rest (List.cons_ne_nil first [])
    exact congrArg (List.filter _) hfold

/-! ## Against the reports -/

/-- The sessions of a report of two points or more are the segments of the page. -/
def SameSegments (track : List (Location δ)) : Prop :=
  ∃ segments : List (List (Location δ)),
    ((Reports.sessions (track.map reportPoint)).filter fun session =>
      Reports.minRoutePoints ≤ session.length) = segments.map (List.map reportPoint) ∧
    splitLocationRoute date (track.map locationFromDomain) LIVE_ROUTE_GAP_THRESHOLD_MS =
      segments.map (List.map locationFromDomain)

/-- Two neighbours are in one session of a report. -/
def withinSession (a b : Location δ) : Bool := b.recordedAt - a.recordedAt ≤ Reports.gapThreshold

/-- Two neighbours are in one segment of the page. -/
def withinSegment (a b : Location δ) : Bool :=
  b.recordedAt / 1000 - a.recordedAt / 1000 < LIVE_ROUTE_GAP_THRESHOLD_MS

theorem withinSession_of_withinSegment {a b : Location δ} (h : withinSegment a b = true) :
    withinSession a b = true := by
  have hmillis : ∀ s t : Int, t / 1000 - s / 1000 < 5 * 60 * 1000 → t - s ≤ 5 * 60 * 1000000 := by
    intro s t
    omega
  exact decide_eq_true (hmillis _ _ (of_decide_eq_true h))

theorem filter_map_length {α β : Type} (f : α → β) (parts : List (List α)) :
    ((parts.map (List.map f)).filter fun s => 2 ≤ s.length) =
      (parts.filter fun s => 2 ≤ s.length).map (List.map f) := by
  rw [List.filter_map]
  congr 2
  funext s
  simp

theorem sessions_map (track : List (Location δ)) :
    Reports.sessions (track.map reportPoint) =
      (track.splitBy withinSession).map (List.map reportPoint) := by
  rw [Reports.sessions_eq_splitBy, splitBy_map]
  rfl

theorem splitLocationRoute_map {track : List (Location δ)}
    (hcalendar : ∀ p ∈ track, Rfc3339.InCalendar p.recordedAt)
    (hsorted : track.Pairwise fun a b => a.recordedAt ≤ b.recordedAt) :
    splitLocationRoute date (track.map locationFromDomain) LIVE_ROUTE_GAP_THRESHOLD_MS =
      ((track.splitBy withinSegment).map (List.map locationFromDomain)).filter fun s =>
        2 ≤ s.length := by
  have htime : ∀ p ∈ track, date.getTime (locationFromDomain p).recordedAt = p.recordedAt / 1000 :=
    fun p hp => date.getTime_timeText _ (hcalendar p hp)
  have hordered : (track.map locationFromDomain).Pairwise fun a b =>
      date.getTime a.recordedAt ≤ date.getTime b.recordedAt := by
    refine List.pairwise_map.mpr (hsorted.imp_of_mem fun {a b} ha hb hle => ?_)
    rw [htime a ha, htime b hb]
    exact Int.ediv_le_ediv (by decide) hle
  rw [splitLocationRoute_eq date _ hordered, splitBy_map]
  congr 2
  refine splitBy_congr fun p hp => ?_
  have hmem := List.of_mem_zip hp
  rw [isNear, htime p.1 hmem.1, htime p.2 (List.mem_of_mem_tail hmem.2), withinSegment]

/-- A report and the page draw the same routes of a track if and only if no two neighbours are at
most five minutes apart and yet five minutes or more on the clock of the page. -/
theorem sameSegments_iff {track : List (Location δ)}
    (hcalendar : ∀ p ∈ track, Rfc3339.InCalendar p.recordedAt)
    (hsorted : track.Pairwise fun a b => a.recordedAt ≤ b.recordedAt) :
    SameSegments date track ↔
      ∀ p ∈ pairs track, p.2.recordedAt - p.1.recordedAt ≤ Reports.gapThreshold →
        p.2.recordedAt / 1000 - p.1.recordedAt / 1000 < LIVE_ROUTE_GAP_THRESHOLD_MS := by
  have himp : ∀ p ∈ pairs track, withinSegment p.1 p.2 = true → withinSession p.1 p.2 = true :=
    fun p _ => withinSession_of_withinSegment
  have hagrees : (∀ p ∈ pairs track, p.2.recordedAt - p.1.recordedAt ≤ Reports.gapThreshold →
      p.2.recordedAt / 1000 - p.1.recordedAt / 1000 < LIVE_ROUTE_GAP_THRESHOLD_MS) ↔
      ∀ p ∈ pairs track, withinSession p.1 p.2 = true → withinSegment p.1 p.2 = true := by
    simp only [withinSession, withinSegment, decide_eq_true_eq]
  unfold SameSegments
  rw [sessions_map, splitLocationRoute_map date hcalendar hsorted, hagrees]
  constructor
  · -- The same segments join as many neighbours.
    rintro ⟨segments, hreport, hpage⟩
    refine (splitBy_eq_iff_joints himp).mp ?_
    calc joints (track.splitBy withinSession)
        = joints (((track.splitBy withinSession).map (List.map reportPoint)).filter
            fun s => 2 ≤ s.length) := by rw [joints_filter, joints_map]
      _ = joints segments := by
          rw [← joints_map reportPoint segments]
          exact congrArg joints hreport
      _ = joints (((track.splitBy withinSegment).map (List.map locationFromDomain)).filter
            fun s => 2 ≤ s.length) := by rw [hpage, joints_map]
      _ = joints (track.splitBy withinSegment) := by rw [joints_filter, joints_map]
  · intro h
    have hsame : track.splitBy withinSession = track.splitBy withinSegment :=
      splitBy_congr fun p hp => Bool.eq_iff_iff.mpr ⟨h p hp, himp p hp⟩
    refine ⟨_, filter_map_length _ _, ?_⟩
    rw [hsame]
    exact filter_map_length _ _

end

/-! ## A gap of five minutes -/

/-- The date parser of an engine that reads the texts of the backend. -/
def parsedDate : DateParser where
  getTime text := ((Rfc3339.parse (Rfc3339.ascii text.toList)).getD 0) / 1000
  getTime_timeText t h := by
    rw [timeText, String.toList_ofList, Rfc3339.parse_format h]
    rfl

/-- A location at an instant, and nothing else of note. -/
def standingAt (t : Time) : Location ℕ :=
  { latitude := 10, longitude := 20, altitude := none, speed := none, accuracy := none
    batteryVoltage := none, signalStrength := none, sequenceID := 1, recordedAt := t, deviceID := 7 }

theorem segments_differ_at_threshold :
    [standingAt 0, standingAt Reports.gapThreshold].Pairwise
        (fun a b => a.recordedAt ≤ b.recordedAt) ∧
    ¬ SameSegments parsedDate [standingAt 0, standingAt Reports.gapThreshold] := by
  refine ⟨by decide, ?_⟩
  rintro ⟨segments, hreport, hpage⟩
  rw [splitLocationRoute_map parsedDate (by decide) (by decide)] at hpage
  -- The page has no segment of two points, and the report has one.
  obtain rfl : segments = [] := List.map_eq_nil_iff.mp (hpage.symm.trans (by decide))
  have hone : ((Reports.sessions ([standingAt 0, standingAt Reports.gapThreshold].map
      reportPoint)).filter fun s => Reports.minRoutePoints ≤ s.length).length = 1 := by decide
  rw [hreport] at hone
  cases hone

theorem sameSegments_within :
    SameSegments parsedDate [standingAt 0, standingAt 299999000, standingAt 700000000] :=
  (sameSegments_iff parsedDate (by decide) (by decide)).mpr (by decide)

end OpenGps.Frontend
