import Mathlib.Data.List.Forall2
import Mathlib.Data.List.Sort
import OpenGps.Backend.Reports
import OpenGps.Lib.Xml

/-!
# The export as GPX

`Export` (`internal/app/reports/service.go`) puts the points of all devices in the order of their
times, and `gpxContent` (`internal/transport/http/handlers/reports.go`) writes them as one segment of
a track, the time of a point before its altitude. The document is read back here as XML and then as
GPX 1.1, where the altitude comes first and a segment is one continuous span of a track.
-/

namespace OpenGps.Backend.Reports

open OpenGps.Lib

/-! ## Export -/

def maxExportPoints : ℕ := 100000

variable {δ K : Type}

/-- `sort.Slice` by the times; the order of equal times is not specified. -/
structure TimeSort (δ K : Type) where
  sort : List (Point δ K) → List (Point δ K)
  perm : ∀ points, (sort points).Perm points
  sorted : ∀ points, (sort points).Pairwise fun a b => a.recordedAt ≤ b.recordedAt

/-- The repository is asked for one point more than may be exported. -/
def exportPoints (sorter : TimeSort δ K) (filter : Filter)
    (repo : ℕ → Except String (Dataset δ K)) : Except String (List (Point δ K)) :=
  match dataset filter (repo (maxExportPoints + 1)) with
  | .error message => throw ("get report dataset: " ++ message)
  | .ok data =>
    if data.points.length > maxExportPoints then
      throw "report export exceeds the maximum point limit"
    else return sorter.sort data.points

/-- What `fmt` and `time` write for a number (`%g`) and an instant (`time.RFC3339`). -/
structure Printers (K : Type) where
  number : K → String
  time : Time → String
  number_plain : ∀ x, Xml.Plain (number x).toList ∧ number x ≠ ""
  time_plain : ∀ t, Xml.Plain (time t).toList ∧ time t ≠ ""

variable (print : Printers K)

def gpxPoint (p : Point δ K) : String :=
  "<trkpt lat=\"" ++ print.number p.latitude ++ "\" lon=\"" ++ print.number p.longitude ++
    "\"><time>" ++ print.time p.recordedAt ++ "</time>" ++
    (match p.altitude with
      | some altitude => "<ele>" ++ print.number altitude ++ "</ele>"
      | none => "") ++
    "</trkpt>"

def gpxContent (points : List (Point δ K)) : String :=
  points.foldl (fun b p => b ++ gpxPoint print p)
      ("<?xml version=\"1.0\" encoding=\"UTF-8\"?><gpx version=\"1.1\" creator=\"OpenGPS\" " ++
        "xmlns=\"http://www.topografix.com/GPX/1/1\"><trk><name>OpenGPS report</name><trkseg>") ++
    "</trkseg></trk></gpx>"

/-! ## The document as a tree -/

def trkpt (p : Point δ K) : Xml :=
  .node "trkpt" [("lat", print.number p.latitude), ("lon", print.number p.longitude)]
    (.leaf "time" [] (print.time p.recordedAt) ::
      (p.altitude.map fun altitude => .leaf "ele" [] (print.number altitude)).toList)

def gpx (points : List (Point δ K)) : Xml :=
  .node "gpx" [("version", "1.1"), ("creator", "OpenGPS"),
      ("xmlns", "http://www.topografix.com/GPX/1/1")]
    [.node "trk" [] [.leaf "name" [] "OpenGPS report", .node "trkseg" [] (points.map (trkpt print))]]

theorem chars_trkpt (p : Point δ K) : (trkpt print p).chars = (gpxPoint print p).toList := by
  unfold trkpt gpxPoint
  generalize p.altitude = altitude
  cases altitude with
  | none =>
    simp [Xml.chars, Xml.tokens, Xml.tokensAll, Xml.Token.piece,
      Xml.Piece.chars, Xml.attributeChars]
  | some altitude =>
    simp [Xml.chars, Xml.tokens, Xml.tokensAll, Xml.Token.piece,
      Xml.Piece.chars, Xml.attributeChars]

theorem toList_foldl (points : List (Point δ K)) (b : String) :
    (points.foldl (fun b p => b ++ gpxPoint print p) b).toList =
      b.toList ++ (points.map (trkpt print)).flatMap Xml.chars := by
  induction points generalizing b with
  | nil => simp
  | cons p points ih =>
    rw [List.foldl_cons, ih, String.toList_append, List.map_cons, List.flatMap_cons, chars_trkpt,
      List.append_assoc]

theorem toList_gpxContent (points : List (Point δ K)) :
    (gpxContent print points).toList =
      (Xml.Piece.tag ('?' :: ("xml version=\"1.0\" encoding=\"UTF-8\"".toList ++ ['?']))).chars ++
        (gpx print points).chars := by
  have hchildren : (Xml.tokensAll (points.map (trkpt print))).flatMap (fun t => t.piece.chars) =
      (points.map (trkpt print)).flatMap Xml.chars := by
    rw [Xml.tokensAll_eq, List.flatMap_assoc]
    rfl
  unfold gpxContent gpx
  rw [String.toList_append, toList_foldl, ← hchildren]
  generalize points.map (trkpt print) = children
  simp [Xml.chars, Xml.tokens, Xml.tokensAll, Xml.Token.piece, Xml.Piece.chars, Xml.attributeChars]

theorem isPlain_trkpt (p : Point δ K) : (trkpt print p).IsPlain := by
  have hlat : Xml.PlainName "lat" := by decide
  have hlon : Xml.PlainName "lon" := by decide
  refine Xml.isPlain_node ⟨by decide, ?_⟩ ?_
  · refine List.forall_mem_cons.mpr ⟨⟨hlat, (print.number_plain _).1⟩, ?_⟩
    exact List.forall_mem_singleton.mpr ⟨hlon, (print.number_plain _).1⟩
  · refine List.forall_mem_cons.mpr ⟨Xml.isPlain_leaf (by decide) (print.time_plain _), ?_⟩
    intro x hx
    obtain ⟨altitude, -, rfl⟩ := Option.map_eq_some_iff.mp (Option.mem_toList.mp hx)
    exact Xml.isPlain_leaf (by decide) (print.number_plain altitude)

theorem isPlain_gpx (points : List (Point δ K)) : (gpx print points).IsPlain := by
  refine Xml.isPlain_node (by decide) (List.forall_mem_singleton.mpr ?_)
  refine Xml.isPlain_node (by decide) (List.forall_mem_cons.mpr ⟨?_, ?_⟩)
  · exact Xml.isPlain_leaf (by decide) (by decide)
  · refine List.forall_mem_singleton.mpr (Xml.isPlain_node (by decide) fun x hx => ?_)
    obtain ⟨p, -, rfl⟩ := List.mem_map.mp hx
    exact isPlain_trkpt print p

/-- The document of the export is read as its tree. -/
theorem parse_gpxContent (points : List (Point δ K)) :
    Xml.parse (gpxContent print points).toList = some (gpx print points) := by
  have hdeclaration : ("xml version=\"1.0\" encoding=\"UTF-8\"".toList.all
      fun c => c ≠ '<' ∧ c ≠ '>') = true := by decide
  rw [toList_gpxContent]
  refine Xml.parse_chars (isPlain_gpx print points) fun c hc => ?_
  exact of_decide_eq_true (List.all_eq_true.mp hdeclaration c hc)

/-! ## Reading GPX -/

/-- A point of a track: its coordinates, and the elements within it. -/
structure Waypoint where
  lat : String
  lon : String
  elements : List (String × String)

def readElement : Xml → Option (String × String)
  | .leaf name [] text => some (name, text)
  | _ => none

def readWaypoint : Xml → Option Waypoint
  | .node name attrs children =>
    if name = "trkpt" then do
      let lat ← attrs.lookup "lat"
      let lon ← attrs.lookup "lon"
      let elements ← children.mapM readElement
      return ⟨lat, lon, elements⟩
    else none
  | .leaf _ _ _ => none

def readSegment : Xml → Option (List Waypoint)
  | .node name [] children => if name = "trkseg" then children.mapM readWaypoint else none
  | _ => none

/-- The segments come after the name of the track. -/
def readTrack : Xml → Option (List (List Waypoint))
  | .node name [] (.leaf label [] _ :: segments) =>
    if name = "trk" ∧ label = "name" then segments.mapM readSegment else none
  | _ => none

/-- The segments of the tracks. -/
def readGpx : Xml → Option (List (List Waypoint))
  | .node name attrs tracks =>
    if name = "gpx" ∧ attrs.lookup "version" = some "1.1" ∧ (attrs.lookup "creator").isSome ∧
        attrs.lookup "xmlns" = some "http://www.topografix.com/GPX/1/1" then
      (tracks.mapM readTrack).map List.flatten
    else none
  | .leaf _ _ _ => none

/-- `wptType` is a sequence: the altitude before the time. -/
def Waypoint.InSequence (w : Waypoint) : Prop := (w.elements.map (·.1)).Sublist ["ele", "time"]

instance (w : Waypoint) : Decidable w.InSequence := inferInstanceAs (Decidable (List.Sublist _ _))

/-- The point of the track is the point of the report. -/
structure Waypoint.Shows (w : Waypoint) (p : Point δ K) : Prop where
  lat : w.lat = print.number p.latitude
  lon : w.lon = print.number p.longitude
  time : w.elements.lookup "time" = some (print.time p.recordedAt)
  ele : w.elements.lookup "ele" = p.altitude.map print.number

/-- The text is a GPX document whose segments are tracks of one device each. -/
def ValidGpx (points : List (Point δ K)) (text : String) : Prop :=
  ∃ tree segments, Xml.parse text.toList = some tree ∧ readGpx tree = some segments ∧
    (∀ segment ∈ segments, ∀ w ∈ segment, w.InSequence) ∧
    ∃ parts : List (List (Point δ K)), parts.flatten.Perm points ∧
      List.Forall₂ (List.Forall₂ fun p w => w.Shows print p) parts segments ∧
      ∀ part ∈ parts, (∀ p ∈ part, ∀ q ∈ part, p.deviceID = q.deviceID) ∧
        part.Pairwise fun p q => p.recordedAt ≤ q.recordedAt

/-- A point as the export writes it. -/
def waypoint (p : Point δ K) : Waypoint :=
  ⟨print.number p.latitude, print.number p.longitude,
    ("time", print.time p.recordedAt) ::
      (p.altitude.map fun altitude => ("ele", print.number altitude)).toList⟩

theorem readWaypoint_trkpt (p : Point δ K) :
    readWaypoint (trkpt print p) = some (waypoint print p) := by
  unfold trkpt waypoint
  generalize p.altitude = altitude
  cases altitude <;> rfl

theorem readGpx_gpx (points : List (Point δ K)) :
    readGpx (gpx print points) = some [points.map (waypoint print)] := by
  have hpoints : (points.map (trkpt print)).mapM readWaypoint =
      some (points.map (waypoint print)) := by
    induction points with
    | nil => rfl
    | cons p points ih =>
      rw [List.map_cons, List.mapM_cons, readWaypoint_trkpt, ih]
      rfl
  have hsegment : readSegment (.node "trkseg" [] (points.map (trkpt print))) =
      some (points.map (waypoint print)) := by
    rw [readSegment, if_pos rfl, hpoints]
  have htrack : readTrack (.node "trk" [] [.leaf "name" [] "OpenGPS report",
      .node "trkseg" [] (points.map (trkpt print))]) = some [points.map (waypoint print)] := by
    rw [readTrack, if_pos ⟨rfl, rfl⟩, List.mapM_cons, hsegment]
    rfl
  rw [gpx, readGpx, if_pos ⟨rfl, rfl, rfl, rfl⟩, List.mapM_cons, htrack]
  rfl

theorem inSequence_waypoint {p : Point δ K} :
    (waypoint print p).InSequence ↔ p.altitude = none := by
  unfold waypoint Waypoint.InSequence
  generalize p.altitude = altitude
  cases altitude with
  | none =>
    have hsub : ["time"].Sublist ["ele", "time"] := by decide
    exact iff_of_true hsub rfl
  | some altitude =>
    have hsub : ¬ ["time", "ele"].Sublist ["ele", "time"] := by decide
    exact iff_of_false hsub nofun

theorem waypoint_shows (p : Point δ K) : (waypoint print p).Shows print p where
  lat := rfl
  lon := rfl
  time := by simp [waypoint]
  ele := by
    unfold waypoint
    cases p.altitude <;> rfl

/-! ## Validity -/

/-- The document is valid if and only if no point has an altitude and one device has them all. -/
theorem validGpx_iff {points : List (Point δ K)}
    (hsorted : points.Pairwise fun p q => p.recordedAt ≤ q.recordedAt) :
    ValidGpx print points (gpxContent print points) ↔
      (∀ p ∈ points, p.altitude = none) ∧
        ∀ p ∈ points, ∀ q ∈ points, p.deviceID = q.deviceID := by
  constructor
  · rintro ⟨tree, segments, htree, hsegments, hsequence, parts, hperm, hshows, hparts⟩
    obtain rfl := Option.some.inj ((parse_gpxContent print points).symm.trans htree)
    obtain rfl := Option.some.inj ((readGpx_gpx print points).symm.trans hsegments)
    constructor
    · intro p hp
      exact (inSequence_waypoint print).mp
        (hsequence _ List.mem_cons_self _ (List.mem_map_of_mem hp))
    · -- There is one segment, so one device has all points.
      obtain ⟨part, rfl⟩ := List.length_eq_one_iff.mp hshows.length_eq
      rw [List.flatten_singleton] at hperm
      obtain ⟨hdevice, -⟩ := hparts part List.mem_cons_self
      exact fun p hp q hq => hdevice p (hperm.mem_iff.mpr hp) q (hperm.mem_iff.mpr hq)
  · rintro ⟨haltitude, hdevice⟩
    refine ⟨_, _, parse_gpxContent print points, readGpx_gpx print points, ?_, [points], ?_, ?_, ?_⟩
    · refine List.forall_mem_singleton.mpr fun w hw => ?_
      obtain ⟨p, hp, rfl⟩ := List.mem_map.mp hw
      exact (inSequence_waypoint print).mpr (haltitude p hp)
    · rw [List.flatten_singleton]
    · refine .cons ?_ .nil
      rw [List.forall₂_map_right_iff]
      exact List.forall₂_same.mpr fun p _ => waypoint_shows print p
    · exact List.forall_mem_singleton.mpr ⟨hdevice, hsorted⟩

theorem exportPoints_eq_ok {sorter : TimeSort δ K} {filter : Filter}
    {repo : ℕ → Except String (Dataset δ K)} {points : List (Point δ K)}
    (h : exportPoints sorter filter repo = .ok points) :
    ∃ data, repo (maxExportPoints + 1) = .ok data ∧ data.points.length ≤ maxExportPoints ∧
      points = sorter.sort data.points := by
  unfold exportPoints at h
  split at h
  · cases h
  · next data hdata =>
    split at h
    · cases h
    · next hlength =>
      cases h
      unfold dataset at hdata
      split at hdata
      · cases hdata
      · exact ⟨data, hdata, not_lt.mp hlength, rfl⟩

/-- What is exported is valid GPX if and only if no point of the data has an altitude and one device
has them all. -/
theorem export_valid_iff (sorter : TimeSort δ K) (filter : Filter)
    (repo : ℕ → Except String (Dataset δ K)) {data : Dataset δ K} {points : List (Point δ K)}
    (hrepo : repo (maxExportPoints + 1) = .ok data)
    (h : exportPoints sorter filter repo = .ok points) :
    ValidGpx print points (gpxContent print points) ↔
      (∀ p ∈ data.points, p.altitude = none) ∧
        ∀ p ∈ data.points, ∀ q ∈ data.points, p.deviceID = q.deviceID := by
  obtain ⟨data', hdata, -, rfl⟩ := exportPoints_eq_ok h
  obtain rfl := Except.ok.inj (hrepo.symm.trans hdata)
  rw [validGpx_iff print (sorter.sorted data.points)]
  simp only [(sorter.perm data.points).mem_iff]

/-! ## Two devices -/

def stableTimeSort : TimeSort ℕ ℚ where
  sort points := points.mergeSort fun a b => a.recordedAt ≤ b.recordedAt
  perm points := List.mergeSort_perm points _
  sorted points := by
    have : IsTrans (Point ℕ ℚ) fun a b => a.recordedAt ≤ b.recordedAt :=
      ⟨fun _ _ _ hab hbc => hab.trans hbc⟩
    have : Std.Total fun a b : Point ℕ ℚ => a.recordedAt ≤ b.recordedAt :=
      ⟨fun a b => le_total a.recordedAt b.recordedAt⟩
    exact List.pairwise_mergeSort' _ _

/-- The texts of the numbers and instants below. -/
def shortPrinters : Printers ℚ where
  number x := if x = 10 then "10" else "20"
  time t := if t = 0 then "1970-01-01T00:00:00Z" else "1970-01-01T00:00:01Z"
  number_plain x := by split <;> decide
  time_plain t := by split <;> decide

def onePoint (device : ℕ) (recordedAt : Time) (altitude : Option ℚ) : Point ℕ ℚ :=
  ⟨device, recordedAt, 10, 20, altitude, none⟩

/-- Two points of one device. -/
def oneDevice : Dataset ℕ ℚ :=
  ⟨[7], [onePoint 7 0 none, onePoint 7 1000000 none], threeData.nodup⟩

/-- A point with an altitude, and two devices without one. -/
theorem export_invalid :
    (∃ points, exportPoints stableTimeSort ⟨0, 9000000⟩
        (fun _ => .ok ⟨[7], [onePoint 7 0 (some 20)], by decide⟩) = .ok points ∧
      ¬ ValidGpx shortPrinters points (gpxContent shortPrinters points)) ∧
    ∃ points, exportPoints stableTimeSort ⟨0, 9000000⟩
        (fun _ => .ok ⟨[7, 8], [onePoint 7 0 none, onePoint 8 1000000 none], by decide⟩) =
          .ok points ∧
      ¬ ValidGpx shortPrinters points (gpxContent shortPrinters points) := by
  refine ⟨⟨_, rfl, fun hvalid => ?_⟩, ⟨_, rfl, fun hvalid => ?_⟩⟩
  · have haltitude := ((validGpx_iff shortPrinters (stableTimeSort.sorted _)).mp hvalid).1
    exact nomatch haltitude (onePoint 7 0 (some 20)) (List.mem_mergeSort.mpr (by simp))
  · have hdevice := ((validGpx_iff shortPrinters (stableTimeSort.sorted _)).mp hvalid).2
    have heq := hdevice (onePoint 7 0 none) (List.mem_mergeSort.mpr (by simp))
      (onePoint 8 1000000 none) (List.mem_mergeSort.mpr (by simp))
    exact absurd heq (by decide)

theorem export_valid_one_device : ∃ points,
    exportPoints stableTimeSort ⟨0, 9000000⟩ (fun _ => .ok oneDevice) = .ok points ∧
      ValidGpx shortPrinters points (gpxContent shortPrinters points) :=
  ⟨_, rfl, (export_valid_iff shortPrinters stableTimeSort ⟨0, 9000000⟩ (fun _ => .ok oneDevice)
    rfl rfl).mpr (by decide)⟩

end OpenGps.Backend.Reports
