import Mathlib.Algebra.Order.BigOperators.Group.List
import OpenGps.Backend.Reports
import OpenGps.Lib.Rounding
import OpenGps.Lib.Segments

/-!
# The health report and the quality report

`Health` and `Quality` (`internal/app/reports/service.go`) go over the points of each device. Health
summarises the battery, the signal and the accuracy: its numbers are those of the values that were
reported, and a value that is absent is not a zero. Quality counts the intervals and the gaps of the
track and how often each optional value is present. With the overview and the routes they are four
views of one data set, and where two of them show the same number they agree.

Sums and quotients are those of floats: `round` is what the format makes of an exact result. The
least, the greatest and the latest value are values that were read, so no rounding touches them; an
average is off by two roundings, and three readings of 3.3 have an average below 3.3.
-/

namespace OpenGps.Backend.Reports

open OpenGps.Lib

variable {δ K V : Type}

/-- A point with the telemetry that tracks do not use. -/
structure TelemetryPoint (δ K : Type) extends Point δ K where
  accuracy : Option K
  batteryVoltage : Option K
  signalStrength : Option Int

structure TelemetryData (δ K : Type) where
  devices : List δ
  points : List (TelemetryPoint δ K)
  nodup : devices.Nodup

def TelemetryData.toDataset (data : TelemetryData δ K) : Dataset δ K :=
  ⟨data.devices, data.points.map (·.toPoint), data.nodup⟩

theorem dataset_eq_ok {filter : Filter} {repo : Except String (TelemetryData δ K)}
    {data : TelemetryData δ K} (h : dataset filter repo = .ok data) : repo = .ok data := by
  unfold dataset at h
  split at h
  · cases h
  · exact h

/-- `groupPoints` with the telemetry. -/
def groupTelemetry [DecidableEq δ] (points : List (TelemetryPoint δ K)) (device : δ) :
    List (TelemetryPoint δ K) :=
  groupBy (·.toPoint) points device

/-! ## Health -/

/-- `Stats`, where the values are floats, and `IntStats`. The sum is a float in both. -/
structure Stats (V K : Type) where
  latest : Option V
  minimum : Option V
  maximum : Option V
  average : Option K
  presentCount : ℕ
  sum : K

namespace Stats

variable [LinearOrder V] [Field K] (round : K → K) (float : V → K)

def empty : Stats V K := ⟨none, none, none, none, 0, 0⟩

/-- An absent value counts for nothing. -/
def add (stats : Stats V K) : Option V → Stats V K
  | none => stats
  | some value =>
    { stats with
      minimum := if stats.presentCount = 0 ∨ stats.minimum.any fun low => value < low then
        some value else stats.minimum
      maximum := if stats.presentCount = 0 ∨ stats.maximum.any fun high => value > high then
        some value else stats.maximum
      presentCount := stats.presentCount + 1
      sum := round (stats.sum + float value)
      latest := some value }

def finalize (stats : Stats V K) : Stats V K :=
  if stats.presentCount > 0 then
    { stats with average := some (round (stats.sum / stats.presentCount)) }
  else stats

end Stats

def later (current : Option Time) (value : Time) : Option Time :=
  if current = none ∨ current.any fun latest => value > latest then some value else current

structure DeviceHealth (δ K : Type) where
  device : δ
  latestReport : Option Time
  pointCount : ℕ
  battery : Stats K K
  gpsAccuracy : Stats K K
  signal : Stats Int K

section
variable [Field K] [LinearOrder K] (round : K → K)

def addFloat (stats : Stats K K) (value : Option K) : Stats K K := stats.add round id value

/-- The column has 32 bits, so the conversion to a float is exact. -/
def addInt (stats : Stats Int K) (value : Option Int) : Stats Int K :=
  stats.add round Int.cast value

def finalizeFloat (stats : Stats K K) : Stats K K := stats.finalize round

def finalizeInt (stats : Stats Int K) : Stats Int K := stats.finalize round

/-- One turn of the loop over the points of a device. -/
def DeviceHealth.addPoint (health : DeviceHealth δ K) (point : TelemetryPoint δ K) :
    DeviceHealth δ K :=
  { health with
    latestReport := later health.latestReport point.recordedAt
    battery := addFloat round health.battery point.batteryVoltage
    signal := addInt round health.signal point.signalStrength
    gpsAccuracy := addFloat round health.gpsAccuracy point.accuracy }

def deviceHealth (points : List (TelemetryPoint δ K)) (device : δ) : DeviceHealth δ K :=
  let health := points.foldl (DeviceHealth.addPoint round)
    ⟨device, none, points.length, .empty, .empty, .empty⟩
  { health with
    battery := finalizeFloat round health.battery
    signal := finalizeInt round health.signal
    gpsAccuracy := finalizeFloat round health.gpsAccuracy }

def health [DecidableEq δ] (filter : Filter) (repo : Except String (TelemetryData δ K)) :
    Except String (List (DeviceHealth δ K)) :=
  match dataset filter repo with
  | .error message => throw ("get report dataset: " ++ message)
  | .ok data => return data.devices.map fun device =>
      deviceHealth round (groupTelemetry data.points device) device

/-! ## Quality -/

def poorAccuracyMeters : K := 50

structure OptionalPresence where
  altitude : ℕ
  speed : ℕ
  accuracy : ℕ
  batteryVoltage : ℕ
  signalStrength : ℕ

structure DeviceQuality (δ K : Type) where
  device : δ
  pointCount : ℕ
  gapCount : ℕ
  poorAccuracyCount : ℕ
  jumpCount : ℕ
  intervalCount : ℕ
  averageIntervalSeconds : K
  longestGapSeconds : K
  optionalPresence : OptionalPresence
  firstReport : Option Time
  latestReport : Option Time

/-- What the loop over the neighbours of a track counts. -/
structure Intervals where
  total : Time
  count : ℕ
  gaps : ℕ

omit [Field K] [LinearOrder K] in
/-- Two points of one instant make no interval. -/
def Intervals.add (i : Intervals) (segment : Point δ K × Point δ K) : Intervals :=
  let gap := segment.2.recordedAt - segment.1.recordedAt
  if gap > 0 then
    { total := i.total + gap, count := i.count + 1,
      gaps := if gap > gapThreshold then i.gaps + 1 else i.gaps }
  else i

omit [Field K] [LinearOrder K] in
def intervals (points : List (Point δ K)) : Intervals :=
  (pairs points).foldl Intervals.add ⟨0, 0, 0⟩

omit [Field K] [LinearOrder K] in
def completeness (points : List (TelemetryPoint δ K)) : OptionalPresence where
  altitude := points.countP (·.altitude.isSome)
  speed := points.countP (·.speed.isSome)
  accuracy := points.countP (·.accuracy.isSome)
  batteryVoltage := points.countP (·.batteryVoltage.isSome)
  signalStrength := points.countP (·.signalStrength.isSome)

def poorAccuracy (points : List (TelemetryPoint δ K)) : ℕ :=
  points.countP fun p => p.accuracy.any fun accuracy => accuracy > poorAccuracyMeters

/-- `Seconds` of a duration: the whole seconds, and the rest as a fraction of one. -/
def floatSeconds (gap : Time) : K :=
  round ((gap / 1000000 : Time) + round (seconds (gap % 1000000)))

variable (dist : DistanceFunction δ K)

def deviceQuality (points : List (TelemetryPoint δ K)) (device : δ) : DeviceQuality δ K :=
  let track := points.map (·.toPoint)
  let m := trackMetrics dist track
  let i := intervals track
  { device
    pointCount := points.length
    gapCount := i.gaps
    poorAccuracyCount := poorAccuracy points
    jumpCount := m.jumps
    intervalCount := i.count
    averageIntervalSeconds :=
      if i.count > 0 then round (floatSeconds round i.total / i.count) else 0
    longestGapSeconds := floatSeconds round m.longest
    optionalPresence := completeness points
    firstReport := m.first
    latestReport := m.last }

def quality [DecidableEq δ] (filter : Filter) (repo : Except String (TelemetryData δ K)) :
    Except String (List (DeviceQuality δ K)) :=
  match dataset filter repo with
  | .error message => throw ("get report dataset: " ++ message)
  | .ok data => return data.devices.map fun device =>
      deviceQuality round dist (groupTelemetry data.points device) device

/-! ## Running statistics -/

namespace Stats

variable [LinearOrder V] (float : V → K)

/-- The statistics of some values: none of them is there without a value. The average is that of the
rounded sum, so it is off by two roundings and may leave the range of the values by as much. -/
structure Summarises (stats : Stats V K) (values : List V) : Prop where
  presentCount : stats.presentCount = values.length
  latest : stats.latest = values.getLast?
  minimum : stats.minimum = values.min?
  maximum : stats.maximum = values.max?
  average : stats.average = if values = [] then none else
    some (round (roundedSum round (values.map float) / values.length))
  near : ∀ bound error, RoundsWithin round bound error →
    (values.map fun v => |float v|).sum + values.length * error ≤ bound →
    ∀ low high average, stats.minimum = some low → stats.maximum = some high →
      stats.average = some average →
      |average - (values.map float).sum / values.length| ≤ 2 * error ∧
        float low - 2 * error ≤ average ∧ average ≤ float high + 2 * error

/-- The statistics while the loop runs. -/
structure Running (stats : Stats V K) (values : List V) : Prop where
  presentCount : stats.presentCount = values.length
  latest : stats.latest = values.getLast?
  minimum : stats.minimum = values.min?
  maximum : stats.maximum = values.max?
  average : stats.average = none
  sum : stats.sum = roundedSum round (values.map float)

variable {round float}

omit [LinearOrder K] in
theorem Running.add {stats : Stats V K} {values : List V} (h : Running round float stats values)
    (value : Option V) :
    Running round float (stats.add round float value) (values ++ value.toList) := by
  cases value with
  | none => simpa [Stats.add] using h
  | some value =>
    constructor
    case presentCount => simp [Stats.add, h.presentCount]
    case latest => simp [Stats.add]
    case average => simp [Stats.add, h.average]
    case sum => simp [Stats.add, h.sum]
    case minimum =>
      cases values with
      | nil => simp [Stats.add, h.presentCount]
      | cons first values =>
        simp only [Stats.add, h.presentCount, h.minimum, Option.toList_some, List.cons_append,
          List.min?_cons', List.foldl_append, List.foldl_cons, List.foldl_nil, Option.any_some]
        grind
    case maximum =>
      cases values with
      | nil => simp [Stats.add, h.presentCount]
      | cons first values =>
        simp only [Stats.add, h.presentCount, h.maximum, Option.toList_some, List.cons_append,
          List.max?_cons', List.foldl_append, List.foldl_cons, List.foldl_nil, Option.any_some]
        grind

variable [IsStrictOrderedRing K]

/-- The least and the greatest value enclose the average. -/
theorem average_between (hfloat : Monotone float) {values : List V} {low high : V}
    (hlow : values.min? = some low) (hhigh : values.max? = some high) :
    float low ≤ (values.map float).sum / values.length ∧
      (values.map float).sum / values.length ≤ float high := by
  obtain ⟨hmem, hleast⟩ := List.min?_eq_some_iff.mp hlow
  obtain ⟨-, hgreatest⟩ := List.max?_eq_some_iff.mp hhigh
  have hpositive : (0 : K) < values.length :=
    Nat.cast_pos.mpr (List.length_pos_iff.mpr (List.ne_nil_of_mem hmem))
  constructor
  · rw [le_div_iff₀ hpositive, mul_comm]
    have hsum := List.card_nsmul_le_sum (values.map float) (float low) (by
      intro x hx
      obtain ⟨v, hv, rfl⟩ := List.mem_map.mp hx
      exact hfloat (hleast v hv))
    simpa using hsum
  · rw [div_le_iff₀ hpositive, mul_comm]
    have hsum := List.sum_le_card_nsmul (values.map float) (float high) (by
      intro x hx
      obtain ⟨v, hv, rfl⟩ := List.mem_map.mp hx
      exact hfloat (hgreatest v hv))
    simpa using hsum

theorem Running.finalize (hfloat : Monotone float) {stats : Stats V K} {values : List V}
    (h : Running round float stats values) :
    Summarises round float (stats.finalize round) values := by
  have haverage : (stats.finalize round).average = if values = [] then none else
      some (round (roundedSum round (values.map float) / values.length)) := by
    cases values <;> simp [Stats.finalize, h.presentCount, h.average, h.sum]
  have hrest : stats.finalize round = { stats with average := (stats.finalize round).average } := by
    unfold Stats.finalize
    split <;> rfl
  constructor
  case presentCount => rw [hrest, h.presentCount]
  case latest => rw [hrest, h.latest]
  case minimum => rw [hrest, h.minimum]
  case maximum => rw [hrest, h.maximum]
  case average => exact haverage
  case near =>
    intro bound error hround hbound low high average hlow hhigh havg
    rw [hrest, h.minimum] at hlow
    rw [hrest, h.maximum] at hhigh
    rw [haverage] at havg
    split at havg
    · cases havg
    · next hne =>
      obtain rfl := Option.some.inj havg
      have hsome : values.map float ≠ [] := mt List.map_eq_nil_iff.mp hne
      have hnear := hround.average hsome (by simpa [Function.comp_def] using hbound)
      rw [List.length_map] at hnear
      obtain ⟨hleast, hgreatest⟩ := average_between hfloat hlow hhigh
      obtain ⟨hbelow, habove⟩ := abs_le.mp hnear
      exact ⟨hnear, by linarith, by linarith⟩

/-- In doubles, values that add up to less than `2 ^ 52 / 2 ^ k` have an average that is off by no more
than `2 / 2 ^ k`. -/
theorem Summarises.near_double {float : V → ℚ} {stats : Stats V ℚ} {values : List V}
    (h : Summarises Binary64.nearest float stats values) {k : ℕ} (hk : k ≤ 1074)
    (hsum : (values.map fun v => |float v|).sum + values.length * (1 / 2 ^ k) ≤ 2 ^ 52 / 2 ^ k)
    {low high : V} {average : ℚ} (hlow : stats.minimum = some low)
    (hhigh : stats.maximum = some high) (haverage : stats.average = some average) :
    |average - (values.map float).sum / values.length| ≤ 2 * (1 / 2 ^ k) ∧
      float low - 2 * (1 / 2 ^ k) ≤ average ∧ average ≤ float high + 2 * (1 / 2 ^ k) :=
  h.near _ _ (roundsWithin_nearest hk) hsum low high average hlow hhigh haverage

/-- Three readings of 3.3 have an average below 3.3. -/
example : Binary64.nearest (roundedSum Binary64.nearest
    (List.replicate 3 (Binary64.nearest (33 / 10))) / 3) < Binary64.nearest (33 / 10) := by
  decide +kernel

end Stats

/-! ## The health report -/

theorem later_eq_max (current : Option Time) (value : Time) :
    later current value = some (current.elim value (max value)) := by
  cases current with
  | none => rfl
  | some latest =>
    simp only [later, Option.any_some, reduceCtorEq, false_or, decide_eq_true_eq, Option.elim_some]
    grind

/-- What the loop has seen of the points of a device. -/
structure DeviceHealth.Running (health : DeviceHealth δ K) (points : List (TelemetryPoint δ K)) :
    Prop where
  latestReport : health.latestReport = (points.map (·.recordedAt)).max?
  battery : health.battery.Running round id (points.filterMap (·.batteryVoltage))
  gpsAccuracy : health.gpsAccuracy.Running round id (points.filterMap (·.accuracy))
  signal : health.signal.Running round Int.cast (points.filterMap (·.signalStrength))

theorem DeviceHealth.Running.addPoint {health : DeviceHealth δ K}
    {points : List (TelemetryPoint δ K)} (h : health.Running round points)
    (point : TelemetryPoint δ K) :
    (health.addPoint round point).Running round (points ++ [point]) := by
  have hvalues : ∀ {V : Type} (f : TelemetryPoint δ K → Option V),
      (points ++ [point]).filterMap f = points.filterMap f ++ (f point).toList := by
    intro V f
    cases hf : f point <;> simp [hf]
  constructor
  case latestReport =>
    show later health.latestReport point.recordedAt = _
    rw [later_eq_max, h.latestReport]
    cases points with
    | nil => rfl
    | cons first points =>
      simp only [List.cons_append, List.map_cons, List.map_append, List.map_nil, List.max?_cons',
        List.foldl_append, List.foldl_cons, List.foldl_nil, Option.elim_some, max_comm]
  case battery =>
    rw [hvalues]
    exact h.battery.add _
  case gpsAccuracy =>
    rw [hvalues]
    exact h.gpsAccuracy.add _
  case signal =>
    rw [hvalues]
    exact h.signal.add _

/-- The line of a device summarises its points. -/
structure DeviceHealth.Summarises (line : DeviceHealth δ K) (points : List (TelemetryPoint δ K)) :
    Prop where
  pointCount : line.pointCount = points.length
  latestReport : line.latestReport = (points.map (·.recordedAt)).max?
  battery : line.battery.Summarises round id (points.filterMap (·.batteryVoltage))
  gpsAccuracy : line.gpsAccuracy.Summarises round id (points.filterMap (·.accuracy))
  signal : line.signal.Summarises round Int.cast (points.filterMap (·.signalStrength))

variable [IsStrictOrderedRing K]

variable [DecidableEq δ]

theorem nodup_seven : [7].Nodup := List.nodup_singleton 7

/-- `threePoints`; the battery is read twice, the accuracy once. -/
def threeTelemetry : TelemetryData ℕ ℚ where
  devices := [7]
  points :=
    [⟨⟨7, 0, 10, 20, none, none⟩, some 80, some 4, none⟩,
      ⟨⟨7, 60000000, 11, 20, none, none⟩, none, none, some 12⟩,
      ⟨⟨7, 3660000000, 14, 20, none, none⟩, none, some 3, none⟩]
  nodup := nodup_seven

end

/-! ## The track of a device -/

section
variable [DecidableEq δ]

theorem groupTelemetry_track (points : List (TelemetryPoint δ K)) (device : δ) :
    (groupTelemetry points device).map (·.toPoint) =
      groupPoints (points.map (·.toPoint)) device := by
  rw [groupPoints, groupBy, List.filter_map, groupTelemetry, groupBy]
  exact List.map_mergeSort fun _ _ _ _ => rfl

theorem pairwise_groupPoints (points : List (Point δ K)) (device : δ) :
    (groupPoints points device).Pairwise fun a b => a.recordedAt ≤ b.recordedAt := by
  refine (List.pairwise_mergeSort ?_ ?_ _).imp fun h => of_decide_eq_true h
  · intro a b c hab hbc
    simp only [decide_eq_true_eq] at hab hbc ⊢
    exact hab.trans hbc
  · intro a b
    simpa using le_total a.recordedAt b.recordedAt

end

/-- The time from one point to the next. -/
def gapOf (segment : Point δ K × Point δ K) : Time := segment.2.recordedAt - segment.1.recordedAt

theorem foldl_intervals (segments : List (Point δ K × Point δ K)) (i : Intervals) :
    segments.foldl Intervals.add i =
      ⟨i.total + (segments.map fun s => max 0 (gapOf s)).sum,
        i.count + segments.countP fun s => s.1.recordedAt < s.2.recordedAt,
        i.gaps + segments.countP fun s => !isClose s.1 s.2⟩ := by
  induction segments generalizing i with
  | nil => simp
  | cons segment segments ih =>
    have hthreshold : 0 < gapThreshold := by decide
    have hclose : isClose segment.1 segment.2 = decide (gapOf segment ≤ gapThreshold) := rfl
    have hlater : (segment.1.recordedAt < segment.2.recordedAt) ↔ 0 < gapOf segment :=
      sub_pos.symm
    rw [List.foldl_cons, ih, List.map_cons, List.sum_cons, List.countP_cons, List.countP_cons,
      hclose]
    simp only [Intervals.add, hlater, decide_eq_true_eq, Bool.not_eq_true', decide_eq_false_iff_not]
    rw [show segment.2.recordedAt - segment.1.recordedAt = gapOf segment from rfl]
    by_cases hpositive : gapOf segment > 0
    · by_cases hgap : gapOf segment > gapThreshold
      · simp [hpositive, hgap, max_eq_right hpositive.le, add_assoc, add_comm]
      · simp [hpositive, hgap, max_eq_right hpositive.le, add_assoc, add_comm]
    · have hgap : ¬ gapOf segment > gapThreshold := fun h => hpositive (hthreshold.trans h)
      simp [hpositive, hgap, max_eq_left (not_lt.mp hpositive)]

/-- In order, the intervals add up to the whole time, there is one for each new instant, and the
gaps are where the sessions are cut. -/
theorem intervals_spec {points : List (Point δ K)} {first last : Time}
    (h : points.Pairwise fun a b => a.recordedAt ≤ b.recordedAt)
    (hfirst : points.head?.map (·.recordedAt) = some first)
    (hlast : points.getLast?.map (·.recordedAt) = some last) :
    (intervals points).total = last - first ∧
      (points.map (·.recordedAt)).dedup.length = (intervals points).count + 1 ∧
      (sessions points).length = (intervals points).gaps + 1 := by
  have hne : points ≠ [] := by
    intro hnil
    simp [hnil] at hfirst
  have htimes : points.map (·.recordedAt) = first :: (points.map (·.recordedAt)).tail := by
    cases points with
    | nil => exact absurd rfl hne
    | cons point points => simpa using hfirst
  have hpairs := pairs_map (fun p : Point δ K => p.recordedAt) points
  have hsorted : (points.map (·.recordedAt)).Pairwise (· ≤ ·) := List.pairwise_map.mpr h
  rw [intervals, foldl_intervals]
  simp only [zero_add]
  refine ⟨?_, ?_, ?_⟩
  · have hgaps : ∀ s ∈ pairs points, max 0 (gapOf s) = gapOf s := by
      intro s hs
      exact max_eq_right (sub_nonneg.mpr (isChain_iff_pairs.mp h.isChain s hs))
    have hsum := sum_pairs_sub first last (points.map (·.recordedAt)).tail (by
      rw [← htimes, List.getLast?_map, hlast])
    rw [← htimes, hpairs, List.map_map] at hsum
    rw [List.map_congr_left hgaps]
    exact hsum
  · have hnew := length_dedup_of_sorted (htimes ▸ hsorted)
    rw [← htimes, hpairs, List.countP_map] at hnew
    rw [hnew]
    rfl
  · rw [sessions_eq_splitBy, length_splitBy isClose hne]

theorem head?_eq_min? {points : List (Point δ K)}
    (h : points.Pairwise fun a b => a.recordedAt ≤ b.recordedAt) :
    points.head?.map (·.recordedAt) = (points.map (·.recordedAt)).min? := by
  cases points with
  | nil => rfl
  | cons first points =>
    obtain ⟨hfirst, -⟩ := List.pairwise_cons.mp h
    refine (List.min?_eq_some_iff.mpr ⟨List.mem_cons_self, ?_⟩).symm
    simpa using hfirst

theorem getLast?_eq_max? {points : List (Point δ K)}
    (h : points.Pairwise fun a b => a.recordedAt ≤ b.recordedAt) :
    points.getLast?.map (·.recordedAt) = (points.map (·.recordedAt)).max? := by
  obtain rfl | ⟨init, last, rfl⟩ := List.eq_nil_or_concat points
  · rfl
  · rw [List.concat_eq_append] at h ⊢
    obtain ⟨-, -, hlast⟩ := List.pairwise_append.mp h
    rw [List.getLast?_concat]
    refine (List.max?_eq_some_iff.mpr ⟨by simp, ?_⟩).symm
    intro t ht
    obtain ⟨p, hp, rfl⟩ := List.mem_map.mp ht
    obtain hp | hp := List.mem_append.mp hp
    · exact hlast p hp last List.mem_cons_self
    · rw [List.mem_singleton.mp hp]

/-- Without an interval all points are of one instant. -/
theorem total_of_no_interval {points : List (Point δ K)} (h : (intervals points).count = 0) :
    (intervals points).total = 0 := by
  rw [intervals, foldl_intervals] at h ⊢
  simp only [zero_add, List.countP_eq_zero] at h ⊢
  refine List.sum_eq_zero fun x hx => ?_
  obtain ⟨s, hs, rfl⟩ := List.mem_map.mp hx
  have hstill := h s hs
  simp only [decide_eq_true_eq, not_lt] at hstill
  exact max_eq_left (sub_nonpos.mpr hstill)

theorem total_nonneg (points : List (Point δ K)) : 0 ≤ (intervals points).total := by
  rw [intervals, foldl_intervals, zero_add]
  refine List.sum_nonneg fun x hx => ?_
  obtain ⟨s, -, rfl⟩ := List.mem_map.mp hx
  exact le_max_left 0 _

section
variable [Field K] [LinearOrder K] (round : K → K) (dist : DistanceFunction δ K)

theorem longest_addSegment (m : TrackMetrics K) (segment : Point δ K × Point δ K) :
    (m.addSegment dist segment).longest = max m.longest (gapOf segment) := by
  have hgap : (if segment.2.recordedAt - segment.1.recordedAt > m.longest then
      { m with longest := segment.2.recordedAt - segment.1.recordedAt } else m).longest =
      max m.longest (gapOf segment) := by
    split
    · next h => exact (max_eq_right h.le).symm
    · next h => exact (max_eq_left (not_lt.mp h)).symm
  unfold TrackMetrics.addSegment
  dsimp only
  split
  · exact hgap
  · split <;> exact hgap

theorem lt_longest_iff (points : List (Point δ K)) {bound : Time} (h : 0 ≤ bound) :
    bound < (trackMetrics dist points).longest ↔ ∃ s ∈ pairs points, bound < gapOf s := by
  have hfold : ∀ (segments : List (Point δ K × Point δ K)) (m : TrackMetrics K),
      bound < (segments.foldl (TrackMetrics.addSegment dist) m).longest ↔
        bound < m.longest ∨ ∃ s ∈ segments, bound < gapOf s := by
    intro segments
    induction segments with
    | nil => simp
    | cons segment segments ih =>
      intro m
      rw [List.foldl_cons, ih, longest_addSegment, lt_max_iff, or_assoc, List.exists_mem_cons_iff]
  rw [trackMetrics, hfold]
  exact or_iff_right (not_lt.mpr h)

theorem first_trackMetrics (points : List (Point δ K)) :
    (trackMetrics dist points).first = points.head?.map (·.recordedAt) ∧
      (trackMetrics dist points).last = points.getLast?.map (·.recordedAt) := by
  have hadd : ∀ (m : TrackMetrics K) (s : Point δ K × Point δ K),
      (m.addSegment dist s).first = m.first ∧ (m.addSegment dist s).last = m.last := by
    intro m s
    unfold TrackMetrics.addSegment
    dsimp only
    split
    · constructor <;> split <;> rfl
    · split <;> constructor <;> split <;> rfl
  have hfold : ∀ (segments : List (Point δ K × Point δ K)) (m : TrackMetrics K),
      (segments.foldl (TrackMetrics.addSegment dist) m).first = m.first ∧
        (segments.foldl (TrackMetrics.addSegment dist) m).last = m.last := by
    intro segments
    induction segments with
    | nil => exact fun m => ⟨rfl, rfl⟩
    | cons s segments ih =>
      intro m
      rw [List.foldl_cons, (ih _).1, (ih _).2]
      exact hadd m s
  exact hfold _ _

/-! ## The quality report -/

/-- The line of a device describes the rhythm of its track. -/
structure DeviceQuality.Describes (round : K → K) (line : DeviceQuality δ K)
    (track : List (Point δ K)) : Prop where
  firstReport : line.firstReport = (track.map (·.recordedAt)).min?
  latestReport : line.latestReport = (track.map (·.recordedAt)).max?
  sessions : track ≠ [] → (sessions track).length = line.gapCount + 1
  instants : track ≠ [] → (track.map (·.recordedAt)).dedup.length = line.intervalCount + 1
  average : ∀ first last, line.firstReport = some first → line.latestReport = some last →
    line.averageIntervalSeconds = if line.intervalCount > 0 then
      round (floatSeconds round (last - first) / line.intervalCount) else 0
  near : ∀ bound error, RoundsWithin round bound error →
    ∀ first last, line.firstReport = some first → line.latestReport = some last →
      seconds (last - first) + 2 * error ≤ bound →
      |line.averageIntervalSeconds * line.intervalCount - seconds (last - first)| ≤
        (line.intervalCount + 2) * error
  longestGap : ∃ gap, line.longestGapSeconds = floatSeconds round gap ∧
    (0 < line.gapCount ↔ gapThreshold < gap)

section
variable [IsStrictOrderedRing K]

theorem seconds_split (gap : Time) :
    (seconds gap : K) = (gap / 1000000 : Time) + seconds (gap % 1000000) := by
  have hsplit : gap = gap / 1000000 * 1000000 + gap % 1000000 := (Int.ediv_mul_add_emod gap _).symm
  have hcast : (gap : K) = (gap / 1000000 : Time) * 1000000 + (gap % 1000000 : Time) := by
    exact_mod_cast congrArg (Int.cast : Int → K) hsplit
  rw [seconds, seconds, hcast, add_div, mul_div_cancel_right₀ _ (by norm_num)]

theorem seconds_nonneg {gap : Time} (h : 0 ≤ gap) : (0 : K) ≤ seconds gap :=
  div_nonneg (Int.cast_nonneg h) (by norm_num)

/-- The seconds of a duration are off by two roundings. -/
theorem floatSeconds_near {round : K → K} {bound error : K} (h : RoundsWithin round bound error)
    {gap : Time} (hgap : 0 ≤ gap) (hbound : seconds gap + 2 * error ≤ bound) :
    |floatSeconds round gap - seconds gap| ≤ 2 * error := by
  have herror := h.nonneg
  have hwhole : (0 : K) ≤ (gap / 1000000 : Time) :=
    Int.cast_nonneg (Int.ediv_nonneg hgap (by decide))
  have hrest : (0 : K) ≤ seconds (gap % 1000000) :=
    seconds_nonneg (Int.emod_nonneg gap (by decide))
  rw [floatSeconds, seconds_split gap] at *
  generalize ((gap / 1000000 : Time) : K) = whole at *
  generalize (seconds (gap % 1000000) : K) = rest at *
  have hround := h.near rest (by rw [abs_of_nonneg hrest]; linarith)
  have hnear : |whole + round rest - (whole + rest)| ≤ error := by
    rwa [add_sub_add_left_eq_sub]
  obtain ⟨hbelow, habove⟩ := abs_le.mp hround
  have hrange : |whole + round rest| ≤ bound := abs_le.mpr ⟨by linarith, by linarith⟩
  rw [two_mul]
  exact h.of_near hrange hnear

theorem describes_deviceQuality (points : List (TelemetryPoint δ K)) (device : δ)
    (h : (points.map (·.toPoint)).Pairwise fun a b => a.recordedAt ≤ b.recordedAt) :
    (deviceQuality round dist points device).Describes round (points.map (·.toPoint)) := by
  generalize htrack : points.map (·.toPoint) = track at h
  have hfirst : (deviceQuality round dist points device).firstReport =
      track.head?.map (·.recordedAt) := by
    rw [← htrack]
    exact (first_trackMetrics dist _).1
  have hlast : (deviceQuality round dist points device).latestReport =
      track.getLast?.map (·.recordedAt) := by
    rw [← htrack]
    exact (first_trackMetrics dist _).2
  have hcounts : (deviceQuality round dist points device).gapCount = (intervals track).gaps ∧
      (deviceQuality round dist points device).intervalCount = (intervals track).count := by
    rw [← htrack]
    exact ⟨rfl, rfl⟩
  have hspec : track ≠ [] → ∃ first last, track.head?.map (·.recordedAt) = some first ∧
      track.getLast?.map (·.recordedAt) = some last := by
    intro hne
    rw [List.head?_eq_some_head hne, List.getLast?_eq_some_getLast hne]
    exact ⟨_, _, rfl, rfl⟩
  have haverage : (deviceQuality round dist points device).averageIntervalSeconds =
      if (intervals track).count > 0 then
        round (floatSeconds round (intervals track).total / (intervals track).count) else 0 := by
    rw [← htrack]
    rfl
  constructor
  case firstReport => rw [hfirst, head?_eq_min? h]
  case latestReport => rw [hlast, getLast?_eq_max? h]
  case sessions =>
    intro hne
    obtain ⟨first, last, hhead, hend⟩ := hspec hne
    rw [hcounts.1]
    exact (intervals_spec h hhead hend).2.2
  case instants =>
    intro hne
    obtain ⟨first, last, hhead, hend⟩ := hspec hne
    rw [hcounts.2]
    exact (intervals_spec h hhead hend).2.1
  case average =>
    intro first last hhead hend
    rw [hfirst] at hhead
    rw [hlast] at hend
    obtain ⟨htotal, -, -⟩ := intervals_spec h hhead hend
    rw [haverage, hcounts.2, htotal]
  case near =>
    intro bound error hround first last hhead hend hbound
    rw [hfirst] at hhead
    rw [hlast] at hend
    obtain ⟨htotal, -, -⟩ := intervals_spec h hhead hend
    have hnonneg : 0 ≤ last - first := htotal ▸ total_nonneg track
    rw [haverage, hcounts.2, htotal]
    split
    · next hpositive =>
      have hseconds := floatSeconds_near hround hnonneg hbound
      obtain ⟨hbelow, habove⟩ := abs_le.mp hseconds
      have herror := hround.nonneg
      have hwhole : (0 : K) ≤ seconds (last - first) := seconds_nonneg hnonneg
      have hrange : |floatSeconds round (last - first)| ≤ bound :=
        abs_le.mpr ⟨by linarith, by linarith⟩
      obtain ⟨hbelow', habove'⟩ := abs_le.mp (hround.div_mul hrange hpositive)
      exact abs_le.mpr ⟨by linarith, by linarith⟩
    · next hnone =>
      have hcount : (intervals track).count = 0 := Nat.eq_zero_of_not_pos hnone
      have hsame : last - first = 0 := htotal ▸ total_of_no_interval hcount
      have herror := hround.nonneg
      rw [hcount, hsame, zero_mul]
      simpa [seconds] using herror
  case longestGap =>
    refine ⟨(trackMetrics dist track).longest, by rw [← htrack]; rfl, ?_⟩
    rw [lt_longest_iff dist track (by decide), hcounts.1, intervals, foldl_intervals]
    simp only [zero_add, List.countP_pos_iff]
    refine exists_congr fun s => and_congr_right fun _ => ?_
    simp only [isClose, gapOf, Bool.not_eq_true', decide_eq_false_iff_not, not_le]

variable [DecidableEq δ]

/-- Each line of the quality report has one gap for each cut between the sessions of its device's
track, one interval for each new instant, and an average interval that makes up the whole time. -/
theorem quality_regularity {filter : Filter} {repo : Except String (TelemetryData δ K)}
    {lines : List (DeviceQuality δ K)} (h : quality round dist filter repo = .ok lines) :
    ∃ data, repo = .ok data ∧ lines.map (·.device) = data.devices ∧
      ∀ line ∈ lines, line.Describes round (groupPoints data.toDataset.points line.device) := by
  unfold quality at h
  cases hdata : dataset filter repo with
  | error message =>
    rw [hdata] at h
    cases h
  | ok data =>
    rw [hdata] at h
    cases h
    refine ⟨data, dataset_eq_ok hdata, ?_, ?_⟩
    · simp [Function.comp_def, deviceQuality]
    · intro line hline
      obtain ⟨device, -, rfl⟩ := List.mem_map.mp hline
      have htrack := groupTelemetry_track data.points device
      have hdescribes := describes_deviceQuality round dist (groupTelemetry data.points device)
        device (by
          rw [htrack]
          exact pairwise_groupPoints _ device)
      rw [htrack] at hdescribes
      exact hdescribes

theorem quality_regularity_three : ∃ lines,
    quality Binary64.nearest gridDistance ⟨0, 9⟩ (.ok threeTelemetry) = .ok lines ∧
    lines.map (·.device) = [7] ∧
    ∀ line ∈ lines, line.Describes Binary64.nearest (groupPoints threePoints line.device) := by
  obtain ⟨data, hdata, hdevices, hlines⟩ := quality_regularity Binary64.nearest gridDistance
    (rfl : quality Binary64.nearest gridDistance ⟨0, 9⟩ (.ok threeTelemetry) = .ok _)
  obtain rfl := Except.ok.inj hdata
  exact ⟨_, rfl, hdevices, hlines⟩

/-! ## The reports of one data set -/

end

end

end OpenGps.Backend.Reports
