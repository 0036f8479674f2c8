import OpenGps.Backend.ReportData
import OpenGps.Lib.Query
import OpenGps.Lib.Tally

/-!
# The totals of the overview

The overview counts the points of its data three times: in all, by device and by bucket of its
series. The devices and the points come from two queries. All counts agree unless the range starts
between two microseconds: the query for the points then starts at the earlier one, and the series
leaves out a point of that microsecond, which the other counts have.
-/

namespace OpenGps.Backend.Reports

open OpenGps.Lib

section
variable {δ K : Type} [DecidableEq δ]

theorem length_groupPoints (points : List (Point δ K)) (device : δ) :
    (groupPoints points device).length = tally (·.deviceID) points device := by
  rw [groupPoints, groupBy, List.length_mergeSort, ← List.countP_eq_length_filter]
  rfl

theorem bucketDuration_pos (span : Nanos) : 0 < bucketDuration span := by
  unfold bucketDuration
  split
  · decide
  · split
    · decide
    · split <;> decide

/-! ## The series -/

section
variable (points : List (Point δ K)) (start stop bucket : Nanos)

omit [DecidableEq δ] in
theorem bucket_of_mem {b : BucketCount} (h : b ∈ pointSeries points start stop bucket) :
    ∃ p ∈ points, start ≤ .ofTime p.recordedAt ∧
      b.startedAt = start + (Nanos.ofTime p.recordedAt - start) / bucket * bucket := by
  obtain ⟨s, hs, rfl⟩ := List.mem_map.mp h
  rw [List.mem_mergeSort, List.mem_eraseDups] at hs
  obtain ⟨p, hp, hs⟩ := List.mem_filterMap.mp hs
  dsimp only at hs
  split at hs
  · cases hs
  · next hin =>
    cases hs
    obtain ⟨hfrom, -⟩ := not_or.mp hin
    exact ⟨p, hp, sub_nonneg.mp (not_lt.mp hfrom), rfl⟩

omit [DecidableEq δ] in
/-- A bucket starts a whole number of buckets after the range, and not after a point of it. -/
theorem aligned_of_mem {b : BucketCount} (hpositive : 0 < bucket)
    (h : b ∈ pointSeries points start stop bucket) :
    (∃ k : ℕ, b.startedAt = start + k * bucket) ∧ start ≤ b.startedAt ∧
      ∃ p ∈ points, b.startedAt ≤ .ofTime p.recordedAt := by
  obtain ⟨p, hp, hfrom, hstarted⟩ := bucket_of_mem points start stop bucket h
  have hnonneg : 0 ≤ (Nanos.ofTime p.recordedAt - start) / bucket :=
    Int.ediv_nonneg (sub_nonneg.mpr hfrom) hpositive.le
  obtain ⟨k, hk⟩ := Int.eq_ofNat_of_zero_le hnonneg
  have hle : (Nanos.ofTime p.recordedAt - start) / bucket * bucket ≤
      Nanos.ofTime p.recordedAt - start := Int.ediv_mul_le _ hpositive.ne'
  rw [hstarted]
  refine ⟨⟨k, by rw [hk]⟩, le_add_of_nonneg_right (mul_nonneg hnonneg hpositive.le), p, hp, ?_⟩
  calc start + (Nanos.ofTime p.recordedAt - start) / bucket * bucket
      ≤ start + (Nanos.ofTime p.recordedAt - start) := by gcongr
    _ = .ofTime p.recordedAt := add_sub_cancel _ _

omit [DecidableEq δ] in
/-- The series has the points that are neither before the range nor after it. -/
theorem sum_pointSeries :
    ((pointSeries points start stop bucket).map (·.count)).sum =
      points.countP fun p => start ≤ .ofTime p.recordedAt ∧ .ofTime p.recordedAt ≤ stop := by
  unfold pointSeries
  dsimp only
  generalize hstarts : points.filterMap (fun p : Point δ K =>
    if Nanos.ofTime p.recordedAt - start < 0 ∨ Nanos.ofTime p.recordedAt > stop then none
    else some (start + (Nanos.ofTime p.recordedAt - start) / bucket * bucket)) = starts
  have hnodup : (starts.eraseDups.mergeSort fun a b => a ≤ b).Nodup :=
    (List.mergeSort_perm _ _).nodup_iff.mpr (nodup_eraseDups starts)
  have hmem : ∀ s ∈ starts, id s ∈ starts.eraseDups.mergeSort fun a b => a ≤ b :=
    fun s hs => List.mem_mergeSort.mpr (List.mem_eraseDups.mpr hs)
  have hcount : (fun s => starts.count s) = tally id starts := by
    funext s
    exact List.countP_congr fun t _ => by simp
  rw [List.map_map, show (BucketCount.count ∘ fun s => ⟨s, starts.count s⟩) = tally id starts from
    hcount, sum_tally hnodup hmem, ← hstarts, List.length_filterMap_eq_countP]
  refine List.countP_congr fun p _ => ?_
  split
  · next hout =>
    simp only [Option.isSome_none, Bool.false_eq_true, false_iff, decide_eq_true_eq]
    rintro ⟨hfrom, hto⟩
    exact hout.elim (not_lt.mpr (sub_nonneg.mpr hfrom)) (not_lt.mpr hto)
  · next hin =>
    obtain ⟨hfrom, hto⟩ := not_or.mp hin
    simp only [Option.isSome_some, true_iff, decide_eq_true_eq]
    exact ⟨sub_nonneg.mp (not_lt.mp hfrom), not_lt.mp hto⟩

omit [DecidableEq δ] in
theorem sorted_pointSeries :
    (pointSeries points start stop bucket).Pairwise fun a b => a.startedAt < b.startedAt := by
  exact List.pairwise_map.mpr (Query.orderBy_pairwise id (nodup_eraseDups _))

/-! ## The counts by device -/

end

section
variable [Field K] [LinearOrder K] (dist : DistanceFunction δ K) (points : List (Point δ K))

theorem count_addDevice (report : OverviewReport δ K) (device : δ) :
    (report.addDevice dist points device).pointCount =
        report.pointCount + tally (·.deviceID) points device ∧
      (report.addDevice dist points device).bucket = report.bucket := by
  rw [← length_groupPoints]
  unfold OverviewReport.addDevice
  dsimp only
  split <;> exact ⟨rfl, rfl⟩

theorem count_foldl (devices : List δ) (report : OverviewReport δ K) :
    (devices.foldl (OverviewReport.addDevice dist points) report).pointCount =
        report.pointCount + (devices.map (tally (·.deviceID) points)).sum ∧
      (devices.foldl (OverviewReport.addDevice dist points) report).bucket = report.bucket := by
  induction devices generalizing report with
  | nil => exact ⟨rfl, rfl⟩
  | cons device devices ih =>
    obtain ⟨hcount, hbucket⟩ := count_addDevice dist points report device
    obtain ⟨ihCount, ihBucket⟩ := ih (report.addDevice dist points device)
    rw [List.foldl_cons, ihCount, ihBucket, hcount, List.map_cons, List.sum_cons, Nat.add_assoc]
    exact ⟨rfl, hbucket⟩

/-! ## Conservation -/

/-- The points of the data are those of the totals, and the series cuts the range into buckets. -/
structure Conserves (filter : Filter) (data : Dataset δ K) (report : OverviewReport δ K) : Prop where
  total : report.pointCount = data.points.length
  byDevice : (report.devices.map (·.pointCount)).sum = report.pointCount
  bySeries : (report.series.map (·.count)).sum = report.pointCount
  owned : ∀ p ∈ data.points, p.deviceID ∈ data.devices
  sorted : report.series.Pairwise fun a b => a.startedAt < b.startedAt
  aligned : ∀ b ∈ report.series, ∃ k : ℕ, b.startedAt = filter.start + k * report.bucket
  inside : ∀ b ∈ report.series, filter.start ≤ b.startedAt ∧ b.startedAt < filter.stop

/-- With points of known devices before the end of the range, only the start of the range counts. -/
theorem conserves_iff {filter : Filter} {data : Dataset δ K}
    (hbounded : filter.stop - filter.start ≤ maxReportRange)
    (howned : ∀ p ∈ data.points, p.deviceID ∈ data.devices)
    (hstop : ∀ p ∈ data.points, .ofTime p.recordedAt < filter.stop) :
    ∃ report, overview dist filter (.ok data) = .ok report ∧
      (Conserves filter data report ↔
        ∀ p ∈ data.points, filter.start ≤ .ofTime p.recordedAt) := by
  have hdataset : dataset filter (.ok data) = .ok data := if_neg (not_lt.mpr hbounded)
  refine ⟨_, by rw [overview, hdataset]; rfl, ?_⟩
  obtain ⟨hcount, hbucket⟩ := count_foldl dist data.points data.devices
    ⟨0, 0, 0, 0, none, 0, bucketDuration (filter.stop - filter.start), [], []⟩
  have hdevices := foldl_addDevice dist data.points data.devices
    ⟨0, 0, 0, 0, none, 0, bucketDuration (filter.stop - filter.start), [], []⟩
  -- No point is counted for two devices, and each is counted for one.
  have htally := sum_tally data.nodup howned
  rw [htally, Nat.zero_add] at hcount
  have hseries := sum_pointSeries data.points filter.start filter.stop
    (bucketDuration (filter.stop - filter.start))
  constructor
  · intro hconserves p hp
    have hall := hconserves.bySeries
    rw [hconserves.total, hseries, List.countP_eq_length] at hall
    exact (of_decide_eq_true (hall p hp)).1
  · intro hstart
    have hpositive := bucketDuration_pos (filter.stop - filter.start)
    refine ⟨hcount, ?_, ?_, howned, sorted_pointSeries _ _ _ _, ?_, ?_⟩
    · rw [hcount, hdevices, List.nil_append, List.map_map, ← htally]
      exact congrArg List.sum (List.map_congr_left fun d _ => length_groupPoints data.points d)
    · rw [hcount, hseries, List.countP_eq_length]
      exact fun p hp => decide_eq_true ⟨hstart p hp, (hstop p hp).le⟩
    · intro b hb
      rw [hbucket]
      exact (aligned_of_mem _ _ _ _ hpositive hb).1
    · intro b hb
      obtain ⟨-, hfrom, p, hp, hbefore⟩ := aligned_of_mem _ _ _ _ hpositive hb
      exact ⟨hfrom, hbefore.trans_lt (hstop p hp)⟩

end

end

section
variable {ζ υ δ K : Type} (codec : TimestampCodec)

theorem ofTime_lt_of_inRange {filter : ReportFilter δ} {p : Point δ K}
    (h : InRange codec filter p) : .ofTime p.recordedAt < filter.stop := by
  by_contra hle
  have hmono := codec.mono (not_lt.mp hle)
  rw [codec.encode_ofTime] at hmono
  exact not_lt.mpr hmono h.2

/-- A range that starts at a whole microsecond selects no point before it. -/
theorem start_le_of_inRange {filter : ReportFilter δ} {start : Time}
    (hstart : filter.start = .ofTime start) {p : Point δ K} (h : InRange codec filter p) :
    filter.start ≤ .ofTime p.recordedAt := by
  have hfrom := h.1
  rw [hstart, codec.encode_ofTime] at hfrom
  rw [hstart]
  exact mul_le_mul_of_nonneg_right hfrom (by decide)

variable [DecidableEq υ] [LinearOrder δ] [Field K] [LinearOrder K] (dist : DistanceFunction δ K)
  (db : ReportDb υ δ K) (nameLe : String → String → Bool) (user : υ)

theorem conserves_iff_stored {filter : ReportFilter δ} (h : Accepted filter) :
    ∃ data report, db.getDataset codec nameLe user filter 0 = some data ∧
      overview dist filter.toFilter (.ok data) = .ok report ∧
      (Conserves filter.toFilter data report ↔
        ∀ p, db.Stored p → db.Shows user filter p.deviceID → InRange codec filter p →
          filter.start ≤ .ofTime p.recordedAt) := by
  obtain ⟨data, hdata, hdevices, hpoints⟩ := db.getDataset_spec codec h nameLe user
  have howned : ∀ p ∈ data.points, p.deviceID ∈ data.devices :=
    fun p hp => (hdevices _).mpr ((hpoints p).mp hp).1
  have hstop : ∀ p ∈ data.points, .ofTime p.recordedAt < filter.stop :=
    fun p hp => ofTime_lt_of_inRange codec ((hpoints p).mp hp).2.1
  obtain ⟨report, hreport, hconserves⟩ := conserves_iff dist h.bounded howned hstop
  refine ⟨data, report, hdata, hreport, hconserves.trans ?_⟩
  constructor
  · exact fun hstart p hstored hshows hrange =>
      hstart p ((hpoints p).mpr ⟨hshows, hrange, hstored⟩)
  · intro hstart p hp
    obtain ⟨hshows, hrange, hstored⟩ := (hpoints p).mp hp
    exact hstart p hstored hshows hrange

/-- For a request that the handler accepts the data is read and the overview made, and its totals
conserve the points if and only if no point that the query selects is before the range. -/
theorem overview_conserves (parsers : Parsers ζ δ) {query : ReportQuery} {filter : ReportFilter δ}
    (h : reportRequest parsers query = .ok filter) :
    ∃ data report, db.getDataset codec nameLe user filter 0 = some data ∧
      overview dist filter.toFilter (.ok data) = .ok report ∧
      (Conserves filter.toFilter data report ↔
        ∀ p, db.Stored p → db.Shows user filter p.deviceID → InRange codec filter p →
          filter.start ≤ .ofTime p.recordedAt) :=
  conserves_iff_stored codec dist db nameLe user (accepted_of_reportRequest h)

end

/-- New Year's day of 2026, in UTC. -/
def newYear : Time := 1767225600000000

/-- The instants of the two requests below. -/
def newYearParsers : Parsers Unit ℕ where
  loadLocation zone := if zone = "UTC" then some () else none
  parseInLocation text _ :=
    if text = "2026-01-01T00:00:00" then some (.ofTime newYear)
    else if text = "2026-01-01T00:00:00.0000005" then some (.ofTime newYear + 500)
    else if text = "2026-01-01T06:00:00" then some (.ofTime newYear + 6 * 60 * 60 * 1000000000)
    else none
  parseID _ := none

/-- A user with one device, which reported at the turn of the year. -/
def newYearDb : ReportDb ℕ ℕ ℚ where
  devices := AList.insert 7 ⟨"van", .van, none⟩ ∅
  access := AList.insert (1, 7) ⟨.owner, none⟩ ∅
  locations := AList.insert (7, newYear) ⟨10, 20, none, none⟩ ∅

/-- Half a microsecond into the year. -/
def lateFilter : ReportFilter ℕ :=
  ⟨⟨.ofTime newYear + 500, .ofTime newYear + 6 * 60 * 60 * 1000000000⟩, [], ""⟩

theorem overview_loses_point :
    reportRequest newYearParsers
        ⟨"UTC", "2026-01-01T00:00:00.0000005", "2026-01-01T06:00:00", "", ""⟩ = .ok lateFilter ∧
    ¬ ∃ data report, newYearDb.getDataset microsecondCodec (fun a b => a ≤ b) 1 lateFilter 0 =
        some data ∧
      overview gridDistance lateFilter.toFilter (.ok data) = .ok report ∧
      Conserves lateFilter.toFilter data report := by
  have hrequest : reportRequest newYearParsers
      ⟨"UTC", "2026-01-01T00:00:00.0000005", "2026-01-01T06:00:00", "", ""⟩ = .ok lateFilter := rfl
  refine ⟨hrequest, ?_⟩
  rintro ⟨data, report, hdata, hreport, hconserves⟩
  obtain ⟨data', report', hdata', hreport', hiff⟩ := conserves_iff_stored microsecondCodec
    gridDistance newYearDb (fun a b => a ≤ b) 1 (accepted_of_reportRequest hrequest)
  obtain rfl := Option.some.inj (hdata.symm.trans hdata')
  obtain rfl := Except.ok.inj (hreport.symm.trans hreport')
  -- The point is selected, half a microsecond before the range.
  have hstart := hiff.mp hconserves ⟨7, newYear, 10, 20, none, none⟩ ⟨⟨10, 20, none, none⟩, rfl, rfl⟩
    ⟨⟨"van", .van, none⟩, ⟨.owner, none⟩, rfl, rfl, rfl, rfl, .inl rfl, .inl rfl⟩
    ⟨by decide, by decide⟩
  exact absurd hstart (by decide)

theorem overview_conserves_new_year : ∃ data report,
    newYearDb.getDataset microsecondCodec (fun a b => a ≤ b) 1
      ⟨⟨.ofTime newYear, .ofTime newYear + 6 * 60 * 60 * 1000000000⟩, [], ""⟩ 0 = some data ∧
    overview gridDistance ⟨.ofTime newYear, .ofTime newYear + 6 * 60 * 60 * 1000000000⟩ (.ok data) =
      .ok report ∧
    Conserves ⟨.ofTime newYear, .ofTime newYear + 6 * 60 * 60 * 1000000000⟩ data report := by
  have hrequest : reportRequest newYearParsers
      ⟨"UTC", "2026-01-01T00:00:00", "2026-01-01T06:00:00", "", ""⟩ =
    .ok ⟨⟨.ofTime newYear, .ofTime newYear + 6 * 60 * 60 * 1000000000⟩, [], ""⟩ := rfl
  obtain ⟨data, report, hdata, hreport, hiff⟩ := overview_conserves microsecondCodec gridDistance
    newYearDb (fun a b => a ≤ b) 1 newYearParsers hrequest
  exact ⟨data, report, hdata, hreport,
    hiff.mpr fun p _ _ hrange => start_le_of_inRange microsecondCodec rfl hrange⟩

end OpenGps.Backend.Reports
