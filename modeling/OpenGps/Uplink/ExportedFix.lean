import OpenGps.Backend.CsvExport
import OpenGps.Uplink.UploadContract

/-!
# From the flash to the spreadsheet

A fix goes as a record with millionths of a degree into the flash, as decimal digits into an upload,
as a double into the database and with six decimals into the CSV export. Its place and its time come
out as they went in: the roundings on the way are too small to reach the sixth decimal, and the
timestamps of the device have no fraction that the export could cut off.
-/

namespace OpenGps.Uplink

open OpenGps.Lib OpenGps.Firmware OpenGps.Backend OpenGps.Backend.Reports

/-- What the place relies on: a coordinate is uploaded with an error of no more than a ten-millionth
of a degree. -/
def SharpNumbers (number : Rat → Rat) : Prop :=
  ∀ x, |x| ≤ 180 → |number x - x| ≤ 1 / 10000000

section
variable {number : Rat → Rat}

/-- Millionths of a degree survive the upload and the export. -/
theorem rounded_uploaded (hnumber : SharpNumbers number) {e6 : ℤ}
    (h : -180 * 1000000 ≤ e6 ∧ e6 ≤ 180 * 1000000) :
    Decimal.rounded 6 (number (Binary64.nearest (e6 / 1000000))) = e6 / 1000000 := by
  have hrange : |(e6 : ℚ) / 1000000| ≤ 180 := by
    have hcast : (-180 * 1000000 : ℚ) ≤ e6 ∧ (e6 : ℚ) ≤ 180 * 1000000 := by exact_mod_cast h
    rw [abs_le]
    constructor
    · rw [le_div_iff₀ (by norm_num)]
      exact hcast.1
    · rw [div_le_iff₀ (by norm_num)]
      exact hcast.2
  have hbetween := Binary64.nearest_between (-180) 180 (by norm_num) (by norm_num)
    (by exact_mod_cast (abs_le.mp hrange).1) (by exact_mod_cast (abs_le.mp hrange).2)
  have hdouble : |Binary64.nearest ((e6 : ℚ) / 1000000) - e6 / 1000000| ≤ 1 / 2 ^ 40 :=
    Binary64.abs_nearest_sub_le 40 (by norm_num) (by
      rw [abs_mul, abs_of_pos (show (0 : ℚ) < 2 ^ 40 by positivity)]
      calc |(e6 : ℚ) / 1000000| * 2 ^ 40 ≤ 180 * 2 ^ 40 := by gcongr
        _ ≤ 2 ^ 52 := by norm_num)
  have hwritten := hnumber (Binary64.nearest ((e6 : ℚ) / 1000000)) (by
    rw [abs_le]
    exact_mod_cast hbetween)
  refine (Decimal.rounded_of_near (n := e6) ?_).trans (by norm_num)
  rw [abs_le] at hdouble hwritten
  rw [abs_lt]
  norm_num at hdouble hwritten ⊢
  constructor <;> linarith

/-- A coordinate of the item that is uploaded for a record. -/
theorem coordinate_member_eq (bound : ℤ) {e6 : Int32} (hbound : 0 ≤ bound) (hbound' : bound ≤ 180)
    (h : -bound * 1000000 ≤ e6.toInt ∧ e6.toInt ≤ bound * 1000000) :
    let x := Double.ofInt e6.toInt / .finite 1000000
    (if x ≥ .finite (-(bound : ℚ)) ∧ x ≤ .finite (bound : ℚ) then some x else none).bind
      (decodeNumber number) = some (number (Binary64.nearest (e6.toInt / 1000000))) := by
  have hdiv := Double.ofInt_div_between e6.toInt (-bound) bound
    (by norm_num : (0 : ℚ) < 1000000) (by omega) (by omega) (by exact_mod_cast h.1)
    (by exact_mod_cast h.2)
  have hlo : (-bound : ℚ) ≤ Binary64.nearest (e6.toInt / 1000000) := by exact_mod_cast hdiv.2.1
  dsimp only
  rw [hdiv.1, if_pos ⟨Double.finite_le_finite.mpr hlo, Double.finite_le_finite.mpr hdiv.2.2⟩]
  rfl

end

/-! ## The timestamp -/

variable {yy mo dd hh mi ss : Int16}

theorem not_mem_timestamp {b : UInt8} (hdigit : Rfc3339.digit? b = none)
    (hb : b ∉ Rfc3339.ascii ['-', 'T', ':', 'Z']) :
    b ∉ cString (snprintf (timestamp yy mo dd hh mi ss)) := by
  rw [cString_timestamp]
  intro hmem
  obtain ⟨c, hc, rfl⟩ := List.mem_map.mp hmem
  have hnumber : ∀ (w : Nat) (v : Int), c ∈ formatInt w v → False := by
    intro w v hc
    obtain ⟨ds, heq, hds, -⟩ := formatInt_eq w v
    rw [heq] at hc
    obtain hsign | hd := List.mem_append.mp hc
    · split at hsign
      · obtain rfl := List.mem_singleton.mp hsign
        exact hb (by decide)
      · cases hsign
    · rw [Rfc3339.digit?_ofNat (hds c hd)] at hdigit
      cases hdigit
  have hseparator : ∀ sep ∈ ['-', 'T', ':', 'Z'], c ≠ sep := by
    intro sep hsep hc
    exact hb (hc ▸ List.mem_map_of_mem hsep)
  have hall := List.mem_of_mem_take hc
  simp only [timestamp, List.mem_append, List.mem_cons, List.not_mem_nil, or_false] at hall
  simp only [List.forall_mem_cons] at hseparator
  grind

/-! ## The exported fix -/

section
variable {math : MathFunctions} {unspecified : Double → Int64} {number : Rat → Rat} {δ : Type}

/-- The row of a point that the backend stored from an item. -/
structure StoredFrom (item : IngestLocationRequest) (p : TelemetryPoint δ ℚ) : Prop where
  recordedAt : some p.recordedAt = Rfc3339.parse item.recordedAt
  latitude : some p.latitude = item.latitude
  longitude : some p.longitude = item.longitude

/-- The export shows the place and the time of a queued fix as the record in flash has them. -/
theorem exported_fix (print : CsvPrinters δ) (hnumber : SharpNumbers number)
    (fix : QueuedFix math unspecified) (drained : LiveReadings) {item : IngestLocationRequest}
    (hitem : fix.item number drained = some item) {p : TelemetryPoint δ ℚ}
    (hstored : StoredFrom item p) (hp : Exportable p) :
    ∃ record line, slotRecord (fix.disk'.files .data) fix.store.queueMeta.head = some record ∧
      readLine print (csvRecord print p) = some line ∧
      line.latitude = record.latitudeE6.toInt / 1000000 ∧
      line.longitude = record.longitudeE6.toInt / 1000000 ∧
      some line.timestamp = Rfc3339.parse (cString record.recordedAt) := by
  have hrecord := slotRecord_of_push fix.pushed
  have hof := (recordOf_toFixRecord fix.converted).stamp fix.store
  obtain ⟨-, -, hlat, hlat', hlon, hlon', -, -⟩ :=
    of_decide_eq_true (SamplingPolicy.validCoordinates_of_shouldUpload math fix.shouldUpload)
  obtain ⟨lat, hlatEq, hlatLo, hlatHi⟩ := Double.finite_of_between hlat hlat'
  obtain ⟨lon, hlonEq, hlonLo, hlonHi⟩ := Double.finite_of_between hlon hlon'
  generalize fix.store.stamp fix.record = record at hrecord hof
  have hlatE6 : -90 * 1000000 ≤ record.latitudeE6.toInt ∧
      record.latitudeE6.toInt ≤ 90 * 1000000 := by
    rw [hof.latitudeE6, show (enrich fix.live fix.poll.fix).latitude = .finite lat from hlatEq]
    exact scaled_between (-90 * 1000000) (90 * 1000000) (by norm_num) (by norm_num) (by norm_num)
      (by norm_num) (by push_cast; linarith) (by push_cast; linarith)
  have hlonE6 : -180 * 1000000 ≤ record.longitudeE6.toInt ∧
      record.longitudeE6.toInt ≤ 180 * 1000000 := by
    rw [hof.longitudeE6, show (enrich fix.live fix.poll.fix).longitude = .finite lon from hlonEq]
    exact scaled_between (-180 * 1000000) (180 * 1000000) (by norm_num) (by norm_num)
      (by norm_num) (by norm_num) (by push_cast; linarith) (by push_cast; linarith)
  obtain rfl : uploadItem number drained record = item := by
    rw [QueuedFix.item, hrecord] at hitem
    exact Option.some.inj hitem
  refine ⟨record, csvLine p, hrecord, readLine_csvRecord print hp, ?_, ?_, ?_⟩
  · have hmember : some p.latitude = some _ :=
      hstored.latitude.trans (coordinate_member_eq 90 (by norm_num) (by norm_num) hlatE6)
    show Decimal.rounded 6 p.latitude = _
    rw [Option.some.inj hmember, rounded_uploaded hnumber (by omega)]
  · have hmember : some p.longitude = some _ :=
      hstored.longitude.trans (coordinate_member_eq 180 (by norm_num) (by norm_num) hlonE6)
    show Decimal.rounded 6 p.longitude = _
    rw [Option.some.inj hmember, rounded_uploaded hnumber (by omega)]
  · have hparse : some p.recordedAt = Rfc3339.parse (cString record.recordedAt) :=
      hstored.recordedAt
    have htext : record.recordedAt = snprintf (timestamp fix.poll.yy fix.poll.mo fix.poll.dd
        fix.poll.hh fix.poll.mi fix.poll.ss) := hof.recordedAt
    have hwhole : 1000000 ∣ p.recordedAt := by
      rw [htext] at hparse
      exact Rfc3339.dvd_of_parse (not_mem_timestamp (by decide) (by decide))
        (not_mem_timestamp (by decide) (by decide)) hparse.symm
    show some (p.recordedAt / 1000000 * 1000000) = _
    rw [Int.ediv_mul_cancel hwhole, hparse]

end

theorem nineDecimals_sharp : SharpNumbers nineDecimals := by
  intro x _
  have hle := Int.floor_le (x * 10 ^ 9 + 1 / 2)
  have hlt := Int.lt_floor_add_one (x * 10 ^ 9 + 1 / 2)
  rw [nineDecimals, abs_le]
  constructor <;> linarith

/-- The point of the first fix, by its place and time. -/
def firstPoint : TelemetryPoint ℕ ℚ :=
  ⟨⟨7, 1784116800000000, 311 / 16, -793 / 8, none, none⟩, none, none, none⟩

set_option maxRecDepth 20000 in
theorem exported_fix_first : ∃ fix item record line,
    firstFix (.finite 2240) = some fix ∧ fix.item nineDecimals ⟨3600, 18⟩ = some item ∧
      slotRecord (fix.disk'.files .data) fix.store.queueMeta.head = some record ∧
      readLine utcPrinters (csvRecord utcPrinters firstPoint) = some line ∧
      line.latitude = record.latitudeE6.toInt / 1000000 ∧
      line.longitude = record.longitudeE6.toInt / 1000000 ∧
      some line.timestamp = Rfc3339.parse (cString record.recordedAt) := by
  obtain ⟨item, hitem, hvalues⟩ := Option.map_eq_some_iff.mp
    (show ((firstFix (.finite 2240)).bind (QueuedFix.item · nineDecimals ⟨3600, 18⟩)).map
      (fun item => (Rfc3339.parse item.recordedAt, item.latitude, item.longitude)) =
        some (some firstPoint.recordedAt, some firstPoint.latitude, some firstPoint.longitude) by
      decide +kernel)
  obtain ⟨htime, hplace⟩ := Prod.mk.inj hvalues
  obtain ⟨hlatitude, hlongitude⟩ := Prod.mk.inj hplace
  obtain ⟨fix, hfix, hitem⟩ := Option.bind_eq_some_iff.mp hitem
  have hnone : ∀ x ∈ (none : Option ℚ), Binary64.Representable x := fun x hx => by cases hx
  obtain ⟨record, line, hall⟩ := exported_fix utcPrinters nineDecimals_sharp fix ⟨3600, 18⟩ hitem
    ⟨htime.symm, hlatitude.symm, hlongitude.symm⟩ ⟨by decide, hnone, hnone, hnone, hnone⟩
  exact ⟨fix, item, record, line, hfix, hitem, hall⟩

end OpenGps.Uplink
