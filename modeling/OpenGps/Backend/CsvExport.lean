import Mathlib.Data.List.Forall2
import OpenGps.Backend.ReportHealth
import OpenGps.Lib.Csv
import OpenGps.Lib.Decimal

/-!
# The export as CSV

`csvContent` (`internal/transport/http/handlers/reports.go`) writes a header and one record for each
point of the report. Read back as comma-separated values, the text has the points in their order: to
the second, the device, the coordinates to half of their sixth decimal, and of the optional values
those that the point has, each as it is stored.
-/

namespace OpenGps.Backend.Reports

open OpenGps.Lib

/-! ## Writing -/

/-- What `time`, `uuid` and `strconv` write, and what their parsers read back: the layout
`time.RFC3339` has no fraction of a second, and the shortest text of a float is that of no other. -/
structure CsvPrinters (δ : Type) where
  time : Time → String
  parseTime : String → Option Time
  device : δ → String
  parseDevice : String → Option δ
  shortest : ℚ → String
  parseFloat : String → Option ℚ
  time_read : ∀ t, Rfc3339.InCalendar t → parseTime (time t) = some (t / 1000000 * 1000000)
  device_read : ∀ d, parseDevice (device d) = some d
  shortest_read : ∀ x, Binary64.Representable x → parseFloat (shortest x) = some x
  parseFloat_empty : parseFloat "" = none

variable {δ : Type} (print : CsvPrinters δ)

/-- `optionalFloat` and `optionalInt`: an absent value is an empty field. -/
def optional {V : Type} (text : V → List Char) : Option V → List Char
  | none => []
  | some value => text value

def optionalFloat (value : Option ℚ) : List Char := optional (fun x => (print.shortest x).toList) value

def optionalInt (value : Option ℤ) : List Char := optional Decimal.intText value

def csvHeader : List (List Char) :=
  ["timestamp", "device_id", "latitude", "longitude", "speed_mps", "altitude_m", "accuracy_m",
    "battery_voltage_v", "signal_strength_csq"].map String.toList

def csvRecord (p : TelemetryPoint δ ℚ) : List (List Char) :=
  [(print.time p.recordedAt).toList, (print.device p.deviceID).toList,
    Decimal.fixedText 6 p.latitude, Decimal.fixedText 6 p.longitude, optionalFloat print p.speed,
    optionalFloat print p.altitude, optionalFloat print p.accuracy,
    optionalFloat print p.batteryVoltage, optionalInt p.signalStrength]

/-- Nothing is written to a builder that fails. -/
def csvContent (points : List (TelemetryPoint δ ℚ)) : String :=
  String.ofList (Csv.writeAll (csvHeader :: points.map (csvRecord print)))

/-! ## Reading -/

/-- A line of the report, as its reader has it. -/
structure CsvLine (δ : Type) where
  timestamp : Time
  device : δ
  latitude : ℚ
  longitude : ℚ
  speed : Option ℚ
  altitude : Option ℚ
  accuracy : Option ℚ
  batteryVoltage : Option ℚ
  signalStrength : Option ℤ

/-- An empty field is an absent value. -/
def readOptional {V : Type} (parse : List Char → Option V) (field : List Char) : Option (Option V) :=
  if field = [] then some none else (parse field).map some

def readFloat (field : List Char) : Option ℚ := print.parseFloat (String.ofList field)

def readLine : List (List Char) → Option (CsvLine δ)
  | [timestamp, device, latitude, longitude, speed, altitude, accuracy, batteryVoltage,
      signalStrength] => do
    return {
      timestamp := ← print.parseTime (String.ofList timestamp)
      device := ← print.parseDevice (String.ofList device)
      latitude := ← Decimal.read latitude
      longitude := ← Decimal.read longitude
      speed := ← readOptional (readFloat print) speed
      altitude := ← readOptional (readFloat print) altitude
      accuracy := ← readOptional (readFloat print) accuracy
      batteryVoltage := ← readOptional (readFloat print) batteryVoltage
      signalStrength := ← readOptional Decimal.readInt signalStrength }
  | _ => none

/-- The lines after the header. -/
def readReport (text : String) : Option (List (CsvLine δ)) := do
  let header :: records ← Csv.read text.toList | none
  if header = csvHeader then records.mapM (readLine print) else none

/-! ## The round trip -/

/-- The values of a point as the database has them: its instant is in the calendar, and its floats
are doubles. -/
structure Exportable (p : TelemetryPoint δ ℚ) : Prop where
  recordedAt : Rfc3339.InCalendar p.recordedAt
  speed : ∀ x ∈ p.speed, Binary64.Representable x
  altitude : ∀ x ∈ p.altitude, Binary64.Representable x
  accuracy : ∀ x ∈ p.accuracy, Binary64.Representable x
  batteryVoltage : ∀ x ∈ p.batteryVoltage, Binary64.Representable x

/-- The line of a point. -/
def csvLine (p : TelemetryPoint δ ℚ) : CsvLine δ where
  timestamp := p.recordedAt / 1000000 * 1000000
  device := p.deviceID
  latitude := Decimal.rounded 6 p.latitude
  longitude := Decimal.rounded 6 p.longitude
  speed := p.speed
  altitude := p.altitude
  accuracy := p.accuracy
  batteryVoltage := p.batteryVoltage
  signalStrength := p.signalStrength

/-- A line shows a point. -/
structure CsvLine.Shows (line : CsvLine δ) (p : TelemetryPoint δ ℚ) : Prop where
  timestamp : line.timestamp ≤ p.recordedAt ∧ p.recordedAt < line.timestamp + 1000000
  device : line.device = p.deviceID
  latitude : |line.latitude - p.latitude| ≤ 1 / 2000000
  longitude : |line.longitude - p.longitude| ≤ 1 / 2000000
  speed : line.speed = p.speed
  altitude : line.altitude = p.altitude
  accuracy : line.accuracy = p.accuracy
  batteryVoltage : line.batteryVoltage = p.batteryVoltage
  signalStrength : line.signalStrength = p.signalStrength

theorem csvLine_shows (p : TelemetryPoint δ ℚ) : (csvLine p).Shows p where
  timestamp := by
    have hsecond : ∀ t : ℤ, t / 1000000 * 1000000 ≤ t ∧ t < t / 1000000 * 1000000 + 1000000 := by
      omega
    exact hsecond p.recordedAt
  device := rfl
  latitude := (Decimal.abs_rounded_sub_le 6 p.latitude).trans_eq (by norm_num)
  longitude := (Decimal.abs_rounded_sub_le 6 p.longitude).trans_eq (by norm_num)
  speed := rfl
  altitude := rfl
  accuracy := rfl
  batteryVoltage := rfl
  signalStrength := rfl

theorem readOptional_optional {V : Type} {text : V → List Char} {parse : List Char → Option V}
    (hempty : parse [] = none) {value : Option V}
    (hread : ∀ v ∈ value, parse (text v) = some v) :
    readOptional parse (optional text value) = some value := by
  cases value with
  | none => rfl
  | some v =>
    have hv := hread v rfl
    have hne : text v ≠ [] := by
      intro h
      rw [h, hempty] at hv
      cases hv
    rw [optional, readOptional, if_neg hne, hv]
    rfl

theorem readFloat_optional {value : Option ℚ} (h : ∀ x ∈ value, Binary64.Representable x) :
    readOptional (readFloat print) (optionalFloat print value) = some value := by
  refine readOptional_optional print.parseFloat_empty fun x hx => ?_
  rw [readFloat, String.ofList_toList]
  exact print.shortest_read x (h x hx)

theorem readLine_csvRecord {p : TelemetryPoint δ ℚ} (h : Exportable p) :
    readLine print (csvRecord print p) = some (csvLine p) := by
  have hsignal : readOptional Decimal.readInt (optionalInt p.signalStrength) =
      some p.signalStrength :=
    readOptional_optional rfl fun n _ => Decimal.readInt_intText n
  simp only [csvRecord, readLine, String.ofList_toList, print.time_read _ h.recordedAt,
    print.device_read,
    Decimal.read_fixedText, readFloat_optional print h.speed, readFloat_optional print h.altitude,
    readFloat_optional print h.accuracy, readFloat_optional print h.batteryVoltage, hsignal,
    Option.bind_eq_bind, Option.bind_some, Option.pure_def]
  rfl

theorem readReport_csvContent {points : List (TelemetryPoint δ ℚ)} (h : ∀ p ∈ points, Exportable p) :
    readReport print (csvContent print points) = some (points.map csvLine) := by
  have hrecords : ∀ record ∈ csvHeader :: points.map (csvRecord print), record ≠ [] := by
    refine List.forall_mem_cons.mpr ⟨List.cons_ne_nil _ _, fun record hrecord => ?_⟩
    obtain ⟨p, -, rfl⟩ := List.mem_map.mp hrecord
    exact List.cons_ne_nil _ _
  rw [readReport, csvContent, String.toList_ofList, Csv.read_writeAll _ hrecords]
  simp only [Option.bind_eq_bind, Option.bind_some, if_true]
  clear hrecords
  induction points with
  | nil => rfl
  | cons p points ih =>
    obtain ⟨hp, hpoints⟩ := List.forall_mem_cons.mp h
    rw [List.map_cons, List.mapM_cons, readLine_csvRecord print hp, ih hpoints]
    rfl

/-- The report is read back: one line for each point, in their order, that shows it. -/
theorem csv_export_roundTrip {points : List (TelemetryPoint δ ℚ)} (h : ∀ p ∈ points, Exportable p) :
    ∃ lines, readReport print (csvContent print points) = some lines ∧
      List.Forall₂ CsvLine.Shows lines points := by
  refine ⟨_, readReport_csvContent print h, ?_⟩
  rw [List.forall₂_map_left_iff]
  exact List.forall₂_same.mpr fun p _ => csvLine_shows p

/-- A fraction, or a whole number as `strconv` writes it. -/
def fractionText (x : ℚ) : List Char :=
  if x.den = 1 then Decimal.intText x.num
  else Decimal.intText x.num ++ '/' :: Nat.toDigits 10 x.den

def readFraction (text : List Char) : Option ℚ := do
  let num ← Decimal.readInt (text.takeWhile (· ≠ '/'))
  let den := (text.dropWhile (· ≠ '/')).drop 1
  return if den = [] then num else num / Nat.ofDigitChars 10 den 0

theorem readFraction_fractionText (x : ℚ) : readFraction (fractionText x) = some x := by
  have hbefore : ∀ c ∈ Decimal.intText x.num, decide (c ≠ '/') = true := by
    intro c hc
    refine decide_eq_true ?_
    rintro rfl
    obtain hsign | hdigit := Decimal.mem_intText hc
    · cases hsign
    · exact absurd hdigit (by decide)
  unfold fractionText readFraction
  split
  · next hone =>
    rw [List.takeWhile_eq_self_iff.mpr hbefore, List.dropWhile_eq_nil_iff.mpr hbefore,
      Decimal.readInt_intText]
    exact congrArg some (Rat.coe_int_num_of_den_eq_one hone)
  · rw [List.takeWhile_append_of_pos hbefore, List.dropWhile_append_of_pos hbefore]
    simp only [List.takeWhile_cons, List.dropWhile_cons, ne_eq, not_true, decide_false,
      Bool.false_eq_true, if_false, List.append_nil, List.drop_succ_cons, List.drop_zero,
      Decimal.readInt_intText, Option.bind_eq_bind, Option.bind_some, Nat.toDigits_ne_nil,
      Nat.ofDigitChars_ten_toDigits]
    exact congrArg some x.num_div_den

/-- A server in UTC whose devices are numbers. -/
def utcPrinters : CsvPrinters ℕ where
  time t := String.ofList (Rfc3339.format (t / 1000000 * 1000000))
  parseTime text := Rfc3339.parse (Rfc3339.ascii text.toList)
  device d := String.ofList (Decimal.intText d)
  parseDevice text := (Decimal.readInt text.toList).map Int.toNat
  shortest x := String.ofList (fractionText x)
  parseFloat text := readFraction text.toList
  time_read t ht := by
    have hsecond : t / 1000000 * 1000000 / 1000000 = t / 1000000 := by omega
    rw [String.toList_ofList, Rfc3339.parse_format]
    unfold Rfc3339.InCalendar at ht ⊢
    rwa [hsecond]
  device_read d := by
    rw [String.toList_ofList, Decimal.readInt_intText]
    rfl
  shortest_read x _ := by rw [String.toList_ofList, readFraction_fractionText]
  parseFloat_empty := rfl

theorem csv_export_roundTrip_parked : ∃ lines, readReport utcPrinters (csvContent utcPrinters
      [⟨⟨7, 1767225600500000, 10, -20, some 100, none⟩, some 4, none, some 12⟩]) = some lines ∧
    List.Forall₂ CsvLine.Shows lines
      [⟨⟨7, 1767225600500000, 10, -20, some 100, none⟩, some 4, none, some 12⟩] :=
  csv_export_roundTrip utcPrinters (by
    refine List.forall_mem_singleton.mpr ⟨by decide, ?_, ?_, ?_, ?_⟩
    · intro x hx
      cases hx
    · intro x hx
      obtain rfl := Option.some.inj hx
      exact_mod_cast Binary64.representable_intCast (n := 100) (by norm_num)
    · intro x hx
      obtain rfl := Option.some.inj hx
      exact_mod_cast Binary64.representable_intCast (n := 4) (by norm_num)
    · intro x hx
      cases hx)

end OpenGps.Backend.Reports
