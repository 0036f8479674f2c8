import Mathlib.Algebra.Order.Ring.Int
import Mathlib.Tactic.Ring
import OpenGps.Backend.LocationReads
import OpenGps.Lib.Query

/-!
# Pages of the history

`GET /devices/:id/locations` cuts the points of a window into pages. The offset of a page is a
64-bit product that the adapter narrows to the 32 bits of the SQL parameter, so that a page far
behind the last one may show points again or fail. The bounds of the window have nanoseconds, of
which the driver keeps the microseconds, so that a point at a bound may be on the wrong side of it.
-/

namespace OpenGps.Backend

open OpenGps.Lib

variable {δ : Type} [DecidableEq δ]

/-! ## The points of a window -/

namespace Database

variable (db : Database δ) (device : δ) (start stop : Time)

/-- The points of a window in the order of the history. -/
def newestFirst : List (Location δ) :=
  (db.locationsIn device start stop).mergeSort fun a b => b.recordedAt ≤ a.recordedAt

/-- `(device_id, recorded_at)` is the key of the table. -/
theorem locationsIn_pairwise :
    (db.locationsIn device start stop).Pairwise fun a b => a.recordedAt ≠ b.recordedAt := by
  rw [locationsIn, List.pairwise_filterMap, Table.rows, List.pairwise_map]
  have hkeys := List.nodupKeys_iff_pairwise.mp db.locations.nodupKeys
  refine hkeys.imp fun {x y} hne a ha b hb heq => hne ?_
  dsimp only at ha hb
  split at ha
  · next hx =>
    split at hb
    · next hy =>
      cases ha
      cases hb
      exact Prod.ext (hx.1.trans hy.1.symm) heq
    · cases hb
  · cases ha

theorem newestFirst_perm :
    (db.newestFirst device start stop).Perm (db.locationsIn device start stop) :=
  List.mergeSort_perm _ _

theorem length_newestFirst :
    (db.newestFirst device start stop).length = (db.locationsIn device start stop).length :=
  (db.newestFirst_perm device start stop).length_eq

theorem newestFirst_pairwise :
    (db.newestFirst device start stop).Pairwise fun a b => b.recordedAt < a.recordedAt := by
  have hne := db.locationsIn_pairwise device start stop
  exact Query.orderBy_pairwise (fun a : Location δ => OrderDual.toDual a.recordedAt) hne

variable {db device start stop} in
theorem mem_locationsIn {a : Location δ} : a ∈ db.locationsIn device start stop ↔
    ∃ recordedAt row, db.locations.lookup (device, recordedAt) = some row ∧
      (start ≤ recordedAt ∧ recordedAt < stop) ∧ a = locationFromRow device recordedAt row := by
  rw [locationsIn, List.mem_filterMap]
  constructor
  · rintro ⟨⟨⟨d, recordedAt⟩, row⟩, hrow, ha⟩
    dsimp only at ha
    split at ha
    · next hwindow =>
      obtain ⟨rfl, hwindow⟩ := hwindow
      cases ha
      exact ⟨recordedAt, row, Table.mem_rows.mp hrow, hwindow, rfl⟩
    · cases ha
  · rintro ⟨recordedAt, row, hrow, hwindow, rfl⟩
    exact ⟨((device, recordedAt), row), Table.mem_rows.mpr hrow, if_pos ⟨rfl, hwindow⟩⟩

end Database

/-! ## Bounds below the microsecond -/

/-- The first microsecond that is not before the instant. -/
def Nanos.ceil (t : Nanos) : Time := -(-t / 1000)

theorem Nanos.ceil_le_iff {t : Nanos} {s : Time} : t.ceil ≤ s ↔ t ≤ .ofTime s := by
  rw [Nanos.ceil, neg_le, Int.le_ediv_iff_mul_le (by decide), neg_mul, neg_le_neg_iff]
  rfl

namespace Database

variable (codec : TimestampCodec) (db : Database δ) (device : δ) (start stop : Nanos)

/-- The points recorded in `[from, to)`. -/
def pointsBetween : List (Location δ) :=
  db.locations.rows.filterMap fun x =>
    if x.1.1 = device ∧ start ≤ .ofTime x.1.2 ∧ .ofTime x.1.2 < stop then
      some (locationFromRow device x.1.2 x.2)
    else none

theorem pointsBetween_eq :
    db.pointsBetween device start stop = db.locationsIn device start.ceil stop.ceil := by
  simp only [pointsBetween, locationsIn, Nanos.ceil_le_iff, ← not_le]

/-- What the driver writes of the bounds selects the points of the window. -/
def WindowKept : Prop :=
  ∀ recordedAt, (device, recordedAt) ∈ db.locations →
    (codec.encode start ≤ recordedAt ∧ recordedAt < codec.encode stop ↔
      start ≤ .ofTime recordedAt ∧ .ofTime recordedAt < stop)

/-- What the queries select. -/
def selected : List (Location δ) :=
  db.locationsIn device (codec.encode start) (codec.encode stop)

def selectedNewest : List (Location δ) :=
  db.newestFirst device (codec.encode start) (codec.encode stop)

variable {codec db device start stop}

omit [DecidableEq δ] in
/-- Bounds that are whole microseconds are kept. -/
theorem windowKept_ofTime (codec : TimestampCodec) (db : Database δ) (device : δ)
    (start stop : Time) : db.WindowKept codec device (.ofTime start) (.ofTime stop) := by
  intro recordedAt _
  rw [codec.encode_ofTime, codec.encode_ofTime]
  exact and_congr (mul_le_mul_iff_of_pos_right (by decide)).symm
    (mul_lt_mul_iff_of_pos_right (by decide)).symm

theorem mem_pointsBetween {a : Location δ} : a ∈ db.pointsBetween device start stop ↔
    ∃ recordedAt row, db.locations.lookup (device, recordedAt) = some row ∧
      (start ≤ .ofTime recordedAt ∧ .ofTime recordedAt < stop) ∧
        a = locationFromRow device recordedAt row := by
  simp only [pointsBetween_eq, mem_locationsIn, Nanos.ceil_le_iff, ← not_le]

theorem WindowKept.selected_eq (h : db.WindowKept codec device start stop) :
    db.selected codec device start stop = db.pointsBetween device start stop := by
  refine List.filterMap_congr fun x hx => ?_
  by_cases hd : x.1.1 = device
  · have hmem : (device, x.1.2) ∈ db.locations := by
      rw [← hd]
      exact AList.lookup_isSome.mp (by rw [Table.mem_rows.mp hx]; rfl)
    simp only [hd, true_and, h x.1.2 hmem]
  · simp only [hd, false_and]

/-- Only a point just before the window is selected wrongly. -/
theorem lt_of_selected {a b : Location δ} (ha : a ∈ db.selected codec device start stop)
    (hnot : a ∉ db.pointsBetween device start stop)
    (hb : b ∈ db.pointsBetween device start stop) : a.recordedAt < b.recordedAt := by
  obtain ⟨s, row, hrow, ⟨hfrom, hto⟩, rfl⟩ := mem_locationsIn.mp ha
  obtain ⟨t, -, -, ⟨hstart, -⟩, rfl⟩ := mem_pointsBetween.mp hb
  have hbefore : Nanos.ofTime s < start := by
    by_contra hge
    refine hnot (mem_pointsBetween.mpr ⟨s, row, hrow, ⟨not_lt.mp hge, ?_⟩, rfl⟩)
    by_contra hpast
    exact absurd (codec.encode_le (not_lt.mp hpast)) (not_le.mpr hto)
  have hlt : (s : Int) * 1000 < (t : Int) * 1000 := hbefore.trans_le hstart
  exact lt_of_mul_lt_mul_right hlt (by decide)

/-- Only a point just before the end of the window is missed. -/
theorem lt_of_missed {a b : Location δ} (ha : a ∈ db.pointsBetween device start stop)
    (hnot : a ∉ db.selected codec device start stop)
    (hb : b ∈ db.selected codec device start stop) : b.recordedAt < a.recordedAt := by
  obtain ⟨s, row, hrow, ⟨hstart, -⟩, rfl⟩ := mem_pointsBetween.mp ha
  obtain ⟨t, -, -, ⟨-, hto⟩, rfl⟩ := mem_locationsIn.mp hb
  have hpast : codec.encode stop ≤ s := by
    by_contra hlt
    exact hnot (mem_locationsIn.mpr ⟨s, row, hrow, ⟨codec.encode_le hstart, not_le.mp hlt⟩, rfl⟩)
  exact hto.trans_le hpast

theorem windowKept_of_mem_iff (h : ∀ a, a ∈ db.selected codec device start stop ↔
    a ∈ db.pointsBetween device start stop) : db.WindowKept codec device start stop := by
  intro recordedAt hmem
  obtain ⟨row, hrow⟩ := Option.isSome_iff_exists.mp (AList.lookup_isSome.mpr hmem)
  have hiff := h (locationFromRow device recordedAt row)
  rw [selected, mem_locationsIn, mem_pointsBetween] at hiff
  constructor
  · intro hin
    obtain ⟨t, _, -, hwindow, heq⟩ := hiff.mp ⟨recordedAt, row, hrow, hin, rfl⟩
    obtain rfl : recordedAt = t := congrArg (fun a : Location δ => a.recordedAt) heq
    exact hwindow
  · intro hin
    obtain ⟨t, _, -, hwindow, heq⟩ := hiff.mpr ⟨recordedAt, row, hrow, hin, rfl⟩
    obtain rfl : recordedAt = t := congrArg (fun a : Location δ => a.recordedAt) heq
    exact hwindow

end Database

/-! ## Pages -/

/-- The `page`-th slice of `pageSize` points. -/
def historySlice (points : List (Location δ)) (page pageSize : Int) : List (Location δ) :=
  (points.drop ((page - 1) * pageSize).toNat).take pageSize.toNat

/-- `History` rounds up. -/
def totalPages (total pageSize : Int) : Int :=
  total / pageSize + if total % pageSize > 0 then 1 else 0

theorem parsePagination_bounds (page pageSize : Option Int) :
    1 ≤ (parsePagination page pageSize).1 ∧ 1 ≤ (parsePagination page pageSize).2 ∧
      (parsePagination page pageSize).2 ≤ maxPageSize := by
  unfold parsePagination defaultPage defaultPageSize maxPageSize
  dsimp only
  refine ⟨?_, ?_, ?_⟩
  all_goals
    split <;> omega

/-- The product wraps in 64 bits, of which the parameter has the lower half. -/
theorem toInt32_bmod (offset : Int) :
    Database.toInt32 (offset.bmod (2 ^ 64)) = Database.toInt32 offset := by
  rw [Database.toInt32, Database.toInt32, Int.bmod_bmod_of_dvd]
  exact ⟨2 ^ 32, by decide⟩

/-- `Service.GetHistory`, whose product has 64 bits. -/
def serviceGetHistory (codec : TimestampCodec) (db : Database δ) (device : δ) (start stop : Nanos)
    (page pageSize : Int) : Option (List (Location δ) × Int) :=
  db.getHistory codec device start stop pageSize (((page - 1) * pageSize).bmod (2 ^ 64))

section
variable {codec : TimestampCodec} {db : Database δ} {device : δ} {start stop : Nanos}
  {page pageSize : Int}

theorem serviceGetHistory_eq :
    serviceGetHistory codec db device start stop page pageSize =
      db.getHistory codec device start stop pageSize ((page - 1) * pageSize) := by
  rw [serviceGetHistory, Database.getHistory, Database.getHistory, toInt32_bmod]

theorem getHistory_eq (hpage : 1 ≤ pageSize ∧ pageSize ≤ maxPageSize) (offset : Int) :
    db.getHistory codec device start stop pageSize offset =
      if Database.toInt32 offset < 0 then none
      else some (((db.selectedNewest codec device start stop).drop
        (Database.toInt32 offset).toNat).take pageSize.toNat,
          ((db.selectedNewest codec device start stop).length : Int)) := by
  have hlimit : Database.toInt32 pageSize = pageSize := by
    have hmax : maxPageSize = 100 := rfl
    exact Int.bmod_eq_of_le (by omega) (by omega)
  rw [Database.getHistory, hlimit, Database.selectedNewest, db.length_newestFirst]
  rfl

/-- The handler on a range that is accepted. -/
theorem historyHandler_eq {range : RangeQuery}
    (hrange : parseLocationRange range = .ok (start, stop)) (page pageSize : Option Int) :
    historyHandler codec db device range page pageSize =
      match serviceGetHistory codec db device start stop (parsePagination page pageSize).1
        (parsePagination page pageSize).2 with
      | none => .error ⟨500, "internal server error"⟩
      | some (items, total) =>
        .ok (.history items (parsePagination page pageSize).1 (parsePagination page pageSize).2
          total (totalPages total (parsePagination page pageSize).2)) := by
  rw [historyHandler, hrange, serviceGetHistory_eq]
  rfl

end

/-! ## The pages of a window -/

namespace Database

variable (db : Database δ) (device : δ) (start stop : Nanos)

/-- The points of `[from, to)` in the order of the history. -/
def newestBetween : List (Location δ) :=
  (db.pointsBetween device start stop).mergeSort fun a b => b.recordedAt ≤ a.recordedAt

theorem newestBetween_eq :
    db.newestBetween device start stop = db.newestFirst device start.ceil stop.ceil := by
  rw [newestBetween, newestFirst, pointsBetween_eq]

theorem newestBetween_perm :
    (db.newestBetween device start stop).Perm (db.pointsBetween device start stop) :=
  List.mergeSort_perm _ _

theorem newestBetween_pairwise :
    (db.newestBetween device start stop).Pairwise fun a b => b.recordedAt < a.recordedAt := by
  rw [newestBetween_eq]
  exact db.newestFirst_pairwise device start.ceil stop.ceil

end Database

/-- The request is answered with the slice of its page. -/
def AnswersPage (codec : TimestampCodec) (db : Database δ) (device : δ) (range : RangeQuery)
    (start stop : Nanos) (page pageSize : Option Int) : Prop :=
  let points := db.newestBetween device start stop
  let number := (parsePagination page pageSize).1
  let size := (parsePagination page pageSize).2
  historyHandler codec db device range page pageSize =
    .ok (.history (historySlice points number size) number size points.length
      (totalPages points.length size))

section
variable {codec : TimestampCodec} {db : Database δ} {device : δ} {range : RangeQuery}
  {start stop : Nanos}

/-- An answer with these points is the answer of the service. -/
theorem historyHandler_eq_ok_iff (hrange : parseLocationRange range = .ok (start, stop))
    {page pageSize : Option Int} {items : List (Location δ)} {total : Int} :
    historyHandler codec db device range page pageSize =
        .ok (.history items (parsePagination page pageSize).1 (parsePagination page pageSize).2 total
          (totalPages total (parsePagination page pageSize).2)) ↔
      serviceGetHistory codec db device start stop (parsePagination page pageSize).1
        (parsePagination page pageSize).2 = some (items, total) := by
  rw [historyHandler_eq hrange]
  cases serviceGetHistory codec db device start stop (parsePagination page pageSize).1
      (parsePagination page pageSize).2 with
  | none =>
    constructor
    · intro h
      cases h
    · intro h
      cases h
  | some found =>
    constructor
    · intro h
      cases h
      rfl
    · intro h
      cases h
      rfl

/-- The first page, if it is answered with its slice: as many points are selected as the window has,
and the first of them are the same. -/
theorem first_of_answersPage (hrange : parseLocationRange range = .ok (start, stop))
    {pageSize : Option Int} (h : AnswersPage codec db device range start stop none pageSize) :
    (db.selectedNewest codec device start stop).length =
        (db.newestBetween device start stop).length ∧
      (db.selectedNewest codec device start stop).take (parsePagination none pageSize).2.toNat =
        (db.newestBetween device start stop).take (parsePagination none pageSize).2.toNat := by
  have hsize := (parsePagination_bounds none pageSize).2
  have hpage : (parsePagination none pageSize).1 = 1 := rfl
  have hread := (historyHandler_eq_ok_iff hrange).mp h
  rw [serviceGetHistory_eq, getHistory_eq hsize, historySlice, hpage, sub_self, zero_mul,
    if_neg (by decide), Option.some_inj, Prod.mk.injEq] at hread
  exact ⟨Int.ofNat_inj.mp hread.2, hread.1⟩

/-- In any other window already the first page has other points. -/
theorem not_answersPage_first (hrange : parseLocationRange range = .ok (start, stop))
    (hnot : ¬ db.WindowKept codec device start stop) (pageSize : Option Int) :
    ¬ AnswersPage codec db device range start stop none pageSize := by
  intro hanswers
  obtain ⟨hlength, hfirst⟩ := first_of_answersPage hrange hanswers
  have hsize := (parsePagination_bounds none pageSize).2.1
  have hselected : ∀ a, a ∈ db.selectedNewest codec device start stop ↔
      a ∈ db.selected codec device start stop := fun a => (db.newestFirst_perm ..).mem_iff
  have hbetween : ∀ a, a ∈ db.newestBetween device start stop ↔
      a ∈ db.pointsBetween device start stop := fun a => (db.newestBetween_perm ..).mem_iff
  -- A missed point is the newest of the window, which the first page shows.
  have hsub : db.newestBetween device start stop ⊆ db.selectedNewest codec device start stop := by
    intro a ha
    by_contra hmissed
    rw [hselected] at hmissed
    have hpairwise := db.newestBetween_pairwise device start stop
    cases hpoints : db.newestBetween device start stop with
    | nil =>
      rw [hpoints] at ha
      cases ha
    | cons newest rest =>
      have hshown : newest ∈ db.selected codec device start stop := by
        rw [← hselected]
        refine List.mem_of_mem_take (i := (parsePagination none pageSize).2.toNat) ?_
        rw [hfirst, hpoints, List.take_cons (by omega)]
        exact List.mem_cons_self
      have hlt := Database.lt_of_missed ((hbetween a).mp ha) hmissed hshown
      rw [hpoints] at ha hpairwise
      rcases List.mem_cons.mp ha with rfl | hrest
      · exact lt_irrefl _ hlt
      · exact lt_asymm hlt ((List.pairwise_cons.mp hpairwise).1 a hrest)
  have hnodup : (db.newestBetween device start stop).Nodup :=
    (db.newestBetween_pairwise device start stop).imp fun h heq => by
      rw [heq] at h
      exact lt_irrefl _ h
  have hperm := (List.subperm_of_subset hnodup hsub).perm_of_length_le hlength.le
  exact hnot (Database.windowKept_of_mem_iff fun a => by
    rw [← hselected, ← hbetween, hperm.mem_iff])

end

/-- A tracker with one fix. -/
def oneFixStored : Database Nat where
  devices := AList.singleton 7 ⟨some 5, none⟩
  locations := AList.singleton (7, 3) ⟨10, 20, none, none, none, none, none⟩
  locationIngestKeys := ∅

/-- A window that ends within the microsecond of the fix: the fix is missed. -/
theorem history_misses_last :
    ¬ AnswersPage microsecondCodec oneFixStored 7 ⟨true, true, some 0, some 3500⟩ 0 3500 none
      none := by
  refine not_answersPage_first rfl (fun hkept => ?_) none
  have hwindow := hkept 3 (List.mem_singleton_self _)
  revert hwindow
  decide +kernel

end OpenGps.Backend
