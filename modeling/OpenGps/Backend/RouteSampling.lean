import OpenGps.Backend.Reports

/-!
# Down-sampling of a route (`samplePoints`)

A route with more points than fit keeps `max` of them, at positions scaled from `0 … max - 1` to
`0 … n - 1` in integers. `samplePointsChecked` is the loop with the two ways it could panic; it does
not, and its result is the one the report uses. The numbers are exact: for the limit of the report,
`maxRoutePoints`, the positions are those that Go computes in 64 bits, for any list that fits in
memory (`toInt_goPosition`).
-/

namespace OpenGps.Backend.Reports

/-! ## Positions -/

/-- The position of the `i`-th point kept out of `n`. -/
def samplePosition (n max i : ℕ) : ℕ := i * (n - 1) / (max - 1)

section Position
variable {n max : ℕ}

@[simp] theorem samplePosition_zero : samplePosition n max 0 = 0 := by
  simp [samplePosition]

/-- The last point kept is the last one there is. -/
theorem samplePosition_last (hmax : 2 ≤ max) : samplePosition n max (max - 1) = n - 1 := by
  rw [samplePosition, Nat.mul_div_cancel_left _ (by omega)]

theorem samplePosition_lt_succ (hmax : 2 ≤ max) (hn : max ≤ n) (i : ℕ) :
    samplePosition n max i < samplePosition n max (i + 1) := by
  -- One step adds at least a whole divisor.
  have hstep : i * (n - 1) + (max - 1) ≤ (i + 1) * (n - 1) := by
    rw [Nat.succ_mul]
    omega
  calc samplePosition n max i
      < i * (n - 1) / (max - 1) + 1 := Nat.lt_succ_self _
    _ = (i * (n - 1) + (max - 1)) / (max - 1) := (Nat.add_div_right _ (by omega)).symm
    _ ≤ samplePosition n max (i + 1) := Nat.div_le_div_right hstep

theorem samplePosition_strictMono (hmax : 2 ≤ max) (hn : max ≤ n) :
    StrictMono (samplePosition n max) :=
  strictMono_nat_of_lt_succ (samplePosition_lt_succ hmax hn)

theorem samplePosition_lt (hmax : 2 ≤ max) (hn : max ≤ n) {i : ℕ} (hi : i < max) :
    samplePosition n max i < n := by
  have hle : samplePosition n max i ≤ samplePosition n max (max - 1) :=
    (samplePosition_strictMono hmax hn).monotone (by omega)
  rw [samplePosition_last hmax] at hle
  omega

/-- The product fits in 64 bits for every route a report samples. -/
theorem samplePosition_product_lt {i : ℕ} (hi : i < maxRoutePoints) (hn : n ≤ 2 ^ 53) :
    i * (n - 1) < 2 ^ 63 := by
  calc i * (n - 1) ≤ 999 * 2 ^ 53 := Nat.mul_le_mul (Nat.le_of_lt_succ hi) (by omega)
    _ < 2 ^ 63 := by decide

/-- The position as Go computes it. -/
def goPosition (n max i : ℕ) : Int64 := Int64.ofNat i * Int64.ofNat (n - 1) / Int64.ofNat (max - 1)

theorem toInt_goPosition {i : ℕ} (hi : i < maxRoutePoints) (hn : n ≤ 2 ^ 53) :
    (goPosition n maxRoutePoints i).toInt = samplePosition n maxRoutePoints i := by
  have hproduct := samplePosition_product_lt hi hn
  have hmul : (Int64.ofNat i * Int64.ofNat (n - 1)).toInt = (i * (n - 1) : ℕ) := by
    rw [Int64.toInt_mul, Int64.toInt_ofNat_of_lt (by unfold maxRoutePoints at hi; omega),
      Int64.toInt_ofNat_of_lt (by omega), ← Nat.cast_mul]
    exact Int.bmod_eq_of_le_mul_two (by omega) (by omega)
  have hdivisor : (Int64.ofNat (maxRoutePoints - 1)).toInt = (maxRoutePoints - 1 : ℕ) := by decide
  rw [goPosition, Int64.toInt_div_of_ne_right _ _ (by decide), hmul, hdivisor, samplePosition]
  exact Int.ofNat_tdiv _ _

end Position

/-! ## The loop -/

/-- How the loop could panic. -/
inductive SamplePanic where
  | integerDivideByZero
  | indexOutOfRange
  deriving DecidableEq, Repr

variable {δ K : Type}

/-- One iteration: the point to append. -/
def samplePoint (points : List (Point δ K)) (max i : ℕ) : Except SamplePanic (Point δ K) :=
  if max - 1 = 0 then .error .integerDivideByZero
  else
    match points[samplePosition points.length max i]? with
    | some point => .ok point
    | none => .error .indexOutOfRange

def samplePointsChecked (points : List (Point δ K)) (max : ℕ) :
    Except SamplePanic (List (Point δ K)) :=
  if points.length ≤ max then .ok points
  else (List.range max).mapM (samplePoint points max)

section Sampled
variable {points : List (Point δ K)} {max : ℕ}

theorem samplePoints_of_le (h : points.length ≤ max) : samplePoints points max = points :=
  if_pos h

theorem samplePoints_of_lt (h : max < points.length) :
    samplePoints points max =
      (List.range max).filterMap fun i => points[samplePosition points.length max i]? :=
  if_neg (not_le.mpr h)

/-- The points kept are the ones at the scaled positions, none of which is out of range. -/
theorem map_some_samplePoints (hmax : 2 ≤ max) (h : max < points.length) :
    (samplePoints points max).map some =
      (List.range max).map fun i => points[samplePosition points.length max i]? := by
  rw [samplePoints_of_lt h, List.map_filterMap_some_eq_filter_map_isSome, List.filter_eq_self]
  intro o ho
  obtain ⟨i, hi, rfl⟩ := List.mem_map.mp ho
  simpa using samplePosition_lt hmax h.le (List.mem_range.mp hi)

/-- The points of a report's route are the ones at the positions that Go computes. -/
theorem samplePoints_go (h : maxRoutePoints < points.length) (hmemory : points.length ≤ 2 ^ 53) :
    (samplePoints points maxRoutePoints).map some = (List.range maxRoutePoints).map fun i =>
      points[(goPosition points.length maxRoutePoints i).toInt.toNat]? := by
  rw [map_some_samplePoints (by decide) h]
  refine List.map_congr_left fun i hi => ?_
  rw [toInt_goPosition (List.mem_range.mp hi) hmemory, Int.toNat_natCast]

theorem length_samplePoints (hmax : 2 ≤ max) (h : max < points.length) :
    (samplePoints points max).length = max := by
  simpa using congrArg List.length (map_some_samplePoints hmax h)

theorem length_samplePoints_le (hmax : 2 ≤ max) (points : List (Point δ K)) :
    (samplePoints points max).length ≤ max := by
  rcases le_or_gt points.length max with h | h
  · rwa [samplePoints_of_le h]
  · exact (length_samplePoints hmax h).le

theorem getElem?_samplePoints (hmax : 2 ≤ max) (h : max < points.length) {k : ℕ} (hk : k < max) :
    (samplePoints points max)[k]? = points[samplePosition points.length max k]? := by
  have hat := congrArg (·[k]?) (map_some_samplePoints hmax h)
  obtain ⟨point, hsampled, hpoint⟩ : ∃ point, (samplePoints points max)[k]? = some point ∧
      some point = points[samplePosition points.length max k]? := by
    simpa [hk] using hat
  rw [hsampled, hpoint]

theorem head?_samplePoints (hmax : 2 ≤ max) (points : List (Point δ K)) :
    (samplePoints points max).head? = points.head? := by
  rcases le_or_gt points.length max with h | h
  · rw [samplePoints_of_le h]
  · rw [List.head?_eq_getElem?, getElem?_samplePoints hmax h (by omega), samplePosition_zero,
      List.head?_eq_getElem?]

theorem getLast?_samplePoints (hmax : 2 ≤ max) (points : List (Point δ K)) :
    (samplePoints points max).getLast? = points.getLast? := by
  rcases le_or_gt points.length max with h | h
  · rw [samplePoints_of_le h]
  · rw [List.getLast?_eq_getElem?, length_samplePoints hmax h,
      getElem?_samplePoints hmax h (by omega), samplePosition_last hmax, List.getLast?_eq_getElem?]

/-- No iteration panics. -/
theorem samplePointsChecked_eq (hmax : 2 ≤ max) (points : List (Point δ K)) :
    samplePointsChecked points max = .ok (samplePoints points max) := by
  rcases le_or_gt points.length max with h | h
  · rw [samplePointsChecked, if_pos h, samplePoints_of_le h]
  rw [samplePointsChecked, if_neg (not_le.mpr h), samplePoints_of_lt h]
  have hall : ∀ i ∈ List.range max, i < max := fun i hi => List.mem_range.mp hi
  generalize List.range max = is at hall
  induction is with
  | nil => rfl
  | cons i is ih =>
    have hi : samplePosition points.length max i < points.length :=
      samplePosition_lt hmax h.le (hall i (List.mem_cons_self ..))
    have hpoint : samplePoint points max i = .ok points[samplePosition points.length max i] := by
      rw [samplePoint, if_neg (by omega), List.getElem?_eq_getElem hi]
    rw [List.mapM_cons, hpoint, ih fun j hj => hall j (List.mem_cons_of_mem _ hj),
      List.filterMap_cons, List.getElem?_eq_getElem hi]
    rfl

/-- Down-sampling keeps a short list as it is, and of a longer one exactly `max` points, at strictly
increasing positions from the first to the last. It divides by zero for no list and reads no
position out of range. -/
theorem samplePoints_evenly (points : List (Point δ K)) {max : ℕ} (hmax : 2 ≤ max) :
    samplePointsChecked points max = .ok (samplePoints points max) ∧
    (points.length ≤ max → samplePoints points max = points) ∧
    (max < points.length → ∃ positions : List ℕ,
      positions.length = max ∧ positions.Pairwise (· < ·) ∧ positions.head? = some 0 ∧
      positions.getLast? = some (points.length - 1) ∧ (∀ k ∈ positions, k < points.length) ∧
      (samplePoints points max).map some = positions.map fun k => points[k]?) := by
  refine ⟨samplePointsChecked_eq hmax points, samplePoints_of_le, fun h => ?_⟩
  have hmono := samplePosition_strictMono hmax h.le
  refine ⟨(List.range max).map (samplePosition points.length max), ?_, ?_, ?_, ?_, ?_, ?_⟩
  · simp
  · exact List.pairwise_map.mpr (List.pairwise_lt_range.imp fun hij => hmono hij)
  · rw [List.head?_map, List.head?_range, if_neg (by omega), Option.map_some, samplePosition_zero]
  · rw [List.getLast?_map, List.getLast?_range, if_neg (by omega), Option.map_some,
      samplePosition_last hmax]
  · intro k hk
    obtain ⟨i, hi, rfl⟩ := List.mem_map.mp hk
    exact samplePosition_lt hmax h.le (List.mem_range.mp hi)
  · rw [map_some_samplePoints hmax h, List.map_map]
    rfl

/-- Three of five points are the first, the middle one and the last. -/
theorem samplePoints_three_of_five : ∃ points : List (Point ℕ ℕ), points.length = 5 ∧
    samplePointsChecked points 3 = .ok (samplePoints points 3) ∧
    (∃ positions : List ℕ, positions.length = 3 ∧ positions.Pairwise (· < ·) ∧
      (samplePoints points 3).map some = positions.map fun k => points[k]?) ∧
    (samplePoints points 3).map (·.recordedAt) = [0, 2, 4] := by
  let points : List (Point ℕ ℕ) := (List.range 5).map fun i => ⟨0, i, 0, 0, none, none⟩
  obtain ⟨hchecked, -, hlong⟩ := samplePoints_evenly points (show 2 ≤ 3 by decide)
  obtain ⟨positions, hlen, hpair, -, -, -, hsampled⟩ := hlong (by decide)
  exact ⟨points, rfl, hchecked, ⟨positions, hlen, hpair, hsampled⟩, by decide⟩

end Sampled

/-! ## The routes of a report -/

section Routes
variable [Field K] [LinearOrder K] {dist : DistanceFunction δ K}

theorem routeOf_geometry {device : δ} {session : List (Point δ K)} {route : RouteSummary δ K}
    (h : routeOf dist device session = some route) :
    route.points.length ≤ maxRoutePoints ∧
      route.points.head?.map (·.recordedAt) = some route.startedAt ∧
      route.points.getLast?.map (·.recordedAt) = some route.endedAt := by
  have hmax : 2 ≤ maxRoutePoints := by decide
  unfold routeOf at h
  split at h
  · cases h
  split at h
  · next first last hfirst hlast =>
    cases h
    refine ⟨length_samplePoints_le hmax session, ?_, ?_⟩
    · rw [routeSummary, head?_samplePoints hmax, hfirst]
      rfl
    · rw [routeSummary, getLast?_samplePoints hmax, hlast]
      rfl
  · cases h

/-- The geometry of every route in a report is limited, and starts and ends where the route does. -/
theorem routes_geometry [DecidableEq δ] {filter : Filter} {repo : Except String (Dataset δ K)}
    {report : List (RouteSummary δ K)} (h : routes dist filter repo = .ok report)
    {route : RouteSummary δ K} (hroute : route ∈ report) :
    route.points.length ≤ maxRoutePoints ∧
      route.points.head?.map (·.recordedAt) = some route.startedAt ∧
      route.points.getLast?.map (·.recordedAt) = some route.endedAt := by
  unfold routes at h
  split at h
  · cases h
  · cases h
    obtain ⟨device, -, hdevice⟩ := List.mem_flatMap.mp hroute
    obtain ⟨session, -, hsession⟩ := List.mem_filterMap.mp hdevice
    exact routeOf_geometry hsession

end Routes

end OpenGps.Backend.Reports
