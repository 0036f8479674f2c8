import Mathlib.Data.List.Dedup
import Mathlib.Data.Nat.ModEq
import OpenGps.Backend.LocationHistory

/-!
# Sampled routes

`GET /devices/:id/locations/route` shows one point of each of `max_points` buckets of a window, and
its last point. The last point is one more than `max_points` where the last bucket has a second
point. As in the history, the driver may move a bound of the window across a point.
-/

namespace OpenGps.Backend

open OpenGps.Lib

/-! ## Buckets -/

namespace Database

section
variable {n count i j : ℕ}

/-- With no more rows than buckets, a row has a bucket of its own. -/
theorem ntile_of_le (h : count ≤ n) (hi : i < count) : ntile n count i = i := by
  obtain rfl | hlt := h.eq_or_lt
  · simp [ntile, Nat.div_self (by omega : 0 < count)]
  · simp only [ntile, Nat.div_eq_of_lt hlt, Nat.mod_eq_of_lt hlt]
    rw [if_pos (by omega), Nat.div_one]

/-- The number of rows in terms of the sizes of the buckets. -/
theorem ntile_sizes (hn : 0 < n) :
    count = count % n * (count / n + 1) + (n - count % n) * (count / n) := by
  have hmod := Nat.mod_lt count hn
  calc count = n * (count / n) + count % n := (Nat.div_add_mod count n).symm
    _ = (count % n + (n - count % n)) * (count / n) + count % n := by
      rw [Nat.add_sub_cancel' hmod.le]
    _ = count % n * (count / n + 1) + (n - count % n) * (count / n) := by ring

/-- The rows of the last bucket, counted from the end. -/
theorem ntile_last (hn : 0 < n) (hj : j < count / n) : ntile n count (count - 1 - j) = n - 1 := by
  have hmod := Nat.mod_lt count hn
  have hsizes := @ntile_sizes n count hn
  obtain ⟨e, he⟩ := Nat.exists_eq_succ_of_ne_zero (by omega : n - count % n ≠ 0)
  rw [he, Nat.succ_mul] at hsizes
  simp only [ntile]
  rw [if_neg (by omega), Nat.div_eq_of_lt_le (k := e) (by omega) (by rw [Nat.succ_mul]; omega)]
  omega

theorem succ_div_cases (a b : ℕ) : (a + 1) / b = a / b ∨ (a + 1) / b = a / b + 1 := by
  rw [Nat.succ_div]
  split
  · exact .inr rfl
  · exact .inl rfl

/-- From one row to the next, the bucket stays or goes up by one. -/
theorem ntile_succ (n count i : ℕ) :
    ntile n count (i + 1) = ntile n count i ∨ ntile n count (i + 1) = ntile n count i + 1 := by
  simp only [ntile]
  generalize count / n = size
  generalize count % n = longer
  obtain hlt | heq | hgt := Nat.lt_trichotomy (i + 1) (longer * (size + 1))
  · rw [if_pos hlt, if_pos (by omega)]
    exact succ_div_cases i (size + 1)
  · -- The last row of the longer buckets.
    obtain ⟨l, rfl⟩ := Nat.exists_eq_succ_of_ne_zero (by
      rintro rfl
      omega : longer ≠ 0)
    rw [if_neg (by omega), if_pos (by omega), ← heq, Nat.sub_self, Nat.zero_div]
    right
    rw [Nat.succ_mul] at heq
    rw [Nat.div_eq_of_lt_le (k := l) (by omega) (by rw [Nat.succ_mul]; omega)]
  · rw [if_neg (by omega), if_neg (by omega), Nat.sub_add_comm (by omega)]
    obtain h | h := succ_div_cases (i - longer * (size + 1)) size
    · rw [h]
      exact .inl rfl
    · rw [h]
      exact .inr rfl

theorem ntile_zero (n count : ℕ) : ntile n count 0 = 0 := by
  simp only [ntile, Nat.zero_div, Nat.zero_sub]
  split
  · rfl
  · next h =>
    obtain hzero | hzero := Nat.mul_eq_zero.mp (Nat.le_zero.mp (Nat.not_lt.mp h))
    · exact hzero
    · cases hzero

/-- With twice as many rows as buckets the last bucket has a second row. -/
theorem ntile_penultimate (hn : 2 ≤ n) (hlt : n < count) :
    ntile n count (count - 2) = n - 1 ↔ 2 * n ≤ count := by
  constructor
  · intro h
    by_contra hfew
    -- Every bucket after the longer ones has one row.
    have hsize : count / n = 1 := Nat.div_eq_of_lt_le (by omega) (by omega)
    have hlonger : count % n = count - n := by
      rw [Nat.mod_eq_sub_mod hlt.le, Nat.mod_eq_of_lt (by omega)]
    simp only [ntile, hsize, hlonger, Nat.div_one] at h
    split at h <;> omega
  · intro h
    have hsize : 2 ≤ count / n := (Nat.le_div_iff_mul_le (by omega)).mpr h
    exact ntile_last (j := 1) (by omega) (by omega)

/-! ## The rows that are shown -/

/-- The row is the first of its bucket. -/
def starts (n count i : ℕ) : Bool := i = 0 ∨ ntile n count i ≠ ntile n count (i - 1)

/-- `DISTINCT ON (bucket)` and the last row. -/
def shows (n count i : ℕ) : Bool := starts n count i ∨ i + 1 = count

theorem countP_starts (n count k : ℕ) :
    (List.range (k + 1)).countP (starts n count) = ntile n count k + 1 := by
  induction k with
  | zero => simp [starts, ntile_zero]
  | succ k ih =>
    rw [List.range_succ, List.countP_append, ih, List.countP_singleton]
    obtain h | h := ntile_succ n count k
    · simp [starts, h]
    · simp [starts, h]

theorem countP_shows (n k : ℕ) :
    (List.range (k + 2)).countP (shows n (k + 2)) = ntile n (k + 2) k + 2 := by
  have hcongr : (List.range (k + 1)).countP (shows n (k + 2)) =
      (List.range (k + 1)).countP (starts n (k + 2)) := by
    refine List.countP_congr fun i hi => ?_
    have hlt := List.mem_range.mp hi
    simp [shows, show i ≠ k + 1 by omega]
  rw [List.range_succ, List.countP_append, hcongr, countP_starts, List.countP_singleton]
  simp [shows]

/-- The number of rows that are shown. -/
theorem countP_shows_eq (hn : 2 ≤ n) :
    (List.range count).countP (shows n count) =
      if count ≤ n then count else if 2 * n ≤ count then n + 1 else n := by
  obtain hle | hlt := Nat.lt_or_ge n count |>.symm
  · rw [if_pos hle]
    have hall : ∀ i ∈ List.range count, shows n count i := by
      intro i hi
      have hi := List.mem_range.mp hi
      simp only [shows, starts, ntile_of_le hle hi,
        ntile_of_le hle (show i - 1 < count by omega), decide_eq_true_eq]
      omega
    rw [List.countP_eq_length.mpr hall, List.length_range]
  · rw [if_neg (by omega)]
    obtain ⟨k, rfl⟩ := Nat.exists_eq_add_of_le' (show 2 ≤ count by omega)
    have hlast : ntile n (k + 2) (k + 1) = n - 1 := by
      have hsize : 0 < (k + 2) / n := Nat.div_pos hlt.le (by omega)
      exact ntile_last (j := 0) (by omega) hsize
    have hpenultimate := @ntile_penultimate n (k + 2) hn hlt
    have hstep := ntile_succ n (k + 2) k
    rw [Nat.add_sub_cancel] at hpenultimate
    rw [countP_shows]
    split <;> omega

end

/-! ## The points of the route -/

variable {δ : Type} [DecidableEq δ] (db : Database δ) (device : δ) (start stop : Time)

/-- The points of a window in the order of the route. -/
def oldestFirst : List (Location δ) :=
  (db.locationsIn device start stop).mergeSort fun a b => a.recordedAt ≤ b.recordedAt

theorem oldestFirst_perm :
    (db.oldestFirst device start stop).Perm (db.locationsIn device start stop) :=
  List.mergeSort_perm _ _

theorem oldestFirst_pairwise :
    (db.oldestFirst device start stop).Pairwise fun a b => a.recordedAt < b.recordedAt :=
  Query.orderBy_pairwise (fun a : Location δ => a.recordedAt)
    (db.locationsIn_pairwise device start stop)

theorem getRouteForDevice_eq (n : ℕ) :
    db.getRouteForDevice device start stop n =
      ((db.oldestFirst device start stop).zipIdx.filter fun x =>
        shows n (db.oldestFirst device start stop).length x.2).map (·.1) := by
  rw [getRouteForDevice, ← List.filterMap_eq_map, List.filterMap_filter]
  refine List.filterMap_congr fun x hx => ?_
  simp [shows, starts, oldestFirst, or_assoc]

theorem length_getRouteForDevice (n : ℕ) :
    (db.getRouteForDevice device start stop n).length =
      (List.range (db.oldestFirst device start stop).length).countP
        (shows n (db.oldestFirst device start stop).length) := by
  rw [getRouteForDevice_eq, List.length_map, ← List.countP_eq_length_filter,
    List.range_eq_range', ← List.zipIdx_map_snd, List.countP_map]
  rfl

variable {db device start stop}

theorem getRouteForDevice_sublist (n : ℕ) :
    (db.getRouteForDevice device start stop n).Sublist (db.oldestFirst device start stop) := by
  rw [getRouteForDevice_eq]
  have hfst : (db.oldestFirst device start stop).zipIdx.map (·.1) =
      db.oldestFirst device start stop := List.zipIdx_map_fst _ _
  conv_rhs => rw [← hfst]
  exact List.filter_sublist.map _

theorem mem_getRouteForDevice_iff {n : ℕ} {location : Location δ} :
    location ∈ db.getRouteForDevice device start stop n ↔
      ∃ i : ℕ, (db.oldestFirst device start stop)[i]? = some location ∧
        shows n (db.oldestFirst device start stop).length i := by
  rw [getRouteForDevice_eq, List.mem_map]
  constructor
  · rintro ⟨⟨x, i⟩, hx, rfl⟩
    obtain ⟨hmem, hshows⟩ := List.mem_filter.mp hx
    exact ⟨i, List.mem_zipIdx_iff_getElem?.mp hmem, hshows⟩
  · rintro ⟨i, hget, hshows⟩
    exact ⟨(location, i),
      List.mem_filter.mpr ⟨List.mem_zipIdx_iff_getElem?.mpr hget, hshows⟩, rfl⟩

/-- The oldest point is the first of the first bucket. -/
theorem first_mem_getRouteForDevice (n : ℕ) {a : Location δ}
    (ha : a ∈ db.locationsIn device start stop)
    (hfirst : ∀ b ∈ db.locationsIn device start stop, a.recordedAt ≤ b.recordedAt) :
    a ∈ db.getRouteForDevice device start stop n := by
  have hperm := db.oldestFirst_perm device start stop
  obtain ⟨i, hi, rfl⟩ := List.getElem_of_mem (hperm.mem_iff.mpr ha)
  have hzero : i = 0 := by
    by_contra hpos
    have hlt := List.pairwise_iff_getElem.mp (db.oldestFirst_pairwise device start stop) 0 i
      (by omega) hi (by omega)
    exact absurd (hfirst _ (hperm.mem_iff.mp (List.getElem_mem _))) (not_le.mpr hlt)
  subst hzero
  exact mem_getRouteForDevice_iff.mpr
    ⟨0, List.getElem?_eq_getElem hi, by simp [shows, starts]⟩

theorem last_mem_getRouteForDevice (n : ℕ) {a : Location δ}
    (ha : a ∈ db.locationsIn device start stop)
    (hlast : ∀ b ∈ db.locationsIn device start stop, b.recordedAt ≤ a.recordedAt) :
    a ∈ db.getRouteForDevice device start stop n := by
  have hperm := db.oldestFirst_perm device start stop
  obtain ⟨i, hi, rfl⟩ := List.getElem_of_mem (hperm.mem_iff.mpr ha)
  have hend : i + 1 = (db.oldestFirst device start stop).length := by
    by_contra hmore
    have hlt := List.pairwise_iff_getElem.mp (db.oldestFirst_pairwise device start stop) i (i + 1)
      hi (by omega) (by omega)
    exact absurd (hlast _ (hperm.mem_iff.mp (List.getElem_mem _))) (not_le.mpr hlt)
  exact mem_getRouteForDevice_iff.mpr ⟨i, List.getElem?_eq_getElem hi, by simp [shows, hend]⟩

/-! ## The query

`getRouteForDevice` names the rows of the answer by their place in the window; this is the query
with its clauses, which gives the same rows. -/

variable (db device start stop)

/-- The rows with `NTILE(n) OVER (ORDER BY recorded_at ASC)`. -/
def ranked (n : ℕ) : List (Location δ × ℕ) :=
  (db.oldestFirst device start stop).zipIdx.map fun x =>
    (x.1, ntile n (db.oldestFirst device start stop).length x.2)

/-- `DISTINCT ON (bucket) … ORDER BY bucket, recorded_at ASC`. -/
def sampled (n : ℕ) : List (Location δ) :=
  let ordered := (db.ranked device start stop n).mergeSort fun x y =>
    x.2 < y.2 ∨ x.2 = y.2 ∧ x.1.recordedAt ≤ y.1.recordedAt
  (Query.distinctOn (·.2) ordered).map (·.1)

/-- `ORDER BY recorded_at DESC LIMIT 1`. -/
def lastPoint : List (Location δ) := (db.newestFirst device start stop).take 1

/-- `sampled UNION last_point`, in order. -/
def routeQuery (n : ℕ) : List (Location δ) :=
  (db.sampled device start stop n ++ db.lastPoint device start stop).dedup.mergeSort
    fun a b => a.recordedAt ≤ b.recordedAt

variable {db device start stop}

theorem ntile_mono (n count : ℕ) : Monotone (ntile n count) := by
  apply monotone_nat_of_le_succ
  intro i
  obtain h | h := ntile_succ n count i
  · exact h.ge
  · rw [h]
    exact Nat.le_succ _

/-- The first row of a bucket is the one before which the bucket has none. -/
theorem starts_iff {n count i : ℕ} :
    starts n count i ↔ ∀ j < i, ntile n count j ≠ ntile n count i := by
  rw [starts, decide_eq_true_iff]
  constructor
  · rintro (rfl | hne) j hj heq
    · exact absurd hj (Nat.not_lt_zero j)
    · have hle : ntile n count j ≤ ntile n count (i - 1) := ntile_mono n count (by omega)
      have hle' : ntile n count (i - 1) ≤ ntile n count i := ntile_mono n count (by omega)
      omega
  · intro h
    by_cases hi : i = 0
    · exact .inl hi
    · exact .inr fun heq => h (i - 1) (by omega) heq.symm

theorem getElem?_ranked {n i : ℕ} {x : Location δ × ℕ} :
    (db.ranked device start stop n)[i]? = some x ↔
      (db.oldestFirst device start stop)[i]? = some x.1 ∧
        ntile n (db.oldestFirst device start stop).length i = x.2 := by
  rw [ranked, List.getElem?_map, List.getElem?_zipIdx]
  rcases (db.oldestFirst device start stop)[i]? with _ | location
  · simp
  · simp [Prod.ext_iff]

/-- The rows are in the order of the buckets already. -/
theorem ranked_pairwise (db : Database δ) (device : δ) (start stop : Time) (n : ℕ) :
    (db.ranked device start stop n).Pairwise fun x y =>
      x.2 < y.2 ∨ x.2 = y.2 ∧ x.1.recordedAt ≤ y.1.recordedAt := by
  rw [List.pairwise_iff_getElem]
  intro i j hi hj hlt
  obtain ⟨hget, hbucket⟩ := getElem?_ranked.mp (List.getElem?_eq_getElem hi)
  obtain ⟨hget', hbucket'⟩ := getElem?_ranked.mp (List.getElem?_eq_getElem hj)
  obtain ⟨hi', hfst⟩ := List.getElem?_eq_some_iff.mp hget
  obtain ⟨hj', hfst'⟩ := List.getElem?_eq_some_iff.mp hget'
  have hbefore := List.pairwise_iff_getElem.mp (db.oldestFirst_pairwise device start stop)
    i j hi' hj' hlt
  have hle := ntile_mono n (db.oldestFirst device start stop).length hlt.le
  rw [hfst, hfst'] at hbefore
  rw [hbucket, hbucket'] at hle
  exact hle.lt_or_eq.imp id fun heq => ⟨heq, hbefore.le⟩

theorem mem_sampled {n : ℕ} {location : Location δ} :
    location ∈ db.sampled device start stop n ↔
      ∃ i : ℕ, (db.oldestFirst device start stop)[i]? = some location ∧
        starts n (db.oldestFirst device start stop).length i := by
  have hordered := List.mergeSort_of_pairwise
    ((db.ranked_pairwise device start stop n).imp fun {x y} h => decide_eq_true h)
  rw [sampled, hordered, List.mem_map]
  constructor
  · rintro ⟨x, hx, rfl⟩
    obtain ⟨i, hi, hfirst⟩ := Query.mem_distinctOn.mp hx
    obtain ⟨hget, hbucket⟩ := getElem?_ranked.mp hi
    refine ⟨i, hget, starts_iff.mpr fun j hj heq => ?_⟩
    have hlt : i < (db.oldestFirst device start stop).length :=
      (List.getElem?_eq_some_iff.mp hget).1
    have hget' : (db.oldestFirst device start stop)[j]? =
        some (db.oldestFirst device start stop)[j] := List.getElem?_eq_getElem (by omega)
    exact hfirst j hj (_, _) (getElem?_ranked.mpr ⟨hget', rfl⟩) (heq.trans hbucket)
  · rintro ⟨i, hget, hstarts⟩
    refine ⟨(location, _), Query.mem_distinctOn.mpr
      ⟨i, getElem?_ranked.mpr ⟨hget, rfl⟩, fun j hj y hy => ?_⟩, rfl⟩
    rw [← (getElem?_ranked.mp hy).2]
    exact starts_iff.mp hstarts j hj

theorem mem_lastPoint {location : Location δ} :
    location ∈ db.lastPoint device start stop ↔
      ∃ i : ℕ, (db.oldestFirst device start stop)[i]? = some location ∧
        i + 1 = (db.oldestFirst device start stop).length := by
  have hperm : (db.newestFirst device start stop).Perm (db.oldestFirst device start stop).reverse :=
    ((db.newestFirst_perm device start stop).trans
      (db.oldestFirst_perm device start stop).symm).trans (List.reverse_perm _).symm
  have hreverse := hperm.eq_of_pairwise
    (fun a b _ _ (hab : b.recordedAt < a.recordedAt) hba => absurd hba hab.asymm)
    (db.newestFirst_pairwise device start stop)
    (List.pairwise_reverse.mpr (db.oldestFirst_pairwise device start stop))
  rw [lastPoint, hreverse]
  obtain hnil | ⟨points, last, hlast⟩ :=
    (db.oldestFirst device start stop).eq_nil_or_concat
  · simp [hnil]
  · rw [hlast]
    simp only [List.concat_eq_append, List.reverse_append, List.reverse_singleton,
      List.singleton_append, List.take_succ_cons, List.take_zero, List.mem_singleton,
      List.length_append, List.length_singleton, Nat.add_right_cancel_iff, exists_eq_right]
    rw [List.getElem?_concat_length, Option.some_inj, eq_comm]

/-- The query gives the rows that `getRouteForDevice` names. -/
theorem routeQuery_eq (n : ℕ) :
    db.routeQuery device start stop n = db.getRouteForDevice device start stop n := by
  have hmem : ∀ a, a ∈ db.routeQuery device start stop n ↔
      a ∈ db.getRouteForDevice device start stop n := by
    intro a
    rw [routeQuery, List.mem_mergeSort, List.mem_dedup, List.mem_append, mem_sampled,
      mem_lastPoint, mem_getRouteForDevice_iff, ← exists_or]
    simp only [shows, Bool.decide_or, Bool.decide_coe, Bool.or_eq_true, decide_eq_true_eq,
      and_or_left]
  have hincreasing := (db.oldestFirst_pairwise device start stop).sublist
    (getRouteForDevice_sublist n)
  refine Query.eq_of_pairwise_lt (fun a : Location δ => a.recordedAt) ?_ hincreasing hmem
  refine Query.orderBy_pairwise (fun a : Location δ => a.recordedAt) ?_
  refine (List.nodup_dedup _).imp_of_mem fun {a b} ha hb hne => ?_
  have hin : ∀ x ∈ (db.sampled device start stop n ++ db.lastPoint device start stop).dedup,
      x ∈ db.locationsIn device start stop := by
    intro x hx
    have hquery := (hmem x).mp (List.mem_mergeSort.mpr hx)
    exact (db.oldestFirst_perm device start stop).subset
      ((getRouteForDevice_sublist n).subset hquery)
  exact Query.ne_of_pairwise (db.locationsIn_pairwise device start stop) (hin a ha) (hin b hb) hne

end Database

/-! ## The contract of a route -/

variable {δ : Type} [DecidableEq δ]

/-- What the route of a window with these points promises, of the points it returns, their number
before the sampling, and whether they were sampled. -/
structure RouteContract (points : List (Location δ)) (maxPoints : Int)
    (route : List (Location δ) × Int × Bool) : Prop where
  bounded : route.1.length ≤ maxPoints
  increasing : route.1.Pairwise fun a b => a.recordedAt < b.recordedAt
  taken : ∀ a ∈ route.1, a ∈ points
  first : ∀ a ∈ points, (∀ b ∈ points, a.recordedAt ≤ b.recordedAt) → a ∈ route.1
  last : ∀ a ∈ points, (∀ b ∈ points, b.recordedAt ≤ a.recordedAt) → a ∈ route.1
  whole : points.length ≤ maxPoints → route.1.Perm points ∧ route.2.2 = false
  sampled : ¬ points.length ≤ maxPoints → route.2.1 = points.length ∧ route.2.2 = true

variable {codec : TimestampCodec} {db : Database δ} {device : δ} {start stop : Nanos}
  {maxPoints : Int}

/-- The parameter of the query holds the limit, so that the adapter returns the rows of the query. -/
theorem getRoute_eq (hmin : 2 ≤ maxPoints) (hparam : maxPoints < 2 ^ 31) :
    db.getRoute codec device start stop maxPoints =
      (db.getRouteForDevice device (codec.encode start) (codec.encode stop) maxPoints.toNat,
        ((db.selected codec device start stop).length : Int),
        decide ((db.selected codec device start stop).length > maxPoints)) := by
  have hlimit : Database.toInt32 maxPoints = maxPoints := Int.bmod_eq_of_le (by omega) (by omega)
  rw [Database.getRoute, hlimit, Database.selected]
  split
  · next hnil =>
    have hempty := Database.getRouteForDevice_eq_nil.mp hnil
    rw [hnil, hempty]
    simp
    omega
  · next row rows hrows => rw [hrows]

/-- For the points that are selected, the contract is kept exactly when they are fewer than twice the
limit. -/
theorem selected_contract_iff (hmin : 2 ≤ maxPoints) (hparam : maxPoints < 2 ^ 31) :
    RouteContract (db.selected codec device start stop) maxPoints
        (db.getRoute codec device start stop maxPoints) ↔
      (db.selected codec device start stop).length < 2 * maxPoints := by
  obtain ⟨n, rfl⟩ := Int.eq_ofNat_of_zero_le (by omega : 0 ≤ maxPoints)
  have hn : 2 ≤ n := by omega
  have hperm := db.oldestFirst_perm device (codec.encode start) (codec.encode stop)
  have hlength :=
    db.length_getRouteForDevice device (codec.encode start) (codec.encode stop) n
  rw [Database.countP_shows_eq hn, hperm.length_eq] at hlength
  have hsub := @Database.getRouteForDevice_sublist δ _ db device (codec.encode start)
    (codec.encode stop) n
  rw [getRoute_eq hmin hparam, Int.toNat_natCast]
  rw [Database.selected]
  constructor
  · intro hcontract
    have hbounded := hcontract.bounded
    simp only at hbounded
    split at hlength <;> [omega; split at hlength <;> omega]
  · intro hfew
    refine ⟨?_, (db.oldestFirst_pairwise device _ _).sublist hsub, ?_, ?_, ?_, ?_, ?_⟩
    · show ((db.getRouteForDevice device _ _ n).length : Int) ≤ n
      split at hlength <;> [omega; split at hlength <;> omega]
    · exact fun a ha => hperm.mem_iff.mp (hsub.subset ha)
    · intro a ha hfirst
      exact Database.first_mem_getRouteForDevice n ha hfirst
    · intro a ha hlast
      exact Database.last_mem_getRouteForDevice n ha hlast
    · intro hle
      rw [if_pos (by omega), ← hperm.length_eq] at hlength
      rw [hsub.eq_of_length hlength]
      exact ⟨hperm, decide_eq_false (not_lt.mpr hle)⟩
    · exact fun hgt => ⟨rfl, decide_eq_true (not_le.mp hgt)⟩

/-- A route that keeps its contract shows that the driver keeps the window: a point selected wrongly
would be the oldest of the route, and a point missed the newest of the window. -/
theorem windowKept_of_contract (hmin : 2 ≤ maxPoints) (hparam : maxPoints < 2 ^ 31)
    (h : RouteContract (db.pointsBetween device start stop) maxPoints
      (db.getRoute codec device start stop maxPoints)) :
    db.WindowKept codec device start stop := by
  obtain ⟨-, -, htaken, -, hlast, -, -⟩ := h
  rw [getRoute_eq hmin hparam] at htaken hlast
  have hperm := db.oldestFirst_perm device (codec.encode start) (codec.encode stop)
  have hsub := @Database.getRouteForDevice_sublist δ _ db device (codec.encode start)
    (codec.encode stop) maxPoints.toNat
  refine Database.windowKept_of_mem_iff fun a => ⟨fun ha => ?_, fun ha => ?_⟩
  · by_contra hnot
    have hpairwise := db.oldestFirst_pairwise device (codec.encode start) (codec.encode stop)
    have ha' := hperm.mem_iff.mpr ha
    cases holdest : db.oldestFirst device (codec.encode start) (codec.encode stop) with
    | nil =>
      rw [holdest] at ha'
      cases ha'
    | cons oldest rest =>
      rw [holdest] at ha' hpairwise
      have hmem : oldest ∈ db.selected codec device start stop := by
        rw [Database.selected, ← hperm.mem_iff, holdest]
        exact List.mem_cons_self
      have hshown := Database.first_mem_getRouteForDevice maxPoints.toNat hmem fun b hb => by
        rw [← hperm.mem_iff, holdest] at hb
        rcases List.mem_cons.mp hb with rfl | hrest
        · exact le_refl _
        · exact ((List.pairwise_cons.mp hpairwise).1 b hrest).le
      have hlt := Database.lt_of_selected ha hnot (htaken oldest hshown)
      rcases List.mem_cons.mp ha' with rfl | hrest
      · exact lt_irrefl _ hlt
      · exact lt_asymm hlt ((List.pairwise_cons.mp hpairwise).1 a hrest)
  · by_contra hnot
    have hpairwise := db.newestBetween_pairwise device start stop
    have hbetween := db.newestBetween_perm device start stop
    have ha' := hbetween.mem_iff.mpr ha
    cases hnewest : db.newestBetween device start stop with
    | nil =>
      rw [hnewest] at ha'
      cases ha'
    | cons newest rest =>
      rw [hnewest] at ha' hpairwise hbetween
      have hshown := hlast newest (hbetween.mem_iff.mp List.mem_cons_self) fun b hb => by
        rcases List.mem_cons.mp (hbetween.mem_iff.mpr hb) with rfl | hrest
        · exact le_refl _
        · exact ((List.pairwise_cons.mp hpairwise).1 b hrest).le
      have hlt := Database.lt_of_missed ha hnot (hperm.mem_iff.mp (hsub.subset hshown))
      rcases List.mem_cons.mp ha' with rfl | hrest
      · exact lt_irrefl _ hlt
      · exact lt_asymm hlt ((List.pairwise_cons.mp hpairwise).1 a hrest)

/-- The route keeps its contract exactly when the driver keeps the window and its points are fewer
than twice the limit. The limit is in the range of the parameter of the query; the route handler
passes at most 1000. -/
theorem getRoute_contract_iff (codec : TimestampCodec) (hmin : 2 ≤ maxPoints)
    (hparam : maxPoints < 2 ^ 31) :
    RouteContract (db.pointsBetween device start stop) maxPoints
        (db.getRoute codec device start stop maxPoints) ↔
      db.WindowKept codec device start stop ∧
        (db.pointsBetween device start stop).length < 2 * maxPoints := by
  constructor
  · intro hcontract
    have hkept := windowKept_of_contract hmin hparam hcontract
    refine ⟨hkept, ?_⟩
    rw [← hkept.selected_eq] at hcontract ⊢
    exact (selected_contract_iff hmin hparam).mp hcontract
  · rintro ⟨hkept, hfew⟩
    rw [← hkept.selected_eq] at hfew ⊢
    exact (selected_contract_iff hmin hparam).mpr hfew

/-- Tracker 7 with a fix at each of these times. -/
def fixesAt (times : List Time) : Database Nat where
  devices := AList.singleton 7 ⟨none, none⟩
  locations := times.foldl
    (fun table time => table.insert (7, time) ⟨10, 20, none, none, none, none, none⟩) ∅
  locationIngestKeys := ∅

theorem getRoute_contract_three :
    RouteContract ((fixesAt [1, 2, 3]).pointsBetween 7 0 9000) 2
      ((fixesAt [1, 2, 3]).getRoute microsecondCodec 7 0 9000 2) := by
  have hlength : ((fixesAt [1, 2, 3]).pointsBetween 7 0 9000).length = 3 := by decide +kernel
  refine (getRoute_contract_iff microsecondCodec (by decide) (by decide)).mpr
    ⟨Database.windowKept_ofTime _ _ 7 0 9, ?_⟩
  rw [hlength]
  decide

/-- Of four points and two buckets, the route shows three. -/
theorem getRoute_exceeds :
    ¬ ∀ (db : Database Nat) (device : Nat) (start stop : Nanos) (maxPoints : Int), 2 ≤ maxPoints →
      RouteContract (db.pointsBetween device start stop) maxPoints
        (db.getRoute microsecondCodec device start stop maxPoints) := by
  intro hall
  have hcontract := hall (fixesAt [1, 2, 3, 4]) 7 0 9000 2 (by decide)
  have hkept := windowKept_of_contract (by decide) (by decide) hcontract
  rw [← hkept.selected_eq, selected_contract_iff (by decide) (by decide)] at hcontract
  have hlength : ((fixesAt [1, 2, 3, 4]).selected microsecondCodec 7 0 9000).length = 4 := by
    decide +kernel
  rw [hlength] at hcontract
  exact absurd hcontract (by decide)

/-- A window that ends within the microsecond of its last point: the route lacks it. -/
theorem getRoute_misses_last :
    ¬ RouteContract ((fixesAt [1, 3]).pointsBetween 7 0 3500) 2
      ((fixesAt [1, 3]).getRoute microsecondCodec 7 0 3500 2) := by
  intro hcontract
  have hkept := windowKept_of_contract (by decide) (by decide) hcontract 3 (by decide)
  revert hkept
  decide +kernel

end OpenGps.Backend
