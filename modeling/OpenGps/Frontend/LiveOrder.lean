import Mathlib.Data.String.Basic
import OpenGps.Frontend.LiveLocation
import OpenGps.Lib.Top

/-!
# The order of live locations

What folding `reduceLiveLocation` over snapshots leaves, in whatever order they arrive. The page
compares the texts of the instants. The backend leaves out the zeros at the end of a fraction, so a
text can be greater than that of a later instant: `00Z` is greater than `00.5Z`.
-/

namespace OpenGps.Frontend

open OpenGps.Lib OpenGps.Backend

variable {δ : Type}

/-! ## Instants -/

/-- The instant that the text of a point stands for. -/
def instantOf (p : LocationPoint δ) : Time :=
  (Rfc3339.parse (Rfc3339.ascii p.recordedAt.toList)).getD 0

/-- The text is one that the backend writes. -/
def Emitted (p : LocationPoint δ) : Prop := ∃ t, Rfc3339.InCalendar t ∧ p.recordedAt = timeText t

theorem instantOf_eq {p : LocationPoint δ} {t : Time} (h : Rfc3339.InCalendar t)
    (hp : p.recordedAt = timeText t) : instantOf p = t := by
  rw [instantOf, hp, timeText, String.toList_ofList, Rfc3339.parse_format h]
  rfl

/-- The points have texts of the backend, and equal points at equal times. -/
structure Coherent (points : List (LocationPoint δ)) : Prop where
  emitted : ∀ p ∈ points, Emitted p
  same : ∀ p ∈ points, ∀ q ∈ points, instantOf p = instantOf q → p = q

theorem Coherent.eq_of_text {points : List (LocationPoint δ)} (h : Coherent points)
    {p q : LocationPoint δ} (hp : p ∈ points) (hq : q ∈ points)
    (heq : p.recordedAt = q.recordedAt) : p = q := by
  refine h.same p hp q hq ?_
  rw [instantOf, instantOf, heq]

theorem Coherent.mono {points points' : List (LocationPoint δ)} (h : Coherent points)
    (hsub : points' ⊆ points) : Coherent points' where
  emitted p hp := h.emitted p (hsub hp)
  same p hp q hq := h.same p (hsub hp) q (hsub hq)

/-- `localeCompare` puts the texts of the backend, which have the same characters at the same places
up to the fraction, in the order of their characters. -/
structure Collation where
  localeCompare : String → String → Ordering
  le_iff : ∀ s t, Rfc3339.InCalendar s → Rfc3339.InCalendar t →
    (localeCompare (timeText s) (timeText t) ≠ .gt ↔ timeText s ≤ timeText t)

/-! ## One snapshot -/

section
variable {points xs : List (LocationPoint δ)}

/-- The location of a state, as a list. -/
def LiveLocationState.located (s : LiveLocationState δ) : List (LocationPoint δ) :=
  (s.snapshot.bind (·.location)).toList

/-- The location that is kept has the greatest text. -/
theorem isTop_newest (hpoints : Coherent points) {current next : Option (LocationPoint δ)}
    (hcurrent : ∀ p ∈ current, p ∈ points) (hnext : ∀ p ∈ next, p ∈ points)
    (h : IsTop (·.recordedAt) 1 xs current.toList) :
    IsTop (·.recordedAt) 1 (xs ++ next.toList) (newest current next).toList := by
  cases next with
  | none =>
    rw [Option.toList_none, List.append_nil]
    exact h
  | some next =>
    refine h.concat ?_
    cases current with
    | none => exact IsTop.drop (List.pairwise_singleton _ _)
    | some current =>
      by_cases hlt : next.recordedAt < current.recordedAt
      · rw [show newest (some current) (some next) = some current from if_pos hlt]
        refine ⟨List.pairwise_singleton _ _, by simp, le_rfl, fun a ha hnot => ⟨rfl, ?_⟩⟩
        obtain rfl | rfl : a = current ∨ a = next := by simpa using ha
        · exact absurd List.mem_cons_self hnot
        · simpa using hlt
      · rw [show newest (some current) (some next) = some next from if_neg hlt]
        refine ⟨List.pairwise_singleton _ _, by simp, le_rfl, fun a ha hnot => ⟨rfl, ?_⟩⟩
        obtain rfl | rfl : a = current ∨ a = next := by simpa using ha
        · -- Two points with one text are the same.
          have hne : a.recordedAt ≠ next.recordedAt := fun heq =>
            hnot (by rw [hpoints.eq_of_text (hcurrent a rfl) (hnext next rfl) heq]; simp)
          simpa using lt_of_le_of_ne (not_lt.mp hlt) hne
        · exact absurd List.mem_cons_self hnot

variable (collation : Collation)

theorem sliceLast_eq_drop {α : Type} {k : ℕ} (hk : 0 < k) (l : List α) :
    sliceLast k l = l.drop (l.length - k) := if_neg hk.ne'

theorem extendRoute_of_mem {route : List (LocationPoint δ)} {next : LocationPoint δ}
    (h : next ∈ route) : extendRoute collation.localeCompare route (some next) = route :=
  if_pos (List.any_eq_true.mpr ⟨next, h, decide_eq_true rfl⟩)

theorem extendRoute_ne_nil (route : List (LocationPoint δ)) (next : LocationPoint δ) :
    extendRoute collation.localeCompare route (some next) ≠ [] := by
  unfold extendRoute
  dsimp only
  split
  · next hany =>
    obtain ⟨p, hp, -⟩ := List.any_eq_true.mp hany
    exact List.ne_nil_of_mem hp
  · exact List.ne_nil_of_mem ((List.mem_insertionSort _).mpr
      (List.mem_append_right route List.mem_cons_self))

/-- A point that is new to the route: the greatest texts of the route and the point are kept. -/
theorem isTop_extendRoute {k : ℕ} (hk : 0 < k) (hpoints : Coherent points)
    {route : List (LocationPoint δ)} {next : LocationPoint δ} (hroute : ∀ p ∈ route, p ∈ points)
    (hnext : next ∈ points) (hnodup : route.Nodup) (hnew : next ∉ route) :
    IsTop (·.recordedAt) k (route ++ [next])
      (sliceLast k (extendRoute collation.localeCompare route (some next))) := by
  have hmem : ∀ p ∈ route ++ [next], p ∈ points := by
    intro p hp
    obtain hp | hp := List.mem_append.mp hp
    · exact hroute p hp
    · rw [List.mem_singleton.mp hp]
      exact hnext
  have hnotext : ¬ route.any (·.recordedAt = next.recordedAt) = true := by
    intro hany
    obtain ⟨p, hp, heq⟩ := List.any_eq_true.mp hany
    exact hnew (hpoints.eq_of_text (hroute p hp) hnext (of_decide_eq_true heq) ▸ hp)
  have hne : (route ++ [next]).Pairwise fun a b => a.recordedAt ≠ b.recordedAt := by
    have hall : (route ++ [next]).Nodup := by
      rw [← List.concat_eq_append]
      exact hnodup.concat hnew
    exact hall.imp_of_mem fun ha hb hne heq =>
      hne (hpoints.eq_of_text (hmem _ ha) (hmem _ hb) heq)
  have hle : ∀ a ∈ route ++ [next], ∀ b ∈ route ++ [next],
      collation.localeCompare a.recordedAt b.recordedAt ≠ .gt ↔ a.recordedAt ≤ b.recordedAt := by
    intro a ha b hb
    obtain ⟨s, hs, has⟩ := hpoints.emitted a (hmem a ha)
    obtain ⟨t, ht, hbt⟩ := hpoints.emitted b (hmem b hb)
    rw [has, hbt]
    exact collation.le_iff s t hs ht
  rw [sliceLast_eq_drop hk, extendRoute, if_neg hnotext, List.length_insertionSort]
  exact isTop_drop_insertionSort k hle hne

end

/-! ## A run -/

/-- The snapshot of the state is of the device. -/
def LiveLocationState.Views (s : LiveLocationState δ) (device : δ) : Prop :=
  ∃ snapshot, s.snapshot = some snapshot ∧ snapshot.deviceID = device

section
variable [DecidableEq δ] (device : δ) (maxPoints : ℕ)

/-- The points of the device among the snapshots. -/
def received (snapshots : List (LiveLocationSnapshot δ)) : List (LocationPoint δ) :=
  (snapshots.filter (·.deviceID = device)).flatMap (·.location.toList)

/-- The start of a run: its snapshot is of the device and its route is in order. -/
structure StartsFor (start : LiveLocationState δ) : Prop where
  views : start.Views device
  ascending : start.route.Pairwise fun p q => instantOf p < instantOf q
  short : start.route.length ≤ maxPoints

variable (collation : Collation) (start : LiveLocationState δ)

def reduceAll (snapshots : List (LiveLocationSnapshot δ)) : LiveLocationState δ :=
  snapshots.foldl (fun current next =>
    reduceLiveLocation collation.localeCompare current next maxPoints) start

/-- What the route is while points of `xs` have arrived: that of the start, or the greatest texts of
the route of the start and the points. -/
def RouteAfter (xs route : List (LocationPoint δ)) : Prop :=
  (route = start.route ∧ ∀ p ∈ xs, p ∈ start.route) ∨
    (IsTop (·.recordedAt) maxPoints (start.route ++ xs) route ∧ ∃ p ∈ xs, p ∉ start.route)

/-- What a state is while points of `xs` have arrived. -/
structure Tracks (xs : List (LocationPoint δ)) (s : LiveLocationState δ) : Prop where
  views : s.Views device
  location : IsTop (·.recordedAt) 1 (start.located ++ xs) s.located
  route : 0 < maxPoints → RouteAfter maxPoints start xs s.route
  /-- `slice(-0)` is `slice(0)`. -/
  unbounded : maxPoints = 0 → (s.route = [] ↔ xs = [])

variable {device} {start} {points xs : List (LocationPoint δ)} {s : LiveLocationState δ}

theorem LiveLocationState.Views.reduce_of_eq (h : s.Views device) {next : LiveLocationSnapshot δ}
    (hdevice : next.deviceID = device) :
    reduceLiveLocation collation.localeCompare s next maxPoints =
      { snapshot := some { next with
          location := newest (s.snapshot.bind (·.location)) next.location }
        route := sliceLast maxPoints (extendRoute collation.localeCompare s.route
          next.location) } := by
  obtain ⟨snapshot, hsnapshot, hown⟩ := h
  refine reduceLiveLocation_of_forall collation.localeCompare maxPoints fun snapshot' hs => ?_
  rw [← Option.some.inj (hsnapshot.symm.trans hs), hown, hdevice]

/-- A snapshot of another device changes nothing. -/
theorem LiveLocationState.Views.reduce_of_ne (h : s.Views device) {next : LiveLocationSnapshot δ}
    (hdevice : next.deviceID ≠ device) :
    reduceLiveLocation collation.localeCompare s next maxPoints = s := by
  obtain ⟨snapshot, hsnapshot, hown⟩ := h
  exact reduceLiveLocation_of_ne collation.localeCompare maxPoints hsnapshot
    (hown.trans_ne hdevice.symm)

theorem LiveLocationState.Views.reduceAll_filter (h : s.Views device)
    (snapshots : List (LiveLocationSnapshot δ)) :
    reduceAll maxPoints collation s snapshots =
      reduceAll maxPoints collation s (snapshots.filter (·.deviceID = device)) := by
  induction snapshots generalizing s with
  | nil => rfl
  | cons next snapshots ih =>
    by_cases hdevice : next.deviceID = device
    · rw [List.filter_cons_of_pos (by simpa using hdevice)]
      refine ih (s := reduceLiveLocation collation.localeCompare s next maxPoints) ?_
      rw [h.reduce_of_eq maxPoints collation hdevice]
      exact ⟨_, rfl, hdevice⟩
    · rw [List.filter_cons_of_neg (by simpa using hdevice), ← ih h, reduceAll, List.foldl_cons,
        h.reduce_of_ne maxPoints collation hdevice]
      rfl

variable {maxPoints}

omit [DecidableEq δ] in
theorem StartsFor.tracks (h : StartsFor device maxPoints start) :
    Tracks device maxPoints start [] start where
  views := h.views
  location := by
    rw [List.append_nil]
    unfold LiveLocationState.located
    cases start.snapshot.bind (·.location) with
    | none => exact IsTop.drop List.Pairwise.nil
    | some p => exact IsTop.drop (List.pairwise_singleton _ p)
  route _ := .inl ⟨rfl, fun p hp => by cases hp⟩
  unbounded hzero := by
    have hshort := h.short
    rw [hzero, Nat.le_zero, List.length_eq_zero_iff] at hshort
    exact iff_of_true hshort rfl

omit [DecidableEq δ] in
theorem RouteAfter.nodup_short (h : StartsFor device maxPoints start)
    {route : List (LocationPoint δ)} (hroute : RouteAfter maxPoints start xs route) :
    route.Nodup ∧ route.length ≤ maxPoints ∧ ∀ p ∈ route, p ∈ start.route ++ xs := by
  obtain ⟨rfl, -⟩ | ⟨htop, -⟩ := hroute
  · exact ⟨h.ascending.imp fun hlt heq => hlt.ne (congrArg instantOf heq), h.short,
      fun p hp => List.mem_append_left _ hp⟩
  · exact ⟨htop.nodup, htop.short, htop.subset⟩

omit [DecidableEq δ] in
/-- One snapshot: a point that the route has changes nothing, another is put in its place. -/
theorem RouteAfter.step (hk : 0 < maxPoints) (hpoints : Coherent points)
    (hstart : ∀ p ∈ start.route, p ∈ points) (hxs : ∀ p ∈ xs, p ∈ points)
    (h : StartsFor device maxPoints start) {route : List (LocationPoint δ)}
    (hroute : RouteAfter maxPoints start xs route) {next : Option (LocationPoint δ)}
    (hnext : ∀ p ∈ next, p ∈ points) :
    RouteAfter maxPoints start (xs ++ next.toList)
      (sliceLast maxPoints (extendRoute collation.localeCompare route next)) := by
  obtain ⟨hnodup, hshort, hsub⟩ := hroute.nodup_short h
  have hkeep : sliceLast maxPoints route = route := by
    rw [sliceLast_eq_drop hk, Nat.sub_eq_zero_of_le hshort, List.drop_zero]
  cases next with
  | none =>
    rw [Option.toList_none, List.append_nil]
    exact (congrArg (RouteAfter maxPoints start xs) hkeep).mpr hroute
  | some q =>
    rw [Option.toList_some]
    by_cases hq : q ∈ route
    · rw [extendRoute_of_mem collation hq, hkeep]
      obtain ⟨rfl, hold⟩ | ⟨htop, p, hp, hfresh⟩ := hroute
      · exact .inl ⟨rfl, List.forall_mem_append.mpr ⟨hold, List.forall_mem_singleton.mpr hq⟩⟩
      · rw [RouteAfter, ← List.append_assoc]
        exact .inr ⟨htop.concat_of_mem (htop.subset q hq), p, List.mem_append_left _ hp, hfresh⟩
    · have hroute' : ∀ p ∈ route, p ∈ points := fun p hp =>
        List.forall_mem_append.mpr ⟨hstart, hxs⟩ p (hsub p hp)
      have hnew := isTop_extendRoute collation hk hpoints hroute' (hnext q rfl) hnodup hq
      obtain ⟨rfl, hold⟩ | ⟨htop, p, hp, hfresh⟩ := hroute
      · refine .inr ⟨hnew.congr fun a => ?_, q, by simp, hq⟩
        -- What had arrived before is in the route of the start.
        rw [← List.append_assoc, List.mem_append, List.mem_append, List.mem_append]
        exact ⟨fun ha => ha.imp_left .inl, fun ha => ha.imp_left fun ha => ha.elim id (hold a)⟩
      · rw [RouteAfter, ← List.append_assoc]
        exact .inr ⟨htop.concat hnew, p, List.mem_append_left _ hp, hfresh⟩

theorem Tracks.step (hpoints : Coherent points)
    (hstart : ∀ p ∈ start.located ++ start.route, p ∈ points) (hxs : ∀ p ∈ xs, p ∈ points)
    (h : StartsFor device maxPoints start) (hs : Tracks device maxPoints start xs s)
    {next : LiveLocationSnapshot δ} (hdevice : next.deviceID = device)
    (hnext : ∀ p ∈ next.location, p ∈ points) :
    Tracks device maxPoints start (xs ++ next.location.toList)
      (reduceLiveLocation collation.localeCompare s next maxPoints) := by
  obtain ⟨hlocated, hroute⟩ := List.forall_mem_append.mp hstart
  rw [hs.views.reduce_of_eq maxPoints collation hdevice]
  refine ⟨⟨_, rfl, hdevice⟩, ?_, fun hk => ?_, ?_⟩
  · have hcurrent : ∀ p ∈ s.snapshot.bind (·.location), p ∈ points := fun p hp =>
      List.forall_mem_append.mpr ⟨hlocated, hxs⟩ p
        (hs.location.subset p (Option.mem_toList.mpr hp))
    rw [← List.append_assoc]
    exact isTop_newest hpoints hcurrent hnext hs.location
  · exact (hs.route hk).step collation hk hpoints hroute hxs h hnext
  · rintro rfl
    show sliceLast 0 (extendRoute _ _ _) = [] ↔ _
    rw [sliceLast, if_pos rfl]
    cases next.location with
    | none =>
      rw [Option.toList_none, List.append_nil]
      exact hs.unbounded rfl
    | some q => exact iff_of_false (extendRoute_ne_nil collation s.route q) (by simp)

theorem received_cons (next : LiveLocationSnapshot δ) (snapshots : List (LiveLocationSnapshot δ)) :
    received device (next :: snapshots) =
      (if next.deviceID = device then next.location.toList else []) ++
        received device snapshots := by
  unfold received
  by_cases hdevice : next.deviceID = device <;> simp [hdevice]

theorem Tracks.run (hpoints : Coherent points)
    (hstart : ∀ p ∈ start.located ++ start.route, p ∈ points)
    (h : StartsFor device maxPoints start) (snapshots : List (LiveLocationSnapshot δ))
    (hreceived : ∀ p ∈ received device snapshots, p ∈ points) (hxs : ∀ p ∈ xs, p ∈ points)
    (hs : Tracks device maxPoints start xs s) :
    Tracks device maxPoints start (xs ++ received device snapshots)
      (reduceAll maxPoints collation s snapshots) := by
  induction snapshots generalizing xs s with
  | nil =>
    rw [received, List.filter_nil, List.flatMap_nil, List.append_nil]
    exact hs
  | cons next snapshots ih =>
    rw [received_cons] at hreceived ⊢
    obtain ⟨hnext, hreceived⟩ := List.forall_mem_append.mp hreceived
    rw [reduceAll, List.foldl_cons]
    by_cases hdevice : next.deviceID = device
    · rw [if_pos hdevice] at hnext ⊢
      have hlocation : ∀ p ∈ next.location, p ∈ points :=
        fun p hp => hnext p (Option.mem_toList.mpr hp)
      rw [← List.append_assoc]
      exact ih hreceived (List.forall_mem_append.mpr ⟨hxs, hnext⟩)
        (hs.step collation hpoints hstart hxs h hdevice hlocation)
    · rw [if_neg hdevice, List.nil_append, hs.views.reduce_of_ne maxPoints collation hdevice]
      exact ih hreceived hxs hs

/-! ## Order -/

/-- What a run is to leave: the latest location, the latest points in order, whatever snapshots of
other devices there were. -/
structure Settles (device : δ) (maxPoints : ℕ) (collation : Collation)
    (start : LiveLocationState δ) (snapshots : List (LiveLocationSnapshot δ)) : Prop where
  location : IsTop instantOf 1 (start.located ++ received device snapshots)
    (reduceAll maxPoints collation start snapshots).located
  route : IsTop instantOf maxPoints (start.route ++ received device snapshots)
    (reduceAll maxPoints collation start snapshots).route
  others : reduceAll maxPoints collation start snapshots =
    reduceAll maxPoints collation start (snapshots.filter (·.deviceID = device))

/-- The text of each of the `k` latest points is greater than those of the points before it. -/
def InTextOrder (k : ℕ) (points : List (LocationPoint δ)) : Prop :=
  ∀ q ∈ top k instantOf points, ∀ p ∈ points,
    instantOf p < instantOf q → p.recordedAt < q.recordedAt

instance (k : ℕ) (points : List (LocationPoint δ)) : Decidable (InTextOrder k points) :=
  inferInstanceAs (Decidable (∀ q ∈ _, _))

theorem InTextOrder.iff_isTop {k : ℕ} (hpoints : Coherent points) {kept : List (LocationPoint δ)}
    (h : IsTop (·.recordedAt) k points kept) :
    InTextOrder k points ↔ IsTop instantOf k points kept := by
  have htop := isTop_top k hpoints.same
  rw [InTextOrder, ← htop.eq_iff h]
  constructor
  · rintro rfl
    exact htop
  · exact htop.unique

theorem Tracks.route_iff (h : StartsFor device maxPoints start)
    (hpoints : Coherent (start.route ++ xs)) (hs : Tracks device maxPoints start xs s) :
    IsTop instantOf maxPoints (start.route ++ xs) s.route ↔
      (∀ p ∈ xs, p ∈ start.route) ∨ 0 < maxPoints ∧ InTextOrder maxPoints (start.route ++ xs) := by
  obtain hzero | hk := Nat.eq_zero_or_pos maxPoints
  · -- No point is to be kept, and every point is.
    have hempty := hs.unbounded hzero
    have hstart : start.route = [] := by
      have hshort := h.short
      rwa [hzero, Nat.le_zero, List.length_eq_zero_iff] at hshort
    rw [hstart, List.nil_append, hzero]
    constructor
    · intro htop
      have hroute := List.length_eq_zero_iff.mp (Nat.le_zero.mp htop.short)
      rw [hempty.mp hroute]
      exact .inl fun p hp => by cases hp
    · rintro (hnone | ⟨hpos, -⟩)
      · obtain rfl : xs = [] := List.eq_nil_iff_forall_not_mem.mpr fun p hp =>
          List.not_mem_nil (hnone p hp)
        rw [hempty.mpr rfl]
        exact IsTop.drop List.Pairwise.nil
      · exact absurd hpos (lt_irrefl 0)
  · obtain ⟨hroute, hold⟩ | ⟨htop, p, hp, hnew⟩ := hs.route hk
    · rw [hroute]
      refine iff_of_true ⟨h.ascending, fun p hp => List.mem_append_left _ hp, h.short, ?_⟩
        (.inl hold)
      exact fun p hp hnot => absurd ((List.mem_append.mp hp).elim id (hold p)) hnot
    · rw [← InTextOrder.iff_isTop hpoints htop]
      exact ⟨fun hord => .inr ⟨hk, hord⟩,
        fun hord => hord.elim (fun hold => absurd (hold p hp) hnew) And.right⟩

/-- A run leaves the latest location and route if and only if the texts of these are in order, or,
for the route, no point was new. -/
theorem settles_iff (h : StartsFor device maxPoints start)
    {snapshots : List (LiveLocationSnapshot δ)}
    (hpoints : Coherent (start.located ++ start.route ++ received device snapshots)) :
    Settles device maxPoints collation start snapshots ↔
      InTextOrder 1 (start.located ++ received device snapshots) ∧
      ((∀ p ∈ received device snapshots, p ∈ start.route) ∨
        0 < maxPoints ∧ InTextOrder maxPoints (start.route ++ received device snapshots)) := by
  have hrun := h.tracks.run collation hpoints (fun p hp => List.mem_append_left _ hp) h snapshots
    (fun p hp => List.mem_append_right _ hp) (fun p hp => by cases hp)
  rw [List.nil_append] at hrun
  have hlocated : start.located ++ received device snapshots ⊆
      start.located ++ start.route ++ received device snapshots :=
    List.append_subset.mpr ⟨fun p hp => List.mem_append_left _ (List.mem_append_left _ hp),
      List.subset_append_right _ _⟩
  have hroute : start.route ++ received device snapshots ⊆
      start.located ++ start.route ++ received device snapshots := by
    rw [List.append_assoc]
    exact List.subset_append_right _ _
  rw [InTextOrder.iff_isTop (hpoints.mono hlocated) hrun.location,
    ← hrun.route_iff h (hpoints.mono hroute)]
  constructor
  · exact fun hsettles => ⟨hsettles.location, hsettles.route⟩
  · exact fun ⟨hlocation, hroute⟩ =>
      ⟨hlocation, hroute, h.views.reduceAll_filter maxPoints collation snapshots⟩

end

/-! ## Half a second -/

/-- A collation that compares the characters. -/
def byCharacter : Collation where
  localeCompare a b := compare a b
  le_iff s t _ _ := by rw [← compare_le_iff_le]

/-- A point of the device 7 at so many microseconds after New Year of 2026. -/
def pointAfter (micros : Time) : LocationPoint ℕ :=
  locationFromDomain
    { latitude := 10, longitude := 20, altitude := none, speed := none, accuracy := none
      batteryVoltage := none, signalStrength := none, sequenceID := 1
      recordedAt := 1767225600000000 + micros, deviceID := 7 }

def snapshotAfter (micros : Time) : LiveLocationSnapshot ℕ :=
  ⟨7, some (pointAfter micros), ⟨.onlineMoving, none, none⟩, (pointAfter micros).recordedAt⟩

/-- The state after one snapshot. -/
def newYearState : LiveLocationState ℕ := ⟨some (snapshotAfter 0), [pointAfter 0]⟩

theorem coherent_map_pointAfter (micros : List Time)
    (h : ∀ t ∈ micros, Rfc3339.InCalendar (1767225600000000 + t)) :
    Coherent (micros.map pointAfter) where
  emitted p hp := by
    obtain ⟨t, ht, rfl⟩ := List.mem_map.mp hp
    exact ⟨_, h t ht, rfl⟩
  same p hp q hq heq := by
    obtain ⟨s, hs, rfl⟩ := List.mem_map.mp hp
    obtain ⟨t, ht, rfl⟩ := List.mem_map.mp hq
    rw [instantOf_eq (h s hs) rfl, instantOf_eq (h t ht) rfl, add_right_inj] at heq
    rw [heq]

theorem startsFor_newYearState : StartsFor 7 LIVE_ROUTE_MAX_POINTS newYearState where
  views := ⟨_, rfl, rfl⟩
  ascending := List.pairwise_singleton _ _
  short := by decide

theorem reduceLiveLocation_keeps_earlier :
    StartsFor 7 LIVE_ROUTE_MAX_POINTS newYearState ∧
    Coherent (newYearState.located ++ newYearState.route ++ received 7 [snapshotAfter 500000]) ∧
    ¬ Settles 7 LIVE_ROUTE_MAX_POINTS byCharacter newYearState [snapshotAfter 500000] := by
  refine ⟨startsFor_newYearState, coherent_map_pointAfter [0, 0, 500000] (by decide), ?_⟩
  intro hsettles
  -- The location is still that of midnight, half a second later.
  have hlocated : (reduceAll LIVE_ROUTE_MAX_POINTS byCharacter newYearState
      [snapshotAfter 500000]).located = [pointAfter 0] := by decide
  have htop := hsettles.location
  rw [hlocated] at htop
  obtain ⟨-, hbelow⟩ := htop.rest (pointAfter 500000) (by decide) (by decide)
  exact absurd (hbelow (pointAfter 0) List.mem_cons_self) (by decide)

theorem settles_in_seconds : Settles 7 LIVE_ROUTE_MAX_POINTS byCharacter newYearState
    [snapshotAfter 2000000, { snapshotAfter 3000000 with deviceID := 8 },
      snapshotAfter 1000000] := by
  have hcoherent : Coherent (newYearState.located ++ newYearState.route ++ received 7
      [snapshotAfter 2000000, { snapshotAfter 3000000 with deviceID := 8 },
        snapshotAfter 1000000]) :=
    coherent_map_pointAfter [0, 0, 2000000, 1000000] (by decide)
  exact (settles_iff byCharacter startsFor_newYearState hcoherent).mpr
    ⟨by decide, .inr ⟨by decide, by decide⟩⟩

end OpenGps.Frontend
