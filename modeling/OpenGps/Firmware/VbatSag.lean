import Mathlib.Algebra.Group.Action.Defs
import Mathlib.Algebra.Order.BigOperators.Group.List
import Mathlib.Algebra.Order.Ring.Nat
import Mathlib.Data.List.Induction
import Mathlib.Order.Bounds.Defs
import Mathlib.Tactic.Common

/-!
# Battery sag statistics

The tracker of battery voltages (`lib/vbat_sag`): one bucket of statistics for each system state,
fed once a second and before and after every upload, and never reset by the main loop.

A bucket counts in 16 bits and takes a count of zero for "no sample yet". The statistics are those
of the samples exactly as long as no state has seen 65536 of them; the sum, which has 32 bits, is
right as long as the count is.
-/

namespace OpenGps.Firmware

/-! ## The tracker -/

structure VbatStats where
  count : UInt16 := 0
  minMv : UInt16 := 0
  maxMv : UInt16 := 0
  sumMv : UInt32 := 0
  deriving DecidableEq

namespace VbatStats

def avgMv (s : VbatStats) : UInt16 :=
  if s.count = 0 then 0 else (s.sumMv / s.count.toUInt32).toUInt16

/-- What `VbatSagTracker::sample` does to the bucket of the sample. -/
def sample (s : VbatStats) (mv : UInt16) : VbatStats where
  minMv := if s.count = 0 then mv else if mv < s.minMv then mv else s.minMv
  maxMv := if s.count = 0 then mv else if s.maxMv < mv then mv else s.maxMv
  count := s.count + 1
  sumMv := s.sumMv + mv.toUInt32

end VbatStats

structure VbatSagTracker where
  buckets : Vector VbatStats 16
  stateCount : ℕ
  baselineMv : UInt16
  total : UInt32
  stateCount_le : stateCount ≤ 16

namespace VbatSagTracker

variable (t : VbatSagTracker)

/-- The constructor, which cuts the number of states to `MAX_STATES`. -/
def init (stateCount : ℕ) : VbatSagTracker :=
  ⟨Vector.replicate 16 {}, min stateCount 16, 0, 0, Nat.min_le_right ..⟩

def reset : VbatSagTracker :=
  { t with buckets := Vector.replicate 16 {}, baselineMv := 0, total := 0 }

def sample (state : UInt8) (mv : UInt16) : VbatSagTracker :=
  if h : state.toNat < t.stateCount ∧ mv ≠ 0 then
    have hstate : state.toNat < 16 := h.1.trans_le t.stateCount_le
    { t with
      buckets := t.buckets.set state.toNat (t.buckets[state.toNat].sample mv)
      total := t.total + 1
      baselineMv := if t.baselineMv < mv then mv else t.baselineMv }
  else t

def stats (state : UInt8) : Option VbatStats :=
  if state.toNat < t.stateCount then t.buckets[state.toNat]? else none

def sagMv (state : UInt8) : UInt16 :=
  match t.stats state with
  | none => 0
  | some s =>
    if s.count = 0 ∨ t.baselineMv = 0 ∨ t.baselineMv ≤ s.minMv then 0
    else t.baselineMv - s.minMv

/-- The samples of a list, each a state and a voltage, in turn. -/
def run (samples : List (UInt8 × UInt16)) : VbatSagTracker :=
  samples.foldl (fun t p => t.sample p.1 p.2) t

end VbatSagTracker

/-! ## True statistics -/

/-- The voltages recorded for a state: the samples of it that are not zero. -/
def recorded (state : UInt8) (samples : List (UInt8 × UInt16)) : List UInt16 :=
  samples.filterMap fun p => if p.1 = state ∧ p.2 ≠ 0 then some p.2 else none

/-- A bucket has the statistics of the voltages `vs`. -/
structure Summarises (s : VbatStats) (vs : List UInt16) : Prop where
  count : s.count.toNat = vs.length
  least : vs ≠ [] → IsLeast {v | v ∈ vs} s.minMv
  greatest : vs ≠ [] → IsGreatest {v | v ∈ vs} s.maxMv
  average : vs ≠ [] → s.avgMv.toNat = (vs.map UInt16.toNat).sum / vs.length
  ordered : vs ≠ [] → s.minMv ≤ s.avgMv ∧ s.avgMv ≤ s.maxMv

/-- What the tracker reports is true of the samples: in every state, of the rest baseline (zero
before the first sample) and of the sag (zero for a state without samples). -/
structure TrueStatistics (t : VbatSagTracker) (samples : List (UInt8 × UInt16)) : Prop where
  bucket : ∀ state, state.toNat < t.stateCount →
    ∃ s, t.stats state = some s ∧ Summarises s (recorded state samples) ∧
      (t.sagMv state).toNat =
        if recorded state samples = [] then 0 else t.baselineMv.toNat - s.minMv.toNat
  baseline_upper : ∀ state, state.toNat < t.stateCount →
    ∀ v ∈ recorded state samples, v ≤ t.baselineMv
  baseline_attained : (t.baselineMv = 0 ∧ ∀ state, state.toNat < t.stateCount →
      recorded state samples = []) ∨
    ∃ state, state.toNat < t.stateCount ∧ t.baselineMv ∈ recorded state samples

theorem recorded_concat (state : UInt8) (samples : List (UInt8 × UInt16)) (p : UInt8 × UInt16) :
    recorded state (samples ++ [p]) =
      if p.1 = state ∧ p.2 ≠ 0 then recorded state samples ++ [p.2]
      else recorded state samples := by
  rw [recorded, List.filterMap_append, ← recorded]
  split <;> simp [*]

theorem recorded_replicate (state : UInt8) {mv : UInt16} (hmv : mv ≠ 0) (n : ℕ) :
    recorded state (List.replicate n (state, mv)) = List.replicate n mv := by
  simp [recorded, hmv]

theorem ne_zero_of_mem_recorded {state : UInt8} {samples : List (UInt8 × UInt16)} {v : UInt16}
    (hv : v ∈ recorded state samples) : v ≠ 0 := by
  obtain ⟨p, -, hp⟩ := List.mem_filterMap.mp hv
  split at hp
  next h => exact Option.some.inj hp ▸ h.2
  next => cases hp

/-! ## One bucket -/

namespace VbatStats

theorem count_run (vs : List UInt16) :
    (vs.foldl sample {}).count.toNat = vs.length % 2 ^ 16 := by
  induction vs using List.reverseRecOn with
  | nil => rfl
  | append_singleton vs v ih =>
    rw [List.foldl_append, List.length_append, List.length_singleton, Nat.add_mod, ← ih]
    simp [sample]

theorem sum_run (vs : List UInt16) :
    (vs.foldl sample {}).sumMv.toNat = (vs.map UInt16.toNat).sum % 2 ^ 32 := by
  induction vs using List.reverseRecOn with
  | nil => rfl
  | append_singleton vs v ih =>
    rw [List.foldl_append, List.map_append, List.sum_append, Nat.add_mod, ← ih]
    simp [sample]

theorem count_ne_zero {vs : List UInt16} (hne : vs ≠ []) (hshort : vs.length < 2 ^ 16) :
    (vs.foldl sample {}).count ≠ 0 := by
  intro h
  have hcount := count_run vs
  rw [h, Nat.mod_eq_of_lt hshort] at hcount
  exact hne (List.length_eq_zero_iff.mp hcount.symm)

/-- A bucket whose counter has come round to zero takes the next sample for its first. -/
theorem restarts {vs : List UInt16} (hround : vs.length % 2 ^ 16 = 0) (v : UInt16) :
    ((vs ++ [v]).foldl sample {}).minMv = v ∧ ((vs ++ [v]).foldl sample {}).maxMv = v := by
  have hzero : (vs.foldl sample {}).count = 0 :=
    UInt16.toNat_inj.mp ((count_run vs).trans hround)
  simp [sample, hzero]

theorem bounds_run {vs : List UInt16} (hne : vs ≠ []) (hshort : vs.length < 2 ^ 16) :
    IsLeast {v | v ∈ vs} (vs.foldl sample {}).minMv ∧
      IsGreatest {v | v ∈ vs} (vs.foldl sample {}).maxMv := by
  induction vs using List.reverseRecOn with
  | nil => exact absurd rfl hne
  | append_singleton vs v ih =>
    rw [List.length_append, List.length_singleton] at hshort
    by_cases hvs : vs = []
    · subst hvs
      simp [sample, IsLeast, IsGreatest, lowerBounds, upperBounds]
    have hcount := count_ne_zero hvs (Nat.lt_of_succ_lt hshort)
    obtain ⟨⟨hmin, hlow⟩, hmax, hhigh⟩ := ih hvs (Nat.lt_of_succ_lt hshort)
    simp only [List.foldl_append, List.foldl_cons, List.foldl_nil, sample, if_neg hcount]
    generalize vs.foldl sample {} = s at *
    constructor
    · refine ⟨?_, fun u hu => ?_⟩
      · split <;> simp_all
      · rcases List.mem_append.mp hu with hu | hu
        · have hle := hlow hu
          split <;> grind
        · have heq := List.mem_singleton.mp hu
          split <;> grind
    · refine ⟨?_, fun u hu => ?_⟩
      · split <;> simp_all
      · rcases List.mem_append.mp hu with hu | hu
        · have hle := hhigh hu
          split <;> grind
        · have heq := List.mem_singleton.mp hu
          split <;> grind

theorem sum_le {vs : List UInt16} {k : ℕ} (h : ∀ v ∈ vs, v.toNat ≤ k) :
    (vs.map UInt16.toNat).sum ≤ vs.length * k := by
  have hle := List.sum_le_card_nsmul (vs.map UInt16.toNat) k (List.forall_mem_map.mpr h)
  rwa [List.length_map, smul_eq_mul] at hle

theorem le_sum {vs : List UInt16} {k : ℕ} (h : ∀ v ∈ vs, k ≤ v.toNat) :
    vs.length * k ≤ (vs.map UInt16.toNat).sum := by
  have hle := List.card_nsmul_le_sum (vs.map UInt16.toNat) k (List.forall_mem_map.mpr h)
  rwa [List.length_map, smul_eq_mul] at hle

theorem average_run {vs : List UInt16} (hne : vs ≠ []) (hshort : vs.length < 2 ^ 16) :
    (vs.foldl sample {}).avgMv.toNat = (vs.map UInt16.toNat).sum / vs.length := by
  have hbound : (vs.map UInt16.toNat).sum ≤ vs.length * (2 ^ 16 - 1) :=
    sum_le fun v _ => Nat.le_sub_one_of_lt v.toNat_lt
  have hcount := count_run vs
  have hsum := sum_run vs
  rw [Nat.mod_eq_of_lt hshort] at hcount
  rw [Nat.mod_eq_of_lt (by omega)] at hsum
  rw [avgMv, if_neg (count_ne_zero hne hshort), UInt32.toNat_toUInt16, UInt32.toNat_div,
    UInt16.toNat_toUInt32, hcount, hsum]
  -- The quotient is at most the greatest voltage, so the cast to 16 bits keeps it.
  have hpos := List.length_pos_iff.mpr hne
  exact Nat.mod_eq_of_lt (Nat.div_lt_of_lt_mul (by omega))

theorem summarises_run {vs : List UInt16} (hshort : vs.length < 2 ^ 16) :
    Summarises (vs.foldl sample {}) vs where
  count := (count_run vs).trans (Nat.mod_eq_of_lt hshort)
  least hne := (bounds_run hne hshort).1
  greatest hne := (bounds_run hne hshort).2
  average hne := average_run hne hshort
  ordered hne := by
    obtain ⟨hleast, hgreatest⟩ := bounds_run hne hshort
    have hpos := List.length_pos_iff.mpr hne
    rw [UInt16.le_iff_toNat_le, UInt16.le_iff_toNat_le, average_run hne hshort]
    constructor
    · rw [Nat.le_div_iff_mul_le hpos, mul_comm]
      refine le_sum fun v hv => ?_
      exact UInt16.le_iff_toNat_le.mp (hleast.2 hv)
    · refine Nat.div_le_of_le_mul (sum_le fun v hv => ?_)
      exact UInt16.le_iff_toNat_le.mp (hgreatest.2 hv)

end VbatStats

/-! ## The whole tracker -/

namespace VbatSagTracker

variable (t : VbatSagTracker) {state : UInt8} (samples : List (UInt8 × UInt16))

theorem stats_sample (s : UInt8) (mv : UInt16) :
    (t.sample s mv).stats state =
      if s = state ∧ mv ≠ 0 then (t.stats state).map (·.sample mv) else t.stats state := by
  by_cases hrecorded : s.toNat < t.stateCount ∧ mv ≠ 0
  · have hs : s.toNat < 16 := hrecorded.1.trans_le t.stateCount_le
    rw [sample, dif_pos hrecorded]
    by_cases heq : s = state
    · subst heq
      simp [stats, hrecorded.1, hrecorded.2, hs]
    · have hne : s.toNat ≠ state.toNat := fun h => heq (UInt8.toNat_inj.mp h)
      simp [stats, heq, Vector.getElem?_set_ne, hne]
  · rw [sample, dif_neg hrecorded]
    split
    next h =>
      obtain ⟨rfl, hmv⟩ := h
      have hout : ¬ s.toNat < t.stateCount := fun hlt => hrecorded ⟨hlt, hmv⟩
      simp [stats, hout]
    next => rfl

@[simp] theorem stateCount_sample (s : UInt8) (mv : UInt16) :
    (t.sample s mv).stateCount = t.stateCount := by
  unfold sample
  split <;> rfl

theorem run_concat (p : UInt8 × UInt16) :
    t.run (samples ++ [p]) = (t.run samples).sample p.1 p.2 := by
  rw [run, List.foldl_append]
  rfl

@[simp] theorem stateCount_run : (t.run samples).stateCount = t.stateCount := by
  induction samples using List.reverseRecOn with
  | nil => rfl
  | append_singleton samples p ih => rw [run_concat, stateCount_sample, ih]

theorem stats_run (hstate : state.toNat < t.stateCount) :
    (t.reset.run samples).stats state =
      some ((recorded state samples).foldl VbatStats.sample {}) := by
  induction samples using List.reverseRecOn with
  | nil =>
    have hlt : state.toNat < 16 := hstate.trans_le t.stateCount_le
    simp [run, stats, reset, hstate, hlt, recorded]
  | append_singleton samples p ih =>
    rw [run_concat, stats_sample, ih, recorded_concat]
    split
    next => rw [List.foldl_append]; rfl
    next => rfl

theorem baselineMv_sample (s : UInt8) (mv : UInt16) :
    (t.sample s mv).baselineMv =
      if s.toNat < t.stateCount ∧ mv ≠ 0 ∧ t.baselineMv < mv then mv else t.baselineMv := by
  unfold sample
  split <;> grind

/-- The rest baseline needs no counter: it is the greatest voltage of any run. -/
theorem baseline_run :
    (∀ state, state.toNat < t.stateCount →
      ∀ v ∈ recorded state samples, v ≤ (t.reset.run samples).baselineMv) ∧
    ((t.reset.run samples).baselineMv = 0 ∨ ∃ state, state.toNat < t.stateCount ∧
      (t.reset.run samples).baselineMv ∈ recorded state samples) := by
  induction samples using List.reverseRecOn with
  | nil => exact ⟨fun _ _ _ hv => absurd hv List.not_mem_nil, .inl rfl⟩
  | append_singleton samples p ih =>
    obtain ⟨hupper, hattained⟩ := ih
    have hcount : (t.reset.run samples).stateCount = t.stateCount := stateCount_run ..
    rw [run_concat, baselineMv_sample, hcount]
    generalize (t.reset.run samples).baselineMv = top at *
    constructor
    · intro state hstate v hv
      rw [recorded_concat] at hv
      have hold := hupper state hstate v
      split at hv <;> grind
    · split
      next h => exact .inr ⟨p.1, h.1, by simp [recorded_concat, h.2.1]⟩
      next =>
        refine hattained.imp_right fun ⟨state, hstate, hmem⟩ => ⟨state, hstate, ?_⟩
        rw [recorded_concat]
        split
        next => exact List.mem_append_left _ hmem
        next => exact hmem

/-- A state with fewer than 65536 samples has their statistics, whatever the others have. -/
theorem bucket_true (hstate : state.toNat < t.stateCount)
    (hshort : (recorded state samples).length < 2 ^ 16) :
    ∃ s, (t.reset.run samples).stats state = some s ∧
      Summarises s (recorded state samples) ∧
      ((t.reset.run samples).sagMv state).toNat =
        if recorded state samples = [] then 0
        else (t.reset.run samples).baselineMv.toNat - s.minMv.toNat := by
  have hstats := stats_run t samples hstate
  have hsummary := VbatStats.summarises_run hshort
  refine ⟨_, hstats, hsummary, ?_⟩
  rw [sagMv, hstats]
  by_cases hnone : recorded state samples = []
  · simp [hnone]
  have hcount := VbatStats.count_ne_zero hnone hshort
  have hmin := (baseline_run t samples).1 state hstate _ (hsummary.least hnone).1
  simp only [hcount, false_or, if_neg hnone]
  split
  next hzero => grind
  next => exact UInt16.toNat_sub_of_le _ _ hmin

end VbatSagTracker

open VbatSagTracker

/-- The statistics are those of the samples since the last reset exactly when no state has seen
65536 of them. -/
theorem statistics_true_iff (t : VbatSagTracker) (samples : List (UInt8 × UInt16)) :
    TrueStatistics (t.reset.run samples) samples ↔
      ∀ state, state.toNat < t.stateCount → (recorded state samples).length < 2 ^ 16 := by
  have hstates : (t.reset.run samples).stateCount = t.stateCount := stateCount_run ..
  constructor
  · intro htrue state hstate
    obtain ⟨s, hs, hsummary, -⟩ := htrue.bucket state (hstates ▸ hstate)
    rw [← hsummary.count]
    exact s.count.toNat_lt
  · intro hshort
    obtain ⟨hupper, hattained⟩ := baseline_run t samples
    refine ⟨?_, ?_, ?_⟩
    · intro state hstate
      rw [hstates] at hstate
      exact bucket_true t samples hstate (hshort state hstate)
    · exact fun state hstate => hupper state (hstates ▸ hstate)
    · rw [hstates]
      refine hattained.imp_left fun hzero => ⟨hzero, fun state hstate => ?_⟩
      -- A recorded voltage is not zero, and none is above the baseline.
      refine List.eq_nil_iff_forall_not_mem.mpr fun v hv => ?_
      have hle := hupper state hstate v hv
      rw [hzero] at hle
      exact ne_zero_of_mem_recorded hv (UInt16.le_zero_iff.mp hle)

/-- Eighteen hours of one sample a second in one state, and the tracker reports that it has none. -/
theorem statistics_lost : ¬ ∀ (t : VbatSagTracker) (samples : List (UInt8 × UInt16)),
    TrueStatistics (t.reset.run samples) samples := by
  intro hall
  have htrue := hall (init 16) (List.replicate 65536 (0, 4000))
  obtain ⟨s, hs, hsummary, -⟩ := htrue.bucket 0 (by rw [stateCount_run]; decide)
  have hcount := hsummary.count
  rw [recorded_replicate 0 (by decide), List.length_replicate] at hcount
  exact absurd s.count.toNat_lt (by omega)

end OpenGps.Firmware
