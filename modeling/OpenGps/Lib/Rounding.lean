import Mathlib.Algebra.Order.BigOperators.Group.Multiset
import Mathlib.Algebra.Order.Field.Basic
import Mathlib.Data.List.Induction
import Mathlib.Tactic.Linarith
import Mathlib.Tactic.Ring
import OpenGps.Lib.Binary64

/-!
# Rounded sums

A floating-point format rounds the exact result of each operation. What a loop adds up is therefore
not the sum of its values, but it is near it: each addition costs at most one rounding, as long as
the results stay where the format is that precise.
-/

namespace OpenGps.Lib

variable {K : Type} [Field K]

/-- The sum as a loop computes it: every addition is rounded. -/
def roundedSum (round : K → K) (values : List K) : K :=
  values.foldl (fun sum v => round (sum + v)) 0

@[simp] theorem roundedSum_nil (round : K → K) : roundedSum round [] = 0 := rfl

@[simp] theorem roundedSum_concat (round : K → K) (values : List K) (v : K) :
    roundedSum round (values ++ [v]) = round (roundedSum round values + v) := by
  rw [roundedSum, roundedSum, List.foldl_append, List.foldl_cons, List.foldl_nil]

variable [LinearOrder K]

/-- Up to `bound`, a result is rounded by at most `error`. -/
structure RoundsWithin (round : K → K) (bound error : K) : Prop where
  nonneg : 0 ≤ error
  near : ∀ x, |x| ≤ bound → |round x - x| ≤ error

variable [IsStrictOrderedRing K]

theorem abs_sum_le (values : List K) : |values.sum| ≤ (values.map (|·|)).sum := by
  have h := Multiset.abs_sum_le_sum_abs (s := (values : Multiset K))
  simpa using h

namespace RoundsWithin

variable {round : K → K} {bound error : K}

/-- One more rounding of a result that is already off. -/
theorem of_near (h : RoundsWithin round bound error) {computed exact off : K}
    (hbound : |computed| ≤ bound) (hnear : |computed - exact| ≤ off) :
    |round computed - exact| ≤ off + error := by
  have hround := h.near computed hbound
  calc |round computed - exact| = |(computed - exact) + (round computed - computed)| := by
        rw [sub_add_sub_cancel']
    _ ≤ |computed - exact| + |round computed - computed| := abs_add_le _ _
    _ ≤ off + error := add_le_add hnear hround

/-- Every addition is off by one rounding more. -/
theorem sum (h : RoundsWithin round bound error) (values : List K)
    (hbound : (values.map (|·|)).sum + values.length * error ≤ bound) :
    |roundedSum round values - values.sum| ≤ values.length * error := by
  induction values using List.reverseRecOn with
  | nil => simp
  | append_singleton values v ih =>
    have hnonneg := h.nonneg
    have hv := abs_nonneg v
    simp only [List.map_append, List.map_cons, List.map_nil, List.sum_append, List.sum_cons,
      List.sum_nil, add_zero, List.length_append, List.length_cons, List.length_nil, zero_add,
      Nat.cast_add, Nat.cast_one, add_mul, one_mul, roundedSum_concat] at hbound ⊢
    have hsum := ih (by linarith)
    have hexact := abs_sum_le values
    have hoff : |roundedSum round values + v - (values.sum + v)| ≤ values.length * error := by
      rw [add_sub_add_right_eq_sub]
      exact hsum
    refine h.of_near ?_ hoff
    calc |roundedSum round values + v|
        = |(roundedSum round values - values.sum) + (values.sum + v)| := by congr 1; ring
      _ ≤ |roundedSum round values - values.sum| + |values.sum + v| := abs_add_le _ _
      _ ≤ |roundedSum round values - values.sum| + (|values.sum| + |v|) :=
        add_le_add_right (abs_add_le _ _) _
      _ ≤ bound := by linarith

/-- The average is off by two roundings, whatever the number of values. -/
theorem average (h : RoundsWithin round bound error) {values : List K} (hne : values ≠ [])
    (hbound : (values.map (|·|)).sum + values.length * error ≤ bound) :
    |round (roundedSum round values / values.length) - values.sum / values.length| ≤
      2 * error := by
  have hpos : (0 : K) < values.length := Nat.cast_pos.mpr (List.length_pos_iff.mpr hne)
  have hone : (1 : K) ≤ values.length := Nat.one_le_cast.mpr (List.length_pos_iff.mpr hne)
  have hsum := h.sum values hbound
  have hexact := abs_sum_le values
  have hoff : |roundedSum round values / values.length - values.sum / values.length| ≤ error := by
    rw [← sub_div, abs_div, abs_of_pos hpos, div_le_iff₀ hpos, mul_comm]
    exact hsum
  have hrange : |roundedSum round values / values.length| ≤ bound := by
    rw [abs_div, abs_of_pos hpos]
    calc |roundedSum round values| / values.length
        ≤ |roundedSum round values| := div_le_self (abs_nonneg _) hone
      _ = |(roundedSum round values - values.sum) + values.sum| := by rw [sub_add_cancel]
      _ ≤ |roundedSum round values - values.sum| + |values.sum| := abs_add_le _ _
      _ ≤ bound := by linarith
  rw [two_mul]
  exact h.of_near hrange hoff

/-- A rounded quotient makes up what was divided, but for one rounding for each part. -/
theorem div_mul (h : RoundsWithin round bound error) {total : K} (htotal : |total| ≤ bound) {n : ℕ}
    (hn : 0 < n) : |round (total / n) * n - total| ≤ n * error := by
  have hpos : (0 : K) < n := Nat.cast_pos.mpr hn
  have hrange : |total / n| ≤ bound := by
    rw [abs_div, abs_of_pos hpos]
    exact (div_le_self (abs_nonneg _) (Nat.one_le_cast.mpr hn)).trans htotal
  have hmul : round (total / n) * n - total = (round (total / n) - total / n) * n := by
    rw [sub_mul, div_mul_cancel₀ _ hpos.ne']
  rw [hmul, abs_mul, abs_of_pos hpos, mul_comm]
  exact mul_le_mul_of_nonneg_left (h.near _ hrange) hpos.le

end RoundsWithin

/-- The doubles up to a power of two are precise to that power over `2 ^ 52`. -/
theorem roundsWithin_nearest {k : ℕ} (hk : k ≤ 1074) :
    RoundsWithin Binary64.nearest (2 ^ 52 / 2 ^ k) (1 / 2 ^ k) := by
  have hpos : (0 : ℚ) < 2 ^ k := by positivity
  refine ⟨by positivity, fun x hx => Binary64.abs_nearest_sub_le k hk ?_⟩
  rw [abs_mul, abs_of_pos hpos]
  exact (le_div_iff₀ hpos).mp hx

end OpenGps.Lib
