import Mathlib.Data.Rat.Floor
import Mathlib.Tactic.Linarith
import Mathlib.Tactic.NormNum
import Mathlib.Tactic.Positivity
import Mathlib.Tactic.FieldSimp

/-!
# Values kept as an integer of units

A rational is multiplied by a scale, rounded to the nearest integer, halves away from zero, and
divided by the scale again. What comes back is within half a unit, and it is zero only for what was
below half a unit.
-/

namespace OpenGps.Lib

/-- The nearest integer, halves away from zero. -/
def roundHalfAway (q : ℚ) : ℤ := if 0 ≤ q then ⌊q + 1 / 2⌋ else -⌊-q + 1 / 2⌋

namespace FixedPoint

@[simp] theorem roundHalfAway_zero : roundHalfAway 0 = 0 := by
  rw [roundHalfAway, if_pos (le_refl 0), zero_add]
  exact Int.floor_eq_zero_iff.mpr ⟨by norm_num, by norm_num⟩

theorem abs_roundHalfAway_sub_le (q : ℚ) : |roundHalfAway q - q| ≤ 1 / 2 := by
  rw [roundHalfAway, abs_le]
  split
  · have hle := Int.floor_le (q + 1 / 2)
    have hlt := Int.lt_floor_add_one (q + 1 / 2)
    constructor <;> linarith
  · have hle := Int.floor_le (-q + 1 / 2)
    have hlt := Int.lt_floor_add_one (-q + 1 / 2)
    push_cast
    constructor <;> linarith

theorem roundHalfAway_nonneg {q : ℚ} (h : 0 ≤ q) : 0 ≤ roundHalfAway q := by
  rw [roundHalfAway, if_pos h]
  exact Int.floor_nonneg.mpr (by linarith)

theorem le_roundHalfAway {n : ℤ} {q : ℚ} (h : n ≤ q) : n ≤ roundHalfAway q := by
  have hclose := abs_le.mp (abs_roundHalfAway_sub_le q)
  by_contra hlt
  have hsucc : (roundHalfAway q : ℚ) + 1 ≤ n := by exact_mod_cast (by omega)
  linarith

theorem roundHalfAway_le {n : ℤ} {q : ℚ} (h : q ≤ n) : roundHalfAway q ≤ n := by
  have hclose := abs_le.mp (abs_roundHalfAway_sub_le q)
  by_contra hlt
  have hsucc : (n : ℚ) + 1 ≤ roundHalfAway q := by exact_mod_cast (by omega)
  linarith

/-- A half is already rounded away from zero. -/
theorem abs_lt_of_roundHalfAway_eq_zero {q : ℚ} (h : roundHalfAway q = 0) : |q| < 1 / 2 := by
  rw [abs_lt]
  unfold roundHalfAway at h
  split at h
  · next hq =>
    have hfloor := (Int.floor_eq_zero_iff.mp h).2
    constructor <;> linarith
  · next hq =>
    have hfloor := (Int.floor_eq_zero_iff.mp (neg_eq_zero.mp h)).2
    constructor <;> linarith

end FixedPoint

/-- What comes back of `x` is `y`: within half a unit, never negative for what was not, nothing for
nothing, and nothing for something only where that was below half a unit. -/
structure Rounds (scale x y : ℚ) : Prop where
  close : |y - x| ≤ 1 / 2 / scale
  nonneg : 0 ≤ x → 0 ≤ y
  nothing : x = 0 → y = 0
  lost : y = 0 → |x| < 1 / 2 / scale

namespace Rounds

open FixedPoint

variable {scale x : ℚ}

theorem zero (h : 0 < scale) : Rounds scale 0 0 where
  close := by
    rw [sub_zero, abs_zero]
    positivity
  nonneg := id
  nothing := id
  lost _ := by
    rw [abs_zero]
    positivity

theorem of_round (h : 0 < scale) : Rounds scale x (roundHalfAway (x * scale) / scale) where
  close := by
    have hsub : roundHalfAway (x * scale) / scale - x =
        (roundHalfAway (x * scale) - x * scale) / scale := by
      field_simp
    rw [hsub, abs_div, abs_of_pos h]
    exact div_le_div_of_nonneg_right (abs_roundHalfAway_sub_le _) h.le
  nonneg hx :=
    div_nonneg (by exact_mod_cast roundHalfAway_nonneg (mul_nonneg hx h.le)) h.le
  nothing hx := by simp [hx]
  lost hy := by
    have hzero : roundHalfAway (x * scale) = 0 := by
      rcases div_eq_zero_iff.mp hy with hround | hscale
      · exact_mod_cast hround
      · exact absurd hscale h.ne'
    have hlt := abs_lt_of_roundHalfAway_eq_zero hzero
    rw [abs_mul, abs_of_pos h] at hlt
    exact (lt_div_iff₀ h).mpr hlt

end Rounds

end OpenGps.Lib
