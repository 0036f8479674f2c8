import Mathlib.Data.Int.ConditionallyCompleteOrder
import Mathlib.Data.Int.Log
import Mathlib.Data.Rat.Floor
import Mathlib.Tactic.Linarith
import Mathlib.Tactic.Ring
import Mathlib.Tactic.Positivity
import OpenGps.Lib.FixedPoint

/-!
# Doubles

The values of IEEE 754 binary64 as rationals extended by the infinities and not-a-number, and the
rounding of an exact result to the nearest double, ties to even. The two zeros are one value.

A comparison of a rounded result with a double is decided by the exact result: `nearest_mono` and
`nearest_eq_self` say so.
-/

namespace OpenGps.Lib

namespace Binary64

/-- To the nearest integer, ties to even. -/
def roundHalfEven (q : ℚ) : ℤ :=
  let n := ⌊q⌋
  if q - n < 1 / 2 ∨ (q - n = 1 / 2 ∧ n % 2 = 0) then n else n + 1

/-- The exponent of the last place of a double of the size of `q`. -/
def ulpExponent (q : ℚ) : ℤ := max (Int.log 2 q) (-1022) - 52

/-- The nearest double to a magnitude, when the exponent has no upper bound. -/
def magnitude (q : ℚ) : ℚ := roundHalfEven (q / 2 ^ ulpExponent q) * 2 ^ ulpExponent q

def nearest (q : ℚ) : ℚ := if 0 ≤ q then magnitude q else -magnitude (-q)

/-! ## Rounding to an integer -/

theorem floor_le_roundHalfEven (q : ℚ) : ⌊q⌋ ≤ roundHalfEven q := by
  unfold roundHalfEven
  dsimp only
  split
  · exact le_refl _
  · omega

theorem roundHalfEven_le_floor_succ (q : ℚ) : roundHalfEven q ≤ ⌊q⌋ + 1 := by
  unfold roundHalfEven
  dsimp only
  split
  · omega
  · exact le_refl _

theorem roundHalfEven_intCast (n : ℤ) : roundHalfEven n = n := by
  unfold roundHalfEven
  dsimp only
  rw [Int.floor_intCast, sub_self]
  exact if_pos (.inl (by norm_num))

theorem roundHalfEven_mono : Monotone roundHalfEven := by
  intro x y h
  rcases lt_or_eq_of_le (Int.floor_mono h) with hlt | heq
  · calc roundHalfEven x ≤ ⌊x⌋ + 1 := roundHalfEven_le_floor_succ x
      _ ≤ ⌊y⌋ := hlt
      _ ≤ roundHalfEven y := floor_le_roundHalfEven y
  · -- Both lie over the same integer, and the one above the tie is rounded up.
    unfold roundHalfEven
    dsimp only
    rw [heq]
    split
    · split <;> omega
    · next hx =>
      rw [if_neg]
      rintro (hy | ⟨hy, heven⟩)
      · exact hx (.inl (by linarith))
      · exact hx (((sub_le_sub_right h _).trans hy.le).lt_or_eq.imp id fun hx => ⟨hx, heven⟩)

/-! ## Rounding to a double -/

theorem magnitude_zero : magnitude 0 = 0 := by
  rw [magnitude, zero_div, show roundHalfEven 0 = 0 from roundHalfEven_intCast 0]
  simp

theorem ulp_pos (e : ℤ) : (0 : ℚ) < 2 ^ e := zpow_pos (by norm_num) e

/-- A magnitude that is a multiple of its last place is a double. -/
theorem magnitude_of_eq_mul {q : ℚ} {n : ℤ} (h : q = n * 2 ^ ulpExponent q) : magnitude q = q := by
  have hdiv : q / 2 ^ ulpExponent q = n := by
    rw [div_eq_iff (ulp_pos _).ne']
    exact h
  rw [magnitude, hdiv, roundHalfEven_intCast]
  exact h.symm

/-- A power of two above the last place bounds the magnitudes on both sides of it. -/
theorem magnitude_le_zpow {q : ℚ} {k : ℤ} (hk : ulpExponent q ≤ k) (h : q ≤ 2 ^ k) :
    magnitude q ≤ 2 ^ k := by
  obtain ⟨j, rfl⟩ := Int.le.dest hk
  have hpow : (2 : ℚ) ^ (ulpExponent q + j) = ((2 ^ j : ℤ) : ℚ) * 2 ^ ulpExponent q := by
    rw [zpow_add₀ (by norm_num), mul_comm]
    norm_cast
  have hle : q / 2 ^ ulpExponent q ≤ ((2 ^ j : ℤ) : ℚ) := by
    rw [div_le_iff₀ (ulp_pos _), ← hpow]
    exact h
  have hround := roundHalfEven_mono hle
  rw [roundHalfEven_intCast] at hround
  rw [hpow, magnitude]
  exact mul_le_mul_of_nonneg_right (by exact_mod_cast hround) (ulp_pos _).le

theorem zpow_le_magnitude {q : ℚ} {k : ℤ} (hk : ulpExponent q ≤ k) (h : 2 ^ k ≤ q) :
    2 ^ k ≤ magnitude q := by
  obtain ⟨j, rfl⟩ := Int.le.dest hk
  have hpow : (2 : ℚ) ^ (ulpExponent q + j) = ((2 ^ j : ℤ) : ℚ) * 2 ^ ulpExponent q := by
    rw [zpow_add₀ (by norm_num), mul_comm]
    norm_cast
  have hle : ((2 ^ j : ℤ) : ℚ) ≤ q / 2 ^ ulpExponent q := by
    rw [le_div_iff₀ (ulp_pos _), ← hpow]
    exact h
  have hround := roundHalfEven_mono hle
  rw [roundHalfEven_intCast] at hround
  rw [hpow, magnitude]
  exact mul_le_mul_of_nonneg_right (by exact_mod_cast hround) (ulp_pos _).le

theorem magnitude_nonneg {q : ℚ} (h : 0 ≤ q) : 0 ≤ magnitude q := by
  have hle : (0 : ℚ) ≤ q / 2 ^ ulpExponent q := div_nonneg h (ulp_pos _).le
  have hround := roundHalfEven_mono hle
  rw [show roundHalfEven 0 = 0 from roundHalfEven_intCast 0] at hround
  exact mul_nonneg (by exact_mod_cast hround) (ulp_pos _).le

theorem magnitude_mono {x y : ℚ} (hx : 0 ≤ x) (h : x ≤ y) : magnitude x ≤ magnitude y := by
  rcases hx.eq_or_lt with rfl | hpos
  · rw [magnitude_zero]
    exact magnitude_nonneg h
  have hlog : Int.log 2 x ≤ Int.log 2 y := Int.log_mono_right hpos h
  by_cases heq : ulpExponent x = ulpExponent y
  · rw [magnitude, magnitude, heq]
    refine mul_le_mul_of_nonneg_right ?_ (ulp_pos _).le
    exact_mod_cast roundHalfEven_mono (div_le_div_of_nonneg_right h (ulp_pos _).le)
  · -- The last places differ, so a power of two separates the two.
    have hlt : Int.log 2 x < Int.log 2 y ∧ -1022 < Int.log 2 y := by
      unfold ulpExponent at heq
      omega
    have hy : (2 : ℚ) ^ Int.log 2 y ≤ y := by
      exact_mod_cast Int.zpow_log_le_self (b := 2) (by norm_num) (hpos.trans_le h)
    have hx' : x ≤ (2 : ℚ) ^ Int.log 2 y := by
      have hsucc : x < (2 : ℚ) ^ (Int.log 2 x + 1) := by
        exact_mod_cast Int.lt_zpow_succ_log_self (b := 2) (by norm_num) x
      exact hsucc.le.trans (zpow_le_zpow_right₀ (by norm_num) hlt.1)
    calc magnitude x ≤ 2 ^ Int.log 2 y := magnitude_le_zpow (by unfold ulpExponent; omega) hx'
      _ ≤ magnitude y := zpow_le_magnitude (by unfold ulpExponent; omega) hy

theorem nearest_of_nonneg {q : ℚ} (h : 0 ≤ q) : nearest q = magnitude q := if_pos h

theorem nearest_neg (q : ℚ) : nearest (-q) = -nearest q := by
  unfold nearest
  rcases lt_trichotomy q 0 with h | rfl | h
  · rw [if_pos (by linarith), if_neg (not_le.mpr h), neg_neg]
  · simp [magnitude_zero]
  · rw [if_neg (by linarith), if_pos h.le, neg_neg]

theorem nearest_mono : Monotone nearest := by
  intro x y h
  rcases le_or_gt 0 x with hx | hx
  · rw [nearest_of_nonneg hx, nearest_of_nonneg (hx.trans h)]
    exact magnitude_mono hx h
  rcases le_or_gt 0 y with hy | hy
  · have hneg := magnitude_nonneg (q := -x) (by linarith)
    have hpos := magnitude_nonneg hy
    rw [nearest_of_nonneg hy, nearest, if_neg (not_le.mpr hx)]
    linarith
  · have hmono := magnitude_mono (x := -y) (y := -x) (by linarith) (by linarith)
    rw [nearest, nearest, if_neg (not_le.mpr hx), if_neg (not_le.mpr hy)]
    linarith

/-- Fifty-three bits at an exponent of the format. -/
def Representable (q : ℚ) : Prop := ∃ (n : ℤ) (e : ℤ), |n| < 2 ^ 53 ∧ -1074 ≤ e ∧ q = n * 2 ^ e

theorem nearest_eq_self {q : ℚ} (h : Representable q) : nearest q = q := by
  have hmag : ∀ {n e : ℤ}, 0 < n → n < 2 ^ 53 → -1074 ≤ e →
      magnitude ((n : ℚ) * 2 ^ e) = n * 2 ^ e := by
    intro n e hn hlt he
    have hpos : (0 : ℚ) < n * 2 ^ e := mul_pos (by exact_mod_cast hn) (ulp_pos e)
    have hulp : ulpExponent (n * 2 ^ e) ≤ e := by
      have hsize : (n : ℚ) * 2 ^ e < 2 ^ (53 + e) := by
        rw [zpow_add₀ (by norm_num)]
        exact mul_lt_mul_of_pos_right (by exact_mod_cast hlt) (ulp_pos e)
      have hlog : (2 : ℚ) ^ Int.log 2 ((n : ℚ) * 2 ^ e) < 2 ^ (53 + e) :=
        lt_of_le_of_lt (by exact_mod_cast Int.zpow_log_le_self (b := 2) (by norm_num) hpos) hsize
      have := (zpow_lt_zpow_iff_right₀ (by norm_num : (1 : ℚ) < 2)).mp hlog
      unfold ulpExponent
      omega
    obtain ⟨j, hj⟩ := Int.le.dest hulp
    refine magnitude_of_eq_mul (n := n * 2 ^ j) ?_
    conv_lhs => rw [← hj, zpow_add₀ (by norm_num)]
    push_cast
    rw [zpow_natCast]
    ring
  obtain ⟨n, e, hn, he, rfl⟩ := h
  rw [abs_lt] at hn
  rcases lt_trichotomy n 0 with hneg | rfl | hpos
  · have hcast : ((n : ℚ) * 2 ^ e) = -(((-n : ℤ) : ℚ) * 2 ^ e) := by push_cast; ring
    rw [hcast, nearest_neg, nearest_of_nonneg, hmag (by omega) (by omega) he]
    exact mul_nonneg (by exact_mod_cast (by omega : 0 ≤ -n)) (ulp_pos e).le
  · simp [nearest, magnitude_zero]
  · rw [nearest_of_nonneg (mul_nonneg (by exact_mod_cast hpos.le) (ulp_pos e).le),
      hmag hpos hn.2 he]

theorem representable_intCast {n : ℤ} (h : |n| < 2 ^ 53) : Representable n :=
  ⟨n, 0, h, by norm_num, by simp⟩

/-- Integer bounds of an exact result are bounds of its double. -/
theorem nearest_between (lo hi : ℤ) {q : ℚ} (hlo : |lo| < 2 ^ 53) (hhi : |hi| < 2 ^ 53)
    (h : lo ≤ q) (h' : q ≤ hi) : lo ≤ nearest q ∧ nearest q ≤ hi := by
  have hmono := nearest_mono h
  have hmono' := nearest_mono h'
  rw [nearest_eq_self (representable_intCast hlo)] at hmono
  rw [nearest_eq_self (representable_intCast hhi)] at hmono'
  exact ⟨hmono, hmono'⟩

/-- The distance to the double of a small value: no more than a power of two whose multiples are
doubles there. -/
theorem abs_nearest_sub_le (k : ℕ) {q : ℚ} (hk : k ≤ 1074) (h : |q * 2 ^ k| ≤ 2 ^ 52) :
    |nearest q - q| ≤ 1 / 2 ^ k := by
  have hpos : (0 : ℚ) < 2 ^ k := by positivity
  rw [abs_le] at h
  have hfloor : -2 ^ 52 ≤ ⌊q * 2 ^ k⌋ := Int.le_floor.mpr (by push_cast; exact h.1)
  have hfloor' : ⌊q * 2 ^ k⌋ ≤ 2 ^ 52 := by
    have := (Int.floor_le (q * 2 ^ k)).trans h.2
    exact_mod_cast this
  have hgrid : ∀ n : ℤ, |n| < 2 ^ 53 → nearest (n / 2 ^ k) = n / 2 ^ k := fun n hn =>
    nearest_eq_self ⟨n, -k, hn, by omega, by rw [zpow_neg, zpow_natCast, div_eq_mul_inv]⟩
  have hlo := nearest_mono ((div_le_iff₀ hpos).mpr (Int.floor_le (q * 2 ^ k)))
  have hhi := nearest_mono ((le_div_iff₀ hpos).mpr (Int.lt_floor_add_one (q * 2 ^ k)).le)
  have hcast : ((⌊q * 2 ^ k⌋ : ℚ) + 1) = ((⌊q * 2 ^ k⌋ + 1 : ℤ) : ℚ) := by push_cast; rfl
  rw [hgrid _ (by rw [abs_lt]; omega)] at hlo
  rw [hcast, hgrid _ (by rw [abs_lt]; omega), ← hcast, add_div] at hhi
  have hlo' : q < ⌊q * 2 ^ k⌋ / 2 ^ k + 1 / 2 ^ k := by
    rw [← add_div, lt_div_iff₀ hpos]
    exact Int.lt_floor_add_one _
  have hhi' : (⌊q * 2 ^ k⌋ : ℚ) / 2 ^ k ≤ q := (div_le_iff₀ hpos).mpr (Int.floor_le _)
  rw [abs_le]
  constructor <;> linarith

end Binary64

/-! ## Values and operations -/

inductive Double where
  | finite (value : ℚ)
  | infinite (negative : Bool)
  | nan
  deriving DecidableEq

namespace Double

/-- The powers of two from this exponent on are above the finite doubles. -/
def overflowExponent : ℕ := 1024

/-- The double an exact result is rounded to. -/
def ofRat (q : ℚ) : Double :=
  if ((2 ^ overflowExponent : ℕ) : ℚ) ≤ |Binary64.nearest q| then infinite (q < 0)
  else finite (Binary64.nearest q)

/-- A 32-bit integer is a double. -/
def ofInt (n : ℤ) : Double := finite n

def isFinite : Double → Bool
  | finite _ => true
  | _ => false

def add : Double → Double → Double
  | finite a, finite b => ofRat (a + b)
  | infinite s, finite _ => infinite s
  | finite _, infinite t => infinite t
  | infinite s, infinite t => if s = t then infinite s else nan
  | _, _ => nan

def neg : Double → Double
  | finite a => finite (-a)
  | infinite s => infinite !s
  | nan => nan

def mul : Double → Double → Double
  | finite a, finite b => ofRat (a * b)
  | infinite s, finite b => if b = 0 then nan else infinite (s != (b < 0))
  | finite a, infinite t => if a = 0 then nan else infinite ((a < 0) != t)
  | infinite s, infinite t => infinite (s != t)
  | _, _ => nan

def div : Double → Double → Double
  | finite a, finite b =>
    if b ≠ 0 then ofRat (a / b) else if a = 0 then nan else infinite (a < 0)
  | infinite s, finite b => infinite (s != (b < 0))
  | finite _, infinite _ => finite 0
  | _, _ => nan

/-- `<`, false on not-a-number. -/
def lt : Double → Double → Bool
  | finite a, finite b => a < b
  | infinite s, finite _ => s
  | finite _, infinite t => !t
  | infinite s, infinite t => s && !t
  | _, _ => false

/-- `<=`, false on not-a-number. -/
def le : Double → Double → Bool
  | finite a, finite b => a ≤ b
  | infinite s, finite _ => s
  | finite _, infinite t => !t
  | infinite s, infinite t => s || !t
  | _, _ => false

instance : Add Double := ⟨add⟩
instance : Sub Double := ⟨fun a b => a.add b.neg⟩
instance : Mul Double := ⟨mul⟩
instance : Div Double := ⟨div⟩
instance : LT Double := ⟨fun a b => a.lt b⟩
instance : LE Double := ⟨fun a b => a.le b⟩

instance (a b : Double) : Decidable (a < b) := inferInstanceAs (Decidable (a.lt b = true))
instance (a b : Double) : Decidable (a ≤ b) := inferInstanceAs (Decidable (a.le b = true))

/-- To the nearest integer, halves away from zero. C leaves the result open where it does not fit
`long long`; `unspecified` is what the platform returns there. -/
def llround (unspecified : Double → Int64) (x : Double) : Int64 :=
  match x with
  | finite q =>
    if -2 ^ 63 ≤ roundHalfAway q ∧ roundHalfAway q < 2 ^ 63 then Int64.ofInt (roundHalfAway q)
    else unspecified x
  | _ => unspecified x

/-! ## Results in the range of the format -/

@[simp] theorem finite_le_finite {a b : ℚ} : finite a ≤ finite b ↔ a ≤ b := decide_eq_true_iff

@[simp] theorem finite_lt_finite {a b : ℚ} : finite a < finite b ↔ a < b := decide_eq_true_iff

theorem ofRat_eq {q : ℚ} (h : |q| ≤ 2 ^ 52) : ofRat q = finite (Binary64.nearest q) := by
  rw [abs_le] at h
  have hbound := Binary64.nearest_between (-2 ^ 52) (2 ^ 52) (by norm_num) (by norm_num)
    (by exact_mod_cast h.1) (by exact_mod_cast h.2)
  have hle : |Binary64.nearest q| ≤ ((2 ^ 52 : ℕ) : ℚ) :=
    abs_le.mpr ⟨by exact_mod_cast hbound.1, by exact_mod_cast hbound.2⟩
  have hexp : 52 < overflowExponent := by decide
  exact if_neg (not_le.mpr (hle.trans_lt (Nat.cast_lt.mpr
    (Nat.pow_lt_pow_right Nat.one_lt_two hexp))))

/-- What lies between two finite doubles is finite. -/
theorem finite_of_between {x : Double} {a b : ℚ} (h : finite a ≤ x) (h' : x ≤ finite b) :
    ∃ q, x = finite q ∧ a ≤ q ∧ q ≤ b := by
  cases x with
  | finite q => exact ⟨q, rfl, finite_le_finite.mp h, finite_le_finite.mp h'⟩
  | infinite s =>
    cases s with
    | false => exact absurd (h' : false = true) Bool.false_ne_true
    | true => exact absurd (h : (!true) = true) Bool.false_ne_true
  | nan => exact absurd (h : false = true) Bool.false_ne_true

theorem ofInt_div (n : ℤ) {scale : ℚ} (h : scale ≠ 0) :
    ofInt n / finite scale = ofRat (n / scale) := if_pos h

/-- An integer over a positive scale, with integer bounds. -/
theorem ofInt_div_between (n lo hi : ℤ) {scale : ℚ} (hscale : 0 < scale) (hlo : -2 ^ 52 ≤ lo)
    (hhi : hi ≤ 2 ^ 52) (h : lo * scale ≤ n) (h' : n ≤ hi * scale) :
    ofInt n / finite scale = finite (Binary64.nearest (n / scale)) ∧
      lo ≤ Binary64.nearest (n / scale) ∧ Binary64.nearest (n / scale) ≤ hi := by
  have hle : (lo : ℚ) ≤ n / scale := (le_div_iff₀ hscale).mpr h
  have hle' : n / scale ≤ (hi : ℚ) := (div_le_iff₀ hscale).mpr h'
  have horder : lo ≤ hi := by exact_mod_cast hle.trans hle'
  have hsmall : |(n : ℚ) / scale| ≤ 2 ^ 52 := by
    have hlo' : (-2 ^ 52 : ℚ) ≤ lo := by exact_mod_cast hlo
    have hhi' : (hi : ℚ) ≤ 2 ^ 52 := by exact_mod_cast hhi
    exact abs_le.mpr ⟨hlo'.trans hle, hle'.trans hhi'⟩
  refine ⟨?_, Binary64.nearest_between lo hi (by rw [abs_lt]; omega) (by rw [abs_lt]; omega) hle hle'⟩
  rw [← ofRat_eq hsmall]
  exact ofInt_div n hscale.ne'

/-- What is less than a half from an integer is rounded to it. -/
theorem llround_of_near (unspecified : Double → Int64) {q : ℚ} {n : ℤ} (hn : |n| < 2 ^ 63)
    (h : |q - n| < 1 / 2) : (finite q).llround unspecified = Int64.ofInt n := by
  rw [abs_lt] at h hn
  have hround : roundHalfAway q = n := by
    unfold roundHalfAway
    split
    · rw [Int.floor_eq_iff]
      constructor <;> linarith
    · rw [neg_eq_iff_eq_neg, Int.floor_eq_iff]
      push_cast
      constructor <;> linarith
  unfold llround
  dsimp only
  rw [hround, if_pos ⟨by omega, hn.2⟩]

/-- A result on either side of zero is not beyond a bound when the value is less than a half beyond
it. -/
theorem llround_between_iff (unspecified : Double → Int64) {q : ℚ} {lo hi : ℤ} (hlo : lo ≤ 0)
    (hhi : 0 ≤ hi) (hq : |q| ≤ 2 ^ 62) :
    lo ≤ ((finite q).llround unspecified).toInt ∧ ((finite q).llround unspecified).toInt ≤ hi ↔
      lo - 1 / 2 < q ∧ q < hi + 1 / 2 := by
  have hlo' : (lo : ℚ) ≤ 0 := by exact_mod_cast hlo
  have hhi' : (0 : ℚ) ≤ hi := by exact_mod_cast hhi
  have hround : -2 ^ 63 ≤ roundHalfAway q ∧ roundHalfAway q < 2 ^ 63 := by
    rw [abs_le] at hq
    have hle : -2 ^ 62 ≤ roundHalfAway q :=
      FixedPoint.le_roundHalfAway (by push_cast; exact hq.1)
    have hge : roundHalfAway q ≤ 2 ^ 62 := FixedPoint.roundHalfAway_le (by push_cast; exact hq.2)
    omega
  unfold llround
  dsimp only
  rw [if_pos hround, Int64.toInt_ofInt_of_le hround.1 hround.2, roundHalfAway]
  by_cases hpos : 0 ≤ q
  · have hfloor : 0 ≤ ⌊q + 1 / 2⌋ := Int.floor_nonneg.mpr (by linarith)
    rw [if_pos hpos, show ⌊q + 1 / 2⌋ ≤ hi ↔ ⌊q + 1 / 2⌋ < hi + 1 by omega, Int.floor_lt]
    push_cast
    constructor
    · rintro ⟨-, hle⟩
      constructor <;> linarith
    · rintro ⟨-, hlt⟩
      exact ⟨by omega, by linarith⟩
  · have hfloor : 0 ≤ ⌊-q + 1 / 2⌋ := Int.floor_nonneg.mpr (by linarith)
    rw [if_neg hpos, show lo ≤ -⌊-q + 1 / 2⌋ ↔ ⌊-q + 1 / 2⌋ < -lo + 1 by omega, Int.floor_lt]
    push_cast
    constructor
    · rintro ⟨hle, -⟩
      constructor <;> linarith
    · rintro ⟨hlt, -⟩
      exact ⟨by linarith, by omega⟩

end Double

end OpenGps.Lib
