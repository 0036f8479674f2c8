import OpenGps.Lib.Binary64
import OpenGps.Lib.Rfc3339Format

/-!
# Decimal texts

A number with a fixed count of decimals, rounded to the nearest, ties to even, as `printf` does it.
What is read back is no further off than half a unit of the last decimal, and a number that is close
to a multiple of that unit is read back as the multiple.
-/

namespace OpenGps.Lib

namespace Decimal

open Binary64 (roundHalfEven roundHalfEven_intCast roundHalfEven_mono)
open Rfc3339 (padded)

/-- The units of the last decimal in a magnitude. -/
def units (decimals : ℕ) (x : ℚ) : ℕ := (roundHalfEven (|x| * 10 ^ decimals)).toNat

def unsignedText (decimals n : ℕ) : List Char :=
  Nat.toDigits 10 (n / 10 ^ decimals) ++ '.' :: padded decimals (n % 10 ^ decimals)

/-- `%.<decimals>f` -/
def fixedText (decimals : ℕ) (x : ℚ) : List Char :=
  if x < 0 then '-' :: unsignedText decimals (units decimals x)
  else unsignedText decimals (units decimals x)

def readUnsigned (text : List Char) : Option ℚ :=
  let whole := text.takeWhile (· ≠ '.')
  let fraction := (text.dropWhile (· ≠ '.')).drop 1
  if whole ≠ [] ∧ whole.all Char.isDigit ∧ fraction.all Char.isDigit then
    some (Nat.ofDigitChars 10 whole 0 + Nat.ofDigitChars 10 fraction 0 / 10 ^ fraction.length)
  else none

def read (text : List Char) : Option ℚ :=
  if text.head? = some '-' then (readUnsigned text.tail).map fun x => -x else readUnsigned text

/-- `Itoa` -/
def intText (n : ℤ) : List Char :=
  if n < 0 then '-' :: Nat.toDigits 10 n.natAbs else Nat.toDigits 10 n.natAbs

def readInt (text : List Char) : Option ℤ :=
  let digits := if text.head? = some '-' then text.tail else text
  if digits ≠ [] ∧ digits.all Char.isDigit then
    some (if text.head? = some '-' then -(Nat.ofDigitChars 10 digits 0 : ℤ)
      else Nat.ofDigitChars 10 digits 0)
  else none

/-! ## Reading what was written -/

theorem head?_toDigits_append (n : ℕ) (text : List Char) :
    (Nat.toDigits 10 n ++ text).head? ≠ some '-' := by
  obtain ⟨c, digits, hdigits⟩ :=
    List.exists_cons_of_ne_nil (show Nat.toDigits 10 n ≠ [] from Nat.toDigits_ne_nil)
  have hc : c.isDigit := Nat.isDigit_of_mem_toDigits (by decide) (by decide)
    (hdigits ▸ List.mem_cons_self)
  rw [hdigits, List.cons_append, List.head?_cons]
  intro h
  obtain rfl := Option.some.inj h
  exact absurd hc (by decide)

theorem mem_intText {n : ℤ} {c : Char} (h : c ∈ intText n) : c = '-' ∨ c.isDigit := by
  have hdigit : c ∈ Nat.toDigits 10 n.natAbs → c.isDigit := fun hc =>
    Nat.isDigit_of_mem_toDigits (by decide) (by decide) hc
  unfold intText at h
  split at h
  · obtain rfl | h := List.mem_cons.mp h
    · exact .inl rfl
    · exact .inr (hdigit h)
  · exact .inr (hdigit h)

theorem readInt_intText (n : ℤ) : readInt (intText n) = some n := by
  have hdigits : (Nat.toDigits 10 n.natAbs).all Char.isDigit = true :=
    List.all_eq_true.mpr fun c hc => Nat.isDigit_of_mem_toDigits (by decide) (by decide) hc
  have hhead : (Nat.toDigits 10 n.natAbs).head? ≠ some '-' := by
    simpa using head?_toDigits_append n.natAbs []
  unfold intText readInt
  split
  · next hneg =>
    simp only [List.head?_cons, if_true, List.tail_cons]
    rw [if_pos ⟨Nat.toDigits_ne_nil, hdigits⟩, Nat.ofDigitChars_ten_toDigits]
    exact congrArg some (by omega)
  · next hpos =>
    dsimp only
    rw [if_pos ⟨Nat.toDigits_ne_nil, hdigits⟩, Nat.ofDigitChars_ten_toDigits]
    exact congrArg some (by omega)

theorem readUnsigned_text (decimals n : ℕ) :
    readUnsigned (unsignedText decimals n) = some ((n : ℚ) / 10 ^ decimals) := by
  have hunit : (0 : ℚ) < 10 ^ decimals := by positivity
  have hwhole : ∀ c ∈ Nat.toDigits 10 (n / 10 ^ decimals), c.isDigit := fun c hc =>
    Nat.isDigit_of_mem_toDigits (by decide) (by decide) hc
  have hpoint : ∀ c ∈ Nat.toDigits 10 (n / 10 ^ decimals), decide (c ≠ '.') = true := by
    intro c hc
    refine decide_eq_true ?_
    rintro rfl
    exact absurd (hwhole '.' hc) (by decide)
  have htake : (unsignedText decimals n).takeWhile (· ≠ '.') =
      Nat.toDigits 10 (n / 10 ^ decimals) := by
    rw [unsignedText, List.takeWhile_append_of_pos hpoint]
    simp
  have hdrop : ((unsignedText decimals n).dropWhile (· ≠ '.')).drop 1 =
      padded decimals (n % 10 ^ decimals) := by
    rw [unsignedText, List.dropWhile_append_of_pos hpoint]
    simp
  unfold readUnsigned
  rw [htake, hdrop]
  dsimp only
  rw [if_pos ⟨Nat.toDigits_ne_nil, List.all_eq_true.mpr hwhole,
    List.all_eq_true.mpr fun c hc => Rfc3339.isDigit_of_mem_padded hc⟩,
    Nat.ofDigitChars_ten_toDigits, Rfc3339.ofDigitChars_padded (Nat.mod_lt _ (by positivity)),
    Rfc3339.length_padded]
  congr 1
  have hsplit : ((10 ^ decimals * (n / 10 ^ decimals) + n % 10 ^ decimals : ℕ) : ℚ) = n := by
    rw [Nat.div_add_mod]
  push_cast at hsplit
  rw [eq_div_iff hunit.ne', add_mul, div_mul_cancel₀ _ hunit.ne']
  linarith

/-- The number that is read back. -/
def rounded (decimals : ℕ) (x : ℚ) : ℚ :=
  if x < 0 then -((units decimals x : ℚ) / 10 ^ decimals)
  else (units decimals x : ℚ) / 10 ^ decimals

theorem read_fixedText (decimals : ℕ) (x : ℚ) :
    read (fixedText decimals x) = some (rounded decimals x) := by
  unfold fixedText rounded read
  split
  · rw [List.head?_cons, if_pos rfl, List.tail_cons, readUnsigned_text]
    rfl
  · have hdigit : (unsignedText decimals (units decimals x)).head? ≠ some '-' :=
      head?_toDigits_append _ _
    rw [if_neg hdigit, readUnsigned_text]

/-! ## Rounding -/

theorem abs_roundHalfEven_sub_le (q : ℚ) : |(roundHalfEven q : ℚ) - q| ≤ 1 / 2 := by
  have hle := Int.floor_le q
  have hlt := Int.lt_floor_add_one q
  rw [abs_le]
  unfold roundHalfEven
  dsimp only
  split
  · next h =>
    constructor
    · obtain h | ⟨h, -⟩ := h <;> linarith
    · linarith
  · next h =>
    obtain ⟨hnear, -⟩ := not_or.mp h
    push_cast
    constructor <;> linarith

theorem roundHalfEven_of_near {q : ℚ} {n : ℤ} (h : |q - n| < 1 / 2) : roundHalfEven q = n := by
  have hround := abs_roundHalfEven_sub_le q
  rw [abs_le] at hround
  rw [abs_lt] at h
  have hlo : ((n - 1 : ℤ) : ℚ) < roundHalfEven q := by push_cast; linarith
  have hhi : (roundHalfEven q : ℚ) < (n + 1 : ℤ) := by push_cast; linarith
  have hlo' : n - 1 < roundHalfEven q := by exact_mod_cast hlo
  have hhi' : roundHalfEven q < n + 1 := by exact_mod_cast hhi
  omega

theorem units_eq (decimals : ℕ) (x : ℚ) :
    ((units decimals x : ℕ) : ℚ) = roundHalfEven (|x| * 10 ^ decimals) := by
  have hnonneg : 0 ≤ roundHalfEven (|x| * 10 ^ decimals) := by
    have hmono := roundHalfEven_mono (show (0 : ℚ) ≤ |x| * 10 ^ decimals by positivity)
    have hzero : roundHalfEven 0 = 0 := by exact_mod_cast roundHalfEven_intCast 0
    rwa [hzero] at hmono
  rw [units, ← Int.cast_natCast, Int.toNat_of_nonneg hnonneg]

theorem abs_rounded_sub_le (decimals : ℕ) (x : ℚ) :
    |rounded decimals x - x| ≤ 1 / (2 * 10 ^ decimals) := by
  have hunit : (0 : ℚ) < 10 ^ decimals := by positivity
  have hround := abs_roundHalfEven_sub_le (|x| * 10 ^ decimals)
  have hmagnitude : |((units decimals x : ℕ) : ℚ) / 10 ^ decimals - (|x|)| ≤
      1 / (2 * 10 ^ decimals) := by
    rw [units_eq, div_sub' hunit.ne', abs_div, abs_of_pos hunit, div_le_iff₀ hunit, mul_comm _ |x|]
    calc |(roundHalfEven (|x| * 10 ^ decimals) : ℚ) - |x| * 10 ^ decimals| ≤ 1 / 2 := hround
      _ = 1 / (2 * 10 ^ decimals) * 10 ^ decimals := by field_simp
  unfold rounded
  split
  · next hneg =>
    rw [abs_of_neg hneg, sub_neg_eq_add] at hmagnitude
    rw [← abs_neg, neg_sub, sub_neg_eq_add, add_comm]
    exact hmagnitude
  · next hpos =>
    rwa [abs_of_nonneg (not_lt.mp hpos)] at hmagnitude

/-- A number close to a multiple of the last decimal is read back as the multiple. -/
theorem rounded_of_near {decimals : ℕ} {x : ℚ} {n : ℤ}
    (h : |x - n / 10 ^ decimals| < 1 / (2 * 10 ^ decimals)) :
    rounded decimals x = n / 10 ^ decimals := by
  have hunit : (0 : ℚ) < 10 ^ decimals := by positivity
  have hscaled : |x * 10 ^ decimals - n| < 1 / 2 := by
    have hfactor : x * 10 ^ decimals - n = (x - n / 10 ^ decimals) * 10 ^ decimals := by
      field_simp
    rw [hfactor, abs_mul, abs_of_pos hunit]
    calc |x - n / 10 ^ decimals| * 10 ^ decimals <
        1 / (2 * 10 ^ decimals) * 10 ^ decimals := by gcongr
      _ = 1 / 2 := by field_simp
  unfold rounded
  split
  · next hneg =>
    have hnear : |(|x| * 10 ^ decimals) - ((-n : ℤ) : ℚ)| < 1 / 2 := by
      rw [abs_of_neg hneg]
      push_cast
      rw [← abs_neg]
      convert hscaled using 2
      ring
    rw [units_eq, roundHalfEven_of_near hnear]
    push_cast
    ring
  · next hpos =>
    rw [units_eq, abs_of_nonneg (not_lt.mp hpos), roundHalfEven_of_near hscaled]

end Decimal

end OpenGps.Lib
