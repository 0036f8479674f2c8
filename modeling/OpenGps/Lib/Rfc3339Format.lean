import Mathlib.Data.List.DropRight
import Mathlib.Tactic.IntervalCases
import OpenGps.Lib.Rfc3339

/-!
# RFC 3339 texts of instants

The text that Go writes for an instant in UTC with the layout `2006-01-02T15:04:05.999999999Z07:00`.
A fraction of a second is there only when it is not zero, and without the zeros at its end. Each
instant of the years 0 to 9999 is read back from its text, so no two of them share one.
-/

namespace OpenGps.Lib

namespace Rfc3339

/-! ## The calendar -/

/-- The year of a day, counted from March, and the day of that year, from 0. -/
def yearOfDays (days : Int) : Int × Int :=
  let cycle := (days + 719468) / 146097
  let d := (days + 719468) % 146097
  let century := min (d / 36524) 3
  let d := d - century * 36524
  let leaps := d / 1461
  let d := d % 1461
  let year := min (d / 365) 3
  (cycle * 400 + century * 100 + leaps * 4 + year, d - year * 365)

/-- The date of a day since 1970-01-01, as a year, a month and a day. -/
def civilFromDays (days : Int) : Nat × Nat × Nat :=
  let (year, d) := yearOfDays days
  let monthFromMarch := (5 * d + 2) / 153
  let day := d - (153 * monthFromMarch + 2) / 5 + 1
  if monthFromMarch < 10 then (year.toNat, (monthFromMarch + 3).toNat, day.toNat)
  else ((year + 1).toNat, (monthFromMarch - 9).toNat, day.toNat)

theorem yearOfDays_spec {days y d : Int} (h : yearOfDays days = (y, d)) :
    y * 365 + y / 4 - y / 100 + y / 400 + d - 719468 = days ∧ 0 ≤ d ∧ d ≤ 365 ∧
      (d = 365 → (y + 1) % 4 = 0 ∧ ((y + 1) % 100 ≠ 0 ∨ (y + 1) % 400 = 0)) := by
  obtain ⟨rfl, rfl⟩ := Prod.mk.inj h
  generalize hcycle : (days + 719468) / 146097 = cycle
  generalize hd : (days + 719468) % 146097 = d
  have hdays : days = cycle * 146097 + d - 719468 ∧ 0 ≤ d ∧ d < 146097 := by omega
  -- The last day of a cycle belongs to its fourth century.
  generalize hcentury : min (d / 36524) 3 = century
  generalize hd' : d - century * 36524 = d'
  have hcentury' : 0 ≤ century ∧ century ≤ 3 ∧ 0 ≤ d' ∧ d' ≤ 36524 ∧
      (d' = 36524 → century = 3) := by omega
  generalize hleaps : d' / 1461 = leaps
  generalize hd'' : d' % 1461 = d''
  have hleaps' : d' = leaps * 1461 + d'' ∧ 0 ≤ leaps ∧ leaps ≤ 24 ∧ 0 ≤ d'' ∧ d'' < 1461 := by
    omega
  -- The last day of four years belongs to the fourth.
  generalize hyear : min (d'' / 365) 3 = year
  have hyear' : 0 ≤ year ∧ year ≤ 3 ∧ 0 ≤ d'' - year * 365 ∧ d'' - year * 365 ≤ 365 ∧
      (d'' - year * 365 = 365 → year = 3) := by omega
  have h4 : (cycle * 400 + century * 100 + leaps * 4 + year) / 4 =
      cycle * 100 + century * 25 + leaps := by omega
  have h100 : (cycle * 400 + century * 100 + leaps * 4 + year) / 100 = cycle * 4 + century := by
    omega
  have h400 : (cycle * 400 + century * 100 + leaps * 4 + year) / 400 = cycle := by omega
  rw [h4, h100, h400]
  exact ⟨by omega, hyear'.2.2.1, hyear'.2.2.2.1, fun hlast => by omega⟩

/-- The instant is in the years 0 to 9999. -/
def InCalendar (t : Int) : Prop :=
  daysFromCivil 0 1 1 ≤ t / 1000000 / 86400 ∧ t / 1000000 / 86400 ≤ daysFromCivil 9999 12 31

instance (t : Int) : Decidable (InCalendar t) := inferInstanceAs (Decidable (_ ∧ _))

/-- The days of the months before a month, from March. -/
def monthStart (monthFromMarch : Nat) : Int := (153 * monthFromMarch + 2) / 5

theorem daysFromCivil_march {year month : Nat} (day : Nat) (h : month < 10) :
    daysFromCivil year (month + 3) day =
      (year : Int) * 365 + (year : Int) / 4 - (year : Int) / 100 + (year : Int) / 400 +
        monthStart month + day - 1 - 719468 := by
  have hmarch : ((month + 3 : ℕ) + 9 : Int) % 12 = month := by omega
  unfold daysFromCivil monthStart
  rw [if_neg (by omega), hmarch]

/-- January and February belong to the year before, which for the year 0 is -1. -/
theorem daysFromCivil_january {year month : Nat} {y : Int} (day : Nat) (hyear : (year : Int) = y + 1)
    (h : month < 2) :
    daysFromCivil year (month + 1) day =
      y * 365 + y / 4 - y / 100 + y / 400 + monthStart (month + 10) + day - 1 - 719468 := by
  have hmarch : ((month + 1 : ℕ) + 9 : Int) % 12 = (month + 10 : ℕ) := by omega
  have hy : (year : Int) - 1 = y := by omega
  unfold daysFromCivil monthStart
  rw [if_pos (by omega), hmarch, hy]

theorem civilFromDays_spec {t : Int} (h : InCalendar t) {year month day : Nat}
    (hdate : civilFromDays (t / 1000000 / 86400) = (year, month, day)) :
    daysFromCivil year month day = t / 1000000 / 86400 ∧
      year ≤ 9999 ∧ 1 ≤ month ∧ month ≤ 12 ∧ 1 ≤ day ∧ day ≤ daysIn year month := by
  obtain ⟨hfirst, hlast⟩ := h
  generalize t / 1000000 / 86400 = days at *
  have hfirst : -719528 ≤ days := hfirst
  have hlast : days ≤ 2932896 := hlast
  rcases hyear : yearOfDays days with ⟨y, d⟩
  obtain ⟨hdays, hlow, hhigh, hleap⟩ := yearOfDays_spec hyear
  have hy : -1 ≤ y ∧ y ≤ 9999 := by omega
  obtain ⟨m, hm⟩ : ∃ m : ℕ, (5 * d + 2) / 153 = m := ⟨_, (Int.toNat_of_nonneg (by omega)).symm⟩
  obtain ⟨k, hk⟩ : ∃ k : ℕ, d - monthStart m + 1 = k :=
    ⟨_, (Int.toNat_of_nonneg (by unfold monthStart; omega)).symm⟩
  have hk' : 1 ≤ k ∧ k ≤ 31 := by
    unfold monthStart at hk
    omega
  have hm12 : m < 12 := by omega
  unfold civilFromDays at hdate
  rw [hyear] at hdate
  dsimp only at hdate
  rw [hm, ← monthStart, hk] at hdate
  split at hdate
  · next hmarch =>
    obtain ⟨n, rfl⟩ : ∃ n : ℕ, y = n := ⟨_, (Int.toNat_of_nonneg (by omega)).symm⟩
    obtain ⟨rfl, rfl, rfl⟩ : n = year ∧ m + 3 = month ∧ k = day := by
      simp at hdate
      omega
    rw [daysFromCivil_march k (by omega)]
    refine ⟨by omega, by omega, by omega, by omega, hk'.1, ?_⟩
    unfold monthStart at hk
    interval_cases m <;> simp [daysIn] <;> omega
  · next hmarch =>
    obtain ⟨n, hn⟩ : ∃ n : ℕ, y + 1 = n := ⟨_, (Int.toNat_of_nonneg (by omega)).symm⟩
    obtain ⟨m, rfl⟩ : ∃ m', m = m' + 10 := ⟨m - 10, by omega⟩
    obtain ⟨rfl, rfl, rfl⟩ : n = year ∧ m + 1 = month ∧ k = day := by
      simp at hdate
      omega
    have hm2 : m < 2 := by omega
    rw [daysFromCivil_january k hn.symm hm2]
    refine ⟨by omega, by omega, by omega, by omega, hk'.1, ?_⟩
    unfold monthStart at hk
    interval_cases m
    · show k ≤ 31
      exact hk'.2
    · -- The last day of February is there in a leap year only.
      show k ≤ if isLeap n then 29 else 28
      by_cases hn' : isLeap n = true
      · rw [if_pos hn']
        omega
      · rw [if_neg hn']
        rw [isLeap, decide_eq_true_eq] at hn'
        omega

/-! ## Texts -/

/-- The last `width` digits of a number. -/
def padded : Nat → Nat → List Char
  | 0, _ => []
  | width + 1, n => padded width (n / 10) ++ [Nat.digitChar (n % 10)]

/-- A fraction of a second. -/
def fractionChars (micros : Nat) : List Char :=
  if micros = 0 then [] else '.' :: (padded 6 micros).rdropWhile (· = '0')

def format (t : Int) : List Char :=
  let second := t / 1000000
  let (year, month, day) := civilFromDays (second / 86400)
  let s := (second % 86400).toNat
  padded 4 year ++ '-' :: (padded 2 month ++ '-' :: (padded 2 day ++ 'T' ::
    (padded 2 (s / 3600) ++ ':' :: (padded 2 (s / 60 % 60) ++ ':' ::
      (padded 2 (s % 60) ++ (fractionChars (t % 1000000).toNat ++ ['Z']))))))

theorem length_padded (width n : Nat) : (padded width n).length = width := by
  induction width generalizing n with
  | zero => rfl
  | succ width ih => rw [padded, List.length_append, ih, List.length_singleton]

theorem isDigit_of_mem_padded {width n : Nat} {c : Char} (h : c ∈ padded width n) : c.isDigit := by
  induction width generalizing n with
  | zero => cases h
  | succ width ih =>
    rcases List.mem_append.mp h with h | h
    · exact ih h
    · obtain rfl := List.mem_singleton.mp h
      rw [Nat.isDigit_digitChar]
      exact decide_eq_true (Nat.mod_lt n (by decide))

theorem ofDigitChars_padded {width n : Nat} (h : n < 10 ^ width) :
    Nat.ofDigitChars 10 (padded width n) 0 = n := by
  induction width generalizing n with
  | zero =>
    rw [padded, Nat.ofDigitChars_nil]
    omega
  | succ width ih =>
    have hdigit : n % 10 < 10 := Nat.mod_lt n (by decide)
    rw [padded, Nat.ofDigitChars_append, ih (by omega),
      Nat.ofDigitChars_cons_digitChar_of_lt_ten hdigit, Nat.ofDigitChars_nil]
    omega

theorem ascii_append (xs ys : List Char) : ascii (xs ++ ys) = ascii xs ++ ascii ys :=
  List.map_append

theorem field_padded {width n : Nat} (least most : Nat) (rest : List Char) (hfit : n < 10 ^ width)
    (hleast : least ≤ n) (hmost : n ≤ most) :
    field width least most (ascii (padded width n ++ rest)) = some (n, ascii rest) := by
  have hdigits := digits_ascii (ascii rest) 0 fun c (hc : c ∈ padded width n) =>
    isDigit_of_mem_padded hc
  rw [length_padded, ofDigitChars_padded hfit] at hdigits
  rw [ascii_append, field, hdigits]
  exact if_pos ⟨hleast, hmost⟩

theorem before_some (n : Nat) {c : UInt8} {sep : Char} (hsep : UInt8.ofNat sep.toNat = c)
    (rest : List Char) : before c (some (n, ascii (sep :: rest))) = some (n, ascii rest) := by
  show (char c (UInt8.ofNat sep.toNat :: ascii rest)).bind _ = _
  rw [char, if_pos hsep]
  rfl

theorem hour_padded {n : Nat} (rest : List Char) (h : n ≤ 23) :
    hour (ascii (padded 2 n ++ rest)) = some (n, ascii rest) := by
  unfold hour
  rw [field_padded 0 23 rest (by omega) (Nat.zero_le n) h]
  rfl

theorem leadingDigits_ascii (rest : Text) (hrest : ∀ c ∈ rest.head?, digit? c = none) :
    ∀ {chars : List Char}, (∀ c ∈ chars, c.isDigit) →
      leadingDigits (ascii chars ++ rest) = (chars.map fun c => c.toNat - 48, rest)
  | [], _ => by
    cases rest with
    | nil => rfl
    | cons c rest =>
      have hc := hrest c rfl
      show leadingDigits (c :: rest) = _
      rw [leadingDigits, hc]
      rfl
  | c :: chars, h => by
    have hc := digit?_ofNat (h c List.mem_cons_self)
    have ih := leadingDigits_ascii rest hrest fun c' hc' => h c' (List.mem_cons_of_mem c hc')
    show leadingDigits (UInt8.ofNat c.toNat :: (ascii chars ++ rest)) = _
    rw [leadingDigits, hc]
    dsimp only
    rw [ih]
    rfl

/-- The zeros at the end of a fraction do not count. -/
theorem ofDigitChars_trimmed {width micros : Nat} (h : micros < 10 ^ width) :
    Nat.ofDigitChars 10 ((padded width micros).rdropWhile (· = '0')) 0 *
      10 ^ (width - ((padded width micros).rdropWhile (· = '0')).length) = micros := by
  have hsplit : (padded width micros).rdropWhile (· = '0') ++
      (padded width micros).rtakeWhile (· = '0') = padded width micros :=
    List.rdropWhile_append_rtakeWhile
  have hzeros : (padded width micros).rtakeWhile (· = '0') =
      List.replicate (width - ((padded width micros).rdropWhile (· = '0')).length) '0' := by
    have hlen := congrArg List.length hsplit
    rw [List.length_append, length_padded] at hlen
    refine List.eq_replicate_iff.mpr ⟨by omega, fun c hc => ?_⟩
    have hzero := List.mem_rtakeWhile_imp hc
    exact of_decide_eq_true hzero
  have hvalue := ofDigitChars_padded h
  rw [← hsplit, hzeros, Nat.ofDigitChars_append, Nat.ofDigitChars_replicate_zero,
    Nat.mul_comm] at hvalue
  exact hvalue

theorem fraction_ascii {chars : List Char} (hdigit : ∀ c ∈ chars, c.isDigit) (hne : chars ≠ [])
    (hlen : chars.length ≤ 6) (rest : Text) (hrest : ∀ c ∈ rest.head?, digit? c = none) :
    fraction 6 (46 :: (ascii chars ++ rest)) =
      (Nat.ofDigitChars 10 chars 0 * 10 ^ (6 - chars.length), rest) := by
  have hvalue : (chars.map fun c => c.toNat - 48).foldl (fun acc d => acc * 10 + d) 0 =
      Nat.ofDigitChars 10 chars 0 := by
    rw [List.foldl_map, Nat.ofDigitChars_eq_foldl]
    simp only [Nat.mul_comm 10]
    rfl
  unfold fraction
  dsimp only
  rw [leadingDigits_ascii rest hrest hdigit]
  dsimp only
  rw [if_pos ⟨.inl rfl, by simpa using hne⟩, List.length_map,
    List.take_of_length_le (by rw [List.length_map]; exact hlen), hvalue]

theorem fraction_fractionChars {micros : Nat} (h : micros < 1000000) :
    fraction 6 (ascii (fractionChars micros ++ ['Z'])) = (micros, [90]) := by
  unfold fractionChars
  split
  · next hzero =>
    subst hzero
    rfl
  · next hpositive =>
    have hsub := List.rdropWhile_prefix (· = '0') (l := padded 6 micros)
    have hvalue := @ofDigitChars_trimmed 6 micros h
    have hne : (padded 6 micros).rdropWhile (· = '0') ≠ [] := by
      intro hnil
      rw [hnil, Nat.ofDigitChars_nil, Nat.zero_mul] at hvalue
      exact hpositive hvalue.symm
    have hdigit : ∀ c ∈ (padded 6 micros).rdropWhile (· = '0'), c.isDigit :=
      fun c hc => isDigit_of_mem_padded (hsub.mem hc)
    have hlen : ((padded 6 micros).rdropWhile (· = '0')).length ≤ 6 :=
      hsub.length_le.trans (length_padded 6 micros).le
    have hzulu : ∀ c ∈ ([90] : Text).head?, digit? c = none := by
      intro c hc
      cases hc
      rfl
    show fraction 6 (46 :: ascii (_ ++ ['Z'])) = _
    rw [ascii_append, show ascii ['Z'] = [90] from rfl,
      fraction_ascii hdigit hne hlen [90] hzulu, hvalue]

/-- An instant is read back from its text. -/
theorem parse_format {t : Int} (h : InCalendar t) :
    parse (ascii (format t)) = some t := by
  rcases hdate : civilFromDays (t / 1000000 / 86400) with ⟨year, month, day⟩
  obtain ⟨hdays, hyear, hmonth, hmonth', hday, hday'⟩ := civilFromDays_spec h hdate
  have hdays31 : daysIn year month ≤ 31 := by
    unfold daysIn
    split_ifs <;> omega
  generalize hs : (t / 1000000 % 86400).toNat = s
  have hs' : (s : Int) = t / 1000000 % 86400 ∧ s < 86400 := by omega
  generalize hmicros : (t % 1000000).toNat = micros
  have hmicros' : (micros : Int) = t % 1000000 ∧ micros < 1000000 := by omega
  have hdash := @before_some year 45 '-' rfl
  have hdash' := @before_some month 45 '-' rfl
  have hday'' := @before_some day 84 'T' rfl
  have hcolon := @before_some (s / 3600) 58 ':' rfl
  have hcolon' := @before_some (s / 60 % 60) 58 ':' rfl
  unfold format parse parseAt
  dsimp only
  rw [hdate, hs, hmicros]
  simp only [Option.bind_eq_bind]
  -- Field after field, what is read is what was written.
  rw [field_padded 0 9999 _ (by omega) (Nat.zero_le _) hyear, hdash, Option.bind_some]
  dsimp only
  rw [field_padded 1 12 _ (by omega) hmonth hmonth', hdash', Option.bind_some]
  dsimp only
  rw [field_padded 1 _ _ (by omega) hday hday', hday'', Option.bind_some]
  dsimp only
  rw [hour_padded _ (by omega), hcolon, Option.bind_some]
  dsimp only
  rw [field_padded 0 59 _ (by omega) (Nat.zero_le _) (by omega), hcolon', Option.bind_some]
  dsimp only
  rw [field_padded 0 59 _ (by omega) (Nat.zero_le _) (by omega), Option.bind_some]
  dsimp only
  rw [fraction_fractionChars hmicros'.2]
  show some _ = some t
  rw [hdays]
  refine congrArg some ?_
  push_cast
  omega

example : format 1767225600500000 = "2026-01-01T00:00:00.5Z".toList := by decide

end Rfc3339

end OpenGps.Lib
