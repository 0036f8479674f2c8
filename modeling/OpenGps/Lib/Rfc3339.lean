import Mathlib.Algebra.Order.Ring.Int
import Mathlib.Data.Int.Notation

/-!
# RFC 3339 timestamps

The texts that Go's `time.Parse` accepts for the layout `2006-01-02T15:04:05Z07:00`, and the instant
each stands for: in nanoseconds since 1970 as Go has it, or in whole microseconds. The hour may have
one digit, a fraction of a second may follow a comma, and an offset may be as large as `24:60`: Go
accepts all three.
-/

namespace OpenGps.Lib

namespace Rfc3339

/-- A text as bytes. -/
abbrev Text := List UInt8

def digit? (c : UInt8) : Option Nat :=
  if 48 ≤ c ∧ c ≤ 57 then some (c.toNat - 48) else none

/-- The value of exactly `n` digits, continuing from `acc`, and the text after them. -/
def digits : Nat → Nat → Text → Option (Nat × Text)
  | 0, acc, text => some (acc, text)
  | _ + 1, _, [] => none
  | n + 1, acc, c :: text => do
    let d ← digit? c
    digits n (acc * 10 + d) text

/-- `n` digits whose value is between `least` and `most`. -/
def field (n least most : Nat) (text : Text) : Option (Nat × Text) := do
  let (value, rest) ← digits n 0 text
  if least ≤ value ∧ value ≤ most then some (value, rest) else none

/-- Two digits, or one that no digit follows. -/
def hour (text : Text) : Option (Nat × Text) :=
  field 2 0 23 text <|>
    match text with
    | _ :: c :: _ => if digit? c = none then field 1 0 23 text else none
    | _ => field 1 0 23 text

def char (expected : UInt8) : Text → Option Text
  | c :: text => if c = expected then some text else none
  | [] => none

/-- The digits at the start of a text and the text after them. -/
def leadingDigits : Text → List Nat × Text
  | [] => ([], [])
  | c :: text =>
    match digit? c with
    | some d => (d :: (leadingDigits text).1, (leadingDigits text).2)
    | none => ([], c :: text)

/-- An optional fraction in units of its last place; the digits beyond it are dropped. -/
def fraction (places : Nat) : Text → Nat × Text
  | [] => (0, [])
  | c :: text =>
    let (ds, rest) := leadingDigits text
    if (c = 46 ∨ c = 44) ∧ ds ≠ [] then
      ((ds.take places).foldl (fun acc d => acc * 10 + d) 0 * 10 ^ (places - ds.length), rest)
    else (0, c :: text)

/-- `Z`, or a signed offset; in seconds. -/
def zone (text : Text) : Option (Int × Text) :=
  match text with
  | [] => none
  | c :: text =>
    if c = 90 then some (0, text)
    else do
      let (hours, text) ← field 2 0 24 text
      let text ← char 58 text
      let (minutes, text) ← field 2 0 60 text
      let offset : Int := (hours * 60 + minutes) * 60
      if c = 43 then some (offset, text)
      else if c = 45 then some (-offset, text)
      else none

def isLeap (year : Nat) : Bool := year % 4 = 0 ∧ (year % 100 ≠ 0 ∨ year % 400 = 0)

def daysIn (year month : Nat) : Nat :=
  if month = 2 then if isLeap year then 29 else 28
  else if month = 4 ∨ month = 6 ∨ month = 9 ∨ month = 11 then 30
  else 31

/-- The days from 1970-01-01 to a date; a year is counted from March. -/
def daysFromCivil (year month day : Nat) : Int :=
  let y : Int := if month ≤ 2 then year - 1 else year
  let monthFromMarch : Int := (month + 9) % 12
  y * 365 + y / 4 - y / 100 + y / 400 + (153 * monthFromMarch + 2) / 5 + day - 1 - 719468

/-- A field and the separator after it. -/
def before (separator : UInt8) (parsed : Option (Nat × Text)) : Option (Nat × Text) := do
  let (value, text) ← parsed
  let text ← char separator text
  return (value, text)

/-- The instant of a timestamp, with so many places after the second. -/
def parseAt (places : Nat) (text : Text) : Option Int := do
  let (year, text) ← before 45 (field 4 0 9999 text)
  let (month, text) ← before 45 (field 2 1 12 text)
  let (day, text) ← before 84 (field 2 1 (daysIn year month) text)
  let (hours, text) ← before 58 (hour text)
  let (minutes, text) ← before 58 (field 2 0 59 text)
  let (seconds, text) ← field 2 0 59 text
  let (part, text) := fraction places text
  let (offset, text) ← zone text
  if text = [] then
    let minute := (daysFromCivil year month day * 24 + hours) * 60 + minutes
    some ((minute * 60 + seconds - offset) * 10 ^ places + part)
  else none

/-- In nanoseconds; Go reads no more than nine places. -/
def parseNanos (text : Text) : Option Int := parseAt 9 text

/-- In whole microseconds. -/
def parse (text : Text) : Option Int := parseAt 6 text

/-! ## Digits -/

/-- The bytes of an ASCII text. -/
def ascii (chars : List Char) : Text := chars.map fun c => UInt8.ofNat c.toNat

theorem digit?_ofNat {c : Char} (h : c.isDigit) :
    digit? (UInt8.ofNat c.toNat) = some (c.toNat - 48) := by
  have hrange : 48 ≤ c.toNat ∧ c.toNat ≤ 57 := by
    simpa [Char.isDigit, UInt32.le_iff_toNat_le] using h
  have hnat : (UInt8.ofNat c.toNat).toNat = c.toNat := by
    rw [UInt8.toNat_ofNat']
    omega
  unfold digit?
  rw [hnat, if_pos]
  rw [UInt8.le_iff_toNat_le, UInt8.le_iff_toNat_le, hnat]
  exact hrange

/-- Digits are read up to the number asked for. -/
theorem digits_ascii (rest : Text) : ∀ {chars : List Char} (acc : Nat),
    (∀ c ∈ chars, c.isDigit) → digits chars.length acc (ascii chars ++ rest) =
      some (Nat.ofDigitChars 10 chars acc, rest)
  | [], _, _ => rfl
  | c :: chars, acc, h => by
    have hc := digit?_ofNat (h c List.mem_cons_self)
    have ih := digits_ascii rest (acc * 10 + (c.toNat - 48)) fun c' hc' =>
      h c' (List.mem_cons_of_mem c hc')
    show (digit? (UInt8.ofNat c.toNat)).bind (fun d =>
      digits chars.length (acc * 10 + d) (ascii chars ++ rest)) = _
    rw [hc, Option.bind_some, ih, Nat.ofDigitChars_cons, Nat.mul_comm]
    rfl

/-! ## Whole seconds -/

section
variable {text rest : Text} {value : Nat}

theorem digits_suffix {n acc : Nat} (h : digits n acc text = some (value, rest)) :
    rest <:+ text := by
  induction n generalizing acc text with
  | zero =>
    cases h
    exact List.suffix_rfl
  | succ n ih =>
    cases text with
    | nil => cases h
    | cons c text =>
      obtain ⟨d, -, h⟩ := Option.bind_eq_some_iff.mp h
      exact (ih h).trans (List.suffix_cons c text)

theorem field_suffix {n least most : Nat} (h : field n least most text = some (value, rest)) :
    rest <:+ text := by
  obtain ⟨⟨v, rest'⟩, hdigits, h⟩ := Option.bind_eq_some_iff.mp h
  dsimp only at h
  split at h
  · cases h
    exact digits_suffix hdigits
  · cases h

theorem hour_suffix (h : hour text = some (value, rest)) : rest <:+ text := by
  unfold hour at h
  cases htwo : field 2 0 23 text with
  | some read =>
    rw [htwo] at h
    obtain rfl := Option.some.inj h
    exact field_suffix htwo
  | none =>
    rw [htwo] at h
    dsimp only [HOrElse.hOrElse, OrElse.orElse, Option.orElse] at h
    split at h
    · split at h
      · exact field_suffix h
      · cases h
    · exact field_suffix h

theorem before_suffix {separator : UInt8} {parsed : Option (Nat × Text)}
    (hparsed : ∀ v after, parsed = some (v, after) → after <:+ text)
    (h : before separator parsed = some (value, rest)) : rest <:+ text := by
  obtain ⟨⟨v, after⟩, hsome, h⟩ := Option.bind_eq_some_iff.mp h
  obtain ⟨after', hchar, h⟩ := Option.bind_eq_some_iff.mp h
  cases h
  refine List.IsSuffix.trans ?_ (hparsed _ _ hsome)
  cases after with
  | nil => cases hchar
  | cons c after =>
    unfold char at hchar
    dsimp only at hchar
    split at hchar
    · cases hchar
      exact List.suffix_cons c _
    · cases hchar

/-- A text without a point and without a comma is an instant on a whole second. -/
theorem dvd_of_parse {t : Int} (hpoint : 46 ∉ text) (hcomma : 44 ∉ text)
    (h : parse text = some t) : 1000000 ∣ t := by
  unfold parse parseAt at h
  simp only [Option.bind_eq_bind, Option.bind_eq_some_iff] at h
  obtain ⟨⟨year, t₁⟩, h₁, ⟨month, t₂⟩, h₂, ⟨day, t₃⟩, h₃, ⟨hours, t₄⟩, h₄, ⟨minutes, t₅⟩, h₅,
    ⟨seconds, t₆⟩, h₆, ⟨offset, t₇⟩, -, h⟩ := h
  have hrest : t₆ <:+ text :=
    ((((((field_suffix h₆).trans (before_suffix (fun _ _ => field_suffix) h₅)).trans
      (before_suffix (fun _ _ => hour_suffix) h₄)).trans
      (before_suffix (fun _ _ => field_suffix) h₃)).trans
      (before_suffix (fun _ _ => field_suffix) h₂)).trans
      (before_suffix (fun _ _ => field_suffix) h₁))
  have hfraction : (fraction 6 t₆).1 = 0 := by
    cases t₆ with
    | nil => rfl
    | cons c t₆ =>
      have hc : c ∈ text := hrest.subset List.mem_cons_self
      have hne : ¬ (c = 46 ∨ c = 44) := by
        intro hc'
        obtain rfl | rfl := hc'
        · exact hpoint hc
        · exact hcomma hc
      simp only [fraction, hne, false_and, if_false]
  split at h
  · obtain rfl := Option.some.inj h
    rw [hfraction, Nat.cast_zero, add_zero]
    exact Int.dvd_mul_left _ _
  · cases h

end

/-! ## Microseconds and nanoseconds -/

theorem digit?_lt {c : UInt8} {d : Nat} (h : digit? c = some d) : d < 10 := by
  unfold digit? at h
  split at h
  · next hrange =>
    obtain rfl := Option.some.inj h
    have hle : c.toNat ≤ 57 := UInt8.le_iff_toNat_le.mp hrange.2
    omega
  · cases h

theorem lt_of_mem_leadingDigits {d : Nat} : ∀ {text : Text}, d ∈ (leadingDigits text).1 → d < 10
  | [], h => by cases h
  | c :: text, h => by
    unfold leadingDigits at h
    split at h
    · next d' hd' =>
      rcases List.mem_cons.mp h with rfl | hrest
      · exact digit?_lt hd'
      · exact lt_of_mem_leadingDigits hrest
    · cases h

/-- One place less drops the last digit. -/
theorem value_div_ten {ds : List Nat} (h : ∀ d ∈ ds, d < 10) (places : Nat) :
    (ds.take (places + 1)).foldl (fun acc d => acc * 10 + d) 0 *
        10 ^ (places + 1 - ds.length) / 10 =
      (ds.take places).foldl (fun acc d => acc * 10 + d) 0 * 10 ^ (places - ds.length) := by
  rcases Nat.lt_or_ge places ds.length with hlong | hshort
  · rw [List.take_succ_eq_append_getElem hlong, List.foldl_append,
      Nat.sub_eq_zero_of_le hlong, Nat.sub_eq_zero_of_le hlong.le, pow_zero, Nat.mul_one, Nat.mul_one]
    have hlast := h _ (List.getElem_mem hlong)
    simp only [List.foldl_cons, List.foldl_nil]
    omega
  · rw [List.take_of_length_le hshort, List.take_of_length_le (by omega),
      Nat.succ_sub hshort, pow_succ, ← Nat.mul_assoc, Nat.mul_div_cancel _ (by decide)]

theorem fraction_div_ten (places : Nat) (text : Text) :
    fraction places text = ((fraction (places + 1) text).1 / 10, (fraction (places + 1) text).2) := by
  cases text with
  | nil => exact Prod.ext (Nat.zero_div 10).symm rfl
  | cons c text =>
    unfold fraction
    dsimp only
    split
    · exact Prod.ext (value_div_ten (fun d => lt_of_mem_leadingDigits) places).symm rfl
    · exact Prod.ext (Nat.zero_div 10).symm rfl

theorem fraction_micros (text : Text) :
    fraction 6 text = ((fraction 9 text).1 / 1000, (fraction 9 text).2) := by
  rw [fraction_div_ten 6, fraction_div_ten 7, fraction_div_ten 8, Nat.div_div_eq_div_mul,
    Nat.div_div_eq_div_mul]

/-- The whole microseconds of an instant are those of its nanoseconds. -/
theorem parse_eq (text : Text) : parse text = (parseNanos text).map (· / 1000) := by
  unfold parse parseNanos parseAt
  simp only [Option.bind_eq_bind, Option.map_bind, Function.comp_def]
  refine Option.bind_congr fun year _ => Option.bind_congr fun month _ =>
    Option.bind_congr fun day _ => Option.bind_congr fun hours _ =>
    Option.bind_congr fun minutes _ => Option.bind_congr fun seconds _ => ?_
  rw [fraction_micros]
  refine Option.bind_congr fun offset _ => ?_
  dsimp only
  split
  · refine congrArg some ?_
    push_cast
    omega
  · rfl

end Rfc3339

end OpenGps.Lib
