import OpenGps.Firmware.LocationPayload
import OpenGps.Lib.Rfc3339
import Mathlib.Data.List.GetD

/-!
# The timestamp of a queued fix

The device prints the calendar fields of the modem with `%02d` into an array that cuts the text off
after twenty characters; the backend reads the text back. It is accepted exactly when the fields are
a date and a time of day: a field that is negative or too long is never read as another one.
-/

namespace OpenGps.Uplink

open OpenGps.Lib OpenGps.Lib.Rfc3339 OpenGps.Firmware

/-- A date of the Gregorian calendar and a time of day. -/
structure CalendarTime (yy mo dd hh mi ss : Int16) : Prop where
  year : 0 ≤ yy.toInt ∧ yy.toInt ≤ 9999
  month : 1 ≤ mo.toInt ∧ mo.toInt ≤ 12
  day : 1 ≤ dd.toInt ∧ dd.toInt ≤ daysIn yy.toInt.toNat mo.toInt.toNat
  hour : 0 ≤ hh.toInt ∧ hh.toInt ≤ 23
  minute : 0 ≤ mi.toInt ∧ mi.toInt ≤ 59
  second : 0 ≤ ss.toInt ∧ ss.toInt ≤ 59

/-! ## Printed numbers -/

section
variable {w : Nat} {v : Int}

/-- A sign and at least one digit. -/
theorem formatInt_eq (w : Nat) (v : Int) : ∃ ds : List Char,
    formatInt w v = (if v < 0 then ['-'] else []) ++ ds ∧ (∀ c ∈ ds, c.isDigit) ∧ ds ≠ [] := by
  refine ⟨_, List.append_assoc _ _ _, ?_, fun h => Nat.toDigits_ne_nil (List.append_eq_nil_iff.mp h).2⟩
  intro c hc
  rcases List.mem_append.mp hc with hzero | hdigit
  · rw [(List.mem_replicate.mp hzero).2]
    rfl
  · exact Nat.isDigit_of_mem_toDigits (by norm_num) (by norm_num) hdigit

theorem le_length_formatInt : w ≤ (formatInt w v).length := by
  simp only [formatInt, List.length_append, List.length_replicate]
  omega

theorem isDigit_of_mem_formatInt (hv : 0 ≤ v) {c : Char} (hc : c ∈ formatInt w v) : c.isDigit := by
  obtain ⟨ds, heq, hds, -⟩ := formatInt_eq w v
  rw [heq, if_neg (by omega)] at hc
  exact hds c hc

/-- A number is as wide as its format when it fits, and wider when it does not. -/
theorem length_formatInt_le_iff (hw : 0 < w) (hv : 0 ≤ v) :
    (formatInt w v).length ≤ w ↔ v < 10 ^ w := by
  have hlen : (Nat.toDigits 10 v.natAbs).length ≤ w ↔ v.natAbs < 10 ^ w :=
    Nat.length_toDigits_le_iff (by norm_num) hw
  have hnat : v.natAbs < 10 ^ w ↔ v < 10 ^ w := by
    rw [← Int.natAbs_of_nonneg hv]
    exact_mod_cast Iff.rfl
  rw [← hnat, ← hlen]
  simp only [formatInt, if_neg (not_lt.mpr hv), List.length_append, List.length_replicate,
    List.length_nil]
  omega

theorem ofDigitChars_formatInt (hv : 0 ≤ v) : Nat.ofDigitChars 10 (formatInt w v) 0 = v.toNat := by
  rw [formatInt, if_neg (not_lt.mpr hv), List.nil_append, Nat.ofDigitChars_append,
    Nat.ofDigitChars_replicate_zero, Nat.mul_zero, Nat.ofDigitChars_ten_toDigits]
  omega

/-- The second character of two is a digit, also after a sign. -/
theorem formatInt_two (v : Int) : ∃ c d rest, formatInt 2 v = c :: d :: rest ∧ d.isDigit := by
  obtain ⟨ds, heq, hds, hne⟩ := formatInt_eq 2 v
  by_cases hv : v < 0
  · obtain ⟨d, rest, rfl⟩ := List.exists_cons_of_ne_nil hne
    rw [if_pos hv] at heq
    exact ⟨'-', d, rest, heq, hds d List.mem_cons_self⟩
  · rw [if_neg hv, List.nil_append] at heq
    have hlen := le_length_formatInt (w := 2) (v := v)
    rw [heq] at hlen
    match ds, hlen with
    | c :: d :: rest, _ =>
      exact ⟨c, d, rest, heq, hds d (List.mem_cons_of_mem c List.mem_cons_self)⟩

/-! ## Reading them back -/

variable {least most n : Nat} {rest : List Char}

theorem take_formatInt_append (hn : (formatInt w v).length ≤ n) :
    (formatInt w v ++ rest).take n = formatInt w v ++ rest.take (n - (formatInt w v).length) := by
  rw [List.take_append, List.take_of_length_le hn]

theorem field_neg (hw : 0 < w) (hn : w < n) (hv : v < 0) :
    field w least most (ascii ((formatInt w v ++ rest).take n)) = none := by
  obtain ⟨ds, heq, -, -⟩ := formatInt_eq w v
  rw [heq, if_pos hv]
  obtain ⟨k, rfl⟩ := Nat.exists_eq_succ_of_ne_zero hw.ne'
  obtain ⟨m, rfl⟩ := Nat.exists_eq_succ_of_ne_zero (Nat.zero_lt_of_lt hn).ne'
  rfl

/-- A number that fits is read as it is. -/
theorem field_formatInt (hw : 0 < w) (hn : w < n) (hv : 0 ≤ v) (hfit : v < 10 ^ w) :
    field w least most (ascii ((formatInt w v ++ rest).take n)) =
      if least ≤ v.toNat ∧ v.toNat ≤ most then some (v.toNat, ascii (rest.take (n - w)))
      else none := by
  have hlen : (formatInt w v).length = w :=
    le_antisymm ((length_formatInt_le_iff hw hv).mpr hfit) le_length_formatInt
  have hdigits := digits_ascii (ascii (rest.take (n - w))) 0
    fun c hc => isDigit_of_mem_formatInt (w := w) hv hc
  rw [hlen, ofDigitChars_formatInt hv] at hdigits
  rw [take_formatInt_append (by omega), hlen, ascii, List.map_append, field]
  exact congrArg (Option.bind · _) hdigits

/-- A number that does not fit leaves a digit behind. -/
theorem field_wide (hw : 0 < w) (hn : w < n) (hv : 0 ≤ v) (hfit : ¬ v < 10 ^ w)
    {value : Nat} {text : Text}
    (h : field w least most (ascii ((formatInt w v ++ rest).take n)) = some (value, text)) :
    ∃ d : Char, d.isDigit ∧ ∃ after, text = UInt8.ofNat d.toNat :: after := by
  have hlen : w < (formatInt w v).length := by
    rw [← not_le, length_formatInt_le_iff hw hv]
    exact hfit
  have hsplit : formatInt w v = (formatInt w v).take w ++
      (formatInt w v)[w] :: (formatInt w v).drop (w + 1) := by
    rw [← List.drop_eq_getElem_cons hlen, List.take_append_drop]
  have hdigit : ∀ c ∈ (formatInt w v).take w, c.isDigit := fun c hc =>
    isDigit_of_mem_formatInt hv (List.mem_of_mem_take hc)
  have htake : ((formatInt w v).take w).length = w := List.length_take_of_le hlen.le
  obtain ⟨m, hm⟩ : ∃ m, n - w = m + 1 := ⟨n - w - 1, by omega⟩
  refine ⟨(formatInt w v)[w], isDigit_of_mem_formatInt hv (List.getElem_mem _),
    ascii (((formatInt w v).drop (w + 1) ++ rest).take m), ?_⟩
  have hdigits := digits_ascii (ascii
    (((formatInt w v)[w] :: (formatInt w v).drop (w + 1) ++ rest).take (n - w))) 0 hdigit
  rw [htake, ascii, ascii, ← List.map_append] at hdigits
  rw [hsplit, List.append_assoc, List.take_append, htake,
    List.take_of_length_le (by omega), ascii, field] at h
  replace h := (congrArg (Option.bind · _) hdigits).symm.trans h
  rw [Option.bind_some] at h
  dsimp only at h
  split at h
  · cases h
    rw [hm]
    rfl
  · cases h

theorem digit_ne {d : Char} (hd : d.isDigit) {c : UInt8} (hc : digit? c = none) :
    UInt8.ofNat d.toNat ≠ c := fun h => by
  rw [← h, digit?_ofNat hd] at hc
  cases hc

/-- A field that is printed before a separator is read when it is in its range. -/
theorem before_formatInt (sep : Char) (hsep : digit? (UInt8.ofNat sep.toNat) = none) (hw : 0 < w)
    (hn : w < n) (hmost : most < 10 ^ w) :
    before (UInt8.ofNat sep.toNat)
        (field w least most (ascii ((formatInt w v ++ sep :: rest).take n))) =
      if least ≤ v ∧ v ≤ most then some (v.toNat, ascii (rest.take (n - w - 1))) else none := by
  obtain hv | hv := lt_or_ge v 0
  · rw [field_neg hw hn hv, if_neg (by omega)]
    rfl
  by_cases hfit : v < 10 ^ w
  · obtain ⟨m, hm⟩ : ∃ m, n - w = m + 1 := ⟨n - w - 1, by omega⟩
    rw [field_formatInt hw hn hv hfit, hm]
    by_cases hrange : least ≤ v.toNat ∧ v.toNat ≤ most
    · rw [if_pos hrange, if_pos (by omega)]
      show (char _ (UInt8.ofNat sep.toNat :: ascii (rest.take m))).bind _ = _
      rw [char, if_pos rfl]
      rfl
    · rw [if_neg hrange, if_neg (by omega)]
      rfl
  · have hbig : ¬ v ≤ most := fun h => hfit (lt_of_le_of_lt h (by exact_mod_cast hmost))
    rw [if_neg fun h => hbig h.2]
    rcases hfield : field w least most (ascii ((formatInt w v ++ sep :: rest).take n)) with
      _ | ⟨value, text⟩
    · rfl
    · obtain ⟨d, hd, after, rfl⟩ := field_wide hw hn hv hfit hfield
      show (char _ (UInt8.ofNat d.toNat :: after)).bind _ = none
      rw [char, if_neg (digit_ne hd hsep)]
      rfl

theorem hour_formatInt (hn : 2 < n) :
    hour (ascii ((formatInt 2 v ++ rest).take n)) =
      field 2 0 23 (ascii ((formatInt 2 v ++ rest).take n)) := by
  obtain ⟨c, d, tail, heq, hd⟩ := formatInt_two v
  obtain ⟨m, rfl⟩ : ∃ m, n = m + 2 := ⟨n - 2, by omega⟩
  rw [heq]
  show (_ <|> if digit? (UInt8.ofNat d.toNat) = none then _ else none) = _
  rw [if_neg (by rw [digit?_ofNat hd]; exact Option.some_ne_none _)]
  rcases field 2 0 23 (ascii ((c :: d :: tail ++ rest).take (m + 2))) with _ | _ <;> rfl

end

/-! ## The timestamp -/

variable {yy mo dd hh mi ss : Int16}

theorem daysIn_le (year month : Nat) : daysIn year month ≤ 31 := by
  unfold daysIn
  split_ifs <;> omega

/-- The seconds end the text with the zone; a third digit is neither a fraction nor a zone. -/
theorem isSome_end_formatInt (v : Int) (instant : Nat × Text → Int × Text → Int) :
    ((field 2 0 59 (ascii ((formatInt 2 v ++ ['Z']).take 3))).bind fun x =>
      (zone (fraction 6 x.2).2).bind fun y =>
        if y.2 = [] then some (instant x y) else none).isSome ↔ 0 ≤ v ∧ v ≤ 59 := by
  obtain hv | hv := lt_or_ge v 0
  · rw [field_neg (by norm_num) (by norm_num) hv]
    exact ⟨(fun h => by cases h), fun h => by omega⟩
  by_cases hfit : v < 10 ^ 2
  · rw [field_formatInt (by norm_num) (by norm_num) hv hfit]
    by_cases hrange : 0 ≤ v.toNat ∧ v.toNat ≤ 59
    · rw [if_pos hrange]
      exact ⟨fun _ => by omega, fun _ => rfl⟩
    · rw [if_neg hrange]
      exact ⟨(fun h => by cases h), fun h => by omega⟩
  · rcases hfield : field 2 0 59 (ascii ((formatInt 2 v ++ ['Z']).take 3)) with
      _ | ⟨value, text⟩
    · exact ⟨(fun h => by cases h), fun h => by omega⟩
    · obtain ⟨d, hd, after, rfl⟩ := field_wide (by norm_num) (by norm_num) hv hfit hfield
      have hfraction :
          fraction 6 (UInt8.ofNat d.toNat :: after) = (0, UInt8.ofNat d.toNat :: after) :=
        if_neg fun h => h.1.elim (digit_ne hd (by decide)) (digit_ne hd (by decide))
      have hzone : zone (UInt8.ofNat d.toNat :: after) = none := by
        simp [zone, digit_ne hd (show digit? 90 = none by decide),
          digit_ne hd (show digit? 43 = none by decide),
          digit_ne hd (show digit? 45 = none by decide)]
      refine ⟨fun h => ?_, fun h => by omega⟩
      rw [Option.bind_some, hfraction, hzone] at h
      cases h

theorem isSome_guard_bind {α β : Type} {P : Prop} [Decidable P] {a : α} {f : α → Option β} :
    ((if P then some a else none).bind f).isSome ↔ P ∧ (f a).isSome := by
  by_cases hP : P <;> simp [hP]

theorem toList_ofFn_getD {text : Text} {n : Nat} (h : text.length = n) :
    (Vector.ofFn fun i : Fin (n + 1) => text.getD i 0).toList = text ++ [0] := by
  subst h
  rw [Vector.toList_ofFn, List.ofFn_succ_last]
  congr 1
  · conv_rhs => rw [← @List.ofFn_getElem _ text]
    congr 1
    funext i
    exact List.getD_eq_getElem _ _ i.isLt
  · exact congrArg (fun a => [a]) (List.getD_eq_default _ _ (le_refl _))

theorem cString_snprintf {text : List Char} (hlen : 20 ≤ text.length)
    (h : ∀ c ∈ text, UInt8.ofNat c.toNat ≠ 0) : cString (snprintf text) = ascii (text.take 20) := by
  have hlength : (ascii (text.take 20)).length = 20 := by
    rw [ascii, List.length_map, List.length_take_of_le hlen]
  rw [cString, show (snprintf text).toList = _ from toList_ofFn_getD hlength,
    List.takeWhile_append_of_pos]
  · rw [List.takeWhile_cons_of_neg (by decide), List.append_nil]
    rfl
  · intro b hb
    obtain ⟨c, hc, rfl⟩ := List.mem_map.mp hb
    exact decide_eq_true (h c (List.mem_of_mem_take hc))

theorem ne_zero_of_mem_formatInt {w : Nat} {v : Int} {c : Char} (hc : c ∈ formatInt w v) :
    UInt8.ofNat c.toNat ≠ 0 := by
  obtain ⟨ds, heq, hds, -⟩ := formatInt_eq w v
  rw [heq] at hc
  rcases List.mem_append.mp hc with hsign | hdigit
  · split at hsign
    · cases List.mem_singleton.mp hsign
      decide
    · cases hsign
  · exact digit_ne (hds c hdigit) (by decide)

theorem cString_timestamp : cString (snprintf (timestamp yy mo dd hh mi ss)) =
    ascii ((timestamp yy mo dd hh mi ss).take 20) := by
  refine cString_snprintf ?_ ?_
  · have := le_length_formatInt (w := 4) (v := yy.toInt)
    have := le_length_formatInt (w := 2) (v := mo.toInt)
    have := le_length_formatInt (w := 2) (v := dd.toInt)
    have := le_length_formatInt (w := 2) (v := hh.toInt)
    have := le_length_formatInt (w := 2) (v := mi.toInt)
    have := le_length_formatInt (w := 2) (v := ss.toInt)
    simp only [timestamp, List.length_append, List.length_cons, List.length_nil]
    omega
  · simp only [timestamp, List.forall_mem_append, List.forall_mem_cons]
    have h : ∀ (w : Nat) (v : Int), ∀ c ∈ formatInt w v, UInt8.ofNat c.toNat ≠ 0 := fun _ _ _ =>
      ne_zero_of_mem_formatInt
    exact ⟨h _ _, by decide, h _ _, by decide, h _ _, by decide, h _ _, by decide, h _ _,
      by decide, h _ _, by decide, fun _ hc => by cases hc⟩

/-- The backend accepts the timestamps of calendar times. -/
theorem isSome_parse_timestamp_iff :
    (parse (cString (snprintf (timestamp yy mo dd hh mi ss)))).isSome ↔
      CalendarTime yy mo dd hh mi ss := by
  have hdays := daysIn_le yy.toInt.toNat mo.toInt.toNat
  rw [cString_timestamp, timestamp, parse, parseAt,
    show before 45 (field 4 0 9999 _) = _ from before_formatInt '-' (by decide)
      (by norm_num) (by norm_num) (by norm_num), Option.bind_eq_bind, isSome_guard_bind]
  dsimp only
  rw [show before 45 (field 2 1 12 _) = _ from before_formatInt '-' (by decide)
      (by norm_num) (by norm_num) (by norm_num), isSome_guard_bind]
  dsimp only
  rw [show before 84 (field 2 1 _ _) = _ from before_formatInt 'T' (by decide)
      (by norm_num) (by norm_num) (by omega), isSome_guard_bind]
  dsimp only
  rw [hour_formatInt (by norm_num), show before 58 (field 2 0 23 _) = _ from
      before_formatInt ':' (by decide) (by norm_num) (by norm_num) (by norm_num),
    isSome_guard_bind]
  dsimp only
  rw [show before 58 (field 2 0 59 _) = _ from before_formatInt ':' (by decide)
      (by norm_num) (by norm_num) (by norm_num), isSome_guard_bind]
  dsimp only
  constructor
  · rintro ⟨hyear, hmonth, hday, hhour, hminute, hend⟩
    exact ⟨hyear, hmonth, hday, hhour, hminute, (isSome_end_formatInt ss.toInt _).mp hend⟩
  · rintro ⟨hyear, hmonth, hday, hhour, hminute, hsecond⟩
    exact ⟨hyear, hmonth, hday, hhour, hminute, (isSome_end_formatInt ss.toInt _).mpr hsecond⟩

end OpenGps.Uplink
