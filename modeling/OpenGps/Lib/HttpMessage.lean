import Mathlib.Data.List.DropRight
import Mathlib.Data.List.TakeWhile
import Mathlib.Data.Nat.Notation

/-!
# Requests of HTTP/1.1

The text of a request, and the request a receiver reads from a stream of bytes: the request line,
the header fields until the empty line, and a body as long as `Content-Length` says. A well-formed
request is read back from its text, whatever follows it in the stream.
-/

namespace OpenGps.Lib

/-! ## Pieces of a text -/

/-- What stands before the first separator and what stands after it. -/
def splitFirst (sep : UInt8) (text : List UInt8) : Option (List UInt8 × List UInt8) :=
  match text.dropWhile (· ≠ sep) with
  | [] => none
  | _ :: rest => some (text.takeWhile (· ≠ sep), rest)

def crlf : List UInt8 := [13, 10]

/-- The first line and what follows its end. -/
def splitLine : List UInt8 → Option (List UInt8 × List UInt8)
  | [] => none
  | b :: rest =>
    if b = 13 ∧ rest.head? = some 10 then some ([], rest.tail)
    else (splitLine rest).map fun r => (b :: r.1, r.2)

def isBlank (b : UInt8) : Bool := b = 32 ∨ b = 9

def trimBlanks (text : List UInt8) : List UInt8 := (text.dropWhile isBlank).rdropWhile isBlank

def decimalText (n : ℕ) : List UInt8 := (Nat.toDigits 10 n).map Char.toUInt8

def isDecimalDigit (b : UInt8) : Bool := 48 ≤ b ∧ b ≤ 57

/-- The number that a text of digits writes. -/
def decimalValue (text : List UInt8) : Option ℕ :=
  if text ≠ [] ∧ text.all isDecimalDigit then
    some (text.foldl (fun n b => 10 * n + (b.toNat - 48)) 0)
  else none

section
variable {sep b : UInt8} {text line before after rest : List UInt8}

theorem splitFirst_append (h : sep ∉ before) :
    splitFirst sep (before ++ sep :: after) = some (before, after) := by
  have hne : ∀ b ∈ before, decide (b ≠ sep) = true := by
    intro b hb
    simpa using fun heq : b = sep => h (heq ▸ hb)
  rw [splitFirst, List.dropWhile_append_of_pos hne, List.takeWhile_append_of_pos hne,
    List.dropWhile_cons_of_neg (by simp), List.takeWhile_cons_of_neg (by simp), List.append_nil]

theorem splitLine_append (h : 13 ∉ line) :
    splitLine (line ++ crlf ++ rest) = some (line, rest) := by
  induction line with
  | nil => rfl
  | cons b line ih =>
    rw [List.mem_cons, not_or] at h
    rw [List.cons_append, List.cons_append, splitLine, if_neg (fun heq => h.1 heq.1.symm), ih h.2]
    rfl

theorem length_splitLine (h : splitLine text = some (line, rest)) :
    rest.length < text.length := by
  induction text generalizing line with
  | nil => cases h
  | cons b text ih =>
    rw [splitLine] at h
    split at h
    next =>
      obtain ⟨-, rfl⟩ := Prod.mk.inj (Option.some.inj h)
      rw [List.length_tail, List.length_cons]
      omega
    next =>
      obtain ⟨⟨line', rest'⟩, hr, heq⟩ := Option.map_eq_some_iff.mp h
      obtain ⟨-, rfl⟩ := Prod.mk.inj heq
      exact Nat.lt_succ_of_lt (ih hr)

/-- A line that has ended does not change with what arrives later. -/
theorem splitLine_append_right (h : splitLine text = some (line, rest)) (more : List UInt8) :
    splitLine (text ++ more) = some (line, rest ++ more) := by
  induction text generalizing line with
  | nil => cases h
  | cons b text ih =>
    cases text with
    | nil =>
      rw [splitLine, if_neg (by simp)] at h
      cases h
    | cons c text =>
      rw [splitLine] at h
      rw [List.cons_append, splitLine]
      split at h
      next heq =>
        obtain ⟨rfl, rfl⟩ := Prod.mk.inj (Option.some.inj h)
        exact if_pos heq
      next hne =>
        obtain ⟨⟨line', rest'⟩, hr, heq⟩ := Option.map_eq_some_iff.mp h
        obtain ⟨rfl, rfl⟩ := Prod.mk.inj heq
        have hne' : ¬(b = 13 ∧ (c :: (text ++ more)).head? = some 10) := hne
        rw [List.cons_append, if_neg hne', ← List.cons_append, ih hr]
        rfl

theorem trimBlanks_cons (h : isBlank b) : trimBlanks (b :: text) = trimBlanks text := by
  rw [trimBlanks, List.dropWhile_cons_of_pos h, trimBlanks]

/-- A text without blanks at its ends. -/
def Trimmed (text : List UInt8) : Prop :=
  (∀ b ∈ text.head?, isBlank b = false) ∧ ∀ b ∈ text.getLast?, isBlank b = false

theorem trimBlanks_of_trimmed (h : Trimmed text) : trimBlanks text = text := by
  have hdrop : text.dropWhile isBlank = text := by
    cases text with
    | nil => rfl
    | cons b text => exact List.dropWhile_cons_of_neg (by simp [h.1 b rfl])
  rw [trimBlanks, hdrop, List.rdropWhile_eq_self_iff]
  intro hne
  rw [h.2 _ (List.getLast?_eq_some_getLast hne)]
  simp

theorem digit_toUInt8 {c : Char} (h : c.isDigit) :
    isDecimalDigit c.toUInt8 = true ∧ c.toUInt8.toNat = c.toNat := by
  have hrange : 48 ≤ c.toNat ∧ c.toNat ≤ 57 := by
    simpa [Char.isDigit, UInt32.le_iff_toNat_le] using h
  have hnat : c.toUInt8.toNat = c.toNat := by
    rw [Char.toUInt8, UInt32.toNat_toUInt8]
    exact Nat.mod_eq_of_lt (by show c.toNat < 2 ^ 8; omega)
  refine ⟨?_, hnat⟩
  rw [isDecimalDigit, decide_eq_true_iff, UInt8.le_iff_toNat_le, UInt8.le_iff_toNat_le, hnat]
  exact hrange

theorem isDigit_of_mem_toDigits {c : Char} {n : ℕ} (h : c ∈ Nat.toDigits 10 n) : c.isDigit :=
  Nat.isDigit_of_mem_toDigits (by decide) (by decide) h

theorem isDecimalDigit_of_mem {n : ℕ} (h : b ∈ decimalText n) : isDecimalDigit b = true := by
  obtain ⟨c, hc, rfl⟩ := List.mem_map.mp h
  exact (digit_toUInt8 (isDigit_of_mem_toDigits hc)).1

/-- The digits of a number are read back. -/
theorem decimalValue_decimalText (n : ℕ) : decimalValue (decimalText n) = some n := by
  have hne : decimalText n ≠ [] := by
    rw [decimalText, ne_eq, List.map_eq_nil_iff]
    exact Nat.toDigits_ne_nil
  have hfold : ∀ (cs : List Char), (∀ c ∈ cs, c.isDigit) → ∀ init,
      (cs.map Char.toUInt8).foldl (fun n b => 10 * n + (b.toNat - 48)) init =
        Nat.ofDigitChars 10 cs init := by
    intro cs hcs
    induction cs with
    | nil => exact fun init => Nat.ofDigitChars_nil.symm
    | cons c cs ih =>
      intro init
      rw [List.map_cons, List.foldl_cons, ih fun c' hc' => hcs c' (List.mem_cons_of_mem _ hc'),
        Nat.ofDigitChars_cons, (digit_toUInt8 (hcs c List.mem_cons_self)).2]
      rfl
  rw [decimalValue, if_pos ⟨hne, List.all_eq_true.mpr fun b => isDecimalDigit_of_mem⟩, decimalText,
    hfold _ fun c => isDigit_of_mem_toDigits, Nat.ofDigitChars_ten_toDigits]

theorem trimmed_of_not_blank (h : ∀ b ∈ text, isBlank b = false) : Trimmed text :=
  ⟨fun b hb => h b (List.mem_of_mem_head? hb), fun b hb => h b (List.mem_of_getLast? hb)⟩

theorem trimmed_decimalText (n : ℕ) : Trimmed (decimalText n) := by
  refine trimmed_of_not_blank fun b hb => ?_
  have hdigit : 48 ≤ b ∧ b ≤ 57 := of_decide_eq_true (isDecimalDigit_of_mem hb)
  refine decide_eq_false ?_
  rintro (rfl | rfl)
  · exact absurd hdigit.1 (by decide)
  · exact absurd hdigit.1 (by decide)

theorem not_mem_decimalText {n : ℕ} (hb : isDecimalDigit b = false) : b ∉ decimalText n := by
  intro hmem
  rw [isDecimalDigit_of_mem hmem] at hb
  cases hb

end

/-! ## Requests -/

structure HttpRequest where
  method : List UInt8
  target : List UInt8
  fields : List (List UInt8 × List UInt8)
  body : List UInt8
  deriving DecidableEq

namespace HttpRequest

/-- `HTTP/1.1`. -/
def version : List UInt8 := [72, 84, 84, 80, 47, 49, 46, 49]

def lowerCase (b : UInt8) : UInt8 := if 65 ≤ b ∧ b ≤ 90 then b + 32 else b

/-- The value of the first field of a name, whose case does not matter. -/
def fieldValue (fields : List (List UInt8 × List UInt8)) (name : List UInt8) :
    Option (List UInt8) :=
  (fields.find? fun f => f.1.map lowerCase = name.map lowerCase).map (·.2)

/-- `Content-Length`. -/
def contentLengthName : List UInt8 :=
  [67, 111, 110, 116, 101, 110, 116, 45, 76, 101, 110, 103, 116, 104]

/-- The length of the body; without the field there is none. -/
def bodyLength (fields : List (List UInt8 × List UInt8)) : Option ℕ :=
  match fieldValue fields contentLengthName with
  | none => some 0
  | some value => decimalValue value

def fieldText (f : List UInt8 × List UInt8) : List UInt8 := f.1 ++ 58 :: 32 :: f.2 ++ crlf

def text (r : HttpRequest) : List UInt8 :=
  r.method ++ 32 :: (r.target ++ 32 :: version) ++ crlf ++
    (r.fields.map fieldText).flatten ++ crlf ++ r.body

/-- The fields up to the empty line. -/
def readFields (text : List UInt8) : Option (List (List UInt8 × List UInt8) × List UInt8) :=
  match _h : splitLine text with
  | none => none
  | some (line, rest) =>
    if line = [] then some ([], rest)
    else do
      let (name, value) ← splitFirst 58 line
      let (fields, rest) ← readFields rest
      some ((name, trimBlanks value) :: fields, rest)
termination_by text.length
decreasing_by exact length_splitLine _h

/-- The request at the start of a stream, and what follows it. -/
def read (stream : List UInt8) : Option (HttpRequest × List UInt8) := do
  let (line, rest) ← splitLine stream
  let (method, line) ← splitFirst 32 line
  let (target, version') ← splitFirst 32 line
  if version' = version then
    let (fields, rest) ← readFields rest
    let length ← bodyLength fields
    if length ≤ rest.length then
      some (⟨method, target, fields, rest.take length⟩, rest.drop length)
    else none
  else none

/-- No part of the request runs into the next, and the length is that of the body. -/
structure WellFormed (r : HttpRequest) : Prop where
  method : 32 ∉ r.method ∧ 13 ∉ r.method
  target : 32 ∉ r.target ∧ 13 ∉ r.target
  fields : ∀ f ∈ r.fields, 58 ∉ f.1 ∧ 13 ∉ f.1 ∧ 13 ∉ f.2 ∧ Trimmed f.2
  length : bodyLength r.fields = some r.body.length

theorem readFields_of_splitLine {text line rest : List UInt8}
    (h : splitLine text = some (line, rest)) :
    readFields text =
      if line = [] then some ([], rest)
      else (splitFirst 58 line).bind fun f =>
        (readFields rest).map fun r => ((f.1, trimBlanks f.2) :: r.1, r.2) := by
  rw [readFields]
  split
  next hnone => rw [h] at hnone; cases hnone
  next line' rest' hsome =>
    obtain ⟨rfl, rfl⟩ := Prod.mk.inj (Option.some.inj (h.symm.trans hsome))
    refine if_congr Iff.rfl rfl ?_
    cases splitFirst 58 line with
    | none => rfl
    | some f => cases readFields rest <;> rfl

theorem readFields_nil (rest : List UInt8) : readFields (crlf ++ rest) = some ([], rest) := by
  have hline : splitLine (crlf ++ rest) = some ([], rest) := splitLine_append List.not_mem_nil
  rw [readFields_of_splitLine hline, if_pos rfl]

theorem readFields_cons {f : List UInt8 × List UInt8}
    (hcolon : 58 ∉ f.1) (hcr : 13 ∉ f.1) (hvalue : 13 ∉ f.2) (htrimmed : Trimmed f.2)
    (rest : List UInt8) :
    readFields (fieldText f ++ rest) = (readFields rest).map fun r => (f :: r.1, r.2) := by
  have hline : splitLine (fieldText f ++ rest) = some (f.1 ++ 58 :: 32 :: f.2, rest) := by
    refine splitLine_append ?_
    simp only [List.mem_append, List.mem_cons, not_or]
    exact ⟨hcr, by decide, by decide, hvalue⟩
  rw [readFields_of_splitLine hline, if_neg (by simp), splitFirst_append hcolon]
  show (readFields rest).map _ = _
  rw [trimBlanks_cons (by decide), trimBlanks_of_trimmed htrimmed]

theorem readFields_append_right {text rest : List UInt8} {fields : List (List UInt8 × List UInt8)}
    (h : readFields text = some (fields, rest)) (more : List UInt8) :
    readFields (text ++ more) = some (fields, rest ++ more) := by
  induction hlength : text.length using Nat.strong_induction_on generalizing text fields with
  | _ n ih =>
    subst hlength
    cases hline : splitLine text with
    | none =>
      rw [readFields] at h
      split at h
      next => cases h
      next hsome => rw [hline] at hsome; cases hsome
    | some r =>
      obtain ⟨line, after⟩ := r
      rw [readFields_of_splitLine hline] at h
      rw [readFields_of_splitLine (splitLine_append_right hline more)]
      split at h
      next hnil =>
        obtain ⟨rfl, rfl⟩ := Prod.mk.inj (Option.some.inj h)
        exact if_pos hnil
      next hne =>
        rw [if_neg hne]
        obtain ⟨f, hf, hrest⟩ := Option.bind_eq_some_iff.mp h
        obtain ⟨⟨fields', rest'⟩, hr, heq⟩ := Option.map_eq_some_iff.mp hrest
        obtain ⟨rfl, rfl⟩ := Prod.mk.inj heq
        rw [hf, ih _ (length_splitLine hline) hr rfl]
        rfl

theorem readFields_text {fields : List (List UInt8 × List UInt8)}
    (h : ∀ f ∈ fields, 58 ∉ f.1 ∧ 13 ∉ f.1 ∧ 13 ∉ f.2 ∧ Trimmed f.2)
    (rest : List UInt8) :
    readFields ((fields.map fieldText).flatten ++ crlf ++ rest) = some (fields, rest) := by
  induction fields with
  | nil => exact readFields_nil rest
  | cons f fields ih =>
    obtain ⟨⟨hcolon, hcr, hvalue, htrimmed⟩, hfields⟩ := List.forall_mem_cons.mp h
    rw [List.map_cons, List.flatten_cons, List.append_assoc, List.append_assoc,
      readFields_cons hcolon hcr hvalue htrimmed, ← List.append_assoc, ih hfields]
    rfl

/-- What arrives after a request is left in the stream. -/
theorem read_append_right {stream rest : List UInt8} {r : HttpRequest}
    (h : read stream = some (r, rest)) (more : List UInt8) :
    read (stream ++ more) = some (r, rest ++ more) := by
  rw [read] at h ⊢
  obtain ⟨⟨line, after⟩, hline, h⟩ := Option.bind_eq_some_iff.mp h
  obtain ⟨⟨method, line'⟩, hmethod, h⟩ := Option.bind_eq_some_iff.mp h
  obtain ⟨⟨target, version'⟩, htarget, h⟩ := Option.bind_eq_some_iff.mp h
  rw [splitLine_append_right hline more]
  show (splitFirst 32 line).bind _ = _
  rw [hmethod]
  show (splitFirst 32 line').bind _ = _
  rw [htarget]
  show (if version' = version then _ else none : Option _) = _
  dsimp only at h
  split at h
  next hversion =>
    rw [if_pos hversion]
    obtain ⟨⟨fields, body⟩, hfields, h⟩ := Option.bind_eq_some_iff.mp h
    obtain ⟨length, hlength, h⟩ := Option.bind_eq_some_iff.mp h
    rw [readFields_append_right hfields more]
    show (bodyLength fields).bind _ = _
    rw [hlength]
    show (if length ≤ (body ++ more).length then _ else none : Option _) = _
    dsimp only at h
    split at h
    next hle =>
      obtain ⟨rfl, rfl⟩ := Prod.mk.inj (Option.some.inj h)
      have hle' : length ≤ (body ++ more).length := by
        rw [List.length_append]
        omega
      rw [if_pos hle', List.take_append_of_le_length hle, List.drop_append_of_le_length hle]
    next => cases h
  next => cases h

/-- The round trip. -/
theorem read_text {r : HttpRequest} (h : r.WellFormed) (rest : List UInt8) :
    read (r.text ++ rest) = some (r, rest) := by
  have hline : splitLine (r.text ++ rest) = some (r.method ++ 32 :: (r.target ++ 32 :: version),
      (r.fields.map fieldText).flatten ++ crlf ++ (r.body ++ rest)) := by
    have hparts : r.text ++ rest = r.method ++ 32 :: (r.target ++ 32 :: version) ++ crlf ++
        ((r.fields.map fieldText).flatten ++ crlf ++ (r.body ++ rest)) := by
      simp only [text, List.append_assoc]
    rw [hparts]
    refine splitLine_append ?_
    simp only [List.mem_append, List.mem_cons, not_or]
    exact ⟨h.method.2, by decide, h.target.2, by decide, by decide⟩
  rw [read, hline]
  show (splitFirst 32 _).bind _ = _
  rw [splitFirst_append h.method.1]
  show (splitFirst 32 _).bind _ = _
  rw [splitFirst_append h.target.1]
  show (if version = version then _ else none : Option _) = _
  rw [if_pos rfl, readFields_text h.fields]
  show (bodyLength r.fields).bind _ = _
  rw [h.length]
  show (if r.body.length ≤ (r.body ++ rest).length then _ else none : Option _) = _
  rw [if_pos (by simp), List.take_left, List.drop_left]

/-- Of a request that is cut off nothing is read. -/
theorem read_of_cut {r : HttpRequest} (h : r.WellFormed) {stream : List UInt8}
    (hstart : stream <+: r.text) (hcut : stream ≠ r.text) : read stream = none := by
  obtain ⟨more, hmore⟩ := hstart
  rw [Option.eq_none_iff_forall_ne_some]
  rintro ⟨r', rest⟩ hread
  have hwhole := read_append_right hread more
  rw [hmore, ← List.append_nil r.text, read_text h] at hwhole
  obtain ⟨-, hnil⟩ := Prod.mk.inj (Option.some.inj hwhole)
  rw [(List.nil_eq_append_iff.mp hnil).2, List.append_nil] at hmore
  exact hcut hmore

end HttpRequest

end OpenGps.Lib
