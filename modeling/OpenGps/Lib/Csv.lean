import Mathlib.Data.List.Basic

/-!
# Comma-separated values

Records of fields as Go writes them: commas between the fields, a line feed after each record, and
quotes around a field that could be misread without them. A strict reader has the records back from
the text, whatever the fields are.
-/

namespace OpenGps.Lib

namespace Csv

/-! ## Writing -/

/-- The white space of Unicode. -/
def isSpace (c : Char) : Bool :=
  c = ' ' ∨ (9 ≤ c.toNat ∧ c.toNat ≤ 13) ∨ c.toNat = 0x85 ∨ c.toNat = 0xA0 ∨ c.toNat = 0x1680 ∨
    (0x2000 ≤ c.toNat ∧ c.toNat ≤ 0x200A) ∨ c.toNat = 0x2028 ∨ c.toNat = 0x2029 ∨
    c.toNat = 0x202F ∨ c.toNat = 0x205F ∨ c.toNat = 0x3000

/-- The characters that mean something between fields. -/
def isSpecial (c : Char) : Bool := c = '\n' ∨ c = '\r' ∨ c = '"' ∨ c = ','

/-- `\.` ends the data of a database dump; an empty field is written without quotes. -/
def fieldNeedsQuotes (field : List Char) : Bool :=
  field = ['\\', '.'] ∨ field.any isSpecial ∨ field.head?.any isSpace

/-- A quote within quotes is written twice. -/
def escape (c : Char) : List Char := if c = '"' then ['"', '"'] else [c]

def writeField (field : List Char) : List Char :=
  if fieldNeedsQuotes field then '"' :: (field.flatMap escape ++ ['"']) else field

def write (record : List (List Char)) : List Char :=
  List.intercalate [','] (record.map writeField) ++ ['\n']

def writeAll (records : List (List (List Char))) : List Char := records.flatMap write

/-! ## Reading -/

/-- Where the reader is in a field. -/
inductive Mode where
  | start
  | bare
  | quoted
  /-- After a quote within quotes. -/
  | closing
  deriving DecidableEq

structure Reader where
  records : List (List (List Char))
  record : List (List Char)
  field : List Char
  mode : Mode

namespace Reader

def endField (r : Reader) : Reader :=
  { r with record := r.record ++ [r.field], field := [], mode := .start }

def endRecord (r : Reader) : Reader :=
  ⟨r.records ++ [r.record ++ [r.field]], [], [], .start⟩

/-- What may follow a field. -/
def separator (r : Reader) (c : Char) : Option Reader :=
  if c = ',' then some r.endField else if c = '\n' then some r.endRecord else none

/-- One character; `none` where the text is malformed. -/
def step (r : Reader) (c : Char) : Option Reader :=
  match r.mode with
  | .quoted =>
    if c = '"' then some { r with mode := .closing }
    else some { r with field := r.field ++ [c] }
  | .closing =>
    if c = '"' then some { r with field := r.field ++ [c], mode := .quoted } else r.separator c
  | .start =>
    if c = '"' then some { r with mode := .quoted }
    else if isSpecial c then r.separator c
    else some { r with field := r.field ++ [c], mode := .bare }
  | .bare =>
    if isSpecial c then r.separator c
    else some { r with field := r.field ++ [c] }

end Reader

/-- The records of a text that ends where a record ends. -/
def read (text : List Char) : Option (List (List (List Char))) := do
  let r ← text.foldlM Reader.step ⟨[], [], [], .start⟩
  if r.record = [] ∧ r.field = [] ∧ r.mode = .start then some r.records else none

/-! ## Reading what was written -/

variable {records : List (List (List Char))} {record : List (List Char)}

theorem foldlM_bare {field : List Char} (h : ∀ c ∈ field, isSpecial c = false) (seen : List Char) :
    field.foldlM Reader.step ⟨records, record, seen, .bare⟩ =
      some ⟨records, record, seen ++ field, .bare⟩ := by
  induction field generalizing seen with
  | nil => simp
  | cons c field ih =>
    obtain ⟨hc, hfield⟩ := List.forall_mem_cons.mp h
    rw [List.foldlM_cons]
    simp only [Reader.step, hc, Bool.false_eq_true, if_false, Option.bind_eq_bind, Option.bind_some]
    rw [ih hfield, List.append_assoc]
    rfl

theorem foldlM_quoted (field seen : List Char) :
    (field.flatMap escape).foldlM Reader.step ⟨records, record, seen, .quoted⟩ =
      some ⟨records, record, seen ++ field, .quoted⟩ := by
  induction field generalizing seen with
  | nil => simp
  | cons c field ih =>
    rw [List.flatMap_cons, List.foldlM_append]
    have hstep : (escape c).foldlM Reader.step ⟨records, record, seen, .quoted⟩ =
        some ⟨records, record, seen ++ [c], .quoted⟩ := by
      by_cases hc : c = '"'
      · subst hc
        rfl
      · simp [escape, hc, Reader.step]
    rw [hstep, Option.bind_eq_bind, Option.bind_some, ih, List.append_assoc]
    rfl

/-- A field is read back, up to the character that follows it. -/
theorem foldlM_writeField (field : List Char) : ∃ mode, mode ≠ .quoted ∧
    (writeField field).foldlM Reader.step ⟨records, record, [], .start⟩ =
      some ⟨records, record, field, mode⟩ := by
  unfold writeField
  split
  · refine ⟨.closing, by decide, ?_⟩
    rw [List.foldlM_cons]
    simp only [Reader.step, if_true, Option.bind_eq_bind, Option.bind_some]
    rw [List.foldlM_append, foldlM_quoted]
    rfl
  · next hquotes =>
    have hspecial : ∀ c ∈ field, isSpecial c = false := by
      simp only [fieldNeedsQuotes, Bool.decide_or, Bool.or_eq_true, not_or] at hquotes
      simpa using hquotes.2.1
    cases field with
    | nil => exact ⟨.start, by decide, rfl⟩
    | cons c field =>
      obtain ⟨hc, hfield⟩ := List.forall_mem_cons.mp hspecial
      have hquote : c ≠ '"' := by
        intro hc'
        subst hc'
        cases hc
      refine ⟨.bare, by decide, ?_⟩
      rw [List.foldlM_cons]
      simp only [Reader.step, hquote, hc, Bool.false_eq_true, if_false, Option.bind_eq_bind,
        Option.bind_some]
      exact foldlM_bare hfield _

theorem step_separator {field : List Char} {mode : Mode} (h : mode ≠ .quoted) {c : Char}
    (hc : c = ',' ∨ c = '\n') :
    Reader.step ⟨records, record, field, mode⟩ c =
      (Reader.mk records record field mode).separator c := by
  have hspecial : isSpecial c = true ∧ c ≠ '"' := by
    obtain rfl | rfl := hc <;> decide
  cases mode with
  | quoted => exact absurd rfl h
  | start => simp [Reader.step, hspecial]
  | bare => simp [Reader.step, hspecial]
  | closing => simp [Reader.step, hspecial]

/-- A record is read back. -/
theorem foldlM_write {fields : List (List Char)} (h : fields ≠ []) :
    (write fields).foldlM Reader.step ⟨records, record, [], .start⟩ =
      some ⟨records ++ [record ++ fields], [], [], .start⟩ := by
  obtain ⟨field, fields, rfl⟩ := List.exists_cons_of_ne_nil h
  clear h
  induction fields generalizing field record with
  | nil =>
    obtain ⟨mode, hmode, hfield⟩ := @foldlM_writeField records record field
    rw [write, List.map_singleton, List.intercalate_singleton, List.foldlM_append, hfield,
      Option.bind_eq_bind, Option.bind_some, List.foldlM_cons, step_separator hmode (.inr rfl)]
    rfl
  | cons next fields ih =>
    obtain ⟨mode, hmode, hfield⟩ := @foldlM_writeField records record field
    have hrest : write (field :: next :: fields) =
        writeField field ++ ',' :: write (next :: fields) := by
      simp [write, List.intercalate]
    rw [hrest, List.foldlM_append, hfield, Option.bind_eq_bind, Option.bind_some, List.foldlM_cons,
      step_separator hmode (.inl rfl)]
    have hread := @ih (record ++ [field]) next
    rw [List.append_assoc] at hread
    exact hread

theorem foldlM_writeAll (rows : List (List (List Char))) (h : ∀ row ∈ rows, row ≠ []) :
    (writeAll rows).foldlM Reader.step ⟨records, [], [], .start⟩ =
      some ⟨records ++ rows, [], [], .start⟩ := by
  induction rows generalizing records with
  | nil => simp [writeAll]
  | cons row rows ih =>
    obtain ⟨hrow, hrows⟩ := List.forall_mem_cons.mp h
    rw [writeAll, List.flatMap_cons, List.foldlM_append, foldlM_write hrow, Option.bind_eq_bind,
      Option.bind_some, List.nil_append]
    have hrest := @ih (records ++ [row]) hrows
    rw [List.append_assoc] at hrest
    exact hrest

theorem read_writeAll (rows : List (List (List Char))) (h : ∀ row ∈ rows, row ≠ []) :
    read (writeAll rows) = some rows := by
  rw [read, foldlM_writeAll rows h]
  rfl

end Csv

end OpenGps.Lib
