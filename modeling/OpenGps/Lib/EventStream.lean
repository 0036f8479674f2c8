import Mathlib.Data.List.Basic
import Mathlib.Data.Nat.Notation

/-!
# Event streams

How a client reads a stream of server-sent events, byte by byte: lines that end with LF, CR or both,
fields that fill the buffers of the event, and a blank line that dispatches it. A block of lines
leaves its event when its blank line has arrived, and not a byte before.
-/

namespace OpenGps.Lib

structure Message where
  type : List UInt8
  data : List UInt8
  lastEventId : List UInt8
  deriving DecidableEq

/-- The event that is being read, and those that were dispatched. -/
structure EventBuffers where
  type : List UInt8
  data : List UInt8
  id : List UInt8
  dispatched : List Message

namespace EventBuffers

/-- `event`. -/
def typeField : List UInt8 := [101, 118, 101, 110, 116]

/-- `data`. -/
def dataField : List UInt8 := [100, 97, 116, 97]

/-- `id`. -/
def idField : List UInt8 := [105, 100]

/-- `message`, the type of an event without one. -/
def defaultType : List UInt8 := [109, 101, 115, 115, 97, 103, 101]

variable (buffers : EventBuffers)

/-- A field changes the buffers; the delay of `retry` and the unknown fields are left out. -/
def field (name value : List UInt8) : EventBuffers :=
  if name = typeField then { buffers with type := value }
  else if name = dataField then { buffers with data := buffers.data ++ value ++ [10] }
  else if name = idField then (if 0 ∈ value then buffers else { buffers with id := value })
  else buffers

/-- A blank line: an event without data is dropped, and of the data the last LF is. -/
def dispatch : EventBuffers :=
  if buffers.data = [] then { buffers with type := [] }
  else
    { buffers with
      type := []
      data := []
      dispatched := buffers.dispatched ++
        [⟨if buffers.type = [] then defaultType else buffers.type, buffers.data.dropLast,
          buffers.id⟩] }

/-- The value of a field, without the one space in front of it. -/
def fieldValue (text : List UInt8) : List UInt8 :=
  if text.head? = some 32 then text.tail else text

def processLine (line : List UInt8) : EventBuffers :=
  if line = [] then buffers.dispatch
  else
    let name := line.takeWhile (· ≠ 58)
    -- A line that starts with a colon is a comment.
    if name = [] then buffers
    else buffers.field name (fieldValue (line.drop (name.length + 1)))

end EventBuffers

/-- A client in the middle of a stream. -/
structure EventReader where
  /-- The bytes of the line so far. -/
  line : List UInt8
  /-- The last byte was a CR, whose LF may follow. -/
  afterCr : Bool
  buffers : EventBuffers

namespace EventReader

def feed (r : EventReader) (b : UInt8) : EventReader :=
  if b = 10 then
    if r.afterCr then { r with afterCr := false } else ⟨[], false, r.buffers.processLine r.line⟩
  else if b = 13 then ⟨[], true, r.buffers.processLine r.line⟩
  else ⟨r.line ++ [b], false, r.buffers⟩

def feedAll (r : EventReader) (bytes : List UInt8) : EventReader := bytes.foldl feed r

/-- Between two lines. -/
def atLine (buffers : EventBuffers) : EventReader := ⟨[], false, buffers⟩

/-- The events of a stream, up to its last byte. -/
def events (bytes : List UInt8) : List Message :=
  ((atLine ⟨[], [], [], []⟩).feedAll bytes).buffers.dispatched

end EventReader

/-! ## Lines -/

/-- No byte of the line ends it. -/
def Unbroken (line : List UInt8) : Prop := ∀ b ∈ line, b ≠ 10 ∧ b ≠ 13

section
variable {buffers : EventBuffers} {name value line : List UInt8}

theorem processLine_field (hname : name ≠ []) (hcolon : 58 ∉ name) (buffers : EventBuffers)
    (value : List UInt8) :
    buffers.processLine (name ++ 58 :: 32 :: value) = buffers.field name value := by
  have hne : ∀ b ∈ name, decide (b ≠ 58) = true := by
    intro b hb
    simpa using fun heq : b = 58 => hcolon (heq ▸ hb)
  have htake : (name ++ 58 :: 32 :: value).takeWhile (· ≠ 58) = name := by
    rw [List.takeWhile_append_of_pos hne, List.takeWhile_cons_of_neg (by simp), List.append_nil]
  have hdrop : (name ++ 58 :: 32 :: value).drop (name.length + 1) = 32 :: value := by
    rw [← List.drop_drop, List.drop_left]
    rfl
  rw [EventBuffers.processLine, if_neg (by simp), htake]
  dsimp only
  rw [if_neg hname, hdrop]
  rfl

theorem processLine_comment (text : List UInt8) :
    buffers.processLine (58 :: text) = buffers := by
  rw [EventBuffers.processLine, if_neg (List.cons_ne_nil _ _),
    List.takeWhile_cons_of_neg (by simp)]
  rfl

/-- Only a blank line dispatches. -/
theorem dispatched_processLine (hline : line ≠ []) :
    (buffers.processLine line).dispatched = buffers.dispatched := by
  rw [EventBuffers.processLine, if_neg hline]
  dsimp only
  unfold EventBuffers.field
  split
  · rfl
  · split
    · rfl
    · split
      · rfl
      · split
        · split <;> rfl
        · rfl

end

/-! ## Blocks -/

namespace EventReader
variable {buffers : EventBuffers} {line : List UInt8} {lines : List (List UInt8)}

theorem feedAll_append (r : EventReader) (xs ys : List UInt8) :
    r.feedAll (xs ++ ys) = (r.feedAll xs).feedAll ys := List.foldl_append

/-- The bytes of a line only wait for its end. -/
theorem feedAll_unbroken (hline : Unbroken line) (start : List UInt8) :
    feedAll ⟨start, false, buffers⟩ line = ⟨start ++ line, false, buffers⟩ := by
  induction line generalizing start with
  | nil => rw [List.append_nil]; rfl
  | cons b line ih =>
    obtain ⟨⟨hlf, hcr⟩, hline⟩ := List.forall_mem_cons.mp hline
    have hb : feed ⟨start, false, buffers⟩ b = ⟨start ++ [b], false, buffers⟩ := by
      rw [feed, if_neg hlf, if_neg hcr]
    rw [feedAll, List.foldl_cons, hb, ← feedAll, ih hline, List.append_assoc]
    rfl

theorem feedAll_line (hline : Unbroken line) :
    (atLine buffers).feedAll (line ++ [10]) = atLine (buffers.processLine line) := by
  rw [feedAll_append, atLine, feedAll_unbroken hline]
  rfl

/-- Lines and the blank line after them. -/
def blockText (lines : List (List UInt8)) : List UInt8 := lines.flatMap (· ++ [10]) ++ [10]

theorem feedAll_lines (hlines : ∀ line ∈ lines, Unbroken line) :
    (atLine buffers).feedAll (lines.flatMap (· ++ [10])) =
      atLine (lines.foldl EventBuffers.processLine buffers) := by
  induction lines generalizing buffers with
  | nil => rfl
  | cons line lines ih =>
    obtain ⟨hline, hlines⟩ := List.forall_mem_cons.mp hlines
    rw [List.flatMap_cons, feedAll_append, feedAll_line hline, ih hlines, List.foldl_cons]

theorem feedAll_block (hlines : ∀ line ∈ lines, Unbroken line) :
    (atLine buffers).feedAll (blockText lines) =
      atLine (lines.foldl EventBuffers.processLine buffers).dispatch := by
  rw [blockText, feedAll_append, feedAll_lines hlines]
  rfl

/-- A block that is cut off dispatches nothing. -/
theorem dispatched_of_cut (hlines : ∀ line ∈ lines, Unbroken line ∧ line ≠ []) {n : ℕ}
    (hn : n < (blockText lines).length) :
    ((atLine buffers).feedAll ((blockText lines).take n)).buffers.dispatched =
      buffers.dispatched := by
  induction lines generalizing buffers n with
  | nil =>
    obtain rfl : n = 0 := Nat.lt_one_iff.mp hn
    rfl
  | cons line lines ih =>
    obtain ⟨⟨hline, hne⟩, hlines⟩ := List.forall_mem_cons.mp hlines
    have hblock : blockText (line :: lines) = (line ++ [10]) ++ blockText lines := by
      rw [blockText, List.flatMap_cons, List.append_assoc]
      rfl
    rw [hblock] at hn ⊢
    rw [List.length_append] at hn
    rcases Nat.lt_or_ge n (line ++ [10]).length with hshort | hlong
    · -- The line itself is cut off.
      rw [List.length_append, List.length_singleton] at hshort
      have hcut : Unbroken (line.take n) := fun b hb => hline b (List.mem_of_mem_take hb)
      rw [List.append_assoc, List.take_append_of_le_length (by omega), atLine,
        feedAll_unbroken hcut]
    · have hrest : n - (line ++ [10]).length < (blockText lines).length := by omega
      rw [List.take_append, List.take_of_length_le hlong, feedAll_append, feedAll_line hline,
        ih hlines hrest, dispatched_processLine hne]

end EventReader

end OpenGps.Lib
