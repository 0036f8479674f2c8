import OpenGps.Backend.Hub
import OpenGps.Lib.EventStream
import OpenGps.Lib.HttpMessage

/-!
# What the live streams write

`writeSSE` and `writeGuestSSE` write an event as one block of an event stream, and between the
events the loops of the two streams write comments that keep the connection open. Wherever the
connection breaks, the browser has the events that were written whole, in their order, with their
kinds, numbers and payloads.
-/

namespace OpenGps.Backend

open OpenGps.Lib

variable {σ : Type}

/-- What a stream writes in one turn of its loop. -/
inductive StreamWrite (σ : Type) where
  | event (e : LiveEvent σ)
  | keepalive

/-- The kinds of the events of a stream. -/
def streamKinds : List String := ["snapshot", "location", "presence"]

def utf8 (text : String) : List UInt8 := text.toUTF8.data.toList

theorem unbroken_decimalText (n : ℕ) : Unbroken (decimalText n) := by
  intro b hb
  have hdigit : 48 ≤ b ∧ b ≤ 57 := of_decide_eq_true (isDecimalDigit_of_mem hb)
  constructor
  · rintro rfl
    exact absurd hdigit.1 (by decide)
  · rintro rfl
    exact absurd hdigit.1 (by decide)

section
variable (marshal : σ → List UInt8)

/-- `"event: %s\nid: %d\ndata: %s\n\n"`; the payload of a guest names the device too. -/
def writeSSE (e : LiveEvent σ) : List UInt8 :=
  utf8 "event: " ++ utf8 e.kind ++ utf8 "\nid: " ++ decimalText e.id.toNat ++ utf8 "\ndata: " ++
    marshal e.snapshot ++ utf8 "\n\n"

namespace StreamWrite

def text : StreamWrite σ → List UInt8
  | event e => writeSSE marshal e
  | keepalive => utf8 ": keepalive\n\n"

/-- The event a browser has of a write. -/
def message : StreamWrite σ → Option Message
  | event e => some ⟨utf8 e.kind, marshal e.snapshot, decimalText e.id.toNat⟩
  | keepalive => none

/-- The bytes of some writes. -/
def bytes (writes : List (StreamWrite σ)) : List UInt8 := writes.flatMap (text marshal)

def lines : StreamWrite σ → List (List UInt8)
  | event e =>
    [EventBuffers.typeField ++ 58 :: 32 :: utf8 e.kind,
     EventBuffers.idField ++ 58 :: 32 :: decimalText e.id.toNat,
     EventBuffers.dataField ++ 58 :: 32 :: marshal e.snapshot]
  | keepalive => [58 :: utf8 " keepalive"]

/-- The event has one of the kinds. -/
def Known : StreamWrite σ → Prop
  | event e => e.kind ∈ streamKinds
  | keepalive => True

theorem text_eq (w : StreamWrite σ) : w.text marshal = EventReader.blockText (w.lines marshal) := by
  cases w with
  | keepalive =>
    show utf8 ": keepalive\n\n" = EventReader.blockText [58 :: utf8 " keepalive"]
    decide
  | event e =>
    have htype : utf8 "event: " = EventBuffers.typeField ++ [58, 32] := by decide
    have hid : utf8 "\nid: " = 10 :: EventBuffers.idField ++ [58, 32] := by decide
    have hdata : utf8 "\ndata: " = 10 :: EventBuffers.dataField ++ [58, 32] := by decide
    have hend : utf8 "\n\n" = [10, 10] := by decide
    simp only [text, writeSSE, lines, EventReader.blockText, htype, hid, hdata, hend,
      List.flatMap_cons, List.flatMap_nil, List.append_assoc, List.cons_append, List.nil_append]

/-- A write leaves its event, and the buffers are empty again. -/
theorem dispatch_lines {w : StreamWrite σ} (hw : w.Known) (id : List UInt8)
    (dispatched : List Message) :
    ∃ id', ((w.lines marshal).foldl EventBuffers.processLine ⟨[], [], id, dispatched⟩).dispatch =
      ⟨[], [], id', dispatched ++ (w.message marshal).toList⟩ := by
  cases w with
  | keepalive =>
    refine ⟨id, ?_⟩
    rw [lines, List.foldl_cons, List.foldl_nil, processLine_comment, message, Option.toList_none,
      List.append_nil]
    rfl
  | event e =>
    have hkind : utf8 e.kind ≠ [] := by
      have hall : ∀ kind ∈ streamKinds, utf8 kind ≠ [] := by decide
      exact hall e.kind hw
    have hnul : 0 ∉ decimalText e.id.toNat := not_mem_decimalText (by decide)
    have hfields : (lines marshal (event e)).foldl EventBuffers.processLine
        ⟨[], [], id, dispatched⟩ =
        ⟨utf8 e.kind, marshal e.snapshot ++ [10], decimalText e.id.toNat, dispatched⟩ := by
      rw [lines, List.foldl_cons, List.foldl_cons, List.foldl_cons, List.foldl_nil,
        processLine_field (by decide) (by decide), processLine_field (by decide) (by decide),
        processLine_field (by decide) (by decide)]
      simp only [EventBuffers.field, if_true]
      rw [if_neg (by decide), if_neg (by decide), if_neg hnul, if_neg (by decide)]
      rfl
    refine ⟨decimalText e.id.toNat, ?_⟩
    rw [hfields, EventBuffers.dispatch, if_neg (by simp), List.dropLast_concat, if_neg hkind]
    rfl

variable {marshal} (hmarshal : ∀ s, Unbroken (marshal s))
include hmarshal

theorem lines_unbroken {w : StreamWrite σ} (hw : w.Known) :
    ∀ line ∈ w.lines marshal, Unbroken line ∧ line ≠ [] := by
  cases w with
  | keepalive =>
    intro line hline
    obtain rfl := List.mem_singleton.mp hline
    exact ⟨by unfold Unbroken; decide +kernel, List.cons_ne_nil _ _⟩
  | event e =>
    have hkind : Unbroken (utf8 e.kind) := by
      have hall : ∀ kind ∈ streamKinds, ∀ b ∈ utf8 kind, b ≠ 10 ∧ b ≠ 13 := by decide +kernel
      exact hall e.kind hw
    have hid := unbroken_decimalText e.id.toNat
    have hfield : ∀ name ∈ [EventBuffers.typeField, EventBuffers.idField, EventBuffers.dataField],
        ∀ value, Unbroken value → Unbroken (name ++ 58 :: 32 :: value) := by
      intro name hname value hvalue b hb
      have hnames : ∀ name ∈ [EventBuffers.typeField, EventBuffers.idField, EventBuffers.dataField],
          ∀ b ∈ name, b ≠ 10 ∧ b ≠ 13 := by decide +kernel
      simp only [List.mem_append, List.mem_cons] at hb
      rcases hb with hb | rfl | rfl | hb
      · exact hnames name hname b hb
      · decide
      · decide
      · exact hvalue b hb
    simp only [lines, List.forall_mem_cons]
    exact ⟨⟨hfield _ (by decide) _ hkind, by simp⟩, ⟨hfield _ (by decide) _ hid, by simp⟩,
      ⟨hfield _ (by decide) _ (hmarshal e.snapshot), by simp⟩, by simp⟩

end StreamWrite

/-- The writes that arrived whole before the connection broke. -/
structure Arrived (writes : List (StreamWrite σ)) (n k : ℕ) : Prop where
  whole : (StreamWrite.bytes marshal (writes.take k)).length ≤ n
  next : k < writes.length → n < (StreamWrite.bytes marshal (writes.take (k + 1))).length

open EventReader in
theorem feedAll_writes (hmarshal : ∀ s, Unbroken (marshal s)) {writes : List (StreamWrite σ)}
    (hknown : ∀ w ∈ writes, w.Known) (id : List UInt8) (dispatched : List Message) (n : ℕ) :
    ∃ k ≤ writes.length, Arrived marshal writes n k ∧
      ((atLine ⟨[], [], id, dispatched⟩).feedAll
        ((StreamWrite.bytes marshal writes).take n)).buffers.dispatched =
        dispatched ++ (writes.take k).filterMap (·.message marshal) := by
  induction writes generalizing id dispatched n with
  | nil =>
    refine ⟨0, Nat.le_refl 0, ⟨Nat.zero_le n, fun h => absurd h (Nat.lt_irrefl 0)⟩, ?_⟩
    rw [StreamWrite.bytes, List.flatMap_nil, List.take_nil, List.take_nil, List.filterMap_nil,
      List.append_nil]
    rfl
  | cons w writes ih =>
    obtain ⟨hw, hknown⟩ := List.forall_mem_cons.mp hknown
    have hlines := StreamWrite.lines_unbroken hmarshal hw
    have hbytes : StreamWrite.bytes marshal (w :: writes) =
        w.text marshal ++ StreamWrite.bytes marshal writes := List.flatMap_cons
    rw [hbytes]
    rcases Nat.lt_or_ge n (w.text marshal).length with hcut | hwhole
    · refine ⟨0, Nat.zero_le _, ⟨Nat.zero_le n, fun _ => ?_⟩, ?_⟩
      · rw [List.take_succ_cons, List.take_zero, StreamWrite.bytes, List.flatMap_singleton]
        exact hcut
      · rw [List.take_append_of_le_length hcut.le, StreamWrite.text_eq, List.take_zero,
          List.filterMap_nil, List.append_nil]
        exact dispatched_of_cut hlines (StreamWrite.text_eq marshal w ▸ hcut)
    · obtain ⟨id', hdispatch⟩ := StreamWrite.dispatch_lines marshal hw id dispatched
      obtain ⟨k, hk, harrived, hrest⟩ :=
        ih hknown id' (dispatched ++ (w.message marshal).toList) (n - (w.text marshal).length)
      refine ⟨k + 1, Nat.succ_le_succ hk, ⟨?_, fun hlt => ?_⟩, ?_⟩
      · have := harrived.whole
        rw [List.take_succ_cons, StreamWrite.bytes, List.flatMap_cons, List.length_append]
        rw [StreamWrite.bytes] at this
        omega
      · have := harrived.next (Nat.lt_of_succ_lt_succ hlt)
        rw [List.take_succ_cons, StreamWrite.bytes, List.flatMap_cons, List.length_append]
        rw [StreamWrite.bytes] at this
        omega
      · rw [List.take_append, List.take_of_length_le hwhole, feedAll_append, StreamWrite.text_eq,
          feedAll_block fun line hline => (hlines line hline).1, hdispatch, ← StreamWrite.text_eq,
          hrest, List.append_assoc, List.take_succ_cons, List.filterMap_cons]
        cases w.message marshal <;> rfl

end

/-- A stream of any events and comments, cut off after any number of bytes: the browser has exactly
the events that were written whole, in their order. -/
theorem stream_cut (marshal : σ → List UInt8) (hmarshal : ∀ s, Unbroken (marshal s))
    (writes : List (StreamWrite σ)) (hknown : ∀ w ∈ writes, w.Known) (n : ℕ) :
    ∃ k ≤ writes.length, Arrived marshal writes n k ∧
      EventReader.events ((StreamWrite.bytes marshal writes).take n) =
        (writes.take k).filterMap (·.message marshal) :=
  feedAll_writes marshal hmarshal hknown [] [] n

/-- The connection breaks in the second event. -/
theorem stream_cut_second : ∃ k ≤ 3,
    Arrived decimalText [.event ⟨1, "snapshot", 5⟩, .keepalive, .event ⟨2, "location", 6⟩] 60 k ∧
    EventReader.events ((StreamWrite.bytes decimalText
      [.event ⟨1, "snapshot", 5⟩, .keepalive, .event ⟨2, "location", 6⟩]).take 60) =
      (([.event ⟨1, "snapshot", 5⟩, .keepalive, .event ⟨2, "location", 6⟩] : List (StreamWrite ℕ)).take
        k).filterMap (·.message decimalText) :=
  stream_cut decimalText
    unbroken_decimalText [.event ⟨1, "snapshot", 5⟩, .keepalive, .event ⟨2, "location", 6⟩]
    (by
      intro w hw
      simp only [List.mem_cons, List.not_mem_nil, or_false] at hw
      rcases hw with rfl | rfl | rfl
      · exact List.mem_cons_self
      · trivial
      · exact List.mem_cons_of_mem _ List.mem_cons_self)
    60

end OpenGps.Backend
