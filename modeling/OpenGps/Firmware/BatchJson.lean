import OpenGps.Lib.OutputBuffer
import OpenGps.Firmware.LocationPayload

/-!
# The body of a batch (`lib/location_payload`)

`locationBatchToJson` builds the request of a batch in a buffer of the caller: a prefix, the items
with commas between them, and the closing brackets. Every store is guarded by hand, and a batch that
does not fit leaves no length.
-/

namespace OpenGps.Firmware

open OpenGps.Lib

/-! ## Items -/

/-- How the serializer writes the values of an object. -/
structure Serializer where
  string : List UInt8 → List UInt8
  number : Double → List UInt8
  integer : ℤ → List UInt8

/-- The bytes of a text without escapes. -/
def asciiBytes (text : String) : List UInt8 := text.toList.map Char.toUInt8

def member (key : String) (value : List UInt8) : List UInt8 :=
  asciiBytes "\"" ++ asciiBytes key ++ asciiBytes "\":" ++ value

/-- The members of an item, in the order in which they were added. -/
def LocationJson.members (ser : Serializer) (json : LocationJson) : List (List UInt8) :=
  member "recorded_at" (ser.string json.recordedAt) ::
  [json.latitude.map fun x => member "latitude" (ser.number x),
   json.longitude.map fun x => member "longitude" (ser.number x),
   json.altitude.map fun x => member "altitude" (ser.number x),
   json.speed.map fun x => member "speed" (ser.number x),
   json.accuracy.map fun x => member "accuracy" (ser.number x),
   json.satellitesUsed.map fun n => member "satellites_used" (ser.integer n.toNat),
   json.batteryVoltage.map fun x => member "battery_voltage" (ser.number x),
   json.signalStrength.map fun n => member "signal_strength" (ser.integer n.toInt),
   json.sequenceId.map fun n => member "sequence_id" (ser.integer n.toNat)].filterMap id

/-- The object without blanks. -/
def LocationJson.text (ser : Serializer) (json : LocationJson) : List UInt8 :=
  asciiBytes "\x7b" ++ List.intercalate (asciiBytes ",") (json.members ser) ++ asciiBytes "\x7d"

/-- The item of a payload. -/
def itemText (ser : Serializer) (p : LocationPayload) : List UInt8 :=
  (locationPayloadToJson p).text ser

/-- The bytes that land in a buffer of `bufLen` bytes; their number is what is returned. -/
def serializeJson (text : List UInt8) (bufLen : ℕ) : List UInt8 := text.take bufLen

/-! ## The batch -/

def itemBufferSize : ℕ := 384

/-- `snprintf` into a buffer of `bufLen` bytes: the text as far as it fits, and a NUL. -/
def snprintfInto (buf : OutputBuffer UInt8) (bufLen : ℕ) (text : List UInt8) :
    OutputBuffer UInt8 × ℕ :=
  (if bufLen = 0 then buf else buf.putAll 0 (text.take (bufLen - 1) ++ [0]), text.length)

def batchPrefix : List UInt8 := asciiBytes "\x7b\"items\":["

/-- One round of the loop: a comma before every item but the first, and the item, while there is
room for them and the end of the document. -/
def appendItem (bufLen i : ℕ) (item : List UInt8) (buf : OutputBuffer UInt8) (pos : ℕ) :
    Option (OutputBuffer UInt8 × ℕ) :=
  if item.length = 0 then none
  else
    let comma := if i = 0 then 0 else 1
    if pos + comma + item.length + 3 > bufLen then none
    else
      let (buf, pos) := if comma ≠ 0 then (buf.put pos ','.toUInt8, pos + 1) else (buf, pos)
      some (buf.putAll pos item, pos + item.length)

/-- The loop from the `i`-th item on: the buffer and the offset after it, or only the buffer where
an item does not fit. -/
def appendItems (ser : Serializer) (bufLen : ℕ) :
    ℕ → List LocationPayload → OutputBuffer UInt8 → ℕ →
      Except (OutputBuffer UInt8) (OutputBuffer UInt8 × ℕ)
  | _, [], buf, pos => .ok (buf, pos)
  | i, payload :: items, buf, pos =>
    match appendItem bufLen i (serializeJson (itemText ser payload) itemBufferSize) buf pos with
    | none => .error buf
    | some (buf, pos) => appendItems ser bufLen (i + 1) items buf pos

/-- What is left in the buffer, and the length that is returned; a null pointer is `none`. -/
def locationBatchToJson (ser : Serializer) (items : Option (List LocationPayload))
    (buf : Option (OutputBuffer UInt8)) (bufLen : ℕ) : Option (OutputBuffer UInt8) × ℕ :=
  match items, buf with
  | some items, some buf =>
    if items.length = 0 ∨ bufLen < 16 then (some buf, 0)
    else
      let (buf, written) := snprintfInto buf bufLen batchPrefix
      if written ≥ bufLen then (some buf, 0)
      else
        match appendItems ser bufLen 0 items buf written with
        | .error buf => (some buf, 0)
        | .ok (buf, pos) =>
          if pos + 3 > bufLen then (some buf, 0)
          else
            (some (((buf.put pos ']'.toUInt8).put (pos + 1) '}'.toUInt8).put (pos + 2) 0), pos + 2)
  | _, _ => (buf, 0)

/-- The complete document of a batch. -/
def batchDocument (ser : Serializer) (items : List LocationPayload) : List UInt8 :=
  batchPrefix ++ List.intercalate (asciiBytes ",") (items.map (itemText ser)) ++ asciiBytes "]\x7d"

/-! ## The loop -/

/-- What the `i`-th round appends. -/
def separated (i : ℕ) (text : List UInt8) : List UInt8 :=
  (if i = 0 then [] else asciiBytes ",") ++ text

/-- What the rounds from the `i`-th on append. -/
def commaSeparated : ℕ → List (List UInt8) → List UInt8
  | _, [] => []
  | i, text :: texts => separated i text ++ commaSeparated (i + 1) texts

theorem commaSeparated_zero (texts : List (List UInt8)) :
    commaSeparated 0 texts = List.intercalate (asciiBytes ",") texts := by
  have hrest : ∀ (texts : List (List UInt8)) (text : List UInt8) (i : ℕ),
      List.intercalate (asciiBytes ",") (text :: texts) = text ++ commaSeparated (i + 1) texts := by
    intro texts
    induction texts with
    | nil => simp [commaSeparated]
    | cons next texts ih =>
      intro text i
      rw [List.intercalate_cons_cons, ih next (i + 1), commaSeparated, separated,
        if_neg (Nat.succ_ne_zero i), List.append_assoc, List.append_assoc]
  cases texts with
  | nil => rfl
  | cons text texts =>
    rw [hrest texts text 0, commaSeparated, separated, if_pos rfl, List.nil_append]

theorem length_separated (i : ℕ) (text : List UInt8) :
    (separated i text).length = (if i = 0 then 0 else 1) + text.length := by
  rw [separated, List.length_append]
  split <;> rfl

theorem length_le_intercalate (sep head : List UInt8) (rest : List (List UInt8)) :
    head.length ≤ (List.intercalate sep (head :: rest)).length := by
  cases rest with
  | nil => rw [List.intercalate_singleton]
  | cons next rest =>
    rw [List.intercalate_cons_cons, List.length_append, List.length_append]
    omega

/-- An item has its timestamp at least. -/
theorem three_le_length_itemText (ser : Serializer) (p : LocationPayload) :
    3 ≤ (itemText ser p).length := by
  have hkey : ∀ value, 1 ≤ (member "recorded_at" value).length := fun value => by
    simp [member, asciiBytes]
  rw [itemText, LocationJson.text, List.length_append, List.length_append, LocationJson.members]
  exact Nat.add_le_add_right
    (Nat.add_le_add_left ((hkey _).trans (length_le_intercalate _ _ _)) 1) 1

section
variable {ser : Serializer} {bufLen i : ℕ} {buf : OutputBuffer UInt8} {text item : List UInt8}
  {items : List LocationPayload}

theorem appendItem_of_fits (hbuf : buf.Holds bufLen text) (hitem : item.length ≠ 0)
    (hfits : text.length + (separated i item).length + 3 ≤ bufLen) :
    ∃ buf', appendItem bufLen i item buf text.length =
      some (buf', (text ++ separated i item).length) ∧
      buf'.Holds bufLen (text ++ separated i item) := by
  rw [length_separated] at hfits
  unfold appendItem separated
  rw [if_neg hitem]
  dsimp only
  rw [if_neg (by omega)]
  by_cases hi : i = 0
  · simp only [hi, if_true] at hfits ⊢
    have hall : (buf.putAll text.length item).Holds bufLen (text ++ item) :=
      hbuf.putAll (by omega)
    refine ⟨_, ?_, hall⟩
    simp
  · simp only [hi, if_false] at hfits ⊢
    have hput : (buf.put text.length ','.toUInt8).Holds bufLen (text ++ asciiBytes ",") :=
      hbuf.put (by omega)
    have hall : ((buf.put text.length ','.toUInt8).putAll (text ++ asciiBytes ",").length
        item).Holds bufLen (text ++ asciiBytes "," ++ item) :=
      hput.putAll (by simp [asciiBytes]; omega)
    rw [List.append_assoc] at hall
    refine ⟨_, ?_, hall⟩
    simp [asciiBytes]
    omega

theorem appendItem_of_not_fits
    (hfits : ¬ text.length + (separated i item).length + 3 ≤ bufLen) :
    appendItem bufLen i item buf text.length = none := by
  rw [length_separated] at hfits
  unfold appendItem
  dsimp only
  split
  · rfl
  · exact if_pos (by omega)

/-- The loop goes through exactly when all it appends leaves room for the end of the document. What
it stores stays within the buffer either way. -/
theorem appendItems_spec (hitems : ∀ p ∈ items, (itemText ser p).length < itemBufferSize)
    (hbuf : buf.Holds bufLen text) (hroom : text.length + 3 ≤ bufLen) :
    let appended := text ++ commaSeparated i (items.map (itemText ser))
    (appended.length + 3 ≤ bufLen ∧ ∃ buf', appendItems ser bufLen i items buf text.length =
      .ok (buf', appended.length) ∧ buf'.Holds bufLen appended) ∨
    (bufLen < appended.length + 3 ∧ ∃ buf', appendItems ser bufLen i items buf text.length =
      .error buf' ∧ buf'.Within bufLen) := by
  induction items generalizing i buf text with
  | nil =>
    dsimp only
    rw [List.map_nil, commaSeparated, List.append_nil]
    exact .inl ⟨hroom, buf, rfl, hbuf⟩
  | cons p items ih =>
    obtain ⟨hp, hitems⟩ := List.forall_mem_cons.mp hitems
    have hitem : serializeJson (itemText ser p) itemBufferSize = itemText ser p :=
      List.take_of_length_le hp.le
    have hlen := three_le_length_itemText ser p
    dsimp only
    rw [List.map_cons, commaSeparated, appendItems, hitem]
    by_cases hfits : text.length + (separated i (itemText ser p)).length + 3 ≤ bufLen
    · obtain ⟨buf', hround, hbuf'⟩ := appendItem_of_fits hbuf (by omega) hfits
      rw [hround, ← List.append_assoc]
      exact ih hitems hbuf' (by rw [List.length_append]; exact hfits)
    · rw [appendItem_of_not_fits hfits]
      refine .inr ⟨?_, buf, rfl, hbuf.within⟩
      rw [List.length_append, List.length_append]
      omega

end

/-! ## The whole body -/

theorem snprintfInto_of_fits {buf : OutputBuffer UInt8} {bufLen : ℕ} {text : List UInt8}
    (hbuf : buf.Within bufLen) (h : text.length < bufLen) :
    (snprintfInto buf bufLen text).1.Holds bufLen text := by
  have htake : text.take (bufLen - 1) = text := List.take_of_length_le (by omega)
  rw [snprintfInto, if_neg (by omega), htake]
  have hall : (buf.putAll 0 (text ++ [0])).Holds bufLen (text ++ [0]) :=
    (OutputBuffer.Holds.nil hbuf).putAll (by simp; omega)
  exact hall.left

theorem batchDocument_eq (ser : Serializer) (items : List LocationPayload) :
    batchDocument ser items =
      batchPrefix ++ commaSeparated 0 (items.map (itemText ser)) ++ asciiBytes "]\x7d" := by
  rw [batchDocument, commaSeparated_zero]

theorem length_batchDocument (ser : Serializer) {items : List LocationPayload} (h : items ≠ []) :
    15 ≤ (batchDocument ser items).length := by
  obtain ⟨p, rest, rfl⟩ := List.exists_cons_of_ne_nil h
  have hitem := (three_le_length_itemText ser p).trans
    (length_le_intercalate (asciiBytes ",") (itemText ser p) (rest.map (itemText ser)))
  rw [batchDocument, List.length_append, List.length_append, List.map_cons]
  exact Nat.add_le_add_right (Nat.add_le_add_left hitem 10) 2

/-- A batch is written whole, with the NUL behind it, or reported as too long; nothing is stored
outside the buffer. -/
theorem locationBatchToJson_bounded (ser : Serializer) (items : List LocationPayload)
    (contents : ℕ → UInt8) (bufLen : ℕ) (hitems : items ≠ [])
    (hshort : ∀ p ∈ items, (itemText ser p).length ≤ 383) :
    ∃ buf n, locationBatchToJson ser (some items) (some (.fresh contents)) bufLen = (some buf, n) ∧
      (∀ offset ∈ buf.written, offset < bufLen) ∧
      (n ≠ 0 ↔ (batchDocument ser items).length + 1 ≤ bufLen) ∧
      (n ≠ 0 → n = (batchDocument ser items).length ∧
        buf.read (n + 1) = batchDocument ser items ++ [0]) := by
  have hcount : items.length ≠ 0 := fun h => hitems (List.length_eq_zero_iff.mp h)
  have hfresh := OutputBuffer.within_fresh contents bufLen
  unfold locationBatchToJson
  dsimp only
  by_cases hsmall : bufLen < 16
  · -- The shortest document has 15 bytes and needs one more.
    rw [if_pos (.inr hsmall)]
    have hlong := length_batchDocument ser hitems
    exact ⟨_, _, rfl, hfresh, by omega, fun h => absurd rfl h⟩
  rw [if_neg (not_or.mpr ⟨hcount, hsmall⟩)]
  have hten : batchPrefix.length = 10 := by decide
  have hprefix := snprintfInto_of_fits hfresh (by omega : batchPrefix.length < bufLen)
  have hlength : (snprintfInto (.fresh contents) bufLen batchPrefix).2 = batchPrefix.length := rfl
  generalize snprintfInto (.fresh contents) bufLen batchPrefix = out at hprefix hlength
  obtain ⟨buf, written⟩ := out
  dsimp only at hprefix hlength ⊢
  rw [if_neg (by omega), hlength]
  have hdoc := batchDocument_eq ser items
  have hloop := appendItems_spec (i := 0) (fun p hp => Nat.lt_succ_of_le (hshort p hp)) hprefix
    (by omega)
  dsimp only at hloop
  generalize batchPrefix ++ commaSeparated 0 (items.map (itemText ser)) = text at hdoc hloop
  have hdocLength : (batchDocument ser items).length = text.length + 2 := by
    rw [hdoc, List.length_append]
    rfl
  rcases hloop with ⟨hfits, buf', hrun, hbuf'⟩ | ⟨hfits, buf', hrun, hbuf'⟩
  · rw [hrun]
    dsimp only
    rw [if_neg (by omega)]
    have hclosed : (buf'.putAll text.length [']'.toUInt8, '}'.toUInt8, 0]).Holds bufLen
        (text ++ [']'.toUInt8, '}'.toUInt8, 0]) := hbuf'.putAll (by simpa using hfits)
    refine ⟨_, _, rfl, hclosed.within, by omega, fun _ => ⟨by omega, ?_⟩⟩
    have hread := hclosed.text
    rw [List.length_append] at hread
    rw [hdoc, List.append_assoc]
    exact hread
  · rw [hrun]
    exact ⟨_, _, rfl, hbuf', by omega, fun h => absurd rfl h⟩

/-- The serializer on texts without escapes and on whole numbers. -/
def wholeNumbers : Serializer where
  string text := asciiBytes "\"" ++ text ++ asciiBytes "\""
  number
    | .finite q => (formatInt 0 ⌊q⌋).map Char.toUInt8
    | _ => asciiBytes "null"
  integer n := (formatInt 0 n).map Char.toUInt8

/-- A fix at whole degrees. -/
def wholeFix (sequenceId : UInt32) : LocationPayload :=
  { locationPayloadFromFix (.finite 19) (.finite (-99)) (.finite 0) (.finite 2240) 7 (.finite 5)
      2026 7 15 12 0 0 with sequenceId }

theorem wholeFix_batch_bounded : ∃ buf n,
    locationBatchToJson wholeNumbers (some [wholeFix 1, wholeFix 2]) (some (.fresh fun _ => 170))
      320 = (some buf, n) ∧
    (∀ offset ∈ buf.written, offset < 320) ∧
    (n ≠ 0 ↔ (batchDocument wholeNumbers [wholeFix 1, wholeFix 2]).length + 1 ≤ 320) ∧
    (n ≠ 0 → n = (batchDocument wholeNumbers [wholeFix 1, wholeFix 2]).length ∧
      buf.read (n + 1) = batchDocument wholeNumbers [wholeFix 1, wholeFix 2] ++ [0]) :=
  locationBatchToJson_bounded wholeNumbers [wholeFix 1, wholeFix 2] (fun _ => 170) 320
    (List.cons_ne_nil _ _)
    (by
      rintro p hp
      simp only [List.mem_cons, List.not_mem_nil, or_false] at hp
      rcases hp with rfl | rfl <;> decide +kernel)

end OpenGps.Firmware
