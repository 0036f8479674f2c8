import OpenGps.Firmware.HttpRequest
import OpenGps.Uplink.BatchUpload

/-!
# The upload of a batch (`src/transport.cpp`)

`transportPostBatch` posts the queued records in sub-batches, one after the other, and tries a
sub-batch again after a transport error. For a configured device no buffer overflows; what was
acknowledged is a start of the batch at any time, and all of it exactly when `SENT` is returned.
-/

namespace OpenGps.Uplink

open OpenGps.Lib OpenGps.Firmware

def batchPayloadCapacity : ℕ := 20

def batchJsonBufferSize : ℕ := 2048

def httpResponseBufferSize : ℕ := 2048

/-- The C string in a buffer. -/
def cText (buf : OutputBuffer UInt8) (bufLen : ℕ) : List UInt8 :=
  (buf.read bufLen).takeWhile (· ≠ 0)

/-- What the modem does while one sub-batch is posted. -/
structure Attempts where
  first : Link
  networkConnected : Bool
  networkAwaited : Bool
  gprsConnected : Bool
  second : Link

def Attempts.reconnected (a : Attempts) : Bool :=
  (a.networkConnected || a.networkAwaited) && a.gprsConnected

/-- One `postOnce` for a sub-batch. -/
structure ChunkPost where
  chunk : List LocationPayload
  post : Post

structure BatchRun where
  result : TransportResult
  posts : List ChunkPost

/-- The posts of one sub-batch: a second one after a transport error, when the modem reconnects. -/
def postChunk (url apiKey body : List UInt8) (a : Attempts) :
    Option (TransportResult × List Post) := do
  let first ← postOnce url apiKey body httpResponseBufferSize a.first
  if first.result ≠ .transportError then some (first.result, [first])
  else if ¬a.reconnected then some (.transportError, [first])
  else
    let second ← postOnce url apiKey body httpResponseBufferSize a.second
    some (second.result, [first, second])

section
variable (ser : Serializer) (url apiKey : List UInt8) (memory : ℕ → ℕ → UInt8)
  (attempts : ℕ → Attempts)

/-- The loop from an offset on. `memory` is what the static buffer of the body holds before each
round. -/
def postChunks (offset : ℕ) (payloads : List LocationPayload) : Option BatchRun :=
  if payloads = [] then some ⟨.sent, []⟩
  else
    let chunk := payloads.take subBatchItems
    match locationBatchToJson ser (some chunk) (some (.fresh (memory offset)))
        batchJsonBufferSize with
    | (some buf, bn) =>
      if bn = 0 then some ⟨.configError, []⟩
      else
        match postChunk url apiKey (cText buf batchJsonBufferSize) (attempts offset) with
        | none => none
        | some (result, posts) =>
          if result = .sent then
            (postChunks (offset + chunk.length) (payloads.drop subBatchItems)).map fun run =>
              { run with posts := posts.map (⟨chunk, ·⟩) ++ run.posts }
          else some ⟨result, posts.map (⟨chunk, ·⟩)⟩
    | (none, _) => none
termination_by payloads.length
decreasing_by
  have hpos := List.length_pos_iff.mpr ‹payloads ≠ []›
  rw [List.length_drop, subBatchItems]
  omega

end

/-- `none` stands for a step without a meaning. -/
def transportPostBatch (ser : Serializer) (apiHost uuid apiKey : List UInt8)
    (live : LiveReadings) (urlMemory : ℕ → UInt8) (memory : ℕ → ℕ → UInt8)
    (attempts : ℕ → Attempts) (records : Option (List FixRecord)) : Option BatchRun :=
  match records with
  | none => some ⟨.configError, []⟩
  | some records =>
    if records.length = 0 ∨ records.length > batchPayloadCapacity then some ⟨.configError, []⟩
    else
      match transportBuildBatchUrl (some apiHost) 0 (some uuid) (some (.fresh urlMemory))
          urlBufferSize with
      | (some buf, n) =>
        if n = 0 then some ⟨.configError, []⟩
        else
          postChunks ser (cText buf urlBufferSize) apiKey memory attempts 0
            (records.map (batchPayload live))
      | (none, _) => none

/-! ## The buffers -/

section
variable {text : List UInt8} {buf : OutputBuffer UInt8} {bufLen : ℕ}

theorem cText_of_read (hread : buf.read (text.length + 1) = text ++ [0]) (hnul : 0 ∉ text)
    (hlength : text.length < bufLen) : cText buf bufLen = text := by
  obtain ⟨more, hmore⟩ : ∃ more, buf.read bufLen = text ++ 0 :: more := by
    obtain ⟨k, rfl⟩ := Nat.exists_eq_add_of_lt hlength
    refine ⟨((List.range k).map (text.length + 1 + ·)).map buf.values, ?_⟩
    rw [Nat.add_right_comm, OutputBuffer.read, List.range_add, List.map_append,
      ← OutputBuffer.read, hread, List.append_assoc]
    rfl
  have hne : ∀ b ∈ text, decide (b ≠ 0) = true := by
    intro b hb
    simpa using fun heq : b = 0 => hnul (heq ▸ hb)
  rw [cText, hmore, List.takeWhile_append_of_pos hne, List.takeWhile_cons_of_neg (by simp),
    List.append_nil]

end

/-- The serializer escapes a character by at most one more, and writes numbers of at most ten
digits before and nine after the point, with an exponent. -/
structure Compact (ser : Serializer) : Prop where
  string : ∀ text, (ser.string text).length ≤ 2 * text.length + 2 ∧
    (0 ∉ text → 0 ∉ ser.string text)
  number : ∀ x, (ser.number x).length ≤ 26 ∧ 0 ∉ ser.number x
  integer : ∀ n : ℤ, -2 ^ 31 ≤ n → n < 2 ^ 32 →
    (ser.integer n).length ≤ 11 ∧ 0 ∉ ser.integer n

/-- A text that may be left out fits its room, with a comma, and has no NUL in it. -/
def FitsRoom (m : Option (List UInt8)) (room : ℕ) : Prop :=
  ∀ text ∈ m, text.length + 1 ≤ room ∧ 0 ∉ text

/-- The texts that are not left out fit in the rooms of all. -/
theorem commaSeparated_size {members : List (Option (List UInt8))} {rooms : List ℕ}
    (h : List.Forall₂ FitsRoom members rooms) (i : ℕ) :
    (commaSeparated i (members.filterMap id)).length ≤ rooms.foldr (· + ·) 0 ∧
      0 ∉ commaSeparated i (members.filterMap id) := by
  induction h generalizing i with
  | nil => exact ⟨Nat.le_refl 0, List.not_mem_nil⟩
  | @cons m room members rooms hm _ ih =>
    rw [List.foldr_cons]
    cases m with
    | none =>
      rw [List.filterMap_cons_none rfl]
      exact ⟨Nat.le_add_left_of_le (ih i).1, (ih i).2⟩
    | some text =>
      obtain ⟨hlength, hnul⟩ := hm text rfl
      obtain ⟨hrest, hrestNul⟩ := ih (i + 1)
      have hsep : 0 ∉ (if i = 0 then [] else asciiBytes ",") := by
        split
        · exact List.not_mem_nil
        · decide
      have hcons : (some text :: members).filterMap id = text :: members.filterMap id := rfl
      rw [hcons, commaSeparated, List.length_append, length_separated,
        separated, List.mem_append, List.mem_append]
      refine ⟨?_, not_or.mpr ⟨not_or.mpr ⟨hsep, hnul⟩, hrestNul⟩⟩
      split <;> omega

theorem length_member (key : String) (value : List UInt8) :
    (member key value).length = (asciiBytes key).length + 3 + value.length := by
  have hquote : (asciiBytes "\"").length = 1 ∧ (asciiBytes "\":").length = 2 := by decide
  simp only [member, List.length_append, hquote.1, hquote.2]
  omega

theorem fitsRoom_member {key : String} {value : List UInt8} {room : ℕ}
    (hkey : 0 ∉ asciiBytes key) (hvalue : 0 ∉ value) (hroom : value.length + 4 ≤ room) :
    FitsRoom (some (member key value)) ((asciiBytes key).length + room) := by
  rintro text htext
  obtain rfl := Option.some.inj htext
  refine ⟨by rw [length_member]; omega, ?_⟩
  have hquote : 0 ∉ asciiBytes "\"" ∧ 0 ∉ asciiBytes "\":" := by decide
  simp only [member, List.mem_append, not_or]
  exact ⟨⟨⟨hquote.1, hkey⟩, hquote.2⟩, hvalue⟩

section
variable {ser : Serializer} (hser : Compact ser)
include hser

theorem fitsRoom_number (x : Option Double) (key : String) (hkey : 0 ∉ asciiBytes key) :
    FitsRoom (x.map fun x => member key (ser.number x)) ((asciiBytes key).length + 30) := by
  cases x with
  | none => exact fun text htext => by cases htext
  | some x =>
    obtain ⟨hlength, hnul⟩ := hser.number x
    exact fitsRoom_member hkey hnul (by omega)

theorem fitsRoom_integer {α : Type} (value : α → ℤ)
    (hrange : ∀ x, -2 ^ 31 ≤ value x ∧ value x < 2 ^ 32)
    (x : Option α) (key : String) (hkey : 0 ∉ asciiBytes key) :
    FitsRoom (x.map fun x => member key (ser.integer (value x)))
      ((asciiBytes key).length + 15) := by
  cases x with
  | none => exact fun text htext => by cases htext
  | some x =>
    obtain ⟨hlength, hnul⟩ := hser.integer (value x) (hrange x).1 (hrange x).2
    exact fitsRoom_member hkey hnul (by omega)

/-- The text of an item is short, and has no NUL in it. -/
theorem itemText_size (p : LocationPayload) :
    (itemText ser p).length ≤ 383 ∧ 0 ∉ itemText ser p := by
  have htimestamp : (locationPayloadToJson p).recordedAt.length ≤ 21 ∧
      0 ∉ (locationPayloadToJson p).recordedAt := by
    refine ⟨?_, fun hmem => ?_⟩
    · exact (List.takeWhile_prefix _).length_le.trans (Vector.length_toList ..).le
    · simpa using List.mem_takeWhile_imp hmem
  rw [itemText]
  generalize locationPayloadToJson p = json at htimestamp
  obtain ⟨hlength, hnul⟩ := hser.string json.recordedAt
  have hsatellites : ∀ n : UInt16, -2 ^ 31 ≤ (n.toNat : ℤ) ∧ (n.toNat : ℤ) < 2 ^ 32 := by
    intro n
    have := n.toNat_lt
    omega
  have hsignal : ∀ n : Int8, -2 ^ 31 ≤ n.toInt ∧ n.toInt < 2 ^ 32 := by
    intro n
    have := n.toInt_lt
    have := n.le_toInt
    omega
  have hsequence : ∀ n : UInt32, -2 ^ 31 ≤ (n.toNat : ℤ) ∧ (n.toNat : ℤ) < 2 ^ 32 := by
    intro n
    have := n.toNat_lt
    omega
  have hmembers := commaSeparated_size
    (.cons (fitsRoom_member (by decide : 0 ∉ asciiBytes "recorded_at") (hnul htimestamp.2)
        (by omega : _ ≤ 48))
      (.cons (fitsRoom_number hser json.latitude "latitude" (by decide))
      (.cons (fitsRoom_number hser json.longitude "longitude" (by decide))
      (.cons (fitsRoom_number hser json.altitude "altitude" (by decide))
      (.cons (fitsRoom_number hser json.speed "speed" (by decide))
      (.cons (fitsRoom_number hser json.accuracy "accuracy" (by decide))
      (.cons (fitsRoom_integer hser _ hsatellites json.satellitesUsed "satellites_used" (by decide))
      (.cons (fitsRoom_number hser json.batteryVoltage "battery_voltage" (by decide))
      (.cons (fitsRoom_integer hser _ hsignal json.signalStrength "signal_strength" (by decide))
      (.cons (fitsRoom_integer hser _ hsequence json.sequenceId "sequence_id" (by decide))
        .nil)))))))))) 0
  rw [commaSeparated_zero] at hmembers
  obtain ⟨hroom, hfree⟩ := hmembers
  have hbrace : (asciiBytes "\x7b").length = 1 ∧ (asciiBytes "\x7d").length = 1 ∧
      0 ∉ asciiBytes "\x7b" ∧ 0 ∉ asciiBytes "\x7d" := by decide
  rw [LocationJson.text, List.length_append, List.length_append, hbrace.1, hbrace.2.1]
  refine ⟨?_, ?_⟩
  · have hsum := hroom.trans (by decide : _ ≤ 381)
    exact Nat.add_le_add_right (Nat.add_le_add_left hsum 1) 1
  · simp only [List.mem_append, not_or]
    exact ⟨⟨hbrace.2.2.1, hfree⟩, hbrace.2.2.2⟩

/-- A sub-batch fits the buffer of the body. -/
theorem batchDocument_size (chunk : List LocationPayload) (hchunk : chunk.length ≤ 3) :
    (batchDocument ser chunk).length < 2048 ∧ 0 ∉ batchDocument ser chunk := by
  have hrooms : List.Forall₂ FitsRoom ((chunk.map (itemText ser)).map some)
      (List.replicate chunk.length 384) := by
    induction chunk with
    | nil => exact .nil
    | cons p chunk ih =>
      obtain ⟨hlength, hnul⟩ := itemText_size hser p
      refine .cons ?_ (ih (Nat.le_of_succ_le hchunk))
      rintro text htext
      obtain rfl := Option.some.inj htext
      exact ⟨Nat.succ_le_succ hlength, hnul⟩
  obtain ⟨hroom, hfree⟩ := commaSeparated_size hrooms 0
  have hsum : ∀ n < 4, (List.replicate n 384).foldr (· + ·) 0 ≤ 1152 := by decide
  have hsum := hsum chunk.length (Nat.lt_succ_of_le hchunk)
  have htexts : ((chunk.map (itemText ser)).map some).filterMap id = chunk.map (itemText ser) := by
    rw [List.filterMap_map]
    exact List.filterMap_some
  have hfixed : batchPrefix.length = 10 ∧ (asciiBytes "]\x7d").length = 2 ∧
      0 ∉ batchPrefix ∧ 0 ∉ asciiBytes "]\x7d" := by decide
  rw [htexts] at hroom hfree
  rw [batchDocument_eq, List.length_append, List.length_append, hfixed.1, hfixed.2.1]
  refine ⟨by omega, ?_⟩
  simp only [List.mem_append, not_or]
  exact ⟨⟨hfixed.2.2.1, hfree⟩, hfixed.2.2.2⟩

/-- A document that fits stands in the buffer, with its NUL. -/
theorem locationBatchToJson_of_fits {items : List LocationPayload} (hne : items ≠ [])
    (contents : ℕ → UInt8) {bufLen : ℕ} (hfits : (batchDocument ser items).length < bufLen) :
    ∃ buf, locationBatchToJson ser (some items) (some (.fresh contents)) bufLen =
        (some buf, (batchDocument ser items).length) ∧
      buf.Holds bufLen (batchDocument ser items ++ [0]) := by
  have hcount : items.length ≠ 0 := fun h => hne (List.length_eq_zero_iff.mp h)
  have hmin := length_batchDocument ser hne
  have hten : batchPrefix.length = 10 := by decide
  have hstart := snprintfInto_of_fits (OutputBuffer.within_fresh contents bufLen)
    (by omega : batchPrefix.length < bufLen)
  have hdoc := batchDocument_eq ser items
  have hlength : (batchDocument ser items).length =
      (batchPrefix ++ commaSeparated 0 (items.map (itemText ser))).length + 2 := by
    rw [hdoc, List.length_append]
    rfl
  have hshort : ∀ p ∈ items, (itemText ser p).length < itemBufferSize := fun p _ =>
    Nat.lt_succ_of_le (itemText_size hser p).1
  rcases appendItems_spec (i := 0) hshort hstart (by omega) with ⟨hroom, buf, hrun, hbuf⟩ | ⟨hroom, -⟩
  · have hclosed := hbuf.putAll (by exact hroom : _ + [']'.toUInt8, '}'.toUInt8, 0].length ≤ _)
    rw [hlength]
    refine ⟨buf.putAll _ [']'.toUInt8, '}'.toUInt8, 0], ?_, by
      rw [hdoc, List.append_assoc _ _ [0]]
      exact hclosed⟩
    have hprinted : (snprintfInto (OutputBuffer.fresh contents) bufLen batchPrefix).2 =
        batchPrefix.length := rfl
    unfold locationBatchToJson
    dsimp only
    rw [if_neg (not_or.mpr ⟨hcount, by omega⟩), hprinted, if_neg (by omega), hrun]
    exact if_neg (by omega)
  · omega

/-- The document of a sub-batch stands in the buffer of the body. -/
theorem locationBatchToJson_chunk {chunk : List LocationPayload} (hne : chunk ≠ [])
    (hchunk : chunk.length ≤ 3) (contents : ℕ → UInt8) :
    ∃ buf n, locationBatchToJson ser (some chunk) (some (.fresh contents)) batchJsonBufferSize =
      (some buf, n) ∧ n ≠ 0 ∧ cText buf batchJsonBufferSize = batchDocument ser chunk := by
  obtain ⟨hlength, hnul⟩ := batchDocument_size hser chunk hchunk
  have hmin := length_batchDocument ser hne
  obtain ⟨buf, hwritten, hbuf⟩ := locationBatchToJson_of_fits hser hne contents hlength
  have hread := hbuf.text
  rw [List.length_append] at hread
  exact ⟨buf, _, hwritten, by omega, cText_of_read hread hnul hlength⟩

end

/-! ## The posts -/

/-- The URL of a configured device stands in the buffer. -/
theorem transportBuildBatchUrl_target (t : Target) (contents : ℕ → UInt8) :
    ∃ buf n, transportBuildBatchUrl (some t.apiHost) 0 (some t.uuid) (some (.fresh contents))
      urlBufferSize = (some buf, n) ∧ n ≠ 0 ∧ cText buf urlBufferSize = t.url true := by
  obtain ⟨hlength, hnul⟩ := t.url_text true
  have hwrites : WritesAllOrNothing (urlText t.apiHost 0 t.uuid ++ batchSuffix) urlBufferSize
      (transportBuildBatchUrl (some t.apiHost) 0 (some t.uuid) (some (.fresh contents))
        urlBufferSize) :=
    transportBuildBatchUrl_writes (OutputBuffer.within_fresh contents urlBufferSize)
  have hurl : urlText t.apiHost 0 t.uuid ++ batchSuffix = t.url true := (t.url_eq true).symm
  rw [hurl] at hwrites
  have hsome := hwrites.fits.mpr hlength
  obtain ⟨-, buf, hbuf, hread⟩ := hwrites.complete hsome
  exact ⟨buf, _, Prod.ext hbuf rfl, hsome, cText_of_read hread hnul hlength⟩

/-- What the posts of a sub-batch have in common. -/
structure ChunkPosted (t : Target) (body : List UInt8) (result : TransportResult)
    (posts : List Post) : Prop where
  tries : posts.length ≤ 2
  delivers : ∀ p ∈ posts, ∃ link, t.Delivers true body link httpResponseBufferSize p
  valid : result ≠ .configError
  acknowledged : (posts.filter (·.result = .sent)).length = if result = .sent then 1 else 0

theorem postChunk_posted (t : Target) {body : List UInt8} (hbody : body.length < 2048)
    (a : Attempts) : ∃ result posts, postChunk (t.url true) t.apiKey body a = some (result, posts) ∧
      ChunkPosted t body result posts := by
  obtain ⟨first, hfirst, hdelivers⟩ :=
    t.postOnce_delivers true body hbody httpResponseBufferSize a.first
  obtain ⟨second, hsecond, hdelivers'⟩ :=
    t.postOnce_delivers true body hbody httpResponseBufferSize a.second
  rw [postChunk, hfirst, hsecond]
  show ∃ result posts, (if first.result ≠ .transportError then some (first.result, [first])
    else if ¬a.reconnected then some (.transportError, [first])
    else some (second.result, [first, second])) = some (result, posts) ∧ _
  split
  next =>
    refine ⟨_, _, rfl, Nat.le_succ 1, ?_, hdelivers.valid, ?_⟩
    · exact List.forall_mem_singleton.mpr ⟨_, hdelivers⟩
    · by_cases h : first.result = .sent <;> simp [h]
  next herror =>
    rw [not_not] at herror
    split
    next =>
      refine ⟨_, _, rfl, Nat.le_succ 1, ?_, by simp, ?_⟩
      · exact List.forall_mem_singleton.mpr ⟨_, hdelivers⟩
      · simp [herror]
    next =>
      refine ⟨_, _, rfl, Nat.le_refl 2, ?_, hdelivers'.valid, ?_⟩
      · exact List.forall_mem_cons.mpr ⟨⟨_, hdelivers⟩,
          List.forall_mem_singleton.mpr ⟨_, hdelivers'⟩⟩
      · by_cases h : second.result = .sent <;> simp [h, herror]

/-- The sub-batches that were answered with 201, in the order of the posts. -/
def BatchRun.acknowledged (run : BatchRun) : List LocationPayload :=
  (run.posts.filter (·.post.result = .sent)).flatMap (·.chunk)

/-- A run over the payloads: requests of the configured device or nothing the backend reads, and
acknowledgements for a start of the payloads, which is all of them exactly when `SENT` is
returned. -/
structure BatchRun.InOrder (t : Target) (ser : Serializer) (payloads : List LocationPayload)
    (run : BatchRun) : Prop where
  valid : run.result ≠ .configError
  requests : ∀ p ∈ run.posts, p.chunk <:+: payloads ∧ p.chunk.length ≤ subBatchItems ∧
    (HttpRequest.read p.post.wire = some (t.request true (batchDocument ser p.chunk), []) ∨
      HttpRequest.read p.post.wire = none ∧ p.post.result = .transportError)
  start : run.acknowledged <+: payloads
  complete : run.result = .sent ↔ run.acknowledged = payloads
  tries : run.posts.length ≤ 2 * ((payloads.length + 2) / 3)

theorem acknowledged_map (result : TransportResult) (chunk : List LocationPayload)
    {posts : List Post}
    (h : (posts.filter (·.result = .sent)).length = if result = .sent then 1 else 0) :
    BatchRun.acknowledged ⟨result, posts.map (⟨chunk, ·⟩)⟩ =
      if result = .sent then chunk else [] := by
  have hmap : BatchRun.acknowledged ⟨result, posts.map (⟨chunk, ·⟩)⟩ =
      (posts.filter (·.result = .sent)).flatMap fun _ => chunk := by
    rw [BatchRun.acknowledged, List.filter_map, List.flatMap_map]
    rfl
  rw [hmap]
  split at h
  next hsent =>
    obtain ⟨p, hp⟩ := List.length_eq_one_iff.mp h
    rw [hp, if_pos hsent, List.flatMap_singleton]
  next hsent =>
    rw [List.length_eq_zero_iff.mp h, if_neg hsent]
    rfl

theorem acknowledged_append (result result' : TransportResult) (posts posts' : List ChunkPost) :
    BatchRun.acknowledged ⟨result', posts ++ posts'⟩ =
      BatchRun.acknowledged ⟨result, posts⟩ ++ BatchRun.acknowledged ⟨result', posts'⟩ := by
  simp only [BatchRun.acknowledged, List.filter_append, List.flatMap_append]

section
variable {t : Target} {ser : Serializer} {chunk rest : List LocationPayload}
  {result : TransportResult} {posts : List Post}

theorem ChunkPosted.requests (h : ChunkPosted t (batchDocument ser chunk) result posts)
    (hsize : chunk.length ≤ subBatchItems) :
    ∀ p ∈ posts.map (⟨chunk, ·⟩ : Post → ChunkPost),
      p.chunk <:+: chunk ++ rest ∧ p.chunk.length ≤ subBatchItems ∧
      (HttpRequest.read p.post.wire = some (t.request true (batchDocument ser p.chunk), []) ∨
        HttpRequest.read p.post.wire = none ∧ p.post.result = .transportError) := by
  intro p hp
  obtain ⟨post, hpost, rfl⟩ := List.mem_map.mp hp
  obtain ⟨link, hdelivers⟩ := h.delivers post hpost
  exact ⟨(List.prefix_append chunk rest).isInfix, hsize, hdelivers.read⟩

/-- The upload ends at a sub-batch that is not acknowledged. -/
theorem ChunkPosted.stop (h : ChunkPosted t (batchDocument ser chunk) result posts)
    (hsize : chunk.length ≤ subBatchItems) (hne : chunk ≠ []) (hresult : result ≠ .sent) :
    BatchRun.InOrder t ser (chunk ++ rest) ⟨result, posts.map (⟨chunk, ·⟩)⟩ := by
  have hpos := List.length_pos_iff.mpr hne
  have htries := h.tries
  have hnone := acknowledged_map result chunk h.acknowledged
  rw [if_neg hresult] at hnone
  refine ⟨h.valid, h.requests hsize, ?_, ?_, ?_⟩
  · rw [hnone]
    exact List.nil_prefix
  · rw [hnone]
    exact iff_of_false hresult fun hnil => hne (List.nil_eq_append_iff.mp hnil).1
  · rw [List.length_map, List.length_append]
    omega

/-- An acknowledged sub-batch comes before what is acknowledged of the rest. -/
theorem ChunkPosted.next (h : ChunkPosted t (batchDocument ser chunk) .sent posts)
    (hsize : chunk.length ≤ subBatchItems) (hne : chunk ≠ [])
    (hfull : chunk.length = subBatchItems ∨ rest = []) {run : BatchRun}
    (hrun : run.InOrder t ser rest) :
    BatchRun.InOrder t ser (chunk ++ rest)
      { run with posts := posts.map (⟨chunk, ·⟩) ++ run.posts } := by
  have hpos := List.length_pos_iff.mpr hne
  have htries := h.tries
  have hmore := hrun.tries
  have hall : BatchRun.acknowledged ⟨run.result, posts.map (⟨chunk, ·⟩) ++ run.posts⟩ =
      chunk ++ run.acknowledged := by
    rw [acknowledged_append .sent, acknowledged_map _ _ h.acknowledged, if_pos rfl]
  refine ⟨hrun.valid, fun p hp => ?_, ?_, ?_, ?_⟩
  · rcases List.mem_append.mp hp with hp | hp
    · exact h.requests hsize p hp
    · obtain ⟨hpart, hlength, hread⟩ := hrun.requests p hp
      exact ⟨hpart.trans (List.suffix_append chunk rest).isInfix, hlength, hread⟩
  · rw [hall]
    exact (List.prefix_append_right_inj chunk).mpr hrun.start
  · rw [hall, List.append_cancel_left_eq]
    exact hrun.complete
  · rw [List.length_append, List.length_map, List.length_append]
    rw [subBatchItems] at hfull
    rcases hfull with hthree | rfl
    · omega
    · rw [List.length_nil] at hmore ⊢
      omega

end

theorem postChunks_inOrder (t : Target) {ser : Serializer} (hser : Compact ser)
    (memory : ℕ → ℕ → UInt8) (attempts : ℕ → Attempts) (offset : ℕ)
    (payloads : List LocationPayload) :
    ∃ run, postChunks ser (t.url true) t.apiKey memory attempts offset payloads = some run ∧
      run.InOrder t ser payloads := by
  induction hlength : payloads.length using Nat.strong_induction_on generalizing offset payloads with
  | _ n ih =>
    subst hlength
    rw [postChunks]
    split
    next hnil =>
      subst hnil
      exact ⟨_, rfl, by simp, fun p hp => (List.not_mem_nil hp).elim, List.prefix_rfl,
        iff_of_true rfl rfl, Nat.zero_le _⟩
    next hne =>
      have hpos := List.length_pos_iff.mpr hne
      have hlength := List.length_take (i := subBatchItems) (l := payloads)
      have hrest := List.length_drop (i := subBatchItems) (l := payloads)
      have hsplit := List.take_append_drop subBatchItems payloads
      rw [subBatchItems] at hlength hrest
      have hchunkNe : payloads.take subBatchItems ≠ [] :=
        List.length_pos_iff.mp (by rw [subBatchItems]; omega)
      have hsize : (payloads.take subBatchItems).length ≤ 3 := List.length_take_le ..
      have hfull : (payloads.take subBatchItems).length = subBatchItems ∨
          payloads.drop subBatchItems = [] := by
        rw [← List.length_eq_zero_iff, subBatchItems]
        omega
      obtain ⟨buf, bn, hjson, hbn, htext⟩ :=
        locationBatchToJson_chunk hser hchunkNe hsize (memory offset)
      obtain ⟨result, posts, hposts, hposted⟩ :=
        postChunk_posted t (batchDocument_size hser _ hsize).1 (attempts offset)
      dsimp only
      rw [hjson]
      dsimp only
      rw [if_neg hbn, htext, hposts]
      dsimp only
      split
      next hsent =>
        obtain ⟨run, hrun, hinOrder⟩ := ih _ (by rw [subBatchItems]; omega)
          (offset + (payloads.take subBatchItems).length) (payloads.drop subBatchItems) rfl
        rw [hrun, Option.map_some]
        rw [hsent] at hposted
        have hwhole := hposted.next hsize hchunkNe hfull hinOrder
        rw [hsplit] at hwhole
        exact ⟨_, rfl, hwhole⟩
      next hsent =>
        refine ⟨_, rfl, ?_⟩
        nth_rewrite 1 [← hsplit]
        exact hposted.stop hsize hchunkNe hsent

/-! ## The upload of the system -/

/-- The upload takes the posts of a run one by one: each one is for its next sub-batch. It ends where
the last post leaves it. -/
def Upload.follow (codes : ChunkPost → List (Option String)) (u : Upload) :
    List ChunkPost → Option (Option Upload)
  | [] => some (some u)
  | p :: posts =>
    if u.offset < u.batch.length ∧ p.chunk = u.chunk.map (batchPayload u.live) then
      match u.next p.post.result (codes p) with
      | some u' => u'.follow codes posts
      | none => if posts = [] then some none else none
    else none

/-- One post, or a second one after a transport error. -/
inductive Tried (result : TransportResult) : List Post → Prop where
  | once (wire : List UInt8) : Tried result [⟨result, wire⟩]
  | again (first wire : List UInt8) : Tried result [⟨.transportError, first⟩, ⟨result, wire⟩]

theorem postChunk_tried {url apiKey body : List UInt8} {a : Attempts} {result : TransportResult}
    {posts : List Post} (h : postChunk url apiKey body a = some (result, posts)) :
    Tried result posts := by
  rw [postChunk] at h
  obtain ⟨first, hfirst, h⟩ := Option.bind_eq_some_iff.mp h
  split at h
  next =>
    obtain ⟨rfl, rfl⟩ := Prod.mk.inj (Option.some.inj h)
    exact .once first.wire
  next herror =>
    obtain ⟨first, wire⟩ := first
    obtain rfl := not_not.mp herror
    split at h
    next =>
      obtain ⟨rfl, rfl⟩ := Prod.mk.inj (Option.some.inj h)
      exact .once wire
    next =>
      obtain ⟨second, hsecond, h⟩ := Option.bind_eq_some_iff.mp h
      obtain ⟨rfl, rfl⟩ := Prod.mk.inj (Option.some.inj h)
      exact .again wire second.wire

section
variable (codes : ChunkPost → List (Option String)) {u : Upload} {chunk : List LocationPayload}
  {result : TransportResult} {posts : List Post}

/-- An acknowledged sub-batch moves the upload on. -/
theorem Tried.follow_sent (h : Tried .sent posts) (hretried : u.retried = false)
    (hoffset : u.offset < u.batch.length) (hchunk : chunk = u.chunk.map (batchPayload u.live)) :
    ∃ verdicts, ∀ rest, u.follow codes (posts.map (⟨chunk, ·⟩) ++ rest) =
      Upload.follow codes { u with offset := u.offset + u.chunk.length, verdicts } rest := by
  obtain ⟨batch, live, offset, retried, verdicts⟩ := u
  dsimp only at hretried hoffset hchunk
  subst hretried
  cases h with
  | once wire =>
    refine ⟨verdicts ++ codes ⟨chunk, .sent, wire⟩, fun rest => ?_⟩
    rw [List.map_singleton, List.singleton_append, Upload.follow, if_pos ⟨hoffset, hchunk⟩]
    rfl
  | again first wire =>
    refine ⟨verdicts ++ codes ⟨chunk, .sent, wire⟩, fun rest => ?_⟩
    rw [List.map_cons, List.map_singleton, List.cons_append, List.singleton_append, Upload.follow,
      if_pos ⟨hoffset, hchunk⟩]
    show Upload.follow codes ⟨batch, live, offset, true, verdicts⟩ _ = _
    rw [Upload.follow, if_pos ⟨hoffset, hchunk⟩]
    rfl

/-- Any other sub-batch leaves the upload before its end, or ends it. -/
theorem Tried.follow_stop (h : Tried result posts) (hresult : result ≠ .sent)
    (hretried : u.retried = false) (hoffset : u.offset < u.batch.length)
    (hchunk : chunk = u.chunk.map (batchPayload u.live)) :
    ∃ last, u.follow codes (posts.map (⟨chunk, ·⟩)) = some last ∧
      ∀ u' ∈ last, u'.offset < u'.batch.length := by
  obtain ⟨batch, live, offset, retried, verdicts⟩ := u
  dsimp only at hretried hoffset hchunk
  subst hretried
  have hnone : ∀ u' ∈ (none : Option Upload), u'.offset < u'.batch.length := by simp
  cases h with
  | once wire =>
    rw [List.map_singleton, Upload.follow, if_pos ⟨hoffset, hchunk⟩]
    cases result with
    | sent => exact absurd rfl hresult
    | transportError =>
      refine ⟨_, rfl, ?_⟩
      rintro u' hu'
      obtain rfl := Option.some.inj hu'
      exact hoffset
    | _ => exact ⟨none, rfl, hnone⟩
  | again first wire =>
    rw [List.map_cons, List.map_singleton, Upload.follow, if_pos ⟨hoffset, hchunk⟩]
    show ∃ last, Upload.follow codes ⟨batch, live, offset, true, verdicts⟩ _ = some last ∧ _
    rw [Upload.follow, if_pos ⟨hoffset, hchunk⟩]
    cases result with
    | sent => exact absurd rfl hresult
    | _ => exact ⟨none, rfl, hnone⟩

end

theorem Upload.length_chunk (u : Upload) :
    u.chunk.length = min subBatchItems (u.batch.length - u.offset) := by
  rw [Upload.chunk, List.length_take, List.length_drop]

/-- What is left after a sub-batch. -/
theorem Upload.drop_chunk (u : Upload) :
    (u.batch.drop u.offset).drop subBatchItems = u.batch.drop (u.offset + u.chunk.length) := by
  have hlength := u.length_chunk
  rw [List.drop_drop]
  rcases Nat.le_total subBatchItems (u.batch.length - u.offset) with hle | hle
  · rw [hlength, Nat.min_eq_left hle]
  · rw [Nat.min_eq_right hle] at hlength
    rw [List.drop_eq_nil_of_le (by omega), List.drop_eq_nil_of_le (by omega)]

/-- The posts of the loop drive the upload, to its end exactly when the loop returns `SENT`. -/
theorem postChunks_follow {ser : Serializer} {url apiKey : List UInt8} {memory : ℕ → ℕ → UInt8}
    {attempts : ℕ → Attempts} (codes : ChunkPost → List (Option String)) {run : BatchRun}
    {u : Upload} (hretried : u.retried = false) (hoffset : u.offset ≤ u.batch.length)
    (hrun : postChunks ser url apiKey memory attempts u.offset
      ((u.batch.drop u.offset).map (batchPayload u.live)) = some run) :
    ∃ last, u.follow codes run.posts = some last ∧
      (run.result = .sent ↔ ∃ u' ∈ last, u'.batch.length ≤ u'.offset) := by
  induction hlength : u.batch.length - u.offset using Nat.strong_induction_on generalizing u run with
  | _ n ih =>
    subst hlength
    rw [postChunks] at hrun
    split at hrun
    next hnil =>
      obtain rfl := Option.some.inj hrun
      rw [List.map_eq_nil_iff, List.drop_eq_nil_iff] at hnil
      exact ⟨some u, rfl, iff_of_true rfl ⟨u, rfl, hnil⟩⟩
    next hne =>
      have hlt : u.offset < u.batch.length := by
        rw [List.map_eq_nil_iff, List.drop_eq_nil_iff] at hne
        omega
      have hchunk : ((u.batch.drop u.offset).map (batchPayload u.live)).take subBatchItems =
          u.chunk.map (batchPayload u.live) := List.map_take.symm
      have hdrop : ((u.batch.drop u.offset).map (batchPayload u.live)).drop subBatchItems =
          (u.batch.drop (u.offset + u.chunk.length)).map (batchPayload u.live) := by
        rw [← u.drop_chunk]
        exact List.map_drop.symm
      have hadvance := u.length_chunk
      rw [subBatchItems] at hadvance
      dsimp only at hrun
      rw [hchunk, hdrop, List.length_map] at hrun
      split at hrun
      next buf bn =>
        split at hrun
        next =>
          obtain rfl := Option.some.inj hrun
          refine ⟨some u, rfl, iff_of_false (by simp) ?_⟩
          rintro ⟨u', hu', hend⟩
          obtain rfl := Option.some.inj hu'
          omega
        next =>
          split at hrun
          next => cases hrun
          next result posts hposts =>
            have htried := postChunk_tried hposts
            split at hrun
            next hsent =>
              subst hsent
              obtain ⟨run', hrun', rfl⟩ := Option.map_eq_some_iff.mp hrun
              obtain ⟨verdicts, hfollow⟩ := htried.follow_sent codes hretried hlt rfl
              obtain ⟨last, hlast, hiff⟩ := ih _ (by dsimp only; omega)
                (u := { u with offset := u.offset + u.chunk.length, verdicts }) hretried
                (by dsimp only; omega) hrun' rfl
              exact ⟨last, (hfollow run'.posts).trans hlast, hiff⟩
            next hsent =>
              obtain rfl := Option.some.inj hrun
              obtain ⟨last, hlast, hbefore⟩ :=
                htried.follow_stop codes hsent hretried hlt rfl
              refine ⟨last, hlast, iff_of_false hsent ?_⟩
              rintro ⟨u', hu', hend⟩
              exact Nat.not_le.mpr (hbefore u' hu') hend
      next => cases hrun

/-! ## The whole upload -/

/-- One upload of a batch from the queue, whatever the modem does and the buffers held before. The
backend reads the requests of the configured device, or nothing; the acknowledged sub-batches are
a start of the batch, and all of it exactly when `SENT` is returned, which is when the upload of the
system comes to its end. -/
theorem transportPostBatch_inOrder (t : Target) (ser : Serializer) (hser : Compact ser)
    (live : LiveReadings) (urlMemory : ℕ → UInt8) (memory : ℕ → ℕ → UInt8)
    (attempts : ℕ → Attempts) (codes : ChunkPost → List (Option String)) (records : List FixRecord)
    (hcount : 0 < records.length ∧ records.length ≤ batchPayloadCapacity) :
    ∃ run, transportPostBatch ser t.apiHost t.uuid t.apiKey live urlMemory memory attempts
        (some records) = some run ∧
      run.InOrder t ser (records.map (batchPayload live)) ∧
      ∃ last, Upload.follow codes ⟨records, live, 0, false, []⟩ run.posts = some last ∧
        (run.result = .sent ↔ ∃ u ∈ last, u.batch.length ≤ u.offset) := by
  obtain ⟨buf, n, hurl, hn, htext⟩ := transportBuildBatchUrl_target t urlMemory
  obtain ⟨run, hrun, hinOrder⟩ :=
    postChunks_inOrder t hser memory attempts 0 (records.map (batchPayload live))
  refine ⟨run, ?_, hinOrder,
    postChunks_follow codes (u := ⟨records, live, 0, false, []⟩) rfl (Nat.zero_le _) hrun⟩
  rw [transportPostBatch, if_neg (by omega), hurl]
  dsimp only
  rw [if_neg hn, htext, hrun]

/-- The serializer on texts without escapes and on whole numbers. -/
def shortNumbers : Serializer where
  string text := asciiBytes "\"" ++ text ++ asciiBytes "\""
  number x := ((wholeNumbers.number x).filter (· ≠ 0)).take 26
  integer n := ((wholeNumbers.integer n).filter (· ≠ 0)).take 11

theorem compact_shortNumbers : Compact shortNumbers where
  string text := by
    have hquote : (asciiBytes "\"").length = 1 ∧ 0 ∉ asciiBytes "\"" := by decide
    simp only [shortNumbers, List.length_append, List.mem_append, not_or, hquote.1]
    exact ⟨by omega, fun h => ⟨⟨hquote.2, h⟩, hquote.2⟩⟩
  number x := ⟨List.length_take_le .., fun h => by
    simpa using (List.mem_filter.mp (List.mem_of_mem_take h)).2⟩
  integer n _ _ := ⟨List.length_take_le .., fun h => by
    simpa using (List.mem_filter.mp (List.mem_of_mem_take h)).2⟩

/-- A fix with nothing but its position. -/
def plainRecord (sequenceId : UInt32) : FixRecord where
  sequenceId
  bootId := 1
  recordedAt := snprintf (timestamp 2026 7 15 12 0 0)
  latitudeE6 := 19000000
  longitudeE6 := -99000000
  altitudeCm := 0
  speedMmps := 0
  accuracyCm := 0
  satellitesUsed := 0
  batteryMv := 0
  signalStrength := 0
  validFields := 0

/-- The modem never connects. -/
theorem transportPostBatch_unreachable : ∃ run,
    transportPostBatch shortNumbers Target.sample.apiHost Target.sample.uuid Target.sample.apiKey
      ⟨4100, 20⟩ (fun _ => 170) (fun _ _ => 170)
      (fun _ => ⟨⟨false, 0, 0, []⟩, true, true, true, ⟨false, 0, 0, []⟩⟩)
      (some [plainRecord 1, plainRecord 2]) = some run ∧
    run.InOrder Target.sample shortNumbers
      ([plainRecord 1, plainRecord 2].map (batchPayload ⟨4100, 20⟩)) ∧
    ∃ last, Upload.follow (fun _ => []) ⟨[plainRecord 1, plainRecord 2], ⟨4100, 20⟩, 0, false, []⟩
        run.posts = some last ∧
      (run.result = .sent ↔ ∃ u ∈ last, u.batch.length ≤ u.offset) :=
  transportPostBatch_inOrder Target.sample shortNumbers compact_shortNumbers ⟨4100, 20⟩
    (fun _ => 170) (fun _ _ => 170)
    (fun _ => ⟨⟨false, 0, 0, []⟩, true, true, true, ⟨false, 0, 0, []⟩⟩) (fun _ => [])
    [plainRecord 1, plainRecord 2] (by decide)

end OpenGps.Uplink
