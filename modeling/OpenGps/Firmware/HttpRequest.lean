import OpenGps.Firmware.BatchJson
import OpenGps.Firmware.Connectivity
import OpenGps.Firmware.HttpResponse
import OpenGps.Lib.HttpMessage

/-!
# The request of an upload (`lib/transport`, `src/transport.cpp`)

The URL is written into a buffer of the caller; `postOnce` takes it apart again, writes the header
through a buffer of its own and the body after it, and reads the answer. What goes over the wire is
a request that a receiver reads back: the path of the device, its key, and the body.
-/

namespace OpenGps.Firmware

open OpenGps.Lib

/-! ## The URL -/

/-- What the format of the URL writes; a port of zero is left out. -/
def urlText (apiHost : List UInt8) (apiPort : UInt16) (uuid : List UInt8) : List UInt8 :=
  apiHost ++ (if apiPort > 0 then asciiBytes ":" ++ decimalText apiPort.toNat else []) ++
    (asciiBytes "/api/v1/devices/" ++ uuid ++ asciiBytes "/locations")

/-- What is left in the buffer, and the length that is returned; a null pointer is `none`. -/
def transportBuildUrl (apiHost : Option (List UInt8)) (apiPort : UInt16)
    (uuid : Option (List UInt8)) (buf : Option (OutputBuffer UInt8)) (bufLen : ℕ) :
    Option (OutputBuffer UInt8) × ℕ :=
  match apiHost, uuid, buf with
  | some apiHost, some uuid, some buf =>
    let (buf, n) := snprintfInto buf bufLen (urlText apiHost apiPort uuid)
    if n ≥ bufLen then (some buf, 0) else (some buf, n)
  | _, _, _ => (buf, 0)

def batchSuffix : List UInt8 := asciiBytes "/batch"

def transportBuildBatchUrl (apiHost : Option (List UInt8)) (apiPort : UInt16)
    (uuid : Option (List UInt8)) (buf : Option (OutputBuffer UInt8)) (bufLen : ℕ) :
    Option (OutputBuffer UInt8) × ℕ :=
  let (buf, n) := transportBuildUrl apiHost apiPort uuid buf bufLen
  if n = 0 then (buf, 0)
  else if n + 7 > bufLen then (buf, 0)
  else (buf.map fun buf => buf.putAll n (batchSuffix ++ [0]), n + 6)

/-- A writer stores nothing outside its buffer, and returns a length exactly when the text and its
NUL fit; then they are what is in the buffer. -/
structure WritesAllOrNothing (text : List UInt8) (bufLen : ℕ)
    (r : Option (OutputBuffer UInt8) × ℕ) : Prop where
  within : ∀ buf ∈ r.1, buf.Within bufLen
  fits : r.2 ≠ 0 ↔ text.length + 1 ≤ bufLen
  complete : r.2 ≠ 0 → r.2 = text.length ∧
    ∃ buf, r.1 = some buf ∧ buf.read (text.length + 1) = text ++ [0]

section
variable {apiHost uuid text : List UInt8} {apiPort : UInt16} {buf : OutputBuffer UInt8} {bufLen : ℕ}

theorem length_urlText_pos (apiHost : List UInt8) (apiPort : UInt16) (uuid : List UInt8) :
    0 < (urlText apiHost apiPort uuid).length := by
  have hend : (asciiBytes "/locations").length = 10 := by decide
  simp only [urlText, List.length_append]
  omega

theorem snprintfInto_within (hbuf : buf.Within bufLen) :
    (snprintfInto buf bufLen text).1.Within bufLen := by
  unfold snprintfInto
  split
  next => exact hbuf
  next hpos =>
    refine ((OutputBuffer.Holds.nil hbuf).putAll ?_).within
    rw [List.length_nil, List.length_append, List.length_take, List.length_singleton]
    omega

/-- The text that fits stands in the buffer with its NUL. -/
theorem snprintfInto_holds (hbuf : buf.Within bufLen) (hfits : text.length < bufLen) :
    (snprintfInto buf bufLen text).1.Holds bufLen (text ++ [0]) := by
  have htake : text.take (bufLen - 1) = text := List.take_of_length_le (by omega)
  rw [snprintfInto, if_neg (by omega), htake]
  refine (OutputBuffer.Holds.nil hbuf).putAll ?_
  rw [List.length_nil, List.length_append, List.length_singleton]
  omega

theorem read_nul (h : buf.Holds bufLen (text ++ [0])) :
    buf.read (text.length + 1) = text ++ [0] := by
  have htext := h.text
  rw [List.length_append, List.length_singleton] at htext
  exact htext

theorem transportBuildUrl_of_fits (hfits : (urlText apiHost apiPort uuid).length < bufLen) :
    transportBuildUrl (some apiHost) apiPort (some uuid) (some buf) bufLen =
      (some (snprintfInto buf bufLen (urlText apiHost apiPort uuid)).1,
        (urlText apiHost apiPort uuid).length) :=
  if_neg (Nat.not_le.mpr hfits)

theorem transportBuildUrl_of_not_fits (hover : bufLen ≤ (urlText apiHost apiPort uuid).length) :
    transportBuildUrl (some apiHost) apiPort (some uuid) (some buf) bufLen =
      (some (snprintfInto buf bufLen (urlText apiHost apiPort uuid)).1, 0) :=
  if_pos hover

theorem transportBuildUrl_writes (hbuf : buf.Within bufLen) :
    WritesAllOrNothing (urlText apiHost apiPort uuid) bufLen
      (transportBuildUrl (some apiHost) apiPort (some uuid) (some buf) bufLen) := by
  have hpos := length_urlText_pos apiHost apiPort uuid
  have hwithin : (snprintfInto buf bufLen (urlText apiHost apiPort uuid)).1.Within bufLen :=
    snprintfInto_within hbuf
  rcases Nat.lt_or_ge (urlText apiHost apiPort uuid).length bufLen with hfits | hover
  · rw [transportBuildUrl_of_fits hfits]
    refine ⟨fun b hb => ?_, iff_of_true hpos.ne' hfits, fun _ => ⟨rfl, _, rfl, ?_⟩⟩
    · obtain rfl := Option.some.inj hb
      exact hwithin
    · exact read_nul (snprintfInto_holds hbuf hfits)
  · rw [transportBuildUrl_of_not_fits hover]
    refine ⟨fun b hb => ?_, iff_of_false (by simp) (by omega), fun h => absurd rfl h⟩
    obtain rfl := Option.some.inj hb
    exact hwithin

/-- The suffix is stored over the NUL of the URL, when there is room for both. -/
theorem transportBuildBatchUrl_writes (hbuf : buf.Within bufLen) :
    WritesAllOrNothing (urlText apiHost apiPort uuid ++ batchSuffix) bufLen
      (transportBuildBatchUrl (some apiHost) apiPort (some uuid) (some buf) bufLen) := by
  have hwithin : (snprintfInto buf bufLen (urlText apiHost apiPort uuid)).1.Within bufLen :=
    snprintfInto_within hbuf
  have hpos := length_urlText_pos apiHost apiPort uuid
  have hlength : (urlText apiHost apiPort uuid ++ batchSuffix).length =
      (urlText apiHost apiPort uuid).length + 6 := List.length_append
  rw [transportBuildBatchUrl]
  rcases Nat.lt_or_ge (urlText apiHost apiPort uuid).length bufLen with hfits | hover
  · rw [transportBuildUrl_of_fits hfits]
    dsimp only
    rw [if_neg hpos.ne']
    split
    next hover =>
      refine ⟨fun b hb => ?_, iff_of_false (by simp) (by omega), fun h => absurd rfl h⟩
      obtain rfl := Option.some.inj hb
      exact hwithin
    next hroom =>
      have hsuffix : (urlText apiHost apiPort uuid).length + (batchSuffix ++ [0]).length ≤ bufLen :=
        Nat.le_of_not_lt hroom
      have hall := (snprintfInto_holds hbuf hfits).left.putAll hsuffix
      rw [← List.append_assoc] at hall
      refine ⟨fun b hb => ?_, iff_of_true (by simp) (by omega), fun _ => ⟨hlength.symm, _, rfl, ?_⟩⟩
      · obtain rfl := Option.some.inj hb
        exact hall.within
      · exact read_nul hall
  · rw [transportBuildUrl_of_not_fits hover]
    refine ⟨fun b hb => ?_, iff_of_false (by simp) (by omega), fun h => absurd rfl h⟩
    obtain rfl := Option.some.inj hb
    exact hwithin

end

/-! ## `postOnce` -/

def urlBufferSize : ℕ := 256

def hostBufferSize : ℕ := 128

def headerBufferSize : ℕ := 512

/-- The text from the first occurrence of a byte on. -/
def strchr (text : List UInt8) (b : UInt8) : Option (List UInt8) :=
  match text.dropWhile (· ≠ b) with
  | [] => none
  | rest => some rest

/-- The text from the first occurrence of `needle` on. -/
def strstr (needle : List UInt8) : List UInt8 → Option (List UInt8)
  | [] => if needle = [] then some [] else none
  | b :: text => if needle <+: b :: text then some (b :: text) else strstr needle text

/-- What follows the scheme of a URL. -/
def hostStart (url : List UInt8) : List UInt8 :=
  match strstr (asciiBytes "://") url with
  | some rest => rest.drop 3
  | none => url

/-- The host and the path of a URL. Without a slash after the host the length of the host would be
the difference of two pointers into different objects, which has no meaning. -/
def splitUrl (url : List UInt8) : Option (List UInt8 × List UInt8) :=
  (strchr (hostStart url) '/'.toUInt8).map fun path =>
    ((hostStart url).take ((hostStart url).length - path.length), path)

def requestHeader (path host apiKey : List UInt8) (bodyLen : ℕ) : List UInt8 :=
  asciiBytes "POST " ++ path ++ asciiBytes " HTTP/1.1\r\nHost: " ++ host ++
    asciiBytes "\r\nContent-Type: application/json\r\nX-Device-API-Key: " ++ apiKey ++
    asciiBytes "\r\nContent-Length: " ++ decimalText bodyLen ++
    asciiBytes "\r\nConnection: close\r\n\r\n"

/-- What the modem does with one connection. -/
structure Link where
  connected : Bool
  /-- How many bytes of the header and of the body the two writes take. -/
  headerTaken : ℕ
  bodyTaken : ℕ
  /-- The bytes that arrive before the deadlines. -/
  answer : List UInt8

structure Post where
  result : TransportResult
  wire : List UInt8
  deriving DecidableEq

def resultOfCode (code : ℤ) : TransportResult :=
  if code = 201 then .sent else if code ≥ 500 then .httpServerError else .httpClientError

/-- The two writes, and the answer when both were complete. -/
def exchange (header jsonBody : List UInt8) (responseLen : ℕ) (link : Link) : Post :=
  let sentHeader := header.take link.headerTaken
  let sentBody := jsonBody.take link.bodyTaken
  if sentHeader.length ≠ header.length then ⟨.transportError, sentHeader⟩
  else if sentBody.length ≠ jsonBody.length then ⟨.transportError, sentHeader ++ sentBody⟩
  else
    match readHttpResponse link.answer responseLen with
    | none => ⟨.transportError, sentHeader ++ sentBody⟩
    | some r => ⟨resultOfCode r.code, sentHeader ++ sentBody⟩

/-- `none` where the URL has no path. -/
def postOnce (url apiKey jsonBody : List UInt8) (responseLen : ℕ) (link : Link) : Option Post := do
  let (host, path) ← splitUrl url
  if host.length = 0 ∨ host.length ≥ hostBufferSize then some ⟨.configError, []⟩
  else if ¬link.connected then some ⟨.transportError, []⟩
  else
    let header := requestHeader path host apiKey jsonBody.length
    -- A header that is cut off is not sent.
    if header.length ≥ headerBufferSize then some ⟨.transportError, []⟩
    else some (exchange header jsonBody responseLen link)

/-! ## What the backend receives -/

/-- The configuration of a device: texts that do not run into one another in a request, and fit the
buffers. -/
structure Target where
  scheme : List UInt8
  host : List UInt8
  uuid : List UInt8
  apiKey : List UInt8
  scheme_text : 0 ∉ scheme ∧ 58 ∉ scheme
  host_text : 0 ∉ host ∧ 47 ∉ host ∧ 13 ∉ host ∧ Trimmed host
  uuid_text : 0 ∉ uuid ∧ 32 ∉ uuid ∧ 13 ∉ uuid
  apiKey_text : 0 ∉ apiKey ∧ 13 ∉ apiKey ∧ Trimmed apiKey
  host_size : 0 < host.length ∧ host.length < hostBufferSize
  url_size : scheme.length + host.length + uuid.length + 35 < urlBufferSize
  apiKey_size : apiKey.length ≤ 140

namespace Target
variable (t : Target)

/-- `API_HOST`. -/
def apiHost : List UInt8 := t.scheme ++ asciiBytes "://" ++ t.host

/-- The path of the single upload or of the batch. -/
def path (batch : Bool) : List UInt8 :=
  asciiBytes "/api/v1/devices/" ++ t.uuid ++ asciiBytes "/locations" ++
    (if batch then batchSuffix else [])

def url (batch : Bool) : List UInt8 := t.apiHost ++ t.path batch

/-- What the URL builders leave in their buffer. -/
theorem url_eq (batch : Bool) :
    t.url batch = urlText t.apiHost 0 t.uuid ++ (if batch then batchSuffix else []) := by
  simp only [url, urlText, path, gt_iff_lt, UInt16.lt_irrefl, if_false, List.append_nil,
    List.append_assoc]

/-- The request of an upload. -/
def request (batch : Bool) (body : List UInt8) : HttpRequest where
  method := asciiBytes "POST"
  target := t.path batch
  fields :=
    [(asciiBytes "Host", t.host), (asciiBytes "Content-Type", asciiBytes "application/json"),
     (asciiBytes "X-Device-API-Key", t.apiKey),
     (HttpRequest.contentLengthName, decimalText body.length),
     (asciiBytes "Connection", asciiBytes "close")]
  body

end Target

section
variable {text before after needle : List UInt8} {b : UInt8}

/-! ### The URL is split where it was put together -/

theorem strchr_append (h : b ∉ before) : strchr (before ++ b :: after) b = some (b :: after) := by
  have hne : ∀ c ∈ before, decide (c ≠ b) = true := by
    intro c hc
    simpa using fun heq : c = b => h (heq ▸ hc)
  rw [strchr, List.dropWhile_append_of_pos hne, List.dropWhile_cons_of_neg (by simp)]

theorem strstr_append (h : b ∉ before) :
    strstr (b :: needle) (before ++ b :: needle ++ after) = some (b :: needle ++ after) := by
  induction before with
  | nil => exact if_pos (List.prefix_append (b :: needle) after)
  | cons c before ih =>
    rw [List.mem_cons, not_or] at h
    rw [List.cons_append, List.cons_append, strstr, if_neg, ih h.2]
    rw [List.cons_prefix_cons]
    exact fun hstart => h.1 hstart.1

end

namespace Target
variable (t : Target) (batch : Bool) (body : List UInt8)

/-- The URL fits its buffer, and has no NUL in it. -/
theorem url_text : (t.url batch).length < urlBufferSize ∧ 0 ∉ t.url batch := by
  have hsuffix : (if batch then batchSuffix else []).length ≤ 6 ∧
      0 ∉ (if batch then batchSuffix else []) := by cases batch <;> decide
  have hlengths : (asciiBytes "://").length = 3 ∧ (asciiBytes "/api/v1/devices/").length = 16 ∧
      (asciiBytes "/locations").length = 10 := by decide
  have hnuls : 0 ∉ asciiBytes "://" ∧ 0 ∉ asciiBytes "/api/v1/devices/" ∧
      0 ∉ asciiBytes "/locations" := by decide
  have hsize := t.url_size
  refine ⟨?_, ?_⟩
  · simp only [url, apiHost, path, List.length_append, hlengths.1, hlengths.2.1, hlengths.2.2]
    omega
  · simp only [url, apiHost, path, List.mem_append, not_or]
    exact ⟨⟨⟨t.scheme_text.1, hnuls.1⟩, t.host_text.1⟩,
      ⟨⟨hnuls.2.1, t.uuid_text.1⟩, hnuls.2.2⟩, hsuffix.2⟩

theorem hostStart_url : hostStart (t.url batch) = t.host ++ t.path batch := by
  have hscheme : asciiBytes "://" = 58 :: asciiBytes "//" := by decide
  have hurl : t.url batch =
      t.scheme ++ 58 :: asciiBytes "//" ++ (t.host ++ t.path batch) := by
    rw [url, apiHost, hscheme, List.append_assoc]
  rw [hostStart, hurl, hscheme, strstr_append t.scheme_text.2]
  rfl

theorem splitUrl_url : splitUrl (t.url batch) = some (t.host, t.path batch) := by
  obtain ⟨rest, hrest⟩ : ∃ rest, t.path batch = '/'.toUInt8 :: rest := ⟨_, rfl⟩
  have hslash : strchr (t.host ++ t.path batch) '/'.toUInt8 = some (t.path batch) := by
    rw [hrest]
    exact strchr_append t.host_text.2.1
  rw [splitUrl, hostStart_url, hslash, Option.map_some, List.length_append, Nat.add_sub_cancel]
  exact congrArg (fun host => some (host, t.path batch)) List.take_left

theorem text_request : (t.request batch body).text =
    requestHeader (t.path batch) t.host t.apiKey body.length ++ body := by
  have hversion : asciiBytes " HTTP/1.1\r\nHost: " =
      32 :: HttpRequest.version ++ crlf ++ asciiBytes "Host" ++ [58, 32] := by decide
  have htype : asciiBytes "\r\nContent-Type: application/json\r\nX-Device-API-Key: " =
      crlf ++ asciiBytes "Content-Type" ++ [58, 32] ++ asciiBytes "application/json" ++ crlf ++
        asciiBytes "X-Device-API-Key" ++ [58, 32] := by decide
  have hlength : asciiBytes "\r\nContent-Length: " =
      crlf ++ HttpRequest.contentLengthName ++ [58, 32] := by decide
  have hclose : asciiBytes "\r\nConnection: close\r\n\r\n" =
      crlf ++ asciiBytes "Connection" ++ [58, 32] ++ asciiBytes "close" ++ crlf ++ crlf := by decide
  have hmethod : asciiBytes "POST " = asciiBytes "POST" ++ [32] := by decide
  simp only [HttpRequest.text, request, requestHeader, hversion, htype, hlength, hclose, hmethod,
    HttpRequest.fieldText, List.map_cons, List.map_nil, List.flatten_cons, List.flatten_nil,
    List.append_assoc, List.cons_append, List.nil_append]

theorem length_requestHeader (hbody : body.length < 2048) :
    (requestHeader (t.path batch) t.host t.apiKey body.length).length < headerBufferSize := by
  have hdigits : (decimalText body.length).length ≤ 4 := by
    rw [decimalText, List.length_map, Nat.length_toDigits_le_iff (by decide) (by decide)]
    omega
  have hurl := t.url_size
  have hkey := t.apiKey_size
  have hsuffix : (if batch then batchSuffix else []).length ≤ 6 := by cases batch <;> decide
  have hfixed : (asciiBytes "POST ").length = 5 ∧ (asciiBytes " HTTP/1.1\r\nHost: ").length = 17 ∧
      (asciiBytes "\r\nContent-Type: application/json\r\nX-Device-API-Key: ").length = 52 ∧
      (asciiBytes "\r\nContent-Length: ").length = 18 ∧
      (asciiBytes "\r\nConnection: close\r\n\r\n").length = 23 ∧
      (asciiBytes "/api/v1/devices/").length = 16 ∧ (asciiBytes "/locations").length = 10 := by
    decide
  obtain ⟨h1, h2, h3, h4, h5, h6, h7⟩ := hfixed
  simp only [requestHeader, path, List.length_append, h1, h2, h3, h4, h5, h6, h7]
  simp only [urlBufferSize, headerBufferSize] at hurl ⊢
  omega

theorem wellFormed_request : (t.request batch body).WellFormed where
  method := by
    show 32 ∉ asciiBytes "POST" ∧ 13 ∉ asciiBytes "POST"
    decide
  target := by
    have hsuffix : 32 ∉ (if batch then batchSuffix else []) ∧
        13 ∉ (if batch then batchSuffix else []) := by cases batch <;> decide
    have hstart : 32 ∉ asciiBytes "/api/v1/devices/" ∧ 13 ∉ asciiBytes "/api/v1/devices/" := by
      decide
    have hend : 32 ∉ asciiBytes "/locations" ∧ 13 ∉ asciiBytes "/locations" := by decide
    simp only [request, path, List.mem_append, not_or]
    exact ⟨⟨⟨⟨hstart.1, t.uuid_text.2.1⟩, hend.1⟩, hsuffix.1⟩,
      ⟨⟨hstart.2, t.uuid_text.2.2⟩, hend.2⟩, hsuffix.2⟩
  fields := by
    have hfixed : 13 ∉ asciiBytes "application/json" ∧ Trimmed (asciiBytes "application/json") ∧
        13 ∉ asciiBytes "close" ∧ Trimmed (asciiBytes "close") := by
      refine ⟨by decide +kernel, trimmed_of_not_blank (by decide +kernel), by decide +kernel,
        trimmed_of_not_blank (by decide +kernel)⟩
    simp only [request, List.forall_mem_cons]
    refine ⟨⟨by decide, by decide, t.host_text.2.2⟩, ⟨by decide, by decide, hfixed.1, hfixed.2.1⟩,
      ⟨by decide, by decide, t.apiKey_text.2⟩,
      ⟨by decide, by decide, not_mem_decimalText (by decide), trimmed_decimalText _⟩,
      ⟨by decide, by decide, hfixed.2.2⟩, ?_⟩
    intro f hf
    cases hf
  length := by
    have hfind : HttpRequest.fieldValue (t.request batch body).fields HttpRequest.contentLengthName =
        some (decimalText body.length) := rfl
    rw [HttpRequest.bodyLength, hfind]
    exact decimalValue_decimalText _

/-! ### The exchange -/

/-- The backend gets a start of the request, and all of it unless a transport error is reported. -/
structure Delivers (link : Link) (responseLen : ℕ) (p : Post) : Prop where
  start : p.wire <+: (t.request batch body).text
  valid : p.result ≠ .configError
  cut : p.wire ≠ (t.request batch body).text → p.result = .transportError
  sent : p.result = .sent →
    ∃ r, readHttpResponse link.answer responseLen = some r ∧ r.code = 201

theorem resultOfCode_valid (code : ℤ) :
    resultOfCode code ≠ .configError ∧ (resultOfCode code = .sent → code = 201) := by
  unfold resultOfCode
  split
  next h => exact ⟨by simp, fun _ => h⟩
  next => split <;> exact ⟨by simp, fun h => by cases h⟩

theorem delivers_nothing (link : Link) (responseLen : ℕ) :
    t.Delivers batch body link responseLen ⟨.transportError, []⟩ :=
  ⟨List.nil_prefix, by simp, fun _ => rfl, fun h => by cases h⟩

theorem exchange_delivers (link : Link) (responseLen : ℕ) :
    t.Delivers batch body link responseLen
      (exchange (requestHeader (t.path batch) t.host t.apiKey body.length) body responseLen
        link) := by
  have htext := t.text_request batch body
  generalize requestHeader (t.path batch) t.host t.apiKey body.length = header at htext ⊢
  unfold exchange
  dsimp only
  split
  next =>
    refine ⟨?_, by simp, fun _ => rfl, fun h => by cases h⟩
    rw [htext]
    exact (List.take_prefix ..).trans (List.prefix_append ..)
  next hsame =>
    have hall : header.take link.headerTaken = header :=
      (List.take_prefix ..).eq_of_length (not_not.mp hsame)
    rw [hall]
    split
    next =>
      refine ⟨?_, by simp, fun _ => rfl, fun h => by cases h⟩
      rw [htext]
      exact (List.prefix_append_right_inj header).mpr (List.take_prefix ..)
    next hsame =>
      have hbodyAll : body.take link.bodyTaken = body :=
        (List.take_prefix ..).eq_of_length (not_not.mp hsame)
      rw [hbodyAll, ← htext]
      split
      next => exact ⟨List.prefix_rfl, by simp, fun _ => rfl, fun h => by cases h⟩
      next r hr =>
        obtain ⟨hvalid, hcode⟩ := resultOfCode_valid r.code
        exact ⟨List.prefix_rfl, hvalid, fun h => absurd rfl h, fun h => ⟨r, hr, hcode h⟩⟩

theorem postOnce_delivers (hbody : body.length < 2048) (responseLen : ℕ) (link : Link) :
    ∃ p, postOnce (t.url batch) t.apiKey body responseLen link = some p ∧
      t.Delivers batch body link responseLen p := by
  have hheader := t.length_requestHeader batch body hbody
  have hhost := t.host_size
  rw [postOnce, t.splitUrl_url]
  show ∃ p, (if t.host.length = 0 ∨ t.host.length ≥ hostBufferSize then _ else _) = some p ∧ _
  rw [if_neg (by omega)]
  split
  next => exact ⟨_, rfl, t.delivers_nothing batch body link responseLen⟩
  next =>
    dsimp only
    rw [if_neg (by omega)]
    exact ⟨_, rfl, t.exchange_delivers batch body link responseLen⟩

variable {t batch body} {link : Link} {responseLen : ℕ} {p : Post}

/-- A receiver reads the request, or nothing. -/
theorem Delivers.read (h : t.Delivers batch body link responseLen p) :
    HttpRequest.read p.wire = some (t.request batch body, []) ∨
      HttpRequest.read p.wire = none ∧ p.result = .transportError := by
  have hwell := t.wellFormed_request batch body
  by_cases hwhole : p.wire = (t.request batch body).text
  · left
    rw [hwhole, ← List.append_nil (t.request batch body).text]
    exact HttpRequest.read_text hwell []
  · exact .inr ⟨HttpRequest.read_of_cut hwell h.start hwhole, h.cut hwhole⟩

end Target

/-- One upload, whatever the modem does with the connection: the backend reads the request of the
configured device, with its path, its key and the body, or it reads nothing and the result is a
transport error; `SENT` needs the answer 201. -/
theorem post_request_roundTrip (t : Target) (batch : Bool) (body : List UInt8)
    (hbody : body.length < 2048) (responseLen : ℕ) (link : Link) :
    ∃ p, postOnce (t.url batch) t.apiKey body responseLen link = some p ∧
      p.result ≠ .configError ∧
      (HttpRequest.read p.wire = some (t.request batch body, []) ∨
        HttpRequest.read p.wire = none ∧ p.result = .transportError) ∧
      (p.result = .sent → ∃ r, readHttpResponse link.answer responseLen = some r ∧ r.code = 201) := by
  obtain ⟨p, hpost, hdelivers⟩ := t.postOnce_delivers batch body hbody responseLen link
  exact ⟨p, hpost, hdelivers.valid, hdelivers.read, hdelivers.sent⟩

/-- A tracker with a host and a key. -/
def Target.sample : Target where
  scheme := asciiBytes "https"
  host := asciiBytes "gps.example.com"
  uuid := asciiBytes "aaaaaaaa-bbbb-cccc-dddd-000000000001"
  apiKey := asciiBytes "key"
  scheme_text := by decide +kernel
  host_text := ⟨by decide +kernel, by decide +kernel, by decide +kernel,
    trimmed_of_not_blank (by decide +kernel)⟩
  uuid_text := by decide +kernel
  apiKey_text := ⟨by decide +kernel, by decide +kernel, trimmed_of_not_blank (by decide +kernel)⟩
  host_size := by decide +kernel
  url_size := by decide +kernel
  apiKey_size := by decide +kernel

/-- The connection is cut in the body. -/
theorem post_request_cut : ∃ p,
    postOnce (Target.sample.url true) Target.sample.apiKey (asciiBytes "\x7b\x7d") 2048
      ⟨true, 512, 1, []⟩ = some p ∧
    p.result ≠ .configError ∧
    (HttpRequest.read p.wire = some (Target.sample.request true (asciiBytes "\x7b\x7d"), []) ∨
      HttpRequest.read p.wire = none ∧ p.result = .transportError) ∧
    (p.result = .sent → ∃ r, readHttpResponse [] 2048 = some r ∧ r.code = 201) :=
  post_request_roundTrip Target.sample true (asciiBytes "\x7b\x7d") (by decide) 2048
    ⟨true, 512, 1, []⟩

end OpenGps.Firmware
