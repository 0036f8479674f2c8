import Mathlib.Algebra.Order.Ring.Int
import Mathlib.Data.Int.Basic
import Mathlib.Data.List.Induction
import Mathlib.Data.List.TakeWhile
import OpenGps.Lib.LineBuffer

/-!
# The HTTP reader (`src/transport.cpp`)

`readHttpResponse` reads the status line, the headers and the body of a response. Its stream is the
list of the bytes that arrive before the deadlines, and ends where the connection is closed; a read
at the end waits for its deadline in vain.

The header lines are read through a buffer of 128 bytes. A response is read right exactly when no
line, and not the reason phrase either, leaves a piece of no byte or of one, and no piece passes for
a `Content-Length` header that announces less than the body.
-/

namespace OpenGps.Firmware

open OpenGps.Lib

/-! ## The C library -/

def isSpace (b : UInt8) : Bool := b = 32 ∨ 9 ≤ b ∧ b ≤ 13

def isDigit (b : UInt8) : Bool := 48 ≤ b ∧ b ≤ 57

def toLower (b : UInt8) : UInt8 := if 65 ≤ b ∧ b ≤ 90 then b + 32 else b

/-- The number the leading digits of a text write. -/
def digitsValue (text : List UInt8) : ℕ :=
  (text.takeWhile isDigit).foldl (fun n b => 10 * n + (b.toNat - 48)) 0

/-- `atoi` and `atol`, whose results have 32 bits here; one that does not fit is the nearest one. -/
def atol (text : List UInt8) : ℤ :=
  match text.dropWhile isSpace with
  | 45 :: digits => max (-(digitsValue digits : ℤ)) (-2 ^ 31)
  | 43 :: digits => min (digitsValue digits : ℤ) (2 ^ 31 - 1)
  | digits => min (digitsValue digits : ℤ) (2 ^ 31 - 1)

/-! ## The reader -/

/-- `"Content-Length:"`, in lower case. -/
def contentLengthKey : List UInt8 :=
  [99, 111, 110, 116, 101, 110, 116, 45, 108, 101, 110, 103, 116, 104, 58]

def startsContentLength (line : List UInt8) : Bool :=
  (line.take 15).map toLower = contentLengthKey

/-- A trailing `'\r'` is overwritten. -/
def stripCr (line : List UInt8) : List UInt8 :=
  if line.getLast? = some 13 then line.dropLast else line

def noteContentLength (contentLength : ℤ) (line : List UInt8) : ℤ :=
  if startsContentLength line then atol (line.drop 15) else contentLength

/-- The headers until the blank line: the length they announce, and the stream after them. -/
def readHeaders (stream : List UInt8) (contentLength : ℤ) : Option (ℤ × List UInt8) :=
  let r := readUntil 10 127 stream
  if r.1 = [] then none
  else
    let line := stripCr r.1
    if line.head?.getD 0 = 0 then some (contentLength, r.2)
    else readHeaders r.2 (noteContentLength contentLength line)
termination_by stream.length
decreasing_by
  exact length_readUntil_lt ‹_›

/-- The loops of the body: `want` bytes, or what there is of them. -/
def readBody (want : ℕ) (body stream : List UInt8) : List UInt8 × List UInt8 :=
  if body.length < want ∧ stream ≠ [] then
    readBody want (body ++ stream.take (want - body.length)) (stream.drop (want - body.length))
  else (body, stream)
termination_by want - body.length
decreasing_by
  rename_i h
  have hpos := List.length_pos_iff.mpr h.2
  rw [List.length_append, List.length_take]
  omega

/-- What a call leaves: the status code, the text in the caller's buffer unless it has none, and the
bytes that are not read. -/
structure HttpRead where
  code : ℤ
  body : Option (List UInt8)
  rest : List UInt8
  deriving DecidableEq

/-- `none` stands for the code 0. A `bodyLen` of zero stands for a null pointer too. -/
def readHttpResponse (stream : List UInt8) (bodyLen : ℕ) : Option HttpRead :=
  let version := readUntil 32 15 stream
  if version.1 = [] then none
  else
    let status := readUntil 32 15 version.2
    if status.1 = [] then none
    else
      let code := atol status.1
      if code ≤ 0 then none
      else
        match readHeaders status.2 (-1) with
        | none => none
        | some (contentLength, stream) =>
          if bodyLen > 0 then
            -- The last byte of the buffer is for the NUL.
            let want :=
              if contentLength ≥ 0 ∧ contentLength.toNat < bodyLen - 1 then contentLength.toNat
              else bodyLen - 1
            let (body, rest) := readBody want [] stream
            some ⟨code, some body, rest⟩
          else some ⟨code, none, stream⟩

/-! ## Well-formed responses -/

/-- `HTAB`, `SP`, `VCHAR` or `obs-text`, of which a reason phrase and a field value consist. -/
def IsText (b : UInt8) : Prop := b = 9 ∨ 32 ≤ b ∧ b ≠ 127

/-- A character of a token: visible and no delimiter. -/
def IsToken (b : UInt8) : Prop :=
  33 ≤ b ∧ b < 127 ∧
    b ∉ ([34, 40, 41, 44, 47, 58, 59, 60, 61, 62, 63, 64, 91, 92, 93, 123, 125] : List UInt8)

instance : DecidablePred IsText := fun b => inferInstanceAs (Decidable (b = 9 ∨ 32 ≤ b ∧ b ≠ 127))

instance : DecidablePred IsToken := fun b => inferInstanceAs (Decidable (33 ≤ b ∧ b < 127 ∧ _))

structure HttpHeader where
  name : List UInt8
  /-- The field value with the blanks around it. -/
  value : List UInt8
  name_ne_nil : name ≠ []
  name_token : ∀ b ∈ name, IsToken b
  value_text : ∀ b ∈ value, IsText b

namespace HttpHeader

def line (h : HttpHeader) : List UInt8 := h.name ++ 58 :: h.value

def IsContentLength (h : HttpHeader) : Prop := h.name.map toLower = contentLengthKey.dropLast

/-- The value is the number `n` in decimal, with blanks around it. -/
def Declares (h : HttpHeader) (n : ℕ) : Prop :=
  ∃ before digits after : List UInt8, h.value = before ++ digits ++ after ∧
    (∀ b ∈ before ++ after, b = 9 ∨ b = 32) ∧ digits ≠ [] ∧ (∀ b ∈ digits, isDigit b) ∧
    digitsValue digits = n

end HttpHeader

/-- A response. Its body has the declared length, or ends where the connection is closed. -/
structure HttpResponse where
  code : ℕ
  reason : List UInt8
  headers : List HttpHeader
  body : List UInt8
  three_digits : 100 ≤ code ∧ code < 1000
  reason_text : ∀ b ∈ reason, IsText b
  length_declared : ∀ header ∈ headers, header.IsContentLength → header.Declares body.length

namespace HttpResponse
variable (r : HttpResponse)

/-- What stands between the status code and the blank line. -/
def lines : List (List UInt8) := r.reason :: r.headers.map HttpHeader.line

def codeDigits (code : ℕ) : List UInt8 :=
  [code / 100, code / 10 % 10, code % 10].map fun digit => UInt8.ofNat (48 + digit)

/-- `"HTTP/1.1 "`, the code, a blank, the lines, the blank line and the body. -/
def bytes : List UInt8 :=
  [72, 84, 84, 80, 47, 49, 46, 49] ++ 32 :: (codeDigits r.code ++ 32 ::
    (r.lines.flatMap (· ++ [13, 10]) ++ 13 :: 10 :: r.body))

/-- The call returns the status code and leaves in the buffer what fits of the body, with a byte
left for the NUL, and in the stream the rest of the body. -/
def Received (bodyLen : ℕ) : Prop :=
  readHttpResponse r.bytes bodyLen =
    some ⟨r.code, if bodyLen > 0 then some (r.body.take (bodyLen - 1)) else none,
      r.body.drop (bodyLen - 1)⟩

/-- The pieces in which the reader gets the lines. -/
def pieces : List (List UInt8) := r.lines.flatMap (Lib.pieces 127)

/-- The responses that are read right. -/
structure Readable (bodyLen : ℕ) : Prop where
  /-- With its `'\r'`, no line leaves a piece of no byte or of one. -/
  aligned : ∀ line ∈ r.lines, (line.length + 1) % 127 ≠ 0 ∧ (line.length + 1) % 127 ≠ 1
  /-- The last piece that looks like a `Content-Length` header does not cut off the body. -/
  announced : ∀ piece, (r.pieces.filter startsContentLength).getLast? = some piece →
    atol (piece.drop 15) < 0 ∨
      ((min (bodyLen - 1) r.body.length : ℕ) : ℤ) ≤ atol (piece.drop 15)

end HttpResponse

/-! ## One line -/

/-- No byte of the text ends a line or a C string. -/
def Plain (text : List UInt8) : Prop := ∀ b ∈ text, b ≠ 10 ∧ b ≠ 13 ∧ b ≠ 0

variable {line rest stream : List UInt8} {contentLength : ℤ}

theorem Plain.of_text (h : ∀ b ∈ line, IsText b) : Plain line := by
  intro b hb
  obtain rfl | ⟨hle, -⟩ := h b hb
  · decide
  · refine ⟨?_, ?_, ?_⟩
    all_goals
      rintro rfl
      exact absurd hle (by decide)

theorem HttpHeader.plain_line (h : HttpHeader) : Plain h.line := by
  intro b hb
  obtain hname | hvalue := List.mem_append.mp hb
  · obtain ⟨hle, -, -⟩ := h.name_token b hname
    refine ⟨?_, ?_, ?_⟩
    all_goals
      rintro rfl
      exact absurd hle (by decide)
  · obtain rfl | hvalue := List.mem_cons.mp hvalue
    · decide
    · exact Plain.of_text h.value_text b hvalue

theorem Plain.take (h : Plain line) (n : ℕ) : Plain (line.take n) :=
  fun b hb => h b (List.mem_of_mem_take hb)

theorem Plain.drop (h : Plain line) (n : ℕ) : Plain (line.drop n) :=
  fun b hb => h b (List.mem_of_mem_drop hb)

theorem stripCr_append : stripCr (line ++ [13]) = line := by
  simp [stripCr]

theorem stripCr_of_plain (h : Plain line) : stripCr line = line := by
  rw [stripCr, if_neg]
  intro hlast
  exact (h 13 (List.mem_of_getLast? hlast)).2.1 rfl

/-- A read that stores no byte ends the call. -/
theorem readHeaders_of_empty (h : (readUntil 10 127 stream).1 = []) :
    readHeaders stream contentLength = none := by
  rw [readHeaders]
  simp [h]

/-- A read that stores text is one turn of the loop. -/
theorem readHeaders_of_text {stored : List UInt8} (hread : readUntil 10 127 stream = (stored, rest))
    (hstored : stripCr stored = line) (hplain : Plain line) (hne : line ≠ []) :
    readHeaders stream contentLength =
      readHeaders rest (noteContentLength contentLength line) := by
  obtain ⟨b, text, rfl⟩ := List.exists_cons_of_ne_nil hne
  have hnonempty : stored ≠ [] := by
    rintro rfl
    cases hstored
  have hb : b ≠ 0 := (hplain b List.mem_cons_self).2.2
  rw [readHeaders]
  simp [hread, hnonempty, hstored, hb]

theorem readHeaders_blank :
    readHeaders (13 :: 10 :: rest) contentLength = some (contentLength, rest) := by
  have hread : readUntil 10 127 (13 :: 10 :: rest) = ([13], rest) := by
    simp [readUntil]
  rw [readHeaders]
  simp [hread, stripCr]

/-- The length announced after a line, by the pieces in which it is read. -/
def heard (contentLength : ℤ) (line : List UInt8) : ℤ :=
  (Lib.pieces 127 line).foldl noteContentLength contentLength

/-- A line ends the call when its last read is empty, ends the headers when its last read is the
lone `'\r'`, and otherwise is read. -/
theorem readHeaders_line (hplain : Plain line) :
    readHeaders (line ++ 13 :: 10 :: rest) contentLength =
      if (line.length + 1) % 127 = 0 then none
      else if (line.length + 1) % 127 = 1 then some (heard contentLength line, rest)
      else readHeaders rest (heard contentLength line) := by
  induction hlen : line.length using Nat.strong_induction_on generalizing line contentLength with
  | _ length ih =>
    subst hlen
    have hLF : (10 : UInt8) ∉ line ++ [13] := by
      rw [List.mem_append, not_or]
      exact ⟨fun hmem => (hplain 10 hmem).1 rfl, by decide⟩
    have hshape : line ++ 13 :: 10 :: rest = (line ++ [13]) ++ 10 :: rest := by simp
    by_cases hlong : 127 ≤ line.length
    · -- A full buffer of text; the rest of the line is read as a line of its own.
      have hread : readUntil 10 127 (line ++ 13 :: 10 :: rest) =
          (line.take 127, line.drop 127 ++ 13 :: 10 :: rest) :=
        readUntil_of_le (fun hmem => (hplain 10 hmem).1 rfl) hlong
      have hne : line.take 127 ≠ [] := by
        rw [← List.length_pos_iff, List.length_take]
        omega
      rw [readHeaders_of_text hread (stripCr_of_plain (hplain.take 127)) (hplain.take 127) hne,
        ih _ (by rw [List.length_drop]; omega) (hplain.drop 127) rfl, heard, heard,
        pieces_of_le (by decide) hlong, List.foldl_cons, List.length_drop,
        show (line.length - 127 + 1) % 127 = (line.length + 1) % 127 by omega]
    · have hone : heard contentLength line = noteContentLength contentLength line := by
        rw [heard, pieces_of_lt (by omega), List.foldl_cons, List.foldl_nil]
      rw [hone]
      obtain hnil | hne := eq_or_ne line []
      · subst hnil
        rw [List.nil_append, readHeaders_blank]
        simp [noteContentLength, startsContentLength, contentLengthKey]
      · have hpos := List.length_pos_iff.mpr hne
        by_cases hfull : line.length = 126
        · -- The `'\r'` fills the buffer, and the next read stops at the `'\n'` at once.
          have hread : readUntil 10 127 (line ++ 13 :: 10 :: rest) =
              (line ++ [13], 10 :: rest) := by
            rw [hshape, readUntil_of_le hLF (by simp [hfull]), List.take_of_length_le (by simp [hfull]),
              List.drop_eq_nil_of_le (by simp [hfull]), List.nil_append]
          rw [readHeaders_of_text hread stripCr_append hplain hne,
            readHeaders_of_empty (by simp [readUntil]), if_pos (by omega)]
        · have hread : readUntil 10 127 (line ++ 13 :: 10 :: rest) = (line ++ [13], rest) := by
            rw [hshape]
            exact readUntil_of_lt hLF (by rw [List.length_append, List.length_singleton]; omega)
          rw [readHeaders_of_text hread stripCr_append hplain hne, if_neg (by omega),
            if_neg (by omega)]

/-! ## The lines of a response -/

/-- The line leaves no piece that ends the call or the headers. -/
def Aligned (line : List UInt8) : Prop :=
  (line.length + 1) % 127 ≠ 0 ∧ (line.length + 1) % 127 ≠ 1

theorem readHeaders_lines {lines : List (List UInt8)} (hplain : ∀ line ∈ lines, Plain line)
    (haligned : ∀ line ∈ lines, Aligned line) :
    readHeaders (lines.flatMap (· ++ [13, 10]) ++ rest) contentLength =
      readHeaders rest (lines.foldl heard contentLength) := by
  induction lines generalizing contentLength with
  | nil => rfl
  | cons line lines ih =>
    obtain ⟨hzero, hone⟩ := haligned line List.mem_cons_self
    have hshape : (line :: lines).flatMap (· ++ [13, 10]) ++ rest =
        line ++ 13 :: 10 :: (lines.flatMap (· ++ [13, 10]) ++ rest) := by
      simp
    rw [hshape, readHeaders_line (hplain line List.mem_cons_self), if_neg hzero, if_neg hone,
      ih (fun l hl => hplain l (List.mem_cons_of_mem _ hl))
        fun l hl => haligned l (List.mem_cons_of_mem _ hl), List.foldl_cons]

/-- After a line that is not aligned the call fails, or takes what follows the line for the body. -/
theorem readHeaders_of_not_aligned {lines : List (List UInt8)}
    (hplain : ∀ line ∈ lines, Plain line) (hnot : ¬ ∀ line ∈ lines, Aligned line) :
    readHeaders (lines.flatMap (· ++ [13, 10]) ++ 13 :: 10 :: rest) contentLength = none ∨
      ∃ length stream, rest.length < stream.length ∧
        readHeaders (lines.flatMap (· ++ [13, 10]) ++ 13 :: 10 :: rest) contentLength =
          some (length, stream) := by
  induction lines generalizing contentLength with
  | nil => simp at hnot
  | cons line lines ih =>
    have hshape : (line :: lines).flatMap (· ++ [13, 10]) ++ 13 :: 10 :: rest =
        line ++ 13 :: 10 :: (lines.flatMap (· ++ [13, 10]) ++ 13 :: 10 :: rest) := by
      simp
    rw [hshape, readHeaders_line (hplain line List.mem_cons_self)]
    by_cases hzero : (line.length + 1) % 127 = 0
    · left
      rw [if_pos hzero]
    · rw [if_neg hzero]
      by_cases hone : (line.length + 1) % 127 = 1
      · right
        rw [if_pos hone]
        exact ⟨_, _, by simp only [List.length_append, List.length_cons]; omega, rfl⟩
      · rw [if_neg hone]
        refine ih (fun l hl => hplain l (List.mem_cons_of_mem _ hl)) fun hall => hnot ?_
        intro l hl
        obtain rfl | hl := List.mem_cons.mp hl
        · exact ⟨hzero, hone⟩
        · exact hall l hl

/-- The length announced is that of the last piece that looks like a `Content-Length` header. -/
theorem foldl_noteContentLength (pieces : List (List UInt8)) :
    pieces.foldl noteContentLength contentLength =
      ((pieces.filter startsContentLength).getLast?.map fun piece => atol (piece.drop 15)).getD
        contentLength := by
  induction pieces using List.reverseRecOn with
  | nil => rfl
  | append_singleton pieces piece ih =>
    rw [List.foldl_append, List.foldl_cons, List.foldl_nil, ih, List.filter_append]
    by_cases hkey : startsContentLength piece
    · simp [noteContentLength, hkey]
    · simp [noteContentLength, hkey]

theorem foldl_heard (lines : List (List UInt8)) :
    lines.foldl heard contentLength =
      (lines.flatMap (Lib.pieces 127)).foldl noteContentLength contentLength := by
  rw [List.foldl_flatMap]
  rfl

/-! ## The body -/

theorem readBody_eq (want : ℕ) (body stream : List UInt8) :
    readBody want body stream =
      (body ++ stream.take (want - body.length), stream.drop (want - body.length)) := by
  fun_induction readBody want body stream with
  | case1 body stream h ih =>
    rw [ih, List.append_assoc, List.length_append, List.length_take]
    obtain hle | hlt := Nat.le_total (want - body.length) stream.length
    · rw [Nat.min_eq_left hle, show want - (body.length + (want - body.length)) = 0 by omega]
      simp
    · rw [Nat.min_eq_right hlt, List.take_of_length_le hlt, List.drop_eq_nil_of_le hlt]
      simp
  | case2 body stream h =>
    rw [not_and_or, not_not] at h
    obtain h | rfl := h
    · rw [Nat.sub_eq_zero_of_le (Nat.le_of_not_lt h)]
      simp
    · simp

/-- The number of body bytes asked for. -/
def bodyWanted (contentLength : ℤ) (bodyLen : ℕ) : ℕ :=
  if contentLength ≥ 0 ∧ contentLength.toNat < bodyLen - 1 then contentLength.toNat
  else bodyLen - 1

theorem codeDigits_read : ∀ code < 1000, 100 ≤ code →
    atol (HttpResponse.codeDigits code) = code ∧ (32 : UInt8) ∉ HttpResponse.codeDigits code := by
  decide +kernel

theorem readHttpResponse_of_headers {code : ℕ} (hcode : 100 ≤ code ∧ code < 1000) (bodyLen : ℕ) :
    readHttpResponse ([72, 84, 84, 80, 47, 49, 46, 49] ++ 32 ::
        (HttpResponse.codeDigits code ++ 32 :: stream)) bodyLen =
      (readHeaders stream (-1)).map fun (contentLength, stream) =>
        if bodyLen > 0 then
          ⟨code, some (stream.take (bodyWanted contentLength bodyLen)),
            stream.drop (bodyWanted contentLength bodyLen)⟩
        else ⟨code, none, stream⟩ := by
  obtain ⟨hvalue, hblank⟩ := codeDigits_read code hcode.2 hcode.1
  have hversion : ∀ rest : List UInt8,
      readUntil 32 15 ([72, 84, 84, 80, 47, 49, 46, 49] ++ 32 :: rest) =
        ([72, 84, 84, 80, 47, 49, 46, 49], rest) :=
    fun rest => readUntil_of_lt (by decide) (by decide)
  have hstatus : readUntil 32 15 (HttpResponse.codeDigits code ++ 32 :: stream) =
      (HttpResponse.codeDigits code, stream) :=
    readUntil_of_lt hblank (by simp [HttpResponse.codeDigits])
  have hne : HttpResponse.codeDigits code ≠ [] := by simp [HttpResponse.codeDigits]
  have hpos : ¬ (code : ℤ) ≤ 0 := by omega
  unfold readHttpResponse
  simp only [hversion, hstatus, hvalue, hne, hpos, reduceCtorEq, if_false, readBody_eq]
  cases readHeaders stream (-1) with
  | none => rfl
  | some headers =>
    by_cases hbuf : bodyLen > 0
    · simp [hbuf, bodyWanted]
    · simp [hbuf]

theorem HttpResponse.plain_lines (r : HttpResponse) : ∀ line ∈ r.lines, Plain line := by
  intro line hline
  obtain rfl | hline := List.mem_cons.mp hline
  · exact Plain.of_text r.reason_text
  · obtain ⟨header, -, rfl⟩ := List.mem_map.mp hline
    exact header.plain_line

/-- What is asked for is what fits of the body, or all of it and more. -/
theorem take_bodyWanted_iff {contentLength : ℤ} {bodyLen : ℕ} {body : List UInt8} :
    (body.take (bodyWanted contentLength bodyLen) = body.take (bodyLen - 1) ∧
        body.drop (bodyWanted contentLength bodyLen) = body.drop (bodyLen - 1)) ↔
      contentLength < 0 ∨ ((min (bodyLen - 1) body.length : ℕ) : ℤ) ≤ contentLength := by
  unfold bodyWanted
  by_cases hneg : contentLength < 0
  · rw [if_neg (by omega)]
    simp [hneg]
  · by_cases hlt : contentLength.toNat < bodyLen - 1
    · rw [if_pos ⟨by omega, hlt⟩]
      constructor
      · intro h
        have hlen := congrArg List.length h.1
        rw [List.length_take, List.length_take] at hlen
        omega
      · intro h
        have hall : body.length ≤ contentLength.toNat := by omega
        rw [List.take_of_length_le hall, List.take_of_length_le (by omega),
          List.drop_eq_nil_of_le hall, List.drop_eq_nil_of_le (by omega)]
        exact ⟨rfl, rfl⟩
    · rw [if_neg (by omega)]
      exact ⟨fun _ => .inr (by omega), fun _ => ⟨rfl, rfl⟩⟩

/-! ## Which responses are read right -/

namespace HttpResponse
variable (r : HttpResponse) (bodyLen : ℕ)

/-- The length the reader hears of a response. -/
def heardLength : ℤ := r.pieces.foldl noteContentLength (-1)

theorem announced_iff :
    (∀ piece, (r.pieces.filter startsContentLength).getLast? = some piece →
        atol (piece.drop 15) < 0 ∨
          ((min (bodyLen - 1) r.body.length : ℕ) : ℤ) ≤ atol (piece.drop 15)) ↔
      r.heardLength < 0 ∨ ((min (bodyLen - 1) r.body.length : ℕ) : ℤ) ≤ r.heardLength := by
  rw [heardLength, foldl_noteContentLength]
  cases (r.pieces.filter startsContentLength).getLast? with
  | none => simp
  | some piece => simp

/-- A response whose lines are aligned is read up to its body. -/
theorem read_of_aligned (h : ∀ line ∈ r.lines, Aligned line) :
    readHttpResponse r.bytes bodyLen =
      some (if bodyLen > 0 then
          ⟨r.code, some (r.body.take (bodyWanted r.heardLength bodyLen)),
            r.body.drop (bodyWanted r.heardLength bodyLen)⟩
        else ⟨r.code, none, r.body⟩) := by
  rw [bytes, readHttpResponse_of_headers r.three_digits, readHeaders_lines r.plain_lines h,
    readHeaders_blank, foldl_heard]
  rfl

theorem received_iff_of_aligned (h : ∀ line ∈ r.lines, Aligned line) :
    r.Received bodyLen ↔
      r.heardLength < 0 ∨ ((min (bodyLen - 1) r.body.length : ℕ) : ℤ) ≤ r.heardLength := by
  rw [Received, read_of_aligned r bodyLen h, ← take_bodyWanted_iff]
  by_cases hbuf : bodyLen > 0
  · simp [hbuf]
  · obtain rfl : bodyLen = 0 := by omega
    simp [bodyWanted]

/-- After a line that is not aligned, a byte of the headers is taken for the body, if the call does
not fail. -/
theorem not_received_of_not_aligned (h : ¬ ∀ line ∈ r.lines, Aligned line) :
    ¬ r.Received bodyLen := by
  intro hreceived
  rw [Received, bytes, readHttpResponse_of_headers r.three_digits] at hreceived
  obtain hnone | ⟨length, stream, hlonger, hsome⟩ :=
    @readHeaders_of_not_aligned r.body (-1) _ r.plain_lines h
  · rw [hnone] at hreceived
    cases hreceived
  · rw [hsome, Option.map_some, Option.some_inj] at hreceived
    -- What is stored and what is left make up the stream after the headers.
    by_cases hbuf : bodyLen > 0
    · simp only [hbuf, if_true, HttpRead.mk.injEq, Option.some_inj, true_and] at hreceived
      have hwhole : stream = r.body := by
        rw [← List.take_append_drop (bodyWanted length bodyLen) stream, hreceived.1, hreceived.2,
          List.take_append_drop]
      exact Nat.ne_of_gt hlonger (congrArg List.length hwhole)
    · obtain rfl : bodyLen = 0 := by omega
      have hwhole : stream = r.body := by simpa using hreceived
      exact Nat.ne_of_gt hlonger (congrArg List.length hwhole)

end HttpResponse

theorem readHttpResponse_received_iff (r : HttpResponse) (bodyLen : ℕ) :
    r.Received bodyLen ↔ r.Readable bodyLen := by
  by_cases h : ∀ line ∈ r.lines, Aligned line
  · rw [r.received_iff_of_aligned bodyLen h, ← r.announced_iff bodyLen]
    exact ⟨fun hannounced => ⟨h, hannounced⟩, fun hreadable => hreadable.announced⟩
  · constructor
    · intro hreceived
      exact absurd hreceived (r.not_received_of_not_aligned bodyLen h)
    · intro hreadable
      exact absurd hreadable.aligned h

/-- An answer with a header of 126 bytes: its `'\r'` fills the line buffer. -/
def paddedResponse : HttpResponse where
  code := 201
  reason := [67, 114, 101, 97, 116, 101, 100]
  headers := [⟨[88], List.replicate 124 97, by decide, by simp [IsToken], by simp [IsText]⟩]
  body := [123, 125]
  three_digits := by decide
  reason_text := by simp [IsText]
  length_declared := by
    intro header hheader hname
    obtain rfl := List.mem_singleton.mp hheader
    cases hname

theorem readHttpResponse_loses_padded :
    ¬ ∀ (r : HttpResponse) (bodyLen : ℕ), r.Received bodyLen := by
  intro hall
  have hpadded : readHttpResponse paddedResponse.bytes 64 ≠
      some ⟨201, some [123, 125], []⟩ := by
    decide +kernel
  exact hpadded (hall paddedResponse 64)

/-! ## Short lines

The responses a server usually sends: every line fits the buffer with its end, and there is a reason
phrase. -/

theorem toLower_eq_colon {b : UInt8} : toLower b = 58 ↔ b = 58 := by
  unfold toLower
  split
  · next h =>
    have hb : b.toNat ≤ 90 := h.2
    constructor
    · intro hsum
      have hnat := congrArg UInt8.toNat hsum
      rw [UInt8.toNat_add] at hnat
      have hlow : 65 ≤ b.toNat := h.1
      have hfits : (b.toNat + (32 : UInt8).toNat) % 2 ^ 8 = b.toNat + 32 :=
        Nat.mod_eq_of_lt (by show b.toNat + 32 < 2 ^ 8; omega)
      rw [hfits] at hnat
      have h58 : b.toNat + 32 = 58 := hnat
      omega
    · rintro rfl
      exact absurd h (by decide)
  · rfl

/-- The name of a line that is taken for a `Content-Length` header. -/
theorem HttpHeader.isContentLength_of_starts (h : HttpHeader) (hkey : startsContentLength h.line) :
    h.IsContentLength := by
  have hprefix : (h.line.take 15).map toLower = contentLengthKey := by
    simpa [startsContentLength] using hkey
  have hline : h.line.map toLower = contentLengthKey ++ (h.line.drop 15).map toLower := by
    rw [← hprefix, ← List.map_append, List.take_append_drop]
  have hname : (h.line.map toLower).takeWhile (· ≠ 58) = h.name.map toLower := by
    rw [line, List.map_append, List.takeWhile_append_of_pos]
    · simp [toLower_eq_colon.mpr]
    · intro c hc
      obtain ⟨b, hb, rfl⟩ := List.mem_map.mp hc
      have hcolon : b ≠ 58 := by
        rintro rfl
        exact (h.name_token 58 hb).2.2 (by decide)
      simpa [toLower_eq_colon] using hcolon
  rw [IsContentLength, ← hname, hline]
  rfl

theorem HttpHeader.drop_line (h : HttpHeader) (hname : h.IsContentLength) :
    h.line.drop 15 = h.value := by
  have hlen : h.name.length = 14 := by
    rw [← List.length_map (f := toLower), hname]
    rfl
  rw [line, List.drop_append, hlen, List.drop_eq_nil_of_le (by omega)]
  rfl

/-- A number with blanks around it is read as far as 32 bits allow. -/
theorem HttpHeader.Declares.atol_eq {h : HttpHeader} {n : ℕ} (hn : h.Declares n) :
    atol h.value = min (n : ℤ) (2 ^ 31 - 1) := by
  obtain ⟨before, digits, after, hvalue, hblank, hne, hdigits, rfl⟩ := hn
  obtain ⟨d, ds, rfl⟩ := List.exists_cons_of_ne_nil hne
  have hspace : ∀ b ∈ before, isSpace b := by
    intro b hb
    obtain rfl | rfl := hblank b (List.mem_append_left _ hb) <;> decide
  have hd : 48 ≤ d ∧ d ≤ 57 := by simpa [isDigit] using hdigits d List.mem_cons_self
  have htext : h.value.dropWhile isSpace = d :: ds ++ after := by
    rw [hvalue, List.append_assoc, List.dropWhile_append_of_pos hspace, List.cons_append,
      List.dropWhile_cons_of_neg]
    have hlow : 48 ≤ d.toNat := hd.1
    simp only [isSpace, decide_eq_true_eq, not_or, not_and]
    refine ⟨?_, fun _ hle => ?_⟩
    · rintro rfl
      exact absurd hd.1 (by decide)
    · have hhigh : d.toNat ≤ 13 := hle
      omega
  have hafter : after.takeWhile isDigit = [] := by
    cases after with
    | nil => rfl
    | cons b after =>
      obtain rfl | rfl := hblank b (by simp) <;> rfl
  have hdigitsValue : digitsValue (d :: ds ++ after) = digitsValue (d :: ds) := by
    rw [digitsValue, digitsValue, List.takeWhile_append_of_pos hdigits, hafter, List.append_nil,
      List.takeWhile_eq_self_iff.mpr hdigits]
  rw [atol, htext]
  split
  · next heq =>
    obtain ⟨rfl, -⟩ := List.cons.inj heq
    exact absurd hd.1 (by decide)
  · next heq =>
    obtain ⟨rfl, -⟩ := List.cons.inj heq
    exact absurd hd.1 (by decide)
  · rw [hdigitsValue]

theorem HttpResponse.received_of_short_lines (r : HttpResponse) {bodyLen : ℕ}
    (hreason : r.reason ≠ []) (hkey : ¬ startsContentLength r.reason)
    (hshort : ∀ line ∈ r.lines, line.length < 126) (hbuf : bodyLen ≤ 2 ^ 31) :
    r.Received bodyLen := by
  have haligned : ∀ line ∈ r.lines, Aligned line := by
    intro line hline
    have hne : line ≠ [] := by
      obtain rfl | hline := List.mem_cons.mp hline
      · exact hreason
      · obtain ⟨header, -, rfl⟩ := List.mem_map.mp hline
        simp [HttpHeader.line]
    have hpos := List.length_pos_iff.mpr hne
    have hlt := hshort line hline
    exact ⟨by omega, by omega⟩
  have hpieces : r.pieces = r.lines := by
    rw [pieces, List.flatMap_congr fun line hline => pieces_of_lt (by have := hshort line hline; omega)]
    simp
  rw [r.received_iff_of_aligned bodyLen haligned, ← r.announced_iff bodyLen, hpieces]
  intro piece hpiece
  obtain ⟨hline, hstarts⟩ := List.mem_filter.mp (List.mem_of_getLast? hpiece)
  obtain rfl | hline := List.mem_cons.mp hline
  · exact absurd hstarts hkey
  · obtain ⟨header, hheader, rfl⟩ := List.mem_map.mp hline
    have hname := header.isContentLength_of_starts hstarts
    rw [header.drop_line hname, (r.length_declared header hheader hname).atol_eq]
    right
    omega

end OpenGps.Firmware
