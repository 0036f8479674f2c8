import Mathlib.Data.List.Basic

/-!
# Lines read through a bounded buffer

A reader that fills a buffer of `n` symbols up to a terminator hands a long line out in pieces. The
terminator is consumed only by a read that does not fill the buffer, so a line whose length is a
multiple of `n` ends with an empty read.
-/

namespace OpenGps.Lib

variable {α : Type} [DecidableEq α] {t : α} {n : ℕ} {line rest : List α}

/-- Reads up to `n` symbols, or up to the terminator, which is consumed and not stored. -/
def readUntil (t : α) : ℕ → List α → List α × List α
  | 0, stream => ([], stream)
  | _ + 1, [] => ([], [])
  | n + 1, c :: stream =>
    if c = t then ([], stream)
    else
      let (line, rest) := readUntil t n stream
      (c :: line, rest)

theorem readUntil_of_lt (ht : t ∉ line) (hn : line.length < n) :
    readUntil t n (line ++ t :: rest) = (line, rest) := by
  induction line generalizing n with
  | nil =>
    obtain ⟨m, rfl⟩ := Nat.exists_eq_succ_of_ne_zero (Nat.ne_zero_of_lt hn)
    simp [readUntil]
  | cons c line ih =>
    obtain ⟨m, rfl⟩ := Nat.exists_eq_succ_of_ne_zero (Nat.ne_zero_of_lt hn)
    obtain ⟨hc, ht⟩ : t ≠ c ∧ t ∉ line := by simpa using ht
    have htail := ih ht (Nat.lt_of_succ_lt_succ hn)
    simp [readUntil, Ne.symm hc, htail]

theorem readUntil_of_le (ht : t ∉ line) (hn : n ≤ line.length) :
    readUntil t n (line ++ rest) = (line.take n, line.drop n ++ rest) := by
  induction line generalizing n with
  | nil =>
    obtain rfl : n = 0 := Nat.le_zero.mp hn
    rfl
  | cons c line ih =>
    cases n with
    | zero => rfl
    | succ m =>
      obtain ⟨hc, ht⟩ : t ≠ c ∧ t ∉ line := by simpa using ht
      have htail := ih ht (Nat.le_of_succ_le_succ hn)
      simp [readUntil, Ne.symm hc, htail]

theorem length_readUntil_le (t : α) (n : ℕ) (stream : List α) :
    (readUntil t n stream).1.length + (readUntil t n stream).2.length ≤ stream.length := by
  induction stream generalizing n with
  | nil => cases n <;> simp [readUntil]
  | cons c stream ih =>
    cases n with
    | zero => simp [readUntil]
    | succ m =>
      by_cases hc : c = t
      · simp [readUntil, hc]
      · have htail := ih m
        simp only [readUntil, hc, if_false, List.length_cons]
        omega

/-- A read that stores something makes the stream shorter. -/
theorem length_readUntil_lt {stream : List α} (h : (readUntil t n stream).1 ≠ []) :
    (readUntil t n stream).2.length < stream.length := by
  have hstored := List.length_pos_iff.mpr h
  have hle := length_readUntil_le t n stream
  omega

/-- A line cut off every `n` symbols; the last piece is shorter than `n`, and may be empty. -/
def pieces (n : ℕ) (line : List α) : List (List α) :=
  if 0 < n ∧ n ≤ line.length then line.take n :: pieces n (line.drop n) else [line]
termination_by line.length
decreasing_by
  rw [List.length_drop]
  omega

omit [DecidableEq α] in
theorem pieces_of_lt (h : line.length < n) : pieces n line = [line] := by
  rw [pieces, if_neg (by omega)]

omit [DecidableEq α] in
theorem pieces_of_le (hn : 0 < n) (h : n ≤ line.length) :
    pieces n line = line.take n :: pieces n (line.drop n) := by
  rw [pieces, if_pos ⟨hn, h⟩]

end OpenGps.Lib
