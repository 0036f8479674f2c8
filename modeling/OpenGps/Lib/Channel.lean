import Mathlib.Data.List.Basic

/-!
# Bounded channels

A channel holds at most `cap` values and can be closed. A send on a closed channel and a second
close are panics, which the operations report as errors. What was buffered before the close can
still be received.
-/

namespace OpenGps.Lib

/-- `bounded` is the capacity given to `make`. -/
structure Channel (ε : Type) (cap : Nat) where
  buffer : List ε
  closed : Bool
  bounded : buffer.length ≤ cap
  deriving DecidableEq

inductive ChannelPanic where
  | sendOnClosed
  | closeOfClosed
  deriving DecidableEq

inductive Received (ε : Type) where
  | value (e : ε)
  | closed
  deriving DecidableEq

namespace Channel

variable {ε : Type} {cap : Nat}

def empty : Channel ε cap := ⟨[], false, Nat.zero_le _⟩

/-- A send in a `select` with a default case: `none` is the default case. -/
def trySend (c : Channel ε cap) (e : ε) : Except ChannelPanic (Option (Channel ε cap)) :=
  if c.closed then throw .sendOnClosed
  else if h : c.buffer.length < cap then
    return some ⟨c.buffer ++ [e], false, by rw [List.length_append]; exact h⟩
  else return none

def close (c : Channel ε cap) : Except ChannelPanic (Channel ε cap) :=
  if c.closed then throw .closeOfClosed else return { c with closed := true }

/-- `none` when the receiver has to wait. -/
def receive (c : Channel ε cap) : Option (Received ε × Channel ε cap) :=
  match h : c.buffer with
  | e :: rest =>
    have hrest : rest.length ≤ cap := by
      have hbounded := c.bounded
      rw [h] at hbounded
      exact Nat.le_of_succ_le hbounded
    some (.value e, ⟨rest, c.closed, hrest⟩)
  | [] => if c.closed then some (.closed, c) else none

theorem close_of_open {c : Channel ε cap} (h : c.closed = false) :
    c.close = .ok { c with closed := true } := by
  rw [close, h]
  rfl

/-- On an open channel the value is appended, or the buffer is full and nothing changes. -/
theorem trySend_of_open {c : Channel ε cap} (h : c.closed = false) (e : ε) :
    (∃ c', c.trySend e = .ok (some c') ∧ c'.buffer = c.buffer ++ [e] ∧ c'.closed = false) ∨
      c.trySend e = .ok none ∧ c.buffer.length = cap := by
  rw [trySend, h, if_neg (by simp)]
  by_cases hroom : c.buffer.length < cap
  · have hbounded : (c.buffer ++ [e]).length ≤ cap := by
      rw [List.length_append]
      exact hroom
    rw [dif_pos hroom]
    exact .inl ⟨⟨c.buffer ++ [e], false, hbounded⟩, rfl, rfl, rfl⟩
  · have hfull := c.bounded
    rw [dif_neg hroom]
    exact .inr ⟨rfl, by omega⟩

/-- A receive takes the oldest value, or reports the close of a drained channel. -/
theorem receive_cases {c c' : Channel ε cap} {r : Received ε} (h : c.receive = some (r, c')) :
    (∃ e, r = .value e ∧ c.buffer = e :: c'.buffer ∧ c'.closed = c.closed) ∨
      r = .closed ∧ c.closed = true ∧ c.buffer = [] ∧ c' = c := by
  unfold receive at h
  split at h
  · next e rest hbuffer =>
    cases h
    exact .inl ⟨e, rfl, hbuffer, rfl⟩
  · next hbuffer =>
    split at h
    · next hclosed =>
      cases h
      exact .inr ⟨rfl, hclosed, hbuffer, rfl⟩
    · cases h

theorem receive_of_cons {c : Channel ε cap} {e : ε} {rest : List ε} (h : c.buffer = e :: rest) :
    ∃ c', c.receive = some (.value e, c') ∧ c'.buffer = rest := by
  unfold receive
  split
  · next e' rest' hbuffer =>
    obtain ⟨rfl, rfl⟩ := List.cons.inj (hbuffer.symm.trans h)
    exact ⟨_, rfl, rfl⟩
  · next hempty =>
    rw [hempty] at h
    cases h

end Channel

end OpenGps.Lib
