import Mathlib.Data.List.Basic
import Mathlib.Logic.Function.Basic

/-!
# Memory that is written through a pointer

What a piece of code stores, and where: the memory after it and the offsets it stored to. A writer
that appends keeps a text at the start of the memory and stays below a bound.
-/

namespace OpenGps.Lib

variable {α : Type}

structure OutputBuffer (α : Type) where
  values : ℕ → α
  /-- The offsets that were stored to, the last one first. -/
  written : List ℕ

namespace OutputBuffer

/-- Memory of any contents, before anything is stored. -/
def fresh (values : ℕ → α) : OutputBuffer α where
  values
  written := []

def put (b : OutputBuffer α) (offset : ℕ) (x : α) : OutputBuffer α where
  values := Function.update b.values offset x
  written := offset :: b.written

def putAll (b : OutputBuffer α) (offset : ℕ) : List α → OutputBuffer α
  | [] => b
  | x :: xs => (b.put offset x).putAll (offset + 1) xs

/-- The `n` values at the start. -/
def read (b : OutputBuffer α) (n : ℕ) : List α := (List.range n).map b.values

/-- Nothing was stored at or beyond `n`. -/
def Within (b : OutputBuffer α) (n : ℕ) : Prop := ∀ offset ∈ b.written, offset < n

/-- A text at the start, and nothing stored at or beyond `n`. -/
structure Holds (b : OutputBuffer α) (n : ℕ) (text : List α) : Prop where
  text : b.read text.length = text
  within : b.Within n

variable {b : OutputBuffer α} {n offset : ℕ} {text xs : List α} {x : α}

theorem within_fresh (values : ℕ → α) (n : ℕ) : (fresh values).Within n := by
  intro offset h
  exact absurd h List.not_mem_nil

theorem Within.put (h : b.Within n) (hoffset : offset < n) : (b.put offset x).Within n := by
  intro o ho
  rcases List.mem_cons.mp ho with rfl | ho
  · exact hoffset
  · exact h o ho

@[simp] theorem length_read (b : OutputBuffer α) (n : ℕ) : (b.read n).length = n := by
  rw [read, List.length_map, List.length_range]

theorem read_succ (b : OutputBuffer α) (n : ℕ) : b.read (n + 1) = b.read n ++ [b.values n] := by
  rw [read, List.range_succ, List.map_append]
  rfl

/-- What is stored further on leaves the start alone. -/
theorem read_put_of_le (h : n ≤ offset) : (b.put offset x).read n = b.read n := by
  refine List.map_congr_left fun o ho => ?_
  exact Function.update_of_ne (Nat.ne_of_lt (Nat.lt_of_lt_of_le (List.mem_range.mp ho) h)) _ _

theorem read_take (h : b.read (text ++ xs).length = text ++ xs) : b.read text.length = text := by
  rw [List.length_append, read, List.range_add, List.map_append] at h
  exact List.append_inj_left h (length_read b _)

namespace Holds

theorem put (h : b.Holds n text) (hfits : text.length < n) :
    (b.put text.length x).Holds n (text ++ [x]) where
  text := by
    rw [List.length_append, List.length_singleton, read_succ, read_put_of_le (Nat.le_refl _),
      h.text]
    exact congrArg (fun y => text ++ [y]) (Function.update_self ..)
  within := h.within.put hfits

theorem putAll (h : b.Holds n text) (hfits : text.length + xs.length ≤ n) :
    (b.putAll text.length xs).Holds n (text ++ xs) := by
  induction xs generalizing b text with
  | nil =>
    rw [List.append_nil]
    exact h
  | cons x xs ih =>
    rw [List.length_cons] at hfits
    have hput := h.put (x := x) (by omega)
    have hall := ih hput (by rw [List.length_append, List.length_singleton]; omega)
    rw [List.length_append, List.length_singleton, List.append_assoc] at hall
    exact hall

/-- What was stored last may be stored over. -/
theorem left (h : b.Holds n (text ++ xs)) : b.Holds n text where
  text := read_take h.text
  within := h.within

theorem nil (h : b.Within n) : b.Holds n [] where
  text := rfl
  within := h

end Holds

end OutputBuffer

end OpenGps.Lib
