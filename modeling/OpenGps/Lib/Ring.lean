import Mathlib.Data.List.Basic
import Mathlib.Data.Nat.ModEq

/-!
# Rings: a list laid out in a circular array

`Represents slots cap tail xs` says that the array `slots` of `cap` cells holds the list `xs` from
cell `tail` on, wrapping at `cap`. Cells outside the list are unconstrained. The three updates of a
queue — append, drop from the front, and append to a full ring over its oldest element — are the
three lemmas below, and `pushDropOldest` is what they compute on the list.
-/

namespace OpenGps.Lib.Ring

variable {β : Type}

/-- Appending to a list of at most `cap` elements; a full list loses its oldest element first. -/
def pushDropOldest (cap : Nat) (xs : List β) (x : β) : List β :=
  if xs.length < cap then xs ++ [x] else xs.drop 1 ++ [x]

/-- Two positions of a list of at most `cap` elements lie in different cells. -/
theorem index_injective {cap tail i j : Nat} (hi : i < cap) (hj : j < cap)
    (h : (tail + i) % cap = (tail + j) % cap) : i = j := by
  have h' : i ≡ j [MOD cap] := Nat.ModEq.add_left_cancel' tail h
  exact Nat.ModEq.eq_of_lt_of_lt h' hi hj

theorem index_shift {cap tail n i : Nat} :
    ((tail + n) % cap + i) % cap = (tail + (n + i)) % cap := by
  rw [Nat.mod_add_mod, Nat.add_assoc]

structure Represents (slots : Nat → Option β) (cap tail : Nat) (xs : List β) : Prop where
  length_le : xs.length ≤ cap
  get : ∀ i (h : i < xs.length), slots ((tail + i) % cap) = some xs[i]

namespace Represents

variable {slots slots' : Nat → Option β} {cap tail : Nat} {xs : List β}

theorem nil : Represents slots cap tail [] :=
  ⟨Nat.zero_le _, fun _ h => absurd h (Nat.not_lt_zero _)⟩

/-- Dropping from the front moves the tail. -/
theorem drop (h : Represents slots cap tail xs) (n : Nat) :
    Represents slots cap ((tail + n) % cap) (xs.drop n) where
  length_le := by
    have := h.length_le
    simp only [List.length_drop]
    omega
  get i hi := by
    simp only [List.length_drop] at hi
    rw [index_shift, h.get (n + i) (by omega), List.getElem_drop]

/-- Storing in the first free cell appends. Only occupied cells have to be kept. -/
theorem push (h : Represents slots cap tail xs) {x : β} (hroom : xs.length < cap)
    (hnew : slots' ((tail + xs.length) % cap) = some x)
    (hold : ∀ k y, k ≠ (tail + xs.length) % cap → slots k = some y → slots' k = some y) :
    Represents slots' cap tail (xs ++ [x]) where
  length_le := by simp only [List.length_append, List.length_singleton]; omega
  get i hi := by
    simp only [List.length_append, List.length_singleton] at hi
    by_cases hlast : i = xs.length
    · subst hlast
      simpa using hnew
    · have hix : i < xs.length := by omega
      have hcell : (tail + i) % cap ≠ (tail + xs.length) % cap := fun he =>
        hlast (index_injective (by omega) hroom he)
      rw [hold _ _ hcell (h.get i hix), List.getElem_append_left hix]

/-- Storing over the oldest element of a full ring drops it. -/
theorem pushFull (h : Represents slots cap tail xs) {x : β} (hcap : 0 < cap) (htail : tail < cap)
    (hfull : xs.length = cap) (hnew : slots' tail = some x)
    (hold : ∀ k y, k ≠ tail → slots k = some y → slots' k = some y) :
    Represents slots' cap ((tail + 1) % cap) (xs.drop 1 ++ [x]) := by
  have hlen : (xs.drop 1).length = cap - 1 := by simp [hfull]
  have hcell : ((tail + 1) % cap + (xs.drop 1).length) % cap = tail := by
    rw [index_shift, hlen, show 1 + (cap - 1) = cap by omega, Nat.add_mod_right,
      Nat.mod_eq_of_lt htail]
  apply (h.drop 1).push (by omega)
  · rw [hcell]; exact hnew
  · rw [hcell]; exact hold

end Represents

end OpenGps.Lib.Ring
