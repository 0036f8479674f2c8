import Mathlib.Algebra.Order.Ring.Int
import Mathlib.Data.List.Basic
import Mathlib.Data.Nat.Notation

/-!
# Calls in flight

The calls of a server are a list of program counters. A step of the `k`-th call replaces its
counter, and a new call is appended; the facts about the other calls, and that no two of them stand
at the same point with the same datum, are kept.
-/

namespace OpenGps.Lib.Calls

variable {π α β : Type} {calls : List π} {pc : π} {k : ℕ}

/-- A fact about every call holds after a step if it holds of the call that moved and of the
others. -/
theorem forall_mem_set {P : π → Prop} (hself : P pc)
    (hothers : ∀ j b, j ≠ k → calls[j]? = some b → P b) : ∀ b ∈ calls.set k pc, P b := by
  intro b hb
  obtain ⟨j, hj⟩ := List.mem_iff_getElem?.mp hb
  rw [List.getElem?_set] at hj
  split at hj
  · split at hj
    · cases hj
      exact hself
    · cases hj
  · next hne => exact hothers j b (Ne.symm hne) hj

/-- The `i`-th call is at a point, with any data besides those that `point` fixes. -/
def IsAt (calls : List π) (point : α → β → π) (i : ℕ) : Prop := ∃ a b, calls[i]? = some (point a b)

variable (point : α → β → π)

/-- One call at most is at the point after a step, if there was none when the step led there. -/
theorem unique_set (h : ∀ i j, IsAt calls point i → IsAt calls point j → i = j)
    (hnew : ∀ a b, pc = point a b → ∀ i, ¬ IsAt calls point i) :
    ∀ i j, IsAt (calls.set k pc) point i → IsAt (calls.set k pc) point j → i = j := by
  have hmoved : ∀ i, IsAt (calls.set k pc) point i →
      i = k ∧ (∃ a b, pc = point a b) ∨ IsAt calls point i := by
    rintro i ⟨a, b, hi⟩
    rw [List.getElem?_set] at hi
    split at hi
    · next hki =>
      split at hi
      · cases hi
        exact .inl ⟨hki.symm, a, b, rfl⟩
      · cases hi
    · exact .inr ⟨a, b, hi⟩
  intro i j hi hj
  rcases hmoved i hi with ⟨hik, a, b, hpc⟩ | hi
  · rcases hmoved j hj with ⟨hjk, -⟩ | hj
    · exact hik.trans hjk.symm
    · exact absurd hj (hnew a b hpc j)
  · rcases hmoved j hj with ⟨-, a, b, hpc⟩ | hj
    · exact absurd hi (hnew a b hpc i)
    · exact h i j hi hj

theorem isAt_append (hpc : ∀ a b, pc ≠ point a b) {i : ℕ} (h : IsAt (calls ++ [pc]) point i) :
    IsAt calls point i := by
  obtain ⟨a, b, hi⟩ := h
  rw [List.getElem?_append] at hi
  split at hi
  · exact ⟨a, b, hi⟩
  · exact absurd (List.mem_singleton.mp (List.mem_of_getElem? hi)).symm (hpc a b)

/-- What the calls hold together changes by what the one that moved holds. -/
theorem sum_map_set (f : π → ℕ) {pc' : π} (h : calls[k]? = some pc) :
    ((calls.set k pc').map f).sum + f pc = (calls.map f).sum + f pc' := by
  induction calls generalizing k with
  | nil => cases h
  | cons b calls ih =>
    cases k with
    | zero =>
      cases h
      simp only [List.set_cons_zero, List.map_cons, List.sum_cons]
      omega
    | succ k =>
      have htail := ih h
      simp only [List.set_cons_succ, List.map_cons, List.sum_cons]
      omega

end OpenGps.Lib.Calls
