import Mathlib.Algebra.BigOperators.Group.List.Basic
import Mathlib.Algebra.Order.Ring.Int
import Mathlib.Data.List.Dedup
import Mathlib.Order.Lattice

/-!
# Consecutive pairs

The pairs of neighbours in a list, and the pairs at the seams of a list that is cut into parts. The
pairs of the whole are those of the parts and those at the seams.
-/

namespace OpenGps.Lib

variable {α : Type}

def pairs (l : List α) : List (α × α) := l.zip l.tail

/-- The last of a part and the first of the next, for parts that are not empty. -/
def seams : List (List α) → List (α × α)
  | a :: b :: parts => (a.getLast?.toList.zip b.head?.toList) ++ seams (b :: parts)
  | _ => []

@[simp] theorem pairs_nil : pairs ([] : List α) = [] := rfl

@[simp] theorem pairs_singleton (x : α) : pairs [x] = [] := rfl

@[simp] theorem pairs_cons_cons (x y : α) (l : List α) :
    pairs (x :: y :: l) = (x, y) :: pairs (y :: l) := rfl

theorem pairs_map {β : Type} (f : α → β) (l : List α) :
    pairs (l.map f) = (pairs l).map fun p => (f p.1, f p.2) := by
  rw [pairs, ← List.map_tail, List.zip_map, pairs]
  rfl

theorem pairs_append (x y : α) (l m : List α) :
    pairs (l ++ x :: y :: m) = pairs (l ++ [x]) ++ (x, y) :: pairs (y :: m) := by
  induction l with
  | nil => rfl
  | cons a l ih =>
    cases l with
    | nil => rfl
    | cons b l =>
      simp only [List.cons_append, pairs_cons_cons] at ih ⊢
      rw [ih]

theorem pairs_flatten {parts : List (List α)} (h : [] ∉ parts) :
    (pairs parts.flatten).Perm (parts.flatMap pairs ++ seams parts) := by
  induction parts with
  | nil => exact .nil
  | cons a parts ih =>
    obtain ⟨ha, hparts⟩ : ¬ [] = a ∧ [] ∉ parts := by simpa using h
    cases parts with
    | nil => simp [seams]
    | cons b parts =>
      have hb : ¬ [] = b := fun hb => hparts (hb ▸ List.mem_cons_self)
      -- The end of the first part and the start of the second.
      obtain ⟨l, x, rfl⟩ := List.eq_nil_or_concat a |>.resolve_left (Ne.symm ha)
      obtain ⟨y, m, rfl⟩ := List.exists_cons_of_ne_nil (Ne.symm hb)
      have hwhole : pairs ((l.concat x :: (y :: m) :: parts).flatten) =
          pairs (l.concat x) ++ (x, y) :: pairs ((y :: m) :: parts).flatten := by
        simpa using pairs_append x y l (m ++ parts.flatten)
      have hseams : seams (l.concat x :: (y :: m) :: parts) =
          (x, y) :: seams ((y :: m) :: parts) := by
        simp [seams]
      rw [hwhole, hseams, List.flatMap_cons, List.append_assoc]
      exact ((ih hparts).cons _ |>.trans List.perm_middle.symm).append_left _

/-- The differences of neighbours add up to that of the ends. -/
theorem sum_pairs_sub (first last : ℤ) (l : List ℤ) (h : (first :: l).getLast? = some last) :
    ((pairs (first :: l)).map fun p => p.2 - p.1).sum = last - first := by
  induction l generalizing first with
  | nil =>
    obtain rfl : first = last := by simpa using h
    simp
  | cons next l ih =>
    have htail : (next :: l).getLast? = some last := by simpa using h
    simp only [pairs_cons_cons, List.map_cons, List.sum_cons, ih next htail]
    omega

/-- In order, each step up brings one new value. -/
theorem length_dedup_of_sorted {first : ℤ} {l : List ℤ} (h : (first :: l).Pairwise (· ≤ ·)) :
    (first :: l).dedup.length = ((pairs (first :: l)).countP fun p => p.1 < p.2) + 1 := by
  induction l generalizing first with
  | nil => rfl
  | cons next l ih =>
    obtain ⟨hfirst, hrest⟩ := List.pairwise_cons.mp h
    rw [pairs_cons_cons, List.countP_cons]
    by_cases hlt : first < next
    · have hnew : first ∉ next :: l := by
        intro hmem
        have hle : next ≤ first := by
          obtain hmem | hmem := List.mem_cons.mp hmem
          · exact hmem.ge
          · exact (List.pairwise_cons.mp hrest).1 first hmem
        omega
      rw [List.dedup_cons_of_notMem hnew, List.length_cons, ih hrest, if_pos (by simpa using hlt)]
    · have hseen : first = next := le_antisymm (hfirst next List.mem_cons_self) (not_lt.mp hlt)
      rw [List.dedup_cons_of_mem (hseen ▸ List.mem_cons_self), ih hrest, if_neg (by simpa using hlt)]

end OpenGps.Lib
