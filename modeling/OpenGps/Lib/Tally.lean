import Mathlib.Algebra.BigOperators.Group.List.Lemmas
import Mathlib.Algebra.Order.Ring.Int
import Mathlib.Data.List.Nodup

/-!
# Counts by key

A list is counted by the keys of its elements, over a list of distinct keys. No element is left out
or counted twice when each has its key among them.
-/

namespace OpenGps.Lib

variable {α κ : Type} [DecidableEq κ]

/-- How many elements have the key. -/
def tally (key : α → κ) (xs : List α) (k : κ) : ℕ := xs.countP fun x => key x = k

@[simp] theorem tally_nil (key : α → κ) : tally key [] = fun _ => 0 := rfl

theorem tally_cons (key : α → κ) (x : α) (xs : List α) :
    tally key (x :: xs) = fun k => tally key xs k + if key x = k then 1 else 0 := by
  funext k
  unfold tally
  rw [List.countP_cons]
  simp only [decide_eq_true_eq]

theorem sum_indicator {ks : List κ} (h : ks.Nodup) {l : κ} (hl : l ∈ ks) :
    (ks.map fun k => if l = k then 1 else 0).sum = 1 := by
  induction ks with
  | nil => cases hl
  | cons k ks ih =>
    obtain ⟨hk, h⟩ := List.nodup_cons.mp h
    rw [List.map_cons, List.sum_cons]
    obtain rfl | hl := List.mem_cons.mp hl
    · -- The key is not among the others.
      have hrest : (ks.map fun k => if l = k then 1 else 0).sum = 0 := by
        refine List.sum_eq_zero fun n hn => ?_
        obtain ⟨k', hk', rfl⟩ := List.mem_map.mp hn
        refine if_neg ?_
        rintro rfl
        exact hk hk'
      rw [if_pos rfl, hrest]
    · have hne : l ≠ k := ne_of_mem_of_not_mem hl hk
      rw [if_neg hne, ih h hl]

theorem sum_tally {key : α → κ} {xs : List α} {ks : List κ} (h : ks.Nodup)
    (hmem : ∀ x ∈ xs, key x ∈ ks) : (ks.map (tally key xs)).sum = xs.length := by
  induction xs with
  | nil => simp
  | cons x xs ih =>
    obtain ⟨hx, hmem⟩ := List.forall_mem_cons.mp hmem
    rw [tally_cons, List.sum_map_add, ih hmem, sum_indicator h hx, List.length_cons]

theorem nodup_eraseDups (xs : List κ) : xs.eraseDups.Nodup := by
  induction hn : xs.length using Nat.strong_induction_on generalizing xs with
  | _ n ih =>
    cases xs with
    | nil => exact List.nodup_nil
    | cons x xs =>
      rw [List.eraseDups_cons, List.nodup_cons, List.mem_eraseDups]
      refine ⟨by simp, ih _ ?_ _ rfl⟩
      rw [← hn, List.length_cons]
      exact Nat.lt_succ_of_le (List.length_filter_le _ _)

end OpenGps.Lib
