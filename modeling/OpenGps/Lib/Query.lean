import Mathlib.Data.List.Pairwise
import Mathlib.Data.List.Sort

/-!
# Clauses of a query

The rows of a query are a list. `ORDER BY` on a key that no two rows share puts them in the strict
order of the key, and there is one list of these rows in that order; `DISTINCT ON` keeps the first
row of each group.
-/

namespace OpenGps.Lib.Query

variable {α β : Type} {key : α → β} {rows rows' : List α}

/-! ## Order -/

section Order
variable [LinearOrder β]

/-- Rows with different keys are put in the strict order of the keys. -/
theorem orderBy_pairwise (key : α → β) (h : rows.Pairwise fun a b => key a ≠ key b) :
    (rows.mergeSort fun a b => key a ≤ key b).Pairwise fun a b => key a < key b := by
  have hne : (rows.mergeSort fun a b => key a ≤ key b).Pairwise fun a b => key a ≠ key b :=
    (List.mergeSort_perm rows _).symm.pairwise h fun h => Ne.symm h
  have hle : (rows.mergeSort fun a b => key a ≤ key b).Pairwise fun a b => key a ≤ key b := by
    have : IsTrans α fun a b => key a ≤ key b := ⟨fun _ _ _ hab hbc => hab.trans hbc⟩
    have : Std.Total fun a b => key a ≤ key b := ⟨fun a b => le_total (key a) (key b)⟩
    exact List.pairwise_mergeSort' _ _
  exact (hle.and hne).imp fun h => lt_of_le_of_ne h.1 h.2

omit [LinearOrder β] in
theorem ne_of_pairwise (h : rows.Pairwise fun a b => key a ≠ key b) {a b : α} (ha : a ∈ rows)
    (hb : b ∈ rows) (hne : a ≠ b) : key a ≠ key b := by
  have : Std.Symm fun a b => key a ≠ key b := ⟨fun _ _ => Ne.symm⟩
  exact h.forall ha hb hne

/-- Two lists of the same rows in the strict order of the keys are equal. -/
theorem eq_of_pairwise_lt (key : α → β) (h : rows.Pairwise fun a b => key a < key b)
    (h' : rows'.Pairwise fun a b => key a < key b) (hmem : ∀ a, a ∈ rows ↔ a ∈ rows') :
    rows = rows' := by
  have hperm : rows.Perm rows' := by
    apply (List.perm_ext_iff_of_nodup ?_ ?_).mpr hmem
    · exact h.imp fun hlt heq => hlt.ne (congrArg key heq)
    · exact h'.imp fun hlt heq => hlt.ne (congrArg key heq)
  refine hperm.eq_of_pairwise (fun a b _ _ hab hba => ?_) h h'
  exact absurd hba hab.asymm

end Order

/-! ## Groups -/

section Groups
variable [DecidableEq β]

/-- `DISTINCT ON (key)`. -/
def distinctOn (key : α → β) : List α → List α
  | [] => []
  | row :: rows => row :: (distinctOn key rows).filter fun x => key x ≠ key row

/-- The rows that come before all others of their group. -/
theorem mem_distinctOn {x : α} :
    x ∈ distinctOn key rows ↔
      ∃ i : ℕ, rows[i]? = some x ∧ ∀ j < i, ∀ y, rows[j]? = some y → key y ≠ key x := by
  induction rows with
  | nil => simp [distinctOn]
  | cons row rows ih =>
    rw [distinctOn, List.mem_cons, List.mem_filter, ih, decide_eq_true_iff]
    constructor
    · rintro (rfl | ⟨⟨i, hi, hfirst⟩, hne⟩)
      · exact ⟨0, rfl, fun j hj => absurd hj (Nat.not_lt_zero j)⟩
      · refine ⟨i + 1, hi, fun j hj y hy => ?_⟩
        cases j with
        | zero =>
          obtain rfl := Option.some.inj hy
          exact Ne.symm hne
        | succ j => exact hfirst j (Nat.lt_of_succ_lt_succ hj) y hy
    · rintro ⟨_ | i, hi, hfirst⟩
      · exact .inl (Option.some.inj hi).symm
      · refine .inr ⟨⟨i, hi, fun j hj y hy => ?_⟩, ?_⟩
        · exact hfirst (j + 1) (Nat.succ_lt_succ hj) y hy
        · exact Ne.symm (hfirst 0 (Nat.succ_pos i) row rfl)

end Groups

end OpenGps.Lib.Query
