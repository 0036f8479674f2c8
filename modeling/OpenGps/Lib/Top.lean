import Mathlib.Data.List.Dedup
import OpenGps.Lib.Query

/-!
# The greatest elements of a list

The `k` elements of a list with the greatest keys, in the order of the keys. They can be kept while
the elements arrive: those of the whole are those of the ones kept and the new one. Two keys select
the same elements in the same order when they agree on what is below each of them.
-/

namespace OpenGps.Lib

variable {α β γ : Type} [LinearOrder β] [LinearOrder γ]

/-- The elements of `top` are the `k` of `xs` with the greatest keys, in their order. -/
structure IsTop (key : α → β) (k : ℕ) (xs top : List α) : Prop where
  ascending : top.Pairwise fun a b => key a < key b
  subset : ∀ a ∈ top, a ∈ xs
  short : top.length ≤ k
  rest : ∀ a ∈ xs, a ∉ top → top.length = k ∧ ∀ b ∈ top, key a < key b

namespace IsTop

variable {key : α → β} {k : ℕ} {xs ys top top' : List α} {x : α}

theorem nodup (h : IsTop key k xs top) : top.Nodup :=
  h.ascending.imp fun hlt heq => hlt.ne (congrArg key heq)

theorem congr (h : IsTop key k xs top) (hmem : ∀ a, a ∈ xs ↔ a ∈ ys) : IsTop key k ys top where
  ascending := h.ascending
  subset a ha := (hmem a).mp (h.subset a ha)
  short := h.short
  rest a ha := h.rest a ((hmem a).mpr ha)

theorem concat_of_mem (h : IsTop key k xs top) (hx : x ∈ xs) : IsTop key k (xs ++ [x]) top := by
  refine h.congr fun a => ?_
  rw [List.mem_append, List.mem_singleton]
  refine ⟨.inl, fun ha => ha.elim id ?_⟩
  rintro rfl
  exact hx

theorem mem_of_mem (h : IsTop key k xs top) (h' : IsTop key k xs top') {a : α} (ha : a ∈ top) :
    a ∈ top' := by
  by_contra hnot
  obtain ⟨hfull, hbelow⟩ := h'.rest a (h.subset a ha) hnot
  -- All of the other list are in this one, and so is `a`.
  have hsubset : a :: top' ⊆ top := by
    refine List.cons_subset.mpr ⟨ha, fun b hb => ?_⟩
    by_contra hb'
    exact (hbelow b hb).asymm ((h.rest b (h'.subset b hb) hb').2 a ha)
  have hlength := (List.subperm_of_subset (List.nodup_cons.mpr ⟨hnot, h'.nodup⟩) hsubset).length_le
  rw [List.length_cons, hfull] at hlength
  exact absurd (hlength.trans h.short) (Nat.not_succ_le_self k)

theorem unique (h : IsTop key k xs top) (h' : IsTop key k xs top') : top = top' :=
  Query.eq_of_pairwise_lt key h.ascending h'.ascending fun _ => ⟨h.mem_of_mem h', h'.mem_of_mem h⟩

/-- Of a list in the order of the keys, the greatest are the last. -/
theorem drop (h : xs.Pairwise fun a b => key a < key b) :
    IsTop key k xs (xs.drop (xs.length - k)) where
  ascending := h.drop
  subset a ha := List.mem_of_mem_drop ha
  short := by
    rw [List.length_drop]
    omega
  rest a ha hnot := by
    have hsplit := List.take_append_drop (xs.length - k) xs
    have htake : a ∈ xs.take (xs.length - k) := by
      rw [← hsplit] at ha
      exact (List.mem_append.mp ha).resolve_right hnot
    have hpos := List.length_pos_of_mem htake
    rw [List.length_take] at hpos
    constructor
    · rw [List.length_drop]
      omega
    · rw [← hsplit, List.pairwise_append] at h
      exact fun b hb => h.2.2 a htake b hb

/-- An element arrives: only the ones that were kept have to be looked at. -/
theorem concat (h : IsTop key k xs top) (h' : IsTop key k (top ++ [x]) top') :
    IsTop key k (xs ++ [x]) top' := by
  refine ⟨h'.ascending, fun a ha => ?_, h'.short, fun a ha hnot => ?_⟩
  · obtain ha | ha := List.mem_append.mp (h'.subset a ha)
    · exact List.mem_append_left _ (h.subset a ha)
    · exact List.mem_append_right _ ha
  · by_cases hkept : a ∈ top ++ [x]
    · exact h'.rest a hkept hnot
    rw [List.mem_append, not_or] at hkept
    obtain ⟨hfull, hbelow⟩ := h.rest a ((List.mem_append.mp ha).resolve_right hkept.2) hkept.1
    by_cases hall : top ⊆ top'
    · -- The ones that were kept fill the new list, too.
      have hlength := (List.subperm_of_subset h.nodup hall).length_le
      refine ⟨le_antisymm h'.short (hfull ▸ hlength), fun b hb => ?_⟩
      obtain hold | hnew := List.mem_append.mp (h'.subset b hb)
      · exact hbelow b hold
      · obtain rfl := List.mem_singleton.mp hnew
        by_cases hbtop : b ∈ top
        · exact hbelow b hbtop
        · have hmore := (List.subperm_of_subset (List.nodup_cons.mpr ⟨hbtop, h.nodup⟩)
            (List.cons_subset.mpr ⟨hb, hall⟩)).length_le
          rw [List.length_cons, hfull] at hmore
          exact absurd (hmore.trans h'.short) (Nat.not_succ_le_self k)
    · obtain ⟨c, hc, hc'⟩ : ∃ c ∈ top, c ∉ top' := by
        simpa [List.subset_def] using hall
      obtain ⟨hfull', hbelow'⟩ := h'.rest c (List.mem_append_left _ hc) hc'
      exact ⟨hfull', fun b hb => (hbelow c hc).trans (hbelow' b hb)⟩

/-- Two keys select the same list if and only if they agree on what is below its elements. -/
theorem eq_iff {f : α → β} {g : α → γ} (h : IsTop f k xs top) (h' : IsTop g k xs top') :
    top = top' ↔ ∀ b ∈ top, ∀ a ∈ xs, f a < f b → g a < g b := by
  constructor
  · rintro rfl b hb a ha hlt
    by_cases hmem : a ∈ top
    · obtain ⟨i, hi, rfl⟩ := List.getElem_of_mem hmem
      obtain ⟨j, hj, rfl⟩ := List.getElem_of_mem hb
      obtain hij | hij := Nat.lt_or_ge i j
      · exact List.pairwise_iff_getElem.mp h'.ascending i j hi hj hij
      · obtain rfl | hij := hij.eq_or_lt
        · exact absurd hlt (lt_irrefl _)
        · exact absurd hlt (List.pairwise_iff_getElem.mp h.ascending j i hj hi hij).asymm
    · exact (h'.rest a ha hmem).2 b hb
  · intro hagree
    refine unique ⟨?_, h.subset, h.short, fun a ha hnot => ?_⟩ h'
    · exact h.ascending.imp_of_mem fun ha hb hlt => hagree _ hb _ (h.subset _ ha) hlt
    · obtain ⟨hfull, hbelow⟩ := h.rest a ha hnot
      exact ⟨hfull, fun b hb => hagree b hb a ha (hbelow b hb)⟩

end IsTop

section
variable {key : α → β} (k : ℕ) {xs : List α}

/-- The end of a sorted list, for an order that is that of the keys on its elements. -/
theorem isTop_drop_insertionSort {r : α → α → Prop} [DecidableRel r]
    (hr : ∀ a ∈ xs, ∀ b ∈ xs, r a b ↔ key a ≤ key b)
    (h : xs.Pairwise fun a b => key a ≠ key b) :
    IsTop key k xs ((xs.insertionSort r).drop (xs.length - k)) := by
  have hsame : xs.insertionSort r = xs.insertionSort fun a b => key a ≤ key b := by
    simpa using List.map_insertionSort (r := r) (s := fun a b => key a ≤ key b) id xs hr
  have hperm := List.perm_insertionSort (fun a b => key a ≤ key b) xs
  have hle : (xs.insertionSort fun a b => key a ≤ key b).Pairwise fun a b => key a ≤ key b := by
    have : IsTrans α fun a b => key a ≤ key b := ⟨fun _ _ _ hab hbc => hab.trans hbc⟩
    have : Std.Total fun a b => key a ≤ key b := ⟨fun a b => le_total (key a) (key b)⟩
    exact List.pairwise_insertionSort _ _
  have hne : (xs.insertionSort fun a b => key a ≤ key b).Pairwise fun a b => key a ≠ key b :=
    hperm.symm.pairwise h fun h => Ne.symm h
  have htop := IsTop.drop (k := k) ((hle.and hne).imp fun h => lt_of_le_of_ne h.1 h.2)
  rw [hsame, ← hperm.length_eq]
  exact htop.congr fun a => hperm.mem_iff

variable [DecidableEq α]

/-- The `k` elements with the greatest keys. -/
def top (key : α → β) (xs : List α) : List α :=
  (xs.dedup.insertionSort fun a b => key a ≤ key b).drop (xs.dedup.length - k)

/-- No two elements may share a key. -/
theorem isTop_top (h : ∀ a ∈ xs, ∀ b ∈ xs, key a = key b → a = b) :
    IsTop key k xs (top k key xs) := by
  have hne : xs.dedup.Pairwise fun a b => key a ≠ key b :=
    (List.nodup_dedup xs).imp_of_mem fun ha hb hne heq =>
      hne (h _ (List.mem_dedup.mp ha) _ (List.mem_dedup.mp hb) heq)
  exact (isTop_drop_insertionSort k (fun _ _ _ _ => Iff.rfl) hne).congr fun a => List.mem_dedup

end

end OpenGps.Lib
