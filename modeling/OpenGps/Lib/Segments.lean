import Mathlib.Algebra.BigOperators.Group.List.Basic
import Mathlib.Algebra.Order.Ring.Int
import Mathlib.Data.List.SplitBy
import OpenGps.Lib.Pairs

/-!
# Lists cut into segments

`List.splitBy` cuts a list between two neighbours that are not related. How a segment is added or
extended at the end, and when two relations cut a list into the same segments of two elements or
more: if one cuts wherever the other does, then only if it cuts nowhere else.
-/

namespace OpenGps.Lib

variable {α β : Type}

theorem isChain_iff_pairs {R : α → α → Prop} {l : List α} :
    l.IsChain R ↔ ∀ p ∈ pairs l, R p.1 p.2 := by
  induction l with
  | nil => simp
  | cons a l ih =>
    cases l with
    | nil => simp
    | cons b l => rw [List.isChain_cons_cons, ih, pairs_cons_cons, List.forall_mem_cons]

theorem length_pairs (l : List α) : (pairs l).length = l.length - 1 := by
  rw [pairs, List.length_zip, List.length_tail]
  omega

theorem isChain_iff_seams {R : α → α → Prop} {parts : List (List α)} (h : [] ∉ parts) :
    (parts.IsChain fun a b => ∃ ha hb, R (a.getLast ha) (b.head hb)) ↔
      ∀ p ∈ seams parts, R p.1 p.2 := by
  induction parts with
  | nil => simp [seams]
  | cons a parts ih =>
    cases parts with
    | nil => simp [seams]
    | cons b parts =>
      obtain ⟨ha, h⟩ : ¬ [] = a ∧ [] ∉ b :: parts := by simpa using h
      have hb : ¬ [] = b := fun hb => h (hb ▸ List.mem_cons_self)
      have hseams : seams (a :: b :: parts) =
          (a.getLast (Ne.symm ha), b.head (Ne.symm hb)) :: seams (b :: parts) := by
        rw [seams, List.getLast?_eq_some_getLast (Ne.symm ha),
          List.head?_eq_some_head (Ne.symm hb)]
        rfl
      rw [List.isChain_cons_cons, ih h, hseams, List.forall_mem_cons]
      apply and_congr_left'
      constructor
      · rintro ⟨_, _, hR⟩
        exact hR
      · exact fun hR => ⟨_, _, hR⟩

/-- The neighbours in a list that is cut into parts. -/
theorem forall_pairs_flatten {P : α × α → Prop} {parts : List (List α)} (h : [] ∉ parts) :
    (∀ p ∈ pairs parts.flatten, P p) ↔
      (∀ part ∈ parts, ∀ p ∈ pairs part, P p) ∧ ∀ p ∈ seams parts, P p := by
  simp only [(pairs_flatten h).mem_iff, List.mem_append, List.mem_flatMap]
  constructor
  · exact fun hall => ⟨fun part hpart p hp => hall p (.inl ⟨part, hpart, hp⟩),
      fun p hp => hall p (.inr hp)⟩
  · rintro ⟨hparts, hseams⟩ p (⟨part, hpart, hp⟩ | hp)
    · exact hparts part hpart p hp
    · exact hseams p hp

/-! ## The end of a list -/

section
variable {r : α → α → Bool} {l : List α}

theorem exists_splitBy_eq_concat (h : l ≠ []) :
    ∃ init current, l.splitBy r = init ++ [current] ∧ current.getLast? = some (l.getLast h) := by
  obtain ⟨init, current, hparts⟩ :=
    (List.eq_nil_or_concat (l.splitBy r)).resolve_left (List.splitBy_ne_nil.mpr h)
  rw [List.concat_eq_append] at hparts
  have hcurrent : current ≠ [] :=
    List.ne_nil_of_mem_splitBy (hparts ▸ List.mem_append_right init List.mem_cons_self)
  refine ⟨init, current, hparts, ?_⟩
  have hwhole := List.flatten_splitBy r l
  rw [hparts, List.flatten_append, List.flatten_singleton] at hwhole
  rw [← List.getLast?_eq_some_getLast h, ← List.getLast?_append_of_ne_nil init.flatten hcurrent,
    hwhole]

/-- The next element opens a segment. -/
theorem splitBy_concat_of_not (h : l ≠ []) {x : α} (hr : r (l.getLast h) x = false) :
    (l ++ [x]).splitBy r = l.splitBy r ++ [[x]] := by
  rw [List.splitBy_append_cons []]
  · rfl
  · intro y hy
    obtain rfl := Option.some.inj ((List.getLast?_eq_some_getLast h).symm.trans hy)
    exact hr

/-- The next element goes on with the last segment. -/
theorem splitBy_concat_of (h : l ≠ []) {x : α} (hr : r (l.getLast h) x = true)
    {init : List (List α)} {current : List α} (hparts : l.splitBy r = init ++ [current]) :
    (l ++ [x]).splitBy r = init ++ [current ++ [x]] := by
  obtain ⟨hwhole, hnonempty, hclose, hapart⟩ := List.splitBy_eq_iff.mp hparts
  obtain ⟨init', current', hparts', hlast⟩ := exists_splitBy_eq_concat (r := r) h
  obtain ⟨rfl, hcurrent⟩ := List.append_inj' (hparts.symm.trans hparts') rfl
  obtain rfl := List.singleton_inj.mp hcurrent
  obtain ⟨hinit, -, hseam⟩ := List.isChain_append.mp hapart
  refine List.splitBy_eq_iff.mpr ⟨by simp [hwhole], ?_, ?_, ?_⟩
  · intro hmem
    obtain hmem | hmem := List.mem_append.mp hmem
    · exact hnonempty (List.mem_append_left _ hmem)
    · simp at hmem
  · intro part hpart
    obtain hpart | hpart := List.mem_append.mp hpart
    · exact hclose part (List.mem_append_left _ hpart)
    · obtain rfl := List.mem_singleton.mp hpart
      refine List.isChain_append.mpr ⟨hclose current (by simp), List.isChain_singleton _, ?_⟩
      intro last hmem next hnext
      obtain rfl := Option.some.inj (hlast.symm.trans hmem)
      obtain rfl : x = next := by simpa using hnext
      exact hr
  · refine List.isChain_append.mpr ⟨hinit, List.isChain_singleton _, ?_⟩
    intro before hbefore part hpart
    obtain rfl : current ++ [x] = part := by simpa using hpart
    obtain ⟨ha, hb, hfar⟩ := hseam before hbefore current rfl
    exact ⟨ha, by simp, by rw [List.head_append_of_ne_nil hb]; exact hfar⟩

end

theorem splitBy_map (f : α → β) (r : β → β → Bool) (l : List α) :
    (l.map f).splitBy r = (l.splitBy fun a b => r (f a) (f b)).map (List.map f) := by
  obtain ⟨hwhole, hnonempty, hclose, hapart⟩ :=
    List.splitBy_eq_iff.mp (rfl : l.splitBy (fun a b => r (f a) (f b)) = _)
  refine List.splitBy_eq_iff.mpr ⟨?_, ?_, ?_, ?_⟩
  · rw [← List.map_flatten, ← hwhole]
  · simp
  · intro part hpart
    obtain ⟨part', hpart', rfl⟩ := List.mem_map.mp hpart
    exact List.isChain_map_of_isChain f (fun _ _ h => h) (hclose part' hpart')
  · refine List.isChain_map_of_isChain _ ?_ hapart
    rintro a b ⟨ha, hb, hfar⟩
    refine ⟨by simpa using ha, by simpa using hb, ?_⟩
    rw [List.getLast_map, List.head_map]
    exact hfar

/-! ## Segments of two or more -/

/-- The neighbours that are not separated. -/
def joints (parts : List (List α)) : ℕ := (parts.map fun s => s.length - 1).sum

theorem joints_filter (parts : List (List α)) :
    joints (parts.filter fun s => 2 ≤ s.length) = joints parts := by
  induction parts with
  | nil => rfl
  | cons s parts ih =>
    unfold joints at ih ⊢
    rw [List.map_cons, List.sum_cons, List.filter_cons]
    split
    · rw [List.map_cons, List.sum_cons, ih]
    · next hs =>
      have : s.length - 1 = 0 := by simp at hs; omega
      rw [ih, this, Nat.zero_add]

theorem joints_map (f : α → β) (parts : List (List α)) :
    joints (parts.map (List.map f)) = joints parts := by
  unfold joints
  rw [List.map_map]
  exact congrArg List.sum (List.map_congr_left fun s _ => by simp)

/-- Two neighbours are in one segment if they are related. -/
theorem joints_splitBy (r : α → α → Bool) (l : List α) :
    joints (l.splitBy r) = (pairs l).countP fun p => r p.1 p.2 := by
  obtain ⟨hwhole, hnonempty, hclose, hapart⟩ :=
    List.splitBy_eq_iff.mp (rfl : l.splitBy r = _)
  have hperm := pairs_flatten hnonempty
  rw [← hwhole] at hperm
  have hin : ∀ p ∈ (l.splitBy r).flatMap pairs, r p.1 p.2 = true := by
    intro p hp
    obtain ⟨part, hpart, hp⟩ := List.mem_flatMap.mp hp
    exact isChain_iff_pairs.mp (hclose part hpart) p hp
  have hbetween : ∀ p ∈ seams (l.splitBy r), ¬ r p.1 p.2 = true :=
    fun p hp => ne_true_of_eq_false
      ((isChain_iff_seams (R := fun a b => r a b = false) hnonempty).mp hapart p hp)
  rw [hperm.countP_eq, List.countP_append, List.countP_eq_length.mpr hin,
    List.countP_eq_zero.mpr hbetween, List.length_flatMap]
  simp only [length_pairs]
  rfl

theorem length_add_joints {parts : List (List α)} (h : [] ∉ parts) :
    parts.length + joints parts = parts.flatten.length := by
  induction parts with
  | nil => rfl
  | cons part parts ih =>
    obtain ⟨hpart, hparts⟩ : ¬ [] = part ∧ [] ∉ parts := by simpa using h
    have hpositive : 0 < part.length := List.length_pos_iff.mpr (Ne.symm hpart)
    have hjoints : joints (part :: parts) = (part.length - 1) + joints parts := rfl
    have hrest := ih hparts
    rw [hjoints, List.flatten_cons, List.length_append, List.length_cons]
    omega

/-- A list is cut once for each pair of neighbours that are not related. -/
theorem length_splitBy (r : α → α → Bool) {l : List α} (h : l ≠ []) :
    (l.splitBy r).length = ((pairs l).countP fun p => !r p.1 p.2) + 1 := by
  have hwhole := length_add_joints (List.nil_notMem_splitBy r l)
  rw [joints_splitBy, List.flatten_splitBy] at hwhole
  have hneighbours := List.length_eq_countP_add_countP (fun p => r p.1 p.2) (l := pairs l)
  rw [length_pairs] at hneighbours
  have hpositive : 0 < l.length := List.length_pos_iff.mpr h
  simp only [Bool.not_eq_true, Bool.decide_eq_false] at hneighbours
  omega

theorem splitBy_congr {r s : α → α → Bool} {l : List α}
    (h : ∀ p ∈ pairs l, r p.1 p.2 = s p.1 p.2) : l.splitBy r = l.splitBy s := by
  obtain ⟨hwhole, hnonempty, hclose, hapart⟩ :=
    List.splitBy_eq_iff.mp (rfl : l.splitBy s = _)
  rw [hwhole, forall_pairs_flatten hnonempty] at h
  obtain ⟨hparts, hseams⟩ := h
  refine List.splitBy_eq_iff.mpr ⟨hwhole, hnonempty, fun part hpart => ?_, ?_⟩
  · refine isChain_iff_pairs.mpr fun p hp => ?_
    rw [hparts part hpart p hp]
    exact isChain_iff_pairs.mp (hclose part hpart) p hp
  · refine (isChain_iff_seams (R := fun a b => r a b = false) hnonempty).mpr fun p hp => ?_
    rw [hseams p hp]
    exact (isChain_iff_seams (R := fun a b => s a b = false) hnonempty).mp hapart p hp

theorem imp_of_countP_eq {p q : α → Bool} {l : List α} (hpq : ∀ x ∈ l, p x = true → q x = true)
    (h : l.countP q = l.countP p) : ∀ x ∈ l, q x = true → p x = true := by
  induction l with
  | nil => exact fun x hx => by cases hx
  | cons a l ih =>
    obtain ⟨ha, hl⟩ := List.forall_mem_cons.mp hpq
    have hle := List.countP_mono_left hl
    rw [List.countP_cons, List.countP_cons] at h
    by_cases hp : p a = true
    · rw [if_pos hp, if_pos (ha hp)] at h
      exact List.forall_mem_cons.mpr ⟨fun _ => hp, ih hl (by omega)⟩
    · rw [if_neg hp] at h
      split at h
      · omega
      · next hq => exact List.forall_mem_cons.mpr ⟨fun hqa => absurd hqa hq, ih hl (by omega)⟩

/-- Where a relation implies another, they join as many neighbours only if they join the same. -/
theorem splitBy_eq_iff_joints {r s : α → α → Bool} {l : List α}
    (hsr : ∀ p ∈ pairs l, s p.1 p.2 = true → r p.1 p.2 = true) :
    joints (l.splitBy r) = joints (l.splitBy s) ↔
      ∀ p ∈ pairs l, r p.1 p.2 = true → s p.1 p.2 = true := by
  rw [joints_splitBy, joints_splitBy]
  constructor
  · exact fun h => imp_of_countP_eq hsr h
  · exact fun h => List.countP_congr fun p hp => ⟨h p hp, hsr p hp⟩

end OpenGps.Lib
