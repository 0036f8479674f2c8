import Mathlib.Data.List.AList

/-!
# Tables with a primary key

A table maps its keys to the other columns of their rows. The statements of SQL that the program
uses on one row are functions from a table to the number of rows affected and the new table;
`update` is the statement whose condition selects any number of rows.
-/

namespace OpenGps.Lib

abbrev Table (κ ρ : Type) := AList fun _ : κ => ρ

namespace Table

variable {κ ρ : Type}

def rows (t : Table κ ρ) : List (κ × ρ) := t.entries.map fun e => (e.1, e.2)

/-- `UPDATE … SET … WHERE p`. -/
def update (t : Table κ ρ) (p : κ → ρ → Bool) (f : ρ → ρ) : Table κ ρ where
  entries := t.entries.map fun e => ⟨e.1, if p e.1 e.2 then f e.2 else e.2⟩
  nodupKeys := by
    have hkeys := t.nodupKeys
    rw [List.NodupKeys, List.keys] at hkeys ⊢
    rwa [List.map_map]

/-- A key has one row. -/
theorem pairwise_rows (t : Table κ ρ) : t.rows.Pairwise fun a b => a.1 ≠ b.1 := by
  have hkeys := t.nodupKeys
  rw [List.NodupKeys, List.keys, List.Nodup, List.pairwise_map] at hkeys
  exact List.pairwise_map.mpr hkeys

variable [DecidableEq κ]

/-- `INSERT … ON CONFLICT DO NOTHING`. -/
def insertNew (t : Table κ ρ) (k : κ) (r : ρ) : Nat × Table κ ρ :=
  if k ∈ t then (0, t) else (1, t.insert k r)

/-- `UPDATE … SET … WHERE key = k AND p`. -/
def updateAt (t : Table κ ρ) (k : κ) (p : ρ → Bool) (f : ρ → ρ) : Nat × Table κ ρ :=
  match t.lookup k with
  | none => (0, t)
  | some r => if p r then (1, t.insert k (f r)) else (0, t)

variable {t : Table κ ρ} {k l : κ} {r : ρ} {p : ρ → Bool} {f : ρ → ρ}

theorem mem_rows {x : κ × ρ} : x ∈ t.rows ↔ t.lookup x.1 = some x.2 := by
  rw [rows, List.mem_map]
  constructor
  · rintro ⟨e, he, rfl⟩
    exact AList.mem_lookup_iff.mpr he
  · intro hx
    exact ⟨⟨x.1, x.2⟩, AList.mem_lookup_iff.mp hx, rfl⟩

theorem insertNew_of_mem (h : k ∈ t) : t.insertNew k r = (0, t) := if_pos h

theorem insertNew_of_notMem (h : k ∉ t) : t.insertNew k r = (1, t.insert k r) := if_neg h

/-- The row that was there stays. -/
theorem lookup_insertNew_self :
    (t.insertNew k r).2.lookup k = some ((t.lookup k).getD r) := by
  by_cases h : k ∈ t
  · obtain ⟨r', hr'⟩ := Option.isSome_iff_exists.mp (AList.lookup_isSome.mpr h)
    rw [insertNew_of_mem h, hr']
    rfl
  · rw [insertNew_of_notMem h, AList.lookup_insert, AList.lookup_eq_none.mpr h]
    rfl

theorem lookup_insertNew_of_ne (h : l ≠ k) : (t.insertNew k r).2.lookup l = t.lookup l := by
  unfold insertNew
  split
  · rfl
  · exact AList.lookup_insert_ne h

theorem lookup_insertNew (t : Table κ ρ) (k l : κ) (r : ρ) :
    (t.insertNew k r).2.lookup l = (t.lookup l).or (if k = l then some r else none) := by
  by_cases h : k = l
  · subst h
    rw [lookup_insertNew_self, if_pos rfl]
    cases t.lookup k <;> rfl
  · rw [lookup_insertNew_of_ne (Ne.symm h), if_neg h, Option.or_none]

theorem lookup_updateAt_self :
    (t.updateAt k p f).2.lookup k = (t.lookup k).map fun r => if p r then f r else r := by
  unfold updateAt
  cases hk : t.lookup k with
  | none => simp only [hk, Option.map_none]
  | some r =>
    simp only [Option.map_some]
    split
    · exact AList.lookup_insert _
    · exact hk

theorem lookup_updateAt_of_ne (h : l ≠ k) : (t.updateAt k p f).2.lookup l = t.lookup l := by
  unfold updateAt
  split
  · rfl
  · split
    · exact AList.lookup_insert_ne h
    · rfl

theorem lookup_update {q : κ → ρ → Bool} :
    (t.update q f).lookup k = (t.lookup k).map fun r => if q k r then f r else r := by
  cases hk : t.lookup k with
  | none =>
    rw [AList.lookup_eq_none, AList.mem_keys] at hk
    rw [Option.map_none, AList.lookup_eq_none, AList.mem_keys]
    intro hmem
    refine hk ?_
    rw [AList.keys, List.keys, update, List.map_map] at hmem
    exact hmem
  | some r =>
    have hmem : (⟨k, r⟩ : Sigma fun _ : κ => ρ) ∈ t.entries := AList.mem_lookup_iff.mp hk
    exact AList.mem_lookup_iff.mpr (List.mem_map.mpr ⟨_, hmem, rfl⟩)

theorem lookup_updateAt :
    (t.updateAt k p f).2.lookup l = (t.lookup l).map fun r => if l = k ∧ p r then f r else r := by
  by_cases h : l = k
  · subst h
    rw [lookup_updateAt_self]
    exact congrArg (fun g => (t.lookup l).map g) (funext fun r => by simp)
  · rw [lookup_updateAt_of_ne h]
    cases t.lookup l with
    | none => rfl
    | some r => rw [Option.map_some, if_neg fun hk => h hk.1]

theorem of_find_rows {q : κ × ρ → Bool} {x : κ × ρ} (h : t.rows.find? q = some x) :
    t.lookup x.1 = some x.2 ∧ q x = true :=
  ⟨mem_rows.mp (List.mem_of_find?_eq_some h), List.find?_some h⟩

/-! ## Growing tables -/

/-- Every row stays, up to `R`, and the rows that were not there are `New`. -/
structure Grows (R : ρ → ρ → Prop) (New : κ → ρ → Prop) (t t' : Table κ ρ) : Prop where
  kept : ∀ k r, t.lookup k = some r → ∃ r', t'.lookup k = some r' ∧ R r r'
  old_or_new : ∀ k r', t'.lookup k = some r' → (∃ r, t.lookup k = some r ∧ R r r') ∨ New k r'

variable {R : ρ → ρ → Prop} {New : κ → ρ → Prop}

theorem Grows.refl (hR : ∀ r, R r r) : Grows R New t t where
  kept _ r h := ⟨r, h, hR r⟩
  old_or_new _ r h := .inl ⟨r, h, hR r⟩

theorem Grows.updateAt (hR : ∀ r, R r r) (hf : ∀ r, p r = true → R r (f r)) :
    Grows R New t (t.updateAt k p f).2 := by
  have hrow : ∀ l r, R r (if l = k ∧ p r then f r else r) := by
    intro l r
    split
    next h => exact hf r h.2
    next => exact hR r
  constructor
  · intro l r h
    exact ⟨_, by rw [lookup_updateAt, h, Option.map_some], hrow l r⟩
  · intro l r' h
    rw [lookup_updateAt] at h
    obtain ⟨r, hr, rfl⟩ := Option.map_eq_some_iff.mp h
    exact .inl ⟨r, hr, hrow l r⟩

theorem Grows.insert (hR : ∀ r, R r r) (hnew : New k r) (hk : k ∉ t) :
    Grows R New t (AList.insert k r t) := by
  constructor
  · intro l r' h
    have hne : l ≠ k := by
      rintro rfl
      exact hk (AList.lookup_isSome.mp (Option.isSome_of_eq_some h))
    exact ⟨r', by rw [AList.lookup_insert_ne hne, h], hR r'⟩
  · intro l r' h
    by_cases hl : l = k
    · subst hl
      rw [AList.lookup_insert] at h
      exact .inr (Option.some.inj h ▸ hnew)
    · rw [AList.lookup_insert_ne hl] at h
      exact .inl ⟨r', h, hR r'⟩

end Table

end OpenGps.Lib
