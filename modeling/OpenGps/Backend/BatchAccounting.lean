import OpenGps.Backend.LocationBatch
import Mathlib.Data.List.Find
import Mathlib.Data.Set.Function

/-!
# The account of a batch

What `IngestBatch` answers and what it stores, item by item: every id is counted once, as accepted
or as rejected; an accepted item is the first of its id and valid; and a row is added exactly for
the accepted items that meet no key. An error leaves the tables as they were.
-/

namespace OpenGps.Backend

open OpenGps.Lib

variable {δ : Type}

/-! ## Accepted and rejected -/

/-- Every item is counted once, under its own id. -/
theorem perm_accepted_rejections (items : List (Location δ)) : ∀ seen : List UInt64,
    ((accepted seen items).map (·.sequenceID) ++ (rejections seen items).map (·.sequenceID)).Perm
      (items.map (·.sequenceID)) := by
  induction items with
  | nil => intro seen; simp [accepted, rejections]
  | cons item items ih =>
    intro seen
    have ih := ih (item.sequenceID :: seen)
    unfold accepted rejections at ih ⊢
    rw [verdicts]
    by_cases hseen : item.sequenceID ∈ seen
    · simp only [hseen, if_true]
      simpa using List.perm_middle.trans (ih.cons _)
    · cases hvalid : validateLocation item with
      | none => simpa [hseen, hvalid] using ih
      | some err =>
        simp only [hseen, if_false]
        simpa using List.perm_middle.trans (ih.cons _)

/-- An id is accepted when the first item that carries it is valid. -/
theorem mem_accepted_ids_iff (items : List (Location δ)) : ∀ (seen : List UInt64) (id : UInt64),
    id ∈ (accepted seen items).map (·.sequenceID) ↔
      id ∉ seen ∧ ∃ item, items.find? (·.sequenceID = id) = some item ∧
        validateLocation item = none := by
  induction items with
  | nil => intro seen id; simp [accepted]
  | cons item items ih =>
    intro seen id
    rw [accepted_cons, List.find?_cons]
    by_cases hid : item.sequenceID = id
    · subst hid
      split
      · next h => simp [h]
      · next h =>
        rw [ih]
        simp only [List.mem_cons, true_or, not_true, false_and, decide_true, Option.some.injEq,
          exists_eq_left', false_iff]
        exact h
    · have hne : id ≠ item.sequenceID := fun h => hid h.symm
      split <;> simp [ih, hid, hne]

/-- The first occurrences come through, in order. -/
theorem accepted_sublist (items : List (Location δ)) : ∀ seen : List UInt64,
    (accepted seen items).Sublist items := by
  induction items with
  | nil => intro seen; simp [accepted]
  | cons item items ih =>
    intro seen
    rw [accepted_cons]
    split
    · exact (ih _).cons_cons _
    · exact (ih _).cons _

theorem validateLocation_of_mem_accepted {items : List (Location δ)} {seen : List UInt64}
    {loc : Location δ} (h : loc ∈ accepted seen items) : validateLocation loc = none := by
  induction items generalizing seen with
  | nil => simp [accepted] at h
  | cons item items ih =>
    rw [accepted_cons] at h
    split at h
    · next hitem =>
      rcases List.mem_cons.mp h with rfl | h
      · exact hitem.2
      · exact ih h
    · exact ih h

variable [DecidableEq δ]

/-- The item is the first of its id, and valid. -/
def IsAccepted (items : List (Location δ)) (item : Location δ) : Prop :=
  items.find? (·.sequenceID = item.sequenceID) = some item ∧ validateLocation item = none

instance (items : List (Location δ)) (item : Location δ) : Decidable (IsAccepted items item) :=
  inferInstanceAs (Decidable (_ ∧ _))

/-- Searching the accepted items is searching the batch for an accepted item. -/
theorem find?_accepted_from (p : Location δ → Bool) (items : List (Location δ)) :
    ∀ seen : List UInt64, (accepted seen items).find? p =
      items.find? fun item => item.sequenceID ∉ seen ∧ IsAccepted items item ∧ p item := by
  induction items with
  | nil => intro seen; simp [accepted]
  | cons item items ih =>
    intro seen
    have hself : IsAccepted (item :: items) item ↔ validateLocation item = none := by
      simp [IsAccepted]
    rw [List.find?_cons, accepted_cons]
    by_cases hitem : item.sequenceID ∉ seen ∧ IsAccepted (item :: items) item ∧ p item
    · rw [decide_eq_true hitem, if_pos ⟨hitem.1, hself.mp hitem.2.1⟩, List.find?_cons, hitem.2.2]
    · -- A later item with the id of this one is not accepted.
      have hlater : ∀ x ∈ items, (decide (x.sequenceID ∉ item.sequenceID :: seen ∧
          IsAccepted items x ∧ p x)) =
            decide (x.sequenceID ∉ seen ∧ IsAccepted (item :: items) x ∧ p x) := by
        intro x _
        rw [decide_eq_decide]
        by_cases heq : item.sequenceID = x.sequenceID
        · have hfind : (item :: items).find? (·.sequenceID = x.sequenceID) = some item := by
            simp [heq]
          constructor
          · rintro ⟨hnew, -⟩
            exact absurd (heq ▸ List.mem_cons_self) hnew
          · rintro ⟨hnew, ⟨hfirst, hvalid⟩, hp⟩
            rw [hfind] at hfirst
            cases hfirst
            exact absurd ⟨hnew, hself.mpr hvalid, hp⟩ hitem
        · have hne : ¬ x.sequenceID = item.sequenceID := fun h => heq h.symm
          simp [IsAccepted, heq, hne]
      rw [decide_eq_false hitem, ← List.find?_congr hlater, ← ih]
      split
      · next hacc =>
        have hp : p item = false := by
          by_contra h
          exact hitem ⟨hacc.1, hself.mpr hacc.2, by simpa using h⟩
        rw [List.find?_cons, hp]
      · rfl

theorem find?_accepted (p : Location δ → Bool) (items : List (Location δ)) :
    (accepted [] items).find? p = items.find? fun item => IsAccepted items item ∧ p item := by
  rw [find?_accepted_from]
  simp

/-! ## Stored -/

namespace Database

variable {db db' : Database δ} {locs : List (Location δ)}

/-- The statements for an item meet no error: its id fits the column, and a row that is added
belongs to a device. -/
structure Admits (db : Database δ) (loc : Location δ) : Prop where
  pos : loc.sequenceID ≠ 0
  fits : loc.sequenceID.toNat < 2 ^ 63
  device : (loc.deviceID, loc.sequenceID) ∈ db.locationIngestKeys ∨ loc.deviceID ∈ db.devices

/-- The row that a list of items adds under a key: of the first item for it whose id is new. -/
def addedRow (db : Database δ) (locs : List (Location δ)) (key : δ × Time) : Option Telemetry :=
  (locs.find? fun loc => (loc.deviceID, loc.recordedAt) = key ∧
    (loc.deviceID, loc.sequenceID) ∉ db.locationIngestKeys).map (·.toTelemetry)

def addedKey (locs : List (Location δ)) (key : δ × UInt64) : Option Time :=
  (locs.find? fun loc => (loc.deviceID, loc.sequenceID) = key).map (·.recordedAt)

/-- The tables after a list of items. What was there stays. -/
structure Added (db : Database δ) (locs : List (Location δ)) (db' : Database δ) : Prop where
  keys : ∀ key, db'.locationIngestKeys.lookup key =
    (db.locationIngestKeys.lookup key).or (addedKey locs key)
  rows : ∀ key, db'.locations.lookup key = (db.locations.lookup key).or (db.addedRow locs key)
  devices : ∀ device, device ∈ db'.devices ↔ device ∈ db.devices

theorem addedKey_cons (loc : Location δ) (key : δ × UInt64) :
    addedKey (loc :: locs) key =
      (if (loc.deviceID, loc.sequenceID) = key then some loc.recordedAt else none).or
        (addedKey locs key) := by
  rw [addedKey, List.find?_cons]
  by_cases h : (loc.deviceID, loc.sequenceID) = key <;> simp [h, addedKey]

theorem addedRow_cons (loc : Location δ) (key : δ × Time) :
    db.addedRow (loc :: locs) key =
      (if (loc.deviceID, loc.recordedAt) = key ∧
          (loc.deviceID, loc.sequenceID) ∉ db.locationIngestKeys then some loc.toTelemetry
        else none).or (db.addedRow locs key) := by
  rw [addedRow, List.find?_cons]
  by_cases h : (loc.deviceID, loc.recordedAt) = key ∧
      (loc.deviceID, loc.sequenceID) ∉ db.locationIngestKeys
  · rw [decide_eq_true h, if_pos h]
    rfl
  · rw [decide_eq_false h, if_neg h]
    rfl

theorem isSome_addedKey {key : δ × UInt64} :
    (addedKey locs key).isSome ↔ ∃ loc ∈ locs, (loc.deviceID, loc.sequenceID) = key := by
  simp [addedKey]

/-- Among items with different instants at most one can add a row. -/
theorem addedRow_eq_some_iff (hinstants : Set.InjOn (fun loc => (loc.deviceID, loc.recordedAt))
    {loc | loc ∈ locs}) {key : δ × Time} {row : Telemetry} :
    db.addedRow locs key = some row ↔ ∃ loc ∈ locs, (loc.deviceID, loc.recordedAt) = key ∧
      (loc.deviceID, loc.sequenceID) ∉ db.locationIngestKeys ∧ loc.toTelemetry = row := by
  rw [addedRow, Option.map_eq_some_iff]
  constructor
  · rintro ⟨loc, hfind, hrow⟩
    have hloc := List.find?_some hfind
    simp only [decide_eq_true_eq] at hloc
    exact ⟨loc, List.mem_of_find?_eq_some hfind, hloc.1, hloc.2, hrow⟩
  · rintro ⟨loc, hloc, hkey, hnew, hrow⟩
    rcases hfind : locs.find? fun loc => (loc.deviceID, loc.recordedAt) = key ∧
        (loc.deviceID, loc.sequenceID) ∉ db.locationIngestKeys with _ | loc'
    · have hnone := List.find?_eq_none.mp hfind loc hloc
      simp only [decide_eq_true_eq] at hnone
      exact absurd ⟨hkey, hnew⟩ hnone
    · have hloc' := List.find?_some hfind
      simp only [decide_eq_true_eq] at hloc'
      have hsame := hinstants (List.mem_of_find?_eq_some hfind) hloc (hloc'.1.trans hkey.symm)
      exact ⟨loc', hfind, hsame ▸ hrow⟩

theorem insertItem_of_admits {acc : List UInt64 × Database δ} {loc : Location δ}
    (h : acc.2.Admits loc) : ∃ db', insertItem acc loc = .ok (acc.1 ++ [loc.sequenceID], db') ∧
      Added acc.2 [loc] db' := by
  unfold insertItem insertIngestKey
  rw [if_neg (Nat.not_le.mpr h.fits), if_neg h.pos]
  by_cases hkey : (loc.deviceID, loc.sequenceID) ∈ acc.2.locationIngestKeys
  · -- The id is a key already: nothing is inserted.
    rw [Table.insertNew_of_mem hkey]
    refine ⟨acc.2, rfl, ⟨fun key => ?_, fun key => ?_, fun _ => Iff.rfl⟩⟩
    · by_cases heq : (loc.deviceID, loc.sequenceID) = key
      · obtain ⟨t, ht⟩ := Option.isSome_iff_exists.mp (AList.lookup_isSome.mpr hkey)
        rw [← heq, ht, Option.some_or]
      · simp [addedKey, heq]
    · simp [addedRow, hkey]
  · have hdevice := h.device.resolve_left hkey
    simp only [hdevice, not_true, and_false, if_false]
    have hrows : (acc.2.locationIngestKeys.insertNew (loc.deviceID, loc.sequenceID)
        loc.recordedAt).1 = 1 := by
      rw [Table.insertNew_of_notMem hkey]
    simp only [pure_bind, hrows, Nat.one_ne_zero, if_false]
    unfold insertLocation
    simp only [hdevice, not_true, and_false, if_false]
    refine ⟨_, rfl, ⟨fun key => ?_, fun key => ?_, fun _ => Iff.rfl⟩⟩
    · rw [Table.lookup_insertNew, addedKey_cons]
      simp [addedKey]
    · rw [Table.lookup_insertNew, addedRow_cons]
      simp [addedRow, hkey]

/-- An item that meets an error is not admitted. -/
theorem admits_of_insertItem {acc acc' : List UInt64 × Database δ} {loc : Location δ}
    (h : insertItem acc loc = .ok acc') : acc.2.Admits loc := by
  unfold insertItem insertIngestKey at h
  split at h
  · cases h
  next hfits =>
  split at h
  · cases h
  next hpos =>
  refine ⟨hpos, Nat.not_le.mp hfits, ?_⟩
  dsimp only at h
  split at h
  · cases h
  next hdevice =>
  by_cases hkey : (loc.deviceID, loc.sequenceID) ∈ acc.2.locationIngestKeys
  · exact .inl hkey
  · rw [Table.insertNew_of_notMem hkey] at hdevice
    exact .inr (by simpa using hdevice)

theorem mem_of_lookup_or {κ ρ : Type} [DecidableEq κ] {t t' : Table κ ρ} {k : κ} {x : Option ρ}
    (h : t'.lookup k = (t.lookup k).or x) : k ∈ t' ↔ k ∈ t ∨ x.isSome := by
  rw [← AList.lookup_isSome, h, ← AList.lookup_isSome]
  cases t.lookup k <;> simp

/-- One list of items after another, where no id of the second is in the first. -/
theorem Added.append {mid : Database δ} {more : List (Location δ)} (h : Added db locs mid)
    (h' : Added mid more db')
    (hnew : ∀ loc ∈ more, ∀ loc' ∈ locs, loc'.sequenceID ≠ loc.sequenceID) :
    Added db (locs ++ more) db' where
  keys key := by
    rw [h'.keys, h.keys, Option.or_assoc, addedKey, addedKey, addedKey, List.find?_append,
      Option.map_or]
  rows key := by
    have hsame : mid.addedRow more key = db.addedRow more key := by
      have hkeys : ∀ loc ∈ more, (loc.deviceID, loc.sequenceID) ∈ mid.locationIngestKeys ↔
          (loc.deviceID, loc.sequenceID) ∈ db.locationIngestKeys := by
        intro loc hloc
        rw [mem_of_lookup_or (h.keys _)]
        refine or_iff_left fun hadded => ?_
        obtain ⟨loc', hloc', heq⟩ := isSome_addedKey.mp hadded
        exact hnew loc hloc loc' hloc' (Prod.mk.inj heq).2
      exact congrArg (Option.map _) (List.find?_congr fun loc hloc => by
        simp only [hkeys loc hloc])
    rw [h'.rows, h.rows, hsame, Option.or_assoc, addedRow, addedRow, addedRow, List.find?_append,
      Option.map_or]
  devices device := (h'.devices device).trans (h.devices device)

/-- A list of items with different ids is stored when all of them are admitted. -/
theorem insertItems_of_admits : ∀ {locs : List (Location δ)} {acc : List UInt64 × Database δ},
    (∀ loc ∈ locs, acc.2.Admits loc) → (locs.map (·.sequenceID)).Nodup →
    ∃ db', locs.foldlM insertItem acc = .ok (acc.1 ++ locs.map (·.sequenceID), db') ∧
      Added acc.2 locs db'
  | [], acc, _, _ => by
    refine ⟨acc.2, by simp; rfl, ⟨fun _ => ?_, fun _ => ?_, fun _ => Iff.rfl⟩⟩
    · simp [addedKey]
    · simp [addedRow]
  | loc :: locs, acc, hadmits, hnodup => by
    rw [List.map_cons, List.nodup_cons] at hnodup
    obtain ⟨mid, hitem, hone⟩ := insertItem_of_admits (hadmits loc List.mem_cons_self)
    have hlater : ∀ x ∈ locs, mid.Admits x := by
      intro x hx
      have h := hadmits x (List.mem_cons_of_mem _ hx)
      refine ⟨h.pos, h.fits, h.device.imp (fun hkey => ?_) (hone.devices _).mpr⟩
      exact (mem_of_lookup_or (hone.keys _)).mpr (.inl hkey)
    obtain ⟨db', hrest, hmore⟩ := @insertItems_of_admits locs (acc.1 ++ [loc.sequenceID], mid)
      hlater hnodup.2
    refine ⟨db', ?_, hone.append hmore ?_⟩
    · rw [List.foldlM_cons, hitem]
      show locs.foldlM insertItem (acc.1 ++ [loc.sequenceID], mid) = _
      simpa using hrest
    · intro x hx loc' hloc' heq
      rw [List.mem_singleton.mp hloc'] at heq
      exact hnodup.1 (heq ▸ List.mem_map_of_mem hx)

/-- A list of items that meets no error is admitted as a whole. -/
theorem admits_of_insertItems : ∀ {locs : List (Location δ)} {acc acc' : List UInt64 × Database δ},
    (locs.map (·.sequenceID)).Nodup → locs.foldlM insertItem acc = .ok acc' →
    ∀ loc ∈ locs, acc.2.Admits loc
  | [], _, _, _, _, _, hloc => absurd hloc List.not_mem_nil
  | loc :: locs, acc, acc', hnodup, h, x, hx => by
    rw [List.map_cons, List.nodup_cons] at hnodup
    rw [List.foldlM_cons] at h
    rcases hitem : insertItem acc loc with e | mid <;> rw [hitem] at h
    · cases h
    have hfirst := admits_of_insertItem hitem
    obtain ⟨db', hitem', hone⟩ := insertItem_of_admits hfirst
    cases hitem.symm.trans hitem'
    rcases List.mem_cons.mp hx with rfl | hx
    · exact hfirst
    · have hlater := admits_of_insertItems hnodup.2 h x hx
      refine ⟨hlater.pos, hlater.fits, hlater.device.imp (fun hkey => ?_) (hone.devices _).mp⟩
      refine ((mem_of_lookup_or (hone.keys _)).mp hkey).resolve_right fun hadded => ?_
      have hne : ¬ (loc.deviceID, loc.sequenceID) = (x.deviceID, x.sequenceID) := by
        intro heq
        rw [(Prod.mk.inj heq).2] at hnodup
        exact hnodup.1 (List.mem_map_of_mem hx)
      rw [addedKey_cons, if_neg hne] at hadded
      simp [addedKey] at hadded

theorem mem_touch {device d : δ} {clock : Time} :
    d ∈ (db.touch device clock).devices ↔ d ∈ db.devices := by
  rw [← AList.lookup_isSome, ← AList.lookup_isSome, touch]
  by_cases h : d = device
  · rw [h, Table.lookup_updateAt_self, Option.isSome_map]
  · rw [Table.lookup_updateAt_of_ne h]

theorem Added.touch (h : Added db locs db') (device : δ) (clock : Time) :
    Added db locs (db'.touch device clock) :=
  ⟨h.keys, h.rows, fun d => mem_touch.trans (h.devices d)⟩

/-- `InsertBatch` on items with different ids stores all of them or meets an error. -/
theorem added_of_insertBatch {clock : Time} (hnodup : (locs.map (·.sequenceID)).Nodup)
    {r : List UInt64 × Database δ} (h : db.insertBatch clock locs = .ok r) :
    r.1 = locs.map (·.sequenceID) ∧ Added db locs r.2 ∧ ∀ loc ∈ locs, db.Admits loc := by
  unfold insertBatch at h
  rcases hitems : locs.foldlM insertItem ([], db) with e | ⟨ids, mid⟩ <;> rw [hitems] at h
  · cases h
  have hadmits := admits_of_insertItems hnodup hitems
  obtain ⟨mid', hitems', hadded⟩ := insertItems_of_admits hadmits hnodup
  cases hitems.symm.trans hitems'
  cases locs with
  | nil => cases h; exact ⟨rfl, hadded, hadmits⟩
  | cons loc locs => cases h; exact ⟨rfl, hadded.touch _ _, hadmits⟩

theorem insertBatch_of_admits (clock : Time) (hadmits : ∀ loc ∈ locs, db.Admits loc)
    (hnodup : (locs.map (·.sequenceID)).Nodup) :
    ∃ db', db.insertBatch clock locs = .ok (locs.map (·.sequenceID), db') ∧ Added db locs db' := by
  obtain ⟨mid, hitems, hadded⟩ := @insertItems_of_admits _ _ locs ([], db) hadmits hnodup
  unfold insertBatch
  rw [hitems]
  cases locs with
  | nil => exact ⟨mid, rfl, hadded⟩
  | cons loc locs => exact ⟨mid.touch loc.deviceID clock, rfl, hadded.touch _ _⟩

end Database

/-! ## The answer -/

/-- What a successful call answers and stores. -/
structure BatchAccount (db : Database δ) (items : List (Location δ)) (result : BatchResult)
    (db' : Database δ) : Prop where
  counted : (result.accepted ++ result.rejected.map (·.sequenceID)).Perm (items.map (·.sequenceID))
  nodup : result.accepted.Nodup
  accepted : ∀ id, id ∈ result.accepted ↔
    ∃ item, items.find? (·.sequenceID = id) = some item ∧ validateLocation item = none
  /-- A row is added for an accepted item when neither its id nor its instant is a key. Of two such
  items with one instant the first is stored. -/
  rows : ∀ key, db'.locations.lookup key = (db.locations.lookup key).or
    ((items.find? fun item => IsAccepted items item ∧ (item.deviceID, item.recordedAt) = key ∧
      (item.deviceID, item.sequenceID) ∉ db.locationIngestKeys).map (·.toTelemetry))

/-- Every item of a batch is accounted for, or nothing of it is stored. A commit that fails stores
nothing; only one whose reply is lost is left out. -/
theorem ingestBatch_account (db : Database δ) (clock : Time) (commit : Commit)
    (items : List (Location δ)) (hcommit : commit ≠ .unconfirmed) :
    match ingestBatch db clock commit items with
    | (.ok result, db') => BatchAccount db items result db'
    | (.error _, db') => db' = db := by
  unfold ingestBatch
  dsimp only
  rw [(sortItems_eq items).1, (sortItems_eq items).2]
  rcases hbatch : db.insertBatch clock (accepted [] items) with e | ⟨ids, db'⟩
  · rfl
  · obtain ⟨hids, hadded, -⟩ := Database.added_of_insertBatch (accepted_nodup items []).2 hbatch
    cases commit with
    | done =>
      dsimp only at hids hadded
      subst hids
      refine ⟨perm_accepted_rejections items [], (accepted_nodup items []).2, fun id => ?_,
        fun key => ?_⟩
      · rw [mem_accepted_ids_iff]
        simp
      · rw [hadded.rows, Database.addedRow, find?_accepted]
        simp
    | failed => rfl
    | unconfirmed => exact absurd rfl hcommit

/-- A fix of device 7 over the equator. -/
def equatorFix (sequenceID : UInt64) (recordedAt : Time) (latitude : Rat) : Location Nat where
  sequenceID
  recordedAt
  latitude
  longitude := 0
  altitude := none
  speed := none
  accuracy := none
  batteryVoltage := none
  signalStrength := none
  deviceID := 7

def oneTracker : Database Nat where
  devices := (∅ : Table Nat Device).insert 7 ⟨none, none⟩
  locations := ∅
  locationIngestKeys := ∅

/-- A duplicate and an invalid item between two good ones. -/
theorem ingestBatch_account_four :
    ∃ result db', ingestBatch oneTracker 50 .done
        [equatorFix 1 10 0, equatorFix 1 10 0, equatorFix 2 20 100, equatorFix 3 30 0] =
          (.ok result, db') ∧ result.accepted = [1, 3] ∧
      BatchAccount oneTracker
        [equatorFix 1 10 0, equatorFix 1 10 0, equatorFix 2 20 100, equatorFix 3 30 0] result
        db' := by
  have haccount := ingestBatch_account oneTracker 50 .done
    [equatorFix 1 10 0, equatorFix 1 10 0, equatorFix 2 20 100, equatorFix 3 30 0] (by decide)
  have hanswer : (ingestBatch oneTracker 50 .done
      [equatorFix 1 10 0, equatorFix 1 10 0, equatorFix 2 20 100, equatorFix 3 30 0]).1 =
        .ok ⟨[1, 3], [⟨1, "duplicate_sequence_id"⟩, ⟨2, "invalid latitude"⟩]⟩ := by
    decide +kernel
  generalize ingestBatch oneTracker 50 .done _ = r at haccount hanswer
  obtain ⟨answer, db'⟩ := r
  cases hanswer
  exact ⟨_, db', rfl, rfl, haccount⟩

end OpenGps.Backend
