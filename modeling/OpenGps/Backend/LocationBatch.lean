import OpenGps.Backend.Locations
import OpenGps.Lib.Rfc3339

/-!
# The batch endpoint

`POST …/locations/batch`: the request body (`dto/location.go`), its validation and the handler over
the service. What an accepted batch leaves in the tables: a location for every item that was not
rejected, except where its sequence id was already a key of another fix.
-/

namespace OpenGps.Backend

open OpenGps.Lib

/-! ## The request -/

/-- One item as decoded from its JSON object; an absent number is a zero or a nil pointer. -/
structure IngestLocationRequest where
  sequenceID : UInt64
  recordedAt : Rfc3339.Text
  latitude : Option Rat
  longitude : Option Rat
  altitude : Option Rat
  speed : Option Rat
  accuracy : Option Rat
  batteryVoltage : Option Rat
  signalStrength : Option Int
  deriving DecidableEq

def maxBatchItems : Nat := 20

/-- The `validate` tags of an item. -/
structure IngestLocationRequest.Valid (r : IngestLocationRequest) : Prop where
  sequenceID : r.sequenceID = 0 ∨ r.sequenceID > 0
  recordedAt : r.recordedAt ≠ [] ∧ (Rfc3339.parse r.recordedAt).isSome
  latitude : r.latitude.any fun x => -90 ≤ x ∧ x ≤ 90
  longitude : r.longitude.any fun x => -180 ≤ x ∧ x ≤ 180
  altitude : r.altitude.all fun x => -500 ≤ x ∧ x ≤ 10000
  speed : r.speed.all fun x => 0 ≤ x
  accuracy : r.accuracy.all fun x => 0 ≤ x
  batteryVoltage : r.batteryVoltage.all fun x => 0 ≤ x ∧ x ≤ 6
  signalStrength : r.signalStrength.all fun x => 0 ≤ x ∧ x ≤ 31

instance (r : IngestLocationRequest) : Decidable r.Valid :=
  decidable_of_iff
    ((r.sequenceID = 0 ∨ r.sequenceID > 0) ∧
      (r.recordedAt ≠ [] ∧ (Rfc3339.parse r.recordedAt).isSome) ∧
      (r.latitude.any fun x => -90 ≤ x ∧ x ≤ 90) ∧
      (r.longitude.any fun x => -180 ≤ x ∧ x ≤ 180) ∧
      (r.altitude.all fun x => -500 ≤ x ∧ x ≤ 10000) ∧ (r.speed.all fun x => 0 ≤ x) ∧
      (r.accuracy.all fun x => 0 ≤ x) ∧ (r.batteryVoltage.all fun x => 0 ≤ x ∧ x ≤ 6) ∧
      (r.signalStrength.all fun x => 0 ≤ x ∧ x ≤ 31))
    ⟨fun ⟨h₁, h₂, h₃, h₄, h₅, h₆, h₇, h₈, h₉⟩ => ⟨h₁, h₂, h₃, h₄, h₅, h₆, h₇, h₈, h₉⟩,
      fun ⟨h₁, h₂, h₃, h₄, h₅, h₆, h₇, h₈, h₉⟩ => ⟨h₁, h₂, h₃, h₄, h₅, h₆, h₇, h₈, h₉⟩⟩

/-- The tags of the body: `required,min=1,max=20,dive`. -/
def validBatch (items : List IngestLocationRequest) : Bool :=
  1 ≤ items.length ∧ items.length ≤ maxBatchItems ∧ ∀ item ∈ items, item.Valid

/-- `toDomainIngest` up to the device. -/
def IngestLocationRequest.toItem (r : IngestLocationRequest) : Option LocationItem := do
  let recordedAt ← Rfc3339.parse r.recordedAt
  let latitude ← r.latitude
  let longitude ← r.longitude
  return {
    sequenceID := r.sequenceID
    recordedAt, latitude, longitude
    altitude := r.altitude
    speed := r.speed
    accuracy := r.accuracy
    batteryVoltage := r.batteryVoltage
    signalStrength := r.signalStrength }

/-- The locations of a request, or none when an item cannot be converted. -/
def toLocations {δ : Type} (device : δ) (items : List IngestLocationRequest) :
    Option (List (Location δ)) :=
  items.mapM fun item => item.toItem.map (toDomainIngest · device)

/-- The answers of the handler: 400, 201, and the errors of the service. -/
inductive BatchResponse where
  | badRequest
  | created (result : BatchResult)
  | failed (err : IngestError)
  deriving DecidableEq

variable {δ : Type}

/-! ## What becomes of each item -/

/-- The locations of a request are those of its items, in order. -/
theorem toLocations_getElem {device : δ} : ∀ {items : List IngestLocationRequest}
    {locs : List (Location δ)}, toLocations device items = some locs →
    ∀ {i : Nat} {item : IngestLocationRequest}, items[i]? = some item →
      ∃ loc, locs[i]? = some loc ∧ loc.deviceID = device ∧
        Rfc3339.parse item.recordedAt = some loc.recordedAt
  | [], _, _, _, _, hitem => by cases hitem
  | first :: items, locs, h, i, item, hitem => by
    unfold toLocations at h
    rw [List.mapM_cons] at h
    obtain ⟨loc, hloc, rest⟩ := Option.bind_eq_some_iff.mp h
    obtain ⟨locs', hlocs', heq⟩ := Option.bind_eq_some_iff.mp rest
    cases heq
    cases i with
    | zero =>
      cases hitem
      refine ⟨loc, rfl, ?_⟩
      obtain ⟨it, hit, rfl⟩ := Option.map_eq_some_iff.mp hloc
      obtain ⟨t, ht, hrest⟩ := Option.bind_eq_some_iff.mp hit
      obtain ⟨_, _, hrest⟩ := Option.bind_eq_some_iff.mp hrest
      obtain ⟨_, _, hrest⟩ := Option.bind_eq_some_iff.mp hrest
      cases hrest
      exact ⟨rfl, ht⟩
    | succ i => exact toLocations_getElem hlocs' hitem

theorem length_toLocations {device : δ} : ∀ {items : List IngestLocationRequest}
    {locs : List (Location δ)}, toLocations device items = some locs → locs.length = items.length
  | [], _, h => by cases h; rfl
  | _ :: items, _, h => by
    unfold toLocations at h
    rw [List.mapM_cons] at h
    obtain ⟨_, _, rest⟩ := Option.bind_eq_some_iff.mp h
    obtain ⟨_, hlocs', heq⟩ := Option.bind_eq_some_iff.mp rest
    cases heq
    rw [List.length_cons, List.length_cons, length_toLocations hlocs']

/-- The rejection code of each item of a batch, in order; `seen` holds the ids before them. -/
def verdicts : List UInt64 → List (Location δ) → List (Option String)
  | _, [] => []
  | seen, item :: items =>
    (if item.sequenceID ∈ seen then some "duplicate_sequence_id" else validateLocation item) ::
      verdicts (item.sequenceID :: seen) items

/-- The items without a rejection code. -/
def accepted (seen : List UInt64) (items : List (Location δ)) : List (Location δ) :=
  ((items.zip (verdicts seen items)).filter (·.2 = none)).map (·.1)

/-- The rejections a response reports. -/
def rejections (seen : List UInt64) (items : List (Location δ)) : List BatchRejection :=
  (items.zip (verdicts seen items)).filterMap fun x => x.2.map (⟨x.1.sequenceID, ·⟩)

theorem sortItems_from : ∀ (items : List (Location δ)) (acc : Sorted δ) (seen : List UInt64),
    (∀ id, id ∈ acc.seen ↔ id ∈ seen) →
    (items.foldl sortItem acc).valid = acc.valid ++ accepted seen items ∧
      (items.foldl sortItem acc).rejected = acc.rejected ++ rejections seen items
  | [], acc, seen, _ => by simp [accepted, rejections]
  | item :: items, acc, seen, hseen => by
    have ih := sortItems_from items (sortItem acc item) (item.sequenceID :: seen) <| by
      intro id
      unfold sortItem
      split
      · next hdup =>
        rw [hseen, List.mem_cons]
        exact ⟨.inr, fun h => h.elim (fun h => h ▸ (hseen _).mp hdup) fun h => h⟩
      · split <;> simp only [List.mem_cons, hseen]
    rw [List.foldl_cons, ih.1, ih.2]
    unfold sortItem accepted rejections
    rw [verdicts]
    simp only [hseen]
    split
    · simp
    · split <;> simp [*]

/-- The service sorts a batch by the codes of its items. -/
theorem sortItems_eq (items : List (Location δ)) :
    (sortItems items).valid = accepted [] items ∧
      (sortItems items).rejected = rejections [] items := by
  have h := sortItems_from items ⟨[], [], []⟩ [] fun id => Iff.rfl
  rw [List.nil_append, List.nil_append] at h
  exact h

theorem length_verdicts : ∀ (seen : List UInt64) (items : List (Location δ)),
    (verdicts seen items).length = items.length
  | _, [] => rfl
  | seen, item :: items => by rw [verdicts, List.length_cons, length_verdicts, List.length_cons]

theorem mem_accepted {seen : List UInt64} {items : List (Location δ)} {i : Nat} {item : Location δ}
    (hitem : items[i]? = some item) (hverdict : (verdicts seen items)[i]? = some none) :
    item ∈ accepted seen items := by
  have hzip : (items.zip (verdicts seen items))[i]? = some (item, none) :=
    List.getElem?_zip_eq_some.mpr ⟨hitem, hverdict⟩
  exact List.mem_map.mpr ⟨(item, none),
    List.mem_filter.mpr ⟨List.mem_of_getElem? hzip, by simp⟩, rfl⟩

theorem accepted_cons (seen : List UInt64) (item : Location δ) (items : List (Location δ)) :
    accepted seen (item :: items) =
      if item.sequenceID ∉ seen ∧ validateLocation item = none then
        item :: accepted (item.sequenceID :: seen) items
      else accepted (item.sequenceID :: seen) items := by
  unfold accepted
  rw [verdicts]
  by_cases hseen : item.sequenceID ∈ seen
  · simp [hseen]
  · by_cases hvalid : validateLocation item = none
    · simp [hseen, hvalid]
    · simp [hseen, hvalid]

/-- No two accepted items share a sequence id. -/
theorem accepted_nodup : ∀ (items : List (Location δ)) (seen : List UInt64),
    (∀ item ∈ accepted seen items, item.sequenceID ∉ seen) ∧
      ((accepted seen items).map (·.sequenceID)).Nodup
  | [], _ => by simp [accepted]
  | item :: items, seen => by
    obtain ⟨hfresh, hnodup⟩ := accepted_nodup items (item.sequenceID :: seen)
    rw [accepted_cons]
    split
    · next h =>
      constructor
      · intro x hx
        rcases List.mem_cons.mp hx with rfl | hx
        · exact h.1
        · exact fun hmem => hfresh x hx (List.mem_cons_of_mem _ hmem)
      · rw [List.map_cons, List.nodup_cons]
        refine ⟨?_, hnodup⟩
        intro hmem
        obtain ⟨x, hx, heq⟩ := List.mem_map.mp hmem
        exact hfresh x hx (heq ▸ List.mem_cons_self)
    · exact ⟨fun x hx hmem => hfresh x hx (List.mem_cons_of_mem _ hmem), hnodup⟩

/-- No location is removed. -/
def Database.Keeps (db db' : Database δ) : Prop :=
  ∀ key, key ∈ db.locations → key ∈ db'.locations

theorem Database.Keeps.refl (db : Database δ) : db.Keeps db := fun _ h => h

theorem Database.Keeps.trans {db db' db'' : Database δ} (h : db.Keeps db') (h' : db'.Keeps db'') :
    db.Keeps db'' := fun key hkey => h' key (h key hkey)

/-! ## The handler -/

variable [DecidableEq δ]

/-- The middleware that validates the body, then the handler. -/
def handleIngestBatch (db : Database δ) (device : δ) (clock : Time) (commit : Commit)
    (items : List IngestLocationRequest) : BatchResponse × Database δ :=
  if ¬ validBatch items then (.badRequest, db)
  else
    match toLocations device items with
    | none => (.badRequest, db)
    | some locs =>
      match ingestBatch db clock commit locs with
      | (.error err, db) => (.failed err, db)
      | (.ok result, db) => (.created result, db)

/-! ## What a batch leaves in the tables -/

namespace Database

/-- The location of a fix is stored. -/
def Stored (db : Database δ) (loc : Location δ) : Prop :=
  (loc.deviceID, loc.recordedAt) ∈ db.locations

/-- Every sequence id that is a key was stored with the location it was sent for. -/
def Backed (db : Database δ) : Prop :=
  ∀ device sequenceID t, db.locationIngestKeys.lookup (device, sequenceID) = some t →
    (device, t) ∈ db.locations

/-- The sequence id of a fix is not a key of its device, or it is the key of this fix, or of one
recorded at an instant that has a row. -/
def FreeFor (db : Database δ) (loc : Location δ) : Prop :=
  ∀ t ∈ db.locationIngestKeys.lookup (loc.deviceID, loc.sequenceID),
    t = loc.recordedAt ∨ db.Stored loc

instance (db : Database δ) (loc : Location δ) : Decidable (db.Stored loc) :=
  inferInstanceAs (Decidable (_ ∈ db.locations))

instance (db : Database δ) (loc : Location δ) : Decidable (db.FreeFor loc) :=
  inferInstanceAs (Decidable (∀ t ∈ db.locationIngestKeys.lookup _, _))

/-- What inserting one item does to the tables. -/
structure Inserted (db : Database δ) (loc : Location δ) (db' : Database δ) : Prop where
  keeps : db.Keeps db'
  backed : db.Backed → db'.Backed
  stored : db.Backed → db.FreeFor loc → db'.Stored loc
  others : ∀ other : Location δ, other.sequenceID ≠ loc.sequenceID → db.FreeFor other →
    db'.FreeFor other

theorem insertLocation_ok {db db' : Database δ} {device : δ} {recordedAt : Time} {row : Telemetry}
    (h : db.insertLocation device recordedAt row = .ok db') :
    db.Keeps db' ∧ (device, recordedAt) ∈ db'.locations ∧
      db'.locationIngestKeys = db.locationIngestKeys := by
  unfold insertLocation at h
  dsimp only at h
  split at h
  · cases h
  · cases h
    refine ⟨?_, ?_, rfl⟩
    · intro key hkey
      rw [← AList.lookup_isSome] at hkey ⊢
      dsimp only
      by_cases heq : key = (device, recordedAt)
      · rw [heq, Table.lookup_insertNew_self]
        rfl
      · rw [Table.lookup_insertNew_of_ne heq]
        exact hkey
    · rw [← AList.lookup_isSome, Table.lookup_insertNew_self]
      rfl

theorem insertItem_ok {acc acc' : List UInt64 × Database δ} {loc : Location δ}
    (h : insertItem acc loc = .ok acc') : Inserted acc.2 loc acc'.2 := by
  unfold insertItem insertIngestKey at h
  split at h
  · cases h
  split at h
  · cases h
  dsimp only at h
  split at h
  · cases h
  by_cases hkey : (loc.deviceID, loc.sequenceID) ∈ acc.2.locationIngestKeys
  · -- The id is a key already: the item is answered as accepted and nothing is inserted.
    rw [Table.insertNew_of_mem hkey] at h
    cases h
    refine ⟨.refl _, id, fun hbacked hfree => ?_, fun _ _ h => h⟩
    obtain ⟨t, ht⟩ := Option.isSome_iff_exists.mp (AList.lookup_isSome.mpr hkey)
    rcases hfree t ht with rfl | hstored
    · exact hbacked _ _ _ ht
    · exact hstored
  · rw [Table.insertNew_of_notMem hkey] at h
    simp only [pure_bind, Nat.one_ne_zero, if_false] at h
    obtain ⟨db', hins, hret⟩ : ∃ db', Database.insertLocation
        { acc.2 with locationIngestKeys :=
            acc.2.locationIngestKeys.insert (loc.deviceID, loc.sequenceID) loc.recordedAt }
        loc.deviceID loc.recordedAt loc.toTelemetry = .ok db' ∧
        acc' = (acc.1 ++ [loc.sequenceID], db') := by
      rcases hins : Database.insertLocation
          { acc.2 with locationIngestKeys :=
              acc.2.locationIngestKeys.insert (loc.deviceID, loc.sequenceID) loc.recordedAt }
          loc.deviceID loc.recordedAt loc.toTelemetry with e | db' <;> rw [hins] at h
      · cases h
      · cases h
        exact ⟨db', rfl, rfl⟩
    obtain ⟨hkeeps, hrow, hkeys⟩ := insertLocation_ok hins
    subst hret
    refine ⟨hkeeps, ?_, fun _ _ => hrow, ?_⟩
    · intro hbacked device sequenceID t ht
      rw [hkeys] at ht
      by_cases heq : (device, sequenceID) = (loc.deviceID, loc.sequenceID)
      · rw [heq, AList.lookup_insert] at ht
        cases ht
        rw [(Prod.mk.inj heq).1]
        exact hrow
      · rw [AList.lookup_insert_ne heq] at ht
        exact hkeeps _ (hbacked _ _ _ ht)
    · intro other hne hfree t ht
      rw [hkeys, AList.lookup_insert_ne (fun h => hne (Prod.mk.inj h).2)] at ht
      exact (hfree t ht).imp id (hkeeps _)

/-- What inserting a list of items with different ids does. -/
theorem insertItems_ok : ∀ {locations : List (Location δ)} {acc acc' : List UInt64 × Database δ},
    (locations.map (·.sequenceID)).Nodup → locations.foldlM insertItem acc = .ok acc' →
    acc.2.Keeps acc'.2 ∧ (acc.2.Backed → acc'.2.Backed) ∧
      ∀ loc ∈ locations, acc.2.Backed → acc.2.FreeFor loc → acc'.2.Stored loc
  | [], acc, acc', _, h => by
    cases h
    exact ⟨.refl _, id, fun _ hmem => absurd hmem List.not_mem_nil⟩
  | loc :: locations, acc, acc', hnodup, h => by
    rw [List.map_cons, List.nodup_cons] at hnodup
    rw [List.foldlM_cons] at h
    rcases hitem : insertItem acc loc with e | mid <;> rw [hitem] at h
    · cases h
    have hone := insertItem_ok hitem
    obtain ⟨hkeeps, hbacked, hstored⟩ := insertItems_ok hnodup.2 h
    refine ⟨hone.keeps.trans hkeeps, fun hb => hbacked (hone.backed hb), ?_⟩
    intro x hx hb hfree
    rcases List.mem_cons.mp hx with rfl | hx
    · exact hkeeps _ (hone.stored hb hfree)
    · refine hstored x hx (hone.backed hb) (hone.others x ?_ hfree)
      intro heq
      exact hnodup.1 (heq ▸ List.mem_map_of_mem hx)

theorem insertBatch_ok {db db' : Database δ} {clock : Time} {locations : List (Location δ)}
    {ids : List UInt64} (hnodup : (locations.map (·.sequenceID)).Nodup)
    (h : db.insertBatch clock locations = .ok (ids, db')) :
    db.Keeps db' ∧ (db.Backed → db'.Backed) ∧
      ∀ loc ∈ locations, db.Backed → db.FreeFor loc → db'.Stored loc := by
  unfold insertBatch at h
  rcases hitems : locations.foldlM insertItem ([], db) with e | ⟨ids', mid⟩ <;> rw [hitems] at h
  · cases h
  have hall := insertItems_ok hnodup hitems
  cases locations with
  | nil => cases h; exact hall
  | cons loc rest => cases h; exact hall

end Database

/-- What the service leaves after a batch, whatever it answers. -/
theorem ingestBatch_keeps (db : Database δ) (clock : Time) (commit : Commit)
    (items : List (Location δ)) :
    db.Keeps (ingestBatch db clock commit items).2 ∧
      (db.Backed → (ingestBatch db clock commit items).2.Backed) ∧
      ∀ result, (ingestBatch db clock commit items).1 = .ok result →
        commit = .done ∧ result.rejected = rejections [] items ∧
        ∀ loc ∈ accepted [] items, db.Backed → db.FreeFor loc →
          (ingestBatch db clock commit items).2.Stored loc := by
  unfold ingestBatch
  dsimp only
  rw [(sortItems_eq items).1, (sortItems_eq items).2]
  rcases hbatch : db.insertBatch clock (accepted [] items) with e | ⟨ids, db'⟩
  · exact ⟨.refl _, id, fun _ h => by cases h⟩
  · have hok := Database.insertBatch_ok (accepted_nodup items []).2 hbatch
    cases commit with
    | done => exact ⟨hok.1, hok.2.1, fun _ h => by cases h; exact ⟨rfl, rfl, hok.2.2⟩⟩
    | failed => exact ⟨.refl _, id, fun _ h => by cases h⟩
    | unconfirmed => exact ⟨hok.1, hok.2.1, fun _ h => by cases h⟩

/-- What the handler leaves, and what its 201 stands for. -/
theorem handleIngestBatch_keeps (db : Database δ) (device : δ) (clock : Time) (commit : Commit)
    (items : List IngestLocationRequest) :
    db.Keeps (handleIngestBatch db device clock commit items).2 ∧
      (db.Backed → (handleIngestBatch db device clock commit items).2.Backed) ∧
      ∀ result, (handleIngestBatch db device clock commit items).1 = .created result →
        commit = .done ∧ ∃ locs, toLocations device items = some locs ∧
          result.rejected = rejections [] locs ∧
          ∀ loc ∈ accepted [] locs, db.Backed → db.FreeFor loc →
            (handleIngestBatch db device clock commit items).2.Stored loc := by
  unfold handleIngestBatch
  split
  · exact ⟨.refl _, id, fun _ h => by cases h⟩
  rcases hlocs : toLocations device items with _ | locs
  · exact ⟨.refl _, id, fun _ h => by cases h⟩
  have hkeeps := ingestBatch_keeps db clock commit locs
  dsimp only
  generalize ingestBatch db clock commit locs = r at hkeeps
  rcases r with ⟨e | result, db'⟩
  · exact ⟨hkeeps.1, hkeeps.2.1, fun _ h => by cases h⟩
  · refine ⟨hkeeps.1, hkeeps.2.1, fun result' h => ?_⟩
    cases h
    obtain ⟨hdone, hresult⟩ := hkeeps.2.2 result rfl
    exact ⟨hdone, locs, rfl, hresult⟩

end OpenGps.Backend
