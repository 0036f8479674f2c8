import OpenGps.Backend.BatchAccounting
import Mathlib.Data.Set.Function

/-!
# Retransmitted batches

A tracker sends its fixes until they are acknowledged, so the backend meets them again: in other
batches, in another order, twice in one batch, after a call that was rolled back and after one whose
reply was lost. As long as a sequence id always stands for one fix and no two fixes share an instant,
the table of locations depends only on which valid fixes came through, and an id that was accepted
is accepted every time.

`Holds` says what a set of fixes leaves in the tables; every committed call adds its accepted fixes
to that set. The instant of a fix has nanoseconds until the driver writes it; the service does not
look at it, so up to the last section a fix has the instant that is written.
-/

namespace OpenGps.Backend

open OpenGps.Lib

variable {δ : Type}

/-! ## Calls -/

/-- One call of `IngestBatch` for a device, as the handler makes it. -/
structure BatchCall (δ : Type) where
  device : δ
  clock : Time
  commit : Commit
  items : List LocationItem
  deriving DecidableEq

abbrev Answer := Except IngestError BatchResult

def BatchCall.locations (call : BatchCall δ) : List (Location δ) :=
  call.items.map (toDomainIngest · call.device)

/-- The fixes of a device in a list of calls. -/
def sentItems (device : δ) (calls : List (BatchCall δ)) : Set LocationItem :=
  {item | ∃ call ∈ calls, call.device = device ∧ item ∈ call.items}

/-- The fix passes `validateLocation`; the device is not looked at. -/
def LocationItem.Valid (item : LocationItem) : Prop :=
  validateLocation (toDomainIngest item ()) = none

instance (item : LocationItem) : Decidable item.Valid := inferInstanceAs (Decidable (_ = none))

/-- An id always stands for one fix, and no two fixes have one instant. -/
structure Consistent (items : Set LocationItem) : Prop where
  ids : Set.InjOn (·.sequenceID) items
  instants : Set.InjOn (·.recordedAt) items

theorem Consistent.mono {items more : Set LocationItem} (h : Consistent more)
    (hsub : items ⊆ more) : Consistent items :=
  ⟨h.ids.mono hsub, h.instants.mono hsub⟩

variable [DecidableEq δ]

def submit (db : Database δ) (call : BatchCall δ) : Answer × Database δ :=
  ingestBatch db call.clock call.commit call.locations

/-- A sequence of calls: each with its answer, and the tables after the last one. -/
def submitAll (db : Database δ) : List (BatchCall δ) → List (BatchCall δ × Answer) × Database δ
  | [] => ([], db)
  | call :: calls =>
    let (answer, db) := submit db call
    let (log, db) := submitAll db calls
    ((call, answer) :: log, db)

/-- Each fix in a call of its own. -/
def oneByOne (device : δ) (clock : Time) (items : List LocationItem) : List (BatchCall δ) :=
  items.map fun item => ⟨device, clock, .done, [item]⟩

/-! ## One call -/

omit [DecidableEq δ] in
theorem validateLocation_toDomainIngest (item : LocationItem) (device : δ) :
    validateLocation (toDomainIngest item device) = none ↔ item.Valid := Iff.rfl

/-- A call leaves the tables alone, or adds its accepted fixes, all of which were admitted; only then
it may succeed. -/
theorem submit_cases (db : Database δ) (call : BatchCall δ) :
    (∃ err, submit db call = (.error err, db)) ∨
      ((∀ loc ∈ accepted [] call.locations, db.Admits loc) ∧
        db.Added (accepted [] call.locations) (submit db call).2 ∧
        ∀ result, (submit db call).1 = .ok result →
          result.accepted = (accepted [] call.locations).map (·.sequenceID)) := by
  unfold submit ingestBatch
  dsimp only
  rw [(sortItems_eq call.locations).1]
  rcases hbatch : db.insertBatch call.clock (accepted [] call.locations) with e | ⟨ids, db'⟩
  · exact .inl ⟨_, rfl⟩
  · obtain ⟨hids, hadded, hadmits⟩ :=
      Database.added_of_insertBatch (accepted_nodup call.locations []).2 hbatch
    cases call.commit with
    | done =>
      refine .inr ⟨hadmits, hadded, fun result h => ?_⟩
      cases h
      exact hids
    | failed => exact .inl ⟨_, rfl⟩
    | unconfirmed =>
      refine .inr ⟨hadmits, hadded, fun result h => ?_⟩
      cases h

/-! ## What a set of fixes leaves -/

/-- The tables hold what the first tables held, and the fixes of the set whose id was not a key:
each with its row, unless there was one for its instant. -/
structure Holds (db : Database δ) (device : δ) (items : Set LocationItem) (st : Database δ) :
    Prop where
  keys : ∀ id, (device, id) ∈ st.locationIngestKeys ↔
    (device, id) ∈ db.locationIngestKeys ∨ ∃ item ∈ items, item.sequenceID = id
  rows : ∀ t row, st.locations.lookup (device, t) = some row ↔
    db.locations.lookup (device, t) = some row ∨
      (device, t) ∉ db.locations ∧ ∃ item ∈ items, item.recordedAt = t ∧
        (device, item.sequenceID) ∉ db.locationIngestKeys ∧ item.toTelemetry = row
  devices : ∀ d, d ∈ st.devices ↔ d ∈ db.devices
  admits : ∀ item ∈ items, db.Admits (toDomainIngest item device)

namespace Holds

variable {db st st' : Database δ} {device : δ} {items : Set LocationItem}

theorem refl (db : Database δ) (device : δ) : Holds db device ∅ db where
  keys id := by simp
  rows t row := by simp
  devices _ := Iff.rfl
  admits item h := absurd h (Set.notMem_empty item)

/-- The set decides the locations of the device. -/
theorem lookup_eq (h : Holds db device items st) (h' : Holds db device items st') (t : Time) :
    st.locations.lookup (device, t) = st'.locations.lookup (device, t) := by
  apply Option.ext
  intro row
  exact (h.rows t row).trans (h'.rows t row).symm

/-- A fix that the first tables admit is admitted later. -/
theorem admits_of (h : Holds db device items st) {item : LocationItem}
    (hitem : db.Admits (toDomainIngest item device)) : st.Admits (toDomainIngest item device) :=
  ⟨hitem.pos, hitem.fits, hitem.device.imp (fun hkey => (h.keys _).mpr (.inl hkey))
    (h.devices _).mpr⟩

variable {locs : List (Location δ)}

/-- A call for another device changes nothing here. -/
theorem other (h : Holds db device items st) (hadded : st.Added locs st')
    (hother : ∀ loc ∈ locs, loc.deviceID ≠ device) : Holds db device items st' where
  keys id := by
    rw [Database.mem_of_lookup_or (hadded.keys _), Database.isSome_addedKey, ← h.keys]
    refine or_iff_left ?_
    rintro ⟨loc, hloc, heq⟩
    exact hother loc hloc (Prod.mk.inj heq).1
  rows t row := by
    have hnone : st.addedRow locs (device, t) = none := by
      rw [Database.addedRow, Option.map_eq_none_iff, List.find?_eq_none]
      intro loc hloc
      simp [hother loc hloc]
    rw [hadded.rows, hnone, Option.or_none, h.rows]
  devices d := (hadded.devices d).trans (h.devices d)
  admits := h.admits

/-- The fixes of a list of locations join the set. -/
theorem added (h : Holds db device items st) (hadded : st.Added locs st')
    (hdevice : ∀ loc ∈ locs, loc.deviceID = device) (hadmits : ∀ loc ∈ locs, st.Admits loc)
    (hall : Consistent (items ∪ {item | toDomainIngest item device ∈ locs})) :
    Holds db device (items ∪ {item | toDomainIngest item device ∈ locs}) st' := by
  -- A location of the list is a fix of the set.
  have hloc : ∀ loc ∈ locs, toDomainIngest loc.toLocationItem device = loc := by
    intro loc hmem
    rw [← hdevice loc hmem]
    rfl
  have hmem : ∀ loc ∈ locs, loc.toLocationItem ∈
      items ∪ {item | toDomainIngest item device ∈ locs} := by
    intro loc hl
    right
    show toDomainIngest loc.toLocationItem device ∈ locs
    rw [hloc loc hl]
    exact hl
  have hinstants : Set.InjOn (fun loc : Location δ => (loc.deviceID, loc.recordedAt))
      {loc | loc ∈ locs} := by
    intro x hx y hy heq
    have hitem := hall.instants (hmem x hx) (hmem y hy) (Prod.mk.inj heq).2
    rw [← hloc x hx, ← hloc y hy, hitem]
  refine ⟨fun id => ?_, fun t row => ?_, fun d => (hadded.devices d).trans (h.devices d), ?_⟩
  · rw [Database.mem_of_lookup_or (hadded.keys _), Database.isSome_addedKey, h.keys, or_assoc]
    refine or_congr_right ?_
    constructor
    · rintro (⟨item, hitem, hid⟩ | ⟨loc, hl, heq⟩)
      · exact ⟨item, .inl hitem, hid⟩
      · exact ⟨loc.toLocationItem, hmem loc hl, (Prod.mk.inj heq).2⟩
    · rintro ⟨item, hitem | hitem, hid⟩
      · exact .inl ⟨item, hitem, hid⟩
      · exact .inr ⟨_, hitem, by rw [← hid]; rfl⟩
  · rw [hadded.rows, Option.or_eq_some_iff]
    constructor
    · rintro (hst | ⟨hnone, hadd⟩)
      · rcases (h.rows t row).mp hst with hdb | ⟨hfree, item, hitem, hrest⟩
        · exact .inl hdb
        · exact .inr ⟨hfree, item, .inl hitem, hrest⟩
      · obtain ⟨loc, hl, hkey, hnew, hrow⟩ :=
          (Database.addedRow_eq_some_iff hinstants).mp hadd
        refine .inr ⟨fun hdb => ?_, loc.toLocationItem, hmem loc hl, (Prod.mk.inj hkey).2,
          fun hdb => ?_, hrow⟩
        · obtain ⟨r, hr⟩ := Option.isSome_iff_exists.mp (AList.lookup_isSome.mpr hdb)
          cases hnone.symm.trans ((h.rows t r).mpr (.inl hr))
        · rw [hdevice loc hl] at hnew
          exact hnew ((h.keys _).mpr (.inl hdb))
    · rintro (hdb | ⟨hfree, item, hitem, ht, hnew, hrow⟩)
      · exact .inl ((h.rows t row).mpr (.inl hdb))
      by_cases hold : item ∈ items
      · exact .inl ((h.rows t row).mpr (.inr ⟨hfree, item, hold, ht, hnew, hrow⟩))
      -- A fix that is new here meets no row and no id of an earlier one.
      right
      constructor
      · rcases hst : st.locations.lookup (device, t) with _ | r
        · rfl
        rcases (h.rows t r).mp hst with hdb | ⟨-, item', hitem', ht', -⟩
        · exact absurd (AList.lookup_isSome.mp (Option.isSome_iff_exists.mpr ⟨r, hdb⟩)) hfree
        · exact absurd (hall.instants (.inl hitem') hitem (ht'.trans ht.symm) ▸ hitem') hold
      · refine (Database.addedRow_eq_some_iff hinstants).mpr
          ⟨_, hitem.resolve_left hold, by rw [← ht]; rfl, fun hkey => ?_, hrow⟩
        rcases (h.keys _).mp hkey with hdb | ⟨item', hitem', hid⟩
        · exact hnew hdb
        · exact hold (hall.ids (.inl hitem') hitem hid ▸ hitem')
  · rintro item (hitem | hitem)
    · exact h.admits item hitem
    · have hadm := hadmits _ hitem
      refine ⟨hadm.pos, hadm.fits, ?_⟩
      rcases hadm.device with hkey | hdev
      · rcases (h.keys _).mp hkey with hkey | ⟨item', hitem', hid⟩
        · exact .inl hkey
        · -- The id came with an earlier call, and so with this fix.
          have hsame := hall.ids (.inl hitem') (.inr hitem) hid
          exact hsame ▸ (h.admits item' hitem').device
      · exact .inr ((h.devices _).mp hdev)

end Holds

/-! ## Runs of calls -/

variable {db st : Database δ} {device : δ} {items : Set LocationItem}

omit [DecidableEq δ] in
theorem sentItems_singleton {call : BatchCall δ} (h : call.device = device) :
    sentItems device [call] = {item | item ∈ call.items} := by
  ext item
  simp [sentItems, h]

omit [DecidableEq δ] in
theorem item_of_mem_accepted {call : BatchCall δ} {item : LocationItem}
    (h : toDomainIngest item call.device ∈ accepted [] call.locations) :
    item ∈ call.items ∧ item.Valid := by
  obtain ⟨item', hitem', heq⟩ := List.mem_map.mp ((accepted_sublist _ _).subset h)
  have hsame : item' = item := congrArg Location.toLocationItem heq
  exact ⟨hsame ▸ hitem',
    (validateLocation_toDomainIngest item _).mp (validateLocation_of_mem_accepted h)⟩

omit [DecidableEq δ] in
/-- Where an id stands for one fix, every valid fix of a call is accepted. -/
theorem mem_accepted_of_valid {call : BatchCall δ} {item : LocationItem}
    (hids : Set.InjOn (·.sequenceID) {item | item ∈ call.items}) (hitem : item ∈ call.items)
    (hvalid : item.Valid) : toDomainIngest item call.device ∈ accepted [] call.locations := by
  -- The first location of the id is this fix, so that the id is accepted; and for this fix.
  have hsame : ∀ loc ∈ call.locations, loc.sequenceID = item.sequenceID →
      loc = toDomainIngest item call.device := by
    intro loc hloc hid
    obtain ⟨item', hitem', rfl⟩ := List.mem_map.mp hloc
    rw [hids hitem' hitem hid]
  have hmem : toDomainIngest item call.device ∈ call.locations := List.mem_map_of_mem hitem
  have haccepted : item.sequenceID ∈ (accepted [] call.locations).map (·.sequenceID) := by
    rw [mem_accepted_ids_iff]
    refine ⟨List.not_mem_nil, ?_⟩
    rcases hfind : call.locations.find? (·.sequenceID = item.sequenceID) with _ | loc
    · simpa [toDomainIngest] using List.find?_eq_none.mp hfind _ hmem
    · refine ⟨loc, hfind, ?_⟩
      rw [hsame loc (List.mem_of_find?_eq_some hfind) (by simpa using List.find?_some hfind)]
      exact hvalid
  obtain ⟨loc, hloc, hid⟩ := List.mem_map.mp haccepted
  rwa [hsame loc ((accepted_sublist _ _).subset hloc) hid] at hloc

/-- A call adds accepted fixes of its device to the set, and every valid one when it succeeds. -/
theorem Holds.call (h : Holds db device items st) (call : BatchCall δ)
    (hall : Consistent (items ∪ sentItems device [call])) :
    ∃ more, Holds db device more (submit st call).2 ∧ items ⊆ more ∧
      more ⊆ items ∪ {item ∈ sentItems device [call] | item.Valid} ∧
      ∀ result, (submit st call).1 = .ok result → call.device = device →
        ∀ item ∈ call.items, item.Valid → item ∈ more := by
  rcases submit_cases st call with ⟨err, herr⟩ | ⟨hadmits, hadded, -⟩
  · rw [herr]
    exact ⟨items, h, subset_rfl, Set.subset_union_left, fun _ hok => by cases hok⟩
  by_cases hdevice : call.device = device
  · subst hdevice
    rw [sentItems_singleton rfl] at hall ⊢
    have hsub : {item | toDomainIngest item call.device ∈ accepted [] call.locations} ⊆
        {item | item ∈ call.items} := fun item hitem => (item_of_mem_accepted hitem).1
    refine ⟨_, h.added hadded ?_ hadmits (hall.mono (Set.union_subset_union_right _ hsub)),
      Set.subset_union_left, ?_, ?_⟩
    · intro loc hloc
      obtain ⟨item, -, rfl⟩ := List.mem_map.mp ((accepted_sublist _ _).subset hloc)
      rfl
    · exact Set.union_subset_union_right _ fun item hitem => item_of_mem_accepted hitem
    · intro result _ _ item hitem hvalid
      exact .inr (mem_accepted_of_valid (hall.ids.mono Set.subset_union_right) hitem hvalid)
  · refine ⟨items, h.other hadded ?_, subset_rfl, Set.subset_union_left,
      fun _ _ heq => absurd heq hdevice⟩
    intro loc hloc
    obtain ⟨item, -, rfl⟩ := List.mem_map.mp ((accepted_sublist _ _).subset hloc)
    exact hdevice

omit [DecidableEq δ] in
theorem sentItems_cons {call : BatchCall δ} {calls : List (BatchCall δ)} :
    sentItems device (call :: calls) = sentItems device [call] ∪ sentItems device calls := by
  ext item
  simp [sentItems]

/-- What a run of calls leaves: the set it started with and valid fixes of its calls, with every one
of a call that succeeded. -/
theorem Holds.calls {calls : List (BatchCall δ)} (h : Holds db device items st)
    (hall : Consistent (items ∪ sentItems device calls)) :
    ∃ more, Holds db device more (submitAll st calls).2 ∧ items ⊆ more ∧
      more ⊆ items ∪ {item ∈ sentItems device calls | item.Valid} ∧
      ∀ entry ∈ (submitAll st calls).1, entry.1.device = device → ∀ result,
        entry.2 = .ok result → ∀ item ∈ entry.1.items, item.Valid → item ∈ more := by
  induction calls generalizing items st with
  | nil => exact ⟨items, h, subset_rfl, Set.subset_union_left, by simp [submitAll]⟩
  | cons call calls ih =>
    rw [sentItems_cons] at hall ⊢
    obtain ⟨mid, hmid, hsub, hsup, hvalid⟩ := h.call call
      (hall.mono (Set.union_subset_union_right _ Set.subset_union_left))
    have hmidAll : mid ∪ sentItems device calls ⊆
        items ∪ (sentItems device [call] ∪ sentItems device calls) := by
      rintro item (hitem | hitem)
      · rcases hsup hitem with hitem | hitem
        · exact .inl hitem
        · exact .inr (.inl hitem.1)
      · exact .inr (.inr hitem)
    obtain ⟨more, hmore, hsub', hsup', hvalid'⟩ := ih hmid (hall.mono hmidAll)
    refine ⟨more, hmore, hsub.trans hsub', ?_, ?_⟩
    · intro item hitem
      rcases hsup' hitem with hitem | hitem
      · rcases hsup hitem with hitem | hitem
        · exact .inl hitem
        · exact .inr ⟨.inl hitem.1, hitem.2⟩
      · exact .inr ⟨.inr hitem.1, hitem.2⟩
    · intro entry hentry hdevice result hok item hitem hv
      rcases List.mem_cons.mp hentry with rfl | hentry
      · exact hsub' (hvalid result hok hdevice item hitem hv)
      · exact hvalid' entry hentry hdevice result hok item hitem hv

/-- A valid fix that is admitted is accepted in a call of its own. -/
theorem submit_one {item : LocationItem} (clock : Time) (hvalid : item.Valid)
    (hadmits : st.Admits (toDomainIngest item device)) :
    ∃ st', submit st ⟨device, clock, .done, [item]⟩ = (.ok ⟨[item.sequenceID], []⟩, st') ∧
      st.Added [toDomainIngest item device] st' := by
  have hvalidate := (validateLocation_toDomainIngest item device).mpr hvalid
  have hall : ∀ loc ∈ [toDomainIngest item device], st.Admits loc := by simpa using hadmits
  obtain ⟨st', hbatch, hadded⟩ := Database.insertBatch_of_admits clock hall
    (List.nodup_singleton _)
  refine ⟨st', ?_, hadded⟩
  have hsorted : sortItems [toDomainIngest item device] =
      ⟨[toDomainIngest item device], [], [item.sequenceID]⟩ := by
    show sortItem ⟨[], [], []⟩ (toDomainIngest item device) = _
    unfold sortItem
    rw [if_neg List.not_mem_nil]
    dsimp only
    rw [hvalidate]
    rfl
  unfold submit ingestBatch
  rw [show (⟨device, clock, .done, [item]⟩ : BatchCall δ).locations =
    [toDomainIngest item device] from rfl, hsorted]
  dsimp only
  rw [hbatch]
  rfl

/-- Fixes that are admitted are accepted one by one. -/
theorem Holds.oneByOne {todo : List LocationItem} (clock : Time)
    (h : Holds db device items st) (hall : Consistent (items ∪ {item | item ∈ todo}))
    (hadmits : ∀ item ∈ todo, item.Valid ∧ db.Admits (toDomainIngest item device)) :
    Holds db device (items ∪ {item | item ∈ todo})
        (submitAll st (Backend.oneByOne device clock todo)).2 ∧
      ∀ entry ∈ (submitAll st (Backend.oneByOne device clock todo)).1,
        entry.2 = .ok ⟨entry.1.items.map (·.sequenceID), []⟩ := by
  induction todo generalizing items st with
  | nil =>
    refine ⟨?_, by simp [Backend.oneByOne, submitAll]⟩
    simpa [Backend.oneByOne, submitAll] using h
  | cons item todo ih =>
    obtain ⟨hvalid, hadm⟩ := hadmits item List.mem_cons_self
    obtain ⟨st', hsubmit, hadded⟩ := submit_one clock hvalid (h.admits_of hadm)
    have hset : {x | toDomainIngest x device ∈ [toDomainIngest item device]} = {item} := by
      ext x
      simp [toDomainIngest]
    have hsplit : items ∪ {x | x ∈ item :: todo} = (items ∪ {item}) ∪ {x | x ∈ todo} := by
      ext x
      simp [or_assoc, or_left_comm]
    rw [hsplit] at hall ⊢
    have hone := h.added hadded (by simp [toDomainIngest]) (by simpa using h.admits_of hadm)
      (hset ▸ hall.mono Set.subset_union_left)
    rw [hset] at hone
    obtain ⟨hrest, hlog⟩ := ih hone hall fun x hx => hadmits x (List.mem_cons_of_mem _ hx)
    have hcons : submitAll st (Backend.oneByOne device clock (item :: todo)) =
        ((⟨device, clock, .done, [item]⟩, .ok ⟨[item.sequenceID], []⟩) ::
          (submitAll st' (Backend.oneByOne device clock todo)).1,
          (submitAll st' (Backend.oneByOne device clock todo)).2) := by
      rw [Backend.oneByOne, List.map_cons, submitAll, hsubmit]
      rfl
    rw [hcons]
    refine ⟨hrest, fun entry hentry => ?_⟩
    rcases List.mem_cons.mp hentry with rfl | hentry
    · rfl
    · exact hlog entry hentry

/-! ## Retransmission -/

/-- The answer of a call in a log is what the call answers somewhere. -/
theorem mem_submitAll {calls : List (BatchCall δ)} {entry : BatchCall δ × Answer}
    (h : entry ∈ (submitAll st calls).1) :
    entry.1 ∈ calls ∧ ∃ st', entry.2 = (submit st' entry.1).1 := by
  induction calls generalizing st with
  | nil => simp [submitAll] at h
  | cons call calls ih =>
    rcases List.mem_cons.mp h with rfl | h
    · exact ⟨List.mem_cons_self, st, rfl⟩
    · obtain ⟨hmem, hanswer⟩ := ih h
      exact ⟨List.mem_cons_of_mem _ hmem, hanswer⟩

/-- A call that succeeds reports the ids of its accepted fixes. -/
theorem accepted_of_submit {call : BatchCall δ} {result : BatchResult}
    (h : (submit st call).1 = .ok result) :
    result.accepted = (accepted [] call.locations).map (·.sequenceID) := by
  rcases submit_cases st call with ⟨err, herr⟩ | ⟨-, -, hok⟩
  · rw [herr] at h
    cases h
  · exact hok result h

/-- Batch ingestion does not depend on how the fixes of a device arrive, as they are written. -/
theorem written_insensitive (calls : List (BatchCall δ))
    (hall : Consistent (sentItems device calls))
    (hresent : ∀ item ∈ sentItems device calls, item.Valid →
      ∃ entry ∈ (submitAll db calls).1, entry.1.device = device ∧ item ∈ entry.1.items ∧
        ∃ result, entry.2 = .ok result)
    {once : List LocationItem}
    (honce : ∀ item, item ∈ once ↔ item ∈ sentItems device calls ∧ item.Valid) (clock : Time) :
    (∀ entry ∈ (submitAll db (oneByOne device clock once)).1,
      entry.2 = .ok ⟨entry.1.items.map (·.sequenceID), []⟩) ∧
    (∀ t, (submitAll db calls).2.locations.lookup (device, t) =
      (submitAll db (oneByOne device clock once)).2.locations.lookup (device, t)) ∧
    Holds db device {item | item ∈ once} (submitAll db calls).2 ∧
    ∀ first ∈ (submitAll db calls).1, ∀ later ∈ (submitAll db calls).1,
      first.1.device = device → later.1.device = device →
      ∀ result result', first.2 = .ok result → later.2 = .ok result' →
        ∀ id ∈ result.accepted, id ∈ later.1.items.map (·.sequenceID) → id ∈ result'.accepted := by
  obtain ⟨more, hmore, -, hsup, hvalid⟩ := (Holds.refl db device).calls (by simpa using hall)
  rw [Set.empty_union] at hsup
  -- The set of the run is the valid fixes.
  have hset : more = {item | item ∈ once} := by
    ext item
    show item ∈ more ↔ item ∈ once
    rw [honce]
    constructor
    · exact fun hitem => hsup hitem
    · rintro ⟨hsent, hv⟩
      obtain ⟨entry, hentry, hdevice, hitem, result, hok⟩ := hresent item hsent hv
      exact hvalid entry hentry hdevice result hok item hitem hv
  subst hset
  have honceAll : Consistent (∅ ∪ {item | item ∈ once}) := by
    rw [Set.empty_union]
    exact hall.mono fun item hitem => ((honce item).mp hitem).1
  have hsingle := (Holds.refl db device).oneByOne clock honceAll fun item hitem =>
    ⟨((honce item).mp hitem).2, hmore.admits item hitem⟩
  rw [Set.empty_union] at hsingle
  refine ⟨hsingle.2, hmore.lookup_eq hsingle.1, hmore, ?_⟩
  intro first hfirst later hlater hdev hdev' result result' hok hok' id hid hmem
  obtain ⟨hcall, st₁, hans⟩ := mem_submitAll hfirst
  obtain ⟨hcall', st₂, hans'⟩ := mem_submitAll hlater
  rw [accepted_of_submit (hans.symm.trans hok)] at hid
  rw [accepted_of_submit (hans'.symm.trans hok')]
  obtain ⟨loc, hloc, rfl⟩ := List.mem_map.mp hid
  obtain ⟨item, hitem, rfl⟩ := List.mem_map.mp ((accepted_sublist _ _).subset hloc)
  obtain ⟨item', hitem', heq⟩ := List.mem_map.mp hmem
  -- The later call carries the same fix.
  have hsame : item' = item := hall.ids ⟨_, hcall', hdev', hitem'⟩ ⟨_, hcall, hdev, hitem⟩ heq
  subst hsame
  have hids : Set.InjOn (·.sequenceID) {item | item ∈ later.1.items} :=
    hall.ids.mono fun x hx =>
      (⟨later.1, hcall', hdev', hx⟩ : x ∈ sentItems device calls)
  exact List.mem_map_of_mem
    (f := (·.sequenceID)) (mem_accepted_of_valid hids hitem' (item_of_mem_accepted hloc).2)

/-! ## Instants in nanoseconds -/

/-- A fix as the handler reads it, with the nanoseconds of its text. -/
structure SentItem extends Telemetry where
  sequenceID : UInt64
  recordedAt : Nanos
  deriving DecidableEq

/-- A call with its fixes as they are sent. -/
structure SentCall (δ : Type) where
  device : δ
  clock : Time
  commit : Commit
  items : List SentItem

/-- The fix of an item of the request. -/
def IngestLocationRequest.toSent (r : IngestLocationRequest) : Option SentItem := do
  let recordedAt ← Rfc3339.parseNanos r.recordedAt
  let latitude ← r.latitude
  let longitude ← r.longitude
  return {
    sequenceID := r.sequenceID
    recordedAt, latitude, longitude
    altitude := r.altitude
    speed := r.speed
    accuracy := r.accuracy
    batteryVoltage := r.batteryVoltage
    signalStrength := r.signalStrength }

section
variable (codec : TimestampCodec)

/-- The fix with the instant that the driver writes. -/
def SentItem.written (item : SentItem) : LocationItem :=
  { item with recordedAt := codec.encode item.recordedAt }

def SentItem.Valid (item : SentItem) : Prop := (item.written codec).Valid

instance (item : SentItem) : Decidable (item.Valid codec) :=
  inferInstanceAs (Decidable (LocationItem.Valid _))

def SentCall.written (call : SentCall δ) : BatchCall δ :=
  ⟨call.device, call.clock, call.commit, call.items.map (·.written codec)⟩

/-- The calls, one after the other, over the tables. -/
def sendAll (db : Database δ) (calls : List (SentCall δ)) :
    List (BatchCall δ × Answer) × Database δ :=
  submitAll db (calls.map (·.written codec))

/-- The calls that send each fix once. -/
def sendOnce (device : δ) (clock : Time) (items : List SentItem) : List (SentCall δ) :=
  items.map fun item => ⟨device, clock, .done, [item]⟩

end

/-- The fixes of a device in a list of calls. -/
def sentTo (device : δ) (calls : List (SentCall δ)) : Set SentItem :=
  {item | ∃ call ∈ calls, call.device = device ∧ item ∈ call.items}

omit [DecidableEq δ] in
/-- The handler of `LocationBatch` has the fix as it is written. -/
theorem toItem_eq (r : IngestLocationRequest) :
    r.toItem = r.toSent.map (·.written microsecondCodec) := by
  unfold IngestLocationRequest.toItem IngestLocationRequest.toSent
  rw [Rfc3339.parse_eq]
  simp only [Option.bind_eq_bind, Option.map_bind, Option.bind_map, Function.comp_def]
  rfl

section
variable {codec : TimestampCodec}

omit [DecidableEq δ] in
theorem sentItems_written (device : δ) (calls : List (SentCall δ)) :
    sentItems device (calls.map (·.written codec)) =
      (·.written codec) '' sentTo device calls := by
  ext item
  constructor
  · rintro ⟨_, hwritten, hdevice, hitem⟩
    obtain ⟨call, hcall, rfl⟩ := List.mem_map.mp hwritten
    obtain ⟨sent, hsent, rfl⟩ := List.mem_map.mp hitem
    exact ⟨sent, ⟨call, hcall, hdevice, hsent⟩, rfl⟩
  · rintro ⟨sent, ⟨call, hcall, hdevice, hsent⟩, rfl⟩
    exact ⟨_, List.mem_map_of_mem hcall, hdevice, List.mem_map_of_mem hsent⟩

omit [DecidableEq δ] in
theorem consistent_written {items : Set SentItem} (hids : Set.InjOn (·.sequenceID) items)
    (hinstants : Set.InjOn (fun item => codec.encode item.recordedAt) items) :
    Consistent ((·.written codec) '' items) where
  ids := by
    rintro _ ⟨x, hx, rfl⟩ _ ⟨y, hy, rfl⟩ heq
    rw [hids hx hy heq]
  instants := by
    rintro _ ⟨x, hx, rfl⟩ _ ⟨y, hy, rfl⟩ heq
    rw [hinstants hx hy heq]

/-- Batch ingestion does not depend on how the fixes of a device arrive, where an id stands for one
fix and different fixes are written with different instants. Where every valid fix comes through in
some successful call, the locations of the device are those of sending each valid fix once, in any
order: beside the rows that were there, the one of each valid fix whose id was not a key. And an id
that a call accepts is accepted by every successful call that contains it. Calls for other devices
may stand between. -/
theorem retransmission_insensitive (codec : TimestampCodec) (calls : List (SentCall δ))
    (hids : Set.InjOn (·.sequenceID) (sentTo device calls))
    (hinstants : Set.InjOn (fun item => codec.encode item.recordedAt) (sentTo device calls))
    (hresent : ∀ item ∈ sentTo device calls, item.Valid codec →
      ∃ entry ∈ (sendAll codec db calls).1, entry.1.device = device ∧
        item.written codec ∈ entry.1.items ∧ ∃ result, entry.2 = .ok result)
    {once : List SentItem}
    (honce : ∀ item, item ∈ once ↔ item ∈ sentTo device calls ∧ item.Valid codec) (clock : Time) :
    (∀ entry ∈ (sendAll codec db (sendOnce device clock once)).1,
      entry.2 = .ok ⟨entry.1.items.map (·.sequenceID), []⟩) ∧
    (∀ t, (sendAll codec db calls).2.locations.lookup (device, t) =
      (sendAll codec db (sendOnce device clock once)).2.locations.lookup (device, t)) ∧
    (∀ t row, (sendAll codec db calls).2.locations.lookup (device, t) = some row ↔
      db.locations.lookup (device, t) = some row ∨
        (device, t) ∉ db.locations ∧ ∃ item ∈ sentTo device calls, item.Valid codec ∧
          codec.encode item.recordedAt = t ∧
          (device, item.sequenceID) ∉ db.locationIngestKeys ∧ item.toTelemetry = row) ∧
    ∀ first ∈ (sendAll codec db calls).1, ∀ later ∈ (sendAll codec db calls).1,
      first.1.device = device → later.1.device = device →
      ∀ result result', first.2 = .ok result → later.2 = .ok result' →
        ∀ id ∈ result.accepted, id ∈ later.1.items.map (·.sequenceID) → id ∈ result'.accepted := by
  have hmem : ∀ item, item ∈ once.map (·.written codec) ↔
      item ∈ sentItems device (calls.map (·.written codec)) ∧ item.Valid := by
    intro item
    rw [sentItems_written, List.mem_map]
    constructor
    · rintro ⟨sent, hsent, rfl⟩
      obtain ⟨hto, hvalid⟩ := (honce sent).mp hsent
      exact ⟨⟨sent, hto, rfl⟩, hvalid⟩
    · rintro ⟨⟨sent, hto, rfl⟩, hvalid⟩
      exact ⟨sent, (honce sent).mpr ⟨hto, hvalid⟩, rfl⟩
  have hone : sendAll codec db (sendOnce device clock once) =
      submitAll db (oneByOne device clock (once.map (·.written codec))) := by
    rw [sendAll, sendOnce, oneByOne, List.map_map, List.map_map]
    rfl
  have hanswered : ∀ item ∈ sentItems device (calls.map (·.written codec)), item.Valid →
      ∃ entry ∈ (submitAll db (calls.map (·.written codec))).1,
        entry.1.device = device ∧ item ∈ entry.1.items ∧ ∃ result, entry.2 = .ok result := by
    rw [sentItems_written]
    rintro _ ⟨sent, hsent, rfl⟩ hvalid
    exact hresent sent hsent hvalid
  obtain ⟨haccepted, hsame, hholds, hagain⟩ := written_insensitive
    (calls.map (·.written codec))
    (sentItems_written device calls ▸ consistent_written hids hinstants) hanswered hmem clock
  rw [hone]
  refine ⟨haccepted, hsame, fun t row => (hholds.rows t row).trans (or_congr_right
    (and_congr_right fun _ => ?_)), hagain⟩
  constructor
  · rintro ⟨item, hitem, hrest⟩
    obtain ⟨sent, hsent, rfl⟩ := List.mem_map.mp hitem
    obtain ⟨hto, hvalid⟩ := (honce sent).mp hsent
    exact ⟨sent, hto, hvalid, hrest⟩
  · rintro ⟨sent, hto, hvalid, hrest⟩
    exact ⟨sent.written codec,
      List.mem_map_of_mem ((honce sent).mpr ⟨hto, hvalid⟩), hrest⟩

end

/-- A valid fix with this id, instant and latitude. -/
def fixSent (sequenceID : UInt64) (recordedAt : Nanos) (latitude : Rat) : SentItem :=
  ⟨⟨latitude, 0, none, none, none, none, none⟩, sequenceID, recordedAt⟩

/-- Three fixes, of which the second is off the map. -/
def threeFixes : List SentItem := [fixSent 1 10500 0, fixSent 2 20000 100, fixSent 3 30000 0]

/-- A call that is rolled back, and then its fixes in another order and grouping. -/
def threeCalls : List (SentCall Nat) :=
  [⟨7, 40, .failed, threeFixes⟩, ⟨7, 50, .done, threeFixes.reverse.take 2⟩,
    ⟨7, 60, .done, threeFixes ++ threeFixes⟩]

theorem mem_sentTo_threeCalls {item : SentItem} :
    item ∈ sentTo 7 threeCalls ↔ item ∈ threeFixes := by
  simp [sentTo, threeCalls, threeFixes]
  tauto

set_option maxRecDepth 20000 in
theorem retransmission_insensitive_three :
    (fun t => (sendAll microsecondCodec oneTracker threeCalls).2.locations.lookup (7, t)) =
      fun t => (sendAll microsecondCodec oneTracker
        (sendOnce 7 70 [fixSent 1 10500 0, fixSent 3 30000 0])).2.locations.lookup (7, t) := by
  have hids : ∀ x ∈ threeFixes, ∀ y ∈ threeFixes, x.sequenceID = y.sequenceID → x = y := by
    decide +kernel
  have hinstants : ∀ x ∈ threeFixes, ∀ y ∈ threeFixes,
      microsecondCodec.encode x.recordedAt = microsecondCodec.encode y.recordedAt → x = y := by
    decide +kernel
  have hresent : ∀ item ∈ threeFixes, item.Valid microsecondCodec →
      ∃ entry ∈ (sendAll microsecondCodec oneTracker threeCalls).1, entry.1.device = 7 ∧
        item.written microsecondCodec ∈ entry.1.items ∧ entry.2.toOption.isSome := by
    decide +kernel
  have honce : ∀ item ∈ threeFixes, item.Valid microsecondCodec ↔
      item ∈ [fixSent 1 10500 0, fixSent 3 30000 0] := by
    decide +kernel
  refine funext (retransmission_insensitive microsecondCodec threeCalls ?_ ?_ ?_ ?_ 70).2.1
  · exact fun x hx y hy => hids x (mem_sentTo_threeCalls.mp hx) y (mem_sentTo_threeCalls.mp hy)
  · exact fun x hx y hy =>
      hinstants x (mem_sentTo_threeCalls.mp hx) y (mem_sentTo_threeCalls.mp hy)
  · intro item hitem hvalid
    obtain ⟨entry, hentry, hdevice, hmem, hok⟩ :=
      hresent item (mem_sentTo_threeCalls.mp hitem) hvalid
    refine ⟨entry, hentry, hdevice, hmem, ?_⟩
    cases hanswer : entry.2 with
    | ok result => exact ⟨result, rfl⟩
    | error err =>
      rw [hanswer] at hok
      cases hok
  · intro item
    rw [mem_sentTo_threeCalls]
    constructor
    · intro hmem
      have hfix : item ∈ threeFixes := by
        simp [threeFixes] at hmem ⊢
        tauto
      exact ⟨hfix, (honce item hfix).mpr hmem⟩
    · rintro ⟨hfix, hvalid⟩
      exact (honce item hfix).mp hvalid

/-- Two fixes within a microsecond: the one that comes first is stored. -/
def closeFixes : List SentItem := [fixSent 1 10200 0, fixSent 2 10700 1]

/-- Their instants differ, and sent once each in the other order they leave another location. -/
theorem retransmission_order :
    ¬ ∀ (calls : List (SentCall Nat)) (once : List SentItem) (clock : Time),
      Set.InjOn (·.sequenceID) (sentTo 7 calls) → Set.InjOn (·.recordedAt) (sentTo 7 calls) →
      (∀ item ∈ sentTo 7 calls, item.Valid microsecondCodec →
        ∃ entry ∈ (sendAll microsecondCodec oneTracker calls).1, entry.1.device = 7 ∧
          item.written microsecondCodec ∈ entry.1.items ∧ ∃ result, entry.2 = .ok result) →
      (∀ item, item ∈ once ↔ item ∈ sentTo 7 calls ∧ item.Valid microsecondCodec) →
      ∀ t, (sendAll microsecondCodec oneTracker calls).2.locations.lookup (7, t) =
        (sendAll microsecondCodec oneTracker (sendOnce 7 clock once)).2.locations.lookup
          (7, t) := by
  intro hall
  have hsent : ∀ item, item ∈ sentTo 7 (sendOnce 7 70 closeFixes) ↔ item ∈ closeFixes := by
    intro item
    simp [sentTo, sendOnce, closeFixes]
  have hids : ∀ x ∈ closeFixes, ∀ y ∈ closeFixes, x.sequenceID = y.sequenceID → x = y := by
    decide +kernel
  have hinstants : ∀ x ∈ closeFixes, ∀ y ∈ closeFixes, x.recordedAt = y.recordedAt → x = y := by
    decide +kernel
  have hvalid : ∀ item ∈ closeFixes, item.Valid microsecondCodec := by decide +kernel
  have hresent : ∀ item ∈ closeFixes,
      ∃ entry ∈ (sendAll microsecondCodec oneTracker (sendOnce 7 70 closeFixes)).1,
        entry.1.device = 7 ∧ item.written microsecondCodec ∈ entry.1.items ∧
          entry.2 = .ok ⟨entry.1.items.map (·.sequenceID), []⟩ := by
    decide +kernel
  have hsame := hall (sendOnce 7 70 closeFixes) closeFixes.reverse 70
    (fun x hx y hy => hids x ((hsent x).mp hx) y ((hsent y).mp hy))
    (fun x hx y hy => hinstants x ((hsent x).mp hx) y ((hsent y).mp hy))
    (fun item hitem _ => by
      obtain ⟨entry, hentry, hdevice, hmem, hok⟩ := hresent item ((hsent item).mp hitem)
      exact ⟨entry, hentry, hdevice, hmem, _, hok⟩)
    (fun item => by
      rw [List.mem_reverse, hsent]
      exact ⟨fun h => ⟨h, hvalid item h⟩, And.left⟩) 10
  revert hsame
  decide +kernel

end OpenGps.Backend
