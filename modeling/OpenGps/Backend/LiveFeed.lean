import OpenGps.Backend.LiveIngest
import OpenGps.Backend.LocationReads

/-!
# The live feed of the two ingest paths

Which calls feed the subscribers of their device with its live state after the call, and with which
location a subscriber ends that has taken every event it was sent.

A call of `Ingest` publishes what it read, and other calls write between its read and its publish.
So the last event shows the latest location as long as no location that changes it is written while
a call of the device holds a live state that it has not published.
-/

namespace OpenGps.Backend

open OpenGps.Lib

variable {δ : Type} [DecidableEq δ]

/-! ## The latest location -/

namespace Database

variable {db : Database δ} {device : δ}

theorem newer_of_ne {best : Option (Time × Telemetry)} {row : (δ × Time) × Telemetry}
    (h : row.1.1 ≠ device) : newer device best row = best :=
  if_neg fun hrow => h hrow.1

/-- A row of another device is no location of this one. -/
theorem insertLocation_getLatest {db' : Database δ} {d : δ} {recordedAt : Time} {row : Telemetry}
    (hne : d ≠ device) (h : db.insertLocation d recordedAt row = .ok db') :
    db'.getLatest device = db.getLatest device := by
  have hrows : (db.locations.insertNew (d, recordedAt) row).2.rows.foldl (newer device) none =
      db.locations.rows.foldl (newer device) none := by
    by_cases hmem : (d, recordedAt) ∈ db.locations
    · rw [Table.insertNew_of_mem hmem]
    · rw [Table.insertNew_of_notMem hmem, Table.rows, AList.entries_insert_of_notMem hmem,
        List.map_cons, List.foldl_cons, newer_of_ne hne]
      rfl
  simp only [insertLocation] at h
  split at h
  · cases h
  · cases h
    rw [getLatest, hrows]
    rfl

/-- A write of `Ingest` leaves the locations of the other devices. -/
theorem ingestWrite_getLatest {clock : Time} {commit : Commit} {loc : Location δ}
    (hne : loc.deviceID ≠ device) :
    (ingestWrite db clock commit loc).2.getLatest device = db.getLatest device := by
  have hinsert : ∀ db', db.insert clock loc = .ok db' →
      db'.getLatest device = db.getLatest device := by
    intro db' h
    rw [insert] at h
    cases hrow : db.insertLocation loc.deviceID loc.recordedAt
        { loc.toTelemetry with signalStrength := loc.signalStrength.map toInt32 } with
    | error e =>
      rw [hrow] at h
      cases h
    | ok db₁ =>
      rw [hrow] at h
      cases h
      have hsame := insertLocation_getLatest hne hrow
      exact hsame
  rw [ingestWrite]
  split
  · rfl
  · cases hwrite : db.insert clock loc with
    | error e => rfl
    | ok db' =>
      cases commit with
      | failed => rfl
      | done | unconfirmed => exact hinsert db' hwrite

end Database

/-! ## The order of the reads -/

/-- The call holds a live state that it has not published. -/
def IngestCall.Held (c : IngestCall δ) : Prop := c.progress = .read ∨ c.progress = .drawn

instance (c : IngestCall δ) : Decidable c.Held := inferInstanceAs (Decidable (_ ∨ _))

/-- The call is to publish. -/
def IngestCall.Pending (c : IngestCall δ) : Prop := c.progress = .stored ∨ c.Held

namespace Database

def SameLatest (db db' : Database δ) : Prop :=
  ∀ device, db'.getLatest device = db.getLatest device

/-- Only the devices with a location matter. -/
theorem sameLatest_iff {db db' : Database δ} : db.SameLatest db' ↔
    ∀ k ∈ db.locations.keys ++ db'.locations.keys, db'.getLatest k.1 = db.getLatest k.1 := by
  constructor
  · exact fun h k _ => h k.1
  · intro h device
    have hnone : ∀ {db'' : Database δ}, db''.getLatest device ≠ none →
        ∃ recordedAt, (device, recordedAt) ∈ db''.locations.keys := by
      intro db'' hsome
      obtain ⟨recordedAt, row, hrow⟩ := getLatest_isSome.mp (Option.isSome_iff_ne_none.mpr hsome)
      exact ⟨recordedAt, AList.mem_keys.mp (AList.lookup_isSome.mp (by rw [hrow]; rfl))⟩
    by_contra hne
    have hboth : db.getLatest device ≠ none ∨ db'.getLatest device ≠ none := by
      by_contra hnot
      rw [not_or, not_not, not_not] at hnot
      exact hne (hnot.2.trans hnot.1.symm)
    rcases hboth with hold | hnew
    · obtain ⟨recordedAt, hmem⟩ := hnone hold
      exact hne (h _ (List.mem_append_left _ hmem))
    · obtain ⟨recordedAt, hmem⟩ := hnone hnew
      exact hne (h _ (List.mem_append_right _ hmem))

instance (db db' : Database δ) : Decidable (db.SameLatest db') :=
  decidable_of_iff _ sameLatest_iff.symm

end Database

namespace IngestState

def Settled (s : IngestState δ) (device : δ) : Prop :=
  ∀ c ∈ s.calls, c.device = device → ¬ c.Held

/-- Only a call of `Ingest` that succeeds changes the latest location of a device, when no call of
the device holds an earlier live state; and a read after a write succeeds. -/
def InOrder (s : IngestState δ) : IngestAction δ → Prop
  | .ingest device item clock commit =>
    let write := ingestWrite s.db clock commit (toDomainIngest item device)
    write.2.getLatest device = s.db.getLatest device ∨ write.1 = .ok () ∧ s.Settled device
  | .ingestBatch device items clock _ commit =>
    s.db.SameLatest
      (Backend.ingestBatch s.db clock commit (items.map (toDomainIngest · device))).2
  | .getLive call now answered => ∀ c ∈ s.calls[call]?,
    answered = true ∧ (Backend.getLive s.db c.device now).isSome
  | .other db => s.db.SameLatest db
  | .publish _ | .hub _ => True

instance (s : IngestState δ) (device : δ) : Decidable (s.Settled device) :=
  inferInstanceAs (Decidable (∀ c ∈ s.calls, _ → _))

instance (s : IngestState δ) : ∀ a, Decidable (s.InOrder a)
  | .ingest .. => inferInstanceAs (Decidable (_ ∨ _))
  | .ingestBatch .. => inferInstanceAs (Decidable (Database.SameLatest ..))
  | .getLive .. => inferInstanceAs (Decidable (∀ c ∈ s.calls[_]?, _))
  | .other _ => inferInstanceAs (Decidable (Database.SameLatest ..))
  | .publish _ | .hub _ => .isTrue trivial

/-! ### What is held and what was published last -/

/-- A live state that is held has the latest location; and so has the last event of a device, unless
a call of it is to publish. -/
structure Fresh (s : IngestState δ) : Prop where
  inv : s.Inv
  held : ∀ c ∈ s.calls, c.Held → ∀ live, c.live = some live →
    live.location = s.db.getLatest c.device
  last : ∀ device, (∃ c ∈ s.calls, c.device = device ∧ c.Pending) ∨
    ∀ e, (eventsOf device s.hub.published).getLast? = some e →
      e.snapshot.location = s.db.getLatest device

variable {s s' : IngestState δ}

/-- A step that leaves the latest locations and the log, and after which a call is still to publish
where one was. -/
theorem Fresh.keep (h : s.Fresh) (hinv : s'.Inv) (hlatest : s.db.SameLatest s'.db)
    (hlog : s'.hub.published = s.hub.published)
    (hheld : ∀ c' ∈ s'.calls, c'.Held → (∃ c ∈ s.calls, c.Held ∧ c'.live = c.live ∧
      c'.device = c.device) ∨
        ∀ live, c'.live = some live → live.location = s'.db.getLatest c'.device)
    (hpending : ∀ c ∈ s.calls, c.Pending → ∃ c' ∈ s'.calls, c'.device = c.device ∧ c'.Pending) :
    s'.Fresh where
  inv := hinv
  held := fun c' hc' hread live hlive => by
    rcases hheld c' hc' hread with ⟨c, hc, hold, hsame, hdevice⟩ | hnew
    · rw [hdevice, hlatest]
      exact h.held c hc hold live (hsame ▸ hlive)
    · exact hnew live hlive
  last := fun device => by
    rcases h.last device with ⟨c, hc, hdevice, hwaits⟩ | hlast
    · obtain ⟨c', hc', hsame, hwaits'⟩ := hpending c hc hwaits
      exact .inl ⟨c', hc', hsame.trans hdevice, hwaits'⟩
    · rw [hlog, hlatest]
      exact .inr hlast

/-- Steps that leave the calls. -/
theorem Fresh.keepCalls (h : s.Fresh) (hinv : s'.Inv) (hlatest : s.db.SameLatest s'.db)
    (hlog : s'.hub.published = s.hub.published) (hcalls : s'.calls = s.calls) : s'.Fresh := by
  refine h.keep hinv hlatest hlog (fun c hc hheld => ?_) fun c hc hwaits => ?_
  · exact .inl ⟨c, hcalls ▸ hc, hheld, rfl, rfl⟩
  · exact ⟨c, hcalls ▸ hc, rfl, hwaits⟩

/-- The read of a live state returns the latest location. -/
theorem getLive_location {db : Database δ} {device : δ} {now : Time} {live : LiveLocation δ}
    (h : Backend.getLive db device now = some live) : live.location = db.getLatest device := by
  rw [getLive_eq] at h
  obtain ⟨last, -, rfl⟩ := Option.map_eq_some_iff.mp h
  rfl

/-- A step that replaces one call, which has not published before the step. -/
theorem Fresh.setCall {hub : HubState δ (LiveLocation δ)} {queue : List Nat} {k : Nat}
    {c d : IngestCall δ} (h : s.Fresh)
    (hinv : Inv { s with hub, queue, calls := s.calls.set k d }) (hc : s.calls[k]? = some c)
    (hlog : hub.published = s.hub.published) (hdevice : d.device = c.device) (hwaits : d.Pending)
    (hlive : ∀ live, d.live = some live → live.location = s.db.getLatest d.device) :
    Fresh { s with hub, queue, calls := s.calls.set k d } := by
  refine h.keep hinv (fun _ => rfl) hlog (fun b hb hheld => ?_) fun b hb hpending => ?_
  · rcases List.mem_or_eq_of_mem_set hb with hold | rfl
    · exact .inl ⟨b, hold, hheld, rfl, rfl⟩
    · exact .inr hlive
  · obtain ⟨j, hj⟩ := List.mem_iff_getElem?.mp hb
    by_cases hkj : k = j
    · subst hkj
      obtain rfl := Option.some.inj (hc.symm.trans hj)
      exact ⟨d, List.mem_set (List.getElem?_eq_some_iff.mp hc).1 _, hdevice, hwaits⟩
    · have hkept : (s.calls.set k d)[j]? = some b := (List.getElem?_set_ne hkj).trans hj
      exact ⟨b, List.mem_of_getElem? hkept, rfl, hpending⟩

omit [DecidableEq δ] in
theorem not_held {c : IngestCall δ} (h : c.progress ≠ .read ∧ c.progress ≠ .drawn) : ¬ c.Held :=
  fun hheld => hheld.elim h.1 h.2

omit [DecidableEq δ] in
theorem of_mem_modify {calls : List (IngestCall δ)} {k : Nat} {f : IngestCall δ → IngestCall δ}
    {b : IngestCall δ} (h : b ∈ calls.modify k f) :
    (∃ j, k ≠ j ∧ calls[j]? = some b) ∨ ∃ c, calls[k]? = some c ∧ b = f c := by
  obtain ⟨j, hj⟩ := List.mem_iff_getElem?.mp h
  by_cases hkj : k = j
  · subst hkj
    rw [List.getElem?_modify_eq] at hj
    obtain ⟨c, hc, rfl⟩ := Option.map_eq_some_iff.mp hj
    exact .inr ⟨c, hc, rfl⟩
  · rw [List.getElem?_modify_ne _ _ hkj] at hj
    exact .inl ⟨j, hkj, hj⟩

omit [DecidableEq δ] in
theorem mem_modify_of_ne {calls : List (IngestCall δ)} {k j : Nat}
    {f : IngestCall δ → IngestCall δ} {b : IngestCall δ} (hne : k ≠ j)
    (hj : calls[j]? = some b) : b ∈ calls.modify k f :=
  List.mem_of_getElem? ((List.getElem?_modify_ne f calls hne).trans hj)

/-! ### One lemma for each kind of step -/

/-- A write of `Ingest`, with the call that is to publish it when the writer has confirmed it. -/
theorem Fresh.ingest {device : δ} {db : Database δ} {c : IngestCall δ} (h : s.Fresh)
    (hinv : Inv { s with db, calls := s.calls ++ [c] }) (hdevice : c.device = device)
    (hstored : c.progress = .stored)
    (hother : ∀ d, d ≠ device → db.getLatest d = s.db.getLatest d)
    (hguard : db.getLatest device = s.db.getLatest device ∨ s.Settled device) :
    Fresh { s with db, calls := s.calls ++ [c] } where
  inv := hinv
  held := fun b hb hheld live hlive => by
    rcases List.mem_append.mp hb with hold | hnew
    · refine (h.held b hold hheld live hlive).trans ?_
      by_cases hd : b.device = device
      · rcases hguard with hsame | hsettled
        · rw [hd]
          exact hsame.symm
        · exact absurd hheld (hsettled b hold hd)
      · exact (hother _ hd).symm
    · obtain rfl := List.mem_singleton.mp hnew
      exact absurd hheld (not_held (by simp [hstored]))
  last := fun d => by
    by_cases hd : d = device
    · exact .inl ⟨c, List.mem_append_right _ (List.mem_singleton_self c), hdevice.trans hd.symm,
        .inl hstored⟩
    · rcases h.last d with ⟨b, hb, hrest⟩ | hlast
      · exact .inl ⟨b, List.mem_append_left _ hb, hrest⟩
      · refine .inr fun e he => (hlast e he).trans (hother d hd).symm

theorem Fresh.batch {db : Database δ} {c : IngestCall δ} (h : s.Fresh)
    (hinv : Inv { s with db, calls := s.calls ++ [c] }) (hreturned : c.progress = .returned)
    (hlatest : s.db.SameLatest db) : Fresh { s with db, calls := s.calls ++ [c] } := by
  refine h.keep hinv hlatest rfl (fun b hb hheld => ?_) fun b hb hpending => ?_
  · rcases List.mem_append.mp hb with hold | hnew
    · exact .inl ⟨b, hold, hheld, rfl, rfl⟩
    · obtain rfl := List.mem_singleton.mp hnew
      exact absurd hheld (not_held (by simp [hreturned]))
  · exact ⟨b, List.mem_append_left _ hb, rfl, hpending⟩

/-- The publish that takes the lock carries the latest location of its device. -/
theorem Fresh.acquire {hub : HubState δ (LiveLocation δ)} {i : Nat} {order : List UInt64}
    (h : s.Fresh) (hstep : s.hub.step (.acquire i order) = some hub)
    (hsucc : s.step (.hub (.acquire i order)) = some s') (hinv : s'.Inv) : s'.Fresh := by
  obtain ⟨device, event, -, hwaiting, -, rfl⟩ := h.inv.safe.frame hstep
  have hi : i < s.queue.length := by
    rw [h.inv.length]
    exact (List.getElem?_eq_some_iff.mp hwaiting).1
  have hk := List.getElem?_eq_getElem hi
  obtain ⟨c, hc, hdrawn, hdevice, hevent⟩ := h.inv.queue i _ _ hk hwaiting
  dsimp only at hdevice hevent
  have hlatest : event.snapshot.location = s.db.getLatest device := by
    have hok := h.inv.calls _ c hc
    simp only [CallOk, hdrawn] at hok
    obtain ⟨e, -, he, -, hlive⟩ := hok
    obtain rfl : e = event := Option.some.inj (he.symm.trans hevent)
    rw [← hdevice]
    exact h.held c (List.mem_of_getElem? hc) (.inr hdrawn) _ hlive
  simp only [IngestState.step, hstep, hk, Option.bind_eq_bind, Option.bind_some] at hsucc
  cases hsucc
  refine ⟨hinv, fun b hb hheld live hlive => ?_, fun d => ?_⟩
  · rcases of_mem_modify hb with ⟨j, -, hj⟩ | ⟨c', -, rfl⟩
    · exact h.held b (List.mem_of_getElem? hj) hheld live hlive
    · exact absurd hheld (not_held (by simp))
  · by_cases hd : device = d
    · subst hd
      refine .inr fun e he => ?_
      rw [eventsOf_append, eventsOf_self, List.getLast?_concat] at he
      cases he
      exact hlatest
    · rcases h.last d with ⟨b, hb, hbd, hpending⟩ | hlast
      · obtain ⟨j, hj⟩ := List.mem_iff_getElem?.mp hb
        have hne : s.queue[i] ≠ j := by
          rintro rfl
          obtain rfl := Option.some.inj (hc.symm.trans hj)
          exact hd (hdevice.symm.trans hbd)
        exact .inl ⟨b, mem_modify_of_ne hne hj, hbd, hpending⟩
      · refine .inr fun e he => hlast e ?_
        rwa [eventsOf_append, eventsOf_other hd, List.append_nil] at he

theorem Fresh.release (h : s.Fresh) (hsucc : s.step (.hub .release) = some s') (hinv : s'.Inv) :
    s'.Fresh := by
  simp only [IngestState.step, Option.bind_eq_bind, Option.bind_eq_some_iff] at hsucc
  obtain ⟨hub, hstep, hsucc⟩ := hsucc
  cases hsucc
  obtain ⟨dl, hlock, -, rfl⟩ := h.inv.safe.frame hstep
  obtain ⟨k, c, hholder, hc, hdelivering⟩ := h.inv.holder (by rw [hlock]; rfl)
  have hmem : ∀ b, b ∈ s.modifyCall s.holder
      (fun c => { c with leftAt := s.db, progress := .returned }) ↔
        b ∈ s.calls.modify k fun c => { c with leftAt := s.db, progress := .returned } := by
    rw [hholder]
    exact fun b => Iff.rfl
  refine h.keep hinv (fun _ => rfl) rfl (fun b hb hheld => ?_) fun b hb hpending => ?_
  · rcases of_mem_modify ((hmem b).mp hb) with ⟨j, -, hj⟩ | ⟨c', -, rfl⟩
    · exact .inl ⟨b, List.mem_of_getElem? hj, hheld, rfl, rfl⟩
    · exact absurd hheld (not_held (by simp))
  · obtain ⟨j, hj⟩ := List.mem_iff_getElem?.mp hb
    have hne : k ≠ j := by
      rintro rfl
      obtain rfl := Option.some.inj (hc.symm.trans hj)
      rcases hpending with hstored | hheld
      · rw [hdelivering] at hstored
        cases hstored
      · exact not_held (by simp [hdelivering]) hheld
    exact ⟨b, (hmem b).mpr (mem_modify_of_ne hne hj), rfl, hpending⟩

theorem Fresh.step {a : IngestAction δ} (h : s.Fresh) (hguard : s.InOrder a)
    (hstep : s.step a = some s') : s'.Fresh := by
  have hinv := h.inv.step hstep
  cases a with
  | ingest device item clock commit =>
    have hother : ∀ d, d ≠ device →
        (ingestWrite s.db clock commit (toDomainIngest item device)).2.getLatest d =
          s.db.getLatest d :=
      fun d hd => Database.ingestWrite_getLatest fun hsame => hd hsame.symm
    rw [IngestState.step] at hstep
    simp only [InOrder] at hguard
    split at hstep
    · next e db hwrite =>
      cases hstep
      rw [hwrite] at hguard hother
      refine h.keepCalls hinv (fun d => ?_) rfl rfl
      by_cases hd : d = device
      · rcases hguard with hsame | ⟨hok, -⟩
        · rw [hd]
          exact hsame
        · cases hok
      · exact hother d hd
    · next db hwrite =>
      cases hstep
      rw [hwrite] at hguard hother
      exact h.ingest hinv rfl rfl hother (hguard.imp_right And.right)
  | ingestBatch device items clock now commit =>
    rw [IngestState.step] at hstep
    rw [InOrder] at hguard
    split at hstep
    · next e db hwrite =>
      cases hstep
      rw [hwrite] at hguard
      exact h.keepCalls hinv hguard rfl rfl
    · next r db hwrite =>
      cases hstep
      rw [hwrite] at hguard
      exact h.batch hinv rfl hguard
  | getLive call now answered =>
    simp only [IngestState.step, Option.bind_eq_bind, Option.bind_eq_some_iff] at hstep
    obtain ⟨c, hc, _, -, hstep⟩ := hstep
    obtain ⟨hanswered, hsome⟩ := hguard c hc
    rw [hanswered, if_pos rfl] at hstep
    split at hstep
    · next live hread =>
      cases hstep
      refine h.setCall hinv hc rfl rfl (.inr (.inl rfl)) fun l hl => ?_
      obtain rfl := Option.some.inj hl
      exact getLive_location hread
    · next hnone =>
      rw [hnone] at hsome
      cases hsome
  | publish call =>
    simp only [IngestState.step, Option.bind_eq_bind, Option.bind_eq_some_iff] at hstep
    obtain ⟨c, hc, _, hread, live, hlive, hub, hhub, hstep⟩ := hstep
    cases hstep
    have hread : c.progress = .read := (Option.guard_eq_some' _).mp hread
    exact h.setCall hinv hc (h.inv.safe.frame hhub).2.1 rfl (.inr (.inr rfl))
      (h.held c (List.mem_of_getElem? hc) (.inl hread))
  | hub a =>
    cases a with
    | draw device kind snapshot => cases hstep
    | acquire i order =>
      have hhub := hstep
      simp only [IngestState.step, Option.bind_eq_bind, Option.bind_eq_some_iff] at hhub
      obtain ⟨hub, hhub, -⟩ := hhub
      exact h.acquire hhub hstep hinv
    | release => exact h.release hstep hinv
    | nextID | offer | subscribe device | unsubscribe sub | receive sub =>
      simp only [IngestState.step, Option.bind_eq_bind, Option.bind_eq_some_iff] at hstep
      obtain ⟨hub, hhub, hstep⟩ := hstep
      cases hstep
      have hlog := (h.inv.safe.frame hhub).published_eq (by simp)
      exact h.keepCalls hinv (fun _ => rfl) hlog rfl
  | other db =>
    cases hstep
    exact h.keepCalls hinv hguard rfl rfl

theorem fresh_new (db : Database δ) : (new db).Fresh where
  inv := inv_new db
  held := fun c hc => by cases hc
  last := fun device => .inr fun e he => by cases he

end IngestState

/-! ## The subscribers -/

namespace IngestState

variable {s : IngestState δ}

/-- The steps of the hub in a run are a run of the hub. -/
theorem hub_run {db : Database δ} {as : List (IngestAction δ)}
    (hrun : Run IngestState.step (.new db) as s) :
    ∃ has, Run (HubState.step (δ := δ)) .new has s.hub := by
  have hstep : ∀ (s : IngestState δ) (a : IngestAction δ) (t : IngestState δ),
      (∃ has, Run (HubState.step (δ := δ)) .new has s.hub) → s.step a = some t →
        ∃ has, Run (HubState.step (δ := δ)) .new has t.hub := by
    rintro s a t ⟨has, h⟩ hstep
    rcases ingest_hub hstep with ⟨hsame, -⟩ | ⟨ha, hhub, -⟩
    · exact ⟨has, hsame ▸ h⟩
    · exact ⟨has ++ [ha], Run.append_iff.mpr ⟨_, h, .single hhub⟩⟩
  exact hrun.invariant hstep ⟨[], Run.nil_iff.mpr rfl⟩

/-- When no call of the device is under way, no event of it is. -/
theorem Inv.seen_eq {device : δ} {v : Subscription δ (LiveLocation δ)} (h : s.Inv)
    (hreturned : ∀ c ∈ s.calls, c.device = device → c.progress = .returned)
    (hdevice : v.device = device) : s.hub.seen v = s.hub.published.length := by
  rw [HubState.seen]
  split
  · next dl hlock =>
    refine if_neg fun hdl => ?_
    obtain ⟨k, c, -, hc, hdelivering⟩ := h.holder (by rw [hlock]; rfl)
    have hok := h.calls k c hc
    simp only [CallOk, hdelivering] at hok
    obtain ⟨-, dl', hlock', ⟨hcall, -⟩, -⟩ := hok
    obtain rfl := Option.some.inj (hlock.symm.trans hlock')
    have hprogress := hreturned c (List.mem_of_getElem? hc) (hcall.trans (hdl.1.trans hdevice))
    rw [hdelivering] at hprogress
    cases hprogress
  · rfl

/-- Whoever is subscribed to the device, and has taken what was sent, has last been sent the
location that `GetLive` returns. -/
def ShowsLatest (s : IngestState δ) (device : δ) : Prop :=
  ∀ (sub : Nat) (v : Subscription δ (LiveLocation δ)) (t : Trace (LiveLocation δ)),
    s.hub.hub.heap[sub]? = some v → s.hub.traces[sub]? = some t → v.device = device →
      t.left = none → ∀ e, (t.received ++ v.ch.buffer).getLast? = some e →
        ∀ now live, Backend.getLive s.db device now = some live →
          e.snapshot.location = live.location

theorem Fresh.showsLatest {device : δ} {has : List (HubAction δ (LiveLocation δ))} (h : s.Fresh)
    (hhub : Run HubState.step .new has s.hub) (hdrawn : s.hub.drawn < 2 ^ 64)
    (hreturned : ∀ c ∈ s.calls, c.device = device → c.progress = .returned) :
    s.ShowsLatest device := by
  intro sub v t hv ht hdevice hleft e he now live hlive
  rw [getLive_location hlive]
  rcases h.last device with ⟨c, hc, hcd, hpending⟩ | hlast
  · -- A call of the device that is to publish has not returned.
    have hprogress := hreturned c hc hcd
    rcases hpending with hstored | hheld
    · rw [hprogress] at hstored
      cases hstored
    · exact absurd hheld (not_held (by simp [hprogress]))
  · refine hlast e ?_
    have hsent := (((hub_delivery hhub).2.2 hdrawn).2 sub v t hv ht).sent
    rw [hleft, Option.getD_none, h.inv.seen_eq hreturned hdevice, List.take_length, hdevice]
      at hsent
    -- What was sent is the end of the log of the device.
    rw [← List.take_append_drop t.joined s.hub.published, eventsOf_append, ← hsent,
      List.getLast?_append, he, Option.some_or]

end IngestState

theorem IngestCall.fed_iff {s : IngestState δ} {k : Nat} {c : IngestCall δ}
    (hok : s.CallOk k c) (hreturned : c.progress = .returned) (hlive : c.live.isSome) :
    c.Fed s ↔ c.path = .ingest ∧ c.Steady ∨ c.audience = [] := by
  simp only [IngestState.CallOk, hreturned] at hok
  cases haudience : c.audience with
  | nil =>
    refine iff_of_true (fun sub hsub => ?_) (.inr rfl)
    rw [haudience] at hsub
    cases hsub
  | cons sub rest =>
    rw [or_iff_left (List.cons_ne_nil sub rest)]
    have hsub : sub ∈ c.audience := by
      rw [haudience]
      exact List.mem_cons_self
    rcases hok with ⟨hpath, hevent⟩ | ⟨-, hnone⟩ |
      ⟨e, ⟨⟨hpath, hread⟩, hevent, hkind, hsnapshot⟩, hgiven⟩
    · -- A batch has no event to send.
      refine iff_of_false (fun hfed => ?_) fun h => ?_
      · obtain ⟨e, he, -⟩ := hfed sub hsub
        rw [hevent] at he
        cases he
      · rw [hpath] at h
        cases h.1
    · rw [hnone] at hlive
      cases hlive
    · constructor
      · intro hfed
        obtain ⟨e', he', -, hafter, -⟩ := hfed sub hsub
        obtain rfl := Option.some.inj (hevent.symm.trans he')
        exact ⟨hpath, hread.symm.trans (hsnapshot.trans hafter.symm)⟩
      · rintro ⟨-, hsteady⟩ sub hsub
        obtain ⟨v, t, hv, ht, hcase⟩ := hgiven sub hsub
        exact ⟨e, hevent, hkind, hsteady.symm.trans (hread.symm.trans hsnapshot), v.1, t,
          (Hub.view_eq_some.mp hv).1, ht, hcase⟩

/-- A call that stored something new, and after which the live state can be read, feeds the
subscribers of its device with the live state after it exactly when it is a call of `Ingest` and the
tables still give what it has read, or there is no subscriber: `IngestBatch` never publishes. And in
a run whose steps are in order, a subscriber ends with the location that `GetLive` returns. -/
theorem ingest_feeds_live_iff {db : Database δ} {as : List (IngestAction δ)} {s : IngestState δ}
    (hrun : Run IngestState.step (.new db) as s) :
    (∀ c ∈ s.calls, c.progress = .returned → c.storedNew = true → c.live.isSome →
      (c.Fed s ↔ c.path = .ingest ∧ c.Steady ∨ c.audience = [])) ∧
    (Along IngestState.step IngestState.InOrder (.new db) as → s.hub.drawn < 2 ^ 64 →
      ∀ device, (∀ c ∈ s.calls, c.device = device → c.progress = .returned) →
        s.ShowsLatest device) := by
  constructor
  · intro c hc hreturned _ hlive
    have h := hrun.invariant (fun s a t hs hstep => hs.step hstep) (IngestState.inv_new db)
    obtain ⟨k, hk⟩ := List.mem_iff_getElem?.mp hc
    exact IngestCall.fed_iff (h.calls k c hk) hreturned hlive
  · intro hguard hdrawn device hreturned
    have h := Run.invariant_along (fun s a t hs hguard hstep => hs.step hguard hstep) hguard hrun
      (IngestState.fresh_new db)
    obtain ⟨has, hhub⟩ := IngestState.hub_run hrun
    exact h.showsLatest hhub hdrawn hreturned

/-- A database with one device. -/
def oneDevice (device : Nat) : Database Nat := ⟨AList.singleton device ⟨none, none⟩, ∅, ∅⟩

/-- A fix at the origin, recorded at one second. -/
def originFix : LocationItem := ⟨⟨0, 0, none, some 2, none, none, none⟩, 1, 1000000⟩

/-- A call of `Ingest` with one subscriber, who takes the event. -/
def ingestOnce : List (IngestAction Nat) :=
  [.hub (.subscribe 7), .ingest 7 originFix 5 .done, .getLive 0 6 true, .publish 0,
    .hub (.acquire 0 [1]), .hub .offer, .hub (.receive 0), .hub .release]

theorem ingest_feeds_live_one : ∃ (s : IngestState Nat) (c : IngestCall Nat),
    Run IngestState.step (.new (oneDevice 7)) ingestOnce s ∧ s.calls = [c] ∧ c.audience = [0] ∧
      c.Fed s ∧ s.hub.traces.map (·.received.length) = [1] ∧ s.ShowsLatest 7 := by
  have hguard : Along IngestState.step IngestState.InOrder (.new (oneDevice 7)) ingestOnce := by
    decide +kernel
  obtain ⟨s, hrun, hfacts⟩ := Option.map_eq_some_iff.mp (show
    (ingestOnce.foldlM IngestState.step (.new (oneDevice 7))).map (fun s => decide (
      (s.calls.map fun c => (c.progress, c.storedNew, c.audience, c.live.isSome,
        decide (c.path = .ingest ∧ c.Steady))) = [(.returned, true, [0], true, true)] ∧
      s.hub.traces.map (·.received.length) = [1] ∧ s.hub.drawn < 2 ^ 64)) = some true by
        decide +kernel)
  obtain ⟨hcalls, hreceived, hdrawn⟩ := of_decide_eq_true hfacts
  obtain ⟨c, hc, hcall⟩ := List.map_eq_singleton_iff.mp hcalls
  simp only [Prod.mk.injEq, decide_eq_true_eq] at hcall
  obtain ⟨hreturned, hnew, haudience, hlive, hsteady⟩ := hcall
  obtain ⟨hfed, hlatest⟩ := ingest_feeds_live_iff hrun
  refine ⟨s, c, hrun, hc, haudience, ?_, hreceived, ?_⟩
  · exact (hfed c (hc ▸ List.mem_singleton_self c) hreturned hnew hlive).mpr (.inl hsteady)
  · refine hlatest hguard hdrawn 7 fun b hb _ => ?_
    rw [hc] at hb
    obtain rfl := List.mem_singleton.mp hb
    exact hreturned

/-- A batch with one new fix: the subscriber of the device is sent nothing. -/
theorem batch_feeds_nobody : ∃ (s : IngestState Nat) (c : IngestCall Nat),
    Run IngestState.step (.new (oneDevice 7))
      [.hub (.subscribe 7), .ingestBatch 7 [originFix] 5 6 .done] s ∧ c ∈ s.calls ∧
      c.progress = .returned ∧ c.storedNew = true ∧ c.live.isSome ∧ ¬ c.Fed s := by
  obtain ⟨s, hrun, hfacts⟩ := Option.map_eq_some_iff.mp (show
    (([.hub (.subscribe 7), .ingestBatch 7 [originFix] 5 6 .done] :
        List (IngestAction Nat)).foldlM IngestState.step (.new (oneDevice 7))).map
      (fun s => s.calls.map fun c =>
        (c.progress, c.storedNew, c.audience, c.live.isSome, c.event.isSome)) =
        some [(.returned, true, [0], true, false)] by decide +kernel)
  obtain ⟨c, hc, hcall⟩ := List.map_eq_singleton_iff.mp hfacts
  simp only [Prod.mk.injEq] at hcall
  obtain ⟨hreturned, hnew, haudience, hlive, hevent⟩ := hcall
  refine ⟨s, c, hrun, hc ▸ List.mem_singleton_self c, hreturned, hnew, hlive, fun hfed => ?_⟩
  obtain ⟨e, he, -⟩ := hfed 0 (by rw [haudience]; exact List.mem_cons_self)
  rw [he] at hevent
  cases hevent

/-- Two calls of `Ingest` that cross: the first reads before the second writes, and publishes after
it. The subscriber is sent the later fix first. -/
def crossedIngests : List (IngestAction Nat) :=
  [.hub (.subscribe 7), .ingest 7 originFix 5 .done, .getLive 0 6 true,
    .ingest 7 { originFix with sequenceID := 2, recordedAt := 2000000 } 7 .done, .getLive 1 8 true,
    .publish 1, .hub (.acquire 0 [1]), .hub .offer, .hub (.receive 0), .hub .release,
    .publish 0, .hub (.acquire 0 [1]), .hub .offer, .hub (.receive 0), .hub .release]

/-- Both calls have returned, and the subscriber ends with the location of the earlier fix. -/
theorem crossed_ingests_end_older : ∃ s : IngestState Nat,
    Run IngestState.step (.new (oneDevice 7)) crossedIngests s ∧
      (∀ c ∈ s.calls, c.path = .ingest ∧ c.progress = .returned) ∧
      ¬ s.ShowsLatest 7 := by
  obtain ⟨s, hrun, hfacts⟩ := Option.map_eq_some_iff.mp (show
    (crossedIngests.foldlM IngestState.step (.new (oneDevice 7))).map (fun s => decide (
      (∀ c ∈ s.calls, c.path = .ingest ∧ c.progress = .returned) ∧
      (s.hub.hub.heap.map fun v => (v.device, v.ch.buffer)) = [(7, [])] ∧
      (s.hub.traces.map fun t => (t.left, t.received.getLast?.map fun e =>
        e.snapshot.location.map (·.recordedAt))) = [(none, some (some 1000000))] ∧
      ((Backend.getLive s.db 7 9).map fun live => live.location.map (·.recordedAt)) =
        some (some 2000000))) = some true by decide +kernel)
  obtain ⟨hcalls, hheap, htraces, hlive⟩ := of_decide_eq_true hfacts
  obtain ⟨v, hv, hsub⟩ := List.map_eq_singleton_iff.mp hheap
  obtain ⟨t, ht, htrace⟩ := List.map_eq_singleton_iff.mp htraces
  obtain ⟨live, hlive, hlocation⟩ := Option.map_eq_some_iff.mp hlive
  simp only [Prod.mk.injEq] at hsub htrace
  obtain ⟨e, he, hlast⟩ := Option.map_eq_some_iff.mp htrace.2
  refine ⟨s, hrun, hcalls, fun hshows => ?_⟩
  have hsame := hshows 0 v t (by rw [hv]; rfl) (by rw [ht]; rfl) hsub.1 htrace.1 e
    (by rw [hsub.2, List.append_nil, he]) 9 live hlive
  rw [← hsame, hlast] at hlocation
  cases hlocation

end OpenGps.Backend
