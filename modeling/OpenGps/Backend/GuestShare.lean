import Mathlib.Data.Option.Basic
import OpenGps.Backend.HubDelivery
import OpenGps.Backend.Locations

/-!
# Guest share links

The live requests of a guest (`handlers/guest_share.go`), statement by statement, next to
revocation, the clock, the deletion of devices and the calls of `Ingest` that publish to the hub. A
link is named by the hash of its token.

A datum is read in two statements. `Live` looks the link up again after its read, and a streamed
event is looked up after it was captured; the snapshot and the presence refresh of a stream are
written without a look-up after their read.
-/

namespace OpenGps.Backend

open OpenGps.Lib

structure ShareLink (δ : Type) where
  id : Nat
  deviceID : δ
  expiresAt : Time
  revokedAt : Option Time
  deriving DecidableEq

/-- A live location and, as history, the links that were active at both of its reads. -/
structure Captured (κ δ : Type) where
  value : LiveLocation δ
  active : κ → Bool

/-- The four ways of a datum to a guest. -/
inductive GuestPath where
  | live
  | snapshot
  | event
  | presence
  deriving DecidableEq

/-- What a select of the stream took. -/
inductive GuestWake (κ δ : Type) where
  | event (e : LiveEvent (Captured κ δ))
  | keepalive
  | timer

/-- The next statement of a request; `contact` and `latest` are those of `GetLive`. -/
inductive GuestPc (κ δ : Type) where
  | resolveCookie
  | revalidate (link : ShareLink δ)
  | subscribe (link : ShareLink δ)
  | contact (link : ShareLink δ) (path : GuestPath) (sub : Option Nat)
  | latest (link : ShareLink δ) (path : GuestPath) (sub : Option Nat) (last : Option Time)
      (active : κ → Bool)
  | recheck (link : ShareLink δ) (c : Captured κ δ)
  | write (link : ShareLink δ) (path : GuestPath) (sub : Option Nat) (c : Captured κ δ)
  | select (link : ShareLink δ) (sub : Nat)
  | stillActive (link : ShareLink δ) (sub : Nat) (wake : GuestWake κ δ)
  | returned

structure GuestThread (κ δ : Type) where
  hash : κ
  stream : Bool
  pc : GuestPc κ δ

/-- A call of `Ingest` after its write. -/
inductive CapturePc (κ δ : Type) where
  | contact (device : δ)
  | latest (device : δ) (last : Option Time) (active : κ → Bool)
  | publish (device : δ) (c : Captured κ δ)
  | returned

structure GuestDatum (κ δ : Type) where
  hash : κ
  path : GuestPath
  datum : Captured κ δ

/-- `now` is the clock of the database. -/
structure GuestState (κ δ : Type) where
  db : Database δ
  links : Table κ (ShareLink δ)
  now : Time
  hub : HubState δ (Captured κ δ)
  ingests : List (CapturePc κ δ)
  guests : List (GuestThread κ δ)
  delivered : List (GuestDatum κ δ)

/-- `hub` is a step of another user of the hub, and `database` one of the rest of the program, which
may change the tables in any way but bring a deleted device of a link back. -/
inductive GuestAction (κ δ : Type) where
  | live (hash : κ)
  | stream (hash : κ)
  | run (k : Nat) (clock : Time) (answered : Bool)
  | receive (k : Nat)
  | keepalive (k : Nat)
  | timer (k : Nat)
  | leave (k : Nat)
  | ingest (device : δ)
  | capture (i : Nat) (clock : Time) (answered : Bool)
  | hub (a : HubAction δ (Captured κ δ))
  | tick (now : Time)
  | revoke (device : δ) (id : Nat)
  | database (db : Database δ)

variable {κ δ : Type} [DecidableEq κ] [DecidableEq δ]

namespace GuestState

def new (db : Database δ) (links : Table κ (ShareLink δ)) (now : Time) : GuestState κ δ :=
  ⟨db, links, now, .new, [], [], []⟩

/-- `GetValidDeviceShareLinkByHash`. -/
def resolveToken (s : GuestState κ δ) (hash : κ) : Option (ShareLink δ) := do
  let link ← s.links.lookup hash
  guard (link.revokedAt.isNone ∧ s.now < link.expiresAt ∧ (s.db.getContact link.deviceID).isSome)
  return link

def isActive (s : GuestState κ δ) (hash : κ) : Bool := (s.resolveToken hash).isSome

/-- `RevokeDeviceShareLink`. -/
def revoke (s : GuestState κ δ) (device : δ) (id : Nat) : Table κ (ShareLink δ) :=
  s.links.update (fun _ link => link.id = id ∧ link.deviceID = device ∧ link.revokedAt.isNone)
    fun link => { link with revokedAt := some s.now }

/-- The statement of a request at `pc`. Without an answer, or when it finds no link or no device,
the request ends. -/
def answer (s : GuestState κ δ) (g : GuestThread κ δ) (clock : Time) (answered : Bool) :
    Option (GuestPc κ δ) :=
  let found := if answered then s.resolveToken g.hash else none
  match g.pc with
  | .resolveCookie =>
    match found with
    | some link => some (if g.stream then .revalidate link else .contact link .live none)
    | none => some .returned
  | .revalidate link =>
    match found with
    | some _ => some (.subscribe link)
    | none => some .returned
  | .contact link path sub =>
    match if answered then s.db.getContact link.deviceID else none with
    | some last => some (.latest link path sub last s.isActive)
    | none => some .returned
  | .latest link path sub last active =>
    let c := ⟨s.db.liveWith link.deviceID last clock, fun h => active h && s.isActive h⟩
    if answered then some (if path = .live then .recheck link c else .write link path sub c)
    else some .returned
  | .recheck link c =>
    match found with
    | some _ => some (.write link .live none c)
    | none => some .returned
  | .stillActive link sub wake =>
    match found with
    | some l =>
      if l.id = link.id then
        match wake with
        | .event e => some (.write link .event (some sub) e.snapshot)
        | .keepalive => some (.select link sub)
        | .timer => some (.contact link .presence (some sub))
      else some .returned
    | none => some .returned
  | _ => none

/-- `guestStreams` has a hundred slots. -/
def freeSlot (s : GuestState κ δ) : Bool :=
  s.guests.countP (fun g => g.stream && !g.pc matches .returned) < 100

def setGuest (s : GuestState κ δ) (k : Nat) (g : GuestThread κ δ) (pc : GuestPc κ δ) :
    GuestState κ δ :=
  { s with guests := s.guests.set k { g with pc } }

def wake (s : GuestState κ δ) (k : Nat) (wake : GuestWake κ δ) : Option (GuestState κ δ) := do
  let g ← s.guests[k]?
  match g.pc with
  | .select link sub => return s.setGuest k g (.stillActive link sub wake)
  | _ => none

def run (s : GuestState κ δ) (k : Nat) (clock : Time) (answered : Bool) :
    Option (GuestState κ δ) := do
  let g ← s.guests[k]?
  match g.pc with
  | .subscribe link =>
    let hub ← s.hub.step (.subscribe link.deviceID)
    return { s with hub }.setGuest k g (.contact link .snapshot (some s.hub.hub.heap.length))
  | .write link path sub c =>
    let pc : GuestPc κ δ := match sub with
      | some sub => .select link sub
      | none => .returned
    let datum : GuestDatum κ δ := ⟨g.hash, path, c⟩
    return { s with delivered := s.delivered ++ [datum] }.setGuest k g pc
  | _ =>
    let pc ← s.answer g clock answered
    return s.setGuest k g pc

def receive (s : GuestState κ δ) (k : Nat) : Option (GuestState κ δ) := do
  let g ← s.guests[k]?
  match g.pc with
  | .select link sub =>
    let (r, _) ← s.hub.hub.receive sub
    let hub ← s.hub.step (.receive sub)
    match r with
    | .value e => return { s with hub }.setGuest k g (.stillActive link sub (.event e))
    | .closed => return { s with hub }.setGuest k g .returned
  | _ => none

/-- The reads of a call of `Ingest` and its publish. -/
def capture (s : GuestState κ δ) (i : Nat) (clock : Time) (answered : Bool) :
    Option (GuestState κ δ) := do
  match ← s.ingests[i]? with
  | .contact device =>
    match if answered then s.db.getContact device else none with
    | some last => return { s with ingests := s.ingests.set i (.latest device last s.isActive) }
    | none => return { s with ingests := s.ingests.set i .returned }
  | .latest device last active =>
    let c := ⟨s.db.liveWith device last clock, fun h => active h && s.isActive h⟩
    return { s with ingests := s.ingests.set i (if answered then .publish device c else .returned) }
  | .publish device c =>
    let hub ← s.hub.step (.draw device "location" c)
    return { s with hub, ingests := s.ingests.set i .returned }
  | .returned => none

def step (s : GuestState κ δ) : GuestAction κ δ → Option (GuestState κ δ)
  | .live hash => some { s with guests := s.guests ++ [⟨hash, false, .resolveCookie⟩] }
  | .stream hash =>
    if s.freeSlot then some { s with guests := s.guests ++ [⟨hash, true, .resolveCookie⟩] }
    else some s
  | .run k clock answered => s.run k clock answered
  | .receive k => s.receive k
  | .keepalive k => s.wake k .keepalive
  | .timer k => s.wake k .timer
  | .leave k => do
    let g ← s.guests[k]?
    return s.setGuest k g .returned
  | .ingest device => some { s with ingests := s.ingests ++ [.contact device] }
  | .capture i clock answered => s.capture i clock answered
  | .hub (.draw _ _ _) => none
  | .hub a => do
    let hub ← s.hub.step a
    return { s with hub }
  | .tick now => if s.now ≤ now then some { s with now } else none
  | .revoke device id => some { s with links := s.revoke device id }
  | .database db =>
    if s.links.rows.all fun x =>
        (s.db.getContact x.2.deviceID).isSome || (db.getContact x.2.deviceID).isNone then
      some { s with db }
    else none

/-- The step revokes the link or takes the clock to its end. -/
def ends (s : GuestState κ δ) (a : GuestAction κ δ) (hash : κ) : Bool :=
  match s.links.lookup hash, a with
  | some link, .tick now => link.expiresAt ≤ now
  | some link, .revoke device id => link.id = id ∧ link.deviceID = device
  | _, _ => false

/-- The step deletes the device of the link. -/
def deletes (s : GuestState κ δ) (a : GuestAction κ δ) (hash : κ) : Bool :=
  match s.links.lookup hash, a with
  | some link, .database db => (db.getContact link.deviceID).isNone
  | _, _ => false

/-- No link ends while a stream is between its last look-up of the link and the end of the read that
follows, and its device is not deleted between the two statements of that read. -/
def Spared (s : GuestState κ δ) (a : GuestAction κ δ) (hash : κ) : GuestPc κ δ → Prop
  | .subscribe _ => s.ends a hash = false
  | .contact _ path _ => path ≠ .live → s.ends a hash = false
  | .latest _ path _ _ _ => path ≠ .live → s.ends a hash = false ∧ s.deletes a hash = false
  | _ => True

def Undisturbed (s : GuestState κ δ) (a : GuestAction κ δ) : Prop :=
  ∀ g ∈ s.guests, s.Spared a g.hash g.pc

/-! ## Activity -/

theorem resolveToken_eq_some {s : GuestState κ δ} {hash : κ} {link : ShareLink δ} :
    s.resolveToken hash = some link ↔ s.links.lookup hash = some link ∧ link.revokedAt = none ∧
      s.now < link.expiresAt ∧ (s.db.getContact link.deviceID).isSome := by
  simp only [resolveToken, Option.bind_eq_bind, Option.bind_eq_some_iff, Option.guard_eq_some',
    Option.isNone_iff_eq_none, exists_const, Option.pure_def, Option.some.injEq]
  constructor
  · rintro ⟨l, hl, hactive, rfl⟩
    exact ⟨hl, hactive⟩
  · rintro ⟨hl, hactive⟩
    exact ⟨link, hl, hactive, rfl⟩

/-- The link is neither revoked nor at its end. -/
def Valid (s : GuestState κ δ) (hash : κ) : Prop :=
  ∃ link, s.links.lookup hash = some link ∧ link.revokedAt = none ∧ s.now < link.expiresAt

/-- A request holds the link of its token. -/
def Names (s : GuestState κ δ) (hash : κ) (link : ShareLink δ) : Prop :=
  ∃ l, s.links.lookup hash = some l ∧ l.deviceID = link.deviceID

theorem isActive_iff {s : GuestState κ δ} {hash : κ} :
    s.isActive hash = true ↔ ∃ link, s.resolveToken hash = some link := Option.isSome_iff_exists

theorem Valid.of_active {s : GuestState κ δ} {hash : κ} (h : s.isActive hash = true) :
    s.Valid hash := by
  obtain ⟨link, hlink⟩ := isActive_iff.mp h
  obtain ⟨hlookup, hrevoked, hexpires, -⟩ := resolveToken_eq_some.mp hlink
  exact ⟨link, hlookup, hrevoked, hexpires⟩

theorem Names.of_resolve {s : GuestState κ δ} {hash : κ} {link : ShareLink δ}
    (h : s.resolveToken hash = some link) : s.Names hash link :=
  ⟨link, (resolveToken_eq_some.mp h).1, rfl⟩

/-- A valid link whose device has a contact is active. -/
theorem Valid.active {s : GuestState κ δ} {hash : κ} {link : ShareLink δ} (h : s.Valid hash)
    (hnames : s.Names hash link) (hcontact : (s.db.getContact link.deviceID).isSome) :
    s.isActive hash = true := by
  obtain ⟨l, hlookup, hrevoked, hexpires⟩ := h
  obtain ⟨l', hlookup', hdevice⟩ := hnames
  obtain rfl := Option.some.inj (hlookup.symm.trans hlookup')
  exact isActive_iff.mpr
    ⟨l, resolveToken_eq_some.mpr ⟨hlookup, hrevoked, hexpires, hdevice ▸ hcontact⟩⟩

/-- What a step does to the links: none changes its device or becomes active again, and only the
steps that end it or delete its device make it inactive. -/
structure Onward (s : GuestState κ δ) (a : GuestAction κ δ) (s' : GuestState κ δ) : Prop where
  names : ∀ hash link, s.Names hash link → s'.Names hash link
  active : ∀ hash, s'.isActive hash = true → s.isActive hash = true
  valid : ∀ hash, s.ends a hash = false → s.Valid hash → s'.Valid hash
  stays : ∀ hash, s.ends a hash = false → s.deletes a hash = false → s.isActive hash = true →
    s'.isActive hash = true

theorem Onward.of_same {s s' : GuestState κ δ} {a : GuestAction κ δ} (hdb : s'.db = s.db)
    (hlinks : s'.links = s.links) (hnow : s'.now = s.now) : s.Onward a s' := by
  have hactive : ∀ hash, s'.isActive hash = s.isActive hash := by
    intro hash
    rw [isActive, isActive, resolveToken, resolveToken, hdb, hlinks, hnow]
  refine ⟨fun hash link h => ?_, fun hash h => hactive hash ▸ h, fun hash _ h => ?_,
    fun hash _ _ h => (hactive hash).trans h⟩
  · rw [Names, hlinks]
    exact h
  · rw [Valid, hlinks, hnow]
    exact h

theorem Onward.tick {s : GuestState κ δ} {now : Time} (hnow : s.now ≤ now) :
    s.Onward (.tick now) { s with now } where
  names := fun _ _ h => h
  active := by
    intro hash h
    obtain ⟨link, hlink⟩ := isActive_iff.mp h
    obtain ⟨hlookup, hrevoked, hexpires, hcontact⟩ := resolveToken_eq_some.mp hlink
    exact isActive_iff.mpr ⟨link, resolveToken_eq_some.mpr
      ⟨hlookup, hrevoked, Int.lt_of_le_of_lt hnow hexpires, hcontact⟩⟩
  valid := by
    rintro hash hends ⟨link, hlookup, hrevoked, -⟩
    simp only [ends, hlookup] at hends
    exact ⟨link, hlookup, hrevoked, Int.not_le.mp (of_decide_eq_false hends)⟩
  stays := by
    intro hash hends _ h
    obtain ⟨link, hlink⟩ := isActive_iff.mp h
    obtain ⟨hlookup, hrevoked, -, hcontact⟩ := resolveToken_eq_some.mp hlink
    simp only [ends, hlookup] at hends
    exact isActive_iff.mpr ⟨link, resolveToken_eq_some.mpr
      ⟨hlookup, hrevoked, Int.not_le.mp (of_decide_eq_false hends), hcontact⟩⟩

/-- The statement sets a column of the rows it selects. -/
theorem lookup_revoke {s : GuestState κ δ} {device : δ} {id : Nat} {hash : κ} :
    (s.revoke device id).lookup hash = (s.links.lookup hash).map fun link =>
      if link.id = id ∧ link.deviceID = device ∧ link.revokedAt.isNone then
        { link with revokedAt := some s.now } else link := by
  rw [revoke, Table.lookup_update]
  simp only [decide_eq_true_eq]

/-- A link that is not named by the revocation keeps its row. -/
theorem lookup_revoke_other {s : GuestState κ δ} {device : δ} {id : Nat} {hash : κ}
    {link : ShareLink δ} (hlookup : s.links.lookup hash = some link)
    (hends : s.ends (.revoke device id) hash = false) :
    (s.revoke device id).lookup hash = some link := by
  simp only [ends, hlookup] at hends
  rw [lookup_revoke, hlookup, Option.map_some, if_neg]
  rintro ⟨hid, hdevice, -⟩
  exact of_decide_eq_false hends ⟨hid, hdevice⟩

theorem Onward.revoke {s : GuestState κ δ} {device : δ} {id : Nat} :
    s.Onward (.revoke device id) { s with links := s.revoke device id } where
  names := by
    rintro hash link ⟨l, hlookup, hdevice⟩
    refine ⟨_, lookup_revoke.trans (congrArg _ hlookup), ?_⟩
    dsimp only
    split
    · exact hdevice
    · exact hdevice
  active := by
    intro hash h
    obtain ⟨link, hlink⟩ := isActive_iff.mp h
    obtain ⟨hlookup, hrevoked, hexpires, hcontact⟩ := resolveToken_eq_some.mp hlink
    obtain ⟨l, hl, hset⟩ := Option.map_eq_some_iff.mp (lookup_revoke.symm.trans hlookup)
    split at hset
    · rw [← hset] at hrevoked
      cases hrevoked
    · subst hset
      exact isActive_iff.mpr
        ⟨l, resolveToken_eq_some.mpr ⟨hl, hrevoked, hexpires, hcontact⟩⟩
  valid := by
    rintro hash hends ⟨link, hlookup, hactive⟩
    exact ⟨link, lookup_revoke_other hlookup hends, hactive⟩
  stays := by
    intro hash hends _ h
    obtain ⟨link, hlink⟩ := isActive_iff.mp h
    obtain ⟨hlookup, hactive⟩ := resolveToken_eq_some.mp hlink
    exact isActive_iff.mpr ⟨link, resolveToken_eq_some.mpr
      ⟨lookup_revoke_other hlookup hends, hactive⟩⟩

theorem Onward.database {s : GuestState κ δ} {db : Database δ}
    (hdeleted : s.links.rows.all fun x =>
      (s.db.getContact x.2.deviceID).isSome || (db.getContact x.2.deviceID).isNone) :
    s.Onward (.database db) { s with db } where
  names := fun _ _ h => h
  active := by
    intro hash h
    obtain ⟨link, hlink⟩ := isActive_iff.mp h
    obtain ⟨hlookup, hrevoked, hexpires, hcontact⟩ := resolveToken_eq_some.mp hlink
    refine isActive_iff.mpr ⟨link, resolveToken_eq_some.mpr ⟨hlookup, hrevoked, hexpires, ?_⟩⟩
    have hrow := List.all_eq_true.mp hdeleted (hash, link) (Table.mem_rows.mpr hlookup)
    rw [Bool.or_eq_true] at hrow
    rcases hrow with hbefore | hafter
    · exact hbefore
    · rw [Option.isNone_iff_eq_none] at hafter
      rw [hafter] at hcontact
      cases hcontact
  valid := fun _ _ h => h
  stays := by
    intro hash _ hdeletes h
    obtain ⟨link, hlink⟩ := isActive_iff.mp h
    obtain ⟨hlookup, hrevoked, hexpires, -⟩ := resolveToken_eq_some.mp hlink
    simp only [deletes, hlookup] at hdeletes
    refine isActive_iff.mpr ⟨link, resolveToken_eq_some.mpr ⟨hlookup, hrevoked, hexpires, ?_⟩⟩
    exact Option.isNone_eq_false_iff.mp hdeletes

/-! ## Invariant -/

/-- The links that are active now were active when the datum was read. -/
def Fresh (s : GuestState κ δ) (active : κ → Bool) : Prop :=
  ∀ hash, s.isActive hash = true → active hash = true

theorem Fresh.onward {s s' : GuestState κ δ} {a : GuestAction κ δ} {active : κ → Bool}
    (h : s.Fresh active) (hon : s.Onward a s') : s'.Fresh active :=
  fun hash hactive => h hash (hon.active hash hactive)

end GuestState

/-- The link a request holds. -/
def GuestPc.link : GuestPc κ δ → Option (ShareLink δ)
  | .resolveCookie | .returned => none
  | .revalidate link | .subscribe link | .contact link _ _ | .latest link _ _ _ _
  | .recheck link _ | .write link _ _ _ | .select link _ | .stillActive link _ _ => some link

namespace GuestState

/-- What holds of a request at each statement. `P` says that the run was undisturbed so far: only
the reads of a stream need it. -/
def PcOk (P : Prop) (s : GuestState κ δ) (hash : κ) : GuestPc κ δ → Prop
  | .subscribe _ => P → s.Valid hash
  | .contact _ path _ => path ≠ .event ∧ (path ≠ .live → P → s.Valid hash)
  | .latest _ path _ _ active =>
    path ≠ .event ∧ s.Fresh active ∧ (path ≠ .live → P → s.isActive hash = true)
  | .recheck _ c => s.Fresh c.active
  | .write _ path _ c => path = .live ∨ path = .event ∨ P → c.active hash = true
  | .stillActive _ _ (.event e) => s.Fresh e.snapshot.active
  | _ => True

structure GuestOk (P : Prop) (s : GuestState κ δ) (g : GuestThread κ δ) : Prop where
  names : ∀ link, g.pc.link = some link → s.Names g.hash link
  pc : s.PcOk P g.hash g.pc

def CaptureOk (s : GuestState κ δ) : CapturePc κ δ → Prop
  | .latest _ _ active => s.Fresh active
  | .publish _ c => s.Fresh c.active
  | _ => True

structure Inv (P : Prop) (s : GuestState κ δ) : Prop where
  reached : s.hub.Reached
  events : ∀ x ∈ s.hub.published ++ s.hub.waiting, s.Fresh x.2.snapshot.active
  ingests : ∀ c ∈ s.ingests, s.CaptureOk c
  guests : ∀ g ∈ s.guests, s.GuestOk P g
  delivered : ∀ x ∈ s.delivered, x.path = .live ∨ x.path = .event ∨ P →
    x.datum.active x.hash = true

theorem CaptureOk.onward {s s' : GuestState κ δ} {a : GuestAction κ δ} {c : CapturePc κ δ}
    (h : s.CaptureOk c) (hon : s.Onward a s') : s'.CaptureOk c := by
  cases c with
  | latest device last active => exact Fresh.onward h hon
  | publish device c => exact Fresh.onward h hon
  | contact device => trivial
  | returned => trivial

theorem GuestOk.onward {P : Prop} {s s' : GuestState κ δ} {a : GuestAction κ δ}
    {g : GuestThread κ δ} (h : s.GuestOk P g) (hon : s.Onward a s')
    (hspared : P → s.Spared a g.hash g.pc) : s'.GuestOk P g := by
  refine ⟨fun link hlink => hon.names _ _ (h.names link hlink), ?_⟩
  have hpc := h.pc
  cases hcase : g.pc with
  | subscribe link =>
    rw [hcase] at hpc hspared
    exact fun hP => hon.valid _ (hspared hP) (hpc hP)
  | contact link path sub =>
    rw [hcase] at hpc hspared
    exact ⟨hpc.1, fun hpath hP => hon.valid _ (hspared hP hpath) (hpc.2 hpath hP)⟩
  | latest link path sub last active =>
    rw [hcase] at hpc hspared
    obtain ⟨hevent, hfresh, hactive⟩ := hpc
    refine ⟨hevent, hfresh.onward hon, fun hpath hP => ?_⟩
    obtain ⟨hends, hdeletes⟩ := hspared hP hpath
    exact hon.stays _ hends hdeletes (hactive hpath hP)
  | recheck link c =>
    rw [hcase] at hpc
    exact Fresh.onward hpc hon
  | write link path sub c =>
    rw [hcase] at hpc
    exact hpc
  | stillActive link sub wake =>
    rw [hcase] at hpc
    cases wake with
    | event e => exact Fresh.onward hpc hon
    | keepalive => trivial
    | timer => trivial
  | resolveCookie | revalidate link | select link sub | returned => trivial

/-! ## One lemma for each kind of step -/

/-- A step of the world around the requests. -/
theorem Inv.world {P : Prop} {s s' : GuestState κ δ} {a : GuestAction κ δ} (h : s.Inv P)
    (hon : s.Onward a s') (hspared : P → s.Undisturbed a) (hhub : s'.hub = s.hub)
    (hingests : s'.ingests = s.ingests) (hguests : s'.guests = s.guests)
    (hdelivered : s'.delivered = s.delivered) : s'.Inv P := by
  refine ⟨hhub ▸ h.reached, fun x hx => ?_, fun c hc => ?_, fun g hg => ?_, fun x hx => ?_⟩
  · rw [hhub] at hx
    exact (h.events x hx).onward hon
  · rw [hingests] at hc
    exact (h.ingests c hc).onward hon
  · rw [hguests] at hg
    exact (h.guests g hg).onward hon fun hP => hspared hP g hg
  · rw [hdelivered] at hx
    exact h.delivered x hx

/-! ### Steps that leave the tables alone -/

/-- The tables and the clock stay. -/
structure Quiet (s s' : GuestState κ δ) : Prop where
  db : s'.db = s.db
  links : s'.links = s.links
  now : s'.now = s.now

theorem Quiet.onward {s s' : GuestState κ δ} {a : GuestAction κ δ} (h : s.Quiet s') :
    s.Onward a s' := .of_same h.db h.links h.now

/-- The steps that leave every link and every device as they are. -/
def idle : GuestAction κ δ → Bool
  | .tick _ | .revoke _ _ | .database _ => false
  | _ => true

theorem spared_of_idle {s : GuestState κ δ} {a : GuestAction κ δ} {hash : κ} {pc : GuestPc κ δ}
    (h : idle a = true) : s.Spared a hash pc := by
  have hends : s.ends a hash = false := by
    unfold ends
    split
    · cases h
    · cases h
    · rfl
  have hdeletes : s.deletes a hash = false := by
    unfold deletes
    split
    · cases h
    · rfl
  cases pc with
  | subscribe link => exact hends
  | contact link path sub => exact fun _ => hends
  | latest link path sub last active => exact fun _ => ⟨hends, hdeletes⟩
  | resolveCookie | revalidate link | recheck link c | write link path sub c | select link sub
  | stillActive link sub wake | returned => trivial

theorem GuestOk.quiet {P : Prop} {s s' : GuestState κ δ} {g : GuestThread κ δ}
    (h : s.GuestOk P g) (hquiet : s.Quiet s') : s'.GuestOk P g := by
  exact h.onward (a := .leave 0) hquiet.onward fun _ => spared_of_idle rfl

/-- A step of the requests, of the ingest calls or of the hub. -/
theorem Inv.quiet {P : Prop} {s s' : GuestState κ δ} (h : s.Inv P) (hquiet : s.Quiet s')
    (hreached : s'.hub.Reached)
    (hevents : ∀ x ∈ s'.hub.published ++ s'.hub.waiting,
      x ∈ s.hub.published ++ s.hub.waiting ∨ s.Fresh x.2.snapshot.active)
    (hingests : ∀ c ∈ s'.ingests, c ∈ s.ingests ∨ s.CaptureOk c)
    (hguests : ∀ g ∈ s'.guests, g ∈ s.guests ∨ s.GuestOk P g)
    (hdelivered : ∀ x ∈ s'.delivered, x ∈ s.delivered ∨
      (x.path = .live ∨ x.path = .event ∨ P → x.datum.active x.hash = true)) : s'.Inv P := by
  have hon : s.Onward (.leave 0) s' := hquiet.onward
  refine ⟨hreached, fun x hx => ?_, fun c hc => ?_, fun g hg => ?_, fun x hx => ?_⟩
  · rcases hevents x hx with hold | hnew
    · exact (h.events x hold).onward hon
    · exact hnew.onward hon
  · rcases hingests c hc with hold | hnew
    · exact (h.ingests c hold).onward hon
    · exact hnew.onward hon
  · rcases hguests g hg with hold | hnew
    · exact (h.guests g hold).quiet hquiet
    · exact hnew.quiet hquiet
  · rcases hdelivered x hx with hold | hnew
    · exact h.delivered x hold
    · exact hnew

/-- One request moves on, and nothing is delivered. -/
theorem Inv.setGuest {P : Prop} {s : GuestState κ δ} {hub : HubState δ (Captured κ δ)} {k : Nat}
    {g : GuestThread κ δ} {pc : GuestPc κ δ} (h : s.Inv P) (hreached : hub.Reached)
    (hevents : ∀ x ∈ hub.published ++ hub.waiting, x ∈ s.hub.published ++ s.hub.waiting)
    (hok : s.GuestOk P { g with pc }) : (GuestState.setGuest { s with hub } k g pc).Inv P := by
  refine h.quiet ⟨rfl, rfl, rfl⟩ hreached (fun x hx => .inl (hevents x hx)) (fun c hc => .inl hc)
    (fun b hb => ?_) fun x hx => .inl hx
  rcases List.mem_or_eq_of_mem_set hb with hold | rfl
  · exact .inl hold
  · exact .inr hok

section
variable {P : Prop} {s : GuestState κ δ} {g : GuestThread κ δ} {clock : Time} {answered : Bool}
  {pc : GuestPc κ δ}

/-! ### The answer to a request

A request is answered in parts, and its link is looked up again before each part that carries data. -/

theorem GuestOk.returned : s.GuestOk P { g with pc := .returned } :=
  ⟨fun link hlink => (by cases hlink), trivial⟩

theorem resolveToken_of_answered {hash : κ} {link : ShareLink δ}
    (h : (if answered then s.resolveToken hash else none) = some link) :
    s.resolveToken hash = some link := by
  split at h
  · exact h
  · cases h

/-- The link of the cookie has been found, and with it where the request goes. -/
theorem GuestOk.resolveCookie (hpc : g.pc = .resolveCookie)
    (hrun : s.answer g clock answered = some pc) : s.GuestOk P { g with pc } := by
  simp only [GuestState.answer, hpc] at hrun
  split at hrun
  next link hlink =>
    cases hrun
    have hnames := Names.of_resolve (resolveToken_of_answered hlink)
    split
    · refine ⟨fun l hl => ?_, trivial⟩
      cases hl
      exact hnames
    · refine ⟨fun l hl => ?_, by simp, fun hpath => absurd rfl hpath⟩
      cases hl
      exact hnames
  next =>
    cases hrun
    exact .returned

/-- The latest location has been read, for a guest whose link was active at the first read. -/
theorem GuestOk.latest {link : ShareLink δ} {path : GuestPath} {sub : Option Nat} {last : Option Time}
    {active : κ → Bool} (h : s.GuestOk P g) (hpc : g.pc = .latest link path sub last active)
    (hrun : s.answer g clock answered = some pc) : s.GuestOk P { g with pc } := by
  have hnames := h.names
  have hok := h.pc
  simp only [hpc] at hnames hok
  simp only [GuestState.answer, hpc] at hrun
  obtain ⟨hevent, hfirst, hactive⟩ := hok
  split at hrun
  · cases hrun
    -- A link that is active at this read was active at the first one.
    have hfresh : s.Fresh fun h => active h && s.isActive h := by
      intro hash hnow
      simp only [hfirst hash hnow, hnow, Bool.and_self]
    split
    · exact ⟨hnames, hfresh⟩
    · next hpath =>
      refine ⟨hnames, fun hcase => hfresh g.hash ?_⟩
      rcases hcase with hlive | hstreamed | hP
      · exact absurd hlive hpath
      · exact absurd hstreamed hevent
      · exact hactive hpath hP
  · cases hrun
    exact .returned

/-- The link has been looked up again before the stream goes on. -/
theorem GuestOk.stillActive {link : ShareLink δ} {sub : Nat} {wake : GuestWake κ δ}
    (h : s.GuestOk P g) (hpc : g.pc = .stillActive link sub wake)
    (hrun : s.answer g clock answered = some pc) : s.GuestOk P { g with pc } := by
  have hnames := h.names
  have hok := h.pc
  simp only [hpc] at hnames hok
  simp only [GuestState.answer, hpc] at hrun
  split at hrun
  next l hlink =>
    have hactive := isActive_iff.mpr ⟨l, resolveToken_of_answered hlink⟩
    split at hrun
    · cases wake with
      | event e =>
        cases hrun
        exact ⟨hnames, fun _ => hok g.hash hactive⟩
      | keepalive =>
        cases hrun
        exact ⟨hnames, trivial⟩
      | timer =>
        cases hrun
        exact ⟨hnames, by simp, fun _ _ => .of_active hactive⟩
    · cases hrun
      exact .returned
  next =>
    cases hrun
    exact .returned

/-- A statement of a request. -/
theorem GuestOk.answer (h : s.GuestOk P g) (hrun : s.answer g clock answered = some pc) :
    s.GuestOk P { g with pc } := by
  have hnames := h.names
  have hok := h.pc
  cases hpc : g.pc with
  | resolveCookie => exact .resolveCookie hpc hrun
  | revalidate link =>
    simp only [GuestState.answer, hpc] at hrun hnames
    split at hrun
    next l hlink =>
      cases hrun
      exact ⟨hnames, fun _ =>
        .of_active (isActive_iff.mpr ⟨l, resolveToken_of_answered hlink⟩)⟩
    next =>
      cases hrun
      exact .returned
  | contact link path sub =>
    simp only [GuestState.answer, hpc] at hrun hnames hok
    split at hrun
    next last hlast =>
      cases hrun
      refine ⟨hnames, hok.1, fun hash hactive => hactive, fun hpath hP => ?_⟩
      refine (hok.2 hpath hP).active (hnames link rfl) ?_
      split at hlast
      · exact Option.isSome_of_eq_some hlast
      · cases hlast
    next =>
      cases hrun
      exact .returned
  | latest link path sub last active => exact h.latest hpc hrun
  | recheck link c =>
    simp only [GuestState.answer, hpc] at hrun hnames hok
    split at hrun
    next l hlink =>
      cases hrun
      exact ⟨hnames, fun _ =>
        hok g.hash (isActive_iff.mpr ⟨l, resolveToken_of_answered hlink⟩)⟩
    next =>
      cases hrun
      exact .returned
  | stillActive link sub wake => exact h.stillActive hpc hrun
  | subscribe link | write link path sub c | select link sub | returned =>
    simp only [GuestState.answer, hpc] at hrun
    cases hrun

end

/-! ### The threads -/

/-- The hub of the requests after a step that publishes nothing new. -/
theorem Inv.hubStep {P : Prop} {s : GuestState κ δ} {hub : HubState δ (Captured κ δ)}
    {a : HubAction δ (Captured κ δ)} (h : s.Inv P) (hstep : s.hub.step a = some hub)
    (hdraw : ∀ device kind c, a ≠ .draw device kind c) :
    hub.Reached ∧ ∀ x ∈ hub.published ++ hub.waiting, x ∈ s.hub.published ++ s.hub.waiting :=
  ⟨h.reached.step hstep, fun _ hx => h.reached.safe.mem_events hstep hdraw hx⟩

theorem GuestOk.of_pc {P : Prop} {s : GuestState κ δ} {g : GuestThread κ δ} {pc : GuestPc κ δ}
    (h : s.GuestOk P g) (hlink : ∀ link, pc.link = some link → g.pc.link = some link)
    (hok : s.PcOk P g.hash pc) : s.GuestOk P { g with pc } :=
  ⟨fun link hl => h.names link (hlink link hl), hok⟩

theorem Inv.run {P : Prop} {s s' : GuestState κ δ} {k : Nat} {clock : Time} {answered : Bool}
    (h : s.Inv P) (hrun : s.run k clock answered = some s') : s'.Inv P := by
  simp only [GuestState.run, Option.bind_eq_bind, Option.bind_eq_some_iff] at hrun
  obtain ⟨g, hg, hrun⟩ := hrun
  have hok := h.guests g (List.mem_of_getElem? hg)
  have hpc := hok.pc
  split at hrun
  next link hcase =>
    simp only [Option.bind_eq_some_iff] at hrun
    obtain ⟨hub, hhub, hrun⟩ := hrun
    cases hrun
    obtain ⟨hreached, hevents⟩ := h.hubStep hhub (by simp)
    rw [hcase] at hpc
    refine h.setGuest hreached hevents (hok.of_pc (fun l hl => ?_) ⟨by simp, fun _ => hpc⟩)
    rw [hcase]
    exact hl
  next link path sub c hcase =>
    cases hrun
    rw [hcase] at hpc
    refine h.quiet ⟨rfl, rfl, rfl⟩ h.reached (fun x hx => .inl hx) (fun c hc => .inl hc)
      (fun b hb => ?_) fun x hx => ?_
    · rcases List.mem_or_eq_of_mem_set hb with hold | rfl
      · exact .inl hold
      · refine .inr (hok.of_pc (fun l hl => ?_) ?_)
        · rw [hcase]
          cases sub with
          | some sub => exact hl
          | none => cases hl
        · cases sub with
          | some sub => trivial
          | none => trivial
    · rcases List.mem_append.mp hx with hold | hnew
      · exact .inl hold
      · obtain rfl := List.mem_singleton.mp hnew
        exact .inr hpc
  next =>
    simp only [Option.bind_eq_some_iff] at hrun
    obtain ⟨pc, hanswer, hrun⟩ := hrun
    cases hrun
    exact h.setGuest h.reached (fun x hx => hx) (hok.answer hanswer)

theorem Inv.wake {P : Prop} {s s' : GuestState κ δ} {k : Nat} {w : GuestWake κ δ} (h : s.Inv P)
    (hwake : ∀ e, w ≠ .event e) (hrun : s.wake k w = some s') : s'.Inv P := by
  simp only [GuestState.wake, Option.bind_eq_bind, Option.bind_eq_some_iff] at hrun
  obtain ⟨g, hg, hrun⟩ := hrun
  have hok := h.guests g (List.mem_of_getElem? hg)
  split at hrun
  next link sub hcase =>
    cases hrun
    refine h.setGuest h.reached (fun x hx => hx) (hok.of_pc (fun l hl => ?_) ?_)
    · rw [hcase]
      exact hl
    · cases w with
      | event e => exact absurd rfl (hwake e)
      | keepalive => trivial
      | timer => trivial
  next => cases hrun

/-- What a stream takes from its channel was published. -/
theorem Inv.receive {P : Prop} {s s' : GuestState κ δ} {k : Nat} (h : s.Inv P)
    (hrun : s.receive k = some s') : s'.Inv P := by
  simp only [GuestState.receive, Option.bind_eq_bind, Option.bind_eq_some_iff] at hrun
  obtain ⟨g, hg, hrun⟩ := hrun
  have hok := h.guests g (List.mem_of_getElem? hg)
  split at hrun
  next link sub hcase =>
    simp only [Option.bind_eq_some_iff] at hrun
    obtain ⟨⟨r, _⟩, hreceive, hub, hhub, hrun⟩ := hrun
    obtain ⟨hreached, hevents⟩ := h.hubStep hhub (by simp)
    cases r with
    | value e =>
      cases hrun
      obtain ⟨-, -, -, -, v, v', hv, -, -, -, -, -, htaken⟩ :=
        Hub.receive_spec h.reached.safe.sound hreceive
      obtain ⟨t, ht⟩ := HubState.exists_trace h.reached.safe hv
      have hpublished : (v.1.device, e) ∈ s.hub.published := by
        refine h.reached.own sub v t hv ht e (List.mem_append_right _ ?_)
        rcases htaken with ⟨e', he', hbuffer⟩ | ⟨hclosed, -⟩
        · cases he'
          rw [hbuffer]
          exact List.mem_cons_self
        · cases hclosed
      refine h.setGuest hreached hevents (hok.of_pc (fun l hl => ?_)
        (h.events _ (List.mem_append_left _ hpublished)))
      rw [hcase]
      exact hl
    | closed =>
      cases hrun
      exact h.setGuest hreached hevents (hok.of_pc (fun l hl => (by cases hl)) trivial)
  next => cases hrun

theorem Inv.setCapture {P : Prop} {s : GuestState κ δ} {i : Nat} {c : CapturePc κ δ} (h : s.Inv P)
    (hok : s.CaptureOk c) : Inv P { s with ingests := s.ingests.set i c } := by
  refine h.quiet ⟨rfl, rfl, rfl⟩ h.reached (fun x hx => .inl hx) (fun b hb => ?_)
    (fun g hg => .inl hg) fun x hx => .inl hx
  rcases List.mem_or_eq_of_mem_set hb with hold | rfl
  · exact .inl hold
  · exact .inr hok

theorem Inv.capture {P : Prop} {s s' : GuestState κ δ} {i : Nat} {clock : Time} {answered : Bool}
    (h : s.Inv P) (hrun : s.capture i clock answered = some s') : s'.Inv P := by
  simp only [GuestState.capture, Option.bind_eq_bind, Option.bind_eq_some_iff] at hrun
  obtain ⟨c, hc, hrun⟩ := hrun
  have hok := h.ingests c (List.mem_of_getElem? hc)
  cases c with
  | contact device =>
    dsimp only at hrun
    split at hrun
    · cases hrun
      exact h.setCapture fun hash hactive => hactive
    · cases hrun
      exact h.setCapture trivial
  | latest device last active =>
    cases hrun
    split
    · refine h.setCapture fun hash hactive => ?_
      simp only [hok hash hactive, hactive, Bool.and_self]
    · exact h.setCapture trivial
  | publish device c =>
    simp only [Option.bind_eq_some_iff] at hrun
    obtain ⟨hub, hhub, hrun⟩ := hrun
    cases hrun
    obtain ⟨-, hpublished, hwaiting⟩ := h.reached.safe.frame hhub
    refine h.quiet ⟨rfl, rfl, rfl⟩ (h.reached.step hhub) (fun x hx => ?_) (fun b hb => ?_)
      (fun g hg => .inl hg) fun x hx => .inl hx
    · have hx : x ∈ hub.published ++ hub.waiting := hx
      rw [hpublished, hwaiting, ← List.append_assoc, List.mem_append, List.mem_singleton] at hx
      rcases hx with hold | rfl
      · exact .inl hold
      · exact .inr hok
    · rcases List.mem_or_eq_of_mem_set hb with hold | rfl
      · exact .inl hold
      · exact .inr trivial
  | returned => cases hrun

/-! ## Runs -/

theorem Inv.addGuest {P : Prop} {s : GuestState κ δ} (h : s.Inv P) (hash : κ) (stream : Bool) :
    Inv P { s with guests := s.guests ++ [⟨hash, stream, .resolveCookie⟩] } := by
  refine h.quiet ⟨rfl, rfl, rfl⟩ h.reached (fun x hx => .inl hx) (fun c hc => .inl hc)
    (fun g hg => ?_) fun x hx => .inl hx
  rcases List.mem_append.mp hg with hold | hnew
  · exact .inl hold
  · obtain rfl := List.mem_singleton.mp hnew
    exact .inr ⟨fun link hlink => (by cases hlink), trivial⟩

theorem Inv.step {P : Prop} {s s' : GuestState κ δ} {a : GuestAction κ δ} (h : s.Inv P)
    (hspared : P → s.Undisturbed a) (hstep : s.step a = some s') : s'.Inv P := by
  cases a with
  | live hash =>
    cases hstep
    exact h.addGuest hash false
  | stream hash =>
    rw [GuestState.step] at hstep
    split at hstep
    · cases hstep
      exact h.addGuest hash true
    · cases hstep
      exact h
  | run k clock answered => exact h.run hstep
  | receive k => exact h.receive hstep
  | keepalive k => exact h.wake (by simp) hstep
  | timer k => exact h.wake (by simp) hstep
  | leave k =>
    simp only [GuestState.step, Option.bind_eq_bind, Option.bind_eq_some_iff] at hstep
    obtain ⟨g, hg, hstep⟩ := hstep
    cases hstep
    have hok := h.guests g (List.mem_of_getElem? hg)
    exact h.setGuest h.reached (fun x hx => hx)
      (hok.of_pc (fun l hl => (by cases hl)) trivial)
  | ingest device =>
    cases hstep
    refine h.quiet ⟨rfl, rfl, rfl⟩ h.reached (fun x hx => .inl hx) (fun c hc => ?_)
      (fun g hg => .inl hg) fun x hx => .inl hx
    rcases List.mem_append.mp hc with hold | hnew
    · exact .inl hold
    · obtain rfl := List.mem_singleton.mp hnew
      exact .inr trivial
  | capture i clock answered => exact h.capture hstep
  | hub a =>
    cases a with
    | draw device kind c => cases hstep
    | nextID | acquire i order | offer | release | subscribe device | unsubscribe sub
    | receive sub =>
      simp only [GuestState.step, Option.bind_eq_bind, Option.bind_eq_some_iff] at hstep
      obtain ⟨hub, hhub, hstep⟩ := hstep
      cases hstep
      obtain ⟨hreached, hevents⟩ := h.hubStep hhub (by simp)
      exact h.quiet ⟨rfl, rfl, rfl⟩ hreached (fun x hx => .inl (hevents x hx))
        (fun c hc => .inl hc) (fun g hg => .inl hg) fun x hx => .inl hx
  | tick now =>
    rw [GuestState.step] at hstep
    split at hstep
    next hnow =>
      cases hstep
      exact h.world (.tick hnow) hspared rfl rfl rfl rfl
    next => cases hstep
  | revoke device id =>
    cases hstep
    exact h.world .revoke hspared rfl rfl rfl rfl
  | database db =>
    rw [GuestState.step] at hstep
    split at hstep
    next hdeleted =>
      cases hstep
      exact h.world (.database hdeleted) hspared rfl rfl rfl rfl
    next => cases hstep

theorem inv_new (P : Prop) (db : Database δ) (links : Table κ (ShareLink δ)) (now : Time) :
    (GuestState.new db links now).Inv P where
  reached := HubState.reached_of_run (Run.nil_iff.mpr rfl)
  events := fun x hx => by cases hx
  ingests := fun c hc => by cases hc
  guests := fun g hg => by cases hg
  delivered := fun x hx => by cases hx

end GuestState

/-- In every run, what `Live` answers and what a stream passes on from the hub was read while the
link was active. -/
theorem rechecked_data_active {db : Database δ} {links : Table κ (ShareLink δ)} {now : Time}
    {as : List (GuestAction κ δ)} {s : GuestState κ δ}
    (hrun : Run GuestState.step (.new db links now) as s) :
    ∀ x ∈ s.delivered, x.path = .live ∨ x.path = .event → x.datum.active x.hash = true := by
  have h : s.Inv False := hrun.invariant (fun s a t hs hstep => hs.step (by simp) hstep)
    (GuestState.inv_new False db links now)
  intro x hx hpath
  refine h.delivered x hx ?_
  rcases hpath with hlive | hevent
  · exact .inl hlive
  · exact .inr (.inl hevent)

/-- In an undisturbed run, every datum a guest gets was read while the link was active. -/
theorem guest_data_active {db : Database δ} {links : Table κ (ShareLink δ)} {now : Time}
    {as : List (GuestAction κ δ)} {s : GuestState κ δ}
    (hundisturbed : Along GuestState.step GuestState.Undisturbed (.new db links now) as)
    (hrun : Run GuestState.step (.new db links now) as s) :
    ∀ x ∈ s.delivered, x.datum.active x.hash = true := by
  have h : s.Inv True := hrun.invariant_along (fun s a t hs hguard hstep =>
    hs.step (fun _ => hguard) hstep) hundisturbed (GuestState.inv_new True db links now)
  exact fun x hx => h.delivered x hx (.inr (.inr trivial))

/-- One device with one link, which expires at 100. -/
def sharedDevice : GuestState Nat Nat :=
  .new ⟨AList.singleton 7 ⟨some 0, none⟩, ∅, ∅⟩ (AList.singleton 1 ⟨1, 7, 100, none⟩) 0

/-- A stream with its snapshot, an event and a presence refresh, and a live request. -/
def guestRun : List (GuestAction Nat Nat) :=
  .stream 1 :: List.replicate 6 (.run 0 0 true) ++
    [.ingest 7, .capture 0 0 true, .capture 0 0 true, .capture 0 0 true, .hub (.acquire 0 [1]),
      .hub .offer, .hub .release, .receive 0, .run 0 0 true, .run 0 0 true, .timer 0] ++
    List.replicate 4 (.run 0 0 true) ++ .live 1 :: List.replicate 5 (.run 1 0 true)

theorem guest_data_active_four : ∃ s : GuestState Nat Nat,
    Run GuestState.step sharedDevice (guestRun ++ [.revoke 7 1]) s ∧
      s.delivered.map (·.path) = [.snapshot, .event, .presence, .live] ∧
      s.isActive 1 = false ∧ ∀ x ∈ s.delivered, x.datum.active x.hash = true := by
  obtain ⟨s, hrun, hfacts⟩ := Option.map_eq_some_iff.mp (show
    ((guestRun ++ [.revoke 7 1] : List (GuestAction Nat Nat)).foldlM GuestState.step
      sharedDevice).map (fun s => (s.delivered.map (·.path), s.isActive 1)) =
        some ([.snapshot, .event, .presence, .live], false) by decide +kernel)
  obtain ⟨hpaths, hlink⟩ := Prod.mk.inj hfacts
  refine ⟨s, hrun, hpaths, hlink, guest_data_active ?_ hrun⟩
  refine (Along.of_forall fun s a ha g _ => GuestState.spared_of_idle ?_).snoc fun t ht g hg => ?_
  · exact (show ∀ a ∈ guestRun, GuestState.idle a = true by decide) a ha
  · -- Both requests are past their reads.
    have hquiet : (guestRun.foldlM GuestState.step sharedDevice).map (fun t =>
        t.guests.all fun g => g.pc matches .select _ _ | .returned) = some true := by decide +kernel
    rw [show guestRun.foldlM GuestState.step sharedDevice = some t from ht] at hquiet
    have hpc := List.all_eq_true.mp (Option.some.inj hquiet) g hg
    cases hcase : g.pc <;> simp [hcase, GuestState.Spared] at hpc ⊢

/-- The link is revoked after the stream looked it up and before it reads its snapshot, which is
written all the same. -/
theorem snapshot_after_revoke : ∃ (s : GuestState Nat Nat) (x : GuestDatum Nat Nat),
    Run GuestState.step sharedDevice
      [.stream 1, .run 0 0 true, .run 0 0 true, .revoke 7 1, .run 0 0 true, .run 0 0 true,
        .run 0 0 true, .run 0 0 true] s ∧
      x ∈ s.delivered ∧ x.path = .snapshot ∧ x.datum.active x.hash = false := by
  obtain ⟨s, hrun, hfacts⟩ := Option.map_eq_some_iff.mp (show
    (([.stream 1, .run 0 0 true, .run 0 0 true, .revoke 7 1, .run 0 0 true, .run 0 0 true,
        .run 0 0 true, .run 0 0 true] : List (GuestAction Nat Nat)).foldlM GuestState.step
      sharedDevice).map (fun s => s.delivered.map fun x => (x.path, x.datum.active x.hash)) =
        some [(.snapshot, false)] by decide +kernel)
  obtain ⟨x, hx, hdatum⟩ : ∃ x ∈ s.delivered, (x.path, x.datum.active x.hash) =
      (GuestPath.snapshot, false) := List.mem_map.mp (by rw [hfacts]; exact List.mem_singleton_self _)
  obtain ⟨hpath, hinactive⟩ := Prod.mk.inj hdatum
  exact ⟨s, x, hrun, hx, hpath, hinactive⟩

end OpenGps.Backend
