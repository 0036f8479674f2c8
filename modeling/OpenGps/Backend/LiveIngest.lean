import Mathlib.Data.Option.Basic
import OpenGps.Backend.HubDelivery
import OpenGps.Backend.Locations

/-!
# Ingest and the live hub

The calls of `Ingest` and `IngestBatch` next to the users of the hub. `main` gives the service the
adapter as its reader and the hub as its publisher, so both guards of the last part of `Ingest`
hold: after the write it reads the live state, and publishes it when the read succeeds. The three
parts are separate steps, with the steps of every other thread between them.
-/

namespace OpenGps.Backend

open OpenGps.Lib

inductive IngestPath where
  | ingest
  | ingestBatch
  deriving DecidableEq

inductive IngestProgress where
  | stored
  | read
  | drawn
  | delivering
  | returned
  deriving DecidableEq

/-- A call whose write succeeded. `live` is what the read after the write returned, with its clock
and the tables it read; for a batch, which makes none, the read that would follow. `leftAt` are the
tables when the call returns. The audience are the subscriptions of the device when the publish
takes the lock, or when the call returns without one. -/
structure IngestCall (δ : Type) where
  path : IngestPath
  device : δ
  storedNew : Bool
  live : Option (LiveLocation δ)
  now : Time
  readFrom : Database δ
  leftAt : Database δ
  event : Option (LiveEvent (LiveLocation δ))
  index : Nat
  audience : List Nat
  progress : IngestProgress

/-- `queue` and `holder` are the calls behind the waiting publishes of the hub and behind the one
that holds its lock. -/
structure IngestState (δ : Type) where
  db : Database δ
  hub : HubState δ (LiveLocation δ)
  calls : List (IngestCall δ)
  queue : List Nat
  holder : Option Nat

/-- `other` stands for the rest of the program, which may change the tables in any way. -/
inductive IngestAction (δ : Type) where
  | ingest (device : δ) (item : LocationItem) (clock : Time) (commit : Commit)
  | ingestBatch (device : δ) (items : List LocationItem) (clock now : Time) (commit : Commit)
  | getLive (call : Nat) (now : Time) (answered : Bool)
  | publish (call : Nat)
  | hub (a : HubAction δ (LiveLocation δ))
  | other (db : Database δ)

variable {δ : Type} [DecidableEq δ]

/-- A location of the device is in the second database and not in the first. -/
def Database.storesNew (db db' : Database δ) (device : δ) : Bool :=
  db'.locations.keys.any fun k => k.1 = device ∧ k ∉ db.locations

namespace IngestState

def new (db : Database δ) : IngestState δ := ⟨db, .new, [], [], none⟩

def modifyCall (s : IngestState δ) (call : Option Nat) (f : IngestCall δ → IngestCall δ) :
    List (IngestCall δ) :=
  match call with
  | some k => s.calls.modify k f
  | none => s.calls

def step (s : IngestState δ) : IngestAction δ → Option (IngestState δ)
  | .ingest device item clock commit =>
    match ingestWrite s.db clock commit (toDomainIngest item device) with
    | (.error _, db) => some { s with db }
    | (.ok (), db) =>
      some { s with
        db
        calls := s.calls ++
          [⟨.ingest, device, s.db.storesNew db device, none, clock, db, db, none, 0, [],
            .stored⟩] }
  | .ingestBatch device items clock now commit =>
    match Backend.ingestBatch s.db clock commit (items.map (toDomainIngest · device)) with
    | (.error _, db) => some { s with db }
    -- The handler of a batch answers without a publish.
    | (.ok _, db) =>
      some { s with
        db
        calls := s.calls ++
          [⟨.ingestBatch, device, s.db.storesNew db device, Backend.getLive db device now, now, db,
            db, none, 0, s.hub.hub.subscribers device, .returned⟩] }
  | .getLive call now answered => do
    let c ← s.calls[call]?
    guard (c.progress = .stored)
    -- A read that fails ends the call without an event; its write stays.
    match if answered then Backend.getLive s.db c.device now else none with
    | some snapshot =>
      return { s with
        calls := s.calls.set call
          { c with live := some snapshot, now, readFrom := s.db, progress := .read } }
    | none =>
      return { s with calls := s.calls.set call { c with leftAt := s.db, progress := .returned } }
  | .publish call => do
    let c ← s.calls[call]?
    guard (c.progress = .read)
    let snapshot ← c.live
    let hub ← s.hub.step (.draw c.device "location" snapshot)
    let event := ⟨s.hub.hub.sequence + 1, "location", snapshot⟩
    return { s with
      hub
      calls := s.calls.set call { c with event := some event, progress := .drawn }
      queue := s.queue ++ [call] }
  | .hub (.draw ..) => none
  | .hub (.acquire i order) => do
    let hub ← s.hub.step (.acquire i order)
    return { s with
      hub
      calls := s.modifyCall s.queue[i]? fun c =>
        { c with
          index := s.hub.published.length
          audience := s.hub.hub.subscribers c.device
          progress := .delivering }
      queue := s.queue.eraseIdx i
      holder := s.queue[i]? }
  | .hub .release => do
    let hub ← s.hub.step .release
    return { s with
      hub
      calls := s.modifyCall s.holder fun c => { c with leftAt := s.db, progress := .returned }
      holder := none }
  | .hub a => do
    let hub ← s.hub.step a
    return { s with hub }
  | .other db => some { s with db }

end IngestState

/-- The live state of the device after the call, at the clock of its read. -/
def IngestCall.liveAfter (c : IngestCall δ) : Option (LiveLocation δ) :=
  Backend.getLive c.leftAt c.device c.now

/-- The tables at the return of the call give the live state that those of its read give. -/
def IngestCall.Steady (c : IngestCall δ) : Prop :=
  Backend.getLive c.readFrom c.device c.now = Backend.getLive c.leftAt c.device c.now

instance (c : IngestCall δ) : Decidable c.Steady := inferInstanceAs (Decidable (_ = _))

/-- Every subscription of the audience was sent the event of the call, which carries the live state
after the call, or was evicted for overflow by the publish of the call. -/
def IngestCall.Fed (s : IngestState δ) (c : IngestCall δ) : Prop :=
  ∀ sub ∈ c.audience, ∃ e, c.event = some e ∧ e.kind = "location" ∧ c.liveAfter = some e.snapshot ∧
    ∃ v t, s.hub.hub.heap[sub]? = some v ∧ s.hub.traces[sub]? = some t ∧
      (e ∈ t.received ++ v.ch.buffer ∨ t.left = some c.index)

/-! ## The invariant -/

/-- What the call has read. -/
def IngestCall.HasRead (c : IngestCall δ) : Prop :=
  c.path = .ingest ∧ c.live = Backend.getLive c.readFrom c.device c.now

/-- The publish of the call carries what its read returned. -/
def IngestCall.Published (c : IngestCall δ) (e : LiveEvent (LiveLocation δ)) : Prop :=
  c.HasRead ∧ c.event = some e ∧ e.kind = "location" ∧ c.live = some e.snapshot

namespace IngestState

def CallOk (s : IngestState δ) (k : Nat) (c : IngestCall δ) : Prop :=
  match c.progress with
  | .stored => c.path = .ingest ∧ c.live = none
  | .read => c.HasRead
  | .drawn => ∃ e, c.Published e
  | .delivering => s.holder = some k ∧ ∃ dl, s.hub.lock = some dl ∧
      (c.device = dl.device ∧ c.Published dl.event) ∧ c.index = s.hub.published.length - 1 ∧
      ∀ sub ∈ c.audience, s.hub.Reaches sub dl
  | .returned => c.path = .ingestBatch ∧ c.event = none ∨ c.path = .ingest ∧ c.live = none ∨
      ∃ e, c.Published e ∧ ∀ sub ∈ c.audience, s.hub.Given sub e c.index

/-- The call behind a publish that waits for the lock. -/
def Behind (calls : List (IngestCall δ)) (k : Nat) (w : δ × LiveEvent (LiveLocation δ)) : Prop :=
  ∃ c, calls[k]? = some c ∧ c.progress = .drawn ∧ c.device = w.1 ∧ c.event = some w.2

structure Inv (s : IngestState δ) : Prop where
  safe : s.hub.Safe
  leftOut : s.hub.LeftOut
  length : s.queue.length = s.hub.waiting.length
  queue : ∀ (i k : Nat) (w : δ × LiveEvent (LiveLocation δ)), s.queue[i]? = some k →
    s.hub.waiting[i]? = some w → Behind s.calls k w
  nodup : s.queue.Nodup
  holder : s.hub.lock.isSome → ∃ k c, s.holder = some k ∧ s.calls[k]? = some c ∧
    c.progress = .delivering
  calls : ∀ k c, s.calls[k]? = some c → s.CallOk k c

theorem Inv.of_mem_queue {s : IngestState δ} (h : s.Inv) {k : Nat} (hk : k ∈ s.queue) :
    ∃ c, s.calls[k]? = some c ∧ c.progress = .drawn := by
  obtain ⟨i, hi⟩ := List.mem_iff_getElem?.mp hk
  have hlt : i < s.hub.waiting.length := by
    rw [← h.length]
    exact (List.getElem?_eq_some_iff.mp hi).1
  obtain ⟨c, hc, hdrawn, -⟩ := h.queue i k _ hi (List.getElem?_eq_getElem hlt)
  exact ⟨c, hc, hdrawn⟩

/-- Calls that are neither waiting nor delivering may change, and new ones may appear. -/
theorem Inv.changeCalls {s : IngestState δ} {db : Database δ} {calls : List (IngestCall δ)}
    (h : s.Inv) (hkeep : ∀ (k : Nat) (c : IngestCall δ), s.calls[k]? = some c →
      c.progress = .drawn ∨ c.progress = .delivering → calls[k]? = some c)
    (hnew : ∀ (k : Nat) (c : IngestCall δ), calls[k]? = some c →
      s.calls[k]? = some c ∨ s.CallOk k c) :
    Inv { s with db, calls } where
  safe := h.safe
  leftOut := h.leftOut
  length := h.length
  queue := fun i k w hk hw => by
    obtain ⟨c, hc, hdrawn, hrest⟩ := h.queue i k w hk hw
    exact ⟨c, hkeep k c hc (.inl hdrawn), hdrawn, hrest⟩
  nodup := h.nodup
  holder := fun hlock => by
    obtain ⟨k, c, hk, hc, hdelivering⟩ := h.holder hlock
    exact ⟨k, c, hk, hkeep k c hc (.inr hdelivering), hdelivering⟩
  calls := fun k c hc => by
    rcases hnew k c hc with hold | hok
    · exact h.calls k c hold
    · exact hok

theorem Inv.addCall {s : IngestState δ} {db : Database δ} {c : IngestCall δ} (h : s.Inv)
    (hok : ∀ k, s.CallOk k c) : Inv { s with db, calls := s.calls ++ [c] } := by
  refine h.changeCalls (fun k d hd _ => ?_) fun k d hd => ?_
  · rw [List.getElem?_append_left (List.getElem?_eq_some_iff.mp hd).1, hd]
  · rcases Nat.lt_or_ge k s.calls.length with hlt | hge
    · rw [List.getElem?_append_left hlt] at hd
      exact .inl hd
    · rw [List.getElem?_append_right hge] at hd
      obtain rfl := List.mem_singleton.mp (List.mem_of_getElem? hd)
      exact .inr (hok k)

theorem Inv.setCall {s : IngestState δ} {k : Nat} {c d : IngestCall δ} (h : s.Inv)
    (hc : s.calls[k]? = some c) (hfree : c.progress ≠ .drawn ∧ c.progress ≠ .delivering)
    (hok : s.CallOk k d) : Inv { s with calls := s.calls.set k d } := by
  refine h.changeCalls (fun j b hb hbusy => ?_) fun j b hb => ?_
  · have hne : k ≠ j := by
      rintro rfl
      obtain rfl := Option.some.inj (hc.symm.trans hb)
      rcases hbusy with hdrawn | hdelivering
      · exact hfree.1 hdrawn
      · exact hfree.2 hdelivering
    rw [List.getElem?_set_ne hne, hb]
  · rw [List.getElem?_set] at hb
    split at hb
    · next hkj =>
      subst hkj
      split at hb
      · cases hb
        exact .inr hok
      · cases hb
    · exact .inl hb

/-! ## Steps of the hub -/

/-- A step of the hub that neither takes nor releases the lock. -/
theorem CallOk.hub {s : IngestState δ} {hub : HubState δ (LiveLocation δ)}
    {a : HubAction δ (LiveLocation δ)} {k : Nat} {c : IngestCall δ} (h : s.Inv)
    (hstep : s.hub.step a = some hub) (hrelease : a ≠ .release) (hok : s.CallOk k c) :
    CallOk { s with hub } k c := by
  cases hprogress : c.progress with
  | stored | read | drawn =>
    simp only [CallOk, hprogress] at hok ⊢
    exact hok
  | returned =>
    simp only [CallOk, hprogress] at hok ⊢
    rcases hok with hbatch | hnone | ⟨e, hpublished, hgiven⟩
    · exact .inl hbatch
    · exact .inr (.inl hnone)
    · exact .inr (.inr ⟨e, hpublished, fun sub hsub =>
        (hgiven sub hsub).step h.safe h.leftOut hstep⟩)
  | delivering =>
    simp only [CallOk, hprogress] at hok ⊢
    obtain ⟨hholder, dl, hlock, hpublished, hindex, hreaches⟩ := hok
    have hsome : s.hub.lock.isSome := by rw [hlock]; rfl
    have hframe := h.safe.frame hstep
    -- The steps that leave the delivery as it is; `offer` takes one subscriber off it.
    have hsame : hub.lock = some dl → hub.published = s.hub.published → a ≠ .offer →
        ∃ dl, hub.lock = some dl ∧ (c.device = dl.device ∧ c.Published dl.event) ∧
          c.index = hub.published.length - 1 ∧ ∀ sub ∈ c.audience, hub.Reaches sub dl := by
      intro hlock' hlog hoffer
      refine ⟨dl, hlock', hpublished, by rw [hlog, hindex], fun sub hsub => ?_⟩
      rcases hreaches sub hsub with hawaits | hgiven
      · exact .inl (hawaits.step h.safe hsome hoffer hstep)
      · refine .inr ?_
        rw [hlog]
        exact hgiven.step h.safe h.leftOut hstep
    refine ⟨hholder, ?_⟩
    cases a with
    | nextID | receive sub =>
      exact hsame (hframe.1.trans hlock) hframe.2.2 (by simp)
    | draw device kind snapshot =>
      exact hsame (hframe.1.trans hlock) hframe.2.1 (by simp)
    | acquire i order =>
      obtain ⟨_, _, hnone, -⟩ := hframe
      rw [hnone] at hlock
      cases hlock
    | subscribe device | unsubscribe sub =>
      rw [hframe.1] at hlock
      cases hlock
    | release => exact absurd rfl hrelease
    | offer =>
      obtain ⟨dl', id, remaining, hlock', hremaining, hnext, -, hlog⟩ := hframe
      obtain rfl := Option.some.inj (hlock.symm.trans hlock')
      refine ⟨{ dl with remaining }, hnext, hpublished, by rw [hlog, hindex], fun sub hsub => ?_⟩
      rcases hreaches sub hsub with hawaits | hgiven
      · rcases hawaits.offer h.safe hlock hremaining hstep with hstill | hgiven
        · exact .inl hstill
        · refine .inr ?_
          rw [hlog]
          exact hgiven
      · refine .inr ?_
        rw [hlog]
        exact hgiven.step h.safe h.leftOut hstep

/-- A step of the hub that concerns no call. -/
theorem Inv.hubStep {s : IngestState δ} {hub : HubState δ (LiveLocation δ)}
    {a : HubAction δ (LiveLocation δ)} (h : s.Inv) (hstep : s.hub.step a = some hub)
    (hrelease : a ≠ .release) (hacquire : ∀ i order, a ≠ .acquire i order)
    (hdraw : ∀ device kind snapshot, a ≠ .draw device kind snapshot) : Inv { s with hub } := by
  have hsame : hub.waiting = s.hub.waiting ∧ (hub.lock.isSome → s.hub.lock.isSome) := by
    have hframe := h.safe.frame hstep
    cases a with
    | nextID | receive sub =>
      refine ⟨hframe.2.1, fun hsome => ?_⟩
      rw [← hframe.1]
      exact hsome
    | subscribe device | unsubscribe sub =>
      refine ⟨hframe.2.2.1, fun hsome => ?_⟩
      rw [hframe.2.1] at hsome
      cases hsome
    | offer =>
      obtain ⟨dl, id, remaining, hlock, -, -, hwaiting, -⟩ := hframe
      exact ⟨hwaiting, fun _ => by rw [hlock]; rfl⟩
    | release => exact absurd rfl hrelease
    | acquire i order => exact absurd rfl (hacquire i order)
    | draw device kind snapshot => exact absurd rfl (hdraw device kind snapshot)
  obtain ⟨hsafe, -⟩ := h.safe.step hstep
  refine ⟨hsafe, h.leftOut.step h.safe hstep, ?_, ?_, h.nodup, fun hsome => h.holder (hsame.2 hsome),
    fun k c hc => (h.calls k c hc).hub h hstep hrelease⟩
  · rw [hsame.1]
    exact h.length
  · rw [hsame.1]
    exact h.queue

theorem Inv.publish {s : IngestState δ} {hub : HubState δ (LiveLocation δ)} {k : Nat}
    {c : IngestCall δ} {snapshot : LiveLocation δ} (h : s.Inv) (hc : s.calls[k]? = some c)
    (hread : c.progress = .read) (hlive : c.live = some snapshot)
    (hstep : s.hub.step (.draw c.device "location" snapshot) = some hub) :
    Inv { s with
      hub
      calls := s.calls.set k
        { c with event := some ⟨s.hub.hub.sequence + 1, "location", snapshot⟩, progress := .drawn }
      queue := s.queue ++ [k] } := by
  have hhasRead : c.HasRead := by
    have hok := h.calls k c hc
    simp only [CallOk, hread] at hok
    exact hok
  obtain ⟨hsafe, -⟩ := h.safe.step hstep
  obtain ⟨hlock, hlog, hwaiting⟩ := h.safe.frame hstep
  have hlt : k < s.calls.length := (List.getElem?_eq_some_iff.mp hc).1
  -- The other calls stay, and this one was neither waiting nor delivering.
  have hother : ∀ {j : Nat} {b : IngestCall δ} {d : IngestCall δ}, s.calls[j]? = some b →
      b.progress ≠ .read → (s.calls.set k d)[j]? = some b := by
    intro j b d hb hprogress
    have hne : k ≠ j := by
      rintro rfl
      obtain rfl := Option.some.inj (hc.symm.trans hb)
      exact hprogress hread
    rw [List.getElem?_set_ne hne, hb]
  have hnotin : k ∉ s.queue := by
    intro hk
    obtain ⟨b, hb, hdrawn⟩ := h.of_mem_queue hk
    obtain rfl := Option.some.inj (hc.symm.trans hb)
    rw [hread] at hdrawn
    cases hdrawn
  refine ⟨hsafe, h.leftOut.step h.safe hstep, ?_, fun i j w hj hw => ?_, ?_, fun hsome => ?_,
    fun j b hb => ?_⟩
  · rw [hwaiting, List.length_append, List.length_append, h.length]
    rfl
  · rw [hwaiting] at hw
    dsimp only at hj
    rcases Nat.lt_or_ge i s.queue.length with hold | hnew
    · rw [List.getElem?_append_left hold] at hj
      rw [List.getElem?_append_left (h.length ▸ hold)] at hw
      obtain ⟨b, hb, hdrawn, hrest⟩ := h.queue i j w hj hw
      exact ⟨b, hother hb (by rw [hdrawn]; simp), hdrawn, hrest⟩
    · rw [List.getElem?_append_right hnew] at hj
      rw [List.getElem?_append_right (h.length ▸ hnew)] at hw
      obtain rfl := List.mem_singleton.mp (List.mem_of_getElem? hj)
      obtain rfl := List.mem_singleton.mp (List.mem_of_getElem? hw)
      exact ⟨_, List.getElem?_set_self hlt, rfl, rfl, rfl⟩
  · rw [List.nodup_append]
    refine ⟨h.nodup, List.nodup_singleton k, ?_⟩
    rintro j hj _ hk rfl
    exact hnotin (List.mem_singleton.mp hk ▸ hj)
  · rw [hlock] at hsome
    obtain ⟨j, b, hj, hb, hdelivering⟩ := h.holder hsome
    exact ⟨j, b, hj, hother hb (by rw [hdelivering]; simp), hdelivering⟩
  · dsimp only at hb
    rw [List.getElem?_set] at hb
    split at hb
    · cases hb
      exact ⟨⟨s.hub.hub.sequence + 1, "location", snapshot⟩, hhasRead, rfl, rfl, hlive⟩
    · exact (h.calls j b hb).hub h hstep (by simp)

theorem Inv.acquire {s : IngestState δ} {hub : HubState δ (LiveLocation δ)} {i : Nat}
    {order : List UInt64} (h : s.Inv) (hstep : s.hub.step (.acquire i order) = some hub) :
    Inv { s with
      hub
      calls := s.modifyCall s.queue[i]? fun c =>
        { c with
          index := s.hub.published.length
          audience := s.hub.hub.subscribers c.device
          progress := .delivering }
      queue := s.queue.eraseIdx i
      holder := s.queue[i]? } := by
  obtain ⟨hsafe, -⟩ := h.safe.step hstep
  have hleftOut := h.leftOut.step h.safe hstep
  obtain ⟨device, event, hnone, hwaiting, hperm, heq⟩ := h.safe.frame hstep
  have hi : i < s.queue.length := by
    rw [h.length]
    exact (List.getElem?_eq_some_iff.mp hwaiting).1
  have hk := List.getElem?_eq_getElem hi
  obtain ⟨c, hc, hdrawn, hdevice, hevent⟩ := h.queue i _ _ hk hwaiting
  have hpublished : c.Published event := by
    have hok := h.calls _ c hc
    simp only [CallOk, hdrawn] at hok
    obtain ⟨e, hread, he, hkind, hlive⟩ := hok
    obtain rfl : e = event := Option.some.inj (he.symm.trans hevent)
    exact ⟨hread, he, hkind, hlive⟩
  have hlock : hub.lock = some ⟨device, event, order⟩ := by rw [heq]
  rw [hk]
  refine ⟨hsafe, hleftOut, ?_, fun j l w hl hw => ?_, h.nodup.sublist (List.eraseIdx_sublist _ _),
    fun _ => ?_, fun l b hb => ?_⟩
  · rw [heq, List.length_eraseIdx, List.length_eraseIdx, h.length]
  · -- The calls that still wait are others.
    rw [heq] at hw
    dsimp only at hl hw
    rw [List.getElem?_eraseIdx] at hl hw
    obtain ⟨j', hne, hl, hw⟩ : ∃ j', j' ≠ i ∧ s.queue[j']? = some l ∧
        s.hub.waiting[j']? = some w := by
      split at hl
      · next hlt =>
        rw [if_pos hlt] at hw
        exact ⟨j, Nat.ne_of_lt hlt, hl, hw⟩
      · next hge =>
        rw [if_neg hge] at hw
        exact ⟨j + 1, by omega, hl, hw⟩
    obtain ⟨b, hb, hrest⟩ := h.queue j' l w hl hw
    have hlk : s.queue[i] ≠ l := by
      rintro rfl
      exact hne ((List.getElem?_inj hi h.nodup).mp (hk.trans hl.symm)).symm
    exact ⟨b, (List.getElem?_modify_ne _ _ hlk).trans hb, hrest⟩
  · refine ⟨_, _, rfl, (List.getElem?_modify_eq _ _ _).trans (congrArg _ hc), rfl⟩
  · have hb : (s.calls.modify s.queue[i] _)[l]? = some b := hb
    rw [List.getElem?_modify] at hb
    obtain ⟨b', hb', rfl⟩ := Option.map_eq_some_iff.mp hb
    split
    · next hlk =>
      subst hlk
      obtain rfl := Option.some.inj (hc.symm.trans hb')
      refine ⟨rfl, _, hlock, ⟨hdevice, hpublished⟩, ?_, fun sub hsub => ?_⟩
      · rw [heq, List.length_append]
        rfl
      · rw [hdevice] at hsub
        exact HubState.reaches_acquire h.safe hstep hlock hsub
    · have hok := (h.calls l b' hb').hub h hstep (by simp)
      cases hprogress : b'.progress with
      | stored | read | drawn | returned =>
        simp only [CallOk, hprogress] at hok ⊢
        exact hok
      | delivering =>
        -- The lock was free, so no other call is delivering.
        have hold := h.calls l b' hb'
        simp only [CallOk, hprogress] at hold
        obtain ⟨-, dl, hsome, -⟩ := hold
        rw [hnone] at hsome
        cases hsome

theorem Inv.release {s : IngestState δ} {hub : HubState δ (LiveLocation δ)} (h : s.Inv)
    (hstep : s.hub.step .release = some hub) :
    Inv { s with
      hub
      calls := s.modifyCall s.holder fun c => { c with leftAt := s.db, progress := .returned }
      holder := none } := by
  obtain ⟨hsafe, -⟩ := h.safe.step hstep
  have hleftOut := h.leftOut.step h.safe hstep
  obtain ⟨dl, hlock, hempty, heq⟩ := h.safe.frame hstep
  obtain ⟨k, c, hholder, hc, hdelivering⟩ := h.holder (by rw [hlock]; rfl)
  have hok := h.calls k c hc
  simp only [CallOk, hdelivering] at hok
  obtain ⟨-, dl', hlock', ⟨-, hpublished⟩, hindex, hreaches⟩ := hok
  obtain rfl := Option.some.inj (hlock.symm.trans hlock')
  rw [hholder]
  refine ⟨hsafe, hleftOut, by rw [heq]; exact h.length, fun i l w hl hw => ?_, h.nodup,
    fun hsome => ?_, fun l b hb => ?_⟩
  · rw [heq] at hw
    obtain ⟨b, hb, hdrawn, hrest⟩ := h.queue i l w hl hw
    have hkl : k ≠ l := by
      rintro rfl
      obtain rfl := Option.some.inj (hc.symm.trans hb)
      rw [hdelivering] at hdrawn
      cases hdrawn
    exact ⟨b, (List.getElem?_modify_ne _ _ hkl).trans hb, hdrawn, hrest⟩
  · rw [heq] at hsome
    cases hsome
  · have hb : (s.calls.modify k _)[l]? = some b := hb
    rw [List.getElem?_modify] at hb
    obtain ⟨b', hb', rfl⟩ := Option.map_eq_some_iff.mp hb
    split
    · next hkl =>
      subst hkl
      obtain rfl := Option.some.inj (hc.symm.trans hb')
      refine .inr (.inr ⟨_, hpublished, fun sub hsub => ?_⟩)
      rcases hreaches sub hsub with ⟨_, _, _, _, hid⟩ | hgiven
      · rw [hempty] at hid
        cases hid
      · rw [hindex]
        exact hgiven.step h.safe h.leftOut hstep
    · next hne =>
      have hold := h.calls l b' hb'
      cases hprogress : b'.progress with
      | stored | read | drawn =>
        simp only [CallOk, hprogress] at hold ⊢
        exact hold
      | delivering =>
        -- Only the call that held the lock was delivering.
        simp only [CallOk, hprogress] at hold
        exact absurd (Option.some.inj (hholder.symm.trans hold.1)) hne
      | returned =>
        simp only [CallOk, hprogress] at hold ⊢
        rcases hold with hbatch | hnone | ⟨e, hpublished, hgiven⟩
        · exact .inl hbatch
        · exact .inr (.inl hnone)
        · exact .inr (.inr ⟨e, hpublished, fun sub hsub =>
            (hgiven sub hsub).step h.safe h.leftOut hstep⟩)

/-! ## Runs -/

theorem Inv.step {s s' : IngestState δ} {a : IngestAction δ} (h : s.Inv)
    (hstep : s.step a = some s') : s'.Inv := by
  cases a with
  | ingest device item clock commit =>
    rw [IngestState.step] at hstep
    split at hstep
    · cases hstep
      exact h.changeCalls (fun _ _ hc _ => hc) fun _ _ hc => .inl hc
    · cases hstep
      exact h.addCall fun _ => ⟨rfl, rfl⟩
  | ingestBatch device items clock now commit =>
    rw [IngestState.step] at hstep
    split at hstep
    · cases hstep
      exact h.changeCalls (fun _ _ hc _ => hc) fun _ _ hc => .inl hc
    · cases hstep
      exact h.addCall fun _ => .inl ⟨rfl, rfl⟩
  | getLive call now answered =>
    simp only [IngestState.step, Option.bind_eq_bind, Option.bind_eq_some_iff] at hstep
    obtain ⟨c, hc, _, hguard, hstep⟩ := hstep
    have hstored : c.progress = .stored := (Option.guard_eq_some' _).mp hguard
    have hok := h.calls call c hc
    simp only [CallOk, hstored] at hok
    split at hstep
    · next snapshot hread =>
      cases hstep
      split at hread
      · exact h.setCall hc (by simp [hstored]) ⟨hok.1, hread.symm⟩
      · cases hread
    · cases hstep
      exact h.setCall hc (by simp [hstored]) (.inr (.inl hok))
  | publish call =>
    simp only [IngestState.step, Option.bind_eq_bind, Option.bind_eq_some_iff] at hstep
    obtain ⟨c, hc, _, hguard, snapshot, hlive, hub, hhub, hstep⟩ := hstep
    cases hstep
    exact h.publish hc ((Option.guard_eq_some' _).mp hguard) hlive hhub
  | hub a =>
    cases a with
    | draw device kind snapshot => cases hstep
    | acquire i order =>
      simp only [IngestState.step, Option.bind_eq_bind, Option.bind_eq_some_iff] at hstep
      obtain ⟨hub, hhub, hstep⟩ := hstep
      cases hstep
      exact h.acquire hhub
    | release =>
      simp only [IngestState.step, Option.bind_eq_bind, Option.bind_eq_some_iff] at hstep
      obtain ⟨hub, hhub, hstep⟩ := hstep
      cases hstep
      exact h.release hhub
    | nextID | offer | subscribe device | unsubscribe sub | receive sub =>
      simp only [IngestState.step, Option.bind_eq_bind, Option.bind_eq_some_iff] at hstep
      obtain ⟨hub, hhub, hstep⟩ := hstep
      cases hstep
      exact h.hubStep hhub (by simp) (by simp) (by simp)
  | other db =>
    cases hstep
    exact h.changeCalls (fun _ _ hc _ => hc) fun _ _ hc => .inl hc

theorem inv_new (db : Database δ) : (new db).Inv where
  safe := HubState.safe_new
  leftOut := fun sub v t hv => by cases hv
  length := rfl
  queue := fun i k w hk => by cases hk
  nodup := List.nodup_nil
  holder := fun h => by cases h
  calls := fun k c hc => by cases hc

end IngestState

/-- What a step does in the hub. -/
theorem ingest_hub {s s' : IngestState δ} {a : IngestAction δ} (hstep : s.step a = some s') :
    s'.hub = s.hub ∧ (∀ ha, a ≠ .hub ha) ∨ ∃ ha, s.hub.step ha = some s'.hub ∧
      (a = .hub ha ∨ (∀ ha', a ≠ .hub ha') ∧ ∃ d kind live, ha = .draw d kind live) := by
  cases a with
  | ingest | ingestBatch =>
    rw [IngestState.step] at hstep
    split at hstep
    · cases hstep
      exact .inl ⟨rfl, fun _ h => by cases h⟩
    · cases hstep
      exact .inl ⟨rfl, fun _ h => by cases h⟩
  | getLive call now answered =>
    simp only [IngestState.step, Option.bind_eq_bind, Option.bind_eq_some_iff] at hstep
    obtain ⟨d, hd, _, hguard, hstep⟩ := hstep
    split at hstep
    · cases hstep
      exact .inl ⟨rfl, fun _ h => by cases h⟩
    · cases hstep
      exact .inl ⟨rfl, fun _ h => by cases h⟩
  | publish call =>
    simp only [IngestState.step, Option.bind_eq_bind, Option.bind_eq_some_iff] at hstep
    obtain ⟨d, hd, _, hguard, snapshot, hlive, hub, hhub, hstep⟩ := hstep
    cases hstep
    exact .inr ⟨_, hhub, .inr ⟨fun _ h => (by cases h), _, _, _, rfl⟩⟩
  | hub ha =>
    cases ha with
    | draw => cases hstep
    | acquire | release | nextID | offer | subscribe | unsubscribe | receive =>
      simp only [IngestState.step, Option.bind_eq_bind, Option.bind_eq_some_iff] at hstep
      obtain ⟨hub, hhub, hstep⟩ := hstep
      cases hstep
      exact .inr ⟨_, hhub, .inl rfl⟩
  | other db =>
    cases hstep
    exact .inl ⟨rfl, fun _ h => by cases h⟩

end OpenGps.Backend
