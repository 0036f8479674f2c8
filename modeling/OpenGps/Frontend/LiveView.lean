import Mathlib.Data.List.Chain
import OpenGps.Backend.LiveFeed
import OpenGps.Frontend.LiveLocation

/-!
# The live view of a device

One client of the stream next to the calls of `Ingest`. The client subscribes, starts from a live
state that its handler reads, and folds what it is sent with `reduceLiveLocation`: the events of the
hub in the order of their delivery, and the states that the handler reads itself for its first event
and for each presence event.

The reducer repairs the order of the locations only. The client shows the latest read as long as
what it folds comes in the order in which it was read.
-/

namespace OpenGps.Frontend

open OpenGps.Backend OpenGps.Lib

variable {δ : Type}

/-! ## The wire -/

section
variable (text : Time → String)

def toPoint (location : Location δ) : LocationPoint δ :=
  { location.toTelemetry with
    deviceID := location.deviceID
    recordedAt := text location.recordedAt }

/-- `LiveLocationFromDomain` and its JSON; `text` is how the process writes an instant. -/
def toSnapshot (live : LiveLocation δ) : LiveLocationSnapshot δ where
  deviceID := live.deviceID
  location := live.location.map (toPoint text)
  presence := ⟨live.presence.state, live.presence.lastContactAt.map text,
    live.presence.expiresAt.map text⟩
  serverTime := text live.serverTime

/-- The text of the earlier location is not greater than that of the later one, which is there. -/
def Follows (earlier later : LiveLocation δ) : Prop :=
  ∀ l ∈ earlier.location, ∃ l' ∈ later.location, ¬ text l'.recordedAt < text l.recordedAt

instance (earlier later : LiveLocation δ) : Decidable (Follows text earlier later) :=
  inferInstanceAs (Decidable (∀ l ∈ earlier.location, ∃ l' ∈ later.location, _))

end

/-! ## The system -/

/-- The last three fields are history: the live states read by the calls of `Ingest` for the device
and by the client's handler (`none`), in order; the calls among them that have not published yet; and
what the client has folded. -/
structure LiveView (δ : Type) where
  server : IngestState δ
  sub : Option Nat
  view : LiveLocationState δ
  reads : List (Option Nat × LiveLocation δ)
  pending : List Nat
  folded : List (LiveLocation δ)

/-- `read` is a read of the client's own handler, `deliver` the next event of its channel. -/
inductive LiveViewAction (δ : Type) where
  | server (a : IngestAction δ)
  | subscribe
  | read (now : Time)
  | deliver

namespace LiveView

variable [DecidableEq δ]

def new (db : Database δ) : LiveView δ := ⟨.new db, none, EMPTY_LIVE_LOCATION_STATE, [], [], []⟩

/-! ### What the page does

The page takes one subscription and folds what arrives on it, and what its own reads answer. Whatever
else the server does is done for other clients. -/

/-- The channel and the closure of the client belong to its handler. -/
def foreign (s : LiveView δ) : IngestAction δ → Bool
  | .hub (.unsubscribe sub) | .hub (.receive sub) => s.sub ≠ some sub
  | _ => true

variable (device : δ) (text : Time → String) (localeCompare : String → String → Ordering)

/-- What a read of a call of `Ingest` for the device returns. -/
def readOf (s : LiveView δ) : IngestAction δ → Option (Nat × LiveLocation δ)
  | .getLive call now answered => do
    let c ← s.server.calls[call]?
    guard (c.device = device ∧ answered)
    let live ← getLive s.server.db c.device now
    return (call, live)
  | _ => none

/-- The call that publishes. -/
def publisherOf (s : LiveView δ) : IngestAction δ → Option Nat
  | .hub (.acquire i _) => s.server.queue[i]?
  | _ => none

def fold (s : LiveView δ) (live : LiveLocation δ) : LiveView δ :=
  { s with
    view := reduceLiveLocation localeCompare s.view (toSnapshot text live) LIVE_ROUTE_MAX_POINTS
    folded := s.folded ++ [live] }

def step (s : LiveView δ) : LiveViewAction δ → Option (LiveView δ)
  | .server a => do
    guard (s.foreign a)
    let server ← s.server.step a
    return { s with
      server
      reads := s.reads ++ ((s.readOf device a).map fun r => (some r.1, r.2)).toList
      pending := match s.publisherOf a with
        | some k => s.pending.erase k
        | none => s.pending ++ ((s.readOf device a).map (·.1)).toList }
  | .subscribe => do
    guard (s.sub = none)
    let server ← s.server.step (.hub (.subscribe device))
    return { s with server, sub := some s.server.hub.hub.heap.length }
  | .read now => do
    -- The snapshot is read after the subscription: what is published in between is not missed.
    guard s.sub.isSome
    let live ← getLive s.server.db device now
    return { s.fold text localeCompare live with reads := s.reads ++ [(none, live)] }
  | .deliver => do
    let sub ← s.sub
    guard (s.folded ≠ [])
    let server ← s.server.step (.hub (.receive sub))
    match ← s.server.hub.hub.receive sub with
    | (.value event, _) => return { s.fold text localeCompare event.snapshot with server }
    | (.closed, _) => none

/-! ## What is on its way -/

/-- The events published for the client since it subscribed that it has not received. -/
def onItsWay (s : LiveView δ) : List (LiveEvent (LiveLocation δ)) :=
  match s.sub.bind fun sub => s.server.hub.traces[sub]? with
  | some t => (eventsOf device (s.server.hub.published.drop t.joined)).drop t.received.length
  | none => []

def pendingReads (s : LiveView δ) : List (LiveLocation δ) :=
  s.pending.filterMap fun k => s.server.calls[k]?.bind (·.live)

/-- What the client is still to be sent, in the order in which it should come. -/
def coming (s : LiveView δ) : List (LiveLocation δ) :=
  (s.onItsWay device).map (·.snapshot) ++ s.pendingReads

/-- The client has subscribed and the hub has not evicted it. -/
def Connected (s : LiveView δ) : Prop := ∃ sub ∈ s.sub, s.server.hub.hub.registered sub = true

def Live (s : LiveView δ) : Prop := s.folded ≠ [] ∧ s.Connected

/-- Every call that has read has published, and every event has been received. -/
def Delivered (s : LiveView δ) : Prop :=
  s.onItsWay device = [] ∧ ∀ c ∈ s.server.calls, c.device = device →
    c.progress ≠ .read ∧ c.progress ≠ .drawn

/-- While the client follows the device: the calls publish in the order of their reads, the handler
reads when nothing that was read before is still to come, and each read finds a location that is not
older, by its text, than the one of the read before. -/
def InOrder (s : LiveView δ) : LiveViewAction δ → Prop
  | .server a => s.Live →
    (∀ k ∈ s.publisherOf a, (∃ c ∈ s.server.calls[k]?, c.device = device) →
      s.pending.head? = some k) ∧
      ∀ r ∈ s.readOf device a, ∀ last ∈ s.reads.getLast?, Follows text last.2 r.2
  | .read now => s.Connected → s.coming device = [] ∧ (s.folded ≠ [] →
    ∀ live ∈ getLive s.server.db device now, ∀ last ∈ s.reads.getLast?, Follows text last.2 live)
  | .subscribe | .deliver => True

/-! ## The invariant -/

/-- The client shows the last of what it has folded, which was read in that order, and what comes was
read after it. -/
def Shows (s : LiveView δ) : Prop :=
  ∃ before last, s.view.snapshot = some (toSnapshot text last) ∧ s.folded.getLast? = some last ∧
    s.reads.map (·.2) = before ++ last :: s.coming device ∧
    s.folded.Sublist (before ++ [last]) ∧ (last :: s.coming device).IsChain (Follows text) ∧
    ∀ r ∈ last :: s.coming device, r.deviceID = device

/-- A call that has read and not published. -/
def Waiting (s : LiveView δ) (k : Nat) : Prop :=
  ∃ c, s.server.calls[k]? = some c ∧ c.device = device ∧ (c.progress = .read ∨ c.progress = .drawn) ∧
    c.live.isSome

structure Inv (s : LiveView δ) : Prop where
  server : s.server.Inv
  pending : ∀ k ∈ s.pending, s.Waiting device k
  nodup : s.pending.Nodup
  sub : ∀ sub ∈ s.sub, ∃ v t, s.server.hub.hub.view sub = some v ∧
    s.server.hub.traces[sub]? = some t ∧ v.1.device = device ∧ (v.2 = true → s.server.hub.Segment v t)
  empty : s.folded = [] → s.view = EMPTY_LIVE_LOCATION_STATE
  started : s.folded ≠ [] → s.sub.isSome
  shows : s.Live → s.Shows device text

/-! ## The reducer on reads in order -/

section
variable {text : Time → String} {last live : LiveLocation δ}

omit [DecidableEq δ] in
theorem newest_follows (h : Follows text last live) :
    newest (last.location.map (toPoint text)) (live.location.map (toPoint text)) =
      live.location.map (toPoint text) := by
  cases hlive : live.location with
  | some l' =>
    cases hlast : last.location with
    | none => rfl
    | some l =>
      obtain ⟨l'', hl'', hlt⟩ := h l hlast
      obtain rfl := Option.some.inj (hlive.symm.trans hl'')
      exact if_neg hlt
  | none =>
    cases hlast : last.location with
    | none => rfl
    | some l =>
      obtain ⟨l', hl', -⟩ := h l hlast
      cases hlive.symm.trans hl'

theorem reduce_first (localeCompare : String → String → Ordering) :
    (reduceLiveLocation localeCompare EMPTY_LIVE_LOCATION_STATE (toSnapshot text live)
      LIVE_ROUTE_MAX_POINTS).snapshot = some (toSnapshot text live) := by
  rw [reduceLiveLocation_of_forall _ _ fun snapshot hs => by cases hs]
  exact congrArg (fun l => some { toSnapshot text live with location := l }) (newest_none _)

/-- The client shows what it folds when this follows what it shows. -/
theorem reduce_follows (localeCompare : String → String → Ordering) {view : LiveLocationState δ}
    (hview : view.snapshot = some (toSnapshot text last)) (hdevice : last.deviceID = live.deviceID)
    (h : Follows text last live) :
    (reduceLiveLocation localeCompare view (toSnapshot text live) LIVE_ROUTE_MAX_POINTS).snapshot =
      some (toSnapshot text live) := by
  have hsame : ∀ snapshot ∈ view.snapshot, snapshot.deviceID = (toSnapshot text live).deviceID := by
    intro snapshot hs
    obtain rfl := Option.some.inj (hview.symm.trans hs)
    exact hdevice
  rw [reduceLiveLocation_of_forall _ _ hsame, hview]
  exact congrArg (fun l => some { toSnapshot text live with location := l }) (newest_follows h)

end

end LiveView

/-! ## Steps of the server -/

section
variable [DecidableEq δ]

/-- A call that has read keeps its live state until it publishes. -/
theorem ingest_waiting {s s' : IngestState δ} {a : IngestAction δ} (h : s.Inv)
    (hstep : s.step a = some s') {k : Nat} {c : IngestCall δ} (hc : s.calls[k]? = some c)
    (hwaiting : c.progress = .read ∨ c.progress = .drawn)
    (hpublishes : ∀ i order, a = .hub (.acquire i order) → s.queue[i]? ≠ some k) :
    ∃ c', s'.calls[k]? = some c' ∧ c'.device = c.device ∧ c'.live = c.live ∧
      (c'.progress = .read ∨ c'.progress = .drawn) := by
  have happend : ∀ new : IngestCall δ, (s.calls ++ [new])[k]? = some c := by
    intro new
    rw [List.getElem?_append_left (List.getElem?_eq_some_iff.mp hc).1, hc]
  cases a with
  | ingest device item clock commit =>
    rw [IngestState.step] at hstep
    split at hstep
    · cases hstep
      exact ⟨c, hc, rfl, rfl, hwaiting⟩
    · cases hstep
      exact ⟨c, happend _, rfl, rfl, hwaiting⟩
  | ingestBatch device items clock now commit =>
    rw [IngestState.step] at hstep
    split at hstep
    · cases hstep
      exact ⟨c, hc, rfl, rfl, hwaiting⟩
    · cases hstep
      exact ⟨c, happend _, rfl, rfl, hwaiting⟩
  | getLive call now answered =>
    simp only [IngestState.step, Option.bind_eq_bind, Option.bind_eq_some_iff] at hstep
    obtain ⟨d, hd, _, hguard, hstep⟩ := hstep
    -- The call that reads now has not read before.
    have hne : call ≠ k := by
      rintro rfl
      obtain rfl := Option.some.inj (hd.symm.trans hc)
      rw [(Option.guard_eq_some' _).mp hguard] at hwaiting
      rcases hwaiting with hread | hdrawn
      · cases hread
      · cases hdrawn
    split at hstep
    · cases hstep
      exact ⟨c, (List.getElem?_set_ne hne).trans hc, rfl, rfl, hwaiting⟩
    · cases hstep
      exact ⟨c, (List.getElem?_set_ne hne).trans hc, rfl, rfl, hwaiting⟩
  | publish call =>
    simp only [IngestState.step, Option.bind_eq_bind, Option.bind_eq_some_iff] at hstep
    obtain ⟨d, hd, _, hguard, snapshot, hlive, hub, hhub, hstep⟩ := hstep
    cases hstep
    by_cases hcall : call = k
    · subst hcall
      obtain rfl := Option.some.inj (hd.symm.trans hc)
      exact ⟨_, List.getElem?_set_self (List.getElem?_eq_some_iff.mp hc).1, rfl, rfl, .inr rfl⟩
    · exact ⟨c, (List.getElem?_set_ne hcall).trans hc, rfl, rfl, hwaiting⟩
  | hub a =>
    cases a with
    | draw device kind snapshot => cases hstep
    | acquire i order =>
      simp only [IngestState.step, Option.bind_eq_bind, Option.bind_eq_some_iff] at hstep
      obtain ⟨hub, hhub, hstep⟩ := hstep
      cases hstep
      refine ⟨c, ?_, rfl, rfl, hwaiting⟩
      cases hi : s.queue[i]? with
      | none => exact hc
      | some j =>
        have hne : j ≠ k := by
          rintro rfl
          exact hpublishes i order rfl hi
        exact (List.getElem?_modify_ne _ _ hne).trans hc
    | release =>
      simp only [IngestState.step, Option.bind_eq_bind, Option.bind_eq_some_iff] at hstep
      obtain ⟨hub, hhub, hstep⟩ := hstep
      obtain ⟨dl, hlock, -⟩ := h.safe.frame hhub
      cases hstep
      obtain ⟨j, d, hholder, hd, hdelivering⟩ := h.holder (by rw [hlock]; rfl)
      refine ⟨c, ?_, rfl, rfl, hwaiting⟩
      -- The call that holds the lock has been published.
      have hne : j ≠ k := by
        rintro rfl
        obtain rfl := Option.some.inj (hd.symm.trans hc)
        rw [hdelivering] at hwaiting
        rcases hwaiting with hread | hdrawn
        · cases hread
        · cases hdrawn
      show (s.modifyCall s.holder _)[k]? = _
      rw [hholder]
      exact (List.getElem?_modify_ne _ _ hne).trans hc
    | nextID | offer | subscribe device | unsubscribe sub | receive sub =>
      simp only [IngestState.step, Option.bind_eq_bind, Option.bind_eq_some_iff] at hstep
      obtain ⟨hub, hhub, hstep⟩ := hstep
      cases hstep
      exact ⟨c, hc, rfl, rfl, hwaiting⟩
  | other db =>
    cases hstep
    exact ⟨c, hc, rfl, rfl, hwaiting⟩

/-! ### The subscription and its trace -/

/-- A subscription across a step that does not receive for it. -/
theorem hub_subscription {σ : Type} {s s' : HubState δ σ} {ha : HubAction δ σ} (h : s.Safe)
    (hstep : s.step ha = some s') {sub : Nat} {v : Subscription δ σ × Bool} {t : Trace σ}
    (hv : s.hub.view sub = some v) (ht : s.traces[sub]? = some t) (hreceive : ha ≠ .receive sub) :
    ∃ v' t', s'.hub.view sub = some v' ∧ s'.traces[sub]? = some t' ∧
      v'.1.device = v.1.device ∧ t'.joined = t.joined ∧ t'.received = t.received ∧
      (v'.2 = true → v.2 = true ∧ (s.Segment v t → s'.Segment v' t')) := by
  obtain ⟨-, hall, -⟩ := h.step hstep
  obtain ⟨v', t', hv', ht', hkept⟩ := hall.kept sub v t hv ht
  refine ⟨v', t', hv', ht', hkept.device, hkept.joined, hkept.received hreceive, fun hreg =>
    ⟨hkept.stays hreg, hkept.segment fun htaken => ?_⟩⟩
  -- A subscription whose key is taken over is no longer in the map.
  have hsubscribe := htaken.2.1
  rw [HubState.step, h.panicked, if_neg (by simp), hsubscribe] at hstep
  obtain ⟨-, -, -, htakenOver, -⟩ := h.subscribe hstep
  obtain ⟨w, hw, hfalse⟩ := htakenOver sub v hv ⟨htaken.1, rfl, htaken.2.2⟩
  obtain rfl := Option.some.inj (hv'.symm.trans hw)
  rw [hfalse] at hreg
  cases hreg

/-- What a subscription in the map has received is the beginning of what it is to be sent. -/
theorem segment_prefix {σ : Type} {s : HubState δ σ} {v : Subscription δ σ × Bool} {t : Trace σ}
    (h : s.Segment v t) (hreg : v.2 = true) : t.joined ≤ s.published.length ∧
      t.received ++ v.1.ch.buffer <+: eventsOf v.1.device (s.published.drop t.joined) := by
  have hleft := h.active.mp hreg
  have hjoined := h.joined
  have hsent := h.sent
  rw [hleft, Option.getD_none] at hjoined hsent
  refine ⟨hjoined.trans (s.seen_le v.1), ?_⟩
  rw [hsent]
  have htake : (s.published.take (s.seen v.1)).drop t.joined <+: s.published.drop t.joined := by
    rw [List.drop_take]
    exact List.take_prefix _ _
  exact (htake.filter _).map _

theorem eventsOf_drop_append {σ : Type} (device : δ) {log : List (δ × LiveEvent σ)}
    (later : List (δ × LiveEvent σ)) {joined received : Nat} (hjoined : joined ≤ log.length)
    (hreceived : received ≤ (eventsOf device (log.drop joined)).length) :
    (eventsOf device ((log ++ later).drop joined)).drop received =
      (eventsOf device (log.drop joined)).drop received ++ eventsOf device later := by
  rw [List.drop_append_of_le_length hjoined, eventsOf_append,
    List.drop_append_of_le_length hreceived]

namespace LiveView

variable {device : δ} {text : Time → String}

/-! ## Steps of the page

A step either shows one more read, or leaves the view and changes what is on its way. -/

theorem onItsWay_eq {s : LiveView δ} {sub : Nat} {t : Trace (LiveLocation δ)}
    (hsub : s.sub = some sub) (ht : s.server.hub.traces[sub]? = some t) :
    s.onItsWay device =
      (eventsOf device (s.server.hub.published.drop t.joined)).drop t.received.length := by
  simp only [onItsWay, hsub, Option.bind_some, ht]

/-- The client's subscription after a step of the server: the events published go to the end of what
is on its way. -/
theorem Inv.subscription {s : LiveView δ} {server : IngestState δ} {a : IngestAction δ} {sub : Nat}
    (h : s.Inv device text) (hstep : s.server.step a = some server) (hsub : s.sub = some sub)
    (hreceive : a ≠ .hub (.receive sub)) :
    ∃ v t, server.hub.hub.view sub = some v ∧ server.hub.traces[sub]? = some t ∧
      v.1.device = device ∧ (v.2 = true → server.hub.Segment v t ∧ s.Connected ∧
        ∀ later, server.hub.published = s.server.hub.published ++ later →
          (eventsOf device (server.hub.published.drop t.joined)).drop t.received.length =
            s.onItsWay device ++ eventsOf device later) := by
  obtain ⟨v, t, hv, ht, hdevice, hsegment⟩ := h.sub sub hsub
  have hconnected : v.2 = true → s.Connected :=
    fun hreg => ⟨sub, hsub, (Hub.view_eq_some.mp hv).2.trans hreg⟩
  have hway : v.2 = true → ∀ later,
      (eventsOf device ((s.server.hub.published ++ later).drop t.joined)).drop t.received.length =
        s.onItsWay device ++ eventsOf device later := by
    intro hreg later
    obtain ⟨hjoined, hprefix⟩ := segment_prefix (hsegment hreg) hreg
    have hlength := hprefix.length_le
    rw [hdevice, List.length_append] at hlength
    rw [onItsWay_eq hsub ht]
    exact eventsOf_drop_append device later hjoined (by omega)
  rcases ingest_hub hstep with ⟨hsame, -⟩ | ⟨ha, hhub, haction⟩
  · refine ⟨v, t, hsame ▸ hv, hsame ▸ ht, hdevice, fun hreg =>
      ⟨hsame ▸ hsegment hreg, hconnected hreg, fun later hlater => ?_⟩⟩
    rw [hlater]
    exact hway hreg later
  · have hne : ha ≠ .receive sub := by
      rintro rfl
      rcases haction with rfl | ⟨-, _, _, _, hdraw⟩
      · exact hreceive rfl
      · cases hdraw
    obtain ⟨v', t', hv', ht', hdevice', hjoined, hreceived, hkept⟩ :=
      hub_subscription h.server.safe hhub hv ht hne
    refine ⟨v', t', hv', ht', hdevice'.trans hdevice, fun hreg => ?_⟩
    obtain ⟨hreg, hsegment'⟩ := hkept hreg
    refine ⟨hsegment' (hsegment hreg), hconnected hreg, fun later hlater => ?_⟩
    rw [hlater, hjoined, hreceived]
    exact hway hreg later

/-! ### The view and the reads it shows -/

/-- The client shows the same, and what comes is the same. -/
theorem Shows.same {s s' : LiveView δ} (h : s.Shows device text) (hview : s'.view = s.view)
    (hfolded : s'.folded = s.folded) (hreads : s'.reads = s.reads)
    (hcoming : s'.coming device = s.coming device) : s'.Shows device text := by
  obtain ⟨before, last, hsnapshot, hlast, hall, hsublist, hchain, hdevice⟩ := h
  rw [← hcoming] at hall hchain hdevice
  exact ⟨before, last, hview ▸ hsnapshot, hfolded ▸ hlast, hreads ▸ hall, hfolded ▸ hsublist,
    hchain, hdevice⟩

/-- A new read goes to the end of what comes. -/
theorem Shows.extend {s s' : LiveView δ} {r : LiveLocation δ} (h : s.Shows device text)
    (hview : s'.view = s.view) (hfolded : s'.folded = s.folded)
    (hreads : s'.reads.map (·.2) = s.reads.map (·.2) ++ [r])
    (hcoming : s'.coming device = s.coming device ++ [r]) (hr : r.deviceID = device)
    (hfollows : ∀ last ∈ s.reads.getLast?, Follows text last.2 r) : s'.Shows device text := by
  obtain ⟨before, last, hsnapshot, hlast, hall, hsublist, hchain, hdevice⟩ := h
  refine ⟨before, last, hview ▸ hsnapshot, hfolded ▸ hlast, ?_, hfolded ▸ hsublist, ?_, ?_⟩
  · rw [hreads, hall, hcoming, List.append_assoc, List.cons_append]
  · rw [hcoming, ← List.cons_append]
    refine hchain.append (.singleton r) fun x hx y hy => ?_
    obtain rfl := Option.some.inj hy
    have hread : (s.reads.map (·.2)).getLast? = some x := by
      rw [hall, List.getLast?_append, hx, Option.some_or]
    rw [List.getLast?_map, Option.map_eq_some_iff] at hread
    obtain ⟨z, hz, rfl⟩ := hread
    exact hfollows z hz
  · intro x hx
    rw [hcoming, ← List.cons_append, List.mem_append, List.mem_singleton] at hx
    rcases hx with hold | rfl
    · exact hdevice x hold
    · exact hr

theorem getLive_deviceID {db : Database δ} {d : δ} {now : Time} {live : LiveLocation δ}
    (h : getLive db d now = some live) : live.deviceID = d := by
  rw [getLive_eq, Option.map_eq_some_iff] at h
  obtain ⟨last, -, rfl⟩ := h
  rfl

/-- A read of a call for the device. -/
theorem readOf_eq_some {s : LiveView δ} {server : IngestState δ} {a : IngestAction δ} {call : Nat}
    {live : LiveLocation δ} (hstep : s.server.step a = some server)
    (h : s.readOf device a = some (call, live)) :
    (∃ c, s.server.calls[call]? = some c ∧ c.progress = .stored) ∧
      live.deviceID = device ∧ ∃ c, server.calls[call]? = some c ∧ c.device = device ∧
        c.progress = .read ∧ c.live = some live := by
  cases a with
  | getLive k now answered =>
    simp only [readOf, Option.bind_eq_bind, Option.bind_eq_some_iff] at h
    obtain ⟨c, hc, _, hguard, live', hlive, h⟩ := h
    cases h
    obtain ⟨hdevice, hanswered⟩ := (Option.guard_eq_some' _).mp hguard
    simp only [IngestState.step, Option.bind_eq_bind, Option.bind_eq_some_iff] at hstep
    obtain ⟨d, hd, _, hstored, hstep⟩ := hstep
    obtain rfl := Option.some.inj (hc.symm.trans hd)
    rw [if_pos hanswered, hlive] at hstep
    cases hstep
    exact ⟨⟨c, hc, (Option.guard_eq_some' _).mp hstored⟩, (getLive_deviceID hlive).trans hdevice, _,
      List.getElem?_set_self (List.getElem?_eq_some_iff.mp hc).1, hdevice, rfl, rfl⟩
  | ingest | ingestBatch | publish | hub | other => cases h

theorem Waiting.kept {s : LiveView δ} (s' : LiveView δ) {a : IngestAction δ} {k : Nat}
    (h : s.Inv device text) (hstep : s.server.step a = some s'.server) (hk : s.Waiting device k)
    (hpublishes : s.publisherOf a ≠ some k) : s'.Waiting device k ∧
      s'.server.calls[k]?.bind (·.live) = s.server.calls[k]?.bind (·.live) := by
  obtain ⟨c, hc, hdevice, hwaiting, hlive⟩ := hk
  obtain ⟨c', hc', hdevice', hlive', hwaiting'⟩ :=
    ingest_waiting h.server hstep hc hwaiting fun i order ha hi => hpublishes (by rw [ha]; exact hi)
  refine ⟨⟨c', hc', hdevice'.trans hdevice, hwaiting', hlive' ▸ hlive⟩, ?_⟩
  rw [hc, hc', Option.bind_some, Option.bind_some, hlive']

/-! ### Publishers

A publish that the hub takes up is on its way to the page from then on, behind all earlier ones. -/

/-- A publish: the event goes from the reads that are pending to what is on its way. -/
theorem Inv.acquire {s : LiveView δ} {server : IngestState δ} {i : Nat} {order : List UInt64}
    {k : Nat} (h : s.Inv device text)
    (hstep : s.server.step (.hub (.acquire i order)) = some server)
    (hk : s.server.queue[i]? = some k)
    (hguard : s.InOrder device text (.server (.hub (.acquire i order)))) :
    Inv device text { s with server, pending := s.pending.erase k } := by
  have hne : ∀ sub, (.hub (.acquire i order) : IngestAction δ) ≠ .hub (.receive sub) := by simp
  have hstill : ∀ j ∈ s.pending.erase k, j ∈ s.pending ∧ s.publisherOf (.hub (.acquire i order)) ≠
      some j := by
    intro j hj
    obtain ⟨hjk, hj⟩ := h.nodup.mem_erase_iff.mp hj
    refine ⟨hj, fun heq => hjk ?_⟩
    exact (Option.some.inj (hk.symm.trans heq)).symm
  set s' : LiveView δ := { s with server, pending := s.pending.erase k } with hs'
  refine ⟨h.server.step hstep, fun j hj => ?_, h.nodup.erase k, fun sub hsub => ?_, h.empty,
    h.started, fun hlive => ?_⟩
  · obtain ⟨hj, hother⟩ := hstill j hj
    exact ((h.pending j hj).kept s' h hstep hother).1
  · obtain ⟨v, t, hv, ht, hdevice, hrest⟩ := h.subscription hstep hsub (hne sub)
    exact ⟨v, t, hv, ht, hdevice, fun hreg => (hrest hreg).1⟩
  · obtain ⟨hfolded, sub, hsub, hreg⟩ := hlive
    obtain ⟨v, t, hv, ht, -, hrest⟩ := h.subscription hstep hsub (hne sub)
    obtain ⟨-, hconnected, hway⟩ := hrest ((Hub.view_eq_some.mp hv).2.symm.trans hreg)
    have hshows := h.shows ⟨hfolded, hconnected⟩
    obtain ⟨hub, hhub, heq⟩ : ∃ hub, s.server.hub.step (.acquire i order) = some hub ∧
        server.hub = hub := by
      simp only [IngestState.step, Option.bind_eq_bind, Option.bind_eq_some_iff] at hstep
      obtain ⟨hub, hhub, hstep⟩ := hstep
      cases hstep
      exact ⟨hub, hhub, rfl⟩
    obtain ⟨d, e, -, hwaiting, -, hpublished⟩ := h.server.safe.frame hhub
    obtain ⟨c, hc, hdrawn, hdevice, hevent⟩ := h.server.queue i k _ hk hwaiting
    have hlive : c.live = some e.snapshot := by
      have hok := h.server.calls k c hc
      simp only [IngestState.CallOk, hdrawn] at hok
      obtain ⟨e', -, he', -, hlive⟩ := hok
      obtain rfl := Option.some.inj (he'.symm.trans hevent)
      exact hlive
    have hway' : s'.onItsWay device = s.onItsWay device ++ eventsOf device [(d, e)] :=
      (onItsWay_eq hsub ht).trans (hway [(d, e)] (by rw [heq, hpublished]))
    have hreads : s'.pendingReads =
        (s.pending.erase k).filterMap fun j => s.server.calls[j]?.bind (·.live) := by
      refine List.filterMap_congr fun j hj => ?_
      obtain ⟨hj, hother⟩ := hstill j hj
      exact ((h.pending j hj).kept s' h hstep hother).2
    refine hshows.same rfl rfl rfl ?_
    rw [coming, hway', hreads, coming, pendingReads]
    by_cases hd : d = device
    · -- The guard says that the call is the first that is pending.
      have hhead := (hguard ⟨hfolded, hconnected⟩).1 k hk ⟨c, hc, hdevice.trans hd⟩
      obtain ⟨rest, hpending⟩ := List.head?_eq_some_iff.mp hhead
      rw [hd, eventsOf_self, hpending, List.erase_cons_head, List.filterMap_cons, hc,
        Option.bind_some, hlive]
      simp
    · have hnot : k ∉ s.pending := by
        intro hmem
        obtain ⟨c', hc', hdevice', -⟩ := h.pending k hmem
        obtain rfl := Option.some.inj (hc.symm.trans hc')
        exact hd (hdevice.symm.trans hdevice')
      rw [eventsOf_other hd, List.append_nil, List.erase_of_not_mem hnot]

/-- The log grows by the publishes only. -/
theorem published_of_not_publisher {s : LiveView δ} {server : IngestState δ} {a : IngestAction δ}
    (h : s.Inv device text) (hstep : s.server.step a = some server)
    (hpublisher : s.publisherOf a = none) :
    server.hub.published = s.server.hub.published := by
  rcases ingest_hub hstep with ⟨hsame, -⟩ | ⟨ha, hhub, haction⟩
  · rw [hsame]
  · have hframe := h.server.safe.frame hhub
    refine hframe.published_eq fun i order hacquire => ?_
    subst hacquire
    obtain ⟨d, e, -, hwaiting, -⟩ := hframe
    rcases haction with rfl | ⟨-, _, _, _, hdraw⟩
    · have hlt := (List.getElem?_eq_some_iff.mp hwaiting).1
      rw [← h.server.length] at hlt
      rw [publisherOf, List.getElem?_eq_getElem hlt] at hpublisher
      cases hpublisher
    · cases hdraw

/-- A step of the server that publishes nothing: a read for the device is pending from then on. -/
theorem Inv.observe {s : LiveView δ} {server : IngestState δ} {a : IngestAction δ}
    (h : s.Inv device text) (hstep : s.server.step a = some server)
    (hforeign : ∀ sub ∈ s.sub, a ≠ .hub (.receive sub)) (hpublisher : s.publisherOf a = none)
    (hguard : s.InOrder device text (.server a)) :
    Inv device text { s with
      server
      reads := s.reads ++ ((s.readOf device a).map fun r => (some r.1, r.2)).toList
      pending := s.pending ++ ((s.readOf device a).map (·.1)).toList } := by
  set s' : LiveView δ := { s with
    server
    reads := s.reads ++ ((s.readOf device a).map fun r => (some r.1, r.2)).toList
    pending := s.pending ++ ((s.readOf device a).map (·.1)).toList } with hs'
  have hother : ∀ j, s.publisherOf a ≠ some j := by
    intro j
    rw [hpublisher]
    simp
  have hkept : ∀ j ∈ s.pending, s'.Waiting device j ∧
      s'.server.calls[j]?.bind (·.live) = s.server.calls[j]?.bind (·.live) :=
    fun j hj => (h.pending j hj).kept s' h hstep (hother j)
  have hpublished := published_of_not_publisher h hstep hpublisher
  have hnew : ∀ call live, s.readOf device a = some (call, live) → call ∉ s.pending := by
    intro call live hread hmem
    obtain ⟨⟨c, hc, hstored⟩, -⟩ := readOf_eq_some hstep hread
    obtain ⟨c', hc', -, hwaiting, -⟩ := h.pending call hmem
    obtain rfl := Option.some.inj (hc.symm.trans hc')
    rw [hstored] at hwaiting
    rcases hwaiting with hread | hdrawn
    · cases hread
    · cases hdrawn
  refine ⟨h.server.step hstep, fun j hj => ?_, ?_, fun sub hsub => ?_, h.empty, h.started,
    fun hlive => ?_⟩
  · rcases List.mem_append.mp hj with hold | hnew
    · exact (hkept j hold).1
    · obtain ⟨⟨call, live⟩, hread, rfl⟩ := Option.map_eq_some_iff.mp (Option.mem_toList.mp hnew)
      obtain ⟨-, -, c, hc, hdevice, hprogress, hlive⟩ := readOf_eq_some hstep hread
      exact ⟨c, hc, hdevice, .inl hprogress, by rw [hlive]; rfl⟩
  · cases hread : s.readOf device a with
    | none => simpa [hs', hread] using h.nodup
    | some r =>
      have hnot := hnew r.1 r.2 hread
      simp only [hs', hread, Option.map_some, Option.toList_some]
      exact List.nodup_append.mpr ⟨h.nodup, List.nodup_singleton _, fun x hx y hy heq =>
        hnot (List.mem_singleton.mp hy ▸ heq ▸ hx)⟩
  · obtain ⟨v, t, hv, ht, hdevice, hrest⟩ := h.subscription hstep hsub (hforeign sub hsub)
    exact ⟨v, t, hv, ht, hdevice, fun hreg => (hrest hreg).1⟩
  · obtain ⟨hfolded, sub, hsub, hreg⟩ := hlive
    obtain ⟨v, t, hv, ht, -, hrest⟩ := h.subscription hstep hsub (hforeign sub hsub)
    obtain ⟨-, hconnected, hway⟩ := hrest ((Hub.view_eq_some.mp hv).2.symm.trans hreg)
    have hshows := h.shows ⟨hfolded, hconnected⟩
    have hway' : s'.onItsWay device = s.onItsWay device := by
      have heq := hway [] (by rw [hpublished, List.append_nil])
      exact (onItsWay_eq hsub ht).trans (heq.trans (List.append_nil _))
    have hold : s.pending.filterMap (fun j => server.calls[j]?.bind (·.live)) = s.pendingReads :=
      List.filterMap_congr fun j hj => (hkept j hj).2
    cases hread : s.readOf device a with
    | none =>
      refine hshows.same rfl rfl ?_ ?_
      · simp [hs', hread]
      · rw [coming, hway', coming, ← hold]
        simp [pendingReads, hs', hread]
    | some r =>
      -- The call that has read now publishes after those that are pending.
      obtain ⟨-, hdevice, c, hc, -, -, hlive⟩ := readOf_eq_some hstep hread
      refine hshows.extend (r := r.2) rfl rfl ?_ ?_ hdevice
        ((hguard ⟨hfolded, hconnected⟩).2 r hread)
      · simp [hs', hread]
      · rw [coming, hway', coming, ← hold]
        simp [pendingReads, hs', hread, hc, hlive]

/-! ### What the page takes: a subscription, a read, an event -/

theorem Inv.subscribe {s : LiveView δ} {server : IngestState δ} (h : s.Inv device text)
    (hnone : s.sub = none) (hstep : s.server.step (.hub (.subscribe device)) = some server) :
    Inv device text { s with server, sub := some s.server.hub.hub.heap.length } := by
  have hfolded : s.folded = [] := by
    by_contra hne
    have hsome := h.started hne
    rw [hnone] at hsome
    cases hsome
  refine ⟨h.server.step hstep, fun j hj => ?_, h.nodup, fun sub hsub => ?_, h.empty, fun _ => rfl,
    fun hlive => absurd hfolded hlive.1⟩
  · exact ((h.pending j hj).kept { s with server } h hstep (by simp [publisherOf])).1
  · obtain rfl := Option.some.inj hsub
    simp only [IngestState.step, Option.bind_eq_bind, Option.bind_eq_some_iff] at hstep
    obtain ⟨hub, hhub, hstep⟩ := hstep
    cases hstep
    rw [HubState.step, h.server.safe.panicked, if_neg (by simp)] at hhub
    obtain ⟨-, -, ⟨v, t, hv, ht, rfl, -, hsegment⟩, -⟩ := h.server.safe.subscribe hhub
    exact ⟨_, t, hv, ht, rfl, fun _ => hsegment⟩

/-- A read of the handler, with nothing that was read before still to come. -/
theorem Inv.read {s : LiveView δ} {live : LiveLocation δ} {now : Time}
    (localeCompare : String → String → Ordering) (h : s.Inv device text) (hsub : s.sub.isSome)
    (hlive : getLive s.server.db device now = some live)
    (hguard : s.InOrder device text (.read now)) :
    Inv device text
      { s.fold text localeCompare live with reads := s.reads ++ [(none, live)] } := by
  refine ⟨h.server, h.pending, h.nodup, h.sub, fun hnil => ?_, fun _ => hsub, fun hL => ?_⟩
  · exact absurd hnil (List.append_ne_nil_of_right_ne_nil _ (List.cons_ne_nil _ _))
  · obtain ⟨hcoming, hfollows⟩ := hguard hL.2
    have hdevice := getLive_deviceID hlive
    have hcoming' : coming device
        { s.fold text localeCompare live with reads := s.reads ++ [(none, live)] } = [] := hcoming
    by_cases hfolded : s.folded = []
    · refine ⟨s.reads.map (·.2), live, ?_, List.getLast?_concat, ?_, ?_, ?_, ?_⟩
      · rw [LiveView.fold, h.empty hfolded]
        exact reduce_first localeCompare
      · rw [hcoming', List.map_append]
        rfl
      · rw [LiveView.fold, hfolded]
        exact List.sublist_append_right _ _
      · rw [hcoming']
        exact .singleton live
      · rw [hcoming']
        exact fun r hr => List.mem_singleton.mp hr ▸ hdevice
    · obtain ⟨before, last, hsnapshot, -, hall, hsublist, -, hdevices⟩ := h.shows ⟨hfolded, hL.2⟩
      rw [hcoming] at hall hdevices
      obtain ⟨x, hx, rfl⟩ : ∃ x, s.reads.getLast? = some x ∧ x.2 = last := by
        have hlast := congrArg List.getLast? hall
        rw [List.getLast?_map, List.getLast?_concat, Option.map_eq_some_iff] at hlast
        exact hlast
      have hfollow := hfollows hfolded live hlive x hx
      refine ⟨before ++ [x.2], live, ?_, List.getLast?_concat, ?_, ?_, ?_, ?_⟩
      · exact reduce_follows localeCompare hsnapshot
          ((hdevices x.2 List.mem_cons_self).trans hdevice.symm) hfollow
      · rw [hcoming', List.map_append, hall]
        rfl
      · exact hsublist.append_right [live]
      · rw [hcoming']
        exact .singleton live
      · rw [hcoming']
        exact fun r hr => List.mem_singleton.mp hr ▸ hdevice

/-- The client takes the next event of its channel. -/
theorem received_cons {σ : Type} {s s' : HubState δ σ} {h' : Hub δ σ} {sub : Nat}
    {v : Subscription δ σ × Bool} {t : Trace σ} {e : LiveEvent σ} (h : s.Safe)
    (hstep : s.step (.receive sub) = some s') (hreceive : s.hub.receive sub = some (.value e, h'))
    (hv : s.hub.view sub = some v) (ht : s.traces[sub]? = some t)
    (hsegment : v.2 = true → s.Segment v t) :
    ∃ v' t', s'.hub.view sub = some v' ∧ s'.traces[sub]? = some t' ∧
      v'.1.device = v.1.device ∧ (v'.2 = true → v.2 = true ∧ s'.Segment v' t' ∧
        (eventsOf v.1.device (s.published.drop t.joined)).drop t.received.length =
          e :: (eventsOf v.1.device (s'.published.drop t'.joined)).drop t'.received.length) := by
  obtain ⟨-, hall, -⟩ := h.step hstep
  obtain ⟨v', t', hv', ht', hkept⟩ := hall.kept sub v t hv ht
  have hpublished : s'.published = s.published := (h.frame hstep).2.2
  have hreceived : t'.received = t.received ++ [e] := by
    rw [HubState.step, h.panicked, if_neg (by simp), HubState.next, hreceive] at hstep
    cases hstep
    have hmodify : (s.traces.modify sub fun t => { t with received := t.received ++ [e] })[sub]? =
      some t' := ht'
    rw [List.getElem?_modify_eq, ht] at hmodify
    rw [← Option.some.inj hmodify]
  refine ⟨v', t', hv', ht', hkept.device, fun hreg => ?_⟩
  have hreg₀ := hkept.stays hreg
  have hsegment' := hkept.segment (fun htaken => by cases htaken.2.1) (hsegment hreg₀)
  refine ⟨hreg₀, hsegment', ?_⟩
  obtain ⟨-, rest, hrest⟩ := segment_prefix hsegment' hreg
  rw [hkept.device, hreceived, hpublished, hkept.joined] at hrest
  rw [hpublished, hkept.joined, hreceived, ← hrest]
  simp [List.drop_append]

theorem Inv.deliver {s : LiveView δ} {server : IngestState δ} {sub : Nat}
    {e : LiveEvent (LiveLocation δ)} {hub : Hub δ (LiveLocation δ)}
    (localeCompare : String → String → Ordering) (h : s.Inv device text) (hsub : s.sub = some sub)
    (hfolded : s.folded ≠ []) (hstep : s.server.step (.hub (.receive sub)) = some server)
    (hreceive : s.server.hub.hub.receive sub = some (.value e, hub)) :
    Inv device text { s.fold text localeCompare e.snapshot with server } := by
  have hkept : ∀ j ∈ s.pending, Waiting device { s with server } j ∧
      server.calls[j]?.bind (·.live) = s.server.calls[j]?.bind (·.live) := fun j hj =>
    (h.pending j hj).kept { s with server } h hstep (by simp [publisherOf])
  obtain ⟨v, t, hv, ht, hdevice, hsegment⟩ := h.sub sub hsub
  have hhub : s.server.hub.step (.receive sub) = some server.hub := by
    simp only [IngestState.step, Option.bind_eq_bind, Option.bind_eq_some_iff] at hstep
    obtain ⟨hub, hhub, hstep⟩ := hstep
    cases hstep
    exact hhub
  obtain ⟨v', t', hv', ht', hdevice', hrest⟩ :=
    received_cons h.server.safe hhub hreceive hv ht hsegment
  refine ⟨h.server.step hstep, fun j hj => (hkept j hj).1, h.nodup, fun b hb => ?_, fun hnil => ?_,
    fun _ => ?_, fun hlive => ?_⟩
  · obtain rfl : sub = b := Option.some.inj (hsub.symm.trans hb)
    exact ⟨v', t', hv', ht', hdevice'.trans hdevice, fun hreg => (hrest hreg).2.1⟩
  · exact absurd hnil (List.append_ne_nil_of_right_ne_nil _ (List.cons_ne_nil _ _))
  · show s.sub.isSome
    rw [hsub]
    rfl
  · obtain ⟨-, b, hb, hreg⟩ := hlive
    obtain rfl : sub = b := Option.some.inj (hsub.symm.trans hb)
    obtain ⟨hreg₀, -, hcons⟩ := hrest ((Hub.view_eq_some.mp hv').2.symm.trans hreg)
    have hconnected : s.Connected := ⟨sub, hsub, (Hub.view_eq_some.mp hv).2.trans hreg₀⟩
    obtain ⟨before, last, hsnapshot, -, hall, hsublist, hchain, hdevices⟩ :=
      h.shows ⟨hfolded, hconnected⟩
    -- The event that is received was the first of those to come.
    have hcoming : s.coming device = e.snapshot ::
        coming device { s.fold text localeCompare e.snapshot with server } := by
      have hreads : s.pending.filterMap (fun j => server.calls[j]?.bind (·.live)) =
          s.pendingReads := List.filterMap_congr fun j hj => (hkept j hj).2
      rw [hdevice] at hcons
      have hway : onItsWay device { s.fold text localeCompare e.snapshot with server } = _ :=
        onItsWay_eq hsub ht'
      rw [coming, onItsWay_eq hsub ht, hcons, List.map_cons, List.cons_append, ← hreads, coming,
        hway]
      rfl
    rw [hcoming] at hall hchain hdevices
    obtain ⟨hfollows, hchain⟩ := List.isChain_cons_cons.mp hchain
    refine ⟨before ++ [last], e.snapshot, ?_, List.getLast?_concat, ?_, ?_, hchain, ?_⟩
    · refine reduce_follows localeCompare hsnapshot ?_ hfollows
      exact (hdevices last List.mem_cons_self).trans
        (hdevices e.snapshot (List.mem_cons_of_mem _ List.mem_cons_self)).symm
    · rw [List.append_assoc]
      exact hall
    · exact hsublist.append_right [e.snapshot]
    · exact fun r hr => hdevices r (List.mem_cons_of_mem _ hr)

/-! ### Every step -/

theorem Inv.step {s t : LiveView δ} {a : LiveViewAction δ}
    (localeCompare : String → String → Ordering) (h : s.Inv device text)
    (hguard : s.InOrder device text a) (hstep : s.step device text localeCompare a = some t) :
    t.Inv device text := by
  cases a with
  | server a =>
    simp only [LiveView.step, Option.bind_eq_bind, Option.bind_eq_some_iff] at hstep
    obtain ⟨_, hforeign, server, hserver, hstep⟩ := hstep
    have hforeign := (Option.guard_eq_some' _).mp hforeign
    cases hstep
    cases hpublisher : s.publisherOf a with
    | none =>
      refine h.observe hserver (fun sub hsub => ?_) hpublisher hguard
      rintro rfl
      rw [foreign, decide_eq_true_eq] at hforeign
      exact hforeign hsub
    | some k =>
      cases a with
      | hub ha =>
        cases ha with
        | acquire i order =>
          have hacquire := h.acquire hserver hpublisher hguard
          simpa [readOf] using hacquire
        | nextID | draw | offer | release | subscribe | unsubscribe | receive => cases hpublisher
      | ingest | ingestBatch | getLive | publish | other => cases hpublisher
  | subscribe =>
    simp only [LiveView.step, Option.bind_eq_bind, Option.bind_eq_some_iff] at hstep
    obtain ⟨_, hnone, server, hserver, hstep⟩ := hstep
    cases hstep
    exact h.subscribe ((Option.guard_eq_some' _).mp hnone) hserver
  | read now =>
    simp only [LiveView.step, Option.bind_eq_bind, Option.bind_eq_some_iff] at hstep
    obtain ⟨_, hsub, live, hlive, hstep⟩ := hstep
    cases hstep
    exact h.read localeCompare ((Option.guard_eq_some' _).mp hsub) hlive hguard
  | deliver =>
    simp only [LiveView.step, Option.bind_eq_bind, Option.bind_eq_some_iff] at hstep
    obtain ⟨sub, hsub, _, hfolded, server, hserver, ⟨r, hub⟩, hreceive, hstep⟩ := hstep
    cases r with
    | closed => cases hstep
    | value e =>
      cases hstep
      exact h.deliver localeCompare hsub ((Option.guard_eq_some' _).mp hfolded) hserver hreceive

theorem inv_new (db : Database δ) : (new db).Inv device text where
  server := IngestState.inv_new db
  pending := fun k hk => by cases hk
  nodup := List.nodup_nil
  sub := fun sub hsub => by cases hsub
  empty := fun _ => rfl
  started := fun h => absurd rfl h
  shows := fun h => absurd rfl h.1

theorem Inv.delivered {s : LiveView δ} (h : s.Inv device text) (hdelivered : s.Delivered device) :
    s.coming device = [] := by
  have hpending : s.pending = [] := by
    rw [List.eq_nil_iff_forall_not_mem]
    intro k hk
    obtain ⟨c, hc, hdevice, hwaiting, -⟩ := h.pending k hk
    obtain ⟨hread, hdrawn⟩ := hdelivered.2 c (List.mem_of_getElem? hc) hdevice
    exact hwaiting.elim hread hdrawn
  rw [coming, hdelivered.1, pendingReads, hpending]
  rfl

end LiveView

/-- A client that follows the device in a run in which everything comes in order folds the reads in
the order in which they were made and shows the last that it has folded; when nothing is on its way,
that is the latest read of all. -/
theorem live_view_converges {device : δ} {text : Time → String}
    {localeCompare : String → String → Ordering} {db : Database δ} {as : List (LiveViewAction δ)}
    {s : LiveView δ} (hrun : Run (LiveView.step device text localeCompare) (.new db) as s)
    (hguard : Along (LiveView.step device text localeCompare) (LiveView.InOrder device text) (.new db)
      as) (hlive : s.Live) :
    s.folded.Sublist (s.reads.map (·.2)) ∧
      s.view.snapshot = s.folded.getLast?.map (toSnapshot text) ∧
      (s.Delivered device →
        s.view.snapshot = (s.reads.map (·.2)).getLast?.map (toSnapshot text)) := by
  have h : s.Inv device text := Run.invariant_along
    (fun s a t hs hG hstep => hs.step localeCompare hG hstep) hguard hrun (LiveView.inv_new db)
  obtain ⟨before, last, hsnapshot, hlast, hall, hsublist, -⟩ := h.shows hlive
  refine ⟨?_, ?_, fun hdelivered => ?_⟩
  · have hle : (before ++ [last]).Sublist (before ++ last :: s.coming device) :=
      (List.Sublist.refl before).append (List.singleton_sublist.mpr List.mem_cons_self)
    exact hall ▸ hsublist.trans hle
  · rw [hlast]
    exact hsnapshot
  · rw [hall, h.delivered hdelivered, List.getLast?_concat]
    exact hsnapshot

instance (device : δ) (text : Time → String) (s : LiveView δ) (a : LiveViewAction δ) :
    Decidable (s.InOrder device text a) :=
  have : Decidable s.Connected := inferInstanceAs (Decidable (∃ sub ∈ s.sub, _))
  have : Decidable s.Live := inferInstanceAs (Decidable (_ ∧ _))
  match a with
  | .server _ => inferInstanceAs (Decidable (s.Live → _))
  | .read _ => inferInstanceAs (Decidable (s.Connected → _))
  | .subscribe | .deliver => isTrue trivial

end

/-- The text of the first seconds of the epoch. -/
def secondText (t : Time) : String := "1970-01-01T00:00:0" ++ toString (t / 1000000) ++ "Z"

/-- Two calls of `Ingest` that read one after the other, next to a client that has started. -/
def twoReads : List (LiveViewAction Nat) :=
  [.subscribe, .read 1000000, .server (.ingest 7 originFix 3000000 .done),
    .server (.getLive 0 3000000 true),
    .server (.ingest 7 { originFix with recordedAt := 2000000 } 4000000 .done),
    .server (.getLive 1 4000000 true)]

/-- The call publishes, and the client takes the event. -/
def publishAndDeliver (call : Nat) : List (LiveViewAction Nat) :=
  [.server (.publish call), .server (.hub (.acquire 0 [1])), .server (.hub .offer),
    .server (.hub .release), .deliver]

instance (s : LiveView Nat) : Decidable (s.Delivered 7) := inferInstanceAs (Decidable (_ ∧ _))

instance (s : LiveView Nat) : Decidable s.Live :=
  have : Decidable s.Connected := inferInstanceAs (Decidable (∃ sub ∈ s.sub, _))
  inferInstanceAs (Decidable (_ ∧ _))

theorem live_view_two_reads : ∃ s : LiveView Nat,
    Run (LiveView.step 7 secondText compare) (.new (oneDevice 7))
      (twoReads ++ publishAndDeliver 0 ++ publishAndDeliver 1) s ∧
      s.view.snapshot = (s.reads.map (·.2)).getLast?.map (toSnapshot secondText) ∧
      s.view.snapshot.map (·.serverTime) = some "1970-01-01T00:00:04Z" := by
  obtain ⟨s, hrun, hs⟩ := Option.map_eq_some_iff.mp (show
    ((twoReads ++ publishAndDeliver 0 ++ publishAndDeliver 1).foldlM
      (LiveView.step 7 secondText compare) (.new (oneDevice 7))).map (fun s =>
        (decide s.Live, decide (s.Delivered 7), s.view.snapshot.map (·.serverTime))) =
      some (true, true, some "1970-01-01T00:00:04Z") by decide +kernel)
  simp only [Prod.mk.injEq, decide_eq_true_eq] at hs
  obtain ⟨hlive, hdelivered, htime⟩ := hs
  exact ⟨s, hrun, (live_view_converges hrun (by decide +kernel) hlive).2.2 hdelivered, htime⟩

/-- The call that has read first publishes last: its state replaces the presence and the time of the
later one, and only the location stays. -/
theorem late_publish_replaces : ∃ s : LiveView Nat,
    Run (LiveView.step 7 secondText compare) (.new (oneDevice 7))
      (twoReads ++ publishAndDeliver 1 ++ publishAndDeliver 0) s ∧ s.Live ∧ s.Delivered 7 ∧
      s.view.snapshot.map (·.serverTime) = some "1970-01-01T00:00:03Z" ∧
      (s.reads.map (·.2)).getLast?.map (·.serverTime) = some 4000000 ∧
      s.view.snapshot ≠ (s.reads.map (·.2)).getLast?.map (toSnapshot secondText) := by
  obtain ⟨s, hrun, hs⟩ := Option.map_eq_some_iff.mp (show
    ((twoReads ++ publishAndDeliver 1 ++ publishAndDeliver 0).foldlM
      (LiveView.step 7 secondText compare) (.new (oneDevice 7))).map (fun s =>
        (decide s.Live, decide (s.Delivered 7), s.view.snapshot.map (·.serverTime),
          (s.reads.map (·.2)).getLast?.map (·.serverTime))) =
      some (true, true, some "1970-01-01T00:00:03Z", some 4000000) by decide +kernel)
  simp only [Prod.mk.injEq, decide_eq_true_eq] at hs
  obtain ⟨hlive, hdelivered, htime, hread⟩ := hs
  refine ⟨s, hrun, hlive, hdelivered, htime, hread, fun heq => ?_⟩
  obtain ⟨r, hr, hserver⟩ := Option.map_eq_some_iff.mp hread
  rw [heq, hr] at htime
  have hsame : secondText r.serverTime = "1970-01-01T00:00:03Z" := Option.some.inj htime
  rw [hserver] at hsame
  exact absurd hsame (by decide +kernel)

end OpenGps.Frontend
