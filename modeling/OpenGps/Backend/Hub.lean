import Mathlib.Data.List.AList
import OpenGps.Lib.Channel

/-!
# The live hub

The hub fans the events of a device out to its subscribers (`internal/infra/live`). The nested map
of subscriptions is one map from a device and an id; its values are the pointers the source
compares, here the positions of the subscriptions in the order of their allocation.

`Publish` draws its id before it takes the lock, and ranges over a map, so the state keeps the
publishes that wait for the lock and the ids that the one holding it has not reached yet.
-/

namespace OpenGps.Backend

open OpenGps.Lib

structure LiveEvent (σ : Type) where
  id : UInt64
  kind : String
  snapshot : σ
  deriving DecidableEq

/-- `once` is set when the returned closure has run. -/
structure Subscription (δ σ : Type) where
  ch : Channel (LiveEvent σ) 16
  once : Bool
  device : δ
  id : UInt64
  deriving DecidableEq

structure Hub (δ σ : Type) where
  sequence : UInt64
  subs : AList (fun _ : δ × UInt64 => Nat)
  heap : List (Subscription δ σ)

variable {δ σ : Type} [DecidableEq δ]

namespace Hub

def new : Hub δ σ := ⟨0, ∅, []⟩

def nextID (h : Hub δ σ) : UInt64 × Hub δ σ :=
  (h.sequence + 1, { h with sequence := h.sequence + 1 })

def removeLocked (h : Hub δ σ) (device : δ) (id : UInt64) (sub : Nat) :
    Except ChannelPanic (Hub δ σ) :=
  match h.heap[sub]? with
  | some s =>
    if h.subs.lookup (device, id) = some sub then do
      let ch ← s.ch.close
      return { h with subs := h.subs.erase (device, id), heap := h.heap.set sub { s with ch } }
    else return h
  | none => return h

/-- One iteration of the loop in `Publish`; a key that is gone is not produced. -/
def offer (h : Hub δ σ) (device : δ) (event : LiveEvent σ) (id : UInt64) :
    Except ChannelPanic (Hub δ σ) :=
  match h.subs.lookup (device, id) with
  | none => return h
  | some sub =>
    match h.heap[sub]? with
    | none => return h
    | some s => do
      match ← s.ch.trySend event with
      | some ch => return { h with heap := h.heap.set sub { s with ch } }
      | none => h.removeLocked device id sub

/-- The ids the loop in `Publish` ranges over, in some order. -/
def keysOf (h : Hub δ σ) (device : δ) : List UInt64 :=
  (h.subs.keys.filter (·.1 = device)).map (·.2)

def subscribe (h : Hub δ σ) (device : δ) : Hub δ σ where
  sequence := h.sequence + 1
  subs := h.subs.insert (device, h.sequence + 1) h.heap.length
  heap := h.heap ++ [⟨.empty, false, device, h.sequence + 1⟩]

/-- The closure returned by `Subscribe`; `once` is set after its body has run. -/
def unsubscribe (h : Hub δ σ) (sub : Nat) : Except ChannelPanic (Hub δ σ) :=
  match h.heap[sub]? with
  | none => return h
  | some s =>
    if s.once then return h
    else do
      let h ← h.removeLocked s.device s.id sub
      return { h with heap := h.heap.modify sub fun s => { s with once := true } }

def receive (h : Hub δ σ) (sub : Nat) : Option (Received (LiveEvent σ) × Hub δ σ) := do
  let s ← h.heap[sub]?
  let (r, ch) ← s.ch.receive
  return (r, { h with heap := h.heap.set sub { s with ch } })

/-- The map holds the subscription under its own device and id. -/
def registered (h : Hub δ σ) (sub : Nat) : Bool :=
  match h.heap[sub]? with
  | some s => h.subs.lookup (s.device, s.id) = some sub
  | none => false

end Hub

/-! ## The hub and the threads around it -/

/-- A publish that holds the lock. -/
structure Delivery (δ σ : Type) where
  device : δ
  event : LiveEvent σ
  remaining : List UInt64
  deriving DecidableEq

/-- What happened to a subscription: the number of events published before it joined and before it
left, and the events its consumer received. -/
structure Trace (σ : Type) where
  joined : Nat
  left : Option Nat
  received : List (LiveEvent σ)
  deriving DecidableEq

/-- `published`, `drawn` and `traces` are history: no step reads them. -/
structure HubState (δ σ : Type) where
  hub : Hub δ σ
  waiting : List (δ × LiveEvent σ)
  lock : Option (Delivery δ σ)
  panicked : Option ChannelPanic
  drawn : Nat
  published : List (δ × LiveEvent σ)
  traces : List (Trace σ)

inductive HubAction (δ σ : Type) where
  | nextID
  | draw (device : δ) (kind : String) (snapshot : σ)
  | acquire (i : Nat) (order : List UInt64)
  | offer
  | release
  | subscribe (device : δ)
  | unsubscribe (sub : Nat)
  | receive (sub : Nat)
  deriving DecidableEq

namespace HubState

def new : HubState δ σ := ⟨.new, [], none, none, 0, [], []⟩

/-- A critical section ends: a panic stops the program, and a subscription that the map no longer
holds has left. -/
def commit (s : HubState δ σ) (left : Nat) : Except ChannelPanic (Hub δ σ) → HubState δ σ
  | .error p => { s with panicked := some p }
  | .ok h =>
    { s with
      hub := h
      traces := s.traces.mapIdx fun sub t =>
        if s.hub.registered sub && !h.registered sub then { t with left := some left } else t }

/-- The consumer of a subscription takes a value. -/
def note (s : HubState δ σ) (sub : Nat) : Received (LiveEvent σ) → HubState δ σ
  | .value e =>
    { s with traces := s.traces.modify sub fun t => { t with received := t.received ++ [e] } }
  | .closed => s

def next (s : HubState δ σ) : HubAction δ σ → Option (HubState δ σ)
  | .nextID => some { s with hub := s.hub.nextID.2, drawn := s.drawn + 1 }
  | .draw device kind snapshot =>
    let (id, hub) := s.hub.nextID
    some { s with hub, drawn := s.drawn + 1, waiting := s.waiting ++ [(device, ⟨id, kind, snapshot⟩)] }
  | .acquire i order =>
    match s.lock, s.waiting[i]? with
    | none, some (device, event) =>
      -- The range over the map visits the subscribers in any order.
      if order.Perm (s.hub.keysOf device) then
        some { s with
          lock := some ⟨device, event, order⟩
          waiting := s.waiting.eraseIdx i
          published := s.published ++ [(device, event)] }
      else none
    | _, _ => none
  | .offer =>
    match s.lock with
    | some ⟨device, event, id :: remaining⟩ =>
      some ({ s with lock := some ⟨device, event, remaining⟩ }.commit (s.published.length - 1)
        (s.hub.offer device event id))
    | _ => none
  | .release =>
    match s.lock with
    | some ⟨_, _, []⟩ => some { s with lock := none }
    | _ => none
  | .subscribe device =>
    -- A publish holds the lock until it has offered its event to everybody.
    if s.lock.isSome then none
    else some { s with
      hub := s.hub.subscribe device
      drawn := s.drawn + 1
      traces := s.traces ++ [⟨s.published.length, none, []⟩] }
  | .unsubscribe sub =>
    if s.lock.isSome then none
    else some (s.commit s.published.length (s.hub.unsubscribe sub))
  | .receive sub =>
    match s.hub.receive sub with
    | some (r, hub) => some ({ s with hub }.note sub r)
    | none => none

/-- A panic ends the program. -/
def step (s : HubState δ σ) (a : HubAction δ σ) : Option (HubState δ σ) :=
  if s.panicked.isSome then none else s.next a

end HubState

/-! ## What the operations do to one subscription -/

namespace Hub

/-- A subscription and whether the map holds it. -/
def view (h : Hub δ σ) (sub : Nat) : Option (Subscription δ σ × Bool) :=
  h.heap[sub]?.map fun s => (s, h.registered sub)

/-- Every entry of the map points to an open subscription of its own device and id, whose closure
has not run. -/
def Sound (h : Hub δ σ) : Prop :=
  ∀ device id sub, h.subs.lookup (device, id) = some sub →
    ∃ s, h.heap[sub]? = some s ∧ s.device = device ∧ s.id = id ∧ s.ch.closed = false ∧
      s.once = false

theorem registered_iff {h : Hub δ σ} {sub : Nat} {s : Subscription δ σ} (hs : h.heap[sub]? = some s) :
    h.registered sub = true ↔ h.subs.lookup (s.device, s.id) = some sub := by
  rw [registered, hs]
  exact decide_eq_true_iff

theorem view_eq_some {h : Hub δ σ} {sub : Nat} {v : Subscription δ σ × Bool} :
    h.view sub = some v ↔ h.heap[sub]? = some v.1 ∧ h.registered sub = v.2 := by
  rw [view, Option.map_eq_some_iff]
  constructor
  · rintro ⟨s, hs, rfl⟩
    exact ⟨hs, rfl⟩
  · rintro ⟨hs, hreg⟩
    exact ⟨v.1, hs, by rw [hreg]⟩

/-! ### Writing one subscription -/

/-- A change of one subscription that keeps its key. -/
def setSub (h : Hub δ σ) (sub : Nat) (s : Subscription δ σ) : Hub δ σ :=
  { h with heap := h.heap.set sub s }

section
variable {h : Hub δ σ} {sub : Nat} {s s' : Subscription δ σ}

omit [DecidableEq δ] in
theorem heap_setSub_self (hs : h.heap[sub]? = some s) : (h.setSub sub s').heap[sub]? = some s' := by
  obtain ⟨hlt, -⟩ := List.getElem?_eq_some_iff.mp hs
  exact List.getElem?_set_self hlt

omit [DecidableEq δ] in
theorem heap_setSub_ne {b : Nat} (hne : b ≠ sub) : (h.setSub sub s').heap[b]? = h.heap[b]? :=
  List.getElem?_set_ne (Ne.symm hne)

theorem view_setSub_self (hs : h.heap[sub]? = some s) (hdevice : s'.device = s.device)
    (hid : s'.id = s.id) : (h.setSub sub s').view sub = some (s', h.registered sub) := by
  have hset : (h.setSub sub s').heap[sub]? = some s' := heap_setSub_self hs
  rw [view_eq_some]
  refine ⟨hset, ?_⟩
  rw [Bool.eq_iff_iff, registered_iff hset, registered_iff hs, hdevice, hid]
  rfl

theorem view_setSub_ne {b : Nat} (hne : b ≠ sub) : (h.setSub sub s').view b = h.view b := by
  rw [view, view, heap_setSub_ne hne]
  refine Option.map_congr fun t ht => ?_
  have ht' : (h.setSub sub s').heap[b]? = some t := (heap_setSub_ne hne).trans ht
  rw [Prod.mk.injEq, Bool.eq_iff_iff, registered_iff ht, registered_iff ht']
  exact ⟨rfl, Iff.rfl⟩

theorem Sound.setSub (h₀ : h.Sound) (hs : h.heap[sub]? = some s) (hdevice : s'.device = s.device)
    (hid : s'.id = s.id) (hopen : h.registered sub = true → s.ch.closed = false → s.once = false →
      s'.ch.closed = false ∧ s'.once = false) :
    (h.setSub sub s').Sound := by
  intro device id b hb
  obtain ⟨t, ht, htdevice, htid, htopen, honce⟩ := h₀ device id b hb
  by_cases hne : b = sub
  · subst hne
    obtain rfl : s = t := Option.some.inj (hs.symm.trans ht)
    have hreg : h.registered b = true := by
      rw [registered_iff hs, htdevice, htid]
      exact hb
    exact ⟨s', heap_setSub_self hs, hdevice.trans htdevice, hid.trans htid,
      hopen hreg htopen honce⟩
  · exact ⟨t, (heap_setSub_ne hne).trans ht, htdevice, htid, htopen, honce⟩

end

/-! ### One lemma for each operation -/

/-- The subscription is taken out of the map and closed; nothing else changes. -/
theorem removeLocked_spec {h : Hub δ σ} (h₀ : h.Sound) {sub : Nat} {s : Subscription δ σ}
    (hs : h.heap[sub]? = some s) (hreg : h.registered sub = true) :
    ∃ h', h.removeLocked s.device s.id sub = .ok h' ∧ h'.Sound ∧ h'.sequence = h.sequence ∧
      h'.heap.length = h.heap.length ∧
      h'.view sub = some ({ s with ch := { s.ch with closed := true } }, false) ∧
      ∀ b, b ≠ sub → h'.view b = h.view b := by
  have hlookup := (registered_iff hs).mp hreg
  obtain ⟨t, ht, -, -, hopen, -⟩ := h₀ _ _ _ hlookup
  obtain rfl : s = t := Option.some.inj (hs.symm.trans ht)
  let s' : Subscription δ σ := { s with ch := { s.ch with closed := true } }
  let h' : Hub δ σ :=
    { h with subs := h.subs.erase (s.device, s.id), heap := h.heap.set sub s' }
  have hself : h'.heap[sub]? = some s' := heap_setSub_self hs
  have hother : ∀ b, b ≠ sub → h'.heap[b]? = h.heap[b]? := fun b hne => heap_setSub_ne hne
  refine ⟨h', ?_, ?_, rfl, List.length_set, ?_, ?_⟩
  · rw [removeLocked, hs]
    dsimp only
    rw [if_pos hlookup, Channel.close_of_open hopen]
    rfl
  · intro device id b hb
    have hkey : (device, id) ≠ (s.device, s.id) := by
      intro hkey
      rw [hkey] at hb
      exact absurd (hb.symm.trans (AList.lookup_erase _ _)) (Option.some_ne_none _)
    have hb : h.subs.lookup (device, id) = some b := (AList.lookup_erase_ne hkey).symm.trans hb
    obtain ⟨t, ht, hdevice, hid, htopen⟩ := h₀ device id b hb
    have hne : b ≠ sub := by
      intro heq
      rw [heq] at ht
      have hst := Option.some.inj (ht.symm.trans hs)
      exact hkey (by rw [← hdevice, ← hid, hst])
    exact ⟨t, (hother b hne).trans ht, hdevice, hid, htopen⟩
  · rw [view_eq_some]
    refine ⟨hself, ?_⟩
    rw [Bool.eq_false_iff, Ne, registered_iff hself]
    intro hb
    exact absurd (hb.symm.trans (AList.lookup_erase _ _)) (Option.some_ne_none _)
  · intro b hne
    rw [view, view, hother b hne]
    refine Option.map_congr fun t ht => ?_
    have ht' : h'.heap[b]? = some t := (hother b hne).trans ht
    rw [Prod.mk.injEq, Bool.eq_iff_iff, registered_iff ht', registered_iff ht]
    refine ⟨rfl, ?_⟩
    by_cases hkey : (t.device, t.id) = (s.device, s.id)
    · -- The erased key pointed to `sub`, not to `b`.
      rw [hkey, hlookup]
      refine ⟨fun hb => ?_, fun hb => absurd (Option.some.inj hb).symm hne⟩
      exact absurd (hb.symm.trans (AList.lookup_erase _ _)) (Option.some_ne_none _)
    · rw [show h'.subs.lookup _ = _ from AList.lookup_erase_ne hkey]

/-- The subscription got the event, or its buffer was full and it was evicted. -/
structure Offered (event : LiveEvent σ) (v v' : Subscription δ σ × Bool) : Prop where
  device : v'.1.device = v.1.device
  id : v'.1.id = v.1.id
  once : v'.1.once = v.1.once
  sent : v'.2 = true ∧ v'.1.ch.buffer = v.1.ch.buffer ++ [event] ∨
    v'.2 = false ∧ v'.1.ch.buffer = v.1.ch.buffer ∧ v.1.ch.buffer.length = 16

theorem offer_spec {h : Hub δ σ} (h₀ : h.Sound) (device : δ) (event : LiveEvent σ) (id : UInt64) :
    ∃ h', h.offer device event id = .ok h' ∧ h'.Sound ∧ h'.sequence = h.sequence ∧
      h'.heap.length = h.heap.length ∧ ∀ b v, h.view b = some v → ∃ v', h'.view b = some v' ∧
        if v.2 = true ∧ v.1.device = device ∧ v.1.id = id then Offered event v v' else v' = v := by
  rw [offer]
  cases hlookup : h.subs.lookup (device, id) with
  | none =>
    refine ⟨h, rfl, h₀, rfl, rfl, fun b v hv => ⟨v, hv, ?_⟩⟩
    rw [if_neg]
    rintro ⟨hreg, rfl, rfl⟩
    obtain ⟨hs, hb⟩ := view_eq_some.mp hv
    rw [hreg, registered_iff hs, hlookup] at hb
    cases hb
  | some sub =>
    obtain ⟨s, hs, hdevice, hid, hopen, -⟩ := h₀ device id sub hlookup
    have hreg : h.registered sub = true := by
      rw [registered_iff hs, hdevice, hid]
      exact hlookup
    have hself : ∀ v, h.view sub = some v → v = (s, true) := by
      intro v hv
      obtain ⟨hv, hb⟩ := view_eq_some.mp hv
      obtain rfl : v.1 = s := Option.some.inj (hv.symm.trans hs)
      rw [hreg] at hb
      exact Prod.ext rfl hb.symm
    -- The other subscriptions are not registered under this key.
    have hother : ∀ b v, b ≠ sub → h.view b = some v →
        ¬ (v.2 = true ∧ v.1.device = device ∧ v.1.id = id) := by
      rintro b v hne hv ⟨hb, rfl, rfl⟩
      obtain ⟨hv, hvreg⟩ := view_eq_some.mp hv
      rw [hb, registered_iff hv, hlookup] at hvreg
      exact hne (Option.some.inj hvreg).symm
    dsimp only
    rw [hs]
    dsimp only
    rcases Channel.trySend_of_open hopen event with ⟨ch, hsend, hbuffer, hchopen⟩ | ⟨hsend, hfull⟩
    · rw [hsend]
      refine ⟨h.setSub sub { s with ch }, rfl, h₀.setSub hs rfl rfl fun _ _ honce =>
        ⟨hchopen, honce⟩, rfl,
        List.length_set, fun b v hv => ?_⟩
      by_cases hne : b = sub
      · subst hne
        obtain rfl := hself v hv
        refine ⟨_, view_setSub_self hs rfl rfl, ?_⟩
        rw [if_pos ⟨rfl, hdevice, hid⟩, hreg]
        exact ⟨rfl, rfl, rfl, .inl ⟨rfl, hbuffer⟩⟩
      · refine ⟨v, (view_setSub_ne hne).trans hv, ?_⟩
        rw [if_neg (hother b v hne hv)]
    · rw [hsend]
      obtain ⟨h', hrun, hsound, hseq, hlen, hview, hviews⟩ := removeLocked_spec h₀ hs hreg
      rw [hdevice, hid] at hrun
      refine ⟨h', hrun, hsound, hseq, hlen, fun b v hv => ?_⟩
      by_cases hne : b = sub
      · subst hne
        obtain rfl := hself v hv
        refine ⟨_, hview, ?_⟩
        rw [if_pos ⟨rfl, hdevice, hid⟩]
        exact ⟨rfl, rfl, rfl, .inr ⟨rfl, rfl, hfull⟩⟩
      · refine ⟨v, (hviews b hne).trans hv, ?_⟩
        rw [if_neg (hother b v hne hv)]

/-- A first call takes the subscription out of the map. -/
theorem unsubscribe_spec {h : Hub δ σ} (h₀ : h.Sound) (sub : Nat) :
    ∃ h', h.unsubscribe sub = .ok h' ∧ h'.Sound ∧ h'.sequence = h.sequence ∧
      h'.heap.length = h.heap.length ∧ (∀ b, b ≠ sub → h'.view b = h.view b) ∧
      ∀ v, h.view sub = some v → ∃ v', h'.view sub = some v' ∧ v'.1.device = v.1.device ∧
        v'.1.id = v.1.id ∧ v'.1.ch.buffer = v.1.ch.buffer ∧
        if v.1.once then v' = v else v'.2 = false := by
  rw [unsubscribe]
  cases hs : h.heap[sub]? with
  | none =>
    refine ⟨h, rfl, h₀, rfl, rfl, fun _ _ => rfl, fun v hv => ?_⟩
    rw [(view_eq_some.mp hv).1] at hs
    cases hs
  | some s =>
    dsimp only
    have hself : ∀ v, h.view sub = some v → v = (s, h.registered sub) := by
      intro v hv
      obtain ⟨hv, hb⟩ := view_eq_some.mp hv
      exact Prod.ext (Option.some.inj (hv.symm.trans hs)) hb.symm
    cases honce : s.once with
    | true =>
      refine ⟨h, rfl, h₀, rfl, rfl, fun _ _ => rfl, fun v hv => ⟨v, hv, rfl, rfl, rfl, ?_⟩⟩
      rw [hself v hv, honce]
      rfl
    | false =>
      rw [if_neg (by simp)]
      -- The body of the closure: afterwards the subscription is not in the map.
      obtain ⟨h', s', hrun, hsound, hseq, hlen, hview, hdevice, hid, hbuffer, hviews⟩ :
          ∃ h' s', h.removeLocked s.device s.id sub = .ok h' ∧ h'.Sound ∧
            h'.sequence = h.sequence ∧ h'.heap.length = h.heap.length ∧
            h'.view sub = some (s', false) ∧ s'.device = s.device ∧ s'.id = s.id ∧
            s'.ch.buffer = s.ch.buffer ∧ ∀ b, b ≠ sub → h'.view b = h.view b := by
        cases hreg : h.registered sub with
        | true =>
          obtain ⟨h', hrun, hsound, hseq, hlen, hview, hviews⟩ := removeLocked_spec h₀ hs hreg
          exact ⟨h', _, hrun, hsound, hseq, hlen, hview, rfl, rfl, rfl, hviews⟩
        | false =>
          refine ⟨h, s, ?_, h₀, rfl, rfl, view_eq_some.mpr ⟨hs, hreg⟩, rfl, rfl, rfl,
            fun _ _ => rfl⟩
          rw [Bool.eq_false_iff, Ne, registered_iff hs] at hreg
          rw [removeLocked, hs]
          exact if_neg hreg
      obtain ⟨hs', hreg'⟩ := view_eq_some.mp hview
      have hmark : ({ h' with heap := h'.heap.modify sub fun s => { s with once := true } } :
          Hub δ σ) = h'.setSub sub { s' with once := true } := by
        rw [setSub, List.modify_eq_set_getElem?, hs']
        rfl
      rw [hrun]
      refine ⟨h'.setSub sub { s' with once := true }, congrArg Except.ok hmark,
        hsound.setSub hs' rfl rfl fun hreg => ?_, hseq, List.length_set.trans hlen,
        fun b hne => (view_setSub_ne hne).trans (hviews b hne), fun v hv => ?_⟩
      · rw [hreg'] at hreg
        cases hreg
      · obtain rfl := hself v hv
        refine ⟨_, view_setSub_self hs' rfl rfl, hdevice, hid, hbuffer, ?_⟩
        rw [honce]
        exact hreg'

/-- A receive changes the buffer of its own subscription. -/
theorem receive_spec {h h' : Hub δ σ} {sub : Nat} {r : Received (LiveEvent σ)} (h₀ : h.Sound)
    (hrun : h.receive sub = some (r, h')) :
    h'.Sound ∧ h'.sequence = h.sequence ∧ h'.heap.length = h.heap.length ∧
      (∀ b, b ≠ sub → h'.view b = h.view b) ∧
      ∃ v v', h.view sub = some v ∧ h'.view sub = some v' ∧ v'.1.device = v.1.device ∧
        v'.1.id = v.1.id ∧ v'.1.once = v.1.once ∧ v'.2 = v.2 ∧
        ((∃ e, r = .value e ∧ v.1.ch.buffer = e :: v'.1.ch.buffer) ∨
          r = .closed ∧ v.1.ch.closed = true ∧ v' = v) := by
  simp only [receive, Option.bind_eq_bind, Option.bind_eq_some_iff, Option.pure_def,
    Option.some.injEq, Prod.mk.injEq] at hrun
  obtain ⟨s, hs, ⟨r', ch⟩, hch, rfl, rfl⟩ := hrun
  have hview : h.view sub = some (s, h.registered sub) := view_eq_some.mpr ⟨hs, rfl⟩
  rcases Channel.receive_cases hch with ⟨e, hr, hbuffer, hclosed⟩ | ⟨hr, hclosed, hempty, rfl⟩
  · have hsound : (h.setSub sub { s with ch }).Sound :=
      h₀.setSub hs rfl rfl fun _ hopen honce => ⟨hclosed.trans hopen, honce⟩
    exact ⟨hsound, rfl, List.length_set, fun b hne => view_setSub_ne hne, _, _, hview,
      view_setSub_self hs rfl rfl, rfl, rfl, rfl, rfl, .inl ⟨e, hr, hbuffer⟩⟩
  · have hsound : (h.setSub sub { s with ch := s.ch }).Sound :=
      h₀.setSub hs rfl rfl fun _ hopen honce => ⟨hopen, honce⟩
    exact ⟨hsound, rfl, List.length_set, fun b hne => view_setSub_ne hne, _, _, hview,
      view_setSub_self hs rfl rfl, rfl, rfl, rfl, rfl, .inr ⟨hr, hclosed, rfl⟩⟩

/-- A new subscription, under a key that an older one loses if it had it. -/
theorem subscribe_spec {h : Hub δ σ} (h₀ : h.Sound) (device : δ) :
    (h.subscribe device).Sound ∧
      (h.subscribe device).view h.heap.length =
        some (⟨.empty, false, device, h.sequence + 1⟩, true) ∧
      ∀ b v, h.view b = some v → ∃ v', (h.subscribe device).view b = some v' ∧ v'.1 = v.1 ∧
        if v.2 = true ∧ v.1.device = device ∧ v.1.id = h.sequence + 1 then v'.2 = false
        else v' = v := by
  have hnew : (h.subscribe device).heap[h.heap.length]? =
      some ⟨.empty, false, device, h.sequence + 1⟩ := by
    show (h.heap ++ _)[h.heap.length]? = _
    rw [List.getElem?_append_right (le_refl _), Nat.sub_self]
    rfl
  have hold : ∀ {b : Nat} {s : Subscription δ σ}, h.heap[b]? = some s →
      (h.subscribe device).heap[b]? = some s := by
    intro b s hs
    obtain ⟨hlt, -⟩ := List.getElem?_eq_some_iff.mp hs
    show (h.heap ++ _)[b]? = _
    rw [List.getElem?_append_left hlt, hs]
  have hlookup : (h.subscribe device).subs.lookup (device, h.sequence + 1) =
      some h.heap.length := AList.lookup_insert _
  refine ⟨?_, view_eq_some.mpr ⟨hnew, (registered_iff hnew).mpr hlookup⟩, ?_⟩
  · intro d id b hb
    by_cases hkey : (d, id) = (device, h.sequence + 1)
    · rw [hkey, hlookup] at hb
      obtain rfl := Option.some.inj hb
      obtain ⟨rfl, rfl⟩ := Prod.mk.inj hkey
      exact ⟨_, hnew, rfl, rfl, rfl, rfl⟩
    · have hb : h.subs.lookup (d, id) = some b := (AList.lookup_insert_ne hkey).symm.trans hb
      obtain ⟨s, hs, hrest⟩ := h₀ d id b hb
      exact ⟨s, hold hs, hrest⟩
  · intro b v hv
    obtain ⟨hs, hreg⟩ := view_eq_some.mp hv
    refine ⟨(v.1, (h.subscribe device).registered b), view_eq_some.mpr ⟨hold hs, rfl⟩, rfl, ?_⟩
    show if _ then (h.subscribe device).registered b = false else _
    by_cases hkey : (v.1.device, v.1.id) = (device, h.sequence + 1)
    · -- The key now points to the new subscription.
      obtain ⟨hlt, -⟩ := List.getElem?_eq_some_iff.mp hs
      have hlost : (h.subscribe device).registered b = false := by
        rw [Bool.eq_false_iff, Ne, registered_iff (hold hs), hkey, hlookup]
        intro heq
        exact absurd (Option.some.inj heq) (Nat.ne_of_gt hlt)
      split
      · exact hlost
      · next hnot =>
        have hv2 : v.2 = false := by
          cases hb : v.2 with
          | false => rfl
          | true => exact absurd ⟨hb, Prod.mk.inj hkey⟩ hnot
        exact Prod.ext rfl (hlost.trans hv2.symm)
    · rw [if_neg fun hsame => hkey (Prod.ext hsame.2.1 hsame.2.2)]
      refine Prod.ext rfl ?_
      show (h.subscribe device).registered b = v.2
      rw [← hreg, Bool.eq_iff_iff, registered_iff (hold hs), registered_iff hs]
      rw [show (h.subscribe device).subs.lookup _ = _ from AList.lookup_insert_ne hkey]

end Hub

end OpenGps.Backend
