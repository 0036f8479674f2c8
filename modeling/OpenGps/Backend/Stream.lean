import OpenGps.Backend.HubDelivery

/-!
# The live stream

`LocationsHandler.Stream` subscribes, installs a writer with `SendStreamWriter` and returns, which
runs its deferred `unsubscribe`. The writer runs after or concurrently with the return, and reads
from the channel that `unsubscribe` closes. The two are processes over the hub, next to the
publishers and the other subscribers.

A stream delivers for as long as the handler's return comes after the end of the writer, or finds
the subscription already evicted.
-/

namespace OpenGps.Backend

open OpenGps.Lib

variable {δ σ : Type} [DecidableEq δ]

/-! ## The handler and its writer -/

/-- `failed` is a read or a write that failed, `closed` a receive from a closed channel. -/
inductive StreamEnd where
  | disconnected | failed | closed
  deriving DecidableEq

inductive WriterStage where
  | notInstalled
  | installed
  | looping
  | ended (reason : StreamEnd)
  deriving DecidableEq

inductive HandlerStage where
  | preparing | streaming | returned
  deriving DecidableEq

/-- `written` are the events of the channel that went to the client. `overflowed` is history: the
hub evicted the subscription. -/
structure StreamState (δ σ : Type) where
  hub : HubState δ σ
  sub : Nat
  handler : HandlerStage
  writer : WriterStage
  written : List (LiveEvent σ)
  disconnected : Bool
  overflowed : Bool

/-- `hub` is a step of another goroutine; the flags say whether a read or a write succeeds. -/
inductive StreamAction (δ σ : Type) where
  | hub (a : HubAction δ σ)
  | snapshot (read : Bool)
  | handlerReturn
  | start (write : Bool)
  | event (write : Bool)
  | keepalive (write : Bool)
  | presence (read write : Bool)
  | disconnect
  | done
  deriving DecidableEq

namespace StreamState

/-! ### Steps

The handler subscribes, installs the writer and returns, and its deferred function unsubscribes; the
writer takes the events and goes on until one of its ways to end. -/

/-- The handler up to its subscription. -/
def subscribed (h : HubState δ σ) (device : δ) : Option (StreamState δ σ) := do
  let hub ← h.step (.subscribe device)
  return ⟨hub, h.hub.heap.length, .preparing, .notInstalled, [], false, false⟩

/-- The deferred call. -/
def runDeferred (s : StreamState δ σ) : Option (StreamState δ σ) := do
  let hub ← s.hub.step (.unsubscribe s.sub)
  return { s with hub, handler := .returned }

/-- The closure and the channel of this subscription belong to the handler and the writer. -/
def foreign (s : StreamState δ σ) : HubAction δ σ → Bool
  | .unsubscribe sub | .receive sub => sub ≠ s.sub
  | _ => true

/-- The step drops the subscription because its buffer is full. -/
def evicts (before after : HubState δ σ) (sub : Nat) : HubAction δ σ → Bool
  | .offer => before.hub.registered sub && !after.hub.registered sub
  | _ => false

def stepHub (s : StreamState δ σ) (a : HubAction δ σ) : Option (StreamState δ σ) := do
  let hub ← s.hub.step a
  return { s with hub, overflowed := s.overflowed || evicts s.hub hub s.sub a }

/-- `case event, ok := <-events`. -/
def stepEvent (s : StreamState δ σ) (write : Bool) : Option (StreamState δ σ) := do
  let (r, _) ← s.hub.hub.receive s.sub
  let hub ← s.hub.step (.receive s.sub)
  match r with
  | .closed => return { s with hub, writer := .ended .closed }
  | .value e =>
    if write then return { s with hub, written := s.written ++ [e] }
    else return { s with hub, writer := .ended .failed }

def step (s : StreamState δ σ) : StreamAction δ σ → Option (StreamState δ σ)
  | .hub a => if s.foreign a then s.stepHub a else none
  | .snapshot read =>
    if s.handler ≠ .preparing then none
    else if read then some { s with handler := .streaming, writer := .installed }
    else s.runDeferred
  | .handlerReturn => if s.handler ≠ .streaming then none else s.runDeferred
  | .start write =>
    if s.writer ≠ .installed then none
    else do
      let hub ← s.hub.step .nextID
      return { s with hub, writer := if write then .looping else .ended .failed }
  | .event write => if s.writer ≠ .looping then none else s.stepEvent write
  | .keepalive write =>
    if s.writer ≠ .looping then none
    else some { s with writer := if write then .looping else .ended .failed }
  | .presence read write =>
    if s.writer ≠ .looping then none
    else if read then do
      let hub ← s.hub.step .nextID
      return { s with hub, writer := if write then .looping else .ended .failed }
    else some { s with writer := .ended .failed }
  | .disconnect => some { s with disconnected := true }
  | .done =>
    if s.writer ≠ .looping ∨ s.disconnected = false then none
    else some { s with writer := .ended .disconnected }

/-! ## Delivery -/

/-- From the subscription until the writer has ended, or the handler gave up before it installed
one. -/
def Open (s : StreamState δ σ) : Prop :=
  (∀ reason, s.writer ≠ .ended reason) ∧ ¬ (s.handler = .returned ∧ s.writer = .notInstalled)

def registered (s : StreamState δ σ) : Bool := s.hub.hub.registered s.sub

def buffered (s : StreamState δ σ) : List (LiveEvent σ) :=
  match s.hub.hub.heap[s.sub]? with
  | some v => v.ch.buffer
  | none => []

/-- The events published for the device since the subscription, up to its eviction. -/
def published (s : StreamState δ σ) (device : δ) : List (LiveEvent σ) :=
  match s.hub.hub.heap[s.sub]?, s.hub.traces[s.sub]? with
  | some v, some t =>
    eventsOf device ((s.hub.published.take (t.left.getD (s.hub.seen v))).drop t.joined)
  | _, _ => []

/-- An open stream is registered or evicted for overflow, every event published so far is written
or next in its channel, a writer that is not stopped writes them all, and a writer only finds its
channel closed after an overflow. -/
structure Delivers (device : δ) (s : StreamState δ σ) : Prop where
  registered : s.Open → s.registered = true ∨ s.overflowed = true
  buffered : s.Open → s.written ++ s.buffered = s.published device
  writes : s.writer = .looping → ∃ t,
    Run step s (List.replicate s.buffered.length (.event true)) t ∧ t.written = s.published device
  ended : s.writer = .ended .closed → s.overflowed = true

/-- The deferred `unsubscribe` does not take an open stream out of the hub, nor does a new
subscription with the same key. -/
def Undisturbed (s : StreamState δ σ) : StreamAction δ σ → Prop
  | .handlerReturn => s.Open → s.registered = false
  | .hub a => s.Open → ∀ v, s.hub.hub.view s.sub = some v → ¬ s.hub.TakenOver a v
  | _ => True

/-! ## The invariant -/

/-- What is written is what the consumer of the subscription received, and the subscription is in
the map unless it was evicted. -/
def Follows (hub : HubState δ σ) (sub : Nat) (device : δ) (written : List (LiveEvent σ))
    (overflowed : Bool) : Prop :=
  ∃ v t, hub.hub.view sub = some v ∧ hub.traces[sub]? = some t ∧ v.1.device = device ∧
    hub.Segment v t ∧ t.received = written ∧ (v.2 = true ∧ overflowed = false ∨
      v.2 = false ∧ overflowed = true)

/-- The handler installs the writer when it goes from preparing to streaming. -/
def Consistent : HandlerStage → WriterStage → Prop
  | .preparing, writer => writer = .notInstalled
  | .streaming, writer => writer ≠ .notInstalled
  | .returned, _ => True

structure Inv (device : δ) (s : StreamState δ σ) : Prop where
  safe : s.hub.Safe
  stages : Consistent s.handler s.writer
  ended : s.writer = .ended .closed → s.overflowed = true
  follows : s.Open → Follows s.hub s.sub device s.written s.overflowed

section
variable {hub hub' : HubState δ σ} {sub : Nat} {device : δ} {written : List (LiveEvent σ)}
  {overflowed : Bool} {a : HubAction δ σ}

/-- A hub step that neither receives for the subscription nor takes it out of the map. -/
theorem Follows.step (h : Follows hub sub device written overflowed) (hsafe : hub.Safe)
    (hstep : hub.step a = some hub') (hreceive : a ≠ .receive sub)
    (htaken : ∀ v, hub.hub.view sub = some v → ¬ hub.TakenOver a v)
    (hunsubscribe : a = .unsubscribe sub → hub.hub.registered sub = false) :
    Follows hub' sub device written (overflowed || evicts hub hub' sub a) := by
  obtain ⟨v, t, hv, ht, hdevice, hsegment, hreceived, hmap⟩ := h
  obtain ⟨-, hall, -, -⟩ := hsafe.step hstep
  obtain ⟨v', t', hv', ht', hkept⟩ := hall.kept sub v t hv ht
  have hreg := (Hub.view_eq_some.mp hv).2
  have hreg' := (Hub.view_eq_some.mp hv').2
  refine ⟨v', t', hv', ht', hkept.device.trans hdevice, hkept.segment (htaken v hv) hsegment,
    (hkept.received hreceive).trans hreceived, ?_⟩
  cases hv2' : v'.2 with
  | true =>
    -- Still in the map, so it was there before.
    have hv2 := hkept.stays hv2'
    rw [hv2] at hmap
    obtain ⟨-, rfl⟩ := hmap.resolve_right (by simp)
    refine .inl ⟨rfl, ?_⟩
    cases a <;> simp [evicts, hreg', hv2']
  | false =>
    refine .inr ⟨rfl, ?_⟩
    rcases hmap with ⟨hv2, -⟩ | ⟨-, rfl⟩
    · rcases hkept.leaves hv2 hv2' with rfl | rfl | hover
      · simp [evicts, hreg, hreg', hv2, hv2']
      · have hfalse := hunsubscribe rfl
        rw [hreg, hv2] at hfalse
        cases hfalse
      · exact absurd hover (htaken v hv)
    · rfl

/-- The value that is received extends what the consumer has; a closed channel means an eviction. -/
theorem Follows.receive (h : Follows hub sub device written overflowed) (hsafe : hub.Safe)
    {r : Received (LiveEvent σ)} {h' : Hub δ σ} (hrun : hub.hub.receive sub = some (r, h'))
    (hstep : hub.step (.receive sub) = some hub') :
    (∀ e, r = .value e → Follows hub' sub device (written ++ [e]) overflowed) ∧
      (r = .closed → overflowed = true) := by
  obtain ⟨v, t, hv, ht, hdevice, hsegment, hreceived, hmap⟩ := h
  obtain ⟨-, -, -, -, v₀, v₁, hv₀, hv₁, -, -, -, hreg, htaken⟩ :=
    Hub.receive_spec hsafe.sound hrun
  obtain rfl : v₀ = v := Option.some.inj (hv₀.symm.trans hv)
  constructor
  · rintro e rfl
    obtain ⟨-, hall, -, -⟩ := hsafe.step hstep
    obtain ⟨v', t', hv', ht', hkept⟩ := hall.kept sub v₀ t hv ht
    rw [HubState.step, hsafe.panicked, if_neg (by simp), HubState.next, hrun] at hstep
    cases hstep
    obtain rfl : v₁ = v' := Option.some.inj (hv₁.symm.trans hv')
    have hmodify : (hub.traces.modify sub fun t => { t with received := t.received ++ [e] })[sub]? =
      some t' := ht'
    rw [List.getElem?_modify_eq, ht] at hmodify
    have hvalue : t'.received = t.received ++ [e] := by
      rw [← Option.some.inj hmodify]
    refine ⟨v₁, t', hv', ht', hkept.device.trans hdevice, hkept.segment ?_ hsegment, ?_, ?_⟩
    · rintro ⟨-, hsubscribe, -⟩
      cases hsubscribe
    · rw [hvalue, hreceived]
    · rw [hreg]
      exact hmap
  · rintro rfl
    rcases htaken with ⟨e, hr, -⟩ | ⟨-, hclosed, -⟩
    · cases hr
    · rcases hmap with ⟨hv2, -⟩ | ⟨-, hoverflowed⟩
      · -- A subscription in the map is open.
        obtain ⟨hs, hb⟩ := Hub.view_eq_some.mp hv
        rw [hv2, Hub.registered_iff hs] at hb
        obtain ⟨w, hw, -, -, hopen, -⟩ := hsafe.sound _ _ _ hb
        obtain rfl : v₀.1 = w := Option.some.inj (hs.symm.trans hw)
        rw [hclosed] at hopen
        cases hopen
      · exact hoverflowed

end

/-! ### Stages of the writer -/

omit [DecidableEq δ] in
theorem not_open_of_ended {s : StreamState δ σ} {reason : StreamEnd} (h : s.writer = .ended reason) :
    ¬ s.Open := fun hopen => hopen.1 reason h

omit [DecidableEq δ] in
theorem open_of_looping {s : StreamState δ σ} (h : s.writer = .looping) : s.Open := by
  rw [Open, h]
  exact ⟨by simp, by simp⟩

theorem evicts_of_ne {before after : HubState δ σ} {sub : Nat} {a : HubAction δ σ}
    (h : a ≠ .offer) : evicts before after sub a = false := by
  cases a <;> first | rfl | exact absurd rfl h

theorem Consistent.of_installed {handler : HandlerStage} {writer writer' : WriterStage}
    (h : Consistent handler writer) (hwriter : writer ≠ .notInstalled)
    (hwriter' : writer' ≠ .notInstalled) : Consistent handler writer' := by
  cases handler with
  | preparing => exact absurd h hwriter
  | streaming => exact hwriter'
  | returned => trivial

section
variable {device : δ} {s t : StreamState δ σ}

/-! ### One lemma for each kind of step -/

/-- A step of the handler or the writer that leaves the hub alone. -/
theorem Inv.of_same_hub (h : Inv device s) (hhub : t.hub = s.hub) (hsub : t.sub = s.sub)
    (hstages : Consistent t.handler t.writer)
    (hended : t.writer = .ended .closed → t.overflowed = true) (hwritten : t.written = s.written)
    (hoverflowed : t.overflowed = s.overflowed) (hopen : t.Open → s.Open) : Inv device t where
  safe := by rw [hhub]; exact h.safe
  stages := hstages
  ended := hended
  follows := by
    intro ht
    rw [hhub, hsub, hwritten, hoverflowed]
    exact h.follows (hopen ht)

/-- A step of the writer that draws an id for what it writes. -/
theorem Inv.nextID (h : Inv device s) {hub : HubState δ σ} (hstep : s.hub.step .nextID = some hub)
    {writer : WriterStage} (hwriter : writer = .looping ∨ writer = .ended .failed)
    (hs : s.Open) (hinstalled : s.writer ≠ .notInstalled) :
    Inv device { s with hub, writer } := by
  refine ⟨(h.safe.step hstep).1, h.stages.of_installed hinstalled ?_, fun hended => ?_,
    fun _ => ?_⟩
  · rcases hwriter with rfl | rfl <;> simp
  · have hended : writer = .ended .closed := hended
    rcases hwriter with rfl | rfl <;> cases hended
  · have hfollows := (h.follows hs).step h.safe hstep (by simp)
      (fun v _ htaken => by cases htaken.2.1) (by simp)
    rw [evicts_of_ne (by simp), Bool.or_false] at hfollows
    exact hfollows

/-- The deferred call, where it does not disturb an open stream. -/
theorem Inv.runDeferred (h : Inv device s) (hstep : s.runDeferred = some t)
    (hquiet : t.Open → s.Open ∧ s.registered = false) : Inv device t := by
  rw [StreamState.runDeferred] at hstep
  obtain ⟨hub, hhub, ht⟩ := Option.bind_eq_some_iff.mp hstep
  obtain rfl := Option.some.inj ht
  refine ⟨(h.safe.step hhub).1, trivial, h.ended, fun hopen => ?_⟩
  obtain ⟨hs, hreg⟩ := hquiet hopen
  have hfollows := (h.follows hs).step h.safe hhub (by simp)
    (fun v _ htaken => by cases htaken.2.1) fun _ => hreg
  rw [evicts_of_ne (by simp), Bool.or_false] at hfollows
  exact hfollows

/-- The writer's iteration on its channel. -/
theorem Inv.stepEvent (h : Inv device s) {write : Bool} (hwriter : s.writer = .looping)
    (hstep : s.stepEvent write = some t) : Inv device t := by
  have hs := open_of_looping hwriter
  have hstages : ∀ {writer}, writer ≠ .notInstalled → Consistent s.handler writer :=
    h.stages.of_installed (by rw [hwriter]; simp)
  rw [StreamState.stepEvent] at hstep
  obtain ⟨⟨r, h'⟩, hrun, hstep⟩ := Option.bind_eq_some_iff.mp hstep
  obtain ⟨hub, hhub, hstep⟩ := Option.bind_eq_some_iff.mp hstep
  obtain ⟨hvalue, hclosed⟩ := (h.follows hs).receive h.safe hrun hhub
  have hsafe := (h.safe.step hhub).1
  cases r with
  | closed =>
    obtain rfl := Option.some.inj hstep
    exact ⟨hsafe, hstages (by simp), fun _ => hclosed rfl,
      fun hopen => absurd hopen (not_open_of_ended rfl)⟩
  | value e =>
    cases write with
    | true =>
      obtain rfl := Option.some.inj hstep
      refine ⟨hsafe, h.stages, fun hended => ?_, fun _ => hvalue e rfl⟩
      rw [show _ = s.writer from rfl, hwriter] at hended
      cases hended
    | false =>
      obtain rfl := Option.some.inj hstep
      exact ⟨hsafe, hstages (by simp), fun hended => (by cases hended),
        fun hopen => absurd hopen (not_open_of_ended rfl)⟩

/-- A step of the hub that is not the handler's own. -/
theorem Inv.stepHub {a : HubAction δ σ} (h : Inv device s) (hforeign : s.foreign a = true)
    (hstep : s.stepHub a = some t) (hquiet : s.Undisturbed (.hub a)) : Inv device t := by
  rw [StreamState.stepHub] at hstep
  obtain ⟨hub, hhub, ht⟩ := Option.bind_eq_some_iff.mp hstep
  obtain rfl := Option.some.inj ht
  refine ⟨(h.safe.step hhub).1, h.stages, fun hended => ?_, fun hopen => ?_⟩
  · show (s.overflowed || _) = true
    rw [h.ended hended]
    rfl
  · refine (h.follows hopen).step h.safe hhub ?_ (hquiet hopen) ?_
    · rintro rfl
      simp [foreign] at hforeign
    · rintro rfl
      simp [foreign] at hforeign

/-- The handler installs the writer, or unsubscribes because its read failed. -/
theorem Inv.snapshot {read : Bool} (h : Inv device s) (hpreparing : s.handler = .preparing)
    (hstep : (if read then some { s with handler := .streaming, writer := .installed }
      else s.runDeferred) = some t) : Inv device t := by
  have hwriter : s.writer = .notInstalled := by
    have hstages := h.stages
    rw [hpreparing] at hstages
    exact hstages
  split at hstep
  next =>
    obtain rfl := Option.some.inj hstep
    refine h.of_same_hub rfl rfl (by simp [Consistent]) (fun h => by cases h) rfl rfl fun _ => ?_
    rw [Open, hwriter, hpreparing]
    exact ⟨by simp, by simp⟩
  next =>
    refine h.runDeferred hstep fun hopen => ?_
    rw [StreamState.runDeferred] at hstep
    obtain ⟨hub, hhub, ht⟩ := Option.bind_eq_some_iff.mp hstep
    obtain rfl := Option.some.inj ht
    exact absurd ⟨rfl, hwriter⟩ hopen.2

/-- The handler returns while its writer is installed. -/
theorem Inv.handlerReturn (h : Inv device s) (hstreaming : s.handler = .streaming)
    (hstep : s.runDeferred = some t) (hquiet : s.Undisturbed .handlerReturn) : Inv device t := by
  refine h.runDeferred hstep fun hopen => ?_
  have hs : s.Open := by
    rw [StreamState.runDeferred] at hstep
    obtain ⟨hub, hhub, ht⟩ := Option.bind_eq_some_iff.mp hstep
    obtain rfl := Option.some.inj ht
    refine ⟨hopen.1, fun hreturned => ?_⟩
    rw [hstreaming] at hreturned
    cases hreturned.1
  exact ⟨hs, hquiet hs⟩

/-- The writer goes on or ends, and takes nothing from the channel. -/
theorem Inv.ofWriter (h : Inv device s) (hwriter : s.writer = .looping) {writer : WriterStage}
    (hinstalled : writer ≠ .notInstalled) (hended : writer ≠ .ended .closed) :
    Inv device { s with writer } :=
  h.of_same_hub rfl rfl (h.stages.of_installed (by rw [hwriter]; simp) hinstalled)
    (fun h => absurd h hended) rfl rfl fun _ => open_of_looping hwriter

/-- The writer draws an id for what it writes. -/
theorem Inv.writesSnapshot {write : Bool} (h : Inv device s) (hinstalled : s.writer ≠ .notInstalled)
    (hopen : s.Open) (hstep : (do
      let hub ← s.hub.step .nextID
      return { s with hub, writer := if write then .looping else .ended .failed }) = some t) :
    Inv device t := by
  obtain ⟨hub, hhub, ht⟩ := Option.bind_eq_some_iff.mp hstep
  obtain rfl := Option.some.inj ht
  refine h.nextID hhub ?_ hopen hinstalled
  cases write <;> simp

/-- The step lemma. -/
theorem Inv.step {a : StreamAction δ σ} (h : Inv device s) (hstep : s.step a = some t)
    (hquiet : s.Undisturbed a) : Inv device t := by
  cases a with
  | hub a =>
    rw [StreamState.step] at hstep
    split at hstep
    next hforeign => exact h.stepHub hforeign hstep hquiet
    next => cases hstep
  | snapshot read =>
    rw [StreamState.step] at hstep
    split at hstep
    next => cases hstep
    next hpreparing => exact h.snapshot (not_not.mp hpreparing) hstep
  | handlerReturn =>
    rw [StreamState.step] at hstep
    split at hstep
    next => cases hstep
    next hstreaming => exact h.handlerReturn (not_not.mp hstreaming) hstep hquiet
  | start write =>
    rw [StreamState.step] at hstep
    split at hstep
    next => cases hstep
    next hwriter =>
      have hwriter := not_not.mp hwriter
      refine h.writesSnapshot (by rw [hwriter]; simp) ?_ hstep
      rw [Open, hwriter]
      exact ⟨by simp, by simp⟩
  | event write =>
    rw [StreamState.step] at hstep
    split at hstep
    next => cases hstep
    next hwriter => exact h.stepEvent (not_not.mp hwriter) hstep
  | keepalive write =>
    rw [StreamState.step] at hstep
    split at hstep
    next => cases hstep
    next hwriter =>
      obtain rfl := Option.some.inj hstep
      exact h.ofWriter (not_not.mp hwriter) (by cases write <;> simp) (by cases write <;> simp)
  | presence read write =>
    rw [StreamState.step] at hstep
    split at hstep
    next => cases hstep
    next hwriter =>
      have hwriter := not_not.mp hwriter
      split at hstep
      next => exact h.writesSnapshot (by rw [hwriter]; simp) (open_of_looping hwriter) hstep
      next =>
        obtain rfl := Option.some.inj hstep
        exact h.ofWriter hwriter (by simp) (by simp)
  | disconnect =>
    obtain rfl := Option.some.inj hstep
    exact h.of_same_hub rfl rfl h.stages h.ended rfl rfl fun hopen => hopen
  | done =>
    rw [StreamState.step] at hstep
    split at hstep
    next => cases hstep
    next hready =>
      have hwriter : s.writer = .looping := by
        by_contra hne
        exact hready (.inl hne)
      obtain rfl := Option.some.inj hstep
      exact h.ofWriter hwriter (by simp) (by simp)

/-! ## Delivery is the invariant

A writer that stays in its loop writes all that is buffered, so the invariant gives delivery; a step
that the condition excludes leaves a state that does not deliver. -/

/-- An iteration with an event in the channel writes it. -/
theorem Inv.writes_event (h : Inv device s) (hwriter : s.writer = .looping) {e : LiveEvent σ}
    {rest : List (LiveEvent σ)} (hbuffered : s.buffered = e :: rest) :
    ∃ t, s.step (.event true) = some t ∧ t.writer = .looping ∧ t.written = s.written ++ [e] ∧
      t.buffered = rest := by
  obtain ⟨v, hv⟩ : ∃ v, s.hub.hub.heap[s.sub]? = some v := by
    cases hv : s.hub.hub.heap[s.sub]? with
    | some v => exact ⟨v, rfl⟩
    | none =>
      rw [buffered, hv] at hbuffered
      cases hbuffered
  rw [buffered, hv] at hbuffered
  obtain ⟨ch, hch, hrest⟩ : ∃ ch, v.ch.receive = some (.value e, ch) ∧ ch.buffer = rest :=
    Channel.receive_of_cons hbuffered
  have hrun : s.hub.hub.receive s.sub =
      some (.value e, s.hub.hub.setSub s.sub { v with ch }) := by
    rw [Hub.receive, hv]
    simp [hch, Hub.setSub]
  let hub := HubState.note { s.hub with hub := s.hub.hub.setSub s.sub { v with ch } } s.sub (.value e)
  have hhub : s.hub.step (.receive s.sub) = some hub := by
    rw [HubState.step, h.safe.panicked, if_neg (by simp), HubState.next, hrun]
  refine ⟨{ s with hub, written := s.written ++ [e] }, ?_, hwriter, rfl, ?_⟩
  · rw [StreamState.step, if_neg (by simp [hwriter]), StreamState.stepEvent, hrun, hhub]
    rfl
  · show (match (s.hub.hub.setSub s.sub { v with ch }).heap[s.sub]? with
      | some v => v.ch.buffer
      | none => []) = rest
    rw [Hub.heap_setSub_self hv]
    exact hrest

/-- The writer, left to itself, writes what is in its channel. -/
theorem Inv.writes_all : ∀ {n : Nat} {s : StreamState δ σ}, Inv device s → s.writer = .looping →
    s.buffered.length = n → ∃ t, Run StreamState.step s (List.replicate n (.event true)) t ∧
      t.written = s.written ++ s.buffered := by
  intro n
  induction n with
  | zero =>
    intro s _ _ hlen
    refine ⟨s, Run.nil_iff.mpr rfl, ?_⟩
    rw [List.eq_nil_of_length_eq_zero hlen, List.append_nil]
  | succ n ih =>
    intro s h hwriter hlen
    obtain ⟨e, rest, hbuffered⟩ := List.exists_cons_of_length_eq_add_one hlen
    obtain ⟨u, hu, hlooping, hwritten, hrest⟩ := h.writes_event hwriter hbuffered
    have hrestLen : u.buffered.length = n := by
      rw [hbuffered, List.length_cons] at hlen
      rw [hrest]
      omega
    obtain ⟨t, ht, hall⟩ := ih (h.step hu trivial) hlooping hrestLen
    refine ⟨t, Run.cons_iff.mpr ⟨u, hu, ht⟩, ?_⟩
    rw [hall, hwritten, hrest, hbuffered, List.append_assoc]
    rfl

theorem Inv.delivers (h : Inv device s) : Delivers device s := by
  have hbuffered : s.Open → s.written ++ s.buffered = s.published device := by
    intro hopen
    obtain ⟨v, t, hv, ht, hdevice, hsegment, hreceived, -⟩ := h.follows hopen
    have hheap := (Hub.view_eq_some.mp hv).1
    have hsent := hsegment.sent
    rw [hreceived, hdevice] at hsent
    rw [buffered, published, hheap, ht]
    exact hsent
  refine ⟨fun hopen => ?_, hbuffered, fun hwriter => ?_, h.ended⟩
  · obtain ⟨v, t, hv, -, -, -, -, hmap⟩ := h.follows hopen
    rw [registered, (Hub.view_eq_some.mp hv).2]
    exact hmap.imp And.left And.right
  · obtain ⟨t, ht, hwritten⟩ := h.writes_all hwriter rfl
    exact ⟨t, ht, hwritten.trans (hbuffered (open_of_looping hwriter))⟩

/-- A step that disturbs an open stream takes it out of the hub without an overflow. -/
theorem Inv.not_delivers {a : StreamAction δ σ} (h : Inv device s) (hstep : s.step a = some t)
    (hdisturbs : ¬ s.Undisturbed a) : ¬ Delivers device t := by
  intro hdelivers
  cases a with
  | handlerReturn =>
    obtain ⟨hs, hreg⟩ := Classical.not_imp.mp hdisturbs
    obtain ⟨v, tr, hv, -, -, -, -, hmap⟩ := h.follows hs
    rw [registered, (Hub.view_eq_some.mp hv).2, Bool.not_eq_false] at hreg
    -- The map held the subscription, so nothing had overflowed before the handler returned.
    obtain ⟨-, hoverflowed⟩ := hmap.resolve_right (by rw [hreg]; simp)
    rw [StreamState.step] at hstep
    split at hstep
    next => cases hstep
    next hstreaming =>
      have hinstalled : s.writer ≠ .notInstalled := by
        have hstages := h.stages
        rw [not_not.mp hstreaming] at hstages
        exact hstages
      rw [StreamState.runDeferred] at hstep
      obtain ⟨hub, hhub, ht⟩ := Option.bind_eq_some_iff.mp hstep
      obtain rfl := Option.some.inj ht
      obtain ⟨v', hv', hleft⟩ := h.safe.unsubscribe_leaves hhub hv hreg
      rcases hdelivers.registered ⟨hs.1, fun h => hinstalled h.2⟩ with hstill | hover
      · rw [registered, (Hub.view_eq_some.mp hv').2, hleft] at hstill
        cases hstill
      · rw [show _ = s.overflowed from rfl, hoverflowed] at hover
        cases hover
  | hub a =>
    obtain ⟨hs, htaken⟩ := Classical.not_imp.mp hdisturbs
    simp only [not_forall, not_not] at htaken
    obtain ⟨v, hv, htaken⟩ := htaken
    obtain ⟨w, tr, hw, -, -, -, -, hmap⟩ := h.follows hs
    obtain rfl : v = w := Option.some.inj (hv.symm.trans hw)
    -- The key of the subscription goes to a new one without an overflow.
    obtain ⟨-, hoverflowed⟩ := hmap.resolve_right (by rw [htaken.1]; simp)
    obtain rfl := htaken.2.1
    obtain ⟨hub, hhub, ht⟩ := Option.bind_eq_some_iff.mp hstep
    obtain rfl := Option.some.inj ht
    rw [HubState.step, h.safe.panicked, if_neg (by simp)] at hhub
    obtain ⟨-, -, -, htakes, -⟩ := h.safe.subscribe hhub
    obtain ⟨v', hv', hleft⟩ := htakes s.sub v hv htaken
    rcases hdelivers.registered hs with hstill | hover
    · rw [registered, (Hub.view_eq_some.mp hv').2, hleft] at hstill
      cases hstill
    · have hover : (s.overflowed || false) = true := hover
      rw [hoverflowed] at hover
      cases hover
  | _ => exact hdisturbs trivial

theorem Inv.of_subscribed {h : HubState δ σ} (hsafe : h.Safe)
    (hsub : subscribed h device = some s) : Inv device s := by
  obtain ⟨hub, hhub, hs⟩ := Option.bind_eq_some_iff.mp hsub
  obtain rfl := Option.some.inj hs
  have hsafe' := (hsafe.step hhub).1
  rw [HubState.step, hsafe.panicked, if_neg (by simp)] at hhub
  obtain ⟨-, -, ⟨v, t, hv, ht, rfl, rfl, hsegment⟩, -⟩ := hsafe.subscribe hhub
  exact ⟨hsafe', rfl, fun hended => (by cases hended),
    fun _ => ⟨_, _, hv, ht, rfl, hsegment, rfl, .inl ⟨rfl, rfl⟩⟩⟩

end

/-- In a run of a stream next to any other users of the hub, every state reached delivers exactly
when no step disturbs the stream while it is open: its handler returns only after its writer has
ended, or after the hub has evicted it. -/
theorem stream_delivers_iff {bs : List (HubAction δ σ)} {h : HubState δ σ} {device : δ}
    {as : List (StreamAction δ σ)} {s₀ s : StreamState δ σ} (hhub : Run HubState.step .new bs h)
    (hsub : subscribed h device = some s₀) (hrun : Run StreamState.step s₀ as s) :
    (∀ cs t, cs <+: as → Run StreamState.step s₀ cs t → Delivers device t) ↔
      Along StreamState.step Undisturbed s₀ as :=
  hrun.all_good_iff (Inv device) (Delivers device) (fun _ hs => hs.delivers)
    (fun _ _ _ hs hstep hquiet => hs.step hstep hquiet)
    (fun _ _ _ hs hstep hdisturbs => hs.not_delivers hstep hdisturbs)
    (.of_subscribed (HubState.reached_of_run hhub).safe hsub)

/-- Every step but the handler's return and a subscription is undisturbed by its kind alone. -/
def quiet : StreamAction δ σ → Bool
  | .handlerReturn | .hub (.subscribe _) => false
  | _ => true

theorem undisturbed_of_quiet {a : StreamAction δ σ} (h : quiet a = true) (s : StreamState δ σ) :
    s.Undisturbed a := by
  cases a with
  | handlerReturn => cases h
  | hub a =>
    rintro - v - htaken
    rw [htaken.2.1] at h
    cases h
  | _ => trivial

/-- One event is written, and the client leaves before the handler has returned. -/
def earlyLeave : List (StreamAction Nat Nat) :=
  [.snapshot true, .start true, .hub (.draw 7 "location" 40), .hub (.acquire 0 [1]),
    .hub .offer, .hub .release, .event true, .disconnect, .done]

theorem stream_delivers_early_leave : ∃ s₀ s, subscribed (.new : HubState Nat Nat) 7 = some s₀ ∧
    Run StreamState.step s₀ (earlyLeave ++ [.handlerReturn]) s ∧
    s.written.map LiveEvent.snapshot = [40] ∧
    ∀ cs t, cs <+: earlyLeave ++ [.handlerReturn] → Run StreamState.step s₀ cs t →
      Delivers 7 t := by
  obtain ⟨s₀, hsub⟩ : ∃ s₀, subscribed (.new : HubState Nat Nat) 7 = some s₀ := ⟨_, rfl⟩
  obtain ⟨s, hrun, hwritten⟩ := Option.map_eq_some_iff.mp (show
    ((earlyLeave ++ [StreamAction.handlerReturn]).foldlM StreamState.step s₀).map
      (fun s : StreamState Nat Nat => s.written.map LiveEvent.snapshot) = some [40] by
    obtain rfl := Option.some.inj hsub
    decide +kernel)
  have hended : (earlyLeave.foldlM StreamState.step s₀).map (·.writer) =
      some (.ended .disconnected) := by
    obtain rfl := Option.some.inj hsub
    decide +kernel
  have hnew : Run HubState.step (.new : HubState Nat Nat) [] .new := Run.nil_iff.mpr rfl
  refine ⟨s₀, s, hsub, hrun, hwritten, (stream_delivers_iff hnew hsub hrun).mpr ?_⟩
  have hquiet : ∀ a ∈ earlyLeave, quiet a = true := by decide
  refine Along.snoc (.of_forall fun s a ha => undisturbed_of_quiet (hquiet a ha) s) ?_
  intro t ht hopen
  rw [show earlyLeave.foldlM StreamState.step s₀ = some t from ht] at hended
  exact absurd hopen (not_open_of_ended (Option.some.inj hended))

/-- The handler returns before its writer starts: the writer finds the channel closed, and an event
that is published meanwhile never reaches the client. -/
theorem stream_closed_by_return :
    ∃ s₀ s, subscribed (.new : HubState Nat Nat) 7 = some s₀ ∧
      Run StreamState.step s₀ [.snapshot true, .handlerReturn, .start true,
        .hub (.draw 7 "location" 40), .hub (.acquire 0 []), .hub .release, .event true] s ∧
      s.hub.published.map (·.2.snapshot) = [40] ∧ s.written = [] ∧ s.disconnected = false ∧
      ¬ Delivers 7 s := by
  obtain ⟨s₀, hsub⟩ : ∃ s₀, subscribed (.new : HubState Nat Nat) 7 = some s₀ := ⟨_, rfl⟩
  obtain ⟨s, hrun, hfacts⟩ := Option.map_eq_some_iff.mp (show
    (([.snapshot true, .handlerReturn, .start true, .hub (.draw 7 "location" 40),
      .hub (.acquire 0 []), .hub .release, .event true] : List (StreamAction Nat Nat)).foldlM
        StreamState.step s₀).map (fun s => decide (s.hub.published.map (·.2.snapshot) = [40] ∧
          s.written = [] ∧ s.disconnected = false ∧ s.writer = .ended .closed ∧
          s.overflowed = false)) = some true by
    obtain rfl := Option.some.inj hsub
    decide +kernel)
  obtain ⟨hpublished, hwritten, hdisconnected, hended, hoverflowed⟩ := of_decide_eq_true hfacts
  refine ⟨s₀, s, hsub, hrun, hpublished, hwritten, hdisconnected, fun hdelivers => ?_⟩
  rw [hdelivers.ended hended] at hoverflowed
  cases hoverflowed

end StreamState

end OpenGps.Backend
