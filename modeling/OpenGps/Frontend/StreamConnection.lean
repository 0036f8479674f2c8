import OpenGps.Lib.Handles
import OpenGps.Frontend.DeviceSwitch

/-!
# The connection behind the live view

The effect of `useDeviceLocationStream` with its closures: an event source and two timers, which the
browser runs until they are closed or cleared, and the variables that the effect keeps their numbers
in. The callbacks of a source or a timer belong to the effect that created it, also when the page
shows another device meanwhile.

* `stream_connection` — nothing outlives the device it was opened for, and a page that shows a
  device has one connection or one pending retry, and polls from the third failure on;
* `stream_refines_detail` — what the page shows is what `DetailPage` says.
-/

namespace OpenGps.Frontend

open OpenGps.Backend OpenGps.Lib

/-- The variables of one run of the effect. A timer that has fired keeps its number in
`retryTimer`. -/
structure StreamEffect (δ : Type) where
  deviceID : δ
  source : Option ℕ
  retryTimer : Option ℕ
  fallbackTimer : Option ℕ
  attempt : ℕ
  stopped : Bool
  deriving DecidableEq

/-- The URL of the source has the device; its listeners are closures of the effect. -/
structure EventSource (δ : Type) where
  deviceID : δ
  effect : ℕ
  deriving DecidableEq

inductive TimerCallback where
  | connect
  | refresh
  deriving DecidableEq

/-- `setTimeout` of `connect`, or `setInterval` of `refresh`. -/
structure Timer where
  effect : ℕ
  callback : TimerCallback
  delay : ℕ
  deriving DecidableEq

/-- The page with the hook; `current` is the run of the effect that has not been cleaned up, and
`refreshes` are the requests in flight. -/
structure StreamPage (δ : Type) where
  deviceID : Option δ
  mounted : Bool
  state : LiveLocationState δ
  connectionState : LiveStreamConnectionState
  error : Option String
  effects : List (StreamEffect δ)
  current : Option ℕ
  sources : Handles (EventSource δ)
  timers : Handles Timer
  refreshes : List δ

/-- `select` is a `popstate`, `retry` and `fallback` are timers that fire. -/
inductive ConnectionAction (δ : Type) where
  | select (deviceID : Option δ)
  | unmount
  | getLatestLocation
  | open (source : ℕ)
  | event (source : ℕ) (payload : Payload δ)
  | error (source : ℕ)
  | retry (timer : ℕ)
  | fallback (timer : ℕ)
  | refreshed (k : ℕ) (payload : Payload δ)

variable {δ : Type}

/-- The step of `DetailPage` that an action is. -/
def ConnectionAction.detail : ConnectionAction δ → Option (DetailAction δ)
  | .select deviceID => some (.select deviceID)
  | .unmount => none
  | .getLatestLocation => some .getLatestLocation
  | .open _ => some .open
  | .event _ payload => some (.event payload)
  | .error _ => some .sourceError
  | .retry _ => some .retry
  | .fallback _ => some .fallback
  | .refreshed k payload => some (.refreshed k payload)

def retryDelay (attempt : ℕ) : ℕ :=
  API_RETRY_DELAYS[min attempt (API_RETRY_DELAYS.length - 1)]?.getD 15000

def fallbackDelay : ℕ := 60000

namespace StreamPage

def new : StreamPage δ where
  deviceID := none
  mounted := true
  state := EMPTY_LIVE_LOCATION_STATE
  connectionState := .connecting
  error := none
  effects := []
  current := none
  sources := []
  timers := []
  refreshes := []

/-- `refresh` as the render with this device created it, up to its request. -/
def refresh (s : StreamPage δ) : Option δ → StreamPage δ
  | none => s
  | some device => { s with refreshes := s.refreshes ++ [device] }

/-- The variables of an effect after an assignment. -/
def assign (s : StreamPage δ) (e : ℕ) (f : StreamEffect δ) : StreamPage δ :=
  { s with effects := s.effects.set e f }

def connect (s : StreamPage δ) (e : ℕ) (f : StreamEffect δ) : StreamPage δ :=
  if f.stopped then s
  else
    { s with
      connectionState := if f.attempt = 0 then .connecting else .reconnecting
      sources := s.sources.acquire ⟨f.deviceID, e⟩ }.assign e
        { f with source := some s.sources.length }

def onopen (s : StreamPage δ) (e : ℕ) (f : StreamEffect δ) : StreamPage δ :=
  { s with
    connectionState := .live
    timers := s.timers.release f.fallbackTimer }.assign e
      { f with attempt := 0, fallbackTimer := none }

/-- `setInterval`, unless the page polls already. -/
def poll (s : StreamPage δ) (e : ℕ) (f : StreamEffect δ) : StreamPage δ × StreamEffect δ :=
  match f.fallbackTimer with
  | some _ => (s, f)
  | none => ({ s with timers := s.timers.acquire ⟨e, .refresh, fallbackDelay⟩ },
      { f with fallbackTimer := some s.timers.length })

def onerror (s : StreamPage δ) (e : ℕ) (f : StreamEffect δ) : StreamPage δ :=
  -- The source that is closed is the one in the variable.
  let s := { s with sources := s.sources.release f.source }
  let delay := retryDelay f.attempt
  let f := { f with source := none, attempt := f.attempt + 1 }
  let (s, f) :=
    if f.attempt ≥ 3 then { s with connectionState := .fallback }.poll e f
    else ({ s with connectionState := .reconnecting }, f)
  { s with timers := s.timers.acquire ⟨e, .connect, delay⟩ }.assign e
    { f with retryTimer := some s.timers.length }

/-- What the effect returned when it ran. -/
def cleanUp (s : StreamPage δ) : StreamPage δ :=
  match s.current with
  | none => s
  | some e =>
    match s.effects[e]? with
    | none => s
    | some f =>
      { s with
        current := none
        sources := s.sources.release f.source
        timers := (s.timers.release f.retryTimer).release f.fallbackTimer }.assign e
          { f with stopped := true }

/-- The effect after a render with a new device. -/
def start (s : StreamPage δ) : StreamPage δ :=
  let s := { s with state := EMPTY_LIVE_LOCATION_STATE }
  match s.deviceID with
  | none => s
  | some device =>
    let f : StreamEffect δ := ⟨device, none, none, none, 0, false⟩
    ({ s with effects := s.effects ++ [f], current := some s.effects.length }.refresh
      (some device)).connect s.effects.length f

section
variable [DecidableEq δ] (localeCompare : String → String → Ordering)

def receive (s : StreamPage δ) (invalid : String) : Payload δ → StreamPage δ
  | .snapshot value =>
    { s with
      state := reduceLiveLocation localeCompare s.state value LIVE_ROUTE_MAX_POINTS
      error := none }
  | .invalid => { s with error := some invalid }
  | .failed message => { s with error := some message }

/-- The listener of a source of an effect. -/
def handle (s : StreamPage δ) (f : StreamEffect δ) (payload : Payload δ) : StreamPage δ :=
  let s := s.receive localeCompare "Invalid live stream event" payload
  match payload with
  | .snapshot _ => s
  | _ => s.refresh (some f.deviceID)

/-- A source that is closed and a timer that is cleared call nothing; a page that is gone has no
state to set. -/
def step (s : StreamPage δ) : ConnectionAction δ → Option (StreamPage δ)
  | .select deviceID => do
    guard s.mounted
    return if deviceID = s.deviceID then s else { s.cleanUp with deviceID }.start
  | .unmount => do
    guard s.mounted
    return { s.cleanUp with mounted := false }
  | .getLatestLocation => do
    guard s.mounted
    return s.refresh s.deviceID
  | .open source => do
    let x ← s.sources.get? source
    let f ← s.effects[x.effect]?
    return s.onopen x.effect f
  | .event source payload => do
    let x ← s.sources.get? source
    let f ← s.effects[x.effect]?
    guard (payload.FromDevice x.deviceID)
    return s.handle localeCompare f payload
  | .error source => do
    let x ← s.sources.get? source
    let f ← s.effects[x.effect]?
    return s.onerror x.effect f
  | .retry timer => do
    let x ← s.timers.get? timer
    let f ← s.effects[x.effect]?
    guard (x.callback = .connect)
    return { s with timers := s.timers.release (some timer) }.connect x.effect f
  | .fallback timer => do
    let x ← s.timers.get? timer
    let f ← s.effects[x.effect]?
    guard (x.callback = .refresh)
    return s.refresh (some f.deviceID)
  | .refreshed k payload => do
    let device ← s.refreshes[k]?
    guard (payload.FromDevice device)
    guard s.mounted
    return { s with refreshes := s.refreshes.eraseIdx k }.receive localeCompare
      "Invalid live location response" payload

end

/-! ## What is open -/

/-- The devices of the open sources. -/
def connections (s : StreamPage δ) : List δ := s.sources.live.filterMap fun x => some x.deviceID

/-- The delays of the timers that will call this back. -/
def delays (s : StreamPage δ) (callback : TimerCallback) : List ℕ :=
  s.timers.live.filterMap fun x => if x.callback = callback then some x.delay else none

/-! ## The variables tell what is open -/

/-- What the page may say of a connection after so many failures. -/
def Label (attempt : ℕ) : (isOpen : Bool) → LiveStreamConnectionState → Prop
  | true, label =>
    if attempt = 0 then label = .connecting ∨ label = .live else label = .reconnecting
  | false, label => label = if 3 ≤ attempt then .fallback else .reconnecting

/-- The effect `e` is the one that runs, and the browser holds what its variables name: the source,
or the retry when there is none, and the polling. -/
structure Running (s : StreamPage δ) (e : ℕ) (f : StreamEffect δ) : Prop where
  current : s.current = some e
  effect : s.effects[e]? = some f
  device : s.deviceID = some f.deviceID
  mounted : s.mounted = true
  stopped : f.stopped = false
  sources : ∀ k x, s.sources.get? k = some x ↔ f.source = some k ∧ x = ⟨f.deviceID, e⟩
  timers : ∀ t x, s.timers.get? t = some x ↔
    f.source = none ∧ f.retryTimer = some t ∧ x = ⟨e, .connect, retryDelay (f.attempt - 1)⟩ ∨
      f.fallbackTimer = some t ∧ x = ⟨e, .refresh, fallbackDelay⟩
  retry : f.source = none → f.retryTimer.isSome ∧ 0 < f.attempt
  fallback : f.fallbackTimer.isSome ↔ 3 ≤ f.attempt
  label : Label f.attempt f.source.isSome s.connectionState

/-- No effect runs, and the browser holds nothing. -/
structure Closed (s : StreamPage δ) : Prop where
  current : s.current = none
  sources : ∀ k, s.sources.get? k = none
  timers : ∀ t, s.timers.get? t = none

variable {s : StreamPage δ} {e : ℕ} {f : StreamEffect δ}

/-- The effect `e` with these variables has no connection, and nothing but the polling is left. -/
structure Between (s : StreamPage δ) (e : ℕ) (f : StreamEffect δ) : Prop where
  current : s.current = some e
  lt : e < s.effects.length
  device : s.deviceID = some f.deviceID
  mounted : s.mounted = true
  stopped : f.stopped = false
  sources : ∀ k, s.sources.get? k = none
  timers : ∀ t x, s.timers.get? t = some x ↔
    f.fallbackTimer = some t ∧ x = ⟨e, .refresh, fallbackDelay⟩

theorem Between.connect (h : s.Between e f) (hfallback : f.fallbackTimer.isSome ↔ 3 ≤ f.attempt) :
    (s.connect e f).Running e { f with source := some s.sources.length } := by
  rw [StreamPage.connect, if_neg (by rw [h.stopped]; decide)]
  constructor
  case current => exact h.current
  case effect => exact List.getElem?_set_self h.lt
  case device => exact h.device
  case mounted => exact h.mounted
  case stopped => exact h.stopped
  case sources =>
    intro k x
    show (s.sources.acquire _).get? k = some x ↔ _
    rw [Handles.get?_acquire, h.sources]
    by_cases hk : k = s.sources.length
    · subst hk
      simp [eq_comm]
    · simp [hk, Ne.symm hk]
  case timers => simpa [assign] using h.timers
  case retry => exact fun hnone => (Option.some_ne_none _ hnone).elim
  case fallback => exact hfallback
  case label => by_cases hattempt : f.attempt = 0 <;> simp [Label, assign, hattempt]

/-- The timer of the next connection. -/
theorem Between.wait (h : s.Between e f) (hfallback : f.fallbackTimer.isSome ↔ 3 ≤ f.attempt)
    (hsource : f.source = none) (hattempt : 0 < f.attempt)
    (hlabel : Label f.attempt false s.connectionState) :
    ({ s with timers := s.timers.acquire ⟨e, .connect, retryDelay (f.attempt - 1)⟩ }.assign e
      { f with retryTimer := some s.timers.length }).Running e
        { f with retryTimer := some s.timers.length } := by
  constructor
  case current => exact h.current
  case effect => exact List.getElem?_set_self h.lt
  case device => exact h.device
  case mounted => exact h.mounted
  case stopped => exact h.stopped
  case sources => simp [assign, h.sources, hsource]
  case timers =>
    intro t x
    show (s.timers.acquire _).get? t = some x ↔ _
    rw [Handles.get?_acquire]
    by_cases ht : t = s.timers.length
    · -- The number is new, so it is not the one of the polling.
      have hnew : f.fallbackTimer ≠ some t := by
        intro hold
        have hlt := Handles.lt_of_get? ((h.timers t _).mpr ⟨hold, rfl⟩)
        omega
      subst ht
      simp [hsource, hnew, eq_comm]
    · simp [ht, Ne.symm ht, h.timers]
  case retry => exact fun _ => ⟨rfl, hattempt⟩
  case fallback => exact hfallback
  case label =>
    rw [hsource]
    exact hlabel

theorem Between.poll (h : s.Between e f) : (s.poll e f).1.Between e (s.poll e f).2 := by
  unfold StreamPage.poll
  split
  · exact h
  · next hnone =>
    refine { h with timers := fun t x => ?_ }
    show (s.timers.acquire _).get? t = some x ↔ _
    rw [Handles.get?_acquire]
    by_cases ht : t = s.timers.length
    · subst ht
      simp [eq_comm]
    · simp [ht, Ne.symm ht, h.timers, hnone]

theorem poll_eq (s : StreamPage δ) (e : ℕ) (f : StreamEffect δ) : ∃ timers t,
    s.poll e f = ({ s with timers }, { f with fallbackTimer := some t }) := by
  obtain ⟨deviceID, source, retryTimer, fallbackTimer, attempt, stopped⟩ := f
  cases fallbackTimer with
  | some t => exact ⟨s.timers, t, rfl⟩
  | none => exact ⟨_, _, rfl⟩

theorem Running.cleanUp_eq (h : s.Running e f) :
    s.cleanUp = { s with
      current := none
      sources := s.sources.release f.source
      timers := (s.timers.release f.retryTimer).release f.fallbackTimer }.assign e
        { f with stopped := true } := by
  rw [StreamPage.cleanUp, h.current]
  simp only [h.effect]

/-- The source and the timers of the effect are all there are. -/
theorem Running.cleanUp (h : s.Running e f) : s.cleanUp.Closed := by
  rw [h.cleanUp_eq]
  refine ⟨rfl, fun k => ?_, fun t => ?_⟩
  · show (s.sources.release f.source).get? k = none
    rw [Handles.get?_release]
    split
    · rfl
    · next hk =>
      rw [Option.eq_none_iff_forall_ne_some]
      exact fun x hx => hk ((h.sources k x).mp hx).1
  · show ((s.timers.release f.retryTimer).release f.fallbackTimer).get? t = none
    rw [Handles.get?_release, Handles.get?_release]
    split
    · rfl
    · next hfallback =>
      split
      · rfl
      · next hretry =>
        rw [Option.eq_none_iff_forall_ne_some]
        intro x hx
        rcases (h.timers t x).mp hx with ⟨-, ht, -⟩ | ⟨ht, -⟩
        · exact hretry ht
        · exact hfallback ht

theorem Closed.cleanUp_eq (h : s.Closed) : s.cleanUp = s := by
  rw [StreamPage.cleanUp, h.current]

/-- The effect of a page with a device. -/
theorem Closed.start (h : s.Closed) (hmounted : s.mounted = true) {device : δ}
    (hdevice : s.deviceID = some device) :
    s.start.Running s.effects.length
      ⟨device, some s.sources.length, none, none, 0, false⟩ := by
  unfold StreamPage.start
  simp only [hdevice]
  refine Between.connect (f := ⟨device, none, none, none, 0, false⟩) ?_ ?_
  · refine ⟨rfl, ?_, rfl, hmounted, rfl, h.sources, fun t x => ?_⟩
    · simp [refresh]
    · simp [refresh, h.timers]
  · simp

theorem Running.lt (h : s.Running e f) : e < s.effects.length :=
  (List.getElem?_eq_some_iff.mp h.effect).1

/-! ### The events of the source and the timers -/

theorem Running.onopen {k : ℕ} (h : s.Running e f) (hsource : f.source = some k) :
    (s.onopen e f).Running e { f with attempt := 0, fallbackTimer := none } := by
  constructor
  case current => exact h.current
  case effect => exact List.getElem?_set_self h.lt
  case device => exact h.device
  case mounted => exact h.mounted
  case stopped => exact h.stopped
  case sources => exact h.sources
  case timers =>
    intro t x
    show (s.timers.release f.fallbackTimer).get? t = some x ↔ _
    rw [Handles.get?_release]
    by_cases ht : f.fallbackTimer = some t
    · simp [ht, hsource]
    · simp [ht, h.timers, hsource]
  case retry => exact fun hnone => (Option.some_ne_none k (hsource.symm.trans hnone)).elim
  case fallback => simp
  case label => simp [Label, hsource, StreamPage.onopen, assign]

/-- The source of the effect has failed. -/
theorem Running.disconnect {k : ℕ} (h : s.Running e f) (hsource : f.source = some k)
    (label : LiveStreamConnectionState) :
    Between { s with sources := s.sources.release f.source, connectionState := label } e
      { f with source := none, attempt := f.attempt + 1 } := by
  refine ⟨h.current, h.lt, h.device, h.mounted, h.stopped, fun j => ?_, fun t x => ?_⟩
  · show (s.sources.release f.source).get? j = none
    rw [Handles.get?_release]
    split
    · rfl
    · next hj =>
      rw [Option.eq_none_iff_forall_ne_some]
      exact fun x hx => hj ((h.sources j x).mp hx).1
  · simp [h.timers, hsource]

/-- What a failure leaves the effect with. -/
structure Failed (f g : StreamEffect δ) : Prop where
  deviceID : g.deviceID = f.deviceID
  source : g.source = none
  attempt : g.attempt = f.attempt + 1
  fallback : g.fallbackTimer.isSome = (f.fallbackTimer.isSome || decide (f.attempt + 1 ≥ 3))

theorem Running.onerror {k : ℕ} (h : s.Running e f) (hsource : f.source = some k) :
    ∃ g, (s.onerror e f).Running e g ∧ Failed f g := by
  have hfallback := h.fallback
  unfold StreamPage.onerror
  by_cases hpolls : f.attempt + 1 ≥ 3
  · have hbetween := (h.disconnect hsource .fallback).poll
    obtain ⟨timers, t, hpoll⟩ := poll_eq
      { s with sources := s.sources.release f.source, connectionState := .fallback } e
      { f with source := none, attempt := f.attempt + 1 }
    rw [hpoll] at hbetween
    simp only [hpolls, if_true, hpoll]
    refine ⟨_, hbetween.wait ⟨fun _ => hpolls, fun _ => rfl⟩ rfl (Nat.succ_pos _) ?_,
      rfl, rfl, rfl, ?_⟩
    · exact (if_pos hpolls).symm
    · simp [hpolls]
  · have hnone : ¬ f.fallbackTimer.isSome := by
      intro hsome
      have hthree := hfallback.mp hsome
      omega
    simp only [if_neg hpolls]
    refine ⟨_, (h.disconnect hsource .reconnecting).wait ?_ rfl (Nat.succ_pos _) ?_,
      rfl, rfl, rfl, ?_⟩
    · exact ⟨fun hsome => absurd hsome hnone, fun hthree => absurd hthree hpolls⟩
    · exact (if_neg hpolls).symm
    · simp [hpolls]

theorem onerror_eq (s : StreamPage δ) (e : ℕ) (f : StreamEffect δ) : ∃ timers effects,
    s.onerror e f = { s with
      connectionState := if f.attempt + 1 ≥ 3 then .fallback else .reconnecting
      effects
      sources := s.sources.release f.source
      timers } := by
  unfold StreamPage.onerror
  by_cases hpolls : f.attempt + 1 ≥ 3
  · obtain ⟨timers, t, hpoll⟩ := poll_eq
      { s with sources := s.sources.release f.source, connectionState := .fallback } e
      { f with source := none, attempt := f.attempt + 1 }
    simp only [hpolls, if_true, hpoll]
    exact ⟨_, _, rfl⟩
  · simp only [if_neg hpolls]
    exact ⟨_, _, rfl⟩

/-- The retry has fired. -/
theorem Running.fired {t : ℕ} (h : s.Running e f) (hsource : f.source = none)
    (htimer : f.retryTimer = some t) :
    Between { s with timers := s.timers.release (some t) } e f := by
  refine ⟨h.current, h.lt, h.device, h.mounted, h.stopped, fun k => ?_, fun j x => ?_⟩
  · rw [Option.eq_none_iff_forall_ne_some]
    intro x hx
    cases hsource.symm.trans ((h.sources k x).mp hx).1
  · show (s.timers.release (some t)).get? j = some x ↔ _
    rw [Handles.get?_release]
    by_cases hj : some t = some j
    · obtain rfl := Option.some.inj hj
      -- One number is not both timers.
      have hother : f.fallbackTimer ≠ some t := by
        intro hsame
        have hretry := (h.timers t _).mpr (.inl ⟨hsource, htimer, rfl⟩)
        have hpolling := (h.timers t _).mpr (.inr ⟨hsame, rfl⟩)
        cases hretry.symm.trans hpolling
      simp [hother]
    · rw [if_neg hj, h.timers, htimer]
      simp [hj]

/-! ### What the page counts -/

theorem Running.connections_eq (h : s.Running e f) :
    s.connections = if f.source.isSome then [f.deviceID] else [] := by
  unfold connections
  cases hsource : f.source with
  | none =>
    refine Handles.filterMap_live_eq_nil fun k x hx => ?_
    cases hsource.symm.trans ((h.sources k x).mp hx).1
  | some k =>
    refine Handles.filterMap_live_eq_singleton ((h.sources k _).mpr ⟨hsource, rfl⟩) rfl ?_
    intro j x hx hne
    exact absurd (Option.some.inj (hsource.symm.trans ((h.sources j x).mp hx).1)).symm hne

theorem Running.retries_eq (h : s.Running e f) :
    s.delays .connect = if f.source.isSome then [] else [retryDelay (f.attempt - 1)] := by
  unfold delays
  cases hsource : f.source with
  | some k =>
    refine Handles.filterMap_live_eq_nil fun t x hx => ?_
    rcases (h.timers t x).mp hx with ⟨hnone, -, -⟩ | ⟨-, rfl⟩
    · cases hsource.symm.trans hnone
    · rfl
  | none =>
    obtain ⟨t, ht⟩ := Option.isSome_iff_exists.mp (h.retry hsource).1
    refine Handles.filterMap_live_eq_singleton ((h.timers t _).mpr (.inl ⟨hsource, ht, rfl⟩)) rfl ?_
    intro j x hx hne
    rcases (h.timers j x).mp hx with ⟨-, hj, -⟩ | ⟨-, rfl⟩
    · exact absurd (Option.some.inj (ht.symm.trans hj)).symm hne
    · rfl

theorem Running.polls_eq (h : s.Running e f) :
    s.delays .refresh = if f.fallbackTimer.isSome then [fallbackDelay] else [] := by
  unfold delays
  cases hpolls : f.fallbackTimer with
  | none =>
    refine Handles.filterMap_live_eq_nil fun t x hx => ?_
    rcases (h.timers t x).mp hx with ⟨-, -, rfl⟩ | ⟨hsome, -⟩
    · rfl
    · cases hpolls.symm.trans hsome
  | some t =>
    refine Handles.filterMap_live_eq_singleton ((h.timers t _).mpr (.inr ⟨hpolls, rfl⟩)) rfl ?_
    intro j x hx hne
    rcases (h.timers j x).mp hx with ⟨-, -, rfl⟩ | ⟨hj, -⟩
    · rfl
    · exact absurd (Option.some.inj (hpolls.symm.trans hj)).symm hne

theorem Closed.nothing (h : s.Closed) :
    s.connections = [] ∧ ∀ callback, s.delays callback = [] := by
  refine ⟨Handles.filterMap_live_eq_nil fun k x hx => ?_, fun callback =>
    Handles.filterMap_live_eq_nil fun t x hx => ?_⟩
  · cases (h.sources k).symm.trans hx
  · cases (h.timers t).symm.trans hx

/-! ## The page says what `DetailPage` says -/

/-- The same in both models: what is rendered, and the requests in flight. -/
structure Shows (s : StreamPage δ) (p : DetailPage δ) : Prop where
  deviceID : p.deviceID = s.deviceID
  state : p.state = s.state
  connectionState : p.connectionState = s.connectionState
  error : p.error = s.error
  refreshes : p.refreshes = s.refreshes

/-- The connection of the effect, without the numbers. -/
structure Links (f : StreamEffect δ) (p : DetailPage δ) : Prop where
  source : p.source = f.source.isSome
  attempt : p.attempt = f.attempt
  retryTimer : p.retryTimer =
    if f.source.isSome then none else some (retryDelay (f.attempt - 1))
  fallbackTimer : p.fallbackTimer = f.fallbackTimer.isSome

/-- A page that is gone shows nothing. -/
inductive Simulates (s : StreamPage δ) (p : DetailPage δ) : Prop
  | running {e : ℕ} {f : StreamEffect δ} (h : s.Running e f) (hshows : s.Shows p)
      (hlinks : Links f p)
  | idle (h : s.Closed) (hmounted : s.mounted = true) (hdevice : s.deviceID = none)
      (hshows : s.Shows p)
      (hlinks : p.source = false ∧ p.retryTimer = none ∧ p.fallbackTimer = false)
  | gone (h : s.Closed) (hmounted : s.mounted = false)

theorem Shows.refresh {p : DetailPage δ} (h : s.Shows p) :
    (s.refresh s.deviceID).Shows p.refresh := by
  rw [DetailPage.refresh_eq]
  unfold StreamPage.refresh
  split
  · next hnone => exact { h with refreshes := by simp [h.deviceID, hnone, h.refreshes] }
  · next device hsome => exact { h with refreshes := by simp [h.deviceID, hsome, h.refreshes] }

theorem Shows.connect {p : DetailPage δ} (h : s.Shows p) (hstopped : f.stopped = false)
    (hattempt : p.attempt = f.attempt) : (s.connect e f).Shows p.connect := by
  rw [StreamPage.connect, if_neg (by rw [hstopped]; decide)]
  exact { h with connectionState := by simp [DetailPage.connect, assign, hattempt] }

theorem Shows.receive [DecidableEq δ] (localeCompare : String → String → Ordering)
    {p : DetailPage δ} (h : s.Shows p) (invalid : String) (payload : Payload δ) :
    (s.receive localeCompare invalid payload).Shows (p.receive localeCompare invalid payload) := by
  cases payload with
  | snapshot value =>
    exact { h with
      state := by simp only [DetailPage.receive, StreamPage.receive, h.state]
      error := rfl }
  | invalid | failed => exact { h with error := rfl }

theorem Shows.handle [DecidableEq δ] (localeCompare : String → String → Ordering)
    {p : DetailPage δ} (h : s.Shows p) (hdevice : s.deviceID = some f.deviceID)
    (payload : Payload δ) :
    (s.handle localeCompare f payload).Shows (p.handle localeCompare payload) := by
  have hreceive := h.receive localeCompare "Invalid live stream event" payload
  have hrefresh := hreceive.refresh
  have hsame : (s.receive localeCompare "Invalid live stream event" payload).deviceID =
      some f.deviceID := by
    cases payload <;> exact hdevice
  rw [hsame] at hrefresh
  cases payload with
  | snapshot value => exact hreceive
  | invalid | failed => exact hrefresh

variable {p : DetailPage δ}

/-! ### The simulation

Every step of the source, of a timer and of a response is a step of `DetailPage`, or none. -/

theorem simulates_new : (new : StreamPage δ).Simulates .new :=
  .idle ⟨rfl, fun _ => rfl, fun _ => rfl⟩ rfl rfl ⟨rfl, rfl, rfl, rfl, rfl⟩ ⟨rfl, rfl, rfl⟩

/-- A source that calls back is the one of the effect that runs. -/
theorem Simulates.of_source (h : s.Simulates p) {k : ℕ} {x : EventSource δ} {g : StreamEffect δ}
    (hx : s.sources.get? k = some x) (hg : s.effects[x.effect]? = some g) :
    s.Running x.effect g ∧ s.Shows p ∧ Links g p ∧ g.source = some k ∧ x.deviceID = g.deviceID := by
  cases h with
  | running h hshows hlinks =>
    obtain ⟨hsource, rfl⟩ := (h.sources k x).mp hx
    obtain rfl := Option.some.inj (hg.symm.trans h.effect)
    exact ⟨h, hshows, hlinks, hsource, rfl⟩
  | idle h | gone h => cases (h.sources k).symm.trans hx

theorem Simulates.of_timer (h : s.Simulates p) {k : ℕ} {x : Timer} {g : StreamEffect δ}
    (hx : s.timers.get? k = some x) (hg : s.effects[x.effect]? = some g) :
    s.Running x.effect g ∧ s.Shows p ∧ Links g p ∧
      (x.callback = .connect → g.source = none ∧ g.retryTimer = some k) ∧
      (x.callback = .refresh → g.fallbackTimer = some k) := by
  cases h with
  | running h hshows hlinks =>
    rcases (h.timers k x).mp hx with ⟨hsource, hk, rfl⟩ | ⟨hk, rfl⟩
    · obtain rfl := Option.some.inj (hg.symm.trans h.effect)
      exact ⟨h, hshows, hlinks, fun _ => ⟨hsource, hk⟩, nofun⟩
    · obtain rfl := Option.some.inj (hg.symm.trans h.effect)
      exact ⟨h, hshows, hlinks, nofun, fun _ => hk⟩
  | idle h | gone h => cases (h.timers k).symm.trans hx

/-- A page that is there shows the same as the other, and the clean-up leaves nothing. -/
theorem Simulates.of_mounted (h : s.Simulates p) (hmounted : s.mounted = true) :
    s.Shows p ∧ s.cleanUp.Closed ∧ s.cleanUp.Shows p ∧ s.cleanUp.mounted = true := by
  cases h with
  | running h hshows _ =>
    refine ⟨hshows, h.cleanUp, ?_⟩
    rw [h.cleanUp_eq]
    exact ⟨{ hshows with }, hmounted⟩
  | idle h _ _ hshows _ =>
    rw [h.cleanUp_eq]
    exact ⟨hshows, h, hshows, hmounted⟩
  | gone _ hgone => cases hmounted.symm.trans hgone

/-- What changes only what is rendered leaves the connection as it is, in both models. -/
theorem Simulates.frame (h : s.Simulates p) {t : StreamPage δ} {q : DetailPage δ}
    (hmounted : s.mounted = true)
    (hpage : t = { s with state := t.state, error := t.error, refreshes := t.refreshes })
    (hdetail : q = { p with state := q.state, error := q.error, refreshes := q.refreshes })
    (hshows : t.Shows q) : t.Simulates q := by
  rw [hpage, hdetail] at hshows ⊢
  cases h with
  | running h _ hlinks => exact .running { h with } hshows { hlinks with }
  | idle h _ hdevice _ hlinks => exact .idle { h with } hmounted hdevice hshows hlinks
  | gone _ hgone => cases hmounted.symm.trans hgone

theorem Running.simulates_onopen (h : s.Running e f) (hshows : s.Shows p) (hlinks : Links f p)
    {k : ℕ} (hsource : f.source = some k) :
    (s.onopen e f).Simulates
      { p with attempt := 0, connectionState := .live, fallbackTimer := false } := by
  refine .running (h.onopen hsource) { hshows with connectionState := rfl } ?_
  refine ⟨hlinks.source, rfl, ?_, rfl⟩
  rw [hlinks.retryTimer, hsource]
  rfl

theorem Running.simulates_onerror (h : s.Running e f) (hshows : s.Shows p) (hlinks : Links f p)
    {k : ℕ} (hsource : f.source = some k) : (s.onerror e f).Simulates p.onerror := by
  obtain ⟨g, hnext, hfailed⟩ := h.onerror hsource
  refine .running hnext ?_ ?_
  · obtain ⟨timers, effects, heq⟩ := onerror_eq s e f
    rw [heq]
    exact { hshows with connectionState := by simp only [DetailPage.onerror, hlinks.attempt] }
  · refine ⟨?_, ?_, ?_, ?_⟩
    · rw [hfailed.source]
      rfl
    · rw [hfailed.attempt]
      exact congrArg (· + 1) hlinks.attempt
    · rw [hfailed.source, hfailed.attempt, Nat.add_sub_cancel, ← hlinks.attempt]
      rfl
    · rw [hfailed.fallback, ← hlinks.attempt, ← hlinks.fallbackTimer]
      rfl

theorem Running.simulates_retry (h : s.Running e f) (hshows : s.Shows p) (hlinks : Links f p)
    {k : ℕ} (hsource : f.source = none) (htimer : f.retryTimer = some k) :
    ({ s with timers := s.timers.release (some k) }.connect e f).Simulates
      { p with retryTimer := none }.connect := by
  have hshows' : Shows { s with timers := s.timers.release (some k) }
      { p with retryTimer := none } := { hshows with }
  refine .running ((h.fired hsource htimer).connect h.fallback)
    (hshows'.connect h.stopped hlinks.attempt) ?_
  exact ⟨rfl, hlinks.attempt, rfl, hlinks.fallbackTimer⟩

variable [DecidableEq δ] (localeCompare : String → String → Ordering)

theorem Simulates.select (h : s.Simulates p) (hmounted : s.mounted = true) (deviceID : Option δ) :
    (if deviceID = s.deviceID then s else { s.cleanUp with deviceID }.start).Simulates
      (if deviceID = p.deviceID then p else p.switch deviceID) := by
  obtain ⟨hshows, hclosed, hclean, hstill⟩ := h.of_mounted hmounted
  rw [hshows.deviceID]
  split
  · exact h
  · have hmoved : Closed { s.cleanUp with deviceID } := { hclosed with }
    cases deviceID with
    | none =>
      exact .idle { hmoved with } hstill rfl
        ⟨rfl, rfl, hclean.connectionState, hclean.error, hclean.refreshes⟩ ⟨rfl, rfl, rfl⟩
    | some device =>
      refine .running (hmoved.start hstill rfl) ?_ ?_
      · exact ⟨rfl, rfl, rfl, hclean.error,
          congrArg (fun refreshes => refreshes ++ [device]) hclean.refreshes⟩
      · exact ⟨rfl, rfl, rfl, rfl⟩

variable {t : StreamPage δ}

theorem Simulates.step (h : s.Simulates p) {a : ConnectionAction δ}
    (hstep : s.step localeCompare a = some t) :
    ∃ q, Run (DetailPage.step localeCompare) p a.detail.toList q ∧ t.Simulates q := by
  cases a with
  | select deviceID =>
    simp only [StreamPage.step, Option.bind_eq_bind, Option.bind_eq_some_iff] at hstep
    obtain ⟨_, hguard, hstep⟩ := hstep
    cases hstep
    have hmounted := (Option.guard_eq_some' _).mp hguard
    exact ⟨_, .single rfl, h.select hmounted deviceID⟩
  | unmount =>
    simp only [StreamPage.step, Option.bind_eq_bind, Option.bind_eq_some_iff] at hstep
    obtain ⟨_, hguard, hstep⟩ := hstep
    cases hstep
    obtain ⟨-, hclosed, -, -⟩ := h.of_mounted ((Option.guard_eq_some' _).mp hguard)
    exact ⟨p, Run.nil_iff.mpr rfl, .gone { hclosed with } rfl⟩
  | getLatestLocation =>
    simp only [StreamPage.step, Option.bind_eq_bind, Option.bind_eq_some_iff] at hstep
    obtain ⟨_, hguard, hstep⟩ := hstep
    cases hstep
    have hmounted := (Option.guard_eq_some' _).mp hguard
    obtain ⟨hshows, -, -, -⟩ := h.of_mounted hmounted
    refine ⟨p.refresh, .single rfl, h.frame hmounted ?_ ?_ hshows.refresh⟩
    · unfold StreamPage.refresh
      split <;> rfl
    · rw [DetailPage.refresh_eq]
  | «open» k =>
    simp only [StreamPage.step, Option.bind_eq_bind, Option.bind_eq_some_iff] at hstep
    obtain ⟨x, hx, f, hf, hstep⟩ := hstep
    cases hstep
    obtain ⟨hrunning, hshows, hlinks, hsource, -⟩ := h.of_source hx hf
    have hopen : p.source = true := by rw [hlinks.source, hsource]; rfl
    exact ⟨_, .single (if_pos hopen), hrunning.simulates_onopen hshows hlinks hsource⟩
  | event k payload =>
    simp only [StreamPage.step, Option.bind_eq_bind, Option.bind_eq_some_iff] at hstep
    obtain ⟨x, hx, f, hf, _, hguard, hstep⟩ := hstep
    cases hstep
    obtain ⟨hrunning, hshows, hlinks, hsource, hdevice⟩ := h.of_source hx hf
    rw [hdevice] at hguard
    have hpayload := (Option.guard_eq_some' _).mp hguard
    have hopen : p.source = true := by rw [hlinks.source, hsource]; rfl
    refine ⟨p.handle localeCompare payload, .single ?_, h.frame hrunning.mounted ?_ ?_
      (hshows.handle localeCompare hrunning.device payload)⟩
    · simp [DetailPage.step, hshows.deviceID, hrunning.device, hopen, hpayload]
    · cases payload <;> rfl
    · cases payload <;> simp [DetailPage.handle, DetailPage.refresh_eq, DetailPage.receive]
  | error k =>
    simp only [StreamPage.step, Option.bind_eq_bind, Option.bind_eq_some_iff] at hstep
    obtain ⟨x, hx, f, hf, hstep⟩ := hstep
    cases hstep
    obtain ⟨hrunning, hshows, hlinks, hsource, -⟩ := h.of_source hx hf
    have hopen : p.source = true := by rw [hlinks.source, hsource]; rfl
    exact ⟨_, .single (if_pos hopen), hrunning.simulates_onerror hshows hlinks hsource⟩
  | retry k =>
    simp only [StreamPage.step, Option.bind_eq_bind, Option.bind_eq_some_iff] at hstep
    obtain ⟨x, hx, f, hf, _, hguard, hstep⟩ := hstep
    cases hstep
    obtain ⟨hrunning, hshows, hlinks, hretry, -⟩ := h.of_timer hx hf
    obtain ⟨hsource, htimer⟩ := hretry ((Option.guard_eq_some' _).mp hguard)
    have hwaits : p.retryTimer.isSome := by rw [hlinks.retryTimer, hsource]; rfl
    exact ⟨_, .single (if_pos hwaits), hrunning.simulates_retry hshows hlinks hsource htimer⟩
  | fallback k =>
    simp only [StreamPage.step, Option.bind_eq_bind, Option.bind_eq_some_iff] at hstep
    obtain ⟨x, hx, f, hf, _, hguard, hstep⟩ := hstep
    cases hstep
    obtain ⟨hrunning, hshows, hlinks, -, hpolls⟩ := h.of_timer hx hf
    have htimer := hpolls ((Option.guard_eq_some' _).mp hguard)
    have hpolling : p.fallbackTimer = true := by rw [hlinks.fallbackTimer, htimer]; rfl
    refine ⟨p.refresh, .single (if_pos hpolling), h.frame hrunning.mounted rfl ?_ ?_⟩
    · rw [DetailPage.refresh_eq]
    · have hrefresh := hshows.refresh
      rwa [hrunning.device] at hrefresh
  | refreshed k payload =>
    simp only [StreamPage.step, Option.bind_eq_bind, Option.bind_eq_some_iff] at hstep
    obtain ⟨device, hk, _, hguard, _, hthere, hstep⟩ := hstep
    cases hstep
    have hmounted := (Option.guard_eq_some' _).mp hthere
    have hpayload := (Option.guard_eq_some' _).mp hguard
    obtain ⟨hshows, -, -, -⟩ := h.of_mounted hmounted
    have hrest : Shows { s with refreshes := s.refreshes.eraseIdx k }
        { p with refreshes := p.refreshes.eraseIdx k } :=
      { hshows with refreshes := congrArg (·.eraseIdx k) hshows.refreshes }
    refine ⟨_, .single ?_, h.frame hmounted ?_ ?_
      (hrest.receive localeCompare "Invalid live location response" payload)⟩
    · simp [DetailPage.step, hshows.refreshes, hk, hpayload]
    · cases payload <;> rfl
    · cases payload <;> rfl

theorem Simulates.run {as : List (ConnectionAction δ)}
    (hrun : Run (StreamPage.step localeCompare) .new as s) :
    ∃ p, Run (DetailPage.step localeCompare) .new (as.filterMap ConnectionAction.detail) p ∧
      s.Simulates p :=
  Run.simulate (fun _ _ _ _ h hstep => h.step localeCompare hstep) hrun simulates_new

/-! ## What is open on every run -/

/-- The device and the failures since it was selected or a connection opened. -/
def count : Option δ × ℕ → DetailAction δ → Option δ × ℕ
  | (shown, n), .select deviceID => if deviceID = shown then (shown, n) else (deviceID, 0)
  | (shown, _), .open => (shown, 0)
  | (shown, n), .sourceError => (shown, n + 1)
  | c, _ => c

def failures (as : List (ConnectionAction δ)) : ℕ :=
  ((as.filterMap ConnectionAction.detail).foldl count (none, 0)).2

/-- What is counted is what the page keeps in `attempt`. -/
def Counts (p : DetailPage δ) (c : Option δ × ℕ) : Prop :=
  p.deviceID = c.1 ∧ (p.deviceID.isSome → p.attempt = c.2)

theorem Counts.step {p q : DetailPage δ} {c : Option δ × ℕ} {a : DetailAction δ} (h : Counts p c)
    (hstep : p.step localeCompare a = some q) : Counts q (count c a) := by
  obtain ⟨shown, n⟩ := c
  obtain ⟨hshown, hn⟩ := h
  cases a with
  | select deviceID =>
    cases hstep
    obtain rfl : p.deviceID = shown := hshown
    rw [count]
    by_cases hsame : deviceID = p.deviceID
    · rw [if_pos hsame, if_pos hsame]
      exact ⟨rfl, hn⟩
    · rw [if_neg hsame, if_neg hsame]
      cases deviceID with
      | none => exact ⟨rfl, nofun⟩
      | some device => exact ⟨rfl, fun _ => rfl⟩
  | reload =>
    rw [DetailPage.step] at hstep
    split at hstep
    · cases hstep
    · cases hstep
      rw [DetailPage.refresh_eq]
      exact ⟨hshown, hn⟩
  | getLatestLocation =>
    cases hstep
    rw [DetailPage.refresh_eq]
    exact ⟨hshown, hn⟩
  | «open» =>
    rw [DetailPage.step] at hstep
    split at hstep
    · cases hstep
      exact ⟨hshown, fun _ => rfl⟩
    · cases hstep
  | event payload =>
    simp only [DetailPage.step, Option.bind_eq_bind, Option.bind_eq_some_iff] at hstep
    obtain ⟨device, -, _, -, hstep⟩ := hstep
    cases hstep
    cases payload with
    | snapshot value => exact ⟨hshown, hn⟩
    | invalid | failed =>
      simp only [DetailPage.handle, DetailPage.refresh_eq]
      exact ⟨hshown, hn⟩
  | sourceError =>
    rw [DetailPage.step] at hstep
    split at hstep
    · cases hstep
      exact ⟨hshown, fun hsome => congrArg (· + 1) (hn hsome)⟩
    · cases hstep
  | retry =>
    rw [DetailPage.step] at hstep
    split at hstep
    · cases hstep
      exact ⟨hshown, hn⟩
    · cases hstep
  | fallback =>
    rw [DetailPage.step] at hstep
    split at hstep
    · cases hstep
      rw [DetailPage.refresh_eq]
      exact ⟨hshown, hn⟩
    · cases hstep
  | refreshed k payload =>
    simp only [DetailPage.step, Option.bind_eq_bind, Option.bind_eq_some_iff] at hstep
    obtain ⟨device, -, _, -, hstep⟩ := hstep
    cases hstep
    cases payload <;> exact ⟨hshown, hn⟩
  | fetched k ok =>
    simp only [DetailPage.step, Option.bind_eq_bind, Option.bind_eq_some_iff] at hstep
    obtain ⟨device, -, hstep⟩ := hstep
    cases hstep
    exact ⟨hshown, hn⟩

theorem counts_run {as : List (DetailAction δ)} {p : DetailPage δ}
    (hrun : Run (DetailPage.step localeCompare) .new as p) :
    Counts p (as.foldl count (none, 0)) := by
  have hcounts : ∃ c, Run (fun c a => some (count c a)) (none, 0) (as.filterMap some) c ∧
      Counts p c :=
    Run.simulate (fun p a q c h hstep => ⟨_, .single rfl, h.step localeCompare hstep⟩) hrun
      ⟨rfl, nofun⟩
  obtain ⟨c, hcount, hc⟩ := hcounts
  rw [List.filterMap_some] at hcount
  obtain rfl := Option.some.inj (hcount.symm.trans (Run.of_total count as (none, 0)))
  exact hc

/-- The device that is on the screen. -/
def shown (s : StreamPage δ) : Option δ := if s.mounted then s.deviceID else none

/-- A page that shows a device has a connection or waits for the next, and polls from the third
failure on. -/
structure Connected (s : StreamPage δ) (device : δ) (failures : ℕ) : Prop where
  one : s.connections = [device] ∧ s.delays .connect = [] ∨
    s.connections = [] ∧ s.delays .connect = [retryDelay (failures - 1)] ∧ 0 < failures
  polls : s.delays .refresh = if 3 ≤ failures then [fallbackDelay] else []
  label : Label failures (!s.connections.isEmpty) s.connectionState

omit [DecidableEq δ] in
theorem Running.connected (h : s.Running e f) : s.Connected f.deviceID f.attempt := by
  have hlabel := h.label
  refine ⟨?_, ?_, ?_⟩
  · rw [h.connections_eq, h.retries_eq]
    cases hsource : f.source with
    | some k => exact .inl ⟨rfl, rfl⟩
    | none => exact .inr ⟨rfl, rfl, (h.retry hsource).2⟩
  · rw [h.polls_eq]
    by_cases hpolls : 3 ≤ f.attempt
    · rw [if_pos hpolls, if_pos (h.fallback.mpr hpolls)]
    · rw [if_neg hpolls, if_neg (mt h.fallback.mp hpolls)]
  · rw [h.connections_eq]
    cases hsource : f.source.isSome <;> rwa [hsource] at hlabel

end StreamPage

/-- On every run a page that shows a device has one open stream, of that device, or one pending
retry, with the delay of its number of failures; a page that shows none, or is gone, has nothing
open and nothing pending. -/
theorem stream_connection [DecidableEq δ] (localeCompare : String → String → Ordering)
    {as : List (ConnectionAction δ)} {s : StreamPage δ}
    (hrun : Run (StreamPage.step localeCompare) .new as s) :
    (∀ device, s.shown = some device → s.Connected device (StreamPage.failures as)) ∧
      (s.shown = none → s.connections = [] ∧ ∀ callback, s.delays callback = []) := by
  obtain ⟨p, hp, hsimulates⟩ := StreamPage.Simulates.run localeCompare hrun
  obtain ⟨hdevice, hattempt⟩ := StreamPage.counts_run localeCompare hp
  cases hsimulates with
  | running h hshows hlinks =>
    have hshown : s.shown = some _ := (if_pos h.mounted).trans h.device
    have hfailures : _ = StreamPage.failures as :=
      hlinks.attempt.symm.trans (hattempt (by rw [hshows.deviceID, h.device]; rfl))
    refine ⟨fun device hd => ?_, fun hnone => by cases hshown.symm.trans hnone⟩
    obtain rfl := Option.some.inj (hshown.symm.trans hd)
    exact hfailures ▸ h.connected
  | idle h hmounted hnone =>
    refine ⟨fun device hd => ?_, fun _ => h.nothing⟩
    cases ((if_pos hmounted).trans hnone).symm.trans hd
  | gone h hgone =>
    refine ⟨fun device hd => ?_, fun _ => h.nothing⟩
    rw [StreamPage.shown, hgone] at hd
    cases hd

/-- Three failures in a row, and the first poll. -/
def thirdFailure : List (ConnectionAction ℕ) :=
  [.select (some 1), .error 0, .retry 0, .error 1, .retry 1, .error 2, .fallback 2]

theorem stream_connection_third : ∃ s : StreamPage ℕ,
    Run (StreamPage.step compare) .new thirdFailure s ∧ s.Connected 1 3 := by
  obtain ⟨s, hrun, hshown⟩ := Option.map_eq_some_iff.mp (show
    (thirdFailure.foldlM (StreamPage.step compare) .new).map (·.shown) = some (some 1) by
      decide +kernel)
  exact ⟨s, hrun, (stream_connection compare hrun).1 1 hshown⟩

/-- While the page is there, what it renders, its requests and its connection are those of
`DetailPage` after the same actions. -/
theorem stream_refines_detail [DecidableEq δ] (localeCompare : String → String → Ordering)
    {as : List (ConnectionAction δ)} {s : StreamPage δ}
    (hrun : Run (StreamPage.step localeCompare) .new as s) (hmounted : s.mounted = true) :
    ∃ p, Run (DetailPage.step localeCompare) .new (as.filterMap ConnectionAction.detail) p ∧
      s.Shows p ∧ (p.source = true ↔ s.connections ≠ []) ∧
      p.retryTimer = (s.delays .connect).head? ∧
      (p.fallbackTimer = true ↔ s.delays .refresh ≠ []) := by
  obtain ⟨p, hp, hsimulates⟩ := StreamPage.Simulates.run localeCompare hrun
  refine ⟨p, hp, ?_⟩
  cases hsimulates with
  | running h hshows hlinks =>
    refine ⟨hshows, ?_, ?_, ?_⟩
    · rw [h.connections_eq, hlinks.source]
      cases Option.isSome _ <;> simp
    · rw [h.retries_eq, hlinks.retryTimer]
      cases Option.isSome _ <;> simp
    · rw [h.polls_eq, hlinks.fallbackTimer]
      cases Option.isSome _ <;> simp
  | idle h _ _ hshows hlinks =>
    obtain ⟨hsource, hretry, hpolls⟩ := hlinks
    obtain ⟨hconnections, hdelays⟩ := h.nothing
    refine ⟨hshows, ?_, ?_, ?_⟩
    · simp [hsource, hconnections]
    · simp [hretry, hdelays]
    · simp [hpolls, hdelays]
  | gone _ hgone => cases hmounted.symm.trans hgone

/-- A failure of the first device, whose retry the change of the device clears. -/
theorem stream_refines_detail_second : ∃ s p : _, s.mounted = true ∧
    Run (StreamPage.step compare) .new
      ([.select (some 1), .error 0, .select (some 2), .open 1] : List (ConnectionAction ℕ)) s ∧
    Run (DetailPage.step compare) .new
      [.select (some 1), .sourceError, .select (some 2), .open] p ∧
    s.Shows p ∧ p.source = true ∧ p.retryTimer = none := by
  obtain ⟨s, hrun, hs⟩ := Option.map_eq_some_iff.mp (show
    (([.select (some 1), .error 0, .select (some 2), .open 1] : List (ConnectionAction ℕ)).foldlM
      (StreamPage.step compare) .new).map (fun s => (s.mounted, s.connections, s.delays .connect)) =
        some (true, [2], []) by decide +kernel)
  simp only [Prod.mk.injEq] at hs
  obtain ⟨hmounted, hconnections, hdelays⟩ := hs
  obtain ⟨p, hp, hshows, hsource, hretry, -⟩ := stream_refines_detail compare hrun hmounted
  refine ⟨s, p, hmounted, hrun, hp, hshows, hsource.mpr ?_, ?_⟩
  · simp [hconnections]
  · rw [hretry, hdelays]
    rfl

end OpenGps.Frontend
