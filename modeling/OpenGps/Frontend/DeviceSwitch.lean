import OpenGps.Frontend.LiveLocation
import OpenGps.Lib.Run

/-!
# Switching the device of the detail page

`DeviceDetailPage` keeps the device id of the URL, `useDeviceLocationStream` the live view of that
device and `useDeviceService` its details. A change of the id runs the effects of both hooks: the
stream of the old device is closed with its timers and the states are reset, but the requests that
are in flight are not cancelled, and their responses set the states when they arrive.
-/

namespace OpenGps.Frontend

open OpenGps.Backend OpenGps.Lib

inductive LiveStreamConnectionState where
  | connecting
  | live
  | reconnecting
  | fallback
  deriving DecidableEq

def API_RETRY_DELAYS : List Nat := [1000, 2000, 4000, 8000, 15000]

/-- What a response or an event of the stream carries: a value that passes `isLiveSnapshot`, one that
does not, or an error, of which the page shows the message. -/
inductive Payload (δ : Type) where
  | snapshot (value : LiveLocationSnapshot δ)
  | invalid
  | failed (message : String)
  deriving DecidableEq

/-- The state of the page and of its two hooks. `deviceID` is `none` as long as the URL has no device;
`source` says that the event source is open, `retryTimer` is the delay of the timer that is running.
Of the details of the device only the id is kept. The last two fields are the requests in flight,
each with the device that it was issued for. -/
structure DetailPage (δ : Type) where
  deviceID : Option δ
  state : LiveLocationState δ
  connectionState : LiveStreamConnectionState
  error : Option String
  source : Bool
  attempt : Nat
  retryTimer : Option Nat
  fallbackTimer : Bool
  device : Option δ
  isLoading : Bool
  refreshes : List δ
  fetches : List δ
  deriving DecidableEq

/-- `select` is a `popstate`. The device of a response that is not an error is the one of its
request. -/
inductive DetailAction (δ : Type) where
  | select (deviceID : Option δ)
  | reload
  | getLatestLocation
  | open
  | event (payload : Payload δ)
  | sourceError
  | retry
  | fallback
  | refreshed (k : Nat) (payload : Payload δ)
  | fetched (k : Nat) (ok : Bool)
  deriving DecidableEq

variable {δ : Type}

/-- The backend sends snapshots of the device that it was asked for. -/
def Payload.FromDevice (device : δ) : Payload δ → Prop
  | .snapshot value => value.Of device
  | _ => True

instance [DecidableEq δ] (value : LiveLocationSnapshot δ) (device : δ) :
    Decidable (value.Of device) :=
  decidable_of_iff (value.deviceID = device ∧ ∀ p ∈ value.location, p.deviceID = device)
    ⟨fun h => ⟨h.1, h.2⟩, fun h => ⟨h.deviceID, h.point⟩⟩

instance [DecidableEq δ] (payload : Payload δ) (device : δ) :
    Decidable (payload.FromDevice device) :=
  match payload with
  | .snapshot value => inferInstanceAs (Decidable (value.Of device))
  | .invalid => isTrue trivial
  | .failed _ => isTrue trivial

namespace DetailPage

section
variable [DecidableEq δ] (localeCompare : String → String → Ordering)

def new : DetailPage δ where
  deviceID := none
  state := EMPTY_LIVE_LOCATION_STATE
  connectionState := .connecting
  error := none
  source := false
  attempt := 0
  retryTimer := none
  fallbackTimer := false
  device := none
  isLoading := false
  refreshes := []
  fetches := []

/-- `refresh`, up to its request. -/
def refresh (s : DetailPage δ) : DetailPage δ :=
  match s.deviceID with
  | none => s
  | some device => { s with refreshes := s.refreshes ++ [device] }

/-- `getDeviceById`, up to its request. -/
def getDeviceByID (s : DetailPage δ) (id : δ) : DetailPage δ :=
  { s with isLoading := true, device := none, fetches := s.fetches ++ [id] }

def connect (s : DetailPage δ) : DetailPage δ :=
  { s with
    connectionState := if s.attempt = 0 then .connecting else .reconnecting
    source := true }

/-- The clean-up of the stream effect. -/
def cleanUp (s : DetailPage δ) : DetailPage δ :=
  { s with source := false, retryTimer := none, fallbackTimer := false }

/-- The effects after a change of the id. -/
def switch (s : DetailPage δ) (deviceID : Option δ) : DetailPage δ :=
  let s := { s.cleanUp with deviceID, state := EMPTY_LIVE_LOCATION_STATE }
  match deviceID with
  | none => s
  | some device => ({ s.refresh with attempt := 0 }.connect).getDeviceByID device

/-- `setState` and `setError` for a value, or `setError` with the reason. -/
def receive (s : DetailPage δ) (invalid : String) : Payload δ → DetailPage δ
  | .snapshot value =>
    { s with
      state := reduceLiveLocation localeCompare s.state value LIVE_ROUTE_MAX_POINTS
      error := none }
  | .invalid => { s with error := some invalid }
  | .failed message => { s with error := some message }

/-- The listener of the event source. -/
def handle (s : DetailPage δ) (payload : Payload δ) : DetailPage δ :=
  let s := s.receive localeCompare "Invalid live stream event" payload
  match payload with
  | .snapshot _ => s
  | _ => s.refresh

def onerror (s : DetailPage δ) : DetailPage δ :=
  let delay := API_RETRY_DELAYS[min s.attempt (API_RETRY_DELAYS.length - 1)]?.getD 15000
  let attempt := s.attempt + 1
  { s with
    source := false
    attempt
    connectionState := if attempt ≥ 3 then .fallback else .reconnecting
    -- From the third failure on, the page polls as well.
    fallbackTimer := s.fallbackTimer || decide (attempt ≥ 3)
    retryTimer := some delay }

def step (s : DetailPage δ) : DetailAction δ → Option (DetailPage δ)
  | .select deviceID => some (if deviceID = s.deviceID then s else s.switch deviceID)
  | .reload =>
    match s.deviceID with
    | none => none
    | some device => some (s.getDeviceByID device).refresh
  | .getLatestLocation => some s.refresh
  | .open =>
    if s.source then
      some { s with attempt := 0, connectionState := .live, fallbackTimer := false }
    else none
  | .event payload => do
    let device ← s.deviceID
    guard (s.source ∧ payload.FromDevice device)
    return s.handle localeCompare payload
  | .sourceError => if s.source then some s.onerror else none
  | .retry => if s.retryTimer.isSome then some { s with retryTimer := none }.connect else none
  | .fallback => if s.fallbackTimer then some s.refresh else none
  | .refreshed k payload => do
    let device ← s.refreshes[k]?
    guard (payload.FromDevice device)
    -- Nothing compares the device of the request with the one that is shown now.
    return { s with refreshes := s.refreshes.eraseIdx k }.receive localeCompare
      "Invalid live location response" payload
  | .fetched k ok => do
    let device ← s.fetches[k]?
    return { s with
      device := if ok then some device else s.device
      isLoading := false
      fetches := s.fetches.eraseIdx k }

end

/-! ## No mixing -/

def Settled (s : DetailPage δ) : Prop := s.refreshes = [] ∧ s.fetches = []

/-- The view is empty or of the selected device, and so are the details when nothing is in flight. -/
structure Unmixed (s : DetailPage δ) : Prop where
  view : ∀ device, s.deviceID = some device → s.state.Of device
  details : s.Settled → ∀ device, s.deviceID = some device → ∀ d ∈ s.device, d = device

/-- The snapshot of the selected device that arrives. -/
def arriving [DecidableEq δ] (s : DetailPage δ) : DetailAction δ → Option (LiveLocationSnapshot δ)
  | .event (.snapshot value) => some value
  | .refreshed k (.snapshot value) => if s.refreshes[k]? = s.deviceID then some value else none
  | _ => none

/-- Where a response to a request for another device leaves the page when it has no effect. -/
def ignoring [DecidableEq δ] (s : DetailPage δ) : DetailAction δ → Option (DetailPage δ)
  | .refreshed k _ =>
    if s.refreshes[k]? = s.deviceID then none
    else some { s with refreshes := s.refreshes.eraseIdx k }
  | .fetched k _ =>
    if s.fetches[k]? = s.deviceID then none
    else some { s with fetches := s.fetches.eraseIdx k }
  | _ => none

structure Clean [DecidableEq δ] (s : DetailPage δ) (a : DetailAction δ) (t : DetailPage δ) : Prop where
  unmixed : t.Unmixed
  applied : ∀ value ∈ s.arriving a, ∃ location, t.state.snapshot = some { value with location }
  ignored : ∀ u ∈ s.ignoring a, t = u

/-- A value for another device changes nothing: a snapshot when the view is no longer empty and no
error is shown, an error when it is the one that is shown. -/
def HarmlessPayload (s : DetailPage δ) (invalid : String) : Payload δ → Prop
  | .snapshot _ => s.state.snapshot.isSome ∧ s.error = none
  | .invalid => s.error = some invalid
  | .failed message => s.error = some message

/-- A response to a request for another device arrives only where it changes nothing; for the details,
these are the ones that are held already, or a failure, and nothing is loading. -/
def Harmless (s : DetailPage δ) : DetailAction δ → Prop
  | .refreshed k payload => s.refreshes[k]? = s.deviceID ∨
    s.HarmlessPayload "Invalid live location response" payload
  | .fetched k ok => s.fetches[k]? = s.deviceID ∨
    s.isLoading = false ∧ (ok = true → s.device = s.fetches[k]?)
  | _ => True

/-! ## The invariant

As long as what arrives late changes nothing, the page has the view and the details of the selected
device only. -/

/-- What holds of the page as long as nothing late has had an effect. -/
structure Inv (s : DetailPage δ) : Prop where
  view : ∀ device, s.deviceID = some device → s.state.Of device
  empty : s.deviceID = none → s.state = EMPTY_LIVE_LOCATION_STATE
  details : ∀ device, s.deviceID = some device → ∀ d ∈ s.device, d = device

theorem Inv.unmixed {s : DetailPage δ} (h : s.Inv) : s.Unmixed :=
  ⟨h.view, fun _ => h.details⟩

theorem inv_new : (new : DetailPage δ).Inv where
  view := fun device h => by cases h
  empty := fun _ => rfl
  details := fun device h => by cases h

/-- The fields that the invariant is about. -/
theorem Inv.of_eq {s t : DetailPage δ} (h : s.Inv) (hdevice : t.deviceID = s.deviceID)
    (hstate : t.state = s.state) (hdetails : t.device = s.device ∨ t.device = none) : t.Inv where
  view := fun device hd => hstate ▸ h.view device (hdevice ▸ hd)
  empty := fun hd => hstate.trans (h.empty (hdevice ▸ hd))
  details := fun device hd d hmem => by
    rcases hdetails with heq | hnone
    · exact h.details device (hdevice ▸ hd) d (heq ▸ hmem)
    · rw [hnone] at hmem
      cases hmem

theorem refresh_eq (s : DetailPage δ) :
    s.refresh = { s with refreshes := s.refreshes ++ s.deviceID.toList } := by
  obtain ⟨deviceID⟩ := s
  cases deviceID with
  | none => simp [refresh]
  | some device => rfl

theorem Inv.refresh {s : DetailPage δ} (h : s.Inv) : s.refresh.Inv := by
  rw [refresh_eq]
  exact h.of_eq rfl rfl (.inl rfl)

theorem Inv.switch (s : DetailPage δ) (deviceID : Option δ) : (s.switch deviceID).Inv := by
  cases deviceID with
  | none =>
    refine ⟨fun device hd => ?_, fun _ => rfl, fun device hd => ?_⟩
    · cases hd
    · cases hd
  | some id =>
    refine ⟨fun device _ => LiveLocationState.of_empty device, fun hd => ?_, fun _ _ d hd => ?_⟩
    · cases hd
    · cases hd

/-! ### Responses -/

theorem error_eq_self {s : DetailPage δ} {e : Option String} :
    { s with error := e } = s ↔ s.error = e := by
  constructor
  · intro heq
    exact (congrArg DetailPage.error heq).symm
  · rintro rfl
    rfl

variable [DecidableEq δ] (localeCompare : String → String → Ordering)

/-- A value for the selected device. -/
theorem Inv.receive {s : DetailPage δ} (h : s.Inv) {device : δ} (hdevice : s.deviceID = some device)
    (invalid : String) {payload : Payload δ} (hpayload : payload.FromDevice device) :
    (s.receive localeCompare invalid payload).Inv ∧ ∀ value, payload = .snapshot value →
      ∃ location, (s.receive localeCompare invalid payload).state.snapshot =
        some { value with location } := by
  cases payload with
  | snapshot value =>
    obtain ⟨hof, hsnapshot⟩ := (h.view device hdevice).reduce localeCompare
      LIVE_ROUTE_MAX_POINTS hpayload
    refine ⟨⟨fun d hd => ?_, fun hd => ?_, h.details⟩, ?_⟩
    · obtain rfl := Option.some.inj (hdevice.symm.trans hd)
      exact hof
    · cases hdevice.symm.trans hd
    · rintro _ ⟨⟩
      exact hsnapshot
  | invalid | failed =>
    refine ⟨h.of_eq rfl rfl (.inl rfl), fun value hv => ?_⟩
    cases hv

/-- A value for another device leaves the page as it is only where it is harmless. -/
theorem receive_eq_self {s : DetailPage δ} (h : s.Inv) {device : δ}
    (hlate : s.deviceID ≠ some device) {payload : Payload δ} (hpayload : payload.FromDevice device)
    (invalid : String) :
    s.receive localeCompare invalid payload = s ↔ s.HarmlessPayload invalid payload := by
  cases payload with
  | invalid => exact error_eq_self
  | failed message => exact error_eq_self
  | snapshot value =>
    constructor
    · intro heq
      refine ⟨?_, (congrArg DetailPage.error heq).symm⟩
      cases hsnapshot : s.state.snapshot with
      | some _ => rfl
      | none =>
        -- An empty view takes any snapshot.
        have hempty : ∀ c ∈ s.state.snapshot, c.deviceID = value.deviceID := by simp [hsnapshot]
        have hstate := congrArg (·.state.snapshot) heq
        simp [receive, reduceLiveLocation_of_forall _ _ hempty, hsnapshot] at hstate
    · rintro ⟨hsome, herror⟩
      obtain ⟨current, hcurrent⟩ := Option.isSome_iff_exists.mp hsome
      have hne : current.deviceID ≠ value.deviceID := by
        intro heq
        cases hd : s.deviceID with
        | none =>
          rw [h.empty hd] at hcurrent
          cases hcurrent
        | some d =>
          have hcurrentID := ((h.view d hd).current current hcurrent).deviceID
          refine hlate (hd.trans (congrArg some ?_))
          exact hcurrentID.symm.trans (heq.trans hpayload.deviceID)
      rw [receive, reduceLiveLocation_of_ne _ _ hcurrent hne]
      exact error_eq_self.mpr herror

/-- A step that is about no response. -/
theorem Inv.quiet {s t : DetailPage δ} {a : DetailAction δ} (ht : t.Inv) (hharmless : s.Harmless a)
    (harriving : s.arriving a = none) (hignoring : s.ignoring a = none) :
    (s.Harmless a → t.Inv ∧ s.Clean a t) ∧ (s.Clean a t → s.Harmless a) := by
  refine ⟨fun _ => ⟨ht, ht.unmixed, fun value hvalue => ?_, fun u hu => ?_⟩, fun _ => hharmless⟩
  · rw [harriving] at hvalue
    cases hvalue
  · rw [hignoring] at hu
    cases hu

theorem Inv.refreshed {s : DetailPage δ} {k : Nat} {device : δ} {payload : Payload δ} (h : s.Inv)
    (hk : s.refreshes[k]? = some device) (hpayload : payload.FromDevice device) :
    let t := { s with refreshes := s.refreshes.eraseIdx k }.receive localeCompare
      "Invalid live location response" payload
    (s.Harmless (.refreshed k payload) → t.Inv ∧ s.Clean (.refreshed k payload) t) ∧
      (s.Clean (.refreshed k payload) t → s.Harmless (.refreshed k payload)) := by
  dsimp only
  have hrest : Inv { s with refreshes := s.refreshes.eraseIdx k } := h.of_eq rfl rfl (.inl rfl)
  by_cases hcurrent : s.deviceID = some device
  · obtain ⟨ht, happlied⟩ := hrest.receive localeCompare hcurrent
      "Invalid live location response" hpayload
    have hsame : s.refreshes[k]? = s.deviceID := hk.trans hcurrent.symm
    refine ⟨fun _ => ⟨ht, ht.unmixed, fun value hvalue => ?_, fun u hu => ?_⟩, fun _ => .inl hsame⟩
    · cases payload with
      | snapshot value' =>
        rw [arriving, if_pos hsame] at hvalue
        exact happlied value (congrArg Payload.snapshot (Option.some.inj hvalue))
      | invalid | failed => cases hvalue
    · rw [ignoring, if_pos hsame] at hu
      cases hu
  · have hother : ¬ s.refreshes[k]? = s.deviceID := fun heq => hcurrent (heq.symm.trans hk)
    have hself := receive_eq_self localeCompare hrest hcurrent hpayload
      "Invalid live location response"
    constructor
    · rintro (hsame | hharmless)
      · exact absurd hsame hother
      · rw [hself.mpr hharmless]
        refine ⟨hrest, hrest.unmixed, fun value hvalue => ?_, fun u hu => ?_⟩
        · cases payload with
          | snapshot value' =>
            rw [arriving, if_neg hother] at hvalue
            cases hvalue
          | invalid | failed => cases hvalue
        · rw [ignoring, if_neg hother] at hu
          exact Option.some.inj hu
    · intro hclean
      refine .inr (hself.mp (hclean.ignored _ ?_))
      rw [ignoring, if_neg hother]
      rfl

theorem Inv.fetched {s : DetailPage δ} {k : Nat} {device : δ} {ok : Bool} (h : s.Inv)
    (hk : s.fetches[k]? = some device) :
    let t := { s with
      device := if ok then some device else s.device
      isLoading := false
      fetches := s.fetches.eraseIdx k }
    (s.Harmless (.fetched k ok) → t.Inv ∧ s.Clean (.fetched k ok) t) ∧
      (s.Clean (.fetched k ok) t → s.Harmless (.fetched k ok)) := by
  intro t
  by_cases hcurrent : s.deviceID = some device
  · have hsame : s.fetches[k]? = s.deviceID := hk.trans hcurrent.symm
    have ht : t.Inv := by
      refine ⟨h.view, h.empty, fun d hd d' hd' => ?_⟩
      obtain rfl := Option.some.inj (hcurrent.symm.trans hd)
      cases ok with
      | true => exact (Option.some.inj hd').symm
      | false => exact h.details device hd d' hd'
    refine ⟨fun _ => ⟨ht, ht.unmixed, fun value hvalue => ?_, fun u hu => ?_⟩, fun _ => .inl hsame⟩
    · cases hvalue
    · rw [ignoring, if_pos hsame] at hu
      cases hu
  · -- A late response sets both fields, so it must find them as it would leave them.
    have hother : ¬ s.fetches[k]? = s.deviceID := fun heq => hcurrent (heq.symm.trans hk)
    have hrest : Inv { s with fetches := s.fetches.eraseIdx k } := h.of_eq rfl rfl (.inl rfl)
    constructor
    · rintro (hsame | ⟨hloading, hdetails⟩)
      · exact absurd hsame hother
      · have ht : t = { s with fetches := s.fetches.eraseIdx k } := by
          have hdevice : (if ok then some device else s.device) = s.device := by
            split
            · next hok => exact (hk.symm.trans (hdetails hok).symm)
            · rfl
          show ({ s with device := _, isLoading := false, fetches := _ } : DetailPage δ) = _
          rw [hdevice, ← hloading]
        rw [ht]
        refine ⟨hrest, hrest.unmixed, fun value hvalue => ?_, fun u hu => ?_⟩
        · cases hvalue
        · rw [ignoring, if_neg hother] at hu
          exact Option.some.inj hu
    · intro hclean
      have ht : t = { s with fetches := s.fetches.eraseIdx k } := by
        refine hclean.ignored _ ?_
        rw [ignoring, if_neg hother]
        rfl
      refine .inr ⟨(congrArg DetailPage.isLoading ht).symm, fun hok => ?_⟩
      have hdevice := congrArg DetailPage.device ht
      subst hok
      exact hdevice.symm.trans hk.symm

/-! ### Every step -/

/-- One step keeps the invariant where it is harmless, and is clean exactly there. -/
theorem Inv.step {s t : DetailPage δ} {a : DetailAction δ} (h : s.Inv)
    (hstep : s.step localeCompare a = some t) :
    (s.Harmless a → t.Inv ∧ s.Clean a t) ∧ (s.Clean a t → s.Harmless a) := by
  cases a with
  | select deviceID =>
    cases hstep
    refine Inv.quiet ?_ trivial rfl rfl
    split
    · exact h
    · exact .switch s deviceID
  | reload =>
    rw [DetailPage.step] at hstep
    split at hstep
    · cases hstep
    · next device _ =>
      cases hstep
      have hfetch : (s.getDeviceByID device).Inv := h.of_eq rfl rfl (.inr rfl)
      exact Inv.quiet hfetch.refresh trivial rfl rfl
  | getLatestLocation =>
    cases hstep
    exact Inv.quiet h.refresh trivial rfl rfl
  | «open» =>
    rw [DetailPage.step] at hstep
    split at hstep
    · cases hstep
      exact Inv.quiet (h.of_eq rfl rfl (.inl rfl)) trivial rfl rfl
    · cases hstep
  | event payload =>
    simp only [DetailPage.step, Option.bind_eq_bind, Option.bind_eq_some_iff] at hstep
    obtain ⟨device, hdevice, _, hguard, hstep⟩ := hstep
    cases hstep
    obtain ⟨-, hpayload⟩ := (Option.guard_eq_some' _).mp hguard
    obtain ⟨ht, happlied⟩ := h.receive localeCompare hdevice "Invalid live stream event" hpayload
    cases payload with
    | snapshot value =>
      refine ⟨fun _ => ⟨ht, ht.unmixed, ?_, fun u hu => by cases hu⟩, fun _ => trivial⟩
      rintro _ ⟨⟩
      exact happlied value rfl
    | invalid | failed => exact Inv.quiet ht.refresh trivial rfl rfl
  | sourceError =>
    rw [DetailPage.step] at hstep
    split at hstep
    · cases hstep
      exact Inv.quiet (h.of_eq rfl rfl (.inl rfl)) trivial rfl rfl
    · cases hstep
  | retry =>
    rw [DetailPage.step] at hstep
    split at hstep
    · cases hstep
      exact Inv.quiet (h.of_eq rfl rfl (.inl rfl)) trivial rfl rfl
    · cases hstep
  | fallback =>
    rw [DetailPage.step] at hstep
    split at hstep
    · cases hstep
      exact Inv.quiet h.refresh trivial rfl rfl
    · cases hstep
  | refreshed k payload =>
    simp only [DetailPage.step, Option.bind_eq_bind, Option.bind_eq_some_iff] at hstep
    obtain ⟨device, hk, _, hguard, hstep⟩ := hstep
    cases hstep
    exact h.refreshed localeCompare hk ((Option.guard_eq_some' _).mp hguard)
  | fetched k ok =>
    simp only [DetailPage.step, Option.bind_eq_bind, Option.bind_eq_some_iff] at hstep
    obtain ⟨device, hk, hstep⟩ := hstep
    cases hstep
    exact h.fetched hk

instance (s : DetailPage δ) (invalid : String) (payload : Payload δ) :
    Decidable (s.HarmlessPayload invalid payload) :=
  match payload with
  | .snapshot _ => inferInstanceAs (Decidable (_ ∧ _))
  | .invalid | .failed _ => inferInstanceAs (Decidable (_ = _))

instance (s : DetailPage δ) (a : DetailAction δ) : Decidable (s.Harmless a) :=
  match a with
  | .refreshed .. | .fetched .. => inferInstanceAs (Decidable (_ ∨ _))
  | .select _ | .reload | .getLatestLocation | .open | .event _ | .sourceError | .retry | .fallback =>
    isTrue trivial

end DetailPage

/-- Along every run the page never mixes devices exactly when every late response is harmless. -/
theorem device_switch_iff [DecidableEq δ] (localeCompare : String → String → Ordering)
    {as : List (DetailAction δ)} {t : DetailPage δ}
    (hrun : Run (DetailPage.step localeCompare) .new as t) :
    Along (DetailPage.step localeCompare)
        (fun s a => ∀ t, s.step localeCompare a = some t → s.Clean a t) .new as ↔
      Along (DetailPage.step localeCompare) DetailPage.Harmless .new as := by
  refine Run.along_iff DetailPage.Inv (fun s a t hs hstep => ?_) (fun s a t hs hstep hharmless => ?_)
    hrun DetailPage.inv_new
  · obtain ⟨hclean, hharmless⟩ := hs.step localeCompare hstep
    constructor
    · intro hall
      exact hharmless (hall t hstep)
    · intro h u hu
      obtain rfl : t = u := Option.some.inj (hstep.symm.trans hu)
      exact (hclean h).2
  · exact ((hs.step localeCompare hstep).1 hharmless).1

def neverSeen (device : Nat) : LiveLocationSnapshot Nat :=
  ⟨device, none, ⟨.neverSeen, none, none⟩, "12:00"⟩

/-- The responses for the first device arrive after those for the second: a snapshot where one is
shown already, and a failure where nothing is loading. -/
def lateAndHarmless : List (DetailAction Nat) :=
  [.select (some 1), .refreshed 0 (.snapshot (neverSeen 1)), .getLatestLocation, .select (some 2),
    .open, .refreshed 1 (.snapshot (neverSeen 2)), .refreshed 0 (.snapshot (neverSeen 1)),
    .fetched 1 true, .fetched 0 false]

theorem device_switch_late : ∃ t : DetailPage Nat,
    Run (DetailPage.step compare) .new lateAndHarmless t ∧
      Along (DetailPage.step compare)
        (fun s a => ∀ t, s.step compare a = some t → s.Clean a t) .new lateAndHarmless := by
  obtain ⟨t, hrun⟩ := Option.isSome_iff_exists.mp (show
    (lateAndHarmless.foldlM (DetailPage.step compare) .new).isSome by decide +kernel)
  exact ⟨t, hrun, (device_switch_iff compare hrun).mpr (by decide +kernel)⟩

/-- The responses for the first device arrive after the switch: its snapshot before the one of the
second, which is then ignored, and its details after the others. -/
theorem late_responses_mix : ∃ t : DetailPage Nat,
    Run (DetailPage.step compare) .new
      [.select (some 1), .select (some 2), .refreshed 0 (.snapshot (neverSeen 1)),
        .refreshed 0 (.snapshot (neverSeen 2)), .fetched 1 true, .fetched 0 true] t ∧
      t.Settled ∧ t.deviceID = some 2 ∧ t.state.snapshot.map (·.deviceID) = some 1 ∧
      t.device = some 1 ∧ ¬ t.Unmixed := by
  obtain ⟨t, hrun, ht⟩ := Option.map_eq_some_iff.mp (show
    (([.select (some 1), .select (some 2), .refreshed 0 (.snapshot (neverSeen 1)),
      .refreshed 0 (.snapshot (neverSeen 2)), .fetched 1 true, .fetched 0 true] :
        List (DetailAction Nat)).foldlM (DetailPage.step compare) .new).map
      (fun t => ((t.refreshes, t.fetches),
        t.deviceID, t.state.snapshot.map (·.deviceID), t.device)) =
        some (([], []), some 2, some 1, some 1) by decide +kernel)
  simp only [Prod.mk.injEq] at ht
  obtain ⟨hsettled, hdeviceID, hsnapshot, hdevice⟩ := ht
  refine ⟨t, hrun, hsettled, hdeviceID, hsnapshot, hdevice, fun h => ?_⟩
  exact absurd (h.details hsettled 2 hdeviceID 1 hdevice) (by decide)

end OpenGps.Frontend
