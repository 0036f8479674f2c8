import OpenGps.Frontend.ApiClient
import OpenGps.Lib.NewestRequest
import OpenGps.Lib.Run

/-!
# The location requests of a page

`useLocationService` keeps three parts of state, each with the data of its requests, their error and
whether one is active: the latest location, a page of the history and the route. A call changes its
part at once and again when its response arrives. The history and the route drop the response of a
call that is not the newest; the latest location does not.
-/

namespace OpenGps.Frontend

open OpenGps.Lib

/-! ## One request -/

structure Part (δ : Type) where
  data : δ
  error : Option ApiError
  loading : Bool
  deriving DecidableEq

/-- `onStatus` is the data for a status that is not an error. -/
structure LocationRequestOptions (δ α : Type) where
  onStatus : ℕ → Option δ
  onSuccess : α → δ

variable {δ α π μ ρ : Type}

namespace Part

/-- `runLocationRequest`, up to its request. -/
def start (p : Part δ) : Part δ := { p with error := none, loading := true }

/-- `runLocationRequest`, from its response on. Every branch of it asks `isCurrent` first. -/
def settle (options : LocationRequestOptions δ α) (p : Part δ) (reply : EnvelopeReply α) : Part δ :=
  let p := match reply with
    | .thrown error => { p with error := some error }
    | .notEnvelope => { p with error := some (toApiError "empty response") }
    | .status code message =>
      match options.onStatus code with
      | some data => { p with data }
      | none => { p with error := some ⟨code, message⟩ }
    | .ok data => { p with data := options.onSuccess data }
  { p with loading := false }

/-- The part shows what the response brings. -/
def Brings (options : LocationRequestOptions δ α) (p : Part δ) : EnvelopeReply α → Prop
  | .thrown error => p.error = some error
  | .notEnvelope => p.error = some (toApiError "empty response")
  | .status code message =>
    match options.onStatus code with
    | some data => p.data = data
    | none => p.error = some ⟨code, message⟩
  | .ok data => p.data = options.onSuccess data

theorem settle_eq_self_iff (options : LocationRequestOptions δ α) (p : Part δ)
    (reply : EnvelopeReply α) :
    p.settle options reply = p ↔ p.loading = false ∧ p.Brings options reply := by
  obtain ⟨data, error, loading⟩ := p
  cases reply with
  | thrown e => simp only [settle, Brings, mk.injEq]; grind
  | notEnvelope => simp only [settle, Brings, mk.injEq]; grind
  | status code message =>
    simp only [settle, Brings]
    cases options.onStatus code with
    | none => simp only [mk.injEq]; grind
    | some d => simp only [mk.injEq]; grind
  | ok d => simp only [settle, Brings, mk.injEq]; grind

end Part

/-! ## The service -/

def latestOptions : LocationRequestOptions (Option π) π where
  onStatus status := if status = 404 then some none else none
  onSuccess := some

def historyOptions : LocationRequestOptions (List π × Option μ) (List π × μ) where
  onStatus _ := none
  onSuccess response := (response.1, some response.2)

def routeOptions : LocationRequestOptions (Option ρ) ρ where
  onStatus _ := none
  onSuccess := some

/-- `π` is a location, `μ` the pagination of a page and `ρ` a route. The numbers of the requests
are the request ids of the history and the route. -/
structure LocationService (π μ ρ : Type) where
  latest : Requests (Part (Option π)) (EnvelopeReply π)
  history : Requests (Part (List π × Option μ)) (EnvelopeReply (List π × μ))
  route : Requests (Part (Option ρ)) (EnvelopeReply ρ)
  deriving DecidableEq

/-- A call, whatever it asks for, or the arrival of the response to the `k`-th call in flight of its
kind. -/
inductive LocationAction (π μ ρ : Type) where
  | getLatestLocation
  | latestArrived (k : ℕ) (reply : EnvelopeReply π)
  | getLocationHistory
  | historyArrived (k : ℕ) (reply : EnvelopeReply (List π × μ))
  | getLocationRoute
  | routeArrived (k : ℕ) (reply : EnvelopeReply ρ)
  deriving DecidableEq

namespace LocationService

def initialLatest : Part (Option π) := ⟨none, none, false⟩

def initialHistory : Part (List π × Option μ) := ⟨([], none), none, false⟩

def initialRoute : Part (Option ρ) := ⟨none, none, false⟩

def new : LocationService π μ ρ := ⟨.new initialLatest, .new initialHistory, .new initialRoute⟩

/-- `getLocationHistory`, up to its request. -/
def startHistory (p : Part (List π × Option μ)) : Part (List π × Option μ) :=
  { p with data := ([], none) }.start

/-- `getLocationRoute`, up to its request. -/
def startRoute (p : Part (Option ρ)) : Part (Option ρ) := { p with data := none }.start

/-- `requestId === latest…RequestId.current`. -/
def isCurrent (requestId current : ℕ) : Bool := requestId = current

def step (s : LocationService π μ ρ) : LocationAction π μ ρ → Option (LocationService π μ ρ)
  | .getLatestLocation => some { s with latest := s.latest.issue Part.start }
  | .latestArrived k reply =>
    -- The request has no id, and `isCurrent` is always true.
    (s.latest.respond (Part.settle latestOptions) (fun _ _ => true) k reply).map fun latest =>
      { s with latest }
  | .getLocationHistory => some { s with history := s.history.issue startHistory }
  | .historyArrived k reply =>
    (s.history.respond (Part.settle historyOptions) isCurrent k reply).map fun history =>
      { s with history }
  | .getLocationRoute => some { s with route := s.route.issue startRoute }
  | .routeArrived k reply =>
    (s.route.respond (Part.settle routeOptions) isCurrent k reply).map fun route => { s with route }

/-! ## The newest call of each kind -/

/-- Each part is as the newest call of its kind has left it: as the call itself did, until its
response arrives, and then with the outcome of the response. -/
structure ShowsNewest (s : LocationService π μ ρ) : Prop where
  latest : s.latest.ShowsNewest (Part.settle latestOptions) initialLatest
  history : s.history.ShowsNewest (Part.settle historyOptions) initialHistory
  route : s.route.ShowsNewest (Part.settle routeOptions) initialRoute

/-- Once all responses have arrived, each part that was asked for has the outcome of the newest call
of its kind. -/
theorem ShowsNewest.all_arrived {s : LocationService π μ ρ} (h : s.ShowsNewest)
    (hlatest : s.latest.inFlight = []) (hhistory : s.history.inFlight = [])
    (hroute : s.route.inFlight = []) :
    (s.latest.issued ≠ 0 → ∃ reply, s.latest.reply = some reply ∧
        s.latest.shown = s.latest.kept.settle latestOptions reply) ∧
      (s.history.issued ≠ 0 → ∃ reply, s.history.reply = some reply ∧
        s.history.shown = s.history.kept.settle historyOptions reply) ∧
      (s.route.issued ≠ 0 → ∃ reply, s.route.reply = some reply ∧
        s.route.shown = s.route.kept.settle routeOptions reply) :=
  ⟨fun hissued => h.latest.all_arrived hissued hlatest,
    fun hissued => h.history.all_arrived hissued hhistory,
    fun hissued => h.route.all_arrived hissued hroute⟩

/-- A response of `getLatestLocation` belongs to the newest call, or the newest call has settled and
the part shows what the response brings. -/
def Harmless (s : LocationService π μ ρ) : LocationAction π μ ρ → Prop
  | .latestArrived k reply => s.latest.inFlight[k]? = some s.latest.issued ∨
      s.latest.shown.loading = false ∧ s.latest.shown.Brings latestOptions reply
  | _ => True

structure Inv (s : LocationService π μ ρ) : Prop where
  shows : s.ShowsNewest
  latest : s.latest.Numbered
  history : s.history.Numbered
  route : s.route.Numbered

theorem inv_new : (new : LocationService π μ ρ).Inv where
  shows := ⟨Requests.showsNewest_new, Requests.showsNewest_new, Requests.showsNewest_new⟩
  latest := Requests.numbered_new
  history := Requests.numbered_new
  route := Requests.numbered_new

/-- The step lemma: a step keeps the newest calls shown exactly when it is harmless. -/
theorem Inv.step {s t : LocationService π μ ρ} {a : LocationAction π μ ρ} (h : s.Inv)
    (hstep : s.step a = some t) :
    (s.Harmless a → t.Inv) ∧ (¬ s.Harmless a → ¬ t.ShowsNewest) := by
  have hself : ∀ id, isCurrent id id = true := fun id => decide_eq_true rfl
  cases a with
  | getLatestLocation =>
    cases hstep
    exact ⟨fun _ => { h with
      shows := { h.shows with latest := Requests.showsNewest_issue Part.start }
      latest := h.latest.issue Part.start }, fun hnot => absurd trivial hnot⟩
  | getLocationHistory =>
    cases hstep
    exact ⟨fun _ => { h with
      shows := { h.shows with history := Requests.showsNewest_issue startHistory }
      history := h.history.issue startHistory }, fun hnot => absurd trivial hnot⟩
  | getLocationRoute =>
    cases hstep
    exact ⟨fun _ => { h with
      shows := { h.shows with route := Requests.showsNewest_issue startRoute }
      route := h.route.issue startRoute }, fun hnot => absurd trivial hnot⟩
  | latestArrived k reply =>
    obtain ⟨latest, hrespond, rfl⟩ := Option.map_eq_some_iff.mp hstep
    have hiff := h.shows.latest.respond_iff h.latest (fun _ => rfl) hrespond
    have hharmless : s.latest.Harmless (Part.settle latestOptions) (fun _ _ => true) k reply ↔
        s.Harmless (.latestArrived k reply) := by
      obtain ⟨number, hk, -⟩ := Option.bind_eq_some_iff.mp hrespond
      rw [Requests.Harmless, Part.settle_eq_self_iff, hk, Option.any_some]
      simp [Harmless, hk]
    rw [hharmless] at hiff
    exact ⟨fun hguard => { h with
      shows := { h.shows with latest := hiff.mpr hguard }
      latest := h.latest.respond hrespond }, fun hnot ht => hnot (hiff.mp ht.latest)⟩
  | historyArrived k reply =>
    obtain ⟨history, hrespond, rfl⟩ := Option.map_eq_some_iff.mp hstep
    obtain ⟨number, hk, -⟩ := Option.bind_eq_some_iff.mp hrespond
    have hiff := h.shows.history.respond_iff h.history hself hrespond
    exact ⟨fun _ => { h with
      shows := { h.shows with history := hiff.mpr (Requests.harmless_of_guarded hk) }
      history := h.history.respond hrespond }, fun hnot => absurd trivial hnot⟩
  | routeArrived k reply =>
    obtain ⟨route, hrespond, rfl⟩ := Option.map_eq_some_iff.mp hstep
    obtain ⟨number, hk, -⟩ := Option.bind_eq_some_iff.mp hrespond
    have hiff := h.shows.route.respond_iff h.route hself hrespond
    exact ⟨fun _ => { h with
      shows := { h.shows with route := hiff.mpr (Requests.harmless_of_guarded hk) }
      route := h.route.respond hrespond }, fun hnot => absurd trivial hnot⟩

instance [DecidableEq δ] (options : LocationRequestOptions δ α) (p : Part δ)
    (reply : EnvelopeReply α) : Decidable (p.Brings options reply) :=
  match reply with
  | .thrown _ | .notEnvelope | .ok _ => inferInstanceAs (Decidable (_ = _))
  | .status code _ =>
    match h : options.onStatus code with
    | some data => decidable_of_iff (p.data = data) (by rw [Part.Brings, h])
    | none => decidable_of_iff (p.error = some ⟨code, _⟩) (by rw [Part.Brings, h])

instance [DecidableEq π] (s : LocationService π μ ρ) (a : LocationAction π μ ρ) :
    Decidable (s.Harmless a) :=
  match a with
  | .latestArrived _ _ => inferInstanceAs (Decidable (_ ∨ _ ∧ _))
  | .getLatestLocation | .getLocationHistory | .historyArrived _ _ | .getLocationRoute
  | .routeArrived _ _ => isTrue trivial

end LocationService

/-- In every state of a run the three parts are as the newest call of each kind has left them
exactly when every response to an older `getLatestLocation` finds the newest settled, and brings
what is shown already. -/
theorem newest_location_iff {as : List (LocationAction π μ ρ)} {t : LocationService π μ ρ}
    (hrun : Run LocationService.step .new as t) :
    (∀ bs s, bs <+: as → Run LocationService.step .new bs s → s.ShowsNewest) ↔
      Along LocationService.step LocationService.Harmless .new as :=
  hrun.all_good_iff LocationService.Inv LocationService.ShowsNewest (fun _ h => h.shows)
    (fun _ _ _ h hstep => (h.step hstep).1) (fun _ _ _ h hstep => (h.step hstep).2)
    LocationService.inv_new

/-- Two routes and two pages overtake each other; the polls of the latest location do not. -/
def overtaking : List (LocationAction ℕ ℕ ℕ) :=
  [.getLatestLocation, .getLocationRoute, .getLocationRoute, .routeArrived 1 (.ok 2),
    .getLocationHistory, .getLocationHistory, .latestArrived 0 (.status 404 "no location"),
    .historyArrived 1 (.thrown (toApiError "Network error")), .historyArrived 0 (.ok ([1], 1)),
    .routeArrived 0 (.ok 1), .getLatestLocation, .latestArrived 0 (.ok 1)]

theorem newest_location_overtaking : ∃ t : LocationService ℕ ℕ ℕ,
    Run LocationService.step .new overtaking t ∧
      ∀ bs s, bs <+: overtaking → Run LocationService.step .new bs s → s.ShowsNewest := by
  obtain ⟨t, hrun⟩ := Option.isSome_iff_exists.mp (show
    (overtaking.foldlM LocationService.step (.new : LocationService ℕ ℕ ℕ)).isSome by
      decide +kernel)
  exact ⟨t, hrun, (newest_location_iff hrun).mpr (by decide +kernel)⟩

/-- The location of the first device arrives after that of the second, and stays. -/
theorem older_location_stays : ∃ t : LocationService ℕ ℕ ℕ,
    Run LocationService.step .new
      [.getLatestLocation, .getLatestLocation, .latestArrived 1 (.ok 2),
        .latestArrived 0 (.ok 1)] t ∧
      t.latest.inFlight = [] ∧ t.latest.reply = some (.ok 2) ∧ t.latest.shown.data = some 1 ∧
      ¬ t.ShowsNewest := by
  refine ⟨_, rfl, rfl, rfl, rfl, fun h => ?_⟩
  exact absurd (h.latest.settled (.ok 2) rfl) (by decide)

end OpenGps.Frontend
