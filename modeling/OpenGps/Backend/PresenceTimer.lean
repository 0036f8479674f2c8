import Mathlib.Order.MinMax
import OpenGps.Backend.Locations
import OpenGps.Lib.Run

/-!
# The presence timer of a stream

The writers of `LocationsHandler.Stream` and `GuestShareHandler.Stream` in time. What they write was
read some time before, and they arm the presence timer some time after. A presence that expires in
between is taken for offline, and not looked at again for an hour.

The clock of the stream does not go backwards.
-/

namespace OpenGps.Backend.PresenceTimer

open OpenGps.Lib

variable {δ : Type}

def hour : Time := 60 * 60 * 1000000

/-- The time at which the timer of `presenceTimer` fires. -/
def presenceTimer (now : Time) (expiresAt : Option Time) : Time :=
  match expiresAt with
  | none => now + hour
  | some expiresAt =>
    let delay := expiresAt - now
    if delay ≤ 0 then now + hour else now + delay

/-- The time at which the timer fires after `resetTimer`, which leaves no older firing behind. -/
def resetTimer (now : Time) (expiresAt : Option Time) : Time :=
  let delay :=
    match expiresAt with
    | none => hour
    | some expiresAt => if expiresAt - now ≤ 0 then hour else expiresAt - now
  now + delay

/-! ## The writer -/

/-- A guest stream asks whether its link is still active before it writes. -/
inductive Handler where
  | locations | guestShare
  deriving DecidableEq

inductive Stage where
  | starting | looping | ended
  deriving DecidableEq

structure Writer where
  now : Time
  stage : Stage
  /-- The presence in the last snapshot that was written. -/
  shown : Option DevicePresence
  /-- When the timer fires, or did without the firing being received. -/
  timer : Option Time
  deriving DecidableEq

/-- What the service derives the presence of a snapshot from. -/
structure Reading (δ : Type) where
  lastContactAt : Option Time
  latest : Option (Location δ)
  takenAt : Time

def Reading.presence (r : Reading δ) : DevicePresence :=
  derivePresence r.lastContactAt r.latest r.takenAt livePresenceTimeout movingSpeedThresholdMPS

/-- `active` answers the guest's question, `write` says whether the write succeeds, and `elapsed` is
the time from the turn of the loop until the timer is armed. -/
inductive Action (δ : Type) where
  | wait (elapsed : ℕ)
  | snapshot (reading : Reading δ) (write : Bool) (elapsed : ℕ)
  | event (reading : Reading δ) (active write : Bool) (elapsed : ℕ)
  | keepalive (active write : Bool)
  | timer (lastContactAt : Option Time) (latest : Option (Location δ)) (active write : Bool)
      (elapsed : ℕ)
  /-- The client is gone, the channel is closed, or the read of the timer's turn fails. -/
  | stop

namespace Writer

/-- The snapshot is written, and the timer armed with `arm`. -/
def display (s : Writer) (presence : DevicePresence) (write : Bool) (elapsed : ℕ)
    (arm : Time → Option Time → Time) : Writer :=
  if write then
    { now := s.now + elapsed
      stage := .looping
      shown := some presence
      timer := some (arm (s.now + elapsed) presence.expiresAt) }
  else { s with now := s.now + elapsed, stage := .ended }

def proceeds (handler : Handler) (active : Bool) : Bool := handler = .locations ∨ active

/-- One turn of the loop. A snapshot was read before it is written; the timer's turn reads anew. -/
def step (handler : Handler) (s : Writer) : Action δ → Option Writer
  | .wait elapsed => some { s with now := s.now + elapsed }
  | .snapshot reading write elapsed =>
    if s.stage = .starting ∧ reading.takenAt ≤ s.now then
      some (s.display reading.presence write elapsed presenceTimer)
    else none
  | .event reading active write elapsed =>
    if s.stage = .looping ∧ reading.takenAt ≤ s.now then
      if proceeds handler active then some (s.display reading.presence write elapsed resetTimer)
      else some { s with stage := .ended }
    else none
  | .keepalive active write =>
    if s.stage = .looping then
      some { s with stage := if proceeds handler active && write then .looping else .ended }
    else none
  | .timer lastContactAt latest active write elapsed =>
    if s.stage = .looping ∧ s.timer.any (· ≤ s.now) then
      if proceeds handler active then
        some (s.display (Reading.presence ⟨lastContactAt, latest, s.now⟩) write elapsed resetTimer)
      else some { s with stage := .ended }
    else none
  | .stop => some { s with stage := .ended }

/-- A stream before its first snapshot. -/
def init (now : Time) : Writer := ⟨now, .starting, none, none⟩

end Writer

/-! ## The watch on a displayed presence -/

def isOnline (presence : DevicePresence) : Prop :=
  presence.state = .onlineMoving ∨ presence.state = .onlineStationary

/-- While the last presence that the client was told is online, the timer fires when it expires. -/
def Writer.Watched (s : Writer) : Prop :=
  s.stage = .looping → ∀ presence, s.shown = some presence → isOnline presence →
    ∃ expiresAt fires, presence.expiresAt = some expiresAt ∧ s.timer = some fires ∧
      fires ≤ max expiresAt s.now

/-- The presence is online and expires before the timer is armed. -/
def Late (presence : DevicePresence) (armedAt : Time) : Prop :=
  isOnline presence ∧ ∀ expiresAt, presence.expiresAt = some expiresAt → expiresAt ≤ armedAt

/-- No snapshot that the turn shows expires before the timer is armed. -/
def InTime (handler : Handler) (s : Writer) : Action δ → Prop
  | .snapshot reading write elapsed => write → ¬ Late reading.presence (s.now + elapsed)
  | .event reading active write elapsed =>
    Writer.proceeds handler active → write → ¬ Late reading.presence (s.now + elapsed)
  | .timer lastContactAt latest active write elapsed =>
    Writer.proceeds handler active → write →
      ¬ Late (Reading.presence ⟨lastContactAt, latest, s.now⟩) (s.now + elapsed)
  | _ => True

instance (presence : DevicePresence) : Decidable (isOnline presence) :=
  inferInstanceAs (Decidable (_ ∨ _))

instance (presence : DevicePresence) (armedAt : Time) : Decidable (Late presence armedAt) :=
  inferInstanceAs (Decidable (_ ∧ ∀ expiresAt, presence.expiresAt = some expiresAt → _))

instance (handler : Handler) (s : Writer) (a : Action δ) : Decidable (InTime handler s a) :=
  match a with
  | .snapshot .. => inferInstanceAs (Decidable (_ → ¬ Late _ _))
  | .event .. => inferInstanceAs (Decidable (_ → _ → ¬ Late _ _))
  | .timer .. => inferInstanceAs (Decidable (_ → _ → ¬ Late _ _))
  | .wait _ | .keepalive .. | .stop => .isTrue trivial

theorem resetTimer_eq : resetTimer = presenceTimer := by
  funext now expiresAt
  cases expiresAt with
  | none => rfl
  | some expiresAt =>
    simp only [resetTimer, presenceTimer]
    split <;> rfl

/-- A presence that is online has an expiry. -/
theorem expiresAt_of_isOnline {r : Reading δ} (h : isOnline r.presence) :
    ∃ expiresAt, r.presence.expiresAt = some expiresAt := by
  obtain ⟨lastContactAt, latest, takenAt⟩ := r
  cases lastContactAt with
  | none => rcases h with h | h <;> cases h
  | some contact => exact ⟨_, rfl⟩

namespace Writer

variable {handler : Handler} {s t : Writer} {a : Action δ}

/-- Between two snapshots the watch stays. -/
theorem Watched.later (h : s.Watched) (hshown : t.shown = s.shown) (htimer : t.timer = s.timer)
    (hstage : t.stage = .looping → s.stage = .looping) (hnow : s.now ≤ t.now) : t.Watched := by
  intro hlooping presence hpresence honline
  obtain ⟨expiresAt, fires, hexpires, hfires, hle⟩ :=
    h (hstage hlooping) presence (hshown ▸ hpresence) honline
  exact ⟨expiresAt, fires, hexpires, htimer.trans hfires, hle.trans (max_le_max le_rfl hnow)⟩

/-- A snapshot that is shown is watched exactly when it is not late. -/
theorem watched_display_iff (r : Reading δ) (elapsed : ℕ) :
    (s.display r.presence true elapsed presenceTimer).Watched ↔
      ¬ Late r.presence (s.now + elapsed) := by
  constructor
  · rintro hwatched ⟨honline, hlate⟩
    obtain ⟨expiresAt, fires, hexpires, hfires, hle⟩ := hwatched rfl _ rfl honline
    have hpast := hlate expiresAt hexpires
    -- The hour starts when the presence has expired.
    have harmed : presenceTimer (s.now + elapsed) r.presence.expiresAt = s.now + elapsed + hour := by
      rw [hexpires, presenceTimer]
      exact if_pos (Int.sub_nonpos_of_le hpast)
    have hfires : some (presenceTimer (s.now + elapsed) r.presence.expiresAt) = some fires := hfires
    obtain rfl := Option.some.inj hfires
    have hnow : (s.display r.presence true elapsed presenceTimer).now = s.now + elapsed := rfl
    rw [harmed, hnow, max_eq_right hpast] at hle
    exact absurd hle (not_le.mpr (Int.lt_add_of_pos_right _ (by decide : (0 : Time) < hour)))
  · intro hintime _ presence hpresence honline
    obtain rfl : r.presence = presence := Option.some.inj hpresence
    obtain ⟨expiresAt, hexpires⟩ := expiresAt_of_isOnline honline
    have hlater : s.now + elapsed < expiresAt := by
      by_contra hpast
      refine hintime ⟨honline, fun e he => ?_⟩
      obtain rfl := Option.some.inj (hexpires.symm.trans he)
      exact not_lt.mp hpast
    refine ⟨expiresAt, expiresAt, hexpires, ?_, le_max_left _ _⟩
    have harmed : presenceTimer (s.now + elapsed) r.presence.expiresAt = expiresAt := by
      rw [hexpires, presenceTimer]
      refine (if_neg (not_le.mpr (Int.sub_pos_of_lt hlater))).trans ?_
      rw [Int.add_comm, Int.sub_add_cancel]
    exact congrArg some harmed

theorem watched_of_ended (h : s.stage = .ended) : s.Watched := by
  intro hlooping
  rw [h] at hlooping
  cases hlooping

/-- A turn that shows a snapshot, if its write succeeds. -/
theorem watched_of_turn (r : Reading δ) (write : Bool) (elapsed : ℕ) :
    (s.display r.presence write elapsed presenceTimer).Watched ↔
      (write → ¬ Late r.presence (s.now + elapsed)) := by
  cases write with
  | false => exact iff_of_true (watched_of_ended rfl) (by simp)
  | true =>
    rw [watched_display_iff]
    exact ⟨fun h _ => h, fun h => h rfl⟩

/-- A step from a watched state ends in one exactly when what it shows is in time. -/
theorem step_iff (hs : s.Watched) (hstep : s.step handler a = some t) :
    t.Watched ↔ InTime handler s a := by
  cases a with
  | wait elapsed =>
    cases hstep
    have hnow : s.now ≤ s.now + elapsed := Int.le_add_of_nonneg_right (Int.natCast_nonneg _)
    exact iff_of_true (hs.later rfl rfl id hnow) trivial
  | snapshot reading write elapsed =>
    simp only [step] at hstep
    split at hstep
    · cases hstep
      exact watched_of_turn reading write elapsed
    · cases hstep
  | event reading active write elapsed =>
    simp only [step, resetTimer_eq] at hstep
    split at hstep
    · split at hstep
      · next hproceeds =>
        cases hstep
        rw [watched_of_turn]
        exact ⟨fun h _ => h, fun h => h hproceeds⟩
      · next hstops =>
        cases hstep
        exact iff_of_true (watched_of_ended rfl) fun h => absurd h hstops
    · cases hstep
  | keepalive active write =>
    simp only [step] at hstep
    split at hstep
    · next hlooping =>
      cases hstep
      exact iff_of_true (hs.later rfl rfl (fun _ => hlooping) le_rfl) trivial
    · cases hstep
  | timer lastContactAt latest active write elapsed =>
    simp only [step, resetTimer_eq] at hstep
    split at hstep
    · split at hstep
      · next hproceeds =>
        cases hstep
        rw [watched_of_turn]
        exact ⟨fun h _ => h, fun h => h hproceeds⟩
      · next hstops =>
        cases hstep
        exact iff_of_true (watched_of_ended rfl) fun h => absurd h hstops
    · cases hstep
  | stop =>
    cases hstep
    exact iff_of_true (watched_of_ended rfl) trivial

end Writer

/-! ## Runs -/

/-- Every state of a run watches the presence that is displayed exactly when the timer is armed for
every presence before it expires. -/
theorem presence_watched_iff {handler : Handler} {start : Time} {actions : List (Action δ)}
    {t : Writer} (hrun : Run (Writer.step handler) (.init start) actions t) :
    (∀ taken u, taken <+: actions → Run (Writer.step handler) (.init start) taken u → u.Watched) ↔
      Along (Writer.step handler) (InTime handler) (.init start) actions := by
  refine Run.all_good_iff Writer.Watched Writer.Watched (fun _ h => h) ?_ ?_ hrun ?_
  · exact fun s a u hs hstep hintime => (Writer.step_iff hs hstep).mpr hintime
  · exact fun s a u hs hstep hlate hu => hlate ((Writer.step_iff hs hstep).mp hu)
  · intro hlooping
    cases hlooping

/-- The expiry passes while the first snapshot is written. -/
def slowStart : List (Action ℕ) :=
  [.snapshot ⟨some 0, none, 0⟩ true 360000000]

theorem presence_not_watched :
    ¬ ∀ (handler : Handler) (start : Time) (actions : List (Action ℕ)) (t : Writer),
      Run (Writer.step handler) (.init start) actions t → t.Watched := by
  intro hall
  have hwatched := hall .locations 0 slowStart _ rfl rfl _ rfl (.inr rfl)
  obtain ⟨expiresAt, fires, hexpires, hfires, hle⟩ := hwatched
  cases hexpires
  cases hfires
  exact absurd hle (by decide)

/-- A snapshot, an event, the firing of the timer and a keepalive. -/
def quickTurns : List (Action ℕ) :=
  [.snapshot ⟨some 0, none, 0⟩ true 5, .wait 100, .event ⟨some 90, none, 95⟩ true true 5,
    .wait 360000000, .timer (some 90) none true true 5, .keepalive true true]

theorem presence_watched_iff_quick :
    ¬ ∃ taken u, taken <+: quickTurns ∧
      Run (Writer.step .guestShare) (.init 0) taken u ∧ ¬ u.Watched := by
  rintro ⟨taken, u, hprefix, hrun, hunwatched⟩
  have hquick : ∃ t, Run (Writer.step .guestShare) (.init 0) quickTurns t := ⟨_, rfl⟩
  obtain ⟨t, ht⟩ := hquick
  refine hunwatched ((presence_watched_iff ht).mpr ?_ taken u hprefix hrun)
  decide +kernel

end OpenGps.Backend.PresenceTimer
