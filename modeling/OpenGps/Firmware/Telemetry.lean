import Mathlib.Data.Nat.Count
import Mathlib.Data.Nat.Periodic
import OpenGps.Lib.CallLog

/-!
# The status LED (`src/telemetry.cpp`)

The state of the device is shown by the charging LED: a steady mode, or a train of blinks whose
number is the code of the state. `telemetry_tick` advances the train, and a success lights the LED
for a moment over whatever it shows.
-/

namespace OpenGps.Firmware

open OpenGps.Lib

/-! ## The states and their LED -/

inductive SystemState where
  | booting
  | connectingNetwork
  | waitingGnssFix
  | gnssFixReady
  | gnssNoResponse
  | uploadingApi
  | errBoard
  | errSecrets
  | errNetwork
  | errApiTransport
  | errApiHttp
  | errApiConfig
  deriving DecidableEq

/-- The modes of the charging LED of the PMU that the firmware uses. -/
inductive ChargingLedMode where
  | off
  | blink1Hz
  | blink4Hz
  | on
  deriving DecidableEq

def successPulseMs : UInt32 := 250

def ledBlinkStepMs : UInt32 := 150

/-- Off-steps after the blink train before the pattern restarts. -/
def blinkSequencePad : UInt8 := 6

def patternBlinks : SystemState → UInt8
  | .waitingGnssFix => 2
  | .gnssNoResponse => 3
  | .errApiTransport => 4
  | .errApiHttp => 5
  | .errBoard => 6
  | .errSecrets => 7
  | .errApiConfig => 8
  | _ => 0

/-- The mode that `applyStateLed` sets. -/
def stateLed : SystemState → ChargingLedMode
  | .booting => .on
  | .connectingNetwork => .blink4Hz
  | .uploadingApi => .blink4Hz
  | .errNetwork => .blink1Hz
  | .gnssFixReady => .on
  | _ => .off

/-- The variables of the file, and the mode the PMU was told last; it is told to light the LED when
the board comes up. -/
structure Telemetry where
  currentState : SystemState := .booting
  stateInitialized : Bool := false
  lastBlinkMs : UInt32 := 0
  blinkStep : UInt8 := 0
  successPulse : Bool := false
  successPulseUntil : UInt32 := 0
  led : ChargingLedMode := .on
  deriving DecidableEq

namespace Telemetry

def setState (t : Telemetry) (state : SystemState) : Telemetry :=
  if t.stateInitialized ∧ t.currentState = state then t
  else
    { t with
      currentState := state, stateInitialized := true, blinkStep := 0, successPulse := false
      led := stateLed state }

def pulseSuccess (t : Telemetry) (now : UInt32) : Telemetry :=
  { t with successPulse := true, successPulseUntil := now + successPulseMs, led := .on }

/-- The part of `telemetry_tick` that is about the pattern. -/
def blink (t : Telemetry) (now : UInt32) : Telemetry :=
  let targetBlinks := patternBlinks t.currentState
  if targetBlinks = 0 then t
  else
    let sequenceLength := targetBlinks * 2 + blinkSequencePad
    if now - t.lastBlinkMs < ledBlinkStepMs then t
    else
      let t := { t with lastBlinkMs := now, blinkStep := t.blinkStep + 1 }
      if t.blinkStep ≤ targetBlinks * 2 then
        { t with led := if t.blinkStep % 2 ≠ 0 then .on else .off }
      else if t.blinkStep ≥ sequenceLength then { t with blinkStep := 0 }
      else { t with led := .off }

def tick (t : Telemetry) (now : UInt32) : Telemetry :=
  if t.successPulse then
    if (now - t.successPulseUntil).toInt32 < 0 then t
    else { t with successPulse := false, led := stateLed t.currentState }.blink now
  else t.blink now

end Telemetry

inductive TelemetryCall where
  | setState (state : SystemState)
  | pulseSuccess
  | tick
  deriving DecidableEq

/-- What a call does, and the mode of the LED after it. -/
def Telemetry.call (t : Telemetry) (call : TelemetryCall) (now : UInt32) :
    ChargingLedMode × Telemetry :=
  let t :=
    match call with
    | .setState state => t.setState state
    | .pulseSuccess => t.pulseSuccess now
    | .tick => t.tick now
  (t.led, t)

/-! ## What the LED shows -/

/-- The length of the sequence with `n` blinks. -/
def sequenceSteps (n : ℕ) : ℕ := 2 * n + 6

/-- The LED after `k` steps of the sequence with `n` blinks. -/
def ledCode (n k : ℕ) : ChargingLedMode :=
  let step := k % sequenceSteps n
  if step % 2 = 1 ∧ step ≤ 2 * n then .on else .off

/-- A state has a steady mode or a pattern. In a pattern the LED is lit by a blink or by a success,
and the step stays within the sequence. -/
structure Telemetry.Shows (t : Telemetry) : Prop where
  pulse : t.successPulse → t.led = .on
  steady : patternBlinks t.currentState = 0 →
    t.blinkStep = 0 ∧ (t.successPulse = false → t.led = stateLed t.currentState)
  pattern : patternBlinks t.currentState ≠ 0 →
    t.blinkStep.toNat < sequenceSteps (patternBlinks t.currentState).toNat ∧
      (t.successPulse = false → t.led = .off ∨
        t.led = .on ∧ ledCode (patternBlinks t.currentState).toNat t.blinkStep.toNat = .on)

theorem patternBlinks_le (state : SystemState) : (patternBlinks state).toNat ≤ 8 := by
  cases state <;> decide

theorem stateLed_of_pattern {state : SystemState} (h : patternBlinks state ≠ 0) :
    stateLed state = .off := by
  cases state <;> first | rfl | exact absurd rfl h

@[simp] theorem ledCode_zero (n : ℕ) : ledCode n 0 = .off := by
  rw [ledCode, Nat.zero_mod]
  exact if_neg (by simp)

theorem ledCode_mod (n k : ℕ) : ledCode n (k % sequenceSteps n) = ledCode n k := by
  rw [ledCode, ledCode, Nat.mod_mod]

theorem sequenceSteps_pos (n : ℕ) : 0 < sequenceSteps n := Nat.succ_pos _

theorem ledCode_eq_on_iff {n k : ℕ} (h : k < sequenceSteps n) :
    ledCode n k = .on ↔ k % 2 = 1 ∧ k ≤ 2 * n := by
  rw [ledCode, Nat.mod_eq_of_lt h]
  split
  next hon => exact iff_of_true rfl hon
  next hoff => exact iff_of_false (by simp) hoff

theorem ledCode_cases (n k : ℕ) : ledCode n k = .on ∨ ledCode n k = .off := by
  rw [ledCode]
  split
  next => exact .inl rfl
  next => exact .inr rfl

/-- Where the sequence starts again the LED stays off. -/
theorem ledCode_restart {n k : ℕ} (h : (k + 1) % sequenceSteps n = 0) : ledCode n k = .off := by
  have hlt := Nat.mod_lt k (sequenceSteps_pos n)
  have hlast : k % sequenceSteps n + 1 = sequenceSteps n := by
    by_contra hne
    rw [← Nat.mod_add_mod, Nat.mod_eq_of_lt (by omega)] at h
    exact Nat.succ_ne_zero _ h
  rw [← ledCode_mod]
  refine (ledCode_cases n _).resolve_left fun hon => ?_
  have hlit := (ledCode_eq_on_iff hlt).mp hon
  have hlength : sequenceSteps n = 2 * n + 6 := rfl
  omega

namespace Telemetry

variable {t : Telemetry} {now : UInt32} {n k : ℕ}

theorem blink_of_steady (h : patternBlinks t.currentState = 0) : t.blink now = t := by
  rw [blink]
  exact if_pos h

theorem blink_of_early (h : now - t.lastBlinkMs < ledBlinkStepMs) : t.blink now = t := by
  rw [blink]
  dsimp only
  rw [if_pos h, ite_self]

/-- A tick that is not early takes the next step. Where the sequence starts again it leaves the LED
alone. -/
theorem blink_of_due (hn : (patternBlinks t.currentState).toNat = n) (hpos : 0 < n)
    (hstep : t.blinkStep.toNat = k % sequenceSteps n) (h : ¬ now - t.lastBlinkMs < ledBlinkStepMs) :
    (t.blink now).currentState = t.currentState ∧ (t.blink now).successPulse = t.successPulse ∧
      (t.blink now).lastBlinkMs = now ∧
      (t.blink now).blinkStep.toNat = (k + 1) % sequenceSteps n ∧
      (t.blink now).led = if (k + 1) % sequenceSteps n = 0 then t.led else ledCode n (k + 1) := by
  have hle : n ≤ 8 := hn ▸ patternBlinks_le _
  have hlt : k % sequenceSteps n < sequenceSteps n := Nat.mod_lt _ (sequenceSteps_pos n)
  have hnext : (t.blinkStep + 1).toNat = k % sequenceSteps n + 1 := by
    rw [UInt8.toNat_add, hstep]
    simp only [sequenceSteps] at hlt ⊢
    exact Nat.mod_eq_of_lt (by simp; omega)
  have hdouble : (patternBlinks t.currentState * 2).toNat = 2 * n := by
    rw [UInt8.toNat_mul, hn]
    simp
    omega
  have hlength : (patternBlinks t.currentState * 2 + blinkSequencePad).toNat = sequenceSteps n := by
    rw [UInt8.toNat_add, hdouble]
    simp [blinkSequencePad, sequenceSteps]
    omega
  have hcode : ledCode n (k + 1) = ledCode n (k % sequenceSteps n + 1) := by
    rw [← ledCode_mod, ← ledCode_mod n (k % _ + 1), Nat.mod_add_mod]
  have hmod : (k + 1) % sequenceSteps n = (k % sequenceSteps n + 1) % sequenceSteps n := by
    rw [Nat.mod_add_mod]
  rw [hcode, hmod]
  generalize k % sequenceSteps n = j at *
  rw [blink]
  dsimp only
  rw [if_neg (by rintro hzero; rw [hzero] at hn; simp at hn; omega), if_neg h]
  split
  next hblink =>
    rw [UInt8.le_iff_toNat_le, hdouble, hnext] at hblink
    have hin : j + 1 < sequenceSteps n := by rw [sequenceSteps]; omega
    refine ⟨rfl, rfl, rfl, hnext.trans (Nat.mod_eq_of_lt hin).symm, ?_⟩
    rw [Nat.mod_eq_of_lt hin, if_neg (Nat.succ_ne_zero j), ledCode, Nat.mod_eq_of_lt hin]
    have hodd : (t.blinkStep + 1) % 2 ≠ 0 ↔ (j + 1) % 2 = 1 := by
      rw [ne_eq, ← UInt8.toNat_inj, UInt8.toNat_mod, hnext]
      simp
    simp only [hodd, hblink, and_true]
  next hpad =>
    rw [UInt8.le_iff_toNat_le, hdouble, hnext] at hpad
    split
    next hend =>
      rw [ge_iff_le, UInt8.le_iff_toNat_le, hlength, hnext] at hend
      have heq : j + 1 = sequenceSteps n := by omega
      rw [heq, Nat.mod_self]
      exact ⟨rfl, rfl, rfl, rfl, rfl⟩
    next hmid =>
      rw [ge_iff_le, UInt8.le_iff_toNat_le, hlength, hnext] at hmid
      have hin : j + 1 < sequenceSteps n := by omega
      refine ⟨rfl, rfl, rfl, hnext.trans (Nat.mod_eq_of_lt hin).symm, ?_⟩
      rw [Nat.mod_eq_of_lt hin, if_neg (Nat.succ_ne_zero j), ledCode, Nat.mod_eq_of_lt hin]
      exact (if_neg fun hon => hpad hon.2).symm

theorem tick_of_quiet (h : t.successPulse = false) : t.tick now = t.blink now := by
  rw [tick, h]
  rfl

theorem setState_of_new {state : SystemState} (h : ¬ (t.stateInitialized ∧ t.currentState = state)) :
    t.setState state =
      { t with
        currentState := state, stateInitialized := true, blinkStep := 0, successPulse := false
        led := stateLed state } := if_neg h

end Telemetry

/-! ## Every call keeps the LED true -/

namespace Telemetry.Shows

variable {t : Telemetry} {now : UInt32}

theorem init : ({} : Telemetry).Shows where
  pulse _ := rfl
  steady _ := ⟨rfl, fun _ => rfl⟩
  pattern h := absurd rfl h

/-- A state that has just been entered, or that a pulse has just left to its pattern. -/
theorem ofStateLed (hled : t.led = stateLed t.currentState) (hpulse : t.successPulse = false)
    (hsteady : patternBlinks t.currentState = 0 → t.blinkStep = 0)
    (hpattern : patternBlinks t.currentState ≠ 0 →
      t.blinkStep.toNat < sequenceSteps (patternBlinks t.currentState).toNat) : t.Shows where
  pulse h := absurd (hpulse.symm.trans h) (by simp)
  steady h := ⟨hsteady h, fun _ => hled⟩
  pattern h := ⟨hpattern h, fun _ => .inl (hled.trans (stateLed_of_pattern h))⟩

theorem setState (h : t.Shows) (state : SystemState) : (t.setState state).Shows := by
  unfold Telemetry.setState
  split
  next => exact h
  next => exact ofStateLed rfl rfl (fun _ => rfl) fun _ => Nat.succ_pos _

theorem pulseSuccess (h : t.Shows) : (t.pulseSuccess now).Shows where
  pulse _ := rfl
  steady hn := ⟨(h.steady hn).1, fun hquiet => absurd hquiet (by simp [Telemetry.pulseSuccess])⟩
  pattern hn := ⟨(h.pattern hn).1, fun hquiet => absurd hquiet (by simp [Telemetry.pulseSuccess])⟩

theorem blink (h : t.Shows) (hquiet : t.successPulse = false) : (t.blink now).Shows := by
  by_cases hn : patternBlinks t.currentState = 0
  · rw [blink_of_steady hn]
    exact h
  by_cases hearly : now - t.lastBlinkMs < ledBlinkStepMs
  · rw [blink_of_early hearly]
    exact h
  obtain ⟨hlt, hled⟩ := h.pattern hn
  have hpos : 0 < (patternBlinks t.currentState).toNat :=
    Nat.pos_of_ne_zero fun hzero => hn (UInt8.toNat_inj.mp hzero)
  obtain ⟨hstate, hpulse, -, hstep, hnext⟩ :=
    blink_of_due rfl hpos (Nat.mod_eq_of_lt hlt).symm hearly
  refine ⟨fun hon => ?_, fun hzero => ?_, fun _ => ⟨?_, fun _ => ?_⟩⟩
  · exact absurd (hquiet.symm.trans (hpulse.symm.trans hon)) (by simp)
  · exact absurd (hstate ▸ hzero) hn
  · rw [hstate, hstep]
    exact Nat.mod_lt _ (sequenceSteps_pos _)
  · rw [hstate, hstep, ledCode_mod, hnext]
    split
    next hrestart =>
      refine (hled hquiet).imp_right fun hlit => absurd hlit.2 ?_
      rw [ledCode_restart hrestart]
      simp
    next =>
      rcases ledCode_cases (patternBlinks t.currentState).toNat (t.blinkStep.toNat + 1) with h | h
      · exact .inr ⟨h, h⟩
      · exact .inl h

theorem tick (h : t.Shows) : (t.tick now).Shows := by
  unfold Telemetry.tick
  split
  next hpulse =>
    split
    next => exact h
    next =>
      refine blink (ofStateLed rfl rfl (fun hn => (h.steady hn).1) fun hn => (h.pattern hn).1) rfl
  next hquiet => exact h.blink (by simpa using hquiet)

theorem call (h : t.Shows) (call : TelemetryCall) : (t.call call now).2.Shows := by
  cases call with
  | setState state => exact h.setState state
  | pulseSuccess => exact h.pulseSuccess
  | tick => exact h.tick

end Telemetry.Shows

/-- In every run of the calls from boot, at any times, the LED shows the state: a steady state its
mode, a pattern only blinks of its own sequence, and a success a lit LED. -/
theorem led_shows_state (start : ℕ) (calls : List (ℕ × TelemetryCall))
    (s : Called Telemetry TelemetryCall ChargingLedMode)
    (hrun : Run (callStep Telemetry.call) ⟨start, {}, []⟩ calls s) : s.state.Shows := by
  have hstep : ∀ (s : Called Telemetry TelemetryCall ChargingLedMode) call t, s.state.Shows →
      callStep Telemetry.call s call = some t → t.state.Shows := by
    intro s call t hs hcall
    rw [callStep, Option.ite_none_right_eq_some] at hcall
    obtain ⟨-, heq⟩ := hcall
    obtain rfl := Option.some.inj heq
    exact hs.call call.2
  exact hrun.invariant hstep .init

/-- A search, an upload with a success, and a tick after it. -/
theorem led_shows_state_upload : ∃ s, Run (callStep Telemetry.call) ⟨0, {}, []⟩
    [(3000, .setState .waitingGnssFix), (200, .tick), (40, .setState .uploadingApi),
      (900, .setState .waitingGnssFix), (0, .pulseSuccess), (300, .tick)] s ∧ s.state.Shows := by
  have hcalls : ∀ call ∈ [(3000, TelemetryCall.setState .waitingGnssFix), (200, .tick),
      (40, .setState .uploadingApi), (900, .setState .waitingGnssFix), (0, .pulseSuccess),
      (300, .tick)], call.1 < 2 ^ 31 := by decide
  obtain ⟨s, hrun⟩ := exists_called Telemetry.call hcalls ⟨0, {}, []⟩
  exact ⟨s, hrun, led_shows_state 0 _ s hrun⟩

/-! ## The code of a pattern -/

/-- Any sequence of steps that is as long as the pattern lights the LED as often as it has blinks. -/
theorem card_ledCode (n k : ℕ) :
    ((Finset.Ico k (k + sequenceSteps n)).filter fun i => ledCode n i = .on).card = n := by
  have hperiodic : Function.Periodic (fun i => ledCode n i = .on) (sequenceSteps n) := by
    intro i
    dsimp only
    rw [← ledCode_mod n (i + _), Nat.add_mod_right, ledCode_mod]
  have hblinks : ∀ m ≤ n, Nat.count (fun i => ledCode n i = .on) (2 * m) = m := by
    intro m hm
    induction m with
    | zero => rfl
    | succ m ih =>
      have heven : ¬ ledCode n (2 * m) = .on := by
        rw [ledCode_eq_on_iff (by rw [sequenceSteps]; omega)]
        omega
      have hodd : ledCode n (2 * m + 1) = .on := by
        rw [ledCode_eq_on_iff (by rw [sequenceSteps]; omega)]
        omega
      rw [Nat.mul_succ, Nat.count_succ, Nat.count_succ, ih (by omega), if_neg heven, if_pos hodd]
  have hpad : Nat.count (fun i => ledCode n (2 * n + i) = .on) 6 = 0 := by
    rw [Nat.count_eq_card_filter_range, Finset.filter_false_of_mem, Finset.card_empty]
    intro i hi
    have hlt := Finset.mem_range.mp hi
    rw [ledCode_eq_on_iff (by rw [sequenceSteps]; omega)]
    omega
  rw [Nat.filter_Ico_card_eq_of_periodic _ _ _ hperiodic, sequenceSteps, Nat.count_add,
    hblinks n (Nat.le_refl n), hpad, Nat.add_zero]

/-- The first tick of a log, and the ticks at which the sequence advanced. -/
def anchors (log : List (Entry TelemetryCall ChargingLedMode)) (steps : List ℕ) : List ℕ :=
  (log.head?.map Entry.time).toList ++ steps

/-- What the log of some ticks has to do with the times of the steps among them: the steps are
spaced, the LED shows the code of the steps so far, and no step is late. -/
structure Blinks (n : ℕ) (log : List (Entry TelemetryCall ChargingLedMode)) (steps : List ℕ) :
    Prop where
  spaced : steps.IsChain fun a b => a + ledBlinkStepMs.toNat ≤ b
  shown : ∀ entry ∈ log, entry.output = ledCode n (steps.countP (· ≤ entry.time))
  due : ∀ entry ∈ log, ∃ τ ∈ anchors log steps, τ ≤ entry.time ∧
    entry.time < τ + ledBlinkStepMs.toNat

/-- What the component keeps of its log while it only ticks. -/
structure Blinking (n : ℕ) (state : SystemState)
    (s : Called Telemetry TelemetryCall ChargingLedMode) (steps : List ℕ) : Prop where
  blinks : Blinks n s.log steps
  state : s.state.currentState = state
  quiet : s.state.successPulse = false
  step : s.state.blinkStep.toNat = steps.length % sequenceSteps n
  led : s.state.led = ledCode n steps.length
  last : ∀ τ ∈ steps.getLast?, s.state.lastBlinkMs = counter τ
  past : ∀ τ ∈ steps, τ ≤ s.clock
  logged : ∀ entry ∈ s.log, entry.time ≤ s.clock
  recent : s.log = [] ∧ steps = [] ∨ ∃ τ ∈ anchors s.log steps, τ ≤ s.clock ∧
    (counter τ - s.state.lastBlinkMs).toNat + (s.clock - τ) < ledBlinkStepMs.toNat

theorem mem_anchors_concat {log : List (Entry TelemetryCall ChargingLedMode)}
    {steps : List ℕ} {entry : Entry TelemetryCall ChargingLedMode} {τ : ℕ}
    (h : τ ∈ anchors log steps) : τ ∈ anchors (log ++ [entry]) steps := by
  cases log with
  | nil => exact List.mem_append_right _ (by simpa [anchors] using h)
  | cons first rest => exact h

theorem mem_anchors_step {log : List (Entry TelemetryCall ChargingLedMode)}
    {steps : List ℕ} {τ now : ℕ} (h : τ ∈ anchors log steps) : τ ∈ anchors log (steps ++ [now]) := by
  rw [anchors, ← List.append_assoc]
  exact List.mem_append_left _ h

namespace Blinking

variable {n : ℕ} {state : SystemState} {s : Called Telemetry TelemetryCall ChargingLedMode}
  {steps : List ℕ} {now : ℕ}

theorem start (hn : (patternBlinks state).toNat = n) (hpos : 0 < n) {t : Telemetry}
    (hnew : ¬ (t.stateInitialized ∧ t.currentState = state)) (time : ℕ) :
    Blinking n state ⟨time, t.setState state, []⟩ [] := by
  have hpattern : patternBlinks state ≠ 0 := by
    rintro hzero
    rw [hzero] at hn
    exact absurd hn.symm hpos.ne'
  rw [Telemetry.setState_of_new hnew]
  exact {
    blinks := ⟨List.isChain_nil, by simp, by simp⟩
    state := rfl
    quiet := rfl
    step := rfl
    led := (stateLed_of_pattern hpattern).trans (ledCode_zero n).symm
    last := by simp
    past := by simp
    logged := by simp
    recent := .inl ⟨rfl, rfl⟩ }

/-- A tick before its time changes nothing. -/
theorem early (h : Blinking n state s steps) (hclock : s.clock ≤ now)
    (hnow : now < s.clock + 2 ^ 31)
    (hearly : counter now - s.state.lastBlinkMs < ledBlinkStepMs) :
    Blinking n state (s.after Telemetry.call .tick now) steps := by
  have hsame : s.state.call .tick (counter now) = (s.state.led, s.state) := by
    rw [Telemetry.call, Telemetry.tick_of_quiet h.quiet, Telemetry.blink_of_early hearly]
  rw [UInt32.lt_iff_toNat_lt] at hearly
  have hrecent : ∃ τ ∈ anchors (s.log ++ [⟨now, .tick, s.state.led⟩]) steps, τ ≤ now ∧
      (counter τ - s.state.lastBlinkMs).toNat + (now - τ) < ledBlinkStepMs.toNat := by
    rcases h.recent with ⟨hlog, hsteps⟩ | ⟨τ, hτ, hle, hage⟩
    · refine ⟨now, ?_, Nat.le_refl _, by omega⟩
      simp [anchors, hlog]
    · refine ⟨τ, mem_anchors_concat hτ, by omega, ?_⟩
      have hms : ledBlinkStepMs.toNat = 150 := rfl
      rw [toNat_counter_sub_add (a := τ) (by omega), Nat.mod_eq_of_lt (by omega)] at hearly
      exact hearly
  rw [Called.after, hsame]
  refine { h with
    blinks := ⟨h.blinks.spaced, ?_, ?_⟩
    past := fun τ hτ => (h.past τ hτ).trans hclock
    logged := ?_
    recent := .inr hrecent }
  · rw [List.forall_mem_append, List.forall_mem_singleton]
    refine ⟨h.blinks.shown, h.led.trans ?_⟩
    rw [List.countP_eq_length.mpr fun τ hτ => by simpa using (h.past τ hτ).trans hclock]
  · rw [List.forall_mem_append, List.forall_mem_singleton]
    refine ⟨fun entry hentry => ?_, ?_⟩
    · obtain ⟨τ, hτ, hdue⟩ := h.blinks.due entry hentry
      exact ⟨τ, mem_anchors_concat hτ, hdue⟩
    · obtain ⟨τ, hτ, hle, hage⟩ := hrecent
      exact ⟨τ, hτ, hle, by dsimp only; omega⟩
  · rw [List.forall_mem_append, List.forall_mem_singleton]
    exact ⟨fun entry hentry => (h.logged entry hentry).trans hclock, Nat.le_refl _⟩

/-- A tick that is due takes the next step. -/
theorem due (h : Blinking n state s steps) (hn : (patternBlinks state).toNat = n) (hpos : 0 < n)
    (hclock : s.clock ≤ now) (hdue : ¬ counter now - s.state.lastBlinkMs < ledBlinkStepMs) :
    Blinking n state (s.after Telemetry.call .tick now) (steps ++ [now]) := by
  obtain ⟨hstate, hpulse, hlast, hstep, hled⟩ :=
    Telemetry.blink_of_due (h.state ▸ hn) hpos h.step hdue
  have hled : (s.state.blink (counter now)).led = ledCode n (steps ++ [now]).length := by
    rw [hled, List.length_append, List.length_singleton]
    split
    next hrestart =>
      rw [h.led, ledCode_restart hrestart, ← ledCode_mod, hrestart, ledCode_zero]
    next => rfl
  rw [UInt32.lt_iff_toNat_lt, Nat.not_lt] at hdue
  -- No step was taken at the time of this tick before.
  have hlater : s.log = [] ∨ s.clock < now := by
    rcases h.recent with ⟨hlog, -⟩ | ⟨τ, -, hle, hage⟩
    · exact .inl hlog
    · refine .inr (Nat.lt_of_le_of_ne hclock fun heq => ?_)
      rw [← heq, toNat_counter_sub_add hle] at hdue
      have := Nat.mod_le ((counter τ - s.state.lastBlinkMs).toNat + (s.clock - τ)) (2 ^ 32)
      omega
  have hpast : ∀ τ ∈ steps ++ [now], τ ≤ now := by
    rw [List.forall_mem_append, List.forall_mem_singleton]
    exact ⟨fun τ hτ => (h.past τ hτ).trans hclock, Nat.le_refl _⟩
  rw [Called.after, Telemetry.call, Telemetry.tick_of_quiet h.quiet]
  refine ⟨⟨?_, ?_, ?_⟩, hstate.trans h.state, hpulse.trans h.quiet, ?_, hled, ?_, hpast, ?_, ?_⟩
  · refine List.isChain_append.mpr ⟨h.blinks.spaced, List.isChain_singleton _, fun τ hτ b hb => ?_⟩
    obtain rfl : now = b := Option.some.inj hb
    rw [h.last τ hτ] at hdue
    have hle := h.past τ (List.mem_of_getLast? hτ)
    have helapsed := hdue.trans (counter_sub_le (hle.trans hclock))
    omega
  · rw [List.forall_mem_append, List.forall_mem_singleton]
    refine ⟨fun entry hentry => ?_, hled.trans ?_⟩
    · have hbefore : ¬ now ≤ entry.time := by
        have hle := h.logged entry hentry
        rcases hlater with hlog | hlt
        · rw [hlog] at hentry
          exact absurd hentry List.not_mem_nil
        · omega
      rw [List.countP_append, List.countP_singleton, if_neg (by simpa using hbefore)]
      exact h.blinks.shown entry hentry
    · rw [List.countP_eq_length.mpr fun τ hτ => by simpa using hpast τ hτ]
  · rw [List.forall_mem_append, List.forall_mem_singleton]
    refine ⟨fun entry hentry => ?_, now, by simp [anchors], Nat.le_refl _, ?_⟩
    · obtain ⟨τ, hτ, hdue⟩ := h.blinks.due entry hentry
      exact ⟨τ, mem_anchors_step (mem_anchors_concat hτ), hdue⟩
    · exact Nat.lt_add_of_pos_right (by decide)
  · rw [List.length_append, List.length_singleton]
    exact hstep
  · rw [List.getLast?_concat]
    rintro τ hτ
    obtain rfl := Option.some.inj hτ
    exact hlast
  · rw [List.forall_mem_append, List.forall_mem_singleton]
    exact ⟨fun entry hentry => (h.logged entry hentry).trans hclock, Nat.le_refl _⟩
  · refine .inr ⟨now, by simp [anchors], Nat.le_refl _, ?_⟩
    dsimp only
    rw [hlast, Nat.sub_self, UInt32.sub_self]
    decide

end Blinking

/-- A state with a pattern that is entered and then only ticked, at any times less than half of the
clock's range apart: the LED shows the code of the steps taken so far, two steps are 150 ms or more
apart, at every tick the last step is less than 150 ms old, and every period of the pattern lights
the LED as often as the state has blinks. -/
theorem blink_code (state : SystemState) (hpattern : patternBlinks state ≠ 0) (t : Telemetry)
    (hnew : ¬ (t.stateInitialized ∧ t.currentState = state)) (start : ℕ) (gaps : List ℕ)
    (s : Called Telemetry TelemetryCall ChargingLedMode)
    (hrun : Run (callStep Telemetry.call) ⟨start, t.setState state, []⟩
      (gaps.map fun gap => (gap, .tick)) s) :
    (∃ steps, Blinks (patternBlinks state).toNat s.log steps) ∧
      ∀ k, ((Finset.Ico k (k + sequenceSteps (patternBlinks state).toNat)).filter
        fun i => ledCode (patternBlinks state).toNat i = .on).card = (patternBlinks state).toNat := by
  refine ⟨?_, card_ledCode _⟩
  have hpos : 0 < (patternBlinks state).toNat :=
    Nat.pos_of_ne_zero fun hzero => hpattern (UInt8.toNat_inj.mp hzero)
  have hall : ∀ (gaps : List ℕ) (s s' : Called Telemetry TelemetryCall ChargingLedMode),
      Run (callStep Telemetry.call) s (gaps.map fun gap => (gap, .tick)) s' →
      (∃ steps, Blinking (patternBlinks state).toNat state s steps) →
      ∃ steps, Blinking (patternBlinks state).toNat state s' steps := by
    intro gaps
    induction gaps with
    | nil =>
      intro s s' hrun hs
      exact Run.nil_iff.mp hrun ▸ hs
    | cons gap gaps ih =>
      rintro s s' hrun ⟨steps, hs⟩
      obtain ⟨u, hu, hrest⟩ := Run.cons_iff.mp hrun
      rw [callStep, Option.ite_none_right_eq_some] at hu
      obtain ⟨hgap, heq⟩ := hu
      obtain rfl := Option.some.inj heq
      refine ih _ s' hrest ?_
      have hclock : s.clock ≤ s.clock + gap := Nat.le_add_right ..
      by_cases hearly : counter (s.clock + gap) - s.state.lastBlinkMs < ledBlinkStepMs
      · exact ⟨steps, hs.early hclock (Nat.add_lt_add_left hgap _) hearly⟩
      · exact ⟨_, hs.due rfl hpos hclock hearly⟩
  obtain ⟨steps, hs⟩ := hall gaps _ s hrun ⟨[], .start rfl hpos hnew start⟩
  exact ⟨steps, hs.blinks⟩

/-- A tick every 40 ms after the first GNSS search has begun. -/
theorem blink_code_search : ∃ s, Run (callStep Telemetry.call)
    ⟨7000, ({} : Telemetry).setState .waitingGnssFix, []⟩
    ((List.replicate 50 40).map fun gap => (gap, .tick)) s ∧
      (∃ steps, Blinks 2 s.log steps) ∧
      ∀ k, ((Finset.Ico k (k + sequenceSteps 2)).filter fun i => ledCode 2 i = .on).card = 2 := by
  have hcalls : ∀ call ∈ (List.replicate 50 40).map fun gap => (gap, TelemetryCall.tick),
      call.1 < 2 ^ 31 := by decide
  obtain ⟨s, hrun⟩ := exists_called Telemetry.call hcalls
    ⟨7000, ({} : Telemetry).setState .waitingGnssFix, []⟩
  exact ⟨s, hrun, blink_code .waitingGnssFix (by decide) {} (by decide) 7000 _ s hrun⟩

end OpenGps.Firmware
