import OpenGps.Firmware.ChargeMode
import OpenGps.Firmware.Telemetry

/-!
# Tracking and charge-only mode

The life of the device across its restarts (`setup`, `runChargeOnlyMode` and the head of `loop` in
`src/main.cpp`, the power functions of `src/gps_board.cpp`). A boot takes one sample of the external
power and becomes a tracker or a charger; each of them watches the power and leaves by a restart.
-/

namespace OpenGps.Firmware

open OpenGps.Lib

/-! ## The rails -/

/-- What a write to a rail of the PMU came to. One that failed leaves the rail in any state. -/
inductive RailWrite where
  | done
  | failed (on : Bool)
  deriving DecidableEq

/-- What the driver returns. -/
def RailWrite.result : RailWrite → Bool
  | .done => true
  | .failed _ => false

def RailWrite.rail (write : RailWrite) (on : Bool) : Bool :=
  match write with
  | .done => on
  | .failed left => left

/-- The rails of the modem (DC3), its UART (BLDO1) and the GNSS receiver (BLDO2). -/
structure Rails where
  dc3 : Bool
  bldo1 : Bool
  bldo2 : Bool
  deriving DecidableEq

def Rails.all (on : Bool) : Rails := ⟨on, on, on⟩

/-- What the PMU does and answers in `beginPmuOnly`. -/
structure PmuReplies where
  begin : Bool
  disableBLDO2 : RailWrite
  disableDC3 : RailWrite
  wakeupUndefined : Bool
  enableBattDetection : Bool
  enableBattVoltageMeasure : Bool
  enableVbusVoltageMeasure : Bool

/-- The results of switching the rails off are not looked at here. -/
def beginPmuOnly (pmu : PmuReplies) (rails : Rails) : Bool × Rails :=
  if !pmu.begin then (false, rails)
  else
    let rails := { rails with bldo2 := pmu.disableBLDO2.rail false }
    let rails :=
      if pmu.wakeupUndefined then { rails with dc3 := pmu.disableDC3.rail false } else rails
    (pmu.enableBattDetection && pmu.enableBattVoltageMeasure && pmu.enableVbusVoltageMeasure,
      rails)

/-- What the PMU and the modem do and answer in `beginTrackerHardware`. -/
structure TrackerReplies where
  setBLDO1Voltage : Bool
  enableBLDO1 : RailWrite
  setDC3Voltage : Bool
  enableDC3 : RailWrite
  setBLDO2Voltage : Bool
  enableBLDO2 : RailWrite
  testAT : ℕ → Bool

def beginTrackerHardware (replies : TrackerReplies) (rails : Rails) : Bool × Rails :=
  if !replies.setBLDO1Voltage then (false, rails)
  else
    let rails := { rails with bldo1 := replies.enableBLDO1.rail true }
    if !replies.enableBLDO1.result || !replies.setDC3Voltage then (false, rails)
    else
      let rails := { rails with dc3 := replies.enableDC3.rail true }
      if !replies.enableDC3.result || !replies.setBLDO2Voltage then (false, rails)
      else
        let rails := { rails with bldo2 := replies.enableBLDO2.rail true }
        if !replies.enableBLDO2.result then (false, rails)
        else ((List.range' 1 30).any replies.testAT, rails)

/-- What the PMU does in `enterChargeOnlyPowerState`. -/
structure ShutdownReplies where
  disableDC3 : RailWrite
  disableBLDO1 : RailWrite
  disableBLDO2 : RailWrite

/-- Every rail is written, whatever became of the others. -/
def enterChargeOnlyPowerState (pmu : ShutdownReplies) : Bool × Rails :=
  (pmu.disableDC3.result && pmu.disableBLDO1.result && pmu.disableBLDO2.result,
    ⟨pmu.disableDC3.rail false, pmu.disableBLDO1.rail false, pmu.disableBLDO2.rail false⟩)

/-! ## External power and the charger -/

def vbusPresentThresholdMv : UInt32 := 4500

def vbusAbsentThresholdMv : UInt32 := 4000

def vbusStateDebounceMs : UInt32 := 2000

def chargeModePollMs : ℕ := 1000

/-- `chargePolicy` as a boot finds it. -/
def chargePolicy : ChargeModePolicy where
  presentThresholdMv := vbusPresentThresholdMv
  absentThresholdMv := vbusAbsentThresholdMv
  debounceMs := vbusStateDebounceMs

/-- The digital status of the input, and the voltage that was measured. -/
structure Vbus where
  isVbusPresent : Bool
  vbusVoltageMv : UInt16
  deriving DecidableEq

/-- The digital status is authoritative, the voltage is the fallback. -/
def chargeModeVbusMv (vbus : Vbus) : UInt16 :=
  if vbus.isVbusPresent then vbusPresentThresholdMv.toUInt16 else vbus.vbusVoltageMv

/-- The charger's status in the PMU. -/
inductive ChargerStatus where
  | tri | pre | cc | cv | done | stop | other
  deriving DecidableEq

inductive ChargerState where
  | unknown | noVbus | charging | chargeComplete | fault
  deriving DecidableEq

def chargerState (isVbusPresent : Bool) (status : ChargerStatus) : ChargerState :=
  if !isVbusPresent then .noVbus
  else
    match status with
    | .pre | .cc | .cv => .charging
    | .done => .chargeComplete
    | .stop => .fault
    | .tri | .other => .unknown

/-- The LED mode that `setChargeIndicator` sets. -/
def chargeIndicator : ChargerState → ChargingLedMode
  | .charging => .blink1Hz
  | .chargeComplete => .on
  | .fault | .unknown => .blink4Hz
  | .noVbus => .off

/-! ## The device -/

inductive DeviceMode where
  | restarting
  | chargeOnly
  | tracking
  | secretsMissing
  deriving DecidableEq

/-- Why the device restarted: the calls of `ESP.restart`, and a reset that none of them caused. -/
inductive RestartReason where
  | boardFailed
  | watchdogFailed
  | trackerFailed
  | railShutdownFailed
  | vbusRemoved
  | vbusDetected
  | reset
  deriving DecidableEq

/-- The device with the samples of the current boot, the charger states that its polls read and the
restarts so far. The brownout detector is armed where `brownout` is, and `led` is what the boot and
the charge-only loop set: the states of a tracker are shown by `Telemetry`. -/
structure GpsDevice where
  mode : DeviceMode
  rails : Rails
  brownout : Bool
  policy : Called ChargeModePolicy UInt16 Bool
  led : ChargingLedMode
  previous : ChargerState
  charger : List ChargerState
  restarts : List RestartReason

/-- What a boot meets. The sample for the decision is taken at `decisionStarted`, and the wait for
the debounce time ends `late` after it. -/
structure Boot where
  pmu : PmuReplies
  watchdog : Bool
  decisionStarted : ℕ
  vbus : Vbus
  late : ℕ
  shutdown : ShutdownReplies
  tracker : TrackerReplies
  secrets : Bool

namespace GpsDevice

def restart (d : GpsDevice) (reason : RestartReason) : GpsDevice :=
  { d with mode := .restarting, restarts := d.restarts ++ [reason] }

/-- `chargePolicy.update`. -/
def sample (d : GpsDevice) (vbusMv : UInt16) (now : ℕ) : GpsDevice :=
  { d with policy := d.policy.after ChargeModePolicy.update vbusMv now }

/-- Both updates see the one sample that was taken first. -/
def decideMode (d : GpsDevice) (boot : Boot) : GpsDevice :=
  let startupVbusMv := chargeModeVbusMv boot.vbus
  (d.sample startupVbusMv boot.decisionStarted).sample startupVbusMv
    (boot.decisionStarted + vbusStateDebounceMs.toNat + boot.late)

/-- `runChargeOnlyMode` up to its loop. -/
def beginChargeOnly (d : GpsDevice) (pmu : ShutdownReplies) : GpsDevice :=
  let (shut, rails) := enterChargeOnlyPowerState pmu
  let d := { d with rails }
  if !shut then d.restart .railShutdownFailed
  else { d with mode := .chargeOnly, previous := .unknown, charger := [] }

/-- `setup` from the tracker's hardware on. -/
def beginTracking (d : GpsDevice) (boot : Boot) : GpsDevice :=
  let (started, rails) := beginTrackerHardware boot.tracker d.rails
  let d := { d with rails }
  if !started then d.restart .trackerFailed
  else
    let d := { d with brownout := true }
    if !boot.secrets then { d with mode := .secretsMissing } else { d with mode := .tracking }

/-- `setup`, with `CHARGE_MODE_ENABLED` as `chargeModeEnabled`. -/
def setup (chargeModeEnabled : Bool) (d : GpsDevice) (boot : Boot) : GpsDevice :=
  let d := { d with brownout := false, policy := ⟨0, chargePolicy, []⟩ }
  let (begun, rails) := beginPmuOnly boot.pmu d.rails
  let d := { d with rails, led := if boot.pmu.begin then .on else d.led }
  if !begun then { d with brownout := true }.restart .boardFailed
  else if !boot.watchdog then d.restart .watchdogFailed
  else
    let d := if chargeModeEnabled then d.decideMode boot else d
    if chargeModeEnabled && d.policy.state.present then d.beginChargeOnly boot.shutdown
    else d.beginTracking boot

/-- A pass of the loop of `runChargeOnlyMode` that polls. -/
def poll (d : GpsDevice) (vbus : Vbus) (charger : Bool × ChargerStatus) (now : ℕ) : GpsDevice :=
  let d := d.sample (chargeModeVbusMv vbus) now
  if !d.policy.state.present then d.restart .vbusRemoved
  else
    let state := chargerState charger.1 charger.2
    let d := { d with charger := d.charger ++ [state] }
    if state ≠ d.previous then { d with led := chargeIndicator state, previous := state } else d

/-- The head of `loop`. -/
def pass (chargeModeEnabled : Bool) (d : GpsDevice) (vbus : Vbus) (now : ℕ) : GpsDevice :=
  if chargeModeEnabled then
    let d := d.sample (chargeModeVbusMv vbus) now
    if d.policy.state.present then d.restart .vbusDetected else d
  else d

end GpsDevice

/-- What happens to the device. A `reset` is one by the watchdog, the brownout detector or a loss of
power, and leaves the rails in any state. -/
inductive DeviceEvent where
  | boot (boot : Boot)
  | poll (elapsed : ℕ) (vbus : Vbus) (charger : Bool × ChargerStatus)
  | pass (elapsed : ℕ) (vbus : Vbus)
  | reset (rails : Rails)

/-- Updates of the policy come less than half of the clock's range after each other. -/
def GpsDevice.step (chargeModeEnabled : Bool) (d : GpsDevice) : DeviceEvent → Option GpsDevice
  | .boot boot =>
    if d.mode = .restarting ∧ boot.decisionStarted < 2 ^ 31 ∧
        vbusStateDebounceMs.toNat + boot.late < 2 ^ 31 then
      some (d.setup chargeModeEnabled boot)
    else none
  | .poll elapsed vbus charger =>
    if d.mode = .chargeOnly ∧ chargeModePollMs ≤ elapsed ∧ elapsed < 2 ^ 31 then
      some (d.poll vbus charger (d.policy.clock + elapsed))
    else none
  | .pass elapsed vbus =>
    if d.mode = .tracking ∧ elapsed < 2 ^ 31 then
      some (d.pass chargeModeEnabled vbus (d.policy.clock + elapsed))
    else none
  | .reset rails => some ({ d with rails }.restart .reset)

/-- The device when it is powered for the first time, with its rails in any state. -/
def GpsDevice.powerOn (rails : Rails) : GpsDevice where
  mode := .restarting
  rails
  brownout := true
  policy := ⟨0, chargePolicy, []⟩
  led := .off
  previous := .unknown
  charger := []
  restarts := []

/-! ## When the policy decides -/

/-- The value has been stable for the debounce time. -/
def Confirmed (presentMv absentMv debounceMs : UInt32) (value : Bool) (log : List VbusEntry)
    (now : ℕ) : Prop :=
  ∃ sample, Stable presentMv absentMv value sample log ∧ sample.time + debounceMs.toNat ≤ now

/-- What the policy knows of its log, with the time its candidate dates from: no sample before it
has been stable since, and a candidate that is not the decision is younger than the debounce
time. -/
structure Watching (presentMv absentMv debounceMs : UInt32)
    (s : Called ChargeModePolicy UInt16 Bool) (since : ℕ) : Prop where
  attentive : Attentive presentMv absentMv debounceMs s
  dated : s.state.candidateInitialized = true →
    s.state.candidateSinceMs = counter since ∧ since ≤ s.clock
  earliest : ∀ value sample, Stable presentMv absentMv value sample s.log →
    s.state.candidateInitialized = true ∧ s.state.candidatePresent = value ∧ since ≤ sample.time
  prompt : s.state.candidateInitialized = true →
    s.state.candidatePresent ≠ s.state.stablePresent → s.clock < since + debounceMs.toNat

section
variable {presentMv absentMv debounceMs : UInt32} {log : List VbusEntry} {sample entry : VbusEntry}
  {value : Bool} {s : Called ChargeModePolicy UInt16 Bool} {since now : ℕ}

theorem Crossed.unique {other : Bool} {vbusMv : UInt16} (hgap : absentMv < presentMv)
    (h : Crossed presentMv absentMv value vbusMv)
    (hother : Crossed presentMv absentMv other vbusMv) : value = other := by
  by_contra hne
  rw [Bool.eq_not.mpr (Ne.symm hne)] at hother
  exact h.not_opposite hgap hother

theorem Stable.of_concat (h : Stable presentMv absentMv value sample (log ++ [entry])) :
    sample = entry ∧ Crossed presentMv absentMv value entry.input ∨
      Stable presentMv absentMv value sample log ∧
        ¬ Crossed presentMv absentMv (!value) entry.input := by
  obtain ⟨earlier, later, heq, hcrossed, hlater⟩ := h
  rcases List.eq_nil_or_concat later with rfl | ⟨later, last, rfl⟩
  · obtain ⟨-, hlast⟩ := List.append_inj' heq rfl
    obtain rfl := List.singleton_inj.mp hlast
    exact .inl ⟨rfl, hcrossed⟩
  · rw [List.concat_eq_append, ← List.cons_append, ← List.append_assoc] at heq
    obtain ⟨rfl, hlast⟩ := List.append_inj' heq rfl
    obtain rfl := List.singleton_inj.mp hlast
    rw [List.concat_eq_append, ← List.cons_append, List.forall_mem_append] at hlater
    exact .inr ⟨⟨earlier, later, rfl, hcrossed, hlater.1⟩, hlater.2 _ (List.mem_singleton_self _)⟩

/-- A sample that crossed one threshold ends whatever was stable on the other side. -/
theorem not_confirmed_of_crossed (hgap : absentMv < presentMv)
    (h : Crossed presentMv absentMv value entry.input) :
    ¬ Confirmed presentMv absentMv debounceMs (!value) (log ++ [entry]) now := by
  rintro ⟨sample, hstable, -⟩
  rcases hstable.of_concat with ⟨-, hcrossed⟩ | ⟨-, hnot⟩
  · exact h.not_opposite hgap hcrossed
  · rw [Bool.not_not] at hnot
    exact hnot h

namespace ChargeModePolicy

/-- A sample either makes its value the candidate, or is no news. -/
theorem updateCandidate_cases (p : ChargeModePolicy) (nowMs : UInt32) (vbusMv : UInt16)
    (hthresholds : p.thresholds = (presentMv, absentMv, debounceMs)) (hgap : absentMv < presentMv) :
    (∃ value, Crossed presentMv absentMv value vbusMv ∧
        (p.candidateInitialized = true → value ≠ p.candidatePresent) ∧
        (p.updateCandidate nowMs vbusMv).candidate = (true, value, nowMs)) ∨
      (p.updateCandidate nowMs vbusMv).candidate = p.candidate ∧
        ∀ value, Crossed presentMv absentMv value vbusMv →
          p.candidateInitialized = true ∧ p.candidatePresent = value := by
  simp only [thresholds, Prod.mk.injEq] at hthresholds
  obtain ⟨hpresent, habsent, -⟩ := hthresholds
  rw [updateCandidate]
  rcases p.thresholdCandidate_cases vbusMv with ⟨value, hvalue, hcrossed⟩ | ⟨hnone, hneither⟩
  · rw [hpresent, habsent] at hcrossed
    rw [hvalue]
    dsimp only
    split
    next hnew =>
      exact .inl ⟨value, hcrossed, fun hinit => hnew.resolve_left (by simp [hinit]), rfl⟩
    next hsame =>
      simp only [not_or, Bool.not_eq_false, not_not] at hsame
      refine .inr ⟨rfl, fun other hother => ⟨hsame.1, ?_⟩⟩
      rw [← hsame.2]
      exact hcrossed.unique hgap hother
  · rw [hpresent, habsent] at hneither
    rw [hnone]
    exact .inr ⟨rfl, fun value hcrossed => absurd hcrossed (hneither value)⟩

theorem update_output (p : ChargeModePolicy) (vbusMv : UInt16) (nowMs : UInt32) :
    (p.update vbusMv nowMs).1 =
      if p.debounceMs ≤ nowMs - (p.updateCandidate nowMs vbusMv).candidateSinceMs then
        (p.updateCandidate nowMs vbusMv).candidatePresent
      else p.stablePresent := by
  obtain ⟨hthresholds, hstable⟩ := p.thresholds_updateCandidate nowMs vbusMv
  have hdebounce : (p.updateCandidate nowMs vbusMv).debounceMs = p.debounceMs :=
    congrArg (·.2.2) hthresholds
  rw [update]
  dsimp only
  rw [hdebounce]
  split
  next => rfl
  next => exact hstable

end ChargeModePolicy

open ChargeModePolicy

/-- The counter has not wrapped since the candidate began to wait. -/
theorem le_counter_sub (hdebounce : debounceMs.toNat ≤ 2 ^ 31) {clock : ℕ}
    (hyoung : clock < since + debounceMs.toNat) (hclock : clock ≤ now)
    (hnow : now < clock + 2 ^ 31) (hdue : since + debounceMs.toNat ≤ now) :
    debounceMs ≤ counter now - counter since := by
  rw [UInt32.le_iff_toNat_le, toNat_counter_sub]
  omega

/-- The step lemma: a sample is taken up at once, and so is a candidate whose time has come. -/
theorem Watching.call (h : Watching presentMv absentMv debounceMs s since)
    (hgap : absentMv < presentMv) (hpositive : 0 < debounceMs.toNat)
    (hdebounce : debounceMs.toNat ≤ 2 ^ 31) (vbusMv : UInt16) (hclock : s.clock ≤ now)
    (hnow : now < s.clock + 2 ^ 31) :
    ∃ since, Watching presentMv absentMv debounceMs (s.after ChargeModePolicy.update vbusMv now)
      since := by
  obtain ⟨hcandidate, -, hstable, -⟩ := s.state.update_spec vbusMv (counter now)
  have houtput := s.state.update_output vbusMv (counter now)
  have hlimit : s.state.debounceMs = debounceMs := congrArg (·.2.2) h.attentive.thresholds
  have hattentive := (h.attentive.call hgap vbusMv hclock).2
  rw [hlimit] at houtput
  rcases s.state.updateCandidate_cases (counter now) vbusMv h.attentive.thresholds hgap with
    ⟨value, hcrossed, hnew, hvalue⟩ | ⟨hsame, hnews⟩
  · rw [hvalue] at hcandidate
    simp only [candidate, Prod.mk.injEq] at hcandidate hvalue
    refine ⟨now, hattentive, fun _ => ⟨hcandidate.2.2, Nat.le_refl _⟩, ?_, fun _ _ => ?_⟩
    · intro other sample hother
      rcases hother.of_concat with ⟨rfl, hlast⟩ | ⟨hlog, hlast⟩
      · exact ⟨hcandidate.1, hcandidate.2.1.trans (hcrossed.unique hgap hlast), Nat.le_refl _⟩
      · -- The candidate of a value that was stable is only replaced by the other value.
        obtain ⟨hinit, hpresent, -⟩ := h.earliest other sample hlog
        have hne := hnew hinit
        rw [hpresent, ← Bool.eq_not] at hne
        exact absurd (hne ▸ hcrossed) hlast
    · exact Nat.lt_add_of_pos_right hpositive
  · rw [hsame] at hcandidate
    simp only [candidate, Prod.mk.injEq] at hcandidate hsame
    refine ⟨since, hattentive, fun hinit => ?_, ?_, fun hinit hne => ?_⟩
    · obtain ⟨hsince, hle⟩ := h.dated (hcandidate.1 ▸ hinit)
      exact ⟨hcandidate.2.2.trans hsince, Nat.le_trans hle hclock⟩
    · intro other sample hother
      rcases hother.of_concat with ⟨rfl, hlast⟩ | ⟨hlog, -⟩
      · obtain ⟨hinit, hpresent⟩ := hnews other hlast
        exact ⟨hcandidate.1.trans hinit, hcandidate.2.1.trans hpresent,
          Nat.le_trans (h.dated hinit).2 hclock⟩
      · obtain ⟨hinit, hpresent, hle⟩ := h.earliest other sample hlog
        exact ⟨hcandidate.1.trans hinit, hcandidate.2.1.trans hpresent, hle⟩
    · have hinit : s.state.candidateInitialized = true := hcandidate.1 ▸ hinit
      replace hne : s.state.candidatePresent ≠ (s.state.update vbusMv (counter now)).1 := by
        rw [← hcandidate.2.1, ← hstable]
        exact hne
      rw [houtput, hsame.2.1, hsame.2.2, (h.dated hinit).1] at hne
      by_contra hdue
      rw [Nat.not_lt] at hdue
      split at hne
      next => exact hne rfl
      next hearly =>
        exact hearly (le_counter_sub hdebounce (h.prompt hinit hne) hclock hnow hdue)

/-- The value that is not the decision has not been stable for the debounce time. -/
theorem Watching.not_confirmed (h : Watching presentMv absentMv debounceMs s since)
    (hother : s.state.present = !value) :
    ¬ Confirmed presentMv absentMv debounceMs value s.log s.clock := by
  rintro ⟨sample, hsample, hdue⟩
  obtain ⟨hinit, hpresent, hle⟩ := h.earliest value sample hsample
  have hne : s.state.candidatePresent ≠ s.state.stablePresent := by
    rw [hpresent, show s.state.stablePresent = !value from hother]
    exact (Bool.not_ne_self value).symm
  have hyoung := h.prompt hinit hne
  exact absurd (Nat.le_trans (Nat.add_le_add_right hle _) hdue) (Nat.not_le.mpr hyoung)

/-- The decision changes to the other value exactly when that has been stable for the debounce
time. -/
theorem Watching.present_iff (h : Watching presentMv absentMv debounceMs s since)
    (hgap : absentMv < presentMv) (hpositive : 0 < debounceMs.toNat)
    (hdebounce : debounceMs.toNat ≤ 2 ^ 31) (hother : s.state.present = !value) (vbusMv : UInt16)
    (hclock : s.clock ≤ now) (hnow : now < s.clock + 2 ^ 31) :
    (s.after ChargeModePolicy.update vbusMv now).state.present = value ↔
      Confirmed presentMv absentMv debounceMs value
        (s.after ChargeModePolicy.update vbusMv now).log now := by
  have hstable := (s.state.update_spec vbusMv (counter now)).2.2.1
  constructor
  · intro hchange
    have hdebounced := (h.attentive.call hgap vbusMv hclock).1
    have houtput : (s.state.update vbusMv (counter now)).1 = value := hstable.symm.trans hchange
    rw [Debounced, ← h.attentive.stable] at hdebounced
    have hne : value ≠ s.state.stablePresent := by
      rw [show s.state.stablePresent = !value from hother]
      exact (Bool.not_ne_self value).symm
    obtain ⟨sample, hsample, hdue⟩ := hdebounced (houtput ▸ hne)
    exact ⟨sample, houtput ▸ hsample, hdue⟩
  · intro hconfirmed
    obtain ⟨since', hafter⟩ := h.call hgap hpositive hdebounce vbusMv hclock hnow
    by_contra hsame
    exact hafter.not_confirmed (Bool.eq_not.mpr hsame) hconfirmed

end

/-! ## What a boot makes of the device -/

/-- A boot on which nothing fails. -/
def healthyBoot (vbus : Vbus) : Boot where
  pmu := ⟨true, .done, .done, true, true, true, true⟩
  watchdog := true
  decisionStarted := 300
  vbus
  late := 5
  shutdown := ⟨.done, .done, .done⟩
  tracker := ⟨true, .done, true, .done, true, .done, fun tries => tries == 12⟩
  secrets := true

/-- The policy after the first of the two updates of a boot. -/
def Boot.sampled (boot : Boot) : Called ChargeModePolicy UInt16 Bool :=
  (⟨0, chargePolicy, []⟩ : Called ChargeModePolicy UInt16 Bool).after ChargeModePolicy.update
    (chargeModeVbusMv boot.vbus) boot.decisionStarted

/-- The policy after both. -/
def Boot.decision (boot : Boot) : Called ChargeModePolicy UInt16 Bool :=
  boot.sampled.after ChargeModePolicy.update (chargeModeVbusMv boot.vbus)
    (boot.decisionStarted + vbusStateDebounceMs.toNat + boot.late)

theorem RailWrite.rail_eq {write : RailWrite} (h : write.result = true) (on : Bool) :
    write.rail on = on := by
  cases write with
  | done => rfl
  | failed left => cases h

theorem beginTrackerHardware_rails {replies : TrackerReplies} {rails : Rails}
    (h : (beginTrackerHardware replies rails).1 = true) :
    (beginTrackerHardware replies rails).2 = .all true := by
  rw [beginTrackerHardware] at h ⊢
  dsimp only at h ⊢
  split_ifs at h ⊢ with h1 h2 h3 h4
  simp only [Bool.or_eq_true, Bool.not_eq_true', not_or, Bool.not_eq_false] at h2 h3 h4
  rw [RailWrite.rail_eq h2.1, RailWrite.rail_eq h3.1, RailWrite.rail_eq h4]
  rfl

theorem enterChargeOnlyPowerState_rails {pmu : ShutdownReplies}
    (h : (enterChargeOnlyPowerState pmu).1 = true) :
    (enterChargeOnlyPowerState pmu).2 = .all false := by
  simp only [enterChargeOnlyPowerState, Bool.and_eq_true] at h ⊢
  rw [RailWrite.rail_eq h.1.1, RailWrite.rail_eq h.1.2, RailWrite.rail_eq h.2]
  rfl

/-- What a boot relies on of its times. -/
def Boot.InTime (boot : Boot) : Prop :=
  boot.decisionStarted < 2 ^ 31 ∧ vbusStateDebounceMs.toNat + boot.late < 2 ^ 31

theorem watching_chargePolicy : Watching vbusPresentThresholdMv vbusAbsentThresholdMv
    vbusStateDebounceMs ⟨0, chargePolicy, []⟩ 0 where
  attentive := ⟨rfl, rfl, .inr ⟨rfl, rfl, rfl⟩⟩
  dated hinit := absurd hinit Bool.false_ne_true
  earliest value sample := by
    rintro ⟨earlier, later, heq, -⟩
    exact absurd heq (by simp)
  prompt hinit := absurd hinit Bool.false_ne_true

theorem vbus_gap : vbusAbsentThresholdMv < vbusPresentThresholdMv := by decide

theorem crossed_of_isVbusPresent {vbus : Vbus} (h : vbus.isVbusPresent = true) :
    Crossed vbusPresentThresholdMv vbusAbsentThresholdMv true (chargeModeVbusMv vbus) := by
  rw [chargeModeVbusMv, if_pos h, Crossed, if_pos rfl]
  decide

theorem debounce_pos : 0 < vbusStateDebounceMs.toNat := by decide

theorem debounce_le : vbusStateDebounceMs.toNat ≤ 2 ^ 31 := by decide

theorem Boot.sampled_spec (boot : Boot) (hstarted : boot.decisionStarted < 2 ^ 31) :
    boot.sampled.state.present = false ∧ ∃ since, Watching vbusPresentThresholdMv
      vbusAbsentThresholdMv vbusStateDebounceMs boot.sampled since := by
  have hnow : boot.decisionStarted < 0 + 2 ^ 31 := by rwa [Nat.zero_add]
  refine ⟨Bool.eq_false_iff.mpr fun hpresent => ?_, watching_chargePolicy.call vbus_gap debounce_pos
    debounce_le (chargeModeVbusMv boot.vbus) (Nat.zero_le _) hnow⟩
  obtain ⟨sample, hstable, hdue⟩ := (watching_chargePolicy.present_iff vbus_gap debounce_pos
    debounce_le (show _ = !true from rfl) _ (Nat.zero_le _) hnow).mp hpresent
  rw [Called.after, List.nil_append, ← List.nil_append [_]] at hstable
  rcases hstable.of_concat with ⟨rfl, -⟩ | ⟨⟨earlier, later, heq, -⟩, -⟩
  · exact absurd (Nat.lt_of_lt_of_le (Nat.lt_add_of_pos_right debounce_pos) hdue) (Nat.lt_irrefl _)
  · exact absurd heq (by simp)

theorem Boot.decision_spec (boot : Boot) (htime : boot.InTime) :
    (boot.decision.state.present = true ↔ Crossed vbusPresentThresholdMv vbusAbsentThresholdMv true
        (chargeModeVbusMv boot.vbus)) ∧ ∃ since, Watching vbusPresentThresholdMv
      vbusAbsentThresholdMv vbusStateDebounceMs boot.decision since := by
  obtain ⟨habsent, since, hwatching⟩ := boot.sampled_spec htime.1
  have hclock : boot.decisionStarted ≤
      boot.decisionStarted + vbusStateDebounceMs.toNat + boot.late := by omega
  have hnow : boot.decisionStarted + vbusStateDebounceMs.toNat + boot.late <
      boot.decisionStarted + 2 ^ 31 := by
    rw [Nat.add_assoc]
    exact Nat.add_lt_add_left htime.2 _
  refine ⟨?_, hwatching.call vbus_gap debounce_pos debounce_le _ hclock hnow⟩
  refine (hwatching.present_iff vbus_gap debounce_pos debounce_le (show _ = !true from habsent)
    (chargeModeVbusMv boot.vbus) hclock hnow).trans ⟨?_, fun hcrossed => ?_⟩
  · rintro ⟨sample, ⟨earlier, later, heq, hcrossed, -⟩, -⟩
    have hmem : sample ∈ boot.decision.log := by
      rw [show boot.decision.log = _ from heq]
      exact List.mem_append_right _ List.mem_cons_self
    have hinput : ∀ entry ∈ boot.decision.log, entry.input = chargeModeVbusMv boot.vbus := by
      simp [Boot.decision, Boot.sampled, Called.after]
    exact hinput sample hmem ▸ hcrossed
  · exact ⟨_, Stable.concat (Stable.start hcrossed vbus_gap) (hcrossed.not_opposite vbus_gap),
      Nat.le_add_right _ _⟩

namespace GpsDevice

/-- A boot restarts for a failure of the hardware, or charges or tracks as the policy decided. -/
inductive Booted (chargeModeEnabled : Bool) (boot : Boot) (d s : GpsDevice) : Prop
  | restarted (reason : RestartReason) (hmode : s.mode = .restarting)
      (hreason : reason ≠ .vbusRemoved ∧ reason ≠ .vbusDetected)
      (hrestarts : s.restarts = d.restarts ++ [reason])
  | charging (hmode : s.mode = .chargeOnly) (henabled : chargeModeEnabled = true)
      (hpresent : boot.decision.state.present = true) (hpolicy : s.policy = boot.decision)
      (hrails : s.rails = .all false) (hbrownout : s.brownout = false) (hled : s.led = .on)
      (hprevious : s.previous = .unknown) (hcharger : s.charger = [])
      (hrestarts : s.restarts = d.restarts)
  | tracking (hmode : s.mode = .tracking ∨ s.mode = .secretsMissing)
      (hpresent : chargeModeEnabled = true → boot.decision.state.present = false)
      (hpolicy : chargeModeEnabled = true → s.policy = boot.decision)
      (hrails : s.rails = .all true) (hbrownout : s.brownout = true)
      (hrestarts : s.restarts = d.restarts)

theorem booted_beginTracking {enabled : Bool} {boot : Boot} {d s : GpsDevice}
    (hrestarts : d.restarts = s.restarts)
    (hpresent : enabled = true → boot.decision.state.present = false)
    (hpolicy : enabled = true → d.policy = boot.decision) :
    Booted enabled boot s (d.beginTracking boot) := by
  rw [beginTracking]
  dsimp only
  split
  next => exact .restarted .trackerFailed rfl (by decide) (congrArg (· ++ _) hrestarts)
  next hstarted =>
    have hrails := beginTrackerHardware_rails (by simpa using hstarted)
    split
    next => exact .tracking (.inr rfl) hpresent hpolicy hrails rfl hrestarts
    next => exact .tracking (.inl rfl) hpresent hpolicy hrails rfl hrestarts

theorem booted_beginChargeOnly {enabled : Bool} {boot : Boot} {d s : GpsDevice}
    (hrestarts : d.restarts = s.restarts) (henabled : enabled = true)
    (hpresent : boot.decision.state.present = true) (hpolicy : d.policy = boot.decision)
    (hbrownout : d.brownout = false) (hled : d.led = .on) :
    Booted enabled boot s (d.beginChargeOnly boot.shutdown) := by
  rw [beginChargeOnly]
  dsimp only
  split
  next => exact .restarted .railShutdownFailed rfl (by decide) (congrArg (· ++ _) hrestarts)
  next hshut =>
    have hrails := enterChargeOnlyPowerState_rails (by simpa using hshut)
    exact .charging rfl henabled hpresent hpolicy hrails hbrownout hled rfl rfl hrestarts

theorem booted_setup (enabled : Bool) (d : GpsDevice) (boot : Boot) :
    Booted enabled boot d (d.setup enabled boot) := by
  rw [setup]
  dsimp only
  split
  next => exact .restarted .boardFailed rfl (by decide) rfl
  next hbegun =>
    have hled : boot.pmu.begin = true := by
      by_contra hbegin
      rw [beginPmuOnly, if_pos (by simpa using hbegin)] at hbegun
      exact hbegun rfl
    simp only [hled, if_true]
    split
    next => exact .restarted .watchdogFailed rfl (by decide) rfl
    next =>
      cases enabled with
      | false => exact booted_beginTracking rfl (by simp) (by simp)
      | true =>
        rw [Bool.true_and, if_pos rfl]
        split
        next hpresent => exact booted_beginChargeOnly rfl rfl hpresent rfl rfl rfl
        next hpresent =>
          exact booted_beginTracking rfl (fun _ => eq_false_of_ne_true hpresent) fun _ => rfl

end GpsDevice

/-! ## Rails, brownout detector and LED follow the mode -/

/-- The LED for the states that the polls of a boot read: that of the last of them. Until one of
them differs from `unknown`, which `previous` starts from, the LED stays on as `beginPmuOnly` left
it. -/
def shownIndicator (charger : List ChargerState) : ChargingLedMode :=
  if ∀ state ∈ charger, state = .unknown then .on
  else chargeIndicator (charger.getLast?.getD .unknown)

/-- What the mode says of the rest of the device. -/
structure GpsDevice.InMode (chargeModeEnabled : Bool) (d : GpsDevice) : Prop where
  chargeOnly : d.mode = .chargeOnly → chargeModeEnabled = true ∧
    d.rails = .all false ∧ d.brownout = false ∧ d.led = shownIndicator d.charger
  tracker : d.mode = .tracking ∨ d.mode = .secretsMissing →
    d.rails = .all true ∧ d.brownout = true
  startup : chargeModeEnabled = true → d.mode ≠ .restarting →
    ∃ first, d.policy.log.head? = some first ∧ (d.mode = .chargeOnly ↔
      Crossed vbusPresentThresholdMv vbusAbsentThresholdMv true first.input)
  previous : d.mode = .chargeOnly → d.previous = d.charger.getLast?.getD .unknown

/-- A poll changes the LED exactly when the state it reads is not the last one. -/
theorem shownIndicator_concat (charger : List ChargerState) (state : ChargerState) :
    shownIndicator (charger ++ [state]) =
      if state ≠ charger.getLast?.getD .unknown then chargeIndicator state
      else shownIndicator charger := by
  simp only [shownIndicator, List.forall_mem_append, List.forall_mem_singleton,
    List.getLast?_concat, Option.getD_some]
  by_cases hall : ∀ s ∈ charger, s = .unknown
  · have hlast : charger.getLast?.getD .unknown = .unknown := by
      cases hcharger : charger.getLast? with
      | none => rfl
      | some last => exact hall last (List.mem_of_getLast? hcharger)
    rw [hlast]
    by_cases hstate : state = .unknown
    · rw [if_pos ⟨hall, hstate⟩, if_neg (not_not.mpr hstate), if_pos hall]
    · rw [if_neg fun h => hstate h.2, if_pos hstate]
  · rw [if_neg fun h => hall h.1, if_neg hall]
    split
    next => rfl
    next hsame => rw [not_not.mp hsame]

namespace GpsDevice

variable {enabled : Bool} {d t : GpsDevice} {event : DeviceEvent}

theorem InMode.of_restarting (h : d.mode = .restarting) : d.InMode enabled where
  chargeOnly hmode := by simp [h] at hmode
  tracker hmode := by simp [h] at hmode
  startup _ hmode := absurd h hmode
  previous hmode := by simp [h] at hmode

/-- What a boot establishes. -/
theorem InMode.of_booted {boot : Boot} {s : GpsDevice} (htime : boot.InTime)
    (h : Booted enabled boot d s) : s.InMode enabled := by
  have hcrossed := (boot.decision_spec htime).1
  cases h with
  | restarted reason hmode => exact .of_restarting hmode
  | charging hmode henabled hpresent hpolicy hrails hbrownout hled hprevious hcharger =>
    constructor
    · intro _
      rw [hled, hcharger]
      exact ⟨henabled, hrails, hbrownout, rfl⟩
    · intro hother
      simp [hmode] at hother
    · intro _ _
      rw [hpolicy]
      exact ⟨_, rfl, iff_of_true hmode (hcrossed.mp hpresent)⟩
    · intro _
      rw [hprevious, hcharger]
      rfl
  | tracking hmode hpresent hpolicy hrails hbrownout =>
    have hnot : s.mode ≠ .chargeOnly := by
      rcases hmode with hmode | hmode <;> simp [hmode]
    constructor
    · exact fun hcharge => absurd hcharge hnot
    · exact fun _ => ⟨hrails, hbrownout⟩
    · intro henabled _
      rw [hpolicy henabled]
      refine ⟨_, rfl, iff_of_false hnot fun hvbus => ?_⟩
      exact absurd (hcrossed.mpr hvbus) (by simp [hpresent henabled])
    · exact fun hcharge => absurd hcharge hnot

/-- The startup sample stays the first of the log. -/
theorem InMode.startup_sample (h : d.InMode enabled) (henabled : enabled = true)
    (hmode : d.mode ≠ .restarting) (vbusMv : UInt16) (now : ℕ) :
    ∃ first, (d.sample vbusMv now).policy.log.head? = some first ∧ (d.mode = .chargeOnly ↔
      Crossed vbusPresentThresholdMv vbusAbsentThresholdMv true first.input) := by
  obtain ⟨first, hfirst, hiff⟩ := h.startup henabled hmode
  refine ⟨first, ?_, hiff⟩
  rw [sample, Called.after, List.head?_append, hfirst, Option.some_or]

/-- A poll that leaves the device charging keeps the LED on the last state it read. -/
theorem InMode.poll (h : d.InMode enabled) (hmode : d.mode = .chargeOnly) (vbus : Vbus)
    (charger : Bool × ChargerStatus) (now : ℕ) : (d.poll vbus charger now).InMode enabled := by
  obtain ⟨henabled, hrails, hbrownout, hled⟩ := h.chargeOnly hmode
  have hstartup := fun henabled =>
    h.startup_sample henabled (by simp [hmode]) (chargeModeVbusMv vbus) now
  have hshown := shownIndicator_concat d.charger (chargerState charger.1 charger.2)
  rw [← h.previous hmode] at hshown
  rw [GpsDevice.poll]
  dsimp only
  split
  next => exact .of_restarting rfl
  next =>
    split
    next hnew =>
      refine ⟨fun _ => ⟨henabled, hrails, hbrownout, ?_⟩, fun hother => ?_,
        fun henabled _ => hstartup henabled, fun _ => ?_⟩
      · exact (hshown.trans (if_pos hnew)).symm
      · exact absurd hother (by simp [sample, hmode])
      · simp
    next hsame =>
      refine ⟨fun _ => ⟨henabled, hrails, hbrownout, ?_⟩, fun hother => ?_,
        fun henabled _ => hstartup henabled, fun _ => ?_⟩
      · exact hled.trans (hshown.trans (if_neg hsame)).symm
      · exact absurd hother (by simp [sample, hmode])
      · simp only [List.getLast?_concat, Option.getD_some]
        exact (not_not.mp hsame).symm

theorem InMode.pass (h : d.InMode enabled) (hmode : d.mode = .tracking) (vbus : Vbus) (now : ℕ) :
    (d.pass enabled vbus now).InMode enabled := by
  have hstartup := fun henabled =>
    h.startup_sample henabled (by simp [hmode]) (chargeModeVbusMv vbus) now
  have hnot : d.mode ≠ .chargeOnly := by simp [hmode]
  rw [GpsDevice.pass]
  split
  next =>
    dsimp only
    split
    next => exact .of_restarting rfl
    next =>
      exact ⟨fun hcharge => absurd hcharge hnot, h.tracker, fun henabled _ => hstartup henabled,
        fun hcharge => absurd hcharge hnot⟩
  next => exact h

theorem InMode.step (h : d.InMode enabled) (hstep : d.step enabled event = some t) :
    t.InMode enabled := by
  cases event with
  | boot boot =>
    simp only [GpsDevice.step, Option.ite_none_right_eq_some, Option.some.injEq] at hstep
    obtain ⟨⟨-, htime⟩, rfl⟩ := hstep
    exact .of_booted htime (booted_setup enabled d boot)
  | poll elapsed vbus charger =>
    simp only [GpsDevice.step, Option.ite_none_right_eq_some, Option.some.injEq] at hstep
    obtain ⟨⟨hmode, -⟩, rfl⟩ := hstep
    exact h.poll hmode vbus charger _
  | pass elapsed vbus =>
    simp only [GpsDevice.step, Option.ite_none_right_eq_some, Option.some.injEq] at hstep
    obtain ⟨⟨hmode, -⟩, rfl⟩ := hstep
    exact h.pass hmode vbus _
  | reset rails =>
    obtain rfl := Option.some.inj hstep
    exact .of_restarting rfl

end GpsDevice

/-- In every run, through any failures and resets: the rails are all off and the brownout detector
is masked while the device charges, they are all on and it is armed while the device tracks or lacks
its secrets; the mode is the one the startup sample called for; and the LED of a device that charges
shows the last state its polls read, but for the `unknown` ones before any other. -/
theorem mode_decides_power (chargeModeEnabled : Bool) (rails : Rails) (events : List DeviceEvent)
    (d : GpsDevice) (hrun : Run (GpsDevice.step chargeModeEnabled) (.powerOn rails) events d) :
    d.InMode chargeModeEnabled :=
  hrun.invariant (fun _ _ _ h hstep => h.step hstep) (.of_restarting rfl)

/-- Plugged in when it boots, with a charger whose state is not known at first. -/
theorem mode_decides_power_plugged : ∃ d, Run (GpsDevice.step true) (.powerOn (.all true))
    [.boot (healthyBoot ⟨true, 0⟩), .poll 1000 ⟨true, 4900⟩ (true, .tri),
      .poll 1000 ⟨true, 4900⟩ (true, .cc)] d ∧ d.InMode true :=
  ⟨_, rfl, mode_decides_power true (.all true) [.boot (healthyBoot ⟨true, 0⟩),
    .poll 1000 ⟨true, 4900⟩ (true, .tri), .poll 1000 ⟨true, 4900⟩ (true, .cc)] _ rfl⟩

/-! ## Every restart for power is confirmed -/

/-- The mode that external power, or its absence, calls for. -/
def DeviceMode.forPower (present : Bool) : DeviceMode := if present then .chargeOnly else .tracking

/-- The restart that leaves the mode for the absence of power, or for its presence. -/
def RestartReason.forPower (present : Bool) : RestartReason :=
  if present then .vbusDetected else .vbusRemoved

namespace DeviceEvent

/-- The sample that is taken, if the event takes one. -/
def vbusMv : DeviceEvent → Option UInt16
  | .boot b => some (chargeModeVbusMv b.vbus)
  | .poll _ vbus _ => some (chargeModeVbusMv vbus)
  | .pass _ vbus => some (chargeModeVbusMv vbus)
  | .reset _ => none

/-- The time since the last sample of the same boot. -/
def elapsed : DeviceEvent → ℕ
  | .poll elapsed _ _ => elapsed
  | .pass elapsed _ => elapsed
  | .boot _ | .reset _ => 0

end DeviceEvent

theorem DeviceMode.forPower_ne_restarting (value : Bool) :
    DeviceMode.forPower value ≠ .restarting := by
  cases value <;> decide

theorem DeviceMode.forPower_eq_chargeOnly (value : Bool) :
    decide (DeviceMode.forPower value = .chargeOnly) = value := by
  cases value <;> rfl

namespace GpsDevice

variable {d t : GpsDevice} {event : DeviceEvent} {value : Bool} {vbusMv : UInt16}

/-- The device watches the power in the mode it is in. -/
def Watchful (d : GpsDevice) : Prop :=
  d.mode ≠ .restarting →
    d.policy.state.present = decide (d.mode = .chargeOnly) ∧
      ∃ since, Watching vbusPresentThresholdMv vbusAbsentThresholdMv vbusStateDebounceMs d.policy
        since

/-- A pass or a poll feeds its sample to the policy, and restarts when the policy says so. -/
theorem step_sample (hstep : d.step true event = some t) (hmode : d.mode = .forPower value)
    (hsample : event.vbusMv = some vbusMv) :
    event.elapsed < 2 ^ 31 ∧
      t.policy = d.policy.after ChargeModePolicy.update vbusMv (d.policy.clock + event.elapsed) ∧
      (t.policy.state.present = (!value) ∧ t.mode = .restarting ∧
          t.restarts = d.restarts ++ [.forPower (!value)] ∨
        t.policy.state.present = value ∧ t.mode = d.mode ∧ t.restarts = d.restarts) := by
  cases event with
  | boot boot =>
    simp only [GpsDevice.step, Option.ite_none_right_eq_some] at hstep
    exact absurd (hmode.symm.trans hstep.1.1) (DeviceMode.forPower_ne_restarting value)
  | poll elapsed vbus charger =>
    simp only [GpsDevice.step, Option.ite_none_right_eq_some, Option.some.injEq] at hstep
    obtain ⟨⟨hcharge, -, helapsed⟩, rfl⟩ := hstep
    obtain rfl : value = true := by
      cases value
      · simp [hmode, DeviceMode.forPower] at hcharge
      · rfl
    rw [DeviceEvent.vbusMv, Option.some.injEq] at hsample
    subst hsample
    refine ⟨helapsed, ?_⟩
    rw [poll]
    dsimp only
    split
    next habsent =>
      rw [Bool.not_eq_true'] at habsent
      exact ⟨rfl, .inl ⟨habsent, rfl, rfl⟩⟩
    next hpresent =>
      rw [Bool.not_eq_true', Bool.not_eq_false] at hpresent
      split <;> exact ⟨rfl, .inr ⟨hpresent, rfl, rfl⟩⟩
  | pass elapsed vbus =>
    simp only [GpsDevice.step, Option.ite_none_right_eq_some, Option.some.injEq] at hstep
    obtain ⟨⟨htracking, helapsed⟩, rfl⟩ := hstep
    obtain rfl : value = false := by
      cases value
      · rfl
      · simp [hmode, DeviceMode.forPower] at htracking
    rw [DeviceEvent.vbusMv, Option.some.injEq] at hsample
    subst hsample
    refine ⟨helapsed, ?_⟩
    rw [pass, if_pos rfl]
    dsimp only
    split
    next hpresent => exact ⟨rfl, .inl ⟨hpresent, rfl, rfl⟩⟩
    next habsent => exact ⟨rfl, .inr ⟨eq_false_of_ne_true habsent, rfl, rfl⟩⟩
  | reset rails => cases hsample

theorem Watchful.present_eq (h : d.Watchful) (hmode : d.mode = .forPower value) :
    d.policy.state.present = value := by
  obtain ⟨hpresent, -⟩ := h (hmode ▸ DeviceMode.forPower_ne_restarting value)
  rw [hpresent, hmode, DeviceMode.forPower_eq_chargeOnly]

/-- A device without its secrets takes no samples. -/
theorem step_secretsMissing (hstep : d.step true event = some t)
    (hmode : d.mode = .secretsMissing) :
    t.mode = .restarting ∧ t.restarts = d.restarts ++ [.reset] := by
  cases event with
  | reset rails =>
    obtain rfl := Option.some.inj hstep
    exact ⟨rfl, rfl⟩
  | _ => simp [GpsDevice.step, hmode] at hstep

theorem forPower_cases (d : GpsDevice) :
    d.mode = .restarting ∨ d.mode = .secretsMissing ∨ ∃ value, d.mode = .forPower value := by
  cases hmode : d.mode with
  | restarting => exact .inl rfl
  | secretsMissing => exact .inr (.inl rfl)
  | chargeOnly => exact .inr (.inr ⟨true, rfl⟩)
  | tracking => exact .inr (.inr ⟨false, rfl⟩)

/-- A boot starts the watch. -/
theorem Watchful.of_booted {boot : Boot} (htime : boot.InTime) (h : Booted true boot d t) :
    t.Watchful := by
  intro hrunning
  have hwatching := (boot.decision_spec htime).2
  cases h with
  | restarted reason hrestarting => exact absurd hrestarting hrunning
  | charging hcharge _ hpresent hpolicy =>
    rw [hpolicy, hcharge]
    exact ⟨hpresent, hwatching⟩
  | tracking htracking hpresent hpolicy =>
    rw [hpolicy rfl, hpresent rfl]
    refine ⟨?_, hwatching⟩
    rcases htracking with htracking | htracking <;> rw [htracking] <;> rfl

theorem Watchful.step (h : d.Watchful) (hstep : d.step true event = some t) : t.Watchful := by
  intro hrunning
  cases hsample : event.vbusMv with
  | none =>
    cases event with
    | reset rails =>
      obtain rfl := Option.some.inj hstep
      exact absurd rfl hrunning
    | _ => cases hsample
  | some vbusMv =>
    rcases d.forPower_cases with hmode | hmode | ⟨value, hmode⟩
    · cases event with
      | boot boot =>
        simp only [GpsDevice.step, Option.ite_none_right_eq_some, Option.some.injEq] at hstep
        obtain ⟨⟨-, htime⟩, rfl⟩ := hstep
        exact Watchful.of_booted htime (booted_setup true d boot) hrunning
      | reset rails => cases hsample
      | _ => simp [GpsDevice.step, hmode] at hstep
    · exact absurd (step_secretsMissing hstep hmode).1 hrunning
    · obtain ⟨helapsed, hpolicy, ⟨-, hrestarting, -⟩ | ⟨hpresent, hsame, -⟩⟩ :=
        step_sample hstep hmode hsample
      · exact absurd hrestarting hrunning
      · obtain ⟨-, since, hwatching⟩ := h (hsame ▸ hrunning)
        refine ⟨?_, ?_⟩
        · rw [hpresent, hsame, hmode, DeviceMode.forPower_eq_chargeOnly]
        · rw [hpolicy]
          exact hwatching.call vbus_gap debounce_pos debounce_le vbusMv (Nat.le_add_right _ _)
            (Nat.add_lt_add_left helapsed _)

/-- A sample makes the device restart exactly when it confirms the other value. -/
theorem Watchful.restarts_iff (h : d.Watchful) (hstep : d.step true event = some t)
    (hmode : d.mode = .forPower (!value)) (hsample : event.vbusMv = some vbusMv) :
    t.mode = .restarting ↔ Confirmed vbusPresentThresholdMv vbusAbsentThresholdMv
      vbusStateDebounceMs value t.policy.log t.policy.clock := by
  have hrunning : d.mode ≠ .restarting := hmode ▸ DeviceMode.forPower_ne_restarting _
  obtain ⟨-, since, hwatching⟩ := h hrunning
  obtain ⟨helapsed, hpolicy, hresult⟩ := step_sample hstep hmode hsample
  have hiff := hwatching.present_iff vbus_gap debounce_pos debounce_le (h.present_eq hmode) vbusMv
    (Nat.le_add_right _ _) (Nat.add_lt_add_left helapsed _)
  rw [← hpolicy] at hiff
  rw [show t.policy.clock = _ from congrArg Called.clock hpolicy]
  refine Iff.trans ?_ hiff
  rcases hresult with ⟨hchange, hrestarting, -⟩ | ⟨hpresent, hsame, -⟩
  · exact iff_of_true hrestarting (hchange.trans (Bool.not_not value))
  · refine iff_of_false (hsame ▸ hrunning) fun hchange => ?_
    exact Bool.not_ne_self value (hpresent.symm.trans hchange)

theorem Watchful.of_run {rails : Rails} {events : List DeviceEvent}
    (hrun : Run (GpsDevice.step true) (.powerOn rails) events d) : d.Watchful :=
  hrun.invariant (fun _ _ _ h hstep => h.step hstep) fun hmode => absurd rfl hmode

end GpsDevice

/-- In every run of the production build, a sample makes a device that tracks restart exactly when
the samples of this boot confirm that there is power, and one that charges exactly when they confirm
that there is none; the restart is recorded as one for that, and otherwise nothing is. -/
theorem restart_iff_confirmed (rails : Rails) (events : List DeviceEvent) (d t : GpsDevice)
    (hrun : Run (GpsDevice.step true) (.powerOn rails) events d) (event : DeviceEvent)
    (hstep : d.step true event = some t) (value : Bool) (hmode : d.mode = .forPower (!value))
    (vbusMv : UInt16) (hsample : event.vbusMv = some vbusMv) :
    (∃ output, t.policy.log =
        d.policy.log ++ [⟨d.policy.clock + event.elapsed, vbusMv, output⟩]) ∧
      (t.mode = .restarting ↔ Confirmed vbusPresentThresholdMv vbusAbsentThresholdMv
        vbusStateDebounceMs value t.policy.log (d.policy.clock + event.elapsed)) ∧
      (t.mode = .restarting ∧ t.restarts = d.restarts ++ [.forPower value] ∨
        t.mode = d.mode ∧ t.restarts = d.restarts) := by
  obtain ⟨-, hpolicy, hresult⟩ := GpsDevice.step_sample hstep hmode hsample
  have hiff := (GpsDevice.Watchful.of_run hrun).restarts_iff hstep hmode hsample
  rw [show t.policy.clock = _ from congrArg Called.clock hpolicy] at hiff
  refine ⟨⟨_, congrArg Called.log hpolicy⟩, hiff, ?_⟩
  rcases hresult with ⟨-, hrestarting, hrestarts⟩ | ⟨-, hsame, hrestarts⟩
  · rw [Bool.not_not] at hrestarts
    exact .inl ⟨hrestarting, hrestarts⟩
  · exact .inr ⟨hsame, hrestarts⟩

/-- Plugged in while it tracks. -/
theorem restart_iff_confirmed_plugged : ∃ d t, Run (GpsDevice.step true) (.powerOn (.all true))
    [.boot (healthyBoot ⟨false, 0⟩), .pass 9000 ⟨true, 0⟩] d ∧
    d.step true (.pass 2000 ⟨true, 4900⟩) = some t ∧ t.restarts = [.vbusDetected] ∧
    Confirmed vbusPresentThresholdMv vbusAbsentThresholdMv vbusStateDebounceMs true t.policy.log
      (d.policy.clock + 2000) :=
  ⟨_, _, rfl, rfl, rfl,
    (restart_iff_confirmed (.all true) [.boot (healthyBoot ⟨false, 0⟩), .pass 9000 ⟨true, 0⟩]
      _ _ rfl (.pass 2000 ⟨true, 4900⟩) rfl true rfl _ rfl).2.1.mp rfl⟩

/-! ## Steady power settles the mode -/

/-- The restarts that a device made because the power came or went. -/
def GpsDevice.powerRestarts (d : GpsDevice) : ℕ :=
  d.restarts.countP fun reason => reason == .vbusDetected || reason == .vbusRemoved

/-- A sample that the event takes is on the value's side of the thresholds. -/
def DeviceEvent.Reads (value : Bool) (event : DeviceEvent) : Prop :=
  ∀ vbusMv, event.vbusMv = some vbusMv →
    Crossed vbusPresentThresholdMv vbusAbsentThresholdMv value vbusMv

namespace GpsDevice

variable {d t : GpsDevice} {event : DeviceEvent} {value : Bool}

theorem powerRestarts_concat (d : GpsDevice) (reason : RestartReason)
    (h : t.restarts = d.restarts ++ [reason]) :
    t.powerRestarts = d.powerRestarts +
      if reason = .vbusDetected ∨ reason = .vbusRemoved then 1 else 0 := by
  rw [powerRestarts, h, List.countP_append, List.countP_singleton]
  simp [powerRestarts]

theorem powerRestarts_forPower (h : t.restarts = d.restarts ++ [.forPower value]) :
    t.powerRestarts = d.powerRestarts + 1 := by
  rw [powerRestarts_concat d _ h, if_pos]
  cases value
  · exact .inr rfl
  · exact .inl rfl

/-- A sample that agrees with the mode leaves the device in it. -/
theorem Watchful.step_stays {vbusMv : UInt16} (h : d.Watchful) (hstep : d.step true event = some t)
    (hsample : event.vbusMv = some vbusMv) (hreads : event.Reads value)
    (hmode : d.mode = .forPower value) : t.mode = d.mode ∧ t.restarts = d.restarts := by
  obtain ⟨-, hpolicy, ⟨-, hrestarting, -⟩ | ⟨-, hstays⟩⟩ := step_sample hstep hmode hsample
  · have hconfirmed := (h.restarts_iff hstep (by rw [hmode, Bool.not_not]) hsample).mp hrestarting
    rw [congrArg Called.log hpolicy] at hconfirmed
    exact absurd hconfirmed (not_confirmed_of_crossed vbus_gap (hreads vbusMv hsample))
  · exact hstays

/-- Where power and mode agree, no step restarts for power or brings the other mode about. -/
theorem step_agrees (h : d.Watchful) (hstep : d.step true event = some t)
    (hreads : event.Reads value) (hmode : d.mode ≠ .forPower (!value)) :
    t.mode ≠ .forPower (!value) ∧ t.powerRestarts = d.powerRestarts := by
  have hrestarting : ∀ s : GpsDevice, s.mode = .restarting → s.mode ≠ .forPower (!value) := by
    intro s hs
    rw [hs]
    exact (DeviceMode.forPower_ne_restarting _).symm
  cases event with
  | boot boot =>
    simp only [GpsDevice.step, Option.ite_none_right_eq_some, Option.some.injEq] at hstep
    obtain ⟨⟨-, htime⟩, rfl⟩ := hstep
    have hcrossed := hreads _ rfl
    have hpresent := (boot.decision_spec htime).1
    cases booted_setup true d boot with
    | restarted reason hs hreason hrestarts =>
      refine ⟨hrestarting _ hs, (powerRestarts_concat d reason hrestarts).trans ?_⟩
      rw [if_neg fun h => h.elim hreason.2 hreason.1, Nat.add_zero]
    | charging hs _ hdecided _ _ _ _ _ _ hrestarts =>
      refine ⟨fun hother => ?_, congrArg (List.countP _) hrestarts⟩
      obtain rfl := hcrossed.unique vbus_gap (hpresent.mp hdecided)
      exact absurd (hs.symm.trans hother) (by decide)
    | tracking hs hdecided _ _ _ hrestarts =>
      refine ⟨fun hother => ?_, congrArg (List.countP _) hrestarts⟩
      cases value with
      | true =>
        rw [hpresent.mpr hcrossed] at hdecided
        exact absurd (hdecided rfl) (by decide)
      | false => rcases hs with hs | hs <;> exact absurd (hs.symm.trans hother) (by decide)
  | reset rails =>
    obtain rfl := Option.some.inj hstep
    exact ⟨hrestarting _ rfl, powerRestarts_concat d .reset rfl⟩
  | poll elapsed vbus charger =>
    have hcharge : d.mode = .chargeOnly := by
      simp only [GpsDevice.step, Option.ite_none_right_eq_some] at hstep
      exact hstep.1.1
    cases value with
    | true =>
      obtain ⟨hsame, hrestarts⟩ := h.step_stays hstep rfl hreads hcharge
      exact ⟨hsame ▸ hmode, congrArg (List.countP _) hrestarts⟩
    | false => exact absurd hcharge hmode
  | pass elapsed vbus =>
    have htracking : d.mode = .tracking := by
      simp only [GpsDevice.step, Option.ite_none_right_eq_some] at hstep
      exact hstep.1.1
    cases value with
    | true => exact absurd htracking hmode
    | false =>
      obtain ⟨hsame, hrestarts⟩ := h.step_stays hstep rfl hreads htracking
      exact ⟨hsame ▸ hmode, congrArg (List.countP _) hrestarts⟩

/-- The device is still in the mode that the power does not call for: it has only taken samples, and
they have been stable since the first of them. -/
structure Unsettled (value : Bool) (d : GpsDevice) (events : List DeviceEvent) (t : GpsDevice) :
    Prop where
  mode : t.mode = .forPower (!value)
  restarts : t.powerRestarts = d.powerRestarts
  no_boot : ∀ boot, .boot boot ∉ events
  stable : ∀ first rest, events = first :: rest → ∃ sample,
    Stable vbusPresentThresholdMv vbusAbsentThresholdMv value sample t.policy.log ∧
      sample.time + (rest.map DeviceEvent.elapsed).sum = t.policy.clock

/-- Such a device restarts, or takes one more sample. -/
theorem Unsettled.step {s : GpsDevice} {events : List DeviceEvent} (h : Unsettled value d events s)
    (hstep : s.step true event = some t) (hreads : event.Reads value) :
    t.mode = .restarting ∧ t.powerRestarts ≤ d.powerRestarts + 1 ∨
      Unsettled value d (events ++ [event]) t := by
  cases hsample : event.vbusMv with
  | none =>
    cases event with
    | reset rails =>
      obtain rfl := Option.some.inj hstep
      refine .inl ⟨rfl, ?_⟩
      have hcount : ({ s with rails := rails }.restart .reset).powerRestarts = s.powerRestarts :=
        powerRestarts_concat s .reset rfl
      rw [hcount, h.restarts]
      exact Nat.le_succ _
    | _ => cases hsample
  | some vbusMv =>
    obtain ⟨-, hpolicy, ⟨-, hrestarting, hrestarts⟩ | ⟨-, hsame, hrestarts⟩⟩ :=
      step_sample hstep h.mode hsample
    · refine .inl ⟨hrestarting, ?_⟩
      rw [powerRestarts_forPower hrestarts, h.restarts]
    · have hcrossed := hreads vbusMv hsample
      refine .inr ⟨hsame.trans h.mode, ?_, ?_, fun first rest heq => ?_⟩
      · exact (congrArg (List.countP _) hrestarts).trans h.restarts
      · intro boot hboot
        rcases List.mem_append.mp hboot with hboot | hboot
        · exact h.no_boot boot hboot
        · obtain rfl := List.mem_singleton.mp hboot
          simp only [GpsDevice.step, h.mode, Option.ite_none_right_eq_some] at hstep
          exact absurd hstep.1.1 (DeviceMode.forPower_ne_restarting _)
      · rw [congrArg Called.log hpolicy, congrArg Called.clock hpolicy]
        cases events with
        | nil =>
          obtain rfl := (List.cons.inj heq).2
          exact ⟨_, Stable.start hcrossed vbus_gap, Nat.add_zero _⟩
        | cons first events =>
          rw [List.cons_append] at heq
          obtain rfl := (List.cons.inj heq).2
          obtain ⟨sample, hstable, htime⟩ := h.stable first events rfl
          refine ⟨sample, hstable.concat (hcrossed.not_opposite vbus_gap), ?_⟩
          rw [List.map_append, List.sum_append, ← Nat.add_assoc, htime]
          rfl

/-- It cannot go on like this for the debounce time. -/
theorem Unsettled.young {events : List DeviceEvent} (h : Unsettled value d events t)
    (hwatchful : t.Watchful) :
    (events.tail.map DeviceEvent.elapsed).sum < vbusStateDebounceMs.toNat := by
  cases events with
  | nil => exact debounce_pos
  | cons first rest =>
    obtain ⟨sample, hstable, htime⟩ := h.stable first rest rfl
    obtain ⟨-, since, hwatching⟩ :=
      hwatchful (h.mode ▸ DeviceMode.forPower_ne_restarting _)
    have hnot := hwatching.not_confirmed (hwatchful.present_eq h.mode)
    by_contra hold
    refine hnot ⟨sample, hstable, ?_⟩
    rw [← htime]
    exact Nat.add_le_add_left (Nat.not_lt.mp hold) _

/-- The run lemma: the device is unsettled, or has restarted at most once for the power. -/
theorem Unsettled.of_run (hwatchful : d.Watchful) (events : List DeviceEvent) :
    ∀ t, Run (GpsDevice.step true) d events t → (∀ event ∈ events, event.Reads value) →
      t.Watchful ∧ (Unsettled value d events t ∨
        t.mode ≠ .forPower (!value) ∧ t.powerRestarts ≤ d.powerRestarts + 1) := by
  induction events using List.reverseRecOn with
  | nil =>
    intro t hrun _
    obtain rfl := Run.nil_iff.mp hrun
    refine ⟨hwatchful, ?_⟩
    by_cases hmode : d.mode = .forPower (!value)
    · exact .inl ⟨hmode, rfl, fun _ => List.not_mem_nil, by simp⟩
    · exact .inr ⟨hmode, Nat.le_succ _⟩
  | append_singleton events event ih =>
    intro t hrun hreads
    obtain ⟨s, hbefore, hlast⟩ := Run.append_iff.mp hrun
    obtain ⟨u, hstep, hend⟩ := Run.cons_iff.mp hlast
    obtain rfl := Run.nil_iff.mp hend
    rw [List.forall_mem_append, List.forall_mem_singleton] at hreads
    obtain ⟨hs, hunsettled | ⟨hmode, hcount⟩⟩ := ih s hbefore hreads.1
    · refine ⟨hs.step hstep, (hunsettled.step hstep hreads.2).symm.imp_right ?_⟩
      rintro ⟨hrestarting, hcount⟩
      refine ⟨?_, hcount⟩
      rw [hrestarting]
      exact (DeviceMode.forPower_ne_restarting _).symm
    · obtain ⟨hother, hsame⟩ := step_agrees hs hstep hreads.2 hmode
      exact ⟨hs.step hstep, .inr ⟨hother, hsame ▸ hcount⟩⟩

end GpsDevice

/-- In every run of the production build, from any state that it reaches: while the power stays on
one side of the thresholds, the device restarts for it at most once, whatever else fails or resets
it; and when it has booted since, or its samples have covered the debounce time, it is not in the
other mode any more. -/
theorem steady_power_settles (rails : Rails) (earlier events : List DeviceEvent) (d t : GpsDevice)
    (hreached : Run (GpsDevice.step true) (.powerOn rails) earlier d)
    (hrun : Run (GpsDevice.step true) d events t) (value : Bool)
    (hreads : ∀ event ∈ events, event.Reads value) :
    t.powerRestarts ≤ d.powerRestarts + 1 ∧
      ((∃ boot, .boot boot ∈ events) ∨
          vbusStateDebounceMs.toNat ≤ (events.tail.map DeviceEvent.elapsed).sum →
        t.mode ≠ .forPower (!value)) := by
  obtain ⟨hwatchful, hunsettled | ⟨hmode, hcount⟩⟩ :=
    GpsDevice.Unsettled.of_run (.of_run hreached) events t hrun hreads
  · refine ⟨hunsettled.restarts ▸ Nat.le_succ _, ?_⟩
    rintro (⟨boot, hboot⟩ | hold)
    · exact absurd hboot (hunsettled.no_boot boot)
    · exact absurd (hunsettled.young hwatchful) (Nat.not_lt.mpr hold)
  · exact ⟨hcount, fun _ => hmode⟩

/-- Plugged in while it tracks: one restart, and it charges. -/
theorem steady_power_settles_plugged : ∃ d t, Run (GpsDevice.step true) (.powerOn (.all true))
    [.boot (healthyBoot ⟨false, 0⟩)] d ∧
    Run (GpsDevice.step true) d [.pass 9000 ⟨true, 0⟩, .pass 2000 ⟨true, 4900⟩,
      .boot (healthyBoot ⟨true, 0⟩)] t ∧
    t.powerRestarts ≤ d.powerRestarts + 1 ∧ t.mode ≠ .tracking := by
  refine ⟨_, _, rfl, rfl, ?_⟩
  have hsettles := steady_power_settles (.all true) [.boot (healthyBoot ⟨false, 0⟩)]
    [.pass 9000 ⟨true, 0⟩, .pass 2000 ⟨true, 4900⟩, .boot (healthyBoot ⟨true, 0⟩)] _ _ rfl rfl true
  have hreads := hsettles (by
    simp only [List.forall_mem_cons, List.not_mem_nil, false_imp_iff, implies_true, and_true]
    refine ⟨?_, ?_, ?_⟩ <;> rintro _ ⟨⟩ <;> exact crossed_of_isVbusPresent rfl)
  exact ⟨hreads.1, hreads.2 (.inl ⟨healthyBoot ⟨true, 0⟩, by simp⟩)⟩

end OpenGps.Firmware
