import OpenGps.Firmware.Connectivity
import OpenGps.Lib.CallLog

/-!
# Power profiles (`lib/battery_policy`, `lib/power_manager`)

The low-battery flag with its two thresholds, the decisions of the power manager, and what the main
loop makes of them: it samples the battery once a second, derives a profile from the flag, the
network and the motion, and asks for a decision when the profile changes.
-/

namespace OpenGps.Firmware

open OpenGps.Lib

/-! ## The low-battery flag -/

structure BatteryPolicy where
  enterMv : UInt16
  exitMv : UInt16
  low : Bool := false
  deriving DecidableEq

namespace BatteryPolicy

def lowBattery (p : BatteryPolicy) : Bool := p.low

/-- `update`: whether the flag changed, and the policy after it. -/
def update (p : BatteryPolicy) (vbatMv : UInt16) : Bool × BatteryPolicy :=
  if vbatMv = 0 then (false, p)
  else if p.low = false ∧ vbatMv ≤ p.enterMv then (true, { p with low := true })
  else if p.low ∧ vbatMv ≥ p.exitMv then (true, { p with low := false })
  else (false, p)

/-- What a voltage says by itself: nothing between the thresholds, or at zero. -/
def verdict (p : BatteryPolicy) (vbatMv : UInt16) : Option Bool :=
  if vbatMv = 0 then none
  else if vbatMv ≤ p.enterMv then some true
  else if vbatMv ≥ p.exitMv then some false
  else none

def run (p : BatteryPolicy) (samples : List UInt16) : BatteryPolicy :=
  samples.foldl (fun p mv => (p.update mv).2) p

/-- The voltages at which a change was reported. -/
def changes (p : BatteryPolicy) : List UInt16 → List UInt16
  | [] => []
  | mv :: samples =>
    let (changed, p) := p.update mv
    if changed then mv :: p.changes samples else p.changes samples

/-- The last voltage that says something decides. -/
def lowAfter (p : BatteryPolicy) (samples : List UInt16) : Bool :=
  (samples.filterMap p.verdict).getLast?.getD p.low

variable {p : BatteryPolicy} {mv : UInt16}

/-- The step lemma: the flag takes the verdict over, and a change of it is reported. -/
theorem update_spec (mv : UInt16) (hgap : p.enterMv < p.exitMv) :
    (p.update mv).2 = { p with low := (p.verdict mv).getD p.low } ∧
      ((p.update mv).1 = true ↔ p.verdict mv = some (!p.low)) := by
  rw [UInt16.lt_iff_toNat_lt] at hgap
  unfold update verdict
  split
  next => simp
  next =>
    by_cases henter : mv ≤ p.enterMv
    · have hexit : ¬ mv ≥ p.exitMv := by
        rw [UInt16.le_iff_toNat_le] at henter
        rw [ge_iff_le, UInt16.le_iff_toNat_le]
        omega
      cases hlow : p.low <;> simp [henter, hexit]
      · rw [← hlow]
    · by_cases hexit : mv ≥ p.exitMv
      · cases hlow : p.low <;> simp [henter, hexit]
        · rw [← hlow]
      · simp [henter, hexit]

theorem update_thresholds (mv : UInt16) (hgap : p.enterMv < p.exitMv) :
    (p.update mv).2.enterMv = p.enterMv ∧ (p.update mv).2.exitMv = p.exitMv ∧
      (p.update mv).2.verdict = p.verdict := by
  rw [(update_spec _ hgap).1]
  exact ⟨rfl, rfl, rfl⟩

theorem lowAfter_cons (hgap : p.enterMv < p.exitMv) (samples : List UInt16) :
    p.lowAfter (mv :: samples) = (p.update mv).2.lowAfter samples := by
  rw [lowAfter, lowAfter, (update_thresholds _ hgap).2.2, (update_spec _ hgap).1, List.filterMap_cons]
  cases h : p.verdict mv with
  | none => rfl
  | some low =>
    rw [List.getLast?_cons, Option.getD_some]
    rfl

/-- The flag after some samples, and what the voltages at its changes say: each the opposite of the
one before. -/
theorem run_spec (samples : List UInt16) : ∀ {p : BatteryPolicy}, p.enterMv < p.exitMv →
    (p.run samples).lowBattery = p.lowAfter samples ∧
      ∀ i mv, (p.changes samples)[i]? = some mv →
        p.verdict mv = some (if i % 2 = 0 then !p.low else p.low) := by
  induction samples with
  | nil => exact fun _ => ⟨rfl, by simp [changes]⟩
  | cons mv samples ih =>
    intro p hgap
    obtain ⟨hstate, hchanged⟩ := update_spec mv hgap
    obtain ⟨henter, hexit, hverdict⟩ := update_thresholds mv hgap
    obtain ⟨hlow, hchanges⟩ := ih (p := (p.update mv).2) (by rw [henter, hexit]; exact hgap)
    refine ⟨hlow.trans (lowAfter_cons hgap samples).symm, fun i v hv => ?_⟩
    rw [changes] at hv
    dsimp only at hv
    rw [hverdict] at hchanges
    split at hv
    next hyes =>
      rw [hchanged] at hyes
      have hnow : (p.update mv).2.low = !p.low := by rw [hstate, hyes]; rfl
      rw [hnow] at hchanges
      cases i with
      | zero =>
        obtain rfl := Option.some.inj hv
        exact hyes
      | succ i =>
        rw [hchanges i v (by simpa using hv)]
        rcases Nat.mod_two_eq_zero_or_one i with h | h
        · rw [if_pos h, if_neg (by omega), Bool.not_not]
        · rw [if_neg (by omega), if_pos (by omega)]
    next hno =>
      rw [hchanged] at hno
      have hsame : (p.update mv).2.low = p.low := by
        rw [hstate]
        cases h : p.verdict mv with
        | none => rfl
        | some low =>
          rw [h, Option.some.injEq] at hno
          simpa using (Bool.eq_not.not.mp hno)
      rw [hsame] at hchanges
      exact hchanges i v hv

theorem le_of_verdict_true (h : p.verdict mv = some true) : mv ≠ 0 ∧ mv ≤ p.enterMv := by
  unfold verdict at h
  split at h
  next => cases h
  next hzero =>
    split at h
    next hle => exact ⟨hzero, hle⟩
    next => split at h <;> cases h

theorem le_of_verdict_false (h : p.verdict mv = some false) : mv ≠ 0 ∧ p.exitMv ≤ mv := by
  unfold verdict at h
  split at h
  next => cases h
  next hzero =>
    split at h
    next => cases h
    next =>
      split at h
      next hle => exact ⟨hzero, hle⟩
      next => cases h

theorem mem_of_mem_changes {samples : List UInt16} :
    ∀ {p : BatteryPolicy}, mv ∈ p.changes samples → mv ∈ samples := by
  induction samples with
  | nil => exact fun h => absurd h List.not_mem_nil
  | cons v samples ih =>
    intro p h
    rw [changes] at h
    dsimp only at h
    split at h
    next =>
      rcases List.mem_cons.mp h with rfl | h
      · exact List.mem_cons_self
      · exact List.mem_cons_of_mem _ (ih h)
    next => exact List.mem_cons_of_mem _ (ih h)

/-- With the thresholds apart, the flag after any samples is what the last voltage outside the gap
says. The voltages at which it changes are in turn at most the one threshold and at least the other,
so voltages that stay within less than the gap change it once at most. -/
theorem battery_hysteresis (enterMv exitMv : UInt16) (hgap : enterMv < exitMv)
    (samples : List UInt16) :
    let p : BatteryPolicy := { enterMv, exitMv }
    (p.run samples).lowBattery = ((samples.filterMap p.verdict).getLast?).getD false ∧
      (∀ i mv, (p.changes samples)[i]? = some mv →
        mv ≠ 0 ∧ if i % 2 = 0 then mv ≤ enterMv else exitMv ≤ mv) ∧
      ∀ lo hi : ℕ, (∀ mv ∈ samples, mv ≠ 0 → lo ≤ mv.toNat ∧ mv.toNat ≤ hi) →
        hi < lo + (exitMv.toNat - enterMv.toNat) → (p.changes samples).length ≤ 1 := by
  intro p
  obtain ⟨hlow, hchanges⟩ := run_spec samples (p := p) hgap
  have hturns : ∀ i mv, (p.changes samples)[i]? = some mv →
      mv ≠ 0 ∧ if i % 2 = 0 then mv ≤ enterMv else exitMv ≤ mv := by
    intro i mv hmv
    have hverdict := hchanges i mv hmv
    split
    next heven =>
      rw [if_pos heven] at hverdict
      exact le_of_verdict_true hverdict
    next hodd =>
      rw [if_neg hodd] at hverdict
      exact le_of_verdict_false hverdict
  refine ⟨hlow, hturns, fun lo hi hrange hspread => ?_⟩
  by_contra hmany
  obtain ⟨first, hfirst⟩ : ∃ mv, (p.changes samples)[0]? = some mv :=
    ⟨_, List.getElem?_eq_getElem (by omega)⟩
  obtain ⟨second, hsecond⟩ : ∃ mv, (p.changes samples)[1]? = some mv :=
    ⟨_, List.getElem?_eq_getElem (by omega)⟩
  obtain ⟨hfirst0, hle⟩ := hturns 0 first hfirst
  obtain ⟨hsecond0, hge⟩ := hturns 1 second hsecond
  have hbelow := hrange first (mem_of_mem_changes (List.mem_of_getElem? hfirst)) hfirst0
  have habove := hrange second (mem_of_mem_changes (List.mem_of_getElem? hsecond)) hsecond0
  rw [if_pos rfl, UInt16.le_iff_toNat_le] at hle
  rw [if_neg (by decide), UInt16.le_iff_toNat_le] at hge
  omega

end BatteryPolicy

/-- The thresholds of `include/config.h` and a voltage that bounces between them. -/
theorem battery_hysteresis_bounce :
    let p : BatteryPolicy := { enterMv := 3400, exitMv := 3600 }
    (p.run [3900, 3400, 3500, 0, 3450, 3599]).lowBattery = true ∧
      (p.changes [3900, 3400, 3500, 0, 3450, 3599]).length = 1 := by
  have h := BatteryPolicy.battery_hysteresis 3400 3600 (by decide)
    [3900, 3400, 3500, 0, 3450, 3599]
  exact ⟨h.1.trans (by decide), by decide⟩

/-! ## The decisions -/

inductive PowerProfile where
  | moving
  | stationary
  | noNetwork
  | lowBattery
  | charging
  deriving DecidableEq

structure PowerDecision where
  allowModemDtr : Bool
  allowDeepSleep : Bool
  allowPsmEdrx : Bool
  wantUpload : Bool
  deriving DecidableEq

structure PowerConfig where
  modemDtrEnabled : Bool
  deepSleepEnabled : Bool
  psmEdrxEnabled : Bool
  stationaryDeepSleepMs : UInt32

namespace PowerManager

def decide (config : PowerConfig) (profile : PowerProfile) (nowMs profileSinceMs : UInt32) :
    PowerDecision :=
  let longDwell : Bool := nowMs - profileSinceMs ≥ config.stationaryDeepSleepMs
  match profile with
  | .moving => ⟨config.modemDtrEnabled, false, config.psmEdrxEnabled, true⟩
  | .stationary =>
    ⟨config.modemDtrEnabled, config.deepSleepEnabled && longDwell, config.psmEdrxEnabled, true⟩
  | .noNetwork =>
    ⟨config.modemDtrEnabled, config.deepSleepEnabled && longDwell, config.psmEdrxEnabled, false⟩
  | .lowBattery =>
    ⟨config.modemDtrEnabled, config.deepSleepEnabled && longDwell, config.psmEdrxEnabled, false⟩
  -- On the charger nothing is allowed, whatever the flags say.
  | .charging => ⟨false, false, false, false⟩

end PowerManager

/-! ## The main loop -/

/-- What one pass reads: the battery voltage, whether the network was ready after the last pass, and
the motion state. -/
structure PowerInputs where
  vbatMv : UInt16
  cellularReady : Bool
  motion : MotionState

/-- The variables of the loop that the profile depends on. -/
structure PowerLoop where
  batteryPolicy : BatteryPolicy
  config : PowerConfig
  lastVbatSampleMs : UInt32 := 0
  lastPowerProfile : PowerProfile := .moving
  powerProfileSinceMs : UInt32 := 0

/-- The voltage a pass samples, its profile, and the decision it asks for. -/
structure PowerReport where
  sampled : Option UInt16
  profile : PowerProfile
  decision : Option PowerDecision

def vbatSampleMs : UInt32 := 1000

/-- `currentPowerProfile`, given the flag. -/
def currentPowerProfile (low : Bool) (i : PowerInputs) : PowerProfile :=
  if low then .lowBattery
  else if ¬ i.cellularReady then .noNetwork
  else if i.motion = .stationary then .stationary
  else .moving

namespace PowerLoop

/-- The part of `vbatSagTick` that feeds the battery policy. -/
def vbatTick (s : PowerLoop) (i : PowerInputs) (now : UInt32) : Option UInt16 × PowerLoop :=
  if now - s.lastVbatSampleMs ≥ vbatSampleMs then
    (some i.vbatMv,
      { s with lastVbatSampleMs := now, batteryPolicy := (s.batteryPolicy.update i.vbatMv).2 })
  else (none, s)

def pass (s : PowerLoop) (i : PowerInputs) (now : UInt32) : PowerReport × PowerLoop :=
  let (sampled, s) := s.vbatTick i now
  let profile := currentPowerProfile s.batteryPolicy.lowBattery i
  if profile ≠ s.lastPowerProfile then
    let s := { s with lastPowerProfile := profile, powerProfileSinceMs := now }
    (⟨sampled, profile, some (PowerManager.decide s.config profile now s.powerProfileSinceMs)⟩, s)
  else (⟨sampled, profile, none⟩, s)

end PowerLoop

/-! ## What is decided -/

abbrev PowerEntry : Type := Entry PowerInputs PowerReport

/-- The voltages that were sampled. -/
def sampledVoltages (log : List PowerEntry) : List UInt16 := log.filterMap (·.output.sampled)

def profileAfter (log : List PowerEntry) : PowerProfile :=
  (log.getLast?.map (·.output.profile)).getD .moving

/-- What a pass reports after the passes before it. -/
structure Decided (p : BatteryPolicy) (config : PowerConfig) (before : List PowerEntry)
    (entry : PowerEntry) : Prop where
  profile : entry.output.profile =
    currentPowerProfile (p.lowAfter (sampledVoltages (before ++ [entry]))) entry.input
  /-- A decision is asked for when the profile changes, and only then. -/
  asked : entry.output.decision.isSome ↔ entry.output.profile ≠ profileAfter before
  decision : ∀ d ∈ entry.output.decision, d.allowDeepSleep = false ∧
    (d.allowModemDtr → config.modemDtrEnabled) ∧ (d.allowPsmEdrx → config.psmEdrxEnabled) ∧
    (d.wantUpload ↔ entry.output.profile = .moving ∨ entry.output.profile = .stationary)

/-- A decision at the moment the profile begins: no time has gone by in it. -/
theorem PowerManager.decide_now {config : PowerConfig} (hdwell : 0 < config.stationaryDeepSleepMs)
    (profile : PowerProfile) (now : UInt32) :
    let d := PowerManager.decide config profile now now
    d.allowDeepSleep = false ∧ (d.allowModemDtr → config.modemDtrEnabled) ∧
      (d.allowPsmEdrx → config.psmEdrxEnabled) ∧
      (d.wantUpload ↔ profile = .moving ∨ profile = .stationary) := by
  have hshort : ¬ now - now ≥ config.stationaryDeepSleepMs := by
    rw [UInt32.sub_self]
    exact UInt32.not_le.mpr hdwell
  cases profile <;> simp only [PowerManager.decide, hshort] <;> simp

/-- What the loop keeps of its log. -/
structure Powered (p : BatteryPolicy) (config : PowerConfig)
    (s : Called PowerLoop PowerInputs PowerReport) : Prop where
  battery : s.state.batteryPolicy = p.run (sampledVoltages s.log)
  config : s.state.config = config
  profile : s.state.lastPowerProfile = profileAfter s.log

theorem sampledVoltages_concat (log : List PowerEntry) (entry : PowerEntry) :
    sampledVoltages (log ++ [entry]) = sampledVoltages log ++ entry.output.sampled.toList := by
  rw [sampledVoltages, List.filterMap_append]
  cases h : entry.output.sampled <;> simp [sampledVoltages, h]

theorem profileAfter_concat (log : List PowerEntry) (entry : PowerEntry) :
    profileAfter (log ++ [entry]) = entry.output.profile := by
  rw [profileAfter, List.getLast?_concat]
  rfl

theorem BatteryPolicy.run_toList (p : BatteryPolicy) (samples : List UInt16)
    (mv : Option UInt16) : p.run (samples ++ mv.toList) =
      match mv with
      | none => p.run samples
      | some mv => ((p.run samples).update mv).2 := by
  cases mv with
  | none => rw [Option.toList_none, List.append_nil]
  | some mv => rw [Option.toList_some, run, List.foldl_append]; rfl

/-- The step lemma. -/
theorem Powered.pass {p : BatteryPolicy} {config : PowerConfig}
    {s : Called PowerLoop PowerInputs PowerReport} (h : Powered p config s)
    (hgap : p.enterMv < p.exitMv) (hdwell : 0 < config.stationaryDeepSleepMs) (i : PowerInputs)
    (now : ℕ) :
    Decided p config s.log ⟨now, i, (s.state.pass i (counter now)).1⟩ ∧
      Powered p config (s.after PowerLoop.pass i now) := by
  obtain ⟨hbattery, hconfig, hlast⟩ := h
  have hsampled : ∃ sampled state, s.state.vbatTick i (counter now) = (sampled, state) ∧
      state.batteryPolicy = p.run (sampledVoltages s.log ++ sampled.toList) ∧
      state.config = config ∧ state.lastPowerProfile = profileAfter s.log := by
    rw [PowerLoop.vbatTick]
    split
    · exact ⟨_, _, rfl, by rw [BatteryPolicy.run_toList, ← hbattery], hconfig, hlast⟩
    · exact ⟨_, _, rfl, by rw [BatteryPolicy.run_toList, ← hbattery], hconfig, hlast⟩
  obtain ⟨sampled, state, htick, hbattery, hconfig, hlast⟩ := hsampled
  have hlow := (BatteryPolicy.run_spec (sampledVoltages s.log ++ sampled.toList) hgap).1
  rw [← hbattery] at hlow
  rw [Called.after, PowerLoop.pass, htick]
  dsimp only
  rw [hlast, hconfig, hlow]
  generalize hprofile : currentPowerProfile _ i = profile
  split
  next hchanged =>
    refine ⟨⟨?_, ?_, ?_⟩, ⟨?_, rfl, ?_⟩⟩
    · rw [sampledVoltages_concat]
      exact hprofile.symm
    · exact iff_of_true rfl hchanged
    · rintro d hd
      obtain rfl := Option.some.inj hd
      exact PowerManager.decide_now hdwell profile (counter now)
    · rw [sampledVoltages_concat]
      exact hbattery
    · rw [profileAfter_concat]
  next hsame =>
    refine ⟨⟨?_, ?_, by simp⟩, ⟨?_, hconfig, ?_⟩⟩
    · rw [sampledVoltages_concat]
      exact hprofile.symm
    · exact iff_of_false (by simp) hsame
    · rw [sampledVoltages_concat]
      exact hbattery
    · rw [profileAfter_concat]
      exact hlast.trans (not_not.mp hsame).symm

/-- In every run of the loop the profile is that of the last decisive voltage sampled, the network
and the motion. A decision is asked for exactly when the profile changes, and as it is asked for at
that moment, none allows deep sleep, whatever the flags are. -/
theorem power_decisions (enterMv exitMv : UInt16) (hgap : enterMv < exitMv) (config : PowerConfig)
    (hdwell : 0 < config.stationaryDeepSleepMs) (start : ℕ) (passes : List (ℕ × PowerInputs))
    (s : Called PowerLoop PowerInputs PowerReport)
    (hrun : Run (callStep PowerLoop.pass) ⟨start, { batteryPolicy := { enterMv, exitMv }, config },
      []⟩ passes s) :
    Explained (Decided { enterMv, exitMv } config) s.log :=
  (Explained.of_run (Powered { enterMv, exitMv } config)
    (fun _ i now h _ _ => h.pass hgap hdwell i now) hrun ⟨rfl, rfl, rfl⟩ .nil).2

/-- Every flag on: the device stands still for ten minutes, and its battery runs low. -/
theorem power_decisions_asleep : ∃ s, Run (callStep PowerLoop.pass)
    ⟨0, { batteryPolicy := { enterMv := 3400, exitMv := 3600 }, config := ⟨true, true, true, 60000⟩ },
      []⟩
    [(1000, ⟨3900, true, .stationary⟩), (600000, ⟨3900, true, .stationary⟩),
      (1000, ⟨3390, true, .stationary⟩)] s ∧
      Explained (Decided { enterMv := 3400, exitMv := 3600 } ⟨true, true, true, 60000⟩) s.log := by
  have hcalls : ∀ call ∈ [(1000, (⟨3900, true, .stationary⟩ : PowerInputs)),
      (600000, ⟨3900, true, .stationary⟩), (1000, ⟨3390, true, .stationary⟩)],
      call.1 < 2 ^ 31 := by
    simp only [List.forall_mem_cons]
    decide
  obtain ⟨s, hrun⟩ := exists_called PowerLoop.pass hcalls
    ⟨0, { batteryPolicy := { enterMv := 3400, exitMv := 3600 },
          config := ⟨true, true, true, 60000⟩ }, []⟩
  exact ⟨s, hrun, power_decisions 3400 3600 (by decide) ⟨true, true, true, 60000⟩ (by decide) 0 _ s
    hrun⟩

end OpenGps.Firmware
