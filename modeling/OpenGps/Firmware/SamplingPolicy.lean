import OpenGps.Firmware.Connectivity
import OpenGps.Firmware.LocationPayload

/-!
# The sampling policy (`lib/sampling_policy`)

Which fixes the device keeps: the checks a fix must pass, the motion state with its hysteresis, the
poll interval, and the decision to queue the fix for upload. The functions of the C math library are
parameters.
-/

namespace OpenGps.Firmware

open OpenGps.Lib

/-- `<cmath>`. -/
structure MathFunctions where
  sin : Double → Double
  cos : Double → Double
  asin : Double → Double
  sqrt : Double → Double

structure SamplingConfig where
  minFixPollMs : UInt32
  maxFixPollMs : UInt32
  unknownFixPollMs : UInt32
  stationaryHeartbeatMs : UInt32
  maxFixAgeMs : UInt32
  targetPointSpacingM : UInt32
  movingEnterMps : Double
  movingExitMps : Double
  stateConfirmationCount : UInt8
  maxAccuracyM : Double
  minSatellites : UInt16
  maxSpeedMps : Double

/-- `include/config.h`; the speeds are the floats `1.5f` and `0.8f`. -/
def trackerSampling : SamplingConfig where
  minFixPollMs := 1000
  maxFixPollMs := 15000
  unknownFixPollMs := 2000
  stationaryHeartbeatMs := 300000
  maxFixAgeMs := 30000
  targetPointSpacingM := 25
  movingEnterMps := .finite (3 / 2)
  movingExitMps := .finite (13421773 / 2 ^ 24)
  stateConfirmationCount := 3
  maxAccuracyM := .finite 50
  minSatellites := 4
  maxSpeedMps := .finite 500

inductive UploadReason where
  | none | firstValidFix | distanceReached | intervalElapsed | stationaryHeartbeat
  deriving DecidableEq

structure SamplingDecision where
  nextFixPollMs : UInt32
  shouldUpload : Bool
  uploadReason : UploadReason
  motionState : MotionState
  fixAccepted : Bool
  deriving DecidableEq

structure SamplingPolicy where
  config : SamplingConfig
  state : MotionState
  candidate : MotionState
  candidateCount : UInt8
  lastPollMs : UInt32
  lastSentMs : UInt32
  pollIntervalMs : UInt32
  lastSent : LocationPayload
  hasSent : Bool
  hasPoll : Bool
  hasSentTime : Bool
  lastRecordedAt : List UInt8
  lastTimestampChangeMs : UInt32
  hasTimestamp : Bool
  prevLat : Double
  prevLon : Double
  prevFixMs : UInt32
  hasPrevFix : Bool

namespace SamplingPolicy

/-- A payload whose bytes are all zero. -/
def zeroPayload : LocationPayload where
  recordedAt := Vector.replicate 21 0
  latitude := .finite 0
  longitude := .finite 0
  altitude := .finite 0
  speedMps := .finite 0
  accuracyM := .finite 0
  satellitesUsed := 0
  batteryVoltage := .finite 0
  signalStrength := 0
  sequenceId := 0

def init (config : SamplingConfig) : SamplingPolicy where
  config
  state := .unknown
  candidate := .unknown
  candidateCount := 0
  lastPollMs := 0
  lastSentMs := 0
  pollIntervalMs := config.unknownFixPollMs
  lastSent := zeroPayload
  hasSent := false
  hasPoll := false
  hasSentTime := false
  lastRecordedAt := []
  lastTimestampChangeMs := 0
  hasTimestamp := false
  prevLat := .finite 0
  prevLon := .finite 0
  prevFixMs := 0
  hasPrevFix := false

/-- The timestamp must be there, and its year must not start with `0`. -/
def validCoordinates (fix : LocationPayload) : Bool :=
  fix.latitude.isFinite ∧ fix.longitude.isFinite ∧
    fix.latitude ≥ .finite (-90) ∧ fix.latitude ≤ .finite 90 ∧
    fix.longitude ≥ .finite (-180) ∧ fix.longitude ≤ .finite 180 ∧
    fix.recordedAt[0] ≠ 0 ∧ fix.recordedAt[0] ≠ 48

def validSpeed (speed : Double) : Bool := speed.isFinite ∧ speed ≥ .finite 0

def ofUInt32 (n : UInt32) : Double := .ofInt n.toNat

/-- The truncation of a value that fits. -/
def truncate : Double → UInt32
  | .finite q => UInt32.ofNat ⌊q⌋.toNat
  | _ => 0

def intervalForSpeed (p : SamplingPolicy) (speed : Double) : UInt32 :=
  if ¬ speed.isFinite ∨ speed ≤ .finite 0 then p.config.unknownFixPollMs
  else
    let rawMs := ofUInt32 p.config.targetPointSpacingM / speed * .finite 1000
    if rawMs ≤ ofUInt32 p.config.minFixPollMs then p.config.minFixPollMs
    else if rawMs ≥ ofUInt32 p.config.maxFixPollMs then p.config.maxFixPollMs
    else truncate (rawMs + .finite (1 / 2))

def earthRadiusM : Double := .finite 6371000

def pi : Double := .ofRat 3.14159265358979323846

section
variable (math : MathFunctions)

def haversineM (lat1 lon1 lat2 lon2 : Double) : Double :=
  let la1 := lat1 * pi / .finite 180
  let la2 := lat2 * pi / .finite 180
  let dLat := (lat2 - lat1) * pi / .finite 180
  let dLon := (lon2 - lon1) * pi / .finite 180
  let a := math.sin (dLat / .finite 2) * math.sin (dLat / .finite 2) +
    math.cos la1 * math.cos la2 * math.sin (dLon / .finite 2) * math.sin (dLon / .finite 2)
  earthRadiusM * .finite 2 * math.asin (math.sqrt (if a < .finite 1 then a else .finite 1))

def distanceM (p : SamplingPolicy) (fix : LocationPayload) : Double :=
  if ¬ p.hasSent ∨ ¬ validCoordinates fix ∨ ¬ validCoordinates p.lastSent then .finite (-1)
  else haversineM math p.lastSent.latitude p.lastSent.longitude fix.latitude fix.longitude

/-- The timestamp of the fix is noted; `none` when it has not changed for too long. -/
def noteTimestamp (p : SamplingPolicy) (nowMs : UInt32) (fix : LocationPayload) :
    Option SamplingPolicy :=
  if ¬ p.hasTimestamp ∨ cString fix.recordedAt ≠ p.lastRecordedAt then
    some { p with
      lastRecordedAt := (cString fix.recordedAt).take 20
      lastTimestampChangeMs := nowMs
      hasTimestamp := true }
  else if p.config.maxFixAgeMs > 0 ∧ nowMs - p.lastTimestampChangeMs > p.config.maxFixAgeMs then none
  else some p

/-- The quality gates, which an unknown value passes. -/
def goodQuality (p : SamplingPolicy) (fix : LocationPayload) : Bool :=
  ¬ (p.config.maxAccuracyM > .finite 0 ∧ fix.accuracyM > .finite 0 ∧
      fix.accuracyM > p.config.maxAccuracyM) ∧
    ¬ (p.config.minSatellites > 0 ∧ fix.satellitesUsed > 0 ∧
      fix.satellitesUsed < p.config.minSatellites)

/-- The speed from the previous fix is above the limit. -/
def impossibleJump (p : SamplingPolicy) (nowMs : UInt32) (fix : LocationPayload) : Bool :=
  p.config.maxSpeedMps > .finite 0 ∧ p.hasPrevFix ∧
    let dtMs := nowMs - p.prevFixMs
    dtMs > 0 ∧
      haversineM math p.prevLat p.prevLon fix.latitude fix.longitude /
        (ofUInt32 dtMs / .finite 1000) > p.config.maxSpeedMps

/-- The motion state this fix speaks for. -/
def observe (p : SamplingPolicy) (fix : LocationPayload) : MotionState :=
  if p.state ≠ .moving ∧ fix.speedMps.isFinite ∧ fix.speedMps ≥ p.config.movingEnterMps then .moving
  else if p.state = .unknown ∧ fix.speedMps.isFinite ∧ fix.speedMps < p.config.movingEnterMps then
    .stationary
  else if p.state = .moving ∧ validSpeed fix.speedMps ∧ fix.speedMps ≤ p.config.movingExitMps then
    .stationary
  else p.state

/-- The hysteresis: a new state is taken over after enough observations in a row. -/
def confirm (p : SamplingPolicy) (observed : MotionState) : SamplingPolicy :=
  if observed ≠ p.state ∧ observed ≠ .unknown then
    let p :=
      if p.candidate ≠ observed then { p with candidate := observed, candidateCount := 1 }
      else if p.candidateCount < 255 then { p with candidateCount := p.candidateCount + 1 }
      else p
    if p.candidateCount ≥ p.config.stateConfirmationCount then
      { p with state := observed, candidate := .unknown, candidateCount := 0 }
    else p
  else if observed = p.state then { p with candidate := .unknown, candidateCount := 0 }
  else p

/-- The reason to upload the fix, if there is one. -/
def uploadReason (p : SamplingPolicy) (nowMs : UInt32) (fix : LocationPayload)
    (effectiveState : MotionState) : UploadReason :=
  if ¬ p.hasSent then .firstValidFix
  else if effectiveState = .moving ∧
      distanceM math p fix ≥ ofUInt32 p.config.targetPointSpacingM then .distanceReached
  else if effectiveState = .moving ∧ p.hasSentTime ∧ nowMs - p.lastSentMs ≥ p.pollIntervalMs then
    .intervalElapsed
  else if effectiveState = .stationary ∧ p.hasSentTime ∧
      nowMs - p.lastSentMs ≥ p.config.stationaryHeartbeatMs then .stationaryHeartbeat
  else .none

def onFix (p : SamplingPolicy) (nowMs : UInt32) (fix : LocationPayload) :
    SamplingDecision × SamplingPolicy :=
  let p := { p with lastPollMs := nowMs, hasPoll := true }
  -- A fix that is rejected counts as a poll too.
  let rejected : SamplingDecision := ⟨p.pollIntervalMs, false, .none, p.state, false⟩
  if ¬ validCoordinates fix then (rejected, p)
  else
    match p.noteTimestamp nowMs fix with
    | none => (rejected, p)
    | some p =>
      if ¬ p.goodQuality fix then (rejected, p)
      else if impossibleJump math p nowMs fix then (rejected, p)
      else
        -- From here on the fix is accepted.
        let p :=
          { p with
            prevLat := fix.latitude, prevLon := fix.longitude, prevFixMs := nowMs
            hasPrevFix := true }
        let observed := p.observe fix
        let p := p.confirm observed
        let effectiveState := if observed = .unknown then p.state else observed
        let stationary : Bool :=
          effectiveState = .stationary ∧ (p.state ≠ .unknown ∨ validSpeed fix.speedMps)
        let p :=
          { p with pollIntervalMs :=
              if stationary then p.config.maxFixPollMs
              else if effectiveState = .moving then p.intervalForSpeed fix.speedMps
              else p.config.unknownFixPollMs }
        let reason := uploadReason math p nowMs fix effectiveState
        (⟨p.pollIntervalMs, reason ≠ .none, reason, p.state, true⟩, p)

/-- A fix to upload has passed the checks of its coordinates and its timestamp. -/
theorem validCoordinates_of_shouldUpload {p : SamplingPolicy} {nowMs : UInt32}
    {fix : LocationPayload} (h : (onFix math p nowMs fix).1.shouldUpload) :
    validCoordinates fix := by
  by_contra hinvalid
  unfold onFix at h
  simp only [hinvalid, not_false_eq_true, if_true] at h
  cases h

end

/-! ## The other calls -/

def fixDue (p : SamplingPolicy) (nowMs : UInt32) : Bool :=
  ¬ p.hasPoll ∨ nowMs < p.lastPollMs ∨ nowMs - p.lastPollMs ≥ p.pollIntervalMs

def onUploadResult (p : SamplingPolicy) (nowMs : UInt32) (fix : LocationPayload) (sent : Bool) :
    SamplingPolicy :=
  if ¬ sent then p
  else { p with lastSent := fix, lastSentMs := nowMs, hasSent := true, hasSentTime := true }

/-- The next fix is due at once. -/
def notifyGpsReenabled (p : SamplingPolicy) (nowMs : UInt32) : SamplingPolicy :=
  { p with lastPollMs := nowMs - p.pollIntervalMs }

/-! ## What a fix changes -/

/-- The timestamp has not changed for too long. -/
def Stagnant (p : SamplingPolicy) (nowMs : UInt32) (fix : LocationPayload) : Prop :=
  p.hasTimestamp ∧ cString fix.recordedAt = p.lastRecordedAt ∧ p.config.maxFixAgeMs > 0 ∧
    nowMs - p.lastTimestampChangeMs > p.config.maxFixAgeMs

/-- The fix fails a check. -/
def Rejects (math : MathFunctions) (p : SamplingPolicy) (nowMs : UInt32) (fix : LocationPayload) :
    Prop :=
  validCoordinates fix = false ∨ p.Stagnant nowMs fix ∨ p.goodQuality fix = false ∨
    impossibleJump math p nowMs fix

/-- The motion state with its candidate. -/
structure SameMotion (p q : SamplingPolicy) : Prop where
  state : q.state = p.state
  candidate : q.candidate = p.candidate
  candidateCount : q.candidateCount = p.candidateCount

/-- The previous accepted fix. -/
structure SamePrevious (p q : SamplingPolicy) : Prop where
  prevLat : q.prevLat = p.prevLat
  prevLon : q.prevLon = p.prevLon
  prevFixMs : q.prevFixMs = p.prevFixMs
  hasPrevFix : q.hasPrevFix = p.hasPrevFix

/-- The last-sent reference. -/
structure SameSent (p q : SamplingPolicy) : Prop where
  lastSent : q.lastSent = p.lastSent
  lastSentMs : q.lastSentMs = p.lastSentMs
  hasSent : q.hasSent = p.hasSent
  hasSentTime : q.hasSentTime = p.hasSentTime

section
variable {math : MathFunctions} {p q : SamplingPolicy} {nowMs : UInt32} {fix : LocationPayload}

theorem noteTimestamp_eq_none_iff :
    p.noteTimestamp nowMs fix = none ↔ p.Stagnant nowMs fix := by
  unfold noteTimestamp Stagnant
  split
  · next h =>
    refine iff_of_false (by simp) fun hstagnant => ?_
    obtain h | h := h
    · exact h hstagnant.1
    · exact h hstagnant.2.1
  · next h =>
    obtain ⟨hhas, hsame⟩ : p.hasTimestamp ∧ cString fix.recordedAt = p.lastRecordedAt := by
      simpa using h
    split
    · next hold => exact iff_of_true rfl ⟨hhas, hsame, hold⟩
    · next hfresh => exact iff_of_false (by simp) fun hstagnant => hfresh hstagnant.2.2

/-- Only the note of the timestamp changes. -/
theorem eq_of_noteTimestamp (h : p.noteTimestamp nowMs fix = some q) :
    q.config = p.config ∧ SameMotion p q ∧ SamePrevious p q ∧ SameSent p q := by
  unfold noteTimestamp at h
  split at h
  · cases h
    exact ⟨rfl, ⟨rfl, rfl, rfl⟩, ⟨rfl, rfl, rfl, rfl⟩, ⟨rfl, rfl, rfl, rfl⟩⟩
  · split at h
    · cases h
    · cases h
      exact ⟨rfl, ⟨rfl, rfl, rfl⟩, ⟨rfl, rfl, rfl, rfl⟩, ⟨rfl, rfl, rfl, rfl⟩⟩

theorem goodQuality_congr (h : q.config = p.config) : q.goodQuality fix = p.goodQuality fix := by
  simp only [goodQuality, h]

theorem impossibleJump_congr (hconfig : q.config = p.config) (h : SamePrevious p q) :
    impossibleJump math q nowMs fix = impossibleJump math p nowMs fix := by
  simp only [impossibleJump, hconfig, h.prevLat, h.prevLon, h.prevFixMs, h.hasPrevFix]

theorem SameMotion.trans {r : SamplingPolicy} (h : SameMotion p q) (h' : SameMotion q r) :
    SameMotion p r where
  state := h'.state.trans h.state
  candidate := h'.candidate.trans h.candidate
  candidateCount := h'.candidateCount.trans h.candidateCount

theorem SamePrevious.trans {r : SamplingPolicy} (h : SamePrevious p q) (h' : SamePrevious q r) :
    SamePrevious p r where
  prevLat := h'.prevLat.trans h.prevLat
  prevLon := h'.prevLon.trans h.prevLon
  prevFixMs := h'.prevFixMs.trans h.prevFixMs
  hasPrevFix := h'.hasPrevFix.trans h.hasPrevFix

theorem SameSent.trans {r : SamplingPolicy} (h : SameSent p q) (h' : SameSent q r) :
    SameSent p r where
  lastSent := h'.lastSent.trans h.lastSent
  lastSentMs := h'.lastSentMs.trans h.lastSentMs
  hasSent := h'.hasSent.trans h.hasSent
  hasSentTime := h'.hasSentTime.trans h.hasSentTime

/-- The observations of the state in a row, with this one. -/
def observations (p : SamplingPolicy) (observed : MotionState) : UInt8 :=
  if p.candidate ≠ observed then 1
  else if p.candidateCount < 255 then p.candidateCount + 1
  else p.candidateCount

theorem confirm_of_same {observed : MotionState} (h : observed = p.state) :
    p.confirm observed = { p with candidate := .unknown, candidateCount := 0 } := by
  unfold confirm
  rw [if_neg (fun hnew => hnew.1 h), if_pos h]

theorem confirm_of_new {observed : MotionState} (hne : observed ≠ p.state)
    (hknown : observed ≠ .unknown) :
    p.confirm observed =
      if p.observations observed ≥ p.config.stateConfirmationCount then
        { p with state := observed, candidate := .unknown, candidateCount := 0 }
      else { p with candidate := observed, candidateCount := p.observations observed } := by
  unfold confirm observations
  rw [if_pos ⟨hne, hknown⟩]
  by_cases hcandidate : p.candidate ≠ observed
  · simp only [if_pos hcandidate]
  · have hsame : observed = p.candidate := (not_not.mp hcandidate).symm
    simp only [if_neg hcandidate]
    subst hsame
    split <;> rfl

/-- The confirmation changes the motion state and its candidate only. -/
theorem confirm_keeps (observed : MotionState) :
    (p.confirm observed).config = p.config ∧ SameSent p (p.confirm observed) := by
  unfold confirm
  dsimp only
  repeat' split
  all_goals exact ⟨rfl, rfl, rfl, rfl, rfl⟩

/-- The policy after the note of the poll. -/
theorem polled_same (hp : ({ p with lastPollMs := nowMs, hasPoll := true } : SamplingPolicy) = q) :
    q.config = p.config ∧ SameMotion p q ∧ SamePrevious p q ∧ SameSent p q := by
  subst hp
  exact ⟨rfl, ⟨rfl, rfl, rfl⟩, ⟨rfl, rfl, rfl, rfl⟩, ⟨rfl, rfl, rfl, rfl⟩⟩

/-- A fix that fails a check is noted as polled, and changes neither the motion state nor the
references. -/
theorem onFix_of_rejects (h : Rejects math p nowMs fix) :
    (onFix math p nowMs fix).1.fixAccepted = false ∧
      (onFix math p nowMs fix).2.config = p.config ∧
      SameMotion p (onFix math p nowMs fix).2 ∧ SamePrevious p (onFix math p nowMs fix).2 ∧
      SameSent p (onFix math p nowMs fix).2 := by
  unfold onFix
  dsimp only
  generalize hp : ({ p with lastPollMs := nowMs, hasPoll := true } : SamplingPolicy) = p₀
  obtain ⟨hconfig, hmotion, hprevious, hsent⟩ := polled_same hp
  split
  · exact ⟨rfl, hconfig, hmotion, hprevious, hsent⟩
  · next hvalid =>
    split
    · exact ⟨rfl, hconfig, hmotion, hprevious, hsent⟩
    · next p₁ hnoted =>
      obtain ⟨hconfig₁, hmotion₁, hprevious₁, hsent₁⟩ := eq_of_noteTimestamp hnoted
      have hkept := And.intro (hconfig₁.trans hconfig) <| And.intro (hmotion.trans hmotion₁) <|
        And.intro (hprevious.trans hprevious₁) (hsent.trans hsent₁)
      split
      · exact ⟨rfl, hkept⟩
      · next hquality =>
        split
        · exact ⟨rfl, hkept⟩
        · next hjump =>
          -- every check has been passed
          rw [goodQuality_congr hkept.1] at hquality
          rw [impossibleJump_congr hkept.1 hkept.2.2.1] at hjump
          have hfresh : ¬ p₀.Stagnant nowMs fix := fun hold => by
            rw [noteTimestamp_eq_none_iff.mpr hold] at hnoted
            cases hnoted
          subst hp
          obtain h | h | h | h := h
          · exact absurd h (by simpa using hvalid)
          · exact absurd h hfresh
          · exact absurd h (by simpa using hquality)
          · exact absurd h hjump

/-- A fix that passes the checks reaches the hysteresis, with the motion state as it was. -/
theorem onFix_of_not_rejects (h : ¬ Rejects math p nowMs fix) :
    (onFix math p nowMs fix).1.fixAccepted ∧
      ∃ p₁ : SamplingPolicy, p₁.config = p.config ∧ SameMotion p p₁ ∧ SameSent p p₁ ∧
        (onFix math p nowMs fix).2.config = p.config ∧
        SameMotion (p₁.confirm (p₁.observe fix)) (onFix math p nowMs fix).2 ∧
        SameSent p (onFix math p nowMs fix).2 := by
  unfold Rejects at h
  push Not at h
  obtain ⟨hvalid, hfresh, hquality, hjump⟩ := h
  unfold onFix
  dsimp only
  generalize hp : ({ p with lastPollMs := nowMs, hasPoll := true } : SamplingPolicy) = p₀
  obtain ⟨hconfig, hmotion, hprevious, hsent⟩ := polled_same hp
  have hfresh₀ : ¬ p₀.Stagnant nowMs fix := by
    subst hp
    exact hfresh
  rw [if_neg (by simpa using hvalid)]
  split
  · next hnoted => exact absurd (noteTimestamp_eq_none_iff.mp hnoted) hfresh₀
  · next p₁ hnoted =>
    obtain ⟨hconfig₁, hmotion₁, hprevious₁, hsent₁⟩ := eq_of_noteTimestamp hnoted
    rw [if_neg (by rw [goodQuality_congr (hconfig₁.trans hconfig)]; simpa using hquality),
      if_neg (by
        rw [impossibleJump_congr (hconfig₁.trans hconfig) (hprevious.trans hprevious₁)]
        exact hjump)]
    generalize hp₂ :
      ({ p₁ with
          prevLat := fix.latitude, prevLon := fix.longitude, prevFixMs := nowMs
          hasPrevFix := true } : SamplingPolicy) = p₂
    have hconfig₂ : p₂.config = p₁.config := by rw [← hp₂]
    have hmotion₂ : SameMotion p₁ p₂ := by rw [← hp₂]; exact ⟨rfl, rfl, rfl⟩
    have hsent₂ : SameSent p₁ p₂ := by rw [← hp₂]; exact ⟨rfl, rfl, rfl, rfl⟩
    have hkept := p₂.confirm_keeps (p₂.observe fix)
    refine ⟨rfl, p₂, hconfig₂.trans (hconfig₁.trans hconfig),
      (hmotion.trans hmotion₁).trans hmotion₂, (hsent.trans hsent₁).trans hsent₂,
      hkept.1.trans (hconfig₂.trans (hconfig₁.trans hconfig)), ⟨rfl, rfl, rfl⟩, ?_⟩
    exact ((hsent.trans hsent₁).trans hsent₂).trans
      (hkept.2.trans ⟨rfl, rfl, rfl, rfl⟩)

/-- A fix leaves the last-sent reference to `onUploadResult`. -/
theorem sameSent_onFix : SameSent p (onFix math p nowMs fix).2 := by
  by_cases h : Rejects math p nowMs fix
  · exact (onFix_of_rejects h).2.2.2.2
  · obtain ⟨-, -, -, -, -, -, -, hsent⟩ := onFix_of_not_rejects h
    exact hsent

/-- The fix is accepted when it passes the checks. -/
theorem fixAccepted_iff : (onFix math p nowMs fix).1.fixAccepted ↔ ¬ Rejects math p nowMs fix := by
  by_cases h : Rejects math p nowMs fix
  · exact iff_of_false (by simp [(onFix_of_rejects h).1]) (not_not.mpr h)
  · exact iff_of_true (onFix_of_not_rejects h).1 h

end

end SamplingPolicy

end OpenGps.Firmware
