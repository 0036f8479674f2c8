import OpenGps.Lib.Run

/-!
# Cellular recovery

The recovery policy (`lib/connectivity_policy`), the manager that carries out its decisions on the
modem (`cellular_manager`) and the part of the main loop that feeds them: one pass ticks the
manager, and uploads, and so reports a transport result, only when the manager is ready.

The state `failed` is left by a success report alone, and no pass reports one from it. A run keeps a
way back to `ready` exactly as long as no failure report meets a policy that has already counted
`limit` of them.
-/

namespace OpenGps.Firmware

open OpenGps.Lib

/-! ## The policy -/

inductive ConnectivityState where
  | idle | ready | backoff | reconnectPdp | restartModem | failed
  deriving DecidableEq

inductive ConnectivityEvent where
  | registrationOk | pdpOk | transportFailure | uploadSuccess
  deriving DecidableEq

inductive ConnectivityAction where
  | none | check | connectPdp | restartModem
  deriving DecidableEq

structure ConnectivityDecision where
  action : ConnectivityAction
  deadlineMs : UInt32

/-- `static_cast<int32_t>(now - deadline) >= 0`. -/
def due (now deadline : UInt32) : Bool := decide (0 ≤ (now - deadline).toInt32)

structure ConnectivityPolicy where
  base : UInt32
  max : UInt32
  limit : UInt8
  deadline : UInt32
  failures : UInt8
  state : ConnectivityState
  deriving DecidableEq

namespace ConnectivityPolicy

def init (base max : UInt32) (limit : UInt8) : ConnectivityPolicy :=
  ⟨base, max, limit, 0, 0, .idle⟩

def ready (p : ConnectivityPolicy) : Bool := p.state = .ready

/-- `event` for the two reports of success. -/
def succeed (p : ConnectivityPolicy) (now : UInt32) : ConnectivityPolicy :=
  { p with failures := 0, state := .ready, deadline := now }

/-- `event` for a failure: the count saturates at 255, and one above the limit gives up. -/
def fail (p : ConnectivityPolicy) (now : UInt32) : ConnectivityDecision × ConnectivityPolicy :=
  let failures := if p.failures < 255 then p.failures + 1 else p.failures
  if p.limit < failures then
    (⟨.none, now⟩, { p with failures, state := .failed })
  else
    let shift := if 6 < failures then 6 else failures - 1
    let delay := p.base <<< shift.toUInt32
    let delay := if p.max < delay then p.max else delay
    (⟨.check, now + delay⟩, { p with failures, state := .backoff, deadline := now + delay })

def event (p : ConnectivityPolicy) (event : ConnectivityEvent) (now : UInt32) :
    ConnectivityDecision × ConnectivityPolicy :=
  match event with
  | .uploadSuccess | .pdpOk => (⟨.none, now⟩, p.succeed now)
  | .registrationOk => (⟨.connectPdp, now⟩, p)
  | .transportFailure => p.fail now

def tick (p : ConnectivityPolicy) (now : UInt32) : ConnectivityDecision × ConnectivityPolicy :=
  if p.state ≠ .backoff ∨ due now p.deadline = false then
    (⟨.none, p.deadline⟩, p)
  else
    let restart := decide (3 ≤ p.failures)
    (⟨if restart then .restartModem else .connectPdp, now⟩,
      { p with state := if restart then .restartModem else .reconnectPdp })

end ConnectivityPolicy

/-! ## The manager -/

inductive TransportResult where
  | sent | transportError | timeout | httpClientError | httpServerError | configError
  deriving DecidableEq

/-- What the modem answers to the operations of a recovery whose result is used. -/
structure ModemReplies where
  isNetworkConnected : Bool
  gprsConnect : Bool
  restart : Bool
  waitForNetwork : Bool
  deriving DecidableEq

def ModemReplies.recovered (modem : ModemReplies) : ConnectivityAction → Bool
  | .connectPdp => modem.isNetworkConnected && modem.gprsConnect
  | .restartModem => modem.restart && modem.waitForNetwork && modem.gprsConnect
  | _ => false

structure CellularManager where
  policy : ConnectivityPolicy
  deriving DecidableEq

namespace CellularManager

def ready (m : CellularManager) : Bool := m.policy.ready

def begin (m : CellularManager) (connected : Bool) (millis : UInt32) : CellularManager :=
  ⟨(m.policy.event (if connected then .pdpOk else .transportFailure) millis).2⟩

def reportTransportResult (m : CellularManager) (result : TransportResult) (millis : UInt32) :
    CellularManager :=
  match result with
  | .sent => ⟨(m.policy.event .uploadSuccess millis).2⟩
  | .transportError | .timeout | .httpServerError =>
    ⟨(m.policy.event .transportFailure millis).2⟩
  | .httpClientError | .configError => m

/-- `millis` is the clock after the recovery. -/
def tick (m : CellularManager) (nowMs : UInt32) (modem : ModemReplies) (millis : UInt32) :
    CellularManager :=
  let (decision, policy) := m.policy.tick nowMs
  if decision.action = .none then ⟨policy⟩
  else if modem.recovered decision.action then ⟨(policy.event .pdpOk millis).2⟩
  else ⟨(policy.event .transportFailure millis).2⟩

end CellularManager

/-! ## The loop -/

inductive MotionState where
  | unknown | stationary | moving
  deriving DecidableEq

def radioDue (nowMs : UInt32) (queueSize : Nat) (lastOpenMs : UInt32) (hasOpened : Bool)
    (state : MotionState) (batchMinItems : Nat) (flushMsMoving flushMsStationary : UInt32) : Bool :=
  if queueSize = 0 then false
  else if 0 < batchMinItems ∧ batchMinItems ≤ queueSize then true
  else if hasOpened = false then true
  else
    let flushMs := if state = .moving then flushMsMoving else flushMsStationary
    decide (flushMs ≤ nowMs - lastOpenMs)

def uploadBatchMinItems : Nat := 20
def uploadFlushMsMoving : UInt32 := 30000
def uploadFlushMsStationary : UInt32 := 60000

/-- The clock in milliseconds since the boot, of which the code sees the low 32 bits, and the
variables of the loop that gate an upload. -/
structure NetworkState where
  clock : Nat
  manager : CellularManager
  queueReady : Bool
  lastRadioOpenMs : UInt32
  radioHasOpened : Bool
  deriving DecidableEq

def millis (clock : Nat) : UInt32 := UInt32.ofNat clock

/-- What `setup` finds: how long it took, the store and the first connection. -/
structure BootInputs where
  elapsed : Nat
  queueReady : Bool
  connected : Bool
  deriving DecidableEq

/-- What one pass of `loop` reads from the clock, the modem and the rest of the program. -/
structure PassInputs where
  idle : Nat
  modem : ModemReplies
  recovery : Nat
  queueSize : Nat
  motion : MotionState
  toSend : Nat
  gpsDisabled : Bool
  upload : Nat
  result : TransportResult
  deriving DecidableEq

def setup (base max : UInt32) (limit : UInt8) (i : BootInputs) : NetworkState where
  clock := i.elapsed
  manager := CellularManager.begin ⟨.init base max limit⟩ i.connected (millis i.elapsed)
  queueReady := i.queueReady
  lastRadioOpenMs := 0
  radioHasOpened := false

namespace NetworkState

/-- The clock when a pass starts. -/
def passStart (s : NetworkState) (i : PassInputs) : Nat := s.clock + i.idle

/-- The clock after its recovery. -/
def passRecovered (s : NetworkState) (i : PassInputs) : Nat := s.passStart i + i.recovery

def tickPass (s : NetworkState) (i : PassInputs) : NetworkState :=
  { s with
    clock := s.passRecovered i
    manager := s.manager.tick (millis (s.passStart i)) i.modem (millis (s.passRecovered i)) }

/-- The gate in front of the drain. -/
def opensRadio (s : NetworkState) (now : UInt32) (i : PassInputs) : Bool :=
  s.queueReady && s.manager.ready && i.queueSize ≠ 0 &&
    radioDue now i.queueSize s.lastRadioOpenMs s.radioHasOpened i.motion uploadBatchMinItems
      uploadFlushMsMoving uploadFlushMsStationary

def drainPass (s : NetworkState) (now : UInt32) (i : PassInputs) : NetworkState :=
  if s.opensRadio now i then
    let s := { s with lastRadioOpenMs := now, radioHasOpened := true }
    if i.toSend = 0 ∨ i.gpsDisabled = false then s
    else
      let clock := s.clock + i.upload
      { s with clock, manager := s.manager.reportTransportResult i.result (millis clock) }
  else s

def loopPass (s : NetworkState) (i : PassInputs) : NetworkState :=
  (s.tickPass i).drainPass (millis (s.passStart i)) i

end NetworkState

/-- A pass of the loop, or a restart of the board. -/
inductive NetworkAction where
  | pass (i : PassInputs)
  | restart (i : BootInputs)
  deriving DecidableEq

def networkStep (base max : UInt32) (limit : UInt8) (s : NetworkState) :
    NetworkAction → Option NetworkState
  | .pass i => some (s.loopPass i)
  | .restart i => some (setup base max limit i)

/-! ## What one report does -/

/-- One more failure does not exceed the limit. -/
def ConnectivityPolicy.Withstands (p : ConnectivityPolicy) : Prop :=
  p.failures < p.limit ∨ p.limit = 255

namespace ConnectivityPolicy

theorem withstands_iff {p : ConnectivityPolicy} :
    p.Withstands ↔ ¬ p.limit < if p.failures < 255 then p.failures + 1 else p.failures := by
  have hlimit := p.limit.toNat_lt
  have hfailures := p.failures.toNat_lt
  have h255 : (255 : UInt8).toNat = 255 := rfl
  rw [Withstands, ← UInt8.toNat_inj, UInt8.lt_iff_toNat_lt, h255]
  split
  · next hlt =>
    rw [UInt8.lt_iff_toNat_lt, h255] at hlt
    have hadd : (p.failures + 1).toNat = p.failures.toNat + 1 := by
      rw [UInt8.toNat_add]
      exact Nat.mod_eq_of_lt (by show _ + 1 < 2 ^ 8; omega)
    rw [UInt8.lt_iff_toNat_lt, hadd]
    omega
  · next hge =>
    rw [UInt8.lt_iff_toNat_lt, h255] at hge
    rw [UInt8.lt_iff_toNat_lt]
    omega

theorem state_fail (p : ConnectivityPolicy) (now : UInt32) :
    (p.Withstands → (p.fail now).2.state = .backoff) ∧
      (¬ p.Withstands → (p.fail now).2.state = .failed) := by
  rw [withstands_iff, not_not, fail]
  constructor
  · intro h
    rw [if_neg h]
  · intro h
    rw [if_pos h]

/-- Only an overdue backoff is ticked, into one of the two recoveries. -/
theorem tick_cases (p : ConnectivityPolicy) (now : UInt32) :
    p.tick now = (⟨.none, p.deadline⟩, p) ∨
      p.state = .backoff ∧ ∃ action state, action ∈ [.connectPdp, .restartModem] ∧
        p.tick now = (⟨action, now⟩, { p with state }) := by
  rw [tick]
  split
  · exact .inl rfl
  · next h =>
    refine .inr ⟨by simp only [not_or, not_not] at h; exact h.1, _, _, ?_, rfl⟩
    split <;> simp

theorem tick_of_due {p : ConnectivityPolicy} {now : UInt32} (hstate : p.state = .backoff)
    (hdue : due now p.deadline = true) : (p.tick now).1.action ≠ .none := by
  rw [tick, if_neg (by simp [hstate, hdue])]
  dsimp only
  split <;> simp

theorem due_self (now : UInt32) : due now now = true := by
  rw [due, UInt32.sub_self]
  decide

end ConnectivityPolicy

/-! ## What one pass does -/

namespace NetworkState

def policy (s : NetworkState) : ConnectivityPolicy := s.manager.policy

/-- A recovery is due and fails. -/
def RecoveryFails (s : NetworkState) (i : PassInputs) : Prop :=
  let action := (s.policy.tick (millis (s.passStart i))).1.action
  action ≠ .none ∧ i.modem.recovered action = false

/-- The drain uploads, and reports a failure. -/
def DrainFails (s : NetworkState) (now : UInt32) (i : PassInputs) : Prop :=
  s.opensRadio now i = true ∧ i.toSend ≠ 0 ∧ i.gpsDisabled = true ∧
    i.result ∈ [.transportError, .timeout, .httpServerError]

/-- The pass uploads, after its tick, and reports a failure. -/
def UploadFails (s : NetworkState) (i : PassInputs) : Prop :=
  (s.tickPass i).DrainFails (millis (s.passStart i)) i

/-- The failure the pass reports, if any, does not exceed the limit. -/
def PassWithstands (s : NetworkState) (i : PassInputs) : Prop :=
  (s.RecoveryFails i → s.policy.Withstands) ∧ (s.UploadFails i → (s.tickPass i).policy.Withstands)

/-- The policy has not given up. -/
def Trying (s : NetworkState) : Prop := s.policy.state = .ready ∨ s.policy.state = .backoff

def GaveUp (s : NetworkState) : Prop := s.policy.state = .failed

/-- The tick of a pass does nothing, or recovers, or fails to. -/
theorem tickPass_cases (s : NetworkState) (i : PassInputs) :
    (¬ s.RecoveryFails i ∧ (s.tickPass i).policy = s.policy) ∨
      (s.policy.state = .backoff ∧ ¬ s.RecoveryFails i ∧
        (s.tickPass i).policy.state = .ready ∧ (s.tickPass i).policy.failures = 0) ∨
      s.policy.state = .backoff ∧ s.RecoveryFails i ∧ ∃ state,
        (s.tickPass i).policy = (({ s.policy with state }).fail (millis (s.passRecovered i))).2 := by
  have htick : (s.tickPass i).policy = (CellularManager.tick s.manager (millis (s.passStart i))
    i.modem (millis (s.passRecovered i))).policy := rfl
  rw [htick, CellularManager.tick, RecoveryFails]
  rcases s.policy.tick_cases (millis (s.passStart i)) with
    hnone | ⟨hstate, action, state, haction, hrun⟩
  · have hnone' : s.manager.policy.tick (millis (s.passStart i)) = _ := hnone
    left
    rw [hnone, hnone']
    exact ⟨fun h => h.1 rfl, rfl⟩
  · have hrun' : s.manager.policy.tick (millis (s.passStart i)) = _ := hrun
    have hne : action ≠ .none := by
      rintro rfl
      simp at haction
    right
    rw [hrun, hrun']
    dsimp only
    rw [if_neg hne]
    cases hrecovered : i.modem.recovered action with
    | true => exact .inl ⟨hstate, fun h => Bool.noConfusion h.2, rfl, rfl⟩
    | false => exact .inr ⟨hstate, ⟨hne, rfl⟩, state, rfl⟩

/-- A drain changes the policy only by the report of its upload. -/
theorem drainPass_cases (s : NetworkState) (now : UInt32) (i : PassInputs) :
    (¬ s.DrainFails now i ∧
      ((s.drainPass now i).policy = s.policy ∨ (s.drainPass now i).policy.state = .ready)) ∨
      s.DrainFails now i ∧
        (s.drainPass now i).policy = (s.policy.fail (millis (s.clock + i.upload))).2 := by
  rw [drainPass, DrainFails]
  split
  · next hopens =>
    dsimp only
    split
    · next hskip =>
      refine .inl ⟨?_, .inl rfl⟩
      rintro ⟨-, hsend, hgps, -⟩
      simp [hsend, hgps] at hskip
    · next hupload =>
      simp only [not_or, Bool.not_eq_false] at hupload
      obtain ⟨hsend, hgps⟩ := hupload
      cases hresult : i.result with
      | sent => exact .inl ⟨by simp, .inr rfl⟩
      | transportError => exact .inr ⟨⟨hopens, hsend, hgps, by simp⟩, rfl⟩
      | timeout => exact .inr ⟨⟨hopens, hsend, hgps, by simp⟩, rfl⟩
      | httpClientError => exact .inl ⟨by simp, .inl rfl⟩
      | httpServerError => exact .inr ⟨⟨hopens, hsend, hgps, by simp⟩, rfl⟩
      | configError => exact .inl ⟨by simp, .inl rfl⟩
  · next hclosed => exact .inl ⟨fun h => hclosed h.1, .inl rfl⟩

theorem ready_of_opensRadio {s : NetworkState} {now : UInt32} {i : PassInputs}
    (h : s.opensRadio now i = true) : s.policy.state = .ready := by
  simp only [opensRadio, Bool.and_eq_true] at h
  exact of_decide_eq_true h.1.1.2

/-- A drain gives up exactly when the failure it reports is one too many. -/
theorem Trying.drainPass {s : NetworkState} (h : s.Trying) (now : UInt32) (i : PassInputs) :
    ((s.DrainFails now i → s.policy.Withstands) → (s.drainPass now i).Trying) ∧
      (¬ (s.DrainFails now i → s.policy.Withstands) → (s.drainPass now i).GaveUp) := by
  rw [Trying, GaveUp]
  rcases s.drainPass_cases now i with ⟨hnot, hpolicy⟩ | ⟨hfails, hpolicy⟩
  · refine ⟨fun _ => ?_, fun hwithstands => absurd (fun hfails => absurd hfails hnot) hwithstands⟩
    rcases hpolicy with heq | hready
    · rw [heq]
      exact h
    · exact .inl hready
  · rw [hpolicy]
    obtain ⟨hkeeps, hgives⟩ := s.policy.state_fail (millis (s.clock + i.upload))
    exact ⟨fun hwithstands => .inr (hkeeps (hwithstands hfails)),
      fun hwithstands => hgives fun hw => hwithstands fun _ => hw⟩

/-- Once it has given up, the manager is never ready, so no pass reports anything. -/
theorem GaveUp.loopPass {s : NetworkState} (h : s.GaveUp) (i : PassInputs) :
    (s.loopPass i).GaveUp := by
  have hnot : s.policy.state ≠ .backoff := by
    rw [h]
    simp
  have htick : (s.tickPass i).policy = s.policy := by
    rcases s.tickPass_cases i with ⟨-, heq⟩ | ⟨hstate, -⟩ | ⟨hstate, -⟩
    · exact heq
    · exact absurd hstate hnot
    · exact absurd hstate hnot
  have hclosed : ¬ (s.tickPass i).opensRadio (millis (s.passStart i)) i = true := by
    intro hopens
    have hready := ready_of_opensRadio hopens
    rw [htick, h] at hready
    cases hready
  have hdrain : s.loopPass i = s.tickPass i := if_neg hclosed
  rw [GaveUp, hdrain, htick]
  exact h

/-- A pass gives up exactly when it reports one failure too many. -/
theorem Trying.loopPass {s : NetworkState} (h : s.Trying) (i : PassInputs) :
    (s.PassWithstands i → (s.loopPass i).Trying) ∧
      (¬ s.PassWithstands i → (s.loopPass i).GaveUp) := by
  -- When the tick does not fail, the pass stands or falls with the drain.
  have hdrain : (s.tickPass i).Trying → ¬ s.RecoveryFails i →
      (s.PassWithstands i → (s.loopPass i).Trying) ∧
        (¬ s.PassWithstands i → (s.loopPass i).GaveUp) := by
    intro htrying hnot
    obtain ⟨hkeeps, hgives⟩ := htrying.drainPass (millis (s.passStart i)) i
    exact ⟨fun hw => hkeeps hw.2,
      fun hw => hgives fun hupload => hw ⟨fun hfails => absurd hfails hnot, hupload⟩⟩
  rcases s.tickPass_cases i with ⟨hnot, hsame⟩ | ⟨-, hnot, hready, -⟩ | ⟨-, hfails, state, hfail⟩
  · refine hdrain ?_ hnot
    rw [Trying, hsame]
    exact h
  · exact hdrain (.inl hready) hnot
  · -- A failed recovery leaves the manager not ready, so the pass does not upload.
    obtain ⟨hkeeps, hgives⟩ :=
      ConnectivityPolicy.state_fail { s.policy with state } (millis (s.passRecovered i))
    rw [← hfail] at hkeeps hgives
    have hclosed : (s.tickPass i).policy.state ≠ .ready →
        ¬ (s.tickPass i).opensRadio (millis (s.passStart i)) i = true :=
      fun hne hopens => hne (ready_of_opensRadio hopens)
    by_cases hw : s.policy.Withstands
    · have hbackoff := hkeeps hw
      have hclosed := hclosed (by rw [hbackoff]; simp)
      have hpass : s.loopPass i = s.tickPass i := if_neg hclosed
      rw [hpass]
      exact ⟨fun _ => .inr hbackoff,
        fun hnot => absurd ⟨fun _ => hw, fun hupload => absurd hupload.1 hclosed⟩ hnot⟩
    · have hfailed := hgives hw
      have hclosed := hclosed (by rw [hfailed]; simp)
      have hpass : s.loopPass i = s.tickPass i := if_neg hclosed
      rw [hpass]
      exact ⟨fun hnot => absurd (hnot.1 hfails) hw, fun _ => hfailed⟩

end NetworkState

/-! ## Getting ready again -/

/-- Every modem operation of the pass succeeds. -/
def PassInputs.Succeeds (i : PassInputs) : Prop :=
  i.modem = ⟨true, true, true, true⟩ ∧ i.gpsDisabled = true ∧ i.result = .sent

section
variable (base max : UInt32) (limit : UInt8)

/-- Some passes, in which time advances and every modem operation succeeds, make the manager
ready. -/
def CanBecomeReady (s : NetworkState) : Prop :=
  ∃ passes : List PassInputs, (∀ i ∈ passes, i.Succeeds) ∧
    ∃ t, Run (networkStep base max limit) s (passes.map .pass) t ∧ t.manager.ready = true

/-- The first connection of a boot is made, or its failure does not exceed the limit. -/
def BootInputs.Withstands (i : BootInputs) : Prop :=
  i.connected = true ∨ (ConnectivityPolicy.init base max limit).Withstands

/-- No failure report of the step exceeds the limit. -/
def StepWithstands (s : NetworkState) : NetworkAction → Prop
  | .pass i => s.PassWithstands i
  | .restart i => i.Withstands base max limit

variable {base max : UInt32} {limit : UInt8}

theorem setup_trying (i : BootInputs) :
    (i.Withstands base max limit → (setup base max limit i).Trying) ∧
      (¬ i.Withstands base max limit → (setup base max limit i).GaveUp) := by
  rw [BootInputs.Withstands]
  cases hconnected : i.connected with
  | true =>
    have hpolicy : (setup base max limit i).policy =
        (ConnectivityPolicy.init base max limit).succeed (millis i.elapsed) := by
      simp [NetworkState.policy, setup, CellularManager.begin, hconnected, ConnectivityPolicy.event]
    exact ⟨fun _ => .inl (by rw [hpolicy]; rfl), fun hnot => absurd (.inl rfl) hnot⟩
  | false =>
    have hpolicy : (setup base max limit i).policy =
        ((ConnectivityPolicy.init base max limit).fail (millis i.elapsed)).2 := by
      simp [NetworkState.policy, setup, CellularManager.begin, hconnected, ConnectivityPolicy.event]
    obtain ⟨hkeeps, hgives⟩ :=
      (ConnectivityPolicy.init base max limit).state_fail (millis i.elapsed)
    refine ⟨fun hw => .inr ?_, fun hw => ?_⟩
    · rw [hpolicy]
      exact hkeeps (hw.resolve_left (by simp))
    · rw [NetworkState.GaveUp, hpolicy]
      exact hgives fun h => hw (.inr h)

/-- The step lemma: a step gives up exactly when it reports one failure too many. -/
theorem networkStep_trying {s t : NetworkState} {a : NetworkAction} (hs : s.Trying)
    (h : networkStep base max limit s a = some t) :
    (StepWithstands base max limit s a → t.Trying) ∧
      (¬ StepWithstands base max limit s a → t.GaveUp) := by
  cases a with
  | pass i =>
    cases h
    exact hs.loopPass i
  | restart i =>
    cases h
    exact setup_trying i

/-- A due backoff recovers on a modem that answers. -/
theorem ready_tickPass {s : NetworkState} {i : PassInputs} (hstate : s.policy.state = .backoff)
    (hdue : due (millis (s.passStart i)) s.policy.deadline = true)
    (hmodem : i.modem = ⟨true, true, true, true⟩) : (s.tickPass i).policy.state = .ready := by
  have haction := ConnectivityPolicy.tick_of_due hstate hdue
  have hanswers : ∀ action ∈ [ConnectivityAction.connectPdp, .restartModem],
      i.modem.recovered action = true := by
    rw [hmodem]
    decide
  rcases s.policy.tick_cases (millis (s.passStart i)) with hnone | ⟨-, action, state, hmem, hrun⟩
  · rw [hnone] at haction
    exact absurd rfl haction
  · have htick : (s.tickPass i).policy = (CellularManager.tick s.manager (millis (s.passStart i))
      i.modem (millis (s.passRecovered i))).policy := rfl
    have hrun' : s.manager.policy.tick (millis (s.passStart i)) = _ := hrun
    rw [hrun] at haction
    rw [htick, CellularManager.tick, hrun']
    dsimp only
    rw [if_neg haction, if_pos (hanswers action hmem)]
    rfl

/-- A pass at the deadline of a backoff, with a modem that answers, connects. -/
theorem NetworkState.Trying.canBecomeReady {s : NetworkState} (h : s.Trying) :
    CanBecomeReady base max limit s := by
  rcases h with hready | hbackoff
  · exact ⟨[], by simp, s, Run.nil_iff.mpr rfl, decide_eq_true hready⟩
  · let i : PassInputs :=
      { idle := (s.policy.deadline - millis s.clock).toNat
        modem := ⟨true, true, true, true⟩
        recovery := 0
        queueSize := 0
        motion := .unknown
        toSend := 0
        gpsDisabled := true
        upload := 0
        result := .sent }
    have hnow : millis (s.passStart i) = s.policy.deadline := by
      show UInt32.ofNat (s.clock + (s.policy.deadline - millis s.clock).toNat) = _
      rw [UInt32.ofNat_add, UInt32.ofNat_toNat]
      show millis s.clock + _ = _
      rw [UInt32.add_comm, UInt32.sub_add_cancel]
    have hdue : due (millis (s.passStart i)) s.policy.deadline = true := by
      rw [hnow]
      exact ConnectivityPolicy.due_self _
    have hready := ready_tickPass hbackoff hdue rfl
    -- The queue is empty, so the pass ends here.
    have hpass : s.loopPass i = s.tickPass i :=
      if_neg (by simp [NetworkState.opensRadio, i])
    refine ⟨[i], ?_, s.loopPass i, Run.cons_iff.mpr ⟨_, rfl, Run.nil_iff.mpr rfl⟩, ?_⟩
    · intro j hj
      obtain rfl := List.mem_singleton.mp hj
      exact ⟨rfl, rfl, rfl⟩
    · rw [hpass]
      exact decide_eq_true hready

/-- No pass leads out of the given-up state, whatever the modem answers. -/
theorem NetworkState.GaveUp.not_canBecomeReady {s : NetworkState} (h : s.GaveUp) :
    ¬ CanBecomeReady base max limit s := by
  rintro ⟨passes, -, t, hrun, hready⟩
  have hgaveUp : ∀ (passes : List PassInputs) (s : NetworkState), s.GaveUp →
      Run (networkStep base max limit) s (passes.map .pass) t → t.GaveUp := by
    intro passes
    induction passes with
    | nil =>
      intro s hs hrun
      exact Run.nil_iff.mp hrun ▸ hs
    | cons i passes ih =>
      intro s hs hrun
      obtain ⟨u, hu, hrest⟩ := Run.cons_iff.mp hrun
      cases hu
      exact ih _ (hs.loopPass i) hrest
  have ht : t.policy.state = .failed := hgaveUp passes s h hrun
  have hready : t.policy.state = .ready := of_decide_eq_true hready
  rw [ht] at hready
  cases hready

end

theorem exists_run (base max : UInt32) (limit : UInt8) : ∀ (as : List NetworkAction)
    (s : NetworkState), ∃ t, Run (networkStep base max limit) s as t := by
  intro as
  induction as with
  | nil => exact fun s => ⟨s, Run.nil_iff.mpr rfl⟩
  | cons a as ih =>
    intro s
    obtain ⟨u, hu⟩ : ∃ u, networkStep base max limit s a = some u := by
      cases a <;> exact ⟨_, rfl⟩
    obtain ⟨t, ht⟩ := ih u
    exact ⟨t, Run.cons_iff.mpr ⟨u, hu, ht⟩⟩

/-- In a run of the loop, with any history of failures, recoveries and restarts, the manager can
always become ready again exactly when no failure was reported to a policy that had already counted
`limit` of them. -/
theorem ready_stays_reachable_iff (base max : UInt32) (limit : UInt8) (boot : BootInputs)
    (as : List NetworkAction) :
    (∀ bs s, bs <+: as → Run (networkStep base max limit) (setup base max limit boot) bs s →
        CanBecomeReady base max limit s) ↔
      boot.Withstands base max limit ∧
        Along (networkStep base max limit) (StepWithstands base max limit)
          (setup base max limit boot) as := by
  obtain ⟨hkeeps, hgives⟩ := @setup_trying base max limit boot
  obtain ⟨t, hrun⟩ := exists_run base max limit as (setup base max limit boot)
  have hiff := fun htrying => hrun.all_good_iff (G := StepWithstands base max limit)
    NetworkState.Trying (CanBecomeReady base max limit)
    (fun s hs => hs.canBecomeReady) (fun s a t hs h => (networkStep_trying hs h).1)
    (fun s a t hs h hnot => ((networkStep_trying hs h).2 hnot).not_canBecomeReady) htrying
  constructor
  · intro hready
    have hwithstands : boot.Withstands base max limit := by
      by_contra hnot
      exact (hgives hnot).not_canBecomeReady (hready [] _ List.nil_prefix (Run.nil_iff.mpr rfl))
    exact ⟨hwithstands, (hiff (hkeeps hwithstands)).mp hready⟩
  · rintro ⟨hwithstands, halong⟩
    exact (hiff (hkeeps hwithstands)).mpr halong

/-- The configured limit of six, a boot without connection and six recoveries that fail, each at
its deadline: the seventh failure gives up, with a network that would answer from now on. -/
theorem outage_gives_up :
    let boot : BootInputs := { elapsed := 0, queueReady := true, connected := false }
    let outage (idle : Nat) : NetworkAction := .pass
      { idle, modem := ⟨false, true, false, true⟩, recovery := 0, queueSize := 5, motion := .moving,
        toSend := 5, gpsDisabled := true, upload := 0, result := .sent }
    ∃ s, Run (networkStep 30000 900000 6) (setup 30000 900000 6 boot)
        ([30000, 60000, 120000, 240000, 480000, 900000].map outage) s ∧
      ¬ CanBecomeReady 30000 900000 6 s := by
  intro boot outage
  obtain ⟨s, hrun, hfailed⟩ := Option.map_eq_some_iff.mp (show
    (([30000, 60000, 120000, 240000, 480000, 900000].map outage).foldlM
      (networkStep 30000 900000 6) (setup 30000 900000 6 boot)).map (·.policy.state) =
      some .failed by decide +kernel)
  exact ⟨s, hrun, NetworkState.GaveUp.not_canBecomeReady hfailed⟩

end OpenGps.Firmware
