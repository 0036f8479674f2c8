import OpenGps.Firmware.SamplingPolicy

/-!
# The motion state over a history of fixes

The policy keeps a candidate state and counts the fixes that speak for it. The count stands for a
window at the end of the accepted fixes, each of which observed the candidate while the motion state
was what it is now; a state is taken over when the window is as long as the configuration asks. A
rejected fix is in no window, and the window stays where it was.
-/

namespace OpenGps.Firmware

open OpenGps.Lib

namespace SamplingPolicy

/-! ## What a fix observes -/

/-- In the motion state `state` the fix speaks for another one: its speed is past the threshold. -/
def Observes (config : SamplingConfig) (state : MotionState) (fix : LocationPayload) :
    MotionState → Prop
  | .moving => state ≠ .moving ∧ fix.speedMps.isFinite ∧ fix.speedMps ≥ config.movingEnterMps
  | .stationary =>
    (state = .unknown ∧ fix.speedMps.isFinite ∧ fix.speedMps < config.movingEnterMps) ∨
      (state = .moving ∧ validSpeed fix.speedMps ∧ fix.speedMps ≤ config.movingExitMps)
  | .unknown => False

variable {math : MathFunctions} {config : SamplingConfig} {p q : SamplingPolicy} {nowMs : UInt32}
  {fix : LocationPayload}

theorem observes_observe (h : p.observe fix ≠ p.state) :
    Observes p.config p.state fix (p.observe fix) := by
  unfold observe at h ⊢
  split
  · next hmoving => exact hmoving
  · next hslow =>
    rw [if_neg hslow] at h
    split
    · next hstationary => exact .inl hstationary
    · next hfast =>
      rw [if_neg hfast] at h
      split
      · next hexit => exact .inr hexit
      · next hsame =>
        rw [if_neg hsame] at h
        exact absurd rfl h

theorem Observes.ne_unknown {state observed : MotionState} (h : Observes config state fix observed) :
    observed ≠ .unknown := by
  rintro rfl
  exact h

/-! ## The policy with its accepted fixes -/

/-- What the main loop asks of the policy. -/
inductive PolicyCall
  | fix (nowMs : UInt32) (fix : LocationPayload)
  | uploadResult (nowMs : UInt32) (fix : LocationPayload) (sent : Bool)
  | gpsReenabled (nowMs : UInt32)

/-- The policy with the fixes it has accepted so far, the oldest first. -/
structure Sampler where
  policy : SamplingPolicy
  accepted : List LocationPayload

namespace Sampler

def init (config : SamplingConfig) : Sampler := ⟨.init config, []⟩

def call (math : MathFunctions) (s : Sampler) : PolicyCall → Sampler
  | .fix nowMs fix =>
    ⟨(onFix math s.policy nowMs fix).2,
      if (onFix math s.policy nowMs fix).1.fixAccepted then s.accepted ++ [fix] else s.accepted⟩
  | .uploadResult nowMs fix sent => ⟨s.policy.onUploadResult nowMs fix sent, s.accepted⟩
  | .gpsReenabled nowMs => ⟨s.policy.notifyGpsReenabled nowMs, s.accepted⟩

/-- The last `length` accepted fixes have all observed `observed` in the motion state `state`. -/
def Evidence (config : SamplingConfig) (s : Sampler) (length : ℕ) (state observed : MotionState) :
    Prop :=
  ∃ window, window <:+ s.accepted ∧ window.length = length ∧
    ∀ fix ∈ window, Observes config state fix observed

/-- The count of the candidate is backed by a window, shorter than a confirmation takes. -/
structure Inv (config : SamplingConfig) (s : Sampler) : Prop where
  configured : s.policy.config = config
  unconfirmed : s.policy.candidateCount < config.stateConfirmationCount
  evidence : s.Evidence config s.policy.candidateCount.toNat s.policy.state s.policy.candidate

theorem Evidence.zero {s : Sampler} {state observed : MotionState} :
    s.Evidence config 0 state observed :=
  ⟨[], List.nil_suffix, rfl, by simp⟩

/-- One more accepted fix extends the window. -/
theorem Evidence.snoc {s t : Sampler} {length : ℕ} {state observed : MotionState}
    (h : s.Evidence config length state observed) (haccepted : t.accepted = s.accepted ++ [fix])
    (hfix : Observes config state fix observed) : t.Evidence config (length + 1) state observed := by
  obtain ⟨window, hsuffix, hlength, hall⟩ := h
  refine ⟨window ++ [fix], ?_, by simp [hlength], ?_⟩
  · rw [haccepted]
    exact List.suffix_append_self_iff.mpr hsuffix
  · intro f hf
    obtain hf | hf := List.mem_append.mp hf
    · exact hall f hf
    · exact List.mem_singleton.mp hf ▸ hfix

theorem Inv.init (hcount : 1 ≤ config.stateConfirmationCount) : (init config).Inv config where
  configured := rfl
  unconfirmed := Std.lt_of_lt_of_le (by decide : (0 : UInt8) < 1) hcount
  evidence := .zero

/-- With the fix, the observations in a row are backed by a window. -/
theorem Inv.observed {s t : Sampler} (h : s.Inv config) {observed : MotionState}
    (haccepted : t.accepted = s.accepted ++ [fix])
    (hfix : Observes config s.policy.state fix observed) :
    (s.policy.observations observed).toNat ≤ config.stateConfirmationCount.toNat ∧
      t.Evidence config (s.policy.observations observed).toNat s.policy.state observed := by
  have hshort := UInt8.lt_iff_toNat_lt.mp h.unconfirmed
  have hmax := config.stateConfirmationCount.toNat_lt
  unfold observations
  by_cases hcandidate : s.policy.candidate ≠ observed
  · rw [if_pos hcandidate]
    exact ⟨by simp; omega, Evidence.zero.snoc haccepted hfix⟩
  · have hsame := not_not.mp hcandidate
    -- below the configured count, the counter is not saturated
    have hbelow : s.policy.candidateCount < 255 := UInt8.lt_iff_toNat_lt.mpr (by simp; omega)
    have hnext : (s.policy.candidateCount + 1).toNat = s.policy.candidateCount.toNat + 1 := by
      rw [UInt8.toNat_add]
      simp
      omega
    rw [if_neg hcandidate, if_pos hbelow, hnext]
    exact ⟨hshort, (hsame ▸ h.evidence).snoc haccepted hfix⟩

theorem accepted_of_rejects {s : Sampler} (h : Rejects math s.policy nowMs fix) :
    (s.call math (.fix nowMs fix)).accepted = s.accepted := by
  simp [call, (onFix_of_rejects h).1]

theorem accepted_of_not_rejects {s : Sampler} (h : ¬ Rejects math s.policy nowMs fix) :
    (s.call math (.fix nowMs fix)).accepted = s.accepted ++ [fix] := by
  simp [call, (onFix_of_not_rejects h).1]

/-- What keeps the configuration, the motion state and the accepted fixes keeps the invariant. -/
theorem Inv.of_same {s t : Sampler} (h : s.Inv config) (hconfig : t.policy.config = s.policy.config)
    (hmotion : SameMotion s.policy t.policy) (haccepted : t.accepted = s.accepted) :
    t.Inv config where
  configured := hconfig.trans h.configured
  unconfirmed := hmotion.candidateCount ▸ h.unconfirmed
  evidence := by
    rw [hmotion.candidateCount, hmotion.state, hmotion.candidate]
    obtain ⟨window, hsuffix, hwindow⟩ := h.evidence
    exact ⟨window, haccepted ▸ hsuffix, hwindow⟩

/-- An accepted fix keeps the invariant, and changes the motion state only when the window has the
configured length. -/
theorem Inv.accept {s : Sampler} (h : s.Inv config) (hpass : ¬ Rejects math s.policy nowMs fix) :
    (s.call math (.fix nowMs fix)).Inv config ∧
      ((s.call math (.fix nowMs fix)).policy.state ≠ s.policy.state →
        (s.call math (.fix nowMs fix)).Evidence config config.stateConfirmationCount.toNat
          s.policy.state (s.call math (.fix nowMs fix)).policy.state) := by
  have haccepted := accepted_of_not_rejects hpass
  obtain ⟨-, p₁, hconfig₁, hmotion₁, -, hconfig, hmotion, -⟩ := onFix_of_not_rejects hpass
  generalize ht : s.call math (.fix nowMs fix) = t at haccepted ⊢
  have hpolicy : (onFix math s.policy nowMs fix).2 = t.policy := ht ▸ rfl
  rw [hpolicy] at hconfig hmotion
  have hcount : 0 < config.stateConfirmationCount :=
    Std.lt_of_le_of_lt UInt8.zero_le h.unconfirmed
  by_cases hsame : p₁.observe fix = p₁.state
  · rw [confirm_of_same hsame] at hmotion
    refine ⟨⟨hconfig.trans h.configured, hmotion.candidateCount ▸ hcount, ?_⟩, fun hchange => ?_⟩
    · rw [hmotion.candidateCount]
      exact .zero
    · exact absurd (hmotion.state.trans hmotion₁.state) hchange
  · have hfix : Observes config s.policy.state fix (p₁.observe fix) := by
      have := observes_observe hsame
      rwa [hconfig₁, h.configured, hmotion₁.state] at this
    have hobservations : p₁.observations (p₁.observe fix) =
        s.policy.observations (p₁.observe fix) := by
      simp only [observations, hmotion₁.candidate, hmotion₁.candidateCount]
    obtain ⟨hle, hevidence⟩ := h.observed haccepted hfix
    rw [confirm_of_new hsame hfix.ne_unknown, hobservations, hconfig₁, h.configured] at hmotion
    split at hmotion
    · next hconfirmed =>
      -- the window is complete: the observed state is taken over
      have hlength := Nat.le_antisymm hle (UInt8.le_iff_toNat_le.mp hconfirmed)
      refine ⟨⟨hconfig.trans h.configured, hmotion.candidateCount ▸ hcount, ?_⟩, fun _ => ?_⟩
      · rw [hmotion.candidateCount]
        exact .zero
      · rw [hmotion.state, ← hlength]
        exact hevidence
    · next hopen =>
      refine ⟨⟨hconfig.trans h.configured, ?_, ?_⟩, fun hchange => ?_⟩
      · rw [hmotion.candidateCount]
        exact UInt8.not_le.mp hopen
      · rw [hmotion.candidateCount, hmotion.state, hmotion.candidate]
        exact hmotion₁.state ▸ hevidence
      · exact absurd (hmotion.state.trans hmotion₁.state) hchange

/-- What a call does: the invariant is kept, the motion state changes on a complete window only, and
a rejected fix changes neither it nor the references. -/
theorem Inv.call {s : Sampler} (h : s.Inv config) (a : PolicyCall) :
    (s.call math a).Inv config ∧
      ((s.call math a).policy.state ≠ s.policy.state →
        (s.call math a).Evidence config config.stateConfirmationCount.toNat s.policy.state
          (s.call math a).policy.state) := by
  cases a with
  | fix nowMs fix =>
    by_cases hrejects : Rejects math s.policy nowMs fix
    · obtain ⟨-, hconfig, hmotion, -, -⟩ := onFix_of_rejects hrejects
      exact ⟨h.of_same hconfig hmotion (accepted_of_rejects hrejects),
        fun hchange => absurd hmotion.state hchange⟩
    · exact h.accept hrejects
  | uploadResult nowMs fix sent =>
    cases sent
    · exact ⟨h.of_same rfl ⟨rfl, rfl, rfl⟩ rfl, fun hchange => absurd rfl hchange⟩
    · exact ⟨h.of_same rfl ⟨rfl, rfl, rfl⟩ rfl, fun hchange => absurd rfl hchange⟩
  | gpsReenabled nowMs =>
    exact ⟨h.of_same rfl ⟨rfl, rfl, rfl⟩ rfl, fun hchange => absurd rfl hchange⟩

/-- The invariant holds after any calls. -/
theorem Inv.calls (hcount : 1 ≤ config.stateConfirmationCount) (as : List PolicyCall) :
    (as.foldl (Sampler.call math) (Sampler.init config)).Inv config :=
  as.foldlRecOn _ (.init hcount) fun _ h a _ => (h.call a).1

/-- A state taken over from a window of at least one fix is not `unknown`. -/
theorem Evidence.ne_unknown {s : Sampler} {length : ℕ} {state observed : MotionState}
    (h : s.Evidence config length state observed) (hlength : 0 < length) : observed ≠ .unknown := by
  obtain ⟨window, -, rfl, hall⟩ := h
  obtain ⟨fix, hfix⟩ := List.exists_mem_of_length_pos hlength
  exact (hall fix hfix).ne_unknown

end Sampler

/-! ## Changes on confirmed evidence -/

/-- After any calls, the next one changes the motion state only when the last
`stateConfirmationCount` accepted fixes have all observed the new state; a rejected fix leaves the
motion state, its candidate and both references as they were; and a known state stays known. -/
theorem motion_state_confirmed (math : MathFunctions) (config : SamplingConfig)
    (hcount : 1 ≤ config.stateConfirmationCount) (calls : List PolicyCall) (call : PolicyCall) :
    let s := calls.foldl (Sampler.call math) (Sampler.init config)
    let t := s.call math call
    (t.policy.state ≠ s.policy.state →
      t.Evidence config config.stateConfirmationCount.toNat s.policy.state t.policy.state) ∧
    (s.policy.state ≠ .unknown → t.policy.state ≠ .unknown) ∧
    ∀ nowMs fix, call = .fix nowMs fix →
      ((onFix math s.policy nowMs fix).1.fixAccepted = false ↔ Rejects math s.policy nowMs fix) ∧
      ((onFix math s.policy nowMs fix).1.fixAccepted = false →
        SameMotion s.policy t.policy ∧ SamePrevious s.policy t.policy ∧
          SameSent s.policy t.policy) := by
  intro s t
  have hinv : s.Inv config := Sampler.Inv.calls hcount calls
  have hchange : t.policy.state ≠ s.policy.state →
      t.Evidence config config.stateConfirmationCount.toNat s.policy.state t.policy.state :=
    (hinv.call call).2
  refine ⟨hchange, fun hknown => ?_, ?_⟩
  · by_cases hsame : t.policy.state = s.policy.state
    · exact hsame ▸ hknown
    · exact (hchange hsame).ne_unknown (UInt8.le_iff_toNat_le.mp hcount)
  · intro nowMs fix hfix
    have hrejects : (onFix math s.policy nowMs fix).1.fixAccepted = false ↔
        Rejects math s.policy nowMs fix := by
      rw [← Bool.not_eq_true, fixAccepted_iff, not_not]
    refine ⟨hrejects, fun hrejected => ?_⟩
    obtain ⟨-, -, hkept⟩ := onFix_of_rejects (hrejects.mp hrejected)
    subst hfix
    exact hkept

/-- The C functions at zero, where a device that stays at the origin calls them. -/
def mathAtRest : MathFunctions :=
  ⟨fun _ => .finite 0, fun _ => .finite 1, fun _ => .finite 0, fun _ => .finite 0⟩

def fastFix (ss : Int16) : LocationPayload :=
  locationPayloadFromFix (.finite 0) (.finite 0) (.finite 36) (.finite 100) 8 (.finite 5)
    2026 7 15 12 0 ss

/-- The third fast fix in a row puts the device in motion. -/
theorem motion_state_confirmed_third :
    let s := [PolicyCall.fix 1000 (fastFix 1), .fix 2000 (fastFix 2)].foldl
      (Sampler.call mathAtRest) (Sampler.init trackerSampling)
    let t := s.call mathAtRest (.fix 3000 (fastFix 3))
    s.policy.state = .unknown ∧ t.policy.state = .moving ∧
      t.Evidence trackerSampling 3 .unknown .moving := by
  intro s t
  have hstates : s.policy.state = .unknown ∧ t.policy.state = .moving := by decide +kernel
  have hevidence := (motion_state_confirmed mathAtRest trackerSampling (by decide)
    [.fix 1000 (fastFix 1), .fix 2000 (fastFix 2)] (.fix 3000 (fastFix 3))).1
      (by decide +kernel)
  refine ⟨hstates.1, hstates.2, ?_⟩
  rw [← hstates.1, ← hstates.2]
  exact hevidence

end SamplingPolicy

end OpenGps.Firmware
