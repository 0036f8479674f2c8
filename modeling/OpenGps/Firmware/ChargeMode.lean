import Mathlib.Data.Nat.Notation
import OpenGps.Lib.CallLog

/-!
# Charge mode

The policy that decides whether external power is present (`lib/charge_mode`). A voltage at or above
one threshold, or at or below the other, names a candidate; the candidate becomes the decision when
nothing has named the other one for the debounce time. Between the thresholds a voltage names
nothing.
-/

namespace OpenGps.Firmware

open OpenGps.Lib

/-! ## The policy -/

structure ChargeModePolicy where
  presentThresholdMv : UInt32
  absentThresholdMv : UInt32
  debounceMs : UInt32
  candidateSinceMs : UInt32 := 0
  stablePresent : Bool := false
  candidatePresent : Bool := false
  candidateInitialized : Bool := false
  initialized : Bool := false
  deriving DecidableEq

namespace ChargeModePolicy

def present (p : ChargeModePolicy) : Bool := p.stablePresent

/-- `thresholdCandidate`, if the voltage is not in the hysteresis gap. -/
def thresholdCandidate (p : ChargeModePolicy) (vbusMv : UInt16) : Option Bool :=
  if p.presentThresholdMv ≤ vbusMv.toUInt32 then some true
  else if vbusMv.toUInt32 ≤ p.absentThresholdMv then some false
  else none

/-- The part of `update` that is about the candidate. -/
def updateCandidate (p : ChargeModePolicy) (nowMs : UInt32) (vbusMv : UInt16) : ChargeModePolicy :=
  match p.thresholdCandidate vbusMv with
  | none => p
  | some candidate =>
    if p.candidateInitialized = false ∨ candidate ≠ p.candidatePresent then
      { p with
        candidatePresent := candidate
        candidateSinceMs := nowMs
        candidateInitialized := true }
    else p

def update (p : ChargeModePolicy) (vbusMv : UInt16) (nowMs : UInt32) : Bool × ChargeModePolicy :=
  let p := { p.updateCandidate nowMs vbusMv with initialized := true }
  let p :=
    if p.debounceMs ≤ nowMs - p.candidateSinceMs then { p with stablePresent := p.candidatePresent }
    else p
  (p.stablePresent, p)

end ChargeModePolicy

/-! ## Debouncing, in terms of the samples -/

abbrev VbusEntry : Type := Entry UInt16 Bool

/-- The voltage is on the side of the threshold that stands for the value. -/
def Crossed (presentMv absentMv : UInt32) (value : Bool) (vbusMv : UInt16) : Prop :=
  if value then presentMv ≤ vbusMv.toUInt32 else vbusMv.toUInt32 ≤ absentMv

/-- What `present` returns after the samples of a log. -/
def presentAfter (log : List VbusEntry) : Bool := (log.getLast?.map Entry.output).getD false

/-- The last samples of the log start with `sample`, which crossed the threshold of the value, and
none of them crossed the other. -/
def Stable (presentMv absentMv : UInt32) (value : Bool) (sample : VbusEntry)
    (log : List VbusEntry) : Prop :=
  ∃ earlier later, log = earlier ++ sample :: later ∧
    Crossed presentMv absentMv value sample.input ∧
    ∀ entry ∈ sample :: later, ¬ Crossed presentMv absentMv (!value) entry.input

/-- When a sample changes the decision, its value has been stable for the debounce time. -/
def Debounced (presentMv absentMv debounceMs : UInt32) (before : List VbusEntry)
    (entry : VbusEntry) : Prop :=
  entry.output ≠ presentAfter before → ∃ sample,
    Stable presentMv absentMv entry.output sample (before ++ [entry]) ∧
      sample.time + debounceMs.toNat ≤ entry.time

section
variable {presentMv absentMv debounceMs : UInt32} {log : List VbusEntry} {sample entry : VbusEntry}
  {value : Bool} {p : ChargeModePolicy} {s : Called ChargeModePolicy UInt16 Bool}

/-- No voltage is on both sides. -/
theorem Crossed.not_opposite {vbusMv : UInt16} (h : Crossed presentMv absentMv value vbusMv)
    (hgap : absentMv < presentMv) : ¬ Crossed presentMv absentMv (!value) vbusMv := by
  rw [UInt32.lt_iff_toNat_lt] at hgap
  cases value <;> simp [Crossed, UInt32.le_iff_toNat_le] at * <;> omega

theorem Stable.start (h : Crossed presentMv absentMv value entry.input)
    (hgap : absentMv < presentMv) : Stable presentMv absentMv value entry (log ++ [entry]) :=
  ⟨log, [], rfl, h, fun _ he => List.mem_singleton.mp he ▸ h.not_opposite hgap⟩

theorem Stable.concat (h : Stable presentMv absentMv value sample log)
    (hentry : ¬ Crossed presentMv absentMv (!value) entry.input) :
    Stable presentMv absentMv value sample (log ++ [entry]) := by
  obtain ⟨earlier, later, rfl, hcrossed, hlater⟩ := h
  refine ⟨earlier, later ++ [entry], by rw [List.append_assoc, List.cons_append], hcrossed, ?_⟩
  rw [← List.cons_append, List.forall_mem_append]
  exact ⟨hlater, fun _ he => List.mem_singleton.mp he ▸ hentry⟩

theorem presentAfter_concat : presentAfter (log ++ [entry]) = entry.output := by
  rw [presentAfter, List.getLast?_concat]
  rfl

namespace ChargeModePolicy

/-- The candidate, if there is one, has been stable since the time the policy remembers. -/
def Remembers (presentMv absentMv : UInt32) (p : ChargeModePolicy) (log : List VbusEntry)
    (clock : ℕ) : Prop :=
  (∃ sample, Stable presentMv absentMv p.candidatePresent sample log ∧
      p.candidateSinceMs = counter sample.time ∧ sample.time ≤ clock ∧
      p.candidateInitialized = true) ∨
    p.candidateInitialized = false ∧ p.candidatePresent = false ∧ p.stablePresent = false

/-- The candidate as the policy keeps it. -/
def candidate (p : ChargeModePolicy) : Bool × Bool × UInt32 :=
  (p.candidateInitialized, p.candidatePresent, p.candidateSinceMs)

def thresholds (p : ChargeModePolicy) : UInt32 × UInt32 × UInt32 :=
  (p.presentThresholdMv, p.absentThresholdMv, p.debounceMs)

theorem thresholdCandidate_cases (p : ChargeModePolicy) (vbusMv : UInt16) :
    (∃ value, p.thresholdCandidate vbusMv = some value ∧
        Crossed p.presentThresholdMv p.absentThresholdMv value vbusMv) ∨
      p.thresholdCandidate vbusMv = none ∧
        ∀ value, ¬ Crossed p.presentThresholdMv p.absentThresholdMv value vbusMv := by
  rw [thresholdCandidate]
  split
  next h => exact .inl ⟨true, rfl, h⟩
  next hpresent =>
    split
    next h => exact .inl ⟨false, rfl, h⟩
    next habsent =>
      refine .inr ⟨rfl, fun value => ?_⟩
      cases value
      · exact habsent
      · exact hpresent

/-- A sample in the hysteresis gap neither starts a candidate nor cancels one. -/
theorem candidate_update_gap {vbusMv : UInt16} (nowMs : UInt32)
    (hgap : ∀ value, ¬ Crossed p.presentThresholdMv p.absentThresholdMv value vbusMv) :
    (p.update vbusMv nowMs).2.candidate = p.candidate := by
  rcases p.thresholdCandidate_cases vbusMv with ⟨value, -, hcrossed⟩ | ⟨hnone, -⟩
  · exact absurd hcrossed (hgap value)
  · simp only [update, updateCandidate, hnone]
    split <;> rfl

/-- The other value replaces the candidate, its own value and the gap leave it alone. -/
theorem Remembers.updateCandidate {clock now : ℕ} (h : p.Remembers presentMv absentMv log clock)
    (hthresholds : p.thresholds = (presentMv, absentMv, debounceMs)) (hgap : absentMv < presentMv)
    (hclock : clock ≤ now) (vbusMv : UInt16) (output : Bool) :
    (p.updateCandidate (counter now) vbusMv).Remembers presentMv absentMv
      (log ++ [⟨now, vbusMv, output⟩]) now := by
  simp only [thresholds, Prod.mk.injEq] at hthresholds
  obtain ⟨hpresent, habsent, -⟩ := hthresholds
  rw [ChargeModePolicy.updateCandidate]
  rcases p.thresholdCandidate_cases vbusMv with ⟨value, hvalue, hcrossed⟩ | ⟨hnone, hneither⟩
  · rw [hpresent, habsent] at hcrossed
    rw [hvalue]
    dsimp only
    split
    next => exact .inl ⟨_, .start hcrossed hgap, rfl, Nat.le_refl _, rfl⟩
    next hsame =>
      simp only [not_or, Bool.not_eq_false, not_not] at hsame
      obtain ⟨sample, hstable, hsince, htime, hinit⟩ :=
        h.resolve_right fun hnot => absurd (hsame.1.symm.trans hnot.1) (by simp)
      refine .inl ⟨sample, hstable.concat ?_, hsince, Nat.le_trans htime hclock, hinit⟩
      rw [← hsame.2]
      exact hcrossed.not_opposite hgap
  · rw [hpresent, habsent] at hneither
    rw [hnone]
    refine h.imp_left fun ⟨sample, hstable, hsince, htime, hinit⟩ => ?_
    exact ⟨sample, hstable.concat (hneither _), hsince, Nat.le_trans htime hclock, hinit⟩

theorem thresholds_updateCandidate (p : ChargeModePolicy) (nowMs : UInt32) (vbusMv : UInt16) :
    (p.updateCandidate nowMs vbusMv).thresholds = p.thresholds ∧
      (p.updateCandidate nowMs vbusMv).stablePresent = p.stablePresent := by
  rw [updateCandidate]
  split
  next => exact ⟨rfl, rfl⟩
  next => split <;> exact ⟨rfl, rfl⟩

/-- The decision stays, or becomes the candidate when its time has come. -/
theorem update_spec (p : ChargeModePolicy) (vbusMv : UInt16) (nowMs : UInt32) :
    let q := p.updateCandidate nowMs vbusMv
    (p.update vbusMv nowMs).2.candidate = q.candidate ∧
      (p.update vbusMv nowMs).2.thresholds = p.thresholds ∧
      (p.update vbusMv nowMs).2.stablePresent = (p.update vbusMv nowMs).1 ∧
      ((p.update vbusMv nowMs).1 = p.stablePresent ∨
        p.debounceMs ≤ nowMs - q.candidateSinceMs ∧
          (p.update vbusMv nowMs).1 = q.candidatePresent) := by
  obtain ⟨hthresholds, hstable⟩ := p.thresholds_updateCandidate nowMs vbusMv
  have hdebounce : (p.updateCandidate nowMs vbusMv).debounceMs = p.debounceMs :=
    congrArg (·.2.2) hthresholds
  intro q
  rw [update]
  dsimp only
  split
  next h => exact ⟨rfl, hthresholds, rfl, .inr ⟨hdebounce ▸ h, rfl⟩⟩
  next => exact ⟨rfl, hthresholds, rfl, .inl hstable⟩

end ChargeModePolicy

open ChargeModePolicy

/-- What the policy remembers of its log. -/
structure Attentive (presentMv absentMv debounceMs : UInt32)
    (s : Called ChargeModePolicy UInt16 Bool) : Prop where
  thresholds : s.state.thresholds = (presentMv, absentMv, debounceMs)
  stable : s.state.stablePresent = presentAfter s.log
  candidate : s.state.Remembers presentMv absentMv s.log s.clock

/-- The step lemma: every change of the decision is debounced. -/
theorem Attentive.call (h : Attentive presentMv absentMv debounceMs s)
    (hgap : absentMv < presentMv) (vbusMv : UInt16) {now : ℕ} (hnow : s.clock ≤ now) :
    Debounced presentMv absentMv debounceMs s.log
        ⟨now, vbusMv, (s.state.update vbusMv (counter now)).1⟩ ∧
      Attentive presentMv absentMv debounceMs (s.after ChargeModePolicy.update vbusMv now) := by
  obtain ⟨hcandidate, hthresholds, hstable, hchange⟩ := s.state.update_spec vbusMv (counter now)
  have hkeeps := h.candidate.updateCandidate h.thresholds hgap hnow vbusMv
  have hold : (s.state.updateCandidate (counter now) vbusMv).stablePresent = _ :=
    (s.state.thresholds_updateCandidate (counter now) vbusMv).2
  have hdebounce : s.state.debounceMs = debounceMs := congrArg (·.2.2) h.thresholds
  rw [Debounced, ← h.stable, Called.after]
  simp only [ChargeModePolicy.candidate, Prod.mk.injEq] at hcandidate
  generalize s.state.updateCandidate (counter now) vbusMv = q at *
  generalize s.state.update vbusMv (counter now) = result at *
  obtain ⟨hinit, hpresent, hsince⟩ := hcandidate
  refine ⟨fun hne => ?_, hthresholds.trans h.thresholds, ?_, ?_⟩
  · obtain ⟨hdue, hvalue⟩ := hchange.resolve_left hne
    rcases hkeeps result.1 with ⟨sample, hsample, hsampled, htime, -⟩ | ⟨-, hfalse, hstill⟩
    · rw [← hvalue] at hsample
      -- The counter shows at most the time since the sample.
      rw [hdebounce, hsampled, UInt32.le_iff_toNat_le] at hdue
      have helapsed := Nat.le_trans hdue (counter_sub_le htime)
      exact ⟨sample, hsample, Nat.add_le_of_le_sub' htime helapsed⟩
    · exact absurd (hvalue.trans (hfalse.trans (hstill.symm.trans hold))) hne
  · rw [presentAfter_concat]
    exact hstable
  · rcases hkeeps result.1 with hsample | ⟨hnone, hfalse, hstill⟩
    · left
      rw [hpresent, hsince, hinit]
      exact hsample
    · refine .inr ⟨hinit.trans hnone, hpresent.trans hfalse, hstable.trans ?_⟩
      rcases hchange with hsame | ⟨-, hvalue⟩
      · exact hsame.trans (hold.symm.trans hstill)
      · exact hvalue.trans hfalse

end

/-- In any sequence of samples, `present` changes to a value only at a sample that comes the
debounce time or longer after one that crossed the threshold of the value, with no sample between
them that crossed the other. A sample in the hysteresis gap leaves the candidate as it was. -/
theorem debounce_sound (presentMv absentMv debounceMs : UInt32) (hgap : absentMv < presentMv)
    (start : ℕ) (calls : List (ℕ × UInt16)) (s : Called ChargeModePolicy UInt16 Bool)
    (hrun : Run (callStep ChargeModePolicy.update)
      ⟨start, { presentThresholdMv := presentMv, absentThresholdMv := absentMv, debounceMs }, []⟩
      calls s) :
    Explained (Debounced presentMv absentMv debounceMs) s.log ∧
      ∀ vbusMv nowMs, absentMv < vbusMv.toUInt32 → vbusMv.toUInt32 < presentMv →
        (s.state.update vbusMv nowMs).2.candidate = s.state.candidate := by
  obtain ⟨hattentive, hlog⟩ := Explained.of_run (Attentive presentMv absentMv debounceMs)
    (fun s vbusMv now h hnow _ => h.call hgap vbusMv hnow) hrun
    ⟨rfl, rfl, .inr ⟨rfl, rfl, rfl⟩⟩ .nil
  refine ⟨hlog, fun vbusMv nowMs habsent hpresent => ?_⟩
  refine ChargeModePolicy.candidate_update_gap nowMs fun value => ?_
  have hthresholds := hattentive.thresholds
  simp only [ChargeModePolicy.thresholds, Prod.mk.injEq] at hthresholds
  rw [hthresholds.1, hthresholds.2.1]
  cases value
  · exact UInt32.not_le.mpr habsent
  · exact UInt32.not_le.mpr hpresent

/-- The sequence of the project's own test: on at 2000, a sample in the gap, off at 5999. -/
theorem debounce_sound_test : ∃ s, Run (callStep ChargeModePolicy.update)
    ⟨0, { presentThresholdMv := 4500, absentThresholdMv := 4000, debounceMs := 2000 }, []⟩
    [(0, 5000), (1999, 5000), (1, 5000), (1000, 4300), (999, 3900), (1001, 3900), (999, 3900)] s ∧
      Explained (Debounced 4500 4000 2000) s.log := by
  have hcalls : ∀ call ∈ [(0, (5000 : UInt16)), (1999, 5000), (1, 5000), (1000, 4300), (999, 3900),
      (1001, 3900), (999, 3900)], call.1 < 2 ^ 31 := by decide
  obtain ⟨s, hrun⟩ := exists_called ChargeModePolicy.update hcalls ⟨0, _, []⟩
  exact ⟨s, hrun, (debounce_sound 4500 4000 2000 (by decide) _ _ s hrun).1⟩

end OpenGps.Firmware
