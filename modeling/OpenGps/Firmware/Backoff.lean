import Mathlib.Order.MinMax
import Mathlib.Order.Monotone.Basic
import OpenGps.Firmware.Connectivity
import OpenGps.Lib.CallLog

/-!
# Backoff of the recovery policy

What the decisions of the recovery policy (`lib/connectivity_policy`) mean in terms of the calls
made so far. The delay that a failure arms depends on how many failures were reported since the last
success; a tick acts at most once on a failure, not before its deadline, although the policy sees
the deadline and the time through a counter that wraps.
-/

namespace OpenGps.Firmware

open OpenGps.Lib

/-! ## Calls and their log -/

inductive PolicyCall where
  | event (event : ConnectivityEvent)
  | tick
  deriving DecidableEq

def ConnectivityPolicy.call (p : ConnectivityPolicy) (call : PolicyCall) (now : UInt32) :
    ConnectivityDecision × ConnectivityPolicy :=
  match call with
  | .event e => p.event e now
  | .tick => p.tick now

abbrev PolicyEntry : Type := Entry PolicyCall ConnectivityDecision

def countFailure (failures : ℕ) (entry : PolicyEntry) : ℕ :=
  match entry.input with
  | .event .uploadSuccess | .event .pdpOk => 0
  | .event .transportFailure => failures + 1
  | .event .registrationOk | .tick => failures

/-- The failures reported since the last success. -/
def failuresSince (log : List PolicyEntry) : ℕ := log.foldl countFailure 0

/-- The delay of the `k`-th failure in a row, in milliseconds. -/
def backoffDelay (base max : UInt32) (k : ℕ) : ℕ := min (base.toNat * 2 ^ min (k - 1) 6) max.toNat

/-- Neither a failure nor a success is reported, and no recovery is decided. -/
def Quiet (entry : PolicyEntry) : Prop :=
  match entry.input with
  | .event .registrationOk => True
  | .event _ => False
  | .tick => entry.output.action = .none

/-- Since the entry `failure` nothing has happened to its backoff. -/
def Pending (log earlier : List PolicyEntry) (failure : PolicyEntry) : Prop :=
  ∃ quiet, log = earlier ++ failure :: quiet ∧ failure.input = .event .transportFailure ∧
    ∀ q ∈ quiet, Quiet q

/-- What an entry of the log has to do with the ones before it. -/
structure Disciplined (base max : UInt32) (limit : UInt8) (before : List PolicyEntry)
    (entry : PolicyEntry) : Prop where
  armed : entry.input = .event .transportFailure → failuresSince before + 1 ≤ limit.toNat →
    entry.output =
      ⟨.check, counter (entry.time + backoffDelay base max (failuresSince before + 1))⟩
  recovers : entry.input = .tick → entry.output.action ≠ .none →
    (∃ earlier failure, Pending before earlier failure ∧
      failure.time + backoffDelay base max (failuresSince earlier + 1) ≤ entry.time) ∧
    entry.output.action = if 3 ≤ failuresSince before then .restartModem else .connectPdp
  /-- Half the range of the counter after its deadline, a backoff would look early again. -/
  acts : entry.input = .tick → ∀ earlier failure, Pending before earlier failure →
    failuresSince earlier + 1 ≤ limit.toNat →
    failure.time + backoffDelay base max (failuresSince earlier + 1) ≤ entry.time →
    entry.time < failure.time + backoffDelay base max (failuresSince earlier + 1) + 2 ^ 31 →
    entry.output.action = if 3 ≤ failuresSince before then .restartModem else .connectPdp

theorem backoffDelay_mono (base max : UInt32) : Monotone (backoffDelay base max) := by
  intro j k hjk
  have hpow : 2 ^ min (j - 1) 6 ≤ 2 ^ min (k - 1) 6 := Nat.pow_le_pow_right (by decide) (by omega)
  exact min_le_min (Nat.mul_le_mul_left _ hpow) (le_refl _)

theorem backoffDelay_one (base max : UInt32) :
    backoffDelay base max 1 = min base.toNat max.toNat := by
  simp [backoffDelay]

theorem failuresSince_concat (log : List PolicyEntry) (entry : PolicyEntry) :
    failuresSince (log ++ [entry]) = countFailure (failuresSince log) entry := by
  rw [failuresSince, List.foldl_append]
  rfl

/-! ## What a failure arms -/

namespace ConnectivityPolicy

variable {p : ConnectivityPolicy} {k : ℕ}

theorem toNat_failures_succ (hk : p.failures.toNat = min k 255) :
    (if p.failures < 255 then p.failures + 1 else p.failures).toNat = min (k + 1) 255 := by
  have h255 : (255 : UInt8).toNat = 255 := rfl
  split
  next h =>
    rw [UInt8.lt_iff_toNat_lt, hk, h255] at h
    rw [UInt8.toNat_add, hk, UInt8.toNat_one]
    omega
  next h =>
    rw [UInt8.lt_iff_toNat_lt, hk, h255] at h
    omega

theorem toNat_shift {failures : UInt8} (hk : failures.toNat = min (k + 1) 255) :
    (if 6 < failures then 6 else failures - 1).toNat = min k 6 := by
  have h6 : (6 : UInt8).toNat = 6 := rfl
  split
  next h =>
    rw [UInt8.lt_iff_toNat_lt, hk, h6] at h
    omega
  next h =>
    rw [UInt8.lt_iff_toNat_lt, hk, h6] at h
    rw [UInt8.toNat_sub, hk, UInt8.toNat_one]
    omega

/-- No bit of the delay is lost in the shift. -/
theorem toNat_delay (hbase : p.base.toNat * 64 < 2 ^ 32) {shift : UInt8}
    (hshift : shift.toNat = min k 6) :
    (if p.max < p.base <<< shift.toUInt32 then p.max else p.base <<< shift.toUInt32).toNat =
      backoffDelay p.base p.max (k + 1) := by
  have hdelay : (p.base <<< shift.toUInt32).toNat = p.base.toNat * 2 ^ min k 6 := by
    have hpow : 2 ^ min k 6 ≤ 64 := Nat.pow_le_pow_right (n := 2) (by decide) (Nat.min_le_right k 6)
    have hle : p.base.toNat * 2 ^ min k 6 ≤ p.base.toNat * 64 := Nat.mul_le_mul_left _ hpow
    have hlt : min k 6 < 32 := by omega
    rw [UInt32.toNat_shiftLeft, UInt8.toNat_toUInt32, hshift, Nat.mod_eq_of_lt hlt,
      Nat.shiftLeft_eq, Nat.mod_eq_of_lt (by omega)]
  rw [backoffDelay, Nat.add_sub_cancel, ← hdelay]
  split
  next h =>
    rw [UInt32.lt_iff_toNat_lt] at h
    omega
  next h =>
    rw [UInt32.lt_iff_toNat_lt] at h
    omega

/-- A failure arms the delay of its number, or exceeds the limit. -/
theorem fail_spec (hbase : p.base.toNat * 64 < 2 ^ 32) (hk : p.failures.toNat = min k 255)
    (now : ℕ) :
    (p.fail (counter now)).2.failures.toNat = min (k + 1) 255 ∧
      (p.limit.toNat < min (k + 1) 255 ∧ (p.fail (counter now)).2.state = .failed ∨
        let deadline := counter (now + backoffDelay p.base p.max (k + 1))
        (p.fail (counter now)).1 = ⟨.check, deadline⟩ ∧
          (p.fail (counter now)).2.state = .backoff ∧
          (p.fail (counter now)).2.deadline = deadline) := by
  have hsucc := toNat_failures_succ hk
  rw [fail]
  generalize (if p.failures < 255 then p.failures + 1 else p.failures) = failures at *
  dsimp only
  split
  next h => exact ⟨hsucc, .inl ⟨hsucc ▸ UInt8.lt_iff_toNat_lt.mp h, rfl⟩⟩
  next h =>
    rw [← toNat_delay hbase (toNat_shift hsucc), ← counter_add]
    exact ⟨hsucc, .inr ⟨rfl, rfl, rfl⟩⟩

def config (p : ConnectivityPolicy) : UInt32 × UInt32 × UInt8 := (p.base, p.max, p.limit)

theorem config_fail (p : ConnectivityPolicy) (now : UInt32) : (p.fail now).2.config = p.config := by
  rw [fail]
  generalize (if p.failures < 255 then p.failures + 1 else p.failures) = failures
  dsimp only
  split <;> rfl

theorem config_call (p : ConnectivityPolicy) (call : PolicyCall) (now : UInt32) :
    (p.call call now).2.config = p.config := by
  cases call with
  | tick =>
    rcases p.tick_cases now with h | ⟨-, action, state, -, h⟩
    · rw [call, h]
    · rw [call, h]
      rfl
  | event e =>
    cases e with
    | registrationOk => rfl
    | pdpOk => rfl
    | uploadSuccess => rfl
    | transportFailure => exact p.config_fail now

/-- A tick that decides on a recovery is due, and the count of the failures selects the recovery. -/
theorem tick_spec (p : ConnectivityPolicy) (now : UInt32) :
    (p.tick now).1.action = .none ∧ (p.tick now).2 = p ∧
        (p.state = .backoff → due now p.deadline = false) ∨
      p.state = .backoff ∧ due now p.deadline = true ∧
        (p.tick now).1.action = (if 3 ≤ p.failures.toNat then .restartModem else .connectPdp) ∧
        (p.tick now).2.state ≠ .backoff ∧ (p.tick now).2.failures = p.failures := by
  rw [tick]
  split
  next h => exact .inl ⟨rfl, rfl, fun hstate => h.resolve_left (not_not.mpr hstate)⟩
  next h =>
    simp only [not_or, not_not, Bool.not_eq_false] at h
    refine .inr ⟨h.1, h.2, ?_, ?_, rfl⟩
    · simp [UInt8.le_iff_toNat_le]
    · dsimp only
      split <;> simp

end ConnectivityPolicy

/-! ## The backoff over a whole log -/

section
variable {base max : UInt32} {limit : UInt8}
  {s t : Called ConnectivityPolicy PolicyCall ConnectivityDecision}

/-- What the policy remembers of its log. -/
structure Tracks (base max : UInt32) (limit : UInt8)
    (s : Called ConnectivityPolicy PolicyCall ConnectivityDecision) : Prop where
  config : s.state.config = (base, max, limit)
  failures : s.state.failures.toNat = min (failuresSince s.log) 255
  backoff : s.state.state = .backoff → ∃ earlier failure, Pending s.log earlier failure ∧
    failure.time ≤ s.clock ∧ s.state.deadline =
      counter (failure.time + backoffDelay base max (failuresSince earlier + 1))
  pending : ∀ earlier failure, Pending s.log earlier failure →
    failuresSince earlier + 1 ≤ limit.toNat → s.state.state = .backoff ∧ s.state.deadline =
      counter (failure.time + backoffDelay base max (failuresSince earlier + 1))

theorem Pending.concat {log earlier : List PolicyEntry} {failure entry : PolicyEntry}
    (h : Pending log earlier failure) (hquiet : Quiet entry) :
    Pending (log ++ [entry]) earlier failure := by
  obtain ⟨quiet, rfl, hinput, hall⟩ := h
  refine ⟨quiet ++ [entry], by rw [List.append_assoc, List.cons_append], hinput, ?_⟩
  rw [List.forall_mem_append]
  exact ⟨hall, fun q hq => List.mem_singleton.mp hq ▸ hquiet⟩

/-- The last failure of a log is its last entry, or comes before a last entry that is quiet. -/
theorem Pending.of_concat {log earlier : List PolicyEntry} {failure entry : PolicyEntry}
    (h : Pending (log ++ [entry]) earlier failure) :
    earlier = log ∧ failure = entry ∧ entry.input = .event .transportFailure ∨
      Pending log earlier failure ∧ Quiet entry := by
  obtain ⟨quiet, heq, hinput, hall⟩ := h
  obtain rfl | ⟨init, last, rfl⟩ := List.eq_nil_or_concat quiet
  · obtain ⟨rfl, hlast⟩ := List.append_inj' heq rfl
    obtain rfl := List.singleton_inj.mp hlast
    exact .inl ⟨rfl, rfl, hinput⟩
  · rw [List.concat_eq_append, ← List.cons_append, ← List.append_assoc] at heq
    obtain ⟨rfl, hlast⟩ := List.append_inj' heq rfl
    obtain rfl := List.singleton_inj.mp hlast
    rw [List.concat_eq_append] at hall
    exact .inr ⟨⟨init, rfl, hinput, fun q hq => hall q (List.mem_append_left _ hq)⟩,
      hall _ (List.mem_append_right _ List.mem_cons_self)⟩

theorem not_pending_nil {earlier : List PolicyEntry} {failure : PolicyEntry} :
    ¬ Pending [] earlier failure := by
  rintro ⟨quiet, heq, -⟩
  simp at heq

/-- A failure is not quiet. -/
theorem Quiet.ne_failure {entry : PolicyEntry} (h : Quiet entry) :
    entry.input ≠ .event .transportFailure := by
  intro hinput
  rw [Quiet, hinput] at h
  exact h

/-- The entry of a call is in order, and the policy keeps track of the log. -/
def InOrder (base max : UInt32) (limit : UInt8)
    (s : Called ConnectivityPolicy PolicyCall ConnectivityDecision) (call : PolicyCall) (now : ℕ) :
    Prop :=
  Disciplined base max limit s.log ⟨now, call, (s.state.call call (counter now)).1⟩ ∧
    Tracks base max limit (s.after ConnectivityPolicy.call call now)

namespace Tracks

theorem success (h : Tracks base max limit s) (now : ℕ) {e : ConnectivityEvent}
    (he : e = .uploadSuccess ∨ e = .pdpOk) : InOrder base max limit s (.event e) now := by
  have hpolicy : s.state.call (.event e) (counter now) =
      (⟨.none, counter now⟩, s.state.succeed (counter now)) := by
    rcases he with rfl | rfl <;> rfl
  have hcount : countFailure (failuresSince s.log) ⟨now, .event e, ⟨.none, counter now⟩⟩ = 0 := by
    rcases he with rfl | rfl <;> rfl
  rw [InOrder, Called.after, hpolicy]
  have hloud : ∀ output, ¬ Quiet ⟨now, .event e, output⟩ := by
    rcases he with rfl | rfl <;> exact fun _ h => h
  refine ⟨⟨fun hfail => ?_, fun htick => ?_, fun htick => ?_⟩,
    ⟨h.config, ?_, fun hstate => ?_, fun earlier failure hpending => ?_⟩⟩
  · rcases he with rfl | rfl <;> cases hfail
  · cases htick
  · cases htick
  · rw [failuresSince_concat, hcount]
    rfl
  · cases hstate
  · rcases hpending.of_concat with ⟨-, -, hinput⟩ | ⟨-, hquiet⟩
    · rcases he with rfl | rfl <;> cases hinput
    · exact absurd hquiet (hloud _)

/-- A call after which nothing has changed. -/
theorem quiet (h : Tracks base max limit s) {now : ℕ} (hnow : s.clock ≤ now)
    {entry : PolicyEntry} (hquiet : Quiet entry)
    (hcount : countFailure (failuresSince s.log) entry = failuresSince s.log)
    {p : ConnectivityPolicy} (hp : p = s.state) :
    Tracks base max limit ⟨now, p, s.log ++ [entry]⟩ where
  config := hp ▸ h.config
  failures := by rw [failuresSince_concat, hcount, hp, h.failures]
  backoff hstate := by
    subst hp
    obtain ⟨earlier, failure, hpending, htime, hdeadline⟩ := h.backoff hstate
    exact ⟨earlier, failure, hpending.concat hquiet, htime.trans hnow, hdeadline⟩
  pending earlier failure hpending hlimit := by
    subst hp
    rcases hpending.of_concat with ⟨-, -, hinput⟩ | ⟨hpending, -⟩
    · exact absurd hinput hquiet.ne_failure
    · exact h.pending earlier failure hpending hlimit

theorem registration (h : Tracks base max limit s) {now : ℕ} (hnow : s.clock ≤ now) :
    InOrder base max limit s (.event .registrationOk) now := by
  refine ⟨⟨(nomatch ·), (nomatch ·), (nomatch ·)⟩, h.quiet hnow ?_ rfl rfl⟩
  exact trivial

theorem failure (h : Tracks base max limit s) (hbase : base.toNat * 64 < 2 ^ 32) (now : ℕ) :
    InOrder base max limit s (.event .transportFailure) now := by
  have hconfig : (s.state.base, s.state.max, s.state.limit) = _ := h.config
  simp only [Prod.mk.injEq] at hconfig
  obtain ⟨hb, hm, hl⟩ := hconfig
  obtain ⟨hfailures, hspec⟩ := s.state.fail_spec (hb ▸ hbase) h.failures now
  have hcount := failuresSince_concat s.log ⟨now, .event .transportFailure,
    (s.state.fail (counter now)).1⟩
  rw [hb, hm, hl] at hspec
  refine ⟨⟨fun _ hlimit => ?_, (nomatch ·), (nomatch ·)⟩,
    ⟨?_, ?_, fun hstate => ?_, fun earlier failure hpending hlimit => ?_⟩⟩
  · rcases hspec with ⟨hover, -⟩ | ⟨hdecision, -⟩
    · omega
    · exact hdecision
  · exact (s.state.config_fail _).trans h.config
  · exact hcount ▸ hfailures
  · rcases hspec with ⟨-, hfailed⟩ | ⟨-, -, hdeadline⟩
    · exact absurd (hfailed.symm.trans hstate) (by simp)
    · exact ⟨s.log, _, ⟨[], rfl, rfl, by simp⟩, le_refl _, hdeadline⟩
  · rcases hpending.of_concat with ⟨rfl, rfl, -⟩ | ⟨-, hquiet⟩
    · rcases hspec with ⟨hover, -⟩ | ⟨-, hbackoff⟩
      · omega
      · exact hbackoff
    · exact absurd rfl hquiet.ne_failure

theorem tick (h : Tracks base max limit s) (hmax : max.toNat < 2 ^ 31) {now : ℕ}
    (hnow : s.clock ≤ now) : InOrder base max limit s .tick now := by
  rcases s.state.tick_spec (counter now) with
    ⟨haction, hsame, hearly⟩ | ⟨hstate, hdue, haction, hleaves, hfailures⟩
  · refine ⟨⟨(nomatch ·), fun _ hne => absurd haction hne,
      fun _ earlier failure hpending hlimit hlate hsoon => ?_⟩, h.quiet hnow ?_ rfl hsame⟩
    · dsimp only at hlate hsoon
      obtain ⟨hbackoff, hdeadline⟩ := h.pending earlier failure hpending hlimit
      have hdue := hearly hbackoff
      rw [hdeadline, due, decide_eq_false_iff_not, counter_sub_nonneg_iff (by omega) hsoon] at hdue
      exact absurd hlate hdue
    · exact haction
  · obtain ⟨earlier, failure, hpending, htime, hdeadline⟩ := h.backoff hstate
    have hlate : failure.time + backoffDelay base max (failuresSince earlier + 1) ≤ now := by
      -- A deadline still to come is less than half of the counter's range ahead.
      have hdelay : backoffDelay base max (failuresSince earlier + 1) ≤ max.toNat :=
        Nat.min_le_right ..
      by_contra hearly
      rw [hdeadline, due, decide_eq_true_eq, counter_sub_nonneg_iff (by omega) (by omega)] at hdue
      exact hearly hdue
    have hrecovery : (s.state.call .tick (counter now)).1.action =
        if 3 ≤ failuresSince s.log then .restartModem else .connectPdp := by
      refine haction.trans ?_
      rw [h.failures]
      congr 1
      rw [eq_iff_iff]
      omega
    refine ⟨⟨(nomatch ·), fun _ _ => ⟨⟨earlier, failure, hpending, hlate⟩, hrecovery⟩,
      fun _ _ _ _ _ _ _ => hrecovery⟩, ⟨(s.state.config_call .tick _).trans h.config, ?_,
        fun hback => absurd hback hleaves, fun _ _ hpending' => ?_⟩⟩
    · rw [Called.after, failuresSince_concat]
      exact (congrArg UInt8.toNat hfailures).trans h.failures
    · rcases hpending'.of_concat with ⟨-, -, hinput⟩ | ⟨-, hquiet⟩
      · cases hinput
      · exact absurd (hrecovery.symm.trans hquiet) (by split <;> simp)

/-- The step lemma: every call is in order. -/
theorem call (h : Tracks base max limit s) (hbase : base.toNat * 64 < 2 ^ 32)
    (hmax : max.toNat < 2 ^ 31) (call : PolicyCall) {now : ℕ} (hnow : s.clock ≤ now) :
    InOrder base max limit s call now := by
  cases call with
  | tick => exact h.tick hmax hnow
  | event e =>
    cases e with
    | registrationOk => exact h.registration hnow
    | pdpOk => exact h.success now (.inr rfl)
    | uploadSuccess => exact h.success now (.inl rfl)
    | transportFailure => exact h.failure hbase now

end Tracks

end

/-- In any sequence of calls, the delay of the `k`-th failure in a row doubles from the base with
the first six and stays within the maximum, and a tick decides on a recovery at most once after a
failure, at its deadline or later: on a restart of the modem exactly from the third failure on. The
first tick at the deadline or later does decide on it. -/
theorem backoff_discipline (base max : UInt32) (limit : UInt8)
    (hbase : base.toNat * 64 < 2 ^ 32) (hmax : max.toNat < 2 ^ 31) (start : ℕ)
    (calls : List (ℕ × PolicyCall)) (s : Called ConnectivityPolicy PolicyCall ConnectivityDecision)
    (hrun : Run (callStep ConnectivityPolicy.call) ⟨start, .init base max limit, []⟩ calls s) :
    Explained (Disciplined base max limit) s.log ∧
      Monotone (backoffDelay base max) ∧ backoffDelay base max 1 = min base.toNat max.toNat := by
  have hlog : Tracks base max limit s ∧ Explained (Disciplined base max limit) s.log :=
    Explained.of_run (Tracks base max limit)
      (fun s call now h hnow _ => h.call hbase hmax call hnow) hrun
      ⟨rfl, rfl, (nomatch ·), fun _ _ hpending => absurd hpending not_pending_nil⟩
      .nil
  exact ⟨hlog.2, backoffDelay_mono base max, backoffDelay_one base max⟩

/-- A first failure just before the counter wraps, and a tick a hundred milliseconds later. -/
theorem backoff_discipline_wrap : ∃ s, Run (callStep ConnectivityPolicy.call)
    ⟨2 ^ 32 - 16, .init 100 800 4, []⟩ [(0, .event .transportFailure), (100, .tick)] s ∧
      Explained (Disciplined 100 800 4) s.log := by
  have hcalls : ∀ call ∈ [(0, PolicyCall.event .transportFailure), (100, .tick)],
      call.1 < 2 ^ 31 := by decide
  obtain ⟨s, hrun⟩ := exists_called ConnectivityPolicy.call hcalls ⟨2 ^ 32 - 16, _, []⟩
  exact ⟨s, hrun, (backoff_discipline 100 800 4 (by decide) (by decide) _ _ s hrun).1⟩

end OpenGps.Firmware
