import Mathlib.Algebra.Order.Ring.Int
import Mathlib.Data.Int.Notation
import Mathlib.Data.List.Basic
import Mathlib.Data.Nat.Notation
import OpenGps.Lib.Run

/-!
# Logs of a timed component

A component is called from time to time. It sees the time through a counter of 32 bits, and each
call comes less than half of the counter's range after the one before. The log of its calls, with
their true times, is what a specification of the component speaks about: `Explained P` says that
every entry is right after the entries before it.
-/

namespace OpenGps.Lib

/-! ## A counter of 32 bits -/

/-- What the counter shows at a time. -/
def counter (time : ℕ) : UInt32 := UInt32.ofNat time

theorem toNat_counter_sub (a b : ℕ) :
    (counter b - counter a).toNat = (2 ^ 32 - a % 2 ^ 32 + b % 2 ^ 32) % 2 ^ 32 := by
  rw [UInt32.toNat_sub, counter, counter, UInt32.toNat_ofNat', UInt32.toNat_ofNat']

theorem counter_add (a : ℕ) (d : UInt32) : counter a + d = counter (a + d.toNat) := by
  rw [counter, counter, UInt32.ofNat_add, UInt32.ofNat_toNat]

/-- A difference that the counter shows is never more than the time that went by. -/
theorem counter_sub_le {a b : ℕ} (h : a ≤ b) : (counter b - counter a).toNat ≤ b - a := by
  rw [toNat_counter_sub]
  omega

/-- A difference grows with the time until it wraps. -/
theorem toNat_counter_sub_add {a b : ℕ} (h : a ≤ b) (c : UInt32) :
    (counter b - c).toNat = ((counter a - c).toNat + (b - a)) % 2 ^ 32 := by
  have hc := c.toNat_lt
  rw [UInt32.toNat_sub, UInt32.toNat_sub, counter, counter, UInt32.toNat_ofNat',
    UInt32.toNat_ofNat']
  omega

/-- Within half of its range, the sign of the counter's difference is the order of the times. -/
theorem counter_sub_nonneg_iff {a b : ℕ} (hab : a < b + 2 ^ 31) (hba : b < a + 2 ^ 31) :
    0 ≤ (counter b - counter a).toInt32 ↔ a ≤ b := by
  have hsigned : (counter b - counter a).toInt32.toInt =
      if 2 * (counter b - counter a).toNat < 2 ^ 32 then ((counter b - counter a).toNat : ℤ)
      else (counter b - counter a).toNat - 2 ^ 32 := BitVec.toInt_eq_toNat_cond _
  rw [Int32.le_iff_toInt_le, Int32.toInt_zero, hsigned, toNat_counter_sub]
  split <;> omega

/-! ## The log -/

structure Entry (ι ο : Type) where
  time : ℕ
  input : ι
  output : ο

/-- The component after some calls, the time of the last of them and the log. -/
structure Called (σ ι ο : Type) where
  clock : ℕ
  state : σ
  log : List (Entry ι ο)

variable {σ ι ο : Type}

/-- The component and the log after a call at `now`. -/
def Called.after (f : σ → ι → UInt32 → ο × σ) (s : Called σ ι ο) (input : ι) (now : ℕ) :
    Called σ ι ο :=
  let result := f s.state input (counter now)
  ⟨now, result.2, s.log ++ [⟨now, input, result.1⟩]⟩

/-- A call with an input, some time after the last one. -/
def callStep (f : σ → ι → UInt32 → ο × σ) (s : Called σ ι ο) (call : ℕ × ι) :
    Option (Called σ ι ο) :=
  if call.1 < 2 ^ 31 then some (s.after f call.2 (s.clock + call.1)) else none

/-- Calls that are close enough to each other can be made of any component. -/
theorem exists_called (f : σ → ι → UInt32 → ο × σ) {calls : List (ℕ × ι)}
    (hcalls : ∀ call ∈ calls, call.1 < 2 ^ 31) (s : Called σ ι ο) :
    ∃ t, Run (callStep f) s calls t := by
  induction calls generalizing s with
  | nil => exact ⟨s, Run.nil_iff.mpr rfl⟩
  | cons call calls ih =>
    rw [List.forall_mem_cons] at hcalls
    obtain ⟨t, hrun⟩ := ih hcalls.2 (s.after f call.2 (s.clock + call.1))
    exact ⟨t, Run.cons_iff.mpr ⟨_, if_pos hcalls.1, hrun⟩⟩

/-- Every entry of the log stands in the relation to the entries before it. -/
def Explained {ε : Type} (P : List ε → ε → Prop) (log : List ε) : Prop :=
  ∀ before entry after, log = before ++ entry :: after → P before entry

namespace Explained

variable {ε : Type} {P : List ε → ε → Prop} {log : List ε} {entry : ε}

theorem nil : Explained P [] := by
  intro before entry after h
  simp at h

theorem concat (h : Explained P log) (hlast : P log entry) : Explained P (log ++ [entry]) := by
  intro before e after heq
  rcases List.eq_nil_or_concat after with rfl | ⟨after, e', rfl⟩
  · obtain ⟨rfl, hentry⟩ := List.append_inj' heq rfl
    obtain rfl := List.singleton_inj.mp hentry
    exact hlast
  · rw [List.concat_eq_append, ← List.cons_append, ← List.append_assoc] at heq
    exact h before e after (List.append_inj' heq rfl).1

end Explained

/-- What a component remembers of its log explains the log, when every call explains its entry and
keeps what is remembered. -/
theorem Explained.of_run {f : σ → ι → UInt32 → ο × σ} {P : List (Entry ι ο) → Entry ι ο → Prop}
    (Tracks : Called σ ι ο → Prop)
    (hcall : ∀ s input now, Tracks s → s.clock ≤ now → now < s.clock + 2 ^ 31 →
      P s.log ⟨now, input, (f s.state input (counter now)).1⟩ ∧ Tracks (s.after f input now))
    {s t : Called σ ι ο} {calls : List (ℕ × ι)} (hrun : Run (callStep f) s calls t)
    (htracks : Tracks s) (hlog : Explained P s.log) : Tracks t ∧ Explained P t.log := by
  have hstep : ∀ s call t, Tracks s ∧ Explained P s.log → callStep f s call = some t →
      Tracks t ∧ Explained P t.log := by
    intro s call t ⟨hs, hlog⟩ hstep
    rw [callStep, Option.ite_none_right_eq_some] at hstep
    obtain ⟨hgap, heq⟩ := hstep
    obtain ⟨hentry, hkeeps⟩ := hcall s call.2 (s.clock + call.1) hs (Nat.le_add_right ..)
      (Nat.add_lt_add_left hgap _)
    obtain rfl := Option.some.inj heq
    exact ⟨hkeeps, hlog.concat hentry⟩
  exact hrun.invariant hstep ⟨htracks, hlog⟩

end OpenGps.Lib
