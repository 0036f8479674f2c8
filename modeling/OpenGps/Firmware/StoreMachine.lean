import OpenGps.Firmware.StoreRules

/-!
# Runs of the store

The store as a transition system: any operation with any script of faults, and the loss of power
between operations. When the power is lost the object is gone and the flash stays; the next boot
starts from a zeroed object.
-/

namespace OpenGps.Firmware

open OpenGps.Lib OpenGps.Lib.CrashIo

inductive StoreOp where
  | begin (capacity : UInt32)
  | push (record : FixRecord)
  | peek (max : Nat)
  | ackFront (count : Nat)
  deriving DecidableEq

/-- What an operation reports: whether it succeeded, and, if it committed a fresh meta on the way,
what that commit reported. -/
structure StoreReport where
  ok : Bool
  resetReport : Option Bool
  store : PersistentFixStore
  deriving DecidableEq

def StoreOp.run (s : PersistentFixStore) : StoreOp → StoreIo StoreReport
  | .begin capacity => do
    let r ← s.begin capacity
    return ⟨r.ok, r.resetReport, r.store⟩
  | .push record => do
    let r ← s.push record
    return ⟨r.1, none, r.2.1⟩
  | .peek max => do
    let r ← s.peek max
    return ⟨r.out ≠ [], r.resetReport, r.store⟩
  | .ackFront count => do
    let r ← s.ackFront count
    return ⟨r.1 ≠ 0, none, r.2⟩

structure StoreState where
  store : PersistentFixStore
  files : StorePath → Option (List UInt8)
  written : StorePath → Nat

/-- The disk an operation runs on. -/
def StoreState.disk (st : StoreState) (faults : List Fault) : Disk StorePath :=
  ⟨st.files, faults, st.written⟩

/-- A device that has never run, on flash that holds no queue. -/
structure StoreState.Blank (st : StoreState) : Prop where
  store : st.store = .init
  slots : ∀ slot, slotMeta st.files slot = none
  commits : commits (st.disk []) = 0

/-- A device out of the box: no file exists. -/
def newDevice : StoreState := ⟨.init, fun _ => none, fun _ => 0⟩

theorem newDevice_blank : newDevice.Blank :=
  ⟨rfl, fun slot => by cases slot <;> decide, rfl⟩

inductive StoreAction where
  | op (op : StoreOp) (faults : List Fault)
  | powerLoss
  deriving DecidableEq

def storeStep (st : StoreState) : StoreAction → Option StoreState
  | .op op faults =>
    match op.run st.store (st.disk faults) with
    | (some r, d) => some ⟨r.store, d.files, d.written⟩
    | (none, d) => some ⟨.init, d.files, d.written⟩
  | .powerLoss => some { st with store := .init }

/-- The operation takes a branch that commits a fresh meta, and the commit succeeds or the store goes
on with the fresh meta all the same. -/
def StartsFresh (st : StoreState) (op : StoreOp) (faults : List Fault) : Prop :=
  ∃ r d, op.run st.store (st.disk faults) = (some r, d) ∧
    (r.resetReport = some true ∨ r.resetReport = some false ∧ r.store.readyState)

/-! ## Commits are only counted up -/

section
variable {s : PersistentFixStore} {d e : Disk StorePath}

theorem wp_commitMeta_le (h : commits d ≤ commits e) :
    wp s.commitMeta (fun _ d' => commits d ≤ commits d') (fun d' => commits d ≤ commits d') e := by
  have hpub : ∀ d', Published s.nextSlot s.nextMeta e d' → commits d ≤ commits d' := by
    intro d' hpub
    rw [hpub.commits]
    omega
  have htorn : ∀ d', Torn s.nextSlot e d' → commits d ≤ commits d' := by
    intro d' htorn
    rw [htorn.commits]
    exact h
  apply PersistentFixStore.wp_commitMeta
  · intro _; exact h
  · intro d' hp _; exact hpub d' hp
  · intro _ _ d' ht _; exact htorn d' ht
  · intro _ _ d' ht; exact htorn d' ht
  · intro _ _ d' hp; exact hpub d' hp

theorem wp_finish_le {r : PersistentFixStore.BeginResult} (h : commits d ≤ commits e) :
    wp r.finish (fun _ d' => commits d ≤ commits d')
      (fun d' => commits d ≤ commits d') e := by
  have hslots : ∀ e', SameSlots e e' → commits d ≤ commits e' := by
    intro e' hsame
    rw [hsame.commits]
    exact h
  apply PersistentFixStore.wp_finish
  · intro _; exact h
  · intro _ e₁ hsame _ _ _
    have h₁ := hslots e₁ hsame
    apply PersistentFixStore.wp_probeFront
    · intro _; exact h₁
    · intro _ _ _ _; exact h₁
    · intro _ _ es _
      exact wp_mono (wp_commitMeta_le (e := ⟨e₁.files, es, e₁.written⟩) h₁)
        (fun _ _ h _ _ => h) (fun _ h => h)
    · rfl
    · intro _ _ _; exact h₁
  · intro _ _ _ e₁ hsame _; exact hslots e₁ hsame
  · intro _ _ e₁ hsame _; exact hslots e₁ hsame

theorem wp_begin_le {capacity : UInt32} :
    wp (s.begin capacity) (fun _ d' => commits d ≤ commits d') (fun d' => commits d ≤ commits d')
      d := by
  apply PersistentFixStore.wp_begin
  · intro _; exact le_refl _
  · intro _ a b _ _ es _
    apply PersistentFixStore.wp_recoverFrom rfl
    · intro _
      exact wp_mono (wp_commitMeta_le (e := ⟨d.files, es, d.written⟩) (le_refl _))
        (fun _ _ h => wp_finish_le h) (fun _ h => h)
    · intro _ _ _
      exact wp_finish_le (le_refl _)
  · intro _ _ _; exact le_refl _

theorem wp_run_le (op : StoreOp) :
    wp (op.run s) (fun _ d' => commits d ≤ commits d') (fun d' => commits d ≤ commits d') d := by
  cases op with
  | begin capacity =>
    rw [StoreOp.run, wp_bind]
    exact wp_begin_le
  | push record =>
    rw [StoreOp.run, wp_bind]
    apply PersistentFixStore.wp_push
    · intro _; exact le_refl _
    · intro _ d' hsame _ _; exact hsame.commits.ge
    · intro _ _ _ d' hw _
      exact wp_mono (wp_commitMeta_le hw.slots.commits.ge) (fun _ _ h => h) (fun _ h => h)
    · intro _ _ _ _ _ d' hsame _; exact hsame.commits.ge
  | peek max =>
    rw [StoreOp.run, wp_bind]
    apply PersistentFixStore.wp_peek
    · intro _; exact le_refl _
    · intro _ _ _ _; exact le_refl _
    · intro _ _ _ es _
      exact wp_commitMeta_le (e := ⟨d.files, es, d.written⟩) (le_refl _)
    · intro _ _ _; exact le_refl _
  | ackFront count =>
    rw [StoreOp.run, wp_bind]
    apply PersistentFixStore.wp_ackFront
    · intro _; exact le_refl _
    · intro _ _
      exact wp_commitMeta_le (le_refl _)

end

theorem commits_le_of_storeStep {st st' : StoreState} {a : StoreAction}
    (h : storeStep st a = some st') : commits (st.disk []) ≤ commits (st'.disk []) := by
  cases a with
  | powerLoss => cases h; exact le_refl _
  | op op faults =>
    have hle := wp_run_le (s := st.store) (d := st.disk faults) op
    unfold storeStep at h
    rcases hrun : op.run st.store (st.disk faults) with ⟨_ | r, d⟩ <;>
      simp only [hrun, Option.some.injEq] at h <;> subst h
    · have h := wp_of_powerLost hle hrun
      exact h
    · have h := wp_of_returns hle hrun
      exact h

end OpenGps.Firmware
