import Mathlib.Algebra.Order.Ring.Int
import OpenGps.Firmware.StoreDurability
import OpenGps.Firmware.StoreQueue

/-!
# What a failed call leaves behind

A push that returns false and an acknowledgement that returns zero are documented to leave the queue
as it was. An acknowledgement does: its record slots are not written, and its rollback restores the
meta. A push does not: its rollback leaves `nextSeq` advanced, the record it wrote into a full ring
has replaced the oldest one, and the `w` fallback of a failed open has emptied the data file.

Which calls are safe under every script of faults is decided by the state and the call. For a push
into a readable ring with room the failing step decides: only a failed commit leaves a trace.
-/

namespace OpenGps.Firmware

open OpenGps.Lib OpenGps.Lib.CrashIo

namespace PersistentFixStore

variable {s : PersistentFixStore} {d d' : Disk StorePath} {m : FixQueueMeta} {record : FixRecord}

/-! ## Rollbacks -/

/-- The rollback of a push restores the meta up to the next id. -/
theorem unpushMeta_pushMeta (h : m.WellFormed) (sequenceId : UInt32) :
    unpushMeta (pushMeta m sequenceId) (fixQueueIsFull m) =
      { m with nextSeq := (pushMeta m sequenceId).nextSeq } := by
  have hhead := retreat_advance h.2.1
  have htail := retreat_advance h.2.2.1
  unfold unpushMeta pushMeta
  dsimp only
  cases hfull : fixQueueIsFull m with
  | false =>
    simp only [Bool.false_eq_true, if_false]
    split <;> simp [hhead]
  | true =>
    simp only [if_true]
    split <;> simp [hhead, htail]

@[simp] theorem recordedAt_stamp (s : PersistentFixStore) (record : FixRecord) :
    (s.stamp record).recordedAt = record.recordedAt := by
  unfold stamp
  split <;> rfl

/-- The next id after a push is the one before it. -/
def KeepsNextSeq (s : PersistentFixStore) (record : FixRecord) : Prop :=
  (s.stamp record).sequenceId < s.queueMeta.nextSeq ∨
    (s.stamp record).sequenceId + 1 = s.queueMeta.nextSeq

instance (s : PersistentFixStore) (record : FixRecord) : Decidable (s.KeepsNextSeq record) :=
  inferInstanceAs (Decidable (_ ∨ _))

theorem keepsNextSeq_iff :
    s.KeepsNextSeq record ↔
      (pushMeta s.queueMeta (s.stamp record).sequenceId).nextSeq = s.queueMeta.nextSeq := by
  rw [pushMeta_nextSeq, KeepsNextSeq]
  split
  · next hle =>
    exact or_iff_right (UInt32.not_lt.mpr hle)
  · next hlt =>
    exact iff_of_true (.inl (UInt32.not_le.mp hlt)) rfl

/-! ## What every reachable object keeps -/

/-- A ready object has a well-formed meta, a capacity and a data file. -/
structure Sound (s : PersistentFixStore) (d : Disk StorePath) : Prop where
  wellFormed : s.queueMeta.WellFormed
  capacity : s.queueCapacity ≠ 0
  data : (d.files .data).isSome

/-- A commit leaves the data file alone; what it publishes is well formed, and a failed one leaves
the object as it was. -/
theorem wp_commitMeta_data :
    wp s.commitMeta (fun r d' => d'.files .data = d.files .data ∧
      (r = (true, s.committed) ∧ s.nextMeta.WellFormed ∨ r = (false, s))) (fun _ => True) d := by
  apply wp_commitMeta
  · intro _
    exact ⟨rfl, .inr rfl⟩
  · intro d' hpublished _
    exact ⟨hpublished.data, .inl ⟨rfl, hpublished.wellFormed⟩⟩
  · intro _ _ d' htorn _
    exact ⟨htorn.data, .inr rfl⟩
  · intros
    trivial
  · intros
    trivial

theorem wp_push_sound (h : s.readyState → s.Sound d) :
    wp (s.push record) (fun r d' => r.2.1.readyState → r.2.1.Sound d') (fun _ => True) d := by
  apply wp_push_partial
  · intro _
    exact h
  · intro _ _
    exact h
  · intro _ wire _ _ _ d' _ _ hdata hready
    refine ⟨(h hready).wellFormed, (h hready).capacity, ?_⟩
    obtain hsame | ⟨n, hwritten⟩ := hdata
    · exact hsame ▸ (h hready).data
    · obtain ⟨base, -, hbase⟩ := hwritten.data
      rw [hbase]
      rfl
  · intro hready wire _ d₁ hwritten _
    obtain ⟨base, -, hbase⟩ := hwritten.data
    have hsome : (d₁.files .data).isSome := by
      rw [hbase]
      rfl
    refine wp_mono wp_commitMeta_data ?_ (fun _ h => h)
    rintro r d₂ ⟨hsame, ⟨rfl, hwf⟩ | rfl⟩ _
    · exact ⟨hwf, (h hready).capacity, hsame ▸ hsome⟩
    · refine ⟨?_, (h hready).capacity, hsame ▸ hsome⟩
      have hback := unpushMeta_pushMeta (h hready).wellFormed (s.stamp record).sequenceId
      show (unpushMeta (pushMeta s.queueMeta _) _).WellFormed
      rw [hback]
      exact (h hready).wellFormed
  · intros
    trivial

theorem wp_ackFront_sound {count : Nat} (h : s.readyState → s.Sound d) :
    wp (s.ackFront count) (fun r d' => r.2.readyState → r.2.Sound d') (fun _ => True) d := by
  apply wp_ackFront
  · intro _
    exact h
  · intro hready _
    refine wp_mono wp_commitMeta_data ?_ (fun _ h => h)
    rintro r d₁ ⟨hsame, ⟨rfl, hwf⟩ | rfl⟩ _
    · exact ⟨hwf, (h hready).capacity, hsame ▸ (h hready).data⟩
    · refine ⟨?_, (h hready).capacity, hsame ▸ (h hready).data⟩
      show (unackMeta (ackMeta s.queueMeta _) _).WellFormed
      rw [unackMeta_ackMeta (h hready).wellFormed]
      exact (h hready).wellFormed

/-- A reset leaves a fresh meta, also where its commit fails. -/
theorem wp_reset_sound (hcapacity : s.queueCapacity ≠ 0) (hdata : (d.files .data).isSome) :
    wp s.reset (fun r d' => r.2.Sound d') (fun _ => True) d := by
  refine wp_mono (wp_commitMeta_data (s := s.fresh)) ?_ (fun _ h => h)
  have hwf := s.fresh_wellFormed hcapacity
  rintro r d₁ ⟨hsame, ⟨rfl, -⟩ | rfl⟩
  · exact ⟨hwf, hcapacity, hsame ▸ hdata⟩
  · exact ⟨hwf, hcapacity, hsame ▸ hdata⟩

theorem wp_peek_sound {max : Nat} (h : s.readyState → s.Sound d) :
    wp (s.peek max) (fun r d' => r.store.readyState → r.store.Sound d') (fun _ => True) d := by
  apply wp_peek
  · intro _
    exact h
  · intro _ _ es _ hready
    exact ⟨(h hready).wellFormed, (h hready).capacity, (h hready).data⟩
  · intro hready _ _ es _
    exact wp_mono (wp_reset_sound (h hready).capacity (h hready).data) (fun _ _ hs _ => hs)
      (fun _ h => h)
  · intros
    trivial

theorem SlotRead.wellFormed {slot : MetaSlot} {a : Option FixQueueMeta} (h : SlotRead d slot a) :
    ∀ m, a = some m → m.WellFormed := by
  rintro m rfl
  obtain h | ⟨h, -⟩ := h
  · exact (wellFormed_of_fixQueueMetaDecode h.symm).1
  · cases h

/-- The object with which `begin` goes on is not ready, and has a well-formed meta. -/
structure Recovered (s : PersistentFixStore) : Prop where
  ready : s.readyState = false
  wellFormed : s.queueMeta.WellFormed
  capacity : s.queueCapacity ≠ 0

theorem wp_recoverFrom_sound {capacity : UInt32} {a b : Option FixQueueMeta}
    (hready : s.readyState = false) (hcapacity : s.queueCapacity = capacity) (hne : capacity ≠ 0)
    (ha : ∀ m, a = some m → m.WellFormed) (hb : ∀ m, b = some m → m.WellFormed) :
    wp (s.recoverFrom capacity a b) (fun r _ => r.store.Recovered) (fun _ => True) d := by
  subst hcapacity
  apply wp_recoverFrom rfl
  · intro _
    refine wp_mono wp_commitMeta_data ?_ (fun _ h => h)
    rintro r d₁ ⟨-, ⟨rfl, hwf⟩ | rfl⟩
    · exact ⟨hready, hwf, hne⟩
    · exact ⟨hready, s.fresh_wellFormed hne, hne⟩
  · intro m hpick _
    refine ⟨hready, ?_, hne⟩
    have hm := winner_read hpick
    rcases hw : winner a b <;> simp only [hw] at hm
    · exact ha m hm
    · exact hb m hm

theorem wp_finish_sound {r : BeginResult} (h : r.store.Recovered) :
    wp r.finish (fun r d' => r.store.readyState → r.store.Sound d') (fun _ => True) d := by
  have hidle : ∀ d', r.store.readyState → r.store.Sound d' := by
    intro d' hready
    rw [h.ready] at hready
    cases hready
  apply wp_finish
  · intro _
    exact hidle d
  · intro _ d₁ _ _ hdata _
    apply wp_probeFront
    · exact fun _ _ => ⟨h.wellFormed, h.capacity, hdata⟩
    · exact fun _ _ _ _ _ => ⟨h.wellFormed, h.capacity, hdata⟩
    · intro _ _ es _
      refine wp_mono (wp_reset_sound h.capacity hdata) ?_ (fun _ h => h)
      exact fun _ _ hs _ _ _ => hs
    · rfl
    · intros
      trivial
  · intro _ _ _ d₁ _ _
    exact hidle d₁
  · intros
    trivial

theorem wp_begin_sound {capacity : UInt32} :
    wp (s.begin capacity) (fun r d' => r.store.readyState → r.store.Sound d')
      (fun _ => True) d := by
  apply wp_begin
  · intro _ hready
    cases hready
  · intro hne a b ha hb es _
    refine wp_mono (wp_recoverFrom_sound rfl rfl hne ha.wellFormed hb.wellFormed) ?_ (fun _ h => h)
    exact fun _ _ hrecovered => wp_finish_sound hrecovered
  · intros
    trivial

end PersistentFixStore

/-- A ready object is sound; the others are not used before the next boot. -/
def StoreState.SoundIfReady (st : StoreState) : Prop :=
  st.store.readyState → st.store.Sound (st.disk [])

theorem StoreState.SoundIfReady.step {st st' : StoreState} {a : StoreAction} (h : st.SoundIfReady)
    (hstep : storeStep st a = some st') : st'.SoundIfReady := by
  cases a with
  | powerLoss =>
    cases hstep
    intro hready
    cases hready
  | op op faults =>
    have hsound : wp (op.run st.store) (fun r d => r.store.readyState → r.store.Sound d)
        (fun _ => True) (st.disk faults) := by
      have h' : st.store.readyState → st.store.Sound (st.disk faults) := fun hready =>
        ⟨(h hready).wellFormed, (h hready).capacity, (h hready).data⟩
      cases op with
      | begin capacity =>
        rw [StoreOp.run, wp_bind]
        exact PersistentFixStore.wp_begin_sound
      | push record =>
        rw [StoreOp.run, wp_bind]
        exact PersistentFixStore.wp_push_sound h'
      | peek max =>
        rw [StoreOp.run, wp_bind]
        exact PersistentFixStore.wp_peek_sound h'
      | ackFront count =>
        rw [StoreOp.run, wp_bind]
        exact PersistentFixStore.wp_ackFront_sound h'
    unfold storeStep at hstep
    rcases hrun : op.run st.store (st.disk faults) with ⟨_ | r, d⟩ <;>
      simp only [hrun, Option.some.injEq] at hstep <;> subst hstep
    · intro hready
      cases hready
    · intro hready
      have hs := wp_of_returns hsound hrun hready
      exact ⟨hs.wellFormed, hs.capacity, hs.data⟩

/-- Whatever failed on the way, a ready object is sound. -/
theorem sound_of_run {as : List StoreAction} {st : StoreState}
    (hrun : Run storeStep newDevice as st) : st.SoundIfReady :=
  Run.invariant (fun _ _ _ h hstep => h.step hstep) hrun fun h => by cases h

/-! ## The records peeks return -/

namespace PersistentFixStore

variable {s s' : PersistentFixStore} {d d' : Disk StorePath} {record : FixRecord} {max : Nat}
  {data : Option (List UInt8)}

/-- What a peek returns when its file operations complete. -/
def peeked (s : PersistentFixStore) (d : Disk StorePath) (max : Nat) : Option (List FixRecord) :=
  (s.peek max ⟨d.files, [], d.written⟩).1.map (·.out)

/-- The records of the scan; a corrupt slot shows none. -/
def shown (s : PersistentFixStore) (data : Option (List UInt8)) (max : Nat) : List FixRecord :=
  if ¬ s.readyState ∨ max = 0 ∨ s.queueMeta.count = 0 then []
  else
    match scan data s.queueMeta.capacity s.queueMeta.tail (min s.queueMeta.count.toNat max) with
    | .records out => out
    | .corrupt => []

theorem peeked_eq : s.peeked d max = some (s.shown (d.files .data) max) := by
  by_cases hidle : ¬ s.readyState ∨ max = 0 ∨ s.queueMeta.count = 0
  · rw [peeked, peek, if_pos hidle, shown, if_pos hidle]
    rfl
  · have hwp : wp (s.peek max) (fun r _ => r.out = s.shown (d.files .data) max) (fun _ => False)
        ⟨d.files, [], d.written⟩ := by
      rw [shown, if_neg hidle]
      apply wp_peek
      · exact fun h => absurd h hidle
      · rintro out (hout | ⟨k, hk⟩) _ _
        · simp only [hout]
        · cases hk
      · intro _ _ hcorrupt es hes
        simp only [hcorrupt]
        obtain rfl := List.subset_nil.mp hes
        apply wp_commitMeta
        · exact fun _ => trivial
        · exact fun _ _ _ => trivial
        · exact fun _ hk => by cases hk
        · exact fun _ hk => by cases hk
        · exact fun _ hk => by cases hk
      · exact fun _ hk => by cases hk
    obtain ⟨r, d', hr, hout⟩ := returns_of_wp hwp
    rw [peeked, hr]
    exact congrArg some hout

theorem min_count_ne_zero (hmax : max ≠ 0) (hcount : s.queueMeta.count ≠ 0) :
    min s.queueMeta.count.toNat max ≠ 0 := by
  have hne : s.queueMeta.count.toNat ≠ 0 := fun h => hcount (UInt32.toNat_inj.mp h)
  omega

/-- Behind an oldest slot that holds no record, nothing is shown. -/
theorem shown_eq_nil (h : slotRecord data s.queueMeta.tail = none) : s.shown data max = [] := by
  unfold shown
  split
  · rfl
  · next hactive =>
    obtain ⟨-, hmax, hcount⟩ : s.readyState ∧ max ≠ 0 ∧ s.queueMeta.count ≠ 0 := by
      simpa using hactive
    obtain ⟨n, hn⟩ := Nat.exists_eq_succ_of_ne_zero (min_count_ne_zero hmax hcount)
    rw [hn, scan]
    by_cases hshort : (slice data (slotOffset s.queueMeta.tail).toNat fixRecordWireSize).length ≠
        fixRecordWireSize
    · rw [if_pos hshort]
    · rw [if_neg hshort, h]

theorem slotRecord_eq_none (hready : s.readyState) (hcount : s.queueMeta.count ≠ 0)
    (h : s.shown data 1 = []) : slotRecord data s.queueMeta.tail = none := by
  by_contra hsome
  obtain ⟨r, hr⟩ := Option.ne_none_iff_exists'.mp hsome
  have hone : min s.queueMeta.count.toNat 1 = 1 :=
    Nat.min_eq_right (Nat.one_le_iff_ne_zero.mpr fun h => hcount (UInt32.toNat_inj.mp h))
  rw [shown, if_neg (by simp [hready, hcount]), hone, scan,
    if_neg (not_not.mpr (length_of_slotRecord hsome)), hr] at h
  cases h

end PersistentFixStore

/-! ## Calls that fail -/

/-- The calls that report a failure; `commitMeta` is the private step of the other two. -/
inductive StoreCall where
  | push (record : FixRecord)
  | ackFront (count : Nat)
  | commitMeta
  deriving DecidableEq

/-- Whether the call succeeded: a push returns true, an acknowledgement a number other than zero. -/
def StoreCall.run (s : PersistentFixStore) : StoreCall → StoreIo (Bool × PersistentFixStore)
  | .push record => do
    let r ← s.push record
    return (r.1, r.2.1)
  | .ackFront count => do
    let r ← s.ackFront count
    return (r.1 ≠ 0, r.2)
  | .commitMeta => s.commitMeta

/-- When the call fails, the object and the records of the next peek are as they were. -/
def FailureKeeps (s : PersistentFixStore) (call : StoreCall) (d : Disk StorePath) : Prop :=
  ∀ s' d', call.run s d = (some (false, s'), d') →
    s' = s ∧ ∀ max, s'.peeked d' max = s.peeked d max

/-- No part of the record, stored in the head slot, makes the oldest slot readable. -/
def OldestUnreadable (s : PersistentFixStore) (data : List UInt8) (record : FixRecord) : Prop :=
  ∀ wire n, fixRecordEncode (s.stamp record) fixRecordWireSize = some wire →
    slotRecord (some (overlay data (slotOffset s.queueMeta.head).toNat (wire.take n)))
      s.queueMeta.tail = none

/-- The call leaves the queue alone whichever of its file operations fail. -/
def StoreCall.Safe (s : PersistentFixStore) (data : List UInt8) : StoreCall → Prop
  | .push record => ¬ s.readyState ∨ getElem record.recordedAt 20 fixTimestampEnd ≠ 0 ∨
    s.KeepsNextSeq record ∧ (s.queueMeta.count = 0 ∨ OldestUnreadable s data record)
  | .ackFront count => ¬ s.readyState ∨ count = 0 ∨ s.queueMeta.count ≠ 0
  | .commitMeta => True

/-! ## Safe calls -/

section
open PersistentFixStore

variable {s : PersistentFixStore} {d d' d'' : Disk StorePath} {record : FixRecord}
  {files : StorePath → Option (List UInt8)} {written : StorePath → Nat} {wire base : List UInt8}

/-- The version byte of a slot that begins beyond the stored bytes, or in the gap before them, is
zero. -/
theorem slotRecord_of_first_byte {data : List UInt8} {slot : UInt32}
    (h : data[(slotOffset slot).toNat]?.getD 0 = 0) : slotRecord (some data) slot = none := by
  have hfirst : (slice (some data) (slotOffset slot).toNat fixRecordWireSize).getD 0 0 = 0 := by
    rw [List.getD_eq_getElem?_getD, slice, List.getElem?_take_of_lt (by decide), List.getElem?_drop]
    exact h
  unfold slotRecord fixRecordDecode
  rw [if_pos (.inr (.inl (by rw [hfirst]; decide)))]

/-- In an emptied file only the slot that was written can hold a record. -/
theorem slotRecord_of_emptied {bs : List UInt8} {slot slot' : UInt32} (hbs : bs.length ≤ 64)
    (hslot : slotOffset slot' ≠ slotOffset slot) :
    slotRecord (some (overlay [] (slotOffset slot).toNat bs)) slot' = none := by
  apply slotRecord_of_first_byte
  by_cases hnil : bs = []
  · subst hnil
    simp
  · have hdisjoint := slotOffset_disjoint hslot
    rw [getElem?_overlay hnil]
    split
    · rw [if_neg (by simp)]
      rfl
    · rw [if_neg (by omega)]
      simp

/-- An unreadable oldest slot stays unreadable when the file is emptied first. -/
theorem OldestUnreadable.emptied {data wire : List UInt8} (h : OldestUnreadable s data record)
    (hwire : fixRecordEncode (s.stamp record) fixRecordWireSize = some wire) (n : Nat) :
    slotRecord (some (overlay [] (slotOffset s.queueMeta.head).toNat (wire.take n)))
      s.queueMeta.tail = none := by
  have hlen : wire.length = 64 := length_of_fixRecordEncode hwire
  apply slotRecord_of_emptied
  · rw [List.length_take]
    omega
  · intro hsame
    -- A complete record in the oldest slot could be read.
    have hread := h wire 64 hwire
    rw [List.take_of_length_le hlen.le, slotRecord_written hwire hsame] at hread
    cases hread

theorem OldestUnreadable.recordWritten {n : Nat}
    (h : OldestUnreadable s ((d.files .data).getD []) record)
    (hwire : fixRecordEncode (s.stamp record) fixRecordWireSize = some wire)
    (hwritten : RecordWritten s.queueMeta.head (wire.take n) d d') :
    slotRecord (d'.files .data) s.queueMeta.tail = none := by
  obtain ⟨base, hbase, hdata⟩ := hwritten.data
  rw [hdata]
  obtain hbase | ⟨rfl, -⟩ := hbase
  · have := h wire n hwire
    rwa [hbase] at this
  · exact h.emptied hwire n

theorem shown_of_count_eq_zero {data : Option (List UInt8)} {max : Nat}
    (h : s.queueMeta.count = 0) : s.shown data max = [] := by
  rw [shown, if_pos (.inr (.inr h))]

/-- Where the record is encoded, a safe push keeps its next id, and shows nothing. -/
theorem StoreCall.Safe.of_encoded {data : List UInt8} (h : StoreCall.Safe s data (.push record))
    (hready : s.readyState)
    (hwire : fixRecordEncode (s.stamp record) fixRecordWireSize = some wire) :
    s.KeepsNextSeq record ∧ (s.queueMeta.count = 0 ∨ OldestUnreadable s data record) := by
  have hnul : ¬ record.recordedAt[20] ≠ 0 := by
    rw [not_not, ← recordedAt_stamp s record]
    exact (fixRecordEncode_eq_some.mp hwire).2.1
  exact (h.resolve_left (not_not.mpr hready)).resolve_left hnul

/-- A call that keeps the object and what it shows when it fails. -/
theorem FailureKeeps.of_wp {call : StoreCall}
    (h : wp (call.run s) (fun r d' => r.1 = false →
      r.2 = s ∧ ∀ max, s.shown (d'.files .data) max = s.shown (d.files .data) max)
      (fun _ => True) d) : FailureKeeps s call d := by
  intro s' d' hrun
  obtain ⟨rfl, hshown⟩ := wp_of_returns h hrun rfl
  refine ⟨rfl, fun max => ?_⟩
  rw [peeked_eq, peeked_eq, hshown]

/-- Whatever part of the record a safe push stored, the next peek shows what it did before. -/
theorem shown_kept_of_safe (hready : s.readyState) (hdata : (d.files .data).isSome)
    (h : StoreCall.Safe s ((d.files .data).getD []) (.push record))
    (hwire : fixRecordEncode (s.stamp record) fixRecordWireSize = some wire) {n : Nat}
    (hleft : d'.files .data = d.files .data ∨
      RecordWritten s.queueMeta.head (wire.take n) d d') (max : Nat) :
    s.shown (d'.files .data) max = s.shown (d.files .data) max := by
  obtain ⟨-, hshown⟩ := h.of_encoded hready hwire
  obtain hsame | hwritten := hleft
  · rw [hsame]
  obtain hzero | hnone := hshown
  · rw [shown_of_count_eq_zero hzero, shown_of_count_eq_zero hzero]
  · obtain ⟨base, hbase⟩ := Option.isSome_iff_exists.mp hdata
    have hbefore : slotRecord (d.files .data) s.queueMeta.tail = none := by
      have hstart := hnone wire 0 hwire
      rw [List.take_zero, overlay_nil] at hstart
      rwa [hbase] at hstart ⊢
    rw [shown_eq_nil hbefore, shown_eq_nil (hnone.recordWritten hwire hwritten)]

theorem wp_push_safe (hsound : s.readyState → s.Sound d)
    (h : StoreCall.Safe s ((d.files .data).getD []) (.push record)) :
    wp (s.push record) (fun r d' => r.1 = false →
      r.2.1 = s ∧ ∀ max, s.shown (d'.files .data) max = s.shown (d.files .data) max)
      (fun _ => True) d := by
  apply wp_push_partial
  · exact fun _ _ => ⟨rfl, fun _ => rfl⟩
  · exact fun _ _ _ => ⟨rfl, fun _ => rfl⟩
  · intro hready wire hwire _ _ d' _ _ hleft _
    refine ⟨rfl, ?_⟩
    obtain hsame | ⟨n, hwritten⟩ := hleft
    · intro max
      rw [hsame]
    · exact shown_kept_of_safe hready (hsound hready).data h hwire (.inr hwritten)
  · intro hready wire hwire d₁ hwritten _
    have hlen : wire.length = 64 := length_of_fixRecordEncode hwire
    have hkeeps := (h.of_encoded hready hwire).1
    rw [← List.take_of_length_le hlen.le] at hwritten
    refine wp_mono wp_commitMeta_data ?_ (fun _ h => h)
    rintro r d₂ ⟨hsame, ⟨rfl, -⟩ | rfl⟩ hfailed
    · cases hfailed
    · refine ⟨?_, ?_⟩
      · have hback := unpushMeta_pushMeta (hsound hready).wellFormed
          (s.stamp record).sequenceId
        rw [keepsNextSeq_iff.mp hkeeps] at hback
        show ({ s with
          queueMeta := unpushMeta (pushMeta s.queueMeta (s.stamp record).sequenceId) _ } :
            PersistentFixStore) = s
        rw [hback]
      · rw [hsame]
        exact shown_kept_of_safe hready (hsound hready).data h hwire (.inr hwritten)
  · intros
    trivial

theorem wp_ackFront_safe {count : Nat} (hsound : s.readyState → s.Sound d)
    (h : StoreCall.Safe s ((d.files .data).getD []) (.ackFront count)) :
    wp (s.ackFront count) (fun r d' => r.1 = 0 →
      r.2 = s ∧ ∀ max, s.shown (d'.files .data) max = s.shown (d.files .data) max)
      (fun _ => True) d := by
  apply wp_ackFront
  · exact fun _ _ => ⟨rfl, fun _ => rfl⟩
  · intro hready hcount
    have hne := (h.resolve_left (not_not.mpr hready)).resolve_left hcount
    refine wp_mono wp_commitMeta_data ?_ (fun _ h => h)
    rintro r d₁ ⟨hsame, ⟨rfl, -⟩ | rfl⟩ hzero
    · have hqueued : s.queueMeta.count.toNat ≠ 0 := fun h => hne (UInt32.toNat_inj.mp h)
      have hmin : min count s.queueMeta.count.toNat = 0 := hzero
      omega
    · refine ⟨?_, fun max => by rw [hsame]⟩
      show ({ s with queueMeta := unackMeta (ackMeta s.queueMeta _) _ } : PersistentFixStore) = s
      rw [unackMeta_ackMeta (hsound hready).wellFormed]

/-- A safe call keeps the queue when it fails, whatever failed. -/
theorem failureKeeps_of_safe {call : StoreCall} (hsound : s.readyState → s.Sound d)
    (h : call.Safe s ((d.files .data).getD [])) : FailureKeeps s call d := by
  apply FailureKeeps.of_wp
  cases call with
  | push record =>
    rw [StoreCall.run, wp_bind]
    exact wp_push_safe hsound h
  | ackFront count =>
    rw [StoreCall.run, wp_bind]
    refine wp_mono (wp_ackFront_safe hsound h) ?_ (fun _ h => h)
    intro r d' hkept hfailed
    exact hkept (by simpa using hfailed)
  | commitMeta =>
    refine wp_mono wp_commitMeta_data ?_ (fun _ h => h)
    rintro r d' ⟨hsame, ⟨rfl, -⟩ | rfl⟩ hfailed
    · cases hfailed
    · exact ⟨rfl, fun max => by rw [hsame]⟩

/-! ## Scripts that break the others -/

theorem writeRecord_emptied (slot : UInt32) :
    writeRecord slot wire ⟨files, [.fail 0, .fail 1], written⟩ =
      (some false, ⟨Function.update files .data (some []), [], written⟩) := rfl

theorem writeRecord_opened (slot : UInt32) (es : List Fault) (hbase : files .data = some base) :
    writeRecord slot wire ⟨files, .ok :: .ok :: es, written⟩ =
      (do
        let n ← (⟨.data, (slotOffset slot).toNat⟩ : File StorePath).write wire
        return decide (n = fixRecordWireSize)) ⟨files, es, written⟩ := by
  unfold writeRecord
  rw [run_bind, run_bind, openFile_update_run hbase]
  rfl

theorem writeRecord_torn (slot : UInt32) (n : Nat) (hlen : wire.length = fixRecordWireSize)
    (hbase : files .data = some base) :
    writeRecord slot wire ⟨files, [.ok, .ok, .fail n], written⟩ =
      (some false, ⟨Function.update files .data
        (some (overlay base (slotOffset slot).toNat (wire.take (min n 63)))), [], written⟩) := by
  have hwrite : (⟨.data, (slotOffset slot).toNat⟩ : File StorePath).write wire
      ⟨files, [.fail n], written⟩ = (some (min n (wire.length - 1)), ⟨Function.update files .data
        (some (overlay ((files .data).getD []) (slotOffset slot).toNat
          (wire.take (min n (wire.length - 1))))), [], written⟩) := rfl
  have hshort : min n 63 ≠ fixRecordWireSize := by
    unfold fixRecordWireSize
    omega
  rw [writeRecord_opened slot _ hbase, run_bind, hwrite, hlen, hbase]
  exact congrArg (fun b => (some b, _)) (decide_eq_false hshort)

theorem writeRecord_complete (slot : UInt32) (es : List Fault)
    (hlen : wire.length = fixRecordWireSize) (hbase : files .data = some base) :
    writeRecord slot wire ⟨files, .ok :: .ok :: .ok :: es, written⟩ =
      (some true, ⟨Function.update files .data (some (overlay base (slotOffset slot).toNat wire)),
        es, Function.update written .data (written .data + 1)⟩) := by
  have hwrite : (⟨.data, (slotOffset slot).toNat⟩ : File StorePath).write wire
      ⟨files, .ok :: es, written⟩ = (some wire.length, ⟨Function.update files .data
        (some (overlay ((files .data).getD []) (slotOffset slot).toNat wire)), es,
          Function.update written .data (written .data + 1)⟩) := rfl
  rw [writeRecord_opened slot _ hbase, run_bind, hwrite, hlen, hbase]
  rfl

theorem push_of_writeRecord_failed (hready : s.readyState)
    (hwire : fixRecordEncode (s.stamp record) fixRecordWireSize = some wire)
    (hfailed : writeRecord s.queueMeta.head wire d = (some false, d')) :
    (StoreCall.push record).run s d = (some (false, s), d') := by
  have hpush : s.push record d = (some (false, s, s.stamp record), d') := by
    unfold push
    rw [if_neg (not_not.mpr hready)]
    simp only [hwire]
    rw [run_bind, hfailed]
    rfl
  rw [StoreCall.run, run_bind, hpush]
  rfl

/-- A commit whose slot file does not open. -/
theorem commitMeta_not_opened (s : PersistentFixStore) (files : StorePath → Option (List UInt8))
    (written : StorePath → Nat) :
    ∃ es, s.commitMeta ⟨files, [.fail 0], written⟩ = (some (false, s), ⟨files, es, written⟩) := by
  unfold commitMeta
  rcases hwire : fixQueueMetaEncode
    { s.queueMeta with generation := s.queueMeta.generation + 1 } fixQueueMetaWireSize with _ | wire
  · exact ⟨_, rfl⟩
  · exact ⟨_, rfl⟩

theorem push_of_commit_failed (hready : s.readyState) (hwf : s.queueMeta.WellFormed)
    (hwire : fixRecordEncode (s.stamp record) fixRecordWireSize = some wire)
    (hwritten : writeRecord s.queueMeta.head wire d = (some true, d'))
    (hfailed : (s.pushed record).commitMeta d' = (some (false, s.pushed record), d'')) :
    (StoreCall.push record).run s d =
      (some (false, { s with queueMeta := { s.queueMeta with
          nextSeq := (pushMeta s.queueMeta (s.stamp record).sequenceId).nextSeq } }), d'') := by
  have hpush : s.push record d =
      (some (false, { s with
          queueMeta := unpushMeta (s.pushed record).queueMeta (fixQueueIsFull s.queueMeta) },
        s.stamp record), d'') := by
    unfold push
    rw [if_neg (not_not.mpr hready)]
    simp only [hwire]
    rw [run_bind, hwritten]
    simp only [not_true_eq_false, if_false]
    rw [run_bind]
    have hcommit : commitMeta { s with
        queueMeta := pushMeta s.queueMeta (s.stamp record).sequenceId } d' =
          (some (false, s.pushed record), d'') := hfailed
    rw [hcommit]
    rfl
  have hback := unpushMeta_pushMeta hwf (s.stamp record).sequenceId
  rw [StoreCall.run, run_bind, hpush, show (s.pushed record).queueMeta =
    pushMeta s.queueMeta (s.stamp record).sequenceId from rfl, hback]
  rfl

/-- What was not shown before a failed call cannot be read after it. -/
theorem FailureKeeps.unreadable {call : StoreCall} (h : FailureKeeps s call d)
    (hrun : call.run s d = (some (false, s), d')) (hready : s.readyState)
    (hcount : s.queueMeta.count ≠ 0) (hnil : s.shown (d.files .data) 1 = []) :
    slotRecord (d'.files .data) s.queueMeta.tail = none := by
  have hpeek := (h s d' hrun).2 1
  rw [peeked_eq, peeked_eq, hnil] at hpeek
  exact slotRecord_eq_none hready hcount (Option.some.inj hpeek)

/-- The meta slot does not open after the record was written. -/
theorem commit_failed_run (written : StorePath → Nat) (hready : s.readyState)
    (hwf : s.queueMeta.WellFormed)
    (hwire : fixRecordEncode (s.stamp record) fixRecordWireSize = some wire)
    (hbase : files .data = some base) :
    ∃ d', (StoreCall.push record).run s ⟨files, [.ok, .ok, .ok, .fail 0], written⟩ =
        (some (false, { s with queueMeta := { s.queueMeta with
          nextSeq := (pushMeta s.queueMeta (s.stamp record).sequenceId).nextSeq } }), d') ∧
      d'.files .data = some (overlay base (slotOffset s.queueMeta.head).toNat wire) := by
  have hlen : wire.length = fixRecordWireSize := length_of_fixRecordEncode hwire
  obtain ⟨es, hfailed⟩ := commitMeta_not_opened (s.pushed record)
    (Function.update files .data (some (overlay base (slotOffset s.queueMeta.head).toNat wire)))
    (Function.update written .data (written .data + 1))
  refine ⟨_, push_of_commit_failed hready hwf hwire
    (writeRecord_complete s.queueMeta.head [.fail 0] hlen hbase) hfailed, ?_⟩
  simp only [Function.update_self]

theorem keepsNextSeq_of_failureKeeps (hready : s.readyState) (hwf : s.queueMeta.WellFormed)
    (hwire : fixRecordEncode (s.stamp record) fixRecordWireSize = some wire)
    (hbase : files .data = some base)
    (h : ∀ faults, FailureKeeps s (.push record) ⟨files, faults, written⟩) :
    s.KeepsNextSeq record := by
  obtain ⟨d', hrun, -⟩ := commit_failed_run written hready hwf hwire hbase
  rw [keepsNextSeq_iff]
  exact congrArg (·.queueMeta.nextSeq) (h _ _ _ hrun).1

theorem oldestUnreadable_of_failureKeeps (hready : s.readyState) (hwf : s.queueMeta.WellFormed)
    (hwire : fixRecordEncode (s.stamp record) fixRecordWireSize = some wire)
    (hbase : files .data = some base) (hcount : s.queueMeta.count ≠ 0)
    (h : ∀ faults, FailureKeeps s (.push record) ⟨files, faults, written⟩) :
    OldestUnreadable s base record := by
  have hlen : wire.length = fixRecordWireSize := length_of_fixRecordEncode hwire
  -- The `w` fallback empties the file, so that nothing was shown before.
  have hnil : s.shown (files .data) 1 = [] := by
    have hpeek := (h _ _ _ (push_of_writeRecord_failed hready hwire
      (writeRecord_emptied s.queueMeta.head))).2 1
    rw [peeked_eq, peeked_eq] at hpeek
    refine (Option.some.inj hpeek).symm.trans (shown_eq_nil ?_)
    exact slotRecord_of_first_byte rfl
  intro wire' n hwire'
  obtain rfl : wire = wire' := Option.some.inj (hwire.symm.trans hwire')
  by_cases hn : n ≤ 63
  · have hnone := (h [.ok, .ok, .fail n]).unreadable (push_of_writeRecord_failed hready hwire
      (writeRecord_torn s.queueMeta.head n hlen hbase)) hready hcount hnil
    rwa [Nat.min_eq_left hn] at hnone
  · obtain ⟨d', hrun, hdata⟩ := commit_failed_run written hready hwf hwire hbase
    have hsame := (h _ _ _ hrun).1
    rw [hsame] at hrun
    have hnone := (h _).unreadable hrun hready hcount hnil
    have hwhole : wire.take n = wire := by
      apply List.take_of_length_le
      rw [hlen, fixRecordWireSize]
      omega
    rwa [hdata, ← hwhole] at hnone

theorem safe_of_failureKeeps {call : StoreCall} (hsound : s.readyState → s.Sound d)
    (h : ∀ faults, FailureKeeps s call ⟨d.files, faults, d.written⟩) :
    call.Safe s ((d.files .data).getD []) := by
  cases call with
  | push record =>
    refine or_iff_not_imp_left.mpr fun hready => or_iff_not_imp_left.mpr fun hnul => ?_
    rw [not_not] at hready hnul
    have hs := hsound hready
    obtain ⟨base, hbase⟩ := Option.isSome_iff_exists.mp hs.data
    obtain ⟨wire, hwire⟩ : ∃ wire, fixRecordEncode (s.stamp record) fixRecordWireSize = some wire :=
      ⟨_, fixRecordEncode_eq_some.mpr ⟨by decide, by rwa [recordedAt_stamp], rfl⟩⟩
    refine ⟨keepsNextSeq_of_failureKeeps hready hs.wellFormed hwire hbase h, ?_⟩
    rw [hbase]
    exact or_iff_not_imp_left.mpr fun hcount =>
      oldestUnreadable_of_failureKeeps hready hs.wellFormed hwire hbase hcount h
  | ackFront count =>
    refine or_iff_not_imp_left.mpr fun hready => or_iff_not_imp_left.mpr fun hcount hzero => ?_
    rw [not_not] at hready
    -- Without a fault the commit succeeds, and removes nothing.
    have hacked : s.acked count = s := by
      have hmin : min count s.queueMeta.count.toNat = 0 := by rw [hzero]; exact Nat.min_zero _
      rw [acked, hmin]
      show ({ s with queueMeta := { s.queueMeta with count := s.queueMeta.count - 0 } } :
        PersistentFixStore) = s
      rw [UInt32.sub_zero]
    have hwp : wp (StoreCall.ackFront count |>.run s)
        (fun r _ => r = (false, s.committed)) (fun _ => False) ⟨d.files, [], d.written⟩ := by
      rw [StoreCall.run, wp_bind]
      apply wp_ackFront
      · exact fun hidle => absurd hidle (by simp [hready, hcount])
      · intro _ _
        rw [hacked]
        apply wp_commitMeta_complete rfl (hsound hready).wellFormed
        intro d' _ _
        simp [ackResult, hzero]
    obtain ⟨r, d', hrun, rfl⟩ := returns_of_wp hwp
    have hsame := congrArg (·.queueMeta.generation) (h _ _ _ hrun).1
    simp [committed, nextMeta] at hsame
  | commitMeta => trivial

/-! ## By the failing step

What a failed push leaves behind depends on where it failed. In a readable ring with room, on a data
file that opens, the only harm is an advanced next id, and only the commit does it. -/

/-- The script lets a push store its record and makes the commit of its meta fail. -/
def CommitFails : List Fault → Prop
  | .ok :: .ok :: .ok :: .fail _ :: _ => True
  | .ok :: .ok :: .ok :: .ok :: .fail _ :: _ => True
  | _ => False

theorem commitFails_iff {faults : List Fault} : CommitFails faults ↔
    faults.getD 0 .ok = .ok ∧ faults.getD 1 .ok = .ok ∧ faults.getD 2 .ok = .ok ∧
      ∃ k, faults.getD 3 .ok = .fail k ∨ faults.getD 3 .ok = .ok ∧ faults.getD 4 .ok = .fail k := by
  constructor
  · intro h
    unfold CommitFails at h
    split at h
    · exact ⟨rfl, rfl, rfl, _, .inl rfl⟩
    · exact ⟨rfl, rfl, rfl, _, .inr ⟨rfl, rfl⟩⟩
    · exact h.elim
  · rintro ⟨h₀, h₁, h₂, k, h⟩
    rcases faults with _ | ⟨e₀, _ | ⟨e₁, _ | ⟨e₂, _ | ⟨e₃, es⟩⟩⟩⟩
    iterate 4 rcases h with h | ⟨-, h⟩ <;> cases h
    cases h₀
    cases h₁
    cases h₂
    obtain h | ⟨h₃, h₄⟩ := h
    · cases h
      trivial
    · rcases es with _ | ⟨e₄, es⟩
      · cases h₄
      · cases h₃
        cases h₄
        trivial

/-- Part of a record in a free slot leaves what the peeks return. -/
theorem shown_free_write {bs : List UInt8} (hbs : bs.length ≤ 64)
    (hlive : AllLive (some base) s.queueMeta)
    (hroom : ∀ i < s.queueMeta.count.toNat,
      slotOffset (s.queueMeta.liveSlot i) ≠ slotOffset s.queueMeta.head) (max : Nat) :
    s.shown (some (overlay base (slotOffset s.queueMeta.head).toNat bs)) max =
      s.shown (some base) max := by
  have hkept := slotRecord_liveSlot_kept hbs hlive hroom
  have hn : min s.queueMeta.count.toNat max ≤ s.queueMeta.count.toNat := Nat.min_le_left ..
  unfold shown
  split
  · rfl
  · rw [scan_take (hlive.congr hkept) hn, scan_take hlive hn, liveRecords_congr hkept]

theorem wellFormed_pushed (h : s.queueMeta.Ringed) : (s.pushed record).nextMeta.WellFormed :=
  (ringed_pushMeta h).1

/-- The record is stored, the commit fails, and the rollback restores all but the next id. -/
theorem push_run_of_commitFails (hready : s.readyState) (hring : s.queueMeta.Ringed)
    (hbase : d.files .data = some base)
    (hwire : fixRecordEncode (s.stamp record) fixRecordWireSize = some wire)
    (hcommit : CommitFails d.faults) :
    ∃ d', (StoreCall.push record).run s d =
      (some (false, { s with queueMeta := { s.queueMeta with
        nextSeq := (pushMeta s.queueMeta (s.stamp record).sequenceId).nextSeq } }), d') := by
  obtain ⟨h₀, h₁, h₂, k, hk⟩ := commitFails_iff.mp hcommit
  have hback := unpushMeta_pushMeta hring.1 (s.stamp record).sequenceId
  have hwp : wp ((StoreCall.push record).run s) (fun r _ => r = (false, { s with
      queueMeta := { s.queueMeta with
        nextSeq := (pushMeta s.queueMeta (s.stamp record).sequenceId).nextSeq } }))
      (fun _ => False) d := by
    rw [StoreCall.run, wp_bind]
    apply wp_push_script hready hbase <;> simp only [h₀, h₁, h₂]
    · intro _ h
      cases h
    · intro hnone
      cases hnone.symm.trans hwire
    · intro wire' _ _ _ _
      apply wp_commitMeta_script (wellFormed_pushed hring) <;> simp only [getD_tail]
      · rintro h₃ h₄
        rcases hk with hk | ⟨-, hk⟩
        · cases h₃.symm.trans hk
        · cases h₄.symm.trans hk
      · intro _ _ d' _
        exact congrArg (fun m => (false, { s with queueMeta := m })) hback
      · rintro k' (h₃ | ⟨h₃, h₄, -⟩)
        · rcases hk with hk | ⟨hk, -⟩ <;> cases h₃.symm.trans hk
        · rcases hk with hk | ⟨-, hk⟩
          · cases h₃.symm.trans hk
          · cases h₄.symm.trans hk
      · intro k' h₃ h₄
        rcases hk with hk | ⟨-, hk⟩
        · cases h₃.symm.trans hk
        · cases h₄.symm.trans hk
    · intro _ h
      cases h
    · intro _ _ _ h
      cases h
    · rintro _ (h | h) <;> cases h
    · intro _ _ _ _ _ h
      cases h
  obtain ⟨r, d', hrun, rfl⟩ := returns_of_wp hwp
  exact ⟨d', hrun⟩

/-- In a readable ring with room, a push keeps the queue when it fails, unless its meta is what
failed and the next id has moved. -/
theorem failed_push_keeps_iff (hready : s.readyState) (hring : s.queueMeta.Ringed)
    (hbase : d.files .data = some base) (hlive : AllLive (some base) s.queueMeta)
    (hroom : ∀ i < s.queueMeta.count.toNat,
      slotOffset (s.queueMeta.liveSlot i) ≠ slotOffset s.queueMeta.head)
    (hopen : ∀ k, d.faults.getD 0 .ok ≠ .fail k)
    (hwire : fixRecordEncode (s.stamp record) fixRecordWireSize = some wire) :
    FailureKeeps s (.push record) d ↔ (CommitFails d.faults → s.KeepsNextSeq record) := by
  have hlen : wire.length = 64 := length_of_fixRecordEncode hwire
  have hback := unpushMeta_pushMeta hring.1 (s.stamp record).sequenceId
  constructor
  · intro hkeeps hcommit
    obtain ⟨d', hrun⟩ := push_run_of_commitFails hready hring hbase hwire hcommit
    exact keepsNextSeq_iff.mpr (congrArg (·.queueMeta.nextSeq) (hkeeps _ _ hrun).1)
  · intro hkeeps
    apply FailureKeeps.of_wp
    rw [StoreCall.run, wp_bind]
    apply wp_push_script hready hbase hopen
    · intro hnone
      cases hnone.symm.trans hwire
    · intro wire' hwire' h₀ h₁ h₂
      obtain rfl : wire = wire' := Option.some.inj (hwire.symm.trans hwire')
      apply wp_commitMeta_script (wellFormed_pushed hring) <;> simp only [getD_tail]
      · intro _ _ _ _ hfailed
        cases hfailed
      · intro k hk d' htorn _
        have hseq := keepsNextSeq_iff.mp (hkeeps (commitFails_iff.mpr ⟨h₀, h₁, h₂, k, hk⟩))
        refine ⟨?_, fun max => ?_⟩
        · rw [hseq] at hback
          exact congrArg (fun m => { s with queueMeta := m }) hback
        · rw [htorn.data, hbase]
          exact (congrArg (s.shown · max) (Function.update_self StorePath.data _ d.files)).trans
            (shown_free_write hlen.le hlive hroom max)
      · exact fun _ _ _ _ => trivial
      · exact fun _ _ _ _ _ => trivial
    · exact fun _ _ _ _ => ⟨rfl, fun _ => rfl⟩
    · intro wire' hwire' k _ n _ es _
      obtain rfl : wire = wire' := Option.some.inj (hwire.symm.trans hwire')
      refine ⟨rfl, fun max => ?_⟩
      have hle : (wire.take n).length ≤ 64 := by
        rw [List.length_take, hlen]
        exact Nat.min_le_right ..
      rw [hbase]
      exact (congrArg (s.shown · max) (Function.update_self StorePath.data _ d.files)).trans
        (shown_free_write hle hlive hroom max)
    · exact fun _ _ _ => trivial
    · exact fun _ _ _ _ _ _ _ _ _ => trivial

/-- A record without an id takes the next one, so that its failed commit always leaves a trace. -/
theorem failed_new_push_keeps_iff (hready : s.readyState) (hring : s.queueMeta.Ringed)
    (hbase : d.files .data = some base) (hlive : AllLive (some base) s.queueMeta)
    (hroom : ∀ i < s.queueMeta.count.toNat,
      slotOffset (s.queueMeta.liveSlot i) ≠ slotOffset s.queueMeta.head)
    (hopen : ∀ k, d.faults.getD 0 .ok ≠ .fail k)
    (hwire : fixRecordEncode (s.stamp record) fixRecordWireSize = some wire)
    (hid : record.sequenceId = 0) :
    FailureKeeps s (.push record) d ↔ ¬ CommitFails d.faults := by
  have hmoves : ¬ s.KeepsNextSeq record := by
    rw [KeepsNextSeq, stamp, if_pos hid]
    rintro (hlt | hsucc)
    · exact absurd hlt (UInt32.lt_irrefl _)
    · simp at hsucc
  rw [failed_push_keeps_iff hready hring hbase hlive hroom hopen hwire]
  exact ⟨fun h hcommit => hmoves (h hcommit), fun h hcommit => absurd hcommit h⟩

end

/-! ## What failures keep -/

/-- In every reachable state, a push, an acknowledgement and a commit leave the meta and the records
of the next peek alone under every script that makes them fail exactly when the call is safe. -/
theorem failure_keeps_queue_iff {as : List StoreAction} {st : StoreState}
    (hrun : Run storeStep newDevice as st) (call : StoreCall) :
    (∀ faults, FailureKeeps st.store call (st.disk faults)) ↔
      call.Safe st.store ((st.files .data).getD []) := by
  have hsound : ∀ faults, st.store.readyState → st.store.Sound (st.disk faults) := by
    intro faults hready
    have hs := sound_of_run hrun hready
    exact ⟨hs.wellFormed, hs.capacity, hs.data⟩
  constructor
  · exact safe_of_failureKeeps (hsound [])
  · intro hsafe faults
    exact failureKeeps_of_safe (hsound faults) hsafe

set_option maxRecDepth 20000 in
/-- An acknowledgement with a record in the queue. -/
theorem failure_keeps_queue_ackFront : ∃ st,
    Run storeStep newDevice [.op (.begin 4) [], .op (.push someFix) []] st ∧
      ∀ faults, FailureKeeps st.store (.ackFront 1) (st.disk faults) := by
  have hfacts : (([.op (.begin 4) [], .op (.push someFix) []] : List StoreAction).foldlM storeStep
      newDevice).map (·.store.queueMeta.count) = some 1 := by
    decide +kernel
  obtain ⟨st, hrun, hcount⟩ := Option.map_eq_some_iff.mp hfacts
  refine ⟨st, hrun, (failure_keeps_queue_iff hrun _).mpr (.inr (.inr ?_))⟩
  rw [hcount]
  decide

set_option maxRecDepth 20000 in
/-- In a full ring of one record the second push writes its record over the first, and then its meta
slot does not open: the next id has moved, and a peek returns the record that was not pushed. -/
theorem failed_push_changes_queue : ∃ as st record faults s' d',
    Run storeStep newDevice as st ∧
      (StoreCall.push record).run st.store (st.disk faults) = (some (false, s'), d') ∧
      s'.queueMeta.nextSeq ≠ st.store.queueMeta.nextSeq ∧
      s'.peeked d' 1 ≠ st.store.peeked (st.disk faults) 1 ∧
      ¬ FailureKeeps st.store (.push record) (st.disk faults) := by
  let as : List StoreAction := [.op (.begin 1) [], .op (.push someFix) []]
  let faults : List Fault := [.ok, .ok, .ok, .fail 0]
  have hfacts : (as.foldlM storeStep newDevice).map (fun st =>
      let push := (StoreCall.push someFix).run st.store (st.disk faults)
      decide (st.store.queueMeta.nextSeq = 2 ∧
        st.store.peeked (st.disk faults) 1 = some [{ someFix with sequenceId := 1 }] ∧
        push.1.map (fun r => (r.1, r.2.queueMeta.nextSeq, r.2.peeked push.2 1)) =
          some (false, 3, some [{ someFix with sequenceId := 2 }]))) = some true := by
    decide +kernel
  obtain ⟨st, hrun, hst⟩ := Option.map_eq_some_iff.mp hfacts
  obtain ⟨hseq, hpeeked, hpush⟩ := of_decide_eq_true hst
  obtain ⟨⟨ok, s'⟩, hfailed, hafter⟩ := Option.map_eq_some_iff.mp hpush
  obtain ⟨rfl, hafter⟩ := Prod.mk.inj hafter
  obtain ⟨hseq', hpeeked'⟩ := Prod.mk.inj hafter
  have hmoved : s'.queueMeta.nextSeq ≠ st.store.queueMeta.nextSeq := by
    rw [hseq, hseq']
    decide
  refine ⟨as, st, someFix, faults, s', _, hrun, Prod.ext hfailed rfl, hmoved, ?_, fun hkeeps => ?_⟩
  · rw [hpeeked', hpeeked]
    decide
  · exact hmoved (congrArg (·.queueMeta.nextSeq) (hkeeps s' _ (Prod.ext hfailed rfl)).1)

end OpenGps.Firmware
