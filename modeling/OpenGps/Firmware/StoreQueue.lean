import OpenGps.Firmware.StoreMachine

/-!
# The queue a meta and a data file describe

A meta names its live slots by walking `fixQueueAdvance` from the tail; the data file holds a record
in each. This file computes what `push` and `ackFront` do to the live slots, what a record write does
to the data file, and what `peek` returns.
-/

namespace OpenGps.Firmware

open OpenGps.Lib.CrashIo

/-! ## Ring positions -/

theorem toNat_fixQueueAdvance {index capacity : UInt32} (h : index < capacity) :
    (fixQueueAdvance index capacity).toNat = (index.toNat + 1) % capacity.toNat := by
  have hlt := UInt32.lt_iff_toNat_lt.mp h
  have hcap := capacity.toNat_lt
  have hne : capacity ≠ 0 := by
    rintro rfl
    exact Nat.not_lt_zero _ hlt
  rw [fixQueueAdvance, if_neg hne, UInt32.toNat_mod, UInt32.toNat_add]
  congr 1
  exact Nat.mod_eq_of_lt (by simp; omega)

theorem fixQueueAdvance_lt {index capacity : UInt32} (h : index < capacity) :
    fixQueueAdvance index capacity < capacity := by
  rw [UInt32.lt_iff_toNat_lt, toNat_fixQueueAdvance h]
  exact Nat.mod_lt _ (Nat.zero_lt_of_lt (UInt32.lt_iff_toNat_lt.mp h))

namespace FixQueueMeta

/-- The `i`-th slot from the tail. -/
def liveSlot (m : FixQueueMeta) (i : Nat) : UInt32 :=
  (fixQueueAdvance · m.capacity)^[i] m.tail

/-- The head is where the live slots end. -/
def Ringed (m : FixQueueMeta) : Prop :=
  m.WellFormed ∧ m.head = m.liveSlot m.count.toNat

variable {m : FixQueueMeta}

theorem WellFormed.count_le (h : m.WellFormed) : m.count.toNat ≤ m.capacity.toNat :=
  UInt32.le_iff_toNat_le.mp h.2.2.2

theorem WellFormed.tail_lt (h : m.WellFormed) : m.tail.toNat < m.capacity.toNat :=
  UInt32.lt_iff_toNat_lt.mp h.2.2.1

theorem liveSlot_succ (m : FixQueueMeta) (i : Nat) :
    m.liveSlot (i + 1) = fixQueueAdvance (m.liveSlot i) m.capacity :=
  Function.iterate_succ_apply' ..

theorem WellFormed.liveSlot_lt (h : m.WellFormed) : ∀ i, m.liveSlot i < m.capacity
  | 0 => h.2.2.1
  | i + 1 => by
    rw [liveSlot_succ]
    exact fixQueueAdvance_lt (h.liveSlot_lt i)

theorem WellFormed.toNat_liveSlot (h : m.WellFormed) : ∀ i,
    (m.liveSlot i).toNat = (m.tail.toNat + i) % m.capacity.toNat
  | 0 => (Nat.mod_eq_of_lt h.tail_lt).symm
  | i + 1 => by
    rw [liveSlot_succ, toNat_fixQueueAdvance (h.liveSlot_lt i), h.toNat_liveSlot i,
      Nat.mod_add_mod, Nat.add_assoc]

theorem ringed_fresh {capacity : UInt32} (h : capacity ≠ 0) :
    (fixQueueMetaFresh capacity).Ringed := by
  have hpos := UInt32.pos_iff_ne_zero.mpr h
  exact ⟨⟨h, hpos, hpos, UInt32.le_of_lt hpos⟩, rfl⟩

end FixQueueMeta

namespace PersistentFixStore

variable {m : FixQueueMeta} {sequenceId : UInt32}

theorem isFull_iff (h : m.WellFormed) :
    fixQueueIsFull m = true ↔ m.count.toNat = m.capacity.toNat := by
  have := h.count_le
  rw [fixQueueIsFull, decide_eq_true_iff, ge_iff_le, UInt32.le_iff_toNat_le]
  omega

/-- A push into a ring that is not full adds a slot at the end. -/
theorem pushMeta_of_not_full (sequenceId : UInt32) (hfull : fixQueueIsFull m = false) :
    (pushMeta m sequenceId).tail = m.tail ∧ (pushMeta m sequenceId).count = m.count + 1 ∧
      (pushMeta m sequenceId).head = fixQueueAdvance m.head m.capacity ∧
      (pushMeta m sequenceId).lostCount = m.lostCount := by
  simp only [pushMeta, hfull, Bool.false_eq_true, if_false]
  split <;> exact ⟨rfl, rfl, rfl, rfl⟩

/-- A push into a full ring moves both ends. -/
theorem pushMeta_of_full (sequenceId : UInt32) (hfull : fixQueueIsFull m = true) :
    (pushMeta m sequenceId).tail = fixQueueAdvance m.tail m.capacity ∧
      (pushMeta m sequenceId).count = m.count ∧
      (pushMeta m sequenceId).head = fixQueueAdvance m.head m.capacity ∧
      (pushMeta m sequenceId).lostCount = m.lostCount + 1 := by
  simp only [pushMeta, hfull, if_true]
  split <;> exact ⟨rfl, rfl, rfl, rfl⟩

theorem toNat_count_succ (h : m.WellFormed) (hfull : fixQueueIsFull m = false) :
    (m.count + 1).toNat = m.count.toNat + 1 := by
  have hne : ¬ m.count.toNat = m.capacity.toNat := fun heq => by
    rw [(isFull_iff h).mpr heq] at hfull
    cases hfull
  have := h.count_le
  have := m.capacity.toNat_lt
  rw [UInt32.toNat_add]
  exact Nat.mod_eq_of_lt (by simp; omega)

/-- The live slots after a push: those that stay, then the old head. -/
theorem liveSlot_pushMeta (i : Nat) : (pushMeta m sequenceId).liveSlot i =
    if fixQueueIsFull m then m.liveSlot (i + 1) else m.liveSlot i := by
  rcases hfull : fixQueueIsFull m with _ | _
  · rw [if_neg (by simp), FixQueueMeta.liveSlot, (pushMeta_of_not_full _ hfull).1, pushMeta_capacity]
    rfl
  · rw [if_pos rfl, FixQueueMeta.liveSlot, (pushMeta_of_full _ hfull).1, pushMeta_capacity]
    rfl

theorem toNat_count_pushMeta (h : m.WellFormed) : (pushMeta m sequenceId).count.toNat =
    if fixQueueIsFull m then m.count.toNat else m.count.toNat + 1 := by
  rcases hfull : fixQueueIsFull m with _ | _
  · rw [if_neg (by simp), (pushMeta_of_not_full _ hfull).2.1, toNat_count_succ h hfull]
  · rw [if_pos rfl, (pushMeta_of_full _ hfull).2.1]

theorem ringed_pushMeta (h : m.Ringed) : (pushMeta m sequenceId).Ringed := by
  obtain ⟨hwf, hhead⟩ := h
  have hadv : (pushMeta m sequenceId).head = m.liveSlot (m.count.toNat + 1) := by
    rw [FixQueueMeta.liveSlot_succ, ← hhead]
    rcases hfull : fixQueueIsFull m with _ | _
    · exact (pushMeta_of_not_full _ hfull).2.2.1
    · exact (pushMeta_of_full _ hfull).2.2.1
  have hlive : (pushMeta m sequenceId).head =
      (pushMeta m sequenceId).liveSlot (pushMeta m sequenceId).count.toNat := by
    rw [hadv, liveSlot_pushMeta, toNat_count_pushMeta hwf]
    split <;> rfl
  refine ⟨⟨?_, ?_, ?_, ?_⟩, hlive⟩
  · rw [pushMeta_capacity]
    exact hwf.1
  · rw [hadv, pushMeta_capacity]
    exact hwf.liveSlot_lt _
  · rw [pushMeta_capacity]
    have htail : (pushMeta m sequenceId).tail = _ := liveSlot_pushMeta 0
    rw [htail]
    split <;> exact hwf.liveSlot_lt _
  · rw [UInt32.le_iff_toNat_le, toNat_count_pushMeta hwf, pushMeta_capacity]
    have hle := hwf.count_le
    split
    · exact hle
    · next hfull =>
      have : ¬ m.count.toNat = m.capacity.toNat := fun heq => hfull ((isFull_iff hwf).mpr heq)
      omega

/-- A slot that is live after a push was live before, or is the one the push wrote. -/
theorem liveSlot_pushMeta_cases (h : m.Ringed) {i : Nat}
    (hi : i < (pushMeta m sequenceId).count.toNat) :
    (pushMeta m sequenceId).liveSlot i = m.head ∨
      ∃ j < m.count.toNat, (pushMeta m sequenceId).liveSlot i = m.liveSlot j := by
  rw [toNat_count_pushMeta h.1] at hi
  rw [liveSlot_pushMeta]
  rcases hfull : fixQueueIsFull m with _ | _ <;> simp only [hfull, if_true, if_false,
    Bool.false_eq_true] at hi ⊢
  · rcases Nat.lt_succ_iff_lt_or_eq.mp hi with hlt | rfl
    · exact .inr ⟨i, hlt, rfl⟩
    · exact .inl h.2.symm
  · rcases Nat.lt_or_ge (i + 1) m.count.toNat with hlt | hge
    · exact .inr ⟨i + 1, hlt, rfl⟩
    · rw [show i + 1 = m.count.toNat by omega]
      exact .inl h.2.symm

variable {n : Nat}

theorem toNat_count_ackMeta (hn : n ≤ m.count.toNat) :
    (ackMeta m n).count.toNat = m.count.toNat - n := by
  have hlt := m.count.toNat_lt
  have hofNat : (UInt32.ofNat n).toNat = n := by
    simp only [UInt32.toNat_ofNat']
    exact Nat.mod_eq_of_lt (by omega)
  show (m.count - UInt32.ofNat n).toNat = _
  rw [UInt32.toNat_sub_of_le _ _ (by rw [UInt32.le_iff_toNat_le, hofNat]; exact hn), hofNat]

theorem liveSlot_ackMeta (i : Nat) : (ackMeta m n).liveSlot i = m.liveSlot (n + i) := by
  show (fixQueueAdvance · m.capacity)^[i] ((fixQueueAdvance · m.capacity)^[n] m.tail) = _
  rw [← Function.iterate_add_apply, Nat.add_comm]
  rfl

theorem ringed_ackMeta (h : m.Ringed) (hn : n ≤ m.count.toNat) : (ackMeta m n).Ringed := by
  refine ⟨⟨h.1.1, h.1.2.1, h.1.liveSlot_lt n, ?_⟩, ?_⟩
  · rw [UInt32.le_iff_toNat_le, toNat_count_ackMeta hn]
    exact (Nat.sub_le ..).trans h.1.count_le
  · rw [liveSlot_ackMeta, toNat_count_ackMeta hn, Nat.add_sub_cancel' hn]
    exact h.2

theorem retreat_advance {index capacity : UInt32} (h : index < capacity) :
    retreat (fixQueueAdvance index capacity) capacity = index := by
  have hlt := UInt32.lt_iff_toNat_lt.mp h
  have hcap := capacity.toNat_lt
  have hadv := toNat_fixQueueAdvance h
  rw [retreat, ← UInt32.toNat_inj]
  rcases Nat.lt_or_ge (index.toNat + 1) capacity.toNat with hlt' | hge
  · rw [Nat.mod_eq_of_lt hlt'] at hadv
    rw [if_neg (fun h0 => by rw [h0] at hadv; simp at hadv),
      UInt32.toNat_sub_of_le _ _ (by rw [UInt32.le_iff_toNat_le, hadv]; simp), hadv]
    simp
  · rw [show index.toNat + 1 = capacity.toNat by omega, Nat.mod_self] at hadv
    rw [if_pos (UInt32.toNat_inj.mp hadv),
      UInt32.toNat_sub_of_le _ _ (by rw [UInt32.le_iff_toNat_le]; simp; omega)]
    simp
    omega

/-- The rollback of an acknowledgement restores the meta. -/
theorem unackMeta_ackMeta (h : m.WellFormed) : unackMeta (ackMeta m n) n = m := by
  have htail : ∀ k, (retreat · m.capacity)^[k] (m.liveSlot k) = m.tail := by
    intro k
    induction k with
    | zero => rfl
    | succ k ih =>
      rw [FixQueueMeta.liveSlot_succ, Function.iterate_succ_apply,
        retreat_advance (h.liveSlot_lt k), ih]
  have hcount : m.count - UInt32.ofNat n + UInt32.ofNat n = m.count := by
    rw [UInt32.sub_add_cancel]
  unfold unackMeta ackMeta
  dsimp only
  rw [hcount]
  have := htail n
  unfold FixQueueMeta.liveSlot at this
  rw [this]

end PersistentFixStore

/-! ## Records in the data file -/

/-- Slot offsets are multiples of the record size, also where the product wraps. -/
theorem slotOffset_dvd (slot : UInt32) : 64 ∣ (slotOffset slot).toNat := by
  rw [slotOffset, UInt32.toNat_mul]
  exact (Nat.dvd_mod_iff (by decide)).mpr (Dvd.intro_left _ rfl)

theorem slotOffset_disjoint {slot slot' : UInt32} (h : slotOffset slot ≠ slotOffset slot') :
    (slotOffset slot).toNat + 64 ≤ (slotOffset slot').toNat ∨
      (slotOffset slot').toNat + 64 ≤ (slotOffset slot).toNat := by
  obtain ⟨a, ha⟩ := slotOffset_dvd slot
  obtain ⟨b, hb⟩ := slotOffset_dvd slot'
  have hne : (slotOffset slot).toNat ≠ (slotOffset slot').toNat := fun h' =>
    h (UInt32.toNat_inj.mp h')
  omega

/-- Up to `2 ^ 26` slots, distinct slots have distinct offsets. -/
theorem slotOffset_injective {slot slot' : UInt32} (h : slot.toNat < 2 ^ 26)
    (h' : slot'.toNat < 2 ^ 26) (heq : slotOffset slot = slotOffset slot') : slot = slot' := by
  have heq := congrArg UInt32.toNat heq
  rw [slotOffset, slotOffset, UInt32.toNat_mul, UInt32.toNat_mul] at heq
  rw [← UInt32.toNat_inj]
  simp only [UInt32.reduceToNat] at heq
  omega

theorem length_of_slotRecord {data : Option (List UInt8)} {slot : UInt32}
    (h : slotRecord data slot ≠ none) :
    (slice data (slotOffset slot).toNat fixRecordWireSize).length = fixRecordWireSize := by
  refine le_antisymm (by simp [slice]) (not_lt.mp fun hlt => h ?_)
  exact PersistentFixStore.fixRecordDecode_short hlt

/-- The slot a record was written to. -/
theorem slotRecord_written {record : FixRecord} {wire base : List UInt8} {slot slot' : UInt32}
    (hwire : fixRecordEncode record fixRecordWireSize = some wire)
    (hslot : slotOffset slot' = slotOffset slot) :
    slotRecord (some (overlay base (slotOffset slot).toNat wire)) slot' = some record := by
  have hlen : wire.length = fixRecordWireSize := length_of_fixRecordEncode hwire
  have hne : wire ≠ [] := by
    rintro rfl
    simp [fixRecordWireSize] at hlen
  rw [slotRecord, hslot, ← hlen, slice_overlay_self hne]
  exact fixRecordDecode_encode hwire

/-- A slot at another offset, whatever part of a record was stored. -/
theorem slotRecord_kept {base bs : List UInt8} {slot slot' : UInt32} (hbs : bs.length ≤ 64)
    (hslot : slotOffset slot' ≠ slotOffset slot) (hrec : slotRecord (some base) slot' ≠ none) :
    slotRecord (some (overlay base (slotOffset slot).toNat bs)) slot' =
      slotRecord (some base) slot' := by
  rw [slotRecord, slotRecord, slice_overlay_disjoint (length_of_slotRecord hrec)]
  rcases slotOffset_disjoint hslot with h | h
  · exact .inl h
  · exact .inr (by omega)

/-! ## Live records -/

/-- A filtered range in which nothing is dropped, cut in two. -/
private theorem filterMap_range_add {β : Type} {f : Nat → Option β} (n k : Nat) :
    (List.range (n + k)).filterMap f =
      (List.range n).filterMap f ++ (List.range k).filterMap fun i => f (n + i) := by
  rw [List.range_add, List.filterMap_append, List.filterMap_map]
  rfl

private theorem length_filterMap_range {β : Type} {f : Nat → Option β} :
    ∀ {n : Nat}, (∀ i < n, f i ≠ none) → ((List.range n).filterMap f).length = n
  | 0, _ => rfl
  | n + 1, h => by
    obtain ⟨b, hb⟩ := Option.ne_none_iff_exists'.mp (h n (Nat.lt_succ_self n))
    rw [filterMap_range_add, List.length_append,
      length_filterMap_range fun i hi => h i (Nat.lt_succ_of_lt hi)]
    simp [hb]

/-- Every live slot of the meta holds a record. -/
def AllLive (data : Option (List UInt8)) (m : FixQueueMeta) : Prop :=
  ∀ i < m.count.toNat, slotRecord data (m.liveSlot i) ≠ none

/-- The records of the live slots, oldest first. -/
def liveRecords (data : Option (List UInt8)) (m : FixQueueMeta) : List FixRecord :=
  (List.range m.count.toNat).filterMap fun i => slotRecord data (m.liveSlot i)

theorem liveRecords_congr {data data' : Option (List UInt8)} {m : FixQueueMeta}
    (h : ∀ i < m.count.toNat, slotRecord data' (m.liveSlot i) = slotRecord data (m.liveSlot i)) :
    liveRecords data' m = liveRecords data m :=
  List.filterMap_congr fun i hi => h i (List.mem_range.mp hi)

theorem AllLive.congr {data data' : Option (List UInt8)} {m : FixQueueMeta}
    (h : ∀ i < m.count.toNat, slotRecord data' (m.liveSlot i) = slotRecord data (m.liveSlot i))
    (hlive : AllLive data m) : AllLive data' m := by
  intro i hi
  rw [h i hi]
  exact hlive i hi

/-- The scan of readable slots returns their records. -/
theorem scan_eq {data : Option (List UInt8)} {m : FixQueueMeta} :
    ∀ {n j : Nat}, (∀ i < n, slotRecord data (m.liveSlot (j + i)) ≠ none) →
      PersistentFixStore.scan data m.capacity (m.liveSlot j) n = .records
        ((List.range n).filterMap fun i => slotRecord data (m.liveSlot (j + i)))
  | 0, _, _ => rfl
  | n + 1, j, h => by
    have h0 : slotRecord data (m.liveSlot j) ≠ none := h 0 (Nat.succ_pos n)
    have hstep : ∀ i, j + 1 + i = j + (i + 1) := fun i => by omega
    have ih := scan_eq (n := n) (j := j + 1) fun i hi => by
      rw [hstep]
      exact h (i + 1) (Nat.succ_lt_succ hi)
    obtain ⟨r, hr⟩ := Option.ne_none_iff_exists'.mp h0
    rw [PersistentFixStore.scan, if_neg (by rw [length_of_slotRecord h0]; simp), hr]
    dsimp only
    rw [← FixQueueMeta.liveSlot_succ, ih, List.range_succ_eq_map, List.filterMap_cons]
    simp only [Nat.add_zero, hr, List.filterMap_map,
      PersistentFixStore.PeekLoop.cons, hstep]
    rfl

theorem length_liveRecords {data : Option (List UInt8)} {m : FixQueueMeta}
    (hlive : AllLive data m) : (liveRecords data m).length = m.count.toNat :=
  length_filterMap_range hlive

/-- The first `n` live records and the rest. -/
theorem liveRecords_split {data : Option (List UInt8)} {m : FixQueueMeta} {n : Nat}
    (hlive : AllLive data m) (hn : n ≤ m.count.toNat) :
    (liveRecords data m).take n =
        ((List.range n).filterMap fun i => slotRecord data (m.liveSlot i)) ∧
      (liveRecords data m).drop n = ((List.range (m.count.toNat - n)).filterMap fun i =>
        slotRecord data (m.liveSlot (n + i))) := by
  have hlen : ((List.range n).filterMap fun i => slotRecord data (m.liveSlot i)).length = n :=
    length_filterMap_range fun i hi => hlive i (by omega)
  unfold liveRecords
  conv => enter [1, 1]; rw [← Nat.add_sub_cancel' hn, filterMap_range_add]
  conv => enter [2, 1]; rw [← Nat.add_sub_cancel' hn, filterMap_range_add]
  exact ⟨List.take_left' hlen, List.drop_left' hlen⟩

/-- What the scan of a prefix returns. -/
theorem scan_take {data : Option (List UInt8)} {m : FixQueueMeta} {n : Nat}
    (hlive : AllLive data m) (hn : n ≤ m.count.toNat) :
    PersistentFixStore.scan data m.capacity m.tail n = .records ((liveRecords data m).take n) := by
  have hfull : ∀ i < n, slotRecord data (m.liveSlot (0 + i)) ≠ none := fun i hi => by
    rw [Nat.zero_add]
    exact hlive i (by omega)
  have h := scan_eq hfull
  simp only [Nat.zero_add] at h
  rw [(liveRecords_split hlive hn).1]
  exact h

namespace PersistentFixStore

theorem allLive_ackMeta {data : Option (List UInt8)} {m : FixQueueMeta} {n : Nat}
    (hlive : AllLive data m) (hn : n ≤ m.count.toNat) : AllLive data (ackMeta m n) := by
  intro i hi
  rw [toNat_count_ackMeta hn] at hi
  rw [liveSlot_ackMeta]
  exact hlive (n + i) (by omega)

end PersistentFixStore

/-- A record write that hits no live slot keeps the live records, however much of it was stored. -/
theorem slotRecord_liveSlot_kept {base bs : List UInt8} {m : FixQueueMeta} {slot : UInt32}
    (hbs : bs.length ≤ 64) (hlive : AllLive (some base) m)
    (hslot : ∀ i < m.count.toNat, slotOffset (m.liveSlot i) ≠ slotOffset slot) :
    ∀ i < m.count.toNat,
      slotRecord (some (overlay base (slotOffset slot).toNat bs)) (m.liveSlot i) =
        slotRecord (some base) (m.liveSlot i) :=
  fun i hi => slotRecord_kept hbs (hslot i hi) (hlive i hi)

/-- A slot that held a record still does after a complete record write. -/
theorem slotRecord_ne_none_of_written {record : FixRecord} {wire base : List UInt8}
    {slot slot' : UInt32} (hwire : fixRecordEncode record fixRecordWireSize = some wire)
    (hrec : slotOffset slot' = slotOffset slot ∨ slotRecord (some base) slot' ≠ none) :
    slotRecord (some (overlay base (slotOffset slot).toNat wire)) slot' ≠ none := by
  by_cases hslot : slotOffset slot' = slotOffset slot
  · rw [slotRecord_written hwire hslot]
    exact Option.some_ne_none _
  · have hlen : wire.length ≤ 64 := (length_of_fixRecordEncode hwire).le
    have hrec' := hrec.resolve_left hslot
    rw [slotRecord_kept hlen hslot hrec']
    exact hrec'

/-! ## The queue as `peek` shows it -/

/-- The records in order, the next sequence id and the lost count. -/
structure LogicalQueue where
  records : List FixRecord
  nextSeq : UInt32
  lostCount : UInt32
  deriving DecidableEq

/-- What a caller finds in the store: the records a `peek` of everything returns, unless it resets
the queue. -/
def logicalQueue (s : PersistentFixStore) (d : Disk StorePath) : Option LogicalQueue :=
  match s.peek s.queueMeta.count.toNat ⟨d.files, [], d.written⟩ with
  | (some ⟨out, none, _⟩, _) => some ⟨out, s.queueMeta.nextSeq, s.queueMeta.lostCount⟩
  | _ => none

theorem logicalQueue_eq {s : PersistentFixStore} {d : Disk StorePath} (hready : s.readyState)
    (hlive : AllLive (d.files .data) s.queueMeta) :
    logicalQueue s d = some ⟨liveRecords (d.files .data) s.queueMeta, s.queueMeta.nextSeq,
      s.queueMeta.lostCount⟩ := by
  have hscan := scan_take hlive (le_refl s.queueMeta.count.toNat)
  rw [← length_liveRecords hlive, List.take_length] at hscan
  have hwp : wp (s.peek s.queueMeta.count.toNat) (fun r _ => r.resetReport = none ∧
      r.out = liveRecords (d.files .data) s.queueMeta) (fun _ => False)
      ⟨d.files, [], d.written⟩ := by
    apply PersistentFixStore.wp_peek
    · intro hidle
      have hzero : s.queueMeta.count.toNat = 0 := by
        rcases hidle with h | h | h
        · exact absurd hready h
        · exact h
        · rw [h]; rfl
      exact ⟨rfl, (List.eq_nil_of_length_eq_zero ((length_liveRecords hlive).trans hzero)).symm⟩
    · rintro out (hout | ⟨k, hk⟩) es -
      · rw [Nat.min_self, ← length_liveRecords hlive, hscan] at hout
        cases hout
        exact ⟨rfl, rfl⟩
      · cases hk
    · intro _ _ hcorrupt
      rw [Nat.min_self, ← length_liveRecords hlive, hscan] at hcorrupt
      cases hcorrupt
    · intro k hk
      cases hk
  obtain ⟨⟨out, report, s'⟩, d', hpeek, rfl, rfl⟩ := returns_of_wp hwp
  rw [logicalQueue, hpeek]

end OpenGps.Firmware
