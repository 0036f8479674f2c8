import Mathlib.Algebra.Order.Ring.Int
import OpenGps.Lib.Ring
import OpenGps.Firmware.StorePowerCut

/-!
# The store as a bounded FIFO

What the store is for: a list of at most `capacity` records that numbers what is pushed and drops
its oldest element when it is full. `Represents` relates that list to the meta and the data file,
and every call of the store returns what the list predicts, as long as the slots in use have
distinct file offsets.
-/

namespace OpenGps.Firmware

open OpenGps.Lib OpenGps.Lib.CrashIo OpenGps.Lib.Ring

/-! ## The abstract queue -/

/-- The records, oldest first, with the numbers of pushes and of dropped records so far. -/
structure Fifo where
  records : List FixRecord
  pushes : Nat
  lost : Nat
  deriving DecidableEq

namespace Fifo

def empty : Fifo := ⟨[], 0, 0⟩

/-- The record as it is queued: ids count the pushes from one. -/
def stamp (q : Fifo) (record : FixRecord) : FixRecord :=
  { record with sequenceId := UInt32.ofNat (1 + q.pushes) }

def push (capacity : Nat) (q : Fifo) (record : FixRecord) : Fifo where
  records := pushDropOldest capacity q.records (q.stamp record)
  pushes := q.pushes + 1
  lost := if q.records.length < capacity then q.lost else q.lost + 1

def ackFront (q : Fifo) (n : Nat) : Fifo := { q with records := q.records.drop n }

/-- The ids in the queue are the last ones given out, in order. -/
def Numbered (q : Fifo) : Prop :=
  q.records.length ≤ q.pushes ∧
    q.records.map (·.sequenceId.toNat) =
      List.range' (q.pushes + 1 - q.records.length) q.records.length

theorem numbered_empty : empty.Numbered := ⟨le_refl _, rfl⟩

theorem Numbered.ackFront {q : Fifo} (h : q.Numbered) (n : Nat) : (q.ackFront n).Numbered := by
  obtain ⟨hle, hids⟩ := h
  refine ⟨?_, ?_⟩
  · show (q.records.drop n).length ≤ q.pushes
    rw [List.length_drop]
    omega
  · show (q.records.drop n).map _ =
      List.range' (q.pushes + 1 - (q.records.drop n).length) (q.records.drop n).length
    rw [List.map_drop, hids, List.drop_range', List.length_drop]
    rcases Nat.le_total n q.records.length with hn | hn
    · congr 1
      omega
    · simp only [Nat.sub_eq_zero_of_le hn, List.range'_zero]

/-- Appending the next id, after dropping some from the front. -/
theorem Numbered.push {capacity : Nat} {q : Fifo} {record : FixRecord} (h : q.Numbered)
    (hpushes : q.pushes + 1 < 2 ^ 32) : (q.push capacity record).Numbered := by
  have hid : (q.stamp record).sequenceId.toNat = 1 + q.pushes := by
    show (UInt32.ofNat (1 + q.pushes)).toNat = _
    rw [UInt32.toNat_ofNat']
    exact Nat.mod_eq_of_lt (by omega)
  -- Both branches append the stamped record to a numbered list.
  have happend : ∀ n, ((q.ackFront n).records ++ [q.stamp record]).length ≤ q.pushes + 1 ∧
      ((q.ackFront n).records ++ [q.stamp record]).map (·.sequenceId.toNat) =
        List.range' (q.pushes + 1 + 1 - ((q.ackFront n).records ++ [q.stamp record]).length)
          ((q.ackFront n).records ++ [q.stamp record]).length := by
    intro n
    obtain ⟨hle, hids⟩ := h.ackFront n
    have hle : (q.ackFront n).records.length ≤ q.pushes := hle
    have hids : (q.ackFront n).records.map (·.sequenceId.toNat) =
      List.range' (q.pushes + 1 - (q.ackFront n).records.length) _ := hids
    rw [List.length_append, List.length_singleton, List.map_append, hids, List.range'_concat]
    refine ⟨by omega, ?_⟩
    rw [show q.pushes + 1 + 1 - ((q.ackFront n).records.length + 1) =
      q.pushes + 1 - (q.ackFront n).records.length by omega]
    congr 1
    rw [List.map_singleton, hid]
    congr 1
    omega
  by_cases hroom : q.records.length < capacity
  · have := happend 0
    simpa [Numbered, Fifo.push, pushDropOldest, hroom, Fifo.ackFront] using this
  · have := happend 1
    simpa [Numbered, Fifo.push, pushDropOldest, hroom, Fifo.ackFront] using this

/-- A push into a queue with room leaves the oldest record in front. -/
theorem Numbered.front_push {capacity : Nat} {q : Fifo} (h : q.Numbered)
    (hpos : 0 < q.records.length) (hroom : q.records.length < capacity) (record : FixRecord) :
    ((q.push capacity record).records.take 1).map (·.sequenceId.toNat) =
      [q.pushes + 1 - q.records.length] := by
  have hrecords : (q.push capacity record).records = q.records ++ [q.stamp record] := if_pos hroom
  rw [hrecords, List.take_append_of_le_length hpos, List.map_take, h.2]
  obtain ⟨n, hn⟩ := Nat.exists_eq_succ_of_ne_zero hpos.ne'
  rw [hn, List.range'_succ, List.take_succ_cons, List.take_zero]

end Fifo

/-! ## Calls and replies -/

inductive QueueCall where
  | push (record : FixRecord)
  | peek (max : Nat)
  | ackFront (count : Nat)
  deriving DecidableEq

/-- What the caller gets back. -/
inductive QueueReply where
  | pushed (ok : Bool) (record : FixRecord)
  | peeked (out : List FixRecord)
  | removed (count : Nat)
  deriving DecidableEq

def QueueCall.run (s : PersistentFixStore) : QueueCall → StoreIo (QueueReply × PersistentFixStore)
  | .push record => do
    let r ← s.push record
    return (.pushed r.1 r.2.2, r.2.1)
  | .peek max => do
    let r ← s.peek max
    return (.peeked r.out, r.store)
  | .ackFront count => do
    let r ← s.ackFront count
    return (.removed r.1, r.2)

def runCalls : List QueueCall → PersistentFixStore → StoreIo (List QueueReply × PersistentFixStore)
  | [], s => return ([], s)
  | call :: calls, s => do
    let (reply, s) ← call.run s
    let (replies, s) ← runCalls calls s
    return (reply :: replies, s)

/-- The reply and the next state of the abstract queue. -/
def QueueCall.spec (capacity : Nat) (q : Fifo) : QueueCall → QueueReply × Fifo
  | .push record => (.pushed true (q.stamp record), q.push capacity record)
  | .peek max => (.peeked (q.records.take max), q)
  | .ackFront count => (.removed (min count q.records.length), q.ackFront count)

def runSpec (capacity : Nat) : List QueueCall → Fifo → List QueueReply × Fifo
  | [], q => ([], q)
  | call :: calls, q =>
    let rest := runSpec capacity calls (call.spec capacity q).2
    ((call.spec capacity q).1 :: rest.1, rest.2)

/-- A record as the main loop submits it: no id yet, and a terminated timestamp. -/
def QueueCall.Submitted : QueueCall → Prop
  | .push record => record.sequenceId = 0 ∧ getElem record.recordedAt 20 fixTimestampEnd = 0
  | _ => True

def QueueCall.pushes : QueueCall → Nat
  | .push _ => 1
  | _ => 0

/-! ## The representation -/

/-- The cells of the data file up to the offset at which the seek argument wraps. -/
def cells (data : Option (List UInt8)) (k : Nat) : Option FixRecord :=
  if k < 2 ^ 26 then slotRecord data (UInt32.ofNat k) else none

/-- The ready object and its data file hold the abstract queue; the remaining file operations
complete. -/
structure Holds (cap : Nat) (q : Fifo) (s : PersistentFixStore) (d : Disk StorePath) : Prop where
  ready : s.readyState
  ringed : s.queueMeta.Ringed
  capacity : s.queueMeta.capacity.toNat = cap
  count : s.queueMeta.count.toNat = q.records.length
  layout : Represents (cells (d.files .data)) cap s.queueMeta.tail.toNat q.records
  nextSeq : s.queueMeta.nextSeq = UInt32.ofNat (1 + q.pushes)
  lost : s.queueMeta.lostCount = UInt32.ofNat q.lost
  head : s.queueMeta.head.toNat = q.pushes % cap
  data : (d.files .data).isSome
  faults : d.faults = []

section
variable {cap : Nat} {q : Fifo} {s : PersistentFixStore} {d d' : Disk StorePath}

theorem cells_eq_some {data : Option (List UInt8)} {k : Nat} {r : FixRecord}
    (h : cells data k = some r) : k < 2 ^ 26 ∧ slotRecord data (UInt32.ofNat k) = some r := by
  unfold cells at h
  split at h
  · next hk => exact ⟨hk, h⟩
  · cases h

theorem Holds.liveSlot (h : Holds cap q s d) {i : Nat} (hi : i < q.records.length) :
    slotRecord (d.files .data) (s.queueMeta.liveSlot i) = some q.records[i] := by
  have hget := h.layout.get i hi
  rw [← h.capacity, ← h.ringed.1.toNat_liveSlot] at hget
  have hrec := (cells_eq_some hget).2
  rw [UInt32.ofNat_toNat] at hrec
  exact hrec

theorem Holds.allLive (h : Holds cap q s d) : AllLive (d.files .data) s.queueMeta := by
  intro i hi
  rw [h.count] at hi
  rw [h.liveSlot hi]
  exact Option.some_ne_none _

private theorem filterMap_getElem? {β : Type} :
    ∀ xs : List β, (List.range xs.length).filterMap (fun i => xs[i]?) = xs
  | [] => rfl
  | x :: xs => by
    have ih := filterMap_getElem? xs
    rw [List.length_cons, List.range_succ_eq_map]
    simp only [List.filterMap_cons, List.getElem?_cons_zero, List.filterMap_map]
    exact congrArg (x :: ·) ih

/-- The live records of the meta are the abstract queue. -/
theorem Holds.liveRecords (h : Holds cap q s d) :
    liveRecords (d.files .data) s.queueMeta = q.records := by
  have hmap : ∀ i ∈ List.range q.records.length,
      slotRecord (d.files .data) (s.queueMeta.liveSlot i) = q.records[i]? := by
    intro i hi
    have hi := List.mem_range.mp hi
    rw [h.liveSlot hi, List.getElem?_eq_getElem hi]
  rw [Firmware.liveRecords, h.count, List.filterMap_congr hmap, filterMap_getElem?]

/-- The head is the first free cell. -/
theorem Holds.head_eq (h : Holds cap q s d) :
    s.queueMeta.head.toNat = (s.queueMeta.tail.toNat + q.records.length) % cap := by
  rw [h.ringed.2, h.ringed.1.toNat_liveSlot, h.capacity, h.count]

/-! ## One call -/

theorem Holds.peek (h : Holds cap q s d) (max : Nat) :
    wp (s.peek max) (fun r d' => r.out = q.records.take max ∧ Holds cap q r.store d')
      (fun _ => False) d := by
  have hscan := scan_take h.allLive (Nat.min_le_left s.queueMeta.count.toNat max)
  have htake : q.records.take (min q.records.length max) = q.records.take max := by
    rw [List.take_eq_take_iff, Nat.min_comm q.records.length max, Nat.min_assoc, Nat.min_self]
  rw [h.liveRecords, h.count, htake] at hscan
  have hnofault : ∀ {e : Fault}, e ∉ d.faults := by
    intro e he
    rw [h.faults] at he
    cases he
  apply PersistentFixStore.wp_peek
  · rintro (hnot | hmax | hcount)
    · exact absurd h.ready hnot
    · exact ⟨by rw [hmax, List.take_zero], h⟩
    · have hlen := h.count
      rw [hcount] at hlen
      rw [List.eq_nil_of_length_eq_zero hlen.symm]
      exact ⟨List.take_nil.symm, h⟩
  · intro out hout es hes
    obtain rfl : es = [] := List.subset_nil.mp (h.faults ▸ hes)
    refine ⟨?_, ⟨h.ready, h.ringed, h.capacity, h.count, h.layout, h.nextSeq, h.lost, h.head, h.data,
      rfl⟩⟩
    rcases hout with hout | ⟨k, hk⟩
    · rw [h.count, hscan] at hout
      cases hout
      rfl
    · exact absurd hk hnofault
  · intro _ _ hcorrupt
    rw [h.count, hscan] at hcorrupt
    cases hcorrupt
  · intro k hk
    exact absurd hk hnofault

theorem Holds.ackFront (h : Holds cap q s d) (count : Nat) :
    wp (s.ackFront count) (fun r d' => r.1 = min count q.records.length ∧
      Holds cap (q.ackFront count) r.2 d') (fun _ => False) d := by
  apply PersistentFixStore.wp_ackFront
  · rintro (hnot | hzero)
    · exact absurd h.ready hnot
    · rw [hzero, Nat.zero_min]
      exact ⟨rfl, h⟩
  · intro _ _
    have hle : min count s.queueMeta.count.toNat ≤ s.queueMeta.count.toNat := Nat.min_le_right ..
    have hringed : (s.acked count).queueMeta.Ringed :=
      PersistentFixStore.ringed_ackMeta h.ringed hle
    have hwf : (s.acked count).nextMeta.WellFormed := hringed.1
    apply PersistentFixStore.wp_commitMeta_complete h.faults hwf
    intro d' hpub hfaults
    refine ⟨?_, h.ready, hringed, h.capacity, ?_, ?_, h.nextSeq, h.lost, h.head, ?_, hfaults⟩
    · show min count s.queueMeta.count.toNat = _
      rw [h.count]
    · show (s.acked count).queueMeta.count.toNat = (q.records.drop count).length
      rw [PersistentFixStore.acked, PersistentFixStore.toNat_count_ackMeta hle, h.count,
        List.length_drop]
      omega
    · have htail : (s.acked count).queueMeta.tail.toNat =
          (s.queueMeta.tail.toNat + min count q.records.length) % cap := by
        rw [← h.capacity, ← h.count]
        exact h.ringed.1.toNat_liveSlot _
      have hdrop : q.records.drop count = q.records.drop (min count q.records.length) := by
        rcases Nat.le_total count q.records.length with hle | hle
        · rw [Nat.min_eq_left hle]
        · rw [Nat.min_eq_right hle, List.drop_length, List.drop_eq_nil_of_le hle]
      show Represents (cells (d'.files .data)) cap (s.acked count).queueMeta.tail.toNat
        (q.records.drop count)
      rw [hpub.data, htail, hdrop]
      exact h.layout.drop _
    · rw [hpub.data]
      exact h.data

/-- The stamp is the number of the push. -/
theorem Holds.stamp_eq (h : Holds cap q s d) {record : FixRecord} (hzero : record.sequenceId = 0) :
    s.stamp record = q.stamp record := by
  rw [PersistentFixStore.stamp, if_pos hzero, h.nextSeq]
  rfl

/-- What the record write does to the cells. -/
theorem cells_written {record : FixRecord} {wire : List UInt8} {slot : UInt32}
    (base : List UInt8) (hwire : fixRecordEncode record fixRecordWireSize = some wire)
    (hslot : slot.toNat < 2 ^ 26) :
    cells (some (overlay base (slotOffset slot).toNat wire)) slot.toNat = some record ∧
      ∀ k y, k ≠ slot.toNat → cells (some base) k = some y →
        cells (some (overlay base (slotOffset slot).toNat wire)) k = some y := by
  refine ⟨?_, fun k y hk hy => ?_⟩
  · rw [cells, if_pos hslot, UInt32.ofNat_toNat]
    exact slotRecord_written hwire rfl
  · obtain ⟨hlt, hrec⟩ := cells_eq_some hy
    have hkNat : (UInt32.ofNat k).toNat = k := by
      rw [UInt32.toNat_ofNat']
      exact Nat.mod_eq_of_lt (by omega)
    have hoffset : slotOffset (UInt32.ofNat k) ≠ slotOffset slot := by
      intro heq
      have := slotOffset_injective (by rw [hkNat]; exact hlt) hslot heq
      exact hk (by rw [← this, hkNat])
    have hlen : wire.length ≤ 64 := (length_of_fixRecordEncode hwire).le
    rw [cells, if_pos hlt, slotRecord_kept hlen hoffset (by rw [hrec]; exact Option.some_ne_none _)]
    exact hrec

/-- The meta of a push that was published over the data file with the new record. -/
theorem Holds.pushed (h : Holds cap q s d) {record : FixRecord} (hzero : record.sequenceId = 0)
    (hringed : (s.pushed record).queueMeta.Ringed) {base data : List UInt8}
    (hbase : d.files .data = some base) (hdata : d'.files .data = some data)
    (hnew : cells (some data) s.queueMeta.head.toNat = some (q.stamp record))
    (hold : ∀ k y, k ≠ s.queueMeta.head.toNat → cells (some base) k = some y →
      cells (some data) k = some y) (hfaults : d'.faults = []) :
    Holds cap (q.push cap record) (s.pushed record).committed d' := by
  have hwf := h.ringed.1
  have hcapPos : 0 < cap := by
    rw [← h.capacity]
    exact Nat.zero_lt_of_lt hwf.tail_lt
  have hlayout := h.layout
  rw [hbase] at hlayout
  have hheadLt : s.queueMeta.head < s.queueMeta.capacity := hwf.2.1
  have hid : (s.stamp record).sequenceId = s.queueMeta.nextSeq := by
    rw [PersistentFixStore.stamp, if_pos hzero]
  have hnext : (s.pushed record).queueMeta.nextSeq = UInt32.ofNat (1 + (q.pushes + 1)) := by
    rw [PersistentFixStore.pushed, PersistentFixStore.pushMeta_nextSeq, hid,
      if_pos (UInt32.le_refl _), h.nextSeq, ← Nat.add_assoc, UInt32.ofNat_add (1 + q.pushes) 1]
    rfl
  have hhead : ∀ head, head = fixQueueAdvance s.queueMeta.head s.queueMeta.capacity →
      head.toNat = (q.pushes + 1) % cap := by
    rintro _ rfl
    rw [toNat_fixQueueAdvance hheadLt, h.capacity, h.head, Nat.mod_add_mod]
  have hcapacity : (s.pushed record).queueMeta.capacity.toNat = cap := by
    rw [PersistentFixStore.pushed, PersistentFixStore.pushMeta_capacity, h.capacity]
  have hsome : (d'.files .data).isSome := by
    rw [hdata]
    rfl
  have hfullIff := PersistentFixStore.isFull_iff hwf
  rw [h.count, h.capacity] at hfullIff
  have hcount : (s.pushed record).queueMeta.count.toNat = _ :=
    PersistentFixStore.toNat_count_pushMeta hwf
  rcases hfull : fixQueueIsFull s.queueMeta with _ | _
  · -- A slot is free: the tail stays where it is.
    have hroom : q.records.length < cap :=
      lt_of_le_of_ne h.layout.length_le fun heq => by
        rw [hfullIff.mpr heq] at hfull
        cases hfull
    obtain ⟨htail, -, hadv, hlost⟩ :=
      PersistentFixStore.pushMeta_of_not_full (s.stamp record).sequenceId hfull
    rw [hfull, if_neg (by simp), h.count] at hcount
    have hrecords : (q.push cap record).records = q.records ++ [q.stamp record] := if_pos hroom
    refine ⟨h.ready, hringed, hcapacity, ?_, ?_, hnext, ?_, hhead _ hadv, hsome, hfaults⟩
    · rw [hrecords, List.length_append]
      exact hcount
    · rw [hdata, hrecords]
      show Represents _ cap (s.pushed record).queueMeta.tail.toNat _
      rw [show (s.pushed record).queueMeta.tail = s.queueMeta.tail from htail]
      rw [h.head_eq] at hnew hold
      exact hlayout.push hroom hnew hold
    · show (s.pushed record).queueMeta.lostCount = _
      rw [show (s.pushed record).queueMeta.lostCount = s.queueMeta.lostCount from hlost, h.lost]
      exact congrArg UInt32.ofNat (if_pos hroom).symm
  · -- The ring is full: the record goes over the oldest one.
    have hlen : q.records.length = cap := hfullIff.mp hfull
    have hroom : ¬ q.records.length < cap := by omega
    obtain ⟨htail, -, hadv, hlost⟩ :=
      PersistentFixStore.pushMeta_of_full (s.stamp record).sequenceId hfull
    rw [hfull, if_pos rfl, h.count] at hcount
    have hrecords : (q.push cap record).records = q.records.drop 1 ++ [q.stamp record] :=
      if_neg hroom
    have hheadTail : s.queueMeta.head.toNat = s.queueMeta.tail.toNat := by
      rw [h.head_eq, hlen, Nat.add_mod_right, Nat.mod_eq_of_lt (h.capacity ▸ hwf.tail_lt)]
    refine ⟨h.ready, hringed, hcapacity, ?_, ?_, hnext, ?_, hhead _ hadv, hsome, hfaults⟩
    · rw [hrecords, List.length_append, List.length_drop, List.length_singleton]
      show (s.pushed record).queueMeta.count.toNat = _
      omega
    · rw [hdata, hrecords]
      have htailNat : (s.pushed record).queueMeta.tail.toNat = (s.queueMeta.tail.toNat + 1) % cap := by
        rw [show (s.pushed record).queueMeta.tail = _ from htail, toNat_fixQueueAdvance hwf.2.2.1,
          h.capacity]
      show Represents _ cap (s.pushed record).queueMeta.tail.toNat _
      rw [htailNat]
      rw [hheadTail] at hnew hold
      exact hlayout.pushFull hcapPos (h.capacity ▸ hwf.tail_lt) hlen hnew hold
    · show (s.pushed record).queueMeta.lostCount = _
      rw [show (s.pushed record).queueMeta.lostCount = s.queueMeta.lostCount + 1 from hlost, h.lost,
        show (q.push cap record).lost = q.lost + 1 from if_neg hroom, UInt32.ofNat_add]
      rfl

theorem Holds.push (h : Holds cap q s d) {record : FixRecord} (hzero : record.sequenceId = 0)
    (hnul : getElem record.recordedAt 20 fixTimestampEnd = 0)
    (hfit : cap ≤ 2 ^ 26 ∨ q.pushes < 2 ^ 26) :
    wp (s.push record) (fun r d' => r.1 = true ∧ r.2.2 = q.stamp record ∧
      Holds cap (q.push cap record) r.2.1 d') (fun _ => False) d := by
  have hnofault : ∀ {e : Fault}, e ∉ d.faults := by
    intro e he
    rw [h.faults] at he
    cases he
  have hstamp := h.stamp_eq hzero
  have hcapPos : 0 < cap := by
    rw [← h.capacity]
    exact Nat.zero_lt_of_lt h.ringed.1.tail_lt
  have hhead : s.queueMeta.head.toNat < 2 ^ 26 := by
    rw [h.head]
    rcases hfit with hcap | hpushes
    · exact lt_of_lt_of_le (Nat.mod_lt _ hcapPos) hcap
    · exact lt_of_le_of_lt (Nat.mod_le ..) hpushes
  apply PersistentFixStore.wp_push
  · intro hnot
    exact absurd h.ready hnot
  · rintro _ d' _ _ (⟨k, hk⟩ | ⟨hnone, -⟩)
    · exact absurd hk hnofault
    · have hsome := fixRecordEncode_eq_some.mpr ⟨le_refl 64, (show (s.stamp record).recordedAt[20] = 0
        by rw [hstamp]; exact hnul), rfl⟩
      rw [fixRecordWireSize] at hnone
      rw [hnone] at hsome
      cases hsome
  · intro _ wire hwire d₁ hwritten hsub
    obtain ⟨base, hbase, hdata⟩ := hwritten.data
    have hbase : d.files .data = some base := by
      rcases hbase with hsome | ⟨-, hnone | ⟨k, hk⟩⟩
      · exact hsome
      · have := h.data
        rw [hnone] at this
        cases this
      · exact absurd hk hnofault
    have hfaults₁ : d₁.faults = [] := List.subset_nil.mp (h.faults ▸ hsub)
    obtain ⟨hnew, hold⟩ := cells_written base hwire hhead
    rw [hstamp] at hnew
    have hringed : (s.pushed record).queueMeta.Ringed :=
      PersistentFixStore.ringed_pushMeta h.ringed
    have hwf : (s.pushed record).nextMeta.WellFormed := hringed.1
    apply PersistentFixStore.wp_commitMeta_complete hfaults₁ hwf
    intro d' hpub hfaults
    refine ⟨rfl, hstamp, ?_⟩
    exact h.pushed hzero hringed hbase (hpub.data.trans hdata) hnew hold hfaults
  · intro _ k hk
    exact absurd hk hnofault

/-- One call replies what the abstract queue predicts, and keeps the representation. -/
theorem Holds.call (h : Holds cap q s d) {call : QueueCall} (hsub : call.Submitted)
    (hfit : cap ≤ 2 ^ 26 ∨ q.pushes + call.pushes ≤ 2 ^ 26) :
    wp (call.run s) (fun r d' => r.1 = (call.spec cap q).1 ∧ Holds cap (call.spec cap q).2 r.2 d')
      (fun _ => False) d := by
  cases call with
  | push record =>
    rw [QueueCall.run, wp_bind]
    refine wp_mono (h.push hsub.1 hsub.2 (hfit.imp id fun hle => ?_)) ?_ (fun _ h => h)
    · exact Nat.lt_of_succ_le hle
    · rintro ⟨ok, s', record'⟩ d' ⟨hok, hrecord, hholds⟩
      exact ⟨by rw [hok, hrecord]; rfl, hholds⟩
  | peek max =>
    rw [QueueCall.run, wp_bind]
    exact wp_mono (h.peek max) (fun r d' hr => ⟨congrArg _ hr.1, hr.2⟩) (fun _ h => h)
  | ackFront count =>
    rw [QueueCall.run, wp_bind]
    exact wp_mono (h.ackFront count) (fun r d' hr => ⟨congrArg _ hr.1, hr.2⟩) (fun _ h => h)

end

/-! ## Sequences of calls -/

def pushCount (calls : List QueueCall) : Nat := (calls.map QueueCall.pushes).sum

theorem Holds.calls {cap : Nat} : ∀ {calls : List QueueCall} {q : Fifo} {s : PersistentFixStore}
    {d : Disk StorePath}, Holds cap q s d → (∀ call ∈ calls, call.Submitted) →
    (cap ≤ 2 ^ 26 ∨ q.pushes + pushCount calls ≤ 2 ^ 26) →
    wp (runCalls calls s) (fun r d' => r.1 = (runSpec cap calls q).1 ∧
      Holds cap (runSpec cap calls q).2 r.2 d') (fun _ => False) d
  | [], q, s, d, h, _, _ => ⟨rfl, h⟩
  | call :: calls, q, s, d, h, hsub, hfit => by
    have hpushes : (call.spec cap q).2.pushes = q.pushes + call.pushes := by cases call <;> rfl
    have hcount : pushCount (call :: calls) = call.pushes + pushCount calls := rfl
    rw [runCalls, wp_bind]
    refine wp_mono (h.call (hsub call List.mem_cons_self) (hfit.imp id fun hle => ?_)) ?_
      (fun _ h => h)
    · omega
    · rintro ⟨reply, s'⟩ d' ⟨hreply, h'⟩
      dsimp only
      rw [wp_bind]
      refine wp_mono (Holds.calls h' (fun c hc => hsub c (List.mem_cons_of_mem _ hc))
        (hfit.imp id fun hle => ?_)) ?_ (fun _ h => h)
      · omega
      · rintro ⟨replies, s''⟩ d'' ⟨hreplies, h''⟩
        exact ⟨congrArg₂ List.cons hreply hreplies, h''⟩

theorem pushes_runSpec (cap : Nat) : ∀ (calls : List QueueCall) (q : Fifo),
    (runSpec cap calls q).2.pushes = q.pushes + pushCount calls
  | [], _ => rfl
  | call :: calls, q => by
    have hpushes : (call.spec cap q).2.pushes = q.pushes + call.pushes := by cases call <;> rfl
    have hcount : pushCount (call :: calls) = call.pushes + pushCount calls := rfl
    rw [runSpec, pushes_runSpec cap calls, hpushes, hcount, Nat.add_assoc]

/-- The ids stay numbered, and no more records are dropped than were pushed. -/
theorem numbered_runSpec (cap : Nat) : ∀ (calls : List QueueCall) (q : Fifo),
    q.Numbered → q.lost ≤ q.pushes → q.pushes + pushCount calls < 2 ^ 32 →
    (runSpec cap calls q).2.Numbered ∧ (runSpec cap calls q).2.lost ≤ (runSpec cap calls q).2.pushes
  | [], _, h, hlost, _ => ⟨h, hlost⟩
  | call :: calls, q, h, hlost, hlt => by
    have hcount : pushCount (call :: calls) = call.pushes + pushCount calls := rfl
    rw [hcount, ← Nat.add_assoc] at hlt
    cases call with
    | push record =>
      refine numbered_runSpec cap calls _ (h.push ?_) ?_ hlt
      · have : QueueCall.pushes (.push record) = 1 := rfl
        omega
      · show (if q.records.length < cap then q.lost else q.lost + 1) ≤ q.pushes + 1
        split <;> omega
    | peek max => exact numbered_runSpec cap calls q h hlost hlt
    | ackFront count => exact numbered_runSpec cap calls _ (h.ackFront count) hlost hlt

/-- A boot on flash without a queue holds the empty one. -/
theorem Holds.of_begin {st : StoreState} {capacity : UInt32} (hblank : st.Blank)
    (hcap : capacity ≠ 0) :
    wp (PersistentFixStore.init.begin capacity) (fun r d => r.ok = true ∧
      Holds capacity.toNat .empty r.store d) (fun _ => False) (st.disk []) := by
  have hnone : fixQueueMetaPick (slotMeta st.files .a) (slotMeta st.files .b) = none := by
    rw [hblank.slots, hblank.slots]
    rfl
  apply PersistentFixStore.wp_begin_complete rfl hcap
  apply PersistentFixStore.wp_recoverFrom rfl
  · intro _
    apply PersistentFixStore.wp_commitMeta_complete rfl (PersistentFixStore.fresh_wellFormed hcap)
    intro d₁ _ hfaults₁
    apply PersistentFixStore.wp_finish_complete hfaults₁ rfl
    intro d₂ hfaults₂ hsome _
    apply PersistentFixStore.wp_probeFront
    · intro _
      refine ⟨rfl, rfl, FixQueueMeta.ringed_fresh hcap, rfl, rfl, .nil, rfl, rfl, ?_, hsome,
        hfaults₂⟩
      exact (Nat.zero_mod _).symm
    · intro hne
      exact absurd rfl hne
    · intro hne
      exact absurd rfl hne
    · rfl
    · intro k hk
      rw [hfaults₂] at hk
      cases hk
  · intro m hm
    cases hnone.symm.trans hm

/-- The counters and the positions of the object, for the abstract queue it holds. -/
structure Agrees (q : Fifo) (s : PersistentFixStore) : Prop where
  count : s.queueMeta.count.toNat = q.records.length
  nextSeq : s.queueMeta.nextSeq.toNat = (1 + q.pushes) % 2 ^ 32
  lost : s.queueMeta.lostCount.toNat = q.lost
  head : s.queueMeta.head.toNat =
    (s.queueMeta.tail.toNat + s.queueMeta.count.toNat) % s.queueMeta.capacity.toNat
  numbered : q.Numbered

theorem Holds.agrees {cap : Nat} {q : Fifo} {s : PersistentFixStore} {d : Disk StorePath}
    (h : Holds cap q s d) (hq : q.Numbered) (hlost : q.lost ≤ q.pushes)
    (hpushes : q.pushes < 2 ^ 32) : Agrees q s where
  count := h.count
  nextSeq := by rw [h.nextSeq, UInt32.toNat_ofNat']
  lost := by
    rw [h.lost, UInt32.toNat_ofNat']
    exact Nat.mod_eq_of_lt (by omega)
  head := by rw [h.head_eq, h.count, h.capacity]
  numbered := hq

/-- From a fresh boot, with file operations that complete, every sequence of calls gets the replies
of the bounded drop-oldest queue, and the object agrees with it at the end. -/
theorem store_refines_fifo {st : StoreState} {capacity : UInt32} {calls : List QueueCall}
    (hblank : st.Blank) (hcap : capacity ≠ 0) (hsub : ∀ call ∈ calls, call.Submitted)
    (hpushes : pushCount calls < 2 ^ 32)
    (hfit : capacity.toNat ≤ 2 ^ 26 ∨ pushCount calls ≤ 2 ^ 26) :
    ∃ r d₀ s d, PersistentFixStore.init.begin capacity (st.disk []) = (some r, d₀) ∧ r.ok = true ∧
      runCalls calls r.store d₀ = (some ((runSpec capacity.toNat calls .empty).1, s), d) ∧
      Agrees (runSpec capacity.toNat calls .empty).2 s ∧
      (runSpec capacity.toNat calls .empty).2.pushes = pushCount calls := by
  obtain ⟨r, d₀, hbegin, hok, h₀⟩ := returns_of_wp (Holds.of_begin hblank hcap)
  have hfit₀ : capacity.toNat ≤ 2 ^ 26 ∨ Fifo.empty.pushes + pushCount calls ≤ 2 ^ 26 :=
    hfit.imp id fun hle => (Nat.zero_add _).le.trans hle
  obtain ⟨⟨replies, s⟩, d, hrun, hreplies, h⟩ := returns_of_wp (h₀.calls hsub hfit₀)
  have hcount := pushes_runSpec capacity.toNat calls .empty
  rw [show Fifo.empty.pushes = 0 from rfl, Nat.zero_add] at hcount
  obtain ⟨hnumbered, hlost⟩ := numbered_runSpec capacity.toNat calls .empty
    Fifo.numbered_empty (le_refl _) (by rw [show Fifo.empty.pushes = 0 from rfl]; omega)
  refine ⟨r, d₀, s, d, hbegin, hok, ?_, h.agrees hnumbered hlost (hcount ▸ hpushes), hcount⟩
  rw [hrun]
  exact congrArg (fun x => (some (x, s), d)) hreplies

/-- Three pushes into a ring of two, a peek of more than there is, and a partial
acknowledgement. -/
theorem store_refines_fifo_wrapping :
    let calls : List QueueCall :=
      [.push someFix, .push someFix, .push someFix, .peek 5, .ackFront 1]
    ∃ r d₀ s d, PersistentFixStore.init.begin 2 (newDevice.disk []) = (some r, d₀) ∧
      r.ok = true ∧ runCalls calls r.store d₀ = (some ((runSpec 2 calls .empty).1, s), d) ∧
      Agrees (runSpec 2 calls .empty).2 s ∧ (runSpec 2 calls .empty).2.pushes = 3 := by
  intro calls
  have hsub : ∀ call ∈ calls, call.Submitted := by
    simp [calls, QueueCall.Submitted, someFix]
  exact store_refines_fifo newDevice_blank (by decide) hsub (by decide) (.inl (by decide))

/-! ## Where the offsets and the ids wrap -/

theorem wp_runCalls_append {C : Disk StorePath → Prop} {later : List QueueCall} :
    ∀ {calls : List QueueCall} {s : PersistentFixStore} {d : Disk StorePath}
      {Q : List QueueReply × PersistentFixStore → Disk StorePath → Prop},
    wp (runCalls calls s) (fun r d' =>
      wp (runCalls later r.2) (fun r' d'' => Q (r.1 ++ r'.1, r'.2) d'') C d') C d →
    wp (runCalls (calls ++ later) s) Q C d
  | [], _, _, _, h => h
  | call :: calls, s, d, Q, h => by
    rw [runCalls, wp_bind] at h
    rw [List.cons_append, runCalls, wp_bind]
    refine wp_mono h ?_ (fun _ h => h)
    rintro ⟨reply, s'⟩ d' h'
    dsimp only at h' ⊢
    rw [wp_bind] at h' ⊢
    exact wp_runCalls_append h'

/-- Pushes into a ring with room only append. -/
theorem records_runSpec_push {cap : Nat} {record : FixRecord} : ∀ {n : Nat} {q : Fifo},
    q.records.length + n ≤ cap →
    (runSpec cap (List.replicate n (.push record)) q).2.records.length = q.records.length + n
  | 0, _, _ => rfl
  | n + 1, q, h => by
    have hroom : (q.push cap record).records = q.records ++ [q.stamp record] :=
      if_pos (by omega)
    have hlen : (q.push cap record).records.length = q.records.length + 1 := by
      rw [hroom, List.length_append, List.length_singleton]
    rw [List.replicate_succ, runSpec]
    show (runSpec cap (List.replicate n (.push record)) (q.push cap record)).2.records.length = _
    rw [records_runSpec_push (by omega), hlen]
    omega

theorem runSpec_append (cap : Nat) (later : List QueueCall) : ∀ (calls : List QueueCall) (q : Fifo),
    (runSpec cap (calls ++ later) q).1 =
      (runSpec cap calls q).1 ++ (runSpec cap later (runSpec cap calls q).2).1
  | [], _ => rfl
  | call :: calls, q => congrArg ((call.spec cap q).1 :: ·) (runSpec_append cap later calls _)

theorem pushCount_append (calls later : List QueueCall) :
    pushCount (calls ++ later) = pushCount calls + pushCount later := by
  rw [pushCount, List.map_append, List.sum_append]
  rfl

theorem pushCount_replicate (n : Nat) (record : FixRecord) :
    pushCount (List.replicate n (.push record)) = n := by
  rw [pushCount, List.map_replicate, List.sum_replicate]
  simp [QueueCall.pushes]

theorem submitted_replicate (n : Nat) :
    ∀ call ∈ List.replicate n (QueueCall.push someFix), call.Submitted := by
  intro call hcall
  rw [List.eq_of_mem_replicate hcall]
  exact ⟨rfl, rfl⟩

/-- The push that writes slot `2 ^ 26` of a larger ring writes slot 0, whose record is still the
oldest one: the next peek returns the newest record first. -/
theorem Holds.push_aliased {q : Fifo} {s : PersistentFixStore} {d : Disk StorePath}
    (h : Holds (2 ^ 26 + 1) q s d) (hpushes : q.pushes = 2 ^ 26) (hlen : q.records.length = 2 ^ 26) :
    wp (runCalls [.push someFix, .peek 1] s) (fun r _ =>
      r.1 = [.pushed true (q.stamp someFix), .peeked [q.stamp someFix]]) (fun _ => False) d := by
  have hnofault : ∀ {e : Fault}, e ∉ d.faults := by
    intro e he
    rw [h.faults] at he
    cases he
  have hstamp : s.stamp someFix = q.stamp someFix := h.stamp_eq rfl
  have hwf := h.ringed.1
  have hhead : s.queueMeta.head.toNat = 2 ^ 26 := by
    rw [h.head, hpushes]
    decide
  have htail : s.queueMeta.tail.toNat = 0 := by
    have hlt := hwf.tail_lt
    rw [h.capacity] at hlt
    have heq := h.head_eq
    rw [hhead, hlen] at heq
    omega
  have hoffset : slotOffset s.queueMeta.tail = slotOffset s.queueMeta.head := by
    rw [← UInt32.toNat_inj, slotOffset, slotOffset, UInt32.toNat_mul, UInt32.toNat_mul, hhead, htail]
    rfl
  have hfull : fixQueueIsFull s.queueMeta = false := by
    rw [Bool.eq_false_iff]
    intro hfull
    have heq := (PersistentFixStore.isFull_iff hwf).mp hfull
    rw [h.count, h.capacity, hlen] at heq
    omega
  rw [runCalls, wp_bind, QueueCall.run, wp_bind]
  apply PersistentFixStore.wp_push
  · intro hnot
    exact absurd h.ready hnot
  · rintro _ d' _ _ (⟨k, hk⟩ | ⟨hnone, -⟩)
    · exact absurd hk hnofault
    · have hsome := fixRecordEncode_eq_some.mpr ⟨le_refl 64,
        (show (s.stamp someFix).recordedAt[20] = 0 by rw [hstamp]; rfl), rfl⟩
      rw [fixRecordWireSize] at hnone
      rw [hnone] at hsome
      cases hsome
  · intro _ wire hwire d₁ hwritten hsub
    obtain ⟨base, -, hdata⟩ := hwritten.data
    have hfaults₁ : d₁.faults = [] := List.subset_nil.mp (h.faults ▸ hsub)
    have hringed : (s.pushed someFix).queueMeta.Ringed :=
      PersistentFixStore.ringed_pushMeta h.ringed
    have hwf' : (s.pushed someFix).nextMeta.WellFormed := hringed.1
    obtain ⟨htail', hcount', -, -⟩ :=
      PersistentFixStore.pushMeta_of_not_full (s.stamp someFix).sequenceId hfull
    -- The offsets of the head and of the tail agree, so the new record is at the tail.
    have hrecord : slotRecord (d₁.files .data) s.queueMeta.tail = some (q.stamp someFix) := by
      rw [hdata, slotRecord_written hwire hoffset, hstamp]
    apply PersistentFixStore.wp_commitMeta_complete hfaults₁ hwf'
    intro d₂ hpub hfaults₂
    have hready : (s.pushed someFix).committed.readyState := h.ready
    have htail₂ : (s.pushed someFix).committed.queueMeta.tail = s.queueMeta.tail := htail'
    have hcount₂ : (s.pushed someFix).committed.queueMeta.count.toNat = 2 ^ 26 + 1 := by
      have hcount : (s.pushed someFix).queueMeta.count.toNat = _ :=
        PersistentFixStore.toNat_count_pushMeta hwf
      rw [hfull, if_neg (by simp), h.count, hlen] at hcount
      exact hcount
    have hscan : PersistentFixStore.scan (d₂.files .data)
        (s.pushed someFix).committed.queueMeta.capacity
        (s.pushed someFix).committed.queueMeta.tail
        (min (s.pushed someFix).committed.queueMeta.count.toNat 1) =
          .records [q.stamp someFix] := by
      have hne : slotRecord (d₁.files .data) s.queueMeta.tail ≠ none := by
        rw [hrecord]
        exact Option.some_ne_none _
      rw [hcount₂, htail₂, hpub.data]
      show PersistentFixStore.scan _ _ _ 1 = _
      rw [PersistentFixStore.scan, if_neg (by rw [length_of_slotRecord hne]; simp), hrecord]
      rfl
    rw [wp_pure, wp_bind, runCalls, wp_bind, QueueCall.run, wp_bind]
    apply PersistentFixStore.wp_peek
    · rintro (hnot | hzero | hzero)
      · exact absurd hready hnot
      · cases hzero
      · have hzero : (s.pushed someFix).committed.queueMeta.count = 0 := hzero
        rw [hzero] at hcount₂
        exact absurd hcount₂ (by decide)
    · intro out hout es hes
      rcases hout with hout | ⟨k, hk⟩
      · have hout := hscan.symm.trans hout
        cases hout
        rw [wp_pure, wp_bind, runCalls, wp_pure, wp_pure, wp_pure]
        exact congrArg (fun r => [QueueReply.pushed true r, .peeked [q.stamp someFix]]) hstamp
      · rw [hfaults₂] at hk
        cases hk
    · intro _ _ hcorrupt
      have hcorrupt := hscan.symm.trans hcorrupt
      cases hcorrupt
    · intro k hk
      rw [hfaults₂] at hk
      cases hk
  · intro _ k hk
    exact absurd hk hnofault

/-- With one more slot than the offsets tell apart, the store stops replying as the queue does; and
after `2 ^ 32 - 1` pushes the next id is zero. -/
theorem store_departs_from_fifo :
    (∃ calls r d₀ replies s d, (∀ call ∈ calls, call.Submitted) ∧ pushCount calls < 2 ^ 32 ∧
      PersistentFixStore.init.begin 0x4000001 (newDevice.disk []) = (some r, d₀) ∧
      runCalls calls r.store d₀ = (some (replies, s), d) ∧
      replies ≠ (runSpec (0x4000001 : UInt32).toNat calls .empty).1) ∧
    ∃ calls r d₀ replies s d, (∀ call ∈ calls, call.Submitted) ∧ pushCount calls < 2 ^ 32 ∧
      PersistentFixStore.init.begin 1 (newDevice.disk []) = (some r, d₀) ∧
      runCalls calls r.store d₀ = (some (replies, s), d) ∧
      s.queueMeta.nextSeq.toNat ≠ 1 + pushCount calls := by
  constructor
  · -- The head comes to the slot whose offset is that of slot 0, where the oldest record is.
    let n : Nat := 2 ^ 26
    let calls := List.replicate n (QueueCall.push someFix)
    let later : List QueueCall := [.push someFix, .peek 1]
    obtain ⟨r, d₀, hbegin, -, h₀⟩ := returns_of_wp
      (Holds.of_begin newDevice_blank (by decide : (0x4000001 : UInt32) ≠ 0))
    have hcap : (0x4000001 : UInt32).toNat = n + 1 := by decide
    rw [hcap] at h₀
    have hpushes := pushes_runSpec (n + 1) calls .empty
    rw [pushCount_replicate] at hpushes
    have hlen : (runSpec (n + 1) calls .empty).2.records.length = 0 + n :=
      records_runSpec_push (by simp [Fifo.empty])
    rw [Nat.zero_add] at hlen
    generalize hq : (runSpec (n + 1) calls .empty).2 = q at hpushes hlen
    have hcalls : wp (runCalls calls r.store) (fun r' d' => wp (runCalls later r'.2)
        (fun r'' _ => r'.1 ++ r''.1 = (runSpec (n + 1) calls .empty).1 ++
          [.pushed true (q.stamp someFix), .peeked [q.stamp someFix]]) (fun _ => False) d')
        (fun _ => False) d₀ := by
      refine wp_mono (h₀.calls (submitted_replicate n) (.inr ?_)) ?_ (fun _ h => h)
      · rw [pushCount_replicate]
        exact (Nat.zero_add n).le
      · rintro ⟨replies, s⟩ d' ⟨hreplies, hholds⟩
        rw [hq] at hholds
        refine wp_mono (hholds.push_aliased (hpushes.trans (Nat.zero_add n)) hlen) ?_ (fun _ h => h)
        exact fun r'' _ h => congrArg₂ (· ++ ·) hreplies h
    obtain ⟨⟨replies, s⟩, d, hrun, hreplies⟩ := returns_of_wp (wp_runCalls_append
      (Q := fun r _ => r.1 = _) hcalls)
    have hsubmitted : ∀ call ∈ calls ++ later, call.Submitted := by
      intro call hcall
      rcases List.mem_append.mp hcall with hcall | hcall
      · exact submitted_replicate n call hcall
      · simp only [later, List.mem_cons, List.not_mem_nil, or_false] at hcall
        rcases hcall with rfl | rfl
        · exact ⟨rfl, rfl⟩
        · trivial
    have hcount : pushCount (calls ++ later) = n + 1 := by
      rw [pushCount_append, pushCount_replicate]
      rfl
    refine ⟨calls ++ later, r, d₀, replies, s, d, hsubmitted, ?_, hbegin, hrun, ?_⟩
    · rw [hcount]
      decide
    · -- The queue would return the record with id 1; the store returns the one just pushed.
      have hreplies : replies = _ := hreplies
      rw [hcap, hreplies, runSpec_append, hq]
      intro heq
      have hlast := List.append_cancel_left heq
      have hpeeked : [q.stamp someFix] = (q.push (n + 1) someFix).records.take 1 := by
        have := congrArg (·[1]?) hlast
        simpa [later, runSpec, QueueCall.spec] using this
      have hnumbered := (numbered_runSpec (n + 1) calls .empty Fifo.numbered_empty (le_refl _)
        (by rw [pushCount_replicate]; decide)).1
      rw [hq] at hnumbered
      have hfirst := hnumbered.front_push (by omega : 0 < q.records.length)
        (by omega : q.records.length < n + 1) someFix
      rw [← hpeeked, hpushes, hlen] at hfirst
      revert hfirst
      simp [Fifo.stamp, hpushes, Fifo.empty, n]
  · -- The ids of a ring of one slot come round to zero.
    obtain ⟨r, d₀, hbegin, -, h₀⟩ := returns_of_wp
      (Holds.of_begin newDevice_blank (by decide : (1 : UInt32) ≠ 0))
    obtain ⟨⟨replies, s⟩, d, hrun, -, h⟩ := returns_of_wp
      (h₀.calls (submitted_replicate (2 ^ 32 - 1)) (.inl (by decide)))
    refine ⟨_, r, d₀, replies, s, d, submitted_replicate (2 ^ 32 - 1), ?_, hbegin, hrun, ?_⟩
    · rw [pushCount_replicate]
      decide
    · have hseq := h.nextSeq
      rw [pushes_runSpec, pushCount_replicate] at hseq
      rw [pushCount_replicate]
      dsimp only at hseq
      rw [hseq]
      decide

end OpenGps.Firmware
