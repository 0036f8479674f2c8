import OpenGps.Lib.CrashIo
import OpenGps.Lib.Run
import OpenGps.Firmware.FixQueue

/-!
# The flash-backed fix queue (`src/persistent_fix_store.cpp`)

Three files: a data file of fixed record slots and two meta slots written in turn. A push writes the
record first and publishes it with the meta; on boot the meta slot with the higher generation wins.
Each operation is a program of `Lib.CrashIo`, so that the same definition runs without faults, with
failing file operations and with the power cut in the middle of a write.

Serial output is left out, and so is what the firmware does not check: `flush` and `close`.
-/

namespace OpenGps.Firmware

open OpenGps.Lib.CrashIo

/-- `/fixq.data`, `/fixq.a` and `/fixq.b`. -/
inductive StorePath where
  | data | metaA | metaB
  deriving DecidableEq, Repr

/-- The meta slot a commit writes: the `nextSlot` field, `0` for A and `1` for B. -/
inductive MetaSlot where
  | a | b
  deriving DecidableEq, Repr

def MetaSlot.path : MetaSlot → StorePath
  | .a => .metaA
  | .b => .metaB

def MetaSlot.other : MetaSlot → MetaSlot
  | .a => .b
  | .b => .a

structure PersistentFixStore where
  queueMeta : FixQueueMeta
  nextSlot : MetaSlot
  queueCapacity : UInt32
  readyState : Bool
  deriving DecidableEq, Repr

/-- The object before `begin()`: all fields zero. -/
def PersistentFixStore.init : PersistentFixStore :=
  { queueMeta := { fixQueueMetaFresh 0 with nextSeq := 0 }
    nextSlot := .a
    queueCapacity := 0
    readyState := false }

abbrev StoreIo := Io StorePath

/-- The argument of `seek`, an unsigned 32-bit product on the device. -/
def slotOffset (slot : UInt32) : UInt32 := slot * 64

/-- The meta a slot file decodes to. -/
def slotMeta (files : StorePath → Option (List UInt8)) (slot : MetaSlot) : Option FixQueueMeta :=
  fixQueueMetaDecode (slice (files slot.path) 0 fixQueueMetaWireSize)

/-- The record a slot of the data file decodes to. -/
def slotRecord (data : Option (List UInt8)) (slot : UInt32) : Option FixRecord :=
  fixRecordDecode (slice data (slotOffset slot).toNat fixRecordWireSize)

namespace PersistentFixStore

def readMeta (path : StorePath) : StoreIo (Option FixQueueMeta) := do
  match ← openFile path .read with
  | none => return none
  | some f =>
    let wire ← f.read fixQueueMetaWireSize
    if wire.length ≠ fixQueueMetaWireSize then return none
    return fixQueueMetaDecode wire

/-- Publish the in-memory meta in the next slot. The meta is encoded first, so that an invalid one
never reaches flash; every failure leaves the generation as it was. -/
def commitMeta (s : PersistentFixStore) : StoreIo (Bool × PersistentFixStore) := do
  let m := { s.queueMeta with generation := s.queueMeta.generation + 1 }
  match fixQueueMetaEncode m fixQueueMetaWireSize with
  | none => return (false, s)
  | some wire =>
    match ← openFile s.nextSlot.path .write with
    | none => return (false, s)
    | some f =>
      let written ← f.write wire
      if written ≠ fixQueueMetaWireSize then return (false, s)
      return (true, { s with queueMeta := m, nextSlot := s.nextSlot.other })

def reset (s : PersistentFixStore) : StoreIo (Bool × PersistentFixStore) :=
  commitMeta { s with queueMeta := fixQueueMetaFresh s.queueCapacity, nextSlot := .a }

/-- How the read loop of `peek` ends: with the records read so far, or at a corrupt slot. -/
inductive PeekLoop where
  | records (out : List FixRecord)
  | corrupt
  deriving DecidableEq

def PeekLoop.cons (r : FixRecord) : PeekLoop → PeekLoop
  | .records out => .records (r :: out)
  | .corrupt => .corrupt

/-- The `while (n < limit)` loop of `peek`, from slot `idx` with `limit - n` records to go. -/
def peekLoop (f : File StorePath) (capacity : UInt32) : UInt32 → Nat → StoreIo PeekLoop
  | _, 0 => return .records []
  | idx, n + 1 => do
    match ← f.seek (slotOffset idx).toNat with
    | none => return .records []
    | some f' =>
      let wire ← f'.read fixRecordWireSize
      if wire.length ≠ fixRecordWireSize then return .records []
      match fixRecordDecode wire with
      | none => return .corrupt
      | some r => return (← peekLoop f capacity (fixQueueAdvance idx capacity) n).cons r

/-- What `peek` leaves: the records, and what the reset it ran on a corrupt slot reported. -/
structure PeekResult where
  out : List FixRecord
  resetReport : Option Bool
  store : PersistentFixStore
  deriving DecidableEq

/-- Decode up to `max` records from the tail without removing them. -/
def peek (s : PersistentFixStore) (max : Nat) : StoreIo PeekResult := do
  if ¬ s.readyState ∨ max = 0 ∨ s.queueMeta.count = 0 then return ⟨[], none, s⟩
  match ← openFile .data .read with
  | none => return ⟨[], none, s⟩
  | some f =>
    match ← peekLoop f s.queueMeta.capacity s.queueMeta.tail (min s.queueMeta.count.toNat max) with
    | .records out => return ⟨out, none, s⟩
    | .corrupt =>
      let (ok, s') ← s.reset
      return ⟨[], some ok, s'⟩

/-- The slot `begin` recovers from: the one whose meta was picked. -/
def winner (a b : Option FixQueueMeta) : MetaSlot :=
  match a, b with
  | some a, some b => if b.generation > a.generation then .b else .a
  | some _, none => .a
  | none, _ => .b

/-- What `begin` leaves: its return value, what the last commit of a fresh meta reported if it made
one, and the object. -/
structure BeginResult where
  ok : Bool
  resetReport : Option Bool
  store : PersistentFixStore
  deriving DecidableEq

/-- `begin` after it read the two slots: take over the winning meta, or start from a fresh one. -/
def recoverFrom (s : PersistentFixStore) (capacity : UInt32) (a b : Option FixQueueMeta) :
    StoreIo BeginResult := do
  match fixQueueMetaPick a b with
  | none =>
    let (ok, s) ← commitMeta { s with queueMeta := fixQueueMetaFresh capacity, nextSlot := .a }
    return ⟨ok, some ok, s⟩
  | some m =>
    let s := { s with queueMeta := m }
    if m.capacity ≠ capacity then
      let (ok, s) ← s.reset
      return ⟨ok, some ok, s⟩
    else return ⟨true, none, { s with nextSlot := (winner a b).other }⟩

/-- The part of `begin` that makes sure later `r+` opens succeed. -/
def ensureData : StoreIo Bool := do
  if ← fileExists .data then return true
  match ← openFile .data .write with
  | none => return false
  | some _ => return true

/-- The last part of `begin`: drop a queue whose front is corrupt rather than wedging it. -/
def probeFront (s : PersistentFixStore) (resetReport : Option Bool) : StoreIo BeginResult := do
  if s.queueMeta.count > 0 then
    let probe ← s.peek 1
    let s := probe.store
    if probe.out = [] ∧ s.queueMeta.count > 0 then
      let (ok, s) ← s.reset
      return ⟨ok, some ok, s⟩
    else
      return ⟨true, probe.resetReport <|> resetReport, s⟩
  else
    return ⟨true, resetReport, s⟩

/-- Recover meta A/B, ensure the data file exists, probe the front. A successful mount is assumed;
a mount that formats the flash is a `begin` on empty files. -/
def begin (s : PersistentFixStore) (capacity : UInt32) : StoreIo BeginResult := do
  let s := { s with readyState := false }
  if capacity = 0 then return ⟨false, none, s⟩
  let a ← readMeta .metaA
  let b ← readMeta .metaB
  let recovered ← recoverFrom { s with queueCapacity := capacity } capacity a b
  if ¬ recovered.ok then return recovered
  if ¬ (← ensureData) then return { recovered with ok := false }
  probeFront { recovered.store with readyState := true } recovered.resetReport

/-- The meta that publishes a record with id `sequenceId` written at the head. -/
def pushMeta (m : FixQueueMeta) (sequenceId : UInt32) : FixQueueMeta :=
  let m :=
    if fixQueueIsFull m then
      { m with tail := fixQueueAdvance m.tail m.capacity, lostCount := m.lostCount + 1 }
    else
      { m with count := m.count + 1 }
  let m := { m with head := fixQueueAdvance m.head m.capacity }
  if sequenceId ≥ m.nextSeq then { m with nextSeq := sequenceId + 1 } else m

/-- `fixQueueAdvance` taken back, as the rollbacks do it. -/
def retreat (index capacity : UInt32) : UInt32 :=
  if index = 0 then capacity - 1 else index - 1

/-- The rollback of `push`: counters and positions, but not `nextSeq`. -/
def unpushMeta (m : FixQueueMeta) (wasFull : Bool) : FixQueueMeta :=
  let m :=
    if wasFull then
      { m with tail := retreat m.tail m.capacity, lostCount := m.lostCount - 1 }
    else
      { m with count := m.count - 1 }
  { m with head := retreat m.head m.capacity }

/-- The record write of `push`: open, seek, write. The fallback to `w` is meant for a freshly
created empty file. -/
def writeRecord (slot : UInt32) (wire : List UInt8) : StoreIo Bool := do
  let opened ← do
    match ← openFile .data .update with
    | some f => pure (some f)
    | none => openFile .data .write
  match opened with
  | none => return false
  | some f =>
    match ← f.seek (slotOffset slot).toNat with
    | none => return false
    | some f =>
      let written ← f.write wire
      return written = fixRecordWireSize

/-- The record as `push` stores it: an id of zero is replaced by the next one. -/
def stamp (s : PersistentFixStore) (record : FixRecord) : FixRecord :=
  if record.sequenceId = 0 then { record with sequenceId := s.queueMeta.nextSeq } else record

/-- Encode and write one record at the head, then publish it. The record comes back with the
sequence id it was given. -/
def push (s : PersistentFixStore) (record : FixRecord) :
    StoreIo (Bool × PersistentFixStore × FixRecord) := do
  if ¬ s.readyState then return (false, s, record)
  let record := s.stamp record
  match fixRecordEncode record fixRecordWireSize with
  | none => return (false, s, record)
  | some wire =>
    if ¬ (← writeRecord s.queueMeta.head wire) then return (false, s, record)
    let wasFull := fixQueueIsFull s.queueMeta
    let (ok, s') ← commitMeta { s with queueMeta := pushMeta s.queueMeta record.sequenceId }
    if ¬ ok then
      return (false, { s' with queueMeta := unpushMeta s'.queueMeta wasFull }, record)
    return (true, s', record)

/-- The meta without its first `n` records. -/
def ackMeta (m : FixQueueMeta) (n : Nat) : FixQueueMeta :=
  { m with
    tail := (fixQueueAdvance · m.capacity)^[n] m.tail
    count := m.count - UInt32.ofNat n }

/-- The rollback of `ackFront`. -/
def unackMeta (m : FixQueueMeta) (n : Nat) : FixQueueMeta :=
  { m with
    tail := (retreat · m.capacity)^[n] m.tail
    count := m.count + UInt32.ofNat n }

/-- Remove `count` records from the front; returns how many were removed. -/
def ackFront (s : PersistentFixStore) (count : Nat) : StoreIo (Nat × PersistentFixStore) := do
  if ¬ s.readyState ∨ count = 0 then return (0, s)
  let n := min count s.queueMeta.count.toNat
  let (ok, s') ← commitMeta { s with queueMeta := ackMeta s.queueMeta n }
  if ¬ ok then return (0, { s' with queueMeta := unackMeta s'.queueMeta n })
  return (n, s')

/-! ## What the bookkeeping leaves alone -/

section
variable (m : FixQueueMeta) (sequenceId : UInt32) (wasFull : Bool) (n : Nat)

@[simp] theorem pushMeta_generation : (pushMeta m sequenceId).generation = m.generation := by
  unfold pushMeta
  dsimp only
  split <;> split <;> rfl

@[simp] theorem pushMeta_capacity : (pushMeta m sequenceId).capacity = m.capacity := by
  unfold pushMeta
  dsimp only
  split <;> split <;> rfl

theorem pushMeta_nextSeq : (pushMeta m sequenceId).nextSeq =
    if sequenceId ≥ m.nextSeq then sequenceId + 1 else m.nextSeq := by
  unfold pushMeta
  dsimp only
  split <;> split <;> simp_all

@[simp] theorem unpushMeta_generation : (unpushMeta m wasFull).generation = m.generation := by
  unfold unpushMeta
  dsimp only
  split <;> rfl

@[simp] theorem unpushMeta_capacity : (unpushMeta m wasFull).capacity = m.capacity := by
  unfold unpushMeta
  dsimp only
  split <;> rfl

@[simp] theorem unpushMeta_nextSeq : (unpushMeta m wasFull).nextSeq = m.nextSeq := by
  unfold unpushMeta
  dsimp only
  split <;> rfl

end

/-- Only the largest id lets `nextSeq` wrap to zero. -/
theorem pushMeta_nextSeq_ne_zero {m : FixQueueMeta} {sequenceId : UInt32} (hm : m.nextSeq ≠ 0)
    (hid : sequenceId ≠ 0xFFFFFFFF) : (pushMeta m sequenceId).nextSeq ≠ 0 := by
  rw [pushMeta_nextSeq]
  split
  · intro h
    apply hid
    rw [← UInt32.toNat_inj] at h ⊢
    have := sequenceId.toNat_lt
    simp only [UInt32.toNat_add, UInt32.reduceToNat] at h ⊢
    omega
  · exact hm

end PersistentFixStore

end OpenGps.Firmware
