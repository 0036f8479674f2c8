import OpenGps.Firmware.StoreFifo
import OpenGps.Uplink.UploadContract

/-!
# One pass of the main loop (`src/main.cpp`)

A pass polls a fix when one is due and queues it when the policy asks for that; then, when the radio
may open, it uploads the front of the queue and drops what was acknowledged. The sampling policy is
told of the fix both times: when it is queued, and when it is among the acknowledged records.

The pass is defined over the store on flash and over the abstract queue. On a disk whose operations
complete, a pass over the store does what the one over the queue does.
-/

namespace OpenGps.Uplink

open OpenGps.Lib OpenGps.Lib.CrashIo OpenGps.Firmware

/-! ## The state and what a pass reads -/

def fixQueueCapacity : Nat := 2048

/-- The variables of the loop over a queue of type `Q`. No code reads `latest`, the record queued
last. -/
structure Tracker (Q : Type) where
  policy : SamplingPolicy
  queue : Q
  queueReady : Bool
  lastRadioOpenMs : UInt32
  radioHasOpened : Bool
  latest : Option FixRecord

/-- What one pass reads from the clock, the GNSS receiver and the modem. The clock is read at the
start of the pass, when GNSS is enabled again and after an acknowledged upload. -/
structure LoopInputs where
  now : UInt32
  fix : Option LocationPayload
  live : LiveReadings
  cellularReady : Bool
  gpsDisabled : Bool
  result : TransportResult
  gpsEnabled : Bool
  enabledAt : UInt32
  sentAt : UInt32

/-- What the calls to the queue of one pass report: whether a push succeeds, how many records a peek
can read, and whether an acknowledgement succeeds. -/
structure QueueOutcomes where
  pushed : Bool
  peeked : Nat
  acked : Bool
  deriving DecidableEq

/-- Every call succeeds. -/
def QueueOutcomes.complete : QueueOutcomes := ⟨true, batchMaxItems, true⟩

namespace Tracker

variable {Q Q' : Type}

/-- The same tracker over another queue. -/
def withQueue (s : Tracker Q) (queue : Q') : Tracker Q' :=
  ⟨s.policy, queue, s.queueReady, s.lastRadioOpenMs, s.radioHasOpened, s.latest⟩

section
variable (math : MathFunctions) (unspecified : Double → Int64) (bootId : UInt32)

/-- The poll, with the fix to queue and its record. -/
def polled (s : Tracker Q) (i : LoopInputs) : Tracker Q × Option (LocationPayload × FixRecord) :=
  if ¬ s.policy.fixDue i.now then (s, none)
  else
    match i.fix with
    | none => (s, none)
    | some fix =>
      let pendingDecision := (s.policy.onFix math i.now fix).1
      let s := { s with policy := (s.policy.onFix math i.now fix).2 }
      if pendingDecision.fixAccepted ∧ pendingDecision.shouldUpload ∧ s.queueReady then
        (s, (locationPayloadToFixRecord unspecified (enrich i.live fix) 0 bootId).map (fix, ·))
      else (s, none)

/-- The fix has been queued. -/
def enqueued (s : Tracker Q) (i : LoopInputs) (fix : LocationPayload) (record : FixRecord) :
    Tracker Q :=
  { s with policy := s.policy.onUploadResult i.now fix true, latest := some record }

/-- The gate in front of the drain, given the size of the queue. -/
def opensRadio (s : Tracker Q) (i : LoopInputs) (size : Nat) : Bool :=
  s.queueReady && i.cellularReady && size ≠ 0 &&
    radioDue i.now size s.lastRadioOpenMs s.radioHasOpened s.policy.state uploadBatchMinItems
      uploadFlushMsMoving uploadFlushMsStationary

def radioOpened (s : Tracker Q) (i : LoopInputs) : Tracker Q :=
  { s with lastRadioOpenMs := i.now, radioHasOpened := true }

/-- GNSS is on again, if it could be enabled. -/
def gpsReenabled (s : Tracker Q) (i : LoopInputs) : Tracker Q :=
  if i.gpsEnabled then { s with policy := s.policy.notifyGpsReenabled i.enabledAt } else s

/-- The first `acked` records of the batch have been dropped from the queue. -/
def acknowledged (s : Tracker Q) (i : LoopInputs) (batch : List FixRecord) (acked : Nat) :
    Tracker Q :=
  match batch[acked - 1]? with
  | some newest =>
    if acked > 0 then
      { s with
        policy :=
          s.policy.onUploadResult i.sentAt (locationPayloadFromFixRecord newest) true }
    else s
  | none => s

/-! ## Over the store on flash -/

def storePoll (s : Tracker PersistentFixStore) (i : LoopInputs) :
    StoreIo (Tracker PersistentFixStore) :=
  match s.polled math unspecified bootId i with
  | (s, none) => return s
  | (s, some (fix, record)) => do
    let (pushed, queue, record) ← s.queue.push record
    let s := s.withQueue queue
    return if pushed then s.enqueued i fix record else s

def storeDrain (s : Tracker PersistentFixStore) (i : LoopInputs) :
    StoreIo (Tracker PersistentFixStore) := do
  if s.opensRadio i s.queue.queueMeta.count.toNat then
    let s := s.radioOpened i
    let batch ← s.queue.peek batchMaxItems
    let s := s.withQueue batch.store
    -- Nothing is uploaded while GNSS is on.
    if batch.out = [] ∨ ¬ i.gpsDisabled then return s
    let s := s.gpsReenabled i
    if i.result = .sent then
      let (acked, queue) ← s.queue.ackFront batch.out.length
      return (s.withQueue queue).acknowledged i batch.out acked
    else return s
  else return s

def storePass (s : Tracker PersistentFixStore) (i : LoopInputs) :
    StoreIo (Tracker PersistentFixStore) := do
  let s ← s.storePoll math unspecified bootId i
  s.storeDrain i

/-! ## Over the abstract queue -/

def pollPass (s : Tracker Fifo) (i : LoopInputs) (o : QueueOutcomes) : Tracker Fifo :=
  match s.polled math unspecified bootId i with
  | (s, none) => s
  | (s, some (fix, record)) =>
    if o.pushed then
      (s.withQueue (s.queue.push fixQueueCapacity record)).enqueued i fix (s.queue.stamp record)
    else s

/-- The records a peek reads. -/
def batch (s : Tracker Fifo) (o : QueueOutcomes) : List FixRecord :=
  (s.queue.records.take batchMaxItems).take o.peeked

def drainPass (s : Tracker Fifo) (i : LoopInputs) (o : QueueOutcomes) : Tracker Fifo :=
  if s.opensRadio i s.queue.records.length then
    let batch := s.batch o
    let s := s.radioOpened i
    if batch = [] ∨ ¬ i.gpsDisabled then s
    else
      let s := s.gpsReenabled i
      if i.result = .sent then
        let acked := if o.acked then min batch.length s.queue.records.length else 0
        (s.withQueue (s.queue.ackFront acked)).acknowledged i batch acked
      else s
  else s

def pass (s : Tracker Fifo) (i : LoopInputs) (o : QueueOutcomes) : Tracker Fifo :=
  (s.pollPass math unspecified bootId i o).drainPass i o

/-! ## The store does what the queue does -/

end

/-- The tracker on flash holds the queue of the abstract one and agrees with it elsewhere. -/
structure StoredAs (t : Tracker Fifo) (s : Tracker PersistentFixStore) (d : Disk StorePath) : Prop where
  holds : Holds fixQueueCapacity t.queue s.queue d
  same : s.withQueue t.queue = t

section
variable {math : MathFunctions} {unspecified : Double → Int64} {bootId : UInt32}
  {t : Tracker Fifo} {s : Tracker PersistentFixStore} {d : Disk StorePath} {i : LoopInputs}

@[simp] theorem withQueue_queue (s : Tracker Q) (queue : Q') : (s.withQueue queue).queue = queue :=
  rfl

@[simp] theorem withQueue_withQueue {Q'' : Type} (s : Tracker Q) (queue : Q') (queue' : Q'') :
    (s.withQueue queue).withQueue queue' = s.withQueue queue' := rfl

@[simp] theorem withQueue_self (s : Tracker Q) : s.withQueue s.queue = s := rfl

@[simp] theorem radioOpened_withQueue (s : Tracker Q) (queue : Q') :
    (s.withQueue queue).radioOpened i = (s.radioOpened i).withQueue queue := rfl

@[simp] theorem gpsReenabled_withQueue (s : Tracker Q) (queue : Q') :
    (s.withQueue queue).gpsReenabled i = (s.gpsReenabled i).withQueue queue := by
  unfold gpsReenabled
  split <;> rfl

@[simp] theorem acknowledged_withQueue (s : Tracker Q) (queue : Q') (batch : List FixRecord)
    (acked : Nat) :
    (s.withQueue queue).acknowledged i batch acked =
      (s.acknowledged i batch acked).withQueue queue := by
  unfold acknowledged
  split
  · split <;> rfl
  · rfl

/-- The poll does not look at the queue. -/
theorem polled_withQueue (s : Tracker Q) (queue : Q') :
    (s.withQueue queue).polled math unspecified bootId i =
      ((s.polled math unspecified bootId i).1.withQueue queue,
        (s.polled math unspecified bootId i).2) := by
  unfold polled
  by_cases hdue : s.policy.fixDue i.now
  · cases hfix : i.fix with
    | none => simp [withQueue, hdue]
    | some fix =>
      simp only [withQueue, hdue, not_true_eq_false, if_false]
      by_cases hwanted : (s.policy.onFix math i.now fix).1.fixAccepted ∧
          (s.policy.onFix math i.now fix).1.shouldUpload ∧ s.queueReady
      · simp only [if_pos hwanted]
        exact if_pos hwanted
      · simp only [if_neg hwanted]
        exact if_neg hwanted
  · simp [withQueue, hdue]

/-- The poll changes the policy only. -/
theorem polled_fst (s : Tracker Q) :
    ∃ policy, (s.polled math unspecified bootId i).1 = { s with policy } ∧
      SamplingPolicy.SameSent s.policy policy := by
  unfold polled
  split
  · exact ⟨s.policy, rfl, rfl, rfl, rfl, rfl⟩
  · split
    · exact ⟨s.policy, rfl, rfl, rfl, rfl, rfl⟩
    · next fix _ =>
      refine ⟨(s.policy.onFix math i.now fix).2, ?_, SamplingPolicy.sameSent_onFix⟩
      dsimp only
      split <;> rfl

theorem polled_snd_eq_some {s : Tracker Q} {fix : LocationPayload} {record : FixRecord}
    (h : (s.polled math unspecified bootId i).2 = some (fix, record)) :
    i.fix = some fix ∧ s.queueReady ∧
      locationPayloadToFixRecord unspecified (enrich i.live fix) 0 bootId = some record := by
  unfold polled at h
  split at h
  · cases h
  · split at h
    · cases h
    · next fix' hfix =>
      dsimp only at h
      split at h
      · next hwanted =>
        obtain ⟨record', hrecord, heq⟩ := Option.map_eq_some_iff.mp h
        obtain ⟨rfl, rfl⟩ := Prod.mk.inj heq
        exact ⟨hfix, hwanted.2.2, hrecord⟩
      · cases h

/-- A record comes from the conversion without an id and with a terminated timestamp. -/
theorem submitted_of_toFixRecord {fix : LocationPayload} {record : FixRecord}
    (h : locationPayloadToFixRecord unspecified fix 0 bootId = some record) :
    record.sequenceId = 0 ∧ getElem record.recordedAt 20 fixTimestampEnd = 0 := by
  have hrecord := recordOf_toFixRecord h
  refine ⟨hrecord.sequenceId, ?_⟩
  rw [hrecord.recordedAt]
  unfold locationPayloadToFixRecord at h
  split at h
  · cases h
  · next hguard => exact not_not.mp fun hopen => hguard (.inl hopen)

theorem storePoll_storedAs (h : t.StoredAs s d) :
    wp (s.storePoll math unspecified bootId i)
      (fun s' d' => (t.pollPass math unspecified bootId i .complete).StoredAs s' d')
      (fun _ => False) d := by
  obtain ⟨hholds, hsame⟩ := h
  generalize t.queue = q at hholds hsame
  subst hsame
  unfold storePoll pollPass
  rw [polled_withQueue]
  cases hpolled : s.polled math unspecified bootId i with
  | mk s' wanted =>
    have hqueue : s'.queue = s.queue := by
      obtain ⟨policy, hs', -⟩ := @polled_fst _ math unspecified bootId i s
      rw [hpolled] at hs'
      rw [show s' = _ from hs']
    cases wanted with
    | none => exact ⟨hqueue ▸ hholds, rfl⟩
    | some wanted =>
      obtain ⟨fix, record⟩ := wanted
      obtain ⟨-, -, hrecord⟩ := polled_snd_eq_some (congrArg Prod.snd hpolled)
      obtain ⟨hzero, hnul⟩ := submitted_of_toFixRecord hrecord
      dsimp only
      rw [hqueue, wp_bind]
      refine wp_mono (hholds.push hzero hnul (.inl (by decide))) ?_ (fun _ h => h)
      rintro ⟨pushed, queue, stored⟩ d' ⟨rfl, rfl, hholds'⟩
      exact ⟨hholds', rfl⟩

theorem batch_complete (t : Tracker Fifo) :
    t.batch .complete = t.queue.records.take batchMaxItems := by
  rw [batch, show QueueOutcomes.complete.peeked = batchMaxItems from rfl, List.take_take, Nat.min_self]

theorem storeDrain_storedAs (h : t.StoredAs s d) :
    wp (s.storeDrain i) (fun s' d' => (t.drainPass i .complete).StoredAs s' d')
      (fun _ => False) d := by
  obtain ⟨hholds, hsame⟩ := h
  have hbatch := batch_complete t
  generalize t.queue = q at hholds hsame hbatch
  subst hsame
  unfold storeDrain drainPass
  rw [show (s.withQueue q).opensRadio i (s.withQueue q).queue.records.length =
    s.opensRadio i q.records.length from rfl, hholds.count, hbatch]
  by_cases hopen : s.opensRadio i q.records.length
  · rw [if_pos hopen, if_pos hopen]
    dsimp only
    rw [wp_bind]
    refine wp_mono (hholds.peek batchMaxItems) ?_ (fun _ h => h)
    rintro ⟨out, report, store⟩ d₁ ⟨rfl, hholds₁⟩
    simp only [radioOpened_withQueue, gpsReenabled_withQueue, acknowledged_withQueue,
      withQueue_withQueue, withQueue_queue]
    by_cases hskip : q.records.take batchMaxItems = [] ∨ ¬ i.gpsDisabled
    · rw [if_pos hskip, if_pos hskip]
      exact ⟨hholds₁, rfl⟩
    · rw [if_neg hskip, if_neg hskip]
      by_cases hsent : i.result = .sent
      · rw [if_pos hsent, if_pos hsent, wp_bind]
        refine wp_mono (hholds₁.ackFront _) ?_ (fun _ h => h)
        rintro ⟨acked, store'⟩ d₂ ⟨rfl, hholds₂⟩
        have hmin : min (q.records.take batchMaxItems).length q.records.length =
            (q.records.take batchMaxItems).length := Nat.min_eq_left (List.length_take_le' ..)
        rw [show QueueOutcomes.complete.acked = true from rfl, if_pos rfl, hmin]
        exact ⟨hholds₂, rfl⟩
      · rw [if_neg hsent, if_neg hsent]
        exact ⟨hholds₁, rfl⟩
  · rw [if_neg hopen, if_neg hopen]
    exact ⟨hholds, rfl⟩

/-- On a disk whose operations complete, a pass over the store does what the pass over the abstract
queue does when every call succeeds. -/
theorem storePass_storedAs (h : t.StoredAs s d) :
    wp (s.storePass math unspecified bootId i)
      (fun s' d' => (t.pass math unspecified bootId i .complete).StoredAs s' d')
      (fun _ => False) d := by
  unfold storePass pass
  rw [wp_bind]
  exact wp_mono (storePoll_storedAs h) (fun s' d' h' => storeDrain_storedAs h') (fun _ h => h)

end

end Tracker

end OpenGps.Uplink
