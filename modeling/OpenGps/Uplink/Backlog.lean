import OpenGps.Uplink.SamplingBaseline

/-!
# The backlog after an outage

While the network is there, the passes of the loop upload the queue from its front, twenty records at
a time. A pass with twenty records or more opens the radio at once; with fewer, the radio stays closed
until the flush interval has passed since it was opened last, by a clock that wraps.

* `backlog_delivered` — nothing is lost or sent twice, the order is that of the queue, and a record
  leaves within sixty seconds of the pass that finds fewer than twenty records in front of it;
* over the store on flash the passes leave what they leave over the abstract queue.
-/

namespace OpenGps.Uplink

open OpenGps.Lib OpenGps.Lib.CrashIo OpenGps.Firmware

/-- A pass with the full time at its start, of which it reads the low 32 bits. -/
structure TimedPass where
  clock : ℕ
  inputs : LoopInputs
  reads : inputs.now = millis clock

/-- The network is there, GNSS can be turned off, and the server takes the batch. -/
structure LoopInputs.Healthy (i : LoopInputs) : Prop where
  cellularReady : i.cellularReady = true
  gpsDisabled : i.gpsDisabled = true
  sent : i.result = .sent

/-- The passes follow each other, with less than half of the range of the clock in between. -/
def Regular (passes : List TimedPass) : Prop :=
  passes.IsChain fun p q => p.clock ≤ q.clock ∧ q.clock ≤ p.clock + 2 ^ 31

namespace Tracker

section
variable (math : MathFunctions) (unspecified : Double → Int64) (bootId : UInt32)

/-- What the poll of a pass appends to the queue. -/
def queued (s : Tracker Fifo) (i : LoopInputs) : List FixRecord :=
  (s.pollPass math unspecified bootId i .complete).queue.records.drop s.queue.records.length

/-- What the drain of a pass has acknowledged. -/
def sent (s : Tracker Fifo) (i : LoopInputs) : List FixRecord :=
  let p := s.pollPass math unspecified bootId i .complete
  if p.opensRadio i p.queue.records.length ∧ i.gpsDisabled ∧ i.result = .sent then
    p.batch .complete
  else []

def completePass (s : Tracker Fifo) (i : LoopInputs) : Tracker Fifo :=
  s.pass math unspecified bootId i .complete

def after (s : Tracker Fifo) (passes : List TimedPass) : Tracker Fifo :=
  passes.foldl (fun s p => s.completePass math unspecified bootId p.inputs) s

def queuedIn (s : Tracker Fifo) : List TimedPass → List FixRecord
  | [] => []
  | p :: passes => s.queued math unspecified bootId p.inputs ++
    (s.completePass math unspecified bootId p.inputs).queuedIn passes

def sentIn (s : Tracker Fifo) : List TimedPass → List FixRecord
  | [] => []
  | p :: passes => s.sent math unspecified bootId p.inputs ++
    (s.completePass math unspecified bootId p.inputs).sentIn passes

end

section
variable {math : MathFunctions} {unspecified : Double → Int64} {bootId : UInt32}
  {s : Tracker Fifo} {i : LoopInputs}

/-! ## One pass -/

/-- The gate between the passes. -/
structure SameGate (s t : Tracker Fifo) : Prop where
  queueReady : t.queueReady = s.queueReady
  lastRadioOpenMs : t.lastRadioOpenMs = s.lastRadioOpenMs
  radioHasOpened : t.radioHasOpened = s.radioHasOpened

theorem pollPass_sameGate (s : Tracker Fifo) (o : QueueOutcomes) :
    SameGate s (s.pollPass math unspecified bootId i o) := by
  unfold pollPass
  obtain ⟨policy, hpolled, -⟩ := @polled_fst _ math unspecified bootId i s
  cases h : s.polled math unspecified bootId i with
  | mk s' wanted =>
    rw [h] at hpolled
    obtain rfl : s' = _ := hpolled
    cases wanted with
    | none => exact ⟨rfl, rfl, rfl⟩
    | some wanted =>
      dsimp only
      split
      · exact ⟨rfl, rfl, rfl⟩
      · exact ⟨rfl, rfl, rfl⟩

/-- With room in the queue, the poll appends one record at most. -/
theorem pollPass_records (hroom : s.queue.records.length < fixQueueCapacity) :
    (s.pollPass math unspecified bootId i .complete).queue.records =
      s.queue.records ++ s.queued math unspecified bootId i ∧
      (s.queued math unspecified bootId i).length ≤ 1 := by
  unfold queued
  obtain ⟨hqueue, -⟩ | ⟨fix, record, -, -, hqueue, -⟩ :=
    @pollPass_cases math unspecified bootId i .complete s
  · rw [hqueue]
    simp
  · rw [hqueue]
    have hpush : (s.queue.push fixQueueCapacity record).records =
        s.queue.records ++ [s.queue.stamp record] := if_pos hroom
    rw [hpush]
    simp

@[simp] theorem acknowledged_queue (s : Tracker Fifo) (batch : List FixRecord) (acked : Nat) :
    (s.acknowledged i batch acked).queue = s.queue := by
  unfold acknowledged
  split
  · split <;> rfl
  · rfl

@[simp] theorem acknowledged_queueReady (s : Tracker Fifo) (batch : List FixRecord) (acked : Nat) :
    (s.acknowledged i batch acked).queueReady = s.queueReady := by
  unfold acknowledged
  split
  · split <;> rfl
  · rfl

@[simp] theorem gpsReenabled_queueReady (s : Tracker Fifo) :
    (s.gpsReenabled i).queueReady = s.queueReady := by
  unfold gpsReenabled
  split <;> rfl

/-- The drain of a healthy pass uploads the front of the queue, or leaves the tracker alone. -/
theorem drainPass_healthy (hhealthy : i.Healthy) (s : Tracker Fifo) :
    let t := s.drainPass i .complete
    t.queueReady = s.queueReady ∧
      if s.opensRadio i s.queue.records.length then
        t.queue.records = s.queue.records.drop batchMaxItems
      else t = s := by
  dsimp only
  unfold drainPass
  by_cases hopen : s.opensRadio i s.queue.records.length
  · rw [if_pos hopen, if_pos hopen]
    dsimp only
    have hne : s.queue.records ≠ [] := by
      intro hnil
      simp [opensRadio, hnil] at hopen
    have hbatch : ¬ (s.batch .complete = [] ∨ ¬ i.gpsDisabled) := by
      rw [batch_complete, List.take_eq_nil_iff]
      simp [hne, hhealthy.gpsDisabled, batchMaxItems]
    have hqueue : ((s.radioOpened i).gpsReenabled i).queue = s.queue :=
      (@gpsReenabled_keeps i s).1
    rw [if_neg hbatch, if_pos hhealthy.sent, hqueue, batch_complete]
    refine ⟨?_, ?_⟩
    · rw [acknowledged_queueReady]
      exact gpsReenabled_queueReady _
    · rw [acknowledged_queue, withQueue_queue]
      show s.queue.records.drop (min (s.queue.records.take batchMaxItems).length _) = _
      rw [List.length_take, Nat.min_eq_left (Nat.min_le_right ..)]
      obtain hle | hle := Nat.le_total batchMaxItems s.queue.records.length
      · rw [Nat.min_eq_left hle]
      · rw [Nat.min_eq_right hle, List.drop_length, List.drop_eq_nil_of_le hle]
  · rw [if_neg hopen, if_neg hopen]
    exact ⟨rfl, rfl⟩

/-- While the radio stays closed, the queue is empty or holds less than a batch, and the flush
interval has not passed. -/
theorem not_opensRadio (hhealthy : i.Healthy) (hready : s.queueReady = true) {size : Nat}
    (h : ¬ s.opensRadio i size) :
    size < batchMaxItems ∧ (size = 0 ∨ (i.now - s.lastRadioOpenMs).toNat < 60000) := by
  simp only [opensRadio, hready, hhealthy.cellularReady, Bool.true_and, Bool.and_eq_true,
    decide_eq_true_eq, not_and] at h
  by_cases hempty : size = 0
  · exact ⟨by simp [hempty, batchMaxItems], .inl hempty⟩
  · have hdue := h hempty
    unfold radioDue at hdue
    rw [if_neg hempty] at hdue
    have hbatch : ¬ (0 < uploadBatchMinItems ∧ uploadBatchMinItems ≤ size) := by
      intro hfull
      exact hdue (if_pos hfull)
    rw [if_neg hbatch] at hdue
    have hflush : ∀ {flushMs : UInt32}, flushMs.toNat ≤ 60000 →
        ¬ decide (flushMs ≤ i.now - s.lastRadioOpenMs) = true →
        (i.now - s.lastRadioOpenMs).toNat < 60000 := by
      intro flushMs hle hlate
      rw [decide_eq_true_eq, UInt32.le_iff_toNat_le] at hlate
      omega
    refine ⟨?_, .inr ?_⟩
    · simp only [uploadBatchMinItems, batchMaxItems] at hbatch ⊢
      omega
    · split at hdue
      · exact absurd rfl hdue
      · dsimp only at hdue
        split at hdue
        · exact hflush (by decide) hdue
        · exact hflush (by decide) hdue

/-- What a healthy pass does to a queue with room: either the front of it goes, or it holds less than
a batch and the radio was open less than sixty seconds ago. -/
theorem completePass_healthy (hhealthy : i.Healthy) (hready : s.queueReady = true)
    (hroom : s.queue.records.length < fixQueueCapacity) :
    let t := s.completePass math unspecified bootId i
    let records := s.queue.records ++ s.queued math unspecified bootId i
    t.queueReady = true ∧ t.queue.records.length < fixQueueCapacity ∧
      ((s.sent math unspecified bootId i = records.take batchMaxItems ∧
          t.queue.records = records.drop batchMaxItems) ∨
        (s.sent math unspecified bootId i = [] ∧ t.queue.records = records ∧
          records.length < batchMaxItems ∧ t.lastRadioOpenMs = s.lastRadioOpenMs ∧
          (records = [] ∨ (i.now - s.lastRadioOpenMs).toNat < 60000))) := by
  dsimp only
  obtain ⟨hrecords, hone⟩ := @pollPass_records math unspecified bootId s i hroom
  have hgate := @pollPass_sameGate math unspecified bootId i s .complete
  rw [← hrecords]
  unfold completePass pass sent
  generalize s.pollPass math unspecified bootId i .complete = p at hrecords hgate
  have hlength : p.queue.records.length ≤ fixQueueCapacity := by
    rw [hrecords, List.length_append]
    omega
  have hp : p.queueReady = true := hgate.queueReady.trans hready
  obtain ⟨ht, hdrain⟩ := drainPass_healthy hhealthy p
  dsimp only
  by_cases hopen : p.opensRadio i p.queue.records.length
  · rw [if_pos hopen] at hdrain
    have hpos : 0 < p.queue.records.length := by
      rw [List.length_pos_iff]
      intro hnil
      simp [opensRadio, hnil] at hopen
    rw [if_pos ⟨hopen, hhealthy.gpsDisabled, hhealthy.sent⟩, batch_complete, hdrain]
    refine ⟨ht.trans hp, ?_, .inl ⟨rfl, rfl⟩⟩
    rw [List.length_drop]
    simp only [batchMaxItems]
    omega
  · rw [if_neg hopen] at hdrain
    obtain ⟨hfew, hsoon⟩ := not_opensRadio hhealthy hp hopen
    rw [if_neg fun h => hopen h.1, hdrain]
    refine ⟨hp, hfew.trans (by decide), .inr ⟨rfl, rfl, hfew, hgate.lastRadioOpenMs, ?_⟩⟩
    rw [← hgate.lastRadioOpenMs]
    exact hsoon.imp List.length_eq_zero_iff.mp id

end

/-! ## Runs -/

section
variable {math : MathFunctions} {unspecified : Double → Int64} {bootId : UInt32}

/-- The queue is ready and has room again after every run. -/
theorem after_healthy {passes : List TimedPass} (hhealthy : ∀ p ∈ passes, p.inputs.Healthy)
    {s : Tracker Fifo} (hready : s.queueReady = true)
    (hroom : s.queue.records.length < fixQueueCapacity) :
    (s.after math unspecified bootId passes).queueReady = true ∧
      (s.after math unspecified bootId passes).queue.records.length < fixQueueCapacity := by
  induction passes generalizing s with
  | nil => exact ⟨hready, hroom⟩
  | cons p passes ih =>
    obtain ⟨hready', hroom', -⟩ := @completePass_healthy math unspecified bootId s p.inputs
      (hhealthy p List.mem_cons_self) hready hroom
    exact ih (fun q hq => hhealthy q (List.mem_cons_of_mem _ hq)) hready' hroom'

/-- What was queued has been sent or is still in the queue, each record once and in order. -/
theorem sentIn_append_records {passes : List TimedPass}
    (hhealthy : ∀ p ∈ passes, p.inputs.Healthy) {s : Tracker Fifo} (hready : s.queueReady = true)
    (hroom : s.queue.records.length < fixQueueCapacity) :
    s.sentIn math unspecified bootId passes ++
        (s.after math unspecified bootId passes).queue.records =
      s.queue.records ++ s.queuedIn math unspecified bootId passes := by
  induction passes generalizing s with
  | nil => exact (List.append_nil _).symm
  | cons p passes ih =>
    obtain ⟨hready', hroom', hcases⟩ := @completePass_healthy math unspecified bootId s p.inputs
      (hhealthy p List.mem_cons_self) hready hroom
    have hrest := ih (fun q hq => hhealthy q (List.mem_cons_of_mem _ hq)) hready' hroom'
    simp only [sentIn, queuedIn, after, List.foldl_cons, List.append_assoc]
    change _ ++ (_ ++ (after _ _ _ _ passes).queue.records) = _
    rw [hrest, ← List.append_assoc, ← List.append_assoc]
    obtain ⟨hsent, hleft⟩ | ⟨hsent, hleft, -⟩ := hcases
    · rw [hsent, hleft, List.take_append_drop]
    · rw [hsent, hleft, List.nil_append]

/-- While fewer than sixty seconds have passed by the clock that wraps, it measures the next pass as
the full clock does. -/
theorem elapsed_next {clock clock' : ℕ} {last : UInt32} (hle : clock ≤ clock')
    (hgap : clock' ≤ clock + 2 ^ 31) (hsoon : (millis clock - last).toNat < 60000) :
    (millis clock' - last).toNat = (millis clock - last).toNat + (clock' - clock) := by
  have hlast : last.toNat < 2 ^ 32 := last.toNat_lt
  simp only [millis, UInt32.toNat_sub, UInt32.toNat_ofNat'] at hsoon ⊢
  omega

/-- A pass sends a record with less than a batch up to it, or the radio was open less than sixty
seconds ago. -/
theorem sent_or_waits {k : ℕ} {record : FixRecord} (hk : k < batchMaxItems) {i : LoopInputs}
    (hhealthy : i.Healthy) {s : Tracker Fifo} (hready : s.queueReady = true)
    (hroom : s.queue.records.length < fixQueueCapacity)
    (hrecord : s.queue.records[k]? = some record) :
    (s.sent math unspecified bootId i)[k]? = some record ∨
      (s.sent math unspecified bootId i = [] ∧
        (s.completePass math unspecified bootId i).queue.records[k]? = some record ∧
        (s.completePass math unspecified bootId i).lastRadioOpenMs = s.lastRadioOpenMs ∧
        (i.now - s.lastRadioOpenMs).toNat < 60000) := by
  obtain ⟨-, -, hcases⟩ :=
    @completePass_healthy math unspecified bootId s i hhealthy hready hroom
  have hqueued : (s.queue.records ++ s.queued math unspecified bootId i)[k]? = some record := by
    obtain ⟨hlt, -⟩ := List.getElem?_eq_some_iff.mp hrecord
    rw [List.getElem?_append_left hlt, hrecord]
  obtain ⟨hsent, -⟩ | ⟨hsent, hleft, -, hlast, hnil | hsoon⟩ := hcases
  · left
    rw [hsent, List.getElem?_take_of_lt hk, hqueued]
  · simp [hnil] at hqueued
  · exact .inr ⟨hsent, hleft ▸ hqueued, hlast, hsoon⟩

/-- A record with less than a batch up to it leaves once the flush interval is over, at the latest. -/
theorem sent_of_interval {k : ℕ} {record : FixRecord} (hk : k < batchMaxItems) {p : TimedPass}
    {passes : List TimedPass} (hhealthy : ∀ q ∈ p :: passes, q.inputs.Healthy)
    (hregular : Regular (p :: passes)) {s : Tracker Fifo} (hready : s.queueReady = true)
    (hroom : s.queue.records.length < fixQueueCapacity) (hrecord : s.queue.records[k]? = some record)
    {q : TimedPass} (hq : q ∈ p :: passes)
    (hlate : p.clock + 60000 ≤ q.clock + (millis p.clock - s.lastRadioOpenMs).toNat) :
    (s.sentIn math unspecified bootId (p :: passes))[k]? = some record := by
  have hp : p.inputs.Healthy := hhealthy p List.mem_cons_self
  induction passes generalizing s p with
  | nil =>
    obtain rfl : q = p := List.mem_singleton.mp hq
    obtain hsent | ⟨-, -, -, hsoon⟩ :=
      @sent_or_waits math unspecified bootId k record hk q.inputs hp s hready hroom hrecord
    · simpa [sentIn] using hsent
    · rw [q.reads] at hsoon
      omega
  | cons p' passes ih =>
    obtain ⟨⟨hle, hgap⟩, hregular'⟩ := List.isChain_cons_cons.mp hregular
    obtain ⟨hready', hroom', -⟩ := @completePass_healthy math unspecified bootId s p.inputs hp hready
      hroom
    obtain hsent | ⟨hsent, hleft, hlast, hsoon⟩ :=
      @sent_or_waits math unspecified bootId k record hk p.inputs hp s hready hroom hrecord
    · obtain ⟨hlt, -⟩ := List.getElem?_eq_some_iff.mp hsent
      show (s.sent math unspecified bootId p.inputs ++ _)[k]? = _
      rw [List.getElem?_append_left hlt, hsent]
    · -- The radio stays closed, and the next pass is that much later.
      rw [p.reads] at hsoon
      have helapsed := elapsed_next hle hgap hsoon
      have hq' : q ∈ p' :: passes := by
        obtain rfl | hq' := List.mem_cons.mp hq
        · omega
        · exact hq'
      show (s.sent math unspecified bootId p.inputs ++ _)[k]? = _
      rw [hsent, List.nil_append]
      refine ih (fun q hq => hhealthy q (List.mem_cons_of_mem _ hq)) hregular' hready' hroom' hleft
        hq' ?_ (hhealthy p' (List.mem_cons_of_mem _ List.mem_cons_self))
      rw [hlast]
      omega

/-- The passes before it take the records in front of it, twenty at a time. -/
theorem sent_in_turn {k : ℕ} {record : FixRecord} {passes : List TimedPass}
    (hhealthy : ∀ q ∈ passes, q.inputs.Healthy) (hregular : Regular passes) {s : Tracker Fifo}
    (hready : s.queueReady = true) (hroom : s.queue.records.length < fixQueueCapacity)
    (hrecord : s.queue.records[k]? = some record) {p q : TimedPass} {later : List TimedPass}
    (hturn : passes.drop (k / batchMaxItems) = p :: later) (hq : q ∈ later)
    (hlate : p.clock + 60000 ≤ q.clock) :
    (s.sentIn math unspecified bootId passes)[k]? = some record := by
  induction passes generalizing s k with
  | nil => simp at hturn
  | cons p' passes ih =>
    by_cases hk : k < batchMaxItems
    · rw [Nat.div_eq_of_lt hk, List.drop_zero] at hturn
      obtain ⟨rfl, rfl⟩ := List.cons.inj hturn
      exact sent_of_interval hk hhealthy hregular hready hroom hrecord (List.mem_cons_of_mem _ hq)
        (by omega)
    · obtain ⟨hready', hroom', hcases⟩ := @completePass_healthy math unspecified bootId s p'.inputs
        (hhealthy p' List.mem_cons_self) hready hroom
      have hk' : batchMaxItems ≤ k := Nat.le_of_not_lt hk
      obtain ⟨hlt, -⟩ := List.getElem?_eq_some_iff.mp hrecord
      have hqueued :
          (s.queue.records ++ s.queued math unspecified bootId p'.inputs)[k]? = some record := by
        rw [List.getElem?_append_left hlt, hrecord]
      obtain ⟨hsent, hleft⟩ | ⟨-, -, hfew, -⟩ := hcases
      · have hfull : (s.sent math unspecified bootId p'.inputs).length = batchMaxItems := by
          rw [hsent, List.length_take, List.length_append]
          omega
        have hturn' : passes.drop ((k - batchMaxItems) / batchMaxItems) = p :: later := by
          rwa [Nat.div_eq_sub_div (by decide) hk', List.drop_succ_cons] at hturn
        have hrecord' : (s.completePass math unspecified bootId p'.inputs).queue.records[
            k - batchMaxItems]? = some record := by
          rw [hleft, List.getElem?_drop, Nat.add_sub_cancel' hk', hqueued]
        have hrest := ih (fun q hq => hhealthy q (List.mem_cons_of_mem _ hq)) hregular.tail hready'
          hroom' hrecord' hturn'
        show (s.sent math unspecified bootId p'.inputs ++ _)[k]? = _
        rw [List.getElem?_append_right (hfull ▸ hk'), hfull]
        exact hrest
      · rw [List.length_append] at hfew
        omega

/-! ## Over the store on flash -/

variable (math unspecified bootId) in
def storePasses (s : Tracker PersistentFixStore) (passes : List TimedPass) :
    StoreIo (Tracker PersistentFixStore) :=
  passes.foldlM (fun s p => s.storePass math unspecified bootId p.inputs) s

/-- The passes over the store do what those over the queue do. -/
theorem storePasses_storedAs {passes : List TimedPass} {t : Tracker Fifo}
    {s : Tracker PersistentFixStore} {d : Disk StorePath} (h : t.StoredAs s d) :
    wp (s.storePasses math unspecified bootId passes)
      (fun s' d' => (t.after math unspecified bootId passes).StoredAs s' d') (fun _ => False) d := by
  induction passes generalizing t s d with
  | nil => exact h
  | cons p passes ih =>
    unfold storePasses
    rw [List.foldlM_cons, wp_bind]
    exact wp_mono (storePass_storedAs h) (fun s' d' h' => ih h') (fun _ h => h)

/-- While the network is there, a queue with room is uploaded from flash: every record leaves once and
in order, the one at `k` within sixty seconds of the pass after `k / 20` others. -/
theorem backlog_delivered (math : MathFunctions) (unspecified : Double → Int64) (bootId : UInt32)
    {passes : List TimedPass} {t : Tracker Fifo} {s : Tracker PersistentFixStore}
    {d : Disk StorePath} (hstored : t.StoredAs s d) (hready : t.queueReady = true)
    (hroom : t.queue.records.length < fixQueueCapacity)
    (hhealthy : ∀ p ∈ passes, p.inputs.Healthy) (hregular : Regular passes) :
    (∃ s' d', s.storePasses math unspecified bootId passes d = (some s', d') ∧
      (t.after math unspecified bootId passes).StoredAs s' d') ∧
    (t.after math unspecified bootId passes).queueReady = true ∧
    (t.after math unspecified bootId passes).queue.records.length < fixQueueCapacity ∧
    t.sentIn math unspecified bootId passes ++
        (t.after math unspecified bootId passes).queue.records =
      t.queue.records ++ t.queuedIn math unspecified bootId passes ∧
    ∀ k record, t.queue.records[k]? = some record →
      ∀ p q later, passes.drop (k / batchMaxItems) = p :: later → q ∈ later →
        p.clock + 60000 ≤ q.clock →
        (t.sentIn math unspecified bootId passes)[k]? = some record := by
  obtain ⟨hready', hroom'⟩ :=
    @after_healthy math unspecified bootId passes hhealthy t hready hroom
  refine ⟨?_, hready', hroom', sentIn_append_records hhealthy hready hroom, ?_⟩
  · obtain ⟨s', d', hrun, h⟩ := returns_of_wp (storePasses_storedAs hstored)
    exact ⟨s', d', hrun, h⟩
  · intro k record hrecord p q later hturn hq hlate
    exact sent_in_turn hhealthy hregular hready hroom hrecord hturn hq hlate

end

theorem now_withNow (clock : ℕ) (i : LoopInputs) :
    ({ i with now := millis clock } : LoopInputs).now = millis clock := rfl

def passAt (clock : ℕ) (i : LoopInputs) : TimedPass where
  clock
  inputs := { i with now := millis clock }
  reads := now_withNow clock i

/-- Twenty-one fixes without network after a boot, on flash without a queue. -/
def afterOutage : Tracker Fifo :=
  (setup trackerSampling .empty true).after SamplingPolicy.mathAtRest (fun _ => 0) 1
    ((List.range 21).map fun n => passAt (3000 * (n + 1)) (outagePass n).1)

/-- The network is back: a drain at once, a pass right after it, and one a minute later. -/
def drainPasses : List TimedPass :=
  [passAt 70000 firstDrain.1, passAt 70020 firstDrain.1, passAt 130020 firstDrain.1]

set_option maxRecDepth 20000 in
/-- The last record of the outage leaves with the flush, a minute after the first batch. -/
theorem backlog_delivered_outage :
    ∃ s d, afterOutage.StoredAs s d ∧
      (∃ s' d', s.storePasses SamplingPolicy.mathAtRest (fun _ => 0) 1 drainPasses d =
          (some s', d') ∧
        (afterOutage.after SamplingPolicy.mathAtRest (fun _ => 0) 1 drainPasses).StoredAs s' d') ∧
      ∃ record, afterOutage.queue.records[20]? = some record ∧
        (afterOutage.sentIn SamplingPolicy.mathAtRest (fun _ => 0) 1 drainPasses)[20]? =
          some record := by
  obtain ⟨r, d₀, -, -, hholds⟩ := returns_of_wp (Holds.of_begin newDevice_blank
    (show UInt32.ofNat fixQueueCapacity ≠ 0 by decide))
  have hboot : (setup trackerSampling .empty true).StoredAs
      ((setup trackerSampling .empty true).withQueue r.store) d₀ := ⟨hholds, rfl⟩
  obtain ⟨s, d, -, hstored⟩ := returns_of_wp (@storePasses_storedAs SamplingPolicy.mathAtRest
    (fun _ => 0) 1 ((List.range 21).map fun n => passAt (3000 * (n + 1)) (outagePass n).1) _ _ _ hboot)
  change afterOutage.StoredAs s d at hstored
  have hhealthy : ∀ p ∈ drainPasses, p.inputs.Healthy := by
    simp only [drainPasses, List.forall_mem_cons, List.not_mem_nil, false_implies, implies_true,
      and_true]
    exact ⟨⟨rfl, rfl, rfl⟩, ⟨rfl, rfl, rfl⟩, ⟨rfl, rfl, rfl⟩⟩
  have hregular : Regular drainPasses := by
    simp [Regular, drainPasses, passAt]
  have hlength : afterOutage.queue.records.length = 21 := by decide +kernel
  obtain ⟨hrun, -, -, -, hturn⟩ := backlog_delivered SamplingPolicy.mathAtRest (fun _ => 0) 1 hstored
    (by decide +kernel) (hlength ▸ by decide) hhealthy hregular
  obtain ⟨record, hrecord⟩ : ∃ record, afterOutage.queue.records[20]? = some record :=
    ⟨_, List.getElem?_eq_getElem (hlength ▸ by decide)⟩
  exact ⟨s, d, hstored, hrun, record, hrecord, hturn 20 record hrecord _ _ _ rfl
    (List.mem_singleton_self _) (by simp [passAt])⟩

end Tracker

end OpenGps.Uplink
