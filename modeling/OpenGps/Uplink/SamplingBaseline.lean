import OpenGps.Firmware.MotionState
import OpenGps.Uplink.MainLoop

/-!
# The reference of the sampling policy over runs of the main loop

The distance trigger measures from the last-sent reference, which the loop writes when it queues a
fix and again when a batch is acknowledged, with the newest record of that batch. The reference
stays at the fix queued last, and its time does not go back, exactly as long as every acknowledged
batch ends at the time and place of the newest record in the queue and no fix is queued that is
recorded before the reference. A batch that leaves records behind breaks it.
-/

namespace OpenGps.Uplink

open OpenGps.Lib OpenGps.Firmware

section
variable (unspecified : Double → Int64)

/-! ## Times and places -/

/-- The reference is at the time of the record and, rounded as records are, at its place. -/
structure Refers (reference : LocationPayload) (record : FixRecord) : Prop where
  recordedAt : reference.recordedAt = record.recordedAt
  latitudeE6 : scaled unspecified reference.latitude 1000000 = record.latitudeE6
  longitudeE6 : scaled unspecified reference.longitude 1000000 = record.longitudeE6

/-- Two records of one time and place. -/
structure SamePoint (r r' : FixRecord) : Prop where
  recordedAt : r.recordedAt = r'.recordedAt
  latitudeE6 : r.latitudeE6 = r'.latitudeE6
  longitudeE6 : r.longitudeE6 = r'.longitudeE6

/-- Timestamps of one format are ordered as texts. -/
def Earlier (recordedAt recordedAt' : Vector UInt8 21) : Prop :=
  cString recordedAt < cString recordedAt'

instance (recordedAt recordedAt' : Vector UInt8 21) : Decidable (Earlier recordedAt recordedAt') :=
  inferInstanceAs (Decidable (cString recordedAt < cString recordedAt'))

variable {unspecified}

theorem not_earlier_self (recordedAt : Vector UInt8 21) : ¬ Earlier recordedAt recordedAt :=
  List.lt_irrefl _

/-- The double of a stored coordinate is rounded back to it. -/
theorem scaled_fromE6 (e6 : Int32) :
    scaled unspecified (.ofInt e6.toInt / .finite 1000000) 1000000 = e6 := by
  have hlo := e6.le_toInt
  have hhi := e6.toInt_lt
  generalize hn : e6.toInt = n at hlo hhi
  have hloQ : (-2 ^ 31 : ℚ) ≤ n := by exact_mod_cast hlo
  have hhiQ : (n : ℚ) < 2 ^ 31 := by exact_mod_cast hhi
  have hexact : Double.ofInt n / .finite 1000000 = .finite (Binary64.nearest (n / 1000000)) := by
    rw [Double.ofInt_div n (by norm_num),
      Double.ofRat_eq (abs_le.mpr ⟨by linarith, by linarith⟩)]
  have hnear := Binary64.abs_nearest_sub_le 30 (q := (n : ℚ) / 1000000) (by norm_num)
    (abs_le.mpr ⟨by linarith, by linarith⟩)
  generalize Binary64.nearest ((n : ℚ) / 1000000) = x at hexact hnear
  rw [abs_le] at hnear
  have hback := Binary64.abs_nearest_sub_le 10 (q := x * 1000000) (by norm_num)
    (abs_le.mpr ⟨by linarith, by linarith⟩)
  rw [abs_le] at hback
  have hsmall : |x * 1000000| ≤ 2 ^ 52 := abs_le.mpr ⟨by linarith, by linarith⟩
  have hround := Double.llround_of_near unspecified (q := Binary64.nearest (x * 1000000)) (n := n)
    (by rw [abs_lt]; omega) (abs_lt.mpr ⟨by linarith, by linarith⟩)
  rw [hexact, scaled_eq hsmall, hround, Int64.toInt32_ofInt, ← hn, Int32.ofInt_toInt]

/-- What the policy is told of an acknowledged record refers to the records of its point. -/
theorem refers_fromFixRecord_iff {newest latest : FixRecord} :
    Refers unspecified (locationPayloadFromFixRecord newest) latest ↔ SamePoint newest latest := by
  constructor
  · rintro ⟨htime, hlat, hlon⟩
    exact ⟨htime, (scaled_fromE6 _).symm.trans hlat, (scaled_fromE6 _).symm.trans hlon⟩
  · rintro ⟨htime, hlat, hlon⟩
    exact ⟨htime, (scaled_fromE6 _).trans hlat, (scaled_fromE6 _).trans hlon⟩

/-- A queued fix refers to its record. -/
theorem refers_stamp {fix : LocationPayload} {live : LiveReadings} {bootId : UInt32}
    {record : FixRecord} (q : Fifo)
    (h : locationPayloadToFixRecord unspecified (enrich live fix) 0 bootId = some record) :
    Refers unspecified fix (q.stamp record) := by
  have hrecord := recordOf_toFixRecord h
  exact ⟨hrecord.recordedAt.symm, hrecord.latitudeE6.symm, hrecord.longitudeE6.symm⟩

end

/-! ## What a pass does to the reference -/

namespace Tracker

/-- After a boot the reference is empty; the queue is what the store recovered. -/
def setup (config : SamplingConfig) (queue : Fifo) (queueReady : Bool) : Tracker Fifo where
  policy := .init config
  queue
  queueReady
  lastRadioOpenMs := 0
  radioHasOpened := false
  latest := queue.records.getLast?

/-- The batch of the pass is dropped from the queue. -/
def Acknowledges (s : Tracker Fifo) (i : LoopInputs) (o : QueueOutcomes) : Prop :=
  s.opensRadio i s.queue.records.length ∧ i.gpsDisabled ∧ i.result = .sent ∧ o.acked

/-- The newest record in the queue is the one queued last. -/
def LatestQueued (s : Tracker Fifo) : Prop :=
  s.queue.records ≠ [] → s.latest = s.queue.records.getLast?

section
variable (math : MathFunctions) (unspecified : Double → Int64) (bootId : UInt32)

/-- The reference is the fix queued last, up to the rounding of its record. -/
def Baseline (s : Tracker Fifo) : Prop :=
  s.policy.hasSent → ∃ latest, s.latest = some latest ∧ Refers unspecified s.policy.lastSent latest

/-- After the pass the reference is the fix queued last, and it is not of an earlier time. -/
def BaselineKept (s : Tracker Fifo) (a : LoopInputs × QueueOutcomes) : Prop :=
  (s.pass math unspecified bootId a.1 a.2).Baseline unspecified ∧
    (s.policy.hasSent → ¬ Earlier (s.pass math unspecified bootId a.1 a.2).policy.lastSent.recordedAt
      s.policy.lastSent.recordedAt)

/-- A fix that the pass queues is not recorded before the reference. -/
def QueuesInOrder (s : Tracker Fifo) (i : LoopInputs) (o : QueueOutcomes) : Prop :=
  ∀ fix record, (s.polled math unspecified bootId i).2 = some (fix, record) → o.pushed →
    s.policy.hasSent → ¬ Earlier fix.recordedAt s.policy.lastSent.recordedAt

/-- A batch that is acknowledged ends at the time and place of the newest record in the queue. -/
def DrainsToNewest (s : Tracker Fifo) (i : LoopInputs) (o : QueueOutcomes) : Prop :=
  s.Acknowledges i o → ∀ newest latest, (s.batch o).getLast? = some newest →
    s.queue.records.getLast? = some latest → SamePoint newest latest

def InOrder (s : Tracker Fifo) (a : LoopInputs × QueueOutcomes) : Prop :=
  s.QueuesInOrder math unspecified bootId a.1 a.2 ∧
    (s.pollPass math unspecified bootId a.1 a.2).DrainsToNewest a.1 a.2

def step (s : Tracker Fifo) (a : LoopInputs × QueueOutcomes) : Option (Tracker Fifo) :=
  some (s.pass math unspecified bootId a.1 a.2)

end

variable {math : MathFunctions} {unspecified : Double → Int64} {bootId : UInt32}
  {s : Tracker Fifo} {i : LoopInputs} {o : QueueOutcomes}

theorem getLast?_push (capacity : Nat) (q : Fifo) (record : FixRecord) :
    (q.push capacity record).records.getLast? = some (q.stamp record) := by
  show (Ring.pushDropOldest capacity q.records (q.stamp record)).getLast? = _
  unfold Ring.pushDropOldest
  split <;> simp

/-- The poll either leaves the queue and the reference alone, or it queues a fix, which becomes the
reference. -/
theorem pollPass_cases (s : Tracker Fifo) :
    let p := s.pollPass math unspecified bootId i o
    (p.queue = s.queue ∧ p.latest = s.latest ∧ SamplingPolicy.SameSent s.policy p.policy ∧
      ∀ fix record, (s.polled math unspecified bootId i).2 = some (fix, record) → ¬ o.pushed) ∨
    ∃ fix record, (s.polled math unspecified bootId i).2 = some (fix, record) ∧ o.pushed ∧
      p.queue = s.queue.push fixQueueCapacity record ∧ p.latest = some (s.queue.stamp record) ∧
      p.policy.lastSent = fix ∧ p.policy.hasSent := by
  dsimp only
  unfold pollPass
  obtain ⟨policy, hpolled, hsent⟩ := @polled_fst _ math unspecified bootId i s
  cases h : s.polled math unspecified bootId i with
  | mk s' wanted =>
    rw [h] at hpolled
    obtain rfl : s' = _ := hpolled
    cases wanted with
    | none => exact .inl ⟨rfl, rfl, hsent, fun fix record hnone => by cases hnone⟩
    | some wanted =>
      obtain ⟨fix, record⟩ := wanted
      dsimp only
      split
      · next hpushed => exact .inr ⟨fix, record, rfl, hpushed, rfl, rfl, rfl, rfl⟩
      · next hfailed => exact .inl ⟨rfl, rfl, hsent, fun _ _ _ => hfailed⟩

/-- Neither opening the radio nor enabling GNSS again touches the queue or the reference. -/
theorem gpsReenabled_keeps (s : Tracker Fifo) :
    let t := (s.radioOpened i).gpsReenabled i
    t.queue = s.queue ∧ t.latest = s.latest ∧ SamplingPolicy.SameSent s.policy t.policy := by
  dsimp only
  unfold gpsReenabled
  split <;> exact ⟨rfl, rfl, rfl, rfl, rfl, rfl⟩

theorem acknowledged_zero (s : Tracker Fifo) (batch : List FixRecord) :
    s.acknowledged i batch 0 = s := by
  unfold acknowledged
  split <;> rfl

theorem acknowledged_all (s : Tracker Fifo) {batch : List FixRecord} {newest : FixRecord}
    (h : batch.getLast? = some newest) :
    s.acknowledged i batch batch.length =
      { s with
        policy :=
          s.policy.onUploadResult i.sentAt (locationPayloadFromFixRecord newest) true } := by
  have hpos : batch.length > 0 := by
    rw [gt_iff_lt, List.length_pos_iff]
    rintro rfl
    cases h
  unfold acknowledged
  rw [← List.getLast?_eq_getElem?, h]
  exact if_pos hpos

/-- The drain either leaves the queue and the reference alone, or the newest record of an acknowledged
batch becomes the reference. -/
theorem drainPass_cases (s : Tracker Fifo) :
    let t := s.drainPass i o
    t.latest = s.latest ∧
    ((t.queue = s.queue ∧ SamplingPolicy.SameSent s.policy t.policy ∧
        (s.Acknowledges i o → s.batch o = [])) ∨
      ∃ n newest, s.Acknowledges i o ∧ (s.batch o).getLast? = some newest ∧
        t.queue = s.queue.ackFront n ∧
        t.policy.lastSent = locationPayloadFromFixRecord newest ∧ t.policy.hasSent) := by
  dsimp only
  unfold drainPass
  by_cases hopen : s.opensRadio i s.queue.records.length
  · rw [if_pos hopen]
    dsimp only
    by_cases hskip : s.batch o = [] ∨ ¬ i.gpsDisabled
    · rw [if_pos hskip]
      exact ⟨rfl, .inl ⟨rfl, ⟨rfl, rfl, rfl, rfl⟩,
        fun h => hskip.resolve_right (not_not.mpr h.2.1)⟩⟩
    · rw [if_neg hskip]
      obtain ⟨hqueue, hlatest, hsent⟩ := @gpsReenabled_keeps i s
      by_cases hresult : i.result = .sent
      · rw [if_pos hresult]
        cases hacked : o.acked with
        | false =>
          -- The acknowledgement failed: nothing is dropped and nothing is reported.
          simp only [Bool.false_eq_true, if_false, acknowledged_withQueue, acknowledged_zero]
          refine ⟨hlatest, .inl ⟨?_, hsent, fun h => ?_⟩⟩
          · rw [withQueue_queue, hqueue]
            rfl
          · have hoff := h.2.2.2
            rw [hacked] at hoff
            cases hoff
        | true =>
          have hgps : i.gpsDisabled := by
            by_contra hoff
            exact hskip (.inr hoff)
          obtain ⟨newest, hnewest⟩ : ∃ newest, (s.batch o).getLast? = some newest :=
            ⟨_, List.getLast?_eq_some_getLast fun hnil => hskip (.inl hnil)⟩
          have hmin : min (s.batch o).length
              (((s.radioOpened i).gpsReenabled i).queue.records).length = (s.batch o).length := by
            rw [hqueue]
            exact Nat.min_eq_left ((List.length_take_le' ..).trans (List.length_take_le' ..))
          rw [if_pos rfl, hmin, acknowledged_withQueue, acknowledged_all _ hnewest]
          refine ⟨hlatest, .inr ⟨(s.batch o).length, newest, ⟨hopen, hgps, hresult, hacked⟩, hnewest,
            ?_, rfl, rfl⟩⟩
          rw [withQueue_queue, hqueue]
      · rw [if_neg hresult]
        exact ⟨hlatest, .inl ⟨hqueue, hsent, fun h => absurd h.2.2.1 hresult⟩⟩
  · rw [if_neg hopen]
    exact ⟨rfl, .inl ⟨rfl, ⟨rfl, rfl, rfl, rfl⟩, fun h => absurd h.1 hopen⟩⟩

/-! ## Over runs -/

theorem LatestQueued.pollPass (h : s.LatestQueued) :
    (s.pollPass math unspecified bootId i o).LatestQueued := by
  obtain ⟨hqueue, hlatest, -⟩ | ⟨fix, record, -, -, hqueue, hlatest, -⟩ :=
    @pollPass_cases math unspecified bootId i o s
  · intro hne
    rw [hqueue] at hne ⊢
    exact hlatest.trans (h hne)
  · intro _
    rw [hlatest, hqueue, getLast?_push]

theorem LatestQueued.drainPass (h : s.LatestQueued) : (s.drainPass i o).LatestQueued := by
  obtain ⟨hlatest, ⟨hqueue, -⟩ | ⟨n, newest, -, -, hqueue, -⟩⟩ := @drainPass_cases i o s
  · intro hne
    rw [hqueue] at hne ⊢
    exact hlatest.trans (h hne)
  · intro hne
    rw [hqueue] at hne ⊢
    -- What an acknowledgement leaves ends as the queue did.
    have hdrop : s.queue.records.drop n ≠ [] := hne
    have hlt : n < s.queue.records.length := by
      by_contra hle
      exact hdrop (List.drop_eq_nil_of_le (Nat.le_of_not_lt hle))
    have hrecords : s.queue.records ≠ [] := fun hnil => by simp [hnil] at hlt
    rw [hlatest, h hrecords]
    show _ = (s.queue.records.drop n).getLast?
    rw [List.getLast?_drop, if_neg (Nat.not_le.mpr hlt)]

/-- The newest record in the queue stays the one queued last. -/
theorem LatestQueued.pass (h : s.LatestQueued) :
    (s.pass math unspecified bootId i o).LatestQueued := h.pollPass.drainPass

/-- The poll keeps the baseline; whether it moves the reference back depends on the fix it queues. -/
theorem Baseline.pollPass (h : s.Baseline unspecified) :
    let p := s.pollPass math unspecified bootId i o
    p.Baseline unspecified ∧ (s.policy.hasSent → p.policy.hasSent) ∧
      (s.QueuesInOrder math unspecified bootId i o ↔
        (s.policy.hasSent → ¬ Earlier p.policy.lastSent.recordedAt s.policy.lastSent.recordedAt)) := by
  obtain ⟨-, hlatest, hsent, hnone⟩ | ⟨fix, record, hpolled, hpushed, -, hlatest, hfix, hhas⟩ :=
    @pollPass_cases math unspecified bootId i o s
  · refine ⟨fun hhas => ?_, fun hhas => hsent.hasSent.trans hhas, iff_of_true ?_ ?_⟩
    · obtain ⟨latest, hsome, hrefers⟩ := h (hsent.hasSent.symm.trans hhas)
      exact ⟨latest, hlatest.trans hsome, hsent.lastSent ▸ hrefers⟩
    · exact fun fix record hpolled hpushed => absurd hpushed (hnone fix record hpolled)
    · rw [hsent.lastSent]
      exact fun _ => not_earlier_self _
  · refine ⟨fun _ => ⟨_, hlatest, ?_⟩, fun _ => hhas, ?_⟩
    · obtain ⟨-, -, hrecord⟩ := polled_snd_eq_some hpolled
      rw [hfix]
      exact refers_stamp s.queue hrecord
    · rw [hfix]
      constructor
      · exact fun horder => horder fix record hpolled hpushed
      · intro horder fix' record' hpolled' _
        cases hpolled.symm.trans hpolled'
        exact horder

/-- One pass keeps the reference at the newest fix exactly when it works in order. -/
theorem baselineKept_iff (h : s.Baseline unspecified) (hqueued : s.LatestQueued)
    (a : LoopInputs × QueueOutcomes) :
    s.BaselineKept math unspecified bootId a ↔ s.InOrder math unspecified bootId a := by
  obtain ⟨i, o⟩ := a
  obtain ⟨hp, hhas, horder⟩ := @Baseline.pollPass math unspecified bootId s i o h
  have hpqueued := @LatestQueued.pollPass math unspecified bootId s i o hqueued
  unfold BaselineKept InOrder Tracker.pass
  dsimp only
  rw [horder]
  generalize s.pollPass math unspecified bootId i o = p at hp hhas hpqueued ⊢
  obtain ⟨hlatest, ⟨-, hsent, hnone⟩ | ⟨n, newest, hacks, hnewest, -, hfix, hthas⟩⟩ :=
    @drainPass_cases i o p
  · -- Nothing is acknowledged: the reference is as the poll left it.
    have hkept : (p.drainPass i o).Baseline unspecified := by
      intro hthas
      obtain ⟨latest, hsome, hrefers⟩ := hp (hsent.hasSent.symm.trans hthas)
      exact ⟨latest, hlatest.trans hsome, hsent.lastSent ▸ hrefers⟩
    have hdrains : p.DrainsToNewest i o := by
      intro hacks newest _ hnewest
      rw [hnone hacks] at hnewest
      cases hnewest
    rw [hsent.lastSent]
    exact ⟨fun hk => ⟨hk.2, hdrains⟩, fun hk => ⟨hkept, hk.1⟩⟩
  · have hne : p.queue.records ≠ [] := by
      rintro hnil
      rw [batch, hnil, List.take_nil, List.take_nil] at hnewest
      cases hnewest
    have hlast : p.queue.records.getLast? = some (p.queue.records.getLast hne) :=
      List.getLast?_eq_some_getLast hne
    generalize p.queue.records.getLast hne = latest at hlast
    have hsome : p.latest = some latest := (hpqueued hne).trans hlast
    have hkept : (p.drainPass i o).Baseline unspecified ↔ SamePoint newest latest := by
      rw [← refers_fromFixRecord_iff, ← hfix]
      constructor
      · intro hb
        obtain ⟨latest', hsome', hrefers⟩ := hb hthas
        cases (hlatest.trans hsome).symm.trans hsome'
        exact hrefers
      · exact fun hrefers _ => ⟨latest, hlatest.trans hsome, hrefers⟩
    have hdrains : p.DrainsToNewest i o ↔ SamePoint newest latest := by
      constructor
      · exact fun hd => hd hacks newest latest hnewest hlast
      · intro hpoint _ newest' latest' hnewest' hlast'
        cases hnewest.symm.trans hnewest'
        cases hlast.symm.trans hlast'
        exact hpoint
    rw [hkept, hdrains, and_comm]
    refine and_congr_left fun hpoint => imp_congr_right fun hshas => ?_
    -- The acknowledged record and the reference before the drain are of the time of the newest fix.
    obtain ⟨latest', hsome', hrefers⟩ := hp (hhas hshas)
    cases hsome.symm.trans hsome'
    rw [hfix, hrefers.recordedAt, ← hpoint.recordedAt]
    rfl

/-- The reference stays at the fix queued last, and does not go back in time, along a run of the main
loop exactly when every pass queues and drains in order. -/
theorem sampling_baseline_iff (math : MathFunctions) (unspecified : Double → Int64)
    (bootId : UInt32) (config : SamplingConfig) (queue : Fifo) (queueReady : Bool)
    (passes : List (LoopInputs × QueueOutcomes)) :
    Along (step math unspecified bootId) (BaselineKept math unspecified bootId)
        (setup config queue queueReady) passes ↔
      Along (step math unspecified bootId) (InOrder math unspecified bootId)
        (setup config queue queueReady) passes := by
  have hinit : (setup config queue queueReady).Baseline unspecified ∧
      (setup config queue queueReady).LatestQueued :=
    ⟨fun hhas => (by cases hhas), fun _ => rfl⟩
  have hrun := Run.of_total (fun (s : Tracker Fifo) (a : LoopInputs × QueueOutcomes) =>
    s.pass math unspecified bootId a.1 a.2) passes (setup config queue queueReady)
  change Run (step math unspecified bootId) _ _ _ at hrun
  refine hrun.along_iff (fun s => s.Baseline unspecified ∧ s.LatestQueued) ?_ ?_ hinit
  · intro s a _ hs _
    exact baselineKept_iff hs.1 hs.2 a
  · intro s a t hs hstep hguard
    cases hstep
    exact ⟨((baselineKept_iff hs.1 hs.2 a).mpr hguard).1, hs.2.pass⟩

/-- A pass with a fast fix and no network, every three seconds. -/
def outagePass (n : Nat) : LoopInputs × QueueOutcomes where
  fst :=
    { now := UInt32.ofNat (3000 * (n + 1)), fix := some (SamplingPolicy.fastFix (Int16.ofNat n))
      live := ⟨3700, 20⟩, cellularReady := false, gpsDisabled := false, result := .transportError
      gpsEnabled := true, enabledAt := 0, sentAt := 0 }
  snd := .complete

/-- The network is back, and the first batch of the backlog is acknowledged. -/
def firstDrain : LoopInputs × QueueOutcomes where
  fst :=
    { now := 70000, fix := none, live := ⟨3700, 20⟩, cellularReady := true, gpsDisabled := true
      result := .sent, gpsEnabled := true, enabledAt := 71000, sentAt := 71000 }
  snd := .complete

set_option maxRecDepth 20000 in
/-- An outage of twenty-one fixes: the first drain moves the reference from the last of them back to
the one before. -/
theorem sampling_baseline_moves_back :
    ¬ Along (step SamplingPolicy.mathAtRest (fun _ => 0) 1)
      (BaselineKept SamplingPolicy.mathAtRest (fun _ => 0) 1) (setup trackerSampling .empty true)
      ((List.range 21).map outagePass ++ [firstDrain]) := by
  intro halong
  have hrun := Run.of_total (fun (s : Tracker Fifo) (a : LoopInputs × QueueOutcomes) =>
    s.pass SamplingPolicy.mathAtRest (fun _ => 0) 1 a.1 a.2) ((List.range 21).map outagePass)
    (setup trackerSampling .empty true)
  change Run (step SamplingPolicy.mathAtRest (fun _ => 0) 1) _ _ _ at hrun
  have hback := (halong.last hrun).2
  exact absurd hback (by decide +kernel)

end Tracker

end OpenGps.Uplink
