import OpenGps.Firmware.StoreDurability
import OpenGps.Firmware.StoreQueue

/-!
# Power cuts inside `push` and `ackFront`

The record goes to the data file before the meta that publishes it, so an interrupted operation
should leave the queue of the last meta. `Loaded` says that a ready object and the flash describe the
same queue, `FlashInv` what the flash alone keeps across cuts. Both hold over runs with power cuts at
any point; what breaks them is a record write, cut or not yet published, on top of a record that a
boot still counts on, which is what `push` does when the ring is full.
-/

namespace OpenGps.Firmware

open OpenGps.Lib OpenGps.Lib.CrashIo

/-- The meta without its checksum, which only the flash image needs. -/
def FixQueueMeta.bare (m : FixQueueMeta) : FixQueueMeta := { m with crc := 0 }

theorem FixQueueMeta.generation_of_bare {m m' : FixQueueMeta} (h : m.bare = m'.bare) :
    m.generation = m'.generation := by
  have := congrArg FixQueueMeta.generation h
  exact this

theorem FixQueueMeta.sameQueue_of_bare {m m' : FixQueueMeta} (h : m.bare = m'.bare) :
    SameQueue m m' := by
  cases m
  cases m'
  simp_all [bare, SameQueue]

/-- The meta a boot picks. -/
def bootMeta (d : Disk StorePath) : Option FixQueueMeta :=
  fixQueueMetaPick (slotMeta d.files .a) (slotMeta d.files .b)

/-- What the flash keeps, with or without a running object. A slot B of another capacity survives
the reset of a capacity change, which starts slot A at generation one. -/
structure FlashInv (d : Disk StorePath) : Prop where
  bounded : ∀ slot m, slotMeta d.files slot = some m → m.generation.toNat ≤ commits d
  ringed : ∀ slot m, slotMeta d.files slot = some m → m.Ringed
  live : ∀ m, bootMeta d = some m → AllLive (d.files .data) m
  capacities : ∀ a b, slotMeta d.files .a = some a → slotMeta d.files .b = some b →
    a.capacity = b.capacity ∨ a.generation ≤ 1

/-- A boot shows the queue of `m`: it picks `m`, or a meta of another capacity, which it replaces by
the fresh one that `m` is. -/
def BootsTo (d : Disk StorePath) (m : FixQueueMeta) : Prop :=
  (bootMeta d).map FixQueueMeta.bare = some m.bare ∨
    SameQueue m (fixQueueMetaFresh m.capacity) ∧
      ∃ m', bootMeta d = some m' ∧ m'.capacity ≠ m.capacity

/-- The object and the flash describe the same queue. -/
structure Loaded (s : PersistentFixStore) (d : Disk StorePath) : Prop where
  ringed : s.queueMeta.Ringed
  nextSeq : s.queueMeta.nextSeq ≠ 0
  capacity : s.queueMeta.capacity = s.queueCapacity
  bound : s.queueMeta.generation.toNat ≤ commits d
  here : (slotMeta d.files s.nextSlot.other).map FixQueueMeta.bare = some s.queueMeta.bare
  data : (d.files .data).isSome
  live : AllLive (d.files .data) s.queueMeta
  boots : BootsTo d s.queueMeta

section
variable {s : PersistentFixStore} {d d' : Disk StorePath}

theorem bootMeta_same (h : SameSlots d d') : bootMeta d' = bootMeta d := by
  rw [bootMeta, bootMeta, h.slots, h.slots]

/-- The meta a boot picks is in one of the slots. -/
theorem slotMeta_of_bootMeta {m : FixQueueMeta} (h : bootMeta d = some m) :
    ∃ slot, slotMeta d.files slot = some m := by
  have hm := winner_read h
  rcases hw : PersistentFixStore.winner (slotMeta d.files .a) (slotMeta d.files .b) <;>
    simp only [hw] at hm
  · exact ⟨.a, hm⟩
  · exact ⟨.b, hm⟩

/-- Files that a boot reads the same from, and whose live slots still hold records. -/
theorem FlashInv.of_same (h : FlashInv d) (hsame : SameSlots d d')
    (hlive : ∀ m, bootMeta d = some m → AllLive (d'.files .data) m) : FlashInv d' where
  bounded slot m hm := by
    rw [hsame.commits]
    exact h.bounded slot m (hsame.slots slot ▸ hm)
  ringed slot m hm := h.ringed slot m (hsame.slots slot ▸ hm)
  live m hm := hlive m (bootMeta_same hsame ▸ hm)
  capacities a b ha hb := h.capacities a b (hsame.slots .a ▸ ha) (hsame.slots .b ▸ hb)

theorem BootsTo.of_same {m : FixQueueMeta} (h : BootsTo d m) (hsame : SameSlots d d') :
    BootsTo d' m := by
  rw [BootsTo, bootMeta_same hsame]
  exact h

theorem Loaded.of_same (h : Loaded s d) (hsame : SameSlots d d') (hdata : (d'.files .data).isSome)
    (hlive : AllLive (d'.files .data) s.queueMeta) : Loaded s d' where
  ringed := h.ringed
  nextSeq := h.nextSeq
  capacity := h.capacity
  bound := by rw [hsame.commits]; exact h.bound
  here := by rw [hsame.slots]; exact h.here
  data := hdata
  live := hlive
  boots := h.boots.of_same hsame

/-- What is read from the data file is the same. -/
theorem AllLive.of_sameData {m : FixQueueMeta} (hdata : PersistentFixStore.SameData d d')
    (h : AllLive (d.files .data) m) : AllLive (d'.files .data) m := by
  refine h.congr fun i _ => ?_
  rw [slotRecord, slotRecord, slice, slice, hdata]

/-! ## Torn and published slots -/

/-- A torn slot leaves the other one to boot from. -/
theorem bootMeta_of_torn {slot : MetaSlot} (htorn : Torn slot d d') :
    bootMeta d' = bootMeta d ∨
      slotMeta d'.files slot = none ∧ bootMeta d' = slotMeta d.files slot.other := by
  rcases htorn.here with heq | hnone
  · left
    cases slot
    · rw [bootMeta, bootMeta, heq, show slotMeta d'.files .b = _ from htorn.other]
      rfl
    · rw [bootMeta, bootMeta, heq, show slotMeta d'.files .a = _ from htorn.other]
      rfl
  · refine .inr ⟨hnone, ?_⟩
    rw [← htorn.other]
    cases slot
    · rw [bootMeta, hnone]
      rcases h : slotMeta d'.files .b <;> simp [fixQueueMetaPick, h, MetaSlot.other]
    · rw [bootMeta, hnone]
      rcases h : slotMeta d'.files .a <;> simp [fixQueueMetaPick, h, MetaSlot.other]

theorem slotMeta_of_torn {slot slot' : MetaSlot} {m : FixQueueMeta} (htorn : Torn slot d d')
    (hm : slotMeta d'.files slot' = some m) : slotMeta d.files slot' = some m := by
  obtain rfl | rfl : slot' = slot ∨ slot' = slot.other := by
    cases slot <;> cases slot' <;> simp [MetaSlot.other]
  · rcases htorn.here with heq | hnone
    · rw [← heq]; exact hm
    · rw [hnone] at hm; cases hm
  · rw [← htorn.other]; exact hm

theorem FlashInv.of_torn {slot : MetaSlot} (h : FlashInv d) (htorn : Torn slot d d')
    (hother : ∀ m, slotMeta d.files slot.other = some m → AllLive (d.files .data) m) :
    FlashInv d' where
  bounded slot' m hm := by
    rw [htorn.commits]
    exact h.bounded slot' m (slotMeta_of_torn htorn hm)
  ringed slot' m hm := h.ringed slot' m (slotMeta_of_torn htorn hm)
  live m hm := by
    rw [htorn.data]
    rcases bootMeta_of_torn htorn with heq | ⟨-, heq⟩ <;> rw [heq] at hm
    · exact h.live m hm
    · exact hother m hm
  capacities a b ha hb :=
    h.capacities a b (slotMeta_of_torn htorn ha) (slotMeta_of_torn htorn hb)

theorem AllLive.of_bare {data : Option (List UInt8)} {m m' : FixQueueMeta} (hbare : m'.bare = m.bare)
    (h : AllLive data m) : AllLive data m' := by
  have h' : AllLive data m.bare := h
  rw [← hbare] at h'
  exact h'

/-- The slot of the object holds a meta with its queue. -/
theorem Loaded.anchor (h : Loaded s d) : ∃ m, slotMeta d.files s.nextSlot.other = some m ∧
    m.bare = s.queueMeta.bare := Option.map_eq_some_iff.mp h.here

theorem Loaded.of_torn (h : Loaded s d) (htorn : Torn s.nextSlot d d') : Loaded s d' where
  ringed := h.ringed
  nextSeq := h.nextSeq
  capacity := h.capacity
  bound := by rw [htorn.commits]; exact h.bound
  here := by rw [htorn.other]; exact h.here
  data := by rw [htorn.data]; exact h.data
  live := by rw [htorn.data]; exact h.live
  boots := by
    rcases bootMeta_of_torn htorn with heq | ⟨-, heq⟩ <;> rw [BootsTo, heq]
    · exact h.boots
    · exact .inl h.here

theorem FlashInv.of_torn_loaded (h : FlashInv d) (hl : Loaded s d) (htorn : Torn s.nextSlot d d') :
    FlashInv d' := by
  refine h.of_torn htorn fun m hm => ?_
  obtain ⟨m', hm', hbare⟩ := hl.anchor
  rw [hm] at hm'
  cases hm'
  exact hl.live.of_bare hbare

/-- What the object may commit next: a meta with its generation and capacity, whose slots are
live. -/
structure Committable (s : PersistentFixStore) (d : Disk StorePath) (m : FixQueueMeta) : Prop where
  ringed : m.Ringed
  nextSeq : m.nextSeq ≠ 0
  generation : m.generation = s.queueMeta.generation
  capacity : m.capacity = s.queueMeta.capacity
  live : AllLive (d.files .data) m

/-- The object after a successful commit of `m`. -/
def PersistentFixStore.published (s : PersistentFixStore) (m : FixQueueMeta) : PersistentFixStore :=
  PersistentFixStore.committed { s with queueMeta := m }

/-- The slot that was written wins the next boot. -/
theorem bootMeta_of_published {slot : MetaSlot} {m : FixQueueMeta} (hpub : Published slot m d d')
    (hseq : m.nextSeq ≠ 0)
    (hother : ∀ m', slotMeta d.files slot.other = some m' → m'.generation < m.generation) :
    bootMeta d' = some m.sealed := by
  have hhere : slotMeta d'.files slot = some m.sealed := by
    rw [hpub.here, if_neg hseq]
  have habove : ∀ m', slotMeta d'.files slot.other = some m' → m'.generation < m.generation := by
    rw [hpub.other]
    exact hother
  unfold bootMeta
  rcases slot with _ | _
  · rw [hhere]
    rcases hb : slotMeta d'.files .b with _ | b
    · rfl
    · exact congrArg some (if_neg (UInt32.lt_asymm (habove b hb)))
  · rw [hhere]
    rcases ha : slotMeta d'.files .a with _ | a
    · rfl
    · exact congrArg some (if_pos (habove a ha))

theorem toNat_generation_succ {m : FixQueueMeta} (hbound : m.generation.toNat ≤ commits d)
    (hlife : commits d + 1 < 2 ^ 32) : (m.generation + 1).toNat = m.generation.toNat + 1 := by
  rw [UInt32.toNat_add]
  exact Nat.mod_eq_of_lt (by simp; omega)

theorem Loaded.of_published {m : FixQueueMeta} (hf : FlashInv d) (h : Loaded s d)
    (hm : Committable s d m)
    (hpub : Published s.nextSlot (PersistentFixStore.nextMeta { s with queueMeta := m }) d d')
    (hlife : commits d' < 2 ^ 32) : FlashInv d' ∧ Loaded (s.published m) d' := by
  rw [hpub.commits] at hlife
  obtain ⟨m₀, hm₀, hbare⟩ := h.anchor
  have hgen₀ : m₀.generation = s.queueMeta.generation :=
    FixQueueMeta.generation_of_bare hbare
  have hcap₀ : m₀.capacity = s.queueMeta.capacity := (FixQueueMeta.sameQueue_of_bare hbare).1
  have hgen : (m.generation + 1).toNat = s.queueMeta.generation.toNat + 1 := by
    rw [hm.generation]
    exact toNat_generation_succ h.bound hlife
  have hboot := bootMeta_of_published hpub hm.nextSeq fun m' hm' => by
    rw [hm₀] at hm'
    cases hm'
    rw [UInt32.lt_iff_toNat_lt, hgen₀]
    exact lt_of_lt_of_eq (Nat.lt_succ_self _) hgen.symm
  -- The slot that was written holds the new meta, the other one what it held.
  have hslots : ∀ slot m', slotMeta d'.files slot = some m' →
      slot = s.nextSlot ∧ m' = (PersistentFixStore.nextMeta { s with queueMeta := m }).sealed ∨
        slot = s.nextSlot.other ∧ m' = m₀ := by
    intro slot m' hm'
    obtain rfl | rfl : slot = s.nextSlot ∨ slot = s.nextSlot.other := by
      rcases s.nextSlot <;> cases slot <;> simp [MetaSlot.other]
    · rw [hpub.here, if_neg (by exact hm.nextSeq)] at hm'
      exact .inl ⟨rfl, (Option.some.inj hm').symm⟩
    · rw [hpub.other, hm₀] at hm'
      exact .inr ⟨rfl, (Option.some.inj hm').symm⟩
  refine ⟨⟨?_, ?_, ?_, ?_⟩, ⟨hm.ringed, hm.nextSeq, hm.capacity.trans h.capacity, ?_, ?_, ?_, ?_, ?_⟩⟩
  · intro slot m' hm'
    rw [hpub.commits]
    rcases hslots slot m' hm' with ⟨-, rfl⟩ | ⟨-, rfl⟩
    · exact hgen.le.trans (Nat.succ_le_succ h.bound)
    · exact (hf.bounded _ _ hm₀).trans (Nat.le_succ _)
  · intro slot m' hm'
    rcases hslots slot m' hm' with ⟨-, rfl⟩ | ⟨-, rfl⟩
    · exact hm.ringed
    · exact hf.ringed _ _ hm₀
  · intro m' hm'
    rw [hboot] at hm'
    cases hm'
    rw [hpub.data]
    exact hm.live
  · intro a b ha hb
    have hcap : ∀ slot m', slotMeta d'.files slot = some m' →
        m'.capacity = s.queueMeta.capacity := by
      intro slot m' hm'
      rcases hslots slot m' hm' with ⟨-, rfl⟩ | ⟨-, rfl⟩
      · exact hm.capacity
      · exact hcap₀
    exact .inl ((hcap .a a ha).trans (hcap .b b hb).symm)
  · rw [hpub.commits]
    exact hgen.le.trans (Nat.succ_le_succ h.bound)
  · rw [show (s.published m).nextSlot.other = s.nextSlot from MetaSlot.other_other _, hpub.here,
      if_neg (by exact hm.nextSeq)]
    rfl
  · rw [hpub.data]
    exact h.data
  · rw [hpub.data]
    exact hm.live
  · left
    rw [hboot]
    rfl

/-! ## The reboot -/

/-- A fresh `begin` over the files of `d`, whose file operations complete, shows the queue `q`. -/
def RebootShows (d : Disk StorePath) (capacity : UInt32) (q : LogicalQueue) : Prop :=
  ∃ r d', PersistentFixStore.init.begin capacity ⟨d.files, [], d.written⟩ = (some r, d') ∧
    r.ok = true ∧ logicalQueue r.store d' = some q

/-- The queue a meta and a data file describe. -/
def queueOf (data : Option (List UInt8)) (m : FixQueueMeta) : LogicalQueue :=
  ⟨liveRecords data m, m.nextSeq, m.lostCount⟩

theorem SameQueue.liveSlot {m m' : FixQueueMeta} (h : SameQueue m m') : m.liveSlot = m'.liveSlot := by
  funext i
  rw [FixQueueMeta.liveSlot, FixQueueMeta.liveSlot, h.1, h.2.2.1]

theorem SameQueue.queueOf_eq {m m' : FixQueueMeta} (h : SameQueue m m') {data : Option (List UInt8)} :
    queueOf data m = queueOf data m' := by
  rw [queueOf, queueOf, liveRecords, liveRecords, h.liveSlot, h.2.2.2.1, h.2.2.2.2.1, h.2.2.2.2.2]

theorem SameQueue.allLive {m m' : FixQueueMeta} (h : SameQueue m m') {data : Option (List UInt8)}
    (hlive : AllLive data m') : AllLive data m := by
  intro i hi
  rw [h.liveSlot]
  exact hlive i (h.2.2.2.1 ▸ hi)

theorem queueOf_sameData {m : FixQueueMeta} (hdata : PersistentFixStore.SameData d d') :
    queueOf (d'.files .data) m = queueOf (d.files .data) m := by
  have hrec : liveRecords (d'.files .data) m = liveRecords (d.files .data) m :=
    liveRecords_congr fun i _ => by rw [slotRecord, slotRecord, slice, slice, hdata]
  rw [queueOf, queueOf, hrec]

/-- Flash that boots to `m` shows the queue of `m`. -/
theorem BootsTo.reboot {m : FixQueueMeta} (h : BootsTo d m) (hcap : m.capacity ≠ 0)
    (hlive : AllLive (d.files .data) m) :
    RebootShows d m.capacity (queueOf (d.files .data) m) := by
  have hwp : wp (PersistentFixStore.init.begin m.capacity) (fun r d' => r.ok = true ∧
      logicalQueue r.store d' = some (queueOf (d.files .data) m)) (fun _ => False)
      ⟨d.files, [], d.written⟩ := by
    -- Once the object has a meta with the queue of `m`, the rest of `begin` keeps it.
    have hfinish : ∀ (r : PersistentFixStore.BeginResult) (d₁ : Disk StorePath),
        r.ok → SameQueue r.store.queueMeta m → d₁.faults = [] →
        d₁.files .data = d.files .data → wp r.finish (fun r d' => r.ok = true ∧
          logicalQueue r.store d' = some (queueOf (d.files .data) m)) (fun _ => False) d₁ := by
      intro r d₁ hok hsame hfaults hdata₁
      apply PersistentFixStore.wp_finish_complete hfaults hok
      intro d₂ hfaults₂ _ hdata
      have hdata₂ : PersistentFixStore.SameData d d₂ := by
        rw [PersistentFixStore.SameData, hdata, hdata₁]
      have hlive₂ : AllLive (d₂.files .data) r.store.queueMeta :=
        hsame.allLive (hlive.of_sameData hdata₂)
      have hshown : ∀ es, logicalQueue { r.store with readyState := true }
          ⟨d₂.files, es, d₂.written⟩ = some (queueOf (d.files .data) m) := by
        intro es
        have hq := logicalQueue_eq (s := { r.store with readyState := true })
          (d := ⟨d₂.files, es, d₂.written⟩) rfl hlive₂
        rw [hq, ← queueOf_sameData hdata₂, ← hsame.queueOf_eq]
        rfl
      apply PersistentFixStore.wp_probeFront
      · intro _
        exact ⟨rfl, hshown d₂.faults⟩
      · intro _ _ es _
        exact ⟨rfl, hshown es⟩
      · intro hne hfront _ _
        exfalso
        rcases hfront with hnone | ⟨k, hk⟩
        · exact hlive₂ 0 (Nat.pos_of_ne_zero fun h0 => hne (UInt32.toNat_inj.mp h0)) hnone
        · rw [hfaults₂] at hk; cases hk
      · rfl
      · intro k hk
        rw [hfaults₂] at hk; cases hk
    apply PersistentFixStore.wp_begin_complete rfl hcap
    apply PersistentFixStore.wp_recoverFrom rfl
    · intro hother
      rcases h with hboot | ⟨hfresh, -⟩
      · obtain ⟨m', hm', hbare⟩ := Option.map_eq_some_iff.mp hboot
        exact absurd (FixQueueMeta.sameQueue_of_bare hbare).1 (hother m' hm')
      · apply PersistentFixStore.wp_commitMeta_complete rfl
          (PersistentFixStore.fresh_wellFormed hcap)
        intro d₁ hpub hfaults
        refine hfinish _ d₁ rfl ?_ hfaults hpub.data
        exact ⟨hfresh.1.symm, hfresh.2.1.symm, hfresh.2.2.1.symm, hfresh.2.2.2.1.symm,
          hfresh.2.2.2.2.1.symm, hfresh.2.2.2.2.2.symm⟩
    · intro m' hm' hcap'
      rcases h with hboot | ⟨-, m'', hboot, hne⟩
      · obtain ⟨m'', hm'', hbare⟩ := Option.map_eq_some_iff.mp hboot
        obtain rfl : m'' = m' := Option.some.inj (hm''.symm.trans hm')
        exact hfinish _ _ rfl (FixQueueMeta.sameQueue_of_bare hbare) rfl rfl
      · obtain rfl : m'' = m' := Option.some.inj (hboot.symm.trans hm')
        exact absurd hcap' hne
  obtain ⟨r, d', hbegin, hok, hqueue⟩ := returns_of_wp hwp
  exact ⟨r, d', hbegin, hok, hqueue⟩

/-! ## The operations -/

theorem Loaded.capacity_ne_zero (h : Loaded s d) : s.queueMeta.capacity ≠ 0 := h.ringed.1.1

/-- A ready object and its flash show the same queue. -/
theorem Loaded.reboot (h : Loaded s d) :
    RebootShows d s.queueMeta.capacity (queueOf (d.files .data) s.queueMeta) :=
  h.boots.reboot h.capacity_ne_zero h.live

/-- The slot a push writes is no live slot of the object, nor of the meta a boot would pick. -/
def SlotFree (s : PersistentFixStore) (d : Disk StorePath) : Prop :=
  ∀ m, m = s.queueMeta ∨ bootMeta d = some m →
    ∀ i < m.count.toNat, slotOffset (m.liveSlot i) ≠ slotOffset s.queueMeta.head

/-- Any part of a record in a free slot leaves the queue as it was. -/
theorem Loaded.of_free_write (hf : FlashInv d) (h : Loaded s d) (hfree : SlotFree s d)
    {base bs : List UInt8} (hbase : d.files .data = some base) (hbs : bs.length ≤ 64)
    (hsame : SameSlots d d')
    (hdata : d'.files .data = some (overlay base (slotOffset s.queueMeta.head).toNat bs)) :
    FlashInv d' ∧ Loaded s d' ∧
      queueOf (d'.files .data) s.queueMeta = queueOf (d.files .data) s.queueMeta := by
  have hkept : ∀ m, m = s.queueMeta ∨ bootMeta d = some m → AllLive (d.files .data) m →
      ∀ i < m.count.toNat, slotRecord (d'.files .data) (m.liveSlot i) =
        slotRecord (d.files .data) (m.liveSlot i) := by
    intro m hm hlive
    rw [hbase] at hlive ⊢
    rw [hdata]
    exact slotRecord_liveSlot_kept hbs hlive (hfree m hm)
  have hown := hkept s.queueMeta (.inl rfl) h.live
  refine ⟨hf.of_same hsame fun m hm => ?_, h.of_same hsame (by simp [hdata]) ?_, ?_⟩
  · exact (hf.live m hm).congr (hkept m (.inr hm) (hf.live m hm))
  · exact h.live.congr hown
  · rw [queueOf, queueOf, liveRecords_congr hown]

/-- A complete record write keeps every slot readable, and makes the pushed meta committable. -/
theorem Loaded.of_record_written (hf : FlashInv d) (h : Loaded s d) {record : FixRecord}
    {base wire : List UInt8} (hbase : d.files .data = some base)
    (hwire : fixRecordEncode (s.stamp record) fixRecordWireSize = some wire)
    (hid : (s.stamp record).sequenceId ≠ 0xFFFFFFFF) (hsame : SameSlots d d')
    (hdata : d'.files .data = some (overlay base (slotOffset s.queueMeta.head).toNat wire)) :
    FlashInv d' ∧ Loaded s d' ∧ Committable s d' (s.pushed record).queueMeta := by
  have hread : ∀ slot, slotOffset slot = slotOffset s.queueMeta.head ∨
      slotRecord (d.files .data) slot ≠ none → slotRecord (d'.files .data) slot ≠ none := by
    intro slot hslot
    rw [hbase] at hslot
    rw [hdata]
    exact slotRecord_ne_none_of_written hwire hslot
  have hlive : ∀ m, AllLive (d.files .data) m → AllLive (d'.files .data) m :=
    fun m hm i hi => hread _ (.inr (hm i hi))
  refine ⟨hf.of_same hsame fun m hm => hlive m (hf.live m hm),
    h.of_same hsame (by simp [hdata]) (hlive _ h.live), ?_⟩
  refine ⟨PersistentFixStore.ringed_pushMeta h.ringed,
    PersistentFixStore.pushMeta_nextSeq_ne_zero h.nextSeq hid,
    PersistentFixStore.pushMeta_generation .., PersistentFixStore.pushMeta_capacity .., ?_⟩
  intro i hi
  rcases PersistentFixStore.liveSlot_pushMeta_cases h.ringed hi with hhead | ⟨j, hj, hslot⟩
  · exact hread _ (.inl (congrArg slotOffset hhead))
  · refine hread _ (.inr ?_)
    rw [PersistentFixStore.pushed, hslot]
    exact h.live j hj

/-- What a step of a loaded, ready object leaves: it is loaded and ready again. -/
def Again (s : PersistentFixStore) (d : Disk StorePath) : Prop :=
  commits d < 2 ^ 32 → FlashInv d ∧ Loaded s d ∧ s.readyState

/-- The script cuts the power, and a boot after that shows the queue before the operation or the
queue `after`. -/
def CutShows (s : PersistentFixStore) (d : Disk StorePath) (after : LogicalQueue)
    (d' : Disk StorePath) : Prop :=
  (∃ k, .cut k ∈ d.faults) ∧ (commits d' < 2 ^ 32 → FlashInv d' ∧
    (RebootShows d' s.queueMeta.capacity (queueOf (d.files .data) s.queueMeta) ∨
      RebootShows d' s.queueMeta.capacity after))

/-- The queue after a push that completes. -/
def afterPush (s : PersistentFixStore) (d : Disk StorePath) (record : FixRecord) : LogicalQueue :=
  let wire := (fixRecordEncode (s.stamp record) fixRecordWireSize).getD []
  let data := overlay ((d.files .data).getD []) (slotOffset s.queueMeta.head).toNat wire
  queueOf (some data) (s.pushed record).queueMeta

/-- The queue after an acknowledgement that completes. -/
def afterAck (s : PersistentFixStore) (d : Disk StorePath) (count : Nat) : LogicalQueue :=
  queueOf (d.files .data) (s.acked count).queueMeta

/-! ### A push, an acknowledgement, a look

When the power is cut, the next boot shows the queue as it was before the operation or after it. -/

/-- The script cuts the power of a push after the first byte of the record and before the last byte
of the meta. -/
def CutsBetween : List Fault → Prop
  | .ok :: .ok :: .cut k :: _ => k ≠ 0
  | .ok :: .ok :: .ok :: .cut _ :: _ => True
  | .ok :: .ok :: .ok :: .ok :: .cut k :: _ => k < fixQueueMetaWireSize
  | _ => False

theorem CutsBetween.of_record {faults : List Fault} {k : Nat} (h₀ : faults.getD 0 .ok = .ok)
    (h₁ : faults.getD 1 .ok = .ok) (h₂ : faults.getD 2 .ok = .cut k) (hk : k ≠ 0) :
    CutsBetween faults := by
  rcases faults with _ | ⟨e₀, _ | ⟨e₁, _ | ⟨e₂, es⟩⟩⟩
  iterate 3 cases h₂
  cases h₀
  cases h₁
  cases h₂
  exact hk

theorem CutsBetween.of_commit {faults : List Fault} {k : Nat} (h₀ : faults.getD 0 .ok = .ok)
    (h₁ : faults.getD 1 .ok = .ok) (h₂ : faults.getD 2 .ok = .ok)
    (h : faults.getD 3 .ok = .cut k ∨
      faults.getD 3 .ok = .ok ∧ faults.getD 4 .ok = .cut k ∧ k < fixQueueMetaWireSize) :
    CutsBetween faults := by
  rcases faults with _ | ⟨e₀, _ | ⟨e₁, _ | ⟨e₂, _ | ⟨e₃, es⟩⟩⟩⟩
  iterate 4 rcases h with h | ⟨-, h, -⟩ <;> cases h
  cases h₀
  cases h₁
  cases h₂
  obtain h | ⟨h₃, h₄, hk⟩ := h
  · cases h
    trivial
  · rcases es with _ | ⟨e₄, es⟩
    · cases h₄
    · cases h₃
      cases h₄
      exact hk

theorem SameSlots.update_data {bs : List UInt8} {es : List Fault} {w : StorePath → Nat}
    (h : Firmware.commits ⟨d.files, es, w⟩ = Firmware.commits d) :
    SameSlots d ⟨Function.update d.files .data (some bs), es, w⟩ :=
  ⟨fun _ => slotMeta_update_data, h⟩

/-- The commit of a push, behind its record. Where it can leave the old meta, the record lies in a
free slot. -/
theorem wp_commit_pushed_loaded {record : FixRecord} {base wire : List UInt8} {d₁ : Disk StorePath}
    (hf : FlashInv d) (h : Loaded s d) (hready : s.readyState) (hnofail : ∀ k, .fail k ∉ d.faults)
    (hid : (s.stamp record).sequenceId ≠ 0xFFFFFFFF) (hbase : d.files .data = some base)
    (hwire : fixRecordEncode (s.stamp record) fixRecordWireSize = some wire)
    (hsame : SameSlots d d₁)
    (hdata : d₁.files .data = some (overlay base (slotOffset s.queueMeta.head).toNat wire))
    (hentry : ∀ i, d₁.faults.getD i .ok = d.faults.getD (i + 3) .ok)
    (hfree : ∀ k, (d.faults.getD 3 .ok = .cut k ∨ d.faults.getD 3 .ok = .ok ∧
      d.faults.getD 4 .ok = .cut k ∧ k < fixQueueMetaWireSize) → SlotFree s d) :
    wp (s.pushed record).commitMeta (fun r d' => Again (s.pushResult record r).2.1 d' ∧
        (s.pushResult record r).1 = true ∧
          logicalQueue (s.pushResult record r).2.1 d' = some (afterPush s d record))
      (CutShows s d (afterPush s d record)) d₁ := by
  obtain ⟨hf₁, h₁, hm⟩ := h.of_record_written hf hbase hwire hid hsame hdata
  have hmem : ∀ {i k}, d.faults.getD i .ok = .cut k → .cut k ∈ d.faults := fun h =>
    mem_of_getD h (by simp)
  have hqueue : ∀ d' : Disk StorePath, d'.files .data = d₁.files .data →
      queueOf (d'.files .data) (s.pushed record).nextMeta = afterPush s d record := by
    intro d' hdata'
    rw [afterPush, hbase, hwire, hdata', hdata]
    rfl
  have hpublished : ∀ d', Published (s.pushed record).nextSlot (s.pushed record).nextMeta d₁ d' →
      Again (s.pushed record).committed d' := by
    intro d' hpub hlife
    obtain ⟨hf', h'⟩ := h₁.of_published hf₁ hm hpub hlife
    exact ⟨hf', h', hready⟩
  apply PersistentFixStore.wp_commitMeta_script hm.ringed.1 <;> simp only [hentry]
  · intro _ _ d' hpub
    refine ⟨hpublished d' hpub, rfl, ?_⟩
    rw [← hqueue d' hpub.data]
    exact logicalQueue_eq hready (by rw [hpub.data]; exact hm.live)
  · rintro k (hk | ⟨-, hk⟩) <;> exact absurd (mem_of_getD hk (by simp)) (hnofail k)
  · intro k htorn d' hleft
    have hk : .cut k ∈ d.faults := htorn.elim hmem fun h => hmem h.2.1
    refine ⟨⟨k, hk⟩, fun _ => ⟨hf₁.of_torn_loaded h₁ hleft, .inl ?_⟩⟩
    have hkept := (h.of_free_write hf (hfree k htorn) hbase (length_of_fixRecordEncode hwire).le
      hsame hdata).2.2
    rw [← hkept, ← hleft.data]
    exact (h₁.of_torn hleft).reboot
  · intro k _ hk d' hpub
    refine ⟨⟨k, hmem hk⟩, fun hlife => ?_⟩
    obtain ⟨hf', h', -⟩ := hpublished d' hpub hlife
    refine ⟨hf', .inr ?_⟩
    have hshows := h'.reboot
    rw [show (s.pushed record).committed.queueMeta = (s.pushed record).nextMeta from rfl,
      hqueue d' hpub.data, show (s.pushed record).nextMeta.capacity = s.queueMeta.capacity from
        PersistentFixStore.pushMeta_capacity ..] at hshows
    exact hshows

theorem wp_push_loaded {record : FixRecord} (hf : FlashInv d)
    (h : Loaded s d) (hready : s.readyState) (hnofail : ∀ k, .fail k ∉ d.faults)
    (hid : (s.stamp record).sequenceId ≠ 0xFFFFFFFF)
    (hfree : CutsBetween d.faults → SlotFree s d) :
    wp (s.push record) (fun r d' => Again r.2.1 d' ∧
        ((fixRecordEncode (s.stamp record) fixRecordWireSize).isSome →
          r.1 = true ∧ logicalQueue r.2.1 d' = some (afterPush s d record)))
      (CutShows s d (afterPush s d record)) d := by
  obtain ⟨base, hbase⟩ := Option.isSome_iff_exists.mp h.data
  have hnever : ∀ {i k}, d.faults.getD i .ok ≠ .fail k := fun h =>
    hnofail _ (mem_of_getD h (by simp))
  apply PersistentFixStore.wp_push_script hready hbase (fun _ => hnever)
  · intro hnone
    exact ⟨fun _ => ⟨hf, h, hready⟩, fun hsome => by rw [hnone] at hsome; cases hsome⟩
  · intro wire hwire h₀ h₁ h₂
    refine wp_mono (wp_commit_pushed_loaded hf h hready hnofail hid hbase hwire (.update_data rfl)
      (Function.update_self StorePath.data _ d.files) (fun i => ?_) fun k hk => ?_)
      (fun _ _ hdone => ⟨hdone.1, fun _ => hdone.2⟩) (fun _ hcut => hcut)
    · rw [getD_tail, getD_tail, getD_tail]
    · exact hfree (.of_commit h₀ h₁ h₂ hk)
  · exact fun _ hk => absurd hk hnever
  · exact fun _ _ _ hk => absurd hk hnever
  · intro k hk es
    have hmem : .cut k ∈ d.faults :=
      hk.elim (mem_of_getD · (by simp)) (mem_of_getD · (by simp))
    have h' : Loaded s ⟨d.files, es, d.written⟩ := h.of_same (.refl ..) h.data h.live
    exact ⟨⟨k, hmem⟩, fun _ => ⟨hf.of_same (.refl ..) hf.live, .inl h'.reboot⟩⟩
  · intro wire hwire k h₀ h₁ h₂ es w hw
    refine ⟨⟨k, mem_of_getD h₂ (by simp)⟩, fun _ => ?_⟩
    -- A cut before the first byte leaves the file; behind it the slot is free.
    by_cases hk : k = 0
    · have hsame : SameSlots d ⟨d.files, es, w⟩ := ⟨fun _ => rfl, hw⟩
      have h' : Loaded s ⟨d.files, es, w⟩ := h.of_same hsame h.data h.live
      rw [hk, List.take_zero, overlay_nil, ← hbase, Function.update_eq_self]
      exact ⟨hf.of_same hsame hf.live, .inl h'.reboot⟩
    · have hle : (wire.take k).length ≤ 64 := by
        rw [List.length_take, length_of_fixRecordEncode hwire]
        exact Nat.min_le_right ..
      obtain ⟨hf', h', hqueue⟩ := h.of_free_write hf (hfree (.of_record h₀ h₁ h₂ hk)) hbase hle
        (.update_data hw) (Function.update_self StorePath.data _ d.files)
      refine ⟨hf', .inl ?_⟩
      rw [← hqueue]
      exact h'.reboot

/-- An acknowledgement, whatever its file operations report. -/
theorem wp_ackFront_loaded {count : Nat} (hf : FlashInv d)
    (h : Loaded s d) (hready : s.readyState) :
    wp (s.ackFront count) (fun r d' => Again r.2 d' ∧
        ((∀ k, .fail k ∉ d.faults) → count ≠ 0 → logicalQueue r.2 d' = some (afterAck s d count)))
      (CutShows s d (afterAck s d count)) d := by
  have hle : min count s.queueMeta.count.toNat ≤ s.queueMeta.count.toNat := Nat.min_le_right ..
  have hm : Committable s d (s.acked count).queueMeta :=
    ⟨PersistentFixStore.ringed_ackMeta h.ringed hle, h.nextSeq, rfl, rfl,
      PersistentFixStore.allLive_ackMeta h.live hle⟩
  have hpublished : ∀ d', Published (s.acked count).nextSlot (s.acked count).nextMeta d d' →
      Again (s.acked count).committed d' ∧
        queueOf (d'.files .data) (s.acked count).committed.queueMeta = afterAck s d count := by
    intro d' hpub
    refine ⟨fun hlife => ?_, ?_⟩
    · obtain ⟨hf', h'⟩ := h.of_published hf hm hpub hlife
      exact ⟨hf', h', hready⟩
    · rw [afterAck, hpub.data]
      rfl
  apply PersistentFixStore.wp_ackFront
  · rintro (hnot | hzero)
    · exact absurd hready hnot
    · exact ⟨fun _ => ⟨hf, h, hready⟩, fun _ hne => absurd hzero hne⟩
  · intro _ _
    -- A failed commit is rolled back to the same meta.
    have hback : ∀ d', Torn s.nextSlot d d' →
        Again (s.ackResult count (false, s.acked count)).2 d' := by
      intro d' htorn _
      have hs : (s.ackResult count (false, s.acked count)).2 = s := by
        show ({ s with queueMeta := _ } : PersistentFixStore) = s
        rw [show PersistentFixStore.unackMeta (s.acked count).queueMeta
            (min count s.queueMeta.count.toNat) = s.queueMeta from
          PersistentFixStore.unackMeta_ackMeta h.ringed.1]
      rw [hs]
      exact ⟨hf.of_torn_loaded h htorn, h.of_torn htorn, hready⟩
    apply PersistentFixStore.wp_commitMeta
    · intro hinvalid
      exact absurd hm.ringed.1 hinvalid
    · intro d' hpub _
      refine ⟨(hpublished d' hpub).1, fun _ _ => ?_⟩
      rw [← (hpublished d' hpub).2]
      exact logicalQueue_eq hready (by rw [hpub.data]; exact hm.live)
    · intro k hk d' htorn _
      exact ⟨hback d' htorn, fun hnofail => absurd hk (hnofail k)⟩
    · intro k hk d' htorn
      refine ⟨⟨k, hk⟩, fun _ => ⟨hf.of_torn_loaded h htorn, .inl ?_⟩⟩
      rw [← htorn.data]
      exact (h.of_torn htorn).reboot
    · intro k hk d' hpub
      refine ⟨⟨k, hk⟩, fun hlife => ?_⟩
      obtain ⟨hf', h', -⟩ := (hpublished d' hpub).1 hlife
      refine ⟨hf', .inr ?_⟩
      rw [← (hpublished d' hpub).2]
      exact h'.reboot

/-- A peek never meets a corrupt slot, so it leaves everything as it is. -/
theorem wp_peek_loaded {max : Nat} (hf : FlashInv d) (h : Loaded s d) (hready : s.readyState) :
    wp (s.peek max) (fun r d' => Again r.store d') (fun d' => FlashInv d') d := by
  have hsame : ∀ es, FlashInv ⟨d.files, es, d.written⟩ ∧ Loaded s ⟨d.files, es, d.written⟩ :=
    fun es => ⟨hf.of_same (.refl d es) hf.live, h.of_same (.refl d es) h.data h.live⟩
  apply PersistentFixStore.wp_peek
  · intro _ _
    exact ⟨hf, h, hready⟩
  · intro _ _ es _ _
    exact ⟨(hsame es).1, (hsame es).2, hready⟩
  · intro _ _ hcorrupt
    have hscan := scan_take h.live (Nat.min_le_left s.queueMeta.count.toNat max)
    rw [hscan] at hcorrupt
    cases hcorrupt
  · intro _ _ es
    exact (hsame es).1

/-! ### A queue that is started afresh -/

/-- Slot A takes a fresh meta while slot B keeps its own: a boot with this capacity then shows the
fresh queue, whichever slot wins. -/
theorem Loaded.of_fresh (hf : FlashInv d) (hcap : s.queueCapacity ≠ 0)
    (hmeta : s.queueMeta = fixQueueMetaFresh s.queueCapacity) (hslot : s.nextSlot = .a)
    (hlive : ∀ b, slotMeta d.files .b = some b → AllLive (d.files .data) b)
    (hother : ∀ b, slotMeta d.files .b = some b →
      b.capacity ≠ s.queueCapacity ∨ b.generation ≤ 1)
    (hpub : Published s.nextSlot s.nextMeta d d') :
    FlashInv d' ∧ ∀ d'', SameSlots d' d'' → (d''.files .data).isSome → Loaded s.committed d'' := by
  have hnext : s.nextMeta = { fixQueueMetaFresh s.queueCapacity with generation := 1 } := by
    rw [PersistentFixStore.nextMeta, hmeta]
    rfl
  rw [hslot, hnext] at hpub
  have hA : slotMeta d'.files .a =
      some (FixQueueMeta.sealed { fixQueueMetaFresh s.queueCapacity with generation := 1 }) := by
    rw [hpub.here]
    rfl
  have hB : slotMeta d'.files .b = slotMeta d.files .b := hpub.other
  have hempty : ∀ data m, m.count = 0 → AllLive data m := by
    intro data m hm i hi
    rw [hm] at hi
    cases hi
  have hringed : (FixQueueMeta.sealed
      { fixQueueMetaFresh s.queueCapacity with generation := 1 }).Ringed :=
    FixQueueMeta.ringed_fresh hcap
  have hflash : FlashInv d' := by
    refine ⟨?_, ?_, ?_, ?_⟩
    · intro slot m hm
      rw [hpub.commits]
      cases slot
      · rw [hA] at hm
        cases hm
        exact Nat.succ_le_succ (Nat.zero_le _)
      · exact (hf.bounded .b m (hB ▸ hm)).trans (Nat.le_succ _)
    · intro slot m hm
      cases slot
      · rw [hA] at hm
        cases hm
        exact hringed
      · exact hf.ringed .b m (hB ▸ hm)
    · intro m hm
      obtain ⟨slot, hm⟩ := slotMeta_of_bootMeta hm
      cases slot
      · rw [hA] at hm
        cases hm
        exact hempty _ _ rfl
      · rw [hpub.data]
        exact hlive m (hB ▸ hm)
    · intro a b ha _
      rw [hA] at ha
      cases ha
      exact .inr (UInt32.le_refl _)
  refine ⟨hflash, fun d'' hsame hdata => ?_⟩
  have hqueue : s.committed.queueMeta =
      { fixQueueMetaFresh s.queueCapacity with generation := 1 } := hnext
  refine ⟨?_, ?_, ?_, ?_, ?_, hdata, ?_, ?_⟩
  · rw [hqueue]
    exact FixQueueMeta.ringed_fresh hcap
  · rw [hqueue]
    exact (by decide : (1 : UInt32) ≠ 0)
  · rw [hqueue]
    rfl
  · rw [hqueue, hsame.commits, hpub.commits]
    exact Nat.succ_le_succ (Nat.zero_le _)
  · rw [show s.committed.nextSlot = s.nextSlot.other from rfl, hslot, hsame.slots, MetaSlot.other_other,
      hA, hqueue]
    rfl
  · rw [hqueue]
    exact hempty _ _ rfl
  · rw [hqueue, BootsTo, bootMeta_same hsame, bootMeta, hA, hB]
    -- The fresh meta has generation 1: a newer slot B wins, but has another capacity.
    rcases hb : slotMeta d.files .b with _ | b
    · exact .inl rfl
    · by_cases hgt : b.generation > 1
      · refine .inr ⟨⟨rfl, rfl, rfl, rfl, rfl, rfl⟩, b, congrArg some (if_pos hgt), ?_⟩
        exact (hother b hb).resolve_right (UInt32.not_le.mpr hgt)
      · refine .inl ?_
        have hpick : fixQueueMetaPick (some (FixQueueMeta.sealed
            { fixQueueMetaFresh s.queueCapacity with generation := 1 })) (some b) = some _ :=
          congrArg some (if_neg hgt)
        rw [hpick]
        rfl

/-- A slot B that a capacity change is about to leave behind is readable. -/
def ChangeSafe (d : Disk StorePath) (capacity : UInt32) : Prop :=
  ∀ m b, bootMeta d = some m → m.capacity ≠ capacity → slotMeta d.files .b = some b →
    AllLive (d.files .data) b

/-- What a boot leaves: flash that can be booted again, and an object that agrees with it. -/
def Booted (r : PersistentFixStore.BeginResult) (d : Disk StorePath) : Prop :=
  commits d < 2 ^ 32 → FlashInv d ∧ (r.store.readyState → Loaded r.store d)

/-- With a meta in hand, what is left is to create the data file and to probe the front. -/
theorem wp_finish_loaded {r : PersistentFixStore.BeginResult} (hf : FlashInv d)
    (hnofail : ∀ k, .fail k ∉ d.faults) (hready : r.store.readyState = false)
    (hloaded : ∀ d', SameSlots d d' → PersistentFixStore.SameData d d' → (d'.files .data).isSome →
      Loaded { r.store with readyState := true } d') :
    wp r.finish Booted FlashInv d := by
  have hnofail' : ¬ ∃ k, .fail k ∈ d.faults := fun ⟨k, hk⟩ => hnofail k hk
  have hflash : ∀ d', SameSlots d d' → PersistentFixStore.SameData d d' → FlashInv d' :=
    fun d' hsame hdata => hf.of_same hsame fun m hm => (hf.live m hm).of_sameData hdata
  apply PersistentFixStore.wp_finish
  · intro _ _
    exact ⟨hf, fun hr => by rw [hready] at hr; cases hr⟩
  · intro _ d₁ hsame hsub hsome hdata
    have hdata := hdata.resolve_right hnofail'
    have hl := hloaded d₁ hsame hdata hsome
    have hf₁ := hflash d₁ hsame hdata
    apply PersistentFixStore.wp_probeFront
    · exact fun _ _ => ⟨hf₁, fun _ => hl⟩
    · intro _ _ es _ _
      exact ⟨hf₁.of_same (.refl d₁ es) hf₁.live,
        fun _ => hl.of_same (.refl d₁ es) hl.data hl.live⟩
    · intro hne hfront
      exfalso
      rcases hfront with hnone | ⟨k, hk⟩
      · exact hl.live 0 (Nat.pos_of_ne_zero fun h0 => hne (UInt32.toNat_inj.mp h0)) hnone
      · exact hnofail k (hsub hk)
    · rfl
    · intro _ _ es
      exact hf₁.of_same (.refl d₁ es) hf₁.live
  · intro _ k hk
    exact absurd hk (hnofail k)
  · intro _ _ d₁ hsame hdata
    exact hflash d₁ hsame (hdata.resolve_right hnofail')

/-- A boot that starts from a fresh meta writes it to slot A. -/
theorem wp_fresh_loaded (hf : FlashInv d) (hnofail : ∀ k, .fail k ∉ d.faults)
    (hcap : s.queueCapacity ≠ 0) (hready : s.readyState = false)
    (hB : ∀ b, slotMeta d.files .b = some b → AllLive (d.files .data) b ∧
      (b.capacity ≠ s.queueCapacity ∨ b.generation ≤ 1)) :
    wp s.fresh.commitMeta (fun r d' =>
      wp (PersistentFixStore.BeginResult.mk r.1 (some r.1) r.2).finish Booted FlashInv d')
      FlashInv d := by
  have hloaded := fun (d' : Disk StorePath)
      (hpub : Published s.fresh.nextSlot s.fresh.nextMeta d d') =>
    Loaded.of_fresh (s := s.fresh) hf hcap rfl rfl (fun b hb => (hB b hb).1)
      (fun b hb => (hB b hb).2) hpub
  apply PersistentFixStore.wp_commitMeta
  · intro hinvalid
    exact absurd (PersistentFixStore.fresh_wellFormed hcap) hinvalid
  · intro d₁ hpub hsub
    obtain ⟨hf₁, hl₁⟩ := hloaded d₁ hpub
    refine wp_finish_loaded hf₁ (fun k hk => hnofail k (hsub hk)) hready ?_
    intro d₂ hsame _ hsome
    have h := hl₁ d₂ hsame hsome
    exact ⟨h.ringed, h.nextSeq, h.capacity, h.bound, h.here, h.data, h.live, h.boots⟩
  · intro k hk
    exact absurd hk (hnofail k)
  · intro _ _ d₁ htorn
    exact hf.of_torn htorn fun b hb => (hB b hb).1
  · intro _ _ d₁ hpub
    exact (hloaded d₁ hpub).1

/-! ### Boots -/

/-- Where no slot has the capacity that is asked for, slot B cannot win over a fresh slot A. -/
theorem FlashInv.other_of_pick {capacity : UInt32} (hf : FlashInv d)
    (hne : ∀ m, bootMeta d = some m → m.capacity ≠ capacity) {b : FixQueueMeta}
    (hb : slotMeta d.files .b = some b) :
    ∃ m, bootMeta d = some m ∧ (b.capacity ≠ capacity ∨ b.generation ≤ 1) := by
  rcases hA : slotMeta d.files .a with _ | a
  · have hboot : bootMeta d = some b := by
      rw [bootMeta, hA, hb]
      rfl
    exact ⟨b, hboot, .inl (hne b hboot)⟩
  by_cases hgt : b.generation > a.generation
  · have hboot : bootMeta d = some b := by
      rw [bootMeta, hA, hb]
      exact congrArg some (if_pos hgt)
    exact ⟨b, hboot, .inl (hne b hboot)⟩
  · have hboot : bootMeta d = some a := by
      rw [bootMeta, hA, hb]
      exact congrArg some (if_neg hgt)
    -- Both slots have the same capacity, or both are at generation one.
    refine ⟨a, hboot, ?_⟩
    rcases hf.capacities a b hA hb with heq | hle
    · exact .inl (heq ▸ hne a hboot)
    · exact .inr (UInt32.le_trans (UInt32.not_lt.mp hgt) hle)

/-- A boot from any flash of a run, cut at any point. -/
theorem wp_begin_loaded {capacity : UInt32} (hf : FlashInv d) (hnofail : ∀ k, .fail k ∉ d.faults)
    (hsafe : ChangeSafe d capacity) : wp (s.begin capacity) Booted FlashInv d := by
  have hsame : ∀ es, FlashInv ⟨d.files, es, d.written⟩ :=
    fun es => hf.of_same (.refl d es) hf.live
  have hread : ∀ slot c, PersistentFixStore.SlotRead d slot c → c = slotMeta d.files slot := by
    rintro slot c (h | ⟨-, k, hk⟩)
    · exact h
    · exact absurd hk (hnofail k)
  apply PersistentFixStore.wp_begin
  · exact fun _ _ => ⟨hf, fun hr => by cases hr⟩
  · intro hcap a b ha hb es hes
    have hnofail' : ∀ k, .fail k ∉ es := fun k hk => hnofail k (hes hk)
    rw [hread .a a ha, hread .b b hb]
    apply PersistentFixStore.wp_recoverFrom rfl
    · intro hne
      refine wp_fresh_loaded (hsame es) hnofail' hcap rfl fun b hb => ?_
      obtain ⟨m, hboot, hother⟩ := hf.other_of_pick hne hb
      exact ⟨hsafe m b hboot (hne m hboot) hb, hother⟩
    · intro m hpick hcapacity
      have hm := winner_read hpick
      have hslot : slotMeta d.files (PersistentFixStore.winner (slotMeta d.files .a)
          (slotMeta d.files .b)) = some m := by
        rcases hw : PersistentFixStore.winner (slotMeta d.files .a) (slotMeta d.files .b) <;>
          simp only [hw] at hm <;> exact hm
      refine wp_finish_loaded (hsame es) hnofail' rfl ?_
      intro d₂ hsame₂ hdata hsome
      refine ⟨hf.ringed _ m hslot, (wellFormed_of_fixQueueMetaDecode hslot).2, hcapacity,
        ?_, ?_, hsome, ?_, ?_⟩
      · rw [hsame₂.commits]
        exact hf.bounded _ m hslot
      · rw [MetaSlot.other_other, hsame₂.slots]
        exact congrArg (Option.map FixQueueMeta.bare) hslot
      · exact (hf.live m hpick).of_sameData hdata
      · left
        rw [bootMeta_same hsame₂]
        exact congrArg (Option.map FixQueueMeta.bare) hpick
  · intro _ _ es
    exact hsame es

end

/-! ## Whole runs -/

/-- No file operation of a boot or a push reports an error, a boot with another capacity leaves a
readable slot B behind, no push takes the last id, and a push that loses power between the first byte
of its record and the last one of its meta writes a free slot. -/
def CutGuard (st : StoreState) : StoreAction → Prop
  | .op (.begin capacity) faults =>
    (∀ k, .fail k ∉ faults) ∧ ChangeSafe (st.disk []) capacity
  | .op (.push record) faults =>
    (∀ k, .fail k ∉ faults) ∧ (st.store.readyState →
      (st.store.stamp record).sequenceId ≠ 0xFFFFFFFF ∧
        (CutsBetween faults → SlotFree st.store (st.disk [])))
  | _ => True

/-- The invariant of runs under the guard. -/
def CutState (st : StoreState) : Prop :=
  commits (st.disk []) < 2 ^ 32 →
    FlashInv (st.disk []) ∧ (st.store.readyState → Loaded st.store (st.disk []))

theorem CutState.of_blank {st : StoreState} (h : st.Blank) : CutState st := by
  have hnone : ∀ slot m, slotMeta (st.disk []).files slot ≠ some m := by
    intro slot m hm
    rw [show (st.disk []).files = st.files from rfl, h.slots] at hm
    cases hm
  refine fun _ => ⟨⟨fun slot m hm => absurd hm (hnone slot m), fun slot m hm =>
    absurd hm (hnone slot m), fun m hm => ?_, fun a b ha => absurd ha (hnone .a a)⟩, fun hr => ?_⟩
  · obtain ⟨slot, hm⟩ := slotMeta_of_bootMeta hm
    exact absurd hm (hnone slot m)
  · rw [h.store] at hr
    cases hr

/-- The same files with another script of faults. -/
theorem CutState.disk {st : StoreState} (h : CutState st) (hlife : commits (st.disk []) < 2 ^ 32)
    (faults : List Fault) : FlashInv (st.disk faults) ∧
      (st.store.readyState → Loaded st.store (st.disk faults)) := by
  obtain ⟨hf, hl⟩ := h hlife
  exact ⟨hf.of_same (.refl _ faults) hf.live,
    fun hr => (hl hr).of_same (.refl _ faults) (hl hr).data (hl hr).live⟩

theorem CutState.step {st st' : StoreState} {a : StoreAction} (h : CutState st)
    (hguard : CutGuard st a) (hstep : storeStep st a = some st') : CutState st' := by
  intro hlife'
  have hlife : commits (st.disk []) < 2 ^ 32 :=
    lt_of_le_of_lt (commits_le_of_storeStep hstep) hlife'
  cases a with
  | powerLoss =>
    cases hstep
    exact ⟨(h hlife).1, fun hr => by cases hr⟩
  | op op faults =>
    obtain ⟨hf, hl⟩ := h.disk hlife faults
    -- Each operation leaves a loaded object, or flash to boot from.
    have hwp : wp (op.run st.store) (fun r d => commits d < 2 ^ 32 →
        FlashInv d ∧ (r.store.readyState → Loaded r.store d))
        (fun d => commits d < 2 ^ 32 → FlashInv d) (st.disk faults) := by
      cases op with
      | begin capacity =>
        rw [StoreOp.run, wp_bind]
        exact wp_mono (wp_begin_loaded hf hguard.1 hguard.2) (fun _ _ h => h) (fun _ h _ => h)
      | push record =>
        rw [StoreOp.run, wp_bind]
        by_cases hready : st.store.readyState
        · refine wp_mono (wp_push_loaded hf (hl hready) hready hguard.1 (hguard.2 hready).1
            (hguard.2 hready).2) ?_ ?_
          · intro r d hagain hlife
            obtain ⟨hf', hl', -⟩ := hagain.1 hlife
            exact ⟨hf', fun _ => hl'⟩
          · exact fun d hshows hlife => (hshows.2 hlife).1
        · have hidle : (st.store.push record) (st.disk faults) =
              (some (false, st.store, record), st.disk faults) := by
            rw [PersistentFixStore.push, if_pos hready]
            rfl
          rw [wp, hidle]
          exact fun _ => ⟨hf, hl⟩
      | peek max =>
        rw [StoreOp.run, wp_bind]
        by_cases hready : st.store.readyState
        · refine wp_mono (wp_peek_loaded hf (hl hready) hready) ?_ (fun _ h _ => h)
          intro r d hagain hlife
          obtain ⟨hf', hl', -⟩ := hagain hlife
          exact ⟨hf', fun _ => hl'⟩
        · have hidle : (st.store.peek max) (st.disk faults) =
              (some ⟨[], none, st.store⟩, st.disk faults) := by
            rw [PersistentFixStore.peek, if_pos (.inl hready)]
            rfl
          rw [wp, hidle]
          exact fun _ => ⟨hf, hl⟩
      | ackFront count =>
        rw [StoreOp.run, wp_bind]
        by_cases hready : st.store.readyState
        · refine wp_mono (wp_ackFront_loaded hf (hl hready) hready) ?_ ?_
          · intro r d hagain hlife
            obtain ⟨hf', hl', -⟩ := hagain.1 hlife
            exact ⟨hf', fun _ => hl'⟩
          · exact fun d hshows hlife => (hshows.2 hlife).1
        · have hidle : (st.store.ackFront count) (st.disk faults) =
              (some (0, st.store), st.disk faults) := by
            rw [PersistentFixStore.ackFront, if_pos (.inl hready)]
            rfl
          rw [wp, hidle]
          exact fun _ => ⟨hf, hl⟩
    unfold storeStep at hstep
    rcases hrun : op.run st.store (st.disk faults) with ⟨_ | r, d⟩ <;>
      simp only [hrun, Option.some.injEq] at hstep <;> subst hstep
    · have hf' := wp_of_powerLost hwp hrun hlife'
      exact ⟨hf'.of_same (.refl _ []) hf'.live, fun hr => by cases hr⟩
    · obtain ⟨hf', hl'⟩ := wp_of_returns hwp hrun hlife'
      exact ⟨hf'.of_same (.refl _ []) hf'.live,
        fun hr => (hl' hr).of_same (.refl _ []) (hl' hr).data (hl' hr).live⟩

/-- Neither operation touches a file unless the object is ready; nor does a push of a record that
does not encode, or an acknowledgement of nothing. -/
theorem active_of_cut {s : PersistentFixStore} {op : StoreOp} {d d' : Disk StorePath}
    (hop : (∃ record, op = .push record) ∨ ∃ count, op = .ackFront count)
    (hcut : op.run s d = (none, d')) : s.readyState ∧
      (∀ record, op = .push record →
        (fixRecordEncode (s.stamp record) fixRecordWireSize).isSome) ∧
      ∀ count, op = .ackFront count → count ≠ 0 := by
  have hidle : ∀ r, op.run s d ≠ (some r, d) := fun r h => by rw [h] at hcut; cases hcut
  rcases hop with ⟨record, rfl⟩ | ⟨count, rfl⟩
  · have hready : s.readyState := by
      by_contra hnot
      refine hidle ⟨false, none, s⟩ ?_
      rw [StoreOp.run, PersistentFixStore.push, if_pos hnot]
      rfl
    refine ⟨hready, fun record' h => ?_, fun _ h => by cases h⟩
    cases h
    by_contra hnone
    rw [Bool.not_eq_true, Option.isSome_eq_false_iff, Option.isNone_iff_eq_none] at hnone
    refine hidle ⟨false, none, s⟩ ?_
    rw [StoreOp.run, PersistentFixStore.push, if_neg (not_not_intro hready)]
    dsimp only
    rw [hnone]
    rfl
  · have hactive : ¬ (¬ s.readyState ∨ count = 0) := by
      intro hnot
      refine hidle ⟨decide (0 ≠ 0), none, s⟩ ?_
      rw [StoreOp.run, PersistentFixStore.ackFront, if_pos hnot]
      rfl
    refine ⟨by_contra fun h => hactive (.inl h), (fun _ h => by cases h), fun count' h => ?_⟩
    cases h
    exact fun h => hactive (.inr h)

/-- After a power cut anywhere inside a push or an acknowledgement of a guarded run, the next boot
shows the queue as it was before the operation or as the completed operation leaves it. -/
theorem power_cut_atomic {st₀ st : StoreState} {as : List StoreAction} {op : StoreOp}
    {faults : List Fault} {d : Disk StorePath} (hblank : st₀.Blank) (hrun : Run storeStep st₀ as st)
    (hguard : Along storeStep CutGuard st₀ (as ++ [.op op faults]))
    (hop : (∃ record, op = .push record) ∨ ∃ count, op = .ackFront count)
    (hcut : op.run st.store (st.disk faults) = (none, d)) (hlife : commits d < 2 ^ 32) :
    ∃ before after q, logicalQueue st.store (st.disk []) = some before ∧
      (∃ r d', op.run st.store (st.disk []) = (some r, d') ∧
        logicalQueue r.store d' = some after) ∧
      RebootShows d st.store.queueMeta.capacity q ∧ (q = before ∨ q = after) := by
  have hst : CutState st :=
    Run.invariant_along (fun _ _ _ h hg hs => h.step hg hs) hguard.append_left hrun
      (.of_blank hblank)
  have hlast : CutGuard st (.op op faults) := hguard.last hrun
  have hle : commits (st.disk []) ≤ commits d := by
    have h := wp_of_powerLost (wp_run_le (s := st.store) (d := st.disk faults) op) hcut
    exact h
  have hlife₀ : commits (st.disk []) < 2 ^ 32 := lt_of_le_of_lt hle hlife
  obtain ⟨hready, hencodes, hcount⟩ := active_of_cut hop hcut
  obtain ⟨hf, hl⟩ := hst.disk hlife₀ faults
  obtain ⟨hf₀, hl₀⟩ := hst hlife₀
  have hbefore := logicalQueue_eq hready (hl₀ hready).live
  -- The interrupted run and the completed one, from the same state.
  obtain ⟨after, hafter, hshows⟩ : ∃ after,
      (∃ r d', op.run st.store (st.disk []) = (some r, d') ∧
        logicalQueue r.store d' = some after) ∧ CutShows st.store (st.disk faults) after d := by
    rcases hop with ⟨record, rfl⟩ | ⟨count, rfl⟩
    · have hcutRun : wp ((StoreOp.push record).run st.store) (fun _ _ => True)
          (CutShows st.store (st.disk faults) (afterPush st.store (st.disk faults) record))
          (st.disk faults) := by
        rw [StoreOp.run, wp_bind]
        exact wp_mono (wp_push_loaded hf (hl hready) hready hlast.1 (hlast.2 hready).1
          (hlast.2 hready).2) (fun _ _ _ => trivial) (fun _ h => h)
      have hfull : wp ((StoreOp.push record).run st.store) (fun r d' =>
          logicalQueue r.store d' = some (afterPush st.store (st.disk []) record))
          (fun _ => False) (st.disk []) := by
        rw [StoreOp.run, wp_bind]
        refine wp_mono (wp_push_loaded hf₀ (hl₀ hready) hready (fun _ hk => by cases hk)
          (hlast.2 hready).1 (fun hbetween => hbetween.elim)) ?_ ?_
        · exact fun r d' h => (h.2 (hencodes record rfl)).2
        · intro _ h
          cases h.1.choose_spec
      exact ⟨_, returns_of_wp hfull, wp_of_powerLost hcutRun hcut⟩
    · have hcutRun : wp ((StoreOp.ackFront count).run st.store) (fun _ _ => True)
          (CutShows st.store (st.disk faults) (afterAck st.store (st.disk faults) count))
          (st.disk faults) := by
        rw [StoreOp.run, wp_bind]
        exact wp_mono (wp_ackFront_loaded hf (hl hready) hready) (fun _ _ _ => trivial)
          (fun _ h => h)
      have hfull : wp ((StoreOp.ackFront count).run st.store) (fun r d' =>
          logicalQueue r.store d' = some (afterAck st.store (st.disk []) count))
          (fun _ => False) (st.disk []) := by
        rw [StoreOp.run, wp_bind]
        refine wp_mono (wp_ackFront_loaded hf₀ (hl₀ hready) hready) ?_ ?_
        · exact fun r d' h => h.2 (fun _ hk => by cases hk) (hcount count rfl)
        · intro _ h
          cases h.1.choose_spec
      exact ⟨_, returns_of_wp hfull, wp_of_powerLost hcutRun hcut⟩
  rcases (hshows.2 hlife).2 with h | h
  · exact ⟨_, after, _, hbefore, hafter, h, .inl rfl⟩
  · exact ⟨_, after, _, hbefore, hafter, h, .inr rfl⟩

/-- A new device whose first push loses power after its record was written. -/
theorem power_cut_atomic_first_push : ∃ st d before after q,
    Run storeStep newDevice [.op (.begin 2) []] st ∧
      (StoreOp.push someFix).run st.store (st.disk [.ok, .ok, .cut 64]) = (none, d) ∧
      logicalQueue st.store (st.disk []) = some before ∧
      RebootShows d st.store.queueMeta.capacity q ∧ (q = before ∨ q = after) := by
  have hfacts : ([.op (.begin 2) []].foldlM storeStep newDevice).map (fun st =>
      let push := (StoreOp.push someFix).run st.store (st.disk [.ok, .ok, .cut 64])
      (st.store.queueMeta.count, (bootMeta (st.disk [])).map (·.count),
        (st.store.stamp someFix).sequenceId, push.1, commits push.2)) =
      some (0, some 0, 1, none, 1) := by
    decide +kernel
  obtain ⟨st, hrun, hst⟩ := Option.map_eq_some_iff.mp hfacts
  simp only [Prod.mk.injEq] at hst
  obtain ⟨hcount, hboot, hid, hcut, hcommits⟩ := hst
  have hguard : Along storeStep CutGuard newDevice
      ([.op (.begin 2) []] ++ [.op (.push someFix) [.ok, .ok, .cut 64]]) := by
    refine ⟨⟨by simp, ?_⟩, fun st' hst' => ⟨⟨by simp, fun _ => ⟨?_, fun _ => ?_⟩⟩, fun _ _ => trivial⟩⟩
    · intro m b hm
      obtain ⟨slot, hm⟩ := slotMeta_of_bootMeta hm
      have hnone := newDevice_blank.slots slot
      rw [show (newDevice.disk []).files = newDevice.files from rfl, hnone] at hm
      cases hm
    all_goals
      obtain rfl : st = st' := by
        have hrun' : Run storeStep newDevice [.op (.begin 2) []] st' :=
          Run.cons_iff.mpr ⟨st', hst', Run.nil_iff.mpr rfl⟩
        exact Option.some.inj (hrun.symm.trans hrun')
    · rw [hid]
      decide
    · rintro m (rfl | hm) i hi
      · rw [hcount] at hi
        cases hi
      · rw [hm] at hboot
        rw [show m.count = 0 from Option.some.inj hboot] at hi
        cases hi
  have hop : (StoreOp.push someFix).run st.store (st.disk [.ok, .ok, .cut 64]) =
      (none, ((StoreOp.push someFix).run st.store (st.disk [.ok, .ok, .cut 64])).2) :=
    Prod.ext hcut rfl
  obtain ⟨before, after, q, hbefore, -, hshows, hq⟩ :=
    power_cut_atomic newDevice_blank hrun hguard (.inl ⟨_, rfl⟩) hop (by rw [hcommits]; decide)
  exact ⟨st, _, before, after, q, hrun, hop, hbefore, hshows, hq⟩

set_option maxRecDepth 100000 in
/-- A full ring of one record: the power is cut when the second record has been written over the
first and nothing has been published. The next boot shows the second record under the old meta. -/
theorem power_cut_in_full_ring : ∃ as st faults d q,
    Run storeStep newDevice as st ∧
      (StoreOp.push someFix).run st.store (st.disk faults) = (none, d) ∧ commits d < 2 ^ 32 ∧
      RebootShows d st.store.queueMeta.capacity q ∧
      logicalQueue st.store (st.disk []) ≠ some q ∧
      ∀ r d', (StoreOp.push someFix).run st.store (st.disk []) = (some r, d') →
        logicalQueue r.store d' ≠ some q := by
  let as : List StoreAction := [.op (.begin 1) [], .op (.push someFix) []]
  let faults : List Fault := [.ok, .ok, .cut 64]
  let q : LogicalQueue := ⟨[{ someFix with sequenceId := 2 }], 2, 0⟩
  have hfacts : (as.foldlM storeStep newDevice).map (fun st =>
      let push := (StoreOp.push someFix).run st.store (st.disk faults)
      let boot := PersistentFixStore.init.begin 1 ⟨push.2.files, [], push.2.written⟩
      let full := (StoreOp.push someFix).run st.store (st.disk [])
      decide (push.1 = none ∧ commits push.2 = 2 ∧ st.store.queueMeta.capacity = 1 ∧
        boot.1.map (fun r => (r.ok, logicalQueue r.store boot.2)) = some (true, some q) ∧
        logicalQueue st.store (st.disk []) = some ⟨[{ someFix with sequenceId := 1 }], 2, 0⟩ ∧
        full.1.map (fun r => logicalQueue r.store full.2) =
          some (some ⟨[{ someFix with sequenceId := 2 }], 3, 1⟩))) = some true := by
    decide +kernel
  obtain ⟨st, hrun, hst⟩ := Option.map_eq_some_iff.mp hfacts
  obtain ⟨hcut, hcommits, hcap, hboot, hbefore, hfull⟩ := of_decide_eq_true hst
  obtain ⟨r, hr, hshown⟩ := Option.map_eq_some_iff.mp hboot
  obtain ⟨hok, hq⟩ := Prod.mk.inj hshown
  refine ⟨as, st, faults, _, q, hrun, Prod.ext hcut rfl, by rw [hcommits]; decide,
    ⟨r, _, ?_, hok, hq⟩, ?_, fun r' d' hrun' => ?_⟩
  · rw [hcap]
    exact Prod.ext hr rfl
  · rw [hbefore]
    decide +kernel
  · rw [hrun'] at hfull
    have hafter : logicalQueue r'.store d' = _ := Option.some.inj hfull
    rw [hafter]
    decide +kernel

end OpenGps.Firmware
