import OpenGps.Firmware.PersistentFixStore

/-!
# Rules for the store's operations

One rule for each operation of the store, in the style of `Lib.CrashIo`: it lists what the operation
can return and what it can leave on flash, and what it leaves when the power is lost inside it. The
files are described by what the next boot will read from them:

* `SameSlots` — both meta slots decode as before;
* `Published` — a slot holds a new meta, the rest is as before;
* `Torn` — a slot holds its old meta or none, the rest is as before.
-/

namespace OpenGps.Firmware

open OpenGps.Lib.CrashIo

/-- Completed writes to the two meta files: the commits in the life of the flash. -/
def commits (d : Disk StorePath) : Nat := d.written .metaA + d.written .metaB

structure SameSlots (d d' : Disk StorePath) : Prop where
  slots : ∀ slot, slotMeta d'.files slot = slotMeta d.files slot
  commits : commits d' = commits d

structure Published (slot : MetaSlot) (m : FixQueueMeta) (d d' : Disk StorePath) : Prop where
  wellFormed : m.WellFormed
  here : slotMeta d'.files slot = if m.nextSeq = 0 then none else some m.sealed
  other : slotMeta d'.files slot.other = slotMeta d.files slot.other
  data : d'.files .data = d.files .data
  commits : commits d' = commits d + 1

structure Torn (slot : MetaSlot) (d d' : Disk StorePath) : Prop where
  here : slotMeta d'.files slot = slotMeta d.files slot ∨ slotMeta d'.files slot = none
  other : slotMeta d'.files slot.other = slotMeta d.files slot.other
  data : d'.files .data = d.files .data
  commits : commits d' = commits d

/-! ## Slots under a write -/

theorem MetaSlot.path_other_ne (slot : MetaSlot) : slot.other.path ≠ slot.path := by
  cases slot <;> decide

theorem MetaSlot.path_ne_data (slot : MetaSlot) : slot.path ≠ .data := by
  cases slot <;> decide

theorem fixQueueMetaDecode_short {buf : List UInt8} (h : buf.length < fixQueueMetaWireSize) :
    fixQueueMetaDecode buf = none := by
  rw [fixQueueMetaDecode, if_pos h]

section Update
variable {files : StorePath → Option (List UInt8)} {slot : MetaSlot}

@[simp] theorem slotMeta_update_self {bs : List UInt8} :
    slotMeta (Function.update files slot.path (some bs)) slot =
      fixQueueMetaDecode (bs.take fixQueueMetaWireSize) := by
  rw [slotMeta, Function.update_self]
  rfl

@[simp] theorem slotMeta_update_other {c : Option (List UInt8)} :
    slotMeta (Function.update files slot.path c) slot.other = slotMeta files slot.other := by
  rw [slotMeta, slotMeta, Function.update_of_ne slot.path_other_ne]

@[simp] theorem slotMeta_update_data {c : Option (List UInt8)} :
    slotMeta (Function.update files .data c) slot = slotMeta files slot := by
  rw [slotMeta, slotMeta, Function.update_of_ne slot.path_ne_data]

end Update

theorem SameSlots.refl (d : Disk StorePath) (es : List Fault) :
    SameSlots d ⟨d.files, es, d.written⟩ :=
  ⟨fun _ => rfl, rfl⟩

theorem SameSlots.trans {d d' d'' : Disk StorePath} (h : SameSlots d d') (h' : SameSlots d' d'') :
    SameSlots d d'' :=
  ⟨fun slot => (h'.slots slot).trans (h.slots slot), h'.commits.trans h.commits⟩

theorem Torn.refl (slot : MetaSlot) (d : Disk StorePath) (es : List Fault) :
    Torn slot d ⟨d.files, es, d.written⟩ :=
  ⟨.inl rfl, rfl, rfl, rfl⟩

/-- A slot file shorter than a slot. -/
theorem Torn.of_short {slot : MetaSlot} {d : Disk StorePath} {bs : List UInt8} {es : List Fault}
    (h : bs.length < fixQueueMetaWireSize) :
    Torn slot d ⟨Function.update d.files slot.path (some bs), es, d.written⟩ where
  here := by
    right
    rw [slotMeta_update_self]
    exact fixQueueMetaDecode_short (by simp; omega)
  other := slotMeta_update_other
  data := Function.update_of_ne slot.path_ne_data.symm _ _
  commits := rfl

theorem Published.of_encode {slot : MetaSlot} {m : FixQueueMeta} {d : Disk StorePath}
    {wire : List UInt8} {es : List Fault}
    (h : fixQueueMetaEncode m fixQueueMetaWireSize = some wire) :
    Published slot m d ⟨Function.update d.files slot.path (some wire), es,
      Function.update d.written slot.path (d.written slot.path + 1)⟩ where
  wellFormed := (fixQueueMetaEncode_eq_some.mp h).2.1
  here := by
    have hlen : wire.length ≤ fixQueueMetaWireSize := (length_of_fixQueueMetaEncode h).le
    rw [slotMeta_update_self, List.take_of_length_le hlen, fixQueueMetaDecode_encode h]
  other := slotMeta_update_other
  data := Function.update_of_ne slot.path_ne_data.symm _ _
  commits := by
    cases slot <;> simp [Firmware.commits, MetaSlot.path] <;> omega

namespace PersistentFixStore

variable {s : PersistentFixStore} {d : Disk StorePath} {C : Disk StorePath → Prop}

/-! ## Meta slots -/

theorem wp_readMeta {Q : Option FixQueueMeta → Disk StorePath → Prop} (slot : MetaSlot)
    (hok : ∀ es ⊆ d.faults, Q (slotMeta d.files slot) ⟨d.files, es, d.written⟩)
    (hfail : ∀ k, .fail k ∈ d.faults → ∀ es ⊆ d.faults, Q none ⟨d.files, es, d.written⟩)
    (hcut : ∀ k, .cut k ∈ d.faults → ∀ es, C ⟨d.files, es, d.written⟩) :
    wp (readMeta slot.path) Q C d := by
  rw [readMeta, wp_bind]
  apply wp_openFile_read (by decide)
  · intro hsome es hes
    dsimp only
    rw [wp_bind]
    apply wp_read (by decide)
    · intro es' hes'
      have hdec : ∀ (wire : List UInt8), wire.length ≤ fixQueueMetaWireSize →
          (if wire.length ≠ fixQueueMetaWireSize then none else fixQueueMetaDecode wire) =
            fixQueueMetaDecode wire := by
        intro wire hwire
        split
        · next hne => rw [fixQueueMetaDecode_short (by omega)]
        · rfl
      have := hok es' (List.Subset.trans hes' hes)
      rw [slotMeta, ← hdec _ (by simp [slice])] at this
      split <;> simp_all
    · intro k hk es' hes' bs hbs
      rw [if_pos (by omega)]
      exact hfail k (hes hk) es' (List.Subset.trans hes' hes)
    · intro k hk es'
      exact hcut k (hes hk) es'
  · rintro (hnone | ⟨k, hk⟩) es hes
    · have hslot : slotMeta d.files slot = none := by
        rw [slotMeta, hnone]
        rfl
      simpa [hslot] using hok es hes
    · exact hfail k hk es hes
  · exact hcut

/-- The meta a commit of `s` writes. -/
def nextMeta (s : PersistentFixStore) : FixQueueMeta :=
  { s.queueMeta with generation := s.queueMeta.generation + 1 }

/-- The object after a successful commit. -/
def committed (s : PersistentFixStore) : PersistentFixStore :=
  { s with queueMeta := s.nextMeta, nextSlot := s.nextSlot.other }

/-- A commit publishes the meta, refuses it, or fails and leaves the slot torn. -/
theorem wp_commitMeta {Q : Bool × PersistentFixStore → Disk StorePath → Prop}
    (hinvalid : ¬ s.nextMeta.WellFormed → Q (false, s) d)
    (hok : ∀ d', Published s.nextSlot s.nextMeta d d' → d'.faults ⊆ d.faults →
      Q (true, s.committed) d')
    (hfail : ∀ k, .fail k ∈ d.faults → ∀ d', Torn s.nextSlot d d' → d'.faults ⊆ d.faults →
      Q (false, s) d')
    (hcut : ∀ k, .cut k ∈ d.faults → ∀ d', Torn s.nextSlot d d' → C d')
    (hdone : ∀ k, .cut k ∈ d.faults → ∀ d', Published s.nextSlot s.nextMeta d d' → C d') :
    wp (commitMeta s) Q C d := by
  unfold commitMeta
  dsimp only
  split
  · next hnone =>
    apply hinvalid
    intro hwf
    have hwire := fixQueueMetaEncode_eq_some.mpr ⟨le_refl fixQueueMetaWireSize, hwf, rfl⟩
    cases hnone.symm.trans hwire
  next wire hwire =>
  have hlen : wire.length = fixQueueMetaWireSize := length_of_fixQueueMetaEncode hwire
  have hne : wire ≠ [] := by
    intro h
    simp [h, fixQueueMetaWireSize] at hlen
  rw [wp_bind]
  apply wp_openFile_write
  · intro es hes
    dsimp only
    rw [wp_bind]
    have hover : ∀ bs : List UInt8, overlay [] 0 bs = bs := by
      intro bs
      rw [overlay]
      split <;> simp_all
    apply wp_write hne <;>
      simp only [Function.update_idem, Function.update_self, Option.getD_some, hover]
    · intro es' hes'
      rw [if_neg (by simp [hlen])]
      exact hok _ (.of_encode hwire) (List.Subset.trans hes' hes)
    · intro k hk es' hes' n hn
      rw [if_pos (by omega)]
      exact hfail k (hes hk) _ (.of_short (by simp; omega)) (List.Subset.trans hes' hes)
    · intro k hk es' n hn
      exact hcut k (hes hk) _ (.of_short (by simp; omega))
    · intro k hk es'
      exact hdone k (hes hk) _ (.of_encode hwire)
  · rintro k hk es hes _ (rfl | rfl)
    · exact hfail k hk _ (.refl ..) hes
    · exact hfail k hk _ (.of_short (by decide)) hes
  · rintro k hk es _ (rfl | rfl)
    · exact hcut k hk _ (.refl ..)
    · exact hcut k hk _ (.of_short (by decide))

/-- A commit, step by step of the script: only what ends it before the last byte of the meta tears
the slot. -/
theorem wp_commitMeta_script {Q : Bool × PersistentFixStore → Disk StorePath → Prop}
    (hwf : s.nextMeta.WellFormed)
    (hok : d.faults.getD 0 .ok = .ok → d.faults.getD 1 .ok = .ok →
      ∀ d', Published s.nextSlot s.nextMeta d d' → Q (true, s.committed) d')
    (hfail : ∀ k, (d.faults.getD 0 .ok = .fail k ∨
        d.faults.getD 0 .ok = .ok ∧ d.faults.getD 1 .ok = .fail k) →
      ∀ d', Torn s.nextSlot d d' → Q (false, s) d')
    (htorn : ∀ k, (d.faults.getD 0 .ok = .cut k ∨
        d.faults.getD 0 .ok = .ok ∧ d.faults.getD 1 .ok = .cut k ∧ k < fixQueueMetaWireSize) →
      ∀ d', Torn s.nextSlot d d' → C d')
    (hdone : ∀ k, d.faults.getD 0 .ok = .ok → d.faults.getD 1 .ok = .cut k →
      ∀ d', Published s.nextSlot s.nextMeta d d' → C d') :
    wp (commitMeta s) Q C d := by
  obtain ⟨wire, hwire⟩ : ∃ wire, fixQueueMetaEncode s.nextMeta fixQueueMetaWireSize = some wire :=
    ⟨_, fixQueueMetaEncode_eq_some.mpr ⟨le_refl fixQueueMetaWireSize, hwf, rfl⟩⟩
  have hlen : wire.length = fixQueueMetaWireSize := length_of_fixQueueMetaEncode hwire
  have hover : ∀ bs : List UInt8, overlay [] 0 bs = bs := by
    intro bs
    rw [overlay]
    split <;> simp_all
  have hshort : ∀ n es, n < fixQueueMetaWireSize → Torn s.nextSlot d
      ⟨Function.update d.files s.nextSlot.path (some (wire.take n)), es, d.written⟩ := by
    intro n es hn
    apply Torn.of_short
    rw [List.length_take]
    omega
  have hemptied : ∀ k es, Torn s.nextSlot d
      ⟨if k ≠ 0 then Function.update d.files s.nextSlot.path (some []) else d.files, es,
        d.written⟩ := by
    intro k es
    split
    · exact .of_short (by decide)
    · exact .refl ..
  unfold commitMeta
  dsimp only
  rw [show ({ s.queueMeta with generation := s.queueMeta.generation + 1 } : FixQueueMeta) =
    s.nextMeta from rfl, hwire]
  dsimp only
  rw [wp_bind, wp, openFile_write_run]
  rcases h₀ : d.faults.getD 0 .ok with _ | k | k
  · dsimp only
    rw [wp_bind, wp, write_run, getD_tail]
    simp only [Function.update_idem, Function.update_self, Option.getD_some, hover]
    rcases h₁ : d.faults.getD 1 .ok with _ | k | k
    · dsimp only
      rw [if_neg (not_not.mpr hlen)]
      exact hok h₀ h₁ _ (.of_encode hwire)
    · have hlt : min k (wire.length - 1) < fixQueueMetaWireSize := by
        rw [hlen, fixQueueMetaWireSize]
        omega
      dsimp only
      rw [if_pos hlt.ne]
      exact hfail k (.inr ⟨h₀, h₁⟩) _ (hshort _ _ hlt)
    · dsimp only
      by_cases hk : fixQueueMetaWireSize ≤ k
      · rw [if_pos (hlen.le.trans hk), List.take_of_length_le (hlen.le.trans hk)]
        exact hdone k h₀ h₁ _ (.of_encode hwire)
      · rw [if_neg (hlen ▸ hk)]
        exact htorn k (.inr ⟨h₀, h₁, Nat.lt_of_not_le hk⟩) _ (hshort _ _ (Nat.lt_of_not_le hk))
  · exact hfail k (.inl h₀) _ (hemptied k _)
  · exact htorn k (.inl h₀) _ (hemptied k _)

/-- A commit whose file operations complete. -/
theorem wp_commitMeta_complete {Q : Bool × PersistentFixStore → Disk StorePath → Prop}
    (hfaults : d.faults = []) (hwf : s.nextMeta.WellFormed)
    (hok : ∀ d', Published s.nextSlot s.nextMeta d d' → d'.faults = [] → Q (true, s.committed) d') :
    wp (commitMeta s) Q C d := by
  apply wp_commitMeta
  · intro h
    exact absurd hwf h
  · intro d' hpub hsub
    rw [hfaults] at hsub
    exact hok d' hpub (List.subset_nil.mp hsub)
  all_goals
    intro k hk
    rw [hfaults] at hk
    cases hk

/-! ## Reading records -/

/-- The read loop over files that can be read: `peekLoop` without faults. -/
def scan (data : Option (List UInt8)) (capacity : UInt32) : UInt32 → Nat → PeekLoop
  | _, 0 => .records []
  | idx, n + 1 =>
    if (slice data (slotOffset idx).toNat fixRecordWireSize).length ≠ fixRecordWireSize then
      .records []
    else
      match slotRecord data idx with
      | none => .corrupt
      | some r => (scan data capacity (fixQueueAdvance idx capacity) n).cons r

theorem wp_peekLoop {f : File StorePath} (hf : f.path = .data) {capacity : UInt32} :
    ∀ {n : Nat} {idx : UInt32} {d : Disk StorePath} {Q : PeekLoop → Disk StorePath → Prop},
    (∀ r, r = scan (d.files .data) capacity idx n ∨
        (∃ k, .fail k ∈ d.faults) ∧ (∃ out, r = .records out) →
      ∀ es ⊆ d.faults, Q r ⟨d.files, es, d.written⟩) →
    (∀ k, .cut k ∈ d.faults → ∀ es, C ⟨d.files, es, d.written⟩) →
    wp (peekLoop f capacity idx n) Q C d
  | 0, idx, d, Q, hQ, _ => hQ _ (.inl rfl) d.faults (List.Subset.refl _)
  | n + 1, idx, d, Q, hQ, hcut => by
    rw [peekLoop, wp_bind]
    apply wp_seek
    · intro es hes
      dsimp only
      rw [wp_bind]
      apply wp_read (by decide)
      · intro es' hes'
        have hes'' := List.Subset.trans hes' hes
        rw [hf]
        rw [scan] at hQ
        split
        · next hshort =>
          exact hQ _ (.inl (by rw [if_pos hshort])) es' hes''
        · next hfull =>
          simp only [if_neg hfull] at hQ
          show wp (match slotRecord (d.files .data) idx with
            | none => pure PeekLoop.corrupt | some r => _) _ _ _
          rcases hrec : slotRecord (d.files .data) idx with _ | r
          · simp only [hrec] at hQ
            exact hQ _ (.inl rfl) es' hes''
          · simp only [hrec] at hQ
            dsimp only
            rw [wp_bind]
            apply wp_peekLoop (by exact hf)
            · rintro r' (rfl | ⟨⟨k, hk⟩, out, rfl⟩) es'' hes₃
              · exact hQ _ (.inl rfl) es'' (List.Subset.trans hes₃ hes'')
              · exact hQ _ (.inr ⟨⟨k, hes'' hk⟩, r :: out, rfl⟩) es''
                  (List.Subset.trans hes₃ hes'')
            · intro k hk es''
              exact hcut k (hes'' hk) es''
      · intro k hk es' hes' bs hbs
        rw [if_pos (by omega)]
        exact hQ _ (.inr ⟨⟨k, hes hk⟩, [], rfl⟩) es' (List.Subset.trans hes' hes)
      · intro k hk es'
        exact hcut k (hes hk) es'
    · intro k hk es hes
      exact hQ _ (.inr ⟨⟨k, hk⟩, [], rfl⟩) es hes
    · exact hcut

/-- `peek` returns what the scan yields, fewer records when a read failed, or runs the reset. -/
theorem wp_peek {max : Nat} {Q : PeekResult → Disk StorePath → Prop}
    (hidle : ¬ s.readyState ∨ max = 0 ∨ s.queueMeta.count = 0 → Q ⟨[], none, s⟩ d)
    (hout : ∀ out, scan (d.files .data) s.queueMeta.capacity s.queueMeta.tail
        (min s.queueMeta.count.toNat max) = .records out ∨ (∃ k, .fail k ∈ d.faults) →
      ∀ es ⊆ d.faults, Q ⟨out, none, s⟩ ⟨d.files, es, d.written⟩)
    (hcorrupt : s.readyState → s.queueMeta.count ≠ 0 →
      scan (d.files .data) s.queueMeta.capacity s.queueMeta.tail
        (min s.queueMeta.count.toNat max) = .corrupt →
      ∀ es ⊆ d.faults,
        wp s.reset (fun r d' => Q ⟨[], some r.1, r.2⟩ d') C ⟨d.files, es, d.written⟩)
    (hcut : ∀ k, .cut k ∈ d.faults → ∀ es, C ⟨d.files, es, d.written⟩) :
    wp (s.peek max) Q C d := by
  unfold peek
  split
  · next h => exact hidle h
  next hactive =>
  obtain ⟨hready, hmax, hcount⟩ : s.readyState ∧ max ≠ 0 ∧ s.queueMeta.count ≠ 0 := by
    simpa using hactive
  rw [wp_bind]
  apply wp_openFile_read (by decide)
  · intro _ es hes
    dsimp only
    rw [wp_bind]
    apply wp_peekLoop rfl
    · intro r hr es' hes'
      have hes'' := List.Subset.trans hes' hes
      rcases r with out | _
      · refine hout out ?_ es' hes''
        rcases hr with hr | ⟨⟨k, hk⟩, -⟩
        · exact .inl hr.symm
        · exact .inr ⟨k, hes hk⟩
      · rcases hr with hr | ⟨-, out, hr⟩
        · dsimp only
          rw [wp_bind]
          exact hcorrupt hready hcount hr.symm es' hes''
        · cases hr
    · intro k hk es'
      exact hcut k (hes hk) es'
  · rintro (hnone | ⟨k, hk⟩) es hes
    · refine hout [] (.inl ?_) es hes
      rw [hnone]
      have hpos : min s.queueMeta.count.toNat max ≠ 0 := by
        have : s.queueMeta.count.toNat ≠ 0 := fun h => hcount (UInt32.toNat_inj.mp h)
        omega
      obtain ⟨n, hn⟩ := Nat.exists_eq_succ_of_ne_zero hpos
      rw [hn, scan, if_pos (by simp [slice, fixRecordWireSize])]
    · exact hout [] (.inr ⟨k, hk⟩) es hes
  · exact hcut

/-! ## Writing records -/

/-- The data file a record write starts from: as it is, or emptied by the `w` fallback, which runs
when the file is missing or its `r+` open failed. -/
def WriteBase (d : Disk StorePath) (base : List UInt8) : Prop :=
  d.files .data = some base ∨
    base = [] ∧ (d.files .data = none ∨ ∃ k, .fail k ∈ d.faults)

/-- The first bytes of a record are stored in a slot of the data file. -/
structure RecordWritten (slot : UInt32) (bs : List UInt8) (d d' : Disk StorePath) : Prop where
  data : ∃ base, WriteBase d base ∧
    d'.files .data = some (overlay base (slotOffset slot).toNat bs)
  slots : SameSlots d d'

/-- Seek and write on an opened file, the part of `writeRecord` both its opens share. -/
def writeOpened (slot : UInt32) (wire : List UInt8) (f : File StorePath) : StoreIo Bool := do
  match ← f.seek (slotOffset slot).toNat with
  | none => return false
  | some f =>
    let written ← f.write wire
    return decide (written = fixRecordWireSize)

theorem wp_writeRecord {slot : UInt32} {wire : List UInt8} {Q : Bool → Disk StorePath → Prop}
    (hlen : wire.length = fixRecordWireSize)
    (hok : ∀ d', RecordWritten slot wire d d' → d'.faults ⊆ d.faults → Q true d')
    (hfail : ∀ k, .fail k ∈ d.faults → ∀ d', SameSlots d d' → d'.faults ⊆ d.faults →
      (d'.files .data = d.files .data ∨ ∃ n, RecordWritten slot (wire.take n) d d') → Q false d')
    (hcut : ∀ k, .cut k ∈ d.faults → ∀ d', SameSlots d d' →
      (d'.files .data = d.files .data ∨ ∃ n, RecordWritten slot (wire.take n) d d') → C d') :
    wp (writeRecord slot wire) Q C d := by
  have hne : wire ≠ [] := by
    intro h
    simp [h, fixRecordWireSize] at hlen
  -- Seek and write on an opened file, whichever open succeeded.
  have hwrite : ∀ es ⊆ d.faults, ∀ files base, WriteBase d base → files .data = some base →
      (∀ slot, slotMeta files slot = slotMeta d.files slot) →
      (files = d.files ∨ base = []) →
      wp (writeOpened slot wire ⟨.data, 0⟩) Q C ⟨files, es, d.written⟩ := by
    intro es hes files base hbase hfile hslots hstart
    have hwritten : ∀ (bs : List UInt8) (es' : List Fault) (w : StorePath → Nat),
        commits ⟨files, es', w⟩ = commits d →
        RecordWritten slot bs d
          ⟨Function.update files .data (some (overlay base (slotOffset slot).toNat bs)), es', w⟩ :=
      fun bs es' w hw => ⟨⟨base, hbase, by simp⟩,
        ⟨fun slot => (slotMeta_update_data).trans (hslots slot), hw⟩⟩
    have hsame : ∀ es' : List Fault, SameSlots d ⟨files, es', d.written⟩ :=
      fun _ => ⟨hslots, rfl⟩
    have huntouched : ∀ es' : List Fault,
        files .data = d.files .data ∨ RecordWritten slot (wire.take 0) d ⟨files, es', d.written⟩ := by
      intro es'
      rcases hstart with rfl | rfl
      · exact .inl rfl
      · refine .inr ⟨⟨[], hbase, ?_⟩, hsame es'⟩
        rw [List.take_zero, overlay_nil]
        exact hfile
    rw [writeOpened, wp_bind]
    apply wp_seek
    · intro es' hes'
      have hes'' := List.Subset.trans hes' hes
      dsimp only
      rw [wp_bind]
      apply wp_write hne <;> simp only [hfile, Option.getD_some]
      · intro es₂ hes₂
        rw [hlen]
        exact hok _ (hwritten _ _ _ rfl) (List.Subset.trans hes₂ hes'')
      · intro k hk es₂ hes₂ n hn
        rw [wp_pure, decide_eq_false (by omega)]
        have h := hwritten (wire.take n) es₂ d.written rfl
        exact hfail k (hes'' hk) _ h.slots (List.Subset.trans hes₂ hes'') (.inr ⟨n, h⟩)
      · intro k hk es₂ n _
        have h := hwritten (wire.take n) es₂ d.written rfl
        exact hcut k (hes'' hk) _ h.slots (.inr ⟨n, h⟩)
      · intro k hk es₂
        have h := hwritten wire es₂ (Function.update d.written .data (d.written .data + 1)) rfl
        refine hcut k (hes'' hk) _ h.slots (.inr ⟨wire.length, ?_⟩)
        rw [List.take_length]
        exact h
    · intro k hk es' hes'
      exact hfail k (hes hk) _ (hsame es') (List.Subset.trans hes' hes)
        ((huntouched es').imp id fun h => ⟨0, h⟩)
    · intro k hk es'
      exact hcut k (hes hk) _ (hsame es') ((huntouched es').imp id fun h => ⟨0, h⟩)
  -- The `w` fallback, taken because of a missing file or a failed open.
  have hfallback : (d.files .data = none ∨ ∃ k, .fail k ∈ d.faults) → ∀ es ⊆ d.faults,
      wp (openFile .data .write)
        (fun opened d' => wp (opened.elim (pure false) (writeOpened slot wire)) Q C d') C
        ⟨d.files, es, d.written⟩ := by
    intro hwhy es hes
    have hemptied : ∀ (es' : List Fault) (files : StorePath → Option (List UInt8)),
        Emptied d.files .data files → SameSlots d ⟨files, es', d.written⟩ ∧
          (files .data = d.files .data ∨
            RecordWritten slot (wire.take 0) d ⟨files, es', d.written⟩) := by
      rintro es' files (rfl | rfl)
      · exact ⟨.refl .., .inl rfl⟩
      · have h : SameSlots d ⟨Function.update d.files .data (some []), es', d.written⟩ :=
          ⟨fun _ => slotMeta_update_data, rfl⟩
        exact ⟨h, .inr ⟨⟨[], .inr ⟨rfl, hwhy⟩, by simp⟩, h⟩⟩
    apply wp_openFile_write
    · intro es' hes'
      exact hwrite es' (List.Subset.trans hes' hes) _ [] (.inr ⟨rfl, hwhy⟩)
        (Function.update_self ..) (fun _ => slotMeta_update_data) (.inr rfl)
    · intro k hk es' hes' files hfiles
      obtain ⟨hslots, h⟩ := hemptied es' files hfiles
      exact hfail k (hes hk) _ hslots (List.Subset.trans hes' hes) (h.imp id fun h => ⟨0, h⟩)
    · intro k hk es' files hfiles
      obtain ⟨hslots, h⟩ := hemptied es' files hfiles
      exact hcut k (hes hk) _ hslots (h.imp id fun h => ⟨0, h⟩)
  unfold writeRecord
  simp only [wp_bind]
  apply wp_openFile_read (by decide)
  · intro hsome es hes
    obtain ⟨base, hbase⟩ := Option.isSome_iff_exists.mp hsome
    exact hwrite es hes d.files base (.inl hbase) hbase (fun _ => rfl) (.inl rfl)
  · intro hwhy es hes
    dsimp only
    rw [wp_bind]
    exact wp_mono (hfallback hwhy es hes) (fun f _ h => by cases f <;> exact h) fun _ h => h
  · intro k hk es
    exact hcut k hk _ (.refl ..) (.inl rfl)

/-- The record write on a data file that opens, step by step of the script. -/
theorem wp_writeRecord_script {slot : UInt32} {base wire : List UInt8}
    {Q : Bool → Disk StorePath → Prop}
    (hlen : wire.length = fixRecordWireSize) (hbase : d.files .data = some base)
    (hopen : ∀ k, d.faults.getD 0 .ok ≠ .fail k)
    (hok : d.faults.getD 0 .ok = .ok → d.faults.getD 1 .ok = .ok → d.faults.getD 2 .ok = .ok →
      Q true ⟨Function.update d.files .data (some (overlay base (slotOffset slot).toNat wire)),
        d.faults.tail.tail.tail, Function.update d.written .data (d.written .data + 1)⟩)
    (hseek : ∀ k, d.faults.getD 1 .ok = .fail k → ∀ es, Q false ⟨d.files, es, d.written⟩)
    (hshort : ∀ k, d.faults.getD 2 .ok = .fail k → ∀ n < wire.length, ∀ es,
      Q false ⟨Function.update d.files .data
        (some (overlay base (slotOffset slot).toNat (wire.take n))), es, d.written⟩)
    (hcut : ∀ k, d.faults.getD 0 .ok = .cut k ∨ d.faults.getD 1 .ok = .cut k →
      ∀ es, C ⟨d.files, es, d.written⟩)
    (htorn : ∀ k, d.faults.getD 0 .ok = .ok → d.faults.getD 1 .ok = .ok →
      d.faults.getD 2 .ok = .cut k → ∀ es w, commits ⟨d.files, es, w⟩ = commits d →
      C ⟨Function.update d.files .data
        (some (overlay base (slotOffset slot).toNat (wire.take k))), es, w⟩) :
    wp (writeRecord slot wire) Q C d := by
  unfold writeRecord
  rw [wp_bind, wp, openFile_update_run hbase]
  rcases h₀ : d.faults.getD 0 .ok with _ | k | k
  · show wp (writeOpened slot wire ⟨.data, 0⟩) Q C ⟨d.files, d.faults.tail, d.written⟩
    rw [writeOpened, wp_bind, wp, seek_run, getD_tail]
    rcases h₁ : d.faults.getD 1 .ok with _ | k | k
    · dsimp only
      rw [wp_bind, wp, write_run, getD_tail, getD_tail]
      rcases h₂ : d.faults.getD 2 .ok with _ | k | k
      · dsimp only
        rw [hbase, wp_pure, decide_eq_true hlen]
        exact hok h₀ h₁ h₂
      · have hlt : min k (wire.length - 1) < wire.length := by
          rw [hlen, fixRecordWireSize]
          omega
        dsimp only
        rw [hbase, wp_pure, decide_eq_false (fun h => absurd (h.trans hlen.symm) hlt.ne)]
        exact hshort k h₂ _ hlt _
      · dsimp only
        rw [hbase]
        refine htorn k h₀ h₁ h₂ _ _ ?_
        split <;> rfl
    · exact hseek k h₁ _
    · exact hcut k (.inr h₁) _
  · exact absurd h₀ (hopen k)
  · exact hcut k (.inl h₀) _

/-! ## Operations -/

/-- The object `push` commits: the record is in its slot, the counters are advanced. -/
def pushed (s : PersistentFixStore) (record : FixRecord) : PersistentFixStore :=
  { s with queueMeta := pushMeta s.queueMeta (s.stamp record).sequenceId }

/-- What `push` makes of its commit. -/
def pushResult (s : PersistentFixStore) (record : FixRecord) (r : Bool × PersistentFixStore) :
    Bool × PersistentFixStore × FixRecord :=
  if r.1 then (true, r.2, s.stamp record)
  else (false, { r.2 with queueMeta := unpushMeta r.2.queueMeta (fixQueueIsFull s.queueMeta) },
    s.stamp record)

/-- A failed record write leaves the data file alone, or part of the record in the head slot. -/
theorem wp_push_partial {record : FixRecord}
    {Q : Bool × PersistentFixStore × FixRecord → Disk StorePath → Prop}
    (hidle : ¬ s.readyState → Q (false, s, record) d)
    (hencode : s.readyState → fixRecordEncode (s.stamp record) fixRecordWireSize = none →
      Q (false, s, s.stamp record) d)
    (hfail : s.readyState → ∀ wire, fixRecordEncode (s.stamp record) fixRecordWireSize = some wire →
      ∀ k, .fail k ∈ d.faults → ∀ d', SameSlots d d' → d'.faults ⊆ d.faults →
      (d'.files .data = d.files .data ∨
        ∃ n, RecordWritten s.queueMeta.head (wire.take n) d d') →
      Q (false, s, s.stamp record) d')
    (hcommit : s.readyState → ∀ wire, fixRecordEncode (s.stamp record) fixRecordWireSize = some wire →
      ∀ d', RecordWritten s.queueMeta.head wire d d' → d'.faults ⊆ d.faults →
      wp (commitMeta (s.pushed record)) (fun r d'' => Q (s.pushResult record r) d'') C d')
    (hcut : s.readyState → ∀ k, .cut k ∈ d.faults →
      ∀ wire, fixRecordEncode (s.stamp record) fixRecordWireSize = some wire →
      ∀ d', SameSlots d d' → (d'.files .data = d.files .data ∨
        ∃ n, RecordWritten s.queueMeta.head (wire.take n) d d') → C d') :
    wp (s.push record) Q C d := by
  unfold push
  split
  · next h => exact hidle h
  next hready =>
  have hready : s.readyState := by simpa using hready
  dsimp only
  rcases hwire : fixRecordEncode (s.stamp record) fixRecordWireSize with _ | wire
  · exact hencode hready hwire
  have hlen : wire.length = fixRecordWireSize := length_of_fixRecordEncode hwire
  dsimp only
  rw [wp_bind]
  apply wp_writeRecord hlen
  · intro d' hwritten hfaults
    simp only [not_true_eq_false, if_false]
    rw [wp_bind]
    refine wp_mono (hcommit hready wire hwire d' hwritten hfaults) ?_ (fun _ h => h)
    rintro ⟨ok, s'⟩ d'' h
    cases ok <;> exact h
  · intro k hk d' hslots hfaults hdata
    exact hfail hready wire hwire k hk d' hslots hfaults hdata
  · intro k hk d' hslots hdata
    exact hcut hready k hk wire hwire d' hslots hdata

/-- `wp_push_partial` for callers that do not ask what a failed record write left behind. -/
theorem wp_push {record : FixRecord}
    {Q : Bool × PersistentFixStore × FixRecord → Disk StorePath → Prop}
    (hidle : ¬ s.readyState → Q (false, s, record) d)
    (hfail : s.readyState → ∀ d', SameSlots d d' → d'.faults ⊆ d.faults →
      (∃ k, .fail k ∈ d.faults) ∨
        fixRecordEncode (s.stamp record) fixRecordWireSize = none ∧ d' = d →
      Q (false, s, s.stamp record) d')
    (hcommit : s.readyState → ∀ wire, fixRecordEncode (s.stamp record) fixRecordWireSize = some wire →
      ∀ d', RecordWritten s.queueMeta.head wire d d' → d'.faults ⊆ d.faults →
      wp (commitMeta (s.pushed record)) (fun r d'' => Q (s.pushResult record r) d'') C d')
    (hcut : s.readyState → ∀ k, .cut k ∈ d.faults →
      ∀ wire, fixRecordEncode (s.stamp record) fixRecordWireSize = some wire →
      ∀ d', SameSlots d d' → (d'.files .data = d.files .data ∨
        ∃ n, RecordWritten s.queueMeta.head (wire.take n) d d') → C d') :
    wp (s.push record) Q C d := by
  apply wp_push_partial hidle
  · intro hready hnone
    exact hfail hready d ⟨fun _ => rfl, rfl⟩ (List.Subset.refl _) (.inr ⟨hnone, rfl⟩)
  · intro hready _ _ k hk d' hslots hfaults _
    exact hfail hready d' hslots hfaults (.inl ⟨k, hk⟩)
  · exact hcommit
  · exact hcut

/-- A push on a data file that opens, step by step of the script. -/
theorem wp_push_script {record : FixRecord} {base : List UInt8}
    {Q : Bool × PersistentFixStore × FixRecord → Disk StorePath → Prop}
    (hready : s.readyState) (hbase : d.files .data = some base)
    (hopen : ∀ k, d.faults.getD 0 .ok ≠ .fail k)
    (hencode : fixRecordEncode (s.stamp record) fixRecordWireSize = none →
      Q (false, s, s.stamp record) d)
    (hcommit : ∀ wire, fixRecordEncode (s.stamp record) fixRecordWireSize = some wire →
      d.faults.getD 0 .ok = .ok → d.faults.getD 1 .ok = .ok → d.faults.getD 2 .ok = .ok →
      wp (commitMeta (s.pushed record)) (fun r d' => Q (s.pushResult record r) d') C
        ⟨Function.update d.files .data
          (some (overlay base (slotOffset s.queueMeta.head).toNat wire)), d.faults.tail.tail.tail,
          Function.update d.written .data (d.written .data + 1)⟩)
    (hseek : ∀ k, d.faults.getD 1 .ok = .fail k →
      ∀ es, Q (false, s, s.stamp record) ⟨d.files, es, d.written⟩)
    (hshort : ∀ wire, fixRecordEncode (s.stamp record) fixRecordWireSize = some wire →
      ∀ k, d.faults.getD 2 .ok = .fail k → ∀ n < wire.length, ∀ es, Q (false, s, s.stamp record)
        ⟨Function.update d.files .data
          (some (overlay base (slotOffset s.queueMeta.head).toNat (wire.take n))), es, d.written⟩)
    (hcut : ∀ k, d.faults.getD 0 .ok = .cut k ∨ d.faults.getD 1 .ok = .cut k →
      ∀ es, C ⟨d.files, es, d.written⟩)
    (htorn : ∀ wire, fixRecordEncode (s.stamp record) fixRecordWireSize = some wire →
      ∀ k, d.faults.getD 0 .ok = .ok → d.faults.getD 1 .ok = .ok → d.faults.getD 2 .ok = .cut k →
      ∀ es w, commits ⟨d.files, es, w⟩ = commits d →
      C ⟨Function.update d.files .data
        (some (overlay base (slotOffset s.queueMeta.head).toNat (wire.take k))), es, w⟩) :
    wp (s.push record) Q C d := by
  unfold push
  rw [if_neg (not_not.mpr hready)]
  dsimp only
  rcases hwire : fixRecordEncode (s.stamp record) fixRecordWireSize with _ | wire
  · exact hencode hwire
  dsimp only
  rw [wp_bind]
  apply wp_writeRecord_script (length_of_fixRecordEncode hwire) hbase hopen
  · intro h₀ h₁ h₂
    simp only [not_true_eq_false, if_false]
    rw [wp_bind]
    refine wp_mono (hcommit wire hwire h₀ h₁ h₂) ?_ (fun _ h => h)
    rintro ⟨ok, s'⟩ d'' h
    cases ok <;> exact h
  · exact hseek
  · exact hshort wire hwire
  · exact hcut
  · exact htorn wire hwire

/-! ### An acknowledgement -/

/-- The object `ackFront` commits. -/
def acked (s : PersistentFixStore) (count : Nat) : PersistentFixStore :=
  { s with queueMeta := ackMeta s.queueMeta (min count s.queueMeta.count.toNat) }

/-- What `ackFront` makes of its commit. -/
def ackResult (s : PersistentFixStore) (count : Nat) (r : Bool × PersistentFixStore) :
    Nat × PersistentFixStore :=
  let n := min count s.queueMeta.count.toNat
  if r.1 then (n, r.2) else (0, { r.2 with queueMeta := unackMeta r.2.queueMeta n })

theorem wp_ackFront {count : Nat} {Q : Nat × PersistentFixStore → Disk StorePath → Prop}
    (hidle : ¬ s.readyState ∨ count = 0 → Q (0, s) d)
    (hcommit : s.readyState → count ≠ 0 →
      wp (commitMeta (s.acked count)) (fun r d' => Q (s.ackResult count r) d') C d) :
    wp (s.ackFront count) Q C d := by
  unfold ackFront
  split
  · next h => exact hidle h
  next hactive =>
  obtain ⟨hready, hcount⟩ : s.readyState ∧ count ≠ 0 := by simpa using hactive
  dsimp only
  rw [wp_bind]
  refine wp_mono (hcommit hready hcount) ?_ (fun _ h => h)
  rintro ⟨ok, s'⟩ d' h
  cases ok <;> exact h

/-- The same bytes to read, whether or not the data file has been created. -/
def SameData (d d' : Disk StorePath) : Prop :=
  (d'.files .data).getD [] = (d.files .data).getD []

theorem wp_ensureData {Q : Bool → Disk StorePath → Prop}
    (hok : ∀ d', SameSlots d d' → d'.faults ⊆ d.faults → (d'.files .data).isSome →
      SameData d d' ∨ (∃ k, .fail k ∈ d.faults) → Q true d')
    (hfail : ∀ k, .fail k ∈ d.faults → ∀ d', SameSlots d d' → d'.faults ⊆ d.faults → Q false d')
    (hcut : ∀ k, .cut k ∈ d.faults → ∀ d', SameSlots d d' →
      SameData d d' ∨ (∃ k, .fail k ∈ d.faults) → C d') :
    wp ensureData Q C d := by
  have hemptied : ∀ es : List Fault,
      SameSlots d ⟨Function.update d.files .data (some []), es, d.written⟩ :=
    fun _ => ⟨fun _ => slotMeta_update_data, rfl⟩
  -- The file is created because it does not exist, or because the test failed.
  have hcreate : (d.files .data = none ∨ ∃ k, .fail k ∈ d.faults) → ∀ es ⊆ d.faults,
      wp (openFile .data .write) (fun f d' => Q f.isSome d') C ⟨d.files, es, d.written⟩ := by
    intro hwhy es hes
    apply wp_openFile_write
    · intro es' hes'
      refine hok _ (hemptied es') (List.Subset.trans hes' hes) (by simp) (hwhy.imp (fun h => ?_) id)
      simp [SameData, h]
    · rintro k hk es' hes' _ (rfl | rfl)
      · exact hfail k (hes hk) _ (.refl ..) (List.Subset.trans hes' hes)
      · exact hfail k (hes hk) _ (hemptied es') (List.Subset.trans hes' hes)
    · rintro k hk es' _ (rfl | rfl)
      · exact hcut k (hes hk) _ (.refl ..) (.inl rfl)
      · refine hcut k (hes hk) _ (hemptied es') (hwhy.imp (fun h => ?_) id)
        simp [SameData, h]
  unfold ensureData
  rw [wp_bind]
  apply wp_fileExists
  · intro es hes
    split
    · next h => exact hok _ (.refl ..) hes h (.inl rfl)
    · next h =>
      rw [wp_bind]
      exact wp_mono (hcreate (.inl (by simpa using h)) es hes) (fun f _ h => by cases f <;> exact h) fun _ h => h
  · intro k hk es hes
    rw [if_neg Bool.false_ne_true, wp_bind]
    exact wp_mono (hcreate (.inr ⟨k, hk⟩) es hes) (fun f _ h => by cases f <;> exact h) fun _ h => h
  · intro k hk es
    exact hcut k hk _ (.refl ..) (.inl rfl)

/-! ### A boot

A boot reads both meta slots, goes on with the newer one or starts a queue afresh, and probes the
front record. -/

/-- What a boot reads from a slot: its meta, or nothing when the read failed. -/
def SlotRead (d : Disk StorePath) (slot : MetaSlot) (m : Option FixQueueMeta) : Prop :=
  m = slotMeta d.files slot ∨ m = none ∧ ∃ k, .fail k ∈ d.faults

/-- The object with which `begin` reads the slots. -/
def booting (s : PersistentFixStore) (capacity : UInt32) : PersistentFixStore :=
  { s with readyState := false, queueCapacity := capacity }

/-- The object whose commit is the reset. -/
def fresh (s : PersistentFixStore) : PersistentFixStore :=
  { s with queueMeta := fixQueueMetaFresh s.queueCapacity, nextSlot := .a }

theorem fresh_wellFormed (h : s.queueCapacity ≠ 0) : s.fresh.nextMeta.WellFormed :=
  ⟨h, UInt32.pos_iff_ne_zero.mpr h, UInt32.pos_iff_ne_zero.mpr h,
    UInt32.le_of_lt (UInt32.pos_iff_ne_zero.mpr h)⟩

/-- A boot without a meta, and one with a meta of another capacity, commits a fresh meta from slot A;
the others take over the meta that was picked. -/
theorem wp_recoverFrom {capacity : UInt32} {a b : Option FixQueueMeta}
    {Q : BeginResult → Disk StorePath → Prop} (hcapacity : s.queueCapacity = capacity)
    (hfresh : (∀ m, fixQueueMetaPick a b = some m → m.capacity ≠ capacity) →
      wp s.fresh.commitMeta (fun r d' => Q ⟨r.1, some r.1, r.2⟩ d') C d)
    (hkept : ∀ m, fixQueueMetaPick a b = some m → m.capacity = capacity →
      Q ⟨true, none, { s with queueMeta := m, nextSlot := (winner a b).other }⟩ d) :
    wp (s.recoverFrom capacity a b) Q C d := by
  subst hcapacity
  unfold recoverFrom
  rcases hpick : fixQueueMetaPick a b with _ | m
  · dsimp only
    rw [wp_bind]
    apply hfresh
    rw [hpick]
    intro m hm
    cases hm
  · dsimp only
    split
    · next hne =>
      rw [wp_bind]
      apply hfresh
      rw [hpick]
      rintro m' hm
      obtain rfl := Option.some.inj hm
      exact hne
    · next heq => exact hkept m hpick (not_not.mp heq)

/-- A commit changes the generation and the slot, whatever it reports. -/
theorem wp_commitMeta_count :
    wp (commitMeta s) (fun r _ => r.2.queueMeta.count = s.queueMeta.count) (fun _ => True) d := by
  apply wp_commitMeta
  · intro _; rfl
  · intro _ _ _; rfl
  · intro _ _ _ _ _; rfl
  · intros; trivial
  · intros; trivial

theorem fixRecordDecode_short {buf : List UInt8} (h : buf.length < fixRecordWireSize) :
    fixRecordDecode buf = none := by
  rw [fixRecordDecode, if_pos (.inl h)]

/-- The boot probe keeps the queue when the front record is read, and otherwise resets it. -/
theorem wp_probeFront {report : Option Bool} {Q : BeginResult → Disk StorePath → Prop}
    (hempty : s.queueMeta.count = 0 → Q ⟨true, report, s⟩ d)
    (hfront : s.queueMeta.count ≠ 0 →
      slotRecord (d.files .data) s.queueMeta.tail ≠ none ∨ (∃ k, .fail k ∈ d.faults) →
      ∀ es ⊆ d.faults, Q ⟨true, report, s⟩ ⟨d.files, es, d.written⟩)
    (hreset : s.queueMeta.count ≠ 0 →
      slotRecord (d.files .data) s.queueMeta.tail = none ∨ (∃ k, .fail k ∈ d.faults) →
      ∀ es ⊆ d.faults, wp s.reset (fun r d' => ∀ ok, ok = r.1 ∨ ok = true →
        Q ⟨ok, some r.1, r.2⟩ d') C ⟨d.files, es, d.written⟩)
    (hready : s.readyState)
    (hcut : ∀ k, .cut k ∈ d.faults → ∀ es, C ⟨d.files, es, d.written⟩) :
    wp (s.probeFront report) Q C d := by
  have hcount : ∀ c : UInt32, c > 0 ↔ c ≠ 0 := fun c => UInt32.pos_iff_ne_zero
  unfold probeFront
  simp only [hcount]
  split
  case isFalse h => exact hempty (by simpa using h)
  next hne =>
  have hone : min s.queueMeta.count.toNat 1 = 1 := by
    have : s.queueMeta.count.toNat ≠ 0 := fun h => hne (UInt32.toNat_inj.mp h)
    omega
  rw [wp_bind]
  apply wp_peek
  · rintro (h | h | h)
    · exact absurd hready h
    · cases h
    · exact absurd h hne
  · intro out hscan es hes
    -- The probe peeks one record; an empty answer with a count means the front cannot be read.
    rw [hone, scan, scan] at hscan
    dsimp only
    split
    · next h =>
      rw [wp_bind]
      refine wp_mono (hreset hne ?_ es hes) (fun r d' h => h r.1 (.inl rfl)) (fun _ h => h)
      rcases hscan with hscan | hfault
      · left
        split at hscan
        · next hshort =>
          refine fixRecordDecode_short (lt_of_le_of_ne ?_ hshort)
          simp [slice]
        · split at hscan
          · cases hscan
          · simp [PeekLoop.cons, h.1] at hscan
      · exact .inr hfault
    · next h =>
      refine hfront hne ?_ es hes
      rcases hscan with hscan | hfault
      · left
        split at hscan
        · simp at hscan
          exact absurd ⟨hscan, hne⟩ h
        · split at hscan
          · cases hscan
          · next hr => simp [hr]
      · exact .inr hfault
  · intro _ _ hscan es hes
    refine wp_mono (wp_and (hreset hne ?_ es hes) (wp_commitMeta_count (s := s.fresh))) ?_
      (fun _ h => h)
    · left
      rw [hone, scan, scan] at hscan
      split at hscan
      · cases hscan
      · split at hscan
        · assumption
        · cases hscan
    · rintro r d' ⟨h, hzero⟩
      have hzero : r.2.queueMeta.count = 0 := hzero
      simp only [hzero]
      exact h true (.inr rfl)
  · exact hcut

/-- `begin` once it has a meta. -/
def BeginResult.finish (r : BeginResult) : StoreIo BeginResult := do
  if ¬ r.ok then return r
  if ¬ (← ensureData) then return { r with ok := false }
  probeFront { r.store with readyState := true } r.resetReport

theorem wp_finish {r : BeginResult} {Q : BeginResult → Disk StorePath → Prop}
    (hstop : r.ok = false → Q r d)
    (hprobe : r.ok → ∀ d', SameSlots d d' → d'.faults ⊆ d.faults → (d'.files .data).isSome →
      SameData d d' ∨ (∃ k, .fail k ∈ d.faults) →
      wp (probeFront { r.store with readyState := true } r.resetReport) Q C d')
    (hmissing : r.ok → ∀ k, .fail k ∈ d.faults → ∀ d', SameSlots d d' → d'.faults ⊆ d.faults →
      Q { r with ok := false } d')
    (hcut : ∀ k, .cut k ∈ d.faults → ∀ d', SameSlots d d' →
      SameData d d' ∨ (∃ k, .fail k ∈ d.faults) → C d') :
    wp r.finish Q C d := by
  unfold BeginResult.finish
  split
  · next h => exact hstop (by simpa using h)
  · next h =>
    have hok : r.ok = true := by simpa using h
    rw [wp_bind]
    apply wp_ensureData
    · intro d' hslots hfaults hsome hdata
      exact hprobe hok d' hslots hfaults hsome hdata
    · intro k hk d' hslots hfaults
      exact hmissing hok k hk d' hslots hfaults
    · exact hcut

theorem wp_finish_complete {r : BeginResult} {Q : BeginResult → Disk StorePath → Prop}
    (hfaults : d.faults = []) (hok : r.ok)
    (hprobe : ∀ d', d'.faults = [] → (d'.files .data).isSome → SameData d d' →
      wp (probeFront { r.store with readyState := true } r.resetReport) Q C d') :
    wp r.finish Q C d := by
  have hnone : ∀ {e : Fault}, e ∉ d.faults := by
    intro e he
    rw [hfaults] at he
    cases he
  apply wp_finish
  · intro hstop
    rw [hok] at hstop
    cases hstop
  · intro _ d' _ hsub hsome hdata
    rw [hfaults] at hsub
    exact hprobe d' (List.subset_nil.mp hsub) hsome (hdata.resolve_right fun ⟨_, hk⟩ => hnone hk)
  · exact fun _ _ hk => absurd hk hnone
  · exact fun _ hk => absurd hk hnone

/-- `begin` up to the point where it has read both slots. -/
theorem wp_begin {capacity : UInt32} {Q : BeginResult → Disk StorePath → Prop}
    (hzero : capacity = 0 → Q ⟨false, none, { s with readyState := false }⟩ d)
    (hread : capacity ≠ 0 → ∀ a b, SlotRead d .a a → SlotRead d .b b → ∀ es ⊆ d.faults,
      wp (recoverFrom (s.booting capacity) capacity a b) (fun r d' => wp r.finish Q C d') C
        ⟨d.files, es, d.written⟩)
    (hcut : ∀ k, .cut k ∈ d.faults → ∀ es, C ⟨d.files, es, d.written⟩) :
    wp (s.begin capacity) Q C d := by
  unfold begin
  dsimp only
  split
  · next h => exact hzero h
  next hcap =>
  have hreadB : ∀ a, SlotRead d .a a → ∀ es ⊆ d.faults,
      wp (do
        let b ← readMeta .metaB
        let recovered ← recoverFrom (s.booting capacity) capacity a b
        recovered.finish) Q C ⟨d.files, es, d.written⟩ := by
    intro a ha es hes
    rw [wp_bind]
    apply wp_readMeta .b
    · intro es' hes'
      rw [wp_bind]
      exact hread hcap a _ ha (.inl rfl) es' (List.Subset.trans hes' hes)
    · intro k hk es' hes'
      rw [wp_bind]
      exact hread hcap a _ ha (.inr ⟨rfl, k, hes hk⟩) es' (List.Subset.trans hes' hes)
    · intro k hk es'
      exact hcut k (hes hk) es'
  rw [wp_bind]
  apply wp_readMeta .a
  · intro es hes
    exact hreadB _ (.inl rfl) es hes
  · intro k hk es hes
    exact hreadB _ (.inr ⟨rfl, k, hk⟩) es hes
  · exact hcut

theorem wp_begin_complete {capacity : UInt32} {Q : BeginResult → Disk StorePath → Prop}
    (hfaults : d.faults = []) (hcap : capacity ≠ 0)
    (h : wp (recoverFrom (s.booting capacity) capacity (slotMeta d.files .a) (slotMeta d.files .b))
      (fun r d' => wp r.finish Q C d') C d) :
    wp (s.begin capacity) Q C d := by
  have hnone : ∀ {e : Fault}, e ∉ d.faults := by
    intro e he
    rw [hfaults] at he
    cases he
  have hread : ∀ slot m, SlotRead d slot m → m = slotMeta d.files slot := by
    rintro slot m (hm | ⟨-, k, hk⟩)
    · exact hm
    · exact absurd hk hnone
  apply wp_begin
  · exact fun hzero => absurd hzero hcap
  · intro _ a b ha hb es hes
    rw [hread .a a ha, hread .b b hb]
    rw [hfaults] at hes
    obtain rfl := List.subset_nil.mp hes
    rwa [← hfaults]
  · exact fun _ hk => absurd hk hnone

end PersistentFixStore

end OpenGps.Firmware
