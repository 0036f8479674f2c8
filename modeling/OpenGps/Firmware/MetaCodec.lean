import OpenGps.Firmware.StoreDurability

/-!
# Agreement of the meta codec (`lib/fix_queue`, `commitMeta`)

The encoder and the decoder of a meta slot each check the meta on their own. The two checks differ
in `nextSeq` only: the encoder takes a meta whose `nextSeq` wrapped to zero, and the decoder refuses
what it wrote. `commitMeta` encodes first "so an invalid meta never reaches flash"; this module says
which metas get past that test and cannot be read by the next boot.
-/

namespace OpenGps.Firmware

open OpenGps.Lib OpenGps.Lib.CrashIo

/-- The fields a slot keeps, without its checksum. -/
def FixQueueMeta.fields (m : FixQueueMeta) :
    UInt32 × UInt32 × UInt32 × UInt32 × UInt32 × UInt32 × UInt32 :=
  (m.generation, m.capacity, m.head, m.tail, m.count, m.nextSeq, m.lostCount)

@[simp] theorem FixQueueMeta.fields_sealed (m : FixQueueMeta) : m.sealed.fields = m.fields := rfl

/-! ## Encode, then decode -/

/-- The encoder accepts exactly the well-formed metas, whatever their `nextSeq`. -/
theorem exists_fixQueueMetaEncode_iff {m : FixQueueMeta} :
    (∃ wire, fixQueueMetaEncode m fixQueueMetaWireSize = some wire) ↔ m.WellFormed := by
  constructor
  · rintro ⟨wire, h⟩
    exact (fixQueueMetaEncode_eq_some.mp h).2.1
  · intro h
    exact ⟨_, fixQueueMetaEncode_eq_some.mpr ⟨le_rfl, h, rfl⟩⟩

/-- A slot that reads as the decoder reads an encoded `m` gives back its fields, unless `nextSeq` is
zero. -/
theorem fields_of_slot_iff {m : FixQueueMeta} {slot : Option FixQueueMeta}
    (h : slot = if m.nextSeq = 0 then none else some m.sealed) :
    (∃ m', slot = some m' ∧ m'.fields = m.fields) ↔ m.nextSeq ≠ 0 := by
  rw [h]
  split
  · next hzero =>
    simp [hzero]
  · next hne =>
    exact ⟨fun _ => hne, fun _ => ⟨m.sealed, rfl, m.fields_sealed⟩⟩

theorem decodes_encoded_iff {m : FixQueueMeta} {length : Nat} {wire : List UInt8}
    (h : fixQueueMetaEncode m length = some wire) :
    (∃ m', fixQueueMetaDecode wire = some m' ∧ m'.fields = m.fields) ↔ m.nextSeq ≠ 0 :=
  fields_of_slot_iff (fixQueueMetaDecode_encode h)

/-! ## Decode, then encode -/

/-- The checksummed bytes of a slot are the body of the meta it decodes to, and the next two are
its checksum. -/
theorem sealed_of_fixQueueMetaDecode {buf : List UInt8} {m : FixQueueMeta}
    (h : fixQueueMetaDecode buf = some m) :
    m.body = buf.take 28 ∧ writeUint16 (calculateCrc16 m.body) = (buf.drop 28).take 2 := by
  unfold fixQueueMetaDecode at h
  split at h
  · cases h
  next hlen =>
  split at h
  · cases h
  next hcrc =>
  dsimp only at h
  split at h
  · cases h
  split at h
  · cases h
  have hbuf : 32 ≤ buf.length := not_lt.mp hlen
  have hbody : m.body = buf.take 28 := by
    cases h
    rw [FixQueueMeta.body]
    -- Each field written back gives the four bytes it was read from.
    iterate 7 rw [writeUint32_read (by omega)]
    rw [List.drop_zero, show 28 = 4 + (4 + (4 + (4 + (4 + (4 + 4))))) from rfl]
    iterate 6 rw [List.take_add]
    simp only [List.drop_drop, Nat.reduceAdd]
  refine ⟨hbody, ?_⟩
  rw [hbody, ← not_not.mp hcrc]
  exact writeUint16_read (by omega)

theorem fixQueueMetaEncode_of_decode {buf : List UInt8} {m : FixQueueMeta}
    (h : fixQueueMetaDecode buf = some m) :
    ∃ wire, fixQueueMetaEncode m fixQueueMetaWireSize = some wire ∧
      wire.take 30 = buf.take 30 := by
  obtain ⟨hbody, hcrc⟩ := sealed_of_fixQueueMetaDecode h
  refine ⟨_, fixQueueMetaEncode_eq_some.mpr
    ⟨le_rfl, (wellFormed_of_fixQueueMetaDecode h).1, rfl⟩, ?_⟩
  rw [← List.append_assoc, List.take_left' (by simp), hcrc, hbody]
  exact List.take_add.symm

/-! ## What a commit leaves for the next boot -/

/-- The next boot, on whose disk nothing fails, reads `m` from a slot. -/
def BootReads (d : Disk StorePath) (slot : MetaSlot) (m : FixQueueMeta) : Prop :=
  ∃ d', PersistentFixStore.readMeta slot.path ⟨d.files, [], d.written⟩ = (some (some m), d')

theorem bootReads_iff {d : Disk StorePath} {slot : MetaSlot} {m : FixQueueMeta} :
    BootReads d slot m ↔ slotMeta d.files slot = some m := by
  have hwp : wp (PersistentFixStore.readMeta slot.path) (fun r _ => r = slotMeta d.files slot)
      (fun _ => False) ⟨d.files, [], d.written⟩ := by
    apply PersistentFixStore.wp_readMeta
    · intro es _
      rfl
    · intro k hk
      cases hk
    · intro k hk
      cases hk
  obtain ⟨r, d', hread, rfl⟩ := returns_of_wp hwp
  constructor
  · rintro ⟨d'', h⟩
    rw [hread] at h
    exact Option.some.inj (Prod.mk.inj h).1
  · intro h
    exact ⟨d', by rw [hread, h]⟩

/-- A commit either completes its write or leaves the number of commits as it was, and returns
`true` only in the first case. -/
theorem commitMeta_published {s : PersistentFixStore} {d d' : Disk StorePath}
    {o : Option (Bool × PersistentFixStore)} (h : s.commitMeta d = (o, d')) :
    (commits d < commits d' ↔ Published s.nextSlot s.nextMeta d d') ∧
      (∀ s', o = some (true, s') → commits d < commits d') := by
  have hlt : ∀ {d' : Disk StorePath}, Published s.nextSlot s.nextMeta d d' →
      commits d < commits d' := fun hpub => by
    rw [hpub.commits]
    omega
  have htorn : ∀ {d' : Disk StorePath}, commits d' = commits d →
      (commits d < commits d' ↔ Published s.nextSlot s.nextMeta d d') := fun heq =>
    ⟨fun hlt' => absurd hlt' (by omega), hlt⟩
  have hwp : wp s.commitMeta
      (fun r d' => (commits d < commits d' ↔ Published s.nextSlot s.nextMeta d d') ∧
        (r.1 = true → commits d < commits d'))
      (fun d' => commits d < commits d' ↔ Published s.nextSlot s.nextMeta d d') d := by
    apply PersistentFixStore.wp_commitMeta
    · exact fun _ => ⟨htorn rfl, nofun⟩
    · exact fun _ hpub _ => ⟨iff_of_true (hlt hpub) hpub, fun _ => hlt hpub⟩
    · exact fun _ _ _ ht _ => ⟨htorn ht.commits, nofun⟩
    · exact fun _ _ _ ht => htorn ht.commits
    · exact fun _ _ _ hpub => iff_of_true (hlt hpub) hpub
  cases o with
  | none => exact ⟨wp_of_powerLost hwp h, nofun⟩
  | some r =>
    obtain ⟨hiff, hret⟩ := wp_of_returns hwp h
    refine ⟨hiff, fun s' hs' => ?_⟩
    cases hs'
    exact hret rfl

theorem bootReads_published_iff {slot : MetaSlot} {m : FixQueueMeta} {d d' : Disk StorePath}
    (h : Published slot m d d') :
    (∃ m', BootReads d' slot m' ∧ m'.fields = m.fields) ↔ m.nextSeq ≠ 0 := by
  simp only [bootReads_iff]
  exact fields_of_slot_iff h.here

/-- The encoder and the decoder agree on a meta exactly when a well-formed one has a positive
`nextSeq`. What decodes always encodes to the bytes it was read from, and a slot that a commit wrote
is read by the next boot exactly when its `nextSeq` is positive. -/
theorem fixQueueMeta_codec_agrees (m : FixQueueMeta) :
    ((∀ length wire, fixQueueMetaEncode m length = some wire →
        ∃ m', fixQueueMetaDecode wire = some m' ∧ m'.fields = m.fields) ↔
      (m.WellFormed → m.nextSeq ≠ 0)) ∧
    (∀ buf, fixQueueMetaDecode buf = some m →
      ∃ wire, fixQueueMetaEncode m fixQueueMetaWireSize = some wire ∧
        wire.take 30 = buf.take 30) ∧
    (∀ (s : PersistentFixStore) (d d' : Disk StorePath) (o : Option (Bool × PersistentFixStore)),
      s.nextMeta = m → s.commitMeta d = (o, d') →
        (∀ s', o = some (true, s') → commits d < commits d') ∧
        (commits d < commits d' →
          ((∃ m', BootReads d' s.nextSlot m' ∧ m'.fields = m.fields) ↔ m.nextSeq ≠ 0))) := by
  refine ⟨⟨?_, ?_⟩, fun _ => fixQueueMetaEncode_of_decode, ?_⟩
  · intro hagree hwf
    obtain ⟨wire, hwire⟩ := exists_fixQueueMetaEncode_iff.mpr hwf
    exact (decodes_encoded_iff hwire).mp (hagree _ wire hwire)
  · intro hseq length wire hwire
    exact (decodes_encoded_iff hwire).mpr (hseq (fixQueueMetaEncode_eq_some.mp hwire).2.1)
  · rintro s d d' o rfl hcommit
    obtain ⟨hpub, hret⟩ := commitMeta_published hcommit
    exact ⟨hret, fun hlt => bootReads_published_iff (hpub.mp hlt)⟩

/-- The meta of a fresh queue comes back from its encoding. -/
theorem fresh_codec_agrees :
    ∃ m', (fixQueueMetaEncode (fixQueueMetaFresh 4) 32).bind fixQueueMetaDecode = some m' ∧
      m'.fields = (fixQueueMetaFresh 4).fields := by
  obtain ⟨wire, hwire⟩ := exists_fixQueueMetaEncode_iff.mpr
    (show (fixQueueMetaFresh 4).WellFormed by decide)
  obtain ⟨m', hdec, hfields⟩ :=
    (fixQueueMeta_codec_agrees (fixQueueMetaFresh 4)).1.mpr (fun _ => by decide) 32 wire hwire
  exact ⟨m', by rw [show fixQueueMetaEncode (fixQueueMetaFresh 4) 32 = some wire from hwire,
    Option.bind_some, hdec], hfields⟩

set_option maxRecDepth 100000 in
/-- A push of the last sequence id wraps `nextSeq`: the encoder takes the meta, the push reports
success and writes the slot, the next boot cannot read that slot, and it restores a queue without
the record. -/
theorem wrapped_meta_refused : ∃ (m : FixQueueMeta) (wire : List UInt8) (st : StoreState)
    (r : StoreReport) (d : Disk StorePath),
    fixQueueMetaEncode m fixQueueMetaWireSize = some wire ∧ fixQueueMetaDecode wire = none ∧
      Run storeStep newDevice [.op (.begin 1) []] st ∧
      (StoreOp.push { someFix with sequenceId := 0xFFFFFFFF }).run st.store (st.disk []) =
        (some r, d) ∧
      r.ok = true ∧ r.store.queueMeta = m ∧ commits d = 2 ∧
      (∀ m', ¬ BootReads d st.store.nextSlot m') ∧
      (PersistentFixStore.init.begin 1 ⟨d.files, [], d.written⟩).1.map
        (fun r => (r.ok, r.store.queueMeta.count)) = some (true, 0) := by
  let m : FixQueueMeta :=
    { generation := 2, capacity := 1, head := 0, tail := 0, count := 1, nextSeq := 0
      lostCount := 0, crc := 0 }
  have hfacts : ([StoreAction.op (.begin 1) []].foldlM storeStep newDevice).map (fun st =>
      let op := (StoreOp.push { someFix with sequenceId := 0xFFFFFFFF }).run st.store (st.disk [])
      (op.1.map (fun r => (r.ok, r.store.queueMeta)), commits op.2,
        slotMeta op.2.files st.store.nextSlot,
        (PersistentFixStore.init.begin 1 ⟨op.2.files, [], op.2.written⟩).1.map
          fun r => (r.ok, r.store.queueMeta.count))) =
      some (some (true, m), 2, none, some (true, 0)) := by
    decide +kernel
  obtain ⟨st, hrun, hst⟩ := Option.map_eq_some_iff.mp hfacts
  dsimp only at hst
  rcases hop : (StoreOp.push { someFix with sequenceId := 0xFFFFFFFF }).run st.store (st.disk [])
    with ⟨_ | r, d⟩ <;> rw [hop] at hst
  · cases hst
  simp only [Option.map_some, Prod.mk.injEq, Option.some.injEq] at hst
  obtain ⟨⟨hok, hmeta⟩, hcommits, hslot, hboot⟩ := hst
  have hwire := fixQueueMetaEncode_eq_some.mpr
    ⟨le_refl 32, (show m.WellFormed by decide), rfl⟩
  refine ⟨m, _, st, r, d, hwire, ?_, hrun, hop, hok, hmeta, hcommits, ?_, hboot⟩
  · rw [fixQueueMetaDecode_encode hwire]
    rfl
  · intro m' hreads
    rw [bootReads_iff.mp hreads] at hslot
    cases hslot

end OpenGps.Firmware
