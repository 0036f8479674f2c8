import OpenGps.Firmware.StoreMachine

/-!
# Durability of the committed queue state

A boot takes over the slot with the higher generation. `Leads` ties the object to the slot it came
from, so that the slot it writes next gets the highest generation; it holds over any run, with any
faults and cuts, except where a fresh meta is committed over flash whose slot B is still valid:
the generation restarts at one there.
-/

namespace OpenGps.Firmware

open OpenGps.Lib OpenGps.Lib.CrashIo

/-- While the commits can be counted in 32 bits, no slot carries a generation above their number. -/
def Bounded (d : Disk StorePath) : Prop :=
  commits d < 2 ^ 32 → ∀ slot m, slotMeta d.files slot = some m → m.generation.toNat ≤ commits d

/-- The next commit of the object gets a generation above that of the slot it leaves in place. -/
structure Leads (s : PersistentFixStore) (d : Disk StorePath) : Prop where
  bound : commits d < 2 ^ 32 → s.queueMeta.generation.toNat ≤ commits d
  other : commits d < 2 ^ 32 → ∀ m, slotMeta d.files s.nextSlot.other = some m →
    m.generation ≤ s.queueMeta.generation
  capacity : s.queueMeta.capacity = s.queueCapacity
  nextSeq : s.queueMeta.nextSeq ≠ 0

/-- A boot picks the meta of the object, whose generation is above that of the other slot. -/
structure Newest (s : PersistentFixStore) (d : Disk StorePath) : Prop where
  pick : fixQueueMetaPick (slotMeta d.files .a) (slotMeta d.files .b) = some s.queueMeta.sealed
  above : ∀ m, slotMeta d.files s.nextSlot = some m → m.generation < s.queueMeta.generation

section
variable {s : PersistentFixStore} {d d' : Disk StorePath}

theorem Bounded.of_same (h : Bounded d) (hsame : SameSlots d d') : Bounded d' := by
  intro hlife slot m hm
  rw [hsame.slots] at hm
  rw [hsame.commits] at hlife ⊢
  exact h hlife slot m hm

theorem Leads.of_same (h : Leads s d) (hsame : SameSlots d d') : Leads s d' where
  bound := by rw [hsame.commits]; exact h.bound
  other := by rw [hsame.commits, hsame.slots]; exact h.other
  capacity := h.capacity
  nextSeq := h.nextSeq

theorem Newest.of_same (h : Newest s d) (hsame : SameSlots d d') : Newest s d' where
  pick := by rw [hsame.slots, hsame.slots]; exact h.pick
  above := by rw [hsame.slots]; exact h.above

/-- Only the generation, the capacity and `nextSeq` of the meta matter. -/
theorem Leads.of_meta (h : Leads s d) {m : FixQueueMeta} {ready : Bool}
    (hgen : m.generation = s.queueMeta.generation) (hcap : m.capacity = s.queueMeta.capacity)
    (hseq : m.nextSeq ≠ 0) : Leads { s with queueMeta := m, readyState := ready } d where
  bound := by rw [hgen]; exact h.bound
  other := by rw [hgen]; exact h.other
  capacity := hcap.trans h.capacity
  nextSeq := hseq

theorem Bounded.of_torn (h : Bounded d) {slot : MetaSlot} (htorn : Torn slot d d') :
    Bounded d' := by
  intro hlife slot' m hm
  rw [htorn.commits] at hlife ⊢
  obtain rfl | rfl : slot' = slot ∨ slot' = slot.other := by
    cases slot <;> cases slot' <;> simp [MetaSlot.other]
  · rcases htorn.here with heq | hnone
    · exact h hlife _ m (heq ▸ hm)
    · rw [hnone] at hm; cases hm
  · exact h hlife _ m (htorn.other ▸ hm)

theorem Leads.of_torn (h : Leads s d) (htorn : Torn s.nextSlot d d') : Leads s d' where
  bound := by rw [htorn.commits]; exact h.bound
  other := by rw [htorn.commits, htorn.other]; exact h.other
  capacity := h.capacity
  nextSeq := h.nextSeq

/-- The generation of the next commit, which the number of commits keeps from wrapping. -/
theorem Leads.toNat_succ (h : Leads s d) (hlife : commits d + 1 < 2 ^ 32) :
    (s.queueMeta.generation + 1).toNat = s.queueMeta.generation.toNat + 1 := by
  have := h.bound (by omega)
  rw [UInt32.toNat_add]
  exact Nat.mod_eq_of_lt (by simp; omega)

theorem Bounded.of_published (h : Bounded d) {slot : MetaSlot} {m : FixQueueMeta}
    (hpub : Published slot m d d')
    (hgen : commits d + 1 < 2 ^ 32 → m.generation.toNat ≤ commits d + 1) : Bounded d' := by
  intro hlife slot' m' hm'
  rw [hpub.commits] at hlife ⊢
  obtain rfl | rfl : slot' = slot ∨ slot' = slot.other := by
    cases slot <;> cases slot' <;> simp [MetaSlot.other]
  · rw [hpub.here] at hm'
    split at hm'
    · cases hm'
    · cases hm'; exact hgen hlife
  · exact (h (by omega) _ m' (hpub.other ▸ hm')).trans (Nat.le_succ _)

theorem MetaSlot.other_other (slot : MetaSlot) : slot.other.other = slot := by
  cases slot <;> rfl

/-- The lead passes to the slot that was written. -/
theorem Leads.of_published (h : Leads s d) (hpub : Published s.nextSlot s.nextMeta d d') :
    Leads s.committed d' where
  bound hlife := by
    rw [hpub.commits] at hlife ⊢
    show (s.queueMeta.generation + 1).toNat ≤ _
    rw [h.toNat_succ hlife]
    exact Nat.succ_le_succ (h.bound (by omega))
  other := by
    intro _ m hm
    rw [show s.committed.nextSlot = s.nextSlot.other from rfl, MetaSlot.other_other, hpub.here,
      if_neg (by exact h.nextSeq)] at hm
    cases hm
    exact UInt32.le_refl _
  capacity := h.capacity
  nextSeq := h.nextSeq

theorem Leads.newest_of_published (h : Leads s d) (hpub : Published s.nextSlot s.nextMeta d d')
    (hlife : commits d + 1 < 2 ^ 32) : Newest s.committed d' := by
  have hhere : slotMeta d'.files s.nextSlot = some s.nextMeta.sealed := by
    rw [hpub.here, if_neg (by exact h.nextSeq)]
  have habove : ∀ m, slotMeta d'.files s.nextSlot.other = some m →
      m.generation < s.nextMeta.generation := by
    intro m hm
    rw [hpub.other] at hm
    have hle := UInt32.le_iff_toNat_le.mp (h.other (by omega) m hm)
    rw [UInt32.lt_iff_toNat_lt]
    show _ < (s.queueMeta.generation + 1).toNat
    rw [h.toNat_succ hlife]
    omega
  refine ⟨?_, habove⟩
  rcases hslot : s.nextSlot with _ | _ <;> rw [hslot] at hhere habove
  · rw [hhere]
    rcases hb : slotMeta d'.files .b with _ | b
    · rfl
    · have := habove b hb
      have hngt : ¬ b.generation > s.nextMeta.sealed.generation :=
        UInt32.lt_asymm this
      simp [fixQueueMetaPick, hngt]
      rfl
  · rw [hhere]
    rcases ha : slotMeta d'.files .a with _ | a
    · rfl
    · have : s.nextMeta.sealed.generation > a.generation := habove a ha
      simp [fixQueueMetaPick, this]
      rfl

/-! ## What each operation keeps -/

/-- What a power cut leaves of `Bounded`. -/
def CutKeeps (d d' : Disk StorePath) : Prop :=
  commits d ≤ commits d' ∧ Bounded d'

theorem CutKeeps.of_same (h : Bounded d) (hsame : SameSlots d d') : CutKeeps d d' :=
  ⟨hsame.commits.ge, h.of_same hsame⟩

/-- What a commit of an object that leads keeps: the lead stays when it fails, and passes on when it
succeeds. -/
structure CommitKeeps (s : PersistentFixStore) (d : Disk StorePath) (r : Bool × PersistentFixStore)
    (d' : Disk StorePath) : Prop where
  commits : commits d ≤ commits d'
  ready : r.2.readyState = s.readyState
  failed : r.1 = false → r.2 = s
  bounded : Bounded d'
  leads : Leads r.2 d'
  newest : Firmware.commits d' < 2 ^ 32 → r.1 = true → Newest r.2 d'

theorem CommitKeeps.of_published (hb : Bounded d) (h : Leads s d)
    (hpub : Published s.nextSlot s.nextMeta d d') : CommitKeeps s d (true, s.committed) d' where
  commits := by rw [hpub.commits]; omega
  ready := rfl
  failed hf := by cases hf
  bounded := by
    refine hb.of_published hpub fun hlife => ?_
    show (s.queueMeta.generation + 1).toNat ≤ _
    rw [h.toNat_succ hlife]
    exact Nat.succ_le_succ (h.bound (by omega))
  leads := h.of_published hpub
  newest hlife _ := h.newest_of_published hpub (by rw [hpub.commits] at hlife; exact hlife)

theorem CommitKeeps.of_torn (hb : Bounded d) (h : Leads s d) (htorn : Torn s.nextSlot d d') :
    CommitKeeps s d (false, s) d' where
  commits := htorn.commits.ge
  ready := rfl
  failed _ := rfl
  bounded := hb.of_torn htorn
  leads := h.of_torn htorn
  newest _ hf := by cases hf

theorem wp_commitMeta_leads (hb : Bounded d) (h : Leads s d) :
    wp (PersistentFixStore.commitMeta s) (CommitKeeps s d) (CutKeeps d) d := by
  apply PersistentFixStore.wp_commitMeta
  · intro _
    exact .of_torn hb h (.refl _ d d.faults)
  · intro d' hpub _
    exact .of_published hb h hpub
  · intro _ _ d' htorn _
    exact .of_torn hb h htorn
  · intro _ _ d' htorn
    exact ⟨htorn.commits.ge, hb.of_torn htorn⟩
  · intro _ _ d' hpub
    have hkeeps := CommitKeeps.of_published hb h hpub
    exact ⟨hkeeps.commits, hkeeps.bounded⟩

/-- A commit of a fresh meta, which leads only where slot B holds no meta. -/
theorem wp_commitMeta_fresh (hb : Bounded d) (hgen : s.queueMeta = fixQueueMetaFresh s.queueCapacity)
    (hslot : s.nextSlot = .a) :
    wp (PersistentFixStore.commitMeta s) (fun r d' =>
      Firmware.commits d ≤ Firmware.commits d' ∧ r.2.readyState = s.readyState ∧
        Bounded d' ∧ (slotMeta d.files .b = none → CommitKeeps s d r d')) (CutKeeps d) d := by
  have hbounded : ∀ d', Published s.nextSlot s.nextMeta d d' → Bounded d' := by
    intro d' hpub
    refine hb.of_published hpub fun _ => ?_
    rw [PersistentFixStore.nextMeta, hgen]
    show (0 + 1 : UInt32).toNat ≤ _
    simp
  have hleads : slotMeta d.files .b = none → Leads s d := by
    intro hnone
    have hone : s.queueMeta.nextSeq ≠ 0 := by
      rw [hgen]
      exact (by decide : (1 : UInt32) ≠ 0)
    refine ⟨fun _ => by rw [hgen]; exact Nat.zero_le _, fun _ => ?_, by rw [hgen]; rfl, hone⟩
    intro m hm
    rw [hslot, show MetaSlot.other .a = .b from rfl, hnone] at hm
    cases hm
  apply PersistentFixStore.wp_commitMeta
  · intro _
    exact ⟨le_refl _, rfl, hb, fun hnone => .of_torn hb (hleads hnone) (.refl _ d d.faults)⟩
  · intro d' hpub _
    exact ⟨by rw [hpub.commits]; omega, rfl, hbounded d' hpub,
      fun hnone => .of_published hb (hleads hnone) hpub⟩
  · intro _ _ d' htorn _
    exact ⟨htorn.commits.ge, rfl, hb.of_torn htorn,
      fun hnone => .of_torn hb (hleads hnone) htorn⟩
  · intro _ _ d' htorn
    exact ⟨htorn.commits.ge, hb.of_torn htorn⟩
  · intro _ _ d' hpub
    exact ⟨by rw [hpub.commits]; omega, hbounded d' hpub⟩

/-! ### Pushes, acknowledgements and resets -/

/-- What an operation keeps. A fresh meta counts only when slot B held none. -/
structure OpKeeps (d : Disk StorePath) (ok : Bool) (resetReport : Option Bool)
    (s' : PersistentFixStore) (d' : Disk StorePath) : Prop where
  commits : commits d ≤ commits d'
  bounded : Bounded d'
  leads : (resetReport ≠ none → slotMeta d.files .b = none) → s'.readyState → Leads s' d'
  newest : Firmware.commits d' < 2 ^ 32 → (resetReport ≠ none → slotMeta d.files .b = none) →
    ok = true ∨ resetReport = some true → Newest s' d'

theorem wp_push_keeps {record : FixRecord} (hb : Bounded d) (h : s.readyState → Leads s d)
    (hid : s.readyState → (s.stamp record).sequenceId ≠ 0xFFFFFFFF) :
    wp (s.push record) (fun r d' => OpKeeps d r.1 none r.2.1 d') (CutKeeps d) d := by
  have hidle : ∀ d', SameSlots d d' → OpKeeps d false none s d' := by
    intro d' hsame
    refine ⟨hsame.commits.ge, hb.of_same hsame, fun _ hr => (h hr).of_same hsame, ?_⟩
    rintro _ _ (hf | hf) <;> cases hf
  apply PersistentFixStore.wp_push
  · intro _
    exact hidle d (.refl d d.faults)
  · intro _ d' hsame _ _
    exact hidle d' hsame
  · intro hready wire _ d' hwritten _
    have hb' := hb.of_same hwritten.slots
    have hleads : Leads (s.pushed record) d' :=
      ((h hready).of_same hwritten.slots).of_meta
        (PersistentFixStore.pushMeta_generation ..) (PersistentFixStore.pushMeta_capacity ..)
        (PersistentFixStore.pushMeta_nextSeq_ne_zero (h hready).nextSeq (hid hready))
    refine wp_mono (wp_commitMeta_leads hb' hleads) ?_ ?_
    · intro r d'' hkeeps
      have hle : commits d ≤ commits d'' := hwritten.slots.commits.ge.trans hkeeps.commits
      rcases r with ⟨_ | _, s'⟩
      · refine ⟨hle, hkeeps.bounded, fun _ _ => ?_, by rintro _ _ (hf | hf) <;> cases hf⟩
        have hleads' := hkeeps.leads
        exact hleads'.of_meta (by simp) (by simp) (by simpa using hleads'.nextSeq)
      · exact ⟨hle, hkeeps.bounded, fun _ _ => hkeeps.leads,
          fun hlife _ _ => hkeeps.newest hlife rfl⟩
    · rintro d'' ⟨hle, hbound⟩
      exact ⟨hwritten.slots.commits.ge.trans hle, hbound⟩
  · intro _ _ _ _ _ d' hsame _
    exact .of_same hb hsame

theorem wp_ackFront_keeps {count : Nat} (hb : Bounded d) (h : s.readyState → Leads s d) :
    wp (s.ackFront count) (fun r d' => OpKeeps d (r.1 ≠ 0) none r.2 d') (CutKeeps d) d := by
  apply PersistentFixStore.wp_ackFront
  · intro _
    refine ⟨le_refl _, hb, fun _ hr => h hr, ?_⟩
    rintro _ _ (hf | hf) <;> cases hf
  · intro hready _
    have hleads : Leads (s.acked count) d := (h hready).of_meta rfl rfl (h hready).nextSeq
    refine wp_mono (wp_commitMeta_leads hb hleads) ?_ (fun _ h => h)
    intro r d' hkeeps
    rcases r with ⟨_ | _, s'⟩
    · refine ⟨hkeeps.commits, hkeeps.bounded, fun _ _ => ?_,
        by rintro _ _ (hf | hf) <;> cases hf⟩
      have hleads' := hkeeps.leads
      exact hleads'.of_meta rfl rfl hleads'.nextSeq
    · exact ⟨hkeeps.commits, hkeeps.bounded, fun _ _ => hkeeps.leads,
        fun hlife _ _ => hkeeps.newest hlife rfl⟩

/-- A reset, from any object. -/
theorem wp_reset_keeps (hb : Bounded d) :
    wp s.reset (fun r d' => OpKeeps d false (some r.1) r.2 d') (CutKeeps d) d := by
  refine wp_mono (wp_commitMeta_fresh (s := s.fresh) hb rfl rfl) ?_ (fun _ h => h)
  rintro r d' ⟨hle, -, hbound, hkeeps⟩
  refine ⟨hle, hbound, fun hnone _ => (hkeeps (hnone (by simp))).leads, ?_⟩
  rintro hlife hnone (hok | hreport)
  · cases hok
  · exact (hkeeps (hnone (by simp))).newest hlife (Option.some.inj hreport)

/-- An operation that only read. -/
theorem OpKeeps.of_same (hb : Bounded d) (h : s.readyState → Leads s d) (hsame : SameSlots d d') :
    OpKeeps d false none s d' where
  commits := hsame.commits.ge
  bounded := hb.of_same hsame
  leads _ hr := (h hr).of_same hsame
  newest _ _ hf := by rcases hf with hf | hf <;> cases hf

theorem OpKeeps.after_same {d₁ : Disk StorePath} {ok : Bool} {report : Option Bool}
    {s' : PersistentFixStore} (hsame : SameSlots d d₁) (h : OpKeeps d₁ ok report s' d') :
    OpKeeps d ok report s' d' where
  commits := hsame.commits.ge.trans h.commits
  bounded := h.bounded
  leads hnone := h.leads (by rwa [hsame.slots])
  newest hlife hnone := h.newest hlife (by rwa [hsame.slots])

theorem CutKeeps.after_same {d₁ : Disk StorePath} (hsame : SameSlots d d₁) (h : CutKeeps d₁ d') :
    CutKeeps d d' :=
  ⟨hsame.commits.ge.trans h.1, h.2⟩

theorem wp_peek_keeps {max : Nat} (hb : Bounded d) (h : s.readyState → Leads s d) :
    wp (s.peek max) (fun r d' => OpKeeps d false r.resetReport r.store d') (CutKeeps d) d := by
  apply PersistentFixStore.wp_peek
  · intro _
    exact .of_same hb h (.refl d d.faults)
  · intro _ _ es _
    exact .of_same hb h (.refl d es)
  · intro _ _ _ es _
    have hsame := SameSlots.refl d es
    exact wp_mono (wp_reset_keeps (hb.of_same hsame)) (fun _ _ h => h.after_same hsame)
      (fun _ h => h.after_same hsame)
  · intro _ _ es
    exact .of_same hb (.refl d es)

/-! ### Boots -/

/-- The slot a boot takes over is not the one it writes next. -/
theorem winner_read {a b : Option FixQueueMeta} {m : FixQueueMeta}
    (h : fixQueueMetaPick a b = some m) :
    (match PersistentFixStore.winner a b with | .a => a | .b => b) = some m := by
  unfold fixQueueMetaPick at h
  unfold PersistentFixStore.winner
  rcases a with _ | a <;> rcases b with _ | b <;> simp only [Option.some.injEq] at h ⊢
  · cases h
  · exact h
  · exact h
  · split at h
    · next hlt => rw [if_pos hlt, h]
    · next hle => rw [if_neg hle, h]

/-- What `begin` keeps up to the point where it has a meta. -/
structure RecoverKeeps (d : Disk StorePath) (r : PersistentFixStore.BeginResult)
    (d' : Disk StorePath) : Prop where
  commits : commits d ≤ commits d'
  bounded : Bounded d'
  ready : r.store.readyState = false
  leads : (r.resetReport ≠ none → slotMeta d.files .b = none) → Leads r.store d'
  newest : Firmware.commits d' < 2 ^ 32 → (r.resetReport ≠ none → slotMeta d.files .b = none) →
    r.resetReport = some true → Newest r.store d'
  count : r.resetReport ≠ none → r.store.queueMeta.count = 0
  same : r.resetReport = none → SameSlots d d'

theorem wp_recoverFrom_keeps {capacity : UInt32} {a b : Option FixQueueMeta} (hb : Bounded d)
    (hcap : s.queueCapacity = capacity) (hready : s.readyState = false)
    (ha : ∀ m, a = some m → slotMeta d.files .a = some m)
    (hbr : ∀ m, b = some m → slotMeta d.files .b = some m) :
    wp (PersistentFixStore.recoverFrom s capacity a b) (RecoverKeeps d) (CutKeeps d) d := by
  apply PersistentFixStore.wp_recoverFrom hcap
  · intro _
    refine wp_mono (wp_and (wp_commitMeta_fresh hb rfl rfl)
      PersistentFixStore.wp_commitMeta_count) ?_ (fun _ h => h)
    rintro r d' ⟨⟨hle, hready', hbound, hkeeps⟩, hcount⟩
    refine ⟨hle, hbound, hready'.trans hready, fun hnone => ?_, fun hlife hnone htrue => ?_,
      fun _ => hcount, fun hnone => by cases hnone⟩
    · exact (hkeeps (hnone (by simp))).leads
    · exact (hkeeps (hnone (by simp))).newest hlife (Option.some.inj htrue)
  · intro m hpick hsame
    have hread : slotMeta d.files (PersistentFixStore.winner a b) = some m := by
      have hm := winner_read hpick
      rcases hw : PersistentFixStore.winner a b <;> simp only [hw] at hm
      · exact ha m hm
      · exact hbr m hm
    refine ⟨le_refl _, hb, hready, fun _ => ⟨fun hlife => hb hlife _ m hread, ?_, ?_, ?_⟩, ?_, ?_,
      fun _ => .refl d d.faults⟩
    · intro _ m' hm'
      rw [MetaSlot.other_other, hread] at hm'
      cases hm'
      exact UInt32.le_refl _
    · rw [hcap]; exact hsame
    · exact (wellFormed_of_fixQueueMetaDecode hread).2
    · intro _ _ hf; cases hf
    · intro hf; exact absurd rfl hf

theorem PersistentFixStore.SlotRead.slotMeta {slot : MetaSlot} {a : Option FixQueueMeta}
    (h : PersistentFixStore.SlotRead d slot a) (m : FixQueueMeta) (hm : a = some m) :
    slotMeta d.files slot = some m := by
  rcases h with h | ⟨h, -⟩
  · rw [← h, hm]
  · rw [h] at hm; cases hm

/-- What the rest of a boot keeps once `begin` has a meta. -/
theorem wp_finish_keeps {r : PersistentFixStore.BeginResult} {d₁ : Disk StorePath} (hb : Bounded d)
    (hrec : RecoverKeeps d r d₁) :
    wp r.finish (fun r' d' => OpKeeps d false r'.resetReport r'.store d') (CutKeeps d) d₁ := by
  have hnotReady : ∀ d₂, SameSlots d₁ d₂ → OpKeeps d false r.resetReport r.store d₂ := by
    intro d₂ h₂
    refine ⟨hrec.commits.trans h₂.commits.ge, hrec.bounded.of_same h₂, fun _ hr => ?_, ?_⟩
    · rw [hrec.ready] at hr; cases hr
    · rintro hlife hnone (hf | htrue)
      · cases hf
      · exact (hrec.newest (by rwa [h₂.commits] at hlife) hnone htrue).of_same h₂
  apply PersistentFixStore.wp_finish
  · intro _
    exact hnotReady d₁ (.refl d₁ d₁.faults)
  · intro _ d₂ h₂ _ _ _
    have hb₂ := hrec.bounded.of_same h₂
    have hkept : ∀ d₃, SameSlots d₂ d₃ →
        OpKeeps d false r.resetReport { r.store with readyState := true } d₃ := by
      intro d₃ h₃
      refine ⟨?_, hb₂.of_same h₃, fun hnone _ => ?_, ?_⟩
      · exact hrec.commits.trans (h₂.commits.ge.trans h₃.commits.ge)
      · have hleads := hrec.leads hnone
        exact ((hleads.of_same h₂).of_same h₃).of_meta rfl rfl hleads.nextSeq
      · rintro hlife hnone (hf | htrue)
        · cases hf
        · have hnew := hrec.newest (by rwa [h₃.commits, h₂.commits] at hlife) hnone htrue
          exact ⟨((hnew.of_same h₂).of_same h₃).pick, ((hnew.of_same h₂).of_same h₃).above⟩
    apply PersistentFixStore.wp_probeFront
    · intro _
      exact hkept d₂ (.refl d₂ d₂.faults)
    · intro _ _ es₂ _
      exact hkept _ (.refl d₂ es₂)
    · intro hcount _ es₂ _
      -- A queue that was just started is empty, so this reset is the first fresh commit.
      have hreport : r.resetReport = none := by
        by_contra hne
        exact hcount (hrec.count hne)
      have hsame₂ : SameSlots d ⟨d₂.files, es₂, d₂.written⟩ :=
        (hrec.same hreport).trans (h₂.trans (.refl d₂ es₂))
      refine wp_mono (wp_reset_keeps (hb.of_same hsame₂)) ?_ (fun _ h => h.after_same hsame₂)
      intro r d' hreset ok _
      exact hreset.after_same hsame₂
    · rfl
    · intro _ _ es₂
      exact ⟨hrec.commits.trans h₂.commits.ge, hb₂.of_same (.refl d₂ es₂)⟩
  · intro _ _ _ d₂ h₂ _
    exact hnotReady d₂ h₂
  · intro _ _ d₂ h₂ _
    exact ⟨hrec.commits.trans h₂.commits.ge, hrec.bounded.of_same h₂⟩

theorem wp_begin_keeps {capacity : UInt32} (hb : Bounded d) :
    wp (s.begin capacity) (fun r d' => OpKeeps d false r.resetReport r.store d')
      (CutKeeps d) d := by
  apply PersistentFixStore.wp_begin
  · intro _
    exact .of_same hb (fun hr => by cases hr) (.refl d d.faults)
  · intro _ a b ha hbr es _
    have hsame := SameSlots.refl d es
    have hb' : Bounded ⟨d.files, es, d.written⟩ := hb.of_same hsame
    refine wp_mono (wp_recoverFrom_keeps hb' rfl rfl ha.slotMeta hbr.slotMeta) ?_
      (fun _ h => h.after_same hsame)
    intro r d₁ hrec
    exact wp_mono (wp_finish_keeps hb' hrec) (fun _ _ h => h.after_same hsame)
      (fun _ h => h.after_same hsame)
  · intro _ _ es
    exact .of_same hb (.refl d es)

end

/-! ## Whole runs -/

/-- The operation reports that it committed: a push or an acknowledgement by its own return value,
`begin` and `peek` through the fresh meta they committed. -/
def Committed : StoreOp → StoreReport → Prop
  | .push _, r | .ackFront _, r => r.ok = true
  | .begin _, r | .peek _, r => r.resetReport = some true

/-- Where the generation restarts, slot B holds no meta; and no push takes the last id. -/
def DurabilityGuard (st : StoreState) : StoreAction → Prop
  | .op op faults => (StartsFresh st op faults → slotMeta st.files .b = none) ∧
      ∀ record, op = .push record → st.store.readyState →
        (st.store.stamp record).sequenceId ≠ 0xFFFFFFFF
  | .powerLoss => True

/-- The invariant of runs under the guard. -/
def DurableState (st : StoreState) : Prop :=
  Bounded (st.disk []) ∧ (st.store.readyState → Leads st.store (st.disk []))

theorem DurableState.of_blank {st : StoreState} (h : st.Blank) : DurableState st := by
  refine ⟨fun _ slot m hm => ?_, fun hr => ?_⟩
  · rw [show (st.disk []).files = st.files from rfl, h.slots] at hm
    cases hm
  · rw [h.store] at hr
    cases hr

/-- What a step of a durable state keeps, for each operation. -/
theorem wp_run_keeps {st : StoreState} {op : StoreOp} (faults : List Fault) (h : DurableState st)
    (hid : ∀ record, op = .push record → st.store.readyState →
      (st.store.stamp record).sequenceId ≠ 0xFFFFFFFF) :
    wp (op.run st.store) (fun r d => ∃ ok, OpKeeps (st.disk faults) ok r.resetReport r.store d ∧
      (Committed op r → ok = true ∧ r.resetReport = none ∨ r.resetReport = some true))
      (CutKeeps (st.disk faults))
      (st.disk faults) := by
  have hsame : SameSlots (st.disk []) (st.disk faults) := ⟨fun _ => rfl, rfl⟩
  have hb := h.1.of_same hsame
  have hl := fun hr => (h.2 hr).of_same hsame
  cases op with
  | begin capacity =>
    rw [StoreOp.run, wp_bind]
    exact wp_mono (wp_begin_keeps hb) (fun r d hk => ⟨false, hk, .inr⟩) (fun _ h => h)
  | push record =>
    rw [StoreOp.run, wp_bind]
    exact wp_mono (wp_push_keeps hb hl (hid record rfl))
      (fun r d hk => ⟨_, hk, fun hok => .inl ⟨hok, rfl⟩⟩) (fun _ h => h)
  | peek max =>
    rw [StoreOp.run, wp_bind]
    exact wp_mono (wp_peek_keeps hb hl) (fun r d hk => ⟨false, hk, .inr⟩) (fun _ h => h)
  | ackFront count =>
    rw [StoreOp.run, wp_bind]
    exact wp_mono (wp_ackFront_keeps hb hl) (fun r d hk => ⟨_, hk, fun hok => .inl ⟨hok, rfl⟩⟩)
      (fun _ h => h)

theorem DurableState.step {st st' : StoreState} {a : StoreAction} (h : DurableState st)
    (hguard : DurabilityGuard st a) (hstep : storeStep st a = some st') : DurableState st' := by
  cases a with
  | powerLoss =>
    cases hstep
    exact ⟨h.1, fun hr => by cases hr⟩
  | op op faults =>
    have hkeeps := wp_run_keeps faults h hguard.2
    unfold storeStep at hstep
    rcases hrun : op.run st.store (st.disk faults) with ⟨_ | r, d⟩ <;>
      simp only [hrun, Option.some.injEq] at hstep <;> subst hstep
    · exact ⟨(wp_of_powerLost hkeeps hrun).2, fun hr => by cases hr⟩
    · obtain ⟨ok, hk, -⟩ := wp_of_returns hkeeps hrun
      refine ⟨hk.bounded, fun hr => ?_⟩
      have hfresh : r.resetReport ≠ none → slotMeta st.files .b = none := by
        intro hne
        refine hguard.1 ⟨r, d, hrun, ?_⟩
        obtain ⟨committed, hreport⟩ := Option.ne_none_iff_exists'.mp hne
        cases committed with
        | true => exact .inl hreport
        | false => exact .inr ⟨hreport, hr⟩
      exact (hk.leads hfresh hr).of_same ⟨fun _ => rfl, rfl⟩

/-! ## The reboot -/

/-- Two metas describe the same queue. -/
def SameQueue (m m' : FixQueueMeta) : Prop :=
  m.capacity = m'.capacity ∧ m.head = m'.head ∧ m.tail = m'.tail ∧ m.count = m'.count ∧
    m.nextSeq = m'.nextSeq ∧ m.lostCount = m'.lostCount

instance (m m' : FixQueueMeta) : Decidable (SameQueue m m') :=
  inferInstanceAs (Decidable (_ ∧ _ ∧ _ ∧ _ ∧ _ ∧ _))

/-- A fresh `begin` with the capacity of `m`, whose file operations complete, restores `m`. -/
def RebootRestores (d : Disk StorePath) (m : FixQueueMeta) : Prop :=
  ∃ r d', PersistentFixStore.init.begin m.capacity ⟨d.files, [], d.written⟩ = (some r, d') ∧
    r.ok = true ∧ SameQueue r.store.queueMeta m

/-- A boot on the newest meta restores it unless the front record cannot be read. -/
theorem Newest.reboot_iff {s : PersistentFixStore} {d : Disk StorePath} (h : Newest s d) :
    RebootRestores d s.queueMeta ↔
      s.queueMeta.count = 0 ∨ slotRecord (d.files .data) s.queueMeta.tail ≠ none := by
  have hwp : wp (PersistentFixStore.init.begin s.queueMeta.capacity) (fun r _ => r.ok = true ∧
      (SameQueue r.store.queueMeta s.queueMeta ↔
        s.queueMeta.count = 0 ∨ slotRecord (d.files .data) s.queueMeta.tail ≠ none))
      (fun _ => False) ⟨d.files, [], d.written⟩ := by
    have hcap : s.queueMeta.capacity ≠ 0 := by
      have hwf : s.queueMeta.sealed.WellFormed := by
        have hm := winner_read h.pick
        rcases hw : PersistentFixStore.winner (slotMeta d.files .a) (slotMeta d.files .b) <;>
          simp only [hw] at hm <;> exact (wellFormed_of_fixQueueMetaDecode hm).1
      exact hwf.1
    apply PersistentFixStore.wp_begin_complete rfl hcap
    apply PersistentFixStore.wp_recoverFrom rfl
    · intro hnone
      exact absurd rfl (hnone s.queueMeta.sealed h.pick)
    · intro m hm _
      obtain rfl : s.queueMeta.sealed = m := Option.some.inj (h.pick.symm.trans hm)
      apply PersistentFixStore.wp_finish_complete rfl rfl
      intro d' hfaults _ hdata
      have hrec : slotRecord (d'.files .data) s.queueMeta.tail =
          slotRecord (d.files .data) s.queueMeta.tail := by
        rw [slotRecord, slotRecord, slice, slice, hdata]
      have hnofail : ¬ ∃ k, Fault.fail k ∈ d'.faults := by
        rintro ⟨k, hk⟩
        rw [hfaults] at hk
        cases hk
      apply PersistentFixStore.wp_probeFront
      · intro hzero
        exact ⟨rfl, fun _ => .inl hzero, fun _ => ⟨rfl, rfl, rfl, rfl, rfl, rfl⟩⟩
      · intro _ hfront _ _
        refine ⟨rfl, fun _ => .inr ?_, fun _ => ⟨rfl, rfl, rfl, rfl, rfl, rfl⟩⟩
        rw [← hrec]
        exact hfront.resolve_right hnofail
      · intro hne hfront es hes
        -- An unreadable front record: the boot resets a queue that was not empty.
        have hnone : slotRecord (d.files .data) s.queueMeta.tail = none := by
          rw [← hrec]
          exact hfront.resolve_right hnofail
        rw [hfaults] at hes
        apply PersistentFixStore.wp_commitMeta_complete (List.subset_nil.mp hes)
          (PersistentFixStore.fresh_wellFormed hcap)
        rintro d₃ - - ok (rfl | rfl) <;>
        · refine ⟨rfl, fun hsame => ?_, ?_⟩
          · exact absurd hsame.2.2.2.1.symm hne
          · rintro (hzero | hread)
            · exact absurd hzero hne
            · exact absurd hnone hread
      · rfl
      · intro k hk
        rw [hfaults] at hk
        cases hk
  obtain ⟨r, d', hbegin, hok, hiff⟩ := returns_of_wp hwp
  constructor
  · rintro ⟨r', d'', hbegin', -, hsame⟩
    rw [hbegin] at hbegin'
    cases hbegin'
    exact hiff.mp hsame
  · intro hfront
    exact ⟨r, d', hbegin, hok, hiff.mpr hfront⟩

/-- After every operation of a guarded run that reports a commit, a boot picks what that commit
wrote, and restores it exactly when the queue is empty or its front record can be read. -/
theorem reboot_restores_last_commit {st₀ st : StoreState} {as : List StoreAction} {op : StoreOp}
    {faults : List Fault} {r : StoreReport} {d : Disk StorePath} (hblank : st₀.Blank)
    (hrun : Run storeStep st₀ as st)
    (hguard : Along storeStep DurabilityGuard st₀ (as ++ [.op op faults]))
    (hop : op.run st.store (st.disk faults) = (some r, d)) (hcommit : Committed op r)
    (hlife : commits d < 2 ^ 32) :
    Newest r.store d ∧ (RebootRestores d r.store.queueMeta ↔
      r.store.queueMeta.count = 0 ∨ slotRecord (d.files .data) r.store.queueMeta.tail ≠ none) := by
  have hst : DurableState st :=
    Run.invariant_along (fun _ _ _ h hg hs => h.step hg hs) hguard.append_left hrun
      (.of_blank hblank)
  have hlast : DurabilityGuard st (.op op faults) := hguard.last hrun
  obtain ⟨ok, hkeeps, hreported⟩ := wp_of_returns (wp_run_keeps faults hst hlast.2) hop
  have hnew : Newest r.store d := by
    rcases hreported hcommit with ⟨hok, hnone⟩ | hreport
    · exact hkeeps.newest hlife (fun hne => absurd hnone hne) (.inl hok)
    · exact hkeeps.newest hlife (fun _ => hlast.1 ⟨r, d, hop, .inl hreport⟩) (.inr hreport)
  exact ⟨hnew, hnew.reboot_iff⟩

/-- The first boot of a new device commits a fresh meta, and a reboot restores it. -/
theorem reboot_restores_first_boot : ∃ r d,
    (StoreOp.begin 4).run newDevice.store (newDevice.disk []) = (some r, d) ∧
      RebootRestores d r.store.queueMeta := by
  have hfacts : ((StoreOp.begin 4).run newDevice.store (newDevice.disk [])).1.map
        (fun r => (r.resetReport, r.store.queueMeta.count)) = some (some true, 0) ∧
      commits ((StoreOp.begin 4).run newDevice.store (newDevice.disk [])).2 = 1 := by
    decide +kernel
  rcases hop : (StoreOp.begin 4).run newDevice.store (newDevice.disk []) with ⟨_ | r, d⟩ <;>
    rw [hop] at hfacts
  · cases hfacts.1
  obtain ⟨hreport, hcount⟩ := Prod.mk.inj (Option.some.inj hfacts.1)
  have hguard : Along storeStep DurabilityGuard newDevice ([] ++ [.op (.begin 4) []]) :=
    ⟨⟨fun _ => newDevice_blank.slots .b, fun _ h => by cases h⟩, fun _ _ => trivial⟩
  have hlife : commits d < 2 ^ 32 := by
    rw [hfacts.2]
    decide
  exact ⟨r, d, rfl, (reboot_restores_last_commit newDevice_blank (Run.nil_iff.mpr rfl) hguard hop
    hreport hlife).2.mpr (.inl hcount)⟩

/-- A record the counterexamples below push. -/
def someFix : FixRecord :=
  { sequenceId := 0, bootId := 1, recordedAt := Vector.replicate 21 0, latitudeE6 := 0
    longitudeE6 := 0, altitudeCm := 0, speedMmps := 0, accuracyCm := 0, satellitesUsed := 0
    batteryMv := 0, signalStrength := 0, validFields := 0 }

set_option maxRecDepth 100000 in
/-- One boot whose probe cannot open the data file resets the queue over slot B, which still holds
the queue of the previous boot with a higher generation; the next boot restores that one. -/
theorem reboot_after_reset_restores_old_queue : ∃ as st op faults r d,
    Run storeStep newDevice as st ∧ op.run st.store (st.disk faults) = (some r, d) ∧
      Committed op r ∧ commits d < 2 ^ 32 ∧ ¬ RebootRestores d r.store.queueMeta := by
  let as : List StoreAction := [.op (.begin 2) [], .op (.push someFix) [], .powerLoss]
  let faults : List Fault := [.ok, .ok, .ok, .ok, .ok, .fail 0]
  have hfacts : (as.foldlM storeStep newDevice).map (fun st =>
      let op := (StoreOp.begin 2).run st.store (st.disk faults)
      let boot := PersistentFixStore.init.begin 2 ⟨op.2.files, [], op.2.written⟩
      (op.1.map (fun r => (r.resetReport, r.store.queueMeta.count, r.store.queueMeta.capacity)),
        commits op.2, boot.1.map fun r => r.store.queueMeta.count)) =
      some (some (some true, 0, 2), 3, some 1) := by
    decide +kernel
  obtain ⟨st, hrun, hst⟩ := Option.map_eq_some_iff.mp hfacts
  dsimp only at hst
  rcases hop : (StoreOp.begin 2).run st.store (st.disk faults) with ⟨_ | r, d⟩ <;> rw [hop] at hst
  · cases hst
  simp only [Option.map_some, Prod.mk.injEq, Option.some.injEq] at hst
  obtain ⟨⟨hreport, hcount, hcap⟩, hcommits, hboot⟩ := hst
  refine ⟨as, st, .begin 2, faults, r, d, hrun, hop, hreport, by rw [hcommits]; decide, ?_⟩
  rintro ⟨r', d', hbegin, -, hsame⟩
  rw [hcap] at hbegin
  rw [hbegin] at hboot
  have h10 : r'.store.queueMeta.count = 1 := Option.some.inj hboot
  rw [hsame.2.2.2.1, hcount] at h10
  exact absurd h10 (by decide)

end OpenGps.Firmware
