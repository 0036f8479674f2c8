import OpenGps.Backend.Access
import OpenGps.Lib.Run

/-!
# The owner of a device

The requests that write devices and grants, interleaved at their statements: the guard of a route
and each read and write of its service are separate steps, and the rest of the program may change
the users in between. `creators` remembers who created a device; no step reads it.
-/

namespace OpenGps.Backend

open OpenGps.Lib

/-- A request between two of its statements. -/
inductive AccessTask (υ δ : Type) where
  | grant (actor target : υ) (device : δ)
  | grantUser (actor target : υ) (device : δ)
  | grantWrite (actor target : υ) (device : δ)
  | revoke (actor target : υ) (device : δ)
  | revokeRole (actor target : υ) (device : δ)
  | revokeWrite (actor target : υ) (device : δ)
  | delete (actor : υ) (device : δ)
  | deleteWrite (actor : υ) (device : δ)
  deriving DecidableEq

/-- The rows of `users`, reduced to their `deleted_at`. -/
abbrev Users (υ : Type) := Table υ (Option Time)

structure AccessState (υ δ : Type) where
  users : Users υ
  devices : Table δ Device
  grants : Grants υ δ
  tasks : List (AccessTask υ δ)
  creators : Table δ υ

inductive AccessAction (υ δ : Type) where
  | create (actor : υ) (device : δ)
  | request (task : AccessTask υ δ)
  | run (task : Nat) (clock : Time) (answered : Bool)
  | users (t : Users υ)

variable {υ δ : Type} [DecidableEq υ] [DecidableEq δ]

/-- Only a request that has not started can be sent. -/
def AccessTask.isRequest : AccessTask υ δ → Bool
  | .grant .. | .revoke .. | .delete .. => true
  | _ => false

namespace AccessState

def new (users : Users υ) : AccessState υ δ := ⟨users, ∅, ∅, [], ∅⟩

/-- `GetUserByID`. -/
def hasUser (s : AccessState υ δ) (user : υ) : Bool := s.users.lookup user = some none

/-- `DevicesAdapter.Create`: one transaction. The id of the row is new, and the grant needs a row of
the user. -/
def create (s : AccessState υ δ) (actor : υ) (device : δ) : AccessState υ δ :=
  if device ∈ s.devices ∨ actor ∉ s.users then s
  else
    { s with
      devices := s.devices.insert device ⟨none, none⟩
      grants := s.grants.grant actor device .owner
      creators := s.creators.insert device actor }

/-- The next statement of a request, and what is left of it. -/
def runTask (s : AccessState υ δ) (clock : Time) :
    AccessTask υ δ → AccessState υ δ × Option (AccessTask υ δ)
  | .grant actor target device =>
    match s.grants.requireRole actor device .owner with
    | .error _ => (s, none)
    | .ok () => (s, if actor = target then none else some (.grantUser actor target device))
  | .grantUser actor target device =>
    (s, if s.hasUser target then some (.grantWrite actor target device) else none)
  | .grantWrite _ target device =>
    -- The foreign keys of the grant; a row that is marked as deleted still satisfies them.
    if target ∈ s.users ∧ device ∈ s.devices then
      ({ s with grants := s.grants.grant target device .viewer }, none)
    else (s, none)
  | .revoke actor target device =>
    match s.grants.requireRole actor device .owner with
    | .error _ => (s, none)
    | .ok () => (s, if actor = target then none else some (.revokeRole actor target device))
  | .revokeRole actor target device =>
    match s.grants.getRole target device with
    | .error _ => (s, none)
    -- The role is read here, and the grant revoked by a statement of its own.
    | .ok role => (s, if role = .owner then none else some (.revokeWrite actor target device))
  | .revokeWrite _ target device =>
    ({ s with grants := s.grants.revoke target device clock }, none)
  | .delete actor device =>
    match s.grants.requireRole actor device .owner with
    | .error _ => (s, none)
    | .ok () => (s, some (.deleteWrite actor device))
  | .deleteWrite _ device =>
    ({ s with
      devices := (s.devices.updateAt device (·.deletedAt.isNone)
        fun d => { d with deletedAt := some clock }).2 }, none)

/-- A statement that fails ends its request. -/
def step (s : AccessState υ δ) : AccessAction υ δ → Option (AccessState υ δ)
  | .create actor device => some (s.create actor device)
  | .request task => if task.isRequest then some { s with tasks := s.tasks ++ [task] } else none
  | .run k clock answered =>
    match s.tasks[k]? with
    | none => none
    | some task =>
      let rest := s.tasks.eraseIdx k
      if answered then
        match s.runTask clock task with
        | (s, none) => some { s with tasks := rest }
        | (s, some task) => some { s with tasks := rest ++ [task] }
      else some { s with tasks := rest }
  | .users t => some { s with users := t }

end AccessState

/-- The user that created the device holds its only active owner grant, and every other active grant
on it is a viewer's. -/
structure SoleOwner (s : AccessState υ δ) (device : δ) (creator : υ) : Prop where
  created : s.creators.lookup device = some creator
  owner : s.grants.getRole creator device = .ok .owner
  others : ∀ user role, s.grants.getRole user device = .ok role → user ≠ creator → role = .viewer

/-! ## The invariant -/

namespace AccessState

/-- What the checks of a request have established: the actor created the device, and is not the
target. -/
def TaskOk (s : AccessState υ δ) : AccessTask υ δ → Prop
  | .grantUser actor target device | .grantWrite actor target device
  | .revokeRole actor target device | .revokeWrite actor target device =>
    s.creators.lookup device = some actor ∧ actor ≠ target
  | .grant .. | .revoke .. | .delete .. | .deleteWrite .. => True

structure Inv (s : AccessState υ δ) : Prop where
  owned : ∀ device ∈ s.devices, ∃ user, s.creators.lookup device = some user ∧
    s.grants.lookup (user, device) = some ⟨.owner, none⟩
  created : ∀ device user, s.creators.lookup device = some user → device ∈ s.devices
  rows : ∀ user device r, s.grants.lookup (user, device) = some r → device ∈ s.devices ∧
    (r.role = .owner ∧ s.creators.lookup device = some user ∨ r.role = .viewer)
  tasks : ∀ task ∈ s.tasks, s.TaskOk task

variable {s s' : AccessState υ δ}

omit [DecidableEq υ] in
/-- The checks stay true while the device keeps its creator. -/
theorem TaskOk.congr {task : AccessTask υ δ} (h : s.TaskOk task)
    (hcreators : ∀ device user, s.creators.lookup device = some user →
      s'.creators.lookup device = some user) : s'.TaskOk task := by
  cases task with
  | grantUser | grantWrite | revokeRole | revokeWrite => exact ⟨hcreators _ _ h.1, h.2⟩
  | grant | revoke | delete | deleteWrite => trivial

/-- A request changes no creator. -/
theorem creators_runTask (clock : Time) (task : AccessTask υ δ) :
    (s.runTask clock task).1.creators = s.creators := by
  cases task with
  | grant | revoke | revokeRole | delete =>
    simp only [AccessState.runTask]
    split
    · rfl
    · rfl
  | grantWrite =>
    simp only [AccessState.runTask]
    split
    · rfl
    · rfl
  | grantUser | revokeWrite | deleteWrite => rfl

theorem inv_new (users : Users υ) : (new users : AccessState υ δ).Inv where
  owned := fun device h => absurd h (AList.notMem_empty device)
  created := fun device user h => by cases h
  rows := fun user device r h => by cases h
  tasks := fun task h => by cases h

/-- Only the creator passes a check for the role of owner. -/
theorem Inv.of_requireRole (h : s.Inv) {actor : υ} {device : δ}
    (hrole : s.grants.requireRole actor device .owner = .ok ()) :
    s.creators.lookup device = some actor := by
  obtain ⟨role, hrow, hsatisfies⟩ := Grants.requireRole_eq_ok.mp hrole
  obtain ⟨-, ⟨-, hcreator⟩ | hviewer⟩ := h.rows _ _ _ hrow
  · exact hcreator
  · dsimp only at hviewer
    rw [hviewer] at hsatisfies
    cases hsatisfies

/-- A grant to someone who is not the creator leaves the owner's grant alone. -/
theorem Inv.grantViewer (h : s.Inv) {actor target : υ} {device : δ} (hdevice : device ∈ s.devices)
    (hactor : s.creators.lookup device = some actor) (hne : actor ≠ target) :
    Inv { s with grants := s.grants.grant target device .viewer } := by
  refine ⟨fun d hd => ?_, h.created, fun user d r hr => ?_, h.tasks⟩
  · obtain ⟨user, hcreator, hrow⟩ := h.owned d hd
    refine ⟨user, hcreator, ?_⟩
    have hkey : (user, d) ≠ (target, device) := by
      intro heq
      obtain ⟨rfl, rfl⟩ := Prod.mk.inj heq
      exact hne (Option.some.inj (hactor.symm.trans hcreator))
    exact (AList.lookup_insert_ne hkey).trans hrow
  · replace hr : (AList.insert (target, device) _ s.grants).lookup (user, d) = some r := hr
    by_cases hkey : (user, d) = (target, device)
    · rw [hkey, AList.lookup_insert] at hr
      obtain ⟨rfl, rfl⟩ := Prod.mk.inj hkey
      cases hr
      exact ⟨hdevice, .inr rfl⟩
    · rw [AList.lookup_insert_ne hkey] at hr
      exact h.rows user d r hr

/-- So does a revocation. -/
theorem Inv.revoke (h : s.Inv) {actor target : υ} {device : δ} {clock : Time}
    (hactor : s.creators.lookup device = some actor) (hne : actor ≠ target) :
    Inv { s with grants := s.grants.revoke target device clock } := by
  refine ⟨fun d hd => ?_, h.created, fun user d r hr => ?_, h.tasks⟩
  · obtain ⟨user, hcreator, hrow⟩ := h.owned d hd
    refine ⟨user, hcreator, ?_⟩
    have hkey : (user, d) ≠ (target, device) := by
      intro heq
      obtain ⟨rfl, rfl⟩ := Prod.mk.inj heq
      exact hne (Option.some.inj (hactor.symm.trans hcreator))
    exact (Table.lookup_updateAt_of_ne hkey).trans hrow
  · replace hr : (s.grants.updateAt (target, device) _ _).2.lookup (user, d) = some r := hr
    by_cases hkey : (user, d) = (target, device)
    · rw [hkey, Table.lookup_updateAt_self] at hr
      obtain ⟨rfl, rfl⟩ := Prod.mk.inj hkey
      obtain ⟨r', hr', rfl⟩ := Option.map_eq_some_iff.mp hr
      obtain ⟨hd, hrole⟩ := h.rows user d r' hr'
      refine ⟨hd, ?_⟩
      split
      · exact hrole
      · exact hrole
    · rw [Table.lookup_updateAt_of_ne hkey] at hr
      exact h.rows user d r hr

theorem Inv.create (h : s.Inv) (actor : υ) (device : δ) : (s.create actor device).Inv := by
  rw [AccessState.create]
  split
  · exact h
  · next hnew =>
    have hnew : device ∉ s.devices := fun hmem => hnew (.inl hmem)
    -- No grant, and so no task, is about a device that does not exist.
    have hother : ∀ {d : δ}, d ∈ s.devices → d ≠ device := fun hd heq => hnew (heq ▸ hd)
    have hcreators : ∀ {d : δ} {user : υ}, s.creators.lookup d = some user →
        (s.creators.insert device actor).lookup d = some user := fun hcreator =>
      (AList.lookup_insert_ne (hother (h.created _ _ hcreator))).trans hcreator
    refine ⟨fun d hd => ?_, fun d user hcreator => ?_, fun user d r hr => ?_, fun task htask => ?_⟩
    · by_cases heq : d = device
      · subst heq
        exact ⟨actor, AList.lookup_insert _, AList.lookup_insert _⟩
      · have hd : d ∈ s.devices := ((AList.mem_insert _).mp hd).resolve_left heq
        obtain ⟨user, hcreator, hrow⟩ := h.owned d hd
        refine ⟨user, hcreators hcreator, ?_⟩
        exact (AList.lookup_insert_ne fun hkey => heq (Prod.mk.inj hkey).2).trans hrow
    · rw [AList.mem_insert]
      by_cases heq : d = device
      · exact .inl heq
      · rw [AList.lookup_insert_ne heq] at hcreator
        exact .inr (h.created d user hcreator)
    · replace hr : (AList.insert (actor, device) _ s.grants).lookup (user, d) = some r := hr
      rw [AList.mem_insert]
      by_cases hkey : (user, d) = (actor, device)
      · rw [hkey, AList.lookup_insert] at hr
        obtain ⟨rfl, rfl⟩ := Prod.mk.inj hkey
        cases hr
        exact ⟨.inl rfl, .inl ⟨rfl, AList.lookup_insert _⟩⟩
      · rw [AList.lookup_insert_ne hkey] at hr
        obtain ⟨hd, hrole⟩ := h.rows user d r hr
        exact ⟨.inr hd, hrole.imp_left fun ⟨howner, hcreator⟩ => ⟨howner, hcreators hcreator⟩⟩
    · exact (h.tasks task htask).congr fun _ _ hcreator => hcreators hcreator

/-- One statement keeps the invariant, and leaves a request whose checks hold. -/
theorem Inv.runTask (h : s.Inv) {task : AccessTask υ δ} (hok : s.TaskOk task) (clock : Time) :
    (s.runTask clock task).1.Inv ∧
      ∀ rest, (s.runTask clock task).2 = some rest → (s.runTask clock task).1.TaskOk rest := by
  cases task with
  | grant actor target device | revoke actor target device =>
    simp only [AccessState.runTask]
    split
    · exact ⟨h, fun rest hrest => by cases hrest⟩
    · next hrole =>
      refine ⟨h, fun rest hrest => ?_⟩
      dsimp only at hrest ⊢
      split at hrest
      · cases hrest
      · next hne =>
        cases hrest
        exact ⟨h.of_requireRole hrole, hne⟩
  | grantUser actor target device =>
    refine ⟨h, fun rest hrest => ?_⟩
    simp only [AccessState.runTask] at hrest ⊢
    split at hrest
    · cases hrest
      exact hok
    · cases hrest
  | grantWrite actor target device =>
    simp only [AccessState.runTask]
    split
    · next hrows =>
      exact ⟨h.grantViewer hrows.2 hok.1 hok.2, fun rest hrest => by cases hrest⟩
    · exact ⟨h, fun rest hrest => by cases hrest⟩
  | revokeRole actor target device =>
    simp only [AccessState.runTask]
    split
    · exact ⟨h, fun rest hrest => by cases hrest⟩
    · refine ⟨h, fun rest hrest => ?_⟩
      dsimp only at hrest ⊢
      split at hrest
      · cases hrest
      · cases hrest
        exact hok
  | revokeWrite actor target device =>
    exact ⟨h.revoke hok.1 hok.2, fun rest hrest => by cases hrest⟩
  | delete actor device =>
    simp only [AccessState.runTask]
    split
    · exact ⟨h, fun rest hrest => by cases hrest⟩
    · refine ⟨h, fun rest hrest => ?_⟩
      cases hrest
      trivial
  | deleteWrite actor device =>
    -- The row stays in the table, and so do its grants.
    have hmem : ∀ d, d ∈ (s.devices.updateAt device (·.deletedAt.isNone)
        fun d => { d with deletedAt := some clock }).2 ↔ d ∈ s.devices := by
      intro d
      rw [← AList.lookup_isSome, ← AList.lookup_isSome]
      by_cases heq : d = device
      · rw [heq, Table.lookup_updateAt_self, Option.isSome_map]
      · rw [Table.lookup_updateAt_of_ne heq]
    refine ⟨⟨fun d hd => h.owned d ((hmem d).mp hd),
      fun d user hd => (hmem d).mpr (h.created d user hd),
      fun user d r hr => ?_, h.tasks⟩, fun rest hrest => by cases hrest⟩
    obtain ⟨hd, hrole⟩ := h.rows user d r hr
    exact ⟨(hmem d).mpr hd, hrole⟩

/-! ## Runs -/

theorem Inv.step {a : AccessAction υ δ} (h : s.Inv)
    (hstep : s.step a = some s') : s'.Inv := by
  cases a with
  | create actor device =>
    cases hstep
    exact h.create actor device
  | users t =>
    cases hstep
    exact ⟨h.owned, h.created, h.rows, h.tasks⟩
  | request task =>
    rw [AccessState.step] at hstep
    split at hstep
    · next hrequest =>
      cases hstep
      refine ⟨h.owned, h.created, h.rows, fun t ht => ?_⟩
      rcases List.mem_append.mp ht with hold | hnew
      · exact h.tasks t hold
      · obtain rfl := List.mem_singleton.mp hnew
        cases t with
        | grant | revoke | delete => trivial
        | grantUser | grantWrite | revokeRole | revokeWrite | deleteWrite => cases hrequest
    · cases hstep
  | run k clock answered =>
    rw [AccessState.step] at hstep
    split at hstep
    · cases hstep
    · next task hk =>
      have hrest : ∀ t ∈ s.tasks.eraseIdx k, s.TaskOk t :=
        fun t ht => h.tasks t (List.mem_of_mem_eraseIdx ht)
      dsimp only at hstep
      split at hstep
      · obtain ⟨hinv, hnext⟩ := h.runTask (h.tasks task (List.mem_of_getElem? hk)) clock
        have hkept : ∀ t ∈ s.tasks.eraseIdx k, (s.runTask clock task).1.TaskOk t :=
          fun t ht => (hrest t ht).congr fun _ _ hcreator => by
            rw [creators_runTask]
            exact hcreator
        split at hstep
        · next u hrun =>
          rw [hrun] at hinv hkept
          cases hstep
          exact ⟨hinv.owned, hinv.created, hinv.rows, hkept⟩
        · next u rest hrun =>
          rw [hrun] at hinv hkept hnext
          cases hstep
          refine ⟨hinv.owned, hinv.created, hinv.rows, fun t ht => ?_⟩
          rcases List.mem_append.mp ht with hold | hnew
          · exact hkept t hold
          · obtain rfl := List.mem_singleton.mp hnew
            exact hnext t rfl
      · cases hstep
        exact ⟨h.owned, h.created, h.rows, hrest⟩

theorem Inv.soleOwner (h : s.Inv) {device : δ} (hdevice : device ∈ s.devices) :
    ∃ creator, SoleOwner s device creator := by
  obtain ⟨creator, hcreator, hrow⟩ := h.owned device hdevice
  refine ⟨creator, hcreator, Grants.getRole_eq_ok.mpr hrow, fun user role hrole hne => ?_⟩
  obtain ⟨-, ⟨-, huser⟩ | hviewer⟩ := h.rows user device _ (Grants.getRole_eq_ok.mp hrole)
  · exact absurd (Option.some.inj (huser.symm.trans hcreator)) hne
  · exact hviewer

end AccessState

/-- In every run, with any requests by any users interleaved at their statements, every device has
its creator as sole owner. -/
theorem sole_owner {users : Users υ} {as : List (AccessAction υ δ)} {s : AccessState υ δ}
    (hrun : Run AccessState.step (.new users) as s) {device : δ} (hdevice : device ∈ s.devices) :
    ∃ creator, SoleOwner s device creator :=
  (hrun.invariant (fun _ _ _ hs hstep => hs.step hstep) (AccessState.inv_new users)).soleOwner
    hdevice

/-- User 1 creates device 7 and grants it to user 2, who is then revoked and granted again; the
requests that target the owner or the actor are refused, and the device is deleted. -/
def grantRounds : List (AccessAction Nat Nat) :=
  let runs (n : Nat) : List (AccessAction Nat Nat) := List.replicate n (.run 0 5 true)
  .create 1 7 :: .request (.grant 1 2 7) :: runs 3 ++ .request (.revoke 1 2 7) :: runs 3 ++
    .request (.grant 1 1 7) :: runs 1 ++ .request (.revoke 2 1 7) :: runs 1 ++
    .request (.grant 1 2 7) :: runs 3 ++ .request (.delete 1 7) :: runs 2

def twoUsers : Users Nat := (AList.singleton 1 none : Users Nat).insert 2 none

theorem sole_owner_grantRounds : ∃ (s : AccessState Nat Nat) (creator : Nat),
    Run AccessState.step (.new twoUsers) grantRounds s ∧
      s.grants.lookup (2, 7) = some ⟨.viewer, none⟩ ∧ SoleOwner s 7 creator := by
  obtain ⟨s, hrun, hfacts⟩ := Option.map_eq_some_iff.mp (show
    (grantRounds.foldlM AccessState.step (.new twoUsers)).map (fun s =>
      (decide (7 ∈ s.devices), s.grants.lookup (2, 7))) = some (true, some ⟨.viewer, none⟩) by
    decide +kernel)
  obtain ⟨hdevice, hgrant⟩ := Prod.mk.inj hfacts
  obtain ⟨creator, hsole⟩ := sole_owner hrun (of_decide_eq_true hdevice)
  exact ⟨s, creator, hrun, hgrant, hsole⟩

end OpenGps.Backend
