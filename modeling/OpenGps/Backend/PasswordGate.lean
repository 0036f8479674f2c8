import OpenGps.Backend.Access
import OpenGps.Backend.GetOrCreate
import OpenGps.Backend.ResetTokens

/-!
# Temporary passwords

`RequirePasswordChanged` stands between `AuthSession` and every handler but `ChangePassword`, so a
user with `must_change_password` can only change the password. The flag is written by the creation
of a user, by `ChangePassword` and by the reset of a password, each in a statement of its own, and
the gate reads the row that `GetOrCreate` has returned, which may be old by then.
-/

namespace OpenGps.Backend

open OpenGps.Lib UsersDb

/-- What a request is for: a route behind the gate, or `ChangePassword`. -/
inductive GateRequest where
  | guarded
  | changePassword (oldPassword newPassword : String)
  deriving DecidableEq

inductive GateResult where
  | handled (id : ℕ) (user : User)
  | changed
  | refused (refusal : Refusal)
  deriving DecidableEq

/-- The next statement of a request: of `AuthSession`, of `GetOrCreate`, or of `ChangePassword` with
`UpdatePassword`. -/
inductive GatePc where
  | lookup
  | getOrCreate (email name : String) (pc : GetOrCreatePc)
  | getAccount (user : ℕ) (oldPassword newPassword : String)
  | updateFields (user : ℕ) (newPassword : String)
  | setMustChange (user : ℕ)
  | returned (result : GateResult)
  deriving DecidableEq

/-- `actor` is the user of Authula whose session the cookie is of. -/
structure GateCall where
  actor : ℕ
  request : GateRequest
  pc : GatePc
  deriving DecidableEq

namespace UsersDb

/-- `UpdateFields` of the account service: all accounts of the user. -/
def setPassword (db : UsersDb) (id : ℕ) (password : String) : UsersDb where
  users := db.users
  nextID := db.nextID
  accounts := db.accounts.map fun a => if a.userID = id then { a with password } else a
  fresh := db.fresh
  owned := by
    intro a ha
    obtain ⟨b, hb, rfl⟩ := List.mem_map.mp ha
    have hlt := db.owned b hb
    split
    · exact hlt
    · exact hlt
  emails := db.emails
  superAdmins := db.superAdmins

def getAccount (db : UsersDb) (id : ℕ) : Option Account := db.accounts.find? (·.userID = id)

end UsersDb

namespace GatePc

def refuse (status : ℕ) (message : String) : GatePc := .returned (.refused ⟨status, message⟩)

/-- An error that `mapDomainError` does not know. -/
def internal : GatePc := refuse 500 "internal server error"

/-- After `AuthSession`: the gate and the handler behind it, or `ChangePassword`. -/
def serve (id : ℕ) (user : User) : GateRequest → GatePc
  | .guarded =>
    match requirePasswordChanged ⟨id, user.mustChangePassword⟩ with
    | .ok () => .returned (.handled id user)
    | .error refusal => .returned (.refused refusal)
  | .changePassword oldPassword newPassword => .getAccount id oldPassword newPassword

/-- What `GetOrCreate` leads to, once it has ended. -/
def resume (request : GateRequest) (email name : String) : GetOrCreatePc → GatePc
  | .returned id user => serve id user request
  | .failed _ => refuse 401 "failed to materialize local user"
  | pc => .getOrCreate email name pc

/-- The statement of a request, and its next one. -/
def perform (db : UsersDb) (commit : Commit) (actor : ℕ) (request : GateRequest) :
    GatePc → GatePc × UsersDb
  | .lookup =>
    if commit ≠ .done then (refuse 401 "authentication subject unknown", db)
    else
      match db.users.lookup actor with
      | none => (refuse 401 "authentication subject unknown", db)
      | some u =>
        if u.email = "" then (refuse 401 "failed to materialize local user", db)
        else (.getOrCreate u.email u.name .getByEmail, db)
  | .getOrCreate email name pc =>
    let (pc, db') := pc.perform db email name
    settle commit db db' (resume request email name pc)
      (refuse 401 "failed to materialize local user")
  | .getAccount user oldPassword newPassword =>
    if commit ≠ .done then (internal, db)
    else
      match db.getAccount actor with
      | none => (internal, db)
      | some account =>
        -- A wrong password is an error that `mapDomainError` does not know either.
        if account.password = oldPassword then (.updateFields user newPassword, db)
        else (internal, db)
  | .updateFields user newPassword =>
    settle commit db (db.setPassword actor newPassword) (.setMustChange user) internal
  | .setMustChange user =>
    settle commit db (db.setMustChangePassword user false) (.returned .changed) internal
  | .returned result => (.returned result, db)

/-- The statement writes the password of the actor. -/
def changes : GatePc → Bool
  | .updateFields _ _ => true
  | _ => false

end GatePc

/-- `changed` are the users whose password `ChangePassword` has written, `rotated` the resets whose
password `ResetPassword` has written; both are history. -/
structure GateState (κ : Type) where
  users : UsersState
  resets : ResetState ℕ κ
  calls : List GateCall
  changed : List ℕ
  rotated : List (ResetCall ℕ)

/-- The requests that create and delete users, those for a password reset with the password that
comes with it, and those of this file. -/
inductive GateAction (κ : Type) where
  | users (a : UserAction)
  | reset (a : ResetAction ℕ κ) (newPassword : String)
  | request (actor : ℕ) (request : GateRequest)
  | run (k : ℕ) (commit : Commit)

namespace GateState

variable {κ : Type} [DecidableEq κ]

def new (now : Time) : GateState κ := ⟨.new, .new ∅ now, [], [], []⟩

/-- What a statement of the reset does to the users: `ResetPassword` and `SetMustChangePassword`. -/
def resetUsers (db : UsersDb) (commit : Commit) (newPassword : String) : ResetPc ℕ κ → UsersDb
  | .resetPassword _ user _ => (settle commit db (db.setPassword user newPassword) () ()).2
  | .setMustChange user => (settle commit db (db.setMustChangePassword user false) () ()).2
  | _ => db

/-- The reset whose password a statement writes. A `ResetPassword` that fails writes none. -/
def rotation (commit : Commit) : ResetPc ℕ κ → List (ResetCall ℕ)
  | .resetPassword token user readAt => if commit = .failed then [] else [⟨user, token, readAt⟩]
  | _ => []

def step (s : GateState κ) : GateAction κ → Option (GateState κ)
  | .users a => do
    let users ← s.users.step a
    return { s with users }
  | .reset a newPassword => do
    let resets ← s.resets.step a
    match a with
    | .run k commit _ _ =>
      let pc ← s.resets.calls[k]?
      return { s with
        resets
        users := { s.users with db := resetUsers s.users.db commit newPassword pc }
        rotated := s.rotated ++ rotation commit pc }
    | _ => return { s with resets }
  | .request actor request =>
    some { s with calls := s.calls ++ [⟨actor, request, .lookup⟩] }
  | .run k commit => do
    let call ← s.calls[k]?
    let (pc, db) := call.pc.perform s.users.db commit call.actor call.request
    return { s with
      users := { s.users with db }
      calls := s.calls.set k { call with pc }
      changed := if call.pc.changes ∧ commit ≠ .failed then s.changed ++ [call.actor]
        else s.changed }

end GateState

/-! ## The flag of a row -/

/-- A user without the flag is a super-admin or one of these users. -/
def User.Cleared (unlocked : ℕ → Prop) (id : ℕ) (u : User) : Prop :=
  u.mustChangePassword = false → u.role = .superAdmin ∨ unlocked id

namespace UsersDb

def Locked (db : UsersDb) (unlocked : ℕ → Prop) : Prop :=
  ∀ id u, db.users.lookup id = some u → u.Cleared unlocked id

variable {db db' : UsersDb} {unlocked : ℕ → Prop} {id : ℕ}

theorem Locked.of_users (h : db.Locked unlocked) (husers : db'.users = db.users) :
    db'.Locked unlocked := by
  intro id u hu
  rw [husers] at hu
  exact h id u hu

theorem Locked.mono {unlocked' : ℕ → Prop} (h : db.Locked unlocked)
    (hmono : ∀ id, unlocked id → unlocked' id) : db.Locked unlocked' :=
  fun id u hu hflag => (h id u hu hflag).imp_right (hmono id)

theorem Locked.insert {u : User} (h : db.Locked unlocked) (hinsert : db.insert u = some (id, db'))
    (hflag : u.mustChangePassword = true) : db'.Locked unlocked := by
  intro j v hv
  rcases (insert_rows hinsert).2.2 j v hv with rfl | hold
  · intro hcleared
    cases hflag.symm.trans hcleared
  · exact h j v hold

theorem Locked.modify {f : User → User} {hemail : ∀ u, (f u).email = u.email}
    {hrole : ∀ u, (f u).role = .superAdmin → u.role = .superAdmin ∨ db.Vacant id}
    (h : db.Locked unlocked) (hf : ∀ u, u.Cleared unlocked id → (f u).Cleared unlocked id) :
    (db.modify id f hemail hrole).Locked unlocked := by
  intro j v hv
  obtain ⟨u, hu, rfl | ⟨rfl, rfl⟩⟩ := updateAt_back hv
  · exact h j v hu
  · exact hf u (h j u hu)

theorem Locked.update {f : User → User} {v : User} {hemail : ∀ u, (f u).email = u.email}
    {hrole : ∀ u, (f u).role = .superAdmin → u.role = .superAdmin} (h : db.Locked unlocked)
    (hupdate : db.update id f hemail hrole = some (v, db'))
    (hf : ∀ u, u.Cleared unlocked id → (f u).Cleared unlocked id) : db'.Locked unlocked := by
  rw [UsersDb.update, Option.map_eq_some_iff] at hupdate
  obtain ⟨u, -, hupdate⟩ := hupdate
  cases hupdate
  exact h.modify hf

theorem Locked.updateUser {v : User} {name lastname : String} (h : db.Locked unlocked)
    (hupdate : db.updateUser id name lastname = some (v, db')) : db'.Locked unlocked :=
  h.update hupdate fun _ hu => hu

theorem Locked.setMustChangePassword {b : Bool} (h : db.Locked unlocked)
    (hb : b = true ∨ unlocked id) : (db.setMustChangePassword id b).Locked unlocked := by
  rw [UsersDb.setMustChangePassword]
  cases hupdate : db.update id _ _ _ with
  | none => exact h
  | some r =>
    refine h.update hupdate fun u _ hflag => ?_
    rcases hb with rfl | hunlocked
    · cases hflag
    · exact .inr hunlocked

theorem Locked.softDeleteUser (h : db.Locked unlocked) :
    (db.softDeleteUser id).Locked unlocked := by
  rw [UsersDb.softDeleteUser]
  cases hupdate : db.update id _ _ _ with
  | none => exact h
  | some r => exact h.update hupdate fun _ hu => hu

theorem Locked.promote {u : User} (h : db.Locked unlocked)
    (hpromote : db.promoteToSuperAdmin id = .ok (u, db')) :
    db'.Locked unlocked ∧ u.role = .superAdmin := by
  rw [promoteToSuperAdmin] at hpromote
  split at hpromote
  · cases hpromote
  · split at hpromote
    · cases hpromote
      exact ⟨h.modify fun _ _ _ => .inl rfl, rfl⟩
    · cases hpromote

theorem Locked.settle {α : Type} {unlocked : ℕ → Prop} (h : db.Locked unlocked)
    (h' : db'.Locked unlocked) (commit : Commit) (ok err : α) :
    (Backend.settle commit db db' ok err).2.Locked unlocked := by
  rcases settle_snd commit db db' ok err with hsame | hnew
  · rw [hsame]
    exact h
  · rw [hnew]
    exact h'

theorem createAccount_users {a : Account} (h : db.createAccount a = some db') :
    db'.users = db.users := by
  rw [createAccount] at h
  split at h
  · cases h
    rfl
  · cases h

end UsersDb

/-! ## The requests that create users -/

/-- A user is created with the flag when somebody else creates it. -/
def UserPc.Flags : UserPc → Prop
  | .insert u (.createUser _) | .conflictGet u (.createUser _)
  | .conflictUpdate _ u (.createUser _) | .generatePassword u | .hashPassword u _
  | .authulaUser u _ | .authulaAccount _ u _ => u.mustChangePassword = true
  | .conflictSet _ _ b (.createUser _) => b = true
  | _ => True

namespace UserPc

variable {db : UsersDb} {unlocked : ℕ → Prop} {commit : Commit} {fresh : String} {pc : UserPc}

theorem flags_serve (id : ℕ) (next : UserRequest) : (serve id next).Flags := by
  cases next <;> trivial

theorem flags_finish (id : ℕ) (user : User) (caller : CreateCaller) :
    (finish id user caller).Flags := by
  cases caller with
  | getOrCreate next => exact flags_serve id next
  | createUser password => trivial

theorem flags_settle {db' : UsersDb} {ok : UserPc} {e : UserError} (h : ok.Flags) :
    (settle commit db db' ok (fail e)).1.Flags := by
  cases commit with
  | done => exact h
  | failed | unconfirmed => trivial

theorem Flags.perform (h : pc.Flags) (hok : pc.Ok db) : (pc.perform db commit fresh).1.Flags := by
  cases pc with
  | createUser email name lastname =>
    simp only [UserPc.perform]
    split
    · trivial
    · rw [hasSuperAdmin_iff.mpr hok]
      rfl
  | generatePassword u | hashPassword u password =>
    simp only [UserPc.perform]
    split
    · trivial
    · exact h
  | authulaUser u password | authulaAccount id u password =>
    simp only [UserPc.perform]
    split
    · trivial
    · exact flags_settle h
  | insert u caller =>
    simp only [UserPc.perform]
    split
    · split
      · cases caller with
        | getOrCreate next => trivial
        | createUser password => exact h
      · trivial
    · exact flags_settle (flags_finish _ _ caller)
  | conflictGet u caller =>
    simp only [UserPc.perform]
    split
    · trivial
    · split
      · trivial
      · cases caller with
        | getOrCreate next => trivial
        | createUser password => exact h
  | conflictUpdate id u caller =>
    simp only [UserPc.perform]
    split
    · trivial
    · cases caller with
      | getOrCreate next => exact flags_settle trivial
      | createUser password => exact flags_settle h
  | conflictSet id user b caller => exact flags_settle (flags_finish id _ caller)
  | promoteIfFirstUser id user next =>
    simp only [UserPc.perform]
    repeat' split
    all_goals first | trivial | exact flags_serve id next
  | promote id next =>
    simp only [UserPc.perform]
    split
    · trivial
    · exact flags_settle (flags_serve id next)
  | softDelete target => exact flags_settle trivial
  | authSession | getByEmail | hasSuperAdmin | getRequester | returned =>
    simp only [UserPc.perform]
    repeat' split
    all_goals trivial

theorem locked_perform (h : db.Locked unlocked) (hflags : pc.Flags) (hok : pc.Ok db) :
    (pc.perform db commit fresh).2.Locked unlocked := by
  cases pc with
  | promote id next =>
    simp only [perform]
    split
    · exact h
    · next u db' hpromote => exact h.settle (h.promote hpromote).1 commit _ _
  | insert u caller =>
    simp only [perform]
    split
    · exact h
    · next id db' hinsert =>
      cases caller with
      | getOrCreate next =>
        -- The address is taken.
        obtain ⟨i, v, hv, hemail, -⟩ := hok
        cases (HasEmail.insert (u := ⟨u.email, u.name, u.lastname, u.role, u.mustChangePassword,
          false⟩) ⟨i, v, hv, hemail⟩).symm.trans hinsert
      | createUser password => exact h.settle (h.insert hinsert hflags) commit _ _
  | authulaUser u password =>
    simp only [perform]
    split
    · exact h
    · next id db' hinsert => exact h.settle (h.insert hinsert rfl) commit _ _
  | conflictUpdate id u caller =>
    simp only [perform]
    split
    · exact h
    · next user db' hupdate => exact h.settle (h.updateUser hupdate) commit _ _
  | conflictSet id user b caller =>
    cases caller with
    | getOrCreate next => exact hok.elim
    | createUser password => exact h.settle (h.setMustChangePassword (.inl hflags)) commit _ _
  | softDelete target => exact h.settle h.softDeleteUser commit _ _
  | authulaAccount id u password =>
    simp only [perform]
    split
    · exact h
    · next db' haccount => exact h.settle (h.of_users (createAccount_users haccount)) commit _ _
  | authSession | getByEmail | promoteIfFirstUser | hasSuperAdmin | conflictGet | createUser
  | generatePassword | hashPassword | getRequester | returned =>
    simp only [perform]
    repeat' split
    all_goals exact h

end UserPc

namespace UsersState

variable {s s' : UsersState} {a : UserAction} {unlocked : ℕ → Prop}

/-- What a step does to the rows, and that it does not delete a super-admin. -/
theorem CrownInv.step_kept (h : s.CrownInv) (hstep : s.step a = some s') :
    ∃ target, Kept s.db s'.db target ∧ ∀ c, s.db.Crown c → target ≠ some c := by
  cases a with
  | signUp email name password =>
    simp only [UsersState.step, Option.bind_eq_bind, Option.bind_eq_some_iff] at hstep
    obtain ⟨⟨id, db₁⟩, hinsert, db₂, haccount, hstep⟩ := hstep
    cases hstep
    have hkept : Kept s.db db₁ none := kept_insert hinsert rfl
    have husers := createAccount_users haccount
    refine ⟨none, ⟨fun j u hu => ?_, fun j v hv => ?_⟩, fun c _ => (Option.some_ne_none c).symm⟩
    · rw [husers]
      exact hkept.later j u hu
    · rw [husers] at hv
      exact hkept.back j v hv
  | request actor next =>
    cases hstep
    exact ⟨none, .refl _ _, fun c _ => (Option.some_ne_none c).symm⟩
  | run k commit fresh =>
    simp only [UsersState.step, Option.bind_eq_bind, Option.bind_eq_some_iff] at hstep
    obtain ⟨pc, hpc, hstep⟩ := hstep
    cases hstep
    have hok := h.calls pc (List.mem_of_getElem? hpc)
    exact ⟨pc.target, pc.perform_kept s.db commit fresh, fun c hc => hok.spared hc⟩

structure FlagInv (s : UsersState) (unlocked : ℕ → Prop) : Prop where
  crown : s.CrownInv
  flags : ∀ pc ∈ s.calls, pc.Flags
  locked : s.db.Locked unlocked

theorem FlagInv.step (h : s.FlagInv unlocked) (hstep : s.step a = some s') :
    s'.FlagInv unlocked := by
  refine ⟨(h.crown.step hstep).1, ?_, ?_⟩
  · cases a with
    | signUp email name password =>
      simp only [UsersState.step, Option.bind_eq_bind, Option.bind_eq_some_iff] at hstep
      obtain ⟨⟨id, db₁⟩, -, db₂, -, hstep⟩ := hstep
      cases hstep
      exact List.forall_mem_append.mpr ⟨h.flags, List.forall_mem_singleton.mpr trivial⟩
    | request actor next =>
      cases hstep
      exact List.forall_mem_append.mpr ⟨h.flags, List.forall_mem_singleton.mpr trivial⟩
    | run k commit fresh =>
      simp only [UsersState.step, Option.bind_eq_bind, Option.bind_eq_some_iff] at hstep
      obtain ⟨pc, hpc, hstep⟩ := hstep
      cases hstep
      have hmem := List.mem_of_getElem? hpc
      intro b hb
      rcases List.mem_or_eq_of_mem_set hb with hold | rfl
      · exact h.flags b hold
      · exact (h.flags pc hmem).perform (h.crown.calls pc hmem)
  · cases a with
    | signUp email name password =>
      simp only [UsersState.step, Option.bind_eq_bind, Option.bind_eq_some_iff] at hstep
      obtain ⟨⟨id, db₁⟩, hinsert, db₂, haccount, hstep⟩ := hstep
      cases hstep
      exact (h.locked.insert hinsert rfl).of_users (createAccount_users haccount)
    | request actor next =>
      cases hstep
      exact h.locked
    | run k commit fresh =>
      simp only [UsersState.step, Option.bind_eq_bind, Option.bind_eq_some_iff] at hstep
      obtain ⟨pc, hpc, hstep⟩ := hstep
      cases hstep
      have hmem := List.mem_of_getElem? hpc
      exact UserPc.locked_perform h.locked (h.flags pc hmem) (h.crown.calls pc hmem)

/-- A statement of another part of the system that deletes nobody. -/
theorem FlagInv.change {db : UsersDb} {unlocked' : ℕ → Prop} (h : s.FlagInv unlocked)
    (hkept : Kept s.db db none) (hlocked : db.Locked unlocked') :
    FlagInv { s with db } unlocked' :=
  ⟨h.crown.change hkept fun c _ => (Option.some_ne_none c).symm, h.flags, hlocked⟩

end UsersState

/-! ## The requests behind the gate -/

/-- The user that the call has found is the actor, with the flag as it was then. -/
def GetOrCreatePc.Mine (unlocked : ℕ → Prop) (actor : ℕ) : GetOrCreatePc → Prop
  | .promoteIfFirstUser id user | .returned id user => id = actor ∧ user.Cleared unlocked id
  | .promote id => id = actor
  | _ => True

theorem GetOrCreatePc.Mine.perform {db : UsersDb} {unlocked : ℕ → Prop} {actor : ℕ}
    {email name : String} {pc : GetOrCreatePc} {row : User} (h : pc.Mine unlocked actor)
    (hdb : db.Locked unlocked) (hrow : db.users.lookup actor = some row)
    (hemail : row.email = email) (hok : (pc.toUserPc email name .other).Ok db) :
    (pc.perform db email name).1.Mine unlocked actor ∧
      (pc.perform db email name).2.Locked unlocked := by
  cases pc with
  | getByEmail =>
    simp only [GetOrCreatePc.perform]
    split
    · next id user hfound =>
      obtain ⟨huser, hsame, -⟩ := getByEmail_eq_some hfound
      have hid := db.emails id actor user row huser hrow (hsame.trans hemail.symm)
      exact ⟨⟨hid, hdb id user huser⟩, hdb⟩
    · exact ⟨trivial, hdb⟩
  | promoteIfFirstUser id user =>
    simp only [GetOrCreatePc.perform]
    split
    · exact ⟨h, hdb⟩
    · exact ⟨h.1, hdb⟩
  | promote id =>
    simp only [GetOrCreatePc.perform]
    split
    · exact ⟨trivial, hdb⟩
    · next user db' hpromote =>
      obtain ⟨hlocked, hrole⟩ := hdb.promote hpromote
      exact ⟨⟨h, fun _ => .inl hrole⟩, hlocked⟩
  | insert u =>
    -- The address is the actor's, which is deleted.
    obtain ⟨i, v, hv, hsame, -⟩ := hok
    have hnone : db.insert u.row = none := HasEmail.insert ⟨i, v, hv, hsame⟩
    simp only [GetOrCreatePc.perform, hnone]
    exact ⟨trivial, hdb⟩
  | conflictGet u =>
    simp only [GetOrCreatePc.perform, DeadEmail.getByEmail hok]
    exact ⟨trivial, hdb⟩
  | conflictUpdate | conflictSet => exact hok.elim
  | hasSuperAdmin | failed => exact ⟨trivial, hdb⟩
  | returned id user => exact ⟨h, hdb⟩

theorem GetOrCreatePc.ok_perform {db : UsersDb} {email name : String} {pc : GetOrCreatePc}
    (hok : (pc.toUserPc email name .other).Ok db) :
    ((pc.perform db email name).1.toUserPc email name .other).Ok (pc.perform db email name).2 ∧
      Kept db (pc.perform db email name).2 none := by
  cases hended : pc.ended with
  | true =>
    cases pc with
    | returned | failed => exact ⟨hok, .refl db none⟩
    | getByEmail | promoteIfFirstUser | promote | hasSuperAdmin | insert | conflictGet
    | conflictUpdate | conflictSet => cases hended
  | false =>
    have heq : (pc.toUserPc email name .other).perform db .done "" = _ :=
      perform_toUserPc .other "" hended
    have htarget : (pc.toUserPc email name .other).target = none := by cases pc <;> rfl
    have hnext : ((pc.toUserPc email name .other).perform db .done "").1.Ok
        ((pc.toUserPc email name .other).perform db .done "").2 := UserPc.Ok.perform hok
    have hkept := (pc.toUserPc email name .other).perform_kept db .done ""
    rw [heq] at hnext hkept
    rw [htarget] at hkept
    exact ⟨hnext, hkept⟩

namespace GateCall

/-- What holds of a request at each statement: the user that it writes and serves is the actor. -/
def Stands (c : GateCall) (db : UsersDb) (unlocked : ℕ → Prop) : Prop :=
  match c.pc with
  | .lookup => True
  | .getOrCreate email name pc => (pc.toUserPc email name .other).Ok db ∧
    (∃ row, db.users.lookup c.actor = some row ∧ row.email = email) ∧ pc.Mine unlocked c.actor
  | .getAccount user _ _ | .updateFields user _ => user = c.actor ∧ c.request ≠ .guarded
  | .setMustChange user => user = c.actor ∧ unlocked user
  | .returned (.handled id user) => id = c.actor ∧ (user.role = .superAdmin ∨ unlocked id)
  | .returned _ => True

variable {db db' : UsersDb} {unlocked unlocked' : ℕ → Prop} {c : GateCall}

theorem mine_mono {actor : ℕ} {pc : GetOrCreatePc} (hmono : ∀ id, unlocked id → unlocked' id)
    (h : pc.Mine unlocked actor) : pc.Mine unlocked' actor := by
  cases pc with
  | promoteIfFirstUser id user => exact ⟨h.1, fun hflag => (h.2 hflag).imp_right (hmono id)⟩
  | returned id user => exact ⟨h.1, fun hflag => (h.2 hflag).imp_right (hmono id)⟩
  | promote id => exact h
  | getByEmail | hasSuperAdmin | insert | conflictGet | conflictUpdate | conflictSet | failed =>
    trivial

theorem Stands.kept {target : Option ℕ} (h : c.Stands db unlocked) (hkept : Kept db db' target)
    (hspared : ∀ id, db.Crown id → target ≠ some id) (hmono : ∀ id, unlocked id → unlocked' id) :
    c.Stands db' unlocked' := by
  obtain ⟨actor, request, pc⟩ := c
  cases pc with
  | lookup => trivial
  | getOrCreate email name pc =>
    obtain ⟨hok, ⟨row, hrow, hemail⟩, hmine⟩ := h
    obtain ⟨row', hrow', hsame, -⟩ := hkept.later actor row hrow
    exact ⟨hok.kept hkept hspared, ⟨row', hrow', hsame.trans hemail⟩, mine_mono hmono hmine⟩
  | getAccount | updateFields => exact h
  | setMustChange user => exact ⟨h.1, hmono user h.2⟩
  | returned result =>
    cases result with
    | handled id user => exact ⟨h.1, h.2.imp_right (hmono id)⟩
    | changed | refused => trivial

/-- The gate lets nobody through but a user without the flag. -/
theorem stands_serve {actor : ℕ} {request : GateRequest} {user : User}
    (h : user.Cleared unlocked actor) :
    Stands ⟨actor, request, GatePc.serve actor user request⟩ db unlocked := by
  cases request with
  | changePassword oldPassword newPassword => exact ⟨rfl, nofun⟩
  | guarded =>
    unfold GatePc.serve requirePasswordChanged
    cases hflag : user.mustChangePassword with
    | true => exact trivial
    | false => exact ⟨rfl, h hflag⟩

theorem stands_resume {actor : ℕ} {request : GateRequest} {email name : String}
    {pc : GetOrCreatePc} {row : User} (hok : (pc.toUserPc email name .other).Ok db)
    (hrow : db.users.lookup actor = some row) (hemail : row.email = email)
    (hmine : pc.Mine unlocked actor) :
    Stands ⟨actor, request, GatePc.resume request email name pc⟩ db unlocked := by
  cases pc with
  | returned id user =>
    obtain ⟨rfl, hcleared⟩ := hmine
    exact stands_serve hcleared
  | failed e => exact trivial
  | getByEmail | promoteIfFirstUser | promote | hasSuperAdmin | insert | conflictGet
  | conflictUpdate | conflictSet => exact ⟨hok, ⟨row, hrow, hemail⟩, hmine⟩

theorem Stands.perform (h : c.Stands db unlocked) (hdb : db.Locked unlocked)
    (hmono : ∀ id, unlocked id → unlocked' id) (commit : Commit)
    (hchanges : c.pc.changes = true → commit ≠ .failed → unlocked' c.actor) :
    let r := c.pc.perform db commit c.actor c.request
    Stands { c with pc := r.1 } r.2 unlocked' ∧ r.2.Locked unlocked' ∧ Kept db r.2 none := by
  obtain ⟨actor, request, pc⟩ := c
  dsimp only at hchanges ⊢
  have hlocked : db.Locked unlocked' := hdb.mono hmono
  cases pc with
  | lookup =>
    simp only [GatePc.perform]
    split
    · exact ⟨trivial, hlocked, .refl db none⟩
    · split
      · exact ⟨trivial, hlocked, .refl db none⟩
      · next row hrow =>
        split
        · exact ⟨trivial, hlocked, .refl db none⟩
        · exact ⟨⟨⟨actor, row, hrow, rfl⟩, ⟨row, hrow, rfl⟩, trivial⟩, hlocked, .refl db none⟩
  | getOrCreate email name pc =>
    obtain ⟨hok, ⟨row, hrow, hemail⟩, hmine⟩ := h
    obtain ⟨hnext, hset⟩ := (mine_mono hmono hmine).perform hlocked hrow hemail hok
    obtain ⟨hok', hkept⟩ := GetOrCreatePc.ok_perform hok
    obtain ⟨row', hrow', hsame, -⟩ := hkept.later actor row hrow
    cases commit with
    | done => exact ⟨stands_resume hok' hrow' (hsame.trans hemail) hnext, hset, hkept⟩
    | failed => exact ⟨trivial, hlocked, .refl db none⟩
    | unconfirmed => exact ⟨trivial, hset, hkept⟩
  | getAccount user oldPassword newPassword =>
    simp only [GatePc.perform]
    split
    · exact ⟨trivial, hlocked, .refl db none⟩
    · split
      · exact ⟨trivial, hlocked, .refl db none⟩
      · split
        · exact ⟨h, hlocked, .refl db none⟩
        · exact ⟨trivial, hlocked, .refl db none⟩
  | updateFields user newPassword =>
    have hset : (db.setPassword actor newPassword).Locked unlocked' := hlocked.of_users rfl
    have hkept : Kept db (db.setPassword actor newPassword) none := .of_users rfl
    cases commit with
    | done => exact ⟨⟨h.1, h.1 ▸ hchanges rfl (by decide)⟩, hset, hkept⟩
    | failed => exact ⟨trivial, hlocked, .refl db none⟩
    | unconfirmed => exact ⟨trivial, hset, hkept⟩
  | setMustChange user =>
    have hset : (db.setMustChangePassword user false).Locked unlocked' :=
      hlocked.setMustChangePassword (.inr (hmono user h.2))
    have hkept := kept_setMustChangePassword db user false none
    cases commit with
    | done => exact ⟨trivial, hset, hkept⟩
    | failed => exact ⟨trivial, hlocked, .refl db none⟩
    | unconfirmed => exact ⟨trivial, hset, hkept⟩
  | returned result =>
    refine ⟨?_, hlocked, .refl db none⟩
    cases result with
    | handled id user => exact ⟨h.1, h.2.imp_right (hmono id)⟩
    | changed | refused => trivial

end GateCall

/-! ## The resets -/

namespace ResetState

variable {κ : Type} [DecidableEq κ] {s s' : ResetState ℕ κ} {a : ResetAction ℕ κ}
  {rotated rotated' : List (ResetCall ℕ)}

/-- Before the flag is cleared, `ResetPassword` has written the password of the user. -/
def ClearsReset (s : ResetState ℕ κ) (rotated : List (ResetCall ℕ)) : Prop :=
  ∀ user, .setMustChange user ∈ s.calls → ∃ c ∈ rotated, c.user = user

theorem resets_subset (commit : Commit) (fresh : κ) (clock : Time) (pc : ResetPc ℕ κ) :
    s.resets ⊆ (s.perform commit fresh clock pc).2.resets := by
  rcases s.perform_resets commit fresh clock pc with hsame | ⟨token, user, readAt, -, hnew⟩
  · rw [hsame]
    exact List.Subset.refl _
  · rw [hnew]
    exact List.subset_append_left _ _

/-- The tokens only know that `ResetPassword` was asked for, not what became of it. -/
theorem rotation_subset (commit : Commit) (fresh : κ) (clock : Time) (pc : ResetPc ℕ κ) :
    GateState.rotation commit pc ⊆ (s.perform commit fresh clock pc).2.resets := by
  intro c hc
  cases pc with
  | resetPassword token user readAt =>
    simp only [GateState.rotation] at hc
    split at hc
    · cases hc
    · obtain rfl := List.mem_singleton.mp hc
      exact List.mem_append_right _ List.mem_cons_self
  | countForIP | getByEmail | countForUser | generate | invalidate | insert | send | getByHash
  | markUsed | setMustChange | returned => cases hc

theorem perform_setMustChange {commit : Commit} {fresh : κ} {clock : Time} {pc : ResetPc ℕ κ}
    {user : ℕ} (h : (s.perform commit fresh clock pc).1 = .setMustChange user) :
    ∃ c ∈ GateState.rotation commit pc, c.user = user := by
  cases pc with
  | resetPassword token user' readAt =>
    simp only [perform] at h
    split at h
    · next hdone =>
      cases h
      subst hdone
      exact ⟨_, List.mem_cons_self, rfl⟩
    · cases h
  | countForIP | getByEmail | countForUser | generate | invalidate | insert | send | getByHash
  | markUsed | setMustChange | returned =>
    simp only [perform, settle, fail] at h
    repeat' split at h
    all_goals cases h

omit [DecidableEq κ] in
theorem ClearsReset.mono (h : s.ClearsReset rotated) (hmore : rotated ⊆ rotated') :
    s.ClearsReset rotated' := by
  intro user huser
  obtain ⟨c, hc, heq⟩ := h user huser
  exact ⟨c, hmore hc, heq⟩

omit [DecidableEq κ] in
/-- A request that comes in is not about to clear the flag. -/
theorem ClearsReset.started {pc : ResetPc ℕ κ} (h : s.ClearsReset rotated)
    (hpc : ∀ user, pc ≠ .setMustChange user) :
    ClearsReset { s with calls := s.calls ++ [pc] } rotated := by
  intro user huser
  rcases List.mem_append.mp huser with hold | hnew
  · exact h user hold
  · exact absurd (List.mem_singleton.mp hnew).symm (hpc user)

theorem ClearsReset.run {k : ℕ} {commit : Commit} {fresh : κ} {clock : Time} {pc : ResetPc ℕ κ}
    (h : s.ClearsReset rotated) (hpc : s.calls[k]? = some pc)
    (hstep : s.step (.run k commit fresh clock) = some s') :
    s'.ClearsReset (rotated ++ GateState.rotation commit pc) := by
  simp only [ResetState.step, Option.bind_eq_bind, hpc, Option.bind_some] at hstep
  cases hstep
  intro user huser
  rcases List.mem_or_eq_of_mem_set huser with hold | hnew
  · exact h.mono (List.subset_append_left _ _) user hold
  · obtain ⟨c, hc, heq⟩ := perform_setMustChange hnew.symm
    exact ⟨c, List.mem_append_right _ hc, heq⟩

theorem ClearsReset.step (h : s.ClearsReset rotated) (hstep : s.step a = some s')
    (hother : ∀ k commit fresh clock, a ≠ .run k commit fresh clock) :
    s'.ClearsReset rotated ∧ s'.resets = s.resets := by
  cases a with
  | request email ip =>
    cases hstep
    exact ⟨h.started fun _ => nofun, rfl⟩
  | consume hash =>
    cases hstep
    exact ⟨h.started fun _ => nofun, rfl⟩
  | run k commit fresh clock => exact absurd rfl (hother k commit fresh clock)
  | tick now =>
    rw [ResetState.step] at hstep
    split at hstep
    · cases hstep
      exact ⟨h, rfl⟩
    · cases hstep
  | users users =>
    cases hstep
    exact ⟨h, rfl⟩

theorem run_resets {k : ℕ} {commit : Commit} {fresh : κ} {clock : Time} {pc : ResetPc ℕ κ}
    (hpc : s.calls[k]? = some pc) (hstep : s.step (.run k commit fresh clock) = some s') :
    s.resets ⊆ s'.resets ∧ GateState.rotation commit pc ⊆ s'.resets := by
  simp only [ResetState.step, Option.bind_eq_bind, hpc, Option.bind_some] at hstep
  cases hstep
  exact ⟨s.resets_subset commit fresh clock pc, rotation_subset commit fresh clock pc⟩

end ResetState

/-! ## The whole system -/

namespace GateState

variable {κ : Type} [DecidableEq κ] {s s' : GateState κ}

/-- The password of the user was changed, or reset. -/
def Rotated (s : GateState κ) (id : ℕ) : Prop :=
  id ∈ s.changed ∨ ∃ c ∈ s.rotated, c.user = id

omit [DecidableEq κ] in
theorem Rotated.mono {id : ℕ} (h : s.Rotated id) (hchanged : s.changed ⊆ s'.changed)
    (hrotated : s.rotated ⊆ s'.rotated) : s'.Rotated id := by
  rcases h with hc | ⟨c, hc, heq⟩
  · exact .inl (hchanged hc)
  · exact .inr ⟨c, hrotated hc, heq⟩

structure Inv (s : GateState κ) : Prop where
  users : s.users.FlagInv s.Rotated
  tokens : s.resets.TokenInv
  resets : s.resets.ClearsReset s.rotated
  rotated : s.rotated ⊆ s.resets.resets
  calls : ∀ c ∈ s.calls, c.Stands s.users.db s.Rotated
  changed : ∀ id ∈ s.changed, ∃ c ∈ s.calls, c.actor = id ∧ c.request ≠ .guarded

omit [DecidableEq κ] in
theorem resetUsers_spec {db : UsersDb} {unlocked : ℕ → Prop} (hdb : db.Locked unlocked)
    (commit : Commit) (newPassword : String) {pc : ResetPc ℕ κ}
    (hpc : ∀ user, pc = .setMustChange user → unlocked user) :
    Kept db (resetUsers db commit newPassword pc) none ∧
      (resetUsers db commit newPassword pc).Locked unlocked := by
  cases pc with
  | resetPassword token user readAt =>
    simp only [resetUsers]
    rcases settle_snd commit db (db.setPassword user newPassword) () () with hsame | hnew
    · rw [hsame]
      exact ⟨.refl db none, hdb⟩
    · rw [hnew]
      exact ⟨.of_users rfl, hdb.of_users rfl⟩
  | setMustChange user =>
    simp only [resetUsers]
    rcases settle_snd commit db (db.setMustChangePassword user false) () () with hsame | hnew
    · rw [hsame]
      exact ⟨.refl db none, hdb⟩
    · rw [hnew]
      exact ⟨kept_setMustChangePassword db user false none,
        hdb.setMustChangePassword (.inr (hpc user rfl))⟩
  | countForIP | getByEmail | countForUser | generate | invalidate | insert | send | getByHash
  | markUsed | returned => exact ⟨.refl db none, hdb⟩

/-- Who asked and for what stays, whatever the statement. -/
theorem exists_call_set {calls : List GateCall} {k : ℕ} {call c : GateCall} (pc : GatePc)
    (hcall : calls[k]? = some call) (hc : c ∈ calls) :
    ∃ c' ∈ calls.set k { call with pc }, c'.actor = c.actor ∧ c'.request = c.request := by
  obtain ⟨i, hi⟩ := List.mem_iff_getElem?.mp hc
  by_cases hik : k = i
  · subst hik
    obtain rfl := Option.some.inj (hcall.symm.trans hi)
    have hlt := (List.getElem?_eq_some_iff.mp hcall).1
    exact ⟨_, List.mem_of_getElem? (List.getElem?_set_self hlt), rfl, rfl⟩
  · exact ⟨c, List.mem_of_getElem? ((List.getElem?_set_ne hik).trans hi), rfl, rfl⟩

omit [DecidableEq κ] in
/-- The tables, the tokens and the history after a step, as the requests in flight see them. -/
theorem Inv.calls_kept {target : Option ℕ} (h : s.Inv)
    (hkept : Kept s.users.db s'.users.db target)
    (hspared : ∀ id, s.users.db.Crown id → target ≠ some id)
    (hmono : ∀ id, s.Rotated id → s'.Rotated id) :
    ∀ c ∈ s.calls, c.Stands s'.users.db s'.Rotated :=
  fun c hc => (h.calls c hc).kept hkept hspared hmono

theorem Inv.reset {a : ResetAction ℕ κ} {newPassword : String} (h : s.Inv)
    (hstep : s.step (.reset a newPassword) = some s') : s'.Inv := by
  simp only [GateState.step, Option.bind_eq_bind, Option.bind_eq_some_iff] at hstep
  obtain ⟨resets, hresets, hstep⟩ := hstep
  have htokens := h.tokens.step hresets
  cases a with
  | run k commit fresh clock =>
    simp only [Option.bind_eq_some_iff] at hstep
    obtain ⟨pc, hpc, hstep⟩ := hstep
    obtain ⟨hold, hnew⟩ := ResetState.run_resets hpc hresets
    have hclears := h.resets.run hpc hresets
    cases hstep
    have hmono : ∀ id, s.Rotated id →
        Rotated { s with rotated := s.rotated ++ rotation commit pc } id :=
      fun id hid => hid.mono (List.Subset.refl _) (List.subset_append_left _ _)
    -- A password that the statement clears the flag for was written by an earlier one.
    obtain ⟨hkept, hlocked⟩ := resetUsers_spec (h.users.locked.mono hmono) commit newPassword
      fun user huser => hmono user (.inr (h.resets user (huser ▸ List.mem_of_getElem? hpc)))
    exact ⟨h.users.change hkept hlocked, htokens, hclears,
      List.append_subset.mpr ⟨List.Subset.trans h.rotated hold, hnew⟩,
      h.calls_kept hkept (fun c _ => (Option.some_ne_none c).symm) hmono, h.changed⟩
  | request | consume | tick | users =>
    obtain ⟨hclears, hsame⟩ := h.resets.step hresets fun _ _ _ _ => nofun
    cases hstep
    exact ⟨h.users, htokens, hclears, hsame ▸ h.rotated, h.calls, h.changed⟩

theorem Inv.step {a : GateAction κ} (h : s.Inv) (hstep : s.step a = some s') : s'.Inv := by
  cases a with
  | users a =>
    simp only [GateState.step, Option.bind_eq_bind, Option.bind_eq_some_iff] at hstep
    obtain ⟨users, husers, hstep⟩ := hstep
    cases hstep
    obtain ⟨target, hkept, hspared⟩ := h.users.crown.step_kept husers
    exact ⟨h.users.step husers, h.tokens, h.resets, h.rotated,
      h.calls_kept hkept hspared fun _ hid => hid, h.changed⟩
  | reset a newPassword => exact h.reset hstep
  | request actor request =>
    cases hstep
    refine ⟨h.users, h.tokens, h.resets, h.rotated, ?_, fun id hid => ?_⟩
    · exact List.forall_mem_append.mpr ⟨h.calls, List.forall_mem_singleton.mpr trivial⟩
    · obtain ⟨c, hc, hrest⟩ := h.changed id hid
      exact ⟨c, List.mem_append_left _ hc, hrest⟩
  | run k commit =>
    simp only [GateState.step, Option.bind_eq_bind, Option.bind_eq_some_iff] at hstep
    obtain ⟨call, hcall, hstep⟩ := hstep
    cases hstep
    have hmem := List.mem_of_getElem? hcall
    have hstands := h.calls call hmem
    generalize hchanged : (if call.pc.changes = true ∧ commit ≠ .failed
      then s.changed ++ [call.actor] else s.changed) = changed
    have hsubset : s.changed ⊆ changed := by
      subst hchanged
      split
      · exact List.subset_append_left _ _
      · exact List.Subset.refl _
    have hactor : call.pc.changes = true → commit ≠ .failed → call.actor ∈ changed := by
      intro hpc hcommit
      subst hchanged
      rw [if_pos ⟨hpc, hcommit⟩]
      exact List.mem_append_right _ List.mem_cons_self
    have hmono : ∀ id, s.Rotated id → Rotated { s with changed } id :=
      fun id hid => hid.mono hsubset (List.Subset.refl _)
    obtain ⟨hnext, hlocked, hkept⟩ := hstands.perform h.users.locked hmono commit
      fun hpc hcommit => .inl (hactor hpc hcommit)
    refine ⟨h.users.change hkept hlocked, h.tokens, h.resets, h.rotated, fun c hc => ?_,
      fun id hid => ?_⟩
    · rcases List.mem_or_eq_of_mem_set hc with hold | rfl
      · exact (h.calls c hold).kept hkept (fun c _ => (Option.some_ne_none c).symm) hmono
      · exact hnext
    · have hfrom : ∃ c ∈ s.calls, c.actor = id ∧ c.request ≠ .guarded := by
        have hid : id ∈ changed := hid
        rw [← hchanged] at hid
        split at hid
        · next hwrites =>
          rcases List.mem_append.mp hid with hold | hnew
          · exact h.changed id hold
          · obtain rfl := List.mem_singleton.mp hnew
            refine ⟨call, hmem, rfl, ?_⟩
            obtain ⟨actor, request, pc⟩ := call
            cases pc with
            | updateFields user newPassword => exact hstands.2
            | lookup | getOrCreate | getAccount | setMustChange | returned => cases hwrites.1
        · exact h.changed id hid
      obtain ⟨c, hc, hactor, hrequest⟩ := hfrom
      obtain ⟨c', hc', hsame, hsame'⟩ := exists_call_set _ hcall hc
      exact ⟨c', hc', hsame.trans hactor, hsame' ▸ hrequest⟩

omit [DecidableEq κ] in
theorem inv_new (now : Time) : (new now : GateState κ).Inv where
  users := ⟨UsersState.crownInv_new, nofun, fun id u hu => by cases hu⟩
  tokens := ResetState.tokenInv_new ∅ now
  resets := nofun
  rotated := List.nil_subset _
  calls := nofun
  changed := nofun

end GateState

end OpenGps.Backend
