import OpenGps.Backend.SuperAdmin

/-!
# Creation of a user by the super-admin

`CreateUser` of the service writes to Authula's user row, to its credential and to the local row,
each on its own. A call that stops before the first of these has no effect and can be repeated. One
that stops after it leaves a row with the address, and from then on Authula refuses every user of
that address: the fallback of the adapter for conflicting rows is never reached again.
-/

namespace OpenGps.Backend

open OpenGps.Lib UsersDb

/-- How the statements of one call go, in the order of the code. -/
structure CreateFaults where
  hasSuperAdmin : Commit
  generatePassword : Commit
  hashPassword : Commit
  authulaUser : Commit
  authulaAccount : Commit
  insert : Commit
  conflictGet : Commit
  conflictUpdate : Commit
  conflictSet : Commit
  deriving DecidableEq

namespace CreateFaults

def none : CreateFaults := ⟨.done, .done, .done, .done, .done, .done, .done, .done, .done⟩

def toList (f : CreateFaults) : List Commit :=
  [f.hasSuperAdmin, f.generatePassword, f.hashPassword, f.authulaUser, f.authulaAccount, f.insert,
    f.conflictGet, f.conflictUpdate, f.conflictSet]

/-- The call stops before Authula has a row. -/
def Early (f : CreateFaults) : Prop :=
  f.hasSuperAdmin ≠ .done ∨ f.generatePassword ≠ .done ∨ f.hashPassword ≠ .done ∨
    f.authulaUser = .failed

end CreateFaults

namespace UserPc

/-- The statements of one call, one after the other; `fresh` is the password that it generates. -/
def performAll (fresh : String) (commits : List Commit) (r : UserPc × UsersDb) : UserPc × UsersDb :=
  commits.foldl (fun r commit => r.1.perform r.2 commit fresh) r

theorem performAll_cons {fresh : String} {commit : Commit} (commits : List Commit) {pc : UserPc}
    {db : UsersDb} {r : UserPc × UsersDb} (h : pc.perform db commit fresh = r) :
    performAll fresh (commit :: commits) (pc, db) = performAll fresh commits r :=
  congrArg (performAll fresh commits) h

theorem performAll_returned {fresh : String} (commits : List Commit) {result : UserResult}
    {db : UsersDb} : performAll fresh commits (.returned result, db) = (.returned result, db) := by
  induction commits with
  | nil => rfl
  | cons commit commits ih => exact ih

/-- A statement that fails and has no effect ends the call. -/
theorem performAll_fail {fresh : String} {commit : Commit} (commits : List Commit) {pc : UserPc}
    {db : UsersDb} {e : UserError} (h : pc.perform db commit fresh = (fail e, db)) :
    performAll fresh (commit :: commits) (pc, db) = (.returned (.error e), db) :=
  (performAll_cons commits h).trans (performAll_returned commits)

theorem performAll_hasEmail {fresh email : String} (commits : List Commit)
    {r : UserPc × UsersDb} (h : r.2.HasEmail email) :
    (performAll fresh commits r).2.HasEmail email := by
  induction commits generalizing r with
  | nil => exact h
  | cons commit commits ih => exact ih (h.kept (perform_kept r.2 commit fresh r.1))

end UserPc

namespace UsersDb

def createUser (db : UsersDb) (email name lastname fresh : String) (faults : CreateFaults) :
    UserPc × UsersDb :=
  UserPc.performAll fresh faults.toList (.createUser email name lastname, db)

/-- The active user and the credential that a call without faults is to leave. -/
structure Provisioned (db : UsersDb) (id : Nat) (u : User) (email password : String) : Prop where
  row : db.users.lookup id = some u
  address : u.email = email
  role : u.role = .user
  mustChange : u.mustChangePassword = true
  active : u.deleted = false
  only : ∀ j v, db.users.lookup j = some v → v.email = email → j = id
  credential : db.accounts.filter (·.userID = id) = [⟨id, email, password⟩]

/-- A call without faults returns the temporary password of a new user. -/
def Creates (db : UsersDb) (email name lastname fresh : String) : Prop :=
  ∃ id u db', db.createUser email name lastname fresh .none =
    (.returned (.created id u fresh), db') ∧ db'.Provisioned id u email fresh

/-! ## Statements on a row that is there -/

theorem getByEmail_of_active {db : UsersDb} {email : String} {id : Nat} {u : User}
    (hu : db.users.lookup id = some u) (hemail : u.email = email) (hactive : u.deleted = false) :
    db.getByEmail email = some (id, u) := by
  cases hfound : db.getByEmail email with
  | none =>
    have hnot := List.find?_eq_none.mp hfound (id, u) (Table.mem_rows.mpr hu)
    simp [hemail, hactive] at hnot
  | some row =>
    obtain ⟨hv, hvemail, -⟩ := getByEmail_eq_some hfound
    obtain rfl := db.emails id row.1 u row.2 hu hv (hemail.trans hvemail.symm)
    obtain rfl := Option.some.inj (hu.symm.trans hv)
    rfl

theorem update_of_active {db : UsersDb} {id : Nat} {u : User} (f : User → User)
    (hemail : ∀ u, (f u).email = u.email)
    (hrole : ∀ u, (f u).role = .superAdmin → u.role = .superAdmin)
    (hu : db.users.lookup id = some u) (hactive : u.deleted = false) :
    ∃ db', db.update id f hemail hrole = some (f u, db') ∧
      db'.users.lookup id = some (f u) ∧ db'.accounts = db.accounts := by
  refine ⟨db.modify id f hemail fun u h => .inl (hrole u h), ?_, ?_, rfl⟩
  · rw [update, getByID_eq_some.mpr ⟨hu, hactive⟩]
    rfl
  · exact Table.lookup_updateAt_self.trans (congrArg _ hu)

theorem updateUser_of_active {db : UsersDb} {id : Nat} {u : User} (name lastname : String)
    (hu : db.users.lookup id = some u) (hactive : u.deleted = false) :
    ∃ db', db.updateUser id name lastname = some ({ u with name, lastname }, db') ∧
      db'.users.lookup id = some { u with name, lastname } ∧ db'.accounts = db.accounts :=
  update_of_active (fun u => { u with name, lastname }) (fun _ => rfl) (fun _ h => h) hu hactive

theorem setMustChangePassword_of_active {db : UsersDb} {id : Nat} {u : User}
    (mustChangePassword : Bool) (hu : db.users.lookup id = some u) (hactive : u.deleted = false) :
    (db.setMustChangePassword id mustChangePassword).users.lookup id =
      some { u with mustChangePassword } ∧
        (db.setMustChangePassword id mustChangePassword).accounts = db.accounts := by
  obtain ⟨db', hupdate, hrow, haccounts⟩ := update_of_active
    (fun u => { u with mustChangePassword }) (fun _ => rfl) (fun _ h => h) hu hactive
  rw [setMustChangePassword, hupdate]
  exact ⟨hrow, haccounts⟩

theorem insert_of_free {db : UsersDb} {u : User} (hfree : ¬ db.HasEmail u.email)
    (hrole : u.role = .user) : ∃ db', db.insert u = some (db.nextID, db') ∧
      db'.users.lookup db.nextID = some u ∧ db'.accounts = db.accounts ∧
      db'.nextID = db.nextID + 1 := by
  have haccepts : db.accepts u = true := by
    refine accepts_iff.mpr fun id v hv => ⟨fun heq => hfree ⟨id, v, hv, heq⟩, fun hr => ?_⟩
    rw [hrole] at hr
    cases hr
  exact ⟨db.push u haccepts, dif_pos haccepts, AList.lookup_insert _, rfl, rfl⟩

theorem createAccount_of_lt {db : UsersDb} {a : Account} (h : a.userID < db.nextID) :
    ∃ db', db.createAccount a = some db' ∧ db'.users = db.users ∧
      db'.accounts = db.accounts ++ [a] := ⟨_, dif_pos h, rfl, rfl⟩

/-! ## One call -/

/-- Authula has the user and the credential; the local insert finds the row of Authula and completes
it. -/
theorem conflict_completes {db : UsersDb} {id : Nat} {v : User} (u : NewUser) (fresh : String)
    (hv : db.users.lookup id = some v) (hemail : v.email = u.email) (hactive : v.deleted = false) :
    ∃ db', UserPc.performAll fresh [.done, .done, .done, .done]
        (.insert u (.createUser fresh), db) =
      (.returned (.created id ⟨u.email, u.name, u.lastname, v.role, u.mustChangePassword, false⟩
        fresh), db') ∧
      db'.users.lookup id =
        some ⟨u.email, u.name, u.lastname, v.role, u.mustChangePassword, false⟩ ∧
      db'.accounts = db.accounts := by
  have hrefused : db.insert ⟨u.email, u.name, u.lastname, u.role, u.mustChangePassword, false⟩ =
      none := HasEmail.insert ⟨id, v, hv, hemail⟩
  have hfound := getByEmail_of_active hv hemail hactive
  obtain ⟨db₁, hupdate, hv₁, haccounts₁⟩ := updateUser_of_active u.name u.lastname hv hactive
  obtain ⟨hv₂, haccounts₂⟩ :=
    setMustChangePassword_of_active u.mustChangePassword hv₁ hactive
  obtain ⟨email, name, lastname, role, mustChange, deleted⟩ := v
  subst hemail hactive
  refine ⟨db₁.setMustChangePassword id u.mustChangePassword, ?_, hv₂, haccounts₂.trans haccounts₁⟩
  simp [UserPc.performAll, UserPc.perform, hrefused, hfound, hupdate, settle, UserPc.finish]

/-- With a super-admin and without a row of the address, a call without faults creates the user. -/
theorem creates_of_free {db : UsersDb} {email : String} (hcrown : db.HasCrown)
    (hfree : ¬ db.HasEmail email) (name lastname fresh : String) :
    db.Creates email name lastname fresh := by
  have hnew : UserPc.newUser email name lastname db.hasSuperAdmin =
      ⟨email, name, lastname, .user, true⟩ := by
    rw [hasSuperAdmin_iff.mpr hcrown]
    rfl
  obtain ⟨db₁, hinsert, hrow, haccounts₁, hnext⟩ :=
    insert_of_free (u := UserPc.authulaRow email name) hfree rfl
  have howner : db.nextID < db₁.nextID := by omega
  obtain ⟨db₂, haccount, husers, haccounts₂⟩ :=
    createAccount_of_lt (a := ⟨db.nextID, email, fresh⟩) howner
  obtain ⟨db₃, hlocal, hrow₃, haccounts₃⟩ :=
    conflict_completes ⟨email, name, lastname, .user, true⟩ fresh (husers ▸ hrow) rfl rfl
  refine ⟨db.nextID, _, db₃, ?_, hrow₃, rfl, rfl, rfl, rfl, ?_, ?_⟩
  · have hprefix : db.createUser email name lastname fresh .none =
        UserPc.performAll fresh [.done, .done, .done, .done]
          (.insert ⟨email, name, lastname, .user, true⟩ (.createUser fresh), db₂) := by
      simp [createUser, CreateFaults.none, CreateFaults.toList, UserPc.performAll, UserPc.perform,
        hnew, hinsert, haccount, settle]
    exact hprefix.trans hlocal
  · intro j v hv hemail
    exact db₃.emails j db.nextID v _ hv hrow₃ hemail
  · -- No credential is owned by an id that was not there.
    have hold : db.accounts.filter (·.userID = db.nextID) = [] := by
      refine List.filter_eq_nil_iff.mpr fun a ha => ?_
      simpa using Nat.ne_of_lt (db.owned a ha)
    rw [haccounts₃, haccounts₂, haccounts₁, List.filter_append, hold]
    simp

/-- Whatever has the address, a call without faults is refused by Authula. -/
theorem createUser_refused {db : UsersDb} {email : String} (h : db.HasEmail email)
    (name lastname fresh : String) :
    db.createUser email name lastname fresh .none = (.returned (.error .store), db) := by
  have hrefused : db.insert (UserPc.authulaRow email name) = none := HasEmail.insert h
  have hemail : (UserPc.newUser email name lastname db.hasSuperAdmin).email = email ∧
      (UserPc.newUser email name lastname db.hasSuperAdmin).name = name := by
    unfold UserPc.newUser
    split
    · exact ⟨rfl, rfl⟩
    · exact ⟨rfl, rfl⟩
  simp [createUser, CreateFaults.none, CreateFaults.toList, UserPc.performAll, UserPc.perform,
    UserPc.fail, hemail, hrefused]

theorem not_creates_of_hasEmail {db : UsersDb} {email : String} (h : db.HasEmail email)
    (name lastname fresh : String) : ¬ db.Creates email name lastname fresh := by
  rintro ⟨id, u, db', hcall, -⟩
  rw [createUser_refused h] at hcall
  cases hcall

/-- The statements before that of Authula's user, which change nothing. -/
theorem createUser_cases (db : UsersDb) (email name lastname fresh : String)
    (faults : CreateFaults) :
    (faults.hasSuperAdmin ≠ .done ∨ faults.generatePassword ≠ .done ∨ faults.hashPassword ≠ .done) ∧
        db.createUser email name lastname fresh faults = (.returned (.error .store), db) ∨
      (faults.hasSuperAdmin = .done ∧ faults.generatePassword = .done ∧
          faults.hashPassword = .done) ∧
        db.createUser email name lastname fresh faults =
          UserPc.performAll fresh (faults.toList.drop 3)
            (.authulaUser (UserPc.newUser email name lastname db.hasSuperAdmin) fresh, db) := by
  set u := UserPc.newUser email name lastname db.hasSuperAdmin with hu
  by_cases hquery : faults.hasSuperAdmin = .done
  · have hfirst : UserPc.perform db faults.hasSuperAdmin fresh (.createUser email name lastname) =
        (.generatePassword u, db) := if_neg (not_not.mpr hquery)
    by_cases hgenerate : faults.generatePassword = .done
    · have hsecond : UserPc.perform db faults.generatePassword fresh (.generatePassword u) =
          (.hashPassword u fresh, db) := if_neg (not_not.mpr hgenerate)
      by_cases hhash : faults.hashPassword = .done
      · have hthird : UserPc.perform db faults.hashPassword fresh (.hashPassword u fresh) =
            (.authulaUser u fresh, db) := if_neg (not_not.mpr hhash)
        refine .inr ⟨⟨hquery, hgenerate, hhash⟩, ?_⟩
        refine (UserPc.performAll_cons _ hfirst).trans ?_
        exact (UserPc.performAll_cons _ hsecond).trans (UserPc.performAll_cons _ hthird)
      · refine .inl ⟨.inr (.inr hhash), (UserPc.performAll_cons _ hfirst).trans ?_⟩
        exact (UserPc.performAll_cons _ hsecond).trans (UserPc.performAll_fail _ (if_pos hhash))
    · refine .inl ⟨.inr (.inl hgenerate), (UserPc.performAll_cons _ hfirst).trans ?_⟩
      exact UserPc.performAll_fail _ (if_pos hgenerate)
  · exact .inl ⟨.inl hquery, UserPc.performAll_fail _ (if_pos hquery)⟩

/-- A call that stops before Authula has a row leaves nothing, and any other leaves the address. -/
theorem createUser_leaves {db : UsersDb} {email : String} (hcrown : db.HasCrown)
    (hfree : ¬ db.HasEmail email) (name lastname fresh : String) (faults : CreateFaults) :
    faults.Early ∧
        db.createUser email name lastname fresh faults = (.returned (.error .store), db) ∨
      ¬ faults.Early ∧ (db.createUser email name lastname fresh faults).2.HasEmail email := by
  rcases db.createUser_cases email name lastname fresh faults with
    ⟨hearly, hcall⟩ | ⟨⟨hquery, hgenerate, hhash⟩, hcall⟩
  · refine .inl ⟨?_, hcall⟩
    rcases hearly with h | h | h
    · exact .inl h
    · exact .inr (.inl h)
    · exact .inr (.inr (.inl h))
  · have hnew : UserPc.newUser email name lastname db.hasSuperAdmin =
        ⟨email, name, lastname, .user, true⟩ := by
      rw [hasSuperAdmin_iff.mpr hcrown]
      rfl
    obtain ⟨db₁, hinsert, hrow, -⟩ :=
      insert_of_free (u := UserPc.authulaRow email name) hfree rfl
    have hperform : UserPc.perform db faults.authulaUser fresh
        (.authulaUser ⟨email, name, lastname, .user, true⟩ fresh) =
          settle faults.authulaUser db db₁
            (.authulaAccount db.nextID ⟨email, name, lastname, .user, true⟩ fresh)
            (UserPc.fail .store) := by
      simp only [UserPc.perform, hinsert]
    rw [hnew] at hcall
    by_cases hauthula : faults.authulaUser = .failed
    · refine .inl ⟨.inr (.inr (.inr hauthula)), hcall.trans (UserPc.performAll_fail _ ?_)⟩
      rw [hperform, hauthula]
      rfl
    · have hlate : ¬ faults.Early := by
        unfold CreateFaults.Early
        simp [hquery, hgenerate, hhash, hauthula]
      refine .inr ⟨hlate, ?_⟩
      rw [hcall.trans (UserPc.performAll_cons (faults.toList.drop 4) hperform)]
      refine UserPc.performAll_hasEmail _ ⟨db.nextID, UserPc.authulaRow email name, ?_, rfl⟩
      cases hcommit : faults.authulaUser with
      | done => exact hrow
      | failed => exact absurd hcommit hauthula
      | unconfirmed => exact hrow

end UsersDb

/-- A call that has failed can be repeated with success if and only if it stopped before Authula had
a row. -/
theorem createUser_retry {db db' : UsersDb} {email name lastname fresh : String}
    {faults : CreateFaults} {e : UserError} (hcrown : db.HasCrown) (hfree : ¬ db.HasEmail email)
    (hcall : db.createUser email name lastname fresh faults = (.returned (.error e), db'))
    (name' lastname' fresh' : String) :
    db'.Creates email name' lastname' fresh' ↔ faults.Early := by
  rcases createUser_leaves hcrown hfree name lastname fresh faults with
    ⟨hearly, hnothing⟩ | ⟨hlate, hemail⟩
  · rw [hcall] at hnothing
    cases hnothing
    exact ⟨fun _ => hearly, fun _ => creates_of_free hcrown hfree name' lastname' fresh'⟩
  · rw [hcall] at hemail
    have hblocked : ¬ db'.Creates email name' lastname' fresh' :=
      not_creates_of_hasEmail hemail name' lastname' fresh'
    exact ⟨fun hcreates => absurd hcreates hblocked, fun hearly => absurd hearly hlate⟩

def oneAdmin : UsersDb :=
  UsersDb.empty.push ⟨"a@b.c", "A", "", .superAdmin, false, false⟩ (by decide)

theorem oneAdmin_spec : oneAdmin.HasCrown ∧ ¬ oneAdmin.HasEmail "d@e.f" := by
  refine ⟨⟨0, _, rfl, rfl, rfl⟩, ?_⟩
  rintro ⟨id, u, hu, hemail⟩
  rcases insert_back hu with ⟨-, rfl⟩ | ⟨-, hold⟩
  · exact absurd hemail (by decide)
  · cases hold

/-- The credential is not stored, and the address is lost. -/
theorem createUser_half_created : ∃ db db' : UsersDb, db.HasCrown ∧ ¬ db.HasEmail "d@e.f" ∧
    db.createUser "d@e.f" "D" "E" "pw" { CreateFaults.none with authulaAccount := .failed } =
      (.returned (.error .store), db') ∧
    db'.createUser "d@e.f" "D" "E" "pw2" .none = (.returned (.error .store), db') := by
  obtain ⟨hcrown, hfree⟩ := oneAdmin_spec
  refine ⟨oneAdmin, _, hcrown, hfree, rfl, createUser_refused ?_ "D" "E" "pw2"⟩
  rcases createUser_leaves hcrown hfree "D" "E" "pw"
    { CreateFaults.none with authulaAccount := .failed } with ⟨hearly, -⟩ | ⟨-, hemail⟩
  · rcases hearly with h | h | h | h <;> exact absurd h (by decide)
  · exact hemail

theorem createUser_retry_early : oneAdmin.Creates "d@e.f" "D" "E" "pw2" := by
  obtain ⟨hcrown, hfree⟩ := oneAdmin_spec
  have hcall : oneAdmin.createUser "d@e.f" "D" "E" "pw"
      { CreateFaults.none with hashPassword := .failed } =
        (.returned (.error .store), oneAdmin) := rfl
  have hearly : CreateFaults.Early { CreateFaults.none with hashPassword := .failed } :=
    .inr (.inr (.inl (by decide)))
  exact (createUser_retry hcrown hfree hcall "D" "E" "pw2").mpr hearly

end OpenGps.Backend
