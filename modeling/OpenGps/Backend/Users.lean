import OpenGps.Backend.Locations

/-!
# Users

`AuthSession` with `GetOrCreate`, and the requests behind it that create and delete users
(`internal/app/users`), statement by statement. Authula keeps its users in the same table, so the
sign-up and the creation of a user by an administrator insert there too.

The two unique indexes of the table are fields of `UsersDb`: the one on the email and the partial one
on the role, both of which count deleted rows.
-/

namespace OpenGps.Backend

open OpenGps.Lib

inductive UserRole where
  | user
  | superAdmin
  deriving DecidableEq

/-- `deleted` says that `deleted_at` is set. -/
structure User where
  email : String
  name : String
  lastname : String
  role : UserRole
  mustChangePassword : Bool
  deleted : Bool
  deriving DecidableEq

/-- A credential; the password stands for its hash. -/
structure Account where
  userID : Nat
  email : String
  password : String
  deriving DecidableEq

/-- `store` is any error that is not one of the domain, those of Authula included. -/
inductive UserError where
  | notFound
  | conflict
  | unauthorized
  | forbidden
  | store
  deriving DecidableEq

structure UsersDb where
  users : Table Nat User
  nextID : Nat
  accounts : List Account
  fresh : ∀ id u, users.lookup id = some u → id < nextID
  owned : ∀ a ∈ accounts, a.userID < nextID
  emails : ∀ i j u v, users.lookup i = some u → users.lookup j = some v → u.email = v.email → i = j
  superAdmins : ∀ i j u v, users.lookup i = some u → users.lookup j = some v →
    u.role = .superAdmin → v.role = .superAdmin → i = j

namespace UsersDb

def empty : UsersDb where
  users := ∅
  nextID := 0
  accounts := []
  fresh := fun id u h => by cases h
  owned := fun a h => by cases h
  emails := fun i j u v h => by cases h
  superAdmins := fun i j u v h => by cases h

/-! ## Rows -/

/-- The rows after a change of one of them. -/
theorem updateAt_back {t : Table Nat User} {id j : Nat} {f : User → User} {v : User}
    (h : (t.updateAt id (fun _ => true) f).2.lookup j = some v) :
    ∃ u, t.lookup j = some u ∧ (v = u ∨ j = id ∧ v = f u) := by
  by_cases hj : j = id
  · subst hj
    rw [Table.lookup_updateAt_self, Option.map_eq_some_iff] at h
    obtain ⟨u, hu, rfl⟩ := h
    exact ⟨u, hu, .inr ⟨rfl, rfl⟩⟩
  · rw [Table.lookup_updateAt_of_ne hj] at h
    exact ⟨v, h, .inl rfl⟩

/-- The only row that can be a super-admin's is that of the id. -/
def Vacant (db : UsersDb) (id : Nat) : Prop :=
  ∀ j v, db.users.lookup j = some v → v.role = .superAdmin → j = id

/-- A change of one row that keeps its email, and its role unless no other row is a super-admin's. -/
def modify (db : UsersDb) (id : Nat) (f : User → User) (hemail : ∀ u, (f u).email = u.email)
    (hrole : ∀ u, (f u).role = .superAdmin → u.role = .superAdmin ∨ db.Vacant id) : UsersDb where
  users := (db.users.updateAt id (fun _ => true) f).2
  nextID := db.nextID
  accounts := db.accounts
  owned := db.owned
  fresh := by
    intro j v h
    obtain ⟨u, hu, -⟩ := updateAt_back h
    exact db.fresh j u hu
  emails := by
    have hsame : ∀ {j v}, (db.users.updateAt id (fun _ => true) f).2.lookup j = some v →
        ∃ u, db.users.lookup j = some u ∧ v.email = u.email := by
      intro j v h
      obtain ⟨u, hu, rfl | ⟨-, rfl⟩⟩ := updateAt_back h
      · exact ⟨v, hu, rfl⟩
      · exact ⟨u, hu, hemail u⟩
    intro i j v w hv hw heq
    obtain ⟨u, hu, huv⟩ := hsame hv
    obtain ⟨x, hx, hxw⟩ := hsame hw
    exact db.emails i j u x hu hx (huv.symm.trans (heq.trans hxw))
  superAdmins := by
    have hsame : ∀ {j v}, (db.users.updateAt id (fun _ => true) f).2.lookup j = some v →
        v.role = .superAdmin →
        (∃ u, db.users.lookup j = some u ∧ u.role = .superAdmin) ∨ j = id ∧ db.Vacant id := by
      intro j v h hv
      obtain ⟨u, hu, rfl | ⟨rfl, rfl⟩⟩ := updateAt_back h
      · exact .inl ⟨v, hu, hv⟩
      · rcases hrole u hv with hold | hvacant
        · exact .inl ⟨u, hu, hold⟩
        · exact .inr ⟨rfl, hvacant⟩
    intro i j v w hv hw hvr hwr
    rcases hsame hv hvr with ⟨u, hu, hur⟩ | ⟨rfl, hvacant⟩
    · rcases hsame hw hwr with ⟨x, hx, hxr⟩ | ⟨rfl, hvacant⟩
      · exact db.superAdmins i j u x hu hx hur hxr
      · exact hvacant i u hu hur
    · rcases hsame hw hwr with ⟨x, hx, hxr⟩ | ⟨rfl, -⟩
      · exact (hvacant j x hx hxr).symm
      · rfl

/-! ## Statements -/

def getByID (db : UsersDb) (id : Nat) : Option User := (db.users.lookup id).filter (!·.deleted)

def getByEmail (db : UsersDb) (email : String) : Option (Nat × User) :=
  db.users.rows.find? fun row => row.2.email = email && !row.2.deleted

def hasSuperAdmin (db : UsersDb) : Bool :=
  db.users.rows.any fun row => row.2.role = .superAdmin && !row.2.deleted

/-- The unique indexes accept the row. -/
def accepts (db : UsersDb) (u : User) : Bool :=
  db.users.rows.all fun row => row.2.email ≠ u.email && (u.role = .user || row.2.role = .user)

theorem accepts_iff {db : UsersDb} {u : User} : db.accepts u = true ↔
    ∀ id v, db.users.lookup id = some v →
      v.email ≠ u.email ∧ (u.role = .superAdmin → v.role ≠ .superAdmin) := by
  have hrole : ∀ r r' : UserRole, (r = .user ∨ r' = .user) ↔ (r = .superAdmin → r' ≠ .superAdmin) := by
    intro r r'
    cases r <;> cases r' <;> decide
  rw [accepts, List.all_eq_true]
  simp only [Bool.and_eq_true, Bool.or_eq_true, decide_eq_true_eq, hrole]
  constructor
  · intro h id v hv
    exact h (id, v) (Table.mem_rows.mpr hv)
  · intro h row hrow
    exact h row.1 row.2 (Table.mem_rows.mp hrow)

/-- A row after an insert. -/
theorem insert_back {t : Table Nat User} {id j : Nat} {u v : User}
    (h : (AList.insert id u t).lookup j = some v) :
    j = id ∧ v = u ∨ j ≠ id ∧ t.lookup j = some v := by
  by_cases hj : j = id
  · subst hj
    exact .inl ⟨rfl, (Option.some.inj ((AList.lookup_insert _).symm.trans h)).symm⟩
  · exact .inr ⟨hj, (AList.lookup_insert_ne hj).symm.trans h⟩

def push (db : UsersDb) (u : User) (haccepts : db.accepts u = true) : UsersDb where
  users := db.users.insert db.nextID u
  nextID := db.nextID + 1
  accounts := db.accounts
  owned := fun a ha => Nat.lt_succ_of_lt (db.owned a ha)
  fresh := by
    intro j v h
    rcases insert_back h with ⟨rfl, -⟩ | ⟨-, hold⟩
    · exact Nat.lt_succ_self _
    · exact Nat.lt_succ_of_lt (db.fresh j v hold)
  emails := by
    have hnew := accepts_iff.mp haccepts
    intro i j v w hv hw heq
    rcases insert_back hv with ⟨hi, hvu⟩ | ⟨-, hvold⟩
    · rcases insert_back hw with ⟨hj, -⟩ | ⟨-, hwold⟩
      · exact hi.trans hj.symm
      · exact absurd (heq.symm.trans (congrArg User.email hvu)) (hnew j w hwold).1
    · rcases insert_back hw with ⟨-, hwu⟩ | ⟨-, hwold⟩
      · exact absurd (heq.trans (congrArg User.email hwu)) (hnew i v hvold).1
      · exact db.emails i j v w hvold hwold heq
  superAdmins := by
    have hnew := accepts_iff.mp haccepts
    intro i j v w hv hw hvr hwr
    rcases insert_back hv with ⟨hi, hvu⟩ | ⟨-, hvold⟩
    · rcases insert_back hw with ⟨hj, -⟩ | ⟨-, hwold⟩
      · exact hi.trans hj.symm
      · exact absurd hwr ((hnew j w hwold).2 (hvu ▸ hvr))
    · rcases insert_back hw with ⟨-, hwu⟩ | ⟨-, hwold⟩
      · exact absurd hvr ((hnew i v hvold).2 (hwu ▸ hwr))
      · exact db.superAdmins i j v w hvold hwold hvr hwr

/-- `CreateUser` of the queries, and the insert of Authula; `none` is a unique violation. -/
def insert (db : UsersDb) (u : User) : Option (Nat × UsersDb) :=
  if h : db.accepts u = true then some (db.nextID, db.push u h) else none

/-- An update of an active row. -/
def update (db : UsersDb) (id : Nat) (f : User → User) (hemail : ∀ u, (f u).email = u.email)
    (hrole : ∀ u, (f u).role = .superAdmin → u.role = .superAdmin) : Option (User × UsersDb) :=
  (db.getByID id).map fun u => (f u, db.modify id f hemail fun u h => .inl (hrole u h))

def updateUser (db : UsersDb) (id : Nat) (name lastname : String) : Option (User × UsersDb) :=
  db.update id (fun u => { u with name, lastname }) (fun _ => rfl) fun _ h => h

/-- No row is no error here. -/
def setMustChangePassword (db : UsersDb) (id : Nat) (mustChangePassword : Bool) : UsersDb :=
  ((db.update id (fun u => { u with mustChangePassword }) (fun _ => rfl) fun _ h => h).map
    (·.2)).getD db

def softDeleteUser (db : UsersDb) (id : Nat) : UsersDb :=
  ((db.update id (fun u => { u with deleted := true }) (fun _ => rfl) fun _ h => h).map
    (·.2)).getD db

/-- No other row has the role. -/
def vacant (db : UsersDb) (id : Nat) : Bool :=
  db.users.rows.all fun row => row.2.role = .user || row.1 = id

theorem vacant_iff {db : UsersDb} {id : Nat} : db.vacant id = true ↔ db.Vacant id := by
  have hrole : ∀ r : UserRole, r = .user ↔ r ≠ .superAdmin := by
    intro r
    cases r <;> decide
  rw [vacant, List.all_eq_true]
  simp only [Bool.or_eq_true, decide_eq_true_eq, hrole]
  constructor
  · intro h j v hv hr
    exact (h (j, v) (Table.mem_rows.mpr hv)).resolve_left fun hnot => hnot hr
  · intro h row hrow
    by_cases hr : row.2.role = .superAdmin
    · exact .inr (h row.1 row.2 (Table.mem_rows.mp hrow) hr)
    · exact .inl hr

def promoteToSuperAdmin (db : UsersDb) (id : Nat) : Except UserError (User × UsersDb) :=
  let f := fun u : User => { u with role := .superAdmin, mustChangePassword := false }
  match db.getByID id with
  | none => .error .notFound
  | some u =>
    if h : db.vacant id = true then
      .ok (f u, db.modify id f (fun _ => rfl) fun _ _ => .inr (vacant_iff.mp h))
    else .error .conflict

/-- The account service of Authula. -/
def createAccount (db : UsersDb) (a : Account) : Option UsersDb :=
  if h : a.userID < db.nextID then
    some { db with
      accounts := db.accounts ++ [a]
      owned := by
        intro b hb
        rcases List.mem_append.mp hb with hold | hnew
        · exact db.owned b hold
        · obtain rfl := List.mem_singleton.mp hnew
          exact h }
  else none

end UsersDb

/-! ## The service -/

/-- What a request does for its caller; `other` is any that leaves the users alone. -/
inductive UserRequest where
  | createUser (email name lastname : String)
  | softDelete (target : Nat)
  | other
  deriving DecidableEq

structure NewUser where
  email : String
  name : String
  lastname : String
  role : UserRole
  mustChangePassword : Bool
  deriving DecidableEq

/-- Who called `CreateUser` of the adapter. -/
inductive CreateCaller where
  | getOrCreate (next : UserRequest)
  | createUser (password : String)
  deriving DecidableEq

inductive UserResult where
  | created (id : Nat) (user : User) (password : String)
  | deleted
  | served (id : Nat)
  | error (e : UserError)
  deriving DecidableEq

/-- The next statement of a request: of `AuthSession` with `GetOrCreate`, of the adapter's
`CreateUser`, of the service's `CreateUser` or of `SoftDeleteUser`. -/
inductive UserPc where
  | authSession (actor : Nat) (next : UserRequest)
  | getByEmail (email name : String) (next : UserRequest)
  | promoteIfFirstUser (id : Nat) (user : User) (next : UserRequest)
  | promote (id : Nat) (next : UserRequest)
  | hasSuperAdmin (email name : String) (next : UserRequest)
  | insert (u : NewUser) (caller : CreateCaller)
  | conflictGet (u : NewUser) (caller : CreateCaller)
  | conflictUpdate (id : Nat) (u : NewUser) (caller : CreateCaller)
  | conflictSet (id : Nat) (user : User) (mustChangePassword : Bool) (caller : CreateCaller)
  | createUser (email name lastname : String)
  | generatePassword (u : NewUser)
  | hashPassword (u : NewUser) (password : String)
  | authulaUser (u : NewUser) (password : String)
  | authulaAccount (id : Nat) (u : NewUser) (password : String)
  | getRequester (requester target : Nat)
  | softDelete (target : Nat)
  | returned (result : UserResult)
  deriving DecidableEq

namespace UserPc

/-- The request after its caller has been materialised. -/
def serve (id : Nat) : UserRequest → UserPc
  | .createUser email name lastname => .createUser email name lastname
  | .softDelete target => .getRequester id target
  | .other => .returned (.served id)

/-- The adapter's `CreateUser` returns a user. -/
def finish (id : Nat) (user : User) : CreateCaller → UserPc
  | .getOrCreate next => serve id next
  | .createUser password => .returned (.created id user password)

def fail (e : UserError) : UserPc := .returned (.error e)

/-- The first-user rule. -/
def newUser (email name lastname : String) (hasSuperAdmin : Bool) : NewUser :=
  if hasSuperAdmin then ⟨email, name, lastname, .user, true⟩
  else ⟨email, name, lastname, .superAdmin, false⟩

/-- The row that Authula inserts has the defaults of the columns that it does not know. -/
def authulaRow (email name : String) : User := ⟨email, name, "", .user, true, false⟩

/-- The statement of a request, and its next one. -/
def perform (db : UsersDb) (commit : Commit) (fresh : String) : UserPc → UserPc × UsersDb
  | .authSession actor next =>
    if commit ≠ .done then (fail .unauthorized, db)
    else
      match db.users.lookup actor with
      | none => (fail .unauthorized, db)
      | some u =>
        if u.email = "" then (fail .unauthorized, db) else (.getByEmail u.email u.name next, db)
  | .getByEmail email name next =>
    if commit ≠ .done then (fail .store, db)
    else
      match db.getByEmail email with
      | some (id, user) => (.promoteIfFirstUser id user next, db)
      | none => (.hasSuperAdmin email name next, db)
  | .promoteIfFirstUser id user next =>
    if commit ≠ .done then (fail .store, db)
    else if db.hasSuperAdmin || user.role = .superAdmin then (serve id next, db)
    else (.promote id next, db)
  | .promote id next =>
    match db.promoteToSuperAdmin id with
    | .error e => (fail (if commit = .done then e else .store), db)
    | .ok (_, db') => settle commit db db' (serve id next) (fail .store)
  | .hasSuperAdmin email name next =>
    if commit ≠ .done then (fail .store, db)
    -- The role is decided here, and written by a later statement.
    else (.insert (newUser email name "" db.hasSuperAdmin) (.getOrCreate next), db)
  | .insert u caller =>
    let user := ⟨u.email, u.name, u.lastname, u.role, u.mustChangePassword, false⟩
    match db.insert user with
    -- The address is taken: the row that has it is updated instead.
    | none => (if commit = .done then .conflictGet u caller else fail .store, db)
    | some (id, db') => settle commit db db' (finish id user caller) (fail .store)
  | .conflictGet u caller =>
    if commit ≠ .done then (fail .store, db)
    else
      match db.getByEmail u.email with
      | none => (fail .notFound, db)
      | some (id, _) => (.conflictUpdate id u caller, db)
  | .conflictUpdate id u caller =>
    match db.updateUser id u.name u.lastname with
    | none => (fail (if commit = .done then .notFound else .store), db)
    | some (user, db') =>
      settle commit db db' (.conflictSet id user u.mustChangePassword caller) (fail .store)
  | .conflictSet id user mustChangePassword caller =>
    settle commit db (db.setMustChangePassword id mustChangePassword)
      (finish id { user with mustChangePassword } caller) (fail .store)
  | .createUser email name lastname =>
    if commit ≠ .done then (fail .store, db)
    else (.generatePassword (newUser email name lastname db.hasSuperAdmin), db)
  | .generatePassword u =>
    if commit ≠ .done then (fail .store, db) else (.hashPassword u fresh, db)
  | .hashPassword u password =>
    if commit ≠ .done then (fail .store, db) else (.authulaUser u password, db)
  | .authulaUser u password =>
    match db.insert (authulaRow u.email u.name) with
    | none => (fail .store, db)
    | some (id, db') => settle commit db db' (.authulaAccount id u password) (fail .store)
  | .authulaAccount id u password =>
    match db.createAccount ⟨id, u.email, password⟩ with
    | none => (fail .store, db)
    | some db' => settle commit db db' (.insert u (.createUser password)) (fail .store)
  | .getRequester requester target =>
    if commit ≠ .done then (fail .store, db)
    else
      match db.getByID requester with
      | none => (fail .notFound, db)
      | some user =>
        -- A super admin cannot delete itself, and anybody else only itself.
        if user.role = .superAdmin ∧ requester = target then (fail .forbidden, db)
        else if user.role ≠ .superAdmin ∧ requester ≠ target then (fail .forbidden, db)
        else (.softDelete target, db)
  | .softDelete target =>
    settle commit db (db.softDeleteUser target) (.returned .deleted) (fail .store)
  | .returned result => (.returned result, db)

end UserPc

/-! ## The system -/

structure UsersState where
  db : UsersDb
  calls : List UserPc

/-- `signUp` is the route of Authula, which inserts a user and its credential; its hook then
mirrors the user, as a request with nothing else to do. -/
inductive UserAction where
  | signUp (email name password : String)
  | request (actor : Nat) (next : UserRequest)
  | run (k : Nat) (commit : Commit) (fresh : String)

namespace UsersState

def new : UsersState := ⟨.empty, []⟩

def step (s : UsersState) : UserAction → Option UsersState
  | .signUp email name password => do
    let (id, db) ← s.db.insert (UserPc.authulaRow email name)
    let db ← db.createAccount ⟨id, email, password⟩
    return { s with db, calls := s.calls ++ [.authSession id .other] }
  | .request actor next => some { s with calls := s.calls ++ [.authSession actor next] }
  | .run k commit fresh => do
    let pc ← s.calls[k]?
    let (pc, db) := pc.perform s.db commit fresh
    return ⟨db, s.calls.set k pc⟩

end UsersState

end OpenGps.Backend
