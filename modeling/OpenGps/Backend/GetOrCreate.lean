import OpenGps.Backend.UserCreation

/-!
# Races of `GetOrCreate`

Calls of `GetOrCreate`, for the same or for different addresses, statement by statement, beside the
sign-ups of Authula that insert into the same table. The database does not fail, each statement is
atomic and the two unique indexes are enforced, and no row is deleted.

The statements are those of `UserPc`; here a call keeps its address and ends with the user that it
returns.
-/

namespace OpenGps.Backend

open OpenGps.Lib UsersDb

def NewUser.row (u : NewUser) : User :=
  ⟨u.email, u.name, u.lastname, u.role, u.mustChangePassword, false⟩

/-- No row has the address. -/
def UsersDb.emailFree (db : UsersDb) (email : String) : Bool :=
  db.users.rows.all fun row => row.2.email ≠ email

theorem UsersDb.emailFree_iff {db : UsersDb} {email : String} :
    db.emailFree email = true ↔ ¬ db.HasEmail email := by
  rw [emailFree, List.all_eq_true]
  constructor
  · rintro h ⟨id, u, hu, hemail⟩
    exact of_decide_eq_true (h (id, u) (Table.mem_rows.mpr hu)) hemail
  · intro h row hrow
    exact decide_eq_true fun hemail => h ⟨row.1, row.2, Table.mem_rows.mp hrow, hemail⟩

/-- The next statement of a call, or how it has ended. -/
inductive GetOrCreatePc where
  | getByEmail
  | promoteIfFirstUser (id : Nat) (user : User)
  | promote (id : Nat)
  | hasSuperAdmin
  | insert (u : NewUser)
  | conflictGet (u : NewUser)
  | conflictUpdate (id : Nat) (u : NewUser)
  | conflictSet (id : Nat) (user : User) (mustChangePassword : Bool)
  | returned (id : Nat) (user : User)
  | failed (e : UserError)
  deriving DecidableEq

namespace GetOrCreatePc

def ended : GetOrCreatePc → Bool
  | .returned _ _ | .failed _ => true
  | _ => false

/-- The statement of a call for the address and the name, and its next one. -/
def perform (db : UsersDb) (email name : String) : GetOrCreatePc → GetOrCreatePc × UsersDb
  | .getByEmail =>
    match db.getByEmail email with
    | some (id, user) => (.promoteIfFirstUser id user, db)
    | none => (.hasSuperAdmin, db)
  | .promoteIfFirstUser id user =>
    if db.hasSuperAdmin || user.role = .superAdmin then (.returned id user, db)
    else (.promote id, db)
  | .promote id =>
    match db.promoteToSuperAdmin id with
    | .error e => (.failed e, db)
    | .ok (user, db') => (.returned id user, db')
  | .hasSuperAdmin => (.insert (UserPc.newUser email name "" db.hasSuperAdmin), db)
  | .insert u =>
    match db.insert u.row with
    -- Whichever index has refused the row, the adapter takes the address to be taken.
    | none => (.conflictGet u, db)
    | some (id, db') => (.returned id u.row, db')
  | .conflictGet u =>
    match db.getByEmail u.email with
    | none => (.failed .notFound, db)
    | some (id, _) => (.conflictUpdate id u, db)
  | .conflictUpdate id u =>
    match db.updateUser id u.name u.lastname with
    | none => (.failed .notFound, db)
    | some (user, db') => (.conflictSet id user u.mustChangePassword, db')
  | .conflictSet id user mustChangePassword =>
    (.returned id { user with mustChangePassword },
      db.setMustChangePassword id mustChangePassword)
  | .returned id user => (.returned id user, db)
  | .failed e => (.failed e, db)

/-- The statement as one of a request that goes on with `next`. -/
def toUserPc (email name : String) (next : UserRequest) : GetOrCreatePc → UserPc
  | .getByEmail => .getByEmail email name next
  | .promoteIfFirstUser id user => .promoteIfFirstUser id user next
  | .promote id => .promote id next
  | .hasSuperAdmin => .hasSuperAdmin email name next
  | .insert u => .insert u (.getOrCreate next)
  | .conflictGet u => .conflictGet u (.getOrCreate next)
  | .conflictUpdate id u => .conflictUpdate id u (.getOrCreate next)
  | .conflictSet id user mustChangePassword =>
    .conflictSet id user mustChangePassword (.getOrCreate next)
  | .returned id _ => UserPc.serve id next
  | .failed e => UserPc.fail e

/-- A call does what the request does whose caller it materialises. -/
theorem perform_toUserPc {db : UsersDb} {email name : String} {pc : GetOrCreatePc}
    (next : UserRequest) (fresh : String) (h : pc.ended = false) :
    (pc.toUserPc email name next).perform db .done fresh =
      ((pc.perform db email name).1.toUserPc email name next,
        (pc.perform db email name).2) := by
  cases pc with
  | getByEmail =>
    simp only [toUserPc, perform, UserPc.perform]
    cases db.getByEmail email with
    | none => rfl
    | some row => rfl
  | promoteIfFirstUser id user =>
    simp only [toUserPc, perform, UserPc.perform]
    cases db.hasSuperAdmin || decide (user.role = .superAdmin) with
    | false => rfl
    | true => rfl
  | promote id =>
    simp only [toUserPc, perform, UserPc.perform]
    cases db.promoteToSuperAdmin id with
    | error e => rfl
    | ok r => rfl
  | hasSuperAdmin => rfl
  | insert u =>
    simp only [toUserPc, perform, UserPc.perform]
    change (match db.insert u.row with | none => _ | some (id, db') => _) = _
    cases db.insert u.row with
    | none => rfl
    | some r => rfl
  | conflictGet u =>
    simp only [toUserPc, perform, UserPc.perform]
    cases db.getByEmail u.email with
    | none => rfl
    | some row => rfl
  | conflictUpdate id u =>
    simp only [toUserPc, perform, UserPc.perform]
    cases db.updateUser id u.name u.lastname with
    | none => rfl
    | some r => rfl
  | conflictSet id user mustChangePassword => rfl
  | returned | failed => cases h

/-- The statement writes the role of a super-admin. -/
def asksRole : GetOrCreatePc → Bool
  | .promote _ => true
  | .insert u => u.role = .superAdmin
  | _ => false

/-- The statement asks for the role of a super-admin that another row has. An insert does so only
where its address is free: otherwise the row of the address is there to fall back on. -/
def violatesRole (db : UsersDb) : GetOrCreatePc → Bool
  | .promote id => !db.vacant id
  | .insert u => u.role = .superAdmin && !db.vacant db.nextID && db.emailFree u.email
  | _ => false

theorem not_violatesRole {db : UsersDb} {pc : GetOrCreatePc} (h : pc.asksRole = false) :
    pc.violatesRole db = false := by
  cases pc with
  | promote id => cases h
  | insert u =>
    rw [asksRole] at h
    rw [violatesRole, h]
    rfl
  | getByEmail | promoteIfFirstUser | hasSuperAdmin | conflictGet | conflictUpdate | conflictSet
  | returned | failed => rfl

/-- A call that finds a super-admin does not go for the role. -/
theorem perform_asksRole {db : UsersDb} {email name : String} {pc : GetOrCreatePc}
    (hcrown : db.hasSuperAdmin = true) (h : pc.asksRole = false) :
    (pc.perform db email name).1.asksRole = false := by
  cases pc with
  | hasSuperAdmin =>
    simp only [perform, hcrown]
    rfl
  | promoteIfFirstUser id user =>
    simp only [perform, hcrown, Bool.true_or, if_true]
    rfl
  | getByEmail | promote | insert | conflictGet | conflictUpdate =>
    simp only [perform]
    split
    · rfl
    · rfl
  | conflictSet | returned | failed => rfl

/-- The statement is an insert that one of the indexes refuses. -/
def refuses (db : UsersDb) : GetOrCreatePc → Bool
  | .insert u => !db.accepts u.row
  | _ => false

/-- How many statements a call executes at most from here on. -/
def rank : GetOrCreatePc → Nat
  | .getByEmail => 6
  | .hasSuperAdmin => 5
  | .insert _ => 4
  | .conflictGet _ => 3
  | .conflictUpdate _ _ | .promoteIfFirstUser _ _ => 2
  | .conflictSet _ _ _ | .promote _ => 1
  | .returned _ _ | .failed _ => 0

theorem ended_iff_rank {pc : GetOrCreatePc} : pc.ended = true ↔ pc.rank = 0 := by
  cases pc <;> simp [ended, rank]

theorem perform_rank_lt {db : UsersDb} {email name : String} {pc : GetOrCreatePc}
    (h : pc.ended = false) : (pc.perform db email name).1.rank < pc.rank := by
  cases pc with
  | returned | failed => cases h
  | hasSuperAdmin | conflictSet => simp [perform, rank]
  | getByEmail | promoteIfFirstUser | promote | insert | conflictGet | conflictUpdate =>
    simp only [perform]
    split
    · simp [rank]
    · simp [rank]

end GetOrCreatePc

/-! ## The system -/

/-- A call, how many statements it has executed, whether its insert has been refused, and whether a
statement of it has asked for the role of a super-admin that another row had: a promotion, or an
insert for an address that no row had. -/
structure GetOrCreateCall where
  email : String
  name : String
  pc : GetOrCreatePc
  statements : Nat
  refused : Bool
  outranked : Bool

namespace GetOrCreateCall

def start (email name : String) : GetOrCreateCall :=
  ⟨email, name, if email = "" then .failed .unauthorized else .getByEmail, 0, false, false⟩

def perform (db : UsersDb) (c : GetOrCreateCall) : GetOrCreateCall × UsersDb :=
  let (pc, db') := c.pc.perform db c.email c.name
  ({ c with
      pc
      statements := c.statements + 1
      refused := c.refused || c.pc.refuses db
      outranked := c.outranked || c.pc.violatesRole db }, db')

end GetOrCreateCall

structure GetOrCreateState where
  db : UsersDb
  calls : List GetOrCreateCall

/-- `signUp` is the insert of Authula. -/
inductive GetOrCreateAction where
  | signUp (email name : String)
  | call (email name : String)
  | run (k : Nat)

namespace GetOrCreateState

def new (db : UsersDb) : GetOrCreateState := ⟨db, []⟩

def step (s : GetOrCreateState) : GetOrCreateAction → Option GetOrCreateState
  | .signUp email name => do
    let (_, db) ← s.db.insert (UserPc.authulaRow email name)
    return { s with db }
  | .call email name => some { s with calls := s.calls ++ [.start email name] }
  | .run k => do
    let c ← s.calls[k]?
    if c.pc.ended then none
    else
      let (c, db) := c.perform s.db
      return ⟨db, s.calls.set k c⟩

end GetOrCreateState

/-! ## Rows -/

namespace UsersDb

def Undeleted (db : UsersDb) : Prop := ∀ id u, db.users.lookup id = some u → u.deleted = false

/-- The rows stay, each in the relation to what it was, and what is new is active and, if it is a
super-admin's, without the flag. -/
structure Rows (P : User → User → Prop) (db db' : UsersDb) : Prop where
  later : ∀ id u, db.users.lookup id = some u → ∃ v, db'.users.lookup id = some v ∧ P u v
  back : ∀ id v, db'.users.lookup id = some v → (∃ u, db.users.lookup id = some u ∧ P u v) ∨
    v.deleted = false ∧ (v.role = .superAdmin → v.mustChangePassword = false)

variable {P : User → User → Prop} {db db' : UsersDb}

theorem Rows.refl (hrefl : ∀ u, P u u) : Rows P db db :=
  ⟨fun _ u hu => ⟨u, hu, hrefl u⟩, fun _ v hv => .inl ⟨v, hv, hrefl v⟩⟩

theorem Rows.insert {u : User} {id : Nat} (hrefl : ∀ u, P u u)
    (h : db.insert u = some (id, db')) (hactive : u.deleted = false)
    (hflag : u.role = .superAdmin → u.mustChangePassword = false) : Rows P db db' := by
  obtain ⟨-, hlater, hback⟩ := insert_rows h
  refine ⟨fun j v hv => ⟨v, hlater j v hv, hrefl v⟩, fun j v hv => ?_⟩
  rcases hback j v hv with rfl | hold
  · exact .inr ⟨hactive, hflag⟩
  · exact .inl ⟨v, hold, hrefl v⟩

theorem Rows.modify {id : Nat} {f : User → User} {hemail : ∀ u, (f u).email = u.email}
    {hrole : ∀ u, (f u).role = .superAdmin → u.role = .superAdmin ∨ db.Vacant id}
    (hrefl : ∀ u, P u u) (hrow : ∀ u, db.users.lookup id = some u → P u (f u)) :
    Rows P db (db.modify id f hemail hrole) := by
  refine ⟨fun j u hu => ?_, fun j v hv => ?_⟩
  · obtain ⟨v, hv, rfl | ⟨rfl, rfl⟩⟩ := modify_rows hemail hrole hu
    · exact ⟨v, hv, hrefl v⟩
    · exact ⟨f u, hv, hrow u hu⟩
  · obtain ⟨u, hu, rfl | ⟨rfl, rfl⟩⟩ := updateAt_back hv
    · exact .inl ⟨v, hu, hrefl v⟩
    · exact .inl ⟨u, hu, hrow u hu⟩

theorem Rows.update {id : Nat} {f : User → User} {v : User}
    {hemail : ∀ u, (f u).email = u.email}
    {hrole : ∀ u, (f u).role = .superAdmin → u.role = .superAdmin}
    (hrefl : ∀ u, P u u) (hrow : ∀ u, db.users.lookup id = some u → P u (f u))
    (h : db.update id f hemail hrole = some (v, db')) : Rows P db db' := by
  rw [UsersDb.update, Option.map_eq_some_iff] at h
  obtain ⟨u, -, h⟩ := h
  cases h
  exact .modify hrefl hrow

theorem Rows.setMustChangePassword {id : Nat} {mustChangePassword : Bool} (hrefl : ∀ u, P u u)
    (hrow : ∀ u, db.users.lookup id = some u → P u { u with mustChangePassword }) :
    Rows P db (db.setMustChangePassword id mustChangePassword) := by
  rw [UsersDb.setMustChangePassword]
  cases h : db.update id _ _ _ with
  | none => exact .refl hrefl
  | some r => exact .update hrefl hrow h

end UsersDb

/-- A call of the address has been refused its insert. -/
def Refused (calls : List GetOrCreateCall) (email : String) : Prop :=
  ∃ c ∈ calls, c.refused = true ∧ c.email = email

/-- Calls are not forgotten, and one that has been refused stays so. -/
def Remembers (calls calls' : List GetOrCreateCall) : Prop :=
  ∀ c ∈ calls, c.refused = true →
    ∃ c' ∈ calls', c'.refused = true ∧ c'.email = c.email ∧ c'.name = c.name

theorem Refused.mono {calls calls' : List GetOrCreateCall} {email : String}
    (h : Refused calls email) (hcalls : Remembers calls calls') : Refused calls' email := by
  obtain ⟨c, hc, hrefused, hemail⟩ := h
  obtain ⟨c', hc', hrefused', hsame, -⟩ := hcalls c hc hrefused
  exact ⟨c', hc', hrefused', hsame.trans hemail⟩

/-- What a run may do to a row: a promotion gives it the role and clears its flag, and a call of the
address that has been refused its insert completes it. -/
structure RowKept (calls : List GetOrCreateCall) (u v : User) : Prop where
  email : v.email = u.email
  deleted : v.deleted = u.deleted
  names : v.name = u.name ∧ v.lastname = u.lastname ∨
    ∃ c ∈ calls, c.refused = true ∧ c.email = u.email ∧ v.name = c.name ∧ v.lastname = ""
  standing : (v.role = u.role ∧ v.mustChangePassword = u.mustChangePassword) ∨
    (u.role = .user ∧ v.role = .superAdmin ∧ v.mustChangePassword = false) ∨
    Refused calls u.email ∧ (u.role = .superAdmin → v.role = .superAdmin)

namespace RowKept

variable {calls : List GetOrCreateCall} {u v w : User}

theorem refl (calls : List GetOrCreateCall) (u : User) : RowKept calls u u :=
  ⟨rfl, rfl, .inl ⟨rfl, rfl⟩, .inl ⟨rfl, rfl⟩⟩

theorem role (h : RowKept calls u v) (hu : u.role = .superAdmin) : v.role = .superAdmin := by
  rcases h.standing with ⟨hsame, -⟩ | ⟨huser, -⟩ | ⟨-, hkeeps⟩
  · exact hsame.trans hu
  · cases hu.symm.trans huser
  · exact hkeeps hu

theorem trans (h : RowKept calls u v) (h' : RowKept calls v w) : RowKept calls u w where
  email := h'.email.trans h.email
  deleted := h'.deleted.trans h.deleted
  names := by
    rcases h'.names with ⟨hname, hlastname⟩ | ⟨c, hc, hrefused, hemail, hrest⟩
    · rw [hname, hlastname]
      exact h.names
    · exact .inr ⟨c, hc, hrefused, hemail.trans h.email, hrest⟩
  standing := by
    have hrole : u.role = .superAdmin → w.role = .superAdmin := fun hu => h'.role (h.role hu)
    rcases h'.standing with ⟨hsame, hflag⟩ | ⟨huser, hpromoted⟩ | ⟨hrefused, -⟩
    · rw [hsame, hflag]
      rw [hsame] at hrole
      exact h.standing.imp_right fun h => h.imp_right fun h => ⟨h.1, hrole⟩
    · -- Nobody is promoted who was a super-admin before.
      refine .inr (.inl ⟨?_, hpromoted⟩)
      cases hur : u.role with
      | user => rfl
      | superAdmin => cases huser.symm.trans (h.role hur)
    · exact .inr (.inr ⟨h.email ▸ hrefused, hrole⟩)

theorem mono {calls' : List GetOrCreateCall} (h : RowKept calls u v)
    (hcalls : Remembers calls calls') : RowKept calls' u v where
  email := h.email
  deleted := h.deleted
  names := h.names.imp_right fun ⟨c, hc, hrefused, hemail, hname, hlastname⟩ => by
    obtain ⟨c', hc', hrefused', hsame, hname'⟩ := hcalls c hc hrefused
    exact ⟨c', hc', hrefused', hsame.trans hemail, hname.trans hname'.symm, hlastname⟩
  standing := h.standing.imp_right fun h => h.imp_right fun ⟨hrefused, hrole⟩ =>
    ⟨hrefused.mono hcalls, hrole⟩

end RowKept

/-! ## Statements -/

namespace UsersDb

/-- The row of the id has the address. -/
def Holds (db : UsersDb) (email : String) (id : Nat) : Prop :=
  ∃ v, db.users.lookup id = some v ∧ v.email = email

/-- The user is that of the row, which has the address, up to what calls have done to it since. -/
def Shows (db : UsersDb) (calls : List GetOrCreateCall) (email : String) (id : Nat) (user : User) :
    Prop :=
  user.email = email ∧ ∃ v, db.users.lookup id = some v ∧ RowKept calls user v

/-- No super-admin has the flag, unless a call of the address has been refused its insert. -/
def Cleared (db : UsersDb) (calls : List GetOrCreateCall) : Prop :=
  ∀ id u, db.users.lookup id = some u → u.role = .superAdmin →
    u.mustChangePassword = false ∨ Refused calls u.email

variable {db db' : UsersDb} {email : String} {id : Nat} {u v user : User}
  {calls : List GetOrCreateCall}

theorem Shows.holds (h : db.Shows calls email id user) : db.Holds email id := by
  obtain ⟨hemail, v, hv, hkept⟩ := h
  exact ⟨v, hv, hkept.email.trans hemail⟩

theorem Shows.of_row (hv : db.users.lookup id = some v) (hemail : v.email = email) :
    db.Shows calls email id v := ⟨hemail, v, hv, .refl calls v⟩

theorem Shows.mono {calls' : List GetOrCreateCall} (h : db.Shows calls email id user)
    (hcalls : Remembers calls calls') : db.Shows calls' email id user := by
  obtain ⟨hemail, v, hv, hkept⟩ := h
  exact ⟨hemail, v, hv, hkept.mono hcalls⟩

theorem Cleared.mono {calls' : List GetOrCreateCall} (h : db.Cleared calls)
    (hcalls : Remembers calls calls') : db.Cleared calls' :=
  fun i u hu hr => (h i u hu hr).imp_right fun hrefused => hrefused.mono hcalls

theorem Holds.hasEmail (h : db.Holds email id) : db.HasEmail email := ⟨id, h⟩

section
variable (hrows : Rows (RowKept calls) db db')
include hrows

theorem Rows.holds (h : db.Holds email id) : db'.Holds email id := by
  obtain ⟨u, hu, hemail⟩ := h
  obtain ⟨v, hv, hkept⟩ := hrows.later id u hu
  exact ⟨v, hv, hkept.email.trans hemail⟩

theorem Rows.shows (h : db.Shows calls email id user) : db'.Shows calls email id user := by
  obtain ⟨hemail, u, hu, hkept⟩ := h
  obtain ⟨v, hv, hkept'⟩ := hrows.later id u hu
  exact ⟨hemail, v, hv, hkept.trans hkept'⟩

theorem Rows.undeleted (h : db.Undeleted) : db'.Undeleted := by
  intro i v hv
  rcases hrows.back i v hv with ⟨u, hu, hkept⟩ | ⟨hactive, -⟩
  · exact hkept.deleted.trans (h i u hu)
  · exact hactive

theorem Rows.hasCrown (h : db.HasCrown) : db'.HasCrown := by
  obtain ⟨i, u, hu, hr, hactive⟩ := h
  obtain ⟨v, hv, hkept⟩ := hrows.later i u hu
  exact ⟨i, v, hv, hkept.role hr, hkept.deleted.trans hactive⟩

theorem Rows.cleared (h : db.Cleared calls) : db'.Cleared calls := by
  intro i v hv hr
  rcases hrows.back i v hv with ⟨u, hu, hkept⟩ | ⟨-, hflag⟩
  · rw [hkept.email]
    rcases hkept.standing with ⟨hsame, hflag⟩ | ⟨-, -, hflag⟩ | ⟨hrefused, -⟩
    · rw [hflag]
      exact h i u hu (hsame.symm.trans hr)
    · exact .inl hflag
    · exact .inr hrefused
  · exact .inl (hflag hr)

end

theorem insert_eq_none (h : db.insert u = none) : db.accepts u = false := by
  rw [insert] at h
  split at h
  · cases h
  · next haccepts => exact Bool.eq_false_iff.mpr haccepts

/-- A refused row asks for a role that is taken, unless its address is. -/
theorem taken_of_refused (h : db.accepts u = false) :
    db.HasEmail u.email ∨ u.role = .superAdmin ∧ db.vacant db.nextID = false := by
  by_contra hnot
  rw [not_or, not_and, Bool.not_eq_false, vacant_iff] at hnot
  refine Bool.eq_false_iff.mp h (accepts_iff.mpr fun i w hw => ⟨fun heq => ?_, fun hr hwr => ?_⟩)
  · exact hnot.1 ⟨i, w, hw, heq⟩
  · -- No row has the next id.
    exact Nat.ne_of_lt (db.fresh i w hw) (hnot.2 hr i w hw hwr)

theorem update_eq_some {f : User → User} {hemail : ∀ u, (f u).email = u.email}
    {hrole : ∀ u, (f u).role = .superAdmin → u.role = .superAdmin}
    (h : db.update id f hemail hrole = some (v, db')) :
    ∃ u, db.users.lookup id = some u ∧ v = f u ∧ db'.users.lookup id = some v := by
  rw [update, Option.map_eq_some_iff] at h
  obtain ⟨u, hu, h⟩ := h
  cases h
  have hu := (getByID_eq_some.mp hu).1
  exact ⟨u, hu, rfl, Table.lookup_updateAt_self.trans (congrArg _ hu)⟩

theorem promote_eq_ok (calls : List GetOrCreateCall)
    (h : db.promoteToSuperAdmin id = .ok (v, db')) :
    ∃ u, db.users.lookup id = some u ∧ v.email = u.email ∧ db'.users.lookup id = some v ∧
      (db.Cleared calls → Rows (RowKept calls) db db') := by
  rw [promoteToSuperAdmin] at h
  split at h
  · cases h
  · next u hu =>
    have hu := (getByID_eq_some.mp hu).1
    split at h
    · next hvacant =>
      cases h
      refine ⟨u, hu, rfl, Table.lookup_updateAt_self.trans (congrArg _ hu), fun hcleared => ?_⟩
      refine .modify (RowKept.refl calls) fun w hw => ⟨rfl, rfl, .inl ⟨rfl, rfl⟩, ?_⟩
      by_cases hr : w.role = .superAdmin
      · rcases hcleared id w hw hr with hflag | hrefused
        · exact .inl ⟨hr.symm, hflag.symm⟩
        · exact .inr (.inr ⟨hrefused, fun _ => rfl⟩)
      · refine .inr (.inl ⟨?_, rfl, rfl⟩)
        cases hw : w.role with
        | user => rfl
        | superAdmin => exact absurd hw hr
    · cases h

theorem promote_eq_error {e : UserError} (h : db.promoteToSuperAdmin id = .error e) :
    db.getByID id = none ∨ db.vacant id = false := by
  rw [promoteToSuperAdmin] at h
  split at h
  · next hnone => exact .inl hnone
  · split at h
    · cases h
    · next hvacant => exact .inr (Bool.eq_false_iff.mpr hvacant)

end UsersDb

/-! ## Calls -/

namespace GetOrCreateCall

variable {db : UsersDb} {c : GetOrCreateCall} {calls : List GetOrCreateCall}

@[simp] theorem perform_pc : (c.perform db).1.pc = (c.pc.perform db c.email c.name).1 := rfl

@[simp] theorem perform_db : (c.perform db).2 = (c.pc.perform db c.email c.name).2 := rfl

@[simp] theorem perform_statements : (c.perform db).1.statements = c.statements + 1 := rfl

@[simp] theorem perform_refused :
    (c.perform db).1.refused = (c.refused || c.pc.refuses db) := rfl

@[simp] theorem perform_outranked :
    (c.perform db).1.outranked = (c.outranked || c.pc.violatesRole db) := rfl

theorem refused_of (h : c.refused = true ∨ c.pc.refuses db = true) :
    (c.perform db).1.refused = true := by
  rw [perform_refused, Bool.or_eq_true]
  exact h

theorem outranked_of (h : c.outranked = true ∨ c.pc.violatesRole db = true) :
    (c.perform db).1.outranked = true := by
  rw [perform_outranked, Bool.or_eq_true]
  exact h

/-- The row that the call is to insert. -/
structure Inserts (c : GetOrCreateCall) (u : NewUser) : Prop where
  email : u.email = c.email
  name : u.name = c.name
  lastname : u.lastname = ""
  flag : u.role = .superAdmin → u.mustChangePassword = false

/-- What holds of a call at each statement. -/
def StandsAt (db : UsersDb) (calls : List GetOrCreateCall) (c : GetOrCreateCall) :
    GetOrCreatePc → Prop
  | .getByEmail | .hasSuperAdmin => True
  | .promoteIfFirstUser id user => db.Shows calls c.email id user
  | .promote id => db.Holds c.email id
  | .insert u => c.Inserts u
  | .conflictGet u =>
    c.Inserts u ∧ c.refused = true ∧ (db.HasEmail c.email ∨ c.outranked = true)
  | .conflictUpdate id u => c.Inserts u ∧ c.refused = true ∧ db.Holds c.email id
  | .conflictSet id user _ => c.refused = true ∧ db.Shows calls c.email id user
  | .returned id user => db.Shows calls c.email id user
  | .failed _ => c.email = "" ∨ c.outranked = true

def Stands (db : UsersDb) (calls : List GetOrCreateCall) (c : GetOrCreateCall) : Prop :=
  c.StandsAt db calls c.pc

theorem inserts_newUser (c : GetOrCreateCall) (hasSuperAdmin : Bool) :
    c.Inserts (UserPc.newUser c.email c.name "" hasSuperAdmin) := by
  unfold UserPc.newUser
  split
  · exact ⟨rfl, rfl, rfl, fun hr => by cases hr⟩
  · exact ⟨rfl, rfl, rfl, fun _ => rfl⟩

theorem Stands.mono {calls' : List GetOrCreateCall} (h : c.Stands db calls)
    (hcalls : Remembers calls calls') : c.Stands db calls' := by
  unfold Stands at h ⊢
  generalize c.pc = pc at h ⊢
  cases pc with
  | promoteIfFirstUser id user | returned id user => exact Shows.mono h hcalls
  | conflictSet id user mustChangePassword => exact ⟨h.1, h.2.mono hcalls⟩
  | getByEmail | hasSuperAdmin | promote | insert | conflictGet | conflictUpdate | failed => exact h

theorem Stands.rows {db' : UsersDb} (h : c.Stands db calls)
    (hrows : Rows (RowKept calls) db db') : c.Stands db' calls := by
  unfold Stands at h ⊢
  generalize c.pc = pc at h ⊢
  cases pc with
  | promoteIfFirstUser id user | returned id user => exact hrows.shows h
  | promote id => exact hrows.holds h
  | conflictGet u =>
    exact ⟨h.1, h.2.1, h.2.2.imp_left fun ⟨id, hid⟩ => (hrows.holds hid).hasEmail⟩
  | conflictUpdate id u => exact ⟨h.1, h.2.1, hrows.holds h.2.2⟩
  | conflictSet id user mustChangePassword => exact ⟨h.1, hrows.shows h.2⟩
  | getByEmail | hasSuperAdmin | insert | failed => exact h

/-! ### A statement of a call -/

/-- A statement changes no row but that of the promotion, and the one that a refused call
completes. -/
theorem Stands.perform_rows (h : c.Stands db calls)
    (hcleared : ∀ id, c.pc = .promote id → db.Cleared calls)
    (hself : (c.perform db).1 ∈ calls) : Rows (RowKept calls) db (c.perform db).2 := by
  have hrefl := RowKept.refl calls
  unfold Stands at h
  rw [perform_db]
  cases hpc : c.pc with
  | getByEmail | promoteIfFirstUser | conflictGet =>
    simp only [GetOrCreatePc.perform]
    split
    · exact .refl hrefl
    · exact .refl hrefl
  | hasSuperAdmin | returned | failed => exact .refl hrefl
  | promote id =>
    simp only [GetOrCreatePc.perform]
    split
    · exact .refl hrefl
    · next u db' hpromote =>
      obtain ⟨-, -, -, -, hrows⟩ := promote_eq_ok calls hpromote
      exact hrows (hcleared id hpc)
  | insert u =>
    rw [hpc] at h
    simp only [GetOrCreatePc.perform]
    split
    · exact .refl hrefl
    · next id db' hinsert => exact .insert hrefl hinsert rfl h.flag
  | conflictUpdate id u =>
    rw [hpc] at h
    obtain ⟨hinserts, hrefused, v, hv, hemail⟩ := h
    simp only [GetOrCreatePc.perform]
    split
    · exact .refl hrefl
    · next user db' hupdate =>
      refine .update hrefl (fun w hw => ?_) hupdate
      obtain rfl := Option.some.inj (hv.symm.trans hw)
      exact ⟨rfl, rfl, .inr ⟨_, hself, refused_of (.inl hrefused), hemail.symm, hinserts.name,
        hinserts.lastname⟩, .inl ⟨rfl, rfl⟩⟩
  | conflictSet id user mustChangePassword =>
    rw [hpc] at h
    obtain ⟨hrefused, hshows⟩ := h
    obtain ⟨v, hv, hemail⟩ := hshows.holds
    refine .setMustChangePassword hrefl fun w hw => ?_
    obtain rfl := Option.some.inj (hv.symm.trans hw)
    exact ⟨rfl, rfl, .inl ⟨rfl, rfl⟩,
      .inr (.inr ⟨⟨_, hself, refused_of (.inl hrefused), hemail.symm⟩, fun hr => hr⟩)⟩

/-- A call that has found its address goes on with the row of it. -/
theorem shows_of_getByEmail {email : String} {id : Nat} {user : User}
    (h : db.getByEmail email = some (id, user)) : db.Shows calls email id user := by
  obtain ⟨hrow, hemail, -⟩ := getByEmail_eq_some h
  exact .of_row hrow hemail

theorem Stands.perform (h : c.Stands db calls) (hdb : db.Undeleted)
    (hself : (c.perform db).1 ∈ calls) :
    (c.perform db).1.Stands (c.perform db).2 calls := by
  unfold Stands at h ⊢
  rw [perform_db, perform_pc]
  cases hpc : c.pc with
  | getByEmail =>
    simp only [GetOrCreatePc.perform]
    split
    · next id user hfound => exact shows_of_getByEmail hfound
    · trivial
  | promoteIfFirstUser id user =>
    rw [hpc] at h
    simp only [GetOrCreatePc.perform]
    split
    · exact h
    · exact h.holds
  | promote id =>
    rw [hpc] at h
    simp only [GetOrCreatePc.perform]
    split
    · next e herror =>
      obtain ⟨v, hv, -⟩ := h
      rcases promote_eq_error herror with hnone | hvacant
      · -- The row is there, and not deleted.
        rw [getByID_eq_some.mpr ⟨hv, hdb id v hv⟩] at hnone
        cases hnone
      · refine .inr (outranked_of (.inr ?_))
        simp [hpc, GetOrCreatePc.violatesRole, hvacant]
    · next u db' hpromote =>
      obtain ⟨v, hv, hemail⟩ := h
      obtain ⟨w, hw, hsame, hrow, -⟩ := promote_eq_ok calls hpromote
      obtain rfl := Option.some.inj (hv.symm.trans hw)
      exact .of_row hrow (hsame.trans hemail)
  | hasSuperAdmin => exact inserts_newUser (c.perform db).1 db.hasSuperAdmin
  | insert u =>
    rw [hpc] at h
    simp only [GetOrCreatePc.perform]
    split
    · next hnone =>
      have hrefused := insert_eq_none hnone
      refine ⟨⟨h.email, h.name, h.lastname, h.flag⟩, refused_of (.inr ?_), ?_⟩
      · simp [hpc, GetOrCreatePc.refuses, hrefused]
      · by_cases hemail : db.HasEmail u.email
        · exact .inl (h.email ▸ hemail)
        · obtain ⟨hrole, htaken⟩ := (taken_of_refused hrefused).resolve_left hemail
          have hrole : u.role = .superAdmin := hrole
          refine .inr (outranked_of (.inr ?_))
          simp [hpc, GetOrCreatePc.violatesRole, hrole, htaken, emailFree_iff.mpr hemail]
    · next id db' hinsert => exact .of_row (insert_rows hinsert).1 h.email
  | conflictGet u =>
    rw [hpc] at h
    obtain ⟨hinserts, hrefused, htaken⟩ := h
    simp only [GetOrCreatePc.perform]
    split
    · next hnone =>
      rcases htaken with ⟨id, v, hv, hemail⟩ | houtranked
      · rw [hinserts.email, getByEmail_of_active hv hemail (hdb id v hv)] at hnone
        cases hnone
      · exact .inr (outranked_of (.inl houtranked))
    · next id user hfound =>
      have hshows : db.Shows calls u.email id user := shows_of_getByEmail hfound
      have hholds := hshows.holds
      rw [hinserts.email] at hholds
      exact ⟨⟨hinserts.email, hinserts.name, hinserts.lastname, hinserts.flag⟩,
        refused_of (.inl hrefused), hholds⟩
  | conflictUpdate id u =>
    rw [hpc] at h
    obtain ⟨-, hrefused, v, hv, hemail⟩ := h
    simp only [GetOrCreatePc.perform]
    split
    · next hnone =>
      obtain ⟨db', hupdate, -⟩ := updateUser_of_active u.name u.lastname hv (hdb id v hv)
      cases hupdate.symm.trans hnone
    · next user db' hupdate =>
      obtain ⟨w, hw, rfl, hrow⟩ := update_eq_some hupdate
      obtain rfl := Option.some.inj (hv.symm.trans hw)
      exact ⟨refused_of (.inl hrefused), .of_row hrow hemail⟩
  | conflictSet id user mustChangePassword =>
    rw [hpc] at h
    obtain ⟨hrefused, hemail, v, hv, hkept⟩ := h
    have hrow := (setMustChangePassword_of_active mustChangePassword hv (hdb id v hv)).1
    refine ⟨hemail, _, hrow, hkept.email, hkept.deleted, hkept.names, .inr (.inr ⟨?_, hkept.role⟩)⟩
    exact ⟨_, hself, refused_of (.inl hrefused), hemail.symm⟩
  | returned id user =>
    rw [hpc] at h
    exact h
  | failed e =>
    rw [hpc] at h
    exact h.imp_right fun houtranked => outranked_of (.inl houtranked)

/-- The call does not go for the role. -/
structure Calm (c : GetOrCreateCall) : Prop where
  outranked : c.outranked = false
  asksRole : c.pc.asksRole = false

theorem Calm.perform (h : c.Calm) (hcrown : db.HasCrown) : (c.perform db).1.Calm where
  outranked := by
    rw [perform_outranked, h.outranked, GetOrCreatePc.not_violatesRole h.asksRole]
    rfl
  asksRole := GetOrCreatePc.perform_asksRole (hasSuperAdmin_iff.mpr hcrown) h.asksRole

theorem start_stands (email name : String) : (start email name).Stands db calls := by
  unfold Stands start
  dsimp only
  split
  · next hempty => exact .inl hempty
  · trivial

theorem start_calm (email name : String) : (start email name).Calm := by
  unfold start
  split
  · exact ⟨rfl, rfl⟩
  · exact ⟨rfl, rfl⟩

/-! ### Every call ends -/

/-- The call ends after six statements at most. -/
def Timely (c : GetOrCreateCall) : Prop := c.statements + c.pc.rank ≤ 6

theorem start_timely (email name : String) : (start email name).Timely := by
  unfold Timely start
  dsimp only
  split
  · decide
  · decide

theorem Timely.perform (h : c.Timely) (hrunning : c.pc.ended = false) :
    (c.perform db).1.Timely := by
  have hlt : (c.pc.perform db c.email c.name).1.rank < c.pc.rank :=
    GetOrCreatePc.perform_rank_lt hrunning
  unfold Timely at h ⊢
  rw [perform_statements, perform_pc]
  omega

theorem Timely.ended (h : c.Timely) :
    c.statements ≤ 6 ∧ (c.statements = 6 → c.pc.ended = true) := by
  unfold Timely at h
  rw [GetOrCreatePc.ended_iff_rank]
  omega

/-- What a call is promised: it executes six statements at most; the user that it returns is that of
the row of its address, up to what the calls have done to it since; and it fails only where it has
asked for a role that another row had. -/
structure Answers (db : UsersDb) (calls : List GetOrCreateCall) (c : GetOrCreateCall) : Prop where
  ends : c.statements ≤ 6 ∧ (c.statements = 6 → c.pc.ended = true)
  returned : ∀ id user, c.pc = .returned id user → db.Shows calls c.email id user
  failed : ∀ e, c.pc = .failed e → c.email = "" ∨ c.outranked = true

theorem Stands.answers (h : c.Stands db calls) (htimely : c.Timely) : c.Answers db calls := by
  unfold Stands at h
  refine ⟨htimely.ended, fun id user hpc => ?_, fun e hpc => ?_⟩
  · rw [hpc] at h
    exact h
  · rw [hpc] at h
    exact h

end GetOrCreateCall

/-! ## Runs -/

namespace GetOrCreateState

open GetOrCreateCall

variable {s s' t : GetOrCreateState} {crowned : Prop}

theorem step_cases {a : GetOrCreateAction} (h : s.step a = some s') :
    (∃ email name id db, a = .signUp email name ∧
      s.db.insert (UserPc.authulaRow email name) = some (id, db) ∧ s' = { s with db }) ∨
    (∃ email name, a = .call email name ∧
      s' = { s with calls := s.calls ++ [.start email name] }) ∨
    (∃ k c, a = .run k ∧ s.calls[k]? = some c ∧ c.pc.ended = false ∧
      s' = ⟨(c.perform s.db).2, s.calls.set k (c.perform s.db).1⟩) := by
  cases a with
  | signUp email name =>
    simp only [step, Option.bind_eq_bind, Option.bind_eq_some_iff] at h
    obtain ⟨⟨id, db⟩, hinsert, h⟩ := h
    cases h
    exact .inl ⟨email, name, id, db, rfl, hinsert, rfl⟩
  | call email name =>
    cases h
    exact .inr (.inl ⟨email, name, rfl, rfl⟩)
  | run k =>
    simp only [step, Option.bind_eq_bind, Option.bind_eq_some_iff] at h
    obtain ⟨c, hc, h⟩ := h
    split at h
    · cases h
    · next hrunning =>
      cases h
      exact .inr (.inr ⟨k, c, rfl, hc, Bool.eq_false_iff.mpr hrunning, rfl⟩)

/-- A call that has not ended can execute its next statement. -/
theorem run_enabled {k : Nat} {c : GetOrCreateCall} (hc : s.calls[k]? = some c)
    (hrunning : c.pc.ended = false) : ∃ s', s.step (.run k) = some s' := by
  simp [step, hc, hrunning]

/-- `crowned` says that there was a super-admin at the start. -/
structure Inv (crowned : Prop) (s : GetOrCreateState) : Prop where
  undeleted : s.db.Undeleted
  cleared : crowned ∨ s.db.Cleared s.calls
  calm : crowned → s.db.HasCrown ∧ ∀ c ∈ s.calls, c.Calm
  stands : ∀ c ∈ s.calls, c.Stands s.db s.calls
  timely : ∀ c ∈ s.calls, c.Timely

/-- What the rows of a state are to those of a later one. -/
structure Later (s t : GetOrCreateState) : Prop where
  rows : ∀ id u, s.db.users.lookup id = some u →
    ∃ v, t.db.users.lookup id = some v ∧ RowKept t.calls u v
  calls : Remembers s.calls t.calls

theorem Later.refl (s : GetOrCreateState) : s.Later s :=
  ⟨fun _ u hu => ⟨u, hu, .refl _ u⟩, fun c hc hrefused => ⟨c, hc, hrefused, rfl, rfl⟩⟩

theorem Later.trans (h : s.Later s') (h' : s'.Later t) : s.Later t where
  rows := fun id u hu => by
    obtain ⟨v, hv, hkept⟩ := h.rows id u hu
    obtain ⟨w, hw, hkept'⟩ := h'.rows id v hv
    exact ⟨w, hw, (hkept.mono h'.calls).trans hkept'⟩
  calls := fun c hc hrefused => by
    obtain ⟨c', hc', hrefused', hemail, hname⟩ := h.calls c hc hrefused
    obtain ⟨c'', hc'', hrefused'', hemail', hname'⟩ := h'.calls c' hc' hrefused'
    exact ⟨c'', hc'', hrefused'', hemail'.trans hemail, hname'.trans hname⟩

theorem remembers_set {calls : List GetOrCreateCall} {k : Nat} {c : GetOrCreateCall}
    (hc : calls[k]? = some c) (db : UsersDb) :
    Remembers calls (calls.set k (c.perform db).1) := by
  intro b hb hrefused
  obtain ⟨j, hj⟩ := List.mem_iff_getElem?.mp hb
  by_cases hjk : k = j
  · subst hjk
    obtain rfl := Option.some.inj (hc.symm.trans hj)
    have hk := (List.getElem?_eq_some_iff.mp hc).1
    exact ⟨_, List.mem_set hk _, refused_of (.inl hrefused), rfl, rfl⟩
  · have hkept : (calls.set k (c.perform db).1)[j]? = some b := by
      rw [List.getElem?_set_ne hjk]
      exact hj
    exact ⟨b, List.mem_of_getElem? hkept, hrefused, rfl, rfl⟩

/-- A change of the rows that keeps them, and of the calls that keeps or replaces them. -/
theorem Inv.change {db : UsersDb} {calls : List GetOrCreateCall} (h : s.Inv crowned)
    (hrows : Rows (RowKept calls) s.db db) (hremembers : Remembers s.calls calls)
    (hcalls : ∀ c ∈ calls, c ∈ s.calls ∨ c.Stands db calls ∧ c.Timely ∧ (crowned → c.Calm)) :
    Inv crowned ⟨db, calls⟩ ∧ s.Later ⟨db, calls⟩ := by
  refine ⟨⟨hrows.undeleted h.undeleted, ?_, fun hcrowned => ⟨?_, fun c hc => ?_⟩, fun c hc => ?_,
    fun c hc => ?_⟩, hrows.later, hremembers⟩
  · exact h.cleared.imp_right fun hcleared => hrows.cleared (hcleared.mono hremembers)
  · exact hrows.hasCrown (h.calm hcrowned).1
  · rcases hcalls c hc with hold | ⟨-, -, hcalm⟩
    · exact (h.calm hcrowned).2 c hold
    · exact hcalm hcrowned
  · rcases hcalls c hc with hold | ⟨hstands, -⟩
    · exact ((h.stands c hold).mono hremembers).rows hrows
    · exact hstands
  · rcases hcalls c hc with hold | ⟨-, htimely, -⟩
    · exact h.timely c hold
    · exact htimely

theorem Inv.step {a : GetOrCreateAction} (h : s.Inv crowned) (hstep : s.step a = some s') :
    s'.Inv crowned ∧ s.Later s' := by
  rcases step_cases hstep with ⟨email, name, id, db, -, hinsert, rfl⟩ | ⟨email, name, -, rfl⟩ |
    ⟨k, c, -, hc, hrunning, rfl⟩
  · have hrows : Rows (RowKept s.calls) s.db db :=
      .insert (RowKept.refl s.calls) hinsert rfl fun hr => by cases hr
    exact h.change hrows (Later.refl s).calls fun c hc => .inl hc
  · refine h.change (.refl (RowKept.refl _)) (fun c hc hrefused => ?_) fun c hc => ?_
    · exact ⟨c, List.mem_append_left _ hc, hrefused, rfl, rfl⟩
    · rcases List.mem_append.mp hc with hold | hnew
      · exact .inl hold
      · obtain rfl := List.mem_singleton.mp hnew
        exact .inr ⟨start_stands email name, start_timely email name,
          fun _ => start_calm email name⟩
  · have hmem := List.mem_of_getElem? hc
    have hremembers := remembers_set hc s.db
    have hself : (c.perform s.db).1 ∈ s.calls.set k (c.perform s.db).1 :=
      List.mem_set (List.getElem?_eq_some_iff.mp hc).1 _
    have hstands := (h.stands c hmem).mono hremembers
    have hrows := hstands.perform_rows (fun id hpc => ?_) hself
    · refine h.change hrows hremembers fun b hb => ?_
      rcases List.mem_or_eq_of_mem_set hb with hold | rfl
      · exact .inl hold
      · exact .inr ⟨hstands.perform h.undeleted hself, (h.timely c hmem).perform hrunning,
          fun hcrowned => ((h.calm hcrowned).2 c hmem).perform (h.calm hcrowned).1⟩
    · -- Nobody is promoted if there was a super-admin at the start.
      rcases h.cleared with hcrowned | hcleared
      · have hasks := ((h.calm hcrowned).2 c hmem).asksRole
        rw [hpc] at hasks
        cases hasks
      · exact hcleared.mono hremembers

theorem inv_new {db : UsersDb} (hdb : db.Undeleted) : (new db).Inv db.HasCrown where
  undeleted := hdb
  cleared := by
    by_cases hcrown : db.HasCrown
    · exact .inl hcrown
    · exact .inr fun id u hu hr => absurd ⟨id, u, hu, hr, hdb id u hu⟩ hcrown
  calm := fun hcrown => ⟨hcrown, fun c hc => by cases hc⟩
  stands := fun c hc => by cases hc
  timely := fun c hc => by cases hc

end GetOrCreateState

open GetOrCreateState

/-- From any table without deleted rows: every call ends after six of its statements at most, with
the user of its own row, unless it has asked for the role of a super-admin that another row had (an
insert, for an address that none had), which no call does where there was one at the start; and the
rows of every state are kept. -/
theorem get_or_create_races {as bs : List GetOrCreateAction} {db : UsersDb}
    {s t : GetOrCreateState} (hdb : db.Undeleted) (hrun : Run step (.new db) as s)
    (hlater : Run step s bs t) :
    (∀ k c, t.calls[k]? = some c → c.Answers t.db t.calls ∧
      (c.pc.ended = false → ∃ t', t.step (.run k) = some t') ∧
      (db.HasCrown → c.outranked = false)) ∧
    ∀ id u, s.db.users.lookup id = some u →
      ∃ v, t.db.users.lookup id = some v ∧ RowKept t.calls u v := by
  have hs : s.Inv db.HasCrown :=
    hrun.invariant (fun s a t hs hstep => (hs.step hstep).1) (inv_new hdb)
  have ht : t.Inv db.HasCrown ∧ s.Later t := by
    have hstep : ∀ u a v, u.Inv db.HasCrown ∧ s.Later u → GetOrCreateState.step u a = some v →
        v.Inv db.HasCrown ∧ s.Later v := by
      rintro u a v ⟨hu, hsu⟩ hstep
      obtain ⟨hv, huv⟩ := hu.step hstep
      exact ⟨hv, hsu.trans huv⟩
    exact hlater.invariant hstep ⟨hs, .refl s⟩
  obtain ⟨ht, hrows⟩ := ht
  refine ⟨fun k c hc => ?_, hrows.rows⟩
  have hmem := List.mem_of_getElem? hc
  exact ⟨(ht.stands c hmem).answers (ht.timely c hmem), fun hrunning => run_enabled hc hrunning,
    fun hcrown => ((ht.calm hcrown).2 c hmem).outranked⟩

/-- Two calls have found no row of their address, and one has inserted it. -/
def raceToInsert : List GetOrCreateAction :=
  [.call "a@b.c" "A", .call "a@b.c" "A", .run 0, .run 1, .run 0, .run 1, .run 0]

theorem get_or_create_races_insert : ∃ s t : GetOrCreateState,
    Run step (.new .empty) raceToInsert s ∧ Run step s (List.replicate 4 (.run 1)) t ∧
      t.calls.map (·.pc) = List.replicate 2
        (.returned 0 ⟨"a@b.c", "A", "", .superAdmin, false, false⟩) ∧
      (∀ c, t.calls[1]? = some c → c.Answers t.db t.calls) ∧
      ∀ id u, s.db.users.lookup id = some u →
        ∃ v, t.db.users.lookup id = some v ∧ RowKept t.calls u v := by
  obtain ⟨t, hboth, ht⟩ := Option.map_eq_some_iff.mp (show
    ((raceToInsert ++ List.replicate 4 (GetOrCreateAction.run 1)).foldlM step (.new .empty)).map
        (fun t => t.calls.map (·.pc)) =
      some (List.replicate 2 (.returned 0 ⟨"a@b.c", "A", "", .superAdmin, false, false⟩)) by
    decide +kernel)
  obtain ⟨s, hrun, hlater⟩ := Run.append_iff.mp hboth
  have hraces := get_or_create_races (fun id u hu => by cases hu) hrun hlater
  exact ⟨s, t, hrun, hlater, ht, fun c hc => (hraces.1 1 c hc).1, hraces.2⟩

/-- The first sign-up, up to the promotion by the call of its hook. -/
def firstSignUp : List GetOrCreateAction :=
  [.signUp "a@b.c" "A", .call "a@b.c" "A", .run 0, .run 0]

/-- The row of Authula has the flag, and the promotion clears it. -/
theorem first_sign_up_clears_flag : ∃ (s t : GetOrCreateState) (u v : User),
    Run step (.new .empty) firstSignUp s ∧ Run step s [.run 0] t ∧
      s.db.users.lookup 0 = some u ∧ t.db.users.lookup 0 = some v ∧
      u.mustChangePassword = true ∧ v.mustChangePassword = false := by
  obtain ⟨s, hrun, hs⟩ := Option.map_eq_some_iff.mp (show
    (firstSignUp.foldlM step (.new .empty)).map (fun s => s.db.users.lookup 0) =
      some (some ⟨"a@b.c", "A", "", .user, true, false⟩) by decide +kernel)
  obtain ⟨t, hboth, ht⟩ := Option.map_eq_some_iff.mp (show
    ((firstSignUp ++ [GetOrCreateAction.run 0]).foldlM step (.new .empty)).map
        (fun t => t.db.users.lookup 0) =
      some (some ⟨"a@b.c", "A", "", .superAdmin, false, false⟩) by decide +kernel)
  obtain ⟨s', hrun', hlater⟩ := Run.append_iff.mp hboth
  obtain rfl : s = s' := Option.some.inj (hrun.symm.trans hrun')
  exact ⟨s, t, _, _, hrun, hlater, hs, ht, rfl, rfl⟩

end OpenGps.Backend
