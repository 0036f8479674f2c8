import OpenGps.Lib.Run
import OpenGps.Backend.Users

/-!
# The super-admin

A request that has passed `GetOrCreate` has seen an active super-admin or made one. From then on
nobody is promoted, so the role that `SoftDeleteUser` reads is still right when it deletes, and the
super-admin stays.
-/

namespace OpenGps.Backend

open OpenGps.Lib

namespace UsersDb

/-- The user is an active super-admin. -/
def Crown (db : UsersDb) (id : Nat) : Prop :=
  ∃ u, db.users.lookup id = some u ∧ u.role = .superAdmin ∧ u.deleted = false

def HasCrown (db : UsersDb) : Prop := ∃ id, db.Crown id

/-- A deleted user holds the address. -/
def DeadEmail (db : UsersDb) (email : String) : Prop :=
  ∃ id u, db.users.lookup id = some u ∧ u.email = email ∧ u.deleted = true

def HasEmail (db : UsersDb) (email : String) : Prop :=
  ∃ id u, db.users.lookup id = some u ∧ u.email = email

/-- What a statement does to the rows: they keep their email and the role of a super-admin, only the
target is deleted, and a new super-admin is active. -/
structure Kept (db db' : UsersDb) (target : Option Nat) : Prop where
  later : ∀ id u, db.users.lookup id = some u → ∃ v, db'.users.lookup id = some v ∧
    v.email = u.email ∧ (u.role = .superAdmin → v.role = .superAdmin) ∧
      (v.deleted = u.deleted ∨ target = some id ∧ v.deleted = true)
  back : ∀ id v, db'.users.lookup id = some v → v.role = .superAdmin →
    (∃ u, db.users.lookup id = some u ∧ u.role = .superAdmin) ∨ v.deleted = false

theorem Kept.refl (db : UsersDb) (target : Option Nat) : Kept db db target :=
  ⟨fun _ u hu => ⟨u, hu, rfl, id, .inl rfl⟩, fun _ v hv hr => .inl ⟨v, hv, hr⟩⟩

theorem Kept.of_users {db db' : UsersDb} {target : Option Nat} (h : db'.users = db.users) :
    Kept db db' target := by
  refine ⟨fun id u hu => ⟨u, h ▸ hu, rfl, fun hr => hr, .inl rfl⟩, fun id v hv hr => .inl ⟨v, ?_, hr⟩⟩
  rw [h] at hv
  exact hv

/-- An insert that is accepted adds its row and leaves the others. -/
theorem insert_rows {db db' : UsersDb} {u : User} {id : Nat} (h : db.insert u = some (id, db')) :
    db'.users.lookup id = some u ∧
      (∀ j v, db.users.lookup j = some v → db'.users.lookup j = some v) ∧
        ∀ j v, db'.users.lookup j = some v → v = u ∨ db.users.lookup j = some v := by
  rw [insert] at h
  split at h
  · cases h
    refine ⟨AList.lookup_insert _, fun j v hv => ?_, fun j v hv => ?_⟩
    · exact (AList.lookup_insert_ne (Nat.ne_of_lt (db.fresh j v hv))).trans hv
    · rcases insert_back hv with ⟨-, hnew⟩ | ⟨-, hold⟩
      · exact .inl hnew
      · exact .inr hold
  · cases h

/-- A change of one row leaves the others. -/
theorem modify_rows {db : UsersDb} {id j : Nat} {f : User → User} {u : User}
    (hemail : ∀ u, (f u).email = u.email)
    (hrole : ∀ u, (f u).role = .superAdmin → u.role = .superAdmin ∨ db.Vacant id)
    (hu : db.users.lookup j = some u) :
    ∃ v, (db.modify id f hemail hrole).users.lookup j = some v ∧ (v = u ∨ j = id ∧ v = f u) := by
  by_cases hj : j = id
  · subst hj
    exact ⟨f u, Table.lookup_updateAt_self.trans (congrArg _ hu), .inr ⟨rfl, rfl⟩⟩
  · exact ⟨u, (Table.lookup_updateAt_of_ne hj).trans hu, .inl rfl⟩

theorem kept_insert {db db' : UsersDb} {u : User} {id : Nat} {target : Option Nat}
    (h : db.insert u = some (id, db')) (hactive : u.deleted = false) : Kept db db' target := by
  obtain ⟨-, hlater, hback⟩ := insert_rows h
  refine ⟨fun j v hv => ⟨v, hlater j v hv, rfl, fun hr => hr, .inl rfl⟩, fun j v hv hr => ?_⟩
  rcases hback j v hv with rfl | hold
  · exact .inr hactive
  · exact .inl ⟨v, hold, hr⟩

/-- A change of one row. -/
theorem kept_modify {db : UsersDb} {id : Nat} {f : User → User}
    {hemail : ∀ u, (f u).email = u.email}
    {hrole : ∀ u, (f u).role = .superAdmin → u.role = .superAdmin ∨ db.Vacant id}
    {target : Option Nat} (hkeeps : ∀ u, u.role = .superAdmin → (f u).role = .superAdmin)
    (hdeleted : ∀ u, db.users.lookup id = some u → (f u).deleted = u.deleted ∨
      target = some id ∧ (f u).deleted = true)
    (hback : ∀ u, db.users.lookup id = some u → (f u).role = .superAdmin →
      u.role = .superAdmin ∨ (f u).deleted = false) :
    Kept db (db.modify id f hemail hrole) target := by
  refine ⟨fun j u hu => ?_, fun j v hv hr => ?_⟩
  · obtain ⟨v, hv, rfl | ⟨rfl, rfl⟩⟩ := modify_rows hemail hrole hu
    · exact ⟨v, hv, rfl, fun hr => hr, .inl rfl⟩
    · exact ⟨f u, hv, hemail u, hkeeps u, hdeleted u hu⟩
  · obtain ⟨u, hu, rfl | ⟨rfl, rfl⟩⟩ := updateAt_back hv
    · exact .inl ⟨v, hu, hr⟩
    · rcases hback u hu hr with hold | hactive
      · exact .inl ⟨u, hu, hold⟩
      · exact .inr hactive

theorem kept_update {db db' : UsersDb} {id : Nat} {f : User → User} {v : User}
    {hemail : ∀ u, (f u).email = u.email}
    {hrole : ∀ u, (f u).role = .superAdmin → u.role = .superAdmin} {target : Option Nat}
    (h : db.update id f hemail hrole = some (v, db'))
    (hkeeps : ∀ u, u.role = .superAdmin → (f u).role = .superAdmin)
    (hdeleted : ∀ u, (f u).deleted = u.deleted ∨ target = some id ∧ (f u).deleted = true) :
    Kept db db' target := by
  rw [update, Option.map_eq_some_iff] at h
  obtain ⟨u, -, h⟩ := h
  cases h
  exact kept_modify hkeeps (fun u _ => hdeleted u) fun u _ hr => .inl (hrole u hr)

theorem kept_setMustChangePassword (db : UsersDb) (id : Nat) (b : Bool) (target : Option Nat) :
    Kept db (db.setMustChangePassword id b) target := by
  rw [setMustChangePassword]
  cases h : db.update id _ _ _ with
  | none => exact .refl db target
  | some r => exact kept_update h (fun _ hr => hr) fun _ => .inl rfl

theorem kept_softDeleteUser (db : UsersDb) (id : Nat) :
    Kept db (db.softDeleteUser id) (some id) := by
  rw [softDeleteUser]
  cases h : db.update id _ _ _ with
  | none => exact .refl db _
  | some r => exact kept_update h (fun _ hr => hr) fun _ => .inr ⟨rfl, rfl⟩

theorem getByID_eq_some {db : UsersDb} {id : Nat} {u : User} :
    db.getByID id = some u ↔ db.users.lookup id = some u ∧ u.deleted = false := by
  rw [getByID, Option.filter_eq_some_iff, Bool.not_eq_true']

theorem promote_spec {db db' : UsersDb} {id : Nat} {u : User}
    (h : db.promoteToSuperAdmin id = .ok (u, db')) : Kept db db' none ∧ db'.Crown id := by
  rw [promoteToSuperAdmin] at h
  split at h
  · cases h
  · next v hv =>
    obtain ⟨hlookup, hactive⟩ := getByID_eq_some.mp hv
    split at h
    · cases h
      refine ⟨kept_modify (fun _ _ => rfl) (fun _ _ => .inl rfl) fun w hw _ => .inr ?_, _,
        Table.lookup_updateAt_self.trans (congrArg _ hlookup), rfl, hactive⟩
      obtain rfl := Option.some.inj (hlookup.symm.trans hw)
      exact hactive
    · cases h

theorem Kept.settle {db db' : UsersDb} {target : Option Nat} (h : Kept db db' target)
    (commit : Commit) (ok err : UserPc) : Kept db (Backend.settle commit db db' ok err).2 target := by
  rcases settle_snd commit db db' ok err with hsame | hnew
  · rw [hsame]
    exact .refl db target
  · rw [hnew]
    exact h

end UsersDb

/-- The row a statement deletes. -/
def UserPc.target : UserPc → Option Nat
  | .softDelete target => some target
  | _ => none

open UsersDb

theorem UserPc.perform_kept (db : UsersDb) (commit : Commit) (fresh : String) (pc : UserPc) :
    Kept db (pc.perform db commit fresh).2 pc.target := by
  cases pc with
  | promote id next =>
    simp only [perform]
    split
    · exact .refl db _
    · next u db' hpromote => exact (promote_spec hpromote).1.settle commit _ _
  | insert u caller =>
    simp only [perform]
    split
    · exact .refl db _
    · next id db' hinsert => exact (kept_insert hinsert rfl).settle commit _ _
  | authulaUser u password =>
    simp only [perform]
    split
    · exact .refl db _
    · next id db' hinsert => exact (kept_insert hinsert rfl).settle commit _ _
  | conflictUpdate id u caller =>
    simp only [perform]
    split
    · exact .refl db _
    · next user db' hupdate =>
      exact (kept_update hupdate (fun _ hr => hr) fun _ => .inl rfl).settle commit _ _
  | conflictSet id user b caller => exact (kept_setMustChangePassword db id b _).settle commit _ _
  | softDelete target => exact (kept_softDeleteUser db target).settle commit _ _
  | authulaAccount id u password =>
    simp only [perform]
    split
    · exact .refl db _
    · next db' haccount =>
      refine (Kept.of_users ?_).settle commit _ _
      rw [createAccount] at haccount
      split at haccount
      · cases haccount
        rfl
      · cases haccount
  | authSession | getByEmail | promoteIfFirstUser | hasSuperAdmin | conflictGet | createUser
  | generatePassword | hashPassword | getRequester | returned =>
    simp only [perform]
    repeat' split
    all_goals exact .refl db _

namespace UsersDb

/-! ## What persists -/

section
variable {db db' : UsersDb} {target : Option Nat}

theorem Crown.kept {c : Nat} (h : db.Crown c) (hkept : Kept db db' target)
    (hspared : target ≠ some c) : db'.Crown c := by
  obtain ⟨u, hu, hrole, hactive⟩ := h
  obtain ⟨v, hv, -, hr, hdeleted⟩ := hkept.later c u hu
  refine ⟨v, hv, hr hrole, ?_⟩
  rcases hdeleted with hsame | ⟨htarget, -⟩
  · exact hsame.trans hactive
  · exact absurd htarget hspared

theorem HasEmail.kept {email : String} (h : db.HasEmail email) (hkept : Kept db db' target) :
    db'.HasEmail email := by
  obtain ⟨id, u, hu, hemail⟩ := h
  obtain ⟨v, hv, hsame, -⟩ := hkept.later id u hu
  exact ⟨id, v, hv, hsame.trans hemail⟩

theorem DeadEmail.kept {email : String} (h : db.DeadEmail email) (hkept : Kept db db' target) :
    db'.DeadEmail email := by
  obtain ⟨id, u, hu, hemail, hdeleted⟩ := h
  obtain ⟨v, hv, hsame, -, hd⟩ := hkept.later id u hu
  refine ⟨id, v, hv, hsame.trans hemail, ?_⟩
  rcases hd with hd | ⟨-, hd⟩
  · exact hd.trans hdeleted
  · exact hd

end

theorem getByEmail_eq_some {db : UsersDb} {email : String} {id : Nat} {u : User}
    (h : db.getByEmail email = some (id, u)) :
    db.users.lookup id = some u ∧ u.email = email ∧ u.deleted = false := by
  have hrow := Table.mem_rows.mp (List.mem_of_find?_eq_some h)
  have hmatch := List.find?_some h
  rw [Bool.and_eq_true, decide_eq_true_eq, Bool.not_eq_true'] at hmatch
  exact ⟨hrow, hmatch⟩

theorem DeadEmail.getByEmail {db : UsersDb} {email : String} (h : db.DeadEmail email) :
    db.getByEmail email = none := by
  obtain ⟨i, v, hv, hemail, hdeleted⟩ := h
  cases hfound : db.getByEmail email with
  | none => rfl
  | some row =>
    obtain ⟨hu, huemail, hactive⟩ := getByEmail_eq_some hfound
    obtain rfl := db.emails i row.1 v row.2 hv hu (hemail.trans huemail.symm)
    obtain rfl := Option.some.inj (hv.symm.trans hu)
    rw [hdeleted] at hactive
    cases hactive

/-- An address that no active user has is that of a deleted one. -/
theorem HasEmail.dead {db : UsersDb} {email : String} (h : db.HasEmail email)
    (hnone : db.getByEmail email = none) : db.DeadEmail email := by
  obtain ⟨id, u, hu, hemail⟩ := h
  refine ⟨id, u, hu, hemail, ?_⟩
  have hnot := List.find?_eq_none.mp hnone (id, u) (Table.mem_rows.mpr hu)
  simpa [hemail] using hnot

theorem HasEmail.insert {db : UsersDb} {u : User} (h : db.HasEmail u.email) :
    db.insert u = none := by
  obtain ⟨id, v, hv, hemail⟩ := h
  refine dif_neg fun haccepts => ?_
  exact (accepts_iff.mp haccepts id v hv).1 hemail

theorem hasSuperAdmin_iff {db : UsersDb} : db.hasSuperAdmin = true ↔ db.HasCrown := by
  rw [hasSuperAdmin, List.any_eq_true]
  constructor
  · rintro ⟨row, hrow, hmatch⟩
    rw [Bool.and_eq_true, decide_eq_true_eq, Bool.not_eq_true'] at hmatch
    exact ⟨row.1, row.2, Table.mem_rows.mp hrow, hmatch⟩
  · rintro ⟨id, u, hu, hrole, hactive⟩
    exact ⟨(id, u), Table.mem_rows.mpr hu, by simp [hrole, hactive]⟩

end UsersDb

/-! ## Invariant -/

/-- What holds of a request at each statement. One that looks for its caller's address finds the row
that `AuthSession` has found, so it never creates a user. -/
def UserPc.Ok (db : UsersDb) : UserPc → Prop
  | .getByEmail email _ _ => db.HasEmail email
  | .promoteIfFirstUser _ user _ => user.role = .superAdmin → db.HasCrown
  | .hasSuperAdmin email _ _ => db.DeadEmail email
  | .insert u (.getOrCreate _) | .conflictGet u (.getOrCreate _) => db.DeadEmail u.email
  | .conflictUpdate _ _ (.getOrCreate _) | .conflictSet _ _ _ (.getOrCreate _) => False
  | .softDelete target => ∃ c, db.Crown c ∧ c ≠ target
  | .createUser _ _ _ | .getRequester _ _ => db.HasCrown
  | _ => True

namespace UserPc

/-- No request is about to delete the super-admin. -/
theorem Ok.spared {db : UsersDb} {pc : UserPc} (h : pc.Ok db) {c : Nat} (hc : db.Crown c) :
    pc.target ≠ some c := by
  cases pc with
  | softDelete target =>
    obtain ⟨c', ⟨v, hv, hvr, -⟩, hne⟩ := h
    obtain ⟨u, hu, hur, -⟩ := hc
    obtain rfl := db.superAdmins c' c v u hv hu hvr hur
    exact fun heq => hne (Option.some.inj heq).symm
  | authSession | getByEmail | promoteIfFirstUser | promote | hasSuperAdmin | insert | conflictGet
  | conflictUpdate | conflictSet | createUser | generatePassword | hashPassword | authulaUser
  | authulaAccount | getRequester | returned => exact fun heq => by cases heq

theorem Ok.kept {db db' : UsersDb} {target : Option Nat} {pc : UserPc} (h : pc.Ok db)
    (hkept : Kept db db' target) (hspared : ∀ c, db.Crown c → target ≠ some c) : pc.Ok db' := by
  have hcrown : db.HasCrown → db'.HasCrown := fun ⟨c, hc⟩ => ⟨c, hc.kept hkept (hspared c hc)⟩
  cases pc with
  | getByEmail email name next => exact HasEmail.kept h hkept
  | promoteIfFirstUser id user next => exact fun hr => hcrown (h hr)
  | hasSuperAdmin email name next => exact DeadEmail.kept h hkept
  | insert u caller =>
    cases caller with
    | getOrCreate next => exact DeadEmail.kept h hkept
    | createUser password => trivial
  | conflictGet u caller =>
    cases caller with
    | getOrCreate next => exact DeadEmail.kept h hkept
    | createUser password => trivial
  | conflictUpdate id u caller =>
    cases caller with
    | getOrCreate next => exact h
    | createUser password => trivial
  | conflictSet id user b caller =>
    cases caller with
    | getOrCreate next => exact h
    | createUser password => trivial
  | createUser | getRequester => exact hcrown h
  | softDelete t =>
    obtain ⟨c, hc, hne⟩ := h
    exact ⟨c, hc.kept hkept (hspared c hc), hne⟩
  | authSession | promote | generatePassword | hashPassword | authulaUser | authulaAccount
  | returned => trivial

theorem Ok.serve {db : UsersDb} (h : db.HasCrown) (id : Nat) (next : UserRequest) :
    (UserPc.serve id next).Ok db := by
  cases next with
  | createUser | softDelete => exact h
  | other => trivial

theorem Ok.settle {db db' : UsersDb} {ok : UserPc} {e : UserError} (commit : Commit)
    (hok : ok.Ok db') : (Backend.settle commit db db' ok (fail e)).1.Ok
      (Backend.settle commit db db' ok (fail e)).2 := by
  cases commit with
  | done => exact hok
  | failed | unconfirmed => trivial

/-! ### Statements

Each statement leaves its call with what the next one relies on. -/

/-- Whoever is served without a promotion found a super-admin, or is one. -/
theorem Ok.promoteIfFirstUser {db : UsersDb} {commit : Commit} {fresh : String} {id : Nat}
    {user : User} {next : UserRequest} (h : (UserPc.promoteIfFirstUser id user next).Ok db) :
    ((UserPc.promoteIfFirstUser id user next).perform db commit fresh).1.Ok
      ((UserPc.promoteIfFirstUser id user next).perform db commit fresh).2 := by
  simp only [UserPc.perform]
  split
  · trivial
  · split
    · next hrole =>
      refine .serve ?_ id next
      rw [Bool.or_eq_true, decide_eq_true_eq] at hrole
      rcases hrole with hcrown | hr
      · exact hasSuperAdmin_iff.mp hcrown
      · exact h hr
    · trivial

/-- A deleted row still has its address, so that the insertion is refused. -/
theorem Ok.insert {db : UsersDb} {commit : Commit} {fresh : String} {u : NewUser} {caller : CreateCaller}
    (h : (UserPc.insert u caller).Ok db) :
    ((UserPc.insert u caller).perform db commit fresh).1.Ok
      ((UserPc.insert u caller).perform db commit fresh).2 := by
  cases caller with
  | getOrCreate next =>
    obtain ⟨id, v, hv, hemail, -⟩ := id h
    simp only [UserPc.perform]
    rw [HasEmail.insert ⟨id, v, hv, hemail⟩]
    dsimp only
    split
    · exact h
    · trivial
  | createUser password =>
    simp only [UserPc.perform]
    split
    · split
      · trivial
      · trivial
    · exact .settle commit trivial

/-- The read for the update of a deleted row finds no active one, and the call ends. -/
theorem Ok.conflictGet {db : UsersDb} {commit : Commit} {fresh : String} {u : NewUser}
    {caller : CreateCaller} (h : (UserPc.conflictGet u caller).Ok db) :
    ((UserPc.conflictGet u caller).perform db commit fresh).1.Ok
      ((UserPc.conflictGet u caller).perform db commit fresh).2 := by
  simp only [UserPc.perform]
  split
  · trivial
  · split
    · trivial
    · next id user hfound =>
      cases caller with
      | getOrCreate next =>
        rw [DeadEmail.getByEmail h] at hfound
        cases hfound
      | createUser password => trivial

/-- A requester who may delete the target is the super-admin, and not the target, or is the target,
and not the super-admin. -/
theorem Ok.getRequester {db : UsersDb} {commit : Commit} {fresh : String} {requester target : Nat}
    (h : (UserPc.getRequester requester target).Ok db) :
    ((UserPc.getRequester requester target).perform db commit fresh).1.Ok
      ((UserPc.getRequester requester target).perform db commit fresh).2 := by
  obtain ⟨c, v, hv, hvr, hva⟩ := id h
  simp only [UserPc.perform]
  split
  · trivial
  · split
    · trivial
    · next user hfound =>
      obtain ⟨hu, -⟩ := getByID_eq_some.mp hfound
      split
      · trivial
      · next hself =>
        split
        · trivial
        · next hother =>
          refine ⟨c, ⟨v, hv, hvr, hva⟩, ?_⟩
          rintro rfl
          by_cases hr : user.role = .superAdmin
          · exact hself ⟨hr, db.superAdmins requester c user v hu hv hr hvr⟩
          · have hsame : requester = c := not_not.mp fun hne => hother ⟨hr, hne⟩
            subst hsame
            obtain rfl := Option.some.inj (hu.symm.trans hv)
            exact hr hvr

theorem Ok.perform {db : UsersDb} {commit : Commit} {fresh : String} {pc : UserPc} (h : pc.Ok db) :
    (pc.perform db commit fresh).1.Ok (pc.perform db commit fresh).2 := by
  cases pc with
  | authSession actor next =>
    simp only [UserPc.perform]
    split
    · trivial
    · split
      · trivial
      · next u hu =>
        split
        · trivial
        · exact ⟨actor, u, hu, rfl⟩
  | getByEmail email name next =>
    simp only [UserPc.perform]
    split
    · trivial
    · split
      · next id user hfound =>
        obtain ⟨hu, -, hactive⟩ := getByEmail_eq_some hfound
        exact fun hr => ⟨id, user, hu, hr, hactive⟩
      · next hnone => exact HasEmail.dead h hnone
  | promoteIfFirstUser id user next => exact .promoteIfFirstUser h
  | promote id next =>
    simp only [UserPc.perform]
    split
    · trivial
    · next u db' hpromote => exact .settle commit (.serve ⟨id, (promote_spec hpromote).2⟩ id next)
  | hasSuperAdmin email name next =>
    simp only [UserPc.perform]
    split
    · trivial
    · have hemail : (newUser email name "" db.hasSuperAdmin).email = email := by
        unfold newUser
        split
        · rfl
        · rfl
      show db.DeadEmail _
      rw [hemail]
      exact h
  | insert u caller => exact .insert h
  | conflictGet u caller => exact .conflictGet h
  | conflictUpdate id u caller =>
    cases caller with
    | getOrCreate next => exact h.elim
    | createUser password =>
      simp only [UserPc.perform]
      split
      · trivial
      · exact .settle commit trivial
  | conflictSet id user b caller =>
    cases caller with
    | getOrCreate next => exact h.elim
    | createUser password => exact .settle commit trivial
  | createUser | generatePassword | hashPassword =>
    simp only [UserPc.perform]
    split
    · trivial
    · trivial
  | authulaUser u password =>
    simp only [UserPc.perform]
    split
    · trivial
    · exact .settle commit trivial
  | authulaAccount id u password =>
    simp only [UserPc.perform]
    split
    · trivial
    · exact .settle commit trivial
  | getRequester requester target => exact .getRequester h
  | softDelete target => exact .settle commit trivial
  | returned result => trivial

end UserPc

namespace UsersState

/-! ## Runs -/

/-- No super-admin is deleted. -/
def Active (db : UsersDb) : Prop :=
  ∀ id u, db.users.lookup id = some u → u.role = .superAdmin → u.deleted = false

structure CrownInv (s : UsersState) : Prop where
  active : Active s.db
  calls : ∀ pc ∈ s.calls, pc.Ok s.db

theorem Active.kept {db db' : UsersDb} {target : Option Nat} (h : Active db)
    (hkept : Kept db db' target) (hspared : ∀ c, db.Crown c → target ≠ some c) : Active db' := by
  intro id v hv hr
  rcases hkept.back id v hv hr with ⟨u, hu, hur⟩ | hactive
  · -- There was a super-admin, who is still active and is the only one.
    obtain ⟨c, hc⟩ : ∃ c, db.Crown c := ⟨_, u, hu, hur, h _ u hu hur⟩
    obtain ⟨w, hw, hwr, hactive⟩ := hc.kept hkept (hspared c hc)
    obtain rfl := db'.superAdmins id c v w hv hw hr hwr
    obtain rfl := Option.some.inj (hv.symm.trans hw)
    exact hactive
  · exact hactive

/-- A change of the tables by a statement that spares the super-admin. -/
theorem CrownInv.change {s : UsersState} {db : UsersDb} {target : Option Nat} (h : s.CrownInv)
    (hkept : Kept s.db db target) (hspared : ∀ c, s.db.Crown c → target ≠ some c) :
    CrownInv { s with db } :=
  ⟨h.active.kept hkept hspared, fun pc hpc => (h.calls pc hpc).kept hkept hspared⟩

theorem CrownInv.step {s s' : UsersState} {a : UserAction} (h : s.CrownInv)
    (hstep : s.step a = some s') : s'.CrownInv ∧ ∀ c, s.db.Crown c → s'.db.Crown c := by
  cases a with
  | signUp email name password =>
    simp only [UsersState.step, Option.bind_eq_bind, Option.bind_eq_some_iff] at hstep
    obtain ⟨⟨id, db₁⟩, hinsert, db₂, haccount, hstep⟩ := hstep
    cases hstep
    have hkept : Kept s.db db₁ none := kept_insert hinsert rfl
    have husers : db₂.users = db₁.users := by
      rw [createAccount] at haccount
      split at haccount
      · cases haccount
        rfl
      · cases haccount
    have hkept' : Kept db₁ db₂ none := .of_users husers
    have hnone : ∀ (db : UsersDb) c, db.Crown c → (none : Option Nat) ≠ some c :=
      fun _ _ _ heq => by cases heq
    have hinv := (h.change hkept (hnone _)).change hkept' (hnone _)
    refine ⟨⟨hinv.active, fun pc hpc => ?_⟩, fun c hc =>
      (hc.kept hkept (hnone _ c hc)).kept hkept' (hnone _ c (hc.kept hkept (hnone _ c hc)))⟩
    rcases List.mem_append.mp hpc with hold | hnew
    · exact hinv.calls pc hold
    · obtain rfl := List.mem_singleton.mp hnew
      trivial
  | request actor next =>
    cases hstep
    refine ⟨⟨h.active, fun pc hpc => ?_⟩, fun c hc => hc⟩
    rcases List.mem_append.mp hpc with hold | hnew
    · exact h.calls pc hold
    · obtain rfl := List.mem_singleton.mp hnew
      trivial
  | run k commit fresh =>
    simp only [UsersState.step, Option.bind_eq_bind, Option.bind_eq_some_iff] at hstep
    obtain ⟨pc, hpc, hstep⟩ := hstep
    cases hstep
    have hok := h.calls pc (List.mem_of_getElem? hpc)
    have hkept := pc.perform_kept s.db commit fresh
    have hinv := h.change hkept fun c hc => hok.spared hc
    refine ⟨⟨hinv.active, fun b hb => ?_⟩, fun c hc => hc.kept hkept (hok.spared hc)⟩
    rcases List.mem_or_eq_of_mem_set hb with hold | rfl
    · exact hinv.calls b hold
    · exact hok.perform

/-- The user is the super-admin of a state that a run has reached. -/
def Reigns (s : UsersState) (id : Nat) : Prop := s.CrownInv ∧ s.db.Crown id

theorem Reigns.step {s s' : UsersState} {a : UserAction} {id : Nat} (h : s.Reigns id)
    (hstep : s.step a = some s') : s'.Reigns id := by
  obtain ⟨hinv, hcrown⟩ := h.1.step hstep
  exact ⟨hinv, hcrown id h.2⟩

theorem crownInv_new : UsersState.new.CrownInv where
  active := fun id u hu => by cases hu
  calls := fun pc hpc => by cases hpc

end UsersState

/-- Once a user is super-admin, that user is so in every later state, active, and nobody else is. -/
theorem super_admin_stable {as bs : List UserAction} {s t : UsersState} {id : Nat} {u : User}
    (hrun : Run UsersState.step .new as s) (hu : s.db.users.lookup id = some u)
    (hrole : u.role = .superAdmin) (hlater : Run UsersState.step s bs t) :
    (∃ v, t.db.users.lookup id = some v ∧ v.role = .superAdmin ∧ v.deleted = false) ∧
      ∀ j w, t.db.users.lookup j = some w → w.role = .superAdmin → j = id := by
  have hinv : s.CrownInv := hrun.invariant (fun s a t hs hstep => (hs.step hstep).1)
    UsersState.crownInv_new
  have hstart : s.Reigns id := ⟨hinv, u, hu, hrole, hinv.active id u hu hrole⟩
  have hreigns : t.Reigns id :=
    hlater.invariant (fun _ _ _ hs hstep => UsersState.Reigns.step hs hstep) hstart
  obtain ⟨-, v, hv, hvr, hactive⟩ := hreigns
  exact ⟨⟨v, hv, hvr, hactive⟩, fun j w hw hwr => t.db.superAdmins j id w v hw hv hwr hvr⟩

/-- Two sign-ups race for the role, and the one that loses then tries to delete the other and deletes
itself. -/
def raceForRole : List UserAction :=
  [.signUp "a@b.c" "A" "x", .signUp "d@e.f" "D" "y", .run 0 .done "", .run 1 .done "",
    .run 0 .done "", .run 1 .done "", .run 0 .done "", .run 1 .done "", .run 1 .done "",
    .run 0 .done ""]

def deleteBoth : List UserAction :=
  .request 0 (.softDelete 1) :: .request 0 (.softDelete 0) :: .request 1 (.softDelete 1) ::
    (List.replicate 5 (.run 2 .done "") ++ List.replicate 5 (.run 3 .done "") ++
      List.replicate 5 (.run 4 .done ""))

theorem super_admin_stable_race : ∃ s t : UsersState,
    Run UsersState.step .new raceForRole s ∧ Run UsersState.step s deleteBoth t ∧
      t.calls.drop 2 = [.returned (.error .forbidden), .returned .deleted,
        .returned (.error .forbidden)] ∧
      ∃ v, t.db.users.lookup 1 = some v ∧ v.role = .superAdmin ∧ v.deleted = false := by
  obtain ⟨s, hrun, hs⟩ := Option.map_eq_some_iff.mp (show
    (raceForRole.foldlM UsersState.step .new).map (fun s => s.db.users.lookup 1) =
      some (some ⟨"d@e.f", "D", "", .superAdmin, false, false⟩) by decide +kernel)
  obtain ⟨t, hboth, ht⟩ := Option.map_eq_some_iff.mp (show
    ((raceForRole ++ deleteBoth).foldlM UsersState.step .new).map (fun t => t.calls.drop 2) =
      some [.returned (.error .forbidden), .returned .deleted, .returned (.error .forbidden)] by
    decide +kernel)
  obtain ⟨s', hrun', hlater⟩ := Run.append_iff.mp hboth
  obtain rfl : s = s' := Option.some.inj (hrun.symm.trans hrun')
  exact ⟨s, t, hrun, hlater, ht, (super_admin_stable hrun hs rfl hlater).1⟩

end OpenGps.Backend
