import OpenGps.Backend.Locations

/-!
# Device access

The grants of users on devices, the access service (`internal/app/access`) and the middlewares that
guard the routes of a device (`internal/transport/http/middleware`).
-/

namespace OpenGps.Backend

open OpenGps.Lib

inductive AccessRole where
  | viewer
  | editor
  | owner
  deriving DecidableEq

def roleOrder : AccessRole → Nat
  | .viewer => 1
  | .editor => 2
  | .owner => 3

def roleSatisfies (actual min : AccessRole) : Bool := roleOrder actual ≥ roleOrder min

/-- The columns of `user_device_access` beside its key. -/
structure Grant where
  role : AccessRole
  deletedAt : Option Time
  deriving DecidableEq

abbrev Grants (υ δ : Type) := Table (υ × δ) Grant

/-- The errors of the domain package that the services here return. -/
inductive DomainError where
  | notFound
  | unauthorized
  | forbidden
  | cannotRevokeSelf
  | conflict
  | validation
  deriving DecidableEq

/-- An answer that is not the data asked for. -/
structure Refusal where
  status : Nat
  message : String
  deriving DecidableEq

def mapDomainError : DomainError → Refusal
  | .notFound => ⟨404, "resource not found"⟩
  | .unauthorized => ⟨401, "unauthorized"⟩
  | .forbidden => ⟨403, "forbidden"⟩
  | .cannotRevokeSelf => ⟨400, "cannot revoke your own device access"⟩
  | .conflict => ⟨409, "conflict"⟩
  | .validation => ⟨400, "validation error"⟩

variable {υ δ : Type} [DecidableEq υ] [DecidableEq δ]

namespace Grants

/-- `GetDeviceAccess`; it does not look at the device. -/
def getRole (g : Grants υ δ) (user : υ) (device : δ) : Except DomainError AccessRole :=
  match g.lookup (user, device) with
  | some ⟨role, none⟩ => return role
  | _ => throw .notFound

/-- `GrantDeviceAccess`: a new row, or the old one with the new role and active. -/
def grant (g : Grants υ δ) (user : υ) (device : δ) (role : AccessRole) : Grants υ δ :=
  AList.insert (user, device) ⟨role, none⟩ g

/-- `RevokeDeviceAccess`. -/
def revoke (g : Grants υ δ) (user : υ) (device : δ) (clock : Time) : Grants υ δ :=
  (Table.updateAt g (user, device) (·.deletedAt.isNone)
    fun r => { r with deletedAt := some clock }).2

def requireRole (g : Grants υ δ) (user : υ) (device : δ) (min : AccessRole) :
    Except DomainError Unit := do
  let role ← g.getRole user device
  if ¬ roleSatisfies role min then throw .forbidden

theorem getRole_eq_ok {g : Grants υ δ} {user : υ} {device : δ} {role : AccessRole} :
    g.getRole user device = .ok role ↔ g.lookup (user, device) = some ⟨role, none⟩ := by
  unfold getRole
  split
  · next r h =>
    rw [h]
    constructor
    · intro heq
      cases heq
      rfl
    · intro heq
      cases heq
      rfl
  · next h =>
    constructor
    · intro heq
      cases heq
    · exact fun heq => absurd heq (h role)

theorem requireRole_eq_ok {g : Grants υ δ} {user : υ} {device : δ} {min : AccessRole} :
    g.requireRole user device min = .ok () ↔
      ∃ role, g.lookup (user, device) = some ⟨role, none⟩ ∧ roleSatisfies role min = true := by
  unfold requireRole
  cases h : g.getRole user device with
  | error e =>
    constructor
    · intro heq
      cases heq
    · rintro ⟨role, hrole, -⟩
      rw [getRole_eq_ok.mpr hrole] at h
      cases h
  | ok role =>
    show (if ¬ roleSatisfies role min = true then throw DomainError.forbidden else pure ()) = _ ↔ _
    rw [getRole_eq_ok] at h
    rw [h]
    cases hsatisfies : roleSatisfies role min with
    | true =>
      rw [if_neg (by simp)]
      exact ⟨fun _ => ⟨role, rfl, hsatisfies⟩, fun _ => rfl⟩
    | false =>
      rw [if_pos (by simp)]
      constructor
      · intro heq
        cases heq
      · rintro ⟨role', heq, htrue⟩
        cases heq
        rw [hsatisfies] at htrue
        cases htrue

end Grants

/-! ## Middlewares -/

/-- The user that `AuthSession` stores for the handlers. -/
structure Actor (υ : Type) where
  id : υ
  mustChangePassword : Bool
  deriving DecidableEq

/-- What the session cookie leads to: a user, or the message of the refusal. -/
abbrev Session (υ : Type) := Except String (Actor υ)

def authSession (session : Session υ) : Except Refusal (Actor υ) :=
  match session with
  | .ok actor => return actor
  | .error message => throw ⟨401, message⟩

def requirePasswordChanged (actor : Actor υ) : Except Refusal Unit :=
  if actor.mustChangePassword then throw ⟨403, "must_change_password"⟩ else return

/-- `none` when the path parameter is not a UUID. -/
def requireDeviceRole (minRole : AccessRole) (g : Grants υ δ) (actor : Actor υ) (id : Option δ) :
    Except Refusal Unit :=
  match id with
  | none => throw ⟨400, "invalid device id"⟩
  | some device =>
    match g.requireRole actor.id device minRole with
    | .error err => throw (mapDomainError err)
    | .ok () => return

/-- The middlewares of every route of a device. -/
def deviceGuard (minRole : AccessRole) (g : Grants υ δ) (session : Session υ)
    (id : Option δ) : Except Refusal (Actor υ) := do
  let actor ← authSession session
  requirePasswordChanged actor
  requireDeviceRole minRole g actor id
  return actor

end OpenGps.Backend
