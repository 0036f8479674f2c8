import OpenGps.Backend.Access

/-!
# Revoking API keys

The route `DELETE /devices/:id/api-keys/:keyId`: the guard checks the device of the path, and the
statement at the end of the chain looks at the key only.
-/

namespace OpenGps.Backend

open OpenGps.Lib

/-- The columns of `device_api_keys` beside its key. -/
structure ApiKey (δ : Type) where
  deviceID : δ
  keyHash : String
  createdAt : Time
  expiresAt : Option Time
  lastUsedAt : Option Time
  deletedAt : Option Time
  deriving DecidableEq

abbrev ApiKeys (κ δ : Type) := Table κ (ApiKey δ)

variable {υ δ κ : Type} [DecidableEq υ] [DecidableEq δ] [DecidableEq κ]

namespace ApiKeys

/-- `RevokeAPIKey`. -/
def revoke (keys : ApiKeys κ δ) (keyID : κ) (clock : Time) : ApiKeys κ δ :=
  (Table.updateAt keys keyID (·.deletedAt.isNone) fun r => { r with deletedAt := some clock }).2

end ApiKeys

/-- `APIKeysHandler.Revoke`; the service and the adapter pass the id of the key on. -/
def revokeHandler (keys : ApiKeys κ δ) (clock : Time) (id : Option δ) (keyID : Option κ) :
    Except Refusal Nat × ApiKeys κ δ :=
  match id with
  | none => (throw ⟨400, "invalid device id"⟩, keys)
  | some _ =>
    match keyID with
    | none => (throw ⟨400, "invalid key id"⟩, keys)
    | some keyID => (return 204, keys.revoke keyID clock)

/-- The route: the status of the answer, and the keys after it. -/
def revokeRoute (g : Grants υ δ) (keys : ApiKeys κ δ) (clock : Time) (session : Session υ)
    (id : Option δ) (keyID : Option κ) : Except Refusal Nat × ApiKeys κ δ :=
  match deviceGuard .owner g session id with
  | .error refusal => (throw refusal, keys)
  | .ok _ => revokeHandler keys clock id keyID

/-- The keys of every device but one are as they were. -/
def Confined (device : δ) (keys keys' : ApiKeys κ δ) : Prop :=
  ∀ keyID r, keys.lookup keyID = some r → r.deviceID ≠ device → keys'.lookup keyID = some r

omit [DecidableEq υ] [DecidableEq δ] in
theorem confined_revoke_iff {device : δ} {keys : ApiKeys κ δ} {keyID : κ} {clock : Time} :
    Confined device keys (keys.revoke keyID clock) ↔
      ∀ r, keys.lookup keyID = some r → r.deletedAt = none → r.deviceID = device := by
  constructor
  · intro hconfined r hr hactive
    by_contra hother
    have hsame := hconfined keyID r hr hother
    have hset : (keys.revoke keyID clock).lookup keyID = some { r with deletedAt := some clock } := by
      rw [ApiKeys.revoke, Table.lookup_updateAt_self, hr, Option.map_some, hactive]
      rfl
    have heq := Option.some.inj (hset.symm.trans hsame)
    rw [← heq] at hactive
    cases hactive
  · intro hown k r hr hother
    by_cases hk : k = keyID
    · subst hk
      rw [ApiKeys.revoke, Table.lookup_updateAt_self, hr, Option.map_some]
      cases hactive : r.deletedAt with
      | none => exact absurd (hown r hr hactive) hother
      | some t =>
        rw [if_neg (by simp)]
    · rw [ApiKeys.revoke, Table.lookup_updateAt_of_ne hk]
      exact hr

/-- A request that passes the guard leaves the keys of the other devices alone exactly when the key
of the path is not an active key of another device. -/
theorem revoke_confined_iff {g : Grants υ δ} {keys : ApiKeys κ δ} {clock : Time}
    {session : Session υ} {actor : Actor υ} {device : δ} {keyID : κ}
    (hguard : deviceGuard .owner g session (some device) = .ok actor) :
    Confined device keys (revokeRoute g keys clock session (some device) (some keyID)).2 ↔
      ¬ ∃ r, keys.lookup keyID = some r ∧ r.deletedAt = none ∧ r.deviceID ≠ device := by
  rw [revokeRoute, hguard]
  refine confined_revoke_iff.trans ⟨?_, ?_⟩
  · rintro hown ⟨r, hr, hactive, hother⟩
    exact hother (hown r hr hactive)
  · intro hnone r hr hactive
    by_contra hother
    exact hnone ⟨r, hr, hactive, hother⟩

/-- User 1 owns device 7 and no other; key 70 is of device 7, key 80 of device 8. -/
def ownerOfSeven : Grants Nat Nat := AList.singleton (1, 7) ⟨.owner, none⟩

def keysOfTwo : ApiKeys Nat Nat :=
  (AList.singleton 70 ⟨7, "a", 0, none, none, none⟩ : ApiKeys Nat Nat).insert 80
    ⟨8, "b", 0, none, none, none⟩

theorem revoke_own_key :
    Confined 7 keysOfTwo (revokeRoute ownerOfSeven keysOfTwo 5 (.ok ⟨1, false⟩) (some 7)
      (some 70)).2 := by
  have hguard : deviceGuard .owner ownerOfSeven (.ok ⟨1, false⟩) (some 7) = .ok ⟨1, false⟩ := by
    decide
  refine (revoke_confined_iff hguard).mpr ?_
  rintro ⟨r, hr, -, hother⟩
  have h : keysOfTwo.lookup 70 = some ⟨7, "a", 0, none, none, none⟩ := by decide
  obtain rfl := Option.some.inj (h.symm.trans hr)
  exact hother rfl

/-- The owner of device 7, who holds no grant on device 8, revokes the key of device 8 through the
path of device 7. -/
theorem revoke_foreign_key :
    deviceGuard .owner ownerOfSeven (.ok ⟨1, false⟩) (some 7) = .ok ⟨1, false⟩ ∧
      ownerOfSeven.lookup (1, 8) = none ∧
      ¬ Confined 7 keysOfTwo (revokeRoute ownerOfSeven keysOfTwo 5 (.ok ⟨1, false⟩) (some 7)
        (some 80)).2 := by
  refine ⟨by decide, by decide, fun hconfined => ?_⟩
  have hkey := hconfined 80 ⟨8, "b", 0, none, none, none⟩ (by decide) (by decide)
  exact absurd hkey (by decide)

end OpenGps.Backend
