import Mathlib.Data.List.Perm.Basic
import OpenGps.Backend.ApiKeys
import OpenGps.Lib.Run

/-!
# Devices, their keys and their requests

The life of a device and of its API key (`internal/app/devices`, `internal/app/apikeys`, with the
unique indexes of the migrations), and the middleware that lets the requests of devices in
(`middleware/require_device_api_key.go`). A key is issued in two statements and a request is let in
after two queries, and the statements of other requests may come between them.

A device never has two active keys, and a request is let in for the one device that is registered
under the UUID of its path. A token whose key was revoked is refused from then on while no new token
repeats it, and so are the requests of a deleted device.
-/

namespace OpenGps.Backend

open OpenGps.Lib

/-- The columns of `devices` the statements here look at. -/
structure DeviceRow where
  uuidFirmware : String
  deletedAt : Option Time
  deriving DecidableEq

abbrev Devices (δ : Type) := Table δ DeviceRow

variable {δ κ : Type} [DecidableEq δ] [DecidableEq κ]

namespace Devices
variable (devices : Devices δ)

/-- `CreateDevice`: the UUID is unique among all the devices, the deleted ones too. -/
def create (id : δ) (uuidFirmware : String) : Except DomainError (Devices δ) :=
  if id ∈ devices ∨ devices.rows.any (·.2.uuidFirmware = uuidFirmware) then throw .conflict
  else return devices.insert id ⟨uuidFirmware, none⟩

/-- `SoftDeleteDevice`. -/
def softDelete (id : δ) (clock : Time) : Devices δ :=
  (Table.updateAt devices id (·.deletedAt.isNone) fun r => { r with deletedAt := some clock }).2

/-- `GetDeviceIDByUuidFirmware`. -/
def idByUuidFirmware (uuidFirmware : String) : Option δ :=
  (devices.rows.find? fun e => e.2.uuidFirmware = uuidFirmware ∧ e.2.deletedAt.isNone).map (·.1)

end Devices

namespace ApiKeys
variable (keys : ApiKeys κ δ)

/-- `GetActiveKeyByDeviceID`. -/
def activeByDeviceID (device : δ) : Option (κ × ApiKey δ) :=
  keys.rows.find? fun e => e.2.deviceID = device ∧ e.2.deletedAt.isNone

/-- `GetActiveKeyByHash`. -/
def activeByHash (clock : Time) (token : String) : Option (κ × ApiKey δ) :=
  keys.rows.find? fun e =>
    e.2.keyHash = token ∧ e.2.deletedAt.isNone ∧ e.2.expiresAt.all (clock < ·)

/-- `CreateAPIKey`, with the indexes on the active tokens and the active devices, and the foreign
key. -/
def create (devices : Devices δ) (keyID : κ) (device : δ) (token : String) (clock : Time) :
    Except DomainError (ApiKeys κ δ) :=
  if keyID ∈ keys ∨
      keys.rows.any fun e => e.2.deletedAt.isNone ∧ (e.2.keyHash = token ∨ e.2.deviceID = device)
  then throw .conflict
  else if device ∉ devices then throw .validation
  else return keys.insert keyID ⟨device, token, clock, none, none, none⟩

end ApiKeys

/-! ## The middleware -/

/-- The queries fail for another reason than that there is no row. -/
inductive QueryFault where
  | device
  | key
  deriving DecidableEq

/-- `RequireDeviceAPIKey` up to the first query. -/
def lookupDevice (devices : Devices δ) (fault : Option QueryFault) (token uuidFirmware : String) :
    Except Refusal δ :=
  if token = "" then throw ⟨401, "missing X-Device-API-Key header"⟩
  else if uuidFirmware = "" then throw ⟨400, "missing :uuid_firmware path param"⟩
  else if fault = some .device then throw ⟨500, "device lookup failed"⟩
  else
    match devices.idByUuidFirmware uuidFirmware with
    | none => throw ⟨404, "device not found"⟩
    | some device => return device

/-- The rest of it: the key has to be one of that device. -/
def checkKey (keys : ApiKeys κ δ) (fault : Option QueryFault) (clock : Time) (token : String)
    (device : δ) : Except Refusal δ :=
  if fault = some .key then throw ⟨500, "api key lookup failed"⟩
  else
    match keys.activeByHash clock token with
    | none => throw ⟨401, "invalid or expired api key"⟩
    | some e => if e.2.deviceID ≠ device then throw ⟨401, "invalid or expired api key"⟩ else return device

/-! ## The system -/

/-- A request of a device: what it brings, and the device the middleware found for it. -/
structure DeviceRequest (δ : Type) where
  uuidFirmware : String
  token : String
  device : δ
  deriving DecidableEq

structure AuthState (δ κ : Type) where
  devices : Devices δ
  keys : ApiKeys κ δ
  /-- The calls of `Service.Create` that are past their pre-check, with their tokens. -/
  creating : List (δ × String)
  /-- The requests between the two queries of the middleware. -/
  checking : List (DeviceRequest δ)
  /-- The requests that were let in. -/
  accepted : List (DeviceRequest δ)

def AuthState.empty : AuthState δ κ := ⟨∅, ∅, [], [], []⟩

inductive AuthAction (δ κ : Type) where
  | createDevice (id : δ) (uuidFirmware : String)
  | deleteDevice (id : δ) (clock : Time)
  /-- `Service.Create`: the token, and the pre-check. -/
  | requestKey (device : δ) (token : String)
  | storeKey (index : Nat) (keyID : κ) (clock : Time)
  | revokeKey (keyID : κ) (clock : Time)
  | request (fault : Option QueryFault) (uuidFirmware token : String)
  | authenticate (index : Nat) (fault : Option QueryFault) (clock : Time)
  deriving DecidableEq

/-- What a statement changes when it goes through. -/
def orSame {ε σ : Type} (old : σ) : Except ε σ → σ
  | .ok new => new
  | .error _ => old

namespace AuthState
variable (st : AuthState δ κ)

def step : AuthAction δ κ → Option (AuthState δ κ)
  | .createDevice id uuidFirmware =>
    some { st with devices := orSame st.devices (st.devices.create id uuidFirmware) }
  | .deleteDevice id clock => some { st with devices := st.devices.softDelete id clock }
  | .requestKey device token =>
    match st.keys.activeByDeviceID device with
    | some _ => some st
    | none => some { st with creating := st.creating ++ [(device, token)] }
  | .storeKey index keyID clock =>
    match st.creating[index]? with
    | none => none
    | some (device, token) =>
      some { st with
        keys := orSame st.keys (st.keys.create st.devices keyID device token clock)
        creating := st.creating.eraseIdx index }
  | .revokeKey keyID clock => some { st with keys := st.keys.revoke keyID clock }
  | .request fault uuidFirmware token =>
    match lookupDevice st.devices fault token uuidFirmware with
    | .error _ => some st
    | .ok device => some { st with checking := st.checking ++ [⟨uuidFirmware, token, device⟩] }
  | .authenticate index fault clock =>
    match st.checking[index]? with
    | none => none
    | some r =>
      match checkKey st.keys fault clock r.token r.device with
      | .error _ => some { st with checking := st.checking.eraseIdx index }
      | .ok _ =>
        some { st with
          checking := st.checking.eraseIdx index
          accepted := st.accepted ++ [r] }

end AuthState

/-! ## What one statement can do -/

/-- A device keeps its UUID, and stays deleted. -/
def DeviceRow.Later (r r' : DeviceRow) : Prop :=
  r'.uuidFirmware = r.uuidFirmware ∧ (r'.deletedAt = none → r.deletedAt = none)

/-- A key keeps its token and its device, and stays revoked. -/
def ApiKey.Later (r r' : ApiKey δ) : Prop :=
  r'.keyHash = r.keyHash ∧ r'.deviceID = r.deviceID ∧ (r'.deletedAt = none → r.deletedAt = none)

/-- The device of a request is the one with the UUID of its path. -/
def DeviceRequest.Filed (devices : Devices δ) (r : DeviceRequest δ) : Prop :=
  ∃ row, devices.lookup r.device = some row ∧ row.uuidFirmware = r.uuidFirmware

/-- The token of a request is a key of its device. -/
def DeviceRequest.Keyed (keys : ApiKeys κ δ) (r : DeviceRequest δ) : Prop :=
  ∃ k row, keys.lookup k = some row ∧ row.keyHash = r.token ∧ row.deviceID = r.device

/-- No device has the UUID yet. -/
structure NewDevice (st : AuthState δ κ) (a : AuthAction δ κ) (d : δ) (row : DeviceRow) :
    Prop where
  action : a = .createDevice d row.uuidFirmware
  free : ∀ d' row', st.devices.lookup d' = some row' → row'.uuidFirmware ≠ row.uuidFirmware

/-- No active key has the token or the device, the device exists, and the key was asked for. -/
structure NewKey (st : AuthState δ κ) (a : AuthAction δ κ) (k : κ) (row : ApiKey δ) : Prop where
  action : ∃ index clock, a = .storeKey index k clock ∧
    st.creating[index]? = some (row.deviceID, row.keyHash)
  free : ∀ k' row', st.keys.lookup k' = some row' → row'.deletedAt = none →
    row'.keyHash ≠ row.keyHash ∧ row'.deviceID ≠ row.deviceID
  registered : row.deviceID ∈ st.devices

/-- The calls of `Service.Create` before and after a step. -/
inductive CreatingEffect (st : AuthState δ κ) (a : AuthAction δ κ) (st' : AuthState δ κ) : Prop
  | same (action : ∀ index keyID clock, a ≠ .storeKey index keyID clock)
      (creating : st'.creating = st.creating)
  | asked (device : δ) (token : String) (action : a = .requestKey device token)
      (creating : st'.creating = st.creating ++ [(device, token)])
  | stored (index : Nat) (keyID : κ) (clock : Time) (action : a = .storeKey index keyID clock)
      (creating : st'.creating = st.creating.eraseIdx index)

/-- The requests before and after a step. -/
inductive RequestEffect (st st' : AuthState δ κ) : Prop
  | same (checking : st'.checking = st.checking) (accepted : st'.accepted = st.accepted)
  | found (r : DeviceRequest δ) (row : DeviceRow) (device : st.devices.lookup r.device = some row)
      (uuid : row.uuidFirmware = r.uuidFirmware) (active : row.deletedAt = none)
      (checking : st'.checking = st.checking ++ [r]) (accepted : st'.accepted = st.accepted)
  | refused (index : Nat) (checking : st'.checking = st.checking.eraseIdx index)
      (accepted : st'.accepted = st.accepted)
  | letIn (index : Nat) (r : DeviceRequest δ) (k : κ) (row : ApiKey δ)
      (pending : st.checking[index]? = some r) (key : st.keys.lookup k = some row)
      (token : row.keyHash = r.token) (device : row.deviceID = r.device)
      (active : row.deletedAt = none) (checking : st'.checking = st.checking.eraseIdx index)
      (accepted : st'.accepted = st.accepted ++ [r])

structure Effect (st : AuthState δ κ) (a : AuthAction δ κ) (st' : AuthState δ κ) : Prop where
  devices : Table.Grows DeviceRow.Later (NewDevice st a) st.devices st'.devices
  keys : Table.Grows ApiKey.Later (NewKey st a) st.keys st'.keys
  creating : CreatingEffect st a st'
  requests : RequestEffect st st'

section
variable {devices devices' : Devices δ} {keys keys' : ApiKeys κ δ} {st st' : AuthState δ κ}

theorem DeviceRow.later_refl (r : DeviceRow) : r.Later r := ⟨rfl, id⟩

omit [DecidableEq δ] in
theorem ApiKey.later_refl (r : ApiKey δ) : r.Later r := ⟨rfl, rfl, id⟩

theorem Devices.create_ok {id : δ} {uuid : String} (h : devices.create id uuid = .ok devices') :
    devices' = devices.insert id ⟨uuid, none⟩ ∧ id ∉ devices ∧
      ∀ d row, devices.lookup d = some row → row.uuidFirmware ≠ uuid := by
  rw [create] at h
  split at h
  next => cases h
  next hfree =>
    rw [not_or] at hfree
    cases h
    refine ⟨rfl, hfree.1, fun d row hrow huuid => hfree.2 ?_⟩
    rw [List.any_eq_true]
    exact ⟨(d, row), Table.mem_rows.mpr hrow, by simpa using huuid⟩

theorem ApiKeys.create_ok {keyID : κ} {device : δ} {token : String} {clock : Time}
    (h : keys.create devices keyID device token clock = .ok keys') :
    keys' = keys.insert keyID ⟨device, token, clock, none, none, none⟩ ∧ keyID ∉ keys ∧
      device ∈ devices ∧
      ∀ k row, keys.lookup k = some row → row.deletedAt = none →
        row.keyHash ≠ token ∧ row.deviceID ≠ device := by
  rw [create] at h
  split at h
  next => cases h
  next hfree =>
    split at h
    next => cases h
    next hdevice =>
      rw [not_or] at hfree
      cases h
      refine ⟨rfl, hfree.1, not_not.mp hdevice, fun k row hrow hactive => ?_⟩
      have hnone := hfree.2
      rw [List.any_eq_true] at hnone
      rw [← not_or]
      intro hor
      exact hnone ⟨(k, row), Table.mem_rows.mpr hrow, by simpa [hactive] using hor⟩

omit [DecidableEq δ] in
theorem ApiKeys.activeByHash_some {clock : Time} {token : String} {e : κ × ApiKey δ}
    (h : keys.activeByHash clock token = some e) :
    keys.lookup e.1 = some e.2 ∧ e.2.keyHash = token ∧ e.2.deletedAt = none := by
  obtain ⟨hrow, hp⟩ := Table.of_find_rows h
  rw [decide_eq_true_iff] at hp
  exact ⟨hrow, hp.1, Option.isNone_iff_eq_none.mp hp.2.1⟩

theorem lookupDevice_ok {fault : Option QueryFault} {token uuid : String} {device : δ}
    (h : lookupDevice devices fault token uuid = .ok device) :
    ∃ row, devices.lookup device = some row ∧ row.uuidFirmware = uuid ∧ row.deletedAt = none := by
  unfold lookupDevice at h
  split at h
  next => cases h
  next =>
    split at h
    next => cases h
    next =>
      split at h
      next => cases h
      next =>
        split at h
        next => cases h
        next device' hid =>
          cases h
          obtain ⟨e, he, rfl⟩ := Option.map_eq_some_iff.mp hid
          obtain ⟨hrow, hp⟩ := Table.of_find_rows he
          rw [decide_eq_true_iff] at hp
          exact ⟨e.2, hrow, hp.1, Option.isNone_iff_eq_none.mp hp.2⟩

theorem checkKey_ok {fault : Option QueryFault} {clock : Time} {token : String} {device d : δ}
    (h : checkKey keys fault clock token device = .ok d) :
    ∃ k row, keys.lookup k = some row ∧ row.keyHash = token ∧ row.deviceID = device ∧
      row.deletedAt = none := by
  unfold checkKey at h
  split at h
  next => cases h
  next =>
    split at h
    next => cases h
    next e he =>
      split at h
      next => cases h
      next hsame =>
        obtain ⟨hrow, htoken, hactive⟩ := ApiKeys.activeByHash_some he
        exact ⟨e.1, e.2, hrow, htoken, not_not.mp hsame, hactive⟩

end

/-! ## Runs -/

namespace AuthState
variable {st st' : AuthState δ κ} {a : AuthAction δ κ}

omit [DecidableEq κ] in
theorem devices_same : Table.Grows DeviceRow.Later (NewDevice st a) st.devices
    st.devices :=
  .refl DeviceRow.later_refl

omit [DecidableEq δ] in
theorem keys_same : Table.Grows ApiKey.Later (NewKey st a) st.keys st.keys :=
  .refl ApiKey.later_refl

theorem step_effect (h : st.step a = some st') : Effect st a st' := by
  cases a with
  | createDevice id uuid =>
    obtain rfl := Option.some.inj h
    refine ⟨?_, keys_same, .same (by simp) rfl, .same rfl rfl⟩
    cases hcreate : st.devices.create id uuid with
    | error e => exact devices_same
    | ok devices' =>
      obtain ⟨rfl, hid, hfree⟩ := Devices.create_ok hcreate
      exact .insert DeviceRow.later_refl ⟨rfl, hfree⟩ hid
  | deleteDevice id clock =>
    obtain rfl := Option.some.inj h
    refine ⟨.updateAt DeviceRow.later_refl ?_, keys_same, .same (by simp) rfl, .same rfl rfl⟩
    exact fun r _ => ⟨rfl, fun h => by cases h⟩
  | requestKey device token =>
    rw [step] at h
    split at h
    next =>
      obtain rfl := Option.some.inj h
      exact ⟨devices_same, keys_same, .same (by simp) rfl, .same rfl rfl⟩
    next =>
      obtain rfl := Option.some.inj h
      exact ⟨devices_same, keys_same, .asked device token rfl rfl, .same rfl rfl⟩
  | storeKey index keyID clock =>
    rw [step] at h
    split at h
    next => cases h
    next device token hpending =>
      obtain rfl := Option.some.inj h
      refine ⟨devices_same, ?_, .stored index keyID clock rfl rfl, .same rfl rfl⟩
      cases hcreate : st.keys.create st.devices keyID device token clock with
      | error e => exact keys_same
      | ok keys' =>
        obtain ⟨rfl, hid, hdevice, hfree⟩ := ApiKeys.create_ok hcreate
        exact .insert ApiKey.later_refl ⟨⟨index, clock, rfl, hpending⟩, hfree, hdevice⟩ hid
  | revokeKey keyID clock =>
    obtain rfl := Option.some.inj h
    refine ⟨devices_same, .updateAt ApiKey.later_refl ?_, .same (by simp) rfl, .same rfl rfl⟩
    exact fun r _ => ⟨rfl, rfl, fun h => by cases h⟩
  | request fault uuid token =>
    rw [step] at h
    split at h
    next =>
      obtain rfl := Option.some.inj h
      exact ⟨devices_same, keys_same, .same (by simp) rfl, .same rfl rfl⟩
    next device hlookup =>
      obtain rfl := Option.some.inj h
      obtain ⟨row, hrow, huuid, hactive⟩ := lookupDevice_ok hlookup
      exact ⟨devices_same, keys_same, .same (by simp) rfl,
        .found ⟨uuid, token, device⟩ row hrow huuid hactive rfl rfl⟩
  | authenticate index fault clock =>
    rw [step] at h
    split at h
    next => cases h
    next r hpending =>
      split at h
      next =>
        obtain rfl := Option.some.inj h
        exact ⟨devices_same, keys_same, .same (by simp) rfl, .refused index rfl rfl⟩
      next d hcheck =>
        obtain rfl := Option.some.inj h
        obtain ⟨k, row, hrow, htoken, hdevice, hactive⟩ := checkKey_ok hcheck
        exact ⟨devices_same, keys_same, .same (by simp) rfl,
          .letIn index r k row hpending hrow htoken hdevice hactive rfl rfl⟩

/-- What holds in every state: UUIDs, active tokens and the devices of active keys do not repeat,
and a request that was let in was filed under the device of its path, with a key of that device. -/
structure Sound (st : AuthState δ κ) : Prop where
  uuids : ∀ d row d' row', st.devices.lookup d = some row → st.devices.lookup d' = some row' →
    row.uuidFirmware = row'.uuidFirmware → d = d'
  oneKey : ∀ k row k' row', st.keys.lookup k = some row → st.keys.lookup k' = some row' →
    row.deletedAt = none → row'.deletedAt = none →
    row.deviceID = row'.deviceID ∨ row.keyHash = row'.keyHash → k = k'
  registered : ∀ k row, st.keys.lookup k = some row → row.deviceID ∈ st.devices
  checking : ∀ r ∈ st.checking, r.Filed st.devices
  accepted : ∀ r ∈ st.accepted, r.Filed st.devices ∧ r.Keyed st.keys

theorem sound_empty : (empty : AuthState δ κ).Sound where
  uuids _ _ _ _ h := by cases h
  oneKey _ _ _ _ h := by cases h
  registered _ _ h := by cases h
  checking _ h := by cases h
  accepted _ h := by cases h

end AuthState

section
variable {st st' : AuthState δ κ} {a : AuthAction δ κ}

theorem DeviceRequest.Filed.mono {r : DeviceRequest δ} (h : r.Filed st.devices)
    (heffect : Effect st a st') : r.Filed st'.devices := by
  obtain ⟨row, hrow, huuid⟩ := h
  obtain ⟨row', hrow', hlater⟩ := heffect.devices.kept _ _ hrow
  exact ⟨row', hrow', hlater.1.trans huuid⟩

theorem DeviceRequest.Keyed.mono {r : DeviceRequest δ} (h : r.Keyed st.keys)
    (heffect : Effect st a st') : r.Keyed st'.keys := by
  obtain ⟨k, row, hrow, htoken, hdevice⟩ := h
  obtain ⟨row', hrow', hlater⟩ := heffect.keys.kept _ _ hrow
  exact ⟨k, row', hrow', hlater.1.trans htoken, hlater.2.1.trans hdevice⟩

theorem Effect.uuids (heffect : Effect st a st') (hsound : st.Sound) :
    ∀ d row d' row', st'.devices.lookup d = some row → st'.devices.lookup d' = some row' →
      row.uuidFirmware = row'.uuidFirmware → d = d' := by
  intro d row d' row' hrow hrow' huuid
  rcases heffect.devices.old_or_new d row hrow with ⟨old, hold, hlater⟩ | hnew
  · rcases heffect.devices.old_or_new d' row' hrow' with ⟨old', hold', hlater'⟩ | hnew'
    · exact hsound.uuids d old d' old' hold hold' (hlater.1 ▸ hlater'.1 ▸ huuid)
    · exact absurd (hlater.1.symm.trans huuid) (hnew'.free d old hold)
  · rcases heffect.devices.old_or_new d' row' hrow' with ⟨old', hold', hlater'⟩ | hnew'
    · exact absurd (hlater'.1.symm.trans huuid.symm) (hnew.free d' old' hold')
    · exact (AuthAction.createDevice.inj (hnew.action.symm.trans hnew'.action)).1

theorem Effect.oneKey (heffect : Effect st a st') (hsound : st.Sound) :
    ∀ k row k' row', st'.keys.lookup k = some row → st'.keys.lookup k' = some row' →
      row.deletedAt = none → row'.deletedAt = none →
      row.deviceID = row'.deviceID ∨ row.keyHash = row'.keyHash → k = k' := by
  intro k row k' row' hrow hrow' hactive hactive' hsame
  rcases heffect.keys.old_or_new k row hrow with ⟨old, hold, htoken, hdevice, hkept⟩ | hnew
  · rcases heffect.keys.old_or_new k' row' hrow' with
      ⟨old', hold', htoken', hdevice', hkept'⟩ | hnew'
    · rw [htoken, htoken', hdevice, hdevice'] at hsame
      exact hsound.oneKey k old k' old' hold hold' (hkept hactive) (hkept' hactive') hsame
    · rw [htoken, hdevice] at hsame
      obtain ⟨hfreeToken, hfreeDevice⟩ := hnew'.free k old hold (hkept hactive)
      exact (hsame.elim hfreeDevice hfreeToken).elim
  · rcases heffect.keys.old_or_new k' row' hrow' with
      ⟨old', hold', htoken', hdevice', hkept'⟩ | hnew'
    · rw [htoken', hdevice'] at hsame
      obtain ⟨hfreeToken, hfreeDevice⟩ := hnew.free k' old' hold' (hkept' hactive')
      exact (hsame.elim (hfreeDevice ∘ Eq.symm) (hfreeToken ∘ Eq.symm)).elim
    · obtain ⟨_, _, haction, -⟩ := hnew.action
      obtain ⟨_, _, haction', -⟩ := hnew'.action
      exact (AuthAction.storeKey.inj (haction.symm.trans haction')).2.1

theorem Effect.registered (heffect : Effect st a st') (hsound : st.Sound) :
    ∀ k row, st'.keys.lookup k = some row → row.deviceID ∈ st'.devices := by
  have hstays : ∀ d ∈ st.devices, d ∈ st'.devices := by
    intro d hd
    obtain ⟨row, hrow⟩ := Option.isSome_iff_exists.mp (AList.lookup_isSome.mpr hd)
    obtain ⟨row', hrow', -⟩ := heffect.devices.kept d row hrow
    exact AList.lookup_isSome.mp (Option.isSome_of_eq_some hrow')
  intro k row hrow
  rcases heffect.keys.old_or_new k row hrow with ⟨old, hold, -, hdevice, -⟩ | hnew
  · rw [hdevice]
    exact hstays _ (hsound.registered k old hold)
  · exact hstays _ hnew.registered

theorem AuthState.Sound.step (hsound : st.Sound) (h : st.step a = some st') : st'.Sound := by
  have heffect := AuthState.step_effect h
  have hchecking : ∀ r ∈ st.checking, r.Filed st'.devices := fun r hr =>
    (hsound.checking r hr).mono heffect
  have haccepted : ∀ r ∈ st.accepted, r.Filed st'.devices ∧ r.Keyed st'.keys := fun r hr =>
    ⟨(hsound.accepted r hr).1.mono heffect, (hsound.accepted r hr).2.mono heffect⟩
  suffices hlists : (∀ r ∈ st'.checking, r.Filed st'.devices) ∧
      ∀ r ∈ st'.accepted, r.Filed st'.devices ∧ r.Keyed st'.keys from
    ⟨heffect.uuids hsound, heffect.oneKey hsound, heffect.registered hsound, hlists.1, hlists.2⟩
  cases heffect.requests with
  | same hch hacc =>
    rw [hch, hacc]
    exact ⟨hchecking, haccepted⟩
  | found r row hrow huuid hactive hch hacc =>
    rw [hch, hacc]
    refine ⟨fun r' hr' => ?_, haccepted⟩
    rcases List.mem_append.mp hr' with hr' | hr'
    · exact hchecking r' hr'
    · obtain rfl := List.mem_singleton.mp hr'
      exact DeviceRequest.Filed.mono ⟨row, hrow, huuid⟩ heffect
  | refused index hch hacc =>
    rw [hch, hacc]
    exact ⟨fun r hr => hchecking r (List.mem_of_mem_eraseIdx hr), haccepted⟩
  | letIn index r k row hpending hrow htoken hdevice hactive hch hacc =>
    rw [hch, hacc]
    refine ⟨fun r hr => hchecking r (List.mem_of_mem_eraseIdx hr), fun r' hr' => ?_⟩
    rcases List.mem_append.mp hr' with hr' | hr'
    · exact haccepted r' hr'
    · obtain rfl := List.mem_singleton.mp hr'
      exact ⟨hchecking r' (List.mem_of_getElem? hpending),
        DeviceRequest.Keyed.mono ⟨k, row, hrow, htoken, hdevice⟩ heffect⟩

theorem AuthState.sound_of_run {as : List (AuthAction δ κ)}
    (hrun : Run AuthState.step (.empty : AuthState δ κ) as st) : st.Sound :=
  hrun.invariant (fun _ _ _ hsound h => hsound.step h) AuthState.sound_empty

/-- In every order of the statements of any requests, a device has at most one active key and a
token is at most one active key; a request that was let in is filed under the only device that is
registered with the UUID of its path, and its token is a key of that device. -/
theorem device_requests_authenticated {as : List (AuthAction δ κ)}
    (hrun : Run AuthState.step (.empty : AuthState δ κ) as st) :
    (∀ k row k' row', st.keys.lookup k = some row → st.keys.lookup k' = some row' →
      row.deletedAt = none → row'.deletedAt = none →
      row.deviceID = row'.deviceID ∨ row.keyHash = row'.keyHash → k = k') ∧
    ∀ r ∈ st.accepted, r.Keyed st.keys ∧
      ∀ d, (∃ row, st.devices.lookup d = some row ∧ row.uuidFirmware = r.uuidFirmware) ↔
        d = r.device := by
  have hsound := AuthState.sound_of_run hrun
  refine ⟨hsound.oneKey, fun r hr => ⟨(hsound.accepted r hr).2, fun d => ?_⟩⟩
  obtain ⟨row, hrow, huuid⟩ := (hsound.accepted r hr).1
  constructor
  · rintro ⟨row', hrow', huuid'⟩
    exact hsound.uuids d row' r.device row hrow' hrow (huuid'.trans huuid.symm)
  · rintro rfl
    exact ⟨row, hrow, huuid⟩

end

/-- A device is registered and gets a key, and one of its requests is let in. -/
def firstRequest : List (AuthAction Nat Nat) :=
  [.createDevice 7 "u", .requestKey 7 "t", .storeKey 0 70 1, .request none "u" "t",
   .authenticate 0 none 2]

theorem first_request_authenticated : ∃ st, Run AuthState.step .empty firstRequest st ∧
    st.accepted = [⟨"u", "t", 7⟩] ∧
    (∀ k row k' row', st.keys.lookup k = some row → st.keys.lookup k' = some row' →
      row.deletedAt = none → row'.deletedAt = none →
      row.deviceID = row'.deviceID ∨ row.keyHash = row'.keyHash → k = k') ∧
    ∀ r ∈ st.accepted, r.Keyed st.keys ∧
      ∀ d, (∃ row, st.devices.lookup d = some row ∧ row.uuidFirmware = r.uuidFirmware) ↔
        d = r.device := by
  have hend : (firstRequest.foldlM AuthState.step .empty).map (·.accepted) =
      some [⟨"u", "t", 7⟩] := by decide +kernel
  obtain ⟨st, hrun, haccepted⟩ := Option.map_eq_some_iff.mp hend
  exact ⟨st, hrun, haccepted, device_requests_authenticated hrun⟩

/-! ## Revoked tokens -/

/-- What a filter keeps of a list, with the element at an index apart. -/
theorem filter_perm_eraseIdx {α : Type} {l : List α} {index : Nat} {x : α}
    (h : l[index]? = some x) (p : α → Bool) :
    ([x].filter p ++ (l.eraseIdx index).filter p).Perm (l.filter p) := by
  obtain ⟨hlt, rfl⟩ := List.getElem?_eq_some_iff.mp h
  rw [← List.filter_append, List.singleton_append]
  exact (List.getElem_cons_eraseIdx_perm hlt).filter p

/-- The token is not drawn for a new key while it is in use, nor after it was. -/
def NotRedrawn (token : String) (st : AuthState δ κ) : AuthAction δ κ → Prop
  | .requestKey _ drawn => drawn = token →
    (∀ e ∈ st.keys.rows, e.2.keyHash ≠ token) ∧ ∀ c ∈ st.creating, c.2 ≠ token
  | _ => True

instance (token : String) (st : AuthState δ κ) (a : AuthAction δ κ) :
    Decidable (NotRedrawn token st a) := by
  unfold NotRedrawn
  split <;> infer_instance

/-- The token is stored or about to be stored once. -/
structure AuthState.OneKey (token : String) (st : AuthState δ κ) : Prop where
  rows : ∀ k row k' row', st.keys.lookup k = some row → st.keys.lookup k' = some row' →
    row.keyHash = token → row'.keyHash = token → k = k'
  pending : ∀ c ∈ st.creating, c.2 = token → ∀ k row, st.keys.lookup k = some row →
    row.keyHash ≠ token
  creating : (st.creating.filter (·.2 = token)).length ≤ 1

omit [DecidableEq δ] in
theorem AuthState.oneKey_empty (token : String) : (empty : AuthState δ κ).OneKey token where
  rows _ _ _ _ h := by cases h
  pending _ h := by cases h
  creating := Nat.zero_le 1

section
variable {st st' : AuthState δ κ} {a : AuthAction δ κ} {token : String}

theorem Effect.tokenRows (heffect : Effect st a st') (h : st.OneKey token) :
    ∀ k row k' row', st'.keys.lookup k = some row → st'.keys.lookup k' = some row' →
      row.keyHash = token → row'.keyHash = token → k = k' := by
  have hnewRow : ∀ k old k' row', st.keys.lookup k = some old → NewKey st a k' row' →
      old.keyHash = token → row'.keyHash ≠ token := by
    intro k old k' row' hold hnew hsame hsame'
    obtain ⟨_, _, -, hpending⟩ := hnew.action
    exact h.pending _ (List.mem_of_getElem? hpending) hsame' k old hold hsame
  intro k row k' row' hrow hrow' hsame hsame'
  rcases heffect.keys.old_or_new k row hrow with ⟨old, hold, htoken, -, -⟩ | hnew
  · rcases heffect.keys.old_or_new k' row' hrow' with ⟨old', hold', htoken', -, -⟩ | hnew'
    · exact h.rows k old k' old' hold hold' (htoken ▸ hsame) (htoken' ▸ hsame')
    · exact absurd hsame' (hnewRow k old k' row' hold hnew' (htoken ▸ hsame))
  · rcases heffect.keys.old_or_new k' row' hrow' with ⟨old', hold', htoken', -, -⟩ | hnew'
    · exact absurd hsame (hnewRow k' old' k row hold' hnew (htoken' ▸ hsame'))
    · obtain ⟨_, _, haction, -⟩ := hnew.action
      obtain ⟨_, _, haction', -⟩ := hnew'.action
      exact (AuthAction.storeKey.inj (haction.symm.trans haction')).2.1

theorem AuthState.OneKey.step (h : st.OneKey token) (hfresh : NotRedrawn token st a)
    (hstep : st.step a = some st') : st'.OneKey token := by
  have heffect := AuthState.step_effect hstep
  refine ⟨heffect.tokenRows h, ?_, ?_⟩
  · intro c hc hctoken k row hrow
    rcases heffect.keys.old_or_new k row hrow with ⟨old, hold, htoken, -, -⟩ | hnew
    · rw [htoken]
      cases heffect.creating with
      | same _ hcreating => exact h.pending c (hcreating ▸ hc) hctoken k old hold
      | asked device drawn haction hcreating =>
        rw [hcreating] at hc
        rcases List.mem_append.mp hc with hc | hc
        · exact h.pending c hc hctoken k old hold
        · obtain rfl := List.mem_singleton.mp hc
          subst haction
          exact (hfresh hctoken).1 (k, old) (Table.mem_rows.mpr hold)
      | stored index keyID clock _ hcreating =>
        exact h.pending c (List.mem_of_mem_eraseIdx (hcreating ▸ hc)) hctoken k old hold
    · obtain ⟨index, clock, haction, hpending⟩ := hnew.action
      cases heffect.creating with
      | same hother _ => exact absurd haction (hother index k clock)
      | asked device drawn haction' _ => rw [haction] at haction'; cases haction'
      | stored index' keyID clock' haction' hcreating =>
        obtain ⟨rfl, -, -⟩ := AuthAction.storeKey.inj (haction.symm.trans haction')
        rw [hcreating] at hc
        intro hsame
        -- Two calls would be about to store the token.
        have htwo := (filter_perm_eraseIdx hpending (·.2 = token)).length_eq
        have hmem : 0 < ((st.creating.eraseIdx index).filter (·.2 = token)).length :=
          List.length_pos_of_mem (List.mem_filter.mpr ⟨hc, decide_eq_true hctoken⟩)
        have hone := h.creating
        rw [List.filter_cons_of_pos (by simpa using hsame), List.filter_nil, List.length_append,
          List.length_singleton] at htwo
        omega
  · cases heffect.creating with
    | same _ hcreating => exact hcreating ▸ h.creating
    | asked device drawn haction hcreating =>
      subst haction
      rw [hcreating, List.filter_append, List.length_append]
      by_cases hdrawn : drawn = token
      · have hnone : st.creating.filter (·.2 = token) = [] := by
          rw [List.filter_eq_nil_iff]
          intro c hc
          simpa using (hfresh hdrawn).2 c hc
        rw [hnone, List.length_nil, Nat.zero_add]
        exact List.length_filter_le _ [(device, drawn)]
      · rw [List.filter_cons_of_neg (by simpa using hdrawn)]
        exact h.creating
    | stored index keyID clock _ hcreating =>
      rw [hcreating]
      exact ((List.eraseIdx_sublist _ _).filter _).length_le.trans h.creating

theorem AuthState.oneKey_of_run {as : List (AuthAction δ κ)}
    (hfresh : Along AuthState.step (NotRedrawn token) (.empty : AuthState δ κ) as)
    (hrun : Run AuthState.step (.empty : AuthState δ κ) as st) : st.OneKey token :=
  hrun.invariant_along (fun _ _ _ h hfresh hstep => h.step hfresh hstep) hfresh
    (AuthState.oneKey_empty token)

/-- A key is revoked, its token is no other key, and these are the requests it let in. -/
structure RevokedToken (token : String) (k : κ) (requests : List (DeviceRequest δ))
    (st : AuthState δ κ) : Prop where
  distinct : st.OneKey token
  revoked : ∃ row, st.keys.lookup k = some row ∧ row.keyHash = token ∧ row.deletedAt ≠ none
  accepted : st.accepted.filter (·.token = token) = requests

theorem RevokedToken.step {k : κ} {requests : List (DeviceRequest δ)}
    (h : RevokedToken token k requests st) (hfresh : NotRedrawn token st a)
    (hstep : st.step a = some st') : RevokedToken token k requests st' := by
  have heffect := AuthState.step_effect hstep
  obtain ⟨row, hrow, htoken, hdeleted⟩ := h.revoked
  refine ⟨h.distinct.step hfresh hstep, ?_, ?_⟩
  · obtain ⟨row', hrow', hkept, -, hactive⟩ := heffect.keys.kept k row hrow
    exact ⟨row', hrow', hkept.trans htoken, mt hactive hdeleted⟩
  · rw [← h.accepted]
    cases heffect.requests with
    | same _ hacc => rw [hacc]
    | found _ _ _ _ _ _ hacc => rw [hacc]
    | refused _ _ hacc => rw [hacc]
    | letIn index r k' row' _ hrow' htoken' _ hactive _ hacc =>
      have hother : r.token ≠ token := by
        intro hsame
        obtain rfl := h.distinct.rows k' row' k row hrow' hrow (htoken'.trans hsame) htoken
        obtain rfl := Option.some.inj (hrow.symm.trans hrow')
        exact hdeleted hactive
      rw [hacc, List.filter_append, List.filter_cons_of_neg (by simpa using hother),
        List.filter_nil, List.append_nil]

/-- From the moment its key is revoked a token that is not drawn again lets no further request in,
not even one that was already past the first query. -/
theorem revoked_token_refused {as bs : List (AuthAction δ κ)} {k : κ} {row : ApiKey δ}
    (hfresh : Along AuthState.step (NotRedrawn row.keyHash) (.empty : AuthState δ κ) (as ++ bs))
    (hrun : Run AuthState.step (.empty : AuthState δ κ) as st)
    (hkey : st.keys.lookup k = some row) (hrevoked : row.deletedAt ≠ none)
    (hrest : Run AuthState.step st bs st') :
    st'.accepted.filter (·.token = row.keyHash) = st.accepted.filter (·.token = row.keyHash) := by
  have hdistinct := AuthState.oneKey_of_run hfresh.append_left hrun
  have hend : RevokedToken row.keyHash k (st.accepted.filter (·.token = row.keyHash)) st' :=
    hrest.invariant_along (fun _ _ _ h hguard hstep => h.step hguard hstep)
      (hfresh.append_right hrun) ⟨hdistinct, ⟨row, hkey, rfl, hrevoked⟩, rfl⟩
  exact hend.accepted

/-- The key is revoked between the two queries of a request. -/
def revokedBetween : List (AuthAction Nat Nat) :=
  firstRequest ++ [.request none "u" "t", .revokeKey 70 3]

theorem revoked_between_queries : ∃ st st' row,
    Run AuthState.step .empty revokedBetween st ∧ st.keys.lookup 70 = some row ∧
    Run AuthState.step st [.authenticate 0 none 4] st' ∧
    st'.accepted.filter (·.token = row.keyHash) = st.accepted.filter (·.token = row.keyHash) := by
  have hfresh : Along AuthState.step (NotRedrawn "t") (.empty : AuthState Nat Nat)
      (revokedBetween ++ [.authenticate 0 none 4]) := by decide +kernel
  have hkey : (revokedBetween.foldlM AuthState.step .empty).map (·.keys.lookup 70) =
      some (some ⟨7, "t", 1, none, none, some 3⟩) := by decide +kernel
  have hrest : ((revokedBetween.foldlM AuthState.step .empty).bind
      (·.step (.authenticate 0 none 4))).isSome = true := by decide +kernel
  obtain ⟨st, hrun, hrow⟩ := Option.map_eq_some_iff.mp hkey
  rw [hrun, Option.bind_some] at hrest
  obtain ⟨st', hstep⟩ := Option.isSome_iff_exists.mp hrest
  have hrun' : Run AuthState.step st [.authenticate 0 none 4] st' :=
    Run.cons_iff.mpr ⟨st', hstep, Run.nil_iff.mpr rfl⟩
  exact ⟨st, st', _, hrun, hrow, hrun', revoked_token_refused hfresh hrun hrow (by simp) hrun'⟩

/-! ## Deleted devices -/

def AuthState.acceptedUnder (uuid : String) (st : AuthState δ κ) : List (DeviceRequest δ) :=
  st.accepted.filter (·.uuidFirmware = uuid)

def AuthState.checkingUnder (uuid : String) (st : AuthState δ κ) : List (DeviceRequest δ) :=
  st.checking.filter (·.uuidFirmware = uuid)

/-- The device that is registered under a UUID is deleted. The requests under it that were let in
are those `before` and some of those that were `waiting`, of which the others may still be let in. -/
structure DeletedDevice (uuid : String) (d : δ) (before waiting : List (DeviceRequest δ))
    (st : AuthState δ κ) : Prop where
  sound : st.Sound
  deleted : ∃ row, st.devices.lookup d = some row ∧ row.uuidFirmware = uuid ∧ row.deletedAt ≠ none
  requests : ∃ late, st.acceptedUnder uuid = before ++ late ∧
    (late ++ st.checkingUnder uuid).Subperm waiting

theorem DeletedDevice.step {uuid : String} {d : δ} {before waiting : List (DeviceRequest δ)}
    (h : DeletedDevice uuid d before waiting st) (hstep : st.step a = some st') :
    DeletedDevice uuid d before waiting st' := by
  have heffect := AuthState.step_effect hstep
  obtain ⟨row, hrow, huuid, hdeleted⟩ := h.deleted
  obtain ⟨late, haccepted, hwaiting⟩ := h.requests
  refine ⟨h.sound.step hstep, ?_, ?_⟩
  · obtain ⟨row', hrow', hkept, hactive⟩ := heffect.devices.kept d row hrow
    exact ⟨row', hrow', hkept.trans huuid, mt hactive hdeleted⟩
  · unfold AuthState.acceptedUnder at haccepted ⊢
    unfold AuthState.checkingUnder at hwaiting ⊢
    cases heffect.requests with
    | same hch hacc => exact ⟨late, by rw [hacc, haccepted], by rw [hch]; exact hwaiting⟩
    | found r row' hrow' huuid' hactive hch hacc =>
      -- The query finds another device, with another UUID.
      have hother : r.uuidFirmware ≠ uuid := by
        intro hsame
        obtain hd := h.sound.uuids _ _ _ _ hrow' hrow (huuid'.trans (hsame.trans huuid.symm))
        rw [hd] at hrow'
        obtain rfl := Option.some.inj (hrow.symm.trans hrow')
        exact hdeleted hactive
      refine ⟨late, by rw [hacc, haccepted], ?_⟩
      rw [hch, List.filter_append, List.filter_cons_of_neg (by simpa using hother),
        List.filter_nil, List.append_nil]
      exact hwaiting
    | refused index hch hacc =>
      refine ⟨late, by rw [hacc, haccepted], ?_⟩
      rw [hch]
      exact (((List.eraseIdx_sublist _ _).filter _).append_left late).subperm.trans hwaiting
    | letIn index r k key hpending _ _ _ _ hch hacc =>
      refine ⟨late ++ [r].filter (·.uuidFirmware = uuid), ?_, ?_⟩
      · rw [hacc, List.filter_append, haccepted, List.append_assoc]
      · rw [hch, List.append_assoc]
        exact ((filter_perm_eraseIdx hpending _).append_left late).subperm.trans hwaiting

/-- Once a device is deleted, the requests that are still let in under its UUID are among those that
were past the first query by then; the UUID is never registered again. -/
theorem deleted_device_refused {as bs : List (AuthAction δ κ)} {d : δ} {row : DeviceRow}
    (hrun : Run AuthState.step (.empty : AuthState δ κ) as st)
    (hdevice : st.devices.lookup d = some row) (hdeleted : row.deletedAt ≠ none)
    (hrest : Run AuthState.step st bs st') :
    (∃ late, st'.acceptedUnder row.uuidFirmware = st.acceptedUnder row.uuidFirmware ++ late ∧
      late.Subperm (st.checkingUnder row.uuidFirmware)) ∧
    ∀ d' row', st'.devices.lookup d' = some row' → row'.uuidFirmware = row.uuidFirmware →
      d' = d ∧ row'.deletedAt ≠ none := by
  have hend : DeletedDevice row.uuidFirmware d (st.acceptedUnder row.uuidFirmware)
      (st.checkingUnder row.uuidFirmware) st' :=
    hrest.invariant (fun _ _ _ h hstep => h.step hstep)
      ⟨AuthState.sound_of_run hrun, ⟨row, hdevice, rfl, hdeleted⟩, [],
        (List.append_nil _).symm, List.Subperm.refl _⟩
  obtain ⟨end_, hrow, huuid, hstays⟩ := hend.deleted
  obtain ⟨late, haccepted, hwaiting⟩ := hend.requests
  refine ⟨⟨late, haccepted, (List.sublist_append_left _ _).subperm.trans hwaiting⟩,
    fun d' row' hrow' huuid' => ?_⟩
  obtain rfl := hend.sound.uuids d' row' d end_ hrow' hrow (huuid'.trans huuid.symm)
  obtain rfl := Option.some.inj (hrow.symm.trans hrow')
  exact ⟨rfl, hstays⟩

end

/-- The device is deleted while one of its requests is past the first query. -/
def deletedInFlight : List (AuthAction Nat Nat) :=
  firstRequest ++ [.request none "u" "t", .deleteDevice 7 3]

/-- That request is let in, the next one is not, and the UUID stays taken. -/
def deletedAndAsked : List (AuthAction Nat Nat) :=
  [.authenticate 0 none 4, .request none "u" "t", .createDevice 8 "u"]

theorem deleted_device_asked : ∃ st st' row,
    Run AuthState.step .empty deletedInFlight st ∧ st.devices.lookup 7 = some row ∧
    Run AuthState.step st deletedAndAsked st' ∧ st'.accepted.length = 2 ∧
    (∃ late, st'.acceptedUnder row.uuidFirmware = st.acceptedUnder row.uuidFirmware ++ late ∧
      late.Subperm (st.checkingUnder row.uuidFirmware)) ∧
    ∀ d' row', st'.devices.lookup d' = some row' → row'.uuidFirmware = row.uuidFirmware →
      d' = 7 ∧ row'.deletedAt ≠ none := by
  have hdevice : (deletedInFlight.foldlM AuthState.step .empty).map (·.devices.lookup 7) =
      some (some ⟨"u", some 3⟩) := by decide +kernel
  have hend : ((deletedInFlight ++ deletedAndAsked).foldlM AuthState.step .empty).map
      (·.accepted.length) = some 2 := by decide +kernel
  obtain ⟨st, hrun, hrow⟩ := Option.map_eq_some_iff.mp hdevice
  obtain ⟨st', hboth, hlength⟩ := Option.map_eq_some_iff.mp hend
  obtain ⟨mid, hmid, hrest⟩ := Run.append_iff.mp hboth
  obtain rfl : st = mid := Option.some.inj (hrun.symm.trans hmid)
  exact ⟨st, st', _, hrun, hrow, hrest, hlength,
    deleted_device_refused hrun hrow (by simp) hrest⟩

end OpenGps.Backend
