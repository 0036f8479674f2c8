import OpenGps.Backend.LocationBatch
import OpenGps.Firmware.Connectivity
import OpenGps.Firmware.LocationPayload
import OpenGps.Firmware.StoreMachine

/-!
# From the queue to the table of locations

The tracker and the backend as one system: the main loop with its queue on flash
(`src/main.cpp`, `src/persistent_fix_store.cpp`), the batch upload in sub-batches with one retry
(`src/transport.cpp`), the requests on their way, and the batch endpoint over its tables. A request
or its answer may be lost at any point, a late request is handled after the device gave up on it,
and the power may be cut between any two steps or inside one; the next boot runs `begin`.

No acknowledged fix is lost while sequence ids are not reused: a batch the backend handles names no
sequence id that is the key of another fix. Where a reset of the queue restarted the numbering, the
backend answers such a fix as accepted and drops it.
-/

namespace OpenGps.Uplink

open OpenGps.Lib OpenGps.Lib.CrashIo OpenGps.Firmware OpenGps.Backend

def batchMaxItems : Nat := 20

def subBatchItems : Nat := 3

/-! ## The wire -/

section
variable (number : Rat → Rat)

/-- A JSON number: the value the backend reads from the digits the device writes. What is not finite
is written as `null`. -/
def decodeNumber : Double → Option Rat
  | .finite value => some (number value)
  | _ => none

/-- The item the backend decodes from the object of a payload; `satellites_used` is unknown to it. -/
def decodeItem (json : LocationJson) : IngestLocationRequest where
  sequenceID := (json.sequenceId.getD 0).toUInt64
  recordedAt := json.recordedAt
  latitude := json.latitude.bind (decodeNumber number)
  longitude := json.longitude.bind (decodeNumber number)
  altitude := json.altitude.bind (decodeNumber number)
  speed := json.speed.bind (decodeNumber number)
  accuracy := json.accuracy.bind (decodeNumber number)
  batteryVoltage := json.batteryVoltage.bind (decodeNumber number)
  signalStrength := json.signalStrength.map (·.toInt)

/-- The item the backend receives for a queued record. -/
def uploadItem (live : LiveReadings) (record : FixRecord) : IngestLocationRequest :=
  decodeItem number (locationPayloadToJson (batchPayload live record))

end

/-! ## The system -/

/-- `transportPostBatch` between two posts. The verdicts are what the answers so far said of the
first `offset` records. -/
structure Upload where
  batch : List FixRecord
  live : LiveReadings
  offset : Nat
  retried : Bool
  verdicts : List (Option String)
  deriving DecidableEq

/-- The records of the next sub-batch. -/
def Upload.chunk (u : Upload) : List FixRecord := (u.batch.drop u.offset).take subBatchItems

/-- How a post goes. -/
inductive PostEvent where
  /-- The URL or the JSON does not fit its buffer. -/
  | overflow
  /-- No connection, an incomplete write, or a request that is lost. -/
  | unsent
  /-- The request is on its way and no answer to it is read. -/
  | unanswered
  /-- An answer other than 201 from in front of the handler. -/
  | refused (status : {status : Nat // status ≠ 201})
  | answered (clock : Time) (commit : Commit)
  deriving DecidableEq

structure SystemState (δ : Type) where
  flash : StoreState
  upload : Option Upload
  inFlight : List (List IngestLocationRequest)
  db : Database δ
  /-- The fixes that `ackFront` removed, with their rejection codes. -/
  removed : List (FixRecord × Option String)

inductive Action where
  | push (record : FixRecord) (faults : List Fault)
  | begin (capacity : UInt32) (faults : List Fault)
  | powerLoss
  /-- The flash wears or is formatted. -/
  | corrupt (path : StorePath) (content : Option (List UInt8))
  | peek (live : LiveReadings) (faults : List Fault)
  | post (event : PostEvent)
  /-- GNSS is not disabled, or the modem does not reconnect for the retry. -/
  | giveUp
  | ack (faults : List Fault)
  /-- The backend handles a request whose answer nobody waits for. -/
  | handle (index : Nat) (clock : Time) (commit : Commit)
  deriving DecidableEq

/-- The status line of an answer, as `postOnce` classifies it. -/
def resultOfStatus (status : Nat) : TransportResult :=
  if status = 201 then .sent else if status ≥ 500 then .httpServerError else .httpClientError

/-- The status of an answer of the handler; `mapDomainError` maps its errors. -/
def statusOf : BatchResponse → Nat
  | .created _ => 201
  | .badRequest => 400
  | .failed (.writer .foreignKeyViolation) => 400
  | .failed _ => 500

namespace Upload
variable (u : Upload)

/-- The loop of `transportPostBatch` after one `postOnce`: on to the next sub-batch, the retry, or
the end of the upload. -/
def next (result : TransportResult) (codes : List (Option String)) : Option Upload :=
  match result with
  | .sent =>
    some { u with
      offset := u.offset + u.chunk.length, retried := false, verdicts := u.verdicts ++ codes }
  | .transportError => if u.retried then none else some { u with retried := true }
  | _ => none

end Upload

namespace SystemState

variable {δ : Type} [DecidableEq δ] (number : Rat → Rat) (device : δ) (st : SystemState δ)

/-- An operation of the queue outside an upload. -/
def storeOp (op : StoreOp) (faults : List Fault) : Option (SystemState δ) :=
  if st.upload.isNone then
    (storeStep st.flash (.op op faults)).map fun flash => { st with flash }
  else none

def request (u : Upload) : List IngestLocationRequest := u.chunk.map (uploadItem number u.live)

/-- What one post does, from the last bytes written to the result of `postOnce`. -/
def post (u : Upload) : PostEvent → SystemState δ
  | .overflow => { st with upload := u.next .configError [] }
  | .unsent => { st with upload := u.next .transportError [] }
  | .unanswered =>
    -- The request may still be handled when the device has given up on it.
    { st with
      upload := u.next .transportError []
      inFlight := st.inFlight ++ [request number u] }
  | .refused status => { st with upload := u.next (resultOfStatus status) [] }
  | .answered clock commit =>
    let r := handleIngestBatch st.db device clock commit (request number u)
    let codes := ((toLocations device (request number u)).map (verdicts [])).getD []
    { st with upload := u.next (resultOfStatus (statusOf r.1)) codes, db := r.2 }

def step : Action → Option (SystemState δ)
  -- The caller leaves the id to the store.
  | .push record faults => st.storeOp (.push { record with sequenceId := 0 }) faults
  | .begin capacity faults => st.storeOp (.begin capacity) faults
  | .powerLoss => some { st with flash := { st.flash with store := .init }, upload := none }
  | .corrupt path content =>
    some { st with flash := { st.flash with files := Function.update st.flash.files path content } }
  | .peek live faults =>
    if st.upload.isNone then
      match st.flash.store.peek batchMaxItems (st.flash.disk faults) with
      | (some r, d) =>
        some { st with
          flash := ⟨r.store, d.files, d.written⟩
          upload := if r.out = [] then none else some ⟨r.out, live, 0, false, []⟩ }
      | (none, d) => some { st with flash := ⟨.init, d.files, d.written⟩ }
    else none
  | .post event =>
    match st.upload with
    | some u => if u.offset < u.batch.length then some (st.post number device u event) else none
    | none => none
  | .giveUp => if st.upload.isSome then some { st with upload := none } else none
  | .ack faults =>
    match st.upload with
    | some u =>
      if u.offset < u.batch.length then none
      else
        match st.flash.store.ackFront u.batch.length (st.flash.disk faults) with
        | (some (n, store), d) =>
          some { st with
            flash := ⟨store, d.files, d.written⟩
            upload := none
            removed := st.removed ++ (u.batch.zip u.verdicts).take n }
        -- The cut may come after the commit, so that the fixes may be gone.
        | (none, d) =>
          some { st with
            flash := ⟨.init, d.files, d.written⟩
            upload := none
            removed := st.removed ++ u.batch.zip u.verdicts }
    | none => none
  | .handle index clock commit =>
    match st.inFlight[index]? with
    | some items =>
      some { st with
        inFlight := st.inFlight.eraseIdx index
        db := (handleIngestBatch st.db device clock commit items).2 }
    | none => none

end SystemState

/-! ## What becomes of a removed fix -/

section
variable {δ : Type} {number : Rat → Rat} {device : δ}

/-- The fix has a row with its own `recorded_at`, or was reported as rejected. -/
def Kept (db : Database δ) (device : δ) (fix : FixRecord × Option String) : Prop :=
  fix.2.isSome ∨
    ∃ t, Rfc3339.parse (cString fix.1.recordedAt) = some t ∧ (device, t) ∈ db.locations

theorem Kept.mono {db db' : Database δ} {fix : FixRecord × Option String} (hkeeps : db.Keeps db')
    (h : Kept db device fix) : Kept db' device fix :=
  h.imp id fun ⟨t, ht, hrow⟩ => ⟨t, ht, hkeeps _ hrow⟩

/-- The records posted so far have their verdicts, and are kept. -/
structure UploadKept (db : Database δ) (device : δ) (u : Upload) : Prop where
  offset : u.offset = u.verdicts.length
  kept : ∀ fix ∈ u.batch.zip u.verdicts, Kept db device fix

theorem UploadKept.mono {db db' : Database δ} {u : Upload} (hkeeps : db.Keeps db')
    (h : UploadKept db device u) : UploadKept db' device u :=
  ⟨h.offset, fun fix hfix => (h.kept fix hfix).mono hkeeps⟩

/-- A post that was not answered with 201 leaves the verdicts as they are. -/
theorem UploadKept.next {db : Database δ} {u u' : Upload} (result : TransportResult)
    (codes : List (Option String)) (h : UploadKept db device u) (hresult : result ≠ .sent)
    (hnext : u.next result codes = some u') : UploadKept db device u' := by
  unfold Upload.next at hnext
  split at hnext
  · exact absurd rfl hresult
  · split at hnext
    · cases hnext
    · cases hnext
      exact ⟨h.offset, h.kept⟩
  · cases hnext

theorem resultOfStatus_sent {status : Nat} (h : resultOfStatus status = .sent) : status = 201 := by
  unfold resultOfStatus at h
  split at h
  · assumption
  · split at h <;> cases h

theorem created_of_status {r : BatchResponse} (h : statusOf r = 201) :
    ∃ result, r = .created result := by
  unfold statusOf at h
  split at h
  · exact ⟨_, rfl⟩
  all_goals cases h

/-- What the verdicts of one more sub-batch add. -/
theorem mem_zip_append {batch : List FixRecord} {old codes : List (Option String)}
    {fix : FixRecord × Option String} (h : fix ∈ batch.zip (old ++ codes)) :
    fix ∈ batch.zip old ∨ fix ∈ (batch.drop old.length).zip codes := by
  obtain ⟨i, hi⟩ := List.getElem?_of_mem h
  obtain ⟨hbatch, hcode⟩ := List.getElem?_zip_eq_some.mp hi
  rcases lt_or_ge i old.length with hlt | hge
  · rw [List.getElem?_append_left hlt] at hcode
    exact .inl (List.mem_of_getElem? (List.getElem?_zip_eq_some.mpr ⟨hbatch, hcode⟩))
  · rw [List.getElem?_append_right hge] at hcode
    rw [← Nat.add_sub_cancel' hge, ← List.getElem?_drop] at hbatch
    exact .inr (List.mem_of_getElem? (List.getElem?_zip_eq_some.mpr ⟨hbatch, hcode⟩))

variable [DecidableEq δ]

/-- Every key has its location, and so has every fix that was removed or is about to be, unless it
was rejected. -/
structure SystemInv (device : δ) (st : SystemState δ) : Prop where
  backed : st.db.Backed
  upload : ∀ u, st.upload = some u → UploadKept st.db device u
  removed : ∀ fix ∈ st.removed, Kept st.db device fix

/-- The backend handles a batch that names no sequence id of another fix: an item that is not
rejected has an id that is not a key yet, or is the key of the same instant, or that instant has a
row. -/
def IdsFree (number : Rat → Rat) (device : δ) (st : SystemState δ) : Action → Prop
  | .post (.answered _ .done) =>
    ∀ u ∈ st.upload, ∀ locs ∈ toLocations device (SystemState.request number u),
      ∀ loc ∈ accepted [] locs, st.db.FreeFor loc
  | _ => True

instance (st : SystemState δ) : ∀ a, Decidable (IdsFree number device st a)
  | .post (.answered _ .done) =>
    inferInstanceAs (Decidable (∀ u ∈ st.upload, ∀ locs ∈ toLocations device _, ∀ loc ∈ _, _))
  | .post (.answered _ .failed) | .post (.answered _ .unconfirmed) | .post .overflow
  | .post .unsent | .post .unanswered | .post (.refused _) | .push .. | .begin .. | .powerLoss
  | .corrupt .. | .peek .. | .giveUp | .ack _ | .handle .. => .isTrue trivial

/-- The sub-batch a 201 answers joins the kept records. -/
theorem UploadKept.answered {db : Database δ} {u u' : Upload} {clock : Time} {commit : Commit}
    {result : BatchResult} (hbacked : db.Backed) (h : UploadKept db device u)
    (hresult : (handleIngestBatch db device clock commit (SystemState.request number u)).1 =
      .created result)
    (hfree : commit = .done → ∀ locs, toLocations device (SystemState.request number u) = some locs →
      ∀ loc ∈ accepted [] locs, db.FreeFor loc)
    (hnext : u.next .sent
      (((toLocations device (SystemState.request number u)).map (verdicts [])).getD []) = some u') :
    UploadKept (handleIngestBatch db device clock commit (SystemState.request number u)).2 device
      u' := by
  obtain ⟨hkeeps, -, hcreated⟩ := handleIngestBatch_keeps db device clock commit
    (SystemState.request number u)
  obtain ⟨hdone, locs, hlocs, -, hstored⟩ := hcreated result hresult
  have hlen : locs.length = u.chunk.length := by
    rw [length_toLocations hlocs, SystemState.request, List.length_map]
  rw [hlocs] at hnext
  cases hnext
  refine ⟨?_, ?_⟩
  · show _ + _ = (u.verdicts ++ verdicts [] locs).length
    rw [List.length_append, length_verdicts, hlen, h.offset]
  · intro fix hfix
    rcases mem_zip_append hfix with hold | hnew
    · exact (h.kept fix hold).mono hkeeps
    · -- A record of this sub-batch: rejected, or accepted and stored.
      obtain ⟨i, hi⟩ := List.getElem?_of_mem hnew
      obtain ⟨hrecord, hcode⟩ := List.getElem?_zip_eq_some.mp hi
      rcases hfix2 : fix.2 with _ | code
      · rw [hfix2] at hcode
        have hlt : i < u.chunk.length := by
          rw [← hlen, ← length_verdicts [] locs]
          exact (List.getElem?_eq_some_iff.mp hcode).1
        have hchunk : u.chunk[i]? = some fix.1 := by
          rw [← h.offset] at hrecord
          rw [Upload.chunk, List.length_take] at hlt
          rw [Upload.chunk, List.getElem?_take_of_lt (by omega)]
          exact hrecord
        have hitem : (SystemState.request number u)[i]? = some (uploadItem number u.live fix.1) := by
          rw [SystemState.request, List.getElem?_map, hchunk]
          rfl
        obtain ⟨loc, hloc, hdevice, hparse⟩ := toLocations_getElem hlocs hitem
        have hmem := mem_accepted hloc hcode
        have hrow := hstored loc hmem hbacked (hfree hdone locs hlocs loc hmem)
        rw [Database.Stored, hdevice] at hrow
        exact .inr ⟨loc.recordedAt, hparse, hrow⟩
      · exact .inl (by rw [hfix2]; rfl)

theorem SystemInv.post {st : SystemState δ} {u : Upload} {event : PostEvent}
    (h : SystemInv device st) (hu : st.upload = some u)
    (hfree : IdsFree number device st (.post event)) :
    SystemInv device (st.post number device u event) := by
  have hkept := h.upload u hu
  cases event with
  | overflow =>
    refine ⟨h.backed, fun u' hu' => ?_, h.removed⟩
    exact UploadKept.next .configError [] hkept (by decide) hu'
  | unsent =>
    refine ⟨h.backed, fun u' hu' => ?_, h.removed⟩
    exact UploadKept.next .transportError [] hkept (by decide) hu'
  | unanswered =>
    refine ⟨h.backed, fun u' hu' => ?_, h.removed⟩
    exact UploadKept.next .transportError [] hkept (by decide) hu'
  | refused status =>
    refine ⟨h.backed, fun u' hu' => ?_, h.removed⟩
    have hnext : u.next (resultOfStatus status) [] = some u' := hu'
    exact hkept.next _ _ (fun hsent => status.2 (resultOfStatus_sent hsent)) hnext
  | answered clock commit =>
    obtain ⟨hkeeps, hbacked, -⟩ := handleIngestBatch_keeps st.db device clock commit
      (SystemState.request number u)
    refine ⟨hbacked h.backed, fun u' hu' => ?_, fun fix hfix => (h.removed fix hfix).mono hkeeps⟩
    by_cases hsent : resultOfStatus (statusOf
        (handleIngestBatch st.db device clock commit (SystemState.request number u)).1) = .sent
    · obtain ⟨result, hresult⟩ := created_of_status (resultOfStatus_sent hsent)
      refine UploadKept.answered h.backed hkept hresult ?_ ?_
      · rintro rfl
        exact hfree u hu
      · rw [← hsent]
        exact hu'
    · exact (UploadKept.next _ _ hkept hsent hu').mono hkeeps

theorem SystemInv.step {st st' : SystemState δ} {a : Action} (h : SystemInv device st)
    (hfree : IdsFree number device st a) (hstep : st.step number device a = some st') :
    SystemInv device st' := by
  have hstore : ∀ op faults, st.storeOp op faults = some st' → SystemInv device st' := by
    intro op faults hop
    unfold SystemState.storeOp at hop
    split at hop
    · obtain ⟨flash, -, rfl⟩ := Option.map_eq_some_iff.mp hop
      exact ⟨h.backed, h.upload, h.removed⟩
    · cases hop
  unfold SystemState.step at hstep
  cases a with
  | push record faults => exact hstore _ _ hstep
  | begin capacity faults => exact hstore _ _ hstep
  | powerLoss =>
    cases hstep
    exact ⟨h.backed, (fun _ hu => by cases hu), h.removed⟩
  | corrupt path content =>
    cases hstep
    exact ⟨h.backed, h.upload, h.removed⟩
  | peek live faults =>
    dsimp only at hstep
    split at hstep
    · split at hstep
      · next r d _ =>
        cases hstep
        refine ⟨h.backed, fun u hu => ?_, h.removed⟩
        dsimp only at hu
        split at hu
        · cases hu
        · cases hu
          exact ⟨rfl, by simp⟩
      · cases hstep
        exact ⟨h.backed, h.upload, h.removed⟩
    · cases hstep
  | post event =>
    dsimp only at hstep
    split at hstep
    · next u hu =>
      split at hstep
      · cases hstep
        exact h.post hu hfree
      · cases hstep
    · cases hstep
  | giveUp =>
    dsimp only at hstep
    split at hstep
    · cases hstep
      exact ⟨h.backed, (fun _ hu => by cases hu), h.removed⟩
    · cases hstep
  | ack faults =>
    dsimp only at hstep
    split at hstep
    · next u hu =>
      have hkept := (h.upload u hu).kept
      have hremoved : ∀ fixes : List (FixRecord × Option String), fixes ⊆ u.batch.zip u.verdicts →
          ∀ fix ∈ st.removed ++ fixes, Kept st.db device fix := by
        intro fixes hsub fix hfix
        rcases List.mem_append.mp hfix with hold | hnew
        · exact h.removed fix hold
        · exact hkept fix (hsub hnew)
      split at hstep
      · cases hstep
      split at hstep
      · cases hstep
        exact ⟨h.backed, (fun _ hu => by cases hu), hremoved _ (List.take_subset _ _)⟩
      · cases hstep
        exact ⟨h.backed, (fun _ hu => by cases hu), hremoved _ (List.Subset.refl _)⟩
    · cases hstep
  | handle index clock commit =>
    dsimp only at hstep
    split at hstep
    · next items _ =>
      cases hstep
      obtain ⟨hkeeps, hbacked, -⟩ := handleIngestBatch_keeps st.db device clock commit items
      exact ⟨hbacked h.backed, fun u hu => (h.upload u hu).mono hkeeps,
        fun fix hfix => (h.removed fix hfix).mono hkeeps⟩
    · cases hstep

/-- Before the first upload: every key in the tables has its location. -/
structure Start (st : SystemState δ) : Prop where
  backed : st.db.Backed
  upload : st.upload = none
  removed : st.removed = []

/-- In any run that never hands the backend the sequence id of another fix, whatever is lost on the
way and whenever the power is cut or the queue is reset, each fix that `ackFront` removed has a row
of its own instant or was reported as rejected. -/
theorem acknowledged_fixes_kept {st₀ st : SystemState δ} {as : List Action} (h₀ : Start st₀)
    (hrun : Run (SystemState.step number device) st₀ as st)
    (hfree : Along (SystemState.step number device) (IdsFree number device) st₀ as) :
    ∀ fix ∈ st.removed, Kept st.db device fix := by
  have hinv : SystemInv device st₀ := by
    refine ⟨h₀.backed, fun u hu => ?_, fun fix hfix => ?_⟩
    · rw [h₀.upload] at hu
      cases hu
    · rw [h₀.removed] at hfix
      cases hfix
  exact (Run.invariant_along (fun _ _ _ h hfree hstep => h.step hfree hstep) hfree hrun hinv).removed

end

/-! ## A reset that restarts the numbering -/

/-- A fix at a full hour of one day. -/
def fixAt (hour : Int16) : FixRecord where
  sequenceId := 0
  bootId := 1
  recordedAt := snprintf (timestamp 2026 7 15 hour 0 0)
  latitudeE6 := 19432608
  longitudeE6 := -99133207
  altitudeCm := 0
  speedMmps := 0
  accuracyCm := 0
  satellitesUsed := 0
  batteryMv := 0
  signalStrength := 0
  validFields := 0

/-- A new tracker, registered as device 7, before its first upload. -/
def firstUse : SystemState Nat where
  flash := newDevice
  upload := none
  inFlight := []
  db :=
    { devices := (∅ : Table Nat Device).insert 7 ⟨none, none⟩
      locations := ∅
      locationIngestKeys := ∅ }
  removed := []

theorem firstUse_start : Start firstUse :=
  ⟨fun _ _ _ h => (by cases h), rfl, rfl⟩

def uploadOnce (clock : Time) : List Action :=
  [.peek ⟨3700, 20⟩ [], .post (.answered clock .done), .ack []]

/-- The first answer is lost, the late request is handled all the same, and the retry is answered. -/
def lostAnswer : List Action :=
  [.begin 2 [], .push (fixAt 12) [], .peek ⟨3700, 20⟩ [], .post .unanswered, .handle 0 1 .done,
    .post (.answered 2 .done), .ack []]

set_option maxRecDepth 20000 in
theorem acknowledged_fixes_kept_lost_answer : ∃ st,
    Run (SystemState.step id 7) firstUse lostAnswer st ∧
      st.removed = [({ fixAt 12 with sequenceId := 1 }, none)] ∧
      ∀ fix ∈ st.removed, Kept st.db 7 fix := by
  obtain ⟨st, hrun, hst⟩ := Option.map_eq_some_iff.mp
    (show (lostAnswer.foldlM (SystemState.step id 7) firstUse).map (·.removed) =
      some [({ fixAt 12 with sequenceId := 1 }, none)] by decide +kernel)
  have hfree : Along (SystemState.step id 7) (IdsFree id 7) firstUse lostAnswer := by
    decide +kernel
  exact ⟨st, hrun, hst, acknowledged_fixes_kept firstUse_start hrun hfree⟩

/-- Between two uploads the device boots with another capacity. -/
def resetBetween : List Action :=
  [.begin 2 [], .push (fixAt 12) []] ++ uploadOnce 1 ++
    [.powerLoss, .begin 3 [], .push (fixAt 13) []] ++ uploadOnce 2

set_option maxRecDepth 20000 in
/-- A boot with another capacity resets the queue, so that the next fix has the sequence id of the
first one again. Its upload is answered as accepted; it is removed and has no row. -/
theorem reset_drops_acknowledged_fix : ∃ st fix,
    Run (SystemState.step id 7) firstUse resetBetween st ∧ fix ∈ st.removed ∧ ¬ Kept st.db 7 fix := by
  obtain ⟨st, hrun, hst⟩ := Option.map_eq_some_iff.mp
    (show (resetBetween.foldlM (SystemState.step id 7) firstUse).map
        (fun st => (st.removed[1]?, st.db.locations.lookup (7, 1784120400000000))) =
      some (some ({ fixAt 13 with sequenceId := 1 }, none), none) by decide +kernel)
  obtain ⟨hremoved, hrow⟩ := Prod.mk.inj hst
  refine ⟨st, _, hrun, List.mem_of_getElem? hremoved, ?_⟩
  rintro (hrejected | ⟨t, ht, hmem⟩)
  · cases hrejected
  · obtain rfl : t = 1784120400000000 := by
      refine Option.some.inj (ht.symm.trans ?_)
      decide +kernel
    rw [← AList.lookup_isSome, hrow] at hmem
    cases hmem

end OpenGps.Uplink
