import OpenGps.Backend.Locations

/-!
# Password recovery

`Request` and `Consume` of `internal/app/passwordreset`, statement by statement, over the table of
tokens. Every statement is atomic and no transaction spans two of them, so the calls of the service
interleave between any two statements.

`now` is the clock of the database. The service takes the expiry of a token from its own clock.
-/

namespace OpenGps.Backend

open OpenGps.Lib

/-- One hour. -/
def tokenTTL : Time := 60 * 60 * 1000000

/-- Fifteen minutes. -/
def rateLimitWindow : Time := 15 * 60 * 1000000

def maxRequestsPerEmail : Nat := 3

def maxRequestsPerIP : Nat := 10

def ErrInvalidResetToken := "invalid or expired reset token"

/-- The columns of `password_reset_tokens` beside its key. -/
structure ResetToken (υ κ : Type) where
  userID : υ
  tokenHash : κ
  ipAddress : String
  expiresAt : Time
  usedAt : Option Time
  createdAt : Time
  deriving DecidableEq

inductive ResetResult where
  | requested (dispatched : Bool)
  | consumed
  | error (message : String)
  deriving DecidableEq

/-- The next statement of a call of `Request` (down to `send`) or of `Consume`. The tokens that
`countForUser` has seen, the first id that was free at `invalidate` and the time of the look-up in
`getByHash` are history. -/
inductive ResetPc (υ κ : Type) where
  | countForIP (email ip : String)
  | getByEmail (email ip : String)
  | countForUser (user : υ) (ip : String)
  | generate (user : υ) (ip : String) (seen : List Nat)
  | invalidate (user : υ) (ip : String) (seen : List Nat) (hash : κ)
  | insert (user : υ) (ip : String) (seen : List Nat) (hash : κ) (since : Nat)
  | send (user : υ) (seen : List Nat) (token : Nat)
  | getByHash (hash : κ)
  | markUsed (token : Nat) (user : υ) (readAt : Time)
  | resetPassword (token : Nat) (user : υ) (readAt : Time)
  | setMustChange (user : υ)
  | returned (result : ResetResult)
  deriving DecidableEq

structure ResetMail (υ : Type) where
  user : υ
  token : Nat
  sentAt : Time
  deriving DecidableEq

structure ResetCall (υ : Type) where
  user : υ
  token : Nat
  readAt : Time
  deriving DecidableEq

/-- `passes` (the requests that passed the per-IP check), `mails`, `resets` and `invalidated` are
history: no statement reads them. -/
structure ResetState (υ κ : Type) where
  users : Table String υ
  tokens : Table Nat (ResetToken υ κ)
  nextID : Nat
  now : Time
  calls : List (ResetPc υ κ)
  passes : List (String × Time)
  mails : List (ResetMail υ)
  resets : List (ResetCall υ)
  invalidated : List Nat

/-- `fresh` is the hash of the token that is generated, `clock` the clock of the service. -/
inductive ResetAction (υ κ : Type) where
  | request (email ip : String)
  | consume (hash : κ)
  | run (k : Nat) (commit : Commit) (fresh : κ) (clock : Time)
  | tick (now : Time)
  | users (users : Table String υ)

variable {υ κ : Type} [DecidableEq υ] [DecidableEq κ]

/-- The token is unused and unexpired. -/
def ResetToken.active (tok : ResetToken υ κ) (now : Time) : Bool :=
  tok.usedAt.isNone && now < tok.expiresAt

namespace ResetState

def new (users : Table String υ) (now : Time) : ResetState υ κ :=
  ⟨users, ∅, 0, now, [], [], [], [], []⟩

/-! ## Statements -/

def countRecentForIP (s : ResetState υ κ) (ip : String) (lookback : Time) : Nat :=
  s.tokens.rows.countP fun row => row.2.ipAddress = ip ∧ s.now - lookback < row.2.createdAt

/-- The tokens that `CountRecentForUser` counts. -/
def recentForUser (s : ResetState υ κ) (user : υ) (lookback : Time) : List Nat :=
  (s.tokens.rows.filter fun row => row.2.userID = user ∧ s.now - lookback < row.2.createdAt).map
    (·.1)

/-- The condition of `InvalidateOutstanding`. -/
def outstanding (s : ResetState υ κ) (user : υ) (tok : ResetToken υ κ) : Bool :=
  tok.userID = user && tok.active s.now

def invalidateOutstanding (s : ResetState υ κ) (user : υ) : ResetState υ κ :=
  { s with
    tokens := s.tokens.update (fun _ tok => s.outstanding user tok)
      fun tok => { tok with usedAt := some s.now }
    invalidated := s.invalidated ++
      (s.tokens.rows.filter fun row => s.outstanding user row.2).map (·.1) }

/-- `token_hash` is unique. -/
def insertToken (s : ResetState υ κ) (user : υ) (hash : κ) (ip : String) (expiresAt : Time) :
    Option (ResetState υ κ) :=
  if s.tokens.rows.any fun row => row.2.tokenHash = hash then none
  else some { s with
    tokens := s.tokens.insert s.nextID ⟨user, hash, ip, expiresAt, none, s.now⟩
    nextID := s.nextID + 1 }

def getByHash (s : ResetState υ κ) (hash : κ) : Option (Nat × ResetToken υ κ) :=
  s.tokens.rows.find? fun row => row.2.tokenHash = hash && row.2.active s.now

/-- The rows affected, and the state after it. -/
def markUsed (s : ResetState υ κ) (token : Nat) : Nat × ResetState υ κ :=
  let (rows, tokens) := s.tokens.updateAt token (·.usedAt.isNone)
    fun tok => { tok with usedAt := some s.now }
  (rows, { s with tokens })

def fail (message : String) : ResetPc υ κ := .returned (.error message)

/-- The statement of a call, and its next one. -/
def perform (s : ResetState υ κ) (commit : Commit) (fresh : κ) (clock : Time) :
    ResetPc υ κ → ResetPc υ κ × ResetState υ κ
  | .countForIP email ip =>
    if ip = "" then (.getByEmail email ip, s)
    else if commit ≠ .done then (fail "passwordreset.Request: rate-limit ip", s)
    else if maxRequestsPerIP ≤ s.countRecentForIP ip rateLimitWindow then
      (.returned (.requested false), s)
    else (.getByEmail email ip, { s with passes := s.passes ++ [(ip, s.now)] })
  | .getByEmail email ip =>
    if commit ≠ .done then (fail "passwordreset.Request: lookup user", s)
    else
      match s.users.lookup email with
      -- An unknown address gets the answer that a known one gets.
      | none => (.returned (.requested false), s)
      | some user => (.countForUser user ip, s)
  | .countForUser user ip =>
    let seen := s.recentForUser user rateLimitWindow
    if commit ≠ .done then (fail "passwordreset.Request: rate-limit user", s)
    else if maxRequestsPerEmail ≤ seen.length then (.returned (.requested false), s)
    else (.generate user ip seen, s)
  | .generate user ip seen =>
    if commit ≠ .done then (fail "passwordreset.Request: generate token", s)
    else (.invalidate user ip seen fresh, s)
  | .invalidate user ip seen hash =>
    settle commit s (s.invalidateOutstanding user) (.insert user ip seen hash s.nextID)
      (fail "passwordreset.Request: invalidate outstanding")
  | .insert user ip seen hash _ =>
    match s.insertToken user hash ip (clock + tokenTTL) with
    | none => (fail "passwordreset.Request: insert token", s)
    | some s' =>
      settle commit s s' (.send user seen s.nextID) (fail "passwordreset.Request: insert token")
  | .send user _ token =>
    settle commit s { s with mails := s.mails ++ [⟨user, token, s.now⟩] }
      (.returned (.requested true)) (fail "passwordreset.Request: send reset email")
  | .getByHash hash =>
    if commit ≠ .done then (fail "passwordreset.Consume: lookup token", s)
    else
      match s.getByHash hash with
      | none => (fail ErrInvalidResetToken, s)
      | some (token, tok) => (.markUsed token tok.userID s.now, s)
  | .markUsed token user readAt =>
    let (rows, s') := s.markUsed token
    settle commit s s'
      (if rows = 0 then fail ErrInvalidResetToken else .resetPassword token user readAt)
      (fail "passwordreset.Consume: mark used")
  | .resetPassword token user readAt =>
    -- The password may have been rotated although the call reports an error.
    (if commit = .done then .setMustChange user else fail "passwordreset.Consume: rotate password",
      { s with resets := s.resets ++ [⟨user, token, readAt⟩] })
  | .setMustChange _ =>
    (if commit = .done then .returned .consumed
      else fail "passwordreset.Consume: clear must-change", s)
  | .returned result => (.returned result, s)

def step (s : ResetState υ κ) : ResetAction υ κ → Option (ResetState υ κ)
  | .request email ip => some { s with calls := s.calls ++ [.countForIP email ip] }
  | .consume hash => some { s with calls := s.calls ++ [.getByHash hash] }
  | .run k commit fresh clock => do
    let pc ← s.calls[k]?
    let (pc, s') := s.perform commit fresh clock pc
    return { s' with calls := s.calls.set k pc }
  | .tick now => if s.now ≤ now then some { s with now } else none
  | .users users => some { s with users }

/-! ## What a statement does to the tokens -/

end ResetState

/-- The same token at a later time: it may have been used. -/
def ResetToken.Later (tok tok' : ResetToken υ κ) : Prop :=
  tok' = tok ∨ tok.usedAt = none ∧ ∃ t, tok' = { tok with usedAt := some t }

namespace ResetToken

variable {tok tok' : ResetToken υ κ} {now now' : Time}

omit [DecidableEq υ] [DecidableEq κ] in
theorem Later.userID (h : tok.Later tok') : tok'.userID = tok.userID := by
  rcases h with rfl | ⟨-, t, rfl⟩
  · rfl
  · rfl

omit [DecidableEq υ] [DecidableEq κ] in
theorem Later.expiresAt (h : tok.Later tok') : tok'.expiresAt = tok.expiresAt := by
  rcases h with rfl | ⟨-, t, rfl⟩
  · rfl
  · rfl

omit [DecidableEq υ] [DecidableEq κ] in
/-- A use is not taken back. -/
theorem Later.used (h : tok.Later tok') (hused : tok.usedAt ≠ none) : tok'.usedAt ≠ none := by
  rcases h with rfl | ⟨-, t, rfl⟩
  · exact hused
  · exact Option.some_ne_none t

omit [DecidableEq υ] [DecidableEq κ] in
theorem active_iff : tok.active now = true ↔ tok.usedAt = none ∧ now < tok.expiresAt := by
  rw [active, Bool.and_eq_true, Option.isNone_iff_eq_none, decide_eq_true_eq]

omit [DecidableEq υ] [DecidableEq κ] in
/-- A token that is active later was active before. -/
theorem Later.active (h : tok.Later tok') (hnow : now ≤ now') (hactive : tok'.active now' = true) :
    tok.active now = true := by
  rw [active_iff] at hactive ⊢
  rcases h with rfl | ⟨-, t, rfl⟩
  · exact ⟨hactive.1, Int.lt_of_le_of_lt hnow hactive.2⟩
  · cases hactive.1

end ResetToken

namespace ResetState

/-- The four statements on the tokens. -/
inductive TokenStep (s s' : ResetState υ κ) : Prop where
  | same (tokens : s'.tokens = s.tokens) (nextID : s'.nextID = s.nextID) (now : s'.now = s.now)
      (invalidated : s'.invalidated = s.invalidated)
  | invalidate (user : υ) (state : s' = s.invalidateOutstanding user)
  | insert (user : υ) (hash : κ) (ip : String) (expiresAt : Time)
      (state : s.insertToken user hash ip expiresAt = some s')
  | mark (token : Nat) (state : s' = (s.markUsed token).2)

theorem TokenStep.refl (s : ResetState υ κ) : TokenStep s s := .same rfl rfl rfl rfl

theorem TokenStep.settle {s s' : ResetState υ κ} (h : TokenStep s s') (commit : Commit)
    (ok err : ResetPc υ κ) : TokenStep s (Backend.settle commit s s' ok err).2 := by
  rcases settle_snd commit s s' ok err with hsame | hnew
  · rw [hsame]
    exact .refl s
  · rw [hnew]
    exact h

theorem perform_tokens (s : ResetState υ κ) (commit : Commit) (fresh : κ) (clock : Time)
    (pc : ResetPc υ κ) : TokenStep s (s.perform commit fresh clock pc).2 := by
  cases pc with
  | countForIP email ip =>
    simp only [perform]
    split
    · exact .refl s
    · split
      · exact .refl s
      · split
        · exact .refl s
        · exact .same rfl rfl rfl rfl
  | getByEmail email ip =>
    simp only [perform]
    split
    · exact .refl s
    · split
      · exact .refl s
      · exact .refl s
  | countForUser user ip =>
    simp only [perform]
    split
    · exact .refl s
    · split
      · exact .refl s
      · exact .refl s
  | generate user ip seen =>
    simp only [perform]
    split
    · exact .refl s
    · exact .refl s
  | invalidate user ip seen hash => exact TokenStep.settle (.invalidate user rfl) commit _ _
  | insert user ip seen hash since =>
    simp only [perform]
    split
    · exact .refl s
    · next s' hinsert => exact TokenStep.settle (.insert user hash ip _ hinsert) commit _ _
  | send user seen token =>
    have hsame : TokenStep s { s with mails := s.mails ++ [⟨user, token, s.now⟩] } :=
      .same rfl rfl rfl rfl
    exact hsame.settle commit _ _
  | getByHash hash =>
    simp only [perform]
    split
    · exact .refl s
    · split
      · exact .refl s
      · exact .refl s
  | markUsed token user readAt =>
    have hmark : TokenStep s (s.markUsed token).2 := .mark token rfl
    exact hmark.settle commit _ _
  | resetPassword token user readAt => exact .same rfl rfl rfl rfl
  | setMustChange user => exact .refl s
  | returned result => exact .refl s

theorem TokenStep.now {s s' : ResetState υ κ} (h : TokenStep s s') : s'.now = s.now := by
  cases h with
  | same tokens nextID now invalidated => exact now
  | invalidate user state => rw [state]; rfl
  | insert user hash ip expiresAt state =>
    rw [insertToken] at state
    split at state
    · cases state
    · cases state
      rfl
  | mark token state => rw [state]; rfl

/-- The ids in the table have been given out. -/
def FreshIDs (s : ResetState υ κ) : Prop :=
  ∀ id tok, s.tokens.lookup id = some tok → id < s.nextID

omit [DecidableEq υ] in
theorem insertToken_eq_some {s s' : ResetState υ κ} {user : υ} {hash : κ} {ip : String}
    {expiresAt : Time} (h : s.insertToken user hash ip expiresAt = some s') :
    s' = { s with
      tokens := s.tokens.insert s.nextID ⟨user, hash, ip, expiresAt, none, s.now⟩
      nextID := s.nextID + 1 } := by
  rw [insertToken] at h
  split at h
  · cases h
  · exact (Option.some.inj h).symm

omit [DecidableEq κ] in
theorem lookup_invalidateOutstanding {s : ResetState υ κ} {user : υ} {id : Nat} :
    (s.invalidateOutstanding user).tokens.lookup id = (s.tokens.lookup id).map fun tok =>
      if s.outstanding user tok then { tok with usedAt := some s.now } else tok :=
  Table.lookup_update

omit [DecidableEq κ] in
theorem outstanding_iff {s : ResetState υ κ} {user : υ} {tok : ResetToken υ κ} :
    s.outstanding user tok = true ↔ tok.userID = user ∧ tok.active s.now = true := by
  rw [outstanding, Bool.and_eq_true, decide_eq_true_eq]

omit [DecidableEq υ] [DecidableEq κ] in
theorem lookup_markUsed_self {s : ResetState υ κ} {token : Nat} :
    (s.markUsed token).2.tokens.lookup token = (s.tokens.lookup token).map fun tok =>
      if tok.usedAt.isNone then { tok with usedAt := some s.now } else tok :=
  Table.lookup_updateAt_self

omit [DecidableEq υ] [DecidableEq κ] in
theorem lookup_markUsed_of_ne {s : ResetState υ κ} {token id : Nat} (h : id ≠ token) :
    (s.markUsed token).2.tokens.lookup id = s.tokens.lookup id := Table.lookup_updateAt_of_ne h

/-- Every token is still there, at a later time, and the only new one is unused. -/
structure Onwards (s s' : ResetState υ κ) : Prop where
  later : ∀ id tok, s.tokens.lookup id = some tok →
    ∃ tok', s'.tokens.lookup id = some tok' ∧ tok.Later tok'
  back : ∀ id tok', s'.tokens.lookup id = some tok' →
    (∃ tok, s.tokens.lookup id = some tok ∧ tok.Later tok') ∨
      id = s.nextID ∧ s'.nextID = s.nextID + 1 ∧ tok'.usedAt = none
  nextID : s.nextID ≤ s'.nextID

omit [DecidableEq υ] [DecidableEq κ] in
theorem Onwards.of_same {s s' : ResetState υ κ} (htokens : s'.tokens = s.tokens)
    (hnextID : s'.nextID = s.nextID) : Onwards s s' := by
  refine ⟨fun id tok h => ⟨tok, htokens ▸ h, .inl rfl⟩, fun id tok h => .inl ⟨tok, ?_, .inl rfl⟩,
    Nat.le_of_eq hnextID.symm⟩
  rw [htokens] at h
  exact h

theorem TokenStep.onwards {s s' : ResetState υ κ} (h : TokenStep s s') (hids : s.FreshIDs) :
    Onwards s s' := by
  cases h with
  | same tokens nextID now invalidated => exact .of_same tokens nextID
  | invalidate user state =>
    subst state
    refine ⟨fun id tok hlookup => ?_, fun id tok' hlookup => .inl ?_, Nat.le_refl _⟩
    · refine ⟨_, lookup_invalidateOutstanding.trans (congrArg _ hlookup), ?_⟩
      dsimp only
      split
      · next hout =>
        exact .inr ⟨(ResetToken.active_iff.mp (outstanding_iff.mp hout).2).1, s.now, rfl⟩
      · exact .inl rfl
    · rw [lookup_invalidateOutstanding, Option.map_eq_some_iff] at hlookup
      obtain ⟨tok, htok, rfl⟩ := hlookup
      refine ⟨tok, htok, ?_⟩
      split
      · next hout =>
        exact .inr ⟨(ResetToken.active_iff.mp (outstanding_iff.mp hout).2).1, s.now, rfl⟩
      · exact .inl rfl
  | insert user hash ip expiresAt state =>
    obtain rfl := insertToken_eq_some state
    refine ⟨fun id tok hlookup => ⟨tok, ?_, .inl rfl⟩, fun id tok' hlookup => ?_, Nat.le_succ _⟩
    · exact (AList.lookup_insert_ne (Nat.ne_of_lt (hids id tok hlookup))).trans hlookup
    · -- A row of the new table is the new token or an old row.
      by_cases hid : id = s.nextID
      · subst hid
        obtain rfl := Option.some.inj ((AList.lookup_insert _).symm.trans hlookup)
        exact .inr ⟨rfl, rfl, rfl⟩
      · exact .inl ⟨tok', (AList.lookup_insert_ne hid).symm.trans hlookup, .inl rfl⟩
  | mark token state =>
    subst state
    refine ⟨fun id tok hlookup => ?_, fun id tok' hlookup => .inl ?_, Nat.le_refl _⟩
    · by_cases hid : id = token
      · subst hid
        refine ⟨_, lookup_markUsed_self.trans (congrArg _ hlookup), ?_⟩
        dsimp only
        split
        · next hunused => exact .inr ⟨Option.isNone_iff_eq_none.mp hunused, s.now, rfl⟩
        · exact .inl rfl
      · exact ⟨tok, (lookup_markUsed_of_ne hid).trans hlookup, .inl rfl⟩
    · by_cases hid : id = token
      · subst hid
        rw [lookup_markUsed_self, Option.map_eq_some_iff] at hlookup
        obtain ⟨tok, htok, rfl⟩ := hlookup
        refine ⟨tok, htok, ?_⟩
        split
        · next hunused => exact .inr ⟨Option.isNone_iff_eq_none.mp hunused, s.now, rfl⟩
        · exact .inl rfl
      · exact ⟨tok', (lookup_markUsed_of_ne hid).symm.trans hlookup, .inl rfl⟩

omit [DecidableEq υ] [DecidableEq κ] in
theorem Onwards.freshIDs {s s' : ResetState υ κ} (h : Onwards s s') (hids : s.FreshIDs) :
    s'.FreshIDs := by
  intro id tok' hlookup
  rcases h.back id tok' hlookup with ⟨tok, htok, -⟩ | ⟨rfl, hnextID, -⟩
  · exact Nat.lt_of_lt_of_le (hids id tok htok) h.nextID
  · rw [hnextID]
    exact Nat.lt_succ_self _

end ResetState

end OpenGps.Backend
