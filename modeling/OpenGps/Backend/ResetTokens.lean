import OpenGps.Lib.Calls
import OpenGps.Lib.Run
import OpenGps.Backend.PasswordReset

/-!
# Reset tokens are single-use

The conditional update of `MarkUsed` decides between the consumers of a token and the requests that
invalidate it: whoever stamps `used_at` first keeps the token from all others.
-/

namespace OpenGps.Backend

open OpenGps.Lib

variable {υ κ : Type} [DecidableEq υ] [DecidableEq κ]

namespace ResetState

/-- The token was issued for the user and unexpired when it was read. -/
def Issued (s : ResetState υ κ) (token : Nat) (user : υ) (readAt : Time) : Prop :=
  ∃ tok, s.tokens.lookup token = some tok ∧ tok.userID = user ∧ readAt < tok.expiresAt

/-- The token is used, and it was not an invalidation that used it. -/
def Spent (s : ResetState υ κ) (token : Nat) : Prop :=
  (∃ tok, s.tokens.lookup token = some tok ∧ tok.usedAt ≠ none) ∧ token ∉ s.invalidated

def ConsumeOk (s : ResetState υ κ) : ResetPc υ κ → Prop
  | .markUsed token user readAt => s.Issued token user readAt
  | .resetPassword token user readAt =>
    s.Issued token user readAt ∧ s.Spent token ∧ token ∉ s.resets.map (·.token)
  | _ => True

/-- The call is about to reset the password with the token. -/
def Resetting (s : ResetState υ κ) (i token : Nat) : Prop :=
  ∃ user readAt, s.calls[i]? = some (.resetPassword token user readAt)

structure TokenInv (s : ResetState υ κ) : Prop where
  ids : s.FreshIDs
  dead : ∀ id ∈ s.invalidated, ∃ tok, s.tokens.lookup id = some tok ∧ tok.usedAt ≠ none
  calls : ∀ pc ∈ s.calls, s.ConsumeOk pc
  unique : ∀ i j token, s.Resetting i token → s.Resetting j token → i = j
  nodup : (s.resets.map (·.token)).Nodup
  resets : ∀ c ∈ s.resets, s.Issued c.token c.user c.readAt ∧ s.Spent c.token

omit [DecidableEq υ] [DecidableEq κ] in
theorem Issued.onwards {s s' : ResetState υ κ} {token : Nat} {user : υ} {readAt : Time}
    (h : s.Issued token user readAt) (hon : Onwards s s') : s'.Issued token user readAt := by
  obtain ⟨tok, htok, huser, hread⟩ := h
  obtain ⟨tok', htok', hlater⟩ := hon.later token tok htok
  exact ⟨tok', htok', hlater.userID.trans huser, hlater.expiresAt ▸ hread⟩

/-- An invalidation uses unused tokens only. -/
def Invalidates (s s' : ResetState υ κ) : Prop :=
  ∀ id ∈ s'.invalidated, id ∈ s.invalidated ∨
    (∃ tok, s.tokens.lookup id = some tok ∧ tok.usedAt = none) ∧
      ∃ tok', s'.tokens.lookup id = some tok' ∧ tok'.usedAt ≠ none

theorem TokenStep.invalidates {s s' : ResetState υ κ} (h : TokenStep s s') : Invalidates s s' := by
  intro id hid
  cases h with
  | same tokens nextID now invalidated => exact .inl (invalidated ▸ hid)
  | insert user hash ip expiresAt state =>
    rw [insertToken_eq_some state] at hid
    exact .inl hid
  | mark token state =>
    rw [state] at hid
    exact .inl hid
  | invalidate user state =>
    subst state
    rcases List.mem_append.mp hid with hold | hnew
    · exact .inl hold
    · obtain ⟨⟨_, tok⟩, hrow, rfl⟩ := List.mem_map.mp hnew
      obtain ⟨hrow, hout⟩ := List.mem_filter.mp hrow
      have htok := Table.mem_rows.mp hrow
      refine .inr ⟨⟨tok, htok, (ResetToken.active_iff.mp (outstanding_iff.mp hout).2).1⟩, _,
        lookup_invalidateOutstanding.trans (congrArg _ htok), ?_⟩
      show (if s.outstanding user tok then _ else tok).usedAt ≠ none
      rw [if_pos hout]
      exact Option.some_ne_none _

omit [DecidableEq υ] [DecidableEq κ] in
theorem Spent.onwards {s s' : ResetState υ κ} {token : Nat} (h : s.Spent token)
    (hinvalidates : Invalidates s s') (hon : Onwards s s') : s'.Spent token := by
  obtain ⟨tok, htok, hused⟩ := h.1
  obtain ⟨tok', htok', hlater⟩ := hon.later token tok htok
  refine ⟨⟨tok', htok', hlater.used hused⟩, fun hmem => ?_⟩
  rcases hinvalidates token hmem with hold | ⟨⟨u, hu, hunused⟩, -⟩
  · exact h.2 hold
  · obtain rfl := Option.some.inj (htok.symm.trans hu)
    exact hused hunused

/-! ## The steps of a call -/

/-- The one statement that resets a password. -/
theorem perform_resets (s : ResetState υ κ) (commit : Commit) (fresh : κ) (clock : Time)
    (pc : ResetPc υ κ) : (s.perform commit fresh clock pc).2.resets = s.resets ∨
      ∃ token user readAt, pc = .resetPassword token user readAt ∧
        (s.perform commit fresh clock pc).2.resets = s.resets ++ [⟨user, token, readAt⟩] := by
  cases pc with
  | resetPassword token user readAt => exact .inr ⟨token, user, readAt, rfl, rfl⟩
  | insert user ip seen hash since =>
    simp only [perform]
    split
    · exact .inl rfl
    · next s' hinsert =>
      obtain rfl := insertToken_eq_some hinsert
      rcases settle_snd commit s _ (.send user seen s.nextID)
        (fail "passwordreset.Request: insert token") with hsame | hnew
      · rw [hsame]
        exact .inl rfl
      · rw [hnew]
        exact .inl rfl
  | invalidate | send | markUsed =>
    simp only [perform]
    rcases settle_snd commit s _ _ _ with hsame | hnew
    · rw [hsame]
      exact .inl rfl
    · rw [hnew]
      exact .inl rfl
  | countForIP | getByEmail | countForUser | generate | getByHash =>
    refine .inl ?_
    simp only [perform]
    repeat' split
    all_goals rfl
  | setMustChange | returned => exact .inl rfl

/-- What a consumer has found when it goes on: a token it read as unexpired, and then one that was
unused until its own update. -/
def Found (s s' : ResetState υ κ) : ResetPc υ κ → Prop
  | .markUsed token user readAt => s.Issued token user readAt
  | .resetPassword token user readAt => s.Issued token user readAt ∧
    (∃ tok, s.tokens.lookup token = some tok ∧ tok.usedAt = none) ∧ s' = (s.markUsed token).2
  | _ => True

theorem perform_found {s : ResetState υ κ} (commit : Commit) (fresh : κ) (clock : Time)
    {pc : ResetPc υ κ} (hok : s.ConsumeOk pc) :
    s.Found (s.perform commit fresh clock pc).2 (s.perform commit fresh clock pc).1 := by
  cases pc with
  | getByHash hash =>
    simp only [perform]
    split
    · trivial
    · split
      · trivial
      · next token tok hfound =>
        rw [ResetState.getByHash] at hfound
        have hrow := Table.mem_rows.mp (List.mem_of_find?_eq_some hfound)
        have hmatch := List.find?_some hfound
        rw [Bool.and_eq_true] at hmatch
        exact ⟨tok, hrow, rfl, (ResetToken.active_iff.mp hmatch.2).2⟩
  | markUsed token user readAt =>
    cases commit with
    | failed | unconfirmed => trivial
    | done =>
      simp only [perform, settle]
      split
      · trivial
      · next hrows =>
        refine ⟨hok, ?_, rfl⟩
        rw [ResetState.markUsed, Table.updateAt] at hrows
        obtain ⟨tok, htok, -⟩ := hok
        refine ⟨tok, htok, ?_⟩
        rw [htok] at hrows
        dsimp only at hrows
        split at hrows
        · next hunused => exact Option.isNone_iff_eq_none.mp hunused
        · exact absurd rfl hrows
  | insert user ip seen hash since =>
    simp only [perform]
    split
    · trivial
    · cases commit with
      | done | failed | unconfirmed => trivial
  | invalidate | send | resetPassword | setMustChange =>
    cases commit with
    | done | failed | unconfirmed => trivial
  | countForIP | getByEmail | countForUser | generate =>
    simp only [perform]
    repeat' split
    all_goals trivial
  | returned result => trivial

omit [DecidableEq υ] [DecidableEq κ] in
/-- A used token stays used. -/
theorem used_onwards {s s' : ResetState υ κ} (hon : Onwards s s') {id : Nat}
    (h : ∃ tok, s.tokens.lookup id = some tok ∧ tok.usedAt ≠ none) :
    ∃ tok, s'.tokens.lookup id = some tok ∧ tok.usedAt ≠ none := by
  obtain ⟨tok, htok, hused⟩ := h
  obtain ⟨tok', htok', hlater⟩ := hon.later id tok htok
  exact ⟨tok', htok', hlater.used hused⟩

/-! ### The invariant through a step -/

omit [DecidableEq υ] [DecidableEq κ] in
/-- An unused token has been neither invalidated nor used for a reset. -/
theorem TokenInv.untouched {s : ResetState υ κ} (h : s.TokenInv) {token : Nat}
    (hunused : ∃ tok, s.tokens.lookup token = some tok ∧ tok.usedAt = none) :
    token ∉ s.invalidated ∧ token ∉ s.resets.map (·.token) ∧ ¬ s.Spent token := by
  obtain ⟨tok, htok, hnone⟩ := hunused
  have hnot : ¬ ∃ tok, s.tokens.lookup token = some tok ∧ tok.usedAt ≠ none := by
    rintro ⟨tok', htok', hused⟩
    obtain rfl := Option.some.inj (htok.symm.trans htok')
    exact hused hnone
  refine ⟨fun hmem => hnot (h.dead token hmem), fun hmem => ?_, fun hspent => hnot hspent.1⟩
  obtain ⟨c, hc, rfl⟩ := List.mem_map.mp hmem
  exact hnot (h.resets c hc).2.1

theorem TokenInv.run {s : ResetState υ κ} {k : Nat} {commit : Commit} {fresh : κ} {clock : Time}
    {pc : ResetPc υ κ} (h : s.TokenInv) (hpc : s.calls[k]? = some pc) :
    TokenInv { (s.perform commit fresh clock pc).2 with
      calls := s.calls.set k (s.perform commit fresh clock pc).1 } := by
  have hok := h.calls pc (List.mem_of_getElem? hpc)
  have hon := (s.perform_tokens commit fresh clock pc).onwards h.ids
  have hinvalidates := (s.perform_tokens commit fresh clock pc).invalidates
  have hfound := perform_found commit fresh clock hok
  have hresets := s.perform_resets commit fresh clock pc
  generalize s.perform commit fresh clock pc = r at hon hinvalidates hfound hresets ⊢
  obtain ⟨pc', s'⟩ := r
  dsimp only at hon hinvalidates hfound hresets ⊢
  replace hon : Onwards s { s' with calls := s.calls.set k pc' } :=
    ⟨hon.later, hon.back, hon.nextID⟩
  -- What the step adds to the history, if it resets a password.
  have hadded : s'.resets = s.resets ∨ ∃ c, s'.resets = s.resets ++ [c] ∧
      pc = .resetPassword c.token c.user c.readAt := by
    rcases hresets with hsame | ⟨token, user, readAt, hcase, hnew⟩
    · exact .inl hsame
    · exact .inr ⟨_, hnew, hcase⟩
  refine ⟨hon.freshIDs h.ids, fun id hid => ?_, Calls.forall_mem_set ?_ fun j b hjk hj => ?_,
    fun i j token => ?_, ?_, fun c hc => ?_⟩
  · rcases hinvalidates id hid with hold | ⟨-, hused⟩
    · exact used_onwards hon (h.dead id hold)
    · exact hused
  · cases pc' with
    | markUsed token user readAt => exact Issued.onwards hfound hon
    | resetPassword token user readAt =>
      obtain ⟨hissued, hunused, rfl⟩ := hfound
      obtain ⟨hkept, hnew, -⟩ := h.untouched hunused
      obtain ⟨tok, htok, hnone⟩ := hunused
      refine ⟨hissued.onwards hon, ⟨⟨_, lookup_markUsed_self.trans (congrArg _ htok), ?_⟩,
        hkept⟩, hnew⟩
      dsimp only
      rw [if_pos (Option.isNone_iff_eq_none.mpr hnone)]
      exact Option.some_ne_none _
    | countForIP | getByEmail | countForUser | generate | invalidate | insert | send | getByHash
    | setMustChange | returned => trivial
  · have hold := h.calls b (List.mem_of_getElem? hj)
    cases b with
    | markUsed token user readAt => exact Issued.onwards hold hon
    | resetPassword token user readAt =>
      obtain ⟨hissued, hspent, hnew⟩ := hold
      refine ⟨hissued.onwards hon, hspent.onwards hinvalidates hon, ?_⟩
      show token ∉ s'.resets.map (·.token)
      rcases hadded with hsame | ⟨c, hlast, rfl⟩
      · rw [hsame]
        exact hnew
      · rw [hlast, List.map_append, List.mem_append, not_or]
        refine ⟨hnew, fun hmem => ?_⟩
        obtain rfl := List.mem_singleton.mp hmem
        exact hjk (h.unique j k _ ⟨_, _, hj⟩ ⟨_, _, hpc⟩)
    | countForIP | getByEmail | countForUser | generate | invalidate | insert | send | getByHash
    | setMustChange | returned => trivial
  · -- The call that moved on holds a token that was unused, the others hold used ones.
    refine Calls.unique_set (fun user readAt => ResetPc.resetPassword token user readAt)
      (fun i j => h.unique i j token) ?_ i j
    rintro user readAt rfl i ⟨user', readAt', hi⟩
    exact (h.untouched hfound.2.1).2.2 (h.calls _ (List.mem_of_getElem? hi)).2.1
  · show (s'.resets.map (·.token)).Nodup
    rcases hadded with hsame | ⟨c, hlast, rfl⟩
    · rw [hsame]
      exact h.nodup
    · rw [hlast, List.map_append, List.nodup_append]
      refine ⟨h.nodup, List.nodup_singleton _, fun token hold _ hnew heq => ?_⟩
      obtain rfl := List.mem_singleton.mp hnew
      rw [heq] at hold
      exact hok.2.2 hold
  · have hold : s.Issued c.token c.user c.readAt ∧ s.Spent c.token := by
      rcases hadded with hsame | ⟨d, hlast, rfl⟩
      · exact h.resets c (hsame ▸ hc)
      · have hc : c ∈ s'.resets := hc
        rw [hlast, List.mem_append, List.mem_singleton] at hc
        rcases hc with hc | rfl
        · exact h.resets c hc
        · exact ⟨hok.1, hok.2.1⟩
    exact ⟨hold.1.onwards hon, hold.2.onwards hinvalidates hon⟩

omit [DecidableEq υ] [DecidableEq κ] in
/-- A new call. -/
theorem TokenInv.addCall {s : ResetState υ κ} (h : s.TokenInv) {pc : ResetPc υ κ}
    (hpc : ∀ token user readAt, pc ≠ .markUsed token user readAt ∧
      pc ≠ .resetPassword token user readAt) : TokenInv { s with calls := s.calls ++ [pc] } := by
  refine ⟨h.ids, h.dead, fun b hb => ?_, fun i j token hi hj => ?_, h.nodup, h.resets⟩
  · rcases List.mem_append.mp hb with hold | hnew
    · exact h.calls b hold
    · obtain rfl := List.mem_singleton.mp hnew
      cases b with
      | markUsed token user readAt => exact absurd rfl (hpc token user readAt).1
      | resetPassword token user readAt => exact absurd rfl (hpc token user readAt).2
      | countForIP | getByEmail | countForUser | generate | invalidate | insert | send | getByHash
      | setMustChange | returned => trivial
  · have hold : ∀ i, Resetting { s with calls := s.calls ++ [pc] } i token →
        s.Resetting i token := fun _ =>
      Calls.isAt_append (fun user readAt => ResetPc.resetPassword token user readAt)
        fun user readAt => (hpc token user readAt).2
    exact h.unique i j token (hold i hi) (hold j hj)

theorem TokenStep.invalidated_subset {s s' : ResetState υ κ} (h : TokenStep s s') :
    s.invalidated ⊆ s'.invalidated := by
  intro id hid
  cases h with
  | same tokens nextID now invalidated => exact invalidated ▸ hid
  | insert user hash ip expiresAt state =>
    rw [insertToken_eq_some state]
    exact hid
  | mark token state =>
    rw [state]
    exact hid
  | invalidate user state =>
    rw [state]
    exact List.mem_append_left _ hid

theorem invalidated_subset {s s' : ResetState υ κ} {a : ResetAction υ κ}
    (hstep : s.step a = some s') : s.invalidated ⊆ s'.invalidated := by
  cases a with
  | run k commit fresh clock =>
    simp only [ResetState.step, Option.bind_eq_bind, Option.bind_eq_some_iff] at hstep
    obtain ⟨pc, -, hstep⟩ := hstep
    cases hstep
    exact (s.perform_tokens commit fresh clock pc).invalidated_subset
  | tick now =>
    rw [ResetState.step] at hstep
    split at hstep
    · cases hstep
      exact List.Subset.refl _
    · cases hstep
  | request email ip | consume hash | users users =>
    cases hstep
    exact List.Subset.refl _

theorem TokenInv.step {s s' : ResetState υ κ} {a : ResetAction υ κ} (h : s.TokenInv)
    (hstep : s.step a = some s') : s'.TokenInv := by
  cases a with
  | request email ip =>
    cases hstep
    exact h.addCall (by simp)
  | consume hash =>
    cases hstep
    exact h.addCall (by simp)
  | run k commit fresh clock =>
    simp only [ResetState.step, Option.bind_eq_bind, Option.bind_eq_some_iff] at hstep
    obtain ⟨pc, hpc, hstep⟩ := hstep
    cases hstep
    exact h.run hpc
  | tick now =>
    rw [ResetState.step] at hstep
    split at hstep
    · cases hstep
      exact ⟨h.ids, h.dead, h.calls, h.unique, h.nodup, h.resets⟩
    · cases hstep
  | users users =>
    cases hstep
    exact ⟨h.ids, h.dead, h.calls, h.unique, h.nodup, h.resets⟩

omit [DecidableEq υ] [DecidableEq κ] in
theorem tokenInv_new (users : Table String υ) (now : Time) :
    (ResetState.new users now : ResetState υ κ).TokenInv where
  ids := fun id tok h => by cases h
  dead := fun id h => by cases h
  calls := fun pc h => by cases h
  unique := fun i j token hi => by
    obtain ⟨_, _, hi⟩ := hi
    cases hi
  nodup := List.nodup_nil
  resets := fun c h => by cases h

end ResetState

/-- In every run, no two resets are for the same token, every reset is for the user of its token
and follows a look-up before the token expired, and a token that an invalidation has used leads to
no reset from then on. -/
theorem reset_tokens_single_use {users : Table String υ} {now : Time} {as : List (ResetAction υ κ)}
    {s : ResetState υ κ} (hrun : Run ResetState.step (.new users now) as s) :
    (s.resets.map (·.token)).Nodup ∧
      (∀ c ∈ s.resets, ∃ tok, s.tokens.lookup c.token = some tok ∧ tok.userID = c.user ∧
        c.readAt < tok.expiresAt) ∧
      ∀ bs t, Run ResetState.step s bs t → ∀ c ∈ t.resets, c.token ∉ s.invalidated := by
  have hinv : ∀ {bs : List (ResetAction υ κ)} {t : ResetState υ κ},
      Run ResetState.step (.new users now) bs t → t.TokenInv := fun h =>
    h.invariant (fun s a t hs hstep => hs.step hstep) (ResetState.tokenInv_new users now)
  have h := hinv hrun
  refine ⟨h.nodup, fun c hc => (h.resets c hc).1, fun bs t hlater c hc hmem => ?_⟩
  have hrest : (fun u : ResetState υ κ => s.invalidated ⊆ u.invalidated) t := hlater.invariant
    (fun _ _ _ hsub hstep => List.Subset.trans hsub (ResetState.invalidated_subset hstep))
    (List.Subset.refl _)
  exact ((hinv (Run.append_iff.mpr ⟨s, hrun, hlater⟩)).resets c hc).2.2 (hrest hmem)

/-- A consumer reads the first token, which the second request invalidates before the consumer uses
it; the second token is consumed. -/
def consumeAfterInvalidate : List (ResetAction Nat Nat) :=
  .request "a@b.c" "" :: List.replicate 7 (.run 0 .done 5 0) ++
    [.consume 5, .run 1 .done 0 0, .request "a@b.c" ""] ++ List.replicate 5 (.run 2 .done 6 0) ++
    .run 1 .done 0 0 :: List.replicate 2 (.run 2 .done 6 0) ++
    .consume 6 :: List.replicate 4 (.run 3 .done 0 0)

theorem reset_tokens_single_use_two : ∃ s : ResetState Nat Nat,
    Run ResetState.step (.new (AList.singleton "a@b.c" 1) 0) consumeAfterInvalidate s ∧
      s.resets = [⟨1, 1, 0⟩] ∧ s.invalidated = [0] ∧
      s.calls[1]? = some (.returned (.error ErrInvalidResetToken)) ∧
      ∀ bs t, Run ResetState.step s bs t → ∀ c ∈ t.resets, c.token ≠ 0 := by
  obtain ⟨s, hrun, hfacts⟩ := Option.map_eq_some_iff.mp (show
    (consumeAfterInvalidate.foldlM ResetState.step (.new (AList.singleton "a@b.c" 1) 0)).map
      (fun s => (s.resets, s.invalidated, s.calls[1]?)) =
        some ([⟨1, 1, 0⟩], [0], some (.returned (.error ErrInvalidResetToken))) by decide +kernel)
  obtain ⟨hresets, hfacts⟩ := Prod.mk.inj hfacts
  obtain ⟨hinvalidated, hcall⟩ := Prod.mk.inj hfacts
  refine ⟨s, hrun, hresets, hinvalidated, hcall, fun bs t hlater c hc heq => ?_⟩
  have hnot := (reset_tokens_single_use hrun).2.2 bs t hlater c hc
  rw [heq, hinvalidated] at hnot
  exact hnot List.mem_cons_self

end OpenGps.Backend
