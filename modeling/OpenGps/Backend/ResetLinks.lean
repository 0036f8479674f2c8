import OpenGps.Lib.Run
import OpenGps.Backend.PasswordReset

/-!
# The active reset link of a user

`InvalidateOutstanding` and the insert of the new token are two statements, so a user has at most
one active link exactly as long as no request inserts its token over one that another request has
inserted since it invalidated.
-/

namespace OpenGps.Backend

open OpenGps.Lib

variable {υ κ : Type} [DecidableEq υ] [DecidableEq κ]

namespace ResetState

def AtMostOneLink (s : ResetState υ κ) : Prop :=
  ∀ i j ti tj, s.tokens.lookup i = some ti → s.tokens.lookup j = some tj → ti.userID = tj.userID →
    ti.active s.now = true → tj.active s.now = true → i = j

/-- An insert that succeeds, with an expiry in the future, finds no active token of its user that
was inserted after its request invalidated. -/
def alone (s : ResetState υ κ) : ResetAction υ κ → Bool
  | .run k commit _ clock =>
    match s.calls[k]? with
    | some (.insert user ip _ hash since) =>
      commit = .failed || (s.insertToken user hash ip (clock + tokenTTL)).isNone ||
        clock + tokenTTL ≤ s.now ||
        s.tokens.rows.all fun row => row.1 < since || !s.outstanding user row.2
    | _ => true
  | _ => true

/-- A request about to insert has invalidated every active token older than its mark. -/
def SinceOk (s : ResetState υ κ) : ResetPc υ κ → Prop
  | .insert user _ _ _ since => since ≤ s.nextID ∧
    ∀ id tok, s.tokens.lookup id = some tok → tok.userID = user → tok.active s.now = true →
      since ≤ id
  | _ => True

structure LinkInv (s : ResetState υ κ) : Prop where
  ids : s.FreshIDs
  single : s.AtMostOneLink
  calls : ∀ pc ∈ s.calls, s.SinceOk pc

/-! ## Steps -/

omit [DecidableEq υ] [DecidableEq κ] in
theorem SinceOk.onwards {s s' : ResetState υ κ} {pc : ResetPc υ κ} (h : s.SinceOk pc)
    (hon : Onwards s s') (hnow : s.now ≤ s'.now) : s'.SinceOk pc := by
  cases pc with
  | insert user ip seen hash since =>
    obtain ⟨hle, hold⟩ := h
    refine ⟨Nat.le_trans hle hon.nextID, fun id tok' hlookup huser hactive => ?_⟩
    rcases hon.back id tok' hlookup with ⟨tok, htok, hlater⟩ | ⟨rfl, -⟩
    · exact hold id tok htok (hlater.userID ▸ huser) (hlater.active hnow hactive)
    · exact hle
  | countForIP | getByEmail | countForUser | generate | invalidate | send | getByHash | markUsed
  | resetPassword | setMustChange | returned => trivial

omit [DecidableEq υ] [DecidableEq κ] in
/-- No link comes to life but a new one, and a new one finds no other. -/
theorem AtMostOneLink.onwards {s s' : ResetState υ κ} (h : s.AtMostOneLink) (hon : Onwards s s')
    (hnow : s.now ≤ s'.now)
    (hnew : s'.nextID = s.nextID + 1 → ∀ new, s'.tokens.lookup s.nextID = some new →
      new.active s'.now = true → ∀ id tok, s.tokens.lookup id = some tok →
        tok.userID = new.userID → tok.active s.now = false) : s'.AtMostOneLink := by
  intro i j ti' tj' hi hj huser hti htj
  rcases hon.back i ti' hi with ⟨ti, hi₀, hlateri⟩ | ⟨rfl, hnextID, -⟩
  · have hti₀ := hlateri.active hnow hti
    rcases hon.back j tj' hj with ⟨tj, hj₀, hlaterj⟩ | ⟨rfl, hnextID, -⟩
    · refine h i j ti tj hi₀ hj₀ ?_ hti₀ (hlaterj.active hnow htj)
      rw [← hlateri.userID, huser, hlaterj.userID]
    · have hnot := hnew hnextID tj' hj htj i ti hi₀ (hlateri.userID.symm.trans huser)
      rw [hti₀] at hnot
      cases hnot
  · rcases hon.back j tj' hj with ⟨tj, hj₀, hlaterj⟩ | ⟨rfl, -, -⟩
    · have hnot := hnew hnextID ti' hi hti j tj hj₀ (hlaterj.userID.symm.trans huser.symm)
      rw [hlaterj.active hnow htj] at hnot
      cases hnot
    · rfl

/-- The insert is the one statement that gives out an id. -/
theorem perform_nextID {s : ResetState υ κ} {commit : Commit} {fresh : κ} {clock : Time}
    {pc : ResetPc υ κ} (h : (s.perform commit fresh clock pc).2.nextID = s.nextID + 1) :
    ∃ user ip seen hash since, pc = .insert user ip seen hash since ∧ commit ≠ .failed ∧
      s.insertToken user hash ip (clock + tokenTTL) = some (s.perform commit fresh clock pc).2 := by
  cases pc with
  | insert user ip seen hash since =>
    refine ⟨user, ip, seen, hash, since, rfl, ?_⟩
    simp only [perform] at h ⊢
    split at h
    · exact absurd h (Nat.ne_of_lt (Nat.lt_succ_self _))
    · next s' hinsert =>
      rw [hinsert]
      cases commit with
      | failed => exact absurd h (Nat.ne_of_lt (Nat.lt_succ_self _))
      | done | unconfirmed => exact ⟨by simp, rfl⟩
  | countForIP | getByEmail | countForUser | generate | getByHash | resetPassword | setMustChange
  | returned =>
    simp only [perform] at h
    repeat' split at h
    all_goals exact absurd h (Nat.ne_of_lt (Nat.lt_succ_self _))
  | invalidate | send | markUsed =>
    simp only [perform] at h
    rcases settle_snd commit s _ _ _ with hsame | hnew
    · rw [hsame] at h
      exact absurd h (Nat.ne_of_lt (Nat.lt_succ_self _))
    · rw [hnew] at h
      exact absurd h (Nat.ne_of_lt (Nat.lt_succ_self _))

/-- The call that moved on. -/
theorem SinceOk.perform {s : ResetState υ κ} {commit : Commit} {fresh : κ} {clock : Time}
    {pc : ResetPc υ κ} :
    (s.perform commit fresh clock pc).2.SinceOk (s.perform commit fresh clock pc).1 := by
  cases pc with
  | invalidate user ip seen hash =>
    cases commit with
    | done =>
      refine ⟨Nat.le_refl _, fun id tok' hlookup huser hactive => ?_⟩
      -- The statement has just used every active token of the user.
      rw [show (s.perform .done fresh clock (.invalidate user ip seen hash)).2 =
        s.invalidateOutstanding user from rfl, lookup_invalidateOutstanding,
        Option.map_eq_some_iff] at hlookup
      obtain ⟨tok, -, rfl⟩ := hlookup
      split at hactive
      · cases hactive
      · next hnot =>
        rw [if_neg hnot] at huser
        exact absurd (outstanding_iff.mpr ⟨huser, hactive⟩) hnot
    | failed | unconfirmed => trivial
  | insert user ip seen hash since =>
    simp only [ResetState.perform]
    split
    · trivial
    · cases commit with
      | done | failed | unconfirmed => trivial
  | send | setMustChange | resetPassword | markUsed =>
    cases commit with
    | done | failed | unconfirmed =>
      simp only [ResetState.perform, settle]
      repeat' split
      all_goals trivial
  | countForIP | getByEmail | countForUser | generate | getByHash | returned =>
    simp only [ResetState.perform]
    repeat' split
    all_goals trivial

theorem LinkInv.step {s s' : ResetState υ κ} {a : ResetAction υ κ} (h : s.LinkInv)
    (hstep : s.step a = some s') (halone : s.alone a = true) : s'.LinkInv := by
  cases a with
  | request email ip =>
    cases hstep
    refine ⟨h.ids, h.single, fun pc hpc => ?_⟩
    rcases List.mem_append.mp hpc with hold | hnew
    · exact h.calls pc hold
    · obtain rfl := List.mem_singleton.mp hnew
      trivial
  | consume hash =>
    cases hstep
    refine ⟨h.ids, h.single, fun pc hpc => ?_⟩
    rcases List.mem_append.mp hpc with hold | hnew
    · exact h.calls pc hold
    · obtain rfl := List.mem_singleton.mp hnew
      trivial
  | run k commit fresh clock =>
    simp only [ResetState.step, Option.bind_eq_bind, Option.bind_eq_some_iff] at hstep
    obtain ⟨pc, hpc, hstep⟩ := hstep
    cases hstep
    have hon := (s.perform_tokens commit fresh clock pc).onwards h.ids
    have hnow := (s.perform_tokens commit fresh clock pc).now
    refine ⟨hon.freshIDs h.ids, ?_, fun b hb => ?_⟩
    · show AtMostOneLink (s.perform commit fresh clock pc).2
      refine AtMostOneLink.onwards h.single hon (Int.le_of_eq hnow.symm) fun hnextID new hlookup
        hactive id tok htok huser => ?_
      obtain ⟨user, ip, seen, hash, since, rfl, hcommit, hinsert⟩ := perform_nextID hnextID
      obtain ⟨-, hsince⟩ := h.calls _ (List.mem_of_getElem? hpc)
      simp only [alone, hpc, Bool.or_eq_true, decide_eq_true_eq, List.all_eq_true] at halone
      -- The new token is the one this call inserts.
      rw [insertToken_eq_some hinsert] at hlookup hactive
      obtain rfl := Option.some.inj ((AList.lookup_insert _).symm.trans hlookup)
      cases hold : tok.active s.now with
      | false => rfl
      | true =>
        have hout := outstanding_iff.mpr ⟨huser, hold⟩
        rcases halone with ((hfailed | hnone) | hexpired) | hrows
        · exact absurd hfailed hcommit
        · rw [hinsert] at hnone
          cases hnone
        · exact absurd (ResetToken.active_iff.mp hactive).2 (Int.not_lt.mpr hexpired)
        · rcases hrows (id, tok) (Table.mem_rows.mpr htok) with hlt | hnot
          · exact absurd (hsince id tok htok huser hold) (Nat.not_le.mpr hlt)
          · simp [hout] at hnot
    · rcases List.mem_or_eq_of_mem_set hb with hold | rfl
      · show (s.perform commit fresh clock pc).2.SinceOk b
        exact (h.calls b hold).onwards hon (Int.le_of_eq hnow.symm)
      · show (s.perform commit fresh clock pc).2.SinceOk (s.perform commit fresh clock pc).1
        exact SinceOk.perform
  | tick now =>
    rw [ResetState.step] at hstep
    split at hstep
    next hle =>
      cases hstep
      have hon : Onwards s { s with now } := .of_same rfl rfl
      refine ⟨h.ids, AtMostOneLink.onwards h.single hon hle fun hnextID => ?_, fun pc hpc =>
        (h.calls pc hpc).onwards hon hle⟩
      exact absurd hnextID (Nat.ne_of_lt (Nat.lt_succ_self _))
    next => cases hstep
  | users users =>
    cases hstep
    exact ⟨h.ids, h.single, h.calls⟩

/-! ## A step that makes a second link -/

/-- An insert over an active link makes a second one. -/
theorem LinkInv.two_links {s s' : ResetState υ κ} {a : ResetAction υ κ} (h : s.LinkInv)
    (hstep : s.step a = some s') (halone : ¬ s.alone a = true) : ¬ s'.AtMostOneLink := by
  cases a with
  | request email ip => exact absurd rfl halone
  | consume hash => exact absurd rfl halone
  | tick now => exact absurd rfl halone
  | users users => exact absurd rfl halone
  | run k commit fresh clock =>
    simp only [ResetState.step, Option.bind_eq_bind, Option.bind_eq_some_iff] at hstep
    obtain ⟨pc, hpc, hstep⟩ := hstep
    simp only [alone, hpc] at halone
    split at halone
    next user ip seen hash since hcase =>
      cases hcase
      simp only [Bool.or_eq_true, decide_eq_true_eq, not_or, Int.not_le, List.all_eq_true,
        not_forall, Bool.not_eq_true, Option.isNone_eq_false_iff, Bool.not_eq_false] at halone
      obtain ⟨⟨⟨hcommit, hinsert⟩, hexpires⟩, ⟨id, tok⟩, hrow, -, hout⟩ := halone
      have htok := Table.mem_rows.mp hrow
      obtain ⟨huser, hactive⟩ := outstanding_iff.mp (by simpa using hout)
      obtain ⟨s₁, hs₁⟩ := Option.isSome_iff_exists.mp hinsert
      cases hstep
      have hperform : (s.perform commit fresh clock (.insert user ip seen hash since)).2 = s₁ := by
        simp only [perform, hs₁]
        cases commit with
        | failed => exact absurd rfl hcommit
        | done | unconfirmed => rfl
      intro hsingle
      have hsingle : s₁.AtMostOneLink := hperform ▸ hsingle
      have heq := insertToken_eq_some hs₁
      have hid : id ≠ s.nextID := Nat.ne_of_lt (h.ids id tok htok)
      refine hid (hsingle id s.nextID tok ⟨user, hash, ip, clock + tokenTTL, none, s.now⟩
        ?_ ?_ huser ?_ ?_)
      · rw [heq]
        exact (AList.lookup_insert_ne hid).trans htok
      · rw [heq]
        exact AList.lookup_insert _
      · rw [heq]
        simpa using hactive
      · rw [heq]
        exact ResetToken.active_iff.mpr ⟨rfl, hexpires⟩
    next => exact absurd rfl halone

omit [DecidableEq υ] [DecidableEq κ] in
theorem linkInv_new (users : Table String υ) (now : Time) :
    (ResetState.new users now : ResetState υ κ).LinkInv where
  ids := fun id tok h => by cases h
  single := fun i j ti tj h => by cases h
  calls := fun pc h => by cases h

end ResetState

/-! ## Runs -/

/-- In every run, no user ever has two active links exactly when no request inserts its token while
one is active that another request inserted for the same user since it invalidated. -/
theorem one_link_iff {users : Table String υ} {now : Time} {as : List (ResetAction υ κ)}
    {s : ResetState υ κ} (hrun : Run ResetState.step (.new users now) as s) :
    (∀ bs u, bs <+: as → Run ResetState.step (.new users now) bs u → u.AtMostOneLink) ↔
      Along ResetState.step (fun s a => s.alone a = true) (.new users now) as :=
  Run.all_good_iff ResetState.LinkInv ResetState.AtMostOneLink (fun _ h => h.single)
    (fun _ _ _ h hstep halone => h.step hstep halone)
    (fun _ _ _ h hstep halone => h.two_links hstep halone) hrun (ResetState.linkInv_new users now)

/-- The address of one user. -/
def oneUser : Table String Nat := AList.singleton "a@b.c" 1

/-- Two requests, one after the other. -/
def twoRequests : List (ResetAction Nat Nat) :=
  .request "a@b.c" "10.0.0.1" :: List.replicate 7 (.run 0 .done 5 0) ++
    .request "a@b.c" "10.0.0.1" :: List.replicate 7 (.run 1 .done 6 0)

theorem one_link_two_requests : ∃ s : ResetState Nat Nat,
    Run ResetState.step (.new oneUser 0) twoRequests s ∧ s.tokens.rows.length = 2 ∧
      ∀ bs (u : ResetState Nat Nat), bs <+: twoRequests →
        Run ResetState.step (.new oneUser 0) bs u → u.AtMostOneLink := by
  obtain ⟨s, hrun, htokens⟩ := Option.map_eq_some_iff.mp (show
    (twoRequests.foldlM ResetState.step (.new oneUser 0)).map (·.tokens.rows.length) = some 2 by
      decide +kernel)
  exact ⟨s, hrun, htokens, (one_link_iff hrun).mpr (by decide +kernel)⟩

/-- Two requests that both invalidate before either inserts. -/
def crossedRequests : List (ResetAction Nat Nat) :=
  .request "a@b.c" "10.0.0.1" :: List.replicate 5 (.run 0 .done 5 0) ++
    .request "a@b.c" "10.0.0.1" :: List.replicate 5 (.run 1 .done 6 0) ++
      [.run 0 .done 5 0, .run 1 .done 6 0]

theorem two_links_of_crossed : ∃ s : ResetState Nat Nat,
    Run ResetState.step (.new oneUser 0) crossedRequests s ∧ ¬ s.AtMostOneLink := by
  obtain ⟨s, hrun, hfacts⟩ := Option.map_eq_some_iff.mp (show
    (crossedRequests.foldlM ResetState.step (.new oneUser 0)).map
      (fun s => (s.now, s.tokens.lookup 0, s.tokens.lookup 1)) =
        some (0, some ⟨1, 5, "10.0.0.1", tokenTTL, none, 0⟩,
          some ⟨1, 6, "10.0.0.1", tokenTTL, none, 0⟩) by decide +kernel)
  obtain ⟨hnow, htokens⟩ := Prod.mk.inj hfacts
  obtain ⟨hfirst, hsecond⟩ := Prod.mk.inj htokens
  refine ⟨s, hrun, fun hsingle => ?_⟩
  have hsame := hsingle 0 1 _ _ hfirst hsecond rfl (by rw [hnow]; decide) (by rw [hnow]; decide)
  cases hsame

end OpenGps.Backend
