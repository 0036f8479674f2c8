import OpenGps.Lib.Calls
import OpenGps.Lib.Run
import OpenGps.Backend.PasswordReset

/-!
# The rate limits of password recovery

The limits are checked by counting tokens. A request with an unknown address, or one that the
per-user limit stops, leaves no token for the per-IP count, and between a count and the insert or
the mail that it admits other requests count the same rows.
-/

namespace OpenGps.Backend

open OpenGps.Lib

/-! ## Windows -/

/-- The entries of a log in the fifteen minutes that end at `t`. -/
def inWindow {α : Type} (log : List α) (time : α → Time) (t : Time) : List α :=
  log.filter fun x => t - rateLimitWindow < time x ∧ time x ≤ t

section
variable {α : Type} {log : List α} {time : α → Time} {x : α} {now t : Time} {k : Nat}

/-- Up to now, the window that ends now holds the recent entries of every later one. -/
theorem length_inWindow_le (hlog : ∀ y ∈ log, time y ≤ now) (hnow : now ≤ t) :
    (inWindow log time t).length ≤ (inWindow log time now).length := by
  rw [inWindow, inWindow, ← List.countP_eq_length_filter, ← List.countP_eq_length_filter]
  refine List.countP_mono_left fun y hy hin => ?_
  have hin := of_decide_eq_true hin
  exact decide_eq_true ⟨Int.lt_of_le_of_lt (Int.sub_le_sub_right hnow _) hin.1, hlog y hy⟩

theorem inWindow_snoc : inWindow (log ++ [x]) time t =
    if t - rateLimitWindow < time x ∧ time x ≤ t then inWindow log time t ++ [x]
    else inWindow log time t := by
  rw [inWindow, List.filter_append, List.filter_singleton]
  by_cases hin : t - rateLimitWindow < time x ∧ time x ≤ t
  · rw [if_pos hin, decide_eq_true hin]
    rfl
  · rw [if_neg hin, decide_eq_false hin]
    exact List.append_nil _

/-- A new entry keeps the bound on every window, if the one that ends now is not full. -/
theorem length_inWindow_snoc_le (hlog : ∀ y ∈ log, time y ≤ now) (hx : time x = now)
    (hold : ∀ t, (inWindow log time t).length ≤ k) (hroom : (inWindow log time now).length < k) :
    (inWindow (log ++ [x]) time t).length ≤ k := by
  rw [inWindow_snoc]
  split
  · next hin =>
    rw [List.length_append, List.length_singleton]
    exact Nat.lt_of_le_of_lt (length_inWindow_le hlog (hx ▸ hin.2)) hroom
  · exact hold t

/-- A new entry falls into the window that ends now. -/
theorem length_inWindow_snoc_self (hx : time x = now) :
    (inWindow (log ++ [x]) time now).length = (inWindow log time now).length + 1 := by
  rw [inWindow_snoc, if_pos ⟨by rw [hx]; exact Int.sub_lt_self _ (by decide), Int.le_of_eq hx⟩,
    List.length_append, List.length_singleton]

end

variable {υ κ : Type} [DecidableEq υ] [DecidableEq κ]

namespace ResetState

/-! ### What the limits count -/

/-- The mails for a user in the window that ends at `t`. -/
def mailsIn (s : ResetState υ κ) (user : υ) (t : Time) : List (ResetMail υ) :=
  inWindow (s.mails.filter (·.user = user)) (·.sentAt) t

/-- The requests with an IP that passed the per-IP check in the window that ends at `t`. -/
def passesIn (s : ResetState υ κ) (ip : String) (t : Time) : List (String × Time) :=
  inWindow (s.passes.filter (·.1 = ip)) (·.2) t

structure Limited (s : ResetState υ κ) : Prop where
  mails : ∀ user t, (s.mailsIn user t).length ≤ maxRequestsPerEmail
  passes : ∀ ip t, ip ≠ "" → (s.passesIn ip t).length ≤ maxRequestsPerIP

/-- A request that meets the per-IP check after ten others of the last fifteen minutes finds ten
tokens of that time, and a mail that follows three others finds that its request has counted their
tokens. -/
def counted (s : ResetState υ κ) : ResetAction υ κ → Bool
  | .run k commit _ _ =>
    match s.calls[k]? with
    | some (.countForIP _ ip) =>
      ip = "" || commit ≠ .done || (s.passesIn ip s.now).length < maxRequestsPerIP ||
        maxRequestsPerIP ≤ s.countRecentForIP ip rateLimitWindow
    | some (.send user seen _) =>
      commit = .failed || (s.mailsIn user s.now).length < maxRequestsPerEmail ||
        (s.mailsIn user s.now).all fun m => m.token ∈ seen
    | _ => true
  | _ => true

/-! ## Invariant -/

/-- The call is about to send the token. -/
def Sending (s : ResetState υ κ) (i token : Nat) : Prop :=
  ∃ user seen, s.calls[i]? = some (.send user seen token)

/-- A request past the per-user check has counted fewer than three tokens. -/
def SendOk (s : ResetState υ κ) : ResetPc υ κ → Prop
  | .generate _ _ seen | .invalidate _ _ seen _ | .insert _ _ seen _ _ =>
    seen.length < maxRequestsPerEmail
  | .send _ seen token =>
    seen.length < maxRequestsPerEmail ∧ token < s.nextID ∧ token ∉ s.mails.map (·.token)
  | _ => True

structure LimitInv (s : ResetState υ κ) : Prop where
  limited : s.Limited
  mailed : ∀ m ∈ s.mails, m.sentAt ≤ s.now ∧ m.token < s.nextID
  passed : ∀ x ∈ s.passes, x.2 ≤ s.now
  nodup : (s.mails.map (·.token)).Nodup
  calls : ∀ pc ∈ s.calls, s.SendOk pc
  unique : ∀ i j token, s.Sending i token → s.Sending j token → i = j

/-! ### What a statement adds to the history -/

/-- What a request has when it goes on. -/
def Sends (s s' : ResetState υ κ) : ResetPc υ κ → Prop
  | .generate _ _ seen | .invalidate _ _ seen _ | .insert _ _ seen _ _ =>
    seen.length < maxRequestsPerEmail
  | .send _ seen token =>
    seen.length < maxRequestsPerEmail ∧ token = s.nextID ∧ s'.nextID = s.nextID + 1
  | _ => True

theorem perform_sends {s : ResetState υ κ} (commit : Commit) (fresh : κ) (clock : Time)
    {pc : ResetPc υ κ} (hok : s.SendOk pc) :
    s.Sends (s.perform commit fresh clock pc).2 (s.perform commit fresh clock pc).1 := by
  cases pc with
  | countForUser user ip =>
    simp only [perform]
    split
    · trivial
    · split
      · trivial
      · next hroom => exact Nat.not_le.mp hroom
  | generate user ip seen =>
    simp only [perform]
    split
    · trivial
    · exact hok
  | invalidate user ip seen hash =>
    cases commit with
    | done => exact hok
    | failed | unconfirmed => trivial
  | insert user ip seen hash since =>
    simp only [perform]
    split
    · trivial
    · next s' hinsert =>
      obtain rfl := insertToken_eq_some hinsert
      cases commit with
      | done => exact ⟨hok, rfl, rfl⟩
      | failed | unconfirmed => trivial
  | markUsed token user readAt =>
    cases commit with
    | failed | unconfirmed => trivial
    | done =>
      simp only [perform, settle]
      split
      · trivial
      · trivial
  | send | resetPassword | setMustChange =>
    cases commit with
    | done | failed | unconfirmed => trivial
  | countForIP | getByEmail | getByHash =>
    simp only [perform]
    repeat' split
    all_goals trivial
  | returned result => trivial

/-- The entries a statement adds to the two logs. -/
structure Logs (s s' : ResetState υ κ) (mails : List (ResetMail υ)) (passes : List (String × Time)) :
    Prop where
  mails : s'.mails = s.mails ++ mails
  passes : s'.passes = s.passes ++ passes
  nextID : s.nextID ≤ s'.nextID
  now : s'.now = s.now

theorem perform_logs (s : ResetState υ κ) (commit : Commit) (fresh : κ) (clock : Time)
    (pc : ResetPc υ κ) :
    Logs s (s.perform commit fresh clock pc).2 [] [] ∨
      (∃ email ip, pc = .countForIP email ip ∧ ip ≠ "" ∧ commit = .done ∧
        s.countRecentForIP ip rateLimitWindow < maxRequestsPerIP ∧
        Logs s (s.perform commit fresh clock pc).2 [] [(ip, s.now)]) ∨
      ∃ user seen token, pc = .send user seen token ∧ commit ≠ .failed ∧
        Logs s (s.perform commit fresh clock pc).2 [⟨user, token, s.now⟩] [] := by
  have hsame : ∀ {s' : ResetState υ κ}, s'.mails = s.mails → s'.passes = s.passes →
      s.nextID ≤ s'.nextID → s'.now = s.now → Logs s s' [] [] := fun hmails hpasses hid hnow =>
    ⟨by rw [hmails, List.append_nil], by rw [hpasses, List.append_nil], hid, hnow⟩
  have hrefl : Logs s s [] [] := hsame rfl rfl (Nat.le_refl _) rfl
  cases pc with
  | countForIP email ip =>
    simp only [perform]
    split
    · exact .inl hrefl
    · next hip =>
      split
      · exact .inl hrefl
      · next hdone =>
        split
        · exact .inl hrefl
        · next hroom =>
          exact .inr (.inl ⟨email, ip, rfl, hip, not_not.mp hdone, Nat.not_le.mp hroom,
            (List.append_nil _).symm, rfl, Nat.le_refl _, rfl⟩)
  | send user seen token =>
    cases commit with
    | failed => exact .inl hrefl
    | done | unconfirmed =>
      exact .inr (.inr ⟨user, seen, token, rfl, by simp, rfl, (List.append_nil _).symm,
        Nat.le_refl _, rfl⟩)
  | insert user ip seen hash since =>
    simp only [perform]
    split
    · exact .inl hrefl
    · next s' hinsert =>
      obtain rfl := insertToken_eq_some hinsert
      cases commit with
      | failed => exact .inl hrefl
      | done | unconfirmed => exact .inl (hsame rfl rfl (Nat.le_succ _) rfl)
  | invalidate | markUsed =>
    cases commit with
    | failed => exact .inl hrefl
    | done | unconfirmed => exact .inl (hsame rfl rfl (Nat.le_refl _) rfl)
  | getByEmail | countForUser | generate | getByHash =>
    refine .inl ?_
    simp only [perform]
    repeat' split
    all_goals exact hrefl
  | resetPassword => exact .inl (hsame rfl rfl (Nat.le_refl _) rfl)
  | setMustChange | returned => exact .inl hrefl

/-! ### The windows after a mail and after a pass

A new entry is the latest, so the fullest window that it joins is the one that ends with it. -/

omit [DecidableEq κ] in
theorem Limited.congr {s s' : ResetState υ κ} (h : s.Limited) (hmails : s'.mails = s.mails)
    (hpasses : s'.passes = s.passes) : s'.Limited := by
  refine ⟨fun user t => ?_, fun ip t hip => ?_⟩
  · rw [mailsIn, hmails]
    exact h.mails user t
  · rw [passesIn, hpasses]
    exact h.passes ip t hip

omit [DecidableEq κ] in
/-- A mail for a user who has room in the last fifteen minutes. -/
theorem LimitInv.addMail {s s' : ResetState υ κ} {user : υ} {token : Nat} (h : s.LimitInv)
    (hlogs : Logs s s' [⟨user, token, s.now⟩] [])
    (hroom : (s.mailsIn user s.now).length < maxRequestsPerEmail) : s'.Limited := by
  refine ⟨fun other t => ?_, fun ip t hip => ?_⟩
  · rw [mailsIn, hlogs.mails, List.filter_append, List.filter_singleton]
    by_cases huser : user = other
    · subst huser
      rw [decide_eq_true rfl]
      refine length_inWindow_snoc_le (fun y hy => ?_) rfl (h.limited.mails user) hroom
      exact (h.mailed y (List.mem_of_mem_filter hy)).1
    · rw [decide_eq_false huser, cond_false, List.append_nil]
      exact h.limited.mails other t
  · rw [passesIn, hlogs.passes, List.append_nil]
    exact h.limited.passes ip t hip

omit [DecidableEq κ] in
theorem LimitInv.addPass {s s' : ResetState υ κ} {ip : String} (h : s.LimitInv)
    (hlogs : Logs s s' [] [(ip, s.now)])
    (hroom : (s.passesIn ip s.now).length < maxRequestsPerIP) : s'.Limited := by
  refine ⟨fun user t => ?_, fun other t hother => ?_⟩
  · rw [mailsIn, hlogs.mails, List.append_nil]
    exact h.limited.mails user t
  · rw [passesIn, hlogs.passes, List.filter_append, List.filter_singleton]
    by_cases hip : ip = other
    · subst hip
      rw [decide_eq_true rfl]
      refine length_inWindow_snoc_le (fun y hy => ?_) rfl (fun t => h.limited.passes ip t hother) hroom
      exact h.passed y (List.mem_of_mem_filter hy)
    · rw [decide_eq_false hip, cond_false, List.append_nil]
      exact h.limited.passes other t hother

omit [DecidableEq κ] in
/-- Mails whose tokens were all counted are fewer than three. -/
theorem LimitInv.room_of_seen {s : ResetState υ κ} {user : υ} {seen : List Nat} (h : s.LimitInv)
    (hseen : seen.length < maxRequestsPerEmail)
    (hall : ∀ m ∈ s.mailsIn user s.now, m.token ∈ seen) :
    (s.mailsIn user s.now).length < maxRequestsPerEmail := by
  have hsublist : ((s.mailsIn user s.now).map (·.token)).Sublist (s.mails.map (·.token)) :=
    (List.filter_sublist.trans List.filter_sublist).map _
  have hsub : (s.mailsIn user s.now).map (·.token) ⊆ seen := by
    intro token htoken
    obtain ⟨m, hm, rfl⟩ := List.mem_map.mp htoken
    exact hall m hm
  have hle := (h.nodup.sublist hsublist).length_le_of_subset hsub
  rw [List.length_map] at hle
  exact Nat.lt_of_le_of_lt hle hseen

/-! ### One statement of a call -/

/-- The bound on the windows after a statement. -/
theorem LimitInv.limited_run {s : ResetState υ κ} {k : Nat} {commit : Commit} {fresh : κ}
    {clock : Time} {pc : ResetPc υ κ} (h : s.LimitInv) (hpc : s.calls[k]? = some pc)
    (hcounted : s.counted (.run k commit fresh clock) = true) :
    (s.perform commit fresh clock pc).2.Limited := by
  have hok := h.calls pc (List.mem_of_getElem? hpc)
  simp only [counted, hpc] at hcounted
  rcases s.perform_logs commit fresh clock pc with
    hlogs | ⟨email, ip, rfl, hip, rfl, hcount, hlogs⟩ | ⟨user, seen, token, rfl, hcommit, hlogs⟩
  · exact h.limited.congr (hlogs.mails.trans (List.append_nil _))
      (hlogs.passes.trans (List.append_nil _))
  · refine h.addPass hlogs ?_
    simp only [Bool.or_eq_true, decide_eq_true_eq, ne_eq, not_true_eq_false, or_false] at hcounted
    rcases hcounted with (hempty | hroom) | hfull
    · exact absurd hempty hip
    · exact hroom
    · exact absurd hcount (Nat.not_lt.mpr hfull)
  · refine h.addMail hlogs ?_
    simp only [Bool.or_eq_true, decide_eq_true_eq, List.all_eq_true] at hcounted
    rcases hcounted with (hfailed | hroom) | hall
    · exact absurd hfailed hcommit
    · exact hroom
    · exact h.room_of_seen hok.1 hall

theorem LimitInv.run {s : ResetState υ κ} {k : Nat} {commit : Commit} {fresh : κ} {clock : Time}
    {pc : ResetPc υ κ} (h : s.LimitInv) (hpc : s.calls[k]? = some pc)
    (hcounted : s.counted (.run k commit fresh clock) = true) :
    LimitInv { (s.perform commit fresh clock pc).2 with
      calls := s.calls.set k (s.perform commit fresh clock pc).1 } := by
  have hok := h.calls pc (List.mem_of_getElem? hpc)
  have hlimited := h.limited_run hpc hcounted
  have hsends := perform_sends commit fresh clock hok
  -- The mail, if one is sent, is of the token of this call.
  have hlogs : ∃ mails passes, Logs s (s.perform commit fresh clock pc).2 mails passes ∧
      (∀ x ∈ passes, x.2 = s.now) ∧ (mails = [] ∨
        ∃ user seen token, pc = .send user seen token ∧ mails = [⟨user, token, s.now⟩]) := by
    rcases s.perform_logs commit fresh clock pc with
      hlogs | ⟨email, ip, -, -, -, -, hlogs⟩ | ⟨user, seen, token, hsend, -, hlogs⟩
    · exact ⟨_, _, hlogs, by simp, .inl rfl⟩
    · exact ⟨_, _, hlogs, by simp, .inl rfl⟩
    · exact ⟨_, _, hlogs, by simp, .inr ⟨user, seen, token, hsend, rfl⟩⟩
  generalize s.perform commit fresh clock pc = r at hlimited hsends hlogs ⊢
  obtain ⟨pc', s'⟩ := r
  dsimp only at hlimited hsends hlogs ⊢
  obtain ⟨mails, passes, hlogs, hpasses, hmails⟩ := hlogs
  have hlater : ∀ m ∈ mails, m.sentAt = s.now ∧ ∃ user seen, pc = .send user seen m.token := by
    intro m hm
    rcases hmails with rfl | ⟨user, seen, token, rfl, rfl⟩
    · cases hm
    · obtain rfl := List.mem_singleton.mp hm
      exact ⟨rfl, user, seen, rfl⟩
  have hsent : ∀ m ∈ s'.mails, m.sentAt ≤ s.now ∧ m.token < s.nextID := by
    intro m hm
    rw [hlogs.mails, List.mem_append] at hm
    rcases hm with hold | hnew
    · exact h.mailed m hold
    · obtain ⟨hnow, user, seen, rfl⟩ := hlater m hnew
      exact ⟨Int.le_of_eq hnow, hok.2.1⟩
  refine ⟨hlimited.congr rfl rfl, fun m hm => ?_, fun x hx => ?_, ?_,
    Calls.forall_mem_set ?_ fun j b hjk hj => ?_, fun i j token => ?_⟩
  · obtain ⟨hnow, htoken⟩ := hsent m hm
    exact ⟨hlogs.now ▸ hnow, Nat.lt_of_lt_of_le htoken hlogs.nextID⟩
  · have hx : x ∈ s'.passes := hx
    show x.2 ≤ s'.now
    rw [hlogs.passes, List.mem_append] at hx
    rw [hlogs.now]
    rcases hx with hold | hnew
    · exact h.passed x hold
    · exact Int.le_of_eq (hpasses x hnew)
  · show (s'.mails.map (·.token)).Nodup
    rcases hmails with rfl | ⟨user, seen, token, rfl, rfl⟩
    · rw [hlogs.mails, List.append_nil]
      exact h.nodup
    · -- No mail with the token of this call has been sent.
      rw [hlogs.mails, List.map_append, List.nodup_append]
      refine ⟨h.nodup, List.nodup_singleton _, fun t hold _ hnew heq => ?_⟩
      obtain rfl := List.mem_singleton.mp hnew
      rw [heq] at hold
      exact hok.2.2 hold
  · cases pc' with
    | send user seen token =>
      obtain ⟨hseen, rfl, hnextID⟩ := hsends
      refine ⟨hseen, ?_, fun hmem => ?_⟩
      · show s.nextID < s'.nextID
        rw [hnextID]
        exact Nat.lt_succ_self _
      · obtain ⟨m, hm, heq⟩ := List.mem_map.mp hmem
        exact absurd (hsent m hm).2 (Nat.not_lt.mpr (Nat.le_of_eq heq.symm))
    | generate | invalidate | insert => exact hsends
    | countForIP | getByEmail | countForUser | getByHash | markUsed | resetPassword
    | setMustChange | returned => trivial
  · have hold := h.calls b (List.mem_of_getElem? hj)
    cases b with
    | send user seen token =>
      obtain ⟨hseen, htoken, hnew⟩ := hold
      refine ⟨hseen, Nat.lt_of_lt_of_le htoken hlogs.nextID, ?_⟩
      show token ∉ s'.mails.map (·.token)
      rw [hlogs.mails, List.map_append, List.mem_append, not_or]
      refine ⟨hnew, fun hmem => ?_⟩
      obtain ⟨m, hm, rfl⟩ := List.mem_map.mp hmem
      obtain ⟨-, user', seen', rfl⟩ := hlater m hm
      exact hjk (h.unique j k _ ⟨_, _, hj⟩ ⟨_, _, hpc⟩)
    | generate | invalidate | insert => exact hold
    | countForIP | getByEmail | countForUser | getByHash | markUsed | resetPassword
    | setMustChange | returned => trivial
  · -- The call that moved on holds the newest token, the others hold older ones.
    refine Calls.unique_set (fun user seen => ResetPc.send user seen token)
      (fun i j => h.unique i j token) ?_ i j
    rintro user seen rfl i ⟨user', seen', hi⟩
    exact Nat.ne_of_lt (h.calls _ (List.mem_of_getElem? hi)).2.1 hsends.2.1

omit [DecidableEq κ] in
/-- A new call. -/
theorem LimitInv.addCall {s : ResetState υ κ} (h : s.LimitInv) {pc : ResetPc υ κ}
    (hpc : (∃ email ip, pc = .countForIP email ip) ∨ ∃ hash, pc = .getByHash hash) :
    LimitInv { s with calls := s.calls ++ [pc] } := by
  refine ⟨h.limited.congr rfl rfl, h.mailed, h.passed, h.nodup, fun b hb => ?_,
    fun i j token hi hj => ?_⟩
  · rcases List.mem_append.mp hb with hold | hnew
    · exact h.calls b hold
    · obtain rfl := List.mem_singleton.mp hnew
      rcases hpc with ⟨email, ip, rfl⟩ | ⟨hash, rfl⟩
      · trivial
      · trivial
  · have hold : ∀ i, Sending { s with calls := s.calls ++ [pc] } i token → s.Sending i token := by
      intro i
      apply Calls.isAt_append fun user seen => ResetPc.send user seen token
      rintro user seen rfl
      rcases hpc with ⟨email, ip, hcase⟩ | ⟨hash, hcase⟩
      · cases hcase
      · cases hcase
    exact h.unique i j token (hold i hi) (hold j hj)

/-! ### Every step -/

omit [DecidableEq κ] in
theorem length_mailsIn_self {s : ResetState υ κ} {user : υ} {token : Nat}
    {mails : List (ResetMail υ)} (h : mails = s.mails ++ [⟨user, token, s.now⟩]) :
    (inWindow (mails.filter (·.user = user)) (·.sentAt) s.now).length =
      (s.mailsIn user s.now).length + 1 := by
  rw [h, List.filter_append, List.filter_singleton, decide_eq_true rfl]
  exact length_inWindow_snoc_self rfl

omit [DecidableEq υ] [DecidableEq κ] in
theorem length_passesIn_self {s : ResetState υ κ} {ip : String} {passes : List (String × Time)}
    (h : passes = s.passes ++ [(ip, s.now)]) :
    (inWindow (passes.filter (·.1 = ip)) (·.2) s.now).length = (s.passesIn ip s.now).length + 1 := by
  rw [h, List.filter_append, List.filter_singleton, decide_eq_true rfl]
  exact length_inWindow_snoc_self rfl

theorem LimitInv.step {s s' : ResetState υ κ} {a : ResetAction υ κ} (h : s.LimitInv)
    (hstep : s.step a = some s') (hcounted : s.counted a = true) : s'.LimitInv := by
  cases a with
  | request email ip =>
    cases hstep
    exact h.addCall (.inl ⟨email, ip, rfl⟩)
  | consume hash =>
    cases hstep
    exact h.addCall (.inr ⟨hash, rfl⟩)
  | run k commit fresh clock =>
    simp only [ResetState.step, Option.bind_eq_bind, Option.bind_eq_some_iff] at hstep
    obtain ⟨pc, hpc, hstep⟩ := hstep
    cases hstep
    exact h.run hpc hcounted
  | tick now =>
    rw [ResetState.step] at hstep
    split at hstep
    next hle =>
      cases hstep
      refine ⟨h.limited.congr rfl rfl, fun m hm => ?_, fun x hx => ?_, h.nodup, h.calls, h.unique⟩
      · exact ⟨Int.le_trans (h.mailed m hm).1 hle, (h.mailed m hm).2⟩
      · exact Int.le_trans (h.passed x hx) hle
    next => cases hstep
  | users users =>
    cases hstep
    exact ⟨h.limited.congr rfl rfl, h.mailed, h.passed, h.nodup, h.calls, h.unique⟩

/-! ### A statement that is not counted

The condition counts in the newest window, so a statement against it takes that window over its bound. -/

/-- A step against the guard takes the newest window over its bound. -/
theorem exceeded_of_uncounted {s s' : ResetState υ κ} {a : ResetAction υ κ}
    (hstep : s.step a = some s') (hcounted : ¬ s.counted a = true) : ¬ s'.Limited := by
  cases a with
  | request email ip => exact absurd rfl hcounted
  | consume hash => exact absurd rfl hcounted
  | tick now => exact absurd rfl hcounted
  | users users => exact absurd rfl hcounted
  | run k commit fresh clock =>
    simp only [ResetState.step, Option.bind_eq_bind, Option.bind_eq_some_iff] at hstep
    obtain ⟨pc, hpc, hstep⟩ := hstep
    simp only [counted, hpc] at hcounted
    split at hcounted
    next email ip hcase =>
      cases hcase
      simp only [Bool.or_eq_true, decide_eq_true_eq, not_or, Nat.not_lt, Nat.not_le, ne_eq,
        not_not] at hcounted
      obtain ⟨⟨⟨hip, rfl⟩, hfull⟩, hcount⟩ := hcounted
      cases hstep
      intro hlimited
      have hnew : (s.perform .done fresh clock (.countForIP email ip)).2.passes =
          s.passes ++ [(ip, s.now)] := by
        simp only [perform]
        rw [if_neg hip, if_neg (by simp), if_neg (Nat.not_le.mpr hcount)]
      have hbound := hlimited.passes ip s.now hip
      rw [passesIn, length_passesIn_self hnew] at hbound
      exact absurd hbound (Nat.not_le.mpr (Nat.lt_succ_of_le hfull))
    next user seen token hcase =>
      cases hcase
      simp only [Bool.or_eq_true, decide_eq_true_eq, not_or, Nat.not_lt] at hcounted
      obtain ⟨⟨hcommit, hfull⟩, -⟩ := hcounted
      cases hstep
      intro hlimited
      have hnew : (s.perform commit fresh clock (.send user seen token)).2.mails =
          s.mails ++ [⟨user, token, s.now⟩] := by
        cases commit with
        | failed => exact absurd rfl hcommit
        | done | unconfirmed => rfl
      have hbound := hlimited.mails user s.now
      rw [mailsIn, length_mailsIn_self hnew] at hbound
      exact absurd hbound (Nat.not_le.mpr (Nat.lt_succ_of_le hfull))
    next => exact absurd rfl hcounted

omit [DecidableEq κ] in
theorem limitInv_new (users : Table String υ) (now : Time) :
    (ResetState.new users now : ResetState υ κ).LimitInv where
  limited := ⟨fun _ _ => Nat.zero_le _, fun _ _ _ => Nat.zero_le _⟩
  mailed := fun m h => by cases h
  passed := fun x h => by cases h
  nodup := List.nodup_nil
  calls := fun pc h => by cases h
  unique := fun i j token hi => by
    obtain ⟨_, _, hi⟩ := hi
    cases hi

end ResetState

/-! ## The limits on every run -/

/-- In every run, both limits hold in every state exactly when no request passes the per-IP check as
the eleventh of its window for want of ten stored tokens, and no mail is the fourth of its window
because its request did not count the tokens of the others. -/
theorem reset_limits_iff {users : Table String υ} {now : Time} {as : List (ResetAction υ κ)}
    {s : ResetState υ κ} (hrun : Run ResetState.step (.new users now) as s) :
    (∀ bs u, bs <+: as → Run ResetState.step (.new users now) bs u → u.Limited) ↔
      Along ResetState.step (fun s a => s.counted a = true) (.new users now) as :=
  Run.all_good_iff ResetState.LimitInv ResetState.Limited (fun _ h => h.limited)
    (fun _ _ _ h hstep hcounted => h.step hstep hcounted)
    (fun _ _ _ _ hstep hcounted => ResetState.exceeded_of_uncounted hstep hcounted) hrun
    (ResetState.limitInv_new users now)

/-- Four requests for one user, one after the other: the fourth is stopped. -/
def fourRequests : List (ResetAction Nat Nat) :=
  (List.range 4).flatMap fun k =>
    .request "a@b.c" "10.0.0.1" :: List.replicate 7 (.run k .done k 0)

theorem reset_limits_four_requests : ∃ s : ResetState Nat Nat,
    Run ResetState.step (.new (AList.singleton "a@b.c" 1) 0) fourRequests s ∧ s.mails.length = 3 ∧
      ∀ bs (u : ResetState Nat Nat), bs <+: fourRequests →
        Run ResetState.step (.new (AList.singleton "a@b.c" 1) 0) bs u → u.Limited := by
  obtain ⟨s, hrun, hmails⟩ := Option.map_eq_some_iff.mp (show
    (fourRequests.foldlM ResetState.step (.new (AList.singleton "a@b.c" 1) 0)).map
      (·.mails.length) = some 3 by decide +kernel)
  exact ⟨s, hrun, hmails, (reset_limits_iff hrun).mpr (by decide +kernel)⟩

/-- Eleven requests with unknown addresses from one IP. -/
def unknownRequests : List (ResetAction Nat Nat) :=
  (List.range 11).flatMap fun k =>
    .request "x@y.z" "10.0.0.1" :: List.replicate 2 (.run k .done k 0)

/-- Four requests for one user that all count before any of them inserts. -/
def crowdedRequests : List (ResetAction Nat Nat) :=
  ((List.range 4).flatMap fun k => .request "a@b.c" "" :: List.replicate 3 (.run k .done k 0)) ++
    (List.range 4).flatMap fun k => List.replicate 4 (.run k .done k 0)

/-- Unknown addresses pass the per-IP check without end, and four concurrent requests for one user
send four mails. -/
theorem reset_limits_exceeded :
    (∃ s : ResetState Nat Nat, Run ResetState.step (.new (AList.singleton "a@b.c" 1) 0)
      unknownRequests s ∧ maxRequestsPerIP < (s.passesIn "10.0.0.1" 0).length) ∧
    ∃ s : ResetState Nat Nat, Run ResetState.step (.new (AList.singleton "a@b.c" 1) 0)
      crowdedRequests s ∧ maxRequestsPerEmail < (s.mailsIn 1 0).length := by
  constructor
  · obtain ⟨s, hrun, hpasses⟩ := Option.map_eq_some_iff.mp (show
      (unknownRequests.foldlM ResetState.step (.new (AList.singleton "a@b.c" 1) 0)).map
        (fun s => (s.passesIn "10.0.0.1" 0).length) = some 11 by decide +kernel)
    exact ⟨s, hrun, by rw [hpasses]; decide⟩
  · obtain ⟨s, hrun, hmails⟩ := Option.map_eq_some_iff.mp (show
      (crowdedRequests.foldlM ResetState.step (.new (AList.singleton "a@b.c" 1) 0)).map
        (fun s => (s.mailsIn 1 0).length) = some 4 by decide +kernel)
    exact ⟨s, hrun, by rw [hmails]; decide⟩

end OpenGps.Backend
