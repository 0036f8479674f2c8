import OpenGps.Frontend.ApiClient
import OpenGps.Lib.Run

/-!
# The auth store and its requests

The atoms of `stores/auth.ts` and the operations of `useAuthService` that set them. Every operation
awaits a response and sets the atoms when it arrives; none of them is cancelled, and only a sign-out
clears the atoms, so a response that was requested for a user who has signed out since is applied
like any other.

The store stays consistent exactly as long as no profile arrives late: whenever one does, there is
a user, and nobody has signed out since it was requested.
-/

namespace OpenGps.Frontend

open OpenGps.Lib

/-! ## The store -/

structure AuthStore (υ π : Type) where
  user : Option υ
  profile : Option π
  isRoleLoaded : Bool
  mustChangePassword : Bool
  isAuthLoading : Bool
  deriving DecidableEq

variable {υ π : Type}

namespace AuthStore

def new : AuthStore υ π := ⟨none, none, false, false, false⟩

def setUser (s : AuthStore υ π) (user : υ) : AuthStore υ π := { s with user := some user }

def clearUser (s : AuthStore υ π) : AuthStore υ π :=
  { s with user := none, profile := none, isRoleLoaded := false, mustChangePassword := false }

def setAuthLoading (s : AuthStore υ π) (loading : Bool) : AuthStore υ π :=
  { s with isAuthLoading := loading }

def setProfile (s : AuthStore υ π) (user : π) : AuthStore υ π := { s with profile := some user }

def setRoleLoaded (s : AuthStore υ π) : AuthStore υ π := { s with isRoleLoaded := true }

def setMustChangePassword (s : AuthStore υ π) (required : Bool) : AuthStore υ π :=
  { s with mustChangePassword := required }

/-- `fetchProfile`, from its response on. -/
def profileFetched (s : AuthStore υ π) (reply : Reply (Option π)) : AuthStore υ π :=
  let s := match reply with
    | .thrown => s
    | .returned data error =>
      if error.any fun e : ApiError => e.status = 403 ∧ e.message = "must_change_password" then
        s.setMustChangePassword true
      else match data.join with
        | none => s
        | some user => s.setProfile user
  s.setRoleLoaded

end AuthStore

/-! ## The requests -/

/-- `fetchMe`: the user of the session, or none for a failure of any kind. -/
def fetchMe : Reply (Option υ) → Option υ
  | .returned (some user) _ => user
  | _ => none

/-- The store and the requests in flight. The profile requests are known by the number of sign-outs
before them. The last two fields are the history: the number of sign-outs, and for each profile
response the number of sign-outs before its request and before it was applied. -/
structure AuthPage (υ π : Type) where
  store : AuthStore υ π
  signIns : ℕ
  sessions : ℕ
  profiles : List ℕ
  passwordChanges : ℕ
  signOuts : ℕ
  signedOut : ℕ
  applied : List (ℕ × ℕ)
  deriving DecidableEq

/-- A call of an operation, or the arrival of a response; a profile response is the `k`-th of those
in flight. -/
inductive AuthAction (υ π : Type) where
  | signIn
  | signInArrived (reply : Reply υ)
  | getSession
  | sessionArrived (reply : Reply (Option υ))
  | fetchProfile
  | profileArrived (k : ℕ) (reply : Reply (Option π))
  | changePassword
  | passwordArrived (reply : Reply Unit)
  | signOut
  | signOutArrived (reply : Reply Unit)
  deriving DecidableEq

namespace AuthPage

def new : AuthPage υ π := ⟨.new, 0, 0, [], 0, 0, 0, []⟩

/-- `fetchProfile`, up to its request. -/
def fetchProfile (s : AuthPage υ π) : AuthPage υ π :=
  { s with store := s.store.setMustChangePassword false, profiles := s.profiles ++ [s.signedOut] }

def signInArrived (s : AuthPage υ π) (reply : Reply υ) : AuthPage υ π :=
  match reply with
  | .returned (some user) _ => { s with store := s.store.setUser user }
  | _ => s

def sessionArrived (s : AuthPage υ π) (reply : Reply (Option υ)) : AuthPage υ π :=
  let s := match fetchMe reply with
    | some user => { s with store := s.store.setUser user }.fetchProfile
    | none => { s with store := s.store.clearUser }
  { s with store := s.store.setAuthLoading false }

/-- A change that the backend rejects is returned like one it accepts, and the profile is fetched; only
a call that throws ends before. -/
def passwordArrived (s : AuthPage υ π) (reply : Reply Unit) : AuthPage υ π :=
  match reply with
  | .thrown => s
  | .returned .. => s.fetchProfile

/-- The sign-out ends the same way whether its request failed or not. -/
def signOutArrived (s : AuthPage υ π) : AuthPage υ π :=
  { s with store := s.store.clearUser.setAuthLoading false, signedOut := s.signedOut + 1 }

def step (s : AuthPage υ π) : AuthAction υ π → Option (AuthPage υ π)
  | .signIn => some { s with signIns := s.signIns + 1 }
  | .signInArrived reply =>
    if s.signIns = 0 then none else some ({ s with signIns := s.signIns - 1 }.signInArrived reply)
  | .getSession =>
    some { s with store := s.store.setAuthLoading true, sessions := s.sessions + 1 }
  | .sessionArrived reply =>
    if s.sessions = 0 then none
    else some ({ s with sessions := s.sessions - 1 }.sessionArrived reply)
  | .fetchProfile => some s.fetchProfile
  | .profileArrived k reply => do
    let requested ← s.profiles[k]?
    some { s with
      store := s.store.profileFetched reply
      profiles := s.profiles.eraseIdx k
      applied := s.applied ++ [(requested, s.signedOut)] }
  | .changePassword => some { s with passwordChanges := s.passwordChanges + 1 }
  | .passwordArrived reply =>
    if s.passwordChanges = 0 then none
    else some ({ s with passwordChanges := s.passwordChanges - 1 }.passwordArrived reply)
  | .signOut => some { s with store := s.store.setAuthLoading true, signOuts := s.signOuts + 1 }
  | .signOutArrived _ =>
    if s.signOuts = 0 then none else some { s with signOuts := s.signOuts - 1 }.signOutArrived

end AuthPage

/-! ## Consistency -/

/-- Without a user there is nothing else either. -/
def AuthStore.Clean (s : AuthStore υ π) : Prop :=
  s.user = none → s.profile = none ∧ s.isRoleLoaded = false ∧ s.mustChangePassword = false

namespace AuthPage

/-- The store is clean, and no profile response was applied after a sign-out that came after its
request. -/
structure Consistent (s : AuthPage υ π) : Prop where
  clean : s.store.Clean
  timely : ∀ response ∈ s.applied, response.1 = response.2

/-- A profile response arrives while there is a user, and before any sign-out since its request. -/
def OnTime (s : AuthPage υ π) : AuthAction υ π → Prop
  | .profileArrived k _ => s.store.user ≠ none ∧ s.profiles[k]? = some s.signedOut
  | _ => True

theorem consistent_new : (new : AuthPage υ π).Consistent :=
  ⟨fun _ => ⟨rfl, rfl, rfl⟩, fun _ h => absurd h List.not_mem_nil⟩

/-- A step with a clean result that applies no profile response. -/
theorem Consistent.of_clean {s t : AuthPage υ π} (h : s.Consistent) (hclean : t.store.Clean)
    (happlied : t.applied = s.applied) : t.Consistent :=
  ⟨hclean, happlied ▸ h.timely⟩

theorem clean_of_user {s : AuthStore υ π} {user : υ} (h : s.user = some user) : s.Clean :=
  fun hnone => by rw [h] at hnone; cases hnone

theorem clean_clearUser (s : AuthStore υ π) : s.clearUser.Clean := fun _ => ⟨rfl, rfl, rfl⟩

theorem Consistent.fetchProfile {s : AuthPage υ π} (h : s.Consistent) : s.fetchProfile.Consistent :=
  h.of_clean (fun hnone => ⟨(h.clean hnone).1, (h.clean hnone).2.1, rfl⟩) rfl

theorem Consistent.signInArrived {s : AuthPage υ π} (h : s.Consistent) (reply : Reply υ) :
    (s.signInArrived reply).Consistent := by
  unfold AuthPage.signInArrived
  split
  · exact h.of_clean (clean_of_user rfl) rfl
  · exact h

theorem Consistent.sessionArrived {s : AuthPage υ π} (h : s.Consistent)
    (reply : Reply (Option υ)) : (s.sessionArrived reply).Consistent := by
  rw [AuthPage.sessionArrived]
  split
  · exact h.of_clean (clean_of_user rfl) rfl
  · exact h.of_clean (clean_clearUser s.store) rfl

theorem Consistent.passwordArrived {s : AuthPage υ π} (h : s.Consistent) (reply : Reply Unit) :
    (s.passwordArrived reply).Consistent := by
  cases reply with
  | thrown => exact h
  | returned data error => exact h.fetchProfile

/-- Whatever a profile response brings, it keeps the user and settles the role. -/
theorem profileFetched_spec (s : AuthStore υ π) (reply : Reply (Option π)) :
    (s.profileFetched reply).user = s.user ∧ (s.profileFetched reply).isRoleLoaded = true := by
  unfold AuthStore.profileFetched
  cases reply with
  | thrown => exact ⟨rfl, rfl⟩
  | returned data error =>
    dsimp only
    split
    · exact ⟨rfl, rfl⟩
    · cases data.join <;> exact ⟨rfl, rfl⟩

/-- The step lemma: a step keeps the store consistent exactly when it is on time. -/
theorem Consistent.step {s t : AuthPage υ π} {a : AuthAction υ π} (h : s.Consistent)
    (hstep : s.step a = some t) :
    (s.OnTime a → t.Consistent) ∧ (¬ s.OnTime a → ¬ t.Consistent) := by
  have hfine : t.Consistent → s.OnTime a →
      (s.OnTime a → t.Consistent) ∧ (¬ s.OnTime a → ¬ t.Consistent) :=
    fun ht hontime => ⟨fun _ => ht, fun hnot => absurd hontime hnot⟩
  cases a with
  | signIn =>
    cases hstep
    exact hfine (h.of_clean h.clean rfl) trivial
  | signInArrived reply =>
    obtain ⟨-, heq⟩ := Option.ite_none_left_eq_some.mp hstep
    cases heq
    have hs : Consistent { s with signIns := s.signIns - 1 } := h.of_clean h.clean rfl
    exact hfine (hs.signInArrived reply) trivial
  | getSession =>
    cases hstep
    exact hfine (h.of_clean h.clean rfl) trivial
  | sessionArrived reply =>
    obtain ⟨-, heq⟩ := Option.ite_none_left_eq_some.mp hstep
    cases heq
    have hs : Consistent { s with sessions := s.sessions - 1 } := h.of_clean h.clean rfl
    exact hfine (hs.sessionArrived reply) trivial
  | fetchProfile =>
    cases hstep
    exact hfine h.fetchProfile trivial
  | profileArrived k reply =>
    simp only [AuthPage.step, Option.bind_eq_bind, Option.bind_eq_some_iff] at hstep
    obtain ⟨requested, hk, hstep⟩ := hstep
    cases hstep
    obtain ⟨huser, hloaded⟩ := profileFetched_spec s.store reply
    constructor
    · rintro ⟨hsome, htime⟩
      refine ⟨fun hnone => absurd (huser.symm.trans hnone) hsome, ?_⟩
      obtain rfl : requested = s.signedOut := Option.some.inj (hk.symm.trans htime)
      rw [List.forall_mem_append]
      exact ⟨h.timely, fun response hmem => List.mem_singleton.mp hmem ▸ rfl⟩
    · intro hlate ht
      refine hlate ⟨fun hnone => ?_, ?_⟩
      · have hfalse := (ht.clean (huser.trans hnone)).2.1
        exact Bool.noConfusion (hloaded.symm.trans hfalse)
      · have heq : requested = s.signedOut :=
          ht.timely (requested, s.signedOut) (List.mem_append_right _ List.mem_cons_self)
        rw [hk, heq]
  | changePassword =>
    cases hstep
    exact hfine (h.of_clean h.clean rfl) trivial
  | passwordArrived reply =>
    obtain ⟨-, heq⟩ := Option.ite_none_left_eq_some.mp hstep
    cases heq
    have hs : Consistent { s with passwordChanges := s.passwordChanges - 1 } :=
      h.of_clean h.clean rfl
    exact hfine (hs.passwordArrived reply) trivial
  | signOut =>
    cases hstep
    exact hfine (h.of_clean h.clean rfl) trivial
  | signOutArrived reply =>
    obtain ⟨-, heq⟩ := Option.ite_none_left_eq_some.mp hstep
    cases heq
    exact hfine (h.of_clean (clean_clearUser s.store) rfl) trivial

instance (s : AuthPage υ π) (a : AuthAction υ π) : Decidable (s.OnTime a) :=
  match a with
  | .profileArrived _ _ =>
    have : Decidable (s.store.user ≠ none) :=
      decidable_of_iff (s.store.user.isSome = true) Option.isSome_iff_ne_none
    inferInstanceAs (Decidable (_ ∧ _))
  | .signIn | .signInArrived _ | .getSession | .sessionArrived _ | .fetchProfile | .changePassword
  | .passwordArrived _ | .signOut | .signOutArrived _ => isTrue trivial

end AuthPage

/-- Every state of a run of the page is consistent exactly when every profile response arrives
while there is a user and before any sign-out since its request. -/
theorem auth_consistent_iff {as : List (AuthAction υ π)} {t : AuthPage υ π}
    (hrun : Run AuthPage.step .new as t) :
    (∀ bs s, bs <+: as → Run AuthPage.step .new bs s → s.Consistent) ↔
      Along AuthPage.step AuthPage.OnTime .new as :=
  hrun.all_good_iff AuthPage.Consistent AuthPage.Consistent (fun _ h => h)
    (fun _ _ _ h hstep => (h.step hstep).1) (fun _ _ _ h hstep => (h.step hstep).2)
    AuthPage.consistent_new

/-- A session with a profile, a sign-out and the sign-in of another user. -/
def oneAfterTheOther : List (AuthAction ℕ ℕ) :=
  [.getSession, .sessionArrived (.returned (some (some 1)) none),
    .profileArrived 0 (.returned (some (some 1)) none), .signOut, .signOutArrived .thrown,
    .signIn, .signInArrived (.returned (some 2) none), .fetchProfile,
    .profileArrived 0 (.returned none (some ⟨403, "must_change_password"⟩))]

theorem auth_consistent_one_after_the_other : ∃ t : AuthPage ℕ ℕ,
    Run AuthPage.step .new oneAfterTheOther t ∧
      ∀ bs s, bs <+: oneAfterTheOther → Run AuthPage.step .new bs s → s.Consistent := by
  obtain ⟨t, hrun⟩ := Option.isSome_iff_exists.mp (show
    (oneAfterTheOther.foldlM AuthPage.step (.new : AuthPage ℕ ℕ)).isSome by decide +kernel)
  exact ⟨t, hrun, (auth_consistent_iff hrun).mpr (by decide +kernel)⟩

/-- The profile of a session arrives after the sign-out, and stays in the store without a user. -/
theorem late_profile_stays : ∃ t : AuthPage ℕ ℕ, Run AuthPage.step .new
    [.getSession, .sessionArrived (.returned (some (some 1)) none), .signOut,
      .signOutArrived (.returned none none), .profileArrived 0 (.returned (some (some 1)) none)] t ∧
      t.store.user = none ∧ t.store.profile = some 1 ∧ t.store.isRoleLoaded = true ∧
      ¬ t.Consistent := by
  refine ⟨_, rfl, rfl, rfl, rfl, fun h => ?_⟩
  exact absurd (h.clean rfl).2.1 (by decide)

end OpenGps.Frontend
