import Mathlib.Data.List.Nodup
import Mathlib.Data.Nat.Notation

/-!
# The newest request wins

A component issues requests and shows something; a request changes what is shown at once, and again
when its reply arrives, in any order. The requests are numbered, and a reply is used or dropped
according to its number and the newest one. What is shown is the newest request's, whatever order
the replies have, exactly as long as every older reply that is used changes nothing.
-/

namespace OpenGps.Lib

/-- The numbers of the requests in flight are those of their issue, from one on. The last two fields
are the history of the newest request: what it showed at once, and its reply if it has arrived. -/
structure Requests (π ρ : Type) where
  shown : π
  issued : ℕ
  inFlight : List ℕ
  kept : π
  reply : Option ρ
  deriving DecidableEq

namespace Requests

variable {π ρ : Type}

def new (initial : π) : Requests π ρ := ⟨initial, 0, [], initial, none⟩

def issue (start : π → π) (s : Requests π ρ) : Requests π ρ :=
  let shown := start s.shown
  ⟨shown, s.issued + 1, s.inFlight ++ [s.issued + 1], shown, none⟩

/-- The reply to the `k`-th request in flight, which `isCurrent` may drop. -/
def respond (settle : π → ρ → π) (isCurrent : ℕ → ℕ → Bool) (s : Requests π ρ) (k : ℕ)
    (reply : ρ) : Option (Requests π ρ) := do
  let number ← s.inFlight[k]?
  some { s with
    shown := if isCurrent number s.issued then settle s.shown reply else s.shown
    inFlight := s.inFlight.eraseIdx k
    reply := if number = s.issued then some reply else s.reply }

/-- What is shown is the newest request's: what it showed at once until its reply, and then what the
reply made of that. -/
structure ShowsNewest (settle : π → ρ → π) (initial : π) (s : Requests π ρ) : Prop where
  untouched : s.issued = 0 → s.shown = initial
  waiting : s.issued ≠ 0 → s.reply = none → s.issued ∈ s.inFlight ∧ s.shown = s.kept
  settled : ∀ reply, s.reply = some reply → s.shown = settle s.kept reply

/-- The numbers in flight are in order. -/
structure Numbered (s : Requests π ρ) : Prop where
  bounded : ∀ number ∈ s.inFlight, number ≠ 0 ∧ number ≤ s.issued
  nodup : s.inFlight.Nodup
  once : s.reply ≠ none → s.issued ∉ s.inFlight

/-- The reply is the newest request's, or is dropped, or changes nothing. -/
def Harmless (settle : π → ρ → π) (isCurrent : ℕ → ℕ → Bool) (s : Requests π ρ) (k : ℕ)
    (reply : ρ) : Prop :=
  s.inFlight[k]? = some s.issued ∨ s.inFlight[k]?.any (isCurrent · s.issued) = false ∨
    settle s.shown reply = s.shown

variable {settle : π → ρ → π} {isCurrent : ℕ → ℕ → Bool} {initial : π} {s t : Requests π ρ}

theorem numbered_new : (new initial : Requests π ρ).Numbered :=
  ⟨fun _ h => absurd h List.not_mem_nil, List.nodup_nil, fun h => absurd rfl h⟩

theorem showsNewest_new : (new initial : Requests π ρ).ShowsNewest settle initial :=
  ⟨fun _ => rfl, fun h => absurd rfl h, fun _ h => nomatch h⟩

theorem Numbered.issue (h : s.Numbered) (start : π → π) : (s.issue start).Numbered where
  bounded number hnumber := by
    rcases List.mem_append.mp hnumber with hold | hnew
    · exact ⟨(h.bounded number hold).1, Nat.le_succ_of_le (h.bounded number hold).2⟩
    · obtain rfl := List.mem_singleton.mp hnew
      exact ⟨Nat.succ_ne_zero _, Nat.le_refl _⟩
  nodup := by
    refine List.nodup_append.mpr ⟨h.nodup, List.nodup_singleton _, fun a ha b hb heq => ?_⟩
    have hle := (h.bounded a ha).2
    rw [heq, List.mem_singleton.mp hb] at hle
    exact Nat.not_succ_le_self _ hle
  once hreply := absurd rfl hreply

/-- A new request is the newest, whatever was shown before. -/
theorem showsNewest_issue (start : π → π) : (s.issue start).ShowsNewest settle initial where
  untouched hzero := absurd hzero (Nat.succ_ne_zero _)
  waiting _ _ := ⟨List.mem_append_right _ List.mem_cons_self, rfl⟩
  settled _ hreply := nomatch hreply

theorem Numbered.mem_eraseIdx_iff (h : s.Numbered) {k number m : ℕ}
    (hk : s.inFlight[k]? = some number) :
    m ∈ s.inFlight.eraseIdx k ↔ m ≠ number ∧ m ∈ s.inFlight := by
  obtain ⟨hlt, rfl⟩ := List.getElem?_eq_some_iff.mp hk
  rw [← h.nodup.erase_getElem k hlt, h.nodup.mem_erase_iff]

theorem Numbered.respond (h : s.Numbered) {k : ℕ} {reply : ρ}
    (ht : s.respond settle isCurrent k reply = some t) : t.Numbered := by
  simp only [Requests.respond, Option.bind_eq_bind, Option.bind_eq_some_iff, Option.some.injEq]
    at ht
  obtain ⟨number, hk, rfl⟩ := ht
  refine ⟨fun m hm => h.bounded m (List.mem_of_mem_eraseIdx hm), h.nodup.eraseIdx k, ?_⟩
  dsimp only
  intro hreply hmem
  obtain ⟨hne, hmem⟩ := (h.mem_eraseIdx_iff hk).mp hmem
  rw [if_neg (Ne.symm hne)] at hreply
  exact h.once hreply hmem

/-- The reply to the newest request settles what it shows. -/
theorem ShowsNewest.respond_newest (h : s.ShowsNewest settle initial) (hnumbered : s.Numbered)
    {k : ℕ} (hk : s.inFlight[k]? = some s.issued) (reply : ρ) :
    ShowsNewest settle initial
      { s with
        shown := settle s.shown reply
        inFlight := s.inFlight.eraseIdx k
        reply := some reply } := by
  have hmem : s.issued ∈ s.inFlight := List.mem_of_getElem? hk
  have hissued := (hnumbered.bounded s.issued hmem).1
  have hnone : s.reply = none := by
    by_contra hreply
    exact hnumbered.once hreply hmem
  refine ⟨fun hzero => absurd hzero hissued, fun _ => (nomatch ·), ?_⟩
  rintro _ ⟨⟩
  exact congrArg (settle · reply) (h.waiting hissued hnone).2

/-- After the reply to an older request the newest one is shown exactly when nothing has changed. -/
theorem ShowsNewest.respond_older_iff (h : s.ShowsNewest settle initial) (hnumbered : s.Numbered)
    {k number : ℕ} (hk : s.inFlight[k]? = some number) (hne : number ≠ s.issued) (shown : π) :
    ShowsNewest settle initial { s with shown, inFlight := s.inFlight.eraseIdx k } ↔
      shown = s.shown := by
  obtain ⟨hzero, hle⟩ := hnumbered.bounded number (List.mem_of_getElem? hk)
  have hissued : s.issued ≠ 0 := by omega
  constructor
  · intro ht
    cases hreply : s.reply with
    | none => exact (ht.waiting hissued hreply).2.trans (h.waiting hissued hreply).2.symm
    | some reply => exact (ht.settled reply hreply).trans (h.settled reply hreply).symm
  · rintro rfl
    refine ⟨h.untouched, fun _ hreply => ?_, h.settled⟩
    obtain ⟨hmem, hkept⟩ := h.waiting hissued hreply
    exact ⟨(hnumbered.mem_eraseIdx_iff hk).mpr ⟨Ne.symm hne, hmem⟩, hkept⟩

/-- The step lemma: a reply keeps what is shown the newest request's exactly when it is harmless. -/
theorem ShowsNewest.respond_iff (h : s.ShowsNewest settle initial) (hnumbered : s.Numbered)
    (hnewest : ∀ number, isCurrent number number = true) {k : ℕ} {reply : ρ}
    (ht : s.respond settle isCurrent k reply = some t) :
    t.ShowsNewest settle initial ↔ s.Harmless settle isCurrent k reply := by
  simp only [Requests.respond, Option.bind_eq_bind, Option.bind_eq_some_iff, Option.some.injEq]
    at ht
  obtain ⟨number, hk, rfl⟩ := ht
  rw [Harmless, hk, Option.some.injEq, Option.any_some]
  by_cases hne : number = s.issued
  · subst hne
    simp only [hnewest, if_true, true_or, iff_true]
    exact h.respond_newest hnumbered hk reply
  · simp only [hne, if_false, false_or]
    rw [h.respond_older_iff hnumbered hk hne]
    cases isCurrent number s.issued <;> simp

/-- Once every reply has arrived, the outcome of the newest request is shown. -/
theorem ShowsNewest.all_arrived (h : s.ShowsNewest settle initial) (hissued : s.issued ≠ 0)
    (harrived : s.inFlight = []) :
    ∃ reply, s.reply = some reply ∧ s.shown = settle s.kept reply := by
  cases hreply : s.reply with
  | none =>
    obtain ⟨hmem, -⟩ := h.waiting hissued hreply
    exact absurd (harrived ▸ hmem) List.not_mem_nil
  | some reply => exact ⟨reply, rfl, h.settled reply hreply⟩

/-- Where only the newest request is current, no reply does harm. -/
theorem harmless_of_guarded {k : ℕ} {reply : ρ} {number : ℕ} (hk : s.inFlight[k]? = some number) :
    s.Harmless settle (fun number newest => number = newest) k reply := by
  by_cases heq : number = s.issued
  · exact .inl (heq ▸ hk)
  · refine .inr (.inl ?_)
    rw [hk]
    simp [heq]

end Requests

end OpenGps.Lib
