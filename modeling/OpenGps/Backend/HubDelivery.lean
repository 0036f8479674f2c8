import Mathlib.Algebra.Order.Ring.Int
import Mathlib.Data.List.Perm.Basic
import OpenGps.Lib.Run
import OpenGps.Backend.Hub

/-!
# Delivery by the hub

For every interleaving of publishes, subscriptions, closures and receives: no channel panics, and a
subscriber gets a gap-free segment of its device's events, in the order in which the publishes took
the lock. The ids are drawn before the lock, so they are distinct but not increasing.

`Safe` and what a step does to one subscription (`Kept`) hold whatever the ids are, except that a
new subscription can take the key of an older one (`TakenOver`). While the 64-bit counter has not
wrapped, the ids are `Distinct` and that cannot happen.
-/

namespace OpenGps.Backend

open OpenGps.Lib

variable {δ σ : Type} [DecidableEq δ]

/-! ## The events of a device -/

/-- The events of a device, in the order of the log. -/
def eventsOf (device : δ) (log : List (δ × LiveEvent σ)) : List (LiveEvent σ) :=
  (log.filter (·.1 = device)).map (·.2)

theorem eventsOf_append (device : δ) (log log' : List (δ × LiveEvent σ)) :
    eventsOf device (log ++ log') = eventsOf device log ++ eventsOf device log' := by
  rw [eventsOf, List.filter_append, List.map_append]
  rfl

theorem eventsOf_self (device : δ) (e : LiveEvent σ) : eventsOf device [(device, e)] = [e] := by
  simp [eventsOf]

theorem eventsOf_other {device d : δ} (h : d ≠ device) (e : LiveEvent σ) :
    eventsOf device [(d, e)] = [] := by
  simp [eventsOf, h]

namespace Hub

theorem view_isSome {h : Hub δ σ} {b : Nat} : (h.view b).isSome ↔ b < h.heap.length := by
  simp [view]

/-- A subscription of the new hub is one of the old hub, when none was added. -/
theorem exists_view {h h' : Hub δ σ} (hlen : h'.heap.length = h.heap.length) {b : Nat}
    {v' : Subscription δ σ × Bool} (hv' : h'.view b = some v') : ∃ v, h.view b = some v := by
  have hb : (h'.view b).isSome := by rw [hv']; rfl
  rw [view_isSome, hlen, ← view_isSome] at hb
  exact Option.isSome_iff_exists.mp hb

theorem mem_keysOf {h : Hub δ σ} {b : Nat} {v : Subscription δ σ × Bool} (hv : h.view b = some v)
    (hreg : v.2 = true) : v.1.id ∈ h.keysOf v.1.device := by
  obtain ⟨hs, hb⟩ := view_eq_some.mp hv
  rw [hreg, registered_iff hs] at hb
  have hkey : (v.1.device, v.1.id) ∈ h.subs.keys := by
    rw [← AList.mem_keys, ← AList.lookup_isSome, hb]
    rfl
  rw [keysOf, List.mem_map]
  exact ⟨_, List.mem_filter.mpr ⟨hkey, decide_eq_true rfl⟩, rfl⟩

theorem nodup_keysOf (h : Hub δ σ) (device : δ) : (h.keysOf device).Nodup := by
  rw [keysOf]
  refine (h.subs.keys_nodup.filter _).map_on ?_
  intro x hx y hy hxy
  simp only [List.mem_filter, decide_eq_true_eq] at hx hy
  exact Prod.ext (hx.2.trans hy.2.symm) hxy

end Hub

namespace HubState

/-- The number of events published to a subscription that is still in the map: the publish that
holds the lock may not have reached it. -/
def seen (s : HubState δ σ) (sub : Subscription δ σ) : Nat :=
  match s.lock with
  | some dl =>
    if dl.device = sub.device ∧ sub.id ∈ dl.remaining then s.published.length - 1
    else s.published.length
  | none => s.published.length

theorem seen_le (s : HubState δ σ) (sub : Subscription δ σ) : s.seen sub ≤ s.published.length := by
  unfold seen
  split
  · split <;> omega
  · exact le_refl _

/-! ## Invariants -/

structure Safe (s : HubState δ σ) : Prop where
  panicked : s.panicked = none
  sound : s.hub.Sound
  traces : s.traces.length = s.hub.heap.length
  lock : ∀ dl, s.lock = some dl →
    dl.remaining.Nodup ∧ ∃ log, s.published = log ++ [(dl.device, dl.event)]

/-- What a subscription got is the segment of its device's events between joining and leaving. -/
structure Segment (s : HubState δ σ) (v : Subscription δ σ × Bool) (t : Trace σ) : Prop where
  active : v.2 = true ↔ t.left = none
  joined : t.joined ≤ t.left.getD (s.seen v.1)
  left : ∀ n, t.left = some n → n ≤ s.published.length
  sent : t.received ++ v.1.ch.buffer =
    eventsOf v.1.device ((s.published.take (t.left.getD (s.seen v.1))).drop t.joined)

/-- Only events of its own device. -/
def Own (s : HubState δ σ) (v : Subscription δ σ × Bool) (t : Trace σ) : Prop :=
  ∀ e ∈ t.received ++ v.1.ch.buffer, (v.1.device, e) ∈ s.published

/-- The ids drawn so far, before the counter wraps. -/
structure Distinct (s : HubState δ σ) : Prop where
  sequence : s.hub.sequence.toNat = s.drawn
  keys : ∀ sub v, s.hub.view sub = some v → v.1.id.toNat ≤ s.drawn
  ids : ∀ x ∈ s.published ++ s.waiting, x.2.id.toNat ≤ s.drawn
  nodup : ((s.published ++ s.waiting).map (·.2.id)).Nodup

/-- A new subscription is about to take the key of this one. -/
def TakenOver (s : HubState δ σ) (a : HubAction δ σ) (v : Subscription δ σ × Bool) : Prop :=
  v.2 = true ∧ a = .subscribe v.1.device ∧ v.1.id = s.hub.sequence + 1

/-- What a step does to one subscription. -/
structure Kept (s s' : HubState δ σ) (a : HubAction δ σ) (sub : Nat)
    (v v' : Subscription δ σ × Bool) (t t' : Trace σ) : Prop where
  device : v'.1.device = v.1.device
  id : v'.1.id = v.1.id
  joined : t'.joined = t.joined
  received : a ≠ .receive sub → t'.received = t.received
  stays : v'.2 = true → v.2 = true
  leaves : v.2 = true → v'.2 = false → a = .offer ∨ a = .unsubscribe sub ∨ s.TakenOver a v
  left : t'.left = t.left ∨ v.2 = true ∧ v'.2 = false
  grows : ∀ e ∈ t.received ++ v.1.ch.buffer, e ∈ t'.received ++ v'.1.ch.buffer
  own : s.Own v t → s'.Own v' t'
  segment : ¬ s.TakenOver a v → s.Segment v t → s'.Segment v' t'

/-- Every subscription is kept, and only `Subscribe` makes one. -/
structure KeepsAll (s s' : HubState δ σ) (a : HubAction δ σ) : Prop where
  heap : (∀ device, a ≠ .subscribe device) → s'.hub.heap.length = s.hub.heap.length
  kept : ∀ sub v t, s.hub.view sub = some v → s.traces[sub]? = some t →
    ∃ v' t', s'.hub.view sub = some v' ∧ s'.traces[sub]? = some t' ∧ Kept s s' a sub v v' t t'

/-- A segment depends on the log up to its end only. -/
theorem Segment.congr {s s' : HubState δ σ} {v v' : Subscription δ σ × Bool} {t : Trace σ}
    (h : s.Segment v t) (hactive : v'.2 = v.2) (hdevice : v'.1.device = v.1.device)
    (hbuffer : v'.1.ch.buffer = v.1.ch.buffer)
    (hlog : ∃ later, s'.published = s.published ++ later ∧
      (t.left = none → s.seen v.1 ≤ s'.seen v'.1 ∧
        eventsOf v.1.device ((s'.published.take (s'.seen v'.1)).drop t.joined) =
          eventsOf v.1.device ((s.published.take (s.seen v.1)).drop t.joined))) :
    s'.Segment v' t := by
  obtain ⟨later, hpublished, hseen⟩ := hlog
  refine ⟨by rw [hactive]; exact h.active, ?_, fun n hn => ?_, ?_⟩
  · have hjoined := h.joined
    cases hleft : t.left with
    | none =>
      rw [hleft] at hjoined
      exact Nat.le_trans hjoined (hseen hleft).1
    | some n =>
      rw [hleft] at hjoined
      exact hjoined
  · rw [hpublished, List.length_append]
    exact Nat.le_trans (h.left n hn) (Nat.le_add_right _ _)
  · rw [hbuffer, h.sent, hdevice]
    cases hleft : t.left with
    | none => exact (hseen hleft).2.symm
    | some n =>
      simp only [Option.getD_some]
      rw [hpublished, List.take_append_of_le_length (h.left n hleft)]

/-! ## One lemma for each step -/

/-- A subscription that the step does not touch. -/
theorem Kept.of_same {s s' : HubState δ σ} {a : HubAction δ σ} {sub : Nat}
    {v : Subscription δ σ × Bool} {t : Trace σ} (hlock : s'.lock = s.lock)
    (hpublished : s'.published = s.published) : Kept s s' a sub v v t t where
  device := rfl
  id := rfl
  joined := rfl
  received := fun _ => rfl
  stays := fun h => h
  leaves := fun h h' => by rw [h] at h'; cases h'
  left := .inl rfl
  grows := fun _ he => he
  own := fun h e he => by rw [hpublished]; exact h e he
  segment := fun _ h => h.congr rfl rfl rfl
    ⟨[], by rw [hpublished, List.append_nil], fun _ => by
      have hseen : s'.seen v.1 = s.seen v.1 := by
        simp only [seen, hlock, hpublished]
      rw [hseen, hpublished]
      exact ⟨Nat.le_refl _, rfl⟩⟩

/-! ### Offers

The publisher offers the event to one subscriber after the other; each offer extends one trace. -/

/-- A critical section moves the subscriptions that leave the map into the history. -/
theorem traces_commit {s : HubState δ σ} {left : Nat} {h : Hub δ σ} {sub : Nat}
    {v v' : Subscription δ σ × Bool} {t : Trace σ} (hv : s.hub.view sub = some v)
    (hv' : h.view sub = some v') (ht : s.traces[sub]? = some t) :
    (s.commit left (.ok h)).traces[sub]? =
      some (if v.2 = true ∧ v'.2 = false then { t with left := some left } else t) := by
  show (s.traces.mapIdx fun sub t =>
    if s.hub.registered sub && !h.registered sub then { t with left := some left } else t)[sub]? = _
  rw [List.getElem?_mapIdx, ht, Option.map_some, (Hub.view_eq_some.mp hv).2,
    (Hub.view_eq_some.mp hv').2]
  refine congrArg some (if_congr ?_ rfl rfl)
  simp

theorem traces_length_commit (s : HubState δ σ) (left : Nat) (h : Hub δ σ) :
    (s.commit left (.ok h)).traces.length = s.traces.length := List.length_mapIdx

/-- The publish that holds the lock reaches a subscription. -/
theorem Segment.offer {s : HubState δ σ} {v v' : Subscription δ σ × Bool} {t : Trace σ}
    {device : δ} {event : LiveEvent σ} {id : UInt64} {remaining : List UInt64} {h' : Hub δ σ}
    {log : List (δ × LiveEvent σ)} (h : s.Segment v t)
    (hlock : s.lock = some ⟨device, event, id :: remaining⟩)
    (hlog : s.published = log ++ [(device, event)])
    (hkey : v.2 = true ∧ v.1.device = device ∧ v.1.id = id) (hoffered : Hub.Offered event v v')
    (hnotin : id ∉ remaining) :
    (commit { s with lock := some ⟨device, event, remaining⟩ } (s.published.length - 1)
      (.ok h')).Segment v' (if v.2 = true ∧ v'.2 = false then
        { t with left := some (s.published.length - 1) } else t) := by
  obtain ⟨hreg, rfl, rfl⟩ := hkey
  have hleft := h.active.mp hreg
  have hseen : s.seen v.1 = s.published.length - 1 := by
    rw [seen, hlock]
    exact if_pos ⟨rfl, List.mem_cons_self⟩
  have hjoined := h.joined
  have hsent := h.sent
  rw [hleft, Option.getD_none, hseen] at hjoined hsent
  have hlen : s.published.length = log.length + 1 := by
    rw [hlog, List.length_append, List.length_singleton]
  rw [hlen, Nat.add_sub_cancel] at hjoined hsent
  rcases hoffered.sent with ⟨hreg', hbuffer⟩ | ⟨hreg', hbuffer, -⟩
  · rw [if_neg (by rw [hreg']; simp)]
    -- The range over the map does not come back to the subscription.
    have hseen' : seen (commit { s with lock := some ⟨v.1.device, event, remaining⟩ }
        (s.published.length - 1) (.ok h')) v'.1 = s.published.length := by
      refine if_neg ?_
      rintro ⟨-, hid⟩
      rw [hoffered.id] at hid
      exact hnotin hid
    refine ⟨by rw [hreg', hleft]; simp, ?_, fun n hn => ?_, ?_⟩
    · rw [hleft, Option.getD_none, hseen', hlen]
      exact Nat.le_succ_of_le hjoined
    · rw [hleft] at hn
      cases hn
    · rw [hleft, Option.getD_none, hseen', hoffered.device, hbuffer, ← List.append_assoc, hsent]
      show _ = eventsOf _ ((s.published.take s.published.length).drop _)
      rw [List.take_length, hlog, List.take_left', List.drop_append_of_le_length hjoined,
        eventsOf_append, eventsOf_self]
      rfl
  · rw [if_pos ⟨hreg, hreg'⟩]
    refine ⟨by rw [hreg']; simp, ?_, fun n hn => ?_, ?_⟩
    · rw [hlen]
      exact hjoined
    · cases hn
      exact Nat.sub_le _ _
    · rw [hoffered.device, hbuffer, hsent, hlen]
      rfl

/-- The number of the event a subscription is at does not change for a publish that serves another
one. -/
theorem seen_commit_other {s : HubState δ σ} {v : Subscription δ σ × Bool} {device : δ}
    {event : LiveEvent σ} {id : UInt64} {remaining : List UInt64} {left : Nat} {h' : Hub δ σ}
    (hlock : s.lock = some ⟨device, event, id :: remaining⟩)
    (hkey : ¬ (v.1.device = device ∧ v.1.id = id)) :
    seen (commit { s with lock := some ⟨device, event, remaining⟩ } left (.ok h')) v.1 =
      s.seen v.1 := by
  simp only [seen, hlock]
  show (if device = v.1.device ∧ v.1.id ∈ remaining then s.published.length - 1
    else s.published.length) = _
  refine if_congr ?_ rfl rfl
  simp only [List.mem_cons]
  constructor
  · rintro ⟨hdevice, hid⟩
    exact ⟨hdevice, .inr hid⟩
  · rintro ⟨hdevice, hid | hid⟩
    · exact absurd ⟨hdevice.symm, hid⟩ hkey
    · exact ⟨hdevice, hid⟩

theorem Safe.offer {s s' : HubState δ σ} (h : s.Safe) (hstep : s.next .offer = some s') :
    s'.Safe ∧ KeepsAll s s' .offer ∧ s'.drawn = s.drawn ∧ (s.Distinct → s'.Distinct) := by
  rw [next] at hstep
  split at hstep
  next device event id remaining hlock =>
    obtain ⟨h', hrun, hsound, hseq, hlen, hviews⟩ := Hub.offer_spec h.sound device event id
    rw [hrun] at hstep
    cases hstep
    obtain ⟨hnodup, log, hlog⟩ := h.lock _ hlock
    obtain ⟨hnotin, hnodup⟩ := List.nodup_cons.mp hnodup
    have hlast : (device, event) ∈ s.published := by
      rw [hlog]
      exact List.mem_append_right _ List.mem_cons_self
    refine ⟨⟨h.panicked, hsound, ?_, ?_⟩, ⟨fun _ => hlen, fun sub v t hv ht => ?_⟩, rfl,
      fun hord => ?_⟩
    · rw [traces_length_commit]
      exact h.traces.trans hlen.symm
    · rintro dl hdl
      cases hdl
      exact ⟨hnodup, log, hlog⟩
    · obtain ⟨v', hv', hoffered⟩ := hviews sub v hv
      refine ⟨v', _, hv', traces_commit (s := { s with lock := _ }) hv hv' ht, ?_⟩
      have hreceived : (if v.2 = true ∧ v'.2 = false then
        { t with left := some (s.published.length - 1) } else t).received = t.received := by
        split <;> rfl
      have hjoined : (if v.2 = true ∧ v'.2 = false then
        { t with left := some (s.published.length - 1) } else t).joined = t.joined := by
        split <;> rfl
      split at hoffered
      · next hkey =>
        refine ⟨hoffered.device, hoffered.id, hjoined, fun _ => hreceived, fun _ => hkey.1,
          fun _ _ => .inl rfl, ?_, fun e he => ?_, fun hown e he => ?_, fun _ hsegment =>
            hsegment.offer hlock hlog hkey hoffered hnotin⟩
        · split
          · next hleaves => exact .inr hleaves
          · exact .inl rfl
        · rw [hreceived]
          rcases hoffered.sent with ⟨-, hbuffer⟩ | ⟨-, hbuffer, -⟩
          · rw [hbuffer, ← List.append_assoc]
            exact List.mem_append_left _ he
          · rw [hbuffer]
            exact he
        rw [hreceived] at he
        rw [hoffered.device]
        rcases hoffered.sent with ⟨-, hbuffer⟩ | ⟨-, hbuffer, -⟩
        · rw [hbuffer, ← List.append_assoc, List.mem_append, List.mem_singleton] at he
          rcases he with he | rfl
          · exact hown e he
          · rw [hkey.2.1]
            exact hlast
        · rw [hbuffer] at he
          exact hown e he
      · next hkey =>
        obtain rfl := hoffered
        rw [if_neg (by rintro ⟨h1, h2⟩; rw [h1] at h2; cases h2)]
        refine ⟨rfl, rfl, rfl, fun _ => rfl, fun hreg => hreg, fun _ _ => .inl rfl, .inl rfl,
          fun _ he => he, fun hown => hown, fun _ hsegment => ?_⟩
        refine hsegment.congr rfl rfl rfl ⟨[], (List.append_nil _).symm, fun hleft => ?_⟩
        -- Not the key that was served, so the publish still has to reach it, or has already.
        rw [seen_commit_other hlock fun hsame => hkey ⟨hsegment.active.mpr hleft, hsame⟩]
        exact ⟨Nat.le_refl _, rfl⟩
    · refine ⟨(congrArg UInt64.toNat hseq).trans hord.sequence, ?_, hord.ids, hord.nodup⟩
      intro sub v' hv'
      obtain ⟨v, hv⟩ := Hub.exists_view hlen hv'
      obtain ⟨w, hw, hoffered⟩ := hviews sub v hv
      obtain rfl : w = v' := Option.some.inj (hw.symm.trans hv')
      have hkey := hord.keys sub v hv
      split at hoffered
      · rw [hoffered.id]
        exact hkey
      · rw [hoffered]
        exact hkey
  · cases hstep

/-! ### The lock of the hub -/

/-- Taking the lock fixes the place of the event in the log; every subscriber of the device is
still to be reached. -/
theorem Segment.acquire {s : HubState δ σ} {sub i : Nat} {v : Subscription δ σ × Bool} {t : Trace σ}
    {device : δ} {event : LiveEvent σ} {order : List UInt64} (h : s.Segment v t)
    (hv : s.hub.view sub = some v) (hlock : s.lock = none)
    (hperm : order.Perm (s.hub.keysOf device)) :
    ({ s with
      lock := some ⟨device, event, order⟩
      waiting := s.waiting.eraseIdx i
      published := s.published ++ [(device, event)] } : HubState δ σ).Segment v t := by
  refine h.congr rfl rfl rfl ⟨[(device, event)], rfl, fun hleft => ?_⟩
  have hseen : s.seen v.1 = s.published.length := by
    rw [seen, hlock]
  have hjoined := h.joined
  rw [hleft, Option.getD_none, hseen] at hjoined
  rw [hseen, List.take_length]
  by_cases hdevice : device = v.1.device
  · -- A subscriber of the device is in the order the publish ranges over.
    have hid := Hub.mem_keysOf hv (h.active.mpr hleft)
    rw [← hdevice, ← hperm.mem_iff] at hid
    have hseen' : seen { s with
        lock := some ⟨device, event, order⟩
        waiting := s.waiting.eraseIdx i
        published := s.published ++ [(device, event)] } v.1 = s.published.length := by
      refine (if_pos ⟨hdevice, hid⟩).trans ?_
      simp
    rw [hseen']
    refine ⟨Nat.le_refl _, ?_⟩
    show eventsOf _ (((s.published ++ _).take _).drop _) = _
    rw [List.take_left]
  · have hseen' : seen { s with
        lock := some ⟨device, event, order⟩
        waiting := s.waiting.eraseIdx i
        published := s.published ++ [(device, event)] } v.1 = s.published.length + 1 := by
      refine (if_neg fun h => hdevice h.1).trans ?_
      simp
    rw [hseen']
    refine ⟨Nat.le_succ _, ?_⟩
    show eventsOf _ (((s.published ++ _).take _).drop _) = _
    rw [List.take_of_length_le (by simp), List.drop_append_of_le_length hjoined,
      eventsOf_append, eventsOf_other hdevice, List.append_nil]

theorem Safe.acquire {s s' : HubState δ σ} {i : Nat} {order : List UInt64} (h : s.Safe)
    (hstep : s.next (.acquire i order) = some s') :
    s'.Safe ∧ KeepsAll s s' (.acquire i order) ∧ s'.drawn = s.drawn ∧
      (s.Distinct → s'.Distinct) := by
  rw [next] at hstep
  split at hstep
  next device event hlock hwaiting =>
    split at hstep
    next hperm =>
      cases hstep
      refine ⟨⟨h.panicked, h.sound, h.traces, ?_⟩, ⟨fun _ => rfl, fun sub v t hv ht => ?_⟩, rfl,
        fun hord => ?_⟩
      · rintro dl hdl
        cases hdl
        exact ⟨hperm.nodup_iff.mpr (s.hub.nodup_keysOf device), s.published, rfl⟩
      · exact ⟨v, t, hv, ht, rfl, rfl, rfl, fun _ => rfl, fun hreg => hreg,
          fun h h' => (by rw [h] at h'; cases h'), .inl rfl, fun _ he => he,
          fun hown e he => List.mem_append_left _ (hown e he),
          fun _ hsegment => hsegment.acquire hv hlock hperm⟩
      · -- The event moves from the waiting ones to the log.
        have hmoved : (s.published ++ [(device, event)] ++ s.waiting.eraseIdx i).Perm
            (s.published ++ s.waiting) := by
          rw [List.append_assoc, List.singleton_append]
          refine List.Perm.append_left _ ?_
          obtain ⟨hlt, hget⟩ := List.getElem?_eq_some_iff.mp hwaiting
          rw [← hget]
          exact List.getElem_cons_eraseIdx_perm hlt
        exact ⟨hord.sequence, hord.keys, fun x hx => hord.ids x (hmoved.subset hx),
          (hmoved.map _).nodup_iff.mpr hord.nodup⟩
    next => cases hstep
  next => cases hstep

theorem Safe.release {s s' : HubState δ σ} (h : s.Safe) (hstep : s.next .release = some s') :
    s'.Safe ∧ KeepsAll s s' .release ∧ s'.drawn = s.drawn ∧ (s.Distinct → s'.Distinct) := by
  rw [next] at hstep
  split at hstep
  next device event hlock =>
    cases hstep
    refine ⟨⟨h.panicked, h.sound, h.traces, ?_⟩,
      ⟨fun _ => rfl, fun sub v t hv ht => ⟨v, t, hv, ht, ?_⟩⟩, rfl,
      fun hord => ⟨hord.sequence, hord.keys, hord.ids, hord.nodup⟩⟩
    · rintro dl hdl
      cases hdl
    · refine ⟨rfl, rfl, rfl, fun _ => rfl, fun hreg => hreg,
        fun h h' => (by rw [h] at h'; cases h'), .inl rfl, fun _ he => he, fun hown => hown,
        fun _ hsegment => ?_⟩
      refine hsegment.congr rfl rfl rfl ⟨[], (List.append_nil _).symm, fun _ => ?_⟩
      have hseen : seen { s with lock := none } v.1 = s.seen v.1 := by
        simp [seen, hlock]
      rw [hseen]
      exact ⟨Nat.le_refl _, rfl⟩
  next => cases hstep

/-! ### Drawing an id

Until the counter wraps, an id is drawn once. -/

/-- The number of the draw, before the counter wraps. -/
theorem Distinct.toNat_nextID {s : HubState δ σ} (h : s.Distinct)
    (hdrawn : s.drawn + 1 < 2 ^ 64) : (s.hub.sequence + 1).toNat = s.drawn + 1 := by
  rw [UInt64.toNat_add, h.sequence]
  exact Nat.mod_eq_of_lt hdrawn

theorem Distinct.nextID {s : HubState δ σ} (h : s.Distinct) (hdrawn : s.drawn + 1 < 2 ^ 64) :
    ({ s with hub := s.hub.nextID.2, drawn := s.drawn + 1 } : HubState δ σ).Distinct where
  sequence := h.toNat_nextID hdrawn
  keys := fun sub v hv => Nat.le_succ_of_le (h.keys sub v hv)
  ids := fun x hx => Nat.le_succ_of_le (h.ids x hx)
  nodup := h.nodup

theorem Distinct.draw {s : HubState δ σ} (h : s.Distinct) (hdrawn : s.drawn + 1 < 2 ^ 64)
    (device : δ) (kind : String) (snapshot : σ) :
    ({ s with
      hub := s.hub.nextID.2
      drawn := s.drawn + 1
      waiting := s.waiting ++ [(device, ⟨s.hub.nextID.1, kind, snapshot⟩)] } :
        HubState δ σ).Distinct where
  sequence := h.toNat_nextID hdrawn
  keys := fun sub v hv => Nat.le_succ_of_le (h.keys sub v hv)
  ids := by
    intro x hx
    rw [← List.append_assoc, List.mem_append, List.mem_singleton] at hx
    rcases hx with hx | rfl
    · exact Nat.le_succ_of_le (h.ids x hx)
    · exact Nat.le_of_eq (h.toNat_nextID hdrawn)
  nodup := by
    rw [← List.append_assoc, List.map_append, List.map_singleton,
      List.nodup_append]
    refine ⟨h.nodup, List.nodup_singleton _, ?_⟩
    rintro id hid _ hnew rfl
    obtain ⟨x, hx, rfl⟩ := List.mem_map.mp hid
    have hle := h.ids x hx
    have heq : (x.2.id).toNat = s.drawn + 1 := by
      rw [List.mem_singleton.mp hnew]
      exact h.toNat_nextID hdrawn
    omega

omit [DecidableEq δ] in
theorem lock_eq_none {s : HubState δ σ} (h : ¬ s.lock.isSome = true) : s.lock = none :=
  Option.not_isSome_iff_eq_none.mp h

/-! ### Subscribing and leaving -/

/-- The new subscription starts at the end of the log. -/
theorem Safe.subscribe {s s' : HubState δ σ} {device : δ} (h : s.Safe)
    (hstep : s.next (.subscribe device) = some s') :
    s'.Safe ∧ KeepsAll s s' (.subscribe device) ∧
      (∃ v t, s'.hub.view s.hub.heap.length = some v ∧ s'.traces[s.hub.heap.length]? = some t ∧
        v = (⟨.empty, false, device, s.hub.sequence + 1⟩, true) ∧
        t = ⟨s.published.length, none, []⟩ ∧ s'.Segment v t) ∧
      (∀ sub v, s.hub.view sub = some v → s.TakenOver (.subscribe device) v →
        ∃ v', s'.hub.view sub = some v' ∧ v'.2 = false) ∧
      s'.hub.heap.length = s.hub.heap.length + 1 ∧ s'.drawn = s.drawn + 1 ∧
      (s'.drawn < 2 ^ 64 → s.Distinct → s'.Distinct) := by
  rw [next] at hstep
  split at hstep
  next => cases hstep
  next hlock =>
    have hlock := lock_eq_none hlock
    cases hstep
    obtain ⟨hsound, hnew, hold⟩ := Hub.subscribe_spec h.sound device
    have hlen : (s.hub.subscribe device).heap.length = s.hub.heap.length + 1 := by
      show (s.hub.heap ++ [_]).length = _
      rw [List.length_append, List.length_singleton]
    refine ⟨⟨h.panicked, hsound, ?_, ?_⟩,
      ⟨fun hnot => absurd rfl (hnot device), fun sub v t hv ht => ?_⟩,
      ⟨_, _, hnew, ?_, rfl, rfl, ?_⟩, ?_, hlen, rfl, fun hdrawn hord => ?_⟩
    · show (s.traces ++ [_]).length = _
      rw [List.length_append, h.traces, List.length_singleton, hlen]
    · rw [hlock]
      rintro dl hdl
      cases hdl
    · obtain ⟨v', hv', hsame, hkept⟩ := hold sub v hv
      have ht' : (s.traces ++ [⟨s.published.length, none, []⟩])[sub]? = some t := by
        rw [List.getElem?_append_left (List.getElem?_eq_some_iff.mp ht).1, ht]
      refine ⟨v', t, hv', ht', ?_⟩
      split at hkept
      · -- The key goes to the new subscription.
        next htaken =>
        obtain ⟨hreg, rfl, hid⟩ := htaken
        refine ⟨by rw [hsame], by rw [hsame], rfl, fun _ => rfl, fun _ => hreg,
          fun _ _ => .inr (.inr ⟨hreg, rfl, hid⟩), .inl rfl, fun e he => (by rw [hsame]; exact he),
          fun hown e he => ?_, fun hnot => absurd ⟨hreg, rfl, hid⟩ hnot⟩
        rw [hsame] at he ⊢
        exact hown e he
      · rw [hkept]
        exact .of_same rfl rfl
    · show (s.traces ++ [_])[s.hub.heap.length]? = _
      rw [List.getElem?_append_right (Nat.le_of_eq h.traces), h.traces, Nat.sub_self]
      rfl
    · have hseen : ∀ sub, seen { s with
          hub := s.hub.subscribe device
          drawn := s.drawn + 1
          traces := s.traces ++ [⟨s.published.length, none, []⟩] } sub = s.published.length := by
        intro sub
        simp only [seen, hlock]
      refine ⟨by simp, ?_, by simp, ?_⟩
      · rw [hseen]
        exact Nat.le_refl _
      · rw [hseen, Option.getD_none, List.take_length, List.drop_length]
        rfl
    · rintro sub v hv ⟨hreg, haction, hid⟩
      obtain ⟨v', hv', -, hkept⟩ := hold sub v hv
      have hdevice : v.1.device = device := (HubAction.subscribe.inj haction).symm
      rw [if_pos ⟨hreg, hdevice, hid⟩] at hkept
      exact ⟨v', hv', hkept⟩
    · refine ⟨hord.toNat_nextID hdrawn, fun sub v' hv' => ?_,
        fun x hx => Nat.le_succ_of_le (hord.ids x hx), hord.nodup⟩
      have hsub : sub < s.hub.heap.length + 1 := by
        rw [← hlen, ← Hub.view_isSome, hv']
        rfl
      rcases Nat.lt_succ_iff_lt_or_eq.mp hsub with hlt | rfl
      · obtain ⟨v, hv⟩ := Option.isSome_iff_exists.mp (Hub.view_isSome.mpr hlt)
        obtain ⟨w, hw, hsame, -⟩ := hold sub v hv
        obtain rfl : w = v' := Option.some.inj (hw.symm.trans hv')
        rw [hsame]
        exact Nat.le_succ_of_le (hord.keys sub v hv)
      · obtain rfl := Option.some.inj (hnew.symm.trans hv')
        exact Nat.le_of_eq (hord.toNat_nextID hdrawn)

/-- The first call of a closure ends the segment at the end of the log; a later call changes
nothing. -/
theorem Safe.unsubscribe {s s' : HubState δ σ} {sub : Nat} (h : s.Safe)
    (hstep : s.next (.unsubscribe sub) = some s') :
    s'.Safe ∧ KeepsAll s s' (.unsubscribe sub) ∧ s'.drawn = s.drawn ∧
      (s.Distinct → s'.Distinct) := by
  rw [next] at hstep
  split at hstep
  next => cases hstep
  next hlock =>
    have hlock := lock_eq_none hlock
    obtain ⟨h', hrun, hsound, hseq, hlen, hothers, hself⟩ := Hub.unsubscribe_spec h.sound sub
    rw [hrun] at hstep
    cases hstep
    -- Each subscription keeps its key and its buffer; only `sub` can leave the map.
    have hviews : ∀ b v, s.hub.view b = some v → ∃ v', h'.view b = some v' ∧
        v'.1.device = v.1.device ∧ v'.1.id = v.1.id ∧ v'.1.ch.buffer = v.1.ch.buffer ∧
        (v'.2 = v.2 ∨ b = sub ∧ v'.2 = false) := by
      intro b v hv
      by_cases hb : b = sub
      · subst hb
        obtain ⟨v', hv', hdevice, hid, hbuffer, honce⟩ := hself v hv
        refine ⟨v', hv', hdevice, hid, hbuffer, ?_⟩
        split at honce
        · exact .inl (by rw [honce])
        · exact .inr ⟨rfl, honce⟩
      · exact ⟨v, (hothers b hb).trans hv, rfl, rfl, rfl, .inl rfl⟩
    have hseen : ∀ (s : HubState δ σ) sub, s.lock = none → s.seen sub = s.published.length := by
      intro s sub hnone
      simp only [seen, hnone]
    refine ⟨⟨h.panicked, hsound, ?_, h.lock⟩, ⟨fun _ => hlen, fun b v t hv ht => ?_⟩, rfl,
      fun hord => ?_⟩
    · rw [traces_length_commit]
      exact h.traces.trans hlen.symm
    · obtain ⟨v', hv', hdevice, hid, hbuffer, hreg⟩ := hviews b v hv
      refine ⟨v', _, hv', traces_commit hv hv' ht, ?_⟩
      split
      · next hleaves =>
        -- No publish holds the lock, so the whole log has been offered.
        refine ⟨hdevice, hid, rfl, fun _ => rfl, fun _ => hleaves.1, fun _ _ => ?_, .inr hleaves,
          fun e he => (by rw [hbuffer]; exact he), fun hown e he => ?_, fun _ hsegment => ?_⟩
        · rcases hreg with hsame | ⟨rfl, -⟩
          · rw [hsame, hleaves.1] at hleaves
            cases hleaves.2
          · exact .inr (.inl rfl)
        · rw [hbuffer] at he
          rw [hdevice]
          exact hown e he
        · have hleft := hsegment.active.mp hleaves.1
          have hjoined := hsegment.joined
          have hsent := hsegment.sent
          rw [hleft, Option.getD_none, hseen s _ hlock] at hjoined hsent
          refine ⟨by rw [hleaves.2]; simp, hjoined, fun n hn => ?_, ?_⟩
          · cases hn
            exact Nat.le_refl _
          · rw [hdevice, hbuffer]
            exact hsent
      · next hstays =>
        have hsame : v'.2 = v.2 := by
          rcases hreg with hsame | ⟨-, hfalse⟩
          · exact hsame
          · cases hv2 : v.2 with
            | false => exact hfalse
            | true => exact absurd ⟨hv2, hfalse⟩ hstays
        refine ⟨hdevice, hid, rfl, fun _ => rfl, fun hreg => hsame ▸ hreg,
          fun htrue hfalse => absurd ⟨htrue, hfalse⟩ hstays, .inl rfl,
          fun e he => (by rw [hbuffer]; exact he), fun hown e he => ?_, fun _ hsegment => ?_⟩
        · rw [hbuffer] at he
          rw [hdevice]
          exact hown e he
        refine hsegment.congr hsame hdevice hbuffer ⟨[], (List.append_nil _).symm, fun _ => ?_⟩
        rw [hseen s _ hlock, hseen (s.commit s.published.length (.ok h')) _ hlock]
        exact ⟨Nat.le_refl _, rfl⟩
    · refine ⟨(congrArg UInt64.toNat hseq).trans hord.sequence, ?_, hord.ids, hord.nodup⟩
      intro b v' hv'
      obtain ⟨v, hv⟩ := Hub.exists_view hlen hv'
      obtain ⟨w, hw, -, hid, -⟩ := hviews b v hv
      obtain rfl : w = v' := Option.some.inj (hw.symm.trans hv')
      rw [hid]
      exact hord.keys b v hv

/-- The closure of a subscription in the map takes it out. -/
theorem Safe.unsubscribe_leaves {s s' : HubState δ σ} {sub : Nat} (h : s.Safe)
    (hstep : s.step (.unsubscribe sub) = some s') {v : Subscription δ σ × Bool}
    (hv : s.hub.view sub = some v) (hreg : v.2 = true) :
    ∃ v', s'.hub.view sub = some v' ∧ v'.2 = false := by
  rw [HubState.step, h.panicked, if_neg (by simp), next] at hstep
  split at hstep
  next => cases hstep
  next =>
    obtain ⟨h', hrun, -, -, -, -, hself⟩ := Hub.unsubscribe_spec h.sound sub
    obtain ⟨v', hv', -, -, -, honce⟩ := hself v hv
    rw [hrun] at hstep
    cases hstep
    have hnot : v.1.once = false := by
      obtain ⟨hs, hb⟩ := Hub.view_eq_some.mp hv
      rw [hreg, Hub.registered_iff hs] at hb
      obtain ⟨w, hw, -, -, -, honce⟩ := h.sound _ _ _ hb
      rw [Option.some.inj (hs.symm.trans hw)]
      exact honce
    rw [hnot] at honce
    exact ⟨v', hv', honce⟩

/-! ### Receiving -/

/-- A receive moves a value from the buffer to the consumer, or finds the channel closed. -/
theorem Safe.receive {s s' : HubState δ σ} {sub : Nat} (h : s.Safe)
    (hstep : s.next (.receive sub) = some s') :
    s'.Safe ∧ KeepsAll s s' (.receive sub) ∧ s'.drawn = s.drawn ∧ (s.Distinct → s'.Distinct) := by
  rw [next] at hstep
  split at hstep
  next r h' hrun =>
    cases hstep
    obtain ⟨hsound, hseq, hlen, hothers, v₀, v₁, hv₀, hv₁, hdevice, hid, -, hreg, htaken⟩ :=
      Hub.receive_spec h.sound hrun
    obtain ⟨hhub, hpanicked, hlock, hdrawn, hpublished, hwaiting, htraces⟩ :
        (note { s with hub := h' } sub r).hub = h' ∧
        (note { s with hub := h' } sub r).panicked = s.panicked ∧
        (note { s with hub := h' } sub r).lock = s.lock ∧
        (note { s with hub := h' } sub r).drawn = s.drawn ∧
        (note { s with hub := h' } sub r).published = s.published ∧
        (note { s with hub := h' } sub r).waiting = s.waiting ∧
        (note { s with hub := h' } sub r).traces.length = s.traces.length := by
      cases r with
      | value e => exact ⟨rfl, rfl, rfl, rfl, rfl, rfl, List.length_modify ..⟩
      | closed => exact ⟨rfl, rfl, rfl, rfl, rfl, rfl, rfl⟩
    refine ⟨⟨hpanicked.trans h.panicked, by rw [hhub]; exact hsound, ?_, ?_⟩,
      ⟨fun _ => by rw [hhub, hlen], fun b v t hv ht => ?_⟩, hdrawn, fun hord => ?_⟩
    · rw [htraces, hhub, hlen, h.traces]
    · rw [hlock, hpublished]
      exact h.lock
    · rw [hhub]
      by_cases hb : b = sub
      · subst hb
        obtain rfl : v₀ = v := Option.some.inj (hv₀.symm.trans hv)
        rcases htaken with ⟨e, rfl, hbuffer⟩ | ⟨rfl, -, rfl⟩
        · -- What was received and is still buffered stays the same list.
          refine ⟨v₁, { t with received := t.received ++ [e] }, hv₁, ?_, ?_⟩
          · show (s.traces.modify b fun t => { t with received := t.received ++ [e] })[b]? = _
            rw [List.getElem?_modify_eq, ht]
            rfl
          · have hsent : (t.received ++ [e]) ++ v₁.1.ch.buffer = t.received ++ v₀.1.ch.buffer := by
              rw [hbuffer, List.append_assoc]
              rfl
            have hseen : seen (note { s with hub := h' } b (.value e)) v₁.1 = s.seen v₀.1 := by
              simp only [seen, hlock, hpublished, hdevice, hid]
            refine ⟨hdevice, hid, rfl, fun hne => absurd rfl hne, fun hr => hreg ▸ hr,
              fun htrue hfalse => ?_, .inl rfl, fun e' he' => (by rw [hsent]; exact he'),
              fun hown e' he' => ?_, fun _ hsegment => ?_⟩
            · rw [hreg, htrue] at hfalse
              cases hfalse
            · rw [hsent] at he'
              rw [hdevice, hpublished]
              exact hown e' he'
            · refine ⟨by rw [hreg]; exact hsegment.active, ?_, ?_, ?_⟩
              · rw [hseen]
                exact hsegment.joined
              · rw [hpublished]
                exact hsegment.left
              · rw [hsent, hdevice, hpublished, hseen]
                exact hsegment.sent
        · exact ⟨v₁, t, hv₁, ht, .of_same rfl rfl⟩
      · have ht' : (note { s with hub := h' } sub r).traces[b]? = some t := by
          cases r with
          | closed => exact ht
          | value e =>
            show (s.traces.modify sub fun t => { t with received := t.received ++ [e] })[b]? = _
            rw [List.getElem?_modify_ne _ _ (Ne.symm hb)]
            exact ht
        exact ⟨v, t, (hothers b hb).trans hv, ht', .of_same hlock hpublished⟩
    · refine ⟨by rw [hhub, hdrawn, hseq, hord.sequence], ?_,
        by rw [hpublished, hwaiting, hdrawn]; exact hord.ids,
        by rw [hpublished, hwaiting]; exact hord.nodup⟩
      intro b v' hv'
      rw [hhub] at hv'
      rw [hdrawn]
      by_cases hb : b = sub
      · subst hb
        obtain rfl : v₁ = v' := Option.some.inj (hv₁.symm.trans hv')
        rw [hid]
        exact hord.keys b v₀ hv₀
      · exact hord.keys b v' ((hothers b hb).symm.trans hv')
  next => cases hstep

/-! ## Runs -/

/-- The step lemma. -/
theorem Safe.step {s s' : HubState δ σ} {a : HubAction δ σ} (h : s.Safe)
    (hstep : s.step a = some s') :
    s'.Safe ∧ KeepsAll s s' a ∧ s.drawn ≤ s'.drawn ∧
      (s'.drawn < 2 ^ 64 → s.Distinct → s'.Distinct) := by
  rw [HubState.step, h.panicked, if_neg (by simp)] at hstep
  have hkeeps : (s'.Safe ∧ KeepsAll s s' a ∧ s'.drawn = s.drawn ∧ (s.Distinct → s'.Distinct)) →
      s'.Safe ∧ KeepsAll s s' a ∧ s.drawn ≤ s'.drawn ∧
        (s'.drawn < 2 ^ 64 → s.Distinct → s'.Distinct) :=
    fun ⟨hsafe, hall, hdrawn, hord⟩ => ⟨hsafe, hall, Nat.le_of_eq hdrawn.symm, fun _ => hord⟩
  cases a with
  | nextID =>
    cases hstep
    exact ⟨⟨h.panicked, h.sound, h.traces, h.lock⟩,
      ⟨fun _ => rfl, fun sub v t hv ht => ⟨v, t, hv, ht, .of_same rfl rfl⟩⟩, Nat.le_succ _,
      fun hdrawn hord => hord.nextID hdrawn⟩
  | draw device kind snapshot =>
    cases hstep
    exact ⟨⟨h.panicked, h.sound, h.traces, h.lock⟩,
      ⟨fun _ => rfl, fun sub v t hv ht => ⟨v, t, hv, ht, .of_same rfl rfl⟩⟩, Nat.le_succ _,
      fun hdrawn hord => hord.draw hdrawn device kind snapshot⟩
  | acquire i order => exact hkeeps (h.acquire hstep)
  | offer => exact hkeeps (h.offer hstep)
  | release => exact hkeeps (h.release hstep)
  | subscribe device =>
    obtain ⟨hsafe, hall, -, -, -, hdrawn, hord⟩ := h.subscribe hstep
    exact ⟨hsafe, hall, by rw [hdrawn]; exact Nat.le_succ _, hord⟩
  | unsubscribe sub => exact hkeeps (h.unsubscribe hstep)
  | receive sub => exact hkeeps (h.receive hstep)

theorem safe_new : (HubState.new : HubState δ σ).Safe where
  panicked := rfl
  sound := fun device id sub h => by cases h
  traces := rfl
  lock := fun dl h => by cases h

theorem distinct_new : (HubState.new : HubState δ σ).Distinct where
  sequence := rfl
  keys := fun sub v hv => by cases hv
  ids := fun x hx => by cases hx
  nodup := List.nodup_nil

/-- No key is taken over before the counter wraps. -/
theorem Distinct.not_takenOver {s : HubState δ σ} {a : HubAction δ σ} {sub : Nat}
    {v : Subscription δ σ × Bool} (h : s.Distinct) (hdrawn : s.drawn + 1 < 2 ^ 64)
    (hv : s.hub.view sub = some v) : ¬ s.TakenOver a v := by
  rintro ⟨-, -, hid⟩
  have hle := h.keys sub v hv
  rw [hid, h.toNat_nextID hdrawn] at hle
  omega

/-- What holds of every subscription at the end of a run. -/
structure Reached (s : HubState δ σ) : Prop where
  safe : s.Safe
  own : ∀ sub v t, s.hub.view sub = some v → s.traces[sub]? = some t → s.Own v t
  distinct : s.drawn < 2 ^ 64 → s.Distinct
  segment : s.drawn < 2 ^ 64 →
    ∀ sub v t, s.hub.view sub = some v → s.traces[sub]? = some t → s.Segment v t

/-- A subscription of the next state is an old one, or the one just made. -/
theorem exists_kept {s s' : HubState δ σ} {a : HubAction δ σ} (h : s.Safe)
    (hstep : s.step a = some s') {sub : Nat} {v' : Subscription δ σ × Bool} {t' : Trace σ}
    (hv' : s'.hub.view sub = some v') (ht' : s'.traces[sub]? = some t') :
    (∃ v t, s.hub.view sub = some v ∧ s.traces[sub]? = some t ∧ Kept s s' a sub v v' t t') ∨
      s'.Segment v' t' ∧ t'.received ++ v'.1.ch.buffer = [] := by
  obtain ⟨hsafe', hall, -, -⟩ := h.step hstep
  cases hold : s.hub.view sub with
  | some v =>
    have hlt : (s.hub.view sub).isSome := by rw [hold]; rfl
    rw [Hub.view_isSome, ← h.traces] at hlt
    have ht : s.traces[sub]? = some s.traces[sub] := List.getElem?_eq_getElem hlt
    obtain ⟨w, u, hw, hu, hkept⟩ := hall.kept sub v _ hold ht
    obtain rfl : w = v' := Option.some.inj (hw.symm.trans hv')
    obtain rfl : u = t' := Option.some.inj (hu.symm.trans ht')
    exact .inl ⟨v, _, rfl, ht, hkept⟩
  | none =>
    have hge : ¬ sub < s.hub.heap.length := by
      rw [← Hub.view_isSome, hold]
      simp
    have hlt : sub < s'.hub.heap.length := by
      rw [← Hub.view_isSome, hv']
      rfl
    by_cases hsub : ∃ device, a = .subscribe device
    · obtain ⟨device, rfl⟩ := hsub
      rw [HubState.step, h.panicked, if_neg (by simp)] at hstep
      obtain ⟨-, -, ⟨v, t, hv, ht, rfl, rfl, hsegment⟩, -, hlen, -, -⟩ := h.subscribe hstep
      obtain rfl : sub = s.hub.heap.length := by omega
      obtain rfl := Option.some.inj (hv.symm.trans hv')
      obtain rfl := Option.some.inj (ht.symm.trans ht')
      exact .inr ⟨hsegment, rfl⟩
    · have hlen := hall.heap fun device heq => hsub ⟨device, heq⟩
      omega

theorem Reached.step {s s' : HubState δ σ} {a : HubAction δ σ} (h : s.Reached)
    (hstep : s.step a = some s') : s'.Reached := by
  obtain ⟨hsafe', -, hdrawn, hdistinct⟩ := h.safe.step hstep
  refine ⟨hsafe', fun sub v' t' hv' ht' => ?_,
    fun hlt => hdistinct hlt (h.distinct (Nat.lt_of_le_of_lt hdrawn hlt)),
    fun hlt sub v' t' hv' ht' => ?_⟩
  · rcases exists_kept h.safe hstep hv' ht' with ⟨v, t, hv, ht, hkept⟩ | ⟨-, hempty⟩
    · exact hkept.own (h.own sub v t hv ht)
    · intro e he
      rw [hempty] at he
      cases he
  · rcases exists_kept h.safe hstep hv' ht' with ⟨v, t, hv, ht, hkept⟩ | ⟨hsegment, -⟩
    · have hlt₀ := Nat.lt_of_le_of_lt hdrawn hlt
      refine hkept.segment (fun htaken => ?_) (h.segment hlt₀ sub v t hv ht)
      have hsub := hstep
      rw [HubState.step, h.safe.panicked, if_neg (by simp), htaken.2.1] at hsub
      obtain ⟨-, -, -, -, -, hsucc, -⟩ := h.safe.subscribe hsub
      exact (h.distinct hlt₀).not_takenOver (hsucc ▸ hlt) hv htaken
    · exact hsegment

/-- The run lemma. -/
theorem reached_of_run {as : List (HubAction δ σ)} {s : HubState δ σ} (hrun : Run step .new as s) :
    s.Reached := by
  refine hrun.invariant (fun s a t hs hstep => hs.step hstep) ?_
  exact ⟨safe_new, fun sub v t hv => (by cases hv), fun _ => distinct_new,
    fun _ sub v t hv => (by cases hv)⟩

end HubState

/-! ## What a publish reaches -/

/-- The subscriptions of a device that the map holds. -/
def Hub.subscribers (h : Hub δ σ) (device : δ) : List Nat :=
  (List.range h.heap.length).filter fun sub =>
    h.registered sub && (h.heap[sub]?.any fun s => s.device = device)

namespace HubState

/-- What a step does to the lock, to the publishes that wait for it and to the log. -/
def Frame (s s' : HubState δ σ) : HubAction δ σ → Prop
  | .draw device kind snapshot =>
    s'.lock = s.lock ∧ s'.published = s.published ∧
      s'.waiting = s.waiting ++ [(device, ⟨s.hub.sequence + 1, kind, snapshot⟩)]
  | .acquire i order => ∃ device event, s.lock = none ∧ s.waiting[i]? = some (device, event) ∧
      order.Perm (s.hub.keysOf device) ∧ s' = { s with
        lock := some ⟨device, event, order⟩
        waiting := s.waiting.eraseIdx i
        published := s.published ++ [(device, event)] }
  | .offer => ∃ dl id remaining, s.lock = some dl ∧ dl.remaining = id :: remaining ∧
      s'.lock = some { dl with remaining } ∧ s'.waiting = s.waiting ∧ s'.published = s.published
  | .release => ∃ dl, s.lock = some dl ∧ dl.remaining = [] ∧ s' = { s with lock := none }
  | .subscribe _ | .unsubscribe _ =>
    s.lock = none ∧ s'.lock = none ∧ s'.waiting = s.waiting ∧ s'.published = s.published
  | .nextID | .receive _ =>
    s'.lock = s.lock ∧ s'.waiting = s.waiting ∧ s'.published = s.published

theorem Safe.frame {s s' : HubState δ σ} {a : HubAction δ σ} (h : s.Safe)
    (hstep : s.step a = some s') : Frame s s' a := by
  rw [HubState.step, h.panicked, if_neg (by simp)] at hstep
  cases a with
  | nextID =>
    cases hstep
    exact ⟨rfl, rfl, rfl⟩
  | draw device kind snapshot =>
    cases hstep
    exact ⟨rfl, rfl, rfl⟩
  | acquire i order =>
    rw [next] at hstep
    split at hstep
    next device event hlock hwaiting =>
      split at hstep
      next hperm =>
        cases hstep
        exact ⟨device, event, hlock, hwaiting, hperm, rfl⟩
      next => cases hstep
    next => cases hstep
  | offer =>
    rw [next] at hstep
    split at hstep
    next device event id remaining hlock =>
      obtain ⟨h', hrun, -⟩ := Hub.offer_spec h.sound device event id
      rw [hrun] at hstep
      cases hstep
      exact ⟨_, id, remaining, hlock, rfl, rfl, rfl, rfl⟩
    next => cases hstep
  | release =>
    rw [next] at hstep
    split at hstep
    next device event hlock =>
      cases hstep
      exact ⟨_, hlock, rfl, rfl⟩
    next => cases hstep
  | subscribe device =>
    rw [next] at hstep
    split at hstep
    next => cases hstep
    next hlock =>
      cases hstep
      exact ⟨lock_eq_none hlock, lock_eq_none hlock, rfl, rfl⟩
  | unsubscribe sub =>
    rw [next] at hstep
    split at hstep
    next => cases hstep
    next hlock =>
      obtain ⟨h', hrun, -⟩ := Hub.unsubscribe_spec h.sound sub
      rw [hrun] at hstep
      cases hstep
      exact ⟨lock_eq_none hlock, lock_eq_none hlock, rfl, rfl⟩
  | receive sub =>
    rw [next] at hstep
    split at hstep
    next r h' hrun =>
      cases hstep
      cases r with
      | value e => exact ⟨rfl, rfl, rfl⟩
      | closed => exact ⟨rfl, rfl, rfl⟩
    next => cases hstep

/-- Only the publish that takes the lock adds to the log. -/
theorem Frame.published_eq {s s' : HubState δ σ} {a : HubAction δ σ} (h : Frame s s' a)
    (hacquire : ∀ i order, a ≠ .acquire i order) : s'.published = s.published := by
  cases a with
  | acquire i order => exact absurd rfl (hacquire i order)
  | offer =>
    obtain ⟨_, _, _, -, -, -, -, hpublished⟩ := h
    exact hpublished
  | release =>
    obtain ⟨_, -, -, heq⟩ := h
    rw [heq]
  | draw => exact h.2.1
  | subscribe | unsubscribe => exact h.2.2.2
  | nextID | receive => exact h.2.2

/-- Only a draw adds an event to those that wait or are published. -/
theorem Safe.mem_events {s s' : HubState δ σ} {a : HubAction δ σ} (h : s.Safe)
    (hstep : s.step a = some s') (hdraw : ∀ device kind snapshot, a ≠ .draw device kind snapshot)
    {x : δ × LiveEvent σ} (hx : x ∈ s'.published ++ s'.waiting) :
    x ∈ s.published ++ s.waiting := by
  have hframe := h.frame hstep
  cases a with
  | draw device kind snapshot => exact absurd rfl (hdraw device kind snapshot)
  | acquire i order =>
    obtain ⟨device, event, -, hwaiting, -, rfl⟩ := hframe
    have hx : x ∈ s.published ++ [(device, event)] ++ s.waiting.eraseIdx i := hx
    rw [List.append_assoc, List.mem_append, List.mem_append, List.mem_singleton] at hx
    rw [List.mem_append]
    rcases hx with hpublished | rfl | hlater
    · exact .inl hpublished
    · exact .inr (List.mem_of_getElem? hwaiting)
    · exact .inr (List.mem_of_mem_eraseIdx hlater)
  | offer =>
    obtain ⟨_, _, _, _, _, _, hwaiting, hpublished⟩ := hframe
    rwa [hwaiting, hpublished] at hx
  | release =>
    obtain ⟨_, _, _, rfl⟩ := hframe
    exact hx
  | subscribe device | unsubscribe sub =>
    obtain ⟨_, _, hwaiting, hpublished⟩ := hframe
    rwa [hwaiting, hpublished] at hx
  | nextID | receive sub =>
    obtain ⟨_, hwaiting, hpublished⟩ := hframe
    rwa [hwaiting, hpublished] at hx

/-! ### What was given, and what is awaited

While a publisher holds the lock, a subscriber of its device has the event or awaits it. -/

/-- The consumer has the event or will receive it, or the subscription ended at this place of the
log. -/
def Given (s : HubState δ σ) (sub : Nat) (e : LiveEvent σ) (index : Nat) : Prop :=
  ∃ v t, s.hub.view sub = some v ∧ s.traces[sub]? = some t ∧
    (e ∈ t.received ++ v.1.ch.buffer ∨ t.left = some index)

/-- The publish that holds the lock has not reached the subscription. -/
def Awaits (s : HubState δ σ) (sub : Nat) (dl : Delivery δ σ) : Prop :=
  ∃ v, s.hub.view sub = some v ∧ v.2 = true ∧ v.1.device = dl.device ∧ v.1.id ∈ dl.remaining

/-- A subscription that has left is not in the map. -/
def LeftOut (s : HubState δ σ) : Prop :=
  ∀ sub v t, s.hub.view sub = some v → s.traces[sub]? = some t → t.left ≠ none → v.2 = false

theorem exists_trace {s : HubState δ σ} (h : s.Safe) {sub : Nat} {v : Subscription δ σ × Bool}
    (hv : s.hub.view sub = some v) : ∃ t, s.traces[sub]? = some t := by
  have hlt : (s.hub.view sub).isSome := by rw [hv]; rfl
  rw [Hub.view_isSome, ← h.traces] at hlt
  exact ⟨_, List.getElem?_eq_getElem hlt⟩

theorem LeftOut.step {s s' : HubState δ σ} {a : HubAction δ σ} (h : s.Safe) (hout : s.LeftOut)
    (hstep : s.step a = some s') : s'.LeftOut := by
  intro sub v' t' hv' ht' hleft
  rcases exists_kept h hstep hv' ht' with ⟨v, t, hv, ht, hkept⟩ | ⟨hsegment, -⟩
  · rcases hkept.left with hsame | hleaves
    · have hv2 := hout sub v t hv ht (hsame ▸ hleft)
      cases hreg : v'.2 with
      | false => rfl
      | true => exact absurd (hkept.stays hreg) (by simp [hv2])
    · exact hleaves.2
  · cases hreg : v'.2 with
    | false => rfl
    | true => exact absurd (hsegment.active.mp hreg) hleft

theorem Given.step {s s' : HubState δ σ} {a : HubAction δ σ} {sub index : Nat} {e : LiveEvent σ}
    (hgiven : s.Given sub e index) (h : s.Safe) (hout : s.LeftOut) (hstep : s.step a = some s') :
    s'.Given sub e index := by
  obtain ⟨v, t, hv, ht, hcase⟩ := hgiven
  obtain ⟨-, hall, -⟩ := h.step hstep
  obtain ⟨v', t', hv', ht', hkept⟩ := hall.kept sub v t hv ht
  refine ⟨v', t', hv', ht', ?_⟩
  rcases hcase with hmem | hleft
  · exact .inl (hkept.grows e hmem)
  · rcases hkept.left with hsame | ⟨hreg, -⟩
    · exact .inr (hsame.trans hleft)
    · have hv2 := hout sub v t hv ht (by rw [hleft]; simp)
      rw [hv2] at hreg
      cases hreg

/-- While the lock is held, only the publish that holds it takes subscriptions out of the map. -/
theorem Awaits.step {s s' : HubState δ σ} {a : HubAction δ σ} {sub : Nat} {dl : Delivery δ σ}
    (hawaits : s.Awaits sub dl) (h : s.Safe) (hlock : s.lock.isSome) (hoffer : a ≠ .offer)
    (hstep : s.step a = some s') : s'.Awaits sub dl := by
  obtain ⟨v, hv, hreg, hdevice, hid⟩ := hawaits
  obtain ⟨t, ht⟩ := exists_trace h hv
  obtain ⟨-, hall, -⟩ := h.step hstep
  obtain ⟨v', t', hv', ht', hkept⟩ := hall.kept sub v t hv ht
  refine ⟨v', hv', ?_, hkept.device.trans hdevice, hkept.id ▸ hid⟩
  cases hreg' : v'.2 with
  | true => rfl
  | false =>
    have hframe := h.frame hstep
    rcases hkept.leaves hreg hreg' with rfl | rfl | htaken
    · exact absurd rfl hoffer
    · rw [hframe.1] at hlock
      cases hlock
    · rw [htaken.2.1] at hframe
      rw [hframe.1] at hlock
      cases hlock

/-- The offer to a subscription sends it the event or evicts it. -/
theorem Awaits.offer {s s' : HubState δ σ} {sub : Nat} {dl : Delivery δ σ} {id : UInt64}
    {remaining : List UInt64} (hawaits : s.Awaits sub dl) (h : s.Safe) (hlock : s.lock = some dl)
    (hremaining : dl.remaining = id :: remaining) (hstep : s.step .offer = some s') :
    s'.Awaits sub { dl with remaining } ∨ s'.Given sub dl.event (s.published.length - 1) := by
  obtain ⟨v, hv, hreg, hdevice, hid⟩ := hawaits
  obtain ⟨t, ht⟩ := exists_trace h hv
  obtain ⟨device, event, ids⟩ := dl
  obtain rfl : ids = id :: remaining := hremaining
  rw [HubState.step, h.panicked, if_neg (by simp), next, hlock] at hstep
  obtain ⟨h', hrun, -, -, -, hviews⟩ := Hub.offer_spec h.sound device event id
  dsimp only at hstep
  rw [hrun] at hstep
  cases hstep
  obtain ⟨v', hv', hoffered⟩ := hviews sub v hv
  by_cases hkey : v.2 = true ∧ v.1.device = device ∧ v.1.id = id
  · rw [if_pos hkey] at hoffered
    refine .inr ⟨v', _, hv', traces_commit (s := { s with lock := _ }) hv hv' ht, ?_⟩
    rcases hoffered.sent with ⟨-, hbuffer⟩ | ⟨hgone, -, -⟩
    · rw [hbuffer]
      exact .inl (List.mem_append_right _ (List.mem_append_right _ List.mem_cons_self))
    · rw [if_pos ⟨hreg, hgone⟩]
      exact .inr rfl
  · rw [if_neg hkey] at hoffered
    obtain rfl := hoffered
    refine .inl ⟨v', hv', hreg, hdevice, ?_⟩
    rcases List.mem_cons.mp hid with hfirst | hlater
    · exact absurd ⟨hreg, hdevice, hfirst⟩ hkey
    · exact hlater

/-- The subscription has been reached by the publish that holds the lock, or still will be. -/
def Reaches (s : HubState δ σ) (sub : Nat) (dl : Delivery δ σ) : Prop :=
  s.Awaits sub dl ∨ s.Given sub dl.event (s.published.length - 1)

theorem reaches_acquire {s s' : HubState δ σ} {i sub : Nat} {order : List UInt64} (h : s.Safe)
    (hstep : s.step (.acquire i order) = some s') {device : δ} {event : LiveEvent σ}
    (hlock : s'.lock = some ⟨device, event, order⟩) (hsub : sub ∈ s.hub.subscribers device) :
    s'.Reaches sub ⟨device, event, order⟩ := by
  obtain ⟨device', event', -, -, hperm, rfl⟩ := h.frame hstep
  cases hlock
  obtain ⟨-, hsub⟩ := List.mem_filter.mp hsub
  rw [Bool.and_eq_true, Option.any_eq_true] at hsub
  obtain ⟨hreg, v, hv, hdevice⟩ := hsub
  have hdevice := of_decide_eq_true hdevice
  have hview : s.hub.view sub = some (v, true) := Hub.view_eq_some.mpr ⟨hv, hreg⟩
  refine .inl ⟨(v, true), hview, rfl, hdevice, ?_⟩
  exact hperm.mem_iff.mpr (hdevice ▸ Hub.mem_keysOf hview rfl)

end HubState

/-! ## Delivery -/

/-- What the consumer of a subscription has received: only events of its device, and in order,
without a gap, those published from when it joined until it left, except the ones still buffered
and the one a publish is just delivering. -/
structure Delivered (s : HubState δ σ) (sub : Nat) (t : Trace σ) (v : Subscription δ σ) : Prop where
  active : s.hub.registered sub = true ↔ t.left = none
  sent : t.received ++ v.ch.buffer =
    eventsOf v.device ((s.published.take (t.left.getD (s.seen v))).drop t.joined)
  distinct : (t.received.map (·.id)).Nodup
  increasing : ((eventsOf v.device s.published).map (·.id)).Pairwise (· < ·) →
    (t.received.map (·.id)).Pairwise (· < ·)

/-- In every run no channel panics and a consumer receives only events of its own device; and while
the counter of ids has not wrapped, the delivery is complete up to the end of the subscription. -/
theorem hub_delivery {as : List (HubAction δ σ)} {s : HubState δ σ}
    (hrun : Run HubState.step .new as s) :
    s.panicked = none ∧
      (∀ (sub : Nat) (v : Subscription δ σ) (t : Trace σ), s.hub.heap[sub]? = some v →
        s.traces[sub]? = some t → ∀ e ∈ t.received, (v.device, e) ∈ s.published) ∧
      (s.drawn < 2 ^ 64 → (s.published.map (·.2.id)).Nodup ∧
        ∀ sub v t, s.hub.heap[sub]? = some v → s.traces[sub]? = some t →
          Delivered s sub t v) := by
  have h := HubState.reached_of_run hrun
  refine ⟨h.safe.panicked, fun sub v t hv ht e he => ?_, fun hdrawn => ?_⟩
  · have hview : s.hub.view sub = some (v, s.hub.registered sub) :=
      Hub.view_eq_some.mpr ⟨hv, rfl⟩
    exact h.own sub _ t hview ht e (List.mem_append_left _ he)
  · have hnodup : (s.published.map (·.2.id)).Nodup := by
      have hall := (h.distinct hdrawn).nodup
      rw [List.map_append] at hall
      exact (List.nodup_append.mp hall).1
    refine ⟨hnodup, fun sub v t hv ht => ?_⟩
    have hview : s.hub.view sub = some (v, s.hub.registered sub) :=
      Hub.view_eq_some.mpr ⟨hv, rfl⟩
    have hsegment := h.segment hdrawn sub _ t hview ht
    -- The received events are a part of the device's log.
    have hpart : (t.received.map (·.id)).Sublist ((eventsOf v.device s.published).map (·.id)) := by
      refine List.Sublist.map _ ((List.sublist_append_left _ v.ch.buffer).trans ?_)
      rw [hsegment.sent, eventsOf, eventsOf]
      exact (((List.drop_sublist _ _).trans (List.take_sublist _ _)).filter _).map _
    have hall : ((eventsOf v.device s.published).map (·.id)).Sublist
        (s.published.map (·.2.id)) := by
      rw [eventsOf, List.map_map]
      exact List.filter_sublist.map _
    exact ⟨hsegment.active, hsegment.sent, (hpart.trans hall).nodup hnodup,
      fun hincreasing => hincreasing.sublist hpart⟩

/-- Two subscribers of a device and one of another: one publish, a closure called twice, another
publish, and what the consumers take. -/
theorem hub_delivery_two_subscribers :
    let as : List (HubAction Nat Nat) :=
      [.subscribe 7, .subscribe 7, .subscribe 8, .draw 7 "location" 40, .acquire 0 [1, 2], .offer,
        .offer, .release, .unsubscribe 1, .unsubscribe 1, .draw 7 "location" 41, .acquire 0 [1],
        .offer, .release, .receive 0, .receive 0, .receive 1, .receive 1]
    ∃ s, Run HubState.step .new as s ∧ s.panicked = none ∧
      (s.traces.map (·.received.map (·.snapshot))) = [[40, 41], [40], []] ∧
      ∀ sub v t, s.hub.heap[sub]? = some v → s.traces[sub]? = some t →
        Delivered s sub t v := by
  intro as
  obtain ⟨s, hrun, hfacts⟩ := Option.map_eq_some_iff.mp (show
    (as.foldlM HubState.step .new).map (fun s => decide (s.drawn < 2 ^ 64 ∧
      (s.traces.map (·.received.map (·.snapshot))) = [[40, 41], [40], []])) = some true by
    decide +kernel)
  obtain ⟨hdrawn, hreceived⟩ := of_decide_eq_true hfacts
  obtain ⟨hpanicked, -, hdelivered⟩ := hub_delivery (s := s) hrun
  exact ⟨s, hrun, hpanicked, hreceived, (hdelivered hdrawn).2⟩

/-- The counter alone moves. -/
theorem run_nextID : ∀ (n : Nat) (s : HubState δ σ), s.panicked = none →
    Run HubState.step s (List.replicate n .nextID)
      { s with
        hub := { s.hub with sequence := s.hub.sequence + UInt64.ofNat n }
        drawn := s.drawn + n } := by
  intro n
  induction n with
  | zero =>
    intro s _
    rw [List.replicate_zero, Run.nil_iff, show UInt64.ofNat 0 = 0 from rfl, UInt64.add_zero]
    rfl
  | succ n ih =>
    intro s hpanicked
    let u : HubState δ σ := { s with hub := s.hub.nextID.2, drawn := s.drawn + 1 }
    have hu : s.step .nextID = some u := by
      rw [HubState.step, hpanicked, if_neg (by simp)]
      rfl
    have hsequence : s.hub.sequence + UInt64.ofNat (n + 1) = u.hub.sequence + UInt64.ofNat n := by
      show _ = s.hub.sequence + 1 + _
      rw [UInt64.add_assoc, UInt64.add_comm 1, UInt64.ofNat_add]
      rfl
    rw [List.replicate_succ, Run.cons_iff, hsequence, Nat.add_comm n 1, ← Nat.add_assoc]
    exact ⟨u, hu, ih u hpanicked⟩

/-- Two publishes that take the lock in the other order reach the consumer with decreasing ids; and
when the counter has wrapped, a new subscription takes the key of an old one, which then misses an
event without having left. -/
theorem hub_delivery_out_of_order :
    (∃ (s : HubState Nat Nat) (t : Trace Nat), Run HubState.step .new
        [.subscribe 7, .draw 7 "location" 40, .draw 7 "location" 41, .acquire 1 [1], .offer,
          .release, .acquire 0 [1], .offer, .release, .receive 0, .receive 0] s ∧
      s.traces[0]? = some t ∧ ¬ (t.received.map (·.id)).Pairwise (· < ·)) ∧
    ∃ (as : List (HubAction Nat Nat)) (s : HubState Nat Nat) (v : Subscription Nat Nat)
      (t : Trace Nat), Run HubState.step .new as s ∧ s.lock = none ∧ s.hub.heap[0]? = some v ∧
      s.traces[0]? = some t ∧ t.left = none ∧ t.received ++ v.ch.buffer = [] ∧
      eventsOf v.device (s.published.drop t.joined) ≠ [] := by
  constructor
  · obtain ⟨s, hrun, hfacts⟩ := Option.map_eq_some_iff.mp (show
      (([.subscribe 7, .draw 7 "location" 40, .draw 7 "location" 41, .acquire 1 [1], .offer,
        .release, .acquire 0 [1], .offer, .release, .receive 0, .receive 0] :
          List (HubAction Nat Nat)).foldlM HubState.step .new).map
        (fun s => s.traces.map (·.received.map (·.id))) = some [[3, 2]] by decide +kernel)
    obtain ⟨t, ht, hreceived⟩ : ∃ t, s.traces[0]? = some t ∧ t.received.map (·.id) = [3, 2] := by
      have hget := congrArg (·[0]?) hfacts
      rw [List.getElem?_map] at hget
      exact Option.map_eq_some_iff.mp hget
    refine ⟨s, t, hrun, ht, ?_⟩
    rw [hreceived]
    decide
  · let s₁ : HubState Nat Nat :=
      { HubState.new with hub := Hub.new.subscribe 7, drawn := 1, traces := [⟨0, none, []⟩] }
    have hfirst : Run HubState.step (.new : HubState Nat Nat) [.subscribe 7] s₁ := rfl
    have hwrap := run_nextID (2 ^ 64 - 1) s₁ rfl
    obtain ⟨s, hrun, hfacts⟩ := Option.map_eq_some_iff.mp (show
      (([.subscribe 7, .draw 7 "location" 40, .acquire 0 [1], .offer, .release] :
          List (HubAction Nat Nat)).foldlM HubState.step
        { s₁ with
          hub := { s₁.hub with sequence := s₁.hub.sequence + UInt64.ofNat (2 ^ 64 - 1) }
          drawn := s₁.drawn + (2 ^ 64 - 1) }).map
        (fun s => decide (s.lock = none ∧ s.hub.heap[0]?.map (fun v => (v.device, v.ch.buffer)) =
          some (7, []) ∧ s.traces[0]? = some ⟨0, none, []⟩ ∧
          eventsOf 7 s.published ≠ [])) = some true by decide +kernel)
    obtain ⟨hlock, hheap, htrace, hevents⟩ := of_decide_eq_true hfacts
    obtain ⟨v, hv, hkey⟩ := Option.map_eq_some_iff.mp hheap
    obtain ⟨hdevice, hbuffer⟩ := Prod.mk.inj hkey
    refine ⟨_, s, v, _, Run.append_iff.mpr ⟨_, hfirst, Run.append_iff.mpr ⟨_, hwrap, hrun⟩⟩, hlock,
      hv, htrace, rfl, hbuffer, ?_⟩
    rw [hdevice]
    exact hevents

end OpenGps.Backend
