import Mathlib.Algebra.Order.BigOperators.Group.List
import Mathlib.Algebra.Order.Group.Nat
import OpenGps.Lib.Run
import OpenGps.Lib.Calls
import OpenGps.Backend.HubDelivery

/-!
# The slots of the guest streams (`handlers/guest_share.go`)

A process-wide channel bounds the guest streams. A call of `GuestShareHandler.Stream` takes a slot
and later a subscription, and hands both to the callback it gives to `SendStreamWriter`; two
deferred functions, `cleanup` and two once-guards share the duty to give them back. The calls are
modelled statement by statement, next to each other and to the other users of the hub.

`SendStreamWriter` either runs the callback to its end or returns an error.
-/

namespace OpenGps.Backend

open OpenGps.Lib

variable {δ σ : Type} [DecidableEq δ]

def maxGuestStreams : ℕ := 100

/-! ## The calls -/

inductive OnceState where
  | idle | running | done
  deriving DecidableEq

/-- The next statement of the handler. `cleanup` is its call after an error of `SendStreamWriter`,
with the two statements of its body; the deferred functions are `deferUnsubscribe` and
`deferReleaseSlot`. -/
inductive GuestHandlerPc (δ : Type) where
  | acquire
  | resolveCookie
  | checkSubscriber (device : δ)
  | revalidate (device : δ)
  | subscribe (device : δ)
  | getLive
  | transfer
  | sendStreamWriter
  | cleanup | cleanupUnsubscribe | cleanupReleaseSlot
  | deferUnsubscribe
  | deferReleaseSlot
  | returned
  deriving DecidableEq

/-- What a `select` of the callback finds ready. -/
inductive StreamReady where
  | done | event | ticker | timer
  deriving DecidableEq

/-- The next statement of the callback. -/
inductive GuestCallbackPc where
  | notStarted
  | snapshot
  | select
  | stillActive (ready : StreamReady)
  | write
  | getLive
  | presence
  | cleanup | cleanupUnsubscribe | cleanupReleaseSlot
  | ended
  deriving DecidableEq

/-- A call with its local variables. `acquired`, `released` and `unsubscribed` are history: how many
slots it took and gave back, and how often it ran the body of its closure. -/
structure GuestCall (δ : Type) where
  handler : GuestHandlerPc δ
  callback : GuestCallbackPc
  sub : Option Nat
  slotTransferred : Bool
  subscriptionTransferred : Bool
  releaseSlotOnce : Bool
  cleanupOnce : OnceState
  acquired : ℕ
  released : ℕ
  unsubscribed : ℕ
  deriving DecidableEq

def GuestCall.new : GuestCall δ :=
  ⟨.acquire, .notStarted, none, false, false, false, .idle, 0, 0, 0⟩

/-- `subscriber` says whether the handler has one. -/
structure GuestStreams (δ σ : Type) where
  guestStreams : Channel Unit maxGuestStreams
  subscriber : Bool
  hub : HubState δ σ
  calls : List (GuestCall δ)

/-- `answer` is how the statement of a handler comes out, with the device of a link that was found;
`ok` how that of a callback does. `hub` is a step of another user of the hub. -/
inductive GuestStreamsAction (δ σ : Type) where
  | request
  | handler (k : Nat) (answer : Option δ)
  | callback (k : Nat) (ready : StreamReady) (ok : Bool)
  | hub (a : HubAction δ σ)

/-- Whether the closure of a subscription has run. -/
def Hub.onceOf (h : Hub δ σ) (sub : Nat) : Option Bool := h.heap[sub]?.map (·.once)

namespace GuestStreams

def new (subscriber : Bool) : GuestStreams δ σ := ⟨.empty, subscriber, .new, []⟩

/-- `releaseSlot`; a receive from the empty channel would wait. -/
def releaseSlot (s : GuestStreams δ σ) (c : GuestCall δ) :
    Option (GuestStreams δ σ × GuestCall δ) :=
  if c.releaseSlotOnce then some (s, c)
  else do
    let (_, guestStreams) ← s.guestStreams.receive
    return ({ s with guestStreams }, { c with releaseSlotOnce := true, released := c.released + 1 })

/-- The closure of the call's subscription. -/
def unsubscribe (s : GuestStreams δ σ) (c : GuestCall δ) :
    Option (GuestStreams δ σ × GuestCall δ) := do
  let sub ← c.sub
  let hub ← s.hub.step (.unsubscribe sub)
  let ran := if s.hub.hub.onceOf sub = some true then 0 else 1
  return ({ s with hub }, { c with unsubscribed := c.unsubscribed + ran })

def handlerStep (s : GuestStreams δ σ) (c : GuestCall δ) (answer : Option δ) :
    Option (GuestStreams δ σ × GuestCall δ) :=
  match c.handler with
  | .acquire =>
    match s.guestStreams.trySend () with
    | .ok (some guestStreams) =>
      some ({ s with guestStreams },
        { c with handler := .resolveCookie, acquired := c.acquired + 1 })
    | .ok none => some (s, { c with handler := .returned })
    | .error _ => none
  | .resolveCookie =>
    match answer with
    | some device => some (s, { c with handler := .checkSubscriber device })
    | none => some (s, { c with handler := .deferReleaseSlot })
  | .checkSubscriber device =>
    some (s, { c with handler := if s.subscriber then .revalidate device else .deferReleaseSlot })
  | .revalidate device =>
    some (s, { c with
      handler := if answer.isSome then .subscribe device else .deferReleaseSlot })
  | .subscribe device => do
    let hub ← s.hub.step (.subscribe device)
    return ({ s with hub }, { c with handler := .getLive, sub := some s.hub.hub.heap.length })
  | .getLive =>
    some (s, { c with handler := if answer.isSome then .transfer else .deferUnsubscribe })
  | .transfer =>
    some (s, { c with
      handler := .sendStreamWriter, slotTransferred := true, subscriptionTransferred := true })
  | .sendStreamWriter =>
    if answer.isSome then
      some (s, { c with handler := .deferUnsubscribe, callback := .snapshot })
    else some (s, { c with handler := .cleanup })
  | .cleanup =>
    match c.cleanupOnce with
    | .idle => some (s, { c with handler := .cleanupUnsubscribe, cleanupOnce := .running })
    | .running => none
    | .done => some (s, { c with handler := .deferUnsubscribe })
  | .cleanupUnsubscribe => do
    let (s, c) ← s.unsubscribe c
    return (s, { c with handler := .cleanupReleaseSlot })
  | .cleanupReleaseSlot => do
    let (s, c) ← s.releaseSlot c
    return (s, { c with handler := .deferUnsubscribe, cleanupOnce := .done })
  | .deferUnsubscribe =>
    if c.subscriptionTransferred then some (s, { c with handler := .deferReleaseSlot })
    else do
      let (s, c) ← s.unsubscribe c
      return (s, { c with handler := .deferReleaseSlot })
  | .deferReleaseSlot =>
    if c.slotTransferred then some (s, { c with handler := .returned })
    else do
      let (s, c) ← s.releaseSlot c
      return (s, { c with handler := .returned })
  | .returned => none

/-- `case event, ok := <-events`. -/
def receive (s : GuestStreams δ σ) (c : GuestCall δ) : Option (GuestStreams δ σ × GuestCall δ) := do
  let sub ← c.sub
  let (r, _) ← s.hub.hub.receive sub
  let hub ← s.hub.step (.receive sub)
  match r with
  | .closed => return ({ s with hub }, { c with callback := .cleanup })
  | .value _ => return ({ s with hub }, { c with callback := .stillActive .event })

def callbackStep (s : GuestStreams δ σ) (c : GuestCall δ) (ready : StreamReady) (ok : Bool) :
    Option (GuestStreams δ σ × GuestCall δ) :=
  match c.callback with
  | .notStarted => none
  | .snapshot | .presence => do
    let hub ← s.hub.step .nextID
    return ({ s with hub }, { c with callback := if ok then .select else .cleanup })
  | .select =>
    match ready with
    | .done => some (s, { c with callback := .cleanup })
    | .event => s.receive c
    | .ticker | .timer => some (s, { c with callback := .stillActive ready })
  | .stillActive ready =>
    if ok then some (s, { c with callback := if ready = .timer then .getLive else .write })
    else some (s, { c with callback := .cleanup })
  | .write => some (s, { c with callback := if ok then .select else .cleanup })
  | .getLive => some (s, { c with callback := if ok then .presence else .cleanup })
  | .cleanup =>
    match c.cleanupOnce with
    | .idle => some (s, { c with callback := .cleanupUnsubscribe, cleanupOnce := .running })
    | .running => none
    | .done => some (s, { c with callback := .ended })
  | .cleanupUnsubscribe => do
    let (s, c) ← s.unsubscribe c
    return (s, { c with callback := .cleanupReleaseSlot })
  | .cleanupReleaseSlot => do
    let (s, c) ← s.releaseSlot c
    return (s, { c with callback := .ended, cleanupOnce := .done })
  | .ended => none

/-- The closures and the channels of the calls are their own. -/
def foreign (s : GuestStreams δ σ) : HubAction δ σ → Bool
  | .unsubscribe sub | .receive sub => s.calls.all fun c => c.sub ≠ some sub
  | _ => true

def setCall (s : GuestStreams δ σ) (k : Nat) (c : GuestCall δ) : GuestStreams δ σ :=
  { s with calls := s.calls.set k c }

def step (s : GuestStreams δ σ) : GuestStreamsAction δ σ → Option (GuestStreams δ σ)
  | .request => some { s with calls := s.calls ++ [.new] }
  | .handler k answer => do
    let c ← s.calls[k]?
    let (s, c) ← s.handlerStep c answer
    return s.setCall k c
  | .callback k ready ok => do
    let c ← s.calls[k]?
    let (s, c) ← s.callbackStep c ready ok
    return s.setCall k c
  | .hub a =>
    if s.foreign a then do
      let hub ← s.hub.step a
      return { s with hub }
    else none

end GuestStreams

/-! ## What the hub does to the closures -/

namespace Hub

section
variable {h h' : Hub δ σ} {sub b : Nat} {s s' : Subscription δ σ}

omit [DecidableEq δ] in
theorem onceOf_set (hs : h.heap[sub]? = some s) (honce : s'.once = s.once) :
    (h.setSub sub s').onceOf b = h.onceOf b := by
  unfold onceOf
  by_cases hb : b = sub
  · subst hb
    rw [heap_setSub_self hs, hs]
    exact congrArg some honce
  · rw [heap_setSub_ne hb]

theorem onceOf_removeLocked {device : δ} {id : UInt64}
    (hrun : h.removeLocked device id sub = .ok h') : h'.onceOf b = h.onceOf b := by
  unfold removeLocked at hrun
  split at hrun
  · next s hs =>
    split at hrun
    · cases hclose : s.ch.close with
      | error p =>
        rw [hclose] at hrun
        cases hrun
      | ok ch =>
        rw [hclose] at hrun
        cases hrun
        exact @onceOf_set _ _ _ _ _ _ { s with ch } hs rfl
    · cases hrun
      rfl
  · cases hrun
    rfl

theorem onceOf_offer {device : δ} {event : LiveEvent σ} {id : UInt64}
    (hrun : h.offer device event id = .ok h') : h'.onceOf b = h.onceOf b := by
  unfold offer at hrun
  split at hrun
  · cases hrun
    rfl
  · next sub _ =>
    split at hrun
    · cases hrun
      rfl
    · next s hs =>
      cases hsend : s.ch.trySend event with
      | error p =>
        rw [hsend] at hrun
        cases hrun
      | ok sent =>
        rw [hsend] at hrun
        cases sent with
        | none => exact onceOf_removeLocked hrun
        | some ch =>
          cases hrun
          exact @onceOf_set _ _ _ _ _ _ { s with ch } hs rfl

omit [DecidableEq δ] in
theorem onceOf_receive {r : Received (LiveEvent σ)} (hrun : h.receive sub = some (r, h')) :
    h'.onceOf b = h.onceOf b := by
  simp only [receive, Option.bind_eq_bind, Option.bind_eq_some_iff, Option.pure_def,
    Option.some.injEq, Prod.mk.injEq] at hrun
  obtain ⟨s, hs, ⟨r', ch⟩, -, rfl, rfl⟩ := hrun
  exact @onceOf_set _ _ _ _ _ _ { s with ch } hs rfl

/-- The closure has run, and those of the others are as they were. -/
theorem onceOf_unsubscribe (hrun : h.unsubscribe sub = .ok h') :
    h'.onceOf b = if b = sub then (h.onceOf b).map fun _ => true else h.onceOf b := by
  unfold unsubscribe at hrun
  split at hrun
  · next hs =>
    cases hrun
    split
    · next hb =>
      subst hb
      rw [onceOf, hs]
      rfl
    · rfl
  · next s hs =>
    split at hrun
    · next honce =>
      cases hrun
      split
      · next hb =>
        subst hb
        rw [onceOf, hs]
        exact congrArg some honce
      · rfl
    · cases hremove : h.removeLocked s.device s.id sub with
      | error p =>
        rw [hremove] at hrun
        cases hrun
      | ok h₁ =>
        rw [hremove] at hrun
        cases hrun
        have hkept : h₁.onceOf b = h.onceOf b := onceOf_removeLocked hremove
        show (List.modify h₁.heap sub fun s => { s with once := true })[b]?.map (·.once) = _
        rw [List.getElem?_modify, ← hkept, onceOf]
        split
        · next hb =>
          rw [if_pos hb.symm]
          cases h₁.heap[b]? <;> rfl
        · next hb => rw [if_neg (Ne.symm hb)]; cases h₁.heap[b]? <;> rfl

omit [DecidableEq δ] in
theorem onceOf_isSome : (h.onceOf b).isSome ↔ b < h.heap.length := by
  simp [onceOf]

/-- A subscription whose closure has run is not in the map. -/
theorem Sound.registered_of_once (h₀ : h.Sound) (honce : h.onceOf b = some true) :
    h.registered b = false := by
  rw [Bool.eq_false_iff]
  intro hreg
  obtain ⟨s, hs, hs'⟩ := Option.map_eq_some_iff.mp honce
  obtain ⟨t, ht, -, -, -, htonce⟩ := h₀ _ _ _ ((registered_iff hs).mp hreg)
  obtain rfl := Option.some.inj (hs.symm.trans ht)
  rw [hs'] at htonce
  cases htonce

end

end Hub

namespace HubState

section
variable {s s' : HubState δ σ} {a : HubAction δ σ} {sub b : Nat} {left : Nat}

/-- A critical section that did not panic. -/
theorem eq_ok_of_commit {r : Except ChannelPanic (Hub δ σ)}
    (h : (s.commit left r).panicked = none) : r = .ok (s.commit left r).hub := by
  cases r with
  | error p => cases h
  | ok h => rfl

theorem Safe.next_of_step (h : s.Safe) (hstep : s.step a = some s') : s.next a = some s' := by
  rwa [HubState.step, h.panicked, if_neg (by simp)] at hstep

/-- Only its own call runs a closure. -/
theorem Safe.onceOf_step (h : s.Safe) (hstep : s.step a = some s') (ha : a ≠ .unsubscribe b)
    (hb : b < s.hub.heap.length) : s'.hub.onceOf b = s.hub.onceOf b := by
  have hsafe := (h.step hstep).1.panicked
  have hnext := h.next_of_step hstep
  cases a with
  | nextID =>
    cases hnext
    rfl
  | draw device kind snapshot =>
    cases hnext
    rfl
  | acquire i order =>
    simp only [next] at hnext
    split at hnext
    · split at hnext
      · cases hnext
        rfl
      · cases hnext
    · cases hnext
  | offer =>
    simp only [next] at hnext
    split at hnext
    · cases hnext
      exact Hub.onceOf_offer (eq_ok_of_commit hsafe)
    · cases hnext
  | release =>
    simp only [next] at hnext
    split at hnext
    · cases hnext
      rfl
    · cases hnext
  | subscribe device =>
    simp only [next] at hnext
    split at hnext
    · cases hnext
    · cases hnext
      exact congrArg _ (List.getElem?_append_left hb)
  | unsubscribe sub =>
    simp only [next] at hnext
    split at hnext
    · cases hnext
    · cases hnext
      have hne : b ≠ sub := fun heq => ha (by rw [heq])
      rw [Hub.onceOf_unsubscribe (eq_ok_of_commit hsafe), if_neg hne]
  | receive sub =>
    simp only [next] at hnext
    split at hnext
    · next r hub hreceive =>
      cases hnext
      rw [← Hub.onceOf_receive hreceive]
      cases r <;> rfl
    · cases hnext

theorem Safe.onceOf_unsubscribe (h : s.Safe) (hstep : s.step (.unsubscribe b) = some s') :
    s'.hub.onceOf b = (s.hub.onceOf b).map fun _ => true := by
  have hsafe := (h.step hstep).1.panicked
  have hnext := h.next_of_step hstep
  simp only [next] at hnext
  split at hnext
  · cases hnext
  · cases hnext
    rw [Hub.onceOf_unsubscribe (eq_ok_of_commit hsafe), if_pos rfl]

/-- A new subscription, whose closure has not run. -/
theorem Safe.onceOf_subscribe {device : δ} (h : s.Safe)
    (hstep : s.step (.subscribe device) = some s') :
    s'.hub.onceOf s.hub.heap.length = some false := by
  have hnext := h.next_of_step hstep
  simp only [next] at hnext
  split at hnext
  · cases hnext
  · cases hnext
    show (s.hub.heap ++ _)[s.hub.heap.length]?.map _ = _
    rw [List.getElem?_append_right (le_refl _), Nat.sub_self]
    rfl

/-- Subscriptions stay in the heap. -/
theorem Safe.length_le_step (h : s.Safe) (hstep : s.step a = some s') :
    s.hub.heap.length ≤ s'.hub.heap.length := by
  by_contra hlt
  have hlost : s'.hub.heap.length < s.hub.heap.length := Nat.not_le.mp hlt
  have hnone : ¬ (s'.hub.onceOf s'.hub.heap.length).isSome := fun hsome =>
    absurd (Hub.onceOf_isSome.mp hsome) (Nat.lt_irrefl _)
  rw [← Hub.onceOf_isSome] at hlost
  by_cases ha : a = .unsubscribe s'.hub.heap.length
  · subst ha
    rw [h.onceOf_unsubscribe hstep, Option.isSome_map] at hnone
    exact hnone hlost
  · rw [h.onceOf_step hstep ha (Hub.onceOf_isSome.mp hlost)] at hnone
    exact hnone hlost

end

end HubState

/-! ## Who holds what -/

namespace GuestHandlerPc

/-- The handler is past the acquisition, has not given the slot back and no stream has it. -/
@[simp] def holds (slotTransferred : Bool) : GuestHandlerPc δ → Bool
  | .acquire | .returned => false
  | .deferUnsubscribe | .deferReleaseSlot => !slotTransferred
  | _ => true

/-- The handler has to run the closure. -/
@[simp] def subscribed (subscriptionTransferred : Bool) : GuestHandlerPc δ → Bool
  | .getLive | .transfer | .sendStreamWriter | .cleanup | .cleanupUnsubscribe => true
  | .deferUnsubscribe => !subscriptionTransferred
  | _ => false

@[simp] def unsubscribed : GuestHandlerPc δ → Bool
  | .acquire | .resolveCookie | .checkSubscriber _ | .revalidate _ | .subscribe _ => true
  | _ => false

/-- Before the slot and the subscription are handed to the callback. -/
@[simp] def preparing : GuestHandlerPc δ → Bool
  | .getLive | .transfer => true
  | pc => pc.unsubscribed

/-- Handed over, and no stream has taken them. -/
@[simp] def handingOver : GuestHandlerPc δ → Bool
  | .sendStreamWriter | .cleanup | .cleanupUnsubscribe | .cleanupReleaseSlot => true
  | _ => false

/-- At the deferred functions, or past them. -/
@[simp] def leaving : GuestHandlerPc δ → Bool
  | .deferUnsubscribe | .deferReleaseSlot | .returned => true
  | _ => false

/-- Before the body of `cleanup`. -/
@[simp] def beforeCleanup : GuestHandlerPc δ → Bool
  | .sendStreamWriter | .cleanup => true
  | pc => pc.preparing

/-- A statement that comes later, and needs nothing that was not needed before. -/
structure Onward (pc pc' : GuestHandlerPc δ) : Prop where
  acquire : pc' ≠ .acquire
  unsubscribed : pc'.unsubscribed → pc.unsubscribed
  preparing : pc'.preparing → pc.preparing
  handingOver : pc'.handingOver → pc.handingOver
  beforeCleanup : pc'.beforeCleanup → pc.beforeCleanup

end GuestHandlerPc

namespace GuestCallbackPc

/-- The stream runs. -/
@[simp] def running : GuestCallbackPc → Bool
  | .notStarted | .ended => false
  | _ => true

/-- The stream has to run the closure. -/
@[simp] def subscribed : GuestCallbackPc → Bool
  | .notStarted | .cleanupReleaseSlot | .ended => false
  | _ => true

/-- Before the body of `cleanup`. -/
@[simp] def beforeCleanup : GuestCallbackPc → Bool
  | .notStarted | .cleanupUnsubscribe | .cleanupReleaseSlot | .ended => false
  | _ => true

theorem running_of_beforeCleanup {pc : GuestCallbackPc} (h : pc.beforeCleanup) :
    pc.running = true ∧ pc.subscribed = true := by
  cases pc with
  | notStarted | cleanupUnsubscribe | cleanupReleaseSlot | ended => cases h
  | _ => exact ⟨rfl, rfl⟩

end GuestCallbackPc

namespace GuestCall

/-! ### The account of one call

A slot and a subscription are held by the handler, or by the stream, or were given back. -/

def handlerHolds (c : GuestCall δ) : Bool := c.handler.holds c.slotTransferred

def streaming (c : GuestCall δ) : Bool := c.callback.running

/-- Nothing of the call is left to run. -/
def finished (c : GuestCall δ) : Bool := c.handler matches .returned && !c.streaming

/-- The slots a call holds. -/
def held (c : GuestCall δ) : ℕ := c.handlerHolds.toNat + c.streaming.toNat

/-- The subscriptions a call holds. -/
def subscribed (c : GuestCall δ) : ℕ :=
  (c.handler.subscribed c.subscriptionTransferred).toNat + c.callback.subscribed.toNat

/-- What was taken was given back, or the handler or the stream has to give it back. -/
structure Ledger (c : GuestCall δ) : Prop where
  slot : c.acquired = c.released + c.held
  acquired : c.acquired ≤ 1
  released : c.released = c.releaseSlotOnce.toNat
  subscription : c.sub.isSome.toNat = c.unsubscribed + c.subscribed

/-- What the local variables say at a statement. -/
structure Staged (c : GuestCall δ) : Prop where
  fresh : c.handler = .acquire → c.released = 0
  unsubscribed : c.handler.unsubscribed → c.sub = none
  preparing : c.handler.preparing →
    c.slotTransferred = false ∧ c.subscriptionTransferred = false
  handingOver : c.handler.handingOver →
    c.slotTransferred = true ∧ c.subscriptionTransferred = true
  callback : c.handler.preparing ∨ c.handler.handingOver → c.callback = .notStarted
  handlerCleanup : c.handler.beforeCleanup → c.cleanupOnce = .idle
  callbackCleanup : c.callback.beforeCleanup → c.cleanupOnce = .idle

structure Balanced (c : GuestCall δ) : Prop extends c.Ledger, c.Staged

omit [DecidableEq δ] in
theorem balanced_new : (GuestCall.new : GuestCall δ).Balanced where
  slot := rfl
  acquired := Nat.zero_le 1
  released := rfl
  subscription := rfl
  fresh _ := rfl
  unsubscribed _ := rfl
  preparing _ := ⟨rfl, rfl⟩
  handingOver h := by cases h
  callback _ := rfl
  handlerCleanup _ := rfl
  callbackCleanup _ := rfl

section
variable {c : GuestCall δ}

omit [DecidableEq δ] in
theorem Staged.goto (h : c.Staged) {pc : GuestHandlerPc δ} (honward : c.handler.Onward pc) :
    Staged { c with handler := pc } where
  fresh heq := absurd heq honward.acquire
  unsubscribed hpc := h.unsubscribed (honward.unsubscribed hpc)
  preparing hpc := h.preparing (honward.preparing hpc)
  handingOver hpc := h.handingOver (honward.handingOver hpc)
  callback hpc := h.callback (hpc.imp honward.preparing honward.handingOver)
  handlerCleanup hpc := h.handlerCleanup (honward.beforeCleanup hpc)
  callbackCleanup := h.callbackCleanup

omit [DecidableEq δ] in
/-- The deferred functions go by the flags. -/
theorem Staged.of_leaving (hpc : c.handler.leaving)
    (hcallback : c.callback.beforeCleanup → c.cleanupOnce = .idle) : c.Staged := by
  cases h : c.handler with
  | deferUnsubscribe | deferReleaseSlot | returned =>
    constructor <;> first | exact hcallback | simp [h]
  | _ =>
    rw [h] at hpc
    cases hpc

omit [DecidableEq δ] in
/-- Between the handover and the deferred functions both flags are set and no stream has started. -/
theorem Staged.of_handingOver (hpc : c.handler.handingOver)
    (hflags : c.slotTransferred = true ∧ c.subscriptionTransferred = true)
    (hcallback : c.callback = .notStarted)
    (hcleanup : c.handler.beforeCleanup → c.cleanupOnce = .idle) : c.Staged := by
  cases h : c.handler with
  | sendStreamWriter | cleanup | cleanupUnsubscribe | cleanupReleaseSlot =>
    exact
      { fresh := by simp [h]
        unsubscribed := by simp [h]
        preparing := by simp [h]
        handingOver := fun _ => hflags
        callback := fun _ => hcallback
        handlerCleanup := hcleanup
        callbackCleanup := by simp [hcallback] }
  | _ =>
    rw [h] at hpc
    cases hpc

omit [DecidableEq δ] in
/-- A stream has started: the handler is at its deferred functions or past them. -/
theorem Staged.of_started (h : c.Staged) (hstarted : c.callback.running) :
    c.handler.leaving := by
  have hstarted : c.callback ≠ .notStarted := by
    intro heq
    rw [heq] at hstarted
    cases hstarted
  cases hpc : c.handler with
  | deferUnsubscribe | deferReleaseSlot | returned => rfl
  | sendStreamWriter | cleanup | cleanupUnsubscribe | cleanupReleaseSlot =>
    exact absurd (h.callback (.inr (by rw [hpc]; rfl))) hstarted
  | _ => exact absurd (h.callback (.inl (by rw [hpc]; rfl))) hstarted

omit [DecidableEq δ] in
/-- What the next statement of the handler has to give back is what this one has to. -/
theorem Balanced.goto (h : c.Balanced) {pc : GuestHandlerPc δ} (honward : c.handler.Onward pc)
    (hholds : pc.holds c.slotTransferred = c.handler.holds c.slotTransferred)
    (hsubscribed : pc.subscribed c.subscriptionTransferred =
      c.handler.subscribed c.subscriptionTransferred) : Balanced { c with handler := pc } where
  slot := by
    rw [held, handlerHolds, hholds]
    exact h.slot
  acquired := h.acquired
  released := h.released
  subscription := by
    rw [subscribed, hsubscribed]
    exact h.subscription
  toStaged := h.toStaged.goto honward

omit [DecidableEq δ] in
theorem held_gotoCallback (hc : c.callback.beforeCleanup) {pc : GuestCallbackPc}
    (hpc : pc.beforeCleanup) : ({ c with callback := pc } : GuestCall δ).held = c.held := by
  rw [held, held, streaming, streaming, (GuestCallbackPc.running_of_beforeCleanup hpc).1,
    (GuestCallbackPc.running_of_beforeCleanup hc).1]
  rfl

omit [DecidableEq δ] in
/-- The same for the stream, before its `cleanup`. -/
theorem Balanced.gotoCallback (h : c.Balanced) (hc : c.callback.beforeCleanup)
    {pc : GuestCallbackPc} (hpc : pc.beforeCleanup) : Balanced { c with callback := pc } where
  slot := by
    rw [held_gotoCallback hc hpc]
    exact h.slot
  acquired := h.acquired
  released := h.released
  subscription := by
    rw [subscribed, (GuestCallbackPc.running_of_beforeCleanup hpc).2,
      ← (GuestCallbackPc.running_of_beforeCleanup hc).2]
    exact h.subscription
  toStaged := .of_leaving
    (h.of_started (GuestCallbackPc.running_of_beforeCleanup hc).1) fun _ => h.callbackCleanup hc

omit [DecidableEq δ] in
theorem holds_nothing (h : c.finished) : c.held = 0 ∧ c.subscribed = 0 := by
  obtain ⟨hhandler, hstreaming⟩ : c.handler = .returned ∧ c.streaming = false := by
    cases hpc : c.handler with
    | returned =>
      rw [finished, hpc] at h
      exact ⟨rfl, by simpa using h⟩
    | _ =>
      rw [finished, hpc] at h
      cases h
  have hsubscribed : c.callback.subscribed = false := by
    cases hpc : c.callback with
    | notStarted | ended => rfl
    | _ =>
      rw [streaming, hpc] at hstreaming
      cases hstreaming
  rw [held, subscribed, handlerHolds, hhandler, hstreaming, hsubscribed]
  exact ⟨rfl, rfl⟩

end

end GuestCall

namespace GuestStreams

variable {s s' : GuestStreams δ σ} {c c' : GuestCall δ}

/-! ### What a statement moves

Between the common state and the account of one call, nothing is created and nothing is lost. -/

/-- A step of a call: the slots go with what it holds, and only its own closure can run. -/
structure Moves (s s' : GuestStreams δ σ) (c c' : GuestCall δ) : Prop where
  opened : s'.guestStreams.closed = false
  slots : s'.guestStreams.buffer.length + c.held = s.guestStreams.buffer.length + c'.held
  calls : s'.calls = s.calls
  safe : s'.hub.Safe
  heap : s.hub.hub.heap.length ≤ s'.hub.hub.heap.length
  sub : c'.sub = c.sub ∨ c.sub = none ∧ c'.sub = some s.hub.hub.heap.length
  others : ∀ b < s.hub.hub.heap.length, c.sub ≠ some b →
    s'.hub.hub.onceOf b = s.hub.hub.onceOf b
  own : ∀ b, c'.sub = some b → s'.hub.hub.onceOf b = some (decide (c'.unsubscribed = 1))
  balanced : c'.Balanced

/-- The state in which a call takes a step. -/
structure Ready (s : GuestStreams δ σ) (c : GuestCall δ) : Prop where
  opened : s.guestStreams.closed = false
  safe : s.hub.Safe
  own : ∀ b, c.sub = some b → s.hub.hub.onceOf b = some (decide (c.unsubscribed = 1))
  balanced : c.Balanced

omit [DecidableEq δ] in
theorem releaseSlot_spec (hopen : s.guestStreams.closed = false) (honce : c.releaseSlotOnce = false)
    (h : s.releaseSlot c = some (s', c')) :
    ∃ guestStreams, s' = { s with guestStreams } ∧ guestStreams.closed = false ∧
      s.guestStreams.buffer.length = guestStreams.buffer.length + 1 ∧
      c' = { c with releaseSlotOnce := true, released := c.released + 1 } := by
  rw [releaseSlot, honce, if_neg (by simp)] at h
  simp only [Option.bind_eq_bind, Option.bind_eq_some_iff, Option.pure_def, Option.some.injEq,
    Prod.mk.injEq] at h
  obtain ⟨⟨r, ch⟩, hreceive, rfl, rfl⟩ := h
  rcases Channel.receive_cases hreceive with ⟨e, -, hbuffer, hclosed⟩ | ⟨-, hclosed, -, -⟩
  · refine ⟨ch, rfl, hclosed.trans hopen, ?_, rfl⟩
    rw [hbuffer, List.length_cons]
  · rw [hopen] at hclosed
    cases hclosed

theorem unsubscribe_spec (hsafe : s.hub.Safe) {sub : Nat} (hsub : c.sub = some sub)
    (honce : s.hub.hub.onceOf sub = some false) (h : s.unsubscribe c = some (s', c')) :
    ∃ hub, s' = { s with hub } ∧ hub.Safe ∧ s.hub.hub.heap.length ≤ hub.hub.heap.length ∧
      hub.hub.onceOf sub = some true ∧
      (∀ b < s.hub.hub.heap.length, b ≠ sub → hub.hub.onceOf b = s.hub.hub.onceOf b) ∧
      c' = { c with unsubscribed := c.unsubscribed + 1 } := by
  rw [unsubscribe, hsub] at h
  simp only [Option.bind_eq_bind, Option.bind_eq_some_iff, Option.pure_def, Option.some.injEq,
    Prod.mk.injEq, Option.bind_some] at h
  obtain ⟨hub, hstep, rfl, rfl⟩ := h
  refine ⟨hub, rfl, (hsafe.step hstep).1, hsafe.length_le_step hstep, ?_, fun b hb hne => ?_, ?_⟩
  · rw [hsafe.onceOf_unsubscribe hstep, honce]
    rfl
  · refine hsafe.onceOf_step hstep ?_ hb
    intro heq
    cases heq
    exact hne rfl
  · rw [honce, if_neg (by simp), hsub]

/-- A statement of the call that touches neither the channel nor the hub. -/
theorem Ready.stay (h : Ready s c) (hheld : c'.held = c.held) (hsub : c'.sub = c.sub)
    (hunsubscribed : c'.unsubscribed = c.unsubscribed) (hbalanced : c'.Balanced) :
    Moves s s c c' where
  opened := h.opened
  slots := by rw [hheld]
  calls := rfl
  safe := h.safe
  heap := le_refl _
  sub := .inl hsub
  others := fun _ _ _ => rfl
  own := by
    rw [hsub, hunsubscribed]
    exact h.own
  balanced := hbalanced

/-- `releaseSlot`, by the one that holds the slot. -/
theorem Ready.releaseSlot (h : Ready s c) (hheld : 0 < c.held) {c₁ : GuestCall δ}
    (hrun : s.releaseSlot c = some (s', c₁)) :
    c₁ = { c with releaseSlotOnce := true, released := c.released + 1 } ∧ c.released = 0 ∧
      ∀ c' : GuestCall δ, c'.held + 1 = c.held → c'.sub = c.sub →
        c'.unsubscribed = c.unsubscribed → c'.Balanced → Moves s s' c c' := by
  have hslot := h.balanced.slot
  have hreleased := h.balanced.released
  have hle := h.balanced.acquired
  have honce : c.releaseSlotOnce = false := by
    cases hguard : c.releaseSlotOnce with
    | false => rfl
    | true =>
      rw [hguard] at hreleased
      have : c.released = 1 := hreleased
      omega
  obtain ⟨ch, rfl, hopen, hbuffer, hc₁⟩ := releaseSlot_spec h.opened honce hrun
  refine ⟨hc₁, by omega, fun c' hafter hsub hunsubscribed hbalanced => ?_⟩
  exact
    { opened := hopen
      slots := by
        show ch.buffer.length + c.held = _
        omega
      calls := rfl
      safe := h.safe
      heap := le_refl _
      sub := .inl hsub
      others := fun _ _ _ => rfl
      own := by
        rw [hsub, hunsubscribed]
        exact h.own
      balanced := hbalanced }

/-- The closure, run by the one that has to. -/
theorem Ready.unsubscribe (h : Ready s c) (hholds : 0 < c.subscribed) {c₁ : GuestCall δ}
    (hrun : s.unsubscribe c = some (s', c₁)) :
    c₁ = { c with unsubscribed := c.unsubscribed + 1 } ∧
      ∀ c' : GuestCall δ, c'.held = c.held → c'.sub = c.sub →
        c'.unsubscribed = c.unsubscribed + 1 → c'.Balanced → Moves s s' c c' := by
  have hcount := h.balanced.subscription
  cases hc : c.sub with
  | none =>
    rw [hc] at hcount
    simp only [Option.isSome_none, Bool.toNat_false] at hcount
    omega
  | some b =>
    rw [hc] at hcount
    simp only [Option.isSome_some, Bool.toNat_true] at hcount
    have hzero : c.unsubscribed = 0 := by omega
    have honce := h.own b hc
    rw [hzero] at honce
    obtain ⟨hub, rfl, hsafe, hheap, hself, hothers, hc₁⟩ := unsubscribe_spec h.safe hc honce hrun
    rw [← hc]
    refine ⟨hc₁, fun c' hheld hsub hunsubscribed hbalanced => ?_⟩
    exact
      { opened := h.opened
        slots := by rw [hheld]
        calls := rfl
        safe := hsafe
        heap := hheap
        sub := .inl hsub
        others := fun b' hb' hne => hothers b' hb' fun heq => hne (by rw [heq, hc])
        own := by
          rw [hsub, hunsubscribed, hzero]
          intro b' hb'
          obtain rfl := Option.some.inj (hc.symm.trans hb')
          exact hself
        balanced := hbalanced }

/-- A step of the hub that leaves the closures alone. -/
theorem Ready.hub (h : Ready s c) {a : HubAction δ σ} {hub : HubState δ σ}
    (hstep : s.hub.step a = some hub) (ha : ∀ sub, a ≠ .unsubscribe sub) (hheld : c'.held = c.held)
    (hsub : c'.sub = c.sub) (hunsubscribed : c'.unsubscribed = c.unsubscribed)
    (hbalanced : c'.Balanced) : Moves s { s with hub } c c' where
  opened := h.opened
  slots := by rw [hheld]
  calls := rfl
  safe := (h.safe.step hstep).1
  heap := h.safe.length_le_step hstep
  sub := .inl hsub
  others := fun b hb _ => h.safe.onceOf_step hstep (ha b) hb
  own := by
    rw [hsub, hunsubscribed]
    intro b hb
    have honce := h.own b hb
    have hlt : b < s.hub.hub.heap.length := by
      rw [← Hub.onceOf_isSome, honce]
      rfl
    rw [← honce]
    exact h.safe.onceOf_step hstep (ha b) hlt
  balanced := hbalanced

/-! ### The statements of the handler -/

theorem Ready.goto (h : Ready s c) {pc : GuestHandlerPc δ} (honward : c.handler.Onward pc)
    (hholds : pc.holds c.slotTransferred = c.handler.holds c.slotTransferred)
    (hsubscribed : pc.subscribed c.subscriptionTransferred =
      c.handler.subscribed c.subscriptionTransferred) : Moves s s c { c with handler := pc } := by
  refine h.stay ?_ rfl rfl (h.balanced.goto honward hholds hsubscribed)
  rw [GuestCall.held, GuestCall.handlerHolds, hholds]
  rfl

/-- An error before the subscription: what is left to do is to give the slot back. -/
theorem Ready.refuse (h : Ready s c) (hunsubscribed : c.handler.unsubscribed)
    (hacquired : c.handler ≠ .acquire) : Moves s s c { c with handler := .deferReleaseSlot } := by
  have hflags := h.balanced.preparing (by cases hpc : c.handler <;> simp_all)
  refine h.goto (by constructor <;> simp) ?_ ?_
  · cases hpc : c.handler <;> simp_all
  · cases hpc : c.handler <;> simp_all

theorem Ready.acquire (h : Ready s c) (hpc : c.handler = .acquire)
    {ch : Channel Unit maxGuestStreams} (hbuffer : ch.buffer = s.guestStreams.buffer ++ [()])
    (hclosed : ch.closed = false) :
    Moves s { s with guestStreams := ch } c
      { c with handler := .resolveCookie, acquired := c.acquired + 1 } := by
  have hb := h.balanced
  have hcallback := hb.callback (.inl (by rw [hpc]; rfl))
  have hstaged : GuestCall.Staged { c with handler := .resolveCookie } :=
    hb.toStaged.goto (by constructor <;> simp [hpc])
  have hslot := hb.slot
  rw [hb.fresh hpc] at hslot
  simp only [GuestCall.held, GuestCall.handlerHolds, GuestCall.streaming, hpc, hcallback,
    GuestHandlerPc.holds, GuestCallbackPc.running, Bool.toNat_false] at hslot
  refine ⟨hclosed, ?_, rfl, h.safe, le_refl _, .inl rfl, fun _ _ _ => rfl, h.own, ?_⟩
  · simp [GuestCall.held, GuestCall.handlerHolds, GuestCall.streaming, hpc, hcallback, hbuffer]
  · exact
      { slot := by
          simp [GuestCall.held, GuestCall.handlerHolds, GuestCall.streaming, hcallback, hslot,
            hb.fresh hpc]
        acquired := by
          show c.acquired + 1 ≤ 1
          omega
        released := hb.released
        subscription := by
          have hsub := hb.subscription
          simpa [GuestCall.subscribed, hpc] using hsub
        toStaged := { hstaged with fresh := nofun } }

theorem Ready.subscribe (h : Ready s c) {device : δ} (hpc : c.handler = .subscribe device)
    {hub : HubState δ σ} (hrun : s.hub.step (.subscribe device) = some hub) :
    Moves s { s with hub } c
      { c with handler := .getLive, sub := some s.hub.hub.heap.length } := by
  have hb := h.balanced
  have hcallback := hb.callback (.inl (by rw [hpc]; rfl))
  have hnone := hb.unsubscribed (by rw [hpc]; rfl)
  have hsub := hb.subscription
  simp only [GuestCall.subscribed, hnone, hpc, hcallback, GuestHandlerPc.subscribed,
    GuestCallbackPc.subscribed, Option.isSome_none, Bool.toNat_false] at hsub
  have hzero : c.unsubscribed = 0 := by omega
  refine ⟨h.opened, ?_, rfl, (h.safe.step hrun).1, h.safe.length_le_step hrun, .inr ⟨hnone, rfl⟩,
    fun b hb _ => h.safe.onceOf_step hrun nofun hb, fun b hb => ?_, ?_⟩
  · simp [GuestCall.held, GuestCall.handlerHolds, GuestCall.streaming, hpc]
  · cases hb
    rw [hzero]
    exact h.safe.onceOf_subscribe hrun
  · exact
      { slot := by
          have hslot := hb.slot
          simpa [GuestCall.held, GuestCall.handlerHolds, GuestCall.streaming, hpc] using hslot
        acquired := hb.acquired
        released := hb.released
        subscription := by simp [GuestCall.subscribed, hcallback, hzero]
        fresh := nofun
        unsubscribed := nofun
        preparing := fun _ => hb.preparing (by rw [hpc]; rfl)
        handingOver := nofun
        callback := fun _ => hcallback
        handlerCleanup := fun _ => hb.handlerCleanup (by rw [hpc]; rfl)
        callbackCleanup := hb.callbackCleanup }

theorem Ready.transfer (h : Ready s c) (hpc : c.handler = .transfer) :
    Moves s s c { c with
      handler := .sendStreamWriter, slotTransferred := true, subscriptionTransferred := true } := by
  have hb := h.balanced
  have hcallback := hb.callback (.inl (by rw [hpc]; rfl))
  have hcleanup := hb.handlerCleanup (by rw [hpc]; rfl)
  have hslot := hb.slot
  have hsub := hb.subscription
  refine h.stay (by simp [GuestCall.held, GuestCall.handlerHolds, GuestCall.streaming, hpc]) rfl
    rfl ?_
  exact
    { slot := by
        simpa [GuestCall.held, GuestCall.handlerHolds, GuestCall.streaming, hpc] using hslot
      acquired := hb.acquired
      released := hb.released
      subscription := by simpa [GuestCall.subscribed, hpc] using hsub
      toStaged := .of_handingOver rfl ⟨rfl, rfl⟩ hcallback fun _ => hcleanup }

/-- The stream has the slot and the subscription from here on. -/
theorem Ready.startStream (h : Ready s c) (hpc : c.handler = .sendStreamWriter) :
    Moves s s c { c with handler := .deferUnsubscribe, callback := .snapshot } := by
  have hb := h.balanced
  have hflags := hb.handingOver (by rw [hpc]; rfl)
  have hcallback := hb.callback (.inr (by rw [hpc]; rfl))
  have hcleanup := hb.handlerCleanup (by rw [hpc]; rfl)
  have hslot := hb.slot
  have hsub := hb.subscription
  refine h.stay (by simp [GuestCall.held, GuestCall.handlerHolds, GuestCall.streaming, hpc,
    hcallback, hflags]) rfl rfl ?_
  exact
    { slot := by
        simpa [GuestCall.held, GuestCall.handlerHolds, GuestCall.streaming, hpc, hcallback,
          hflags] using hslot
      acquired := hb.acquired
      released := hb.released
      subscription := by
        simpa [GuestCall.subscribed, hpc, hcallback, hflags] using hsub
      toStaged := .of_leaving rfl fun _ => hcleanup }

/-! `cleanup` in the handler, after an error of `SendStreamWriter`. -/

theorem Ready.cleanup (h : Ready s c) (hpc : c.handler = .cleanup) :
    Moves s s c { c with handler := .cleanupUnsubscribe, cleanupOnce := .running } := by
  have hb := h.balanced
  have hflags := hb.handingOver (by rw [hpc]; rfl)
  have hcallback := hb.callback (.inr (by rw [hpc]; rfl))
  have hslot := hb.slot
  have hsub := hb.subscription
  refine h.stay (by simp [GuestCall.held, GuestCall.handlerHolds, GuestCall.streaming, hpc]) rfl
    rfl ?_
  exact
    { slot := by
        simpa [GuestCall.held, GuestCall.handlerHolds, GuestCall.streaming, hpc] using hslot
      acquired := hb.acquired
      released := hb.released
      subscription := by simpa [GuestCall.subscribed, hpc] using hsub
      toStaged := .of_handingOver rfl hflags hcallback nofun }

theorem Ready.cleanupUnsubscribe (h : Ready s c) (hpc : c.handler = .cleanupUnsubscribe)
    {c₁ : GuestCall δ} (hrun : s.unsubscribe c = some (s', c₁)) :
    Moves s s' c { c₁ with handler := .cleanupReleaseSlot } := by
  have hb := h.balanced
  have hflags := hb.handingOver (by rw [hpc]; rfl)
  have hcallback := hb.callback (.inr (by rw [hpc]; rfl))
  have hholds : 0 < c.subscribed := by
    rw [GuestCall.subscribed, hpc]
    exact Nat.add_pos_left Nat.one_pos _
  obtain ⟨rfl, hmoves⟩ := h.unsubscribe hholds hrun
  have hslot := hb.slot
  have hsub := hb.subscription
  refine hmoves _ (by simp [GuestCall.held, GuestCall.handlerHolds, GuestCall.streaming, hpc]) rfl
    rfl ?_
  exact
    { slot := by
        simpa [GuestCall.held, GuestCall.handlerHolds, GuestCall.streaming, hpc] using hslot
      acquired := hb.acquired
      released := hb.released
      subscription := by simpa [GuestCall.subscribed, hpc, hcallback] using hsub
      toStaged := .of_handingOver rfl hflags hcallback nofun }

theorem Ready.cleanupReleaseSlot (h : Ready s c) (hpc : c.handler = .cleanupReleaseSlot)
    {c₁ : GuestCall δ} (hrun : s.releaseSlot c = some (s', c₁)) :
    Moves s s' c { c₁ with handler := .deferUnsubscribe, cleanupOnce := .done } := by
  have hb := h.balanced
  have hflags := hb.handingOver (by rw [hpc]; rfl)
  have hcallback := hb.callback (.inr (by rw [hpc]; rfl))
  have hheld : c.held = 1 := by
    simp [GuestCall.held, GuestCall.handlerHolds, GuestCall.streaming, hpc, hcallback]
  obtain ⟨rfl, hzero, hmoves⟩ := h.releaseSlot (by omega) hrun
  have hslot := hb.slot
  have hsub := hb.subscription
  refine hmoves _ (by simp [GuestCall.held, GuestCall.handlerHolds, GuestCall.streaming, hpc,
    hcallback, hflags]) rfl rfl ?_
  exact
    { slot := by
        simpa [GuestCall.held, GuestCall.handlerHolds, GuestCall.streaming, hpc, hcallback,
          hflags] using hslot
      acquired := hb.acquired
      released := by simp [hzero]
      subscription := by simpa [GuestCall.subscribed, hpc, hcallback, hflags] using hsub
      toStaged := .of_leaving rfl (by simp [hcallback]) }

/-! The deferred functions, where nothing was handed over. -/

theorem Ready.deferUnsubscribe (h : Ready s c) (hpc : c.handler = .deferUnsubscribe)
    (hkept : ¬ c.subscriptionTransferred) {c₁ : GuestCall δ}
    (hrun : s.unsubscribe c = some (s', c₁)) :
    Moves s s' c { c₁ with handler := .deferReleaseSlot } := by
  have hb := h.balanced
  have hholds : c.subscribed = 1 + c.callback.subscribed.toNat := by
    rw [GuestCall.subscribed, hpc, Bool.eq_false_iff.mpr hkept]
    rfl
  obtain ⟨rfl, hmoves⟩ := h.unsubscribe (by omega) hrun
  have hslot := hb.slot
  have hsub := hb.subscription
  refine hmoves _ (by simp [GuestCall.held, GuestCall.handlerHolds, GuestCall.streaming, hpc])
    rfl rfl ?_
  exact
    { slot := by
        simpa [GuestCall.held, GuestCall.handlerHolds, GuestCall.streaming, hpc] using hslot
      acquired := hb.acquired
      released := hb.released
      subscription := by
        show c.sub.isSome.toNat = c.unsubscribed + 1 + (0 + c.callback.subscribed.toNat)
        omega
      toStaged := .of_leaving rfl hb.callbackCleanup }

theorem Ready.deferReleaseSlot (h : Ready s c) (hpc : c.handler = .deferReleaseSlot)
    (hkept : ¬ c.slotTransferred) {c₁ : GuestCall δ} (hrun : s.releaseSlot c = some (s', c₁)) :
    Moves s s' c { c₁ with handler := .returned } := by
  have hb := h.balanced
  have hslot := hb.slot
  have hsub := hb.subscription
  have hheld : c.held = 1 + c.streaming.toNat := by
    simp [GuestCall.held, GuestCall.handlerHolds, hpc, hkept]
  obtain ⟨rfl, hzero, hmoves⟩ := h.releaseSlot (by omega) hrun
  refine hmoves _ ?_ rfl rfl ?_
  · simp [GuestCall.held, GuestCall.handlerHolds, GuestCall.streaming, hpc, hkept]
    omega
  · exact
      { slot := by
          show c.acquired = c.released + 1 + (0 + c.streaming.toNat)
          omega
        acquired := hb.acquired
        released := by simp [hzero]
        subscription := by simpa [GuestCall.subscribed, hpc] using hsub
        toStaged := .of_leaving rfl hb.callbackCleanup }

/-! ### Any statement of the handler -/

theorem handlerStep_moves {answer : Option δ} (h : Ready s c)
    (hstep : s.handlerStep c answer = some (s', c')) : Moves s s' c c' := by
  have hb := h.balanced
  unfold handlerStep at hstep
  cases hpc : c.handler with
  | acquire =>
    rw [hpc] at hstep
    rcases Channel.trySend_of_open h.opened () with ⟨ch, hsend, hbuffer, hclosed⟩ | ⟨hsend, -⟩
    · rw [hsend] at hstep
      cases hstep
      exact h.acquire hpc hbuffer hclosed
    · rw [hsend] at hstep
      cases hstep
      exact h.goto (by constructor <;> simp [hpc]) (by simp [hpc]) (by simp [hpc])
  | resolveCookie =>
    rw [hpc] at hstep
    cases answer with
    | some device =>
      cases hstep
      exact h.goto (by constructor <;> simp [hpc]) (by simp [hpc]) (by simp [hpc])
    | none =>
      cases hstep
      exact h.refuse (by rw [hpc]; rfl) (by simp [hpc])
  | checkSubscriber device =>
    rw [hpc] at hstep
    cases hstep
    cases s.subscriber with
    | true => exact h.goto (by constructor <;> simp [hpc]) (by simp [hpc]) (by simp [hpc])
    | false => exact h.refuse (by rw [hpc]; rfl) (by simp [hpc])
  | revalidate device =>
    rw [hpc] at hstep
    cases hstep
    cases answer.isSome with
    | true => exact h.goto (by constructor <;> simp [hpc]) (by simp [hpc]) (by simp [hpc])
    | false => exact h.refuse (by rw [hpc]; rfl) (by simp [hpc])
  | subscribe device =>
    rw [hpc] at hstep
    simp only [Option.bind_eq_bind, Option.bind_eq_some_iff, Option.pure_def, Option.some.injEq,
      Prod.mk.injEq] at hstep
    obtain ⟨hub, hrun, rfl, rfl⟩ := hstep
    exact h.subscribe hpc hrun
  | getLive =>
    have hflags := hb.preparing (by rw [hpc]; rfl)
    rw [hpc] at hstep
    cases hstep
    cases answer.isSome with
    | true => exact h.goto (by constructor <;> simp [hpc]) (by simp [hpc]) (by simp [hpc])
    | false =>
      exact h.goto (by constructor <;> simp [hpc]) (by simp [hpc, hflags]) (by simp [hpc, hflags])
  | transfer =>
    rw [hpc] at hstep
    cases hstep
    exact h.transfer hpc
  | sendStreamWriter =>
    rw [hpc] at hstep
    dsimp only at hstep
    split at hstep
    · cases hstep
      exact h.startStream hpc
    · cases hstep
      exact h.goto (by constructor <;> simp [hpc]) (by simp [hpc]) (by simp [hpc])
  | cleanup =>
    rw [hpc, hb.handlerCleanup (by rw [hpc]; rfl)] at hstep
    cases hstep
    exact h.cleanup hpc
  | cleanupUnsubscribe =>
    rw [hpc] at hstep
    simp only [Option.bind_eq_bind, Option.bind_eq_some_iff, Option.pure_def, Option.some.injEq,
      Prod.mk.injEq] at hstep
    obtain ⟨⟨s₁, c₁⟩, hrun, rfl, rfl⟩ := hstep
    exact h.cleanupUnsubscribe hpc hrun
  | cleanupReleaseSlot =>
    rw [hpc] at hstep
    simp only [Option.bind_eq_bind, Option.bind_eq_some_iff, Option.pure_def, Option.some.injEq,
      Prod.mk.injEq] at hstep
    obtain ⟨⟨s₁, c₁⟩, hrun, rfl, rfl⟩ := hstep
    exact h.cleanupReleaseSlot hpc hrun
  | deferUnsubscribe =>
    rw [hpc] at hstep
    dsimp only at hstep
    split at hstep
    · next htransferred =>
      cases hstep
      exact h.goto (by constructor <;> simp [hpc]) (by simp [hpc]) (by simp [hpc, htransferred])
    · next hkept =>
      simp only [Option.bind_eq_bind, Option.bind_eq_some_iff, Option.pure_def, Option.some.injEq,
        Prod.mk.injEq] at hstep
      obtain ⟨⟨s₁, c₁⟩, hrun, rfl, rfl⟩ := hstep
      exact h.deferUnsubscribe hpc hkept hrun
  | deferReleaseSlot =>
    rw [hpc] at hstep
    dsimp only at hstep
    split at hstep
    · next htransferred =>
      cases hstep
      exact h.goto (by constructor <;> simp [hpc]) (by simp [hpc, htransferred]) (by simp [hpc])
    · next hkept =>
      simp only [Option.bind_eq_bind, Option.bind_eq_some_iff, Option.pure_def, Option.some.injEq,
        Prod.mk.injEq] at hstep
      obtain ⟨⟨s₁, c₁⟩, hrun, rfl, rfl⟩ := hstep
      exact h.deferReleaseSlot hpc hkept hrun
  | returned =>
    rw [hpc] at hstep
    cases hstep

/-! ### The statements of the stream -/

theorem Ready.gotoCallback (h : Ready s c) (hc : c.callback.beforeCleanup) {pc : GuestCallbackPc}
    (hpc : pc.beforeCleanup) : Moves s s c { c with callback := pc } :=
  h.stay (GuestCall.held_gotoCallback hc hpc) rfl rfl (h.balanced.gotoCallback hc hpc)

theorem Ready.gotoCallback_hub (h : Ready s c) (hc : c.callback.beforeCleanup)
    {pc : GuestCallbackPc} (hpc : pc.beforeCleanup) {a : HubAction δ σ} {hub : HubState δ σ}
    (hstep : s.hub.step a = some hub) (ha : ∀ sub, a ≠ .unsubscribe sub) :
    Moves s { s with hub } c { c with callback := pc } :=
  h.hub hstep ha (GuestCall.held_gotoCallback hc hpc) rfl rfl (h.balanced.gotoCallback hc hpc)

theorem receive_moves (h : Ready s c) (hc : c.callback.beforeCleanup)
    (hstep : s.receive c = some (s', c')) : Moves s s' c c' := by
  simp only [receive, Option.bind_eq_bind, Option.bind_eq_some_iff] at hstep
  obtain ⟨sub, -, ⟨r, _⟩, -, hub, hrun, hstep⟩ := hstep
  cases r with
  | closed =>
    cases hstep
    exact h.gotoCallback_hub hc rfl hrun nofun
  | value e =>
    cases hstep
    exact h.gotoCallback_hub hc rfl hrun nofun

/-! `cleanup` at the end of the stream. -/

theorem Ready.streamCleanup (h : Ready s c) (hpc : c.callback = .cleanup) :
    Moves s s c { c with callback := .cleanupUnsubscribe, cleanupOnce := .running } := by
  have hb := h.balanced
  have hleaving := hb.of_started (by rw [hpc]; rfl)
  have hslot := hb.slot
  have hsub := hb.subscription
  refine h.stay (by simp [GuestCall.held, GuestCall.handlerHolds, GuestCall.streaming, hpc]) rfl
    rfl ?_
  exact
    { slot := by
        simpa [GuestCall.held, GuestCall.handlerHolds, GuestCall.streaming, hpc] using hslot
      acquired := hb.acquired
      released := hb.released
      subscription := by simpa [GuestCall.subscribed, hpc] using hsub
      toStaged := .of_leaving hleaving nofun }

theorem Ready.streamCleanupUnsubscribe (h : Ready s c) (hpc : c.callback = .cleanupUnsubscribe)
    {c₁ : GuestCall δ} (hrun : s.unsubscribe c = some (s', c₁)) :
    Moves s s' c { c₁ with callback := .cleanupReleaseSlot } := by
  have hb := h.balanced
  have hleaving := hb.of_started (by rw [hpc]; rfl)
  have hholds : c.subscribed =
      (c.handler.subscribed c.subscriptionTransferred).toNat + 1 := by
    rw [GuestCall.subscribed, hpc]
    rfl
  obtain ⟨rfl, hmoves⟩ := h.unsubscribe (by omega) hrun
  have hslot := hb.slot
  have hsub := hb.subscription
  refine hmoves _ (by simp [GuestCall.held, GuestCall.handlerHolds, GuestCall.streaming, hpc]) rfl
    rfl ?_
  exact
    { slot := by
        simpa [GuestCall.held, GuestCall.handlerHolds, GuestCall.streaming, hpc] using hslot
      acquired := hb.acquired
      released := hb.released
      subscription := by
        show c.sub.isSome.toNat = c.unsubscribed + 1 +
          ((c.handler.subscribed c.subscriptionTransferred).toNat + 0)
        omega
      toStaged := .of_leaving hleaving nofun }

theorem Ready.streamCleanupReleaseSlot (h : Ready s c) (hpc : c.callback = .cleanupReleaseSlot)
    {c₁ : GuestCall δ} (hrun : s.releaseSlot c = some (s', c₁)) :
    Moves s s' c { c₁ with callback := .ended, cleanupOnce := .done } := by
  have hb := h.balanced
  have hleaving := hb.of_started (by rw [hpc]; rfl)
  have hheld : c.held = c.handlerHolds.toNat + 1 := by
    rw [GuestCall.held, GuestCall.streaming, hpc]
    rfl
  obtain ⟨rfl, hzero, hmoves⟩ := h.releaseSlot (by omega) hrun
  have hslot := hb.slot
  have hsub := hb.subscription
  refine hmoves _ hheld.symm rfl rfl ?_
  exact
    { slot := by
        show c.acquired = c.released + 1 + (c.handlerHolds.toNat + 0)
        omega
      acquired := hb.acquired
      released := by simp [hzero]
      subscription := by simpa [GuestCall.subscribed, hpc] using hsub
      toStaged := .of_leaving hleaving nofun }

/-! ### Any statement of the stream -/

theorem callbackStep_moves {ready : StreamReady} {ok : Bool} (h : Ready s c)
    (hstep : s.callbackStep c ready ok = some (s', c')) : Moves s s' c c' := by
  unfold callbackStep at hstep
  cases hpc : c.callback with
  | notStarted | ended =>
    rw [hpc] at hstep
    cases hstep
  | snapshot | presence =>
    rw [hpc] at hstep
    simp only [Option.bind_eq_bind, Option.bind_eq_some_iff, Option.pure_def, Option.some.injEq,
      Prod.mk.injEq] at hstep
    obtain ⟨hub, hrun, rfl, rfl⟩ := hstep
    exact h.gotoCallback_hub (by rw [hpc]; rfl) (by cases ok <;> rfl) hrun nofun
  | select =>
    have hc : c.callback.beforeCleanup := by rw [hpc]; rfl
    rw [hpc] at hstep
    cases ready with
    | event => exact receive_moves h hc hstep
    | done | ticker | timer =>
      cases hstep
      exact h.gotoCallback hc rfl
  | stillActive r =>
    have hc : c.callback.beforeCleanup := by rw [hpc]; rfl
    rw [hpc] at hstep
    cases ok with
    | true =>
      cases hstep
      exact h.gotoCallback hc (by split <;> rfl)
    | false =>
      cases hstep
      exact h.gotoCallback hc rfl
  | write | getLive =>
    rw [hpc] at hstep
    cases hstep
    exact h.gotoCallback (by rw [hpc]; rfl) (by cases ok <;> rfl)
  | cleanup =>
    rw [hpc, h.balanced.callbackCleanup (by rw [hpc]; rfl)] at hstep
    cases hstep
    exact h.streamCleanup hpc
  | cleanupUnsubscribe =>
    rw [hpc] at hstep
    simp only [Option.bind_eq_bind, Option.bind_eq_some_iff, Option.pure_def, Option.some.injEq,
      Prod.mk.injEq] at hstep
    obtain ⟨⟨s₁, c₁⟩, hrun, rfl, rfl⟩ := hstep
    exact h.streamCleanupUnsubscribe hpc hrun
  | cleanupReleaseSlot =>
    rw [hpc] at hstep
    simp only [Option.bind_eq_bind, Option.bind_eq_some_iff, Option.pure_def, Option.some.injEq,
      Prod.mk.injEq] at hstep
    obtain ⟨⟨s₁, c₁⟩, hrun, rfl, rfl⟩ := hstep
    exact h.streamCleanupReleaseSlot hpc hrun

/-! ## Runs -/

/-- The slots in the channel are those the calls hold, and every closure is one call's. -/
structure Conserved (s : GuestStreams δ σ) : Prop where
  opened : s.guestStreams.closed = false
  safe : s.hub.Safe
  slots : s.guestStreams.buffer.length = (s.calls.map GuestCall.held).sum
  balanced : ∀ c ∈ s.calls, c.Balanced
  own : ∀ c ∈ s.calls, ∀ b, c.sub = some b →
    s.hub.hub.onceOf b = some (decide (c.unsubscribed = 1))
  distinct : ∀ (i j : ℕ) (ci cj : GuestCall δ) (b : ℕ), s.calls[i]? = some ci →
    s.calls[j]? = some cj → ci.sub = some b → cj.sub = some b → i = j

theorem Conserved.ready (h : s.Conserved) (hc : c ∈ s.calls) : Ready s c where
  opened := h.opened
  safe := h.safe
  own := h.own c hc
  balanced := h.balanced c hc

theorem Conserved.sub_lt (h : s.Conserved) (hc : c ∈ s.calls) {b : Nat} (hsub : c.sub = some b) :
    b < s.hub.hub.heap.length := by
  rw [← Hub.onceOf_isSome, h.own c hc b hsub]
  rfl

theorem Conserved.setCall (h : s.Conserved) {k : Nat} (hc : s.calls[k]? = some c)
    (hmoves : Moves s s' c c') : (s'.setCall k c').Conserved := by
  have hmem := List.mem_of_getElem? hc
  have hcalls : (s'.setCall k c').calls = s.calls.set k c' := by
    rw [GuestStreams.setCall, hmoves.calls]
  have hself : (s.calls.set k c')[k]? = some c' :=
    List.getElem?_set_self (List.getElem?_eq_some_iff.mp hc).1
  have hother : ∀ (j : ℕ) (d : GuestCall δ) (b : ℕ), j ≠ k → s.calls[j]? = some d →
      d.sub = some b → c.sub ≠ some b := fun j d b hne hd hb hcb =>
    hne (h.distinct j k d c b hd hc hb hcb)
  have hother' : ∀ (j : ℕ) (d : GuestCall δ) (b : ℕ), j ≠ k → s.calls[j]? = some d →
      d.sub = some b → c'.sub ≠ some b := by
    intro j d b hne hd hb hcb
    rcases hmoves.sub with hsame | ⟨-, hnew⟩
    · exact hother j d b hne hd hb (hsame ▸ hcb)
    · -- A new subscription is none of the old ones.
      have hlt := h.sub_lt (List.mem_of_getElem? hd) hb
      rw [hnew] at hcb
      cases hcb
      exact absurd hlt (Nat.lt_irrefl _)
  exact
    { opened := hmoves.opened
      safe := hmoves.safe
      slots := by
        have hsum : ((s.calls.set k c').map GuestCall.held).sum + c.held =
            (s.calls.map GuestCall.held).sum + c'.held := Calls.sum_map_set GuestCall.held hc
        have hslots := hmoves.slots
        rw [h.slots] at hslots
        rw [hcalls]
        show s'.guestStreams.buffer.length = _
        omega
      balanced := by
        rw [hcalls]
        exact Calls.forall_mem_set hmoves.balanced fun j d _ hd =>
          h.balanced d (List.mem_of_getElem? hd)
      own := by
        rw [hcalls]
        refine Calls.forall_mem_set hmoves.own fun j d hne hd b hb => ?_
        have hd' := List.mem_of_getElem? hd
        rw [← h.own d hd' b hb]
        exact hmoves.others b (h.sub_lt hd' hb) (hother j d b hne hd hb)
      distinct := by
        rw [hcalls]
        intro i j ci cj b hi hj hbi hbj
        by_cases hik : i = k <;> by_cases hjk : j = k
        · exact hik.trans hjk.symm
        · subst hik
          cases hself.symm.trans hi
          rw [List.getElem?_set_ne (Ne.symm hjk)] at hj
          exact absurd hbi (hother' j cj b hjk hj hbj)
        · subst hjk
          cases hself.symm.trans hj
          rw [List.getElem?_set_ne (Ne.symm hik)] at hi
          exact absurd hbj (hother' i ci b hik hi hbi)
        · rw [List.getElem?_set_ne (Ne.symm hik)] at hi
          rw [List.getElem?_set_ne (Ne.symm hjk)] at hj
          exact h.distinct i j ci cj b hi hj hbi hbj }

theorem Conserved.request (h : s.Conserved) :
    ({ s with calls := s.calls ++ [.new] } : GuestStreams δ σ).Conserved where
  opened := h.opened
  safe := h.safe
  slots := by
    rw [List.map_append, List.sum_append]
    exact h.slots
  balanced := by
    rw [List.forall_mem_append]
    exact ⟨h.balanced, List.forall_mem_singleton.mpr GuestCall.balanced_new⟩
  own := by
    rw [List.forall_mem_append]
    exact ⟨h.own, List.forall_mem_singleton.mpr nofun⟩
  distinct := by
    intro i j ci cj b hi hj hbi hbj
    have hold : ∀ (i : ℕ) (c : GuestCall δ), (s.calls ++ [GuestCall.new])[i]? = some c →
        c.sub = some b → s.calls[i]? = some c := by
      intro i c hi hb
      rw [List.getElem?_append] at hi
      split at hi
      · exact hi
      · obtain rfl := List.mem_singleton.mp (List.mem_of_getElem? hi)
        cases hb
    exact h.distinct i j ci cj b (hold i ci hi hbi) (hold j cj hj hbj) hbi hbj

theorem Conserved.hub (h : s.Conserved) {a : HubAction δ σ} (hforeign : s.foreign a)
    {hub : HubState δ σ} (hstep : s.hub.step a = some hub) :
    ({ s with hub } : GuestStreams δ σ).Conserved where
  opened := h.opened
  safe := (h.safe.step hstep).1
  slots := h.slots
  balanced := h.balanced
  own := by
    intro c hc b hb
    rw [← h.own c hc b hb]
    refine h.safe.onceOf_step hstep ?_ (h.sub_lt hc hb)
    rintro rfl
    have hne := List.all_eq_true.mp hforeign c hc
    rw [decide_eq_true_iff] at hne
    exact hne hb
  distinct := h.distinct

theorem Conserved.step {a : GuestStreamsAction δ σ} (h : s.Conserved)
    (hstep : s.step a = some s') : s'.Conserved := by
  cases a with
  | request =>
    cases hstep
    exact h.request
  | handler k answer =>
    simp only [GuestStreams.step, Option.bind_eq_bind, Option.bind_eq_some_iff, Option.pure_def,
      Option.some.injEq] at hstep
    obtain ⟨c, hc, ⟨s₁, c₁⟩, hrun, rfl⟩ := hstep
    exact h.setCall hc (handlerStep_moves (h.ready (List.mem_of_getElem? hc)) hrun)
  | callback k ready ok =>
    simp only [GuestStreams.step, Option.bind_eq_bind, Option.bind_eq_some_iff, Option.pure_def,
      Option.some.injEq] at hstep
    obtain ⟨c, hc, ⟨s₁, c₁⟩, hrun, rfl⟩ := hstep
    exact h.setCall hc (callbackStep_moves (h.ready (List.mem_of_getElem? hc)) hrun)
  | hub a =>
    rw [GuestStreams.step] at hstep
    split at hstep
    · next hforeign =>
      simp only [Option.bind_eq_bind, Option.bind_eq_some_iff, Option.pure_def,
        Option.some.injEq] at hstep
      obtain ⟨hub, hrun, rfl⟩ := hstep
      exact h.hub hforeign hrun
    · cases hstep

theorem conserved_new (subscriber : Bool) : (new subscriber : GuestStreams δ σ).Conserved where
  opened := rfl
  safe := HubState.safe_new
  slots := rfl
  balanced _ hc := absurd hc List.not_mem_nil
  own _ hc := absurd hc List.not_mem_nil
  distinct _ _ _ _ _ hi := absurd (List.mem_of_getElem? hi) List.not_mem_nil

/-! ## Nobody waits for a slot -/

omit [DecidableEq δ] in
theorem sum_held (calls : List (GuestCall δ)) :
    (calls.map GuestCall.held).sum =
      calls.countP GuestCall.handlerHolds + calls.countP GuestCall.streaming := by
  induction calls with
  | nil => rfl
  | cons c calls ih =>
    rw [List.map_cons, List.sum_cons, ih, List.countP_cons, List.countP_cons, GuestCall.held]
    cases c.handlerHolds <;> cases c.streaming <;> simp <;> omega

/-- A call that holds a slot finds one in the channel. -/
theorem Conserved.releaseSlot_isSome (h : s.Conserved) (hc : c ∈ s.calls) (hheld : 0 < c.held) :
    (s.releaseSlot c).isSome := by
  have hle : c.held ≤ (s.calls.map GuestCall.held).sum :=
    List.single_le_sum (fun _ _ => Nat.zero_le _) _ (List.mem_map_of_mem hc)
  have hslots := h.slots
  cases hbuffer : s.guestStreams.buffer with
  | nil =>
    rw [hbuffer, List.length_nil] at hslots
    omega
  | cons x rest =>
    obtain ⟨ch, hreceive, -⟩ := Channel.receive_of_cons hbuffer
    rw [releaseSlot, hreceive]
    split <;> rfl

theorem Ready.unsubscribe_isSome (h : Ready s c) (hlock : s.hub.lock = none)
    (hholds : 0 < c.subscribed) : (s.unsubscribe c).isSome := by
  have hcount := h.balanced.subscription
  cases hc : c.sub with
  | none =>
    rw [hc, Option.isSome_none, Bool.toNat_false] at hcount
    omega
  | some b =>
    have hstep : (s.hub.step (.unsubscribe b)).isSome := by
      rw [HubState.step, h.safe.panicked, HubState.next, hlock]
      rfl
    obtain ⟨hub, hrun⟩ := Option.isSome_iff_exists.mp hstep
    rw [GuestStreams.unsubscribe, hc, Option.bind_eq_bind, Option.bind_some, hrun]
    rfl

/-- The handler takes its next statement, once no publish holds the lock of the hub. -/
theorem Conserved.handlerStep_isSome (h : s.Conserved) (hlock : s.hub.lock = none)
    (hc : c ∈ s.calls) (hpc : c.handler ≠ .returned) : (s.handlerStep c none).isSome := by
  have hready := h.ready hc
  have hb := hready.balanced
  have hunsubscribe := hready.unsubscribe_isSome hlock
  have hrelease := h.releaseSlot_isSome hc
  unfold handlerStep
  cases hc' : c.handler with
  | acquire =>
    rcases Channel.trySend_of_open h.opened () with ⟨ch, hsend, -⟩ | ⟨hsend, -⟩ <;> rw [hsend]
    · rfl
    · rfl
  | resolveCookie | checkSubscriber _ | revalidate _ | getLive | transfer | sendStreamWriter => rfl
  | subscribe device =>
    have hstep : (s.hub.step (.subscribe device)).isSome := by
      rw [HubState.step, h.safe.panicked, HubState.next, hlock]
      rfl
    obtain ⟨hub, hrun⟩ := Option.isSome_iff_exists.mp hstep
    simp [hrun]
  | cleanup => rw [hb.handlerCleanup (by rw [hc']; rfl)]; rfl
  | cleanupUnsubscribe =>
    obtain ⟨r, hrun⟩ := Option.isSome_iff_exists.mp (hunsubscribe (by
      rw [GuestCall.subscribed, hc']
      exact Nat.add_pos_left Nat.one_pos _))
    simp [hrun]
  | cleanupReleaseSlot =>
    obtain ⟨r, hrun⟩ := Option.isSome_iff_exists.mp (hrelease (by
      rw [GuestCall.held, GuestCall.handlerHolds, hc']
      exact Nat.add_pos_left Nat.one_pos _))
    simp [hrun]
  | deferUnsubscribe =>
    cases htransferred : c.subscriptionTransferred with
    | true => rfl
    | false =>
      obtain ⟨r, hrun⟩ := Option.isSome_iff_exists.mp (hunsubscribe (by
        rw [GuestCall.subscribed, hc', htransferred]
        exact Nat.add_pos_left Nat.one_pos _))
      simp [hrun]
  | deferReleaseSlot =>
    cases htransferred : c.slotTransferred with
    | true => rfl
    | false =>
      obtain ⟨r, hrun⟩ := Option.isSome_iff_exists.mp (hrelease (by
        rw [GuestCall.held, GuestCall.handlerHolds, hc', htransferred]
        exact Nat.add_pos_left Nat.one_pos _))
      simp [hrun]
  | returned => exact absurd hc' hpc

/-- So does the callback of a stream that runs. -/
theorem Conserved.callbackStep_isSome (h : s.Conserved) (hlock : s.hub.lock = none)
    (hc : c ∈ s.calls) (hpc : c.streaming = true) : (s.callbackStep c .done false).isSome := by
  have hready := h.ready hc
  have hb := hready.balanced
  have hnextID : (s.hub.step .nextID).isSome := by
    rw [HubState.step, h.safe.panicked]
    rfl
  unfold callbackStep
  cases hc' : c.callback with
  | notStarted | ended =>
    rw [GuestCall.streaming, hc'] at hpc
    cases hpc
  | snapshot | presence =>
    obtain ⟨hub, hrun⟩ := Option.isSome_iff_exists.mp hnextID
    simp [hrun]
  | select | stillActive _ | write | getLive => rfl
  | cleanup =>
    rw [hb.callbackCleanup (by rw [hc']; rfl)]
    rfl
  | cleanupUnsubscribe =>
    obtain ⟨r, hrun⟩ := Option.isSome_iff_exists.mp (hready.unsubscribe_isSome hlock (by
      rw [GuestCall.subscribed, hc']
      exact Nat.succ_pos _))
    simp [hrun]
  | cleanupReleaseSlot =>
    obtain ⟨r, hrun⟩ := Option.isSome_iff_exists.mp (h.releaseSlot_isSome hc (by
      rw [GuestCall.held, GuestCall.streaming, hc']
      exact Nat.succ_pos _))
    simp [hrun]

theorem Conserved.proceeds (h : s.Conserved) (hlock : s.hub.lock = none) {k : ℕ}
    (hc : s.calls[k]? = some c) (hunfinished : c.finished = false) :
    (s.step (.handler k none)).isSome ∨ (s.step (.callback k .done false)).isSome := by
  have hmem := List.mem_of_getElem? hc
  by_cases hpc : c.handler = .returned
  · right
    have hstreaming : c.streaming = true := by
      rw [GuestCall.finished, hpc] at hunfinished
      simpa using hunfinished
    obtain ⟨r, hrun⟩ := Option.isSome_iff_exists.mp (h.callbackStep_isSome hlock hmem hstreaming)
    simp [GuestStreams.step, hc, hrun]
  · left
    obtain ⟨r, hrun⟩ := Option.isSome_iff_exists.mp (h.handlerStep_isSome hlock hmem hpc)
    simp [GuestStreams.step, hc, hrun]

/-! ## Conservation -/

/-- What a call has taken and given back. -/
structure Settled (s : GuestStreams δ σ) (c : GuestCall δ) : Prop where
  acquired : c.acquired ≤ 1
  released : c.released ≤ c.acquired
  unsubscribed : c.unsubscribed ≤ c.sub.isSome.toNat
  slot : c.finished → c.released = c.acquired
  subscription : c.finished → c.unsubscribed = c.sub.isSome.toNat
  gone : c.finished → ∀ b, c.sub = some b → s.hub.hub.registered b = false

theorem Conserved.settled (h : s.Conserved) (hc : c ∈ s.calls) : Settled s c := by
  have hb := h.balanced c hc
  have hslot := hb.slot
  have hsub := hb.subscription
  have hnothing : c.finished → c.held = 0 ∧ c.subscribed = 0 := GuestCall.holds_nothing
  exact
    { acquired := hb.acquired
      released := by omega
      unsubscribed := by omega
      slot := fun hfinished => by
        have := (hnothing hfinished).1
        omega
      subscription := fun hfinished => by
        have := (hnothing hfinished).2
        omega
      gone := fun hfinished b hcb => by
        have hnone := (hnothing hfinished).2
        have honce := h.own c hc b hcb
        rw [hcb, Option.isSome_some, Bool.toNat_true] at hsub
        rw [decide_eq_true (show c.unsubscribed = 1 by omega)] at honce
        exact h.safe.sound.registered_of_once honce }

/-- Every slot and every subscription is given back once, whatever the calls come to and in whatever
order they run: the channel holds one slot for each handler that has one and each stream that runs,
and nobody who gives one back waits. -/
theorem guestStreams_conserved (subscriber : Bool) {as : List (GuestStreamsAction δ σ)}
    {t : GuestStreams δ σ} (hrun : Run step (.new subscriber) as t) :
    t.guestStreams.buffer.length =
        t.calls.countP GuestCall.handlerHolds + t.calls.countP GuestCall.streaming ∧
      t.guestStreams.buffer.length ≤ maxGuestStreams ∧
      (∀ c ∈ t.calls, Settled t c) ∧
      (∀ c ∈ t.calls, c.handlerHolds ∨ c.streaming → (t.releaseSlot c).isSome) ∧
      (t.hub.lock = none → ∀ (k : ℕ) (c : GuestCall δ), t.calls[k]? = some c →
        c.finished = false →
          (t.step (.handler k none)).isSome ∨ (t.step (.callback k .done false)).isSome) ∧
      ((∀ c ∈ t.calls, c.finished) → t.guestStreams.buffer = []) := by
  have h : t.Conserved := hrun.invariant (fun _ _ _ hs hstep => hs.step hstep)
    (conserved_new subscriber)
  refine ⟨h.slots.trans (sum_held _), t.guestStreams.bounded, fun c hc => h.settled hc,
    fun c hc hholds => h.releaseSlot_isSome hc ?_, fun hlock k c hc => h.proceeds hlock hc,
    fun hall => ?_⟩
  · rw [GuestCall.held]
    rcases hholds with hholds | hholds <;> rw [hholds]
    · exact Nat.add_pos_left Nat.one_pos _
    · exact Nat.succ_pos _
  · rw [← List.length_eq_zero_iff, h.slots]
    refine List.sum_eq_zero fun n hn => ?_
    obtain ⟨c, hc, rfl⟩ := List.mem_map.mp hn
    exact (GuestCall.holds_nothing (hall c hc)).1

/-- A stream that starts before its handler returns and ends with a disconnect. -/
def disconnected : List (GuestStreamsAction Nat Nat) :=
  .request :: List.replicate 8 (.handler 0 (some 7)) ++ [.callback 0 .done true] ++
    List.replicate 2 (.handler 0 none) ++ List.replicate 4 (.callback 0 .done true)

theorem disconnected_conserved : ∃ t : GuestStreams Nat Nat,
    Run step (.new true) disconnected t ∧ t.calls.map GuestCall.finished = [true] ∧
      t.calls.map GuestCall.released = [1] ∧
      t.guestStreams.buffer.length =
        t.calls.countP GuestCall.handlerHolds + t.calls.countP GuestCall.streaming ∧
      ∀ c ∈ t.calls, Settled t c := by
  obtain ⟨t, hrun, ht⟩ := Option.map_eq_some_iff.mp (show
    (disconnected.foldlM step (.new true)).map (fun t : GuestStreams Nat Nat =>
      (t.calls.map GuestCall.finished, t.calls.map GuestCall.released)) = some ([true], [1]) by
    decide +kernel)
  have hconserved := guestStreams_conserved true hrun
  exact ⟨t, hrun, congrArg Prod.fst ht, congrArg Prod.snd ht, hconserved.1, hconserved.2.2.1⟩

end GuestStreams

end OpenGps.Backend
