import Mathlib.Data.List.Basic

/-!
# Handles

Things that are acquired, used under a number, and released: connections, timers, files. A number is
never given twice, and a handle that is released stays so.
-/

namespace OpenGps.Lib

variable {α : Type}

structure Handle (α : Type) where
  value : α
  live : Bool
  deriving DecidableEq

/-- The handles by their numbers. -/
abbrev Handles (α : Type) := List (Handle α)

namespace Handles

variable (hs : Handles α)

def acquire (a : α) : Handles α := hs ++ [⟨a, true⟩]

/-- Releasing twice, or nothing at all, does no harm. -/
def release : Option ℕ → Handles α
  | none => hs
  | some id => hs.modify id fun h => { h with live := false }

/-- The value of a live handle. -/
def get? (id : ℕ) : Option α := hs[id]?.bind fun h => if h.live then some h.value else none

/-- The values of the live handles, in the order in which they were acquired. -/
def live : List α := hs.filterMap fun h => if h.live then some h.value else none

variable {hs}

@[simp] theorem get?_nil (id : ℕ) : get? ([] : Handles α) id = none := rfl

theorem get?_acquire (a : α) (id : ℕ) :
    (hs.acquire a).get? id = if id = hs.length then some a else hs.get? id := by
  unfold get? acquire
  by_cases hlt : id < hs.length
  · rw [List.getElem?_append_left hlt, if_neg (by omega)]
  · by_cases hid : id = hs.length
    · subst hid
      simp
    · have hlong : (hs ++ [(⟨a, true⟩ : Handle α)]).length ≤ id := by
        rw [List.length_append, List.length_singleton]
        omega
      rw [if_neg hid, List.getElem?_eq_none hlong, List.getElem?_eq_none (by omega)]

theorem get?_release (released : Option ℕ) (id : ℕ) :
    (hs.release released).get? id = if released = some id then none else hs.get? id := by
  cases released with
  | none => simp [release]
  | some other =>
    unfold get? release
    rw [List.getElem?_modify]
    by_cases hid : other = id
    · subst hid
      cases hs[other]? <;> simp
    · simp [hid]

@[simp] theorem get?_cons_succ (h : Handle α) (id : ℕ) :
    get? (h :: hs) (id + 1) = hs.get? id := rfl

theorem get?_cons_zero (h : Handle α) :
    get? (h :: hs) 0 = if h.live then some h.value else none := rfl

theorem lt_of_get? {id : ℕ} {a : α} (h : hs.get? id = some a) : id < hs.length := by
  obtain ⟨handle, hid, -⟩ := Option.bind_eq_some_iff.mp h
  exact (List.getElem?_eq_some_iff.mp hid).1

/-! ## What is live -/

section
variable {β : Type} {g : α → Option β}

theorem filterMap_live_cons (h : Handle α) :
    (live (h :: hs)).filterMap g =
      ((if h.live then some h.value else none).bind g).toList ++ hs.live.filterMap g := by
  unfold live
  rw [List.filterMap_cons]
  cases h.live with
  | false => rfl
  | true =>
    simp only [if_true, Option.bind_some, List.filterMap_cons]
    cases g h.value <;> rfl

theorem filterMap_live_eq_nil (h : ∀ id a, hs.get? id = some a → g a = none) :
    hs.live.filterMap g = [] := by
  induction hs with
  | nil => rfl
  | cons handle rest ih =>
    have hhead := h 0
    rw [get?_cons_zero] at hhead
    rw [filterMap_live_cons, ih fun id => h (id + 1), List.append_nil, Option.toList_eq_nil_iff,
      Option.bind_eq_none_iff]
    exact hhead

/-- Where one live handle alone has something to show, this is all that is seen. -/
theorem filterMap_live_eq_singleton {id : ℕ} {a : α} {b : β} (hid : hs.get? id = some a)
    (hb : g a = some b) (honly : ∀ j x, hs.get? j = some x → j ≠ id → g x = none) :
    hs.live.filterMap g = [b] := by
  induction hs generalizing id with
  | nil => cases hid
  | cons handle rest ih =>
    rw [filterMap_live_cons]
    cases id with
    | zero =>
      rw [get?_cons_zero] at hid
      rw [hid, Option.bind_some, hb,
        filterMap_live_eq_nil fun j x hj => honly (j + 1) x hj (Nat.succ_ne_zero j)]
      rfl
    | succ id =>
      have hhead := honly 0
      rw [get?_cons_zero] at hhead
      rw [ih hid fun j x hj hne => honly (j + 1) x hj (by omega),
        Option.bind_eq_none_iff.mpr fun x hx => hhead x hx (Nat.succ_ne_zero id).symm]
      rfl

end

end Handles

end OpenGps.Lib
