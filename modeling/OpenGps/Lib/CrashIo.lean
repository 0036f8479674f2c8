import Mathlib.Data.List.Basic
import Mathlib.Logic.Function.Basic

/-!
# File programs that can fail and lose power

Programs over a small set of files, in the style of crash Hoare logic. A program of type `Io P α`
runs on a `Disk P`: the contents of the files and a script of faults, one entry for each file
operation the program will perform. An operation whose entry is `Fault.fail` reports an error, one
whose entry is `Fault.cut` ends the program there with whatever already reached the disk; a script
that has run out means that the remaining operations complete.

`wp x Q C d` says that `x` started on `d` either returns with `Q` or loses power with `C`. The rules
below give, for each file operation, every disk it can leave behind, with the script entry that
explains it; a script without such entries then rules the case out.
-/

namespace OpenGps.Lib.CrashIo

/-- What the environment does to one file operation. -/
inductive Fault where
  /-- the operation completes -/
  | ok
  /-- the operation reports an error, `kept` bytes of a write having been stored -/
  | fail (kept : Nat)
  /-- the power is lost during the operation, `kept` bytes of a write having been stored -/
  | cut (kept : Nat)
  deriving DecidableEq, Repr

/-- The files, the script, and how many writes to each file have completed; no program reads the
last, which is there for bounds on the life of a file. -/
structure Disk (P : Type) where
  files : P → Option (List UInt8)
  faults : List Fault
  written : P → Nat

/-- A program: it returns a value, or loses power (`none`); either way it leaves a disk. -/
def Io (P α : Type) := Disk P → Option α × Disk P

variable {P α β : Type}

instance : Monad (Io P) where
  pure a := fun d => (some a, d)
  bind x f := fun d =>
    match x d with
    | (some a, d') => f a d'
    | (none, d') => (none, d')

/-- One step of a program, on a given disk. -/
theorem run_bind (x : Io P α) (f : α → Io P β) (d : Disk P) :
    (x >>= f) d = match x d with
      | (some a, d') => f a d'
      | (none, d') => (none, d') := by
  show (match x d with | (some a, d') => f a d' | (none, d') => (none, d')) = _
  rcases x d with ⟨_ | a, d'⟩ <;> rfl

/-! ## File operations -/

inductive Mode where
  | read | update | write
  deriving DecidableEq, Repr

structure File (P : Type) where
  path : P
  pos : Nat
  deriving DecidableEq

/-- The script entry of the next operation. -/
def nextFault : Io P Fault := fun d =>
  match d.faults with
  | [] => (some .ok, d)
  | e :: es => (some e, { d with faults := es })

def powerLost : Io P α := fun d => (none, d)

def contents (p : P) : Io P (Option (List UInt8)) := fun d => (some (d.files p), d)

variable [DecidableEq P]

def setContents (p : P) (bs : List UInt8) : Io P Unit := fun d =>
  (some (), { d with files := Function.update d.files p (some bs) })

/-- One more write to the file has completed. -/
def countWrite (p : P) : Io P Unit := fun d =>
  (some (), { d with written := Function.update d.written p (d.written p + 1) })

/-- `c` with `bs` stored from offset `pos` on; a gap before `pos` is filled with zeros. -/
def overlay (c : List UInt8) (pos : Nat) (bs : List UInt8) : List UInt8 :=
  if bs = [] then c
  else (c ++ List.replicate (pos - c.length) 0).take pos ++ bs ++ c.drop (pos + bs.length)

/-- Modes `r`, `r+` and `w`. The first two need the file to exist; `w` creates or empties it, and
may have done so even when it is interrupted. -/
def openFile (p : P) (mode : Mode) : Io P (Option (File P)) := do
  match ← nextFault with
  | .ok =>
    if mode = .write then
      setContents p []
      return some ⟨p, 0⟩
    else if (← contents p).isSome then
      return some ⟨p, 0⟩
    else
      return none
  | .fail kept =>
    if mode = .write ∧ kept ≠ 0 then setContents p []
    return none
  | .cut kept =>
    if mode = .write ∧ kept ≠ 0 then setContents p []
    powerLost

/-- Whether the file exists. -/
def fileExists (p : P) : Io P Bool := do
  match ← nextFault with
  | .ok => return (← contents p).isSome
  | .fail _ => return false
  | .cut _ => powerLost

def File.seek (f : File P) (pos : Nat) : Io P (Option (File P)) := do
  match ← nextFault with
  | .ok => return some { f with pos := pos }
  | .fail _ => return none
  | .cut _ => powerLost

/-- The bytes a file holds from `pos` on, at most `n` of them. -/
def slice (c : Option (List UInt8)) (pos n : Nat) : List UInt8 :=
  ((c.getD []).drop pos).take n

/-- Reads at most `n` bytes at the position; an error makes the read short. -/
def File.read (f : File P) (n : Nat) : Io P (List UInt8) := do
  match ← nextFault with
  | .ok => return slice (← contents f.path) f.pos n
  | .fail kept => return (slice (← contents f.path) f.pos n).take (min kept (n - 1))
  | .cut _ => powerLost

/-- Writes `bs` at the position and returns how many bytes were stored, followed by flush and
close: what a write reports as stored is durable. -/
def File.write (f : File P) (bs : List UInt8) : Io P Nat := do
  let c := (← contents f.path).getD []
  match ← nextFault with
  | .ok =>
    setContents f.path (overlay c f.pos bs)
    countWrite f.path
    return bs.length
  | .fail kept =>
    setContents f.path (overlay c f.pos (bs.take (min kept (bs.length - 1))))
    return min kept (bs.length - 1)
  | .cut kept =>
    setContents f.path (overlay c f.pos (bs.take kept))
    if bs.length ≤ kept then countWrite f.path
    powerLost

/-! ## Overlays and slices -/

theorem getElem?_overlay {old bs : List UInt8} {pos : Nat} (hbs : bs ≠ []) (i : Nat) :
    (overlay old pos bs)[i]? =
      if i < pos then (if i < old.length then old[i]? else some 0)
      else if i < pos + bs.length then bs[i - pos]? else old[i]? := by
  have hlen : ((old ++ List.replicate (pos - old.length) (0 : UInt8)).take pos).length = pos := by
    simp only [List.length_take, List.length_append, List.length_replicate]
    omega
  rw [overlay, if_neg hbs, List.append_assoc, List.getElem?_append, hlen]
  split_ifs with h1 h2 h3
  · rw [List.getElem?_take_of_lt h1, List.getElem?_append_left h2]
  · rw [List.getElem?_take_of_lt h1, List.getElem?_append_right (by omega),
      List.getElem?_replicate, if_pos (by omega)]
  · rw [List.getElem?_append_left (by omega)]
  · rw [List.getElem?_append_right (by omega), List.getElem?_drop]
    congr 1
    omega

@[simp] theorem overlay_nil {c : List UInt8} {pos : Nat} : overlay c pos [] = c := by
  simp [overlay]

/-- What was stored is read back. -/
theorem slice_overlay_self {c bs : List UInt8} {pos : Nat} (hbs : bs ≠ []) :
    slice (some (overlay c pos bs)) pos bs.length = bs := by
  apply List.ext_getElem?
  intro i
  simp only [slice, Option.getD_some]
  by_cases hi : i < bs.length
  · rw [List.getElem?_take_of_lt hi, List.getElem?_drop, getElem?_overlay hbs, if_neg (by omega),
      if_pos (by omega), Nat.add_sub_cancel_left]
  · rw [List.getElem?_eq_none (by simp; omega), List.getElem?_eq_none (by omega)]

/-- A region that the file already held in full is untouched by a store outside it. -/
theorem slice_overlay_disjoint {c bs : List UInt8} {pos q n : Nat}
    (hfull : (slice (some c) q n).length = n) (hdis : q + n ≤ pos ∨ pos + bs.length ≤ q) :
    slice (some (overlay c pos bs)) q n = slice (some c) q n := by
  by_cases hbs : bs = []
  · rw [hbs, overlay_nil]
  simp only [slice, Option.getD_some, List.length_take, List.length_drop] at hfull ⊢
  apply List.ext_getElem?
  intro i
  by_cases hi : i < n
  · rw [List.getElem?_take_of_lt hi, List.getElem?_take_of_lt hi, List.getElem?_drop,
      List.getElem?_drop, getElem?_overlay hbs]
    split_ifs <;> first | rfl | omega
  · rw [List.getElem?_eq_none (by simp; omega), List.getElem?_eq_none (by simp; omega)]

/-! ## Weakest preconditions with a crash condition -/

/-- `x` started on `d` returns with `Q`, or loses power with `C`. -/
def wp (x : Io P α) (Q : α → Disk P → Prop) (C : Disk P → Prop) (d : Disk P) : Prop :=
  match x d with
  | (some a, d') => Q a d'
  | (none, d') => C d'

section Rules
variable {Q : β → Disk P → Prop} {C : Disk P → Prop} {d : Disk P}

omit [DecidableEq P] in
@[simp] theorem wp_pure {a : β} : wp (pure a) Q C d ↔ Q a d := Iff.rfl

omit [DecidableEq P] in
theorem wp_bind {x : Io P α} {f : α → Io P β} :
    wp (x >>= f) Q C d ↔ wp x (fun a d' => wp (f a) Q C d') C d := by
  show (match (match x d with | (some a, d') => f a d' | (none, d') => (none, d')) with
    | (some a, d') => Q a d' | (none, d') => C d') ↔ _
  unfold wp
  rcases x d with ⟨_ | a, d'⟩ <;> rfl

omit [DecidableEq P] in
@[simp] theorem wp_powerLost : wp powerLost Q C d ↔ C d := Iff.rfl

@[simp] theorem wp_setContents {Q : Unit → Disk P → Prop} {p : P} {bs : List UInt8} :
    wp (setContents p bs) Q C d ↔ Q () { d with files := Function.update d.files p (some bs) } :=
  Iff.rfl

@[simp] theorem wp_countWrite {Q : Unit → Disk P → Prop} {p : P} :
    wp (countWrite p) Q C d ↔
      Q () { d with written := Function.update d.written p (d.written p + 1) } :=
  Iff.rfl

omit [DecidableEq P] in
/-- The rule of consequence. -/
theorem wp_mono {x : Io P β} {Q' : β → Disk P → Prop} {C' : Disk P → Prop}
    (h : wp x Q C d) (hQ : ∀ a d', Q a d' → Q' a d') (hC : ∀ d', C d' → C' d') :
    wp x Q' C' d := by
  unfold wp at *
  rcases hx : x d with ⟨_ | a, d'⟩ <;> simp only [hx] at h ⊢
  · exact hC _ h
  · exact hQ _ _ h

omit [DecidableEq P] in
/-- A second fact about what a program returns joins the first. -/
theorem wp_and {x : Io P β} {Q Q' : β → Disk P → Prop} {C' : Disk P → Prop} (h : wp x Q C d)
    (h' : wp x Q' C' d) : wp x (fun a d' => Q a d' ∧ Q' a d') C d := by
  unfold wp at *
  rcases hx : x d with ⟨_ | a, d'⟩ <;> simp only [hx] at h h' ⊢
  · exact h
  · exact ⟨h, h'⟩

omit [DecidableEq P] in
/-- A fact about every run of a program, read off the value it returned. -/
theorem wp_of_returns {x : Io P β} {a : β} {d' : Disk P} (h : wp x Q C d)
    (hx : x d = (some a, d')) : Q a d' := by
  simpa [wp, hx] using h

omit [DecidableEq P] in
/-- A program that cannot lose power returns. -/
theorem returns_of_wp {x : Io P β} (h : wp x Q (fun _ => False) d) :
    ∃ a d', x d = (some a, d') ∧ Q a d' := by
  unfold wp at h
  rcases hx : x d with ⟨_ | a, d'⟩ <;> simp only [hx] at h
  exact ⟨a, d', rfl, h⟩

omit [DecidableEq P] in
/-- A fact about every run of a program, read off the disk it left when the power was lost. -/
theorem wp_of_powerLost {x : Io P β} {d' : Disk P} (h : wp x Q C d)
    (hx : x d = (none, d')) : C d' := by
  simpa [wp, hx] using h

omit [DecidableEq P] in
private theorem wp_nextFault {Q : Fault → Disk P → Prop}
    (hok : ∀ es ⊆ d.faults, Q .ok ⟨d.files, es, d.written⟩)
    (hfault : ∀ e ∈ d.faults, ∀ es ⊆ d.faults, Q e ⟨d.files, es, d.written⟩) :
    wp nextFault Q C d := by
  unfold wp nextFault
  rcases h : d.faults with _ | ⟨e, es⟩
  · have h' := hok d.faults (List.Subset.refl _)
    exact h'
  · exact hfault e (by simp [h]) es (by simp [h])

/-- The contents after a truncating open that was interrupted: emptied or not. -/
def Emptied (files : P → Option (List UInt8)) (p : P) (files' : P → Option (List UInt8)) : Prop :=
  files' = files ∨ files' = Function.update files p (some [])

theorem wp_openFile_read {Q : Option (File P) → Disk P → Prop} {p : P} {mode : Mode}
    (hmode : mode ≠ .write)
    (hopen : (d.files p).isSome → ∀ es ⊆ d.faults, Q (some ⟨p, 0⟩) ⟨d.files, es, d.written⟩)
    (hnone : (d.files p = none ∨ ∃ k, .fail k ∈ d.faults) →
      ∀ es ⊆ d.faults, Q none ⟨d.files, es, d.written⟩)
    (hcut : ∀ k, .cut k ∈ d.faults → ∀ es, C ⟨d.files, es, d.written⟩) :
    wp (openFile p mode) Q C d := by
  have hok : ∀ es ⊆ d.faults, wp (do
      if mode = .write then
        setContents p []
        return some ⟨p, 0⟩
      else if (← contents p).isSome then
        return some ⟨p, 0⟩
      else
        return none) Q C ⟨d.files, es, d.written⟩ := by
    intro es hes
    rw [if_neg hmode]
    show wp (if (d.files p).isSome then pure (some ⟨p, 0⟩) else pure none) Q C ⟨d.files, es, d.written⟩
    split
    · next h => exact hopen h es hes
    · next h => exact hnone (.inl (by simpa using h)) es hes
  rw [openFile, wp_bind]
  apply wp_nextFault hok
  intro e he es hes
  cases e with
  | ok => exact hok es hes
  | fail k =>
    simp only [hmode, false_and, if_false]
    exact hnone (.inr ⟨k, he⟩) es hes
  | cut k =>
    simp only [hmode, false_and, if_false]
    exact hcut k he es

theorem wp_openFile_write {Q : Option (File P) → Disk P → Prop} {p : P}
    (hopen : ∀ es ⊆ d.faults, Q (some ⟨p, 0⟩) ⟨Function.update d.files p (some []), es, d.written⟩)
    (hfail : ∀ k, .fail k ∈ d.faults → ∀ es ⊆ d.faults, ∀ g, Emptied d.files p g →
      Q none ⟨g, es, d.written⟩)
    (hcut : ∀ k, .cut k ∈ d.faults → ∀ es g, Emptied d.files p g → C ⟨g, es, d.written⟩) :
    wp (openFile p .write) Q C d := by
  rw [openFile, wp_bind]
  apply wp_nextFault
  · exact hopen
  intro e he es hes
  cases e with
  | ok => exact hopen es hes
  | fail k =>
    by_cases hk : k = 0
    · simpa [hk] using hfail k he es hes d.files (.inl rfl)
    · simpa [hk, wp_bind] using hfail k he es hes _ (.inr rfl)
  | cut k =>
    by_cases hk : k = 0
    · simpa [hk] using hcut k he es d.files (.inl rfl)
    · simpa [hk, wp_bind] using hcut k he es _ (.inr rfl)

omit [DecidableEq P] in
theorem wp_fileExists {Q : Bool → Disk P → Prop} {p : P}
    (hok : ∀ es ⊆ d.faults, Q (d.files p).isSome ⟨d.files, es, d.written⟩)
    (hfail : ∀ k, .fail k ∈ d.faults → ∀ es ⊆ d.faults, Q false ⟨d.files, es, d.written⟩)
    (hcut : ∀ k, .cut k ∈ d.faults → ∀ es, C ⟨d.files, es, d.written⟩) :
    wp (fileExists p) Q C d := by
  rw [fileExists, wp_bind]
  apply wp_nextFault
  · exact hok
  intro e he es hes
  cases e with
  | ok => exact hok es hes
  | fail k => exact hfail k he es hes
  | cut k => exact hcut k he es

omit [DecidableEq P] in
theorem wp_seek {Q : Option (File P) → Disk P → Prop} {f : File P} {pos : Nat}
    (hok : ∀ es ⊆ d.faults, Q (some { f with pos := pos }) ⟨d.files, es, d.written⟩)
    (hfail : ∀ k, .fail k ∈ d.faults → ∀ es ⊆ d.faults, Q none ⟨d.files, es, d.written⟩)
    (hcut : ∀ k, .cut k ∈ d.faults → ∀ es, C ⟨d.files, es, d.written⟩) :
    wp (f.seek pos) Q C d := by
  rw [File.seek, wp_bind]
  apply wp_nextFault
  · exact hok
  intro e he es hes
  cases e with
  | ok => exact hok es hes
  | fail k => exact hfail k he es hes
  | cut k => exact hcut k he es

omit [DecidableEq P] in
theorem wp_read {Q : List UInt8 → Disk P → Prop} {f : File P} {n : Nat} (hn : 0 < n)
    (hok : ∀ es ⊆ d.faults, Q (slice (d.files f.path) f.pos n) ⟨d.files, es, d.written⟩)
    (hfail : ∀ k, .fail k ∈ d.faults → ∀ es ⊆ d.faults, ∀ bs : List UInt8, bs.length < n →
      Q bs ⟨d.files, es, d.written⟩)
    (hcut : ∀ k, .cut k ∈ d.faults → ∀ es, C ⟨d.files, es, d.written⟩) :
    wp (f.read n) Q C d := by
  rw [File.read, wp_bind]
  apply wp_nextFault
  · exact hok
  intro e he es hes
  cases e with
  | ok => exact hok es hes
  | fail k => exact hfail k he es hes _ (by simp only [List.length_take]; omega)
  | cut k => exact hcut k he es

/-- A write that was cut has stored a part, or all of it without reporting so. -/
theorem wp_write {Q : Nat → Disk P → Prop} {f : File P} {bs : List UInt8} (hbs : bs ≠ [])
    (hok : ∀ es ⊆ d.faults, Q bs.length
      ⟨Function.update d.files f.path (some (overlay ((d.files f.path).getD []) f.pos bs)), es,
        Function.update d.written f.path (d.written f.path + 1)⟩)
    (hfail : ∀ k, .fail k ∈ d.faults → ∀ es ⊆ d.faults, ∀ n < bs.length, Q n
      ⟨Function.update d.files f.path
        (some (overlay ((d.files f.path).getD []) f.pos (bs.take n))), es, d.written⟩)
    (hcut : ∀ k, .cut k ∈ d.faults → ∀ es, ∀ n < bs.length, C
      ⟨Function.update d.files f.path
        (some (overlay ((d.files f.path).getD []) f.pos (bs.take n))), es, d.written⟩)
    (hdone : ∀ k, .cut k ∈ d.faults → ∀ es, C
      ⟨Function.update d.files f.path (some (overlay ((d.files f.path).getD []) f.pos bs)), es,
        Function.update d.written f.path (d.written f.path + 1)⟩) :
    wp (f.write bs) Q C d := by
  have hlen : 0 < bs.length := List.length_pos_iff.mpr hbs
  show wp (nextFault >>= _) Q C d
  rw [wp_bind]
  apply wp_nextFault
  · exact hok
  intro e he es hes
  cases e with
  | ok => exact hok es hes
  | fail k => exact hfail k he es hes _ (by omega)
  | cut k =>
    by_cases hk : bs.length ≤ k
    · simpa [hk, wp_bind, List.take_of_length_le hk] using hdone k he es
    · simpa [hk, wp_bind] using hcut k he es k (by omega)

end Rules

/-! ## Operations, entry by entry

The rules above forget where in the script an entry stands. These say what the first entry makes of
an operation, for programs in which it matters at which operation the power is lost. -/

section Entries
variable {d : Disk P}

@[simp] theorem getD_tail (faults : List Fault) (i : Nat) :
    faults.tail.getD i .ok = faults.getD (i + 1) .ok := by
  cases faults <;> rfl

/-- What the script does to an operation stands in it. -/
theorem mem_of_getD {faults : List Fault} {i : Nat} {e : Fault} (h : faults.getD i .ok = e)
    (he : e ≠ .ok) : e ∈ faults := by
  rw [List.getD_eq_getElem?_getD] at h
  rcases hi : faults[i]? with _ | e'
  · rw [hi] at h
    exact absurd h.symm he
  · rw [hi] at h
    exact List.mem_of_getElem? (hi.trans (congrArg some h))

omit [DecidableEq P] in
theorem nextFault_run (d : Disk P) :
    nextFault d = (some (d.faults.getD 0 .ok), ⟨d.files, d.faults.tail, d.written⟩) := by
  rcases d with ⟨files, _ | ⟨e, es⟩, written⟩ <;> rfl

theorem openFile_update_run {p : P} {base : List UInt8} (hbase : d.files p = some base) :
    openFile p .update d =
      (match d.faults.getD 0 .ok with
        | .ok => some (some (⟨p, 0⟩ : File P))
        | .fail _ => some none
        | .cut _ => none, ⟨d.files, d.faults.tail, d.written⟩) := by
  unfold openFile
  rw [run_bind, nextFault_run]
  rcases d.faults.getD 0 .ok with _ | k | k
  · show (if (d.files p).isSome then pure (some (⟨p, 0⟩ : File P)) else pure none :
      Io P (Option (File P))) ⟨d.files, d.faults.tail, d.written⟩ = _
    rw [hbase]
    rfl
  · rfl
  · rfl

theorem openFile_write_run (p : P) :
    openFile p .write d = match d.faults.getD 0 .ok with
      | .ok => (some (some (⟨p, 0⟩ : File P)),
          ⟨Function.update d.files p (some []), d.faults.tail, d.written⟩)
      | .fail k => (some none,
          ⟨if k ≠ 0 then Function.update d.files p (some []) else d.files, d.faults.tail, d.written⟩)
      | .cut k => (none,
          ⟨if k ≠ 0 then Function.update d.files p (some []) else d.files, d.faults.tail,
            d.written⟩) := by
  unfold openFile
  rw [run_bind, nextFault_run]
  rcases d.faults.getD 0 .ok with _ | k | k
  · rfl
  all_goals
    cases k <;> rfl

omit [DecidableEq P] in
theorem seek_run (f : File P) (pos : Nat) :
    f.seek pos d =
      (match d.faults.getD 0 .ok with
        | .ok => some (some ({ f with pos := pos } : File P))
        | .fail _ => some none
        | .cut _ => none, ⟨d.files, d.faults.tail, d.written⟩) := by
  unfold File.seek
  rw [run_bind, nextFault_run]
  rcases d.faults.getD 0 .ok with _ | k | k <;> rfl

theorem write_run (f : File P) (bs : List UInt8) :
    f.write bs d = match d.faults.getD 0 .ok with
      | .ok => (some bs.length, ⟨Function.update d.files f.path
          (some (overlay ((d.files f.path).getD []) f.pos bs)), d.faults.tail,
            Function.update d.written f.path (d.written f.path + 1)⟩)
      | .fail k => (some (min k (bs.length - 1)), ⟨Function.update d.files f.path
          (some (overlay ((d.files f.path).getD []) f.pos (bs.take (min k (bs.length - 1))))),
            d.faults.tail, d.written⟩)
      | .cut k => (none, ⟨Function.update d.files f.path
          (some (overlay ((d.files f.path).getD []) f.pos (bs.take k))), d.faults.tail,
            if bs.length ≤ k then Function.update d.written f.path (d.written f.path + 1)
            else d.written⟩) := by
  show (nextFault >>= _) d = _
  rw [run_bind, nextFault_run]
  rcases d.faults.getD 0 .ok with _ | k | k
  · rfl
  · rfl
  · by_cases hk : bs.length ≤ k
    · dsimp only
      rw [if_pos hk]
      simp only [if_pos hk]
      rfl
    · dsimp only
      rw [if_neg hk]
      simp only [if_neg hk]
      rfl

end Entries

end OpenGps.Lib.CrashIo
