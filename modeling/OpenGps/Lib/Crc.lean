import Mathlib.Algebra.CharP.Two
import Mathlib.Algebra.Field.ZMod
import Mathlib.Algebra.Polynomial.Degree.IsMonicOfDegree
import Mathlib.RingTheory.AdjoinRoot

/-!
# Cyclic redundancy checks

A word of bits is a polynomial over `GF(2)`: its first bit is the coefficient of the highest power,
and two words of one length differ by the sum of their polynomials. A reflected register of width
`w` shifts towards its least significant bit, which is the coefficient of `X ^ (w - 1)`, and adds
its taps when a one falls out. Modulo the generator `X ^ w + taps` a shift multiplies by `X`, so
that every message followed by its checksum leaves the same remainder, and the difference of two
of them is a multiple of the generator:

    poly_absorb        what a register holds after a chunk of bits
    dvd_of_codewords   the difference of two codewords
    not_dvd_of_odd, not_dvd_of_burst   the differences that no generator of the kind divides
-/

namespace OpenGps.Lib.Crc

open Polynomial

/-! ## Words of bits -/

/-- The polynomial of a word, its first bit at the highest power. -/
noncomputable def poly : List Bool → (ZMod 2)[X]
  | [] => 0
  | b :: bs => (if b then X ^ bs.length else 0) + poly bs

/-- The positions in which two words of one length differ. -/
def diff (as bs : List Bool) : List Bool := List.zipWith (fun a b => a ^^ b) as bs

@[simp] theorem poly_nil : poly [] = 0 := rfl

theorem poly_cons (b : Bool) (bs : List Bool) :
    poly (b :: bs) = (if b then X ^ bs.length else 0) + poly bs := rfl

theorem poly_append (as bs : List Bool) :
    poly (as ++ bs) = X ^ bs.length * poly as + poly bs := by
  induction as with
  | nil => simp
  | cons a as ih =>
    rw [List.cons_append, poly_cons, poly_cons, ih, List.length_append]
    cases a <;> simp
    ring

theorem poly_of_not_mem {bs : List Bool} (h : true ∉ bs) : poly bs = 0 := by
  induction bs with
  | nil => rfl
  | cons b bs ih =>
    obtain ⟨hb, hbs⟩ := not_or.mp (mt List.mem_cons.mpr h)
    rw [poly_cons, ih hbs, if_neg (Ne.symm hb), add_zero]

theorem poly_diff {as bs : List Bool} (h : as.length = bs.length) :
    poly (diff as bs) = poly as + poly bs := by
  induction as generalizing bs with
  | nil =>
    cases bs with
    | nil => simp [diff]
    | cons b bs => cases h
  | cons a as ih =>
    cases bs with
    | nil => cases h
    | cons b bs =>
      have hlen : as.length = bs.length := Nat.succ.inj h
      have hdiff : (diff as bs).length = bs.length := by simp [diff, hlen]
      -- Two leading bits that are both set cancel.
      have hbit : (if a ^^ b then X ^ bs.length else 0 : (ZMod 2)[X]) =
          (if a then X ^ bs.length else 0) + if b then X ^ bs.length else 0 := by
        cases a <;> cases b <;> simp [CharTwo.add_self_eq_zero]
      rw [show diff (a :: as) (b :: bs) = (a ^^ b) :: diff as bs from rfl, poly_cons, ih hlen,
        hdiff, hbit, poly_cons, poly_cons, hlen]
      ring

/-- At one, the polynomial counts the set bits modulo two. -/
theorem eval_one_poly (bs : List Bool) : (poly bs).eval 1 = (bs.count true : ZMod 2) := by
  induction bs with
  | nil => simp
  | cons b bs ih => cases b <;> simp [poly_cons, ih, add_comm]

theorem degree_poly_lt (bs : List Bool) : (poly bs).degree < bs.length := by
  induction bs with
  | nil => simp
  | cons b bs ih =>
    rw [poly_cons, List.length_cons]
    have hlt : (poly bs).degree < ((bs.length + 1 : ℕ) : WithBot ℕ) :=
      ih.trans (by exact_mod_cast Nat.lt_succ_self _)
    refine (degree_add_le _ _).trans_lt (max_lt ?_ hlt)
    cases b with
    | false => simp
    | true =>
      simp only [if_true, degree_X_pow]
      exact_mod_cast Nat.lt_succ_self _

theorem poly_ne_zero {bs : List Bool} (h : true ∈ bs) : poly bs ≠ 0 := by
  induction bs with
  | nil => cases h
  | cons b bs ih =>
    cases b with
    | false =>
      rw [poly_cons]
      simpa using ih (by simpa using h)
    | true =>
      -- The leading power is above every other one.
      intro hzero
      have hlead : (poly (true :: bs)).coeff bs.length = 1 := by
        rw [poly_cons, if_pos rfl, coeff_add, coeff_X_pow_self,
          coeff_eq_zero_of_degree_lt (degree_poly_lt bs), add_zero]
      rw [hzero] at hlead
      simp at hlead

/-! ## Errors no generator of the kind divides -/

/-- An error burst: some bits are flipped, all of them within `n` consecutive positions. -/
def Burst (n : ℕ) (e : List Bool) : Prop :=
  true ∈ e ∧ ∃ start, ∀ p, e[p]? = some true → start ≤ p ∧ p < start + n

/-- A burst is a short word moved up. -/
theorem Burst.poly_eq {n : ℕ} {e : List Bool} (h : Burst n e) :
    ∃ (k : ℕ) (b : List Bool), true ∈ b ∧ b.length ≤ n ∧ poly e = X ^ k * poly b := by
  obtain ⟨hmem, start, hin⟩ := h
  have hsplit : e = e.take start ++ ((e.drop start).take n ++ e.drop (start + n)) := by
    rw [← List.drop_drop, List.take_append_drop, List.take_append_drop]
  have hlow : true ∉ e.take start := by
    intro ht
    obtain ⟨p, hp⟩ := List.mem_iff_getElem?.mp ht
    rw [List.getElem?_take] at hp
    split at hp
    · next hlt =>
      have := hin p hp
      omega
    · cases hp
  have hhigh : true ∉ e.drop (start + n) := by
    intro ht
    obtain ⟨p, hp⟩ := List.mem_iff_getElem?.mp ht
    rw [List.getElem?_drop] at hp
    have := hin _ hp
    omega
  refine ⟨(e.drop (start + n)).length, (e.drop start).take n, ?_, List.length_take_le _ _, ?_⟩
  · rw [hsplit] at hmem
    simp only [List.mem_append, hlow, hhigh, false_or, or_false] at hmem
    exact hmem
  · conv_lhs => rw [hsplit]
    rw [poly_append, poly_append, poly_of_not_mem hlow, poly_of_not_mem hhigh, mul_zero, zero_add,
      add_zero]

theorem not_dvd_of_odd {g : (ZMod 2)[X]} {e : List Bool} (hg : g.eval 1 = 0)
    (h : Odd (e.count true)) : ¬ g ∣ poly e := by
  rintro ⟨q, hq⟩
  have heval : (poly e).eval 1 = 0 := by
    rw [hq, eval_mul, hg, zero_mul]
  rw [eval_one_poly, ZMod.natCast_eq_zero_iff] at heval
  exact Nat.not_even_iff_odd.mpr h (even_iff_two_dvd.mpr heval)

theorem not_dvd_of_burst {g : (ZMod 2)[X]} {e : List Bool} {n : ℕ} (hg : g.coeff 0 ≠ 0)
    (hdeg : (n : WithBot ℕ) ≤ g.degree) (h : Burst n e) : ¬ g ∣ poly e := by
  obtain ⟨k, b, hmem, hlen, hpoly⟩ := h.poly_eq
  rintro ⟨q, hq⟩
  -- `X` does not divide `g`, so the power of `X` in front of the burst divides the quotient.
  have hX : ¬ X ∣ g := fun hdvd => hg (X_dvd_iff.mp hdvd)
  obtain ⟨r, rfl⟩ : X ^ k ∣ q := by
    apply prime_X.pow_dvd_of_dvd_mul_left k hX
    exact ⟨poly b, by rw [← hq, hpoly]⟩
  have hb : poly b = g * r := by
    apply mul_left_cancel₀ (pow_ne_zero k X_ne_zero)
    rw [← hpoly, hq]
    ring
  have hle : g.degree ≤ (poly b).degree := degree_le_of_dvd ⟨r, hb⟩ (poly_ne_zero hmem)
  have hlt : (poly b).degree < n := (degree_poly_lt b).trans_le (by exact_mod_cast hlen)
  exact absurd (hdeg.trans hle) hlt.not_ge

/-! ## The shift register -/

/-- The bits of a chunk, least significant first. -/
def bits {n : ℕ} (c : BitVec n) : List Bool := List.ofFn fun i : Fin n => c.getLsbD i

@[simp] theorem length_bits {n : ℕ} (c : BitVec n) : (bits c).length = n := by
  simp [bits]

theorem bits_succ {n : ℕ} (c : BitVec (n + 1)) :
    bits c = c.getLsbD 0 :: List.ofFn fun i : Fin n => c.getLsbD (i + 1) := by
  simp [bits, List.ofFn_succ]

theorem bits_shiftRight {n : ℕ} (c : BitVec (n + 1)) :
    bits (c >>> 1) = (List.ofFn fun i : Fin n => c.getLsbD (i + 1)) ++ [false] := by
  rw [bits, List.ofFn_succ', List.concat_eq_append]
  simp [add_comm]

theorem bits_xor {n : ℕ} (c c' : BitVec n) : bits (c ^^^ c') = diff (bits c) (bits c') := by
  apply List.ext_getElem
  · simp [diff]
  · intro i hi hi'
    simp [bits, diff]

theorem bits_setWidth {n w : ℕ} (h : n ≤ w) (c : BitVec n) :
    bits (c.setWidth w) = bits c ++ List.replicate (w - n) false := by
  apply List.ext_getElem
  · simp
    omega
  · intro i hi hi'
    simp only [length_bits] at hi
    by_cases hn : i < n
    · rw [List.getElem_append_left (by simpa using hn)]
      simp [bits, BitVec.getLsbD_eq_getElem hn]
    · rw [List.getElem_append_right (by simpa using hn)]
      simp [bits, BitVec.getLsbD_of_ge _ _ (not_lt.mp hn)]

variable {w : ℕ} (taps : BitVec w)

/-- One step of the reflected register. -/
def shift (s : BitVec w) : BitVec w :=
  if s.getLsbD 0 then (s >>> 1) ^^^ taps else s >>> 1

/-- Take in a chunk of `n` bits. -/
def absorb {n : ℕ} (s : BitVec w) (c : BitVec n) : BitVec w :=
  (shift taps)^[n] (s ^^^ c.setWidth w)

/-- The checksum of a message of chunks. -/
def checksum {n : ℕ} (init : BitVec w) (msg : List (BitVec n)) : BitVec w :=
  msg.foldl (absorb taps) init

/-- A message followed by its checksum, bit by bit. -/
def codeword {n : ℕ} (init : BitVec w) (msg : List (BitVec n)) : List Bool :=
  msg.flatMap bits ++ bits (checksum taps init msg)

noncomputable def generator : (ZMod 2)[X] := X ^ w + poly (bits taps)

/-- A shift multiplies by `X`, modulo the generator. -/
theorem poly_shift (s : BitVec w) :
    AdjoinRoot.mk (generator taps) (poly (bits (shift taps s))) =
      AdjoinRoot.mk (generator taps) (X * poly (bits s)) := by
  cases w with
  | zero => simp [bits]
  | succ k =>
    have hright : poly (bits (s >>> 1)) =
        X * poly (List.ofFn fun i : Fin k => s.getLsbD (i + 1)) := by
      rw [bits_shiftRight, poly_append]
      simp [poly_cons]
    have hleft : poly (bits s) = (if s.getLsbD 0 then X ^ k else 0) +
        poly (List.ofFn fun i : Fin k => s.getLsbD (i + 1)) := by
      rw [bits_succ, poly_cons, List.length_ofFn]
    by_cases hout : s.getLsbD 0
    · -- The bit that falls out is `X ^ w`, which is the taps.
      rw [shift, if_pos hout, bits_xor, poly_diff (by simp), hright, hleft, if_pos hout, mul_add,
        AdjoinRoot.mk_eq_mk]
      refine ⟨1, ?_⟩
      rw [generator]
      linear_combination -(CharTwo.add_self_eq_zero (X ^ (k + 1) : (ZMod 2)[X]))
    · rw [shift, if_neg hout, hright, hleft, if_neg hout, zero_add]

theorem poly_shift_iterate (n : ℕ) (s : BitVec w) :
    AdjoinRoot.mk (generator taps) (poly (bits ((shift taps)^[n] s))) =
      AdjoinRoot.mk (generator taps) (X ^ n * poly (bits s)) := by
  induction n generalizing s with
  | zero => simp
  | succ n ih =>
    rw [Function.iterate_succ_apply, ih, map_mul, poly_shift, ← map_mul]
    refine congrArg _ ?_
    ring

theorem poly_absorb {n : ℕ} (hn : n ≤ w) (s : BitVec w) (c : BitVec n) :
    AdjoinRoot.mk (generator taps) (poly (bits (absorb taps s c))) =
      AdjoinRoot.mk (generator taps) (X ^ n * poly (bits s) + X ^ w * poly (bits c)) := by
  have hpad : poly (List.replicate (w - n) false) = 0 := poly_of_not_mem (by simp)
  rw [absorb, poly_shift_iterate, bits_xor, poly_diff (by simp), bits_setWidth hn, poly_append,
    hpad, List.length_replicate]
  refine congrArg _ ?_
  have hpow : (X : (ZMod 2)[X]) ^ w = X ^ n * X ^ (w - n) := by
    rw [← pow_add, Nat.add_sub_cancel' hn]
  rw [hpow]
  ring

/-- What the register holds after a message, from any state. -/
theorem poly_checksum {n : ℕ} (hn : n ≤ w) (msg : List (BitVec n)) (s : BitVec w) :
    AdjoinRoot.mk (generator taps) (poly (bits (checksum taps s msg))) =
      AdjoinRoot.mk (generator taps)
        (X ^ (n * msg.length) * poly (bits s) + X ^ w * poly (msg.flatMap bits)) := by
  induction msg generalizing s with
  | nil => simp [checksum]
  | cons c msg ih =>
    have hlen : (msg.flatMap bits).length = n * msg.length := by
      simp [List.length_flatMap, mul_comm]
    rw [checksum, List.foldl_cons, ← checksum, ih, map_add, map_mul, poly_absorb taps hn, ← map_mul,
      ← map_add, List.flatMap_cons, poly_append, hlen, List.length_cons]
    refine congrArg _ ?_
    ring

/-- Every codeword of one length leaves the same remainder. -/
theorem poly_codeword {n : ℕ} (hn : n ≤ w) (init : BitVec w) (msg : List (BitVec n)) :
    AdjoinRoot.mk (generator taps) (poly (codeword taps init msg)) =
      AdjoinRoot.mk (generator taps) (X ^ (n * msg.length) * poly (bits init)) := by
  rw [codeword, poly_append, length_bits, map_add, poly_checksum taps hn, ← map_add]
  refine congrArg _ ?_
  linear_combination CharTwo.add_self_eq_zero (X ^ w * poly (msg.flatMap bits))

theorem dvd_of_codewords {n : ℕ} (hn : n ≤ w) (init : BitVec w) {msg msg' : List (BitVec n)}
    (hlen : msg.length = msg'.length) :
    generator taps ∣ poly (diff (codeword taps init msg) (codeword taps init msg')) := by
  have hword : ∀ m : List (BitVec n), (codeword taps init m).length = n * m.length + w := by
    intro m
    simp [codeword, List.length_flatMap, mul_comm]
  rw [poly_diff (by rw [hword, hword, hlen]), ← AdjoinRoot.mk_eq_zero, map_add,
    poly_codeword taps hn, poly_codeword taps hn, hlen, ← map_add, CharTwo.add_self_eq_zero,
    map_zero]

/-! ## Errors a checksum detects -/

section Generator
variable {taps}

theorem degree_generator : (generator taps).degree = w := by
  rw [generator, degree_add_eq_left_of_degree_lt, degree_X_pow]
  rw [degree_X_pow]
  simpa using degree_poly_lt (bits taps)

theorem coeff_zero_generator (hw : w ≠ 0) (htop : taps.getLsbD (w - 1) = true) :
    (generator taps).coeff 0 ≠ 0 := by
  cases w with
  | zero => exact absurd rfl hw
  | succ k =>
    have hlast : bits taps = (List.ofFn fun i : Fin k => taps.getLsbD i) ++ [true] := by
      rw [bits, List.ofFn_succ', List.concat_eq_append]
      simpa using htop
    rw [generator, hlast, poly_append]
    simp [poly_cons]

theorem eval_one_generator (hodd : Odd ((bits taps).count true)) :
    (generator taps).eval 1 = 0 := by
  obtain ⟨k, hk⟩ := hodd
  rw [generator, eval_add, eval_one_poly, hk]
  have htwo : (2 : ZMod 2) = 0 := rfl
  push_cast
  rw [eval_pow, eval_X, one_pow, htwo]
  ring_nf
  rfl

end Generator

/-- No two codewords of one length differ in an odd number of bits, when an odd number of taps is
set. -/
theorem not_odd_of_codewords {n : ℕ} (hn : n ≤ w) (hodd : Odd ((bits taps).count true))
    (init : BitVec w) {msg msg' : List (BitVec n)} (hlen : msg.length = msg'.length) :
    ¬ Odd ((diff (codeword taps init msg) (codeword taps init msg')).count true) := fun h =>
  not_dvd_of_odd (eval_one_generator hodd) h (dvd_of_codewords taps hn init hlen)

/-- Nor do they differ by a burst no longer than the register, when the last tap is set. -/
theorem not_burst_of_codewords {n : ℕ} (hn : n ≤ w) (hw : w ≠ 0)
    (htop : taps.getLsbD (w - 1) = true) (init : BitVec w) {msg msg' : List (BitVec n)}
    (hlen : msg.length = msg'.length) :
    ¬ Burst w (diff (codeword taps init msg) (codeword taps init msg')) := fun h =>
  not_dvd_of_burst (coeff_zero_generator hw htop) degree_generator.ge h
    (dvd_of_codewords taps hn init hlen)

end OpenGps.Lib.Crc
