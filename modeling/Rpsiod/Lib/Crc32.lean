import Mathlib

/-!
# CRC-32

The checksum as a remainder of polynomials over the field of two elements, and a shift register that
computes it bit by bit.

* `crc32`: what it is.
* `polynomial_shift`: one step of the register multiplies by `X`.
* `crc32_eq`: **the register holds the remainder**.
-/

namespace Crc32

open Polynomial

/-! ### The checksum -/

/-- The generator of CRC-32. -/
noncomputable def generator : (ZMod 2)[X] :=
  X ^ 32 + X ^ 26 + X ^ 23 + X ^ 22 + X ^ 16 + X ^ 12 + X ^ 11 + X ^ 10 + X ^ 8 + X ^ 7 + X ^ 5 +
    X ^ 4 + X ^ 2 + X + 1

/-- The bits of the bytes, the lowest bit of each one first. -/
def bits (data : List UInt8) : List Bool :=
  data.flatMap fun byte => (List.range 8).map fun i => byte.toNat.testBit i

/-- The polynomial with these coefficients, the highest one first. -/
noncomputable def ofBits : List Bool → (ZMod 2)[X]
  | [] => 0
  | bit :: rest => (if bit then X ^ rest.length else 0) + ofBits rest

/-- The message, with its first 32 bits inverted, times `X ^ 32`, modulo the generator. -/
noncomputable def remainder (data : List UInt8) : (ZMod 2)[X] :=
  (X ^ 32 * ofBits (bits data) + X ^ (8 * data.length) * ofBits (List.replicate 32 true)) %ₘ
    generator

/-- CRC-32: the inverted coefficients of the remainder, the highest one lowest. -/
noncomputable def crc32 (data : List UInt8) : BitVec 32 :=
  BitVec.ofNat 32 (Nat.ofBits fun i : Fin 32 => decide ((remainder data).coeff (31 - i.val) = 0))

/-! ### The register -/

/-- The polynomial of a register, its lowest bit the highest coefficient. -/
noncomputable def polynomial (r : BitVec 32) : (ZMod 2)[X] :=
  ∑ i ∈ Finset.range 32, if r.getLsbD (31 - i) then X ^ i else 0

/-- One step. -/
def shift (r : BitVec 32) : BitVec 32 :=
  if r.getLsbD 0 then (r >>> 1) ^^^ 0xEDB88320#32 else r >>> 1

/-- A byte goes in, in eight steps. -/
def byteStep (r : BitVec 32) (byte : UInt8) : BitVec 32 :=
  shift^[8] (r ^^^ byte.toBitVec.setWidth 32)

/-- The register behind the bytes. -/
def register (r : BitVec 32) (data : List UInt8) : BitVec 32 := data.foldl byteStep r

theorem coeff_polynomial (r : BitVec 32) (n : ℕ) :
    (polynomial r).coeff n = if n < 32 ∧ r.getLsbD (31 - n) = true then 1 else 0 := by
  unfold polynomial
  rw [finsetSum_coeff]
  have hterm : ∀ i, (if r.getLsbD (31 - i) then (X : (ZMod 2)[X]) ^ i else 0).coeff n =
      if n = i then (if r.getLsbD (31 - i) then 1 else 0) else 0 := by
    intro i
    split_ifs with hbit hn
    · rw [coeff_X_pow, if_pos hn]
    · rw [coeff_X_pow, if_neg hn]
    · exact coeff_zero n
    · exact coeff_zero n
  rw [Finset.sum_congr rfl fun i _ => hterm i, Finset.sum_ite_eq]
  by_cases hn : n < 32
  · rw [if_pos (Finset.mem_range.mpr hn)]
    simp only [hn, true_and]
  · rw [if_neg fun hmem => hn (Finset.mem_range.mp hmem), if_neg fun h => hn h.1]

theorem polynomial_xor (a b : BitVec 32) : polynomial (a ^^^ b) = polynomial a + polynomial b := by
  ext n
  rw [coeff_add, coeff_polynomial, coeff_polynomial, coeff_polynomial, BitVec.getLsbD_xor]
  by_cases hn : n < 32
  · cases a.getLsbD (31 - n) <;> cases b.getLsbD (31 - n) <;> simp [hn]
    decide
  · simp [hn]

theorem degree_polynomial_lt (r : BitVec 32) : (polynomial r).degree < 32 := by
  refine (degree_lt_iff_coeff_zero _ 32).mpr fun n hn => ?_
  rw [coeff_polynomial, if_neg]
  intro h
  omega

/-- What falls out of the register is the highest coefficient. -/
theorem X_mul_polynomial (r : BitVec 32) :
    X * polynomial r = polynomial (r >>> 1) + if r.getLsbD 0 then X ^ 32 else 0 := by
  ext n
  have hcoeff : ((if r.getLsbD 0 then X ^ 32 else 0 : (ZMod 2)[X])).coeff n =
      if n = 32 ∧ r.getLsbD 0 = true then 1 else 0 := by
    split_ifs with hbit hn hn
    · rw [coeff_X_pow, if_pos hn.1]
    · rw [coeff_X_pow, if_neg fun h => hn ⟨h, hbit⟩]
    · exact absurd hn.2 hbit
    · exact coeff_zero n
  rw [coeff_add, hcoeff, coeff_polynomial]
  cases n with
  | zero =>
      rw [mul_coeff_zero, coeff_X_zero, zero_mul]
      simp
  | succ n =>
      rw [coeff_X_mul, coeff_polynomial, BitVec.getLsbD_ushiftRight]
      by_cases hlast : n = 31
      · simp [hlast]
      · by_cases hn : n + 1 < 32
        · rw [show 1 + (31 - (n + 1)) = 31 - n by omega]
          simp [hn, show n < 32 by omega, show n + 1 ≠ 32 by omega]
        · simp [hn, show ¬ n < 32 by omega, show n + 1 ≠ 32 by omega]

theorem generator_eq : generator = X ^ 32 + polynomial 0xEDB88320#32 := by
  unfold generator polynomial
  simp [Finset.sum_range_succ]
  ring

theorem polynomial_shift (r : BitVec 32) :
    polynomial (shift r) = X * polynomial r + if r.getLsbD 0 then generator else 0 := by
  rw [X_mul_polynomial]
  unfold shift
  cases r.getLsbD 0 with
  | true =>
      rw [if_pos rfl, if_pos rfl, if_pos rfl, polynomial_xor, generator_eq]
      -- `X ^ 32` cancels
      rw [add_assoc, ← add_assoc (X ^ 32) (X ^ 32), CharTwo.add_self_eq_zero, zero_add]
  | false =>
      rw [if_neg Bool.false_ne_true, if_neg Bool.false_ne_true, if_neg Bool.false_ne_true, add_zero,
        add_zero]

/-- The two polynomials have the same remainder. -/
def Congruent (p q : (ZMod 2)[X]) : Prop := generator ∣ p - q

theorem Congruent.refl (p : (ZMod 2)[X]) : Congruent p p := by
  unfold Congruent
  rw [sub_self]
  exact dvd_zero _

theorem Congruent.trans {p q r : (ZMod 2)[X]} (h : Congruent p q) (h' : Congruent q r) :
    Congruent p r := by
  unfold Congruent at h h' ⊢
  rw [← sub_add_sub_cancel p q r]
  exact dvd_add h h'

theorem Congruent.mul_left {p q : (ZMod 2)[X]} (h : Congruent p q) (a : (ZMod 2)[X]) :
    Congruent (a * p) (a * q) := by
  unfold Congruent at h ⊢
  rw [← mul_sub]
  exact dvd_mul_of_dvd_right h a

theorem Congruent.add_right {p q : (ZMod 2)[X]} (h : Congruent p q) (a : (ZMod 2)[X]) :
    Congruent (p + a) (q + a) := by
  unfold Congruent at h ⊢
  rw [add_sub_add_right_eq_sub]
  exact h

/-- **One step multiplies by `X`.** -/
theorem congruent_shift (r : BitVec 32) : Congruent (polynomial (shift r)) (X * polynomial r) := by
  unfold Congruent
  rw [polynomial_shift, add_sub_cancel_left]
  split_ifs
  · exact dvd_rfl
  · exact dvd_zero _

theorem congruent_shift_iterate (r : BitVec 32) (k : ℕ) :
    Congruent (polynomial (shift^[k] r)) (X ^ k * polynomial r) := by
  induction k with
  | zero =>
      rw [pow_zero, one_mul]
      exact .refl _
  | succ k ih =>
      rw [Function.iterate_succ_apply', pow_succ', mul_assoc]
      exact (congruent_shift _).trans (ih.mul_left X)

/-! ### Bytes -/

theorem ofBits_append (a b : List Bool) :
    ofBits (a ++ b) = X ^ b.length * ofBits a + ofBits b := by
  induction a with
  | nil =>
      rw [List.nil_append, ofBits, mul_zero, zero_add]
  | cons bit a ih =>
      rw [List.cons_append, ofBits, ofBits, ih, List.length_append]
      split_ifs
      · ring
      · ring

theorem length_bits (data : List UInt8) : (bits data).length = 8 * data.length := by
  induction data with
  | nil => rfl
  | cons byte data ih =>
      have hsplit : bits (byte :: data) =
          (List.range 8).map (fun i => byte.toNat.testBit i) ++ bits data := rfl
      rw [hsplit, List.length_append, ih, List.length_map, List.length_range, List.length_cons]
      ring

/-- A byte as the highest coefficients of a register. -/
theorem polynomial_byte (byte : UInt8) :
    polynomial (byte.toBitVec.setWidth 32) = X ^ 24 * ofBits (bits [byte]) := by
  have hbit : ∀ i, i < 32 → (byte.toBitVec.setWidth 32).getLsbD i = byte.toNat.testBit i := by
    intro i hi
    rw [BitVec.getLsbD_setWidth, decide_eq_true hi, Bool.true_and]
    rfl
  have hhigh : ∀ i, 8 ≤ i → byte.toNat.testBit i = false := by
    intro i hi
    exact Nat.testBit_lt_two_pow (byte.toNat_lt.trans_le (Nat.pow_le_pow_right (by decide) hi))
  unfold polynomial
  rw [show 32 = 24 + 8 from rfl, Finset.sum_range_add]
  have hlow : ∀ i ∈ Finset.range 24,
      (if (byte.toBitVec.setWidth 32).getLsbD (31 - i) then (X : (ZMod 2)[X]) ^ i else 0) = 0 := by
    intro i hi
    have hi' := Finset.mem_range.mp hi
    rw [hbit _ (by omega), hhigh _ (by omega), if_neg Bool.false_ne_true]
  have hrest : ∀ i ∈ Finset.range 8,
      (if (byte.toBitVec.setWidth 32).getLsbD (31 - (24 + i)) then
        (X : (ZMod 2)[X]) ^ (24 + i) else 0) =
      X ^ 24 * if byte.toNat.testBit (7 - i) then X ^ i else 0 := by
    intro i hi
    have hi' := Finset.mem_range.mp hi
    rw [hbit _ (by omega), show 31 - (24 + i) = 7 - i by omega, pow_add, mul_ite, mul_zero]
  rw [Finset.sum_eq_zero hlow, zero_add, Finset.sum_congr rfl hrest, ← Finset.mul_sum]
  congr 1
  unfold bits
  simp [List.range_succ, ofBits, Finset.sum_range_succ]
  ring

theorem congruent_byteStep (r : BitVec 32) (byte : UInt8) :
    Congruent (polynomial (byteStep r byte))
      (X ^ 32 * ofBits (bits [byte]) + X ^ 8 * polynomial r) := by
  have hsteps := congruent_shift_iterate (r ^^^ byte.toBitVec.setWidth 32) 8
  rw [polynomial_xor, polynomial_byte] at hsteps
  have hshape : X ^ 8 * (polynomial r + X ^ 24 * ofBits (bits [byte])) =
      X ^ 32 * ofBits (bits [byte]) + X ^ 8 * polynomial r := by ring
  rw [hshape] at hsteps
  exact hsteps

/-- **The register behind the bytes**, up to multiples of the generator. -/
theorem congruent_register (r : BitVec 32) (data : List UInt8) :
    Congruent (polynomial (register r data))
      (X ^ 32 * ofBits (bits data) + X ^ (8 * data.length) * polynomial r) := by
  induction data generalizing r with
  | nil =>
      have hshape : X ^ 32 * ofBits (bits []) + X ^ (8 * ([] : List UInt8).length) * polynomial r =
          polynomial r := by
        rw [show bits [] = [] from rfl, ofBits, List.length_nil]
        ring
      rw [hshape]
      exact .refl _
  | cons byte data ih =>
      have hrest := ih (byteStep r byte)
      have hfirst := ((congruent_byteStep r byte).mul_left (X ^ (8 * data.length))).add_right
        (X ^ 32 * ofBits (bits data))
      have hsplit : bits (byte :: data) = bits [byte] ++ bits data := by
        unfold bits
        rw [← List.flatMap_append]
        rfl
      have hshape : X ^ (8 * data.length) *
            (X ^ 32 * ofBits (bits [byte]) + X ^ 8 * polynomial r) + X ^ 32 * ofBits (bits data) =
          X ^ 32 * ofBits (bits (byte :: data)) +
            X ^ (8 * (byte :: data).length) * polynomial r := by
        rw [hsplit, ofBits_append, length_bits, List.length_cons]
        ring
      rw [hshape] at hfirst
      rw [add_comm] at hrest
      exact hrest.trans hfirst

theorem generator_monic : generator.Monic := by
  unfold generator
  monicity!

theorem degree_generator : generator.degree = 32 := by
  unfold generator
  compute_degree!

/-- A register of ones. -/
theorem polynomial_ones :
    polynomial 0xFFFFFFFF#32 = ofBits (List.replicate 32 true) := by
  unfold polynomial
  simp [Finset.sum_range_succ, List.replicate, ofBits]
  ring

theorem polynomial_register (data : List UInt8) :
    polynomial (register 0xFFFFFFFF#32 data) = remainder data := by
  have hcongruent := congruent_register 0xFFFFFFFF#32 data
  rw [polynomial_ones] at hcongruent
  have hself : polynomial (register 0xFFFFFFFF#32 data) %ₘ generator =
      polynomial (register 0xFFFFFFFF#32 data) := by
    rw [modByMonic_eq_self_iff generator_monic, degree_generator]
    exact degree_polynomial_lt _
  rw [← hself]
  exact modByMonic_eq_of_dvd_sub generator_monic hcongruent

/-- **The register computes CRC-32**: from all ones, and inverted at the end. -/
theorem crc32_eq (data : List UInt8) : crc32 data = ~~~ register 0xFFFFFFFF#32 data := by
  apply BitVec.eq_of_getLsbD_eq
  intro i hi
  unfold crc32
  rw [BitVec.getLsbD_ofNat, decide_eq_true hi, Bool.true_and, Nat.testBit_ofBits_lt _ i hi,
    ← polynomial_register, coeff_polynomial, BitVec.getLsbD_not, decide_eq_true hi, Bool.true_and]
  have hindex : 31 - (31 - i) = i := by omega
  dsimp only
  rw [hindex]
  cases (register 0xFFFFFFFF#32 data).getLsbD i with
  | true => simp [show 31 - i < 32 by omega]
  | false => simp

end Crc32
