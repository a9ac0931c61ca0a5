import Mathlib.Data.Nat.Digits.Defs
import Mathlib.Data.Nat.Digits.Lemmas

/-!
# Numbers as text

* `render b n`: the digits of `n` in base `b ≤ 16`, most significant first, as bytes; `0` has
  one digit.
* `readDigits b`: the number a text of digits denotes.
* `readDigits_render`: what is written is read back.
* `render_length_le_iff`: the numbers below `b ^ k` are those with at most `k` digits.
-/

namespace Digits

/-- The byte of a digit below 16, in lower case. -/
def digitByte (d : ℕ) : UInt8 := UInt8.ofNat (if d < 10 then 48 + d else 87 + d)

/-- The value of a digit byte; a letter counts in either case. -/
def byteDigit (c : UInt8) : ℕ :=
  if c ≤ 57 then c.toNat - 48 else if c ≤ 70 then c.toNat - 55 else c.toNat - 87

/-- A digit of base 16. -/
def isHexDigit (c : UInt8) : Bool :=
  (48 ≤ c && c ≤ 57) || (65 ≤ c && c ≤ 70) || (97 ≤ c && c ≤ 102)

/-- The text of `n` in base `b`. -/
def render (b n : ℕ) : List UInt8 :=
  if n = 0 then [48] else (Nat.digits b n).reverse.map digitByte

/-- The number a text of digits denotes. -/
def readDigits (b : ℕ) (text : List UInt8) : ℕ :=
  text.foldl (fun n c => n * b + byteDigit c) 0

theorem toNat_digitByte {d : ℕ} (h : d < 16) :
    (digitByte d).toNat = if d < 10 then 48 + d else 87 + d := by
  unfold digitByte
  rw [UInt8.toNat_ofNat']
  split_ifs <;> omega

theorem byteDigit_digitByte {d : ℕ} (h : d < 16) : byteDigit (digitByte d) = d := by
  have hval := toNat_digitByte h
  unfold byteDigit
  by_cases hd : d < 10
  · rw [if_pos hd] at hval
    have hle : digitByte d ≤ 57 := UInt8.le_iff_toNat_le.mpr (by rw [hval]; simp; omega)
    rw [if_pos hle, hval]
    omega
  · rw [if_neg hd] at hval
    have hnle : ¬ digitByte d ≤ 57 := fun hle => by
      have := UInt8.le_iff_toNat_le.mp hle
      rw [hval] at this
      simp at this
      omega
    have hnle' : ¬ digitByte d ≤ 70 := fun hle => by
      have := UInt8.le_iff_toNat_le.mp hle
      rw [hval] at this
      simp at this
      omega
    rw [if_neg hnle, if_neg hnle', hval]
    omega

theorem isHexDigit_digitByte {d : ℕ} (h : d < 16) : isHexDigit (digitByte d) = true := by
  have hall : ∀ d < 16, isHexDigit (digitByte d) = true := by decide
  exact hall d h

/-- **Round trip** of a number. -/
theorem readDigits_render {b : ℕ} (hb : 1 < b) (hb16 : b ≤ 16) (n : ℕ) :
    readDigits b (render b n) = n := by
  unfold readDigits render
  by_cases hn : n = 0
  · subst hn
    rw [if_pos rfl, List.foldl_cons, List.foldl_nil, Nat.zero_mul]
    rfl
  rw [if_neg hn, List.foldl_map, List.foldl_reverse]
  have hfold : ∀ ds : List ℕ, (∀ d ∈ ds, d < b) →
      ds.foldr (fun d acc => acc * b + byteDigit (digitByte d)) 0 = Nat.ofDigits b ds := by
    intro ds
    induction ds with
    | nil => intro _; rfl
    | cons d ds ih =>
        intro h
        have hd : d < 16 := lt_of_lt_of_le (h d List.mem_cons_self) hb16
        rw [List.foldr_cons, ih fun e he => h e (List.mem_cons_of_mem d he), Nat.ofDigits_cons,
          byteDigit_digitByte hd, Nat.mul_comm, Nat.add_comm]
  rw [hfold _ fun d hd => Nat.digits_lt_base hb hd, Nat.ofDigits_digits]

/-- The bytes of a text in base `b` are digits below `b`. -/
theorem exists_digit_of_mem_render {b n : ℕ} (hb : 1 < b) {c : UInt8} (h : c ∈ render b n) :
    ∃ d, d < b ∧ c = digitByte d := by
  unfold render at h
  split_ifs at h with hn
  · rw [List.mem_singleton] at h
    exact ⟨0, by omega, h⟩
  · obtain ⟨d, hd, rfl⟩ := List.mem_map.mp h
    exact ⟨d, Nat.digits_lt_base hb (List.mem_reverse.mp hd), rfl⟩

theorem render_ne_nil {b n : ℕ} : render b n ≠ [] := by
  unfold render
  split_ifs with hn
  · simp
  · simp [Nat.digits_ne_nil_iff_ne_zero, hn]

theorem render_length_le_iff {b n k : ℕ} (hb : 1 < b) (hk : 0 < k) :
    (render b n).length ≤ k ↔ n < b ^ k := by
  unfold render
  split_ifs with hn
  · rw [hn]
    exact iff_of_true hk (Nat.pow_pos (Nat.zero_lt_of_lt hb))
  · rw [List.length_map, List.length_reverse]
    exact Nat.digits_length_le_iff hb n

theorem render_length_le {b n k : ℕ} (hb : 1 < b) (hk : 0 < k) (h : n < b ^ k) :
    (render b n).length ≤ k := (render_length_le_iff hb hk).mpr h

theorem isHexDigit_of_mem_render {b n : ℕ} (hb : 1 < b) (hb16 : b ≤ 16) {c : UInt8}
    (h : c ∈ render b n) : isHexDigit c = true := by
  obtain ⟨d, hd, rfl⟩ := exists_digit_of_mem_render hb h
  exact isHexDigit_digitByte (lt_of_lt_of_le hd hb16)

end Digits
