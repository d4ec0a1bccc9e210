import Mathlib.Data.Nat.Digits.Lemmas
import Mathlib.Tactic

/-!
# Positional numerals, first digit first

`digits b n` are the digits of `n` to base `b` in the order in which they are
written down, with none for zero; `padded b k n` are exactly `k` digits, with
zeros in front. A writer that scans a word from its first digit on and one that
divides produce the same digits (`digits_eq_padded`, `padded_top`), and a reader
that multiplies and adds gets the number back (`foldl_digits`).
-/

namespace EtyOS.Library.Numeral

variable {b n : ℕ}

/-- The digits of a number, the first one not zero. -/
def digits (b n : ℕ) : List ℕ := (Nat.digits b n).reverse

@[simp] theorem digits_zero (b : ℕ) : digits b 0 = [] := by simp [digits]

/-- The last digit is the remainder. -/
theorem digits_of_pos (hb : 1 < b) (hn : 0 < n) : digits b n = digits b (n / b) ++ [n % b] := by
  rw [digits, Nat.digits_def' hb hn, List.reverse_cons]
  rfl

theorem digits_lt (hb : 1 < b) {d : ℕ} (hd : d ∈ digits b n) : d < b :=
  Nat.digits_lt_base hb (List.mem_reverse.mp hd)

/-- There are no leading zeros. -/
theorem head_digits_ne_zero {d : ℕ} (hd : (digits b n).head? = some d) : d ≠ 0 := by
  rw [digits, List.head?_reverse] at hd
  have hn : n ≠ 0 := by
    rintro rfl
    simp at hd
  rw [← List.getLast_of_getLast?_eq_some hd]
  exact Nat.getLast_digit_ne_zero b hn

/-- Reading the digits from the left gives the number back. -/
theorem foldl_digits (b n : ℕ) : (digits b n).foldl (fun v d => b * v + d) 0 = n := by
  rw [digits, List.foldl_reverse]
  conv_rhs => rw [← Nat.ofDigits_digits b n, Nat.ofDigits_eq_foldr]
  simp only [Nat.cast_id, Nat.add_comm]

theorem length_digits_le (hb : 1 < b) {k : ℕ} (hn : n < b ^ k) : (digits b n).length ≤ k := by
  rw [digits, List.length_reverse]
  exact (Nat.digits_length_le_iff hb n).mpr hn

/-- The last `k` digits of a number, zeros in front. -/
def padded (b : ℕ) : ℕ → ℕ → List ℕ
  | 0, _ => []
  | k + 1, n => padded b k (n / b) ++ [n % b]

/-- The first of `k + 1` digits stands for a multiple of `b ^ k`. -/
theorem padded_top {d w k : ℕ} (hb : 0 < b) (hd : d < b) (hw : w < b ^ k) :
    padded b (k + 1) (d * b ^ k + w) = d :: padded b k w := by
  induction k generalizing w with
  | zero =>
    obtain rfl : w = 0 := by simpa using hw
    simp [padded, Nat.mod_eq_of_lt hd]
  | succ k ih =>
    have hsplit : d * b ^ (k + 1) + w = w + b * (d * b ^ k) := by ring
    have hdiv : (d * b ^ (k + 1) + w) / b = d * b ^ k + w / b := by
      rw [hsplit, Nat.add_mul_div_left _ _ hb, Nat.add_comm]
    have hmod : (d * b ^ (k + 1) + w) % b = w % b := by
      rw [hsplit, Nat.add_mul_mod_self_left]
    have hw' : w / b < b ^ k := by
      rw [Nat.div_lt_iff_lt_mul hb]
      rwa [pow_succ] at hw
    rw [padded, hdiv, hmod, ih hw', padded, List.cons_append]

/-- A number with exactly `k + 1` digits needs no zeros in front. -/
theorem digits_eq_padded {k : ℕ} (hb : 1 < b) (hlow : b ^ k ≤ n) (hhigh : n < b ^ (k + 1)) :
    digits b n = padded b (k + 1) n := by
  have hbpos : 0 < b := by omega
  induction k generalizing n with
  | zero =>
    rw [pow_zero] at hlow
    have hzero : n / b = 0 := Nat.div_eq_of_lt (by simpa using hhigh)
    rw [digits_of_pos hb hlow, padded, hzero, digits_zero]
    rfl
  | succ k ih =>
    have hpos : 0 < n := lt_of_lt_of_le (Nat.pow_pos hbpos) hlow
    have hlow' : b ^ k ≤ n / b := by
      rw [Nat.le_div_iff_mul_le hbpos]
      rwa [pow_succ] at hlow
    have hhigh' : n / b < b ^ (k + 1) := by
      rw [Nat.div_lt_iff_lt_mul hbpos]
      rwa [pow_succ] at hhigh
    rw [digits_of_pos hb hpos, ih hlow' hhigh']
    rfl

end EtyOS.Library.Numeral
