import Mathlib

/-! # Numerals of a fixed width

The `k` lowest digits of a number, most significant digit first, and when they are its canonical
numeral: where the number has exactly `k` digits. -/

namespace Digits

/-- The `k` lowest digits of `n` in base `b`, the most significant first. -/
def fixed (b : Nat) : Nat → Nat → List Nat
  | 0, _ => []
  | k + 1, n => n / b ^ k % b :: fixed b k n

variable {b k n : Nat}

/-- There are as many digits as asked for. -/
@[simp] theorem length_fixed (b k n : Nat) : (fixed b k n).length = k := by
  induction k with
  | zero => rfl
  | succ k ih => rw [fixed, List.length_cons, ih]

/-- Digits are less than the base. -/
theorem lt_of_mem_fixed {d : Nat} (hb : 0 < b) (h : d ∈ fixed b k n) : d < b := by
  induction k with
  | zero => cases h
  | succ k ih =>
      rcases List.mem_cons.mp h with rfl | h
      · exact Nat.mod_lt _ hb
      · exact ih h

/-- The lowest digits do not depend on the higher ones. -/
theorem fixed_mod {j : Nat} (hk : k ≤ j) (b n : Nat) : fixed b k (n % b ^ j) = fixed b k n := by
  induction k with
  | zero => rfl
  | succ k ih =>
      obtain ⟨i, rfl⟩ := Nat.exists_eq_add_of_le hk
      have hpow : b ^ (k + 1 + i) = b ^ k * (b * b ^ i) := by
        rw [Nat.pow_add, Nat.pow_succ, Nat.mul_assoc]
      have hdigit : n % b ^ (k + 1 + i) / b ^ k % b = n / b ^ k % b := by
        rw [hpow, Nat.mod_mul_right_div_self, Nat.mod_mul_right_mod]
      rw [fixed, fixed, hdigit, ih (by omega)]

/-- The last digit apart from the others. -/
theorem fixed_succ_right (b k n : Nat) : fixed b (k + 1) n = fixed b k (n / b) ++ [n % b] := by
  induction k with
  | zero => simp [fixed]
  | succ k ih =>
      rw [fixed, ih, fixed, List.cons_append, Nat.div_div_eq_div_mul, ← Nat.pow_succ']

/-- **A numeral of the number's own width is canonical.** -/
theorem toDigits_eq_fixed (hb : 1 < b) (hlt : n < b ^ (k + 1)) (hle : k = 0 ∨ b ^ k ≤ n) :
    Nat.toDigits b n = (fixed b (k + 1) n).map Nat.digitChar := by
  induction k generalizing n with
  | zero =>
      rw [Nat.pow_one] at hlt
      rw [Nat.toDigits_of_lt_base hlt]
      simp [fixed, Nat.mod_eq_of_lt hlt]
  | succ k ih =>
      have hpow : b ^ (k + 1) ≤ n := hle.resolve_left (by omega)
      have hbase : b ≤ n := Nat.le_trans (Nat.le_self_pow (by omega) b) hpow
      have hdiv : n / b < b ^ (k + 1) := Nat.div_lt_of_lt_mul (by rwa [← Nat.pow_succ'])
      have hlow : k = 0 ∨ b ^ k ≤ n / b := by
        right
        rw [Nat.le_div_iff_mul_le (by omega), ← Nat.pow_succ]
        exact hpow
      rw [Nat.toDigits_of_base_le hb hbase, ih hdiv hlow, fixed_succ_right b (k + 1),
        List.map_append, List.map_singleton]

end Digits
