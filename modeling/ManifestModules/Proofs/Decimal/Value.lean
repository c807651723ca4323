import ManifestModules.Decimal.Shortest
import Mathlib.Algebra.Order.Field.Power
import Mathlib.Algebra.Order.Ring.Rat
import Mathlib.Tactic.FieldSimp
import Mathlib.Tactic.NormNum
import Mathlib.Tactic.Positivity
import Mathlib.Tactic.Ring

/-!
# Values of numbers

The rational number that a finite binary64 number stands for, and the one that a decimal stands for.
Powers with an integral exponent are held as fractions of natural numbers, so that every comparison
of the model is one of rationals.
-/

namespace ManifestModules.Decimal

@[simp] theorem twoPow_eq (k : ℕ) : twoPow k = 2 ^ k := rfl

@[simp] theorem tenPow_eq (k : ℕ) : tenPow k = 10 ^ k := rfl

theorem pow_toNat (b : ℚ) (hb : b ≠ 0) (q : ℤ) : b ^ q.toNat = b ^ q * b ^ (-q).toNat := by
  rw [← zpow_natCast, ← zpow_natCast, ← zpow_add₀ hb]
  congr 1
  omega

def Scaled.value (s : Scaled) : ℚ := s.digits * 10 ^ s.exponent

namespace Magnitude

def value (x : Magnitude) : ℚ := x.m * 2 ^ x.q

/-- What holds of the magnitude of every finite number. -/
structure Formed (x : Magnitude) : Prop where
  lt : x.m < 2 ^ 53
  normal : x.q = -1074 ∨ 2 ^ 52 ≤ x.m
  exponent_le : x.q ≤ 971

theorem value_nonneg (x : Magnitude) : 0 ≤ x.value := by
  rw [value]
  positivity

theorem value_eq_zero_iff {x : Magnitude} : x.value = 0 ↔ x.m = 0 := by
  simp [value, zpow_ne_zero]

end Magnitude

namespace Binary64

variable {x : Binary64}

def value (x : Binary64) : ℚ := if x.isNegative then -x.magnitude.value else x.magnitude.value

theorem fractionField_lt (x : Binary64) : x.fractionField < 2 ^ 52 :=
  Nat.mod_lt _ (by norm_num)

theorem isFinite_iff : x.isFinite = true ↔ x.exponentField < 2047 :=
  decide_eq_true_iff

theorem formed_magnitude (finite : x.isFinite = true) : x.magnitude.Formed := by
  have hfraction := x.fractionField_lt
  have hexponent := isFinite_iff.1 finite
  rw [magnitude]
  split
  · exact ⟨by simp only; omega, .inl rfl, by norm_num⟩
  · exact ⟨by simp only [twoPow_eq]; omega, .inr (by simp), by simp only; omega⟩

theorem toRatio_pos (x : Binary64) : 0 < x.toRatio.2 := by
  simp [toRatio]

/-- A magnitude is the quotient of its fraction. -/
theorem value_magnitude (x : Binary64) :
    x.magnitude.value = (x.toRatio.1 : ℚ) / x.toRatio.2 := by
  simp only [toRatio, Magnitude.value, twoPow_eq, Nat.cast_mul, Nat.cast_pow, Nat.cast_ofNat,
    pow_toNat 2 two_ne_zero x.magnitude.q]
  field_simp

/-- A quotient is an integer exactly if nothing remains. -/
theorem div_eq_intCast_iff {n d : ℕ} (hd : 0 < d) {k : ℤ} :
    (n : ℚ) / d = k ↔ n % d = 0 ∧ ((n / d : ℕ) : ℤ) = k := by
  have hd' : (d : ℚ) ≠ 0 := by positivity
  constructor
  · intro h
    have hmul : (n : ℤ) = d * k := by exact_mod_cast (div_eq_iff hd').1 h |>.trans (mul_comm _ _)
    obtain ⟨c, rfl⟩ : d ∣ n := Int.natCast_dvd_natCast.1 ⟨k, hmul⟩
    rw [Nat.mul_mod_right, Nat.mul_div_cancel_left c hd]
    have hd'' : (d : ℤ) ≠ 0 := by positivity
    exact ⟨rfl, mul_left_cancel₀ hd'' (by rw [← hmul, Nat.cast_mul])⟩
  · rintro ⟨hmod, rfl⟩
    obtain ⟨c, rfl⟩ := Nat.dvd_of_mod_eq_zero hmod
    rw [Nat.mul_div_cancel_left c hd, Nat.cast_mul, mul_div_cancel_left₀ _ hd', Int.cast_natCast]

theorem toInt?_eq_some {k : ℤ} : x.toInt? = some k ↔ x.isFinite = true ∧ x.value = k := by
  have hpositive : x.magnitude.value = k ↔
      x.toRatio.1 % x.toRatio.2 = 0 ∧ ((x.toRatio.1 / x.toRatio.2 : ℕ) : ℤ) = k := by
    rw [value_magnitude, div_eq_intCast_iff x.toRatio_pos]
  have hnegative : -x.magnitude.value = k ↔
      x.toRatio.1 % x.toRatio.2 = 0 ∧ -((x.toRatio.1 / x.toRatio.2 : ℕ) : ℤ) = k := by
    rw [neg_eq_iff_eq_neg, ← Int.cast_neg, value_magnitude, div_eq_intCast_iff x.toRatio_pos,
      neg_eq_iff_eq_neg]
  rw [toInt?, value]
  cases x.isFinite with
  | false => simp
  | true =>
    cases x.isNegative with
    | false => simp [hpositive]
    | true => simp [hnegative]

theorem value_magnitude_of_value {k : ℤ} (h : x.value = k) : x.magnitude.value = k.natAbs := by
  have hnonneg := x.magnitude.value_nonneg
  rw [Nat.cast_natAbs, Int.cast_abs, ← h, value]
  split
  · rw [abs_neg, abs_of_nonneg hnonneg]
  · rw [abs_of_nonneg hnonneg]

theorem isNegative_iff {k : ℤ} (h : x.value = k) (hk : k ≠ 0) : x.isNegative = true ↔ k < 0 := by
  have hpositive : 0 < x.magnitude.value := by
    rw [value_magnitude_of_value h]
    positivity
  rw [value] at h
  split at h
  next hsign =>
    have hlt : (k : ℚ) < 0 := by
      rw [← h]
      exact neg_lt_zero.2 hpositive
    simpa [hsign] using hlt
  next hsign =>
    have hle : 0 ≤ (k : ℚ) := by
      rw [← h]
      exact hpositive.le
    simpa [hsign] using hle

end Binary64

end ManifestModules.Decimal
