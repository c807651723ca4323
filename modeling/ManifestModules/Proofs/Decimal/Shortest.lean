import ManifestModules.Proofs.Decimal.Value
import Mathlib.Tactic.Linarith

/-!
# Shortest decimals of large numbers

The decimals of one exponent are a grid. The one that is taken from a grid lies at most half a unit
in the last place away from the number, and is the number itself if that lies on the grid. Coarser
grids come first, but two integers are further apart than that as long as the number is small, so
its shortest decimal is then the number. That of a large number still has as many digits before the
point.
-/

namespace ManifestModules.Decimal.Magnitude

variable {x : Magnitude} {c : ℕ} {g : ℤ} {s : Scaled}

/-! ## Grids -/

/-- The two sides of every comparison with a grid are rationals times one common factor. -/
theorem exists_quarterUnit (x : Magnitude) (g : ℤ) :
    ∃ t : ℚ, 0 < t ∧ ((x.quarterUnit g).1 : ℚ) = t * 2 ^ (x.q - 2) ∧
      ((x.quarterUnit g).2 : ℚ) = t * 10 ^ g := by
  refine ⟨2 ^ (2 - x.q).toNat * 10 ^ (-g).toNat, by positivity, ?_, ?_⟩
  · simp only [quarterUnit, twoPow_eq, tenPow_eq, Nat.cast_mul, Nat.cast_pow, Nat.cast_ofNat,
      pow_toNat 2 two_ne_zero (x.q - 2), neg_sub]
    ring
  · simp only [quarterUnit, twoPow_eq, tenPow_eq, Nat.cast_mul, Nat.cast_pow, Nat.cast_ofNat,
      pow_toNat 10 (by norm_num) g]
    ring

theorem quarterUnit_pos (x : Magnitude) (g : ℤ) :
    0 < (x.quarterUnit g).1 ∧ 0 < (x.quarterUnit g).2 := by
  simp [quarterUnit]

theorem quarters_le_iff {a : ℕ} : a * (x.quarterUnit g).1 ≤ c * (x.quarterUnit g).2 ↔
    (a : ℚ) * 2 ^ (x.q - 2) ≤ c * 10 ^ g := by
  obtain ⟨t, ht, hunit, hgrid⟩ := x.exists_quarterUnit g
  rw [← Nat.cast_le (α := ℚ), Nat.cast_mul, Nat.cast_mul, hunit, hgrid, mul_left_comm,
    mul_left_comm (c : ℚ), mul_le_mul_iff_right₀ ht]

theorem le_quarters_iff {a : ℕ} : c * (x.quarterUnit g).2 ≤ a * (x.quarterUnit g).1 ↔
    (c : ℚ) * 10 ^ g ≤ a * 2 ^ (x.q - 2) := by
  obtain ⟨t, ht, hunit, hgrid⟩ := x.exists_quarterUnit g
  rw [← Nat.cast_le (α := ℚ), Nat.cast_mul, Nat.cast_mul, hunit, hgrid, mul_left_comm,
    mul_left_comm (a : ℚ), mul_le_mul_iff_right₀ ht]

theorem value_eq_quarters (x : Magnitude) : x.value = (4 * x.m : ℕ) * 2 ^ (x.q - 2) := by
  rw [value, zpow_sub₀ two_ne_zero]
  push_cast
  ring

theorem eq_value_iff : c * (x.quarterUnit g).2 = 4 * x.m * (x.quarterUnit g).1 ↔
    (c : ℚ) * 10 ^ g = x.value := by
  rw [value_eq_quarters, le_antisymm_iff, le_antisymm_iff, quarters_le_iff, le_quarters_iff]

theorem le_value_iff : c * (x.quarterUnit g).2 ≤ 4 * x.m * (x.quarterUnit g).1 ↔
    (c : ℚ) * 10 ^ g ≤ x.value := by
  rw [value_eq_quarters, le_quarters_iff]

theorem belowPower_iff {k : ℤ} : x.belowPower k = true ↔ x.value < 10 ^ k := by
  have h := le_value_iff (x := x) (c := 1) (g := k)
  rw [one_mul, Nat.cast_one, one_mul] at h
  simp only [belowPower, decide_eq_true_eq, ← not_le, h]

/-- A decimal that reads back is at most half a unit in the last place away. -/
theorem abs_sub_le_of_readsBack (h : x.readsBack c g = true) :
    |c * 10 ^ g - x.value| ≤ 2 ^ (x.q - 1) := by
  have hlow : (4 * x.m - 2) * (x.quarterUnit g).1 ≤
      (if x.narrowBelow then 4 * x.m - 1 else 4 * x.m - 2) * (x.quarterUnit g).1 := by
    apply Nat.mul_le_mul_right
    split <;> omega
  have hbounds : (4 * x.m - 2) * (x.quarterUnit g).1 ≤ c * (x.quarterUnit g).2 ∧
      c * (x.quarterUnit g).2 ≤ (4 * x.m + 2) * (x.quarterUnit g).1 := by
    simp only [readsBack] at h
    split at h
    · simp only [Bool.and_eq_true, decide_eq_true_eq] at h
      exact ⟨hlow.trans h.1, h.2⟩
    · simp only [Bool.and_eq_true, decide_eq_true_eq] at h
      exact ⟨hlow.trans h.1.le, h.2.le⟩
  have hunit : (2 : ℚ) ^ (x.q - 1) = 2 * 2 ^ (x.q - 2) := by
    rw [← zpow_one_add₀ two_ne_zero]
    congr 1
    omega
  -- the subtraction of natural numbers stops at zero
  have htruncated : (4 * x.m : ℕ) * (2 : ℚ) ^ (x.q - 2) ≤
      ((4 * x.m - 2 : ℕ) + 2) * 2 ^ (x.q - 2) := by
    gcongr
    exact_mod_cast Nat.le_add_of_sub_le le_rfl
  rw [quarters_le_iff, le_quarters_iff, Nat.cast_add] at hbounds
  rw [abs_sub_le_iff, value_eq_quarters, hunit]
  push_cast at hbounds htruncated ⊢
  constructor
  · linarith
  · linarith

theorem readsBack_of_eq (h : c * 10 ^ g = x.value) : x.readsBack c g = true := by
  have hunit := (x.quarterUnit_pos g).1
  rw [← eq_value_iff] at h
  simp only [readsBack, h]
  split
  · simp only [Bool.and_eq_true, decide_eq_true_eq]
    constructor
    · apply Nat.mul_le_mul_right
      split <;> omega
    · apply Nat.mul_le_mul_right
      omega
  · simp only [Bool.and_eq_true, decide_eq_true_eq]
    constructor
    · apply Nat.mul_lt_mul_of_pos_right _ hunit
      split <;> omega
    · apply Nat.mul_lt_mul_of_pos_right _ hunit
      omega

/-- What is taken from a grid reads back and does not lie below the floor. -/
theorem onGrid?_eq_some (h : x.onGrid? g = some s) :
    s.exponent = g ∧ x.readsBack s.digits g = true ∧
      4 * x.m * (x.quarterUnit g).1 / (x.quarterUnit g).2 ≤ s.digits := by
  simp only [onGrid?] at h
  split at h
  next hfloor habove =>
    rw [← Option.some_inj.1 h]
    split
    · exact ⟨rfl, habove, Nat.le_succ _⟩
    · exact ⟨rfl, hfloor, le_rfl⟩
  next hfloor _ =>
    rw [← Option.some_inj.1 h]
    exact ⟨rfl, hfloor, le_rfl⟩
  next _ habove =>
    rw [← Option.some_inj.1 h]
    exact ⟨rfl, habove, Nat.le_succ _⟩
  next => cases h

/-- A number on the grid is taken itself. -/
theorem onGrid?_of_eq (h : c * 10 ^ g = x.value) : x.onGrid? g = some ⟨c, g⟩ := by
  have hread := readsBack_of_eq h
  have hpos := (x.quarterUnit_pos g).2
  rw [← eq_value_iff] at h
  simp only [onGrid?, ← h, Nat.mul_div_cancel c hpos, hread]
  cases x.readsBack (c + 1) g with
  | false => rfl
  | true =>
    have hnear : 2 * (c * (x.quarterUnit g).2) < (2 * c + 1) * (x.quarterUnit g).2 := by
      rw [add_mul, mul_assoc, one_mul]
      exact Nat.lt_add_of_pos_right hpos
    simp [hnear.ne, hnear.le]

/-! ## Scales -/

/-- The quotient approximates the logarithm of two well enough for the exponents of all numbers. -/
theorem estimate_bounds : ∀ e < 1024, 10 ^ (e * 30103 / 100000) ≤ 10 * 2 ^ e ∧
    2 ^ (e + 1) ≤ 10 ^ (e * 30103 / 100000 + 2) := by
  decide +kernel

theorem two_zpow_le_value (hm : x.m ≠ 0) : 2 ^ ((x.m.log2 : ℤ) + x.q) ≤ x.value := by
  rw [zpow_add₀ two_ne_zero, value, zpow_natCast]
  gcongr
  exact_mod_cast Nat.log2_self_le hm

theorem value_lt_two_zpow (x : Magnitude) : x.value < 2 ^ ((x.m.log2 : ℤ) + x.q + 1) := by
  rw [add_right_comm, zpow_add₀ two_ne_zero, value]
  gcongr
  exact_mod_cast Nat.lt_log2_self

/-- The scale counts the digits of a number that is not below one. -/
theorem scale_bounds (formed : x.Formed) (h : 1 ≤ x.value) :
    10 ^ (x.scale - 1) ≤ x.value ∧ x.value < 10 ^ x.scale := by
  have hm : x.m ≠ 0 := fun hm => by
    rw [value_eq_zero_iff.2 hm] at h
    norm_num at h
  have hlog : x.m.log2 < 53 := (Nat.log2_lt hm).2 formed.lt
  have hlow := two_zpow_le_value hm
  have hhigh := x.value_lt_two_zpow
  have hexponent : 0 ≤ (x.m.log2 : ℤ) + x.q := by
    have := (one_lt_zpow_iff_right₀ one_lt_two).1 (h.trans_lt hhigh)
    omega
  have hle := formed.exponent_le
  rw [scale]
  obtain ⟨e, he⟩ := Int.eq_ofNat_of_zero_le hexponent
  rw [he] at hlow hhigh ⊢
  obtain ⟨hestimate, hestimate'⟩ := estimate_bounds e (by omega)
  have hcast : (e : ℤ) * 30103 / 100000 = (e * 30103 / 100000 : ℕ) := by norm_cast
  simp only [hcast]
  generalize e * 30103 / 100000 = k at *
  split
  next hbelow =>
    refine ⟨?_, belowPower_iff.1 hbelow⟩
    calc (10 : ℚ) ^ ((k : ℤ) - 1) = 10 ^ k / 10 := by
          rw [zpow_sub_one₀ (by norm_num), zpow_natCast, div_eq_mul_inv]
      _ ≤ 2 ^ e := by
        rw [div_le_iff₀' (by norm_num)]
        exact_mod_cast hestimate
      _ ≤ x.value := hlow
  split
  next hnot hbelow =>
    rw [belowPower_iff, not_lt] at hnot
    exact ⟨by simpa using hnot, belowPower_iff.1 hbelow⟩
  next _ hnot =>
    rw [belowPower_iff, not_lt] at hnot
    refine ⟨by simpa [add_sub_assoc] using hnot, hhigh.trans_le ?_⟩
    exact_mod_cast hestimate'

theorem lt_scale (formed : x.Formed) {k : ℕ} (h : 10 ^ k ≤ x.value) : k < x.scale := by
  have hone : 1 ≤ x.value := (one_le_pow₀ (by norm_num)).trans h
  have hlt : (10 : ℚ) ^ (k : ℤ) < 10 ^ x.scale := by
    rw [zpow_natCast]
    exact h.trans_lt (scale_bounds formed hone).2
  exact (zpow_lt_zpow_iff_right₀ (by norm_num)).1 hlt

theorem scale_le (formed : x.Formed) {k : ℕ} (hone : 1 ≤ x.value) (h : x.value < 10 ^ k) :
    x.scale ≤ k := by
  have hlt : (10 : ℚ) ^ (x.scale - 1) < 10 ^ (k : ℤ) := by
    rw [zpow_natCast]
    exact (scale_bounds formed hone).1.trans_lt h
  have := (zpow_lt_zpow_iff_right₀ (by norm_num)).1 hlt
  omega

/-! ## Shortest decimals -/

/-- The first index at which something is found. -/
theorem findSome?_range_eq_some {α : Type*} {f : ℕ → Option α} {n : ℕ} {a : α}
    (h : (List.range n).findSome? f = some a) : ∃ i < n, f i = some a ∧ ∀ j < i, f j = none := by
  induction n with
  | zero => cases h
  | succ n ih =>
    rw [List.range_succ, List.findSome?_append, Option.or_eq_some_iff] at h
    rcases h with h | ⟨hnone, hlast⟩
    · obtain ⟨i, hi, hfound⟩ := ih h
      exact ⟨i, hi.trans (Nat.lt_succ_self n), hfound⟩
    · rw [List.findSome?_eq_none_iff] at hnone
      exact ⟨n, Nat.lt_succ_self n, by simpa using hlast, fun j hj => hnone j (List.mem_range.2 hj)⟩

theorem value_exact (x : Magnitude) :
    Scaled.value ⟨x.m * twoPow x.q.toNat * Nat.pow 5 (-x.q).toNat, min x.q 0⟩ = x.value := by
  have hmin : min x.q 0 = -((-x.q).toNat : ℤ) := by omega
  have hten : (10 : ℚ) ^ (-x.q).toNat = 2 ^ (-x.q).toNat * 5 ^ (-x.q).toNat := by
    rw [← mul_pow]
    norm_num
  simp only [Scaled.value, value, hmin, zpow_neg, zpow_natCast, twoPow_eq, Nat.pow_eq,
    Nat.cast_mul, Nat.cast_pow, Nat.cast_ofNat, hten, pow_toNat 2 two_ne_zero x.q]
  field_simp

/-- The shortest decimal is taken from the first grid that has one, or is the number itself. -/
theorem shortest_cases (x : Magnitude) :
    (∃ i : ℕ, i < 17 ∧ x.onGrid? (x.scale - i - 1) = some x.shortest ∧
      ∀ j : ℕ, j < i → x.onGrid? (x.scale - j - 1) = none) ∨
    (x.shortest.value = x.value ∧ ∀ i : ℕ, i < 17 → x.onGrid? (x.scale - i - 1) = none) := by
  rw [shortest]
  split
  next found hfound =>
    obtain ⟨i, hi, hfirst, hnone⟩ := findSome?_range_eq_some hfound
    exact .inl ⟨i, hi, hfirst, hnone⟩
  next hnone =>
    refine .inr ⟨?_, fun i hi => List.findSome?_eq_none_iff.1 hnone i (List.mem_range.2 hi)⟩
    exact x.value_exact

/-- A decimal of integers that reads back is the number itself, if integers of its kind are further
apart than half a unit in the last place. -/
theorem eq_of_readsBack {n k : ℕ} (hn : x.value = n) (h : x.readsBack c k = true)
    (hq : x.q ≤ 0 ∨ x.q = 1 ∧ 0 < k) : c * 10 ^ k = n := by
  have hnear := abs_sub_le_of_readsBack h
  rw [hn] at hnear
  rcases hq with hq | ⟨hq, hk⟩
  · have hhalf : (2 : ℚ) ^ (x.q - 1) < 1 := zpow_lt_one_of_neg₀ one_lt_two (by omega)
    have hlt : |((c * 10 ^ k : ℕ) : ℤ) - n| < 1 := by
      have := hnear.trans_lt hhalf
      exact_mod_cast this
    have hzero := Int.abs_lt_one_iff.1 hlt
    omega
  · -- both are even
    obtain ⟨k, rfl⟩ := Nat.exists_eq_add_of_lt hk
    have heven : n = 2 * x.m := by
      rw [value, hq, zpow_one, mul_comm] at hn
      exact_mod_cast hn.symm
    rw [hq, sub_self, zpow_zero] at hnear
    have hle : |((c * 10 ^ (0 + k + 1) : ℕ) : ℤ) - n| ≤ 1 := by exact_mod_cast hnear
    have hgrid : c * 10 ^ (0 + k + 1) = 2 * (5 * (c * 10 ^ k)) := by ring
    rw [hgrid, heven] at hle ⊢
    obtain ⟨hlow, hhigh⟩ := abs_le.1 hle
    omega

/-- The unit in the last place grows with the number. -/
theorem exponent_le_one (formed : x.Formed) (h : x.value < 2 ^ 54) : x.q ≤ 1 := by
  by_contra hq
  rcases formed.normal with hsmall | hm
  · omega
  · have hlarge : (2 : ℚ) ^ 52 * 2 ^ (2 : ℤ) ≤ x.value := by
      rw [value]
      gcongr
      · exact_mod_cast hm
      · norm_num
      · omega
    norm_num at h hlarge
    linarith

/-- The shortest decimal of a small integer is that integer. -/
theorem exists_shortest_eq (formed : x.Formed) {n : ℕ} (hn : x.value = n) (hpos : 0 < n)
    (hlt : n < 10 ^ 16) : ∃ k : ℕ, x.shortest.exponent = k ∧ x.shortest.digits * 10 ^ k = n := by
  have hone : 10 ^ 0 ≤ x.value := by
    rw [hn]
    exact_mod_cast hpos
  have hhigh : x.value < 10 ^ 16 := by
    rw [hn]
    exact_mod_cast hlt
  have hscale := lt_scale formed hone
  have hscale' := scale_le formed hone hhigh
  have hq := exponent_le_one formed (hhigh.trans (by norm_num))
  -- the grid of the integers is among those that are searched
  obtain ⟨last, hlast⟩ := Int.eq_ofNat_of_zero_le (show 0 ≤ x.scale - 1 by omega)
  have hself : x.onGrid? (x.scale - last - 1) = some ⟨n, 0⟩ := by
    rw [show x.scale - last - 1 = 0 by omega]
    exact onGrid?_of_eq (by simp [hn])
  rcases x.shortest_cases with ⟨i, -, hfound, hnone⟩ | ⟨-, hnone⟩
  · rcases lt_trichotomy i last with hi | rfl | hi
    · obtain ⟨k, hk⟩ := Int.eq_ofNat_of_zero_le (show 0 ≤ x.scale - i - 1 by omega)
      obtain ⟨hexponent, hread, -⟩ := onGrid?_eq_some hfound
      rw [hk] at hexponent hread
      exact ⟨k, hexponent, eq_of_readsBack hn hread (by omega)⟩
    · rw [hself, Option.some_inj] at hfound
      rw [← hfound]
      exact ⟨0, rfl, by simp⟩
    · rw [hnone last hi] at hself
      cases hself
  · rw [hnone last (by omega)] at hself
    cases hself

/-- The shortest decimal of a number stays in its decade or above it. -/
theorem le_value_shortest (formed : x.Formed) {k : ℕ} (h : 10 ^ k ≤ x.value) :
    10 ^ k ≤ x.shortest.value := by
  rcases x.shortest_cases with ⟨i, -, hfound, -⟩ | ⟨hexact, -⟩
  · obtain ⟨hexponent, -, hfloor⟩ := onGrid?_eq_some hfound
    have hk := lt_scale formed h
    have hlow := (scale_bounds formed ((one_le_pow₀ (by norm_num)).trans h)).1
    have hgrid : (10 : ℚ) ^ i * 10 ^ (x.scale - i - 1) = 10 ^ (x.scale - 1) := by
      rw [← zpow_natCast, ← zpow_add₀ (by norm_num)]
      congr 1
      omega
    have hdigits : 10 ^ i ≤ x.shortest.digits := by
      refine le_trans ?_ hfloor
      rw [Nat.le_div_iff_mul_le (x.quarterUnit_pos _).2, le_value_iff, Nat.cast_pow,
        Nat.cast_ofNat, hgrid]
      exact hlow
    calc (10 : ℚ) ^ k = 10 ^ (k : ℤ) := (zpow_natCast _ _).symm
      _ ≤ 10 ^ (x.scale - 1) := zpow_le_zpow_right₀ (by norm_num) (by omega)
      _ = 10 ^ i * 10 ^ (x.scale - i - 1) := hgrid.symm
      _ ≤ x.shortest.value := by
        rw [Scaled.value, hexponent]
        gcongr
        exact_mod_cast hdigits
  · rw [hexact]
    exact h

end ManifestModules.Decimal.Magnitude
