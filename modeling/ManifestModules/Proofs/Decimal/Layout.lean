import ManifestModules.Decimal.Layout
import ManifestModules.Proofs.Decimal.Shortest

/-!
# Layout of decimals

A decimal with an exponent that is not negative is an integer, and its digits are those of the
integer without the last zeros. It is written out as long as the format lays its leading exponent
out positionally, and has an exponent from there on.
-/

namespace ManifestModules.Decimal

/-! ## Digits -/

theorem digitChars_mul_tenPow {n : ℕ} (h : 0 < n) (k : ℕ) :
    digitChars (n * 10 ^ k) = digitChars n ++ zeros k := by
  induction k with
  | zero => simp [zeros]
  | succ k ih =>
    have hpos : 0 < n * 10 ^ k := by positivity
    calc digitChars (n * 10 ^ (k + 1)) = digitChars (10 * (n * 10 ^ k) + 0) := by
          congr 1
          ring
      _ = digitChars (n * 10 ^ k) ++ digitChars 0 :=
          (Nat.toDigits_append_toDigits (by norm_num) hpos (by norm_num)).symm
      _ = digitChars n ++ zeros (k + 1) := by
          rw [ih, List.append_assoc, zeros, zeros, List.replicate_succ']
          rfl

theorem length_digitChars_le_iff {n k : ℕ} (hk : 0 < k) :
    (digitChars n).length ≤ k ↔ n < 10 ^ k :=
  Nat.length_toDigits_le_iff (by norm_num) hk

/-- Zeros are taken off the digits and counted by the exponent. -/
theorem exists_stripZeros (fuel digits : ℕ) (exponent : ℤ) : ∃ rest j : ℕ,
    stripZeros fuel digits exponent = ⟨rest, exponent + j⟩ ∧ digits = rest * 10 ^ j := by
  induction fuel generalizing digits exponent with
  | zero => exact ⟨digits, 0, by simp [stripZeros], by simp⟩
  | succ fuel ih =>
    rw [stripZeros]
    split
    next h =>
      obtain ⟨rest, j, hstrip, hdigits⟩ := ih (digits / 10) (exponent + 1)
      refine ⟨rest, j + 1, ?_, ?_⟩
      · rw [hstrip, Nat.cast_succ, add_assoc, add_comm 1]
      · rw [pow_succ, ← mul_assoc, ← hdigits]
        omega
    next => exact ⟨digits, 0, by simp, by simp⟩

theorem value_stripZeros (fuel digits : ℕ) (exponent : ℤ) :
    (stripZeros fuel digits exponent).value = Scaled.value ⟨digits, exponent⟩ := by
  obtain ⟨rest, j, hstrip, rfl⟩ := exists_stripZeros fuel digits exponent
  rw [hstrip, Scaled.value, Scaled.value, zpow_add₀ (by norm_num), zpow_natCast]
  push_cast
  ring

namespace Layout

variable {layout : Layout} {s : Scaled}

/-- The exponent of the leading digit. -/
def leading (s : Scaled) : ℤ := s.exponent + (digitChars s.digits).length - 1

/-- An integer is written out with a zero behind the point. -/
theorem magnitudeText_positional {k : ℕ} (hpos : 0 < s.digits) (hk : s.exponent = k)
    (hlow : layout.plainFrom ≤ leading s) (hhigh : leading s < layout.plainBelow) :
    layout.magnitudeText s = digitChars (s.digits * 10 ^ k) ++ ['.', '0'] := by
  rw [digitChars_mul_tenPow hpos]
  simp only [magnitudeText]
  rw [if_pos ⟨hlow, hhigh⟩, if_pos (by omega), hk, Int.toNat_natCast]

/-- A large decimal has an exponent. -/
theorem magnitudeText_scientific {e : ℕ} (hplus : layout.exponentPlus = false)
    (he : leading s = e) (hbelow : layout.plainBelow ≤ e) : ∃ mantissa : List Char,
      layout.magnitudeText s = mantissa ++ 'e' :: digitChars e := by
  rw [leading] at he
  simp only [magnitudeText, he, hplus]
  rw [if_neg fun h => absurd h.2 hbelow.not_gt, if_neg (Int.natCast_nonneg e).not_gt]
  exact ⟨_, List.append_assoc _ _ _⟩

theorem le_leading {k : ℕ} (h : 10 ^ k ≤ s.value) : k ≤ leading s := by
  have hdigits : s.digits < 10 ^ (digitChars s.digits).length :=
    (length_digitChars_le_iff Nat.length_toDigits_pos).1 le_rfl
  have hlt : (10 : ℚ) ^ (k : ℤ) < 10 ^ ((digitChars s.digits).length + s.exponent) := by
    rw [zpow_natCast, zpow_add₀ (by norm_num), zpow_natCast]
    refine h.trans_lt ?_
    rw [Scaled.value]
    gcongr
    exact_mod_cast hdigits
  have := (zpow_lt_zpow_iff_right₀ (by norm_num)).1 hlt
  rw [leading]
  omega

variable {x : Magnitude}

/-- The text of a small integer. -/
theorem magnitudeText_shortest_positional (layout : Layout) (formed : x.Formed) {n : ℕ}
    (hn : x.value = n) (hpos : 0 < n) (hlt : n < 10 ^ 16) (hfrom : layout.plainFrom ≤ 0)
    (hbelow : 16 ≤ layout.plainBelow) :
    layout.magnitudeText (stripZeros 17 x.shortest.digits x.shortest.exponent) =
      digitChars n ++ ['.', '0'] := by
  obtain ⟨k, hexponent, rfl⟩ := Magnitude.exists_shortest_eq formed hn hpos hlt
  obtain ⟨rest, j, hstrip, hdigits⟩ := exists_stripZeros 17 x.shortest.digits x.shortest.exponent
  rw [hstrip, hexponent]
  rw [hdigits, mul_assoc, ← pow_add, add_comm j k] at hpos hlt ⊢
  have hrest : 0 < rest := Nat.pos_of_mul_pos_right hpos
  have hlength := (length_digitChars_le_iff (by norm_num)).2 hlt
  rw [digitChars_mul_tenPow hrest, List.length_append, zeros, List.length_replicate] at hlength
  have hdigit : 0 < (digitChars rest).length := Nat.length_toDigits_pos
  have hleading : leading ⟨rest, k + j⟩ = (digitChars rest).length + (k + j) - 1 := by
    rw [leading]
    ring
  exact magnitudeText_positional hrest (Nat.cast_add k j).symm (by omega) (by omega)

/-- The text of a large number. -/
theorem magnitudeText_shortest_scientific (layout : Layout) (formed : x.Formed) {b : ℕ}
    (h : 10 ^ b ≤ x.value) (hplus : layout.exponentPlus = false) (hbelow : layout.plainBelow ≤ b) :
    ∃ (mantissa : List Char) (e : ℕ), b ≤ e ∧
      layout.magnitudeText (stripZeros 17 x.shortest.digits x.shortest.exponent) =
        mantissa ++ 'e' :: digitChars e := by
  generalize hs : stripZeros 17 x.shortest.digits x.shortest.exponent = s
  have hvalue : 10 ^ b ≤ s.value := by
    rw [← hs, value_stripZeros]
    exact Magnitude.le_value_shortest formed h
  have hleading := le_leading hvalue
  obtain ⟨e, he⟩ := Int.eq_ofNat_of_zero_le ((Int.natCast_nonneg b).trans hleading)
  obtain ⟨mantissa, htext⟩ := magnitudeText_scientific hplus he (by omega)
  exact ⟨mantissa, e, by omega, htext⟩

/-- The text of a finite number that is not zero. -/
theorem render_eq (layout : Layout) {x : Binary64} (finite : x.isFinite = true)
    (hm : x.magnitude.m ≠ 0) :
    layout.render x = String.ofList ((if x.isNegative then ['-'] else []) ++
      layout.magnitudeText
        (stripZeros 17 x.magnitude.shortest.digits x.magnitude.shortest.exponent)) := by
  have hfinite := (Binary64.isFinite_iff.1 finite).ne
  simp [render, Binary64.isNaN, Binary64.isInfinite, hfinite, hm]

end Layout

end ManifestModules.Decimal
