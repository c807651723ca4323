import ManifestModules.Proofs.Decimal.Layout
import ManifestModules.Template.Substitute
import ManifestModules.Value.Data

/-!
# Texts of integral numbers

An integral float is written like the integer as long as it is small. From `10 ^ 15` on it keeps its
own text. At first this is the integer with a fraction, because the shortest decimal is the integer,
and from `10 ^ 16` on it has an exponent.
-/

namespace ManifestModules

open Decimal

theorem natText_eq_toString (n : ℕ) : String.ofList (digitChars n) = toString n :=
  Nat.toString_eq_ofList_toDigits.symm

theorem integerText_eq_toString (k : ℤ) : integerText k = toString k := by
  rw [integerText, String.ofList_append, natText_eq_toString]
  cases k with
  | ofNat n =>
    have hn : ¬ Int.ofNat n < 0 := (Int.natCast_nonneg n).not_gt
    rw [if_neg hn, String.ofList_nil, String.empty_append]
    rfl
  | negSucc n =>
    rw [if_pos (Int.negSucc_lt_zero n)]
    rfl

/-- An integer has no exponent. -/
theorem e_notMem_toString (k : ℤ) : 'e' ∉ (toString k).toList := by
  have hdigits : 'e' ∉ digitChars k.natAbs := fun h =>
    absurd (Nat.isDigit_of_mem_toDigits (by norm_num) (by norm_num) h) (by decide)
  rw [← integerText_eq_toString, integerText, String.toList_ofList]
  split <;> simp [hdigits]

namespace Number

variable {x : Binary64} {k : ℤ}

/-- What is written for a number, in place of a hole inside a string and for a number as a key. -/
structure WrittenAs (n : Number) (text : String) : Prop where
  label : n.label = text
  fill : Template.fillText? (.number n) = some text
  key : Value.keyText (.number n) = .ok text

theorem writtenAs_iff {n : Number} {text : String} : n.WrittenAs text ↔ n.label = text := by
  constructor
  · exact WrittenAs.label
  · rintro rfl
    exact ⟨rfl, rfl, rfl⟩

/-- The texts of an integral float differ only in how the magnitude is written. -/
theorem documentText_eq (finite : x.isFinite = true) (integral : x.value = k) (hk : k ≠ 0) :
    documentLayout.render x = String.ofList ((if k < 0 then ['-'] else []) ++
      documentLayout.magnitudeText
        (stripZeros 17 x.magnitude.shortest.digits x.magnitude.shortest.exponent)) := by
  have hm : x.magnitude.m ≠ 0 := by
    rw [Ne, ← Magnitude.value_eq_zero_iff, Binary64.value_magnitude_of_value integral]
    positivity
  simp only [documentLayout.render_eq finite hm, Binary64.isNegative_iff integral hk]

theorem label_below (finite : x.isFinite = true) (integral : x.value = k)
    (hk : k.natAbs < 10 ^ 15) : (Number.float x).label = toString k := by
  rw [label, Binary64.toInt?_eq_some.2 ⟨finite, integral⟩, ← integerText_eq_toString]
  exact if_pos hk

theorem label_above (finite : x.isFinite = true) (integral : x.value = k)
    (hk : 10 ^ 15 ≤ k.natAbs) : (Number.float x).label = documentLayout.render x := by
  rw [label, Binary64.toInt?_eq_some.2 ⟨finite, integral⟩]
  exact if_neg hk.not_gt

/-- The shortest decimal is the integer, so that only a fraction is added. -/
theorem label_fraction (finite : x.isFinite = true) (integral : x.value = k)
    (hlow : 10 ^ 15 ≤ k.natAbs) (hhigh : k.natAbs < 10 ^ 16) :
    (Number.float x).label = toString k ++ ".0" := by
  have hk : k ≠ 0 := by
    rintro rfl
    norm_num at hlow
  rw [label_above finite integral hlow, documentText_eq finite integral hk,
    documentLayout.magnitudeText_shortest_positional (Binary64.formed_magnitude finite)
      (Binary64.value_magnitude_of_value integral) (by omega) hhigh (by decide) (by decide),
    ← List.append_assoc, String.ofList_append, ← integerText_eq_toString]
  rfl

/-- The shortest decimal does not lie below the power of ten at which exponents begin. -/
theorem label_exponent (finite : x.isFinite = true) (integral : x.value = k)
    (hlow : 10 ^ 16 ≤ k.natAbs) : ∃ (mantissa : String) (exponent : ℕ), 16 ≤ exponent ∧
      (Number.float x).label = mantissa ++ "e" ++ toString exponent := by
  have hk : k ≠ 0 := by
    rintro rfl
    norm_num at hlow
  have hvalue : 10 ^ 16 ≤ x.magnitude.value := by
    rw [Binary64.value_magnitude_of_value integral]
    exact_mod_cast hlow
  obtain ⟨mantissa, exponent, hexponent, htext⟩ :=
    documentLayout.magnitudeText_shortest_scientific (Binary64.formed_magnitude finite) hvalue rfl
      (by decide)
  refine ⟨String.ofList ((if k < 0 then ['-'] else []) ++ mantissa), exponent, hexponent, ?_⟩
  rw [label_above finite integral (by omega), documentText_eq finite integral hk, htext,
    ← natText_eq_toString, ← List.append_assoc, String.ofList_append, String.append_assoc]
  have hexponentText : String.ofList (['e'] ++ digitChars exponent) =
      String.ofList ['e'] ++ String.ofList (digitChars exponent) := String.ofList_append
  exact congrArg _ hexponentText

/-- An integral float is written like the integer in a string and as a key exactly below `10 ^ 15`.
Larger ones have a fraction, and from `10 ^ 16` on an exponent. -/
theorem writtenAs_integral (x : Binary64) (k : ℤ) (finite : x.isFinite = true)
    (integral : x.value = k) :
    (integer k).WrittenAs (toString k) ∧
    ((float x).WrittenAs (toString k) ↔ k.natAbs < 10 ^ 15) ∧
    (10 ^ 15 ≤ k.natAbs → k.natAbs < 10 ^ 16 → (float x).WrittenAs (toString k ++ ".0")) ∧
    (10 ^ 16 ≤ k.natAbs → ∃ (mantissa : String) (exponent : ℕ), 16 ≤ exponent ∧
      (float x).WrittenAs (mantissa ++ "e" ++ toString exponent)) := by
  simp only [writtenAs_iff]
  refine ⟨integerText_eq_toString k, ⟨fun hlabel => ?_, label_below finite integral⟩,
    label_fraction finite integral, label_exponent finite integral⟩
  by_contra hk
  rcases lt_or_ge k.natAbs (10 ^ 16) with hhigh | hhigh
  · rw [label_fraction finite integral (not_lt.1 hk) hhigh] at hlabel
    have hlength := congrArg String.length hlabel
    simp at hlength
  · obtain ⟨mantissa, exponent, -, htext⟩ := label_exponent finite integral hhigh
    apply e_notMem_toString k
    rw [← hlabel, htext]
    simp

/-- The least integral float that is written like the integer. -/
def minusNines : Binary64 := .ofDecimal true 999999999999999 0

theorem minusNines_integral :
    minusNines.isFinite = true ∧ minusNines.value = (-999999999999999 : ℤ) :=
  Binary64.toInt?_eq_some.1 (by decide +kernel)

theorem writtenAs_integral_minusNines :
    (minusNines.isFinite = true ∧ minusNines.value = (-999999999999999 : ℤ)) ∧
    (integer (-999999999999999)).WrittenAs "-999999999999999" ∧
    (float minusNines).WrittenAs "-999999999999999" := by
  obtain ⟨finite, integral⟩ := minusNines_integral
  obtain ⟨hinteger, hfloat, -⟩ := writtenAs_integral minusNines (-999999999999999) finite integral
  exact ⟨minusNines_integral, hinteger, hfloat.2 (by decide)⟩

/-- The least positive integral float that is not written like the integer. -/
def quadrillion : Binary64 := .ofDecimal false 1 15

/-- The float has a fraction, and the integer has none. -/
theorem quadrillion_fractional :
    (quadrillion.isFinite = true ∧ quadrillion.value = (10 ^ 15 : ℤ)) ∧
    (integer (10 ^ 15)).WrittenAs "1000000000000000" ∧
    (float quadrillion).WrittenAs "1000000000000000.0" ∧
    ¬ (float quadrillion).WrittenAs "1000000000000000" := by
  refine ⟨Binary64.toInt?_eq_some.1 (by decide +kernel), ?_⟩
  simp only [writtenAs_iff]
  decide +kernel

end Number

end ManifestModules
