import ManifestModules.Decimal.Shortest

/-! # Layout of decimals

Digits are laid out positionally while the decimal point stays near them, and
in scientific form otherwise. What differs between two formats is a value of
`Layout`.
-/

namespace ManifestModules.Decimal

structure Layout where
  /-- Leading exponents `e` with `plainFrom ≤ e < plainBelow` are written positionally. -/
  plainFrom : Int
  plainBelow : Int
  /-- Positive exponents carry a plus sign. -/
  exponentPlus : Bool
  nan : String
  infinity : String
  negativeInfinity : String

/-- The decimal digits of `n`, most significant first. -/
def digitChars (n : Nat) : List Char := Nat.toDigits 10 n

/-- Moves trailing zeros of the digits into the exponent; `fuel` bounds their number. -/
def stripZeros : Nat → Nat → Int → Scaled
  | 0, digits, exponent => ⟨digits, exponent⟩
  | fuel + 1, digits, exponent =>
    if digits ≠ 0 ∧ digits % 10 = 0 then stripZeros fuel (digits / 10) (exponent + 1)
    else ⟨digits, exponent⟩

def zeros (n : Nat) : List Char := List.replicate n '0'

namespace Layout

/-- The text of `digits * 10 ^ exponent`, for `digits` without trailing zeros. -/
def magnitudeText (layout : Layout) (decimal : Scaled) : List Char :=
  let ds := digitChars decimal.digits
  let leading : Int := decimal.exponent + ds.length - 1
  if layout.plainFrom ≤ leading ∧ leading < layout.plainBelow then
    if decimal.exponent ≥ 0 then ds ++ zeros decimal.exponent.toNat ++ ['.', '0']
    else if leading ≥ 0 then
      let whole := (leading + 1).toNat
      ds.take whole ++ '.' :: ds.drop whole
    else '0' :: '.' :: zeros (-leading - 1).toNat ++ ds
  else
    let mantissa := match ds with
      | [] => []
      | [d] => [d]
      | d :: rest => d :: '.' :: rest
    let sign := if leading < 0 then ['-'] else if layout.exponentPlus then ['+'] else []
    mantissa ++ 'e' :: sign ++ digitChars leading.natAbs

/-- The text of a binary64 number: its shortest decimal, with a sign also before a zero. -/
def render (layout : Layout) (x : Binary64) : String :=
  if x.isNaN then layout.nan
  else if x.isInfinite then
    if x.isNegative then layout.negativeInfinity else layout.infinity
  else
    let sign := if x.isNegative then ['-'] else []
    let magnitude := x.magnitude
    let body :=
      if magnitude.m = 0 then ['0', '.', '0']
      else
        let decimal := magnitude.shortest
        layout.magnitudeText (stripZeros 17 decimal.digits decimal.exponent)
    String.ofList (sign ++ body)

end Layout

/-- The text of `n / d` with one digit after the point, a half going to the even digit. -/
def oneDecimal (n d : Nat) : String :=
  let tenths := roundHalfEven (10 * n) d
  String.ofList (digitChars (tenths / 10) ++ '.' :: digitChars (tenths % 10))

end ManifestModules.Decimal
