import ManifestModules.Power

/-! # Binary64 numbers by exact arithmetic

A binary64 number is held as its bit pattern. A finite one has the magnitude
`m * 2 ^ q`; every rounding here compares natural numbers, so that the results
are the nearest representable values and can be evaluated by the kernel.
-/

namespace ManifestModules.Decimal

/-- The quotient `n / d` rounded to the nearest natural number, a half to the even neighbour. -/
def roundHalfEven (n d : Nat) : Nat :=
  let q := n / d
  let twice := 2 * (n % d)
  if twice > d ∨ (twice = d ∧ q % 2 = 1) then q + 1 else q

structure Binary64 where
  bits : UInt64
deriving DecidableEq, Repr

/-- The magnitude `m * 2 ^ q` of a finite number. -/
structure Magnitude where
  m : Nat
  q : Int
  /-- The gap to the number below is half the gap to the number above. -/
  narrowBelow : Bool
deriving DecidableEq, Repr

namespace Binary64

def isNegative (x : Binary64) : Bool := x.bits.toNat / twoPow 63 = 1

def exponentField (x : Binary64) : Nat := x.bits.toNat / twoPow 52 % twoPow 11

def fractionField (x : Binary64) : Nat := x.bits.toNat % twoPow 52

def isFinite (x : Binary64) : Bool := x.exponentField < 2047

def isInfinite (x : Binary64) : Bool := x.exponentField = 2047 && x.fractionField = 0

def isNaN (x : Binary64) : Bool := x.exponentField = 2047 && x.fractionField != 0

/-- Meaningful for finite numbers only. -/
def magnitude (x : Binary64) : Magnitude :=
  if x.exponentField = 0 then ⟨x.fractionField, -1074, false⟩
  else ⟨twoPow 52 + x.fractionField, (x.exponentField : Int) - 1075,
    x.fractionField = 0 && x.exponentField > 1⟩

private def signed (negative : Bool) (magnitudeBits : Nat) : Binary64 :=
  ⟨UInt64.ofNat ((if negative then twoPow 63 else 0) + magnitudeBits)⟩

def infinity (negative : Bool) : Binary64 := signed negative (2047 * twoPow 52)

def nan : Binary64 := signed false (2047 * twoPow 52 + twoPow 51)

def zero (negative : Bool) : Binary64 := signed negative 0

/-- The number nearest to `n / d`, a tie to the even fraction; too large a quotient is infinite. -/
def ofRatio (negative : Bool) (n d : Nat) : Binary64 :=
  if n = 0 ∨ d = 0 then zero negative
  else
    let low : Int := (n.log2 : Int) - d.log2 - 53
    let fits (q : Int) : Bool := n * twoPow (-q).toNat < twoPow 53 * d * twoPow q.toNat
    let q := max (if fits low then low else low + 1) (-1074)
    let m := roundHalfEven (n * twoPow (-q).toNat) (d * twoPow q.toNat)
    let magnitudeBits := (q + 1074).toNat * twoPow 52 + m
    if magnitudeBits < 2047 * twoPow 52 then signed negative magnitudeBits else infinity negative

/-- The number nearest to `digits * 10 ^ exponent`. An exponent that is certainly too large or
too small is not expanded. -/
def ofDecimal (negative : Bool) (digits : Nat) (exponent : Int) : Binary64 :=
  if digits = 0 then zero negative
  else
    let length : Int := (digits.log2 : Int) * 30103 / 100000 + 1
    if length + exponent > 320 then infinity negative
    else if length + exponent < -350 then zero negative
    else ofRatio negative (digits * tenPow exponent.toNat) (tenPow (-exponent).toNat)

def toRatio (x : Binary64) : Nat × Nat :=
  let ⟨m, q, _⟩ := x.magnitude
  (m * twoPow q.toNat, twoPow (-q).toNat)

def toInt? (x : Binary64) : Option Int :=
  if x.isFinite then
    let (n, d) := x.toRatio
    if n % d = 0 then some (if x.isNegative then -((n / d : Nat) : Int) else (n / d : Nat))
    else none
  else none

/-- Numeric equality, with both zeros equal and every NaN equal to every NaN. -/
def sameNumber (x y : Binary64) : Bool :=
  if x.isNaN || y.isNaN then x.isNaN && y.isNaN
  else x == y || (x.bits.toNat % twoPow 63 = 0 && y.bits.toNat % twoPow 63 = 0)

end Binary64

end ManifestModules.Decimal
