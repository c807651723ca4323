import ManifestModules.Decimal.Binary64

/-! # Shortest decimals

The shortest decimal of a positive binary64 number is the one with the fewest
digits among those that round to it; of several it is the nearest, and an exact
tie goes to the even last digit.
-/

namespace ManifestModules.Decimal

/-- The decimal `digits * 10 ^ exponent`. -/
structure Scaled where
  digits : Nat
  exponent : Int
deriving DecidableEq, Repr

namespace Magnitude

/-- One quarter of a unit in the last place, as a fraction of `10 ^ g`. -/
def quarterUnit (x : Magnitude) (g : Int) : Nat × Nat :=
  (twoPow (x.q - 2).toNat * tenPow (-g).toNat, twoPow (2 - x.q).toNat * tenPow g.toNat)

def belowPower (x : Magnitude) (k : Int) : Bool :=
  let (n, d) := x.quarterUnit k
  4 * x.m * n < d

/-- The number of digits before the decimal point; zero or negative for numbers below one. -/
def scale (x : Magnitude) : Int :=
  let estimate : Int := ((x.m.log2 : Int) + x.q) * 30103 / 100000
  if x.belowPower estimate then estimate
  else if x.belowPower (estimate + 1) then estimate + 1
  else estimate + 2

/-- `c * 10 ^ g` is among the reals that round to the number. The ends of that interval belong
to it exactly when `m` is even. -/
def readsBack (x : Magnitude) (c : Nat) (g : Int) : Bool :=
  let (n, d) := x.quarterUnit g
  let low := (if x.narrowBelow then 4 * x.m - 1 else 4 * x.m - 2) * n
  let high := (4 * x.m + 2) * n
  if x.m % 2 = 0 then low ≤ c * d && c * d ≤ high else low < c * d && c * d < high

/-- The multiple of `10 ^ g` that rounds to the number and is nearest to it, if there is one. -/
def onGrid? (x : Magnitude) (g : Int) : Option Scaled :=
  let (n, d) := x.quarterUnit g
  let value := 4 * x.m * n
  let c := value / d
  match x.readsBack c g, x.readsBack (c + 1) g with
  | true, true =>
    let above := 2 * value > (2 * c + 1) * d ∨ (2 * value = (2 * c + 1) * d ∧ c % 2 = 1)
    some ⟨if above then c + 1 else c, g⟩
  | true, false => some ⟨c, g⟩
  | false, true => some ⟨c + 1, g⟩
  | false, false => none

/-- Seventeen digits are enough for every binary64 number; the exact value stands behind them. -/
def shortest (x : Magnitude) : Scaled :=
  let k := x.scale
  match (List.range 17).findSome? fun (i : Nat) => x.onGrid? (k - i - 1) with
  | some found => found
  | none => ⟨x.m * twoPow x.q.toNat * Nat.pow 5 (-x.q).toNat, min x.q 0⟩

end Magnitude

end ManifestModules.Decimal
