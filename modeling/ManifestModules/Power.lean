/-! # Powers of two and ten

The units in which binary and decimal numbers are measured, and the bounds of
words of a fixed width.
-/

namespace ManifestModules

/-- The number of values of a word of `k` bits. -/
def twoPow (k : Nat) : Nat := Nat.pow 2 k

/-- The number of values of `k` decimal digits. -/
def tenPow (k : Nat) : Nat := Nat.pow 10 k

end ManifestModules
