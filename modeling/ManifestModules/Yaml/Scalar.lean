import ManifestModules.Number
import ManifestModules.Yaml.Problem

/-! # Meaning of plain scalars

A plain scalar is null, a boolean, a number or text, by its characters alone.
Digits with leading zeros are text, and an integer that needs more than 64 but
at most 128 bits is refused.
-/

namespace ManifestModules.Yaml

open Decimal

inductive Meaning where
  | null
  | bool (b : Bool)
  | number (n : Number)
  | wideInteger
  | text
deriving DecidableEq, Repr

namespace Scalar

def isNull (s : String) : Bool := s = "null" || s = "Null" || s = "NULL" || s = "~"

def bool? (s : String) : Option Bool :=
  if s = "true" || s = "True" || s = "TRUE" then some true
  else if s = "false" || s = "False" || s = "FALSE" then some false
  else none

def digit? (radix : Nat) (c : Char) : Option Nat :=
  let value :=
    if '0' ≤ c ∧ c ≤ '9' then some (c.toNat - '0'.toNat)
    else if 'a' ≤ c ∧ c ≤ 'f' then some (c.toNat - 'a'.toNat + 10)
    else if 'A' ≤ c ∧ c ≤ 'F' then some (c.toNat - 'A'.toNat + 10)
    else none
  value.filter (· < radix)

def digits? (radix : Nat) : List Char → Option Nat
  | [] => none
  | cs => cs.foldlM (fun n c => (digit? radix c).map (radix * n + ·)) 0

/-- More than one digit, the first one a zero. -/
def zeroLed : List Char → Bool
  | '0' :: c :: rest => (c :: rest).all Char.isDigit
  | _ => false

def splitSign : List Char → Bool × List Char
  | '-' :: rest => (true, rest)
  | '+' :: rest => (false, rest)
  | cs => (false, cs)

/-- An integer without its sign; a letter after a zero gives the radix. -/
def magnitude? : List Char → Option Nat
  | '0' :: 'x' :: rest => digits? 16 rest
  | '0' :: 'o' :: rest => digits? 8 rest
  | '0' :: 'b' :: rest => digits? 2 rest
  | cs => if zeroLed cs then none else digits? 10 cs

def integer? (cs : List Char) : Option Int :=
  let (negative, rest) := splitSign cs
  (magnitude? rest).map fun n => if negative then -(n : Int) else n

def exponent? : List Char → Option Int
  | [] => some 0
  | e :: rest =>
    if e = 'e' ∨ e = 'E' then
      let (negative, digits) := splitSign rest
      (digits? 10 digits).map fun n => if negative then -(n : Int) else n
    else none

/-- A finite float: digits with an optional point among or beside them, and an exponent. -/
def decimalFloat? (negative : Bool) (cs : List Char) : Option Binary64 := do
  let whole := cs.takeWhile Char.isDigit
  let rest := cs.drop whole.length
  let fraction := match rest with
    | '.' :: r => r.takeWhile Char.isDigit
    | _ => []
  let rest := match rest with
    | '.' :: r => r.drop fraction.length
    | r => r
  let digits ← digits? 10 (whole ++ fraction)
  let exponent ← exponent? rest
  let x := Binary64.ofDecimal negative digits (exponent - fraction.length)
  if x.isFinite then some x else none

def float? (s : String) : Option Binary64 :=
  if s = ".nan" || s = ".NaN" || s = ".NAN" then some Binary64.nan
  else
    let (negative, rest) := splitSign s.toList
    let word := String.ofList rest
    if word = ".inf" || word = ".Inf" || word = ".INF" then some (Binary64.infinity negative)
    else decimalFloat? negative rest

/-- The meaning of an integer: 64 bits are kept, further ones up to 128 are refused, and a yet
wider integer is none at all. -/
def ofInteger? (n : Int) : Option Meaning :=
  if -twoPow 63 ≤ n ∧ n < twoPow 64 then some (.number (.integer n))
  else if -twoPow 127 ≤ n ∧ n < twoPow 128 then some .wideInteger
  else none

def numberMeaning (s : String) : Meaning :=
  match (integer? s.toList).bind ofInteger? with
  | some meaning => meaning
  | none =>
    if zeroLed (splitSign s.toList).2 then .text
    else
      match float? s with
      | some x => .number (.float x)
      | none => .text

end Scalar

def meaning (s : String) : Meaning :=
  if s = "" || Scalar.isNull s then .null
  else
    match Scalar.bool? s with
    | some b => .bool b
    | none => Scalar.numberMeaning s

end ManifestModules.Yaml
