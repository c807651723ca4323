import ManifestModules.Decimal.Layout

/-! # Numbers of a document

A number is an integer or a binary64 number, and the two stay apart: `1` and
`1.0` are different numbers with different texts. `label` is the text used
inside strings and as a map key, where an integral float loses its fraction.
-/

namespace ManifestModules

open Decimal

inductive Number where
  | integer (n : Int)
  | float (x : Binary64)
deriving DecidableEq, Repr

def integerText (n : Int) : String :=
  String.ofList ((if n < 0 then ['-'] else []) ++ digitChars n.natAbs)

namespace Number

/-- Floats in documents: positional from `1e-5` up to `1e16`. -/
def documentLayout : Layout where
  plainFrom := -5
  plainBelow := 16
  exponentPlus := false
  nan := ".nan"
  infinity := ".inf"
  negativeInfinity := "-.inf"

/-- Floats in JSON text carry the sign of a positive exponent; JSON has no infinities. -/
def jsonLayout : Layout where
  plainFrom := -5
  plainBelow := 16
  exponentPlus := true
  nan := "null"
  infinity := "null"
  negativeInfinity := "null"

def text : Number → String
  | .integer n => integerText n
  | .float x => documentLayout.render x

def jsonText : Number → String
  | .integer n => integerText n
  | .float x => jsonLayout.render x

/-- Integral floats below this magnitude are labelled as integers. -/
def labelBound : Nat := tenPow 15

/-- The text of a number inside a string or as a map key. -/
def label : Number → String
  | .integer n => integerText n
  | .float x =>
    match x.toInt? with
    | some n => if n.natAbs < labelBound then integerText n else documentLayout.render x
    | none => documentLayout.render x

def isFinite : Number → Bool
  | .integer _ => true
  | .float x => x.isFinite

def same : Number → Number → Bool
  | .integer a, .integer b => a == b
  | .float a, .float b => a.sameNumber b
  | _, _ => false

end Number

end ManifestModules
