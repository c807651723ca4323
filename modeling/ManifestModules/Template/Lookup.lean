import ManifestModules.Value.Basic
import ManifestModules.Failure
import ManifestModules.Text.Split

/-! # Dotted paths

An identifier is a head and the segments after its dots. Each segment is one
step from a value to a part of it: a key of a map, or a position in a list.
-/

namespace ManifestModules.Template

/-- The head of an identifier and its segments. -/
def splitIdent (ident : String) : String × List String :=
  let (head, segments) := Text.splitAt '.' ident.toList
  (String.ofList head, segments.map String.ofList)

def digitValue? (c : Char) : Option Nat :=
  if '0' ≤ c ∧ c ≤ '9' then some (c.toNat - '0'.toNat) else none

def decimal? : List Char → Option Nat
  | [] => none
  | cs => cs.foldlM (fun n c => (digitValue? c).map (10 * n + ·)) 0

/-- A list position: decimal digits after an optional plus sign, below `2 ^ 64`. -/
def position? (segment : String) : Option Nat :=
  let digits := match segment.toList with
    | '+' :: rest => rest
    | cs => cs
  (decimal? digits).filter (· < twoPow 64)

inductive StepFault where
  | noKey (segment : String)
  | notAPosition
  | outOfRange (index length : Nat)
  | notIndexable (found : String)
deriving DecidableEq, Repr

def StepFault.message : StepFault → String
  | .noKey segment => s!"no key '{segment}' in map"
  | .notAPosition => "list indices must be non-negative integers"
  | .outOfRange index length => s!"index {index} out of range for list of length {length}"
  | .notIndexable found => s!"cannot index into a {found}"

def step (value : Value) (segment : String) : Except StepFault Value :=
  match value with
  | .map entries =>
    match entries.lookup segment with
    | some v => .ok v
    | none => .error (.noKey segment)
  | .list items =>
    match position? segment with
    | none => .error .notAPosition
    | some index =>
      match items[index]? with
      | some v => .ok v
      | none => .error (.outOfRange index items.length)
  | scalar => .error (.notIndexable scalar.typeName)

/-- The part of a value that the segments lead to. `ident` is only named in the failure. -/
def indexPath (ident : String) : Value → List String → Except Failure Value
  | value, [] => .ok value
  | value, segment :: rest =>
    match step value segment with
    | .ok next => indexPath ident next rest
    | .error fault => .error (.invalidPathIndex ident segment fault.message)

end ManifestModules.Template
