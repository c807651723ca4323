import ManifestModules.Value.Basic

/-! # Finite values

JSON has no infinities and no NaN. In the values that are given out, null stands
for them.
-/

namespace ManifestModules.Value

mutual

/-- A value with null in place of each number that is not finite. -/
def finite : Value → Value
  | .null => .null
  | .bool b => .bool b
  | .number n => if n.isFinite then .number n else .null
  | .string s => .string s
  | .list items => .list (finiteItems items)
  | .map entries => .map (finiteEntries entries)

def finiteItems : List Value → List Value
  | [] => []
  | item :: rest => finite item :: finiteItems rest

def finiteEntries : List (String × Value) → List (String × Value)
  | [] => []
  | (key, value) :: rest => (key, finite value) :: finiteEntries rest

end

end ManifestModules.Value
