/-! # Tables

A table assigns values to names. It is a list of pairs with ascending names, in
code point order, so that every walk over it has one order, whatever the order
of insertion was.
-/

namespace ManifestModules

abbrev Table (α : Type) := List (String × α)

namespace Table

variable {α : Type}

/-- Keeps the keys ascending; an old value of the key is replaced. -/
def put : Table α → String → α → Table α
  | [], key, value => [(key, value)]
  | (k, v) :: rest, key, value =>
    if key < k then (key, value) :: (k, v) :: rest
    else if key = k then (key, value) :: rest
    else (k, v) :: put rest key value

def without (table : Table α) (key : String) : Table α :=
  table.filter (·.1 ≠ key)

def keys (table : Table α) : List String :=
  table.map (·.1)

/-- Of several pairs with one key the last one counts. -/
def ofPairs (pairs : List (String × α)) : Table α :=
  pairs.foldl (fun table (key, value) => put table key value) []

/-- The entries of `base`, replaced and extended by those of `newer`. -/
def override (base newer : Table α) : Table α :=
  newer.foldl (fun table (key, value) => put table key value) base

def onlyEntry? : Table α → Option (String × α)
  | [entry] => some entry
  | _ => none

def Sorted (table : Table α) : Prop :=
  table.Pairwise (·.1 < ·.1)

end Table

end ManifestModules
