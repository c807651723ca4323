import ManifestModules.Text.EditDistance

/-! # Suggestions for unknown names

The suggested names are the nearest ones by edit distance, names at one
distance in alphabetical order, each name once.
-/

namespace ManifestModules.Template

structure RankedName where
  distance : Nat
  name : String
deriving DecidableEq, Repr

namespace RankedName

def before (a b : RankedName) : Bool :=
  a.distance < b.distance || (a.distance = b.distance && a.name < b.name)

/-- Keeps the list in order and without repetitions. -/
def insert (a : RankedName) : List RankedName → List RankedName
  | [] => [a]
  | b :: rest =>
    if a.before b then a :: b :: rest
    else if a = b then b :: rest
    else b :: insert a rest

end RankedName

/-- Every available name once, nearest first. -/
def ranking (target : String) (available : List String) : List RankedName :=
  available.foldr
    (fun name ranked => RankedName.insert ⟨Text.editDistance target name, name⟩ ranked) []

/-- A name is near if its distance is at most half the length of the target in bytes. -/
def nearness (target : String) : Nat :=
  target.utf8ByteSize * 50 / 100

def maxSuggestions : Nat := 3

def similarNames (target : String) (available : List String) : List String :=
  (((ranking target available).filter (·.distance ≤ nearness target)).take maxSuggestions).map
    (·.name)

end ManifestModules.Template
