/-! # Edit distance

The least number of insertions, deletions and replacements of one character
that turn one text into another, computed one row of the table at a time.
-/

namespace ManifestModules.Text

/-- The rest of a row of distances. `diagonal` and `previous` come from the row above, `left` is
the entry before; `c` is the character of the row. -/
def nextRow (c : Char) : (diagonal left : Nat) → (previous : List Nat) → List Char → List Nat
  | diagonal, left, above :: previous, d :: ds =>
    let here := min (min (left + 1) (above + 1)) (if c = d then diagonal else diagonal + 1)
    here :: nextRow c above here previous ds
  | _, _, _, _ => []

/-- The distances from the characters read so far to every beginning of the target. -/
def distanceRow (target source : List Char) : List Nat :=
  source.foldl
    (fun row c =>
      match row with
      | [] => []
      | first :: rest => (first + 1) :: nextRow c first (first + 1) rest target)
    (List.range (target.length + 1))

/-- The last entry of the row of the whole source. -/
def editDistance (source target : String) : Nat :=
  (distanceRow target.toList source.toList).getLastD 0

end ManifestModules.Text
