/-! # Splitting a text at a character

A text falls into the parts between the occurrences of a separator. There is
always a first part, and writing the separator between the parts gives the text
back.
-/

namespace ManifestModules.Text

/-- The first part and the parts after it. -/
def splitAt (separator : Char) : List Char → List Char × List (List Char)
  | [] => ([], [])
  | c :: rest =>
    let (part, parts) := splitAt separator rest
    if c = separator then ([], part :: parts) else (c :: part, parts)

def split (separator : Char) (s : String) : List String :=
  let (part, parts) := splitAt separator s.toList
  (part :: parts).map String.ofList

end ManifestModules.Text
