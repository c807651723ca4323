import ManifestModules.Proofs.Template.Holes
import ManifestModules.Template.Substitute

/-!
# Identifiers in templates

The identifiers of the holes in a template, in the order in which substitution asks for them. A text
that is one hole is also read as a single piece, so that `pieces` is enough for all texts; only a
spread names its identifier without the dots.
-/

namespace ManifestModules.Template

def Piece.ident? : Piece → Option String
  | .hole name => some (String.ofList name)
  | .char _ => none

def textIdents (s : String) : List String :=
  (pieces s).filterMap Piece.ident?

mutual

def idents : Value → List String
  | .string s => textIdents s
  | .list items => itemIdents items
  | .map entries => entryIdents entries
  | .null | .bool _ | .number _ => []

def itemIdents : List Value → List String
  | [] => []
  | item :: rest =>
    (match spreadOf? item with
      | some ident => [ident]
      | none => idents item) ++ itemIdents rest

def entryIdents : List (String × Value) → List String
  | [] => []
  | (_, value) :: rest => idents value ++ entryIdents rest

end

/-- The head of an identifier, which is looked up in the scope. -/
def headOf (ident : String) : String :=
  (splitIdent ident).1

def heads (templates : Entries) : List String :=
  (entryIdents templates).map headOf

theorem pieces_of_expandIdent? {s ident : String} (h : expandIdent? s = some ident) :
    ∃ name, pieces s = [.hole name] ∧ ident = String.ofList name := by
  obtain ⟨hplain, hs⟩ := expandIdent?_eq_some.1 h
  have hpieces := piecesFrom_hole hplain []
  rw [List.append_nil, ← hs] at hpieces
  simp only [piecesFrom] at hpieces
  exact ⟨ident.toList, hpieces, String.ofList_toList.symm⟩

theorem textIdents_of_expandIdent? {s ident : String} (h : expandIdent? s = some ident) :
    textIdents s = [ident] := by
  obtain ⟨name, hpieces, rfl⟩ := pieces_of_expandIdent? h
  rw [textIdents, hpieces]
  rfl

theorem exists_char_of_not_isHole {parts : List Piece} (h : ¬ parts.any Piece.isHole)
    {piece : Piece} (hpiece : piece ∈ parts) : ∃ c, piece = .char c := by
  cases piece with
  | char c => exact ⟨c, rfl⟩
  | hole name => exact absurd (List.any_eq_true.2 ⟨_, hpiece, rfl⟩) h

theorem textIdents_of_not_isHole {s : String} (h : ¬ (pieces s).any Piece.isHole) :
    textIdents s = [] := by
  rw [textIdents, List.filterMap_eq_nil_iff]
  intro piece hpiece
  obtain ⟨c, rfl⟩ := exists_char_of_not_isHole h hpiece
  rfl

end ManifestModules.Template
