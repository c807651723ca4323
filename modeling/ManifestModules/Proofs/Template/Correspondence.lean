import ManifestModules.Proofs.Template.Identifiers
import Mathlib.Logic.Basic

/-!
# Substitution is uniform in its resolver

Substitution reaches its surroundings only through the resolver, and it asks only for the
identifiers in its template. A relation between computations that is respected by returning,
sequencing and the two failures of substitution itself therefore carries over from resolvers to
whole templates. The second side is a family of computations, so that one run can be compared with
many at once.
-/

namespace ManifestModules.Template

/-- A relation between computations and families of computations that substitution respects. It may
depend on the identifiers that are asked for; a failure may be taken to ask for any. -/
structure Correspondence (m m' : Type → Type) [Monad m] [Monad m'] (ι : Type) where
  Rel : ∀ {α : Type}, (asked : List String) → ExceptT Failure m α →
    (ι → ExceptT Failure m' α) → Prop
  pure : ∀ {α : Type} (a : α), Rel [] (Pure.pure a) fun _ => Pure.pure a
  bind : ∀ {α β : Type} {asked later : List String} {x : ExceptT Failure m α}
    {y : ι → ExceptT Failure m' α} {f : α → ExceptT Failure m β}
    {g : ι → α → ExceptT Failure m' β},
    Rel asked x y → (∀ a, Rel later (f a) fun i => g i a) →
      Rel (asked ++ later) (x >>= f) fun i => y i >>= g i
  fillMismatch : ∀ {α : Type} (asked : List String) (hole template found : String),
    Rel (α := α) asked (throw (.fillTypeMismatch hole template found))
      fun _ => throw (.fillTypeMismatch hole template found)
  spreadMismatch : ∀ {α : Type} (asked : List String) (hole found : String),
    Rel (α := α) asked (throw (.spreadTypeMismatch hole found))
      fun _ => throw (.spreadTypeMismatch hole found)

namespace Correspondence

variable {m m' : Type → Type} [Monad m] [Monad m'] {ι : Type}
variable (c : Correspondence m m' ι) {resolve : Resolver m} {resolve' : ι → Resolver m'}
  {asked : List String}

/-- What comes last asks for nothing. -/
theorem bind_pure {α β : Type} {x : ExceptT Failure m α} {y : ι → ExceptT Failure m' α}
    (f : α → β) (h : c.Rel asked x y) :
    c.Rel asked (x >>= fun a => Pure.pure (f a)) fun i => y i >>= fun a => Pure.pure (f a) := by
  have hbind := c.bind h fun a => c.pure (f a)
  rwa [List.append_nil] at hbind

theorem fillPieces (template : String) (parts : List Piece)
    (h : ∀ ident ∈ parts.filterMap Piece.ident?, c.Rel [ident] (resolve ident)
      fun i => resolve' i ident) :
    c.Rel (parts.filterMap Piece.ident?) (Template.fillPieces resolve template parts)
      fun i => Template.fillPieces (resolve' i) template parts := by
  induction parts with
  | nil => exact c.pure ""
  | cons part rest ih =>
    cases part with
    | char k => exact c.bind_pure (String.ofList [k] ++ ·) (ih h)
    | hole name =>
      obtain ⟨hfirst, hrest⟩ := List.forall_mem_cons.1 h
      refine c.bind hfirst fun value => ?_
      cases hv : fillText? value with
      | some text => exact c.bind_pure (text ++ ·) (ih hrest)
      | none => exact c.fillMismatch _ _ _ _

theorem spreadItems (ident : String) (value : Value) :
    c.Rel [] (Template.spreadItems ident value) fun _ => Template.spreadItems ident value := by
  cases value with
  | list items => exact c.pure items
  | _ => exact c.spreadMismatch _ _ _

theorem map [LawfulMonad m] [LawfulMonad m'] {α β : Type} {x : ExceptT Failure m α}
    {y : ι → ExceptT Failure m' α} (f : α → β) (h : c.Rel asked x y) :
    c.Rel asked (f <$> x) fun i => f <$> y i := by
  simp only [map_eq_pure_bind]
  exact c.bind_pure f h

theorem substituteString [LawfulMonad m] [LawfulMonad m'] (s : String)
    (h : ∀ ident ∈ textIdents s, c.Rel [ident] (resolve ident) fun i => resolve' i ident) :
    c.Rel (textIdents s) (Template.substituteString resolve s)
      fun i => Template.substituteString (resolve' i) s := by
  simp only [Template.substituteString]
  cases he : expandIdent? s with
  | some ident =>
    rw [textIdents_of_expandIdent? he] at h ⊢
    exact h ident (List.mem_singleton_self ident)
  | none =>
    by_cases hp : (pieces s).any Piece.isHole
    · simp only [hp, if_true]
      exact c.map _ (c.fillPieces s (pieces s) h)
    · simp only [hp]
      rw [textIdents_of_not_isHole hp]
      exact c.pure (Value.string s)

mutual

theorem substitute [LawfulMonad m] [LawfulMonad m'] : (v : Value) →
    (∀ ident ∈ idents v, c.Rel [ident] (resolve ident) fun i => resolve' i ident) →
    c.Rel (idents v) (Template.substitute resolve v) fun i => Template.substitute (resolve' i) v
  | .string s, h => by
    simp only [Template.substitute, idents] at h ⊢
    exact c.substituteString s h
  | .list items, h => by
    simp only [Template.substitute, idents] at h ⊢
    exact c.map _ (substituteItems items h)
  | .map entries, h => by
    simp only [Template.substitute, idents] at h ⊢
    exact c.map _ (substituteEntries entries h)
  | .null, _ => by simp only [Template.substitute, idents]; exact c.pure _
  | .bool _, _ => by simp only [Template.substitute, idents]; exact c.pure _
  | .number _, _ => by simp only [Template.substitute, idents]; exact c.pure _

theorem substituteItems [LawfulMonad m] [LawfulMonad m'] : (items : List Value) →
    (∀ ident ∈ itemIdents items, c.Rel [ident] (resolve ident) fun i => resolve' i ident) →
    c.Rel (itemIdents items) (Template.substituteItems resolve items)
      fun i => Template.substituteItems (resolve' i) items
  | [], _ => by simp only [Template.substituteItems, itemIdents]; exact c.pure []
  | item :: rest, h => by
    simp only [Template.substituteItems, itemIdents] at h ⊢
    have following (items : List Value) := c.bind_pure (items ++ ·)
      (substituteItems rest fun ident hi => h ident (List.mem_append_right _ hi))
    cases hs : spreadOf? item with
    | some ident =>
      rw [hs] at h
      exact c.bind (h ident (by simp)) fun value => c.bind (c.spreadItems ident value) following
    | none =>
      rw [hs] at h
      exact c.bind (substitute item fun ident hi => h ident (List.mem_append_left _ hi))
        fun value => c.bind (c.pure [value]) following

theorem substituteEntries [LawfulMonad m] [LawfulMonad m'] : (entries : List (String × Value)) →
    (∀ ident ∈ entryIdents entries, c.Rel [ident] (resolve ident) fun i => resolve' i ident) →
    c.Rel (entryIdents entries) (Template.substituteEntries resolve entries)
      fun i => Template.substituteEntries (resolve' i) entries
  | [], _ => by simp only [Template.substituteEntries, entryIdents]; exact c.pure []
  | (key, value) :: rest, h => by
    simp only [Template.substituteEntries, entryIdents] at h ⊢
    exact c.bind (substitute value fun ident hi => h ident (List.mem_append_left _ hi))
      fun filled => c.bind_pure ((key, filled) :: ·)
        (substituteEntries rest fun ident hi => h ident (List.mem_append_right _ hi))

end

end Correspondence

/-- A property of computations is a relation to no others. -/
abbrev Property (m : Type → Type) [Monad m] := Correspondence m Id Empty

theorem Property.substituteEntries {m : Type → Type} [Monad m] [LawfulMonad m] (p : Property m)
    {resolve : Resolver m} (entries : Entries)
    (h : ∀ ident ∈ entryIdents entries, p.Rel [ident] (resolve ident) nofun) :
    p.Rel (entryIdents entries) (Template.substituteEntries resolve entries) nofun := by
  have hnone {α : Type} (y : Empty → ExceptT Failure Id α) : y = nofun := funext nofun
  have hresolve (ident : String) (hi : ident ∈ entryIdents entries) :
      p.Rel [ident] (resolve ident) fun i => (nofun : Empty → Resolver Id) i ident := by
    rw [hnone fun i => _]
    exact h ident hi
  have hentries := Correspondence.substituteEntries p entries hresolve
  rwa [hnone fun i => _] at hentries

end ManifestModules.Template
