import ManifestModules.Proofs.Path
import ManifestModules.Proofs.Table
import ManifestModules.Section.Shape

/-!
# Import paths in sections

All import paths that are written in a section can be replaced by their canonical spellings. What is
found in the section then is what was found before, with canonical paths, and what was wrong with it
is still wrong.
-/

namespace ManifestModules

namespace Table

variable {α : Type}

/-- Changes values only, each in a way that may depend on its key. -/
def mapValues (f : String → α → α) (table : Table α) : Table α :=
  table.map fun (key, value) => (key, f key value)

variable (f : String → α → α) (table : Table α)

theorem lookup_mapValues (key : String) :
    (mapValues f table).lookup key = (table.lookup key).map (f key) := by
  induction table with
  | nil => rfl
  | cons entry rest ih =>
    obtain ⟨k, v⟩ := entry
    change List.lookup key ((k, f k v) :: mapValues f rest) = _
    rw [lookup_cons, lookup_cons]
    by_cases h : key = k
    · simp [h]
    · simp [h, ih]

theorem without_mapValues (key : String) :
    without (mapValues f table) key = mapValues f (without table key) := by
  induction table with
  | nil => rfl
  | cons entry rest ih =>
    obtain ⟨k, v⟩ := entry
    by_cases h : k = key <;> simp_all [without, mapValues]

theorem length_mapValues : (mapValues f table).length = table.length :=
  List.length_map ..

theorem isEmpty_mapValues : (mapValues f table).isEmpty = table.isEmpty := by
  cases table <;> rfl

theorem mapValues_eq_self {f : String → α → α} {table : Table α}
    (h : ∀ entry ∈ table, f entry.1 entry.2 = entry.2) : mapValues f table = table := by
  induction table with
  | nil => rfl
  | cons entry rest ih =>
    obtain ⟨hentry, hrest⟩ := List.forall_mem_cons.1 h
    change (entry.1, f entry.1 entry.2) :: mapValues f rest = _
    rw [hentry, ih hrest]

end Table

def ImportDeclaration.canonical (declaration : ImportDeclaration) : ImportDeclaration :=
  { declaration with path := normalizePath declaration.path }

namespace Section

def canonicalPath : Value → Value
  | .string path => .string (normalizePath path)
  | other => other

/-- An import as it is written: all keys but that of the parameters hold paths. -/
def canonicalImport : Value → Value
  | .map entries => .map (Table.mapValues
      (fun key value => if key = paramsKey then value else canonicalPath value) entries)
  | other => other

def canonicalImports : Value → Value
  | .list items => .list (items.map canonicalImport)
  | other => other

def canonicalEntries (entries : Entries) : Entries :=
  Table.mapValues (fun key value => if key = importsKey then canonicalImports value else value)
    entries

def canonical (found : Section) : Section :=
  { found with imports := found.imports.map ImportDeclaration.canonical }

section

variable {entries : Entries}

theorem lookup_canonicalEntries_imports :
    (canonicalEntries entries).lookup importsKey =
      (entries.lookup importsKey).map canonicalImports := by
  simp [canonicalEntries, Table.lookup_mapValues]

theorem lookup_canonicalEntries {key : String} (h : key ≠ importsKey) :
    (canonicalEntries entries).lookup key = entries.lookup key := by
  simp [canonicalEntries, Table.lookup_mapValues, h]

theorem without_canonicalEntries :
    Table.without (canonicalEntries entries) importsKey = Table.without entries importsKey := by
  rw [canonicalEntries, Table.without_mapValues]
  apply Table.mapValues_eq_self
  intro entry hentry
  have hkey := (List.mem_filter.1 hentry).2
  simp_all

def PartialImport.canonical (found : PartialImport) : PartialImport :=
  { found with target := found.target.map fun (name, path) => (name, normalizePath path) }

theorem addKey_canonical (found : PartialImport) (key : String) (value : Value) :
    found.canonical.addKey (key, if key = paramsKey then value else canonicalPath value) =
      (found.addKey (key, value)).map PartialImport.canonical := by
  rcases found with ⟨target, params⟩
  by_cases h : key = paramsKey
  · cases value <;> simp [PartialImport.addKey, PartialImport.canonical, h, Except.map]
  · cases target <;> cases value <;>
      simp [PartialImport.addKey, PartialImport.canonical, canonicalPath, h, Except.map,
        Value.typeName]

theorem foldlM_addKey_canonical (found : PartialImport) (entries : Entries) :
    (Table.mapValues (fun key value => if key = paramsKey then value else canonicalPath value)
        entries).foldlM PartialImport.addKey found.canonical =
      (entries.foldlM PartialImport.addKey found).map PartialImport.canonical := by
  induction entries generalizing found with
  | nil => rfl
  | cons entry rest ih =>
    obtain ⟨key, value⟩ := entry
    change (found.canonical.addKey (key, if key = paramsKey then value else canonicalPath value) >>=
      _) = _
    rw [addKey_canonical, List.foldlM_cons]
    cases found.addKey (key, value) with
    | error fault => rfl
    | ok after => exact ih after

theorem readImport_canonical (value : Value) :
    readImport (canonicalImport value) =
      (readImport value).map ImportDeclaration.canonical := by
  cases value with
  | map entries =>
    have hfold := foldlM_addKey_canonical ⟨none, []⟩ entries
    simp only [PartialImport.canonical, Option.map_none] at hfold
    simp only [readImport, canonicalImport, Table.isEmpty_mapValues, Table.length_mapValues, hfold]
    by_cases hempty : entries.isEmpty
    · simp [hempty, Except.map, bind, Except.bind, throw, throwThe, MonadExceptOf.throw]
    by_cases hlong : entries.length > 2
    · simp [hempty, hlong, Except.map, bind, Except.bind, throw, throwThe, MonadExceptOf.throw]
    cases entries.foldlM PartialImport.addKey ⟨none, []⟩ with
    | error fault => simp [hempty, hlong, Except.map, bind, Except.bind]
    | ok found =>
      rcases found with ⟨target, params⟩
      cases target <;>
        simp [hempty, hlong, Except.map, bind, Except.bind, throw, throwThe, MonadExceptOf.throw,
          pure, Except.pure, ImportDeclaration.canonical, PartialImport.canonical]
  | _ => rfl

theorem readImportList_canonical (before : List ImportDeclaration) (items : List Value) :
    readImportList (before.map ImportDeclaration.canonical) (items.map canonicalImport) =
      (readImportList before items).map (List.map ImportDeclaration.canonical) := by
  induction items generalizing before with
  | nil => rfl
  | cons value rest ih =>
    rw [List.map_cons, readImportList, readImportList, readImport_canonical]
    cases readImport value with
    | error fault => rfl
    | ok declaration =>
      have hnames : (before.map ImportDeclaration.canonical).any (·.name = declaration.name) =
          before.any (·.name = declaration.name) := by
        rw [List.any_map]
        rfl
      have hrest := ih (before ++ [declaration])
      rw [List.map_append] at hrest
      change (if (before.map ImportDeclaration.canonical).any (·.name = declaration.name)
        then _ else _) = Except.map _ (if _ then _ else _)
      rw [hnames]
      by_cases hagain : before.any (·.name = declaration.name)
      · rw [if_pos hagain, if_pos hagain]
        rfl
      · rw [if_neg hagain, if_neg hagain]
        exact hrest

theorem readImports_canonical (value : Option Value) :
    readImports (value.map canonicalImports) =
      (readImports value).map (List.map ImportDeclaration.canonical) := by
  rcases value with _ | value
  · rfl
  cases value with
  | list items => exact readImportList_canonical [] items
  | _ => rfl

/-- A section with canonical import paths is read as the section is, but for these. -/
theorem ofEntries_canonical (path : String) (entries : Entries) :
    ofEntries path (canonicalEntries entries) = (ofEntries path entries).map canonical := by
  simp only [ofEntries, lookup_canonicalEntries_imports, readImports_canonical,
    without_canonicalEntries]
  rw [lookup_canonicalEntries (by decide)]
  cases readImports (entries.lookup importsKey) with
  | error fault => rfl
  | ok imports =>
    cases readParams (entries.lookup paramsKey) with
    | error fault => rfl
    | ok params =>
      change (if _ then _ else _) = Except.map _ (if _ then _ else _)
      by_cases hlength : (Table.without (Table.without entries importsKey) paramsKey).length = 1
      · rw [if_pos hlength, if_pos hlength]
        rfl
      · rw [if_neg hlength, if_neg hlength]
        rfl

end

end Section

end ManifestModules
