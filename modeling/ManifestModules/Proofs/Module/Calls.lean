import ManifestModules.Proofs.Module.Run

/-!
# Calls on a module tree

The modules of a tree are evaluated from outside in any order: as a whole, or one of their imports,
at the root or anywhere below it. A failed call leaves a tree on which the next one works.
-/

namespace ManifestModules.Module

variable {m : Type → Type} [Monad m] {σ τ : Type}

/-- Works on the module at a place, named by the positions of imports from the root on. There may
be no module at the place. -/
def descend (work : Module τ → m (Except Failure Unit × Module τ)) :
    (place : List Nat) → Module τ → m (Except Failure Unit × Module τ)
  | [], module => work module
  | index :: place, module =>
    match module.imports[index]? with
    | none => return (.ok (), module)
    | some site => do
      let (result, inner) ← descend work place site.module
      return (result, { module with imports := store module.imports index inner })

def moduleAt? : Module τ → (place : List Nat) → Option (Module τ)
  | module, [] => some module
  | module, index :: place => module.imports[index]?.bind fun site => site.module.moduleAt? place

/-- A call evaluates the module at its place, or the import of that module with the given name. -/
structure Call where
  place : List Nat
  given : Entries
  name : Option String

namespace Call

def atRoot (given : Entries) (name : Option String) : Call :=
  ⟨[], given, name⟩

def work (convert : Converter m τ) (call : Call) (module : Module τ) :
    m (Except Failure Unit × Module τ) :=
  match call.name with
  | none => evaluate convert module call.given
  | some name => evaluateImport convert module call.given name

def run (convert : Converter m τ) (call : Call) (module : Module τ) :
    m (Except Failure Unit × Module τ) :=
  descend (call.work convert) call.place module

end Call

def runCalls (convert : Converter m τ) :
    List Call → Module τ → m (List (Except Failure Unit) × Module τ)
  | [], module => return ([], module)
  | call :: rest, module => do
    let (result, module) ← call.run convert module
    let (results, module) ← runCalls convert rest module
    return (result :: results, module)

def asUnit : Converter (StateM Unit) Unit := fun _ => return .ok ()

section

variable (convert : Converter (StateM σ) τ) (module : Module τ) (s : σ)

theorem run_runCalls_nil : (runCalls convert [] module).run s = (([], module), s) := rfl

theorem run_runCalls_cons (call : Call) (rest : List Call) :
    (runCalls convert (call :: rest) module).run s =
      let left := (call.run convert module).run s
      let more := (runCalls convert rest left.1.2).run left.2
      ((left.1.1 :: more.1.1, more.1.2), more.2) := rfl

theorem run_descend_absent {work : Module τ → StateM σ (Except Failure Unit × Module τ)}
    {index : Nat} {place : List Nat} (h : module.imports[index]? = none) :
    (descend work (index :: place) module).run s = ((.ok (), module), s) := by
  simp only [descend, h]
  rfl

theorem run_descend {work : Module τ → StateM σ (Except Failure Unit × Module τ)}
    {index : Nat} {place : List Nat} {site : Import (Module τ)}
    (h : module.imports[index]? = some site) :
    (descend work (index :: place) module).run s =
      let left := (descend work place site.module).run s
      ((left.1.1, { module with imports := store module.imports index left.1.2 }), left.2) := by
  simp only [descend, h]
  rfl

end

end ManifestModules.Module
