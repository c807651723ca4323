import ManifestModules.Yaml.Node

/-! # Anchors and aliases

An alias stands for the node that its anchor marks. Names become numbers: a
marked node gets the count of the different names before it, and a number means
the last node that got it. A name that is marked twice therefore shares the
number of the name after it.
-/

namespace ManifestModules.Yaml

structure Marked where
  number : Nat
  /-- The place of the node in the order of beginnings. -/
  place : Nat
  node : Node Nat
deriving Repr

/-- What is known after reading a part of a document. -/
structure Anchors where
  /-- Each name with its number. -/
  names : List (String × Nat)
  /-- The nodes begun so far. -/
  begun : Nat
  marked : List Marked
deriving Repr

namespace Anchors

def find? (anchors : Anchors) (number : Nat) : Option (Node Nat) :=
  let found := (anchors.marked.filter (·.number = number)).foldl
    (fun (latest : Option Marked) entry =>
      if latest.any (·.place > entry.place) then latest else some entry) none
  found.map (·.node)

def declare (anchors : Anchors) (name : String) : Anchors :=
  let number := anchors.names.length
  { anchors with names := (name, number) :: anchors.names.filter (·.1 ≠ name) }

end Anchors

abbrev Linking := StateT Anchors (Except Problem)

namespace Node

/-- Begins a node, and gives its number and place if it is marked. -/
def beginMarked (properties : Properties) : Linking (Option (Nat × Nat)) := do
  let before ← get
  let here := { before with begun := before.begun + 1 }
  match properties.anchor with
  | none => set here; pure none
  | some name => set (here.declare name); pure (some (before.names.length, before.begun))

def endMarked (mark : Option (Nat × Nat)) (node : Node Nat) : Linking (Node Nat) := do
  if let some (number, place) := mark then
    modify fun anchors => { anchors with marked := ⟨number, place, node⟩ :: anchors.marked }
  pure node

mutual

/-- Replaces the names of aliases by numbers. -/
def link : Node String → Linking (Node Nat)
  | .scalar properties text plain => do
    let mark ← beginMarked properties
    endMarked mark (.scalar properties text plain)
  | .sequence properties items => do
    let mark ← beginMarked properties
    endMarked mark (.sequence properties (← linkItems items))
  | .mapping properties entries => do
    let mark ← beginMarked properties
    endMarked mark (.mapping properties (← linkEntries entries))
  | .alias name => do
    match (← get).names.lookup name with
    | some number => pure (.alias number)
    | none => throw .unknownAnchor

def linkItems : List (Node String) → Linking (List (Node Nat))
  | [] => pure []
  | item :: rest => do
    let item ← link item
    return item :: (← linkItems rest)

def linkEntries : List (Node String × Node String) → Linking (List (Node Nat × Node Nat))
  | [] => pure []
  | (key, value) :: rest => do
    let key ← link key
    let value ← link value
    return (key, value) :: (← linkEntries rest)

end

mutual

/-- The size of a node: one for a scalar or an alias, and two for a collection beside its parts. -/
def size {α : Type} : Node α → Nat
  | .scalar .. | .alias _ => 1
  | .sequence _ items => 2 + sizeItems items
  | .mapping _ entries => 2 + sizeEntries entries

def sizeItems {α : Type} : List (Node α) → Nat
  | [] => 0
  | item :: rest => size item + sizeItems rest

def sizeEntries {α : Type} : List (Node α × Node α) → Nat
  | [] => 0
  | (key, value) :: rest => size key + size value + sizeEntries rest

end

end Node

end ManifestModules.Yaml
