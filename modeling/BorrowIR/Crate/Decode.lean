import BorrowIR.Crate.Basic
import BorrowIR.Decl.Decode
import BorrowIR.Statement.Decode

/-!
# Decoding crates

The file table is decoded before anything that holds a span, and does not outlive the decoding.
When all declarations have been decoded, an identifier that is declared twice is refused, and then
a group that names a declaration which the crate does not have.
-/

namespace BorrowIR

open Decode Outcome

/-- Adds declarations to a map by their identifiers, each of which may occur once. -/
def IdMap.indexOnto {sort : Entity} {α : Type} (declSort : DeclSort) (id : α → EntityId sort) :
    IdMap sort α → List α → Outcome (IdMap sort α)
  | map, [] => pure map
  | map, decl :: decls =>
    if map.contains (id decl) then fail (.violation (.repeatedDecl declSort (id decl).index))
    else indexOnto declSort id (map.insert (id decl) decl) decls

/-- The declarations by their identifiers. -/
def IdMap.index {sort : Entity} {α : Type} (declSort : DeclSort) (id : α → EntityId sort)
    (decls : List α) : Outcome (IdMap sort α) :=
  indexOnto declSort id .empty decls

namespace Crate

variable {B : Type}

/-- The first member of a group that the crate does not declare. -/
def missing? (crate : Crate B) : DeclGroup → Option (DeclSort × Nat)
  | .types group =>
    (group.ids.find? fun id => !crate.types.contains id).map fun id => (.type, id.index)
  | .functions group =>
    (group.ids.find? fun id => !crate.functions.contains id).map fun id => (.function, id.index)
  | .global id => if crate.globals.contains id then none else some (.global, id.index)

/-- Checks that the groups name declarations of the crate. -/
def checkGroups (crate : Crate B) : Outcome Unit :=
  match crate.groups.findSome? crate.missing? with
  | some (sort, index) => fail (.violation (.missingDecl sort index))
  | none => pure ()

/-- A crate with the bodies that `code` reads. -/
def decodeWith (code : BodyReader B) (v : Json) : Outcome (Crate B) := do
  report .began
  within "crate" do
    let (name, files, groups, types, functions, globals) ←
      record ["name", "id_to_file", "declarations", "types", "functions", "globals"] v
    let table ← FileTable.decode files
    let name ← string name
    let groups ← list DeclGroup.decode groups
    let types ← list (TypeDecl.decode table) types
    let functions ← list (FunDecl.decode code table) functions
    let globals ← list (GlobalDecl.decode code table) globals
    let crate : Crate B := {
      name
      groups
      types := ← IdMap.index .type TypeDecl.id types
      functions := ← IdMap.index .function FunDecl.id functions
      globals := ← IdMap.index .global GlobalDecl.id globals }
    crate.checkGroups
    report (.crate crate.name crate.types.size crate.functions.size crate.globals.size)
    return crate

/-- A crate whose bodies are statements. -/
def decode (v : Json) : Outcome (Crate Statement) := decodeWith Statement.decode v

end Crate

end BorrowIR
