/-!
# Identifiers

Types, functions, variables, files and the like refer to one another by number. Each sort of entity
has numbers of its own, and the type of an identifier says what it identifies, so a variable is
never taken for a field.
-/

namespace BorrowIR

/-- The sorts of entities that have numbers. -/
inductive Entity where
  | localFile
  | virtualFile
  | typeDecl
  | typeVar
  | regionVar
  | regionGroup
  | field
  | variant
  | var
  | funDecl
  | globalDecl
deriving DecidableEq, Repr

/-- The number of an entity of one sort. -/
structure EntityId (sort : Entity) where
  index : Nat
deriving DecidableEq, Repr

/-- An identifier is written as its number. -/
def EntityId.text {sort : Entity} (id : EntityId sort) : String := toString id.index

/-- A file of the crate. -/
abbrev LocalFileId := EntityId .localFile

/-- A file that is known by name only. -/
abbrev VirtualFileId := EntityId .virtualFile

/-- A type declaration. -/
abbrev TypeDeclId := EntityId .typeDecl

/-- A type parameter. -/
abbrev TypeVarId := EntityId .typeVar

/-- A region parameter. -/
abbrev RegionVarId := EntityId .regionVar

/-- A group of region parameters. -/
abbrev RegionGroupId := EntityId .regionGroup

/-- The place of a field among the fields of a structure, a variant or a tuple. -/
abbrev FieldId := EntityId .field

/-- The place of a variant among the variants of an enumeration. -/
abbrev VariantId := EntityId .variant

/-- A local variable of a body. -/
abbrev VarId := EntityId .var

/-- A function declaration. -/
abbrev FunDeclId := EntityId .funDecl

/-- A global declaration. -/
abbrev GlobalDeclId := EntityId .globalDecl

end BorrowIR
