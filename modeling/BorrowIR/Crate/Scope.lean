import BorrowIR.Crate.Basic

/-!
# What printed code refers to

Printed code shows declarations, parameters and variables by their names. A `Scope` knows them:
the crate, the parameters of the declaration, and the variables of the body. What has no name, or is
not there, is shown by its number behind an `@`.
-/

namespace BorrowIR

/-- The crate, the parameters and the variables that code refers to. -/
structure Scope where
  crate : Crate Statement
  generics : Generics
  locals : List Var

/-- The scope of a crate, outside of its declarations. -/
def Crate.scope (crate : Crate Statement) : Scope := ⟨crate, .empty, []⟩

/-- A variable is shown by its name and its number. -/
def Var.text (var : Var) : String := var.name.getD "" ++ "@" ++ var.id.text

/-- Variants of the builtin option type: the first one is `None`, the second one is `Some`. -/
def VariantId.optionText (variant : VariantId) : String :=
  match variant.index with
  | 0 => "None"
  | 1 => "Some"
  | _ => "@Variant" ++ variant.text

namespace Scope

/-- The name of a type declaration. -/
def typeText (scope : Scope) (id : TypeDeclId) : String :=
  match scope.crate.types.find? id with
  | some decl => decl.name.text
  | none => "@Adt" ++ id.text

/-- The name of a function declaration. -/
def funText (scope : Scope) (id : FunDeclId) : String :=
  match scope.crate.functions.find? id with
  | some decl => decl.name.text
  | none => "@Fun" ++ id.text

/-- The name of a global declaration. -/
def globalText (scope : Scope) (id : GlobalDeclId) : String :=
  match scope.crate.globals.find? id with
  | some decl => decl.name.text
  | none => "@Global" ++ id.text

/-- The name of a variant of a declared type. -/
def variantText (scope : Scope) (adt : Option TypeDeclId) (variant : VariantId) : String :=
  match (adt.bind scope.crate.types.find?).bind fun decl => decl.variant? variant with
  | some variant => variant.name
  | none => "@Variant" ++ variant.text

/-- The name of a field of a declared type; one without a name is shown by its place. -/
def fieldText (scope : Scope) (adt : TypeDeclId) (variant : Option VariantId) (field : FieldId) :
    String :=
  match (scope.crate.types.find? adt).bind fun decl => decl.field? variant field with
  | some { name := some name, .. } => name
  | _ => field.text

/-- The name of a type parameter. -/
def typeVarText (scope : Scope) (id : TypeVarId) : String :=
  match scope.generics.types.find? fun param => param.id = id with
  | some param => param.name
  | none => "@T" ++ id.text

/-- The name of a region parameter. -/
def regionVarText (scope : Scope) (id : RegionVarId) : String :=
  match scope.generics.regions.find? fun param => param.id = id with
  | some { name := some name, .. } => name
  | _ => (Region.var id).text

/-- The variable with this number. -/
def local? (scope : Scope) (id : VarId) : Option Var := scope.locals.find? fun var => var.id = id

/-- A variable, which has a name if the scope knows it and it has one. -/
def varText (scope : Scope) (id : VarId) : String :=
  match scope.local? id with
  | some var => var.text
  | none => "@" ++ id.text

end Scope

end BorrowIR
