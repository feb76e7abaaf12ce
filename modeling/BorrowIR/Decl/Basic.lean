import BorrowIR.Source.Name
import BorrowIR.Source.Span
import BorrowIR.Ty.Basic

/-!
# Declarations

Type declarations, function declarations and global declarations. The latter two are generic in
the code `B` of their bodies: a `Body` frames the code with its local variables, of which the first
is the result and the next `argCount` are the arguments.
-/

namespace BorrowIR

/-- The sorts of declarations. -/
inductive DeclSort where
  | type
  | function
  | global
deriving DecidableEq, Repr

/-- The word for a sort of declarations. -/
def DeclSort.text : DeclSort → String
  | .type => "type"
  | .function => "function"
  | .global => "global"

/-- A region parameter. -/
structure RegionVar where
  id : RegionVarId
  name : Option String
deriving DecidableEq, Repr

/-- A type parameter. -/
structure TypeVar where
  id : TypeVarId
  name : String
deriving DecidableEq, Repr

/-- Region parameters that stand for one lifetime, and the groups that outlive it. -/
structure RegionGroup where
  id : RegionGroupId
  regions : List RegionVarId
  parents : List RegionGroupId
deriving DecidableEq, Repr

/-- The parameters in scope. -/
structure Generics where
  regions : List RegionVar
  types : List TypeVar
deriving DecidableEq, Repr

/-- No parameters. -/
def Generics.empty : Generics := ⟨[], []⟩

/-- A field of a structure or of a variant. In a tuple structure it has no name. -/
structure Field where
  origin : Provenance
  name : Option String
  ty : SigTy
deriving DecidableEq

/-- A variant of an enumeration. -/
structure Variant where
  origin : Provenance
  name : String
  fields : List Field
deriving DecidableEq

/-- What a type declaration declares. -/
inductive TypeDeclKind where
  | struct (fields : List Field)
  | enum (variants : List Variant)
  /-- A type whose definition is not in the crate. -/
  | external
deriving DecidableEq

/-- A type declaration. -/
structure TypeDecl where
  id : TypeDeclId
  origin : Provenance
  name : Name
  regions : List RegionVar
  types : List TypeVar
  hierarchy : List RegionGroup
  kind : TypeDeclKind
deriving DecidableEq

namespace TypeDecl

/-- The parameters of a declaration. -/
def generics (decl : TypeDecl) : Generics := ⟨decl.regions, decl.types⟩

/-- A variant of an enumeration. -/
def variant? (decl : TypeDecl) (variant : VariantId) : Option Variant :=
  match decl.kind with
  | .enum variants => variants[variant.index]?
  | _ => none

/-- A field of a structure, or of a variant of an enumeration. -/
def field? (decl : TypeDecl) (variant : Option VariantId) (field : FieldId) : Option Field :=
  match decl.kind, variant with
  | .struct fields, none => fields[field.index]?
  | .enum _, some variant => (decl.variant? variant).bind fun v => v.fields[field.index]?
  | _, _ => none

end TypeDecl

/-- A local variable. One that no name was written for has none. -/
structure Var where
  id : VarId
  name : Option String
  ty : ErasedTy
deriving DecidableEq

/-- The signature of a function. The first `earlyBound` region parameters are bound early. -/
structure Signature where
  regions : List RegionVar
  earlyBound : Nat
  hierarchy : List RegionGroup
  types : List TypeVar
  inputs : List SigTy
  output : SigTy
deriving DecidableEq

/-- The parameters of a signature. -/
def Signature.generics (signature : Signature) : Generics := ⟨signature.regions, signature.types⟩

/-- Code and its local variables: the result, the arguments, and the others. -/
structure Body (B : Type) where
  origin : Provenance
  argCount : Nat
  locals : List Var
  code : B

namespace Body

variable {B : Type}

/-- The variable of the result. -/
def returnVar? (body : Body B) : Option Var := body.locals.head?

/-- The variables of the arguments. -/
def args (body : Body B) : List Var := (body.locals.drop 1).take body.argCount

/-- The variables that are neither the result nor arguments. -/
def temporaries (body : Body B) : List Var := body.locals.drop (body.argCount + 1)

end Body

/-- A function declaration. A function from elsewhere has no body. -/
structure FunDecl (B : Type) where
  id : FunDeclId
  origin : Provenance
  name : Name
  signature : Signature
  body : Option (Body B)

/-- A global declaration. A global from elsewhere has no body. -/
structure GlobalDecl (B : Type) where
  id : GlobalDeclId
  origin : Provenance
  name : Name
  ty : ErasedTy
  body : Option (Body B)

/-- Declarations that depend on one another, or a single one. -/
inductive Group (α : Type) where
  | single (id : α)
  | cycle (ids : List α)
deriving DecidableEq, Repr

/-- The members of a group in their order. -/
def Group.ids {α : Type} : Group α → List α
  | .single id => [id]
  | .cycle ids => ids

/-- A group of declarations of one sort. Globals never depend on one another. -/
inductive DeclGroup where
  | types (group : Group TypeDeclId)
  | functions (group : Group FunDeclId)
  | global (id : GlobalDeclId)
deriving DecidableEq, Repr

/-- The numbers of the members. -/
def DeclGroup.indices : DeclGroup → List Nat
  | .types group => group.ids.map EntityId.index
  | .functions group => group.ids.map EntityId.index
  | .global id => [id.index]

end BorrowIR
