import BorrowIR.Decl.Basic
import BorrowIR.Source.Datum
import BorrowIR.Ty.Datum

/-!
# Declarations as data

Function and global declarations are given the data of the code of their bodies.
-/

namespace BorrowIR

/-- A region parameter. -/
def RegionVar.datum (param : RegionVar) : Datum :=
  .record [("index", param.id.datum), ("name", .ofOption .str param.name)]

/-- A type parameter. -/
def TypeVar.datum (param : TypeVar) : Datum :=
  .record [("index", param.id.datum), ("name", .str param.name)]

/-- A group of region parameters. -/
def RegionGroup.datum (group : RegionGroup) : Datum :=
  .record [("id", group.id.datum), ("regions", .ofList EntityId.datum group.regions),
    ("parents", .ofList EntityId.datum group.parents)]

/-- A field. -/
def Field.datum (field : Field) : Datum :=
  .record [("meta", field.origin.datum), ("name", .ofOption .str field.name),
    ("ty", SigTy.datum field.ty)]

/-- A variant of an enumeration. -/
def Variant.datum (variant : Variant) : Datum :=
  .record [("meta", variant.origin.datum), ("name", .str variant.name),
    ("fields", .ofList Field.datum variant.fields)]

/-- What a type declaration declares. -/
def TypeDeclKind.datum : TypeDeclKind → Datum
  | .struct fields => .wrapped "Struct" (.ofList Field.datum fields)
  | .enum variants => .wrapped "Enum" (.ofList Variant.datum variants)
  | .external => .tag "Opaque"

/-- A type declaration. -/
def TypeDecl.datum (decl : TypeDecl) : Datum :=
  .record [("def_id", decl.id.datum), ("meta", decl.origin.datum), ("name", decl.name.datum),
    ("region_params", .ofList RegionVar.datum decl.regions),
    ("type_params", .ofList TypeVar.datum decl.types),
    ("regions_hierarchy", .ofList RegionGroup.datum decl.hierarchy),
    ("kind", decl.kind.datum)]

/-- A local variable. -/
def Var.datum (var : Var) : Datum :=
  .record [("index", var.id.datum), ("name", .ofOption .str var.name),
    ("ty", ErasedTy.datum var.ty)]

/-- A signature. -/
def Signature.datum (signature : Signature) : Datum :=
  .record [("region_params", .ofList RegionVar.datum signature.regions),
    ("num_early_bound_regions", .int signature.earlyBound),
    ("regions_hierarchy", .ofList RegionGroup.datum signature.hierarchy),
    ("type_params", .ofList TypeVar.datum signature.types),
    ("inputs", .ofList SigTy.datum signature.inputs),
    ("output", SigTy.datum signature.output)]

section

variable {B : Type}

/-- A body. -/
def Body.datum (code : B → Datum) (body : Body B) : Datum :=
  .record [("meta", body.origin.datum), ("arg_count", .int body.argCount),
    ("locals", .ofList Var.datum body.locals), ("body", code body.code)]

/-- A function declaration. -/
def FunDecl.datum (code : B → Datum) (decl : FunDecl B) : Datum :=
  .record [("def_id", decl.id.datum), ("meta", decl.origin.datum), ("name", decl.name.datum),
    ("signature", decl.signature.datum), ("body", .ofOption (Body.datum code) decl.body)]

/-- A global declaration. -/
def GlobalDecl.datum (code : B → Datum) (decl : GlobalDecl B) : Datum :=
  .record [("def_id", decl.id.datum), ("meta", decl.origin.datum), ("name", decl.name.datum),
    ("ty", ErasedTy.datum decl.ty), ("body", .ofOption (Body.datum code) decl.body)]

end

/-- The members of a group. -/
def Group.datum {sort : Entity} : Group (EntityId sort) → Datum
  | .single id => .wrapped "NonRec" id.datum
  | .cycle ids => .wrapped "Rec" (.ofList EntityId.datum ids)

/-- A group of declarations. -/
def DeclGroup.datum : DeclGroup → Datum
  | .types group => .wrapped "Type" group.datum
  | .functions group => .wrapped "Fun" group.datum
  | .global id => .wrapped "Global" id.datum

end BorrowIR
