import BorrowIR.Statement.Text

/-!
# Declarations as text

A declaration shows its parameters by name. The variables of a body are declared before its
statements, except for the result and, in a function, the arguments, which stand in the signature.
-/

namespace BorrowIR

/-- A field, with its name if it has one. -/
def Field.text (scope : Scope) (field : Field) : String :=
  match field.name with
  | some name => name ++ ": " ++ SigTy.text scope field.ty
  | none => SigTy.text scope field.ty

/-- A variant with its fields. -/
def Variant.text (scope : Scope) (variant : Variant) : String :=
  match variant.fields with
  | [] => variant.name ++ ","
  | fields => variant.name ++ "(" ++ commaSeparated (fields.map (Field.text scope)) ++ "),"

/-- The parameters of the scope in angle brackets, regions first. -/
def Scope.paramsText (scope : Scope) : String :=
  angled (scope.generics.regions.map (fun param => scope.regionVarText param.id)
    ++ scope.generics.types.map TypeVar.name)

/-- A type declaration. -/
def TypeDecl.doc (crate : Crate Statement) (decl : TypeDecl) : Doc :=
  let scope : Scope := ⟨crate, decl.generics, []⟩
  let head := decl.name.text ++ scope.paramsText
  match decl.kind with
  | .external => .text ("opaque type " ++ head)
  | .struct fields =>
    .text ("struct " ++ head ++ " ")
      ++ Doc.block (fields.map fun field => .text (field.text scope ++ ","))
  | .enum variants =>
    .text ("enum " ++ head ++ " ")
      ++ Doc.block (variants.map fun variant => .text (variant.text scope))

/-- The inputs of a function; those that there are variables for are named. -/
def inputTexts (scope : Scope) : List SigTy → List Var → List String
  | [], _ => []
  | ty :: types, var :: vars =>
    (var.text ++ ": " ++ SigTy.text scope ty) :: inputTexts scope types vars
  | ty :: types, [] => SigTy.text scope ty :: inputTexts scope types []

/-- The signature of a function with this name, whose arguments are the variables `args`. -/
def Signature.text (crate : Crate Statement) (name : String) (args : List Var)
    (signature : Signature) : String :=
  let scope : Scope := ⟨crate, signature.generics, []⟩
  "fn " ++ name ++ scope.paramsText
    ++ "(" ++ commaSeparated (inputTexts scope signature.inputs args) ++ ") -> "
    ++ SigTy.text scope signature.output

/-- The declaration of a variable of a body. -/
def Var.declaration (scope : Scope) (var : Var) : Doc :=
  .text ("let " ++ var.text ++ ": " ++ ErasedTy.text scope var.ty ++ ";")

/-- The block of a body: the variables `declared`, and the statements. -/
def Body.doc (crate : Crate Statement) (generics : Generics) (declared : List Var)
    (body : Body Statement) : Doc :=
  let scope : Scope := ⟨crate, generics, body.locals⟩
  Doc.block (declared.map (Var.declaration scope) ++ [body.code.doc scope])

/-- A function declaration. -/
def FunDecl.doc (crate : Crate Statement) (decl : FunDecl Statement) : Doc :=
  match decl.body with
  | none => .text ("opaque " ++ decl.signature.text crate decl.name.text [])
  | some body =>
    .text (decl.signature.text crate decl.name.text body.args ++ " ")
      ++ body.doc crate decl.signature.generics body.temporaries

/-- A global declaration. -/
def GlobalDecl.doc (crate : Crate Statement) (decl : GlobalDecl Statement) : Doc :=
  let head := "global " ++ decl.name.text ++ ": " ++ ErasedTy.text crate.scope decl.ty
  match decl.body with
  | none => .text ("opaque " ++ head)
  | some body => .text (head ++ " ") ++ body.doc crate .empty (body.locals.drop 1)

end BorrowIR
