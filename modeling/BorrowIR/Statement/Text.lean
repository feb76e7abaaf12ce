import BorrowIR.Expr.Text
import BorrowIR.Text.Doc

/-!
# Statements as text

A statement that contains no other is one line. The statements of a sequence stand below one
another, and what a loop or a choice contains stands in a block.
-/

namespace BorrowIR

/-- What a call calls. -/
def Callee.text (scope : Scope) : Callee → String
  | .declared id => scope.funText id
  | .builtin fn => "@" ++ fn.tag

/-- A call. -/
def Call.text (scope : Scope) (call : Call) : String :=
  call.dest.text scope ++ " := " ++ call.callee.text scope
    ++ angled (call.types.map (ErasedTy.text scope))
    ++ "(" ++ commaSeparated (call.args.map (Operand.text scope)) ++ ");"

/-- The declared type of a place that is a variable; then its variants can be shown by name. -/
def Scope.matchedType? (scope : Scope) (place : Place) : Option TypeDeclId :=
  if place.projections.isEmpty then
    match (scope.local? place.var).map Var.ty with
    | some (.app (.adt id) _ _) => some id
    | _ => none
  else none

/-- A branch of a choice: what leads to it, and its block. -/
def armDoc (pattern : String) (body : Doc) : Doc := .text (pattern ++ " => ") ++ Doc.block [body]

mutual
/-- A statement. -/
def Statement.doc (scope : Scope) : Statement → Doc
  | .mk _ content => RawStatement.doc scope content

/-- What a statement does. -/
def RawStatement.doc (scope : Scope) : RawStatement → Doc
  | .assign dest value => .text (dest.text scope ++ " := " ++ value.text scope ++ ";")
  | .fakeRead place => .text ("@fake_read(" ++ place.text scope ++ ");")
  | .setDiscriminant place variant =>
    .text ("@discriminant(" ++ place.text scope ++ ") := " ++ variant.text ++ ";")
  | .drop place => .text ("drop " ++ place.text scope ++ ";")
  | .assert assertion =>
    .text ("assert(" ++ assertion.cond.text scope ++ " == "
      ++ (if assertion.expected then "true" else "false") ++ ");")
  | .call target => .text (target.text scope)
  | .panic => .text "panic;"
  | .return => .text "return;"
  | .break depth => .text ("break " ++ toString depth ++ ";")
  | .continue depth => .text ("continue " ++ toString depth ++ ";")
  | .nop => .text "@nop;"
  | .sequence first rest => Statement.doc scope first ++ .line ++ Statement.doc scope rest
  | .switch choice => Switch.doc scope choice
  | .loop body => .text "loop " ++ Doc.block [Statement.doc scope body]

/-- A choice. -/
def Switch.doc (scope : Scope) : Switch → Doc
  | .cond test thenBranch elseBranch =>
    .text ("if " ++ test.text scope ++ " ") ++ Doc.block [Statement.doc scope thenBranch]
      ++ .text " else " ++ Doc.block [Statement.doc scope elseBranch]
  | .values discr _ branches otherwise =>
    .text ("switch " ++ discr.text scope ++ " ")
      ++ Doc.block (valueArms scope branches ++ [armDoc "_" (Statement.doc scope otherwise)])
  | .variants place branches otherwise =>
    .text ("match " ++ place.text scope ++ " ")
      ++ Doc.block (variantArms scope (scope.matchedType? place) branches
        ++ [armDoc "_" (Statement.doc scope otherwise)])

/-- The branches of a choice by value. -/
def valueArms (scope : Scope) : List (List Scalar × Statement) → List Doc
  | [] => []
  | (values, body) :: branches =>
    armDoc (" | ".intercalate (values.map Scalar.text)) (Statement.doc scope body)
      :: valueArms scope branches

/-- The branches of a choice by variant. -/
def variantArms (scope : Scope) (adt : Option TypeDeclId) :
    List (List VariantId × Statement) → List Doc
  | [] => []
  | (variants, body) :: branches =>
    armDoc (" | ".intercalate (variants.map (scope.variantText adt))) (Statement.doc scope body)
      :: variantArms scope adt branches
end

end BorrowIR
