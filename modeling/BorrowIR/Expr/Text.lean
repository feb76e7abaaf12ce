import BorrowIR.Literal.Text
import BorrowIR.Ty.Text

/-!
# Places, operands and right-hand sides as text
-/

namespace BorrowIR

/-- A step of a path, applied to the text of the place before it. -/
def Projection.apply (scope : Scope) (place : String) : Projection → String
  | .deref => "*(" ++ place ++ ")"
  | .derefBox => "deref_box (" ++ place ++ ")"
  | .field (.adt adt variant) id => "(" ++ place ++ ")." ++ scope.fieldText adt variant id
  | .field (.tuple _) id => "(" ++ place ++ ")." ++ id.text
  | .field (.option variant) id =>
    "(" ++ place ++ " as " ++ VariantId.optionText variant ++ ")." ++ id.text

/-- A place, built from its variable outwards. -/
def Place.text (scope : Scope) (place : Place) : String :=
  place.projections.foldl (Projection.apply scope) (scope.varText place.var)

/-- A constant. -/
def Constant.text (scope : Scope) : Constant → String
  | .literal value => value.text
  | .adt id => "ConstAdt " ++ scope.typeText id
  | .unit => "()"

/-- An operand. -/
def Operand.text (scope : Scope) : Operand → String
  | .copy place => "copy (" ++ place.text scope ++ ")"
  | .move place => "move (" ++ place.text scope ++ ")"
  | .const ty value => "const (" ++ value.text scope ++ " : " ++ ErasedTy.text scope ty ++ ")"

/-- The operands of a declared type with the names of their fields. -/
def fieldTexts (scope : Scope) (id : TypeDeclId) (variant : Option VariantId)
    (operands : List Operand) : List String :=
  operands.zipIdx.map fun (operand, index) =>
    scope.fieldText id variant ⟨index⟩ ++ ": " ++ operand.text scope

/-- An aggregate. -/
def AggregateKind.text (scope : Scope) (operands : List Operand) : AggregateKind → String
  | .tuple => "(" ++ commaSeparated (operands.map (Operand.text scope)) ++ ")"
  | .option variant _ =>
    VariantId.optionText variant ++ "(" ++ commaSeparated (operands.map (Operand.text scope)) ++ ")"
  | .adt id variant _ _ =>
    let head :=
      match variant with
      | none => scope.typeText id
      | some v => scope.typeText id ++ "::" ++ scope.variantText (some id) v
    head ++ " \x7b " ++ commaSeparated (fieldTexts scope id variant operands) ++ " \x7d"

/-- A right-hand side. -/
def Rvalue.text (scope : Scope) : Rvalue → String
  | .use operand => operand.text scope
  | .borrow place kind => kind.text ++ place.text scope
  | .unary op operand => op.text ++ "(" ++ operand.text scope ++ ")"
  | .binary op left right => left.text scope ++ " " ++ op.text ++ " " ++ right.text scope
  | .discriminant place => "@discriminant(" ++ place.text scope ++ ")"
  | .global id => scope.globalText id
  | .aggregate kind operands => kind.text scope operands

end BorrowIR
