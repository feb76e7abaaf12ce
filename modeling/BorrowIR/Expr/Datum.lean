import BorrowIR.Expr.Basic
import BorrowIR.Literal.Datum
import BorrowIR.Ty.Datum

/-!
# Places, operands and right-hand sides as data
-/

namespace BorrowIR

/-- What a field belongs to. -/
def FieldOwner.datum : FieldOwner → Datum
  | .adt id variant => .variant "Adt" [id.datum, .ofOption EntityId.datum variant]
  | .tuple arity => .wrapped "Tuple" (.int arity)
  | .option variant => .wrapped "Option" variant.datum

/-- A step of a path. -/
def Projection.datum : Projection → Datum
  | .deref => .tag "Deref"
  | .derefBox => .tag "DerefBox"
  | .field owner id => .variant "Field" [owner.datum, id.datum]

/-- A place. -/
def Place.datum (place : Place) : Datum :=
  .record [("var_id", place.var.datum),
    ("projection", .ofList Projection.datum place.projections)]

/-- A kind of borrow. -/
def BorrowKind.datum (kind : BorrowKind) : Datum := .tag kind.tag

/-- An operator with one operand. -/
def UnOp.datum (op : UnOp) : Datum := .tag op.tag

/-- An operator with two operands. -/
def BinOp.datum (op : BinOp) : Datum := .tag op.tag

/-- A constant. -/
def Constant.datum : Constant → Datum
  | .literal value => .wrapped "ConstantValue" value.datum
  | .adt id => .wrapped "Adt" id.datum
  | .unit => .tag "Unit"

/-- An operand. -/
def Operand.datum : Operand → Datum
  | .copy place => .wrapped "Copy" place.datum
  | .move place => .wrapped "Move" place.datum
  | .const ty value => .variant "Constant" [ErasedTy.datum ty, value.datum]

/-- What an aggregate builds. -/
def AggregateKind.datum : AggregateKind → Datum
  | .tuple => .tag "Tuple"
  | .option variant content => .variant "Option" [variant.datum, ErasedTy.datum content]
  | .adt id variant regions types =>
    .variant "Adt" [id.datum, .ofOption EntityId.datum variant,
      .ofList ErasedRegion.datum regions, .ofList ErasedTy.datum types]

/-- A right-hand side. -/
def Rvalue.datum : Rvalue → Datum
  | .use operand => .wrapped "Use" operand.datum
  | .borrow place kind => .variant "Ref" [place.datum, kind.datum]
  | .unary op operand => .variant "UnaryOp" [op.datum, operand.datum]
  | .binary op left right => .variant "BinaryOp" [op.datum, left.datum, right.datum]
  | .discriminant place => .wrapped "Discriminant" place.datum
  | .global id => .wrapped "Global" id.datum
  | .aggregate kind operands =>
    .variant "Aggregate" [kind.datum, .ofList Operand.datum operands]

end BorrowIR
