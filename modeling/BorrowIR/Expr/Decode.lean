import BorrowIR.Expr.Basic
import BorrowIR.Literal.Decode
import BorrowIR.Ty.Decode

/-!
# Decoding places, operands and right-hand sides

Whether a projection fits the type of its place is not checked.
-/

namespace BorrowIR

open Decode Outcome

/-- What a field belongs to. -/
def FieldOwner.decode (v : Json) : Outcome FieldOwner :=
  within "field_proj_kind" do
    match ← variant v with
    | ⟨"Adt", some payload⟩ =>
      let (id, variant) ← components 2 payload.1
      return .adt (← entityId id) (← optional entityId variant)
    | ⟨"Tuple", some payload⟩ => .tuple <$> wrapped natural payload
    | ⟨"Option", some payload⟩ => .option <$> wrapped entityId payload
    | ⟨tag, _⟩ => fail (.unknownVariant "FieldProjKind" tag)

/-- A step of a path. -/
def Projection.decode (v : Json) : Outcome Projection :=
  within "projection_elem" do
    match ← variant v with
    | ⟨"Deref", none⟩ => return .deref
    | ⟨"DerefBox", none⟩ => return .derefBox
    | ⟨"Field", some payload⟩ =>
      let (owner, id) ← components 2 payload.1
      return .field (← FieldOwner.decode owner) (← entityId id)
    | ⟨tag, _⟩ => fail (.unknownVariant "ProjectionElem" tag)

/-- A place. -/
def Place.decode (v : Json) : Outcome Place :=
  within "place" do
    let (var, projections) ← record ["var_id", "projection"] v
    return { var := ← entityId var, projections := ← list Projection.decode projections }

/-- A kind of borrow. -/
def BorrowKind.decode (v : Json) : Outcome BorrowKind :=
  within "borrow_kind" (tagOnly "BorrowKind" all tag v)

/-- An operator with one operand. -/
def UnOp.decode (v : Json) : Outcome UnOp :=
  within "unop" (tagOnly "UnOp" all tag v)

/-- An operator with two operands. -/
def BinOp.decode (v : Json) : Outcome BinOp :=
  within "binop" (tagOnly "BinOp" all tag v)

/-- A constant. -/
def Constant.decode (v : Json) : Outcome Constant :=
  within "operand_constant_value" do
    match ← variant v with
    | ⟨"ConstantValue", some payload⟩ => .literal <$> wrapped Literal.decode payload
    | ⟨"Adt", some payload⟩ => .adt <$> wrapped entityId payload
    | ⟨"Unit", none⟩ => return .unit
    | ⟨tag, _⟩ => fail (.unknownVariant "OperandConstantValue" tag)

/-- An operand. -/
def Operand.decode (v : Json) : Outcome Operand :=
  within "operand" do
    match ← variant v with
    | ⟨"Copy", some payload⟩ => .copy <$> wrapped Place.decode payload
    | ⟨"Move", some payload⟩ => .move <$> wrapped Place.decode payload
    | ⟨"Constant", some payload⟩ =>
      let (ty, value) ← components 2 payload.1
      return .const (← ErasedTy.decode ty) (← Constant.decode value)
    | ⟨tag, _⟩ => fail (.unknownVariant "Operand" tag)

/-- What an aggregate builds. -/
def AggregateKind.decode (v : Json) : Outcome AggregateKind :=
  within "aggregate_kind" do
    match ← variant v with
    | ⟨"Tuple", none⟩ => return .tuple
    | ⟨"Option", some payload⟩ =>
      let (variant, content) ← components 2 payload.1
      return .option (← entityId variant) (← ErasedTy.decode content)
    | ⟨"Adt", some payload⟩ =>
      let (id, variant, regions, types) ← components 4 payload.1
      return .adt (← entityId id) (← optional entityId variant) (← list ErasedRegion.decode regions)
        (← list ErasedTy.decode types)
    | ⟨tag, _⟩ => fail (.unknownVariant "AggregateKind" tag)

/-- A right-hand side. -/
def Rvalue.decode (v : Json) : Outcome Rvalue :=
  within "rvalue" do
    match ← variant v with
    | ⟨"Use", some payload⟩ => .use <$> wrapped Operand.decode payload
    | ⟨"Ref", some payload⟩ =>
      let (place, kind) ← components 2 payload.1
      return .borrow (← Place.decode place) (← BorrowKind.decode kind)
    | ⟨"UnaryOp", some payload⟩ =>
      let (op, operand) ← components 2 payload.1
      return .unary (← UnOp.decode op) (← Operand.decode operand)
    | ⟨"BinaryOp", some payload⟩ =>
      let (op, left, right) ← components 3 payload.1
      return .binary (← BinOp.decode op) (← Operand.decode left) (← Operand.decode right)
    | ⟨"Discriminant", some payload⟩ => .discriminant <$> wrapped Place.decode payload
    | ⟨"Global", some payload⟩ => .global <$> wrapped entityId payload
    | ⟨"Aggregate", some payload⟩ =>
      let (kind, operands) ← components 2 payload.1
      return .aggregate (← AggregateKind.decode kind) (← list Operand.decode operands)
    | ⟨tag, _⟩ => fail (.unknownVariant "Rvalue" tag)

end BorrowIR
