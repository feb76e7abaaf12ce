import BorrowIR.Expr.Datum
import BorrowIR.Source.Datum
import BorrowIR.Statement.Basic

/-!
# Statements as data
-/

namespace BorrowIR

/-- A builtin function. -/
def BuiltinFun.datum (fn : BuiltinFun) : Datum := .tag fn.tag

/-- What a call calls. -/
def Callee.datum : Callee → Datum
  | .declared id => .wrapped "Regular" id.datum
  | .builtin fn => .wrapped "Assumed" fn.datum

/-- A call. -/
def Call.datum (call : Call) : Datum :=
  .record [("func", call.callee.datum),
    ("region_args", .ofList ErasedRegion.datum call.regions),
    ("type_args", .ofList ErasedTy.datum call.types),
    ("args", .ofList Operand.datum call.args),
    ("dest", call.dest.datum)]

/-- An assertion. -/
def Assertion.datum (assertion : Assertion) : Datum :=
  .record [("cond", assertion.cond.datum), ("expected", .bool assertion.expected)]

mutual
/-- A statement. -/
def Statement.datum : Statement → Datum
  | .mk origin content => .record [("meta", origin.datum), ("content", RawStatement.datum content)]

/-- What a statement does. -/
def RawStatement.datum : RawStatement → Datum
  | .assign dest value => .variant "Assign" [dest.datum, value.datum]
  | .fakeRead place => .wrapped "FakeRead" place.datum
  | .setDiscriminant place variant => .variant "SetDiscriminant" [place.datum, variant.datum]
  | .drop place => .wrapped "Drop" place.datum
  | .assert assertion => .wrapped "Assert" assertion.datum
  | .call target => .wrapped "Call" target.datum
  | .panic => .tag "Panic"
  | .return => .tag "Return"
  | .break depth => .wrapped "Break" (.int depth)
  | .continue depth => .wrapped "Continue" (.int depth)
  | .nop => .tag "Nop"
  | .sequence first rest => .variant "Sequence" [Statement.datum first, Statement.datum rest]
  | .switch choice => .wrapped "Switch" (Switch.datum choice)
  | .loop body => .wrapped "Loop" (Statement.datum body)

/-- A switch. -/
def Switch.datum : Switch → Datum
  | .cond test thenBranch elseBranch =>
    .variant "If" [test.datum, Statement.datum thenBranch, Statement.datum elseBranch]
  | .values discr ty branches otherwise =>
    .variant "SwitchInt" [discr.datum, ty.datum, .list (valueBranchData branches),
      Statement.datum otherwise]
  | .variants place branches otherwise =>
    .variant "Match" [place.datum, .list (variantBranchData branches), Statement.datum otherwise]

/-- The branches of a switch over integers. -/
def valueBranchData : List (List Scalar × Statement) → List Datum
  | [] => []
  | (values, body) :: branches =>
    .tuple [.ofList Scalar.datum values, Statement.datum body] :: valueBranchData branches

/-- The branches of a match. -/
def variantBranchData : List (List VariantId × Statement) → List Datum
  | [] => []
  | (variants, body) :: branches =>
    .tuple [.ofList EntityId.datum variants, Statement.datum body] :: variantBranchData branches
end

end BorrowIR
