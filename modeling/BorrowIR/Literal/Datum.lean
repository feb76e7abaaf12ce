import BorrowIR.Datum.Basic
import BorrowIR.Literal.Basic

/-!
# Literal values as data
-/

namespace BorrowIR

/-- An integer, whose type is the name of its variant. -/
def Scalar.datum (scalar : Scalar) : Datum := .wrapped scalar.ty.tag (.int scalar.value)

/-- A literal value. -/
def Literal.datum : Literal → Datum
  | .scalar n => .wrapped "Scalar" n.datum
  | .bool b => .wrapped "Bool" (.bool b)
  | .char c => .wrapped "Char" (.char c)
  | .string s => .wrapped "String" (.str s)

end BorrowIR
