import BorrowIR.Ty.IntTy

/-!
# Literal values

A `Scalar` is an integer with its type, and the type holds it (`Scalar.holds`).
-/

namespace BorrowIR

/-- An integer of an integer type. -/
structure Scalar where
  ty : IntTy
  value : Int
  holds : ty.Holds value
deriving DecidableEq

/-- The value and the name of its type. -/
def Scalar.text (scalar : Scalar) : String := toString scalar.value ++ " : " ++ scalar.ty.text

/-- A literal value. -/
inductive Literal where
  | scalar (scalar : Scalar)
  | bool (b : Bool)
  | char (c : Char)
  | string (s : String)
deriving DecidableEq

end BorrowIR
