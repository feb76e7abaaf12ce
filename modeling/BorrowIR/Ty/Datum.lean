import BorrowIR.Datum.Basic
import BorrowIR.Ty.Basic

/-!
# Types as data
-/

namespace BorrowIR

/-- A region of a signature. -/
def Region.datum : Region → Datum
  | .static => .tag "Static"
  | .var id => .wrapped "Var" id.datum

/-- An erased region. -/
def ErasedRegion.datum (region : ErasedRegion) : Datum := .tag region.tag

/-- An integer type. -/
def IntTy.datum (ty : IntTy) : Datum := .tag ty.tag

/-- A kind of reference. -/
def Mutability.datum (mutability : Mutability) : Datum := .tag mutability.tag

/-- A builtin type. -/
def BuiltinTy.datum (ty : BuiltinTy) : Datum := .tag ty.tag

/-- The head of an application. -/
def TypeHead.datum : TypeHead → Datum
  | .adt id => .wrapped "Adt" id.datum
  | .tuple => .tag "Tuple"
  | .builtin ty => .wrapped "Assumed" ty.datum

namespace Ty

variable {R : Type}

mutual
/-- A type, with regions as data. -/
def datumWith (region : R → Datum) : Ty R → Datum
  | .app head regions types =>
    .variant "Adt" [head.datum, .ofList region regions, .list (dataWith region types)]
  | .var id => .wrapped "TypeVar" id.datum
  | .bool => .tag "Bool"
  | .char => .tag "Char"
  | .never => .tag "Never"
  | .int ty => .wrapped "Integer" ty.datum
  | .str => .tag "Str"
  | .array elem => .wrapped "Array" (datumWith region elem)
  | .slice elem => .wrapped "Slice" (datumWith region elem)
  | .ref lifetime target mutability =>
    .variant "Ref" [region lifetime, datumWith region target, mutability.datum]

/-- Several types. -/
def dataWith (region : R → Datum) : List (Ty R) → List Datum
  | [] => []
  | ty :: types => datumWith region ty :: dataWith region types
end

end Ty

/-- A type of a signature or of a type declaration. -/
def SigTy.datum (ty : SigTy) : Datum := ty.datumWith Region.datum

/-- A type of a body. -/
def ErasedTy.datum (ty : ErasedTy) : Datum := ty.datumWith ErasedRegion.datum

end BorrowIR
