import BorrowIR.Crate.Scope
import BorrowIR.Text.Separated

/-!
# Types as text

Types are printed alike for both sorts of regions; `Ty.textWith` is given the text of the regions.
-/

namespace BorrowIR

/-- A region by its name. -/
def Region.textIn (scope : Scope) : Region → String
  | .static => Region.static.text
  | .var id => scope.regionVarText id

/-- How a reference that allows changes is marked. -/
def Mutability.marker : Mutability → String
  | .mutable => "mut "
  | .shared => ""

namespace Ty

variable {R : Type}

/-- A tuple; one with a single component has a comma behind it. -/
def tupleText : List String → String
  | [component] => "(" ++ component ++ ",)"
  | components => "(" ++ commaSeparated components ++ ")"

mutual
/-- A type, with the text of its regions. -/
def textWith (scope : Scope) (region : R → String) : Ty R → String
  | .app .tuple _ types => tupleText (textsWith scope region types)
  | .app (.adt id) regions types =>
    scope.typeText id ++ angled (regions.map region ++ textsWith scope region types)
  | .app (.builtin ty) regions types =>
    ty.text ++ angled (regions.map region ++ textsWith scope region types)
  | .var id => scope.typeVarText id
  | .bool => "bool"
  | .char => "char"
  | .never => "!"
  | .int ty => ty.text
  | .str => "str"
  | .array elem => "[" ++ textWith scope region elem ++ "; _]"
  | .slice elem => "[" ++ textWith scope region elem ++ "]"
  | .ref lifetime target mutability =>
    "&" ++ region lifetime ++ " " ++ mutability.marker ++ textWith scope region target

/-- Several types. -/
def textsWith (scope : Scope) (region : R → String) : List (Ty R) → List String
  | [] => []
  | ty :: types => textWith scope region ty :: textsWith scope region types
end

end Ty

/-- A type of a signature or of a type declaration. -/
def SigTy.text (scope : Scope) (ty : SigTy) : String := ty.textWith scope (Region.textIn scope)

/-- A type of a body. -/
def ErasedTy.text (scope : Scope) (ty : ErasedTy) : String := ty.textWith scope ErasedRegion.text

end BorrowIR
