import BorrowIR.Entity

/-!
# Regions

Signatures and type declarations speak of region parameters (`Region`). Inside bodies the regions
have been erased, and the one that is left says nothing (`ErasedRegion`).
-/

namespace BorrowIR

/-- A region of a signature or of a type declaration. -/
inductive Region where
  | static
  | var (id : RegionVarId)
deriving DecidableEq, Repr

/-- A region parameter without a name is written as its number. -/
def Region.text : Region → String
  | .static => "'static"
  | .var id => "'_" ++ id.text

/-- The region of a body. -/
inductive ErasedRegion where
  | erased
deriving DecidableEq, Repr

/-- The erased region. -/
def ErasedRegion.all : List ErasedRegion := [.erased]

/-- The tag of the erased region in documents. -/
def ErasedRegion.tag : ErasedRegion → String
  | .erased => "Erased"

/-- An erased region is written as a blank name. -/
def ErasedRegion.text : ErasedRegion → String
  | .erased => "'_"

end BorrowIR
