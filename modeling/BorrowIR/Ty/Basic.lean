import BorrowIR.Ty.IntTy
import BorrowIR.Ty.Region

/-!
# Types

The grammar of types is the same before and after regions are erased: `Ty R` has regions `R` at its
leaves, `SigTy` is the type of signatures and `ErasedTy` that of bodies. Declared types, tuples and
the builtin types are applications of a head to region arguments and type arguments.

A tuple takes no regions and a builtin type takes the arguments that `BuiltinTy.arity` says
(`TypeHead.Takes`).
-/

namespace BorrowIR

/-- Whether a reference allows its target to change. -/
inductive Mutability where
  | mutable
  | shared
deriving DecidableEq, Repr

/-- The kinds of references. -/
def Mutability.all : List Mutability := [.mutable, .shared]

/-- The tag of a kind of reference in documents. -/
def Mutability.tag : Mutability → String
  | .mutable => "Mut"
  | .shared => "Shared"

/-- The word for a kind of reference. -/
def Mutability.text : Mutability → String
  | .mutable => "mut"
  | .shared => "shared"

/-- The types that every crate knows without declaring them. -/
inductive BuiltinTy where
  | box
  | vec
  | option
deriving DecidableEq, Repr

/-- The builtin types. -/
def BuiltinTy.all : List BuiltinTy := [.box, .vec, .option]

/-- The tag of a builtin type in documents. -/
def BuiltinTy.tag : BuiltinTy → String
  | .box => "Box"
  | .vec => "Vec"
  | .option => "Option"

/-- The numbers of region arguments and of type arguments of a builtin type. -/
def BuiltinTy.arity : BuiltinTy → Nat × Nat
  | .box | .vec | .option => (0, 1)

/-- The full name of a builtin type. -/
def BuiltinTy.text : BuiltinTy → String
  | .box => "alloc::boxed::Box"
  | .vec => "alloc::vec::Vec"
  | .option => "core::option::Option"

/-- What is applied to arguments: a declared type, the tuple, or a builtin type. -/
inductive TypeHead where
  | adt (id : TypeDeclId)
  | tuple
  | builtin (ty : BuiltinTy)
deriving DecidableEq, Repr

/-- The head can be applied to so many region arguments and type arguments. What a declared type
takes is said by its declaration, which is not looked at here. -/
def TypeHead.Takes : TypeHead → (regions types : Nat) → Prop
  | .adt _, _, _ => True
  | .tuple, regions, _ => regions = 0
  | .builtin ty, regions, types => ty.arity = (regions, types)

instance : (head : TypeHead) → (regions types : Nat) → Decidable (head.Takes regions types)
  | .adt _, _, _ => inferInstanceAs (Decidable True)
  | .tuple, _, _ => inferInstanceAs (Decidable (_ = _))
  | .builtin _, _, _ => inferInstanceAs (Decidable (_ = _))

/-- A type with regions `R`. -/
inductive Ty (R : Type) where
  | app (head : TypeHead) (regions : List R) (types : List (Ty R))
  | var (id : TypeVarId)
  | bool
  | char
  | never
  | int (ty : IntTy)
  | str
  | array (elem : Ty R)
  | slice (elem : Ty R)
  | ref (region : R) (target : Ty R) (mutability : Mutability)

/-- The types of signatures and of type declarations. -/
abbrev SigTy := Ty Region

/-- The types of bodies. -/
abbrev ErasedTy := Ty ErasedRegion

namespace Ty

variable {R : Type}

mutual
/-- Compares two types. -/
def beq [DecidableEq R] : Ty R → Ty R → Bool
  | .app head regions types, .app head' regions' types' =>
    head = head' && regions = regions' && beqAll types types'
  | .var id, .var id' => id = id'
  | .bool, .bool | .char, .char | .never, .never | .str, .str => true
  | .int ty, .int ty' => ty = ty'
  | .array elem, .array elem' => beq elem elem'
  | .slice elem, .slice elem' => beq elem elem'
  | .ref region target mutability, .ref region' target' mutability' =>
    region = region' && beq target target' && mutability = mutability'
  | _, _ => false

/-- Compares two lists of types. -/
def beqAll [DecidableEq R] : List (Ty R) → List (Ty R) → Bool
  | [], [] => true
  | ty :: types, ty' :: types' => beq ty ty' && beqAll types types'
  | _, _ => false
end

mutual
theorem beq_iff [DecidableEq R] : ∀ a b : Ty R, beq a b = true ↔ a = b
  | .app _ _ types, b => by
    cases b <;> simp [beq, beqAll_iff types, and_assoc]
  | .var _, b | .bool, b | .char, b | .never, b | .int _, b | .str, b => by
    cases b <;> simp [beq]
  | .array elem, b | .slice elem, b => by
    cases b <;> simp [beq, beq_iff elem]
  | .ref _ target _, b => by
    cases b <;> simp [beq, beq_iff target, and_assoc]

theorem beqAll_iff [DecidableEq R] : ∀ as bs : List (Ty R), beqAll as bs = true ↔ as = bs
  | [], bs => by cases bs <;> simp [beqAll]
  | a :: as, bs => by cases bs <;> simp [beqAll, beq_iff a, beqAll_iff as]
end

instance [DecidableEq R] : DecidableEq (Ty R) := fun a b => decidable_of_iff _ (beq_iff a b)

/-- The unit type is the empty tuple. -/
def unit : Ty R := .app .tuple [] []

/-- Tells the unit type from the others. -/
def isUnit : Ty R → Bool
  | .app .tuple [] [] => true
  | _ => false

end Ty

end BorrowIR
