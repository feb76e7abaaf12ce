/-!
# Integer types

An integer type is a sign and a width. A size is as wide as a pointer, which has 64 bits.

* `IntTy.Holds ty n`: the type `ty` has the value `n`.
-/

namespace BorrowIR

/-- The widths of the integer types. -/
inductive IntWidth where
  | size
  | w8
  | w16
  | w32
  | w64
  | w128
deriving DecidableEq, Repr

/-- The number of bits of a width. -/
def IntWidth.bits : IntWidth → Nat
  | .size => 64
  | .w8 => 8
  | .w16 => 16
  | .w32 => 32
  | .w64 => 64
  | .w128 => 128

/-- How a width ends the name of an integer type. -/
def IntWidth.text : IntWidth → String
  | .size => "size"
  | .w8 => "8"
  | .w16 => "16"
  | .w32 => "32"
  | .w64 => "64"
  | .w128 => "128"

/-- An integer type. -/
structure IntTy where
  signed : Bool
  width : IntWidth
deriving DecidableEq, Repr

namespace IntTy

/-- The integer types: the signed and the unsigned ones, each from the size to the widest. -/
def all : List IntTy :=
  [true, false].flatMap fun signed =>
    [IntWidth.size, .w8, .w16, .w32, .w64, .w128].map fun width => ⟨signed, width⟩

/-- The number of bits. -/
def bits (ty : IntTy) : Nat := ty.width.bits

/-- The tag of the type in documents. -/
def tag (ty : IntTy) : String := (if ty.signed then "I" else "U") ++ ty.width.text

/-- The name of the type. -/
def text (ty : IntTy) : String := (if ty.signed then "i" else "u") ++ ty.width.text

/-- The type with a tag. -/
def ofTag? (tag : String) : Option IntTy := all.find? fun ty => ty.tag == tag

/-- The number of values that are not negative: two to the number of bits, of which one goes to the
sign. -/
def nonNegatives (ty : IntTy) : Nat := if ty.signed then 1 <<< (ty.bits - 1) else 1 <<< ty.bits

/-- The least value. -/
def min (ty : IntTy) : Int := if ty.signed then -ty.nonNegatives else 0

/-- The greatest value. -/
def max (ty : IntTy) : Int := ty.nonNegatives - 1

/-- The type has this value. -/
def Holds (ty : IntTy) (n : Int) : Prop := ty.min ≤ n ∧ n ≤ ty.max

instance (ty : IntTy) (n : Int) : Decidable (ty.Holds n) :=
  inferInstanceAs (Decidable (_ ∧ _))

end IntTy

end BorrowIR
