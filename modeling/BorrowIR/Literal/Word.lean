import BorrowIR.Decimal
import BorrowIR.Literal.Basic

/-!
# Integers in machine words

The magnitude of an integer literal is computed in a word, which is as wide as the widest integer
type. Products, sums and shifts of words are checked, but the change of sign wraps around, and a
narrower type takes the low bits of the word.

* `Word.ofDigits?` is the word that some digits denote, unless it overflows on the way;
* `IntTy.fits` compares a magnitude with the bounds of a type, and `IntTy.ofWord` is the value in
  the low bits of a word;
* `Scalar.ofMagnitude?` is the integer with a sign and a magnitude.
-/

namespace BorrowIR

/-- The number of bits of a word. -/
def wordBits : Nat := 128

/-- A word without a sign. -/
abbrev Word : Type := BitVec wordBits

namespace Word

/-- The product of two words, unless it overflows. -/
def checkedMul (a b : Word) : Option Word := if a.umulOverflow b then none else some (a * b)

/-- The sum of two words, unless it overflows. -/
def checkedAdd (a b : Word) : Option Word := if a.uaddOverflow b then none else some (a + b)

/-- The word without its low bits. A word is not shifted by all its bits. -/
def checkedShiftRight (a : Word) (bits : Nat) : Option Word :=
  if bits < wordBits then some (a >>> bits) else none

/-- One more digit behind those of a word. -/
def appendDigit? (a : Word) (c : Char) : Option Word := do
  let tens ← a.checkedMul 10
  tens.checkedAdd (BitVec.ofNat wordBits (Decimal.digit c))

/-- The word that some digits denote. -/
def ofDigits? (cs : List Char) : Option Word := cs.foldlM appendDigit? 0

end Word

namespace IntTy

/-- The type has a value with this sign and magnitude. -/
def fits (ty : IntTy) (negative : Bool) (magnitude : Word) : Bool :=
  if ty.signed then
    let bound := (1 : Word) <<< (ty.bits - 1)
    if negative then magnitude ≤ bound else magnitude < bound
  else
    let small := (magnitude.checkedShiftRight ty.bits).all fun high => high = 0
    magnitude = 0 || (!negative && small)

/-- The value of the type in the low bits of a word. -/
def ofWord (ty : IntTy) (word : Word) : Int :=
  let low := word.setWidth ty.bits
  if ty.signed then low.toInt else low.toNat

/-- Whatever the word, its low bits are a value of the type. -/
theorem holds_ofWord (ty : IntTy) (word : Word) : ty.Holds (ty.ofWord word) := by
  unfold Holds min max ofWord
  simp only [nonNegatives, Nat.one_shiftLeft]
  cases ty.signed with
  | true =>
    have hlow := BitVec.le_toInt (word.setWidth ty.bits)
    have hhigh := BitVec.toInt_lt (x := word.setWidth ty.bits)
    simp only [if_true]
    push_cast
    omega
  | false =>
    have hhigh := (word.setWidth ty.bits).isLt
    simp only [Bool.false_eq_true, if_false]
    omega

end IntTy

/-- The integer with a sign and a magnitude, if the type has it. A negative one is the complement of
its magnitude. -/
def Scalar.ofMagnitude? (ty : IntTy) (negative : Bool) (magnitude : Word) : Option Scalar :=
  if ty.fits negative magnitude then
    let word := if ty.signed && negative then -magnitude else magnitude
    some ⟨ty, ty.ofWord word, ty.holds_ofWord word⟩
  else none

end BorrowIR
