/-!
# Decimal digits

* `Decimal.value? cs`: the number that the digits `cs` denote, for one or more of the ten digits.
  Zeros in front do not matter.
-/

namespace BorrowIR.Decimal

/-- The value of a digit. -/
def digit (c : Char) : Nat := c.toNat - '0'.toNat

/-- The number whose digits are those of `n` and then `cs`. -/
def appendDigits (n : Nat) (cs : List Char) : Nat := cs.foldl (fun n c => 10 * n + digit c) n

/-- The number that some digits denote. -/
def value? (cs : List Char) : Option Nat :=
  if cs ≠ [] ∧ cs.all Char.isDigit then some (appendDigits 0 cs) else none

end BorrowIR.Decimal
