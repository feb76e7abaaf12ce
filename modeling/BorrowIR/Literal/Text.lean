import BorrowIR.Literal.Basic
import BorrowIR.Text.Quoted

/-!
# Literal values as text
-/

namespace BorrowIR

/-- A literal value; characters and strings are quoted. -/
def Literal.text : Literal → String
  | .scalar n => n.text
  | .bool b => if b then "true" else "false"
  | .char c => Quoted.char c
  | .string s => Quoted.string .string s

end BorrowIR
