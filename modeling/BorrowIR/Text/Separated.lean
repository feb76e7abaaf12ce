/-!
# Lists in text
-/

namespace BorrowIR

/-- Texts with a comma and a blank between each two. -/
def commaSeparated (texts : List String) : String := ", ".intercalate texts

/-- Arguments in angle brackets, or nothing if there are none. -/
def angled : List String → String
  | [] => ""
  | texts => "<" ++ commaSeparated texts ++ ">"

end BorrowIR
