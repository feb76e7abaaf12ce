import BorrowIR.Datum.Basic
import BorrowIR.Text.Doc
import BorrowIR.Text.Quoted
import BorrowIR.Text.Separated

/-!
# Object notation

The notation writes lists, records and maps over several lines, and tuples and variants on one. It
is refused for data with more levels than `Datum.ronLimit`.
-/

namespace BorrowIR.Datum

/-- A character; only the backslash and the quote are escaped. -/
def ronChar (c : Char) : String :=
  if c = '\\' || c = '\'' then String.ofList ['\'', '\\', c, '\'']
  else String.ofList ['\'', c, '\'']

/-- The columns by which the content of a container is indented. -/
def ronIndent : Nat := 4

/-- A container over several lines, with a comma behind each element. -/
def ronContainer (opening closing : String) (elems : List Doc) : Doc :=
  .text opening
    ++ .nest ronIndent (.line ++ Doc.lines (elems.map fun elem => elem ++ .text ","))
    ++ .line ++ .text closing

/-- A list or a map, which stands on one line if it is empty. -/
def ronCollection (opening closing : String) : List Doc → Doc
  | [] => .text (opening ++ closing)
  | elems => ronContainer opening closing elems

/-- Values on one line. -/
def ronTuple (elems : List Doc) : Doc :=
  .text "(" ++ Doc.separate (.text ", ") elems ++ .text ")"

mutual
/-- The document of a value. -/
def ronDoc : Datum → Doc
  | .int n => .text (toString n)
  | .bool b => .text (if b then "true" else "false")
  | .char c => .text (ronChar c)
  | .str s => .text (Quoted.string .both s)
  | .none => .text "None"
  | .some value => .text "Some(" ++ ronDoc value ++ .text ")"
  | .id index => .text ("(" ++ toString index ++ ")")
  | .list elems => ronCollection "[" "]" (ronDocs elems)
  | .tuple elems => ronTuple (ronDocs elems)
  | .record fields => ronContainer "(" ")" (ronFields fields)
  | .tag name => .text name
  | .wrapped name field => .text (name ++ "(") ++ ronDoc field ++ .text ")"
  | .variant name fields => .text name ++ ronTuple (ronDocs fields)
  | .map entries => ronCollection "\x7b" "\x7d" (ronEntries entries)

/-- The documents of some values. -/
def ronDocs : List Datum → List Doc
  | [] => []
  | elem :: elems => ronDoc elem :: ronDocs elems

/-- The documents of some fields. -/
def ronFields : List (String × Datum) → List Doc
  | [] => []
  | (name, value) :: fields => (.text (name ++ ": ") ++ ronDoc value) :: ronFields fields

/-- The documents of some entries. -/
def ronEntries : List (Nat × Datum) → List Doc
  | [] => []
  | (index, value) :: entries =>
    (.text ("(" ++ toString index ++ "): ") ++ ronDoc value) :: ronEntries entries
end

/-- The levels that the notation writes. -/
def ronLimit : Nat := 128

/-- The text of a value, unless it has too many levels. -/
def ron? (datum : Datum) : Option String :=
  if datum.levels ≤ ronLimit then .some datum.ronDoc.render else .none

/-- What is said about a value with too many levels. -/
def ronRefusal : String :=
  "Exceeded recursion limit, try increasing the limit and using `serde_stacker` "
    ++ "to protect against a stack overflow"

end BorrowIR.Datum
