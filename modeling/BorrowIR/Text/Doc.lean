/-!
# Documents of lines

A `Doc` is text in lines with indentation. Every line break is written where the document says; no
line is ever broken or joined because of its length.

* `Doc.render` writes a line break as a line feed and the indentation at that place.
-/

namespace BorrowIR

/-- Text in lines. -/
inductive Doc where
  /-- Text on one line, as it is. -/
  | text (s : String)
  /-- A line break. -/
  | line
  /-- One document behind the other. -/
  | append (first second : Doc)
  /-- A document whose line breaks are indented further. -/
  | nest (columns : Nat) (doc : Doc)
deriving DecidableEq, Repr

namespace Doc

instance : Append Doc := ⟨append⟩

/-- The text of a document whose surroundings are indented by `indent` columns. -/
def renderAt (indent : Nat) : Doc → String
  | text s => s
  | line => "\n" ++ String.ofList (List.replicate indent ' ')
  | append first second => renderAt indent first ++ renderAt indent second
  | nest columns doc => renderAt (indent + columns) doc

/-- The text of a document. -/
def render (doc : Doc) : String := renderAt 0 doc

/-- Documents with a separator between each two. -/
def separate (separator : Doc) : List Doc → Doc
  | [] => text ""
  | [doc] => doc
  | doc :: docs => doc ++ separator ++ separate separator docs

/-- Documents on lines of their own. -/
def lines (docs : List Doc) : Doc := separate line docs

/-- The columns by which a block is indented. -/
def blockIndent : Nat := 2

/-- A block in braces, each item on a line of its own; an empty block stands on one line. -/
def block : List Doc → Doc
  | [] => text "\x7b\x7d"
  | items => text "\x7b" ++ nest blockIndent (line ++ lines items) ++ line ++ text "\x7d"

end Doc

end BorrowIR
