import BorrowIR.Source.File

/-!
# Places in source files

A `Span` is a range of characters of one file, which it names itself. A `Provenance` says where a
declaration or a statement comes from.
-/

namespace BorrowIR

/-- A line, from one, and a column, from zero. -/
structure Loc where
  line : Nat
  col : Nat
deriving DecidableEq, Repr

/-- Line and column, with a colon between them. -/
def Loc.text (loc : Loc) : String := toString loc.line ++ ":" ++ toString loc.col

/-- A range of characters of a source file. -/
structure Span where
  file : FileName
  start : Loc
  stop : Loc
deriving DecidableEq, Repr

/-- The file, the start and the end. -/
def Span.text (span : Span) : String :=
  span.file.text ++ ":" ++ span.start.text ++ "-" ++ span.stop.text

/-- Where a declaration or a statement comes from: its own span, and the span of the code that it
was generated from, if it came out of an expansion. -/
structure Provenance where
  span : Span
  generatedFrom : Option Span
deriving DecidableEq, Repr

end BorrowIR
