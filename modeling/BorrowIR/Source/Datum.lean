import BorrowIR.Datum.Basic
import BorrowIR.Source.Name
import BorrowIR.Source.Span

/-!
# Source places and names as data
-/

namespace BorrowIR

/-- An identifier of a file. -/
def FileId.datum : FileId → Datum
  | .localFile id => .wrapped "LocalId" id.datum
  | .virtualFile id => .wrapped "VirtualId" id.datum

/-- What a file is. -/
def FileName.datum : FileName → Datum
  | .path file => .wrapped "Local" (.str file)
  | .virtual name => .wrapped "Virtual" (.str name)

/-- A line and a column. -/
def Loc.datum (loc : Loc) : Datum := .record [("line", .int loc.line), ("col", .int loc.col)]

/-- A span. -/
def Span.datum (span : Span) : Datum :=
  .record [("file", span.file.datum), ("beg", span.start.datum), ("end", span.stop.datum)]

/-- Where something comes from. -/
def Provenance.datum (origin : Provenance) : Datum :=
  .record [("span", origin.span.datum),
    ("generated_from_span", .ofOption Span.datum origin.generatedFrom)]

/-- A segment of a name. -/
def PathElem.datum : PathElem → Datum
  | .ident segment => .wrapped "Ident" (.str segment)
  | .disambiguator n => .wrapped "Disambiguator" (.int n)

/-- A name. -/
def Name.datum (name : Name) : Datum := .record [("elems", .ofList PathElem.datum name.elems)]

end BorrowIR
