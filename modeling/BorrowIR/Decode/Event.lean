import BorrowIR.Decl.Basic

/-!
# What decoding reports on its way

Decoding a crate keeps a log: that it began, how many files the table lists, each declaration when
it has been decoded, a literal that its type does not hold, and what the crate holds in the end.
-/

namespace BorrowIR

/-- How much an event matters. -/
inductive Severity where
  | error
  | debug
  | trace
deriving DecidableEq, Repr

/-- The word for a severity. -/
def Severity.text : Severity → String
  | .error => "ERROR"
  | .debug => "DEBUG"
  | .trace => "TRACE"

/-- Something that happened while a document was decoded. -/
inductive Event where
  /-- The decoding of a crate began. -/
  | began
  | fileTable (files : Nat)
  | typeDecl (id : TypeDeclId) (name : Name)
  | funDecl (id : FunDeclId) (name : Name)
  | globalDecl (id : GlobalDeclId) (name : Name)
  | outOfRange (literal : String) (ty : IntTy)
  | crate (name : String) (types functions globals : Nat)
deriving DecidableEq, Repr

namespace Event

/-- The severity of an event. -/
def severity : Event → Severity
  | .fileTable _ => .trace
  | .outOfRange .. => .error
  | .began | .typeDecl .. | .funDecl .. | .globalDecl .. | .crate .. => .debug

/-- What an event says. The beginning says nothing. -/
def message? : Event → Option String
  | .began => none
  | .fileTable _ => some "decoded file table"
  | .typeDecl .. => some "decoded type declaration"
  | .funDecl .. => some "decoded function declaration"
  | .globalDecl .. => some "decoded global declaration"
  | .outOfRange .. => some "integer literal out of range"
  | .crate .. => some "decoded crate"

/-- What an event says it about. -/
def fields : Event → List (String × String)
  | .began => []
  | .fileTable files => [("files", toString files)]
  | .typeDecl id name => [("id", id.text), ("name", name.text)]
  | .funDecl id name => [("id", id.text), ("name", name.text)]
  | .globalDecl id name => [("id", id.text), ("name", name.text)]
  | .outOfRange literal ty => [("value", literal), ("ty", ty.text)]
  | .crate name types functions globals =>
    [("name", name), ("types", toString types), ("functions", toString functions),
      ("globals", toString globals)]

end Event

end BorrowIR
