import BorrowIR.Decl.Basic
import BorrowIR.Json.Basic
import BorrowIR.Literal.Basic

/-!
# Why a document is not accepted

A `Failure` is a cause and the decoders that it passed through, the outermost first. The causes are
a node of another shape than expected, a tag that is not known, a file that is not listed, a literal
that its type does not hold, and a rule of the format that is broken (`Violation`).
-/

namespace BorrowIR

/-- What a node was expected to be. -/
inductive Shape where
  | boolean
  | natural
  | string
  | list
  | tuple (size : Nat)
  | variant
  | record (keys : List String)
  | integerLiteral
  | character
  | singleCharacter
  | singleGlobal
  /-- A shape that the reader of a body expects. -/
  | other (text : String)
deriving DecidableEq, Repr

/-- The wording of a shape. -/
def Shape.text : Shape → String
  | .boolean => "a boolean"
  | .natural => "a non-negative integer"
  | .string => "a string"
  | .list => "a list"
  | .tuple size => "a list of " ++ toString size ++ " elements"
  | .variant => "a tagged variant"
  | .record keys => "a record with fields \x7b" ++ ", ".intercalate keys ++ "\x7d"
  | .integerLiteral => "an integer literal"
  | .character => "a character"
  | .singleCharacter => "a single character"
  | .singleGlobal => "a non-recursive global group"
  | .other text => text

/-- A rule that a document of the right shape breaks. -/
inductive Violation where
  /-- A file identifier is listed again. -/
  | repeatedFile (id : FileId) (first : FileName)
  /-- A tuple is applied to regions. -/
  | tupleRegions (regions : Nat)
  /-- A builtin type is applied to arguments that it does not take. -/
  | builtinArity (ty : BuiltinTy) (regions types : Nat)
  /-- A body has too few variables for its result and its arguments. -/
  | missingLocals (args locals : Nat)
  /-- A group of mutually dependent declarations has no member. -/
  | emptyCycle
  /-- A switch has a branch for a value of another type. -/
  | foreignBranch (ty : IntTy) (scalar : Scalar)
  /-- Two declarations of one sort have one identifier. -/
  | repeatedDecl (sort : DeclSort) (index : Nat)
  /-- A group names a declaration that the crate does not have. -/
  | missingDecl (sort : DeclSort) (index : Nat)
  /-- A rule that the reader of a body checks. -/
  | other (text : String)
deriving DecidableEq

/-- The wording of a violation. -/
def Violation.text : Violation → String
  | .repeatedFile id first =>
    "file id " ++ id.fullText ++ " is listed twice, the first time for " ++ first.text
  | .tupleRegions regions => "tuple type applied to " ++ toString regions ++ " region arguments"
  | .builtinArity ty regions types =>
    "builtin type " ++ ty.text ++ " expects " ++ toString ty.arity.1 ++ " region and "
      ++ toString ty.arity.2 ++ " type arguments, but got " ++ toString regions ++ " and "
      ++ toString types
  | .missingLocals args locals =>
    "body declares " ++ toString args ++ " arguments but only " ++ toString locals ++ " locals"
  | .emptyCycle => "recursive declaration group has no members"
  | .foreignBranch ty scalar => "switch over " ++ ty.text ++ " has a branch for " ++ scalar.text
  | .repeatedDecl sort index =>
    sort.text ++ " declaration " ++ toString index ++ " is declared twice"
  | .missingDecl sort index =>
    "declaration group names " ++ sort.text ++ " declaration " ++ toString index
      ++ " which does not exist"
  | .other text => text

/-- Why a node is not accepted. -/
inductive Cause where
  /-- The node `found` does not have the expected shape. -/
  | mismatch (expected : Shape) (found : Json)
  /-- The variants of the type `noun` do not include `tag`, with or without a payload as found. -/
  | unknownVariant (noun tag : String)
  /-- The file table does not list the identifier with this text. -/
  | unknownFile (id : String)
  /-- The type does not hold the literal with this text. -/
  | outOfRange (literal : String) (ty : IntTy)
  /-- A rule is broken. -/
  | violation (rule : Violation)

namespace Cause

/-- The wording of a cause. -/
def text : Cause → String
  | .mismatch expected found => "expected " ++ expected.text ++ ", found " ++ found.excerpt
  | .unknownVariant noun tag =>
    "expected a variant of " ++ noun ++ ", found variant `" ++ tag ++ "`"
  | .unknownFile id => "span refers to unknown file " ++ id
  | .outOfRange literal ty => "literal " ++ literal ++ " does not fit in type " ++ ty.text
  | .violation rule => rule.text

/-- The code of a diagnostic. -/
def code : Cause → String
  | .mismatch .. | .unknownVariant .. => "decode::schema_mismatch"
  | .unknownFile _ => "decode::unknown_file"
  | .outOfRange .. => "decode::scalar_out_of_range"
  | .violation _ => "decode::invariant_violation"

/-- The advice of a diagnostic. -/
def help? : Cause → Option String
  | .mismatch .. | .unknownVariant .. =>
    some "the document does not follow the schema of the extraction tool"
  | .unknownFile _ => some "every file id must be listed in the `id_to_file` table of the crate"
  | .outOfRange .. | .violation _ => none

end Cause

/-- A cause, and the decoders that it passed through, the outermost first. -/
structure Failure where
  cause : Cause
  path : List String

namespace Failure

/-- The failure as the decoder around it passes it on. -/
def within (decoder : String) (failure : Failure) : Failure :=
  { failure with path := decoder :: failure.path }

/-- The decoders of a path, from the outermost inwards. -/
def pathText : List String → String
  | [] => "<root>"
  | path => " > ".intercalate path

/-- The cause and the path. -/
def message (failure : Failure) : String :=
  failure.cause.text ++ " (in " ++ pathText failure.path ++ ")"

/-- The decoder that the failure arose in. -/
def innermost? (failure : Failure) : Option String := failure.path.getLast?

end Failure

end BorrowIR
