import BorrowIR.Crate.Text

/-!
# Queries

A query asks for one declaration of a crate: `type.a::T`, `fn.a::f` or `global.a::G`. What stands
behind the first dot is the full name of the declaration, as it is printed.

* `Query.parse?` reads a query and `Query.text` writes it; a name is not empty.
* `Crate.queryText` is the text of the declarations that some queries ask for, or of the whole crate
  if there is no query.
-/

namespace BorrowIR

/-- A declaration that is asked for. -/
structure Query where
  sort : DeclSort
  name : String
deriving DecidableEq, Repr

/-- What is wrong with a query. -/
inductive QueryError where
  /-- A text is no query. -/
  | malformed (text : String)
  /-- No declaration has the sort and the name that the query asks for. -/
  | unanswered (query : Query)
deriving DecidableEq, Repr

namespace Query

/-- How a query for a declaration of some sort begins. -/
def head : DeclSort → String
  | .type => "type."
  | .function => "fn."
  | .global => "global."

/-- The text of a query. -/
def text (query : Query) : String := head query.sort ++ query.name

/-- The query for a declaration of one sort with this text. -/
def parseAs? (text : String) (sort : DeclSort) : Option Query :=
  match (head sort).toList.isPrefixOf? text.toList with
  | some (c :: cs) => some ⟨sort, String.ofList (c :: cs)⟩
  | _ => none

/-- The query with this text. -/
def parse? (text : String) : Option Query :=
  [DeclSort.type, .function, .global].findSome? (parseAs? text)

/-- The queries with these texts; the first text that is no query is reported. -/
def parseAll : List String → Except QueryError (List Query)
  | [] => .ok []
  | text :: texts =>
    match parse? text with
    | some query => (parseAll texts).map (query :: ·)
    | none => .error (.malformed text)

end Query

namespace QueryError

/-- The wording of an error. -/
def message : QueryError → String
  | .malformed text => "failed to parse emit query `" ++ text ++ "`"
  | .unanswered query => "no declaration matches the emit query `" ++ query.text ++ "`"

/-- The code of a diagnostic. -/
def code : QueryError → String
  | .malformed _ => "driver::invalid_query"
  | .unanswered _ => "driver::unknown_declaration"

/-- The advice of a diagnostic. -/
def help? : QueryError → Option String
  | .malformed _ =>
    some "queries look like `type.krate::Foo`, `fn.krate::bar` or `global.krate::BAZ`"
  | .unanswered _ => none

end QueryError

namespace Crate

/-- The declaration that a query asks for. -/
def answer? (crate : Crate Statement) (query : Query) : Option Doc :=
  match query.sort with
  | .type => (crate.findType? query.name).map (TypeDecl.doc crate)
  | .function => (crate.findFun? query.name).map (FunDecl.doc crate)
  | .global => (crate.findGlobal? query.name).map (GlobalDecl.doc crate)

/-- The texts of the declarations that the queries ask for; the first query without an answer is
reported. -/
def answerTexts (crate : Crate Statement) : List Query → Except QueryError (List String)
  | [] => .ok []
  | query :: queries =>
    match crate.answer? query with
    | some doc => (crate.answerTexts queries).map (doc.render :: ·)
    | none => .error (.unanswered query)

/-- The text of what the queries ask for, with an empty line between declarations; without queries,
the text of the whole crate. -/
def queryText (crate : Crate Statement) (queries : List Query) : Except QueryError String :=
  if queries.isEmpty then .ok crate.text
  else (crate.answerTexts queries).map ("\n\n".intercalate ·)

end Crate

end BorrowIR
