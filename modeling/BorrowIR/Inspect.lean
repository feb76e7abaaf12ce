import BorrowIR.Crate.Datum
import BorrowIR.Crate.Decode
import BorrowIR.Json.Position
import BorrowIR.Query

/-!
# Inspecting a crate

`inspect` reads a crate from text and prints it as asked: first in object notation, then as text.
What has been printed before a failure stays printed.
-/

namespace BorrowIR

/-- What is to be printed of a crate. -/
structure InspectOptions where
  ron : Bool
  text : Bool
  queries : List Query
deriving DecidableEq, Repr

/-- Why a crate cannot be read or printed. -/
inductive InspectError where
  /-- The input is no document; its text tells the place of the error. -/
  | json (input : String) (error : SyntaxError)
  | decode (failure : Failure)
  | query (error : QueryError)
  /-- The crate is nested too deep for the object notation. -/
  | tooDeep

namespace InspectError

/-- The wording of an error. -/
def message : InspectError → String
  | .json input error =>
    let position := error.position input
    "input is not valid json: " ++ error.fault.message ++ " at line " ++ toString position.line
      ++ " column " ++ toString position.column
  | .decode failure => failure.message
  | .query error => error.message
  | .tooDeep => "failed to serialize crate to ron: " ++ Datum.ronRefusal

/-- The code of a diagnostic. -/
def code? : InspectError → Option String
  | .json .. => some "driver::invalid_json"
  | .decode failure => some failure.cause.code
  | .query error => some error.code
  | .tooDeep => none

/-- The advice of a diagnostic. -/
def help? : InspectError → Option String
  | .decode failure => failure.cause.help?
  | .query error => error.help?
  | .json .. | .tooDeep => none

end InspectError

/-- The crate in a text. -/
def Crate.ofText (input : String) : Except InspectError (Crate Statement) :=
  match Json.read Json.nestingLimit input with
  | .error error => .error (.json input error)
  | .ok document => (Crate.decode document).result.mapError .decode

/-- What was printed, and whether everything went well. -/
structure Report where
  printed : String
  result : Except InspectError Unit

namespace Report

/-- Nothing is printed. -/
def silent : Report := ⟨"", .ok ()⟩

/-- Prints a text and a line feed, or fails. -/
def print : Except InspectError String → Report
  | .ok text => ⟨text ++ "\n", .ok ()⟩
  | .error error => ⟨"", .error error⟩

/-- Goes on with another report, unless the first one is a failure. -/
def followedBy (first second : Report) : Report :=
  match first.result with
  | .ok () => ⟨first.printed ++ second.printed, second.result⟩
  | .error _ => first

end Report

namespace Crate

/-- Prints a crate in object notation. -/
def printRon (crate : Crate Statement) : Report :=
  .print (match crate.ron? with
    | some text => .ok text
    | none => .error .tooDeep)

/-- Prints what some queries ask for. -/
def printText (crate : Crate Statement) (queries : List Query) : Report :=
  .print ((crate.queryText queries).mapError .query)

end Crate

/-- Reads a crate from text and prints it as asked. -/
def inspect (options : InspectOptions) (input : String) : Report :=
  match Crate.ofText input with
  | .error error => ⟨"", .error error⟩
  | .ok crate =>
    (if options.ron then crate.printRon else .silent).followedBy
      (if options.text then crate.printText options.queries else .silent)

end BorrowIR
