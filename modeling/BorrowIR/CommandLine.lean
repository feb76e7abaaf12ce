import BorrowIR.Inspect

/-!
# The command line

The program takes the input, `-` for the standard input, and options that say what to print. The
arguments are read from left to right, and the first one that has no place ends the reading.

* `CommandLine.parse` reads the arguments, `CommandLine.prepare` also reads the queries among them;
* `CommandLine.conclude` inspects the input.
-/

namespace BorrowIR.CommandLine

/-- Where the input comes from. -/
inductive Source where
  | standardInput
  | file (path : String)
deriving DecidableEq, Repr

/-- The source that an argument names. -/
def Source.ofArgument (argument : String) : Source :=
  if argument = "-" then .standardInput else .file argument

/-- What the arguments ask for. -/
structure Arguments where
  input : String
  ron : Bool
  text : Bool
  queries : List String
deriving DecidableEq, Repr

/-- Why arguments do not lead to an inspection. -/
inductive Stop where
  /-- The program is asked about itself. -/
  | information
  /-- The arguments are wrong. -/
  | misuse
deriving DecidableEq, Repr

/-- The arguments read so far. -/
structure Progress where
  input : Option String
  ron : Bool
  text : Bool
  /-- The queries, last one first. -/
  queries : List String
  /-- Behind `--` there are no options. -/
  onlyInput : Bool

/-- No argument has been read. -/
def Progress.start : Progress := ⟨none, false, false, [], false⟩

/-- An argument that is no option: the input, which is given once. -/
def Progress.takeInput (progress : Progress) (argument : String) : Except Stop Progress :=
  match progress.input with
  | none => .ok { progress with input := some argument }
  | some _ => .error .misuse

/-- What an argument is. -/
inductive Argument where
  | ron
  | text
  /-- The option for a query, with its value or without. -/
  | query (value : Option String)
  | information
  /-- The end of the options. -/
  | separator
  | unknown
  | input
deriving DecidableEq, Repr

/-- How an option for a query begins whose value stands in the same argument. -/
def queryOption : String := "--emit-query="

/-- Tells what an argument is. -/
def Argument.classify (argument : String) : Argument :=
  if argument = "--" then .separator
  else if argument = "--emit-ron" then .ron
  else if argument = "--emit-text" then .text
  else if argument = "--emit-query" then .query none
  else if argument = "--help" || argument = "--version" then .information
  else
    match queryOption.toList.isPrefixOf? argument.toList with
    | some value => .query (some (String.ofList value))
    | none =>
      match argument.toList with
      | '-' :: '-' :: _ => .unknown
      | '-' :: c :: _ => if c = 'h' || c = 'V' then .information else .unknown
      | _ => .input

/-- The value of an option stands in the next argument, unless that one is an option itself. -/
def isValue (argument : String) : Bool := Argument.classify argument = .input

/-- Reads the arguments from left to right. -/
def readArguments : Progress → List String → Except Stop Progress
  | progress, [] => .ok progress
  | progress, argument :: rest =>
    if progress.onlyInput then do
      readArguments (← progress.takeInput argument) rest
    else
      match Argument.classify argument with
      | .separator => readArguments { progress with onlyInput := true } rest
      | .ron =>
        if progress.ron then .error .misuse else readArguments { progress with ron := true } rest
      | .text =>
        if progress.text then .error .misuse else readArguments { progress with text := true } rest
      | .query (some value) =>
        readArguments { progress with queries := value :: progress.queries } rest
      | .query none =>
        match rest with
        | value :: rest =>
          if isValue value then
            readArguments { progress with queries := value :: progress.queries } rest
          else .error .misuse
        | [] => .error .misuse
      | .information => .error .information
      | .unknown => .error .misuse
      | .input => do readArguments (← progress.takeInput argument) rest

/-- Reads the arguments; there has to be an input. -/
def parse (arguments : List String) : Except Stop Arguments := do
  let progress ← readArguments .start arguments
  match progress.input with
  | some input => return ⟨input, progress.ron, progress.text, progress.queries.reverse⟩
  | none => .error .misuse

/-- How the program ends: what it prints, what it complains about, and its exit code. -/
structure Ending where
  code : Nat
  printed : String
  complaint : Option String
deriving DecidableEq, Repr

/-- The exit codes of the program. -/
def successCode : Nat := 0

/-- The input cannot be read or inspected, or a query is malformed. -/
def failureCode : Nat := 1

/-- The arguments are wrong. -/
def misuseCode : Nat := 2

/-- The program gives up. -/
def abortCode : Nat := 101

/-- How the program ends without an inspection. -/
def Stop.ending : Stop → Ending
  | .information => ⟨successCode, "", none⟩
  | .misuse =>
    ⟨misuseCode, "", some "usage: INPUT [--emit-ron] [--emit-text] [--emit-query QUERY]..."⟩

/-- Reads the arguments and the queries among them, before the input is read. -/
def prepare (arguments : List String) : Except Ending (Source × InspectOptions) :=
  match parse arguments with
  | .error stop => .error stop.ending
  | .ok parsed =>
    match Query.parseAll parsed.queries with
    | .error error => .error ⟨failureCode, "", some error.message⟩
    | .ok queries => .ok (.ofArgument parsed.input, ⟨parsed.ron, parsed.text, queries⟩)

/-- The exit code of an error. -/
def errorCode : InspectError → Nat
  | .tooDeep => abortCode
  | .json .. | .decode _ | .query _ => failureCode

/-- Inspects the input; there is none if it could not be read. -/
def conclude (options : InspectOptions) : Option String → Ending
  | none => ⟨failureCode, "", some "failed to read the input"⟩
  | some input =>
    let report := inspect options input
    match report.result with
    | .ok () => ⟨successCode, report.printed, none⟩
    | .error error => ⟨errorCode error, report.printed, some error.message⟩

end BorrowIR.CommandLine
