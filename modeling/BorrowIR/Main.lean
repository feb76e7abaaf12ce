import BorrowIR.CommandLine

/-!
# The program

Reads the input that the arguments name, prints what they ask for, and ends with the exit code that
`BorrowIR.CommandLine` gives.
-/

namespace BorrowIR.CommandLine

/-- The text of the input, unless it cannot be read. -/
def readSource (source : Source) : IO (Option String) :=
  try
    match source with
    | .standardInput =>
      let bytes ← (← IO.getStdin).readBinToEnd
      return String.fromUTF8? bytes
    | .file path => return some (← IO.FS.readFile path)
  catch _ => return none

/-- Prints and complains as an ending says. -/
def close (ending : Ending) : IO UInt32 := do
  IO.print ending.printed
  if let some complaint := ending.complaint then
    IO.eprintln complaint
  return UInt32.ofNat ending.code

end BorrowIR.CommandLine

open BorrowIR.CommandLine in
/-- Runs the program on its arguments. -/
def main (arguments : List String) : IO UInt32 := do
  match prepare arguments with
  | .error ending => close ending
  | .ok (source, options) => close (conclude options (← readSource source))
