import BorrowIR.Json.Reader

/-!
# Places in a text

A syntax error is reported at a line and a column, where columns count bytes
(`Position.ofOffset`), and marked at a label, whose offset is found by walking characters up to that
line and column (`Position.labelOffset`). The two ways of counting agree on a line without
characters of several bytes before the place.
-/

namespace BorrowIR

/-- A line, from one, and a column, in bytes behind the last line feed. -/
structure Position where
  line : Nat
  column : Nat
deriving DecidableEq, Repr

namespace Position

/-- The place that lies some bytes behind a given one. -/
def advance : List Char → Nat → Position → Position
  | [], _, p => p
  | c :: rest, bytes, p =>
    if bytes = 0 then p
    else if c = '\n' then advance rest (bytes - 1) ⟨p.line + 1, 0⟩
    else if bytes < c.utf8Size then ⟨p.line, p.column + bytes⟩
    else advance rest (bytes - c.utf8Size) ⟨p.line, p.column + c.utf8Size⟩

/-- The place that lies some bytes behind the start of a text. -/
def ofOffset (text : String) (bytes : Nat) : Position :=
  advance text.toList bytes ⟨1, 0⟩

/-- Walks characters from line `line` and column `col`, both from zero, as long as the place `p`
(line and column from one) is not reached, and counts the bytes passed. -/
def walk (p : Position) : List Char → (line col passed : Nat) → Nat
  | [], _, _, passed => passed
  | c :: rest, line, col, passed =>
    if p.line ≤ line + 1 ∧ p.column ≤ col + 1 then passed
    else if c = '\n' then walk p rest (line + 1) 0 (passed + 1)
    else walk p rest line (col + 1) (passed + c.utf8Size)

/-- The offset of the label that marks a place in a text. -/
def labelOffset (text : String) (p : Position) : Nat :=
  walk p text.toList 0 0 0

end Position

/-- The place at which a syntax error is reported. -/
def SyntaxError.position (text : String) (e : SyntaxError) : Position :=
  Position.ofOffset text e.offset

end BorrowIR
