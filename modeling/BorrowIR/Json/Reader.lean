import BorrowIR.Json.Basic

/-!
# Reading a document from text

The reader goes through the text once, a character at a time (`Reader.step`), with the open
containers on a stack (`Reader.Frame`) and what it is in the middle of as a mode (`Reader.Mode`).
When the text ends, `Reader.finish` says whether it was a document.

A text that is no document is refused at the first character that no document could continue with:
`SyntaxError` gives the reason and the number of bytes up to the place where it is reported, which
lies one byte into the offending character (or, for an escape by number, behind its four bytes).

* `Json.read limit text` reads one document; `limit` containers cannot be open at once;
* blanks are the blank, tab, line feed and carriage return only;
* a number keeps its text, but for the exponent, which gets a small `e` and always a sign.
-/

namespace BorrowIR

/-- What makes a text no document. -/
inductive Fault where
  | endInList
  | endInObject
  | endInString
  | endInValue
  | expectedColon
  | expectedCommaOrBracket
  | expectedCommaOrBrace
  | expectedIdent
  | expectedValue
  | invalidEscape
  | invalidNumber
  | controlCharacter
  | keyNotString
  | loneSurrogate
  | unpairedSurrogate
  | trailingComma
  | trailingCharacters
  | nestedTooDeep
deriving DecidableEq, Repr

/-- The wording of a fault. -/
def Fault.message : Fault → String
  | .endInList => "EOF while parsing a list"
  | .endInObject => "EOF while parsing an object"
  | .endInString => "EOF while parsing a string"
  | .endInValue => "EOF while parsing a value"
  | .expectedColon => "expected `:`"
  | .expectedCommaOrBracket => "expected `,` or `]`"
  | .expectedCommaOrBrace => "expected `,` or `\x7d`"
  | .expectedIdent => "expected ident"
  | .expectedValue => "expected value"
  | .invalidEscape => "invalid escape"
  | .invalidNumber => "invalid number"
  | .controlCharacter => "control character (\\u0000-\\u001F) found while parsing a string"
  | .keyNotString => "key must be a string"
  | .loneSurrogate => "lone leading surrogate in hex escape"
  | .unpairedSurrogate => "unexpected end of hex escape"
  | .trailingComma => "trailing comma"
  | .trailingCharacters => "trailing characters"
  | .nestedTooDeep => "recursion limit exceeded"

/-- Why a text is no document, and how many bytes of it lie before the place of the report. -/
structure SyntaxError where
  fault : Fault
  offset : Nat
deriving DecidableEq, Repr

namespace Reader

/-- A container that is open while one of its values is being read. -/
inductive Frame where
  /-- A list, with the elements before this one, last first. -/
  | list (elems : List Json)
  /-- An object, with the fields before this one and the key of this one. -/
  | object (fields : List (String × Json)) (key : String)

/-- How far the reading of a number has come. -/
inductive NumberPart where
  | minus
  | zero
  | digits
  | point
  | fraction
  | exponent
  | exponentSign
  | exponentDigits
deriving DecidableEq

/-- A number may end with a digit, but not behind a sign, a point or an `e`. -/
def NumberPart.isComplete : NumberPart → Bool
  | .zero | .digits | .fraction | .exponentDigits => true
  | .minus | .point | .exponent | .exponentSign => false

/-- How far the reading of a string has come. An escape by number may be the second half of a
surrogate pair, whose first half is then known; `taken` are the characters of its digits, last
first. -/
inductive StringPart where
  | plain
  | escape
  | hex (high : Option Nat) (taken : List Char)
  | pairBackslash (high : Nat)
  | pairLetter (high : Nat)

/-- What a string is for: a value, or the key of the next field of an object. -/
inductive StringRole where
  | value
  | key (fields : List (String × Json))

/-- What the reader is in the middle of. -/
inductive Mode where
  /-- A value has to come. -/
  | value
  /-- A list was opened: an element or its end. -/
  | listStart
  /-- Behind an element of a list. -/
  | listRest (elems : List Json)
  /-- Behind a comma in a list. -/
  | listNext (elems : List Json)
  /-- An object was opened: a key or its end. -/
  | objectStart
  /-- Behind a field of an object. -/
  | objectRest (fields : List (String × Json))
  /-- Behind a comma in an object. -/
  | objectNext (fields : List (String × Json))
  /-- Behind a key. -/
  | colon (fields : List (String × Json)) (key : String)
  /-- In one of the three words that are values; `left` is still to come. -/
  | word (left : List Char) (v : Json)
  /-- In a number; `text` is its text so far, last character first. -/
  | number (part : NumberPart) (text : List Char)
  /-- In a string; `chars` are its characters so far, last first. -/
  | string (role : StringRole) (part : StringPart) (chars : List Char)
  /-- Behind the document. -/
  | done (v : Json)

/-- The open containers, innermost first, and the mode. -/
structure State where
  stack : List Frame
  mode : Mode

/-- A refusal: the fault, and the bytes of the current character up to the place of the report. -/
structure Refusal where
  fault : Fault
  bytes : Nat := 1

/-- The blanks of the notation. -/
def isBlank (c : Char) : Bool := c = ' ' || c = '\t' || c = '\n' || c = '\r'

/-- What comes after a value: the rest of the container that it stands in. -/
def complete (v : Json) : List Frame → State
  | [] => ⟨[], .done v⟩
  | .list elems :: stack => ⟨stack, .listRest (v :: elems)⟩
  | .object fields key :: stack => ⟨stack, .objectRest (Json.insertField key v fields)⟩

/-- The first character of a value. -/
def startValue (limit : Nat) (stack : List Frame) (c : Char) : Except Refusal State :=
  if c = '"' then .ok ⟨stack, .string .value .plain []⟩
  else if c = '[' then
    if limit ≤ stack.length + 1 then .error ⟨.nestedTooDeep, 1⟩ else .ok ⟨stack, .listStart⟩
  else if c = '\x7b' then
    if limit ≤ stack.length + 1 then .error ⟨.nestedTooDeep, 1⟩ else .ok ⟨stack, .objectStart⟩
  else if c = 'n' then .ok ⟨stack, .word ['u', 'l', 'l'] .null⟩
  else if c = 't' then .ok ⟨stack, .word ['r', 'u', 'e'] (.bool true)⟩
  else if c = 'f' then .ok ⟨stack, .word ['a', 'l', 's', 'e'] (.bool false)⟩
  else if c = '-' then .ok ⟨stack, .number .minus [c]⟩
  else if c = '0' then .ok ⟨stack, .number .zero [c]⟩
  else if c.isDigit then .ok ⟨stack, .number .digits [c]⟩
  else .error ⟨.expectedValue, 1⟩

/-- A character outside strings, numbers and words. -/
def between (limit : Nat) (stack : List Frame) (mode : Mode) (c : Char) : Except Refusal State :=
  if isBlank c then .ok ⟨stack, mode⟩
  else
    match mode with
    | .listStart =>
      if c = ']' then .ok (complete (.arr []) stack)
      else startValue limit (.list [] :: stack) c
    | .listRest elems =>
      if c = ',' then .ok ⟨stack, .listNext elems⟩
      else if c = ']' then .ok (complete (.arr elems.reverse) stack)
      else .error ⟨.expectedCommaOrBracket, 1⟩
    | .listNext elems =>
      if c = ']' then .error ⟨.trailingComma, 1⟩ else startValue limit (.list elems :: stack) c
    | .objectStart =>
      if c = '\x7d' then .ok (complete (.obj []) stack)
      else if c = '"' then .ok ⟨stack, .string (.key []) .plain []⟩
      else .error ⟨.keyNotString, 1⟩
    | .objectRest fields =>
      if c = ',' then .ok ⟨stack, .objectNext fields⟩
      else if c = '\x7d' then .ok (complete (.obj fields) stack)
      else .error ⟨.expectedCommaOrBrace, 1⟩
    | .objectNext fields =>
      if c = '"' then .ok ⟨stack, .string (.key fields) .plain []⟩
      else if c = '\x7d' then .error ⟨.trailingComma, 1⟩
      else .error ⟨.keyNotString, 1⟩
    | .colon fields key =>
      if c = ':' then .ok ⟨.object fields key :: stack, .value⟩ else .error ⟨.expectedColon, 1⟩
    | .done _ => .error ⟨.trailingCharacters, 1⟩
    | _ => startValue limit stack c

/-- The number with this text, last character first. -/
def numberOf (text : List Char) : Json := .num (String.ofList text.reverse)

/-- A character in or behind a number. The character behind it belongs to what surrounds it. -/
def inNumber (limit : Nat) (stack : List Frame) (part : NumberPart) (text : List Char) (c : Char) :
    Except Refusal State :=
  let go (next : NumberPart) : Except Refusal State := .ok ⟨stack, .number next (c :: text)⟩
  let behind : Except Refusal State :=
    let state := complete (numberOf text) stack
    between limit state.stack state.mode c
  let toExponent : Except Refusal State := .ok ⟨stack, .number .exponent ('e' :: text)⟩
  match part with
  | .minus =>
    if c = '0' then go .zero else if c.isDigit then go .digits else .error ⟨.invalidNumber, 1⟩
  | .zero =>
    if c.isDigit then .error ⟨.invalidNumber, 1⟩
    else if c = '.' then go .point
    else if c = 'e' || c = 'E' then toExponent
    else behind
  | .digits =>
    if c.isDigit then go .digits
    else if c = '.' then go .point
    else if c = 'e' || c = 'E' then toExponent
    else behind
  | .point => if c.isDigit then go .fraction else .error ⟨.invalidNumber, 1⟩
  | .fraction =>
    if c.isDigit then go .fraction else if c = 'e' || c = 'E' then toExponent else behind
  | .exponent =>
    if c = '+' || c = '-' then go .exponentSign
    else if c.isDigit then .ok ⟨stack, .number .exponentDigits (c :: '+' :: text)⟩
    else .error ⟨.invalidNumber, 1⟩
  | .exponentSign => if c.isDigit then go .exponentDigits else .error ⟨.invalidNumber, 1⟩
  | .exponentDigits => if c.isDigit then go .exponentDigits else behind

/-- The value of a digit of an escape by number. -/
def hexValue? (c : Char) : Option Nat :=
  if c.isDigit then some (c.toNat - '0'.toNat)
  else if 'a' ≤ c ∧ c ≤ 'f' then some (c.toNat - 'a'.toNat + 10)
  else if 'A' ≤ c ∧ c ≤ 'F' then some (c.toNat - 'A'.toNat + 10)
  else none

/-- The number of four digits, last one first. -/
def hexNumber? : List Char → Option Nat
  | [d, c, b, a] => do
    let a ← hexValue? a
    let b ← hexValue? b
    let c ← hexValue? c
    let d ← hexValue? d
    return ((a * 16 + b) * 16 + c) * 16 + d
  | _ => none

/-- The bytes of some characters. -/
def byteCount : List Char → Nat
  | [] => 0
  | c :: cs => c.utf8Size + byteCount cs

/-- The character of the escapes by a single letter. -/
def escaped? (c : Char) : Option Char :=
  if c = '"' ∨ c = '\\' ∨ c = '/' then some c
  else if c = 'b' then some '\x08'
  else if c = 'f' then some '\x0c'
  else if c = 'n' then some '\n'
  else if c = 'r' then some '\r'
  else if c = 't' then some '\t'
  else none

/-- A complete escape by number: a character, or the first half of a surrogate pair. -/
def numbered (high : Option Nat) (n : Nat) : Except Fault (StringPart × List Char) :=
  let low := 0xDC00 ≤ n && n ≤ 0xDFFF
  match high with
  | some h =>
    if low then .ok (.plain, [Char.ofNat (0x10000 + (h - 0xD800) * 0x400 + (n - 0xDC00))])
    else .error .loneSurrogate
  | none =>
    if low then .error .loneSurrogate
    else if 0xD800 ≤ n && n ≤ 0xDBFF then .ok (.pairBackslash n, [])
    else .ok (.plain, [Char.ofNat n])

/-- A character in a string. An escape by number takes four bytes, whatever they are, before it is
judged. -/
def inString (stack : List Frame) (role : StringRole) (part : StringPart) (chars : List Char)
    (c : Char) : Except Refusal State :=
  match part with
  | .plain =>
    if c = '"' then
      let s := String.ofList chars.reverse
      match role with
      | .value => .ok (complete (.str s) stack)
      | .key fields => .ok ⟨stack, .colon fields s⟩
    else if c = '\\' then .ok ⟨stack, .string role .escape chars⟩
    else if c.toNat < 0x20 then .error ⟨.controlCharacter, 1⟩
    else .ok ⟨stack, .string role .plain (c :: chars)⟩
  | .escape =>
    if c = 'u' then .ok ⟨stack, .string role (.hex none []) chars⟩
    else
      match escaped? c with
      | some d => .ok ⟨stack, .string role .plain (d :: chars)⟩
      | none => .error ⟨.invalidEscape, 1⟩
  | .hex high taken =>
    if byteCount (c :: taken) < 4 then .ok ⟨stack, .string role (.hex high (c :: taken)) chars⟩
    else
      let bytes := 4 - byteCount taken
      match hexNumber? (c :: taken) with
      | none => .error ⟨.invalidEscape, bytes⟩
      | some n =>
        match numbered high n with
        | .ok (next, more) => .ok ⟨stack, .string role next (more ++ chars)⟩
        | .error fault => .error ⟨fault, bytes⟩
  | .pairBackslash high =>
    if c = '\\' then .ok ⟨stack, .string role (.pairLetter high) chars⟩
    else .error ⟨.unpairedSurrogate, 1⟩
  | .pairLetter high =>
    if c = 'u' then .ok ⟨stack, .string role (.hex (some high) []) chars⟩
    else .error ⟨.unpairedSurrogate, 1⟩

/-- One character of the text. -/
def step (limit : Nat) (state : State) (c : Char) : Except Refusal State :=
  match state.mode with
  | .word left v =>
    match left with
    | [d] => if c = d then .ok (complete v state.stack) else .error ⟨.expectedIdent, 1⟩
    | d :: left => if c = d then .ok ⟨state.stack, .word left v⟩ else .error ⟨.expectedIdent, 1⟩
    | [] => .error ⟨.expectedIdent, 1⟩
  | .number part text => inNumber limit state.stack part text c
  | .string role part chars => inString state.stack role part chars c
  | mode => between limit state.stack mode c

/-- The fault of a text that ends in the middle of something. -/
def endFault : Mode → Fault
  | .listStart | .listRest _ => .endInList
  | .objectStart | .objectRest _ | .colon _ _ => .endInObject
  | .string _ _ _ => .endInString
  | _ => .endInValue

/-- The end of the text: a number may end with it. -/
def finish (state : State) : Except Fault Json :=
  let ended :=
    match state.mode with
    | .number part text =>
      if part.isComplete then complete (numberOf text) state.stack else state
    | _ => state
  match ended.mode with
  | .done v => .ok v
  | mode => .error (endFault mode)

/-- Goes through the text, counting the bytes. -/
def run (limit : Nat) : State → Nat → List Char → Except SyntaxError Json
  | state, offset, [] =>
    match finish state with
    | .ok v => .ok v
    | .error fault => .error ⟨fault, offset⟩
  | state, offset, c :: rest =>
    match step limit state c with
    | .ok next => run limit next (offset + c.utf8Size) rest
    | .error refusal => .error ⟨refusal.fault, offset + refusal.bytes⟩

end Reader

/-- The number of containers that cannot be open at once. -/
def Json.nestingLimit : Nat := 128

/-- Reads a document; the container that makes it `limit` open ones is refused. -/
def Json.read (limit : Nat) (text : String) : Except SyntaxError Json :=
  Reader.run limit ⟨[], .value⟩ 0 text.toList

end BorrowIR
