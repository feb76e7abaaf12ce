/-!
# Documents

A document is JSON whose numbers keep their text, so that a literal of any size survives reading
(`Json.num`). The fields of an object stand in increasing order of their keys and a key occurs
once: `insertField` keeps both, and a later value replaces an earlier one.

* `Json.compress` is the one-line text of a document, without blanks;
* `Json.excerpt` is that text cut to sixty characters, for messages.
-/

namespace BorrowIR

/-- A JSON document. A number is kept as its text. -/
inductive Json where
  | null
  | bool (b : Bool)
  | num (text : String)
  | str (s : String)
  | arr (elems : List Json)
  | obj (fields : List (String × Json))
deriving Inhabited

namespace Json

/-- Adds a field where the order of the keys puts it; the value of a key that is already there is
replaced. -/
def insertField (key : String) (value : Json) : List (String × Json) → List (String × Json)
  | [] => [(key, value)]
  | (k, v) :: rest =>
    if key < k then (key, value) :: (k, v) :: rest
    else if key = k then (key, value) :: rest
    else (k, v) :: insertField key value rest

/-- The value of a field of an object. -/
def field? (key : String) : Json → Option Json
  | .obj fields => fields.lookup key
  | _ => none

/-- Digits of the escape of a control character. -/
def hexDigit (n : Nat) : Char :=
  if n < 10 then Char.ofNat ('0'.toNat + n) else Char.ofNat ('a'.toNat + (n - 10))

/-- A character as it stands in the text of a string: quotes, backslashes and the characters below
the blank are escaped, everything else stands for itself. -/
def escapeChar (c : Char) : List Char :=
  if c = '"' then ['\\', '"']
  else if c = '\\' then ['\\', '\\']
  else if c = '\x08' then ['\\', 'b']
  else if c = '\x0c' then ['\\', 'f']
  else if c = '\n' then ['\\', 'n']
  else if c = '\r' then ['\\', 'r']
  else if c = '\t' then ['\\', 't']
  else if c.toNat < 0x20 then
    ['\\', 'u', '0', '0', hexDigit (c.toNat / 16), hexDigit (c.toNat % 16)]
  else [c]

/-- The text of a string, in quotes. -/
def quote (s : String) : String :=
  String.ofList ('"' :: (s.toList.flatMap escapeChar ++ ['"']))

mutual
/-- The one-line text of a document. -/
def compress : Json → String
  | .null => "null"
  | .bool b => if b then "true" else "false"
  | .num text => text
  | .str s => quote s
  | .arr elems => "[" ++ ",".intercalate (compressElems elems) ++ "]"
  | .obj fields => "\x7b" ++ ",".intercalate (compressFields fields) ++ "\x7d"

/-- The texts of the elements of a list. -/
def compressElems : List Json → List String
  | [] => []
  | v :: rest => compress v :: compressElems rest

/-- The texts of the fields of an object. -/
def compressFields : List (String × Json) → List String
  | [] => []
  | (key, v) :: rest => (quote key ++ ":" ++ compress v) :: compressFields rest
end

/-- The length at which a message cuts the text of a document. -/
def excerptLength : Nat := 60

/-- The text of a document for a message: at most `excerptLength` characters, then three dots if
something is missing. -/
def excerpt (v : Json) : String :=
  let text := v.compress.toList
  if text.length ≤ excerptLength then String.ofList text
  else String.ofList (text.take excerptLength) ++ "..."

end Json

end BorrowIR
