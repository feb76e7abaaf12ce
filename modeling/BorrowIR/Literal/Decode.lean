import BorrowIR.Decode.Node
import BorrowIR.Literal.Word

/-!
# Decoding literal values

An integer literal is a number or a string of decimal digits, with or without a minus sign, of any
length. It is decoded at an integer type, which has to hold it.

* `SignedDigits.scalar?` is the scalar that a literal denotes, computed in machine words.
-/

namespace BorrowIR

open Decode Outcome

/-- An integer literal: a sign, and one or more digits. -/
structure SignedDigits where
  negative : Bool
  digits : List Char
deriving DecidableEq, Repr

namespace SignedDigits

/-- The sign and the rest of a text. -/
def split : List Char → SignedDigits
  | '-' :: digits => ⟨true, digits⟩
  | digits => ⟨false, digits⟩

/-- The literal with this text. -/
def ofChars? (cs : List Char) : Option SignedDigits :=
  let literal := split cs
  if literal.digits ≠ [] ∧ literal.digits.all Char.isDigit then some literal else none

/-- The integer of a type that a literal denotes. -/
def scalar? (literal : SignedDigits) (ty : IntTy) : Option Scalar := do
  let magnitude ← Word.ofDigits? literal.digits
  Scalar.ofMagnitude? ty literal.negative magnitude

/-- How a message shows a literal that was written as `text`: in shortest form, unless its magnitude
overflows, in which case it is shown as it was written. -/
def shown (literal : SignedDigits) (text : String) : String :=
  match Word.ofDigits? literal.digits with
  | some magnitude => (if literal.negative then "-" else "") ++ toString magnitude.toNat
  | none => text

end SignedDigits

/-- The text of a node that may be an integer literal. -/
def Json.literalText? : Json → Option String
  | .num text => some text
  | .str text => some text
  | _ => none

/-- An integer literal of the type `ty`. -/
def Scalar.decodeLiteral (ty : IntTy) (v : Json) : Outcome Scalar :=
  match v.literalText? with
  | none => mismatch .integerLiteral v
  | some text =>
    match SignedDigits.ofChars? text.toList with
    | none => mismatch .integerLiteral v
    | some literal =>
      match literal.scalar? ty with
      | some scalar => pure scalar
      | none => do
        report (.outOfRange (literal.shown text) ty)
        fail (.outOfRange (literal.shown text) ty)

/-- An integer with its type as the tag. -/
def Scalar.decode (v : Json) : Outcome Scalar :=
  within "scalar_value" do
    match ← variant v with
    | ⟨tag, some payload⟩ =>
      match IntTy.ofTag? tag with
      | some ty => wrapped (decodeLiteral ty) payload
      | none => fail (.unknownVariant "ScalarValue" tag)
    | ⟨tag, none⟩ => fail (.unknownVariant "ScalarValue" tag)

/-- A character, as a string of one character. -/
def Decode.char (v : Json) : Outcome Char :=
  match v with
  | .str s =>
    match s.toList with
    | [c] => pure c
    | _ => mismatch .singleCharacter v
  | _ => mismatch .character v

/-- A literal value. -/
def Literal.decode (v : Json) : Outcome Literal :=
  within "primitive_value" do
    match ← variant v with
    | ⟨"Scalar", some payload⟩ => .scalar <$> wrapped Scalar.decode payload
    | ⟨"Bool", some payload⟩ => .bool <$> wrapped Decode.bool payload
    | ⟨"Char", some payload⟩ => .char <$> wrapped Decode.char payload
    | ⟨"String", some payload⟩ => .string <$> wrapped Decode.string payload
    | ⟨tag, _⟩ => fail (.unknownVariant "PrimitiveValue" tag)

end BorrowIR
