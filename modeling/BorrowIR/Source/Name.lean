/-!
# Names

A declaration has a name of several segments, `core::option::Option`. A number tells items with the
same segments apart and is attached to what stands before it, `a#1::f`.
-/

namespace BorrowIR

/-- A segment of a name. -/
inductive PathElem where
  | ident (ident : String)
  | disambiguator (n : Nat)
deriving DecidableEq, Repr

/-- A fully qualified name. -/
structure Name where
  elems : List PathElem
deriving DecidableEq, Repr

namespace Name

/-- What the segments behind the first one add to the text. -/
def tailText : List PathElem → String
  | [] => ""
  | .ident ident :: elems => "::" ++ ident ++ tailText elems
  | .disambiguator n :: elems => "#" ++ toString n ++ tailText elems

/-- The identifiers with `::` between them; a number follows a `#`. -/
def text (name : Name) : String :=
  match name.elems with
  | .ident ident :: elems => ident ++ tailText elems
  | elems => tailText elems

/-- The last identifier; numbers do not count. -/
def lastIdent? (name : Name) : Option String :=
  name.elems.reverse.findSome? fun
    | .ident ident => some ident
    | .disambiguator _ => none

end Name

end BorrowIR
