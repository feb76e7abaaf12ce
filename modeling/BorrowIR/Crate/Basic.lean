import BorrowIR.Crate.IdMap
import BorrowIR.Decl.Basic
import BorrowIR.Statement.Basic

/-!
# Crates

A crate holds its declarations by their identifiers, and the groups in which they can be processed:
a group depends on the groups before it only.
-/

namespace BorrowIR

/-- A crate with bodies of code `B`. -/
structure Crate (B : Type) where
  name : String
  groups : List DeclGroup
  types : IdMap .typeDecl TypeDecl
  functions : IdMap .funDecl (FunDecl B)
  globals : IdMap .globalDecl (GlobalDecl B)

namespace Crate

variable {B : Type}

/-- The crate without declarations. -/
def empty (name : String) : Crate B := ⟨name, [], .empty, .empty, .empty⟩

/-- The type declaration with this full name; the one with the least identifier if there are
several. -/
def findType? (crate : Crate B) (name : String) : Option TypeDecl :=
  crate.types.values.find? fun decl => decl.name.text == name

/-- The function declaration with this full name. -/
def findFun? (crate : Crate B) (name : String) : Option (FunDecl B) :=
  crate.functions.values.find? fun decl => decl.name.text == name

/-- The global declaration with this full name. -/
def findGlobal? (crate : Crate B) (name : String) : Option (GlobalDecl B) :=
  crate.globals.values.find? fun decl => decl.name.text == name

end Crate

end BorrowIR
