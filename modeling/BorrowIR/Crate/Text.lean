import BorrowIR.Decl.Text

/-!
# Crates as text

A crate is printed in the order of its groups, with an empty line between declarations.
-/

namespace BorrowIR

namespace Crate

/-- The declarations of a group that the crate has. -/
def groupDocs (crate : Crate Statement) : DeclGroup → List Doc
  | .types group => (group.ids.filterMap crate.types.find?).map (TypeDecl.doc crate)
  | .functions group => (group.ids.filterMap crate.functions.find?).map (FunDecl.doc crate)
  | .global id => (crate.globals.find? id).toList.map (GlobalDecl.doc crate)

/-- The whole crate. -/
def doc (crate : Crate Statement) : Doc :=
  .text ("// crate " ++ crate.name) ++ .line ++ .line
    ++ Doc.separate (.line ++ .line) (crate.groups.flatMap crate.groupDocs)

/-- The text of the whole crate. -/
def text (crate : Crate Statement) : String := crate.doc.render

end Crate

end BorrowIR
