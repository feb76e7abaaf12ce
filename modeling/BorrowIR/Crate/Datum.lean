import BorrowIR.Crate.Basic
import BorrowIR.Datum.Ron
import BorrowIR.Decl.Datum
import BorrowIR.Statement.Datum

/-!
# Crates as data

* `Crate.ron?` is the text of a crate in object notation.
-/

namespace BorrowIR

/-- The values of a map by their identifiers. -/
def IdMap.datum {sort : Entity} {α : Type} (datum : α → Datum) (map : IdMap sort α) : Datum :=
  .map (map.entries.map fun (id, value) => (id.index, datum value))

/-- A crate, given the data of the code of bodies. -/
def Crate.datum {B : Type} (code : B → Datum) (crate : Crate B) : Datum :=
  .record [("name", .str crate.name),
    ("declarations", .ofList DeclGroup.datum crate.groups),
    ("types", crate.types.datum TypeDecl.datum),
    ("functions", crate.functions.datum (FunDecl.datum code)),
    ("globals", crate.globals.datum (GlobalDecl.datum code))]

/-- The text of a crate in object notation, unless it is nested too deep. -/
def Crate.ron? (crate : Crate Statement) : Option String := (crate.datum Statement.datum).ron?

end BorrowIR
