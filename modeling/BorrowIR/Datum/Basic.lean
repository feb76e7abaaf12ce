import BorrowIR.Entity

/-!
# Data with names

A `Datum` is a value that carries the names of its fields and variants, so that one printer serves
all types.

* `Datum.levels`: how deep a value is nested. An optional value, an identifier and a variant with
  one field are one level above what is in them; a container is one level itself, and each of its
  elements, keys and values stands one level further down.
-/

namespace BorrowIR

/-- A value that carries the names of its fields and variants. -/
inductive Datum where
  | int (n : Int)
  | bool (b : Bool)
  | char (c : Char)
  | str (s : String)
  /-- An optional value that is absent. -/
  | none
  /-- An optional value that is there. -/
  | some (value : Datum)
  /-- An identifier. -/
  | id (index : Nat)
  | list (elems : List Datum)
  | tuple (elems : List Datum)
  /-- Values with the names of their fields. -/
  | record (fields : List (String × Datum))
  /-- A variant without fields. -/
  | tag (name : String)
  /-- A variant with one field. -/
  | wrapped (name : String) (field : Datum)
  /-- A variant with several fields. -/
  | variant (name : String) (fields : List Datum)
  /-- Values by their identifiers. -/
  | map (entries : List (Nat × Datum))

namespace Datum

/-- An optional value. -/
def ofOption {α : Type} (datum : α → Datum) : Option α → Datum
  | .none => .none
  | .some a => .some (datum a)

/-- A list of values. -/
def ofList {α : Type} (datum : α → Datum) (values : List α) : Datum := .list (values.map datum)

mutual
/-- The levels of a value. -/
def levels : Datum → Nat
  | .int _ | .bool _ | .char _ | .str _ | .none | .tag _ => 0
  | .id _ => 1
  | .some value => levels value + 1
  | .wrapped _ field => levels field + 1
  | .list elems | .tuple elems | .variant _ elems => elemLevels elems + 1
  | .record fields => fieldLevels fields + 1
  | .map entries => entryLevels entries + 1

/-- The most levels among some elements, counted from their container. -/
def elemLevels : List Datum → Nat
  | [] => 0
  | elem :: elems => max (levels elem + 1) (elemLevels elems)

/-- The most levels among some fields, counted from their record. -/
def fieldLevels : List (String × Datum) → Nat
  | [] => 0
  | (_, value) :: fields => max (levels value + 1) (fieldLevels fields)

/-- The most levels among some entries and their identifiers, counted from their map. -/
def entryLevels : List (Nat × Datum) → Nat
  | [] => 0
  | (_, value) :: entries => max (max 2 (levels value + 1)) (entryLevels entries)
end

end Datum

/-- An identifier of any sort. -/
def EntityId.datum {sort : Entity} (id : EntityId sort) : Datum := .id id.index

end BorrowIR
