import BorrowIR.Decimal
import BorrowIR.Decode.Outcome

/-!
# Reading nodes

The conventions that all documents share:

* a variant without a payload is a string, its tag; a variant with a payload is an object with one
  field, whose key is the tag; a payload of several fields is the list of them;
* a payload of one field is a list of one element or, bare, the field itself (`Decode.wrapped`);
* a record is an object with exactly the expected keys;
* what is absent is `null`.

The parts of a node come with the fact that they are smaller than the node (`Json.Part`), so that
decoders can go down into them.
-/

namespace BorrowIR

/-- A node below the node `v`. -/
abbrev Json.Part (v : Json) : Type := { part : Json // sizeOf part < sizeOf v }

/-- So many nodes below the node `v`. -/
@[reducible] def Json.Parts (v : Json) : Nat → Type
  | 0 => Unit
  | 1 => v.Part
  | n + 2 => v.Part × Json.Parts v (n + 1)

namespace Json.Parts

variable {v : Json}

/-- The parts in a list, if it has so many elements. -/
def ofList? : (n : Nat) → List v.Part → Option (v.Parts n)
  | 0, [] => some ()
  | 1, [part] => some part
  | n + 2, part :: parts => (ofList? (n + 1) parts).map fun rest => (part, rest)
  | _, _ => none

/-- The list of the parts. -/
def toList : (n : Nat) → v.Parts n → List Json
  | 0, _ => []
  | 1, part => [part.1]
  | n + 2, (part, rest) => part.1 :: toList (n + 1) rest

end Json.Parts

namespace Json

theorem sizeOf_lt_of_mem_arr {part : Json} {elems : List Json} (h : part ∈ elems) :
    sizeOf part < sizeOf (Json.arr elems) := by
  have := List.sizeOf_lt_of_mem h
  simp only [Json.arr.sizeOf_spec]
  omega

theorem sizeOf_lt_of_mem_obj {key : String} {part : Json} {fields : List (String × Json)}
    (h : (key, part) ∈ fields) : sizeOf part < sizeOf (Json.obj fields) := by
  have := List.sizeOf_lt_of_mem h
  simp only [Json.obj.sizeOf_spec, Prod.mk.sizeOf_spec] at this ⊢
  omega

/-- The tag of a variant without a payload. -/
def tag? : Json → Option String
  | .str tag => some tag
  | _ => none

/-- The elements of a list. -/
def elements? : (v : Json) → Option (List v.Part)
  | .arr elems => some (elems.attach.map fun part => ⟨part.1, sizeOf_lt_of_mem_arr part.2⟩)
  | _ => none

/-- The fields of an object. -/
def fields? : (v : Json) → Option (List (String × v.Part))
  | .obj fields =>
    some (fields.attach.map fun part => (part.1.1, ⟨part.1.2, sizeOf_lt_of_mem_obj part.2⟩))
  | _ => none

end Json

namespace Decode

open Outcome

variable {α : Type}

/-- A node that does not have the expected shape. -/
def mismatch (expected : Shape) (found : Json) : Outcome α := fail (.mismatch expected found)

/-- A boolean. -/
def bool : Json → Outcome Bool
  | .bool b => pure b
  | v => mismatch .boolean v

/-- Numbers are below this one. -/
def naturalBound : Nat := 1 <<< 64

/-- A number without a sign, a point or an exponent, in 64 bits. -/
def natural (v : Json) : Outcome Nat :=
  match v with
  | .num text =>
    match Decimal.value? text.toList with
    | some n => if n < naturalBound then pure n else mismatch .natural v
    | none => mismatch .natural v
  | _ => mismatch .natural v

/-- An identifier of any sort. -/
def entityId {sort : Entity} (v : Json) : Outcome (EntityId sort) :=
  within "id" do return ⟨← natural v⟩

/-- A string. -/
def string : Json → Outcome String
  | .str s => pure s
  | v => mismatch .string v

/-- Something that may be absent. -/
def optional (decode : Json → Outcome α) : Json → Outcome (Option α)
  | .null => pure none
  | v => some <$> decode v

/-- Decodes the parts of a node one after the other, up to the first failure. -/
def each {v : Json} (decode : (part : Json) → sizeOf part < sizeOf v → Outcome α) :
    List v.Part → Outcome (List α)
  | [] => pure []
  | part :: parts => do
    let a ← decode part.1 part.2
    let rest ← each decode parts
    return a :: rest

/-- A list, whose elements are decoded with the knowledge that they are smaller. -/
def listBelow (v : Json) (decode : (part : Json) → sizeOf part < sizeOf v → Outcome α) :
    Outcome (List α) :=
  match v.elements? with
  | some parts => each decode parts
  | none => mismatch .list v

/-- A list. -/
def list (decode : Json → Outcome α) (v : Json) : Outcome (List α) :=
  listBelow v fun part _ => decode part

/-- A list of exactly `n` elements. -/
def components (n : Nat) (v : Json) : Outcome (v.Parts n) :=
  match v.elements?.bind (Json.Parts.ofList? n) with
  | some parts => pure parts
  | none => mismatch (.tuple n) v

/-- A tag, with a payload or without. -/
structure Tagged (v : Json) where
  tag : String
  payload : Option v.Part

/-- The tag and the payload of a variant. -/
def variant (v : Json) : Outcome (Tagged v) :=
  match v.tag?, v.fields? with
  | some tag, _ => pure ⟨tag, none⟩
  | none, some [(tag, payload)] => pure ⟨tag, some payload⟩
  | none, _ => mismatch .variant v

/-- The payload of a variant with one field, decoded with the knowledge how large it is. The field
stands in a list of one element or by itself. The first reading is tried first, and its failure is
the one that counts. -/
def wrappedBelow (payload : Json)
    (decode : (field : Json) → sizeOf field ≤ sizeOf payload → Outcome α) : Outcome α :=
  match payload.elements? with
  | some [field] =>
    (decode field.1 (Nat.le_of_lt field.2)).orElse (decode payload (Nat.le_refl _))
  | _ => decode payload (Nat.le_refl _)

/-- The payload of a variant with one field. -/
def wrapped (decode : Json → Outcome α) (payload : Json) : Outcome α :=
  wrappedBelow payload fun field _ => decode field

/-- The fields of a record, in the order of `keys`. The record has these fields and no others. -/
def record (keys : List String) (v : Json) : Outcome (v.Parts keys.length) :=
  match v.fields? with
  | some fields =>
    match (keys.mapM fun key => fields.lookup key).bind (Json.Parts.ofList? keys.length) with
    | some parts =>
      if fields.length = keys.length then pure parts else mismatch (.record keys) v
    | none => mismatch (.record keys) v
  | none => mismatch (.record keys) v

/-- One of the values `all` of a type none of whose variants has a payload, by its tag. -/
def tagOnly (noun : String) (all : List α) (tagOf : α → String) (v : Json) : Outcome α := do
  match ← variant v with
  | ⟨tag, none⟩ =>
    match all.find? fun a => tagOf a == tag with
    | some a => pure a
    | none => fail (.unknownVariant noun tag)
  | ⟨tag, some _⟩ => fail (.unknownVariant noun tag)

end Decode

end BorrowIR
