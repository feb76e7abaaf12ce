import BorrowIR.Decl.Decode
import BorrowIR.Proofs.Grammars
import BorrowIR.Proofs.SourceWire

/-!
# The written forms of declarations

The grammar of declarations in documents, for the files of a table and for the code of bodies in
some grammar of its own, and the declarations that it can write down.

* `TypeDecl.Wire`, `FunDecl.Wire`, `GlobalDecl.Wire`, `DeclGroup.Wire`: a node is a written form of
  a declaration, or of a group of declarations. Fields and signatures have types of signatures,
  local variables and globals have types of bodies;
* `TypeDecl.Writable`, `FunDecl.Writable`, `GlobalDecl.Writable`, `DeclGroup.Writable`: numbers have
  64 bits, types obey the rules, files are listed, bodies have enough variables, and cycles have
  members;
* `TypeDecl.covers`, `FunDecl.covers`, `GlobalDecl.covers`, `DeclGroup.covers`: these are the values
  that have a written form, and each has one in every packing.
-/

namespace BorrowIR

open Decode Wire

/-! ## The grammar of names and of parameters -/

/-- The written form of a string. -/
def Text.Wire (s : String) (_ : Packing) (v : Json) : Prop := v = .str s

/-- Written forms of the segments of names. -/
inductive PathElem.Wire : PathElem → Packing → Json → Prop
  | ident {p : Packing} {s : String} :
    Wire (.ident s) p (.tagged "Ident" (p.payload (.str s)))
  | disambiguator {p : Packing} {n : Nat} {v : Json} :
    v.IsNumeral n → Wire (.disambiguator n) p (.tagged "Disambiguator" (p.payload v))

/-- Written forms of names. -/
def Name.Wire (name : Name) (p : Packing) (v : Json) : Prop :=
  Listed PathElem.Wire name.elems p v

/-- Written forms of region parameters. -/
inductive RegionVar.Wire : RegionVar → Packing → Json → Prop
  | mk {p : Packing} {var : RegionVar} {v index name : Json} :
    v.IsRecord [("index", index), ("name", name)] → var.id.Wire (p.child 0) index →
      Optional Text.Wire var.name (p.child 1) name → Wire var p v

/-- Written forms of type parameters. -/
inductive TypeVar.Wire : TypeVar → Packing → Json → Prop
  | mk {p : Packing} {var : TypeVar} {v index name : Json} :
    v.IsRecord [("index", index), ("name", name)] → var.id.Wire (p.child 0) index →
      Text.Wire var.name (p.child 1) name → Wire var p v

/-- Written forms of the groups of region parameters. -/
inductive RegionGroup.Wire : RegionGroup → Packing → Json → Prop
  | mk {p : Packing} {group : RegionGroup} {v id regions parents : Json} :
    v.IsRecord [("id", id), ("regions", regions), ("parents", parents)] →
      group.id.Wire (p.child 0) id → Listed EntityId.Wire group.regions (p.child 1) regions →
      Listed EntityId.Wire group.parents (p.child 2) parents → Wire group p v

/-! ## The grammar of type declarations -/

section
variable (table : FileTable)

/-- Written forms of fields. -/
inductive Field.Wire : Field → Packing → Json → Prop
  | mk {p : Packing} {field : Field} {v origin name ty : Json} :
    v.IsRecord [("meta", origin), ("name", name), ("ty", ty)] →
      field.origin.Wire table (p.child 0) origin → Optional Text.Wire field.name (p.child 1) name →
      SigTy.Wire field.ty (p.child 2) ty → Wire field p v

/-- Written forms of the variants of an enumeration. -/
inductive Variant.Wire : Variant → Packing → Json → Prop
  | mk {p : Packing} {variant : Variant} {v origin name fields : Json} :
    v.IsRecord [("meta", origin), ("name", name), ("fields", fields)] →
      variant.origin.Wire table (p.child 0) origin → Text.Wire variant.name (p.child 1) name →
      Listed (Field.Wire table) variant.fields (p.child 2) fields → Wire variant p v

/-- Written forms of what type declarations declare. The one field of a variant is a list here, and
may stand in a list of its own like any other. -/
inductive TypeDeclKind.Wire : TypeDeclKind → Packing → Json → Prop
  | struct {p : Packing} {fields : List Field} {v : Json} :
    Listed (Field.Wire table) fields (p.child 0) v →
      Wire (.struct fields) p (.tagged "Struct" (p.payload v))
  | enum {p : Packing} {variants : List Variant} {v : Json} :
    Listed (Variant.Wire table) variants (p.child 0) v →
      Wire (.enum variants) p (.tagged "Enum" (p.payload v))
  | external {p : Packing} : Wire .external p (.str "Opaque")

/-- Written forms of type declarations. -/
inductive TypeDecl.Wire : TypeDecl → Packing → Json → Prop
  | mk {p : Packing} {decl : TypeDecl} {v id origin name regions types hierarchy kind : Json} :
    v.IsRecord [("def_id", id), ("meta", origin), ("name", name), ("region_params", regions),
        ("type_params", types), ("regions_hierarchy", hierarchy), ("kind", kind)] →
      decl.id.Wire (p.child 0) id → decl.origin.Wire table (p.child 1) origin →
      decl.name.Wire (p.child 2) name → Listed RegionVar.Wire decl.regions (p.child 3) regions →
      Listed TypeVar.Wire decl.types (p.child 4) types →
      Listed RegionGroup.Wire decl.hierarchy (p.child 5) hierarchy →
      decl.kind.Wire table (p.child 6) kind → Wire decl p v

/-! ## The grammar of functions and globals -/

/-- Written forms of signatures. -/
inductive Signature.Wire : Signature → Packing → Json → Prop
  | mk {p : Packing} {sig : Signature} {v regions early hierarchy types inputs output : Json} :
    v.IsRecord [("region_params", regions), ("num_early_bound_regions", early),
        ("regions_hierarchy", hierarchy), ("type_params", types), ("inputs", inputs),
        ("output", output)] →
      Listed RegionVar.Wire sig.regions (p.child 0) regions → early.IsNumeral sig.earlyBound →
      Listed RegionGroup.Wire sig.hierarchy (p.child 1) hierarchy →
      Listed TypeVar.Wire sig.types (p.child 2) types →
      Listed SigTy.Wire sig.inputs (p.child 3) inputs → SigTy.Wire sig.output (p.child 4) output →
      Wire sig p v

/-- Written forms of local variables. -/
inductive Var.Wire : Var → Packing → Json → Prop
  | mk {p : Packing} {var : Var} {v index name ty : Json} :
    v.IsRecord [("index", index), ("name", name), ("ty", ty)] → var.id.Wire (p.child 0) index →
      Optional Text.Wire var.name (p.child 1) name → ErasedTy.Wire var.ty (p.child 2) ty →
      Wire var p v

variable {B : Type} (code : B → Packing → Json → Prop)

/-- Written forms of bodies. There is a variable for the result and one for each argument. -/
inductive Body.Wire : Body B → Packing → Json → Prop
  | mk {p : Packing} {body : Body B} {v origin args locals content : Json} :
    v.IsRecord [("meta", origin), ("arg_count", args), ("locals", locals), ("body", content)] →
      body.origin.Wire table (p.child 0) origin → args.IsNumeral body.argCount →
      Listed Var.Wire body.locals (p.child 1) locals → body.argCount < body.locals.length →
      code body.code (p.child 2) content → Wire body p v

/-- Written forms of function declarations. -/
inductive FunDecl.Wire : FunDecl B → Packing → Json → Prop
  | mk {p : Packing} {decl : FunDecl B} {v id origin name sig body : Json} :
    v.IsRecord [("def_id", id), ("meta", origin), ("name", name), ("signature", sig),
        ("body", body)] →
      decl.id.Wire (p.child 0) id → decl.origin.Wire table (p.child 1) origin →
      decl.name.Wire (p.child 2) name → decl.signature.Wire (p.child 3) sig →
      Optional (Body.Wire table code) decl.body (p.child 4) body → Wire decl p v

/-- Written forms of global declarations. -/
inductive GlobalDecl.Wire : GlobalDecl B → Packing → Json → Prop
  | mk {p : Packing} {decl : GlobalDecl B} {v id origin name ty body : Json} :
    v.IsRecord [("def_id", id), ("meta", origin), ("name", name), ("ty", ty), ("body", body)] →
      decl.id.Wire (p.child 0) id → decl.origin.Wire table (p.child 1) origin →
      decl.name.Wire (p.child 2) name → ErasedTy.Wire decl.ty (p.child 3) ty →
      Optional (Body.Wire table code) decl.body (p.child 4) body → Wire decl p v

end

/-! ## The grammar of groups -/

/-- Written forms of the members of a group. A cycle has members. -/
inductive Group.Wire {sort : Entity} : Group (EntityId sort) → Packing → Json → Prop
  | single {p : Packing} {id : EntityId sort} {v : Json} :
    id.Wire (p.child 0) v → Wire (.single id) p (.tagged "NonRec" (p.payload v))
  | cycle {p : Packing} {ids : List (EntityId sort)} {v : Json} :
    ids ≠ [] → Listed EntityId.Wire ids (p.child 0) v →
      Wire (.cycle ids) p (.tagged "Rec" (p.payload v))

/-- Written forms of the groups of declarations. A global is in no cycle. -/
inductive DeclGroup.Wire : DeclGroup → Packing → Json → Prop
  | types {p : Packing} {group : Group TypeDeclId} {v : Json} :
    group.Wire (p.child 0) v → Wire (.types group) p (.tagged "Type" (p.payload v))
  | functions {p : Packing} {group : Group FunDeclId} {v : Json} :
    group.Wire (p.child 0) v → Wire (.functions group) p (.tagged "Fun" (p.payload v))
  | global {p : Packing} {id : GlobalDeclId} {v : Json} :
    (Group.single id).Wire (p.child 0) v → Wire (.global id) p (.tagged "Global" (p.payload v))

/-! ## What can be written -/

/-- The number has 64 bits. -/
def PathElem.Writable : PathElem → Prop
  | .ident _ => True
  | .disambiguator n => n < naturalBound

/-- The segments can be written. -/
def Name.Writable (name : Name) : Prop := ∀ elem ∈ name.elems, elem.Writable

/-- The number has 64 bits. -/
def RegionVar.Writable (var : RegionVar) : Prop := var.id.Writable

/-- The number has 64 bits. -/
def TypeVar.Writable (var : TypeVar) : Prop := var.id.Writable

/-- The numbers of the group, of its regions and of its parents have 64 bits. -/
def RegionGroup.Writable (group : RegionGroup) : Prop :=
  group.id.Writable ∧ (∀ id ∈ group.regions, id.Writable) ∧ ∀ id ∈ group.parents, id.Writable

section
variable (table : FileTable)

/-- The spans and the type can be written. -/
def Field.Writable (field : Field) : Prop :=
  field.origin.WellFormed table ∧ SigTy.Writable field.ty

/-- The spans and the fields can be written. -/
def Variant.Writable (variant : Variant) : Prop :=
  variant.origin.WellFormed table ∧ ∀ field ∈ variant.fields, field.Writable table

/-- The fields, or the variants, can be written. -/
def TypeDeclKind.Writable : TypeDeclKind → Prop
  | .struct fields => ∀ field ∈ fields, field.Writable table
  | .enum variants => ∀ variant ∈ variants, variant.Writable table
  | .external => True

/-- All parts can be written. -/
def TypeDecl.Writable (decl : TypeDecl) : Prop :=
  decl.id.Writable ∧ decl.origin.WellFormed table ∧ decl.name.Writable ∧
    (∀ var ∈ decl.regions, var.Writable) ∧ (∀ var ∈ decl.types, var.Writable) ∧
    (∀ group ∈ decl.hierarchy, group.Writable) ∧ decl.kind.Writable table

/-- All parts can be written. -/
def Signature.Writable (sig : Signature) : Prop :=
  (∀ var ∈ sig.regions, var.Writable) ∧ sig.earlyBound < naturalBound ∧
    (∀ group ∈ sig.hierarchy, group.Writable) ∧ (∀ var ∈ sig.types, var.Writable) ∧
    (∀ ty ∈ sig.inputs, SigTy.Writable ty) ∧ SigTy.Writable sig.output

/-- The number and the type can be written. -/
def Var.Writable (var : Var) : Prop := var.id.Writable ∧ ErasedTy.Writable var.ty

variable {B : Type} (code : B → Prop)

/-- All parts can be written, and there are enough variables. -/
def Body.Writable (body : Body B) : Prop :=
  body.origin.WellFormed table ∧ body.argCount < naturalBound ∧
    (∀ var ∈ body.locals, var.Writable) ∧ body.argCount < body.locals.length ∧ code body.code

/-- All parts can be written. -/
def FunDecl.Writable (decl : FunDecl B) : Prop :=
  decl.id.Writable ∧ decl.origin.WellFormed table ∧ decl.name.Writable ∧
    decl.signature.Writable ∧ ∀ body ∈ decl.body, body.Writable table code

/-- All parts can be written. -/
def GlobalDecl.Writable (decl : GlobalDecl B) : Prop :=
  decl.id.Writable ∧ decl.origin.WellFormed table ∧ decl.name.Writable ∧
    ErasedTy.Writable decl.ty ∧ ∀ body ∈ decl.body, body.Writable table code

end

/-- The numbers have 64 bits, and a cycle has members. -/
def Group.Writable {sort : Entity} : Group (EntityId sort) → Prop
  | .single id => id.Writable
  | .cycle ids => ids ≠ [] ∧ ∀ id ∈ ids, id.Writable

/-- The members can be written. -/
def DeclGroup.Writable : DeclGroup → Prop
  | .types group => group.Writable
  | .functions group => group.Writable
  | .global id => id.Writable

/-! ## Names and parameters -/

theorem Text.covers : Covers Text.Wire fun _ => True :=
  fun _ _ => ⟨fun _ => ⟨_, rfl⟩, fun _ => trivial⟩

/-- A word can always be written, a number if it has 64 bits. -/
theorem PathElem.covers : Covers PathElem.Wire PathElem.Writable := by
  intro elem p
  cases elem with
  | ident s => exact ⟨fun _ => ⟨_, .ident⟩, fun _ => trivial⟩
  | disambiguator n =>
    rw [Writable, ← Json.exists_isNumeral]
    exact ⟨fun ⟨_, h⟩ => ⟨_, .disambiguator h⟩, fun ⟨_, .disambiguator h⟩ => ⟨_, h⟩⟩

theorem Name.covers : Covers Name.Wire Name.Writable :=
  fun name p => PathElem.covers.listed name.elems p

/-- Whether there is a text, and which one, is no matter. -/
theorem Text.exists_optional (name : Option String) (p : Packing) :
    ∃ v, Optional Text.Wire name p v :=
  (Text.covers.optional name p).1 fun _ _ => trivial

/-- Of a region parameter only the number counts. -/
theorem RegionVar.covers : Covers RegionVar.Wire RegionVar.Writable := by
  intro var p
  rw [Writable, var.id.covers (p.child 0)]
  constructor
  · rintro ⟨_, hid⟩
    obtain ⟨_, hname⟩ := Text.exists_optional var.name (p.child 1)
    exact ⟨_, .mk (Json.isRecord_obj _) hid hname⟩
  · rintro ⟨_, ⟨-, hid, -⟩⟩
    exact ⟨_, hid⟩

theorem TypeVar.covers : Covers TypeVar.Wire TypeVar.Writable := by
  intro var p
  rw [Writable, var.id.covers (p.child 0)]
  exact ⟨fun ⟨_, hid⟩ => ⟨_, .mk (Json.isRecord_obj _) hid rfl⟩, fun ⟨_, .mk _ hid _⟩ => ⟨_, hid⟩⟩

/-- A group of regions can be written if all of its numbers have 64 bits. -/
theorem RegionGroup.covers : Covers RegionGroup.Wire RegionGroup.Writable := by
  intro group p
  rw [Writable, group.id.covers (p.child 0), EntityId.covers.listed _ (p.child 1),
    EntityId.covers.listed _ (p.child 2)]
  exact ⟨fun ⟨⟨_, hid⟩, ⟨_, hregions⟩, ⟨_, hparents⟩⟩ =>
      ⟨_, .mk (Json.isRecord_obj _) hid hregions hparents⟩,
    fun ⟨_, .mk _ hid hregions hparents⟩ => ⟨⟨_, hid⟩, ⟨_, hregions⟩, ⟨_, hparents⟩⟩⟩

/-! ## Type declarations -/

section
variable {table : FileTable}

/-- The provenances that can be written are the well formed ones. -/
theorem Provenance.covers : Covers (Provenance.Wire table) (Provenance.WellFormed table) :=
  fun _ p => (Provenance.exists_wire_iff p).symm

theorem Field.covers : Covers (Field.Wire table) (Field.Writable table) := by
  intro field p
  rw [Writable, field.origin.covers (p.child 0), SigTy.covers field.ty (p.child 2)]
  constructor
  · rintro ⟨⟨_, horigin⟩, ⟨_, hty⟩⟩
    obtain ⟨_, hname⟩ := Text.exists_optional field.name (p.child 1)
    exact ⟨_, .mk (Json.isRecord_obj _) horigin hname hty⟩
  · rintro ⟨_, ⟨-, horigin, -, hty⟩⟩
    exact ⟨⟨_, horigin⟩, ⟨_, hty⟩⟩

theorem Variant.covers : Covers (Variant.Wire table) (Variant.Writable table) := by
  intro variant p
  rw [Writable, variant.origin.covers (p.child 0), Field.covers.listed _ (p.child 2)]
  exact ⟨fun ⟨⟨_, horigin⟩, ⟨_, hfields⟩⟩ =>
      ⟨_, .mk (Json.isRecord_obj _) horigin rfl hfields⟩,
    fun ⟨_, .mk _ horigin _ hfields⟩ => ⟨⟨_, horigin⟩, ⟨_, hfields⟩⟩⟩

theorem TypeDeclKind.covers : Covers (TypeDeclKind.Wire table) (TypeDeclKind.Writable table) := by
  intro kind p
  cases kind with
  | struct fields =>
    rw [Writable, Field.covers.listed _ (p.child 0)]
    exact ⟨fun ⟨_, h⟩ => ⟨_, .struct h⟩, fun ⟨_, .struct h⟩ => ⟨_, h⟩⟩
  | enum variants =>
    rw [Writable, Variant.covers.listed _ (p.child 0)]
    exact ⟨fun ⟨_, h⟩ => ⟨_, .enum h⟩, fun ⟨_, .enum h⟩ => ⟨_, h⟩⟩
  | external => exact ⟨fun _ => ⟨_, .external⟩, fun _ => trivial⟩

/-- A type declaration can be written if its parts can be, in every packing. -/
theorem TypeDecl.covers : Covers (TypeDecl.Wire table) (TypeDecl.Writable table) := by
  intro decl p
  rw [Writable, decl.id.covers (p.child 0), decl.origin.covers (p.child 1),
    decl.name.covers (p.child 2), RegionVar.covers.listed _ (p.child 3),
    TypeVar.covers.listed _ (p.child 4), RegionGroup.covers.listed _ (p.child 5),
    decl.kind.covers (p.child 6)]
  constructor
  · rintro ⟨⟨_, hid⟩, ⟨_, horigin⟩, ⟨_, hname⟩, ⟨_, hregions⟩, ⟨_, htypes⟩, ⟨_, hhierarchy⟩,
      ⟨_, hkind⟩⟩
    exact ⟨_, .mk (Json.isRecord_obj _) hid horigin hname hregions htypes hhierarchy hkind⟩
  · rintro ⟨_, ⟨-, hid, horigin, hname, hregions, htypes, hhierarchy, hkind⟩⟩
    exact ⟨⟨_, hid⟩, ⟨_, horigin⟩, ⟨_, hname⟩, ⟨_, hregions⟩, ⟨_, htypes⟩, ⟨_, hhierarchy⟩,
      ⟨_, hkind⟩⟩

/-! ## Functions and globals -/

theorem Signature.covers : Covers Signature.Wire Signature.Writable := by
  intro sig p
  rw [Writable, RegionVar.covers.listed _ (p.child 0), ← Json.exists_isNumeral,
    RegionGroup.covers.listed _ (p.child 1), TypeVar.covers.listed _ (p.child 2),
    SigTy.covers.listed _ (p.child 3), SigTy.covers sig.output (p.child 4)]
  constructor
  · rintro ⟨⟨_, hregions⟩, ⟨_, hearly⟩, ⟨_, hhierarchy⟩, ⟨_, htypes⟩, ⟨_, hinputs⟩, ⟨_, houtput⟩⟩
    exact ⟨_, .mk (Json.isRecord_obj _) hregions hearly hhierarchy htypes hinputs houtput⟩
  · rintro ⟨_, ⟨-, hregions, hearly, hhierarchy, htypes, hinputs, houtput⟩⟩
    exact ⟨⟨_, hregions⟩, ⟨_, hearly⟩, ⟨_, hhierarchy⟩, ⟨_, htypes⟩, ⟨_, hinputs⟩, ⟨_, houtput⟩⟩

theorem Var.covers : Covers Var.Wire Var.Writable := by
  intro var p
  rw [Writable, var.id.covers (p.child 0), ErasedTy.covers var.ty (p.child 2)]
  constructor
  · rintro ⟨⟨_, hid⟩, ⟨_, hty⟩⟩
    obtain ⟨_, hname⟩ := Text.exists_optional var.name (p.child 1)
    exact ⟨_, .mk (Json.isRecord_obj _) hid hname hty⟩
  · rintro ⟨_, ⟨-, hid, -, hty⟩⟩
    exact ⟨⟨_, hid⟩, ⟨_, hty⟩⟩

variable {B : Type} {wire : B → Packing → Json → Prop} {writable : B → Prop}

/-- A body can be written if its code can be and there are more variables than arguments. -/
theorem Body.covers (hcode : Covers wire writable) :
    Covers (Body.Wire table wire) (Body.Writable table writable) := by
  intro body p
  rw [Writable, body.origin.covers (p.child 0), ← Json.exists_isNumeral,
    Var.covers.listed _ (p.child 1), hcode body.code (p.child 2)]
  constructor
  · rintro ⟨⟨_, horigin⟩, ⟨_, hargs⟩, ⟨_, hlocals⟩, hlt, ⟨_, hcontent⟩⟩
    exact ⟨_, .mk (Json.isRecord_obj _) horigin hargs hlocals hlt hcontent⟩
  · rintro ⟨_, ⟨-, horigin, hargs, hlocals, hlt, hcontent⟩⟩
    exact ⟨⟨_, horigin⟩, ⟨_, hargs⟩, ⟨_, hlocals⟩, hlt, ⟨_, hcontent⟩⟩

/-- A function can be written if its parts can be, and its body if it has one. -/
theorem FunDecl.covers (hcode : Covers wire writable) :
    Covers (FunDecl.Wire table wire) (FunDecl.Writable table writable) := by
  intro decl p
  rw [Writable, decl.id.covers (p.child 0), decl.origin.covers (p.child 1),
    decl.name.covers (p.child 2), decl.signature.covers (p.child 3),
    (Body.covers hcode).optional _ (p.child 4)]
  constructor
  · rintro ⟨⟨_, hid⟩, ⟨_, horigin⟩, ⟨_, hname⟩, ⟨_, hsig⟩, ⟨_, hbody⟩⟩
    exact ⟨_, .mk (Json.isRecord_obj _) hid horigin hname hsig hbody⟩
  · rintro ⟨_, ⟨-, hid, horigin, hname, hsig, hbody⟩⟩
    exact ⟨⟨_, hid⟩, ⟨_, horigin⟩, ⟨_, hname⟩, ⟨_, hsig⟩, ⟨_, hbody⟩⟩

theorem GlobalDecl.covers (hcode : Covers wire writable) :
    Covers (GlobalDecl.Wire table wire) (GlobalDecl.Writable table writable) := by
  intro decl p
  rw [Writable, decl.id.covers (p.child 0), decl.origin.covers (p.child 1),
    decl.name.covers (p.child 2), ErasedTy.covers decl.ty (p.child 3),
    (Body.covers hcode).optional _ (p.child 4)]
  constructor
  · rintro ⟨⟨_, hid⟩, ⟨_, horigin⟩, ⟨_, hname⟩, ⟨_, hty⟩, ⟨_, hbody⟩⟩
    exact ⟨_, .mk (Json.isRecord_obj _) hid horigin hname hty hbody⟩
  · rintro ⟨_, ⟨-, hid, horigin, hname, hty, hbody⟩⟩
    exact ⟨⟨_, hid⟩, ⟨_, horigin⟩, ⟨_, hname⟩, ⟨_, hty⟩, ⟨_, hbody⟩⟩

end

/-! ## Groups -/

/-- A single member can be written if its number has 64 bits. A cycle must not be empty. -/
theorem Group.covers {sort : Entity} :
    Covers (Group.Wire : Group (EntityId sort) → Packing → Json → Prop) Group.Writable := by
  intro group p
  cases group with
  | single id =>
    rw [Writable, id.covers (p.child 0)]
    exact ⟨fun ⟨_, h⟩ => ⟨_, .single h⟩, fun ⟨_, .single h⟩ => ⟨_, h⟩⟩
  | cycle ids =>
    rw [Writable, EntityId.covers.listed ids (p.child 0)]
    exact ⟨fun ⟨hne, ⟨_, h⟩⟩ => ⟨_, .cycle hne h⟩, fun ⟨_, .cycle hne h⟩ => ⟨hne, ⟨_, h⟩⟩⟩

theorem DeclGroup.covers : Covers DeclGroup.Wire DeclGroup.Writable := by
  intro group p
  cases group with
  | types group =>
    rw [Writable, group.covers (p.child 0)]
    exact ⟨fun ⟨_, h⟩ => ⟨_, .types h⟩, fun ⟨_, .types h⟩ => ⟨_, h⟩⟩
  | functions group =>
    rw [Writable, group.covers (p.child 0)]
    exact ⟨fun ⟨_, h⟩ => ⟨_, .functions h⟩, fun ⟨_, .functions h⟩ => ⟨_, h⟩⟩
  | global id =>
    have hsingle := (Group.single id).covers (p.child 0)
    rw [Group.Writable] at hsingle
    rw [Writable, hsingle]
    exact ⟨fun ⟨_, h⟩ => ⟨_, .global h⟩, fun ⟨_, .global h⟩ => ⟨_, h⟩⟩

end BorrowIR
