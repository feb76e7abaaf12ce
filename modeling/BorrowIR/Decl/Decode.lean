import BorrowIR.Source.Decode
import BorrowIR.Ty.Decode

/-!
# Decoding declarations

The grammar of statements is not known here: whoever decodes a function or a global brings a
`BodyReader` for the code of the bodies, and only the variables around the code are decoded here.

* `Body.checkLocals`: a body has a variable for its result and one for each argument.
-/

namespace BorrowIR

open Decode Outcome

/-- A decoder for the code of bodies, given the files of the crate. -/
abbrev BodyReader (B : Type) := FileTable → Json → Outcome B

/-- Keeps the code of a body as it is in the document. -/
def BodyReader.verbatim : BodyReader Json := fun _ v => pure v

/-- A region parameter. -/
def RegionVar.decode (v : Json) : Outcome RegionVar :=
  within "region_var" do
    let (id, name) ← record ["index", "name"] v
    return { id := ← entityId id, name := ← optional string name }

/-- A type parameter. -/
def TypeVar.decode (v : Json) : Outcome TypeVar :=
  within "type_var" do
    let (id, name) ← record ["index", "name"] v
    return { id := ← entityId id, name := ← string name }

/-- A group of region parameters. -/
def RegionGroup.decode (v : Json) : Outcome RegionGroup :=
  within "region_group" do
    let (id, regions, parents) ← record ["id", "regions", "parents"] v
    return {
      id := ← entityId id
      regions := ← list entityId regions
      parents := ← list entityId parents }

/-- A field. -/
def Field.decode (table : FileTable) (v : Json) : Outcome Field :=
  within "field" do
    let (origin, name, ty) ← record ["meta", "name", "ty"] v
    return {
      origin := ← Provenance.decode table origin
      name := ← optional string name
      ty := ← SigTy.decode ty }

/-- A variant of an enumeration. -/
def Variant.decode (table : FileTable) (v : Json) : Outcome Variant :=
  within "variant" do
    let (origin, name, fields) ← record ["meta", "name", "fields"] v
    return {
      origin := ← Provenance.decode table origin
      name := ← string name
      fields := ← list (Field.decode table) fields }

/-- What a type declaration declares. -/
def TypeDeclKind.decode (table : FileTable) (v : Json) : Outcome TypeDeclKind :=
  within "type_decl_kind" do
    match ← variant v with
    | ⟨"Struct", some payload⟩ => .struct <$> wrapped (list (Field.decode table)) payload
    | ⟨"Enum", some payload⟩ => .enum <$> wrapped (list (Variant.decode table)) payload
    | ⟨"Opaque", none⟩ => return .external
    | ⟨tag, _⟩ => fail (.unknownVariant "TypeDeclKind" tag)

/-- A type declaration. -/
def TypeDecl.decode (table : FileTable) (v : Json) : Outcome TypeDecl :=
  within "type_decl" do
    let (id, origin, name, regions, types, hierarchy, kind) ←
      record ["def_id", "meta", "name", "region_params", "type_params", "regions_hierarchy",
        "kind"] v
    let decl : TypeDecl := {
      id := ← entityId id
      origin := ← Provenance.decode table origin
      name := ← Name.decode name
      regions := ← list RegionVar.decode regions
      types := ← list TypeVar.decode types
      hierarchy := ← list RegionGroup.decode hierarchy
      kind := ← TypeDeclKind.decode table kind }
    report (.typeDecl decl.id decl.name)
    return decl

/-- A signature. -/
def Signature.decode (v : Json) : Outcome Signature :=
  within "signature" do
    let (regions, earlyBound, hierarchy, types, inputs, output) ←
      record ["region_params", "num_early_bound_regions", "regions_hierarchy", "type_params",
        "inputs", "output"] v
    return {
      regions := ← list RegionVar.decode regions
      earlyBound := ← natural earlyBound
      hierarchy := ← list RegionGroup.decode hierarchy
      types := ← list TypeVar.decode types
      inputs := ← list SigTy.decode inputs
      output := ← SigTy.decode output }

/-- A local variable. -/
def Var.decode (v : Json) : Outcome Var :=
  within "var" do
    let (id, name, ty) ← record ["index", "name", "ty"] v
    return {
      id := ← entityId id
      name := ← optional string name
      ty := ← ErasedTy.decode ty }

/-- Checks that there are variables for the result and for `args` arguments. -/
def Body.checkLocals (args locals : Nat) : Outcome Unit :=
  if args < locals then pure () else fail (.violation (.missingLocals args locals))

/-- A body; its variables are decoded and counted before its code. -/
def Body.decode {B : Type} (code : BodyReader B) (table : FileTable) (v : Json) :
    Outcome (Body B) :=
  within "body" do
    let (origin, argCount, locals, content) ← record ["meta", "arg_count", "locals", "body"] v
    let origin ← Provenance.decode table origin
    let argCount ← natural argCount
    let locals ← list Var.decode locals
    checkLocals argCount locals.length
    return { origin, argCount, locals, code := ← code table content }

/-- A function declaration. -/
def FunDecl.decode {B : Type} (code : BodyReader B) (table : FileTable) (v : Json) :
    Outcome (FunDecl B) :=
  within "fun_decl" do
    let (id, origin, name, signature, body) ←
      record ["def_id", "meta", "name", "signature", "body"] v
    let decl : FunDecl B := {
      id := ← entityId id
      origin := ← Provenance.decode table origin
      name := ← Name.decode name
      signature := ← Signature.decode signature
      body := ← optional (Body.decode code table) body }
    report (.funDecl decl.id decl.name)
    return decl

/-- A global declaration. -/
def GlobalDecl.decode {B : Type} (code : BodyReader B) (table : FileTable) (v : Json) :
    Outcome (GlobalDecl B) :=
  within "global_decl" do
    let (id, origin, name, ty, body) ← record ["def_id", "meta", "name", "ty", "body"] v
    let decl : GlobalDecl B := {
      id := ← entityId id
      origin := ← Provenance.decode table origin
      name := ← Name.decode name
      ty := ← ErasedTy.decode ty
      body := ← optional (Body.decode code table) body }
    report (.globalDecl decl.id decl.name)
    return decl

/-- The members of a group of types or functions. -/
def Group.decode {sort : Entity} (v : Json) : Outcome (Group (EntityId sort)) := do
  match ← variant v with
  | ⟨"NonRec", some payload⟩ => .single <$> wrapped entityId payload
  | ⟨"Rec", some payload⟩ =>
    let ids ← wrapped (list entityId) payload
    if ids.isEmpty then fail (.violation .emptyCycle) else return .cycle ids
  | ⟨tag, _⟩ => fail (.unknownVariant "declaration group" tag)

/-- The one member of a group of globals. -/
def DeclGroup.decodeGlobal (v : Json) : Outcome GlobalDeclId := do
  match ← variant v with
  | ⟨"NonRec", some payload⟩ => wrapped entityId payload
  | ⟨"Rec", some _⟩ => mismatch .singleGlobal v
  | ⟨tag, _⟩ => fail (.unknownVariant "declaration group" tag)

/-- A group of declarations. -/
def DeclGroup.decode (v : Json) : Outcome DeclGroup :=
  within "declaration_group" do
    match ← variant v with
    | ⟨"Type", some payload⟩ => .types <$> wrapped Group.decode payload
    | ⟨"Fun", some payload⟩ => .functions <$> wrapped Group.decode payload
    | ⟨"Global", some payload⟩ => .global <$> wrapped decodeGlobal payload
    | ⟨tag, _⟩ => fail (.unknownVariant "DeclarationGroup" tag)

end BorrowIR
