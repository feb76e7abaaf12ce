import BorrowIR.Crate.Text
import BorrowIR.Proofs.OneFunction

/-!
# The declarations in the text of a crate

The text of a crate goes through the groups, and the declarations stand in the maps.

* `Crate.members`: the declarations that the groups name, in order, with their sorts and numbers;
* `Crate.named`: what the crate has under these numbers;
* `Crate.doc_of_decode`: the whole text of a crate that has been decoded shows just these
  declarations, none of them is missing from the crate, and the text is complete if and only if the
  groups name every declaration of the crate once.
* `Crate.not_forall_complete`: so the text may leave out a declaration.
-/

namespace BorrowIR

open Decode Outcome

/-- A declaration of any sort. -/
inductive Declaration where
  | type (decl : TypeDecl)
  | function (decl : FunDecl Statement)
  | global (decl : GlobalDecl Statement)

namespace Declaration

/-- The sort of a declaration. -/
def sort : Declaration → DeclSort
  | type _ => .type
  | function _ => .function
  | global _ => .global

/-- The number of a declaration. -/
def index : Declaration → Nat
  | type decl => decl.id.index
  | function decl => decl.id.index
  | global decl => decl.id.index

/-- What a group names a declaration by. -/
def key (decl : Declaration) : DeclSort × Nat := (decl.sort, decl.index)

/-- The full name of a declaration. -/
def name : Declaration → Name
  | type decl => decl.name
  | function decl => decl.name
  | global decl => decl.name

/-- The text of a declaration. -/
def doc (crate : Crate Statement) : Declaration → Doc
  | type decl => decl.doc crate
  | function decl => decl.doc crate
  | global decl => decl.doc crate

end Declaration

/-- The members of a group, with their sort. -/
def DeclGroup.members : DeclGroup → List (DeclSort × Nat)
  | .types group => group.ids.map fun id => (.type, id.index)
  | .functions group => group.ids.map fun id => (.function, id.index)
  | .global id => [(.global, id.index)]

namespace Crate

variable {crate : Crate Statement}

/-- What the groups name, in order. -/
def members (crate : Crate Statement) : List (DeclSort × Nat) :=
  crate.groups.flatMap DeclGroup.members

/-- All declarations of a crate. -/
def declarations (crate : Crate Statement) : List Declaration :=
  crate.types.values.map .type ++ crate.functions.values.map .function ++
    crate.globals.values.map .global

/-- The declaration of a sort with a number. -/
def declaration? (crate : Crate Statement) : DeclSort × Nat → Option Declaration
  | (.type, n) => (crate.types.find? ⟨n⟩).map .type
  | (.function, n) => (crate.functions.find? ⟨n⟩).map .function
  | (.global, n) => (crate.globals.find? ⟨n⟩).map .global

@[simp] theorem declaration?_type (id : TypeDeclId) :
    crate.declaration? (.type, id.index) = (crate.types.find? id).map .type := rfl

@[simp] theorem declaration?_function (id : FunDeclId) :
    crate.declaration? (.function, id.index) = (crate.functions.find? id).map .function := rfl

@[simp] theorem declaration?_global (id : GlobalDeclId) :
    crate.declaration? (.global, id.index) = (crate.globals.find? id).map .global := rfl

/-- The declarations that the groups name, in order. -/
def named (crate : Crate Statement) : List Declaration :=
  crate.members.filterMap crate.declaration?

/-- The head of the text of a crate, and some declarations with an empty line between each two. -/
def docOf (crate : Crate Statement) (decls : List Declaration) : Doc :=
  .text ("// crate " ++ crate.name) ++ .line ++ .line ++
    Doc.separate (.line ++ .line) (decls.map (Declaration.doc crate))

/-! ## What is printed -/

/-- A group is printed declaration by declaration, without the members that are not declared. -/
theorem groupDocs_eq (group : DeclGroup) :
    crate.groupDocs group =
      (group.members.filterMap crate.declaration?).map (Declaration.doc crate) := by
  cases group with
  | types group =>
    simp [groupDocs, DeclGroup.members, List.filterMap_map, List.map_filterMap, Function.comp_def,
      Declaration.doc]
  | functions group =>
    simp [groupDocs, DeclGroup.members, List.filterMap_map, List.map_filterMap, Function.comp_def,
      Declaration.doc]
  | global id =>
    rw [groupDocs, DeclGroup.members, List.filterMap_cons, List.filterMap_nil, declaration?_global]
    cases crate.globals.find? id <;> rfl

/-- The whole text shows what the groups name. -/
theorem doc_eq_docOf_named : crate.doc = crate.docOf crate.named := by
  have hdocs : crate.groups.flatMap crate.groupDocs =
      crate.named.map (Declaration.doc crate) := by
    rw [named, members, List.filterMap_flatMap, List.map_flatMap]
    exact List.flatMap_congr fun group _ => groupDocs_eq group
  rw [doc, docOf, hdocs]

/-! ## What is there -/

/-- **An index of declarations.** Each declaration stands under its own number, and the crate has
the members of all groups. -/
structure Indexed (crate : Crate Statement) : Prop where
  types : crate.types.Keyed TypeDecl.id
  functions : crate.functions.Keyed FunDecl.id
  globals : crate.globals.Keyed GlobalDecl.id
  groups : ∀ group ∈ crate.groups, crate.missing? group = none

/-- A decoded crate has its declarations under their own identifiers. -/
theorem indexed_of_decode {v : Json} (h : (Crate.decode v).Yields crate) : crate.Indexed := by
  obtain ⟨listing, -, hcoherent, hholds⟩ := decodeWith_yields.1 h
  refine ⟨IdMap.keyed_of_perm hholds.types, IdMap.keyed_of_perm hholds.functions,
    IdMap.keyed_of_perm hholds.globals, ?_⟩
  intro group hgroup
  rw [hholds.groups] at hgroup
  exact (missing?_eq_none hholds group).2 (hcoherent.groups group hgroup)

namespace Indexed

/-- A declaration is found under its sort and its number, and nothing else is found there. -/
theorem declaration?_eq_some (h : crate.Indexed) {key : DeclSort × Nat} {decl : Declaration} :
    crate.declaration? key = some decl ↔ decl ∈ crate.declarations ∧ decl.key = key := by
  have hid : ∀ {sort : Entity} {id : EntityId sort} {n : Nat}, id = ⟨n⟩ ↔ id.index = n := by
    rintro sort ⟨m⟩ n
    exact EntityId.mk.injEq m n ▸ Iff.rfl
  obtain ⟨sort, n⟩ := key
  -- under a sort there are only the declarations of this sort, whatever their numbers are
  cases sort with
  | type =>
    cases decl <;> simp [declaration?, declarations, Declaration.key, Declaration.sort,
      Declaration.index, h.types.find?_eq_some_iff, hid]
  | function =>
    cases decl <;> simp [declaration?, declarations, Declaration.key, Declaration.sort,
      Declaration.index, h.functions.find?_eq_some_iff, hid]
  | global =>
    cases decl <;> simp [declaration?, declarations, Declaration.key, Declaration.sort,
      Declaration.index, h.globals.find?_eq_some_iff, hid]

/-- The crate has what the groups name. -/
theorem exists_declaration (h : crate.Indexed) {key : DeclSort × Nat} (hkey : key ∈ crate.members) :
    ∃ decl, crate.declaration? key = some decl := by
  obtain ⟨group, hgroup, hkey⟩ := List.mem_flatMap.1 hkey
  have hnone := h.groups group hgroup
  -- the check for missing members has found none in this group
  cases group with
  | types group =>
    obtain ⟨id, hid, rfl⟩ := List.mem_map.1 hkey
    rw [missing?, Option.map_eq_none_iff, List.find?_eq_none] at hnone
    have hcontains : crate.types.contains id = true := by simpa using hnone id hid
    obtain ⟨decl, hdecl⟩ := Option.isSome_iff_exists.1 hcontains
    exact ⟨.type decl, by rw [declaration?_type, hdecl, Option.map_some]⟩
  | functions group =>
    obtain ⟨id, hid, rfl⟩ := List.mem_map.1 hkey
    rw [missing?, Option.map_eq_none_iff, List.find?_eq_none] at hnone
    have hcontains : crate.functions.contains id = true := by simpa using hnone id hid
    obtain ⟨decl, hdecl⟩ := Option.isSome_iff_exists.1 hcontains
    exact ⟨.function decl, by rw [declaration?_function, hdecl, Option.map_some]⟩
  | global id =>
    obtain rfl := List.mem_singleton.1 hkey
    have hcontains : crate.globals.contains id = true := by simpa [missing?] using hnone
    obtain ⟨decl, hdecl⟩ := Option.isSome_iff_exists.1 hcontains
    exact ⟨.global decl, by rw [declaration?_global, hdecl, Option.map_some]⟩

/-- The declarations that can be named are those that the groups name. -/
theorem mem_named (h : crate.Indexed) {decl : Declaration} :
    decl ∈ crate.named ↔ decl ∈ crate.declarations ∧ decl.key ∈ crate.members := by
  rw [named, List.mem_filterMap]
  constructor
  · rintro ⟨key, hkey, hdecl⟩
    obtain ⟨hmem, rfl⟩ := h.declaration?_eq_some.1 hdecl
    exact ⟨hmem, hkey⟩
  · rintro ⟨hmem, hkey⟩
    exact ⟨_, hkey, h.declaration?_eq_some.2 ⟨hmem, rfl⟩⟩

/-- Nothing that is named is left out. -/
theorem map_key_named (h : crate.Indexed) : crate.named.map Declaration.key = crate.members := by
  -- the members are generalised, as the induction needs only that all of them are declared
  have hall : ∀ keys : List (DeclSort × Nat), (∀ key ∈ keys, key ∈ crate.members) →
      (keys.filterMap crate.declaration?).map Declaration.key = keys := by
    intro keys hkeys
    induction keys with
    | nil => rfl
    | cons key keys ih =>
      obtain ⟨hkey, hkeys⟩ := List.forall_mem_cons.1 hkeys
      obtain ⟨decl, hdecl⟩ := h.exists_declaration hkey
      rw [List.filterMap_cons_some hdecl, List.map_cons, ih hkeys,
        (h.declaration?_eq_some.1 hdecl).2]
  exact hall crate.members fun _ hkey => hkey

theorem map_key_declarations (h : crate.Indexed) :
    crate.declarations.map Declaration.key =
      crate.types.keys.map (fun id => (.type, id.index)) ++
        crate.functions.keys.map (fun id => (.function, id.index)) ++
        crate.globals.keys.map fun id => (.global, id.index) := by
  rw [← h.types.map_id_values, ← h.functions.map_id_values, ← h.globals.map_id_values]
  simp only [declarations, List.map_append, List.map_map]
  rfl

/-- Declarations of a crate have different sorts or numbers. -/
theorem nodup_keys (h : crate.Indexed) : (crate.declarations.map Declaration.key).Nodup := by
  have hpart : ∀ {sort : Entity} (declSort : DeclSort) {ids : List (EntityId sort)}, ids.Nodup →
      (ids.map fun id => (declSort, id.index)).Nodup := by
    intro sort declSort ids hids
    refine hids.map ?_
    rintro ⟨m⟩ ⟨n⟩ heq
    cases heq
    rfl
  rw [h.map_key_declarations]
  -- maps have distinct identifiers, and the sorts keep the three maps apart
  refine List.nodup_append.2 ⟨List.nodup_append.2 ⟨?_, ?_, ?_⟩, ?_, ?_⟩
  · exact hpart .type crate.types.nodup_keys
  · exact hpart .function crate.functions.nodup_keys
  · simp
  · exact hpart .global crate.globals.nodup_keys
  · simp [or_imp, forall_and]

/-- The groups name all declarations if they name each of them, and none of them twice. -/
theorem named_perm_iff (h : crate.Indexed) :
    crate.named.Perm crate.declarations ↔
      crate.members.Nodup ∧ ∀ decl ∈ crate.declarations, decl.key ∈ crate.members := by
  constructor
  · intro hperm
    have hkeys : crate.members.Perm (crate.declarations.map Declaration.key) := by
      rw [← h.map_key_named]
      exact hperm.map Declaration.key
    refine ⟨hkeys.nodup_iff.2 h.nodup_keys, fun decl hdecl => ?_⟩
    exact hkeys.mem_iff.2 (List.mem_map_of_mem hdecl)
  · rintro ⟨hnodup, hall⟩
    -- two lists without repetitions that have the same members are rearrangements
    rw [← h.map_key_named] at hnodup
    refine (List.perm_ext_iff_of_nodup hnodup.of_map h.nodup_keys.of_map).2 fun decl => ?_
    rw [h.mem_named]
    exact and_iff_left_of_imp (hall decl)

end Indexed

/-- **The whole text.** The text of a crate that has been decoded shows the declarations that its
groups name, in their order and as often as they are named. They are all there. The text is
complete, with each declaration of the crate in it once, if and only if the groups name each of
them, and none of them twice. -/
theorem doc_of_decode {v : Json} (h : (Crate.decode v).Yields crate) :
    ∃ decls : List Declaration, crate.doc = crate.docOf decls ∧
      decls.map Declaration.key = crate.members ∧ (∀ decl ∈ decls, decl ∈ crate.declarations) ∧
      (decls.Perm crate.declarations ↔
        crate.members.Nodup ∧ ∀ decl ∈ crate.declarations, decl.key ∈ crate.members) := by
  have hindexed := indexed_of_decode h
  refine ⟨crate.named, doc_eq_docOf_named, hindexed.map_key_named, fun decl hdecl => ?_,
    hindexed.named_perm_iff⟩
  exact (hindexed.mem_named.1 hdecl).1

end Crate

/-! ## Crates with types from elsewhere -/

namespace Json

/-- A type whose definition is not in the crate, with a name of one segment. -/
def externalType (number name : String) (origin : Json) : Json :=
  .obj [("def_id", .num number), ("kind", .str "Opaque"), ("meta", origin),
    ("name", .arr [.tagged "Ident" (.str name)]), ("region_params", .arr []),
    ("regions_hierarchy", .arr []), ("type_params", .arr [])]

/-- A crate with these types only. -/
def typesOnly (files : Json) (groups types : List Json) : Json :=
  .obj [("declarations", .arr groups), ("functions", .arr []), ("globals", .arr []),
    ("id_to_file", files), ("name", .str "krate"), ("types", .arr types)]

/-- A crate with a type `a` and a type `b`. -/
def twoTypes (groups : List Json) : Json :=
  typesOnly oneFile groups
    [externalType "0" "a" (topOrigin .null), externalType "1" "b" (topOrigin .null)]

/-- A group with one type. -/
def typeGroup (number : String) : Json := .tagged "Type" (.tagged "NonRec" (.num number))

end Json

/-- A type from elsewhere, at the top of the file. -/
def TypeDecl.external (number : Nat) (name : String) : TypeDecl :=
  ⟨⟨number⟩, ⟨.top, none⟩, ⟨[.ident name]⟩, [], [], [], .external⟩

/-- The crate with a type `a` and a type `b`. -/
def Crate.twoTypes (groups : List DeclGroup) : Crate Statement :=
  ⟨"krate", groups, (IdMap.empty.insert ⟨0⟩ (.external 0 "a")).insert ⟨1⟩ (.external 1 "b"), .empty,
    .empty⟩

/-- The text of a crate with two types in which one of them is named twice. -/
theorem Crate.doc_of_decode_twoTypes :
    ∃ crate, (Crate.decode (.twoTypes [.typeGroup "1", .typeGroup "1"])).Yields crate ∧
      ∃ decls : List Declaration, crate.doc = crate.docOf decls ∧
        decls.map Declaration.key = [(.type, 1), (.type, 1)] ∧
        ¬ decls.Perm crate.declarations := by
  have hdecode : (Crate.decode (.twoTypes [.typeGroup "1", .typeGroup "1"])).Yields
      (.twoTypes [.types (.single ⟨1⟩), .types (.single ⟨1⟩)]) := by
    unfold Yields
    cbv
  obtain ⟨decls, hdoc, hkeys, -, hperm⟩ := Crate.doc_of_decode hdecode
  refine ⟨_, hdecode, decls, hdoc, hkeys, fun h => ?_⟩
  exact absurd (hperm.1 h).1 (by decide)

/-- **The text may leave out a declaration.** A crate has a type, and no group names it. -/
theorem Crate.not_forall_complete :
    ¬ ∀ (v : Json) (crate : Crate Statement), (Crate.decode v).Yields crate →
      ∃ decls : List Declaration,
        decls.Perm crate.declarations ∧ crate.doc = crate.docOf decls := by
  intro hall
  have hdecode : (Crate.decode
      (.typesOnly .oneFile [] [.externalType "0" "a" (.topOrigin .null)])).Yields
      ⟨"krate", [], IdMap.empty.insert ⟨0⟩ (.external 0 "a"), .empty, .empty⟩ := by
    unfold Yields
    cbv
  obtain ⟨decls, hperm, hdoc⟩ := hall _ _ hdecode
  obtain rfl : decls = [.type (.external 0 "a")] := List.perm_singleton.1 hperm
  -- behind the head there is nothing, where the type should be
  have htext : "" = "opaque type " ++ _ := Doc.text.inj (Doc.append.inj hdoc).2
  exact absurd (String.append_eq_empty_iff.1 htext.symm).1 (by decide)

end BorrowIR
