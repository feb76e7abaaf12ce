import BorrowIR.Proofs.CrateMaps

/-!
# What crates are decoded from

A document lists declarations, a crate holds them by their identifiers.

* `Json.ListsFiles`: the files that a document lists;
* `Listing.ReadFrom`: what the six fields of a document list;
* `Listing.Coherent`: no identifier is declared twice, and the groups name declarations;
* `Crate.Holds`: a crate with the declarations of a listing, each under its own identifier.
* `Crate.decodeWith_iff_listing`: the documents that are accepted are those of coherent listings,
  and the crate is the one that holds the listing.
-/

namespace BorrowIR

open Decode Outcome

/-- The files that a document lists. -/
def Json.ListsFiles (v : Json) (table : FileTable) : Prop :=
  ∃ files, v.field? "id_to_file" = some files ∧ (FileTable.decode files).Yields table

/-- A document lists its files in one way. -/
theorem Json.ListsFiles.unique {v : Json} {table table' : FileTable} (h : v.ListsFiles table)
    (h' : v.ListsFiles table') : table = table' := by
  obtain ⟨files, hfiles, htable⟩ := h
  obtain ⟨files', hfiles', htable'⟩ := h'
  rw [hfiles, Option.some.injEq] at hfiles'
  subst hfiles'
  exact htable.unique htable'

variable {B : Type}

/-- The declarations of a crate in the order of a document, and its files. -/
structure Listing (B : Type) where
  name : String
  table : FileTable
  groups : List DeclGroup
  types : List TypeDecl
  functions : List (FunDecl B)
  globals : List (GlobalDecl B)

namespace Listing

/-- **What a document lists.** The document is an object with six fields. The elements of each list
are decoded in their order, with the files that the document lists. -/
def ReadFrom (code : BodyReader B) (v : Json) (listing : Listing B) : Prop :=
  ∃ (files : Json) (groups types functions globals : List Json),
    v.IsRecord [("name", .str listing.name), ("id_to_file", files), ("declarations", .arr groups),
      ("types", .arr types), ("functions", .arr functions), ("globals", .arr globals)] ∧
    (FileTable.decode files).Yields listing.table ∧
    List.Forall₂ (fun v group => (DeclGroup.decode v).Yields group) groups listing.groups ∧
    List.Forall₂ (fun v decl => (TypeDecl.decode listing.table v).Yields decl)
      types listing.types ∧
    List.Forall₂ (fun v decl => (FunDecl.decode code listing.table v).Yields decl)
      functions listing.functions ∧
    List.Forall₂ (fun v decl => (GlobalDecl.decode code listing.table v).Yields decl)
      globals listing.globals

/-- The table of a listing is the one that the document lists. -/
theorem ReadFrom.listsFiles {code : BodyReader B} {v : Json} {listing : Listing B}
    (h : listing.ReadFrom code v) : v.ListsFiles listing.table := by
  obtain ⟨files, groups, types, functions, globals, hv, htable, -⟩ := h
  exact ⟨files, hv.field?_eq (by simp) (by simp), htable⟩

/-- The members of a group are declared, as what the group takes them for. -/
def Declares (listing : Listing B) : DeclGroup → Prop
  | .types group => ∀ id ∈ group.ids, ∃ decl ∈ listing.types, decl.id = id
  | .functions group => ∀ id ∈ group.ids, ∃ decl ∈ listing.functions, decl.id = id
  | .global id => ∃ decl ∈ listing.globals, decl.id = id

/-- The rules of a listing. -/
structure Coherent (listing : Listing B) : Prop where
  types : (listing.types.map TypeDecl.id).Nodup
  functions : (listing.functions.map FunDecl.id).Nodup
  globals : (listing.globals.map GlobalDecl.id).Nodup
  groups : ∀ group ∈ listing.groups, listing.Declares group

end Listing

namespace Crate

/-- **The crate of a listing.** Its maps have one entry for each declaration, under the identifier
of the declaration, and no others. -/
structure Holds (crate : Crate B) (listing : Listing B) : Prop where
  name : crate.name = listing.name
  groups : crate.groups = listing.groups
  types : crate.types.entries.Perm (listing.types.map fun decl => (decl.id, decl))
  functions : crate.functions.entries.Perm (listing.functions.map fun decl => (decl.id, decl))
  globals : crate.globals.entries.Perm (listing.globals.map fun decl => (decl.id, decl))

/-- Nothing is missing from a group if the maps have all its members. -/
theorem missing?_eq_none {crate : Crate B} {listing : Listing B} (h : crate.Holds listing)
    (group : DeclGroup) : crate.missing? group = none ↔ listing.Declares group := by
  cases group with
  | types group =>
    simp [missing?, Listing.Declares, IdMap.contains_iff, IdMap.mem_keys_of_perm h.types]
  | functions group =>
    simp [missing?, Listing.Declares, IdMap.contains_iff, IdMap.mem_keys_of_perm h.functions]
  | global id =>
    rw [Listing.Declares, ← IdMap.mem_keys_of_perm h.globals, ← IdMap.contains_iff]
    simp [missing?]

/-- The check of the groups succeeds where all of their members are declared. -/
theorem checkGroups_yields {crate : Crate B} {listing : Listing B} (h : crate.Holds listing)
    {u : Unit} :
    crate.checkGroups.Yields u ↔ ∀ group ∈ listing.groups, listing.Declares group := by
  have hfind : crate.groups.findSome? crate.missing? = none ↔
      ∀ group ∈ listing.groups, listing.Declares group := by
    simp only [List.findSome?_eq_none_iff, missing?_eq_none h, h.groups]
  rw [← hfind]
  unfold checkGroups
  split
  · rename_i hsome
    simp [hsome, yields_fail]
  · rename_i hnone
    simp [hnone]

/-- The crate of a coherent listing. -/
theorem exists_holds {listing : Listing B} (h : listing.Coherent) :
    ∃ crate : Crate B, crate.Holds listing := by
  obtain ⟨types, htypes⟩ := IdMap.exists_of_nodup h.types
  obtain ⟨functions, hfunctions⟩ := IdMap.exists_of_nodup h.functions
  obtain ⟨globals, hglobals⟩ := IdMap.exists_of_nodup h.globals
  exact ⟨⟨listing.name, listing.groups, types, functions, globals⟩,
    rfl, rfl, htypes, hfunctions, hglobals⟩

/-- A document is read as a crate if it lists what the crate holds, by the rules. -/
theorem decodeWith_yields {code : BodyReader B} {v : Json} {crate : Crate B} :
    (decodeWith code v).Yields crate ↔
      ∃ listing : Listing B, listing.ReadFrom code v ∧ listing.Coherent ∧ crate.Holds listing := by
  have hkeys : ["name", "id_to_file", "declarations", "types", "functions", "globals"].Nodup := by
    decide
  constructor
  -- the lists are read from the document, and each check of the decoder is a rule of them
  · intro h
    unfold decodeWith at h
    simp only [yields_bind, yields_within, yields_report, record_yields hkeys] at h
    obtain ⟨-, -, ⟨⟨n, _⟩, ⟨files, _⟩, ⟨gs, _⟩, ⟨ts, _⟩, ⟨fs, _⟩, ⟨ls, _⟩⟩, hv, h⟩ := h
    change v.IsRecord [("name", n), ("id_to_file", files), ("declarations", gs), ("types", ts),
      ("functions", fs), ("globals", ls)] at hv
    simp only [yields_bind, yields_report, yields_pure, string_yields, list_yields,
      IdMap.index_yields] at h
    obtain ⟨table, htable, name, rfl, groups, ⟨gs, rfl, hgroups⟩, types, ⟨ts, rfl, htypes⟩,
      functions, ⟨fs, rfl, hfunctions⟩, globals, ⟨ls, rfl, hglobals⟩, typeMap,
      ⟨htnodup, htperm⟩, funMap, ⟨hfnodup, hfperm⟩, globalMap, ⟨hgnodup, hgperm⟩, u, hcheck,
      -, -, rfl⟩ := h
    have hholds : Holds ⟨name, groups, typeMap, funMap, globalMap⟩
        ⟨name, table, groups, types, functions, globals⟩ :=
      ⟨rfl, rfl, htperm, hfperm, hgperm⟩
    refine ⟨⟨name, table, groups, types, functions, globals⟩, ?_, ?_, hholds⟩
    · exact ⟨files, gs, ts, fs, ls, hv, htable, hgroups, htypes, hfunctions, hglobals⟩
    · exact ⟨htnodup, hfnodup, hgnodup, (checkGroups_yields hholds).1 hcheck⟩
  · rintro ⟨listing, ⟨files, gs, ts, fs, ls, hv, htable, hgroups, htypes, hfunctions, hglobals⟩,
      hcoherent, hholds⟩
    -- the maps of the crate are those that indexing gives, as they have the same entries
    have hcheck : crate.checkGroups.Yields () := (checkGroups_yields hholds).2 hcoherent.groups
    obtain ⟨name, groups, typeMap, funMap, globalMap⟩ := crate
    obtain rfl : name = listing.name := hholds.name
    obtain rfl : groups = listing.groups := hholds.groups
    unfold decodeWith
    simp only [yields_bind, yields_within, yields_report, record_yields hkeys]
    refine ⟨(), trivial, (⟨_, hv.sizeOf_lt (by simp)⟩, ⟨files, hv.sizeOf_lt (by simp)⟩,
      ⟨_, hv.sizeOf_lt (by simp)⟩, ⟨_, hv.sizeOf_lt (by simp)⟩, ⟨_, hv.sizeOf_lt (by simp)⟩,
      ⟨_, hv.sizeOf_lt (by simp)⟩), hv, ?_⟩
    simp only [yields_bind, yields_report, yields_pure, string_yields, list_yields,
      IdMap.index_yields]
    exact ⟨_, htable, _, rfl, _, ⟨_, rfl, hgroups⟩, _, ⟨_, rfl, htypes⟩, _, ⟨_, rfl, hfunctions⟩,
      _, ⟨_, rfl, hglobals⟩, _, ⟨hcoherent.types, hholds.types⟩, _,
      ⟨hcoherent.functions, hholds.functions⟩, _, ⟨hcoherent.globals, hholds.globals⟩, (), hcheck,
      (), trivial, rfl⟩

/-- **Decoding crates.** For every reader of bodies, the documents that are accepted are those that
list declarations by the rules, and the crate that comes out holds just these declarations. -/
theorem decodeWith_iff_listing (code : BodyReader B) (v : Json) :
    ((∃ crate, (decodeWith code v).Yields crate) ↔
        ∃ listing : Listing B, listing.ReadFrom code v ∧ listing.Coherent) ∧
      ∀ crate, (decodeWith code v).Yields crate ↔
        ∃ listing : Listing B, listing.ReadFrom code v ∧ listing.Coherent ∧
          crate.Holds listing := by
  constructor
  · constructor
    · rintro ⟨crate, h⟩
      obtain ⟨listing, hread, hcoherent, -⟩ := decodeWith_yields.1 h
      exact ⟨listing, hread, hcoherent⟩
    · rintro ⟨listing, hread, hcoherent⟩
      obtain ⟨crate, hholds⟩ := exists_holds hcoherent
      exact ⟨crate, decodeWith_yields.2 ⟨listing, hread, hcoherent, hholds⟩⟩
  · intro crate
    exact decodeWith_yields

end Crate

end BorrowIR
