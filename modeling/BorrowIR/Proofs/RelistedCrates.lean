import BorrowIR.Proofs.NamedDeclarations
import BorrowIR.Proofs.RenamedRuns

/-!
# Documents that list the same crate

A document is changed: its files get other identifiers, in the list and in all spans, files are
added to the list, and the lists of files and declarations are put in another order.

* `Json.Relists`: a document that is another one changed in this way;
* `FileTable.exists_relisted`: the files that it lists;
* `Crate.decode_relisted`: it is decoded to the same crate, if the added files have identifiers that
  are not listed, and are added once; otherwise it is refused.
* `Crate.not_forall_decode_relisted`: so it may be refused although no span uses an added file.
-/

namespace BorrowIR

open Decode Outcome

/-- The elements of the second list are related to those of the first one, in some order. -/
def Rearranges (R : Json → Json → Prop) (vs vs' : List Json) : Prop :=
  ∃ ws, List.Forall₂ R vs ws ∧ ws.Perm vs'

/-- The entries of a list of files have the same files, under the identifiers that `ρ` gives. -/
def FileTable.RenamesEntry (ρ : FileId → FileId) (v v' : Json) : Prop :=
  ∃ (file file' name : Json) (id : FileId), v = .arr [file, name] ∧ v' = .arr [file', name] ∧
    (FileId.decode file).Yields id ∧ (FileId.decode file').Yields (ρ id)

/-- **Relisted documents.** The second document has the name and the groups of the first one, the
same files under the identifiers that `ρ` gives and the added ones, and the same declarations, in
which the files of spans are renamed. Files and declarations may be listed in any order. -/
def Json.Relists (ρ : FileId → FileId) (added : List (FileId × FileName)) (d d' : Json) : Prop :=
  ∃ (name groups : Json) (files files' types types' functions functions' globals globals'
      renamed more : List Json),
    d.IsRecord [("name", name), ("id_to_file", .arr files), ("declarations", groups),
      ("types", .arr types), ("functions", .arr functions), ("globals", .arr globals)] ∧
    d'.IsRecord [("name", name), ("id_to_file", .arr files'), ("declarations", groups),
      ("types", .arr types'), ("functions", .arr functions'), ("globals", .arr globals')] ∧
    List.Forall₂ (FileTable.RenamesEntry ρ) files renamed ∧
    List.Forall₂ FileTable.ReadsEntry more added ∧ (renamed ++ more).Perm files' ∧
    Rearranges (Json.Renamed ρ) types types' ∧ Rearranges (Json.Renamed ρ) functions functions' ∧
    Rearranges (Json.Renamed ρ) globals globals'

/-! ## Files -/

namespace FileTable

variable {ρ : FileId → FileId} {table table' : FileTable}

/-- The entries of a table under renamed identifiers. -/
def renamedEntries (ρ : FileId → FileId) (table : FileTable) : List (FileId × FileName) :=
  table.entries.map fun entry => (ρ entry.1, entry.2)

/-- An entry of the file table is read in one way. -/
theorem readsEntry_rightUnique : Relator.RightUnique ReadsEntry := by
  rintro v ⟨id, name⟩ ⟨id', name'⟩ ⟨i, n, rfl, hid, hname⟩ ⟨i', n', heq, hid', hname'⟩
  cases heq
  exact Prod.ext (hid.unique hid') (hname.unique hname')

theorem reads_renamedEntry {v v' : Json} {entry : FileId × FileName} (h : RenamesEntry ρ v v')
    (hentry : ReadsEntry v entry) : ReadsEntry v' (ρ entry.1, entry.2) := by
  obtain ⟨file, file', name, id, rfl, rfl, hid, hid'⟩ := h
  obtain ⟨file, name, heq, hentryId, hname⟩ := hentry
  cases heq
  rw [hentryId.unique hid]
  exact ⟨file', name, rfl, hid', hname⟩

/-- **The files of a relisted document.** Whatever table is decoded from the list has the renamed
and the added entries, and one is decoded if their identifiers are distinct. -/
theorem exists_relisted {files files' renamed more : List Json} {added : List (FileId × FileName)}
    (hfiles : (FileTable.decode (.arr files)).Yields table)
    (hrenamed : List.Forall₂ (RenamesEntry ρ) files renamed)
    (hmore : List.Forall₂ ReadsEntry more added) (hperm : (renamed ++ more).Perm files') :
    ∃ entries, entries.Perm (table.renamedEntries ρ ++ added) ∧
      ∀ table', (FileTable.decode (.arr files')).Yields table' ↔ table'.entries = entries := by
  obtain ⟨vs, heq, hvs⟩ := decode_iff.1 hfiles
  cases heq
  have hentries : List.Forall₂ ReadsEntry renamed (table.renamedEntries ρ) := by
    rw [renamedEntries, List.forall₂_map_right_iff]
    exact forall₂_of_related hrenamed hvs fun _ _ _ _ => reads_renamedEntry
  -- all entries are read in the old order first, and then put in the new one
  have hall := List.rel_append hentries hmore
  obtain ⟨entries, hentries', hperm'⟩ := List.perm_comp_forall₂ hperm.symm hall
  refine ⟨entries, hperm', fun table' => ?_⟩
  rw [decode_iff]
  constructor
  · rintro ⟨vs, heq, hvs⟩
    cases heq
    exact List.right_unique_forall₂' readsEntry_rightUnique hvs hentries'
  · rintro rfl
    exact ⟨files', rfl, hentries'⟩

/-- The identifiers of the renamed and the added files are distinct if the added ones are, and are
not among the renamed ones. -/
theorem nodup_relisted_iff (hρ : Function.Injective ρ) {added : List (FileId × FileName)} :
    ((table.renamedEntries ρ ++ added).map Prod.fst).Nodup ↔
      (added.map Prod.fst).Nodup ∧
        ∀ entry ∈ added, ∀ listed ∈ table.entries, entry.1 ≠ ρ listed.1 := by
  -- the renaming is injective, so the listed files stay distinct
  have hrenamed : ((table.renamedEntries ρ).map Prod.fst).Nodup := by
    have hmap : (table.renamedEntries ρ).map Prod.fst = (table.entries.map Prod.fst).map ρ := by
      rw [renamedEntries, List.map_map, List.map_map]
      rfl
    rw [hmap]
    exact table.distinct.map hρ
  rw [List.map_append, List.nodup_append, and_iff_right hrenamed]
  refine and_congr_right fun _ => ?_
  simp only [renamedEntries, List.mem_map]
  constructor
  · rintro h entry hentry listed hlisted heq
    exact h _ ⟨_, ⟨listed, hlisted, rfl⟩, rfl⟩ _ ⟨entry, hentry, rfl⟩ heq.symm
  · rintro h _ ⟨_, ⟨listed, hlisted, rfl⟩, rfl⟩ _ ⟨entry, hentry, rfl⟩ heq
    exact h entry hentry listed hlisted heq.symm

/-- A table with the renamed entries has the files of the first one under renamed identifiers. -/
theorem renames_of_perm {added : List (FileId × FileName)}
    (h : table'.entries.Perm (table.renamedEntries ρ ++ added)) : table.Renames ρ table' := by
  intro id name hget
  rw [get?_eq_some] at hget ⊢
  refine h.mem_iff.2 (List.mem_append_left _ ?_)
  exact List.mem_map.2 ⟨(id, name), hget, rfl⟩

end FileTable

/-! ## Declarations -/

/-- The declarations of a list are decoded in the order of the list. -/
theorem Rearranges.exists_perm {α : Type} {R : Json → Json → Prop} {vs vs' : List Json}
    {decode decode' : Json → Outcome α} {decls : List α} (h : Rearranges R vs vs')
    (hrepeats : ∀ v v', R v v' → Repeats (decode v) (decode' v'))
    (hall : List.Forall₂ (fun v decl => (decode v).Yields decl) vs decls) :
    ∃ decls', List.Forall₂ (fun v decl => (decode' v).Yields decl) vs' decls' ∧
      decls'.Perm decls := by
  obtain ⟨ws, hws, hperm⟩ := h
  have hall' : List.Forall₂ (fun v decl => (decode' v).Yields decl) ws decls :=
    forall₂_of_related hws hall fun v _ w decl hR => hrepeats v w hR decl
  exact List.perm_comp_forall₂ hperm.symm hall'

section Listings

variable {B : Type}

/-- **Listings in another order.** The name and the groups are the same, and so are the declarations
of each sort, in some order. -/
structure Listing.Reorders (listing listing' : Listing B) : Prop where
  name : listing'.name = listing.name
  groups : listing'.groups = listing.groups
  types : listing'.types.Perm listing.types
  functions : listing'.functions.Perm listing.functions
  globals : listing'.globals.Perm listing.globals

variable {listing listing' : Listing B}

/-- The rules for a listing do not depend on its order. -/
theorem Listing.Reorders.coherent (h : listing.Reorders listing') (hcoherent : listing.Coherent) :
    listing'.Coherent := by
  refine ⟨(h.types.map _).nodup_iff.2 hcoherent.types,
    (h.functions.map _).nodup_iff.2 hcoherent.functions,
    (h.globals.map _).nodup_iff.2 hcoherent.globals, fun group hgroup => ?_⟩
  rw [h.groups] at hgroup
  have hdeclares := hcoherent.groups group hgroup
  cases group with
  | types group => simpa [Listing.Declares, h.types.mem_iff] using hdeclares
  | functions group => simpa [Listing.Declares, h.functions.mem_iff] using hdeclares
  | global id => simpa [Listing.Declares, h.globals.mem_iff] using hdeclares

/-- A crate does not depend on the order in which its declarations are listed. -/
theorem Listing.Reorders.holds (h : listing.Reorders listing') {crate : Crate B}
    (hholds : crate.Holds listing) : crate.Holds listing' where
  name := hholds.name.trans h.name.symm
  groups := hholds.groups.trans h.groups.symm
  types := hholds.types.trans (h.types.map _).symm
  functions := hholds.functions.trans (h.functions.map _).symm
  globals := hholds.globals.trans (h.globals.map _).symm

end Listings

/-! ## Crates -/

/-- **The listing of a relisted document.** Its files have the renamed and the added entries, in
some order. If their identifiers are distinct, it lists the same declarations. -/
theorem Listing.ReadFrom.exists_reorders {ρ : FileId → FileId} {d d' : Json}
    {added : List (FileId × FileName)} {listing : Listing Statement}
    (hread : listing.ReadFrom Statement.decode d) (h : Json.Relists ρ added d d') :
    ∃ entries, entries.Perm (listing.table.renamedEntries ρ ++ added) ∧
      (∀ table', d'.ListsFiles table' → table'.entries = entries) ∧
      ((entries.map Prod.fst).Nodup →
        ∃ listing' : Listing Statement, listing'.ReadFrom Statement.decode d' ∧
          listing.Reorders listing') := by
  obtain ⟨name, groups, files, files', types, types', functions, functions', globals, globals',
    renamed, more, hd, hd', hrenamed, hmore, hperm, htypes, hfunctions, hglobals⟩ := h
  obtain ⟨_, _, _, _, _, hrecord, htable, hgroups, hreadTypes, hreadFunctions, hreadGlobals⟩ :=
    hread
  cases hrecord.unique hd rfl (by simp)
  obtain ⟨entries, hentries, htables⟩ := FileTable.exists_relisted htable hrenamed hmore hperm
  refine ⟨entries, hentries, ?_, fun hnodup => ?_⟩
  · rintro table' ⟨listed, hlisted, htable'⟩
    have hfield : d'.field? "id_to_file" = some (.arr files') := hd'.field?_eq (by simp) (by simp)
    obtain rfl : Json.arr files' = listed := Option.some.inj (hfield.symm.trans hlisted)
    exact (htables table').1 htable'
  · -- with the table of the second document, all its declarations are decoded
    have htable' : (FileTable.decode (.arr files')).Yields ⟨entries, hnodup⟩ := (htables _).2 rfl
    have hrenames : listing.table.Renames ρ ⟨entries, hnodup⟩ := FileTable.renames_of_perm hentries
    obtain ⟨typeDecls, htypes', htypePerm⟩ :=
      htypes.exists_perm (fun _ _ => TypeDecl.decode_repeats hrenames) hreadTypes
    obtain ⟨funDecls, hfunctions', hfunPerm⟩ := hfunctions.exists_perm
      (fun _ _ => FunDecl.decode_repeats hrenames (Statement.decode_repeats hrenames))
      hreadFunctions
    obtain ⟨globalDecls, hglobals', hglobalPerm⟩ := hglobals.exists_perm
      (fun _ _ => GlobalDecl.decode_repeats hrenames (Statement.decode_repeats hrenames))
      hreadGlobals
    exact ⟨⟨listing.name, ⟨entries, hnodup⟩, listing.groups, typeDecls, funDecls, globalDecls⟩,
      ⟨_, _, _, _, _, hd', htable', hgroups, htypes', hfunctions', hglobals'⟩,
      ⟨rfl, rfl, htypePerm, hfunPerm, hglobalPerm⟩⟩

/-- **Relisted documents.** A document has been decoded to a crate, and another one relists it, with
an injective renaming of files. If no file is added twice, and none under the identifier of a file
that is listed, it is decoded to the same crate. Otherwise it is decoded to no crate at all. -/
theorem Crate.decode_relisted {ρ : FileId → FileId} (hρ : Function.Injective ρ) {d d' : Json}
    {added : List (FileId × FileName)} {table : FileTable} {crate : Crate Statement}
    (hdecode : (Crate.decode d).Yields crate) (hfiles : d.ListsFiles table)
    (h : Json.Relists ρ added d d') (crate' : Crate Statement) :
    (Crate.decode d').Yields crate' ↔
      crate' = crate ∧ (added.map Prod.fst).Nodup ∧
        ∀ entry ∈ added, ∀ listed ∈ table.entries, entry.1 ≠ ρ listed.1 := by
  obtain ⟨listing, hread, hcoherent, hholds⟩ := decodeWith_yields.1 hdecode
  obtain rfl : table = listing.table := hfiles.unique hread.listsFiles
  obtain ⟨entries, hentries, hlists, hexists⟩ := hread.exists_reorders h
  rw [← FileTable.nodup_relisted_iff hρ, ← (hentries.map Prod.fst).nodup_iff]
  have hsame : (entries.map Prod.fst).Nodup → (Crate.decode d').Yields crate := by
    intro hnodup
    obtain ⟨listing', hread', hreorders⟩ := hexists hnodup
    exact decodeWith_yields.2
      ⟨listing', hread', hreorders.coherent hcoherent, hreorders.holds hholds⟩
  constructor
  · intro hdecode'
    -- the entries of a table are distinct, so those of the second document are
    obtain ⟨listing', hread', -⟩ := decodeWith_yields.1 hdecode'
    have hnodup : (entries.map Prod.fst).Nodup := by
      rw [← hlists _ hread'.listsFiles]
      exact listing'.table.distinct
    exact ⟨hdecode'.unique (hsame hnodup), hnodup⟩
  · rintro ⟨rfl, hnodup⟩
    exact hsame hnodup

/-! ## Crates with a type in each of two files -/

/-- Takes the identifiers of paths for those of other files, and the other way around. -/
def FileId.exchange : FileId → FileId
  | localFile id => virtualFile ⟨id.index⟩
  | virtualFile id => localFile ⟨id.index⟩

theorem FileId.exchange_injective : Function.Injective exchange := by
  have hinvolutive : Function.Involutive exchange := by rintro (⟨⟨n⟩⟩ | ⟨⟨n⟩⟩) <;> rfl
  exact hinvolutive.injective

namespace Json

/-- The provenance of something at the top of a file. -/
def originIn (file : Json) : Json :=
  .obj [("generated_from_span", .null),
    ("span", .obj [("beg", top), ("end", top), ("file_id", file)])]

/-- A crate with a type `a` in the path `a.rs`, and a type `b` in the other file `lib`. -/
def twoFiles : Json :=
  typesOnly
    (.arr [.arr [.tagged "LocalId" (.num "0"), .tagged "Local" (.str "a.rs")],
      .arr [.tagged "VirtualId" (.num "0"), .tagged "Virtual" (.str "lib")]])
    [typeGroup "1"]
    [externalType "0" "a" (originIn (.tagged "LocalId" (.num "0"))),
      externalType "1" "b" (originIn (.tagged "VirtualId" (.num "0")))]

/-- The same crate with exchanged identifiers and one more file, in another order. -/
def threeFiles : Json :=
  typesOnly
    (.arr [.arr [.tagged "LocalId" (.num "1"), .tagged "Local" (.str "c.rs")],
      .arr [.tagged "LocalId" (.num "0"), .tagged "Virtual" (.str "lib")],
      .arr [.tagged "VirtualId" (.num "0"), .tagged "Local" (.str "a.rs")]])
    [typeGroup "1"]
    [externalType "1" "b" (originIn (.tagged "LocalId" (.num "0"))),
      externalType "0" "a" (originIn (.tagged "VirtualId" (.num "0")))]

variable {ρ : FileId → FileId} {file file' : Json} {id : FileId}

theorem renamed_originIn (hid : (FileId.decode file).Yields id)
    (hid' : (FileId.decode file').Yields (ρ id)) : (originIn file).Renamed ρ (originIn file') := by
  have hspan : (Json.obj [("beg", top), ("end", top), ("file_id", file)]).Renamed ρ
      (.obj [("beg", top), ("end", top), ("file_id", file')]) :=
    .span ⟨_, rfl, @List.perm_append_comm _ [_, _] [_]⟩
      ⟨_, rfl, @List.perm_append_comm _ [_, _] [_]⟩ hid hid'
  exact .fields (by simp) (.cons ⟨rfl, .null⟩ (.cons ⟨rfl, hspan⟩ .nil))

/-- Only the provenance of a type from elsewhere is renamed. -/
theorem renamed_externalType {number name : String} {origin origin' : Json}
    (h : origin.Renamed ρ origin') :
    (externalType number name origin).Renamed ρ (externalType number name origin') := by
  have hname : (Json.arr [.tagged "Ident" (.str name)]).Renamed ρ
      (.arr [.tagged "Ident" (.str name)]) :=
    .arr (.cons (.fields (by simp) (.cons ⟨rfl, .str name⟩ .nil)) .nil)
  have hnil : (Json.arr []).Renamed ρ (.arr []) := .arr .nil
  exact .fields (by simp) (.cons ⟨rfl, .num number⟩ (.cons ⟨rfl, .str "Opaque"⟩
    (.cons ⟨rfl, h⟩ (.cons ⟨rfl, hname⟩ (.cons ⟨rfl, hnil⟩ (.cons ⟨rfl, hnil⟩
      (.cons ⟨rfl, hnil⟩ .nil)))))))

/-- A crate with types only is relisted if its files and its types are. -/
theorem relists_typesOnly {added : List (FileId × FileName)}
    {files files' renamed more groups types types' : List Json}
    (hrenamed : List.Forall₂ (FileTable.RenamesEntry ρ) files renamed)
    (hmore : List.Forall₂ FileTable.ReadsEntry more added) (hperm : (renamed ++ more).Perm files')
    (htypes : Rearranges (Json.Renamed ρ) types types') :
    Relists ρ added (typesOnly (.arr files) groups types) (typesOnly (.arr files') groups types') :=
  have hnil : Rearranges (Json.Renamed ρ) [] [] := ⟨[], .nil, .nil⟩
  ⟨.str "krate", .arr groups, files, files', types, types', [], [], [], [], renamed, more,
    isRecord_of_lookup (by simp) rfl (by simp [List.lookup]),
    isRecord_of_lookup (by simp) rfl (by simp [List.lookup]), hrenamed, hmore, hperm, htypes, hnil,
    hnil⟩

end Json

/-- The two crates are one. -/
theorem Crate.decode_relisted_threeFiles :
    ∃ crate, (Crate.decode .twoFiles).Yields crate ∧
      Json.Relists .exchange [(.localFile ⟨1⟩, .path "c.rs")] .twoFiles .threeFiles ∧
      (Crate.decode .threeFiles).Yields crate := by
  have hdecode : ∃ crate, (Crate.decode .twoFiles).Yields crate := by
    refine ⟨?_, ?_⟩
    rotate_left
    · unfold Yields
      cbv
      rfl
  have hlists : Json.twoFiles.ListsFiles
      ⟨[(.localFile ⟨0⟩, .path "a.rs"), (.virtualFile ⟨0⟩, .virtual "lib")], by decide⟩ := by
    refine ⟨_, rfl, ?_⟩
    unfold Yields
    cbv
  have hlocal : (FileId.decode (.tagged "LocalId" (.num "0"))).Yields (.localFile ⟨0⟩) := by
    unfold Yields
    cbv
  have hvirtual : (FileId.decode (.tagged "VirtualId" (.num "0"))).Yields (.virtualFile ⟨0⟩) := by
    unfold Yields
    cbv
  have hadded : FileTable.ReadsEntry
      (.arr [.tagged "LocalId" (.num "1"), .tagged "Local" (.str "c.rs")])
      (.localFile ⟨1⟩, .path "c.rs") := by
    refine ⟨_, _, rfl, ?_, ?_⟩ <;> unfold Yields <;> cbv
  have hrelists :
      Json.Relists .exchange [(.localFile ⟨1⟩, .path "c.rs")] .twoFiles .threeFiles := by
    refine Json.relists_typesOnly (.cons ?_ (.cons ?_ .nil)) (.cons hadded .nil)
      (List.reverse_perm [_, _, _]).symm ⟨_, .cons ?_ (.cons ?_ .nil), List.Perm.swap _ _ _⟩
    · exact ⟨_, _, _, _, rfl, rfl, hlocal, hvirtual⟩
    · exact ⟨_, _, _, _, rfl, rfl, hvirtual, hlocal⟩
    · exact Json.renamed_externalType (Json.renamed_originIn hlocal hvirtual)
    · exact Json.renamed_externalType (Json.renamed_originIn hvirtual hlocal)
  obtain ⟨crate, hcrate⟩ := hdecode
  refine ⟨crate, hcrate, hrelists, ?_⟩
  exact (Crate.decode_relisted FileId.exchange_injective hcrate hlists hrelists crate).2
    ⟨rfl, by decide, by decide⟩

/-- A crate without declarations, with these paths under one identifier. -/
def Json.onlyFiles (paths : List String) : Json :=
  typesOnly
    (.arr (paths.map fun path =>
      .arr [.tagged "LocalId" (.num "0"), .tagged "Local" (.str path)]))
    [] []

/-- **An added file may be refused.** No span uses it, but its identifier is listed. -/
theorem Crate.not_forall_decode_relisted :
    ¬ ∀ (ρ : FileId → FileId) (added : List (FileId × FileName)) (d d' : Json)
      (crate : Crate Statement), Function.Injective ρ → (Crate.decode d).Yields crate →
      Json.Relists ρ added d d' → (∀ entry ∈ added, ¬ d'.Uses entry.1) →
      (Crate.decode d').Yields crate := by
  intro hall
  have hdecode : (Crate.decode (.onlyFiles ["a.rs"])).Yields
      ⟨"krate", [], .empty, .empty, .empty⟩ := by
    unfold Yields
    cbv
  have hid : (FileId.decode (.tagged "LocalId" (.num "0"))).Yields (.localFile ⟨0⟩) := by
    unfold Yields
    cbv
  have hadded : FileTable.ReadsEntry
      (.arr [.tagged "LocalId" (.num "0"), .tagged "Local" (.str "b.rs")])
      (.localFile ⟨0⟩, .path "b.rs") := by
    refine ⟨_, _, rfl, hid, ?_⟩
    unfold Yields
    cbv
  have hrelists : Json.Relists id [(.localFile ⟨0⟩, .path "b.rs")] (.onlyFiles ["a.rs"])
      (.onlyFiles ["a.rs", "b.rs"]) :=
    Json.relists_typesOnly (.cons ⟨_, _, _, _, rfl, rfl, hid, hid⟩ .nil) (.cons hadded .nil)
      (.refl _) ⟨_, .nil, .nil⟩
  have hunused : ∀ id, ¬ (Json.onlyFiles ["a.rs", "b.rs"]).Uses id := by
    intro id
    unfold Json.onlyFiles Json.typesOnly
    simp [Json.uses_record (Json.isRecord_obj _), Json.uses_arr, Json.uses_tagged,
      Json.not_uses_str, Json.not_uses_num]
  have hyields := hall _ _ _ _ _ Function.injective_id hdecode hrelists fun _ _ => hunused _
  unfold Yields at hyields
  cbv at hyields
  cases hyields

end BorrowIR
