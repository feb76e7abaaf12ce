import BorrowIR.Proofs.MissingFile
import Mathlib

/-!
# Crates with files missing

A document is decoded, then some files that its spans name are taken out of its table, and it is
decoded again. The second run fails.

* `Crate.decode_withoutFiles`: it reports one of the lost files, unless the first type declaration
  that uses a lost file hides it; then it says that a field is no list;
* `Crate.decode_loneCrate_withoutFiles`: both happen, to one document;
* `Crate.not_forall_fails_unknownFile`: so a lost file is not always reported.
-/

namespace BorrowIR

open Decode Outcome

variable {lost : List FileId}

/-- What a field of a node uses, the node uses. -/
theorem Json.uses_of_field {v part : Json} {id : FileId} (key : String)
    (h : v.field? key = some part) (huses : part.Uses id) : v.Uses id := by
  cases v with
  | obj fields => exact uses_obj.2 (.inr ⟨_, Lookup.mem_of_lookup h, huses⟩)
  | _ => cases h

/-- A record uses the lost files that the value of a field uses. -/
theorem Json.usesAny_of_field {v part : Json} (key : String) (h : v.field? key = some part)
    (huses : part.UsesAny lost) : v.UsesAny lost := by
  obtain ⟨id, hid, huse⟩ := huses
  exact ⟨id, hid, Json.uses_of_field key h huse⟩

/-- What hides a loss has one. -/
theorem Json.HidesLoss.usesAny {v x : Json} (h : v.HidesLoss lost x) : v.UsesAny lost := by
  obtain ⟨-, kind, hkind, huses, -⟩ := h
  exact Json.usesAny_of_field "kind" hkind huses

/-- **Hidden losses of a crate.** The first type declaration of the document that uses a lost file
hides it. -/
def Json.CrateHidesLoss (lost : List FileId) (d x : Json) : Prop :=
  ∃ decls, d.field? "types" = some (.arr decls) ∧
    FirstLoss lost (fun decl => decl.HidesLoss lost x) decls

/-- Only the list of files changes. -/
theorem Json.IsRecord.withoutFiles {d name files groups types functions globals : Json}
    (h : d.IsRecord [("name", name), ("id_to_file", files), ("declarations", groups),
      ("types", types), ("functions", functions), ("globals", globals)]) :
    (d.withoutFiles lost).IsRecord [("name", name), ("id_to_file", files.dropFiles lost),
      ("declarations", groups), ("types", types), ("functions", functions),
      ("globals", globals)] := by
  obtain ⟨fields, rfl, hperm⟩ := h
  refine ⟨_, rfl, ?_⟩
  simpa using hperm.map fun field : String × Json =>
    (field.1, if field.1 = "id_to_file" then field.2.dropFiles lost else field.2)

namespace Crate

variable {B : Type} {code : BodyReader B}

/-- What the two runs do on a document, if it is known what they do on its type declarations. -/
theorem decodeWith_tracks {cause : Cause → Prop} {d : Json} {crate : Crate B}
    (hcode : ∀ table v, Tracks lost (Cause.UnknownOf lost) [v] (code table v)
      (code (table.without lost) v))
    (htypes : ∀ types table, d.field? "types" = some types →
      Tracks lost cause [types] (list (TypeDecl.decode table) types)
        (list (TypeDecl.decode (table.without lost)) types))
    (hrest : ∀ types, d.field? "types" = some types → ¬ types.UsesAny lost →
      ∀ c, Cause.UnknownOf lost c → cause c)
    (h : (decodeWith code d).Yields crate) :
    (¬ d.UsesAny lost → (decodeWith code (d.withoutFiles lost)).Yields crate) ∧
      (d.UsesAny lost → ∃ c, cause c ∧ (decodeWith code (d.withoutFiles lost)).Fails c) := by
  have hkeys : ["name", "id_to_file", "declarations", "types", "functions", "globals"].Nodup := by
    decide
  have hreport : (report .began).Yields () := yields_report.2 trivial
  unfold decodeWith at h ⊢
  rw [yields_bind_of hreport, yields_within, record_bind hkeys] at h
  obtain ⟨⟨⟨n, _⟩, ⟨files, _⟩, ⟨gs, _⟩, ⟨ts, _⟩, ⟨fs, _⟩, ⟨ls, _⟩⟩, hd, h⟩ := h
  change d.IsRecord [("name", n), ("id_to_file", files), ("declarations", gs), ("types", ts),
    ("functions", fs), ("globals", ls)] at hd
  obtain ⟨table, htable, h⟩ := yields_bind.1 h
  have hd' : (d.withoutFiles lost).IsRecord _ := hd.withoutFiles
  have hrecord : (record ["name", "id_to_file", "declarations", "types", "functions", "globals"]
      (d.withoutFiles lost)).Yields (⟨n, hd'.sizeOf_lt (by simp)⟩,
        ⟨files.dropFiles lost, hd'.sizeOf_lt (by simp)⟩, ⟨gs, hd'.sizeOf_lt (by simp)⟩,
        ⟨ts, hd'.sizeOf_lt (by simp)⟩, ⟨fs, hd'.sizeOf_lt (by simp)⟩,
        ⟨ls, hd'.sizeOf_lt (by simp)⟩) := (record_yields hkeys).2 hd'
  have htable' : (FileTable.decode (files.dropFiles lost)).Yields (table.without lost) :=
    FileTable.decode_dropFiles htable
  have hfield : d.field? "types" = some ts := hd.field?_eq (by simp) (by simp)
  have huses : d.UsesAny lost ↔ ∃ part ∈ [n, gs, ts, fs, ls], part.UsesAny lost := by
    have hfiles : ¬ files.UsesAny lost := by
      rintro ⟨id, -, huse⟩
      exact (FileTable.decode_spanless files).not_uses htable id huse
    rw [Json.usesAny_iff fun id => Json.uses_record hd (by simp)]
    simp [hfiles]
  simp only [yields_bind_of hreport, fails_bind_of hreport, yields_within, fails_within,
    yields_bind_of hrecord, fails_bind_of hrecord, yields_bind_of htable', fails_bind_of htable',
    huses, not_exists, not_and]
  -- behind the table, the two runs go through the same nodes
  refine (?_ : Tracks lost cause [n, gs, ts, fs, ls] _ _) crate h
  refine .bind (.of_spanless .string) fun _ => ?_
  refine .bind (.of_spanless (.list DeclGroup.decode_spanless)) fun _ => ?_
  refine .bind_of_not_uses (htypes ts table hfield) fun hts _ => ?_
  have hcause := hrest ts hfield hts
  refine .bind (.mono (.list (FunDecl.decode_tracks (hcode table))) hcause) fun _ => ?_
  exact .bind (.mono (.list (GlobalDecl.decode_tracks (hcode table))) hcause) fun _ => .nil

end Crate

/-! ## Which loss is reported -/

/-- If the first declaration that uses a lost file does not hide it, it is reported. -/
theorem TypeDecl.list_tracks {table : FileTable} {v : Json}
    (h : ∀ decls, v = .arr decls →
      ¬ FirstLoss lost (fun decl => ∃ x, decl.HidesLoss lost x) decls) :
    Tracks lost (Cause.UnknownOf lost) [v] (list (TypeDecl.decode table) v)
      (list (TypeDecl.decode (table.without lost)) v) := by
  refine .listBelow_of_each fun below hv => .each_of_not_first (fun part _ hpart => ?_) (h _ hv)
  exact TypeDecl.decode_tracks fun x hx => hpart ⟨x, hx⟩

/-- If it does, the lone field is reported, whatever the other declarations use. -/
theorem TypeDecl.list_hidden {table : FileTable} {decls : List Json} {x : Json}
    (h : FirstLoss lost (fun decl => decl.HidesLoss lost x) decls) :
    Tracks lost (fun c => c = .mismatch .list x) [.arr decls]
      (list (TypeDecl.decode table) (.arr decls))
      (list (TypeDecl.decode (table.without lost)) (.arr decls)) := by
  refine .listBelow_of_each fun below hv => ?_
  rw [Json.arr.injEq] at hv
  rw [hv] at h
  refine .each_of_first (fun _ => Json.HidesLoss.usesAny) (fun part _ hpart => ?_) h
  rcases hpart with hpart | hpart
  · exact TypeDecl.decode_hidden hpart
  · refine .of_not_uses (TypeDecl.decode_tracks fun y hy => hpart hy.usesAny) ?_
    simpa using hpart

namespace Crate

/-- A loss that is not hidden is reported as such. -/
theorem fails_of_not_hidden {d : Json} {crate : Crate Statement}
    (h : (decode d).Yields crate) (huses : d.UsesAny lost)
    (hhidden : ∀ x, ¬ d.CrateHidesLoss lost x) :
    ∃ id ∈ lost, (decode (d.withoutFiles lost)).Fails (.unknownFile id.text) := by
  have htypes : ∀ types table, d.field? "types" = some types →
      Tracks lost (Cause.UnknownOf lost) [types] (list (TypeDecl.decode table) types)
        (list (TypeDecl.decode (table.without lost)) types) := by
    intro types table htypes
    refine TypeDecl.list_tracks fun decls hdecls hfirst => ?_
    obtain ⟨before, decl, after, rfl, hbefore, x, hx⟩ := hfirst
    rw [hdecls] at htypes
    exact hhidden x ⟨_, htypes, before, decl, after, rfl, hbefore, hx⟩
  obtain ⟨c, ⟨id, hid, rfl⟩, hfails⟩ := (decodeWith_tracks
    (fun table v => Statement.decode_tracks v) htypes (fun _ _ _ c hc => hc) h).2 huses
  exact ⟨id, hid, hfails⟩

/-- A hidden loss is reported as a lone field that is no list. -/
theorem fails_of_hidden {d x : Json} {crate : Crate Statement} (h : (decode d).Yields crate)
    (hhidden : d.CrateHidesLoss lost x) :
    (decode (d.withoutFiles lost)).Fails (.mismatch .list x) := by
  obtain ⟨decls, hdecls, hfirst⟩ := hhidden
  have hused : (Json.arr decls).UsesAny lost := by
    obtain ⟨before, decl, after, rfl, -, hdecl⟩ := hfirst
    obtain ⟨id, hid, huse⟩ := hdecl.usesAny
    exact ⟨id, hid, Json.uses_arr.2 ⟨decl, by simp, huse⟩⟩
  have htypes : ∀ types table, d.field? "types" = some types →
      Tracks lost (fun c => c = .mismatch .list x) [types] (list (TypeDecl.decode table) types)
        (list (TypeDecl.decode (table.without lost)) types) := by
    intro types table htypes
    rw [hdecls] at htypes
    cases htypes
    exact TypeDecl.list_hidden hfirst
  have hrest : ∀ types, d.field? "types" = some types → ¬ types.UsesAny lost →
      ∀ c, Cause.UnknownOf lost c → c = .mismatch .list x := by
    intro types htypes hnot
    rw [hdecls] at htypes
    cases htypes
    exact absurd hused hnot
  have huse : d.UsesAny lost := Json.usesAny_of_field "types" hdecls hused
  obtain ⟨c, rfl, hfails⟩ := (decodeWith_tracks
    (fun table v => Statement.decode_tracks v) htypes hrest h).2 huse
  exact hfails

/-- **Missing files.** Some files are lost, and all of them are used. Then one of them is reported
as unknown if and only if no type declaration hides the loss. A hidden loss is reported as a field
that is no list: the list of one field has been read as a list around a list of fields, and of the
two readings it is this one whose failure counts. -/
theorem decode_withoutFiles {d : Json} {crate : Crate Statement} {lost : List FileId}
    (h : (decode d).Yields crate) (hlost : lost ≠ []) (huses : ∀ id ∈ lost, d.Uses id) :
    ((∃ id ∈ lost, (decode (d.withoutFiles lost)).Fails (.unknownFile id.text)) ↔
        ∀ x, ¬ d.CrateHidesLoss lost x) ∧
      ∀ x, d.CrateHidesLoss lost x → (decode (d.withoutFiles lost)).Fails (.mismatch .list x) := by
  have huse : d.UsesAny lost := by
    obtain ⟨id, hid⟩ := List.exists_mem_of_ne_nil lost hlost
    exact ⟨id, hid, huses id hid⟩
  refine ⟨⟨?_, fails_of_not_hidden h huse⟩, fun x => fails_of_hidden h⟩
  -- a run has one cause, and that of a hidden loss is no missing file
  rintro ⟨id, -, hfails⟩ x hx
  have hcause := hfails.unique (fails_of_hidden h hx)
  cases hcause

end Crate

/-! ## A crate with a lone field -/

namespace Json

/-- The provenance of something at the top of the virtual file with this number. -/
def provenanceIn (file : String) : Json :=
  .obj [("generated_from_span", .null),
    ("span", .obj [("beg", .obj [("col", .num "0"), ("line", .num "1")]),
      ("end", .obj [("col", .num "0"), ("line", .num "1")]),
      ("file_id", .tagged "VirtualId" (.num file))])]

/-- A field of a structure, in file 0. -/
def loneField : Json :=
  .obj [("meta", provenanceIn "0"), ("name", .null), ("ty", .str "Bool")]

/-- A structure in file 1. The list of its one field has no list of its own around it. -/
def loneStruct : Json :=
  .obj [("def_id", .num "0"), ("kind", .tagged "Struct" (.arr [loneField])),
    ("meta", provenanceIn "1"), ("name", .arr []), ("region_params", .arr []),
    ("regions_hierarchy", .arr []), ("type_params", .arr [])]

/-- A crate with this structure only. -/
def loneCrate : Json :=
  .obj [("declarations", .arr []), ("functions", .arr []), ("globals", .arr []),
    ("id_to_file", .arr [
      .arr [.tagged "VirtualId" (.num "0"), .tagged "Virtual" (.str "macros")],
      .arr [.tagged "VirtualId" (.num "1"), .tagged "Virtual" (.str "lib")]]),
    ("name", .str "krate"), ("types", .arr [loneStruct])]

theorem provenanceIn_uses {file : String} {id id' : FileId}
    (hfile : (FileId.decode (.tagged "VirtualId" (.num file))).Yields id) :
    (provenanceIn file).Uses id' ↔ id = id' := by
  have hloc : (Loc.decode (.obj [("col", .num "0"), ("line", .num "1")])).Yields ⟨1, 0⟩ := by
    unfold Yields; cbv
  have hnot := (Loc.decode_spanless _).not_uses hloc
  unfold provenanceIn
  rw [uses_record (isRecord_obj _) (by simp)]
  simp only [List.map_cons, List.map_nil, List.mem_cons, List.not_mem_nil, or_false,
    exists_eq_or_imp, exists_eq_left, not_uses_null, false_or]
  exact uses_span ⟨_, rfl, @List.perm_append_comm _ [_, _] [_]⟩ hfile hnot hnot

theorem provenanceIn_zero_uses {id : FileId} :
    (provenanceIn "0").Uses id ↔ .virtualFile ⟨0⟩ = id :=
  provenanceIn_uses (by unfold Yields; cbv)

theorem provenanceIn_one_uses {id : FileId} :
    (provenanceIn "1").Uses id ↔ .virtualFile ⟨1⟩ = id :=
  provenanceIn_uses (by unfold Yields; cbv)

theorem loneCrate_uses {id : FileId} (h : loneStruct.Uses id) : loneCrate.Uses id :=
  uses_of_field "types" rfl (uses_arr.2 ⟨_, List.mem_singleton_self _, h⟩)

/-- The field is in file 0. -/
theorem loneFields_uses : (tagged "Struct" (.arr [loneField])).Uses (.virtualFile ⟨0⟩) := by
  have hfield : loneField.Uses (.virtualFile ⟨0⟩) :=
    uses_of_field "meta" rfl (provenanceIn_zero_uses.2 rfl)
  exact uses_tagged.2 (uses_arr.2 ⟨_, List.mem_singleton_self _, hfield⟩)

theorem loneCrate_uses_zero : loneCrate.Uses (.virtualFile ⟨0⟩) :=
  loneCrate_uses (uses_of_field "kind" rfl loneFields_uses)

theorem loneCrate_uses_one : loneCrate.Uses (.virtualFile ⟨1⟩) :=
  loneCrate_uses (uses_of_field "meta" rfl (provenanceIn_one_uses.2 rfl))

/-- The loss of file 0 is hidden. -/
theorem loneCrate_hidesLoss : loneCrate.CrateHidesLoss [.virtualFile ⟨0⟩] loneField := by
  refine ⟨[loneStruct], rfl, [], loneStruct, [], rfl, by simp, ?_, _, rfl, ?_, ?_⟩
  · rintro origin ⟨⟩ ⟨id, hid, huses⟩
    rw [provenanceIn_one_uses] at huses
    rw [← huses] at hid
    revert hid
    decide
  · exact ⟨_, List.mem_singleton_self _, loneFields_uses⟩
  · exact ⟨_, rfl, by rintro elems ⟨⟩⟩

/-- The loss of file 1 is not, as it shows in the provenance. -/
theorem loneCrate_not_hidesLoss (x : Json) :
    ¬ loneCrate.CrateHidesLoss [.virtualFile ⟨1⟩] x := by
  rintro ⟨decls, ⟨⟩, before, decl, after, hdecls, -, hmeta, -⟩
  obtain rfl : decl = loneStruct := by
    have hmem : decl ∈ [loneStruct] := by rw [hdecls]; simp
    simpa using hmem
  exact hmeta _ rfl ⟨_, List.mem_singleton_self _, provenanceIn_one_uses.2 rfl⟩

end Json

namespace Crate

theorem decode_loneCrate : ∃ crate, (decode Json.loneCrate).Yields crate := by
  refine ⟨?_, ?_⟩
  rotate_left
  · unfold Yields
    cbv
    rfl

/-- **A loss on each side.** Without file 1, the structure is in an unknown file. Without file 0,
its field is said to be no list. -/
theorem decode_loneCrate_withoutFiles :
    (∃ crate, (decode Json.loneCrate).Yields crate) ∧
      (∀ id ∈ [FileId.virtualFile ⟨0⟩], Json.loneCrate.Uses id) ∧
      (∀ id ∈ [FileId.virtualFile ⟨1⟩], Json.loneCrate.Uses id) ∧
      (∃ id ∈ [FileId.virtualFile ⟨1⟩],
        (decode (Json.loneCrate.withoutFiles [.virtualFile ⟨1⟩])).Fails (.unknownFile id.text)) ∧
      (decode (Json.loneCrate.withoutFiles [.virtualFile ⟨0⟩])).Fails
        (.mismatch .list Json.loneField) := by
  obtain ⟨crate, hcrate⟩ := decode_loneCrate
  have huses0 : ∀ id ∈ [FileId.virtualFile ⟨0⟩], Json.loneCrate.Uses id := by
    simpa using Json.loneCrate_uses_zero
  have huses1 : ∀ id ∈ [FileId.virtualFile ⟨1⟩], Json.loneCrate.Uses id := by
    simpa using Json.loneCrate_uses_one
  refine ⟨⟨crate, hcrate⟩, huses0, huses1, ?_, ?_⟩
  · exact (decode_withoutFiles hcrate (List.cons_ne_nil _ _) huses1).1.2
      Json.loneCrate_not_hidesLoss
  · exact (decode_withoutFiles hcrate (List.cons_ne_nil _ _) huses0).2 _
      Json.loneCrate_hidesLoss

/-- A missing file is not always reported as such. -/
theorem not_forall_fails_unknownFile :
    ¬ ∀ (d : Json) (crate : Crate Statement) (lost : List FileId), (decode d).Yields crate →
      lost ≠ [] → (∀ id ∈ lost, d.Uses id) →
      ∃ id ∈ lost, (decode (d.withoutFiles lost)).Fails (.unknownFile id.text) := by
  intro h
  obtain ⟨crate, hcrate⟩ := decode_loneCrate
  obtain ⟨id, -, hfails⟩ := h Json.loneCrate crate [.virtualFile ⟨0⟩] hcrate
    (List.cons_ne_nil _ _) (by simpa using Json.loneCrate_uses_zero)
  have hcause := hfails.unique (fails_of_hidden hcrate Json.loneCrate_hidesLoss)
  cases hcause

end Crate

end BorrowIR
