import BorrowIR.Proofs.CrateListing
import BorrowIR.Proofs.DecoderAccounts
import Mathlib

/-!
# Where a document is no crate

The path of a failure names the decoders from the crate down to the one that the failure arose in,
and the nodes that they failed on can be found in the document.

* `Crate.decode_trail`: every failure has a trail;
* `Json.looseGroup`: a document that fails three decoders deep.
-/

namespace BorrowIR

open Decode Outcome

/-- What fails within a decoder behind a report has failed without the name of the decoder. -/
theorem Outcome.exists_inner_of_within {α : Type} {event : Event} {decoder : String} {o : Outcome α}
    {failure : Failure} (h : (report event >>= fun _ => within decoder o).result = .error failure) :
    ∃ inner, o.result = .error inner ∧ inner.within decoder = failure := by
  obtain ⟨log, result⟩ := o
  cases result with
  | ok a => cases h
  | error inner => exact ⟨inner, rfl, Except.error.inj h⟩

namespace Crate

/-- **Paths lead to what is wrong.** If a document is no crate, the path of the failure begins with
the decoder of crates, and from the document on the rest of it has a trail: each name on it is that
of a decoder that fails in the same way on a node below the one before, with the files that the
document lists. What the message says was found, if it does, is the text of a node at or below the
last one, or the tag of such a node. -/
theorem decode_trail (v : Json) (failure : Failure) (h : (decode v).result = .error failure) :
    ∃ path, failure.path = "crate" :: path ∧
      ∀ table, (∀ files, v.ListsFiles files → files = table) →
        Trail table failure.cause path v := by
  have hkeys : ["name", "id_to_file", "declarations", "types", "functions", "globals"].Nodup := by
    decide
  unfold decode decodeWith at h
  obtain ⟨inner, hinner, rfl⟩ := exists_inner_of_within h
  refine ⟨inner.path, rfl, fun table htable => ?_⟩
  refine Localised.trail ?_ hinner
  refine .bind_of_yields (Accounts.record_self : Candid table False [v] _).localised fun p hp => ?_
  obtain ⟨⟨name, _⟩, ⟨files, _⟩, ⟨groups, _⟩, ⟨types, _⟩, ⟨functions, _⟩, ⟨globals, _⟩⟩ := p
  have hrecord : v.IsRecord [("name", name), ("id_to_file", files), ("declarations", groups),
      ("types", types), ("functions", functions), ("globals", globals)] :=
    (record_yields hkeys).1 hp
  have haround : v.Around [name, files, groups, types, functions, globals] :=
    around_of_record hkeys hp
  -- the files are decoded before the name
  have haround : v.Around [files, name, groups, types, functions, globals] :=
    fun part hpart => haround part ((List.Perm.swap _ _ _).mem_iff.1 hpart)
  refine .below ?_ haround
  refine .bind (FileTable.decode_accounts files).localised fun files' hfiles => ?_
  obtain rfl : table = files' :=
    (htable files' ⟨files, hrecord.field?_eq hkeys (by simp), hfiles⟩).symm
  refine .bind (Accounts.string : Candid table False [name] _).localised fun _ _ => ?_
  refine .bind (.list fun v => (DeclGroup.decode_candid v).localised) fun _ _ => ?_
  refine .bind (.list fun v => (TypeDecl.decode_accounts v).localised) fun _ _ => ?_
  refine .bind (.list fun v => (FunDecl.decode_accounts v).localised) fun _ _ => ?_
  refine .bind (.list fun v => (GlobalDecl.decode_accounts v).localised) fun _ _ => ?_
  refine .step (IdMap.index_candid _ _ _).localised fun _ => ?_
  refine .step (IdMap.index_candid _ _ _).localised fun _ => ?_
  refine .step (IdMap.index_candid _ _ _).localised fun _ => ?_
  exact .step (checkGroups_candid _).localised fun _ => .step .report fun _ => .pure

end Crate

/-! ## Groups that cannot be read -/

/-- A document that lists no files and no declarations, and has one group. -/
def Json.looseGroup (group : Json) : Json :=
  .obj [("declarations", .arr [group]), ("functions", .arr []), ("globals", .arr []),
    ("id_to_file", .arr []), ("name", .str "krate"), ("types", .arr [])]

/-- A node whose text is too long for a message. -/
def Json.longMember : Json :=
  .obj [("kind", .arr [.str "type", .null, .bool true, .num "17"]),
    ("note", .str "this member of a group is no number")]

theorem Json.listsFiles_looseGroup (group : Json) : (Json.looseGroup group).ListsFiles .empty := by
  refine ⟨.arr [], rfl, ?_⟩
  unfold Yields
  cbv

namespace Crate

/-- A member of a group that is no number is where the trail ends, and the message shows its first
sixty characters. A sort of groups that is not known is shown by its tag. -/
theorem decode_trail_looseGroup :
    (∃ failure, (decode (.looseGroup (.tagged "Type" (.tagged "NonRec" .longMember)))).result =
        .error failure ∧
      Trail .empty failure.cause ["declaration_group", "id"]
        (.looseGroup (.tagged "Type" (.tagged "NonRec" .longMember))) ∧
      failure.message = "expected a non-negative integer, found " ++
        "\x7b\"kind\":[\"type\",null,true,17],\"note\":\"this member of a group..." ++
        " (in crate > declaration_group > id)") ∧
    ∃ failure, (decode (.looseGroup (.tagged "Trait" .null))).result = .error failure ∧
      Trail .empty failure.cause ["declaration_group"] (.looseGroup (.tagged "Trait" .null)) ∧
      failure.message = "expected a variant of DeclarationGroup, found variant `Trait`" ++
        " (in crate > declaration_group)" := by
  have hmember : (decode (.looseGroup (.tagged "Type" (.tagged "NonRec" .longMember)))).result =
      .error ⟨.mismatch .natural .longMember, ["crate", "declaration_group", "id"]⟩ := by
    cbv
  have hsort : (decode (.looseGroup (.tagged "Trait" .null))).result =
      .error ⟨.unknownVariant "DeclarationGroup" "Trait", ["crate", "declaration_group"]⟩ := by
    cbv
  have hfiles : ∀ group files, (Json.looseGroup group).ListsFiles files → files = .empty :=
    fun group _ h => h.unique (Json.listsFiles_looseGroup group)
  obtain ⟨_, hpath, hmemberTrail⟩ := decode_trail _ _ hmember
  obtain ⟨_, hpath', hsortTrail⟩ := decode_trail _ _ hsort
  cases hpath
  cases hpath'
  exact ⟨⟨_, hmember, hmemberTrail _ (hfiles _), by decide +kernel⟩,
    _, hsort, hsortTrail _ (hfiles _), by decide +kernel⟩

end Crate

end BorrowIR
