import BorrowIR.Proofs.RenamedFiles

/-!
# Decoding with renamed files

A table has under `ρ id` the file that another one has under `id`. With this table a node with
renamed files is decoded to the same value. There is one lemma for each decoder of something with
spans; none of them does more with a table than look up files.

* `FileTable.Renames`: two tables that have the same files under renamed identifiers;
* `Statement.decode_repeats`, `TypeDecl.decode_repeats`, `FunDecl.decode_repeats`,
  `GlobalDecl.decode_repeats`: the decoders of what a crate holds.
-/

namespace BorrowIR

open Decode Outcome

/-- **Tables with renamed files.** The files of the first table are there in the second one, under
the renamed identifiers. -/
def FileTable.Renames (ρ : FileId → FileId) (table table' : FileTable) : Prop :=
  ∀ id name, table.get? id = some name → table'.get? (ρ id) = some name

section

variable {ρ : FileId → FileId} {table table' : FileTable} {v v' : Json}
  (htable : table.Renames ρ table')

include htable

/-! ## Spans -/

/-- A span with a renamed file has the same name and the same ends. This is the one place where the
tables count. -/
theorem Span.decode_repeats (hv : v.Renamed ρ v') :
    Repeats (Span.decode table v) (Span.decode table' v') := by
  intro span hspan
  obtain ⟨p, ⟨hrecord, hid, hname, hstart, hstop⟩⟩ := Span.decode_iff.1 hspan
  obtain ⟨file', hrecord', hid'⟩ := hv.of_span hrecord (FileId.decode_iff.2 ⟨p, hid⟩)
  obtain ⟨p', hid'⟩ := FileId.decode_iff.1 hid'
  exact Span.decode_iff.2 ⟨p', .mk hrecord' hid' (htable _ _ hname) hstart hstop⟩

/-- Both spans of a provenance are renamed. -/
theorem Provenance.decode_repeats (hv : v.Renamed ρ v') :
    Repeats (Provenance.decode table v) (Provenance.decode table' v') := by
  unfold Provenance.decode
  refine .within (.record (by decide) (by decide) hv ?_)
  rintro ⟨span, source⟩ ⟨span', source'⟩ ⟨hspan, hsource⟩
  refine .bind (Span.decode_repeats htable hspan) fun _ => .last ?_
  exact .optional hsource (Span.decode_repeats htable hsource)

/-! ## Statements -/

/-- On nodes of every size, the three decoders of statements repeat their values. -/
theorem statements_repeat_of_size (n : Nat) :
    ∀ v v' : Json, sizeOf v = n → v.Renamed ρ v' →
      Repeats (Statement.decode table v) (Statement.decode table' v') ∧
      Repeats (RawStatement.decode table v) (RawStatement.decode table' v') ∧
      Repeats (Switch.decode table v) (Switch.decode table' v') := by
  -- the three decoders call each other on smaller nodes
  induction n using Nat.strongRecOn with
  | ind n ih =>
    rintro v v' rfl hv
    have hstatement : ∀ w w' : Json, sizeOf w < sizeOf v → w.Renamed ρ w' →
        Repeats (Statement.decode table w) (Statement.decode table' w') := by
      intro w w' hw hrenamed
      exact (ih _ hw w w' rfl hrenamed).1
    refine ⟨?_, ?_, ?_⟩
    · rw [Statement.decode, Statement.decode]
      refine .within (.record (by decide) (by decide) hv ?_)
      rintro ⟨origin, content, hcontent⟩ ⟨origin', content', hcontent'⟩ ⟨horigin, hrenamed⟩
      refine .bind (Provenance.decode_repeats htable horigin) fun _ => .last ?_
      exact (ih _ hcontent _ _ rfl hrenamed).2.1
    · rw [RawStatement.decode, RawStatement.decode]
      refine .within (.variant hv fun t t' ht => ?_)
      -- the tag is the same in both runs, so they take the same branch of the decoder
      split <;> cases ht
      · rename_i hp
        refine .components hp ?_
        rintro ⟨dest, value⟩ ⟨dest', value'⟩ ⟨hdest, hvalue⟩
        -- neither the place nor the value has spans, so they are the same nodes in both runs
        refine .bind (.of_spanless hdest (Place.decode_spanless _)) fun _ => .last ?_
        exact .of_spanless hvalue (Rvalue.decode_spanless _)
      · rename_i hp
        exact .map (.of_spanless hp (.wrapped Place.decode_spanless))
      · rename_i hp
        refine .components hp ?_
        rintro ⟨place, variant⟩ ⟨place', variant'⟩ ⟨hplace, hvariant⟩
        refine .bind (.of_spanless hplace (Place.decode_spanless _)) fun _ => .last ?_
        exact .of_spanless hvariant .entityId
      · rename_i hp
        exact .map (.of_spanless hp (.wrapped Place.decode_spanless))
      · rename_i hp
        exact .map (.of_spanless hp (.wrapped Assertion.decode_spanless))
      · rename_i hp
        exact .map (.of_spanless hp (.wrapped Call.decode_spanless))
      · exact .refl
      · exact .refl
      · rename_i hp
        exact .map (.of_spanless hp (.wrapped fun _ => .natural))
      · rename_i hp
        exact .map (.of_spanless hp (.wrapped fun _ => .natural))
      · exact .refl
      · rename_i payload hlt _ hp
        refine .components hp ?_
        rintro ⟨⟨first, hfirst⟩, ⟨rest, hrest⟩⟩ ⟨first', rest'⟩ ⟨hfirst', hrest'⟩
        refine .bind (hstatement _ _ (Nat.lt_trans hfirst hlt) hfirst') fun _ => .last ?_
        exact hstatement _ _ (Nat.lt_trans hrest hlt) hrest'
      · rename_i payload hlt _ hp
        refine .map (.wrapped ?_ ?_ hp fun switch switch' hswitch hrenamed => ?_)
        · exact exclusive_of_arr Switch.decode_arr
        · exact exclusive_of_arr Switch.decode_arr
        · exact (ih _ (Nat.lt_of_le_of_lt hswitch hlt) _ _ rfl hrenamed).2.2
      · rename_i payload hlt _ hp
        refine .map (.wrapped ?_ ?_ hp fun body body' hbody hrenamed => ?_)
        · exact exclusive_of_arr Statement.decode_arr
        · exact exclusive_of_arr Statement.decode_arr
        · exact hstatement _ _ (Nat.lt_of_le_of_lt hbody hlt) hrenamed
      all_goals exact .fail
    · rw [Switch.decode, Switch.decode]
      refine .within (.variant hv fun t t' ht => ?_)
      split <;> cases ht
      · rename_i payload hlt _ hp
        refine .components hp ?_
        rintro ⟨test, ⟨thenBranch, hthen⟩, ⟨elseBranch, helse⟩⟩ ⟨test', then', else'⟩
          ⟨htest, hthen', helse'⟩
        refine .bind (.of_spanless htest (Operand.decode_spanless _)) fun _ => ?_
        refine .bind (hstatement _ _ (Nat.lt_trans hthen hlt) hthen') fun _ => .last ?_
        exact hstatement _ _ (Nat.lt_trans helse hlt) helse'
      · rename_i payload hlt _ hp
        refine .components hp ?_
        rintro ⟨discr, ty, ⟨branches, hbranches⟩, ⟨otherwise, hotherwise⟩⟩
          ⟨discr', ty', branches', otherwise'⟩ ⟨hdiscr, hty, hbranches', hotherwise'⟩
        refine .bind (.of_spanless hdiscr (Operand.decode_spanless _)) fun _ => ?_
        refine .bind (.of_spanless hty (IntTy.decode_spanless _)) fun _ => ?_
        refine .bind (.list hbranches' fun branch branch' hbranch hrenamed => ?_) fun _ => ?_
        · refine .components hrenamed ?_
          rintro ⟨values, ⟨body, hbody⟩⟩ ⟨values', body'⟩ ⟨hvalues, hbody'⟩
          refine .bind (.of_spanless hvalues (.list Scalar.decode_spanless)) fun _ => .last ?_
          have hlt := Nat.lt_trans hbranch (Nat.lt_trans hbranches hlt)
          exact hstatement _ _ (Nat.lt_trans hbody hlt) hbody'
        · refine .bind .refl fun _ => .last ?_
          exact hstatement _ _ (Nat.lt_trans hotherwise hlt) hotherwise'
      · rename_i payload hlt _ hp
        refine .components hp ?_
        rintro ⟨place, ⟨branches, hbranches⟩, ⟨otherwise, hotherwise⟩⟩
          ⟨place', branches', otherwise'⟩ ⟨hplace, hbranches', hotherwise'⟩
        refine .bind (.of_spanless hplace (Place.decode_spanless _)) fun _ => ?_
        refine .bind (.list hbranches' fun branch branch' hbranch hrenamed => ?_) fun _ => .last ?_
        · refine .components hrenamed ?_
          rintro ⟨variants, ⟨body, hbody⟩⟩ ⟨variants', body'⟩ ⟨hvariants, hbody'⟩
          refine .bind (.of_spanless hvariants (.list fun _ => .entityId)) fun _ => .last ?_
          have hlt := Nat.lt_trans hbranch (Nat.lt_trans hbranches hlt)
          exact hstatement _ _ (Nat.lt_trans hbody hlt) hbody'
        · exact hstatement _ _ (Nat.lt_trans hotherwise hlt) hotherwise'
      all_goals exact .fail

/-- A statement with renamed files is decoded to the same statement. -/
theorem Statement.decode_repeats (hv : v.Renamed ρ v') :
    Repeats (Statement.decode table v) (Statement.decode table' v') :=
  (statements_repeat_of_size htable _ v v' rfl hv).1

/-! ## Declarations -/

/-- A field has a span of its own, and its type has none. -/
theorem Field.decode_repeats (hv : v.Renamed ρ v') :
    Repeats (Field.decode table v) (Field.decode table' v') := by
  unfold Field.decode
  refine .within (.record (by decide) (by decide) hv ?_)
  rintro ⟨origin, name, ty⟩ ⟨origin', name', ty'⟩ ⟨horigin, hname, hty⟩
  refine .bind (Provenance.decode_repeats htable horigin) fun _ => ?_
  refine .bind (.of_spanless hname (.optional .string)) fun _ => .last ?_
  exact .of_spanless hty (SigTy.decode_spanless _)

/-- A variant has a span of its own, and one in each of its fields. -/
theorem Variant.decode_repeats (hv : v.Renamed ρ v') :
    Repeats (Variant.decode table v) (Variant.decode table' v') := by
  unfold Variant.decode
  refine .within (.record (by decide) (by decide) hv ?_)
  rintro ⟨origin, name, fields⟩ ⟨origin', name', fields'⟩ ⟨horigin, hname, hfields⟩
  refine .bind (Provenance.decode_repeats htable horigin) fun _ => ?_
  refine .bind (.of_spanless hname .string) fun _ => .last ?_
  exact .list hfields fun _ _ _ hfield => Field.decode_repeats htable hfield

/-- The fields and the variants of a type are renamed, in whichever form the list of them stands. -/
theorem TypeDeclKind.decode_repeats (hv : v.Renamed ρ v') :
    Repeats (TypeDeclKind.decode table v) (TypeDeclKind.decode table' v') := by
  unfold TypeDeclKind.decode
  refine .within (.variant hv fun t t' ht => ?_)
  split <;> cases ht
  · rename_i hp
    refine .map (.wrapped (exclusive_list Field.decode_arr) (exclusive_list Field.decode_arr) hp ?_)
    exact fun _ _ _ hfields => .list hfields fun _ _ _ hfield => Field.decode_repeats htable hfield
  · rename_i hp
    refine .map (.wrapped (exclusive_list Variant.decode_arr) (exclusive_list Variant.decode_arr)
      hp ?_)
    exact fun _ _ _ hvariants =>
      .list hvariants fun _ _ _ hvariant => Variant.decode_repeats htable hvariant
  · exact .refl
  all_goals exact .fail

theorem TypeDecl.decode_repeats (hv : v.Renamed ρ v') :
    Repeats (TypeDecl.decode table v) (TypeDecl.decode table' v') := by
  unfold TypeDecl.decode
  refine .within (.record (by decide) (by decide) hv ?_)
  rintro ⟨id, origin, name, regions, types, hierarchy, kind⟩
    ⟨id', origin', name', regions', types', hierarchy', kind'⟩
    ⟨hid, horigin, hname, hregions, htypes, hhierarchy, hkind⟩
  refine .bind (.of_spanless hid .entityId) fun _ => ?_
  refine .bind (Provenance.decode_repeats htable horigin) fun _ => ?_
  refine .bind (.of_spanless hname (Name.decode_spanless _)) fun _ => ?_
  refine .bind (.of_spanless hregions (.list RegionVar.decode_spanless)) fun _ => ?_
  refine .bind (.of_spanless htypes (.list TypeVar.decode_spanless)) fun _ => ?_
  refine .bind (.of_spanless hhierarchy (.list RegionGroup.decode_spanless)) fun _ => ?_
  exact .last (TypeDeclKind.decode_repeats htable hkind)

end

/-! ## Bodies -/

section Bodies

variable {ρ : FileId → FileId} {table table' : FileTable} {v v' : Json}
  (htable : table.Renames ρ table') {B : Type} {code : BodyReader B}
  (hcode : ∀ {v v' : Json}, v.Renamed ρ v' → Repeats (code table v) (code table' v'))

include htable hcode

/-- A body with renamed files is decoded to the same body, if its code is. -/
theorem Body.decode_repeats (hv : v.Renamed ρ v') :
    Repeats (Body.decode code table v) (Body.decode code table' v') := by
  unfold Body.decode
  refine .within (.record (by decide) (by decide) hv ?_)
  rintro ⟨origin, argCount, locals, content⟩ ⟨origin', argCount', locals', content'⟩
    ⟨horigin, hargCount, hlocals, hcontent⟩
  refine .bind (Provenance.decode_repeats htable horigin) fun _ => ?_
  refine .bind (.of_spanless hargCount .natural) fun _ => ?_
  refine .bind (.of_spanless hlocals (.list Var.decode_spanless)) fun _ => ?_
  exact .bind .refl fun _ => .last (hcode hcontent)

/-- A function with renamed files is decoded to the same function, if the code of its body is. -/
theorem FunDecl.decode_repeats (hv : v.Renamed ρ v') :
    Repeats (FunDecl.decode code table v) (FunDecl.decode code table' v') := by
  unfold FunDecl.decode
  refine .within (.record (by decide) (by decide) hv ?_)
  rintro ⟨id, origin, name, signature, body⟩ ⟨id', origin', name', signature', body'⟩
    ⟨hid, horigin, hname, hsignature, hbody⟩
  refine .bind (.of_spanless hid .entityId) fun _ => ?_
  refine .bind (Provenance.decode_repeats htable horigin) fun _ => ?_
  refine .bind (.of_spanless hname (Name.decode_spanless _)) fun _ => ?_
  refine .bind (.of_spanless hsignature (Signature.decode_spanless _)) fun _ => .last ?_
  exact .optional hbody (Body.decode_repeats htable hcode hbody)

theorem GlobalDecl.decode_repeats (hv : v.Renamed ρ v') :
    Repeats (GlobalDecl.decode code table v) (GlobalDecl.decode code table' v') := by
  unfold GlobalDecl.decode
  refine .within (.record (by decide) (by decide) hv ?_)
  rintro ⟨id, origin, name, ty, body⟩ ⟨id', origin', name', ty', body'⟩
    ⟨hid, horigin, hname, hty, hbody⟩
  refine .bind (.of_spanless hid .entityId) fun _ => ?_
  refine .bind (Provenance.decode_repeats htable horigin) fun _ => ?_
  refine .bind (.of_spanless hname (Name.decode_spanless _)) fun _ => ?_
  refine .bind (.of_spanless hty (ErasedTy.decode_spanless _)) fun _ => .last ?_
  exact .optional hbody (Body.decode_repeats htable hcode hbody)

end Bodies

end BorrowIR
