import BorrowIR.Proofs.FileTables
import BorrowIR.Proofs.SpanlessNodes
import BorrowIR.Proofs.StatementGrammar
import BorrowIR.Proofs.TwoRuns

/-!
# Decoding with files missing

What the decoders that are given the files of a crate do when some of the files are gone. Each of
them has the value that it had, if the node does not use a lost file, and fails otherwise.

* `Span.decode_tracks`: a span in a lost file is where the failure arises, and the file is named;
* `Statement.decode_tracks`, `FunDecl.decode_tracks`, `GlobalDecl.decode_tracks`: the failure goes
  up unchanged from bodies and declarations;
* `Json.HidesLoss`: the exception, a type declaration with a lone field (`TypeDecl.decode_hidden`);
  all others pass the failure on (`TypeDecl.decode_tracks`).
-/

namespace BorrowIR

open Decode Outcome

variable {lost : List FileId} {table : FileTable}

/-! ## Spans -/

/-- The file that a span names is the one in its field for the file. -/
theorem Json.namesFile_iff {v file start stop : Json} {id : FileId}
    (h : v.IsRecord [("file_id", file), ("beg", start), ("end", stop)]) :
    v.NamesFile id ↔ (FileId.decode file).Yields id := by
  constructor
  · rintro ⟨file', start', stop', h', hid⟩
    obtain ⟨fields, rfl, hperm⟩ := h
    obtain ⟨fields', heq, hperm'⟩ := h'
    cases heq
    have hmem : ("file_id", file) ∈ [("file_id", file'), ("beg", start'), ("end", stop')] :=
      hperm'.mem_iff.1 (hperm.mem_iff.2 List.mem_cons_self)
    have hfile : file = file' := by simpa using hmem
    rwa [hfile]
  · exact fun hid => ⟨file, start, stop, h, hid⟩

/-- A span uses the file that it names. -/
theorem Json.uses_span {v file start stop : Json} {id named : FileId}
    (h : v.IsRecord [("file_id", file), ("beg", start), ("end", stop)])
    (hfile : (FileId.decode file).Yields named) (hstart : ∀ id, ¬ start.Uses id)
    (hstop : ∀ id, ¬ stop.Uses id) : v.Uses id ↔ named = id := by
  have hnames : v.NamesFile id ↔ _ := Json.namesFile_iff h
  obtain ⟨fields, rfl, hperm⟩ := h
  rw [uses_obj, hnames]
  constructor
  · rintro (hid | ⟨field, hfield, huses⟩)
    · exact hfile.unique hid
    · have hmem := hperm.mem_iff.1 hfield
      simp only [List.mem_cons, List.not_mem_nil, or_false] at hmem
      rcases hmem with rfl | rfl | rfl
      · exact absurd huses ((FileId.decode_spanless file).not_uses hfile id)
      · exact absurd huses (hstart id)
      · exact absurd huses (hstop id)
  · rintro rfl
    exact .inl hfile

/-- A span is lost with its file, and the file is the one that is reported. -/
theorem Span.decode_tracks (v : Json) :
    Tracks lost (Cause.UnknownOf lost) [v] (Span.decode table v)
      (Span.decode (table.without lost) v) := by
  have hkeys : ["file_id", "beg", "end"].Nodup := by decide
  unfold Span.decode
  refine .within (.singleton fun span h => ?_)
  obtain ⟨⟨⟨file, hf⟩, ⟨start, hs⟩, ⟨stop, he⟩⟩, hv, h⟩ := (record_bind hkeys).1 h
  simp only [yields_bind, yields_pure, FileTable.resolve_yields] at h
  obtain ⟨id, hid, name, hname, b, hb, e, he, rfl⟩ := h
  have huses : v.UsesAny lost ↔ id ∈ lost := by
    unfold Json.UsesAny
    simp only [Json.uses_span hv hid ((Loc.decode_spanless start).not_uses hb)
      ((Loc.decode_spanless stop).not_uses he), exists_eq_right']
  rw [huses]
  constructor
  -- the file of the span is kept, and resolved as before
  · intro hkept
    refine (record_bind hkeys).2 ⟨_, hv, ?_⟩
    simp only [yields_bind, yields_pure, FileTable.resolve_yields]
    refine ⟨id, hid, name, ?_, b, hb, e, he, rfl⟩
    rw [FileTable.get?_without, if_neg hkept]
    exact hname
  -- the file is lost, and it is the one that is reported
  · intro hlost
    refine ⟨_, ⟨id, hlost, rfl⟩, fails_bind.2 (.inr ⟨_, (record_yields hkeys).2 hv, ?_⟩)⟩
    refine fails_bind.2 (.inr ⟨id, hid, fails_bind.2 (.inl ?_)⟩)
    unfold FileTable.resolve
    rw [FileTable.get?_without, if_pos hlost]
    exact fails_fail.2 rfl

theorem Provenance.decode_tracks (v : Json) :
    Tracks lost (Cause.UnknownOf lost) [v] (Provenance.decode table v)
      (Provenance.decode (table.without lost) v) := by
  unfold Provenance.decode
  refine .within (.record (by decide) (by decide) fun p => ?_)
  exact .bind (Span.decode_tracks _) fun _ => .last (.optional (Span.decode_tracks _))

/-! ## Statements -/

/-- On nodes of every size, the three decoders of statements run into the lost files. -/
theorem statements_track_of_size (lost : List FileId) (table : FileTable) (n : Nat) :
    ∀ v : Json, sizeOf v = n →
      Tracks lost (Cause.UnknownOf lost) [v] (Statement.decode table v)
        (Statement.decode (table.without lost) v) ∧
      Tracks lost (Cause.UnknownOf lost) [v] (RawStatement.decode table v)
        (RawStatement.decode (table.without lost) v) ∧
      Tracks lost (Cause.UnknownOf lost) [v] (Switch.decode table v)
        (Switch.decode (table.without lost) v) := by
  -- the three decoders call each other on smaller nodes
  induction n using Nat.strongRecOn with
  | ind n ih =>
    rintro v rfl
    have hstatement : ∀ w : Json, sizeOf w < sizeOf v →
        Tracks lost (Cause.UnknownOf lost) [w] (Statement.decode table w)
          (Statement.decode (table.without lost) w) := by
      intro w hw
      exact (ih _ hw w rfl).1
    -- both runs take the same branch of the decoder, as the node is the same
    refine ⟨?_, ?_, ?_⟩
    · rw [Statement.decode, Statement.decode]
      refine .within (.record (by decide) (by decide) fun p => ?_)
      obtain ⟨origin, content, hcontent⟩ := p
      exact .bind (Provenance.decode_tracks _) fun _ => .last (ih _ hcontent _ rfl).2.1
    · rw [RawStatement.decode, RawStatement.decode]
      refine .within (.variant fun t => ?_)
      split
      · exact .of_spanless (.components fun p => .bind (Place.decode_spanless _) fun _ =>
          .last (Rvalue.decode_spanless _))
      · exact .of_spanless (.map (.wrapped Place.decode_spanless))
      · exact .of_spanless (.components fun p => .bind (Place.decode_spanless _) fun _ =>
          .last .entityId)
      · exact .of_spanless (.map (.wrapped Place.decode_spanless))
      · exact .of_spanless (.map (.wrapped Assertion.decode_spanless))
      · exact .of_spanless (.map (.wrapped Call.decode_spanless))
      · exact .nil
      · exact .nil
      · exact .of_spanless (.map (.wrapped fun _ => .natural))
      · exact .of_spanless (.map (.wrapped fun _ => .natural))
      · exact .nil
      · rename_i payload hpayload
        refine .components fun p => ?_
        obtain ⟨⟨first, hfirst⟩, ⟨rest, hrest⟩⟩ := p
        refine .bind (hstatement first (Nat.lt_trans hfirst hpayload)) fun _ => ?_
        exact .last (hstatement rest (Nat.lt_trans hrest hpayload))
      · rename_i payload hpayload
        refine .map (.wrappedBelow ?_ ?_ fun switch hswitch => ?_)
        · rintro field rfl choice; exact Switch.decode_arr [field] choice
        · rintro field rfl choice; exact Switch.decode_arr [field] choice
        · exact (ih _ (Nat.lt_of_le_of_lt hswitch hpayload) switch rfl).2.2
      · rename_i payload hpayload
        refine .map (.wrappedBelow ?_ ?_ fun body hbody => ?_)
        · rintro field rfl s; exact Statement.decode_arr [field] s
        · rintro field rfl s; exact Statement.decode_arr [field] s
        · exact hstatement body (Nat.lt_of_le_of_lt hbody hpayload)
      · exact .fail
    · rw [Switch.decode, Switch.decode]
      refine .within (.variant fun t => ?_)
      split
      · rename_i payload hpayload
        refine .components fun p => ?_
        obtain ⟨test, ⟨thenBranch, hthen⟩, ⟨elseBranch, helse⟩⟩ := p
        refine .bind (.of_spanless (Operand.decode_spanless _)) fun _ => ?_
        refine .bind (hstatement thenBranch (Nat.lt_trans hthen hpayload)) fun _ => ?_
        exact .last (hstatement elseBranch (Nat.lt_trans helse hpayload))
      · rename_i payload hpayload
        refine .components fun p => ?_
        obtain ⟨discr, ty, ⟨branches, hbranches⟩, ⟨otherwise, hotherwise⟩⟩ := p
        refine .bind (.of_spanless (Operand.decode_spanless _)) fun _ => ?_
        refine .bind (.of_spanless (IntTy.decode_spanless _)) fun _ => ?_
        refine .bind (.listBelow fun branch hbranch => ?_) fun _ => .step fun _ => ?_
        · refine .components fun p => ?_
          obtain ⟨values, ⟨body, hbody⟩⟩ := p
          refine .bind (.of_spanless (.list Scalar.decode_spanless)) fun _ => ?_
          have hlt := Nat.lt_trans hbranch (Nat.lt_trans hbranches hpayload)
          exact .last (hstatement body (Nat.lt_trans hbody hlt))
        · exact .last (hstatement otherwise (Nat.lt_trans hotherwise hpayload))
      · rename_i payload hpayload
        refine .components fun p => ?_
        obtain ⟨place, ⟨branches, hbranches⟩, ⟨otherwise, hotherwise⟩⟩ := p
        refine .bind (.of_spanless (Place.decode_spanless _)) fun _ => ?_
        refine .bind (.listBelow fun branch hbranch => ?_) fun _ => ?_
        · refine .components fun p => ?_
          obtain ⟨variants, ⟨body, hbody⟩⟩ := p
          refine .bind (.of_spanless (.list fun _ => .entityId)) fun _ => ?_
          have hlt := Nat.lt_trans hbranch (Nat.lt_trans hbranches hpayload)
          exact .last (hstatement body (Nat.lt_trans hbody hlt))
        · exact .last (hstatement otherwise (Nat.lt_trans hotherwise hpayload))
      · exact .fail

theorem Statement.decode_tracks (v : Json) :
    Tracks lost (Cause.UnknownOf lost) [v] (Statement.decode table v)
      (Statement.decode (table.without lost) v) :=
  (statements_track_of_size lost table _ v rfl).1

/-! ## Declarations -/

/-- A field is a record, so it is never a list. -/
theorem Field.decode_arr (elems : List Json) (field : Field) :
    ¬ (Field.decode table (.arr elems)).Yields field := by
  unfold Field.decode
  rw [yields_within]
  exact record_arr_bind field

theorem Variant.decode_arr (elems : List Json) (variant : Variant) :
    ¬ (Variant.decode table (.arr elems)).Yields variant := by
  unfold Variant.decode
  rw [yields_within]
  exact record_arr_bind variant

/-- A field is lost with the files of its provenance. Its type uses none. -/
theorem Field.decode_tracks (v : Json) :
    Tracks lost (Cause.UnknownOf lost) [v] (Field.decode table v)
      (Field.decode (table.without lost) v) := by
  unfold Field.decode
  refine .within (.record (by decide) (by decide) fun p => ?_)
  refine .bind (Provenance.decode_tracks _) fun _ => .of_spanless ?_
  exact .bind (.optional .string) fun _ => .last (SigTy.decode_spanless _)

/-- A variant is lost with the files of its provenance and of its fields. -/
theorem Variant.decode_tracks (v : Json) :
    Tracks lost (Cause.UnknownOf lost) [v] (Variant.decode table v)
      (Variant.decode (table.without lost) v) := by
  unfold Variant.decode
  refine .within (.record (by decide) (by decide) fun p => ?_)
  refine .bind (Provenance.decode_tracks _) fun _ => .bind (.of_spanless .string) fun _ => ?_
  exact .last (.list Field.decode_tracks)

/-- The one field of the variant is a list that has one element `x`, which is no list, and the field
has no list of its own around it. -/
def Json.LoneField (v x : Json) : Prop :=
  ∃ tag, v = .tagged tag (.arr [x]) ∧ ∀ elems, x ≠ .arr elems

/-- What a type is made of is lost with the files that it uses, unless it is a lone field. That one
would be reported as a list. -/
theorem TypeDeclKind.decode_tracks {v : Json} (h : ∀ x, ¬ v.LoneField x) :
    Tracks lost (Cause.UnknownOf lost) [v] (TypeDeclKind.decode table v)
      (TypeDeclKind.decode (table.without lost) v) := by
  -- a list of one element is the list around the field, since the field is not lone
  have hlone : ∀ {tag : String} {payload : v.Part}, (variant v).Yields ⟨tag, some payload⟩ →
      ∀ x, payload.1 = .arr [x] → ∃ elems, x = .arr elems := by
    intro tag payload hv x hx
    rw [variant_yields_some, hx] at hv
    by_contra hnot
    exact h x ⟨tag, hv, fun elems helems => hnot ⟨elems, helems⟩⟩
  unfold TypeDeclKind.decode
  refine .within (.reader (fun _ ht _ => uses_of_variant ht) fun t ht => ?_)
  split
  · exact .map (.wrapped_list Field.decode_arr Field.decode_arr (hlone ht) Field.decode_tracks)
  · exact .map (.wrapped_list Variant.decode_arr Variant.decode_arr (hlone ht)
      Variant.decode_tracks)
  · exact .nil
  · exact .fail

/-- The failure of the reading that counts is not reported for a lone field. -/
theorem TypeDeclKind.decode_lone {v x : Json} (h : v.LoneField x) :
    Tracks lost (fun c => c = .mismatch .list x) [v] (TypeDeclKind.decode table v)
      (TypeDeclKind.decode (table.without lost) v) := by
  obtain ⟨tag, rfl, hx⟩ := h
  unfold TypeDeclKind.decode
  refine .within (.reader (fun _ ht _ => uses_of_variant ht) fun t ht => ?_)
  have hpayload : ∀ {tag' : String} {payload : (Json.tagged tag (.arr [x])).Part},
      (variant (.tagged tag (.arr [x]))).Yields ⟨tag', some payload⟩ → payload.1 = .arr [x] := by
    intro tag' payload ht
    have heq := variant_yields_some.1 ht
    simp only [Json.tagged, Json.obj.injEq, List.cons.injEq, Prod.mk.injEq, and_true] at heq
    exact heq.2.symm
  split
  · exact .map (.wrapped_list_of_lone (hpayload ht) hx Field.decode_tracks)
  · exact .map (.wrapped_list_of_lone (hpayload ht) hx Variant.decode_tracks)
  · exact .nil
  · exact .fail

/-- **A hidden loss.** A declaration of a type uses lost files in its fields or variants and not in
its provenance, and the fields or variants are one lone field `x`. -/
def Json.HidesLoss (lost : List FileId) (v x : Json) : Prop :=
  (∀ origin ∈ v.field? "meta", ¬ origin.UsesAny lost) ∧
    ∃ kind ∈ v.field? "kind", kind.UsesAny lost ∧ kind.LoneField x

/-- The fields of a type declaration. -/
theorem TypeDecl.field?_of_record {v id origin name regions types hierarchy kind : Json}
    (hv : v.IsRecord [("def_id", id), ("meta", origin), ("name", name), ("region_params", regions),
      ("type_params", types), ("regions_hierarchy", hierarchy), ("kind", kind)]) :
    v.field? "meta" = some origin ∧ v.field? "kind" = some kind := by
  constructor
  · exact hv.field?_eq (by simp) (by simp)
  · exact hv.field?_eq (by simp) (by simp)

/-- A type declaration is lost with the files that it uses, unless the loss is hidden. -/
theorem TypeDecl.decode_tracks {v : Json} (h : ∀ x, ¬ v.HidesLoss lost x) :
    Tracks lost (Cause.UnknownOf lost) [v] (TypeDecl.decode table v)
      (TypeDecl.decode (table.without lost) v) := by
  have hkeys : ["def_id", "meta", "name", "region_params", "type_params", "regions_hierarchy",
    "kind"].Nodup := by decide
  unfold TypeDecl.decode
  refine .within (.reader (fun _ hp _ => uses_of_record hkeys (by decide) hp) fun p hp => ?_)
  obtain ⟨id, ⟨origin, _⟩, name, regions, types, hierarchy, ⟨kind, _⟩⟩ := p
  obtain ⟨horigin, hkind⟩ := TypeDecl.field?_of_record ((record_yields hkeys).1 hp)
  refine .bind (.of_spanless .entityId) fun _ => ?_
  refine .bind_of_not_uses (Provenance.decode_tracks _) fun hmeta _ => ?_
  refine .bind (.of_spanless (Name.decode_spanless _)) fun _ => ?_
  refine .bind (.of_spanless (.list RegionVar.decode_spanless)) fun _ => ?_
  refine .bind (.of_spanless (.list TypeVar.decode_spanless)) fun _ => ?_
  refine .bind (.of_spanless (.list RegionGroup.decode_spanless)) fun _ => ?_
  refine .bind ?_ fun _ => .nil
  by_cases hlone : ∃ x, kind.LoneField x
  · obtain ⟨x, hx⟩ := hlone
    -- nothing is lost in the fields or variants, or else the loss would be hidden
    refine .of_not_uses (TypeDeclKind.decode_lone hx) fun part hpart huses => ?_
    rw [List.mem_singleton] at hpart
    rw [hpart] at huses
    refine h x ⟨fun origin' horigin' => ?_, kind, hkind, huses, hx⟩
    rw [horigin] at horigin'
    cases horigin'
    exact hmeta
  · exact TypeDeclKind.decode_tracks fun x hx => hlone ⟨x, hx⟩

/-- For a hidden loss no file is reported, but a node that is no list. -/
theorem TypeDecl.decode_hidden {v x : Json} (h : v.HidesLoss lost x) :
    Tracks lost (fun c => c = .mismatch .list x) [v] (TypeDecl.decode table v)
      (TypeDecl.decode (table.without lost) v) := by
  have hkeys : ["def_id", "meta", "name", "region_params", "type_params", "regions_hierarchy",
    "kind"].Nodup := by decide
  unfold TypeDecl.decode
  refine .within (.reader (fun _ hp _ => uses_of_record hkeys (by decide) hp) fun p hp => ?_)
  obtain ⟨id, ⟨origin, _⟩, name, regions, types, hierarchy, ⟨kind, _⟩⟩ := p
  obtain ⟨horigin, hkind⟩ := TypeDecl.field?_of_record ((record_yields hkeys).1 hp)
  obtain ⟨hmeta, kind', hkind', -, hlone⟩ := h
  rw [hkind] at hkind'
  -- the provenance keeps its files, so the run gets as far as the fields or variants
  cases hkind'
  refine .bind (.of_spanless .entityId) fun _ => ?_
  have hparts : ∀ part ∈ [origin], ¬ part.UsesAny lost := by
    simpa using hmeta origin horigin
  refine .bind (.of_not_uses (Provenance.decode_tracks _) hparts) fun _ => ?_
  refine .bind (.of_spanless (Name.decode_spanless _)) fun _ => ?_
  refine .bind (.of_spanless (.list RegionVar.decode_spanless)) fun _ => ?_
  refine .bind (.of_spanless (.list TypeVar.decode_spanless)) fun _ => ?_
  refine .bind (.of_spanless (.list RegionGroup.decode_spanless)) fun _ => ?_
  exact .bind (TypeDeclKind.decode_lone hlone) fun _ => .nil

/-! ## Bodies -/

section Bodies

variable {B : Type} {code : BodyReader B}
  (hcode : ∀ v, Tracks lost (Cause.UnknownOf lost) [v] (code table v) (code (table.without lost) v))

include hcode

/-- A body is lost with the files that it uses, if its code is. -/
theorem Body.decode_tracks (v : Json) :
    Tracks lost (Cause.UnknownOf lost) [v] (Body.decode code table v)
      (Body.decode code (table.without lost) v) := by
  unfold Body.decode
  refine .within (.record (by decide) (by decide) fun p => ?_)
  refine .bind (Provenance.decode_tracks _) fun _ => .bind (.of_spanless .natural) fun _ => ?_
  refine .bind (.of_spanless (.list Var.decode_spanless)) fun _ => .step fun _ => ?_
  exact .last (hcode _)

theorem FunDecl.decode_tracks (v : Json) :
    Tracks lost (Cause.UnknownOf lost) [v] (FunDecl.decode code table v)
      (FunDecl.decode code (table.without lost) v) := by
  unfold FunDecl.decode
  refine .within (.record (by decide) (by decide) fun p => ?_)
  refine .bind (.of_spanless .entityId) fun _ => .bind (Provenance.decode_tracks _) fun _ => ?_
  refine .bind (.of_spanless (Name.decode_spanless _)) fun _ => ?_
  refine .bind (.of_spanless (Signature.decode_spanless _)) fun _ => ?_
  exact .last (.optional (Body.decode_tracks hcode _))

theorem GlobalDecl.decode_tracks (v : Json) :
    Tracks lost (Cause.UnknownOf lost) [v] (GlobalDecl.decode code table v)
      (GlobalDecl.decode code (table.without lost) v) := by
  unfold GlobalDecl.decode
  refine .within (.record (by decide) (by decide) fun p => ?_)
  refine .bind (.of_spanless .entityId) fun _ => .bind (Provenance.decode_tracks _) fun _ => ?_
  refine .bind (.of_spanless (Name.decode_spanless _)) fun _ => ?_
  refine .bind (.of_spanless (ErasedTy.decode_spanless _)) fun _ => ?_
  exact .last (.optional (Body.decode_tracks hcode _))

end Bodies

end BorrowIR
