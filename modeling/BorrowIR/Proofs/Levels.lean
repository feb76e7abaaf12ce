import BorrowIR.Crate.Datum
import BorrowIR.Proofs.Ensures
import BorrowIR.Proofs.StatementGrammar

/-!
# How deep decoded values are nested

The object notation counts levels in its own way (`Datum.levels`): an identifier is a level that no
document has, and so is an optional value, while a record is one level in the document and two in
the data. Per container of a document there are at most one and a half levels, up to a constant
that depends on the sort of the value.

* `Datum.Fits d v c`: the datum `d` has at most so many levels, for the depth of the node `v`;
* there is one lemma for each decoder, with a constant of its own.
-/

namespace BorrowIR

open Decode Outcome

namespace Datum

/-- **Levels against depth.** Twice the levels are at most three times the depth of the node, and
`c` more. -/
abbrev Fits (d : Datum) (v : Json) (c : Nat) : Prop := 2 * d.levels ≤ 3 * v.depth + c

theorem elemLevels_le {elems : List Datum} {n : Nat} :
    elemLevels elems ≤ n ↔ ∀ elem ∈ elems, elem.levels + 1 ≤ n := by
  induction elems with
  | nil => simp [elemLevels]
  | cons elem elems ih => rw [elemLevels, Nat.max_le, ih, List.forall_mem_cons]

theorem fieldLevels_le {fields : List (String × Datum)} {n : Nat} :
    fieldLevels fields ≤ n ↔ ∀ field ∈ fields, field.2.levels + 1 ≤ n := by
  induction fields with
  | nil => simp [fieldLevels]
  | cons field fields ih => rw [fieldLevels, Nat.max_le, ih, List.forall_mem_cons]

/-- An entry of a map counts two levels for its key, and one more than its value has. -/
theorem entryLevels_le {entries : List (Nat × Datum)} {n : Nat} :
    entryLevels entries ≤ n ↔ ∀ entry ∈ entries, 2 ≤ n ∧ entry.2.levels + 1 ≤ n := by
  induction entries with
  | nil => simp [entryLevels]
  | cons entry entries ih =>
    rw [entryLevels, Nat.max_le, Nat.max_le, ih, List.forall_mem_cons]

variable {v : Json} {c : Nat}

theorem Fits.mono {d : Datum} {c' : Nat} (h : d.Fits v c) (hle : c ≤ c') : d.Fits v c' := by
  omega

/-- A container is a level, and each of its elements stands one more level down. -/
theorem fits_of_elems {elems : List Datum} {d : Datum} (hd : d.levels = elemLevels elems + 1)
    (hpos : 2 ≤ 3 * v.depth + c) (h : ∀ elem ∈ elems, 2 * elem.levels + 4 ≤ 3 * v.depth + c) :
    d.Fits v c := by
  have hle : elemLevels elems ≤ (3 * v.depth + c) / 2 - 1 := by
    refine elemLevels_le.2 fun elem helem => ?_
    have := h elem helem
    omega
  rw [Fits, hd]
  omega

theorem fits_list {elems : List Datum} (hpos : 2 ≤ 3 * v.depth + c)
    (h : ∀ elem ∈ elems, 2 * elem.levels + 4 ≤ 3 * v.depth + c) : (Datum.list elems).Fits v c :=
  fits_of_elems (levels.eq_def _) hpos h

theorem fits_tuple {elems : List Datum} (hpos : 2 ≤ 3 * v.depth + c)
    (h : elems.Forall fun elem => 2 * elem.levels + 4 ≤ 3 * v.depth + c) :
    (Datum.tuple elems).Fits v c :=
  fits_of_elems (levels.eq_def _) hpos (List.forall_iff_forall_mem.1 h)

theorem fits_variant {name : String} {elems : List Datum} (hpos : 2 ≤ 3 * v.depth + c)
    (h : elems.Forall fun elem => 2 * elem.levels + 4 ≤ 3 * v.depth + c) :
    (Datum.variant name elems).Fits v c :=
  fits_of_elems (levels.eq_def _) hpos (List.forall_iff_forall_mem.1 h)

/-- A record is a level, and each of its fields stands one more level down. -/
theorem fits_record {fields : List (String × Datum)} (hpos : 2 ≤ 3 * v.depth + c)
    (h : fields.Forall fun field => 2 * field.2.levels + 4 ≤ 3 * v.depth + c) :
    (Datum.record fields).Fits v c := by
  rw [List.forall_iff_forall_mem] at h
  have hle : fieldLevels fields ≤ (3 * v.depth + c) / 2 - 1 := by
    refine fieldLevels_le.2 fun field hfield => ?_
    have := h field hfield
    omega
  rw [Fits, levels]
  omega

/-- The keys of a map are identifiers, so an entry is three levels at least. -/
theorem fits_map {entries : List (Nat × Datum)} (hpos : 6 ≤ 3 * v.depth + c)
    (h : ∀ entry ∈ entries, 2 * entry.2.levels + 4 ≤ 3 * v.depth + c) :
    (Datum.map entries).Fits v c := by
  have hle : entryLevels entries ≤ (3 * v.depth + c) / 2 - 1 := by
    refine entryLevels_le.2 fun entry hentry => ?_
    have := h entry hentry
    omega
  rw [Fits, levels]
  omega

end Datum

/-! ## Readers of nodes -/

variable {α : Type} {v : Json} {datum : α → Datum} {c : Nat}

/-- An identifier is one level in the data, and none in the document. -/
theorem EntityId.levels_datum {sort : Entity} (id : EntityId sort) : id.datum.levels = 1 := rfl

theorem EntityId.fits {sort : Entity} (id : EntityId sort) : id.datum.Fits v 2 := by
  rw [Datum.Fits, levels_datum]
  omega

theorem Decode.entityId_fits {sort : Entity} (v : Json) :
    Ensures (entityId v) fun id : EntityId sort => id.datum.Fits v 2 :=
  .always EntityId.fits

/-- What has no levels fits every node. -/
theorem Datum.fits_of_levels_eq_zero {d : Datum} (h : d.levels = 0) : d.Fits v c := by
  rw [Fits, h]
  omega

/-- What is written by its tag alone has no levels. -/
theorem Datum.fits_tag {name : String} : (Datum.tag name).Fits v c := fits_of_levels_eq_zero rfl

/-- The payload of a variant with one field is one container down. -/
theorem Decode.wrapped_fits {β : Type} {name : String} {payload : Json}
    {decode : Json → Outcome α} {f : α → β} {datum' : β → Datum}
    (hdatum : ∀ a, datum' (f a) = .wrapped name (datum a)) (hpayload : payload.depth < v.depth)
    (h : ∀ field, Ensures (decode field) fun a => (datum a).Fits field (c + 1)) :
    Ensures (f <$> wrapped decode payload) fun b => (datum' b).Fits v c := by
  refine .map (.wrapped fun field hfield => (h field).mono fun a ha => ?_)
  rw [hdatum, Datum.Fits, Datum.levels]
  omega

/-- An optional value is one level more than the value. -/
theorem Datum.levels_ofOption_le {n : Nat} (h : ∀ a, (datum a).levels ≤ n) (o : Option α) :
    (Datum.ofOption datum o).levels ≤ n + 1 := by
  cases o with
  | none => exact Nat.zero_le _
  | some a => exact Nat.succ_le_succ (h a)

/-- A name that may be missing is one level. -/
theorem Datum.levels_ofOption_str (name : Option String) :
    (Datum.ofOption Datum.str name).levels ≤ 1 :=
  levels_ofOption_le (fun _ => Nat.le_refl 0) name

/-- An identifier that may be missing is two levels. -/
theorem EntityId.levels_ofOption {sort : Entity} (id : Option (EntityId sort)) :
    (Datum.ofOption EntityId.datum id).levels ≤ 2 :=
  Datum.levels_ofOption_le (fun id => Nat.le_of_eq id.levels_datum) id

/-- An optional value has one level more than the value, for the word that says that it is there. -/
theorem Decode.optional_fits {decode : Json → Outcome α}
    (h : Ensures (decode v) fun a => (datum a).Fits v c) :
    Ensures (optional decode v) fun a => (Datum.ofOption datum a).Fits v (c + 2) := by
  refine .optional ?_ (h.mono fun a ha => ?_)
  · rw [Datum.ofOption, Datum.Fits, Datum.levels]
    omega
  · rw [Datum.ofOption, Datum.Fits, Datum.levels]
    omega

/-- A list is a container, in the document and in the data. -/
theorem Datum.fits_ofList {vs : List Json} {as : List α}
    (h : List.Forall₂ (fun v a => (datum a).Fits v c) vs as) :
    (Datum.ofList datum as).Fits (.arr vs) (c + 1) := by
  refine Datum.fits_list (by rw [Json.depth]; omega) fun elem helem => ?_
  obtain ⟨a, ha, rfl⟩ := List.mem_map.1 helem
  obtain ⟨i, hi, rfl⟩ := List.getElem_of_mem ha
  have hi' : i < vs.length := by rwa [h.length_eq]
  have hlt := Json.depth_lt_of_mem_arr (List.getElem_mem hi')
  have hle : (datum as[i]).Fits vs[i] c := h.get hi' hi
  omega

/-- A list is a level in the data and a container in the document. -/
theorem Decode.list_fits {decode : Json → Outcome α}
    (h : ∀ part, Ensures (decode part) fun a => (datum a).Fits part c) (v : Json) :
    Ensures (list decode v) fun as => (Datum.ofList datum as).Fits v (c + 1) := by
  intro as has
  obtain ⟨vs, rfl, hall⟩ := list_yields.1 has
  exact Datum.fits_ofList (hall.imp fun part a ha => h part a ha)

/-! ## Source places and names -/

theorem FileName.levels_datum (name : FileName) : name.datum.levels = 1 := by
  cases name <;> rfl

/-- A span has four levels, whatever it holds. -/
theorem Span.levels_datum (span : Span) : span.datum.levels = 4 := by
  simp [Span.datum, Loc.datum, Datum.levels, Datum.fieldLevels, FileName.levels_datum]

/-- A span is a record, and its two ends are records in it. -/
theorem Span.decode_depth (table : FileTable) (v : Json) :
    Ensures (Span.decode table v) fun _ => 2 ≤ v.depth := by
  unfold Span.decode
  refine .within (.record (by decide) fun ⟨file, start, stop⟩ ⟨hfile, hstart, hstop⟩ => ?_)
  have hloc : Ensures (Loc.decode start.1) fun _ => 1 ≤ start.1.depth := by
    unfold Loc.decode
    refine .within (.record (by decide) fun ⟨line, col⟩ ⟨hline, hcol⟩ => ?_)
    exact .skip fun _ => .skip fun _ => .pure (by omega)
  refine .skip fun _ => .skip fun _ => .bind hloc fun _ hpos => .skip fun _ => .pure ?_
  omega

theorem Provenance.decode_fits (table : FileTable) (v : Json) :
    Ensures (Provenance.decode table v) fun origin => origin.datum.Fits v 5 := by
  unfold Provenance.decode
  refine .within (.record (by decide) fun ⟨span, source⟩ ⟨hspan, hsource⟩ => ?_)
  refine .bind (Span.decode_depth table _) fun s hdepth => .skip fun generated => .pure ?_
  have hlevels : (Datum.ofOption Span.datum generated).levels ≤ 5 :=
    Datum.levels_ofOption_le (fun span => Nat.le_of_eq (Span.levels_datum span)) generated
  refine Datum.fits_record (by omega) ?_
  simp only [List.Forall, Span.levels_datum]
  omega

theorem Name.decode_fits (v : Json) :
    Ensures (Name.decode v) fun name => name.datum.Fits v 5 := by
  have helem : ∀ part, Ensures (PathElem.decode part) fun elem => elem.datum.Fits part 0 := by
    intro part
    unfold PathElem.decode
    refine .variant fun t ht => ?_
    have hlevels : ∀ elem : PathElem, elem.datum.levels = 1 := by
      intro elem
      cases elem <;> rfl
    split
    · have hpart := ht _ rfl
      exact .map (.always fun _ => by rw [Datum.Fits, hlevels]; omega)
    · have hpart := ht _ rfl
      exact .map (.always fun _ => by rw [Datum.Fits, hlevels]; omega)
    · exact .fail
  unfold Name.decode
  refine .within (.bind ((list_fits helem v).and .list_depth) fun elems ⟨helems, hpos⟩ => .pure ?_)
  refine Datum.fits_record (by omega) ?_
  simp only [List.Forall]
  omega

/-! ## Types -/

theorem Region.decode_fits (v : Json) :
    Ensures (Region.decode v) fun region => region.datum.Fits v 1 := by
  unfold Region.decode
  refine .within (.variant fun t ht => ?_)
  split
  · exact .pure Datum.fits_tag
  · exact wrapped_fits (fun _ => rfl) (ht _ rfl) entityId_fits
  · exact .fail

theorem ErasedRegion.decode_fits (v : Json) :
    Ensures (ErasedRegion.decode v) fun region => region.datum.Fits v 0 :=
  .always fun _ => Datum.fits_tag

theorem TypeHead.decode_fits (v : Json) :
    Ensures (TypeHead.decode v) fun head => head.datum.Fits v 1 := by
  unfold TypeHead.decode
  refine .within (.variant fun t ht => ?_)
  split
  · exact wrapped_fits (fun _ => rfl) (ht _ rfl) entityId_fits
  · exact .pure Datum.fits_tag
  · exact wrapped_fits (fun _ => rfl) (ht _ rfl) fun _ => .always fun _ => Datum.fits_tag
  · exact .fail

/-- The data of several types are those of the types one by one. -/
theorem Ty.dataWith_eq_map {R : Type} (region : R → Datum) (types : List (Ty R)) :
    Ty.dataWith region types = types.map (Ty.datumWith region) := by
  induction types with
  | nil => rfl
  | cons ty types ih => rw [Ty.dataWith, ih, List.map_cons]

/-- A variant with a payload is one level, and its payload is one container down. -/
theorem Json.depth_tagged {tag : String} {payload : Json} :
    (Json.tagged tag payload).depth = payload.depth + 1 := by
  rw [Json.tagged, Json.depth, Json.fieldDepth, Json.fieldDepth, Nat.max_zero]

/-- A field is not deeper than the payload that it stands in. -/
theorem Json.depth_le_packed (own : Bool) (field : Json) :
    field.depth ≤ (Json.packed own field).depth := by
  cases own with
  | false => exact Nat.le_refl _
  | true => exact Nat.le_of_lt (Json.depth_lt_of_mem_arr List.mem_cons_self)

/-- The one field of a variant is one level down in the data, and one or two containers in the
document. -/
theorem Datum.fits_wrapped_tagged {name tag : String} {own : Bool} {field : Json} {d : Datum}
    (h : d.Fits field (c + 1)) :
    (Datum.wrapped name d).Fits (.tagged tag (.packed own field)) c := by
  have hle := Json.depth_le_packed own field
  rw [Fits, levels, Json.depth_tagged]
  omega

/-- A variant with several fields is two levels, and so is the list of the fields in its payload. -/
theorem Datum.fits_variant_tagged {name tag : String} {ws : List Json} {ds : List Datum}
    (h : List.Forall₂ (fun w d => d.Fits w (c + 2)) ws ds) :
    (Datum.variant name ds).Fits (.tagged tag (.arr ws)) c := by
  refine Datum.fits_variant (by rw [Json.depth_tagged]; omega) ?_
  refine List.forall_iff_forall_mem.2 fun d hd => ?_
  obtain ⟨i, hi, rfl⟩ := List.getElem_of_mem hd
  have hi' : i < ws.length := by rwa [h.length_eq]
  have hlt := Json.depth_lt_of_mem_arr (List.getElem_mem hi')
  have hle : ds[i].Fits ws[i] (c + 2) := h.get hi' hi
  rw [Json.depth_tagged]
  omega

/-- A type fits its document if its regions do, at every depth. -/
theorem Ty.decode_fits {R : Type} {region : Json → Outcome R} {rd : R → Datum}
    (hregion : ∀ v, Ensures (region v) fun r => (rd r).Fits v 1) (v : Json) :
    Ensures (Ty.decode region v) fun ty => (ty.datumWith rd).Fits v 1 := by
  -- by induction on the size of the node, one case for each tag of a type
  induction hn : sizeOf v using Nat.strongRecOn generalizing v with
  | ind n ih =>
    subst hn
    intro ty h
    cases Ty.reading_of_decode h with
    | @app w rs ts head regions types hhead hrs hts _ =>
      have hhead := TypeHead.decode_fits _ _ hhead
      have hrs := Datum.fits_ofList (hrs.imp fun r a ha => hregion r a ha)
      have hts : List.Forall₂ (fun t ty => (Ty.datumWith rd ty).Fits t 1) ts types := by
        refine List.forall₂_iff_zip.2 ⟨hts.length_eq, fun {t ty} hmem => ?_⟩
        have hty := (List.forall₂_iff_zip.1 hts).2 hmem
        exact ih _ (sizeOf_lt_app (List.of_mem_zip hmem).1) t rfl ty hty
      have hts := Datum.fits_ofList hts
      rw [Datum.ofList, ← Ty.dataWith_eq_map] at hts
      exact Datum.fits_variant_tagged (.cons (hhead.mono (by omega))
        (.cons (hrs.mono (by omega)) (.cons (hts.mono (by omega)) .nil)))
    | var _ => exact Datum.fits_wrapped_tagged (EntityId.fits _)
    | bool | char | never | str => exact Datum.fits_tag
    | int => exact Datum.fits_wrapped_tagged Datum.fits_tag
    | array helem | slice helem =>
      have helem := ih _ (Json.sizeOf_lt_tagged_packed _ _ _) _ rfl _ helem
      exact Datum.fits_wrapped_tagged (helem.mono (by omega))
    | ref hlifetime htarget =>
      have hlifetime := hregion _ _ hlifetime
      have htarget := ih _ sizeOf_lt_ref _ rfl _ htarget
      exact Datum.fits_variant_tagged (.cons (hlifetime.mono (by omega))
        (.cons (htarget.mono (by omega)) (.cons Datum.fits_tag .nil)))

theorem SigTy.decode_fits (v : Json) :
    Ensures (SigTy.decode v) fun ty => (SigTy.datum ty).Fits v 1 :=
  Ty.decode_fits Region.decode_fits v

theorem ErasedTy.decode_fits (v : Json) :
    Ensures (ErasedTy.decode v) fun ty => (ErasedTy.datum ty).Fits v 1 :=
  Ty.decode_fits (fun w => (ErasedRegion.decode_fits w).mono fun _ h => h.mono (by omega)) v

/-! ## Literals and expressions -/

theorem Scalar.levels_datum (scalar : Scalar) : scalar.datum.levels = 1 := rfl

theorem Literal.decode_fits (v : Json) :
    Ensures (Literal.decode v) fun value => value.datum.Fits v 1 := by
  unfold Literal.decode
  refine .within (.variant fun t ht => ?_)
  split
  · refine wrapped_fits (fun _ => rfl) (ht _ rfl) fun _ => .always fun scalar => ?_
    rw [Datum.Fits, Scalar.levels_datum]
    omega
  · exact wrapped_fits (fun _ => rfl) (ht _ rfl) fun _ =>
      .always fun _ => Datum.fits_of_levels_eq_zero rfl
  · exact wrapped_fits (fun _ => rfl) (ht _ rfl) fun _ =>
      .always fun _ => Datum.fits_of_levels_eq_zero rfl
  · exact wrapped_fits (fun _ => rfl) (ht _ rfl) fun _ =>
      .always fun _ => Datum.fits_of_levels_eq_zero rfl
  · exact .fail

theorem FieldOwner.decode_fits (v : Json) :
    Ensures (FieldOwner.decode v) fun owner => owner.datum.Fits v 2 := by
  unfold FieldOwner.decode
  refine .within (.variant fun t ht => ?_)
  split
  · rename_i payload
    have hpayload := ht payload rfl
    refine .components fun ⟨a, b⟩ ⟨ha, hb⟩ => .skip fun id => .skip fun variant => .pure ?_
    have hvariant := EntityId.levels_ofOption variant
    refine Datum.fits_variant (by omega) ?_
    simp only [List.Forall, EntityId.levels_datum]
    omega
  · exact wrapped_fits (fun _ => rfl) (ht _ rfl) fun _ =>
      .always fun _ => Datum.fits_of_levels_eq_zero rfl
  · exact wrapped_fits (fun _ => rfl) (ht _ rfl) fun _ =>
      (entityId_fits _).mono fun _ hid => hid.mono (by omega)
  · exact .fail

theorem Projection.decode_fits (v : Json) :
    Ensures (Projection.decode v) fun projection => projection.datum.Fits v 0 := by
  unfold Projection.decode
  refine .within (.variant fun t ht => ?_)
  split
  · exact .pure Datum.fits_tag
  · exact .pure Datum.fits_tag
  · rename_i payload
    have hpayload := ht payload rfl
    refine .components fun ⟨a, b⟩ ⟨ha, hb⟩ => ?_
    refine .bind (FieldOwner.decode_fits _) fun owner howner => .skip fun id => ?_
    refine .pure (Datum.fits_variant (by omega) ?_)
    simp only [List.Forall, EntityId.levels_datum]
    omega
  · exact .fail

theorem Place.decode_fits (v : Json) :
    Ensures (Place.decode v) fun place => place.datum.Fits v 2 := by
  unfold Place.decode
  refine .within (.record (by decide) fun ⟨a, b⟩ ⟨ha, hb⟩ => .skip fun var => ?_)
  refine .bind ((list_fits Projection.decode_fits _).and .list_depth) ?_
  intro projections ⟨hle, hpos⟩
  refine .pure (Datum.fits_record (by omega) ?_)
  simp only [List.Forall, EntityId.levels_datum]
  omega

theorem Constant.decode_fits (v : Json) :
    Ensures (Constant.decode v) fun value => value.datum.Fits v 1 := by
  unfold Constant.decode
  refine .within (.variant fun t ht => ?_)
  split
  · exact wrapped_fits (fun _ => rfl) (ht _ rfl) fun _ =>
      (Literal.decode_fits _).mono fun _ h => h.mono (by omega)
  · exact wrapped_fits (fun _ => rfl) (ht _ rfl) entityId_fits
  · exact .pure Datum.fits_tag
  · exact .fail

theorem Operand.decode_fits (v : Json) :
    Ensures (Operand.decode v) fun operand => operand.datum.Fits v 1 := by
  unfold Operand.decode
  refine .within (.variant fun t ht => ?_)
  split
  · exact wrapped_fits (fun _ => rfl) (ht _ rfl) Place.decode_fits
  · exact wrapped_fits (fun _ => rfl) (ht _ rfl) Place.decode_fits
  · rename_i payload
    have hpayload := ht payload rfl
    refine .components fun ⟨a, b⟩ ⟨ha, hb⟩ => .bind (ErasedTy.decode_fits _) fun ty hty => ?_
    refine .bind (Constant.decode_fits _) fun value hvalue => ?_
    refine .pure (Datum.fits_variant (by omega) ?_)
    simp only [List.Forall]
    omega
  · exact .fail

theorem AggregateKind.decode_fits (v : Json) :
    Ensures (AggregateKind.decode v) fun kind => kind.datum.Fits v 0 := by
  unfold AggregateKind.decode
  refine .within (.variant fun t ht => ?_)
  split
  · exact .pure Datum.fits_tag
  · rename_i payload
    have hpayload := ht payload rfl
    refine .components fun ⟨a, b⟩ ⟨ha, hb⟩ => .skip fun variant => ?_
    refine .bind (ErasedTy.decode_fits _) fun content hcontent => ?_
    refine .pure (Datum.fits_variant (by omega) ?_)
    simp only [List.Forall, EntityId.levels_datum]
    omega
  · rename_i payload
    have hpayload := ht payload rfl
    refine .components fun ⟨a, b, c, d⟩ ⟨ha, hb, hc, hd⟩ => .skip fun id => .skip fun variant => ?_
    have hvariant := EntityId.levels_ofOption variant
    refine .bind ((list_fits ErasedRegion.decode_fits _).and .list_depth) ?_
    intro regions ⟨hregions, hpos⟩
    refine .bind (list_fits ErasedTy.decode_fits _) fun types htypes => ?_
    refine .pure (Datum.fits_variant (by omega) ?_)
    simp only [List.Forall, EntityId.levels_datum]
    omega
  · exact .fail

theorem Rvalue.decode_fits (v : Json) :
    Ensures (Rvalue.decode v) fun value => value.datum.Fits v 1 := by
  unfold Rvalue.decode
  refine .within (.variant fun t ht => ?_)
  split
  · exact wrapped_fits (fun _ => rfl) (ht _ rfl) fun _ =>
      (Operand.decode_fits _).mono fun _ h => h.mono (by omega)
  · rename_i payload
    have hpayload := ht payload rfl
    refine .components fun ⟨a, b⟩ ⟨ha, hb⟩ => .bind (Place.decode_fits _) fun place hplace => ?_
    refine .skip fun kind => .pure (Datum.fits_variant (by omega) ?_)
    simp only [List.Forall, BorrowKind.datum, Datum.levels]
    omega
  · rename_i payload
    have hpayload := ht payload rfl
    refine .components fun ⟨a, b⟩ ⟨ha, hb⟩ => .skip fun op => ?_
    refine .bind (Operand.decode_fits _) fun operand hoperand => ?_
    refine .pure (Datum.fits_variant (by omega) ?_)
    simp only [List.Forall, UnOp.datum, Datum.levels]
    omega
  · rename_i payload
    have hpayload := ht payload rfl
    refine .components fun ⟨a, b, c⟩ ⟨ha, hb, hc⟩ => .skip fun op => ?_
    refine .bind (Operand.decode_fits _) fun left hleft => ?_
    refine .bind (Operand.decode_fits _) fun right hright => ?_
    refine .pure (Datum.fits_variant (by omega) ?_)
    simp only [List.Forall, BinOp.datum, Datum.levels]
    omega
  · exact wrapped_fits (fun _ => rfl) (ht _ rfl) Place.decode_fits
  · exact wrapped_fits (fun _ => rfl) (ht _ rfl) entityId_fits
  · rename_i payload
    have hpayload := ht payload rfl
    refine .components fun ⟨a, b⟩ ⟨ha, hb⟩ => ?_
    refine .bind (AggregateKind.decode_fits _) fun kind hkind => ?_
    refine .bind (list_fits Operand.decode_fits _) fun operands hoperands => ?_
    refine .pure (Datum.fits_variant (by omega) ?_)
    simp only [List.Forall]
    omega
  · exact .fail

end BorrowIR
