import BorrowIR.Crate.Decode
import BorrowIR.Proofs.CrateMaps
import BorrowIR.Proofs.Levels
import BorrowIR.Proofs.Occurrence

/-!
# How deep decoded crates are nested

* `Statement.decode_fits`: the levels of a statement, for the depth of its node;
* `Crate.decode_fits`: the levels of a crate, for the depth of its document.
-/

namespace BorrowIR

open Decode Outcome Wire

/-! ## Statements -/

theorem Callee.decode_fits (v : Json) :
    Ensures (Callee.decode v) fun callee => callee.datum.Fits v 1 := by
  unfold Callee.decode
  refine .within (.variant fun t ht => ?_)
  split
  · exact wrapped_fits (fun _ => rfl) (ht _ rfl) entityId_fits
  · exact wrapped_fits (fun _ => rfl) (ht _ rfl) fun _ => .always fun _ => Datum.fits_tag
  · exact .fail

theorem Call.decode_fits (v : Json) :
    Ensures (Call.decode v) fun call => call.datum.Fits v 3 := by
  unfold Call.decode
  refine .within (.record (by decide) fun ⟨a, b, c, d, e⟩ ⟨ha, hb, hc, hd, he⟩ => ?_)
  refine .bind (Callee.decode_fits _) fun callee hcallee => ?_
  refine .bind (list_fits ErasedRegion.decode_fits _) fun regions hregions => ?_
  refine .bind (list_fits ErasedTy.decode_fits _) fun types htypes => ?_
  refine .bind (list_fits Operand.decode_fits _) fun args hargs => ?_
  refine .bind (Place.decode_fits _) fun dest hdest => .pure (Datum.fits_record (by omega) ?_)
  simp only [List.Forall]
  omega

theorem Assertion.decode_fits (v : Json) :
    Ensures (Assertion.decode v) fun assertion => assertion.datum.Fits v 2 := by
  unfold Assertion.decode
  refine .within (.record (by decide) fun ⟨a, b⟩ ⟨ha, hb⟩ => ?_)
  refine .bind (Operand.decode_fits _) fun cond hcond => .skip fun expected => ?_
  refine .pure (Datum.fits_record (by omega) ?_)
  simp only [List.Forall, Datum.levels]
  omega

/-- What a statement does has the levels of the statements, switches and expressions in it. -/
theorem RawStatement.Form.fits {v : Json} {content : RawStatement} {p : Packing}
    (h : Form (fun s _ w => s.datum.Fits w 6) (fun choice _ w => choice.datum.Fits w 6)
      content p v) : content.datum.Fits v 5 := by
  cases h with
  | assign hdest hvalue =>
    have hdest := Place.decode_fits _ _ hdest
    have hvalue := Rvalue.decode_fits _ _ hvalue
    exact Datum.fits_variant_tagged (.cons (hdest.mono (by omega))
      (.cons (hvalue.mono (by omega)) .nil))
  | fakeRead hplace | drop hplace =>
    have hplace := Place.decode_fits _ _ hplace
    exact Datum.fits_wrapped_tagged (hplace.mono (by omega))
  | @setDiscriminant _ _ variant _ _ hplace _ =>
    have hplace := Place.decode_fits _ _ hplace
    exact Datum.fits_variant_tagged (.cons (hplace.mono (by omega))
      (.cons (variant.fits.mono (by omega)) .nil))
  | assert hassertion =>
    have hassertion := Assertion.decode_fits _ _ (Assertion.decode_iff.2 hassertion)
    exact Datum.fits_wrapped_tagged (hassertion.mono (by omega))
  | call htarget =>
    have htarget := Call.decode_fits _ _ (Call.decode_iff.2 ⟨_, htarget⟩)
    exact Datum.fits_wrapped_tagged (htarget.mono (by omega))
  | «break» | «continue» => exact Datum.fits_wrapped_tagged (Datum.fits_of_levels_eq_zero rfl)
  | panic | «return» | nop => exact Datum.fits_tag
  | sequence hfirst hrest =>
    exact Datum.fits_variant_tagged (.cons (hfirst.mono (by omega))
      (.cons (hrest.mono (by omega)) .nil))
  | switch hchoice => exact Datum.fits_wrapped_tagged hchoice
  | loop hbody => exact Datum.fits_wrapped_tagged hbody

/-- A branch is two levels above its body, and one container. -/
theorem Branch.fits {L : Type} {datum : L → Datum} {label : L → Packing → Json → Prop}
    {labels : List L} {s : Statement} {p : Packing} {v : Json}
    (hlabel : ∀ l q v, label l q v → (datum l).Fits v 2)
    (h : Branch.Form label (fun s _ w => s.datum.Fits w 6) (labels, s) p v) :
    (Datum.tuple [.ofList datum labels, s.datum]).Fits v 7 := by
  cases h with
  | @mk _ _ _ ls w hls hs =>
    have hls := Datum.fits_ofList (hls.forall₂.imp fun v l ⟨q, hl⟩ => hlabel l q v hl)
    -- two levels count for four, and the container for three, so the constant grows by one
    have hlabels : (Json.arr ls).depth < (Json.arr [.arr ls, w]).depth :=
      Json.depth_lt_of_mem_arr List.mem_cons_self
    have hbody : w.depth < (Json.arr [.arr ls, w]).depth :=
      Json.depth_lt_of_mem_arr (List.mem_cons_of_mem _ List.mem_cons_self)
    refine Datum.fits_tuple (by omega) ?_
    simp only [List.Forall]
    omega

/-- A branch is a pair in the data and a list in the document. -/
theorem Branch.list_fits {L : Type} {datum : L → Datum} {label : L → Packing → Json → Prop}
    {branches : List (List L × Statement)} {p : Packing} {bs : List Json}
    (hlabel : ∀ l q v, label l q v → (datum l).Fits v 2)
    (h : Each (Branch.Form label fun s _ w => s.datum.Fits w 6) branches p bs) :
    (Datum.ofList (fun branch => .tuple [.ofList datum branch.1, branch.2.datum])
      branches).Fits (.arr bs) 8 := by
  refine Datum.fits_ofList (h.forall₂.imp ?_)
  rintro b ⟨labels, s⟩ ⟨q, hb⟩
  exact Branch.fits hlabel hb

theorem valueBranchData_eq_map (branches : List (List Scalar × Statement)) :
    valueBranchData branches =
      branches.map fun branch => .tuple [.ofList Scalar.datum branch.1, branch.2.datum] := by
  induction branches with
  | nil => rfl
  | cons branch branches ih => rw [valueBranchData, ih, List.map_cons]

theorem variantBranchData_eq_map (branches : List (List VariantId × Statement)) :
    variantBranchData branches =
      branches.map fun branch => .tuple [.ofList EntityId.datum branch.1, branch.2.datum] := by
  induction branches with
  | nil => rfl
  | cons branch branches ih => rw [variantBranchData, ih, List.map_cons]

/-- A switch has the levels of its branches, and of the statement for all other cases. -/
theorem Switch.Form.fits {v : Json} {choice : Switch} {p : Packing}
    (h : Form (fun s _ w => s.datum.Fits w 6) choice p v) : choice.datum.Fits v 6 := by
  cases h with
  | cond htest ht he =>
    have htest := Operand.decode_fits _ _ htest
    exact Datum.fits_variant_tagged (.cons (htest.mono (by omega))
      (.cons (ht.mono (by omega)) (.cons (he.mono (by omega)) .nil)))
  | values hdiscr hbs _ ho =>
    have hdiscr := Operand.decode_fits _ _ hdiscr
    -- a label is no deeper than two levels, whatever its node is
    have hscalar : ∀ (scalar : Scalar) (q : Packing) (w : Json), scalar.Wire q w →
        scalar.datum.Fits w 2 := by
      intro scalar q w _
      rw [Datum.Fits, Scalar.levels_datum]
      omega
    have hbs := Branch.list_fits hscalar hbs
    rw [Datum.ofList, ← valueBranchData_eq_map] at hbs
    exact Datum.fits_variant_tagged (.cons (hdiscr.mono (by omega))
      (.cons Datum.fits_tag (.cons hbs (.cons (ho.mono (by omega)) .nil))))
  | variants hplace hbs ho =>
    have hplace := Place.decode_fits _ _ hplace
    have hbs := Branch.list_fits (fun id _ _ _ => id.fits) hbs
    rw [Datum.ofList, ← variantBranchData_eq_map] at hbs
    exact Datum.fits_variant_tagged (.cons (hplace.mono (by omega))
      (.cons hbs (.cons (ho.mono (by omega)) .nil)))

/-- **Levels of statements.** -/
theorem Statement.decode_fits (table : FileTable) (v : Json) :
    Ensures (Statement.decode table v) fun s => s.datum.Fits v 6 := by
  -- a bound for each of the three sorts of nodes that contain one another
  refine Statement.decode_induction
    (P := fun w s => s.datum.Fits w 6)
    (Q := fun w content => content.datum.Fits w 5)
    (S := fun w choice => choice.datum.Fits w 6) ?_ ?_ ?_ v
  · intro v s p _ h
    cases h with
    | @mk _ origin content _ o c hv ho hc =>
      have horigin := Provenance.decode_fits table _ _ (Provenance.decode_iff.2 ⟨_, ho⟩)
      have hmeta : o.depth < v.depth := hv.depth_lt List.mem_cons_self
      have hcontent : c.depth < v.depth :=
        hv.depth_lt (List.mem_cons_of_mem _ List.mem_cons_self)
      refine Datum.fits_record (by omega) ?_
      simp only [List.Forall]
      omega
  · intro v content p h
    exact h.fits
  · intro v choice p h
    exact h.fits

/-! ## Declarations -/

theorem RegionVar.decode_fits (v : Json) :
    Ensures (RegionVar.decode v) fun param => param.datum.Fits v 3 := by
  unfold RegionVar.decode
  refine .within (.record (by decide) fun ⟨a, b⟩ ⟨ha, hb⟩ => .skip fun id => .skip fun name => ?_)
  have hname := Datum.levels_ofOption_str name
  refine .pure (Datum.fits_record (by omega) ?_)
  simp only [List.Forall, EntityId.levels_datum]
  omega

theorem TypeVar.decode_fits (v : Json) :
    Ensures (TypeVar.decode v) fun param => param.datum.Fits v 3 := by
  unfold TypeVar.decode
  refine .within (.record (by decide) fun ⟨a, b⟩ ⟨ha, hb⟩ => .skip fun id => .skip fun name => ?_)
  refine .pure (Datum.fits_record (by omega) ?_)
  simp only [List.Forall, EntityId.levels_datum, Datum.levels]
  omega

theorem RegionGroup.decode_fits (v : Json) :
    Ensures (RegionGroup.decode v) fun group => group.datum.Fits v 4 := by
  unfold RegionGroup.decode
  refine .within (.record (by decide) fun ⟨a, b, c⟩ ⟨ha, hb, hc⟩ => .skip fun id => ?_)
  refine .bind (list_fits entityId_fits _) fun regions hregions => ?_
  refine .bind (list_fits entityId_fits _) fun parents hparents => ?_
  refine .pure (Datum.fits_record (by omega) ?_)
  simp only [List.Forall, EntityId.levels_datum]
  omega

theorem Field.decode_fits (table : FileTable) (v : Json) :
    Ensures (Field.decode table v) fun field => field.datum.Fits v 6 := by
  unfold Field.decode
  refine .within (.record (by decide) fun ⟨a, b, c⟩ ⟨ha, hb, hc⟩ => ?_)
  refine .bind (Provenance.decode_fits table _) fun origin horigin => .skip fun name => ?_
  have hname := Datum.levels_ofOption_str name
  refine .bind (SigTy.decode_fits _) fun ty hty => .pure (Datum.fits_record (by omega) ?_)
  simp only [List.Forall]
  omega

theorem Variant.decode_fits (table : FileTable) (v : Json) :
    Ensures (Variant.decode table v) fun variant => variant.datum.Fits v 8 := by
  unfold Variant.decode
  refine .within (.record (by decide) fun ⟨a, b, c⟩ ⟨ha, hb, hc⟩ => ?_)
  refine .bind (Provenance.decode_fits table _) fun origin horigin => .skip fun name => ?_
  refine .bind (list_fits (Field.decode_fits table) _) fun fields hfields => ?_
  refine .pure (Datum.fits_record (by omega) ?_)
  simp only [List.Forall, Datum.levels]
  omega

theorem TypeDeclKind.decode_fits (table : FileTable) (v : Json) :
    Ensures (TypeDeclKind.decode table v) fun kind => kind.datum.Fits v 8 := by
  unfold TypeDeclKind.decode
  refine .within (.variant fun t ht => ?_)
  split
  · exact wrapped_fits (fun _ => rfl) (ht _ rfl) fun part =>
      (list_fits (Field.decode_fits table) part).mono fun _ h => h.mono (by omega)
  · exact wrapped_fits (fun _ => rfl) (ht _ rfl) (list_fits (Variant.decode_fits table))
  · exact .pure Datum.fits_tag
  · exact .fail

/-- A type declaration has at most five levels beyond one and a half for each container. -/
theorem TypeDecl.decode_fits (table : FileTable) (v : Json) :
    Ensures (TypeDecl.decode table v) fun decl => decl.datum.Fits v 10 := by
  unfold TypeDecl.decode
  refine .within (.record (by decide) ?_)
  intro ⟨a, b, c, d, e, f, g⟩ ⟨ha, hb, hc, hd, he, hf, hg⟩
  refine .skip fun id => .bind (Provenance.decode_fits table _) fun origin horigin => ?_
  refine .bind (Name.decode_fits _) fun name hname => ?_
  refine .bind (list_fits RegionVar.decode_fits _) fun regions hregions => ?_
  refine .bind (list_fits TypeVar.decode_fits _) fun types htypes => ?_
  refine .bind (list_fits RegionGroup.decode_fits _) fun hierarchy hhierarchy => ?_
  refine .bind (TypeDeclKind.decode_fits table _) fun kind hkind => .skip fun _ => ?_
  refine .pure (Datum.fits_record (by omega) ?_)
  simp only [List.Forall, EntityId.levels_datum]
  omega

theorem Signature.decode_fits (v : Json) :
    Ensures (Signature.decode v) fun signature => signature.datum.Fits v 6 := by
  unfold Signature.decode
  refine .within (.record (by decide) ?_)
  intro ⟨a, b, c, d, e, f⟩ ⟨ha, hb, hc, hd, he, hf⟩
  refine .bind (list_fits RegionVar.decode_fits _) fun regions hregions => .skip fun early => ?_
  refine .bind (list_fits RegionGroup.decode_fits _) fun hierarchy hhierarchy => ?_
  refine .bind (list_fits TypeVar.decode_fits _) fun types htypes => ?_
  refine .bind (list_fits SigTy.decode_fits _) fun inputs hinputs => ?_
  refine .bind (SigTy.decode_fits _) fun output houtput => ?_
  refine .pure (Datum.fits_record (by omega) ?_)
  simp only [List.Forall, Datum.levels]
  omega

theorem Var.decode_fits (v : Json) : Ensures (Var.decode v) fun var => var.datum.Fits v 3 := by
  unfold Var.decode
  refine .within (.record (by decide) fun ⟨a, b, c⟩ ⟨ha, hb, hc⟩ => ?_)
  refine .skip fun id => .skip fun name => .bind (ErasedTy.decode_fits _) fun ty hty => ?_
  have hname := Datum.levels_ofOption_str name
  refine .pure (Datum.fits_record (by omega) ?_)
  simp only [List.Forall, EntityId.levels_datum]
  omega

theorem Body.decode_fits (table : FileTable) (v : Json) :
    Ensures (Body.decode Statement.decode table v) fun body =>
      (body.datum Statement.datum).Fits v 7 := by
  unfold Body.decode
  refine .within (.record (by decide) fun ⟨a, b, c, d⟩ ⟨ha, hb, hc, hd⟩ => ?_)
  refine .bind (Provenance.decode_fits table _) fun origin horigin => .skip fun args => ?_
  refine .bind (list_fits Var.decode_fits _) fun vars hvars => .skip fun _ => ?_
  refine .bind (Statement.decode_fits table _) fun content hcontent => ?_
  refine .pure (Datum.fits_record (by omega) ?_)
  simp only [List.Forall, Datum.levels]
  omega

/-- A function has at most five levels beyond one and a half for each container. -/
theorem FunDecl.decode_fits (table : FileTable) (v : Json) :
    Ensures (FunDecl.decode Statement.decode table v) fun decl =>
      (decl.datum Statement.datum).Fits v 10 := by
  unfold FunDecl.decode
  refine .within (.record (by decide) fun ⟨a, b, c, d, e⟩ ⟨ha, hb, hc, hd, he⟩ => ?_)
  refine .skip fun id => .bind (Provenance.decode_fits table _) fun origin horigin => ?_
  refine .bind (Name.decode_fits _) fun name hname => ?_
  refine .bind (Signature.decode_fits _) fun signature hsignature => ?_
  refine .bind (optional_fits (Body.decode_fits table _)) fun body hbody => .skip fun _ => ?_
  refine .pure (Datum.fits_record (by omega) ?_)
  simp only [List.Forall, EntityId.levels_datum]
  omega

theorem GlobalDecl.decode_fits (table : FileTable) (v : Json) :
    Ensures (GlobalDecl.decode Statement.decode table v) fun decl =>
      (decl.datum Statement.datum).Fits v 10 := by
  unfold GlobalDecl.decode
  refine .within (.record (by decide) fun ⟨a, b, c, d, e⟩ ⟨ha, hb, hc, hd, he⟩ => ?_)
  refine .skip fun id => .bind (Provenance.decode_fits table _) fun origin horigin => ?_
  refine .bind (Name.decode_fits _) fun name hname => ?_
  refine .bind (ErasedTy.decode_fits _) fun ty hty => ?_
  refine .bind (optional_fits (Body.decode_fits table _)) fun body hbody => .skip fun _ => ?_
  refine .pure (Datum.fits_record (by omega) ?_)
  simp only [List.Forall, EntityId.levels_datum]
  omega

theorem Group.decode_fits {sort : Entity} (v : Json) :
    Ensures (Group.decode v : Outcome (Group (EntityId sort))) fun group =>
      group.datum.Fits v 2 := by
  unfold Group.decode
  refine .variant fun t ht => ?_
  split
  · exact wrapped_fits (fun _ => rfl) (ht _ rfl) fun part =>
      (entityId_fits part).mono fun _ h => h.mono (by omega)
  · rename_i payload
    have hpayload := ht payload rfl
    have hids : Ensures (wrapped (list entityId) payload.1) fun ids : List (EntityId sort) =>
        (Datum.wrapped "Rec" (.ofList EntityId.datum ids)).Fits v 2 := by
      refine .wrapped fun field hfield => (list_fits entityId_fits field).mono fun ids h => ?_
      rw [Datum.Fits, Datum.levels]
      omega
    refine .bind hids fun ids hids => ?_
    split
    · exact .fail
    · exact .pure hids
  · exact .fail

theorem DeclGroup.decode_fits (v : Json) :
    Ensures (DeclGroup.decode v) fun group => group.datum.Fits v 1 := by
  unfold DeclGroup.decode
  refine .within (.variant fun t ht => ?_)
  split
  · exact wrapped_fits (fun _ => rfl) (ht _ rfl) Group.decode_fits
  · exact wrapped_fits (fun _ => rfl) (ht _ rfl) Group.decode_fits
  · exact wrapped_fits (fun _ => rfl) (ht _ rfl) fun _ => .always EntityId.fits
  · exact .fail

/-! ## Crates -/

/-- The values of a map are the declarations that it was made of. -/
theorem IdMap.index_ensures {sort : Entity} {α : Type} {declSort : DeclSort}
    {id : α → EntityId sort} {decls : List α} :
    Ensures (index declSort id decls) fun map => ∀ entry ∈ map.entries, entry.2 ∈ decls := by
  intro map hmap entry hentry
  obtain ⟨-, hperm⟩ := index_yields.1 hmap
  obtain ⟨decl, hdecl, rfl⟩ := List.mem_map.1 (hperm.mem_iff.1 hentry)
  exact hdecl

section

variable {sort : Entity} {α : Type} {decode : Json → Outcome α} {datum : α → Datum} {c : Nat}

/-- Declarations are one container down in their list. -/
theorem Decode.elements_fit (h : ∀ part, Ensures (decode part) fun a => (datum a).Fits part c)
    (v : Json) : Ensures (list decode v) fun as =>
      0 < v.depth ∧ ∀ a ∈ as, 2 * (datum a).levels + 3 ≤ 3 * v.depth + c := by
  refine .and .list_depth (.list fun part hpart => (h part).mono fun a ha => ?_)
  omega

/-- A map stands for the list of its declarations. -/
theorem IdMap.index_fits {v : Json} {decls : List α} {declSort : DeclSort}
    {id : α → EntityId sort} (hc : 2 ≤ c)
    (h : 0 < v.depth ∧ ∀ decl ∈ decls, 2 * (datum decl).levels + 3 ≤ 3 * v.depth + c) :
    Ensures (index declSort id decls) fun map => (map.datum datum).Fits v (c + 1) := by
  refine index_ensures.mono fun map hmap => Datum.fits_map (by omega) fun entry hentry => ?_
  -- an entry of the map is one of the listed declarations
  obtain ⟨⟨key, decl⟩, hdecl, rfl⟩ := List.mem_map.1 hentry
  have hle := h.2 decl (hmap _ hdecl)
  dsimp only
  omega

end

/-- **Levels of crates.** A crate has at most so many levels, for the depth of its document. -/
theorem Crate.decode_fits (v : Json) :
    Ensures (Crate.decode v) fun crate => (crate.datum Statement.datum).Fits v 12 := by
  unfold Crate.decode Crate.decodeWith
  refine .skip fun _ => .within (.record (by decide) ?_)
  intro ⟨a, b, c, d, e, f⟩ ⟨ha, hb, hc, hd, he, hf⟩
  refine .skip fun table => .skip fun name => ?_
  refine .bind (list_fits DeclGroup.decode_fits _) fun groups hgroups => ?_
  refine .bind (elements_fit (TypeDecl.decode_fits table) _) fun types htypes => ?_
  refine .bind (elements_fit (FunDecl.decode_fits table) _) fun functions hfunctions => ?_
  refine .bind (elements_fit (GlobalDecl.decode_fits table) _) fun globals hglobals => ?_
  refine .bind (IdMap.index_fits (by omega) htypes) fun typeMap htypes => ?_
  refine .bind (IdMap.index_fits (by omega) hfunctions) fun functionMap hfunctions => ?_
  refine .bind (IdMap.index_fits (by omega) hglobals) fun globalMap hglobals => ?_
  refine .skip fun _ => .skip fun _ => .pure (Datum.fits_record (by omega) ?_)
  simp only [List.Forall, Datum.levels]
  omega

end BorrowIR
