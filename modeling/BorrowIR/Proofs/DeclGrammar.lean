import BorrowIR.Proofs.DeclWire
import BorrowIR.Proofs.ExprGrammar

/-!
# Decoding declarations

* `TypeDecl.decode_accepts`, `FunDecl.decode_accepts`, `GlobalDecl.decode_accepts`,
  `DeclGroup.decode_accepts`: each decoder accepts the written forms of its grammar, as the values
  that they are forms of. The reader of the code of bodies may be any one;
* `DeclGroup.declarations_decode_iff_wire`: so do all four, and the writable values are those that
  have a written form, in every packing.
-/

namespace BorrowIR

open Decode Outcome Wire

/-! ## Names and parameters -/

theorem Text.decode_accepts : Accepts Decode.string Text.Wire := .of_iff fun _ _ => string_yields

/-- A text is a string, so it is not taken for an absent one. -/
theorem Text.not_wire_null (s : String) (p : Packing) : ¬ Text.Wire s p .null := nofun

theorem PathElem.decode_accepts : Accepts PathElem.decode PathElem.Wire := by
  have hnatural : Accepts natural fun n _ v => v.IsNumeral n := .of_iff fun _ _ => natural_yields
  intro v elem
  rw [PathElem.decode]
  constructor
  · intro h
    obtain ⟨t, hv, h⟩ := yields_bind.1 h
    split at h
    · obtain ⟨p, w, s, hv, rfl, rfl⟩ :=
        Text.decode_accepts.of_tagged (exclusive_of_arr string_arr) hv h
      exact ⟨p, hv ▸ .ident⟩
    · obtain ⟨p, w, n, hv, hw, rfl⟩ := hnatural.of_tagged (exclusive_of_arr natural_arr) hv h
      exact ⟨p, hv ▸ .disambiguator hw⟩
    · exact (yields_fail.1 h).elim
  · rintro ⟨p, h⟩
    cases h with
    | ident =>
      rw [variant_tagged_bind]
      exact Text.decode_accepts.map_wrapped (exclusive_of_arr string_arr) _ rfl
    | disambiguator hw =>
      rw [variant_tagged_bind]
      exact hnatural.map_wrapped (exclusive_of_arr natural_arr) _ hw

theorem Name.decode_accepts : Accepts Name.decode Name.Wire := by
  intro v name
  rw [Name.decode, yields_within]
  simp only [yields_bind, yields_pure, PathElem.decode_accepts.list _ _]
  constructor
  · rintro ⟨elems, ⟨p, h⟩, rfl⟩
    exact ⟨p, h⟩
  · rintro ⟨p, h⟩
    exact ⟨_, ⟨p, h⟩, rfl⟩

/-- A region parameter is read from its written forms, with a name or without. -/
theorem RegionVar.decode_accepts : Accepts RegionVar.decode RegionVar.Wire := by
  intro v var
  rw [RegionVar.decode, yields_within, record_bind (by decide)]
  constructor
  · rintro ⟨⟨⟨index, _⟩, ⟨name, _⟩⟩, hv, h⟩
    simp only [yields_bind, yields_pure, entityId_accepts _ _,
      Text.decode_accepts.optional Text.not_wire_null _ _] at h
    obtain ⟨id, ⟨p, hid⟩, name, ⟨q, hname⟩, rfl⟩ := h
    exact ⟨.join false [p, q], .mk hv hid hname⟩
  · rintro ⟨p, ⟨hv, hid, hname⟩⟩
    refine ⟨(⟨_, hv.sizeOf_lt (by simp)⟩, ⟨_, hv.sizeOf_lt (by simp)⟩), hv, ?_⟩
    simp only [yields_bind, yields_pure, entityId_accepts _ _,
      Text.decode_accepts.optional Text.not_wire_null _ _]
    exact ⟨_, ⟨_, hid⟩, _, ⟨_, hname⟩, rfl⟩

/-- A type parameter is read from its written forms. It always has a name. -/
theorem TypeVar.decode_accepts : Accepts TypeVar.decode TypeVar.Wire := by
  intro v var
  rw [TypeVar.decode, yields_within, record_bind (by decide)]
  constructor
  · rintro ⟨⟨⟨index, _⟩, ⟨name, _⟩⟩, hv, h⟩
    simp only [yields_bind, yields_pure, entityId_accepts _ _, Text.decode_accepts _ _] at h
    obtain ⟨id, ⟨p, hid⟩, name, ⟨q, hname⟩, rfl⟩ := h
    exact ⟨.join false [p, q], .mk hv hid hname⟩
  · rintro ⟨p, ⟨hv, hid, hname⟩⟩
    refine ⟨(⟨_, hv.sizeOf_lt (by simp)⟩, ⟨_, hv.sizeOf_lt (by simp)⟩), hv, ?_⟩
    simp only [yields_bind, yields_pure, entityId_accepts _ _, Text.decode_accepts _ _]
    exact ⟨_, ⟨_, hid⟩, _, ⟨_, hname⟩, rfl⟩

/-- A group of regions is read from three fields, which hold numbers. -/
theorem RegionGroup.decode_accepts : Accepts RegionGroup.decode RegionGroup.Wire := by
  intro v group
  rw [RegionGroup.decode, yields_within, record_bind (by decide)]
  constructor
  · rintro ⟨⟨⟨id, _⟩, ⟨regions, _⟩, ⟨parents, _⟩⟩, hv, h⟩
    simp only [yields_bind, yields_pure, entityId_accepts _ _, entityId_accepts.list _ _] at h
    obtain ⟨id, ⟨p, hid⟩, regions, ⟨q, hregions⟩, parents, ⟨r, hparents⟩, rfl⟩ := h
    exact ⟨.join false [p, q, r], .mk hv hid hregions hparents⟩
  · rintro ⟨p, ⟨hv, hid, hregions, hparents⟩⟩
    refine ⟨(⟨_, hv.sizeOf_lt (by simp)⟩, ⟨_, hv.sizeOf_lt (by simp)⟩,
      ⟨_, hv.sizeOf_lt (by simp)⟩), hv, ?_⟩
    simp only [yields_bind, yields_pure, entityId_accepts _ _, entityId_accepts.list _ _]
    exact ⟨_, ⟨_, hid⟩, _, ⟨_, hregions⟩, _, ⟨_, hparents⟩, rfl⟩

/-! ## Type declarations -/

variable {table : FileTable}

theorem Provenance.decode_accepts :
    Accepts (Provenance.decode table) (Provenance.Wire table) :=
  fun _ _ => Provenance.decode_iff

theorem Field.decode_accepts : Accepts (Field.decode table) (Field.Wire table) := by
  intro v field
  rw [Field.decode, yields_within, record_bind (by decide)]
  constructor
  · rintro ⟨⟨⟨origin, _⟩, ⟨name, _⟩, ⟨ty, _⟩⟩, hv, h⟩
    simp only [yields_bind, yields_pure, Provenance.decode_accepts _ _,
      Text.decode_accepts.optional Text.not_wire_null _ _, SigTy.decode_accepts _ _] at h
    obtain ⟨origin, ⟨p, horigin⟩, name, ⟨q, hname⟩, ty, ⟨r, hty⟩, rfl⟩ := h
    exact ⟨.join false [p, q, r], .mk hv horigin hname hty⟩
  · rintro ⟨p, ⟨hv, horigin, hname, hty⟩⟩
    refine ⟨(⟨_, hv.sizeOf_lt (by simp)⟩, ⟨_, hv.sizeOf_lt (by simp)⟩,
      ⟨_, hv.sizeOf_lt (by simp)⟩), hv, ?_⟩
    simp only [yields_bind, yields_pure, Provenance.decode_accepts _ _,
      Text.decode_accepts.optional Text.not_wire_null _ _, SigTy.decode_accepts _ _]
    exact ⟨_, ⟨_, horigin⟩, _, ⟨_, hname⟩, _, ⟨_, hty⟩, rfl⟩

theorem Variant.decode_accepts : Accepts (Variant.decode table) (Variant.Wire table) := by
  intro v variant
  rw [Variant.decode, yields_within, record_bind (by decide)]
  constructor
  · rintro ⟨⟨⟨origin, _⟩, ⟨name, _⟩, ⟨fields, _⟩⟩, hv, h⟩
    simp only [yields_bind, yields_pure, Provenance.decode_accepts _ _, Text.decode_accepts _ _,
      Field.decode_accepts.list _ _] at h
    obtain ⟨origin, ⟨p, horigin⟩, name, ⟨q, hname⟩, fields, ⟨r, hfields⟩, rfl⟩ := h
    exact ⟨.join false [p, q, r], .mk hv horigin hname hfields⟩
  · rintro ⟨p, ⟨hv, horigin, hname, hfields⟩⟩
    refine ⟨(⟨_, hv.sizeOf_lt (by simp)⟩, ⟨_, hv.sizeOf_lt (by simp)⟩,
      ⟨_, hv.sizeOf_lt (by simp)⟩), hv, ?_⟩
    simp only [yields_bind, yields_pure, Provenance.decode_accepts _ _, Text.decode_accepts _ _,
      Field.decode_accepts.list _ _]
    exact ⟨_, ⟨_, horigin⟩, _, ⟨_, hname⟩, _, ⟨_, hfields⟩, rfl⟩

/-- What a type is made of is read from its written forms. The list of fields stands bare or in a
list of its own. -/
theorem TypeDeclKind.decode_accepts :
    Accepts (TypeDeclKind.decode table) (TypeDeclKind.Wire table) := by
  -- a field and a variant are no lists, so neither reading of a list of them hides the other
  have hfields : Exclusive (list (Field.decode table)) := exclusive_list Field.decode_arr
  have hvariants : Exclusive (list (Variant.decode table)) := exclusive_list Variant.decode_arr
  intro v kind
  constructor
  · intro h
    obtain ⟨t, hv, h⟩ := yields_within_bind.1 h
    -- one case for each tag, and one for all other nodes
    split at h
    · obtain ⟨p, w, fields, hv, hw, rfl⟩ := Field.decode_accepts.list.of_tagged hfields hv h
      exact ⟨p, hv ▸ .struct hw⟩
    · obtain ⟨p, w, variants, hv, hw, rfl⟩ := Variant.decode_accepts.list.of_tagged hvariants hv h
      exact ⟨p, hv ▸ .enum hw⟩
    · obtain rfl := yields_pure.1 h
      exact ⟨.bare, variant_yields_none.1 hv ▸ .external⟩
    · exact (yields_fail.1 h).elim
  · rintro ⟨p, h⟩
    rw [TypeDeclKind.decode, yields_within]
    cases h with
    | struct hw =>
      rw [variant_tagged_bind]
      exact Field.decode_accepts.list.map_wrapped hfields _ hw
    | enum hw =>
      rw [variant_tagged_bind]
      exact Variant.decode_accepts.list.map_wrapped hvariants _ hw
    | external =>
      rw [variant_str_bind]
      exact yields_pure.2 rfl

/-- A type declaration is read from its written forms. Its event is told of, and changes nothing. -/
theorem TypeDecl.decode_accepts : Accepts (TypeDecl.decode table) (TypeDecl.Wire table) := by
  intro v decl
  rw [TypeDecl.decode, yields_within, record_bind (by decide)]
  constructor
  · rintro ⟨⟨⟨id, _⟩, ⟨origin, _⟩, ⟨name, _⟩, ⟨regions, _⟩, ⟨types, _⟩, ⟨hierarchy, _⟩,
      ⟨kind, _⟩⟩, hv, h⟩
    simp only [yields_bind, yields_pure, yields_report, entityId_accepts _ _,
      Provenance.decode_accepts _ _, Name.decode_accepts _ _, RegionVar.decode_accepts.list _ _,
      TypeVar.decode_accepts.list _ _, RegionGroup.decode_accepts.list _ _,
      TypeDeclKind.decode_accepts _ _] at h
    obtain ⟨id, ⟨p₀, hid⟩, origin, ⟨p₁, horigin⟩, name, ⟨p₂, hname⟩, regions, ⟨p₃, hregions⟩,
      types, ⟨p₄, htypes⟩, hierarchy, ⟨p₅, hhierarchy⟩, kind, ⟨p₆, hkind⟩, _, -, rfl⟩ := h
    exact ⟨.join false [p₀, p₁, p₂, p₃, p₄, p₅, p₆],
      .mk hv hid horigin hname hregions htypes hhierarchy hkind⟩
  · rintro ⟨p, ⟨hv, hid, horigin, hname, hregions, htypes, hhierarchy, hkind⟩⟩
    refine ⟨(⟨_, hv.sizeOf_lt (by simp)⟩, ⟨_, hv.sizeOf_lt (by simp)⟩,
      ⟨_, hv.sizeOf_lt (by simp)⟩, ⟨_, hv.sizeOf_lt (by simp)⟩, ⟨_, hv.sizeOf_lt (by simp)⟩,
      ⟨_, hv.sizeOf_lt (by simp)⟩, ⟨_, hv.sizeOf_lt (by simp)⟩), hv, ?_⟩
    simp only [yields_bind, yields_pure, yields_report, entityId_accepts _ _,
      Provenance.decode_accepts _ _, Name.decode_accepts _ _, RegionVar.decode_accepts.list _ _,
      TypeVar.decode_accepts.list _ _, RegionGroup.decode_accepts.list _ _,
      TypeDeclKind.decode_accepts _ _]
    exact ⟨_, ⟨_, hid⟩, _, ⟨_, horigin⟩, _, ⟨_, hname⟩, _, ⟨_, hregions⟩, _, ⟨_, htypes⟩, _,
      ⟨_, hhierarchy⟩, _, ⟨_, hkind⟩, (), trivial, rfl⟩

/-! ## Functions and globals -/

theorem Signature.decode_accepts : Accepts Signature.decode Signature.Wire := by
  intro v sig
  rw [Signature.decode, yields_within, record_bind (by decide)]
  constructor
  · rintro ⟨⟨⟨regions, _⟩, ⟨early, _⟩, ⟨hierarchy, _⟩, ⟨types, _⟩, ⟨inputs, _⟩, ⟨output, _⟩⟩, hv, h⟩
    simp only [yields_bind, yields_pure, natural_yields, RegionVar.decode_accepts.list _ _,
      RegionGroup.decode_accepts.list _ _, TypeVar.decode_accepts.list _ _,
      SigTy.decode_accepts.list _ _, SigTy.decode_accepts _ _] at h
    obtain ⟨regions, ⟨p₀, hregions⟩, early, hearly, hierarchy, ⟨p₁, hhierarchy⟩, types,
      ⟨p₂, htypes⟩, inputs, ⟨p₃, hinputs⟩, output, ⟨p₄, houtput⟩, rfl⟩ := h
    exact ⟨.join false [p₀, p₁, p₂, p₃, p₄],
      .mk hv hregions hearly hhierarchy htypes hinputs houtput⟩
  · rintro ⟨p, ⟨hv, hregions, hearly, hhierarchy, htypes, hinputs, houtput⟩⟩
    refine ⟨(⟨_, hv.sizeOf_lt (by simp)⟩, ⟨_, hv.sizeOf_lt (by simp)⟩,
      ⟨_, hv.sizeOf_lt (by simp)⟩, ⟨_, hv.sizeOf_lt (by simp)⟩, ⟨_, hv.sizeOf_lt (by simp)⟩,
      ⟨_, hv.sizeOf_lt (by simp)⟩), hv, ?_⟩
    simp only [yields_bind, yields_pure, natural_yields, RegionVar.decode_accepts.list _ _,
      RegionGroup.decode_accepts.list _ _, TypeVar.decode_accepts.list _ _,
      SigTy.decode_accepts.list _ _, SigTy.decode_accepts _ _]
    exact ⟨_, ⟨_, hregions⟩, _, hearly, _, ⟨_, hhierarchy⟩, _, ⟨_, htypes⟩, _, ⟨_, hinputs⟩, _,
      ⟨_, houtput⟩, rfl⟩

theorem Var.decode_accepts : Accepts Var.decode Var.Wire := by
  intro v var
  rw [Var.decode, yields_within, record_bind (by decide)]
  constructor
  · rintro ⟨⟨⟨index, _⟩, ⟨name, _⟩, ⟨ty, _⟩⟩, hv, h⟩
    simp only [yields_bind, yields_pure, entityId_accepts _ _,
      Text.decode_accepts.optional Text.not_wire_null _ _, ErasedTy.decode_accepts _ _] at h
    obtain ⟨id, ⟨p, hid⟩, name, ⟨q, hname⟩, ty, ⟨r, hty⟩, rfl⟩ := h
    exact ⟨.join false [p, q, r], .mk hv hid hname hty⟩
  · rintro ⟨p, ⟨hv, hid, hname, hty⟩⟩
    refine ⟨(⟨_, hv.sizeOf_lt (by simp)⟩, ⟨_, hv.sizeOf_lt (by simp)⟩,
      ⟨_, hv.sizeOf_lt (by simp)⟩), hv, ?_⟩
    simp only [yields_bind, yields_pure, entityId_accepts _ _,
      Text.decode_accepts.optional Text.not_wire_null _ _, ErasedTy.decode_accepts _ _]
    exact ⟨_, ⟨_, hid⟩, _, ⟨_, hname⟩, _, ⟨_, hty⟩, rfl⟩

/-- The check of a body succeeds where there is a variable for every argument and for the result. -/
theorem Body.checkLocals_yields {args locals : Nat} {u : Unit} :
    (checkLocals args locals).Yields u ↔ args < locals := by
  unfold checkLocals
  by_cases h : args < locals
  · simp [h]
  · simp [h, yields_fail]

section
variable {B : Type} {code : BodyReader B} {wire : B → Packing → Json → Prop}

/-- A body is read from its written forms, if its code is. -/
theorem Body.decode_accepts (hcode : Accepts (code table) wire) :
    Accepts (Body.decode code table) (Body.Wire table wire) := by
  intro v body
  rw [Body.decode, yields_within, record_bind (by decide)]
  constructor
  · rintro ⟨⟨⟨origin, _⟩, ⟨args, _⟩, ⟨locals, _⟩, ⟨content, _⟩⟩, hv, h⟩
    simp only [yields_bind, yields_pure, natural_yields, Provenance.decode_accepts _ _,
      Var.decode_accepts.list _ _, checkLocals_yields, hcode _ _] at h
    obtain ⟨origin, ⟨p, horigin⟩, argCount, hargs, locals, ⟨q, hlocals⟩, _, hlt, b, ⟨r, hb⟩,
      rfl⟩ := h
    exact ⟨.join false [p, q, r], .mk hv horigin hargs hlocals hlt hb⟩
  · rintro ⟨p, ⟨hv, horigin, hargs, hlocals, hlt, hb⟩⟩
    refine ⟨(⟨_, hv.sizeOf_lt (by simp)⟩, ⟨_, hv.sizeOf_lt (by simp)⟩,
      ⟨_, hv.sizeOf_lt (by simp)⟩, ⟨_, hv.sizeOf_lt (by simp)⟩), hv, ?_⟩
    simp only [yields_bind, yields_pure, natural_yields, Provenance.decode_accepts _ _,
      Var.decode_accepts.list _ _, checkLocals_yields, hcode _ _]
    exact ⟨_, ⟨_, horigin⟩, _, hargs, _, ⟨_, hlocals⟩, (), hlt, _, ⟨_, hb⟩, rfl⟩

/-- A body is a record, so it is not taken for an absent one. -/
theorem Body.not_wire_null (body : Body B) (p : Packing) : ¬ body.Wire table wire p .null := by
  rintro ⟨⟨fs, h, -⟩⟩
  cases h

/-- A function is read from its written forms, if the code of its body is. It may have no body. -/
theorem FunDecl.decode_accepts (hcode : Accepts (code table) wire) :
    Accepts (FunDecl.decode code table) (FunDecl.Wire table wire) := by
  have hbody := (Body.decode_accepts hcode).optional Body.not_wire_null
  intro v decl
  rw [FunDecl.decode, yields_within, record_bind (by decide)]
  constructor
  · rintro ⟨⟨⟨id, _⟩, ⟨origin, _⟩, ⟨name, _⟩, ⟨sig, _⟩, ⟨body, _⟩⟩, hv, h⟩
    simp only [yields_bind, yields_pure, yields_report, entityId_accepts _ _,
      Provenance.decode_accepts _ _, Name.decode_accepts _ _, Signature.decode_accepts _ _,
      hbody _ _] at h
    obtain ⟨id, ⟨p₀, hid⟩, origin, ⟨p₁, horigin⟩, name, ⟨p₂, hname⟩, sig, ⟨p₃, hsig⟩, body,
      ⟨p₄, hbody⟩, _, -, rfl⟩ := h
    exact ⟨.join false [p₀, p₁, p₂, p₃, p₄], .mk hv hid horigin hname hsig hbody⟩
  · rintro ⟨p, ⟨hv, hid, horigin, hname, hsig, hwire⟩⟩
    refine ⟨(⟨_, hv.sizeOf_lt (by simp)⟩, ⟨_, hv.sizeOf_lt (by simp)⟩,
      ⟨_, hv.sizeOf_lt (by simp)⟩, ⟨_, hv.sizeOf_lt (by simp)⟩, ⟨_, hv.sizeOf_lt (by simp)⟩),
      hv, ?_⟩
    simp only [yields_bind, yields_pure, yields_report, entityId_accepts _ _,
      Provenance.decode_accepts _ _, Name.decode_accepts _ _, Signature.decode_accepts _ _,
      hbody _ _]
    exact ⟨_, ⟨_, hid⟩, _, ⟨_, horigin⟩, _, ⟨_, hname⟩, _, ⟨_, hsig⟩, _, ⟨_, hwire⟩, (), trivial,
      rfl⟩

theorem GlobalDecl.decode_accepts (hcode : Accepts (code table) wire) :
    Accepts (GlobalDecl.decode code table) (GlobalDecl.Wire table wire) := by
  have hbody := (Body.decode_accepts hcode).optional Body.not_wire_null
  intro v decl
  rw [GlobalDecl.decode, yields_within, record_bind (by decide)]
  constructor
  · rintro ⟨⟨⟨id, _⟩, ⟨origin, _⟩, ⟨name, _⟩, ⟨ty, _⟩, ⟨body, _⟩⟩, hv, h⟩
    simp only [yields_bind, yields_pure, yields_report, entityId_accepts _ _,
      Provenance.decode_accepts _ _, Name.decode_accepts _ _, ErasedTy.decode_accepts _ _,
      hbody _ _] at h
    obtain ⟨id, ⟨p₀, hid⟩, origin, ⟨p₁, horigin⟩, name, ⟨p₂, hname⟩, ty, ⟨p₃, hty⟩, body,
      ⟨p₄, hbody⟩, _, -, rfl⟩ := h
    exact ⟨.join false [p₀, p₁, p₂, p₃, p₄], .mk hv hid horigin hname hty hbody⟩
  · rintro ⟨p, ⟨hv, hid, horigin, hname, hty, hwire⟩⟩
    refine ⟨(⟨_, hv.sizeOf_lt (by simp)⟩, ⟨_, hv.sizeOf_lt (by simp)⟩,
      ⟨_, hv.sizeOf_lt (by simp)⟩, ⟨_, hv.sizeOf_lt (by simp)⟩, ⟨_, hv.sizeOf_lt (by simp)⟩),
      hv, ?_⟩
    simp only [yields_bind, yields_pure, yields_report, entityId_accepts _ _,
      Provenance.decode_accepts _ _, Name.decode_accepts _ _, ErasedTy.decode_accepts _ _,
      hbody _ _]
    exact ⟨_, ⟨_, hid⟩, _, ⟨_, horigin⟩, _, ⟨_, hname⟩, _, ⟨_, hty⟩, _, ⟨_, hwire⟩, (), trivial,
      rfl⟩

end

/-! ## Groups -/

/-- A group is read from the written forms of a single member or of a cycle that is not empty. -/
theorem Group.decode_accepts {sort : Entity} :
    Accepts (Group.decode : Json → Outcome (Group (EntityId sort))) Group.Wire := by
  have hids : Exclusive (list (entityId : Json → Outcome (EntityId sort))) :=
    exclusive_list entityId_arr
  intro v group
  rw [Group.decode]
  constructor
  · intro h
    obtain ⟨t, hv, h⟩ := yields_bind.1 h
    split at h
    · obtain ⟨p, w, id, hv, hw, rfl⟩ := entityId_accepts.of_tagged entityId_exclusive hv h
      exact ⟨p, hv ▸ .single hw⟩
    · obtain ⟨ids, hids', h⟩ := yields_bind.1 h
      obtain ⟨p, w, hpayload, hw⟩ := (entityId_accepts.list.wrapped_iff hids).1 hids'
      rw [variant_yields_some, hpayload] at hv
      -- the check for an empty cycle comes behind the reading of the list
      cases ids with
      | nil => exact (yields_fail.1 h).elim
      | cons id ids =>
        obtain rfl := yields_pure.1 h
        exact ⟨p, hv ▸ .cycle (List.cons_ne_nil _ _) hw⟩
    · exact (yields_fail.1 h).elim
  · rintro ⟨p, h⟩
    cases h with
    | single hw =>
      rw [variant_tagged_bind]
      exact entityId_accepts.map_wrapped entityId_exclusive _ hw
    | @cycle _ ids w hne hw =>
      rw [variant_tagged_bind]
      refine yields_bind.2 ⟨ids, (entityId_accepts.list.wrapped_iff hids).2 ⟨p, w, rfl, hw⟩, ?_⟩
      rw [List.isEmpty_eq_false_iff.2 hne]
      exact yields_pure.2 rfl

/-- The group of a global is a single one. -/
theorem DeclGroup.decodeGlobal_accepts :
    Accepts decodeGlobal fun id => Group.Wire (.single id) := by
  intro v id
  rw [decodeGlobal]
  constructor
  · intro h
    obtain ⟨t, hv, h⟩ := yields_bind.1 h
    split at h
    · obtain ⟨p, w, hpayload, hw⟩ := (entityId_accepts.wrapped_iff entityId_exclusive).1 h
      rw [variant_yields_some, hpayload] at hv
      exact ⟨p, hv ▸ .single hw⟩
    · exact (yields_fail.1 h).elim
    · exact (yields_fail.1 h).elim
  · rintro ⟨p, h⟩
    cases h with
    | single hw =>
      rw [variant_tagged_bind]
      exact (entityId_accepts.wrapped_iff entityId_exclusive).2 ⟨p, _, rfl, hw⟩

theorem DeclGroup.decode_accepts : Accepts DeclGroup.decode DeclGroup.Wire := by
  have hgroup {sort : Entity} : Exclusive (Group.decode : Json → Outcome (Group (EntityId sort))) :=
    exclusive_of_arr Group.decode_arr
  have hglobal : Exclusive decodeGlobal := exclusive_of_arr decodeGlobal_arr
  intro v group
  constructor
  · intro h
    obtain ⟨t, hv, h⟩ := yields_within_bind.1 h
    split at h
    · obtain ⟨p, w, group, hv, hw, rfl⟩ := Group.decode_accepts.of_tagged hgroup hv h
      exact ⟨p, hv ▸ .types hw⟩
    · obtain ⟨p, w, group, hv, hw, rfl⟩ := Group.decode_accepts.of_tagged hgroup hv h
      exact ⟨p, hv ▸ .functions hw⟩
    · obtain ⟨p, w, id, hv, hw, rfl⟩ := decodeGlobal_accepts.of_tagged hglobal hv h
      exact ⟨p, hv ▸ .global hw⟩
    · exact (yields_fail.1 h).elim
  · rintro ⟨p, h⟩
    rw [DeclGroup.decode, yields_within]
    cases h with
    | types hw | functions hw =>
      rw [variant_tagged_bind]
      exact Group.decode_accepts.map_wrapped hgroup _ hw
    | global hw =>
      rw [variant_tagged_bind]
      exact decodeGlobal_accepts.map_wrapped hglobal _ hw

/-! ## All declarations -/

/-- The nodes that a reader of code accepts, as forms of the code that is read. -/
def BodyReader.Reads {B : Type} (code : BodyReader B) (table : FileTable) (b : B) (_ : Packing)
    (v : Json) : Prop :=
  (code table v).Yields b

/-- **The grammar of declarations.** For all files and all readers of the code of bodies, the
decoders of declarations and of groups accept the written forms of their grammars, each as the value
that it is a form of. The values that can be written are those whose parts can be, and each of them
can be written in every packing. -/
theorem DeclGroup.declarations_decode_iff_wire {B : Type} (code : BodyReader B)
    (table : FileTable) :
    (∀ v decl, (TypeDecl.decode table v).Yields decl ↔ ∃ p, decl.Wire table p v) ∧
    (∀ v decl, (FunDecl.decode code table v).Yields decl ↔
      ∃ p, decl.Wire table (code.Reads table) p v) ∧
    (∀ v decl, (GlobalDecl.decode code table v).Yields decl ↔
      ∃ p, decl.Wire table (code.Reads table) p v) ∧
    (∀ v group, (DeclGroup.decode v).Yields group ↔ ∃ p, group.Wire p v) ∧
    ∀ p, (∀ decl : TypeDecl, decl.Writable table ↔ ∃ v, decl.Wire table p v) ∧
      (∀ decl : FunDecl B, decl.Writable table (Readable (code table)) ↔
        ∃ v, decl.Wire table (code.Reads table) p v) ∧
      (∀ decl : GlobalDecl B, decl.Writable table (Readable (code table)) ↔
        ∃ v, decl.Wire table (code.Reads table) p v) ∧
      ∀ group : DeclGroup, group.Writable ↔ ∃ v, group.Wire p v := by
  have haccepts : Accepts (code table) (code.Reads table) := .of_iff fun _ _ => Iff.rfl
  have hcovers : Covers (code.Reads table) (Readable (code table)) := fun _ _ => Iff.rfl
  refine ⟨TypeDecl.decode_accepts, FunDecl.decode_accepts haccepts,
    GlobalDecl.decode_accepts haccepts, DeclGroup.decode_accepts, fun p => ?_⟩
  exact ⟨fun decl => decl.covers p, fun decl => decl.covers hcovers p,
    fun decl => decl.covers hcovers p, fun group => group.covers p⟩

end BorrowIR
