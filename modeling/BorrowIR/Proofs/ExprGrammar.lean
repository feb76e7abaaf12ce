import BorrowIR.Proofs.ExprWire

/-!
# Decoding expressions

* `Place.decode_accepts`, `Operand.decode_accepts`, `Rvalue.decode_accepts`: each decoder accepts
  the written forms of its grammar, as the values that they are forms of;
* `Rvalue.expressions_decode_iff_wire`: so do all three, and the writable values are those that
  can be written, in every packing.
-/

namespace BorrowIR

open Decode Outcome Wire

/-- What is read from a variant with several fields. -/
theorem Decode.tagged_of_components {α : Type} {n : Nat} {v : Json} {tag : String}
    {payload : v.Part} {next : payload.1.Parts n → Outcome α} {a : α}
    (hv : (variant v).Yields ⟨tag, some payload⟩)
    (h : (components n payload.1 >>= next).Yields a) :
    ∃ parts, v = .tagged tag (.arr (Json.Parts.toList n parts)) ∧ (next parts).Yields a := by
  obtain ⟨parts, hparts, h⟩ := yields_bind.1 h
  rw [variant_yields_some, components_yields.1 hparts] at hv
  exact ⟨parts, hv, h⟩

/-! ## Literals and constants -/

/-- A character is read from a string of this one character. -/
theorem Decode.char_yields {v : Json} {c : Char} :
    (char v).Yields c ↔ v = .str (String.singleton c) := by
  cases v with
  | str s =>
    have hsingle : s = String.singleton c ↔ s.toList = [c] := by
      rw [← String.toList_inj, String.toList_singleton]
    simp only [Json.str.injEq, hsingle, char]
    split
    · rename_i d hd
      simp [hd]
    · rename_i hd
      simp only [mismatch, yields_fail, false_iff]
      exact hd c
  | _ => simp [char, mismatch, yields_fail]

/-- A literal is read from its written forms. The payload of a scalar is a variant itself. -/
theorem Literal.decode_accepts : Accepts Literal.decode Literal.Wire := by
  have hscalar : Accepts Scalar.decode Scalar.Wire := fun _ _ => Scalar.decode_iff
  have hbool : Accepts Decode.bool fun b _ v => v = .bool b := .of_iff fun _ _ => bool_yields
  have hchar : Accepts Decode.char fun c _ v => v = .str (String.singleton c) :=
    .of_iff fun _ _ => char_yields
  have hstring : Accepts Decode.string fun s _ v => v = .str s :=
    .of_iff fun _ _ => string_yields
  intro v value
  constructor
  · intro h
    obtain ⟨t, hv, h⟩ := yields_within_bind.1 h
    -- one case for each tag; any other tag is refused
    split at h
    · obtain ⟨p, w, scalar, hv, hw, rfl⟩ :=
        hscalar.of_tagged (exclusive_of_arr Scalar.decode_arr) hv h
      exact ⟨p, hv ▸ .scalar hw⟩
    · obtain ⟨p, w, b, hv, rfl, rfl⟩ := hbool.of_tagged (exclusive_of_arr bool_arr) hv h
      exact ⟨p, hv ▸ .bool⟩
    · obtain ⟨p, w, c, hv, rfl, rfl⟩ := hchar.of_tagged (exclusive_of_arr char_arr) hv h
      exact ⟨p, hv ▸ .char⟩
    · obtain ⟨p, w, s, hv, rfl, rfl⟩ := hstring.of_tagged (exclusive_of_arr string_arr) hv h
      exact ⟨p, hv ▸ .string⟩
    · exact (yields_fail.1 h).elim
  · rintro ⟨p, h⟩
    rw [Literal.decode, yields_within]
    cases h with
    | scalar hw =>
      rw [variant_tagged_bind]
      exact hscalar.map_wrapped (exclusive_of_arr Scalar.decode_arr) _ hw
    | bool =>
      rw [variant_tagged_bind]
      exact hbool.map_wrapped (exclusive_of_arr bool_arr) _ rfl
    | char =>
      rw [variant_tagged_bind]
      exact hchar.map_wrapped (exclusive_of_arr char_arr) _ rfl
    | string =>
      rw [variant_tagged_bind]
      exact hstring.map_wrapped (exclusive_of_arr string_arr) _ rfl

theorem Constant.decode_accepts : Accepts Constant.decode Constant.Wire := by
  have hliteral : Exclusive Literal.decode := exclusive_of_arr Literal.decode_arr
  intro v value
  constructor
  · intro h
    obtain ⟨t, hv, h⟩ := yields_within_bind.1 h
    split at h
    · obtain ⟨p, w, value, hv, hw, rfl⟩ := Literal.decode_accepts.of_tagged hliteral hv h
      exact ⟨p, hv ▸ .literal hw⟩
    · obtain ⟨p, w, id, hv, hw, rfl⟩ := entityId_accepts.of_tagged entityId_exclusive hv h
      exact ⟨p, hv ▸ .adt hw⟩
    · obtain rfl := yields_pure.1 h
      exact ⟨.bare, variant_yields_none.1 hv ▸ .unit⟩
    · exact (yields_fail.1 h).elim
  · rintro ⟨p, h⟩
    rw [Constant.decode, yields_within]
    cases h with
    | literal hw =>
      rw [variant_tagged_bind]
      exact Literal.decode_accepts.map_wrapped hliteral _ hw
    | adt hw =>
      rw [variant_tagged_bind]
      exact entityId_accepts.map_wrapped entityId_exclusive _ hw
    | unit =>
      rw [variant_str_bind]
      exact yields_pure.2 rfl

/-! ## Places -/

/-- The owner of a field is read from its written forms. A struct has no variant, which is written
as null. -/
theorem FieldOwner.decode_accepts : Accepts FieldOwner.decode FieldOwner.Wire := by
  have harity : Accepts natural fun n _ v => v.IsNumeral n := .of_iff fun _ _ => natural_yields
  intro v owner
  constructor
  · intro h
    obtain ⟨t, hv, h⟩ := yields_within_bind.1 h
    split at h
    · obtain ⟨⟨i, w⟩, hv, h⟩ := tagged_of_components hv h
      simp only [yields_bind, yields_pure, entityId_accepts _ _,
        entityId_accepts.optional EntityId.not_wire_null _ _] at h
      obtain ⟨id, ⟨p, hid⟩, variant, ⟨q, hvariant⟩, rfl⟩ := h
      exact ⟨.join false [p, q], hv ▸ .adt hid hvariant⟩
    · obtain ⟨p, w, arity, hv, hw, rfl⟩ := harity.of_tagged (exclusive_of_arr natural_arr) hv h
      exact ⟨p, hv ▸ .tuple hw⟩
    · obtain ⟨p, w, variant, hv, hw, rfl⟩ := entityId_accepts.of_tagged entityId_exclusive hv h
      exact ⟨p, hv ▸ .option hw⟩
    · exact (yields_fail.1 h).elim
  · rintro ⟨p, h⟩
    rw [FieldOwner.decode, yields_within]
    cases h with
    | adt hid hvariant =>
      rw [variant_tagged_bind]
      refine components_two.2 ?_
      simp only [yields_bind, yields_pure, entityId_accepts _ _,
        entityId_accepts.optional EntityId.not_wire_null _ _]
      exact ⟨_, ⟨_, hid⟩, _, ⟨_, hvariant⟩, rfl⟩
    | tuple hw =>
      rw [variant_tagged_bind]
      exact harity.map_wrapped (exclusive_of_arr natural_arr) _ hw
    | option hw =>
      rw [variant_tagged_bind]
      exact entityId_accepts.map_wrapped entityId_exclusive _ hw

theorem Projection.decode_accepts : Accepts Projection.decode Projection.Wire := by
  intro v step
  constructor
  · intro h
    obtain ⟨t, hv, h⟩ := yields_within_bind.1 h
    split at h
    · obtain rfl := yields_pure.1 h
      exact ⟨.bare, variant_yields_none.1 hv ▸ .deref⟩
    · obtain rfl := yields_pure.1 h
      exact ⟨.bare, variant_yields_none.1 hv ▸ .derefBox⟩
    · obtain ⟨⟨o, i⟩, hv, h⟩ := tagged_of_components hv h
      simp only [yields_bind, yields_pure, FieldOwner.decode_accepts _ _,
        entityId_accepts _ _] at h
      obtain ⟨owner, ⟨p, howner⟩, id, ⟨q, hid⟩, rfl⟩ := h
      exact ⟨.join false [p, q], hv ▸ .field howner hid⟩
    · exact (yields_fail.1 h).elim
  · rintro ⟨p, h⟩
    rw [Projection.decode, yields_within]
    cases h with
    | deref | derefBox =>
      rw [variant_str_bind]
      exact yields_pure.2 rfl
    | field howner hid =>
      rw [variant_tagged_bind]
      refine components_two.2 ?_
      simp only [yields_bind, yields_pure, FieldOwner.decode_accepts _ _, entityId_accepts _ _]
      exact ⟨_, ⟨_, howner⟩, _, ⟨_, hid⟩, rfl⟩

/-- A place is read from its written forms. It is a record, so only its projections can be
packed. -/
theorem Place.decode_accepts : Accepts Place.decode Place.Wire := by
  intro v place
  rw [Place.decode, yields_within, record_bind (by decide)]
  constructor
  · rintro ⟨⟨⟨i, _⟩, ⟨steps, _⟩⟩, hv, h⟩
    simp only [yields_bind, yields_pure, entityId_accepts _ _,
      Projection.decode_accepts.list _ _] at h
    obtain ⟨var, ⟨p, hvar⟩, projections, ⟨q, hsteps⟩, rfl⟩ := h
    exact ⟨.join false [p, q], .mk hv hvar hsteps⟩
  · rintro ⟨p, ⟨hv, hvar, hsteps⟩⟩
    refine ⟨(⟨_, hv.sizeOf_lt (by simp)⟩, ⟨_, hv.sizeOf_lt (by simp)⟩), hv, ?_⟩
    simp only [yields_bind, yields_pure, entityId_accepts _ _, Projection.decode_accepts.list _ _]
    exact ⟨_, ⟨_, hvar⟩, _, ⟨_, hsteps⟩, rfl⟩

/-- A place is never a list, so a list of one place is read in one way only. -/
theorem Place.decode_exclusive : Exclusive Place.decode := exclusive_of_arr Place.decode_arr

/-! ## Operands -/

/-- An operand is read from its written forms. A constant stands beside its type. -/
theorem Operand.decode_accepts : Accepts Operand.decode Operand.Wire := by
  intro v operand
  constructor
  · intro h
    obtain ⟨t, hv, h⟩ := yields_within_bind.1 h
    split at h
    · obtain ⟨p, w, place, hv, hw, rfl⟩ :=
        Place.decode_accepts.of_tagged Place.decode_exclusive hv h
      exact ⟨p, hv ▸ .copy hw⟩
    · obtain ⟨p, w, place, hv, hw, rfl⟩ :=
        Place.decode_accepts.of_tagged Place.decode_exclusive hv h
      exact ⟨p, hv ▸ .move hw⟩
    · obtain ⟨⟨t, c⟩, hv, h⟩ := tagged_of_components hv h
      simp only [yields_bind, yields_pure, ErasedTy.decode_accepts _ _,
        Constant.decode_accepts _ _] at h
      obtain ⟨ty, ⟨p, hty⟩, value, ⟨q, hvalue⟩, rfl⟩ := h
      exact ⟨.join false [p, q], hv ▸ .const hty hvalue⟩
    · exact (yields_fail.1 h).elim
  · rintro ⟨p, h⟩
    rw [Operand.decode, yields_within]
    cases h with
    | copy hw | move hw =>
      rw [variant_tagged_bind]
      exact Place.decode_accepts.map_wrapped Place.decode_exclusive _ hw
    | const hty hvalue =>
      rw [variant_tagged_bind]
      refine components_two.2 ?_
      simp only [yields_bind, yields_pure, ErasedTy.decode_accepts _ _,
        Constant.decode_accepts _ _]
      exact ⟨_, ⟨_, hty⟩, _, ⟨_, hvalue⟩, rfl⟩

theorem Operand.decode_exclusive : Exclusive Operand.decode := exclusive_of_arr Operand.decode_arr

/-! ## Right-hand sides -/

theorem BorrowKind.decode_yields {v : Json} {kind : BorrowKind} :
    (BorrowKind.decode v).Yields kind ↔ v = .str kind.tag := by
  unfold BorrowKind.decode
  rw [yields_within]
  exact tagOnly_yields (by intro a; cases a <;> rfl)

theorem UnOp.decode_yields {v : Json} {op : UnOp} :
    (UnOp.decode v).Yields op ↔ v = .str op.tag := by
  unfold UnOp.decode
  rw [yields_within]
  exact tagOnly_yields (by intro a; cases a <;> rfl)

theorem BinOp.decode_yields {v : Json} {op : BinOp} :
    (BinOp.decode v).Yields op ↔ v = .str op.tag := by
  unfold BinOp.decode
  rw [yields_within]
  exact tagOnly_yields (by intro a; cases a <;> rfl)

theorem AggregateKind.decode_accepts : Accepts AggregateKind.decode AggregateKind.Wire := by
  intro v kind
  constructor
  · intro h
    obtain ⟨t, hv, h⟩ := yields_within_bind.1 h
    split at h
    · obtain rfl := yields_pure.1 h
      exact ⟨.bare, variant_yields_none.1 hv ▸ .tuple⟩
    · obtain ⟨⟨w, t⟩, hv, h⟩ := tagged_of_components hv h
      simp only [yields_bind, yields_pure, entityId_accepts _ _, ErasedTy.decode_accepts _ _] at h
      obtain ⟨variant, ⟨p, hvariant⟩, content, ⟨q, hcontent⟩, rfl⟩ := h
      exact ⟨.join false [p, q], hv ▸ .option hvariant hcontent⟩
    · obtain ⟨⟨i, w, ⟨rs, _⟩, ⟨ts, _⟩⟩, hv, h⟩ := tagged_of_components hv h
      simp only [yields_bind, yields_pure, entityId_accepts _ _,
        entityId_accepts.optional EntityId.not_wire_null _ _, ErasedRegion.decode_accepts.list _ _,
        ErasedTy.decode_accepts.list _ _] at h
      obtain ⟨id, ⟨p, hid⟩, variant, ⟨q, hvariant⟩, regions, ⟨r, hrs⟩, types,
        ⟨s, hts⟩, rfl⟩ := h
      exact ⟨.join false [p, q, r, s], hv ▸ .adt hid hvariant hrs hts⟩
    · exact (yields_fail.1 h).elim
  · rintro ⟨p, h⟩
    rw [AggregateKind.decode, yields_within]
    cases h with
    | tuple =>
      rw [variant_str_bind]
      exact yields_pure.2 rfl
    | option hvariant hcontent =>
      rw [variant_tagged_bind]
      refine components_two.2 ?_
      simp only [yields_bind, yields_pure, entityId_accepts _ _, ErasedTy.decode_accepts _ _]
      exact ⟨_, ⟨_, hvariant⟩, _, ⟨_, hcontent⟩, rfl⟩
    | adt hid hvariant hrs hts =>
      rw [variant_tagged_bind]
      refine components_four.2 ?_
      simp only [yields_bind, yields_pure, entityId_accepts _ _,
        entityId_accepts.optional EntityId.not_wire_null _ _, ErasedRegion.decode_accepts.list _ _,
        ErasedTy.decode_accepts.list _ _]
      exact ⟨_, ⟨_, hid⟩, _, ⟨_, hvariant⟩, _, ⟨_, hrs⟩, _, ⟨_, hts⟩, rfl⟩

theorem Rvalue.decode_accepts : Accepts Rvalue.decode Rvalue.Wire := by
  intro v value
  constructor
  · intro h
    obtain ⟨t, hv, h⟩ := yields_within_bind.1 h
    -- one case for each tag in the order of the constructors; any other tag is refused
    split at h
    · obtain ⟨p, w, operand, hv, hw, rfl⟩ :=
        Operand.decode_accepts.of_tagged Operand.decode_exclusive hv h
      exact ⟨p, hv ▸ .use hw⟩
    · obtain ⟨⟨x, ⟨k, _⟩⟩, hv, h⟩ := tagged_of_components hv h
      simp only [yields_bind, yields_pure, Place.decode_accepts _ _, BorrowKind.decode_yields] at h
      obtain ⟨place, ⟨p, hplace⟩, kind, rfl, rfl⟩ := h
      exact ⟨.join false [p], hv ▸ .borrow hplace⟩
    · obtain ⟨⟨⟨o, _⟩, x⟩, hv, h⟩ := tagged_of_components hv h
      simp only [yields_bind, yields_pure, UnOp.decode_yields, Operand.decode_accepts _ _] at h
      obtain ⟨op, rfl, operand, ⟨p, hoperand⟩, rfl⟩ := h
      exact ⟨.join false [p], hv ▸ .unary hoperand⟩
    · obtain ⟨⟨⟨o, _⟩, x, y⟩, hv, h⟩ := tagged_of_components hv h
      simp only [yields_bind, yields_pure, BinOp.decode_yields, Operand.decode_accepts _ _] at h
      obtain ⟨op, rfl, left, ⟨p, hleft⟩, right, ⟨q, hright⟩, rfl⟩ := h
      exact ⟨.join false [p, q], hv ▸ .binary hleft hright⟩
    · obtain ⟨p, w, place, hv, hw, rfl⟩ :=
        Place.decode_accepts.of_tagged Place.decode_exclusive hv h
      exact ⟨p, hv ▸ .discriminant hw⟩
    · obtain ⟨p, w, id, hv, hw, rfl⟩ := entityId_accepts.of_tagged entityId_exclusive hv h
      exact ⟨p, hv ▸ .global hw⟩
    · obtain ⟨⟨k, ⟨os, _⟩⟩, hv, h⟩ := tagged_of_components hv h
      simp only [yields_bind, yields_pure, AggregateKind.decode_accepts _ _,
        Operand.decode_accepts.list _ _] at h
      obtain ⟨kind, ⟨p, hkind⟩, operands, ⟨q, hos⟩, rfl⟩ := h
      exact ⟨.join false [p, q], hv ▸ .aggregate hkind hos⟩
    · exact (yields_fail.1 h).elim
  · rintro ⟨p, h⟩
    rw [Rvalue.decode, yields_within]
    -- one case for each form
    cases h with
    | use hw =>
      rw [variant_tagged_bind]
      exact Operand.decode_accepts.map_wrapped Operand.decode_exclusive _ hw
    | borrow hplace =>
      rw [variant_tagged_bind]
      refine components_two.2 ?_
      simp only [yields_bind, yields_pure, Place.decode_accepts _ _, BorrowKind.decode_yields]
      exact ⟨_, ⟨_, hplace⟩, _, rfl, rfl⟩
    | unary hoperand =>
      rw [variant_tagged_bind]
      refine components_two.2 ?_
      simp only [yields_bind, yields_pure, UnOp.decode_yields, Operand.decode_accepts _ _]
      exact ⟨_, rfl, _, ⟨_, hoperand⟩, rfl⟩
    | binary hleft hright =>
      rw [variant_tagged_bind]
      refine components_three.2 ?_
      simp only [yields_bind, yields_pure, BinOp.decode_yields, Operand.decode_accepts _ _]
      exact ⟨_, rfl, _, ⟨_, hleft⟩, _, ⟨_, hright⟩, rfl⟩
    | discriminant hw =>
      rw [variant_tagged_bind]
      exact Place.decode_accepts.map_wrapped Place.decode_exclusive _ hw
    | global hw =>
      rw [variant_tagged_bind]
      exact entityId_accepts.map_wrapped entityId_exclusive _ hw
    | aggregate hkind hos =>
      rw [variant_tagged_bind]
      refine components_two.2 ?_
      simp only [yields_bind, yields_pure, AggregateKind.decode_accepts _ _,
        Operand.decode_accepts.list _ _]
      exact ⟨_, ⟨_, hkind⟩, _, ⟨_, hos⟩, rfl⟩

/-- **The grammar of expressions.** The decoders of places, of operands and of right-hand sides
accept the written forms of their grammars, each as the value that it is a form of. The values that
can be written are those whose types obey the rules of applications and whose numbers have 64 bits,
and each of them can be written in every packing. -/
theorem Rvalue.expressions_decode_iff_wire :
    (∀ v place, (Place.decode v).Yields place ↔ ∃ p, place.Wire p v) ∧
    (∀ v operand, (Operand.decode v).Yields operand ↔ ∃ p, operand.Wire p v) ∧
    (∀ v value, (Rvalue.decode v).Yields value ↔ ∃ p, value.Wire p v) ∧
    ∀ p, (∀ place : Place, place.Writable ↔ ∃ v, place.Wire p v) ∧
      (∀ operand : Operand, operand.Writable ↔ ∃ v, operand.Wire p v) ∧
      ∀ value : Rvalue, value.Writable ↔ ∃ v, value.Wire p v := by
  refine ⟨Place.decode_accepts, Operand.decode_accepts, Rvalue.decode_accepts, fun p => ?_⟩
  exact ⟨fun place => place.covers p, fun operand => operand.covers p,
    fun value => value.covers p⟩

end BorrowIR
