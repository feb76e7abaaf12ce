import BorrowIR.Expr.Decode
import BorrowIR.Proofs.Grammars
import BorrowIR.Proofs.LiteralWire

/-!
# The written forms of expressions

The grammar of literals, places, operands and right-hand sides in documents, and the values that it
can write down.

* `Place.Wire`, `Operand.Wire`, `Rvalue.Wire`: a node is a written form of a value. The types inside
  are types of bodies, and obey the rules of applications;
* `Place.Writable`, `Operand.Writable`, `Rvalue.Writable`: numbers have 64 bits, and types obey the
  rules;
* `Place.covers`, `Operand.covers`, `Rvalue.covers`: these are the values that have a written form,
  and each has one in every packing.
-/

namespace BorrowIR

open Decode Wire

/-! ## The grammar -/

/-- Written forms of literal values. -/
inductive Literal.Wire : Literal → Packing → Json → Prop
  | scalar {p : Packing} {scalar : Scalar} {v : Json} :
    scalar.Wire (p.child 0) v → Wire (.scalar scalar) p (.tagged "Scalar" (p.payload v))
  | bool {p : Packing} {b : Bool} : Wire (.bool b) p (.tagged "Bool" (p.payload (.bool b)))
  | char {p : Packing} {c : Char} :
    Wire (.char c) p (.tagged "Char" (p.payload (.str (String.singleton c))))
  | string {p : Packing} {s : String} :
    Wire (.string s) p (.tagged "String" (p.payload (.str s)))

/-- Written forms of what a field belongs to. -/
inductive FieldOwner.Wire : FieldOwner → Packing → Json → Prop
  | adt {p : Packing} {id : TypeDeclId} {variant : Option VariantId} {i w : Json} :
    id.Wire (p.child 0) i → Optional EntityId.Wire variant (p.child 1) w →
      Wire (.adt id variant) p (.tagged "Adt" (.arr [i, w]))
  | tuple {p : Packing} {arity : Nat} {v : Json} :
    v.IsNumeral arity → Wire (.tuple arity) p (.tagged "Tuple" (p.payload v))
  | option {p : Packing} {variant : VariantId} {v : Json} :
    variant.Wire (p.child 0) v → Wire (.option variant) p (.tagged "Option" (p.payload v))

/-- Written forms of the steps of a path. -/
inductive Projection.Wire : Projection → Packing → Json → Prop
  | deref {p : Packing} : Wire .deref p (.str "Deref")
  | derefBox {p : Packing} : Wire .derefBox p (.str "DerefBox")
  | field {p : Packing} {owner : FieldOwner} {id : FieldId} {o i : Json} :
    owner.Wire (p.child 0) o → id.Wire (p.child 1) i →
      Wire (.field owner id) p (.tagged "Field" (.arr [o, i]))

/-- Written forms of places. -/
inductive Place.Wire : Place → Packing → Json → Prop
  | mk {p : Packing} {place : Place} {v i steps : Json} :
    v.IsRecord [("var_id", i), ("projection", steps)] → place.var.Wire (p.child 0) i →
      Listed Projection.Wire place.projections (p.child 1) steps → Wire place p v

/-- Written forms of constants. -/
inductive Constant.Wire : Constant → Packing → Json → Prop
  | literal {p : Packing} {value : Literal} {v : Json} :
    value.Wire (p.child 0) v → Wire (.literal value) p (.tagged "ConstantValue" (p.payload v))
  | adt {p : Packing} {id : TypeDeclId} {v : Json} :
    id.Wire (p.child 0) v → Wire (.adt id) p (.tagged "Adt" (p.payload v))
  | unit {p : Packing} : Wire .unit p (.str "Unit")

/-- Written forms of operands. -/
inductive Operand.Wire : Operand → Packing → Json → Prop
  | copy {p : Packing} {place : Place} {v : Json} :
    place.Wire (p.child 0) v → Wire (.copy place) p (.tagged "Copy" (p.payload v))
  | move {p : Packing} {place : Place} {v : Json} :
    place.Wire (p.child 0) v → Wire (.move place) p (.tagged "Move" (p.payload v))
  | const {p : Packing} {ty : ErasedTy} {value : Constant} {t c : Json} :
    ErasedTy.Wire ty (p.child 0) t → value.Wire (p.child 1) c →
      Wire (.const ty value) p (.tagged "Constant" (.arr [t, c]))

/-- Written forms of what an aggregate builds. -/
inductive AggregateKind.Wire : AggregateKind → Packing → Json → Prop
  | tuple {p : Packing} : Wire .tuple p (.str "Tuple")
  | option {p : Packing} {variant : VariantId} {content : ErasedTy} {w t : Json} :
    variant.Wire (p.child 0) w → ErasedTy.Wire content (p.child 1) t →
      Wire (.option variant content) p (.tagged "Option" (.arr [w, t]))
  | adt {p : Packing} {id : TypeDeclId} {variant : Option VariantId}
      {regions : List ErasedRegion} {types : List ErasedTy} {i w rs ts : Json} :
    id.Wire (p.child 0) i → Optional EntityId.Wire variant (p.child 1) w →
      Listed ErasedRegion.Wire regions (p.child 2) rs →
      Listed ErasedTy.Wire types (p.child 3) ts →
      Wire (.adt id variant regions types) p (.tagged "Adt" (.arr [i, w, rs, ts]))

/-- Written forms of right-hand sides. -/
inductive Rvalue.Wire : Rvalue → Packing → Json → Prop
  | use {p : Packing} {operand : Operand} {v : Json} :
    operand.Wire (p.child 0) v → Wire (.use operand) p (.tagged "Use" (p.payload v))
  | borrow {p : Packing} {place : Place} {kind : BorrowKind} {v : Json} :
    place.Wire (p.child 0) v →
      Wire (.borrow place kind) p (.tagged "Ref" (.arr [v, .str kind.tag]))
  | unary {p : Packing} {op : UnOp} {operand : Operand} {v : Json} :
    operand.Wire (p.child 0) v →
      Wire (.unary op operand) p (.tagged "UnaryOp" (.arr [.str op.tag, v]))
  | binary {p : Packing} {op : BinOp} {left right : Operand} {l r : Json} :
    left.Wire (p.child 0) l → right.Wire (p.child 1) r →
      Wire (.binary op left right) p (.tagged "BinaryOp" (.arr [.str op.tag, l, r]))
  | discriminant {p : Packing} {place : Place} {v : Json} :
    place.Wire (p.child 0) v →
      Wire (.discriminant place) p (.tagged "Discriminant" (p.payload v))
  | global {p : Packing} {id : GlobalDeclId} {v : Json} :
    id.Wire (p.child 0) v → Wire (.global id) p (.tagged "Global" (p.payload v))
  | aggregate {p : Packing} {kind : AggregateKind} {operands : List Operand} {k os : Json} :
    kind.Wire (p.child 0) k → Listed Operand.Wire operands (p.child 1) os →
      Wire (.aggregate kind operands) p (.tagged "Aggregate" (.arr [k, os]))

/-! ## What can be written -/

/-- The numbers have 64 bits. -/
def FieldOwner.Writable : FieldOwner → Prop
  | .adt id variant => id.Writable ∧ ∀ v ∈ variant, v.Writable
  | .tuple arity => arity < naturalBound
  | .option variant => variant.Writable

/-- The numbers have 64 bits. -/
def Projection.Writable : Projection → Prop
  | .deref | .derefBox => True
  | .field owner id => owner.Writable ∧ id.Writable

/-- The numbers of the variable and of the path have 64 bits. -/
def Place.Writable (place : Place) : Prop :=
  place.var.Writable ∧ ∀ step ∈ place.projections, step.Writable

/-- The number of a declared type has 64 bits. -/
def Constant.Writable : Constant → Prop
  | .adt id => id.Writable
  | .literal _ | .unit => True

/-- The place, or the type and the constant, can be written. -/
def Operand.Writable : Operand → Prop
  | .copy place | .move place => place.Writable
  | .const ty value => ErasedTy.Writable ty ∧ value.Writable

/-- The numbers have 64 bits, and the types can be written. -/
def AggregateKind.Writable : AggregateKind → Prop
  | .tuple => True
  | .option variant content => variant.Writable ∧ ErasedTy.Writable content
  | .adt id variant _ types =>
    id.Writable ∧ (∀ v ∈ variant, v.Writable) ∧ ∀ ty ∈ types, ErasedTy.Writable ty

/-- All parts can be written. -/
def Rvalue.Writable : Rvalue → Prop
  | .use operand | .unary _ operand => operand.Writable
  | .borrow place _ | .discriminant place => place.Writable
  | .binary _ left right => left.Writable ∧ right.Writable
  | .global id => id.Writable
  | .aggregate kind operands => kind.Writable ∧ ∀ operand ∈ operands, operand.Writable

/-- Every literal can be written, since the value of a scalar is in the range of its type. -/
theorem Literal.covers : Covers Literal.Wire fun _ => True := by
  intro value p
  refine ⟨fun _ => ?_, fun _ => trivial⟩
  -- a scalar is the one literal with a variant in it
  cases value with
  | scalar scalar =>
    obtain ⟨_, h⟩ := scalar.exists_wire (p.child 0)
    exact ⟨_, .scalar h⟩
  | bool b => exact ⟨_, .bool⟩
  | char c => exact ⟨_, .char⟩
  | string s => exact ⟨_, .string⟩

/-- The owner of a field can be written if its numbers have 64 bits. -/
theorem FieldOwner.covers : Covers FieldOwner.Wire FieldOwner.Writable := by
  intro owner p
  cases owner with
  | adt id variant =>
    rw [Writable, id.covers (p.child 0), EntityId.covers.optional _ (p.child 1)]
    exact ⟨fun ⟨⟨_, hid⟩, ⟨_, hvariant⟩⟩ => ⟨_, .adt hid hvariant⟩,
      fun ⟨_, .adt hid hvariant⟩ => ⟨⟨_, hid⟩, ⟨_, hvariant⟩⟩⟩
  | tuple arity =>
    rw [Writable, ← Json.exists_isNumeral]
    exact ⟨fun ⟨_, h⟩ => ⟨_, .tuple h⟩, fun ⟨_, .tuple h⟩ => ⟨_, h⟩⟩
  | option variant =>
    rw [Writable, variant.covers (p.child 0)]
    exact ⟨fun ⟨_, h⟩ => ⟨_, .option h⟩, fun ⟨_, .option h⟩ => ⟨_, h⟩⟩

theorem Projection.covers : Covers Projection.Wire Projection.Writable := by
  intro step p
  cases step with
  | deref => exact ⟨fun _ => ⟨_, .deref⟩, fun _ => trivial⟩
  | derefBox => exact ⟨fun _ => ⟨_, .derefBox⟩, fun _ => trivial⟩
  | field owner id =>
    rw [Writable, owner.covers (p.child 0), id.covers (p.child 1)]
    exact ⟨fun ⟨⟨_, howner⟩, ⟨_, hid⟩⟩ => ⟨_, .field howner hid⟩,
      fun ⟨_, .field howner hid⟩ => ⟨⟨_, howner⟩, ⟨_, hid⟩⟩⟩

/-- A place can be written if its variable and all of its projections can be. -/
theorem Place.covers : Covers Place.Wire Place.Writable := by
  intro place p
  rw [Writable, place.var.covers (p.child 0), Projection.covers.listed _ (p.child 1)]
  exact ⟨fun ⟨⟨_, hvar⟩, ⟨_, hsteps⟩⟩ => ⟨_, .mk (Json.isRecord_obj _) hvar hsteps⟩,
    fun ⟨_, .mk _ hvar hsteps⟩ => ⟨⟨_, hvar⟩, ⟨_, hsteps⟩⟩⟩

theorem Constant.covers : Covers Constant.Wire Constant.Writable := by
  intro value p
  cases value with
  | literal value =>
    refine ⟨fun _ => ?_, fun _ => trivial⟩
    obtain ⟨_, h⟩ := (value.covers (p.child 0)).1 trivial
    exact ⟨_, .literal h⟩
  | adt id =>
    rw [Writable, id.covers (p.child 0)]
    exact ⟨fun ⟨_, h⟩ => ⟨_, .adt h⟩, fun ⟨_, .adt h⟩ => ⟨_, h⟩⟩
  | unit => exact ⟨fun _ => ⟨_, .unit⟩, fun _ => trivial⟩

theorem Operand.covers : Covers Operand.Wire Operand.Writable := by
  intro operand p
  cases operand with
  | copy place =>
    rw [Writable, place.covers (p.child 0)]
    exact ⟨fun ⟨_, h⟩ => ⟨_, .copy h⟩, fun ⟨_, .copy h⟩ => ⟨_, h⟩⟩
  | move place =>
    rw [Writable, place.covers (p.child 0)]
    exact ⟨fun ⟨_, h⟩ => ⟨_, .move h⟩, fun ⟨_, .move h⟩ => ⟨_, h⟩⟩
  | const ty value =>
    rw [Writable, ErasedTy.covers ty (p.child 0), value.covers (p.child 1)]
    exact ⟨fun ⟨⟨_, hty⟩, ⟨_, hvalue⟩⟩ => ⟨_, .const hty hvalue⟩,
      fun ⟨_, .const hty hvalue⟩ => ⟨⟨_, hty⟩, ⟨_, hvalue⟩⟩⟩

/-- An aggregate can be written if its numbers and its types can be. Erased regions can always be
written. -/
theorem AggregateKind.covers : Covers AggregateKind.Wire AggregateKind.Writable := by
  intro kind p
  cases kind with
  | tuple => exact ⟨fun _ => ⟨_, .tuple⟩, fun _ => trivial⟩
  | option variant content =>
    rw [Writable, variant.covers (p.child 0), ErasedTy.covers content (p.child 1)]
    exact ⟨fun ⟨⟨_, hvariant⟩, ⟨_, hcontent⟩⟩ => ⟨_, .option hvariant hcontent⟩,
      fun ⟨_, .option hvariant hcontent⟩ => ⟨⟨_, hvariant⟩, ⟨_, hcontent⟩⟩⟩
  | adt id variant regions types =>
    rw [Writable, id.covers (p.child 0), EntityId.covers.optional _ (p.child 1),
      ErasedTy.covers.listed _ (p.child 3)]
    -- from left to right, the regions need forms as well, and always have them
    constructor
    · rintro ⟨⟨_, hid⟩, ⟨_, hvariant⟩, ⟨_, htypes⟩⟩
      obtain ⟨_, hregions⟩ := (ErasedRegion.covers.listed _ (p.child 2)).1 fun _ _ => trivial
      exact ⟨_, .adt hid hvariant hregions htypes⟩
    · rintro ⟨_, h⟩
      cases h with
      | adt hid hvariant _ htypes => exact ⟨⟨_, hid⟩, ⟨_, hvariant⟩, ⟨_, htypes⟩⟩

/-- A right-hand side can be written if the places, operands and numbers in it can be. -/
theorem Rvalue.covers : Covers Rvalue.Wire Rvalue.Writable := by
  intro value p
  cases value with
  | use operand =>
    rw [Writable, operand.covers (p.child 0)]
    exact ⟨fun ⟨_, h⟩ => ⟨_, .use h⟩, fun ⟨_, .use h⟩ => ⟨_, h⟩⟩
  | borrow place kind =>
    rw [Writable, place.covers (p.child 0)]
    exact ⟨fun ⟨_, h⟩ => ⟨_, .borrow h⟩, fun ⟨_, .borrow h⟩ => ⟨_, h⟩⟩
  | unary op operand =>
    rw [Writable, operand.covers (p.child 0)]
    exact ⟨fun ⟨_, h⟩ => ⟨_, .unary h⟩, fun ⟨_, .unary h⟩ => ⟨_, h⟩⟩
  | binary op left right =>
    rw [Writable, left.covers (p.child 0), right.covers (p.child 1)]
    exact ⟨fun ⟨⟨_, hleft⟩, ⟨_, hright⟩⟩ => ⟨_, .binary hleft hright⟩,
      fun ⟨_, .binary hleft hright⟩ => ⟨⟨_, hleft⟩, ⟨_, hright⟩⟩⟩
  | discriminant place =>
    rw [Writable, place.covers (p.child 0)]
    exact ⟨fun ⟨_, h⟩ => ⟨_, .discriminant h⟩, fun ⟨_, .discriminant h⟩ => ⟨_, h⟩⟩
  | global id =>
    rw [Writable, id.covers (p.child 0)]
    exact ⟨fun ⟨_, h⟩ => ⟨_, .global h⟩, fun ⟨_, .global h⟩ => ⟨_, h⟩⟩
  | aggregate kind operands =>
    rw [Writable, kind.covers (p.child 0), Operand.covers.listed _ (p.child 1)]
    exact ⟨fun ⟨⟨_, hkind⟩, ⟨_, hoperands⟩⟩ => ⟨_, .aggregate hkind hoperands⟩,
      fun ⟨_, .aggregate hkind hoperands⟩ => ⟨⟨_, hkind⟩, ⟨_, hoperands⟩⟩⟩

end BorrowIR
