import BorrowIR.Proofs.Readings

/-!
# Decoders and grammars

What it takes for a decoder to accept just the nodes of a grammar, and which values a grammar can
write down.

* `Decode.Accepts`: a decoder accepts the written forms of values, each as the value that it is a
  form of. This goes through lists, through what may be absent, and through payloads of one field;
* `Wire.Covers`: the values of a sort are those that have a written form, and they have one in every
  packing;
* `ErasedTy.Wire`, `SigTy.Wire`: the grammars of types with the rules of applications.
-/

namespace BorrowIR

open Decode Outcome

namespace Wire

variable {α : Type} {wire : α → Packing → Json → Prop} {Writable : α → Prop}

/-- Written forms of what may be absent: `null`, or a form of what is there. -/
inductive Optional (wire : α → Packing → Json → Prop) : Option α → Packing → Json → Prop
  | none {p : Packing} : Optional wire none p .null
  | some {p : Packing} {a : α} {v : Json} : wire a p v → Optional wire (some a) p v

/-- Written forms of lists: the list of the forms of the elements. -/
inductive Listed (wire : α → Packing → Json → Prop) : List α → Packing → Json → Prop
  | arr {p : Packing} {as : List α} {vs : List Json} :
    Each wire as p vs → Listed wire as p (.arr vs)

/-- **What can be written.** The writable values are those that have a written form, and each of
them has one in every packing. -/
def Covers (wire : α → Packing → Json → Prop) (Writable : α → Prop) : Prop :=
  ∀ a p, Writable a ↔ ∃ v, wire a p v

theorem Covers.each (h : Covers wire Writable) {as : List α} {p : Packing} :
    (∀ a ∈ as, Writable a) ↔ ∃ vs, Each wire as p vs := by
  constructor
  · intro has
    exact each_in (fun a ha q => (h a q).1 (has a ha)) p
  · rintro ⟨vs, hvs⟩ a ha
    obtain ⟨v, -, q, hv⟩ := hvs.exists_of_mem a ha
    exact (h a q).2 ⟨v, hv⟩

/-- A list can be written if its elements can be. -/
theorem Covers.listed (h : Covers wire Writable) (as : List α) (p : Packing) :
    (∀ a ∈ as, Writable a) ↔ ∃ v, Listed wire as p v := by
  rw [h.each (p := p)]
  exact ⟨fun ⟨_, hvs⟩ => ⟨_, .arr hvs⟩, fun ⟨_, .arr hvs⟩ => ⟨_, hvs⟩⟩

/-- What is absent can be written, and what is there if it can be written by itself. -/
theorem Covers.optional (h : Covers wire Writable) (o : Option α) (p : Packing) :
    (∀ a ∈ o, Writable a) ↔ ∃ v, Optional wire o p v := by
  cases o with
  | none => exact ⟨fun _ => ⟨_, .none⟩, fun _ _ ha => nomatch ha⟩
  | some a =>
    constructor
    · intro ha
      obtain ⟨v, hv⟩ := (h a p).1 (ha a rfl)
      exact ⟨v, .some hv⟩
    · rintro ⟨v, ⟨⟩ | hv⟩ b ⟨⟩
      exact (h a p).2 ⟨v, hv⟩

end Wire

open Wire

namespace Decode

variable {α β : Type} {decode : Json → Outcome α} {wire : α → Packing → Json → Prop}

/-- **A decoder of a grammar.** The nodes that are accepted are the written forms of values, and
each is read as the value that it is a form of. -/
def Accepts (decode : Json → Outcome α) (wire : α → Packing → Json → Prop) : Prop :=
  ∀ v a, (decode v).Yields a ↔ ∃ p, wire a p v

namespace Accepts

/-- A list is accepted if its elements are, each in a packing of its own. -/
theorem list (h : Accepts decode wire) : Accepts (Decode.list decode) (Listed wire) := by
  intro v as
  rw [list_yields]
  constructor
  · rintro ⟨vs, rfl, hall⟩
    -- the packings of the elements are put together to one of the list
    obtain ⟨p, hvs⟩ := each_of_forall₂ (hall.imp fun v a => (h v a).1)
    exact ⟨p, .arr hvs⟩
  · rintro ⟨p, hvs⟩
    cases hvs with
    | arr hvs => exact ⟨_, rfl, hvs.forall₂.imp fun v a => (h v a).2⟩

/-- Where `null` is not a form of a value, it says that there is none. -/
theorem optional (h : Accepts decode wire) (hnull : ∀ a p, ¬ wire a p .null) :
    Accepts (Decode.optional decode) (Optional wire) := by
  intro v o
  rw [optional_yields]
  constructor
  · rintro (⟨rfl, rfl⟩ | ⟨-, a, rfl, ha⟩)
    · exact ⟨.bare, .none⟩
    · obtain ⟨p, hp⟩ := (h v a).1 ha
      exact ⟨p, .some hp⟩
  · rintro ⟨p, ⟨⟩ | hp⟩
    · exact .inl ⟨rfl, rfl⟩
    · refine .inr ⟨?_, _, rfl, (h _ _).2 ⟨p, hp⟩⟩
      rintro rfl
      exact hnull _ _ hp

/-- A payload of one field is a form of the field, packed as the packing says. -/
theorem wrapped_iff (h : Accepts decode wire) (hexclusive : Exclusive decode) {payload : Json}
    {a : α} :
    (wrapped decode payload).Yields a ↔
      ∃ (p : Packing) (w : Json), payload = p.payload w ∧ wire a (p.child 0) w := by
  rw [hexclusive.wrapped_yields]
  constructor
  · rintro ⟨own, w, rfl, ha⟩
    obtain ⟨q, hq⟩ := (h w a).1 ha
    exact ⟨.join own [q], w, rfl, hq⟩
  · rintro ⟨p, w, rfl, hw⟩
    exact ⟨p.own, w, rfl, (h w a).2 ⟨_, hw⟩⟩

/-- What is read from a variant with one field. -/
theorem of_tagged (h : Accepts decode wire) (hexclusive : Exclusive decode) {v : Json}
    {tag : String} {payload : v.Part} {f : α → β} {b : β}
    (hv : (variant v).Yields ⟨tag, some payload⟩) (hb : (f <$> wrapped decode payload.1).Yields b) :
    ∃ (p : Packing) (w : Json) (a : α),
      v = .tagged tag (p.payload w) ∧ wire a (p.child 0) w ∧ f a = b := by
  obtain ⟨a, ha, rfl⟩ := yields_map.1 hb
  obtain ⟨p, w, hpayload, hw⟩ := (h.wrapped_iff hexclusive).1 ha
  rw [variant_yields_some, hpayload] at hv
  exact ⟨p, w, a, hv, hw, rfl⟩

/-- A variant with one field is read from the forms of the field. -/
theorem map_wrapped (h : Accepts decode wire) (hexclusive : Exclusive decode) (f : α → β)
    {p : Packing} {w : Json} {a : α} (hw : wire a (p.child 0) w) :
    (f <$> wrapped decode (p.payload w)).Yields (f a) :=
  yields_map.2 ⟨a, (h.wrapped_iff hexclusive).2 ⟨p, w, rfl, hw⟩, rfl⟩

end Accepts

/-! ## Leaves -/

/-- Where there is nothing to pack, a form is a form in every packing. -/
theorem Accepts.of_iff {form : α → Json → Prop} (h : ∀ v a, (decode v).Yields a ↔ form a v) :
    Accepts decode fun a _ v => form a v := by
  intro v a
  rw [h]
  exact ⟨fun h => ⟨.bare, h⟩, fun ⟨_, h⟩ => h⟩

theorem entityId_accepts {sort : Entity} :
    Accepts (entityId : Json → Outcome (EntityId sort)) EntityId.Wire :=
  .of_iff fun _ _ => entityId_yields

/-- An identifier is never a list, so a list of one identifier is read in one way only. -/
theorem entityId_exclusive {sort : Entity} :
    Exclusive (entityId : Json → Outcome (EntityId sort)) :=
  exclusive_of_arr entityId_arr

end Decode

/-- The number has 64 bits. -/
def EntityId.Writable {sort : Entity} (id : EntityId sort) : Prop := id.index < naturalBound

/-- An identifier can be written if its number has 64 bits. -/
theorem EntityId.covers {sort : Entity} :
    Covers (EntityId.Wire : EntityId sort → Packing → Json → Prop) EntityId.Writable :=
  fun _ _ => Json.exists_isNumeral.symm

/-- A number is not taken for an absent one. -/
theorem EntityId.not_wire_null {sort : Entity} (id : EntityId sort) (p : Packing) :
    ¬ id.Wire p .null := by
  rintro ⟨text, h, -⟩
  cases h

/-! ## Types -/

/-- The number of a region parameter has 64 bits. -/
def Region.Writable : Region → Prop
  | .static => True
  | .var id => id.Writable

/-- The number of a declared type has 64 bits. -/
def TypeHead.Writable : TypeHead → Prop
  | .adt id => id.Writable
  | .tuple | .builtin _ => True

namespace Ty

variable {R : Type}

mutual
/-- The numbers in a type have 64 bits, at every depth, and its regions are writable. -/
def Numbered (region : R → Prop) : Ty R → Prop
  | .app head regions types =>
    head.Writable ∧ (∀ r ∈ regions, region r) ∧ AllNumbered region types
  | .var id => id.Writable
  | .array elem => Numbered region elem
  | .slice elem => Numbered region elem
  | .ref lifetime target _ => region lifetime ∧ Numbered region target
  | .bool | .char | .never | .int _ | .str => True

/-- The numbers in each of the types have 64 bits. -/
def AllNumbered (region : R → Prop) : List (Ty R) → Prop
  | [] => True
  | ty :: types => Numbered region ty ∧ AllNumbered region types
end

end Ty

theorem Region.covers : Covers Region.Wire Region.Writable := by
  intro r p
  cases r with
  | static => exact ⟨fun _ => ⟨_, .static⟩, fun _ => trivial⟩
  | var id =>
    constructor
    · intro h
      obtain ⟨v, hv⟩ := (id.covers p).1 h
      exact ⟨_, .var hv⟩
    · rintro ⟨v, h⟩
      cases h with | var h => exact (id.covers p).2 ⟨_, h⟩

theorem ErasedRegion.covers : Covers ErasedRegion.Wire fun _ => True :=
  fun _ _ => ⟨fun _ => ⟨_, .erased⟩, fun _ => trivial⟩

theorem TypeHead.covers : Covers TypeHead.Wire TypeHead.Writable := by
  intro head p
  cases head with
  | adt id =>
    constructor
    · intro h
      obtain ⟨v, hv⟩ := (id.covers p).1 h
      exact ⟨_, .adt hv⟩
    · rintro ⟨v, ⟨h⟩⟩
      exact (id.covers p).2 ⟨_, h⟩
  | tuple => exact ⟨fun _ => ⟨_, .tuple⟩, fun _ => trivial⟩
  | builtin ty => exact ⟨fun _ => ⟨_, .builtin⟩, fun _ => trivial⟩

namespace Ty

variable {R : Type} {wire : R → Packing → Json → Prop} {region : R → Prop}

mutual
/-- A type has a form in every packing if its numbers have 64 bits. The rules of applications do not
count here. -/
theorem numbered_iff (hregion : Covers wire region) :
    ∀ (ty : Ty R) (p : Packing), ty.Numbered region ↔ ∃ v, ty.Wire wire p v
  | .app head regions types, p => by
    rw [Numbered, head.covers (p.child 0), hregion.each (p := p.child 1),
      allNumbered_iff hregion types (p.child 2)]
    constructor
    · rintro ⟨⟨_, hhead⟩, ⟨_, hregions⟩, ⟨_, htypes⟩⟩
      exact ⟨_, .app hhead hregions htypes⟩
    · rintro ⟨_, ⟨hhead, hregions, htypes⟩⟩
      exact ⟨⟨_, hhead⟩, ⟨_, hregions⟩, ⟨_, htypes⟩⟩
  | .var id, p => by
    rw [Numbered, id.covers p]
    exact ⟨fun ⟨_, h⟩ => ⟨_, .var h⟩, fun ⟨_, .var h⟩ => ⟨_, h⟩⟩
  | .array elem, p => by
    rw [Numbered, numbered_iff hregion elem (p.child 0)]
    exact ⟨fun ⟨_, h⟩ => ⟨_, .array h⟩, fun ⟨_, .array h⟩ => ⟨_, h⟩⟩
  | .slice elem, p => by
    rw [Numbered, numbered_iff hregion elem (p.child 0)]
    exact ⟨fun ⟨_, h⟩ => ⟨_, .slice h⟩, fun ⟨_, .slice h⟩ => ⟨_, h⟩⟩
  | .ref lifetime target mutability, p => by
    rw [Numbered, hregion lifetime (p.child 0), numbered_iff hregion target (p.child 1)]
    exact ⟨fun ⟨⟨_, hlifetime⟩, ⟨_, htarget⟩⟩ => ⟨_, .ref hlifetime htarget⟩,
      fun ⟨_, .ref hlifetime htarget⟩ => ⟨⟨_, hlifetime⟩, ⟨_, htarget⟩⟩⟩
  | .bool, _ => ⟨fun _ => ⟨_, .bool⟩, fun _ => trivial⟩
  | .char, _ => ⟨fun _ => ⟨_, .char⟩, fun _ => trivial⟩
  | .never, _ => ⟨fun _ => ⟨_, .never⟩, fun _ => trivial⟩
  | .int _, _ => ⟨fun _ => ⟨_, .int⟩, fun _ => trivial⟩
  | .str, _ => ⟨fun _ => ⟨_, .str⟩, fun _ => trivial⟩

/-- Types have forms one after the other if their numbers have 64 bits. -/
theorem allNumbered_iff (hregion : Covers wire region) :
    ∀ (types : List (Ty R)) (p : Packing),
      AllNumbered region types ↔ ∃ vs, Each (Ty.Wire wire) types p vs
  | [], _ => ⟨fun _ => ⟨_, .nil⟩, fun _ => trivial⟩
  | ty :: types, p => by
    rw [AllNumbered, numbered_iff hregion ty (p.child 0), allNumbered_iff hregion types (p.child 1)]
    exact ⟨fun ⟨⟨_, hty⟩, ⟨_, htypes⟩⟩ => ⟨_, .cons hty htypes⟩,
      fun ⟨_, .cons hty htypes⟩ => ⟨⟨_, hty⟩, ⟨_, htypes⟩⟩⟩
end

end Ty

/-- Written forms of the types of bodies. The types obey the rules of applications. -/
def ErasedTy.Wire (ty : ErasedTy) (p : Packing) (v : Json) : Prop :=
  ty.WellApplied ∧ Ty.Wire ErasedRegion.Wire ty p v

/-- Written forms of the types of signatures. The types obey the rules of applications. -/
def SigTy.Wire (ty : SigTy) (p : Packing) (v : Json) : Prop :=
  ty.WellApplied ∧ Ty.Wire Region.Wire ty p v

/-- The type obeys the rules of applications, and its numbers have 64 bits. -/
def ErasedTy.Writable (ty : ErasedTy) : Prop := ty.WellApplied ∧ ty.Numbered fun _ => True

/-- The type obeys the rules of applications, and its numbers have 64 bits. -/
def SigTy.Writable (ty : SigTy) : Prop := ty.WellApplied ∧ ty.Numbered Region.Writable

theorem ErasedRegion.decode_accepts : Accepts ErasedRegion.decode ErasedRegion.Wire :=
  fun _ _ => ErasedRegion.decode_iff

theorem ErasedTy.decode_accepts : Accepts ErasedTy.decode ErasedTy.Wire := by
  intro v ty
  simp only [ErasedTy.Wire, exists_and_left]
  exact Ty.decode_iff_wire fun _ _ => ErasedRegion.decode_iff

/-- A type of a signature is read from its written forms, which obey the rules of applications. -/
theorem SigTy.decode_accepts : Accepts SigTy.decode SigTy.Wire := by
  intro v ty
  simp only [SigTy.Wire, exists_and_left]
  exact Ty.decode_iff_wire fun _ _ => Region.decode_iff

theorem ErasedTy.covers : Covers ErasedTy.Wire ErasedTy.Writable := by
  intro ty p
  rw [ErasedTy.Writable, Ty.numbered_iff ErasedRegion.covers ty p]
  simp only [ErasedTy.Wire, exists_and_left]

/-- A type of a signature can be written if it obeys the rules and its numbers have 64 bits. -/
theorem SigTy.covers : Covers SigTy.Wire SigTy.Writable := by
  intro ty p
  rw [SigTy.Writable, Ty.numbered_iff Region.covers ty p]
  simp only [SigTy.Wire, exists_and_left]

end BorrowIR
