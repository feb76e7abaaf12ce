import BorrowIR.Crate.Decode
import BorrowIR.Proofs.FileUse

/-!
# What is decoded without files

Most decoders are not given the files of the crate, and what they accept has no spans in it. There
is one lemma for each of them; the proofs go through the decoders step by step.
-/

namespace BorrowIR

open Decode Outcome

/-! ## Source places and names -/

/-- The identifier of a file is a number behind a tag. It names a file, but it is no span. -/
theorem FileId.decode_spanless (v : Json) : Spanless [v] (FileId.decode v) := by
  unfold FileId.decode
  refine .within (.variant fun t => ?_)
  split
  · exact .map (.wrapped fun _ => .entityId)
  · exact .map (.wrapped fun _ => .entityId)
  · exact .fail

/-- The name of a file is a text behind a tag. -/
theorem FileName.decode_spanless (v : Json) : Spanless [v] (FileName.decode v) := by
  unfold FileName.decode
  refine .within (.variant fun t => ?_)
  split
  · exact .map (.wrapped fun _ => .string)
  · exact .map (.wrapped fun _ => .string)
  · exact .fail

/-- The list of the files has identifiers and names in it, and spans nowhere. -/
theorem FileTable.decode_spanless (v : Json) : Spanless [v] (FileTable.decode v) := by
  unfold FileTable.decode
  refine .within (.bind (.list fun entry => .components fun p => ?_) fun _ => .nil)
  exact .bind (FileId.decode_spanless _) fun _ => .last (FileName.decode_spanless _)

/-- A place in a file is a line and a column, and does not name the file. -/
theorem Loc.decode_spanless (v : Json) : Spanless [v] (Loc.decode v) := by
  unfold Loc.decode
  refine .within (.record (by decide) (by decide) fun p => ?_)
  exact .bind .natural fun _ => .last .natural

theorem PathElem.decode_spanless (v : Json) : Spanless [v] (PathElem.decode v) := by
  unfold PathElem.decode
  refine .variant fun t => ?_
  split
  · exact .map (.wrapped fun _ => .string)
  · exact .map (.wrapped fun _ => .natural)
  · exact .fail

/-- A name is a list of segments, and these are words and numbers. -/
theorem Name.decode_spanless (v : Json) : Spanless [v] (Name.decode v) := by
  unfold Name.decode
  exact .within (.last (.list PathElem.decode_spanless))

/-! ## Types -/

theorem Region.decode_spanless (v : Json) : Spanless [v] (Region.decode v) := by
  unfold Region.decode
  refine .within (.variant fun t => ?_)
  split
  · exact .nil
  · exact .map (.wrapped fun _ => .entityId)
  · exact .fail

theorem ErasedRegion.decode_spanless (v : Json) : Spanless [v] (ErasedRegion.decode v) :=
  .within .tagOnly

theorem IntTy.decode_spanless (v : Json) : Spanless [v] (IntTy.decode v) :=
  .within .tagOnly

theorem Mutability.decode_spanless (v : Json) : Spanless [v] (Mutability.decode v) :=
  .within .tagOnly

theorem BuiltinTy.decode_spanless (v : Json) : Spanless [v] (BuiltinTy.decode v) :=
  .within .tagOnly

/-- The head of a type is a declaration, by its number, or a builtin one, or the one of tuples. -/
theorem TypeHead.decode_spanless (v : Json) : Spanless [v] (TypeHead.decode v) := by
  unfold TypeHead.decode
  refine .within (.variant fun t => ?_)
  split
  · exact .map (.wrapped fun _ => .entityId)
  · exact .nil
  · exact .map (.wrapped BuiltinTy.decode_spanless)
  · exact .fail

/-- A type has no spans at any depth if its regions have none. -/
theorem Ty.decode_spanless {R : Type} {region : Json → Outcome R}
    (hregion : ∀ v, Spanless [v] (region v)) (v : Json) : Spanless [v] (Ty.decode region v) := by
  -- by induction on the size of the node, as the decoder goes down into the parts
  induction hn : sizeOf v using Nat.strongRecOn generalizing v with
  | ind n ih =>
    subst hn
    have hbelow : ∀ ty : Json, sizeOf ty < sizeOf v → Spanless [ty] (Ty.decode region ty) :=
      fun ty hlt => ih _ hlt ty rfl
    rw [Ty.decode]
    refine .within (.variant fun t => ?_)
    split
    · rename_i payload hpayload
      refine .components fun p => ?_
      obtain ⟨head, regions, types, htypes⟩ := p
      have hlt := Nat.lt_trans htypes hpayload
      refine .bind (TypeHead.decode_spanless _) fun _ => .bind (.list hregion) fun _ => ?_
      exact .bind (.listBelow fun ty hty => hbelow ty (Nat.lt_trans hty hlt)) fun _ => .nil
    · exact .map (.wrapped fun _ => .entityId)
    · exact .nil
    · exact .nil
    · exact .nil
    · exact .map (.wrapped IntTy.decode_spanless)
    · exact .nil
    · rename_i payload hpayload
      exact .map (.wrappedBelow fun ty hty => hbelow ty (Nat.lt_of_le_of_lt hty hpayload))
    · rename_i payload hpayload
      exact .map (.wrappedBelow fun ty hty => hbelow ty (Nat.lt_of_le_of_lt hty hpayload))
    · rename_i payload hpayload
      refine .components fun p => ?_
      obtain ⟨lifetime, ⟨target, htarget⟩, mutability⟩ := p
      have hlt := Nat.lt_trans htarget hpayload
      refine .bind (hregion _) fun _ => .bind (hbelow target hlt) fun _ => ?_
      exact .last (Mutability.decode_spanless _)
    · exact .fail

theorem SigTy.decode_spanless (v : Json) : Spanless [v] (SigTy.decode v) :=
  Ty.decode_spanless Region.decode_spanless v

theorem ErasedTy.decode_spanless (v : Json) : Spanless [v] (ErasedTy.decode v) :=
  Ty.decode_spanless ErasedRegion.decode_spanless v

/-! ## Literals and expressions -/

/-- The literal of a scalar is a number or a string, of which neither has parts. -/
theorem Scalar.decodeLiteral_spanless (ty : IntTy) (v : Json) :
    Spanless [v] (Scalar.decodeLiteral ty v) := by
  refine .singleton fun scalar h id => ?_
  unfold Scalar.decodeLiteral at h
  -- literals are numbers and strings, and neither has parts
  cases v with
  | num text => exact Json.not_uses_num
  | str text => exact Json.not_uses_str
  | _ =>
    simp only [Json.literalText?, mismatch, yields_fail] at h

theorem Scalar.decode_spanless (v : Json) : Spanless [v] (Scalar.decode v) := by
  unfold Scalar.decode
  refine .within (.variant fun t => ?_)
  split
  · split
    · exact .wrapped (Scalar.decodeLiteral_spanless _)
    · exact .fail
  · exact .fail

theorem Decode.char_spanless (v : Json) : Spanless [v] (Decode.char v) := by
  refine .singleton fun c h id => ?_
  -- only a string is read as a character
  cases v with
  | str s => exact Json.not_uses_str
  | _ => simp only [Decode.char, mismatch, yields_fail] at h

/-- A literal of any sort has no spans. The text of a string is not read as a node. -/
theorem Literal.decode_spanless (v : Json) : Spanless [v] (Literal.decode v) := by
  unfold Literal.decode
  refine .within (.variant fun t => ?_)
  split
  · exact .map (.wrapped Scalar.decode_spanless)
  · exact .map (.wrapped fun _ => .bool)
  · exact .map (.wrapped Decode.char_spanless)
  · exact .map (.wrapped fun _ => .string)
  · exact .fail

/-- What a field belongs to is known by numbers. -/
theorem FieldOwner.decode_spanless (v : Json) : Spanless [v] (FieldOwner.decode v) := by
  unfold FieldOwner.decode
  refine .within (.variant fun t => ?_)
  split
  · exact .components fun p => .bind .entityId fun _ => .last (.optional .entityId)
  · exact .map (.wrapped fun _ => .natural)
  · exact .map (.wrapped fun _ => .entityId)
  · exact .fail

theorem Projection.decode_spanless (v : Json) : Spanless [v] (Projection.decode v) := by
  unfold Projection.decode
  refine .within (.variant fun t => ?_)
  split
  · exact .nil
  · exact .nil
  · exact .components fun p => .bind (FieldOwner.decode_spanless _) fun _ => .last .entityId
  · exact .fail

/-- A place is a variable with a list of projections, so it has no spans. -/
theorem Place.decode_spanless (v : Json) : Spanless [v] (Place.decode v) := by
  unfold Place.decode
  refine .within (.record (by decide) (by decide) fun p => ?_)
  exact .bind .entityId fun _ => .last (.list Projection.decode_spanless)

theorem BorrowKind.decode_spanless (v : Json) : Spanless [v] (BorrowKind.decode v) :=
  .within .tagOnly

theorem UnOp.decode_spanless (v : Json) : Spanless [v] (UnOp.decode v) :=
  .within .tagOnly

theorem BinOp.decode_spanless (v : Json) : Spanless [v] (BinOp.decode v) :=
  .within .tagOnly

theorem Constant.decode_spanless (v : Json) : Spanless [v] (Constant.decode v) := by
  unfold Constant.decode
  refine .within (.variant fun t => ?_)
  split
  · exact .map (.wrapped Literal.decode_spanless)
  · exact .map (.wrapped fun _ => .entityId)
  · exact .nil
  · exact .fail

/-- An operand is a place, or a constant with its type. -/
theorem Operand.decode_spanless (v : Json) : Spanless [v] (Operand.decode v) := by
  unfold Operand.decode
  refine .within (.variant fun t => ?_)
  split
  · exact .map (.wrapped Place.decode_spanless)
  · exact .map (.wrapped Place.decode_spanless)
  · refine .components fun p => ?_
    exact .bind (ErasedTy.decode_spanless _) fun _ => .last (Constant.decode_spanless _)
  · exact .fail

/-- The types of an aggregate have no spans, and everything else in its kind is a number. -/
theorem AggregateKind.decode_spanless (v : Json) : Spanless [v] (AggregateKind.decode v) := by
  unfold AggregateKind.decode
  refine .within (.variant fun t => ?_)
  split
  · exact .nil
  · exact .components fun p => .bind .entityId fun _ => .last (ErasedTy.decode_spanless _)
  · refine .components fun p => .bind .entityId fun _ => .bind (.optional .entityId) fun _ => ?_
    refine .bind (.list ErasedRegion.decode_spanless) fun _ => ?_
    exact .last (.list ErasedTy.decode_spanless)
  · exact .fail

/-- A right-hand side has no spans. Where it is in the source is known from the statement around
it. -/
theorem Rvalue.decode_spanless (v : Json) : Spanless [v] (Rvalue.decode v) := by
  unfold Rvalue.decode
  refine .within (.variant fun t => ?_)
  -- one case for each tag; the parts are decoded by decoders that are given no files
  split
  · exact .map (.wrapped Operand.decode_spanless)
  · refine .components fun p => ?_
    exact .bind (Place.decode_spanless _) fun _ => .last (BorrowKind.decode_spanless _)
  · refine .components fun p => ?_
    exact .bind (UnOp.decode_spanless _) fun _ => .last (Operand.decode_spanless _)
  · refine .components fun p => .bind (BinOp.decode_spanless _) fun _ => ?_
    exact .bind (Operand.decode_spanless _) fun _ => .last (Operand.decode_spanless _)
  · exact .map (.wrapped Place.decode_spanless)
  · exact .map (.wrapped fun _ => .entityId)
  · refine .components fun p => ?_
    exact .bind (AggregateKind.decode_spanless _) fun _ => .last (.list Operand.decode_spanless)
  · exact .fail

/-! ## Calls and assertions -/

theorem BuiltinFun.decode_spanless (v : Json) : Spanless [v] (BuiltinFun.decode v) :=
  .within .tagOnly

/-- What is called is a declared function, by its number, or a builtin one. -/
theorem Callee.decode_spanless (v : Json) : Spanless [v] (Callee.decode v) := by
  unfold Callee.decode
  refine .within (.variant fun t => ?_)
  split
  · exact .map (.wrapped fun _ => .entityId)
  · exact .map (.wrapped BuiltinFun.decode_spanless)
  · exact .fail

/-- A call has no spans of its own, nor have its arguments. -/
theorem Call.decode_spanless (v : Json) : Spanless [v] (Call.decode v) := by
  unfold Call.decode
  refine .within (.record (by decide) (by decide) fun p => ?_)
  refine .bind (Callee.decode_spanless _) fun _ => ?_
  refine .bind (.list ErasedRegion.decode_spanless) fun _ => ?_
  refine .bind (.list ErasedTy.decode_spanless) fun _ => ?_
  exact .bind (.list Operand.decode_spanless) fun _ => .last (Place.decode_spanless _)

/-- An assertion has no span of its own; the statement around it has one. -/
theorem Assertion.decode_spanless (v : Json) : Spanless [v] (Assertion.decode v) := by
  unfold Assertion.decode
  refine .within (.record (by decide) (by decide) fun p => ?_)
  exact .bind (Operand.decode_spanless _) fun _ => .last .bool

/-! ## Declarations -/

theorem RegionVar.decode_spanless (v : Json) : Spanless [v] (RegionVar.decode v) := by
  unfold RegionVar.decode
  refine .within (.record (by decide) (by decide) fun p => ?_)
  exact .bind .entityId fun _ => .last (.optional .string)

theorem TypeVar.decode_spanless (v : Json) : Spanless [v] (TypeVar.decode v) := by
  unfold TypeVar.decode
  refine .within (.record (by decide) (by decide) fun p => ?_)
  exact .bind .entityId fun _ => .last .string

/-- Groups of regions are made of numbers only. -/
theorem RegionGroup.decode_spanless (v : Json) : Spanless [v] (RegionGroup.decode v) := by
  unfold RegionGroup.decode
  refine .within (.record (by decide) (by decide) fun p => ?_)
  exact .bind .entityId fun _ => .bind (.list fun _ => .entityId) fun _ =>
    .last (.list fun _ => .entityId)

/-- A signature has no spans, although its function has one. -/
theorem Signature.decode_spanless (v : Json) : Spanless [v] (Signature.decode v) := by
  unfold Signature.decode
  refine .within (.record (by decide) (by decide) fun p => ?_)
  refine .bind (.list RegionVar.decode_spanless) fun _ => .bind .natural fun _ => ?_
  refine .bind (.list RegionGroup.decode_spanless) fun _ => ?_
  refine .bind (.list TypeVar.decode_spanless) fun _ => ?_
  exact .bind (.list SigTy.decode_spanless) fun _ => .last (SigTy.decode_spanless _)

/-- A local variable has no spans. It has a number, a type and perhaps a name. -/
theorem Var.decode_spanless (v : Json) : Spanless [v] (Var.decode v) := by
  unfold Var.decode
  refine .within (.record (by decide) (by decide) fun p => ?_)
  exact .bind .entityId fun _ => .bind (.optional .string) fun _ =>
    .last (ErasedTy.decode_spanless _)

/-- The members of a group are numbers, whether it has one or several. -/
theorem Group.decode_spanless {sort : Entity} (v : Json) :
    Spanless [v] (Group.decode v : Outcome (Group (EntityId sort))) := by
  unfold Group.decode
  refine .variant fun t => ?_
  split
  · exact .map (.wrapped fun _ => .entityId)
  · exact .bind (.wrapped fun _ => .list fun _ => .entityId) fun _ => .nil
  · exact .fail

theorem DeclGroup.decodeGlobal_spanless (v : Json) : Spanless [v] (DeclGroup.decodeGlobal v) := by
  unfold DeclGroup.decodeGlobal
  refine .variant fun t => ?_
  split
  · exact .wrapped fun _ => .entityId
  · exact .fail
  · exact .fail

/-- A declaration group lists identifiers only. -/
theorem DeclGroup.decode_spanless (v : Json) : Spanless [v] (DeclGroup.decode v) := by
  unfold DeclGroup.decode
  refine .within (.variant fun t => ?_)
  split
  · exact .map (.wrapped Group.decode_spanless)
  · exact .map (.wrapped Group.decode_spanless)
  · exact .map (.wrapped DeclGroup.decodeGlobal_spanless)
  · exact .fail

end BorrowIR
