import BorrowIR.Proofs.Accounts

/-!
# What decoders tell

Every decoder accounts for its outcome. There is one lemma for each of them; the proofs go through
the decoders step by step.

* A decoder that reads no literals is candid whether it is taken for `loud` or not. The others
  refuse lists, so that the second attempt at a payload in a list of its own adds nothing to the log
  (`Scalar.decode_refuses` and the like).
* `TypeDecl.decode_accounts`, `FunDecl.decode_accounts`, `GlobalDecl.decode_accounts`,
  `FileTable.decode_accounts`: the decoders that leave events of their own.
-/

namespace BorrowIR

open Decode Outcome

variable {table : FileTable} {loud : Prop}

/-! ## Source places and names -/

theorem FileId.decode_candid (v : Json) : Candid table loud [v] (FileId.decode v) := by
  refine .named .fileId rfl (.variant fun t => ?_)
  split
  · exact .reads (.map (.wrapped_quiet fun _ => .entityId))
  · exact .reads (.map (.wrapped_quiet fun _ => .entityId))
  · exact .unknown

theorem FileName.decode_candid (v : Json) : Candid table loud [v] (FileName.decode v) := by
  refine .named .fileName rfl (.variant fun t => ?_)
  split
  · exact .reads (.map (.wrapped_quiet fun _ => .string))
  · exact .reads (.map (.wrapped_quiet fun _ => .string))
  · exact .unknown

/-- A file that is listed twice breaks a rule, which is a failure without events. -/
theorem FileTable.insertAll_candid (files : FileTable) (entries : List (FileId × FileName)) :
    Candid table loud [] (FileTable.insertAll files entries) := by
  -- each entry is inserted into the table that the ones before it have made
  induction entries generalizing files with
  | nil => exact .pure
  | cons entry entries ih =>
    obtain ⟨id, name⟩ := entry
    unfold FileTable.insertAll
    split
    · exact ih _
    · exact .violation

/-- The file table tells how many files it lists. -/
theorem FileTable.decode_accounts (v : Json) :
    Accounts table False (fun files => [.fileTable files.entries.length]) [v]
      (FileTable.decode v) := by
  refine .named .idToFile rfl (.bind (.list fun entry => .components fun p => ?_) fun _ => ?_)
  · exact .bind (FileId.decode_candid _) fun _ => .last (FileName.decode_candid _)
  · exact .step (FileTable.insertAll_candid _ _) fun _ => .reported rfl

theorem Loc.decode_candid (v : Json) : Candid table loud [v] (Loc.decode v) := by
  refine .named .loc rfl (.record (by decide) fun p => ?_)
  exact .bind .natural fun _ => .last .natural

/-- A file that is not listed makes a failure that is about no node. -/
theorem FileTable.resolve_candid (id : FileId) :
    Candid table loud [] (table.resolve id) := by
  unfold FileTable.resolve
  split
  · exact .pure
  · exact .fail (fun _ _ => trivial) rfl

/-- The file of a span is looked up, and nothing is told of it. -/
theorem Span.decode_candid (v : Json) : Candid table loud [v] (Span.decode table v) := by
  refine .named .span rfl (.record (by decide) fun p => ?_)
  refine .bind (FileId.decode_candid _) fun _ => .step (FileTable.resolve_candid _) fun _ => ?_
  exact .bind (Loc.decode_candid _) fun _ => .last (Loc.decode_candid _)

/-- The second span of a provenance may be absent, and then the first one is all there is. -/
theorem Provenance.decode_candid (v : Json) :
    Candid table loud [v] (Provenance.decode table v) := by
  refine .named .provenance rfl (.record (by decide) fun p => ?_)
  exact .bind (Span.decode_candid _) fun _ => .last (.optional (Span.decode_candid _))

/-- An element of a name has no decoder name of its own, so it does not show up in a trail. -/
theorem PathElem.decode_candid (v : Json) : Candid table loud [v] (PathElem.decode v) := by
  refine .variant fun t => ?_
  split
  · exact .reads (.map (.wrapped_quiet fun _ => .string))
  · exact .reads (.map (.wrapped_quiet fun _ => .natural))
  · exact .unknown

theorem Name.decode_candid (v : Json) : Candid table loud [v] (Name.decode v) :=
  .named .name rfl (.last (.list PathElem.decode_candid))

/-! ## Types -/

theorem Region.decode_candid (v : Json) : Candid table loud [v] (Region.decode v) := by
  refine .named .region rfl (.variant fun t => ?_)
  split
  · exact .reads .pure
  · exact .reads (.map (.wrapped_quiet fun _ => .entityId))
  · exact .unknown

theorem ErasedRegion.decode_candid (v : Json) : Candid table loud [v] (ErasedRegion.decode v) :=
  .named .erasedRegion rfl .tagOnly

theorem IntTy.decode_candid (v : Json) : Candid table loud [v] (IntTy.decode v) :=
  .named .integerTy rfl .tagOnly

theorem Mutability.decode_candid (v : Json) : Candid table loud [v] (Mutability.decode v) :=
  .named .refKind rfl .tagOnly

theorem BuiltinTy.decode_candid (v : Json) : Candid table loud [v] (BuiltinTy.decode v) :=
  .named .assumedTy rfl .tagOnly

theorem TypeHead.decode_candid (v : Json) : Candid table loud [v] (TypeHead.decode v) := by
  refine .named .typeId rfl (.variant fun t => ?_)
  split
  · exact .reads (.map (.wrapped_quiet fun _ => .entityId))
  · exact .reads .pure
  · exact .reads (.map (.wrapped_quiet BuiltinTy.decode_candid))
  · exact .unknown

/-- An application with wrong arguments breaks a rule, which is a failure without events. -/
theorem TypeHead.checkArity_candid (head : TypeHead) (regions types : Nat) :
    Candid table loud [] (head.checkArity regions types) := by
  unfold TypeHead.checkArity
  split
  · exact .pure
  · exact .violation

/-- A type accounts for its outcome if its regions do, at every depth. -/
theorem Ty.decode_candid {R : Type} {region : Json → Outcome R}
    (hnamed : Named table "ty" (Ty.decode region))
    (hregion : ∀ {loud : Prop} (v : Json), Candid table loud [v] (region v)) {loud : Prop}
    (v : Json) : Candid table loud [v] (Ty.decode region v) := by
  -- by induction on the size of the node, as the decoder goes down into the parts
  induction hn : sizeOf v using Nat.strongRecOn generalizing v loud with
  | ind n ih =>
    subst hn
    have hbelow : ∀ {loud : Prop} (ty : Json), sizeOf ty < sizeOf v →
        Candid table loud [ty] (Ty.decode region ty) :=
      fun ty hlt => ih _ hlt ty rfl
    refine .named hnamed (Ty.decode.eq_def region v) (.variant fun t => ?_)
    split
    · rename_i payload hpayload
      refine .reads (.components fun p => ?_)
      obtain ⟨head, regions, types, htypes⟩ := p
      have hlt := Nat.lt_trans htypes hpayload
      refine .bind (TypeHead.decode_candid _) fun _ => .bind (.list hregion) fun _ => ?_
      refine .bind (.listBelow fun ty hty => hbelow ty (Nat.lt_trans hty hlt)) fun _ => ?_
      exact .step (TypeHead.checkArity_candid _ _ _) fun _ => .pure
    · exact .reads (.map (.wrapped_quiet fun _ => .entityId))
    · exact .reads .pure
    · exact .reads .pure
    · exact .reads .pure
    · exact .reads (.map (.wrapped_quiet IntTy.decode_candid))
    · exact .reads .pure
    · rename_i payload hpayload
      exact .reads (.map (.wrappedBelow_quiet fun ty hty =>
        hbelow ty (Nat.lt_of_le_of_lt hty hpayload)))
    · rename_i payload hpayload
      exact .reads (.map (.wrappedBelow_quiet fun ty hty =>
        hbelow ty (Nat.lt_of_le_of_lt hty hpayload)))
    · rename_i payload hpayload
      refine .reads (.components fun p => ?_)
      obtain ⟨lifetime, ⟨target, htarget⟩, mutability⟩ := p
      have hlt := Nat.lt_trans htarget hpayload
      refine .bind (hregion _) fun _ => .bind (hbelow target hlt) fun _ => ?_
      exact .last (Mutability.decode_candid _)
    · exact .unknown

theorem SigTy.decode_candid (v : Json) : Candid table loud [v] (SigTy.decode v) :=
  Ty.decode_candid .sigTy Region.decode_candid v

theorem ErasedTy.decode_candid (v : Json) : Candid table loud [v] (ErasedTy.decode v) :=
  Ty.decode_candid .erasedTy ErasedRegion.decode_candid v

/-! ## Literals and expressions -/

/-- A literal that its type does not hold is told of once, where it is read. -/
theorem Scalar.decodeLiteral_candid (ty : IntTy) (v : Json) :
    Candid table True [v] (Scalar.decodeLiteral ty v) := by
  unfold Scalar.decodeLiteral
  -- a node without a text, a text that is no literal, and a literal that its type may not hold
  split
  · exact .mismatch
  · split
    · exact .mismatch
    · split
      · exact .pure
      · refine ⟨.bind_of_yields .report fun _ _ => .fail fun _ _ => trivial, rfl, ?_⟩
        exact fun hloud => absurd trivial hloud

theorem Scalar.decodeLiteral_refuses (ty : IntTy) (elems : List Json) :
    (Scalar.decodeLiteral ty (.arr elems)).Refused := ⟨_, rfl⟩

/-- A scalar is read with events only where its literal does not fit. It is the one reason to be
loud. -/
theorem Scalar.decode_candid (v : Json) : Candid table True [v] (Scalar.decode v) := by
  refine .named .scalarValue rfl (.variant fun t => ?_)
  split
  · split
    · exact .reads (.wrapped (Scalar.decodeLiteral_refuses _) (Scalar.decodeLiteral_candid _))
    · exact .unknown
  · exact .unknown

/-- A scalar is a variant, so a list of one is refused before its literal is looked at. -/
theorem Scalar.decode_refuses (elems : List Json) : (Scalar.decode (.arr elems)).Refused :=
  .within .variant

theorem Decode.char_candid (v : Json) : Candid table loud [v] (Decode.char v) := by
  unfold Decode.char
  split
  · split
    · exact .pure
    · exact .mismatch
  · exact .mismatch

/-- Of the literals only the scalars are loud. -/
theorem Literal.decode_candid (v : Json) : Candid table True [v] (Literal.decode v) := by
  refine .named .primitiveValue rfl (.variant fun t => ?_)
  split
  · exact .reads (.map (.wrapped Scalar.decode_refuses Scalar.decode_candid))
  · exact .reads (.map (.wrapped_quiet fun _ => .bool))
  · exact .reads (.map (.wrapped_quiet Decode.char_candid))
  · exact .reads (.map (.wrapped_quiet fun _ => .string))
  · exact .unknown

/-- A literal is a variant, so it is never a list. -/
theorem Literal.decode_refuses (elems : List Json) : (Literal.decode (.arr elems)).Refused :=
  .within .variant

theorem FieldOwner.decode_candid (v : Json) : Candid table loud [v] (FieldOwner.decode v) := by
  refine .named .fieldProjKind rfl (.variant fun t => ?_)
  split
  · exact .reads (.components fun p => .bind .entityId fun _ => .last (.optional .entityId))
  · exact .reads (.map (.wrapped_quiet fun _ => .natural))
  · exact .reads (.map (.wrapped_quiet fun _ => .entityId))
  · exact .unknown

theorem Projection.decode_candid (v : Json) : Candid table loud [v] (Projection.decode v) := by
  refine .named .projectionElem rfl (.variant fun t => ?_)
  split
  · exact .reads .pure
  · exact .reads .pure
  · exact .reads (.components fun p => .bind (FieldOwner.decode_candid _) fun _ => .last .entityId)
  · exact .unknown

/-- There are only numbers in a place, so it is never loud. -/
theorem Place.decode_candid (v : Json) : Candid table loud [v] (Place.decode v) := by
  refine .named .place rfl (.record (by decide) fun p => ?_)
  exact .bind .entityId fun _ => .last (.list Projection.decode_candid)

theorem BorrowKind.decode_candid (v : Json) : Candid table loud [v] (BorrowKind.decode v) :=
  .named .borrowKind rfl .tagOnly

theorem UnOp.decode_candid (v : Json) : Candid table loud [v] (UnOp.decode v) :=
  .named .unop rfl .tagOnly

theorem BinOp.decode_candid (v : Json) : Candid table loud [v] (BinOp.decode v) :=
  .named .binop rfl .tagOnly

/-- A constant is as loud as the literal in it. -/
theorem Constant.decode_candid (v : Json) : Candid table True [v] (Constant.decode v) := by
  refine .named .constant rfl (.variant fun t => ?_)
  split
  · exact .reads (.map (.wrapped Literal.decode_refuses Literal.decode_candid))
  · exact .reads (.map (.wrapped_quiet fun _ => .entityId))
  · exact .reads .pure
  · exact .unknown

/-- An operand is loud only as a constant. -/
theorem Operand.decode_candid (v : Json) : Candid table True [v] (Operand.decode v) := by
  refine .named .operand rfl (.variant fun t => ?_)
  split
  · exact .reads (.map (.wrapped_quiet Place.decode_candid))
  · exact .reads (.map (.wrapped_quiet Place.decode_candid))
  · refine .reads (.components fun p => ?_)
    exact .bind (ErasedTy.decode_candid _) fun _ => .last (Constant.decode_candid _)
  · exact .unknown

theorem Operand.decode_refuses (elems : List Json) : (Operand.decode (.arr elems)).Refused :=
  .within .variant

/-- The kind of an aggregate has numbers and types in it, but none of its operands. -/
theorem AggregateKind.decode_candid (v : Json) :
    Candid table loud [v] (AggregateKind.decode v) := by
  refine .named .aggregateKind rfl (.variant fun t => ?_)
  split
  · exact .reads .pure
  · refine .reads (.components fun p => ?_)
    exact .bind .entityId fun _ => .last (ErasedTy.decode_candid _)
  · refine .reads (.components fun p => .bind .entityId fun _ => ?_)
    refine .bind (.optional .entityId) fun _ => .bind (.list ErasedRegion.decode_candid) fun _ => ?_
    exact .last (.list ErasedTy.decode_candid)
  · exact .unknown

/-- A right-hand side is as loud as the operands in it. -/
theorem Rvalue.decode_candid (v : Json) : Candid table True [v] (Rvalue.decode v) := by
  refine .named .rvalue rfl (.variant fun t => ?_)
  -- a list is refused as an operand, so of the two attempts at it only one leaves events
  split
  · exact .reads (.map (.wrapped Operand.decode_refuses Operand.decode_candid))
  · refine .reads (.components fun p => ?_)
    exact .bind (Place.decode_candid _) fun _ => .last (BorrowKind.decode_candid _)
  · refine .reads (.components fun p => ?_)
    exact .bind (UnOp.decode_candid _) fun _ => .last (Operand.decode_candid _)
  · refine .reads (.components fun p => .bind (BinOp.decode_candid _) fun _ => ?_)
    exact .bind (Operand.decode_candid _) fun _ => .last (Operand.decode_candid _)
  · exact .reads (.map (.wrapped_quiet Place.decode_candid))
  · exact .reads (.map (.wrapped_quiet fun _ => .entityId))
  · refine .reads (.components fun p => ?_)
    exact .bind (AggregateKind.decode_candid _) fun _ => .last (.list Operand.decode_candid)
  · exact .unknown

/-! ## Statements -/

theorem BuiltinFun.decode_candid (v : Json) : Candid table loud [v] (BuiltinFun.decode v) :=
  .named .assumedFunId rfl .tagOnly

theorem Callee.decode_candid (v : Json) : Candid table loud [v] (Callee.decode v) := by
  refine .named .funId rfl (.variant fun t => ?_)
  split
  · exact .reads (.map (.wrapped_quiet fun _ => .entityId))
  · exact .reads (.map (.wrapped_quiet BuiltinFun.decode_candid))
  · exact .unknown

/-- A call is as loud as its arguments. -/
theorem Call.decode_candid (v : Json) : Candid table True [v] (Call.decode v) := by
  refine .named .call rfl (.record (by decide) fun p => ?_)
  refine .bind (Callee.decode_candid _) fun _ => ?_
  refine .bind (.list ErasedRegion.decode_candid) fun _ => ?_
  refine .bind (.list ErasedTy.decode_candid) fun _ => ?_
  exact .bind (.list Operand.decode_candid) fun _ => .last (Place.decode_candid _)

/-- A call is a record, so it is never a list. -/
theorem Call.decode_refuses (elems : List Json) : (Call.decode (.arr elems)).Refused :=
  .within .record

/-- An assertion is as loud as its operand. -/
theorem Assertion.decode_candid (v : Json) : Candid table True [v] (Assertion.decode v) := by
  refine .named .assertion rfl (.record (by decide) fun p => ?_)
  exact .bind (Operand.decode_candid _) fun _ => .last .bool

theorem Assertion.decode_refuses (elems : List Json) : (Assertion.decode (.arr elems)).Refused :=
  .within .record

/-- A value of another type in a switch breaks a rule, which is a failure without events. -/
theorem Switch.checkValues_candid (ty : IntTy) (branches : List (List Scalar × Statement)) :
    Candid table loud [] (Switch.checkValues ty branches) := by
  unfold Switch.checkValues
  split
  · exact .violation
  · exact .pure

/-- A statement is a record, so it is never a list. -/
theorem Statement.decode_refuses (elems : List Json) :
    (Statement.decode table (.arr elems)).Refused := by
  rw [Statement.decode]
  exact .within .record

theorem Switch.decode_refuses (elems : List Json) : (Switch.decode table (.arr elems)).Refused := by
  rw [Switch.decode]
  exact .within .variant

/-- On nodes of every size, the three decoders of statements account for their outcomes. -/
theorem statements_candid_of_size (n : Nat) :
    ∀ v : Json, sizeOf v = n →
      Candid table True [v] (Statement.decode table v) ∧
      Candid table True [v] (RawStatement.decode table v) ∧
      Candid table True [v] (Switch.decode table v) := by
  -- the three decoders call each other on smaller nodes
  induction n using Nat.strongRecOn with
  | ind n ih =>
    rintro v rfl
    have hstatement : ∀ w : Json, sizeOf w < sizeOf v →
        Candid table True [w] (Statement.decode table w) := by
      intro w hw
      exact (ih _ hw w rfl).1
    refine ⟨?_, ?_, ?_⟩
    · refine .named .statement (Statement.decode.eq_def table v) (.record (by decide) fun p => ?_)
      obtain ⟨origin, content, hcontent⟩ := p
      exact .bind (Provenance.decode_candid _) fun _ => .last (ih _ hcontent _ rfl).2.1
    · refine .named .rawStatement (RawStatement.decode.eq_def table v) (.variant fun t => ?_)
      split
      · refine .reads (.components fun p => ?_)
        exact .bind (Place.decode_candid _) fun _ => .last (Rvalue.decode_candid _)
      · exact .reads (.map (.wrapped_quiet Place.decode_candid))
      · exact .reads (.components fun p => .bind (Place.decode_candid _) fun _ => .last .entityId)
      · exact .reads (.map (.wrapped_quiet Place.decode_candid))
      · exact .reads (.map (.wrapped Assertion.decode_refuses Assertion.decode_candid))
      · exact .reads (.map (.wrapped Call.decode_refuses Call.decode_candid))
      · exact .reads .pure
      · exact .reads .pure
      · exact .reads (.map (.wrapped_quiet fun _ => .natural))
      · exact .reads (.map (.wrapped_quiet fun _ => .natural))
      · exact .reads .pure
      · rename_i payload hpayload
        refine .reads (.components fun p => ?_)
        obtain ⟨⟨first, hfirst⟩, ⟨rest, hrest⟩⟩ := p
        refine .bind (hstatement first (Nat.lt_trans hfirst hpayload)) fun _ => ?_
        exact .last (hstatement rest (Nat.lt_trans hrest hpayload))
      · rename_i payload hpayload
        refine .reads (.map (.wrappedBelow ?_ fun switch hswitch => ?_))
        -- the list itself is refused as a switch, so the attempt to read it leaves no events
        · rintro elems rfl; exact Switch.decode_refuses elems
        · exact (ih _ (Nat.lt_of_le_of_lt hswitch hpayload) switch rfl).2.2
      · rename_i payload hpayload
        refine .reads (.map (.wrappedBelow ?_ fun body hbody => ?_))
        · rintro elems rfl; exact Statement.decode_refuses elems
        · exact hstatement body (Nat.lt_of_le_of_lt hbody hpayload)
      · exact .unknown
    · refine .named .switch (Switch.decode.eq_def table v) (.variant fun t => ?_)
      split
      · rename_i payload hpayload
        refine .reads (.components fun p => ?_)
        obtain ⟨test, ⟨thenBranch, hthen⟩, ⟨elseBranch, helse⟩⟩ := p
        refine .bind (Operand.decode_candid _) fun _ => ?_
        refine .bind (hstatement thenBranch (Nat.lt_trans hthen hpayload)) fun _ => ?_
        exact .last (hstatement elseBranch (Nat.lt_trans helse hpayload))
      · rename_i payload hpayload
        refine .reads (.components fun p => ?_)
        obtain ⟨discr, ty, ⟨branches, hbranches⟩, ⟨otherwise, hotherwise⟩⟩ := p
        refine .bind (Operand.decode_candid _) fun _ => ?_
        refine .bind (IntTy.decode_candid _) fun _ => ?_
        refine .bind (.listBelow fun branch hbranch => .components fun p => ?_) fun _ => ?_
        · obtain ⟨values, ⟨body, hbody⟩⟩ := p
          refine .bind (.list Scalar.decode_candid) fun _ => ?_
          have hlt := Nat.lt_trans hbranch (Nat.lt_trans hbranches hpayload)
          exact .last (hstatement body (Nat.lt_trans hbody hlt))
        · refine .step (Switch.checkValues_candid _ _) fun _ => ?_
          exact .last (hstatement otherwise (Nat.lt_trans hotherwise hpayload))
      · rename_i payload hpayload
        refine .reads (.components fun p => ?_)
        obtain ⟨place, ⟨branches, hbranches⟩, ⟨otherwise, hotherwise⟩⟩ := p
        refine .bind (Place.decode_candid _) fun _ => ?_
        refine .bind (.listBelow fun branch hbranch => .components fun p => ?_) fun _ => ?_
        · obtain ⟨variants, ⟨body, hbody⟩⟩ := p
          refine .bind (.list fun _ => .entityId) fun _ => ?_
          have hlt := Nat.lt_trans hbranch (Nat.lt_trans hbranches hpayload)
          exact .last (hstatement body (Nat.lt_trans hbody hlt))
        · exact .last (hstatement otherwise (Nat.lt_trans hotherwise hpayload))
      · exact .unknown

/-- A statement is as loud as the literals in it, at every depth. -/
theorem Statement.decode_candid (v : Json) : Candid table True [v] (Statement.decode table v) :=
  (statements_candid_of_size _ v rfl).1

/-! ## Declarations -/

theorem RegionVar.decode_candid (v : Json) : Candid table loud [v] (RegionVar.decode v) := by
  refine .named .regionVar rfl (.record (by decide) fun p => ?_)
  exact .bind .entityId fun _ => .last (.optional .string)

theorem TypeVar.decode_candid (v : Json) : Candid table loud [v] (TypeVar.decode v) := by
  refine .named .typeVar rfl (.record (by decide) fun p => ?_)
  exact .bind .entityId fun _ => .last .string

theorem RegionGroup.decode_candid (v : Json) : Candid table loud [v] (RegionGroup.decode v) := by
  refine .named .regionGroup rfl (.record (by decide) fun p => ?_)
  exact .bind .entityId fun _ => .bind (.list fun _ => .entityId) fun _ =>
    .last (.list fun _ => .entityId)

/-- There are no literals in a field, only where it is from, a type and perhaps a name. -/
theorem Field.decode_candid (v : Json) : Candid table loud [v] (Field.decode table v) := by
  refine .named .field rfl (.record (by decide) fun p => ?_)
  refine .bind (Provenance.decode_candid _) fun _ => ?_
  exact .bind (.optional .string) fun _ => .last (SigTy.decode_candid _)

theorem Variant.decode_candid (v : Json) : Candid table loud [v] (Variant.decode table v) := by
  refine .named .variant rfl (.record (by decide) fun p => ?_)
  refine .bind (Provenance.decode_candid _) fun _ => ?_
  exact .bind .string fun _ => .last (.list Field.decode_candid)

/-- What a type is made of has no literals in it, so a second attempt at a list leaves no events. -/
theorem TypeDeclKind.decode_candid (v : Json) :
    Candid table loud [v] (TypeDeclKind.decode table v) := by
  refine .named .typeDeclKind rfl (.variant fun t => ?_)
  split
  · exact .reads (.map (.wrapped_quiet fun _ => .list Field.decode_candid))
  · exact .reads (.map (.wrapped_quiet fun _ => .list Variant.decode_candid))
  · exact .reads .pure
  · exact .unknown

/-- The event of a type declaration. -/
def TypeDecl.event (decl : TypeDecl) : Event := .typeDecl decl.id decl.name

/-- The event of a function declaration. -/
def FunDecl.event {B : Type} (decl : FunDecl B) : Event := .funDecl decl.id decl.name

/-- The event of a global declaration. -/
def GlobalDecl.event {B : Type} (decl : GlobalDecl B) : Event := .globalDecl decl.id decl.name

/-- A type declaration that is decoded leaves one event, behind everything that is in it. -/
theorem TypeDecl.decode_accounts (v : Json) :
    Accounts table False (fun decl => [decl.event]) [v] (TypeDecl.decode table v) := by
  refine .named .typeDecl rfl (.record (by decide) fun p => .bind .entityId fun _ => ?_)
  refine .bind (Provenance.decode_candid _) fun _ => .bind (Name.decode_candid _) fun _ => ?_
  refine .bind (.list RegionVar.decode_candid) fun _ => ?_
  refine .bind (.list TypeVar.decode_candid) fun _ => ?_
  refine .bind (.list RegionGroup.decode_candid) fun _ => ?_
  exact .bind (TypeDeclKind.decode_candid _) fun _ => .reported rfl

/-- There are types in a signature, and no literals. -/
theorem Signature.decode_candid (v : Json) : Candid table loud [v] (Signature.decode v) := by
  refine .named .signature rfl (.record (by decide) fun p => ?_)
  refine .bind (.list RegionVar.decode_candid) fun _ => .bind .natural fun _ => ?_
  refine .bind (.list RegionGroup.decode_candid) fun _ => ?_
  refine .bind (.list TypeVar.decode_candid) fun _ => ?_
  exact .bind (.list SigTy.decode_candid) fun _ => .last (SigTy.decode_candid _)

theorem Var.decode_candid (v : Json) : Candid table loud [v] (Var.decode v) := by
  refine .named .var rfl (.record (by decide) fun p => ?_)
  exact .bind .entityId fun _ => .bind (.optional .string) fun _ =>
    .last (ErasedTy.decode_candid _)

/-- A body with too few local variables breaks a rule, which is a failure without events. -/
theorem Body.checkLocals_candid (args locals : Nat) :
    Candid table loud [] (Body.checkLocals args locals) := by
  unfold Body.checkLocals
  split
  · exact .pure
  · exact .violation

/-- A body is as loud as its statement, and leaves no event of its own. -/
theorem Body.decode_candid (v : Json) :
    Candid table True [v] (Body.decode Statement.decode table v) := by
  refine .named .body rfl (.record (by decide) fun p => ?_)
  refine .bind (Provenance.decode_candid _) fun _ => .bind .natural fun _ => ?_
  refine .bind (.list Var.decode_candid) fun _ => ?_
  exact .step (Body.checkLocals_candid _ _) fun _ => .last (Statement.decode_candid _)

/-- A function that is decoded leaves one event. Its body leaves none. -/
theorem FunDecl.decode_accounts (v : Json) :
    Accounts table True (fun decl => [decl.event]) [v]
      (FunDecl.decode Statement.decode table v) := by
  refine .named .funDecl rfl (.record (by decide) fun p => .bind .entityId fun _ => ?_)
  refine .bind (Provenance.decode_candid _) fun _ => .bind (Name.decode_candid _) fun _ => ?_
  refine .bind (Signature.decode_candid _) fun _ => ?_
  exact .bind (.optional (Body.decode_candid _)) fun _ => .reported rfl

/-- A global that is decoded leaves one event, behind everything that is in it. -/
theorem GlobalDecl.decode_accounts (v : Json) :
    Accounts table True (fun decl => [decl.event]) [v]
      (GlobalDecl.decode Statement.decode table v) := by
  refine .named .globalDecl rfl (.record (by decide) fun p => .bind .entityId fun _ => ?_)
  refine .bind (Provenance.decode_candid _) fun _ => .bind (Name.decode_candid _) fun _ => ?_
  refine .bind (ErasedTy.decode_candid _) fun _ => ?_
  exact .bind (.optional (Body.decode_candid _)) fun _ => .reported rfl

/-- A group of no declarations breaks a rule, which is a failure without events. -/
theorem Group.decode_candid {sort : Entity} (v : Json) :
    Candid table loud [v] (Group.decode v : Outcome (Group (EntityId sort))) := by
  refine .variant fun t => ?_
  split
  · exact .reads (.map (.wrapped_quiet fun _ => .entityId))
  · refine .reads (.bind (.wrapped_quiet fun _ => .list fun _ => .entityId) fun ids => ?_)
    split
    · exact .violation
    · exact .pure
  · exact .unknown

/-- A group of several globals is refused as a node of the wrong shape. -/
theorem DeclGroup.decodeGlobal_candid (v : Json) :
    Candid table loud [v] (DeclGroup.decodeGlobal v) := by
  refine .variant fun t => ?_
  split
  · exact .reads (.wrapped_quiet fun _ => .entityId)
  · exact .mismatch
  · exact .unknown

/-- A group is read without events, whatever its sort is. -/
theorem DeclGroup.decode_candid (v : Json) : Candid table False [v] (DeclGroup.decode v) := by
  refine .named .declarationGroup rfl (.variant fun t => ?_)
  split
  · exact .reads (.map (.wrapped_quiet Group.decode_candid))
  · exact .reads (.map (.wrapped_quiet Group.decode_candid))
  · exact .reads (.map (.wrapped_quiet DeclGroup.decodeGlobal_candid))
  · exact .unknown

/-! ## Checks of a crate -/

/-- A declaration whose number is taken breaks a rule. The others leave no events. -/
theorem IdMap.indexOnto_candid {sort : Entity} {α : Type} (declSort : DeclSort)
    (id : α → EntityId sort) (map : IdMap sort α) (decls : List α) :
    Candid table False [] (IdMap.indexOnto declSort id map decls) := by
  induction decls generalizing map with
  | nil => exact .pure
  | cons decl decls ih =>
    unfold IdMap.indexOnto
    split
    · exact .violation
    · exact ih _

theorem IdMap.index_candid {sort : Entity} {α : Type} (declSort : DeclSort)
    (id : α → EntityId sort) (decls : List α) :
    Candid table False [] (IdMap.index declSort id decls) :=
  IdMap.indexOnto_candid declSort id .empty decls

/-- A group with an unknown member breaks a rule, which is a failure without events. -/
theorem Crate.checkGroups_candid {B : Type} (crate : Crate B) :
    Candid table False [] crate.checkGroups := by
  unfold Crate.checkGroups
  split
  · exact .violation
  · exact .pure

end BorrowIR
