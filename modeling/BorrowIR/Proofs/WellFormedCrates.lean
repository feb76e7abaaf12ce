import BorrowIR.Proofs.Occurrence
import BorrowIR.Proofs.OneFunction

/-!
# Accepted crates are well formed

The checks of the decoders are made where a type, a switch, a body or a group is decoded. They add
up to a property of the whole crate (`Crate.WellFormed`), at every depth:

* builtin types and tuples have the arguments that they take (`Ty.WellApplied`), wherever a type is
  mentioned;
* the values of a switch over integers have its type (`Switch.Uniform`), in every statement;
* a body has a variable for its result and one for each argument (`Body.Framed`);
* a group has a member.
-/

namespace BorrowIR

open Decode Outcome Wire

/-! ## The types that are mentioned -/

/-- The types in an operand. -/
def Operand.mentions : Operand → List ErasedTy
  | .copy _ | .move _ => []
  | .const ty _ => [ty]

/-- The types in what an aggregate builds. -/
def AggregateKind.mentions : AggregateKind → List ErasedTy
  | .tuple => []
  | .option _ content => [content]
  | .adt _ _ _ types => types

/-- The types in a right-hand side. -/
def Rvalue.mentions : Rvalue → List ErasedTy
  | .use operand | .unary _ operand => operand.mentions
  | .binary _ left right => left.mentions ++ right.mentions
  | .aggregate kind operands => kind.mentions ++ operands.flatMap Operand.mentions
  | .borrow .. | .discriminant _ | .global _ => []

/-- The types in a call. -/
def Call.mentions (call : Call) : List ErasedTy :=
  call.types ++ call.args.flatMap Operand.mentions

/-- The types in the test of a switch. -/
def Switch.mentions : Switch → List ErasedTy
  | .cond test _ _ => test.mentions
  | .values discr _ _ _ => discr.mentions
  | .variants .. => []

/-- The types in what a statement does, but for those in the statements inside it. -/
def RawStatement.mentions : RawStatement → List ErasedTy
  | .assign _ value => value.mentions
  | .assert assertion => assertion.cond.mentions
  | .call target => target.mentions
  | .switch choice => choice.mentions
  | .fakeRead _ | .setDiscriminant .. | .drop _ | .panic | .return | .break _ | .continue _ | .nop
  | .sequence .. | .loop _ => []

/-- The types of the fields of a type declaration. -/
def TypeDeclKind.mentions : TypeDeclKind → List SigTy
  | .struct fields => fields.map Field.ty
  | .enum variants => variants.flatMap fun variant => variant.fields.map Field.ty
  | .external => []

/-- The types of the arguments and of the result. -/
def Signature.mentions (signature : Signature) : List SigTy :=
  signature.inputs ++ [signature.output]

/-! ## The rules -/

/-- The values of the branches of a switch over integers have the type of the switch. -/
def Switch.Uniform : Switch → Prop
  | .values _ ty branches _ => ∀ branch ∈ branches, ∀ scalar ∈ branch.1, scalar.ty = ty
  | .cond .. | .variants .. => True

/-- The rules of a statement, but for those of the statements inside it. -/
structure RawStatement.Ruled (content : RawStatement) : Prop where
  types : ∀ ty ∈ content.mentions, ty.WellApplied
  switch : ∀ choice, content = .switch choice → choice.Uniform

/-- **The frame of a body.** There is a variable for the result and one for each argument, the
number behind the last argument has 64 bits if the number of variables has, and the variables are
the result, the arguments and the others, in this order. -/
structure Body.Framed {B : Type} (body : Body B) : Prop where
  argCount_lt : body.argCount < body.locals.length
  argCount_succ_lt : body.locals.length < naturalBound → body.argCount + 1 < naturalBound
  length_args : body.args.length = body.argCount
  locals_eq : ∃ result, body.returnVar? = some result ∧
    result :: (body.args ++ body.temporaries) = body.locals

/-- The rules of a body. -/
structure Body.WellFormed (body : Body Statement) : Prop where
  framed : body.Framed
  locals : ∀ var ∈ body.locals, var.ty.WellApplied
  code : body.code.Everywhere RawStatement.Ruled

/-- The bodies of the functions and of the globals of a crate. -/
def Crate.bodies {B : Type} (crate : Crate B) : List (Body B) :=
  crate.functions.values.filterMap FunDecl.body ++ crate.globals.values.filterMap GlobalDecl.body

/-- **The rules of a crate.** -/
structure Crate.WellFormed (crate : Crate Statement) : Prop where
  types : ∀ decl ∈ crate.types.values, ∀ ty ∈ decl.kind.mentions, ty.WellApplied
  signatures : ∀ decl ∈ crate.functions.values, ∀ ty ∈ decl.signature.mentions, ty.WellApplied
  globals : ∀ decl ∈ crate.globals.values, decl.ty.WellApplied
  bodies : ∀ body ∈ crate.bodies, body.WellFormed
  groups : ∀ group ∈ crate.groups, group.indices ≠ []

/-! ## Types and expressions -/

/-- The rules of applications hold in the types of signatures. -/
theorem SigTy.decode_wellApplied (v : Json) : Ensures (SigTy.decode v) Ty.WellApplied :=
  fun _ h => ((Ty.decode_iff_wire fun _ _ => Region.decode_iff).1 h).1

theorem ErasedTy.decode_wellApplied (v : Json) : Ensures (ErasedTy.decode v) Ty.WellApplied :=
  fun _ h => ((Ty.decode_iff_wire fun _ _ => ErasedRegion.decode_iff).1 h).1

theorem Operand.decode_mentions (v : Json) :
    Ensures (Operand.decode v) fun operand => ∀ ty ∈ operand.mentions, ty.WellApplied := by
  unfold Operand.decode
  refine .within (.variant fun t _ => ?_)
  split
  · exact .map (.always fun _ => List.forall_mem_nil _)
  · exact .map (.always fun _ => List.forall_mem_nil _)
  · refine .components fun p _ => .bind (ErasedTy.decode_wellApplied _) fun ty hty => ?_
    exact .skip fun _ => .pure (List.forall_mem_singleton.2 hty)
  · exact .fail

/-- What is ensured of the types in each operand is ensured of those in all of them. -/
theorem Operand.list_mentions (v : Json) :
    Ensures (list Operand.decode v) fun operands =>
      ∀ ty ∈ operands.flatMap Operand.mentions, ty.WellApplied := by
  refine (Ensures.list fun part _ => Operand.decode_mentions part).mono ?_
  intro operands h ty hty
  obtain ⟨operand, hoperand, hty⟩ := List.mem_flatMap.1 hty
  exact h operand hoperand ty hty

theorem AggregateKind.decode_mentions (v : Json) :
    Ensures (AggregateKind.decode v) fun kind => ∀ ty ∈ kind.mentions, ty.WellApplied := by
  unfold AggregateKind.decode
  refine .within (.variant fun t _ => ?_)
  split
  · exact .pure (List.forall_mem_nil _)
  · refine .components fun p _ => .skip fun _ => ?_
    refine .bind (ErasedTy.decode_wellApplied _) fun content hcontent => ?_
    exact .pure (List.forall_mem_singleton.2 hcontent)
  · refine .components fun p _ => .skip fun _ => .skip fun _ => .skip fun _ => ?_
    exact .bind (.list fun part _ => ErasedTy.decode_wellApplied part) fun types htypes =>
      .pure htypes
  · exact .fail

theorem Rvalue.decode_mentions (v : Json) :
    Ensures (Rvalue.decode v) fun value => ∀ ty ∈ value.mentions, ty.WellApplied := by
  unfold Rvalue.decode
  refine .within (.variant fun t _ => ?_)
  split
  · exact .map (.wrapped fun field _ => Operand.decode_mentions field)
  · exact .components fun p _ => .skip fun _ => .skip fun _ => .pure (List.forall_mem_nil _)
  · refine .components fun p _ => .skip fun _ => ?_
    exact .bind (Operand.decode_mentions _) fun operand hoperand => .pure hoperand
  · refine .components fun p _ => .skip fun _ => ?_
    refine .bind (Operand.decode_mentions _) fun left hleft => ?_
    refine .bind (Operand.decode_mentions _) fun right hright => .pure ?_
    exact List.forall_mem_append.2 ⟨hleft, hright⟩
  · exact .map (.always fun _ => List.forall_mem_nil _)
  · exact .map (.always fun _ => List.forall_mem_nil _)
  · refine .components fun p _ => .bind (AggregateKind.decode_mentions _) fun kind hkind => ?_
    refine .bind (Operand.list_mentions _) fun operands hoperands => .pure ?_
    exact List.forall_mem_append.2 ⟨hkind, hoperands⟩
  · exact .fail

/-! ## Statements -/

theorem Call.Wire.mentions {call : Call} {p : Packing} {v : Json} (h : call.Wire p v) :
    ∀ ty ∈ call.mentions, ty.WellApplied := by
  obtain ⟨-, -, -, hts, has, -⟩ := h
  refine List.forall_mem_append.2 ⟨?_, ?_⟩
  · intro ty hty
    obtain ⟨w, hw⟩ := readable_of_forall₂ hts ty hty
    exact ErasedTy.decode_wellApplied w ty hw
  · exact Operand.list_mentions _ _ (list_yields.2 ⟨_, rfl, has⟩)

/-- The rules hold in a layer on top of statements and switches in which they hold. -/
theorem RawStatement.Form.ruled {v : Json} {content : RawStatement} {p : Packing}
    (h : Form (fun s _ _ => s.Everywhere Ruled)
      (fun choice _ _ => (∀ ty ∈ choice.mentions, ty.WellApplied) ∧ choice.Uniform ∧
        ∀ part ∈ choice.parts, part.Everywhere Ruled) content p v) :
    content.Ruled ∧ ∀ part ∈ content.parts, part.Everywhere Ruled := by
  -- without a type and a switch there is nothing to check at the top
  have hplain : ∀ {content : RawStatement}, content.mentions = [] →
      (∀ choice, content ≠ .switch choice) → content.Ruled := by
    intro content hmentions hswitch
    refine ⟨?_, fun choice h => absurd h (hswitch choice)⟩
    rw [hmentions]
    exact List.forall_mem_nil _
  cases h with
  | assign _ hvalue => exact ⟨⟨Rvalue.decode_mentions _ _ hvalue, nofun⟩, nofun⟩
  | assert hassertion =>
    obtain ⟨-, hcond⟩ := hassertion
    exact ⟨⟨Operand.decode_mentions _ _ hcond, nofun⟩, nofun⟩
  | call htarget => exact ⟨⟨htarget.mentions, nofun⟩, nofun⟩
  | sequence hfirst hrest =>
    exact ⟨hplain rfl nofun, List.forall_mem_cons.2 ⟨hfirst, List.forall_mem_singleton.2 hrest⟩⟩
  | loop hbody => exact ⟨hplain rfl nofun, List.forall_mem_singleton.2 hbody⟩
  | switch hchoice =>
    obtain ⟨htypes, huniform, hparts⟩ := hchoice
    refine ⟨⟨htypes, ?_⟩, hparts⟩
    rintro choice ⟨⟩
    exact huniform
  | fakeRead | setDiscriminant | drop | panic | «return» | «break» | «continue» | nop =>
    exact ⟨hplain rfl nofun, nofun⟩

/-- What holds of the bodies of all branches, and of the last statement, holds of all parts. -/
theorem Branch.forall_parts {L : Type} {label : L → Packing → Json → Prop}
    {branches : List (List L × Statement)} {otherwise : Statement} {p : Packing} {bs : List Json}
    {P : Statement → Prop} (hbs : Each (Branch.Form label fun s _ _ => P s) branches p bs)
    (ho : P otherwise) : ∀ part ∈ branches.map Prod.snd ++ [otherwise], P part := by
  refine List.forall_mem_append.2 ⟨?_, List.forall_mem_singleton.2 ho⟩
  intro part hpart
  obtain ⟨branch, hbranch, rfl⟩ := List.mem_map.1 hpart
  obtain ⟨_, _, _, ⟨_, hbody⟩⟩ := hbs.exists_of_mem branch hbranch
  exact hbody

/-- The values of a switch have its type, and the rules hold in its branches. -/
theorem Switch.Form.ruled {v : Json} {choice : Switch} {p : Packing}
    (h : Form (fun s _ _ => s.Everywhere RawStatement.Ruled) choice p v) :
    (∀ ty ∈ choice.mentions, ty.WellApplied) ∧ choice.Uniform ∧
      ∀ part ∈ choice.parts, part.Everywhere RawStatement.Ruled := by
  cases h with
  | cond htest ht he =>
    have hparts := List.forall_mem_cons.2 ⟨ht, List.forall_mem_singleton.2 he⟩
    exact ⟨Operand.decode_mentions _ _ htest, trivial, hparts⟩
  | values hdiscr hbs hvalues ho =>
    exact ⟨Operand.decode_mentions _ _ hdiscr, hvalues, Branch.forall_parts hbs ho⟩
  | variants _ hbs ho => exact ⟨nofun, trivial, Branch.forall_parts hbs ho⟩

/-- The rules hold in every statement that is decoded, at every depth. -/
theorem Statement.decode_ruled (table : FileTable) (v : Json) :
    Ensures (Statement.decode table v) fun s => s.Everywhere RawStatement.Ruled := by
  refine Statement.decode_induction
    (P := fun _ s => s.Everywhere RawStatement.Ruled)
    (Q := fun _ content =>
      content.Ruled ∧ ∀ part ∈ content.parts, part.Everywhere RawStatement.Ruled)
    (S := fun _ choice => (∀ ty ∈ choice.mentions, ty.WellApplied) ∧ choice.Uniform ∧
      ∀ part ∈ choice.parts, part.Everywhere RawStatement.Ruled) ?_ ?_ ?_ v
  · rintro v s p - ⟨-, -, hcontent⟩
    exact Statement.everywhere_iff.2 hcontent
  · intro v content p h
    exact h.ruled
  · intro v choice p h
    exact h.ruled

/-! ## Declarations -/

theorem Field.decode_wellApplied (table : FileTable) (v : Json) :
    Ensures (Field.decode table v) fun field => field.ty.WellApplied := by
  unfold Field.decode
  refine .within (.record (by decide) fun p _ => .skip fun _ => .skip fun _ => ?_)
  exact .bind (SigTy.decode_wellApplied _) fun ty hty => .pure hty

theorem Field.list_wellApplied (table : FileTable) (v : Json) :
    Ensures (list (Field.decode table) v) fun fields =>
      ∀ ty ∈ fields.map Field.ty, ty.WellApplied := by
  refine (Ensures.list fun part _ => Field.decode_wellApplied table part).mono ?_
  intro fields h ty hty
  obtain ⟨field, hfield, rfl⟩ := List.mem_map.1 hty
  exact h field hfield

theorem Variant.decode_wellApplied (table : FileTable) (v : Json) :
    Ensures (Variant.decode table v) fun variant =>
      ∀ ty ∈ variant.fields.map Field.ty, ty.WellApplied := by
  unfold Variant.decode
  refine .within (.record (by decide) fun p _ => .skip fun _ => .skip fun _ => ?_)
  exact .bind (Field.list_wellApplied table _) fun fields hfields => .pure hfields

theorem TypeDeclKind.decode_mentions (table : FileTable) (v : Json) :
    Ensures (TypeDeclKind.decode table v) fun kind => ∀ ty ∈ kind.mentions, ty.WellApplied := by
  unfold TypeDeclKind.decode
  refine .within (.variant fun t _ => ?_)
  split
  · exact .map (.wrapped fun field _ => Field.list_wellApplied table field)
  · refine .map (.wrapped fun field _ => ?_)
    refine (Ensures.list fun part _ => Variant.decode_wellApplied table part).mono ?_
    intro variants h ty hty
    obtain ⟨variant, hvariant, hty⟩ := List.mem_flatMap.1 hty
    exact h variant hvariant ty hty
  · exact .pure (List.forall_mem_nil _)
  · exact .fail

theorem TypeDecl.decode_mentions (table : FileTable) (v : Json) :
    Ensures (TypeDecl.decode table v) fun decl => ∀ ty ∈ decl.kind.mentions, ty.WellApplied := by
  unfold TypeDecl.decode
  refine .within (.record (by decide) fun p _ => .skip fun _ => .skip fun _ => .skip fun _ => ?_)
  refine .skip fun _ => .skip fun _ => .skip fun _ => ?_
  refine .bind (TypeDeclKind.decode_mentions table _) fun kind hkind => ?_
  exact .skip fun _ => .pure hkind

theorem Signature.decode_mentions (v : Json) :
    Ensures (Signature.decode v) fun signature =>
      ∀ ty ∈ signature.mentions, ty.WellApplied := by
  unfold Signature.decode
  refine .within (.record (by decide) fun p _ => .skip fun _ => .skip fun _ => .skip fun _ => ?_)
  refine .skip fun _ => .bind (.list fun part _ => SigTy.decode_wellApplied part) ?_
  intro inputs hinputs
  refine .bind (SigTy.decode_wellApplied _) fun output houtput => .pure ?_
  exact List.forall_mem_append.2 ⟨hinputs, List.forall_mem_singleton.2 houtput⟩

theorem Var.decode_wellApplied (v : Json) :
    Ensures (Var.decode v) fun var => var.ty.WellApplied := by
  unfold Var.decode
  refine .within (.record (by decide) fun p _ => .skip fun _ => .skip fun _ => ?_)
  exact .bind (ErasedTy.decode_wellApplied _) fun ty hty => .pure hty

/-- The check of a body is all that its frame needs. -/
theorem Body.framed_of_lt {B : Type} {body : Body B} (h : body.argCount < body.locals.length) :
    body.Framed := by
  refine ⟨h, fun hbound => by omega, ?_, ?_⟩
  · rw [Body.args, List.length_take, List.length_drop]
    omega
  · obtain ⟨result, rest, hlocals⟩ := List.exists_cons_of_length_pos (Nat.zero_lt_of_lt h)
    refine ⟨result, by rw [Body.returnVar?, hlocals, List.head?_cons], ?_⟩
    rw [Body.args, Body.temporaries, hlocals, List.drop_succ_cons, List.drop_succ_cons,
      List.drop_zero, List.take_append_drop]

/-- A body that passes the check has a variable for every argument and one more. -/
theorem Body.checkLocals_ensures (args locals : Nat) :
    Ensures (Body.checkLocals args locals) fun _ => args < locals := by
  unfold Body.checkLocals
  split
  · rename_i h
    exact .pure h
  · exact .fail

/-- A body has the rules that the reader of its code ensures, and those of the variables. -/
theorem Body.decode_ensures {B : Type} {code : BodyReader B} {P : B → Prop}
    (hcode : ∀ table v, Ensures (code table v) P) (table : FileTable) (v : Json) :
    Ensures (Body.decode code table v) fun body =>
      body.Framed ∧ (∀ var ∈ body.locals, var.ty.WellApplied) ∧ P body.code := by
  unfold Body.decode
  refine .within (.record (by decide) fun p _ => .skip fun _ => .skip fun _ => ?_)
  refine .bind (.list fun part _ => Var.decode_wellApplied part) fun locals hlocals => ?_
  refine .bind (Body.checkLocals_ensures _ _) fun _ hlt => ?_
  exact .bind (hcode table _) fun content hcontent =>
    .pure ⟨Body.framed_of_lt hlt, hlocals, hcontent⟩

/-- A body that is decoded is well formed, at every depth of its statement. -/
theorem Body.decode_wellFormed (table : FileTable) (v : Json) :
    Ensures (Body.decode Statement.decode table v) Body.WellFormed := by
  refine (Body.decode_ensures Statement.decode_ruled table v).mono ?_
  rintro body ⟨hframed, hlocals, hcode⟩
  exact ⟨hframed, hlocals, hcode⟩

theorem Body.optional_wellFormed (table : FileTable) (v : Json) :
    Ensures (optional (Body.decode Statement.decode table) v) fun body? =>
      ∀ body, body? = some body → body.WellFormed := by
  refine .optional (by simp) ?_
  refine (Body.decode_wellFormed table v).mono fun body hbody => ?_
  rintro _ ⟨⟩
  exact hbody

/-- A function that is decoded is well formed, and so is its body if it has one. -/
theorem FunDecl.decode_wellFormed (table : FileTable) (v : Json) :
    Ensures (FunDecl.decode Statement.decode table v) fun decl =>
      (∀ ty ∈ decl.signature.mentions, ty.WellApplied) ∧
        ∀ body, decl.body = some body → body.WellFormed := by
  unfold FunDecl.decode
  refine .within (.record (by decide) fun p _ => .skip fun _ => .skip fun _ => .skip fun _ => ?_)
  refine .bind (Signature.decode_mentions _) fun signature hsignature => ?_
  refine .bind (Body.optional_wellFormed table _) fun body hbody => ?_
  exact .skip fun _ => .pure ⟨hsignature, hbody⟩

theorem GlobalDecl.decode_wellFormed (table : FileTable) (v : Json) :
    Ensures (GlobalDecl.decode Statement.decode table v) fun decl =>
      decl.ty.WellApplied ∧ ∀ body, decl.body = some body → body.WellFormed := by
  unfold GlobalDecl.decode
  refine .within (.record (by decide) fun p _ => .skip fun _ => .skip fun _ => .skip fun _ => ?_)
  refine .bind (ErasedTy.decode_wellApplied _) fun ty hty => ?_
  refine .bind (Body.optional_wellFormed table _) fun body hbody => ?_
  exact .skip fun _ => .pure ⟨hty, hbody⟩

/-- A group that is decoded has a member. -/
theorem Group.decode_ids {sort : Entity} (v : Json) :
    Ensures (Group.decode v : Outcome (Group (EntityId sort))) fun group => group.ids ≠ [] := by
  unfold Group.decode
  refine .variant fun t _ => ?_
  split
  · exact .map (.always fun _ => List.cons_ne_nil _ _)
  · refine .skip fun ids => ?_
    split
    · exact .fail
    · rename_i hids
      exact .pure fun h => hids (List.isEmpty_iff.2 h)
  · exact .fail

theorem DeclGroup.decode_indices (v : Json) :
    Ensures (DeclGroup.decode v) fun group => group.indices ≠ [] := by
  unfold DeclGroup.decode
  refine .within (.variant fun t _ => ?_)
  split
  · refine .map (.wrapped fun field _ => (Group.decode_ids field).mono fun group h => ?_)
    exact fun hnil => h (List.map_eq_nil_iff.1 hnil)
  · refine .map (.wrapped fun field _ => (Group.decode_ids field).mono fun group h => ?_)
    exact fun hnil => h (List.map_eq_nil_iff.1 hnil)
  · exact .map (.always fun _ => List.cons_ne_nil _ _)
  · exact .fail

/-! ## Crates -/

/-- What is ensured of each declaration in a list holds of the values of a map that has them. -/
theorem IdMap.forall_values {sort : Entity} {α : Type} {map : IdMap sort α}
    {id : α → EntityId sort} {decode : Json → Outcome α} {post : α → Prop} {decls : List α}
    {vs : List Json}
    (hdecode : ∀ v, Ensures (decode v) post)
    (hperm : map.entries.Perm (decls.map fun decl => (id decl, decl)))
    (hall : List.Forall₂ (fun v decl => (decode v).Yields decl) vs decls) :
    ∀ decl ∈ map.values, post decl := by
  intro decl hvalue
  obtain ⟨entry, hentry, rfl⟩ := List.mem_map.1 hvalue
  obtain ⟨decl, hmem, rfl⟩ := List.mem_map.1 (hperm.mem_iff.1 hentry)
  obtain ⟨v, hv⟩ := readable_of_forall₂ hall decl hmem
  exact hdecode v decl hv

/-- **Accepted crates are well formed.** Whatever the document, the rules hold everywhere in the
crate that is decoded from it. -/
theorem Crate.wellFormed_of_decode {v : Json} {crate : Crate Statement}
    (h : (Crate.decode v).Yields crate) : crate.WellFormed := by
  obtain ⟨listing, hread, -, hholds⟩ := Crate.decodeWith_yields.1 h
  obtain ⟨files, gs, ts, fs, ls, -, -, hgroups, htypes, hfunctions, hglobals⟩ := hread
  have hfuns := IdMap.forall_values (FunDecl.decode_wellFormed listing.table) hholds.functions
    hfunctions
  have hglobs := IdMap.forall_values (GlobalDecl.decode_wellFormed listing.table) hholds.globals
    hglobals
  refine ⟨?_, fun decl hdecl => (hfuns decl hdecl).1, fun decl hdecl => (hglobs decl hdecl).1,
    ?_, ?_⟩
  · exact IdMap.forall_values (TypeDecl.decode_mentions listing.table) hholds.types htypes
  · -- a body belongs to a function or to a global
    refine List.forall_mem_append.2 ⟨fun body hbody => ?_, fun body hbody => ?_⟩
    · obtain ⟨decl, hdecl, hbody⟩ := List.mem_filterMap.1 hbody
      exact (hfuns decl hdecl).2 body hbody
    · obtain ⟨decl, hdecl, hbody⟩ := List.mem_filterMap.1 hbody
      exact (hglobs decl hdecl).2 body hbody
  · intro group hgroup
    rw [hholds.groups] at hgroup
    obtain ⟨w, hw⟩ := readable_of_forall₂ hgroups group hgroup
    exact DeclGroup.decode_indices w group hw

/-! ## A crate with a box and a switch -/

namespace Json

/-- The type of a box with a byte in it. -/
def boxedByte : Json :=
  .tagged "Adt" (.arr [.tagged "Assumed" (.str "Box"), .arr [],
    .arr [.tagged "Integer" (.str "U8")]])

/-- A switch over a byte. -/
def byteSwitch : Json :=
  .tagged "Switch" (.tagged "SwitchInt" (.arr [
    .tagged "Constant" (.arr [.tagged "Integer" (.str "U8"),
      .tagged "ConstantValue" (.tagged "Scalar" (.tagged "U8" (.num "0")))]),
    .str "U8", .arr [.arr [.arr [.tagged "U8" (.num "1")], topStatement .null (.str "Nop")]],
    topStatement .null (.str "Panic")]))

end Json

theorem ErasedTy.decode_boxedByte :
    (ErasedTy.decode Json.boxedByte).Yields (.app (.builtin .box) [] [.int ⟨false, .w8⟩]) := by
  unfold Yields
  cbv

theorem Statement.decode_byteSwitch :
    ∃ s, (Statement.decode .one (Json.topStatement .null Json.byteSwitch)).Yields s := by
  refine ⟨?_, ?_⟩
  rotate_left
  · unfold Yields
    cbv
    rfl

/-- The rules hold in a crate whose one function has a box for its result and a switch for its
code. -/
theorem Crate.wellFormed_byteSwitch :
    ∃ crate, (Crate.decode (Json.oneFunction [Json.namelessVar Json.boxedByte]
      (Json.topStatement .null Json.byteSwitch))).Yields crate ∧ crate.WellFormed := by
  obtain ⟨s, hs⟩ := Statement.decode_byteSwitch
  have hvar := Var.decode_nameless ErasedTy.decode_boxedByte
  have hcrate := Crate.decode_oneFunction (.cons hvar .nil) (List.cons_ne_nil _ _) hs
  exact ⟨_, hcrate, Crate.wellFormed_of_decode hcrate⟩

end BorrowIR
