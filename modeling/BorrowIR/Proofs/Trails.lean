import BorrowIR.Proofs.StatementNodes

/-!
# The way from a document to what is wrong with it

A failure has a path of names of decoders. The path leads down the document: each name on it is that
of a decoder that fails on a node of the document, with the rest of the path, and the nodes stand
one below the other.

* `Decode.Named`: the decoders that put their names on paths;
* `Json.ShownAs`: the text of a node in a message;
* `Cause.IsAbout`: the cause can be seen in the node, and its message ends in what is seen there;
* `Trail`: the nodes of a path;
* `Outcome.Localised`: an outcome whose failure, if it is one, has a trail. There is one lemma for
  each combinator that `Crate.decode` is made of.
-/

namespace BorrowIR

open Outcome

/-- **The names on paths.** The decoder puts this name on the path of its failures. What is decoded
with the files of the crate gets `table`, and the code of bodies is statements. -/
inductive Decode.Named (table : FileTable) : {α : Type} → String → (Json → Outcome α) → Prop
  | id {sort : Entity} : Named table "id" (Decode.entityId : Json → Outcome (EntityId sort))
  | fileId : Named table "file_id" FileId.decode
  | fileName : Named table "file_name" FileName.decode
  | idToFile : Named table "id_to_file" FileTable.decode
  | loc : Named table "loc" Loc.decode
  | span : Named table "span" (Span.decode table)
  | provenance : Named table "meta" (Provenance.decode table)
  | name : Named table "name" Name.decode
  | region : Named table "region" Region.decode
  | erasedRegion : Named table "erased_region" ErasedRegion.decode
  | integerTy : Named table "integer_ty" IntTy.decode
  | refKind : Named table "ref_kind" Mutability.decode
  | assumedTy : Named table "assumed_ty" BuiltinTy.decode
  | typeId : Named table "type_id" TypeHead.decode
  | sigTy : Named table "ty" (Ty.decode Region.decode)
  | erasedTy : Named table "ty" (Ty.decode ErasedRegion.decode)
  | scalarValue : Named table "scalar_value" Scalar.decode
  | primitiveValue : Named table "primitive_value" Literal.decode
  | fieldProjKind : Named table "field_proj_kind" FieldOwner.decode
  | projectionElem : Named table "projection_elem" Projection.decode
  | place : Named table "place" Place.decode
  | borrowKind : Named table "borrow_kind" BorrowKind.decode
  | unop : Named table "unop" UnOp.decode
  | binop : Named table "binop" BinOp.decode
  | constant : Named table "operand_constant_value" Constant.decode
  | operand : Named table "operand" Operand.decode
  | aggregateKind : Named table "aggregate_kind" AggregateKind.decode
  | rvalue : Named table "rvalue" Rvalue.decode
  | assumedFunId : Named table "assumed_fun_id" BuiltinFun.decode
  | funId : Named table "fun_id" Callee.decode
  | call : Named table "call" Call.decode
  | assertion : Named table "assert" Assertion.decode
  | statement : Named table "statement" (Statement.decode table)
  | rawStatement : Named table "raw_statement" (RawStatement.decode table)
  | switch : Named table "switch" (Switch.decode table)
  | regionVar : Named table "region_var" RegionVar.decode
  | typeVar : Named table "type_var" TypeVar.decode
  | regionGroup : Named table "region_group" RegionGroup.decode
  | field : Named table "field" (Field.decode table)
  | variant : Named table "variant" (Variant.decode table)
  | typeDeclKind : Named table "type_decl_kind" (TypeDeclKind.decode table)
  | typeDecl : Named table "type_decl" (TypeDecl.decode table)
  | signature : Named table "signature" Signature.decode
  | var : Named table "var" Var.decode
  | body : Named table "body" (Body.decode Statement.decode table)
  | funDecl : Named table "fun_decl" (FunDecl.decode Statement.decode table)
  | globalDecl : Named table "global_decl" (GlobalDecl.decode Statement.decode table)
  | declarationGroup : Named table "declaration_group" DeclGroup.decode
  | crate : Named table "crate" Crate.decode

/-- **The text of a node in a message.** The whole text, if it has sixty characters at most;
otherwise its first sixty characters, and three dots. -/
inductive Json.ShownAs (v : Json) : String → Prop
  | whole : v.compress.length ≤ 60 → ShownAs v v.compress
  | cut {start rest : String} : v.compress = start ++ rest → start.length = 60 → rest ≠ "" →
    ShownAs v (start ++ "...")

/-- **What a cause shows.** If a node has another shape than expected, it stands at or below this
one, and the message ends in its text. If a tag is not known, it is the tag of a node at or below
this one, and the message ends in the tag. -/
def Cause.IsAbout (cause : Cause) (v : Json) : Prop :=
  match cause with
  | .mismatch expected found =>
    found.Within v ∧ ∃ shown, found.ShownAs shown ∧
      cause.text = "expected " ++ expected.text ++ ", found " ++ shown
  | .unknownVariant noun tag =>
    ((Json.str tag).Within v ∨ ∃ payload, (Json.tagged tag payload).Within v) ∧
      cause.text = "expected a variant of " ++ noun ++ ", found variant `" ++ tag ++ "`"
  | .unknownFile _ | .outOfRange .. | .violation _ => True

/-- An excerpt is the text of its node in messages. -/
theorem Json.shownAs_excerpt (v : Json) : v.ShownAs v.excerpt := by
  unfold excerpt
  dsimp only
  split
  · rename_i hshort
    rw [String.ofList_toList]
    exact .whole (by rwa [← String.length_toList])
  · rename_i hlong
    have hsplit : v.compress = String.ofList (v.compress.toList.take excerptLength) ++
        String.ofList (v.compress.toList.drop excerptLength) := by
      rw [← String.ofList_append, List.take_append_drop, String.ofList_toList]
    refine .cut hsplit ?_ ?_
    · rw [String.length_ofList, List.length_take]
      exact Nat.min_eq_left (Nat.le_of_not_le hlong)
    -- something is cut off, as the text is longer than what is shown
    · intro hempty
      have hdrop := congrArg String.length hempty
      rw [String.length_ofList, List.length_drop] at hdrop
      exact hlong (Nat.le_of_sub_eq_zero hdrop)

/-- A node of another shape is shown wherever it stands below. -/
theorem Cause.isAbout_mismatch {expected : Shape} {found v : Json} (h : found.Within v) :
    (Cause.mismatch expected found).IsAbout v :=
  ⟨h, found.excerpt, found.shownAs_excerpt, rfl⟩

/-- What is seen in a node is seen in the nodes above it. -/
theorem Cause.IsAbout.trans {cause : Cause} {v w : Json} (h : cause.IsAbout v) (hv : v.Within w) :
    cause.IsAbout w := by
  cases cause with
  | mismatch expected found => exact ⟨h.1.trans hv, h.2⟩
  | unknownVariant noun tag =>
    obtain ⟨hwithin | ⟨payload, hwithin⟩, htext⟩ := h
    · exact ⟨.inl (hwithin.trans hv), htext⟩
    · exact ⟨.inr ⟨payload, hwithin.trans hv⟩, htext⟩
  | unknownFile | outOfRange | violation => trivial

/-- **The nodes of a path.** Each name on the path has a node, at or below the node of the name
before it, and a decoder with the name fails on the node with the cause and the path from this name
on. The cause is about the last node. -/
inductive Trail (table : FileTable) (cause : Cause) : List String → Json → Prop
  | found {v : Json} : cause.IsAbout v → Trail table cause [] v
  | into {α : Type} {decoder : String} {decode : Json → Outcome α} {path : List String}
    {node v : Json} : node.Within v → Decode.Named table decoder decode →
    (decode node).result = .error ⟨cause, decoder :: path⟩ → Trail table cause path node →
    Trail table cause (decoder :: path) v

/-- The nodes stand at or below this one. -/
def Json.Around (v : Json) (parts : List Json) : Prop := ∀ part ∈ parts, part.Within v

namespace Json

theorem around_nil {v : Json} : v.Around [] := List.forall_mem_nil _

/-- A node is around several ones if it is around each of them. -/
theorem around_cons {v part : Json} {parts : List Json} :
    v.Around (part :: parts) ↔ part.Within v ∧ v.Around parts :=
  List.forall_mem_cons

theorem around_self (v : Json) : v.Around [v] := around_cons.2 ⟨.refl, around_nil⟩

/-- A node around what is around some nodes is around these nodes. -/
theorem Around.trans {v w : Json} {parts : List Json} (h : v.Around parts) (hv : v.Within w) :
    w.Around parts :=
  fun part hpart => (h part hpart).trans hv

theorem around_arr (elems : List Json) : (Json.arr elems).Around elems :=
  fun _ hpart => .elem hpart .refl

theorem around_of_elements {v : Json} {below : List v.Part} (h : v.elements? = some below) :
    v.Around (below.map Subtype.val) := by
  rw [elements?_eq_some] at h
  have haround := around_arr (below.map Subtype.val)
  rwa [← h] at haround

end Json

namespace Outcome

variable {α β : Type}

/-- **Failures that can be followed.** If the outcome is a failure, its path has a trail from every
node around these ones. -/
def Localised (table : FileTable) (parts : List Json) (o : Outcome α) : Prop :=
  ∀ failure, o.result = .error failure → ∀ v : Json, v.Around parts →
    Trail table failure.cause failure.path v

namespace Localised

variable {table : FileTable} {part v : Json} {parts parts' : List Json}

/-- A failure at a node has a trail that starts there. -/
theorem trail {o : Outcome α} (h : Localised table [v] o) {failure : Failure}
    (hfailure : o.result = .error failure) : Trail table failure.cause failure.path v :=
  h failure hfailure v v.around_self

theorem of_ok {o : Outcome α} {a : α} (h : o.Yields a) : Localised table parts o := by
  intro failure hfailure
  rw [Yields, hfailure] at h
  cases h

theorem pure {a : α} : Localised table parts (pure a) := of_ok (yields_pure.2 rfl)

theorem report {event : Event} : Localised table parts (report event) := of_ok (a := ()) rfl

/-- A failure needs no further trail if it is about every node around what it was read from. -/
theorem fail {c : Cause} (h : ∀ v : Json, v.Around parts → c.IsAbout v) :
    Localised table parts (fail c : Outcome α) := by
  intro failure hfailure v hv
  cases hfailure
  exact .found (h v hv)

theorem mono {o : Outcome α} (h : Localised table parts o)
    (hparts : ∀ v : Json, v.Around parts' → v.Around parts) : Localised table parts' o :=
  fun failure hfailure v hv => h failure hfailure v (hparts v hv)

/-- A trail from the parts of a node is one from the node. -/
theorem below {o : Outcome α} (h : Localised table parts o) (hparts : v.Around parts) :
    Localised table [v] o :=
  h.mono fun _ hw => hparts.trans (Json.around_cons.1 hw).1

/-- What the first step yields is known in the second one. -/
theorem bind_of_yields {o : Outcome α} {next : α → Outcome β} (h : Localised table parts o)
    (hnext : ∀ a, o.Yields a → Localised table parts (next a)) :
    Localised table parts (o >>= next) := by
  obtain ⟨log, result⟩ := o
  cases result with
  | error failure =>
    rw [bind_error]
    intro failure' hfailure
    cases hfailure
    exact h failure rfl
  | ok a => exact hnext a rfl

/-- The first step is for the first node, the next steps are for the others. -/
theorem bind {o : Outcome α} {next : α → Outcome β} (h : Localised table [part] o)
    (hnext : ∀ a, o.Yields a → Localised table parts (next a)) :
    Localised table (part :: parts) (o >>= next) := by
  refine bind_of_yields (h.mono fun v hv => ?_) fun a ha => (hnext a ha).mono fun v hv => ?_
  · exact Json.around_cons.2 ⟨(Json.around_cons.1 hv).1, Json.around_nil⟩
  · exact (Json.around_cons.1 hv).2

/-- A step that is not for a node. -/
theorem step {o : Outcome α} {next : α → Outcome β} (h : Localised table [] o)
    (hnext : ∀ a, Localised table parts (next a)) : Localised table parts (o >>= next) :=
  bind_of_yields (h.mono fun _ _ => Json.around_nil) fun a _ => hnext a

/-- The decoders around a decoder get its failures with its name on the path. -/
theorem named {decoder : String} {decode : Json → Outcome α}
    (hnamed : Decode.Named table decoder decode) {o : Outcome α} (heq : decode v = within decoder o)
    (h : Localised table [v] o) : Localised table [v] (decode v) := by
  intro failure hfailure w hw
  obtain ⟨log, result⟩ := o
  cases result with
  | ok a =>
    rw [heq] at hfailure
    cases hfailure
  | error inner =>
    have hdecode : (decode v).result = .error (inner.within decoder) := by rw [heq]; rfl
    obtain rfl : inner.within decoder = failure := by
      rw [hdecode] at hfailure
      exact Except.error.inj hfailure
    exact .into (Json.around_cons.1 hw).1 hnamed hdecode (h inner rfl v v.around_self)

/-- Where both readings fail, the first failure counts. -/
theorem orElse {first second : Outcome α} (h : Localised table parts first) :
    Localised table parts (first.orElse second) := by
  obtain ⟨log, result⟩ := first
  obtain ⟨log', result'⟩ := second
  cases result with
  | ok a => exact of_ok (a := a) rfl
  | error failure =>
    cases result' with
    | ok a => exact of_ok (a := a) rfl
    | error failure' => exact h

/-! ### Readers of nodes -/

/-- A node of the wrong shape is the one that the failure is about. -/
theorem mismatch {shape : Shape} : Localised table [v] (Decode.mismatch shape v : Outcome α) :=
  fail fun _ hw => Cause.isAbout_mismatch (Json.around_cons.1 hw).1

theorem each {decode : (part : Json) → sizeOf part < sizeOf v → Outcome α}
    (h : ∀ part hpart, Localised table [part] (decode part hpart)) :
    ∀ below : List v.Part, Localised table (below.map Subtype.val) (Decode.each decode below)
  | [] => pure
  | part :: below => bind (h part.1 part.2) fun _ _ =>
      bind_of_yields (each h below) fun _ _ => pure

/-- The trail of a list goes on at the element that cannot be decoded. -/
theorem listBelow {decode : (part : Json) → sizeOf part < sizeOf v → Outcome α}
    (h : ∀ part hpart, Localised table [part] (decode part hpart)) :
    Localised table [v] (Decode.listBelow v decode) := by
  unfold Decode.listBelow
  cases helements : v.elements? with
  | none => exact mismatch
  | some below => exact (each h below).below (Json.around_of_elements helements)

theorem list {decode : Json → Outcome α} (h : ∀ part, Localised table [part] (decode part)) :
    Localised table [v] (Decode.list decode v) :=
  listBelow fun part _ => h part

end Localised

end Outcome

/-! ## Parts of nodes -/

namespace Decode

variable {v : Json}

theorem around_of_components {n : Nat} {p : v.Parts n} (h : (components n v).Yields p) :
    v.Around (Json.Parts.toList n p) := by
  have harr := Json.around_arr (Json.Parts.toList n p)
  rwa [← components_yields.1 h] at harr

theorem around_of_record {keys : List String} (hkeys : keys.Nodup) {p : v.Parts keys.length}
    (h : (record keys v).Yields p) : v.Around (Json.Parts.toList keys.length p) := by
  intro part hpart
  rw [record_yields hkeys] at h
  refine h.within ?_
  rwa [List.map_snd_zip (Nat.le_of_eq (Json.Parts.length_toList p))]

theorem around_of_variant {t : Tagged v} (h : (variant v).Yields t) :
    v.Around (t.payload.toList.map Subtype.val) := by
  rcases variant_yields.1 h with ⟨-, hnone⟩ | ⟨payload, hsome, hv⟩
  · rw [hnone]
    exact Json.around_nil
  · rw [hsome]
    have hwithin : payload.1.Within (.tagged t.tag payload.1) := .field List.mem_cons_self .refl
    rw [← hv] at hwithin
    exact Json.around_cons.2 ⟨hwithin, Json.around_nil⟩

/-- The tag of a variant is the tag of its node. -/
theorem isAbout_of_variant {t : Tagged v} (h : (variant v).Yields t) (noun : String) :
    (Cause.unknownVariant noun t.tag).IsAbout v := by
  refine ⟨?_, rfl⟩
  rcases variant_yields.1 h with ⟨hv, -⟩ | ⟨payload, -, hv⟩
  · left
    rw [← hv]
    exact .refl
  · right
    refine ⟨payload.1, ?_⟩
    rw [← hv]
    exact .refl

end Decode

end BorrowIR
