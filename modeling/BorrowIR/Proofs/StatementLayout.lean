import BorrowIR.Proofs.PrintedNames
import BorrowIR.Proofs.RightNesting

/-!
# The layout of statements

A statement is printed as lines of text. The layout of a sequence is the layout of its first part
above the layout of its second part, however sequences are nested. A loop and a choice have blocks:
an opening line, the lines of what is in the block, one level deeper, and a closing line. Any other
statement is one line.

* `Statement.layout`: the lines, each with the number of blocks around it;
* `Statement.laidOut`: the document of a statement is written down as its layout;
* `Statement.layout_oneLine`: if no name has a line feed, none of the lines has;
* `Statement.text_eq_layout`: so the lines of the text are those of the layout, and they depend on a
  sequence only by its leaves.
-/

namespace BorrowIR

/-! ## Lines -/

/-- A line of a layout. -/
structure Line where
  /-- The number of blocks around the line. -/
  depth : Nat
  text : String
deriving DecidableEq, Repr

namespace Line

/-- The line as it is written, two columns further to the right for each block around it. -/
def written (line : Line) : String :=
  String.ofList (List.replicate (2 * line.depth) ' ') ++ line.text

/-- The line inside of one more block. -/
def deeper (line : Line) : Line := { line with depth := line.depth + 1 }

/-- A block: a brace behind the head, the lines inside of the block, and a brace on a line of its
own. -/
def block (head : String) (body : List Line) : List Line :=
  ⟨0, head ++ "\x7b"⟩ :: (body.map deeper ++ [⟨0, "\x7d"⟩])

/-- Two blocks, of which the second one begins behind the closing brace of the first one. -/
def blocks (head : String) (body : List Line) (next : String) (body' : List Line) : List Line :=
  ⟨0, head ++ "\x7b"⟩ :: (body.map deeper ++ block ("\x7d" ++ next) body')

end Line

/-! ## The layout -/

mutual
/-- The lines of a statement. -/
def Statement.layout (scope : Scope) : Statement → List Line
  | .mk _ content => RawStatement.layout scope content

/-- The lines of what a statement does. -/
def RawStatement.layout (scope : Scope) : RawStatement → List Line
  | .sequence first rest => Statement.layout scope first ++ Statement.layout scope rest
  | .switch choice => Switch.layout scope choice
  | .loop body => Line.block "loop " (Statement.layout scope body)
  | leaf => [⟨0, (leaf.doc scope).render⟩]

/-- The lines of a choice. -/
def Switch.layout (scope : Scope) : Switch → List Line
  | .cond test thenBranch elseBranch =>
    Line.blocks ("if " ++ test.text scope ++ " ") (Statement.layout scope thenBranch) " else "
      (Statement.layout scope elseBranch)
  | .values discr _ branches otherwise =>
    Line.block ("switch " ++ discr.text scope ++ " ")
      (valueLayout scope branches ++ Line.block "_ => " (Statement.layout scope otherwise))
  | .variants place branches otherwise =>
    Line.block ("match " ++ place.text scope ++ " ")
      (variantLayout scope (scope.matchedType? place) branches
        ++ Line.block "_ => " (Statement.layout scope otherwise))

/-- The lines of the branches of a choice by value. -/
def valueLayout (scope : Scope) : List (List Scalar × Statement) → List Line
  | [] => []
  | (values, body) :: branches =>
    Line.block (" | ".intercalate (values.map Scalar.text) ++ " => ") (Statement.layout scope body)
      ++ valueLayout scope branches

/-- The lines of the branches of a choice by variant. -/
def variantLayout (scope : Scope) (adt : Option TypeDeclId) :
    List (List VariantId × Statement) → List Line
  | [] => []
  | (variants, body) :: branches =>
    Line.block (" | ".intercalate (variants.map (scope.variantText adt)) ++ " => ")
      (Statement.layout scope body) ++ variantLayout scope adt branches
end

/-! ## Documents that are written down as lines -/

/-- The document is written down as these lines, wherever it stands. The line breaks are followed by
the indentation of the surroundings. -/
structure Doc.LaidOut (doc : Doc) (lines : List Line) : Prop where
  ne_nil : lines ≠ []
  renderAt : ∀ n, doc.renderAt n = (Doc.line.renderAt n).intercalate (lines.map Line.written)

theorem Line.written_top (text : String) : Line.written ⟨0, text⟩ = text := String.empty_append

/-- Each level is two blanks in front of a line. -/
theorem Line.written_deeper (l : Line) : l.deeper.written = "  " ++ l.written := by
  rw [written, written, deeper, Nat.mul_add, Nat.add_comm, List.replicate_add,
    String.ofList_append, String.append_assoc]
  rfl

namespace Doc

/-- Two columns more are two blanks more. -/
theorem renderAt_line_add (n : Nat) :
    Doc.line.renderAt (n + blockIndent) = Doc.line.renderAt n ++ "  " := by
  rw [Doc.renderAt, Doc.renderAt, blockIndent, List.replicate_add, String.ofList_append,
    ← String.append_assoc]
  rfl

/-- Lines that are written two columns further to the right are the lines of one more block. -/
theorem intercalate_deeper (n : Nat) {lines : List Line} (h : lines ≠ []) :
    (Doc.line.renderAt n).intercalate ((lines.map Line.deeper).map Line.written) =
      "  " ++ (Doc.line.renderAt (n + blockIndent)).intercalate (lines.map Line.written) := by
  induction lines with
  | nil => exact absurd rfl h
  | cons l lines ih =>
    rw [List.map_cons, List.map_cons, List.map_cons, Line.written_deeper,
      String.intercalate_cons_append]
    -- the first line has the blanks in front, and each other line has them behind a line break
    congr 1
    cases lines with
    | nil => rfl
    | cons next lines =>
      have ih := ih (List.cons_ne_nil _ _)
      rw [List.map_cons, List.map_cons] at ih ⊢
      rw [String.intercalate_cons_cons, ih, List.map_cons, String.intercalate_cons_cons,
        renderAt_line_add]
      simp only [String.append_assoc]

namespace LaidOut

theorem text (s : String) : (Doc.text s).LaidOut [⟨0, s⟩] := by
  refine ⟨List.cons_ne_nil _ _, fun n => ?_⟩
  rw [List.map_singleton, Line.written_top, String.intercalate_singleton, Doc.renderAt]

variable {first second : Doc} {docs : List Doc} {lines lines' : List Line}

/-- What stands one below the other is laid out in the lines of the first and those of the
second. -/
theorem sequence (h : first.LaidOut lines) (h' : second.LaidOut lines') :
    (first ++ .line ++ second).LaidOut (lines ++ lines') := by
  refine ⟨List.append_ne_nil_of_left_ne_nil h.ne_nil _, fun n => ?_⟩
  have hrender : (first ++ .line ++ second).renderAt n =
      first.renderAt n ++ Doc.line.renderAt n ++ second.renderAt n := rfl
  have hne : lines.map Line.written ≠ [] := mt List.map_eq_nil_iff.1 h.ne_nil
  have hne' : lines'.map Line.written ≠ [] := mt List.map_eq_nil_iff.1 h'.ne_nil
  rw [hrender, h.renderAt, h'.renderAt, List.map_append,
    String.intercalate_append_of_ne_nil hne hne']

/-- A list of one document is laid out as the document. -/
theorem one (h : first.LaidOut lines) : (Doc.lines [first]).LaidOut lines := h

/-- One more document above others, on lines of its own. -/
theorem cons (h : first.LaidOut lines) (h' : (Doc.lines docs).LaidOut lines') (hne : docs ≠ []) :
    (Doc.lines (first :: docs)).LaidOut (lines ++ lines') := by
  cases docs with
  | nil => exact absurd rfl hne
  | cons doc docs => exact h.sequence h'

/-- What is written for a block. -/
theorem renderAt_block (h : (Doc.lines docs).LaidOut lines) (hne : docs ≠ []) (n : Nat) :
    (Doc.block docs).renderAt n = "\x7b" ++ Doc.line.renderAt n ++
      (Doc.line.renderAt n).intercalate ((lines.map Line.deeper).map Line.written) ++
        Doc.line.renderAt n ++ "\x7d" := by
  have hrender : (Doc.block docs).renderAt n = "\x7b" ++ (Doc.line.renderAt (n + blockIndent) ++
      (Doc.lines docs).renderAt (n + blockIndent)) ++ Doc.line.renderAt n ++ "\x7d" := by
    cases docs with
    | nil => exact absurd rfl hne
    | cons doc docs => rfl
  rw [hrender, h.renderAt, intercalate_deeper n h.ne_nil, renderAt_line_add]
  simp only [String.append_assoc]

/-- The lines of a block, joined. -/
theorem intercalate_block (head : String) (hne : lines ≠ []) (n : Nat) :
    (Doc.line.renderAt n).intercalate ((Line.block head lines).map Line.written) =
      head ++ "\x7b" ++ Doc.line.renderAt n ++
        (Doc.line.renderAt n).intercalate ((lines.map Line.deeper).map Line.written) ++
          Doc.line.renderAt n ++ "\x7d" := by
  have hne : (lines.map Line.deeper).map Line.written ≠ [] :=
    mt List.map_eq_nil_iff.1 (mt List.map_eq_nil_iff.1 hne)
  rw [Line.block, List.map_cons, List.map_append, List.map_singleton, Line.written_top,
    Line.written_top, String.intercalate_cons_of_ne_nil (by simp),
    String.intercalate_append_of_ne_nil hne (List.cons_ne_nil _ _), String.intercalate_singleton]
  simp only [String.append_assoc]

theorem block (head : String) (h : (Doc.lines docs).LaidOut lines) (hne : docs ≠ []) :
    (Doc.text head ++ Doc.block docs).LaidOut (Line.block head lines) := by
  refine ⟨List.cons_ne_nil _ _, fun n => ?_⟩
  have hrender : (Doc.text head ++ Doc.block docs).renderAt n =
      head ++ (Doc.block docs).renderAt n := rfl
  rw [hrender, renderAt_block h hne, intercalate_block head h.ne_nil]
  simp only [String.append_assoc]

theorem blocks (head next : String) (h : first.LaidOut lines) (h' : second.LaidOut lines') :
    (Doc.text head ++ Doc.block [first] ++ Doc.text next ++ Doc.block [second]).LaidOut
      (Line.blocks head lines next lines') := by
  refine ⟨List.cons_ne_nil _ _, fun n => ?_⟩
  have hrender :
      (Doc.text head ++ Doc.block [first] ++ Doc.text next ++ Doc.block [second]).renderAt n =
        head ++ (Doc.block [first]).renderAt n ++ next ++ (Doc.block [second]).renderAt n := rfl
  have hne : (lines.map Line.deeper).map Line.written ≠ [] :=
    mt List.map_eq_nil_iff.1 (mt List.map_eq_nil_iff.1 h.ne_nil)
  have hblock : (Line.block ("\x7d" ++ next) lines').map Line.written ≠ [] := List.cons_ne_nil _ _
  rw [hrender, renderAt_block h.one (List.cons_ne_nil _ _),
    renderAt_block h'.one (List.cons_ne_nil _ _), Line.blocks, List.map_cons, List.map_append,
    Line.written_top,
    String.intercalate_cons_of_ne_nil (List.append_ne_nil_of_left_ne_nil hne _),
    String.intercalate_append_of_ne_nil hne hblock, intercalate_block _ h'.ne_nil]
  simp only [String.append_assoc]

end LaidOut

end Doc

/-! ## Statements -/

variable {scope : Scope}

mutual
theorem Statement.laidOut : ∀ s : Statement, (s.doc scope).LaidOut (s.layout scope)
  | .mk _ content => RawStatement.laidOut content

/-- What a statement does is laid out in its lines, whatever it is. -/
theorem RawStatement.laidOut :
    ∀ content : RawStatement, (content.doc scope).LaidOut (content.layout scope)
  | .sequence first rest => (Statement.laidOut first).sequence (Statement.laidOut rest)
  | .switch choice => Switch.laidOut choice
  | .loop body => .block "loop " (Statement.laidOut body).one (List.cons_ne_nil _ _)
  | .assign .. | .fakeRead _ | .setDiscriminant .. | .drop _ | .assert _ | .call _ | .panic
  | .return | .break _ | .continue _ | .nop => .text _

theorem Switch.laidOut : ∀ choice : Switch, (choice.doc scope).LaidOut (choice.layout scope)
  | .cond test thenBranch elseBranch =>
    .blocks _ _ (Statement.laidOut thenBranch) (Statement.laidOut elseBranch)
  | .values discr _ branches otherwise =>
    .block _ (valueArms_laidOut branches (Statement.laidOut otherwise)) (by simp)
  | .variants place branches otherwise =>
    .block _ (variantArms_laidOut _ branches (Statement.laidOut otherwise)) (by simp)

/-- The branches of a switch over values are laid out one below the other, and the branch for all
others comes last. -/
theorem valueArms_laidOut : ∀ (branches : List (List Scalar × Statement)) {doc : Doc}
    {lines : List Line}, doc.LaidOut lines →
      (Doc.lines (valueArms scope branches ++ [armDoc "_" doc])).LaidOut
        (valueLayout scope branches ++ Line.block "_ => " lines)
  | [], _, _, h => .block _ h.one (List.cons_ne_nil _ _)
  | (_, body) :: branches, _, _, h => by
    have hrest := valueArms_laidOut branches h
    rw [valueLayout, List.append_assoc]
    refine Doc.LaidOut.cons ?_ hrest (by simp)
    exact .block _ (Statement.laidOut body).one (List.cons_ne_nil _ _)

/-- The branches of a match are laid out one below the other, and the branch for all others comes
last. -/
theorem variantArms_laidOut (adt : Option TypeDeclId) :
    ∀ (branches : List (List VariantId × Statement)) {doc : Doc} {lines : List Line},
      doc.LaidOut lines →
        (Doc.lines (variantArms scope adt branches ++ [armDoc "_" doc])).LaidOut
          (variantLayout scope adt branches ++ Line.block "_ => " lines)
  | [], _, _, h => .block _ h.one (List.cons_ne_nil _ _)
  | (_, body) :: branches, _, _, h => by
    have hrest := variantArms_laidOut adt branches h
    rw [variantLayout, List.append_assoc]
    refine Doc.LaidOut.cons ?_ hrest (by simp)
    exact .block _ (Statement.laidOut body).one (List.cons_ne_nil _ _)
end

/-! ## Sequences -/

namespace Statement

/-- The leaves of a sequence in their order. Both parts of a sequence are taken apart. -/
def leaves : Statement → List Statement
  | .mk _ (.sequence first rest) => leaves first ++ leaves rest
  | statement => [statement]

/-- The document of a statement is made of the statements along its right spine. -/
theorem doc_eq_flatten (scope : Scope) (s : Statement) :
    s.doc scope = Doc.lines (s.flatten.map (doc scope)) := by
  induction s using flatten.induct with
  | case1 origin first rest ih =>
    -- a line break stands before the rest, so the rest must have a first statement
    have hne : rest.flatten ≠ [] := by
      cases rest with
      | mk origin content => cases content <;> exact List.cons_ne_nil _ _
    obtain ⟨t, ts, hrest⟩ := List.exists_cons_of_ne_nil hne
    rw [flatten, List.map_cons]
    rw [hrest, List.map_cons] at ih ⊢
    exact congrArg (first.doc scope ++ Doc.line ++ ·) ih
  | case2 s hs =>
    rw [flatten.eq_2 s hs]
    rfl

/-- The layout of a statement is made of the layouts of its leaves. -/
theorem layout_eq_leaves (scope : Scope) (s : Statement) :
    s.layout scope = (s.leaves.map content).flatMap (RawStatement.layout scope) := by
  induction s using leaves.induct with
  | case1 origin first rest ihfirst ihrest =>
    rw [leaves, List.map_append, List.flatMap_append, ← ihfirst, ← ihrest]
    rfl
  | case2 s hs =>
    rw [leaves.eq_2 s hs, List.map_singleton, List.flatMap_singleton]
    cases s
    rfl

end Statement

/-! ## Names -/

mutual
/-- The names in a statement. -/
def Statement.names (scope : Scope) : Statement → List String
  | .mk _ content => RawStatement.names scope content

/-- The names in what a statement does. -/
def RawStatement.names (scope : Scope) : RawStatement → List String
  | .assign dest value => dest.names scope ++ value.names scope
  | .fakeRead place | .setDiscriminant place _ | .drop place => place.names scope
  | .assert assertion => assertion.cond.names scope
  | .call target => target.names scope
  | .panic | .return | .break _ | .continue _ | .nop => []
  | .sequence first rest => Statement.names scope first ++ Statement.names scope rest
  | .switch choice => Switch.names scope choice
  | .loop body => Statement.names scope body

/-- The names in a choice. -/
def Switch.names (scope : Scope) : Switch → List String
  | .cond test thenBranch elseBranch =>
    test.names scope ++ Statement.names scope thenBranch ++ Statement.names scope elseBranch
  | .values discr _ branches otherwise =>
    discr.names scope ++ valueNames scope branches ++ Statement.names scope otherwise
  | .variants place branches otherwise =>
    place.names scope ++ variantNames scope (scope.matchedType? place) branches
      ++ Statement.names scope otherwise

/-- The names in the branches of a choice by value. -/
def valueNames (scope : Scope) : List (List Scalar × Statement) → List String
  | [] => []
  | (_, body) :: branches => Statement.names scope body ++ valueNames scope branches

/-- The names in the branches of a choice by variant. -/
def variantNames (scope : Scope) (adt : Option TypeDeclId) :
    List (List VariantId × Statement) → List String
  | [] => []
  | (variants, body) :: branches =>
    variants.map (scope.variantText adt) ++ Statement.names scope body
      ++ variantNames scope adt branches
end

namespace Line

variable {head : String} {lines lines' : List Line}

theorem block_oneLine (hhead : OneLine head) (h : ∀ line ∈ lines, OneLine line.text) :
    ∀ line ∈ block head lines, OneLine line.text := by
  refine List.forall_mem_cons.2 ⟨hhead.append (by decide), List.forall_mem_append.2 ⟨?_, ?_⟩⟩
  · exact List.forall_mem_map.2 h
  · exact List.forall_mem_singleton.2 (by decide)

theorem blocks_oneLine {next : String} (hhead : OneLine head) (hnext : OneLine next)
    (h : ∀ line ∈ lines, OneLine line.text) (h' : ∀ line ∈ lines', OneLine line.text) :
    ∀ line ∈ blocks head lines next lines', OneLine line.text := by
  refine List.forall_mem_cons.2 ⟨hhead.append (by decide), List.forall_mem_append.2 ⟨?_, ?_⟩⟩
  · exact List.forall_mem_map.2 h
  · exact block_oneLine (OneLine.append (by decide) hnext) h'

end Line

/-- What does not contain other statements is printed as one line. -/
theorem RawStatement.leaf_oneLine {content : RawStatement}
    (hleaf : content.layout scope = [⟨0, (content.doc scope).render⟩])
    (h : OneLine (content.doc scope).render) :
    ∀ line ∈ content.layout scope, OneLine line.text := by
  rw [hleaf]
  exact List.forall_mem_singleton.2 h

mutual
/-- The lines of a statement are lines if the names in it are. -/
theorem Statement.layout_oneLine : ∀ s : Statement, (∀ name ∈ s.names scope, OneLine name) →
    ∀ line ∈ s.layout scope, OneLine line.text
  | .mk _ content, h => RawStatement.layout_oneLine content h

theorem RawStatement.layout_oneLine :
    ∀ content : RawStatement, (∀ name ∈ content.names scope, OneLine name) →
      ∀ line ∈ content.layout scope, OneLine line.text
  | .sequence first rest, h => by
    rw [RawStatement.names, List.forall_mem_append] at h
    rw [RawStatement.layout, List.forall_mem_append]
    exact ⟨Statement.layout_oneLine first h.1, Statement.layout_oneLine rest h.2⟩
  | .switch choice, h => Switch.layout_oneLine choice h
  | .loop body, h => Line.block_oneLine (by decide) (Statement.layout_oneLine body h)
  | .assign dest value, h => by
    rw [RawStatement.names, List.forall_mem_append] at h
    have hdest := (Place.text_oneLine h.1).append (t := " := ") (by decide)
    have hvalue := hdest.append (Rvalue.text_oneLine h.2)
    exact RawStatement.leaf_oneLine rfl (hvalue.append (by decide))
  | .fakeRead place, h => by
    have hplace := OneLine.append (s := "@fake_read(") (by decide) (Place.text_oneLine h)
    exact RawStatement.leaf_oneLine rfl (hplace.append (by decide))
  | .setDiscriminant place variant, h => by
    have hplace := OneLine.append (s := "@discriminant(") (by decide) (Place.text_oneLine h)
    have hvariant := (hplace.append (t := ") := ") (by decide)).append variant.text_oneLine
    exact RawStatement.leaf_oneLine rfl (hvariant.append (by decide))
  | .drop place, h => by
    have hplace := OneLine.append (s := "drop ") (by decide) (Place.text_oneLine h)
    exact RawStatement.leaf_oneLine rfl (hplace.append (by decide))
  | .assert ⟨cond, expected⟩, h => by
    have hcond := OneLine.append (s := "assert(") (by decide) (Operand.text_oneLine h)
    have hexpected : OneLine (if expected then "true" else "false") := by
      cases expected <;> decide
    have hequal := (hcond.append (t := " == ") (by decide)).append hexpected
    exact RawStatement.leaf_oneLine rfl (hequal.append (by decide))
  | .call _, h => RawStatement.leaf_oneLine rfl (Call.text_oneLine h)
  | .panic, _ => RawStatement.leaf_oneLine rfl (show OneLine "panic;" by decide)
  | .return, _ => RawStatement.leaf_oneLine rfl (show OneLine "return;" by decide)
  | .break depth, _ => by
    have hdepth := OneLine.append (s := "break ") (by decide) (oneLine_natural depth)
    exact RawStatement.leaf_oneLine rfl (hdepth.append (by decide))
  | .continue depth, _ => by
    have hdepth := OneLine.append (s := "continue ") (by decide) (oneLine_natural depth)
    exact RawStatement.leaf_oneLine rfl (hdepth.append (by decide))
  | .nop, _ => RawStatement.leaf_oneLine rfl (show OneLine "@nop;" by decide)

theorem Switch.layout_oneLine :
    ∀ choice : Switch, (∀ name ∈ choice.names scope, OneLine name) →
      ∀ line ∈ choice.layout scope, OneLine line.text
  | .cond test thenBranch elseBranch, h => by
    rw [Switch.names, List.forall_mem_append, List.forall_mem_append] at h
    have hhead := OneLine.append (s := "if ") (by decide) (Operand.text_oneLine h.1.1)
    exact Line.blocks_oneLine (hhead.append (by decide)) (by decide)
      (Statement.layout_oneLine thenBranch h.1.2) (Statement.layout_oneLine elseBranch h.2)
  | .values discr _ branches otherwise, h => by
    rw [Switch.names, List.forall_mem_append, List.forall_mem_append] at h
    have hhead := OneLine.append (s := "switch ") (by decide) (Operand.text_oneLine h.1.1)
    refine Line.block_oneLine (hhead.append (by decide)) (List.forall_mem_append.2 ⟨?_, ?_⟩)
    · exact valueLayout_oneLine branches h.1.2
    · exact Line.block_oneLine (by decide) (Statement.layout_oneLine otherwise h.2)
  | .variants place branches otherwise, h => by
    rw [Switch.names, List.forall_mem_append, List.forall_mem_append] at h
    have hhead := OneLine.append (s := "match ") (by decide) (Place.text_oneLine h.1.1)
    refine Line.block_oneLine (hhead.append (by decide)) (List.forall_mem_append.2 ⟨?_, ?_⟩)
    · exact variantLayout_oneLine _ branches h.1.2
    · exact Line.block_oneLine (by decide) (Statement.layout_oneLine otherwise h.2)

theorem valueLayout_oneLine :
    ∀ branches : List (List Scalar × Statement),
      (∀ name ∈ valueNames scope branches, OneLine name) →
        ∀ line ∈ valueLayout scope branches, OneLine line.text
  | [], _ => List.forall_mem_nil _
  | (values, body) :: branches, h => by
    rw [valueNames, List.forall_mem_append] at h
    rw [valueLayout, List.forall_mem_append]
    have hvalues : ∀ text ∈ values.map Scalar.text, OneLine text :=
      List.forall_mem_map.2 fun scalar _ => scalar.text_oneLine
    have hpattern : OneLine (" | ".intercalate (values.map Scalar.text)) :=
      .intercalate (by decide) hvalues
    exact ⟨Line.block_oneLine (hpattern.append (by decide)) (Statement.layout_oneLine body h.1),
      valueLayout_oneLine branches h.2⟩

theorem variantLayout_oneLine (adt : Option TypeDeclId) :
    ∀ branches : List (List VariantId × Statement),
      (∀ name ∈ variantNames scope adt branches, OneLine name) →
        ∀ line ∈ variantLayout scope adt branches, OneLine line.text
  | [], _ => List.forall_mem_nil _
  | (variants, body) :: branches, h => by
    rw [variantNames, List.forall_mem_append, List.forall_mem_append] at h
    rw [variantLayout, List.forall_mem_append]
    have hpattern : OneLine (" | ".intercalate (variants.map (scope.variantText adt))) :=
      .intercalate (by decide) h.1.1
    exact ⟨Line.block_oneLine (hpattern.append (by decide)) (Statement.layout_oneLine body h.1.2),
      variantLayout_oneLine adt branches h.2⟩
end

/-! ## The text of a statement -/

/-- The blanks in front of a line are no line breaks. -/
theorem Line.written_oneLine {line : Line} (h : OneLine line.text) : OneLine line.written := by
  refine OneLine.append ?_ h
  rw [OneLine, String.toList_ofList, List.mem_replicate]
  exact fun h => absurd h.2 (by decide)

/-- **The layout of a statement.** The statements along the right spine of a sequence are printed
one below the other, and what is written down are the lines of the layout. If the names in the
statement have no line feed, then the lines of the text are just these lines, however long they are.
A sequence is laid out by its leaves, so statements with the same leaves have the same text. -/
theorem Statement.text_eq_layout (scope : Scope) (s : Statement)
    (h : ∀ name ∈ s.names scope, OneLine name) :
    s.doc scope = Doc.lines (s.flatten.map (doc scope)) ∧
      (s.doc scope).render = "\n".intercalate ((s.layout scope).map Line.written) ∧
      ((s.doc scope).render.split '\n').toList.map (fun line => line.copy) =
        (s.layout scope).map Line.written ∧
      (s.layout scope = (s.leaves.map content).flatMap (RawStatement.layout scope)) ∧
      ∀ t : Statement, t.leaves.map content = s.leaves.map content →
        (t.doc scope).render = (s.doc scope).render := by
  have hrender (t : Statement) :
      (t.doc scope).render = "\n".intercalate ((t.layout scope).map Line.written) :=
    t.laidOut.renderAt 0
  have hlines : ∀ line ∈ (s.layout scope).map Line.written, OneLine line :=
    List.forall_mem_map.2 fun line hline => Line.written_oneLine (s.layout_oneLine h line hline)
  refine ⟨s.doc_eq_flatten scope, hrender s, ?_, s.layout_eq_leaves scope, fun t ht => ?_⟩
  · have hsplit := String.toList_split_intercalate hlines
    rw [if_neg (mt List.map_eq_nil_iff.1 s.laidOut.ne_nil)] at hsplit
    rw [hrender]
    exact hsplit
  · rw [hrender, hrender, layout_eq_leaves, layout_eq_leaves, ht]

/-- A scope with a variable `x`. -/
def Scope.oneLocal : Scope := ⟨Crate.empty "krate", .empty, [⟨⟨1⟩, some "x", .bool⟩]⟩

/-- A loop that drops `x`, with a sequence behind it that is nested to the left. -/
def Statement.dropLoop : Statement :=
  .mk ⟨.top, none⟩ (.loop (.mk ⟨.top, none⟩ (.sequence
    (.mk ⟨.top, none⟩ (.drop ⟨⟨1⟩, []⟩)) leftNested)))

/-- The two ways of nesting look the same, and in a loop the lines are indented by two columns. -/
theorem Statement.text_eq_layout_dropLoop :
    (rightNested.doc .oneLocal).render = (leftNested.doc .oneLocal).render ∧
      dropLoop.names .oneLocal = ["x@1"] ∧
      (dropLoop.doc .oneLocal).render =
        "loop \x7b\n  drop x@1;\n  @nop;\n  @nop;\n  @nop;\n\x7d" := by
  have hnames : ∀ name ∈ dropLoop.names .oneLocal, OneLine name := by decide
  have hleft := text_eq_layout .oneLocal leftNested (List.forall_mem_nil _)
  have hloop := text_eq_layout .oneLocal dropLoop hnames
  exact ⟨hleft.2.2.2.2 rightNested rfl, by decide, hloop.2.1.trans (by decide)⟩

end BorrowIR
