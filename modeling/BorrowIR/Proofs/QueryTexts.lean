import BorrowIR.Proofs.NamedDeclarations
import BorrowIR.Proofs.WellFormedCrates
import BorrowIR.Query

/-!
# The text of a crate, query by query

The whole crate is put together as one document and written down. For queries, each declaration is
searched for by its name and written down by itself, and the texts are joined.

* `Doc.renderAt_separate`: writing down goes through separators;
* `Crate.DistinctNames.answer?_query`: where names are distinct, each declaration answers the query
  for its name;
* `Crate.text_eq_queryText`: the text of the crate is its head, and the text of the queries for
  what the groups name.
-/

namespace BorrowIR

open Decode Outcome

/-! ## Writing down -/

/-- Documents with a separator are written down one by one, and the separator is written down
between each two. -/
theorem Doc.renderAt_separate (indent : Nat) (separator : Doc) (docs : List Doc) :
    (separate separator docs).renderAt indent =
      (separator.renderAt indent).intercalate (docs.map (renderAt indent)) := by
  induction docs with
  | nil => rw [separate, renderAt, List.map_nil, String.intercalate_nil]
  | cons doc docs ih =>
    cases docs with
    | nil => rw [separate, List.map_singleton, String.intercalate_singleton]
    | cons next docs =>
      rw [List.map_cons, List.map_cons, String.intercalate_cons_cons, ← List.map_cons, ← ih]
      rfl

variable {crate : Crate Statement}

theorem Crate.render_docOf (decls : List Declaration) :
    (crate.docOf decls).render =
      "// crate " ++ crate.name ++ "\n\n" ++
        "\n\n".intercalate (decls.map fun decl => (decl.doc crate).render) := by
  have hbreak : (Doc.line ++ Doc.line).renderAt 0 = "\n\n" := by decide
  have hhead : (crate.docOf decls).render =
      "// crate " ++ crate.name ++ "\n" ++ "\n" ++
        (Doc.separate (.line ++ .line) (decls.map (Declaration.doc crate))).renderAt 0 := rfl
  have hbreaks : "// crate " ++ crate.name ++ "\n" ++ "\n" =
      "// crate " ++ crate.name ++ "\n\n" := by
    rw [String.append_assoc]
    rfl
  rw [hhead, hbreaks, Doc.renderAt_separate, hbreak, List.map_map]
  rfl

/-! ## Searching -/

/-- The query for a declaration, by its sort and its name. -/
def Declaration.query (decl : Declaration) : Query := ⟨decl.sort, decl.name.text⟩

namespace Crate

/-- **Distinct names.** No two declarations of one sort are printed with the same name. -/
structure DistinctNames (crate : Crate Statement) : Prop where
  types : (crate.types.values.map fun decl => decl.name.text).Nodup
  functions : (crate.functions.values.map fun decl => decl.name.text).Nodup
  globals : (crate.globals.values.map fun decl => decl.name.text).Nodup

/-- A declaration is what is found under its name. -/
theorem DistinctNames.answer?_query (h : crate.DistinctNames) {decl : Declaration}
    (hdecl : decl ∈ crate.declarations) : crate.answer? decl.query = some (decl.doc crate) := by
  cases decl with
  | type decl =>
    have hmem : decl ∈ crate.types.values := by simpa [declarations] using hdecl
    exact congrArg (Option.map (TypeDecl.doc crate)) (Lookup.find?_of_nodup h.types hmem)
  | function decl =>
    have hmem : decl ∈ crate.functions.values := by simpa [declarations] using hdecl
    exact congrArg (Option.map (FunDecl.doc crate)) (Lookup.find?_of_nodup h.functions hmem)
  | global decl =>
    have hmem : decl ∈ crate.globals.values := by simpa [declarations] using hdecl
    exact congrArg (Option.map (GlobalDecl.doc crate)) (Lookup.find?_of_nodup h.globals hmem)

/-- The queries for some declarations are answered one by one. -/
theorem DistinctNames.answerTexts_query (h : crate.DistinctNames) {decls : List Declaration}
    (hdecls : ∀ decl ∈ decls, decl ∈ crate.declarations) :
    crate.answerTexts (decls.map Declaration.query) =
      .ok (decls.map fun decl => (decl.doc crate).render) := by
  induction decls with
  | nil => rfl
  | cons decl decls ih =>
    obtain ⟨hdecl, hdecls⟩ := List.forall_mem_cons.1 hdecls
    rw [List.map_cons, answerTexts, h.answer?_query hdecl, ih hdecls]
    rfl

/-! ## The whole crate -/

/-- Groups have members, so a crate with groups names something. -/
theorem members_ne_nil_of_decode {v : Json} (h : (Crate.decode v).Yields crate)
    (hgroups : crate.groups ≠ []) : crate.members ≠ [] := by
  obtain ⟨listing, ⟨_, gs, _, _, _, -, -, hread, -⟩, -, hholds⟩ := decodeWith_yields.1 h
  obtain ⟨group, hgroup⟩ := List.exists_mem_of_ne_nil _ hgroups
  intro hnil
  have hmembers : group.members = [] := List.flatMap_eq_nil_iff.1 hnil group hgroup
  rw [hholds.groups] at hgroup
  obtain ⟨w, hw⟩ := readable_of_forall₂ hread group hgroup
  have hindices : group.indices = group.members.map Prod.snd := by
    cases group <;> simp [DeclGroup.indices, DeclGroup.members, Function.comp_def]
  rw [hmembers, List.map_nil] at hindices
  exact DeclGroup.decode_indices w group hw hindices

/-- **The text of a crate and of its queries.** A crate has been decoded, it has a group, and its
names are distinct. The queries for the declarations that the groups name, in their order, are all
answered, and the text of the whole crate is its head and the text of these queries. -/
theorem text_eq_queryText {v : Json} (h : (Crate.decode v).Yields crate)
    (hgroups : crate.groups ≠ []) (hnames : crate.DistinctNames) :
    ∃ decls : List Declaration, decls.map Declaration.key = crate.members ∧
      (∀ decl ∈ decls, decl ∈ crate.declarations) ∧
      ∃ text, crate.queryText (decls.map Declaration.query) = .ok text ∧
        crate.queryText [] = .ok ("// crate " ++ crate.name ++ "\n\n" ++ text) := by
  have hindexed := indexed_of_decode h
  have hdecls : ∀ decl ∈ crate.named, decl ∈ crate.declarations := fun decl hdecl =>
    (hindexed.mem_named.1 hdecl).1
  refine ⟨crate.named, hindexed.map_key_named, hdecls,
    "\n\n".intercalate (crate.named.map fun decl => (decl.doc crate).render), ?_, ?_⟩
  · have hne : crate.named.map Declaration.query ≠ [] := by
      rw [Ne, List.map_eq_nil_iff, ← List.map_eq_nil_iff (f := Declaration.key),
        hindexed.map_key_named]
      exact members_ne_nil_of_decode h hgroups
    rw [queryText, if_neg (by simpa using hne), hnames.answerTexts_query hdecls]
    rfl
  · have hwhole : crate.queryText [] = .ok crate.text := rfl
    rw [hwhole, text, doc_eq_docOf_named, render_docOf]

/-- In a crate with a type `a` and a type `b`, a group for `b` stands in front of one for `a`. -/
theorem text_eq_queryText_twoTypes :
    ∃ crate, (Crate.decode (.twoTypes [.typeGroup "1", .typeGroup "0"])).Yields crate ∧
      ∃ decls : List Declaration, decls.map Declaration.key = [(.type, 1), (.type, 0)] ∧
        (∀ decl ∈ decls, decl ∈ crate.declarations) ∧
        ∃ text, crate.queryText (decls.map Declaration.query) = .ok text ∧
          crate.queryText [] = .ok ("// crate krate\n\n" ++ text) := by
  have hdecode : (Crate.decode (.twoTypes [.typeGroup "1", .typeGroup "0"])).Yields
      (.twoTypes [.types (.single ⟨1⟩), .types (.single ⟨0⟩)]) := by
    unfold Yields
    cbv
  have hnames : (Crate.twoTypes [.types (.single ⟨1⟩), .types (.single ⟨0⟩)]).DistinctNames :=
    ⟨by decide, by decide, by decide⟩
  exact ⟨_, hdecode, text_eq_queryText hdecode (List.cons_ne_nil _ _) hnames⟩

end Crate

end BorrowIR
