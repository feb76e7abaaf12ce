import BorrowIR.Proofs.RonDepth

/-!
# What is printed before a failure

A crate is printed in object notation before its text is put together, so a query that nothing
answers is noticed when there is output already.

* `Crate.FirstUnanswered`: the query that is reported, which is the first one without an answer;
* `inspect_partial_iff`: when something is printed by an inspection that fails, and what;
* `not_forall_silent`: so a failure does not always leave the output empty.
-/

namespace BorrowIR

open Decode Outcome

variable {crate : Crate Statement}

/-! ## Queries without an answer -/

/-- **The query that is reported.** Nothing answers it, and every query before it has an answer. -/
def Crate.FirstUnanswered (crate : Crate Statement) (queries : List Query) (query : Query) : Prop :=
  ∃ before after, queries = before ++ query :: after ∧
    (∀ answered ∈ before, crate.answer? answered ≠ none) ∧ crate.answer? query = none

/-- The first unanswered query is the first query, or the first one of the others behind an
answer. -/
theorem Crate.firstUnanswered_cons {first query : Query} {queries : List Query} :
    crate.FirstUnanswered (first :: queries) query ↔
      (crate.answer? first = none ∧ first = query) ∨
        (crate.answer? first ≠ none ∧ crate.FirstUnanswered queries query) := by
  constructor
  · rintro ⟨before, after, heq, hbefore, hquery⟩
    cases before with
    | nil =>
      cases heq
      exact .inl ⟨hquery, rfl⟩
    | cons answered before =>
      cases heq
      obtain ⟨hfirst, hbefore⟩ := List.forall_mem_cons.1 hbefore
      exact .inr ⟨hfirst, before, after, rfl, hbefore, hquery⟩
  · rintro (⟨hnone, rfl⟩ | ⟨hfirst, before, after, rfl, hbefore, hquery⟩)
    · exact ⟨[], queries, rfl, List.forall_mem_nil _, hnone⟩
    · exact ⟨first :: before, after, rfl, List.forall_mem_cons.2 ⟨hfirst, hbefore⟩, hquery⟩

/-- The texts of the answers are put together up to the first query without one. -/
theorem Crate.answerTexts_eq_error {queries : List Query} {error : QueryError} :
    crate.answerTexts queries = .error error ↔
      ∃ query, crate.FirstUnanswered queries query ∧ error = .unanswered query := by
  induction queries with
  | nil =>
    rw [answerTexts]
    constructor
    · nofun
    · rintro ⟨query, ⟨before, after, heq, -⟩, -⟩
      exact absurd heq.symm (List.append_ne_nil_of_right_ne_nil before (List.cons_ne_nil _ _))
  | cons first queries ih =>
    simp only [firstUnanswered_cons]
    rw [answerTexts]
    cases hfirst : crate.answer? first with
    | none =>
      constructor
      · rintro ⟨⟩
        exact ⟨first, .inl ⟨rfl, rfl⟩, rfl⟩
      · rintro ⟨query, ⟨-, rfl⟩ | ⟨hsome, -⟩, rfl⟩
        · rfl
        · exact absurd rfl hsome
    | some doc =>
      have hmap : (crate.answerTexts queries).map (doc.render :: ·) = .error error ↔
          crate.answerTexts queries = .error error := by
        cases crate.answerTexts queries <;> simp [Except.map]
      rw [hmap, ih]
      simp

theorem Crate.queryText_eq_error {queries : List Query} {error : QueryError} :
    crate.queryText queries = .error error ↔
      ∃ query, crate.FirstUnanswered queries query ∧ error = .unanswered query := by
  rw [← answerTexts_eq_error]
  unfold queryText
  cases queries with
  -- without queries there is nothing to answer, and the whole crate is printed
  | nil => simp [answerTexts]
  | cons first queries =>
    cases crate.answerTexts (first :: queries) <;> simp [Except.map]

/-! ## The two forms of output -/

namespace Report

/-- Two reports fail in the first one, or in the second one if the first one is no failure. -/
theorem followedBy_error {first second : Report} {error : InspectError} :
    (first.followedBy second).result = .error error ↔
      first.result = .error error ∨ first.result = .ok () ∧ second.result = .error error := by
  unfold followedBy
  cases hfirst : first.result <;> simp [hfirst]

theorem printed_followedBy_of_ok {first : Report} (h : first.result = .ok ()) (second : Report) :
    (first.followedBy second).printed = first.printed ++ second.printed := by
  unfold followedBy
  rw [h]

/-- Behind a failure nothing more is printed. -/
theorem followedBy_of_error {first : Report} {error : InspectError}
    (h : first.result = .error error) (second : Report) : first.followedBy second = first := by
  unfold followedBy
  rw [h]

theorem print_error {output : Except InspectError String} {error : InspectError} :
    (print output).result = .error error ↔ output = .error error := by
  cases output <;> simp [print]

/-- What fails to be printed leaves nothing behind. -/
theorem printed_of_print_error {output : Except InspectError String} {error : InspectError}
    (h : (print output).result = .error error) : (print output).printed = "" := by
  rw [print_error] at h
  rw [h]
  rfl

end Report

namespace Crate

/-- The text fails for a query that has no answer. -/
theorem printText_error {queries : List Query} {error : InspectError} :
    (crate.printText queries).result = .error error ↔
      ∃ query, crate.FirstUnanswered queries query ∧ error = .query (.unanswered query) := by
  have hmap : (crate.queryText queries).mapError InspectError.query = .error error ↔
      ∃ cause, crate.queryText queries = .error cause ∧ error = .query cause := by
    cases crate.queryText queries <;> simp [Except.mapError, eq_comm]
  rw [printText, Report.print_error, hmap]
  constructor
  · rintro ⟨cause, hcause, rfl⟩
    obtain ⟨query, hquery, rfl⟩ := queryText_eq_error.1 hcause
    exact ⟨query, hquery, rfl⟩
  · rintro ⟨query, hquery, rfl⟩
    exact ⟨_, queryText_eq_error.2 ⟨query, hquery, rfl⟩, rfl⟩

theorem printRon_ok :
    crate.printRon.result = .ok () ↔
      ∃ ron, crate.ron? = some ron ∧ crate.printRon.printed = ron ++ "\n" := by
  unfold printRon
  cases crate.ron? <;> simp [Report.print]

end Crate

/-- Behind the object notation of a crate, a query without an answer ends an inspection. -/
theorem inspect_of_unanswered (options : InspectOptions) {input ron : String} {query : Query}
    (hron : options.ron = true) (htext : options.text = true)
    (hcrate : Crate.ofText input = .ok crate) (hsome : crate.ron? = some ron)
    (hquery : crate.FirstUnanswered options.queries query) :
    (inspect options input).printed = ron ++ "\n" ∧
      (inspect options input).result = .error (.query (.unanswered query)) := by
  have hfirst : crate.printRon = ⟨ron ++ "\n", .ok ()⟩ := by
    unfold Crate.printRon
    rw [hsome]
    rfl
  have hsecond : (crate.printText options.queries).result = .error (.query (.unanswered query)) :=
    Crate.printText_error.2 ⟨query, hquery, rfl⟩
  have hsilent : (crate.printText options.queries).printed = "" :=
    Report.printed_of_print_error hsecond
  unfold inspect
  rw [hcrate]
  simp only [hron, htext, if_true, hfirst]
  refine ⟨?_, Report.followedBy_error.2 (.inr ⟨rfl, hsecond⟩)⟩
  rw [Report.printed_followedBy_of_ok rfl, hsilent, String.append_empty]

/-- **Output before a failure.** An inspection fails and leaves something printed if and only if
both forms of output are asked for, the crate can be read and printed in object notation, and some
query has no answer. What is printed is the object notation, and the first such query is reported.
All other failures leave nothing printed. -/
theorem inspect_partial_iff (options : InspectOptions) (input printed : String)
    (error : InspectError) :
    ((inspect options input).result = .error error ∧ (inspect options input).printed = printed ∧
        printed ≠ "") ↔
      options.ron = true ∧ options.text = true ∧
        ∃ crate ron query, Crate.ofText input = .ok crate ∧ crate.ron? = some ron ∧
          crate.FirstUnanswered options.queries query ∧ printed = ron ++ "\n" ∧
          error = .query (.unanswered query) := by
  constructor
  · rintro ⟨hresult, rfl, hprinted⟩
    unfold inspect at hresult hprinted ⊢
    cases hcrate : Crate.ofText input with
    -- without a crate nothing is printed
    | error failure =>
      rw [hcrate] at hprinted
      exact absurd rfl hprinted
    | ok crate =>
      simp only [hcrate] at hresult hprinted ⊢
      rcases Report.followedBy_error.1 hresult with hfirst | ⟨hfirst, hsecond⟩
      · rw [Report.followedBy_of_error hfirst] at hprinted
        cases hron : options.ron with
        | false => simp [hron, Report.silent] at hfirst
        | true =>
          simp only [hron, if_true] at hfirst hprinted
          exact absurd (Report.printed_of_print_error hfirst) hprinted
      · rw [Report.printed_followedBy_of_ok hfirst] at hprinted ⊢
        cases htext : options.text with
        | false => simp [htext, Report.silent] at hsecond
        | true =>
          simp only [htext, if_true] at hsecond hprinted ⊢
          obtain ⟨query, hquery, rfl⟩ := Crate.printText_error.1 hsecond
          have hsilent : (crate.printText options.queries).printed = "" :=
            Report.printed_of_print_error hsecond
          rw [hsilent, String.append_empty] at hprinted ⊢
          cases hron : options.ron with
          | false => simp [hron, Report.silent] at hprinted
          | true =>
            simp only [hron, if_true] at hfirst ⊢
            obtain ⟨ron, hsome, hron⟩ := Crate.printRon_ok.1 hfirst
            exact ⟨trivial, trivial, crate, ron, query, rfl, hsome, hquery, hron, rfl⟩
  · rintro ⟨hron, htext, crate, ron, query, hcrate, hsome, hquery, rfl, rfl⟩
    obtain ⟨hprinted, hresult⟩ := inspect_of_unanswered options hron htext hcrate hsome hquery
    refine ⟨hresult, hprinted, fun hempty => ?_⟩
    have hlength := congrArg String.length hempty
    simp at hlength

/-! ## A crate without declarations -/

/-- The document of a crate without declarations. -/
def Json.bareCrate : Json :=
  .obj [("declarations", .arr []), ("functions", .arr []), ("globals", .arr []),
    ("id_to_file", .arr []), ("name", .str "krate"), ("types", .arr [])]

theorem Crate.ofText_bareCrate : Crate.ofText Json.bareCrate.compress = .ok (.empty "krate") := by
  have hnil : (Json.arr []).Canonical := .arr (List.forall_mem_nil _)
  have hcanonical : Json.bareCrate.Canonical :=
    .obj (by decide) (by simpa using ⟨hnil, .str _, hnil⟩)
  have hdecode : (Crate.decode Json.bareCrate).Yields (.empty "krate") := by
    unfold Yields
    cbv
  exact Crate.ofText_eq_ok.2 ⟨_, Json.read_compress hcanonical (by decide), hdecode⟩

/-- **Failures are not always silent.** If a crate without declarations is printed in both forms,
and the text is that of a type, then the object notation is printed before the type is missed. -/
theorem not_forall_silent :
    ¬ ∀ (options : InspectOptions) (input : String) (error : InspectError),
      (inspect options input).result = .error error → (inspect options input).printed = "" := by
  intro hall
  have hron : ∃ ron, (Crate.empty "krate").ron? = some ron := by
    unfold Crate.ron? Datum.ron?
    exact ⟨_, if_pos (by decide)⟩
  obtain ⟨ron, hron⟩ := hron
  have hquery : (Crate.empty "krate").FirstUnanswered [⟨.type, "x"⟩] ⟨.type, "x"⟩ :=
    Crate.firstUnanswered_cons.2 (.inl ⟨rfl, rfl⟩)
  obtain ⟨hprinted, hresult⟩ := inspect_of_unanswered ⟨true, true, [⟨.type, "x"⟩]⟩ rfl rfl
    Crate.ofText_bareCrate hron hquery
  have hempty := hall _ _ _ hresult
  rw [hprinted] at hempty
  have hlength := congrArg String.length hempty
  simp at hlength

end BorrowIR
