import BorrowIR.Query
import Mathlib.Data.List.Forall2

/-!
# The grammar of queries

A query is one of three words, a dot, and a name. The name is any text but the empty one: it may
have dots in it, and it may begin like a query itself.

* `Query.Written`: the texts of a query, by the grammar;
* `Query.parse?_eq_some`: a text is read as a query if and only if the grammar gives it to this
  query, and it gives a text to no other query (`Query.Written.unique`);
* `Query.parseAll_iff_written`: of many texts, either all are read, in order and as they are
  written, or the first one that is no query is reported.
-/

namespace BorrowIR.Query

/-- **The grammar.** A word for the sort of the declaration, a dot, and a name that is not empty. -/
inductive Written : Query → String → Prop where
  | type {name : String} (hname : name ≠ "") : Written ⟨.type, name⟩ ("type." ++ name)
  | function {name : String} (hname : name ≠ "") : Written ⟨.function, name⟩ ("fn." ++ name)
  | global {name : String} (hname : name ≠ "") : Written ⟨.global, name⟩ ("global." ++ name)

/-- Some query has this text. -/
def IsQuery (text : String) : Prop := ∃ query, Written query text

variable {query : Query} {queries : List Query} {text : String} {texts : List String}

/-- The text of a query is the only one that the grammar gives to it. -/
theorem written_iff : Written query text ↔ query.name ≠ "" ∧ query.text = text := by
  constructor
  · intro h
    cases h with
    | type hname => exact ⟨hname, rfl⟩
    | function hname => exact ⟨hname, rfl⟩
    | global hname => exact ⟨hname, rfl⟩
  · rintro ⟨hname, rfl⟩
    obtain ⟨sort, name⟩ := query
    cases sort with
    | type => exact .type hname
    | function => exact .function hname
    | global => exact .global hname

/-- The words begin with different letters, so the text of a query tells its sort and its name. -/
theorem text_injective : Function.Injective Query.text := by
  rintro ⟨sort, name⟩ ⟨sort', name'⟩ heq
  have hchars : (head sort).toList ++ name.toList = (head sort').toList ++ name'.toList := by
    simpa [Query.text] using congrArg String.toList heq
  -- nine pairs of words, six of which differ in their first letter
  have hsort : sort = sort' := by
    cases sort <;> cases sort' <;> simp [head] at hchars ⊢
  subst hsort
  have hname : name = name' := String.toList_inj.1 (List.append_cancel_left hchars)
  rw [hname]

theorem Written.unique {query' : Query} (h : Written query text) (h' : Written query' text) :
    query = query' :=
  text_injective ((written_iff.1 h).2.trans (written_iff.1 h').2.symm)

/-! ## One text -/

/-- A text is parsed as a query of a sort if it is the text of such a query. -/
theorem parseAs?_eq_some {sort : DeclSort} :
    parseAs? text sort = some query ↔ Written query text ∧ query.sort = sort := by
  rw [written_iff]
  unfold parseAs?
  constructor
  · intro h
    split at h
    · rename_i c cs hrest
      cases h
      have htext := List.isPrefixOf?_eq_some_iff_append_eq.1 hrest
      refine ⟨⟨by simp, ?_⟩, rfl⟩
      rw [Query.text, ← String.toList_inj, String.toList_append, String.toList_ofList, htext]
    · cases h
  · rintro ⟨⟨hname, rfl⟩, rfl⟩
    -- what stands behind the word is the name, and there is a first character in it
    have hrest : (head query.sort).toList.isPrefixOf? query.text.toList =
        some query.name.toList := by
      rw [List.isPrefixOf?_eq_some_iff_append_eq, Query.text, String.toList_append]
    obtain ⟨c, cs, hcs⟩ := List.exists_cons_of_ne_nil (mt String.toList_eq_nil_iff.1 hname)
    rw [hrest, hcs]
    simp [← hcs]

/-- **What is read is what is written.** The sorts are tried one after the other, but only one of
them can succeed. -/
theorem parse?_eq_some : parse? text = some query ↔ Written query text := by
  have hfound : ∀ {query'}, parse? text = some query' → Written query' text := by
    intro query' h
    obtain ⟨sort, -, hsort⟩ := List.exists_of_findSome?_eq_some h
    exact (parseAs?_eq_some.1 hsort).1
  constructor
  · exact hfound
  · intro h
    have htried : query.sort ∈ [DeclSort.type, .function, .global] := by
      cases query.sort <;> decide
    -- some sort is found, as this one would be
    have hsome : (parse? text).isSome := by
      rw [parse?, List.findSome?_isSome_iff]
      exact ⟨query.sort, htried, by rw [parseAs?_eq_some.2 ⟨h, rfl⟩]; rfl⟩
    obtain ⟨query', hquery'⟩ := Option.isSome_iff_exists.1 hsome
    rw [hquery', (hfound hquery').unique h]

theorem parse?_eq_none : parse? text = none ↔ ¬ IsQuery text := by
  rw [Option.eq_none_iff_forall_ne_some, IsQuery, not_exists]
  exact forall_congr' fun query => not_congr parse?_eq_some

/-- The text of a query is parsed as the query, unless its name is empty. -/
theorem parse?_text : parse? query.text = some query ↔ query.name ≠ "" := by
  rw [parse?_eq_some, written_iff]
  exact and_iff_left rfl

/-! ## Many texts -/

/-- All texts are parsed if each of them is the text of a query. -/
theorem parseAll_eq_ok :
    ∀ {texts queries}, parseAll texts = .ok queries ↔ List.Forall₂ Written queries texts
  | [], queries => by simp [parseAll, eq_comm]
  | text :: texts, queries => by
    rw [parseAll, List.forall₂_cons_right_iff]
    cases hfirst : parse? text with
    | none =>
      constructor
      · nofun
      · rintro ⟨query, rest, hquery, -⟩
        exact absurd ⟨query, hquery⟩ (parse?_eq_none.1 hfirst)
    | some first =>
      have hwritten := parse?_eq_some.1 hfirst
      constructor
      · intro h
        cases hrest : parseAll texts with
        | error error => rw [hrest] at h; cases h
        | ok rest =>
          rw [hrest] at h
          cases h
          exact ⟨first, rest, hwritten, parseAll_eq_ok.1 hrest, rfl⟩
      · rintro ⟨query, rest, hquery, hrest, rfl⟩
        rw [parseAll_eq_ok.2 hrest, hwritten.unique hquery]
        rfl

/-- **The text that is reported.** It is no query, and every text before it is one. -/
def FirstMalformed (texts : List String) (text : String) : Prop :=
  ∃ before after, texts = before ++ text :: after ∧
    (∀ earlier ∈ before, IsQuery earlier) ∧ ¬ IsQuery text

/-- The first malformed text is the first text, or the first one of the others behind a query. -/
theorem firstMalformed_cons {first : String} :
    FirstMalformed (first :: texts) text ↔
      (¬ IsQuery first ∧ first = text) ∨ (IsQuery first ∧ FirstMalformed texts text) := by
  constructor
  · rintro ⟨before, after, heq, hbefore, htext⟩
    -- is the text before all others the malformed one?
    cases before with
    | nil =>
      cases heq
      exact .inl ⟨htext, rfl⟩
    | cons earlier before =>
      cases heq
      obtain ⟨hfirst, hbefore⟩ := List.forall_mem_cons.1 hbefore
      exact .inr ⟨hfirst, before, after, rfl, hbefore, htext⟩
  · rintro (⟨hfirst, rfl⟩ | ⟨hfirst, before, after, rfl, hbefore, htext⟩)
    · exact ⟨[], texts, rfl, List.forall_mem_nil _, hfirst⟩
    · exact ⟨first :: before, after, rfl, List.forall_mem_cons.2 ⟨hfirst, hbefore⟩, htext⟩

theorem parseAll_eq_error {error : QueryError} :
    parseAll texts = .error error ↔
      ∃ text, FirstMalformed texts text ∧ error = .malformed text := by
  induction texts with
  | nil =>
    constructor
    · nofun
    · rintro ⟨text, ⟨before, after, heq, -⟩, -⟩
      exact absurd heq.symm (List.append_ne_nil_of_right_ne_nil before (List.cons_ne_nil _ _))
  | cons first texts ih =>
    simp only [firstMalformed_cons]
    rw [parseAll]
    cases hfirst : parse? first with
    | none =>
      have hnot := parse?_eq_none.1 hfirst
      constructor
      · rintro ⟨⟩
        exact ⟨first, .inl ⟨hnot, rfl⟩, rfl⟩
      · rintro ⟨text, ⟨-, rfl⟩ | ⟨his, -⟩, rfl⟩
        · rfl
        · exact absurd his hnot
    | some query =>
      have his : IsQuery first := ⟨query, parse?_eq_some.1 hfirst⟩
      have hmap : (parseAll texts).map (query :: ·) = .error error ↔
          parseAll texts = .error error := by
        cases parseAll texts <;> simp [Except.map]
      rw [hmap, ih]
      simp [his]

/-- A text that is read is the text of what it is read as. -/
theorem forall₂_written_iff :
    List.Forall₂ Written queries texts ↔
      queries.map Query.text = texts ∧ ∀ query ∈ queries, parse? query.text = some query := by
  simp only [parse?_text]
  constructor
  · intro h
    induction h with
    | nil => exact ⟨rfl, List.forall_mem_nil _⟩
    | cons hfirst _ ih =>
      obtain ⟨hname, htext⟩ := written_iff.1 hfirst
      exact ⟨by rw [List.map_cons, htext, ih.1], List.forall_mem_cons.2 ⟨hname, ih.2⟩⟩
  · rintro ⟨rfl, hnames⟩
    rw [List.forall₂_map_right_iff]
    exact List.forall₂_same.2 fun query hquery => written_iff.2 ⟨hnames query hquery, rfl⟩

/-- **Reading queries.** Texts are read if the grammar gives each of them to a query, and what is
read are these queries in their order; each of them has the text that it was read from, and is read
from it again. Otherwise the first text that is no query is reported. A query is read from its own
text if it has a name. -/
theorem parseAll_iff_written (texts : List String) :
    (∀ queries, parseAll texts = .ok queries ↔ List.Forall₂ Written queries texts) ∧
      (∀ queries, parseAll texts = .ok queries ↔
        queries.map Query.text = texts ∧ ∀ query ∈ queries, parse? query.text = some query) ∧
      (∀ error, parseAll texts = .error error ↔
        ∃ text, FirstMalformed texts text ∧ error = .malformed text) ∧
      ∀ query : Query, parse? query.text = some query ↔ query.name ≠ "" := by
  refine ⟨fun queries => parseAll_eq_ok, fun queries => ?_, fun error => parseAll_eq_error,
    fun query => parse?_text⟩
  exact parseAll_eq_ok.trans forall₂_written_iff

/-- What looks like a query of another sort is a name, and a word without a name is no query. -/
example :
    parseAll ["type.fn.a", "fn..", "global.", "fn"] = .error (.malformed "global.") := by
  cbv

end BorrowIR.Query
