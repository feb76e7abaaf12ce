import BorrowIR.Proofs.OneFunction
import BorrowIR.Proofs.StatementNodes

/-!
# How sequences are nested

A body is easiest to go through when sequences are nested to the right: the first statement of a
sequence is no sequence itself (`Statement.RightNested`), and `Statement.flatten` then finds all
statements of a sequence. Nothing that decodes statements looks at the first statement of a
sequence, so it is the document that decides.

* `Statement.rightNested_iff_flatten`: flattening gives no sequences if and only if sequences are
  nested to the right;
* `Statement.rightNested_iff_reads`: a decoded statement is nested to the right if and only if the
  nodes of the document are.
-/

namespace BorrowIR

open Decode Outcome

namespace Statement

/-- The statement is a sequence. -/
def IsSequence (s : Statement) : Prop := ∃ first rest, s.content = .sequence first rest

end Statement

/-- A sequence whose first statement is a sequence, too. -/
def RawStatement.NestsLeft (content : RawStatement) : Prop :=
  ∃ first rest, content = .sequence first rest ∧ first.IsSequence

namespace Statement

/-- **Nesting to the right.** At every depth, the first statement of a sequence is no sequence. -/
def RightNested (s : Statement) : Prop := s.Everywhere fun content => ¬ content.NestsLeft

theorem RightNested.of_occurs {t s : Statement} (h : s.RightNested) (ht : t.Occurs s) :
    t.RightNested :=
  fun u hu => h u (hu.trans ht)

/-- Where sequences are nested to the right, the statements of a sequence are no sequences. -/
theorem RightNested.flatten {s : Statement} (h : s.RightNested) :
    ∀ u ∈ s.flatten, ¬ u.IsSequence := by
  induction s using flatten.induct with
  | case1 origin first rest ih =>
    have hfirst : ¬ first.IsSequence := fun hfirst => h _ .refl ⟨first, rest, rfl, hfirst⟩
    have hrest : rest.Occurs (.mk origin (.sequence first rest)) :=
      .part (List.mem_cons_of_mem _ List.mem_cons_self) .refl
    rw [Statement.flatten]
    exact List.forall_mem_cons.2 ⟨hfirst, ih (h.of_occurs hrest)⟩
  | case2 s hs =>
    rw [Statement.flatten.eq_2 s hs]
    refine List.forall_mem_singleton.2 ?_
    rintro ⟨first, rest, hcontent⟩
    obtain ⟨origin, content⟩ := s
    exact hs origin first rest (by rw [show content = .sequence first rest from hcontent])

/-- Sequences are nested to the right if and only if flattening gives no sequences, wherever a
statement is flattened. -/
theorem rightNested_iff_flatten {s : Statement} :
    s.RightNested ↔ ∀ t : Statement, t.Occurs s → ∀ u ∈ t.flatten, ¬ u.IsSequence := by
  constructor
  · intro h t ht
    exact (h.of_occurs ht).flatten
  · rintro h t ht ⟨first, rest, hcontent, hfirst⟩
    have hmem : first ∈ t.flatten := by
      obtain ⟨origin, content⟩ := t
      obtain rfl : content = .sequence first rest := hcontent
      rw [flatten]
      exact List.mem_cons_self
    exact h t ht first hmem hfirst

/-- A sequence is right-nested if its parts are and the first of them is no sequence. -/
theorem rightNested_sequence {origin : Provenance} {first rest : Statement} :
    (mk origin (.sequence first rest)).RightNested ↔
      ¬ first.IsSequence ∧ first.RightNested ∧ rest.RightNested := by
  rw [RightNested, everywhere_iff]
  simp [content, RawStatement.parts, RawStatement.NestsLeft, RightNested]

/-- **Sequences stay as they are written.** A decoded statement consists of the statements that are
read from the nodes of the document. So it is nested to the right if and only if no node is read as
a sequence whose first statement is a sequence, and then, and only then, do its statements flatten
to statements that are no sequences. -/
theorem rightNested_iff_reads {table : FileTable} {v : Json} {s : Statement}
    (h : (Statement.decode table v).Yields s) :
    (∀ t, t.Occurs s ↔ v.Reads table t) ∧
      (s.RightNested ↔ ∀ t, v.Reads table t → ¬ t.content.NestsLeft) ∧
      (s.RightNested ↔ ∀ t : Statement, t.Occurs s → ∀ u ∈ t.flatten, ¬ u.IsSequence) := by
  have hreads : ∀ t, t.Occurs s ↔ v.Reads table t := fun t => (reads_iff_occurs h t).symm
  refine ⟨hreads, ?_, rightNested_iff_flatten⟩
  constructor
  · intro hnested t ht
    exact hnested t ((hreads t).2 ht)
  · intro hnodes t ht
    exact hnodes t ((hreads t).1 ht)

end Statement

/-! ## Three statements in two ways -/

namespace Json

/-- The statement that does nothing. -/
def nop : Json := topStatement .null (.str "Nop")

/-- Two statements one after the other. -/
def sequence (first rest : Json) : Json :=
  topStatement .null (.tagged "Sequence" (.arr [first, rest]))

end Json

namespace Statement

/-- The statement that does nothing. -/
def nop : Statement := .mk ⟨.top, none⟩ .nop

theorem decode_nop : (Statement.decode .one Json.nop).Yields nop :=
  decode_top Provenance.decode_top (RawStatement.decode_of_form (p := .bare) .nop)

/-- The decoder builds a sequence of any two statements. -/
theorem decode_sequence {f r : Json} {first rest : Statement}
    (hfirst : (Statement.decode .one f).Yields first)
    (hrest : (Statement.decode .one r).Yields rest) :
    (Statement.decode .one (Json.sequence f r)).Yields
      (.mk ⟨.top, none⟩ (.sequence first rest)) :=
  decode_top Provenance.decode_top
    (RawStatement.decode_of_form (p := .bare) (.sequence hfirst hrest))

/-- Three statements that are nested to the left. -/
def leftNested : Statement :=
  .mk ⟨.top, none⟩ (.sequence (.mk ⟨.top, none⟩ (.sequence nop nop)) nop)

/-- Three statements that are nested to the right. -/
def rightNested : Statement :=
  .mk ⟨.top, none⟩ (.sequence nop (.mk ⟨.top, none⟩ (.sequence nop nop)))

theorem decode_leftNested :
    (Statement.decode .one (Json.sequence (Json.sequence Json.nop Json.nop) Json.nop)).Yields
      leftNested :=
  decode_sequence (decode_sequence decode_nop decode_nop) decode_nop

theorem decode_rightNested :
    (Statement.decode .one (Json.sequence Json.nop (Json.sequence Json.nop Json.nop))).Yields
      rightNested :=
  decode_sequence decode_nop (decode_sequence decode_nop decode_nop)

theorem leftNested_nestsLeft : leftNested.content.NestsLeft := ⟨_, _, rfl, _, _, rfl⟩

theorem rightNested_rightNested : rightNested.RightNested := by
  have hnop : ¬ nop.IsSequence := nofun
  have hnested : nop.RightNested := everywhere_iff.2 ⟨nofun, nofun⟩
  exact rightNested_sequence.2 ⟨hnop, hnested, rightNested_sequence.2 ⟨hnop, hnested, hnested⟩⟩

/-- Three statements may be written in both ways, and each of them stays as it is. -/
theorem rightNested_iff_reads_three :
    (¬ leftNested.RightNested ∧ ∃ t,
        (Json.sequence (Json.sequence Json.nop Json.nop) Json.nop).Reads .one t ∧
          t.content.NestsLeft) ∧
      rightNested.RightNested ∧ ∀ t,
        (Json.sequence Json.nop (Json.sequence Json.nop Json.nop)).Reads .one t →
          ¬ t.content.NestsLeft := by
  have hleft := (rightNested_iff_reads decode_leftNested).2.1
  have hright := (rightNested_iff_reads decode_rightNested).2.1
  have hreads : (Json.sequence (Json.sequence Json.nop Json.nop) Json.nop).Reads .one leftNested :=
    ⟨_, .refl, decode_leftNested⟩
  refine ⟨⟨?_, leftNested, hreads, leftNested_nestsLeft⟩, rightNested_rightNested, ?_⟩
  · rw [hleft]
    exact fun h => h leftNested hreads leftNested_nestsLeft
  · exact hright.1 rightNested_rightNested

/-- Decoded statements are not always nested to the right, nor do they always flatten to statements
that are no sequences. -/
theorem not_forall_rightNested :
    ¬ ∀ (table : FileTable) (v : Json) (s : Statement), (Statement.decode table v).Yields s →
      s.RightNested ∧ ∀ t : Statement, t.Occurs s → ∀ u ∈ t.flatten, ¬ u.IsSequence := by
  intro h
  have hnested := (h _ _ _ decode_leftNested).1
  exact hnested leftNested .refl leftNested_nestsLeft

end Statement

end BorrowIR
