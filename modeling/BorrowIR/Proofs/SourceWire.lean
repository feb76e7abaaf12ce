import BorrowIR.Proofs.TyWire
import BorrowIR.Source.Decode

/-!
# The written forms of source places

Spans name a file, so their written forms depend on the files that are listed.

* `Span.Wire`, `Provenance.Wire`: the grammar, for the files of a table;
* `Span.decode_iff`, `Provenance.decode_iff`: the decoders accept just these forms;
* `Span.exists_wire_iff`, `Provenance.exists_wire_iff`: what can be written, in every packing.
-/

namespace BorrowIR

open Decode Outcome

/-- Written forms of the identifiers of files. -/
inductive FileId.Wire : FileId → Packing → Json → Prop
  | localFile {p : Packing} {id : LocalFileId} {v : Json} :
    v.IsNumeral id.index → Wire (.localFile id) p (.tagged "LocalId" (p.payload v))
  | virtualFile {p : Packing} {id : VirtualFileId} {v : Json} :
    v.IsNumeral id.index → Wire (.virtualFile id) p (.tagged "VirtualId" (p.payload v))

/-- Written forms of a line and a column. -/
inductive Loc.Wire : Loc → Json → Prop
  | mk {loc : Loc} {v line col : Json} :
    v.IsRecord [("line", line), ("col", col)] → line.IsNumeral loc.line → col.IsNumeral loc.col →
      Wire loc v

/-- Written forms of spans. The file that the span names is listed. -/
inductive Span.Wire (table : FileTable) : Span → Packing → Json → Prop
  | mk {p : Packing} {span : Span} {id : FileId} {v file start stop : Json} :
    v.IsRecord [("file_id", file), ("beg", start), ("end", stop)] → id.Wire p file →
      table.get? id = some span.file → span.start.Wire start → span.stop.Wire stop →
      Wire table span p v

/-- Written forms of provenances. -/
inductive Provenance.Wire (table : FileTable) : Provenance → Packing → Json → Prop
  | own {p : Packing} {span : Span} {v s : Json} :
    v.IsRecord [("span", s), ("generated_from_span", .null)] → span.Wire table (p.child 0) s →
      Wire table ⟨span, none⟩ p v
  | generated {p : Packing} {span source : Span} {v s g : Json} :
    v.IsRecord [("span", s), ("generated_from_span", g)] → span.Wire table (p.child 0) s →
      source.Wire table (p.child 1) g → Wire table ⟨span, some source⟩ p v

/-! ## What the decoders accept -/

/-- The identifiers of files are read from their written forms, and from nothing else. -/
theorem FileId.decode_iff {v : Json} {id : FileId} :
    (FileId.decode v).Yields id ↔ ∃ p, id.Wire p v := by
  -- both sorts of identifiers are a number behind a tag
  constructor
  · intro h
    obtain ⟨t, hv, h⟩ := yields_within_bind.1 h
    split at h
    · obtain ⟨own, w, id, hv, hid, rfl⟩ := tagged_of_entityId hv h
      rw [hv]
      exact ⟨fun _ => own, .localFile hid⟩
    · obtain ⟨own, w, id, hv, hid, rfl⟩ := tagged_of_entityId hv h
      rw [hv]
      exact ⟨fun _ => own, .virtualFile hid⟩
    · exact (yields_fail.1 h).elim
  · rintro ⟨p, h⟩
    rw [FileId.decode, yields_within]
    cases h with
    | localFile hid | virtualFile hid => rw [variant_tagged_bind]; exact entityId_of_tagged _ hid

/-- A file is found under an identifier where it is listed. -/
theorem FileTable.resolve_yields {table : FileTable} {id : FileId} {name : FileName} :
    (table.resolve id).Yields name ↔ table.get? id = some name := by
  unfold resolve
  cases table.get? id <;> simp [yields_fail]

/-- A file that is not listed is reported with the text of its identifier. -/
theorem FileTable.resolve_fails {table : FileTable} {id : FileId} {c : Cause} :
    (table.resolve id).Fails c ↔ c = .unknownFile id.text ∧ table.get? id = none := by
  unfold resolve
  cases table.get? id with
  | none => simp [fails_fail, eq_comm]
  | some name => simp [Fails]

theorem Loc.decode_iff {v : Json} {loc : Loc} : (Loc.decode v).Yields loc ↔ loc.Wire v := by
  rw [Loc.decode, yields_within, record_bind (by decide)]
  constructor
  · rintro ⟨⟨⟨line, _⟩, ⟨col, _⟩⟩, hv, h⟩
    simp only [yields_bind, yields_pure, natural_yields] at h
    obtain ⟨l, hline, c, hcol, rfl⟩ := h
    exact .mk hv hline hcol
  · rintro ⟨hv, hline, hcol⟩
    refine ⟨(⟨_, hv.sizeOf_lt (by simp)⟩, ⟨_, hv.sizeOf_lt (by simp)⟩), hv, ?_⟩
    simp only [yields_bind, yields_pure, natural_yields]
    exact ⟨_, hline, _, hcol, rfl⟩

variable {table : FileTable}

/-- A span is read from its written forms, and holds the name that its file has in the table. -/
theorem Span.decode_iff {v : Json} {span : Span} :
    (Span.decode table v).Yields span ↔ ∃ p, span.Wire table p v := by
  rw [Span.decode, yields_within, record_bind (by decide)]
  constructor
  · rintro ⟨⟨⟨file, _⟩, ⟨start, _⟩, ⟨stop, _⟩⟩, hv, h⟩
    simp only [yields_bind, yields_pure, FileTable.resolve_yields, FileId.decode_iff,
      Loc.decode_iff] at h
    obtain ⟨id, ⟨p, hid⟩, name, hname, b, hb, e, he, rfl⟩ := h
    exact ⟨p, .mk hv hid hname hb he⟩
  · rintro ⟨p, hv, hid, hname, hb, he⟩
    refine ⟨(⟨_, hv.sizeOf_lt (by simp)⟩, ⟨_, hv.sizeOf_lt (by simp)⟩,
      ⟨_, hv.sizeOf_lt (by simp)⟩), hv, ?_⟩
    simp only [yields_bind, yields_pure, FileTable.resolve_yields, FileId.decode_iff,
      Loc.decode_iff]
    exact ⟨_, ⟨p, hid⟩, _, hname, _, hb, _, he, rfl⟩

/-- A provenance is read from its written forms. The span that code was generated from may be
absent. -/
theorem Provenance.decode_iff {v : Json} {origin : Provenance} :
    (Provenance.decode table v).Yields origin ↔ ∃ p, origin.Wire table p v := by
  rw [Provenance.decode, yields_within, record_bind (by decide)]
  constructor
  · rintro ⟨⟨⟨s, _⟩, ⟨g, _⟩⟩, hv, h⟩
    simp only [yields_bind, yields_pure, optional_yields, Span.decode_iff] at h
    obtain ⟨span, ⟨p, hs⟩, generated, hg, rfl⟩ := h
    -- the source of generated code is absent, or a span in a packing of its own
    rcases hg with ⟨rfl, rfl⟩ | ⟨-, source, rfl, q, hg⟩
    · exact ⟨.join false [p], .own hv hs⟩
    · exact ⟨.join false [p, q], .generated hv hs hg⟩
  · rintro ⟨p, h⟩
    cases h with
    | own hv hs =>
      refine ⟨(⟨_, hv.sizeOf_lt (by simp)⟩, ⟨_, hv.sizeOf_lt (by simp)⟩), hv, ?_⟩
      simp only [yields_bind, yields_pure, optional_yields, Span.decode_iff]
      exact ⟨_, ⟨_, hs⟩, _, .inl ⟨trivial, rfl⟩, rfl⟩
    | generated hv hs hg =>
      -- a span is a record, so it is not taken for an absent one
      have hnull : ∀ {g : Json} {source : Span} {q : Packing},
          source.Wire table q g → g ≠ .null := by
        rintro g source q ⟨⟨fs, rfl, -⟩⟩
        nofun
      refine ⟨(⟨_, hv.sizeOf_lt (by simp)⟩, ⟨_, hv.sizeOf_lt (by simp)⟩), hv, ?_⟩
      simp only [yields_bind, yields_pure, optional_yields, Span.decode_iff]
      exact ⟨_, ⟨_, hs⟩, _, .inr ⟨hnull hg, _, rfl, _, hg⟩, rfl⟩

/-! ## What can be written -/

/-- The number of a file. -/
def FileId.index : FileId → Nat
  | .localFile id => id.index
  | .virtualFile id => id.index

/-- The numbers of a place have 64 bits. -/
def Loc.WellFormed (loc : Loc) : Prop := loc.line < naturalBound ∧ loc.col < naturalBound

/-- The file is listed, under a number of 64 bits, and the places have such numbers. -/
def Span.WellFormed (table : FileTable) (span : Span) : Prop :=
  (∃ id, table.get? id = some span.file ∧ id.index < naturalBound) ∧ span.start.WellFormed ∧
    span.stop.WellFormed

/-- All spans are well formed. -/
def Provenance.WellFormed (table : FileTable) (origin : Provenance) : Prop :=
  origin.span.WellFormed table ∧ ∀ source ∈ origin.generatedFrom, source.WellFormed table

/-- An identifier can be written if its number has 64 bits, in every packing. -/
theorem FileId.exists_wire_iff {id : FileId} (p : Packing) :
    (∃ v, id.Wire p v) ↔ id.index < naturalBound := by
  cases id with
  | localFile id =>
    rw [FileId.index, ← Json.exists_isNumeral]
    constructor
    · rintro ⟨v, h⟩; cases h with | _ h => exact ⟨_, h⟩
    · rintro ⟨v, h⟩; exact ⟨_, .localFile h⟩
  | virtualFile id =>
    rw [FileId.index, ← Json.exists_isNumeral]
    constructor
    · rintro ⟨v, h⟩; cases h with | _ h => exact ⟨_, h⟩
    · rintro ⟨v, h⟩; exact ⟨_, .virtualFile h⟩

theorem Json.isRecord_obj (fields : List (String × Json)) : (Json.obj fields).IsRecord fields :=
  ⟨fields, rfl, List.Perm.refl _⟩

/-- A place can be written if its numbers have 64 bits. -/
theorem Loc.exists_wire_iff {loc : Loc} : (∃ v, loc.Wire v) ↔ loc.WellFormed := by
  rw [Loc.WellFormed, ← Json.exists_isNumeral, ← Json.exists_isNumeral]
  constructor
  · rintro ⟨v, ⟨-, hline, hcol⟩⟩; exact ⟨⟨_, hline⟩, ⟨_, hcol⟩⟩
  · rintro ⟨⟨_, hline⟩, ⟨_, hcol⟩⟩; exact ⟨_, .mk (Json.isRecord_obj _) hline hcol⟩

/-- A span can be written if its file is listed under some identifier that can be written. -/
theorem Span.exists_wire_iff {span : Span} (p : Packing) :
    (∃ v, span.Wire table p v) ↔ span.WellFormed table := by
  rw [Span.WellFormed, ← Loc.exists_wire_iff, ← Loc.exists_wire_iff]
  constructor
  · rintro ⟨v, ⟨-, hid, hname, hb, he⟩⟩
    exact ⟨⟨_, hname, (FileId.exists_wire_iff p).1 ⟨_, hid⟩⟩, ⟨_, hb⟩, ⟨_, he⟩⟩
  · rintro ⟨⟨id, hname, hid⟩, ⟨_, hb⟩, ⟨_, he⟩⟩
    obtain ⟨_, hid⟩ := (FileId.exists_wire_iff p).2 hid
    exact ⟨_, .mk (Json.isRecord_obj _) hid hname hb he⟩

/-- A provenance can be written if its spans can be, in every packing. -/
theorem Provenance.exists_wire_iff {origin : Provenance} (p : Packing) :
    (∃ v, origin.Wire table p v) ↔ origin.WellFormed table := by
  constructor
  · rintro ⟨v, h⟩
    cases h with
    | own _ hs => exact ⟨(Span.exists_wire_iff _).1 ⟨_, hs⟩, by simp⟩
    | generated _ hs hg =>
      refine ⟨(Span.exists_wire_iff _).1 ⟨_, hs⟩, ?_⟩
      rintro source ⟨⟩
      exact (Span.exists_wire_iff _).1 ⟨_, hg⟩
  -- the two spans are written in packings of their own, whatever the packing of the whole
  · obtain ⟨span, generated⟩ := origin
    rintro ⟨hs, hg⟩
    obtain ⟨_, hs⟩ := (Span.exists_wire_iff (p.child 0)).2 hs
    cases generated with
    | none => exact ⟨_, .own (Json.isRecord_obj _) hs⟩
    | some source =>
      obtain ⟨_, hg⟩ := (Span.exists_wire_iff (p.child 1)).2 (hg source rfl)
      exact ⟨_, .generated (Json.isRecord_obj _) hs hg⟩

end BorrowIR
