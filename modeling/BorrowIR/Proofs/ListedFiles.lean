import BorrowIR.Proofs.FileTables
import Mathlib

/-!
# What a list of files says

The entries of a list of files are added to a table one after the other, up to the first one whose
identifier is there already.

* `FileTable.ReadsEntries`: the entries that a list of files has;
* `FileTable.Holds`: a table with these files and no others;
* `FileTable.FirstRepeat`: the first entry whose identifier stands before it already;
* `FileTable.firstRepeat_of_insertAll`: adding entries stops at this one, if it stops;
* `FileTable.decode_iff_distinct`: so a list is accepted if its identifiers are distinct, the table
  then holds what is listed, and otherwise the first repeated identifier is reported.
-/

namespace BorrowIR

open Decode Outcome

namespace FileTable

/-- The entries of a list of files, in order. Each of them is a pair of an identifier and of what
the file is. -/
def ReadsEntries (v : Json) (entries : List (FileId × FileName)) : Prop :=
  ∃ vs, v = .arr vs ∧ List.Forall₂ ReadsEntry vs entries

/-- **The table of a list.** A file is found under an identifier if it is listed with it, there are
as many files as entries, and just the identifiers that are not listed cannot be resolved. -/
structure Holds (table : FileTable) (entries : List (FileId × FileName)) : Prop where
  get? : ∀ id name, table.get? id = some name ↔ (id, name) ∈ entries
  size : table.size = entries.length
  resolve : ∀ id c,
    (table.resolve id).Fails c ↔ c = .unknownFile id.text ∧ id ∉ entries.map Prod.fst

/-- **The first repeated identifier.** The entries before some entry for `id` have distinct
identifiers, and `id` is one of them already: it stands there for the file `first`. -/
inductive FirstRepeat (entries : List (FileId × FileName)) (id : FileId) (first : FileName) : Prop
  | mk {before after : List (FileId × FileName)} {name : FileName} :
    entries = before ++ (id, name) :: after → (before.map Prod.fst).Nodup →
      before.lookup id = some first → FirstRepeat entries id first

/-! ## Looking up what is listed -/

/-- A table holds its entries. -/
theorem holds_entries (table : FileTable) : table.Holds table.entries where
  get? _ _ := get?_eq_some
  size := rfl
  resolve _ _ := by rw [resolve_fails, get?_eq_none]

/-! ## Adding entries -/

/-- **Where adding stops.** If entries are not added to a table, this is due to the first one whose
identifier is repeated, in the list of all entries. -/
theorem firstRepeat_of_insertAll {failure : Failure} :
    ∀ {entries : List (FileId × FileName)} {table : FileTable},
      (insertAll table entries).result = .error failure →
      ∃ id first, FirstRepeat (table.entries ++ entries) id first ∧
        failure = ⟨.violation (.repeatedFile id first), []⟩
  | [], _, h => by cases h
  | (id, name) :: entries, table, h => by
    rw [insertAll] at h
    cases hinsert : table.insert id name with
    | ok next =>
      -- the entry has become the last one of the table
      obtain ⟨-, hnext⟩ := insert_eq_ok.1 hinsert
      rw [hinsert] at h
      obtain ⟨id', first, hrepeat, hfailure⟩ := firstRepeat_of_insertAll h
      rw [hnext, List.append_assoc, List.singleton_append] at hrepeat
      exact ⟨id', first, hrepeat, hfailure⟩
    | error previous =>
      -- what the table has under the identifier is what was listed for it first
      rw [hinsert] at h
      refine ⟨id, previous, .mk rfl table.distinct (insert_eq_error.1 hinsert), ?_⟩
      exact (Except.error.inj h).symm

/-! ## Decoding lists -/

/-- Once the entries are read, decoding a list is adding them to the table without files. -/
theorem result_decode_of_readsEntries {v : Json} {entries : List (FileId × FileName)}
    (h : ReadsEntries v entries) :
    (FileTable.decode v).result =
      (insertAll .empty entries).result.mapError (Failure.within "id_to_file") := by
  obtain ⟨vs, rfl, hvs⟩ := h
  have hentries := list_yields.2
    ⟨vs, rfl, hvs.imp fun v entry hentry => readsEntry_iff.2 hentry⟩
  unfold FileTable.decode within
  rw [result_bind_of hentries]
  -- the report does not change the result
  obtain ⟨log, failure | table⟩ := insertAll .empty entries <;> rfl

/-- The table that is decoded has just the entries that were read. -/
theorem entries_of_decode {v : Json} {entries : List (FileId × FileName)} {table : FileTable}
    (hdecode : (FileTable.decode v).Yields table) (h : ReadsEntries v entries) :
    table.entries = entries := by
  have hinsert : (within "id_to_file" (insertAll .empty entries)).Yields table :=
    (result_decode_of_readsEntries h).symm.trans hdecode
  rw [yields_within, insertAll_yields] at hinsert
  exact hinsert

/-- **Lists of files.** A list is accepted if it consists of pairs of an identifier and a name, and
no identifier stands in two of them; paths and other files are numbered apart. The table has the
listed files and no others. If all pairs can be read but identifiers are repeated, the failure is
about the first entry whose identifier was listed before, and about the file that it was listed for
first. -/
theorem decode_iff_distinct (v : Json) :
    ((∃ table, (FileTable.decode v).Yields table) ↔
        ∃ entries, ReadsEntries v entries ∧ (entries.map Prod.fst).Nodup) ∧
      (∀ table entries, (FileTable.decode v).Yields table → ReadsEntries v entries →
        table.Holds entries) ∧
      ∀ entries, ReadsEntries v entries → ¬ (entries.map Prod.fst).Nodup →
        ∃ id first, FirstRepeat entries id first ∧
          (FileTable.decode v).result =
            .error ⟨.violation (.repeatedFile id first), ["id_to_file"]⟩ := by
  refine ⟨⟨?_, ?_⟩, ?_, ?_⟩
  · rintro ⟨table, htable⟩
    exact ⟨table.entries, decode_iff.1 htable, table.distinct⟩
  · rintro ⟨entries, hentries, hnodup⟩
    exact ⟨⟨entries, hnodup⟩, decode_iff.2 hentries⟩
  · intro table entries htable hentries
    rw [← entries_of_decode htable hentries]
    exact table.holds_entries
  · intro entries hentries hrepeated
    cases hresult : (insertAll .empty entries).result with
    | ok table =>
      -- the entries of a table have distinct identifiers
      have hadded : table.entries = entries := insertAll_yields.1 hresult
      rw [← hadded] at hrepeated
      exact absurd table.distinct hrepeated
    | error failure =>
      obtain ⟨id, first, hrepeat, rfl⟩ := firstRepeat_of_insertAll hresult
      refine ⟨id, first, hrepeat, ?_⟩
      rw [result_decode_of_readsEntries hentries, hresult]
      rfl

end FileTable

/-! ## Files of one number -/

namespace Json

/-- The entry of a list for a path of number zero. -/
def pathZero (path : String) : Json :=
  .arr [.tagged "LocalId" (.num "0"), .tagged "Local" (.str path)]

/-- A list with a path and another file, both of number zero, and further entries. -/
def filesZero (more : List Json) : Json :=
  .arr (.pathZero "a.rs" ::
    .arr [.tagged "VirtualId" (.arr [.num "0"]), .tagged "Virtual" (.str "lib")] :: more)

end Json

namespace FileTable

/-- A path of number zero. -/
def pathZero (path : String) : FileId × FileName := (.localFile ⟨0⟩, .path path)

/-- What the list says of the two files. -/
def filesZero : List (FileId × FileName) :=
  [pathZero "a.rs", (.virtualFile ⟨0⟩, .virtual "lib")]

theorem readsEntry_pathZero (path : String) : ReadsEntry (.pathZero path) (pathZero path) := by
  refine ⟨_, _, rfl, ?_, ?_⟩ <;> unfold Yields <;> cbv

theorem readsEntries_filesZero {more : List Json} {entries : List (FileId × FileName)}
    (h : List.Forall₂ ReadsEntry more entries) :
    ReadsEntries (.filesZero more) (filesZero ++ entries) := by
  refine ⟨_, rfl, .cons (readsEntry_pathZero _) (.cons ⟨_, _, rfl, ?_, ?_⟩ h)⟩ <;>
    unfold Yields <;> cbv

/-- The two files are told apart. A second path of number zero is refused, with the first one. -/
theorem decode_iff_distinct_filesZero :
    (∃ table, (FileTable.decode (.filesZero [])).Yields table ∧
        ReadsEntries (.filesZero []) filesZero ∧ table.Holds filesZero) ∧
      ReadsEntries (.filesZero [.pathZero "b.rs"]) (filesZero ++ [pathZero "b.rs"]) ∧
      ¬ ((filesZero ++ [pathZero "b.rs"]).map Prod.fst).Nodup ∧
      FirstRepeat (filesZero ++ [pathZero "b.rs"]) (.localFile ⟨0⟩) (.path "a.rs") ∧
      ∃ failure, (FileTable.decode (.filesZero [.pathZero "b.rs"])).result = .error failure ∧
        failure.message = "file id LocalId(LocalFileId(0)) is listed twice, " ++
          "the first time for a.rs (in id_to_file)" := by
  have htwo : ReadsEntries (.filesZero []) filesZero := readsEntries_filesZero .nil
  have hthree := readsEntries_filesZero (.cons (readsEntry_pathZero "b.rs") .nil)
  obtain ⟨haccepted, hholds, -⟩ := decode_iff_distinct (.filesZero [])
  obtain ⟨table, htable⟩ := haccepted.2 ⟨_, htwo, by decide⟩
  obtain ⟨-, -, hrefused⟩ := decode_iff_distinct (.filesZero [.pathZero "b.rs"])
  obtain ⟨id, first, hrepeat, hresult⟩ := hrefused _ hthree (by decide)
  have hfailure : (FileTable.decode (.filesZero [.pathZero "b.rs"])).result =
      .error ⟨.violation (.repeatedFile (.localFile ⟨0⟩) (.path "a.rs")), ["id_to_file"]⟩ := by
    cbv
  rw [hfailure] at hresult
  cases hresult
  exact ⟨⟨table, htable, htwo, hholds _ _ htable htwo⟩, hthree, by decide, hrepeat, _, hfailure,
    by decide⟩

end FileTable

end BorrowIR
