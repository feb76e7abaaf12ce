import BorrowIR.Proofs.SourceWire

/-!
# File tables

* `FileTable.decode_iff`: a table is decoded from a list of pairs with distinct identifiers;
* `FileTable.without`, `Json.withoutFiles`: a table and a document with some files left out;
* `FileTable.decode_dropFiles`: the list without the files is decoded to the table without them.
-/

namespace BorrowIR

open Decode Outcome

namespace FileTable

theorem get?_eq_some {table : FileTable} {id : FileId} {name : FileName} :
    table.get? id = some name ↔ (id, name) ∈ table.entries :=
  ⟨Lookup.mem_of_lookup, Lookup.lookup_of_mem table.distinct⟩

theorem get?_eq_none {table : FileTable} {id : FileId} :
    table.get? id = none ↔ id ∉ table.entries.map Prod.fst := by
  constructor
  · exact not_mem_of_lookup_eq_none
  · intro h
    cases hlookup : table.get? id with
    | none => rfl
    | some name => exact absurd (List.mem_map_of_mem (get?_eq_some.1 hlookup)) h

theorem ext_entries {table table' : FileTable} (h : table.entries = table'.entries) :
    table = table' := by
  cases table; cases table'; cases h; rfl

/-- A file is added at the end, if its identifier is new. -/
theorem insert_eq_ok {table table' : FileTable} {id : FileId} {name : FileName} :
    table.insert id name = .ok table' ↔
      id ∉ table.entries.map Prod.fst ∧ table'.entries = table.entries ++ [(id, name)] := by
  rw [← get?_eq_none]
  unfold insert
  split
  · rename_i hid
    simp [hid]
  · rename_i hid
    simp only [Except.ok.injEq, hid, true_and]
    constructor
    · rintro rfl; rfl
    · exact fun h => ext_entries h.symm

/-- A file whose identifier is taken is refused, with the one that was listed first. -/
theorem insert_eq_error {table : FileTable} {id : FileId} {name previous : FileName} :
    table.insert id name = .error previous ↔ table.get? id = some previous := by
  unfold insert
  split
  · rename_i hid
    simp [hid]
  · rename_i hid
    simp [hid]

/-- What is added to a table that has entries already. -/
theorem insertAll_yields : ∀ {entries : List (FileId × FileName)} {table table' : FileTable},
    (insertAll table entries).Yields table' ↔ table'.entries = table.entries ++ entries
  | [], table, table' => by
    rw [insertAll, yields_pure, List.append_nil]
    constructor
    · rintro rfl; rfl
    · exact fun h => ext_entries h.symm
  | (id, name) :: entries, table, table' => by
    rw [insertAll]
    cases hinsert : table.insert id name with
    | ok next =>
      obtain ⟨-, hnext⟩ := insert_eq_ok.1 hinsert
      rw [insertAll_yields, hnext, List.append_assoc, List.singleton_append]
    | error first =>
      simp only [yields_fail, false_iff]
      intro hentries
      have hlisted : id ∈ table.entries.map Prod.fst :=
        List.mem_map_of_mem (get?_eq_some.1 (insert_eq_error.1 hinsert))
      -- the entries of a table are distinct, so the identifier is not listed yet
      have hdistinct := table'.distinct
      rw [hentries, List.map_append, List.map_cons, List.nodup_middle, List.nodup_cons,
        List.mem_append, not_or] at hdistinct
      exact hdistinct.1.1 hlisted

/-- An entry of a list of files. -/
def ReadsEntry (v : Json) (entry : FileId × FileName) : Prop :=
  ∃ id name, v = .arr [id, name] ∧ (FileId.decode id).Yields entry.1 ∧
    (FileName.decode name).Yields entry.2

theorem readsEntry_iff {v : Json} {entry : FileId × FileName} :
    (components 2 v >>= fun p => return (← FileId.decode p.1.1, ← FileName.decode p.2.1)).Yields
      entry ↔ ReadsEntry v entry := by
  constructor
  · intro h
    simp only [yields_bind, yields_pure, Prod.exists, Subtype.exists] at h
    obtain ⟨i, _, n, _, hv, id, hid, name, hname, rfl⟩ := h
    rw [components_yields] at hv
    exact ⟨i, n, hv, hid, hname⟩
  · rintro ⟨i, n, rfl, hid, hname⟩
    exact components_two.2 (yields_bind.2 ⟨_, hid, yields_bind.2 ⟨_, hname, yields_pure.2 rfl⟩⟩)

/-- **Decoding a list of files.** The list has a pair for each entry of the table, in order. As the
identifiers of a table are distinct, so are those of the list. -/
theorem decode_iff {v : Json} {table : FileTable} :
    (FileTable.decode v).Yields table ↔
      ∃ vs, v = .arr vs ∧ List.Forall₂ ReadsEntry vs table.entries := by
  rw [FileTable.decode, yields_within, yields_bind]
  constructor
  · rintro ⟨entries, hentries, h⟩
    simp only [yields_bind, yields_report, yields_pure, insertAll_yields] at h
    obtain ⟨table', htable, -, -, rfl⟩ := h
    obtain ⟨vs, rfl, hvs⟩ := list_yields.1 hentries
    refine ⟨vs, rfl, ?_⟩
    rw [htable]
    exact hvs.imp fun v entry hentry => readsEntry_iff.1 hentry
  · rintro ⟨vs, rfl, hvs⟩
    refine ⟨table.entries, list_yields.2 ⟨vs, rfl, ?_⟩, ?_⟩
    · exact hvs.imp fun v entry hentry => readsEntry_iff.2 hentry
    · simp only [yields_bind, yields_report, yields_pure, insertAll_yields]
      exact ⟨table, rfl, (), trivial, rfl⟩

/-! ## Leaving out files -/

/-- The table without some files. -/
def without (lost : List FileId) (table : FileTable) : FileTable :=
  ⟨table.entries.filter fun entry => entry.1 ∉ lost,
    table.distinct.sublist (List.filter_sublist.map Prod.fst)⟩

/-- A file that is left out has no name, and the other files have those that they had. -/
theorem get?_without {lost : List FileId} {table : FileTable} {id : FileId} :
    (table.without lost).get? id = if id ∈ lost then none else table.get? id := by
  by_cases hid : id ∈ lost
  · rw [if_pos hid, get?_eq_none]
    rintro hmem
    obtain ⟨entry, hentry, rfl⟩ := List.mem_map.1 hmem
    have hkept := (List.mem_filter.1 hentry).2
    exact of_decide_eq_true hkept hid
  · rw [if_neg hid]
    cases hget : table.get? id with
    | none =>
      rw [get?_eq_none] at hget ⊢
      exact fun hmem => hget ((List.filter_sublist.map Prod.fst).subset hmem)
    | some name =>
      rw [get?_eq_some] at hget ⊢
      exact List.mem_filter.2 ⟨hget, decide_eq_true hid⟩

end FileTable

namespace Json

/-- The entry of a list of files is for one of these files. -/
def listsFile (lost : List FileId) : Json → Bool
  | .arr [id, _] =>
    match (FileId.decode id).result with
    | .ok id => id ∈ lost
    | .error _ => false
  | _ => false

/-- A list of files without the entries of some files. -/
def dropFiles (lost : List FileId) : Json → Json
  | .arr entries => .arr (entries.filter fun entry => !entry.listsFile lost)
  | v => v

/-- A document of a crate without some of the files that it lists. -/
def withoutFiles (lost : List FileId) : Json → Json
  | .obj fields =>
    .obj (fields.map fun (key, v) => (key, if key = "id_to_file" then v.dropFiles lost else v))
  | v => v

theorem listsFile_eq {lost : List FileId} {v : Json} {entry : FileId × FileName}
    (h : FileTable.ReadsEntry v entry) : v.listsFile lost = decide (entry.1 ∈ lost) := by
  obtain ⟨id, name, rfl, hid, -⟩ := h
  unfold Yields at hid
  simp only [listsFile, hid]

end Json

/-- **Leaving out files.** The list without some files is decoded to the table without them. -/
theorem FileTable.decode_dropFiles {lost : List FileId} {v : Json} {table : FileTable}
    (h : (FileTable.decode v).Yields table) :
    (FileTable.decode (v.dropFiles lost)).Yields (table.without lost) := by
  obtain ⟨vs, rfl, hvs⟩ := decode_iff.1 h
  refine decode_iff.2 ⟨_, rfl, List.rel_filter (fun v entry hentry => ?_) hvs⟩
  simp [Json.listsFile_eq hentry]

end BorrowIR
