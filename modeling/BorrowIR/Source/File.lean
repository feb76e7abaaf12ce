import BorrowIR.Entity

/-!
# Source files

Spans of a document name their file by a `FileId`; the `FileTable` of the crate says which
`FileName` stands behind it. The identifiers of a table are distinct (`FileTable.distinct`), and
`FileTable.insert` refuses an identifier that is already there.
-/

namespace BorrowIR

/-- The identifier of a source file. The two sorts of files are numbered apart. -/
inductive FileId where
  | localFile (id : LocalFileId)
  | virtualFile (id : VirtualFileId)
deriving DecidableEq, Repr

/-- The identifier as messages about a missing file give it. -/
def FileId.text : FileId → String
  | .localFile id => "LocalId(" ++ id.text ++ ")"
  | .virtualFile id => "VirtualId(" ++ id.text ++ ")"

/-- The identifier with the sort of its number spelled out, as messages about a table give it. -/
def FileId.fullText : FileId → String
  | .localFile id => "LocalId(LocalFileId(" ++ id.text ++ "))"
  | .virtualFile id => "VirtualId(VirtualFileId(" ++ id.text ++ "))"

/-- What a source file is: a path, or a name that only the compiler knows. -/
inductive FileName where
  | path (file : String)
  | virtual (name : String)
deriving DecidableEq, Repr

/-- A path stands for itself, another name is set in angle brackets. -/
def FileName.text : FileName → String
  | .path file => file
  | .virtual name => "<" ++ name ++ ">"

/-- The files of a crate, in the order in which they are listed. -/
structure FileTable where
  entries : List (FileId × FileName)
  distinct : (entries.map Prod.fst).Nodup

namespace FileTable

/-- The table without files. -/
def empty : FileTable := ⟨[], List.nodup_nil⟩

instance : Inhabited FileTable := ⟨empty⟩

/-- The file behind an identifier. -/
def get? (table : FileTable) (id : FileId) : Option FileName := table.entries.lookup id

/-- The number of files. -/
def size (table : FileTable) : Nat := table.entries.length

/-- An identifier that is not listed has no file. -/
theorem not_mem_of_lookup_eq_none {α β : Type} [BEq α] [LawfulBEq α] {a : α} :
    ∀ {entries : List (α × β)}, entries.lookup a = none → a ∉ entries.map Prod.fst
  | [], _ => by simp
  | (b, _) :: entries, h => by
    rw [List.lookup_cons] at h
    by_cases hab : a == b
    · simp [hab] at h
    · have hne : a ≠ b := fun e => hab (by simp [e])
      simp only [hab] at h
      simp [hne, not_mem_of_lookup_eq_none h]

/-- Adds a file at the end. An identifier that is already listed is refused, with its file. -/
def insert (table : FileTable) (id : FileId) (name : FileName) : Except FileName FileTable :=
  match h : table.get? id with
  | some previous => .error previous
  | none =>
    .ok
      { entries := table.entries ++ [(id, name)]
        distinct := by
          rw [List.map_append, List.nodup_append]
          refine ⟨table.distinct, by simp, ?_⟩
          intro a ha b hb
          simp only [List.map_cons, List.map_nil, List.mem_singleton] at hb
          subst hb
          exact fun e => not_mem_of_lookup_eq_none h (e ▸ ha) }

end FileTable

end BorrowIR
