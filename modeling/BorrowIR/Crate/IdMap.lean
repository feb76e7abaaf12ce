import BorrowIR.Entity

/-!
# Finite maps from identifiers

The entries of an `IdMap` stand in increasing order of their identifiers (`IdMap.sorted`), so two
maps with the same entries are equal, however they were built.
-/

namespace BorrowIR

/-- A finite map from the identifiers of one sort. -/
structure IdMap (sort : Entity) (α : Type) where
  entries : List (EntityId sort × α)
  sorted : entries.Pairwise fun a b => a.1.index < b.1.index

namespace IdMap

variable {sort : Entity} {α : Type}

/-- The map without entries. -/
def empty : IdMap sort α := ⟨[], List.Pairwise.nil⟩

instance : Inhabited (IdMap sort α) := ⟨empty⟩

/-- The value of an identifier. -/
def find? (map : IdMap sort α) (id : EntityId sort) : Option α := map.entries.lookup id

/-- An identifier has a value. -/
def contains (map : IdMap sort α) (id : EntityId sort) : Bool := (map.find? id).isSome

/-- The identifiers in increasing order. -/
def keys (map : IdMap sort α) : List (EntityId sort) := map.entries.map Prod.fst

/-- The values in the order of their identifiers. -/
def values (map : IdMap sort α) : List α := map.entries.map Prod.snd

/-- The number of entries. -/
def size (map : IdMap sort α) : Nat := map.entries.length

/-- Puts an entry where its identifier belongs, and drops the entry that the identifier had. -/
def insertEntry (id : EntityId sort) (value : α) :
    List (EntityId sort × α) → List (EntityId sort × α)
  | [] => [(id, value)]
  | (key, old) :: rest =>
    if id.index < key.index then (id, value) :: (key, old) :: rest
    else if id = key then (id, value) :: rest
    else (key, old) :: insertEntry id value rest

theorem mem_insertEntry {id : EntityId sort} {value : α} {entry : EntityId sort × α} :
    ∀ {entries : List (EntityId sort × α)},
      entry ∈ insertEntry id value entries → entry = (id, value) ∨ entry ∈ entries
  | [], h => by simpa [insertEntry] using h
  | (key, old) :: rest, h => by
    unfold insertEntry at h
    split at h
    · simpa using h
    · split at h
      · rcases List.mem_cons.1 h with h | h
        · exact .inl h
        · exact .inr (List.mem_cons_of_mem _ h)
      · rcases List.mem_cons.1 h with h | h
        · exact .inr (h ▸ List.mem_cons_self)
        · exact (mem_insertEntry h).imp_right (List.mem_cons_of_mem _)

theorem sorted_insertEntry (id : EntityId sort) (value : α) :
    ∀ {entries : List (EntityId sort × α)},
      (entries.Pairwise fun a b => a.1.index < b.1.index) →
      (insertEntry id value entries).Pairwise fun a b => a.1.index < b.1.index
  | [], _ => by simp [insertEntry]
  | (key, old) :: rest, h => by
    obtain ⟨hkey, hrest⟩ := List.pairwise_cons.1 h
    unfold insertEntry
    split
    · rename_i hlt
      refine List.pairwise_cons.2 ⟨fun entry hentry => ?_, h⟩
      rcases List.mem_cons.1 hentry with rfl | hentry
      · exact hlt
      · exact Nat.lt_trans hlt (hkey entry hentry)
    · split
      · rename_i heq
        subst heq
        exact List.pairwise_cons.2 ⟨hkey, hrest⟩
      · rename_i hlt hne
        refine List.pairwise_cons.2 ⟨fun entry hentry => ?_, sorted_insertEntry id value hrest⟩
        rcases mem_insertEntry hentry with rfl | hentry
        · have : id.index ≠ key.index := fun e => hne (by cases id; cases key; simp_all)
          show key.index < id.index
          omega
        · exact hkey entry hentry

/-- Gives an identifier a value. -/
def insert (map : IdMap sort α) (id : EntityId sort) (value : α) : IdMap sort α :=
  ⟨insertEntry id value map.entries, sorted_insertEntry id value map.sorted⟩

end IdMap

end BorrowIR
