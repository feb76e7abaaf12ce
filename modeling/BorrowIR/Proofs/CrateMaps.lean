import BorrowIR.Crate.Decode
import BorrowIR.Proofs.Node
import Mathlib.Tactic.Tauto

/-!
# The maps of a crate

Declarations are indexed one after the other, and an identifier that is there already is refused.

* `IdMap.eq_of_perm`: a map is determined by its entries, in whatever order they are listed;
* `IdMap.index_yields`: indexing succeeds for distinct identifiers, and the map then has one entry
  for each declaration, under its identifier;
* `IdMap.Keyed.find?_eq_some_iff`: what is found under an identifier has this identifier.
-/

namespace BorrowIR

open Outcome

namespace IdMap

variable {sort : Entity} {α : Type}

/-- Two maps with the same entries are equal. -/
theorem eq_of_perm {map map' : IdMap sort α} (h : map.entries.Perm map'.entries) : map = map' := by
  obtain ⟨entries, sorted⟩ := map
  obtain ⟨entries', sorted'⟩ := map'
  have heq : entries = entries' := by
    refine List.Perm.eq_of_pairwise (fun a b _ _ hab hba => ?_) sorted sorted' h
    exact absurd (Nat.lt_trans hab hba) (Nat.lt_irrefl _)
  subst heq
  rfl

theorem contains_iff {map : IdMap sort α} {id : EntityId sort} :
    map.contains id = true ↔ id ∈ map.keys := by
  unfold contains find? keys
  rw [Option.isSome_iff_exists]
  constructor
  · rintro ⟨value, hvalue⟩
    exact List.mem_map.2 ⟨_, Lookup.mem_of_lookup hvalue, rfl⟩
  · intro hid
    cases hlookup : map.entries.lookup id with
    | some value => exact ⟨value, rfl⟩
    -- a key of the map that is not found is none
    | none => exact absurd hid (FileTable.not_mem_of_lookup_eq_none hlookup)

/-- A new identifier adds its entry to those that are there. -/
theorem perm_insertEntry {id : EntityId sort} {value : α} :
    ∀ {entries : List (EntityId sort × α)}, id ∉ entries.map Prod.fst →
      (insertEntry id value entries).Perm ((id, value) :: entries)
  | [], _ => List.Perm.refl _
  | (key, old) :: rest, hid => by
    rw [List.map_cons, List.mem_cons, not_or] at hid
    unfold insertEntry
    split
    · exact List.Perm.refl _
    -- the entry comes further back, as it is not the one that stands here
    · rw [if_neg hid.1]
      have hrest : (insertEntry id value rest).Perm ((id, value) :: rest) := perm_insertEntry hid.2
      exact (hrest.cons _).trans (List.Perm.swap _ _ _)

/-- What is added to a map that has entries already. -/
theorem indexOnto_yields {declSort : DeclSort} {id : α → EntityId sort} :
    ∀ {decls : List α} {map map' : IdMap sort α},
      (indexOnto declSort id map decls).Yields map' ↔
        (decls.map id).Nodup ∧ (∀ decl ∈ decls, id decl ∉ map.keys) ∧
          map'.entries.Perm (map.entries ++ decls.map fun decl => (id decl, decl))
  | [], map, map' => by
    rw [indexOnto, yields_pure]
    constructor
    · rintro rfl; simp
    · rintro ⟨-, -, h⟩
      exact (eq_of_perm (h.trans (by simp))).symm
  | decl :: decls, map, map' => by
    rw [indexOnto]
    by_cases hid : id decl ∈ map.keys
    -- the declaration is refused, and its identifier is no new one
    · rw [if_pos (contains_iff.2 hid), yields_fail]
      simp [hid]
    · rw [if_neg (fun h => hid (contains_iff.1 h)), indexOnto_yields]
      have hperm : (map.insert (id decl) decl).entries.Perm ((id decl, decl) :: map.entries) :=
        perm_insertEntry hid
      have hkeys : ∀ key, key ∈ (map.insert (id decl) decl).keys ↔
          key = id decl ∨ key ∈ map.keys := by
        intro key
        rw [keys, (hperm.map Prod.fst).mem_iff, List.map_cons, List.mem_cons, keys]
      -- the entry of the declaration may stand before or behind those of the map
      have hentries : ((map.insert (id decl) decl).entries ++
          decls.map fun decl => (id decl, decl)).Perm
          (map.entries ++ (decl :: decls).map fun decl => (id decl, decl)) :=
        (hperm.append_right _).trans List.perm_middle.symm
      have hnodup : ((decl :: decls).map id).Nodup ↔
          (∀ d ∈ decls, id d ≠ id decl) ∧ (decls.map id).Nodup := by
        simp [List.nodup_cons]
      have hnew : (∀ d ∈ decls, id d ∉ (map.insert (id decl) decl).keys) ↔
          (∀ d ∈ decls, id d ≠ id decl) ∧ ∀ d ∈ decls, id d ∉ map.keys := by
        simp only [hkeys, not_or, forall_and, ne_eq]
      have hold : (∀ d ∈ decl :: decls, id d ∉ map.keys) ↔ ∀ d ∈ decls, id d ∉ map.keys := by
        rw [List.forall_mem_cons, and_iff_right hid]
      rw [hentries.congr_right, hnodup, hnew, hold]
      tauto

/-- **Indexing.** The declarations of a list can be indexed if their identifiers are distinct, and
the map then has one entry for each of them, under its own identifier. -/
theorem index_yields {declSort : DeclSort} {id : α → EntityId sort} {decls : List α}
    {map : IdMap sort α} :
    (index declSort id decls).Yields map ↔
      (decls.map id).Nodup ∧ map.entries.Perm (decls.map fun decl => (id decl, decl)) := by
  rw [index, indexOnto_yields]
  simp [empty, keys]

/-- There is a map of declarations with distinct identifiers. -/
theorem exists_of_nodup {id : α → EntityId sort} {decls : List α} (h : (decls.map id).Nodup) :
    ∃ map : IdMap sort α, map.entries.Perm (decls.map fun decl => (id decl, decl)) := by
  induction decls with
  | nil => exact ⟨.empty, List.Perm.refl _⟩
  | cons decl decls ih =>
    rw [List.map_cons, List.nodup_cons] at h
    obtain ⟨map, hmap⟩ := ih h.2
    have hid : id decl ∉ map.entries.map Prod.fst := by
      rw [(hmap.map Prod.fst).mem_iff, List.map_map]
      exact h.1
    exact ⟨map.insert (id decl) decl, (perm_insertEntry hid).trans (hmap.cons _)⟩

theorem mem_keys_of_perm {id : α → EntityId sort} {decls : List α} {map : IdMap sort α}
    (h : map.entries.Perm (decls.map fun decl => (id decl, decl))) {key : EntityId sort} :
    key ∈ map.keys ↔ ∃ decl ∈ decls, id decl = key := by
  rw [keys, (h.map Prod.fst).mem_iff, List.map_map, List.mem_map]
  rfl

/-! ## Looking up -/

/-- A map has one entry for a key. -/
theorem nodup_keys (map : IdMap sort α) : map.keys.Nodup := by
  rw [keys, List.Nodup, List.pairwise_map]
  refine map.sorted.imp fun {a b} hlt heq => ?_
  rw [heq] at hlt
  exact Nat.lt_irrefl _ hlt

/-- Each value stands under its own identifier. -/
def Keyed (id : α → EntityId sort) (map : IdMap sort α) : Prop :=
  ∀ entry ∈ map.entries, id entry.2 = entry.1

variable {id : α → EntityId sort} {map : IdMap sort α}

theorem keyed_of_perm {decls : List α}
    (h : map.entries.Perm (decls.map fun decl => (id decl, decl))) : map.Keyed id := by
  intro entry hentry
  obtain ⟨decl, -, rfl⟩ := List.mem_map.1 (h.mem_iff.1 hentry)
  rfl

theorem Keyed.map_id_values (h : map.Keyed id) : map.values.map id = map.keys := by
  rw [values, keys, List.map_map]
  exact List.map_congr_left h

/-- What is found under an identifier is the value with this identifier. -/
theorem Keyed.find?_eq_some_iff (h : map.Keyed id) {key : EntityId sort} {value : α} :
    map.find? key = some value ↔ value ∈ map.values ∧ id value = key := by
  constructor
  · intro hfind
    have hentry := Lookup.mem_of_lookup hfind
    exact ⟨List.mem_map_of_mem hentry, h _ hentry⟩
  · rintro ⟨hvalue, rfl⟩
    obtain ⟨⟨key, value⟩, hentry, rfl⟩ := List.mem_map.1 hvalue
    rw [h _ hentry]
    exact Lookup.lookup_of_mem map.nodup_keys hentry

end IdMap
end BorrowIR
