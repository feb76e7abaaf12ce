import Mathlib.Data.List.Forall2
import Mathlib.Data.List.Nodup
import Mathlib.Data.List.Perm.Basic

/-!
# Association lists without repeated keys

* `mem_of_lookup`, `lookup_of_mem`: in a list without repeated keys, looking up a key finds its
  entry and nothing else; `find?_of_nodup` is the same for elements that know their keys.
* `lookup_all_iff_perm`: a list in which every key of `keys` is found, and that is no longer than
  `keys`, is the list of these keys with their values, in some order.
-/

namespace BorrowIR.Lookup

/-- A partial function succeeds on a list with the values that it has on the elements. -/
theorem mapM_eq_some_iff {γ δ : Type} {f : γ → Option δ} :
    ∀ {cs : List γ} {ds : List δ},
      cs.mapM f = some ds ↔ List.Forall₂ (fun c d => f c = some d) cs ds
  | [], ds => by simp [eq_comm]
  | c :: cs, ds => by
    simp only [List.mapM_cons, Option.bind_eq_bind, Option.pure_def, Option.bind_eq_some_iff,
      Option.some.injEq, mapM_eq_some_iff, List.forall₂_cons_left_iff]
    constructor
    · rintro ⟨d, hd, rest, hrest, rfl⟩; exact ⟨d, rest, hd, hrest, rfl⟩
    · rintro ⟨d, rest, hd, hrest, rfl⟩; exact ⟨d, hd, rest, hrest, rfl⟩

variable {α β : Type} [BEq α] [LawfulBEq α]

theorem mem_of_lookup {a : α} {b : β} {entries : List (α × β)} (h : entries.lookup a = some b) :
    (a, b) ∈ entries := by
  obtain ⟨l₁, l₂, rfl, -⟩ := List.lookup_eq_some_iff.1 h
  simp

theorem lookup_of_mem {a : α} {b : β} :
    ∀ {entries : List (α × β)}, (entries.map Prod.fst).Nodup → (a, b) ∈ entries →
      entries.lookup a = some b
  | [], _, h => by simp at h
  | (a', b') :: entries, hnodup, h => by
    rw [List.map_cons, List.nodup_cons] at hnodup
    rcases List.mem_cons.1 h with h | h
    · cases h; simp
    -- the key comes later, so it is not the first one
    · have hne : a ≠ a' := fun e => hnodup.1 (List.mem_map.2 ⟨_, h, e⟩)
      rw [List.lookup_cons, beq_false_of_ne hne]
      exact lookup_of_mem hnodup.2 h

/-- The first element with a key is the element with this key, if keys are not repeated. -/
theorem find?_of_nodup {γ : Type} {key : γ → α} :
    ∀ {cs : List γ}, (cs.map key).Nodup → ∀ {c : γ}, c ∈ cs →
      (cs.find? fun c' => key c' == key c) = some c
  | c' :: cs, hnodup, c, hc => by
    obtain ⟨hc', hnodup⟩ := List.nodup_cons.1 hnodup
    rcases List.mem_cons.1 hc with rfl | hc
    · exact List.find?_cons_of_pos (beq_self_eq_true _)
    -- the element comes later, so its key is not that of the first one
    · have hne : key c' ≠ key c := fun heq => hc' (heq ▸ List.mem_map_of_mem hc)
      rw [List.find?_cons_of_neg (by simpa using hne)]
      exact find?_of_nodup hnodup hc

omit [BEq α] [LawfulBEq α] in
/-- Entries are in one order if their keys are. -/
theorem eq_of_perm_of_keys :
    ∀ {entries entries' : List (α × β)}, entries.Perm entries' →
      entries.map Prod.fst = entries'.map Prod.fst → (entries.map Prod.fst).Nodup →
      entries = entries'
  | [], _, hperm, _, _ => hperm.nil_eq
  | _ :: _, [], hperm, _, _ => hperm.eq_nil
  | (a, b) :: entries, (a', b') :: entries', hperm, hkeys, hnodup => by
    obtain ⟨rfl, hrest⟩ : a = a' ∧ entries.map Prod.fst = entries'.map Prod.fst :=
      List.cons.inj hkeys
    obtain ⟨ha, hnodup⟩ := List.nodup_cons.1 hnodup
    have hb : b = b' := by
      rcases List.mem_cons.1 (hperm.mem_iff.1 List.mem_cons_self) with heq | hmem
      · exact congrArg Prod.snd heq
      -- the key is not there again
      · rw [hrest] at ha
        exact absurd (List.mem_map_of_mem hmem) ha
    subst hb
    rw [eq_of_perm_of_keys hperm.cons_inv hrest hnodup]

/-- **Finding every key.** A list that is as long as `keys` and in which every one of them is found
holds just these keys, each with its value. -/
theorem lookup_all_iff_perm {entries : List (α × β)} {keys : List α} (hkeys : keys.Nodup)
    {values : List β} (hlen : values.length = keys.length) :
    (List.Forall₂ (fun key value => entries.lookup key = some value) keys values ∧
        entries.length = keys.length) ↔ entries.Perm (keys.zip values) := by
  have hfst := List.map_fst_zip (Nat.le_of_eq hlen.symm)
  constructor
  · rintro ⟨hall, hcount⟩
    have hnodup : (keys.zip values).Nodup := by
      apply List.Nodup.of_map Prod.fst
      rwa [hfst]
    -- every key is found with its value, and there is no room for more entries
    have hsub : ∀ entry ∈ keys.zip values, entry ∈ entries := fun entry hentry =>
      mem_of_lookup ((List.forall₂_iff_zip.1 hall).2 hentry)
    have hle : entries.length ≤ (keys.zip values).length := by
      rw [List.length_zip]
      omega
    exact ((List.subperm_of_subset hnodup hsub).perm_of_length_le hle).symm
  · intro hperm
    have hcount : entries.length = keys.length := by
      rw [hperm.length_eq, List.length_zip]
      omega
    refine ⟨List.forall₂_iff_zip.2 ⟨hlen.symm, fun hentry => ?_⟩, hcount⟩
    apply lookup_of_mem _ (hperm.mem_iff.2 hentry)
    rw [(hperm.map Prod.fst).nodup_iff, hfst]
    exact hkeys

end BorrowIR.Lookup
