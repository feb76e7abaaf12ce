import BorrowIR.Proofs.Node

/-!
# What the values of outcomes satisfy

* `Outcome.Ensures o post`: if the outcome `o` is a value, the value satisfies `post`. There is one
  rule for each combinator of decoders, so that a proof goes through a decoder step by step.
* `Json.depth`: how deep the containers of a node are nested. The rules for the readers of nodes
  say how deep the parts are that a reader goes down into.
-/

namespace BorrowIR

open Decode Outcome

namespace Json

mutual
/-- How deep the containers of a node are nested. -/
def depth : Json → Nat
  | .null | .bool _ | .num _ | .str _ => 0
  | .arr elems => elemDepth elems + 1
  | .obj fields => fieldDepth fields + 1

/-- The greatest depth of some elements. -/
def elemDepth : List Json → Nat
  | [] => 0
  | v :: vs => max (depth v) (elemDepth vs)

/-- The greatest depth of some fields. -/
def fieldDepth : List (String × Json) → Nat
  | [] => 0
  | (_, v) :: fields => max (depth v) (fieldDepth fields)
end

theorem elemDepth_le {elems : List Json} {n : Nat} :
    elemDepth elems ≤ n ↔ ∀ v ∈ elems, v.depth ≤ n := by
  induction elems with
  | nil => simp [elemDepth]
  | cons v vs ih => rw [elemDepth, Nat.max_le, ih, List.forall_mem_cons]

theorem fieldDepth_le {fields : List (String × Json)} {n : Nat} :
    fieldDepth fields ≤ n ↔ ∀ field ∈ fields, field.2.depth ≤ n := by
  induction fields with
  | nil => simp [fieldDepth]
  | cons field fields ih => rw [fieldDepth, Nat.max_le, ih, List.forall_mem_cons]

theorem depth_lt_of_mem_arr {v : Json} {elems : List Json} (h : v ∈ elems) :
    v.depth < (Json.arr elems).depth := by
  have hle : v.depth ≤ elemDepth elems := elemDepth_le.1 (Nat.le_refl _) v h
  rw [depth]
  omega

theorem depth_lt_of_mem_obj {key : String} {v : Json} {fields : List (String × Json)}
    (h : (key, v) ∈ fields) : v.depth < (Json.obj fields).depth := by
  have hle : v.depth ≤ fieldDepth fields := fieldDepth_le.1 (Nat.le_refl _) _ h
  rw [depth]
  omega

/-- The value of a field is less deep than the record. -/
theorem IsRecord.depth_lt {v part : Json} {fields : List (String × Json)} (h : v.IsRecord fields)
    (hpart : part ∈ fields.map Prod.snd) : part.depth < v.depth := by
  obtain ⟨fs, rfl, hperm⟩ := h
  obtain ⟨⟨key, _⟩, hfield, rfl⟩ := List.mem_map.1 hpart
  exact depth_lt_of_mem_obj (hperm.mem_iff.2 hfield)

/-- The parts are less deep than the node. -/
@[reducible] def Parts.Shallower {v : Json} : (n : Nat) → v.Parts n → Prop
  | 0, _ => True
  | 1, part => part.1.depth < v.depth
  | n + 2, (part, rest) => part.1.depth < v.depth ∧ Shallower (n + 1) rest

/-- Parts are less deep than the node if each of them is. -/
theorem Parts.shallower_of_forall {v : Json} : ∀ {n : Nat} (parts : v.Parts n),
    (∀ part ∈ toList n parts, part.depth < v.depth) → Shallower n parts
  | 0, _, _ => trivial
  | 1, _, h => h _ (List.mem_singleton_self _)
  | _ + 2, (_, rest), h =>
    ⟨h _ List.mem_cons_self, shallower_of_forall rest fun part hpart =>
      h part (List.mem_cons_of_mem _ hpart)⟩

end Json

namespace Outcome

variable {α β : Type}

/-- **Postcondition.** The value of the outcome, if there is one, satisfies the condition. -/
def Ensures (o : Outcome α) (post : α → Prop) : Prop := ∀ a, o.Yields a → post a

namespace Ensures

variable {post : α → Prop} {o : Outcome α}

theorem mono {post' : α → Prop} (h : Ensures o post) (himp : ∀ a, post a → post' a) :
    Ensures o post' :=
  fun a ha => himp a (h a ha)

theorem and {post' : α → Prop} (h : Ensures o post) (h' : Ensures o post') :
    Ensures o fun a => post a ∧ post' a :=
  fun a ha => ⟨h a ha, h' a ha⟩

/-- What holds of all values need not be looked for in the outcome. -/
theorem always (h : ∀ a, post a) : Ensures o post := fun a _ => h a

theorem pure {a : α} (h : post a) : Ensures (pure a) post := by
  intro b hb
  rwa [← yields_pure.1 hb]

theorem fail {c : Cause} : Ensures (fail c) post := by
  intro a ha
  rw [yields_fail] at ha
  exact ha.elim

/-- What the first step ensures is known in the second one. -/
theorem bind {next : α → Outcome β} {post' : β → Prop} (h : Ensures o post)
    (hnext : ∀ a, post a → Ensures (next a) post') : Ensures (o >>= next) post' := by
  intro b hb
  obtain ⟨a, ha, hb⟩ := yields_bind.1 hb
  exact hnext a (h a ha) b hb

/-- Nothing needs to be known of the value of the first step. -/
theorem skip {next : α → Outcome β} {post' : β → Prop}
    (hnext : ∀ a, Ensures (next a) post') : Ensures (o >>= next) post' := by
  intro b hb
  obtain ⟨a, -, hb⟩ := yields_bind.1 hb
  exact hnext a b hb

theorem map {f : α → β} {post' : β → Prop} (h : Ensures o fun a => post' (f a)) :
    Ensures (f <$> o) post' := by
  intro b hb
  obtain ⟨a, ha, rfl⟩ := yields_map.1 hb
  exact h a ha

theorem within {decoder : String} (h : Ensures o post) : Ensures (within decoder o) post :=
  fun a ha => h a (yields_within.1 ha)

/-- Whichever of the two attempts succeeds, the condition holds. -/
theorem orElse {second : Outcome α} (hfirst : Ensures o post) (hsecond : Ensures second post) :
    Ensures (o.orElse second) post := by
  intro a ha
  rcases yields_orElse.1 ha with ha | ⟨-, ha⟩
  · exact hfirst a ha
  · exact hsecond a ha

/-! ### Readers of nodes -/

variable {v : Json}

theorem components {n : Nat} {next : v.Parts n → Outcome α}
    (h : ∀ parts, Json.Parts.Shallower n parts → Ensures (next parts) post) :
    Ensures (components n v >>= next) post := by
  refine bind (fun parts hparts => ?_) h
  refine Json.Parts.shallower_of_forall parts fun part hpart => ?_
  rw [components_yields] at hparts
  have hlt := Json.depth_lt_of_mem_arr hpart
  rwa [← hparts] at hlt

/-- What is read from the fields of a record is read from less deep nodes. -/
theorem record {keys : List String} (hkeys : keys.Nodup) {next : v.Parts keys.length → Outcome α}
    (h : ∀ parts, Json.Parts.Shallower keys.length parts → Ensures (next parts) post) :
    Ensures (record keys v >>= next) post := by
  refine bind (fun parts hparts => ?_) h
  refine Json.Parts.shallower_of_forall parts fun part hpart => ?_
  rw [record_yields hkeys] at hparts
  have hlen : (Json.Parts.toList _ parts).length ≤ keys.length :=
    Nat.le_of_eq (Json.Parts.length_toList parts)
  refine hparts.depth_lt ?_
  rwa [List.map_snd_zip hlen]

/-- The payload of a variant is less deep than the variant. -/
theorem variant {next : Tagged v → Outcome α}
    (h : ∀ t, (∀ part ∈ t.payload, part.1.depth < v.depth) → Ensures (next t) post) :
    Ensures (variant v >>= next) post := by
  have hpayload : Ensures (Decode.variant v) fun t =>
      ∀ part ∈ t.payload, part.1.depth < v.depth := by
    intro t ht part hpart
    rw [Option.mem_def] at hpart
    -- a tag alone has no payload that could be too deep
    rcases variant_yields.1 ht with ⟨-, hnone⟩ | ⟨payload, hsome, hv⟩
    · rw [hnone] at hpart
      cases hpart
    · rw [hsome, Option.some.injEq] at hpart
      subst hpart
      have hlt : payload.1.depth < (Json.tagged t.tag payload.1).depth :=
        Json.depth_lt_of_mem_obj List.mem_cons_self
      rwa [← hv] at hlt
  exact bind hpayload h

theorem optional {decode : Json → Outcome α} {post : Option α → Prop} (hnone : post none)
    (h : Ensures (decode v) fun a => post (some a)) : Ensures (optional decode v) post := by
  intro o ho
  rcases optional_yields.1 ho with ⟨-, rfl⟩ | ⟨-, a, rfl, ha⟩
  · exact hnone
  · exact h a ha

/-- What each element ensures holds of all elements of the list. -/
theorem listBelow {decode : (part : Json) → sizeOf part < sizeOf v → Outcome α}
    (h : ∀ part hpart, part.depth < v.depth → Ensures (decode part hpart) post) :
    Ensures (listBelow v decode) fun as => ∀ a ∈ as, post a := by
  intro as has a ha
  obtain ⟨vs, rfl, hall⟩ := listBelow_yields.1 has
  -- the element of the value and the node that it was decoded from stand at the same place
  obtain ⟨i, hi, rfl⟩ := List.getElem_of_mem ha
  have hi' : i < vs.length := by rwa [hall.length_eq]
  obtain ⟨hlt, hyields⟩ := hall.get hi' hi
  exact h _ hlt (Json.depth_lt_of_mem_arr (List.getElem_mem hi')) _ hyields

theorem list {decode : Json → Outcome α}
    (h : ∀ part, part.depth < v.depth → Ensures (decode part) post) :
    Ensures (list decode v) fun as => ∀ a ∈ as, post a :=
  listBelow fun part _ hdepth => h part hdepth

/-- Only a container is read as a list. -/
theorem list_depth {decode : Json → Outcome α} :
    Ensures (Decode.list decode v) fun _ => 0 < v.depth := by
  intro as has
  obtain ⟨vs, rfl, -⟩ := list_yields.1 has
  exact Nat.succ_pos _

/-- The one field of a variant stands in a list of its own, one level deeper, or is the payload
itself. -/
theorem wrappedBelow {decode : (field : Json) → sizeOf field ≤ sizeOf v → Outcome α}
    (h : ∀ field hfield, field.depth ≤ v.depth → Ensures (decode field hfield) post) :
    Ensures (wrappedBelow v decode) post := by
  unfold Decode.wrappedBelow
  split
  · rename_i field hfield
    have hlt : field.1.depth < v.depth := by
      rw [Json.elements?_eq_some] at hfield
      have hlt : field.1.depth < (Json.arr [field.1]).depth :=
        Json.depth_lt_of_mem_arr List.mem_cons_self
      rwa [show Json.arr [field.1] = v from hfield.symm] at hlt
    exact orElse (h field.1 _ (Nat.le_of_lt hlt)) (h v _ (Nat.le_refl _))
  · exact h v _ (Nat.le_refl _)

theorem wrapped {decode : Json → Outcome α}
    (h : ∀ field, field.depth ≤ v.depth → Ensures (decode field) post) :
    Ensures (wrapped decode v) post :=
  wrappedBelow fun field _ hdepth => h field hdepth

end Ensures

end Outcome

end BorrowIR
