import BorrowIR.Proofs.SourceWire

/-!
# The files that a document uses

A document uses a file if some span in it, at any depth, names the file.

* `Json.Uses`: the definition, and what it says of lists, records and variants;
* `Outcome.Spanless`: a decoder that accepts nothing with a span in it, with one lemma for each
  combinator of decoders.
-/

namespace BorrowIR

open Decode Outcome

namespace Json

/-- The node `part` is the other node or stands below it. -/
inductive Within (part : Json) : Json → Prop
  | refl : Within part part
  | elem {elems : List Json} {v : Json} : v ∈ elems → Within part v → Within part (.arr elems)
  | field {fields : List (String × Json)} {key : String} {v : Json} :
    (key, v) ∈ fields → Within part v → Within part (.obj fields)

/-- The node is a span, and the file that it names is this one. -/
def NamesFile (v : Json) (id : FileId) : Prop :=
  ∃ file start stop, v.IsRecord [("file_id", file), ("beg", start), ("end", stop)] ∧
    (FileId.decode file).Yields id

/-- **Use of a file.** Some span at or below the node names the file. -/
def Uses (v : Json) (id : FileId) : Prop := ∃ span, Within span v ∧ span.NamesFile id

variable {id : FileId}

/-- A span is an object with the three fields of a span. -/
theorem NamesFile.exists_obj {v : Json} (h : v.NamesFile id) :
    ∃ fields, v = .obj fields ∧ (fields.map Prod.fst).Perm ["file_id", "beg", "end"] := by
  obtain ⟨file, start, stop, ⟨fields, rfl, hperm⟩, -⟩ := h
  exact ⟨fields, rfl, hperm.map Prod.fst⟩

/-- A list is no span, so it uses what its elements use. -/
theorem uses_arr {elems : List Json} : (Json.arr elems).Uses id ↔ ∃ v ∈ elems, v.Uses id := by
  constructor
  · rintro ⟨span, hwithin, hnames⟩
    cases hwithin with
    | refl =>
      obtain ⟨fields, h, -⟩ := hnames.exists_obj
      cases h
    | elem hv hspan => exact ⟨_, hv, span, hspan, hnames⟩
  · rintro ⟨v, hv, span, hspan, hnames⟩
    exact ⟨span, .elem hv hspan, hnames⟩

/-- An object is a span itself, or it uses what the values of its fields use. -/
theorem uses_obj {fields : List (String × Json)} :
    (Json.obj fields).Uses id ↔
      (Json.obj fields).NamesFile id ∨ ∃ field ∈ fields, field.2.Uses id := by
  constructor
  · rintro ⟨span, hwithin, hnames⟩
    cases hwithin with
    | refl => exact .inl hnames
    | field hv hspan => exact .inr ⟨_, hv, span, hspan, hnames⟩
  · rintro (hnames | ⟨⟨key, v⟩, hv, span, hspan, hnames⟩)
    · exact ⟨_, .refl, hnames⟩
    · exact ⟨span, .field hv hspan, hnames⟩

/-- A node that is no object, and has no other nodes below it, uses no file. -/
theorem not_uses_leaf {v : Json} (hbelow : ∀ span, Within span v → span = v)
    (hv : ∀ fields, v ≠ .obj fields) : ¬ v.Uses id := by
  rintro ⟨span, hspan, hnames⟩
  obtain rfl := hbelow span hspan
  obtain ⟨fields, heq, -⟩ := hnames.exists_obj
  exact hv fields heq

theorem not_uses_str {s : String} : ¬ (Json.str s).Uses id :=
  not_uses_leaf (by rintro _ ⟨⟩; rfl) nofun

theorem not_uses_num {s : String} : ¬ (Json.num s).Uses id :=
  not_uses_leaf (by rintro _ ⟨⟩; rfl) nofun

theorem not_uses_bool {b : Bool} : ¬ (Json.bool b).Uses id :=
  not_uses_leaf (by rintro _ ⟨⟩; rfl) nofun

theorem not_uses_null : ¬ Json.null.Uses id :=
  not_uses_leaf (by rintro _ ⟨⟩; rfl) nofun

/-- A number uses no file. -/
theorem not_uses_numeral {v : Json} {n : Nat} (h : v.IsNumeral n) : ¬ v.Uses id := by
  obtain ⟨text, rfl, -⟩ := h
  exact not_uses_num

/-- A variant with a payload has one field, so it is no span itself. -/
theorem uses_tagged {tag : String} {payload : Json} :
    (tagged tag payload).Uses id ↔ payload.Uses id := by
  unfold tagged
  rw [uses_obj]
  constructor
  · rintro (hnames | ⟨field, hfield, h⟩)
    · obtain ⟨fields, heq, hperm⟩ := hnames.exists_obj
      cases heq
      exact absurd hperm.length_eq (by simp)
    · rw [List.mem_singleton] at hfield
      rwa [hfield] at h
  · exact fun h => .inr ⟨_, List.mem_singleton_self _, h⟩

/-- A record without a field for a file is no span itself. -/
theorem uses_record {v : Json} {fields : List (String × Json)} (h : v.IsRecord fields)
    (hkeys : "file_id" ∉ fields.map Prod.fst) :
    v.Uses id ↔ ∃ part ∈ fields.map Prod.snd, part.Uses id := by
  obtain ⟨fs, rfl, hperm⟩ := h
  rw [uses_obj]
  constructor
  -- a span has a field for its file, and a record has the same keys in every order
  · rintro (hnames | ⟨field, hfield, h⟩)
    · obtain ⟨fields', heq, hperm'⟩ := hnames.exists_obj
      cases heq
      refine absurd ((hperm.map Prod.fst).mem_iff.1 (hperm'.mem_iff.2 ?_)) hkeys
      exact List.mem_cons_self
    · exact ⟨field.2, List.mem_map_of_mem (hperm.mem_iff.1 hfield), h⟩
  · rintro ⟨part, hpart, h⟩
    obtain ⟨field, hfield, rfl⟩ := List.mem_map.1 hpart
    exact .inr ⟨field, hperm.mem_iff.2 hfield, h⟩

end Json

namespace Decode

variable {v : Json} {id : FileId}

/-- What a variant uses is what its payload uses, if it has one. -/
theorem uses_of_variant {t : Tagged v} (h : (variant v).Yields t) :
    v.Uses id ↔ ∃ part ∈ t.payload.toList.map Subtype.val, part.Uses id := by
  rcases variant_yields.1 h with ⟨hv, hpayload⟩ | ⟨payload, hpayload, hv⟩
  · have hnone : ¬ (Json.str t.tag).Uses id := Json.not_uses_str
    rw [← hv] at hnone
    simp [hpayload, hnone]
  · have hsome : (Json.tagged t.tag payload.1).Uses id ↔ payload.1.Uses id := Json.uses_tagged
    rw [← hv] at hsome
    simp [hpayload, hsome]

theorem uses_of_components {n : Nat} {p : v.Parts n} (h : (components n v).Yields p) :
    v.Uses id ↔ ∃ part ∈ Json.Parts.toList n p, part.Uses id := by
  have hparts : (Json.arr (Json.Parts.toList n p)).Uses id ↔ _ := Json.uses_arr
  rwa [← components_yields.1 h] at hparts

/-- What a record uses is what its fields use, if none of them is for a file. -/
theorem uses_of_record {keys : List String} (hkeys : keys.Nodup) (hfile : "file_id" ∉ keys)
    {p : v.Parts keys.length} (h : (record keys v).Yields p) :
    v.Uses id ↔ ∃ part ∈ Json.Parts.toList keys.length p, part.Uses id := by
  rw [record_yields hkeys] at h
  have hlen := Json.Parts.length_toList p
  have hfst : (keys.zip (Json.Parts.toList keys.length p)).map Prod.fst = keys :=
    List.map_fst_zip (Nat.le_of_eq hlen.symm)
  have hsnd : (keys.zip (Json.Parts.toList keys.length p)).map Prod.snd =
      Json.Parts.toList keys.length p :=
    List.map_snd_zip (Nat.le_of_eq hlen)
  rw [Json.uses_record h (by rwa [hfst]), hsnd]

end Decode

namespace Outcome

variable {α β : Type}

/-- **No spans.** Where the outcome is a value, there is no span in the nodes that it was decoded
from. -/
def Spanless (parts : List Json) (o : Outcome α) : Prop :=
  ∀ a, o.Yields a → ∀ part ∈ parts, ∀ id, ¬ part.Uses id

namespace Spanless

variable {part v : Json} {parts : List Json}

/-- For a single node it is enough that its value makes it use no file. -/
theorem singleton {o : Outcome α} (h : ∀ a, o.Yields a → ∀ id, ¬ v.Uses id) : Spanless [v] o := by
  intro a ha part hpart id
  rw [List.mem_singleton] at hpart
  rw [hpart]
  exact h a ha id

theorem not_uses {o : Outcome α} {a : α} (h : Spanless [v] o) (ha : o.Yields a) (id : FileId) :
    ¬ v.Uses id :=
  h a ha v (List.mem_singleton_self v) id

theorem nil {o : Outcome α} : Spanless [] o := by
  intro a _ part hpart
  cases hpart

theorem fail {c : Cause} : Spanless parts (fail c : Outcome α) := by
  intro a ha
  rw [yields_fail] at ha
  exact ha.elim

theorem within {decoder : String} {o : Outcome α} (h : Spanless parts o) :
    Spanless parts (within decoder o) :=
  fun a ha => h a (yields_within.1 ha)

theorem map {o : Outcome α} {f : α → β} (h : Spanless parts o) : Spanless parts (f <$> o) := by
  intro b hb
  obtain ⟨a, ha, -⟩ := yields_map.1 hb
  exact h a ha

/-- The first step is for the first node, the next steps are for the others. -/
theorem bind {o : Outcome α} {next : α → Outcome β} (h : Spanless [part] o)
    (hnext : ∀ a, Spanless parts (next a)) : Spanless (part :: parts) (o >>= next) := by
  intro b hb
  obtain ⟨a, ha, hb⟩ := yields_bind.1 hb
  exact List.forall_mem_cons.2 ⟨h.not_uses ha, hnext a b hb⟩

/-- The last step, and what is done with its value. -/
theorem last {o : Outcome α} {f : α → β} (h : Spanless [part] o) :
    Spanless [part] (do return f (← o)) :=
  bind h fun _ => nil

/-! ### Readers of nodes -/

theorem natural : Spanless [v] (natural v) :=
  singleton fun _ hn _ => Json.not_uses_numeral (natural_yields.1 hn)

/-- An identifier is a number, and a number uses no file. -/
theorem entityId {sort : Entity} : Spanless [v] (Decode.entityId v : Outcome (EntityId sort)) :=
  singleton fun _ hid _ => Json.not_uses_numeral (entityId_yields.1 hid)

theorem string : Spanless [v] (string v) := by
  refine singleton fun s hs id => ?_
  rw [string_yields] at hs
  rw [hs]
  exact Json.not_uses_str

theorem bool : Spanless [v] (bool v) := by
  refine singleton fun b hb id => ?_
  rw [bool_yields] at hb
  rw [hb]
  exact Json.not_uses_bool

/-- What is read from the parts of a node is read from the node. -/
theorem reader {o : Outcome β} {below : β → List Json} {next : β → Outcome α}
    (huses : ∀ b, o.Yields b → ∀ id, v.Uses id ↔ ∃ part ∈ below b, part.Uses id)
    (h : ∀ b, Spanless (below b) (next b)) : Spanless [v] (o >>= next) := by
  refine singleton fun a ha id hv => ?_
  obtain ⟨b, hb, ha⟩ := yields_bind.1 ha
  obtain ⟨part, hpart, huse⟩ := (huses b hb id).1 hv
  exact h b a ha part hpart id huse

/-- A tag is no span, so the payload is all there is to look at. -/
theorem variant {next : Tagged v → Outcome α}
    (h : ∀ t, Spanless (t.payload.toList.map Subtype.val) (next t)) :
    Spanless [v] (Decode.variant v >>= next) :=
  reader (fun _ ht _ => uses_of_variant ht) h

theorem tagOnly {noun : String} {all : List α} {tagOf : α → String} :
    Spanless [v] (tagOnly noun all tagOf v) := by
  unfold Decode.tagOnly
  refine variant fun t => ?_
  split
  · exact nil
  · exact fail

theorem components {n : Nat} {next : v.Parts n → Outcome α}
    (h : ∀ p, Spanless (Json.Parts.toList n p) (next p)) :
    Spanless [v] (Decode.components n v >>= next) :=
  reader (fun _ hp _ => uses_of_components hp) h

theorem record {keys : List String} (hkeys : keys.Nodup) (hfile : "file_id" ∉ keys)
    {next : v.Parts keys.length → Outcome α}
    (h : ∀ p, Spanless (Json.Parts.toList keys.length p) (next p)) :
    Spanless [v] (Decode.record keys v >>= next) :=
  reader (fun _ hp _ => uses_of_record hkeys hfile hp) h

theorem listBelow {decode : (part : Json) → sizeOf part < sizeOf v → Outcome α}
    (h : ∀ part hpart, Spanless [part] (decode part hpart)) :
    Spanless [v] (listBelow v decode) := by
  refine singleton fun as has id => ?_
  obtain ⟨vs, rfl, hall⟩ := listBelow_yields.1 has
  rw [Json.uses_arr]
  rintro ⟨part, hpart, huses⟩
  -- a node of the list was decoded to the element at the same place
  obtain ⟨i, hi, rfl⟩ := List.getElem_of_mem hpart
  obtain ⟨hlt, ha⟩ := hall.get hi (by rwa [← hall.length_eq])
  exact (h _ hlt).not_uses ha id huses

theorem list {decode : Json → Outcome α} (h : ∀ part, Spanless [part] (decode part)) :
    Spanless [v] (list decode v) :=
  listBelow fun part _ => h part

/-- What is absent uses no file. -/
theorem optional {decode : Json → Outcome α} (h : Spanless [v] (decode v)) :
    Spanless [v] (optional decode v) := by
  refine singleton fun o ho id => ?_
  rcases optional_yields.1 ho with ⟨rfl, -⟩ | ⟨-, a, -, ha⟩
  · exact Json.not_uses_null
  · exact h.not_uses ha id

/-- Either reading of a payload tells of all files that the payload uses. -/
theorem wrappedBelow {decode : (field : Json) → sizeOf field ≤ sizeOf v → Outcome α}
    (h : ∀ field hfield, Spanless [field] (decode field hfield)) :
    Spanless [v] (wrappedBelow v decode) := by
  refine singleton fun a ha id => ?_
  unfold Decode.wrappedBelow at ha
  split at ha
  · rename_i field hfield
    rw [Json.elements?_eq_some] at hfield
    -- in the first reading the list around the field uses what the field uses
    rcases yields_orElse.1 ha with ha | ⟨-, ha⟩
    · rw [hfield, Json.uses_arr]
      simpa using (h field.1 _).not_uses ha id
    · exact (h v _).not_uses ha id
  · exact (h v _).not_uses ha id

theorem wrapped {decode : Json → Outcome α} (h : ∀ field, Spanless [field] (decode field)) :
    Spanless [v] (wrapped decode v) :=
  wrappedBelow fun field _ => h field

end Spanless

end Outcome

end BorrowIR
