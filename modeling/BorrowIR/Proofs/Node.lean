import BorrowIR.Decode.Node
import BorrowIR.Proofs.Lookup
import BorrowIR.Proofs.Outcome

/-!
# What the readers of nodes accept

Each reader of `BorrowIR.Decode` has one lemma that says which nodes it accepts, and with which
value. The lemmas speak of nodes only, not of parts with their sizes.

* `record_yields`: a record is an object with exactly the expected fields, in any order
  (`Json.IsRecord`);
* `variant_yields`, `tagOnly_yields`: a variant is a string or an object with one field;
* `components_yields`, `list_yields`, `listBelow_yields`: lists;
* `wrapped_yields`, `wrappedBelow_yields`: the one field of a variant stands in a list of one
  element or by itself (`Json.packed`), provided that the field itself is never a list.
-/

namespace BorrowIR

open Outcome

namespace Json

/-- The node is an object with these fields, in any order. -/
def IsRecord (v : Json) (fields : List (String × Json)) : Prop :=
  ∃ fs, v = .obj fs ∧ fs.Perm fields

/-- The node is a number without sign, point and exponent that denotes `n`, in 64 bits. -/
def IsNumeral (v : Json) (n : Nat) : Prop :=
  ∃ text, v = .num text ∧ Decimal.value? text.toList = some n ∧ n < Decode.naturalBound

/-- A variant with a payload. -/
def tagged (tag : String) (payload : Json) : Json := .obj [(tag, payload)]

/-- The payload of a variant with one field: the field in a list of its own, or bare. -/
def packed (own : Bool) (field : Json) : Json := if own then .arr [field] else field

theorem IsRecord.sizeOf_lt {v part : Json} {fields : List (String × Json)} (h : v.IsRecord fields)
    (hpart : part ∈ fields.map Prod.snd) : sizeOf part < sizeOf v := by
  obtain ⟨fs, rfl, hperm⟩ := h
  obtain ⟨field, hfield, rfl⟩ := List.mem_map.1 hpart
  exact sizeOf_lt_of_mem_obj (hperm.mem_iff.2 hfield)

/-- The fields of a record are found by their keys. -/
theorem IsRecord.field?_eq {v part : Json} {fields : List (String × Json)} {key : String}
    (h : v.IsRecord fields) (hnodup : (fields.map Prod.fst).Nodup) (hpart : (key, part) ∈ fields) :
    v.field? key = some part := by
  obtain ⟨fs, rfl, hperm⟩ := h
  refine Lookup.lookup_of_mem ?_ (hperm.mem_iff.2 hpart)
  rwa [(hperm.map Prod.fst).nodup_iff]

/-- A record has one list of fields for the keys in one order. -/
theorem IsRecord.unique {v : Json} {fields fields' : List (String × Json)} (h : v.IsRecord fields)
    (h' : v.IsRecord fields') (hkeys : fields.map Prod.fst = fields'.map Prod.fst)
    (hnodup : (fields.map Prod.fst).Nodup) : fields = fields' := by
  obtain ⟨fs, rfl, hperm⟩ := h
  obtain ⟨fs', heq, hperm'⟩ := h'
  cases heq
  exact Lookup.eq_of_perm_of_keys (hperm.symm.trans hperm') hkeys hnodup

theorem sizeOf_lt_tagged (tag : String) (payload : Json) :
    sizeOf payload < sizeOf (tagged tag payload) :=
  sizeOf_lt_of_mem_obj List.mem_cons_self

/-- A field is not larger than the payload that it stands in. -/
theorem sizeOf_le_packed (own : Bool) (field : Json) :
    sizeOf field ≤ sizeOf (packed own field) := by
  cases own with
  | false => exact Nat.le_refl _
  | true => exact Nat.le_of_lt (sizeOf_lt_of_mem_arr List.mem_cons_self)

theorem sizeOf_lt_tagged_packed (tag : String) (own : Bool) (field : Json) :
    sizeOf field < sizeOf (tagged tag (packed own field)) :=
  Nat.lt_of_le_of_lt (sizeOf_le_packed own field) (sizeOf_lt_tagged tag _)

theorem sizeOf_lt_tagged_arr (tag : String) {elems : List Json} {elem : Json}
    (h : elem ∈ elems) : sizeOf elem < sizeOf (tagged tag (.arr elems)) :=
  Nat.lt_trans (sizeOf_lt_of_mem_arr h) (sizeOf_lt_tagged tag _)

/-! ## Parts of a node -/

variable {v : Json}

theorem tag?_eq_some {tag : String} : v.tag? = some tag ↔ v = .str tag := by
  cases v <;> simp [tag?]

/-- The elements of a list are its parts, with their sizes. -/
theorem elements?_eq_some {parts : List v.Part} :
    v.elements? = some parts ↔ v = .arr (parts.map Subtype.val) := by
  cases v with
  | arr elems =>
    simp only [elements?, Option.some.injEq, Json.arr.injEq]
    rw [← (List.map_injective_iff.2 Subtype.val_injective).eq_iff, List.map_map]
    simp only [Function.comp_def, List.attach_map_subtype_val]
  | _ => simp [elements?]

/-- A field without the size of its value. -/
def bareField (field : String × v.Part) : String × Json := (field.1, field.2.1)

theorem bareField_injective : Function.Injective (bareField (v := v)) := by
  rintro ⟨key, part⟩ ⟨key', part'⟩ h
  simp only [bareField, Prod.mk.injEq] at h
  exact Prod.ext h.1 (Subtype.ext h.2)

/-- The fields of an object are its parts, with their keys and sizes. -/
theorem fields?_eq_some {fields : List (String × v.Part)} :
    v.fields? = some fields ↔ v = .obj (fields.map bareField) := by
  cases v with
  | obj fs =>
    simp only [fields?, Option.some.injEq, Json.obj.injEq]
    rw [← (List.map_injective_iff.2 bareField_injective).eq_iff, List.map_map]
    simp only [Function.comp_def, bareField, Prod.eta, List.attach_map_subtype_val]
  | _ => simp [fields?]

namespace Parts

theorem length_toList : ∀ {n : Nat} (parts : v.Parts n), (toList n parts).length = n
  | 0, _ => rfl
  | 1, _ => rfl
  | n + 2, (_, rest) => by simp [toList, length_toList rest]

/-- So many parts are a list of this length. -/
theorem ofList?_eq_some : ∀ {n : Nat} {list : List v.Part} {parts : v.Parts n},
    ofList? n list = some parts ↔ list.map Subtype.val = toList n parts
  | 0, [], _ => by simp [ofList?, toList]
  | 0, _ :: _, _ => by simp [ofList?, toList]
  | 1, [], _ => by simp [ofList?, toList]
  | 1, [part], parts => by simp [ofList?, toList, Subtype.ext_iff]
  | 1, _ :: _ :: _, _ => by simp [ofList?, toList]
  | n + 2, [], _ => by simp [ofList?, toList]
  | n + 2, part :: list, (first, rest) => by
    simp only [ofList?, Option.map_eq_some_iff, Prod.mk.injEq, ofList?_eq_some, toList,
      List.map_cons, List.cons.injEq, Subtype.ext_iff]
    constructor
    · rintro ⟨rest', hrest, hfirst, rfl⟩; exact ⟨hfirst, hrest⟩
    · rintro ⟨hfirst, hrest⟩; exact ⟨rest, hrest, hfirst, rfl⟩

/-- Parts are the parts of a list. -/
theorem exists_ofList? : ∀ {n : Nat} (parts : v.Parts n), ∃ list, ofList? n list = some parts
  | 0, _ => ⟨[], rfl⟩
  | 1, part => ⟨[part], rfl⟩
  | n + 2, (first, rest) => by
    obtain ⟨list, hlist⟩ := exists_ofList? rest
    exact ⟨first :: list, by simp [ofList?, hlist]⟩

end Parts

end Json

namespace Decode

variable {α β : Type}

/-! ## Leaves -/

theorem bool_yields {v : Json} {b : Bool} : (bool v).Yields b ↔ v = .bool b := by
  cases v <;> simp [bool, mismatch, yields_fail]

theorem string_yields {v : Json} {s : String} : (string v).Yields s ↔ v = .str s := by
  cases v <;> simp [string, mismatch, yields_fail]

/-- A number is read from a numeral below the bound, and from nothing else. -/
theorem natural_yields {v : Json} {n : Nat} : (natural v).Yields n ↔ v.IsNumeral n := by
  cases v with
  | num text =>
    simp only [natural, Json.IsNumeral, Json.num.injEq, exists_eq_left']
    cases h : Decimal.value? text.toList with
    | none => simp [mismatch, yields_fail]
    | some m =>
      -- the digits have a value, which may be too large
      by_cases hm : m < naturalBound
      · simp only [hm, if_true, yields_pure, Option.some.injEq]
        constructor
        · rintro rfl; exact ⟨rfl, hm⟩
        · exact fun h => h.1
      · simp only [hm, if_false, mismatch, yields_fail, Option.some.injEq, false_iff, not_and]
        rintro rfl; exact hm
  | _ => simp [natural, mismatch, yields_fail, Json.IsNumeral]

/-- An identifier is read from its number. -/
theorem entityId_yields {sort : Entity} {v : Json} {id : EntityId sort} :
    (entityId v).Yields id ↔ v.IsNumeral id.index := by
  simp only [entityId, yields_within, yields_bind, yields_pure, natural_yields]
  constructor
  · rintro ⟨n, hn, rfl⟩; exact hn
  · intro h; exact ⟨id.index, h, rfl⟩

theorem entityId_arr {sort : Entity} (elems : List Json) (id : EntityId sort) :
    ¬ (entityId (.arr elems)).Yields id := by
  rw [entityId_yields]
  rintro ⟨text, h, -⟩
  cases h

/-- Null is what is absent, and everything else is what is there. -/
theorem optional_yields {decode : Json → Outcome α} {v : Json} {o : Option α} :
    (optional decode v).Yields o ↔
      (v = .null ∧ o = none) ∨ (v ≠ .null ∧ ∃ a, o = some a ∧ (decode v).Yields a) := by
  cases v with
  | null => simp [optional, eq_comm]
  | _ => simp [optional, yields_map, and_comm, eq_comm]

/-! ## Lists -/

theorem each_yields {v : Json} {decode : (part : Json) → sizeOf part < sizeOf v → Outcome α} :
    ∀ {parts : List v.Part} {as : List α},
      (each decode parts).Yields as ↔
        List.Forall₂ (fun part a => (decode part.1 part.2).Yields a) parts as
  | [], as => by simp [each, eq_comm]
  | part :: parts, as => by
    simp only [each, yields_bind, yields_pure, each_yields, List.forall₂_cons_left_iff]
    constructor
    · rintro ⟨a, ha, rest, hrest, rfl⟩; exact ⟨a, rest, ha, hrest, rfl⟩
    · rintro ⟨a, rest, ha, hrest, rfl⟩; exact ⟨a, ha, rest, hrest, rfl⟩

/-- A list is read from its elements, each of which is smaller than the list. -/
theorem listBelow_yields {v : Json}
    {decode : (part : Json) → sizeOf part < sizeOf v → Outcome α} {as : List α} :
    (listBelow v decode).Yields as ↔
      ∃ vs, v = .arr vs ∧
        List.Forall₂ (fun part a => ∃ h, (decode part h).Yields a) vs as := by
  unfold listBelow
  cases h : v.elements? with
  | none =>
    simp only [mismatch, yields_fail, false_iff]
    rintro ⟨vs, rfl, -⟩
    simp [Json.elements?] at h
  | some parts =>
    rw [Json.elements?_eq_some] at h
    simp only [each_yields]
    constructor
    · intro hall
      refine ⟨_, h, ?_⟩
      rw [List.forall₂_map_left_iff]
      exact hall.imp fun part a ha => ⟨part.2, ha⟩
    · rintro ⟨vs, hvs, hall⟩
      rw [h, Json.arr.injEq] at hvs
      subst hvs
      rw [List.forall₂_map_left_iff] at hall
      exact hall.imp fun part a ⟨_, ha⟩ => ha

/-- To decode a list it is enough to decode the elements, whatever their sizes. -/
theorem listBelow_of_forall₂ {vs : List Json}
    {decode : (part : Json) → sizeOf part < sizeOf (Json.arr vs) → Outcome α} {as : List α}
    {Accepts : Json → α → Prop} (hall : List.Forall₂ Accepts vs as)
    (hdecode : ∀ part h a, Accepts part a → (decode part h).Yields a) :
    (listBelow (.arr vs) decode).Yields as := by
  refine listBelow_yields.2 ⟨vs, rfl, List.forall₂_iff_zip.2 ⟨hall.length_eq, ?_⟩⟩
  intro part a hmem
  have hlt := Json.sizeOf_lt_of_mem_arr (List.of_mem_zip hmem).1
  exact ⟨hlt, hdecode part hlt a ((List.forall₂_iff_zip.1 hall).2 hmem)⟩

theorem list_yields {decode : Json → Outcome α} {v : Json} {as : List α} :
    (list decode v).Yields as ↔
      ∃ vs, v = .arr vs ∧ List.Forall₂ (fun part a => (decode part).Yields a) vs as := by
  unfold list
  constructor
  · intro h
    obtain ⟨vs, hvs, hall⟩ := listBelow_yields.1 h
    exact ⟨vs, hvs, hall.imp fun part a ⟨_, ha⟩ => ha⟩
  · rintro ⟨vs, rfl, hall⟩
    exact listBelow_of_forall₂ hall fun part _ a ha => ha

theorem listBelow_const {decode : Json → Outcome α} {v : Json} :
    (listBelow v fun part _ => decode part) = list decode v := rfl

/-- So many components are a list of exactly this length. -/
theorem components_yields {n : Nat} {v : Json} {parts : v.Parts n} :
    (components n v).Yields parts ↔ v = .arr (Json.Parts.toList n parts) := by
  have hiff : v.elements?.bind (Json.Parts.ofList? n) = some parts ↔
      v = .arr (Json.Parts.toList n parts) := by
    simp only [Option.bind_eq_some_iff, Json.elements?_eq_some, Json.Parts.ofList?_eq_some]
    constructor
    · rintro ⟨list, hv, hlist⟩
      rw [← hlist]; exact hv
    · intro hv
      obtain ⟨list, hlist⟩ := Json.Parts.exists_ofList? parts
      rw [Json.Parts.ofList?_eq_some] at hlist
      exact ⟨list, by rw [hlist]; exact hv, hlist⟩
  rw [← hiff]
  unfold components
  cases v.elements?.bind (Json.Parts.ofList? n) <;> simp [mismatch, yields_fail]

theorem components_bind {n : Nat} {v : Json} (parts : v.Parts n)
    (hv : v = .arr (Json.Parts.toList n parts)) {next : v.Parts n → Outcome α} {a : α} :
    (components n v >>= next).Yields a ↔ (next parts).Yields a :=
  yields_bind_of (components_yields.2 hv)

theorem components_two {x y : Json} {next : (Json.arr [x, y]).Parts 2 → Outcome α} {a : α} :
    (components 2 (.arr [x, y]) >>= next).Yields a ↔
      (next (⟨x, Json.sizeOf_lt_of_mem_arr (by simp)⟩,
        ⟨y, Json.sizeOf_lt_of_mem_arr (by simp)⟩)).Yields a :=
  components_bind (n := 2) (v := .arr [x, y]) (⟨x, _⟩, ⟨y, _⟩) rfl

theorem components_three {x y z : Json} {next : (Json.arr [x, y, z]).Parts 3 → Outcome α}
    {a : α} :
    (components 3 (.arr [x, y, z]) >>= next).Yields a ↔
      (next (⟨x, Json.sizeOf_lt_of_mem_arr (by simp)⟩, ⟨y, Json.sizeOf_lt_of_mem_arr (by simp)⟩,
        ⟨z, Json.sizeOf_lt_of_mem_arr (by simp)⟩)).Yields a :=
  components_bind (n := 3) (v := .arr [x, y, z]) (⟨x, _⟩, ⟨y, _⟩, ⟨z, _⟩) rfl

theorem components_four {w x y z : Json} {next : (Json.arr [w, x, y, z]).Parts 4 → Outcome α}
    {a : α} :
    (components 4 (.arr [w, x, y, z]) >>= next).Yields a ↔
      (next (⟨w, Json.sizeOf_lt_of_mem_arr (by simp)⟩, ⟨x, Json.sizeOf_lt_of_mem_arr (by simp)⟩,
        ⟨y, Json.sizeOf_lt_of_mem_arr (by simp)⟩,
        ⟨z, Json.sizeOf_lt_of_mem_arr (by simp)⟩)).Yields a :=
  components_bind (n := 4) (v := .arr [w, x, y, z]) (⟨w, _⟩, ⟨x, _⟩, ⟨y, _⟩, ⟨z, _⟩) rfl

/-! ## Records and variants -/

/-- A record is an object with exactly these keys, in any order. -/
theorem record_yields {keys : List String} (hkeys : keys.Nodup) {v : Json}
    {parts : v.Parts keys.length} :
    (record keys v).Yields parts ↔ v.IsRecord (keys.zip (Json.Parts.toList _ parts)) := by
  obtain ⟨list, hlist⟩ := Json.Parts.exists_ofList? parts
  rw [Json.Parts.ofList?_eq_some] at hlist
  have hlen : list.length = keys.length := by
    rw [← List.length_map (f := Subtype.val), hlist, Json.Parts.length_toList]
  have hzip : keys.zip (Json.Parts.toList _ parts) = (keys.zip list).map Json.bareField := by
    rw [← hlist, List.zip_map_right]; rfl
  rw [hzip]
  unfold record
  cases hfields : v.fields? with
  | none =>
    simp only [mismatch, yields_fail, false_iff]
    rintro ⟨fs, rfl, -⟩
    simp [Json.fields?] at hfields
  | some fields =>
    rw [Json.fields?_eq_some] at hfields
    have hrecord : v.IsRecord ((keys.zip list).map Json.bareField) ↔
        fields.Perm (keys.zip list) := by
      rw [← List.map_perm_map_iff Json.bareField_injective]
      constructor
      · rintro ⟨fs, hfs, hperm⟩; rwa [Json.obj.inj (hfields.symm.trans hfs)]
      · exact fun hperm => ⟨_, hfields, hperm⟩
    -- parts without their sizes determine the parts
    have hbind : (keys.mapM fun key => fields.lookup key).bind (Json.Parts.ofList? keys.length) =
        some parts ↔ (keys.mapM fun key => fields.lookup key) = some list := by
      simp only [Option.bind_eq_some_iff, Json.Parts.ofList?_eq_some, ← hlist]
      constructor
      · rintro ⟨list', h, heq⟩
        rwa [← List.map_injective_iff.2 Subtype.val_injective heq]
      · exact fun h => ⟨list, h, rfl⟩
    rw [hrecord, ← Lookup.lookup_all_iff_perm hkeys hlen, ← Lookup.mapM_eq_some_iff, ← hbind]
    simp only
    split
    · rename_i parts' hparts
      rw [hparts, Option.some.injEq]
      split
      · rename_i hcount
        rw [yields_pure, and_iff_left hcount]
      · rename_i hcount
        simp [mismatch, yields_fail, hcount]
    · rename_i hparts
      simp [hparts, mismatch, yields_fail]

/-- What is read behind the fields of a record is read from the fields. -/
theorem record_bind {keys : List String} (hkeys : keys.Nodup) {v : Json}
    {next : v.Parts keys.length → Outcome α} {a : α} :
    (record keys v >>= next).Yields a ↔
      ∃ parts, v.IsRecord (keys.zip (Json.Parts.toList _ parts)) ∧ (next parts).Yields a := by
  simp only [yields_bind, record_yields hkeys]

/-- A record is never a list. -/
theorem record_arr_bind {keys : List String} {elems : List Json}
    {next : (Json.arr elems).Parts keys.length → Outcome α} (a : α) :
    ¬ (record keys (.arr elems) >>= next).Yields a := by
  simp [record, Json.fields?, mismatch, yields_bind, yields_fail]

/-- A variant is a tag, or an object with the tag as its one key. -/
theorem variant_yields {v : Json} {t : Tagged v} :
    (variant v).Yields t ↔
      (v = .str t.tag ∧ t.payload = none) ∨
        ∃ payload, t.payload = some payload ∧ v = .tagged t.tag payload.1 := by
  obtain ⟨tag, payload⟩ := t
  unfold variant
  cases htag : v.tag? with
  | some s =>
    rw [Json.tag?_eq_some] at htag
    subst htag
    simp [Json.tagged, eq_comm]
  | none =>
    have hstr : ∀ s, v ≠ .str s := by
      intro s hs
      rw [← Json.tag?_eq_some, htag] at hs
      cases hs
    simp only [hstr, false_and, false_or]
    cases hfields : v.fields? with
    | none =>
      simp only [mismatch, yields_fail, false_iff]
      rintro ⟨part, -, hv⟩
      rw [hv] at hfields
      simp [Json.tagged, Json.fields?] at hfields
    | some fields =>
      rw [Json.fields?_eq_some] at hfields
      -- only an object with one field is a variant
      match fields with
      | [] => simp [mismatch, yields_fail, hfields, Json.tagged]
      | [(key, part)] =>
        simp only [yields_pure, Tagged.mk.injEq]
        constructor
        · rintro ⟨rfl, rfl⟩; exact ⟨part, rfl, hfields⟩
        · rintro ⟨part', rfl, hv⟩
          have hv := hfields.symm.trans hv
          simp only [List.map_cons, List.map_nil, Json.bareField, Json.tagged, Json.obj.injEq,
            List.cons.injEq, Prod.mk.injEq, and_true] at hv
          exact ⟨hv.1, congrArg some (Subtype.ext hv.2)⟩
      | _ :: _ :: _ => simp [mismatch, yields_fail, hfields, Json.tagged]

theorem variant_yields_none {v : Json} {tag : String} :
    (variant v).Yields ⟨tag, none⟩ ↔ v = .str tag := by
  simp [variant_yields]

theorem variant_yields_some {v : Json} {tag : String} {payload : v.Part} :
    (variant v).Yields ⟨tag, some payload⟩ ↔ v = .tagged tag payload.1 := by
  simp [variant_yields]

/-- A tag alone is read as a variant without a payload. -/
theorem variant_str_bind {tag : String} {next : Tagged (.str tag) → Outcome α} {a : α} :
    (variant (.str tag) >>= next).Yields a ↔ (next ⟨tag, none⟩).Yields a :=
  yields_bind_of (variant_yields_none.2 rfl)

/-- An object with one field is read as a variant with a payload. -/
theorem variant_tagged_bind {tag : String} {payload : Json}
    {next : Tagged (.tagged tag payload) → Outcome α} {a : α} :
    (variant (.tagged tag payload) >>= next).Yields a ↔
      (next ⟨tag, some ⟨payload, Json.sizeOf_lt_tagged tag payload⟩⟩).Yields a :=
  yields_bind_of (variant_yields_some.2 rfl)

/-- A variant is never a list. -/
theorem variant_arr_bind {elems : List Json} {next : Tagged (.arr elems) → Outcome α} (a : α) :
    ¬ (variant (.arr elems) >>= next).Yields a := by
  rw [yields_bind]
  rintro ⟨t, ht, -⟩
  rcases variant_yields.1 ht with ⟨h, -⟩ | ⟨payload, -, h⟩ <;> cases h

/-- The values of an enumeration are read from their tags. -/
theorem tagOnly_yields {noun : String} {all : List α} {tagOf : α → String}
    (hall : ∀ a, (all.find? fun b => tagOf b == tagOf a) = some a) {v : Json} {a : α} :
    (tagOnly noun all tagOf v).Yields a ↔ v = .str (tagOf a) := by
  unfold tagOnly
  simp only [yields_bind]
  constructor
  · rintro ⟨⟨tag, payload⟩, hv, h⟩
    cases payload with
    | some part => simp [yields_fail] at h
    | none =>
      rw [variant_yields_none] at hv
      cases hfind : all.find? fun b => tagOf b == tag with
      | none => simp [hfind, yields_fail] at h
      | some b =>
        simp only [hfind, yields_pure] at h
        have htag := List.find?_some hfind
        rw [beq_iff_eq] at htag
        rw [hv, ← htag, h]
  · rintro rfl
    refine ⟨⟨tagOf a, none⟩, ?_, ?_⟩
    · exact variant_yields_none.2 rfl
    · simp [hall]

/-! ## The two forms of a single field -/

/-- **One field, packed or bare.** Where the field itself is never a list, the reading that counts
is the one that succeeds. -/
theorem wrappedBelow_yields {payload : Json}
    {decode : (field : Json) → sizeOf field ≤ sizeOf payload → Outcome α}
    (hlist : ∀ elems h b, ¬ (decode (.arr elems) h).Yields b) {a : α} :
    (wrappedBelow payload decode).Yields a ↔
      ∃ own field, payload = Json.packed own field ∧ ∃ h, (decode field h).Yields a := by
  -- a payload that is read bare is no list, so the two readings exclude one another
  have hbare : ∀ h, (decode payload h).Yields a → ∀ elems, payload ≠ .arr elems := by
    rintro h ha elems rfl
    exact hlist elems h a ha
  unfold wrappedBelow
  constructor
  · intro h
    split at h
    · rename_i field hfield
      rw [Json.elements?_eq_some] at hfield
      -- of a list with one element, the reading of the element is tried first
      rcases yields_orElse.1 h with h | ⟨-, h⟩
      · exact ⟨true, field.1, hfield, _, h⟩
      · exact absurd hfield (hbare _ h _)
    · exact ⟨false, payload, rfl, _, h⟩
  · rintro ⟨own, field, hpayload, hle, ha⟩
    cases own with
    | true =>
      subst hpayload
      exact yields_orElse.2 (.inl ha)
    | false =>
      change payload = field at hpayload
      subst hpayload
      split
      · rename_i part hpart
        rw [Json.elements?_eq_some] at hpart
        exact absurd hpart (hbare _ ha _)
      · exact ha

theorem wrappedBelow_const {decode : Json → Outcome α} {payload : Json} :
    (wrappedBelow payload fun field _ => decode field) = wrapped decode payload := rfl

/-- The field of a variant is read from a payload that is the field or a list of it, if it is never
a list itself. -/
theorem wrapped_yields {decode : Json → Outcome α}
    (hlist : ∀ elems b, ¬ (decode (.arr elems)).Yields b) {payload : Json} {a : α} :
    (wrapped decode payload).Yields a ↔
      ∃ own field, payload = Json.packed own field ∧ (decode field).Yields a := by
  unfold wrapped
  rw [wrappedBelow_yields fun elems _ b => hlist elems b]
  constructor
  · rintro ⟨own, field, hpayload, -, ha⟩; exact ⟨own, field, hpayload, ha⟩
  · rintro ⟨own, field, rfl, ha⟩
    exact ⟨own, field, rfl, Json.sizeOf_le_packed own field, ha⟩

section
variable {decode : Json → Outcome α} (hlist : ∀ elems b, ¬ (decode (.arr elems)).Yields b)
include hlist

/-- What is read from a variant with one field, where the field is never a list. -/
theorem tagged_of_wrapped {v : Json} {tag : String} {payload : v.Part} {f : α → β} {b : β}
    (hv : (variant v).Yields ⟨tag, some payload⟩)
    (h : (f <$> wrapped decode payload.1).Yields b) :
    ∃ own w a, v = .tagged tag (.packed own w) ∧ (decode w).Yields a ∧ f a = b := by
  obtain ⟨a, ha, rfl⟩ := yields_map.1 h
  obtain ⟨own, w, hpayload, ha⟩ := (wrapped_yields hlist).1 ha
  rw [variant_yields_some, hpayload] at hv
  exact ⟨own, w, a, hv, ha, rfl⟩

/-- A variant with one field is read from the field, packed or bare. -/
theorem wrapped_of_tagged {own : Bool} {w : Json} {a : α} (f : α → β) (ha : (decode w).Yields a) :
    (f <$> wrapped decode (.packed own w)).Yields (f a) :=
  yields_map.2 ⟨a, (wrapped_yields hlist).2 ⟨own, w, rfl, ha⟩, rfl⟩

end

end Decode

end BorrowIR
