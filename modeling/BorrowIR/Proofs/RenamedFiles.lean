import BorrowIR.Proofs.Readings

/-!
# Nodes with renamed files

Two nodes differ in the files that their spans name, and one decoder is run on both of them, each
time with a table for the node.

* `Json.Renamed`: the second node is the first one with its files renamed;
* `Json.Renamed.eq_of_not_uses`: a node without spans stays as it is;
* `Outcome.Repeats`: the second run has the value of the first one, with one lemma for each
  combinator of decoders.
-/

namespace BorrowIR

open Decode Outcome

/-- What is related to the elements of a list in two ways is related with each other. -/
theorem forall₂_of_related {α β γ : Type} {R : α → β → Prop} {S : α → γ → Prop}
    {T : β → γ → Prop} : ∀ {as : List α} {bs : List β} {cs : List γ}, List.Forall₂ R as bs →
      List.Forall₂ S as cs → (∀ a ∈ as, ∀ b c, R a b → S a c → T b c) → List.Forall₂ T bs cs
  | _, _, _, .nil, .nil, _ => .nil
  | _, _, _, .cons hR hRs, .cons hS hSs, h => by
    obtain ⟨hhead, htail⟩ := List.forall_mem_cons.1 h
    exact .cons (hhead _ _ hR hS) (forall₂_of_related hRs hSs htail)

namespace Json

/-- **Renamed files.** The second node is the first one, but where a span of the first node names a
file, the span of the second node names the file that `ρ` gives for it. -/
inductive Renamed (ρ : FileId → FileId) : Json → Json → Prop
  | null : Renamed ρ .null .null
  | bool (b : Bool) : Renamed ρ (.bool b) (.bool b)
  | num (text : String) : Renamed ρ (.num text) (.num text)
  | str (s : String) : Renamed ρ (.str s) (.str s)
  | arr {vs vs' : List Json} : List.Forall₂ (Renamed ρ) vs vs' → Renamed ρ (.arr vs) (.arr vs')
  | span {v v' file file' start stop : Json} {id : FileId} :
    v.IsRecord [("file_id", file), ("beg", start), ("end", stop)] →
      v'.IsRecord [("file_id", file'), ("beg", start), ("end", stop)] →
      (FileId.decode file).Yields id → (FileId.decode file').Yields (ρ id) → Renamed ρ v v'
  | obj {fields fields' : List (String × Json)} : (∀ id, ¬ (Json.obj fields).NamesFile id) →
    fields.map Prod.fst = fields'.map Prod.fst →
      List.Forall₂ (Renamed ρ) (fields.map Prod.snd) (fields'.map Prod.snd) →
      Renamed ρ (.obj fields) (.obj fields')

variable {ρ : FileId → FileId} {v v' : Json}

namespace Renamed

/-! ## What the second node is like -/

/-- What is absent stays absent. -/
theorem of_null (h : Renamed ρ .null v') : v' = .null := by
  cases h with
  | null => rfl
  | span hv => obtain ⟨fs, hfs, -⟩ := hv; cases hfs

theorem of_str {s : String} (h : Renamed ρ (.str s) v') : v' = .str s := by
  cases h with
  | str => rfl
  | span hv => obtain ⟨fs, hfs, -⟩ := hv; cases hfs

/-- A list is renamed element by element. -/
theorem of_arr {vs : List Json} (h : Renamed ρ (.arr vs) v') :
    ∃ vs', v' = .arr vs' ∧ List.Forall₂ (Renamed ρ) vs vs' := by
  cases h with
  | arr h => exact ⟨_, rfl, h⟩
  | span hv => obtain ⟨fs, hfs, -⟩ := hv; cases hfs

/-- What is there stays there. -/
theorem ne_null (h : Renamed ρ v v') (hv : v ≠ .null) : v' ≠ .null := by
  rintro rfl
  cases h with
  | null => exact hv rfl
  | span _ hv' => obtain ⟨fs, hfs, -⟩ := hv'; cases hfs

/-- A field with the same key and the renamed node. -/
def Field (ρ : FileId → FileId) (field field' : String × Json) : Prop :=
  field.1 = field'.1 ∧ Renamed ρ field.2 field'.2

theorem forall₂_field : ∀ {fields fields' : List (String × Json)},
    fields.map Prod.fst = fields'.map Prod.fst →
      List.Forall₂ (Renamed ρ) (fields.map Prod.snd) (fields'.map Prod.snd) →
      List.Forall₂ (Field ρ) fields fields'
  | [], [], _, _ => .nil
  | [], _ :: _, hkeys, _ => nomatch hkeys
  | _ :: _, [], hkeys, _ => nomatch hkeys
  | _ :: _, _ :: _, hkeys, h => by
    obtain ⟨hkey, hkeys⟩ := List.cons.inj hkeys
    cases h with
    | cons hfield h => exact .cons ⟨hkey, hfield⟩ (forall₂_field hkeys h)

theorem of_forall₂_field {fields fields' : List (String × Json)}
    (h : List.Forall₂ (Field ρ) fields fields') :
    fields.map Prod.fst = fields'.map Prod.fst ∧
      List.Forall₂ (Renamed ρ) (fields.map Prod.snd) (fields'.map Prod.snd) := by
  induction h with
  | nil => exact ⟨rfl, .nil⟩
  | cons hfield _ ih => exact ⟨congrArg₂ List.cons hfield.1 ih.1, .cons hfield.2 ih.2⟩

/-- An object without a field for a file is no span, so its fields are renamed each. -/
theorem fields {fields fields' : List (String × Json)} (hfile : "file_id" ∉ fields.map Prod.fst)
    (h : List.Forall₂ (Field ρ) fields fields') : Renamed ρ (.obj fields) (.obj fields') := by
  obtain ⟨hkeys, hparts⟩ := of_forall₂_field h
  refine .obj (fun id hnames => hfile ?_) hkeys hparts
  obtain ⟨spanFields, heq, hperm⟩ := hnames.exists_obj
  cases heq
  exact hperm.mem_iff.2 List.mem_cons_self

/-- A record that is no span has the same keys and the renamed nodes. -/
theorem of_record {keys : List String} {parts : List Json} (hlen : parts.length = keys.length)
    (hfile : "file_id" ∉ keys) (hv : v.IsRecord (keys.zip parts)) (h : Renamed ρ v v') :
    ∃ parts', v'.IsRecord (keys.zip parts') ∧ List.Forall₂ (Renamed ρ) parts parts' := by
  have hfst : (keys.zip parts).map Prod.fst = keys := List.map_fst_zip (Nat.le_of_eq hlen.symm)
  have hsnd : (keys.zip parts).map Prod.snd = parts := List.map_snd_zip (Nat.le_of_eq hlen)
  obtain ⟨fs, rfl, hperm⟩ := hv
  cases h with
  | span hv =>
    obtain ⟨fs', hfs', hperm'⟩ := hv
    cases hfs'
    have hspan := (hperm'.map Prod.fst).mem_iff.2 List.mem_cons_self
    rw [(hperm.map Prod.fst).mem_iff, hfst] at hspan
    exact absurd hspan hfile
  | obj _ hkeys h =>
    obtain ⟨fields', hfields', hperm'⟩ :=
      List.perm_comp_forall₂ hperm.symm (forall₂_field hkeys h)
    obtain ⟨hkeys', hparts⟩ := of_forall₂_field hfields'
    rw [hfst] at hkeys'
    rw [hsnd] at hparts
    rw [List.zip_of_prod hkeys'.symm rfl] at hperm'
    exact ⟨_, ⟨_, rfl, hperm'.symm⟩, hparts⟩

/-- The second span has the same ends, and the file that is given for that of the first one. -/
theorem of_span {file start stop : Json} {id : FileId}
    (hv : v.IsRecord [("file_id", file), ("beg", start), ("end", stop)])
    (hid : (FileId.decode file).Yields id) (h : Renamed ρ v v') :
    ∃ file', v'.IsRecord [("file_id", file'), ("beg", start), ("end", stop)] ∧
      (FileId.decode file').Yields (ρ id) := by
  have hobj : ∃ fields, v = .obj fields := ⟨_, hv.choose_spec.1⟩
  cases h with
  | null | bool | num | str | arr => obtain ⟨fields, hfields⟩ := hobj; cases hfields
  | span hv₁ hv' hid₁ hid' =>
    cases hv₁.unique hv rfl (by simp)
    rw [hid.unique hid₁]
    exact ⟨_, hv', hid'⟩
  | obj hnames => exact absurd ⟨_, _, _, hv, hid⟩ (hnames id)

/-- A variant is no span, so its payload is renamed. -/
theorem of_tagged {tag : String} {payload : Json} (h : Renamed ρ (.tagged tag payload) v') :
    ∃ payload', v' = .tagged tag payload' ∧ Renamed ρ payload payload' := by
  cases h with
  | span hv =>
    obtain ⟨fs, hfs, hperm⟩ := hv
    cases hfs
    exact absurd hperm.length_eq (by simp)
  | @obj _ fields' _ hkeys h =>
    match fields', forall₂_field hkeys h with
    | [(_, payload')], .cons ⟨rfl, hpayload⟩ .nil => exact ⟨payload', rfl, hpayload⟩

/-- A field in a list of its own, or bare, is renamed in this form. -/
theorem of_packed {own : Bool} {field : Json} (h : Renamed ρ (.packed own field) v') :
    ∃ field', v' = .packed own field' ∧ Renamed ρ field field' := by
  cases own with
  | false => exact ⟨v', rfl, h⟩
  | true =>
    obtain ⟨vs', rfl, hvs⟩ := of_arr h
    match vs', hvs with
    | [field'], .cons hfield .nil => exact ⟨field', rfl, hfield⟩

theorem eq_of_forall₂ {α : Type} {R : α → α → Prop} {as bs : List α}
    (hR : ∀ a ∈ as, ∀ b, R a b → b = a) (h : List.Forall₂ R as bs) : bs = as := by
  have hboth := (List.forall₂_and_left as bs).2 ⟨hR, h⟩
  have heq : List.Forall₂ (fun a b => a = b) as bs := hboth.imp fun a b hab => (hab.1 b hab.2).symm
  rw [List.forall₂_eq_eq_eq] at heq
  exact heq.symm

/-- **Nodes without spans.** There is nothing to rename. -/
theorem eq_of_not_uses (h : Renamed ρ v v') (huses : ∀ id, ¬ v.Uses id) : v' = v := by
  induction hn : sizeOf v using Nat.strongRecOn generalizing v v' with
  | ind n ih =>
    subst hn
    cases h with
    | null | bool | num | str => rfl
    | arr h =>
      refine congrArg Json.arr (eq_of_forall₂ (fun w hw w' hrenamed => ?_) h)
      exact ih _ (sizeOf_lt_of_mem_arr hw) hrenamed
        (fun id huse => huses id (uses_arr.2 ⟨w, hw, huse⟩)) rfl
    | span hv _ hid => exact absurd ⟨v, .refl, _, _, _, hv, hid⟩ (huses _)
    | obj _ hkeys h =>
      refine congrArg Json.obj (eq_of_forall₂ ?_ (forall₂_field hkeys h))
      rintro ⟨key, w⟩ hw ⟨_, w'⟩ ⟨rfl, hrenamed⟩
      exact congrArg (Prod.mk key) (ih _ (sizeOf_lt_of_mem_obj hw) hrenamed
        (fun id huse => huses id (uses_obj.2 (.inr ⟨_, hw, huse⟩))) rfl)

end Renamed

/-! ## Parts of the two nodes -/

namespace Parts

/-- The parts of the second node are those of the first one, renamed. -/
def Renamed (ρ : FileId → FileId) : (n : Nat) → v.Parts n → v'.Parts n → Prop
  | 0, _, _ => True
  | 1, part, part' => part.1.Renamed ρ part'.1
  | n + 2, (part, parts), (part', parts') =>
    part.1.Renamed ρ part'.1 ∧ Renamed ρ (n + 1) parts parts'

/-- Renamed parts that are small enough to be parts of the second node. -/
theorem exists_renamed : ∀ {n : Nat} {parts : v.Parts n} {vs : List Json},
    List.Forall₂ (Json.Renamed ρ) (toList n parts) vs → (∀ w ∈ vs, sizeOf w < sizeOf v') →
      ∃ parts' : v'.Parts n, toList n parts' = vs ∧ Renamed ρ n parts parts'
  | 0, _, _, .nil, _ => ⟨(), rfl, trivial⟩
  | 1, _, _, .cons hpart .nil, hsizes => ⟨⟨_, hsizes _ List.mem_cons_self⟩, rfl, hpart⟩
  | n + 2, (_, parts), _, .cons hpart h, hsizes => by
    obtain ⟨hsize, hsizes⟩ := List.forall_mem_cons.1 hsizes
    obtain ⟨parts', rfl, hparts⟩ := exists_renamed h hsizes
    exact ⟨(⟨_, hsize⟩, parts'), rfl, hpart, hparts⟩

end Parts

end Json

/-- The second variant has the tag of the first one, and its payload renamed if there is one. -/
inductive Decode.Tagged.Renamed (ρ : FileId → FileId) {v v' : Json} : Tagged v → Tagged v' → Prop
  | bare (tag : String) : Renamed ρ ⟨tag, none⟩ ⟨tag, none⟩
  | payload (tag : String) {part : v.Part} {part' : v'.Part} :
    part.1.Renamed ρ part'.1 → Renamed ρ ⟨tag, some part⟩ ⟨tag, some part'⟩

/-! ## Two runs -/

namespace Outcome

variable {α β : Type}

/-- **A repeated run.** The second outcome has the value of the first one, if that has one. -/
def Repeats (o o' : Outcome α) : Prop := ∀ a, o.Yields a → o'.Yields a

namespace Repeats

variable {ρ : FileId → FileId} {v v' : Json}

theorem refl {o : Outcome α} : Repeats o o := fun _ => id

theorem fail {c : Cause} {o' : Outcome α} : Repeats (fail c) o' := by
  intro a ha
  rw [yields_fail] at ha
  exact ha.elim

theorem within {decoder : String} {o o' : Outcome α} (h : Repeats o o') :
    Repeats (within decoder o) (within decoder o') := by
  intro a ha
  rw [yields_within] at ha ⊢
  exact h a ha

theorem bind {o o' : Outcome α} {next next' : α → Outcome β} (h : Repeats o o')
    (hnext : ∀ a, Repeats (next a) (next' a)) : Repeats (o >>= next) (o' >>= next') := by
  intro b hb
  obtain ⟨a, ha, hb⟩ := yields_bind.1 hb
  exact yields_bind.2 ⟨a, h a ha, hnext a b hb⟩

/-- The last step, and what is done with its value. -/
theorem last {o o' : Outcome α} {next : α → Outcome β} (h : Repeats o o') :
    Repeats (o >>= next) (o' >>= next) :=
  bind h fun _ => refl

theorem map {o o' : Outcome α} {f : α → β} (h : Repeats o o') : Repeats (f <$> o) (f <$> o') := by
  rw [← bind_pure_comp, ← bind_pure_comp]
  exact last h

/-- What is decoded without files is the same node in both runs. -/
theorem of_spanless {decode : Json → Outcome α} (hv : v.Renamed ρ v')
    (h : Spanless [v] (decode v)) : Repeats (decode v) (decode v') := by
  intro a ha
  rw [hv.eq_of_not_uses (h.not_uses ha)]
  exact ha

/-! ### Readers of nodes -/

/-- The tag is the same in both runs, and the payload is renamed. -/
theorem variant {next : Tagged v → Outcome α} {next' : Tagged v' → Outcome α}
    (hv : v.Renamed ρ v')
    (h : ∀ t t', Tagged.Renamed ρ t t' → Repeats (next t) (next' t')) :
    Repeats (Decode.variant v >>= next) (Decode.variant v' >>= next') := by
  intro a ha
  obtain ⟨⟨tag, payload⟩, ht, ha⟩ := yields_bind.1 ha
  rcases variant_yields.1 ht with ⟨hstr, hnone⟩ | ⟨part, hsome, htagged⟩
  · obtain rfl : payload = none := hnone
    have hv' : v' = .str tag := (hstr ▸ hv).of_str
    exact yields_bind.2 ⟨⟨tag, none⟩, variant_yields_none.2 hv', h _ _ (.bare tag) a ha⟩
  · obtain rfl : payload = some part := hsome
    obtain ⟨payload', hv', hpart⟩ := (htagged ▸ hv).of_tagged
    have hsize : sizeOf payload' < sizeOf v' := by
      rw [hv']
      exact Json.sizeOf_lt_tagged tag payload'
    refine yields_bind.2 ⟨⟨tag, some ⟨payload', hsize⟩⟩, variant_yields_some.2 hv', ?_⟩
    exact h _ _ (.payload tag hpart) a ha

theorem components {n : Nat} {next : v.Parts n → Outcome α} {next' : v'.Parts n → Outcome α}
    (hv : v.Renamed ρ v')
    (h : ∀ parts parts', Json.Parts.Renamed ρ n parts parts' →
      Repeats (next parts) (next' parts')) :
    Repeats (Decode.components n v >>= next) (Decode.components n v' >>= next') := by
  intro a ha
  obtain ⟨parts, hparts, ha⟩ := yields_bind.1 ha
  obtain ⟨vs, hv', hvs⟩ := (components_yields.1 hparts ▸ hv).of_arr
  have hsizes : ∀ w ∈ vs, sizeOf w < sizeOf v' := by
    rw [hv']
    exact fun w => Json.sizeOf_lt_of_mem_arr
  obtain ⟨parts', rfl, hrenamed⟩ := Json.Parts.exists_renamed hvs hsizes
  exact yields_bind.2 ⟨parts', components_yields.2 hv', h parts parts' hrenamed a ha⟩

theorem record {keys : List String} (hkeys : keys.Nodup) (hfile : "file_id" ∉ keys)
    {next : v.Parts keys.length → Outcome α} {next' : v'.Parts keys.length → Outcome α}
    (hv : v.Renamed ρ v')
    (h : ∀ parts parts', Json.Parts.Renamed ρ keys.length parts parts' →
      Repeats (next parts) (next' parts')) :
    Repeats (Decode.record keys v >>= next) (Decode.record keys v' >>= next') := by
  intro a ha
  obtain ⟨parts, hrecord, ha⟩ := (record_bind hkeys).1 ha
  obtain ⟨vs, hrecord', hvs⟩ := hv.of_record (Json.Parts.length_toList parts) hfile hrecord
  have hsizes : ∀ w ∈ vs, sizeOf w < sizeOf v' := by
    have hlen : vs.length = keys.length := hvs.length_eq.symm.trans (Json.Parts.length_toList parts)
    intro w hw
    refine hrecord'.sizeOf_lt ?_
    rwa [List.map_snd_zip (Nat.le_of_eq hlen)]
  obtain ⟨parts', rfl, hrenamed⟩ := Json.Parts.exists_renamed hvs hsizes
  exact (record_bind hkeys).2 ⟨parts', hrecord', h parts parts' hrenamed a ha⟩

theorem list {decode decode' : Json → Outcome α} (hv : v.Renamed ρ v')
    (h : ∀ w w', sizeOf w < sizeOf v → w.Renamed ρ w' → Repeats (decode w) (decode' w')) :
    Repeats (list decode v) (list decode' v') := by
  intro as has
  obtain ⟨vs, rfl, hall⟩ := list_yields.1 has
  obtain ⟨vs', rfl, hvs⟩ := hv.of_arr
  refine list_yields.2 ⟨vs', rfl, forall₂_of_related hvs hall fun w hw w' a hrenamed ha => ?_⟩
  exact h w w' (Json.sizeOf_lt_of_mem_arr hw) hrenamed a ha

/-- What is absent in one run is absent in the other. -/
theorem optional {decode decode' : Json → Outcome α} (hv : v.Renamed ρ v')
    (h : Repeats (decode v) (decode' v')) : Repeats (optional decode v) (optional decode' v') := by
  intro o ho
  rcases optional_yields.1 ho with ⟨rfl, hnone⟩ | ⟨hnull, a, hsome, ha⟩
  · exact optional_yields.2 (.inl ⟨hv.of_null, hnone⟩)
  · exact optional_yields.2 (.inr ⟨hv.ne_null hnull, a, hsome, h a ha⟩)

/-- A payload is read in the same form in both runs. -/
theorem wrapped {decode decode' : Json → Outcome α} (hdecode : Exclusive decode)
    (hdecode' : Exclusive decode') (hv : v.Renamed ρ v')
    (h : ∀ w w', sizeOf w ≤ sizeOf v → w.Renamed ρ w' → Repeats (decode w) (decode' w')) :
    Repeats (wrapped decode v) (wrapped decode' v') := by
  intro a ha
  obtain ⟨own, field, rfl, hread⟩ := hdecode.wrapped_yields.1 ha
  obtain ⟨field', rfl, hfield⟩ := hv.of_packed
  refine hdecode'.wrapped_yields.2 ⟨own, field', rfl, ?_⟩
  exact h field field' (Json.sizeOf_le_packed own field) hfield a hread

end Repeats

end Outcome

end BorrowIR
