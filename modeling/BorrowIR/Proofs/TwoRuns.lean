import BorrowIR.Proofs.FileUse

/-!
# Two runs of a decoder

Some of the files that a document uses are taken out of the table. Two runs of a decoder on one node
are compared, with all files and without the lost ones.

* `Outcome.Tracks`: the second run has the value of the first one where the node does not use a lost
  file, and else it fails, with a cause of a given sort;
* there is one lemma for each combinator of decoders.
-/

namespace BorrowIR

open Decode Outcome

/-- The node uses one of these files. -/
def Json.UsesAny (lost : List FileId) (v : Json) : Prop := ∃ id ∈ lost, v.Uses id

theorem Json.usesAny_iff {lost : List FileId} {v : Json} {below : List Json}
    (h : ∀ id, v.Uses id ↔ ∃ part ∈ below, part.Uses id) :
    v.UsesAny lost ↔ ∃ part ∈ below, part.UsesAny lost := by
  unfold UsesAny
  simp only [h]
  constructor
  · rintro ⟨id, hid, part, hpart, huses⟩; exact ⟨part, hpart, id, hid, huses⟩
  · rintro ⟨part, hpart, id, hid, huses⟩; exact ⟨id, hid, part, hpart, huses⟩

/-- The first of some nodes that uses a lost file is of this sort. -/
def FirstLoss (lost : List FileId) (sort : Json → Prop) (vs : List Json) : Prop :=
  ∃ before v after, vs = before ++ v :: after ∧ (∀ w ∈ before, ¬ w.UsesAny lost) ∧ sort v

/-- The first loss is in the first node, or the first node has none and it is in the others. -/
theorem firstLoss_cons {lost : List FileId} {sort : Json → Prop} {v : Json} {vs : List Json} :
    FirstLoss lost sort (v :: vs) ↔ sort v ∨ ¬ v.UsesAny lost ∧ FirstLoss lost sort vs := by
  constructor
  · rintro ⟨before, w, after, heq, hbefore, hw⟩
    cases before with
    | nil =>
      cases heq
      exact .inl hw
    | cons u before =>
      cases heq
      obtain ⟨hu, hbefore⟩ := List.forall_mem_cons.1 hbefore
      exact .inr ⟨hu, before, w, after, rfl, hbefore, hw⟩
  · rintro (hv | ⟨hv, before, w, after, rfl, hbefore, hw⟩)
    · exact ⟨[], v, vs, rfl, by simp, hv⟩
    · exact ⟨v :: before, w, after, rfl, List.forall_mem_cons.2 ⟨hv, hbefore⟩, hw⟩

/-- The cause is that one of these files is not listed. -/
def Cause.UnknownOf (lost : List FileId) (c : Cause) : Prop := ∃ id ∈ lost, c = .unknownFile id.text

namespace Outcome

variable {α β : Type}

/-- **Two runs.** The outcome `o'` of decoding without some files has the value of `o`, if the nodes
that were decoded do not use the files, and it fails with such a cause, if they do. -/
def Tracks (lost : List FileId) (cause : Cause → Prop) (parts : List Json) (o o' : Outcome α) :
    Prop :=
  ∀ a, o.Yields a →
    ((∀ part ∈ parts, ¬ part.UsesAny lost) → o'.Yields a) ∧
      ((∃ part ∈ parts, part.UsesAny lost) → ∃ c, cause c ∧ o'.Fails c)

namespace Tracks

variable {lost : List FileId} {cause : Cause → Prop} {part v : Json} {parts : List Json}

theorem value {o o' : Outcome α} {a : α} (h : Tracks lost cause parts o o') (ha : o.Yields a)
    (hparts : ∀ part ∈ parts, ¬ part.UsesAny lost) : o'.Yields a :=
  (h a ha).1 hparts

theorem failure {o o' : Outcome α} {a : α} (h : Tracks lost cause parts o o') (ha : o.Yields a)
    (hpart : part ∈ parts) (huses : part.UsesAny lost) : ∃ c, cause c ∧ o'.Fails c :=
  (h a ha).2 ⟨part, hpart, huses⟩

theorem singleton {o o' : Outcome α}
    (h : ∀ a, o.Yields a → (¬ v.UsesAny lost → o'.Yields a) ∧
      (v.UsesAny lost → ∃ c, cause c ∧ o'.Fails c)) : Tracks lost cause [v] o o' := by
  intro a ha
  simpa using h a ha

/-- Where there are no spans, nothing can be lost. -/
theorem of_spanless {o : Outcome α} (h : Spanless parts o) : Tracks lost cause parts o o := by
  intro a ha
  -- the two runs are the same, so there is nothing to show but that no file is lost
  constructor
  · exact fun _ => ha
  · rintro ⟨part, hpart, id, -, huses⟩
    exact absurd huses (h a ha part hpart id)

theorem mono {cause' : Cause → Prop} {o o' : Outcome α} (h : Tracks lost cause parts o o')
    (hcause : ∀ c, cause c → cause' c) : Tracks lost cause' parts o o' := by
  intro a ha
  refine ⟨(h a ha).1, fun hparts => ?_⟩
  obtain ⟨c, hc, hfails⟩ := (h a ha).2 hparts
  exact ⟨c, hcause c hc, hfails⟩

/-- Where no lost file is used, there is no cause either. -/
theorem of_not_uses {cause' : Cause → Prop} {o o' : Outcome α} (h : Tracks lost cause parts o o')
    (hparts : ∀ part ∈ parts, ¬ part.UsesAny lost) : Tracks lost cause' parts o o' := by
  intro a ha
  constructor
  · exact (h a ha).1
  · rintro ⟨part, hpart, huses⟩
    exact absurd huses (hparts part hpart)

theorem nil {o : Outcome α} : Tracks lost cause [] o o := of_spanless .nil

theorem fail {c : Cause} {o' : Outcome α} : Tracks lost cause parts (fail c) o' := by
  intro a ha
  rw [yields_fail] at ha
  exact ha.elim

theorem within {decoder : String} {o o' : Outcome α} (h : Tracks lost cause parts o o') :
    Tracks lost cause parts (within decoder o) (within decoder o') := by
  intro a ha
  simp only [yields_within, fails_within] at ha ⊢
  exact h a ha

/-- The first step is for the first node, the next steps are for the others. They matter only if
the first node does not use a lost file. -/
theorem bind_of_not_uses {o o' : Outcome α} {next next' : α → Outcome β}
    (h : Tracks lost cause [part] o o')
    (hnext : ¬ part.UsesAny lost → ∀ a, Tracks lost cause parts (next a) (next' a)) :
    Tracks lost cause (part :: parts) (o >>= next) (o' >>= next') := by
  intro b hb
  obtain ⟨a, ha, hb⟩ := yields_bind.1 hb
  -- a loss in the first node is reported before the second step is made
  by_cases hpart : part.UsesAny lost
  · obtain ⟨c, hc, hfails⟩ := h.failure ha (List.mem_singleton_self part) hpart
    constructor
    · exact fun hparts => absurd hpart (hparts part List.mem_cons_self)
    · exact fun _ => ⟨c, hc, fails_bind.2 (.inl hfails)⟩
  · have ha' : o'.Yields a := h.value ha (by simpa using hpart)
    constructor
    · intro hparts
      exact yields_bind.2 ⟨a, ha', (hnext hpart a).value hb (List.forall_mem_cons.1 hparts).2⟩
    · rintro ⟨other, hother, huses⟩
      rcases List.mem_cons.1 hother with rfl | hother
      · exact absurd huses hpart
      · obtain ⟨c, hc, hfails⟩ := (hnext hpart a).failure hb hother huses
        exact ⟨c, hc, fails_bind.2 (.inr ⟨a, ha', hfails⟩)⟩

/-- The first loss in the order of the steps is the one that is reported. -/
theorem bind {o o' : Outcome α} {next next' : α → Outcome β} (h : Tracks lost cause [part] o o')
    (hnext : ∀ a, Tracks lost cause parts (next a) (next' a)) :
    Tracks lost cause (part :: parts) (o >>= next) (o' >>= next') :=
  bind_of_not_uses h fun _ => hnext

/-- A step that is not for a node. -/
theorem step {o : Outcome α} {next next' : α → Outcome β}
    (hnext : ∀ a, Tracks lost cause parts (next a) (next' a)) :
    Tracks lost cause parts (o >>= next) (o >>= next') := by
  intro b hb
  obtain ⟨a, ha, hb⟩ := yields_bind.1 hb
  constructor
  · exact fun hparts => yields_bind.2 ⟨a, ha, (hnext a).value hb hparts⟩
  · rintro ⟨other, hother, huses⟩
    obtain ⟨c, hc, hfails⟩ := (hnext a).failure hb hother huses
    exact ⟨c, hc, fails_bind.2 (.inr ⟨a, ha, hfails⟩)⟩

/-- The last step, and what is done with its value. -/
theorem last {o o' : Outcome α} {next : α → Outcome β} (h : Tracks lost cause parts o o') :
    Tracks lost cause parts (o >>= next) (o' >>= next) := by
  intro b hb
  obtain ⟨a, ha, hb⟩ := yields_bind.1 hb
  constructor
  · exact fun hparts => yields_bind.2 ⟨a, h.value ha hparts, hb⟩
  · rintro ⟨other, hother, huses⟩
    obtain ⟨c, hc, hfails⟩ := h.failure ha hother huses
    exact ⟨c, hc, fails_bind.2 (.inl hfails)⟩

theorem map {o o' : Outcome α} {f : α → β} (h : Tracks lost cause parts o o') :
    Tracks lost cause parts (f <$> o) (f <$> o') := by
  rw [← bind_pure_comp, ← bind_pure_comp]
  exact last h

/-! ### Readers of nodes -/

/-- What is read from the parts of a node is read from the node. -/
theorem reader {o : Outcome β} {below : β → List Json} {next next' : β → Outcome α}
    (huses : ∀ b, o.Yields b → ∀ id, v.Uses id ↔ ∃ part ∈ below b, part.Uses id)
    (hnext : ∀ b, o.Yields b → Tracks lost cause (below b) (next b) (next' b)) :
    Tracks lost cause [v] (o >>= next) (o >>= next') := by
  refine singleton fun a ha => ?_
  obtain ⟨b, hb, ha⟩ := yields_bind.1 ha
  have h := hnext b hb
  rw [Json.usesAny_iff (huses b hb)]
  constructor
  · intro hv
    exact yields_bind.2 ⟨b, hb, h.value ha fun part hpart huse => hv ⟨part, hpart, huse⟩⟩
  · intro hv
    obtain ⟨c, hc, hfails⟩ := (h a ha).2 hv
    exact ⟨c, hc, fails_bind.2 (.inr ⟨b, hb, hfails⟩)⟩

theorem variant {next next' : Tagged v → Outcome α}
    (h : ∀ t, Tracks lost cause (t.payload.toList.map Subtype.val) (next t) (next' t)) :
    Tracks lost cause [v] (Decode.variant v >>= next) (Decode.variant v >>= next') :=
  reader (fun _ ht _ => uses_of_variant ht) fun t _ => h t

theorem components {n : Nat} {next next' : v.Parts n → Outcome α}
    (h : ∀ p, Tracks lost cause (Json.Parts.toList n p) (next p) (next' p)) :
    Tracks lost cause [v] (Decode.components n v >>= next) (Decode.components n v >>= next') :=
  reader (fun _ hp _ => uses_of_components hp) fun p _ => h p

theorem record {keys : List String} (hkeys : keys.Nodup) (hfile : "file_id" ∉ keys)
    {next next' : v.Parts keys.length → Outcome α}
    (h : ∀ p, Tracks lost cause (Json.Parts.toList keys.length p) (next p) (next' p)) :
    Tracks lost cause [v] (Decode.record keys v >>= next) (Decode.record keys v >>= next') :=
  reader (fun _ hp _ => uses_of_record hkeys hfile hp) fun p _ => h p

theorem each {decode decode' : (part : Json) → sizeOf part < sizeOf v → Outcome α}
    (h : ∀ part hpart, Tracks lost cause [part] (decode part hpart) (decode' part hpart)) :
    ∀ below : List v.Part, Tracks lost cause (below.map Subtype.val) (each decode below)
      (each decode' below)
  | [] => nil
  | part :: below => bind (h part.1 part.2) fun _ => last (each h below)

/-- Nothing of a sort stands in a list behind elements that do not use the lost files. -/
theorem each_of_not_first {sort : Json → Prop}
    {decode decode' : (part : Json) → sizeOf part < sizeOf v → Outcome α}
    (h : ∀ part hpart, ¬ sort part →
      Tracks lost cause [part] (decode part hpart) (decode' part hpart))
    {below : List v.Part} (hfirst : ¬ FirstLoss lost sort (below.map Subtype.val)) :
    Tracks lost cause (below.map Subtype.val) (Decode.each decode below)
      (Decode.each decode' below) := by
  induction below with
  | nil => exact nil
  | cons part below ih =>
    rw [List.map_cons, firstLoss_cons, not_or, not_and] at hfirst
    exact bind_of_not_uses (h part.1 part.2 hfirst.1) fun hpart _ => last (ih (hfirst.2 hpart))

/-- The first element that uses a lost file is of a sort. -/
theorem each_of_first {sort : Json → Prop}
    {decode decode' : (part : Json) → sizeOf part < sizeOf v → Outcome α}
    (huses : ∀ part, sort part → part.UsesAny lost)
    (h : ∀ part hpart, sort part ∨ ¬ part.UsesAny lost →
      Tracks lost cause [part] (decode part hpart) (decode' part hpart))
    {below : List v.Part} (hfirst : FirstLoss lost sort (below.map Subtype.val)) :
    Tracks lost cause (below.map Subtype.val) (Decode.each decode below)
      (Decode.each decode' below) := by
  induction below with
  | nil => exact nil
  | cons part below ih =>
    rw [List.map_cons, firstLoss_cons] at hfirst
    -- the first loss is here, so the others do not matter, or it is further down
    rcases hfirst with hpart | ⟨hpart, hbelow⟩
    · exact bind_of_not_uses (h part.1 part.2 (.inl hpart)) fun hnot =>
        absurd (huses part.1 hpart) hnot
    · exact bind (h part.1 part.2 (.inr hpart)) fun _ => last (ih hbelow)

theorem listBelow_of_each {decode decode' : (part : Json) → sizeOf part < sizeOf v → Outcome α}
    (h : ∀ below : List v.Part, v = .arr (below.map Subtype.val) →
      Tracks lost cause (below.map Subtype.val) (Decode.each decode below)
        (Decode.each decode' below)) :
    Tracks lost cause [v] (listBelow v decode) (listBelow v decode') := by
  unfold Decode.listBelow
  cases helements : v.elements? with
  | none => exact fail
  | some below =>
    rw [Json.elements?_eq_some] at helements
    refine singleton fun as has => ?_
    have huses : ∀ id, v.Uses id ↔ ∃ part ∈ below.map Subtype.val, part.Uses id := by
      intro id
      have harr : (Json.arr (below.map Subtype.val)).Uses id ↔ _ := Json.uses_arr
      rwa [← helements] at harr
    have htracks := h below helements
    rw [Json.usesAny_iff huses]
    constructor
    · intro hparts
      exact htracks.value has fun part hpart huse => hparts ⟨part, hpart, huse⟩
    · exact (htracks as has).2

theorem listBelow {decode decode' : (part : Json) → sizeOf part < sizeOf v → Outcome α}
    (h : ∀ part hpart, Tracks lost cause [part] (decode part hpart) (decode' part hpart)) :
    Tracks lost cause [v] (listBelow v decode) (listBelow v decode') :=
  listBelow_of_each fun below _ => each h below

theorem list {decode decode' : Json → Outcome α}
    (h : ∀ part, Tracks lost cause [part] (decode part) (decode' part)) :
    Tracks lost cause [v] (list decode v) (list decode' v) :=
  listBelow fun part _ => h part

/-- What is absent cannot be lost. -/
theorem optional {decode decode' : Json → Outcome α}
    (h : Tracks lost cause [v] (decode v) (decode' v)) :
    Tracks lost cause [v] (optional decode v) (optional decode' v) := by
  cases v with
  | null => exact of_spanless (.singleton fun _ _ _ => Json.not_uses_null)
  | _ => exact map h

/-- Where a list of one element is never the field itself, the reading that counts is the one whose
failure is reported. -/
theorem wrappedBelow {decode decode' : (field : Json) → sizeOf field ≤ sizeOf v → Outcome α}
    (hlist : ∀ field, v = .arr [field] → ∀ b, ¬ (decode v (Nat.le_refl _)).Yields b)
    (hlist' : ∀ field, v = .arr [field] → ∀ b, ¬ (decode' v (Nat.le_refl _)).Yields b)
    (h : ∀ field hfield, Tracks lost cause [field] (decode field hfield) (decode' field hfield)) :
    Tracks lost cause [v] (wrappedBelow v decode) (wrappedBelow v decode') := by
  unfold Decode.wrappedBelow
  split
  · rename_i field hfield
    rw [Json.elements?_eq_some] at hfield
    refine singleton fun a ha => ?_
    have huses : ∀ id, v.Uses id ↔ ∃ part ∈ [field.1], part.Uses id := by
      intro id
      have harr : (Json.arr [field.1]).Uses id ↔ _ := Json.uses_arr
      rwa [← show v = Json.arr [field.1] from hfield] at harr
    rw [Json.usesAny_iff huses]
    have ha : (decode field.1 (Nat.le_of_lt field.2)).Yields a := by
      rcases yields_orElse.1 ha with ha | ⟨-, ha⟩
      · exact ha
      · exact absurd ha (hlist _ hfield a)
    constructor
    · intro hv
      exact yields_orElse.2 (.inl ((h _ _).value ha fun part hpart huse => hv ⟨part, hpart, huse⟩))
    · intro hv
      obtain ⟨c, hc, hfails⟩ := (h _ _ a ha).2 hv
      -- the second reading cannot save the first one, which is the one that is reported
      rcases yields_or_fails (decode' v (Nat.le_refl _)) with ⟨b, hb⟩ | hsecond
      · exact absurd hb (hlist' _ hfield b)
      · exact ⟨c, hc, fails_orElse.2 ⟨hfails, hsecond⟩⟩
  · exact h v _

/-- A field that is a list of things that are no lists: if it has one element, this element is no
list, so the two readings of a list of one element exclude one another. -/
theorem wrapped_list {decode decode' : Json → Outcome α}
    (hlist : ∀ elems b, ¬ (decode (.arr elems)).Yields b)
    (hlist' : ∀ elems b, ¬ (decode' (.arr elems)).Yields b)
    (hlone : ∀ field, v = .arr [field] → ∃ elems, field = .arr elems)
    (h : ∀ part, Tracks lost cause [part] (decode part) (decode' part)) :
    Tracks lost cause [v] (wrapped (Decode.list decode) v) (wrapped (Decode.list decode') v) := by
  have hnever : ∀ d : Json → Outcome α, (∀ elems b, ¬ (d (.arr elems)).Yields b) →
      ∀ field, v = .arr [field] → ∀ bs, ¬ (Decode.list d v).Yields bs := by
    intro d hd field hv bs hbs
    obtain ⟨elems, rfl⟩ := hlone field hv
    rw [hv, list_yields] at hbs
    obtain ⟨vs, hvs, hall⟩ := hbs
    cases hvs
    cases hall with
    | cons hb _ => exact hd elems _ hb
  exact wrappedBelow (hnever decode hlist) (hnever decode' hlist') fun field _ => list h

/-- Where a list of one element that is no list is the field itself, the failure of the other
reading is reported. -/
theorem wrapped_list_of_lone {decode decode' : Json → Outcome α} {field : Json}
    (hv : v = .arr [field]) (hfield : ∀ elems, field ≠ .arr elems)
    (h : ∀ part, Tracks lost cause [part] (decode part) (decode' part)) :
    Tracks lost (fun c => c = .mismatch .list field) [v] (wrapped (Decode.list decode) v)
      (wrapped (Decode.list decode') v) := by
  -- the element is no list, so the first reading fails in both runs, with the same cause
  have hlist : ∀ d : Json → Outcome α, (Decode.list d field).Fails (.mismatch .list field) := by
    intro d
    unfold Decode.list Decode.listBelow
    cases field with
    | arr elems => exact absurd rfl (hfield elems)
    | _ => exact fails_fail.2 rfl
  have hwrapped : ∀ d : Json → Outcome α, wrapped (Decode.list d) v =
      (Decode.list d field).orElse (Decode.list d v) := by
    rintro d
    subst hv
    rfl
  rw [hwrapped, hwrapped]
  refine singleton fun as has => ?_
  have has : (Decode.list decode v).Yields as := by
    rcases yields_orElse.1 has with has | ⟨-, has⟩
    · exact absurd has ((hlist decode).not_yields as)
    · exact has
  constructor
  · intro huses
    refine yields_orElse.2 (.inr ⟨⟨_, hlist decode'⟩, ?_⟩)
    exact (list h).value has (by simpa using huses)
  · intro huses
    obtain ⟨c, -, hfails⟩ := (list h).failure has (List.mem_singleton_self v) huses
    exact ⟨_, rfl, fails_orElse.2 ⟨hlist decode', c, hfails⟩⟩

end Tracks

end Outcome

end BorrowIR
