import BorrowIR.Proofs.Occurrence
import BorrowIR.Proofs.SpanlessNodes

/-!
# The nodes that are read as statements

* `Json.Reads table t v`: some node at or below `v` is read as the statement `t`, with one lemma for
  each shape of a node. There is none in a node without spans, as a statement has a provenance.
* `Statement.reads_iff_occurs`: the statements that occur in a decoded statement are those that are
  read from the nodes of the document.
-/

namespace BorrowIR

open Decode Outcome Wire

namespace Json

/-- What stands below a node below another one stands below that one. -/
theorem Within.trans {u w v : Json} (hu : u.Within w) (hw : w.Within v) : u.Within v := by
  induction hw with
  | refl => exact hu
  | elem hmem _ ih => exact .elem hmem ih
  | field hmem _ ih => exact .field hmem ih

theorem Uses.of_within {w v : Json} {id : FileId} (h : w.Uses id) (hw : w.Within v) :
    v.Uses id := by
  obtain ⟨span, hspan, hnames⟩ := h
  exact ⟨span, hspan.trans hw, hnames⟩

theorem IsRecord.within {v part : Json} {fields : List (String × Json)} (h : v.IsRecord fields)
    (hpart : part ∈ fields.map Prod.snd) : part.Within v := by
  obtain ⟨fs, rfl, hperm⟩ := h
  obtain ⟨⟨key, _⟩, hfield, rfl⟩ := List.mem_map.1 hpart
  exact .field (hperm.mem_iff.2 hfield) .refl

/-- Some node at or below this one is read as the statement. -/
def Reads (table : FileTable) (t : Statement) (v : Json) : Prop :=
  ∃ w, Within w v ∧ (Statement.decode table w).Yields t

variable {table : FileTable} {t : Statement}

/-- A statement is a record of a provenance and what it does. -/
theorem isRecord_of_statement {v : Json} (h : (Statement.decode table v).Yields t) :
    ∃ o c, v.IsRecord [("meta", o), ("content", c)] ∧ ∃ p, t.origin.Wire table p o := by
  obtain ⟨p, hv, ho, -⟩ := Statement.decode_form.1 h
  exact ⟨_, _, hv, _, ho⟩

/-- A statement has a span, which names a file. -/
theorem uses_of_statement {v : Json} (h : (Statement.decode table v).Yields t) :
    ∃ id, v.Uses id := by
  obtain ⟨o, c, hv, p, ho⟩ := isRecord_of_statement h
  -- in both forms of a provenance there is a span of its own
  have hspan : ∃ s span q, s.Within o ∧ Span.Wire table span q s := by
    generalize t.origin = origin at ho
    cases ho with
    | own ho hs | generated ho hs => exact ⟨_, _, _, ho.within (by simp), hs⟩
  obtain ⟨s, span, q, hs, ⟨hrecord, hid, -⟩⟩ := hspan
  have hnames : s.NamesFile _ := ⟨_, _, _, hrecord, FileId.decode_iff.2 ⟨_, hid⟩⟩
  exact ⟨_, s, hs.trans (hv.within (by simp)), hnames⟩

/-- A statement has a span, so it is not read where no span is. -/
theorem not_reads_of_not_uses {v : Json} (h : ∀ id, ¬ v.Uses id) : ¬ v.Reads table t := by
  rintro ⟨w, hw, ht⟩
  obtain ⟨id, hid⟩ := uses_of_statement ht
  exact h id (hid.of_within hw)

/-- A list is no statement, so statements are read from its elements. -/
theorem reads_arr {elems : List Json} :
    (Json.arr elems).Reads table t ↔ ∃ v ∈ elems, v.Reads table t := by
  constructor
  · rintro ⟨w, hw, ht⟩
    cases hw with
    | refl => exact absurd ht (Statement.decode_arr elems t)
    | elem hv hw => exact ⟨_, hv, w, hw, ht⟩
  · rintro ⟨v, hv, w, hw, ht⟩
    exact ⟨w, .elem hv hw, ht⟩

/-- A record is a statement, or statements are read from the values of its fields. -/
theorem reads_record {v : Json} {fields : List (String × Json)} (h : v.IsRecord fields) :
    v.Reads table t ↔
      (Statement.decode table v).Yields t ∨ ∃ part ∈ fields.map Prod.snd, part.Reads table t := by
  constructor
  · rintro ⟨w, hw, ht⟩
    obtain ⟨fs, rfl, hperm⟩ := h
    cases hw with
    | refl => exact .inl ht
    | field hv hw => exact .inr ⟨_, List.mem_map_of_mem (hperm.mem_iff.1 hv), w, hw, ht⟩
  · rintro (ht | ⟨part, hpart, w, hw, ht⟩)
    · exact ⟨v, .refl, ht⟩
    · exact ⟨w, hw.trans (h.within hpart), ht⟩

/-- A record without a field for what a statement does is no statement itself. -/
theorem reads_record_of_keys {v : Json} {fields : List (String × Json)} (h : v.IsRecord fields)
    (hkeys : "content" ∉ fields.map Prod.fst) :
    v.Reads table t ↔ ∃ part ∈ fields.map Prod.snd, part.Reads table t := by
  rw [reads_record h, or_iff_right]
  intro ht
  obtain ⟨o, c, ⟨fs, rfl, hperm⟩, -⟩ := isRecord_of_statement ht
  obtain ⟨fs', heq, hperm'⟩ := h
  cases heq
  -- both readings of the record have the same keys
  refine hkeys (((hperm'.symm.trans hperm).map Prod.fst).mem_iff.2 ?_)
  exact List.mem_cons_of_mem _ List.mem_cons_self

/-- A variant is no statement, so statements are read from its payload. -/
theorem reads_tagged {tag : String} {payload : Json} :
    (tagged tag payload).Reads table t ↔ payload.Reads table t := by
  have hrecord : (tagged tag payload).IsRecord [(tag, payload)] := isRecord_obj _
  rw [reads_record hrecord, or_iff_right]
  · simp
  · -- a variant has one field, and a statement has two
    intro ht
    obtain ⟨o, c, ⟨fs, heq, hperm⟩, -⟩ := isRecord_of_statement ht
    cases heq
    exact absurd hperm.length_eq (by simp)

theorem reads_packed {own : Bool} {v : Json} :
    (packed own v).Reads table t ↔ v.Reads table t := by
  cases own with
  | false => exact Iff.rfl
  | true =>
    rw [packed, if_pos rfl, reads_arr]
    simp

end Json

variable {table : FileTable} {t : Statement}

/-! ## Provenances -/

/-- No statement is read from a span. -/
theorem Span.Wire.not_reads {span : Span} {p : Packing} {v : Json} (h : span.Wire table p v) :
    ¬ v.Reads table t := by
  obtain ⟨hv, hid, -, hb, he⟩ := h
  rw [Json.reads_record_of_keys hv (by simp)]
  have hfile := (FileId.decode_spanless _).not_uses (FileId.decode_iff.2 ⟨_, hid⟩)
  have hstart := (Loc.decode_spanless _).not_uses (Loc.decode_iff.2 hb)
  have hstop := (Loc.decode_spanless _).not_uses (Loc.decode_iff.2 he)
  simp [Json.not_reads_of_not_uses hfile, Json.not_reads_of_not_uses hstart,
    Json.not_reads_of_not_uses hstop]

theorem Provenance.Wire.not_reads {origin : Provenance} {p : Packing} {v : Json}
    (h : origin.Wire table p v) : ¬ v.Reads table t := by
  cases h with
  | own hv hs =>
    have hnull : ¬ Json.null.Reads table t :=
      Json.not_reads_of_not_uses fun _ => Json.not_uses_null
    rw [Json.reads_record_of_keys hv (by simp)]
    simp [hs.not_reads, hnull]
  | generated hv hs hg =>
    rw [Json.reads_record_of_keys hv (by simp)]
    simp [hs.not_reads, hg.not_reads]

/-! ## One layer of the grammar -/

/-- The statements that are read from the node occur in the statement, and these only. -/
def Statement.ReadFrom (table : FileTable) (v : Json) (s : Statement) : Prop :=
  ∀ t, v.Reads table t ↔ t.Occurs s

/-- The statements that are read from the node occur in one of these, and these only. -/
def Statement.AllReadFrom (table : FileTable) (v : Json) (parts : List Statement) : Prop :=
  ∀ t, v.Reads table t ↔ ∃ part ∈ parts, t.Occurs part

namespace Statement

/-- A node without spans is read as something without statements. -/
theorem AllReadFrom.nil {v : Json} (h : ∀ id, ¬ v.Uses id) : AllReadFrom table v [] := by
  intro t
  simp [Json.not_reads_of_not_uses h]

/-- Where there are no spans, no statements are read. -/
theorem AllReadFrom.of_spanless {α : Type} {v : Json} {o : Outcome α} {a : α}
    (h : Spanless [v] o) (ha : o.Yields a) : AllReadFrom table v [] :=
  .nil (h.not_uses ha)

theorem AllReadFrom.numeral {v : Json} {n : Nat} (h : v.IsNumeral n) : AllReadFrom table v [] :=
  .nil fun _ => Json.not_uses_numeral h

theorem ReadFrom.single {v : Json} {s : Statement} (h : s.ReadFrom table v) :
    AllReadFrom table v [s] := by
  intro t
  simp [h t]

theorem AllReadFrom.arr_nil : AllReadFrom table (.arr []) [] := by
  intro t
  simp [Json.reads_arr]

/-- The statements of a list are those of its elements. -/
theorem AllReadFrom.arr_cons {v : Json} {vs : List Json} {parts parts' : List Statement}
    (h : AllReadFrom table v parts) (hs : AllReadFrom table (.arr vs) parts') :
    AllReadFrom table (.arr (v :: vs)) (parts ++ parts') := by
  intro t
  have hcons : (Json.arr (v :: vs)).Reads table t ↔
      v.Reads table t ∨ (Json.arr vs).Reads table t := by
    simp [Json.reads_arr]
  rw [hcons, h t, hs t]
  simp [or_and_right, exists_or]

theorem AllReadFrom.tagged {tag : String} {payload : Json} {parts : List Statement}
    (h : AllReadFrom table payload parts) : AllReadFrom table (.tagged tag payload) parts := by
  intro t
  rw [Json.reads_tagged, h t]

theorem AllReadFrom.packed {own : Bool} {v : Json} {parts : List Statement}
    (h : AllReadFrom table v parts) : AllReadFrom table (.packed own v) parts := by
  intro t
  rw [Json.reads_packed, h t]

/-- The statements of the branches of a switch are their bodies. -/
theorem AllReadFrom.branches {L : Type} {label : L → Packing → Json → Prop}
    {branches : List (List L × Statement)} {p : Packing} {bs : List Json}
    (hlabel : ∀ l q v, label l q v → AllReadFrom table v [])
    (h : Each (Branch.Form label fun s _ w => s.ReadFrom table w) branches p bs) :
    AllReadFrom table (.arr bs) (branches.map Prod.snd) := by
  have hlabels : ∀ {labels : List L} {q : Packing} {ls : List Json}, Each label labels q ls →
      AllReadFrom table (.arr ls) [] := by
    intro labels q ls hls
    induction hls with
    | nil => exact .arr_nil
    | cons hl _ ih => exact .arr_cons (hlabel _ _ _ hl) ih
  induction h with
  | nil => exact .arr_nil
  | cons hbranch _ ih =>
    -- a branch is a list of labels and a body, and there are no statements in labels
    obtain ⟨hls, hbody⟩ := hbranch
    have hbranch := AllReadFrom.arr_cons (hlabels hls) (.arr_cons hbody.single .arr_nil)
    exact AllReadFrom.arr_cons hbranch ih

end Statement

/-- The statements that are read from what a statement does are those in it. -/
theorem RawStatement.Form.allReadFrom {v : Json} {content : RawStatement} {p : Packing}
    (h : Form (fun s _ w => s.ReadFrom table w)
      (fun choice _ w => Statement.AllReadFrom table w choice.parts) content p v) :
    Statement.AllReadFrom table v content.parts := by
  have hpair : ∀ {v w : Json}, Statement.AllReadFrom table v [] →
      Statement.AllReadFrom table w [] → Statement.AllReadFrom table (.arr [v, w]) [] :=
    fun hv hw => .arr_cons hv (.arr_cons hw .arr_nil)
  cases h with
  | assign hdest hvalue =>
    exact .tagged (hpair (.of_spanless (Place.decode_spanless _) hdest)
      (.of_spanless (Rvalue.decode_spanless _) hvalue))
  | fakeRead hplace | drop hplace =>
    exact .tagged (.packed (.of_spanless (Place.decode_spanless _) hplace))
  | setDiscriminant hplace hvariant =>
    exact .tagged (hpair (.of_spanless (Place.decode_spanless _) hplace) (.numeral hvariant))
  | assert hassertion =>
    have hassertion := Assertion.decode_iff.2 hassertion
    exact .tagged (.packed (.of_spanless (Assertion.decode_spanless _) hassertion))
  | call htarget =>
    have htarget := Call.decode_iff.2 ⟨_, htarget⟩
    exact .tagged (.packed (.of_spanless (Call.decode_spanless _) htarget))
  | «break» hdepth | «continue» hdepth => exact .tagged (.packed (.numeral hdepth))
  | panic | «return» | nop => exact .nil fun _ => Json.not_uses_str
  | sequence hfirst hrest =>
    exact .tagged (.arr_cons hfirst.single (.arr_cons hrest.single .arr_nil))
  | switch hchoice => exact .tagged (.packed hchoice)
  | loop hbody => exact .tagged (.packed hbody.single)

/-- The statements that are read from a switch are those of its branches. -/
theorem Switch.Form.allReadFrom {v : Json} {choice : Switch} {p : Packing}
    (h : Form (fun s _ w => s.ReadFrom table w) choice p v) :
    Statement.AllReadFrom table v choice.parts := by
  cases h with
  | cond htest ht he =>
    exact .tagged (.arr_cons (.of_spanless (Operand.decode_spanless _) htest)
      (.arr_cons ht.single (.arr_cons he.single .arr_nil)))
  | @values _ _ ty _ _ _ _ _ hdiscr hbs _ ho =>
    have hdiscr : Statement.AllReadFrom table _ [] :=
      .of_spanless (Operand.decode_spanless _) hdiscr
    have hty : Statement.AllReadFrom table (.str ty.tag) [] := .nil fun _ => Json.not_uses_str
    have hbs := Statement.AllReadFrom.branches
      (fun l q v hl => .of_spanless (Scalar.decode_spanless v) (Scalar.decode_iff.2 ⟨q, hl⟩)) hbs
    have hrest := Statement.AllReadFrom.arr_cons hbs (.arr_cons ho.single .arr_nil)
    have hall := Statement.AllReadFrom.arr_cons hdiscr (.arr_cons hty hrest)
    exact .tagged hall
  | variants hplace hbs ho =>
    have hplace : Statement.AllReadFrom table _ [] :=
      .of_spanless (Place.decode_spanless _) hplace
    have hbs := Statement.AllReadFrom.branches (fun l q v hl => .numeral hl) hbs
    have hrest := Statement.AllReadFrom.arr_cons hbs (.arr_cons ho.single .arr_nil)
    have hall := Statement.AllReadFrom.arr_cons hplace hrest
    exact .tagged hall

/-- **Statements and their nodes.** The statements that occur in a decoded statement, at any depth,
are those that the decoder reads from the nodes of the document. -/
theorem Statement.reads_iff_occurs {v : Json} {s : Statement}
    (h : (Statement.decode table v).Yields s) (t : Statement) :
    v.Reads table t ↔ t.Occurs s := by
  refine Statement.decode_induction
    (P := fun w s => s.ReadFrom table w)
    (Q := fun w content => Statement.AllReadFrom table w content.parts)
    (S := fun w choice => Statement.AllReadFrom table w choice.parts) ?_ ?_ ?_ v s h t
  · intro v s p hs hform t
    have hroot : (Statement.decode table v).Yields t ↔ t = s :=
      ⟨fun ht => ht.unique hs, fun heq => heq ▸ hs⟩
    obtain ⟨hv, ho, hc⟩ := hform
    rw [Json.reads_record hv, hroot, Statement.occurs_iff]
    simp [ho.not_reads, hc t, Statement.content]
  · intro v content p hform
    exact hform.allReadFrom
  · intro v choice p hform
    exact hform.allReadFrom

end BorrowIR
