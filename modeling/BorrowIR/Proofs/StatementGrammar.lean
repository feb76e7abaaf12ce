import BorrowIR.Proofs.StatementWire

/-!
# Decoding statements

* `Statement.decode_form`, `RawStatement.decode_form`, `Switch.decode_form`: one step of a decoder
  reads one layer of the grammar;
* `Statement.decode_iff_wire_wellFormed`: the decoder of statements accepts the written forms of
  statements, and the well-formed statements are those that have one, and have one in every packing.
-/

namespace BorrowIR

open Decode Outcome Wire

/-! ## Decoders that never accept a list -/

theorem Decode.natural_arr (elems : List Json) (n : Nat) : ¬ (natural (.arr elems)).Yields n := by
  rw [natural_yields]
  rintro ⟨text, h, -⟩
  cases h

theorem Place.decode_arr (elems : List Json) (place : Place) :
    ¬ (Place.decode (.arr elems)).Yields place := by
  rw [Place.decode, yields_within]
  exact record_arr_bind place

theorem Assertion.decode_arr (elems : List Json) (assertion : Assertion) :
    ¬ (Assertion.decode (.arr elems)).Yields assertion := by
  rw [Assertion.decode, yields_within]
  exact record_arr_bind assertion

theorem Call.decode_arr (elems : List Json) (call : Call) :
    ¬ (Call.decode (.arr elems)).Yields call := by
  rw [Call.decode, yields_within]
  exact record_arr_bind call

/-- A statement is a record, so it is never a list. -/
theorem Statement.decode_arr {table : FileTable} (elems : List Json) (s : Statement) :
    ¬ (Statement.decode table (.arr elems)).Yields s := by
  rw [Statement.decode, yields_within]
  exact record_arr_bind s

/-- A switch is a variant, so it is never a list. -/
theorem Switch.decode_arr {table : FileTable} (elems : List Json) (choice : Switch) :
    ¬ (Switch.decode table (.arr elems)).Yields choice := by
  rw [Switch.decode, yields_within]
  exact variant_arr_bind choice

/-! ## Calls and assertions -/

theorem BuiltinFun.decode_yields {v : Json} {fn : BuiltinFun} :
    (BuiltinFun.decode v).Yields fn ↔ v = .str fn.tag := by
  unfold BuiltinFun.decode
  rw [yields_within]
  exact tagOnly_yields (by intro a; cases a <;> rfl)

theorem BuiltinFun.decode_arr (elems : List Json) (fn : BuiltinFun) :
    ¬ (BuiltinFun.decode (.arr elems)).Yields fn := by
  rw [BuiltinFun.decode_yields]; nofun

theorem Callee.decode_iff {v : Json} {callee : Callee} :
    (Callee.decode v).Yields callee ↔ ∃ p, callee.Wire p v := by
  constructor
  · intro h
    obtain ⟨t, hv, h⟩ := yields_within_bind.1 h
    split at h
    · obtain ⟨own, w, id, hv, hid, rfl⟩ := tagged_of_entityId hv h
      rw [hv]
      exact ⟨fun _ => own, .declared hid⟩
    · obtain ⟨own, w, fn, hv, hfn, rfl⟩ := tagged_of_wrapped BuiltinFun.decode_arr hv h
      rw [hv, BuiltinFun.decode_yields.1 hfn]
      exact ⟨fun _ => own, .builtin⟩
    · exact (yields_fail.1 h).elim
  · rintro ⟨p, h⟩
    rw [Callee.decode, yields_within]
    cases h with
    | declared hid => rw [variant_tagged_bind]; exact entityId_of_tagged _ hid
    | builtin =>
      rw [variant_tagged_bind]
      exact wrapped_of_tagged BuiltinFun.decode_arr _ (BuiltinFun.decode_yields.2 rfl)

theorem Call.decode_iff {v : Json} {call : Call} :
    (Call.decode v).Yields call ↔ ∃ p, call.Wire p v := by
  rw [Call.decode, yields_within, record_bind (by decide)]
  constructor
  · rintro ⟨⟨⟨f, _⟩, ⟨rs, _⟩, ⟨ts, _⟩, ⟨as, _⟩, ⟨d, _⟩⟩, hv, h⟩
    change v.IsRecord [("func", f), ("region_args", rs), ("type_args", ts), ("args", as),
      ("dest", d)] at hv
    simp only [yields_bind, yields_pure, list_yields, Callee.decode_iff,
      ErasedRegion.decode_yields] at h
    obtain ⟨callee, ⟨p, hcallee⟩, regions, ⟨rs, rfl, hrs⟩, types, ⟨ts, rfl, hts⟩, args,
      ⟨as, rfl, has⟩, dest, hdest, rfl⟩ := h
    exact ⟨p, .mk hv hcallee hrs hts has hdest⟩
  · rintro ⟨p, hv, hcallee, hrs, hts, has, hdest⟩
    refine ⟨(⟨_, hv.sizeOf_lt (by simp)⟩, ⟨_, hv.sizeOf_lt (by simp)⟩,
      ⟨_, hv.sizeOf_lt (by simp)⟩, ⟨_, hv.sizeOf_lt (by simp)⟩, ⟨_, hv.sizeOf_lt (by simp)⟩),
      hv, ?_⟩
    simp only [yields_bind, yields_pure, list_yields, Callee.decode_iff,
      ErasedRegion.decode_yields]
    exact ⟨_, ⟨p, hcallee⟩, _, ⟨_, rfl, hrs⟩, _, ⟨_, rfl, hts⟩, _, ⟨_, rfl, has⟩, _, hdest, rfl⟩

/-- An assertion is read from its written form. There is nothing in it that could be packed. -/
theorem Assertion.decode_iff {v : Json} {assertion : Assertion} :
    (Assertion.decode v).Yields assertion ↔ assertion.Wire v := by
  rw [Assertion.decode, yields_within, record_bind (by decide)]
  constructor
  · rintro ⟨⟨⟨c, _⟩, ⟨e, _⟩⟩, hv, h⟩
    simp only [yields_bind, yields_pure, bool_yields] at h
    obtain ⟨cond, hcond, expected, rfl, rfl⟩ := h
    exact .mk hv hcond
  · rintro ⟨hv, hcond⟩
    refine ⟨(⟨_, hv.sizeOf_lt (by simp)⟩, ⟨_, hv.sizeOf_lt (by simp)⟩), hv, ?_⟩
    simp only [yields_bind, yields_pure, bool_yields]
    exact ⟨_, hcond, _, rfl, rfl⟩

/-! ## One step of the decoders -/

variable {table : FileTable}

/-- The statements that the decoder reads from a node, as forms of themselves. -/
def Statement.Read (table : FileTable) (s : Statement) (_ : Packing) (v : Json) : Prop :=
  (Statement.decode table v).Yields s

/-- The contents that the decoder reads from a node. -/
def RawStatement.Read (table : FileTable) (content : RawStatement) (_ : Packing) (v : Json) :
    Prop :=
  (RawStatement.decode table v).Yields content

/-- The switches that the decoder reads from a node. -/
def Switch.Read (table : FileTable) (choice : Switch) (_ : Packing) (v : Json) : Prop :=
  (Switch.decode table v).Yields choice

/-- A statement is read from a record of a provenance and of what the decoder reads for the
content. -/
theorem Statement.decode_form {v : Json} {s : Statement} :
    (Statement.decode table v).Yields s ↔
      ∃ p, Statement.Form table (RawStatement.Read table) s p v := by
  rw [Statement.decode, yields_within, record_bind (by decide)]
  constructor
  · rintro ⟨⟨⟨o, _⟩, ⟨c, _⟩⟩, hv, h⟩
    simp only [yields_bind, yields_pure, Provenance.decode_iff] at h
    obtain ⟨origin, ⟨p, ho⟩, content, hc, rfl⟩ := h
    exact ⟨.join false [p], .mk hv ho hc⟩
  · rintro ⟨p, hv, ho, hc⟩
    refine ⟨(⟨_, hv.sizeOf_lt (by simp)⟩, ⟨_, hv.sizeOf_lt (by simp)⟩), hv, ?_⟩
    simp only [yields_bind, yields_pure, Provenance.decode_iff]
    exact ⟨_, ⟨_, ho⟩, _, hc, rfl⟩

/-- What a statement does is read from a form whose statements and switches are what the decoder
reads. -/
theorem RawStatement.form_of_decode {v : Json} {content : RawStatement}
    (h : (RawStatement.decode table v).Yields content) :
    ∃ p, RawStatement.Form (Statement.Read table) (Switch.Read table) content p v := by
  rw [RawStatement.decode, yields_within_bind] at h
  obtain ⟨t, hv, h⟩ := h
  -- one case for each tag, in the order of the constructors
  split at h <;>
    simp only [wrappedBelow_const, yields_bind, yields_map, yields_pure, yields_fail,
      natural_yields, entityId_yields, wrapped_yields natural_arr, wrapped_yields Place.decode_arr,
      wrapped_yields Assertion.decode_arr, Assertion.decode_iff, wrapped_yields Call.decode_arr,
      Call.decode_iff, wrapped_yields Statement.decode_arr, wrapped_yields Switch.decode_arr,
      Prod.exists, Subtype.exists] at h <;>
    simp only [variant_yields_none, variant_yields_some] at hv
  case h_1 =>
    obtain ⟨d, _, r, _, hw, dest, hdest, value, hvalue, rfl⟩ := h
    rw [components_yields] at hw
    rw [hv, hw]
    exact ⟨.bare, .assign hdest hvalue⟩
  case h_2 =>
    obtain ⟨place, ⟨own, w, hw, hplace⟩, rfl⟩ := h
    rw [hv, hw]
    exact ⟨fun _ => own, .fakeRead hplace⟩
  case h_3 =>
    obtain ⟨d, _, n, _, hw, place, hplace, variant, hvariant, rfl⟩ := h
    rw [components_yields] at hw
    rw [hv, hw]
    exact ⟨.bare, .setDiscriminant hplace hvariant⟩
  case h_4 =>
    obtain ⟨place, ⟨own, w, hw, hplace⟩, rfl⟩ := h
    rw [hv, hw]
    exact ⟨fun _ => own, .drop hplace⟩
  case h_5 =>
    obtain ⟨assertion, ⟨own, w, hw, hassertion⟩, rfl⟩ := h
    rw [hv, hw]
    exact ⟨fun _ => own, .assert hassertion⟩
  case h_6 =>
    obtain ⟨target, ⟨own, w, hw, q, htarget⟩, rfl⟩ := h
    rw [hv, hw]
    exact ⟨.join own [q], .call htarget⟩
  case h_7 => rw [hv, ← h]; exact ⟨.bare, .panic⟩
  case h_8 => rw [hv, ← h]; exact ⟨.bare, .return⟩
  case h_9 =>
    obtain ⟨depth, ⟨own, w, hw, hdepth⟩, rfl⟩ := h
    rw [hv, hw]
    exact ⟨fun _ => own, .break hdepth⟩
  case h_10 =>
    obtain ⟨depth, ⟨own, w, hw, hdepth⟩, rfl⟩ := h
    rw [hv, hw]
    exact ⟨fun _ => own, .continue hdepth⟩
  case h_11 => rw [hv, ← h]; exact ⟨.bare, .nop⟩
  case h_12 =>
    obtain ⟨f, _, r, _, hw, first, hfirst, rest, hrest, rfl⟩ := h
    rw [components_yields] at hw
    rw [hv, hw]
    exact ⟨.bare, .sequence hfirst hrest⟩
  case h_13 =>
    obtain ⟨choice, ⟨own, w, hw, hchoice⟩, rfl⟩ := h
    rw [hv, hw]
    exact ⟨fun _ => own, .switch hchoice⟩
  case h_14 =>
    obtain ⟨body, ⟨own, w, hw, hbody⟩, rfl⟩ := h
    rw [hv, hw]
    exact ⟨fun _ => own, .loop hbody⟩

/-- Each of these forms is read as what it is a form of. -/
theorem RawStatement.decode_of_form {p : Packing} {v : Json} {content : RawStatement}
    (h : RawStatement.Form (Statement.Read table) (Switch.Read table) content p v) :
    (RawStatement.decode table v).Yields content := by
  rw [RawStatement.decode, yields_within]
  cases h with
  | assign hdest hvalue =>
    rw [variant_tagged_bind]
    refine components_two.2 (yields_bind.2 ⟨_, hdest, ?_⟩)
    exact yields_bind.2 ⟨_, hvalue, yields_pure.2 rfl⟩
  | fakeRead hplace | drop hplace =>
    rw [variant_tagged_bind]
    exact wrapped_of_tagged Place.decode_arr _ hplace
  | setDiscriminant hplace hvariant =>
    rw [variant_tagged_bind]
    refine components_two.2 (yields_bind.2 ⟨_, hplace, ?_⟩)
    exact yields_bind.2 ⟨_, entityId_yields.2 hvariant, yields_pure.2 rfl⟩
  | assert hassertion =>
    rw [variant_tagged_bind]
    exact wrapped_of_tagged Assertion.decode_arr _ (Assertion.decode_iff.2 hassertion)
  | call htarget =>
    rw [variant_tagged_bind]
    exact wrapped_of_tagged Call.decode_arr _ (Call.decode_iff.2 ⟨_, htarget⟩)
  | panic | «return» | nop => rw [variant_str_bind]; exact yields_pure.2 rfl
  | «break» hdepth | «continue» hdepth =>
    rw [variant_tagged_bind]
    exact wrapped_of_tagged natural_arr _ (natural_yields.2 hdepth)
  | sequence hfirst hrest =>
    rw [variant_tagged_bind]
    refine components_two.2 (yields_bind.2 ⟨_, hfirst, ?_⟩)
    exact yields_bind.2 ⟨_, hrest, yields_pure.2 rfl⟩
  | switch hchoice =>
    rw [variant_tagged_bind]
    exact wrapped_of_tagged Switch.decode_arr _ hchoice
  | loop hbody =>
    rw [variant_tagged_bind]
    exact wrapped_of_tagged Statement.decode_arr _ hbody

/-- The check of a switch succeeds where all values have the type of the switch. -/
theorem Switch.checkValues_yields {ty : IntTy} {branches : List (List Scalar × Statement)}
    {u : Unit} :
    (checkValues ty branches).Yields u ↔
      ∀ branch ∈ branches, ∀ scalar ∈ branch.1, scalar.ty = ty := by
  have hfind : ((branches.flatMap Prod.fst).find? fun scalar => scalar.ty ≠ ty) = none ↔
      ∀ branch ∈ branches, ∀ scalar ∈ branch.1, scalar.ty = ty := by
    simp only [List.find?_eq_none, List.mem_flatMap, decide_not, Bool.not_eq_true',
      decide_eq_false_iff_not, not_not]
    constructor
    · intro h branch hbranch scalar hscalar
      exact h scalar ⟨branch, hbranch, hscalar⟩
    · rintro h scalar ⟨branch, hbranch, hscalar⟩
      exact h branch hbranch scalar hscalar
  rw [← hfind]
  unfold checkValues
  cases (branches.flatMap Prod.fst).find? fun scalar => scalar.ty ≠ ty <;> simp [yields_fail]

/-- A branch whose parts can be read has a form. -/
theorem Branch.exists_form {L : Type} {label : L → Packing → Json → Prop} {ls : List Json}
    {labels : List L} {b : Json} {body : Statement}
    (hls : List.Forall₂ (fun v a => ∃ q, label a q v) ls labels)
    (hbody : (Statement.decode table b).Yields body) :
    ∃ p, Branch.Form label (Statement.Read table) (labels, body) p (.arr [.arr ls, b]) := by
  obtain ⟨q, hq⟩ := each_of_forall₂ hls
  exact ⟨.join false [q], .mk hq hbody⟩

/-- A switch is read from a form whose statements are what the decoder reads. -/
theorem Switch.form_of_decode {v : Json} {choice : Switch}
    (h : (Switch.decode table v).Yields choice) :
    ∃ p, Switch.Form (Statement.Read table) choice p v := by
  rw [Switch.decode, yields_within_bind] at h
  obtain ⟨t, hv, h⟩ := h
  split at h <;>
    simp only [yields_bind, yields_pure, yields_fail, IntTy.decode_yields, listBelow_yields,
      list_yields, checkValues_yields, Prod.exists, Subtype.exists] at h <;>
    simp only [variant_yields_some] at hv
  case h_1 =>
    obtain ⟨c, _, t, _, e, _, hw, test, htest, thenBranch, ht, elseBranch, he, rfl⟩ := h
    rw [components_yields] at hw
    rw [hv, hw]
    exact ⟨.bare, .cond htest ht he⟩
  case h_2 =>
    obtain ⟨d, _, _, _, _, _, o, _, hw, discr, hdiscr, ty, rfl, branches, ⟨bs, rfl, hbs⟩, -,
      hvalues, otherwise, ho, rfl⟩ := h
    rw [components_yields] at hw
    -- each branch is written in a packing of its own
    have hforms : List.Forall₂ (fun v branch =>
        ∃ q, Branch.Form Scalar.Wire (Statement.Read table) branch q v) bs branches := by
      refine hbs.imp ?_
      rintro part _ ⟨_, _, _, b, _, hw, labels, ⟨ls, rfl, hls⟩, body, hbody, rfl⟩
      rw [components_yields] at hw
      rw [hw]
      exact Branch.exists_form (hls.imp fun v a => Scalar.decode_iff.1) hbody
    obtain ⟨q, hq⟩ := each_of_forall₂ hforms
    rw [hv, hw]
    exact ⟨.join false [q], .values hdiscr hq hvalues ho⟩
  case h_3 =>
    obtain ⟨d, _, _, _, o, _, hw, place, hplace, branches, ⟨bs, rfl, hbs⟩, otherwise, ho, rfl⟩ := h
    rw [components_yields] at hw
    have hforms : List.Forall₂ (fun v branch =>
        ∃ q, Branch.Form EntityId.Wire (Statement.Read table) branch q v) bs branches := by
      refine hbs.imp ?_
      rintro part _ ⟨_, _, _, b, _, hw, labels, ⟨ls, rfl, hls⟩, body, hbody, rfl⟩
      rw [components_yields] at hw
      rw [hw]
      exact Branch.exists_form (hls.imp fun v a h => ⟨.bare, entityId_yields.1 h⟩) hbody
    obtain ⟨q, hq⟩ := each_of_forall₂ hforms
    rw [hv, hw]
    exact ⟨.join false [q], .variants hplace hq ho⟩

theorem Switch.decode_of_form {p : Packing} {v : Json} {choice : Switch}
    (h : Switch.Form (Statement.Read table) choice p v) :
    (Switch.decode table v).Yields choice := by
  rw [Switch.decode, yields_within]
  cases h with
  | cond htest ht he =>
    rw [variant_tagged_bind]
    refine components_three.2 (yields_bind.2 ⟨_, htest, ?_⟩)
    exact yields_bind.2 ⟨_, ht, yields_bind.2 ⟨_, he, yields_pure.2 rfl⟩⟩
  | values hdiscr hbs hvalues ho =>
    rw [variant_tagged_bind]
    refine components_four.2 (yields_bind.2 ⟨_, hdiscr, ?_⟩)
    refine yields_bind.2 ⟨_, IntTy.decode_yields.2 rfl, ?_⟩
    refine yields_bind.2 ⟨_, listBelow_of_forall₂ hbs.forall₂ ?_, ?_⟩
    · rintro part _ branch ⟨q, hls, hbody⟩
      have hlabels := list_yields.2 ⟨_, rfl, hls.forall₂.imp fun v a => Scalar.decode_iff.2⟩
      refine components_two.2 (yields_bind.2 ⟨_, hlabels, ?_⟩)
      exact yields_bind.2 ⟨_, hbody, yields_pure.2 rfl⟩
    · refine yields_bind.2 ⟨(), Switch.checkValues_yields.2 hvalues, ?_⟩
      exact yields_bind.2 ⟨_, ho, yields_pure.2 rfl⟩
  | variants hplace hbs ho =>
    rw [variant_tagged_bind]
    refine components_three.2 (yields_bind.2 ⟨_, hplace, ?_⟩)
    refine yields_bind.2 ⟨_, listBelow_of_forall₂ hbs.forall₂ ?_, ?_⟩
    · rintro part _ branch ⟨q, hls, hbody⟩
      have hlabels := list_yields.2
        ⟨_, rfl, hls.forall₂.imp fun v a ⟨_, h⟩ => entityId_yields.2 h⟩
      refine components_two.2 (yields_bind.2 ⟨_, hlabels, ?_⟩)
      exact yields_bind.2 ⟨_, hbody, yields_pure.2 rfl⟩
    · exact yields_bind.2 ⟨_, ho, yields_pure.2 rfl⟩

/-! ## Layers on top of one another -/

variable {statement statement' : Statement → Packing → Json → Prop}
  {raw raw' : RawStatement → Packing → Json → Prop}
  {switch switch' : Switch → Packing → Json → Prop}

/-- A layer depends on what is smaller than its node only. -/
theorem Statement.Form.imp {s : Statement} {p : Packing} {v : Json} (h : Form table raw s p v)
    (hraw : ∀ content q w, sizeOf w < sizeOf v → raw content q w → raw' content q w) :
    Form table raw' s p v := by
  cases h with
  | mk hv ho hc => exact .mk hv ho (hraw _ _ _ (hv.sizeOf_lt (by simp)) hc)

/-- What is known of the statements and switches in a form may be replaced on all smaller nodes. -/
theorem RawStatement.Form.imp {content : RawStatement} {p : Packing} {v : Json}
    (h : Form statement switch content p v)
    (hstatement : ∀ s q w, sizeOf w < sizeOf v → statement s q w → statement' s q w)
    (hswitch : ∀ choice q w, sizeOf w < sizeOf v → switch choice q w → switch' choice q w) :
    Form statement' switch' content p v := by
  cases h with
  | assign hdest hvalue => exact .assign hdest hvalue
  | fakeRead hplace => exact .fakeRead hplace
  | setDiscriminant hplace hvariant => exact .setDiscriminant hplace hvariant
  | drop hplace => exact .drop hplace
  | assert hassertion => exact .assert hassertion
  | call htarget => exact .call htarget
  | panic => exact .panic
  | «return» => exact .return
  | «break» hdepth => exact .break hdepth
  | «continue» hdepth => exact .continue hdepth
  | nop => exact .nop
  | sequence hfirst hrest =>
    have hfirst := hstatement _ _ _ (Json.sizeOf_lt_tagged_arr _ (by simp)) hfirst
    have hrest := hstatement _ _ _ (Json.sizeOf_lt_tagged_arr _ (by simp)) hrest
    exact .sequence hfirst hrest
  | switch hchoice => exact .switch (hswitch _ _ _ (Json.sizeOf_lt_tagged_packed _ _ _) hchoice)
  | loop hbody => exact .loop (hstatement _ _ _ (Json.sizeOf_lt_tagged_packed _ _ _) hbody)

theorem Branch.Form.imp {L : Type} {label : L → Packing → Json → Prop}
    {branch : List L × Statement} {p : Packing} {v : Json} (h : Form label statement branch p v)
    (hstatement : ∀ s q w, sizeOf w < sizeOf v → statement s q w → statement' s q w) :
    Form label statement' branch p v := by
  cases h with
  | mk hls hbody =>
    exact .mk hls (hstatement _ _ _ (Json.sizeOf_lt_of_mem_arr (by simp)) hbody)

/-- What is known of the statements in the branches may be replaced on all smaller nodes. -/
theorem Switch.Form.imp {choice : Switch} {p : Packing} {v : Json} (h : Form statement choice p v)
    (hstatement : ∀ s q w, sizeOf w < sizeOf v → statement s q w → statement' s q w) :
    Form statement' choice p v := by
  -- the branches are two levels below the payload
  have hbelow : ∀ {tag : String} {elems bs : List Json} {b : Json}, Json.arr bs ∈ elems → b ∈ bs →
      sizeOf b < sizeOf (Json.tagged tag (.arr elems)) := by
    intro tag elems bs b hbs hb
    exact Nat.lt_trans (Json.sizeOf_lt_of_mem_arr hb) (Json.sizeOf_lt_tagged_arr _ hbs)
  cases h with
  | cond htest ht he =>
    have ht := hstatement _ _ _ (Json.sizeOf_lt_tagged_arr _ (by simp)) ht
    have he := hstatement _ _ _ (Json.sizeOf_lt_tagged_arr _ (by simp)) he
    exact .cond htest ht he
  | values hdiscr hbs hvalues ho =>
    have ho := hstatement _ _ _ (Json.sizeOf_lt_tagged_arr _ (by simp)) ho
    refine .values hdiscr (hbs.imp fun branch q b hb hform => ?_) hvalues ho
    exact hform.imp fun s q w hw => hstatement s q w (Nat.lt_trans hw (hbelow (by simp) hb))
  | variants hplace hbs ho =>
    have ho := hstatement _ _ _ (Json.sizeOf_lt_tagged_arr _ (by simp)) ho
    refine .variants hplace (hbs.imp fun branch q b hb hform => ?_) ho
    exact hform.imp fun s q w hw => hstatement s q w (Nat.lt_trans hw (hbelow (by simp) hb))

/-- Parts that are written each in its own packing are written in one packing. -/
theorem Statement.Form.gather {s : Statement} {p : Packing} {v : Json}
    (h : Form table (fun content _ w => ∃ q, raw content q w) s p v) :
    ∃ q, Form table raw s q v := by
  cases h with
  | mk hv ho hc =>
    obtain ⟨q, hc⟩ := hc
    exact ⟨.join false [p.child 0, q], .mk hv ho hc⟩

/-- Packings of the statements in a form are put together to one packing. -/
theorem RawStatement.Form.gather {content : RawStatement} {p : Packing} {v : Json}
    (h : Form (fun s _ w => ∃ q, statement s q w) (fun choice _ w => ∃ q, switch choice q w)
      content p v) : ∃ q, Form statement switch content q v := by
  cases h with
  | assign hdest hvalue => exact ⟨p, .assign hdest hvalue⟩
  | fakeRead hplace => exact ⟨p, .fakeRead hplace⟩
  | setDiscriminant hplace hvariant => exact ⟨p, .setDiscriminant hplace hvariant⟩
  | drop hplace => exact ⟨p, .drop hplace⟩
  | assert hassertion => exact ⟨p, .assert hassertion⟩
  | call htarget => exact ⟨p, .call htarget⟩
  | panic => exact ⟨p, .panic⟩
  | «return» => exact ⟨p, .return⟩
  | «break» hdepth => exact ⟨p, .break hdepth⟩
  | «continue» hdepth => exact ⟨p, .continue hdepth⟩
  | nop => exact ⟨p, .nop⟩
  | sequence hfirst hrest =>
    obtain ⟨q, hfirst⟩ := hfirst
    obtain ⟨o, hrest⟩ := hrest
    exact ⟨.join false [q, o], .sequence hfirst hrest⟩
  | switch hchoice =>
    obtain ⟨q, hchoice⟩ := hchoice
    exact ⟨.join p.own [q], .switch hchoice⟩
  | loop hbody =>
    obtain ⟨q, hbody⟩ := hbody
    exact ⟨.join p.own [q], .loop hbody⟩

theorem Branch.gather {L : Type} {label : L → Packing → Json → Prop}
    {branches : List (List L × Statement)} {p : Packing} {bs : List Json}
    (h : Each (Branch.Form label fun s _ w => ∃ q, statement s q w) branches p bs) :
    ∃ q, Each (Branch.Form label statement) branches q bs := by
  refine each_of_forall₂ (h.forall₂.imp ?_)
  rintro b _ ⟨q, hls, hbody⟩
  obtain ⟨o, hbody⟩ := hbody
  exact ⟨.join false [q.child 0, o], .mk hls hbody⟩

/-- Packings of the statements in the branches are put together to one packing. -/
theorem Switch.Form.gather {choice : Switch} {p : Packing} {v : Json}
    (h : Form (fun s _ w => ∃ q, statement s q w) choice p v) :
    ∃ q, Form statement choice q v := by
  cases h with
  | cond htest ht he =>
    obtain ⟨q, ht⟩ := ht
    obtain ⟨o, he⟩ := he
    exact ⟨.join false [q, o], .cond htest ht he⟩
  | values hdiscr hbs hvalues ho =>
    obtain ⟨q, hbs⟩ := Branch.gather hbs
    obtain ⟨o, ho⟩ := ho
    exact ⟨.join false [q, o], .values hdiscr hbs hvalues ho⟩
  | variants hplace hbs ho =>
    obtain ⟨q, hbs⟩ := Branch.gather hbs
    obtain ⟨o, ho⟩ := ho
    exact ⟨.join false [q, o], .variants hplace hbs ho⟩

/-! ## The decoder and the grammar -/

/-- On nodes of every size, the three decoders accept the forms of the grammar. -/
theorem decode_iff_wire_of_size (table : FileTable) (n : Nat) :
    ∀ v : Json, sizeOf v = n →
      (∀ s, (Statement.decode table v).Yields s ↔ ∃ p, Statement.Wire table s p v) ∧
      (∀ content, (RawStatement.decode table v).Yields content ↔
        ∃ p, RawStatement.Wire table content p v) ∧
      ∀ choice, (Switch.decode table v).Yields choice ↔ ∃ p, Switch.Wire table choice p v := by
  induction n using Nat.strongRecOn with
  | ind n ih =>
    rintro v rfl
    have hstatement : ∀ w s, sizeOf w < sizeOf v →
        ((Statement.decode table w).Yields s ↔ ∃ p, Statement.Wire table s p w) := by
      intro w s hw
      exact (ih _ hw w rfl).1 s
    have hraw : ∀ w content, sizeOf w < sizeOf v →
        ((RawStatement.decode table w).Yields content ↔
          ∃ p, RawStatement.Wire table content p w) := by
      intro w content hw
      exact (ih _ hw w rfl).2.1 content
    have hswitch : ∀ w choice, sizeOf w < sizeOf v →
        ((Switch.decode table w).Yields choice ↔ ∃ p, Switch.Wire table choice p w) := by
      intro w choice hw
      exact (ih _ hw w rfl).2.2 choice
    -- one step of the decoder gives the layer at the top, the induction those below it
    refine ⟨fun s => ?_, fun content => ?_, fun choice => ?_⟩
    · rw [Statement.decode_form]
      constructor
      · rintro ⟨p, h⟩
        obtain ⟨q, hq⟩ := (h.imp fun content _ w hw => (hraw w content hw).1).gather
        exact ⟨q, .intro hq⟩
      · rintro ⟨p, ⟨h⟩⟩
        exact ⟨p, h.imp fun content q w hw hc => (hraw w content hw).2 ⟨q, hc⟩⟩
    · constructor
      · intro h
        obtain ⟨p, hp⟩ := RawStatement.form_of_decode h
        obtain ⟨q, hq⟩ := (hp.imp (fun s _ w hw => (hstatement w s hw).1)
          fun choice _ w hw => (hswitch w choice hw).1).gather
        exact ⟨q, .intro hq⟩
      · rintro ⟨p, ⟨h⟩⟩
        exact RawStatement.decode_of_form (h.imp
          (fun s q w hw hs => (hstatement w s hw).2 ⟨q, hs⟩)
          fun choice q w hw hc => (hswitch w choice hw).2 ⟨q, hc⟩)
    · constructor
      · intro h
        obtain ⟨p, hp⟩ := Switch.form_of_decode h
        obtain ⟨q, hq⟩ := (hp.imp fun s _ w hw => (hstatement w s hw).1).gather
        exact ⟨q, .intro hq⟩
      · rintro ⟨p, ⟨h⟩⟩
        exact Switch.decode_of_form (h.imp fun s q w hw hs => (hstatement w s hw).2 ⟨q, hs⟩)

/-- The decoder of statements accepts the written forms of statements. -/
theorem Statement.decode_iff_wire {v : Json} {s : Statement} :
    (Statement.decode table v).Yields s ↔ ∃ p, s.Wire table p v :=
  (decode_iff_wire_of_size table _ v rfl).1 s

/-! ## What can be written -/

theorem Callee.exists_wire_iff {callee : Callee} (p : Packing) :
    (∃ v, callee.Wire p v) ↔ callee.WellFormed := by
  cases callee with
  | declared id =>
    rw [Callee.WellFormed, ← Json.exists_isNumeral]
    constructor
    · rintro ⟨v, ⟨h⟩⟩; exact ⟨_, h⟩
    · rintro ⟨v, h⟩; exact ⟨_, .declared h⟩
  | builtin fn => exact ⟨fun _ => trivial, fun _ => ⟨.tagged "Assumed" _, .builtin⟩⟩

/-- The elements of a list that is read can be read. -/
theorem readable_of_forall₂ {α : Type} {decode : Json → Outcome α} {vs : List Json} {as : List α}
    (h : List.Forall₂ (fun v a => (decode v).Yields a) vs as) :
    ∀ a ∈ as, Readable decode a := by
  induction h with
  | nil => simp
  | cons ha _ ih => exact List.forall_mem_cons.2 ⟨⟨_, ha⟩, ih⟩

/-- Values that can each be read can be read from a list. -/
theorem exists_forall₂_of_readable {α : Type} {decode : Json → Outcome α} {as : List α}
    (h : ∀ a ∈ as, Readable decode a) :
    ∃ vs, List.Forall₂ (fun v a => (decode v).Yields a) vs as := by
  induction as with
  | nil => exact ⟨[], .nil⟩
  | cons a as ih =>
    obtain ⟨⟨v, hv⟩, has⟩ := List.forall_mem_cons.1 h
    obtain ⟨vs, hvs⟩ := ih has
    exact ⟨v :: vs, .cons hv hvs⟩

/-- A call can be written if its parts can be, in every packing. -/
theorem Call.exists_wire_iff {call : Call} (p : Packing) :
    (∃ v, call.Wire p v) ↔ call.WellFormed := by
  constructor
  · rintro ⟨v, -, hcallee, -, hts, has, hdest⟩
    exact ⟨(Callee.exists_wire_iff p).1 ⟨_, hcallee⟩, readable_of_forall₂ hts,
      readable_of_forall₂ has, ⟨_, hdest⟩⟩
  · rintro ⟨hcallee, htypes, hargs, d, hdest⟩
    obtain ⟨f, hf⟩ := (Callee.exists_wire_iff p).2 hcallee
    obtain ⟨ts, hts⟩ := exists_forall₂_of_readable htypes
    obtain ⟨as, has⟩ := exists_forall₂_of_readable hargs
    -- all regions of a call are erased, and written as such
    have hrs : List.Forall₂ (fun v (region : ErasedRegion) => v = .str region.tag)
        (call.regions.map fun region => Json.str region.tag) call.regions := by
      rw [List.forall₂_map_left_iff]
      exact List.forall₂_same.2 fun _ _ => rfl
    exact ⟨_, .mk (Json.isRecord_obj _) hf hrs hts has hdest⟩

/-- Branches can be written if their labels and their bodies can be. -/
theorem Branch.exists_each {L : Type} {label : L → Packing → Json → Prop}
    {branches : List (List L × Statement)}
    (hlabels : ∀ branch ∈ branches, ∀ l ∈ branch.1, ∀ p, ∃ v, label l p v)
    (hbodies : ∀ branch ∈ branches, ∀ p, ∃ v, branch.2.Wire table p v) (p : Packing) :
    ∃ bs, Each (Branch.Form label (Statement.Wire table)) branches p bs := by
  refine each_in (fun branch hbranch p => ?_) p
  obtain ⟨ls, hls⟩ := each_in (hlabels branch hbranch) (p.child 0)
  obtain ⟨b, hb⟩ := hbodies branch hbranch (p.child 1)
  exact ⟨_, .mk hls hb⟩

theorem Branch.sizeOf_lt {L : Type} [SizeOf L] {branches : List (List L × Statement)}
    {branch : List L × Statement} (h : branch ∈ branches) :
    sizeOf branch.2 < sizeOf branches := by
  have hbranch := List.sizeOf_lt_of_mem h
  obtain ⟨labels, body⟩ := branch
  simp only [Prod.mk.sizeOf_spec] at hbranch
  simp only
  omega

mutual
/-- A well formed statement can be written in every packing. -/
theorem Statement.WellFormed.exists_wire {s : Statement} (h : s.WellFormed table) (p : Packing) :
    ∃ v, s.Wire table p v := by
  cases h with
  | mk ho hc =>
    obtain ⟨o, ho⟩ := (Provenance.exists_wire_iff (p.child 0)).2 ho
    obtain ⟨c, hc⟩ := hc.exists_wire (p.child 1)
    exact ⟨_, .intro (.mk (Json.isRecord_obj _) ho hc)⟩
termination_by sizeOf s

theorem RawStatement.WellFormed.exists_wire {content : RawStatement}
    (h : content.WellFormed table) (p : Packing) : ∃ v, content.Wire table p v := by
  cases h with
  | assign hdest hvalue =>
    obtain ⟨_, hdest⟩ := hdest
    obtain ⟨_, hvalue⟩ := hvalue
    exact ⟨_, .intro (.assign hdest hvalue)⟩
  | fakeRead hplace =>
    obtain ⟨_, hplace⟩ := hplace
    exact ⟨_, .intro (.fakeRead hplace)⟩
  | setDiscriminant hplace hvariant =>
    obtain ⟨_, hplace⟩ := hplace
    obtain ⟨_, hvariant⟩ := Json.exists_isNumeral.2 hvariant
    exact ⟨_, .intro (.setDiscriminant hplace hvariant)⟩
  | drop hplace =>
    obtain ⟨_, hplace⟩ := hplace
    exact ⟨_, .intro (.drop hplace)⟩
  | assert hcond =>
    obtain ⟨_, hcond⟩ := hcond
    exact ⟨_, .intro (.assert (.mk (Json.isRecord_obj _) hcond))⟩
  | call htarget =>
    obtain ⟨_, htarget⟩ := (Call.exists_wire_iff (p.child 0)).2 htarget
    exact ⟨_, .intro (.call htarget)⟩
  | panic => exact ⟨_, .intro .panic⟩
  | «return» => exact ⟨_, .intro .return⟩
  | «break» hdepth =>
    obtain ⟨_, hdepth⟩ := Json.exists_isNumeral.2 hdepth
    exact ⟨_, .intro (.break hdepth)⟩
  | «continue» hdepth =>
    obtain ⟨_, hdepth⟩ := Json.exists_isNumeral.2 hdepth
    exact ⟨_, .intro (.continue hdepth)⟩
  | nop => exact ⟨_, .intro .nop⟩
  | sequence hfirst hrest =>
    obtain ⟨_, hfirst⟩ := hfirst.exists_wire (p.child 0)
    obtain ⟨_, hrest⟩ := hrest.exists_wire (p.child 1)
    exact ⟨_, .intro (.sequence hfirst hrest)⟩
  | switch hchoice =>
    obtain ⟨_, hchoice⟩ := hchoice.exists_wire (p.child 0)
    exact ⟨_, .intro (.switch hchoice)⟩
  | loop hbody =>
    obtain ⟨_, hbody⟩ := hbody.exists_wire (p.child 0)
    exact ⟨_, .intro (.loop hbody)⟩
termination_by sizeOf content

/-- So can a switch, with all of its branches. -/
theorem Switch.WellFormed.exists_wire {choice : Switch} (h : choice.WellFormed table)
    (p : Packing) : ∃ v, choice.Wire table p v := by
  cases h with
  | cond htest ht he =>
    obtain ⟨_, htest⟩ := htest
    obtain ⟨_, ht⟩ := ht.exists_wire (p.child 0)
    obtain ⟨_, he⟩ := he.exists_wire (p.child 1)
    exact ⟨_, .intro (.cond htest ht he)⟩
  | values hdiscr hvalues hbodies ho =>
    obtain ⟨_, hdiscr⟩ := hdiscr
    obtain ⟨_, hbs⟩ := Branch.exists_each (fun _ _ scalar _ => scalar.exists_wire)
      (fun branch hbranch q =>
        have := Branch.sizeOf_lt hbranch
        (hbodies branch hbranch).exists_wire q) (p.child 0)
    obtain ⟨_, ho⟩ := ho.exists_wire (p.child 1)
    exact ⟨_, .intro (.values hdiscr hbs hvalues ho)⟩
  | variants hplace hvariants hbodies ho =>
    obtain ⟨_, hplace⟩ := hplace
    obtain ⟨_, hbs⟩ := Branch.exists_each
      (fun branch hbranch id hid _ => Json.exists_isNumeral.2 (hvariants branch hbranch id hid))
      (fun branch hbranch q =>
        have := Branch.sizeOf_lt hbranch
        (hbodies branch hbranch).exists_wire q) (p.child 0)
    obtain ⟨_, ho⟩ := ho.exists_wire (p.child 1)
    exact ⟨_, .intro (.variants hplace hbs ho)⟩
termination_by sizeOf choice
end

/-- A layer on top of well-formed parts is well formed. -/
theorem Statement.Form.wellFormed {s : Statement} {p : Packing} {v : Json}
    (h : Form table (fun content _ _ => content.WellFormed table) s p v) :
    s.WellFormed table := by
  cases h with
  | mk _ ho hc => exact .mk ((Provenance.exists_wire_iff _).1 ⟨_, ho⟩) hc

/-- What is written in a form is well formed if the statements and switches in it are. -/
theorem RawStatement.Form.wellFormed {content : RawStatement} {p : Packing} {v : Json}
    (h : Form (fun s _ _ => s.WellFormed table) (fun choice _ _ => choice.WellFormed table)
      content p v) : content.WellFormed table := by
  cases h with
  | assign hdest hvalue => exact .assign ⟨_, hdest⟩ ⟨_, hvalue⟩
  | fakeRead hplace => exact .fakeRead ⟨_, hplace⟩
  | setDiscriminant hplace hvariant =>
    exact .setDiscriminant ⟨_, hplace⟩ (Json.exists_isNumeral.1 ⟨_, hvariant⟩)
  | drop hplace => exact .drop ⟨_, hplace⟩
  | assert hassertion =>
    obtain ⟨-, hcond⟩ := hassertion
    exact .assert ⟨_, hcond⟩
  | call htarget => exact .call ((Call.exists_wire_iff _).1 ⟨_, htarget⟩)
  | panic => exact .panic
  | «return» => exact .return
  | «break» hdepth => exact .break (Json.exists_isNumeral.1 ⟨_, hdepth⟩)
  | «continue» hdepth => exact .continue (Json.exists_isNumeral.1 ⟨_, hdepth⟩)
  | nop => exact .nop
  | sequence hfirst hrest => exact .sequence hfirst hrest
  | switch hchoice => exact .switch hchoice
  | loop hbody => exact .loop hbody

/-- A switch that is written in a form is well formed if the statements in it are. -/
theorem Switch.Form.wellFormed {choice : Switch} {p : Packing} {v : Json}
    (h : Form (fun s _ _ => s.WellFormed table) choice p v) : choice.WellFormed table := by
  cases h with
  | cond htest ht he => exact .cond ⟨_, htest⟩ ht he
  | values hdiscr hbs hvalues ho =>
    refine .values ⟨_, hdiscr⟩ hvalues (fun branch hbranch => ?_) ho
    obtain ⟨_, _, _, ⟨_, hbody⟩⟩ := hbs.exists_of_mem branch hbranch
    exact hbody
  | variants hplace hbs ho =>
    refine .variants ⟨_, hplace⟩ (fun branch hbranch id hid => ?_) (fun branch hbranch => ?_) ho
    · obtain ⟨_, _, _, ⟨hls, _⟩⟩ := hbs.exists_of_mem branch hbranch
      obtain ⟨_, _, _, hid⟩ := hls.exists_of_mem id hid
      exact Json.exists_isNumeral.1 ⟨_, hid⟩
    · obtain ⟨_, _, _, ⟨_, hbody⟩⟩ := hbs.exists_of_mem branch hbranch
      exact hbody

/-- On nodes of every size, what is written is well formed. -/
theorem wellFormed_of_wire_of_size (table : FileTable) (n : Nat) :
    ∀ v : Json, sizeOf v = n →
      (∀ s p, Statement.Wire table s p v → s.WellFormed table) ∧
      (∀ content p, RawStatement.Wire table content p v → content.WellFormed table) ∧
      ∀ choice p, Switch.Wire table choice p v → choice.WellFormed table := by
  induction n using Nat.strongRecOn with
  | ind n ih =>
    rintro v rfl
    have hstatement : ∀ s q w, sizeOf w < sizeOf v → Statement.Wire table s q w →
        s.WellFormed table := by
      intro s q w hw hs
      exact (ih _ hw w rfl).1 s q hs
    have hraw : ∀ content q w, sizeOf w < sizeOf v → RawStatement.Wire table content q w →
        content.WellFormed table := by
      intro content q w hw hc
      exact (ih _ hw w rfl).2.1 content q hc
    have hswitch : ∀ choice q w, sizeOf w < sizeOf v → Switch.Wire table choice q w →
        choice.WellFormed table := by
      intro choice q w hw hc
      exact (ih _ hw w rfl).2.2 choice q hc
    refine ⟨?_, ?_, ?_⟩
    · rintro s p ⟨h⟩
      exact (h.imp hraw).wellFormed
    · rintro content p ⟨h⟩
      exact (h.imp hstatement hswitch).wellFormed
    · rintro choice p ⟨h⟩
      exact (h.imp hstatement).wellFormed

/-- **The grammar of statements.** For all files, the decoder accepts the written forms of
statements, each as the statement that it is a form of. The statements that can be written are the
well-formed ones, and each of them can be written in every packing. -/
theorem Statement.decode_iff_wire_wellFormed (table : FileTable) (s : Statement) :
    (∀ v, (Statement.decode table v).Yields s ↔ ∃ p, s.Wire table p v) ∧
      ∀ p, s.WellFormed table ↔ ∃ v, s.Wire table p v := by
  constructor
  · intro v
    exact Statement.decode_iff_wire
  · intro p
    constructor
    · intro h
      exact h.exists_wire p
    · rintro ⟨v, h⟩
      exact (wellFormed_of_wire_of_size table _ v rfl).1 s p h

end BorrowIR
