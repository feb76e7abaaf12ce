import BorrowIR.Proofs.Trails

/-!
# What outcomes tell

The log and the path of an outcome agree with what came of it.

* `Outcome.Accounts`: a value has left the events that tell of it in the log, and a failure the
  alarm that belongs to its cause; a failure has a trail;
* `Outcome.Candid`: the same for values that leave no events;
* there is one lemma for each combinator of decoders. A second attempt at the payload of a variant
  adds nothing to the log: either lists are refused at once (`Outcome.Refused`), or there are no
  literals in it (`Accounts.wrapped_quiet`).
-/

namespace BorrowIR

open Outcome

/-- What a cause puts in the log when it arises. -/
def Cause.alarms : Cause → List Event
  | .outOfRange literal ty => [.outOfRange literal ty]
  | _ => []

namespace Outcome

variable {α β : Type}

/-- The log of an outcome, if values leave these events. -/
def told (events : α → List Event) (o : Outcome α) : List Event :=
  match o.result with
  | .ok a => events a
  | .error failure => failure.cause.alarms

/-- **Account of an outcome.** A failure has a trail, and the log tells of the value or of the
cause, and of nothing else. An outcome that is not `loud` is never a failure for a literal. -/
structure Accounts (table : FileTable) (loud : Prop) (events : α → List Event) (parts : List Json)
    (o : Outcome α) : Prop where
  localised : Localised table parts o
  log : o.log = o.told events
  quiet : ¬ loud → ∀ failure, o.result = .error failure → failure.cause.alarms = []

/-- The account of an outcome whose value leaves no events. -/
abbrev Candid (table : FileTable) (loud : Prop) (parts : List Json) (o : Outcome α) : Prop :=
  Accounts table loud (fun _ => []) parts o

/-- The outcome is a failure that leaves nothing in the log. -/
def Refused (o : Outcome α) : Prop := ∃ failure, o = ⟨[], .error failure⟩

namespace Refused

variable {elems : List Json}

theorem within {decoder : String} {o : Outcome α} (h : o.Refused) : (within decoder o).Refused := by
  obtain ⟨failure, rfl⟩ := h
  exact ⟨failure.within decoder, rfl⟩

/-- A list is no record. -/
theorem record {keys : List String} {next : (Json.arr elems).Parts keys.length → Outcome α} :
    (Decode.record keys (.arr elems) >>= next).Refused := ⟨_, rfl⟩

/-- A list is no variant. -/
theorem variant {next : Decode.Tagged (.arr elems) → Outcome α} :
    (Decode.variant (.arr elems) >>= next).Refused := ⟨_, rfl⟩

end Refused

namespace Accounts

variable {table : FileTable} {loud : Prop} {part v : Json} {parts parts' : List Json}
  {events : β → List Event}

theorem pure {a : α} : Candid table loud parts (pure a) where
  localised := .pure
  log := rfl
  quiet := by
    rintro - failure ⟨⟩

/-- A failure that is about what was read and raises no alarm leaves no events. -/
theorem fail {c : Cause} (habout : ∀ v : Json, v.Around parts → c.IsAbout v) (hc : c.alarms = []) :
    Accounts table loud events parts (fail c) where
  localised := .fail habout
  log := hc.symm
  quiet := by
    rintro - failure ⟨⟩
    exact hc

/-- A rule that is broken is not about a node. -/
theorem violation {rule : Violation} :
    Accounts table loud events parts (Outcome.fail (.violation rule)) :=
  fail (fun _ _ => trivial) rfl

/-- The value leaves one event at the end. -/
theorem reported {b : β} {event : Event} (h : events b = [event]) :
    Accounts table loud events parts (report event >>= fun _ => Pure.pure b) where
  localised := .bind_of_yields .report fun _ _ => .pure
  log := h.symm
  quiet := by
    rintro - failure ⟨⟩

theorem mono {o : Outcome β} (h : Accounts table loud events parts o)
    (hparts : ∀ v : Json, v.Around parts' → v.Around parts) :
    Accounts table loud events parts' o :=
  ⟨h.localised.mono hparts, h.log, h.quiet⟩

/-- What is read from the parts of a node is read from the node. -/
theorem below {o : Outcome β} (h : Accounts table loud events parts o) (hparts : v.Around parts) :
    Accounts table loud events [v] o :=
  ⟨h.localised.below hparts, h.log, h.quiet⟩

/-- An outcome without literals is one that may have literals. -/
theorem louder {o : Outcome β} (h : Accounts table False events parts o) :
    Accounts table loud events parts o :=
  ⟨h.localised, h.log, fun _ => h.quiet id⟩

/-- What the first step yields is known in the second one. -/
theorem bind_of_yields {o : Outcome α} {next : α → Outcome β} (h : Candid table loud parts o)
    (hnext : ∀ a, o.Yields a → Accounts table loud events parts (next a)) :
    Accounts table loud events parts (o >>= next) := by
  have hlocalised := h.localised.bind_of_yields fun a ha => (hnext a ha).localised
  have hlog := h.log
  have hquiet := h.quiet
  obtain ⟨log, result⟩ := o
  cases result with
  | error failure =>
    -- the second step is not made, so the first one accounts for the whole
    refine ⟨hlocalised, hlog, fun hl failure' hfailure => ?_⟩
    cases hfailure
    exact hquiet hl failure rfl
  | ok a =>
    obtain rfl : log = [] := hlog
    exact ⟨hlocalised, (hnext a rfl).log, (hnext a rfl).quiet⟩

/-- The first step is for the first node, the next steps are for the others. -/
theorem bind {o : Outcome α} {next : α → Outcome β} (h : Candid table loud [part] o)
    (hnext : ∀ a, Accounts table loud events parts (next a)) :
    Accounts table loud events (part :: parts) (o >>= next) := by
  refine bind_of_yields (h.mono fun v hv => ?_) fun a _ => (hnext a).mono fun v hv => ?_
  · exact Json.around_cons.2 ⟨(Json.around_cons.1 hv).1, Json.around_nil⟩
  · exact (Json.around_cons.1 hv).2

/-- A step that is not for a node. -/
theorem step {o : Outcome α} {next : α → Outcome β} (h : Candid table loud [] o)
    (hnext : ∀ a, Accounts table loud events parts (next a)) :
    Accounts table loud events parts (o >>= next) :=
  bind_of_yields (h.mono fun _ _ => Json.around_nil) fun a _ => hnext a

/-- The last step, and what is done with its value. -/
theorem last {o : Outcome α} {f : α → β} (h : Candid table loud parts o) :
    Candid table loud parts (do return f (← o)) :=
  bind_of_yields h fun _ _ => pure

theorem map {o : Outcome α} {f : α → β} (h : Candid table loud parts o) :
    Candid table loud parts (f <$> o) := by
  rw [← bind_pure_comp]
  exact last h

/-- The decoder puts its name on the trail, and leaves the events as they are. -/
theorem named {decoder : String} {decode : Json → Outcome β}
    (hnamed : Decode.Named table decoder decode) {o : Outcome β} (heq : decode v = within decoder o)
    (h : Accounts table loud events [v] o) : Accounts table loud events [v] (decode v) := by
  refine ⟨.named hnamed heq h.localised, ?_, ?_⟩
  · have hlog := h.log
    rw [heq]
    obtain ⟨log, result⟩ := o
    cases result <;> exact hlog
  · rw [heq]
    intro hl failure hfailure
    obtain ⟨log, result⟩ := o
    cases result with
    | ok a => cases hfailure
    | error inner =>
      cases hfailure
      exact h.quiet hl inner rfl

/-! ### Readers of nodes -/

theorem mismatch {shape : Shape} : Accounts table loud events [v] (Decode.mismatch shape v) :=
  fail (fun _ hw => Cause.isAbout_mismatch (Json.around_cons.1 hw).1) rfl

theorem natural : Candid table loud [v] (Decode.natural v) := by
  unfold Decode.natural
  split
  · split
    · split
      · exact pure
      · exact mismatch
    · exact mismatch
  · exact mismatch

theorem entityId {sort : Entity} :
    Candid table loud [v] (Decode.entityId v : Outcome (EntityId sort)) :=
  named .id rfl (last natural)

theorem string : Candid table loud [v] (Decode.string v) := by
  unfold Decode.string
  split
  · exact pure
  · exact mismatch

theorem bool : Candid table loud [v] (Decode.bool v) := by
  unfold Decode.bool
  split
  · exact pure
  · exact mismatch

theorem record_self {keys : List String} : Candid table loud [v] (Decode.record keys v) := by
  unfold Decode.record
  split
  · split
    · split
      · exact pure
      · exact mismatch
    · exact mismatch
  · exact mismatch

theorem record {keys : List String} (hkeys : keys.Nodup) {next : v.Parts keys.length → Outcome β}
    (h : ∀ p, Accounts table loud events (Json.Parts.toList keys.length p) (next p)) :
    Accounts table loud events [v] (Decode.record keys v >>= next) :=
  bind_of_yields record_self fun p hp => (h p).below (Decode.around_of_record hkeys hp)

theorem components_self {n : Nat} : Candid table loud [v] (Decode.components n v) := by
  unfold Decode.components
  split
  · exact pure
  · exact mismatch

theorem components {n : Nat} {next : v.Parts n → Outcome β}
    (h : ∀ p, Accounts table loud events (Json.Parts.toList n p) (next p)) :
    Accounts table loud events [v] (Decode.components n v >>= next) :=
  bind_of_yields components_self fun p hp => (h p).below (Decode.around_of_components hp)

theorem variant_self : Candid table loud [v] (Decode.variant v) := by
  unfold Decode.variant
  split
  · exact pure
  · exact pure
  · exact mismatch

/-- What is done with a variant: its payload is read, or the tag or the node is refused. -/
inductive Arm (table : FileTable) (loud : Prop) (t : Decode.Tagged v) : Outcome α → Prop
  | reads {o : Outcome α} : Candid table loud (t.payload.toList.map Subtype.val) o →
    Arm table loud t o
  | unknown {noun : String} : Arm table loud t (Outcome.fail (.unknownVariant noun t.tag))
  | mismatch {shape : Shape} : Arm table loud t (Decode.mismatch shape v)

theorem variant {next : Decode.Tagged v → Outcome β} (h : ∀ t, Arm table loud t (next t)) :
    Candid table loud [v] (Decode.variant v >>= next) := by
  refine bind_of_yields variant_self fun t ht => ?_
  have harm := h t
  generalize next t = o at harm ⊢
  cases harm with
  | reads hreads => exact hreads.below (Decode.around_of_variant ht)
  | @unknown noun =>
    refine fail (fun w hw => ?_) rfl
    exact (Decode.isAbout_of_variant ht noun).trans (Json.around_cons.1 hw).1
  | mismatch => exact mismatch

theorem tagOnly {noun : String} {all : List α} {tagOf : α → String} :
    Candid table loud [v] (Decode.tagOnly noun all tagOf v) := by
  unfold Decode.tagOnly
  refine variant fun t => ?_
  split
  · split
    · exact .reads pure
    · exact .unknown
  · exact .unknown

theorem each {decode : (part : Json) → sizeOf part < sizeOf v → Outcome α}
    (h : ∀ part hpart, Candid table loud [part] (decode part hpart)) :
    ∀ below : List v.Part, Candid table loud (below.map Subtype.val) (Decode.each decode below)
  | [] => pure
  | part :: below => bind (h part.1 part.2) fun _ => last (each h below)

theorem listBelow {decode : (part : Json) → sizeOf part < sizeOf v → Outcome α}
    (h : ∀ part hpart, Candid table loud [part] (decode part hpart)) :
    Candid table loud [v] (Decode.listBelow v decode) := by
  unfold Decode.listBelow
  cases helements : v.elements? with
  | none => exact mismatch
  | some below => exact (each h below).below (Json.around_of_elements helements)

theorem list {decode : Json → Outcome α} (h : ∀ part, Candid table loud [part] (decode part)) :
    Candid table loud [v] (Decode.list decode v) :=
  listBelow fun part _ => h part

theorem optional {decode : Json → Outcome α} (h : Candid table loud [v] (decode v)) :
    Candid table loud [v] (Decode.optional decode v) := by
  cases v with
  | null => exact pure
  | _ => exact map h

/-! ### The two forms of a single field -/

/-- A second attempt leaves nothing behind if its log is empty, and if it has no value or the first
attempt has not failed for a literal. -/
theorem orElse {first second : Outcome α} (h : Candid table loud parts first)
    (hlog : second.log = [])
    (hvalue : (∃ failure, second.result = .error failure) ∨
      ∀ failure, first.result = .error failure → failure.cause.alarms = []) :
    Candid table loud parts (first.orElse second) := by
  have hlocalised : Localised table parts (first.orElse second) := h.localised.orElse
  have hfirst := h.log
  have hquiet := h.quiet
  obtain ⟨log, result⟩ := first
  obtain ⟨log', result'⟩ := second
  obtain rfl : log' = [] := hlog
  -- only if the first attempt fails does the second one count
  cases result with
  | ok a => exact ⟨hlocalised, hfirst, hquiet⟩
  | error failure =>
    cases result' with
    | error failure' => exact ⟨hlocalised, (List.append_nil log).trans hfirst, hquiet⟩
    | ok a =>
      -- the second attempt gives a value, so the alarm of the first one would be lost
      have halarms : failure.cause.alarms = [] := by
        rcases hvalue with ⟨failure', hfailure'⟩ | hvalue
        · cases hfailure'
        · exact hvalue failure rfl
      refine ⟨hlocalised, ?_, ?_⟩
      · exact (List.append_nil log).trans (hfirst.trans halarms)
      · rintro - failure' ⟨⟩

/-- Of two attempts at a payload only the first one leaves events, if the second one refuses
lists. -/
theorem wrappedBelow {decode : (field : Json) → sizeOf field ≤ sizeOf v → Outcome α}
    (hlist : ∀ elems, v = .arr elems → (decode v (Nat.le_refl _)).Refused)
    (h : ∀ field hfield, Candid table loud [field] (decode field hfield)) :
    Candid table loud [v] (Decode.wrappedBelow v decode) := by
  unfold Decode.wrappedBelow
  split
  · rename_i field hfield
    obtain ⟨failure, hrefused⟩ := hlist _ (Json.elements?_eq_some.1 hfield)
    have hfirst := (h field.1 (Nat.le_of_lt field.2)).below
      (Json.around_of_elements hfield)
    rw [hrefused]
    exact orElse hfirst rfl (.inl ⟨failure, rfl⟩)
  · exact h v _

/-- Where there are no literals, lists may be read. -/
theorem wrappedBelow_quiet {decode : (field : Json) → sizeOf field ≤ sizeOf v → Outcome α}
    (h : ∀ field hfield, Candid table False [field] (decode field hfield)) :
    Candid table loud [v] (Decode.wrappedBelow v decode) := by
  unfold Decode.wrappedBelow
  split
  · rename_i field hfield
    have hfirst := (h field.1 (Nat.le_of_lt field.2)).below
      (Json.around_of_elements hfield)
    have hsecond := h v (Nat.le_refl _)
    -- the second attempt at the list may succeed, but there is nothing to be told of it
    have hlog : (decode v (Nat.le_refl _)).log = [] := by
      rw [hsecond.log, told]
      split
      · rfl
      · exact hsecond.quiet id _ ‹_›
    exact louder (orElse hfirst hlog (.inr (hfirst.quiet id)))
  · exact louder (h v _)

theorem wrapped {decode : Json → Outcome α} (hlist : ∀ elems, (decode (.arr elems)).Refused)
    (h : ∀ field, Candid table loud [field] (decode field)) :
    Candid table loud [v] (Decode.wrapped decode v) := by
  refine wrappedBelow ?_ fun field _ => h field
  rintro elems rfl
  exact hlist elems

/-- Where no literals are read, neither attempt at a payload leaves events. -/
theorem wrapped_quiet {decode : Json → Outcome α}
    (h : ∀ field, Candid table False [field] (decode field)) :
    Candid table loud [v] (Decode.wrapped decode v) :=
  wrappedBelow_quiet fun field _ => h field

end Accounts

end Outcome

end BorrowIR
