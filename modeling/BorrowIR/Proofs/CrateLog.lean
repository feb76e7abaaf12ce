import BorrowIR.Proofs.CrateListing
import BorrowIR.Proofs.DecoderAccounts

/-!
# The log of a crate

What a run of `Crate.decode` has left in the log can be read off the document and the result.

* `Outcome.UpToFailure`: the values of some outcomes before the first failure;
* `Outcome.Tells`: a log that has some events before the ones for the result;
* `Json.Announces`: the events for the files and the declarations of a document;
* `Crate.decode_log`: these events come first, behind the beginning of the run. The result has at
  most one event, which is the last one.
-/

namespace BorrowIR

open Decode Outcome

variable {α β : Type}

namespace Outcome

/-! ## Outcomes one after the other -/

/-- The outcomes have these values. -/
def AllYield (os : List (Outcome α)) (as : List α) : Prop := List.Forall₂ Yields os as

/-- The outcomes before the first failure have these values. -/
def StopsAfter (os : List (Outcome α)) (as : List α) : Prop :=
  ∃ done o rest, os = done ++ o :: rest ∧ AllYield done as ∧ ∃ c, o.Fails c

/-- **Values up to the first failure.** There need not be one. -/
def UpToFailure (os : List (Outcome α)) (as : List α) : Prop := AllYield os as ∨ StopsAfter os as

theorem stopsAfter_head {o : Outcome α} {c : Cause} (h : o.Fails c) (os : List (Outcome α)) :
    StopsAfter (o :: os) [] :=
  ⟨[], o, os, rfl, .nil, c, h⟩

/-- A value in front of what stops is one of the values. -/
theorem StopsAfter.cons {o : Outcome α} {a : α} {os : List (Outcome α)} {as : List α}
    (ha : o.Yields a) (h : StopsAfter os as) : StopsAfter (o :: os) (a :: as) := by
  obtain ⟨done, o', rest, rfl, hdone, hfails⟩ := h
  exact ⟨o :: done, o', rest, rfl, .cons ha hdone, hfails⟩

/-- What comes behind a failure is not looked at. -/
theorem StopsAfter.append {os : List (Outcome α)} {as : List α} (h : StopsAfter os as)
    (os' : List (Outcome α)) : StopsAfter (os ++ os') as := by
  obtain ⟨done, o, rest, rfl, hdone, hfails⟩ := h
  refine ⟨done, o, rest ++ os', ?_, hdone, hfails⟩
  rw [List.append_assoc, List.cons_append]

theorem AllYield.append {os os' : List (Outcome α)} {as as' : List α} (h : AllYield os as)
    (h' : AllYield os' as') : AllYield (os ++ os') (as ++ as') :=
  List.rel_append h h'

/-- Where the first outcomes are all values, it depends on the others where it stops. -/
theorem UpToFailure.append {os os' : List (Outcome α)} {as as' : List α} (h : AllYield os as)
    (h' : UpToFailure os' as') : UpToFailure (os ++ os') (as ++ as') := by
  rcases h' with h' | ⟨done, o, rest, rfl, hdone, hfails⟩
  · exact .inl (h.append h')
  · refine .inr ⟨os ++ done, o, rest, ?_, h.append hdone, hfails⟩
    rw [List.append_assoc]

/-- A value up to the first failure is the value of one of the outcomes. -/
theorem UpToFailure.exists_of_mem {os : List (Outcome α)} {as : List α} (h : UpToFailure os as) :
    ∀ a ∈ as, ∃ o ∈ os, o.Yields a := by
  have hall : ∀ {done : List (Outcome α)}, AllYield done as → ∀ a ∈ as, ∃ o ∈ done, o.Yields a := by
    intro done hdone a ha
    obtain ⟨i, hi, rfl⟩ := List.getElem_of_mem ha
    have hi' : i < done.length := by rwa [hdone.length_eq]
    exact ⟨done[i], List.getElem_mem hi', hdone.get hi' hi⟩
  rcases h with h | ⟨done, o, rest, rfl, hdone, -⟩
  · exact hall h
  · intro a ha
    obtain ⟨o, ho, hyields⟩ := hall hdone a ha
    exact ⟨o, List.mem_append_left _ ho, hyields⟩

/-! ## Logs -/

/-- The log has these events, and behind them those for the result. -/
def Tells (before : List Event) (events : α → List Event) (o : Outcome α) : Prop :=
  o.log = before ++ o.told events

variable {before : List Event} {events : β → List Event}

/-- The path of a failure is no event. -/
theorem tells_within {decoder : String} {o : Outcome β} :
    (within decoder o).Tells before events ↔ o.Tells before events := by
  obtain ⟨log, result⟩ := o
  cases result <;> exact Iff.rfl

/-- What is reported stands in front of all that the next steps tell. -/
theorem tells_report {event : Event} {next : Unit → Outcome β} :
    (report event >>= next).Tells (event :: before) events ↔ (next ()).Tells before events := by
  unfold Tells
  exact ⟨fun h => (List.cons.inj h).2, fun h => congrArg (event :: ·) h⟩

/-- What a step has told of its value comes before what the next steps tell. -/
theorem Tells.bind_of_yields {o : Outcome α} {a : α} {first : List Event} {own : α → List Event}
    {next : α → Outcome β} (h : o.Tells first own) (ha : o.Yields a)
    (hnext : (next a).Tells before events) :
    (o >>= next).Tells (first ++ own a ++ before) events := by
  obtain ⟨log, result⟩ := o
  obtain rfl : result = .ok a := ha
  obtain rfl : log = first ++ own a := h
  unfold Tells at hnext
  change first ++ own a ++ (next a).log = first ++ own a ++ before ++ (next a).told events
  rw [hnext, List.append_assoc, List.append_assoc, List.append_assoc]

/-- A step that fails is the last one. -/
theorem Tells.bind_of_fails {o : Outcome α} {c : Cause} {own : α → List Event}
    {next : α → Outcome β} (h : o.Tells before own) (hc : o.Fails c) :
    (o >>= next).Tells before events := by
  obtain ⟨log, result⟩ := o
  obtain ⟨path, rfl⟩ : ∃ path, result = .error ⟨c, path⟩ := hc
  exact h

/-- What holds of all that is told holds of it behind a step. -/
theorem Tells.exists_bind {o : Outcome α} {a : α} {own : α → List Event} {next : α → Outcome β}
    {P : List Event → Prop} (h : o.Tells [] own) (ha : o.Yields a)
    (hnext : ∃ told, P (own a ++ told) ∧ (next a).Tells told events) :
    ∃ told, P told ∧ (o >>= next).Tells told events := by
  obtain ⟨told, htold, hnext⟩ := hnext
  exact ⟨own a ++ told, htold, h.bind_of_yields ha hnext⟩

theorem Accounts.tells {table : FileTable} {loud : Prop} {parts : List Json} {o : Outcome β}
    (h : Accounts table loud events parts o) : o.Tells [] events :=
  h.log

/-- The log tells of some outcomes up to the first failure, and then of the result. -/
def TellsOf (os : List (Outcome Event)) (events : α → List Event) (o : Outcome α) : Prop :=
  ∃ told, UpToFailure os told ∧ o.Tells told events

/-- The outcome is a value if all these outcomes are values, and its log tells of them. -/
def Collects (os : List (Outcome Event)) (o : Outcome α) : Prop :=
  ∃ told, o.Tells told (fun _ => []) ∧ (∀ a, o.Yields a → AllYield os told) ∧
    ∀ c, o.Fails c → StopsAfter os told

/-- A step tells of its own outcomes, and the next ones are only looked at behind a value. -/
theorem TellsOf.bind {os os' : List (Outcome Event)} {o : Outcome α} {next : α → Outcome β}
    (h : Collects os o) (hnext : ∀ a, TellsOf os' events (next a)) :
    TellsOf (os ++ os') events (o >>= next) := by
  obtain ⟨told, htells, hyields, hfails⟩ := h
  -- a failure of the first step stops the run, and its events are all there are
  rcases yields_or_fails o with ⟨a, ha⟩ | ⟨c, hc⟩
  · obtain ⟨told', hup, hnext⟩ := hnext a
    have hbind := htells.bind_of_yields ha hnext
    rw [List.append_nil] at hbind
    exact ⟨told ++ told', .append (hyields a ha) hup, hbind⟩
  · exact ⟨told, .inr ((hfails c hc).append os'), htells.bind_of_fails hc⟩

theorem TellsOf.last {os : List (Outcome Event)} {o : Outcome α} {next : α → Outcome β}
    (h : Collects os o) (hnext : ∀ a, (next a).Tells [] events) :
    TellsOf os events (o >>= next) := by
  have hbind := TellsOf.bind h fun a => ⟨[], .inl .nil, hnext a⟩
  rwa [List.append_nil] at hbind

/-- What is done with the value at the end leaves no events. -/
theorem Collects.last {os : List (Outcome Event)} {o : Outcome α} {f : α → β} (h : Collects os o) :
    Collects os (do return f (← o)) := by
  obtain ⟨told, htells, hyields, hfails⟩ := h
  rcases yields_or_fails o with ⟨a, ha⟩ | ⟨c, hc⟩
  · have hbind : (do return f (← o)).Tells (told ++ [] ++ []) fun _ => [] :=
      htells.bind_of_yields ha rfl
    rw [List.append_nil, List.append_nil] at hbind
    refine ⟨told, hbind, fun _ _ => hyields a ha, fun c hc => ?_⟩
    rw [fails_bind_of ha] at hc
    exact absurd (yields_pure.2 rfl) (hc.not_yields _)
  · refine ⟨told, htells.bind_of_fails hc, fun b hb => ?_, fun _ _ => hfails c hc⟩
    obtain ⟨a, ha, -⟩ := yields_bind.1 hb
    exact absurd ha (hc.not_yields a)

/-- One more outcome in front, whose value leaves an event. -/
theorem Collects.cons {os : List (Outcome Event)} {o : Outcome α} {event : α → Event}
    {next : α → Outcome β} (h : o.Tells [] fun a => [event a])
    (hnext : ∀ a, Collects os (next a)) : Collects ((event <$> o) :: os) (o >>= next) := by
  rcases yields_or_fails o with ⟨a, ha⟩ | ⟨c, hc⟩
  · have hevent : (event <$> o).Yields (event a) := yields_map.2 ⟨a, ha, rfl⟩
    obtain ⟨told, htells, hyields, hfails⟩ := hnext a
    refine ⟨event a :: told, h.bind_of_yields ha htells, fun b hb => ?_, fun c hc => ?_⟩
    · rw [yields_bind_of ha] at hb
      exact .cons hevent (hyields b hb)
    · rw [fails_bind_of ha] at hc
      exact (hfails c hc).cons hevent
  · have hevent : (event <$> o).Fails c := by
      rw [← bind_pure_comp]
      exact fails_bind.2 (.inl hc)
    refine ⟨[], h.bind_of_fails hc, fun b hb => ?_, fun _ _ => stopsAfter_head hevent os⟩
    obtain ⟨a, ha, -⟩ := yields_bind.1 hb
    exact absurd ha (hc.not_yields a)

end Outcome

/-! ## Lists of declarations -/

/-- What comes of the elements of a list, one by one. What is no list has a failure in their
place. -/
def Json.outcomes (decode : Json → Outcome α) (v : Json) : List (Outcome α) :=
  match v with
  | .arr elems => elems.map decode
  | _ => [mismatch .list v]

/-- Elements that each leave an event leave their events in their order. -/
theorem Decode.each_collects {v : Json} {event : α → Event} {decode : Json → Outcome α}
    (h : ∀ part, (decode part).Tells [] fun a => [event a]) :
    ∀ below : List v.Part,
      Collects ((below.map Subtype.val).map fun part => event <$> decode part)
        (each (fun part _ => decode part) below)
  | [] => ⟨[], rfl, fun _ _ => .nil, fun _ hc => absurd (yields_pure.2 rfl) (hc.not_yields [])⟩
  | part :: below => .cons (h part.1) fun _ => .last (each_collects h below)

/-- A list tells of its elements, up to the first one that cannot be decoded. -/
theorem Decode.list_collects {event : α → Event} {decode : Json → Outcome α}
    (h : ∀ part, (decode part).Tells [] fun a => [event a]) (v : Json) :
    Collects (v.outcomes fun part => event <$> decode part) (list decode v) := by
  unfold list listBelow
  -- a node that is no list stands for one outcome, which is a failure
  cases helements : v.elements? with
  | none =>
    have houtcomes : v.outcomes (fun part => event <$> decode part) = [mismatch .list v] := by
      cases v with
      | arr elems => cases helements
      | _ => rfl
    have hfails : (mismatch .list v : Outcome Event).Fails (.mismatch .list v) := fails_fail.2 rfl
    rw [houtcomes]
    exact ⟨[], rfl, fun _ has => (yields_fail.1 has).elim, fun _ _ => stopsAfter_head hfails []⟩
  | some below =>
    have houtcomes := congrArg (Json.outcomes fun part => event <$> decode part)
      (Json.elements?_eq_some.1 helements)
    rw [houtcomes]
    exact each_collects h below

/-! ## Crates -/

/-- The six fields of the document of a crate. -/
structure Json.CrateFields where
  name : Json
  files : Json
  groups : Json
  types : Json
  functions : Json
  globals : Json

namespace Json.CrateFields

/-- The fields with their keys. -/
def entries (fields : CrateFields) : List (String × Json) :=
  [("name", fields.name), ("id_to_file", fields.files), ("declarations", fields.groups),
    ("types", fields.types), ("functions", fields.functions), ("globals", fields.globals)]

/-- **The declarations of a document**, in its order: what comes of decoding each of them is its
event. -/
def declarations (fields : CrateFields) (table : FileTable) : List (Outcome Event) :=
  (fields.types.outcomes fun v => TypeDecl.event <$> TypeDecl.decode table v) ++
    ((fields.functions.outcomes fun v =>
        FunDecl.event <$> FunDecl.decode Statement.decode table v) ++
      fields.globals.outcomes fun v =>
        GlobalDecl.event <$> GlobalDecl.decode Statement.decode table v)

end Json.CrateFields

theorem Json.IsRecord.field?_files {v : Json} {fields : CrateFields}
    (h : v.IsRecord fields.entries) : v.field? "id_to_file" = some fields.files :=
  h.field?_eq (by simp [CrateFields.entries]) (by simp [CrateFields.entries])

/-- A document with the six fields is read as a record. -/
theorem Json.IsRecord.exists_record_yields {v : Json} {fields : CrateFields}
    (h : v.IsRecord fields.entries) :
    ∃ p, (record ["name", "id_to_file", "declarations", "types", "functions", "globals"] v).Yields
      p := by
  have hpart : ∀ entry ∈ fields.entries, sizeOf entry.2 < sizeOf v := fun entry hentry =>
    h.sizeOf_lt (List.mem_map_of_mem hentry)
  simp only [CrateFields.entries, List.forall_mem_cons] at hpart
  obtain ⟨hname, hfiles, hgroups, htypes, hfunctions, hglobals, -⟩ := hpart
  exact ⟨(⟨_, hname⟩, ⟨_, hfiles⟩, ⟨_, hgroups⟩, ⟨_, htypes⟩, ⟨_, hfunctions⟩, ⟨_, hglobals⟩),
    (record_yields (by decide)).2 h⟩

/-- **What is told of a document.** The first event is for its files, with their number, if it has
the six fields and the files can be decoded. If the name and the groups can be decoded too, there is
one event for each declaration, in the order of the document, up to the first one that cannot be
decoded. -/
inductive Json.Announces (v : Json) : List Event → Prop
  | nothing : (∀ (fields : CrateFields) (table : FileTable), v.IsRecord fields.entries →
      ¬ (FileTable.decode fields.files).Yields table) → Announces v []
  | files {fields : CrateFields} {table : FileTable} : v.IsRecord fields.entries →
    (FileTable.decode fields.files).Yields table →
    ((∃ c, (string fields.name).Fails c) ∨ ∃ c, (list DeclGroup.decode fields.groups).Fails c) →
    Announces v [.fileTable table.entries.length]
  | declarations {fields : CrateFields} {table : FileTable} {name : String}
    {groups : List DeclGroup} {events : List Event} : v.IsRecord fields.entries →
    (FileTable.decode fields.files).Yields table → (string fields.name).Yields name →
    (list DeclGroup.decode fields.groups).Yields groups →
    UpToFailure (fields.declarations table) events →
    Announces v (.fileTable table.entries.length :: events)

namespace Crate

/-- The event of a crate: its name, and the numbers of its types, functions and globals. -/
def event {B : Type} (crate : Crate B) : Event :=
  .crate crate.name crate.types.entries.length crate.functions.entries.length
    crate.globals.entries.length

/-- A document is announced by its files and its declarations, and ends with the event of the
crate. -/
theorem decode_announces (v : Json) :
    ∃ told, v.Announces told ∧ (decode v).Tells (.began :: told) fun crate => [crate.event] := by
  have hkeys : ["name", "id_to_file", "declarations", "types", "functions", "globals"].Nodup := by
    decide
  unfold decode decodeWith
  simp only [tells_report, tells_within]
  have hrecord : Candid .empty False [v] (record ["name", "id_to_file", "declarations", "types",
    "functions", "globals"] v) := .record_self
  -- the run can end at each of the first four steps, and then nothing more is told
  rcases (yields_or_fails (record ["name", "id_to_file", "declarations", "types", "functions",
    "globals"] v)).symm with ⟨c, hc⟩ | ⟨p, hp⟩
  · refine ⟨[], .nothing fun fields table hv _ => ?_, hrecord.tells.bind_of_fails hc⟩
    obtain ⟨p, hp⟩ := hv.exists_record_yields
    exact hc.not_yields p hp
  refine hrecord.tells.exists_bind hp ?_
  obtain ⟨⟨name, _⟩, ⟨files, _⟩, ⟨groups, _⟩, ⟨types, _⟩, ⟨functions, _⟩, ⟨globals, _⟩⟩ := p
  have hv : v.IsRecord (Json.CrateFields.mk name files groups types functions globals).entries :=
    (record_yields hkeys).1 hp
  have hfiles : Accounts .empty False _ [files] (FileTable.decode files) :=
    FileTable.decode_accounts files
  rcases (yields_or_fails (FileTable.decode files)).symm with ⟨c, hc⟩ | ⟨table, htable⟩
  · refine ⟨[], .nothing fun fields table hfields htable => ?_, hfiles.tells.bind_of_fails hc⟩
    have hsame : some files = some fields.files := hv.field?_files.symm.trans hfields.field?_files
    rw [← Option.some.inj hsame] at htable
    exact hc.not_yields table htable
  refine hfiles.tells.exists_bind htable ?_
  have hstring : Candid table False [name] (string name) := .string
  rcases (yields_or_fails (string name)).symm with ⟨c, hc⟩ | ⟨n, hname⟩
  · exact ⟨[], .files hv htable (.inl ⟨c, hc⟩), hstring.tells.bind_of_fails hc⟩
  refine hstring.tells.exists_bind hname ?_
  have hlist : Candid table False [groups] (list DeclGroup.decode groups) :=
    .list DeclGroup.decode_candid
  rcases (yields_or_fails (list DeclGroup.decode groups)).symm with ⟨c, hc⟩ | ⟨gs, hgroups⟩
  · exact ⟨[], .files hv htable (.inr ⟨c, hc⟩), hlist.tells.bind_of_fails hc⟩
  refine hlist.tells.exists_bind hgroups ?_
  -- from here on the log tells of the three lists, and behind them of the result
  refine Exists.imp (fun told h => ⟨.declarations hv htable hname hgroups h.1, h.2⟩)
    (?_ : TellsOf _ _ _)
  refine .bind (list_collects (fun v => (TypeDecl.decode_accounts v).tells) types) fun _ => ?_
  refine .bind (list_collects (fun v => (FunDecl.decode_accounts v).tells) functions) fun _ => ?_
  refine .last (list_collects (fun v => (GlobalDecl.decode_accounts v).tells) globals) fun _ => ?_
  refine (?_ : Accounts table False _ [] _).tells
  refine .step (IdMap.index_candid _ _ _) fun _ => .step (IdMap.index_candid _ _ _) fun _ => ?_
  refine .step (IdMap.index_candid _ _ _) fun _ => .step (checkGroups_candid _) fun _ => ?_
  exact .reported rfl

end Crate

/-! ## The last event -/

/-- The value of one of the outcomes is the event of what was decoded. -/
theorem Json.yields_of_mem_outcomes {event : α → Event} {decode : Json → Outcome α} {v : Json}
    {o : Outcome Event} (ho : o ∈ v.outcomes fun part => event <$> decode part) {e : Event}
    (he : o.Yields e) : ∃ a, event a = e := by
  cases v with
  | arr elems =>
    obtain ⟨part, -, rfl⟩ := List.mem_map.1 ho
    obtain ⟨a, -, ha⟩ := yields_map.1 he
    exact ⟨a, ha⟩
  | _ =>
    obtain rfl := List.mem_singleton.1 ho
    exact (yields_fail.1 he).elim

/-- What is told of a document is told of its files or of a declaration, and so is no last event. -/
theorem Json.Announces.not_last {v : Json} {told : List Event} (h : v.Announces told) :
    ∀ e ∈ told, e.severity ≠ .error ∧
      ∀ name types functions globals, e ≠ .crate name types functions globals := by
  have htable : ∀ files, (Event.fileTable files).severity ≠ .error ∧
      ∀ name types functions globals, Event.fileTable files ≠ .crate name types functions globals :=
    fun _ => ⟨nofun, nofun⟩
  cases h with
  | nothing => exact List.forall_mem_nil _
  | files => exact List.forall_mem_singleton.2 (htable _)
  | declarations _ _ _ _ hup =>
    refine List.forall_mem_cons.2 ⟨htable _, fun e he => ?_⟩
    obtain ⟨o, ho, hyields⟩ := hup.exists_of_mem e he
    rcases List.mem_append.1 ho with ho | ho
    · obtain ⟨decl, rfl⟩ := Json.yields_of_mem_outcomes ho hyields
      exact ⟨nofun, nofun⟩
    · rcases List.mem_append.1 ho with ho | ho
      · obtain ⟨decl, rfl⟩ := Json.yields_of_mem_outcomes ho hyields
        exact ⟨nofun, nofun⟩
      · obtain ⟨decl, rfl⟩ := Json.yields_of_mem_outcomes ho hyields
        exact ⟨nofun, nofun⟩

/-- An alarm is for a literal that its type does not hold. -/
theorem Cause.mem_alarms {cause : Cause} {e : Event} :
    e ∈ cause.alarms ↔
      ∃ literal ty, cause = .outOfRange literal ty ∧ e = .outOfRange literal ty := by
  cases cause <;> simp [Cause.alarms]

/-- There is one alarm at most, since a run stops at its first failure. -/
theorem Cause.length_alarms_le (cause : Cause) : cause.alarms.length ≤ 1 := by
  cases cause <;> simp [Cause.alarms]

/-- What is told comes from the value or from the cause of the failure. -/
theorem Outcome.mem_told {o : Outcome α} {events : α → List Event} {e : Event} :
    e ∈ o.told events ↔ (∃ a, o.Yields a ∧ e ∈ events a) ∨ ∃ c, o.Fails c ∧ e ∈ c.alarms := by
  obtain ⟨log, result⟩ := o
  rcases result with ⟨c, path⟩ | a
  · simp [Outcome.told, Fails]
  · simp [Outcome.told, Fails]

/-- There is at most one event for the result. -/
theorem Outcome.length_told_le {o : Outcome α} {events : α → List Event}
    (h : ∀ a, (events a).length ≤ 1) : (o.told events).length ≤ 1 := by
  unfold Outcome.told
  split
  · exact h _
  · exact Cause.length_alarms_le _

namespace Crate

/-- **The log agrees with the result.** Behind the beginning, the log tells of the files and the
declarations of the document, and then of the result. It says that a crate was decoded if and only
if it was, and that a literal is out of range if and only if this is the failure, once at most. -/
theorem decode_log (v : Json) :
    (∃ told, v.Announces told ∧
        (decode v).log = .began :: (told ++ (decode v).told fun crate => [crate.event])) ∧
      (∀ name types functions globals, .crate name types functions globals ∈ (decode v).log ↔
        ∃ crate, (decode v).Yields crate ∧ crate.event = .crate name types functions globals) ∧
      (∀ literal ty, .outOfRange literal ty ∈ (decode v).log ↔
        (decode v).Fails (.outOfRange literal ty)) ∧
      ((decode v).log.filter fun event => event.severity = .error).length ≤ 1 := by
  obtain ⟨told, hannounces, hlog⟩ := decode_announces v
  have hnot := hannounces.not_last
  have hlength : ((decode v).told fun crate => [crate.event]).length ≤ 1 :=
    Outcome.length_told_le fun _ => Nat.le_refl 1
  change (decode v).log = .began :: (told ++ (decode v).told fun crate => [crate.event]) at hlog
  rw [hlog]
  refine ⟨⟨told, hannounces, rfl⟩, ?_, ?_, ?_⟩
  · intro name types functions globals
    rw [List.mem_cons, List.mem_append, Outcome.mem_told]
    constructor
    -- neither the beginning nor what is told of the document is such an event
    · rintro (h | h | ⟨crate, hcrate, h⟩ | ⟨c, -, h⟩)
      · cases h
      · exact absurd rfl ((hnot _ h).2 name types functions globals)
      · exact ⟨crate, hcrate, (List.mem_singleton.1 h).symm⟩
      · obtain ⟨literal, ty, -, heq⟩ := Cause.mem_alarms.1 h
        cases heq
    · rintro ⟨crate, hcrate, h⟩
      exact .inr (.inr (.inl ⟨crate, hcrate, List.mem_singleton.2 h.symm⟩))
  · intro literal ty
    rw [List.mem_cons, List.mem_append, Outcome.mem_told]
    constructor
    · rintro (h | h | ⟨crate, -, h⟩ | ⟨c, hc, h⟩)
      · cases h
      · exact absurd rfl (hnot _ h).1
      · cases List.mem_singleton.1 h
      · obtain ⟨literal', ty', rfl, heq⟩ := Cause.mem_alarms.1 h
        cases heq
        exact hc
    · intro hc
      exact .inr (.inr (.inr ⟨_, hc, Cause.mem_alarms.2 ⟨literal, ty, rfl, rfl⟩⟩))
  · have htold : told.filter (fun event => event.severity = .error) = [] :=
      List.filter_eq_nil_iff.2 fun e he => by simpa using (hnot e he).1
    have hbegan : decide (Event.began.severity = .error) = false := rfl
    rw [List.filter_cons, if_neg (by rw [hbegan]; exact Bool.false_ne_true), List.filter_append,
      htold, List.nil_append]
    exact Nat.le_trans (List.length_filter_le _ _) hlength

end Crate

end BorrowIR
