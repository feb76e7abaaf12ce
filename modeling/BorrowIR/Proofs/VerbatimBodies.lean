import BorrowIR.Proofs.CrateListing

/-!
# Bodies that are read later

A crate can be decoded with the code of its bodies kept as it is in the document, and the code can
be read when the crate is there, with the files that the document lists.

* `Crate.ReadAs`: two crates that differ in the code of their bodies only, which one of them has
  unread and the other one has read;
* `Body.decode_iff_verbatim`, `FunDecl.decode_iff_verbatim`, `GlobalDecl.decode_iff_verbatim`: one
  declaration;
* `IdMap.rel_iff_list`: maps whose values are related, from lists whose elements are;
* `Crate.decodeWith_iff_verbatim`: for every reader of bodies, a crate is decoded at once just as it
  is decoded first and read later.
-/

namespace BorrowIR

open Decode Outcome

variable {B C : Type}

/-! ## Code that is read -/

/-- The same body, with the code that `read` makes of the code of `raw`. -/
structure Body.ReadAs (read : C → Outcome B) (raw : Body C) (body : Body B) : Prop where
  origin : body.origin = raw.origin
  argCount : body.argCount = raw.argCount
  locals : body.locals = raw.locals
  code : (read raw.code).Yields body.code

/-- The same function, with a body that has been read if there is one. -/
structure FunDecl.ReadAs (read : C → Outcome B) (raw : FunDecl C) (decl : FunDecl B) : Prop where
  id : decl.id = raw.id
  origin : decl.origin = raw.origin
  name : decl.name = raw.name
  signature : decl.signature = raw.signature
  body : Option.Rel (Body.ReadAs read) raw.body decl.body

/-- The same global, with a body that has been read if there is one. -/
structure GlobalDecl.ReadAs (read : C → Outcome B) (raw : GlobalDecl C) (decl : GlobalDecl B) :
    Prop where
  id : decl.id = raw.id
  origin : decl.origin = raw.origin
  name : decl.name = raw.name
  ty : decl.ty = raw.ty
  body : Option.Rel (Body.ReadAs read) raw.body decl.body

/-- The two maps have the same identifiers, and their values are related. -/
def IdMap.Rel {sort : Entity} {α β : Type} (related : α → β → Prop) (map : IdMap sort α)
    (map' : IdMap sort β) : Prop :=
  List.Forall₂ (fun entry entry' => entry.1 = entry'.1 ∧ related entry.2 entry'.2) map.entries
    map'.entries

/-- **The same crate, with its bodies read.** Each body has the code that `read` makes of the code
of the body that stands in its place; everything else is the same. -/
structure Crate.ReadAs (read : C → Outcome B) (raw : Crate C) (crate : Crate B) : Prop where
  name : crate.name = raw.name
  groups : crate.groups = raw.groups
  types : crate.types = raw.types
  functions : raw.functions.Rel (FunDecl.ReadAs read) crate.functions
  globals : raw.globals.Rel (GlobalDecl.ReadAs read) crate.globals

/-- The code of all bodies of a crate. -/
def Crate.codes (crate : Crate B) : List B :=
  (crate.functions.values.filterMap FunDecl.body ++
    crate.globals.values.filterMap GlobalDecl.body).map Body.code

/-! ## Lists and maps -/

/-- A list that is related to another one in two steps has a list in between. -/
theorem forall₂_exists_between {α β γ : Type} {R : α → β → Prop} {S : β → γ → Prop} {as : List α}
    {cs : List γ} :
    List.Forall₂ (fun a c => ∃ b, R a b ∧ S b c) as cs ↔
      ∃ bs, List.Forall₂ R as bs ∧ List.Forall₂ S bs cs := by
  constructor
  · intro h
    induction h with
    | nil => exact ⟨[], .nil, .nil⟩
    | cons hac _ ih =>
      obtain ⟨b, hab, hbc⟩ := hac
      obtain ⟨bs, habs, hbcs⟩ := ih
      exact ⟨b :: bs, .cons hab habs, .cons hbc hbcs⟩
  · rintro ⟨bs, habs, hbcs⟩
    induction habs generalizing cs with
    | nil =>
      cases hbcs
      exact .nil
    | cons hab _ ih =>
      obtain _ | ⟨hbc, hbcs⟩ := hbcs
      exact .cons ⟨_, hab, hbc⟩ (ih hbcs)

/-- A list whose elements have partners has a list of partners. -/
theorem exists_forall₂ {α β : Type} {R : α → β → Prop} :
    ∀ {as : List α}, (∀ a ∈ as, ∃ b, R a b) → ∃ bs, List.Forall₂ R as bs
  | [], _ => ⟨[], .nil⟩
  | a :: _, h => by
    obtain ⟨b, hab⟩ := h a List.mem_cons_self
    obtain ⟨bs, hbs⟩ := exists_forall₂ fun a ha => h a (List.mem_cons_of_mem _ ha)
    exact ⟨b :: bs, .cons hab hbs⟩

namespace IdMap

variable {sort : Entity} {α β : Type} {related : α → β → Prop}

/-- Entries with the keys of a map can be the entries of a map. -/
theorem exists_of_entries {map : IdMap sort α} {entries : List (EntityId sort × β)}
    (h : List.Forall₂ (fun entry entry' => entry.1 = entry'.1 ∧ related entry.2 entry'.2)
      map.entries entries) :
    ∃ map' : IdMap sort β, map'.entries = entries ∧ map.Rel related map' := by
  have hkeys : map.entries.map Prod.fst = entries.map Prod.fst := by
    rw [← List.forall₂_eq_eq_eq, List.forall₂_map_left_iff, List.forall₂_map_right_iff]
    exact h.imp fun _ _ hentry => hentry.1
  have hsorted : (entries.map Prod.fst).Pairwise fun a b => a.index < b.index := by
    rw [← hkeys, List.pairwise_map]
    exact map.sorted
  rw [List.pairwise_map] at hsorted
  exact ⟨⟨entries, hsorted⟩, rfl, h⟩

/-- If each value of a map has a partner, there is a map of partners. -/
theorem exists_rel {map : IdMap sort α} (h : ∀ value ∈ map.values, ∃ value', related value value') :
    ∃ map' : IdMap sort β, map.Rel related map' := by
  -- a partner of an entry has the same identifier
  have hentries : ∀ entry ∈ map.entries, ∃ entry' : EntityId sort × β,
      entry.1 = entry'.1 ∧ related entry.2 entry'.2 := by
    intro entry hentry
    obtain ⟨value', hvalue'⟩ := h entry.2 (List.mem_map_of_mem hentry)
    exact ⟨(entry.1, value'), rfl, hvalue'⟩
  obtain ⟨entries, hall⟩ := exists_forall₂ hentries
  obtain ⟨map', -, hmap'⟩ := exists_of_entries hall
  exact ⟨map', hmap'⟩

/-- Each value of a map has a partner in a related one. -/
theorem Rel.exists_of_mem {map : IdMap sort α} {map' : IdMap sort β} (h : map.Rel related map') :
    ∀ value ∈ map.values, ∃ value', related value value' := by
  intro value hvalue
  obtain ⟨entry, hentry, rfl⟩ := List.mem_map.1 hvalue
  obtain ⟨i, hi, rfl⟩ := List.mem_iff_getElem.1 hentry
  have hi' : i < map'.entries.length := by rwa [← h.length_eq]
  exact ⟨map'.entries[i].2, (List.forall₂_iff_get.1 h).2 i hi hi' |>.2⟩

/-- **Maps from related lists.** A map is related to the map of a list if it is the map of a related
list. -/
theorem rel_iff_list {id : α → EntityId sort} {id' : β → EntityId sort}
    (hid : ∀ a b, related a b → id' b = id a) {map : IdMap sort α} {decls : List α}
    (hmap : map.entries.Perm (decls.map fun decl => (id decl, decl))) {map' : IdMap sort β} :
    map.Rel related map' ↔
      ∃ decls', List.Forall₂ related decls decls' ∧
        map'.entries.Perm (decls'.map fun decl => (id' decl, decl)) := by
  constructor
  · intro h
    obtain ⟨entries, hentries, hperm⟩ := List.perm_comp_forall₂ hmap.symm h
    rw [List.forall₂_map_left_iff] at hentries
    have hlist : (entries.map Prod.snd).map (fun decl => (id' decl, decl)) = entries := by
      rw [List.map_map]
      clear hperm hmap
      induction hentries with
      | nil => rfl
      | cons hentry _ ih =>
        rw [List.map_cons, ih]
        exact congrArg (· :: _) (Prod.ext ((hid _ _ hentry.2).trans hentry.1) rfl)
    refine ⟨entries.map Prod.snd, ?_, ?_⟩
    · rw [List.forall₂_map_right_iff]
      exact hentries.imp fun _ _ hentry => hentry.2
    · rw [hlist]
      exact hperm.symm
  · rintro ⟨decls', hdecls, hmap'⟩
    have hentries : List.Forall₂ (fun entry entry' => entry.1 = entry'.1 ∧ related entry.2 entry'.2)
        (decls.map fun decl => (id decl, decl)) (decls'.map fun decl => (id' decl, decl)) := by
      rw [List.forall₂_map_left_iff, List.forall₂_map_right_iff]
      exact hdecls.imp fun a b hab => ⟨(hid a b hab).symm, hab⟩
    obtain ⟨entries, hrel, hperm⟩ := List.perm_comp_forall₂ hmap hentries
    -- entries with increasing keys are the map, as there is one map of each set of entries
    obtain ⟨map'', rfl, hrel⟩ := exists_of_entries hrel
    rwa [← eq_of_perm (hperm.trans hmap'.symm)]

end IdMap

/-! ## Declarations -/

variable {code : BodyReader B} {table : FileTable} {v : Json}

/-- A body is decoded if it is with its code left as it stands, and the code is read. -/
theorem Body.decode_iff_verbatim {body : Body B} :
    (Body.decode code table v).Yields body ↔
      ∃ raw, (Body.decode .verbatim table v).Yields raw ∧ raw.ReadAs (code table) body := by
  have hkeys : ["meta", "arg_count", "locals", "body"].Nodup := by decide
  unfold Body.decode BodyReader.verbatim
  simp only [yields_within, record_bind hkeys]
  constructor
  · rintro ⟨⟨⟨origin, _⟩, ⟨count, _⟩, ⟨locals, _⟩, ⟨content, _⟩⟩, hv, h⟩
    simp only [yields_bind, yields_pure] at h
    obtain ⟨origin, horigin, count, hcount, locals, hlocals, u, hcheck, c, hc, rfl⟩ := h
    refine ⟨⟨origin, count, locals, content⟩, ⟨_, hv, ?_⟩, ⟨rfl, rfl, rfl, hc⟩⟩
    simp only [yields_bind, yields_pure]
    exact ⟨origin, horigin, count, hcount, locals, hlocals, u, hcheck, content, rfl, rfl⟩
  · rintro ⟨raw, ⟨⟨⟨origin, _⟩, ⟨count, _⟩, ⟨locals, _⟩, ⟨content, _⟩⟩, hv, h⟩, hread⟩
    simp only [yields_bind, yields_pure] at h
    obtain ⟨origin, horigin, count, hcount, locals, hlocals, u, hcheck, c, rfl, rfl⟩ := h
    refine ⟨_, hv, ?_⟩
    simp only [yields_bind, yields_pure]
    refine ⟨origin, horigin, count, hcount, locals, hlocals, u, hcheck, body.code, hread.code, ?_⟩
    obtain ⟨origin', count', locals', c'⟩ := body
    obtain ⟨rfl, rfl, rfl, -⟩ := hread
    rfl

/-- A body that may be absent can be read if the code of the one that is there can be. -/
theorem Body.exists_rel_iff {read : C → Outcome B} {raw : Option (Body C)} :
    (∃ body, Option.Rel (Body.ReadAs read) raw body) ↔
      ∀ body, raw = some body → ∃ b, (read body.code).Yields b := by
  constructor
  · rintro ⟨body, hrel⟩ rawBody rfl
    cases hrel with
    | some hread => exact ⟨_, hread.code⟩
  · intro h
    cases raw with
    | none => exact ⟨none, .none⟩
    | some raw =>
      obtain ⟨b, hb⟩ := h raw rfl
      exact ⟨some ⟨raw.origin, raw.argCount, raw.locals, b⟩, .some ⟨rfl, rfl, rfl, hb⟩⟩

/-- What may be absent is read in two steps if what is there is. -/
theorem optional_iff_of_iff {α β : Type} {decode : Json → Outcome β} {first : Json → Outcome α}
    {related : α → β → Prop}
    (h : ∀ {v b}, (decode v).Yields b ↔ ∃ a, (first v).Yields a ∧ related a b) {o : Option β} :
    (optional decode v).Yields o ↔
      ∃ raw, (optional first v).Yields raw ∧ Option.Rel related raw o := by
  simp only [optional_yields]
  constructor
  · rintro (⟨hv, rfl⟩ | ⟨hv, b, rfl, hb⟩)
    · exact ⟨none, .inl ⟨hv, rfl⟩, .none⟩
    · obtain ⟨a, ha, hab⟩ := h.1 hb
      exact ⟨some a, .inr ⟨hv, a, rfl, ha⟩, .some hab⟩
  · rintro ⟨raw, ⟨hv, rfl⟩ | ⟨hv, a, rfl, ha⟩, hrel⟩
    · cases hrel
      exact .inl ⟨hv, rfl⟩
    · cases hrel with
      | some hab => exact .inr ⟨hv, _, rfl, h.2 ⟨a, ha, hab⟩⟩

theorem FunDecl.decode_iff_verbatim {decl : FunDecl B} :
    (FunDecl.decode code table v).Yields decl ↔
      ∃ raw, (FunDecl.decode .verbatim table v).Yields raw ∧ raw.ReadAs (code table) decl := by
  have hkeys : ["def_id", "meta", "name", "signature", "body"].Nodup := by decide
  unfold FunDecl.decode
  simp only [yields_within, record_bind hkeys]
  constructor
  · rintro ⟨⟨⟨id, _⟩, ⟨origin, _⟩, ⟨name, _⟩, ⟨signature, _⟩, ⟨body, _⟩⟩, hv, h⟩
    simp only [yields_bind, yields_report, yields_pure] at h
    obtain ⟨id, hid, origin, horigin, name, hname, signature, hsignature, body, hbody, -, -, rfl⟩ :=
      h
    obtain ⟨raw, hraw, hrel⟩ := (optional_iff_of_iff Body.decode_iff_verbatim).1 hbody
    refine ⟨⟨id, origin, name, signature, raw⟩, ⟨_, hv, ?_⟩, ⟨rfl, rfl, rfl, rfl, hrel⟩⟩
    simp only [yields_bind, yields_report, yields_pure]
    exact ⟨id, hid, origin, horigin, name, hname, signature, hsignature, raw, hraw, (), trivial,
      rfl⟩
  · rintro ⟨raw, ⟨⟨⟨id, _⟩, ⟨origin, _⟩, ⟨name, _⟩, ⟨signature, _⟩, ⟨body, _⟩⟩, hv, h⟩, hread⟩
    simp only [yields_bind, yields_report, yields_pure] at h
    obtain ⟨id, hid, origin, horigin, name, hname, signature, hsignature, body, hbody, -, -, rfl⟩ :=
      h
    have hdecl := (optional_iff_of_iff Body.decode_iff_verbatim).2 ⟨body, hbody, hread.body⟩
    refine ⟨_, hv, ?_⟩
    simp only [yields_bind, yields_report, yields_pure]
    refine ⟨id, hid, origin, horigin, name, hname, signature, hsignature, decl.body, hdecl, (),
      trivial, ?_⟩
    obtain ⟨id', origin', name', signature', body'⟩ := decl
    obtain ⟨rfl, rfl, rfl, rfl, -⟩ := hread
    rfl

theorem GlobalDecl.decode_iff_verbatim {decl : GlobalDecl B} :
    (GlobalDecl.decode code table v).Yields decl ↔
      ∃ raw, (GlobalDecl.decode .verbatim table v).Yields raw ∧ raw.ReadAs (code table) decl := by
  have hkeys : ["def_id", "meta", "name", "ty", "body"].Nodup := by decide
  unfold GlobalDecl.decode
  simp only [yields_within, record_bind hkeys]
  constructor
  · rintro ⟨⟨⟨id, _⟩, ⟨origin, _⟩, ⟨name, _⟩, ⟨ty, _⟩, ⟨body, _⟩⟩, hv, h⟩
    simp only [yields_bind, yields_report, yields_pure] at h
    obtain ⟨id, hid, origin, horigin, name, hname, ty, hty, body, hbody, -, -, rfl⟩ := h
    obtain ⟨raw, hraw, hrel⟩ := (optional_iff_of_iff Body.decode_iff_verbatim).1 hbody
    refine ⟨⟨id, origin, name, ty, raw⟩, ⟨_, hv, ?_⟩, ⟨rfl, rfl, rfl, rfl, hrel⟩⟩
    simp only [yields_bind, yields_report, yields_pure]
    exact ⟨id, hid, origin, horigin, name, hname, ty, hty, raw, hraw, (), trivial, rfl⟩
  · rintro ⟨raw, ⟨⟨⟨id, _⟩, ⟨origin, _⟩, ⟨name, _⟩, ⟨ty, _⟩, ⟨body, _⟩⟩, hv, h⟩, hread⟩
    simp only [yields_bind, yields_report, yields_pure] at h
    obtain ⟨id, hid, origin, horigin, name, hname, ty, hty, body, hbody, -, -, rfl⟩ := h
    have hdecl := (optional_iff_of_iff Body.decode_iff_verbatim).2 ⟨body, hbody, hread.body⟩
    refine ⟨_, hv, ?_⟩
    simp only [yields_bind, yields_report, yields_pure]
    refine ⟨id, hid, origin, horigin, name, hname, ty, hty, decl.body, hdecl, (), trivial, ?_⟩
    obtain ⟨id', origin', name', ty', body'⟩ := decl
    obtain ⟨rfl, rfl, rfl, rfl, -⟩ := hread
    rfl

/-! ## Listings -/

/-- The same listing, with its bodies read. -/
structure Listing.ReadAs (read : C → Outcome B) (raw : Listing C) (listing : Listing B) : Prop where
  name : listing.name = raw.name
  table : listing.table = raw.table
  groups : listing.groups = raw.groups
  types : listing.types = raw.types
  functions : List.Forall₂ (FunDecl.ReadAs read) raw.functions listing.functions
  globals : List.Forall₂ (GlobalDecl.ReadAs read) raw.globals listing.globals

namespace Listing

theorem readFrom_iff_verbatim {listing : Listing B} :
    listing.ReadFrom code v ↔
      ∃ raw : Listing Json, raw.ReadFrom .verbatim v ∧ raw.ReadAs (code raw.table) listing := by
  constructor
  · rintro ⟨files, groups, types, functions, globals, hv, htable, hgroups, htypes, hfunctions,
      hglobals⟩
    obtain ⟨rawFunctions, hfunctions, hreadFunctions⟩ :=
      forall₂_exists_between.1 (hfunctions.imp fun _ _ => FunDecl.decode_iff_verbatim.1)
    obtain ⟨rawGlobals, hglobals, hreadGlobals⟩ :=
      forall₂_exists_between.1 (hglobals.imp fun _ _ => GlobalDecl.decode_iff_verbatim.1)
    refine ⟨⟨listing.name, listing.table, listing.groups, listing.types, rawFunctions, rawGlobals⟩,
      ⟨files, groups, types, functions, globals, hv, htable, hgroups, htypes, hfunctions, hglobals⟩,
      ⟨rfl, rfl, rfl, rfl, hreadFunctions, hreadGlobals⟩⟩
  · rintro ⟨raw, ⟨files, groups, types, functions, globals, hv, htable, hgroups, htypes, hfunctions,
      hglobals⟩, hread⟩
    have hreadFunctions := forall₂_exists_between.2 ⟨_, hfunctions, hread.functions⟩
    have hreadGlobals := forall₂_exists_between.2 ⟨_, hglobals, hread.globals⟩
    obtain ⟨name, table, groups', types', functions', globals'⟩ := listing
    obtain ⟨rfl, rfl, rfl, rfl, -, -⟩ := hread
    exact ⟨files, groups, types, functions, globals, hv, htable, hgroups, htypes,
      hreadFunctions.imp fun _ _ => FunDecl.decode_iff_verbatim.2,
      hreadGlobals.imp fun _ _ => GlobalDecl.decode_iff_verbatim.2⟩

/-- Reading bodies leaves identifiers as they are, so a listing stays coherent. -/
theorem ReadAs.coherent_iff {read : C → Outcome B} {raw : Listing C} {listing : Listing B}
    (h : raw.ReadAs read listing) : listing.Coherent ↔ raw.Coherent := by
  have hfunctions : listing.functions.map FunDecl.id = raw.functions.map FunDecl.id := by
    rw [← List.forall₂_eq_eq_eq, List.forall₂_map_left_iff, List.forall₂_map_right_iff]
    exact h.functions.flip.imp fun _ _ hdecl => FunDecl.ReadAs.id hdecl
  have hglobals : listing.globals.map GlobalDecl.id = raw.globals.map GlobalDecl.id := by
    rw [← List.forall₂_eq_eq_eq, List.forall₂_map_left_iff, List.forall₂_map_right_iff]
    exact h.globals.flip.imp fun _ _ hdecl => GlobalDecl.ReadAs.id hdecl
  -- the groups name declarations by their identifiers, which are the same
  have hdeclares : ∀ group, listing.Declares group ↔ raw.Declares group := by
    intro group
    cases group with
    | types group => rw [Declares, Declares, h.types]
    | functions group =>
      have hmem := fun id => congrArg (id ∈ ·) hfunctions
      simpa only [Declares, List.mem_map] using forall₂_congr fun id _ => iff_of_eq (hmem id)
    | global id =>
      have hmem := congrArg (id ∈ ·) hglobals
      simpa only [Declares, List.mem_map] using iff_of_eq hmem
  constructor
  · intro hc
    exact ⟨h.types ▸ hc.types, hfunctions ▸ hc.functions, hglobals ▸ hc.globals,
      fun group hgroup => (hdeclares group).1 (hc.groups group (h.groups ▸ hgroup))⟩
  · intro hc
    exact ⟨h.types ▸ hc.types, hfunctions ▸ hc.functions, hglobals ▸ hc.globals,
      fun group hgroup => (hdeclares group).2 (hc.groups group (h.groups ▸ hgroup))⟩

end Listing

namespace Crate

variable {read : C → Outcome B}

/-- Behind a listing whose bodies are read stands a crate whose bodies are read. -/
theorem readAs_iff_listing {raw : Crate C} {rawListing : Listing C} (hraw : raw.Holds rawListing)
    {crate : Crate B} :
    raw.ReadAs read crate ↔
      ∃ listing : Listing B, rawListing.ReadAs read listing ∧ crate.Holds listing := by
  have hfunId : ∀ (raw : FunDecl C) (decl : FunDecl B), raw.ReadAs read decl → decl.id = raw.id :=
    fun _ _ hdecl => FunDecl.ReadAs.id hdecl
  have hglobalId : ∀ (raw : GlobalDecl C) (decl : GlobalDecl B), raw.ReadAs read decl →
      decl.id = raw.id :=
    fun _ _ hdecl => GlobalDecl.ReadAs.id hdecl
  constructor
  · intro h
    obtain ⟨functions, hreadFunctions, hfunctions⟩ :=
      (IdMap.rel_iff_list hfunId hraw.functions).1 h.functions
    obtain ⟨globals, hreadGlobals, hglobals⟩ :=
      (IdMap.rel_iff_list hglobalId hraw.globals).1 h.globals
    refine ⟨⟨rawListing.name, rawListing.table, rawListing.groups, rawListing.types, functions,
      globals⟩, ⟨rfl, rfl, rfl, rfl, hreadFunctions, hreadGlobals⟩, ?_⟩
    exact ⟨h.name.trans hraw.name, h.groups.trans hraw.groups, h.types ▸ hraw.types, hfunctions,
      hglobals⟩
  · rintro ⟨listing, hread, hholds⟩
    refine ⟨?_, ?_, ?_, ?_, ?_⟩
    · rw [hholds.name, hread.name, hraw.name]
    · rw [hholds.groups, hread.groups, hraw.groups]
    · have htypes := hholds.types
      rw [hread.types] at htypes
      exact IdMap.eq_of_perm (htypes.trans hraw.types.symm)
    · exact (IdMap.rel_iff_list hfunId hraw.functions).2
        ⟨listing.functions, hread.functions, hholds.functions⟩
    · exact (IdMap.rel_iff_list hglobalId hraw.globals).2
        ⟨listing.globals, hread.globals, hholds.globals⟩

theorem decodeWith_yields_iff_verbatim {code : BodyReader B} {v : Json} {crate : Crate B} :
    (decodeWith code v).Yields crate ↔
      ∃ raw table, (decodeWith .verbatim v).Yields raw ∧ v.ListsFiles table ∧
        raw.ReadAs (code table) crate := by
  -- on both sides stands a listing, and the two listings differ in their bodies only
  simp only [decodeWith_yields]
  constructor
  · rintro ⟨listing, hfrom, hcoherent, hholds⟩
    obtain ⟨rawListing, hrawFrom, hread⟩ := Listing.readFrom_iff_verbatim.1 hfrom
    have hrawCoherent := hread.coherent_iff.1 hcoherent
    obtain ⟨raw, hrawHolds⟩ := exists_holds hrawCoherent
    exact ⟨raw, rawListing.table, ⟨rawListing, hrawFrom, hrawCoherent, hrawHolds⟩,
      hrawFrom.listsFiles, (readAs_iff_listing hrawHolds).2 ⟨listing, hread, hholds⟩⟩
  · rintro ⟨raw, table, ⟨rawListing, hrawFrom, hrawCoherent, hrawHolds⟩, hfiles, hread⟩
    obtain rfl := hfiles.unique hrawFrom.listsFiles
    obtain ⟨listing, hreadListing, hholds⟩ := (readAs_iff_listing hrawHolds).1 hread
    exact ⟨listing, Listing.readFrom_iff_verbatim.2 ⟨rawListing, hrawFrom, hreadListing⟩,
      hreadListing.coherent_iff.2 hrawCoherent, hholds⟩

/-! ## Bodies that can be read -/

theorem mem_codes {crate : Crate B} {c : B} :
    c ∈ crate.codes ↔
      (∃ decl ∈ crate.functions.values, ∃ body, decl.body = some body ∧ body.code = c) ∨
        ∃ decl ∈ crate.globals.values, ∃ body, decl.body = some body ∧ body.code = c := by
  simp only [codes, List.mem_map, List.mem_append, List.mem_filterMap]
  grind

/-- The bodies of a crate can be read if the code of each of them can be. -/
theorem exists_readAs_iff {raw : Crate C} :
    (∃ crate, raw.ReadAs read crate) ↔ ∀ c ∈ raw.codes, ∃ b, (read c).Yields b := by
  constructor
  · rintro ⟨crate, h⟩ c hc
    rcases mem_codes.1 hc with ⟨decl, hdecl, body, hbody, rfl⟩ | ⟨decl, hdecl, body, hbody, rfl⟩
    · obtain ⟨decl', hread⟩ := h.functions.exists_of_mem decl hdecl
      exact Body.exists_rel_iff.1 ⟨_, hread.body⟩ body hbody
    · obtain ⟨decl', hread⟩ := h.globals.exists_of_mem decl hdecl
      exact Body.exists_rel_iff.1 ⟨_, hread.body⟩ body hbody
  · intro h
    have hfunction : ∀ decl ∈ raw.functions.values, ∃ decl', decl.ReadAs read decl' := by
      intro decl hdecl
      obtain ⟨body, hrel⟩ := Body.exists_rel_iff.2 fun b hb =>
        h b.code (mem_codes.2 (.inl ⟨decl, hdecl, b, hb, rfl⟩))
      exact ⟨⟨decl.id, decl.origin, decl.name, decl.signature, body⟩, rfl, rfl, rfl, rfl, hrel⟩
    have hglobal : ∀ decl ∈ raw.globals.values, ∃ decl', decl.ReadAs read decl' := by
      intro decl hdecl
      obtain ⟨body, hrel⟩ := Body.exists_rel_iff.2 fun b hb =>
        h b.code (mem_codes.2 (.inr ⟨decl, hdecl, b, hb, rfl⟩))
      exact ⟨⟨decl.id, decl.origin, decl.name, decl.ty, body⟩, rfl, rfl, rfl, rfl, hrel⟩
    obtain ⟨functions, hfunctions⟩ := IdMap.exists_rel hfunction
    obtain ⟨globals, hglobals⟩ := IdMap.exists_rel hglobal
    exact ⟨⟨raw.name, raw.groups, raw.types, functions, globals⟩, rfl, rfl, rfl, hfunctions,
      hglobals⟩

/-- **Reading bodies later.** For every reader of bodies, a document is accepted if it is accepted
with its bodies unread, and each of the bodies can then be read with the files that the document
lists. The crate is the one with unread bodies, each of them replaced by what it is read as. -/
theorem decodeWith_iff_verbatim (code : BodyReader B) (v : Json) :
    ((∃ crate, (decodeWith code v).Yields crate) ↔
        ∃ raw table, (decodeWith .verbatim v).Yields raw ∧ v.ListsFiles table ∧
          ∀ c ∈ raw.codes, ∃ b, (code table c).Yields b) ∧
      ∀ crate, (decodeWith code v).Yields crate ↔
        ∃ raw table, (decodeWith .verbatim v).Yields raw ∧ v.ListsFiles table ∧
          raw.ReadAs (code table) crate := by
  refine ⟨?_, fun crate => decodeWith_yields_iff_verbatim⟩
  constructor
  · rintro ⟨crate, h⟩
    obtain ⟨raw, table, hraw, hfiles, hread⟩ := decodeWith_yields_iff_verbatim.1 h
    exact ⟨raw, table, hraw, hfiles, exists_readAs_iff.1 ⟨crate, hread⟩⟩
  · rintro ⟨raw, table, hraw, hfiles, hcodes⟩
    obtain ⟨crate, hread⟩ := exists_readAs_iff.2 hcodes
    exact ⟨crate, decodeWith_yields_iff_verbatim.2 ⟨raw, table, hraw, hfiles, hread⟩⟩

end Crate

end BorrowIR
