import BorrowIR.Proofs.CrateListing
import BorrowIR.Proofs.StatementGrammar
import Mathlib

/-!
# Crates with one function

Documents of crates whose only declaration is a function without arguments. The variables and the
code of its body are given, and so are the spans that statements were generated from.

* `Crate.decode_oneFunction`: such a document is accepted if its variables and its code are.
-/

namespace BorrowIR

open Decode Outcome

namespace Json

/-- An object is a record if every key is found in it. -/
theorem isRecord_of_lookup {fs fields : List (String × Json)} (hkeys : (fields.map Prod.fst).Nodup)
    (hlen : fs.length = fields.length)
    (hall : ∀ field ∈ fields, fs.lookup field.1 = some field.2) :
    (Json.obj fs).IsRecord fields := by
  refine ⟨fs, rfl, ?_⟩
  have hzip : (fields.map Prod.fst).zip (fields.map Prod.snd) = fields := by
    rw [List.zip_map', List.map_id'']
    simp
  rw [← hzip]
  refine (Lookup.lookup_all_iff_perm hkeys (by simp)).1 ⟨?_, by simpa using hlen⟩
  rw [List.forall₂_map_left_iff, List.forall₂_map_right_iff]
  exact List.forall₂_same.2 hall

/-- The first place of a file. -/
def top : Json := .obj [("col", .num "0"), ("line", .num "1")]

/-- The empty span at the top of file 0. -/
def topSpan : Json :=
  .obj [("beg", top), ("end", top), ("file_id", .tagged "LocalId" (.num "0"))]

/-- A provenance at the top of file 0, with the span of the code that was expanded, if any. -/
def topOrigin (source : Json) : Json := .obj [("generated_from_span", source), ("span", topSpan)]

/-- A statement at the top of file 0. -/
def topStatement (source content : Json) : Json :=
  .obj [("content", content), ("meta", topOrigin source)]

/-- A variable without a name. -/
def namelessVar (ty : Json) : Json := .obj [("index", .num "0"), ("name", .null), ("ty", ty)]

/-- The files of a crate with one file. -/
def oneFile : Json := .arr [.arr [.tagged "LocalId" (.num "0"), .tagged "Local" (.str "lib.rs")]]

/-- The signature of a function without arguments. -/
def bareSignature : Json :=
  .obj [("inputs", .arr []), ("num_early_bound_regions", .num "0"), ("output", .str "Bool"),
    ("region_params", .arr []), ("regions_hierarchy", .arr []), ("type_params", .arr [])]

/-- The body of a function without arguments. -/
def bareBody (locals : List Json) (code : Json) : Json :=
  .obj [("arg_count", .num "0"), ("body", code), ("locals", .arr locals),
    ("meta", topOrigin .null)]

/-- A function without arguments. -/
def bareFunction (locals : List Json) (code : Json) : Json :=
  .obj [("body", bareBody locals code), ("def_id", .num "0"), ("meta", topOrigin .null),
    ("name", .arr []), ("signature", bareSignature)]

/-- A crate with this function only. -/
def oneFunction (locals : List Json) (code : Json) : Json :=
  .obj [("declarations", .arr []), ("functions", .arr [bareFunction locals code]),
    ("globals", .arr []), ("id_to_file", oneFile), ("name", .str "krate"), ("types", .arr [])]

end Json

/-- The span at the top of the file. -/
def Span.top : Span := ⟨.path "lib.rs", ⟨1, 0⟩, ⟨1, 0⟩⟩

/-- The table with one file. -/
def FileTable.one : FileTable := ⟨[(.localFile ⟨0⟩, .path "lib.rs")], by decide⟩

/-- The function without arguments, with these variables and this code. -/
def FunDecl.bare (locals : List Var) (code : Statement) : FunDecl Statement where
  id := ⟨0⟩
  origin := ⟨.top, none⟩
  name := ⟨[]⟩
  signature := ⟨[], 0, [], [], [], .bool⟩
  body := some ⟨⟨.top, none⟩, 0, locals, code⟩

/-- The crate with this function only. -/
def Crate.oneFunction (locals : List Var) (code : Statement) : Crate Statement :=
  ⟨"krate", [], .empty, IdMap.empty.insert ⟨0⟩ (.bare locals code), .empty⟩

/-! ## Decoding -/

theorem FileTable.decode_oneFile : (FileTable.decode Json.oneFile).Yields .one := by
  unfold Yields
  cbv

theorem Provenance.decode_top :
    (Provenance.decode .one (Json.topOrigin .null)).Yields ⟨.top, none⟩ := by
  unfold Yields
  cbv

theorem Provenance.decode_generated :
    (Provenance.decode .one (Json.topOrigin Json.topSpan)).Yields ⟨.top, some .top⟩ := by
  unfold Yields
  cbv

theorem Signature.decode_bare :
    (Signature.decode Json.bareSignature).Yields ⟨[], 0, [], [], [], .bool⟩ := by
  unfold Yields
  cbv

variable {locals : List Json} {vars : List Var} {code : Json} {s : Statement}

/-- A body of the examples is decoded if its variables and its code are. -/
theorem Body.decode_bare
    (hlocals : List.Forall₂ (fun v var => (Var.decode v).Yields var) locals vars)
    (hvars : vars ≠ []) (hcode : (Statement.decode .one code).Yields s) :
    (Body.decode Statement.decode .one (Json.bareBody locals code)).Yields
      ⟨⟨.top, none⟩, 0, vars, s⟩ := by
  have hrecord : (Json.bareBody locals code).IsRecord
      [("meta", Json.topOrigin .null), ("arg_count", .num "0"), ("locals", .arr locals),
        ("body", code)] :=
    Json.isRecord_of_lookup (by simp) rfl (by simp [List.lookup])
  rw [Body.decode, yields_within, record_bind (by decide)]
  refine ⟨(⟨Json.topOrigin .null, hrecord.sizeOf_lt (by simp)⟩,
    ⟨.num "0", hrecord.sizeOf_lt (by simp)⟩, ⟨.arr locals, hrecord.sizeOf_lt (by simp)⟩,
    ⟨code, hrecord.sizeOf_lt (by simp)⟩), hrecord, ?_⟩
  have hcount : (natural (.num "0")).Yields 0 := by
    unfold Yields
    cbv
  have hlen : 0 < vars.length := List.length_pos_iff.2 hvars
  have hcheck : (Body.checkLocals 0 vars.length).Yields () := by
    rw [Body.checkLocals, if_pos hlen, yields_pure]
  refine yields_bind.2 ⟨_, Provenance.decode_top, yields_bind.2 ⟨_, hcount, ?_⟩⟩
  refine yields_bind.2 ⟨_, list_yields.2 ⟨_, rfl, hlocals⟩, yields_bind.2 ⟨_, hcheck, ?_⟩⟩
  exact yields_bind.2 ⟨_, hcode, yields_pure.2 rfl⟩

theorem FunDecl.decode_bare
    (hlocals : List.Forall₂ (fun v var => (Var.decode v).Yields var) locals vars)
    (hvars : vars ≠ []) (hcode : (Statement.decode .one code).Yields s) :
    (FunDecl.decode Statement.decode .one (Json.bareFunction locals code)).Yields
      (.bare vars s) := by
  have hrecord : (Json.bareFunction locals code).IsRecord
      [("def_id", .num "0"), ("meta", Json.topOrigin .null), ("name", .arr []),
        ("signature", Json.bareSignature), ("body", Json.bareBody locals code)] :=
    Json.isRecord_of_lookup (by simp) rfl (by simp [List.lookup])
  rw [FunDecl.decode, yields_within, record_bind (by decide)]
  refine ⟨(⟨.num "0", hrecord.sizeOf_lt (by simp)⟩,
    ⟨Json.topOrigin .null, hrecord.sizeOf_lt (by simp)⟩,
    ⟨.arr [], hrecord.sizeOf_lt (by simp)⟩, ⟨Json.bareSignature, hrecord.sizeOf_lt (by simp)⟩,
    ⟨Json.bareBody locals code, hrecord.sizeOf_lt (by simp)⟩), hrecord, ?_⟩
  have hid : (entityId (.num "0")).Yields (⟨0⟩ : FunDeclId) := by
    unfold Yields
    cbv
  have hname : (Name.decode (.arr [])).Yields ⟨[]⟩ := by
    unfold Yields
    cbv
  have hbody : (optional (Body.decode Statement.decode .one) (Json.bareBody locals code)).Yields
      (some ⟨⟨.top, none⟩, 0, vars, s⟩) :=
    optional_yields.2 (.inr ⟨by simp [Json.bareBody], _, rfl,
      Body.decode_bare hlocals hvars hcode⟩)
  refine yields_bind.2 ⟨_, hid, yields_bind.2 ⟨_, Provenance.decode_top, ?_⟩⟩
  refine yields_bind.2 ⟨_, hname, yields_bind.2 ⟨_, Signature.decode_bare, ?_⟩⟩
  refine yields_bind.2 ⟨_, hbody, yields_bind.2 ⟨(), yields_report.2 trivial, ?_⟩⟩
  exact yields_pure.2 rfl

/-- A document with one function is accepted if its variables, of which there is at least one, and
its code are. -/
theorem Crate.decode_oneFunction
    (hlocals : List.Forall₂ (fun v var => (Var.decode v).Yields var) locals vars)
    (hvars : vars ≠ []) (hcode : (Statement.decode .one code).Yields s) :
    (Crate.decode (Json.oneFunction locals code)).Yields (.oneFunction vars s) := by
  have hrecord : (Json.oneFunction locals code).IsRecord
      [("name", .str "krate"), ("id_to_file", Json.oneFile), ("declarations", .arr []),
        ("types", .arr []), ("functions", .arr [Json.bareFunction locals code]),
        ("globals", .arr [])] :=
    Json.isRecord_of_lookup (by simp) rfl (by simp [List.lookup])
  have hfun := FunDecl.decode_bare hlocals hvars hcode
  refine Crate.decodeWith_yields.2 ⟨⟨"krate", .one, [], [], [.bare vars s], []⟩, ?_, ?_, ?_⟩
  · exact ⟨Json.oneFile, [], [], [_], [], hrecord, FileTable.decode_oneFile, .nil, .nil,
      .cons hfun .nil, .nil⟩
  · exact ⟨List.nodup_nil, List.nodup_singleton _, List.nodup_nil, List.forall_mem_nil _⟩
  · exact ⟨rfl, rfl, .refl _, .refl _, .refl _⟩

/-! ## Variables and statements -/

theorem Var.decode_nameless {ty : Json} {t : ErasedTy} (h : (ErasedTy.decode ty).Yields t) :
    (Var.decode (Json.namelessVar ty)).Yields ⟨⟨0⟩, none, t⟩ := by
  have hrecord : (Json.namelessVar ty).IsRecord
      [("index", .num "0"), ("name", .null), ("ty", ty)] :=
    Json.isRecord_obj _
  have hid : (entityId (.num "0")).Yields (⟨0⟩ : VarId) := by
    unfold Yields
    cbv
  rw [Var.decode, yields_within, record_bind (by decide)]
  refine ⟨(⟨_, hrecord.sizeOf_lt (by simp)⟩, ⟨_, hrecord.sizeOf_lt (by simp)⟩,
    ⟨_, hrecord.sizeOf_lt (by simp)⟩), hrecord, ?_⟩
  refine yields_bind.2 ⟨_, hid, yields_bind.2 ⟨none, optional_yields.2 (.inl ⟨rfl, rfl⟩), ?_⟩⟩
  exact yields_bind.2 ⟨_, h, yields_pure.2 rfl⟩

/-- A statement at the top of the file is decoded if what it does is. -/
theorem Statement.decode_top {source content : Json} {origin : Provenance} {raw : RawStatement}
    (horigin : (Provenance.decode .one (Json.topOrigin source)).Yields origin)
    (h : (RawStatement.decode .one content).Yields raw) :
    (Statement.decode .one (Json.topStatement source content)).Yields (.mk origin raw) := by
  obtain ⟨p, hp⟩ := Provenance.decode_iff.1 horigin
  have hrecord : (Json.topStatement source content).IsRecord
      [("meta", Json.topOrigin source), ("content", content)] :=
    Json.isRecord_of_lookup (by simp) rfl (by simp [List.lookup])
  exact Statement.decode_form.2 ⟨.join false [p], .mk hrecord hp h⟩

end BorrowIR
