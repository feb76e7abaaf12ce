import BorrowIR.Inspect
import BorrowIR.Proofs.OneFunction
import BorrowIR.Proofs.ReadCompress

/-!
# Crates in texts

* `Crate.ofText_eq_ok`: a text holds a crate if it is read as a document that holds one;
* `Crate.ofText_oneFunction`: the printed document of a crate with one function holds this crate.
-/

namespace BorrowIR

open Decode Outcome

/-- A text is accepted if it is the text of a node, within the limit, and the node is that of a
crate. -/
theorem Crate.ofText_eq_ok {input : String} {crate : Crate Statement} :
    Crate.ofText input = .ok crate ↔
      ∃ v, Json.read Json.nestingLimit input = .ok v ∧ (Crate.decode v).Yields crate := by
  unfold Crate.ofText Yields
  cases Json.read Json.nestingLimit input with
  | error error => exact ⟨nofun, fun ⟨_, h, _⟩ => nomatch h⟩
  | ok v =>
    cases hresult : (Crate.decode v).result with
    | error failure => simp [Except.mapError, hresult]
    | ok crate' => simp [Except.mapError, hresult]

/-! ## Documents with one function -/

namespace Json

theorem Canonical.tagged {tag : String} {payload : Json} (h : payload.Canonical) :
    (Json.tagged tag payload).Canonical :=
  .obj (List.pairwise_singleton _ _) (by simpa using h)

theorem canonical_top : top.Canonical :=
  .obj (by decide) (by simpa using ⟨.num false 0, .num false 1⟩)

theorem canonical_topSpan : topSpan.Canonical :=
  .obj (by decide) (by simpa using ⟨canonical_top, .tagged (.num false 0)⟩)

theorem canonical_oneFile : oneFile.Canonical := by
  have hentry : (Json.arr [.tagged "LocalId" (.num "0"),
      .tagged "Local" (.str "lib.rs")]).Canonical :=
    .arr (by simpa using ⟨.tagged (.num false 0), .tagged (.str _)⟩)
  exact .arr (by simpa using hentry)

theorem canonical_bareSignature : bareSignature.Canonical := by
  have hnil : (Json.arr []).Canonical := .arr (List.forall_mem_nil _)
  exact .obj (by decide) (by simpa using ⟨hnil, .num false 0, .str _, hnil⟩)

namespace Canonical

/-- A provenance of the examples is canonical if the span of the expanded code is, or is absent. -/
theorem topOrigin {source : Json} (h : source.Canonical) : (topOrigin source).Canonical := by
  have hsorted : ["generated_from_span", "span"].Pairwise (· < ·) := by decide
  exact .obj hsorted (by simpa using ⟨h, canonical_topSpan⟩)

theorem topStatement {source content : Json} (hsource : source.Canonical)
    (hcontent : content.Canonical) : (topStatement source content).Canonical := by
  have hsorted : ["content", "meta"].Pairwise (· < ·) := by decide
  exact .obj hsorted (by simpa using ⟨hcontent, .topOrigin hsource⟩)

theorem namelessVar {ty : Json} (h : ty.Canonical) : (namelessVar ty).Canonical := by
  have hsorted : ["index", "name", "ty"].Pairwise (· < ·) := by decide
  exact .obj hsorted (by simpa using ⟨.num false 0, .null, h⟩)

variable {locals : List Json} {code : Json}

theorem bareBody (hlocals : ∀ v ∈ locals, v.Canonical) (hcode : code.Canonical) :
    (bareBody locals code).Canonical := by
  have hsorted : ["arg_count", "body", "locals", "meta"].Pairwise (· < ·) := by decide
  exact .obj hsorted (by simpa using ⟨.num false 0, hcode, .arr hlocals, .topOrigin .null⟩)

/-- A function of the examples is canonical if its variables and its code are. -/
theorem bareFunction (hlocals : ∀ v ∈ locals, v.Canonical) (hcode : code.Canonical) :
    (bareFunction locals code).Canonical := by
  have hsorted : ["body", "def_id", "meta", "name", "signature"].Pairwise (· < ·) := by decide
  have hname : (Json.arr []).Canonical := .arr (List.forall_mem_nil _)
  exact .obj hsorted (by simpa using
    ⟨.bareBody hlocals hcode, .num false 0, .topOrigin .null, hname, canonical_bareSignature⟩)

/-- The crate of one function is canonical if the variables and the code of the function are. -/
theorem oneFunction (hlocals : ∀ v ∈ locals, v.Canonical) (hcode : code.Canonical) :
    (oneFunction locals code).Canonical := by
  have hsorted : ["declarations", "functions", "globals", "id_to_file", "name", "types"].Pairwise
      (· < ·) := by decide
  have hnil : (Json.arr []).Canonical := .arr (List.forall_mem_nil _)
  have hfuns : (Json.arr [Json.bareFunction locals code]).Canonical :=
    .arr (by simpa using .bareFunction hlocals hcode)
  exact .obj hsorted (by simpa using
    ⟨hnil, hfuns, hnil, canonical_oneFile, .str _, hnil⟩)

end Canonical

end Json

/-- A document with one function is read and accepted from its text. -/
theorem Crate.ofText_oneFunction {locals : List Json} {code : Json} {vars : List Var}
    {s : Statement} (hlocals : ∀ v ∈ locals, v.Canonical) (hcode : code.Canonical)
    (hvars : List.Forall₂ (fun v var => (Var.decode v).Yields var) locals vars) (hne : vars ≠ [])
    (hs : (Statement.decode .one code).Yields s)
    (hdepth : (Json.oneFunction locals code).depth < Json.nestingLimit) :
    Json.read Json.nestingLimit (Json.oneFunction locals code).compress =
        .ok (Json.oneFunction locals code) ∧
      Crate.ofText (Json.oneFunction locals code).compress = .ok (.oneFunction vars s) := by
  have hread := Json.read_compress (.oneFunction hlocals hcode) hdepth
  exact ⟨hread, Crate.ofText_eq_ok.2 ⟨_, hread, Crate.decode_oneFunction hvars hne hs⟩⟩

end BorrowIR
