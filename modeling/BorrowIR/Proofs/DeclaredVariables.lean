import BorrowIR.Decl.Text
import BorrowIR.Proofs.StatementLayout
import BorrowIR.Proofs.WellFormedCrates

/-!
# The variables that a printed function introduces

A function with a body is printed with a parameter for each input of its signature, and below it
there is a line for each variable that is neither the result nor an argument. A parameter has the
name of the argument in its place. Whether there are as many inputs as arguments is not checked when
a crate is decoded, so there may be arguments behind the last input, and they stand nowhere.

* `FunText`: functions as they are written, and the variables that they introduce;
* `FunDecl.laidOut`: a function with a body is written down as its `FunText`;
* `Crate.introduced_of_decode`: which variables the functions of an accepted crate introduce, and
  when these are all of them.
-/

namespace BorrowIR

open Decode Outcome

/-! ## Functions as they are written -/

/-- A parameter, with the variable that it introduces, if there is one, and the text of its type. -/
structure Parameter where
  var : Option Var
  ty : String

/-- The text of a parameter. -/
def Parameter.text (param : Parameter) : String :=
  match param.var with
  | some var => var.text ++ ": " ++ param.ty
  | none => param.ty

/-- The line that introduces a variable with a type. -/
def letLine (entry : Var × String) : Line := ⟨0, "let " ++ entry.1.text ++ ": " ++ entry.2 ++ ";"⟩

/-- A function as it is written: a head and the parameters, the result, the variables that are
introduced in the block with their types, and the lines of the code. -/
structure FunText where
  head : String
  params : List Parameter
  result : String
  vars : List (Var × String)
  code : List Line

namespace FunText

/-- The line before the block. -/
def signature (t : FunText) : String :=
  t.head ++ "(" ++ commaSeparated (t.params.map Parameter.text) ++ ") -> " ++ t.result

/-- The lines of a function. -/
def lines (t : FunText) : List Line :=
  Line.block (t.signature ++ " ") (t.vars.map letLine ++ t.code)

/-- The text of a function. -/
def text (t : FunText) : String := "\n".intercalate (t.lines.map Line.written)

/-- The variables that are introduced by a parameter. -/
def named (t : FunText) : List Var := t.params.filterMap Parameter.var

/-- The variables that are introduced, in the order of the text. -/
def introduced (t : FunText) : List Var := t.named ++ t.vars.map Prod.fst

end FunText

/-- The parameters for inputs with these types: each one introduces the argument in its place, if
there is one. -/
def parameters (scope : Scope) (types : List SigTy) (args : List Var) : List Parameter :=
  types.mapIdx fun i ty => ⟨args[i]?, SigTy.text scope ty⟩

/-- A function with this body as it is written. -/
def FunDecl.written (crate : Crate Statement) (decl : FunDecl Statement) (body : Body Statement) :
    FunText :=
  let outer : Scope := ⟨crate, decl.signature.generics, []⟩
  let inner : Scope := ⟨crate, decl.signature.generics, body.locals⟩
  { head := "fn " ++ decl.name.text ++ outer.paramsText
    params := parameters outer decl.signature.inputs body.args
    result := SigTy.text outer decl.signature.output
    vars := body.temporaries.map fun var => (var, ErasedTy.text inner var.ty)
    code := body.code.layout inner }

/-! ## Parameters -/

theorem parameters_cons (scope : Scope) (ty : SigTy) (types : List SigTy) (args : List Var) :
    parameters scope (ty :: types) args =
      ⟨args.head?, SigTy.text scope ty⟩ :: parameters scope types args.tail := by
  rw [parameters, List.mapIdx_cons, parameters, List.head?_eq_getElem?]
  simp

/-- The inputs are printed as the parameters. -/
theorem inputTexts_eq_parameters (scope : Scope) (types : List SigTy) (args : List Var) :
    inputTexts scope types args = (parameters scope types args).map Parameter.text := by
  -- the arguments run out before the inputs or after them, so both lists are taken apart
  induction types generalizing args with
  | nil => cases args <;> rfl
  | cons ty types ih =>
    rw [parameters_cons, List.map_cons, ← ih]
    cases args <;> rfl

/-- The parameters introduce the arguments that there are inputs for. -/
theorem filterMap_parameters (scope : Scope) (types : List SigTy) (args : List Var) :
    (parameters scope types args).filterMap Parameter.var = args.take types.length := by
  induction types generalizing args with
  | nil => rfl
  | cons ty types ih =>
    rw [parameters_cons, List.filterMap_cons, ih]
    cases args with
    | nil => simp
    | cons arg args => rfl

/-! ## The layout of a function -/

/-- Variables are declared on lines of their own above what follows. -/
theorem Doc.LaidOut.declared {scope : Scope} {doc : Doc} {lines : List Line} (h : doc.LaidOut lines)
    (vars : List Var) :
    (Doc.lines (vars.map (Var.declaration scope) ++ [doc])).LaidOut
      ((vars.map fun var => (var, ErasedTy.text scope var.ty)).map letLine ++ lines) := by
  induction vars with
  | nil => exact h.one
  | cons var vars ih =>
    have hvar : (Var.declaration scope var).LaidOut [letLine (var, ErasedTy.text scope var.ty)] :=
      .text _
    exact hvar.cons ih (by simp)

/-- A function with a body is written down with the arguments in its signature and its other
variables in the block. -/
theorem FunDecl.laidOut (crate : Crate Statement) {decl : FunDecl Statement} {body : Body Statement}
    (hbody : decl.body = some body) :
    (decl.doc crate).LaidOut (decl.written crate body).lines := by
  have hsignature : decl.signature.text crate decl.name.text body.args =
      (decl.written crate body).signature := by
    rw [Signature.text, inputTexts_eq_parameters]
    rfl
  rw [FunDecl.doc, hbody]
  simp only
  rw [hsignature]
  exact .block _ ((Statement.laidOut body.code).declared body.temporaries) (by simp)

/-- The text of a function with a body. -/
theorem FunDecl.render_eq_written (crate : Crate Statement) {decl : FunDecl Statement}
    {body : Body Statement} (hbody : decl.body = some body) :
    (decl.doc crate).render = (decl.written crate body).text :=
  (FunDecl.laidOut crate hbody).renderAt 0

/-! ## What is introduced -/

theorem FunDecl.named_written (crate : Crate Statement) (decl : FunDecl Statement)
    (body : Body Statement) :
    (decl.written crate body).named = body.args.take decl.signature.inputs.length :=
  filterMap_parameters _ _ _

theorem FunDecl.vars_written (crate : Crate Statement) (decl : FunDecl Statement)
    (body : Body Statement) : (decl.written crate body).vars.map Prod.fst = body.temporaries := by
  rw [written, List.map_map]
  exact List.map_id _

/-- The variables behind the result are the arguments and the others. -/
theorem Body.Framed.locals_tail {B : Type} {body : Body B} (h : body.Framed) :
    body.locals.tail = body.args ++ body.temporaries := by
  obtain ⟨result, -, hlocals⟩ := h.locals_eq
  rw [← hlocals, List.tail_cons]

/-- What is introduced are the variables behind the result, but for the arguments behind the last
input. -/
theorem FunDecl.introduced_perm (crate : Crate Statement) (decl : FunDecl Statement)
    {body : Body Statement} (h : body.Framed) :
    ((decl.written crate body).introduced
      ++ body.args.drop decl.signature.inputs.length).Perm body.locals.tail := by
  rw [FunText.introduced, named_written, vars_written, h.locals_tail]
  -- the arguments that are left out are moved from the end to their place among the others
  calc body.args.take decl.signature.inputs.length ++ body.temporaries
        ++ body.args.drop decl.signature.inputs.length
    _ = body.args.take decl.signature.inputs.length
          ++ (body.temporaries ++ body.args.drop decl.signature.inputs.length) :=
      List.append_assoc _ _ _
    List.Perm _ (body.args.take decl.signature.inputs.length
          ++ (body.args.drop decl.signature.inputs.length ++ body.temporaries)) :=
      List.perm_append_comm.append_left _
    _ = body.args ++ body.temporaries := by
      rw [← List.append_assoc, List.take_append_drop]

/-- All variables but the result are introduced if and only if there is an input for each
argument. -/
theorem FunDecl.introduced_perm_iff (crate : Crate Statement) (decl : FunDecl Statement)
    {body : Body Statement} (h : body.Framed) :
    (decl.written crate body).introduced.Perm body.locals.tail ↔
      body.argCount ≤ decl.signature.inputs.length := by
  have hperm := decl.introduced_perm crate h
  have hdrop : body.args.drop decl.signature.inputs.length = [] ↔
      body.argCount ≤ decl.signature.inputs.length := by
    rw [List.drop_eq_nil_iff, h.length_args]
  rw [← hdrop]
  constructor
  · intro hall
    -- what is left out does not add to the length
    have hlength := hall.length_eq.trans hperm.length_eq.symm
    rw [List.length_append] at hlength
    exact List.eq_nil_of_length_eq_zero (by omega)
  · intro hnil
    rwa [hnil, List.append_nil] at hperm

/-- **The variables of printed functions.** A function with a body, in an accepted crate, is printed
as it is written down here: its parameters introduce the arguments that there are inputs for, and
the lines in its block introduce the variables behind the arguments. So no variable is introduced
twice and the result is not introduced at all; of the other variables, just the arguments behind the
last input are left out. Therefore all of them are introduced if and only if there is an input for
each argument. -/
theorem Crate.introduced_of_decode {v : Json} {crate : Crate Statement} {decl : FunDecl Statement}
    {body : Body Statement} (h : (Crate.decode v).Yields crate)
    (hdecl : decl ∈ crate.functions.values) (hbody : decl.body = some body) :
    (decl.doc crate).render = (decl.written crate body).text ∧
      (decl.written crate body).named = body.args.take decl.signature.inputs.length ∧
      (decl.written crate body).vars.map Prod.fst = body.temporaries ∧
      ((decl.written crate body).introduced
        ++ body.args.drop decl.signature.inputs.length).Perm body.locals.tail ∧
      ((decl.written crate body).introduced.Perm body.locals.tail ↔
        body.argCount ≤ decl.signature.inputs.length) := by
  have hmem : body ∈ crate.bodies :=
    List.mem_append_left _ (List.mem_filterMap.2 ⟨decl, hdecl, hbody⟩)
  have hframed := ((Crate.wellFormed_of_decode h).bodies body hmem).framed
  exact ⟨decl.render_eq_written crate hbody, decl.named_written crate body,
    decl.vars_written crate body, decl.introduced_perm crate hframed,
    decl.introduced_perm_iff crate hframed⟩

/-! ## What is introduced stands in the text -/

/-- The characters of texts are those of the texts with separators between them. -/
theorem mem_intercalate {separator : String} {texts : List String} {text : String} {c : Char}
    (htext : text ∈ texts) (hc : c ∈ text.toList) : c ∈ (separator.intercalate texts).toList := by
  induction texts with
  | nil => exact absurd htext List.not_mem_nil
  | cons first texts ih =>
    cases texts with
    | nil =>
      obtain rfl := List.mem_singleton.1 htext
      rwa [String.intercalate_singleton]
    | cons next texts =>
      rw [String.intercalate_cons_cons, String.toList_append, List.mem_append,
        String.toList_append, List.mem_append]
      obtain rfl | htext := List.mem_cons.1 htext
      · exact .inl (.inl hc)
      · exact .inr (ih htext)

namespace FunText

variable {t : FunText} {var : Var} {c : Char}

theorem mem_signature (hvar : var ∈ t.named) (hc : c ∈ var.text.toList) :
    c ∈ t.signature.toList := by
  obtain ⟨param, hparam, hvar⟩ := List.mem_filterMap.1 hvar
  have htext : c ∈ param.text.toList := by
    rw [Parameter.text, hvar]
    simp [hc]
  have hparams : c ∈ (commaSeparated (t.params.map Parameter.text)).toList :=
    mem_intercalate (List.mem_map_of_mem hparam) htext
  simp [signature, hparams]

/-- A line with the text of a variable that is introduced. -/
theorem exists_line (hvar : var ∈ t.introduced) (hc : c ∈ var.text.toList) :
    ∃ line ∈ t.lines, c ∈ line.text.toList := by
  -- a parameter stands in the first line, and any other variable in a line of the block
  obtain hnamed | hvars := List.mem_append.1 hvar
  · refine ⟨⟨0, t.signature ++ " " ++ "\x7b"⟩, List.mem_cons_self, ?_⟩
    simp [mem_signature hnamed hc]
  · obtain ⟨entry, hentry, rfl⟩ := List.mem_map.1 hvars
    have hline : letLine entry ∈ t.vars.map letLine ++ t.code :=
      List.mem_append_left _ (List.mem_map_of_mem hentry)
    refine ⟨(letLine entry).deeper, ?_, by simp [letLine, Line.deeper, hc]⟩
    exact List.mem_cons_of_mem _ (List.mem_append_left _ (List.mem_map_of_mem hline))

/-- However a text is read as a function, it has the characters of the variables that the function
introduces. -/
theorem mem_text (hvar : var ∈ t.introduced) (hc : c ∈ var.text.toList) : c ∈ t.text.toList := by
  obtain ⟨line, hline, hc⟩ := exists_line hvar hc
  refine mem_intercalate (List.mem_map_of_mem hline) ?_
  rw [Line.written, String.toList_append]
  exact List.mem_append_right _ hc

end FunText

/-! ## A function with more arguments than inputs -/

namespace Json

/-- A variable with a name. -/
def booleanVar (index name : String) : Json :=
  .obj [("index", .num index), ("name", .str name), ("ty", .str "Bool")]

/-- A function with the arguments `x` and `y`, but with only one input. -/
def surplusFunction : Json :=
  .obj [
    ("body", .obj [("arg_count", .num "2"), ("body", topStatement .null (.str "Return")),
      ("locals", .arr [namelessVar (.str "Bool"), booleanVar "1" "x", booleanVar "2" "y",
        booleanVar "3" "z"]),
      ("meta", topOrigin .null)]),
    ("def_id", .num "0"), ("meta", topOrigin .null),
    ("name", .arr [.tagged "Ident" (.str "f")]),
    ("signature", .obj [("inputs", .arr [.str "Bool"]), ("num_early_bound_regions", .num "0"),
      ("output", .str "Bool"), ("region_params", .arr []), ("regions_hierarchy", .arr []),
      ("type_params", .arr [])])]

/-- A crate with this function. -/
def surplusArgument : Json :=
  .obj [("declarations", .arr [.tagged "Fun" (.tagged "NonRec" (.num "0"))]),
    ("functions", .arr [surplusFunction]), ("globals", .arr []), ("id_to_file", oneFile),
    ("name", .str "krate"), ("types", .arr [])]

end Json

/-- The body with the variables `x`, `y` and `z`. -/
def Body.surplusArgument : Body Statement where
  origin := ⟨.top, none⟩
  argCount := 2
  locals := [⟨⟨0⟩, none, .bool⟩, ⟨⟨1⟩, some "x", .bool⟩, ⟨⟨2⟩, some "y", .bool⟩,
    ⟨⟨3⟩, some "z", .bool⟩]
  code := .mk ⟨.top, none⟩ .return

/-- The function with only one input. -/
def FunDecl.surplusArgument : FunDecl Statement where
  id := ⟨0⟩
  origin := ⟨.top, none⟩
  name := ⟨[.ident "f"]⟩
  signature := ⟨[], 0, [], [], [.bool], .bool⟩
  body := some .surplusArgument

/-- The crate with this function. -/
def Crate.surplusArgument : Crate Statement :=
  ⟨"krate", [.functions (.single ⟨0⟩)], .empty, IdMap.empty.insert ⟨0⟩ .surplusArgument, .empty⟩

theorem Crate.decode_surplusArgument :
    (Crate.decode Json.surplusArgument).Yields .surplusArgument := by
  unfold Yields
  cbv

theorem FunDecl.render_surplusArgument :
    (FunDecl.surplusArgument.doc .surplusArgument).render =
      "fn f(x@1: bool) -> bool \x7b\n  let z@3: bool;\n  return;\n\x7d" := by
  decide

/-- Of the arguments `x` and `y`, there is an input for the first one only. -/
theorem Crate.introduced_of_decode_surplusArgument :
    (Crate.decode Json.surplusArgument).Yields .surplusArgument ∧
      (FunDecl.surplusArgument.written .surplusArgument .surplusArgument).text =
        "fn f(x@1: bool) -> bool \x7b\n  let z@3: bool;\n  return;\n\x7d" ∧
      (FunDecl.surplusArgument.written .surplusArgument .surplusArgument).introduced.map Var.text =
        ["x@1", "z@3"] ∧
      ¬ (FunDecl.surplusArgument.written .surplusArgument .surplusArgument).introduced.Perm
        Body.surplusArgument.locals.tail := by
  obtain ⟨hrender, hnamed, hvars, -, hall⟩ :=
    introduced_of_decode decode_surplusArgument List.mem_cons_self rfl
  refine ⟨decode_surplusArgument, hrender.symm.trans FunDecl.render_surplusArgument, ?_, ?_⟩
  · rw [FunText.introduced, hnamed, hvars]
    rfl
  · exact fun h => absurd (hall.1 h) (by decide)

/-- There is an accepted crate with a function whose text, however it is read, does not introduce
all variables but the result. -/
theorem Crate.not_forall_introduced :
    ¬ ∀ (v : Json) (crate : Crate Statement), (Crate.decode v).Yields crate →
        ∀ decl ∈ crate.functions.values, ∀ body, decl.body = some body →
          ∃ t : FunText, (decl.doc crate).render = t.text ∧ t.introduced.Perm body.locals.tail := by
  intro h
  obtain ⟨t, htext, hall⟩ :=
    h _ _ decode_surplusArgument _ List.mem_cons_self Body.surplusArgument rfl
  have hvar : (⟨⟨2⟩, some "y", .bool⟩ : Var) ∈ t.introduced := hall.mem_iff.2 (by decide)
  have hy : 'y' ∈ t.text.toList := FunText.mem_text hvar (by decide)
  rw [← htext, FunDecl.render_surplusArgument] at hy
  exact absurd hy (by decide)

end BorrowIR
