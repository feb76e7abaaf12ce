import BorrowIR.Proofs.CrateLevels
import BorrowIR.Proofs.CrateTexts

/-!
# Which crates can be printed in object notation

The object notation has a limit on the levels of data, and the reader has one on the containers of
a document. A document below the second limit can be above the first one, since there are up to one
and a half levels for each container.

* `Crate.ron_of_accepted`: a crate from a document that is at most 81 containers deep is printed;
* `Crate.exists_refused_of_depth`: this is the greatest number with this property;
* `Crate.not_forall_ron`: so not every crate that is accepted is printed.
-/

namespace BorrowIR

open Decode Outcome

/-- There is no object notation for a crate that is nested beyond the limit. -/
theorem Crate.ron?_eq_none {crate : Crate Statement} :
    crate.ron? = none ↔ Datum.ronLimit < (crate.datum Statement.datum).levels := by
  unfold Crate.ron? Datum.ron?
  split
  · rename_i hle
    exact ⟨nofun, fun hlt => absurd hle (by omega)⟩
  · rename_i hlt
    exact ⟨fun _ => by omega, fun _ => rfl⟩

/-! ## Crates with one function -/

/-- The document of one function is four containers deeper than what is deepest in it. -/
theorem Json.depth_oneFunction (locals : List Json) (code : Json) :
    (oneFunction locals code).depth = max (max code.depth (elemDepth locals + 1)) 3 + 4 := by
  have horigin : (topOrigin .null).depth = 3 := rfl
  have hsignature : bareSignature.depth = 2 := rfl
  have hfile : oneFile.depth = 3 := rfl
  -- from the inside out: the body, the function, and the crate around it
  have hbody : (bareBody locals code).depth =
      max (max code.depth (elemDepth locals + 1)) 3 + 1 := by
    simp only [bareBody, depth, fieldDepth, horigin]
    omega
  have hfun : (bareFunction locals code).depth = (bareBody locals code).depth + 1 := by
    simp only [bareFunction, depth, fieldDepth, elemDepth, horigin, hsignature]
    omega
  simp only [oneFunction, depth, fieldDepth, elemDepth, hfile, hfun]
  omega

/-- A crate is nine levels above the code and the variables of its function. -/
theorem Crate.levels_oneFunction (vars : List Var) (code : Statement) :
    max code.datum.levels (Datum.ofList Var.datum vars).levels + 9 ≤
      ((Crate.oneFunction vars code).datum Statement.datum).levels := by
  -- two levels for the body, three for the function, and four for the crate
  have hbody : max code.datum.levels (Datum.ofList Var.datum vars).levels + 2 ≤
      (Body.datum Statement.datum ⟨⟨.top, none⟩, 0, vars, code⟩).levels := by
    simp only [Body.datum, Datum.levels, Datum.fieldLevels]
    omega
  have hfun : max code.datum.levels (Datum.ofList Var.datum vars).levels + 5 ≤
      ((FunDecl.bare vars code).datum Statement.datum).levels := by
    simp only [FunDecl.datum, FunDecl.bare, Datum.ofOption, Datum.levels, Datum.fieldLevels]
    omega
  simp only [Crate.oneFunction, Crate.datum, IdMap.datum, IdMap.insert, IdMap.empty,
    IdMap.insertEntry, List.map_cons, List.map_nil, Datum.levels, Datum.fieldLevels,
    Datum.entryLevels]
  omega

/-! ## Loops in loops -/

/-- A statement in so many loops. The statement in the middle comes from expanded code, so that its
provenance is as deep as it can be. -/
def Json.loops : Nat → Json
  | 0 => topStatement topSpan (.str "Nop")
  | n + 1 => topStatement .null (.tagged "Loop" (loops n))

/-- A statement in so many loops. -/
def Statement.loops : Nat → Statement
  | 0 => .mk ⟨.top, some .top⟩ .nop
  | n + 1 => .mk ⟨.top, none⟩ (.loop (loops n))

theorem Json.canonical_loops (n : Nat) : (loops n).Canonical := by
  induction n with
  | zero => exact .topStatement canonical_topSpan (.str _)
  | succ n ih => exact .topStatement .null (.tagged ih)

/-- A loop is two containers. -/
theorem Json.depth_loops (n : Nat) : (loops n).depth = 2 * n + 4 := by
  induction n with
  | zero => rfl
  | succ n ih =>
    simp only [loops, topStatement, topOrigin, topSpan, top, tagged, depth, fieldDepth, ih]
    omega

theorem Statement.decode_loops (n : Nat) :
    (Statement.decode .one (Json.loops n)).Yields (.loops n) := by
  induction n with
  | zero =>
    have hnop : (RawStatement.decode .one (.str "Nop")).Yields .nop :=
      RawStatement.decode_of_form (p := .bare) .nop
    exact Statement.decode_top Provenance.decode_generated hnop
  | succ n ih =>
    exact Statement.decode_top Provenance.decode_top
      (RawStatement.decode_of_form (p := .bare) (.loop ih))

/-- A loop is three levels. -/
theorem Statement.levels_loops (n : Nat) : (Statement.loops n).datum.levels = 3 * n + 9 := by
  induction n with
  | zero => rfl
  | succ n ih =>
    simp only [loops, datum, RawStatement.datum, Provenance.datum, Datum.ofOption,
      Span.levels_datum, Datum.levels, Datum.fieldLevels, ih]
    omega

namespace Crate

/-- The document of a crate with a statement in so many loops. -/
def loopsDocument (n : Nat) : Json := Json.oneFunction [Json.namelessVar (.str "Bool")] (.loops n)

/-- The crate with a statement in so many loops. -/
def loops (n : Nat) : Crate Statement := oneFunction [⟨⟨0⟩, none, .bool⟩] (.loops n)

theorem depth_loopsDocument (n : Nat) : (loopsDocument n).depth = 2 * n + 8 := by
  rw [loopsDocument, Json.depth_oneFunction, Json.depth_loops]
  simp only [Json.namelessVar, Json.depth, Json.fieldDepth, Json.elemDepth]
  omega

theorem ofText_loops {n : Nat} (h : 2 * n + 8 < Json.nestingLimit) :
    Json.read Json.nestingLimit (loopsDocument n).compress = .ok (loopsDocument n) ∧
      ofText (loopsDocument n).compress = .ok (loops n) := by
  have hvar : (Var.decode (Json.namelessVar (.str "Bool"))).Yields ⟨⟨0⟩, none, .bool⟩ :=
    Var.decode_nameless (Ty.decode_of_reading .bool)
  have hcanonical : ∀ v ∈ [Json.namelessVar (.str "Bool")], v.Canonical := by
    simpa using .namelessVar (.str "Bool")
  refine ofText_oneFunction hcanonical (Json.canonical_loops n) (.cons hvar .nil)
    (List.cons_ne_nil _ _) (Statement.decode_loops n) ?_
  rwa [← loopsDocument, depth_loopsDocument]

/-- Each loop is three levels of the data, so loops come near to the bound. -/
theorem levels_loops_ge (n : Nat) :
    3 * n + 18 ≤ ((loops n).datum Statement.datum).levels := by
  have hle := levels_oneFunction [⟨⟨0⟩, none, .bool⟩] (.loops n)
  rw [Statement.levels_loops] at hle
  unfold loops
  omega

/-- **Depth against the object notation.** A crate that is accepted is printed if and only if its
data has no more levels than the notation writes. There are at most three levels for two containers
of the document, and six levels more, so a crate is printed, whatever it is, if its document has at
most 81 containers one in another. -/
theorem ron_of_accepted {input : String} {v : Json} {crate : Crate Statement}
    (hread : Json.read Json.nestingLimit input = .ok v) (hcrate : ofText input = .ok crate) :
    ((∃ text, crate.ron? = some text) ↔
        (crate.datum Statement.datum).levels ≤ Datum.ronLimit) ∧
      2 * (crate.datum Statement.datum).levels ≤ 3 * v.depth + 12 ∧
      (v.depth ≤ 81 → ∃ text, crate.ron? = some text) := by
  obtain ⟨v', hread', hdecode⟩ := ofText_eq_ok.1 hcrate
  rw [hread, Except.ok.injEq] at hread'
  subst hread'
  have hfits : (crate.datum Statement.datum).Fits v 12 := decode_fits v crate hdecode
  have hprinted : (∃ text, crate.ron? = some text) ↔
      (crate.datum Statement.datum).levels ≤ Datum.ronLimit := by
    rw [← Option.ne_none_iff_exists', Ne, ron?_eq_none]
    omega
  -- one and a half times 81, and six, is still within the limit
  refine ⟨hprinted, hfits, fun hdepth => hprinted.2 ?_⟩
  unfold Datum.ronLimit
  omega

/-- A statement in 36 loops is printed. -/
theorem ron_loops_36 :
    Json.read Json.nestingLimit (loopsDocument 36).compress = .ok (loopsDocument 36) ∧
      ofText (loopsDocument 36).compress = .ok (loops 36) ∧ (loopsDocument 36).depth ≤ 81 ∧
        ∃ text, (loops 36).ron? = some text := by
  obtain ⟨hread, hcrate⟩ := ofText_loops (n := 36) (by decide)
  have hdepth : (loopsDocument 36).depth ≤ 81 := by
    rw [depth_loopsDocument]
    decide
  exact ⟨hread, hcrate, hdepth, (ron_of_accepted hread hcrate).2.2 hdepth⟩

/-- **The bound is sharp.** There is an accepted document of depth 82 whose crate is refused. -/
theorem exists_refused_of_depth :
    ∃ (input : String) (v : Json) (crate : Crate Statement),
      Json.read Json.nestingLimit input = .ok v ∧ ofText input = .ok crate ∧ v.depth = 82 ∧
        crate.ron? = none := by
  obtain ⟨hread, hcrate⟩ := ofText_loops (n := 37) (by decide)
  refine ⟨_, _, _, hread, hcrate, depth_loopsDocument 37, ron?_eq_none.2 ?_⟩
  exact Nat.lt_of_lt_of_le (by decide) (levels_loops_ge 37)

end Crate

/-! ## Slices of slices -/

/-- The type of slices of a parameter, in so many slices. -/
def Json.slices : Nat → Json
  | 0 => .tagged "TypeVar" (.num "0")
  | n + 1 => .tagged "Slice" (slices n)

/-- A type parameter in so many slices. -/
def ErasedTy.slices : Nat → ErasedTy
  | 0 => .var ⟨0⟩
  | n + 1 => .slice (slices n)

theorem Json.canonical_slices (n : Nat) : (slices n).Canonical := by
  induction n with
  | zero => exact .tagged (.num false 0)
  | succ n ih => exact .tagged ih

theorem Json.depth_slices (n : Nat) : (slices n).depth = n + 1 := by
  induction n with
  | zero => rfl
  | succ n ih => rw [slices, depth_tagged, ih]

theorem ErasedTy.decode_slices (n : Nat) :
    (ErasedTy.decode (Json.slices n)).Yields (.slices n) := by
  induction n with
  | zero =>
    have hzero : (Json.num "0").IsNumeral 0 := ⟨"0", rfl, by decide⟩
    exact Ty.decode_of_reading (@Ty.Reading.var _ _ false _ _ hzero)
  | succ n ih => exact Ty.decode_of_reading (@Ty.Reading.slice _ _ false _ _ ih)

/-- A slice is one level, and an identifier is a level that the document does not have. -/
theorem ErasedTy.levels_slices (n : Nat) : (ErasedTy.datum (.slices n)).levels = n + 2 := by
  induction n with
  | zero => rfl
  | succ n ih => rw [slices, ErasedTy.datum, Ty.datumWith, Datum.levels, ← ErasedTy.datum, ih]

namespace Crate

/-- The document of a crate with a variable in so many slices. -/
def slicesDocument (n : Nat) : Json :=
  Json.oneFunction [Json.namelessVar (.slices n)] (Json.topStatement .null (.str "Nop"))

/-- The crate with a variable in so many slices. -/
def slices (n : Nat) : Crate Statement :=
  oneFunction [⟨⟨0⟩, none, .slices n⟩] (.mk ⟨.top, none⟩ .nop)

theorem depth_slicesDocument (n : Nat) : (slicesDocument n).depth = max (n + 7) 8 := by
  rw [slicesDocument, Json.depth_oneFunction]
  simp only [Json.topStatement, Json.topOrigin, Json.topSpan, Json.top, Json.tagged,
    Json.namelessVar, Json.depth, Json.fieldDepth, Json.elemDepth, Json.depth_slices]
  omega

/-- The crate of slices is accepted, as long as the document is within the limit. -/
theorem ofText_slices {n : Nat} (h : max (n + 7) 8 < Json.nestingLimit) :
    ofText (slicesDocument n).compress = .ok (slices n) := by
  have hvar := Var.decode_nameless (ErasedTy.decode_slices n)
  have hnop : (Statement.decode .one (Json.topStatement .null (.str "Nop"))).Yields
      (.mk ⟨.top, none⟩ .nop) :=
    Statement.decode_top Provenance.decode_top (RawStatement.decode_of_form (p := .bare) .nop)
  have hcanonical : ∀ v ∈ [Json.namelessVar (.slices n)], v.Canonical := by
    simpa using .namelessVar (Json.canonical_slices n)
  refine (ofText_oneFunction hcanonical (.topStatement .null (.str _)) (.cons hvar .nil)
    (List.cons_ne_nil _ _) hnop ?_).2
  rwa [← slicesDocument, depth_slicesDocument]

/-- Each slice is one level of the data, and there are fifteen around them. -/
theorem levels_slices_ge (n : Nat) : n + 15 ≤ ((slices n).datum Statement.datum).levels := by
  have hle := levels_oneFunction [⟨⟨0⟩, none, .slices n⟩] (.mk ⟨.top, none⟩ .nop)
  have hvars : (Datum.ofList Var.datum [⟨⟨0⟩, none, .slices n⟩]).levels = n + 6 := by
    simp only [Datum.ofList, Var.datum, List.map_cons, List.map_nil, Datum.ofOption, Datum.levels,
      Datum.elemLevels, Datum.fieldLevels, EntityId.levels_datum, ErasedTy.levels_slices]
    omega
  rw [hvars] at hle
  unfold slices
  omega

/-- **Not all accepted crates are printed.** A variable in 120 slices makes a document of the
greatest depth that is read, whose data has more levels than the object notation writes. -/
theorem not_forall_ron :
    ¬ ∀ (input : String) (crate : Crate Statement), ofText input = .ok crate →
      ∃ text, crate.ron? = some text := by
  intro hall
  obtain ⟨text, htext⟩ := hall _ _ (ofText_slices (n := 120) (by decide))
  have hnone : (slices 120).ron? = none :=
    ron?_eq_none.2 (Nat.lt_of_lt_of_le (by decide) (levels_slices_ge 120))
  rw [hnone] at htext
  cases htext

end Crate

end BorrowIR
