import BorrowIR.Expr.Decode
import BorrowIR.Source.Decode
import BorrowIR.Statement.Basic

/-!
# Decoding statements

Statements, what they do and switches are decoded together, from a node down to its parts.

* `Switch.checkValues`: the branches of a switch over integers are for values of its type.
-/

namespace BorrowIR

open Decode Outcome

/-- A builtin function. -/
def BuiltinFun.decode (v : Json) : Outcome BuiltinFun :=
  within "assumed_fun_id" (tagOnly "AssumedFunId" all tag v)

/-- What a call calls. -/
def Callee.decode (v : Json) : Outcome Callee :=
  within "fun_id" do
    match ← variant v with
    | ⟨"Regular", some payload⟩ => .declared <$> wrapped entityId payload
    | ⟨"Assumed", some payload⟩ => .builtin <$> wrapped BuiltinFun.decode payload
    | ⟨tag, _⟩ => fail (.unknownVariant "FunId" tag)

/-- A call. -/
def Call.decode (v : Json) : Outcome Call :=
  within "call" do
    let (callee, regions, types, args, dest) ←
      record ["func", "region_args", "type_args", "args", "dest"] v
    return {
      callee := ← Callee.decode callee
      regions := ← list ErasedRegion.decode regions
      types := ← list ErasedTy.decode types
      args := ← list Operand.decode args
      dest := ← Place.decode dest }

/-- An assertion. -/
def Assertion.decode (v : Json) : Outcome Assertion :=
  within "assert" do
    let (cond, expected) ← record ["cond", "expected"] v
    return { cond := ← Operand.decode cond, expected := ← Decode.bool expected }

/-- Checks that the values of the branches have the type of the switch. -/
def Switch.checkValues (ty : IntTy) (branches : List (List Scalar × Statement)) : Outcome Unit :=
  match (branches.flatMap Prod.fst).find? fun scalar => scalar.ty ≠ ty with
  | some scalar => fail (.violation (.foreignBranch ty scalar))
  | none => pure ()

mutual
/-- A statement. -/
def Statement.decode (table : FileTable) (v : Json) : Outcome Statement :=
  within "statement" do
    let (origin, ⟨content, _⟩) ← record ["meta", "content"] v
    return .mk (← Provenance.decode table origin) (← RawStatement.decode table content)
termination_by sizeOf v
decreasing_by omega

/-- What a statement does. -/
def RawStatement.decode (table : FileTable) (v : Json) : Outcome RawStatement :=
  within "raw_statement" do
    match ← variant v with
    | ⟨"Assign", some payload⟩ =>
      let (dest, value) ← components 2 payload.1
      return .assign (← Place.decode dest) (← Rvalue.decode value)
    | ⟨"FakeRead", some payload⟩ => .fakeRead <$> wrapped Place.decode payload
    | ⟨"SetDiscriminant", some payload⟩ =>
      let (place, variant) ← components 2 payload.1
      return .setDiscriminant (← Place.decode place) (← entityId variant)
    | ⟨"Drop", some payload⟩ => .drop <$> wrapped Place.decode payload
    | ⟨"Assert", some payload⟩ => .assert <$> wrapped Assertion.decode payload
    | ⟨"Call", some payload⟩ => .call <$> wrapped Call.decode payload
    | ⟨"Panic", none⟩ => return .panic
    | ⟨"Return", none⟩ => return .return
    | ⟨"Break", some payload⟩ => .break <$> wrapped natural payload
    | ⟨"Continue", some payload⟩ => .continue <$> wrapped natural payload
    | ⟨"Nop", none⟩ => return .nop
    | ⟨"Sequence", some ⟨payload, _⟩⟩ =>
      let (⟨first, _⟩, ⟨rest, _⟩) ← components 2 payload
      return .sequence (← Statement.decode table first) (← Statement.decode table rest)
    | ⟨"Switch", some ⟨payload, _⟩⟩ =>
      .switch <$> wrappedBelow payload fun switch _ => Switch.decode table switch
    | ⟨"Loop", some ⟨payload, _⟩⟩ =>
      .loop <$> wrappedBelow payload fun body _ => Statement.decode table body
    | ⟨tag, _⟩ => fail (.unknownVariant "RawStatement" tag)
termination_by sizeOf v
decreasing_by all_goals omega

/-- A switch. -/
def Switch.decode (table : FileTable) (v : Json) : Outcome Switch :=
  within "switch" do
    match ← variant v with
    | ⟨"If", some ⟨payload, _⟩⟩ =>
      let (test, ⟨thenBranch, _⟩, ⟨elseBranch, _⟩) ← components 3 payload
      return .cond (← Operand.decode test) (← Statement.decode table thenBranch)
        (← Statement.decode table elseBranch)
    | ⟨"SwitchInt", some ⟨payload, _⟩⟩ =>
      let (discr, ty, ⟨branches, _⟩, ⟨otherwise, _⟩) ← components 4 payload
      let discr ← Operand.decode discr
      let ty ← IntTy.decode ty
      let branches ← listBelow branches fun branch _ => do
        let (values, ⟨body, _⟩) ← components 2 branch
        return (← list Scalar.decode values, ← Statement.decode table body)
      Switch.checkValues ty branches
      return .values discr ty branches (← Statement.decode table otherwise)
    | ⟨"Match", some ⟨payload, _⟩⟩ =>
      let (place, ⟨branches, _⟩, ⟨otherwise, _⟩) ← components 3 payload
      let place ← Place.decode place
      let branches ← listBelow branches fun branch _ => do
        let (variants, ⟨body, _⟩) ← components 2 branch
        return (← list entityId variants, ← Statement.decode table body)
      return .variants place branches (← Statement.decode table otherwise)
    | ⟨tag, _⟩ => fail (.unknownVariant "Switch" tag)
termination_by sizeOf v
decreasing_by all_goals omega
end

end BorrowIR
