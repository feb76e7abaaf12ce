import BorrowIR.Expr.Basic
import BorrowIR.Source.Span

/-!
# Statements

The control flow of a body is structured: conditionals, switches, matches and loops contain
statements, and a sequence joins two of them.

* `Statement.flatten` lists the statements of a sequence, along its right spine.
-/

namespace BorrowIR

/-- The functions that every crate knows without declaring them. -/
inductive BuiltinFun where
  | replace
  | boxNew
  | boxDeref
  | boxDerefMut
  | boxFree
  | vecNew
  | vecPush
  | vecInsert
  | vecLen
  | vecIndex
  | vecIndexMut
deriving DecidableEq, Repr

/-- The builtin functions. -/
def BuiltinFun.all : List BuiltinFun :=
  [.replace, .boxNew, .boxDeref, .boxDerefMut, .boxFree, .vecNew, .vecPush, .vecInsert, .vecLen,
    .vecIndex, .vecIndexMut]

/-- The tag of a builtin function, by which it is also printed. -/
def BuiltinFun.tag : BuiltinFun → String
  | .replace => "Replace"
  | .boxNew => "BoxNew"
  | .boxDeref => "BoxDeref"
  | .boxDerefMut => "BoxDerefMut"
  | .boxFree => "BoxFree"
  | .vecNew => "VecNew"
  | .vecPush => "VecPush"
  | .vecInsert => "VecInsert"
  | .vecLen => "VecLen"
  | .vecIndex => "VecIndex"
  | .vecIndexMut => "VecIndexMut"

/-- What a call calls. -/
inductive Callee where
  | declared (id : FunDeclId)
  | builtin (fn : BuiltinFun)
deriving DecidableEq, Repr

/-- A call of a function; its result goes to `dest`. -/
structure Call where
  callee : Callee
  regions : List ErasedRegion
  types : List ErasedTy
  args : List Operand
  dest : Place
deriving DecidableEq

/-- The condition has to have the expected value. -/
structure Assertion where
  cond : Operand
  expected : Bool
deriving DecidableEq

mutual
/-- A statement, with the code that it comes from. -/
inductive Statement where
  | mk (origin : Provenance) (content : RawStatement)

/-- What a statement does. -/
inductive RawStatement where
  | assign (dest : Place) (value : Rvalue)
  | fakeRead (place : Place)
  | setDiscriminant (place : Place) (variant : VariantId)
  | drop (place : Place)
  | assert (assertion : Assertion)
  | call (target : Call)
  | panic
  | return
  /-- Leaves a loop: the innermost one for 0, the one around it for 1, and so on. -/
  | break (depth : Nat)
  /-- Goes on with a loop, counted as for `break`. -/
  | continue (depth : Nat)
  | nop
  | sequence (first rest : Statement)
  | switch (choice : Switch)
  | loop (body : Statement)

/-- A choice of one statement out of several. -/
inductive Switch where
  | cond (test : Operand) (thenBranch elseBranch : Statement)
  /-- The branch with the value of the operand among its values. -/
  | values (discr : Operand) (ty : IntTy) (branches : List (List Scalar × Statement))
      (otherwise : Statement)
  /-- The branch with the variant of the place among its variants. -/
  | variants (place : Place) (branches : List (List VariantId × Statement))
      (otherwise : Statement)
end

namespace Statement

/-- Where a statement comes from. -/
def origin : Statement → Provenance
  | .mk origin _ => origin

/-- What a statement does. -/
def content : Statement → RawStatement
  | .mk _ content => content

/-- The statements of a sequence in their order. Only the second part of a sequence is taken apart
again. -/
def flatten : Statement → List Statement
  | .mk _ (.sequence first rest) => first :: flatten rest
  | statement => [statement]

end Statement

end BorrowIR
