import BorrowIR.Literal.Basic
import BorrowIR.Ty.Basic

/-!
# Places, operands and right-hand sides

A `Place` is a local variable and a path into it, an `Operand` reads a place or is a constant, and
an `Rvalue` is what an assignment computes.
-/

namespace BorrowIR

/-- What a field belongs to. -/
inductive FieldOwner where
  /-- A structure, or a variant of an enumeration. -/
  | adt (id : TypeDeclId) (variant : Option VariantId)
  /-- A tuple with so many components. -/
  | tuple (arity : Nat)
  /-- A variant of the builtin option type. -/
  | option (variant : VariantId)
deriving DecidableEq, Repr

/-- One step of a path into a variable. -/
inductive Projection where
  /-- The target of a reference. -/
  | deref
  /-- The content of a box. -/
  | derefBox
  /-- A field. -/
  | field (owner : FieldOwner) (id : FieldId)
deriving DecidableEq, Repr

/-- A location in memory: a local variable and the path from there, outermost step last. -/
structure Place where
  var : VarId
  projections : List Projection
deriving DecidableEq, Repr

/-- The kinds of borrows. -/
inductive BorrowKind where
  | shared
  | mutable
  /-- A mutable borrow that begins with its first use. -/
  | twoPhase
deriving DecidableEq, Repr

/-- The kinds of borrows. -/
def BorrowKind.all : List BorrowKind := [.shared, .mutable, .twoPhase]

/-- The tag of a kind of borrow in documents. -/
def BorrowKind.tag : BorrowKind → String
  | .shared => "Shared"
  | .mutable => "Mut"
  | .twoPhase => "TwoPhaseMut"

/-- How a borrow is written before its place. -/
def BorrowKind.text : BorrowKind → String
  | .shared => "&"
  | .mutable => "&mut "
  | .twoPhase => "&two-phase-mut "

/-- The operators with one operand. -/
inductive UnOp where
  | not
  | neg
deriving DecidableEq, Repr

/-- The operators with one operand. -/
def UnOp.all : List UnOp := [.not, .neg]

/-- The tag of an operator in documents. -/
def UnOp.tag : UnOp → String
  | .not => "Not"
  | .neg => "Neg"

/-- The sign of an operator. -/
def UnOp.text : UnOp → String
  | .not => "~"
  | .neg => "-"

/-- The operators with two operands. -/
inductive BinOp where
  | bitXor
  | bitAnd
  | bitOr
  | eq
  | lt
  | le
  | ne
  | ge
  | gt
  | div
  | rem
  | add
  | sub
  | mul
  | shl
  | shr
deriving DecidableEq, Repr

/-- The operators with two operands. -/
def BinOp.all : List BinOp :=
  [.bitXor, .bitAnd, .bitOr, .eq, .lt, .le, .ne, .ge, .gt, .div, .rem, .add, .sub, .mul, .shl, .shr]

/-- The tag of an operator in documents. -/
def BinOp.tag : BinOp → String
  | .bitXor => "BitXor"
  | .bitAnd => "BitAnd"
  | .bitOr => "BitOr"
  | .eq => "Eq"
  | .lt => "Lt"
  | .le => "Le"
  | .ne => "Ne"
  | .ge => "Ge"
  | .gt => "Gt"
  | .div => "Div"
  | .rem => "Rem"
  | .add => "Add"
  | .sub => "Sub"
  | .mul => "Mul"
  | .shl => "Shl"
  | .shr => "Shr"

/-- The comparisons give a boolean. -/
def BinOp.isComparison : BinOp → Bool
  | .eq | .lt | .le | .ne | .ge | .gt => true
  | _ => false

/-- The sign of an operator. -/
def BinOp.text : BinOp → String
  | .bitXor => "^"
  | .bitAnd => "&"
  | .bitOr => "|"
  | .eq => "=="
  | .lt => "<"
  | .le => "<="
  | .ne => "!="
  | .ge => ">="
  | .gt => ">"
  | .div => "/"
  | .rem => "%"
  | .add => "+"
  | .sub => "-"
  | .mul => "*"
  | .shl => "<<"
  | .shr => ">>"

/-- A constant. Some structures and variants without fields are constants. -/
inductive Constant where
  | literal (value : Literal)
  | adt (id : TypeDeclId)
  | unit
deriving DecidableEq

/-- What an operator or a call works on. -/
inductive Operand where
  | copy (place : Place)
  | move (place : Place)
  | const (ty : ErasedTy) (value : Constant)
deriving DecidableEq

/-- What an aggregate builds. -/
inductive AggregateKind where
  | tuple
  /-- A variant of the builtin option type, with the type of its content. -/
  | option (variant : VariantId) (content : ErasedTy)
  /-- A structure, or a variant of an enumeration. -/
  | adt (id : TypeDeclId) (variant : Option VariantId) (regions : List ErasedRegion)
      (types : List ErasedTy)
deriving DecidableEq

/-- What an assignment computes. -/
inductive Rvalue where
  | use (operand : Operand)
  | borrow (place : Place) (kind : BorrowKind)
  | unary (op : UnOp) (operand : Operand)
  | binary (op : BinOp) (left right : Operand)
  | discriminant (place : Place)
  | global (id : GlobalDeclId)
  | aggregate (kind : AggregateKind) (operands : List Operand)
deriving DecidableEq

end BorrowIR
