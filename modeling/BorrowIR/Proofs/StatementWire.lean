import BorrowIR.Proofs.LiteralWire
import BorrowIR.Proofs.SourceWire
import BorrowIR.Statement.Decode

/-!
# The written forms of statements

The grammar of statements in documents. It is given in layers: a `Form` says how a statement, its
content or a switch is written in terms of the forms of its parts, and `Wire` is the least relation
that is closed under the three layers. Places, operands, right-hand sides and types inside of
statements are written as their own decoders read them.

* `Statement.Wire`, `RawStatement.Wire`, `Switch.Wire`: the grammar, for the files of a table;
* `Statement.WellFormed`: the statements that can be written.
-/

namespace BorrowIR

open Decode Outcome Wire

/-! ## Calls and assertions -/

/-- Written forms of what a call calls. -/
inductive Callee.Wire : Callee → Packing → Json → Prop
  | declared {p : Packing} {id : FunDeclId} {v : Json} :
    v.IsNumeral id.index → Wire (.declared id) p (.tagged "Regular" (p.payload v))
  | builtin {p : Packing} {fn : BuiltinFun} :
    Wire (.builtin fn) p (.tagged "Assumed" (p.payload (.str fn.tag)))

/-- Written forms of calls. -/
inductive Call.Wire : Call → Packing → Json → Prop
  | mk {p : Packing} {call : Call} {v f d : Json} {rs ts as : List Json} :
    v.IsRecord [("func", f), ("region_args", .arr rs), ("type_args", .arr ts), ("args", .arr as),
      ("dest", d)] →
      call.callee.Wire p f →
      List.Forall₂ (fun v (region : ErasedRegion) => v = .str region.tag) rs call.regions →
      List.Forall₂ (fun v ty => (ErasedTy.decode v).Yields ty) ts call.types →
      List.Forall₂ (fun v arg => (Operand.decode v).Yields arg) as call.args →
      (Place.decode d).Yields call.dest → Wire call p v

/-- Written forms of assertions. -/
inductive Assertion.Wire : Assertion → Json → Prop
  | mk {assertion : Assertion} {v c : Json} :
    v.IsRecord [("cond", c), ("expected", .bool assertion.expected)] →
      (Operand.decode c).Yields assertion.cond → Wire assertion v

/-! ## The layers -/

/-- Written forms of a branch: the labels in their order, and the body. -/
inductive Branch.Form {L : Type} (label : L → Packing → Json → Prop)
    (body : Statement → Packing → Json → Prop) : List L × Statement → Packing → Json → Prop
  | mk {p : Packing} {labels : List L} {s : Statement} {ls : List Json} {v : Json} :
    Each label labels (p.child 0) ls → body s (p.child 1) v →
      Form label body (labels, s) p (.arr [.arr ls, v])

/-- Written forms of statements, with contents whose forms are given by `raw`. -/
inductive Statement.Form (table : FileTable) (raw : RawStatement → Packing → Json → Prop) :
    Statement → Packing → Json → Prop
  | mk {p : Packing} {origin : Provenance} {content : RawStatement} {v o c : Json} :
    v.IsRecord [("meta", o), ("content", c)] → origin.Wire table (p.child 0) o →
      raw content (p.child 1) c → Form table raw (.mk origin content) p v

/-- Written forms of what statements do, with statements and switches whose forms are given by
`statement` and `switch`. -/
inductive RawStatement.Form (statement : Statement → Packing → Json → Prop)
    (switch : Switch → Packing → Json → Prop) : RawStatement → Packing → Json → Prop
  | assign {p : Packing} {dest : Place} {value : Rvalue} {d r : Json} :
    (Place.decode d).Yields dest → (Rvalue.decode r).Yields value →
      Form statement switch (.assign dest value) p (.tagged "Assign" (.arr [d, r]))
  | fakeRead {p : Packing} {place : Place} {v : Json} :
    (Place.decode v).Yields place →
      Form statement switch (.fakeRead place) p (.tagged "FakeRead" (p.payload v))
  | setDiscriminant {p : Packing} {place : Place} {variant : VariantId} {v n : Json} :
    (Place.decode v).Yields place → n.IsNumeral variant.index →
      Form statement switch (.setDiscriminant place variant) p
        (.tagged "SetDiscriminant" (.arr [v, n]))
  | drop {p : Packing} {place : Place} {v : Json} :
    (Place.decode v).Yields place →
      Form statement switch (.drop place) p (.tagged "Drop" (p.payload v))
  | assert {p : Packing} {assertion : Assertion} {v : Json} :
    assertion.Wire v →
      Form statement switch (.assert assertion) p (.tagged "Assert" (p.payload v))
  | call {p : Packing} {target : Call} {v : Json} :
    target.Wire (p.child 0) v →
      Form statement switch (.call target) p (.tagged "Call" (p.payload v))
  | panic {p : Packing} : Form statement switch .panic p (.str "Panic")
  | return {p : Packing} : Form statement switch .return p (.str "Return")
  | break {p : Packing} {depth : Nat} {v : Json} :
    v.IsNumeral depth → Form statement switch (.break depth) p (.tagged "Break" (p.payload v))
  | continue {p : Packing} {depth : Nat} {v : Json} :
    v.IsNumeral depth →
      Form statement switch (.continue depth) p (.tagged "Continue" (p.payload v))
  | nop {p : Packing} : Form statement switch .nop p (.str "Nop")
  | sequence {p : Packing} {first rest : Statement} {f r : Json} :
    statement first (p.child 0) f → statement rest (p.child 1) r →
      Form statement switch (.sequence first rest) p (.tagged "Sequence" (.arr [f, r]))
  | switch {p : Packing} {choice : Switch} {v : Json} :
    switch choice (p.child 0) v →
      Form statement switch (.switch choice) p (.tagged "Switch" (p.payload v))
  | loop {p : Packing} {body : Statement} {v : Json} :
    statement body (p.child 0) v →
      Form statement switch (.loop body) p (.tagged "Loop" (p.payload v))

/-- Written forms of switches, with statements whose forms are given by `statement`. The values of
the branches of a switch over integers have the type of the switch. -/
inductive Switch.Form (statement : Statement → Packing → Json → Prop) :
    Switch → Packing → Json → Prop
  | cond {p : Packing} {test : Operand} {thenBranch elseBranch : Statement} {c t e : Json} :
    (Operand.decode c).Yields test → statement thenBranch (p.child 0) t →
      statement elseBranch (p.child 1) e →
      Form statement (.cond test thenBranch elseBranch) p (.tagged "If" (.arr [c, t, e]))
  | values {p : Packing} {discr : Operand} {ty : IntTy}
      {branches : List (List Scalar × Statement)} {otherwise : Statement} {d o : Json}
      {bs : List Json} :
    (Operand.decode d).Yields discr →
      Each (Branch.Form Scalar.Wire statement) branches (p.child 0) bs →
      (∀ branch ∈ branches, ∀ scalar ∈ branch.1, scalar.ty = ty) →
      statement otherwise (p.child 1) o →
      Form statement (.values discr ty branches otherwise) p
        (.tagged "SwitchInt" (.arr [d, .str ty.tag, .arr bs, o]))
  | variants {p : Packing} {place : Place} {branches : List (List VariantId × Statement)}
      {otherwise : Statement} {d o : Json} {bs : List Json} :
    (Place.decode d).Yields place →
      Each (Branch.Form EntityId.Wire statement) branches (p.child 0) bs →
      statement otherwise (p.child 1) o →
      Form statement (.variants place branches otherwise) p
        (.tagged "Match" (.arr [d, .arr bs, o]))

/-! ## The grammar -/

mutual
/-- Written forms of statements. -/
inductive Statement.Wire (table : FileTable) : Statement → Packing → Json → Prop
  | intro {s : Statement} {p : Packing} {v : Json} :
    Statement.Form table (RawStatement.Wire table) s p v → Statement.Wire table s p v

/-- Written forms of what statements do. -/
inductive RawStatement.Wire (table : FileTable) : RawStatement → Packing → Json → Prop
  | intro {content : RawStatement} {p : Packing} {v : Json} :
    RawStatement.Form (Statement.Wire table) (Switch.Wire table) content p v →
      RawStatement.Wire table content p v

/-- Written forms of switches. -/
inductive Switch.Wire (table : FileTable) : Switch → Packing → Json → Prop
  | intro {choice : Switch} {p : Packing} {v : Json} :
    Switch.Form (Statement.Wire table) choice p v → Switch.Wire table choice p v
end

/-! ## What can be written -/

/-- Some node is read as this value. -/
def Decode.Readable {α : Type} (decode : Json → Outcome α) (a : α) : Prop :=
  ∃ v, (decode v).Yields a

/-- The number of a declared function has 64 bits. -/
def Callee.WellFormed : Callee → Prop
  | .declared id => id.index < naturalBound
  | .builtin _ => True

/-- The parts of a call can be written. -/
structure Call.WellFormed (call : Call) : Prop where
  callee : call.callee.WellFormed
  types : ∀ ty ∈ call.types, Readable ErasedTy.decode ty
  args : ∀ arg ∈ call.args, Readable Operand.decode arg
  dest : Readable Place.decode call.dest

mutual
/-- The spans of a statement are well formed at every depth, and so are the other parts. -/
inductive Statement.WellFormed (table : FileTable) : Statement → Prop
  | mk {origin : Provenance} {content : RawStatement} :
    origin.WellFormed table → RawStatement.WellFormed table content →
      Statement.WellFormed table (.mk origin content)

/-- The parts of what a statement does are well formed. -/
inductive RawStatement.WellFormed (table : FileTable) : RawStatement → Prop
  | assign {dest : Place} {value : Rvalue} :
    Readable Place.decode dest → Readable Rvalue.decode value →
      RawStatement.WellFormed table (.assign dest value)
  | fakeRead {place : Place} :
    Readable Place.decode place → RawStatement.WellFormed table (.fakeRead place)
  | setDiscriminant {place : Place} {variant : VariantId} :
    Readable Place.decode place → variant.index < naturalBound →
      RawStatement.WellFormed table (.setDiscriminant place variant)
  | drop {place : Place} :
    Readable Place.decode place → RawStatement.WellFormed table (.drop place)
  | assert {assertion : Assertion} :
    Readable Operand.decode assertion.cond → RawStatement.WellFormed table (.assert assertion)
  | call {target : Call} : target.WellFormed → RawStatement.WellFormed table (.call target)
  | panic : RawStatement.WellFormed table .panic
  | return : RawStatement.WellFormed table .return
  | break {depth : Nat} : depth < naturalBound → RawStatement.WellFormed table (.break depth)
  | continue {depth : Nat} : depth < naturalBound → RawStatement.WellFormed table (.continue depth)
  | nop : RawStatement.WellFormed table .nop
  | sequence {first rest : Statement} :
    Statement.WellFormed table first → Statement.WellFormed table rest →
      RawStatement.WellFormed table (.sequence first rest)
  | switch {choice : Switch} :
    Switch.WellFormed table choice → RawStatement.WellFormed table (.switch choice)
  | loop {body : Statement} :
    Statement.WellFormed table body → RawStatement.WellFormed table (.loop body)

/-- The parts of a switch are well formed, and its values have its type. -/
inductive Switch.WellFormed (table : FileTable) : Switch → Prop
  | cond {test : Operand} {thenBranch elseBranch : Statement} :
    Readable Operand.decode test → Statement.WellFormed table thenBranch →
      Statement.WellFormed table elseBranch →
      Switch.WellFormed table (.cond test thenBranch elseBranch)
  | values {discr : Operand} {ty : IntTy} {branches : List (List Scalar × Statement)}
      {otherwise : Statement} :
    Readable Operand.decode discr → (∀ branch ∈ branches, ∀ scalar ∈ branch.1, scalar.ty = ty) →
      (∀ branch ∈ branches, Statement.WellFormed table branch.2) →
      Statement.WellFormed table otherwise →
      Switch.WellFormed table (.values discr ty branches otherwise)
  | variants {place : Place} {branches : List (List VariantId × Statement)}
      {otherwise : Statement} :
    Readable Place.decode place →
      (∀ branch ∈ branches, ∀ variant ∈ branch.1, variant.index < naturalBound) →
      (∀ branch ∈ branches, Statement.WellFormed table branch.2) →
      Statement.WellFormed table otherwise →
      Switch.WellFormed table (.variants place branches otherwise)
end

end BorrowIR
