import BorrowIR.Proofs.Ensures
import BorrowIR.Proofs.StatementGrammar

/-!
# Statements inside of statements

* `Statement.Occurs t s`: the statement `t` is `s` or stands in it, at any depth;
* `Statement.Everywhere P s`: what `s` and all statements in it do satisfies `P`;
* `Statement.decode_induction`: to know something of all statements that are decoded, one layer of
  the grammar is looked at, with the knowledge of the layers below it.
-/

namespace BorrowIR

open Decode Outcome Wire

/-! ## Occurrence -/

/-- The statements directly in a switch. -/
def Switch.parts : Switch → List Statement
  | .cond _ thenBranch elseBranch => [thenBranch, elseBranch]
  | .values _ _ branches otherwise => branches.map Prod.snd ++ [otherwise]
  | .variants _ branches otherwise => branches.map Prod.snd ++ [otherwise]

/-- The statements directly in another one. -/
def RawStatement.parts : RawStatement → List Statement
  | .sequence first rest => [first, rest]
  | .switch choice => choice.parts
  | .loop body => [body]
  | .assign .. | .fakeRead _ | .setDiscriminant .. | .drop _ | .assert _ | .call _ | .panic
  | .return | .break _ | .continue _ | .nop => []

namespace Statement

/-- **Occurrence.** The statement `t` is the other one or stands in it, at any depth. -/
inductive Occurs (t : Statement) : Statement → Prop
  | refl : Occurs t t
  | part {s part : Statement} : part ∈ s.content.parts → Occurs t part → Occurs t s

/-- What the statement does, and what the statements in it do, satisfies the condition. -/
def Everywhere (P : RawStatement → Prop) (s : Statement) : Prop := ∀ t, Occurs t s → P t.content

/-- What occurs in a statement is the statement itself or occurs in one of its parts. -/
theorem occurs_iff {t s : Statement} :
    t.Occurs s ↔ t = s ∨ ∃ part ∈ s.content.parts, t.Occurs part := by
  constructor
  · intro h
    cases h with
    | refl => exact .inl rfl
    | part hpart ht => exact .inr ⟨_, hpart, ht⟩
  · rintro (rfl | ⟨part, hpart, ht⟩)
    · exact .refl
    · exact .part hpart ht

theorem Occurs.trans {u t s : Statement} (hu : u.Occurs t) (ht : t.Occurs s) : u.Occurs s := by
  induction ht with
  | refl => exact hu
  | part hpart _ ih => exact .part hpart ih

/-- A rule holds everywhere if it holds here and everywhere in the parts. -/
theorem everywhere_iff {P : RawStatement → Prop} {s : Statement} :
    s.Everywhere P ↔ P s.content ∧ ∀ part ∈ s.content.parts, part.Everywhere P := by
  constructor
  · intro h
    exact ⟨h s .refl, fun part hpart t ht => h t (.part hpart ht)⟩
  · rintro ⟨hs, hparts⟩ t ht
    rcases occurs_iff.1 ht with rfl | ⟨part, hpart, ht⟩
    · exact hs
    · exact hparts part hpart t ht

end Statement

/-! ## Induction over what is decoded -/

section

variable {table : FileTable} {P : Json → Statement → Prop} {Q : Json → RawStatement → Prop}
  {S : Json → Switch → Prop}

/-- On nodes of every size, what holds in each layer holds of what the three decoders read. -/
theorem decode_induction_of_size
    (hstatement : ∀ v s p, (Statement.decode table v).Yields s →
      Statement.Form table (fun content _ w => Q w content) s p v → P v s)
    (hraw : ∀ v content p,
      RawStatement.Form (fun s _ w => P w s) (fun choice _ w => S w choice) content p v →
      Q v content)
    (hswitch : ∀ v choice p, Switch.Form (fun s _ w => P w s) choice p v → S v choice) (n : Nat) :
    ∀ v : Json, sizeOf v = n →
      Ensures (Statement.decode table v) (P v) ∧ Ensures (RawStatement.decode table v) (Q v) ∧
        Ensures (Switch.decode table v) (S v) := by
  induction n using Nat.strongRecOn with
  | ind n ih =>
    rintro v rfl
    have hs : ∀ s (_ : Packing) w, sizeOf w < sizeOf v → Statement.Read table s .bare w → P w s :=
      fun s _ w hw h => (ih _ hw w rfl).1 s h
    have hq : ∀ content (_ : Packing) w, sizeOf w < sizeOf v →
        RawStatement.Read table content .bare w → Q w content :=
      fun content _ w hw h => (ih _ hw w rfl).2.1 content h
    have hc : ∀ choice (_ : Packing) w, sizeOf w < sizeOf v →
        Switch.Read table choice .bare w → S w choice :=
      fun choice _ w hw h => (ih _ hw w rfl).2.2 choice h
    refine ⟨fun s h => ?_, fun content h => ?_, fun choice h => ?_⟩
    · obtain ⟨p, hp⟩ := Statement.decode_form.1 h
      exact hstatement v s p h (hp.imp hq)
    · obtain ⟨p, hp⟩ := RawStatement.form_of_decode h
      exact hraw v content p (hp.imp hs hc)
    · obtain ⟨p, hp⟩ := Switch.form_of_decode h
      exact hswitch v choice p (hp.imp hs)

/-- **Induction over statements and their nodes.** What holds of a statement and the node that it
is read from, because it holds of the parts, holds of all statements that are decoded. -/
theorem Statement.decode_induction
    (hstatement : ∀ v s p, (Statement.decode table v).Yields s →
      Statement.Form table (fun content _ w => Q w content) s p v → P v s)
    (hraw : ∀ v content p,
      RawStatement.Form (fun s _ w => P w s) (fun choice _ w => S w choice) content p v →
      Q v content)
    (hswitch : ∀ v choice p, Switch.Form (fun s _ w => P w s) choice p v → S v choice) (v : Json) :
    Ensures (Statement.decode table v) (P v) :=
  (decode_induction_of_size hstatement hraw hswitch _ v rfl).1

end

end BorrowIR
