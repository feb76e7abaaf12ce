import BorrowIR.Proofs.TyWire
import BorrowIR.Proofs.Words

/-!
# The written forms of integers

* `Json.IsIntLiteral`: the literals of an integer, as a number or as a string;
* `Scalar.decode_iff`: an integer is written as one of its literals, under the tag of its type;
* `Scalar.exists_wire`: every integer of an integer type can be written.
-/

namespace BorrowIR

open Decode Outcome

/-- The node is a number or a string that denotes the integer `n`. -/
def Json.IsIntLiteral (v : Json) (n : Int) : Prop :=
  ∃ text literal, v.literalText? = some text ∧
    IntLiteral.ofChars? text.toList = some literal ∧ literal.value = n

/-- A sign and the usual digits of a magnitude are a literal. -/
theorem IntLiteral.ofChars?_text (negative : Bool) (m : Nat) :
    IntLiteral.ofChars? ((if negative then "-" else "") ++ toString m).toList =
      some ⟨negative, m⟩ := by
  have hvalue := Decimal.value?_toString m
  rw [String.toList_append]
  cases negative with
  | true =>
    have hsign : (if true = true then "-" else "").toList = ['-'] := rfl
    rw [hsign, List.singleton_append, ofChars?, hvalue]
    rfl
  | false =>
    have hsign : (if false = true then "-" else "").toList = [] := rfl
    rw [hsign, List.nil_append]
    -- digits do not begin with a sign
    cases hchars : (toString m).toList with
    | nil =>
      rw [hchars] at hvalue
      cases hvalue
    | cons c cs =>
      have hne : c ≠ '-' := by
        rintro rfl
        rw [hchars] at hvalue
        simp [Decimal.value?] at hvalue
      rw [hchars] at hvalue
      unfold ofChars?
      split
      · rename_i heq; cases heq; exact absurd rfl hne
      · rw [hvalue]; rfl

/-- Written forms of integers. -/
inductive Scalar.Wire : Scalar → Packing → Json → Prop
  | mk {p : Packing} {scalar : Scalar} {v : Json} :
    v.IsIntLiteral scalar.value → Wire scalar p (.tagged scalar.ty.tag (p.payload v))

/-- A tag is that of one integer type. -/
theorem IntTy.ofTag?_eq_some {tag : String} {ty : IntTy} :
    IntTy.ofTag? tag = some ty ↔ tag = ty.tag := by
  constructor
  · intro h
    have htag := List.find?_some (p := fun ty : IntTy => ty.tag == tag) h
    exact (beq_iff_eq.1 htag).symm
  · rintro rfl
    obtain ⟨signed, width⟩ := ty
    cases signed <;> cases width <;> rfl

namespace Scalar

/-- A literal is read as a scalar of its type if the type holds the number. -/
theorem decodeLiteral_yields {ty : IntTy} {v : Json} {scalar : Scalar} :
    (decodeLiteral ty v).Yields scalar ↔ scalar.ty = ty ∧ v.IsIntLiteral scalar.value := by
  unfold decodeLiteral Json.IsIntLiteral
  cases htext : v.literalText? with
  | none => simp [mismatch, yields_fail]
  | some text =>
    cases hliteral : SignedDigits.ofChars? text.toList with
    | none => simp [mismatch, yields_fail, SignedDigits.denoted_ofChars?, hliteral]
    | some literal =>
      have hdigits := (SignedDigits.ofChars?_eq_some.1 hliteral).2.2
      have hvalue : (∃ text' literal', some text = some text' ∧
          IntLiteral.ofChars? text'.toList = some literal' ∧ literal'.value = scalar.value) ↔
          scalar.value = literal.denoted.value := by
        simp [SignedDigits.denoted_ofChars?, hliteral, eq_comm]
      rw [hvalue, ← SignedDigits.scalar?_eq_some hdigits]
      -- the words give the scalar of the literal, if there is one
      cases hscalar : literal.scalar? ty with
      | some scalar' => simp only [hliteral, hscalar, yields_pure, Option.some.injEq]
      | none => simp only [hliteral, hscalar, yields_bind, yields_fail, and_false, exists_false,
          reduceCtorEq]

theorem decodeLiteral_arr {ty : IntTy} (elems : List Json) (scalar : Scalar) :
    ¬ (decodeLiteral ty (.arr elems)).Yields scalar := by
  rw [decodeLiteral_yields]
  rintro ⟨-, text, literal, htext, -⟩
  cases htext

theorem decode_iff {v : Json} {scalar : Scalar} :
    (Scalar.decode v).Yields scalar ↔ ∃ p, scalar.Wire p v := by
  constructor
  · intro h
    rw [Scalar.decode, yields_within, yields_bind] at h
    obtain ⟨⟨tag, payload⟩, hv, h⟩ := h
    cases payload with
    | none =>
      rw [yields_fail] at h
      exact h.elim
    | some payload =>
      rw [variant_yields_some] at hv
      cases hty : IntTy.ofTag? tag with
      | none => simp [hty, yields_fail] at h
      | some ty =>
        simp only [hty, wrapped_yields decodeLiteral_arr, decodeLiteral_yields] at h
        obtain ⟨own, w, hpayload, rfl, hw⟩ := h
        rw [hv, hpayload, IntTy.ofTag?_eq_some.1 hty]
        exact ⟨fun _ => own, .mk hw⟩
  · rintro ⟨p, h⟩
    cases h with
    | @mk _ _ w hw =>
      rw [Scalar.decode, yields_within, variant_tagged_bind]
      have htag : IntTy.ofTag? scalar.ty.tag = some scalar.ty := IntTy.ofTag?_eq_some.2 rfl
      simp only [htag]
      exact (wrapped_yields decodeLiteral_arr).2 ⟨_, _, rfl, decodeLiteral_yields.2 ⟨rfl, hw⟩⟩

/-- Every integer has a literal. -/
theorem exists_isIntLiteral (n : Int) : ∃ v : Json, v.IsIntLiteral n := by
  cases n with
  | ofNat m => exact ⟨.num _, _, _, rfl, IntLiteral.ofChars?_text false m, rfl⟩
  | negSucc m => exact ⟨.num _, _, _, rfl, IntLiteral.ofChars?_text true (m + 1), rfl⟩

/-- Every integer of an integer type can be written. -/
theorem exists_wire (scalar : Scalar) (p : Packing) : ∃ v, scalar.Wire p v := by
  obtain ⟨v, hv⟩ := exists_isIntLiteral scalar.value
  exact ⟨_, .mk hv⟩

end Scalar

end BorrowIR
