import BorrowIR.Proofs.LiteralWire
import Mathlib

/-!
# The range of literals

* `SignedDigits.shown_denotes`: the text of a literal in a message denotes the same integer as the
  literal;
* `Scalar.decode_tagged`: the literal of a scalar may stand in a list of its own or by itself;
* `Scalar.decodeLiteral_exact`: a literal is decoded as integer arithmetic says, for each type.
-/

namespace BorrowIR

open Decode Outcome

/-- What a message shows is the literal, in the usual digits or as it was written. -/
theorem SignedDigits.shown_denotes {text : String} {literal : SignedDigits}
    (h : ofChars? text.toList = some literal) :
    IntLiteral.ofChars? (literal.shown text).toList = some literal.denoted := by
  have hdigits := (ofChars?_eq_some.1 h).2.2
  unfold shown
  rw [Word.ofDigits?_eq hdigits]
  cases hword : Word.ofNat? (Decimal.appendDigits 0 literal.digits) with
  | none => simp only [denoted_ofChars?, h, Option.map_some]
  | some magnitude =>
    have hmagnitude := Word.toNat_of_ofNat? hword
    simp only [IntLiteral.ofChars?_text, hmagnitude]
    rfl

namespace Scalar

/-- A literal in range is a value, and one that is out of range is reported as such. -/
theorem decodeLiteral_of_isIntLiteral {ty : IntTy} {v : Json} {n : Int} (hv : v.IsIntLiteral n) :
    (∀ h : ty.Holds n, (decodeLiteral ty v).Yields ⟨ty, n, h⟩) ∧
      (¬ ty.Holds n → ∃ text, (Json.str text).IsIntLiteral n ∧
        (decodeLiteral ty v).Fails (.outOfRange text ty)) := by
  constructor
  · intro h
    exact decodeLiteral_yields.2 ⟨rfl, hv⟩
  · intro hout
    obtain ⟨text, denoted, htext, hdenoted, hvalue⟩ := hv
    rw [SignedDigits.denoted_ofChars?] at hdenoted
    obtain ⟨literal, hliteral, rfl⟩ := Option.map_eq_some_iff.1 hdenoted
    have hdigits := (SignedDigits.ofChars?_eq_some.1 hliteral).2.2
    have hnone : literal.scalar? ty = none := by
      rw [SignedDigits.scalar?_eq_none hdigits, hvalue]
      exact hout
    have hshown := SignedDigits.shown_denotes hliteral
    refine ⟨literal.shown text, ⟨_, _, rfl, hshown, hvalue⟩, ?_⟩
    unfold decodeLiteral
    simp only [htext, hliteral, hnone]
    have hreport : (report (.outOfRange (literal.shown text) ty)).Yields () :=
      yields_report.2 trivial
    exact (fails_bind_of hreport).2 (fails_fail.2 rfl)

/-- What is no literal is a mismatch. -/
theorem decodeLiteral_of_not_isIntLiteral {ty : IntTy} {v : Json}
    (hv : ∀ n, ¬ v.IsIntLiteral n) : (decodeLiteral ty v).Fails (.mismatch .integerLiteral v) := by
  unfold decodeLiteral
  cases htext : v.literalText? with
  | none => exact fails_fail.2 rfl
  | some text =>
    cases hliteral : SignedDigits.ofChars? text.toList with
    | none =>
      simp only [hliteral]
      exact fails_fail.2 rfl
    | some literal =>
      have hdenoted : IntLiteral.ofChars? text.toList = some literal.denoted := by
        rw [SignedDigits.denoted_ofChars?, hliteral, Option.map_some]
      exact absurd ⟨text, _, htext, hdenoted, rfl⟩ (hv literal.denoted.value)

/-- A list is no literal, and nothing is reported about it. -/
theorem decodeLiteral_list (ty : IntTy) (elems : List Json) :
    decodeLiteral ty (.arr elems) = mismatch .integerLiteral (.arr elems) := rfl

/-- The reading of a literal that stands in a list of its own. -/
theorem wrapped_decodeLiteral_own (ty : IntTy) (v : Json) :
    wrapped (decodeLiteral ty) (.arr [v]) = decodeLiteral ty v := by
  have heq : wrapped (decodeLiteral ty) (.arr [v]) =
      (decodeLiteral ty v).orElse (decodeLiteral ty (.arr [v])) := rfl
  rw [heq, decodeLiteral_list]
  -- the second reading fails without a word, so the first one counts
  rcases hv : decodeLiteral ty v with ⟨log, failure | scalar⟩
  · simp [orElse, mismatch, fail]
  · rfl

theorem wrapped_decodeLiteral_bare (ty : IntTy) {v : Json} (hv : ∀ elem, v ≠ .arr [elem]) :
    wrapped (decodeLiteral ty) v = decodeLiteral ty v := by
  unfold wrapped wrappedBelow
  split
  · rename_i field hfield
    rw [Json.elements?_eq_some] at hfield
    exact absurd hfield (hv field.1)
  · rfl

/-- A scalar is decoded as its literal is. -/
theorem decode_tagged (ty : IntTy) (payload : Json) :
    Scalar.decode (.tagged ty.tag payload) =
      within "scalar_value" (wrapped (decodeLiteral ty) payload) := by
  have htag : IntTy.ofTag? ty.tag = some ty := IntTy.ofTag?_eq_some.2 rfl
  unfold Scalar.decode
  simp only [Json.tagged, variant, Json.tag?, Json.fields?, List.attach_cons, List.attach_nil,
    List.map_cons, List.map_nil, pure_bind, htag]

/-- **Literals as integers.** At each type, a number or a string that denotes an integer is decoded
as this integer if the type holds it, whatever the number of its digits. If the type does not hold
it, this is what is reported, with a text that denotes the integer. Everything else is a mismatch.
The literal of a scalar may stand in a list of its own or by itself, and the outcome is the same. -/
theorem decodeLiteral_exact (ty : IntTy) (v : Json) :
    (∀ n, v.IsIntLiteral n →
      (∀ h : ty.Holds n, (decodeLiteral ty v).Yields ⟨ty, n, h⟩) ∧
        (¬ ty.Holds n → ∃ text, (Json.str text).IsIntLiteral n ∧
          (decodeLiteral ty v).Fails (.outOfRange text ty))) ∧
      ((∀ n, ¬ v.IsIntLiteral n) → (decodeLiteral ty v).Fails (.mismatch .integerLiteral v)) ∧
      Scalar.decode (.tagged ty.tag (.arr [v])) = within "scalar_value" (decodeLiteral ty v) ∧
      ((∀ elem, v ≠ .arr [elem]) →
        Scalar.decode (.tagged ty.tag v) = within "scalar_value" (decodeLiteral ty v)) := by
  refine ⟨fun n hv => decodeLiteral_of_isIntLiteral hv, decodeLiteral_of_not_isIntLiteral, ?_, ?_⟩
  · rw [decode_tagged, wrapped_decodeLiteral_own]
  · intro hv
    rw [decode_tagged, wrapped_decodeLiteral_bare ty hv]

/-- The least integer of 128 bits is decoded, and one byte cannot hold 256, wherever it stands. -/
theorem decodeLiteral_at_bounds :
    (∃ h, (decodeLiteral ⟨true, .w128⟩ (.str "-170141183460469231731687303715884105728")).Yields
        ⟨⟨true, .w128⟩, -170141183460469231731687303715884105728, h⟩) ∧
      (∃ text, (Json.str text).IsIntLiteral 256 ∧
        (decodeLiteral ⟨false, .w8⟩ (.num "256")).Fails (.outOfRange text ⟨false, .w8⟩)) ∧
      (decodeLiteral ⟨false, .w8⟩ (.num "1e+3")).Fails (.mismatch .integerLiteral (.num "1e+3")) ∧
      Scalar.decode (.tagged "U8" (.arr [.num "256"])) =
        Scalar.decode (.tagged "U8" (.num "256")) := by
  have hmin : (Json.str "-170141183460469231731687303715884105728").IsIntLiteral
      (-170141183460469231731687303715884105728) :=
    ⟨_, ⟨true, 170141183460469231731687303715884105728⟩, rfl, by cbv, by decide⟩
  have hbyte : (Json.num "256").IsIntLiteral 256 := ⟨_, ⟨false, 256⟩, rfl, by cbv, by decide⟩
  have hexponent : ∀ n, ¬ (Json.num "1e+3").IsIntLiteral n := by
    rintro n ⟨text, literal, htext, hliteral, -⟩
    cases htext
    have hnone : IntLiteral.ofChars? "1e+3".toList = none := by cbv
    rw [hnone] at hliteral
    cases hliteral
  obtain ⟨-, -, hown, hbare⟩ := decodeLiteral_exact ⟨false, .w8⟩ (.num "256")
  refine ⟨⟨by decide, ((decodeLiteral_exact _ _).1 _ hmin).1 _⟩, ?_, ?_, ?_⟩
  · exact ((decodeLiteral_exact _ _).1 _ hbyte).2 (by decide)
  · exact (decodeLiteral_exact _ _).2.1 hexponent
  · exact hown.trans (hbare fun elem h => by cases h).symm

end Scalar

end BorrowIR
