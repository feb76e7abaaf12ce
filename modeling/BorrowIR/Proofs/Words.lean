import BorrowIR.Literal.Decode
import Mathlib.Tactic.Ring

/-!
# Words and integers

What a literal denotes is an integer of any size (`IntLiteral.value`). What is computed in machine
words is the same, as long as it is in range; where it is not, the overflow is noticed.

* `Word.ofDigits?_eq`: digits overflow if and only if the number that they denote does;
* `IntTy.fits_iff`: the comparison by shifted words is the comparison of integers;
* `IntTy.ofWord_magnitude`: the low bits of a number in range, or of its complement, lose nothing;
* `SignedDigits.scalar?_eq_some`: a literal has a scalar if its type holds the integer that the
  literal denotes, and the scalar has this value.
-/

namespace BorrowIR

/-- What an integer literal denotes: a sign and a magnitude of any size. -/
structure IntLiteral where
  negative : Bool
  magnitude : Nat
deriving DecidableEq, Repr

namespace IntLiteral

/-- The literal with this text. -/
def ofChars? : List Char → Option IntLiteral
  | '-' :: digits => (Decimal.value? digits).map fun magnitude => ⟨true, magnitude⟩
  | digits => (Decimal.value? digits).map fun magnitude => ⟨false, magnitude⟩

/-- The integer that a literal denotes. -/
def value (literal : IntLiteral) : Int :=
  if literal.negative then -(literal.magnitude : Int) else literal.magnitude

end IntLiteral

/-! ## Digits -/

namespace Word

/-- The word of a number, unless the number is too large. -/
def ofNat? (n : Nat) : Option Word :=
  if n < 2 ^ wordBits then some (BitVec.ofNat wordBits n) else none

theorem toNat_of_ofNat? {n : Nat} {word : Word} (h : ofNat? n = some word) : word.toNat = n := by
  unfold ofNat? at h
  split at h
  · rename_i hlt
    cases h
    rw [BitVec.toNat_ofNat, Nat.mod_eq_of_lt hlt]
  · cases h

theorem ofNat?_eq_some {n : Nat} {word : Word} : ofNat? n = some word ↔ word.toNat = n := by
  constructor
  · exact toNat_of_ofNat?
  · intro h
    have hlt : n < 2 ^ wordBits := by have := word.isLt; omega
    rw [ofNat?, if_pos hlt, ← h, BitVec.ofNat_toNat, BitVec.setWidth_eq]

/-- The numbers that are no words are too large. -/
theorem ofNat?_eq_none {n : Nat} : ofNat? n = none ↔ 2 ^ wordBits ≤ n := by
  unfold ofNat?
  split <;> simp <;> omega

theorem checkedMul_eq (a b : Word) : a.checkedMul b = ofNat? (a.toNat * b.toNat) := by
  unfold checkedMul ofNat? BitVec.umulOverflow
  by_cases h : a.toNat * b.toNat < 2 ^ wordBits
  · have hnot : ¬ a.toNat * b.toNat ≥ 2 ^ wordBits := by omega
    have heq : BitVec.ofNat wordBits (a.toNat * b.toNat) = a * b := by
      rw [BitVec.ofNat_mul]; simp
    simp [h, hnot, heq]
  · have hge : a.toNat * b.toNat ≥ 2 ^ wordBits := by omega
    simp [h, hge]

theorem checkedAdd_eq (a b : Word) : a.checkedAdd b = ofNat? (a.toNat + b.toNat) := by
  unfold checkedAdd ofNat? BitVec.uaddOverflow
  by_cases h : a.toNat + b.toNat < 2 ^ wordBits
  · have hnot : ¬ a.toNat + b.toNat ≥ 2 ^ wordBits := by omega
    have heq : BitVec.ofNat wordBits (a.toNat + b.toNat) = a + b := by
      rw [BitVec.ofNat_add]; simp
    simp [h, hnot, heq]
  · have hge : a.toNat + b.toNat ≥ 2 ^ wordBits := by omega
    simp [h, hge]

/-- One more digit overflows if and only if the number with this digit does. -/
theorem appendDigit?_eq (a : Word) {c : Char} (hc : Decimal.digit c < 10) :
    a.appendDigit? c = ofNat? (10 * a.toNat + Decimal.digit c) := by
  have hdigit : (BitVec.ofNat wordBits (Decimal.digit c)).toNat = Decimal.digit c := by
    have hlt : Decimal.digit c < 2 ^ wordBits := Nat.lt_trans hc (by decide)
    rw [BitVec.toNat_ofNat, Nat.mod_eq_of_lt hlt]
  have hten : (10 : Word).toNat = 10 := rfl
  rw [appendDigit?, checkedMul_eq, hten]
  cases htens : ofNat? (a.toNat * 10) with
  | none =>
    have hge := ofNat?_eq_none.1 htens
    symm
    exact ofNat?_eq_none.2 (by omega)
  | some tens =>
    have htens := toNat_of_ofNat? htens
    simp only [Option.bind_eq_bind, Option.bind_some, checkedAdd_eq, hdigit, htens]
    rw [Nat.mul_comm]

end Word

theorem Decimal.digit_lt {c : Char} (h : c.isDigit = true) : Decimal.digit c < 10 := by
  unfold Char.isDigit at h
  simp only [Bool.and_eq_true, decide_eq_true_eq, ge_iff_le, UInt32.le_iff_toNat_le] at h
  have hc : c.toNat ≤ 57 := h.2
  have hzero : '0'.toNat = 48 := rfl
  unfold Decimal.digit
  omega

/-- More digits do not make a number smaller. -/
theorem Decimal.le_appendDigits (n : Nat) (cs : List Char) : n ≤ Decimal.appendDigits n cs := by
  induction cs generalizing n with
  | nil => exact Nat.le_refl n
  | cons c cs ih =>
    have hrest := ih (10 * n + Decimal.digit c)
    unfold Decimal.appendDigits at hrest ⊢
    rw [List.foldl_cons]
    omega

/-- Reading digits, with the number before them in a word. -/
theorem Word.foldlM_appendDigit? {cs : List Char} (hcs : cs.all Char.isDigit = true) (word : Word) :
    cs.foldlM Word.appendDigit? word = Word.ofNat? (Decimal.appendDigits word.toNat cs) := by
  induction cs generalizing word with
  | nil =>
    symm
    exact Word.ofNat?_eq_some.2 rfl
  | cons c cs ih =>
    rw [List.all_cons, Bool.and_eq_true] at hcs
    have hdigit := Decimal.digit_lt hcs.1
    have happend : Decimal.appendDigits word.toNat (c :: cs) =
        Decimal.appendDigits (10 * word.toNat + Decimal.digit c) cs := rfl
    rw [List.foldlM_cons, Word.appendDigit?_eq word hdigit, happend]
    cases hnext : Word.ofNat? (10 * word.toNat + Decimal.digit c) with
    | none =>
      -- what has overflowed stays too large
      have hge := Word.ofNat?_eq_none.1 hnext
      have hle := Decimal.le_appendDigits (10 * word.toNat + Decimal.digit c) cs
      symm
      exact Word.ofNat?_eq_none.2 (by omega)
    | some next =>
      have hnext := Word.toNat_of_ofNat? hnext
      rw [← hnext]
      exact ih hcs.2 next

/-- **Checked digits.** The word of some digits is missing if and only if the number that they
denote is too large for a word. -/
theorem Word.ofDigits?_eq {cs : List Char} (hcs : cs.all Char.isDigit = true) :
    Word.ofDigits? cs = Word.ofNat? (Decimal.appendDigits 0 cs) :=
  Word.foldlM_appendDigit? hcs 0

/-! ## Ranges -/

namespace IntTy

theorem bits_pos (ty : IntTy) : 0 < ty.bits := by
  obtain ⟨signed, width⟩ := ty
  cases width <;> simp [bits, IntWidth.bits]

theorem bits_le_wordBits (ty : IntTy) : ty.bits ≤ wordBits := by
  obtain ⟨signed, width⟩ := ty
  cases width <;> simp [bits, IntWidth.bits, wordBits]

/-- A signed type has the numbers of an unsigned one, half of them below zero. -/
theorem two_pow_bits (ty : IntTy) : 2 ^ ty.bits = 2 * 2 ^ (ty.bits - 1) := by
  obtain ⟨n, hn⟩ : ∃ n, ty.bits = n + 1 := ⟨ty.bits - 1, by have := ty.bits_pos; omega⟩
  rw [hn, Nat.add_sub_cancel, Nat.pow_succ, Nat.mul_comm]

theorem two_pow_bits_le (ty : IntTy) : 2 ^ ty.bits ≤ 2 ^ wordBits :=
  Nat.pow_le_pow_right (by decide) ty.bits_le_wordBits

/-- A signed type has half as many numbers from zero on as an unsigned one. -/
theorem nonNegatives_eq (ty : IntTy) :
    ty.nonNegatives = if ty.signed then 2 ^ (ty.bits - 1) else 2 ^ ty.bits := by
  simp only [nonNegatives, Nat.one_shiftLeft]

/-- **The values of a type.** Half of the values of a signed type are negative, and an unsigned type
has none that are. -/
theorem holds_iff {ty : IntTy} {n : Int} :
    ty.Holds n ↔
      if ty.signed then -(2 ^ (ty.bits - 1) : Nat) ≤ n ∧ n < (2 ^ (ty.bits - 1) : Nat)
      else 0 ≤ n ∧ n < (2 ^ ty.bits : Nat) := by
  unfold Holds min max
  rw [nonNegatives_eq]
  cases ty.signed <;> simp only [Bool.false_eq_true, if_true, if_false] <;> omega

/-- No type holds an integer whose magnitude is too large for a word. -/
theorem not_holds_of_le {ty : IntTy} {negative : Bool} {magnitude : Nat}
    (h : 2 ^ wordBits ≤ magnitude) : ¬ ty.Holds (IntLiteral.value ⟨negative, magnitude⟩) := by
  have hle := ty.two_pow_bits_le
  have hhalf := ty.two_pow_bits
  have hpos : 0 < 2 ^ (ty.bits - 1) := Nat.two_pow_pos _
  rw [holds_iff]
  unfold IntLiteral.value
  cases ty.signed <;> cases negative <;>
    simp only [Bool.false_eq_true, if_true, if_false] <;> omega

/-- Shifting by the bits of a type leaves nothing of the words that are small enough. -/
theorem all_shift_iff (ty : IntTy) (word : Word) :
    ((word.checkedShiftRight ty.bits).all fun high => high = 0) = true ↔
      word.toNat < 2 ^ ty.bits := by
  unfold Word.checkedShiftRight
  by_cases hbits : ty.bits < wordBits
  · have hzero : (word >>> ty.bits = 0) ↔ word.toNat / 2 ^ ty.bits = 0 := by
      rw [← BitVec.toNat_inj, BitVec.toNat_ushiftRight, Nat.shiftRight_eq_div_pow]
      rfl
    have hpos : 0 < 2 ^ ty.bits := Nat.two_pow_pos _
    rw [if_pos hbits, Option.all_some, decide_eq_true_eq, hzero, Nat.div_eq_zero_iff]
    omega
  · -- the widest types hold every word
    have heq : ty.bits = wordBits := by have := ty.bits_le_wordBits; omega
    have hlt := word.isLt
    rw [if_neg hbits, heq]
    simp only [Option.all_none, true_iff]
    exact hlt

/-- **Comparison of words.** A sign and a magnitude fit a type if and only if it holds the
integer. -/
theorem fits_iff (ty : IntTy) (negative : Bool) (magnitude : Word) :
    ty.fits negative magnitude = true ↔
      ty.Holds (IntLiteral.value ⟨negative, magnitude.toNat⟩) := by
  rw [holds_iff]
  unfold fits IntLiteral.value
  cases hsigned : ty.signed with
  | true =>
    have hpos : 0 < 2 ^ (ty.bits - 1) := Nat.two_pow_pos _
    have hbound : ((1 : Word) <<< (ty.bits - 1)).toNat = 2 ^ (ty.bits - 1) := by
      have hlt : 2 ^ (ty.bits - 1) < 2 ^ wordBits := by
        have hle := ty.two_pow_bits_le
        have hhalf := ty.two_pow_bits
        omega
      have hone : (1 : Word).toNat = 1 := rfl
      rw [BitVec.toNat_shiftLeft, hone, Nat.one_shiftLeft, Nat.mod_eq_of_lt hlt]
    cases negative <;>
      simp only [Bool.false_eq_true, if_true, if_false, decide_eq_true_eq, BitVec.le_def,
        BitVec.lt_def, hbound] <;> omega
  | false =>
    have hzero : magnitude = 0 ↔ magnitude.toNat = 0 := by
      rw [← BitVec.toNat_inj]; rfl
    have hpos : 0 < 2 ^ ty.bits := Nat.two_pow_pos _
    cases negative <;>
      simp only [Bool.false_eq_true, if_true, if_false, Bool.or_eq_true, Bool.and_eq_true,
        decide_eq_true_eq, Bool.not_true, Bool.not_false, false_and, true_and, or_false,
        all_shift_iff, hzero] <;> omega

/-- **Low bits.** Of a magnitude that fits, or of its complement, the low bits are the integer. -/
theorem ofWord_magnitude {ty : IntTy} {negative : Bool} {magnitude : Word}
    (h : ty.Holds (IntLiteral.value ⟨negative, magnitude.toNat⟩)) :
    ty.ofWord (if ty.signed && negative then -magnitude else magnitude) =
      IntLiteral.value ⟨negative, magnitude.toNat⟩ := by
  have hhalf := ty.two_pow_bits
  rw [holds_iff] at h
  unfold IntLiteral.value at h ⊢
  unfold ofWord
  cases hsigned : ty.signed with
  | true =>
    simp only [hsigned, if_true, Bool.true_and] at h ⊢
    cases negative with
    | true =>
      -- the complement in the narrower type is the low part of the wide one
      simp only [if_true] at h ⊢
      rw [BitVec.setWidth_neg_of_le ty.bits_le_wordBits, BitVec.toInt_neg, BitVec.toInt_setWidth,
        Int.bmod_neg_bmod]
      exact Int.bmod_eq_of_le_mul_two (by omega) (by omega)
    | false =>
      simp only [Bool.false_eq_true, if_false] at h ⊢
      rw [BitVec.toInt_setWidth]
      exact Int.bmod_eq_of_le_mul_two (by omega) (by omega)
  | false =>
    simp only [hsigned, Bool.false_eq_true, if_false, Bool.false_and] at h ⊢
    have hlt : magnitude.toNat < 2 ^ ty.bits := by
      cases negative <;> simp only [Bool.false_eq_true, if_true, if_false] at h <;> omega
    rw [BitVec.toNat_setWidth, Nat.mod_eq_of_lt hlt]
    -- the only negative literal of an unsigned type is that of zero
    cases negative with
    | true => simp only [if_true] at h ⊢; omega
    | false => rfl

end IntTy

/-- A sign and a magnitude have a scalar if the type holds the integer. -/
theorem Scalar.ofMagnitude?_eq_some {ty : IntTy} {negative : Bool} {magnitude : Word}
    {scalar : Scalar} :
    Scalar.ofMagnitude? ty negative magnitude = some scalar ↔
      scalar.ty = ty ∧ scalar.value = IntLiteral.value ⟨negative, magnitude.toNat⟩ := by
  unfold Scalar.ofMagnitude?
  by_cases hfits : ty.fits negative magnitude = true
  · have hvalue := IntTy.ofWord_magnitude ((ty.fits_iff negative magnitude).1 hfits)
    obtain ⟨ty', value, holds⟩ := scalar
    simp only [if_pos hfits, Option.some.injEq, Scalar.mk.injEq, hvalue]
    constructor
    · rintro ⟨rfl, rfl⟩; exact ⟨rfl, rfl⟩
    · rintro ⟨rfl, rfl⟩; exact ⟨rfl, rfl⟩
  · have hnot : ¬ ty.Holds (IntLiteral.value ⟨negative, magnitude.toNat⟩) := fun h =>
      hfits ((ty.fits_iff negative magnitude).2 h)
    simp only [if_neg hfits, reduceCtorEq, false_iff, not_and]
    intro hty hvalue
    have hholds := scalar.holds
    rw [hty, hvalue] at hholds
    exact hnot hholds

/-! ## Literals -/

namespace SignedDigits

/-- What the sign and the digits denote. -/
def denoted (literal : SignedDigits) : IntLiteral :=
  ⟨literal.negative, Decimal.appendDigits 0 literal.digits⟩

/-- A text is an integer literal if there are digits behind its sign and nothing else. -/
theorem ofChars?_eq_some {cs : List Char} {literal : SignedDigits} :
    ofChars? cs = some literal ↔
      split cs = literal ∧ literal.digits ≠ [] ∧ literal.digits.all Char.isDigit = true := by
  simp only [ofChars?, Option.ite_none_right_eq_some, Option.some.injEq]
  constructor
  · rintro ⟨hdigits, rfl⟩; exact ⟨rfl, hdigits⟩
  · rintro ⟨rfl, hdigits⟩; exact ⟨hdigits, rfl⟩

/-- The same texts are literals, and they denote what their digits denote. -/
theorem denoted_ofChars? (cs : List Char) :
    IntLiteral.ofChars? cs = (ofChars? cs).map denoted := by
  have hvalue : ∀ negative digits, (Decimal.value? digits).map (fun m => IntLiteral.mk negative m) =
      (if digits ≠ [] ∧ digits.all Char.isDigit then some (SignedDigits.mk negative digits)
        else none).map denoted := by
    intro negative digits
    unfold Decimal.value?
    split <;> rfl
  unfold IntLiteral.ofChars? ofChars?
  split
  · exact hvalue true _
  · rename_i hsign
    have hsplit : split cs = ⟨false, cs⟩ := by
      unfold split
      split
      · exact absurd rfl (hsign _)
      · rfl
    rw [hsplit]
    exact hvalue false cs

/-- **Literals in words.** Digits have a scalar if the type holds the integer that they denote. -/
theorem scalar?_eq_some {literal : SignedDigits} (hdigits : literal.digits.all Char.isDigit = true)
    {ty : IntTy} {scalar : Scalar} :
    literal.scalar? ty = some scalar ↔
      scalar.ty = ty ∧ scalar.value = literal.denoted.value := by
  unfold scalar?
  rw [Word.ofDigits?_eq hdigits]
  cases hword : Word.ofNat? (Decimal.appendDigits 0 literal.digits) with
  | none =>
    -- what overflows a word is out of range for every type
    have hnot : ¬ ty.Holds literal.denoted.value :=
      IntTy.not_holds_of_le (Word.ofNat?_eq_none.1 hword)
    simp only [Option.bind_eq_bind, Option.bind_none, reduceCtorEq, false_iff, not_and]
    intro hty hvalue
    have hholds := scalar.holds
    rw [hty, hvalue] at hholds
    exact hnot hholds
  | some magnitude =>
    have hmagnitude := Word.toNat_of_ofNat? hword
    simp only [Option.bind_eq_bind, Option.bind_some, Scalar.ofMagnitude?_eq_some, hmagnitude]
    rfl

/-- A literal is refused if its type does not hold the number that it denotes. -/
theorem scalar?_eq_none {literal : SignedDigits} (hdigits : literal.digits.all Char.isDigit = true)
    {ty : IntTy} : literal.scalar? ty = none ↔ ¬ ty.Holds literal.denoted.value := by
  rw [Option.eq_none_iff_forall_ne_some]
  simp only [ne_eq, scalar?_eq_some hdigits, not_and]
  constructor
  · intro h hholds
    exact h ⟨ty, _, hholds⟩ rfl rfl
  · intro hnot scalar hty hvalue
    have hholds := scalar.holds
    rw [hty, hvalue] at hholds
    exact hnot hholds

end SignedDigits

end BorrowIR
