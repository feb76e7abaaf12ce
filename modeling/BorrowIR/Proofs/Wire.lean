import BorrowIR.Proofs.Node

/-!
# Written forms

The grammars of documents say which nodes are written forms of a value. A payload of one field may
be packed into a list or bare, at each place of a document independently of the others: a `Packing`
says which, for every place, and the grammars carry one along. What is written in one packing can
be written in any other, so a value has as many forms as there are packings of its places.

* `Packing.child`, `Packing.join`: the packing below a place, and from packings below it;
* `Each`: the written forms of the elements of a list.
-/

namespace BorrowIR

/-- For each place of a document, whether the one field of a variant there has a list of its own. A
place is the way down to it: the numbers of the parts that it goes through. -/
def Packing : Type := List Nat → Bool

namespace Packing

/-- Whether the field at the top has a list of its own. -/
def own (p : Packing) : Bool := p []

/-- The packing below the part with this number. -/
def child (p : Packing) (i : Nat) : Packing := fun way => p (i :: way)

/-- No field has a list of its own. -/
def bare : Packing := fun _ => false

/-- The packing with these packings below its parts. -/
def join (own : Bool) (parts : List Packing) : Packing
  | [] => own
  | i :: way => parts.getD i bare way

/-- The payload of a variant with one field. -/
def payload (p : Packing) (field : Json) : Json := Json.packed p.own field

end Packing

namespace Wire

variable {α : Type}

/-- The elements of a list and their written forms, one for each. -/
inductive Each (wire : α → Packing → Json → Prop) : List α → Packing → List Json → Prop
  | nil {p : Packing} : Each wire [] p []
  | cons {p : Packing} {a : α} {as : List α} {v : Json} {vs : List Json} :
    wire a (p.child 0) v → Each wire as (p.child 1) vs → Each wire (a :: as) p (v :: vs)

variable {wire : α → Packing → Json → Prop}

theorem Each.forall₂ {p : Packing} {as : List α} {vs : List Json} (h : Each wire as p vs) :
    List.Forall₂ (fun v a => ∃ q, wire a q v) vs as := by
  induction h with
  | nil => exact .nil
  | cons ha _ ih => exact .cons ⟨_, ha⟩ ih

theorem Each.imp {wire' : α → Packing → Json → Prop} {as : List α} {p : Packing} {vs : List Json}
    (h : Each wire as p vs) (himp : ∀ a q, ∀ v ∈ vs, wire a q v → wire' a q v) :
    Each wire' as p vs := by
  induction h with
  | nil => exact .nil
  | cons ha _ ih =>
    refine .cons (himp _ _ _ List.mem_cons_self ha) (ih fun a q v hv => ?_)
    exact himp a q v (List.mem_cons_of_mem _ hv)

/-- The forms of the elements may be packed each in its own way. -/
theorem each_of_forall₂ {as : List α} {vs : List Json}
    (h : List.Forall₂ (fun v a => ∃ q, wire a q v) vs as) : ∃ p, Each wire as p vs := by
  induction h with
  | nil => exact ⟨.bare, .nil⟩
  | cons ha _ ih =>
    obtain ⟨p, hp⟩ := ha
    obtain ⟨q, hq⟩ := ih
    exact ⟨.join false [p, q], .cons hp hq⟩

/-- If every element can be written in every packing, so can the list. -/
theorem each_in {as : List α} (h : ∀ a ∈ as, ∀ p, ∃ v, wire a p v) (p : Packing) :
    ∃ vs, Each wire as p vs := by
  induction as generalizing p with
  | nil => exact ⟨[], .nil⟩
  | cons a as ih =>
    obtain ⟨v, hv⟩ := h a List.mem_cons_self (p.child 0)
    obtain ⟨vs, hvs⟩ := ih (fun b hb => h b (List.mem_cons_of_mem a hb)) (p.child 1)
    exact ⟨v :: vs, .cons hv hvs⟩

/-- A list that can be written has elements that can be. -/
theorem Each.exists_of_mem {as : List α} {p : Packing} {vs : List Json} (h : Each wire as p vs) :
    ∀ a ∈ as, ∃ v ∈ vs, ∃ q, wire a q v := by
  induction h with
  | nil => simp
  | cons ha _ ih =>
    intro b hb
    rcases List.mem_cons.1 hb with rfl | hb
    · exact ⟨_, List.mem_cons_self, _, ha⟩
    · obtain ⟨v, hv, hw⟩ := ih b hb
      exact ⟨v, List.mem_cons_of_mem _ hv, hw⟩

end Wire

/-- The written forms of an identifier. -/
def EntityId.Wire {sort : Entity} (id : EntityId sort) (_ : Packing) (v : Json) : Prop :=
  v.IsNumeral id.index

/-! ## Numbers -/

/-- The usual digits of a number denote it. -/
theorem Decimal.value?_toString (n : Nat) : Decimal.value? (toString n).toList = some n := by
  have hdigits : (toString n).toList = Nat.toDigits 10 n := by
    rw [Nat.toString_eq_ofList_toDigits, String.toList_ofList]
  have hall : (Nat.toDigits 10 n).all Char.isDigit = true :=
    List.all_eq_true.2 fun c hc => Nat.isDigit_of_mem_toDigits (by omega) (by omega) hc
  have hvalue : appendDigits 0 (Nat.toDigits 10 n) = n := by
    have h := Nat.ofDigitChars_ten_toDigits (n := n)
    rwa [Nat.ofDigitChars_eq_foldl] at h
  unfold value?
  rw [hdigits, if_pos ⟨Nat.toDigits_ne_nil, hall⟩, hvalue]

/-- The numbers that can be written are those of 64 bits. -/
theorem Json.exists_isNumeral {n : Nat} :
    (∃ v : Json, v.IsNumeral n) ↔ n < Decode.naturalBound := by
  constructor
  · rintro ⟨v, text, -, -, hlt⟩
    exact hlt
  · intro hlt
    exact ⟨.num (toString n), _, rfl, Decimal.value?_toString n, hlt⟩

end BorrowIR
