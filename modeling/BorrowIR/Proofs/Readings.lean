import BorrowIR.Proofs.MissingFile

/-!
# The two readings of a payload

The one field of a variant is in a list of its own or stands by itself, and a list may be read in
both ways: as the list around a field, or as the field.

* `Decode.Exclusive`: if a node is accepted as a field, a list with just this node in it is not;
* `Decode.exclusive_of_arr`, `Decode.exclusive_list`: this is so if the field is never a list, and
  also if it is a list of such things;
* `Payload`: the sorts of fields that variants with one field have;
* `Payload.unambiguous`: so a payload is read in at most one way, whichever way is tried first.
-/

namespace BorrowIR

open Outcome

namespace Decode

variable {α : Type} {decode decode' : Json → Outcome α} {payload : Json} {a : α}

/-- A payload is read as a value: in a list of its own, or bare. -/
def Reads (decode : Json → Outcome α) (payload : Json) (own : Bool) (a : α) : Prop :=
  ∃ field, payload = Json.packed own field ∧ (decode field).Yields a

/-- **Exclusive readings.** A node and the list with just this node in it are not both accepted. -/
def Exclusive (decode : Json → Outcome α) : Prop :=
  ∀ v, ¬ ((∃ a, (decode v).Yields a) ∧ ∃ b, (decode (.arr [v])).Yields b)

/-- The payload of a variant with one field, when the reading without a list is tried first. -/
def bareFirst (decode : Json → Outcome α) (payload : Json) : Outcome α :=
  match payload with
  | .arr [field] => (decode (.arr [field])).orElse (decode field)
  | payload => decode payload

/-! ## When readings are exclusive -/

/-- Where lists are refused, a payload has one reading. -/
theorem exclusive_of_arr (hlist : ∀ elems b, ¬ (decode (.arr elems)).Yields b) :
    Exclusive decode := by
  rintro v ⟨-, b, hb⟩
  exact hlist [v] b hb

/-- The one element of a list of fields would be a list itself. -/
theorem exclusive_list (hlist : ∀ elems b, ¬ (decode (.arr elems)).Yields b) :
    Exclusive (list decode) := by
  rintro v ⟨⟨as, has⟩, bs, hbs⟩
  obtain ⟨vs, rfl, -⟩ := list_yields.1 has
  obtain ⟨ws, hws, hall⟩ := list_yields.1 hbs
  cases hws
  -- the one element of the outer list is the inner list, which is no field
  cases hall with
  | cons hb _ => exact hlist vs _ hb

/-- Only the accepted nodes and their values matter. -/
theorem Exclusive.congr (h : Exclusive decode)
    (heq : ∀ v a, (decode' v).Yields a ↔ (decode v).Yields a) : Exclusive decode' := by
  intro v
  simp only [heq]
  exact h v

/-! ## What is read -/

/-- Where two attempts exclude one another, their order does not matter. -/
theorem yields_orElse_of_not_both {first second : Outcome α}
    (h : ¬ ((∃ a, first.Yields a) ∧ ∃ b, second.Yields b)) :
    (first.orElse second).Yields a ↔ first.Yields a ∨ second.Yields a := by
  rw [yields_orElse]
  constructor
  · exact Or.imp_right And.right
  · rintro (hfirst | hsecond)
    · exact .inl hfirst
    · rcases yields_or_fails first with hfirst | hfails
      · exact absurd ⟨hfirst, a, hsecond⟩ h
      · exact .inr ⟨hfails, hsecond⟩

/-- A list of one element is read in both ways. -/
theorem exists_reads_singleton {field : Json} :
    (∃ own, Reads decode (.arr [field]) own a) ↔
      (decode field).Yields a ∨ (decode (.arr [field])).Yields a := by
  simp [Reads, Json.packed, or_comm]

/-- What is no list of one element is read bare. -/
theorem exists_reads_of_ne (h : ∀ field, payload ≠ .arr [field]) :
    (∃ own, Reads decode payload own a) ↔ (decode payload).Yields a := by
  simp [Reads, Json.packed, h]

/-- A payload is read in whichever form can be read. -/
theorem Exclusive.wrapped_yields (h : Exclusive decode) :
    (wrapped decode payload).Yields a ↔ ∃ own, Reads decode payload own a := by
  unfold wrapped wrappedBelow
  split
  · rename_i part hpart
    have hpayload : payload = .arr [part.1] := Json.elements?_eq_some.1 hpart
    -- one attempt for each way of reading, and they exclude one another
    have hboth := h part.1
    have hreads : (∃ own, Reads decode (.arr [part.1]) own a) ↔ _ := exists_reads_singleton
    rw [← hpayload] at hboth hreads
    rw [hreads]
    exact yields_orElse_of_not_both hboth
  · rename_i hpart
    refine (exists_reads_of_ne ?_).symm
    rintro field rfl
    exact hpart ⟨field, Json.sizeOf_lt_of_mem_arr List.mem_cons_self⟩ rfl

theorem Exclusive.bareFirst_yields (h : Exclusive decode) :
    (bareFirst decode payload).Yields a ↔ ∃ own, Reads decode payload own a := by
  unfold bareFirst
  split
  · rename_i field
    rw [exists_reads_singleton, or_comm]
    exact yields_orElse_of_not_both fun hboth => h field hboth.symm
  · rename_i hne
    exact (exists_reads_of_ne hne).symm

/-- There is one reading at most, and it has one value. -/
theorem Exclusive.reads_unique (h : Exclusive decode) {own own' : Bool} {a' : α}
    (ha : Reads decode payload own a) (ha' : Reads decode payload own' a') :
    own = own' ∧ a = a' := by
  obtain ⟨field, rfl, ha⟩ := ha
  obtain ⟨field', heq, ha'⟩ := ha'
  -- in the two mixed cases, a field and the list around it would both be accepted
  cases own <;> cases own' <;> simp only [Json.packed, Bool.false_eq_true, if_true, if_false] at heq
  · subst heq
    exact ⟨rfl, ha.unique ha'⟩
  · subst heq
    exact absurd ⟨⟨a', ha'⟩, a, ha⟩ (h field')
  · subst heq
    exact absurd ⟨⟨a, ha⟩, a', ha'⟩ (h field)
  · cases heq
    exact ⟨rfl, ha.unique ha'⟩

/-! ## Readers that accept no list -/

theorem string_arr (elems : List Json) (s : String) : ¬ (string (.arr elems)).Yields s := by
  rw [string_yields]
  nofun

theorem bool_arr (elems : List Json) (b : Bool) : ¬ (bool (.arr elems)).Yields b := by
  rw [bool_yields]
  nofun

theorem char_arr (elems : List Json) (c : Char) : ¬ (char (.arr elems)).Yields c := by
  simp [char, mismatch, yields_fail]

end Decode

open Decode

/-- A scalar is a variant, so it is never a list. -/
theorem Scalar.decode_arr (elems : List Json) (scalar : Scalar) :
    ¬ (Scalar.decode (.arr elems)).Yields scalar := by
  unfold Scalar.decode
  rw [yields_within]
  exact variant_arr_bind scalar

theorem Literal.decode_arr (elems : List Json) (value : Literal) :
    ¬ (Literal.decode (.arr elems)).Yields value := by
  unfold Literal.decode
  rw [yields_within]
  exact variant_arr_bind value

theorem Operand.decode_arr (elems : List Json) (operand : Operand) :
    ¬ (Operand.decode (.arr elems)).Yields operand := by
  unfold Operand.decode
  rw [yields_within]
  exact variant_arr_bind operand

theorem Group.decode_arr {sort : Entity} (elems : List Json) (group : Group (EntityId sort)) :
    ¬ (Group.decode (.arr elems)).Yields group := by
  unfold Group.decode
  exact variant_arr_bind group

theorem DeclGroup.decodeGlobal_arr (elems : List Json) (id : GlobalDeclId) :
    ¬ (DeclGroup.decodeGlobal (.arr elems)).Yields id := by
  unfold DeclGroup.decodeGlobal
  exact variant_arr_bind id

/-! ## The payloads of a document -/

/-- The sorts of fields that are no lists: what variants with one field have, and what there are
lists of in such fields. -/
inductive Item where
  | id (sort : Entity)
  | natural
  | string
  | bool
  | char
  | intTy
  /-- An integer literal of a type. -/
  | integer (ty : IntTy)
  /-- An integer with its type as the tag. -/
  | scalar
  | literal
  | builtinTy
  | sigTy
  | erasedTy
  | place
  | operand
  | builtinFun
  | assertion
  | call
  | switch
  | statement
  | field
  | variant
  /-- The members of a group of types or functions. -/
  | group (sort : Entity)
  /-- The one member of a group of globals. -/
  | globalGroup

namespace Item

/-- What an item is decoded to. -/
def Value : Item → Type
  | id sort => EntityId sort
  | natural => Nat
  | string => String
  | bool => Bool
  | char => Char
  | intTy => IntTy
  | integer _ | scalar => Scalar
  | literal => Literal
  | builtinTy => BuiltinTy
  | sigTy => SigTy
  | erasedTy => ErasedTy
  | place => Place
  | operand => Operand
  | builtinFun => BuiltinFun
  | assertion => Assertion
  | call => Call
  | switch => Switch
  | statement => Statement
  | field => Field
  | variant => Variant
  | group sort => Group (EntityId sort)
  | globalGroup => GlobalDeclId

/-- The decoder of an item, given the files of the crate. -/
def decode (table : FileTable) : (item : Item) → Json → Outcome item.Value
  | id _ => entityId
  | natural => Decode.natural
  | string => Decode.string
  | bool => Decode.bool
  | char => Decode.char
  | intTy => IntTy.decode
  | integer ty => Scalar.decodeLiteral ty
  | scalar => Scalar.decode
  | literal => Literal.decode
  | builtinTy => BuiltinTy.decode
  | sigTy => SigTy.decode
  | erasedTy => ErasedTy.decode
  | place => Place.decode
  | operand => Operand.decode
  | builtinFun => BuiltinFun.decode
  | assertion => Assertion.decode
  | call => Call.decode
  | switch => Switch.decode table
  | statement => Statement.decode table
  | field => Field.decode table
  | variant => Variant.decode table
  | group _ => Group.decode
  | globalGroup => DeclGroup.decodeGlobal

/-- No item is a list. -/
theorem decode_arr {table : FileTable} (item : Item) (elems : List Json) (a : item.Value) :
    ¬ (item.decode table (.arr elems)).Yields a := by
  cases item with
  | id => exact entityId_arr elems a
  | natural => exact natural_arr elems a
  | string => exact string_arr elems a
  | bool => exact bool_arr elems a
  | char => exact char_arr elems a
  | intTy => exact IntTy.decode_arr elems a
  | integer ty => exact @Scalar.decodeLiteral_arr ty elems a
  | scalar => exact Scalar.decode_arr elems a
  | literal => exact Literal.decode_arr elems a
  | builtinTy => exact BuiltinTy.decode_arr elems a
  | sigTy => exact Ty.decode_arr elems a
  | erasedTy => exact Ty.decode_arr elems a
  | place => exact Place.decode_arr elems a
  | operand => exact Operand.decode_arr elems a
  | builtinFun => exact BuiltinFun.decode_arr elems a
  | assertion => exact Assertion.decode_arr elems a
  | call => exact Call.decode_arr elems a
  | switch => exact Switch.decode_arr elems a
  | statement => exact Statement.decode_arr elems a
  | field => exact Field.decode_arr elems a
  | variant => exact Variant.decode_arr elems a
  | group => exact Group.decode_arr elems a
  | globalGroup => exact DeclGroup.decodeGlobal_arr elems a

end Item

/-- The field of a variant with one field: an item, or a list of items, such as the fields of a
structure, the variants of an enumeration and the members of a group. -/
inductive Payload where
  | one (item : Item)
  | list (item : Item)

namespace Payload

/-- What the field is decoded to. -/
def Value : Payload → Type
  | one item => item.Value
  | list item => List item.Value

/-- The decoder of the field, given the files of the crate. -/
def decode (table : FileTable) : (payload : Payload) → Json → Outcome payload.Value
  | one item => item.decode table
  | list item => Decode.list (item.decode table)

/-- Every payload of the documents has one reading. -/
theorem exclusive (table : FileTable) (payload : Payload) : Exclusive (payload.decode table) := by
  cases payload with
  | one item => exact exclusive_of_arr item.decode_arr
  | list item => exact exclusive_list item.decode_arr

/-- **Payloads are unambiguous.** A field and the list around it are never both accepted. A payload
has at most one reading, and its value is that of the reading. The order in which the readings are
tried does not matter, neither for this payload nor for the payloads inside of its field. -/
theorem unambiguous (table : FileTable) (payload : Payload) (v : Json) :
    (¬ ((∃ a, (payload.decode table v).Yields a) ∧
        ∃ b, (payload.decode table (.arr [v])).Yields b)) ∧
      (∀ a, (wrapped (payload.decode table) v).Yields a ↔
        ∃ own, Reads (payload.decode table) v own a) ∧
      (∀ own own' a a', Reads (payload.decode table) v own a →
        Reads (payload.decode table) v own' a' → own = own' ∧ a = a') ∧
      ∀ decode' : Json → Outcome payload.Value,
        (∀ w a, (decode' w).Yields a ↔ (payload.decode table w).Yields a) →
          ∀ a, (bareFirst decode' v).Yields a ↔ (wrapped (payload.decode table) v).Yields a := by
  have h := payload.exclusive table
  refine ⟨h v, fun a => h.wrapped_yields, fun own own' a a' => h.reads_unique, ?_⟩
  intro decode' heq a
  rw [(h.congr heq).bareFirst_yields, h.wrapped_yields]
  simp only [Reads, heq]

end Payload

end BorrowIR
