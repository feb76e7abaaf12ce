import BorrowIR.Statement.Text
import Mathlib.Data.List.Basic

/-!
# The names in printed code

Names are printed as they are. Whatever else stands in a place, a type, an operand or a right-hand
side is made of signs, numbers and quoted literals, and none of these has a line feed.

* `OneLine`: a text has no line feed;
* `Place.names`, `Operand.names`, `Rvalue.names`, `Call.names`: the names that are printed;
* `Place.text_oneLine`, `Operand.text_oneLine`, `Rvalue.text_oneLine`, `Call.text_oneLine`: if none
  of them has a line feed, the text has none.
-/

namespace BorrowIR

/-- The text has no line feed. -/
def OneLine (s : String) : Prop := '\n' ∉ s.toList

instance (s : String) : Decidable (OneLine s) := inferInstanceAs (Decidable (_ ∉ _))

namespace OneLine

theorem append {s t : String} (hs : OneLine s) (ht : OneLine t) : OneLine (s ++ t) := by
  rw [OneLine, String.toList_append, List.mem_append]
  exact fun h => h.elim hs ht

/-- Texts that are put together with a separator stay on one line if the separator does. -/
theorem intercalate {separator : String} {texts : List String} (hseparator : OneLine separator)
    (htexts : ∀ text ∈ texts, OneLine text) : OneLine (separator.intercalate texts) := by
  induction texts with
  | nil =>
    rw [String.intercalate_nil]
    decide
  | cons text texts ih =>
    obtain ⟨htext, htexts⟩ := List.forall_mem_cons.1 htexts
    cases texts with
    | nil => rwa [String.intercalate_singleton]
    | cons next texts =>
      rw [String.intercalate_cons_cons]
      exact (htext.append hseparator).append (ih htexts)

theorem commaSeparated {texts : List String} (h : ∀ text ∈ texts, OneLine text) :
    OneLine (commaSeparated texts) :=
  intercalate (by decide) h

theorem angled {texts : List String} (h : ∀ text ∈ texts, OneLine text) :
    OneLine (angled texts) := by
  cases texts with
  | nil => decide
  | cons text texts => exact (append (by decide) (commaSeparated h)).append (by decide)

end OneLine

/-! ## Numbers and literals -/

/-- The digits of a number are the signs for digits. -/
theorem exists_digitChar_of_mem_toDigits {base n : Nat} (hbase : 1 < base) :
    ∀ c ∈ Nat.toDigits base n, ∃ digit, c = Nat.digitChar digit := by
  induction n using Nat.strongRecOn with
  | ind n ih =>
    intro c hc
    rcases Nat.lt_or_ge n base with hlt | hge
    · rw [Nat.toDigits_of_lt_base hlt] at hc
      exact ⟨n, List.mem_singleton.1 hc⟩
    · rw [Nat.toDigits_of_base_le hbase hge, List.mem_append] at hc
      rcases hc with hc | hc
      · exact ih (n / base) (Nat.div_lt_self (by omega) hbase) c hc
      · exact ⟨n % base, List.mem_singleton.1 hc⟩

/-- There is no line feed among digits. -/
theorem newline_not_mem_toDigits {base n : Nat} (hbase : 1 < base) :
    '\n' ∉ Nat.toDigits base n := by
  intro h
  obtain ⟨digit, hdigit⟩ := exists_digitChar_of_mem_toDigits hbase _ h
  exact Nat.digitChar_ne '\n' (by decide) hdigit.symm

theorem oneLine_natural (n : Nat) : OneLine (toString n) := by
  rw [OneLine, Nat.toString_eq_ofList_toDigits, String.toList_ofList]
  exact newline_not_mem_toDigits (by decide)

/-- An integer is printed on one line, with a sign or without. -/
theorem oneLine_integer (i : Int) : OneLine (toString i) := by
  cases i with
  | ofNat n => exact oneLine_natural n
  | negSucc n => exact OneLine.append (by decide) (oneLine_natural (n + 1))

theorem EntityId.text_oneLine {sort : Entity} (id : EntityId sort) : OneLine id.text :=
  oneLine_natural id.index

theorem VariantId.optionText_oneLine (variant : VariantId) :
    OneLine (VariantId.optionText variant) := by
  unfold optionText
  split
  · decide
  · decide
  · exact OneLine.append (by decide) (EntityId.text_oneLine variant)

theorem IntTy.text_oneLine (ty : IntTy) : OneLine ty.text := by
  obtain ⟨signed, width⟩ := ty
  cases signed <;> cases width <;> decide

theorem Scalar.text_oneLine (scalar : Scalar) : OneLine scalar.text :=
  ((oneLine_integer scalar.value).append (by decide)).append scalar.ty.text_oneLine

/-- A line feed is quoted. -/
theorem Quoted.newline_not_mem_escape (style : QuoteStyle) (c : Char) :
    '\n' ∉ escape style c := by
  unfold escape
  by_cases hline : c = '\n'
  · subst hline
    show '\n' ∉ ['\\', 'n']
    decide
  · split_ifs <;> try decide
    · exact fun h => hline (List.mem_singleton.1 h).symm
    · have hdigits := newline_not_mem_toDigits (n := c.toNat) (show 1 < 16 by decide)
      simpa [codeEscape] using hdigits

/-- A literal is printed on one line, whatever characters are in it. -/
theorem Literal.text_oneLine (value : Literal) : OneLine value.text := by
  -- only characters and strings can have a line feed in them, and it is quoted
  cases value with
  | scalar scalar => exact scalar.text_oneLine
  | bool b => cases b <;> decide
  | char c =>
    have h := Quoted.newline_not_mem_escape .char c
    simpa [Literal.text, Quoted.char, OneLine] using h
  | string s =>
    have h := Quoted.newline_not_mem_escape .string
    simp [Literal.text, Quoted.string, OneLine, h]

/-! ## Types -/

/-- The names in the head of an application. -/
def TypeHead.names (scope : Scope) : TypeHead → List String
  | .adt id => [scope.typeText id]
  | .tuple | .builtin _ => []

namespace Ty

mutual
/-- The names in a type. -/
def names (scope : Scope) : ErasedTy → List String
  | .app head _ types => head.names scope ++ allNames scope types
  | .var id => [scope.typeVarText id]
  | .array elem | .slice elem | .ref _ elem _ => names scope elem
  | .bool | .char | .never | .int _ | .str => []

/-- The names in types. -/
def allNames (scope : Scope) : List ErasedTy → List String
  | [] => []
  | ty :: types => names scope ty ++ allNames scope types
end

/-- A tuple is printed on one line, also that of one component. -/
theorem tupleText_oneLine {texts : List String} (h : ∀ text ∈ texts, OneLine text) :
    OneLine (tupleText texts) := by
  unfold tupleText
  split
  · rename_i component
    have hcomponent := h component List.mem_cons_self
    exact (OneLine.append (by decide) hcomponent).append (by decide)
  · exact (OneLine.append (by decide) (OneLine.commaSeparated h)).append (by decide)

end Ty

theorem ErasedRegion.text_oneLine (r : ErasedRegion) : OneLine r.text := by
  cases r
  decide

/-- The arguments of an application are printed one by one. -/
theorem Ty.arguments_oneLine {regions : List ErasedRegion} {texts : List String}
    (htexts : ∀ text ∈ texts, OneLine text) :
    OneLine (angled (regions.map ErasedRegion.text ++ texts)) := by
  refine OneLine.angled (List.forall_mem_append.2 ⟨?_, htexts⟩)
  exact List.forall_mem_map.2 fun r _ => r.text_oneLine

namespace Ty

variable {scope : Scope}

mutual
/-- A type is printed on one line if the names in it are. -/
theorem text_oneLine : ∀ (ty : ErasedTy), (∀ name ∈ ty.names scope, OneLine name) →
    OneLine (ty.textWith scope ErasedRegion.text)
  | .app .tuple _ types, h => by
    rw [names, List.forall_mem_append] at h
    exact tupleText_oneLine (allTexts_oneLine types h.2)
  | .app (.adt id) regions types, h => by
    rw [names, List.forall_mem_append] at h
    have hname := h.1 (scope.typeText id) List.mem_cons_self
    exact hname.append (arguments_oneLine (allTexts_oneLine types h.2))
  | .app (.builtin ty) regions types, h => by
    rw [names, List.forall_mem_append] at h
    have hname : OneLine ty.text := by cases ty <;> decide
    exact hname.append (arguments_oneLine (allTexts_oneLine types h.2))
  | .var id, h => h (scope.typeVarText id) List.mem_cons_self
  | .bool, _ => show OneLine "bool" by decide
  | .char, _ => show OneLine "char" by decide
  | .never, _ => show OneLine "!" by decide
  | .int ty, _ => ty.text_oneLine
  | .str, _ => show OneLine "str" by decide
  | .array elem, h => (OneLine.append (by decide) (text_oneLine elem h)).append (by decide)
  | .slice elem, h => (OneLine.append (by decide) (text_oneLine elem h)).append (by decide)
  | .ref lifetime target mutability, h => by
    have hmarker : OneLine mutability.marker := by cases mutability <;> decide
    have hregion := OneLine.append (s := "&") (by decide) lifetime.text_oneLine
    exact ((hregion.append (by decide)).append hmarker).append (text_oneLine target h)

/-- So are the types of a list. -/
theorem allTexts_oneLine :
    ∀ types : List ErasedTy, (∀ name ∈ allNames scope types, OneLine name) →
      ∀ text ∈ textsWith scope ErasedRegion.text types, OneLine text
  | [], _ => List.forall_mem_nil _
  | ty :: types, h => by
    rw [allNames, List.forall_mem_append] at h
    exact List.forall_mem_cons.2 ⟨text_oneLine ty h.1, allTexts_oneLine types h.2⟩
end

end Ty

/-! ## Places and operands -/

/-- The names in a step of a path. -/
def Projection.names (scope : Scope) : Projection → List String
  | .field (.adt adt variant) id => [scope.fieldText adt variant id]
  | .field (.tuple _) _ | .field (.option _) _ | .deref | .derefBox => []

/-- The names in a place. -/
def Place.names (scope : Scope) (place : Place) : List String :=
  scope.varText place.var :: place.projections.flatMap (Projection.names scope)

/-- The names in a constant. -/
def Constant.names (scope : Scope) : Constant → List String
  | .adt id => [scope.typeText id]
  | .literal _ | .unit => []

/-- The names in an operand. -/
def Operand.names (scope : Scope) : Operand → List String
  | .copy place | .move place => place.names scope
  | .const ty value => value.names scope ++ Ty.names scope ty

variable {scope : Scope}

/-- A step into a place is printed on one line if the place and the name of the field are. -/
theorem Projection.apply_oneLine {step : Projection} {place : String} (hplace : OneLine place)
    (h : ∀ name ∈ step.names scope, OneLine name) : OneLine (step.apply scope place) := by
  have hdot : OneLine ("(" ++ place ++ ").") :=
    (OneLine.append (by decide) hplace).append (by decide)
  match step with
  | .deref => exact (OneLine.append (by decide) hplace).append (by decide)
  | .derefBox => exact (OneLine.append (by decide) hplace).append (by decide)
  | .field (.adt adt variant) id => exact hdot.append (h _ List.mem_cons_self)
  | .field (.tuple _) id => exact hdot.append id.text_oneLine
  | .field (.option variant) id =>
    have has : OneLine ("(" ++ place ++ " as ") :=
      (OneLine.append (by decide) hplace).append (by decide)
    have hvariant := has.append (VariantId.optionText_oneLine variant)
    exact (hvariant.append (by decide)).append id.text_oneLine

/-- The steps are printed around the variable from the inside to the outside. -/
theorem Projection.foldl_apply_oneLine {steps : List Projection} {text : String}
    (htext : OneLine text) (h : ∀ name ∈ steps.flatMap (Projection.names scope), OneLine name) :
    OneLine (steps.foldl (Projection.apply scope) text) := by
  -- generalised over the text, as every step puts more around it
  induction steps generalizing text with
  | nil => exact htext
  | cons step steps ih =>
    rw [List.flatMap_cons, List.forall_mem_append] at h
    exact ih (Projection.apply_oneLine htext h.1) h.2

theorem Place.text_oneLine {place : Place} (h : ∀ name ∈ place.names scope, OneLine name) :
    OneLine (place.text scope) := by
  obtain ⟨hvar, hsteps⟩ := List.forall_mem_cons.1 h
  exact Projection.foldl_apply_oneLine hvar hsteps

theorem Constant.text_oneLine {value : Constant} (h : ∀ name ∈ value.names scope, OneLine name) :
    OneLine (value.text scope) := by
  cases value with
  | literal value => exact value.text_oneLine
  | adt id => exact OneLine.append (by decide) (h _ List.mem_cons_self)
  | unit =>
    show OneLine "()"
    decide

theorem Operand.text_oneLine {operand : Operand}
    (h : ∀ name ∈ operand.names scope, OneLine name) : OneLine (operand.text scope) := by
  cases operand with
  | copy place | move place =>
    exact (OneLine.append (by decide) (Place.text_oneLine h)).append (by decide)
  | const ty value =>
    rw [names, List.forall_mem_append] at h
    have hvalue := OneLine.append (s := "const (") (by decide) (Constant.text_oneLine h.1)
    exact ((hvalue.append (by decide)).append (Ty.text_oneLine ty h.2)).append (by decide)

theorem Operand.texts_oneLine {operands : List Operand}
    (h : ∀ name ∈ operands.flatMap (Operand.names scope), OneLine name) :
    ∀ text ∈ operands.map (Operand.text scope), OneLine text := by
  rw [List.forall_mem_map]
  intro operand hoperand
  exact text_oneLine fun name hname => h name (List.mem_flatMap_of_mem hoperand hname)

/-! ## Right-hand sides and calls -/

/-- The names in the head of an aggregate. -/
def AggregateKind.headNames (scope : Scope) : AggregateKind → List String
  | .tuple | .option .. => []
  | .adt id none _ _ => [scope.typeText id]
  | .adt id (some variant) _ _ => [scope.typeText id, scope.variantText (some id) variant]

/-- The names of the fields that an aggregate gives values to. -/
def AggregateKind.fieldNames (scope : Scope) (count : Nat) : AggregateKind → List String
  | .tuple | .option .. => []
  | .adt id variant _ _ => (List.range count).map fun i => scope.fieldText id variant ⟨i⟩

/-- The names in a right-hand side. -/
def Rvalue.names (scope : Scope) : Rvalue → List String
  | .use operand | .unary _ operand => operand.names scope
  | .borrow place _ | .discriminant place => place.names scope
  | .binary _ left right => left.names scope ++ right.names scope
  | .global id => [scope.globalText id]
  | .aggregate kind operands =>
    kind.headNames scope ++ kind.fieldNames scope operands.length
      ++ operands.flatMap (Operand.names scope)

/-- The names in what a call calls. -/
def Callee.names (scope : Scope) : Callee → List String
  | .declared id => [scope.funText id]
  | .builtin _ => []

/-- The names in a call. -/
def Call.names (scope : Scope) (call : Call) : List String :=
  call.dest.names scope ++ call.callee.names scope ++ call.types.flatMap (Ty.names scope)
    ++ call.args.flatMap (Operand.names scope)

theorem fieldTexts_oneLine {id : TypeDeclId} {variant : Option VariantId} {operands : List Operand}
    (hfields : ∀ i < operands.length, OneLine (scope.fieldText id variant ⟨i⟩))
    (hoperands : ∀ name ∈ operands.flatMap (Operand.names scope), OneLine name) :
    ∀ text ∈ fieldTexts scope id variant operands, OneLine text := by
  rw [fieldTexts, List.forall_mem_map]
  rintro ⟨operand, i⟩ hmem
  obtain ⟨hi, hoperand⟩ := List.mem_zipIdx' hmem
  have hname := (hfields i hi).append (t := ": ") (by decide)
  refine hname.append (Operand.text_oneLine fun name hmem => ?_)
  exact hoperands name (List.mem_flatMap_of_mem (hoperand ▸ List.getElem_mem hi) hmem)

/-- An aggregate is printed on one line if the names of its type, its variant and its fields are. -/
theorem AggregateKind.text_oneLine {kind : AggregateKind} {operands : List Operand}
    (hhead : ∀ name ∈ kind.headNames scope, OneLine name)
    (hfields : ∀ name ∈ kind.fieldNames scope operands.length, OneLine name)
    (hoperands : ∀ name ∈ operands.flatMap (Operand.names scope), OneLine name) :
    OneLine (kind.text scope operands) := by
  have htexts := OneLine.commaSeparated (Operand.texts_oneLine hoperands)
  match kind with
  | .tuple => exact (OneLine.append (by decide) htexts).append (by decide)
  | .option variant _ =>
    have hvariant := (VariantId.optionText_oneLine variant).append (t := "(") (by decide)
    exact (hvariant.append htexts).append (by decide)
  | .adt id variant _ _ =>
    have hnames : ∀ i < operands.length, OneLine (scope.fieldText id variant ⟨i⟩) := fun i hi =>
      hfields _ (List.mem_map_of_mem (List.mem_range.2 hi))
    have hvalues := OneLine.commaSeparated (fieldTexts_oneLine hnames hoperands)
    have hname := hhead (scope.typeText id)
    cases variant with
    | none =>
      have hopen := (hname List.mem_cons_self).append (t := " \x7b ") (by decide)
      exact (hopen.append hvalues).append (by decide)
    | some variant =>
      have hpath := (hname List.mem_cons_self).append (t := "::") (by decide)
      have hvariant := hpath.append (hhead _ (List.mem_cons_of_mem _ List.mem_cons_self))
      exact ((hvariant.append (by decide)).append hvalues).append (by decide)

theorem Rvalue.text_oneLine {value : Rvalue} (h : ∀ name ∈ value.names scope, OneLine name) :
    OneLine (value.text scope) := by
  cases value with
  | use operand => exact Operand.text_oneLine h
  | borrow place kind =>
    have hkind : OneLine kind.text := by cases kind <;> decide
    exact hkind.append (Place.text_oneLine h)
  | unary op operand =>
    have hop : OneLine op.text := by cases op <;> decide
    exact ((hop.append (by decide)).append (Operand.text_oneLine h)).append (by decide)
  | binary op left right =>
    rw [names, List.forall_mem_append] at h
    have hop : OneLine op.text := by cases op <;> decide
    have hleft := (Operand.text_oneLine h.1).append (t := " ") (by decide)
    exact ((hleft.append hop).append (by decide)).append (Operand.text_oneLine h.2)
  | discriminant place =>
    exact (OneLine.append (by decide) (Place.text_oneLine h)).append (by decide)
  | global id => exact h _ List.mem_cons_self
  | aggregate kind operands =>
    rw [names, List.forall_mem_append, List.forall_mem_append] at h
    exact AggregateKind.text_oneLine h.1.1 h.1.2 h.2

theorem Call.text_oneLine {call : Call} (h : ∀ name ∈ call.names scope, OneLine name) :
    OneLine (call.text scope) := by
  rw [names, List.forall_mem_append, List.forall_mem_append, List.forall_mem_append] at h
  obtain ⟨⟨⟨hdest, hcallee⟩, htypes⟩, hargs⟩ := h
  have hname : OneLine (call.callee.text scope) := by
    cases hc : call.callee with
    | declared id =>
      rw [hc] at hcallee
      exact hcallee _ List.mem_cons_self
    | builtin fn =>
      have htag : OneLine fn.tag := by cases fn <;> decide
      exact OneLine.append (by decide) htag
  have htypes' : ∀ text ∈ call.types.map (ErasedTy.text scope), OneLine text := by
    rw [List.forall_mem_map]
    intro ty hty
    exact Ty.text_oneLine ty fun name hname => htypes name (List.mem_flatMap_of_mem hty hname)
  have hhead := ((Place.text_oneLine hdest).append (t := " := ") (by decide)).append hname
  have happlied := (hhead.append (OneLine.angled htypes')).append (t := "(") (by decide)
  exact (happlied.append (OneLine.commaSeparated (Operand.texts_oneLine hargs))).append (by decide)

end BorrowIR
