import BorrowIR.Proofs.Lookup
import BorrowIR.Proofs.NamedDeclarations
import BorrowIR.Proofs.Wire

/-!
# Names that can be told apart

In the text of a name, `::` stands before an identifier and `#` before a number, but nothing stands
before the first identifier, and an identifier may be any text. If identifiers have none of these
signs in them, and are not empty, then a name can be read back from its text.

* `Name.Plain`: the names whose identifiers are such;
* `Name.text_inj`: plain names with the same text are the same;
* `Crate.finds_by_name`: so in a crate whose declarations have plain and distinct names, each of
  them is found under the text of its name, and nothing is found under any other text.
-/

namespace BorrowIR

/-- The characters that begin a segment in the text of a name. -/
def isSign (c : Char) : Bool := c == ':' || c == '#'

/-- A segment whose text has no sign in it, and is not empty. -/
def PathElem.Plain : PathElem → Prop
  | .ident word => word ≠ "" ∧ ':' ∉ word.toList ∧ '#' ∉ word.toList
  | .disambiguator _ => True

/-- **Plain names.** Each segment can be told from the next one. -/
def Name.Plain (name : Name) : Prop := ∀ elem ∈ name.elems, elem.Plain

instance (elem : PathElem) : Decidable elem.Plain :=
  match elem with
  | .ident _ => inferInstanceAs (Decidable (_ ∧ _ ∧ _))
  | .disambiguator _ => inferInstanceAs (Decidable True)

instance (name : Name) : Decidable name.Plain := inferInstanceAs (Decidable (∀ _ ∈ _, _))

/-! ## Up to the next sign -/

/-- Characters up to the next sign: there is no sign in `word`, and `rest` is empty or begins with
one. -/
structure UpToSign (word rest : List Char) : Prop where
  word : ∀ c ∈ word, isSign c = false
  rest : ∀ c ∈ rest.head?, isSign c = true

namespace UpToSign

variable {word rest word' rest' : List Char}

/-- A word ends where the first sign stands. -/
theorem takeWhile_eq (h : UpToSign word rest) :
    (word ++ rest).takeWhile (fun c => !isSign c) = word := by
  -- behind the word there is a sign, if there is anything
  have hrest : rest.takeWhile (fun c => !isSign c) = [] := by
    cases rest with
    | nil => rfl
    | cons c cs => rw [List.takeWhile_cons_of_neg (by simp [h.rest c rfl])]
  rw [List.takeWhile_append_of_pos (fun c hc => by simp [h.word c hc]), hrest, List.append_nil]

/-- A text is split at its first sign in one way only. -/
theorem unique (h : UpToSign word rest) (h' : UpToSign word' rest')
    (heq : word ++ rest = word' ++ rest') : word = word' ∧ rest = rest' := by
  have hword : word = word' := by
    rw [← h.takeWhile_eq, heq, h'.takeWhile_eq]
  subst hword
  exact ⟨rfl, List.append_cancel_left heq⟩

end UpToSign

/-! ## Segments -/

/-- There are no signs among digits. -/
theorem isSign_of_mem_toString {n : Nat} : ∀ c ∈ (toString n).toList, isSign c = false := by
  intro c hc
  rw [Nat.toString_eq_ofList_toDigits, String.toList_ofList] at hc
  have hdigit : c.isDigit = true := Nat.isDigit_of_mem_toDigits (by omega) (by omega) hc
  unfold isSign
  by_contra h
  rw [Bool.not_eq_false, Bool.or_eq_true, beq_iff_eq, beq_iff_eq] at h
  rcases h with rfl | rfl <;> exact absurd hdigit (by decide)

/-- There are no signs in a plain word. -/
theorem isSign_of_plain {ident : String} (h : (PathElem.ident ident).Plain) :
    ∀ c ∈ ident.toList, isSign c = false := by
  intro c hc
  obtain ⟨-, hcolon, hhash⟩ := h
  have hcolon' : c ≠ ':' := fun heq => hcolon (heq ▸ hc)
  have hhash' : c ≠ '#' := fun heq => hhash (heq ▸ hc)
  simp [isSign, hcolon', hhash']

/-- Digits tell the number. -/
theorem toString_inj {m n : Nat} (h : (toString m).toList = (toString n).toList) : m = n := by
  have hm := Decimal.value?_toString m
  rw [h, Decimal.value?_toString n] at hm
  exact (Option.some.inj hm).symm

namespace Name

variable {elems elems' : List PathElem}

theorem tailText_ident (ident : String) (elems : List PathElem) :
    (tailText (.ident ident :: elems)).toList =
      ':' :: ':' :: (ident.toList ++ (tailText elems).toList) := by
  simp [tailText]

theorem tailText_disambiguator (n : Nat) (elems : List PathElem) :
    (tailText (.disambiguator n :: elems)).toList =
      '#' :: ((toString n).toList ++ (tailText elems).toList) := by
  simp [tailText]

/-- What follows a segment is nothing, or begins with a sign. -/
theorem isSign_head_tailText : ∀ c ∈ (tailText elems).toList.head?, isSign c = true := by
  intro c hc
  match elems with
  | [] => cases hc
  | .ident ident :: elems =>
    rw [tailText_ident] at hc
    cases hc
    decide
  | .disambiguator n :: elems =>
    rw [tailText_disambiguator] at hc
    cases hc
    decide

/-- Behind the first segment, the sign tells the sort of a segment, and the next sign its end. -/
theorem tailText_inj (h : ∀ elem ∈ elems, elem.Plain) (h' : ∀ elem ∈ elems', elem.Plain)
    (heq : (tailText elems).toList = (tailText elems').toList) : elems = elems' := by
  -- at each segment, two different signs would make different texts
  induction elems generalizing elems' with
  | nil =>
    match elems' with
    | [] => rfl
    | .ident ident :: elems' => rw [tailText_ident] at heq; cases heq
    | .disambiguator n :: elems' => rw [tailText_disambiguator] at heq; cases heq
  | cons elem elems ih =>
    obtain ⟨helem, helems⟩ := List.forall_mem_cons.1 h
    match elem, elems' with
    | .ident ident, [] => rw [tailText_ident] at heq; cases heq
    | .disambiguator n, [] => rw [tailText_disambiguator] at heq; cases heq
    | .ident ident, .disambiguator n :: elems' =>
      rw [tailText_ident, tailText_disambiguator] at heq
      exact absurd (List.cons.inj heq).1 (by decide)
    | .disambiguator n, .ident ident :: elems' =>
      rw [tailText_ident, tailText_disambiguator] at heq
      exact absurd (List.cons.inj heq).1 (by decide)
    | .ident ident, .ident ident' :: elems' =>
      obtain ⟨helem', helems'⟩ := List.forall_mem_cons.1 h'
      rw [tailText_ident, tailText_ident] at heq
      obtain ⟨hident, hrest⟩ := UpToSign.unique
        ⟨isSign_of_plain helem, isSign_head_tailText⟩
        ⟨isSign_of_plain helem', isSign_head_tailText⟩ (List.cons.inj (List.cons.inj heq).2).2
      rw [String.toList_inj.1 hident, ih helems helems' hrest]
    | .disambiguator n, .disambiguator n' :: elems' =>
      obtain ⟨-, helems'⟩ := List.forall_mem_cons.1 h'
      rw [tailText_disambiguator, tailText_disambiguator] at heq
      obtain ⟨hdigits, hrest⟩ := UpToSign.unique
        ⟨isSign_of_mem_toString, isSign_head_tailText⟩
        ⟨isSign_of_mem_toString, isSign_head_tailText⟩ (List.cons.inj heq).2
      rw [toString_inj hdigits, ih helems helems' hrest]

/-! ## Names -/

/-- A name begins with an identifier, or its text is that of segments behind another one. -/
theorem text_cases (elems : List PathElem) :
    (∃ word rest, elems = .ident word :: rest) ∨ text ⟨elems⟩ = tailText elems := by
  match elems with
  | [] => exact .inr rfl
  | .ident word :: rest => exact .inl ⟨word, rest, rfl⟩
  | .disambiguator n :: rest => exact .inr rfl

/-- The text of a name that begins with an identifier is not that of segments behind another one,
as it begins with something else than a sign. -/
theorem text_ident_ne_tailText {word : String} (h : (PathElem.ident word).Plain) :
    text ⟨.ident word :: elems⟩ ≠ tailText elems' := by
  intro heq
  obtain ⟨c, cs, hword⟩ := List.exists_cons_of_ne_nil (mt String.toList_eq_nil_iff.1 h.1)
  have hchars : (tailText elems').toList = c :: (cs ++ (tailText elems).toList) := by
    rw [← heq, text, String.toList_append, hword, List.cons_append]
  have hhead : (tailText elems').toList.head? = some c := by rw [hchars, List.head?_cons]
  have hsign : isSign c = true := isSign_head_tailText c hhead
  have hnot : isSign c = false := isSign_of_plain h c (by rw [hword]; exact List.mem_cons_self)
  rw [hsign] at hnot
  cases hnot

/-- **The text of a plain name tells the name.** -/
theorem text_inj {a b : Name} (ha : a.Plain) (hb : b.Plain) (heq : a.text = b.text) : a = b := by
  obtain ⟨elems⟩ := a
  obtain ⟨elems'⟩ := b
  have htail (h : (tailText elems).toList = (tailText elems').toList) :
      (⟨elems⟩ : Name) = ⟨elems'⟩ :=
    congrArg Name.mk (tailText_inj ha hb h)
  -- only the first segment may lack a sign, so the two names begin in the same way
  rcases text_cases elems with ⟨word, rest, rfl⟩ | htext
  · rcases text_cases elems' with ⟨word', rest', rfl⟩ | htext'
    · -- two colons in front, and these are the texts of segments behind another one
      apply htail
      rw [tailText_ident, tailText_ident, ← String.toList_append, ← String.toList_append]
      exact congrArg (fun s : String => ':' :: ':' :: s.toList) heq
    · exact absurd (heq.trans htext') (text_ident_ne_tailText (ha _ List.mem_cons_self))
  · rcases text_cases elems' with ⟨word', rest', rfl⟩ | htext'
    · exact absurd (heq.symm.trans htext) (text_ident_ne_tailText (hb _ List.mem_cons_self))
    · exact htail (congrArg String.toList (htext.symm.trans (heq.trans htext')))

end Name

/-! ## Searching by names -/

/-- **Distinguished names.** The names of declarations are plain, and no two of them are the
same. -/
structure Distinguished (names : List Name) : Prop where
  plain : ∀ name ∈ names, name.Plain
  nodup : names.Nodup

/-- Names that are told apart have different texts. -/
theorem Distinguished.nodup_texts {names : List Name} (h : Distinguished names) :
    (names.map Name.text).Nodup := by
  refine List.Nodup.map_on ?_ h.nodup
  intro a ha b hb heq
  exact Name.text_inj (h.plain a ha) (h.plain b hb) heq

/-- What is found by the text of a name: a declaration if it is its name, and nothing if it is the
name of none. -/
structure FindsByName {α : Type} (find? : String → Option α) (decls : List α) (name : α → Name) :
    Prop where
  found : ∀ decl ∈ decls, find? (name decl).text = some decl
  missing : ∀ text, find? text = none ↔ ∀ decl ∈ decls, (name decl).text ≠ text

/-- Where names are told apart, a declaration is found by the text of its name. -/
theorem Distinguished.findsByName {α : Type} {decls : List α} {name : α → Name}
    (h : Distinguished (decls.map name)) :
    FindsByName (fun text => decls.find? fun decl => (name decl).text == text) decls name := by
  constructor
  · intro decl hdecl
    have hnodup : (decls.map fun decl => (name decl).text).Nodup := by
      have htexts := h.nodup_texts
      rwa [List.map_map] at htexts
    exact Lookup.find?_of_nodup hnodup hdecl
  · intro text
    simp [List.find?_eq_none]

/-- **Names identify declarations.** The text of a plain name is the text of no other plain name. If
the types of a crate have names that are plain and distinct, then searching for a type by the text
of its name finds just this type, and no type is found by another text; and likewise for functions
and globals. -/
theorem Crate.finds_by_name {B : Type} (crate : Crate B) :
    (∀ a b : Name, a.Plain → b.Plain → (a.text = b.text ↔ a = b)) ∧
      (Distinguished (crate.types.values.map TypeDecl.name) →
        FindsByName crate.findType? crate.types.values TypeDecl.name) ∧
      (Distinguished (crate.functions.values.map FunDecl.name) →
        FindsByName crate.findFun? crate.functions.values FunDecl.name) ∧
      (Distinguished (crate.globals.values.map GlobalDecl.name) →
        FindsByName crate.findGlobal? crate.globals.values GlobalDecl.name) := by
  refine ⟨fun a b ha hb => ⟨Name.text_inj ha hb, congrArg Name.text⟩, ?_, ?_, ?_⟩
  · exact Distinguished.findsByName
  · exact Distinguished.findsByName
  · exact Distinguished.findsByName

/-- The crate with a type `a#1::b` and a type `#1::a`, and a function without segments in its
name. -/
def Crate.numberedNames : Crate Statement where
  name := "krate"
  groups := []
  types := (IdMap.empty.insert ⟨0⟩
    { TypeDecl.external 0 "" with name := ⟨[.ident "a", .disambiguator 1, .ident "b"]⟩ }).insert ⟨1⟩
    { TypeDecl.external 1 "" with name := ⟨[.disambiguator 1, .ident "a"]⟩ }
  functions := IdMap.empty.insert ⟨0⟩ (.bare [] (.mk ⟨.top, none⟩ .nop))
  globals := .empty

/-- The types are found under their names, the function is found under the empty text, and no type
is called `a::b`. -/
theorem Crate.finds_by_name_numberedNames :
    Distinguished (numberedNames.types.values.map TypeDecl.name) ∧
      (numberedNames.findType? "a#1::b").map TypeDecl.id = some ⟨0⟩ ∧
      (numberedNames.findType? "#1::a").map TypeDecl.id = some ⟨1⟩ ∧
      numberedNames.findType? "a::b" = none ∧
      (numberedNames.findFun? "").map FunDecl.id = some ⟨0⟩ ∧
      ∀ text, numberedNames.findGlobal? text = none := by
  obtain ⟨-, htypes, hfunctions, hglobals⟩ := finds_by_name numberedNames
  have hdistinguished : Distinguished (numberedNames.types.values.map TypeDecl.name) :=
    ⟨by decide, by decide⟩
  have hfoundTypes := htypes hdistinguished
  have hfoundFunctions := hfunctions ⟨by decide, by decide⟩
  have hfoundGlobals := hglobals ⟨List.forall_mem_nil _, List.nodup_nil⟩
  have hfirst := hfoundTypes.found _ List.mem_cons_self
  have hsecond := hfoundTypes.found _ (List.mem_cons_of_mem _ List.mem_cons_self)
  have hfunction := hfoundFunctions.found _ List.mem_cons_self
  refine ⟨hdistinguished, congrArg (Option.map TypeDecl.id) hfirst,
    congrArg (Option.map TypeDecl.id) hsecond, ?_, congrArg (Option.map FunDecl.id) hfunction, ?_⟩
  · exact (hfoundTypes.missing "a::b").2 (by decide)
  · intro text
    exact (hfoundGlobals.missing text).2 (List.forall_mem_nil _)

end BorrowIR
