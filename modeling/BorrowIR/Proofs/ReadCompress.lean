import BorrowIR.Json.Reader
import BorrowIR.Proofs.Ensures

/-!
# Reading what was printed

The one-line text of a document is read as that document, if its objects are sorted, its numbers
are integers, and it is not nested too deep.

* `Reader.Steps`: the states that the reader goes through over some characters;
* `Reader.Reads`: the text of a value is read wherever a value may stand. There is one lemma for
  each sort of values;
* `Json.read_compress`: the reader inverts the printer.
-/

namespace BorrowIR

namespace Reader

variable {limit : Nat} {stack : List Frame}

/-! ## Steps -/

/-- The reader goes from one state to another one over some characters. -/
def Steps (limit : Nat) (s : State) (cs : List Char) (t : State) : Prop :=
  cs.foldlM (step limit) s = .ok t

theorem steps_nil {s t : State} : Steps limit s [] t ↔ s = t := Except.ok.injEq s t ▸ Iff.rfl

theorem steps_cons {s t : State} {c : Char} {cs : List Char} :
    Steps limit s (c :: cs) t ↔ ∃ u, step limit s c = .ok u ∧ Steps limit u cs t := by
  unfold Steps
  rw [List.foldlM_cons]
  cases step limit s c with
  | ok u => exact ⟨fun h => ⟨u, rfl, h⟩, fun ⟨_, hu, h⟩ => by cases hu; exact h⟩
  | error refusal => exact ⟨nofun, fun ⟨_, hu, _⟩ => nomatch hu⟩

/-- Steps through one text and then through another one are steps through both. -/
theorem Steps.append {s t u : State} {cs ds : List Char} (hcs : Steps limit s cs t)
    (hds : Steps limit t ds u) : Steps limit s (cs ++ ds) u := by
  induction cs generalizing s with
  | nil => rwa [steps_nil.1 hcs]
  | cons c cs ih =>
    obtain ⟨s', hs, hcs⟩ := steps_cons.1 hcs
    exact steps_cons.2 ⟨s', hs, ih hcs⟩

/-- The text is read if the reader can stop where the steps end. -/
theorem run_of_steps {s t : State} {cs : List Char} {v : Json} (h : Steps limit s cs t)
    (hfinish : finish t = .ok v) (offset : Nat) : run limit s offset cs = .ok v := by
  induction cs generalizing s offset with
  | nil =>
    rw [run, steps_nil.1 h, hfinish]
  | cons c cs ih =>
    obtain ⟨u, hu, hcs⟩ := steps_cons.1 h
    rw [run, hu]
    exact ih hcs _

/-- What comes behind a value is read in the same way from both states. A number is complete only
with the character behind it, so the state in a number is another one than the state behind it. -/
structure Same (limit : Nat) (s t : State) : Prop where
  step : ∀ c, c = ',' ∨ c = ']' ∨ c = '\x7d' → step limit s c = step limit t c
  finish : finish s = finish t

theorem Same.refl {s : State} : Same limit s s := ⟨fun _ _ => rfl, rfl⟩

/-- The text of a value is read, wherever a value may stand. -/
def Reads (limit : Nat) (stack : List Frame) (v : Json) : Prop :=
  ∃ c cs s t, v.compress.toList = c :: cs ∧ isBlank c = false ∧ c ≠ ']' ∧
    startValue limit stack c = .ok s ∧ Steps limit s cs t ∧ Same limit t (complete v stack)

/-- A value stands where only a value can stand. -/
theorem Reads.value {v : Json} (h : Reads limit stack v) :
    ∃ t, Steps limit ⟨stack, .value⟩ v.compress.toList t ∧ Same limit t (complete v stack) := by
  obtain ⟨c, cs, s, t, htext, hblank, -, hstart, hsteps, hsame⟩ := h
  refine ⟨t, htext ▸ steps_cons.2 ⟨s, ?_, hsteps⟩, hsame⟩
  simp [step, between, hblank, hstart]

/-- A value stands at the start of a list. -/
theorem Reads.first {v : Json} (h : Reads limit (.list [] :: stack) v) :
    ∃ t, Steps limit ⟨stack, .listStart⟩ v.compress.toList t ∧
      Same limit t ⟨stack, .listRest [v]⟩ := by
  obtain ⟨c, cs, s, t, htext, hblank, hc, hstart, hsteps, hsame⟩ := h
  refine ⟨t, htext ▸ steps_cons.2 ⟨s, ?_, hsteps⟩, hsame⟩
  simp [step, between, hblank, hc, hstart]

/-- A value stands behind a comma of a list. -/
theorem Reads.next {v : Json} {elems : List Json} (h : Reads limit (.list elems :: stack) v) :
    ∃ t, Steps limit ⟨stack, .listNext elems⟩ v.compress.toList t ∧
      Same limit t ⟨stack, .listRest (v :: elems)⟩ := by
  obtain ⟨c, cs, s, t, htext, hblank, hc, hstart, hsteps, hsame⟩ := h
  refine ⟨t, htext ▸ steps_cons.2 ⟨s, ?_, hsteps⟩, hsame⟩
  simp [step, between, hblank, hc, hstart]

/-! ## Words -/

theorem reads_null : Reads limit stack .null :=
  ⟨'n', ['u', 'l', 'l'], _, _, rfl, by decide, by decide, rfl, rfl, .refl⟩

theorem reads_bool (b : Bool) : Reads limit stack (.bool b) := by
  cases b with
  | false => exact ⟨'f', ['a', 'l', 's', 'e'], _, _, rfl, by decide, by decide, rfl, rfl, .refl⟩
  | true => exact ⟨'t', ['r', 'u', 'e'], _, _, rfl, by decide, by decide, rfl, rfl, .refl⟩

/-! ## Strings -/

/-- The digits of a control character are those of its number. -/
theorem hexNumber?_control {n : Nat} (h : n < 0x20) :
    hexNumber? [Json.hexDigit (n % 16), Json.hexDigit (n / 16), '0', '0'] = some n := by
  decide +revert

theorem utf8Size_hexDigit {n : Nat} (h : n < 16) : (Json.hexDigit n).utf8Size = 1 := by
  decide +revert

/-- A character is read from its escape by number. -/
theorem steps_control {role : StringRole} {chars : List Char} {c : Char} (hc : c.toNat < 0x20) :
    Steps limit ⟨stack, .string role .plain chars⟩
      ['\\', 'u', '0', '0', Json.hexDigit (c.toNat / 16), Json.hexDigit (c.toNat % 16)]
      ⟨stack, .string role .plain (c :: chars)⟩ := by
  have hlow := utf8Size_hexDigit (n := c.toNat % 16) (by omega)
  have hhigh := utf8Size_hexDigit (n := c.toNat / 16) (by omega)
  have hnumber := hexNumber?_control hc
  -- the number is below the surrogates, so it is a character by itself
  have hplain : numbered none c.toNat = .ok (.plain, [c]) := by
    have hlow : ¬ 0xDC00 ≤ c.toNat := by omega
    have hhigh : ¬ 0xD800 ≤ c.toNat := by omega
    simp [numbered, hlow, hhigh]
  have hzero : byteCount ['0', '0'] = 2 := rfl
  -- the third digit is kept, and the fourth one completes the number
  have hlast : step limit
      ⟨stack, .string role (.hex none [Json.hexDigit (c.toNat / 16), '0', '0']) chars⟩
      (Json.hexDigit (c.toNat % 16)) = .ok ⟨stack, .string role .plain (c :: chars)⟩ := by
    have hbytes : byteCount [Json.hexDigit (c.toNat % 16), Json.hexDigit (c.toNat / 16), '0', '0'] =
        4 := by
      rw [byteCount, byteCount, hzero, hlow, hhigh]
    simp [step, inString, hbytes, hnumber, hplain]
  have hthird : step limit ⟨stack, .string role (.hex none ['0', '0']) chars⟩
      (Json.hexDigit (c.toNat / 16)) =
        .ok ⟨stack, .string role (.hex none [Json.hexDigit (c.toNat / 16), '0', '0']) chars⟩ := by
    have hbytes : byteCount [Json.hexDigit (c.toNat / 16), '0', '0'] = 3 := by
      rw [byteCount, hzero, hhigh]
    simp [step, inString, hbytes]
  refine steps_cons.2 ⟨_, rfl, steps_cons.2 ⟨_, rfl, steps_cons.2 ⟨_, rfl, ?_⟩⟩⟩
  refine steps_cons.2 ⟨_, rfl, steps_cons.2 ⟨_, hthird, steps_cons.2 ⟨_, hlast, ?_⟩⟩⟩
  exact steps_nil.2 rfl

/-- A character of a string is read from its text. -/
theorem steps_escapeChar {role : StringRole} {chars : List Char} (c : Char) :
    Steps limit ⟨stack, .string role .plain chars⟩ (Json.escapeChar c)
      ⟨stack, .string role .plain (c :: chars)⟩ := by
  -- the seven short escapes, the escapes by number, and the characters without an escape
  unfold Json.escapeChar
  split
  · subst c; rfl
  split
  · subst c; rfl
  split
  · subst c; rfl
  split
  · subst c; rfl
  split
  · subst c; rfl
  split
  · subst c; rfl
  split
  · subst c; rfl
  split
  · rename_i hc
    exact steps_control hc
  · rename_i hquote hslash _ _ _ _ _ hc
    refine steps_cons.2 ⟨_, ?_, steps_nil.2 rfl⟩
    simp only [step, inString, if_neg hquote, if_neg hslash, if_neg hc]

/-- Characters are read from their escapes, in reverse order onto the text. -/
theorem steps_escape {role : StringRole} (cs : List Char) :
    ∀ chars, Steps limit ⟨stack, .string role .plain chars⟩ (cs.flatMap Json.escapeChar)
      ⟨stack, .string role .plain (cs.reverse ++ chars)⟩ := by
  induction cs with
  | nil => exact fun chars => steps_nil.2 rfl
  | cons c cs ih =>
    intro chars
    rw [List.flatMap_cons, List.reverse_cons, List.append_assoc, List.singleton_append]
    exact (steps_escapeChar c).append (ih _)

theorem reads_str (s : String) : Reads limit stack (.str s) := by
  refine ⟨'"', s.toList.flatMap Json.escapeChar ++ ['"'], _, _, ?_, by decide, by decide, rfl,
    (steps_escape _ _).append (steps_cons.2 ⟨complete (.str s) stack, ?_, steps_nil.2 rfl⟩), .refl⟩
  · rw [Json.compress, Json.quote, String.toList_ofList]
  · simp [step, inString]

/-- A quoted key is read up to the colon. -/
theorem steps_key {fields : List (String × Json)} (key : String) :
    Steps limit ⟨stack, .string (.key fields) .plain []⟩
      (key.toList.flatMap Json.escapeChar ++ ['"']) ⟨stack, .colon fields key⟩ := by
  refine (steps_escape _ _).append (steps_cons.2 ⟨_, ?_, steps_nil.2 rfl⟩)
  simp [step, inString]

/-! ## Numbers -/

/-- A number with a complete part ends before what can stand behind a value. -/
theorem same_number {part : NumberPart} {text : List Char} (h : part = .zero ∨ part = .digits) :
    Same limit ⟨stack, .number part text⟩ (complete (numberOf text) stack) := by
  constructor
  · intro c hc
    -- behind the complete value, the next character is read as one between values
    have hnext : step limit (complete (numberOf text) stack) c =
        between limit (complete (numberOf text) stack).stack
          (complete (numberOf text) stack).mode c := by
      rcases stack with _ | ⟨_ | _, stack⟩ <;> rfl
    have hc : c.isDigit = false ∧ c ≠ '.' ∧ c ≠ 'e' ∧ c ≠ 'E' := by
      rcases hc with rfl | rfl | rfl <;> decide
    rw [hnext]
    rcases h with rfl | rfl <;> simp [step, inNumber, hc]
  · rcases h with rfl | rfl <;> rcases stack with _ | ⟨_ | _, stack⟩ <;> rfl

theorem steps_digits {ds : List Char} (h : ∀ d ∈ ds, d.isDigit = true) :
    ∀ text, Steps limit ⟨stack, .number .digits text⟩ ds
      ⟨stack, .number .digits (ds.reverse ++ text)⟩ := by
  induction ds with
  | nil => exact fun text => steps_nil.2 rfl
  | cons d ds ih =>
    intro text
    obtain ⟨hd, hds⟩ := List.forall_mem_cons.1 h
    rw [List.reverse_cons, List.append_assoc, List.singleton_append]
    refine steps_cons.2 ⟨_, ?_, ih hds _⟩
    simp [step, inNumber, hd]

/-- The first digit of a number is a zero only if it is the only one. -/
theorem exists_toDigits (n : Nat) :
    ∃ d ds, Nat.toDigits 10 n = d :: ds ∧ (d = '0' → ds = []) := by
  induction n using Nat.strongRecOn with
  | ind n ih =>
    rcases Nat.lt_or_ge n 10 with hn | hn
    · exact ⟨_, [], Nat.toDigits_of_lt_base hn, fun _ => rfl⟩
    · obtain ⟨d, ds, hds, hzero⟩ := ih (n / 10) (by omega)
      refine ⟨d, ds ++ [(n % 10).digitChar], ?_, fun hd => ?_⟩
      · rw [Nat.toDigits_of_base_le (by omega) hn, hds, List.cons_append]
      · -- a number that is not less than ten has a first digit above zero
        have hvalue := Nat.ofDigitChars_ten_toDigits (n := n / 10)
        rw [hds, hd, hzero hd] at hvalue
        simp [Nat.ofDigitChars] at hvalue
        omega

/-- How the reading of a number begins, whose first digit is this one. -/
def NumberPart.ofDigit (d : Char) : NumberPart := if d = '0' then .zero else .digits

/-- A number that starts with a zero has no further digits. -/
theorem NumberPart.ofDigit_cases (d : Char) : ofDigit d = .zero ∨ ofDigit d = .digits := by
  unfold ofDigit
  split
  · exact .inl rfl
  · exact .inr rfl

/-- Behind its first digit, the number is read up to its last one. -/
theorem steps_natural (n : Nat) (text : List Char) :
    ∃ d ds, Nat.toDigits 10 n = d :: ds ∧ d.isDigit = true ∧
      Steps limit ⟨stack, .number (.ofDigit d) (d :: text)⟩ ds
        ⟨stack, .number (.ofDigit d) ((d :: ds).reverse ++ text)⟩ := by
  obtain ⟨d, ds, hds, hzero⟩ := exists_toDigits n
  have hdigits : ∀ c ∈ d :: ds, c.isDigit = true := fun c hc =>
    Nat.isDigit_of_mem_toDigits (b := 10) (by omega) (by omega) (hds ▸ hc)
  obtain ⟨hd, htail⟩ := List.forall_mem_cons.1 hdigits
  refine ⟨d, ds, hds, hd, ?_⟩
  rw [List.reverse_cons, List.append_assoc, List.singleton_append]
  by_cases h : d = '0'
  · rw [hzero h]
    exact steps_nil.2 rfl
  · rw [NumberPart.ofDigit, if_neg h]
    exact steps_digits htail _

theorem reads_num (negative : Bool) (n : Nat) :
    Reads limit stack (.num ((if negative then "-" else "") ++ toString n)) := by
  have htext : toString n = String.ofList (Nat.toDigits 10 n) := Nat.toString_eq_ofList_toDigits
  -- the sign is a step of its own; without it, the first digit is the first step
  cases negative with
  | false =>
    obtain ⟨d, ds, hds, hd, hsteps⟩ := @steps_natural limit stack n []
    have hnumber : numberOf ((d :: ds).reverse ++ []) =
        .num ((if false then "-" else "") ++ toString n) := by
      simp [numberOf, htext, hds]
    have hne : ∀ c : Char, c.isDigit = false → d ≠ c := by
      rintro c hc rfl
      rw [hd] at hc
      cases hc
    refine ⟨d, ds, ⟨stack, .number (.ofDigit d) [d]⟩, _, ?_, ?_, hne _ (by decide), ?_, hsteps,
      hnumber ▸ same_number (NumberPart.ofDigit_cases d)⟩
    · simp [Json.compress, htext, hds]
    · simp [isBlank, hne]
    · -- a zero leads to another state than the other digits
      by_cases hzero : d = '0'
      · rw [hzero]
        rfl
      · simp [startValue, NumberPart.ofDigit, hne, hd, hzero]
  | true =>
    obtain ⟨d, ds, hds, hd, hsteps⟩ := @steps_natural limit stack n ['-']
    have hnumber : numberOf ((d :: ds).reverse ++ ['-']) =
        .num ((if true then "-" else "") ++ toString n) := by
      simp [numberOf, htext, hds]
    refine ⟨'-', d :: ds, ⟨stack, .number .minus ['-']⟩, _, ?_, by decide, by decide, rfl,
      steps_cons.2 ⟨_, ?_, hsteps⟩, hnumber ▸ same_number (NumberPart.ofDigit_cases d)⟩
    · simp [Json.compress, htext, hds]
    · by_cases hzero : d = '0'
      · rw [hzero]
        rfl
      · simp [step, inNumber, NumberPart.ofDigit, hd, hzero]

/-! ## Lists -/

/-- Texts with commas between them, as the reader meets them behind the first one. -/
theorem toList_commas (text : String) (texts : List String) :
    (",".intercalate (text :: texts)).toList =
      text.toList ++ texts.flatMap fun text => ',' :: text.toList := by
  induction texts generalizing text with
  | nil => simp
  | cons next texts ih =>
    rw [String.intercalate_cons_cons, String.toList_append, String.toList_append, ih]
    simp

theorem compressElems_eq_map (elems : List Json) :
    Json.compressElems elems = elems.map Json.compress := by
  induction elems with
  | nil => rfl
  | cons v elems ih => rw [Json.compressElems, ih, List.map_cons]

/-- The elements behind the first one are read. -/
theorem steps_elems {vs : List Json} (h : ∀ v ∈ vs, ∀ elems, Reads limit (.list elems :: stack) v) :
    ∀ {elems : List Json} {s : State}, Same limit s ⟨stack, .listRest elems⟩ →
      ∃ t, Steps limit s (vs.flatMap fun v => ',' :: v.compress.toList) t ∧
        Same limit t ⟨stack, .listRest (vs.reverse ++ elems)⟩ := by
  -- on the elements that are left, for whatever has been read before
  induction vs with
  | nil => exact fun hs => ⟨_, steps_nil.2 rfl, hs⟩
  | cons v vs ih =>
    intro elems s hs
    obtain ⟨hv, hvs⟩ := List.forall_mem_cons.1 h
    obtain ⟨t, ht, hsame⟩ := (hv elems).next
    obtain ⟨u, hu, hsame⟩ := ih hvs hsame
    have hcomma : step limit s ',' = .ok ⟨stack, .listNext elems⟩ := hs.step _ (.inl rfl)
    rw [List.flatMap_cons, List.reverse_cons, List.append_assoc, List.singleton_append]
    exact ⟨u, .append (steps_cons.2 ⟨_, hcomma, ht⟩) hu, hsame⟩

/-- A list is read if its elements are, and the limit leaves one more level for them. -/
theorem reads_arr {vs : List Json} (h : ∀ v ∈ vs, ∀ elems, Reads limit (.list elems :: stack) v)
    (hlimit : stack.length + 1 < limit) : Reads limit stack (.arr vs) := by
  have hstart : startValue limit stack '[' = .ok ⟨stack, .listStart⟩ := by
    simp [startValue, hlimit]
  cases vs with
  | nil =>
    exact ⟨'[', [']'], _, _, rfl, by decide, by decide, hstart, rfl, .refl⟩
  | cons v vs =>
    obtain ⟨hv, hvs⟩ := List.forall_mem_cons.1 h
    obtain ⟨t, ht, hsame⟩ := (hv []).first
    obtain ⟨u, hu, hsame⟩ := steps_elems hvs hsame
    -- behind the last element, the bracket completes the list
    have hend : step limit u ']' = .ok (complete (.arr (v :: vs)) stack) := by
      rw [hsame.step _ (.inr (.inl rfl))]
      simp [step, between, isBlank]
    refine ⟨'[', _, _, _, ?_, by decide, by decide, hstart,
      (ht.append hu).append (steps_cons.2 ⟨_, hend, steps_nil.2 rfl⟩), .refl⟩
    rw [Json.compress, compressElems_eq_map, List.map_cons, String.toList_append,
      String.toList_append, toList_commas, List.flatMap_map]
    rfl

/-! ## Objects -/

theorem compressFields_eq_map (fields : List (String × Json)) :
    Json.compressFields fields =
      fields.map fun field => Json.quote field.1 ++ ":" ++ field.2.compress := by
  induction fields with
  | nil => rfl
  | cons field fields ih => rw [Json.compressFields, ih, List.map_cons]

/-- The text of a field, without the quote that it begins with. -/
def fieldRest (field : String × Json) : List Char :=
  field.1.toList.flatMap Json.escapeChar ++ ['"'] ++ ':' :: field.2.compress.toList

theorem toList_field (field : String × Json) :
    (Json.quote field.1 ++ ":" ++ field.2.compress).toList = '"' :: fieldRest field := by
  simp [Json.quote, fieldRest]

/-- The key, the colon and the value of a field are read as a field of the object. -/
theorem steps_field {fields : List (String × Json)} {field : String × Json}
    (h : Reads limit (.object fields field.1 :: stack) field.2) :
    ∃ t, Steps limit ⟨stack, .string (.key fields) .plain []⟩ (fieldRest field) t ∧
      Same limit t ⟨stack, .objectRest (Json.insertField field.1 field.2 fields)⟩ := by
  obtain ⟨t, ht, hsame⟩ := h.value
  exact ⟨t, (steps_key field.1).append (steps_cons.2 ⟨_, rfl, ht⟩), hsame⟩

/-- A field with a key above all others is the last one. -/
theorem insertField_append {key : String} {v : Json} {fields : List (String × Json)}
    (h : ∀ field ∈ fields, field.1 < key) :
    Json.insertField key v fields = fields ++ [(key, v)] := by
  induction fields with
  | nil => rfl
  | cons field fields ih =>
    obtain ⟨hkey, hfields⟩ := List.forall_mem_cons.1 h
    rw [Json.insertField, if_neg (String.lt_asymm hkey), if_neg (String.ne_of_lt hkey).symm,
      ih hfields, List.cons_append]

/-- The fields behind the first one are read. -/
theorem steps_fields {rest : List (String × Json)}
    (h : ∀ field ∈ rest, ∀ fields, Reads limit (.object fields field.1 :: stack) field.2) :
    ∀ {fields : List (String × Json)} {s : State},
      ((fields ++ rest).map Prod.fst).Pairwise (· < ·) → Same limit s ⟨stack, .objectRest fields⟩ →
      ∃ t, Steps limit s (rest.flatMap fun field => ',' :: '"' :: fieldRest field) t ∧
        Same limit t ⟨stack, .objectRest (fields ++ rest)⟩ := by
  induction rest with
  | nil => exact fun _ hs => ⟨_, steps_nil.2 rfl, by rwa [List.append_nil]⟩
  | cons field rest ih =>
    intro fields s hsorted hs
    obtain ⟨hfield, hrest⟩ := List.forall_mem_cons.1 h
    obtain ⟨t, ht, hsame⟩ := steps_field (hfield fields)
    -- keys are sorted, so the next field is put behind those that have been read
    have hlast : ∀ other ∈ fields, other.1 < field.1 := by
      rw [List.map_append, List.pairwise_append] at hsorted
      exact fun other hother => hsorted.2.2 _ (List.mem_map_of_mem hother) _ List.mem_cons_self
    rw [insertField_append hlast] at hsame
    rw [List.append_cons] at hsorted ⊢
    obtain ⟨u, hu, hsame⟩ := ih hrest hsorted hsame
    have hcomma : step limit s ',' = .ok ⟨stack, .objectNext fields⟩ := hs.step _ (.inl rfl)
    exact ⟨u, .append (steps_cons.2 ⟨_, hcomma, steps_cons.2 ⟨_, rfl, ht⟩⟩) hu, hsame⟩

theorem reads_obj {fields : List (String × Json)} (hsorted : (fields.map Prod.fst).Pairwise (· < ·))
    (h : ∀ field ∈ fields, ∀ before, Reads limit (.object before field.1 :: stack) field.2)
    (hlimit : stack.length + 1 < limit) : Reads limit stack (.obj fields) := by
  have hstart : startValue limit stack '\x7b' = .ok ⟨stack, .objectStart⟩ := by
    simp [startValue, hlimit]
  cases fields with
  | nil =>
    exact ⟨'\x7b', ['\x7d'], _, _, rfl, by decide, by decide, hstart, rfl, .refl⟩
  | cons field fields =>
    obtain ⟨hfield, hfields⟩ := List.forall_mem_cons.1 h
    obtain ⟨t, ht, hsame⟩ := steps_field (hfield [])
    obtain ⟨u, hu, hsame⟩ := steps_fields hfields hsorted hsame
    have hend : step limit u '\x7d' = .ok (complete (.obj (field :: fields)) stack) := by
      rw [hsame.step _ (.inr (.inr rfl))]
      rfl
    have hkey : step limit ⟨stack, .objectStart⟩ '"' = .ok ⟨stack, .string (.key []) .plain []⟩ :=
      rfl
    refine ⟨'\x7b', _, _, _, ?_, by decide, by decide, hstart,
      (Steps.append (steps_cons.2 ⟨_, hkey, ht⟩) hu).append
        (steps_cons.2 ⟨_, hend, steps_nil.2 rfl⟩), .refl⟩
    rw [Json.compress, compressFields_eq_map, List.map_cons, String.toList_append,
      String.toList_append, toList_commas, List.flatMap_map, toList_field]
    simp only [toList_field]
    rfl

end Reader

/-! ## Documents -/

namespace Json

/-- A document as it is printed: the fields of objects are sorted by their keys, and numbers are
integers. -/
inductive Canonical : Json → Prop
  | null : Canonical .null
  | bool (b : Bool) : Canonical (.bool b)
  | num (negative : Bool) (n : Nat) :
    Canonical (.num ((if negative then "-" else "") ++ toString n))
  | str (s : String) : Canonical (.str s)
  | arr {elems : List Json} : (∀ v ∈ elems, Canonical v) → Canonical (.arr elems)
  | obj {fields : List (String × Json)} : (fields.map Prod.fst).Pairwise (· < ·) →
    (∀ field ∈ fields, Canonical field.2) → Canonical (.obj fields)

/-- A value is read as long as there are containers left for it. -/
theorem Canonical.reads {v : Json} (h : v.Canonical) {limit : Nat} :
    ∀ {stack : List Reader.Frame}, stack.length + v.depth < limit →
      Reader.Reads limit stack v := by
  -- on the document; each container uses up one of the levels that are left
  induction h with
  | null => exact fun _ => Reader.reads_null
  | bool b => exact fun _ => Reader.reads_bool b
  | num negative n => exact fun _ => Reader.reads_num negative n
  | str s => exact fun _ => Reader.reads_str s
  | @arr elems _ ih =>
    intro stack hlimit
    refine Reader.reads_arr (fun v hv before => ih v hv ?_) ?_
    · have hlt := depth_lt_of_mem_arr hv
      rw [List.length_cons]
      omega
    · rw [depth] at hlimit
      omega
  | @obj fields hsorted _ ih =>
    intro stack hlimit
    refine Reader.reads_obj hsorted (fun field hfield before => ih field hfield ?_) ?_
    · have hlt := depth_lt_of_mem_obj hfield
      rw [List.length_cons]
      omega
    · rw [depth] at hlimit
      omega

/-- **The reader inverts the printer.** The text of a document is read as that document, if it has
fewer containers one in another than the reader refuses. -/
theorem read_compress {v : Json} (h : v.Canonical) {limit : Nat} (hdepth : v.depth < limit) :
    read limit v.compress = .ok v := by
  have hreads : Reader.Reads limit [] v := h.reads (by simpa using hdepth)
  obtain ⟨t, ht, hsame⟩ := hreads.value
  exact Reader.run_of_steps ht (by rw [hsame.finish]; rfl) 0

end Json

end BorrowIR
