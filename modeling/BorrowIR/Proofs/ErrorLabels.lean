import BorrowIR.Json.Position
import Mathlib.Data.List.Basic

/-!
# The label of a syntax error

A syntax error is reported at a line and a column, and its label is put there by a walk along the
text. The report counts the column in bytes, and the walk counts it in characters, so the label
stands where it should only if the line has no character of several bytes in front of it.

* `Position.Within`: which line of a text a position is in;
* `SyntaxError.position_within`: the position that is reported is the offset of the error;
* `SyntaxError.label_iff_singleBytes`: where the label stands, and when that is the position;
* `SyntaxError.not_forall_label`: so the label may stand somewhere else.
-/

namespace BorrowIR

open Reader (byteCount)

/-! ## Bytes -/

namespace Reader

variable {cs ds : List Char}

theorem utf8Size_newline : Char.utf8Size '\n' = 1 := rfl

theorem byteCount_append (cs ds : List Char) :
    byteCount (cs ++ ds) = byteCount cs + byteCount ds := by
  induction cs with
  | nil => rw [List.nil_append, byteCount, Nat.zero_add]
  | cons c cs ih => rw [List.cons_append, byteCount, byteCount, ih, Nat.add_assoc]

/-- A character has one byte at least. -/
theorem length_le_byteCount (cs : List Char) : cs.length ≤ byteCount cs := by
  induction cs with
  | nil => exact Nat.le_refl 0
  | cons c cs ih =>
    have hc := c.utf8Size_pos
    rw [byteCount, List.length_cons]
    omega

/-- There are no more bytes than characters if each character has one byte. -/
theorem byteCount_le_length_iff : byteCount cs ≤ cs.length ↔ ∀ c ∈ cs, c.utf8Size = 1 := by
  induction cs with
  | nil => simp [byteCount]
  | cons c cs ih =>
    have hc := c.utf8Size_pos
    have hcs := length_le_byteCount cs
    rw [List.forall_mem_cons, ← ih, byteCount, List.length_cons]
    omega

theorem byteCount_take_le {m n : Nat} (h : m ≤ n) :
    byteCount (cs.take m) ≤ byteCount (cs.take n) := by
  have hprefix : cs.take m = (cs.take n).take m := by
    rw [List.take_take, Nat.min_eq_left h]
  have hsplit := congrArg byteCount (List.take_append_drop m (cs.take n))
  rw [byteCount_append, ← hprefix] at hsplit
  omega

/-! ## Where errors are reported -/

variable {limit : Nat} {stack : List Frame} {c : Char}

/-- **Refusing at a character.** A step that refuses reports a place behind the first byte of the
character or further on in it. -/
def RefusesIn (c : Char) (outcome : Except Refusal State) : Prop :=
  ∀ refusal, outcome = .error refusal → refusal.bytes ≤ c.utf8Size

@[simp] theorem refusesIn_ok {state : State} : RefusesIn c (.ok state) := nofun

@[simp] theorem refusesIn_error {refusal : Refusal} :
    RefusesIn c (.error refusal) ↔ refusal.bytes ≤ c.utf8Size := by
  simp [RefusesIn]

@[simp] theorem one_le_utf8Size : 1 ≤ c.utf8Size := c.utf8Size_pos

@[simp] theorem refusesIn_ite {p : Prop} [Decidable p] {yes no : Except Refusal State} :
    RefusesIn c (if p then yes else no) ↔
      (p → RefusesIn c yes) ∧ (¬ p → RefusesIn c no) := by
  by_cases hp : p <;> simp [hp]

@[simp] theorem startValue_refusesIn : RefusesIn c (startValue limit stack c) := by
  simp [startValue]

@[simp] theorem between_refusesIn {mode : Mode} : RefusesIn c (between limit stack mode c) := by
  by_cases hblank : isBlank c
  · simp [between, hblank]
  · cases mode <;> simp [between, hblank]

theorem inNumber_refusesIn {part : NumberPart} {text : List Char} :
    RefusesIn c (inNumber limit stack part text c) := by
  cases part <;> simp [inNumber]

/-- An escape by number is refused behind its fourth byte, which is in the last of its
characters. -/
theorem hex_refusesIn {high : Option Nat} {role : StringRole} {taken chars : List Char} :
    RefusesIn c (inString stack role (.hex high taken) chars c) := by
  unfold inString
  simp only
  split_ifs with hcount
  · exact refusesIn_ok
  · have hlast : 4 - byteCount taken ≤ c.utf8Size := by
      rw [byteCount] at hcount
      omega
    cases hexNumber? (c :: taken) with
    | none => simpa using hlast
    | some n =>
      simp only
      cases numbered high n with
      | ok next => exact refusesIn_ok
      | error fault => simpa using hlast

theorem inString_refusesIn {role : StringRole} {part : StringPart} {chars : List Char} :
    RefusesIn c (inString stack role part chars c) := by
  cases part with
  | plain => cases role <;> simp [inString]
  | escape => cases hchar : escaped? c <;> simp [inString, hchar]
  | hex high taken => exact hex_refusesIn
  | pairBackslash high => simp [inString]
  | pairLetter high => simp [inString]

/-- Whatever the state, a character is refused within itself or behind it. -/
theorem step_refusesIn {state : State} : RefusesIn c (step limit state c) := by
  unfold step
  split
  · split <;> simp
  · exact inNumber_refusesIn
  · exact inString_refusesIn
  · exact between_refusesIn

/-- An error is reported in the text. -/
theorem run_offset_le {state : State} {offset : Nat} {cs : List Char} {e : SyntaxError}
    (h : run limit state offset cs = .error e) : e.offset ≤ offset + byteCount cs := by
  induction cs generalizing state offset with
  | nil =>
    rw [run] at h
    cases hfinish : finish state with
    | ok v => rw [hfinish] at h; cases h
    | error fault => rw [hfinish] at h; cases h; exact Nat.le_refl offset
  | cons c cs ih =>
    rw [run] at h
    rw [byteCount]
    cases hstep : step limit state c with
    | ok next =>
      rw [hstep] at h
      have := ih h
      omega
    | error refusal =>
      rw [hstep] at h
      cases h
      have hbytes := step_refusesIn refusal hstep
      show offset + refusal.bytes ≤ offset + (c.utf8Size + byteCount cs)
      omega

end Reader

/-! ## Positions -/

namespace Position

/-- **A position in a text.** `before` are the lines before it, each one with its line feed, and the
position lies in `line`, as many bytes behind its beginning as the column says. -/
structure Within (p : Position) (before line : List Char) : Prop where
  ended : before = [] ∨ before.getLast? = some '\n'
  line_eq : p.line = before.count '\n' + 1
  oneLine : '\n' ∉ line
  column_le : p.column ≤ byteCount line

/-- The place some bytes further on, from a place behind the characters `passed` of its line. -/
theorem advance_within {before passed : List Char} {p : Position} (hp : p.Within before passed)
    (hcolumn : p.column = byteCount passed) :
    ∀ {cs : List Char} (bytes : Nat), bytes ≤ byteCount cs →
      ∃ before' line rest, before ++ passed ++ cs = before' ++ line ++ rest ∧
        (advance cs bytes p).Within before' line ∧
        byteCount before' + (advance cs bytes p).column =
          byteCount before + byteCount passed + bytes := by
  intro cs
  induction cs generalizing before passed p with
  | nil =>
    intro bytes hbytes
    obtain rfl : bytes = 0 := Nat.le_zero.1 hbytes
    refine ⟨before, passed, [], rfl, hp, ?_⟩
    rw [advance]
    omega
  | cons c cs ih =>
    intro bytes hbytes
    rw [byteCount] at hbytes
    rw [advance]
    split_ifs with hzero hfeed hlast
    · refine ⟨before, passed, c :: cs, rfl, hp, ?_⟩
      omega
    -- a new line
    · subst hfeed
      rw [Reader.utf8Size_newline] at hbytes
      have hnext : (⟨p.line + 1, 0⟩ : Position).Within (before ++ passed ++ ['\n']) [] :=
        ⟨.inr (by simp), by simp [hp.line_eq, List.count_eq_zero.2 hp.oneLine], by simp,
          Nat.zero_le _⟩
      obtain ⟨before', line, rest, htext, hwithin, hcount⟩ := ih hnext rfl (bytes - 1) (by omega)
      refine ⟨before', line, rest, by simpa using htext, hwithin, ?_⟩
      rw [hcount, Reader.byteCount_append, Reader.byteCount_append]
      simp only [byteCount, Reader.utf8Size_newline]
      omega
    -- the place is in the middle of a character
    · refine ⟨before, passed ++ [c], cs, by simp, ⟨hp.ended, hp.line_eq, ?_, ?_⟩, ?_⟩
      · simpa [hp.oneLine] using Ne.symm hfeed
      · show p.column + bytes ≤ _
        rw [Reader.byteCount_append, hcolumn, byteCount, byteCount]
        omega
      · show byteCount before + (p.column + bytes) = _
        omega
    · have hpassed : byteCount (passed ++ [c]) = byteCount passed + c.utf8Size := by
        rw [Reader.byteCount_append]
        rfl
      have hcolumn' : p.column + c.utf8Size = byteCount (passed ++ [c]) := by
        rw [hpassed, hcolumn]
      have hnext : (⟨p.line, p.column + c.utf8Size⟩ : Position).Within before (passed ++ [c]) :=
        ⟨hp.ended, hp.line_eq, by simpa [hp.oneLine] using Ne.symm hfeed,
          Nat.le_of_eq hcolumn'⟩
      obtain ⟨before', line, rest, htext, hwithin, hcount⟩ :=
        ih hnext hcolumn' (bytes - c.utf8Size) (by omega)
      refine ⟨before', line, rest, by simpa using htext, hwithin, ?_⟩
      omega

/-- A position stands in the line that is broken off by the bytes before it. -/
theorem ofOffset_within {text : String} {bytes : Nat} (h : bytes ≤ byteCount text.toList) :
    ∃ before line rest, text.toList = before ++ line ++ rest ∧
      (ofOffset text bytes).Within before line ∧
      byteCount before + (ofOffset text bytes).column = bytes := by
  have hstart : (⟨1, 0⟩ : Position).Within [] [] := ⟨.inl rfl, rfl, by simp, Nat.zero_le _⟩
  obtain ⟨before, line, rest, htext, hwithin, hcount⟩ := advance_within hstart rfl bytes h
  refine ⟨before, line, rest, htext, hwithin, ?_⟩
  rw [ofOffset, hcount]
  simp [byteCount]

/-! ## The walk -/

variable {p : Position}

/-- The walk goes to the line of the position, counting bytes. -/
theorem walk_lines {cs : List Char} :
    ∀ {lines : List Char} {line col passed : Nat},
      (lines = [] ∧ col = 0) ∨ lines.getLast? = some '\n' →
      line + lines.count '\n' + 1 = p.line →
        walk p (lines ++ cs) line col passed =
          walk p cs (p.line - 1) 0 (passed + byteCount lines) := by
  intro lines
  induction lines with
  | nil =>
    intro line col passed hend hline
    obtain rfl : col = 0 := by simpa using hend
    have hline' : line = p.line - 1 := by simp at hline; omega
    rw [List.nil_append, byteCount, hline', Nat.add_zero]
  | cons c lines ih =>
    intro line col passed hend hline
    have hlast : (c :: lines).getLast? = some '\n' := by simpa using hend
    have hfeed : '\n' ∈ c :: lines := List.mem_of_getLast? hlast
    have hbefore : ¬ (p.line ≤ line + 1 ∧ p.column ≤ col + 1) := by
      have := List.count_pos_iff.2 hfeed
      omega
    have hrest : lines = [] ∨ lines.getLast? = some '\n' := by
      cases lines with
      | nil => exact .inl rfl
      | cons d lines => exact .inr (by simpa using hlast)
    rw [List.cons_append, walk, if_neg hbefore, byteCount, ← Nat.add_assoc]
    by_cases hc : c = '\n'
    · subst hc
      rw [if_pos rfl]
      rw [List.count_cons_self] at hline
      refine ih (hrest.imp_left fun hnil => ⟨hnil, rfl⟩) ?_
      omega
    · rw [if_neg hc]
      rw [List.count_cons_of_ne hc] at hline
      -- another character is not the last one, as the last one is a line feed
      have hne : lines ≠ [] := by
        rintro rfl
        exact hc (by simpa using hlast)
      exact ih (.inr (hrest.resolve_left hne)) hline

/-- In its line, the walk passes as many characters as the column says, however many bytes they
have. -/
theorem walk_line {cs : List Char} :
    ∀ {line : List Char} {n col passed : Nat}, p.line ≤ n + 1 → '\n' ∉ line →
      line.length = p.column - 1 - col →
        walk p (line ++ cs) n col passed = passed + byteCount line := by
  intro line
  induction line with
  | nil =>
    intro n col passed hline _ hlen
    have hcolumn : p.column ≤ col + 1 := by simp at hlen; omega
    rw [List.nil_append, byteCount, Nat.add_zero]
    cases cs with
    | nil => rw [walk]
    | cons c cs => rw [walk, if_pos ⟨hline, hcolumn⟩]
  | cons c line ih =>
    intro n col passed hline hfeed hlen
    rw [List.length_cons] at hlen
    rw [List.mem_cons, not_or] at hfeed
    have hcolumn : ¬ (p.line ≤ n + 1 ∧ p.column ≤ col + 1) := by omega
    rw [List.cons_append, walk, if_neg hcolumn, if_neg (Ne.symm hfeed.1), byteCount,
      ← Nat.add_assoc]
    exact ih hline hfeed.2 (by omega)

/-- From its line on, the walk passes no less characters than the column says, if there are as
many. -/
theorem le_walk :
    ∀ (cs : List Char) {n : Nat} (col passed : Nat), p.line ≤ n + 1 →
      passed + byteCount (cs.take (p.column - 1 - col)) ≤ walk p cs n col passed := by
  intro cs
  induction cs with
  | nil =>
    intro n col passed _
    refine Nat.le_of_eq ?_
    rw [List.take_nil, walk, byteCount, Nat.add_zero]
  | cons c cs ih =>
    intro n col passed hline
    rw [walk]
    by_cases hcolumn : p.column ≤ col + 1
    · have hzero : p.column - 1 - col = 0 := by omega
      refine Nat.le_of_eq ?_
      rw [if_pos ⟨hline, hcolumn⟩, hzero, List.take_zero, byteCount, Nat.add_zero]
    · obtain ⟨left, hleft⟩ : ∃ left, p.column - 1 - col = left + 1 :=
        ⟨p.column - 1 - col - 1, by omega⟩
      rw [if_neg (fun h => hcolumn h.2), hleft, List.take_succ_cons, byteCount, ← Nat.add_assoc]
      by_cases hc : c = '\n'
      · subst hc
        -- on the next line, all columns are still to come
        rw [if_pos rfl, Reader.utf8Size_newline]
        have hnext : p.line ≤ n + 1 + 1 := by omega
        have hstep := ih 0 (passed + 1) hnext
        have hmore : byteCount (cs.take left) ≤ byteCount (cs.take (p.column - 1 - 0)) :=
          Reader.byteCount_take_le (by omega)
        omega
      · rw [if_neg hc]
        have hstep := ih (col + 1) (passed + c.utf8Size) hline
        have hleft' : p.column - 1 - (col + 1) = left := by omega
        rwa [hleft'] at hstep

/-- The walk ends in the text. -/
theorem walk_le (p : Position) (cs : List Char) :
    ∀ n col passed : Nat, walk p cs n col passed ≤ passed + byteCount cs := by
  induction cs with
  | nil =>
    intro n col passed
    rw [walk]
    omega
  | cons c cs ih =>
    intro n col passed
    rw [walk, byteCount]
    split_ifs with hreached hfeed
    · omega
    · subst hfeed
      have hstep := ih (n + 1) 0 (passed + 1)
      rw [Reader.utf8Size_newline]
      omega
    · have hstep := ih n (col + 1) (passed + c.utf8Size)
      omega

/-! ## The label -/

variable {text : String} {before line rest : List Char}

/-- The label is found from the start of the line, character by character. -/
theorem labelOffset_eq (h : p.Within before line) (htext : text.toList = before ++ line ++ rest) :
    labelOffset text p = walk p (line ++ rest) (p.line - 1) 0 (byteCount before) := by
  have hend : (before = [] ∧ 0 = 0) ∨ before.getLast? = some '\n' :=
    h.ended.imp_left fun hnil => ⟨hnil, rfl⟩
  have hline : 0 + before.count '\n' + 1 = p.line := by
    rw [h.line_eq, Nat.zero_add]
  rw [labelOffset, htext, List.append_assoc, walk_lines hend hline, Nat.zero_add]

/-- The label has as many characters of the line in front of it as the column says, if there are as
many. -/
theorem Within.labelOffset_eq_take (h : p.Within before line)
    (htext : text.toList = before ++ line ++ rest) (hlen : p.column - 1 ≤ line.length) :
    labelOffset text p = byteCount before + byteCount (line.take (p.column - 1)) := by
  have hfeed : '\n' ∉ line.take (p.column - 1) := fun hmem =>
    h.oneLine (List.mem_of_mem_take hmem)
  have hline : p.line ≤ p.line - 1 + 1 := by omega
  rw [labelOffset_eq h htext]
  conv_lhs => rw [← List.take_append_drop (p.column - 1) line, List.append_assoc]
  refine walk_line hline hfeed ?_
  rw [List.length_take]
  omega

/-- The label is not left of the characters that the column counts. -/
theorem Within.le_labelOffset (h : p.Within before line)
    (htext : text.toList = before ++ line ++ rest) :
    byteCount before + byteCount (line.take (p.column - 1)) ≤ labelOffset text p := by
  have hline : p.line ≤ p.line - 1 + 1 := by omega
  have hwalk := le_walk (line ++ rest) 0 (byteCount before) hline
  rw [labelOffset_eq h htext]
  rw [Nat.sub_zero, List.take_append, Reader.byteCount_append] at hwalk
  omega

/-- A line that is too short for the column, by its characters, has more bytes than the column
says. -/
theorem Within.lt_byteCount (h : p.Within before line) (hlen : line.length < p.column - 1) :
    p.column - 1 < byteCount (line.take (p.column - 1)) := by
  have hcolumn := h.column_le
  rw [List.take_of_length_le (by omega)]
  omega

/-- The characters in front of the label have at least as many bytes as the column says, and no more
only if each of them has one byte. -/
theorem Within.byteCount_take (h : p.Within before line) :
    p.column - 1 ≤ byteCount (line.take (p.column - 1)) ∧
      (byteCount (line.take (p.column - 1)) ≤ p.column - 1 ↔
        ∀ c ∈ line.take (p.column - 1), c.utf8Size = 1) := by
  rw [← Reader.byteCount_le_length_iff]
  rcases Nat.lt_or_ge line.length (p.column - 1) with hshort | hlong
  · have hmore := h.lt_byteCount hshort
    have hlen : (line.take (p.column - 1)).length ≤ line.length := List.length_take_le' _ _
    omega
  · have hlen : (line.take (p.column - 1)).length = p.column - 1 := by
      rw [List.length_take, Nat.min_eq_left hlong]
    have hbytes := Reader.length_le_byteCount (line.take (p.column - 1))
    omega

/-- A position in a line is in the whole of this line. -/
theorem Within.extend (h : p.Within before line) (rest : List Char) :
    p.Within before (line ++ rest.takeWhile (· ≠ '\n')) := by
  refine ⟨h.ended, h.line_eq, ?_, ?_⟩
  · rw [List.mem_append, not_or]
    refine ⟨h.oneLine, fun hmem => ?_⟩
    have hall := List.all_eq_true.1 List.all_takeWhile _ hmem
    simp at hall
  · have hcolumn := h.column_le
    rw [Reader.byteCount_append]
    omega

end Position

namespace SyntaxError

variable {limit : Nat} {text : String} {e : SyntaxError}

/-- What is reported is the offset of the error, as a column of a line of the text. -/
theorem position_within (h : Json.read limit text = .error e) :
    ∃ before line rest, text.toList = before ++ line ++ rest ∧ (∀ c ∈ rest.head?, c = '\n') ∧
      (e.position text).Within before line ∧
      byteCount before + (e.position text).column = e.offset := by
  have hoffset : e.offset ≤ byteCount text.toList := by
    have := Reader.run_offset_le h
    omega
  obtain ⟨before, line, rest, htext, hwithin, hcolumn⟩ := Position.ofOffset_within hoffset
  refine ⟨before, _, rest.dropWhile (· ≠ '\n'), ?_, ?_, hwithin.extend rest, hcolumn⟩
  · rw [htext, List.append_assoc, List.append_assoc, List.append_assoc,
      List.takeWhile_append_dropWhile]
  · intro c hc
    have hhead := List.head?_dropWhile_not (fun c => decide (c ≠ '\n')) rest
    rw [Option.mem_def.1 hc] at hhead
    simpa using hhead

/-- **Where the label stands.** A text is no document, and the error is reported at a line and a
column. The label has as many characters of this line in front of it as there should be bytes, one
less than the column says, if the line has as many characters. So it never stands in front of the
place that is reported, nor behind the end of the text, and it stands at this place if and only if
the characters of the line in front of it have one byte each. -/
theorem label_iff_singleBytes (h : Json.read limit text = .error e) :
    ∃ before line rest, text.toList = before ++ line ++ rest ∧ (∀ c ∈ rest.head?, c = '\n') ∧
      (e.position text).Within before line ∧
      byteCount before + (e.position text).column = e.offset ∧
      ((e.position text).column - 1 ≤ line.length →
        Position.labelOffset text (e.position text) =
          byteCount before + byteCount (line.take ((e.position text).column - 1))) ∧
      byteCount before + ((e.position text).column - 1) ≤
        Position.labelOffset text (e.position text) ∧
      Position.labelOffset text (e.position text) ≤ byteCount text.toList ∧
      (Position.labelOffset text (e.position text) =
          byteCount before + ((e.position text).column - 1) ↔
        ∀ c ∈ line.take ((e.position text).column - 1), c.utf8Size = 1) := by
  obtain ⟨before, line, rest, htext, hrest, hwithin, hcolumn⟩ := position_within h
  obtain ⟨hbytes, hsingle⟩ := hwithin.byteCount_take
  have hlabel := hwithin.le_labelOffset htext
  have hend : Position.labelOffset text (e.position text) ≤ byteCount text.toList := by
    have hwalk := Position.walk_le (e.position text) text.toList 0 0 0
    rwa [Nat.zero_add] at hwalk
  refine ⟨before, line, rest, htext, hrest, hwithin, hcolumn, hwithin.labelOffset_eq_take htext,
    by omega, hend, ?_⟩
  constructor
  · intro heq
    exact hsingle.1 (by omega)
  · intro hall
    have hle := hsingle.2 hall
    rw [hwithin.labelOffset_eq_take htext ?_]
    · omega
    · by_contra hshort
      have hmore := hwithin.lt_byteCount (Nat.not_le.1 hshort)
      omega

/-- A string with an accent, and a letter behind it. -/
def accented : String := "\"é\" x"

/-- The letter is reported in column 6, as the accent has two bytes. -/
theorem read_accented :
    Json.read Json.nestingLimit accented = .error ⟨.trailingCharacters, 6⟩ :=
  rfl

theorem position_accented : position accented ⟨.trailingCharacters, 6⟩ = ⟨1, 6⟩ := by
  decide

theorem labelOffset_accented : Position.labelOffset accented ⟨1, 6⟩ = 6 := by
  decide

/-- The accent is in front of the letter, so the label stands behind the letter, at the end of the
text. -/
theorem label_iff_singleBytes_accented :
    Json.read Json.nestingLimit accented = .error ⟨.trailingCharacters, 6⟩ ∧
      ∃ before line rest, accented.toList = before ++ line ++ rest ∧
        (⟨1, 6⟩ : Position).Within before line ∧ byteCount before + 6 = 6 ∧
        byteCount before + 5 ≤ 6 ∧
        (6 = byteCount before + 5 ↔ ∀ c ∈ line.take 5, c.utf8Size = 1) := by
  obtain ⟨before, line, rest, htext, -, hwithin, hcolumn, -, hle, -, hiff⟩ :=
    label_iff_singleBytes read_accented
  rw [position_accented] at hwithin hcolumn hle hiff
  rw [labelOffset_accented] at hle hiff
  exact ⟨read_accented, before, line, rest, htext, hwithin, hcolumn, hle, hiff⟩

/-- **The label may stand behind the error.** With an accent in front of it, the letter that is one
too many begins behind five bytes, and the label stands behind six. -/
theorem not_forall_label :
    ¬ ∀ (text : String) (e : SyntaxError), Json.read Json.nestingLimit text = .error e →
      ∀ before line rest, text.toList = before ++ line ++ rest →
        (e.position text).Within before line →
          Position.labelOffset text (e.position text) =
            byteCount before + ((e.position text).column - 1) := by
  intro hall
  have hwithin : (position accented ⟨.trailingCharacters, 6⟩).Within [] accented.toList := by
    rw [position_accented]
    exact ⟨.inl rfl, rfl, by decide, by decide⟩
  have heq := hall accented _ read_accented [] accented.toList [] (by simp) hwithin
  rw [position_accented, labelOffset_accented] at heq
  exact absurd heq (by decide)

end SyntaxError

end BorrowIR
