import BorrowIR.Decode.Outcome

/-!
# Values and causes of outcomes

* `Outcome.Yields o a`: the outcome `o` is the value `a`, whatever the log says.
* `Outcome.Fails o c`: the outcome `o` is a failure with cause `c`, wherever it arose.

Each combinator of outcomes has a lemma for both; proofs about decoders do not look inside an
outcome.
-/

namespace BorrowIR.Outcome

variable {α β : Type}

/-- The outcome is this value. -/
def Yields (o : Outcome α) (a : α) : Prop := o.result = .ok a

/-- The outcome is a failure with this cause. -/
def Fails (o : Outcome α) (c : Cause) : Prop := ∃ path, o.result = .error ⟨c, path⟩

/-- An outcome has one value. -/
theorem Yields.unique {o : Outcome α} {a b : α} (ha : o.Yields a) (hb : o.Yields b) : a = b := by
  unfold Yields at ha hb
  rw [ha] at hb
  exact Except.ok.inj hb

theorem Fails.not_yields {o : Outcome α} {c : Cause} (h : o.Fails c) (a : α) : ¬ o.Yields a := by
  obtain ⟨path, hpath⟩ := h
  intro ha
  rw [Yields, hpath] at ha
  cases ha

/-- An outcome has one cause. -/
theorem Fails.unique {o : Outcome α} {c d : Cause} (hc : o.Fails c) (hd : o.Fails d) : c = d := by
  obtain ⟨path, hpath⟩ := hc
  obtain ⟨path', hpath'⟩ := hd
  rw [hpath] at hpath'
  cases hpath'; rfl

/-- An outcome is a value or a failure. -/
theorem yields_or_fails (o : Outcome α) : (∃ a, o.Yields a) ∨ ∃ c, o.Fails c := by
  rcases h : o.result with ⟨c, path⟩ | a
  · exact .inr ⟨c, path, h⟩
  · exact .inl ⟨a, h⟩

/-! ## Values -/

@[simp] theorem yields_ok {log : List Event} {a b : α} :
    (⟨log, .ok a⟩ : Outcome α).Yields b ↔ a = b := by
  simp [Yields]

@[simp] theorem yields_error {log : List Event} {failure : Failure} {a : α} :
    (⟨log, .error failure⟩ : Outcome α).Yields a ↔ False := by
  simp [Yields]

/-- A value is its own outcome. -/
theorem yields_pure {a b : α} : (pure a : Outcome α).Yields b ↔ a = b := by
  simp [Yields]

theorem yields_fail {c : Cause} {a : α} : (fail c : Outcome α).Yields a ↔ False := by
  simp [Yields, fail]

/-- What is reported changes no value. -/
theorem yields_report {event : Event} {u : Unit} : (report event).Yields u ↔ True := by
  simp [Yields, report]

/-- The values of two steps are those of the second one, behind a value of the first one. -/
theorem yields_bind {o : Outcome α} {f : α → Outcome β} {b : β} :
    (o >>= f).Yields b ↔ ∃ a, o.Yields a ∧ (f a).Yields b := by
  obtain ⟨log, result⟩ := o
  cases result <;> simp [Yields]

/-- Behind a step that has a value, the values are those of the rest. -/
theorem yields_bind_of {o : Outcome α} {a : α} (h : o.Yields a) {f : α → Outcome β} {b : β} :
    (o >>= f).Yields b ↔ (f a).Yields b := by
  rw [yields_bind]
  constructor
  · rintro ⟨a', ha', hb⟩
    rwa [h.unique ha']
  · exact fun hb => ⟨a, h, hb⟩

/-- Behind a step that has a value, the result is that of the rest. -/
theorem result_bind_of {o : Outcome α} {a : α} (h : o.Yields a) (f : α → Outcome β) :
    (o >>= f).result = (f a).result := by
  obtain ⟨log, result⟩ := o
  obtain rfl : result = .ok a := h
  rfl

theorem yields_map {o : Outcome α} {f : α → β} {b : β} :
    (f <$> o).Yields b ↔ ∃ a, o.Yields a ∧ f a = b := by
  rw [← bind_pure_comp, yields_bind]
  simp only [yields_pure]

@[simp] theorem within_ok (decoder : String) (log : List Event) (a : α) :
    within decoder ⟨log, .ok a⟩ = ⟨log, .ok a⟩ := rfl

@[simp] theorem within_error (decoder : String) (log : List Event) (failure : Failure) :
    within decoder (⟨log, .error failure⟩ : Outcome α) = ⟨log, .error (failure.within decoder)⟩ :=
  rfl

/-- The path of a failure changes no value. -/
theorem yields_within {decoder : String} {o : Outcome α} {a : α} :
    (within decoder o).Yields a ↔ o.Yields a := by
  obtain ⟨log, result⟩ := o
  cases result <;> simp [Yields]

/-- What a named decoder reads, it reads behind its first step. -/
theorem yields_within_bind {decoder : String} {o : Outcome α} {f : α → Outcome β} {b : β} :
    (within decoder (o >>= f)).Yields b ↔ ∃ a, o.Yields a ∧ (f a).Yields b := by
  rw [yields_within, yields_bind]

/-- The second of two attempts counts where the first one fails. -/
theorem yields_orElse {first second : Outcome α} {a : α} :
    (first.orElse second).Yields a ↔
      first.Yields a ∨ (∃ c, first.Fails c) ∧ second.Yields a := by
  obtain ⟨log, result⟩ := first
  obtain ⟨log', result'⟩ := second
  rcases result with ⟨c, path⟩ | b
  -- only behind a failure does the second attempt matter
  · cases result' <;> simp [Yields, Fails, orElse]
  · simp [Yields, Fails, orElse]

/-! ## Causes -/

theorem fails_fail {c d : Cause} : (fail c : Outcome α).Fails d ↔ c = d := by
  simp [Fails, fail]

/-- The path of a failure does not change its cause. -/
theorem fails_within {decoder : String} {o : Outcome α} {c : Cause} :
    (within decoder o).Fails c ↔ o.Fails c := by
  obtain ⟨log, result⟩ := o
  rcases result with ⟨d, path⟩ | a
  · simp [Fails, Failure.within]
  · simp [Fails]

/-- A sequence of two steps fails in the first one, or in the second one behind a value. -/
theorem fails_bind {o : Outcome α} {f : α → Outcome β} {c : Cause} :
    (o >>= f).Fails c ↔ o.Fails c ∨ ∃ a, o.Yields a ∧ (f a).Fails c := by
  obtain ⟨log, result⟩ := o
  cases result <;> simp [Yields, Fails]

/-- Behind a step that has a value, the failures are those of the rest. -/
theorem fails_bind_of {o : Outcome α} {a : α} (h : o.Yields a) {f : α → Outcome β} {c : Cause} :
    (o >>= f).Fails c ↔ (f a).Fails c := by
  rw [fails_bind]
  constructor
  · rintro (hfails | ⟨b, hb, hfails⟩)
    · exact absurd h (hfails.not_yields a)
    · rwa [h.unique hb]
  · exact fun hfails => .inr ⟨a, h, hfails⟩

/-- If both attempts fail, the failure of the first one counts. -/
theorem fails_orElse {first second : Outcome α} {c : Cause} :
    (first.orElse second).Fails c ↔ first.Fails c ∧ ∃ d, second.Fails d := by
  obtain ⟨log, result⟩ := first
  obtain ⟨log', result'⟩ := second
  rcases result with ⟨d, path⟩ | a
  · rcases result' with ⟨e, path'⟩ | b <;> simp [Fails, orElse]
  · simp [Fails, orElse]

end BorrowIR.Outcome
