import BorrowIR.Decode.Event
import BorrowIR.Decode.Failure

/-!
# Outcomes of decoding

An `Outcome` is a value or a failure, and the log of what happened before. A failure ends a
computation and keeps the log.

* `Outcome.within` puts a decoder on the path of a failure;
* `Outcome.orElse` tries a second computation if the first one fails, and keeps the first failure
  if both do; the log tells of both.
-/

namespace BorrowIR

/-- A log, and a value or a failure. -/
structure Outcome (α : Type) where
  log : List Event
  result : Except Failure α

namespace Outcome

variable {α β : Type}

/-- A value. -/
protected def pure (a : α) : Outcome α := ⟨[], .ok a⟩

/-- Goes on with the value, if there is one. -/
protected def bind (outcome : Outcome α) (next : α → Outcome β) : Outcome β :=
  match outcome.result with
  | .ok a => ⟨outcome.log ++ (next a).log, (next a).result⟩
  | .error failure => ⟨outcome.log, .error failure⟩

instance : Monad Outcome where
  pure := Outcome.pure
  bind := Outcome.bind

/-- A failure that no decoder has passed on yet. -/
def fail (cause : Cause) : Outcome α := ⟨[], .error ⟨cause, []⟩⟩

/-- Adds an event to the log. -/
def report (event : Event) : Outcome Unit := ⟨[event], .ok ()⟩

/-- Puts a decoder on the path of a failure. -/
def within (decoder : String) (outcome : Outcome α) : Outcome α :=
  ⟨outcome.log, outcome.result.mapError (Failure.within decoder)⟩

/-- The second outcome counts if the first one is a failure and the second one is not. -/
def orElse (first second : Outcome α) : Outcome α :=
  match first.result with
  | .ok _ => first
  | .error failure =>
    match second.result with
    | .ok a => ⟨first.log ++ second.log, .ok a⟩
    | .error _ => ⟨first.log ++ second.log, .error failure⟩

@[simp] theorem pure_eq (a : α) : (pure a : Outcome α) = ⟨[], .ok a⟩ := rfl

@[simp] theorem bind_ok (log : List Event) (a : α) (next : α → Outcome β) :
    ((⟨log, .ok a⟩ : Outcome α) >>= next) = ⟨log ++ (next a).log, (next a).result⟩ := rfl

@[simp] theorem bind_error (log : List Event) (failure : Failure) (next : α → Outcome β) :
    ((⟨log, .error failure⟩ : Outcome α) >>= next) = ⟨log, .error failure⟩ := rfl

instance : LawfulMonad Outcome :=
  LawfulMonad.mk' Outcome
    (fun ⟨log, result⟩ => by
      cases result <;> simp [Functor.map, Outcome.bind, Outcome.pure])
    (fun _ _ => by simp)
    (fun ⟨log, result⟩ f g => by
      cases result with
      | error _ => rfl
      | ok a =>
        rcases hf : f a with ⟨log', result'⟩
        cases result' <;> simp [hf])

end Outcome

end BorrowIR
