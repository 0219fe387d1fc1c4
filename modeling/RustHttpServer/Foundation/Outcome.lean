import Mathlib.Control.Basic

/-!
# Outcomes of fallible calls

A call of fallible code comes back with a value or with an error, or does not
come back at all: it aborts its thread, and no caller can handle that. Code that
propagates its errors is written in the `Outcome` monad.
-/

namespace Foundation

/-- What a call comes to. -/
inductive Outcome (ε α : Type) where
  | ok (value : α)
  | err (error : ε)
  /-- The calling thread aborts: a failed assertion, an index out of range, an
  arithmetic overflow. -/
  | abort
  deriving DecidableEq, Repr

namespace Outcome

variable {ε ε' α β γ : Type}

/-- Go on with the value of a call that returned one. -/
def bind (outcome : Outcome ε α) (next : α → Outcome ε β) : Outcome ε β :=
  match outcome with
  | .ok value => next value
  | .err error => .err error
  | .abort => .abort

instance : Monad (Outcome ε) where
  pure := .ok
  bind := bind

@[simp] theorem pure_eq (value : α) : (pure value : Outcome ε α) = .ok value := rfl

@[simp] theorem ok_bind (value : α) (next : α → Outcome ε β) :
    (Outcome.ok value >>= next) = next value := rfl

@[simp] theorem err_bind (error : ε) (next : α → Outcome ε β) :
    (Outcome.err error >>= next) = .err error := rfl

@[simp] theorem abort_bind (next : α → Outcome ε β) :
    (Outcome.abort >>= next) = .abort := rfl

instance : LawfulMonad (Outcome ε) := LawfulMonad.mk' _
  (by intro α outcome; cases outcome <;> rfl)
  (by intro α β value next; rfl)
  (by intro α β γ outcome next last; cases outcome <;> rfl)

/-- A sequence returns exactly when both of its calls do. -/
theorem bind_eq_ok_iff {outcome : Outcome ε α} {next : α → Outcome ε β} {result : β} :
    (outcome >>= next) = .ok result ↔ ∃ value, outcome = .ok value ∧ next value = .ok result := by
  cases outcome with
  | ok value => simp
  | err error => simp
  | abort => simp

/-- A sequence aborts when its first call does, or its second. -/
theorem bind_eq_abort_iff {outcome : Outcome ε α} {next : α → Outcome ε β} :
    (outcome >>= next) = .abort ↔
      outcome = .abort ∨ ∃ value, outcome = .ok value ∧ next value = .abort := by
  cases outcome with
  | ok value => simp
  | err error => simp
  | abort => simp

/-- Reports the error of a call under another type. -/
def mapErr (convert : ε → ε') : Outcome ε α → Outcome ε' α
  | .ok value => .ok value
  | .err error => .err (convert error)
  | .abort => .abort

@[simp] theorem mapErr_ok (convert : ε → ε') (value : α) :
    (Outcome.ok value : Outcome ε α).mapErr convert = .ok value := rfl

@[simp] theorem mapErr_err (convert : ε → ε') (error : ε) :
    (Outcome.err error : Outcome ε α).mapErr convert = .err (convert error) := rfl

@[simp] theorem mapErr_abort (convert : ε → ε') :
    (Outcome.abort : Outcome ε α).mapErr convert = .abort := rfl

/-- Converting errors leaves results as they are. -/
theorem mapErr_eq_ok_iff {convert : ε → ε'} {outcome : Outcome ε α} {value : α} :
    outcome.mapErr convert = .ok value ↔ outcome = .ok value := by
  cases outcome <;> simp [mapErr]

/-- A result as an outcome, its error converted: the `?` of the source. -/
def ofExcept (convert : ε → ε') : Except ε α → Outcome ε' α
  | .ok value => .ok value
  | .error error => .err (convert error)

@[simp] theorem ofExcept_ok (convert : ε → ε') (value : α) :
    ofExcept convert (.ok value : Except ε α) = .ok value := rfl

@[simp] theorem ofExcept_error (convert : ε → ε') (error : ε) :
    ofExcept convert (.error error : Except ε α) = .err (convert error) := rfl

/-- An optional value, `error` when it is absent. -/
def okOr (error : ε) : Option α → Outcome ε α
  | some value => .ok value
  | none => .err error

@[simp] theorem okOr_some (error : ε) (value : α) : okOr error (some value) = .ok value := rfl

@[simp] theorem okOr_none (error : ε) : okOr error (none : Option α) = .err error := rfl

/-- An option is turned into its value if it has one. -/
theorem okOr_eq_ok_iff {error : ε} {option : Option α} {value : α} :
    okOr error option = .ok value ↔ option = some value := by
  cases option <;> simp

/-- An optional value that the code takes to be present. -/
def unwrap : Option α → Outcome ε α
  | some value => .ok value
  | none => .abort

@[simp] theorem unwrap_some (value : α) : (unwrap (some value) : Outcome ε α) = .ok value := rfl

@[simp] theorem unwrap_none : (unwrap none : Outcome ε α) = .abort := rfl

/-- Unwrapping returns the value of an option that has one. -/
theorem unwrap_eq_ok_iff {option : Option α} {value : α} :
    (unwrap option : Outcome ε α) = .ok value ↔ option = some value := by
  cases option <;> simp

/-- The value of a call that returned one. -/
def toOption : Outcome ε α → Option α
  | .ok value => some value
  | .err _ => none
  | .abort => none

@[simp] theorem toOption_ok (value : α) : (Outcome.ok value : Outcome ε α).toOption = some value :=
  rfl

@[simp] theorem toOption_err (error : ε) : (Outcome.err error : Outcome ε α).toOption = none := rfl

/-- An outcome has a value if it is a result. -/
theorem toOption_eq_some_iff {outcome : Outcome ε α} {value : α} :
    outcome.toOption = some value ↔ outcome = .ok value := by
  cases outcome <;> simp [toOption]

/-- The call returned a value. -/
def isOk : Outcome ε α → Bool
  | .ok _ => true
  | .err _ => false
  | .abort => false

/-- A result can be named. -/
theorem exists_of_isOk {outcome : Outcome ε α} (returned : outcome.isOk = true) :
    ∃ value, outcome = .ok value := by
  cases outcome with
  | ok value => exact ⟨value, rfl⟩
  | err error => cases returned
  | abort => cases returned

/-- Unsigned subtraction, which aborts when it would go below zero. -/
def checkedSub (left right : Nat) : Outcome ε Nat :=
  if right ≤ left then .ok (left - right) else .abort

/-- A difference that is not negative is returned. -/
theorem checkedSub_of_le {left right : Nat} (below : right ≤ left) :
    (checkedSub left right : Outcome ε Nat) = .ok (left - right) := if_pos below

/-- The call returns a value or an error. -/
def Returns (outcome : Outcome ε α) : Prop := outcome ≠ .abort

/-- A result is returned. -/
theorem Returns.ok (value : α) : Returns (.ok value : Outcome ε α) := nofun

/-- An error is returned. -/
theorem Returns.err (error : ε) : Returns (.err error : Outcome ε α) := nofun

/-- Converting the error does not make a call abort. -/
theorem Returns.mapErr {outcome : Outcome ε α} (returns : Returns outcome)
    (convert : ε → ε') : Returns (outcome.mapErr convert) := by
  cases outcome with
  | ok value => exact .ok _
  | err error => exact .err _
  | abort => exact absurd rfl returns

/-- An option that is turned into an error does not abort. -/
theorem Returns.okOr (error : ε) (option : Option α) : Returns (Outcome.okOr error option) := by
  cases option
  · exact .err _
  · exact .ok _

/-- What is made of an `Except` does not abort. -/
theorem Returns.ofExcept (convert : ε → ε') (result : Except ε α) :
    Returns (Outcome.ofExcept convert result) := by
  cases result
  · exact .err _
  · exact .ok _

/-- Calls that return one after the other return. -/
theorem Returns.bind {outcome : Outcome ε α} {next : α → Outcome ε β} (first : Returns outcome)
    (second : ∀ value, Returns (next value)) : Returns (outcome >>= next) := by
  cases outcome with
  | ok value => exact second value
  | err error => exact .err _
  | abort => exact absurd rfl first

/-- Behind a call that returns, a sequence aborts only in its second call. -/
theorem Returns.bind_eq_abort_iff {outcome : Outcome ε α} (returns : Returns outcome)
    {next : α → Outcome ε β} :
    (outcome >>= next) = .abort ↔ ∃ value, outcome = .ok value ∧ next value = .abort :=
  Outcome.bind_eq_abort_iff.trans (or_iff_right returns)

/-- The call returns a value or aborts. -/
def Unfailing (outcome : Outcome ε α) : Prop := ∀ error, outcome ≠ .err error

/-- A result is no error. -/
theorem Unfailing.ok (value : α) : Unfailing (.ok value : Outcome ε α) := nofun

/-- To abort is not to fail. -/
theorem Unfailing.abort : Unfailing (.abort : Outcome ε α) := nofun

/-- Unwrapping aborts rather than fails. -/
theorem Unfailing.unwrap (option : Option α) : Unfailing (Outcome.unwrap option : Outcome ε α) := by
  cases option
  · exact .abort
  · exact .ok _

/-- A difference aborts rather than fails. -/
theorem Unfailing.checkedSub (left right : Nat) :
    Unfailing (Outcome.checkedSub left right : Outcome ε Nat) := by
  unfold Outcome.checkedSub
  split
  · exact .ok _
  · exact .abort

/-- Calls that do not fail do not fail one after the other. -/
theorem Unfailing.bind {outcome : Outcome ε α} {next : α → Outcome ε β}
    (first : Unfailing outcome) (second : ∀ value, Unfailing (next value)) :
    Unfailing (outcome >>= next) := by
  cases outcome with
  | ok value => exact second value
  | err error => exact absurd rfl (first error)
  | abort => exact .abort

end Outcome

end Foundation
