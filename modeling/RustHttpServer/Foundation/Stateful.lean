import RustHttpServer.Foundation.Outcome

/-!
# Stateful calls

Fallible calls that also change a state, and keep the changes when they fail. What a
call is guaranteed to keep (`Keeps`) is proved along its text, one rule for each way
of putting calls together.
-/

namespace Foundation

/-- A fallible call on a state. -/
def Stateful (σ ε α : Type) := σ → Outcome ε α × σ

namespace Stateful

variable {σ ε ε' α β : Type}

/-- Go on with the value of a call that returned one. -/
def bind (call : Stateful σ ε α) (next : α → Stateful σ ε β) : Stateful σ ε β := fun state =>
  match call state with
  | (.ok value, state) => next value state
  | (.err error, state) => (.err error, state)
  | (.abort, state) => (.abort, state)

instance : Monad (Stateful σ ε) where
  pure value state := (.ok value, state)
  bind := bind

/-- A call that does not touch the state. -/
def lift (outcome : Outcome ε α) : Stateful σ ε α := fun state => (outcome, state)

/-- The state. -/
def get : Stateful σ ε σ := fun state => (.ok state, state)

/-- Changes the state. -/
def modify (change : σ → σ) : Stateful σ ε Unit := fun state => (.ok (), change state)

/-- Handles the error of a call. -/
def recover (call : Stateful σ ε α) (handler : ε → α) : Stateful σ ε' α := fun state =>
  match call state with
  | (.ok value, state) => (.ok value, state)
  | (.err error, state) => (.ok (handler error), state)
  | (.abort, state) => (.abort, state)

/-- A call that follows another is made in the state that this leaves, if it has a result. -/
theorem bind_apply (call : Stateful σ ε α) (next : α → Stateful σ ε β) (state : σ) :
    (call >>= next) state =
      match call state with
      | (.ok value, state) => next value state
      | (.err error, state) => (.err error, state)
      | (.abort, state) => (.abort, state) := rfl

/-- A sequence returns exactly when both of its calls do. -/
theorem bind_apply_eq_ok_iff {call : Stateful σ ε α} {next : α → Stateful σ ε β}
    {state final : σ} {result : β} :
    (call >>= next) state = (.ok result, final) ↔ ∃ value between,
      call state = (.ok value, between) ∧ next value between = (.ok result, final) := by
  rw [bind_apply]
  constructor
  · intro returned
    cases called : call state with
    | mk outcome between =>
        rw [called] at returned
        cases outcome with
        | ok value => exact ⟨value, between, rfl, returned⟩
        | err error => cases returned
        | abort => cases returned
  · rintro ⟨value, between, called, returned⟩
    rw [called]
    exact returned

/-- What follows an outcome is called in the same state. -/
theorem lift_bind_apply (outcome : Outcome ε α) (next : α → Stateful σ ε β) (state : σ) :
    (lift outcome >>= next) state =
      match outcome with
      | .ok value => next value state
      | .err error => (.err error, state)
      | .abort => (.abort, state) := by
  cases outcome <;> rfl

/-- An outcome and what follows it have a result if both do. -/
theorem lift_bind_apply_eq_ok_iff {outcome : Outcome ε α} {next : α → Stateful σ ε β}
    {state final : σ} {result : β} :
    (lift outcome >>= next) state = (.ok result, final) ↔ ∃ value,
      outcome = .ok value ∧ next value state = (.ok result, final) := by
  rw [lift_bind_apply]
  cases outcome with
  | ok value => simp only [Outcome.ok.injEq, exists_eq_left']
  | err error => simp
  | abort => simp

/-- A sequence aborts when its first call does, or its second. -/
theorem lift_bind_apply_eq_abort_iff {outcome : Outcome ε α} {next : α → Stateful σ ε β}
    {state : σ} : ((lift outcome >>= next) state).1 = .abort ↔
      outcome = .abort ∨ ∃ value, outcome = .ok value ∧ (next value state).1 = .abort := by
  rw [lift_bind_apply]
  cases outcome with
  | ok value => simp
  | err error => simp
  | abort => simp

/-- To return a value is to have it as the result, in the same state. -/
theorem pure_apply_eq_ok_iff {value result : α} {state final : σ} :
    (pure value : Stateful σ ε α) state = (.ok result, final) ↔ value = result ∧ state = final := by
  change (Outcome.ok value, state) = (Outcome.ok result, final) ↔ _
  rw [Prod.mk.injEq, Outcome.ok.injEq]

/-- A handled call returns what the call returned, or what its error was handled with. -/
theorem recover_apply_eq_ok_iff {call : Stateful σ ε α} {handler : ε → α} {state final : σ}
    {result : α} : (call.recover handler : Stateful σ ε' α) state = (.ok result, final) ↔
      call state = (.ok result, final) ∨
        ∃ error, call state = (.err error, final) ∧ handler error = result := by
  unfold recover
  cases call state with
  | mk outcome after =>
      cases outcome with
      | ok value => simp
      | err error =>
          simp only [Prod.mk.injEq, Outcome.ok.injEq, reduceCtorEq, false_and, false_or,
            Outcome.err.injEq]
          constructor
          · rintro ⟨rfl, rfl⟩
            exact ⟨error, ⟨rfl, rfl⟩, rfl⟩
          · rintro ⟨_, ⟨rfl, rfl⟩, rfl⟩
            exact ⟨rfl, rfl⟩
      | abort => simp

/-- What follows a change is called in the changed state. -/
theorem modify_bind_apply (change : σ → σ) (next : Unit → Stateful σ ε β) (state : σ) :
    (modify change >>= next) state = next () (change state) := rfl

/-- What follows the look at the state is given the state. -/
theorem get_bind_apply (next : σ → Stateful σ ε β) (state : σ) :
    (get >>= next) state = next state state := rfl

/-- However the call ends, it keeps a property of the state. -/
def Keeps (property : σ → Prop) (call : Stateful σ ε α) : Prop :=
  ∀ state, property state → property (call state).2

variable {property : σ → Prop}

/-- Returning a value keeps everything. -/
theorem Keeps.pure (value : α) : Keeps property (pure value : Stateful σ ε α) :=
  fun _ before => before

/-- An outcome keeps everything. -/
theorem Keeps.lift (outcome : Outcome ε α) : Keeps property (lift outcome : Stateful σ ε α) :=
  fun _ before => before

/-- A change keeps what it keeps in each state. -/
theorem Keeps.modify {change : σ → σ} (kept : ∀ state, property state → property (change state)) :
    Keeps property (modify change : Stateful σ ε Unit) := kept

/-- A sequence keeps what holds after its first call, if the second call keeps it. -/
theorem Keeps.after {call : Stateful σ ε α} {next : α → Stateful σ ε β} {state : σ}
    (between : property (call state).2) (second : ∀ value, Keeps property (next value)) :
    property ((call >>= next) state).2 := by
  rw [bind_apply]
  cases called : call state with
  | mk outcome state =>
      rw [called] at between
      cases outcome with
      | ok value => exact second value state between
      | err error => exact between
      | abort => exact between

/-- A sequence keeps what both of its calls keep. -/
theorem Keeps.bind {call : Stateful σ ε α} {next : α → Stateful σ ε β}
    (first : Keeps property call) (second : ∀ value, Keeps property (next value)) :
    Keeps property (call >>= next) :=
  fun state before => Keeps.after (first state before) second

/-- What follows a call that does not touch the state may use what it returned. -/
theorem Keeps.lift_bind {outcome : Outcome ε α} {next : α → Stateful σ ε β}
    (second : ∀ value, outcome = .ok value → Keeps property (next value)) :
    Keeps property (Stateful.lift outcome >>= next) := by
  intro state before
  rw [lift_bind_apply]
  cases outcome with
  | ok value => exact second value rfl state before
  | err error => exact before
  | abort => exact before

/-- What follows a reading of the state may use what was read. -/
theorem Keeps.get_bind {next : σ → Stateful σ ε β} (second : ∀ state, Keeps property (next state)) :
    Keeps property (get >>= next) := fun state before => second state state before

/-- Recovering from an error keeps what the call keeps. -/
theorem Keeps.recover {call : Stateful σ ε α} (first : Keeps property call) (handler : ε → α) :
    Keeps property (call.recover handler : Stateful σ ε' α) := by
  intro state before
  have after := first state before
  unfold Stateful.recover
  cases called : call state with
  | mk outcome state =>
      rw [called] at after
      cases outcome <;> exact after

/-- What a call on a state returns, unless it aborts: a value or an error with certain
properties. -/
def Yields (call : Stateful σ ε α) (state : σ) (value : α → Prop) (error : ε → Prop) : Prop :=
  match (call state).1 with
  | .ok result => value result
  | .err result => error result
  | .abort => True

variable {value : α → Prop} {result : β → Prop} {error : ε → Prop} {state : σ}

/-- A returned value is yielded. -/
theorem Yields.pure {returned : α} (holds : value returned) :
    Yields (pure returned : Stateful σ ε α) state value error := holds

/-- An error is yielded. -/
theorem Yields.lift_err {failed : ε} (holds : error failed) :
    Yields (Stateful.lift (.err failed) : Stateful σ ε α) state value error := holds

/-- What is yielded is yielded with weaker properties. -/
theorem Yields.imp {call : Stateful σ ε α} {value' : α → Prop} {error' : ε → Prop}
    (yields : Yields call state value error) (weaker : ∀ returned, value returned → value' returned)
    (weakerError : ∀ failed, error failed → error' failed) : Yields call state value' error' := by
  rw [Yields] at yields ⊢
  generalize (call state).1 = outcome at yields ⊢
  cases outcome with
  | ok returned => exact weaker returned yields
  | err failed => exact weakerError failed yields
  | abort => trivial

/-- A sequence yields what its second call yields, unless the first one fails. -/
theorem Yields.bind {call : Stateful σ ε α} {next : α → Stateful σ ε β}
    (first : Yields call state value error)
    (second : ∀ returned, value returned → ∀ state, Yields (next returned) state result error) :
    Yields (call >>= next) state result error := by
  unfold Yields at first
  rw [Yields, bind_apply]
  cases called : call state with
  | mk outcome after =>
      rw [called] at first
      cases outcome with
      | ok returned => exact second returned first after
      | err failed => exact first
      | abort => trivial

/-- What is yielded behind an outcome. -/
theorem Yields.lift_bind {outcome : Outcome ε α} {next : α → Stateful σ ε β}
    (second : ∀ returned, outcome = .ok returned → Yields (next returned) state result error)
    (failed : ∀ reason, outcome = .err reason → error reason) :
    Yields (Stateful.lift outcome >>= next) state result error := by
  rw [Yields, lift_bind_apply]
  cases outcome with
  | ok returned => exact second returned rfl
  | err reason => exact failed reason rfl
  | abort => trivial

/-- The handler of errors turns what they yield into what values yield. -/
theorem Yields.recover {call : Stateful σ ε α} {handler : ε → α} {error' : ε' → Prop}
    (yields : Yields call state value fun failed => value (handler failed)) :
    Yields (call.recover handler : Stateful σ ε' α) state value error' := by
  unfold Yields at yields
  rw [Yields, Stateful.recover]
  cases called : call state with
  | mk outcome after =>
      rw [called] at yields
      cases outcome <;> exact yields

/-- What is yielded behind an option, whose absence is an error. -/
theorem Yields.okOr_bind {option : Option α} {reason : ε} {next : α → Stateful σ ε β}
    (second : ∀ returned, option = some returned → Yields (next returned) state result error)
    (failed : option = none → error reason) :
    Yields (Stateful.lift (Outcome.okOr reason option) >>= next) state result error := by
  cases option with
  | none => exact failed rfl
  | some returned => exact second returned rfl

/-- What is yielded behind a change is yielded in the changed state. -/
theorem Yields.modify_bind {change : σ → σ} {next : Unit → Stateful σ ε β}
    (second : Yields (next ()) (change state) result error) :
    Yields (Stateful.modify change >>= next) state result error := second

/-- What is yielded behind a look at the state. -/
theorem Yields.get_bind {next : σ → Stateful σ ε β}
    (second : Yields (next state) state result error) :
    Yields (get >>= next) state result error := second

/-! ### Two states -/

/-- From either of two states a call returns the same. -/
def Coincides (call : Stateful σ ε α) (state state' : σ) : Prop := (call state).1 = (call state').1

variable {state' : σ}

/-- An outcome is the same in all states. -/
theorem Coincides.lift (outcome : Outcome ε α) :
    Coincides (Stateful.lift outcome : Stateful σ ε α) state state' := rfl

/-- A sequence returns the same if its first call does, and its second wherever the first one
leads to. -/
theorem Coincides.bind {call : Stateful σ ε α} {next : α → Stateful σ ε β}
    (first : Coincides call state state')
    (second : ∀ returned between between', Coincides (next returned) between between') :
    Coincides (call >>= next) state state' := by
  unfold Coincides at first ⊢
  rw [bind_apply, bind_apply]
  cases called : call state with
  | mk outcome between =>
      cases called' : call state' with
      | mk outcome' between' =>
          rw [called, called'] at first
          cases first
          cases outcome with
          | ok returned => exact second returned between between'
          | err failed => rfl
          | abort => rfl

/-- What follows an outcome coincides if it does for the value of the outcome. -/
theorem Coincides.lift_bind {outcome : Outcome ε α} {next : α → Stateful σ ε β}
    (second : ∀ returned, outcome = .ok returned → Coincides (next returned) state state') :
    Coincides (Stateful.lift outcome >>= next) state state' := by
  cases outcome with
  | ok returned => exact second returned rfl
  | err failed => rfl
  | abort => rfl

/-- Recovering from errors keeps calls alike. -/
theorem Coincides.recover {call : Stateful σ ε α} (alike : Coincides call state state')
    (handler : ε → α) :
    Coincides (call.recover handler : Stateful σ ε' α) state state' := by
  unfold Coincides at alike ⊢
  unfold Stateful.recover
  cases called : call state with
  | mk outcome between =>
      cases called' : call state' with
      | mk outcome' between' =>
          rw [called, called'] at alike
          cases alike
          cases outcome <;> rfl

end Stateful

end Foundation
