import Mathlib.Algebra.GroupWithZero.Nat
import Mathlib.Data.List.Basic
import Mathlib.Data.List.Forall2
import Mathlib.Logic.Relation

/-!
# Labelled transition systems

Runs of a system from its initial states, and the rule by which an invariant of
its steps holds in every state a run reaches. Restricting a system to the steps
that meet a condition gives the runs in which every step meets it.
-/

namespace Foundation

/-- What every step keeps, a sequence of steps keeps. -/
theorem invariant_of_steps {State : Type*} {step : State → State → Prop}
    (invariant : State → Prop) {state final : State}
    (steps : Relation.ReflTransGen step state final)
    (preserved : ∀ state next, invariant state → step state next → invariant next)
    (initially : invariant state) : invariant final := by
  induction steps with
  | refl => exact initially
  | tail _ step ih => exact preserved _ _ ih step

/-- Initial states, and the states each state can step to under a label. -/
structure TransitionSystem (State Label : Type*) where
  initial : State → Prop
  step : State → Label → State → Prop

namespace TransitionSystem

variable {State Label : Type*} {system : TransitionSystem State Label}

/-- The steps of a run from an initial state, each with the state it was taken in, and
the state the run reaches. -/
inductive Run (system : TransitionSystem State Label) : List (State × Label) → State → Prop where
  | start {state : State} : system.initial state → Run system [] state
  | step {steps : List (State × Label)} {state next : State} {label : Label} :
      Run system steps state → system.step state label next →
        Run system (steps ++ [(state, label)]) next

/-- Some run reaches the state. -/
def Reachable (system : TransitionSystem State Label) (state : State) : Prop :=
  ∃ steps, system.Run steps state

/-- A run reaches the state that it ends in. -/
theorem Run.reachable {steps : List (State × Label)} {state : State}
    (run : system.Run steps state) : system.Reachable state := ⟨steps, run⟩

/-- Initial states are reachable. -/
theorem Reachable.start {state : State} (initial : system.initial state) :
    system.Reachable state := ⟨[], .start initial⟩

/-- A step from a reachable state leads to one. -/
theorem Reachable.step {state next : State} {label : Label} (reachable : system.Reachable state)
    (step : system.step state label next) : system.Reachable next := by
  obtain ⟨steps, run⟩ := reachable
  exact ⟨steps ++ [(state, label)], .step run step⟩

/-- **The invariant rule.** What holds initially and is kept by every step from a
reachable state holds in every reachable state. -/
theorem Reachable.invariant (invariant : State → Prop) {state : State}
    (reachable : system.Reachable state)
    (initially : ∀ state, system.initial state → invariant state)
    (preserved : ∀ state label next, invariant state → system.step state label next →
      invariant next) : invariant state := by
  obtain ⟨steps, run⟩ := reachable
  induction run with
  | start initial => exact initially _ initial
  | step _ step ih => exact preserved _ _ _ ih step

/-- The invariant rule for what relates a state to the steps that led to it. -/
theorem Run.invariant (invariant : List (State × Label) → State → Prop)
    {steps : List (State × Label)} {state : State} (run : system.Run steps state)
    (initially : ∀ state, system.initial state → invariant [] state)
    (preserved : ∀ steps state label next, system.Run steps state → invariant steps state →
      system.step state label next → invariant (steps ++ [(state, label)]) next) :
    invariant steps state := by
  induction run with
  | start initial => exact initially _ initial
  | step run step ih => exact preserved _ _ _ _ run ih step

/-- The steps of a run are taken in reachable states. -/
theorem Run.reachable_of_mem {steps : List (State × Label)} {state : State}
    (run : system.Run steps state) : ∀ step ∈ steps, system.Reachable step.1 := by
  induction run with
  | start initial => exact List.forall_mem_nil _
  | step run taken ih =>
      intro step inside
      rcases List.mem_append.mp inside with earlier | last
      · exact ih step earlier
      · obtain rfl := List.mem_singleton.mp last
        exact run.reachable

/-- **The accounting rule.** If each step is paid for from a potential of the state and from what
the step brings in, a run has as many steps at most as its start and all its steps bring in. -/
theorem Run.pays {potential : State → Nat} {income : State × Label → Nat}
    (paid : ∀ state label next, system.Reachable state → system.step state label next →
      potential next + 1 ≤ potential state + income (state, label))
    {steps : List (State × Label)} {state : State} (run : system.Run steps state) :
    ∃ start, system.initial start ∧
      steps.length + potential state ≤ potential start + (steps.map income).sum := by
  induction run with
  | start initial => exact ⟨_, initial, Nat.le_of_eq (Nat.add_comm ..)⟩
  | @step steps state next label run step ih =>
      obtain ⟨start, initial, bound⟩ := ih
      have last := paid state label next run.reachable step
      refine ⟨start, initial, ?_⟩
      rw [List.length_append, List.length_singleton, List.map_append, List.sum_append,
        List.map_singleton, List.sum_singleton]
      omega

/-- What a step to a state shows as in another system, if anything: a step from the state that
was related, to one that is again. -/
def Shows {State' Label' : Type*} (abstract : TransitionSystem State' Label')
    (relates : State → State' → Prop) (next : State) (state' : State') :
    Option (State' × Label') → Prop
  | some (before, label') =>
      before = state' ∧ ∃ next', abstract.step state' label' next' ∧ relates next next'
  | none => relates next state'

/-- **The simulation rule.** A relation between the states of two systems that holds initially
and is kept, where each step of the first system shows as a step of the second or leaves what it
relates to as it is: then each run of the first system shows as a run of the second. -/
theorem Run.simulate {State' Label' : Type*} {abstract : TransitionSystem State' Label'}
    (relates : State → State' → Prop) (shown : State × Label → Option (State' × Label'))
    (initially : ∀ state, system.initial state → ∃ state', abstract.initial state' ∧
      relates state state')
    (simulates : ∀ state label next state', relates state state' → system.step state label next →
      abstract.Shows relates next state' (shown (state, label)))
    {steps : List (State × Label)} {state : State} (run : system.Run steps state) :
    ∃ state', relates state state' ∧ abstract.Run (steps.filterMap shown) state' := by
  induction run with
  | start initial =>
      obtain ⟨state', initial', related⟩ := initially _ initial
      exact ⟨state', related, .start initial'⟩
  | @step steps state next label run step ih =>
      obtain ⟨state', related, run'⟩ := ih
      have simulated := simulates state label next state' related step
      rw [List.filterMap_append]
      cases visible : shown (state, label) with
      | none =>
          rw [visible] at simulated
          refine ⟨state', simulated, ?_⟩
          rwa [List.filterMap_cons_none visible, List.filterMap_nil, List.append_nil]
      | some step' =>
          obtain ⟨before, label'⟩ := step'
          rw [visible] at simulated
          obtain ⟨rfl, next', step', related'⟩ := simulated
          refine ⟨next', related', ?_⟩
          rw [List.filterMap_cons_some visible, List.filterMap_nil]
          exact run'.step step'

/-- **The relabelling rule.** If a step that can be taken under a label can be taken under all that
are related to it, each run can be taken under labels related to its own, through the same
states. -/
theorem Run.relabel {relates : Label → Label → Prop}
    (kept : ∀ state label' label next, system.Reachable state → relates label' label →
      system.step state label next → system.step state label' next)
    {steps steps' : List (State × Label)} {state : State} (run : system.Run steps state)
    (related : List.Forall₂ (fun step' step => step'.1 = step.1 ∧ relates step'.2 step.2)
      steps' steps) : system.Run steps' state := by
  induction run generalizing steps' with
  | start initial =>
      cases related
      exact .start initial
  | @step steps state next label run taken ih =>
      have earlier := List.forall₂_take_append _ _ _ related
      have last := List.forall₂_drop_append _ _ _ related
      rw [← List.take_append_drop steps.length steps']
      cases split : steps'.drop steps.length with
      | nil =>
          rw [split] at last
          cases last
      | cons step' none =>
          rw [split] at last
          obtain ⟨⟨same, alike⟩, ⟨⟩⟩ := List.forall₂_cons.mp last
          obtain ⟨_, label'⟩ := step'
          cases same
          exact (ih earlier).step (kept _ _ _ _ run.reachable alike taken)

/-- The system whose steps are those of a partial function. -/
def ofStep (start : State) (step? : State → Label → Option State) :
    TransitionSystem State Label where
  initial state := state = start
  step state label next := step? state label = some next

/-- A list of steps that can be taken one after the other continues a run. -/
theorem Run.foldlM {start : State} {step? : State → Label → Option State} {state final : State}
    {steps : List (State × Label)} (run : (ofStep start step?).Run steps state)
    (labels : List Label) (ran : labels.foldlM step? state = some final) :
    ∃ more, more.map Prod.snd = labels ∧ (ofStep start step?).Run (steps ++ more) final := by
  induction labels generalizing steps state with
  | nil =>
      cases ran
      refine ⟨[], rfl, ?_⟩
      rwa [List.append_nil]
  | cons label labels ih =>
      rw [List.foldlM_cons, Option.bind_eq_bind, Option.bind_eq_some_iff] at ran
      obtain ⟨next, stepped, ran⟩ := ran
      obtain ⟨more, same, run⟩ := ih (run.step stepped) ran
      refine ⟨(state, label) :: more, ?_, ?_⟩
      · rw [List.map_cons, same]
      · rwa [List.append_assoc] at run

/-- What such a list of steps leads to from a reachable state is reachable. -/
theorem Reachable.foldlM {start : State} {step? : State → Label → Option State}
    {state final : State} (reachable : (ofStep start step?).Reachable state)
    (labels : List Label) (ran : labels.foldlM step? state = some final) :
    (ofStep start step?).Reachable final := by
  obtain ⟨steps, run⟩ := reachable
  obtain ⟨more, -, run⟩ := run.foldlM labels ran
  exact run.reachable

/-- The runs that go on from a state. -/
def onward (system : TransitionSystem State Label) (state : State) :
    TransitionSystem State Label where
  initial first := first = state
  step := system.step

/-- The system with only the steps that meet a condition on the state before and
the label. -/
def restrict (system : TransitionSystem State Label) (allowed : State → Label → Prop) :
    TransitionSystem State Label where
  initial := system.initial
  step state label next := allowed state label ∧ system.step state label next

/-- A run of the restricted system is a run of the system. -/
theorem Reachable.of_restrict {allowed : State → Label → Prop} {state : State}
    (reachable : (system.restrict allowed).Reachable state) : system.Reachable state :=
  reachable.invariant system.Reachable (fun _ initial => .start initial)
    fun _ _ _ before step => before.step step.2

end TransitionSystem

end Foundation
