import Mathlib.Algebra.GroupWithZero.Nat
import Mathlib.Algebra.Order.BigOperators.Group.Finset
import RustHttpServer.Pool.Fates

/-!
# How the pool comes to rest

A stream that is accepted sets the threads to work: the dispatcher empties the ready channel and
fills it again, and a worker receives the stream, processes it and announces itself. So between
two accepts only so many steps can be taken (`pool_bounded`). Where none is left but to accept,
and no worker has been lost, every stream has been processed and every worker waits for the next
one (`pool_settled`).
-/

namespace RustHttpServer

open Foundation

namespace Pool

/-! ### The work that is left -/

/-- The steps that a worker can still take with the streams that it has. -/
def Worker.effort (worker : Worker) : Nat :=
  match worker.phase with
  | .announcing => 1
  | .waiting => 3 * worker.queue.length
  | .processing _ => 2
  | .dead => 0

/-- The steps that are still to be taken in `pass_to_worker`, and with the stream by the worker
that gets it. -/
def Dispatcher.effort (size : Nat) : Dispatcher → Nat
  | .accepting => 0
  | .receiving _ => 2 * size + 4
  | .draining _ _ ready => 2 * size + 3 - ready.length
  | .resending _ _ _ ready => ready.length + 4

/-- The steps that the threads can take until the next accept. -/
def effort (pool : Pool) : Nat :=
  pool.dispatcher.effort pool.size +
    ∑ threadNum ∈ Finset.range pool.size, (pool.worker threadNum).effort

/-- `listener.incoming()` yields a stream or an error. -/
def accepts : Pool × Action → Bool
  | (_, .accept _) => true
  | _ => false

/-- What a step brings in: a stream that is accepted is work for all. -/
def income (numThreads : Nat) (step : Pool × Action) : Nat :=
  if accepts step then 2 * numThreads + 5 else 0

variable {pool next : Pool} {steps : List (Pool × Action)} {action : Action}

/-- One worker's step changes the effort of all by its own. -/
private theorem sum_effort_setWorker {threadNum : Nat} (inside : threadNum < pool.size)
    (worker : Worker) :
    ∑ other ∈ Finset.range pool.size, ((pool.setWorker threadNum worker).worker other).effort +
        (pool.worker threadNum).effort =
      ∑ other ∈ Finset.range pool.size, (pool.worker other).effort + worker.effort := by
  have there : threadNum ∈ Finset.range pool.size := Finset.mem_range.mpr inside
  rw [← Finset.sum_erase_add _ _ there, ← Finset.sum_erase_add _ _ there, setWorker_worker_self]
  have others : ∑ other ∈ (Finset.range pool.size).erase threadNum,
        ((pool.setWorker threadNum worker).worker other).effort =
      ∑ other ∈ (Finset.range pool.size).erase threadNum, (pool.worker other).effort := by
    apply Finset.sum_congr rfl
    intro other inside
    rw [setWorker_worker_of_ne (Finset.ne_of_mem_erase inside)]
  omega

/-- A step of the dispatcher alone. -/
theorem effort_dispatch {dispatcher dispatcher' : Dispatcher} {bonus : Nat}
    (at_ : pool.dispatcher = dispatcher) (to_ : next.dispatcher = dispatcher')
    (sameSize : next.size = pool.size) (sameWorkers : next.worker = pool.worker)
    (less : dispatcher'.effort pool.size + 1 ≤ dispatcher.effort pool.size + bonus) :
    next.effort + 1 ≤ pool.effort + bonus := by
  rw [effort, effort, sameSize, sameWorkers, at_, to_]
  omega

/-- A step of one worker. -/
theorem effort_work {threadNum : Nat} {worker : Worker} (inside : threadNum < pool.size)
    (sameSize : next.size = pool.size) (sameDispatcher : next.dispatcher = pool.dispatcher)
    (worked : next.worker = (pool.setWorker threadNum worker).worker)
    (less : worker.effort + 1 ≤ (pool.worker threadNum).effort) :
    next.effort + 1 ≤ pool.effort + 0 := by
  have changed := sum_effort_setWorker inside worker
  rw [effort, effort, sameSize, sameDispatcher, worked]
  omega

/-- There are no more numbers than workers. -/
theorem Exclusive.length_numbers_le (exclusive : Exclusive pool) :
    pool.numbers.length ≤ pool.size := by
  rw [← List.length_range (n := pool.size)]
  refine (exclusive.nodup.subperm fun threadNum inside => ?_).length_le
  exact List.mem_range.mpr (exclusive.idle threadNum inside).1

/-- Every step is paid for. -/
theorem effort_step (exclusive : Exclusive pool) (transition : Transition pool action next) :
    next.effort + 1 ≤ pool.effort + income pool.size (pool, action) := by
  have few := exclusive.length_numbers_le
  rw [numbers, List.length_append] at few
  cases transition with
  | acceptOk at_ =>
      refine effort_dispatch at_ rfl rfl rfl ?_
      simp only [Dispatcher.effort, income, accepts, if_true]
      omega
  | acceptError error at_ =>
      refine effort_dispatch at_ rfl rfl rfl ?_
      simp only [Dispatcher.effort, income, accepts, if_true]
      omega
  | recv stream threadNum ready at_ announced =>
      exact effort_dispatch at_ rfl rfl rfl (Nat.le_refl _)
  | drain stream threadNum drained thread ready at_ announced =>
      rw [at_, Dispatcher.held, List.length_cons] at few
      refine effort_dispatch at_ rfl rfl rfl ?_
      simp only [Dispatcher.effort, List.length_append, List.length_singleton]
      omega
  | drained stream threadNum drained at_ announced =>
      rw [at_, Dispatcher.held, List.length_cons] at few
      refine effort_dispatch at_ rfl rfl rfl ?_
      simp only [Dispatcher.effort]
      omega
  | resend stream threadNum overloaded thread drained at_ =>
      refine effort_dispatch at_ rfl rfl rfl ?_
      simp only [Dispatcher.effort, List.length_cons]
      omega
  | handOver stream threadNum overloaded at_ inside alive =>
      -- what is left to the dispatcher for the stream goes to the worker
      have changed := sum_effort_setWorker inside ⟨.waiting, [⟨stream, overloaded⟩]⟩
      rw [effort, effort, at_, (exclusive.target_idle at_).2]
      rw [(exclusive.target_idle at_).2] at changed
      change 0 + ∑ other ∈ Finset.range pool.size, ((pool.setWorker threadNum
        ⟨.waiting, [⟨stream, overloaded⟩]⟩).worker other).effort + 1 ≤ 4 + _
      change _ + 0 = _ + 3 at changed
      omega
  | giveUp stream threadNum overloaded at_ failed =>
      refine effort_dispatch at_ rfl rfl rfl ?_
      simp only [Dispatcher.effort, List.length_nil]
      omega
  | announce threadNum inside announcing =>
      refine effort_work inside rfl rfl rfl ?_
      rw [Worker.effort, Worker.effort, announcing,
        (exclusive.active announcing Phase.noConfusion).2]
      rfl
  | receive threadNum task queue inside waiting =>
      refine effort_work inside rfl rfl rfl ?_
      rw [Worker.effort, Worker.effort, waiting]
      dsimp only
      rw [List.length_cons]
      omega
  | finish threadNum task result inside processing unharmed =>
      refine effort_work inside rfl rfl rfl ?_
      rw [Worker.effort, Worker.effort, processing]
  | die threadNum task inside processing =>
      refine effort_work inside rfl rfl rfl ?_
      rw [Worker.effort, Worker.effort, processing]
      exact Nat.le_succ 1

private theorem Transition.size_eq (transition : Transition pool action next) :
    next.size = pool.size := by
  cases transition <;> rfl

private theorem size_of_reachable {numThreads : Nat} {alive : Nat → Bool}
    (reachable : (poolSystem numThreads alive).Reachable pool) : pool.size = numThreads := by
  refine reachable.invariant (fun pool => pool.size = numThreads) ?_ ?_
  · rintro pool rfl
    rfl
  · intro pool action next same step
    rw [(step_cases step).size_eq, same]

/-- There are no workers beyond those of the pool. -/
theorem tasks_of_le {numThreads : Nat} {alive : Nat → Bool}
    (reachable : (poolSystem numThreads alive).Reachable pool) {threadNum : Nat}
    (outside : pool.size ≤ threadNum) : (pool.worker threadNum).tasks = [] := by
  revert outside
  refine reachable.invariant (fun pool => pool.size ≤ threadNum →
    (pool.worker threadNum).tasks = []) ?_ ?_
  · rintro pool rfl -
    exact tasks_spawned numThreads alive threadNum
  · intro pool action next before step outside
    have transition := step_cases step
    rw [transition.size_eq] at outside
    rw [← before outside]
    cases transition with
    | acceptOk | acceptError | recv | drain | drained | resend | giveUp => rfl
    | handOver stream other overloaded at_ inside alive =>
        exact congrArg Worker.tasks (setWorker_worker_of_ne (inside.trans_le outside).ne')
    | announce other inside | receive other task queue inside | finish other task result inside
    | die other task inside =>
        exact congrArg Worker.tasks (setWorker_worker_of_ne (inside.trans_le outside).ne')

/-- A worker that is alive announces itself, and one that is dead does nothing. -/
theorem effort_spawned_le (numThreads : Nat) (alive : Nat → Bool) :
    (spawned numThreads alive).effort ≤ numThreads := by
  have one : ∀ threadNum ∈ Finset.range numThreads,
      ((spawned numThreads alive).worker threadNum).effort ≤ 1 := by
    intro threadNum _
    unfold spawned
    dsimp only
    cases alive threadNum
    · exact Nat.zero_le 1
    · exact Nat.le_refl 1
  have all := Finset.sum_le_sum one
  rw [← Finset.card_eq_sum_ones, Finset.card_range] at all
  rw [effort]
  exact (Nat.zero_add _).trans_le all

private theorem sum_income (numThreads : Nat) (steps : List (Pool × Action)) :
    (steps.map (income numThreads)).sum = (2 * numThreads + 5) * steps.countP accepts := by
  induction steps with
  | nil => rfl
  | cons step steps ih =>
      rw [List.map_cons, List.sum_cons, ih, List.countP_cons, income]
      split
      · rw [Nat.mul_succ, Nat.add_comm]
      · exact Nat.zero_add _

/-! ### Rest -/

/-- No thread can take a step but to accept, or to come back from `seq::process`, which may wait
for a connection. -/
def Still (pool : Pool) : Prop :=
  ∀ action next, pool.step? action = some next →
    (∃ outcome, action = .accept outcome) ∨ ∃ threadNum result, action = .finish threadNum result

/-- No call of `seq::process` is under way. -/
def Unoccupied (pool : Pool) : Prop :=
  ∀ threadNum < pool.size, ∀ task, (pool.worker threadNum).phase ≠ .processing task

private theorem work?_of_lt {threadNum : Nat} {step : Worker → Option Worker} {worker : Worker}
    (inside : threadNum < pool.size) (worked : step (pool.worker threadNum) = some worker) :
    pool.work? threadNum step = some (pool.setWorker threadNum worker) :=
  work?_eq_some_iff.mpr ⟨inside, worker, worked, rfl⟩

/-- In a pool at rest no worker is about to announce itself, and none is sent a stream. -/
theorem Still.idle (still : Still pool) {threadNum : Nat} (inside : threadNum < pool.size) :
    (pool.worker threadNum).phase ≠ .announcing ∧
      ((pool.worker threadNum).phase = .waiting → (pool.worker threadNum).queue = []) := by
  refine ⟨fun announcing => ?_, fun waiting => ?_⟩
  · have step : (pool.step? (.announce threadNum)).isSome := by
      rw [step?, work?_of_lt inside (by rw [announcing])]
      rfl
    obtain ⟨next, step⟩ := Option.isSome_iff_exists.mp step
    rcases still _ _ step with ⟨outcome, same⟩ | ⟨other, result, same⟩
    · cases same
    · cases same
  · by_contra nonempty
    obtain ⟨task, queue, queued⟩ := List.exists_cons_of_ne_nil nonempty
    have step : (pool.step? (.receive threadNum)).isSome := by
      rw [step?, work?_of_lt inside (by rw [waiting, queued])]
      rfl
    obtain ⟨next, step⟩ := Option.isSome_iff_exists.mp step
    rcases still _ _ step with ⟨outcome, same⟩ | ⟨other, result, same⟩
    · cases same
    · cases same

/-- In a pool at rest the dispatcher accepts, or waits for a worker. -/
theorem Still.dispatcher (still : Still pool) : pool.dispatcher = .accepting ∨
    (∃ stream, pool.dispatcher = .receiving stream) ∧ pool.ready = [] := by
  have blocked : pool.dispatch? = none := by
    by_contra moves
    obtain ⟨next, step⟩ := Option.ne_none_iff_exists'.mp moves
    rcases still .dispatch next step with ⟨outcome, same⟩ | ⟨threadNum, result, same⟩
    · cases same
    · cases same
  rw [dispatch?] at blocked
  cases at_ : pool.dispatcher with
  | accepting => exact .inl rfl
  | receiving stream =>
      refine .inr ⟨⟨stream, rfl⟩, ?_⟩
      rw [at_] at blocked
      cases ready : pool.ready with
      | nil => rfl
      | cons threadNum ready' =>
          rw [ready] at blocked
          cases blocked
  | draining stream threadNum drained =>
      rw [at_] at blocked
      cases ready : pool.ready with
      | nil =>
          rw [ready] at blocked
          cases blocked
      | cons thread ready' =>
          rw [ready] at blocked
          cases blocked
  | resending stream threadNum overloaded drained =>
      rw [at_] at blocked
      cases drained with
      | nil => cases blocked
      | cons thread drained => cases blocked

/-- No accept fails, and no call of `process` panics. -/
def Smooth (steps : List (Pool × Action)) : Prop :=
  ∀ step ∈ steps, (∀ error, step.2 ≠ .accept (.error error)) ∧
    ∀ threadNum, step.2 ≠ .finish threadNum .abort

/-- The dispatcher has a stream to hand over, if it has anything to do. -/
def Supplied (pool : Pool) : Prop :=
  pool.dispatcher = .accepting ∨ pool.dispatcher.stream.isSome

/-- Without failing accepts every step leaves the dispatcher supplied. -/
theorem Supplied.step (supplied : Supplied pool) (transition : Transition pool action next)
    (sound : ∀ error, action ≠ .accept (.error error)) : Supplied next := by
  unfold Supplied at supplied
  cases transition with
  | acceptOk at_ => exact .inr rfl
  | acceptError error at_ => exact absurd rfl (sound error)
  | recv stream threadNum ready at_ announced =>
      rw [at_] at supplied
      exact supplied.imp (fun accepting => nomatch accepting) id
  | drain stream threadNum drained thread ready at_ announced =>
      rw [at_] at supplied
      exact supplied.imp (fun accepting => nomatch accepting) id
  | drained stream threadNum drained at_ announced =>
      rw [at_] at supplied
      exact supplied.imp (fun accepting => nomatch accepting) id
  | resend stream threadNum overloaded thread drained at_ =>
      rw [at_] at supplied
      exact supplied.imp (fun accepting => nomatch accepting) id
  | handOver stream threadNum overloaded at_ inside alive => exact .inl rfl
  | giveUp stream threadNum overloaded at_ failed => exact .inl rfl
  | announce | receive | finish | die => exact supplied

/-- Steps that do not panic do no harm while the dispatcher is supplied. -/
private theorem unharmed_of_supplied (inhabited : 0 < pool.size) (supplied : Supplied pool)
    (calm : ∀ threadNum, action ≠ .finish threadNum .abort) : Unharmed pool action := by
  cases action with
  | accept outcome => exact inhabited
  | dispatch =>
      intro error threadNum overloaded at_
      rw [Supplied, at_] at supplied
      rcases supplied with accepting | stream
      · cases accepting
      · cases stream
  | announce threadNum => trivial
  | receive threadNum => trivial
  | finish threadNum result =>
      rintro rfl
      exact calm threadNum rfl

/-- In a run that goes well no worker is lost. -/
private theorem conserved_of_run {numThreads : Nat} {alive : Nat → Bool}
    (inhabited : 0 < numThreads) (living : ∀ threadNum < numThreads, alive threadNum = true)
    (run : (poolSystem numThreads alive).Run steps pool) (smooth : Smooth steps) :
    Conserved pool ∧ Supplied pool := by
  induction run with
  | start initial =>
      rw [initial]
      exact ⟨conserved_spawned_iff.mpr living, .inl rfl⟩
  | step run step ih =>
      obtain ⟨conserved, supplied⟩ := ih fun earlier inside =>
        smooth earlier (List.mem_append_left _ inside)
      obtain ⟨sound, calm⟩ := smooth _ (List.mem_append_right _ List.mem_cons_self)
      have transition := step_cases step
      rw [← size_of_reachable run.reachable] at inhabited
      have unharmed := unharmed_of_supplied inhabited supplied calm
      exact ⟨(conserved.step_iff (pool_invariant run.reachable).1 transition).mpr unharmed,
        supplied.step transition sound⟩

/-- In a pool at rest that has lost no worker, all are ready. -/
theorem rests_of_still (exclusive : Exclusive pool) (conserved : Conserved pool)
    (still : Still pool) (unoccupied : Unoccupied pool) :
    pool.dispatcher = .accepting ∧ ∀ threadNum < pool.size,
      pool.worker threadNum = ⟨.waiting, []⟩ ∧ threadNum ∈ pool.ready := by
  have finished : ∀ threadNum < pool.size, (pool.worker threadNum).phase ≠ .announcing ∧
      (pool.worker threadNum).tasks = [] := by
    intro threadNum inside
    obtain ⟨silent, empty⟩ := still.idle inside
    refine ⟨silent, ?_⟩
    unfold Worker.tasks
    cases at_ : (pool.worker threadNum).phase with
    | announcing => exact absurd at_ silent
    | waiting => exact empty at_
    | processing task => exact absurd at_ (unoccupied threadNum inside task)
    | dead =>
        by_contra nonempty
        cases at_.symm.trans (exclusive.queued threadNum nonempty)
  have accepting : pool.dispatcher = .accepting := by
    rcases still.dispatcher with accepting | ⟨receiving, unannounced⟩
    · exact accepting
    · exact absurd ⟨receiving, unannounced, finished⟩ conserved.served
  refine ⟨accepting, fun threadNum inside => ?_⟩
  obtain ⟨silent, empty⟩ := finished threadNum inside
  have held : threadNum ∈ pool.numbers :=
    ((conserved.accounted threadNum inside).resolve_left silent).resolve_right
      (absurd empty)
  refine ⟨(exclusive.idle threadNum held).2, ?_⟩
  rw [numbers, accepting, Dispatcher.held, List.append_nil] at held
  exact held

/-- A task is among those of its worker as often as it is handed over. -/
private theorem count_tasksOf (tasks : List (Nat × Task)) (threadNum : Nat) (task : Task) :
    (tasksOf threadNum tasks).count task = tasks.count (threadNum, task) := by
  induction tasks with
  | nil => rfl
  | cons first others ih =>
      rw [← List.singleton_append, tasksOf_append, List.count_append, List.count_append, ih]
      obtain ⟨other, task'⟩ := first
      by_cases same : threadNum = other
      · subst same
        rw [tasksOf_self]
        simp [List.count_singleton]
      · rw [tasksOf_of_ne same]
        simp [Ne.symm same]

/-- In a pool that has come to rest smoothly, all streams have been processed. -/
theorem settled_of_run {numThreads : Nat} {alive : Nat → Bool} (inhabited : 0 < numThreads)
    (living : ∀ threadNum < numThreads, alive threadNum = true)
    (run : (poolSystem numThreads alive).Run steps pool) (smooth : Smooth steps)
    (still : Still pool) (unoccupied : Unoccupied pool) :
    ((steps.filterMap finished?).map (·.2.stream)).Perm (List.range pool.accepted) := by
  obtain ⟨queued, ordered⟩ := fates_of_run run
  have conserved := (conserved_of_run inhabited living run smooth).1
  obtain ⟨accepting, idle⟩ :=
    rests_of_still (pool_invariant run.reachable).1 conserved still unoccupied
  have whole : (steps.filterMap finished?).Perm pool.handed := by
    apply List.perm_iff_count.mpr
    rintro ⟨threadNum, task⟩
    have done : (pool.worker threadNum).tasks = [] := by
      rcases Nat.lt_or_ge threadNum pool.size with inside | outside
      · rw [(idle threadNum inside).1]
        rfl
      · exact tasks_of_le run.reachable outside
    rw [← count_tasksOf, ← count_tasksOf, ordered threadNum, done, List.append_nil]
  rw [Queued, accepting] at queued
  rw [← queued]
  refine (whole.map _).trans ?_
  exact List.Perm.of_eq (List.append_nil _).symm

/-- A pool in which the dispatcher accepts and all workers wait is at rest. -/
theorem still_of_ready {pool : Pool} (accepting : pool.dispatcher = .accepting)
    (idle : ∀ threadNum < pool.size, pool.worker threadNum = ⟨.waiting, []⟩) : Still pool := by
  intro action next step
  have transition := step_cases step
  cases transition with
  | acceptOk at_ => exact .inl ⟨_, rfl⟩
  | acceptError error at_ => exact .inl ⟨_, rfl⟩
  | recv stream threadNum ready at_ => cases accepting.symm.trans at_
  | drain stream threadNum drained thread ready at_ => cases accepting.symm.trans at_
  | drained stream threadNum drained at_ => cases accepting.symm.trans at_
  | resend stream threadNum overloaded thread drained at_ => cases accepting.symm.trans at_
  | handOver stream threadNum overloaded at_ => cases accepting.symm.trans at_
  | giveUp stream threadNum overloaded at_ => cases accepting.symm.trans at_
  | announce threadNum inside announcing =>
      rw [idle threadNum inside] at announcing
      cases announcing
  | receive threadNum task queue inside waiting =>
      cases (idle threadNum inside).symm.trans waiting
  | finish threadNum task result inside processing => exact .inr ⟨_, _, rfl⟩
  | die threadNum task inside processing => exact .inr ⟨_, _, rfl⟩

/-- Workers that wait are not processing. -/
theorem unoccupied_of_ready {pool : Pool}
    (idle : ∀ threadNum < pool.size, pool.worker threadNum = ⟨.waiting, []⟩) :
    Unoccupied pool := by
  intro threadNum inside task processing
  rw [idle threadNum inside] at processing
  cases processing

end Pool

open Pool

/-- **Bounded work.** The threads of the pool announce themselves once, and take a bounded number
of steps for each stream or error that is accepted. -/
theorem pool_bounded {numThreads : Nat} {alive : Nat → Bool} {steps : List (Pool × Pool.Action)}
    {pool : Pool} (run : (poolSystem numThreads alive).Run steps pool) :
    steps.length ≤ numThreads + (2 * numThreads + 5) * steps.countP accepts := by
  have paid : ∀ pool action next, (poolSystem numThreads alive).Reachable pool →
      (poolSystem numThreads alive).step pool action next →
        next.effort + 1 ≤ pool.effort + income numThreads (pool, action) := by
    intro pool action next reachable step
    rw [← size_of_reachable reachable]
    exact effort_step (pool_invariant reachable).1 (step_cases step)
  obtain ⟨start, initial, bound⟩ := run.pays paid
  have few := effort_spawned_le numThreads alive
  rw [initial, sum_income] at bound
  omega

/-- A single worker takes seven steps with its first stream. -/
theorem pool_bounded_first : ∃ steps : List (Pool × Pool.Action),
    steps.map Prod.snd = [.announce 0, .accept (.ok ()), .dispatch, .dispatch, .dispatch,
      .receive 0, .finish 0 .ok, .announce 0] ∧
    steps.length ≤ 1 + (2 * 1 + 5) * steps.countP accepts := by
  have start : (poolSystem 1 fun _ => true).Run [] (spawned 1 fun _ => true) := .start rfl
  obtain ⟨steps, taken, run⟩ := start.foldlM [.announce 0, .accept (.ok ()), .dispatch, .dispatch,
    .dispatch, .receive 0, .finish 0 .ok, .announce 0] rfl
  exact ⟨steps, taken, pool_bounded run⟩

/-- **The pool comes to rest with everything done.** When no thread can take a step but to accept,
no call of `seq::process` is under way, and no accept has failed and no worker has panicked, every
accepted stream has been processed, once, and every worker is waiting and has its number in the
ready channel. -/
theorem pool_settled {numThreads : Nat} {alive : Nat → Bool} (inhabited : 0 < numThreads)
    (living : ∀ threadNum < numThreads, alive threadNum = true)
    {steps : List (Pool × Pool.Action)} {pool : Pool}
    (run : (poolSystem numThreads alive).Run steps pool)
    (smooth : Smooth steps) (still : Still pool) (unoccupied : Unoccupied pool) :
    pool.dispatcher = .accepting ∧
      (∀ threadNum < numThreads,
        pool.worker threadNum = ⟨.waiting, []⟩ ∧ threadNum ∈ pool.ready) ∧
      ((steps.filterMap finished?).map (·.2.stream)).Perm (List.range pool.accepted) := by
  have conserved := (conserved_of_run inhabited living run smooth).1
  obtain ⟨accepting, idle⟩ :=
    rests_of_still (pool_invariant run.reachable).1 conserved still unoccupied
  rw [size_of_reachable run.reachable] at idle
  exact ⟨accepting, idle, settled_of_run inhabited living run smooth still unoccupied⟩

/-- After its first stream the only worker is ready again. -/
theorem pool_settled_first : ∃ steps : List (Pool × Pool.Action),
    steps.map Prod.snd = [.announce 0, .accept (.ok ()), .dispatch, .dispatch, .dispatch,
      .receive 0, .finish 0 .ok, .announce 0] ∧
    ((steps.filterMap finished?).map (·.2.stream)).Perm [0] := by
  have start : (poolSystem 1 fun _ => true).Run [] (spawned 1 fun _ => true) := .start rfl
  obtain ⟨steps, taken, run⟩ := start.foldlM [.announce 0, .accept (.ok ()), .dispatch, .dispatch,
    .dispatch, .receive 0, .finish 0 .ok, .announce 0] rfl
  have smooth : Smooth steps := by
    intro step inside
    have label := List.mem_map_of_mem (f := Prod.snd) inside
    rw [taken] at label
    simp only [List.mem_cons, List.not_mem_nil, or_false] at label
    have calm : (∀ error, step.2 ≠ .accept (.error error)) ∧
        ∀ threadNum, step.2 ≠ .finish threadNum .abort := by
      rcases label with same | same | same | same | same | same | same | same <;> simp [same]
    exact calm
  obtain ⟨-, -, done⟩ := pool_settled Nat.one_pos (fun _ _ => rfl) run smooth
    (still_of_ready rfl fun threadNum inside => by
      obtain rfl : threadNum = 0 := Nat.lt_one_iff.mp inside
      rfl)
    (unoccupied_of_ready fun threadNum inside => by
      obtain rfl : threadNum = 0 := Nat.lt_one_iff.mp inside
      rfl)
  exact ⟨steps, taken, done⟩

end RustHttpServer
