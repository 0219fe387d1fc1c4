import RustHttpServer.Pool.Conservation

/-!
# What becomes of streams

Every stream that the pool accepts is handed over, in the order of the accepts, when
`pass_to_worker` comes to its end, and each worker finishes what it is handed in the order in
which it is handed over (`pool_fates`).
-/

namespace RustHttpServer

open Foundation

namespace Pool

/-- The stream whose processing ends with a step, and the worker that has processed it. -/
def finished? : Pool × Action → Option (Nat × Task)
  | (pool, .finish threadNum _) =>
      match (pool.worker threadNum).phase with
      | .processing task => some (threadNum, task)
      | _ => none
  | _ => none

/-- What of some tasks is that of one worker. -/
def tasksOf (threadNum : Nat) (tasks : List (Nat × Task)) : List Task :=
  (tasks.filter (·.1 = threadNum)).map Prod.snd

variable {pool next : Pool} {steps : List (Pool × Action)} {action : Action}

/-- The tasks of a worker among more tasks are its tasks among both. -/
theorem tasksOf_append (threadNum : Nat) (tasks more : List (Nat × Task)) :
    tasksOf threadNum (tasks ++ more) = tasksOf threadNum tasks ++ tasksOf threadNum more := by
  rw [tasksOf, List.filter_append, List.map_append]
  rfl

/-- A task is among those of its worker. -/
theorem tasksOf_self (threadNum : Nat) (task : Task) :
    tasksOf threadNum [(threadNum, task)] = [task] := by
  rw [tasksOf, List.filter_cons_of_pos (by simp)]
  rfl

/-- A task is not among those of another worker. -/
theorem tasksOf_of_ne {threadNum other : Nat} (distinct : threadNum ≠ other) (task : Task) :
    tasksOf threadNum [(other, task)] = [] := by
  rw [tasksOf, List.filter_cons_of_neg (by simpa using distinct.symm)]
  rfl

/-! ### The order of streams -/

/-- The streams that have been accepted are those that have been handed over, and then the one
in the dispatcher's hands. -/
def Queued (pool : Pool) : Prop :=
  pool.handedStreams ++ pool.dispatcher.stream.toList = List.range pool.accepted

/-- What neither hands over nor accepts leaves the streams in their order. -/
theorem Queued.move (queued : Queued pool) (sameHanded : next.handed = pool.handed)
    (sameStream : next.dispatcher.stream = pool.dispatcher.stream)
    (sameCount : next.accepted = pool.accepted) : Queued next := by
  rw [Queued, handedStreams, sameHanded, sameStream, sameCount]
  exact queued

/-- Every step leaves the streams in their order. -/
theorem Queued.step (exclusive : Exclusive pool) (queued : Queued pool)
    (transition : Transition pool action next) : Queued next := by
  cases transition with
  | acceptOk at_ =>
      rw [Queued, at_] at queued
      change pool.handedStreams ++ [pool.accepted] = List.range (pool.accepted + 1)
      rw [List.range_succ, ← queued, Dispatcher.stream, Option.toList_none, List.append_nil]
  | acceptError error at_ => exact queued.move rfl (by rw [at_]; rfl) rfl
  | recv stream threadNum ready at_ announced => exact queued.move rfl (by rw [at_]; rfl) rfl
  | drain stream threadNum drained thread ready at_ announced =>
      exact queued.move rfl (by rw [at_]; rfl) rfl
  | drained stream threadNum drained at_ announced => exact queued.move rfl (by rw [at_]; rfl) rfl
  | resend stream threadNum overloaded thread drained at_ =>
      exact queued.move rfl (by rw [at_]; rfl) rfl
  | handOver stream threadNum overloaded at_ inside alive =>
      rw [Queued, at_] at queued
      refine (List.append_nil _).trans ?_
      rw [handedStreams, List.map_append]
      exact queued
  | giveUp stream threadNum overloaded at_ failed =>
      -- only a failed accept is given up, since the target is a worker that waits
      obtain ⟨inside, idle⟩ := exclusive.target_idle at_
      rcases failed with outside | missing | dead
      · exact absurd inside outside.not_gt
      · refine queued.move rfl ?_ rfl
        rw [at_]
        exact missing.symm
      · rw [idle] at dead
        cases dead
  | announce threadNum inside announcing => exact queued.move rfl rfl rfl
  | receive threadNum task queue inside waiting => exact queued.move rfl rfl rfl
  | finish threadNum task result inside processing unharmed => exact queued.move rfl rfl rfl
  | die threadNum task inside processing => exact queued.move rfl rfl rfl

/-! ### The order of tasks -/

/-- What a worker has been handed is what it has finished, and then what it has. -/
def Ordered (steps : List (Pool × Action)) (pool : Pool) (threadNum : Nat) : Prop :=
  tasksOf threadNum pool.handed =
    tasksOf threadNum (steps.filterMap finished?) ++ (pool.worker threadNum).tasks

variable {threadNum : Nat}

/-- A step with which no stream is finished or handed over. -/
theorem Ordered.move (ordered : Ordered steps pool threadNum)
    (unfinished : finished? (pool, action) = none) (sameHanded : next.handed = pool.handed)
    (sameTasks : (next.worker threadNum).tasks = (pool.worker threadNum).tasks) :
    Ordered (steps ++ [(pool, action)]) next threadNum := by
  rw [Ordered, List.filterMap_append, List.filterMap_cons_none unfinished, List.filterMap_nil,
    List.append_nil, sameHanded, sameTasks]
  exact ordered

/-- A worker takes a step, with which no stream is finished or handed over. -/
theorem Ordered.work {other : Nat} {worker : Worker} (ordered : Ordered steps pool threadNum)
    (unfinished : finished? (pool, action) = none) (sameHanded : next.handed = pool.handed)
    (worked : next.worker = (pool.setWorker other worker).worker)
    (sameTasks : worker.tasks = (pool.worker other).tasks) :
    Ordered (steps ++ [(pool, action)]) next threadNum := by
  refine ordered.move unfinished sameHanded ?_
  rw [worked]
  by_cases same : threadNum = other
  · rw [same, setWorker_worker_self, sameTasks]
  · rw [setWorker_worker_of_ne same]

/-- A worker finishes the only stream that it has. -/
theorem Ordered.finish {other : Nat} {worker : Worker} {task : Task} {result : Result}
    (ordered : Ordered steps pool threadNum)
    (busy : (pool.worker other).phase = .processing task)
    (unqueued : (pool.worker other).queue = []) (done : worker.tasks = []) :
    Ordered (steps ++ [(pool, .finish other result)]) (pool.setWorker other worker) threadNum := by
  have ends : finished? (pool, .finish other result) = some (other, task) := by
    rw [finished?, busy]
  rw [Ordered, List.filterMap_append, List.filterMap_cons_some ends, List.filterMap_nil,
    tasksOf_append]
  change tasksOf threadNum pool.handed = _
  by_cases same : threadNum = other
  · subst same
    rw [ordered, Worker.tasks, busy, unqueued, setWorker_worker_self, done, tasksOf_self,
      List.append_nil]
  · rw [ordered, setWorker_worker_of_ne same, tasksOf_of_ne same, List.append_nil]

/-- Every step leaves the tasks of a worker in their order. -/
theorem Ordered.step (exclusive : Exclusive pool) (ordered : Ordered steps pool threadNum)
    (transition : Transition pool action next) :
    Ordered (steps ++ [(pool, action)]) next threadNum := by
  cases transition with
  | acceptOk at_ => exact ordered.move rfl rfl rfl
  | acceptError error at_ => exact ordered.move rfl rfl rfl
  | recv stream threadNum ready at_ announced => exact ordered.move rfl rfl rfl
  | drain stream threadNum drained thread ready at_ announced => exact ordered.move rfl rfl rfl
  | drained stream threadNum drained at_ announced => exact ordered.move rfl rfl rfl
  | resend stream threadNum overloaded thread drained at_ => exact ordered.move rfl rfl rfl
  | handOver stream other overloaded at_ inside alive =>
      rw [Ordered, List.filterMap_append, List.filterMap_cons_none rfl, List.filterMap_nil,
        List.append_nil, tasksOf_append, ordered]
      by_cases same : threadNum = other
      · subst same
        rw [tasksOf_self, setWorker_worker_self, (exclusive.target_idle at_).2]
        exact List.append_assoc ..
      · rw [tasksOf_of_ne same, setWorker_worker_of_ne same, List.append_nil]
  | giveUp stream threadNum overloaded at_ failed => exact ordered.move rfl rfl rfl
  | announce other inside announcing =>
      refine ordered.work rfl rfl rfl ?_
      rw [Worker.tasks, Worker.tasks, announcing]
  | receive other task queue inside waiting =>
      refine ordered.work rfl rfl rfl ?_
      rw [waiting]
      rfl
  | finish other task result inside processing unharmed =>
      have unqueued := (exclusive.active processing Phase.noConfusion).2
      exact ordered.finish processing unqueued unqueued
  | die other task inside processing =>
      exact ordered.finish processing (exclusive.active processing Phase.noConfusion).2 rfl

/-- Streams and tasks are in their order after every run. -/
theorem fates_of_run {numThreads : Nat} {alive : Nat → Bool}
    (run : (poolSystem numThreads alive).Run steps pool) :
    Queued pool ∧ ∀ threadNum, Ordered steps pool threadNum := by
  refine run.invariant (fun steps pool =>
    Queued pool ∧ ∀ threadNum, Ordered steps pool threadNum) ?_ ?_
  · rintro pool rfl
    exact ⟨rfl, fun threadNum => (tasks_spawned numThreads alive threadNum).symm⟩
  · rintro steps pool action next run ⟨queued, ordered⟩ step
    have exclusive := (pool_invariant run.reachable).1
    have transition := step_cases step
    exact ⟨queued.step exclusive transition,
      fun threadNum => (ordered threadNum).step exclusive transition⟩

end Pool

open Pool

/-- **No stream is lost or overtaken.** After any run the accepted streams have been handed over in
the order of their accepts, but for the one in the dispatcher's hands; and each worker has
finished what it was handed in the same order, but for what it still has. -/
theorem pool_fates {numThreads : Nat} {alive : Nat → Bool} {steps : List (Pool × Pool.Action)}
    {pool : Pool} (run : (poolSystem numThreads alive).Run steps pool) :
    pool.handedStreams ++ pool.dispatcher.stream.toList = List.range pool.accepted ∧
      ∀ threadNum, tasksOf threadNum pool.handed =
        tasksOf threadNum (steps.filterMap finished?) ++ (pool.worker threadNum).tasks :=
  fates_of_run run

/-- Of two streams one has been processed and the other one is still in the dispatcher's hands. -/
theorem pool_fates_two : ∃ (steps : List (Pool × Pool.Action)) (pool : Pool),
    steps.map Prod.snd = [.announce 0, .accept (.ok ()), .dispatch, .dispatch, .dispatch,
      .receive 0, .finish 0 .ok, .accept (.ok ())] ∧
    pool.handedStreams ++ pool.dispatcher.stream.toList = List.range pool.accepted ∧
      ∀ threadNum, tasksOf threadNum pool.handed =
        tasksOf threadNum (steps.filterMap finished?) ++ (pool.worker threadNum).tasks := by
  have start : (poolSystem 1 fun _ => true).Run [] (spawned 1 fun _ => true) := .start rfl
  obtain ⟨steps, taken, run⟩ := start.foldlM [.announce 0, .accept (.ok ()), .dispatch, .dispatch,
    .dispatch, .receive 0, .finish 0 .ok, .accept (.ok ())] rfl
  exact ⟨steps, _, taken, pool_fates run⟩

end RustHttpServer
