import RustHttpServer.Pool.Protocol

/-!
# Exclusive use of workers

Every worker number is in one place at most: the ready channel, the dispatcher's
hands, or, as a task, in the channel or in the hands of its worker. So a stream is
only ever handed to a worker that exists and is idle, and to one worker only
(`pool_exclusive`).

The steps of the pool are listed once, as `Transition`; the invariants are read
off this list.
-/

namespace RustHttpServer

open Foundation

namespace Pool

/-- The steps of the pool, one by one. -/
inductive Transition (pool : Pool) : Action → Pool → Prop
  | acceptOk : pool.dispatcher = .accepting →
      Transition pool (.accept (.ok ())) { pool with
        dispatcher := .receiving (.ok pool.accepted), accepted := pool.accepted + 1 }
  | acceptError (error : IoError) : pool.dispatcher = .accepting →
      Transition pool (.accept (.error error)) { pool with dispatcher := .receiving (.error error) }
  | recv (stream : Except IoError Nat) (threadNum : Nat) (ready : List Nat) :
      pool.dispatcher = .receiving stream → pool.ready = threadNum :: ready →
      Transition pool .dispatch { pool with
        ready := ready, dispatcher := .draining stream threadNum [] }
  | drain (stream : Except IoError Nat) (threadNum : Nat) (drained : List Nat) (thread : Nat)
      (ready : List Nat) :
      pool.dispatcher = .draining stream threadNum drained → pool.ready = thread :: ready →
      Transition pool .dispatch { pool with
        ready := ready, dispatcher := .draining stream threadNum (drained ++ [thread]) }
  | drained (stream : Except IoError Nat) (threadNum : Nat) (drained : List Nat) :
      pool.dispatcher = .draining stream threadNum drained → pool.ready = [] →
      Transition pool .dispatch { pool with
        dispatcher := .resending stream threadNum (drained.length == 0) drained }
  | resend (stream : Except IoError Nat) (threadNum : Nat) (overloaded : Bool) (thread : Nat)
      (drained : List Nat) :
      pool.dispatcher = .resending stream threadNum overloaded (thread :: drained) →
      Transition pool .dispatch { pool with
        ready := pool.ready ++ [thread]
        dispatcher := .resending stream threadNum overloaded drained }
  | handOver (stream : Nat) (threadNum : Nat) (overloaded : Bool) :
      pool.dispatcher = .resending (.ok stream) threadNum overloaded [] →
      threadNum < pool.size → (pool.worker threadNum).phase ≠ .dead →
      Transition pool .dispatch
        { pool.setWorker threadNum { pool.worker threadNum with
            queue := (pool.worker threadNum).queue ++ [⟨stream, overloaded⟩] } with
          dispatcher := .accepting
          handed := pool.handed ++ [(threadNum, ⟨stream, overloaded⟩)] }
  /-- `pass_to_worker` returns with an error: no such thread, no stream, or no
  receiver. -/
  | giveUp (stream : Except IoError Nat) (threadNum : Nat) (overloaded : Bool) :
      pool.dispatcher = .resending stream threadNum overloaded [] →
      (pool.size ≤ threadNum ∨ stream.toOption = none ∨ (pool.worker threadNum).phase = .dead) →
      Transition pool .dispatch { pool with dispatcher := .accepting }
  | announce (threadNum : Nat) : threadNum < pool.size →
      (pool.worker threadNum).phase = .announcing →
      Transition pool (.announce threadNum)
        { pool.setWorker threadNum { pool.worker threadNum with phase := .waiting } with
          ready := pool.ready ++ [threadNum] }
  | receive (threadNum : Nat) (task : Task) (queue : List Task) : threadNum < pool.size →
      pool.worker threadNum = ⟨.waiting, task :: queue⟩ →
      Transition pool (.receive threadNum) (pool.setWorker threadNum ⟨.processing task, queue⟩)
  | finish (threadNum : Nat) (task : Task) (result : Result) : threadNum < pool.size →
      (pool.worker threadNum).phase = .processing task → result ≠ .abort →
      Transition pool (.finish threadNum result)
        (pool.setWorker threadNum { pool.worker threadNum with phase := .announcing })
  | die (threadNum : Nat) (task : Task) : threadNum < pool.size →
      (pool.worker threadNum).phase = .processing task →
      Transition pool (.finish threadNum .abort) (pool.setWorker threadNum ⟨.dead, []⟩)

/-- A worker takes its step in its own place. -/
theorem work?_eq_some_iff {pool next : Pool} {threadNum : Nat} {step : Worker → Option Worker} :
    pool.work? threadNum step = some next ↔
      threadNum < pool.size ∧ ∃ worker, step (pool.worker threadNum) = some worker ∧
        next = pool.setWorker threadNum worker := by
  unfold work?
  rcases Nat.lt_or_ge threadNum pool.size with inside | outside
  · rw [thread?_of_lt inside, Option.bind_some, Option.map_eq_some_iff]
    simp only [inside, true_and, eq_comm]
  · rw [thread?_of_le outside, Option.bind_none]
    simp only [reduceCtorEq, Nat.not_lt_of_le outside, false_and]

/-- Handing over is one of the steps there are, whatever there is to hand over. -/
private theorem handOver_cases (pool : Pool) (stream : Except IoError Nat) (threadNum : Nat)
    (overloaded : Bool)
    (dispatching : pool.dispatcher = .resending stream threadNum overloaded []) :
    Transition pool .dispatch (pool.handOver stream threadNum overloaded) := by
  rcases Nat.lt_or_ge threadNum pool.size with inside | outside
  · cases stream with
    | error error =>
        unfold Pool.handOver
        rw [thread?_of_lt inside]
        exact .giveUp (.error error) threadNum overloaded dispatching (.inr (.inl rfl))
    | ok stream =>
        unfold Pool.handOver
        rw [thread?_of_lt inside]
        dsimp only
        by_cases dead : (pool.worker threadNum).phase = .dead
        · rw [if_pos dead]
          exact .giveUp (.ok stream) threadNum overloaded dispatching (.inr (.inr dead))
        · rw [if_neg dead]
          exact .handOver stream threadNum overloaded dispatching inside dead
  · unfold Pool.handOver
    rw [thread?_of_le outside]
    exact .giveUp stream threadNum overloaded dispatching (.inl outside)

/-- What a step can do. -/
theorem step_cases {pool next : Pool} {action : Action} (step : pool.step? action = some next) :
    Transition pool action next := by
  cases action with
  | accept outcome =>
      cases at_ : pool.dispatcher <;> simp only [step?, at_, reduceCtorEq] at step
      rcases outcome with error | ⟨⟩
      · cases step
        exact .acceptError error at_
      · cases step
        exact .acceptOk at_
  | dispatch =>
      rw [step?, dispatch?] at step
      cases at_ : pool.dispatcher with
      | accepting => simp only [at_, reduceCtorEq] at step
      | receiving stream =>
          cases ready : pool.ready <;> simp only [at_, ready, reduceCtorEq] at step
          cases step
          exact .recv stream _ _ at_ ready
      | draining stream threadNum drained =>
          cases ready : pool.ready <;> simp only [at_, ready] at step <;> cases step
          · have unchanged := Transition.drained stream threadNum drained at_ ready
            rwa [ready] at unchanged
          · exact .drain stream threadNum drained _ _ at_ ready
      | resending stream threadNum overloaded drained =>
          cases drained with
          | nil =>
              simp only [at_] at step
              cases step
              exact handOver_cases pool stream threadNum overloaded at_
          | cons thread drained =>
              simp only [at_] at step
              cases step
              exact .resend stream threadNum overloaded thread drained at_
  | announce threadNum =>
      simp only [step?, Option.map_eq_some_iff, work?_eq_some_iff] at step
      obtain ⟨_, ⟨inside, worker, moved, rfl⟩, rfl⟩ := step
      split at moved
      · next announcing =>
          cases moved
          exact .announce threadNum inside announcing
      · cases moved
  | receive threadNum =>
      simp only [step?, work?_eq_some_iff] at step
      obtain ⟨inside, worker, moved, rfl⟩ := step
      split at moved
      · next task queue waiting queued =>
          cases moved
          refine .receive threadNum task queue inside ?_
          rw [← waiting, ← queued]
      · cases moved
  | finish threadNum result =>
      simp only [step?, work?_eq_some_iff] at step
      obtain ⟨inside, worker, moved, rfl⟩ := step
      split at moved
      · next task processing =>
          cases moved
          exact .finish threadNum task .ok inside processing (by decide)
      · next task processing =>
          cases moved
          exact .finish threadNum task .err inside processing (by decide)
      · next task processing =>
          cases moved
          exact .die threadNum task inside processing
      · cases moved

/-! ### The invariant -/

/-- The worker that is set is there. -/
@[simp]
theorem setWorker_worker_self (pool : Pool) (threadNum : Nat) (worker : Worker) :
    (pool.setWorker threadNum worker).worker threadNum = worker := Function.update_self ..

/-- Setting a worker leaves the others as they are. -/
theorem setWorker_worker_of_ne {pool : Pool} {threadNum other : Nat} {worker : Worker}
    (distinct : other ≠ threadNum) :
    (pool.setWorker threadNum worker).worker other = pool.worker other :=
  Function.update_of_ne distinct ..

/-- The streams that a worker is processing or is still to receive. -/
def Worker.tasks (worker : Worker) : List Task :=
  match worker.phase with
  | .processing task => task :: worker.queue
  | _ => worker.queue

private theorem Worker.queue_sublist_tasks (worker : Worker) :
    worker.queue.Sublist worker.tasks := by
  unfold Worker.tasks
  split
  · exact List.sublist_cons_self ..
  · exact List.Sublist.refl _

/-- The worker numbers in the ready channel and in the dispatcher's hands. -/
def numbers (pool : Pool) : List Nat := pool.ready ++ pool.dispatcher.held

/-- How often a worker number occurs in the ready channel, in the dispatcher's hands
and, as a stream, in the channel or in the hands of its worker. -/
def occurrences (pool : Pool) (threadNum : Nat) : Nat :=
  pool.ready.count threadNum + pool.dispatcher.held.count threadNum +
    (pool.worker threadNum).tasks.length

/-- Every number belongs to an idle worker and is in one place, and no worker has
more than one stream. -/
structure Exclusive (pool : Pool) : Prop where
  nodup : pool.numbers.Nodup
  idle : ∀ threadNum ∈ pool.numbers,
    threadNum < pool.size ∧ pool.worker threadNum = ⟨.waiting, []⟩
  single : ∀ threadNum, (pool.worker threadNum).tasks.length ≤ 1
  /-- Only a worker that waits has a stream in its channel. -/
  queued : ∀ threadNum, (pool.worker threadNum).queue ≠ [] →
    (pool.worker threadNum).phase = .waiting

private theorem Exclusive.occurrences_le {pool : Pool} (exclusive : Exclusive pool)
    (threadNum : Nat) :
    pool.occurrences threadNum ≤ 1 := by
  rw [occurrences, ← List.count_append]
  change pool.numbers.count threadNum + _ ≤ 1
  by_cases inside : threadNum ∈ pool.numbers
  · have once := List.nodup_iff_count_le_one.mp exclusive.nodup threadNum
    rw [(exclusive.idle threadNum inside).2]
    exact once
  · rw [List.count_eq_zero_of_not_mem inside, Nat.zero_add]
    exact exclusive.single threadNum

/-- At first no worker has a task. -/
theorem tasks_spawned (numThreads : Nat) (alive : Nat → Bool) (threadNum : Nat) :
    ((spawned numThreads alive).worker threadNum).tasks = [] := by
  unfold spawned
  dsimp only
  cases alive threadNum <;> rfl

/-- At first no number is anywhere, and no worker has a stream. -/
theorem Exclusive.spawned (numThreads : Nat) (alive : Nat → Bool) :
    Exclusive (spawned numThreads alive) where
  nodup := List.nodup_nil
  idle _ inside := absurd inside List.not_mem_nil
  single threadNum := by
    rw [tasks_spawned]
    exact Nat.zero_le 1
  queued _ nonempty := absurd rfl nonempty

/-- A step that only moves numbers about, or loses some. -/
theorem Exclusive.move {pool next : Pool} (exclusive : Exclusive pool)
    (sameSize : next.size = pool.size) (sameWorkers : next.worker = pool.worker)
    (moved : next.numbers.Subperm pool.numbers) : Exclusive next where
  nodup := by
    obtain ⟨numbers, perm, sublist⟩ := moved
    exact perm.nodup_iff.mp (exclusive.nodup.sublist sublist)
  idle threadNum inside := by
    rw [sameSize, sameWorkers]
    exact exclusive.idle threadNum (moved.subset inside)
  single threadNum := by
    rw [sameWorkers]
    exact exclusive.single threadNum
  queued threadNum nonempty := by
    rw [sameWorkers] at nonempty ⊢
    exact exclusive.queued threadNum nonempty

/-- A step of one worker whose number is then either its own to announce or nowhere. -/
theorem Exclusive.work {pool next : Pool} (exclusive : Exclusive pool) (threadNum : Nat)
    (worker : Worker) (sameSize : next.size = pool.size)
    (worked : next.worker = (pool.setWorker threadNum worker).worker)
    (nodup : next.numbers.Nodup)
    (kept : ∀ other ∈ next.numbers, other ≠ threadNum ∧ other ∈ pool.numbers ∨
      other = threadNum ∧ threadNum < pool.size ∧ worker = ⟨.waiting, []⟩)
    (single : worker.tasks.length ≤ 1) (queued : worker.queue ≠ [] → worker.phase = .waiting) :
    Exclusive next where
  nodup := nodup
  idle other inside := by
    rw [sameSize, worked]
    rcases kept other inside with ⟨distinct, before⟩ | ⟨rfl, inside, idle⟩
    · rw [setWorker_worker_of_ne distinct]
      exact exclusive.idle other before
    · rw [setWorker_worker_self]
      exact ⟨inside, idle⟩
  single other := by
    rw [worked]
    by_cases same : other = threadNum
    · rw [same, setWorker_worker_self]
      exact single
    · rw [setWorker_worker_of_ne same]
      exact exclusive.single other
  queued other nonempty := by
    rw [worked] at nonempty ⊢
    by_cases same : other = threadNum
    · rw [same, setWorker_worker_self] at nonempty ⊢
      exact queued nonempty
    · rw [setWorker_worker_of_ne same] at nonempty ⊢
      exact exclusive.queued other nonempty

/-- A step of one worker whose number is nowhere. -/
theorem Exclusive.away {pool next : Pool} (exclusive : Exclusive pool) {threadNum : Nat}
    (absent : threadNum ∉ pool.numbers) (worker : Worker) (sameSize : next.size = pool.size)
    (worked : next.worker = (pool.setWorker threadNum worker).worker)
    (sameNumbers : next.numbers = pool.numbers) (single : worker.tasks.length ≤ 1)
    (queued : worker.queue ≠ [] → worker.phase = .waiting) : Exclusive next := by
  refine exclusive.work threadNum worker sameSize worked ?_ ?_ single queued
  · rw [sameNumbers]
    exact exclusive.nodup
  · rw [sameNumbers]
    exact fun other before => .inl ⟨fun same => absent (same ▸ before), before⟩

/-- A worker that is not idle has its number nowhere. -/
theorem Exclusive.not_mem_numbers {pool : Pool} (exclusive : Exclusive pool) {threadNum : Nat}
    (busy : pool.worker threadNum ≠ ⟨.waiting, []⟩) : threadNum ∉ pool.numbers :=
  fun inside => busy (exclusive.idle threadNum inside).2

/-- A worker that does something has its number nowhere, and no tasks in its queue. -/
theorem Exclusive.active {pool : Pool} (exclusive : Exclusive pool) {threadNum : Nat}
    {phase : Phase} (there : (pool.worker threadNum).phase = phase) (active : phase ≠ .waiting) :
    threadNum ∉ pool.numbers ∧ (pool.worker threadNum).queue = [] := by
  constructor
  · apply exclusive.not_mem_numbers
    intro idle
    rw [idle] at there
    exact active there.symm
  · by_contra nonempty
    exact active (there.symm.trans (exclusive.queued threadNum nonempty))

/-- The number that the dispatcher hands a stream to is that of an idle worker. -/
theorem Exclusive.target_idle {pool : Pool} (exclusive : Exclusive pool)
    {stream : Except IoError Nat} {threadNum : Nat} {overloaded : Bool} {drained : List Nat}
    (dispatching : pool.dispatcher = .resending stream threadNum overloaded drained) :
    threadNum < pool.size ∧ pool.worker threadNum = ⟨.waiting, []⟩ := by
  refine exclusive.idle threadNum (List.mem_append_right _ ?_)
  rw [dispatching]
  exact List.mem_cons_self

/-- Every step keeps the numbers in their places. -/
theorem Exclusive.step {pool next : Pool} {action : Action} (exclusive : Exclusive pool)
    (transition : Transition pool action next) : Exclusive next := by
  cases transition with
  | acceptOk at_ =>
      refine exclusive.move rfl rfl ?_
      simp only [numbers, at_, Dispatcher.held, List.Subperm.refl]
  | acceptError error at_ =>
      refine exclusive.move rfl rfl ?_
      simp only [numbers, at_, Dispatcher.held, List.Subperm.refl]
  | recv stream threadNum ready at_ announced =>
      refine exclusive.move rfl rfl (List.Perm.subperm ?_)
      simp only [numbers, at_, announced, Dispatcher.held, List.append_nil]
      exact List.perm_append_singleton threadNum ready
  | drain stream threadNum drained thread ready at_ announced =>
      refine exclusive.move rfl rfl (List.Perm.subperm ?_)
      simp only [numbers, at_, announced, Dispatcher.held]
      rw [List.cons_append, ← List.cons_append, ← List.append_assoc]
      exact List.perm_append_singleton thread _
  | drained stream threadNum drained at_ announced =>
      refine exclusive.move rfl rfl ?_
      simp only [numbers, at_, Dispatcher.held, List.Subperm.refl]
  | resend stream threadNum overloaded thread drained at_ =>
      refine exclusive.move rfl rfl (List.Perm.subperm ?_)
      simp only [numbers, at_, Dispatcher.held, List.append_assoc, List.singleton_append]
      exact (List.Perm.swap threadNum thread drained).append_left pool.ready
  | handOver stream threadNum overloaded at_ inside alive =>
      have held : pool.numbers = pool.ready ++ [threadNum] := by rw [numbers, at_]; rfl
      have nodup := exclusive.nodup
      rw [held] at nodup
      have absent : threadNum ∉ pool.ready := by
        intro announced
        exact List.disjoint_of_nodup_append nodup announced List.mem_cons_self
      have idle := (exclusive.target_idle at_).2
      refine exclusive.work threadNum _ rfl rfl ?_ ?_ ?_ ?_
      · simp only [numbers, Dispatcher.held, List.append_nil]
        exact nodup.of_append_left
      · intro other announced
        simp only [numbers, Dispatcher.held, List.append_nil] at announced
        refine .inl ⟨fun same => absent (same ▸ announced), ?_⟩
        rw [held]
        exact List.mem_append_left _ announced
      · rw [idle]
        exact Nat.le_refl 1
      · rw [idle]
        exact fun _ => rfl
  | giveUp stream threadNum overloaded at_ failed =>
      refine exclusive.move rfl rfl (List.Sublist.subperm ?_)
      simp only [numbers, at_, Dispatcher.held, List.append_nil]
      exact List.sublist_append_left ..
  | announce threadNum inside announcing =>
      obtain ⟨absent, unqueued⟩ := exclusive.active announcing Phase.noConfusion
      have perm : (pool.ready ++ [threadNum] ++ pool.dispatcher.held).Perm
          (threadNum :: pool.numbers) := by
        rw [List.append_assoc]
        exact List.perm_middle
      refine exclusive.work threadNum _ rfl rfl ?_ ?_ ?_ ?_
      · exact perm.nodup_iff.mpr (List.nodup_cons.mpr ⟨absent, exclusive.nodup⟩)
      · intro other announced
        rcases List.mem_cons.mp (perm.mem_iff.mp announced) with rfl | before
        · exact .inr ⟨rfl, inside, congrArg (Worker.mk .waiting) unqueued⟩
        · exact .inl ⟨fun same => absent (same ▸ before), before⟩
      · simp only [Worker.tasks, unqueued, List.length_nil, Nat.zero_le]
      · exact fun _ => rfl
  | receive threadNum task queue inside waiting =>
      have single := exclusive.single threadNum
      rw [waiting] at single
      have last : queue = [] := List.eq_nil_of_length_eq_zero (by
        simp only [Worker.tasks, List.length_cons] at single
        omega)
      have absent : threadNum ∉ pool.numbers := by
        apply exclusive.not_mem_numbers
        intro idle
        rw [idle] at waiting
        cases waiting
      exact exclusive.away absent _ rfl rfl rfl single fun nonempty => absurd last nonempty
  | finish threadNum task result inside processing unharmed =>
      obtain ⟨absent, unqueued⟩ := exclusive.active processing Phase.noConfusion
      refine exclusive.away absent _ rfl rfl rfl ?_ fun nonempty => absurd unqueued nonempty
      simp only [Worker.tasks, unqueued, List.length_nil, Nat.zero_le]
  | die threadNum task inside processing =>
      have absent := (exclusive.active processing Phase.noConfusion).1
      exact exclusive.away absent _ rfl rfl rfl (Nat.zero_le _) fun nonempty => absurd rfl nonempty

/-! ### Streams -/

/-- The streams that have been sent to workers. -/
def handedStreams (pool : Pool) : List Nat := pool.handed.map (·.2.stream)

/-- Every stream was sent at most once, and a worker has only streams that were sent
to it. -/
structure Delivered (pool : Pool) : Prop where
  nodup : pool.handedStreams.Nodup
  accepted : ∀ stream ∈ pool.handedStreams, stream < pool.accepted
  /-- The stream in the dispatcher's hands has not been sent yet. -/
  fresh : ∀ stream ∈ pool.dispatcher.stream,
    stream < pool.accepted ∧ stream ∉ pool.handedStreams
  owned : ∀ threadNum, ∀ task ∈ (pool.worker threadNum).tasks, (threadNum, task) ∈ pool.handed

/-- At first no stream has been sent. -/
theorem Delivered.spawned (numThreads : Nat) (alive : Nat → Bool) :
    Delivered (spawned numThreads alive) where
  nodup := List.nodup_nil
  accepted _ inside := absurd inside List.not_mem_nil
  fresh _ inside := absurd inside (Option.not_mem_none _)
  owned threadNum _ inside := by
    rw [tasks_spawned] at inside
    exact absurd inside List.not_mem_nil

/-- A step that sends nothing. -/
theorem Delivered.keep {pool next : Pool} (delivered : Delivered pool)
    (sameHanded : next.handed = pool.handed) (more : pool.accepted ≤ next.accepted)
    (fresh : ∀ stream ∈ next.dispatcher.stream, stream ∈ pool.dispatcher.stream ∨
      stream = pool.accepted ∧ pool.accepted < next.accepted)
    (sameTasks : ∀ threadNum, ∀ task ∈ (next.worker threadNum).tasks,
      task ∈ (pool.worker threadNum).tasks) : Delivered next := by
  have sameStreams : next.handedStreams = pool.handedStreams := by
    rw [handedStreams, sameHanded, handedStreams]
  refine ⟨?_, ?_, ?_, ?_⟩
  · rw [sameStreams]
    exact delivered.nodup
  · intro stream inside
    rw [sameStreams] at inside
    exact Nat.lt_of_lt_of_le (delivered.accepted stream inside) more
  · intro stream current
    rw [sameStreams]
    rcases fresh stream current with before | ⟨rfl, larger⟩
    · obtain ⟨bound, absent⟩ := delivered.fresh stream before
      exact ⟨Nat.lt_of_lt_of_le bound more, absent⟩
    · exact ⟨larger, fun inside => Nat.lt_irrefl _ (delivered.accepted _ inside)⟩
  · intro threadNum task inside
    rw [sameHanded]
    exact delivered.owned threadNum task (sameTasks threadNum task inside)

/-- A worker that changes without receiving anything new. -/
theorem mem_tasks_of_setWorker {pool : Pool} {threadNum : Nat} {worker : Worker}
    (fewer : ∀ task ∈ worker.tasks, task ∈ (pool.worker threadNum).tasks) (other : Nat)
    (task : Task) (inside : task ∈ ((pool.setWorker threadNum worker).worker other).tasks) :
    task ∈ (pool.worker other).tasks := by
  by_cases same : other = threadNum
  · rw [same, setWorker_worker_self] at inside
    rw [same]
    exact fewer task inside
  · rwa [setWorker_worker_of_ne same] at inside

/-- Every step sends a stream at most once, to one worker. -/
theorem Delivered.step {pool next : Pool} {action : Action} (exclusive : Exclusive pool)
    (delivered : Delivered pool) (transition : Transition pool action next) : Delivered next := by
  cases transition with
  | acceptOk at_ =>
      refine delivered.keep rfl (Nat.le_succ _) (fun stream current => .inr ?_)
        fun _ _ inside => inside
      cases current
      exact ⟨rfl, Nat.lt_succ_self _⟩
  | acceptError error at_ =>
      exact delivered.keep rfl (Nat.le_refl _) (fun _ current => nomatch current)
        fun _ _ inside => inside
  | recv stream threadNum ready at_ announced =>
      refine delivered.keep rfl (Nat.le_refl _) (fun _ current => .inl ?_) fun _ _ inside => inside
      rw [at_]
      exact current
  | drain stream threadNum drained thread ready at_ announced =>
      refine delivered.keep rfl (Nat.le_refl _) (fun _ current => .inl ?_) fun _ _ inside => inside
      rw [at_]
      exact current
  | drained stream threadNum drained at_ announced =>
      refine delivered.keep rfl (Nat.le_refl _) (fun _ current => .inl ?_) fun _ _ inside => inside
      rw [at_]
      exact current
  | resend stream threadNum overloaded thread drained at_ =>
      refine delivered.keep rfl (Nat.le_refl _) (fun _ current => .inl ?_) fun _ _ inside => inside
      rw [at_]
      exact current
  | handOver stream threadNum overloaded at_ inside alive =>
      obtain ⟨bound, absent⟩ := delivered.fresh stream (by rw [at_]; rfl)
      have idle := (exclusive.target_idle at_).2
      refine ⟨?_, ?_, ?_, ?_⟩
      · simp only [handedStreams, List.map_append, List.map_cons, List.map_nil]
        apply List.Nodup.append delivered.nodup (List.nodup_singleton stream)
        exact List.disjoint_singleton.mpr absent
      · intro other sent
        simp only [handedStreams, List.map_append, List.map_cons, List.map_nil, List.mem_append,
          List.mem_singleton] at sent
        rcases sent with before | rfl
        · exact delivered.accepted other before
        · exact bound
      · intro other current
        cases current
      · intro other task received
        by_cases same : other = threadNum
        · subst same
          rw [setWorker_worker_self, idle] at received
          cases List.mem_singleton.mp received
          exact List.mem_append_right _ List.mem_cons_self
        · rw [setWorker_worker_of_ne same] at received
          exact List.mem_append_left _ (delivered.owned other task received)
  | giveUp stream threadNum overloaded at_ failed =>
      exact delivered.keep rfl (Nat.le_refl _) (fun _ current => nomatch current)
        fun _ _ inside => inside
  | announce threadNum inside announcing =>
      refine delivered.keep rfl (Nat.le_refl _) (fun _ current => .inl current)
        (mem_tasks_of_setWorker fun task received => ?_)
      exact (Worker.queue_sublist_tasks _).subset received
  | receive threadNum task queue inside waiting =>
      refine delivered.keep rfl (Nat.le_refl _) (fun _ current => .inl current)
        (mem_tasks_of_setWorker fun task received => ?_)
      rw [waiting]
      exact received
  | finish threadNum task result inside processing unharmed =>
      refine delivered.keep rfl (Nat.le_refl _) (fun _ current => .inl current)
        (mem_tasks_of_setWorker fun task received => ?_)
      exact (Worker.queue_sublist_tasks _).subset received
  | die threadNum task inside processing =>
      exact delivered.keep rfl (Nat.le_refl _) (fun _ current => .inl current)
        (mem_tasks_of_setWorker fun _ received => nomatch received)

end Pool

open Pool

/-- Both invariants hold of every reachable pool. -/
theorem pool_invariant {numThreads : Nat} {alive : Nat → Bool} {pool : Pool}
    (reachable : (poolSystem numThreads alive).Reachable pool) :
    Exclusive pool ∧ Delivered pool := by
  refine reachable.invariant (fun pool => Exclusive pool ∧ Delivered pool) ?_ ?_
  · rintro pool rfl
    exact ⟨.spawned numThreads alive, .spawned numThreads alive⟩
  · rintro pool action next ⟨exclusive, delivered⟩ step
    exact ⟨exclusive.step (step_cases step), delivered.step exclusive (step_cases step)⟩

/-- **Exclusive use.** A worker number is in one place at most. A stream is handed to
an idle worker that `threads` has, no stream is handed over twice, a worker only has
streams that were handed to it, and never two of them. -/
theorem pool_exclusive {numThreads : Nat} {alive : Nat → Bool} {pool : Pool}
    (reachable : (poolSystem numThreads alive).Reachable pool) :
    (∀ threadNum, pool.occurrences threadNum ≤ 1) ∧
      (∀ stream threadNum overloaded drained,
        pool.dispatcher = .resending stream threadNum overloaded drained →
          pool.thread? threadNum = some ⟨.waiting, []⟩) ∧
      pool.handedStreams.Nodup ∧
      (∀ threadNum, ∀ task ∈ (pool.worker threadNum).tasks, (threadNum, task) ∈ pool.handed) ∧
      ∀ threadNum, (pool.worker threadNum).tasks.length ≤ 1 := by
  obtain ⟨exclusive, delivered⟩ := pool_invariant reachable
  refine ⟨exclusive.occurrences_le, ?_, delivered.nodup, delivered.owned, exclusive.single⟩
  intro stream threadNum overloaded drained dispatching
  obtain ⟨inside, idle⟩ := exclusive.target_idle dispatching
  rw [thread?_of_lt inside, idle]

/-- The rule holds of a single worker that has been handed the first connection. -/
theorem pool_exclusive_first : ∃ pool : Pool,
    pool.dispatcher = .accepting ∧ pool.worker 0 = ⟨.waiting, [⟨0, true⟩]⟩ ∧
      (∀ threadNum, pool.occurrences threadNum ≤ 1) ∧
      (∀ stream threadNum overloaded drained,
        pool.dispatcher = .resending stream threadNum overloaded drained →
          pool.thread? threadNum = some ⟨.waiting, []⟩) ∧
      pool.handedStreams.Nodup ∧
      (∀ threadNum, ∀ task ∈ (pool.worker threadNum).tasks, (threadNum, task) ∈ pool.handed) ∧
      ∀ threadNum, (pool.worker threadNum).tasks.length ≤ 1 := by
  have start : (poolSystem 1 fun _ => true).Reachable (spawned 1 fun _ => true) := .start rfl
  exact ⟨_, rfl, rfl, pool_exclusive (start.foldlM
    [.announce 0, .accept (.ok ()), .dispatch, .dispatch, .dispatch] rfl)⟩

end RustHttpServer
