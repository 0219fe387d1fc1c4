import RustHttpServer.Pool.Exclusive

/-!
# Conservation of workers

A worker is accounted for while it is about to announce itself, while its number is
in the ready channel or in the dispatcher's hands, and while it has a stream. The
dispatcher takes a number before it knows that it has a stream: when accepting
failed, the number is lost at the hand-over, and its worker waits for ever. A
worker is also lost when it panics, be it before it has announced itself for the
first time. These are the only ways (`pool_conserved_iff`).
-/

namespace RustHttpServer

open Foundation

namespace Pool

/-- The worker will announce itself, can be given a stream or has one. -/
def Accounted (pool : Pool) (threadNum : Nat) : Prop :=
  (pool.worker threadNum).phase = .announcing ∨ threadNum ∈ pool.numbers ∨
    (pool.worker threadNum).tasks ≠ []

/-- The dispatcher waits in `recv_ready.recv()`, and no worker has a stream or is about
to announce itself. -/
def Starved (pool : Pool) : Prop :=
  (∃ stream, pool.dispatcher = .receiving stream) ∧ pool.ready = [] ∧
    ∀ threadNum < pool.size,
      (pool.worker threadNum).phase ≠ .announcing ∧ (pool.worker threadNum).tasks = []

/-- Every worker is accounted for, and the dispatcher is not blocked for ever. -/
structure Conserved (pool : Pool) : Prop where
  accounted : ∀ threadNum < pool.size, pool.Accounted threadNum
  served : ¬pool.Starved

/-- The steps that lose no worker: no hand-over follows a failed accept, and no worker
panics. Without any worker, what is first accepted already blocks the dispatcher. -/
def Unharmed (pool : Pool) : Action → Prop
  | .accept _ => 0 < pool.size
  | .dispatch => ∀ error threadNum overloaded,
      pool.dispatcher ≠ .resending (.error error) threadNum overloaded []
  | .finish _ result => result ≠ .abort
  | .announce _ | .receive _ => True

private theorem numbers_of_receiving {pool : Pool} {stream : Except IoError Nat}
    (receiving : pool.dispatcher = .receiving stream) : pool.numbers = pool.ready := by
  rw [numbers, receiving, Dispatcher.held, List.append_nil]

private theorem mem_numbers_of_held {pool : Pool} {dispatcher : Dispatcher} {threadNum : Nat}
    (at_ : pool.dispatcher = dispatcher) (held : threadNum ∈ dispatcher.held) :
    threadNum ∈ pool.numbers := by
  rw [numbers, at_]
  exact List.mem_append_right _ held

private theorem unharmed_dispatch {pool : Pool} {dispatcher : Dispatcher}
    (at_ : pool.dispatcher = dispatcher) (sound : ∀ error threadNum overloaded,
      dispatcher ≠ .resending (.error error) threadNum overloaded []) :
    Unharmed pool .dispatch := by
  intro error threadNum overloaded dispatching
  exact sound error threadNum overloaded (at_.symm.trans dispatching)

/-- While every worker is accounted for, and there is one, the dispatcher is served. -/
theorem Conserved.of_accounted {pool : Pool} (inhabited : 0 < pool.size)
    (accounted : ∀ threadNum < pool.size, pool.Accounted threadNum) : Conserved pool where
  accounted := accounted
  served := by
    rintro ⟨⟨stream, receiving⟩, unannounced, idle⟩
    obtain ⟨silent, finished⟩ := idle 0 inhabited
    rcases accounted 0 inhabited with announcing | inside | busy
    · exact silent announcing
    · rw [numbers_of_receiving receiving, unannounced] at inside
      exact List.not_mem_nil inside
    · exact busy finished

/-- At the start just the workers that are dead are not accounted for. -/
theorem accounted_spawned_iff {numThreads : Nat} {alive : Nat → Bool} {threadNum : Nat} :
    (spawned numThreads alive).Accounted threadNum ↔ alive threadNum = true := by
  rw [Accounted, tasks_spawned]
  constructor
  · rintro (announcing | inside | busy)
    · by_contra dead
      rw [spawned] at announcing
      dsimp only at announcing
      rw [if_neg dead] at announcing
      cases announcing
    · exact absurd inside List.not_mem_nil
    · exact absurd rfl busy
  · exact fun living => .inl (if_pos living)

/-- At first every worker is there if every one gets as far as to announce itself. -/
theorem conserved_spawned_iff {numThreads : Nat} {alive : Nat → Bool} :
    Conserved (spawned numThreads alive) ↔ ∀ threadNum < numThreads, alive threadNum = true := by
  constructor
  · exact fun conserved threadNum inside =>
      accounted_spawned_iff.mp (conserved.accounted threadNum inside)
  · intro living
    refine ⟨fun threadNum inside => accounted_spawned_iff.mpr (living threadNum inside), ?_⟩
    rintro ⟨⟨stream, receiving⟩, -⟩
    cases receiving

/-- A step that changes no worker and loses no number. -/
theorem Accounted.move {pool next : Pool} {threadNum : Nat} (accounted : pool.Accounted threadNum)
    (sameWorkers : next.worker = pool.worker) (moved : ∀ number ∈ pool.numbers,
      number ∈ next.numbers) : next.Accounted threadNum := by
  rw [Accounted, sameWorkers]
  rcases accounted with announcing | inside | busy
  · exact .inl announcing
  · exact .inr (.inl (moved threadNum inside))
  · exact .inr (.inr busy)

/-- A step of one worker that is accounted for afterwards. -/
theorem Accounted.work {pool next : Pool} {threadNum other : Nat} {worker : Worker}
    (accounted : pool.Accounted other)
    (worked : next.worker = (pool.setWorker threadNum worker).worker)
    (kept : ∀ number ∈ pool.numbers, number ≠ threadNum → number ∈ next.numbers)
    (still : next.Accounted threadNum) : next.Accounted other := by
  by_cases same : other = threadNum
  · rw [same]
    exact still
  · rw [Accounted, worked, setWorker_worker_of_ne same]
    rcases accounted with announcing | inside | busy
    · exact .inl announcing
    · exact .inr (.inl (kept other inside same))
    · exact .inr (.inr busy)

/-- A worker without a number and a stream that is not about to announce itself. -/
theorem not_accounted {pool : Pool} {threadNum : Nat} (absent : threadNum ∉ pool.numbers)
    (silent : (pool.worker threadNum).phase ≠ .announcing)
    (finished : (pool.worker threadNum).tasks = []) : ¬pool.Accounted threadNum := by
  rintro (announcing | inside | busy)
  · exact silent announcing
  · exact absent inside
  · exact busy finished

/-- Giving up a hand-over loses the worker that was to be handed the stream. -/
theorem lost_of_giveUp {pool : Pool} (exclusive : Exclusive pool) {stream : Except IoError Nat}
    {threadNum : Nat} {overloaded : Bool}
    (at_ : pool.dispatcher = .resending stream threadNum overloaded []) :
    ¬({ pool with dispatcher := .accepting } : Pool).Accounted threadNum := by
  obtain ⟨-, idle⟩ := exclusive.target_idle at_
  have nodup := exclusive.nodup
  rw [numbers, at_] at nodup
  refine not_accounted ?_ ?_ ?_
  · rw [numbers, Dispatcher.held, List.append_nil]
    intro announced
    exact List.disjoint_of_nodup_append nodup announced List.mem_cons_self
  · rw [idle]
    exact Phase.noConfusion
  · rw [idle]
    rfl

/-- A step that changes no worker and loses no number keeps all in order. -/
theorem Conserved.move {pool next : Pool} (conserved : Conserved pool) (inhabited : 0 < pool.size)
    (sameSize : next.size = pool.size) (sameWorkers : next.worker = pool.worker)
    (moved : ∀ number ∈ pool.numbers, number ∈ next.numbers) : Conserved next := by
  refine .of_accounted (by rwa [sameSize]) fun threadNum inside => ?_
  rw [sameSize] at inside
  exact (conserved.accounted threadNum inside).move sameWorkers moved

/-- So does a step of one worker that is accounted for afterwards. -/
theorem Conserved.work {pool next : Pool} (conserved : Conserved pool) {threadNum : Nat}
    {worker : Worker} (inside : threadNum < pool.size) (sameSize : next.size = pool.size)
    (worked : next.worker = (pool.setWorker threadNum worker).worker)
    (kept : ∀ number ∈ pool.numbers, number ≠ threadNum → number ∈ next.numbers)
    (still : next.Accounted threadNum) : Conserved next := by
  refine .of_accounted (sameSize ▸ Nat.zero_lt_of_lt inside) fun other held => ?_
  rw [sameSize] at held
  exact (conserved.accounted other held).work worked kept still

/-- In an empty pool the first stream blocks the dispatcher. -/
theorem starved_of_empty {pool : Pool} (exclusive : Exclusive pool) (empty : pool.size = 0)
    {stream : Except IoError Nat} (receiving : pool.dispatcher = .receiving stream) :
    pool.Starved := by
  refine ⟨⟨stream, receiving⟩, ?_, fun threadNum inside => ?_⟩
  · apply List.eq_nil_iff_forall_not_mem.mpr
    intro threadNum announced
    have inside := (exclusive.idle threadNum (List.mem_append_left _ announced)).1
    omega
  · omega

/-- After an accept all is well when there is a worker to take what it yields. -/
theorem Conserved.accept_iff {pool next : Pool} (exclusive : Exclusive next)
    (conserved : Conserved pool) (at_ : pool.dispatcher = .accepting)
    (sameSize : next.size = pool.size) (sameWorkers : next.worker = pool.worker)
    (sameReady : next.ready = pool.ready) {stream : Except IoError Nat}
    (receiving : next.dispatcher = .receiving stream) :
    Conserved next ↔ 0 < pool.size := by
  constructor
  · intro after
    by_contra uninhabited
    exact after.served (starved_of_empty exclusive (by omega) receiving)
  · intro inhabited
    apply conserved.move inhabited sameSize sameWorkers
    intro number held
    rw [numbers, at_] at held
    rw [numbers, receiving, sameReady]
    exact held

/-- From a state in which all is well, exactly the unharmed steps lead to another. -/
theorem Conserved.step_iff {pool next : Pool} {action : Action} (exclusive : Exclusive pool)
    (conserved : Conserved pool) (transition : Transition pool action next) :
    Conserved next ↔ Unharmed pool action := by
  have inhabited : ∀ threadNum ∈ pool.numbers, 0 < pool.size := fun threadNum held =>
    Nat.zero_lt_of_lt (exclusive.idle threadNum held).1
  have exclusive' := exclusive.step transition
  cases transition with
  | acceptOk at_ => exact conserved.accept_iff exclusive' at_ rfl rfl rfl rfl
  | acceptError error at_ => exact conserved.accept_iff exclusive' at_ rfl rfl rfl rfl
  | recv stream threadNum ready at_ announced =>
      refine iff_of_true ?_ ?_
      · have held : threadNum ∈ pool.numbers := by
          rw [numbers, announced]
          exact List.mem_append_left _ List.mem_cons_self
        refine conserved.move (inhabited threadNum held) rfl rfl fun number held => ?_
        rw [numbers_of_receiving at_, announced] at held
        exact List.mem_append.mpr ((List.mem_cons.mp held).symm.imp id List.mem_singleton.mpr)
      · exact unharmed_dispatch at_ (by rintro _ _ _ ⟨⟩)
  | drain stream threadNum drained thread ready at_ announced =>
      refine iff_of_true ?_ ?_
      · have held := mem_numbers_of_held at_ List.mem_cons_self
        refine conserved.move (inhabited threadNum held) rfl rfl fun number held => ?_
        simp only [numbers, at_, announced, Dispatcher.held, List.mem_append, List.mem_cons,
          List.not_mem_nil] at held ⊢
        tauto
      · exact unharmed_dispatch at_ (by rintro _ _ _ ⟨⟩)
  | drained stream threadNum drained at_ announced =>
      refine iff_of_true ?_ ?_
      · have held := mem_numbers_of_held at_ List.mem_cons_self
        refine conserved.move (inhabited threadNum held) rfl rfl fun number held => ?_
        simpa only [numbers, at_, Dispatcher.held] using held
      · exact unharmed_dispatch at_ (by rintro _ _ _ ⟨⟩)
  | resend stream threadNum overloaded thread drained at_ =>
      refine iff_of_true ?_ ?_
      · have held := mem_numbers_of_held at_ List.mem_cons_self
        refine conserved.move (inhabited threadNum held) rfl rfl fun number held => ?_
        simp only [numbers, at_, Dispatcher.held, List.mem_append, List.mem_cons,
          List.not_mem_nil] at held ⊢
        tauto
      · exact unharmed_dispatch at_ (by rintro _ _ _ ⟨⟩)
  | handOver stream threadNum overloaded at_ inside alive =>
      refine iff_of_true ?_ ?_
      · refine conserved.work inside rfl rfl ?_ (.inr (.inr ?_))
        · intro number held distinct
          simp only [numbers, at_, Dispatcher.held, List.mem_append, List.mem_singleton] at held
          exact List.mem_append_left _ (held.resolve_right distinct)
        · rw [setWorker_worker_self, (exclusive.target_idle at_).2]
          exact List.cons_ne_nil _ _
      · exact unharmed_dispatch at_ (by rintro _ _ _ ⟨⟩)
  | giveUp stream threadNum overloaded at_ failed =>
      obtain ⟨inside, idle⟩ := exclusive.target_idle at_
      refine iff_of_false ?_ ?_
      · exact fun after => lost_of_giveUp exclusive at_ (after.accounted threadNum inside)
      · intro unharmed
        rcases failed with outside | missing | dead
        · omega
        · cases stream with
          | error error => exact unharmed error threadNum overloaded at_
          | ok stream => cases missing
        · rw [idle] at dead
          cases dead
  | announce threadNum inside announcing =>
      refine iff_of_true (conserved.work inside rfl rfl ?_ (.inr (.inl ?_))) trivial
      · intro number held _
        simp only [numbers, List.mem_append] at held ⊢
        exact held.imp_left .inl
      · simp only [numbers, List.mem_append, List.mem_singleton, or_true, true_or]
  | receive threadNum task queue inside waiting =>
      refine iff_of_true (conserved.work inside rfl rfl (fun _ held _ => held)
        (.inr (.inr ?_))) trivial
      rw [setWorker_worker_self]
      exact List.cons_ne_nil _ _
  | finish threadNum task result inside processing unharmed =>
      refine iff_of_true (conserved.work inside rfl rfl (fun _ held _ => held) (.inl ?_)) unharmed
      rw [setWorker_worker_self]
  | die threadNum task inside processing =>
      have absent := (exclusive.active processing Phase.noConfusion).1
      have lost : ¬(pool.setWorker threadNum ⟨.dead, []⟩).Accounted threadNum := by
        refine not_accounted absent ?_ ?_
        · rw [setWorker_worker_self]
          exact Phase.noConfusion
        · rw [setWorker_worker_self]
          rfl
      refine iff_of_false (fun after => ?_) fun unharmed => unharmed rfl
      exact lost (after.accounted threadNum inside)

end Pool

open Pool

/-- **Conservation of workers.** All is well in every state of a run exactly when no worker was
dead from the start, and every step of the run is unharmed. -/
theorem pool_conserved_iff {numThreads : Nat} {alive : Nat → Bool}
    {steps : List (Pool × Pool.Action)} {pool : Pool}
    (run : (poolSystem numThreads alive).Run steps pool) :
    ((∀ step ∈ steps, Conserved step.1) ∧ Conserved pool) ↔
      (∀ threadNum < numThreads, alive threadNum = true) ∧
        ∀ step ∈ steps, Unharmed step.1 step.2 := by
  refine run.invariant (fun steps pool => ((∀ step ∈ steps, Conserved step.1) ∧ Conserved pool) ↔
    (∀ threadNum < numThreads, alive threadNum = true) ∧
      ∀ step ∈ steps, Unharmed step.1 step.2) ?_ ?_
  · rintro pool rfl
    rw [conserved_spawned_iff, and_iff_right (List.forall_mem_nil _),
      and_iff_left (List.forall_mem_nil _)]
  · intro steps pool action next run ih step
    have exclusive := (pool_invariant run.reachable).1
    simp only [List.forall_mem_append, List.forall_mem_singleton]
    constructor
    · rintro ⟨⟨visited, last⟩, after⟩
      obtain ⟨living, unharmed⟩ := ih.mp ⟨visited, last⟩
      exact ⟨living, unharmed, (last.step_iff exclusive (step_cases step)).mp after⟩
    · rintro ⟨living, unharmed, last⟩
      have before := ih.mpr ⟨living, unharmed⟩
      exact ⟨before, (before.2.step_iff exclusive (step_cases step)).mpr last⟩

/-- The rule holds of a run in which the one request fails, while another worker is dead. -/
theorem pool_conserved_iff_request : ∃ (steps : List (Pool × Pool.Action)) (pool : Pool),
    steps.map Prod.snd = [.announce 0, .accept (.ok ()), .dispatch, .dispatch, .dispatch,
      .receive 0, .finish 0 .err] ∧
    (((∀ step ∈ steps, Conserved step.1) ∧ Conserved pool) ↔
      (∀ threadNum < 2, (threadNum == 0) = true) ∧ ∀ step ∈ steps, Unharmed step.1 step.2) := by
  have start : (poolSystem 2 (· == 0)).Run [] (spawned 2 (· == 0)) := .start rfl
  obtain ⟨steps, taken, run⟩ := start.foldlM [.announce 0, .accept (.ok ()), .dispatch, .dispatch,
    .dispatch, .receive 0, .finish 0 .err] rfl
  exact ⟨steps, _, taken, pool_conserved_iff run⟩

/-- A single worker is lost to one failed accept: it waits, its number is nowhere, and the
dispatcher waits for it with the next stream in hand. -/
theorem pool_not_conserved : ∃ pool : Pool, (poolSystem 1 fun _ => true).Reachable pool ∧
    pool.worker 0 = ⟨.waiting, []⟩ ∧ ¬pool.Accounted 0 ∧ pool.Starved := by
  have start : (poolSystem 1 fun _ => true).Reachable (spawned 1 fun _ => true) := .start rfl
  refine ⟨_, start.foldlM [.announce 0, .accept (.error ⟨.other, "reset"⟩), .dispatch, .dispatch,
    .dispatch, .accept (.ok ())] rfl, rfl, ?_, ⟨_, rfl⟩, rfl, ?_⟩
  · exact not_accounted List.not_mem_nil Phase.noConfusion rfl
  · intro threadNum inside
    cases Nat.lt_one_iff.mp inside
    exact ⟨Phase.noConfusion, rfl⟩

end RustHttpServer
