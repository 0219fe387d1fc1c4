import RustHttpServer.Host.Site
import RustHttpServer.Host.Work
import RustHttpServer.Pool.Exclusive

/-!
# The load of the pool

With every stream goes a flag that says whether the pool is overloaded, which is how
a heartbeat is answered. The dispatcher takes the number of the worker that is to get
the stream from the ready channel, and calls the pool overloaded if it then finds the
channel empty. So one ready worker is not enough: the flag is set exactly when a
single number was in the channel at the time of the accept or came into it before the
channel was found empty (`Watched`).

The flag thus means that no worker was ready exactly in the runs in which a
connection that finds a single worker ready is joined by another one in time
(`overloaded_unready_iff`). In a pool of one worker it is always set, and while all of
two or more workers are ready it is not (`overloaded_of_single`, `available_of_all_ready`).
-/

namespace RustHttpServer

open Foundation

namespace Pool

/-! ### What happens until the ready channel is found empty -/

/-- The dispatcher finds the ready channel empty. -/
def findsEmpty : Pool × Action → Bool
  | (pool, .dispatch) =>
      match pool.dispatcher, pool.ready with
      | .draining _ _ _, [] => true
      | _, _ => false
  | _ => false

/-- A worker announces itself. -/
def announces : Pool × Action → Bool
  | (_, .announce _) => true
  | _ => false

/-- The number of announcements among some steps before the ready channel is found
empty. -/
def announcements (steps : List (Pool × Action)) : Nat :=
  (steps.takeWhile fun step => !findsEmpty step).countP announces

/-- The channel has not been found empty, and so many numbers have been in it. -/
def Counted (before : Pool) (later : List (Pool × Action)) (count : Nat) : Prop :=
  later.any findsEmpty = false ∧ count = before.ready.length + announcements later

/-- The channel has been found empty, and the flag says whether just one number has
been in it. -/
def Settled (before : Pool) (later : List (Pool × Action)) (overloaded : Bool) : Prop :=
  later.any findsEmpty = true ∧
    (overloaded = true ↔ before.ready.length + announcements later = 1)

private theorem announcements_of_open {steps : List (Pool × Action)}
    (unemptied : steps.any findsEmpty = false) : announcements steps = steps.countP announces := by
  rw [announcements, List.takeWhile_eq_self_iff.mpr]
  simpa using unemptied

private theorem announcements_append_of_closed {steps : List (Pool × Action)}
    (emptied : steps.any findsEmpty = true) (step : Pool × Action) :
    announcements (steps ++ [step]) = announcements steps := by
  rw [announcements, announcements, List.takeWhile_append, if_neg]
  intro whole
  obtain ⟨found, inside, empty⟩ := List.any_eq_true.mp emptied
  have same := (List.takeWhile_prefix fun step => !findsEmpty step).eq_of_length whole
  have missed := List.takeWhile_eq_self_iff.mp same found inside
  rw [empty] at missed
  cases missed

variable {before : Pool} {later : List (Pool × Action)} {taken : Pool × Action} {count : Nat}
  {overloaded : Bool}

/-- At first the numbers in the channel are those that were there. -/
theorem Counted.start (before : Pool) : Counted before [] before.ready.length := ⟨rfl, rfl⟩

/-- A step counts if it announces a worker. -/
theorem Counted.append (counted : Counted before later count)
    (unemptied : findsEmpty taken = false) :
    Counted before (later ++ [taken]) (count + if announces taken then 1 else 0) := by
  obtain ⟨missed, counted⟩ := counted
  have still : (later ++ [taken]).any findsEmpty = false := by
    rw [List.any_append, missed, List.any_cons, unemptied, List.any_nil, Bool.or_self]
    rfl
  refine ⟨still, ?_⟩
  rw [counted, announcements_of_open still, announcements_of_open missed, List.countP_append,
    List.countP_singleton, Nat.add_assoc]

/-- The dispatcher sets the flag when one number was all there was. -/
theorem Counted.settle (counted : Counted before later (count + 1))
    (empty : findsEmpty taken = true) : Settled before (later ++ [taken]) (count == 0) := by
  obtain ⟨missed, counted⟩ := counted
  have unchanged : announcements (later ++ [taken]) = announcements later := by
    rw [announcements_of_open missed, announcements, List.takeWhile_append_of_pos]
    · rw [List.takeWhile_cons_of_neg, List.append_nil]
      rw [empty]
      exact Bool.false_ne_true
    · simpa using missed
  refine ⟨?_, ?_⟩
  · rw [List.any_append, List.any_cons, empty, Bool.true_or, Bool.or_true]
  · rw [unchanged, beq_iff_eq]
    omega

/-- Once the channel has been found empty, further steps change nothing. -/
theorem Settled.append (settled : Settled before later overloaded) (step : Pool × Action) :
    Settled before (later ++ [step]) overloaded := by
  obtain ⟨emptied, flag⟩ := settled
  refine ⟨?_, ?_⟩
  · rw [List.any_append, emptied, Bool.true_or]
  · rw [announcements_append_of_closed emptied]
    exact flag

/-! ### What becomes of a connection -/

/-- The numbers that have been in the channel are counted as the dispatcher takes them. -/
def Pending (before : Pool) (later : List (Pool × Action)) (pool : Pool) : Dispatcher → Prop
  | .accepting => True
  | .receiving stream =>
      stream = .ok before.accepted → Counted before later pool.ready.length
  | .draining stream _ drained =>
      stream = .ok before.accepted →
        Counted before later (pool.ready.length + drained.length + 1)
  | .resending stream _ overloaded _ =>
      stream = .ok before.accepted → Settled before later overloaded

/-- The steps since a connection was accepted determine the flag that is handed over with
it. -/
structure Watched (before : Pool) (later : List (Pool × Action)) (pool : Pool) : Prop where
  accepted : before.accepted < pool.accepted
  pending : Pending before later pool pool.dispatcher
  handed : ∀ threadNum overloaded, (threadNum, ⟨before.accepted, overloaded⟩) ∈ pool.handed →
    Settled before later overloaded

variable {pool next : Pool}

/-- A stream is watched from when it is accepted. -/
theorem Watched.start {pool : Pool} (delivered : Delivered pool) :
    Watched pool [] { pool with
      dispatcher := .receiving (.ok pool.accepted), accepted := pool.accepted + 1 } where
  accepted := Nat.lt_succ_self _
  pending _ := .start pool
  handed threadNum overloaded inside := by
    have before := delivered.accepted pool.accepted (List.mem_map_of_mem inside)
    exact absurd before (Nat.lt_irrefl _)

/-- A step that hands nothing over. -/
theorem Watched.keep (watched : Watched before later pool) (step : Pool × Action)
    (sameHanded : next.handed = pool.handed) (more : pool.accepted ≤ next.accepted)
    (pending : Pending before (later ++ [step]) next next.dispatcher) :
    Watched before (later ++ [step]) next where
  accepted := Nat.lt_of_lt_of_le watched.accepted more
  pending := pending
  handed threadNum overloaded inside := by
    rw [sameHanded] at inside
    exact (watched.handed threadNum overloaded inside).append step

/-- A step of a worker, which may put its number into the ready channel. -/
theorem Pending.work {dispatcher : Dispatcher} (pending : Pending before later pool dispatcher)
    (unemptied : findsEmpty taken = false)
    (counted : next.ready.length = pool.ready.length + if announces taken then 1 else 0) :
    Pending before (later ++ [taken]) next dispatcher := by
  cases dispatcher with
  | accepting => trivial
  | receiving stream =>
      intro same
      rw [counted]
      exact (pending same).append unemptied
  | draining stream threadNum drained =>
      intro same
      have moved : next.ready.length + drained.length + 1 =
          pool.ready.length + drained.length + 1 + if announces taken then 1 else 0 := by omega
      rw [moved]
      exact (pending same).append unemptied
  | resending stream threadNum overloaded drained =>
      intro same
      exact (pending same).append taken

/-- Every step leaves a stream watched. -/
theorem Watched.step {action : Action} (watched : Watched before later pool)
    (transition : Transition pool action next) :
    Watched before (later ++ [(pool, action)]) next := by
  have pending := watched.pending
  cases transition with
  | acceptOk at_ =>
      refine watched.keep _ rfl (Nat.le_succ _) fun same => ?_
      exact absurd (Except.ok.inj same).symm watched.accepted.ne
  | acceptError error at_ =>
      refine watched.keep _ rfl (Nat.le_refl _) fun same => ?_
      cases same
  | recv stream threadNum ready at_ announced =>
      refine watched.keep _ rfl (Nat.le_refl _) fun same => ?_
      rw [at_] at pending
      have counted := pending same
      rw [announced] at counted
      refine counted.append ?_
      simp only [findsEmpty, at_]
  | drain stream threadNum drained thread ready at_ announced =>
      refine watched.keep _ rfl (Nat.le_refl _) fun same => ?_
      rw [at_] at pending
      have counted := pending same
      rw [announced, List.length_cons, Nat.add_right_comm _ 1] at counted
      rw [List.length_append]
      refine counted.append ?_
      simp only [findsEmpty, at_, announced]
  | drained stream threadNum drained at_ announced =>
      refine watched.keep _ rfl (Nat.le_refl _) fun same => ?_
      rw [at_] at pending
      have counted := pending same
      rw [announced, List.length_nil, Nat.zero_add] at counted
      refine counted.settle ?_
      simp only [findsEmpty, at_, announced]
  | resend stream threadNum overloaded thread drained at_ =>
      refine watched.keep _ rfl (Nat.le_refl _) fun same => ?_
      rw [at_] at pending
      exact (pending same).append _
  | handOver stream threadNum overloaded at_ inside alive =>
      refine ⟨watched.accepted, trivial, fun other flag handed => ?_⟩
      rcases List.mem_append.mp handed with before | last
      · exact (watched.handed other flag before).append _
      · rw [at_] at pending
        cases List.mem_singleton.mp last
        exact (pending rfl).append _
  | giveUp stream threadNum overloaded at_ failed =>
      exact watched.keep _ rfl (Nat.le_refl _) trivial
  | announce threadNum inside announcing =>
      refine watched.keep _ rfl (Nat.le_refl _) (pending.work rfl ?_)
      exact List.length_append
  | receive threadNum task queue inside waiting =>
      exact watched.keep _ rfl (Nat.le_refl _) (pending.work rfl rfl)
  | finish threadNum task result inside processing unharmed =>
      exact watched.keep _ rfl (Nat.le_refl _) (pending.work rfl rfl)
  | die threadNum task inside processing =>
      exact watched.keep _ rfl (Nat.le_refl _) (pending.work rfl rfl)

/-- A connection is accepted in a state of a run; some steps are taken afterwards. -/
def AcceptedIn (steps : List (Pool × Action)) (before : Pool) (later : List (Pool × Action)) :
    Prop :=
  ∃ earlier, steps = earlier ++ (before, .accept (.ok ())) :: later

/-- A stream that a step accepts is accepted in the run. -/
theorem AcceptedIn.append (earlier : List (Pool × Action)) (before : Pool)
    (later : List (Pool × Action)) :
    AcceptedIn (earlier ++ [(before, .accept (.ok ()))] ++ later) before later :=
  ⟨earlier, List.append_assoc ..⟩

/-- Every connection that a run has accepted is watched. -/
theorem watched_of_run {numThreads : Nat} {alive : Nat → Bool} {steps : List (Pool × Action)}
    {pool : Pool} (run : (poolSystem numThreads alive).Run steps pool) :
    ∀ before later, AcceptedIn steps before later → Watched before later pool := by
  refine run.invariant (fun steps pool =>
    ∀ before later, AcceptedIn steps before later → Watched before later pool) ?_ ?_
  · rintro pool - before later ⟨earlier, split⟩
    exact absurd split.symm (List.append_ne_nil_of_right_ne_nil _ (List.cons_ne_nil _ _))
  · rintro steps pool action next run ih step before later ⟨earlier, split⟩
    rcases List.eq_nil_or_concat later with rfl | ⟨later, last, rfl⟩
    · obtain ⟨-, same⟩ := List.append_inj' split rfl
      cases same
      have transition := step_cases step
      cases transition with
      | acceptOk at_ => exact .start (pool_invariant run.reachable).2
    · rw [List.concat_eq_append] at split ⊢
      rw [← List.cons_append, ← List.append_assoc] at split
      obtain ⟨whole, same⟩ := List.append_inj' split rfl
      cases same
      exact (ih before later ⟨earlier, whole⟩).step (step_cases step)

/-- **The flag, exactly.** A connection is handed over as overloaded when just one number
has been in the ready channel between its accept and the moment at which the channel is
found empty. -/
theorem overloaded_iff {numThreads : Nat} {alive : Nat → Bool} {steps : List (Pool × Action)}
    {pool : Pool} (run : (poolSystem numThreads alive).Run steps pool)
    {later : List (Pool × Action)} {before : Pool} (accepted : AcceptedIn steps before later)
    {threadNum : Nat} {overloaded : Bool}
    (handed : (threadNum, ⟨before.accepted, overloaded⟩) ∈ pool.handed) :
    overloaded = true ↔ before.ready.length + announcements later = 1 :=
  ((watched_of_run run before later accepted).handed threadNum overloaded handed).2

/-- Of two ready workers one is left. -/
theorem not_overloaded_of_two_ready {numThreads : Nat} {alive : Nat → Bool}
    {steps : List (Pool × Action)} {pool : Pool}
    (run : (poolSystem numThreads alive).Run steps pool)
    {later : List (Pool × Action)} {before : Pool} (accepted : AcceptedIn steps before later)
    (two : 2 ≤ before.ready.length) {threadNum : Nat} {overloaded : Bool}
    (handed : (threadNum, ⟨before.accepted, overloaded⟩) ∈ pool.handed) : overloaded = false := by
  apply Bool.eq_false_iff.mpr
  intro flagged
  have single := (overloaded_iff run accepted handed).mp flagged
  omega

/-! ### One worker -/

/-- The only worker is the one that the stream is for, so none is left. -/
structure Lonely (pool : Pool) : Prop where
  size : pool.size = 1
  resending : ∀ stream threadNum overloaded drained,
    pool.dispatcher = .resending stream threadNum overloaded drained → overloaded = true
  handed : ∀ sent ∈ pool.handed, sent.2.overloaded = true

/-- With one worker nothing is drained from the channel. -/
private theorem Lonely.drained_eq_nil {pool : Pool} (lonely : Lonely pool)
    (exclusive : Exclusive pool)
    {stream : Except IoError Nat} {threadNum : Nat} {drained : List Nat}
    (at_ : pool.dispatcher = .draining stream threadNum drained) : drained = [] := by
  have nodup := exclusive.nodup
  have inside := exclusive.idle
  rw [numbers, at_, Dispatcher.held] at nodup inside
  rw [lonely.size] at inside
  have first := (inside threadNum (List.mem_append_right _ List.mem_cons_self)).1
  cases drained with
  | nil => rfl
  | cons thread drained =>
      have second := (inside thread
        (List.mem_append_right _ (List.mem_cons_of_mem _ List.mem_cons_self))).1
      have distinct := (List.nodup_cons.mp nodup.of_append_right).1
      exact absurd List.mem_cons_self ((by omega : threadNum = thread) ▸ distinct)

/-- Every step leaves the only worker alone. -/
theorem Lonely.step {pool next : Pool} {action : Action} (lonely : Lonely pool)
    (exclusive : Exclusive pool) (transition : Transition pool action next) : Lonely next := by
  cases transition with
  | drained stream threadNum drained at_ announced =>
      refine ⟨lonely.size, fun _ _ _ _ resending => ?_, lonely.handed⟩
      cases resending
      rw [lonely.drained_eq_nil exclusive at_]
      rfl
  | resend stream threadNum overloaded thread drained at_ =>
      refine ⟨lonely.size, fun _ _ _ _ resending => ?_, lonely.handed⟩
      cases resending
      exact lonely.resending _ _ _ _ at_
  | handOver stream threadNum overloaded at_ inside alive =>
      refine ⟨lonely.size, fun _ _ _ _ resending => ?_, fun sent handed => ?_⟩
      · cases resending
      · rcases List.mem_append.mp handed with before | last
        · exact lonely.handed sent before
        · rw [List.mem_singleton.mp last]
          exact lonely.resending _ _ _ _ at_
  | announce | receive | finish | die =>
      exact ⟨lonely.size, lonely.resending, lonely.handed⟩
  | acceptOk | acceptError | recv | drain | giveUp =>
      refine ⟨lonely.size, fun _ _ _ _ resending => ?_, lonely.handed⟩
      cases resending

/-! ### The meaning of the flag -/

/-- There are workers, and every one is idle and has its number in the ready channel. -/
def AllReady (pool : Pool) : Prop :=
  0 < pool.size ∧
    ∀ threadNum < pool.size, pool.worker threadNum = ⟨.waiting, []⟩ ∧ threadNum ∈ pool.ready

/-- What the flag is for: a connection is handed over as overloaded only if no worker was
ready when it was accepted. So a heartbeat that finds all workers ready is not answered as
one of an overloaded server. -/
structure MeansUnready (chrono : Chrono) (steps : List (Pool × Action)) (pool : Pool) : Prop where
  unready : ∀ before later, AcceptedIn steps before later → ∀ threadNum,
    (threadNum, ⟨before.accepted, true⟩) ∈ pool.handed → before.ready = []
  available : ∀ before later, AcceptedIn steps before later → AllReady before →
    ∀ threadNum overloaded, (threadNum, ⟨before.accepted, overloaded⟩) ∈ pool.handed →
      ∀ (host : Host) (world : World chrono) (request : Request),
        request.header.requestLine.method = .get →
          request.header.requestLine.requestPath = "/load".toList →
            ∀ response final accesses,
              host.handle world request overloaded = (.ok response, final, accesses) →
                response.header.statusLine.statusCode ≠ .serviceUnavailable

/-- When a connection that is handed over was accepted with a single number in the ready
channel, a worker announces itself before the channel is found empty. -/
def JoinedInTime (steps : List (Pool × Action)) (pool : Pool) : Prop :=
  ∀ before later, AcceptedIn steps before later → before.accepted ∈ pool.handedStreams →
    before.ready.length = 1 → 0 < announcements later

private theorem AllReady.ready_ne_nil {pool : Pool} (all : AllReady pool) : pool.ready ≠ [] :=
  List.ne_nil_of_mem (all.2 0 all.1).2

private theorem AllReady.two_le_length {pool : Pool} (all : AllReady pool) (two : 2 ≤ pool.size) :
    2 ≤ pool.ready.length := by
  have first := (all.2 0 (by omega)).2
  have second := (all.2 1 (by omega)).2
  have inside : [0, 1] ⊆ pool.ready :=
    List.cons_subset.mpr ⟨first, List.cons_subset.mpr ⟨second, List.nil_subset _⟩⟩
  have distinct : [0, 1].Nodup := by decide
  exact (distinct.subperm inside).length_le

end Pool

open Pool

/-- A pool of one worker hands over every connection as overloaded. -/
theorem overloaded_of_single {alive : Nat → Bool} {pool : Pool}
    (reachable : (poolSystem 1 alive).Reachable pool) {threadNum : Nat} {task : Task}
    (handed : (threadNum, task) ∈ pool.handed) : task.overloaded = true := by
  have lonely : Exclusive pool ∧ Lonely pool := by
    refine reachable.invariant (fun pool => Exclusive pool ∧ Lonely pool) ?_ ?_
    · rintro pool rfl
      refine ⟨.spawned 1 alive, rfl, fun _ _ _ _ resending => ?_, List.forall_mem_nil _⟩
      cases resending
    · rintro pool action next ⟨exclusive, lonely⟩ step
      exact ⟨exclusive.step (step_cases step), lonely.step exclusive (step_cases step)⟩
  exact lonely.2.handed _ handed

/-- While all of two or more workers are ready, no heartbeat is answered as one of an
overloaded server. -/
theorem available_of_all_ready {chrono : Chrono} {numThreads : Nat} {alive : Nat → Bool}
    {steps later : List (Pool × Pool.Action)} {pool before : Pool}
    (run : (poolSystem numThreads alive).Run steps pool) (accepted : AcceptedIn steps before later)
    (all : AllReady before) (two : 2 ≤ before.size) {threadNum : Nat} {overloaded : Bool}
    (handed : (threadNum, ⟨before.accepted, overloaded⟩) ∈ pool.handed) {host : Host}
    {world : World chrono} {request : Request} (get : request.header.requestLine.method = .get)
    (load : request.header.requestLine.requestPath = "/load".toList) {response : Response}
    {final : Host} {accesses : List Access}
    (handled : host.handle world request overloaded = (.ok response, final, accesses)) :
    response.header.statusLine.statusCode ≠ .serviceUnavailable := by
  have unset := not_overloaded_of_two_ready run accepted (all.two_le_length two) handed
  rw [unset] at handled
  exact available_of_load get load handled

/-- **The meaning of the flag.** In a run the flag means that no worker was ready exactly
when every connection that found a single worker ready was joined by another one in time. -/
theorem overloaded_unready_iff (chrono : Chrono) {numThreads : Nat} {alive : Nat → Bool}
    {steps : List (Pool × Pool.Action)} {pool : Pool}
    (run : (poolSystem numThreads alive).Run steps pool) :
    MeansUnready chrono steps pool ↔ JoinedInTime steps pool := by
  constructor
  · intro means before later accepted handed single
    obtain ⟨⟨threadNum, stream, overloaded⟩, inside, same⟩ := List.mem_map.mp handed
    subst same
    by_contra unjoined
    have flagged : overloaded = true := (overloaded_iff run accepted inside).mpr (by omega)
    rw [flagged] at inside
    have unready := means.unready before later accepted threadNum inside
    rw [unready, List.length_nil] at single
    cases single
  · intro joined
    have flagged : ∀ before later, AcceptedIn steps before later → ∀ threadNum,
        (threadNum, ⟨before.accepted, true⟩) ∈ pool.handed → before.ready = [] := by
      intro before later accepted threadNum handed
      have counted := (overloaded_iff run accepted handed).mp rfl
      by_contra nonempty
      have some_ := List.length_pos_of_ne_nil nonempty
      have single : before.ready.length = 1 := by omega
      have more := joined before later accepted (List.mem_map_of_mem handed) single
      omega
    refine ⟨flagged, ?_⟩
    intro before later accepted all threadNum overloaded handed host world request get load
      response final accesses handled
    cases overloaded with
    | true => exact absurd (flagged before later accepted threadNum handed) all.ready_ne_nil
    | false => exact available_of_load get load handled

/-- Two workers announce themselves, and a connection is handed to the first of them. -/
theorem overloaded_unready_iff_two : ∃ (steps : List (Pool × Pool.Action)) (pool : Pool),
    steps.map Prod.snd = [.announce 0, .announce 1, .accept (.ok ()), .dispatch, .dispatch,
      .dispatch, .dispatch, .dispatch] ∧ pool.handed = [(0, ⟨0, false⟩)] ∧
    (MeansUnready gregorian steps pool ↔ JoinedInTime steps pool) := by
  have start : (poolSystem 2 fun _ => true).Run [] (spawned 2 fun _ => true) := .start rfl
  obtain ⟨steps, taken, run⟩ := start.foldlM [.announce 0, .announce 1, .accept (.ok ()),
    .dispatch, .dispatch, .dispatch, .dispatch, .dispatch] rfl
  exact ⟨steps, _, taken, rfl, overloaded_unready_iff gregorian run⟩

/-- The only worker is idle and has announced itself when a connection is accepted. It is
handed over as overloaded, and a heartbeat on it is answered so. -/
theorem overloaded_ready_single : ∃ (steps later : List (Pool × Pool.Action)) (pool before : Pool),
    (poolSystem 1 fun _ => true).Run steps pool ∧ AcceptedIn steps before later ∧
    steps.map Prod.snd = [.announce 0, .accept (.ok ()), .dispatch, .dispatch, .dispatch] ∧
    AllReady before ∧ before.ready = [0] ∧ before.accepted = 0 ∧
    pool.handed = [(0, ⟨0, true⟩)] ∧
    ((Site.host.handle Site.world (Site.get "/load") true).1.toOption.map fun response =>
      response.header.statusLine.statusCode) = some .serviceUnavailable ∧
    ¬MeansUnready gregorian steps pool := by
  have start : (poolSystem 1 fun _ => true).Run [] (spawned 1 fun _ => true) := .start rfl
  obtain ⟨first, announced, run⟩ := start.foldlM [.announce 0] rfl
  have accepted := run.step (show step? _ (.accept (.ok ())) = some _ from rfl)
  obtain ⟨rest, dispatched, run⟩ := accepted.foldlM [.dispatch, .dispatch, .dispatch] rfl
  refine ⟨_, rest, _, _, run, .append .., ?_, ?_, rfl, rfl, rfl, ?_, ?_⟩
  · simp only [List.map_append, announced, dispatched]
    rfl
  · refine ⟨Nat.zero_lt_one, fun threadNum inside => ?_⟩
    cases Nat.lt_one_iff.mp inside
    exact ⟨rfl, List.mem_cons_self⟩
  · decide +kernel
  · intro means
    have unready := means.unready _ rest (.append ..) 0 List.mem_cons_self
    cases unready

end RustHttpServer
