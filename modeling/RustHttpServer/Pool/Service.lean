import RustHttpServer.Pool.Progress
import RustHttpServer.Single

/-!
# The pool at work

The pool together with what its threads work on: the connections that are accepted, and the
handler that each worker has to itself. A worker processes a connection by `seq::process`; how that
ends is how the worker goes on.

The threads of a service move as those of a pool do, and each worker's handler is paid the visits
of the connections that the worker processes (`service_refines`). So when a service comes to rest
each connection that brings a request has been responded to by one of the handlers
(`service_answers`).
-/

namespace RustHttpServer

open Foundation Pool

/-- A connection that a worker processes, with the worker's handler. -/
structure Processing (chrono : Chrono) where
  threadNum : Nat
  /-- The number of the stream. -/
  number : Nat
  requestHandler : Host
  arrival : Arrival chrono

/-- The pool, the handlers of its workers and the connections that it has accepted. -/
structure Service where
  pool : Pool
  /-- What a worker has made by `Host::new`, unless it has panicked. -/
  requestHandler : Nat → Option Host
  streams : List TcpStream

/-- What a thread of a service does next. -/
inductive Deed (chrono : Chrono)
  | accept (stream : Except IoError TcpStream)
  | dispatch
  | announce (threadNum : Nat)
  | receive (threadNum : Nat)
  /-- A call of `seq::process` ends, which has handled its request in a world. -/
  | finish (threadNum : Nat) (world : World chrono)

variable {chrono : Chrono}

/-- How a call ends, as the worker sees it. -/
def Pool.Result.of : Outcome Error Unit → Pool.Result
  | .ok () => .ok
  | .err _ => .err
  | .abort => .abort

namespace Service

/-- `thread_pool`, up to its loop, with the first line of every worker. -/
def start (serverConfig : ServerConfig) (bind : Text → Except IoError Unit) :
    Outcome Error Service := do
  let port ← listenPort serverConfig
  let _ ← Outcome.ofExcept Error.ofIo (bind (listenAddress port))
  let pool ← spawnThreads serverConfig
  let requestHandler := (Host.new serverConfig : Outcome Error Host).toOption
  return { pool, requestHandler := fun _ => requestHandler, streams := [] }

/-- The connection that a worker has in its hands. -/
def processing? (service : Service) (threadNum : Nat) (world : World chrono) :
    Option (Processing chrono) :=
  match (service.pool.worker threadNum).phase with
  | .processing task => do
      let stream ← service.streams[task.stream]?
      let requestHandler ← service.requestHandler threadNum
      return {
        threadNum
        number := task.stream
        requestHandler
        arrival := { world, stream, overloaded := task.overloaded } }
  | _ => none

/-- The service with its threads moved on. -/
def move (service : Service) (action : Pool.Action) : Option Service :=
  (service.pool.step? action).map fun pool => { service with pool }

/-- One step of one thread. -/
def next (service : Service) : Deed chrono → Option Service
  | .accept (.ok stream) => (service.move (.accept (.ok ()))).map fun service =>
      { service with streams := service.streams ++ [stream] }
  | .accept (.error error) => service.move (.accept (.error error))
  | .dispatch => service.move .dispatch
  | .announce threadNum => service.move (.announce threadNum)
  | .receive threadNum => service.move (.receive threadNum)
  | .finish threadNum world => do
      let processing ← service.processing? threadNum world
      let outcome ← processing.requestHandler.outcome processing.arrival
      let service ← service.move (.finish threadNum (.of outcome))
      let left := if outcome = .abort then none
        else some (processing.requestHandler.serve processing.arrival)
      return { service with
        requestHandler := Function.update service.requestHandler threadNum left }

end Service

/-- The runs of `thread_pool`. -/
def serviceSystem (chrono : Chrono) (serverConfig : ServerConfig) :
    TransitionSystem Service (Deed chrono) where
  initial service := ∃ bind, Service.start serverConfig bind = .ok service
  step service deed after := service.next deed = some after

namespace Service

/-- The connection that is processed with a step. -/
def processed? : Service × Deed chrono → Option (Processing chrono)
  | (service, .finish threadNum world) => service.processing? threadNum world
  | _ => none

/-- What the threads do with a step. -/
def action? : Service × Deed chrono → Option (Pool × Pool.Action)
  | (service, .accept stream) => some (service.pool, .accept (stream.map fun _ => ()))
  | (service, .dispatch) => some (service.pool, .dispatch)
  | (service, .announce threadNum) => some (service.pool, .announce threadNum)
  | (service, .receive threadNum) => some (service.pool, .receive threadNum)
  | (service, .finish threadNum world) => do
      let processing ← service.processing? threadNum world
      let outcome ← processing.requestHandler.outcome processing.arrival
      return (service.pool, .finish threadNum (.of outcome))

/-- The visit that a step pays to the handler of a worker. -/
def visit? (threadNum : Nat) (step : Service × Deed chrono) : Option (Host × Exchange chrono) :=
  ((processed? step).filter (·.threadNum = threadNum)).bind fun processing =>
    (processing.requestHandler.exchange? processing.arrival).map (processing.requestHandler, ·)

/-- What a step can do, and what the threads do with it. -/
inductive Advance (service : Service) : Deed chrono → Pool.Action → Service → Prop
  | accept (stream : TcpStream) {pool : Pool} :
      service.pool.step? (.accept (.ok ())) = some pool →
        Advance service (.accept (.ok stream)) (.accept (.ok ()))
          { service with pool, streams := service.streams ++ [stream] }
  | move {deed : Deed chrono} {action : Pool.Action} {pool : Pool} :
      action? (service, deed) = some (service.pool, action) → processed? (service, deed) = none →
      finished? (service.pool, action) = none → action ≠ .accept (.ok ()) →
      service.pool.step? action = some pool → Advance service deed action { service with pool }
  | finish {threadNum : Nat} {world : World chrono} {processing : Processing chrono}
      {outcome : Outcome Error Unit} {pool : Pool} :
      service.processing? threadNum world = some processing →
      processing.requestHandler.outcome processing.arrival = some outcome →
      service.pool.step? (.finish threadNum (.of outcome)) = some pool →
        Advance service (.finish threadNum world) (.finish threadNum (.of outcome)) {
          service with
          pool
          requestHandler := Function.update service.requestHandler threadNum
            (if outcome = .abort then none
              else some (processing.requestHandler.serve processing.arrival)) }

variable {service after : Service} {deed : Deed chrono} {serverConfig : ServerConfig}
  {steps : List (Service × Deed chrono)}

private theorem move_eq_some_iff {action : Pool.Action} : service.move action = some after ↔
    ∃ pool, service.pool.step? action = some pool ∧ { service with pool } = after :=
  Option.map_eq_some_iff

/-- Every deed advances the service in one of the ways there are. -/
private theorem advance_of_next (taken : service.next deed = some after) :
    ∃ action, Advance service deed action after := by
  cases deed with
  | accept stream =>
      cases stream with
      | ok stream =>
          obtain ⟨_, moved, rfl⟩ := Option.map_eq_some_iff.mp taken
          obtain ⟨pool, step, rfl⟩ := move_eq_some_iff.mp moved
          exact ⟨_, .accept stream step⟩
      | error error =>
          obtain ⟨pool, step, rfl⟩ := move_eq_some_iff.mp taken
          exact ⟨.accept (.error error), .move rfl rfl rfl nofun step⟩
  | dispatch =>
      obtain ⟨pool, step, rfl⟩ := move_eq_some_iff.mp taken
      exact ⟨.dispatch, .move rfl rfl rfl nofun step⟩
  | announce threadNum =>
      obtain ⟨pool, step, rfl⟩ := move_eq_some_iff.mp taken
      exact ⟨.announce threadNum, .move rfl rfl rfl nofun step⟩
  | receive threadNum =>
      obtain ⟨pool, step, rfl⟩ := move_eq_some_iff.mp taken
      exact ⟨.receive threadNum, .move rfl rfl rfl nofun step⟩
  | finish threadNum world =>
      obtain ⟨processing, found, taken⟩ := Option.bind_eq_some_iff.mp taken
      obtain ⟨outcome, ended, taken⟩ := Option.bind_eq_some_iff.mp taken
      obtain ⟨_, moved, taken⟩ := Option.bind_eq_some_iff.mp taken
      obtain ⟨pool, step, rfl⟩ := move_eq_some_iff.mp moved
      cases taken
      exact ⟨_, .finish found ended step⟩

/-- A worker is done when the call of `process` on its connection has ended, and goes on with the
host that this leaves. -/
theorem next_finish {threadNum : Nat}
    {world : World chrono} {processing : Processing chrono} {outcome : Outcome Error Unit}
    (found : service.processing? threadNum world = some processing)
    (ended : processing.requestHandler.outcome processing.arrival = some outcome) :
    service.next (.finish threadNum world) =
      (service.pool.step? (.finish threadNum (.of outcome))).map fun pool => {
        service with
        pool
        requestHandler := Function.update service.requestHandler threadNum
          (if outcome = .abort then none
            else some (processing.requestHandler.serve processing.arrival)) } := by
  rw [next, found]
  dsimp only [Option.bind_eq_bind, Option.bind_some]
  rw [ended, Option.bind_some, move]
  cases service.pool.step? (.finish threadNum (.of outcome)) with
  | none => rfl
  | some pool => rfl

namespace Advance

variable {action : Pool.Action}

/-- An advance is a step of the pool. -/
theorem step (advance : Advance service deed action after) :
    service.pool.step? action = some after.pool := by
  cases advance with
  | accept stream step => exact step
  | move _ _ _ _ step => exact step
  | finish _ _ step => exact step

/-- An advance of the service takes one action of the pool. -/
theorem action? (advance : Advance service deed action after) :
    Service.action? (service, deed) = some (service.pool, action) := by
  cases advance with
  | accept stream step => rfl
  | move seen _ _ _ _ => exact seen
  | finish found ended step =>
      rw [Service.action?, found]
      dsimp only [Option.bind_eq_bind, Option.bind_some]
      rw [ended]
      rfl

end Advance

/-- A worker's connection is the one that has its number. -/
theorem of_processing? {threadNum : Nat} {world : World chrono} {processing : Processing chrono}
    (found : service.processing? threadNum world = some processing) :
    processing.threadNum = threadNum ∧
      service.streams[processing.number]? = some processing.arrival.stream ∧
      service.requestHandler threadNum = some processing.requestHandler ∧
      (service.pool.worker threadNum).phase =
        .processing ⟨processing.number, processing.arrival.overloaded⟩ := by
  unfold processing? at found
  split at found
  · next task there =>
      obtain ⟨stream, numbered, found⟩ := Option.bind_eq_some_iff.mp found
      obtain ⟨requestHandler, made, found⟩ := Option.bind_eq_some_iff.mp found
      cases found
      exact ⟨rfl, numbered, made, there⟩
  · cases found

/-! ### The threads -/

variable {numThreads : Nat} {alive : Nat → Bool} {requestHandler : Host}

private theorem initial_eq (spawns : spawnThreads serverConfig = .ok (spawned numThreads alive))
    (made : (Host.new serverConfig : Outcome Error Host) = .ok requestHandler)
    (initial : (serviceSystem chrono serverConfig).initial service) :
    service = ⟨spawned numThreads alive, fun _ => some requestHandler, []⟩ := by
  obtain ⟨bind, started⟩ := initial
  obtain ⟨port, -, started⟩ := Outcome.bind_eq_ok_iff.mp started
  obtain ⟨-, -, started⟩ := Outcome.bind_eq_ok_iff.mp started
  rw [spawns, Outcome.ok_bind, made] at started
  exact (Outcome.ok.inj started).symm

/-- A worker is alive that has made its handler. -/
theorem alive_of_spawnThreads (spawns : spawnThreads serverConfig = .ok (spawned numThreads alive))
    (made : (Host.new serverConfig : Outcome Error Host) = .ok requestHandler) (threadNum : Nat) :
    alive threadNum = true := by
  obtain ⟨size, -, set⟩ := Outcome.bind_eq_ok_iff.mp spawns
  rw [made] at set
  have phase : Phase.announcing = if alive threadNum then .announcing else .dead :=
    congrArg (fun pool => (pool.worker threadNum).phase) (Outcome.ok.inj set)
  by_contra dead
  rw [if_neg dead] at phase
  cases phase

/-- The threads of a service move as those of a pool do. -/
theorem run_pool (spawns : spawnThreads serverConfig = .ok (spawned numThreads alive))
    (made : (Host.new serverConfig : Outcome Error Host) = .ok requestHandler)
    (run : (serviceSystem chrono serverConfig).Run steps service) :
    (poolSystem numThreads alive).Run (steps.filterMap action?) service.pool := by
  have initially : ∀ service, (serviceSystem chrono serverConfig).initial service →
      ∃ pool, (poolSystem numThreads alive).initial pool ∧ service.pool = pool := by
    intro service initial
    rw [initial_eq spawns made initial]
    exact ⟨_, rfl, rfl⟩
  have simulates : ∀ service deed after pool, service.pool = pool →
      (serviceSystem chrono serverConfig).step service deed after →
        (poolSystem numThreads alive).Shows (fun service pool => service.pool = pool) after pool
          (action? (service, deed)) := by
    rintro service deed after _ rfl taken
    obtain ⟨action, advance⟩ := advance_of_next taken
    rw [advance.action?]
    exact ⟨rfl, after.pool, advance.step, rfl⟩
  obtain ⟨pool, rfl, run⟩ := run.simulate _ action? initially simulates
  exact run

/-- The handler of a worker, if there still is one, is a certain host. -/
def Keeps (threadNum : Nat) (service : Service) (host : Host) : Prop :=
  ∀ requestHandler ∈ service.requestHandler threadNum, requestHandler = host

/-- A step of another thread shows to a worker as none. -/
theorem shows_of_unprocessed (threadNum : Nat) {host : Host} (keeps : Keeps threadNum service host)
    (unchanged : after.requestHandler threadNum = service.requestHandler threadNum)
    (unprocessed : (processed? (service, deed)).filter (·.threadNum = threadNum) = none) :
    (Host.visits chrono serverConfig).Shows (Keeps threadNum) after host
      (visit? threadNum (service, deed)) := by
  rw [visit?, unprocessed]
  change Keeps threadNum after host
  rw [Keeps, unchanged]
  exact keeps

/-- An advance shows in the host of a worker as the visit that it processes, if any. -/
private theorem shows_of_advance (threadNum : Nat) {action : Pool.Action} {host : Host}
    (keeps : Keeps threadNum service host) (advance : Advance service deed action after) :
    (Host.visits chrono serverConfig).Shows (Keeps threadNum) after host
      (visit? threadNum (service, deed)) := by
  cases advance with
  | accept stream step => exact shows_of_unprocessed threadNum keeps rfl rfl
  | move _ unprocessed _ _ step =>
      refine shows_of_unprocessed threadNum keeps rfl ?_
      rw [unprocessed]
      rfl
  | @finish other world processing outcome pool found ended step =>
      obtain ⟨same, -, made, -⟩ := of_processing? found
      have seen : processed? (service, .finish other world) = some processing := found
      by_cases own : threadNum = other
      · subst own
        obtain rfl := keeps _ made
        have shown : (processed? (service, .finish threadNum world)).filter
            (·.threadNum = threadNum) = some processing := by
          rw [seen, Option.filter_some, if_pos (decide_eq_true same)]
        rw [visit?, shown, Option.bind_some]
        refine Host.shows_of_attends serverConfig (attends_process _ _) ?_ ?_
        · intro calm requestHandler left
          rw [ended] at calm
          dsimp only at left
          rw [Function.update_self, if_neg fun aborted => calm (congrArg some aborted)] at left
          exact (Option.some.inj left).symm
        · intro aborted host requestHandler left
          rw [ended] at aborted
          dsimp only at left
          rw [Function.update_self, if_pos (Option.some.inj aborted)] at left
          cases left
      · refine shows_of_unprocessed threadNum keeps (Function.update_of_ne own ..) ?_
        rw [seen, Option.filter_some, same]
        exact if_neg (by simpa using Ne.symm own)

/-- Each worker's handler is paid the visits of the connections that the worker processes. -/
theorem run_visits (spawns : spawnThreads serverConfig = .ok (spawned numThreads alive))
    (made : (Host.new serverConfig : Outcome Error Host) = .ok requestHandler)
    (run : (serviceSystem chrono serverConfig).Run steps service) (threadNum : Nat) :
    ∃ host, Keeps threadNum service host ∧
      (Host.visits chrono serverConfig).Run (steps.filterMap (visit? threadNum)) host := by
  refine run.simulate (Keeps threadNum) (visit? threadNum) ?_ ?_
  · intro service initial
    rw [initial_eq spawns made initial]
    exact ⟨requestHandler, made, fun _ same => (Option.some.inj same).symm⟩
  · intro service deed after host keeps taken
    obtain ⟨action, advance⟩ := advance_of_next taken
    exact shows_of_advance threadNum keeps advance

/-! ### The connections -/

/-- A stream as it is sent to a worker. -/
def sent (processing : Processing chrono) : Nat × Task :=
  (processing.threadNum, ⟨processing.number, processing.arrival.overloaded⟩)

/-- What the threads finish are the connections that are processed. -/
theorem finished?_of_advance {action : Pool.Action} (advance : Advance service deed action after) :
    finished? (service.pool, action) = (processed? (service, deed)).map sent := by
  cases advance with
  | accept stream step => rfl
  | move _ unprocessed unfinished _ step => rw [unprocessed, unfinished, Option.map_none]
  | @finish threadNum world processing outcome pool found ended step =>
      obtain ⟨same, -, -, there⟩ := of_processing? found
      have seen : processed? (service, .finish threadNum world) = some processing := found
      rw [seen, finished?, there, Option.map_some, sent, same]

/-- What of the streams is known of a service after some steps. -/
structure Numbered (steps : List (Service × Deed chrono)) (service : Service) : Prop where
  accepted : service.streams.length = service.pool.accepted
  processed : ∀ processing ∈ steps.filterMap processed?,
    service.streams[processing.number]? = some processing.arrival.stream
  finished : (steps.filterMap action?).filterMap finished? =
    (steps.filterMap processed?).map sent

/-- An accept counts its stream. -/
theorem accepted_of_accept {pool next : Pool}
    (step : pool.step? (.accept (.ok ())) = some next) : next.accepted = pool.accepted + 1 := by
  have transition := step_cases step
  cases transition with
  | acceptOk at_ => rfl

/-- Other steps accept nothing. -/
theorem accepted_of_other {pool next : Pool} {action : Pool.Action}
    (step : pool.step? action = some next) (other : action ≠ .accept (.ok ())) :
    next.accepted = pool.accepted := by
  have transition := step_cases step
  cases transition with
  | acceptOk at_ => exact absurd rfl other
  | acceptError | recv | drain | drained | resend | handOver | giveUp | announce | receive | finish
  | die => rfl

/-- What has been accepted is only added to. -/
theorem Advance.streams_prefix {action : Pool.Action}
    (advance : Advance service deed action after) : service.streams <+: after.streams := by
  cases advance with
  | accept stream step => exact List.prefix_append ..
  | move _ _ _ _ step => exact List.prefix_rfl
  | finish found ended step => exact List.prefix_rfl

/-- Every deed leaves the streams numbered by their accepts. -/
theorem Numbered.step {action : Pool.Action} (numbered : Numbered steps service)
    (advance : Advance service deed action after) :
    Numbered (steps ++ [(service, deed)]) after where
  accepted := by
    cases advance with
    | accept stream step =>
        rw [List.length_append, List.length_singleton, numbered.accepted]
        exact (accepted_of_accept step).symm
    | move _ _ _ distinct step =>
        exact numbered.accepted.trans (accepted_of_other step distinct).symm
    | finish found ended step =>
        exact numbered.accepted.trans (accepted_of_other step nofun).symm
  processed := by
    intro processing inside
    have longer := advance.streams_prefix
    have kept : service.streams[processing.number]? = some processing.arrival.stream := by
      rw [List.filterMap_append, List.mem_append] at inside
      rcases inside with before | last
      · exact numbered.processed processing before
      · obtain ⟨step, only, seen⟩ := List.mem_filterMap.mp last
        obtain rfl := List.mem_singleton.mp only
        cases deed with
        | finish threadNum world => exact (of_processing? seen).2.1
        | accept | dispatch | announce | receive => cases seen
    obtain ⟨more, whole⟩ := longer
    rw [← whole, List.getElem?_append_left (List.getElem?_eq_some_iff.mp kept).1]
    exact kept
  finished := by
    have finishes := finished?_of_advance advance
    rw [List.filterMap_append, List.filterMap_append, List.filterMap_append, List.map_append,
      numbered.finished, List.filterMap_cons_some advance.action?, List.filterMap_nil]
    apply congrArg
    cases ends : processed? (service, deed) with
    | none =>
        rw [ends] at finishes
        rw [List.filterMap_cons_none finishes, List.filterMap_cons_none ends]
        rfl
    | some processing =>
        rw [ends] at finishes
        rw [List.filterMap_cons_some finishes, List.filterMap_cons_some ends]
        rfl

/-- In every run the streams are numbered by their accepts. -/
theorem numbered_of_run (spawns : spawnThreads serverConfig = .ok (spawned numThreads alive))
    (made : (Host.new serverConfig : Outcome Error Host) = .ok requestHandler)
    (run : (serviceSystem chrono serverConfig).Run steps service) : Numbered steps service := by
  refine run.invariant Numbered ?_ ?_
  · intro service initial
    rw [initial_eq spawns made initial]
    exact ⟨rfl, nofun, rfl⟩
  · intro steps service deed after _ numbered taken
    obtain ⟨action, advance⟩ := advance_of_next taken
    exact numbered.step advance

/-- No accept fails, and no connection makes its worker panic. -/
structure Smooth (steps : List (Service × Deed chrono)) : Prop where
  sound : ∀ step ∈ steps, ∀ error, step.2 ≠ .accept (.error error)
  calm : ∀ processing ∈ steps.filterMap processed?,
    processing.requestHandler.outcome processing.arrival ≠ some .abort

/-- What goes well in the service goes well in the pool. -/
theorem Smooth.pool (smooth : Smooth steps) : Pool.Smooth (steps.filterMap action?) := by
  intro taken inside
  obtain ⟨⟨service, deed⟩, member, shown⟩ := List.mem_filterMap.mp inside
  cases deed with
  | accept stream =>
      cases shown
      refine ⟨fun error failed => ?_, nofun⟩
      cases stream with
      | ok stream => cases failed
      | error reason => exact smooth.sound _ member reason rfl
  | dispatch | announce | receive =>
      cases shown
      exact ⟨nofun, nofun⟩
  | finish threadNum world =>
      obtain ⟨processing, found, shown⟩ := Option.bind_eq_some_iff.mp shown
      obtain ⟨outcome, ended, shown⟩ := Option.bind_eq_some_iff.mp shown
      cases shown
      refine ⟨nofun, fun other panicked => ?_⟩
      apply smooth.calm processing (List.mem_filterMap.mpr ⟨_, member, found⟩)
      rw [ended]
      cases outcome with
      | ok value => cases panicked
      | err error => cases panicked
      | abort => rfl

end Service

open Service

/-- The visitor of the site, as the only worker of a pool receives it. -/
def Site.guest : Arrival gregorian := { visitor with overloaded := true }

private theorem Site.brings_guest : Brings Site.guest RequestText.page "127.0.0.1:4000".toList where
  chunks := brings.chunks
  peer := brings.peer

/-- The site has one worker. -/
theorem Site.spawns_one : spawnThreads serverConfig = .ok (spawned 1 fun _ => true) := by
  unfold spawnThreads
  rw [new_host]
  rfl

private theorem Site.service_initial : (serviceSystem gregorian serverConfig).initial
    ⟨spawned 1 fun _ => true, fun _ => some host, []⟩ := by
  have port : listenPort serverConfig = .ok "8080".toList := rfl
  have started : Service.start serverConfig (fun _ => .ok ()) =
      .ok ⟨spawned 1 fun _ => true, fun _ => some host, []⟩ := by
    rw [Service.start, port, Outcome.ok_bind, Outcome.ofExcept_ok, Outcome.ok_bind, spawns_one,
      Outcome.ok_bind, new_host]
    rfl
  exact ⟨_, started⟩

/-- A connection comes to the service of the site, and its worker has it. In any world in which the
worker is done with it, it waits for another. -/
theorem Site.service_processing (stream : TcpStream) :
    ∃ (steps : List (Service × Deed gregorian)) (service : Service),
      (serviceSystem gregorian serverConfig).Run steps service ∧
      steps.filterMap processed? = [] ∧
      (∀ step ∈ steps, ∀ error, step.2 ≠ .accept (.error error)) ∧
      ∀ world : World gregorian, host.outcome ⟨world, stream, true⟩ = some (.ok ()) →
        processed? (service, .finish 0 world) = some ⟨0, 0, host, ⟨world, stream, true⟩⟩ ∧
        ∃ after ready, service.next (.finish 0 world) = some after ∧
          after.next (.announce 0 : Deed gregorian) = some ready ∧
          ready.pool.dispatcher = .accepting ∧ ready.pool.size = 1 ∧
          ready.pool.worker 0 = ⟨.waiting, []⟩ := by
  have run := TransitionSystem.Run.start service_initial
  have run := run.step (show Service.next _ (.announce 0) = some _ from rfl)
  have run := run.step (show Service.next _ (.accept (.ok stream)) = some _ from rfl)
  have run := run.step (show Service.next _ .dispatch = some _ from rfl)
  have run := run.step (show Service.next _ .dispatch = some _ from rfl)
  have run := run.step (show Service.next _ .dispatch = some _ from rfl)
  have run := run.step (show Service.next _ (.receive 0) = some _ from rfl)
  refine ⟨_, _, run, rfl, by simp, fun world answered => ?_⟩
  refine ⟨rfl, _, _, (@next_finish _ _ 0 world ⟨0, 0, host, ⟨world, stream, true⟩⟩ _ rfl
    answered).trans rfl, show Service.next _ (.announce 0) = some _ from rfl, ?_, ?_, ?_⟩
  · rfl
  · rfl
  · rfl

/-- A connection comes to the service of the site, and is processed. -/
theorem Site.service_run_of {stream : TcpStream}
    (answered : host.outcome ⟨world, stream, true⟩ = some (.ok ())) :
    ∃ (steps : List (Service × Deed gregorian)) (service : Service),
      (serviceSystem gregorian serverConfig).Run steps service ∧
      steps.filterMap processed? = [⟨0, 0, host, ⟨world, stream, true⟩⟩] ∧
      (∀ step ∈ steps, ∀ error, step.2 ≠ .accept (.error error)) ∧
      service.pool.dispatcher = .accepting ∧ service.pool.size = 1 ∧
      service.pool.worker 0 = ⟨.waiting, []⟩ := by
  obtain ⟨steps, service, run, unprocessed, smooth, processing⟩ := service_processing stream
  obtain ⟨processed, after, ready, finished, announced, rest⟩ := processing world answered
  have run := (run.step finished).step announced
  refine ⟨_, ready, run, ?_, ?_, rest⟩
  · rw [List.filterMap_append, List.filterMap_append, unprocessed]
    simp only [List.filterMap_cons, List.filterMap_nil, processed]
    rfl
  · simp only [List.mem_append, List.mem_singleton]
    rintro step ((earlier | rfl) | rfl) error
    · exact smooth step earlier error
    · exact fun same => by cases same
    · exact fun same => by cases same

/-- Two connections come to the service of the site, one after the other. -/
theorem Site.service_run_twice {first second : Arrival gregorian}
    (alone : first.overloaded = true) (alone' : second.overloaded = true)
    (served : host.outcome first = some (.ok ()))
    (again : (host.serve first).outcome second = some (.ok ())) :
    ∃ (steps : List (Service × Deed gregorian)) (service : Service),
      (serviceSystem gregorian serverConfig).Run steps service ∧
      steps.filterMap processed? = [⟨0, 0, host, first⟩, ⟨0, 1, host.serve first, second⟩] := by
  obtain ⟨world, stream, _⟩ := first
  obtain ⟨world', stream', _⟩ := second
  cases alone
  cases alone'
  have run := TransitionSystem.Run.start service_initial
  have run := run.step (show Service.next _ (.announce 0) = some _ from rfl)
  have run := run.step (show Service.next _ (.accept (.ok stream)) = some _ from rfl)
  have run := run.step (show Service.next _ .dispatch = some _ from rfl)
  have run := run.step (show Service.next _ .dispatch = some _ from rfl)
  have run := run.step (show Service.next _ .dispatch = some _ from rfl)
  have run := run.step (show Service.next _ (.receive 0) = some _ from rfl)
  have run := run.step ((@next_finish _ _ 0 world ⟨0, 0, host, ⟨world, stream, true⟩⟩ _ rfl
    served).trans rfl)
  have run := run.step (show Service.next _ (.announce 0) = some _ from rfl)
  have run := run.step (show Service.next _ (.accept (.ok stream')) = some _ from rfl)
  have run := run.step (show Service.next _ .dispatch = some _ from rfl)
  have run := run.step (show Service.next _ .dispatch = some _ from rfl)
  have run := run.step (show Service.next _ .dispatch = some _ from rfl)
  have run := run.step (show Service.next _ (.receive 0) = some _ from rfl)
  have run := run.step ((@next_finish _ _ 0 world'
    ⟨0, 1, host.serve ⟨world, stream, true⟩, ⟨world', stream', true⟩⟩ _ rfl again).trans rfl)
  exact ⟨_, _, run, rfl⟩

/-- The visitor of the site comes to the service. -/
theorem Site.service_run : ∃ (steps : List (Service × Deed gregorian)) (service : Service),
    (serviceSystem gregorian serverConfig).Run steps service ∧
    steps.filterMap processed? = [⟨0, 0, host, guest⟩] ∧
    (∀ step ∈ steps, ∀ error, step.2 ≠ .accept (.error error)) ∧
    service.pool.dispatcher = .accepting ∧ service.pool.size = 1 ∧
    service.pool.worker 0 = ⟨.waiting, []⟩ := by
  have answered : host.outcome guest = some (.ok ()) := by decide +kernel
  exact service_run_of answered

/-- **The service shows as a pool, and as visits to its handlers.** In every run the threads move
as those of the pool, whatever the connections bring. A worker processes the connection that has the
number it was sent; the connections that bring a request pay visits to the worker's handler, and
what is written on each is the response to its visit. -/
theorem service_refines {serverConfig : ServerConfig} {numThreads : Nat} {alive : Nat → Bool}
    {requestHandler : Host} (spawns : spawnThreads serverConfig = .ok (spawned numThreads alive))
    (made : (Host.new serverConfig : Outcome Error Host) = .ok requestHandler)
    {steps : List (Service × Deed chrono)} {service : Service}
    (run : (serviceSystem chrono serverConfig).Run steps service) :
    (poolSystem numThreads alive).Run (steps.filterMap action?) service.pool ∧
      (∀ threadNum, ∃ host, Keeps threadNum service host ∧
        (Host.visits chrono serverConfig).Run (steps.filterMap (visit? threadNum)) host) ∧
      ∀ processing ∈ steps.filterMap processed?,
        service.streams[processing.number]? = some processing.arrival.stream ∧
          processing.requestHandler.Attends processing.arrival :=
  ⟨run_pool spawns made run, run_visits spawns made run, fun processing inside =>
    ⟨(numbered_of_run spawns made run).processed processing inside, attends_process _ _⟩⟩

/-- The site's service shows as a pool of one worker, which is paid a visit. -/
theorem service_refines_site : ∃ (steps : List (Service × Deed gregorian)) (service : Service),
    steps.filterMap processed? = [⟨0, 0, Site.host, Site.guest⟩] ∧
    (poolSystem 1 fun _ => true).Run (steps.filterMap action?) service.pool ∧
    ∃ host, Keeps 0 service host ∧
      (Host.visits gregorian Site.serverConfig).Run (steps.filterMap (visit? 0)) host := by
  obtain ⟨steps, service, run, processed, -⟩ := Site.service_run
  obtain ⟨threads, visits, -⟩ := service_refines Site.spawns_one Site.new_host run
  exact ⟨steps, service, processed, threads, visits 0⟩

/-- **What the service is for.** When a service comes to rest, every call of `seq::process` has
ended, and no accept has failed and no worker has panicked, every connection that was accepted
has been processed, once. If it has brought a request, the handler of a worker has responded to
this request, and the response has been written, all of it if there was room. -/
theorem service_answers {serverConfig : ServerConfig} {numThreads : Nat} {alive : Nat → Bool}
    {requestHandler : Host} (spawns : spawnThreads serverConfig = .ok (spawned numThreads alive))
    (inhabited : 0 < numThreads)
    (made : (Host.new serverConfig : Outcome Error Host) = .ok requestHandler)
    {steps : List (Service × Deed chrono)} {service : Service}
    (run : (serviceSystem chrono serverConfig).Run steps service)
    (smooth : Service.Smooth steps) (still : Still service.pool)
    (unoccupied : Unoccupied service.pool) :
    ((steps.filterMap processed?).map (·.number)).Perm (List.range service.streams.length) ∧
      ∀ processing ∈ steps.filterMap processed?,
        service.streams[processing.number]? = some processing.arrival.stream ∧
          ∀ written addr, Brings processing.arrival written addr → ∃ response bytes,
            processing.requestHandler.Responds
              ⟨⟨processing.arrival.world, written.handed addr, processing.arrival.overloaded⟩,
                response⟩ (processing.requestHandler.serve processing.arrival) ∧
            writeResponse processing.arrival.world.headerOrder response = .ok bytes ∧
            bytesWritten (processing.requestHandler.calls processing.arrival) <+: bytes ∧
            (processing.arrival.stream.Takes bytes →
              bytesWritten (processing.requestHandler.calls processing.arrival) = bytes) := by
  have numbered := numbered_of_run spawns made run
  have living := fun threadNum (_ : threadNum < numThreads) =>
    alive_of_spawnThreads spawns made threadNum
  have settled :=
    settled_of_run inhabited living (run_pool spawns made run) smooth.pool still unoccupied
  rw [numbered.finished, ← numbered.accepted, List.map_map] at settled
  refine ⟨settled, fun processing inside => ⟨numbered.processed processing inside, ?_⟩⟩
  intro written addr brings
  have calm := smooth.calm processing inside
  rcases answered_of_brings processing.requestHandler brings with
    ⟨-, aborted⟩ | ⟨response, bytes, handled, -, written', front, whole, takes⟩
  · exact absurd aborted calm
  · rw [serve_of_brings processing.requestHandler brings]
    exact ⟨response, bytes, ⟨_, Prod.ext handled rfl⟩, written', front, fun room =>
      whole (takes room)⟩

/-- The visitor of the site's service is answered. -/
theorem service_answers_site : ∃ (response : Response) (bytes : Bytes),
    Site.host.Responds ⟨⟨Site.world, Site.get "/page.txt", true⟩, response⟩
      (Site.host.serve Site.guest) ∧
    writeResponse Site.headerOrder response = .ok bytes ∧
    bytesWritten (Site.host.calls Site.guest) <+: bytes := by
  obtain ⟨steps, service, run, processed, sound, accepting, size, idle⟩ := Site.service_run
  have answered : Site.host.outcome Site.guest = some (.ok ()) := by decide +kernel
  have smooth : Service.Smooth steps := by
    refine ⟨sound, fun processing inside => ?_⟩
    rw [processed] at inside
    obtain rfl := List.mem_singleton.mp inside
    rw [answered]
    exact nofun
  have ready : ∀ threadNum < service.pool.size,
      service.pool.worker threadNum = ⟨.waiting, []⟩ := by
    intro threadNum inside
    rw [size] at inside
    rw [Nat.lt_one_iff.mp inside, idle]
  obtain ⟨-, served⟩ := service_answers Site.spawns_one Nat.one_pos Site.new_host run smooth
    (still_of_ready accepting ready) (unoccupied_of_ready ready)
  have inside : ⟨0, 0, Site.host, Site.guest⟩ ∈ steps.filterMap processed? := by
    rw [processed]
    exact List.mem_singleton_self _
  obtain ⟨response, bytes, responds, written, front, -⟩ :=
    (served _ inside).2 _ _ Site.brings_guest
  exact ⟨response, bytes, responds, written, front⟩

end RustHttpServer
