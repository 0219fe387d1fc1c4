import RustHttpServer.Pool.Load
import RustHttpServer.Pool.Service

/-!
# What clients of the pool see

Each worker has a cache of its own. So clients of a service see that files are cached, if they do,
only in a file that is found changed by the very worker that has read it
(`service_transparent_iff`).

A client that asks for the load is told how the dispatcher found the workers: the status of the
response is that of an overloaded server exactly if a single worker was ready from the accept of
this connection until the ready channel was found empty (`service_heartbeat`).
-/

namespace RustHttpServer

open Foundation Pool

variable {chrono : Chrono}

/-! ### The caches of the workers -/

namespace Service

variable {steps : List (Service × Deed chrono)}

/-- The visits to the handler of a worker are those of the connections that it processes. -/
theorem filterMap_visit? (threadNum : Nat) : steps.filterMap (visit? threadNum) =
    ((steps.filterMap processed?).filter (·.threadNum = threadNum)).filterMap fun processing =>
      (processing.requestHandler.exchange? processing.arrival).map
        (processing.requestHandler, ·) := by
  rw [List.filter_filterMap, List.filterMap_filterMap]
  rfl

/-- Whatever is responded to a connection is responded in a visit to the handler of a worker. -/
theorem forall_visit_iff {property : Exchange chrono → Prop} :
    (∀ threadNum, ∀ step ∈ steps.filterMap (visit? threadNum), property step.2) ↔
      ∀ processing ∈ steps.filterMap processed?, ∀ exchange,
        processing.requestHandler.exchange? processing.arrival = some exchange →
          property exchange := by
  constructor
  · intro all processing inside exchange visited
    apply all processing.threadNum (processing.requestHandler, exchange)
    rw [filterMap_visit?]
    refine List.mem_filterMap.mpr ⟨processing, List.mem_filter.mpr ⟨inside, ?_⟩, ?_⟩
    · exact decide_eq_true rfl
    · rw [visited, Option.map_some]
  · intro all threadNum step inside
    rw [filterMap_visit?] at inside
    obtain ⟨processing, member, shown⟩ := List.mem_filterMap.mp inside
    obtain ⟨exchange, visited, rfl⟩ := Option.map_eq_some_iff.mp shown
    exact all processing (List.mem_filter.mp member).1 exchange visited

end Service

open Service

/-- **Workers have caches of their own.** In a run of a service every response is the one that a
host without a cache gives in the same world, if and only if no worker finds a file changed that
it has read itself. -/
theorem service_transparent_iff {serverConfig : ServerConfig} {numThreads : Nat}
    {alive : Nat → Bool} {requestHandler : Host}
    (spawns : spawnThreads serverConfig = .ok (spawned numThreads alive))
    (made : (Host.new serverConfig : Outcome Error Host) = .ok requestHandler)
    {steps : List (Service × Deed chrono)} {service : Service}
    (run : (serviceSystem chrono serverConfig).Run steps service) :
    (∀ processing ∈ steps.filterMap processed?, ∀ exchange,
      processing.requestHandler.exchange? processing.arrival = some exchange →
        exchange.Plain serverConfig) ↔
    ∀ threadNum, ((steps.filterMap (visit? threadNum)).map fun step => step.2.toVisit).Pairwise
      (Visit.Agrees serverConfig) := by
  rw [← forall_visit_iff]
  refine forall_congr' fun threadNum => ?_
  obtain ⟨host, -, visited⟩ := run_visits spawns made run threadNum
  exact Host.forall_plain_iff visited

namespace Site

/-- The visitor, after the page has been edited. -/
def guestAt (modified : Int) : Arrival gregorian := { guest with world := edited "hi" modified }

private theorem brings_guestAt (modified : Int) :
    Brings (guestAt modified) RequestText.page "127.0.0.1:4000".toList where
  chunks := brings.chunks
  peer := brings.peer

/-- The visit of a guest is that for the page in its world. -/
private theorem exchange?_guestAt {requestHandler : Host} {modified : Int}
    (answered : (requestHandler.exchange? (guestAt modified)).isSome) : ∃ response,
      requestHandler.exchange? (guestAt modified) =
        some ⟨⟨edited "hi" modified, RequestText.page.handed "127.0.0.1:4000".toList, true⟩,
          response⟩ := by
  obtain ⟨exchange, visited⟩ := Option.isSome_iff_exists.mp answered
  rw [Host.exchange?, requestsHandled_of_brings (brings_guestAt modified)] at visited
  obtain ⟨request, named, visited⟩ := Option.bind_eq_some_iff.mp visited
  obtain ⟨response, responded, made⟩ := Option.bind_eq_some_iff.mp visited
  cases named
  cases made
  refine ⟨response, ?_⟩
  rw [Host.exchange?, requestsHandled_of_brings (brings_guestAt modified)]
  dsimp only [List.head?_cons, Option.bind_eq_bind, Option.bind_some]
  rw [responded]
  rfl

end Site

/-- The only worker responds to two visitors as a host without a cache does, the page having been
edited in between, but not so that it shows. -/
theorem service_transparent_iff_site : ∃ first second,
    Site.host.exchange? (Site.guestAt 0) = some first ∧
    (Site.host.serve (Site.guestAt 0)).exchange? (Site.guestAt 1000) = some second ∧
    first.Plain Site.serverConfig ∧ second.Plain Site.serverConfig := by
  have served : Site.host.outcome (Site.guestAt 0) = some (.ok ()) := by decide +kernel
  have again : (Site.host.serve (Site.guestAt 0)).outcome (Site.guestAt 1000) =
      some (.ok ()) := by decide +kernel
  obtain ⟨steps, service, run, processed⟩ := Site.service_run_twice rfl rfl served again
  have transparent := service_transparent_iff Site.spawns_one Site.new_host run
  obtain ⟨response, visited⟩ := Site.exchange?_guestAt (show (Site.host.exchange?
    (Site.guestAt 0)).isSome by decide +kernel)
  obtain ⟨response', visited'⟩ := Site.exchange?_guestAt (show ((Site.host.serve
    (Site.guestAt 0)).exchange? (Site.guestAt 1000)).isSome by decide +kernel)
  have led : (Host.fresh Site.serverConfig).work (Site.edited "hi" 0)
      (RequestText.page.handed "127.0.0.1:4000".toList) = some (.file Site.page) := by
    decide +kernel
  have found : (Site.edited "hi" 0).file Site.page = some ⟨"hi".toList, 0⟩ := by decide +kernel
  have found' : (Site.edited "hi" 1000).file Site.page = some ⟨"hi".toList, 1000⟩ := by
    decide +kernel
  have agrees : ∀ threadNum, ((steps.filterMap (visit? threadNum)).map
      fun step => step.2.toVisit).Pairwise (Visit.Agrees Site.serverConfig) := by
    intro threadNum
    rw [filterMap_visit?, processed]
    by_cases worker : threadNum = 0
    · subst worker
      simp only [List.filter_cons, decide_true, if_true, List.filter_nil, List.filterMap_cons,
        visited, visited', Option.map_some, List.filterMap_nil, List.map_cons, List.map_nil]
      refine List.pairwise_pair.mpr fun path file earlier later there => ?_
      cases led.symm.trans earlier.targets
      cases found.symm.trans there
      exact ⟨_, found', rfl, by decide +kernel⟩
    · simp only [List.filter_cons, Ne.symm worker, decide_false, List.filter_nil,
        Bool.false_eq_true, if_false, List.filterMap_nil, List.map_nil]
      exact List.Pairwise.nil
  have plain := transparent.mpr agrees
  rw [processed] at plain
  exact ⟨_, _, visited, visited', plain _ List.mem_cons_self _ visited,
    plain _ (List.mem_cons_of_mem _ List.mem_cons_self) _ visited'⟩

/-! ### Streams and their accepts -/

namespace Pool

variable {numThreads : Nat} {alive : Nat → Bool} {steps : List (Pool × Action)} {pool : Pool}

private theorem mem_tasksOf_iff {threadNum : Nat} {task : Task} {tasks : List (Nat × Task)} :
    task ∈ tasksOf threadNum tasks ↔ (threadNum, task) ∈ tasks := by
  simp [tasksOf]

/-- What is finished has been handed over. -/
theorem handed_of_finished (run : (poolSystem numThreads alive).Run steps pool)
    {threadNum : Nat} {task : Task} (finished : (threadNum, task) ∈ steps.filterMap finished?) :
    (threadNum, task) ∈ pool.handed := by
  have ordered := (fates_of_run run).2 threadNum
  apply mem_tasksOf_iff.mp
  rw [ordered]
  exact List.mem_append_left _ (mem_tasksOf_iff.mpr finished)

/-- Every accepted stream has been accepted with a step of the run. -/
theorem exists_acceptedIn (run : (poolSystem numThreads alive).Run steps pool) :
    ∀ stream < pool.accepted, ∃ before later, AcceptedIn steps before later ∧
      before.accepted = stream := by
  refine run.invariant (fun steps pool => ∀ stream < pool.accepted,
    ∃ before later, AcceptedIn steps before later ∧ before.accepted = stream) ?_ ?_
  · rintro pool rfl stream less
    cases less
  · intro steps pool action next run ih step stream less
    have longer : stream < pool.accepted →
        ∃ before later, AcceptedIn (steps ++ [(pool, action)]) before later ∧
          before.accepted = stream := by
      intro earlier
      obtain ⟨before, later, ⟨first, split⟩, same⟩ := ih stream earlier
      refine ⟨before, later ++ [(pool, action)], ⟨first, ?_⟩, same⟩
      rw [split, List.append_assoc, List.cons_append]
    by_cases accepts : action = .accept (.ok ())
    · subst accepts
      rw [Service.accepted_of_accept step] at less
      rcases Nat.lt_succ_iff_lt_or_eq.mp less with earlier | rfl
      · exact longer earlier
      · exact ⟨pool, [], ⟨steps, rfl⟩, rfl⟩
    · rw [Service.accepted_of_other step accepts] at less
      exact longer less

end Pool

/-! ### Heartbeats -/

/-- A request for the load of the server. -/
structure Request.AsksLoad (request : Request) : Prop where
  get : request.header.requestLine.method = .get
  load : request.header.requestLine.requestPath = "/load".toList
  named : (request.header.headerLines.lookup .host).isSome

/-- A heartbeat is answered from the flag, and leaves the handler as it is. -/
theorem Request.AsksLoad.handle (printsUtc : chrono.PrintsUtc) {request : Request}
    (asks : request.AsksLoad) {host : Host} (hosted : host.serverConfig.virtualHosts ≠ [])
    (world : World chrono) (overloaded : Bool) : ∃ now,
    host.handle world request overloaded =
      (.ok (Host.finish now (heartbeat overloaded)), host, []) := by
  obtain ⟨now, stamped, -⟩ := @to1123_eq _ printsUtc Error world.now
  obtain ⟨hostPath, named⟩ := Option.isSome_iff_exists.mp asks.named
  have resulted : host.handleResult world request overloaded ⟨host.files, []⟩ =
      (.ok (heartbeat overloaded), ⟨host.files, []⟩) := by
    unfold Host.handleResult
    rw [Stateful.lift_bind_apply, named]
    dsimp only [Outcome.okOr]
    rw [Stateful.lift_bind_apply]
    cases chosen : (getVirtualHost host.serverConfig.virtualHosts hostPath :
        Outcome HttpError VirtualHost) with
    | err error => exact absurd chosen (unfailing_getVirtualHost _ _ error)
    | abort => exact absurd (getVirtualHost_eq_abort_iff.mp chosen) hosted
    | ok virtualHost =>
        dsimp only
        rw [if_pos ⟨asks.get, asks.load⟩]
        rfl
  exact ⟨now ++ " GMT".toList, handle_of_handleResult resulted stamped⟩

namespace Service

variable {serverConfig : ServerConfig} {numThreads : Nat} {alive : Nat → Bool}
  {requestHandler : Host}
  {steps : List (Service × Deed chrono)} {service : Service} {processing : Processing chrono}

/-- What processes a connection is a host of this configuration. -/
theorem config_of_processing (spawns : spawnThreads serverConfig = .ok (spawned numThreads alive))
    (made : (Host.new serverConfig : Outcome Error Host) = .ok requestHandler)
    (run : (serviceSystem chrono serverConfig).Run steps service) {threadNum : Nat}
    {world : World chrono} (found : service.processing? threadNum world = some processing) :
    processing.requestHandler.serverConfig = serverConfig := by
  obtain ⟨-, -, own, -⟩ := of_processing? found
  obtain ⟨host, keeps, visited⟩ := run_visits spawns made run threadNum
  rw [keeps _ own, Host.eq_of_run visited]
  rfl

private theorem config_of_processed
    (spawns : spawnThreads serverConfig = .ok (spawned numThreads alive))
    (made : (Host.new serverConfig : Outcome Error Host) = .ok requestHandler)
    (run : (serviceSystem chrono serverConfig).Run steps service)
    (inside : processing ∈ steps.filterMap processed?) :
    processing.requestHandler.serverConfig = serverConfig := by
  obtain ⟨⟨before, deed⟩, member, seen⟩ := List.mem_filterMap.mp inside
  obtain ⟨earlier, run⟩ := run.reachable_of_mem _ member
  cases deed with
  | accept | dispatch | announce | receive => cases seen
  | finish threadNum world => exact config_of_processing spawns made run seen

/-- A connection that is processed has been handed over. -/
theorem handed_of_processed (spawns : spawnThreads serverConfig = .ok (spawned numThreads alive))
    (made : (Host.new serverConfig : Outcome Error Host) = .ok requestHandler)
    (run : (serviceSystem chrono serverConfig).Run steps service)
    (inside : processing ∈ steps.filterMap processed?) : sent processing ∈ service.pool.handed := by
  apply handed_of_finished (run_pool spawns made run)
  rw [(numbered_of_run spawns made run).finished]
  exact List.mem_map_of_mem inside

end Service

open Service

/-- **What a heartbeat tells.** A connection that asks a service for the load is answered, whatever
its worker has done before, and leaves the worker as it is. The status of the response says that
the server is overloaded exactly if a single number was in the ready channel when the connection
was accepted or came into it before the dispatcher found the channel empty. -/
theorem service_heartbeat (printsUtc : chrono.PrintsUtc) {serverConfig : ServerConfig}
    (hosted : serverConfig.virtualHosts ≠ []) {numThreads : Nat} {alive : Nat → Bool}
    {requestHandler : Host} (spawns : spawnThreads serverConfig = .ok (spawned numThreads alive))
    (made : (Host.new serverConfig : Outcome Error Host) = .ok requestHandler)
    {steps : List (Service × Deed chrono)} {service : Service}
    (run : (serviceSystem chrono serverConfig).Run steps service)
    {processing : Processing chrono} (inside : processing ∈ steps.filterMap processed?)
    {written : RequestText} {addr : SocketAddr} (brings : Brings processing.arrival written addr)
    (asks : (written.handed addr).AsksLoad) : ∃ response bytes before later,
      processing.requestHandler.Responds
        ⟨⟨processing.arrival.world, written.handed addr, processing.arrival.overloaded⟩, response⟩
        processing.requestHandler ∧
      processing.requestHandler.serve processing.arrival = processing.requestHandler ∧
      writeResponse processing.arrival.world.headerOrder response = .ok bytes ∧
      bytesWritten (processing.requestHandler.calls processing.arrival) <+: bytes ∧
      (processing.arrival.stream.Takes bytes →
        bytesWritten (processing.requestHandler.calls processing.arrival) = bytes) ∧
      AcceptedIn (steps.filterMap action?) before later ∧ before.accepted = processing.number ∧
      response.header.statusLine.statusCode =
        if before.ready.length + announcements later = 1 then .serviceUnavailable else .ok := by
  have threads := run_pool spawns made run
  have handed := handed_of_processed spawns made run inside
  have config := config_of_processed spawns made run inside
  obtain ⟨now, answers⟩ := asks.handle printsUtc (by rw [config]; exact hosted)
    processing.arrival.world processing.arrival.overloaded
  have numbered := (pool_invariant threads.reachable).2.accepted _ (List.mem_map_of_mem handed)
  obtain ⟨before, later, accepted, same⟩ := exists_acceptedIn threads _ numbered
  rw [sent] at handed
  dsimp only [sent] at same
  rw [← same] at handed
  have flag := overloaded_iff threads accepted handed
  have served := serve_of_brings processing.requestHandler brings
  rcases answered_of_brings processing.requestHandler brings with
    ⟨panicked, -⟩ | ⟨response, bytes, handled, -, written', front, whole, takes⟩
  · rw [answers] at panicked
    cases panicked
  · rw [answers] at handled served
    cases handled
    refine ⟨_, bytes, before, later, ⟨_, answers⟩, served, written', front, fun room =>
      whole (takes room), accepted, same, ?_⟩
    rw [← ite_cond_congr (propext flag)]
    rfl

/-- A request for the load of the site. -/
def RequestText.heartbeat : RequestText :=
  { page with
    line := { page.line with
      target := "/load".toList
      target_noSpace := by decide }
    line_noBreak := by decide }

/-- The request for the load, as the only worker of a pool receives it. -/
def Site.monitor : Arrival gregorian where
  world := world
  stream := { visitor.stream with reads := inOneGo [Utf8.encode RequestText.heartbeat.text] }
  overloaded := true

private theorem Site.brings_monitor :
    Brings Site.monitor RequestText.heartbeat "127.0.0.1:4000".toList where
  chunks := ⟨[RequestText.heartbeat.text], [], by decide, List.append_nil _, rfl⟩
  peer := rfl

/-- The monitor of the site is told how the pool of one worker is. -/
theorem service_heartbeat_site : ∃ (steps : List (Service × Deed gregorian)) (service : Service)
    (response : Response) (bytes : Bytes) (before : Pool) (later : List (Pool × Pool.Action)),
    (serviceSystem gregorian Site.serverConfig).Run steps service ∧
    writeResponse Site.headerOrder response = .ok bytes ∧
    bytesWritten (Site.host.calls Site.monitor) <+: bytes ∧
    AcceptedIn (steps.filterMap action?) before later ∧ before.accepted = 0 ∧
    response.header.statusLine.statusCode =
      if before.ready.length + announcements later = 1 then .serviceUnavailable else .ok := by
  have answered : Site.host.outcome Site.monitor = some (.ok ()) := by decide +kernel
  obtain ⟨steps, service, run, processed, -⟩ := Site.service_run_of answered
  have inside : ⟨0, 0, Site.host, Site.monitor⟩ ∈ steps.filterMap processed? := by
    rw [processed]
    exact List.mem_singleton_self _
  have asks : (RequestText.heartbeat.handed "127.0.0.1:4000".toList).AsksLoad :=
    ⟨rfl, rfl, by decide⟩
  have hosted : Site.serverConfig.virtualHosts ≠ [] := List.cons_ne_nil _ _
  obtain ⟨response, bytes, before, later, -, -, written, front, -, accepted, first, status⟩ :=
    service_heartbeat gregorian_printsUtc hosted Site.spawns_one Site.new_host run inside
      Site.brings_monitor asks
  exact ⟨steps, service, response, bytes, before, later, run, written, front, accepted, first,
    status⟩

end RustHttpServer
