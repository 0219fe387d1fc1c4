import RustHttpServer.Host.Disclosure
import RustHttpServer.Pool.Clients
import RustHttpServer.Select.Responses

/-!
# What the servers disclose

Where no index leads out of a document root, whole runs of the servers are as they would be with
any other files outside: the threads of the pool and the turns of the event loop go through the
same states, and so the same bytes are written on every connection (`service_undisclosed`,
`loop_undisclosed`).
-/

namespace RustHttpServer

open Foundation Pool

namespace Site

/-- The site without the index that leads out. -/
def sealedWorld : World gregorian := world.withFiles {
  node := fun names =>
    if names = place ["www", "docs", "index.html"] then none else fs.node names
  workingDirectory := []
  isDirectory := .root }

/-- The site with another secret. -/
def otherWorld : World gregorian :=
  sealedWorld.withFiles (sealedWorld.fs.rewrite (place ["etc", "secret"]) (regular "other"))

private theorem plain_fs {names : List Name} {target : Path}
    (elsewhere : names ≠ place ["www", "docs", "index.html"]) :
    fs.node names ≠ some (.symlink target) := by
  intro found
  have member : (names, Node.symlink target) ∈ nodes := by
    obtain ⟨before, behind, split, -⟩ := List.lookup_eq_some_iff.mp found
    rw [split]
    exact List.mem_append_right _ List.mem_cons_self
  simp only [nodes, List.mem_cons, Prod.mk.injEq, reduceCtorEq, and_false, false_or, or_false,
    List.not_mem_nil] at member
  exact elsewhere member.1

/-- The two worlds of the site differ outside the document root only. -/
theorem twin : otherWorld.Twin serverConfig sealedWorld where
  closed := by
    refine sealed_of_plain_indexes serverConfig fun directory name target _ found => ?_
    dsimp only [sealedWorld, World.withFiles] at found
    split at found
    · cases found
    · next elsewhere => exact plain_fs elsewhere found
  differs := by
    refine ⟨_, FileSystem.agreesIn_rewrite ?_ _, rfl⟩
    rintro ⟨root, ⟨virtualHost, configured, rooted⟩, below⟩
    obtain rfl : virtualHost = Site.virtualHost := List.mem_singleton.mp configured
    have known : Host.documentRoot sealedWorld Site.virtualHost =
        some (Path.ofBytes (Utf8.encode "/www".toList)) := by
      decide +kernel
    cases known.symm.trans rooted
    revert below
    decide +kernel

end Site

variable {chrono : Chrono} {serverConfig : ServerConfig} {world world' : World chrono}

/-! ### The threads of the pool -/

section Process

variable {requestHandler : Host}

/-- What `process` does on a connection is the same in twin worlds. -/
theorem World.Twin.process (twin : world'.Twin serverConfig world)
    (same : requestHandler.serverConfig = serverConfig) (stream : TcpStream) (overloaded : Bool) :
    Seq.process requestHandler world' stream overloaded =
      Seq.process requestHandler world stream overloaded := by
  have responds : ∀ state, Seq.respond requestHandler world' stream overloaded state =
      Seq.respond requestHandler world stream overloaded state := fun state => by
    simp only [Seq.respond, twin.handle same, twin.headerOrder]
  simp only [Seq.process, responds]

private theorem Host.config_of_handle (requestHandler : Host) (world : World chrono)
    (request : Request)
    (overloaded : Bool) : (requestHandler.handle world request overloaded).2.1.serverConfig =
      requestHandler.serverConfig := by
  unfold Host.handle
  generalize requestHandler.handleWith world request overloaded _ = result
  cases result
  rfl

/-- So is the handler that has handled some requests. -/
theorem World.Twin.foldl (twin : world'.Twin serverConfig world) (requests : List Request)
    (same : requestHandler.serverConfig = serverConfig) (overloaded : Bool) :
    requests.foldl (fun requestHandler request =>
        (requestHandler.handle world' request overloaded).2.1) requestHandler =
      requests.foldl (fun requestHandler request =>
        (requestHandler.handle world request overloaded).2.1) requestHandler := by
  induction requests generalizing requestHandler with
  | nil => rw [List.foldl_nil, List.foldl_nil]
  | cons request requests ih =>
      rw [List.foldl_cons, List.foldl_cons, twin.handle same]
      exact ih ((requestHandler.config_of_handle world request overloaded).trans same)

/-- A host goes on the same in twin worlds. -/
theorem World.Twin.serve (twin : world'.Twin serverConfig world)
    (same : requestHandler.serverConfig = serverConfig) (stream : TcpStream) (overloaded : Bool) :
    requestHandler.serve ⟨world', stream, overloaded⟩ =
      requestHandler.serve ⟨world, stream, overloaded⟩ := by
  rw [Host.serve, Host.serve, Host.calls, Host.calls, twin.process same]
  exact twin.foldl _ same overloaded

end Process

/-- The same deed of a thread, in a twin world. -/
inductive Deed.Twin (serverConfig : ServerConfig) : Deed chrono → Deed chrono → Prop
  | refl (deed : Deed chrono) : Deed.Twin serverConfig deed deed
  | finish (threadNum : Nat) {world' world : World chrono} : world'.Twin serverConfig world →
      Deed.Twin serverConfig (.finish threadNum world') (.finish threadNum world)

namespace Service

variable {service after : Service} {threadNum : Nat}

/-- What is done on each connection that is processed, with its number. -/
def callsOf (steps : List (Service × Deed chrono)) : List (Nat × List Call) :=
  steps.filterMap fun step => (processed? step).map fun processing =>
    (processing.number, processing.requestHandler.calls processing.arrival)

end Service

section Loop

variable {token : Token}

private theorem Connection.respond_twin (twin : world'.Twin serverConfig world)
    (connection : Connection)
    (own : connection.requestHandler = Host.fresh serverConfig) (state : IncrementalRequest) :
    connection.respond world' token state = connection.respond world token state := by
  have same : connection.requestHandler.serverConfig = serverConfig := by
    rw [own]
    rfl
  simp only [respond, twin.handle same]

/-- What a source does about an event is the same in twin worlds. -/
theorem EventSource.handleEvent_twin (twin : world'.Twin serverConfig world)
    {worlds : Set (World chrono)} {calls : List Call} {source : EventSource}
    (plainly : source.Plainly serverConfig worlds calls) (event : Event) :
    source.handleEvent event world' token = source.handleEvent event world token := by
  cases source with
  | tcpListener listener tokenCounter config => rfl
  | stdin raw listenerToken => rfl
  | tcpStream connection =>
      obtain ⟨-, own⟩ := plainly
      simp only [handleEvent, handleStreamEvent]
      cases state : connection.connectionState with
      | close => rfl
      | write response =>
          simp only [Connection.writeResponse, twin.headerOrder]
      | read incrementalRequest =>
          have handler := own ⟨incrementalRequest, state⟩
          have responds : ∀ reads next,
              Connection.respond { connection with stream := { connection.stream with reads } }
                  world' token next =
                Connection.respond { connection with stream := { connection.stream with reads } }
                  world token next := by
            intro reads next
            apply Connection.respond_twin twin
            exact handler
          simp only [Connection.readRequest, responds]

namespace EventLoop

variable {loop after : EventLoop}

/-- The same event, in the same world or a twin. -/
def TwinEvent (serverConfig : ServerConfig) (item' item : Event × World chrono) : Prop :=
  item'.1 = item.1 ∧ (item'.2 = item.2 ∨ item'.2.Twin serverConfig item.2)

/-- The events of a batch come to the same in twin worlds. -/
theorem handleEvents_twin {known : Token → Set (World chrono)}
    {events events' : List (Event × World chrono)}
    (twins : List.Forall₂ (TwinEvent serverConfig) events' events)
    (all : ∀ item ∈ events, item.2 ∈ known item.1.token)
    (answered : loop.AnsweredPlainly serverConfig known) (fresh : loop.FreshTokens)
    (handled : handleEvents events loop = (.ok (), after)) :
    handleEvents events' loop = (.ok (), after) := by
  induction twins generalizing loop with
  | nil => exact handled
  | @cons item' item events' events twin twins ih =>
      obtain ⟨event, world⟩ := item
      obtain ⟨_, world'⟩ := item'
      obtain ⟨⟨⟩, twin⟩ := twin
      obtain ⟨here, all⟩ := List.forall_mem_cons.mp all
      obtain ⟨⟨⟩, between, began, rest⟩ := Stateful.bind_apply_eq_ok_iff.mp handled
      have freshBetween := fresh.step (.handle began)
      have began' : handleEvent event world' loop = (.ok (), between) := by
        rw [← began]
        rcases twin with rfl | twin
        · dsimp only
        · cases found : loop.eventSources.lookup event.token with
          | none => simp only [handleEvent, found]
          | some source =>
              have plainly := answered.sources _ source (.inl found)
              simp only [handleEvent, found, EventSource.handleEvent_twin twin plainly]
      refine Stateful.bind_apply_eq_ok_iff.mpr ⟨(), between, began', ?_⟩
      exact ih all (answered.handleEvent fresh freshBetween here began) freshBetween rest

end EventLoop

/-- The same turn, with some of its events in twin worlds. -/
structure Turn.Twin (serverConfig : ServerConfig) (turn' turn : Turn chrono) : Prop where
  commands : turn'.commands = turn.commands
  events : ∃ events' events, turn'.events = .ok events' ∧ turn.events = .ok events ∧
    List.Forall₂ (EventLoop.TwinEvent serverConfig) events' events

/-- **What the event loop discloses.** A run of the loop goes through the same states whatever the
files outside the document roots may be, if no index leads out of one. -/
theorem loop_undisclosed {steps steps' : List (EventLoop × Turn chrono)} {loop : EventLoop}
    (run : (selectSystem chrono serverConfig).Run steps loop)
    (twins : List.Forall₂ (fun step' step => step'.1 = step.1 ∧
      step'.2.Twin serverConfig step.2) steps' steps) :
    (selectSystem chrono serverConfig).Run steps' loop := by
  refine run.relabel ?_ twins
  rintro loop turn' turn after ⟨earlier, before⟩ ⟨commands, events', events, polled', polled, twins⟩
    taken
  have answered := answeredPlainly_of_run before fun token item _ => Set.mem_univ item.2
  have fresh := freshTokens_of_select before.reachable
  change loop.next turn = (.ok (), after) at taken
  change loop.next turn' = (.ok (), after)
  rw [EventLoop.next, polled, Outcome.ofExcept_ok, Stateful.lift_bind_apply] at taken
  rw [EventLoop.next, polled', Outcome.ofExcept_ok, Stateful.lift_bind_apply, commands]
  obtain ⟨⟨⟩, between, handled, rest⟩ := Stateful.bind_apply_eq_ok_iff.mp taken
  have handled' := EventLoop.handleEvents_twin twins (fun item _ => Set.mem_univ item.2) answered
    fresh handled
  exact Stateful.bind_apply_eq_ok_iff.mpr ⟨(), between, handled', rest⟩

end Loop

namespace Site

/-- A turn in which the loop is told of some events in a world. -/
def toldIn (world : World gregorian) (events : List Event) : Turn gregorian :=
  ⟨.ok (events.map fun event => (event, world)), fun _ => ⟨8, .ok ()⟩⟩

/-- The loop once the visitor of the sealed site is accepted. -/
def welcomed : EventLoop := (registered.next (toldIn sealedWorld [⟨1, true, false⟩])).2

/-- The loop once the page of the sealed site is requested. -/
def asked : EventLoop := (welcomed.next (toldIn sealedWorld [⟨2, true, false⟩])).2

/-- The turns in which the page is requested, in a world. -/
def turnsIn (world : World gregorian) : List (EventLoop × Turn gregorian) :=
  [(started, toldIn world []), (registered, toldIn world [⟨1, true, false⟩]),
    (welcomed, toldIn world [⟨2, true, false⟩])]

private theorem toldIn_twin (events : List Event) :
    (toldIn otherWorld events).Twin Site.serverConfig (toldIn sealedWorld events) where
  commands := rfl
  events := by
    refine ⟨_, _, rfl, rfl, ?_⟩
    rw [List.forall₂_map_left_iff, List.forall₂_map_right_iff]
    exact List.forall₂_same.mpr fun event _ => ⟨rfl, .inr twin⟩

end Site

/-- The page of the sealed site is requested, whatever the secret is. -/
theorem loop_undisclosed_site :
    (selectSystem gregorian Site.serverConfig).Run (Site.turnsIn Site.otherWorld) Site.asked := by
  have initial : (selectSystem gregorian Site.serverConfig).initial Site.started := ⟨_, _, rfl⟩
  have run := TransitionSystem.Run.start initial
  have run := run.step (Prod.ext (by decide +kernel) rfl :
    Site.started.next (Site.toldIn Site.sealedWorld []) = (.ok (), Site.registered))
  have run := run.step (Prod.ext (by decide +kernel) rfl :
    Site.registered.next (Site.toldIn Site.sealedWorld [⟨1, true, false⟩]) =
      (.ok (), Site.welcomed))
  have run := run.step (Prod.ext (by decide +kernel) rfl :
    Site.welcomed.next (Site.toldIn Site.sealedWorld [⟨2, true, false⟩]) = (.ok (), Site.asked))
  refine loop_undisclosed run ?_
  exact .cons ⟨rfl, Site.toldIn_twin []⟩ (.cons ⟨rfl, Site.toldIn_twin _⟩
    (.cons ⟨rfl, Site.toldIn_twin _⟩ .nil))

end RustHttpServer
