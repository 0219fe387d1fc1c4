import RustHttpServer.Host.Transparency
import RustHttpServer.Seq.Requests

/-!
# One connection after the other

The server of `main.rs` that processes its connections in the main thread, with one handler
for all of them. Its runs show as visits to that handler, one for each connection that brings a
request (`single_refines_visits`). A request that fails is forgotten; but a failed accept ends the
server, and so does everything over which `process` panics (`single_serving_iff`).
-/

namespace RustHttpServer

open Foundation

variable {chrono : Chrono}

/-- The port that a server is to listen on. -/
def listenPort (serverConfig : ServerConfig) : Outcome Error Text :=
  Outcome.okOr ⟨"Config did not include a ListenPort entry"⟩
    (serverConfig.directives.lookup .listenPort)

/-- The address of a port. -/
def listenAddress (port : Text) : Text := "127.0.0.1:".toList ++ port

/-- What `listener.incoming()` yields, and the world in which that is processed. -/
structure Incoming (chrono : Chrono) where
  stream : Except IoError TcpStream
  world : World chrono

/-- Where the main thread stands in `single`. -/
inductive Single
  /-- In `listener.incoming()`. -/
  | serving (requestHandler : Host)
  /-- In a call of `seq::process` that never returns. -/
  | blocked (requestHandler : Host)
  /-- It has returned. -/
  | returned (error : Error)
  | panicked

namespace Single

/-- `single`, up to its loop. -/
def start (serverConfig : ServerConfig) (bind : Text → Except IoError Unit) :
    Outcome Error Single := do
  let port ← listenPort serverConfig
  let _ ← Outcome.ofExcept Error.ofIo (bind (listenAddress port))
  let requestHandler ← Host.new serverConfig
  return .serving requestHandler

/-- A round of the loop of `single`. An error of `process` is only printed. -/
def next (server : Single) (incoming : Incoming chrono) : Option Single :=
  match server with
  | .serving requestHandler =>
      match incoming.stream with
      | .ok stream =>
          let arrival : Arrival chrono := ⟨incoming.world, stream, false⟩
          match requestHandler.outcome arrival with
          | some (.ok ()) => some (.serving (requestHandler.serve arrival))
          | some (.err _) => some (.serving (requestHandler.serve arrival))
          | some .abort => some .panicked
          | none => some (.blocked (requestHandler.serve arrival))
      | .error error => some (.returned (.ofIo error))
  | _ => none

/-- The handler, while there is one. -/
def handler? : Single → Option Host
  | .serving requestHandler => some requestHandler
  | .blocked requestHandler => some requestHandler
  | _ => none

/-- The connection that is processed in a round. -/
def arrival? (step : Single × Incoming chrono) : Option (Host × Arrival chrono) :=
  match step.1, step.2.stream with
  | .serving requestHandler, .ok stream => some (requestHandler, ⟨step.2.world, stream, false⟩)
  | _, _ => none

/-- The visit that is paid to the handler in a round. -/
def visit? (step : Single × Incoming chrono) : Option (Host × Exchange chrono) :=
  (arrival? step).bind fun (requestHandler, arrival) =>
    (requestHandler.exchange? arrival).map (requestHandler, ·)

end Single

/-- A connection that is processed shows as a visit, or leaves the handler as it is. -/
theorem Host.shows_of_attends (serverConfig : ServerConfig) {State : Type}
    {keeps : State → Host → Prop} {next : State} {requestHandler : Host}
    {arrival : Arrival chrono} (attends : requestHandler.Attends arrival)
    (kept : requestHandler.outcome arrival ≠ some .abort →
      keeps next (requestHandler.serve arrival))
    (lost : requestHandler.outcome arrival = some .abort → ∀ host, keeps next host) :
    (visits chrono serverConfig).Shows keeps next requestHandler
      ((requestHandler.exchange? arrival).map (requestHandler, ·)) := by
  unfold Attends at attends
  cases visited : requestHandler.exchange? arrival with
  | some exchange =>
      rw [visited] at attends
      obtain ⟨-, -, -, responds, -⟩ := attends
      refine ⟨rfl, _, responds, ?_⟩
      by_cases aborted : requestHandler.outcome arrival = some .abort
      · exact lost aborted _
      · exact kept aborted
  | none =>
      rw [visited] at attends
      obtain ⟨-, -, unchanged⟩ := attends
      by_cases aborted : requestHandler.outcome arrival = some .abort
      · exact lost aborted _
      · rw [← unchanged aborted]
        exact kept aborted

/-- The runs of `single`. -/
def singleSystem (chrono : Chrono) (serverConfig : ServerConfig) :
    TransitionSystem Single (Incoming chrono) where
  initial server := ∃ bind, Single.start serverConfig bind = .ok server
  step server incoming after := server.next incoming = some after

namespace Single

/-- What a round can do. -/
inductive Round (incoming : Incoming chrono) : Single → Single → Prop
  | served {requestHandler : Host} {stream : TcpStream} : incoming.stream = .ok stream →
      requestHandler.outcome ⟨incoming.world, stream, false⟩ ≠ none →
      requestHandler.outcome ⟨incoming.world, stream, false⟩ ≠ some .abort →
        Round incoming (.serving requestHandler)
          (.serving (requestHandler.serve ⟨incoming.world, stream, false⟩))
  | blocks {requestHandler : Host} {stream : TcpStream} : incoming.stream = .ok stream →
      requestHandler.outcome ⟨incoming.world, stream, false⟩ = none →
        Round incoming (.serving requestHandler)
          (.blocked (requestHandler.serve ⟨incoming.world, stream, false⟩))
  | panics {requestHandler : Host} {stream : TcpStream} : incoming.stream = .ok stream →
      requestHandler.outcome ⟨incoming.world, stream, false⟩ = some .abort →
        Round incoming (.serving requestHandler) .panicked
  | returns {requestHandler : Host} {error : IoError} : incoming.stream = .error error →
      Round incoming (.serving requestHandler) (.returned (.ofIo error))

/-- Every round is one of those there are. -/
private theorem round_of_next {server after : Single} {incoming : Incoming chrono}
    (taken : server.next incoming = some after) : Round incoming server after := by
  cases server with
  | blocked requestHandler => cases taken
  | returned error => cases taken
  | panicked => cases taken
  | serving requestHandler =>
      cases accepted : incoming.stream with
      | error error =>
          rw [next, accepted] at taken
          cases taken
          exact .returns accepted
      | ok stream =>
          rw [next, accepted] at taken
          dsimp only at taken
          cases ended : requestHandler.outcome ⟨incoming.world, stream, false⟩ with
          | none =>
              rw [ended] at taken
              cases taken
              exact .blocks accepted ended
          | some result =>
              rw [ended] at taken
              cases result with
              | ok value =>
                  cases taken
                  exact .served accepted (by rw [ended]; exact nofun) (by rw [ended]; exact nofun)
              | err error =>
                  cases taken
                  exact .served accepted (by rw [ended]; exact nofun) (by rw [ended]; exact nofun)
              | abort =>
                  cases taken
                  exact .panics accepted ended

/-- A server that starts has a new handler. -/
theorem new_of_start {serverConfig : ServerConfig} {bind : Text → Except IoError Unit}
    {server : Single} (started : start serverConfig bind = .ok server) : ∃ requestHandler,
      (Host.new serverConfig : Outcome Error Host) = .ok requestHandler ∧
        server = .serving requestHandler := by
  obtain ⟨port, -, started⟩ := Outcome.bind_eq_ok_iff.mp started
  obtain ⟨-, -, started⟩ := Outcome.bind_eq_ok_iff.mp started
  obtain ⟨requestHandler, made, started⟩ := Outcome.bind_eq_ok_iff.mp started
  exact ⟨requestHandler, made, (Outcome.ok.inj started).symm⟩

/-- The handler of the server, if it has one, is a certain host. -/
def Keeps (server : Single) (host : Host) : Prop :=
  ∀ requestHandler ∈ server.handler?, requestHandler = host

private theorem keeps_serving (requestHandler : Host) :
    (serving requestHandler).Keeps requestHandler :=
  fun _ same => (Option.some.inj same).symm

/-- A round shows in the host as the visit of its connection, if any. -/
private theorem round_simulated (serverConfig : ServerConfig) {server after : Single}
    {incoming : Incoming chrono} {host : Host} (keeps : server.Keeps host)
    (round : Round incoming server after) :
    (Host.visits chrono serverConfig).Shows Keeps after host (visit? (server, incoming)) := by
  unfold visit? arrival?
  cases round with
  | @served requestHandler stream accepted returned calm =>
      obtain rfl := keeps requestHandler rfl
      rw [accepted]
      refine Host.shows_of_attends serverConfig (attends_process _ _) (fun _ => keeps_serving _) ?_
      exact fun aborted => absurd aborted calm
  | @blocks requestHandler stream accepted waits =>
      obtain rfl := keeps requestHandler rfl
      rw [accepted]
      refine Host.shows_of_attends serverConfig (attends_process _ _) (fun _ => keeps_serving _) ?_
      intro aborted
      cases waits.symm.trans aborted
  | @panics requestHandler stream accepted aborted =>
      obtain rfl := keeps requestHandler rfl
      rw [accepted]
      refine Host.shows_of_attends serverConfig (attends_process _ _) (fun calm => ?_) nofun
      exact absurd aborted calm
  | @returns requestHandler error accepted =>
      rw [accepted]
      exact nofun

end Single

/-- **The server shows as visits to its handler.** In every run the connections that bring a
request pay visits to one handler, in the order in which they are accepted, and what is written on
each is the response to its visit; on the others nothing is written. -/
theorem single_refines_visits {serverConfig : ServerConfig}
    {steps : List (Single × Incoming chrono)} {server : Single}
    (run : (singleSystem chrono serverConfig).Run steps server) :
    (∃ requestHandler, server.Keeps requestHandler ∧
      (Host.visits chrono serverConfig).Run (steps.filterMap Single.visit?) requestHandler) ∧
    ∀ step ∈ steps, ∀ requestHandler arrival,
      Single.arrival? step = some (requestHandler, arrival) → requestHandler.Attends arrival := by
  refine ⟨run.simulate Single.Keeps Single.visit? ?_ ?_, ?_⟩
  · rintro server ⟨bind, started⟩
    obtain ⟨requestHandler, made, rfl⟩ := Single.new_of_start started
    exact ⟨requestHandler, made, Single.keeps_serving requestHandler⟩
  · intro server incoming after host keeps taken
    exact Single.round_simulated serverConfig keeps (Single.round_of_next taken)
  · intro step _ requestHandler arrival _
    exact attends_process requestHandler arrival

/-- A start on which the port can be bound. -/
theorem Site.single_start : Single.start serverConfig (fun _ => .ok ()) = .ok (.serving host) := by
  have port : listenPort serverConfig = .ok "8080".toList := rfl
  rw [Single.start, port, Outcome.ok_bind, Outcome.ofExcept_ok, Outcome.ok_bind, new_host]
  rfl

/-- The visitor of the site comes to a server that serves it. -/
theorem Site.single_visited : (singleSystem gregorian serverConfig).Run
    [(.serving host, ⟨.ok visitor.stream, world⟩)] (.serving (host.serve visitor)) := by
  have answered : host.outcome visitor = some (.ok ()) := by decide +kernel
  have taken : (Single.serving host).next ⟨.ok visitor.stream, world⟩ =
      some (.serving (host.serve visitor)) := by
    unfold Single.next
    dsimp only
    rw [show host.outcome ⟨world, visitor.stream, false⟩ = some (.ok ()) from answered]
    rfl
  have initial : (singleSystem gregorian serverConfig).initial (.serving host) :=
    ⟨_, single_start⟩
  exact TransitionSystem.Run.step (.start initial) taken

/-- The visitor of the site pays a visit. -/
theorem single_refines_visits_site : ∃ requestHandler,
    (Single.serving (Site.host.serve Site.visitor)).Keeps requestHandler ∧
      (Host.visits gregorian Site.serverConfig).Run
        ([(Single.serving Site.host, ⟨.ok Site.visitor.stream, Site.world⟩)].filterMap
          Single.visit?) requestHandler :=
  (single_refines_visits Site.single_visited).1

/-! ### What ends the server -/

namespace Single

/-- The server comes through a round: a connection is accepted, `process` comes to an end on it,
what it reads is not miscut, and the handler does not panic. -/
def Survives (step : Single × Incoming chrono) : Prop :=
  ∃ requestHandler arrival, arrival? step = some (requestHandler, arrival) ∧
    requestHandler.outcome arrival ≠ none ∧
    ¬MiscutChunks (chunksRead (requestHandler.calls arrival)) ∧
    ∀ request ∈ requestsHandled (requestHandler.calls arrival),
      ¬requestHandler.Panics arrival.world request

/-- The server survives a connection on which `process` comes to an end and does not panic. -/
private theorem survives_serving_iff (printsUtc : chrono.PrintsUtc) (strict : chrono.Strict)
    {requestHandler : Host} {incoming : Incoming chrono} {stream : TcpStream}
    (accepted : incoming.stream = .ok stream) :
    Survives (.serving requestHandler, incoming) ↔
      requestHandler.outcome ⟨incoming.world, stream, false⟩ ≠ none ∧
        requestHandler.outcome ⟨incoming.world, stream, false⟩ ≠ some .abort := by
  have arrives : arrival? (.serving requestHandler, incoming) =
      some (requestHandler, ⟨incoming.world, stream, false⟩) := by
    rw [arrival?, accepted]
  rw [Ne, Ne, process_eq_abort_iff requestHandler _ printsUtc strict]
  constructor
  · rintro ⟨_, _, same, ended, whole, calm⟩
    cases arrives.symm.trans same
    refine ⟨ended, ?_⟩
    rintro (miscut | ⟨request, inside, panics⟩)
    · exact whole miscut
    · exact calm request inside panics
  · rintro ⟨ended, neither⟩
    refine ⟨_, _, arrives, ended, fun miscut => neither (.inl miscut), ?_⟩
    exact fun request inside panics => neither (.inr ⟨request, inside, panics⟩)

/-- A round leaves the server serving exactly if it comes through. -/
theorem serving_of_round_iff (printsUtc : chrono.PrintsUtc) (strict : chrono.Strict)
    {server after : Single} {incoming : Incoming chrono} (round : Round incoming server after) :
    (∃ requestHandler, after = .serving requestHandler) ↔ Survives (server, incoming) := by
  cases round with
  | served accepted ended calm =>
      rw [survives_serving_iff printsUtc strict accepted]
      exact iff_of_true ⟨_, rfl⟩ ⟨ended, calm⟩
  | blocks accepted waits =>
      rw [survives_serving_iff printsUtc strict accepted]
      exact iff_of_false nofun fun both => both.1 waits
  | panics accepted aborted =>
      rw [survives_serving_iff printsUtc strict accepted]
      exact iff_of_false nofun fun both => both.2 aborted
  | returns accepted =>
      refine iff_of_false nofun ?_
      rintro ⟨_, _, same, -⟩
      rw [arrival?, accepted] at same
      cases same

private theorem serving_of_round {server after : Single} {incoming : Incoming chrono}
    (round : Round incoming server after) : ∃ requestHandler, server = .serving requestHandler := by
  cases round <;> exact ⟨_, rfl⟩

end Single

/-- **What the server survives.** After any run the server is serving exactly if it has come
through every round: each accept gave a connection, on which `process` has come to an end over
chunks that are not miscut, and no request was one that the handler panics over. -/
theorem single_serving_iff (printsUtc : chrono.PrintsUtc) (strict : chrono.Strict)
    {serverConfig : ServerConfig} {steps : List (Single × Incoming chrono)} {server : Single}
    (run : (singleSystem chrono serverConfig).Run steps server) :
    (∃ requestHandler, server = .serving requestHandler) ↔
      ∀ step ∈ steps, Single.Survives step := by
  induction run with
  | start initial =>
      obtain ⟨bind, started⟩ := initial
      obtain ⟨requestHandler, -, rfl⟩ := Single.new_of_start started
      exact iff_of_true ⟨requestHandler, rfl⟩ nofun
  | @step steps server after incoming run taken ih =>
      have round := Single.round_of_next taken
      have before := ih.mp (Single.serving_of_round round)
      rw [Single.serving_of_round_iff printsUtc strict round]
      simp only [List.mem_append, List.mem_singleton, or_imp, forall_and, forall_eq]
      exact (and_iff_right before).symm

/-- The server comes through the visit. -/
theorem single_serving_iff_site :
    Single.Survives (.serving Site.host, ⟨.ok Site.visitor.stream, Site.world⟩) :=
  (single_serving_iff gregorian_printsUtc gregorian_strict Site.single_visited).mp ⟨_, rfl⟩ _
    (List.mem_singleton_self _)

end RustHttpServer
