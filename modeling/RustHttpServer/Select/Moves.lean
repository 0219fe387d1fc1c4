import Mathlib.Logic.Relation
import RustHttpServer.Select

/-!
# The moves of the event loop

A turn of the event loop is a sequence of moves (`next_moves`): a source handles an event,
or a command is executed. The commands of a turn that are submitted at its end count as
pending from the move on that returns them, so that the queue always holds all pending
commands, in the order in which they are executed.
-/

namespace RustHttpServer

open Foundation Utf8

variable {chrono : Chrono}

namespace Connection

/-- The connection is in the state `Read`. -/
def Reading (connection : Connection) : Prop :=
  ∃ incrementalRequest, connection.connectionState = .read incrementalRequest

/-- The connection is in the state `Read`, and its request is not complete. -/
def Awaiting (connection : Connection) : Prop :=
  ∃ incrementalRequest, connection.connectionState = .read incrementalRequest ∧
    incrementalRequest.isFull = false

/-- The connection has reached the age of `STREAM_TIMEOUT`. -/
def Expired (connection : Connection) (now : Instant) : Prop :=
  ∃ age, checkedDurationSince now connection.acceptTime = some age ∧ streamTimeout ≤ age

/-- What handling an event makes of a connection: it does not begin to read again. -/
structure Advances (connection connection' : Connection) : Prop where
  acceptTime : connection'.acceptTime = connection.acceptTime
  reading : connection'.Reading → connection.Reading
  awaiting : connection.Awaiting → connection'.Reading → connection'.Awaiting

end Connection

/-- The commands that the handler of a connection submits. -/
inductive Command.Adjusts (token : Token) : Command → Prop
  | modifyInterests : Adjusts token (.respond (.modifyInterests token .writable))
  | closeSource : Adjusts token (.respond (.closeSource token))

/-- A command that has no effect. -/
inductive Command.Skips (eventSources : HashMap Token EventSource) : Command → Prop
  | modifyInterests {token : Token} {interests : Interest} :
      eventSources.lookup token = none → Skips eventSources
        (.respond (.modifyInterests token interests))
  | closeSource {token : Token} :
      eventSources.lookup token = none → Skips eventSources (.respond (.closeSource token))
  | checkStreamTimeout {token : Token} :
      (∀ connection, eventSources.lookup token = some (.tcpStream connection) →
        ¬connection.Awaiting) → Skips eventSources (.checkStreamTimeout token)

/-- A command that closes a source. -/
inductive Command.Closes (token : Token) (source : EventSource) (now : Instant) : Command → Prop
  | closeSource : Closes token source now (.respond (.closeSource token))
  | checkStreamTimeout {connection : Connection} :
      source = .tcpStream connection → connection.Awaiting → connection.Expired now →
        Closes token source now (.checkStreamTimeout token)

namespace EventLoop

/-- What the handling of an event can do. -/
inductive Handling : EventLoop → EventLoop → Prop
  /-- A connection handles an event. -/
  | advance {loop : EventLoop} {token : Token} {connection connection' : Connection}
      {commands : List Command} (calls : List Call) :
      loop.eventSources.lookup token = some (.tcpStream connection) →
      connection.Advances connection' → (∀ command ∈ commands, command.Adjusts token) →
      Handling loop { loop with
        eventSources := loop.eventSources.insert token (.tcpStream connection')
        commandQueue := loop.commandQueue ++ commands
        log := loop.log ++ calls.map (.call token) }
  /-- The listener accepts a connection. -/
  | accept {loop : EventLoop} {token tokenCounter : Nat} {listener : TcpListener}
      {serverConfig : ServerConfig} (listener' : TcpListener) {connection : Connection} :
      loop.eventSources.lookup token = some (.tcpListener listener tokenCounter serverConfig) →
      connection.connectionState = .read (.none []) →
      Handling loop { loop with
        eventSources := loop.eventSources.insert token
          (.tcpListener listener' (tokenCounter + 1) serverConfig)
        commandQueue := loop.commandQueue ++
          [.respond (.newSource (tokenCounter + 1) (.tcpStream connection) .readable),
            .checkStreamTimeout (tokenCounter + 1)] }
  /-- The listener has no more connections to accept. -/
  | listen {loop : EventLoop} {token tokenCounter : Nat} {listener : TcpListener}
      {serverConfig : ServerConfig} (listener' : TcpListener) :
      loop.eventSources.lookup token = some (.tcpListener listener tokenCounter serverConfig) →
      Handling loop { loop with
        eventSources := loop.eventSources.insert token
          (.tcpListener listener' tokenCounter serverConfig) }
  /-- The standard input handles an event. -/
  | readLine {loop : EventLoop} {token listenerToken : Token} {stdin : Stdin} (stdin' : Stdin)
      {commands : List Command} :
      loop.eventSources.lookup token = some (.stdin stdin listenerToken) →
      (∀ command ∈ commands, command = .respond (.closeSource listenerToken)) →
      Handling loop { loop with
        eventSources := loop.eventSources.insert token (.stdin stdin' listenerToken)
        commandQueue := loop.commandQueue ++ commands }
  /-- A handler fails. -/
  | fail {loop : EventLoop} {token : Token} {source : EventSource} (calls : List Call) :
      loop.eventSources.lookup token = some source →
      Handling loop (dropSource token source { loop with
        eventSources := loop.eventSources.erase token
        log := loop.log ++ calls.map (.call token) })

/-- What the execution of a command can do. -/
inductive Execution : EventLoop → EventLoop → Prop
  /-- A source is registered. -/
  | register {loop : EventLoop} {token : Token} {source : EventSource} {interests : Interest}
      {rest : List Command} (now : Instant) :
      loop.commandQueue = .respond (.newSource token source interests) :: rest →
      Execution loop {
        registered := loop.registered.insert token interests
        eventSources := loop.eventSources.insert token source
        commandQueue := rest
        log := loop.log ++ [.execute (.respond (.newSource token source interests)) now none] }
  /-- The interests of a source are modified. -/
  | modify {loop : EventLoop} {token : Token} {source : EventSource} {interests : Interest}
      {rest : List Command} (now : Instant) :
      loop.commandQueue = .respond (.modifyInterests token interests) :: rest →
      loop.eventSources.lookup token = some source →
      Execution loop { loop with
        registered := loop.registered.insert token interests
        commandQueue := rest
        log := loop.log ++ [.execute (.respond (.modifyInterests token interests)) now none] }
  /-- A source is closed. -/
  | close {loop : EventLoop} {token : Token} {source : EventSource} {command : Command}
      {rest : List Command} {now : Instant} :
      loop.commandQueue = command :: rest → loop.eventSources.lookup token = some source →
      command.Closes token source now →
      Execution loop {
        registered := loop.registered.erase token
        eventSources := loop.eventSources.erase token
        commandQueue := rest
        log := loop.log ++ [.execute command now (some source)] }
  /-- A command has no effect. -/
  | skip {loop : EventLoop} {command : Command} {rest : List Command} (now : Instant) :
      loop.commandQueue = command :: rest → command.Skips loop.eventSources →
      Execution loop { loop with
        commandQueue := rest
        log := loop.log ++ [.execute command now none] }
  /-- A connection is checked, and has not reached the age of `STREAM_TIMEOUT`. -/
  | recheck {loop : EventLoop} {token : Token} {connection : Connection} {rest : List Command}
      {now : Instant} :
      loop.commandQueue = .checkStreamTimeout token :: rest →
      loop.eventSources.lookup token = some (.tcpStream connection) → connection.Awaiting →
      ¬connection.Expired now →
      Execution loop { loop with
        commandQueue := rest ++ [.checkStreamTimeout token]
        log := loop.log ++ [.execute (.checkStreamTimeout token) now none] }
  /-- A command is submitted by another one. -/
  | resubmit {loop : EventLoop} {command : Command} {rest : List Command} (now : Instant) :
      loop.commandQueue = .respond (.submitCommand command) :: rest →
      Execution loop { loop with
        commandQueue := rest ++ [command]
        log := loop.log ++ [.execute (.respond (.submitCommand command)) now none] }

/-- The moves. -/
inductive Move (loop after : EventLoop) : Prop
  | handling : Handling loop after → Move loop after
  | execution : Execution loop after → Move loop after

/-- Some moves. -/
abbrev Moves : EventLoop → EventLoop → Prop := Relation.ReflTransGen Move

end EventLoop

/-! ## The handlers -/

/-- A connection in the state `Read` is reading. -/
theorem Connection.Reading.of_read {connection : Connection}
    {incrementalRequest : IncrementalRequest}
    (reading : connection.connectionState = .read incrementalRequest) : connection.Reading :=
  ⟨incrementalRequest, reading⟩

/-- A connection that waits for more has no complete request. -/
theorem Connection.Awaiting.incomplete {connection : Connection}
    {incrementalRequest : IncrementalRequest} (awaiting : connection.Awaiting)
    (reading : connection.connectionState = .read incrementalRequest) :
    incrementalRequest.isFull = false := by
  obtain ⟨_, state, incomplete⟩ := awaiting
  rw [reading] at state
  cases state
  exact incomplete

/-- The loop is suspended with an incomplete request, if it has been entered with one. -/
theorem incomplete_of_suspended (reads : List (Except IoError Bytes))
    (incrementalRequest : IncrementalRequest) {suspended : IncrementalRequest}
    (incomplete : incrementalRequest.isFull = false)
    (ended : (readLoop incrementalRequest reads).1 = .suspended suspended) :
    suspended.isFull = false := by
  fun_induction readLoop incrementalRequest reads with
  | case1 incrementalRequest =>
      cases ended
      exact incomplete
  | case2 incrementalRequest error reads blocked =>
      cases ended
      exact incomplete
  | case5 incrementalRequest bytes reads some calls parsed result incomplete' ending left more
      looped ih =>
      rw [looped] at ih
      exact ih (Bool.eq_false_iff.mpr incomplete') ended
  | _ => cases ended

namespace Connection

variable {connection : Connection} {token : Token} {world : World chrono}

/-- A connection that goes on reading an incomplete request. -/
theorem Advances.of_read {connection' : Connection} {parsed : IncrementalRequest}
    (acceptTime : connection'.acceptTime = connection.acceptTime) (reading : connection.Reading)
    (state : connection'.connectionState = .read parsed)
    (incomplete : connection.Awaiting → parsed.isFull = false) :
    connection.Advances connection' where
  acceptTime := acceptTime
  reading _ := reading
  awaiting awaiting _ := ⟨parsed, state, incomplete awaiting⟩

/-- A connection that no longer reads. -/
theorem Advances.of_not_reading {connection' : Connection}
    (acceptTime : connection'.acceptTime = connection.acceptTime)
    (done : ¬connection'.Reading) : connection.Advances connection' where
  acceptTime := acceptTime
  reading reading := absurd reading done
  awaiting _ reading := absurd reading done

/-- A connection that is left as it is advances. -/
theorem Advances.refl (connection : Connection) : connection.Advances connection where
  acceptTime := rfl
  reading := id
  awaiting awaiting _ := awaiting

/-- Connections advance step by step. -/
theorem Advances.trans {connection' connection'' : Connection}
    (first : connection.Advances connection') (second : connection'.Advances connection'') :
    connection.Advances connection'' where
  acceptTime := second.acceptTime.trans first.acceptTime
  reading reading := first.reading (second.reading reading)
  awaiting awaiting reading :=
    second.awaiting (first.awaiting awaiting (second.reading reading)) reading

/-- What a handler returns advances a connection. -/
def Returns (connection : Connection) (token : Token)
    (outcome : Outcome Error (EventSource × List HandleEventResponse)) : Prop :=
  ∀ source responses, outcome = .ok (source, responses) → ∃ connection',
    source = .tcpStream connection' ∧ connection.Advances connection' ∧
      ∀ response ∈ responses, response.toCommand.Adjusts token

/-- A handler may return the connection that has advanced, and commands that adjust it. -/
theorem Returns.ok {connection' : Connection} {responses : List HandleEventResponse}
    (advances : connection.Advances connection')
    (adjusts : ∀ response ∈ responses, response.toCommand.Adjusts token) :
    connection.Returns token (.ok (.tcpStream connection', responses)) := by
  rintro source responses' ⟨⟩
  exact ⟨connection', rfl, advances, adjusts⟩

private theorem Returns.of_advances {connection' : Connection}
    {outcome : Outcome Error (EventSource × List HandleEventResponse)}
    (advances : connection.Advances connection') (returns : connection'.Returns token outcome) :
    connection.Returns token outcome := by
  intro source responses returned
  obtain ⟨final, same, later, adjusts⟩ := returns source responses returned
  exact ⟨final, same, advances.trans later, adjusts⟩

/-- A handler may fail. -/
theorem Returns.err (error : Error) : connection.Returns token (.err error) := by
  intro source responses returned
  cases returned

/-- A handler may abort. -/
theorem Returns.abort : connection.Returns token .abort := by
  intro source responses returned
  cases returned

private theorem adjusts_closeSource :
    ∀ response ∈ [HandleEventResponse.emptyCommand (.closeSource token)],
      response.toCommand.Adjusts token := by
  intro response member
  rw [List.mem_singleton.mp member]
  exact .closeSource

private theorem adjusts_modifyInterests :
    ∀ response ∈ [HandleEventResponse.emptyCommand (.modifyInterests token .writable)],
      response.toCommand.Adjusts token := by
  intro response member
  rw [List.mem_singleton.mp member]
  exact .modifyInterests

/-- Without a complete request the connection goes on reading. -/
theorem respond_incomplete {incrementalRequest : IncrementalRequest}
    (incomplete : incrementalRequest.isFull = false) :
    connection.respond world token incrementalRequest =
      (.ok (.tcpStream { connection with connectionState := .read incrementalRequest }, []),
        []) := by
  cases incrementalRequest with
  | fullRequest request => cases incomplete
  | _ => rfl

/-- Responding advances a connection. -/
private theorem returns_respond (reading : connection.Reading)
    (incrementalRequest : IncrementalRequest) :
    connection.Returns token (connection.respond world token incrementalRequest).1 := by
  cases full : incrementalRequest.isFull with
  | false =>
      rw [respond_incomplete full]
      exact .ok (.of_read rfl reading rfl fun _ => full) (List.forall_mem_nil _)
  | true =>
      obtain ⟨request, rfl⟩ := exists_fullRequest full
      unfold respond
      cases connection.stream.peerAddr with
      | error error => exact .err _
      | ok addr =>
          dsimp only
          split
          · exact .ok (.of_not_reading rfl fun ⟨_, state⟩ => nomatch state) adjusts_modifyInterests
          · exact .err _
          · exact .abort

/-- The handler of a connection advances it. -/
theorem returns_handleStreamEvent (event : Event) (world : World chrono) (token : Token)
    (connection : Connection) :
    connection.Returns token (handleStreamEvent event world token connection).1 := by
  unfold handleStreamEvent
  cases state : connection.connectionState with
  | read incrementalRequest =>
      have reading := Connection.Reading.of_read state
      dsimp only
      split
      · unfold readRequest
        cases loop : readLoop incrementalRequest connection.stream.reads with
        | mk ending left =>
            obtain ⟨reads, calls⟩ := left
            cases ending with
            | suspended suspended =>
                refine .ok (.of_read rfl reading rfl fun awaiting => ?_) (List.forall_mem_nil _)
                refine incomplete_of_suspended connection.stream.reads incrementalRequest
                  (awaiting.incomplete state) ?_
                rw [loop]
            | rejected => exact .ok (.of_read rfl reading rfl fun _ => rfl) adjusts_closeSource
            | done parsed =>
                have advances : connection.Advances { connection with
                    stream := { connection.stream with reads } } :=
                  .of_read rfl reading state fun awaiting => awaiting.incomplete state
                exact .of_advances advances
                  (@returns_respond chrono { connection with
                    stream := { connection.stream with reads } } token world reading parsed)
            | failed error => exact .err _
            | aborted => exact .abort
      · exact .ok (.refl connection) (List.forall_mem_nil _)
  | write response =>
      dsimp only
      split
      · unfold writeResponse
        cases loop : writeLoop world.headerOrder response connection.stream.writes with
        | mk ending left =>
            obtain ⟨writes, calls⟩ := left
            cases ending with
            | suspended held =>
                exact .ok (.of_not_reading rfl fun ⟨_, state⟩ => nomatch state)
                  (List.forall_mem_nil _)
            | done =>
                exact .ok (.of_not_reading rfl fun ⟨_, state⟩ => nomatch state) adjusts_closeSource
            | failed error => exact .err _
            | aborted => exact .abort
      · exact .ok (.refl connection) (List.forall_mem_nil _)
  | close => exact .ok (.refl connection) (List.forall_mem_nil _)

end Connection

/-- The standard input stays what it is, and asks for nothing but the close of the listener. -/
theorem handleStdinEvent_ok {event : Event} {stdin : Stdin} {listenerToken : Token}
    {newSource : EventSource} {responses : List HandleEventResponse}
    (returned : handleStdinEvent event stdin listenerToken = .ok (newSource, responses)) :
    (∃ stdin', newSource = .stdin stdin' listenerToken) ∧
      ∀ response ∈ responses, response = .emptyCommand (.closeSource listenerToken) := by
  unfold handleStdinEvent at returned
  split at returned
  · split at returned
    · split at returned
      · cases returned
        exact ⟨⟨_, rfl⟩, fun response member => List.mem_singleton.mp member⟩
      · cases returned
        exact ⟨⟨_, rfl⟩, List.forall_mem_nil _⟩
    · cases returned
  · cases returned
    exact ⟨⟨_, rfl⟩, List.forall_mem_nil _⟩

/-! ## Turns -/

namespace EventLoop

variable {loop after : EventLoop}

private theorem foldl_submit {α : Type} (toCommand : α → Command) (responses : List α)
    (loop : EventLoop) :
    responses.foldl (fun loop response => loop.submit (toCommand response)) loop =
      { loop with commandQueue := loop.commandQueue ++ responses.map toCommand } := by
  induction responses generalizing loop with
  | nil => rw [List.foldl_nil, List.map_nil, List.append_nil]
  | cons response responses ih =>
      rw [List.foldl_cons, ih, submit, List.append_assoc]
      rfl

/-- The listener accepts one connection after another. -/
theorem moves_acceptLoop (serverConfig : ServerConfig) (token : Token)
    (accepts : List (Except IoError (TcpStream × Instant))) {tokenCounter counted : Nat}
    {responses gathered : List HandleEventResponse} {listener : TcpListener}
    {left : List (Except IoError (TcpStream × Instant))} {loop : EventLoop}
    (found : loop.eventSources.lookup token =
      some (.tcpListener listener tokenCounter serverConfig))
    (ended : acceptLoop serverConfig tokenCounter responses accepts =
      (.ok (counted, gathered), left)) :
    ∃ more, gathered = responses ++ more ∧
      Relation.ReflTransGen Handling loop { loop with
        eventSources := loop.eventSources.insert token
          (.tcpListener { accepts := left } counted serverConfig)
        commandQueue := loop.commandQueue ++ more.map HandleEventResponse.toCommand } := by
  induction accepts generalizing tokenCounter responses listener loop with
  | nil =>
      unfold acceptLoop at ended
      cases ended
      refine ⟨[], (List.append_nil _).symm, .single ?_⟩
      rw [List.map_nil, List.append_nil]
      exact .listen _ found
  | cons answer accepts ih =>
      cases answer with
      | error error =>
          unfold acceptLoop at ended
          split at ended
          · cases ended
            refine ⟨[], (List.append_nil _).symm, .single ?_⟩
            rw [List.map_nil, List.append_nil]
            exact .listen _ found
          · cases ended
      | ok accepted =>
          obtain ⟨stream, now⟩ := accepted
          unfold acceptLoop at ended
          split at ended
          · cases created : (Host.new serverConfig : Outcome Error Host) with
            | ok requestHandler =>
                rw [created] at ended
                dsimp only at ended
                let connection : Connection := {
                  stream, connectionState := .read (.none []), requestHandler, acceptTime := now }
                let accepting : EventLoop := { loop with
                  eventSources := loop.eventSources.insert token
                    (.tcpListener listener (tokenCounter + 1) serverConfig)
                  commandQueue := loop.commandQueue ++
                    [.respond (.newSource (tokenCounter + 1) (.tcpStream connection) .readable),
                      .checkStreamTimeout (tokenCounter + 1)] }
                have move : Handling loop accepting := .accept listener found rfl
                have found : accepting.eventSources.lookup token =
                    some (.tcpListener listener (tokenCounter + 1) serverConfig) :=
                  Finmap.lookup_insert _
                obtain ⟨more, rfl, moves⟩ := ih found ended
                refine ⟨_, List.append_assoc _ _ _, .head move ?_⟩
                dsimp only [accepting] at moves
                rw [Finmap.insert_insert, List.append_assoc] at moves
                exact moves
            | err error =>
                rw [created] at ended
                cases ended
            | abort =>
                rw [created] at ended
                cases ended
          · cases ended

/-- The listener moves the loop by an accept for each connection, and goes on with its counter. -/
private theorem moves_listen {token tokenCounter : Nat} {listener : TcpListener}
    {serverConfig : ServerConfig} {newSource : EventSource} {responses : List HandleEventResponse}
    (found : loop.eventSources.lookup token =
      some (.tcpListener listener tokenCounter serverConfig))
    (returned : handleListenerEvent listener tokenCounter serverConfig =
      .ok (newSource, responses)) :
    Relation.ReflTransGen Handling loop { loop with
      eventSources := loop.eventSources.insert token newSource
      commandQueue := loop.commandQueue ++ responses.map HandleEventResponse.toCommand } := by
  unfold handleListenerEvent at returned
  cases ended : acceptLoop serverConfig tokenCounter [] listener.accepts with
  | mk outcome left =>
      rw [ended] at returned
      cases outcome with
      | ok result =>
          cases returned
          obtain ⟨more, rfl, moves⟩ :=
            moves_acceptLoop serverConfig token listener.accepts found ended
          exact moves
      | err error => cases returned
      | abort => cases returned

private theorem move_readLine {event : Event} {token listenerToken : Token} {stdin : Stdin}
    {newSource : EventSource} {responses : List HandleEventResponse}
    (found : loop.eventSources.lookup token = some (.stdin stdin listenerToken))
    (returned : handleStdinEvent event stdin listenerToken = .ok (newSource, responses)) :
    Handling loop { loop with
      eventSources := loop.eventSources.insert token newSource
      commandQueue := loop.commandQueue ++ responses.map HandleEventResponse.toCommand } := by
  obtain ⟨⟨stdin', rfl⟩, closes⟩ := handleStdinEvent_ok returned
  refine .readLine _ found fun command member => ?_
  obtain ⟨response, submitted, rfl⟩ := List.mem_map.mp member
  rw [closes response submitted]
  rfl

/-- How an event is handled: by the handler of a source, which returns what the source has
become, or fails. -/
theorem handleEvent_cases {event : Event} {world : World chrono}
    (handled : handleEvent event world loop = (.ok (), after)) :
    ∃ source, loop.eventSources.lookup event.token = some source ∧
      ((∃ newSource responses calls,
        source.handleEvent event world event.token = (.ok (newSource, responses), calls) ∧
        after = { loop with
          eventSources := loop.eventSources.insert event.token newSource
          commandQueue := loop.commandQueue ++ responses.map HandleEventResponse.toCommand
          log := loop.log ++ calls.map (.call event.token) }) ∨
      ∃ error calls, source.handleEvent event world event.token = (.err error, calls) ∧
        after = dropSource event.token source { loop with
          eventSources := loop.eventSources.erase event.token
          log := loop.log ++ calls.map (.call event.token) }) := by
  rw [handleEvent] at handled
  cases found : loop.eventSources.lookup event.token with
  | none =>
      rw [found] at handled
      cases handled
  | some source =>
      rw [found] at handled
      dsimp only at handled
      refine ⟨source, rfl, ?_⟩
      cases returned : source.handleEvent event world event.token with
      | mk outcome calls =>
          rw [returned] at handled
          cases outcome with
          | abort => cases handled
          | err error =>
              cases handled
              exact .inr ⟨error, calls, rfl, rfl⟩
          | ok result =>
              obtain ⟨newSource, responses⟩ := result
              dsimp only at handled
              rw [foldl_submit, record] at handled
              dsimp only at handled
              rw [HashMap.insert_erase] at handled
              cases handled
              exact .inl ⟨newSource, responses, calls, rfl, rfl⟩

/-- The handling of an event is a sequence of moves. -/
theorem moves_handleEvent {event : Event} {world : World chrono}
    (handled : handleEvent event world loop = (.ok (), after)) :
    Relation.ReflTransGen Handling loop after := by
  obtain ⟨source, found, ⟨newSource, responses, calls, returned, rfl⟩ |
    ⟨error, calls, -, rfl⟩⟩ := handleEvent_cases handled
  · cases source with
    | tcpStream connection =>
        obtain ⟨connection', rfl, advances, adjusts⟩ :=
          connection.returns_handleStreamEvent event world event.token newSource
            responses (congrArg Prod.fst returned)
        refine .single (.advance calls found advances ?_)
        exact List.forall_mem_map.mpr adjusts
    | tcpListener listener tokenCounter serverConfig =>
        obtain ⟨listened, rfl⟩ := Prod.mk.inj returned
        rw [List.map_nil, List.append_nil]
        exact moves_listen found listened
    | stdin input listenerToken =>
        obtain ⟨read, rfl⟩ := Prod.mk.inj returned
        rw [List.map_nil, List.append_nil]
        exact .single (move_readLine found read)
  · exact .single (.fail calls found)

/-- What handling one event comes to in some steps, handling events does. -/
theorem steps_of_handleEvents {step : EventLoop → EventLoop → Prop}
    (one : ∀ {event : Event} {world : World chrono} {loop after : EventLoop},
      handleEvent event world loop = (.ok (), after) → Relation.ReflTransGen step loop after)
    {events : List (Event × World chrono)} {loop after : EventLoop}
    (handled : handleEvents events loop = (.ok (), after)) :
    Relation.ReflTransGen step loop after := by
  induction events generalizing loop with
  | nil =>
      cases handled
      exact .refl
  | cons first events ih =>
      obtain ⟨event, world⟩ := first
      obtain ⟨⟨⟩, between, began, handled⟩ := Stateful.bind_apply_eq_ok_iff.mp handled
      exact (one began).trans (ih handled)

/-- Events are handled one after the other. -/
theorem moves_handleEvents {events : List (Event × World chrono)}
    (handled : handleEvents events loop = (.ok (), after)) :
    Relation.ReflTransGen Handling loop after :=
  steps_of_handleEvents moves_handleEvent handled

/-- What `check_stream_timeout` finds. -/
theorem checkStreamTimeout_cases (token : Token) (eventSources : HashMap Token EventSource)
    (now : Instant) :
    (∃ connection, eventSources.lookup token = some (.tcpStream connection) ∧
      connection.Awaiting ∧
      (connection.Expired now ∧
          checkStreamTimeout token eventSources now = .ok (some (.closeSource token)) ∨
        ¬connection.Expired now ∧ checkStreamTimeout token eventSources now =
          .ok (some (.submitCommand (.checkStreamTimeout token))))) ∨
    ((∀ connection, eventSources.lookup token = some (.tcpStream connection) →
        ¬connection.Awaiting) ∧
      checkStreamTimeout token eventSources now = .ok none) := by
  unfold checkStreamTimeout
  cases found : eventSources.lookup token with
  | none =>
      refine .inr ⟨fun connection same => ?_, rfl⟩
      cases same
  | some source =>
      cases source with
      | tcpListener listener tokenCounter serverConfig =>
          refine .inr ⟨fun connection same => ?_, rfl⟩
          cases same
      | stdin input listenerToken =>
          refine .inr ⟨fun connection same => ?_, rfl⟩
          cases same
      | tcpStream connection =>
          dsimp only
          cases state : connection.connectionState with
          | write response =>
              refine .inr ⟨fun other same ⟨_, reading, _⟩ => ?_, rfl⟩
              cases same
              rw [state] at reading
              cases reading
          | close =>
              refine .inr ⟨fun other same ⟨_, reading, _⟩ => ?_, rfl⟩
              cases same
              rw [state] at reading
              cases reading
          | read incrementalRequest =>
              dsimp only
              cases full : incrementalRequest.isFull with
              | true =>
                  refine .inr ⟨fun other same awaiting => ?_, rfl⟩
                  cases same
                  rw [awaiting.incomplete state] at full
                  cases full
              | false =>
                  refine .inl ⟨connection, rfl, ⟨incrementalRequest, state, full⟩, ?_⟩
                  rw [if_pos Bool.false_ne_true]
                  cases measured : checkedDurationSince now connection.acceptTime with
                  | none =>
                      refine .inr ⟨fun ⟨age, same, _⟩ => ?_, rfl⟩
                      rw [measured] at same
                      cases same
                  | some duration =>
                      dsimp only
                      split
                      · next old => exact .inl ⟨⟨duration, measured, old⟩, rfl⟩
                      · next young =>
                          refine .inr ⟨fun ⟨age, same, old⟩ => young ?_, rfl⟩
                          rw [measured] at same
                          cases same
                          exact old

/-- What the execution of a command does: it is logged, it is a move, with any
other commands pending behind it, and what it submits is itself or what it was made to submit. -/
structure Executes (io : CommandIo) (command : Command) (newCommand : Option Command)
    (loop after : EventLoop) : Prop where
  queue : after.commandQueue = loop.commandQueue
  log : ∃ closed, after.log = loop.log ++ [.execute command io.now closed]
  submitted : ∀ new ∈ newCommand, new = command ∨ command = .respond (.submitCommand new)
  execution : ∀ later,
    Execution { loop with commandQueue := command :: (loop.commandQueue ++ later) }
    { after with commandQueue := loop.commandQueue ++ later ++ newCommand.toList }

/-- A command that submits none. -/
theorem Executes.of_none {io : CommandIo} {command : Command} {closed : Option EventSource}
    (queue : after.commandQueue = loop.commandQueue)
    (log : after.log = loop.log ++ [.execute command io.now closed])
    (execution : ∀ pending, Execution { loop with commandQueue := command :: pending }
      { after with commandQueue := pending }) : Executes io command none loop after where
  queue := queue
  log := ⟨closed, log⟩
  submitted := nofun
  execution later := by
    rw [Option.toList_none, List.append_nil]
    exact execution _

/-- A command that is executed has one of the effects there are. -/
theorem executes_of_executeCommand {io : CommandIo} {command : Command}
    {newCommand : Option Command}
    (executed : executeCommand io command loop = (.ok newCommand, after)) :
    Executes io command newCommand loop after := by
  unfold executeCommand at executed
  cases command with
  | checkStreamTimeout token =>
      rw [Command.call] at executed
      rcases checkStreamTimeout_cases token loop.eventSources io.now with
        ⟨connection, found, awaiting, ⟨expired, returned⟩ | ⟨young, returned⟩⟩ | ⟨idle, returned⟩
      · rw [returned] at executed
        dsimp only at executed
        rw [found] at executed
        dsimp only at executed
        split at executed
        · cases executed
          exact .of_none rfl rfl fun _ => .close rfl found
            (.checkStreamTimeout rfl awaiting expired)
        · cases executed
      · rw [returned] at executed
        cases executed
        exact ⟨rfl, ⟨_, rfl⟩, fun _ same => .inl (Option.some.inj same).symm,
          fun _ => .recheck rfl found awaiting young⟩
      · rw [returned] at executed
        cases executed
        exact .of_none rfl rfl fun _ => .skip io.now rfl (.checkStreamTimeout idle)
  | respond response =>
      unfold Command.call at executed
      cases response with
      | newSource token source interests =>
          dsimp only at executed
          split at executed
          · cases executed
            exact .of_none rfl rfl fun _ => .register io.now rfl
          · cases executed
      | modifyInterests token interests =>
          dsimp only at executed
          cases found : loop.eventSources.lookup token with
          | none =>
              rw [found] at executed
              cases executed
              exact .of_none rfl rfl fun _ => .skip io.now rfl (.modifyInterests found)
          | some source =>
              rw [found] at executed
              dsimp only at executed
              split at executed
              · cases executed
                exact .of_none rfl rfl fun _ => .modify io.now rfl found
              · cases executed
      | closeSource token =>
          dsimp only at executed
          cases found : loop.eventSources.lookup token with
          | none =>
              rw [found] at executed
              cases executed
              exact .of_none rfl rfl fun _ => .skip io.now rfl (.closeSource found)
          | some source =>
              rw [found] at executed
              dsimp only at executed
              split at executed
              · cases executed
                exact .of_none rfl rfl fun _ => .close rfl found .closeSource
              · cases executed
      | submitCommand submitted =>
          cases executed
          exact ⟨rfl, ⟨_, rfl⟩, fun _ same => .inr (by rw [Option.some.inj same]),
            fun _ => .resubmit io.now rfl⟩

/-- Some commands are executed one after the other, with any other commands pending behind
them. -/
theorem moves_executeCommands_before {io : Nat → CommandIo}
    {commands newCommands result : List Command} (rest : List Command)
    (executed : executeCommands io commands newCommands loop = (.ok result, after)) :
    Relation.ReflTransGen Execution
      { loop with commandQueue := commands ++ (rest ++ newCommands) }
      { after with commandQueue := rest ++ result } := by
  induction commands generalizing io newCommands loop with
  | nil =>
      cases executed
      exact .refl
  | cons command commands ih =>
      rw [executeCommands, Stateful.modify_bind_apply] at executed
      obtain ⟨newCommand, between, began, executed⟩ := Stateful.bind_apply_eq_ok_iff.mp executed
      have moves := ih executed
      have executes := executes_of_executeCommand began
      refine .head (executes.execution (rest ++ newCommands)) ?_
      rw [List.append_assoc, List.append_assoc]
      exact moves

/-- When all commands have been executed, the queue is empty. -/
theorem executeCommands_commandQueue {io : Nat → CommandIo}
    {commands newCommands result : List Command} (queued : loop.commandQueue = commands)
    (executed : executeCommands io commands newCommands loop = (.ok result, after)) :
    after.commandQueue = [] := by
  induction commands generalizing io newCommands loop with
  | nil =>
      cases executed
      exact queued
  | cons command commands ih =>
      rw [executeCommands, Stateful.modify_bind_apply] at executed
      obtain ⟨newCommand, between, began, executed⟩ := Stateful.bind_apply_eq_ok_iff.mp executed
      exact ih (executes_of_executeCommand began).queue executed

/-- The commands in the queue are executed one after the other. -/
theorem moves_executeCommands {io : Nat → CommandIo} {commands newCommands result : List Command}
    (queued : loop.commandQueue = commands)
    (executed : executeCommands io commands newCommands loop = (.ok result, after)) :
    after.commandQueue = [] ∧
      Relation.ReflTransGen Execution { loop with commandQueue := commands ++ newCommands }
        { after with commandQueue := result } :=
  ⟨executeCommands_commandQueue queued executed, moves_executeCommands_before [] executed⟩

/-- The phases of a turn. -/
theorem next_cases {turn : Turn chrono} (taken : loop.next turn = (.ok (), after)) :
    ∃ events handled newCommands executed, turn.events = .ok events ∧
      handleEvents events loop = (.ok (), handled) ∧
      executeCommands turn.commands handled.commandQueue [] handled =
        (.ok newCommands, executed) ∧
      after = { executed with commandQueue := executed.commandQueue ++ newCommands } := by
  rw [next, Stateful.lift_bind_apply] at taken
  cases polled : turn.events with
  | error error =>
      rw [polled] at taken
      cases taken
  | ok events =>
      rw [polled, Outcome.ofExcept_ok] at taken
      obtain ⟨⟨⟩, handled, began, taken⟩ := Stateful.bind_apply_eq_ok_iff.mp taken
      rw [Stateful.get_bind_apply] at taken
      obtain ⟨newCommands, executed, ran, taken⟩ := Stateful.bind_apply_eq_ok_iff.mp taken
      have submitted := foldl_submit id newCommands executed
      rw [List.map_id] at submitted
      cases taken.symm.trans (congrArg (Prod.mk (Outcome.ok ())) submitted)
      exact ⟨events, handled, newCommands, executed, rfl, began, ran, rfl⟩

/-- To handle events is to move. -/
theorem Moves.of_handlings (handlings : Relation.ReflTransGen Handling loop after) :
    Moves loop after :=
  Relation.ReflTransGen.mono (fun _ _ => Move.handling) _ _ handlings

/-- **Refinement.** A turn of the event loop is a sequence of moves. -/
theorem next_moves {turn : Turn chrono} (taken : loop.next turn = (.ok (), after)) :
    Moves loop after := by
  obtain ⟨events, handled, newCommands, executed, -, began, ran, rfl⟩ := next_cases taken
  obtain ⟨emptied, moves⟩ := moves_executeCommands rfl ran
  rw [List.append_nil] at moves
  rw [emptied, List.nil_append]
  exact (Moves.of_handlings (moves_handleEvents began)).trans
    (Relation.ReflTransGen.mono (fun _ _ => Move.execution) _ _ moves)

end EventLoop

end RustHttpServer
