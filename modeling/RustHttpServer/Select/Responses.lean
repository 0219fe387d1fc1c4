import RustHttpServer.Host.Transparency
import RustHttpServer.Select.Alone
import RustHttpServer.Seq.Requests

/-!
# What connections of the event loop are sent

The listener makes a host for each connection, and a connection hands on one request at most. So
whatever the loop writes on a connection is a response of a host that has not read anything
before, in the world in which the loop handled an event of this connection, from its front, and all
of it once the close is requested (`responses_plain`). The cache
of a host is never of use to the event loop, nor can it be stale.
-/

namespace RustHttpServer

open Foundation Utf8

variable {chrono : Chrono}

/-- A request has been handed on to a new host, which has responded to it in one of some worlds. -/
structure Exchange.Made (serverConfig : ServerConfig) (worlds : Set (World chrono))
    (calls : List Call) (exchange : Exchange chrono) : Prop where
  handled : requestsHandled calls = [exchange.request]
  plain : exchange.Plain serverConfig
  known : exchange.world ∈ worlds
  available : exchange.overloaded = false

/-- A response that has been made stays made when nothing is handed on. -/
theorem Exchange.Made.append {serverConfig : ServerConfig} {worlds : Set (World chrono)}
    {calls more : List Call} {exchange : Exchange chrono}
    (made : exchange.Made serverConfig worlds calls) (silent : requestsHandled more = []) :
    exchange.Made serverConfig worlds (calls ++ more) where
  handled := by
    rw [requestsHandled_append, made.handled, silent]
    rfl
  plain := made.plain
  known := made.known
  available := made.available

/-- How far a connection has come, by what has been done on it. -/
inductive Answering (serverConfig : ServerConfig) (worlds : Set (World chrono))
    (calls : List Call) : ConnectionState → Prop
  | reading {incrementalRequest : IncrementalRequest} : Silent calls →
      Answering serverConfig worlds calls (.read incrementalRequest)
  | responding {exchange : Exchange chrono} : exchange.Made serverConfig worlds calls →
      bytesWritten calls = [] →
      Answering serverConfig worlds calls (.write (.struct exchange.response))
  | writing {exchange : Exchange chrono} {order : HeaderOrder} {bytes held : Bytes} :
      exchange.Made serverConfig worlds calls → writeResponse order exchange.response = .ok bytes →
      bytesWritten calls ++ held = bytes →
      Answering serverConfig worlds calls (.write (.bytes held))
  | written {exchange : Exchange chrono} {order : HeaderOrder} {bytes : Bytes} :
      exchange.Made serverConfig worlds calls → writeResponse order exchange.response = .ok bytes →
      bytesWritten calls = bytes → Answering serverConfig worlds calls .close

/-- On a connection nothing has been handed on or written, or the response to its request from
the front. -/
inductive Fronted (serverConfig : ServerConfig) (worlds : Set (World chrono))
    (calls : List Call) : Prop
  | silent : Silent calls → Fronted serverConfig worlds calls
  | front {exchange : Exchange chrono} {order : HeaderOrder} {bytes : Bytes} :
      exchange.Made serverConfig worlds calls → writeResponse order exchange.response = .ok bytes →
      bytesWritten calls <+: bytes → Fronted serverConfig worlds calls

/-- What a connection in a state has been sent. -/
theorem Answering.fronted {serverConfig : ServerConfig} {worlds : Set (World chrono)}
    {calls : List Call} {state : ConnectionState}
    (answering : Answering serverConfig worlds calls state) :
    Fronted serverConfig worlds calls := by
  cases answering with
  | reading silent => exact .silent silent
  | @responding exchange made unwritten =>
      obtain ⟨bytes, written⟩ := exists_writeResponse exchange.world.headerOrder exchange.response
      exact .front made written (unwritten ▸ List.nil_prefix)
  | writing made written accounts => exact .front made written ⟨_, accounts⟩
  | written made written accounts => exact .front made written (accounts ▸ List.prefix_rfl)

/-! ### The handler -/

/-- The loop that reads the request writes nothing, and hands nothing on. -/
theorem readLoop_silent (incrementalRequest : IncrementalRequest)
    (reads : List (Except IoError Bytes)) : Silent (readLoop incrementalRequest reads).2.2 := by
  have parsed : ∀ {bytes : Bytes} {result : Outcome Error IncrementalRequest},
      Silent [.read bytes, .parse bytes result] := ⟨rfl, rfl⟩
  fun_induction readLoop incrementalRequest reads with
  | case1 incrementalRequest => exact .nil
  | case2 incrementalRequest error reads blocked => exact .nil
  | case3 incrementalRequest error reads failed => exact .nil
  | case4 incrementalRequest bytes reads some calls next result full => exact parsed
  | case5 incrementalRequest bytes reads some calls next result waiting ending left more looped
      ih =>
      rw [looped] at ih
      exact parsed.append ih
  | case6 incrementalRequest bytes reads some calls error result => exact parsed
  | case7 incrementalRequest bytes reads some calls result => exact parsed
  | case8 incrementalRequest bytes reads none => exact .nil

variable {serverConfig : ServerConfig} {worlds : Set (World chrono)} {calls : List Call}

/-- What becomes of a connection when it handles an event. -/
structure Reacts (serverConfig : ServerConfig) (worlds : Set (World chrono)) (calls : List Call)
    (handled : Handled) : Prop where
  kept : ∀ connection responses, handled.1 = .ok (.tcpStream connection, responses) →
    Answering serverConfig worlds (calls ++ handled.2) connection.connectionState ∧
      (connection.Reading → connection.requestHandler = Host.fresh serverConfig)
  fronted : handled.1 ≠ .abort → Fronted serverConfig worlds (calls ++ handled.2)

namespace Reacts

/-- A connection goes on answering. -/
theorem ok {connection : Connection} {responses : List HandleEventResponse} {more : List Call}
    (answering : Answering serverConfig worlds (calls ++ more) connection.connectionState)
    (new : connection.Reading → connection.requestHandler = Host.fresh serverConfig) :
    Reacts serverConfig worlds calls (.ok (.tcpStream connection, responses), more) where
  kept := by
    rintro connection' responses' same
    cases same
    exact ⟨answering, new⟩
  fronted _ := answering.fronted

/-- A connection that fails has written what it has, from the front. -/
theorem err {more : List Call} (error : Error)
    (fronted : Fronted serverConfig worlds (calls ++ more)) :
    Reacts serverConfig worlds calls (.err error, more) where
  kept _ _ same := nomatch same
  fronted _ := fronted

/-- Of a handler that aborts nothing is left. -/
theorem abort (more : List Call) : Reacts serverConfig worlds calls (.abort, more) where
  kept _ _ same := nomatch same
  fronted returned := absurd rfl returned

end Reacts

namespace Connection

variable {connection : Connection} {token : Token} {world : World chrono}

/-- What a connection without a response does after reading. -/
theorem reacts_respond (here : world ∈ worlds) (silent : Silent calls)
    (new : connection.requestHandler = Host.fresh serverConfig)
    (incrementalRequest : IncrementalRequest) :
    Reacts serverConfig worlds calls (connection.respond world token incrementalRequest) := by
  cases full : incrementalRequest.isFull with
  | false =>
      rw [respond_incomplete full]
      refine .ok (.reading ?_) fun _ => new
      rw [List.append_nil]
      exact silent
  | true =>
      obtain ⟨request, rfl⟩ := exists_fullRequest full
      unfold respond
      cases connection.stream.peerAddr with
      | error error =>
          refine .err _ (.silent ?_)
          rw [List.append_nil]
          exact silent
      | ok addr =>
          have unfailing := connection.requestHandler.handle_unfailing world
            (Request.fromNoRemote request addr) false
          have unwritten : bytesWritten (calls ++ [.handle (Request.fromNoRemote request addr)]) =
              [] := by
            rw [bytesWritten_append, silent.bytesWritten]
            rfl
          have handled : requestsHandled (calls ++ [.handle (Request.fromNoRemote request addr)]) =
              [Request.fromNoRemote request addr] := by
            rw [requestsHandled_append, silent.requestsHandled]
            rfl
          dsimp only
          cases responded : connection.requestHandler.handle world
              (Request.fromNoRemote request addr) false with
          | mk outcome result =>
              obtain ⟨requestHandler, accesses⟩ := result
              rw [responded] at unfailing
              cases outcome with
              | err error => exact absurd rfl (unfailing error)
              | abort => exact .abort _
              | ok response =>
                  have plain : Exchange.Plain serverConfig
                      ⟨⟨world, Request.fromNoRemote request addr, false⟩, response⟩ := by
                    rw [new] at responded
                    exact ⟨requestHandler, accesses, responded⟩
                  exact .ok (.responding ⟨handled, plain, here, rfl⟩ unwritten) fun ⟨_, reading⟩ =>
                    nomatch reading

/-- A new connection reads on, or answers its request. -/
private theorem reacts_readRequest (here : world ∈ worlds) (silent : Silent calls)
    (new : connection.requestHandler = Host.fresh serverConfig)
    (incrementalRequest : IncrementalRequest) :
    Reacts serverConfig worlds calls
      (connection.readRequest world token incrementalRequest) := by
  have quiet := silent.append (readLoop_silent incrementalRequest connection.stream.reads)
  unfold readRequest
  cases looped : readLoop incrementalRequest connection.stream.reads with
  | mk ending left =>
      obtain ⟨reads, more⟩ := left
      rw [looped] at quiet
      cases ending with
      | suspended suspended => exact .ok (.reading quiet) fun _ => new
      | rejected => exact .ok (.reading quiet) fun _ => new
      | failed error => exact .err _ (.silent quiet)
      | aborted => exact .abort _
      | done parsed =>
          have reacts := @reacts_respond chrono _ worlds _ { connection with
            stream := { connection.stream with reads } } token world here quiet new parsed
          dsimp only
          refine ⟨fun connection' responses same => ?_, fun returned => ?_⟩
          · rw [← List.append_assoc]
            exact reacts.kept connection' responses same
          · rw [← List.append_assoc]
            exact reacts.fronted returned

/-- What a connection with a response does when it may write. -/
theorem reacts_writeResponse {exchange : Exchange chrono} {order : HeaderOrder} {bytes held : Bytes}
    {response : IncrementalResponse} (made : exchange.Made serverConfig worlds calls)
    (encoded : RustHttpServer.writeResponse order exchange.response = .ok bytes)
    (accounts : bytesWritten calls ++ held = bytes)
    (remaining : response.remaining world.headerOrder = .ok held) :
    Reacts serverConfig worlds calls (connection.writeResponse world token response) := by
  obtain ⟨sent, only⟩ := writeBytes_accounts held connection.stream.writes
  unfold Connection.writeResponse
  rw [writeLoop_eq remaining]
  cases written : writeBytes held connection.stream.writes with
  | mk ending left =>
      obtain ⟨writes, more⟩ := left
      rw [written] at sent only
      have made' := made.append only.requestsHandled
      cases ending with
      | suspended held' =>
          refine .ok (.writing made' encoded ?_) fun ⟨_, reading⟩ => nomatch reading
          rw [bytesWritten_append, List.append_assoc, sent, accounts]
      | done =>
          refine .ok (.written made' encoded ?_) fun ⟨_, reading⟩ => nomatch reading
          rw [bytesWritten_append, sent, accounts]
      | failed error =>
          refine .err _ (.front made' encoded ?_)
          obtain ⟨rest, sent⟩ := sent
          refine ⟨rest, ?_⟩
          rw [bytesWritten_append, List.append_assoc, sent, accounts]
      | aborted => exact sent.elim

/-- The handler of a connection answers with a response of a new host. -/
theorem reacts_handleStreamEvent (event : Event) (token : Token) (here : world ∈ worlds)
    (answering : Answering serverConfig worlds calls connection.connectionState)
    (new : connection.Reading → connection.requestHandler = Host.fresh serverConfig) :
    Reacts serverConfig worlds calls (handleStreamEvent event world token connection) := by
  have idle : Reacts serverConfig worlds calls (.ok (.tcpStream connection, []), []) := by
    refine .ok ?_ new
    rwa [List.append_nil]
  unfold handleStreamEvent
  cases state : connection.connectionState with
  | read incrementalRequest =>
      rw [state] at answering
      dsimp only
      split
      · cases answering with
        | reading silent => exact reacts_readRequest here silent (new (.of_read state)) _
      · exact idle
  | write response =>
      rw [state] at answering
      dsimp only
      split
      · cases answering with
        | @responding exchange made unwritten =>
            obtain ⟨bytes, encoded⟩ := exists_writeResponse world.headerOrder exchange.response
            refine reacts_writeResponse made encoded ?_ encoded
            rw [unwritten, List.nil_append]
        | writing made encoded accounts => exact reacts_writeResponse made encoded accounts rfl
      · exact idle
  | close => exact idle

end Connection

/-! ### The loop -/

/-- What the listener submits registers new connections, with new hosts. -/
theorem opened_of_admissions {tokenCounter : Nat} {accepted : List (TcpStream × Instant)}
    {response : HandleEventResponse}
    (member : response ∈ admissions serverConfig tokenCounter accepted) {token : Token}
    {source : EventSource} {interests : Interest}
    (registers : response.toCommand = .respond (.newSource token source interests)) :
    ∃ first, source = .tcpStream (.opened serverConfig first) := by
  induction accepted generalizing tokenCounter with
  | nil => cases member
  | cons first accepted ih =>
      rcases List.mem_cons.mp member with rfl | member
      · cases registers
        exact ⟨first, rfl⟩
      · rcases List.mem_cons.mp member with rfl | member
        · cases registers
        · exact ih member

/-- A source of a loop that is configured so, by what has been done on it. -/
def EventSource.Plainly (serverConfig : ServerConfig) (worlds : Set (World chrono))
    (calls : List Call) : EventSource → Prop
  | .tcpListener _ _ config => config = serverConfig
  | .tcpStream connection => Answering serverConfig worlds calls connection.connectionState ∧
      (connection.Reading → connection.requestHandler = Host.fresh serverConfig)
  | .stdin _ _ => True

/-- What becomes of a source, and of what it submits. -/
theorem EventSource.Plainly.handleEvent {source newSource : EventSource} {event : Event}
    {world : World chrono} {token : Token} {responses : List HandleEventResponse}
    {more : List Call} (plainly : source.Plainly serverConfig worlds calls)
    (here : world ∈ worlds)
    (returned : source.handleEvent event world token = (.ok (newSource, responses), more)) :
    newSource.Plainly serverConfig worlds (calls ++ more) ∧
      ∀ token source interests,
        .respond (.newSource token source interests) ∈ responses.map HandleEventResponse.toCommand →
          ∃ first, source = .tcpStream (.opened serverConfig first) := by
  cases source with
  | tcpStream connection =>
      obtain ⟨connection', rfl, -, adjusts⟩ :=
        connection.returns_handleStreamEvent event world token newSource responses
          (congrArg Prod.fst returned)
      have reacts := connection.reacts_handleStreamEvent event token here plainly.1 plainly.2
      rw [show handleStreamEvent event world token connection = _ from returned] at reacts
      refine ⟨reacts.kept connection' responses rfl, fun other source interests submitted => ?_⟩
      obtain ⟨response, member, same⟩ := List.mem_map.mp submitted
      have adjusting := adjusts response member
      rw [same] at adjusting
      cases adjusting
  | tcpListener listener tokenCounter config =>
      obtain ⟨listened, rfl⟩ := Prod.mk.inj returned
      obtain rfl : config = serverConfig := plainly
      rcases handleListenerEvent_cases listener tokenCounter config with
        aborted | ⟨error, -, failed⟩ | ⟨-, listener', accepting⟩
      · cases aborted.symm.trans listened
      · cases failed.symm.trans listened
      · cases accepting.symm.trans listened
        refine ⟨rfl, fun other source interests submitted => ?_⟩
        obtain ⟨response, member, same⟩ := List.mem_map.mp submitted
        exact opened_of_admissions member same
  | stdin input listenerToken =>
      obtain ⟨read, rfl⟩ := Prod.mk.inj returned
      obtain ⟨⟨input', rfl⟩, closes⟩ := handleStdinEvent_ok read
      refine ⟨trivial, fun other source interests submitted => ?_⟩
      obtain ⟨response, member, same⟩ := List.mem_map.mp submitted
      rw [closes response member] at same
      cases same

/-- What has been sent when a source has handled an event. -/
theorem EventSource.Plainly.fronted {source : EventSource} {event : Event} {world : World chrono}
    {token : Token} {outcome : Outcome Error (EventSource × List HandleEventResponse)}
    {more : List Call} (plainly : source.Plainly serverConfig worlds calls)
    (here : world ∈ worlds) (fronted : Fronted serverConfig worlds calls)
    (handled : source.handleEvent event world token = (outcome, more)) (calm : outcome ≠ .abort) :
    Fronted serverConfig worlds (calls ++ more) := by
  by_cases streaming : ∃ connection, source = .tcpStream connection
  · obtain ⟨connection, rfl⟩ := streaming
    have reacts := connection.reacts_handleStreamEvent event token here plainly.1 plainly.2
    rw [show handleStreamEvent event world token connection = _ from handled] at reacts
    exact reacts.fronted calm
  · obtain rfl := EventLoop.calls_of_not_stream
      (fun connection same => streaming ⟨connection, same⟩) handled
    rwa [List.append_nil]

namespace EventLoop

/-- All connections of the loop are answered by new hosts, each in the worlds known of it. -/
structure AnsweredPlainly (serverConfig : ServerConfig) (known : Token → Set (World chrono))
    (loop : EventLoop) : Prop where
  untouched : ∀ token, token ∉ arrived loop.log → callsOf token loop.log = []
  sources : ∀ token source, loop.Present token source →
    source.Plainly serverConfig (known token) (callsOf token loop.log)
  fronted : ∀ token, Fronted serverConfig (known token) (callsOf token loop.log)

variable {loop mid after : EventLoop} {known : Token → Set (World chrono)}

/-- A command leaves all connections answered by new hosts. -/
theorem AnsweredPlainly.execution (answered : loop.AnsweredPlainly serverConfig known)
    (fresh : loop.FreshTokens) (execution : Execution loop after) :
    after.AnsweredPlainly serverConfig known := by
  obtain ⟨command, rest, more, now, closed, -, -, log⟩ := execution.executes
  have same : ∀ token, callsOf token after.log = callsOf token loop.log := by
    intro token
    rw [log, callsOf_append]
    exact List.append_nil _
  constructor
  · intro token unknown
    rw [same]
    refine answered.untouched token fun live => unknown ?_
    rw [log, arrived_append]
    exact List.mem_append_left _ live
  · intro token source present
    rw [same]
    exact answered.sources token source (execution.present fresh present)
  · intro token
    rw [same]
    exact answered.fronted token

/-- The source under a token has handled an event: what is to be said of it and of the sources that
it has submitted. -/
theorem AnsweredPlainly.of_calls (answered : loop.AnsweredPlainly serverConfig known)
    {token : Token} {more : List Call} (live : token ∈ arrived loop.log)
    (log : after.log = loop.log ++ more.map (.call token))
    (own : ∀ source, after.eventSources.lookup token = some source →
      source.Plainly serverConfig (known token) (callsOf token loop.log ++ more))
    (others : ∀ other source, other ≠ token → after.eventSources.lookup other = some source →
      loop.eventSources.lookup other = some source)
    (pending : ∀ other source interests,
      .respond (.newSource other source interests) ∈ after.commandQueue →
        other ∉ arrived after.log ∧ (.respond (.newSource other source interests) ∈
          loop.commandQueue ∨ ∃ first, source = .tcpStream (.opened serverConfig first)))
    (fronted : Fronted serverConfig (known token) (callsOf token loop.log ++ more)) :
    after.AnsweredPlainly serverConfig known := by
  obtain ⟨here, elsewhere⟩ := callsOf_record log
  have untouched : ∀ other, other ∉ arrived after.log →
      callsOf other loop.log = [] ∧ callsOf other after.log = [] := by
    intro other unknown
    rw [log, arrived_append, arrived_calls, List.append_nil] at unknown
    have before := answered.untouched other unknown
    rw [elsewhere other fun same => unknown (same ▸ live)]
    exact ⟨before, before⟩
  constructor
  · exact fun other unknown => (untouched other unknown).2
  · rintro other source (found | ⟨interests, member⟩)
    · by_cases same : other = token
      · subst same
        rw [here]
        exact own source found
      · rw [elsewhere other same]
        exact answered.sources other source (.inl (others other source same found))
    · obtain ⟨unknown, before⟩ := pending other source interests member
      obtain ⟨empty, empty'⟩ := untouched other unknown
      rw [empty']
      rcases before with member | ⟨first, rfl⟩
      · have plainly := answered.sources other source (.inr ⟨interests, member⟩)
        rwa [empty] at plainly
      · exact ⟨.reading .nil, fun _ => rfl⟩
  · intro other
    by_cases same : other = token
    · subst same
      rw [here]
      exact fronted
    · rw [elsewhere other same]
      exact answered.fronted other

/-- An event is handled. -/
theorem AnsweredPlainly.handleEvent (answered : loop.AnsweredPlainly serverConfig known)
    (fresh : loop.FreshTokens) (freshAfter : after.FreshTokens) {event : Event}
    {world : World chrono} (here : world ∈ known event.token)
    (handled : handleEvent event world loop = (.ok (), after)) :
    after.AnsweredPlainly serverConfig known := by
  have unknown : ∀ other source interests,
      .respond (.newSource other source interests) ∈ after.commandQueue →
        other ∉ arrived after.log := fun other source interests member =>
    freshAfter.not_arrived (mem_arrivals.mpr ⟨source, interests, member⟩)
  obtain ⟨source, found, ⟨newSource, responses, calls, returned, rfl⟩ |
    ⟨error, calls, failed, rfl⟩⟩ := handleEvent_cases handled
  · have plainly := answered.sources _ source (.inl found)
    obtain ⟨own, opened⟩ := plainly.handleEvent here returned
    refine answered.of_calls (fresh.live _ source found) rfl (fun source lookup => ?_)
      (fun other source different lookup => ?_)
      (fun other source interests member => ⟨unknown other source interests member, ?_⟩)
      (plainly.fronted here (answered.fronted _) returned nofun)
    · rw [Finmap.lookup_insert] at lookup
      cases lookup
      exact own
    · rwa [Finmap.lookup_insert_of_ne _ different] at lookup
    · exact (List.mem_append.mp member).imp id (opened other source interests)
  · have plainly := answered.sources _ source (.inl found)
    refine answered.of_calls (fresh.live _ source found) (dropSource_log ..)
      (fun source lookup => ?_) (fun other source different lookup => ?_)
      (fun other source interests member => ⟨unknown other source interests member, .inl ?_⟩)
      (plainly.fronted here (answered.fronted _) failed nofun)
    · rw [dropSource_eventSources, Finmap.lookup_erase] at lookup
      cases lookup
    · rw [dropSource_eventSources] at lookup
      exact (HashMap.of_lookup_erase lookup).2
    · rwa [dropSource_commandQueue] at member

/-- A batch leaves all connections answered by new hosts. -/
theorem AnsweredPlainly.handleEvents (answered : loop.AnsweredPlainly serverConfig known)
    (fresh : loop.FreshTokens) {events : List (Event × World chrono)}
    (all : ∀ item ∈ events, item.2 ∈ known item.1.token)
    (handled : handleEvents events loop = (.ok (), after)) :
    after.AnsweredPlainly serverConfig known := by
  induction events generalizing loop with
  | nil =>
      cases handled
      exact answered
  | cons first events ih =>
      obtain ⟨event, world⟩ := first
      obtain ⟨here, all⟩ := List.forall_mem_cons.mp all
      obtain ⟨⟨⟩, between, began, handled⟩ := Stateful.bind_apply_eq_ok_iff.mp handled
      have freshBetween := fresh.step (.handle began)
      exact ih (answered.handleEvent fresh freshBetween here began) freshBetween all handled

/-- At every moment of a turn all connections are answered by new hosts. -/
theorem AnsweredPlainly.during (answered : loop.AnsweredPlainly serverConfig known)
    (fresh : loop.FreshTokens) {turn : Turn chrono}
    (all : ∀ item ∈ turn.batch, item.2 ∈ known item.1.token) (during : During turn loop mid) :
    mid.AnsweredPlainly serverConfig known := by
  cases during with
  | @handling done rest _ polled handled =>
      rw [Turn.batch, polled] at all
      exact answered.handleEvents fresh (List.forall_mem_append.mp all).1 handled
  | @executing events done rest newCommands handled mid polled began queued executed =>
      rw [Turn.batch, polled] at all
      have freshHandled := fresh.during (.handled polled began)
      have executions := moves_executeCommands_before rest executed
      rw [List.append_nil, ← queued] at executions
      exact (invariant_of_steps
        (fun loop => loop.FreshTokens ∧ loop.AnsweredPlainly serverConfig known) executions
        (fun _ _ kept execution => ⟨kept.1.execution execution, kept.2.execution kept.1 execution⟩)
        ⟨freshHandled, answered.handleEvents fresh all began⟩).2

end EventLoop

/-- The runs of the event loop with a configuration. -/
def selectSystem (chrono : Chrono) (serverConfig : ServerConfig) :
    TransitionSystem EventLoop (Turn chrono) where
  initial loop := ∃ listener stdin, loop = selectMultiplex serverConfig listener stdin
  step loop turn after := loop.next turn = (.ok (), after)

open EventLoop

/-- The tokens of a reachable loop are fresh. -/
theorem freshTokens_of_select {loop : EventLoop}
    (reachable : (selectSystem chrono serverConfig).Reachable loop) : loop.FreshTokens := by
  refine reachable.invariant FreshTokens ?_ ?_
  · rintro loop ⟨listener, stdin, rfl⟩
    exact freshTokens_selectMultiplex serverConfig listener stdin
  · exact fun loop turn after fresh taken => fresh.during (.of_next taken)

/-- In every run all connections are answered by new hosts, in worlds that the loop was told of.
-/
theorem answeredPlainly_of_run {loop : EventLoop} {steps : List (EventLoop × Turn chrono)}
    (run : (selectSystem chrono serverConfig).Run steps loop) {known : Token → Set (World chrono)}
    (all : ∀ token, ∀ item ∈ eventsOf token steps, item.2 ∈ known token) :
    loop.AnsweredPlainly serverConfig known := by
  revert all
  refine run.invariant (fun steps loop =>
    (∀ token, ∀ item ∈ eventsOf token steps, item.2 ∈ known token) →
      loop.AnsweredPlainly serverConfig known) ?_ ?_
  · rintro loop ⟨listener, stdin, rfl⟩ -
    refine ⟨fun _ _ => rfl, ?_, fun _ => .silent .nil⟩
    rintro token source (found | ⟨interests, member⟩)
    · cases found
    · rcases List.mem_pair.mp member with same | same
      · cases same
        rfl
      · cases same
        trivial
  · intro steps loop turn after run answered taken all
    simp only [eventsOf_step, List.forall_mem_append] at all
    refine (answered fun token => (all token).1).during (freshTokens_of_select run.reachable)
      (fun item member => ?_) (.of_next taken)
    apply (all item.1.token).2
    exact List.mem_filter.mpr ⟨member, decide_eq_true rfl⟩

/-- The worlds in which the loop has been told of events of a token. -/
def worldsOf (token : Token) (steps : List (EventLoop × Turn chrono)) : Set (World chrono) :=
  {world | ∃ event, (event, world) ∈ eventsOf token steps}

/-- **The event loop sends what new hosts respond.** At any time during a turn, nothing has been
written on a connection, or some of the response of a host without a cache to the one request
that the connection has handed on, in the world in which the loop was told of an event of it, from
the front. A connection that holds bytes still holds the rest of them, and where a connection is to
be closed after its response, all have been written. -/
theorem responses_plain {steps : List (EventLoop × Turn chrono)} {loop mid : EventLoop}
    (run : (selectSystem chrono serverConfig).Run steps loop) {turn : Turn chrono}
    (during : During turn loop mid) (token : Token) :
    let worlds := worldsOf token (steps ++ [(loop, turn)])
    Fronted serverConfig worlds (callsOf token mid.log) ∧
      ∀ connection, mid.eventSources.lookup token = some (.tcpStream connection) →
        Answering serverConfig worlds (callsOf token mid.log) connection.connectionState := by
  have before : loop.AnsweredPlainly serverConfig
      fun token => worldsOf token (steps ++ [(loop, turn)]) := by
    refine answeredPlainly_of_run run fun token item member => ⟨item.1, ?_⟩
    rw [eventsOf_step]
    exact List.mem_append_left _ member
  have answered := before.during (freshTokens_of_select run.reachable) (fun item member => ?_)
    during
  · exact ⟨answered.fronted token, fun connection found =>
      (answered.sources token _ (.inl found)).1⟩
  · refine ⟨item.1, ?_⟩
    rw [eventsOf_step]
    apply List.mem_append_right
    exact List.mem_filter.mpr ⟨member, decide_eq_true rfl⟩

namespace Site

/-- A turn in which the loop is told of some events. -/
def told (events : List Event) : Turn gregorian :=
  ⟨.ok (events.map fun event => (event, world)), fun _ => ⟨8, .ok ()⟩⟩

/-- The loop when it starts, with the visitor at its door. -/
def started : EventLoop :=
  selectMultiplex Site.serverConfig ⟨[.ok (visitor.stream, 7)]⟩ ⟨[]⟩

/-- The loop once the listener is registered. -/
def registered : EventLoop := (started.next (told [])).2

/-- The loop once the visitor is accepted. -/
def accepted : EventLoop := (registered.next (told [⟨1, true, false⟩])).2

/-- The loop once the page is requested. -/
def responding : EventLoop := (accepted.next (told [⟨2, true, false⟩])).2

/-- A run in which the visitor is accepted. -/
theorem run_accepted : (selectSystem gregorian Site.serverConfig).Run
    [(started, told []), (registered, told [⟨1, true, false⟩])] accepted := by
  refine @TransitionSystem.Run.step _ _ _ [_] _ _ _
    (@TransitionSystem.Run.step _ _ _ [] _ _ _ (.start ⟨_, _, rfl⟩) (Prod.ext ?_ rfl))
    (Prod.ext ?_ rfl)
  · decide +kernel
  · decide +kernel

end Site

/-- The page is requested, and some of the response has been written. -/
theorem responses_plain_visitor :
    let mid := (handleEvents [(⟨2, false, true⟩, Site.world)] Site.responding).2
    let steps := [(Site.started, Site.told []), (Site.registered, Site.told [⟨1, true, false⟩]),
      (Site.accepted, Site.told [⟨2, true, false⟩]),
      (Site.responding, Site.told [⟨2, false, true⟩])]
    bytesWritten (callsOf 2 mid.log) ≠ [] ∧
      Fronted Site.serverConfig (worldsOf 2 steps) (callsOf 2 mid.log) := by
  intro mid steps
  have run : (selectSystem gregorian Site.serverConfig).Run
      [(Site.started, Site.told []), (Site.registered, Site.told [⟨1, true, false⟩]),
        (Site.accepted, Site.told [⟨2, true, false⟩])] Site.responding := by
    refine @TransitionSystem.Run.step _ _ _ [_, _] _ _ _ Site.run_accepted (Prod.ext ?_ rfl)
    decide +kernel
  have during : During (Site.told [⟨2, false, true⟩]) Site.responding mid := by
    refine .handled rfl (Prod.ext ?_ rfl)
    decide +kernel
  obtain ⟨fronted, -⟩ := responses_plain run during 2
  refine ⟨?_, fronted⟩
  decide +kernel

end RustHttpServer
