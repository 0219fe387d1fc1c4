import RustHttpServer.Select.Connection
import RustHttpServer.Select.Roles

/-!
# One request for each connection

A connection hands its request on once, in the state `Read`, which it then leaves. When a
request cannot be parsed, the connection goes back to the loop in the state `Read` with an
empty buffer, but its close is pending, and is executed before another event can be delivered
(`one_request`).
-/

namespace RustHttpServer

open Foundation Utf8

variable {chrono : Chrono}

/-- A request could not be parsed. -/
inductive Call.Rejects : Call → Prop
  | parse (latest : Bytes) (error : Error) : Rejects (.parse latest (.err error))

/-- All has been parsed. -/
def Unrejected (calls : List Call) : Prop := ∀ call ∈ calls, ¬call.Rejects

/-- Nothing is done once a request could not be parsed. -/
def RejectedLast (calls : List Call) : Prop :=
  Unrejected calls ∨ ∃ before latest error,
    calls = before ++ [.parse latest (.err error)] ∧ Unrejected before

/-- How far a connection has come. -/
def ConnectionState.rank : ConnectionState → Nat
  | .read _ => 0
  | .write _ => 1
  | .close => 2

private theorem Connection.reading_of_rank {connection : Connection}
    (zero : connection.connectionState.rank = 0) : connection.Reading := by
  cases state : connection.connectionState with
  | read incrementalRequest => exact ⟨incrementalRequest, state⟩
  | write response =>
      rw [state] at zero
      cases zero
  | close =>
      rw [state] at zero
      cases zero

/-- What can be parsed before and behind can be parsed. -/
theorem Unrejected.append {calls more : List Call} (first : Unrejected calls)
    (second : Unrejected more) : Unrejected (calls ++ more) :=
  List.forall_mem_append.mpr ⟨first, second⟩

/-- Behind a request that cannot be parsed nothing is done. -/
theorem RejectedLast.eq_nil {before after : List Call} {call : Call} (rejects : call.Rejects)
    (last : RejectedLast (before ++ call :: after)) : after = [] := by
  rcases last with unrejected | ⟨others, latest, error, same, unrejected⟩
  · exact absurd rejects (unrejected call (List.mem_append_right _ List.mem_cons_self))
  · rcases List.eq_nil_or_concat after with rfl | ⟨rest, final, rfl⟩
    · rfl
    · rw [List.concat_eq_append, ← List.cons_append, ← List.append_assoc] at same
      have inside : call ∈ others := by
        rw [← (List.append_inj' same rfl).1]
        exact List.mem_append_right _ List.mem_cons_self
      exact absurd rejects (unrejected call inside)

/-! ### Handlers -/

/-- What is done on a connection for an event, and what becomes of the connection. -/
inductive Serves (token : Token) (connection : Connection) :
    Outcome Error (EventSource × List HandleEventResponse) → List Call → Prop
  /-- No request is complete, or it has been answered before. -/
  | wait {outcome : Outcome Error (EventSource × List HandleEventResponse)} {calls : List Call} :
      requestsHandled calls = [] → Unrejected calls →
      (∀ connection' responses, outcome = .ok (.tcpStream connection', responses) →
        connection.connectionState.rank ≤ connection'.connectionState.rank) →
      Serves token connection outcome calls
  /-- The request is handed on. -/
  | hand {outcome : Outcome Error (EventSource × List HandleEventResponse)} {calls : List Call}
      {request : Request} :
      connection.Reading → requestsHandled calls = [request] → Unrejected calls →
      (∀ connection' responses, outcome = .ok (.tcpStream connection', responses) →
        connection'.connectionState.rank = 1) →
      Serves token connection outcome calls
  /-- The request cannot be parsed. -/
  | reject {connection' : Connection} {calls : List Call} {latest : Bytes} {error : Error} :
      connection.Reading → requestsHandled calls = [] → Unrejected calls →
      connection'.connectionState = .read (.none []) →
      Serves token connection
        (.ok (.tcpStream connection', [.emptyCommand (.closeSource token)]))
        (calls ++ [.parse latest (.err error)])

/-- What is done in the loop that reads a request: nothing is handed on, and when the request
cannot be parsed the loop ends. -/
def ReadLoop.Records (calls : List Call) : ReadLoop → Prop
  | .rejected => requestsHandled calls = [] ∧ ∃ before latest error,
      calls = before ++ [.parse latest (.err error)] ∧ Unrejected before
  | _ => requestsHandled calls = [] ∧ Unrejected calls

/-- What the loop does goes on from where nothing has been handed on. -/
theorem ReadLoop.Records.append {calls more : List Call} {ending : ReadLoop}
    (silent : requestsHandled calls = []) (unrejected : Unrejected calls)
    (records : ending.Records more) : ending.Records (calls ++ more) := by
  cases ending with
  | rejected =>
      obtain ⟨silent', before, latest, error, rfl, unrejected'⟩ := records
      refine ⟨?_, calls ++ before, latest, error, ?_, unrejected.append unrejected'⟩
      · rw [requestsHandled_append, silent, silent']
        rfl
      · rw [List.append_assoc]
  | _ =>
      obtain ⟨silent', unrejected'⟩ := records
      refine ⟨?_, unrejected.append unrejected'⟩
      rw [requestsHandled_append, silent, silent']
      rfl

private theorem unrejected_read (bytes : Bytes) : Unrejected [.read bytes] := by
  refine List.forall_mem_singleton.mpr fun rejects => ?_
  cases rejects

private theorem unrejected_parse {bytes : Bytes} {result : Outcome Error IncrementalRequest}
    (parsed : result.Unfailing) : Unrejected [.read bytes, .parse bytes result] := by
  refine (unrejected_read bytes).append (List.forall_mem_singleton.mpr fun rejects => ?_)
  cases rejects
  exact parsed _ rfl

/-- The loop hands on nothing, and stops at what it cannot parse. -/
private theorem readLoop_records (incrementalRequest : IncrementalRequest)
    (reads : List (Except IoError Bytes)) :
    (readLoop incrementalRequest reads).1.Records (readLoop incrementalRequest reads).2.2 := by
  fun_induction readLoop incrementalRequest reads with
  | case4 incrementalRequest bytes reads some calls parsed result full =>
      refine ⟨rfl, unrejected_parse ?_⟩
      rw [result]
      exact .ok _
  | case5 incrementalRequest bytes reads some calls parsed result incomplete ending left more
      looped ih =>
      rw [looped] at ih
      refine ih.append rfl (unrejected_parse ?_)
      rw [result]
      exact .ok _
  | case6 incrementalRequest bytes reads some calls error result =>
      refine ⟨rfl, [.read bytes], bytes, error, ?_, unrejected_read bytes⟩
      rw [← result]
      rfl
  | case7 incrementalRequest bytes reads some calls result =>
      refine ⟨rfl, unrejected_parse ?_⟩
      rw [result]
      exact .abort
  | _ => exact ⟨rfl, List.forall_mem_nil _⟩

private theorem unrejected_writeBytes (bytes : Bytes) (writes : List (Except IoError ℕ+)) :
    Unrejected (writeBytes bytes writes).2.2 := by
  intro call inside rejects
  obtain ⟨written, rfl⟩ := (writeBytes_accounts bytes writes).2 call inside
  cases rejects

/-- The loop that writes the response hands nothing on and parses nothing. -/
theorem writeLoop_calls (order : HeaderOrder) (response : IncrementalResponse)
    (writes : List (Except IoError ℕ+)) :
    requestsHandled (writeLoop order response writes).2.2 = [] ∧
      Unrejected (writeLoop order response writes).2.2 := by
  unfold writeLoop
  split
  · split
    · exact ⟨(writeBytes_accounts _ _).2.requestsHandled, unrejected_writeBytes _ _⟩
    · exact ⟨rfl, List.forall_mem_nil _⟩
    · exact ⟨rfl, List.forall_mem_nil _⟩
  · exact ⟨(writeBytes_accounts _ _).2.requestsHandled, unrejected_writeBytes _ _⟩
  · exact ⟨rfl, List.forall_mem_nil _⟩

namespace Connection

variable {connection : Connection} {token : Token} {world : World chrono}

private theorem serves_idle (connection : Connection) (token : Token) :
    Serves token connection (.ok (.tcpStream connection, [])) [] := by
  refine .wait rfl (List.forall_mem_nil _) ?_
  rintro connection' responses ⟨⟩
  exact Nat.le_refl _

/-- The part that follows the loop that reads the request. -/
theorem serves_respond {before : Connection} (reading : before.Reading)
    (incrementalRequest : IncrementalRequest) {calls : List Call}
    (silent : requestsHandled calls = []) (unrejected : Unrejected calls) :
    Serves token before (connection.respond world token incrementalRequest).1
      (calls ++ (connection.respond world token incrementalRequest).2) := by
  have none : ∀ connection' : Connection, before.connectionState.rank ≤
      connection'.connectionState.rank := by
    obtain ⟨read, state⟩ := reading
    intro connection'
    rw [state]
    exact Nat.zero_le _
  cases full : incrementalRequest.isFull with
  | false =>
      rw [respond_incomplete full, List.append_nil]
      exact .wait silent unrejected fun _ _ _ => none _
  | true =>
      obtain ⟨request, rfl⟩ := exists_fullRequest full
      unfold respond
      cases connection.stream.peerAddr with
      | error error =>
          rw [List.append_nil]
          refine .wait silent unrejected ?_
          rintro connection' responses ⟨⟩
      | ok addr =>
          have handed : requestsHandled (calls ++ [.handle (Request.fromNoRemote request addr)]) =
              [Request.fromNoRemote request addr] := by
            rw [requestsHandled_append, silent]
            rfl
          have unrejected' : Unrejected (calls ++ [.handle (Request.fromNoRemote request addr)]) :=
            unrejected.append (List.forall_mem_singleton.mpr nofun)
          dsimp only
          split
          · refine .hand reading handed unrejected' ?_
            rintro connection' responses ⟨⟩
            rfl
          · refine .hand reading handed unrejected' ?_
            rintro connection' responses ⟨⟩
          · refine .hand reading handed unrejected' ?_
            rintro connection' responses ⟨⟩

/-- The handler of a connection. -/
theorem serves_handleStreamEvent (event : Event) (world : World chrono) (token : Token)
    (connection : Connection) :
    Serves token connection (handleStreamEvent event world token connection).1
      (handleStreamEvent event world token connection).2 := by
  unfold handleStreamEvent
  cases state : connection.connectionState with
  | read incrementalRequest =>
      have reading := Connection.Reading.of_read state
      have none : ∀ connection' : Connection, connection.connectionState.rank ≤
          connection'.connectionState.rank := by
        intro connection'
        rw [state]
        exact Nat.zero_le _
      dsimp only
      split
      · unfold readRequest
        have records := readLoop_records incrementalRequest connection.stream.reads
        cases looped : readLoop incrementalRequest connection.stream.reads with
        | mk ending left =>
            obtain ⟨reads, calls⟩ := left
            rw [looped] at records
            cases ending with
            | suspended suspended => exact .wait records.1 records.2 fun _ _ _ => none _
            | rejected =>
                obtain ⟨silent, before, latest, error, rfl, unrejected⟩ := records
                rw [requestsHandled_append] at silent
                exact .reject reading (List.append_eq_nil_iff.mp silent).1 unrejected rfl
            | done parsed =>
                exact @serves_respond chrono { connection with
                  stream := { connection.stream with reads } } token world connection reading parsed
                  calls records.1 records.2
            | failed error => exact .wait records.1 records.2 fun _ _ _ => none _
            | aborted => exact .wait records.1 records.2 fun _ _ _ => none _
      · exact serves_idle connection token
  | write response =>
      dsimp only
      split
      · unfold writeResponse
        have written := writeLoop_calls world.headerOrder response connection.stream.writes
        cases looped : writeLoop world.headerOrder response connection.stream.writes with
        | mk ending left =>
            obtain ⟨writes, calls⟩ := left
            rw [looped] at written
            obtain ⟨silent, unrejected⟩ := written
            cases ending with
            | suspended held =>
                refine .wait silent unrejected ?_
                rintro connection' responses ⟨⟩
                rw [state]
                exact Nat.le_refl 1
            | done =>
                refine .wait silent unrejected ?_
                rintro connection' responses ⟨⟩
                rw [state]
                exact Nat.le_succ 1
            | failed error =>
                refine .wait silent unrejected ?_
                rintro connection' responses ⟨⟩
            | aborted =>
                refine .wait silent unrejected ?_
                rintro connection' responses ⟨⟩
      · exact serves_idle connection token
  | close => exact serves_idle connection token

end Connection

/-- A connection does not go back. -/
theorem Serves.rank_le {token : Token} {connection connection' : Connection}
    {responses : List HandleEventResponse} {calls : List Call}
    (serves : Serves token connection (.ok (.tcpStream connection', responses)) calls) :
    connection.connectionState.rank ≤ connection'.connectionState.rank := by
  have reading : connection.Reading → connection.connectionState.rank = 0 := by
    rintro ⟨incrementalRequest, state⟩
    rw [state]
    rfl
  cases serves with
  | wait _ _ ranked => exact ranked connection' responses rfl
  | hand there _ _ _ => exact (reading there).trans_le (Nat.zero_le _)
  | reject there _ _ _ => exact (reading there).trans_le (Nat.zero_le _)

/-- A connection does not go back from writing to reading. -/
private theorem EventSource.Continues.rank_le {connection : Connection} {source : EventSource}
    (continues : EventSource.Continues chrono (.tcpStream connection) source) :
    ∃ connection', source = .tcpStream connection' ∧
      connection.connectionState.rank ≤ connection'.connectionState.rank := by
  induction continues with
  | refl => exact ⟨connection, rfl, Nat.le_refl _⟩
  | @tail source after _ becomes ih =>
      obtain ⟨between, rfl, below⟩ := ih
      obtain ⟨event, world, token, responses, calls, returned⟩ := becomes
      obtain ⟨remains, -⟩ := EventSource.handleEvent_submits returned
      cases remains with
      | @tcpStream _ connection' _ =>
          have serves := between.serves_handleStreamEvent event world token
          rw [show handleStreamEvent event world token between = _ from returned] at serves
          exact ⟨connection', rfl, below.trans serves.rank_le⟩

/-! ### The loop -/

/-- The call on the connection under a token. -/
def Act.callOn? (token : Token) : Act → Option Call
  | .call called made => if called = token then some made else none
  | .execute _ _ _ => none

/-- What has been done on the connection under a token. -/
def callsOf (token : Token) (log : List Act) : List Call := log.filterMap (Act.callOn? token)

section CallsOf

variable (token : Token)

/-- What is done on a connection in all is what is done on it first, and then. -/
theorem callsOf_append (log acts : List Act) :
    callsOf token (log ++ acts) = callsOf token log ++ callsOf token acts := List.filterMap_append

private theorem callsOf_self (calls : List Call) :
    callsOf token (calls.map (.call token)) = calls := by
  induction calls with
  | nil => rfl
  | cons call calls ih =>
      have chosen : Act.callOn? token (.call token call) = some call := if_pos rfl
      rw [List.map_cons, callsOf, List.filterMap_cons_some chosen]
      exact congrArg _ ih

private theorem callsOf_other {other : Token} (different : other ≠ token) (calls : List Call) :
    callsOf token (calls.map (.call other)) = [] := by
  refine List.filterMap_eq_nil_iff.mpr fun act member => ?_
  obtain ⟨call, -, rfl⟩ := List.mem_map.mp member
  exact if_neg different

end CallsOf

namespace EventLoop

variable {loop mid after : EventLoop}

/-- No connection has handed on more than one request, those that still read have handed on
none, and one whose request could not be parsed has come to its end: it is gone, or its close
is pending. -/
structure Answered (loop : EventLoop) : Prop where
  untouched : ∀ token, token ∉ arrived loop.log → callsOf token loop.log = []
  unanswered : ∀ token connection, loop.eventSources.lookup token = some (.tcpStream connection) →
    connection.Reading → requestsHandled (callsOf token loop.log) = []
  once : ∀ token, (requestsHandled (callsOf token loop.log)).length ≤ 1
  last : ∀ token, RejectedLast (callsOf token loop.log)
  closing : ∀ token source, loop.eventSources.lookup token = some source →
    ¬Unrejected (callsOf token loop.log) → .respond (.closeSource token) ∈ loop.commandQueue

/-- The execution of a command is not a call, and a source that is registered has not been
called before. -/
theorem Answered.execution (answered : loop.Answered) (fresh : loop.FreshTokens)
    (execution : Execution loop after) : after.Answered := by
  obtain ⟨command, rest, more, now, closed, -, -, log⟩ := execution.executes
  have same : ∀ token, callsOf token after.log = callsOf token loop.log := by
    intro token
    rw [log, callsOf_append]
    exact List.append_nil _
  have untouched : ∀ token, token ∉ arrived loop.log → callsOf token after.log = [] := by
    intro token unknown
    rw [same]
    exact answered.untouched token unknown
  have cases : ∀ token source, after.eventSources.lookup token = some source →
      token ∉ arrived loop.log ∨ loop.eventSources.lookup token = some source := by
    intro token source found
    rcases execution.present fresh (.inl found) with live | ⟨interests, member⟩
    · exact .inr live
    · exact .inl (fresh.not_arrived (mem_arrivals.mpr ⟨source, interests, member⟩))
  constructor
  · intro token unknown
    refine untouched token fun known => unknown ?_
    rw [log, arrived_append]
    exact List.mem_append_left _ known
  · intro token connection found reading
    rcases cases token _ found with unknown | live
    · rw [untouched token unknown]
      rfl
    · rw [same]
      exact answered.unanswered token connection live reading
  · intro token
    rw [same]
    exact answered.once token
  · intro token
    rw [same]
    exact answered.last token
  · intro token source found rejected
    rcases cases token _ found with unknown | live
    · rw [untouched token unknown] at rejected
      exact absurd (List.forall_mem_nil _) rejected
    · rw [same] at rejected
      refine (execution.closing fresh
        (answered.closing token source live rejected)).resolve_right ?_
      rw [found]
      nofun

/-- What has been done on the connection under a token after some more calls. -/
theorem callsOf_record {token : Token} {calls : List Call}
    (log : after.log = loop.log ++ calls.map (.call token)) :
    callsOf token after.log = callsOf token loop.log ++ calls ∧
      ∀ other, other ≠ token → callsOf other after.log = callsOf other loop.log := by
  refine ⟨?_, fun other different => ?_⟩
  · rw [log, callsOf_append, callsOf_self]
  · rw [log, callsOf_append, callsOf_other other (Ne.symm different), List.append_nil]

/-- A source handles an event: what is done on it, and what has become of it, are those of a
connection that has not come to its end. -/
theorem Answered.of_calls (answered : loop.Answered) {token : Token} {calls : List Call}
    (known : token ∈ arrived loop.log) (log : after.log = loop.log ++ calls.map (.call token))
    (others : ∀ other source, other ≠ token → after.eventSources.lookup other = some source →
      loop.eventSources.lookup other = some source)
    (queue : loop.commandQueue ⊆ after.commandQueue)
    (unanswered : ∀ connection, after.eventSources.lookup token = some (.tcpStream connection) →
      connection.Reading → requestsHandled (callsOf token loop.log ++ calls) = [])
    (once : (requestsHandled (callsOf token loop.log ++ calls)).length ≤ 1)
    (last : RejectedLast (callsOf token loop.log ++ calls))
    (closing : ∀ source, after.eventSources.lookup token = some source →
      ¬Unrejected (callsOf token loop.log ++ calls) →
      .respond (.closeSource token) ∈ after.commandQueue) : after.Answered := by
  obtain ⟨own, rest⟩ := callsOf_record log
  constructor
  · intro other unknown
    rw [log, arrived_append, arrived_calls, List.append_nil] at unknown
    rw [rest other fun same => unknown (same ▸ known)]
    exact answered.untouched other unknown
  · intro other connection found reading
    by_cases same : other = token
    · subst same
      rw [own]
      exact unanswered connection found reading
    · rw [rest other same]
      exact answered.unanswered other connection (others other _ same found) reading
  · intro other
    by_cases same : other = token
    · subst same
      rw [own]
      exact once
    · rw [rest other same]
      exact answered.once other
  · intro other
    by_cases same : other = token
    · subst same
      rw [own]
      exact last
    · rw [rest other same]
      exact answered.last other
  · intro other source found rejected
    by_cases same : other = token
    · subst same
      rw [own] at rejected
      exact closing source found rejected
    · rw [rest other same] at rejected
      exact queue (answered.closing other source (others other source same found) rejected)

/-- The handler of a connection that has not come to its end. -/
theorem Answered.serves (answered : loop.Answered) {token : Token} {connection : Connection}
    (found : loop.eventSources.lookup token = some (.tcpStream connection))
    (unrejected : Unrejected (callsOf token loop.log))
    {outcome : Outcome Error (EventSource × List HandleEventResponse)} {calls : List Call}
    (serves : Serves token connection outcome calls) :
    (∀ connection' responses, outcome = .ok (.tcpStream connection', responses) →
      connection'.Reading → requestsHandled (callsOf token loop.log ++ calls) = []) ∧
    (requestsHandled (callsOf token loop.log ++ calls)).length ≤ 1 ∧
    RejectedLast (callsOf token loop.log ++ calls) ∧
    (¬Unrejected (callsOf token loop.log ++ calls) →
      ∃ newSource, outcome = .ok (newSource, [.emptyCommand (.closeSource token)])) := by
  have unanswered := answered.unanswered token connection found
  rw [requestsHandled_append]
  cases serves with
  | wait silent unrejected' ranked =>
      rw [silent, List.append_nil]
      refine ⟨fun connection' responses returned reading => unanswered ?_, answered.once token,
        .inl (unrejected.append unrejected'), fun rejected => absurd ?_ rejected⟩
      · obtain ⟨incrementalRequest, state⟩ := reading
        have below := ranked connection' responses returned
        rw [state] at below
        exact Connection.reading_of_rank (Nat.le_zero.mp below)
      · exact unrejected.append unrejected'
  | @hand _ _ request reading handed unrejected' ranked =>
      rw [unanswered reading, handed]
      refine ⟨fun connection' responses returned reading => ?_, Nat.le_refl 1,
        .inl (unrejected.append unrejected'), fun rejected => absurd ?_ rejected⟩
      · obtain ⟨incrementalRequest, state⟩ := reading
        have one := ranked connection' responses returned
        rw [state] at one
        cases one
      · exact unrejected.append unrejected'
  | @reject connection' calls latest error reading silent unrejected' _ =>
      have silent' : requestsHandled (calls ++ [.parse latest (.err error)]) = [] := by
        rw [requestsHandled_append, silent]
        rfl
      rw [silent', unanswered reading]
      refine ⟨fun _ _ _ _ => rfl, Nat.zero_le 1, .inr ⟨_, latest, error, ?_,
        unrejected.append unrejected'⟩, fun _ => ⟨_, rfl⟩⟩
      rw [List.append_assoc]

/-- What is done on a source for an event, if it is not a connection. -/
theorem calls_of_not_stream {source : EventSource} {event : Event} {world : World chrono}
    {token : Token} {outcome : Outcome Error (EventSource × List HandleEventResponse)}
    {calls : List Call} (other : ∀ connection, source ≠ .tcpStream connection)
    (returned : source.handleEvent event world token = (outcome, calls)) : calls = [] := by
  cases source with
  | tcpStream connection => exact absurd rfl (other connection)
  | tcpListener listener tokenCounter serverConfig => exact (congrArg Prod.snd returned).symm
  | stdin input listenerToken => exact (congrArg Prod.snd returned).symm

/-- What is to be said of an event of any source. -/
theorem Answered.returns (answered : loop.Answered) {event : Event} {world : World chrono}
    {source : EventSource} (found : loop.eventSources.lookup event.token = some source)
    (unrejected : Unrejected (callsOf event.token loop.log))
    {outcome : Outcome Error (EventSource × List HandleEventResponse)} {calls : List Call}
    (returned : source.handleEvent event world event.token = (outcome, calls)) :
    (∀ connection' responses, outcome = .ok (.tcpStream connection', responses) →
      connection'.Reading → requestsHandled (callsOf event.token loop.log ++ calls) = []) ∧
    (requestsHandled (callsOf event.token loop.log ++ calls)).length ≤ 1 ∧
    RejectedLast (callsOf event.token loop.log ++ calls) ∧
    (¬Unrejected (callsOf event.token loop.log ++ calls) →
      ∃ newSource, outcome = .ok (newSource, [.emptyCommand (.closeSource event.token)])) := by
  by_cases streaming : ∃ connection, source = .tcpStream connection
  · obtain ⟨connection, rfl⟩ := streaming
    have serves := connection.serves_handleStreamEvent event world event.token
    rw [show handleStreamEvent event world event.token connection = _ from returned] at serves
    exact answered.serves found unrejected serves
  · obtain rfl := calls_of_not_stream (fun connection same => streaming ⟨connection, same⟩) returned
    rw [List.append_nil]
    refine ⟨fun connection' responses same _ => absurd ?_ streaming, answered.once _,
      .inl unrejected, fun rejected => absurd unrejected rejected⟩
    subst same
    obtain ⟨remains, -⟩ := EventSource.handleEvent_submits returned
    cases remains
    exact ⟨_, rfl⟩

/-- An event is handled. -/
theorem Answered.handleEvent (answered : loop.Answered) (fresh : loop.FreshTokens) {event : Event}
    {world : World chrono} (unrejected : Unrejected (callsOf event.token loop.log))
    (handled : handleEvent event world loop = (.ok (), after)) : after.Answered := by
  obtain ⟨source, found, ⟨newSource, responses, calls, returned, rfl⟩ |
    ⟨error, calls, failed, rfl⟩⟩ := handleEvent_cases handled
  · obtain ⟨unanswered, once, last, closing⟩ := answered.returns found unrejected returned
    refine answered.of_calls (fresh.live _ source found) rfl
      (fun other source different lookup => ?_) (List.subset_append_left _ _)
      (fun connection' lookup => ?_) once last
      fun source lookup rejected => ?_
    · rwa [Finmap.lookup_insert_of_ne _ different] at lookup
    · rw [Finmap.lookup_insert] at lookup
      cases lookup
      exact unanswered connection' responses rfl
    · obtain ⟨newSource', same⟩ := closing rejected
      cases same
      exact List.mem_append_right _ (List.mem_singleton_self _)
  · obtain ⟨-, once, last, -⟩ := answered.returns found unrejected failed
    refine answered.of_calls (fresh.live _ source found) (dropSource_log ..)
      (fun other source different lookup => ?_) ?_ (fun connection' lookup => ?_) once last
      fun source lookup rejected => ?_
    · rw [dropSource_eventSources] at lookup
      exact (HashMap.of_lookup_erase lookup).2
    · rw [dropSource_commandQueue]
      exact List.Subset.refl _
    · rw [dropSource_eventSources, Finmap.lookup_erase] at lookup
      cases lookup
    · rw [dropSource_eventSources, Finmap.lookup_erase] at lookup
      cases lookup

private theorem handleEvent_log {event : Event} {world : World chrono}
    (handled : EventLoop.handleEvent event world loop = (.ok (), after)) :
    ∃ calls : List Call, after.log = loop.log ++ calls.map (.call event.token) := by
  obtain ⟨source, -, ⟨newSource, responses, calls, -, rfl⟩ | ⟨error, calls, -, rfl⟩⟩ :=
    handleEvent_cases handled
  · exact ⟨calls, rfl⟩
  · exact ⟨calls, dropSource_log ..⟩

/-- A batch of events from different sources is handled, none of which has come to its end. -/
theorem Answered.handleEvents (answered : loop.Answered) (fresh : loop.FreshTokens)
    {events : List (Event × World chrono)} (distinct : Distinct events)
    (unrejected : ∀ item ∈ events, item.1.token ∈ loop.eventSources →
      Unrejected (callsOf item.1.token loop.log))
    (handled : handleEvents events loop = (.ok (), after)) : after.Answered := by
  induction events generalizing loop with
  | nil =>
      cases handled
      exact answered
  | cons first events ih =>
      obtain ⟨event, world⟩ := first
      obtain ⟨⟨⟩, between, began, handled⟩ := Stateful.bind_apply_eq_ok_iff.mp handled
      obtain ⟨unreported, distinct⟩ := List.nodup_cons.mp distinct
      obtain ⟨here, unrejected⟩ := List.forall_mem_cons.mp unrejected
      obtain ⟨source, found, -⟩ := handleEvent_cases began
      obtain ⟨reaction, -, -, others, -, -⟩ := handleEvent_reaction began
      obtain ⟨calls, log⟩ := handleEvent_log began
      refine ih (answered.handleEvent fresh (here (Finmap.mem_of_lookup_eq_some found)) began)
        (fresh.step (.handle began)) distinct (fun item member live => ?_) handled
      have different : item.1.token ≠ event.token := fun same =>
        unreported (List.mem_map.mpr ⟨item, member, same⟩)
      rw [(callsOf_record log).2 _ different]
      refine unrejected item member ?_
      have same := congrArg Entry.source (others _ different)
      rw [← Finmap.lookup_isSome] at live ⊢
      rwa [show loop.eventSources.lookup item.1.token = _ from same.symm]

/-- At the beginning of a turn, no connection has come to its end. -/
theorem Answered.unrejected (answered : loop.Answered) (settled : loop.Settled) {token : Token}
    (live : token ∈ loop.eventSources) : Unrejected (callsOf token loop.log) := by
  by_contra rejected
  obtain ⟨source, found⟩ := Finmap.mem_iff.mp live
  exact settled.not_closing token (answered.closing token source found rejected)

/-- All states of a turn. -/
theorem Answered.during (answered : loop.Answered) (fresh : loop.FreshTokens)
    (settled : loop.Settled) {turn : Turn chrono} (distinct : Distinct turn.batch)
    (during : During turn loop mid) : mid.Answered := by
  have unrejected : ∀ item ∈ turn.batch, item.1.token ∈ loop.eventSources →
      Unrejected (callsOf item.1.token loop.log) := fun _ _ => answered.unrejected settled
  cases during with
  | @handling done rest _ polled handled =>
      rw [Turn.batch, polled] at distinct unrejected
      refine answered.handleEvents fresh ?_ (fun item member =>
        unrejected item (List.mem_append_left _ member)) handled
      exact ((List.sublist_append_left done rest).map _).nodup distinct
  | @executing events done rest newCommands handled mid polled began queued executed =>
      rw [Turn.batch, polled] at distinct unrejected
      have freshHandled := fresh.during (.handled polled began)
      have executions := moves_executeCommands_before rest executed
      rw [List.append_nil, ← queued] at executions
      exact (invariant_of_steps (fun loop => loop.FreshTokens ∧ loop.Answered) executions
        (fun _ _ kept execution => ⟨kept.1.execution execution, kept.2.execution kept.1 execution⟩)
        ⟨freshHandled, answered.handleEvents fresh distinct unrejected began⟩).2

end EventLoop

/-- `EventLoop::run` with batches that name each token once at most. -/
def distinctSystem (chrono : Chrono) : TransitionSystem EventLoop (Turn chrono) :=
  (eventLoopSystem chrono).restrict fun _ turn => EventLoop.Distinct turn.batch

open EventLoop

/-- In every run each connection is answered once. -/
private theorem answered_of_reachable {loop : EventLoop}
    (reachable : (distinctSystem chrono).Reachable loop) : loop.Answered := by
  refine (reachable.invariant
    (fun loop => loop.FreshTokens ∧ loop.Settled ∧ loop.Answered) ?_ ?_).2.2
  · intro loop initial
    have started : (eventLoopSystem chrono).Reachable loop := .start initial
    refine ⟨freshTokens_of_reachable started, settled_of_reachable started, ?_⟩
    obtain ⟨serverConfig, listener, stdin, rfl⟩ := initial
    constructor
    · exact fun _ _ => rfl
    · rintro token connection ⟨⟩
    · exact fun _ => Nat.zero_le 1
    · exact fun _ => .inl (List.forall_mem_nil _)
    · rintro token source ⟨⟩
  · rintro loop turn after ⟨fresh, settled, answered⟩ ⟨distinct, taken⟩
    have during := During.of_next taken
    exact ⟨fresh.during during, settled_of_next fresh taken,
      answered.during fresh settled distinct during⟩

/-- **One request for each connection.** At any time during a turn, in a run whose batches name
each token once at most: a connection has handed on one request at most, its state does not
go back, and once its request could not be parsed nothing more is done on it, although the
handler then returns it in the state `Read`, with nothing read. -/
theorem one_request {loop mid : EventLoop} (reachable : (distinctSystem chrono).Reachable loop)
    {turn : Turn chrono} (distinct : Distinct turn.batch) (during : During turn loop mid)
    (token : Token) :
    (requestsHandled (callsOf token mid.log)).length ≤ 1 ∧
    (∀ connection later connection',
      mid.eventSources.lookup token = some (.tcpStream connection) →
      Relation.ReflTransGen (Step chrono) mid later →
      later.eventSources.lookup token = some (.tcpStream connection') →
      connection.connectionState.rank ≤ connection'.connectionState.rank) ∧
    (∀ before latest error after,
      callsOf token mid.log = before ++ .parse latest (.err error) :: after → after = []) ∧
    ∀ event (world : World chrono) connection outcome calls latest error,
      handleStreamEvent event world token connection = (outcome, calls) →
      .parse latest (.err error) ∈ calls →
      ∃ connection', outcome = .ok (.tcpStream connection', [.emptyCommand (.closeSource token)]) ∧
        connection'.connectionState = .read (.none []) := by
  have fresh := freshTokens_of_reachable reachable.of_restrict
  have settled := settled_of_reachable reachable.of_restrict
  have answered := (answered_of_reachable reachable).during fresh settled distinct during
  refine ⟨answered.once token, fun connection later connection' found steps found' => ?_,
    fun before latest error after calls => ?_,
    fun event world connection outcome calls latest error returned member => ?_⟩
  · have midFresh := fresh.during during
    have given := midFresh.present_issued (.inl found)
    obtain ⟨original, present, continues⟩ := present_of_steps steps midFresh given (.inl found')
    obtain rfl := midFresh.present_unique (.inl found) present
    obtain ⟨between, same, below⟩ := continues.rank_le
    cases same
    exact below
  · have last := answered.last token
    rw [calls] at last
    exact last.eq_nil (.parse latest error)
  · have serves := connection.serves_handleStreamEvent event world token
    rw [returned] at serves
    cases serves with
    | wait _ unrejected _ => exact absurd (.parse latest error) (unrejected _ member)
    | hand _ _ unrejected _ => exact absurd (.parse latest error) (unrejected _ member)
    | @reject connection' _ _ _ _ _ _ state => exact ⟨connection', rfl, state⟩

/-- A request that cannot be parsed. -/
theorem one_request_malformed :
    let bytes := encode "GET\r\n".toList
    let stream : TcpStream := ⟨[.ok bytes], [], .ok "127.0.0.1:4000".toList⟩
    let turn (events : List Event) : Turn gregorian :=
      ⟨.ok (events.map fun event => (event, Site.world)), fun _ => ⟨8, .ok ()⟩⟩
    let start := selectMultiplex Site.serverConfig ⟨[.ok (stream, 7)]⟩ ⟨[]⟩
    let registered := (start.next (turn [])).2
    let accepted := (registered.next (turn [⟨1, true, false⟩])).2
    let mid := (handleEvents [(⟨2, true, false⟩, Site.world)] accepted).2
    chunksRead (callsOf 2 mid.log) = [bytes] ∧
      (requestsHandled (callsOf 2 mid.log)).length ≤ 1 ∧
      ∀ before latest error after,
        callsOf 2 mid.log = before ++ .parse latest (.err error) :: after → after = [] := by
  intro bytes stream turn start registered accepted mid
  have reachable : (distinctSystem gregorian).Reachable accepted := by
    refine .step (@TransitionSystem.Reachable.step _ _ _ start registered (turn [])
      (.start ⟨_, _, _, rfl⟩) ⟨?_, Prod.ext ?_ rfl⟩) ⟨?_, Prod.ext ?_ rfl⟩
    · exact List.nodup_nil
    · decide +kernel
    · exact List.nodup_singleton _
    · decide +kernel
  have during : During (turn [⟨2, true, false⟩]) accepted mid := by
    refine .handled rfl (Prod.ext ?_ rfl)
    decide +kernel
  have distinct : Distinct (turn [⟨2, true, false⟩]).batch := List.nodup_singleton _
  obtain ⟨once, -, last, -⟩ := one_request reachable distinct during 2
  refine ⟨?_, once, last⟩
  decide +kernel

end RustHttpServer
