import RustHttpServer.Select.Alone
import RustHttpServer.Select.Responses

/-!
# Requests on their way through the event loop

A request that comes in pieces, whenever the stream is ready for one, is handed on as it is
written once the loop has been told often enough that there is something to read, and the
connection is not closed before the response has been written (`request_served`).
-/

namespace RustHttpServer

open Foundation Utf8

variable {chrono : Chrono}

/-- What fails would block. -/
def Calm {α : Type*} (answers : List (Except IoError α)) : Prop :=
  ∀ error, .error error ∈ answers → error.kind = .wouldBlock

private theorem Calm.of_suffix {α : Type*} {answers left : List (Except IoError α)}
    (calm : Calm answers) (suffix : left <:+ answers) : Calm left :=
  fun error member => calm error (suffix.subset member)

/-- Reads between which calls would block are calm. -/
theorem Interleaves.calm {reads : List (Except IoError Bytes)} {chunks : List Bytes}
    (interleaves : Interleaves reads chunks) : Calm reads := by
  induction interleaves with
  | nil => exact fun _ member => nomatch member
  | chunk _ _ ih =>
      intro error member
      rcases List.mem_cons.mp member with same | member
      · cases same
      · exact ih error member
  | wouldBlock kind _ ih =>
      intro error member
      rcases List.mem_cons.mp member with same | member
      · cases same
        exact kind
      · exact ih error member

/-- A stream whose operations succeed, or would block. -/
structure TcpStream.Calm (stream : TcpStream) : Prop where
  reads : RustHttpServer.Calm stream.reads
  writes : RustHttpServer.Calm stream.writes
  peer : ∃ addr, stream.peerAddr = .ok addr

/-- A request comes in on a stream, in chunks that end between characters, with calls between them
that would block. The stream takes what is written, or would block. -/
structure TcpStream.Carries (stream : TcpStream) (written : RequestText) (addr : SocketAddr) :
    Prop where
  chunks : ∃ (texts : List Text) (more : List Bytes), texts.flatten = written.text ∧
    Interleaves stream.reads (texts.map encode ++ more)
  writes : RustHttpServer.Calm stream.writes
  peer : stream.peerAddr = .ok addr

/-- A stream that carries a request is calm. -/
theorem TcpStream.Carries.calm {stream : TcpStream} {written : RequestText} {addr : SocketAddr}
    (carries : stream.Carries written addr) : stream.Calm := by
  obtain ⟨⟨texts, more, -, interleaves⟩, writes, peer⟩ := carries
  exact ⟨interleaves.calm, writes, addr, peer⟩

/-- The bytes that the writes take. -/
def roomOf (writes : List (Except IoError ℕ+)) : Nat :=
  (writes.map fun
    | .ok room => (room : Nat)
    | .error _ => 0).sum

/-- The stream has room for the response to a request in one of some worlds, written in any of
them. -/
def TcpStream.HasRoom (stream : TcpStream) (serverConfig : ServerConfig)
    (worlds : Set (World chrono)) (request : Request) : Prop :=
  ∀ exchange : Exchange chrono, exchange.request = request → exchange.Plain serverConfig →
    exchange.world ∈ worlds → exchange.overloaded = false → ∀ world ∈ worlds, ∀ bytes,
      RustHttpServer.writeResponse world.headerOrder exchange.response = .ok bytes →
        bytes.length ≤ roomOf stream.writes

/-! ### Loops on a stream -/

/-- The loop that reads leaves the rest of the answers, and does not fail on calm ones. -/
theorem readLoop_calm (incrementalRequest : IncrementalRequest)
    {reads : List (Except IoError Bytes)} (calm : Calm reads) :
    (readLoop incrementalRequest reads).2.1 <:+ reads ∧
      ∀ error, (readLoop incrementalRequest reads).1 ≠ .failed error := by
  fun_induction readLoop incrementalRequest reads with
  | case1 incrementalRequest => exact ⟨List.suffix_rfl, by simp⟩
  | case2 incrementalRequest error reads blocked => exact ⟨List.suffix_cons _ _, by simp⟩
  | case3 incrementalRequest error reads failed =>
      exact absurd (calm error List.mem_cons_self) failed
  | case4 incrementalRequest bytes reads some calls next result full =>
      exact ⟨List.suffix_cons _ _, by simp⟩
  | case5 incrementalRequest bytes reads some calls next result waiting ending left more looped
      ih =>
      rw [looped] at ih
      obtain ⟨suffix, unfailing⟩ := ih (calm.of_suffix (List.suffix_cons _ _))
      exact ⟨suffix.trans (List.suffix_cons _ _), unfailing⟩
  | case6 incrementalRequest bytes reads some calls error result =>
      exact ⟨List.suffix_cons _ _, by simp⟩
  | case7 incrementalRequest bytes reads some calls result => exact ⟨List.suffix_cons _ _, by simp⟩
  | case8 incrementalRequest bytes reads none => exact ⟨List.suffix_cons _ _, by simp⟩

/-- The loop that writes leaves the rest of the answers, and does not fail on calm ones. -/
theorem writeBytes_calm (bytes : Bytes) {writes : List (Except IoError ℕ+)} (calm : Calm writes) :
    (writeBytes bytes writes).2.1 <:+ writes ∧
      ∀ error, (writeBytes bytes writes).1 ≠ .failed error := by
  fun_induction writeBytes bytes writes with
  | case1 writes => exact ⟨List.suffix_rfl, by simp⟩
  | case2 byte bytes => exact ⟨List.suffix_rfl, by simp⟩
  | case3 byte bytes room writes ending left calls written ih =>
      rw [written] at ih
      obtain ⟨suffix, unfailing⟩ := ih (calm.of_suffix (List.suffix_cons _ _))
      exact ⟨suffix.trans (List.suffix_cons _ _), unfailing⟩
  | case4 byte bytes error writes blocked => exact ⟨List.suffix_cons _ _, by simp⟩
  | case5 byte bytes error writes failed =>
      exact absurd (calm error List.mem_cons_self) failed

/-- The events on which the stream is writable. -/
def writables (events : List (Event × World chrono)) : Nat :=
  events.countP fun delivered => delivered.1.isWritable

/-- The calls for which the writes would block. -/
def blockings (writes : List (Except IoError ℕ+)) : Nat :=
  writes.countP fun
    | .ok _ => false
    | .error _ => true

/-- Bytes for which there is room are written, but for a call that would block. -/
theorem writeBytes_room {bytes : Bytes} {writes : List (Except IoError ℕ+)} (calm : Calm writes)
    (room : bytes.length ≤ roomOf writes) :
    (writeBytes bytes writes).1 = .done ∨ ∃ held, (writeBytes bytes writes).1 = .suspended held ∧
      held.length ≤ roomOf (writeBytes bytes writes).2.1 ∧
      blockings (writeBytes bytes writes).2.1 < blockings writes := by
  fun_induction writeBytes bytes writes with
  | case1 writes => exact .inl rfl
  | case2 byte bytes => exact absurd room (Nat.not_succ_le_zero _)
  | case3 byte bytes size writes ending left calls written ih =>
      rw [written] at ih
      have fits : ((byte :: bytes).drop size).length ≤ roomOf writes := by
        have total : roomOf (.ok size :: writes) = size + roomOf writes := List.sum_cons
        rw [total] at room
        rw [List.length_drop]
        omega
      have same : blockings (.ok size :: writes) = blockings writes :=
        List.countP_cons_of_neg Bool.false_ne_true
      rw [same]
      exact ih (calm.of_suffix (List.suffix_cons _ _)) fits
  | case4 byte bytes error writes blocked =>
      have more : blockings (.error error :: writes) = blockings writes + 1 :=
        List.countP_cons_of_pos rfl
      have total : roomOf (.error error :: writes) = 0 + roomOf writes := List.sum_cons
      rw [total, Nat.zero_add] at room
      exact .inr ⟨_, rfl, room, more ▸ Nat.lt_succ_self _⟩
  | case5 byte bytes error writes failed => exact absurd (calm error List.mem_cons_self) failed

/-! ### Delivery -/

/-- A handler does not fail, and leaves the stream calm. -/
structure StaysCalm (handled : Handled) : Prop where
  unfailing : handled.1.Unfailing
  kept : ∀ connection responses, handled.1 = .ok (.tcpStream connection, responses) →
    connection.stream.Calm

namespace StaysCalm

/-- A handler that leaves the stream calm, and returns. -/
theorem ok {connection : Connection} (responses : List HandleEventResponse) (calls : List Call)
    (calm : connection.stream.Calm) :
    StaysCalm (.ok (.tcpStream connection, responses), calls) where
  unfailing := .ok _
  kept := by
    rintro connection' responses' same
    cases same
    exact calm

/-- A handler that aborts does not fail. -/
theorem abort (calls : List Call) : StaysCalm (.abort, calls) where
  unfailing := .abort
  kept _ _ same := nomatch same

end StaysCalm

namespace Connection

variable {connection connection' : Connection} {token : Token} {world : World chrono}

/-- Responding leaves a calm stream calm. -/
private theorem staysCalm_respond (calm : connection.stream.Calm)
    (incrementalRequest : IncrementalRequest) :
    StaysCalm (connection.respond world token incrementalRequest) := by
  cases full : incrementalRequest.isFull with
  | false =>
      rw [respond_incomplete full]
      exact .ok _ _ calm
  | true =>
      obtain ⟨request, rfl⟩ := exists_fullRequest full
      obtain ⟨addr, known⟩ := calm.peer
      unfold respond
      rw [known]
      dsimp only
      have unfailing := connection.requestHandler.handle_unfailing world
        (Request.fromNoRemote request addr) false
      cases responded : connection.requestHandler.handle world
          (Request.fromNoRemote request addr) false with
      | mk outcome result =>
          obtain ⟨requestHandler, accesses⟩ := result
          rw [responded] at unfailing
          cases outcome with
          | err error => exact absurd rfl (unfailing error)
          | abort => exact .abort _
          | ok response => exact .ok _ _ calm

/-- The handler of a connection with a calm stream does not fail. -/
theorem staysCalm_handleStreamEvent (calm : connection.stream.Calm) (event : Event)
    (world : World chrono) (token : Token) :
    StaysCalm (handleStreamEvent event world token connection) := by
  unfold handleStreamEvent
  cases state : connection.connectionState with
  | read incrementalRequest =>
      dsimp only
      split
      · obtain ⟨suffix, unfailing⟩ := readLoop_calm incrementalRequest calm.reads
        unfold readRequest
        cases looped : readLoop incrementalRequest connection.stream.reads with
        | mk ending left =>
            obtain ⟨reads, calls⟩ := left
            rw [looped] at suffix unfailing
            have left : TcpStream.Calm { connection.stream with reads } :=
              ⟨calm.reads.of_suffix suffix, calm.writes, calm.peer⟩
            cases ending with
            | suspended suspended => exact .ok _ _ left
            | rejected => exact .ok _ _ left
            | failed error => exact absurd rfl (unfailing error)
            | aborted => exact .abort _
            | done parsed =>
                have stays := @staysCalm_respond chrono { connection with
                  stream := { connection.stream with reads } } token world left parsed
                exact ⟨stays.unfailing, stays.kept⟩
      · exact .ok _ _ calm
  | write response =>
      dsimp only
      split
      · obtain ⟨bytes, remaining⟩ := response.exists_remaining world.headerOrder
        obtain ⟨suffix, unfailing⟩ := writeBytes_calm bytes calm.writes
        unfold writeResponse
        rw [writeLoop_eq remaining]
        cases written : writeBytes bytes connection.stream.writes with
        | mk ending left =>
            obtain ⟨writes, calls⟩ := left
            rw [written] at suffix unfailing
            have left : TcpStream.Calm { connection.stream with writes } :=
              ⟨calm.reads, calm.writes.of_suffix suffix, calm.peer⟩
            cases ending with
            | suspended held => exact .ok _ _ left
            | done => exact .ok _ _ left
            | failed error => exact absurd rfl (unfailing error)
            | aborted => exact .abort _
      · exact .ok _ _ calm
  | close => exact .ok _ _ calm

/-- What has become of a connection with a calm stream: it is still open, or has requested its
close itself, and what it has been sent is from a new host. -/
theorem deliver_answering {serverConfig : ServerConfig} {worlds : Set (World chrono)}
    {before : List Call} (events : List (Event × World chrono))
    (known : ∀ item ∈ events, item.2 ∈ worlds)
    (answering : Answering serverConfig worlds before connection.connectionState)
    (new : connection.Reading → connection.requestHandler = Host.fresh serverConfig)
    (calm : connection.stream.Calm) (survives : connection.Survives token events) :
    let delivered := connection.deliver token events
    ∃ connection' : Connection, connection'.acceptTime = connection.acceptTime ∧
      Answering serverConfig worlds (before ++ delivered.2) connection'.connectionState ∧
      (delivered.1 = .opened connection' ∨ delivered.1 = .closing connection' ∧
        (connection'.Reading ∨ connection'.connectionState = .close)) := by
  induction events generalizing connection before with
  | nil =>
      refine ⟨connection, rfl, ?_, .inl rfl⟩
      rwa [show (connection.deliver token ([] : List (Event × World chrono))).2 = [] from rfl,
        List.append_nil]
  | cons first events ih =>
      obtain ⟨event, world⟩ := first
      obtain ⟨here, known⟩ := List.forall_mem_cons.mp known
      have reacts := connection.reacts_handleStreamEvent event token here answering new
      have stays := staysCalm_handleStreamEvent calm event world token
      have returns := connection.returns_handleStreamEvent event world token
      rw [Survives] at survives
      rw [deliver]
      cases handled : handleStreamEvent event world token connection with
      | mk outcome calls =>
          rw [handled] at reacts stays returns survives
          cases outcome with
          | err error => exact absurd rfl (stays.unfailing error)
          | abort => exact survives.elim
          | ok returned =>
              obtain ⟨source, responses⟩ := returned
              obtain ⟨connection', rfl, advances, -⟩ := returns source responses rfl
              obtain ⟨answering, new⟩ := reacts.kept connection' responses rfl
              rw [follow]
              by_cases closes : requestsClose token responses = true
              · rw [if_pos closes]
                refine ⟨connection', advances.acceptTime, answering, .inr ⟨rfl, ?_⟩⟩
                rcases handleStreamEvent_responses (congrArg Prod.fst handled) with
                  rfl | rfl | ⟨-, ended⟩
                · cases closes
                · cases closes
                · exact ended
              · rw [if_neg closes]
                dsimp only
                rw [← List.append_assoc]
                obtain ⟨later, acceptTime, rest⟩ := ih known answering new
                  (stays.kept connection' responses rfl) (survives (Bool.eq_false_iff.mpr closes))
                exact ⟨later, acceptTime.trans advances.acceptTime, rest⟩

/-- A connection that reads goes on reading, or has a response and has written nothing. -/
theorem handleStreamEvent_reading {event : Event} {responses : List HandleEventResponse}
    {connection' : Connection} (reading : connection.Reading)
    (returned : (handleStreamEvent event world token connection).1 =
      .ok (.tcpStream connection', responses)) :
    connection'.stream.writes = connection.stream.writes ∧ (connection'.Reading ∨
      ∃ response, connection'.connectionState = .write (.struct response) ∧
        requestsClose token responses = false) := by
  obtain ⟨incrementalRequest, state⟩ := reading
  unfold handleStreamEvent at returned
  rw [state] at returned
  dsimp only at returned
  split at returned
  · unfold readRequest at returned
    dsimp only at returned
    split at returned
    · cases returned
      exact ⟨rfl, .inl ⟨_, rfl⟩⟩
    · cases returned
      exact ⟨rfl, .inl ⟨_, rfl⟩⟩
    · unfold respond at returned
      dsimp only at returned
      split at returned
      · split at returned
        · cases returned
          exact ⟨rfl, .inr ⟨_, rfl, by simp [requestsClose]⟩⟩
        · cases returned
        · cases returned
      · cases returned
      · cases returned
        exact ⟨rfl, .inl ⟨_, rfl⟩⟩
    · cases returned
    · cases returned
  · cases returned
    exact ⟨rfl, .inl ⟨_, state⟩⟩

/-- The point from which a connection writes what it has handed its request on for. -/
theorem deliver_handed {serverConfig : ServerConfig} {worlds : Set (World chrono)}
    {before : List Call} (events : List (Event × World chrono))
    (known : ∀ item ∈ events, item.2 ∈ worlds) (reading : connection.Reading)
    (answering : Answering serverConfig worlds before connection.connectionState)
    (new : connection.Reading → connection.requestHandler = Host.fresh serverConfig)
    (calm : connection.stream.Calm) (survives : connection.Survives token events)
    (handed : requestsHandled (before ++ (connection.deliver token events).2) ≠ []) :
    ∃ first second connection' calls exchange, events = first ++ second ∧
      connection.deliver token first = (.opened connection', calls) ∧
      connection'.stream.writes = connection.stream.writes ∧ connection'.stream.Calm ∧
      connection'.connectionState = .write (.struct exchange.response) ∧
      (exchange : Exchange chrono).Made serverConfig worlds (before ++ calls) := by
  induction events generalizing connection before with
  | nil =>
      obtain ⟨incrementalRequest, state⟩ := reading
      rw [state] at answering
      cases answering with
      | reading silent =>
          refine absurd ?_ handed
          rw [requestsHandled_append, silent.requestsHandled]
          rfl
  | cons next events ih =>
      obtain ⟨event, world⟩ := next
      obtain ⟨here, known⟩ := List.forall_mem_cons.mp known
      have reacts := connection.reacts_handleStreamEvent event token here answering new
      have stays := staysCalm_handleStreamEvent calm event world token
      have returns := connection.returns_handleStreamEvent event world token
      rw [Survives] at survives
      rw [deliver] at handed
      cases handled : handleStreamEvent event world token connection with
      | mk outcome calls =>
          rw [handled] at reacts stays returns survives handed
          cases outcome with
          | err error => exact absurd rfl (stays.unfailing error)
          | abort => exact survives.elim
          | ok returned =>
              obtain ⟨source, responses⟩ := returned
              obtain ⟨connection', rfl, -, -⟩ := returns source responses rfl
              obtain ⟨answering', new'⟩ := reacts.kept connection' responses rfl
              obtain ⟨writes, state⟩ :=
                handleStreamEvent_reading reading (congrArg Prod.fst handled)
              rw [follow] at handed
              rcases state with reading' | ⟨response, state, open'⟩
              · by_cases closes : requestsClose token responses = true
                · rw [if_pos closes] at handed
                  obtain ⟨incrementalRequest, state⟩ := reading'
                  rw [state] at answering'
                  cases answering' with
                  | reading silent => exact absurd silent.requestsHandled handed
                · rw [if_neg closes] at handed
                  dsimp only at handed
                  rw [← List.append_assoc] at handed
                  obtain ⟨first, second, last, more, exchange, rfl, delivered, same, rest⟩ :=
                    ih known reading' answering' new' (stays.kept connection' responses rfl)
                      (survives (Bool.eq_false_iff.mpr closes)) handed
                  refine ⟨(event, world) :: first, second, last, calls ++ more, exchange, rfl, ?_,
                    same.trans writes, ?_⟩
                  · rw [deliver, handled, follow, if_neg closes, delivered]
                  · rwa [← List.append_assoc]
              · rw [state] at answering'
                cases answering' with
                | @responding exchange made unwritten =>
                    refine ⟨[(event, world)], events, connection', calls, exchange, rfl, ?_, writes,
                      stays.kept connection' responses rfl, state, made⟩
                    rw [deliver, handled, follow, if_neg (Bool.eq_false_iff.mp open')]
                    exact Prod.ext rfl (List.append_nil calls)

/-- What survives all events survives the first of them. -/
theorem Survives.front {first second : List (Event × World chrono)}
    (survives : connection.Survives token (first ++ second)) : connection.Survives token first := by
  induction first generalizing connection with
  | nil => trivial
  | cons delivered first ih =>
      obtain ⟨event, world⟩ := delivered
      rw [List.cons_append, Survives] at survives
      rw [Survives]
      split
      · next connection' responses returned =>
          rw [returned] at survives
          exact fun open' => ih (survives open')
      · trivial
      · trivial
      · next panicked =>
          rw [panicked] at survives
          exact survives

/-- A response for which there is room is written, once the stream has been writable more often
than it would block. -/
theorem deliver_written {events : List (Event × World chrono)} {response : IncrementalResponse}
    (writing : connection.connectionState = .write response) (calm : connection.stream.Calm)
    (room : ∀ item ∈ events, ∀ bytes, response.remaining item.2.headerOrder = .ok bytes →
      bytes.length ≤ roomOf connection.stream.writes)
    (enough : blockings connection.stream.writes < writables events) :
    ∃ connection', (connection.deliver token events).1 = .closing connection' := by
  induction events generalizing connection response with
  | nil => exact absurd enough (Nat.not_lt_zero _)
  | cons first events ih =>
      obtain ⟨event, world⟩ := first
      obtain ⟨here, room⟩ := List.forall_mem_cons.mp room
      cases writable : event.isWritable with
      | false =>
          have same : writables ((event, world) :: events) = writables events :=
            List.countP_cons_of_neg (Bool.eq_false_iff.mp writable)
          rw [deliver_cons_unwritable writing writable]
          exact ih writing calm room (same ▸ enough)
      | true =>
          have more : writables ((event, world) :: events) = writables events + 1 :=
            List.countP_cons_of_pos writable
          obtain ⟨bytes, remaining⟩ := response.exists_remaining world.headerOrder
          obtain ⟨suffix, -⟩ := writeBytes_calm bytes calm.writes
          have result := writeBytes_room calm.writes (here bytes remaining)
          rw [deliver_cons_writable writing writable remaining]
          cases written : writeBytes bytes connection.stream.writes with
          | mk ending left =>
              obtain ⟨writes, calls⟩ := left
              rw [written] at suffix result
              rcases result with rfl | ⟨held, rfl, fits, fewer⟩
              · exact ⟨_, rfl⟩
              · refine @ih { connection with
                  stream := { connection.stream with writes }
                  connectionState := .write (.bytes held) } (.bytes held) rfl
                  ⟨calm.reads, calm.writes.of_suffix suffix, calm.peer⟩ ?_ ?_
                · rintro item member bytes ⟨⟩
                  exact fits
                · change blockings writes < writables events
                  dsimp only at fewer
                  omega

/-- What a connection has read of a request that comes in: it waits for more of it, or has handed
it on. -/
theorem deliver_carried {serverConfig : ServerConfig} {stream : TcpStream} {acceptTime : Instant}
    {written : RequestText} {addr : SocketAddr} (carries : stream.Carries written addr)
    (token : Token) (events : List (Event × World chrono)) :
    let delivered := (Connection.opened serverConfig (stream, acceptTime)).deliver token events
    (Silent delivered.2 ∧ readables events ≤ suspensions stream.reads ∧
      ∃ connection, delivered.1 = .opened connection) ∨
    requestsHandled delivered.2 = [written.handed addr] := by
  obtain ⟨⟨texts, more, whole, interleaves⟩, -, peer⟩ := carries
  intro delivered
  obtain ⟨unread, split, received⟩ := @deliver_received chrono token
    (.opened serverConfig (stream, acceptTime)) _ events _ rfl ⟨[], rfl⟩ rfl interleaves
  have nonempty := interleaves.nonempty
  obtain ⟨own, -⟩ := List.forall_mem_append.mp nonempty
  obtain ⟨calls, done⟩ := readLoop_texts own whole
  have first : ∀ bytes ∈ chunksRead delivered.2, bytes ≠ [] := fun bytes member =>
    nonempty bytes (split ▸ List.mem_append_left _ member)
  have all : (readLoop (.none []) (inOneGo (texts.map encode ++ more))).1 =
      .done (.fullRequest written.parsed) := by
    rw [readLoop_append _ _ own, done]
  rw [split, readLoop_append _ _ first] at all
  have silent := readLoop_silent (.none []) (inOneGo (chunksRead delivered.2))
  cases looped : readLoop (.none []) (inOneGo (chunksRead delivered.2)) with
  | mk ending left =>
      obtain ⟨reads, again⟩ := left
      change Received stream.peerAddr _ (readables events ≤ suspensions stream.reads) delivered _
        at received
      rw [looped] at all received silent
      cases ending with
      | suspended parsed =>
          obtain ⟨same, waiting, connection, opened, -⟩ := received
          refine .inl ⟨same ▸ silent, waiting.resolve_left ?_, connection, opened⟩
          rintro rfl
          cases all
      | done parsed =>
          cases all
          obtain ⟨further, same, -, handed, -⟩ := received
          refine .inr ?_
          rw [same, requestsHandled_append, silent.requestsHandled, List.nil_append, handed, peer]
          rfl
      | rejected => cases all
      | failed error => cases all
      | aborted => cases all

/-- A connection requests its close when its stream has been ready often enough, first to be read
and then to be written, and has room for the response. -/
theorem deliver_completes {serverConfig : ServerConfig} {stream : TcpStream} {acceptTime : Instant}
    {written : RequestText} {addr : SocketAddr} (carries : stream.Carries written addr)
    {worlds : Set (World chrono)} {first second : List (Event × World chrono)}
    (known : ∀ item ∈ first ++ second, item.2 ∈ worlds)
    (survives : (Connection.opened serverConfig (stream, acceptTime)).Survives token
      (first ++ second))
    (heard : suspensions stream.reads < readables first)
    (room : stream.HasRoom serverConfig worlds (written.handed addr))
    (ready : blockings stream.writes < writables second) : ∃ connection',
      ((Connection.opened serverConfig (stream, acceptTime)).deliver token (first ++ second)).1 =
        .closing connection' := by
  have handed : requestsHandled ((Connection.opened serverConfig (stream, acceptTime)).deliver token
      first).2 = [written.handed addr] :=
    (deliver_carried carries token first).resolve_left fun waits => waits.2.1.not_gt heard
  have some : requestsHandled ([] ++ ((Connection.opened serverConfig (stream, acceptTime)).deliver
      token first).2) ≠ [] := by
    rw [List.nil_append, handed]
    exact List.cons_ne_nil _ _
  obtain ⟨before, between, last, calls, exchange, rfl, delivered, writes, calm, state, made⟩ :=
    deliver_handed first (List.forall_mem_append.mp known).1 ⟨_, rfl⟩ (.reading .nil)
      (fun _ => rfl) carries.calm survives.front some
  rw [deliver_append delivered, requestsHandled_append, ← List.nil_append calls,
    made.handled] at handed
  have own : exchange.request = written.handed addr := (List.cons.inj handed).1
  rw [List.append_assoc] at known ⊢
  rw [deliver_append delivered]
  refine deliver_written state calm ?_ ?_
  · intro item member bytes encoded
    rw [writes]
    exact room exchange own made.plain made.known made.available item.2
      (known item (List.mem_append_right _ member)) bytes encoded
  · rw [writes, writables, List.countP_append]
    exact Nat.lt_add_left _ ready

end Connection

/-! ### The loop -/

private theorem reachable_of_select {serverConfig : ServerConfig} {loop : EventLoop}
    (reachable : (selectSystem chrono serverConfig).Reachable loop) :
    (eventLoopSystem chrono).Reachable loop := by
  refine reachable.invariant (eventLoopSystem chrono).Reachable ?_ fun _ _ _ before taken =>
    before.step taken
  rintro loop ⟨listener, stdin, rfl⟩
  exact .start ⟨serverConfig, listener, stdin, rfl⟩

/-- A connection that has come of age was accepted long enough ago. -/
theorem Connection.Expired.le {connection : Connection} {now : Instant}
    (expired : connection.Expired now) : connection.acceptTime + streamTimeout ≤ now := by
  obtain ⟨age, since, old⟩ := expired
  unfold checkedDurationSince at since
  split at since
  · next earlier =>
      cases since
      exact (Nat.le_sub_iff_add_le' earlier).mp old
  · cases since

namespace EventLoop

variable {serverConfig : ServerConfig} {loop : EventLoop} {token : Token} {stream : TcpStream}
  {acceptTime : Instant} {written : RequestText} {addr : SocketAddr} {before : List Call}

/-- A connection that has a response is not closed before it has been written. -/
theorem Stands.writing {status : ConnectionStatus} (stands : Stands token loop status)
    {connection : Connection} {response : IncrementalResponse}
    (state : connection.connectionState = .write response)
    (reached : status = .opened connection ∨ status = .closing connection ∧
      (connection.Reading ∨ connection.connectionState = .close)) :
    token ∈ loop.eventSources := by
  rcases reached with rfl | ⟨-, ⟨_, reading⟩ | closed⟩
  · cases stands with
    | opened found => exact Finmap.mem_of_lookup_eq_some found
    | expired _ _ awaiting _ =>
        obtain ⟨_, reading, -⟩ := awaiting
        cases state.symm.trans reading
  · cases state.symm.trans reading
  · cases state.symm.trans closed

/-- How far the loop has come with a request. -/
inductive Serving (serverConfig : ServerConfig) (worlds : Set (World chrono)) (loop : EventLoop)
    (token : Token) (acceptTime : Instant) (request : Request) (waiting : Prop) : Prop
  /-- It waits for more of the request, until the connection has come of age. -/
  | waits : Silent (callsOf token loop.log) → waiting →
      (token ∉ loop.eventSources → ∃ now source,
        .execute (.checkStreamTimeout token) now (some source) ∈ loop.log ∧
          acceptTime + streamTimeout ≤ now) →
      Serving serverConfig worlds loop token acceptTime request waiting
  /-- It has handed the request on, and writes the response of a new host in one of some worlds. -/
  | responds {exchange : Exchange chrono} {order : HeaderOrder} {bytes : Bytes} :
      exchange.request = request → exchange.Made serverConfig worlds (callsOf token loop.log) →
      writeResponse order exchange.response = .ok bytes →
      bytesWritten (callsOf token loop.log) <+: bytes →
      (token ∉ loop.eventSources → bytesWritten (callsOf token loop.log) = bytes) →
      Serving serverConfig worlds loop token acceptTime request waiting

/-- What has become of a request, from what has been delivered to its connection. -/
theorem Delivers.serving {events : List (Event × World chrono)} {worlds : Set (World chrono)}
    (known : ∀ item ∈ events, item.2 ∈ worlds)
    (delivers : Delivers token (.opened serverConfig (stream, acceptTime)) events before loop)
    (silent : Silent before) (carries : stream.Carries written addr) :
    Serving serverConfig worlds loop token acceptTime (written.handed addr)
      (readables events ≤ suspensions stream.reads) := by
  obtain ⟨stands, survives, same⟩ := delivers
  have carried := @Connection.deliver_carried chrono serverConfig stream acceptTime written addr
    carries token events
  obtain ⟨connection, accepted, answering, status⟩ :=
    Connection.deliver_answering events known (.reading silent) (fun _ => rfl)
      carries.calm survives
  rw [← same] at answering
  rcases carried with ⟨quiet, waiting, opened, open'⟩ | handed
  · refine .waits (same ▸ silent.append quiet) waiting fun absent => ?_
    rw [open'] at stands status
    obtain rfl : opened = connection := by
      rcases status with same | ⟨closing, -⟩
      · cases same
        rfl
      · cases closing
    cases stands with
    | opened found => exact absurd (Finmap.mem_of_lookup_eq_some found) absent
    | @expired _ now _ checked _ expired =>
        have old := expired.le
        rw [accepted] at old
        exact ⟨now, _, checked, old⟩
  · have handled : requestsHandled (callsOf token loop.log) = [written.handed addr] := by
      rw [same, requestsHandled_append, silent.requestsHandled, handed]
      rfl
    have own : ∀ exchange : Exchange chrono,
        exchange.Made serverConfig worlds (callsOf token loop.log) →
        exchange.request = written.handed addr :=
      fun exchange made => List.singleton_inj.mp (made.handled.symm.trans handled)
    generalize state : connection.connectionState = connectionState at answering
    cases answering with
    | reading silent =>
        rw [silent.requestsHandled] at handled
        cases handled
    | @responding exchange made unwritten =>
        obtain ⟨bytes, encoded⟩ :=
          exists_writeResponse exchange.world.headerOrder exchange.response
        exact .responds (own exchange made) made encoded (unwritten ▸ List.nil_prefix)
          fun absent => absurd (stands.writing state status) absent
    | @writing exchange order bytes held made encoded accounts =>
        exact .responds (own exchange made) made encoded ⟨held, accounts⟩
          fun absent => absurd (stands.writing state status) absent
    | @written exchange order bytes made encoded accounts =>
        exact .responds (own exchange made) made encoded (accounts ▸ List.prefix_rfl)
          fun _ => accounts

end EventLoop

open EventLoop

/-- What a run has made of a request on a connection that had just been accepted. -/
theorem serving_of_run {serverConfig : ServerConfig} {loop after : EventLoop}
    (reachable : (selectSystem chrono serverConfig).Reachable loop) {token : Token}
    {stream : TcpStream} {acceptTime : Instant}
    (found : loop.eventSources.lookup token =
      some (.tcpStream (.opened serverConfig (stream, acceptTime))))
    {written : RequestText} {addr : SocketAddr} (carries : stream.Carries written addr)
    {steps : List (EventLoop × Turn chrono)}
    (run : ((distinctSystem chrono).onward loop).Run steps after) :
    Serving serverConfig (worldsOf token steps) after token acceptTime (written.handed addr)
      (readables (eventsOf token steps) ≤ suspensions stream.reads) := by
  have delivers := delivers_of_run (reachable_of_select reachable) found run
  obtain ⟨before, past⟩ := reachable
  have plainly := (answeredPlainly_of_run past fun _ item _ => Set.mem_univ item.2).sources token _
    (.inl found)
  cases plainly.1 with
  | reading silent => exact delivers.serving (fun item member => ⟨item.1, member⟩) silent carries

/-- **Requests are served.** A request comes in on a connection that has just been accepted, and no
read or write fails but that it would block. At any later time nothing has been handed on or
written, since the loop has not been told often enough that there is something to read, and the
connection is there unless it has come of age; or exactly the request has been handed on, some of
the response of a new host, in the world in which the loop was told of an event of the connection,
has been written, from its front, and the connection is there unless all has been written. And it
is gone once the loop has been told often enough that the stream is ready, first to be read and
then to be written. -/
theorem request_served {serverConfig : ServerConfig} {loop after : EventLoop}
    (reachable : (selectSystem chrono serverConfig).Reachable loop) {token : Token}
    {stream : TcpStream} {acceptTime : Instant}
    (found : loop.eventSources.lookup token =
      some (.tcpStream (.opened serverConfig (stream, acceptTime))))
    {written : RequestText} {addr : SocketAddr} (carries : stream.Carries written addr)
    {steps : List (EventLoop × Turn chrono)}
    (run : ((distinctSystem chrono).onward loop).Run steps after) :
    Serving serverConfig (worldsOf token steps) after token acceptTime (written.handed addr)
        (readables (eventsOf token steps) ≤ suspensions stream.reads) ∧
      ∀ earlier later, steps = earlier ++ later →
        suspensions stream.reads < readables (eventsOf token earlier) →
        stream.HasRoom serverConfig (worldsOf token steps) (written.handed addr) →
        blockings stream.writes < writables (eventsOf token later) →
        token ∉ after.eventSources := by
  refine ⟨serving_of_run reachable found carries run, ?_⟩
  rintro earlier later rfl heard room ready
  obtain ⟨stands, survives, -⟩ := delivers_of_run (reachable_of_select reachable) found run
  have split : eventsOf token (earlier ++ later) =
      eventsOf token earlier ++ eventsOf token later := List.flatMap_append
  have known : ∀ item ∈ eventsOf token earlier ++ eventsOf token later,
      item.2 ∈ worldsOf token (earlier ++ later) :=
    fun item member => ⟨item.1, split ▸ member⟩
  rw [split] at stands survives
  obtain ⟨connection, closing⟩ :=
    Connection.deliver_completes carries known survives heard room ready
  rw [closing] at stands
  cases stands with
  | closed gone =>
      rw [← Finmap.lookup_isSome, gone]
      exact Bool.false_ne_true

namespace Site

/-- The visitor brings the request for the page. -/
theorem carries : visitor.stream.Carries RequestText.page "127.0.0.1:4000".toList where
  chunks := ⟨[RequestText.page.text], [], List.append_nil _, .chunk (by decide) .nil⟩
  writes error member := nomatch List.mem_singleton.mp member
  peer := rfl

/-- The stream of the visitor has room for the page. -/
theorem hasRoom {worlds : Set (World gregorian)} (only : ∀ known ∈ worlds, known = world) :
    visitor.stream.HasRoom serverConfig worlds
      (RequestText.page.handed "127.0.0.1:4000".toList) := by
  rintro exchange own ⟨after, accesses, handled⟩ known available writing member bytes encoded
  rw [only _ known, own, available] at handled
  rw [only _ member] at encoded
  have fits : ∀ response ∈ ((Host.fresh serverConfig).handle world
      (RequestText.page.handed "127.0.0.1:4000".toList) false).1.toOption,
      ∀ bytes ∈ (writeResponse headerOrder response).toOption,
        bytes.length ≤ roomOf visitor.stream.writes := by
    decide +kernel
  refine fits exchange.response ?_ bytes ?_
  · rw [handled]
    rfl
  · rw [← Outcome.toOption_eq_some_iff] at encoded
    exact encoded

/-- The loop once the page is sent. -/
def responded : EventLoop := (responding.next (told [⟨2, false, true⟩])).2

/-- The turns in which the page is requested and sent. -/
def turns : List (EventLoop × Turn gregorian) :=
  [(accepted, told [⟨2, true, false⟩]), (responding, told [⟨2, false, true⟩])]

/-- The visitor has the first token behind the listener's. -/
theorem lookup_accepted : accepted.eventSources.lookup 2 =
    some (.tcpStream (.opened serverConfig (visitor.stream, 7))) := rfl

/-- A run in which the visitor is answered. -/
theorem run_turns : ((distinctSystem gregorian).onward accepted).Run turns responded := by
  refine @TransitionSystem.Run.step _ _ _ [_] _ _ _
    (@TransitionSystem.Run.step _ _ _ [] _ _ _ (.start rfl) ⟨?_, Prod.ext ?_ rfl⟩)
    ⟨?_, Prod.ext ?_ rfl⟩
  · exact List.nodup_singleton _
  · decide +kernel
  · exact List.nodup_singleton _
  · decide +kernel

private theorem eventsOf_turns :
    eventsOf 2 turns = [(⟨2, true, false⟩, world), (⟨2, false, true⟩, world)] := rfl

/-- The loop is told of the visitor in the world of the site only. -/
theorem worldsOf_turns {known : World gregorian} (told : known ∈ worldsOf 2 turns) :
    known = world := by
  obtain ⟨event, member⟩ := told
  rw [eventsOf_turns] at member
  rcases List.mem_pair.mp member with same | same
  · exact congrArg Prod.snd same
  · exact congrArg Prod.snd same

end Site

/-- The page is requested, and the connection is closed when it has been sent. -/
theorem request_served_page : 2 ∉ Site.responded.eventSources ∧
    ∃ (exchange : Exchange gregorian) (order : HeaderOrder),
      exchange.request = Site.get "/page.txt" ∧ exchange.Plain Site.serverConfig ∧
      writeResponse order exchange.response =
        .ok (bytesWritten (callsOf 2 Site.responded.log)) := by
  obtain ⟨serving, closes⟩ :=
    request_served Site.run_accepted.reachable Site.lookup_accepted Site.carries Site.run_turns
  have gone : 2 ∉ Site.responded.eventSources :=
    closes [_] [_] rfl (by decide) (Site.hasRoom fun _ => Site.worldsOf_turns) (by decide)
  refine ⟨gone, ?_⟩
  have handed : (requestsHandled (callsOf 2 Site.responded.log)).length = 1 := by
    decide +kernel
  cases serving with
  | waits silent _ _ =>
      rw [silent.requestsHandled] at handed
      cases handed
  | @responds exchange order bytes own made encoded _ all =>
      refine ⟨exchange, order, own, made.plain, ?_⟩
      rw [all gone]
      exact encoded

end RustHttpServer
