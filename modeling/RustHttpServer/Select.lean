import RustHttpServer.Foundation.Transition
import RustHttpServer.Host
import RustHttpServer.Stream

/-!
# The event loop

The event loop of `select.rs`. Sources of events are registered under tokens with the
poll. A turn of the loop hands every event of a batch to the handler of its source, and
then executes the commands that the handlers have submitted; a command that asks to be
run again is submitted once all others have been executed.

What the operating system answers during a turn comes with the turn (`Turn`), what is
done is logged (`Act`).
-/

namespace RustHttpServer

open Foundation Utf8

/-- `mio::Token` -/
abbrev Token := Nat

/-- `mio::Interest` -/
inductive Interest
  | readable
  | writable
  deriving DecidableEq, Repr

/-- `mio::event::Event` -/
structure Event where
  token : Token
  isReadable : Bool
  isWritable : Bool
  deriving DecidableEq, Repr

/-- A `TcpListener`, and the answers to the calls of `accept`: a stream, and the time when
it is accepted. Where none are left, no connection is waiting. -/
structure TcpListener where
  accepts : List (Except IoError (TcpStream × Instant))

/-- `struct Stdin`, and the answers to the calls that read a line. Where none are left,
the input has ended. -/
structure Stdin where
  lines : List (Except IoError Bytes)

/-- `enum ConnectionState` -/
inductive ConnectionState
  | read (incrementalRequest : IncrementalRequest)
  | write (response : IncrementalResponse)
  | close

/-- The fields of `EventSource::TcpStream`. -/
structure Connection where
  stream : TcpStream
  connectionState : ConnectionState
  requestHandler : Host
  acceptTime : Instant

/-- `enum EventSource` -/
inductive EventSource
  | tcpListener (listener : TcpListener) (tokenCounter : Nat) (serverConfig : ServerConfig)
  | tcpStream (connection : Connection)
  | stdin (stdin : Stdin) (listenerToken : Token)

mutual

/-- `type Command`, one constructor for every closure that the code makes one of. -/
inductive Command
  /-- `move |_| Ok(Some(command))` -/
  | respond (response : CommandResponse)
  /-- `move |event_sources| check_stream_timeout(token, event_sources)` -/
  | checkStreamTimeout (token : Token)

/-- `enum CommandResponse` -/
inductive CommandResponse
  | newSource (token : Token) (source : EventSource) (interests : Interest)
  | modifyInterests (token : Token) (interests : Interest)
  | closeSource (token : Token)
  | submitCommand (command : Command)

end

/-- `enum HandleEventResponse` -/
inductive HandleEventResponse
  | emptyCommand (response : CommandResponse)
  | command (command : Command)

/-- The command that `next` submits for a response. -/
def HandleEventResponse.toCommand : HandleEventResponse → Command
  | .emptyCommand response => .respond response
  | .command submitted => submitted

/-! ## The handlers -/

/-- How the loop of `handle_stream_event` that reads the request ends. -/
inductive ReadLoop
  /-- By `return`, when the read would block. -/
  | suspended (incrementalRequest : IncrementalRequest)
  /-- By `return`, when the request cannot be parsed. -/
  | rejected
  /-- By `break`. -/
  | done (incrementalRequest : IncrementalRequest)
  | failed (error : Error)
  | aborted

/-- The loop of `handle_stream_event` that reads the request: how it ends, the answers
that it leaves, and what it does. -/
def readLoop (incrementalRequest : IncrementalRequest) :
    List (Except IoError Bytes) → ReadLoop × List (Except IoError Bytes) × List Call
  | [] => (.suspended incrementalRequest, [], [])
  | .error error :: reads =>
      if error.kind = .wouldBlock then (.suspended incrementalRequest, reads, [])
      else (.failed (.ofIo error), reads, [])
  | .ok bytes :: reads =>
      if bytes.length > 0 then
        let calls := [.read bytes, .parse bytes (tryParseRequest bytes incrementalRequest)]
        match tryParseRequest bytes incrementalRequest with
        | .ok incrementalRequest =>
            if incrementalRequest.isFull then (.done incrementalRequest, reads, calls)
            else
              let (ending, reads, more) := readLoop incrementalRequest reads
              (ending, reads, calls ++ more)
        | .err _ => (.rejected, reads, calls)
        | .abort => (.aborted, reads, calls)
      else (.done incrementalRequest, reads, [])

/-- How the loop of `handle_stream_event` that writes the response ends. -/
inductive WriteLoop
  /-- By `return`, when the write would block. -/
  | suspended (bytes : Bytes)
  /-- By `return`, when all is written. -/
  | done
  | failed (error : Error)
  | aborted

/-- The rounds of the loop that writes the response in which it holds bytes. With no bytes
left, the write writes none. -/
def writeBytes : Bytes → List (Except IoError ℕ+) →
    WriteLoop × List (Except IoError ℕ+) × List Call
  | [], writes => (.done, writes, [])
  | byte :: bytes, [] => (.suspended (byte :: bytes), [], [])
  | byte :: bytes, .ok room :: writes =>
      let (ending, writes, calls) := writeBytes ((byte :: bytes).drop room) writes
      (ending, writes, .write ((byte :: bytes).take room) :: calls)
  | byte :: bytes, .error error :: writes =>
      if error.kind = .wouldBlock then (.suspended (byte :: bytes), writes, [])
      else (.failed (.ofIo error), writes, [])

/-- The loop of `handle_stream_event` that writes the response. -/
def writeLoop (order : HeaderOrder) (response : IncrementalResponse)
    (writes : List (Except IoError ℕ+)) : WriteLoop × List (Except IoError ℕ+) × List Call :=
  match response with
  | .struct response =>
      match writeResponse order response with
      | .ok bytes => writeBytes bytes writes
      | .err error => (.failed error, writes, [])
      | .abort => (.aborted, writes, [])
  | .bytes bytes => writeBytes bytes writes
  | .done => (.done, writes, [])

/-- What a handler returns, and what it does on a connection. -/
abbrev Handled := Outcome Error (EventSource × List HandleEventResponse) × List Call

namespace Connection

variable {chrono : Chrono}

/-- The part of `handle_stream_event` that follows the loop that reads the request. -/
def respond (connection : Connection) (world : World chrono) (token : Token)
    (incrementalRequest : IncrementalRequest) : Handled :=
  match incrementalRequest, connection.stream.peerAddr with
  | .fullRequest request, .ok addr =>
      let request := Request.fromNoRemote request addr
      match connection.requestHandler.handle world request false with
      | (.ok response, requestHandler, _) =>
          (.ok (.tcpStream { connection with
              connectionState := .write (.struct response), requestHandler },
            [.emptyCommand (.modifyInterests token .writable)]), [.handle request])
      | (.err error, _, _) => (.err error, [.handle request])
      | (.abort, _, _) => (.abort, [.handle request])
  | .fullRequest _, .error error => (.err (.ofIo error), [])
  | incrementalRequest, _ =>
      (.ok (.tcpStream { connection with connectionState := .read incrementalRequest }, []), [])

/-- `handle_stream_event` when the stream is readable, in the state `Read`. -/
def readRequest (connection : Connection) (world : World chrono) (token : Token)
    (incrementalRequest : IncrementalRequest) : Handled :=
  let (ending, reads, calls) := readLoop incrementalRequest connection.stream.reads
  let connection := { connection with stream := { connection.stream with reads } }
  match ending with
  | .suspended incrementalRequest =>
      (.ok (.tcpStream { connection with connectionState := .read incrementalRequest }, []), calls)
  | .rejected =>
      (.ok (.tcpStream { connection with connectionState := .read (.none []) },
        [.emptyCommand (.closeSource token)]), calls)
  | .done incrementalRequest =>
      let (outcome, more) := connection.respond world token incrementalRequest
      (outcome, calls ++ more)
  | .failed error => (.err error, calls)
  | .aborted => (.abort, calls)

/-- `handle_stream_event` when the stream is writable, in the state `Write`. -/
def writeResponse (connection : Connection) (world : World chrono) (token : Token)
    (response : IncrementalResponse) : Handled :=
  let (ending, writes, calls) := writeLoop world.headerOrder response connection.stream.writes
  let connection := { connection with stream := { connection.stream with writes } }
  match ending with
  | .suspended bytes =>
      (.ok (.tcpStream { connection with connectionState := .write (.bytes bytes) }, []), calls)
  | .done =>
      (.ok (.tcpStream { connection with connectionState := .close },
        [.emptyCommand (.closeSource token)]), calls)
  | .failed error => (.err error, calls)
  | .aborted => (.abort, calls)

end Connection

section Handlers

variable {chrono : Chrono}

/-- `handle_stream_event` -/
def handleStreamEvent (event : Event) (world : World chrono) (token : Token)
    (connection : Connection) : Handled :=
  match connection.connectionState with
  | .read incrementalRequest =>
      if event.isReadable then connection.readRequest world token incrementalRequest
      else (.ok (.tcpStream connection, []), [])
  | .write response =>
      if event.isWritable then connection.writeResponse world token response
      else (.ok (.tcpStream connection, []), [])
  | .close => (.ok (.tcpStream connection, []), [])

/-- The loop of `handle_listener_event`: the counter and the responses that it ends with,
and the answers that it leaves. -/
def acceptLoop (serverConfig : ServerConfig) (tokenCounter : Nat)
    (responses : List HandleEventResponse) : List (Except IoError (TcpStream × Instant)) →
      Outcome Error (Nat × List HandleEventResponse) × List (Except IoError (TcpStream × Instant))
  | [] => (.ok (tokenCounter, responses), [])
  | .error error :: accepts =>
      if error.kind = .wouldBlock then (.ok (tokenCounter, responses), accepts)
      else (.err (.ofIo error), accepts)
  | .ok (stream, now) :: accepts =>
      if tokenCounter + 1 < usizeBound then
        let token := tokenCounter + 1
        match (Host.new serverConfig : Outcome Error Host) with
        | .ok requestHandler =>
            let streamSource := .tcpStream {
              stream, connectionState := .read (.none []), requestHandler, acceptTime := now }
            acceptLoop serverConfig token (responses ++
              [.emptyCommand (.newSource token streamSource .readable),
                .command (.checkStreamTimeout token)]) accepts
        | .err error => (.err error, accepts)
        | .abort => (.abort, accepts)
      else (.abort, accepts)

/-- `handle_listener_event` -/
def handleListenerEvent (listener : TcpListener) (tokenCounter : Nat)
    (serverConfig : ServerConfig) : Outcome Error (EventSource × List HandleEventResponse) :=
  match acceptLoop serverConfig tokenCounter [] listener.accepts with
  | (.ok (tokenCounter, responses), accepts) =>
      .ok (.tcpListener { accepts } tokenCounter serverConfig, responses)
  | (.err error, _) => .err error
  | (.abort, _) => .abort

/-- `Stdin::read_line` -/
def Stdin.readLine (stdin : Stdin) : Except IoError Text × Stdin :=
  match stdin.lines with
  | [] => (.ok [], stdin)
  | line :: lines =>
      (do
        (decode (← line)).mapError fun _ => ⟨.invalidData, "stream did not contain valid UTF-8"⟩,
      { lines })

/-- `handle_stdin_event`, less what it prints. -/
def handleStdinEvent (event : Event) (stdin : Stdin) (listenerToken : Token) :
    Outcome Error (EventSource × List HandleEventResponse) :=
  if event.isReadable then
    match stdin.readLine with
    | (.ok input, stdin) =>
        if Text.trim input = "shutdown".toList then
          .ok (.stdin stdin listenerToken, [.emptyCommand (.closeSource listenerToken)])
        else .ok (.stdin stdin listenerToken, [])
    | (.error error, _) => .err (.ofIo error)
  else .ok (.stdin stdin listenerToken, [])

/-- `EventSource::handle_event` -/
def EventSource.handleEvent (source : EventSource) (event : Event) (world : World chrono)
    (token : Token) : Handled :=
  match source with
  | .tcpListener listener tokenCounter serverConfig =>
      (handleListenerEvent listener tokenCounter serverConfig, [])
  | .tcpStream connection => handleStreamEvent event world token connection
  | .stdin raw listenerToken => (handleStdinEvent event raw listenerToken, [])

end Handlers

/-! ## Commands -/

/-- `STREAM_TIMEOUT` -/
def streamTimeout : Nat := 60 * nanosPerSecond

/-- `Instant::checked_duration_since` -/
def checkedDurationSince (now earlier : Instant) : Option Nat :=
  if earlier ≤ now then some (now - earlier) else none

/-- `check_stream_timeout`, less what it prints. -/
def checkStreamTimeout (token : Token) (eventSources : HashMap Token EventSource)
    (now : Instant) : Except Error (Option CommandResponse) :=
  let resubmit := .ok (some (.submitCommand (.checkStreamTimeout token)))
  match eventSources.lookup token with
  | some (.tcpStream connection) =>
      match connection.connectionState with
      | .read incrementalRequest =>
          if ¬incrementalRequest.isFull then
            match checkedDurationSince now connection.acceptTime with
            | some duration =>
                if duration ≥ streamTimeout then .ok (some (.closeSource token)) else resubmit
            | none => resubmit
          else .ok none
      | _ => .ok none
  | _ => .ok none

/-- The call of a command. -/
def Command.call (command : Command) (eventSources : HashMap Token EventSource) (now : Instant) :
    Except Error (Option CommandResponse) :=
  match command with
  | .respond response => .ok (some response)
  | .checkStreamTimeout token => RustHttpServer.checkStreamTimeout token eventSources now

/-! ## The loop -/

/-- What the loop does. -/
inductive Act
  /-- A call on the connection under a token. -/
  | call (token : Token) (call : Call)
  /-- The execution of a command, and the source that it has closed. -/
  | execute (command : Command) (now : Instant) (closed : Option EventSource)

/-- `struct EventLoop`, with the sources that are registered with the poll and the log of
what has been done. -/
structure EventLoop where
  registered : HashMap Token Interest
  eventSources : HashMap Token EventSource
  commandQueue : List Command
  log : List Act

/-- What the operating system answers while a command is executed. -/
structure CommandIo where
  now : Instant
  /-- The result of the call on the registry. -/
  registry : Except IoError Unit

/-- What the operating system answers during a turn of the loop: the events of the poll,
each with the world that its handler finds, and what the commands find, in their order. -/
structure Turn (chrono : Chrono) where
  events : Except IoError (List (Event × World chrono))
  commands : Nat → CommandIo

/-- The events of a turn, none if the poll fails. -/
def Turn.batch {chrono : Chrono} (turn : Turn chrono) : List (Event × World chrono) :=
  match turn.events with
  | .ok events => events
  | .error _ => []

namespace EventLoop

/-- `EventLoop::submit` -/
def submit (command : Command) (loop : EventLoop) : EventLoop :=
  { loop with commandQueue := loop.commandQueue ++ [command] }

def record (acts : List Act) (loop : EventLoop) : EventLoop := { loop with log := loop.log ++ acts }

/-- Drops a source that is not in the map. A stream or a listener is closed then, and so
no longer registered; the standard input is not. -/
def dropSource (token : Token) (source : EventSource) (loop : EventLoop) : EventLoop :=
  match source with
  | .tcpListener _ _ _ => { loop with registered := loop.registered.erase token }
  | .tcpStream _ => { loop with registered := loop.registered.erase token }
  | .stdin _ _ => loop

/-- The error of `next` when there is no source for an event. -/
def missingHandler (token : Token) : Error :=
  ⟨s!"Could not find handler for token: {token}"⟩

variable {chrono : Chrono}

/-- The round of the first loop of `next` for an event. -/
def handleEvent (event : Event) (world : World chrono) : Stateful EventLoop Error Unit :=
  fun loop =>
  let token := event.token
  match loop.eventSources.lookup token with
  | none => (.err (missingHandler token), loop)
  | some source =>
      let (outcome, calls) := source.handleEvent event world token
      let loop := { loop with eventSources := loop.eventSources.erase token }
      let loop := loop.record (calls.map (.call token))
      match outcome with
      | .ok (newSource, responses) =>
          let loop := { loop with eventSources := loop.eventSources.insert token newSource }
          (.ok (), responses.foldl (fun loop response => loop.submit response.toCommand) loop)
      | .err _ => (.ok (), loop.dropSource token source)
      | .abort => (.abort, loop)

/-- `EventLoop::execute_command` -/
def executeCommand (io : CommandIo) (command : Command) :
    Stateful EventLoop Error (Option Command) := fun loop =>
  let done := loop.record [.execute command io.now none]
  match command.call loop.eventSources io.now with
  | .ok (some (.newSource token source interests)) =>
      match io.registry with
      | .ok () =>
          (.ok none, { done with
            registered := loop.registered.insert token interests
            eventSources := loop.eventSources.insert token source })
      | .error error => (.err (.ofIo error), done)
  | .ok (some (.modifyInterests token interests)) =>
      match loop.eventSources.lookup token with
      | some _ =>
          match io.registry with
          | .ok () =>
              (.ok none, { done with registered := loop.registered.insert token interests })
          | .error error => (.err (.ofIo error), done)
      | none => (.ok none, done)
  | .ok (some (.closeSource token)) =>
      match loop.eventSources.lookup token with
      | some source =>
          let closed := { loop with eventSources := loop.eventSources.erase token }
          let closed := closed.record [.execute command io.now (some source)]
          match io.registry with
          | .ok () =>
              (.ok none, { closed with registered := loop.registered.erase token })
          | .error error => (.err (.ofIo error), closed.dropSource token source)
      | none => (.ok none, done)
  | .ok (some (.submitCommand command)) => (.ok (some command), done)
  | .ok none => (.ok none, done)
  | .error _ => (.ok none, done)

/-- The first loop of `next`. -/
def handleEvents : List (Event × World chrono) → Stateful EventLoop Error Unit
  | [] => pure ()
  | (event, world) :: events => do
      handleEvent event world
      handleEvents events

/-- The second loop of `next`, which receives the commands in the queue, and nothing is
sent meanwhile. The commands to submit are gathered in the order in which they come. -/
def executeCommands (io : Nat → CommandIo) :
    List Command → List Command → Stateful EventLoop Error (List Command)
  | [], newCommands => pure newCommands
  | command :: commands, newCommands => do
      Stateful.modify fun loop => { loop with commandQueue := commands }
      let newCommand ← executeCommand (io 0) command
      executeCommands (fun index => io (index + 1)) commands (newCommands ++ newCommand.toList)

/-- `EventLoop::next` -/
def next (turn : Turn chrono) : Stateful EventLoop Error Unit := do
  let events ← Stateful.lift (Outcome.ofExcept Error.ofIo turn.events)
  handleEvents events
  let loop ← Stateful.get
  let newCommands ← executeCommands turn.commands loop.commandQueue []
  Stateful.modify fun loop => newCommands.foldl (fun loop command => loop.submit command) loop

end EventLoop

/-! ## Runs -/

/-- The loop when `select_multiplex` has submitted the listener and the standard input. It spawns
the thread of the loop before it submits them, which may take turns without them, or without the
second; here both are in the queue from the start. -/
def selectMultiplex (serverConfig : ServerConfig) (listener : TcpListener) (stdin : Stdin) :
    EventLoop :=
  let stdinToken := 0
  let listenerToken := 1
  let tokenCounter := 1
  { registered := ∅
    eventSources := ∅
    commandQueue := [
      .respond (.newSource listenerToken (.tcpListener listener tokenCounter serverConfig)
        .readable),
      .respond (.newSource stdinToken (.stdin stdin listenerToken) .readable)]
    log := [] }

/-- `EventLoop::run`, from the queue that `select_multiplex` fills. -/
def eventLoopSystem (chrono : Chrono) : TransitionSystem EventLoop (Turn chrono) where
  initial loop := ∃ serverConfig listener stdin, loop = selectMultiplex serverConfig listener stdin
  step loop turn after := loop.next turn = (.ok (), after)

/-- The batch is one that the poll can report: each of its tokens is registered, and
reported once. -/
structure EventLoop.Reports {chrono : Chrono} (loop : EventLoop)
    (events : List (Event × World chrono)) : Prop where
  registered : ∀ event world, (event, world) ∈ events → event.token ∈ loop.registered
  distinct : (events.map fun (event, _) => event.token).Nodup

/-- `EventLoop::run` with batches that the poll can report. -/
def polledSystem (chrono : Chrono) : TransitionSystem EventLoop (Turn chrono) :=
  (eventLoopSystem chrono).restrict fun loop turn => loop.Reports turn.batch

end RustHttpServer
