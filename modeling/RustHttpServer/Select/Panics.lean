import RustHttpServer.Host.Panics
import RustHttpServer.Select.Aborts
import RustHttpServer.Select.Roles
import RustHttpServer.Select.Watchdog

/-!
# Where a handler of the loop panics

The loop catches what the handler of a source returns as an error, but not its panics. The
handler of the listener panics if it accepts a connection that it has no host or no token for,
that of a connection over what the parser or `Host::handle` panics over
(`EventSource.Panics`), and no handler panics otherwise (`handlerReturns_iff`).
-/

namespace RustHttpServer

open Foundation

variable {chrono : Chrono}

/-- The chunks that can be read on a connection before an error or the end of the stream. -/
def chunksAvailable : List (Except IoError Bytes) → List Bytes
  | [] => []
  | .error _ :: _ => []
  | .ok bytes :: reads => if bytes.length > 0 then bytes :: chunksAvailable reads else []

/-- The handler of a source panics over an event. -/
inductive EventSource.Panics (event : Event) (world : World chrono) : EventSource → Prop
  /-- `Host::new` panics for an accepted connection, or the counter of tokens overflows. -/
  | accept {listener : TcpListener} {tokenCounter : Nat} {serverConfig : ServerConfig} :
      accepted listener.accepts ≠ [] →
      (Host.new serverConfig : Outcome Error Host) = .abort ∨
        usizeBound ≤ tokenCounter + (accepted listener.accepts).length →
      Panics event world (.tcpListener listener tokenCounter serverConfig)
  /-- The parser panics over the chunks that can be read. -/
  | parse {connection : Connection} {incrementalRequest : IncrementalRequest} :
      event.isReadable → connection.connectionState = .read incrementalRequest →
      feedAll (chunksAvailable connection.stream.reads) incrementalRequest = .abort →
      Panics event world (.tcpStream connection)
  /-- The handler panics over the request that the chunks complete. -/
  | handle {connection : Connection} {incrementalRequest : IncrementalRequest}
      {request : RequestNoRemote} {addr : SocketAddr} :
      event.isReadable → connection.connectionState = .read incrementalRequest →
      feedAll (chunksAvailable connection.stream.reads) incrementalRequest =
        .ok (.fullRequest request) →
      connection.stream.peerAddr = .ok addr →
      connection.requestHandler.Panics world (.fromNoRemote request addr) →
      Panics event world (.tcpStream connection)

/-- The loop that accepts connections panics over the first that it has no host or no token
for. -/
theorem acceptLoop_eq_abort_iff (serverConfig : ServerConfig) (tokenCounter : Nat)
    (responses : List HandleEventResponse)
    (accepts : List (Except IoError (TcpStream × Instant))) :
    (acceptLoop serverConfig tokenCounter responses accepts).1 = .abort ↔
      accepted accepts ≠ [] ∧ ((Host.new serverConfig : Outcome Error Host) = .abort ∨
        usizeBound ≤ tokenCounter + (accepted accepts).length) := by
  induction accepts generalizing tokenCounter responses with
  | nil => exact iff_of_false (Outcome.Returns.ok _) fun both => both.1 rfl
  | cons answer accepts ih =>
      cases answer with
      | error error =>
          refine iff_of_false ?_ fun both => both.1 rfl
          rw [acceptLoop]
          split
          · exact Outcome.Returns.ok _
          · exact Outcome.Returns.err _
      | ok connection =>
          obtain ⟨stream, now⟩ := connection
          rw [acceptLoop, accepted, List.length_cons]
          by_cases below : tokenCounter + 1 < usizeBound
          · rw [if_pos below]
            rcases Host.new_cases Error serverConfig with created | created
            · rw [created]
              refine (ih (tokenCounter + 1) _).trans ?_
              simp only [created, reduceCtorEq, false_or]
              constructor
              · rintro ⟨-, exhausted⟩
                exact ⟨List.cons_ne_nil _ _, by omega⟩
              · rintro ⟨-, exhausted⟩
                refine ⟨fun none => ?_, by omega⟩
                rw [none, List.length_nil] at exhausted
                omega
            · rw [created]
              exact iff_of_true rfl ⟨List.cons_ne_nil _ _, .inl rfl⟩
          · rw [if_neg below]
            exact iff_of_true rfl ⟨List.cons_ne_nil _ _, .inr (by omega)⟩

/-- The first chunk is parsed, and the others unless the request is complete. -/
theorem feedAll_chunksAvailable {state : IncrementalRequest} (incomplete : state.isFull = false)
    {bytes : Bytes} (some : bytes.length > 0) (reads : List (Except IoError Bytes)) :
    feedAll (chunksAvailable (.ok bytes :: reads)) state =
      tryParseRequest bytes state >>= feedAll (chunksAvailable reads) := by
  rw [chunksAvailable, if_pos some, feedAll, feed, if_neg (Bool.eq_false_iff.mp incomplete)]

/-- The loop panics if the parser does, and is done with the request that the parser has
completed. -/
def ReadLoop.Reflects (ending : ReadLoop) (result : Outcome Error IncrementalRequest) : Prop :=
  (ending = .aborted ↔ result = .abort) ∧ ∀ request,
    ending = .done (.fullRequest request) ↔ result = .ok (.fullRequest request)

/-- An ending that leaves the request incomplete. -/
theorem ReadLoop.Reflects.incomplete {ending : ReadLoop} {parsed : IncrementalRequest}
    (incomplete : parsed.isFull = false) (returns : ending ≠ .aborted)
    (waits : ∀ request, ending ≠ .done (.fullRequest request)) : ending.Reflects (.ok parsed) := by
  refine ⟨iff_of_false returns (Outcome.Returns.ok parsed), fun request => ?_⟩
  refine iff_of_false (waits request) ?_
  rintro ⟨⟩
  cases incomplete

/-- What the loop comes to reflects what the chunks that can be read make of the request. -/
theorem readLoop_reflects {state : IncrementalRequest} (incomplete : state.isFull = false)
    (reads : List (Except IoError Bytes)) :
    (readLoop state reads).1.Reflects (feedAll (chunksAvailable reads) state) := by
  fun_induction readLoop state reads with
  | case1 state => exact .incomplete incomplete ReadLoop.noConfusion fun _ => ReadLoop.noConfusion
  | case2 state error reads blocked =>
      exact .incomplete incomplete ReadLoop.noConfusion fun _ => ReadLoop.noConfusion
  | case3 state error reads failed =>
      exact .incomplete incomplete ReadLoop.noConfusion fun _ => ReadLoop.noConfusion
  | case4 state bytes reads some calls parsed result full =>
      rw [feedAll_chunksAvailable incomplete some, result, Outcome.ok_bind]
      rw [feedAll_of_full full]
      refine ⟨iff_of_false ReadLoop.noConfusion (Outcome.Returns.ok parsed), fun request => ?_⟩
      rw [ReadLoop.done.injEq, Outcome.ok.injEq]
  | case5 state bytes reads some calls parsed result waiting ending left more looped ih =>
      rw [feedAll_chunksAvailable incomplete some, result, Outcome.ok_bind]
      rw [looped] at ih
      exact ih (Bool.eq_false_iff.mpr waiting)
  | case6 state bytes reads some calls error result =>
      rw [feedAll_chunksAvailable incomplete some, result, Outcome.err_bind]
      refine ⟨iff_of_false ReadLoop.noConfusion (Outcome.Returns.err error), fun request => ?_⟩
      exact iff_of_false ReadLoop.noConfusion (by rintro ⟨⟩)
  | case7 state bytes reads some calls result =>
      rw [feedAll_chunksAvailable incomplete some, result, Outcome.abort_bind]
      refine ⟨iff_of_true rfl rfl, fun request => ?_⟩
      exact iff_of_false ReadLoop.noConfusion (by rintro ⟨⟩)
  | case8 state bytes reads none =>
      rw [chunksAvailable, if_neg none]
      refine .incomplete incomplete ReadLoop.noConfusion fun request same => ?_
      cases same
      cases incomplete

namespace Connection

variable {connection : Connection} {world : World chrono} {token : Token}

/-- What follows the loop panics over a complete request that the handler panics over. -/
theorem respond_eq_abort_iff (printsUtc : chrono.PrintsUtc) (strict : chrono.Strict)
    {parsed : IncrementalRequest} :
    (connection.respond world token parsed).1 = .abort ↔ ∃ request addr,
      parsed = .fullRequest request ∧ connection.stream.peerAddr = .ok addr ∧
        connection.requestHandler.Panics world (.fromNoRemote request addr) := by
  cases parsed with
  | fullRequest request =>
      unfold respond
      cases peer : connection.stream.peerAddr with
      | error error =>
          refine iff_of_false (Outcome.Returns.err _) ?_
          rintro ⟨_, addr, -, ⟨⟩, -⟩
      | ok addr =>
          dsimp only
          have same : (∃ request' addr', IncrementalRequest.fullRequest request =
              .fullRequest request' ∧ Except.ok addr = (.ok addr' : Except IoError SocketAddr) ∧
              connection.requestHandler.Panics world (.fromNoRemote request' addr')) ↔
                (connection.requestHandler.handle world (.fromNoRemote request addr) false).1 =
                  .abort := by
            rw [Host.handle_eq_abort_iff printsUtc strict]
            constructor
            · rintro ⟨_, _, ⟨⟩, ⟨⟩, panics⟩
              exact panics
            · exact fun panics => ⟨request, addr, rfl, rfl, panics⟩
          rw [same]
          rcases connection.requestHandler.handle world (.fromNoRemote request addr) false with
            ⟨response | error | _, after⟩
          · exact iff_of_false (Outcome.Returns.ok _) (Outcome.Returns.ok _)
          · exact iff_of_false (Outcome.Returns.err _) (Outcome.Returns.err _)
          · exact iff_of_true rfl rfl
  | _ =>
      refine iff_of_false (Outcome.Returns.ok _) ?_
      rintro ⟨_, _, ⟨⟩, -⟩

/-- Reading panics over what the parser or the handler panics over. -/
theorem readRequest_eq_abort_iff (printsUtc : chrono.PrintsUtc) (strict : chrono.Strict)
    {state : IncrementalRequest} (incomplete : state.isFull = false) :
    (connection.readRequest world token state).1 = .abort ↔
      feedAll (chunksAvailable connection.stream.reads) state = .abort ∨ ∃ request addr,
        feedAll (chunksAvailable connection.stream.reads) state = .ok (.fullRequest request) ∧
          connection.stream.peerAddr = .ok addr ∧
            connection.requestHandler.Panics world (.fromNoRemote request addr) := by
  obtain ⟨aborts, completes⟩ := readLoop_reflects incomplete connection.stream.reads
  rw [← aborts]
  simp only [← completes]
  unfold readRequest
  rcases readLoop state connection.stream.reads with ⟨ending, reads, calls⟩
  cases ending with
  | done parsed =>
      refine (respond_eq_abort_iff printsUtc strict).trans ?_
      simp only [ReadLoop.done.injEq, reduceCtorEq, false_or]
  | aborted => exact iff_of_true rfl (.inl rfl)
  | suspended parsed =>
      refine iff_of_false (Outcome.Returns.ok _) ?_
      rintro (⟨⟨⟩⟩ | ⟨_, _, ⟨⟩, -⟩)
  | rejected =>
      refine iff_of_false (Outcome.Returns.ok _) ?_
      rintro (⟨⟨⟩⟩ | ⟨_, _, ⟨⟩, -⟩)
  | failed error =>
      refine iff_of_false (Outcome.Returns.err error) ?_
      rintro (⟨⟨⟩⟩ | ⟨_, _, ⟨⟩, -⟩)

/-- Writing does not panic. -/
theorem writeResponse_returns (response : IncrementalResponse) :
    (connection.writeResponse world token response).1.Returns := by
  obtain ⟨bytes, remaining⟩ := response.exists_remaining world.headerOrder
  have accounts := (writeBytes_accounts bytes connection.stream.writes).1
  unfold writeResponse
  rw [writeLoop_eq remaining]
  cases written : writeBytes bytes connection.stream.writes with
  | mk ending left =>
      rw [written] at accounts
      cases ending with
      | suspended held => exact .ok _
      | done => exact .ok _
      | failed error => exact .err error
      | aborted => exact accounts.elim

/-- The handler of a connection panics if it reads, and that panics. -/
theorem handleStreamEvent_eq_abort_iff (printsUtc : chrono.PrintsUtc) (strict : chrono.Strict)
    {event : Event} (awaiting : connection.Reading → connection.Awaiting) :
    (handleStreamEvent event world token connection).1 = .abort ↔
      (EventSource.tcpStream connection).Panics event world := by
  unfold handleStreamEvent
  cases state : connection.connectionState with
  | read incrementalRequest =>
      have incomplete := (awaiting (.of_read state)).incomplete state
      cases readable : event.isReadable with
      | true =>
          dsimp only
          rw [if_pos rfl, readRequest_eq_abort_iff printsUtc strict incomplete]
          constructor
          · rintro (aborts | ⟨request, addr, completes, peer, panics⟩)
            · exact .parse readable state aborts
            · exact .handle readable state completes peer panics
          · rintro (_ | ⟨-, state', aborts⟩ | ⟨-, state', completes, peer, panics⟩)
            · cases state.symm.trans state'
              exact .inl aborts
            · cases state.symm.trans state'
              exact .inr ⟨_, _, completes, peer, panics⟩
      | false =>
          refine iff_of_false (Outcome.Returns.ok _) ?_
          rintro (_ | ⟨readable', -⟩ | ⟨readable', -⟩)
          · cases readable.symm.trans readable'
          · cases readable.symm.trans readable'
  | write response =>
      refine iff_of_false ?_ ?_
      · dsimp only
        split
        · exact writeResponse_returns response
        · exact Outcome.Returns.ok _
      · rintro (_ | ⟨-, state', -⟩ | ⟨-, state', -⟩)
        · cases state.symm.trans state'
        · cases state.symm.trans state'
  | close =>
      refine iff_of_false (Outcome.Returns.ok _) ?_
      rintro (_ | ⟨-, state', -⟩ | ⟨-, state', -⟩)
      · cases state.symm.trans state'
      · cases state.symm.trans state'

end Connection

/-- The handler of the listener panics over a connection that it accepts. -/
theorem handleListenerEvent_eq_abort_iff {listener : TcpListener} {tokenCounter : Nat}
    {serverConfig : ServerConfig} (event : Event) (world : World chrono) :
    handleListenerEvent listener tokenCounter serverConfig = .abort ↔
      (EventSource.tcpListener listener tokenCounter serverConfig).Panics event world := by
  have aborts := acceptLoop_eq_abort_iff serverConfig tokenCounter [] listener.accepts
  have panics : (EventSource.tcpListener listener tokenCounter serverConfig).Panics event world ↔
      accepted listener.accepts ≠ [] ∧ ((Host.new serverConfig : Outcome Error Host) = .abort ∨
        usizeBound ≤ tokenCounter + (accepted listener.accepts).length) := by
    constructor
    · rintro ⟨some, exhausted⟩
      exact ⟨some, exhausted⟩
    · exact fun both => .accept both.1 both.2
  rw [panics, ← aborts, handleListenerEvent]
  rcases acceptLoop serverConfig tokenCounter [] listener.accepts with
    ⟨⟨counter, responses⟩ | error | _, left⟩
  · exact iff_of_false (Outcome.Returns.ok _) (Outcome.Returns.ok _)
  · exact iff_of_false (Outcome.Returns.err _) (Outcome.Returns.err _)
  · exact iff_of_true rfl rfl

/-- The handler of the standard input does not panic. -/
theorem handleStdinEvent_returns (event : Event) (stdin : Stdin) (listenerToken : Token) :
    (handleStdinEvent event stdin listenerToken).Returns := by
  unfold handleStdinEvent
  split
  · split
    · split
      · exact .ok _
      · exact .ok _
    · exact .err _
  · exact .ok _

/-- **Where a handler of the loop panics.** The handler of an event that has a source in a
reachable loop returns, unless a connection is accepted without a host or a token for it, or
what can be read makes the parser or `Host::handle` panic. -/
theorem EventLoop.handlerReturns_iff (printsUtc : chrono.PrintsUtc) (strict : chrono.Strict)
    {loop : EventLoop} (reachable : (eventLoopSystem chrono).Reachable loop)
    {item : Event × World chrono} {source : EventSource}
    (found : loop.eventSources.lookup item.1.token = some source) :
    loop.HandlerReturns item ↔ ¬source.Panics item.1 item.2 := by
  have watched := (guarded_of_reachable reachable).watched
  have aborts : (source.handleEvent item.1 item.2 item.1.token).1 = .abort ↔
      source.Panics item.1 item.2 := by
    cases source with
    | tcpListener listener tokenCounter serverConfig =>
        exact handleListenerEvent_eq_abort_iff item.1 item.2
    | tcpStream connection =>
        exact connection.handleStreamEvent_eq_abort_iff printsUtc strict fun reading =>
          (watched.reading _ connection (.inl found) reading).1
    | stdin input listenerToken =>
        exact iff_of_false (handleStdinEvent_returns item.1 input listenerToken) (by rintro ⟨⟩)
  rw [← aborts]
  constructor
  · rintro ⟨source', found', returns⟩
    cases found.symm.trans found'
    exact returns
  · exact fun returns => ⟨source, found, returns⟩

end RustHttpServer
