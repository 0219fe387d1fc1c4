import RustHttpServer.Host.Site
import RustHttpServer.Http.Incremental
import RustHttpServer.Select.Connection

/-!
# Receiving a request

The event loop reads a request in pieces, between which it is suspended. That makes no
difference: when it is resumed, reading goes on as if it had not been suspended
(`readLoop_append`), so it comes to what `seq::process` comes to on the same chunks
(`deliver_refines_process`).
-/

namespace RustHttpServer

open Foundation Utf8

/-- Chunks with calls between them that would block. -/
inductive Interleaves : List (Except IoError Bytes) → List Bytes → Prop
  | nil : Interleaves [] []
  | chunk {bytes : Bytes} {reads : List (Except IoError Bytes)} {chunks : List Bytes} :
      bytes ≠ [] → Interleaves reads chunks → Interleaves (.ok bytes :: reads) (bytes :: chunks)
  | wouldBlock {error : IoError} {reads : List (Except IoError Bytes)} {chunks : List Bytes} :
      error.kind = .wouldBlock → Interleaves reads chunks →
        Interleaves (.error error :: reads) chunks

/-- The answers with which the chunks come in one go. -/
def inOneGo (chunks : List Bytes) : List (Except IoError Bytes) := chunks.map .ok

/-- No chunk that comes in is empty. -/
theorem Interleaves.nonempty {reads : List (Except IoError Bytes)} {chunks : List Bytes}
    (interleaves : Interleaves reads chunks) : ∀ bytes ∈ chunks, bytes ≠ [] := by
  induction interleaves with
  | nil => exact List.forall_mem_nil _
  | chunk nonempty _ ih => exact List.forall_mem_cons.mpr ⟨nonempty, ih⟩
  | wouldBlock _ _ ih => exact ih

/-- Nothing is handed on and nothing is written, and no request is completed. -/
structure Quiet (calls : List Call) : Prop where
  requestsHandled : requestsHandled calls = []
  bytesWritten : bytesWritten calls = []
  incomplete : ∀ latest parsed, .parse latest (.ok parsed) ∈ calls → parsed.isFull = false

/-! ## The loop of the event loop -/

section Loop

variable {incrementalRequest : IncrementalRequest} {bytes : Bytes}

/-- A chunk is read and parsed, and the loop goes on unless that ends it. -/
theorem readLoop_chunk (nonempty : bytes ≠ []) (reads : List (Except IoError Bytes)) :
    readLoop incrementalRequest (.ok bytes :: reads) =
      let calls := [.read bytes, .parse bytes (tryParseRequest bytes incrementalRequest)]
      match tryParseRequest bytes incrementalRequest with
      | .ok parsed =>
          if parsed.isFull then (.done parsed, reads, calls)
          else
            let (ending, reads, more) := readLoop parsed reads
            (ending, reads, calls ++ more)
      | .err _ => (.rejected, reads, calls)
      | .abort => (.aborted, reads, calls) := by
  rw [readLoop]
  exact if_pos (List.length_pos_iff.mpr nonempty)

/-- Reading goes on where it has been suspended. -/
theorem readLoop_append (first second : List Bytes) (nonempty : ∀ bytes ∈ first, bytes ≠ []) :
    readLoop incrementalRequest (inOneGo (first ++ second)) =
      match readLoop incrementalRequest (inOneGo first) with
      | (.suspended parsed, _, calls) =>
          let (ending, reads, more) := readLoop parsed (inOneGo second)
          (ending, reads, calls ++ more)
      | (ending, reads, calls) => (ending, reads ++ inOneGo second, calls) := by
  induction first generalizing incrementalRequest with
  | nil => rfl
  | cons bytes first ih =>
      obtain ⟨nonempty, rest⟩ := List.forall_mem_cons.mp nonempty
      change readLoop incrementalRequest (.ok bytes :: inOneGo (first ++ second)) =
        match readLoop incrementalRequest (.ok bytes :: inOneGo first) with
        | (.suspended parsed, _, calls) => _
        | (ending, reads, calls) => _
      rw [readLoop_chunk nonempty, readLoop_chunk nonempty]
      cases tryParseRequest bytes incrementalRequest with
      | ok parsed =>
          dsimp only
          by_cases full : parsed.isFull = true
          · rw [if_pos full, if_pos full]
            simp [inOneGo]
          · rw [if_neg full, if_neg full, ih rest]
            cases read : readLoop parsed (inOneGo first) with
            | mk ending left => cases ending <;> simp
      | err error => simp [inOneGo]
      | abort => simp [inOneGo]

/-- The calls for which the reads would block. -/
def suspensions (reads : List (Except IoError Bytes)) : Nat :=
  reads.countP fun
    | .ok _ => false
    | .error _ => true

/-- What a loop does on interleaved chunks, it does on the chunks it reads in one go. -/
structure Consumes (incrementalRequest : IncrementalRequest) (chunks : List Bytes)
    (allowance : Nat) (loop : ReadLoop × List (Except IoError Bytes) × List Call) : Prop where
  rest : ∃ rest, chunks = chunksRead loop.2.2 ++ rest ∧ Interleaves loop.2.1 rest
  inOneGo : readLoop incrementalRequest (inOneGo (chunksRead loop.2.2)) = (loop.1, [], loop.2.2)
  /-- A suspension uses up an answer, unless none are left. -/
  suspended : ∀ parsed, loop.1 = .suspended parsed →
    loop.2.1 = [] ∨ suspensions loop.2.1 < allowance

/-- The loop consumes chunks up to a pause or its end. -/
private theorem readLoop_consumes {reads : List (Except IoError Bytes)} {chunks : List Bytes}
    (interleaves : Interleaves reads chunks) (incrementalRequest : IncrementalRequest) :
    Consumes incrementalRequest chunks (suspensions reads) (readLoop incrementalRequest reads) := by
  induction interleaves generalizing incrementalRequest with
  | nil => exact ⟨⟨[], rfl, .nil⟩, rfl, fun _ _ => .inl rfl⟩
  | @wouldBlock error reads chunks kind interleaves ih =>
      rw [readLoop, if_pos kind]
      refine ⟨⟨chunks, rfl, interleaves⟩, rfl, fun _ _ => .inr ?_⟩
      change suspensions reads < suspensions (.error error :: reads)
      rw [suspensions, suspensions, List.countP_cons]
      exact Nat.lt_succ_self _
  | @chunk bytes reads chunks nonempty interleaves ih =>
      have rest : ∃ rest, bytes :: chunks = [bytes] ++ rest ∧ Interleaves reads rest :=
        ⟨chunks, rfl, interleaves⟩
      have alone := @readLoop_chunk incrementalRequest bytes nonempty []
      rw [readLoop_chunk nonempty]
      cases parsed : tryParseRequest bytes incrementalRequest with
      | ok next =>
          rw [parsed] at alone
          dsimp only at alone ⊢
          by_cases full : next.isFull = true
          · rw [if_pos full] at alone ⊢
            exact ⟨rest, alone, nofun⟩
          · rw [if_neg full]
            obtain ⟨⟨rest, split, left⟩, again, fewer⟩ := ih next
            refine ⟨⟨rest, ?_, left⟩, ?_, fun suspended ended => ?_⟩
            · exact congrArg (bytes :: ·) split
            · change readLoop incrementalRequest
                (.ok bytes :: inOneGo (chunksRead (readLoop next reads).2.2)) = _
              rw [readLoop_chunk nonempty, parsed]
              dsimp only
              rw [if_neg full, again]
            · refine (fewer suspended ended).imp_right fun fewer => fewer.trans_le ?_
              rw [suspensions, suspensions, List.countP_cons]
              exact Nat.le_add_right _ _
      | err error =>
          rw [parsed] at alone
          exact ⟨rest, alone, nofun⟩
      | abort =>
          rw [parsed] at alone
          exact ⟨rest, alone, nofun⟩

end Loop

/-! ## The loop of sequential processing -/

/-- How the loop of `seq::process` ends when that of the event loop ends in a certain way,
on the same chunks. -/
def Agrees (processed : Seq.ReadLoop × List Call) :
    ReadLoop × List (Except IoError Bytes) × List Call → Prop
  | (.suspended parsed, _, calls) => processed = (.waiting, calls) ∧ Quiet calls ∧
      parsed.HoldsText ∧ parsed.isFull = false
  | (.rejected, _, calls) => Quiet calls ∧ (∃ error, processed.1 = .failed error) ∧
      chunksRead processed.2 = chunksRead calls ∧ Quiet processed.2
  | (.done parsed, _, calls) => processed = (.done parsed, calls) ∧
      requestsHandled calls = [] ∧ ∃ request, parsed = .fullRequest request ∧
        ∃ latest, .parse latest (.ok parsed) ∈ calls
  | (.failed _, _, _) => False
  | (.aborted, _, calls) => processed = (.aborted, calls) ∧ Quiet calls

/-- A chunk that completes nothing keeps quiet. -/
theorem Quiet.cons {latest : Bytes} {result : Outcome Error IncrementalRequest} {more : List Call}
    (quiet : Quiet more) (incomplete : ∀ parsed, result = .ok parsed → parsed.isFull = false) :
    Quiet (.read latest :: .parse latest result :: more) where
  requestsHandled := quiet.requestsHandled
  bytesWritten := quiet.bytesWritten
  incomplete bytes parsed member := by
    rcases List.mem_cons.mp member with read | member
    · cases read
    · rcases List.mem_cons.mp member with parse | member
      · cases parse
        exact incomplete parsed rfl
      · exact quiet.incomplete bytes parsed member

/-- To do nothing is quiet. -/
theorem Quiet.nil : Quiet [] := ⟨rfl, rfl, nofun⟩

/-- `process` decodes a chunk before it parses it. -/
theorem seqReadLoop_chunk {incrementalRequest : IncrementalRequest} {bytes : Bytes}
    (nonempty : bytes ≠ []) (reads : List (Except IoError Bytes)) :
    Seq.readLoop incrementalRequest (.ok bytes :: reads) =
      match decode bytes with
      | .error error => (.failed (.ofUtf8 error), [.read bytes])
      | .ok _ =>
          let calls := [.read bytes, .parse bytes (tryParseRequest bytes incrementalRequest)]
          match tryParseRequest bytes incrementalRequest with
          | .ok parsed =>
              if parsed.isFull then (.done parsed, calls)
              else
                let (ending, more) := Seq.readLoop parsed reads
                (ending, calls ++ more)
          | .err error => (.failed error, calls)
          | .abort => (.aborted, calls) := by
  rw [Seq.readLoop]
  exact if_pos (List.length_pos_iff.mpr nonempty)

/-- An incomplete request in front of what both loops do. -/
theorem Agrees.cons {processed : Seq.ReadLoop × List Call}
    {loop : ReadLoop × List (Except IoError Bytes) × List Call} (agrees : Agrees processed loop)
    {latest : Bytes} {parsed : IncrementalRequest} (incomplete : parsed.isFull = false) :
    let calls := [.read latest, .parse latest (.ok parsed)]
    Agrees (processed.1, calls ++ processed.2) (loop.1, loop.2.1, calls ++ loop.2.2) := by
  have quiet : ∀ {more : List Call}, Quiet more →
      Quiet (.read latest :: .parse latest (.ok parsed) :: more) :=
    fun quiet => quiet.cons fun _ same => Outcome.ok.inj same ▸ incomplete
  obtain ⟨ending, reads, calls⟩ := loop
  cases ending with
  | suspended next =>
      obtain ⟨rfl, silent, suspended⟩ := agrees
      exact ⟨rfl, quiet silent, suspended⟩
  | rejected =>
      obtain ⟨silent, failed, same, silent'⟩ := agrees
      exact ⟨quiet silent, failed, congrArg (latest :: ·) same, quiet silent'⟩
  | done next =>
      obtain ⟨rfl, unhandled, request, whole, last, member⟩ := agrees
      refine ⟨rfl, unhandled, request, whole, last, ?_⟩
      exact List.mem_append_right _ member
  | failed error => exact agrees.elim
  | aborted =>
      obtain ⟨rfl, silent⟩ := agrees
      exact ⟨rfl, quiet silent⟩

/-- The loops end alike, for a chunk that is not text is rejected by the parser as well. -/
theorem readLoop_agrees (chunks : List Bytes) (nonempty : ∀ bytes ∈ chunks, bytes ≠ [])
    {incrementalRequest : IncrementalRequest} (text : incrementalRequest.HoldsText)
    (incomplete : incrementalRequest.isFull = false) :
    Agrees (Seq.readLoop incrementalRequest (inOneGo chunks))
      (readLoop incrementalRequest (inOneGo chunks)) := by
  induction chunks generalizing incrementalRequest with
  | nil => exact ⟨rfl, .nil, text, incomplete⟩
  | cons bytes chunks ih =>
      obtain ⟨nonempty, rest⟩ := List.forall_mem_cons.mp nonempty
      change Agrees (Seq.readLoop incrementalRequest (.ok bytes :: inOneGo chunks))
        (readLoop incrementalRequest (.ok bytes :: inOneGo chunks))
      rw [seqReadLoop_chunk nonempty, readLoop_chunk nonempty]
      cases decoded : decode bytes with
      | error invalid =>
          obtain ⟨error, rejected⟩ := tryParseRequest_of_not_text text incomplete decoded
          rw [rejected]
          refine ⟨.cons .nil nofun, ⟨_, rfl⟩, rfl, rfl, rfl, fun latest parsed member => ?_⟩
          cases List.mem_singleton.mp member
      | ok characters =>
          dsimp only
          cases parsed : tryParseRequest bytes incrementalRequest with
          | err error => exact ⟨.cons .nil nofun, ⟨_, rfl⟩, rfl, .cons .nil nofun⟩
          | abort => exact ⟨rfl, .cons .nil nofun⟩
          | ok next =>
              dsimp only
              cases full : next.isFull with
              | true =>
                  rw [if_pos rfl, if_pos rfl]
                  refine ⟨rfl, rfl, ?_⟩
                  obtain ⟨request, whole⟩ := exists_fullRequest full
                  exact ⟨request, whole, bytes, List.mem_cons_of_mem _ List.mem_cons_self⟩
              | false =>
                  rw [if_neg Bool.false_ne_true, if_neg Bool.false_ne_true]
                  exact (ih rest (holdsText_of_tryParseRequest text parsed) full).cons full

/-! ## Delivering events to a connection that reads -/

variable {chrono : Chrono}

namespace Connection

/-- Nothing is read or handed on while a response is written. -/
theorem deliver_writing (token : Token) (events : List (Event × World chrono))
    (connection : Connection) (response : IncrementalResponse)
    (writing : connection.connectionState = .write response) :
    OnlyWrites (connection.deliver token events).2 := by
  induction events generalizing connection response with
  | nil => exact .nil
  | cons first events ih =>
      obtain ⟨event, world⟩ := first
      cases writable : event.isWritable with
      | false =>
          rw [deliver_cons_unwritable writing writable]
          exact ih connection response writing
      | true =>
          obtain ⟨bytes, remaining⟩ := response.exists_remaining world.headerOrder
          have only := (writeBytes_accounts bytes connection.stream.writes).2
          rw [deliver_cons_writable writing writable remaining]
          cases written : writeBytes bytes connection.stream.writes with
          | mk ending left =>
              obtain ⟨writes, calls⟩ := left
              rw [written] at only
              cases ending with
              | suspended held =>
                  apply OnlyWrites.append only
                  exact ih { connection with
                    stream := { connection.stream with writes }
                    connectionState := .write (.bytes held) } _ rfl
              | done => exact only
              | failed error => exact only
              | aborted => exact only

end Connection

/-- The request that is handed to `Host::handle` when reading is done. -/
def handedOn (addr : Except IoError SocketAddr) (parsed : IncrementalRequest) : List Request :=
  match parsed, addr with
  | .fullRequest request, .ok addr => [Request.fromNoRemote request addr]
  | _, _ => []

/-- The events on which the stream is readable. -/
def readables (events : List (Event × World chrono)) : Nat :=
  events.countP fun delivered => delivered.1.isReadable

/-- What has become of a connection that has received some chunks, of which the loop
makes something in one go. -/
def Received (addr : Except IoError SocketAddr) (unread : List Bytes) (suspended : Prop)
    (delivered : ConnectionStatus × List Call) :
    ReadLoop × List (Except IoError Bytes) × List Call → Prop
  | (.suspended parsed, _, calls) => delivered.2 = calls ∧ (unread = [] ∨ suspended) ∧
      ∃ connection, delivered.1 = .opened connection ∧ connection.connectionState = .read parsed
  | (.rejected, _, calls) => delivered.2 = calls ∧ ∃ connection, delivered.1 = .closing connection
  | (.done parsed, _, calls) => ∃ more, delivered.2 = calls ++ more ∧ chunksRead more = [] ∧
      requestsHandled more = handedOn addr parsed ∧
        (handedOn addr parsed = [] → delivered.1 = .dropped)
  | (.failed _, _, _) => False
  | (.aborted, _, calls) => delivered = (.dropped, calls)

/-- What has been received before is received in front. -/
theorem Received.append {addr : Except IoError SocketAddr} {unread : List Bytes}
    {suspended suspended' : Prop} {status : ConnectionStatus} {calls more : List Call}
    {loop : ReadLoop × List (Except IoError Bytes) × List Call}
    (received : Received addr unread suspended (status, more) loop)
    (still : unread = [] ∨ suspended → unread = [] ∨ suspended') :
    Received addr unread suspended' (status, calls ++ more)
      (loop.1, loop.2.1, calls ++ loop.2.2) := by
  obtain ⟨ending, reads, again⟩ := loop
  cases ending with
  | suspended parsed =>
      obtain ⟨same, waiting, opened⟩ := received
      exact ⟨congrArg (calls ++ ·) same, still waiting, opened⟩
  | rejected =>
      obtain ⟨same, closing⟩ := received
      exact ⟨congrArg (calls ++ ·) same, closing⟩
  | done parsed =>
      obtain ⟨responding, same, handed⟩ := received
      refine ⟨responding, ?_, handed⟩
      dsimp only at same ⊢
      rw [same, List.append_assoc]
  | failed error => exact received.elim
  | aborted =>
      cases received
      exact rfl

/-- Without reads no chunk comes in. -/
theorem Interleaves.eq_nil {chunks : List Bytes} (interleaves : Interleaves [] chunks) :
    chunks = [] := by
  cases interleaves
  rfl

namespace Connection

variable {token : Token} {connection : Connection} {event : Event} {world : World chrono}
  {incrementalRequest : IncrementalRequest}

/-- An event without data makes no difference to a connection that reads. -/
theorem deliver_cons_unreadable (reading : connection.connectionState = .read incrementalRequest)
    (unreadable : event.isReadable = false) (events : List (Event × World chrono)) :
    connection.deliver token ((event, world) :: events) = connection.deliver token events := by
  have unchanged : handleStreamEvent event world token connection =
      (.ok (.tcpStream connection, []), []) := by
    rw [handleStreamEvent, reading]
    dsimp only
    rw [unreadable, if_neg Bool.false_ne_true]
  rw [deliver, unchanged]
  rfl

/-- An event with data has the loop read on. -/
theorem deliver_cons_readable (reading : connection.connectionState = .read incrementalRequest)
    (readable : event.isReadable = true) (events : List (Event × World chrono)) :
    connection.deliver token ((event, world) :: events) =
      match readLoop incrementalRequest connection.stream.reads with
      | (.suspended parsed, reads, calls) =>
          let (status, more) := deliver token { connection with
            stream := { connection.stream with reads }, connectionState := .read parsed } events
          (status, calls ++ more)
      | (.rejected, reads, calls) =>
          (.closing { connection with
            stream := { connection.stream with reads }, connectionState := .read (.none []) },
            calls)
      | (.done parsed, reads, calls) =>
          let (status, more) := follow token (fun connection => connection.deliver token events)
            (respond { connection with stream := { connection.stream with reads } } world token
              parsed)
          (status, calls ++ more)
      | (.failed _, _, calls) => (.dropped, calls)
      | (.aborted, _, calls) => (.dropped, calls) := by
  rw [deliver, handleStreamEvent, reading]
  dsimp only
  rw [if_pos readable, readRequest]
  cases read : readLoop incrementalRequest connection.stream.reads with
  | mk ending left =>
      obtain ⟨reads, calls⟩ := left
      cases ending with
      | suspended parsed => rfl
      | rejected => exact if_pos (requestsClose_closeSource token)
      | done parsed =>
          rw [reading]
          exact follow_append _ _ _ _ _
      | failed error => rfl
      | aborted => rfl

/-- A request that has been received is dropped if the peer has no address. Otherwise it is
handled, and all that is done after that is writing. -/
theorem follow_respond_calls (connection : Connection) (world : World chrono) (token : Token)
    (request : RequestNoRemote) (events : List (Event × World chrono)) :
    let followed := follow token (fun connection => connection.deliver token events)
      (connection.respond world token (.fullRequest request))
    (∃ error, connection.stream.peerAddr = .error error ∧ followed = (.dropped, [])) ∨
      ∃ addr writes, connection.stream.peerAddr = .ok addr ∧
        followed.2 = .handle (Request.fromNoRemote request addr) :: writes ∧ OnlyWrites writes := by
  unfold respond
  cases connection.stream.peerAddr with
  | error error => exact .inl ⟨error, rfl, rfl⟩
  | ok addr =>
      right
      dsimp only
      cases connection.requestHandler.handle world (Request.fromNoRemote request addr) false with
      | mk outcome left =>
          obtain ⟨requestHandler, accesses⟩ := left
          cases outcome with
          | ok response =>
              exact ⟨addr, _, rfl, rfl, deliver_writing token events { connection with
                connectionState := .write (.struct response), requestHandler } _ rfl⟩
          | err error => exact ⟨addr, [], rfl, rfl, .nil⟩
          | abort => exact ⟨addr, [], rfl, rfl, .nil⟩

/-- A request that has been received is handed on, if the peer has an address. -/
theorem follow_respond (connection : Connection) (world : World chrono) (token : Token)
    (request : RequestNoRemote) (events : List (Event × World chrono)) :
    let addr := connection.stream.peerAddr
    let followed := follow token (fun connection => connection.deliver token events)
      (connection.respond world token (.fullRequest request))
    chunksRead followed.2 = [] ∧
      requestsHandled followed.2 = handedOn addr (.fullRequest request) ∧
      (handedOn addr (.fullRequest request) = [] → followed.1 = .dropped) := by
  intro addr followed
  rcases follow_respond_calls connection world token request events with
    ⟨error, unknown, dropped⟩ | ⟨known, writes, found, calls, only⟩
  · change followed = _ at dropped
    have handed : handedOn addr (.fullRequest request) = [] :=
      congrArg (handedOn · (.fullRequest request)) unknown
    rw [dropped, handed]
    exact ⟨rfl, rfl, fun _ => rfl⟩
  · change followed.2 = _ at calls
    have handed : handedOn addr (.fullRequest request) = [Request.fromNoRemote request known] :=
      congrArg (handedOn · (.fullRequest request)) found
    rw [calls, handed]
    refine ⟨only.chunksRead, ?_, fun none => absurd none (List.cons_ne_nil _ _)⟩
    exact congrArg (Request.fromNoRemote request known :: ·) only.requestsHandled

/-- Whatever events are delivered, what is received is what the loop reads in one go. -/
theorem deliver_received (events : List (Event × World chrono)) {chunks : List Bytes}
    (reading : connection.connectionState = .read incrementalRequest)
    (text : incrementalRequest.HoldsText) (incomplete : incrementalRequest.isFull = false)
    (interleaves : Interleaves connection.stream.reads chunks) :
    let delivered := connection.deliver token events
    ∃ unread, chunks = chunksRead delivered.2 ++ unread ∧
      Received connection.stream.peerAddr unread
        (readables events ≤ suspensions connection.stream.reads) delivered
        (readLoop incrementalRequest (inOneGo (chunksRead delivered.2))) := by
  induction events generalizing connection incrementalRequest chunks with
  | nil => exact ⟨chunks, rfl, rfl, .inr (Nat.zero_le _), connection, rfl, reading⟩
  | cons first events ih =>
      obtain ⟨event, world⟩ := first
      cases readable : event.isReadable with
      | false =>
          have uncounted : readables ((event, world) :: events) = readables events := by
            rw [readables, readables, List.countP_cons, readable]
            rfl
          rw [deliver_cons_unreadable reading readable, uncounted]
          exact ih reading text incomplete interleaves
      | true =>
          have counted : readables ((event, world) :: events) = readables events + 1 := by
            rw [readables, readables, List.countP_cons, readable]
            rfl
          obtain ⟨⟨rest, split, left⟩, again, fewer⟩ :=
            readLoop_consumes interleaves incrementalRequest
          have agrees := readLoop_agrees _ (fun bytes member => interleaves.nonempty bytes
            (split ▸ List.mem_append_left rest member)) text incomplete
          rw [again] at agrees
          rw [deliver_cons_readable reading readable]
          cases read : readLoop incrementalRequest connection.stream.reads with
          | mk ending reads =>
              obtain ⟨reads, calls⟩ := reads
              rw [read] at split left again fewer agrees
              dsimp only at split left again fewer agrees ⊢
              cases ending with
              | suspended parsed =>
                  obtain ⟨-, -, text, incomplete⟩ := agrees
                  obtain ⟨unread, later, received⟩ := @ih { connection with
                    stream := { connection.stream with reads }
                    connectionState := .read parsed } parsed rest rfl text incomplete left
                  refine ⟨unread, ?_, ?_⟩
                  · rw [chunksRead_append, List.append_assoc, ← later, split]
                  · rw [chunksRead_append, readLoop_append _ _ (fun bytes member =>
                      interleaves.nonempty bytes (split ▸ List.mem_append_left rest member)), again]
                    apply received.append
                    intro waiting
                    rw [counted]
                    rcases fewer parsed rfl with exhausted | fewer
                    · rw [exhausted] at left
                      rw [left.eq_nil] at later
                      exact .inl (List.append_eq_nil_iff.mp later.symm).2
                    · exact waiting.imp_right fun still => still.trans_lt fewer
              | rejected =>
                  refine ⟨rest, split, ?_⟩
                  rw [again]
                  exact ⟨rfl, _, rfl⟩
              | done parsed =>
                  obtain ⟨-, -, request, rfl, -⟩ := agrees
                  obtain ⟨unread, handled, dropped⟩ := follow_respond { connection with
                    stream := { connection.stream with reads } } world token request events
                  refine ⟨rest, ?_, ?_⟩
                  · rw [chunksRead_append, unread, List.append_nil, split]
                  · rw [chunksRead_append, unread, List.append_nil, again]
                    exact ⟨_, rfl, unread, handled, dropped⟩
              | failed error => exact agrees.elim
              | aborted =>
                  refine ⟨rest, split, ?_⟩
                  rw [again]
                  exact rfl

end Connection

/-! ## Refinement -/

/-- `process` fails before the parser has completed the request. -/
def Rejects (processed : Option (Outcome Error Unit) × List Call) : Prop :=
  (∃ error, processed.1 = some (.err error)) ∧
    ∀ latest parsed, .parse latest (.ok parsed) ∈ processed.2 → parsed.isFull = false

/-- The close of a connection is requested without handling a request or writing a byte. -/
def ClosesUnserved (delivered : ConnectionStatus × List Call) : Prop :=
  (∃ connection, delivered.1 = .closing connection) ∧ requestsHandled delivered.2 = [] ∧
    bytesWritten delivered.2 = []

/-- A connection is received as by `process`: the same request is handed to
`Host::handle` after the same chunks, or the same chunks are rejected. -/
structure ReceivedAlike (delivered : ConnectionStatus × List Call)
    (processed : Option (Outcome Error Unit) × List Call) : Prop where
  requestsHandled : requestsHandled delivered.2 = requestsHandled processed.2
  chunksRead : chunksRead delivered.2 = chunksRead processed.2
  rejected : ClosesUnserved delivered ↔ Rejects processed

section Process

variable (requestHandler : Host) (world : World chrono) (stream : TcpStream) (overloaded : Bool)

/-- `process` hands the request on likewise. -/
theorem Seq.respond_handedOn (request : RequestNoRemote) :
    let processed := Seq.respond requestHandler world stream overloaded (.fullRequest request)
    RustHttpServer.chunksRead processed.2 = [] ∧
      requestsHandled processed.2 = handedOn stream.peerAddr (.fullRequest request) := by
  unfold Seq.respond handedOn
  cases stream.peerAddr with
  | error error => exact ⟨rfl, rfl⟩
  | ok addr =>
      dsimp only
      cases (requestHandler.handle world (Request.fromNoRemote request addr) overloaded).1 >>=
          writeResponse world.headerOrder with
      | ok bytes =>
          obtain ⟨-, -, only⟩ := Seq.writeAll_accounts bytes stream.writes
          exact ⟨only.chunksRead,
            congrArg (Request.fromNoRemote request addr :: ·) only.requestsHandled⟩
      | err error => exact ⟨rfl, rfl⟩
      | abort => exact ⟨rfl, rfl⟩

/-- Drivers whose loops agree receive alike. -/
private theorem receivedAlike_of_agrees {unread chunks : List Bytes} {suspended : Prop}
    {delivered : ConnectionStatus × List Call}
    {loop : ReadLoop × List (Except IoError Bytes) × List Call}
    (received : Received stream.peerAddr unread suspended delivered loop)
    (agrees : Agrees (Seq.readLoop (.none []) (inOneGo chunks)) loop) :
    ReceivedAlike delivered (Seq.process requestHandler world
      { stream with reads := inOneGo chunks } overloaded) := by
  obtain ⟨ending, reads, calls⟩ := loop
  obtain ⟨status, done⟩ := delivered
  unfold Seq.process
  dsimp only
  cases ending with
  | suspended parsed =>
      obtain ⟨rfl, -, connection, rfl, -⟩ := received
      rw [agrees.1]
      refine ⟨rfl, rfl, iff_of_false ?_ ?_⟩
      · rintro ⟨⟨connection, ⟨⟩⟩, -⟩
      · rintro ⟨⟨error, ⟨⟩⟩, -⟩
  | rejected =>
      obtain ⟨rfl, closing⟩ := received
      obtain ⟨quiet, ⟨error, failed⟩, same, quiet'⟩ := agrees
      cases processed : Seq.readLoop (.none []) (inOneGo chunks) with
      | mk ended calls =>
          rw [processed] at failed same quiet'
          cases failed
          refine ⟨quiet.requestsHandled.trans quiet'.requestsHandled.symm, same.symm, ?_⟩
          exact iff_of_true ⟨closing, quiet.requestsHandled, quiet.bytesWritten⟩
            ⟨⟨error, rfl⟩, quiet'.incomplete⟩
  | done parsed =>
      obtain ⟨more, rfl, unread, handled, dropped⟩ := received
      obtain ⟨ended, unhandled, request, rfl, latest, complete⟩ := agrees
      have respond := Seq.respond_handedOn requestHandler world
        { stream with reads := inOneGo chunks } overloaded request
      rw [ended]
      refine ⟨?_, ?_, iff_of_false ?_ fun rejects => ?_⟩
      · rw [requestsHandled_append, requestsHandled_append, handled, respond.2]
      · rw [chunksRead_append, chunksRead_append, unread, respond.1]
      · rintro ⟨⟨connection, closing⟩, none, -⟩
        rw [requestsHandled_append, handled] at none
        rw [dropped (List.append_eq_nil_iff.mp none).2] at closing
        cases closing
      · exact nomatch rejects.2 latest _ (List.mem_append_left _ complete)
  | failed error => exact received.elim
  | aborted =>
      cases received
      rw [agrees.1]
      refine ⟨rfl, rfl, iff_of_false ?_ ?_⟩
      · rintro ⟨⟨connection, ⟨⟩⟩, -⟩
      · rintro ⟨⟨error, ⟨⟩⟩, -⟩

end Process

/-- The loop comes to the same with more chunks to read, unless it is suspended. -/
theorem received_inOneGo {addr : Except IoError SocketAddr} {unread : List Bytes} {suspended : Prop}
    {delivered : ConnectionStatus × List Call} {incrementalRequest : IncrementalRequest}
    {read : List Bytes} (nonempty : ∀ bytes ∈ read, bytes ≠ [])
    (received : Received addr unread suspended delivered
      (readLoop incrementalRequest (inOneGo read))) (enough : ¬suspended) :
    Received addr unread suspended delivered
      (readLoop incrementalRequest (inOneGo (read ++ unread))) := by
  rw [readLoop_append _ _ nonempty]
  cases loop : readLoop incrementalRequest (inOneGo read) with
  | mk ending left =>
      obtain ⟨reads, calls⟩ := left
      rw [loop] at received
      cases ending with
      | suspended parsed =>
          obtain ⟨same, waiting, opened⟩ := received
          rw [waiting.resolve_right enough]
          refine ⟨?_, .inl rfl, opened⟩
          exact same.trans (List.append_nil calls).symm
      | rejected => exact received
      | done parsed => exact received
      | failed error => exact received
      | aborted => exact received

/-- **Refinement.** However the chunks of a request come in, with calls between them that
would block and events at any time, the event loop receives what `process` receives on
the chunks that have been read so far; and once the stream has been readable more often
than it has blocked, what `process` receives on all of them. -/
theorem deliver_refines_process (token : Token) (stream : TcpStream) (requestHandler : Host)
    (acceptTime : Instant) {chunks : List Bytes} (interleaves : Interleaves stream.reads chunks)
    (events : List (Event × World chrono)) (world : World chrono) (overloaded : Bool) :
    let connection : Connection :=
      { stream, connectionState := .read (.none []), requestHandler, acceptTime }
    let delivered := connection.deliver token events
    let process := fun chunks =>
      Seq.process requestHandler world { stream with reads := inOneGo chunks } overloaded
    chunksRead delivered.2 <+: chunks ∧
      ReceivedAlike delivered (process (chunksRead delivered.2)) ∧
      (suspensions stream.reads < readables events → ReceivedAlike delivered (process chunks)) := by
  intro connection delivered process
  obtain ⟨unread, split, received⟩ := @Connection.deliver_received chrono token connection _ events
    chunks rfl ⟨[], rfl⟩ rfl interleaves
  have nonempty : ∀ bytes ∈ chunksRead delivered.2, bytes ≠ [] := fun bytes member =>
    interleaves.nonempty bytes (split ▸ List.mem_append_left _ member)
  have agrees : ∀ chunks : List Bytes, (∀ bytes ∈ chunks, bytes ≠ []) →
      Agrees (Seq.readLoop (.none []) (inOneGo chunks)) (readLoop (.none []) (inOneGo chunks)) :=
    fun chunks nonempty => readLoop_agrees chunks nonempty ⟨[], rfl⟩ rfl
  refine ⟨⟨unread, split.symm⟩, ?_, fun enough => ?_⟩
  · exact receivedAlike_of_agrees _ _ _ _ received (agrees _ nonempty)
  · have received := received_inOneGo nonempty received enough.not_ge
    rw [← split] at received
    exact receivedAlike_of_agrees _ _ _ _ received (agrees _ interleaves.nonempty)

/-- A request that comes in two chunks, with a call between them that would block. -/
theorem deliver_refines_process_site :
    let first := encode "GET /page.txt HTTP/1.1\r\nHost: s".toList
    let second := encode "ite\r\n\r\n".toList
    let stream : TcpStream := {
      reads := [.ok first, .error ⟨.wouldBlock, "try again"⟩, .ok second]
      writes := []
      peerAddr := .ok "127.0.0.1:4000".toList }
    let connection : Connection := {
      stream, connectionState := .read (.none []), requestHandler := Site.host, acceptTime := 0 }
    let readable : Event × World gregorian := (⟨2, true, false⟩, Site.world)
    ReceivedAlike (connection.deliver 2 [readable, readable])
      (Seq.process Site.host Site.world { stream with reads := inOneGo [first, second] }
        false) := by
  intro first second stream connection readable
  have interleaves : Interleaves stream.reads [first, second] :=
    .chunk (by decide) (.wouldBlock rfl (.chunk (by decide) .nil))
  exact (deliver_refines_process 2 stream Site.host 0 interleaves [readable, readable] Site.world
    false).2.2 (by decide)

end RustHttpServer
