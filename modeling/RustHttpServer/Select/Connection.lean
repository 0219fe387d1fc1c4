import RustHttpServer.Select
import RustHttpServer.Seq

/-!
# Delivering a response

What becomes of a connection of the event loop when events are delivered to it, up to
the first on which its close is requested (`Connection.deliver`). Of a response, what has
been written and what is still held are always the bytes of `write_response`, and the
close is requested once nothing is held (`deliver_response`).
-/

namespace RustHttpServer

open Foundation Utf8

variable {chrono : Chrono}

/-- Where a connection stands. -/
inductive ConnectionStatus
  | opened (connection : Connection)
  /-- Its close has been requested. -/
  | closing (connection : Connection)
  /-- Its handler has failed. -/
  | dropped

/-- A handler requests the close of a source. -/
def requestsClose (token : Token) (responses : List HandleEventResponse) : Bool :=
  responses.any fun
    | .emptyCommand (.closeSource closed) => closed = token
    | _ => false

/-- To submit the close of a connection is to request it. -/
theorem requestsClose_closeSource (token : Token) :
    requestsClose token [.emptyCommand (.closeSource token)] = true := by
  simp [requestsClose]

/-- What follows when an event has been handled. -/
def follow (token : Token) (later : Connection → ConnectionStatus × List Call) :
    Handled → ConnectionStatus × List Call
  | (.ok (.tcpStream connection, responses), calls) =>
      if requestsClose token responses then (.closing connection, calls)
      else ((later connection).1, calls ++ (later connection).2)
  | (_, calls) => (.dropped, calls)

/-- What has been done before an event is done in front. -/
theorem follow_append (token : Token) (later : Connection → ConnectionStatus × List Call)
    (outcome : Outcome Error (EventSource × List HandleEventResponse)) (calls more : List Call) :
    follow token later (outcome, calls ++ more) =
      ((follow token later (outcome, more)).1,
        calls ++ (follow token later (outcome, more)).2) := by
  cases outcome with
  | err error => rfl
  | abort => rfl
  | ok returned =>
      obtain ⟨source, responses⟩ := returned
      cases source with
      | tcpListener listener tokenCounter serverConfig => rfl
      | stdin input listenerToken => rfl
      | tcpStream connection =>
          rw [follow, follow]
          split
          · rfl
          · rw [List.append_assoc]

/-- Delivers events to a connection until its close is requested. -/
def Connection.deliver (token : Token) :
    Connection → List (Event × World chrono) → ConnectionStatus × List Call
  | connection, [] => (.opened connection, [])
  | connection, (event, world) :: events =>
      follow token (fun connection => deliver token connection events)
        (handleStreamEvent event world token connection)

/-- How much of some bytes a write loop has written. -/
def WriteLoop.Accounts (bytes : Bytes) (calls : List Call) : WriteLoop → Prop
  | .suspended held => bytesWritten calls ++ held = bytes
  | .done => bytesWritten calls = bytes
  | .failed _ => bytesWritten calls <+: bytes
  | .aborted => False

/-- The loop writes the bytes from their front, and does nothing else. -/
theorem writeBytes_accounts (bytes : Bytes) (writes : List (Except IoError ℕ+)) :
    (writeBytes bytes writes).1.Accounts bytes (writeBytes bytes writes).2.2 ∧
      OnlyWrites (writeBytes bytes writes).2.2 := by
  fun_induction writeBytes bytes writes with
  | case1 writes => exact ⟨rfl, .nil⟩
  | case2 byte bytes => exact ⟨rfl, .nil⟩
  | case3 byte bytes room writes ending left calls written ih =>
      rw [written] at ih
      obtain ⟨accounts, only⟩ := ih
      refine ⟨?_, only.cons _⟩
      have split := List.take_append_drop (room : Nat) (byte :: bytes)
      cases ending with
      | suspended held =>
          change (byte :: bytes).take room ++ bytesWritten calls ++ held = byte :: bytes
          rw [List.append_assoc, accounts, split]
      | done =>
          change (byte :: bytes).take room ++ bytesWritten calls = byte :: bytes
          rw [accounts, split]
      | failed error =>
          change (byte :: bytes).take room ++ bytesWritten calls <+: byte :: bytes
          obtain ⟨rest, whole⟩ := accounts
          exact ⟨rest, by rw [List.append_assoc, whole, split]⟩
      | aborted => exact accounts
  | case4 byte bytes error writes blocked => exact ⟨rfl, .nil⟩
  | case5 byte bytes error writes failed => exact ⟨List.nil_prefix, .nil⟩

/-- `write_all` writes the bytes from their front, all of them if it succeeds. -/
theorem Seq.writeAll_accounts (bytes : Bytes) (writes : List (Except IoError ℕ+)) :
    bytesWritten (writeAll bytes writes).2 <+: bytes ∧
      ((writeAll bytes writes).1 = some (.ok ()) →
        bytesWritten (writeAll bytes writes).2 = bytes) ∧
      OnlyWrites (writeAll bytes writes).2 := by
  fun_induction writeAll bytes writes with
  | case1 writes => exact ⟨List.prefix_rfl, fun _ => rfl, .nil⟩
  | case2 byte bytes => exact ⟨List.nil_prefix, nofun, .nil⟩
  | case3 byte bytes room writes outcome calls written ih =>
      rw [written] at ih
      obtain ⟨⟨rest, whole⟩, complete, only⟩ := ih
      have split := List.take_append_drop (room : Nat) (byte :: bytes)
      refine ⟨⟨rest, ?_⟩, fun succeeded => ?_, only.cons _⟩
      · change (byte :: bytes).take room ++ bytesWritten calls ++ rest = byte :: bytes
        rw [List.append_assoc, whole, split]
      · change (byte :: bytes).take room ++ bytesWritten calls = byte :: bytes
        rw [complete succeeded, split]
  | case4 byte bytes error writes interrupted ih => exact ih
  | case5 byte bytes error writes failed => exact ⟨List.nil_prefix, nofun, .nil⟩

/-! ## Writing -/

/-- The bytes that a response still stands for. -/
def IncrementalResponse.remaining (order : HeaderOrder) :
    IncrementalResponse → Outcome Error Bytes
  | .struct response => writeResponse order response
  | .bytes held => .ok held
  | .done => .ok []

/-- There are always bytes that remain to be written, if none. -/
theorem IncrementalResponse.exists_remaining (order : HeaderOrder)
    (response : IncrementalResponse) : ∃ bytes, response.remaining order = .ok bytes := by
  cases response with
  | struct response => exact exists_writeResponse order response
  | bytes bytes => exact ⟨bytes, rfl⟩
  | done => exact ⟨[], rfl⟩

/-- What the loop writes is what remains. -/
theorem writeLoop_eq {order : HeaderOrder} {response : IncrementalResponse} {bytes : Bytes}
    (remaining : response.remaining order = .ok bytes) (writes : List (Except IoError ℕ+)) :
    writeLoop order response writes = writeBytes bytes writes := by
  cases response with
  | struct response =>
      rw [IncrementalResponse.remaining] at remaining
      rw [writeLoop, remaining]
  | bytes bytes =>
      cases remaining
      rfl
  | done =>
      cases remaining
      unfold writeBytes
      rfl

namespace Connection

variable {token : Token} {connection : Connection} {event : Event} {world : World chrono}
  {response : IncrementalResponse}

/-- Before the stream is writable, nothing happens to a connection that is writing. -/
theorem deliver_cons_unwritable (writing : connection.connectionState = .write response)
    (unwritable : event.isWritable = false) (events : List (Event × World chrono)) :
    connection.deliver token ((event, world) :: events) = connection.deliver token events := by
  have unchanged : handleStreamEvent event world token connection =
      (.ok (.tcpStream connection, []), []) := by
    rw [handleStreamEvent, writing]
    dsimp only
    rw [unwritable, if_neg Bool.false_ne_true]
  rw [deliver, unchanged]
  rfl

/-- An event of a writable stream has the loop write what is held. -/
theorem deliver_cons_writable (writing : connection.connectionState = .write response)
    (writable : event.isWritable = true) {bytes : Bytes}
    (remaining : response.remaining world.headerOrder = .ok bytes)
    (events : List (Event × World chrono)) :
    connection.deliver token ((event, world) :: events) =
      match writeBytes bytes connection.stream.writes with
      | (.suspended held, writes, calls) =>
          let (status, more) := deliver token { connection with
            stream := { connection.stream with writes }, connectionState := .write (.bytes held) }
            events
          (status, calls ++ more)
      | (.done, writes, calls) =>
          (.closing { connection with
            stream := { connection.stream with writes }, connectionState := .close }, calls)
      | (.failed _, _, calls) => (.dropped, calls)
      | (.aborted, _, calls) => (.dropped, calls) := by
  rw [deliver, handleStreamEvent, writing]
  dsimp only
  rw [if_pos writable, writeResponse, writeLoop_eq remaining]
  cases written : writeBytes bytes connection.stream.writes with
  | mk ending left =>
      obtain ⟨writes, calls⟩ := left
      cases ending with
      | suspended held => rfl
      | done =>
          exact if_pos (requestsClose_closeSource token)
      | failed error => rfl
      | aborted => rfl

/-- What has been written and what is held make up some bytes. When the close is requested,
nothing is held. -/
def Delivered (whole : Bytes) (calls : List Call) : ConnectionStatus → Prop
  | .opened connection => ∃ held, connection.connectionState = .write (.bytes held) ∧
      bytesWritten calls ++ held = whole
  | .closing _ => bytesWritten calls = whole
  | .dropped => bytesWritten calls <+: whole

/-- What is written later is written from what has been held. -/
theorem Delivered.append {whole : Bytes} {calls more : List Call} {held : Bytes}
    (before : bytesWritten calls ++ held = whole) {status : ConnectionStatus}
    (after : Delivered held more status) : Delivered whole (calls ++ more) status := by
  cases status with
  | opened connection =>
      obtain ⟨held', state, accounts⟩ := after
      refine ⟨held', state, ?_⟩
      rw [bytesWritten_append, List.append_assoc, accounts, before]
  | closing connection =>
      change bytesWritten (calls ++ more) = whole
      rw [bytesWritten_append, after, before]
  | dropped =>
      obtain ⟨rest, accounts⟩ := after
      refine ⟨rest, ?_⟩
      rw [bytesWritten_append, List.append_assoc, accounts, before]

/-- One writable event delivers some of the bytes that remain, and later ones the rest. -/
theorem delivered_cons (writing : connection.connectionState = .write response)
    (writable : event.isWritable = true) {bytes : Bytes}
    (remaining : response.remaining world.headerOrder = .ok bytes)
    {events : List (Event × World chrono)}
    (later : ∀ (connection : Connection) held, connection.connectionState = .write (.bytes held) →
      Delivered held (connection.deliver token events).2 (connection.deliver token events).1) :
    Delivered bytes (connection.deliver token ((event, world) :: events)).2
      (connection.deliver token ((event, world) :: events)).1 := by
  have accounts := (writeBytes_accounts bytes connection.stream.writes).1
  rw [deliver_cons_writable writing writable remaining]
  cases written : writeBytes bytes connection.stream.writes with
  | mk ending left =>
      obtain ⟨writes, calls⟩ := left
      rw [written] at accounts
      cases ending with
      | suspended held => exact Delivered.append accounts (later _ held rfl)
      | done => exact accounts
      | failed error => exact accounts
      | aborted => exact accounts.elim

/-- What a connection holds is delivered, by induction on the events. -/
private theorem deliver_bytes (token : Token) (events : List (Event × World chrono))
    (connection : Connection) (held : Bytes)
    (writing : connection.connectionState = .write (.bytes held)) :
    Delivered held (connection.deliver token events).2 (connection.deliver token events).1 := by
  induction events generalizing connection held with
  | nil => exact ⟨held, writing, rfl⟩
  | cons first events ih =>
      obtain ⟨event, world⟩ := first
      cases writable : event.isWritable with
      | false =>
          rw [deliver_cons_unwritable writing writable]
          exact ih connection held writing
      | true => exact delivered_cons writing writable rfl ih

end Connection

/-- **Delivery.** From the first event on which the stream is writable, what has been
written of a response and what is held are together the bytes of `write_response`, and
all of them have been written when the close is requested. They are what `write_all`
writes. -/
theorem deliver_response (token : Token) (stream : TcpStream) (response : Response)
    (requestHandler : Host) (acceptTime : Instant) (events : List (Event × World chrono)) :
    let connection : Connection :=
      { stream, connectionState := .write (.struct response), requestHandler, acceptTime }
    let (status, calls) := connection.deliver token events
    match events.find? fun (event, _) => event.isWritable with
    | none => status = .opened connection ∧ calls = []
    | some (_, world) => ∃ whole, writeResponse world.headerOrder response = .ok whole ∧
        Connection.Delivered whole calls status ∧
        ∀ writes sent, Seq.writeAll whole writes = (some (.ok ()), sent) →
          bytesWritten sent = whole := by
  intro connection
  dsimp only
  induction events with
  | nil => exact ⟨rfl, rfl⟩
  | cons first events ih =>
      obtain ⟨event, world⟩ := first
      cases writable : event.isWritable with
      | false =>
          rw [List.find?_cons, writable, Connection.deliver_cons_unwritable rfl writable]
          exact ih
      | true =>
          rw [List.find?_cons, writable]
          obtain ⟨whole, written⟩ := exists_writeResponse world.headerOrder response
          have remaining : (IncrementalResponse.struct response).remaining world.headerOrder =
              .ok whole := written
          refine ⟨whole, written, ?_, fun writes sent succeeded => ?_⟩
          · exact Connection.delivered_cons rfl writable remaining
              (Connection.deliver_bytes token events)
          · have accounts := Seq.writeAll_accounts whole writes
            rw [succeeded] at accounts
            exact accounts.2.1 rfl

end RustHttpServer
