import RustHttpServer.Host.Payload
import RustHttpServer.Select.Service

/-!
# What a client receives for its request

A client writes a request, in chunks that end between characters, and takes from the bytes that
come back what their head says. When `process` has answered, or the event loop has closed the
connection, it has received what the rules for its request determine: the content in
full if it is long, with a line break behind it if it is short, nothing that is complete if it is
empty (`process_delivers`, `loop_delivers`).
-/

namespace RustHttpServer

open Foundation Utf8

variable {chrono : Chrono}

/-! ### What arrives of a body -/

/-- What arrives of a body whose length is given with that of a line break: the body as it is when
that selects the chunked coding, or else with a line break behind it. There is none behind the empty
body, whose two bytes never come. -/
def delivered (body : Text) : Option Bytes :=
  if 1022 < byteLength body then some (encode body)
  else if body = [] then none
  else some (encode body ++ lineBreak)

/-- What arrives of a response from a source. A script that announces the chunked coding itself
is taken at its word, although a short body is not written in it. -/
def Source.received : Source → Option Bytes
  | .nothing => some []
  | .file content => delivered content
  | .script headers body =>
      if byteLength body ≤ 1022 ∧
          (headers.lookup .transferEncoding).map Text.trim = some "chunked".toList then
        (readChunks (plainBytes body)).map Prod.fst
      else delivered body

/-- A short body that is taken by the length that is given. -/
theorem take_plainBytes_eq_delivered {body : Text} (short : byteLength body ≤ 1022) :
    (if byteLength body + 2 ≤ (plainBytes body).length then
      some ((plainBytes body).take (byteLength body + 2)) else none) = delivered body := by
  rw [delivered, if_neg short.not_gt]
  by_cases empty : body = []
  · rw [if_pos empty, plainBytes, if_pos empty]
    exact if_neg (Nat.not_succ_le_zero _)
  · have whole : (encode body ++ lineBreak).length = byteLength body + 2 := by
      rw [List.length_append, length_encode]
      rfl
    rw [if_neg empty, plainBytes, if_neg empty, if_pos whole.ge, ← whole, List.take_length]

/-- What a client receives is what arrives of a response from its source. -/
theorem Source.Answers.payload_eq {source : Source} {response : Response}
    (answers : source.Answers response) (order : HeaderOrder) {bytes : Bytes}
    (written : writeResponse order response = .ok bytes) : payload bytes = source.received := by
  rw [payload_writeResponse order answers.oneLine answers.length written, answers.encoding,
    answers.body]
  cases source with
  | nothing => rfl
  | file content =>
      by_cases large : 1022 < byteLength content
      · rw [Source.length, if_pos (by omega)]
        exact (if_pos large).symm
      · rw [Source.length, if_neg (by omega), Source.encoding,
          Option.map_none, if_neg (Option.some_ne_none _).symm]
        exact take_plainBytes_eq_delivered (Nat.not_lt.mp large)
  | script headers body =>
      by_cases large : 1022 < byteLength body
      · rw [Source.length, if_pos (by omega), Source.received,
          if_neg fun short => short.1.not_gt large]
        exact (if_pos large).symm
      · rw [Source.length, if_neg (by omega), Source.received, Source.encoding]
        simp only [Nat.not_lt.mp large, true_and]
        split
        · rfl
        · exact take_plainBytes_eq_delivered (Nat.not_lt.mp large)

/-! ### From end to end -/

/-- **What `process` delivers.** A request comes in on a connection, whatever the host has
in its cache. When `process` has returned, the client has received what arrives of a response from
the source of exactly this request. -/
theorem process_delivers (printsUtc : chrono.PrintsUtc) (requestHandler : Host)
    {arrival : Arrival chrono} {written : RequestText} {addr : SocketAddr}
    (brings : Brings arrival written addr)
    (returned : requestHandler.outcome arrival = some (.ok ())) :
    payload (bytesWritten (requestHandler.calls arrival)) =
      (requestHandler.source arrival.world (written.handed addr)).received := by
  rcases answered_of_brings requestHandler brings with
    ⟨-, aborted⟩ | ⟨response, bytes, handled, -, encoded, -, whole, -⟩
  · rw [returned] at aborted
    cases aborted
  · have answers := handle_answers printsUtc requestHandler arrival.world (written.handed addr)
      arrival.overloaded (Prod.ext handled rfl)
    rw [whole returned]
    exact answers.payload_eq _ encoded

/-- The page arrives with a line break behind it. -/
theorem process_delivers_page : payload (bytesWritten (Site.host.calls Site.visitor)) =
    some (encode "hi\r\n".toList) := by
  have returned : Site.host.outcome Site.visitor = some (.ok ()) := by
    decide +kernel
  have received : (Site.host.source Site.world (Site.get "/page.txt")).received =
      some (encode "hi\r\n".toList) := by
    decide +kernel
  exact (process_delivers gregorian_printsUtc Site.host Site.brings returned).trans received

/-- **What the event loop delivers.** A request comes in on a connection that has just been
accepted, no read or write fails but that it would block, and the loop is told often enough that
there is something to read. When the connection is gone, the client has received what arrives of a
response from the source of exactly this request, of a new host, in a world in which the loop was
told of an event of the connection. -/
theorem loop_delivers (printsUtc : chrono.PrintsUtc) {serverConfig : ServerConfig}
    {loop after : EventLoop} (reachable : (selectSystem chrono serverConfig).Reachable loop)
    {token : Token} {stream : TcpStream} {acceptTime : Instant}
    (found : loop.eventSources.lookup token =
      some (.tcpStream (.opened serverConfig (stream, acceptTime))))
    {written : RequestText} {addr : SocketAddr} (carries : stream.Carries written addr)
    {steps : List (EventLoop × Turn chrono)}
    (run : ((distinctSystem chrono).onward loop).Run steps after)
    (heard : suspensions stream.reads < readables (eventsOf token steps))
    (gone : token ∉ after.eventSources) : ∃ world ∈ worldsOf token steps,
      payload (bytesWritten (callsOf token after.log)) =
        ((Host.fresh serverConfig).source world (written.handed addr)).received := by
  cases serving_of_run reachable found carries run with
  | waits _ waiting _ => exact absurd heard waiting.not_gt
  | @responds exchange order bytes own made encoded _ all =>
      obtain ⟨handler, accesses, handled⟩ := made.plain
      have answers := handle_answers printsUtc (Host.fresh serverConfig) exchange.world
        exchange.request exchange.overloaded handled
      refine ⟨exchange.world, made.known, ?_⟩
      rw [all gone, ← own]
      exact answers.payload_eq order encoded

/-- The page arrives from the loop with a line break behind it. -/
theorem loop_delivers_page : payload (bytesWritten (callsOf 2 Site.responded.log)) =
    some (encode "hi\r\n".toList) := by
  have gone : 2 ∉ Site.responded.eventSources := by
    decide +kernel
  have received : ((Host.fresh Site.serverConfig).source Site.world
      (RequestText.page.handed "127.0.0.1:4000".toList)).received =
      some (encode "hi\r\n".toList) := by
    decide +kernel
  obtain ⟨world, known, delivered⟩ := loop_delivers gregorian_printsUtc
    Site.run_accepted.reachable Site.lookup_accepted Site.carries Site.run_turns (by decide) gone
  rw [delivered, Site.worldsOf_turns known]
  exact received

end RustHttpServer
