import RustHttpServer.Select.Cuts
import RustHttpServer.Seq.Processing

/-!
# Requests on their way through `process`

A client that writes a request, and whose bytes come in chunks that end between characters,
is answered by the handler for exactly this request, or not at all where the handler panics
(`request_answered`). What it has written behind the question mark and as the body reaches a script
as it is (`script_called`).
-/

namespace RustHttpServer

open Foundation Utf8

variable {chrono : Chrono}

namespace RequestText

/-- The request that is handed on for what is written. -/
def parsed (written : RequestText) : RequestNoRemote :=
  ⟨⟨written.line.requestLine, insertAll ∅ written.headers⟩, written.body⟩

/-- The request as it is handed to the handler. -/
def handed (written : RequestText) (addr : SocketAddr) : Request :=
  Request.fromNoRemote written.parsed addr

private theorem Describes.eq_parsed {written : RequestText} {request : RequestNoRemote}
    (describes : written.Describes request) : request = written.parsed := by
  obtain ⟨⟨requestLine, headerLines⟩, body⟩ := request
  obtain ⟨sameLine, values, sameBody⟩ := describes
  dsimp only at sameLine values sameBody
  rw [sameLine, sameBody, eq_insertAll values]
  rfl

end RequestText

/-- A request comes in on a connection, in chunks that end between characters. What the client
sends behind it makes no difference. -/
structure Brings (arrival : Arrival chrono) (written : RequestText) (addr : SocketAddr) : Prop where
  chunks : ∃ (texts : List Text) (more : List (Except IoError Bytes)),
    (∀ text ∈ texts, text ≠ []) ∧ texts.flatten = written.text ∧
      arrival.stream.reads = inOneGo (texts.map encode) ++ more
  peer : arrival.stream.peerAddr = .ok addr

/-- The connection takes some bytes, in pieces of any size. -/
def TcpStream.Takes (stream : TcpStream) (bytes : Bytes) : Prop :=
  ∃ rooms : List ℕ+, stream.writes = rooms.map .ok ∧ bytes.length ≤ (rooms.map PNat.val).sum

namespace Seq

/-- What has ended the loop that reads the request, ends it whatever comes behind. -/
theorem readLoop_append_of_ended {state : IncrementalRequest}
    {reads : List (Except IoError Bytes)} (ended : (readLoop state reads).1 ≠ .waiting)
    (more : List (Except IoError Bytes)) :
    readLoop state (reads ++ more) = readLoop state reads := by
  fun_induction readLoop state reads with
  | case1 state => exact absurd rfl ended
  | case2 state error reads => rfl
  | case3 state bytes reads some invalid undecodable =>
      rw [List.cons_append, readLoop, if_pos some, undecodable]
  | case4 state bytes reads some decoded text calls next result full =>
      rw [List.cons_append, readLoop, if_pos some, text]
      simp only [result, if_pos full, calls]
  | case5 state bytes reads some decoded text calls next result waiting ending left looped ih =>
      rw [looped] at ih
      rw [List.cons_append, readLoop, if_pos some, text]
      simp only [result, if_neg waiting, ih ended, calls]
  | case6 state bytes reads some decoded text calls error result =>
      rw [List.cons_append, readLoop, if_pos some, text]
      simp only [result, calls]
  | case7 state bytes reads some decoded text calls result =>
      rw [List.cons_append, readLoop, if_pos some, text]
      simp only [result, calls]
  | case8 state bytes reads none =>
      rw [List.cons_append, readLoop, if_neg none]

/-- All is written where there is room for it. -/
theorem writeAll_of_room (bytes : Bytes) (rooms : List ℕ+)
    (enough : bytes.length ≤ (rooms.map PNat.val).sum) :
    (writeAll bytes (rooms.map .ok)).1 = some (.ok ()) := by
  induction rooms generalizing bytes with
  | nil =>
      obtain rfl := List.eq_nil_of_length_eq_zero (Nat.le_zero.mp enough)
      rw [writeAll]
  | cons room rooms ih =>
      cases bytes with
      | nil => rw [writeAll]
      | cons byte bytes =>
          rw [List.map_cons, writeAll]
          apply ih
          rw [List.length_drop]
          rw [List.map_cons, List.sum_cons] at enough
          omega

end Seq

variable {requestHandler : Host} {arrival : Arrival chrono} {written : RequestText}
  {addr : SocketAddr}

/-- A request that comes in chunks of its text is read as it is written. -/
theorem readLoop_texts {texts : List Text} (nonempty : ∀ bytes ∈ texts.map encode, bytes ≠ [])
    (whole : texts.flatten = written.text) : ∃ calls,
    readLoop (.none []) (inOneGo (texts.map encode)) =
      (.done (.fullRequest written.parsed), [], calls) := by
  have flat : (texts.map encode).flatten = encode written.text := by
    rw [← encode_flatten, whole]
  rcases readLoop_cases nonempty flat with ⟨-, parsed, calls, done, describes⟩ | ⟨cut, -⟩
  · exact ⟨calls, describes.eq_parsed ▸ done⟩
  · exact absurd ⟨texts, rfl⟩ cut

/-- The loop that reads the request ends with the one that is written. -/
theorem readLoop_of_brings (brings : Brings arrival written addr) : ∃ calls,
    Seq.readLoop (.none []) arrival.stream.reads =
      (.done (.fullRequest written.parsed), calls) := by
  obtain ⟨⟨texts, more, nonempty, whole, reads⟩, -⟩ := brings
  have nonempty' : ∀ bytes ∈ texts.map encode, bytes ≠ [] := by
    rintro bytes inside rfl
    obtain ⟨text, member, none⟩ := List.mem_map.mp inside
    exact nonempty text member (encode_injective (none.trans encode_nil.symm))
  have agrees : Agrees (Seq.readLoop (.none []) (inOneGo (texts.map encode)))
      (readLoop (.none []) (inOneGo (texts.map encode))) :=
    readLoop_agrees (texts.map encode) nonempty' ⟨[], rfl⟩ rfl
  obtain ⟨calls, done⟩ := readLoop_texts nonempty' whole
  rw [done] at agrees
  obtain ⟨same, -⟩ := agrees
  have ended : (Seq.readLoop (.none []) (inOneGo (texts.map encode))).1 ≠ .waiting := by
    rw [same]
    exact nofun
  exact ⟨calls, by rw [reads, Seq.readLoop_append_of_ended ended, same]⟩

/-- The request that is written is the one that is handed on. -/
theorem requestsHandled_of_brings (brings : Brings arrival written addr) :
    requestsHandled (requestHandler.calls arrival) = [written.handed addr] := by
  obtain ⟨calls, done⟩ := readLoop_of_brings brings
  have silent := (Seq.readLoop_silent (.none []) arrival.stream.reads).1
  have passed := (Seq.respond_handedOn requestHandler arrival.world arrival.stream
    arrival.overloaded written.parsed).2
  rw [done] at silent
  rw [Host.calls, Seq.process, done]
  dsimp only
  rw [requestsHandled_append, silent.requestsHandled, List.nil_append, passed,
    brings.peer]
  rfl

/-- Unless the handler panics over what is written, its response goes out, all of it when
`process` returns. -/
theorem answered_of_brings (requestHandler : Host) (brings : Brings arrival written addr) :
    ((requestHandler.handle arrival.world (written.handed addr) arrival.overloaded).1 = .abort ∧
        requestHandler.outcome arrival = some .abort) ∨
      ∃ response bytes,
        (requestHandler.handle arrival.world (written.handed addr) arrival.overloaded).1 =
            .ok response ∧
          requestHandler.outcome arrival ≠ some .abort ∧
          writeResponse arrival.world.headerOrder response = .ok bytes ∧
          bytesWritten (requestHandler.calls arrival) <+: bytes ∧
          (requestHandler.outcome arrival = some (.ok ()) →
            bytesWritten (requestHandler.calls arrival) = bytes) ∧
          (arrival.stream.Takes bytes → requestHandler.outcome arrival = some (.ok ())) := by
  have handed := @requestsHandled_of_brings _ requestHandler _ _ _ brings
  have processes := processes_process requestHandler arrival
  generalize requestHandler.outcome arrival = outcome at processes
  generalize requestHandler.calls arrival = calls at processes handed
  have loud : ¬Silent calls := by
    intro silent
    rw [silent.requestsHandled] at handed
    cases handed
  cases processes with
  | waits silent quiet => exact absurd silent loud
  | fails error silent quiet => exact absurd silent loud
  | aborts silent aborts => exact absurd silent loud
  | @panics before request silent quiet panicked =>
      rw [silent.requestsHandled_handle .nil] at handed
      cases handed
      exact .inl ⟨panicked, rfl⟩
  | @answers before request response bytes silent quiet handled written' =>
      obtain ⟨front, whole, only⟩ := Seq.writeAll_accounts bytes arrival.stream.writes
      rw [silent.requestsHandled_handle only] at handed
      cases handed
      refine .inr ⟨response, bytes, handled, Seq.writeAll_ne_abort bytes _, written', ?_⟩
      rw [silent.bytesWritten_handle]
      refine ⟨front, whole, ?_⟩
      rintro ⟨rooms, room, enough⟩
      rw [room]
      exact Seq.writeAll_of_room bytes rooms enough

/-- A request that comes in is served with what the handler leaves. -/
theorem serve_of_brings (requestHandler : Host) (brings : Brings arrival written addr) :
    requestHandler.serve arrival = (requestHandler.handle arrival.world
      (written.handed addr) arrival.overloaded).2.1 := by
  rw [Host.serve, requestsHandled_of_brings brings]
  rfl

/-- A request for the page of the site. -/
def RequestText.page : RequestText :=
  { accented with
    line := { accented.line with
      target := "/page.txt".toList
      target_noSpace := by decide }
    line_noBreak := by decide }

/-- The request for the page on a connection that takes a response. -/
def Site.visitor : Arrival gregorian where
  world := world
  stream := {
    reads := inOneGo [encode RequestText.page.text]
    writes := [.ok 1000]
    peerAddr := .ok "127.0.0.1:4000".toList }
  overloaded := false

/-- The visitor brings the request for the page. -/
theorem Site.brings : Brings Site.visitor RequestText.page "127.0.0.1:4000".toList where
  chunks := ⟨[RequestText.page.text], [], by decide, List.append_nil _, rfl⟩
  peer := rfl

/-- The response for what a script has come to. -/
def Cgi.answer (run : CgiRun) : Response :=
  match Cgi.outputText run >>= processCgiOutput with
  | .ok (headers, body) => scriptResponse headers body
  | _ => errorResponse .internalServerError

/-- A script has its variables from the request as it is written. -/
theorem environment_handed (written : RequestText) (addr : SocketAddr)
    (serverName serverPort : Text) :
    let envs := Cgi.environment (written.handed addr) serverName serverPort
    envs.lookup "QUERY_STRING".toList = some (written.line.target.dropWhile (· ≠ '?')).tail ∧
      envs.lookup "REMOTE_ADDR".toList = some addr ∧
      envs.lookup "REQUEST_METHOD".toList = some written.line.method.toText ∧
      envs.lookup "SERVER_NAME".toList = some serverName ∧
      envs.lookup "SERVER_PORT".toList = some serverPort := by
  have last : ∀ {key : Text} (map : HashMap Text Text) (value : Text),
      (map.insert key value).lookup key = some value := fun map value => Finmap.lookup_insert map
  have other : ∀ {key name : Text} (map : HashMap Text Text) (value : Text), key ≠ name →
      (map.insert name value).lookup key = map.lookup key :=
    fun map value different => Finmap.lookup_insert_of_ne map different
  intro envs
  simp only [envs, Cgi.environment, List.foldl_cons, List.foldl_nil]
  refine ⟨?_, ?_, ?_, ?_, ?_⟩
  · simp (disch := decide) only [other, last]
    rfl
  · simp (disch := decide) only [other, last]
    rfl
  · simp (disch := decide) only [other, last]
    rfl
  · simp (disch := decide) only [other, last]
  · simp (disch := decide) only [other, last]

/-- What a script has come to is what the call of it returns. -/
theorem Cgi.handle_eq {cgi : Cgi} {world : World chrono} {path : Path} {request : Request}
    {virtualHost : VirtualHost} {serverPort serverName : Text} (session : Session)
    (port : cgi.serverConfig.directives.lookup .listenPort = some serverPort)
    (name : virtualHost.directives.lookup .serverName = some serverName) :
    cgi.handle world path request virtualHost session =
      (match outputText (world.cgi {
            path
            envs := environment request serverName serverPort
            stdin := encode request.body }) >>= processCgiOutput with
        | .ok (headers, body) => .ok (scriptResponse headers body)
        | .err error => .err ⟨.internalServerError, some error.message⟩
        | .abort => .abort,
      session.record (.execute path)) := by
  rw [Cgi.handle, Stateful.lift_bind_apply, port]
  dsimp only [Outcome.okOr]
  rw [Stateful.lift_bind_apply, name]
  dsimp only
  rw [Stateful.modify_bind_apply, Stateful.lift_bind_apply]
  cases outputText (world.cgi _) >>= processCgiOutput with
  | ok output => rfl
  | err error => rfl
  | abort => rfl

/-- An error is answered with its status. -/
theorem handle_of_error {host : Host} {world : World chrono} {request : Request}
    {overloaded : Bool} {error : HttpError} {after : Session} {now : Text}
    (failed : host.handleResult world request overloaded ⟨host.files, []⟩ = (.err error, after))
    (printed : (to1123 chrono world.now : Outcome Error Text) = .ok now) :
    host.handle world request overloaded =
      (.ok (Host.finish now (errorResponse error.status)), { host with files := after.files },
        after.accesses) := by
  have whole : host.handleWith world request overloaded ⟨host.files, []⟩ =
      (.ok (Host.finish now (errorResponse error.status)), after) := by
    refine Stateful.bind_apply_eq_ok_iff.mpr ⟨errorResponse error.status, after, ?_, ?_⟩
    · exact Stateful.recover_apply_eq_ok_iff.mpr (.inr ⟨error, failed, rfl⟩)
    · exact Stateful.lift_bind_apply_eq_ok_iff.mpr ⟨now, printed, rfl⟩
  rw [Host.handle, whole]

/-- Where a script is called, its output is answered, and nothing else is done. -/
theorem handle_of_script (printsUtc : chrono.PrintsUtc) {host : Host} {world : World chrono}
    {request : Request} {path : Path} {virtualHost : VirtualHost} {serverPort serverName : Text}
    (led : host.work world request = some (.script path virtualHost))
    (port : host.cgi.serverConfig.directives.lookup .listenPort = some serverPort)
    (name : virtualHost.directives.lookup .serverName = some serverName) (overloaded : Bool) :
    ∃ now, host.handle world request overloaded =
      (.ok (Host.finish now (Cgi.answer (world.cgi {
          path
          envs := Cgi.environment request serverName serverPort
          stdin := encode request.body }))),
        host, [.execute path]) := by
  obtain ⟨now, stamped, -⟩ := @to1123_eq _ printsUtc Error world.now
  have resulted : host.handleResult world request overloaded ⟨host.files, []⟩ =
      host.cgi.handle world path request virtualHost ⟨host.files, []⟩ :=
    Host.handleResult_of_work led overloaded _
  rw [Cgi.handle_eq _ port name] at resulted
  refine ⟨now ++ " GMT".toList, ?_⟩
  unfold Cgi.answer
  cases ran : Cgi.outputText (world.cgi _) >>= processCgiOutput with
  | ok output =>
      rw [ran] at resulted
      exact handle_of_handleResult resulted stamped
  | err error =>
      rw [ran] at resulted
      exact handle_of_error resulted stamped
  | abort =>
      exact absurd ran ((Host.outputText_returns _).bind Host.processCgiOutput_returns)

/-- **Scripts get what the client has written.** A script that a written request leads to is called
once, with the text behind the question mark of the target, the method and the address of the
client in its variables and the body as its input, all of it as it is written. What it comes to
is answered, and the cache is left as it is. -/
theorem script_called (printsUtc : chrono.PrintsUtc) {host : Host}
    (brings : Brings arrival written addr) {path : Path} {virtualHost : VirtualHost}
    {serverPort serverName : Text}
    (led : host.work arrival.world (written.handed addr) = some (.script path virtualHost))
    (port : host.cgi.serverConfig.directives.lookup .listenPort = some serverPort)
    (name : virtualHost.directives.lookup .serverName = some serverName) : ∃ envs now bytes,
    host.handle arrival.world (written.handed addr) arrival.overloaded =
        (.ok (Host.finish now (Cgi.answer (arrival.world.cgi
          { path, envs, stdin := encode written.body }))), host, [.execute path]) ∧
      (envs.lookup "QUERY_STRING".toList = some (written.line.target.dropWhile (· ≠ '?')).tail ∧
        envs.lookup "REMOTE_ADDR".toList = some addr ∧
        envs.lookup "REQUEST_METHOD".toList = some written.line.method.toText ∧
        envs.lookup "SERVER_NAME".toList = some serverName ∧
        envs.lookup "SERVER_PORT".toList = some serverPort) ∧
      requestsHandled (host.calls arrival) = [written.handed addr] ∧ host.serve arrival = host ∧
      writeResponse arrival.world.headerOrder (Host.finish now (Cgi.answer (arrival.world.cgi
        { path, envs, stdin := encode written.body }))) = .ok bytes ∧
      bytesWritten (host.calls arrival) <+: bytes ∧
      (arrival.stream.Takes bytes → host.outcome arrival = some (.ok ()) ∧
        bytesWritten (host.calls arrival) = bytes) := by
  obtain ⟨now, called⟩ := handle_of_script printsUtc led port name arrival.overloaded
  have served := serve_of_brings host brings
  rcases answered_of_brings host brings with
    ⟨panicked, -⟩ | ⟨response, bytes, handled, -, written', front, whole, takes⟩
  · rw [called] at panicked
    cases panicked
  · rw [called] at handled served
    cases handled
    exact ⟨_, now, bytes, called, environment_handed written addr serverName serverPort,
      requestsHandled_of_brings brings, served, written', front, fun room =>
        ⟨takes room, whole (takes room)⟩⟩

/-- A form that is sent to the page of the site. -/
def RequestText.form : RequestText where
  line := { accented.line with
    method := .post
    target := "/page.txt?copies=2".toList
    target_noSpace := by decide }
  headers := accented.headers ++ [⟨"Content-Length".toList, " 4".toList, by decide, by decide⟩]
  body := "paid".toList
  line_noBreak := by decide
  headers_nonempty := List.append_ne_nil_of_left_ne_nil accented.headers_nonempty _
  body_length := by rfl

/-- The form on its way to a script that writes its input back. -/
def Site.customer : Arrival gregorian where
  world := { world with
    cgi := fun call => .finished (encode "Content-Type: text/plain\n\n".toList ++ call.stdin) }
  stream := {
    reads := inOneGo [encode RequestText.form.text]
    writes := [.ok 1000]
    peerAddr := .ok "127.0.0.1:4000".toList }
  overloaded := false

private theorem Site.brings_form :
    Brings Site.customer RequestText.form "127.0.0.1:4000".toList where
  chunks := ⟨[RequestText.form.text], [], by decide, List.append_nil _, rfl⟩
  peer := rfl

/-- The form leads to a script at the page. -/
theorem Site.work_form : Site.host.work Site.customer.world
    (RequestText.form.handed "127.0.0.1:4000".toList) =
      some (.script Site.page Site.virtualHost) := by decide +kernel

/-- What the customer has paid goes to the script, and the copies that are asked for. -/
theorem script_called_form : ∃ envs now bytes,
    envs.lookup "QUERY_STRING".toList = some "copies=2".toList ∧
    writeResponse Site.headerOrder (Host.finish now (Cgi.answer (Site.customer.world.cgi
      { path := Site.page, envs, stdin := encode "paid".toList }))) = .ok bytes ∧
    bytesWritten (Site.host.calls Site.customer) <+: bytes := by
  obtain ⟨envs, now, bytes, -, ⟨query, -⟩, -, -, written, front, -⟩ := script_called
    gregorian_printsUtc Site.brings_form Site.work_form rfl rfl
  exact ⟨envs, now, bytes, query, written, front⟩

end RustHttpServer
