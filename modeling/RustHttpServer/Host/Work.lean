import RustHttpServer.Host.Answer
import RustHttpServer.Http.Decoding

/-!
# The work for a request

Handling a request comes down to the work that the request leads to: running a script
or serving a file (`handleResult_of_work`). Everything else is answered with a status
and nothing more (`handleResult_of_no_work`).
-/

namespace RustHttpServer

open Foundation Utf8 Stateful

variable {chrono : Chrono}

namespace Host

/-- A host that has not read a file yet. -/
def fresh (serverConfig : ServerConfig) : Host :=
  { serverConfig, cgi := { serverConfig }, files := { cache := ∅ } }

/-- A new host is fresh, unless the size of its cache is out of range. -/
theorem new_cases (ε : Type) (serverConfig : ServerConfig) :
    (new serverConfig : Outcome ε Host) = .ok (fresh serverConfig) ∨
      (new serverConfig : Outcome ε Host) = .abort := by
  unfold new Files.new
  split
  · exact .inl rfl
  · exact .inr rfl

/-- What `Host::new` returns is the fresh host. -/
theorem eq_fresh_of_new {ε : Type} {serverConfig : ServerConfig} {host : Host}
    (made : (new serverConfig : Outcome ε Host) = .ok host) : host = fresh serverConfig := by
  rcases new_cases ε serverConfig with fresh | aborted
  · exact Outcome.ok.inj (made.symm.trans fresh)
  · cases made.symm.trans aborted

/-- The part of `handle_get` that serves a file, unless the client has it. -/
def serveFile (world : World chrono) (request : Request) (path : Path) :
    Stateful Session HttpError Response :=
  match request.header.headerLines.lookup .ifModifiedSince with
  | some since => do
      let modSince ← Stateful.lift (modifiedSinceDate world path since)
      if modSince then Files.getContent world path else return notModified
  | none => Files.getContent world path

/-- What `handle_result` does for a request, once its path has been resolved. -/
def perform (host : Host) (world : World chrono) (request : Request) :
    Work → Stateful Session HttpError Response
  | .script path virtualHost => host.cgi.handle world path request virtualHost
  | .file path => serveFile world request path

/-- A result that touches nothing and, if it is a response, consists of a status only. -/
def Bare (result : Outcome HttpError Response × Session) (session : Session) : Prop :=
  result.2 = session ∧ ∀ response, result.1 = .ok response →
    ∃ statusCode, response = errorResponse statusCode

/-- A result is that of the work, or bare if there is no work. -/
def Performed (host : Host) (world : World chrono) (request : Request) (session : Session)
    (result : Outcome HttpError Response × Session) : Option Work → Prop
  | some work => result = host.perform world request work session
  | none => Bare result session

variable {host : Host} {world : World chrono} {request : Request} {session : Session}

private theorem bare_err (error : HttpError) : Bare (.err error, session) session := by
  refine ⟨rfl, fun response returned => ?_⟩
  cases returned

private theorem bare_abort : Bare (.abort, session) session := by
  refine ⟨rfl, fun response returned => ?_⟩
  cases returned

/-- A GET is handled by doing the work that it leads to. -/
private theorem performed_handleGet (requestTarget : RequestTarget) (virtualHost : VirtualHost) :
    Performed host world request session
      (host.handleGet world requestTarget request virtualHost session)
      (workOfGet world requestTarget request virtualHost) := by
  unfold handleGet workOfGet
  rw [lift_bind_apply]
  cases contentNegotiation world requestTarget request.header.headerLines with
  | err error => exact bare_err error
  | abort => exact bare_abort
  | ok negotiated =>
      obtain ⟨path, metadata⟩ := negotiated
      dsimp only [Outcome.toOption_ok, Option.bind_eq_bind, Option.bind_some]
      by_cases directory : metadata.isDir
      · rw [if_pos directory, if_pos directory]
        exact bare_err _
      · rw [if_neg directory, if_neg directory]
        by_cases executable : isExecutable metadata
        · rw [if_pos executable, if_pos executable]
          rfl
        · rw [if_neg executable, if_neg executable]
          rfl

/-- A request is handled by doing the work that it leads to. -/
private theorem performed_handleResult (overloaded : Bool) : Performed host world request session
    (host.handleResult world request overloaded session) (host.work world request) := by
  unfold handleResult work
  rw [lift_bind_apply]
  cases request.header.headerLines.lookup .host with
  | none => exact bare_err _
  | some hostPath =>
      dsimp only [Outcome.okOr, Option.bind_eq_bind, Option.bind_some]
      rw [lift_bind_apply]
      cases (getVirtualHost host.serverConfig.virtualHosts hostPath :
          Outcome HttpError VirtualHost) with
      | err error => exact bare_err error
      | abort => exact bare_abort
      | ok virtualHost =>
          dsimp only [Outcome.toOption_ok, Option.bind_some]
          split
          · refine ⟨rfl, fun response returned => ?_⟩
            have heartbeats : heartbeat overloaded = response := Outcome.ok.inj returned
            exact ⟨_, heartbeats.symm⟩
          · rw [lift_bind_apply]
            cases documentRoot world virtualHost with
            | none => exact bare_err _
            | some root =>
                dsimp only [Outcome.okOr, Option.bind_some]
                rw [lift_bind_apply]
                cases parsePath world root request.header.requestLine.requestPath with
                | err error => exact bare_err error
                | abort => exact bare_abort
                | ok requestTarget =>
                    dsimp only [Outcome.toOption_ok, Option.bind_some]
                    cases request.header.requestLine.method with
                    | get => exact performed_handleGet requestTarget virtualHost
                    | post => rfl

/-- **Requests come down to their work.** -/
theorem handleResult_of_work {work : Work} (led : host.work world request = some work)
    (overloaded : Bool) (session : Session) :
    host.handleResult world request overloaded session =
      host.perform world request work session := by
  have performed : Performed host world request session _ _ := performed_handleResult overloaded
  rwa [led] at performed

/-- A request that leads to no work leaves no trace. -/
theorem handleResult_of_no_work (led : host.work world request = none) (overloaded : Bool)
    (session : Session) : Bare (host.handleResult world request overloaded session) session := by
  have performed : Performed host world request session _ _ := performed_handleResult overloaded
  rwa [led] at performed

end Host

/-! ### What is responded -/

/-- The response for a file. -/
def fileResponse (path : Path) (file : File) (modifiedStr : Text) : Response where
  header := {
    statusLine := { statusCode := .ok, httpVersion := httpVersion11 }
    headerLines := Files.headerLines path file modifiedStr }
  body := file.content

/-- The date of a file is among its headers. -/
theorem Files.lookup_lastModified (path : Path) (file : File) (text : Text) :
    (headerLines path file text).lookup .lastModified = some text := by
  rw [headerLines]
  split
  · rw [Finmap.lookup_insert_of_ne _ (by decide), Finmap.lookup_insert]
  · rw [Finmap.lookup_insert]

/-- The response for the output of a script. -/
def scriptResponse (headers : ResponseHeaderLines) (body : Text) : Response where
  header := {
    statusLine := { statusCode := .ok, httpVersion := httpVersion11 }
    headerLines := headers.insert .contentLength (Text.decimal (byteLength body + 2)) }
  body

/-- What the handler responds with, before it adds its own header lines. -/
inductive Produced (chrono : Chrono) : Response → Prop
  | bare (statusCode : StatusCode) : Produced chrono (errorResponse statusCode)
  | script {s : Text} {headers : ResponseHeaderLines} {body : Text} :
      processCgiOutput s = .ok (headers, body) → Produced chrono (scriptResponse headers body)
  | file (path : Path) (file : File) {modifiedStr : Text} :
      (Files.lastModified chrono file : Outcome HttpError Text) = .ok modifiedStr →
        Produced chrono (fileResponse path file modifiedStr)

variable {host : Host} {world : World chrono} {request : Request} {session after : Session}
  {response : Response}

/-- A file is responded as it has been fetched. -/
theorem getContent_eq_ok_iff {path : Path} :
    Files.getContent world path session = (.ok response, after) ↔ ∃ file modifiedStr,
      Files.fetch world path session = (.ok file, after) ∧
        (Files.lastModified chrono file : Outcome HttpError Text) = .ok modifiedStr ∧
          response = fileResponse path file modifiedStr := by
  rw [Files.getContent, bind_apply_eq_ok_iff]
  simp only [lift_bind_apply_eq_ok_iff, pure_apply_eq_ok_iff]
  constructor
  · rintro ⟨file, _, fetched, modifiedStr, dated, rfl, rfl⟩
    exact ⟨file, modifiedStr, fetched, dated, rfl⟩
  · rintro ⟨file, modifiedStr, fetched, dated, rfl⟩
    exact ⟨file, _, fetched, modifiedStr, dated, rfl, rfl⟩

/-- A script is responded to with its output. -/
private theorem produced_of_cgi {cgi : Cgi} {path : Path} {virtualHost : VirtualHost}
    (returned : cgi.handle world path request virtualHost session = (.ok response, after)) :
    Produced chrono response := by
  simp only [Cgi.handle, lift_bind_apply_eq_ok_iff, modify_bind_apply,
    pure_apply_eq_ok_iff] at returned
  obtain ⟨_, _, _, _, ⟨headers, body⟩, output, rfl, _⟩ := returned
  cases ran : Cgi.outputText (world.cgi _) >>= processCgiOutput with
  | err error =>
      rw [ran] at output
      cases output
  | abort =>
      rw [ran] at output
      cases output
  | ok parsed =>
      rw [ran] at output
      cases output
      obtain ⟨_, _, collected⟩ := Outcome.bind_eq_ok_iff.mp ran
      exact .script collected

/-- Work is responded to with what it produces. -/
private theorem produced_of_work {work : Work}
    (returned : host.perform world request work session = (.ok response, after)) :
    Produced chrono response := by
  have file : ∀ {path}, Files.getContent world path session = (.ok response, after) →
      Produced chrono response := by
    intro path served
    obtain ⟨file, modifiedStr, _, dated, rfl⟩ := getContent_eq_ok_iff.mp served
    exact .file path file dated
  cases work with
  | script path virtualHost => exact produced_of_cgi returned
  | file path =>
      unfold Host.perform Host.serveFile at returned
      cases conditional : request.header.headerLines.lookup .ifModifiedSince with
      | none =>
          rw [conditional] at returned
          exact file returned
      | some since =>
          rw [conditional] at returned
          obtain ⟨modSince, _, returned⟩ := lift_bind_apply_eq_ok_iff.mp returned
          cases modSince with
          | true => exact file returned
          | false =>
              obtain ⟨rfl, _⟩ := pure_apply_eq_ok_iff.mp returned
              exact .bare .notModified

/-- What the handler returns, and what its host is afterwards. -/
theorem handle_eq_ok {overloaded : Bool} {final : Host} {accesses : List Access}
    (handled : host.handle world request overloaded = (.ok response, final, accesses)) :
    ∃ produced session now,
      (host.handleResult world request overloaded ⟨host.files, []⟩ = (.ok produced, session) ∨
        ∃ error, host.handleResult world request overloaded ⟨host.files, []⟩ =
          (.err error, session) ∧ errorResponse error.status = produced) ∧
      (to1123 chrono world.now : Outcome Error Text) = .ok now ∧
      response = Host.finish now produced ∧ final = { host with files := session.files } := by
  simp only [Host.handle, Prod.mk.injEq] at handled
  obtain ⟨returned, rfl, -⟩ := handled
  have whole : host.handleWith world request overloaded ⟨host.files, []⟩ = (.ok response, _) :=
    Prod.ext returned rfl
  obtain ⟨produced, session, recovered, finished⟩ := bind_apply_eq_ok_iff.mp whole
  obtain ⟨now, printed, finished⟩ := lift_bind_apply_eq_ok_iff.mp finished
  obtain ⟨rfl, same⟩ := pure_apply_eq_ok_iff.mp finished
  exact ⟨produced, session, now, recover_apply_eq_ok_iff.mp recovered, printed, rfl, by rw [same]⟩

/-- What the handler returns for a request that has been answered. -/
theorem handle_of_handleResult {overloaded : Bool} {produced : Response} {now : Text}
    (returned : host.handleResult world request overloaded ⟨host.files, []⟩ =
      (.ok produced, after))
    (printed : (to1123 chrono world.now : Outcome Error Text) = .ok now) :
    host.handle world request overloaded =
      (.ok (Host.finish now produced), { host with files := after.files }, after.accesses) := by
  have whole : host.handleWith world request overloaded ⟨host.files, []⟩ =
      (.ok (Host.finish now produced), after) := by
    refine bind_apply_eq_ok_iff.mpr ⟨produced, after, ?_, ?_⟩
    · exact recover_apply_eq_ok_iff.mpr (.inl returned)
    · exact lift_bind_apply_eq_ok_iff.mpr ⟨now, printed, rfl⟩
  rw [Host.handle, whole]

/-- Every response of the handler is a status, the output of a script or a file, with the
header lines that the handler adds. -/
theorem handle_produced {overloaded : Bool} {final : Host} {accesses : List Access}
    (handled : host.handle world request overloaded = (.ok response, final, accesses)) :
    ∃ produced now, Produced chrono produced ∧
      (to1123 chrono world.now : Outcome Error Text) = .ok now ∧
        response = Host.finish now produced := by
  obtain ⟨produced, session, now, returned | ⟨error, _, rfl⟩, printed, finished, _⟩ :=
    handle_eq_ok handled
  · refine ⟨produced, now, ?_, printed, finished⟩
    cases led : host.work world request with
    | none =>
        have bare := Host.handleResult_of_no_work led overloaded ⟨host.files, []⟩
        rw [returned] at bare
        obtain ⟨statusCode, rfl⟩ := bare.2 produced rfl
        exact .bare statusCode
    | some work =>
        rw [Host.handleResult_of_work led] at returned
        exact produced_of_work returned
  · exact ⟨_, now, .bare error.status, printed, finished⟩

/-! ### Heartbeats -/

/-- Looking for a virtual host does not fail. -/
theorem unfailing_getVirtualHost (virtualHosts : List VirtualHost) (hostPath : Text) :
    Outcome.Unfailing (getVirtualHost virtualHosts hostPath : Outcome HttpError VirtualHost) := by
  unfold getVirtualHost
  split
  · exact .ok _
  · exact .unwrap _

/-- A heartbeat is answered from the flag, unless the request lacks a host. -/
theorem Host.handleResult_load (host : Host) (world : World chrono) (overloaded : Bool)
    (session : Session) (get : request.header.requestLine.method = .get)
    (load : request.header.requestLine.requestPath = "/load".toList) :
    (host.handleResult world request overloaded session).1 = .ok (heartbeat overloaded) ∨
      (host.handleResult world request overloaded session).1 =
        .err { status := .badRequest, message := none } ∨
      (host.handleResult world request overloaded session).1 = .abort := by
  unfold handleResult
  rw [lift_bind_apply]
  cases request.header.headerLines.lookup .host with
  | none => exact .inr (.inl rfl)
  | some hostPath =>
      dsimp only [Outcome.okOr]
      rw [lift_bind_apply]
      have unfailing := unfailing_getVirtualHost host.serverConfig.virtualHosts hostPath
      cases chosen : (getVirtualHost host.serverConfig.virtualHosts hostPath :
          Outcome HttpError VirtualHost) with
      | err error => exact absurd chosen (unfailing error)
      | abort => exact .inr (.inr rfl)
      | ok virtualHost =>
          dsimp only
          rw [if_pos ⟨get, load⟩]
          exact .inl rfl

/-- A heartbeat of a server that is not overloaded. -/
theorem available_of_load {final : Host} {accesses : List Access}
    (get : request.header.requestLine.method = .get)
    (load : request.header.requestLine.requestPath = "/load".toList)
    (handled : host.handle world request false = (.ok response, final, accesses)) :
    response.header.statusLine.statusCode ≠ .serviceUnavailable := by
  obtain ⟨produced, session, now, returned, -, rfl, -⟩ := handle_eq_ok handled
  have results := host.handleResult_load world false ⟨host.files, []⟩ get load
  rcases returned with returned | ⟨error, failed, rfl⟩
  · rw [returned] at results
    simp only [Outcome.ok.injEq, reduceCtorEq, or_false] at results
    rw [results]
    exact StatusCode.noConfusion
  · rw [failed] at results
    simp only [Outcome.err.injEq, reduceCtorEq, or_false, false_or] at results
    rw [results]
    exact StatusCode.noConfusion

end RustHttpServer
