import RustHttpServer.Files

/-!
# CGI scripts

The scripts of `cgi.rs`: how they are called, and how their output becomes a
response.
-/

namespace RustHttpServer

open Foundation

/-- `struct Cgi` -/
structure Cgi where
  serverConfig : ServerConfig

/-- What `process_cgi_output` makes of one line of the headers. -/
def cgiHeader (header : Text) : Option (ResponseHeaderField × Text) := do
  let (field, value) ← splitOnce header [':']
  let field ← ResponseHeaderField.fromStr field
  return (field, Text.trim value)

/-- One step of the fold in `process_cgi_output`. -/
def collectHeader (map : Option ResponseHeaderLines) (header : Text) :
    Option ResponseHeaderLines := do
  let map ← map
  let (field, value) ← cgiHeader header
  return map.insert field value

/-- `process_cgi_output` -/
def processCgiOutput (s : Text) : Outcome Error (ResponseHeaderLines × Text) := do
  let sections := split s ['\n', '\n'] (by decide)
  let headers ← Outcome.okOr ⟨"Could not parse headers from CGI response"⟩
    (sections[0]?.bind fun headers =>
      (split headers ['\n'] (by decide)).foldl collectHeader (some ∅))
  let body := sections[1]?.getD []
  return (headers, body)

namespace Cgi

/-- The variables of a script, as they are collected into a map. -/
def environment (request : Request) (serverName serverPort : Text) : HashMap Text Text :=
  [("QUERY_STRING".toList, request.header.requestLine.queryString),
    ("REMOTE_ADDR".toList, request.remote.addr),
    ("REQUEST_METHOD".toList, request.header.requestLine.method.toText),
    ("SERVER_NAME".toList, serverName),
    ("SERVER_PORT".toList, serverPort),
    ("SERVER_PROTOCOL".toList, []),
    ("SERVER_SOFTWARE".toList, [])].foldl (fun envs (name, value) => envs.insert name value) ∅

/-- The exchange with a script, as far as its output as text. -/
def outputText : CgiRun → Outcome Error Text
  | .spawnFailed error => .err (Error.ofIo error)
  | .writeFailed error => .err (Error.ofIo error)
  | .readFailed error => .err (Error.ofIo error)
  | .finished stdout =>
      match Utf8.decode stdout with
      | .ok stdout => .ok stdout
      | .error _ => .err ⟨"stream did not contain valid UTF-8"⟩

variable {chrono : Chrono}

/-- `Cgi::handle` -/
def handle (cgi : Cgi) (world : World chrono) (path : Path) (request : Request)
    (virtualHost : VirtualHost) : Stateful Session HttpError Response := do
  let internalError (message : String) : HttpError :=
    { status := .internalServerError, message := some message }
  let serverPort ← Stateful.lift (Outcome.okOr
    (internalError "Could not get ListenPort from server config")
    (cgi.serverConfig.directives.lookup .listenPort))
  let serverName ← Stateful.lift (Outcome.okOr
    (internalError "Could not get ServerName from virtual host")
    (virtualHost.directives.lookup .serverName))
  Stateful.modify (Session.record (.execute path))
  let run := world.cgi {
    path
    envs := environment request serverName serverPort
    stdin := Utf8.encode request.body }
  let (headers, body) ← Stateful.lift
    ((outputText run >>= processCgiOutput).mapErr fun error => internalError error.message)
  return {
    header := {
      statusLine := { statusCode := .ok, httpVersion := httpVersion11 }
      headerLines := headers.insert .contentLength (Text.decimal (Utf8.byteLength body + 2)) }
    body }

open Stateful in
/-- Calling a script keeps what recording the call keeps. -/
theorem keeps_handle {world : World chrono} {property : Session → Prop} (cgi : Cgi) {path : Path}
    (request : Request) (virtualHost : VirtualHost)
    (executing : ∀ session, property session → property (session.record (.execute path))) :
    Keeps property (cgi.handle world path request virtualHost) := by
  refine Keeps.lift_bind fun serverPort _ => Keeps.lift_bind fun serverName _ => ?_
  exact Keeps.bind (Keeps.modify executing) fun _ => Keeps.lift_bind fun _ _ => Keeps.pure _

end Cgi

end RustHttpServer
