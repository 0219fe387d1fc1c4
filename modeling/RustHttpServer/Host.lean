import RustHttpServer.Cgi

/-!
# Hosts

The request handler of `host.rs`. The response to a request depends on the
configuration, on the cache of the host and on the world; handling it changes the
cache.
-/

namespace RustHttpServer

open Foundation

/-- `error_response`, less what it prints. -/
def errorResponse (statusCode : StatusCode) : Response where
  header := {
    statusLine := { statusCode, httpVersion := httpVersion11 }
    headerLines := Finmap.insert .contentLength "0".toList ∅ }
  body := []

/-- `heartbeat` -/
def heartbeat (overloaded : Bool) : Response where
  header := {
    statusLine := {
      statusCode := if overloaded then .serviceUnavailable else .ok
      httpVersion := httpVersion11 }
    headerLines := Finmap.insert .contentLength "0".toList ∅ }
  body := []

/-- The response of `handle_get` for a file that has not been modified. -/
def notModified : Response where
  header := {
    statusLine := { statusCode := .notModified, httpVersion := httpVersion11 }
    headerLines := Finmap.insert .contentLength "0".toList ∅ }
  body := []

/-- `struct RequestTarget` -/
structure RequestTarget where
  path : Path
  isDir : Bool
  deriving DecidableEq

/-- `struct Host` -/
structure Host where
  serverConfig : ServerConfig
  cgi : Cgi
  files : Files

/-- `get_virtual_host` -/
def getVirtualHost {ε : Type} (virtualHosts : List VirtualHost) (host : Text) :
    Outcome ε VirtualHost :=
  match virtualHosts.find? fun virtualHost =>
      virtualHost.directives.lookup .serverName = some host with
  | some virtualHost => .ok virtualHost
  | none => Outcome.unwrap virtualHosts.head?

variable {chrono : Chrono}

/-- `parse_path` -/
def parsePath (world : World chrono) (rootPath : Path) (requestTarget : Text) :
    Outcome HttpError RequestTarget :=
  let isDir := requestTarget.getLast? = some '/'
  let requestTarget := Path.ofBytes (Utf8.encode requestTarget)
  let requestTarget :=
    if Path.hasRoot requestTarget then Path.stripRoot requestTarget else requestTarget
  match world.canonicalize (Path.join rootPath requestTarget) with
  | .ok path =>
      if Path.startsWith path rootPath then .ok { path, isDir }
      else .err { status := .forbidden, message := none }
  | .error _ => .err { status := .notFound, message := none }

/-- `metadata_or_400` -/
def metadataOr400 (world : World chrono) (path : Path) : Outcome HttpError Metadata :=
  Outcome.ofExcept (fun _ => { status := .notFound, message := none }) (world.metadata path)

/-- A file name that is written as text. -/
def fileNamed (name : String) : Path := Path.ofBytes (Utf8.encode name.toList)

/-- The test of `content_negotiation` for a mobile device. -/
def isMobile (userAgent : Text) : Bool :=
  (splitOnce userAgent "iPhone".toList).isSome || (splitOnce userAgent "Mobile".toList).isSome

/-- `content_negotiation` -/
def contentNegotiation (world : World chrono) (requestTarget : RequestTarget)
    (headerLines : RequestHeaderLines) : Outcome HttpError (Path × Metadata) := do
  let path := requestTarget.path
  if requestTarget.isDir then
    let mobilePath := Path.join path (fileNamed "index_m.html")
    match (headerLines.lookup .userAgent).filter isMobile,
        metadataOr400 world mobilePath with
    | some _, .ok metadata => return (mobilePath, metadata)
    | _, _ =>
        let indexPath := Path.join path (fileNamed "index.html")
        let metadata ← metadataOr400 world indexPath
        return (indexPath, metadata)
  else
    let metadata ← metadataOr400 world path
    return (path, metadata)

namespace Host

/-- `Host::new` -/
def new {ε : Type} (serverConfig : ServerConfig) : Outcome ε Host := do
  let files ← Files.new
    (((serverConfig.directives.lookup .cacheSize).bind fun cacheSize =>
      (u32FromStr cacheSize).toOption).getD 1024)
  return { serverConfig, cgi := { serverConfig }, files }

/-- The test of `handle_get` for a file that others may execute. -/
def isExecutable (metadata : Metadata) : Bool := metadata.mode &&& 1 = 1

/-- The part of `handle_get` that asks whether a file has been modified since a date. -/
def modifiedSinceDate (world : World chrono) (path : Path) (since : Text) :
    Outcome HttpError Bool := do
  let since ← (parseDate1123 chrono since).mapErr fun error =>
    { status := .badRequest, message := some error.message }
  let secs ← (if 0 ≤ chrono.timestamp since then .ok (chrono.timestamp since).toNat
    else .abort)
  match Files.modifiedSince world path (secs * nanosPerSecond) with
  | .ok modSince => return modSince
  | .err _ => return true
  | .abort => .abort

/-- A date that cannot be parsed is a bad request. -/
theorem badRequest_of_modifiedSinceDate {world : World chrono} {path : Path} {since : Text}
    {error : HttpError} (asked : modifiedSinceDate world path since = .err error) :
    error.status = .badRequest := by
  unfold modifiedSinceDate at asked
  cases parsed : parseDate1123 chrono since with
  | ok datetime =>
      rw [parsed, Outcome.mapErr_ok, Outcome.ok_bind] at asked
      split at asked
      · rw [Outcome.ok_bind] at asked
        split at asked <;> cases asked
      · cases asked
  | err error =>
      rw [parsed] at asked
      cases asked
      rfl
  | abort =>
      rw [parsed] at asked
      cases asked

/-- `Host::handle_get` -/
def handleGet (host : Host) (world : World chrono) (requestTarget : RequestTarget)
    (request : Request) (virtualHost : VirtualHost) : Stateful Session HttpError Response := do
  let (path, metadata) ← Stateful.lift
    (contentNegotiation world requestTarget request.header.headerLines)
  if metadata.isDir then
    Stateful.lift (.err { status := .notFound, message := none })
  else if isExecutable metadata then
    host.cgi.handle world path request virtualHost
  else
    match request.header.headerLines.lookup .ifModifiedSince with
    | some since =>
        let modSince ← Stateful.lift (modifiedSinceDate world path since)
        if modSince then Files.getContent world path else return notModified
    | none => Files.getContent world path

/-- `Host::handle_post` -/
def handlePost (host : Host) (world : World chrono) (requestTarget : RequestTarget)
    (request : Request) (virtualHost : VirtualHost) : Stateful Session HttpError Response :=
  host.cgi.handle world requestTarget.path request virtualHost

/-- The canonical path of the document root of a virtual host. -/
def documentRoot (world : World chrono) (virtualHost : VirtualHost) : Option Path :=
  (virtualHost.directives.lookup .documentRoot).bind fun documentRoot =>
    (world.canonicalize (Path.ofBytes (Utf8.encode documentRoot))).toOption

/-- `Host::handle_result` -/
def handleResult (host : Host) (world : World chrono) (request : Request) (overloaded : Bool) :
    Stateful Session HttpError Response := do
  let hostPath ← Stateful.lift (Outcome.okOr { status := .badRequest, message := none }
    (request.header.headerLines.lookup .host))
  let virtualHost ← Stateful.lift (getVirtualHost host.serverConfig.virtualHosts hostPath)
  if request.header.requestLine.method = .get ∧
      request.header.requestLine.requestPath = "/load".toList then
    return heartbeat overloaded
  else
    let documentRoot ← Stateful.lift (Outcome.okOr {
        status := .internalServerError
        message := some "Could not determine document root for virtual host" }
      (documentRoot world virtualHost))
    let requestTarget ← Stateful.lift
      (parsePath world documentRoot request.header.requestLine.requestPath)
    match request.header.requestLine.method with
    | .get => host.handleGet world requestTarget request virtualHost
    | .post => host.handlePost world requestTarget request virtualHost

/-- `Response` with the header lines that `Host::handle` adds to every response. -/
def finish (now : Text) (response : Response) : Response :=
  { response with header := { response.header with
    headerLines := (response.header.headerLines.insert .server "Rust/0.1".toList).insert
      .date now } }

/-- `Host::handle`, on the cache of the host. -/
def handleWith (host : Host) (world : World chrono) (request : Request) (overloaded : Bool) :
    Stateful Session Error Response := do
  let response ← (host.handleResult world request overloaded).recover fun error =>
    errorResponse error.status
  let now ← Stateful.lift (to1123 chrono world.now)
  return finish now response

/-- `Host::handle`: what it returns, the host with its cache afterwards, and what it had
the operating system do. -/
def handle (host : Host) (world : World chrono) (request : Request) (overloaded : Bool) :
    Outcome Error Response × Host × List Access :=
  let (response, session) :=
    host.handleWith world request overloaded { files := host.files, accesses := [] }
  (response, { host with files := session.files }, session.accesses)

end Host

end RustHttpServer
