import RustHttpServer.Host.Site

/-!
# Confinement to the document root

`parse_path` refuses every path whose file does not lie in the document root, but
for a directory the index file is chosen afterwards and not tested again. So what is
read or executed lies in the document root unless it is an index that leads out of it
(`handle_confined_iff`).
-/

namespace RustHttpServer

open Foundation Utf8 Stateful

variable {chrono : Chrono}

/-- The canonical path of a file begins with that of the document root. -/
def Confined (world : World chrono) (root path : Path) : Prop :=
  ∃ canonical, world.canonicalize path = .ok canonical ∧ Path.startsWith canonical root

/-- The path that a request target stands for in a document root. -/
def targetPath (root : Path) (requestTarget : Text) : Path :=
  let path := Path.ofBytes (encode requestTarget)
  Path.join root (if Path.hasRoot path then Path.stripRoot path else path)

/-- The index file that is chosen in a directory. -/
def indexPath (world : World chrono) (directory : Path) (headerLines : RequestHeaderLines) : Path :=
  let mobilePath := Path.join directory (fileNamed "index_m.html")
  if ((headerLines.lookup .userAgent).filter isMobile).isSome ∧
      (metadataOr400 world mobilePath).isOk then mobilePath
  else Path.join directory (fileNamed "index.html")

namespace Request

/-- A GET whose path ends in a slash. -/
def isIndexRequest (request : Request) : Bool :=
  request.header.requestLine.method = .get ∧
    request.header.requestLine.requestPath.getLast? = some '/'

/-- The file that a request is for, if the directory in which an index is to be chosen
exists. -/
def file (request : Request) (world : World chrono) (root : Path) : Option Path :=
  let path := targetPath root request.header.requestLine.requestPath
  if request.isIndexRequest then
    (world.canonicalize path).toOption.map fun directory =>
      indexPath world directory request.header.headerLines
  else some path

end Request

namespace Host

/-- The canonical document root of the virtual host that is selected for a request, unless
that asks for the heartbeat. -/
def rootOf (host : Host) (world : World chrono) (request : Request) : Option Path := do
  let hostPath ← request.header.headerLines.lookup .host
  let virtualHost ←
    (getVirtualHost host.serverConfig.virtualHosts hostPath : Outcome HttpError _).toOption
  if request.header.requestLine.method = .get ∧
      request.header.requestLine.requestPath = "/load".toList then
    none
  else documentRoot world virtualHost

end Host

/-- Access to a file was denied. -/
def StatusCode.isDenied (statusCode : StatusCode) : Bool :=
  statusCode = .forbidden ∨ statusCode = .notFound

/-- What was read and executed lies in the document root, and a request for anything else
was denied. -/
structure KeptInside (world : World chrono) (root : Path) (request : Request)
    (outcome : Outcome Error Response) (accesses : List Access) : Prop where
  confined : ∀ access ∈ accesses, Confined world root access.path
  denied : (∀ file, request.file world root = some file → ¬Confined world root file) →
    ∃ response, outcome = .ok response ∧ response.header.statusLine.statusCode.isDenied

/-- An index that is chosen in a directory of the document root, and is a file, lies in
the document root as well. -/
def IndexConfined (world : World chrono) (root : Path) (request : Request) : Prop :=
  request.isIndexRequest → ∀ directory,
    world.canonicalize (targetPath root request.header.requestLine.requestPath) = .ok directory →
    Path.startsWith directory root → ∀ metadata,
    world.metadata (indexPath world directory request.header.headerLines) = .ok metadata →
    metadata.isDir = false →
    Confined world root (indexPath world directory request.header.headerLines)

/-- A request target leads to a file in the document root, or is refused. -/
theorem parsePath_eq (world : World chrono) (root : Path) (requestTarget : Text) :
    parsePath world root requestTarget =
      match world.canonicalize (targetPath root requestTarget) with
      | .ok path =>
          if Path.startsWith path root then
            .ok { path, isDir := requestTarget.getLast? = some '/' }
          else .err { status := .forbidden, message := none }
      | .error _ => .err { status := .notFound, message := none } := rfl

/-- Content negotiation chooses the index of a directory. -/
theorem contentNegotiation_directory (world : World chrono) (directory : Path)
    (headerLines : RequestHeaderLines) :
    contentNegotiation world { path := directory, isDir := true } headerLines =
      metadataOr400 world (indexPath world directory headerLines) >>= fun metadata =>
        .ok (indexPath world directory headerLines, metadata) := by
  rw [contentNegotiation, indexPath]
  dsimp only
  rw [if_pos rfl]
  cases mobile : (headerLines.lookup .userAgent).filter isMobile with
  | none => rfl
  | some userAgent =>
      cases found : metadataOr400 world (Path.join directory (fileNamed "index_m.html")) with
      | ok metadata =>
          simp only [Option.isSome_some, Outcome.isOk, and_self, ↓reduceIte, found]
          rfl
      | err error => rfl
      | abort => rfl

/-! ### What the handler keeps -/

section Keeps

variable {property : Session → Prop} {world : World chrono}

private theorem keeps_load {path : Path}
    (caching : ∀ file session, property session → property (session.insert path file)) :
    Keeps property (Files.load world path) := by
  unfold Files.load
  split
  · apply Keeps.lift_bind
    intro metadata _
    exact Keeps.bind (Keeps.modify (caching _)) fun _ => Keeps.pure _
  · exact Keeps.lift _

private theorem keeps_getContent {path : Path}
    (reading : ∀ session, property session → property (session.record (.read path)))
    (caching : ∀ file session, property session → property (session.insert path file)) :
    Keeps property (Files.getContent world path) := by
  refine Keeps.bind (Keeps.get_bind fun session => ?_) fun file =>
    Keeps.lift_bind fun _ _ => Keeps.pure _
  split
  · exact Keeps.pure _
  · exact Keeps.bind (Keeps.modify reading) fun _ => keeps_load caching

end Keeps

/-! ### What is kept inside -/

section Inside

variable {world : World chrono} {root : Path}

/-- Everything that has been read or executed lies in the document root. -/
def Session.Inside (world : World chrono) (root : Path) (session : Session) : Prop :=
  ∀ access ∈ session.accesses, Confined world root access.path

/-- An access inside the root leaves the record inside. -/
theorem Session.Inside.record {session : Session} (inside : session.Inside world root)
    (access : Access) (confined : Confined world root access.path) :
    (session.record access).Inside world root := by
  intro other member
  rcases List.mem_append.mp member with before | last
  · exact inside other before
  · rw [List.mem_singleton.mp last]
    exact confined

private theorem keepsInside_script (cgi : Cgi) {path : Path} (request : Request)
    (virtualHost : VirtualHost) (confined : Confined world root path) :
    Keeps (Session.Inside world root) (cgi.handle world path request virtualHost) :=
  Cgi.keeps_handle cgi request virtualHost fun _ inside => inside.record (.execute path) confined

/-- A GET stays inside the root if what is negotiated does. -/
private theorem keepsInside_handleGet (host : Host) (requestTarget : RequestTarget)
    (request : Request) (virtualHost : VirtualHost) (confined : ∀ path metadata,
      contentNegotiation world requestTarget request.header.headerLines = .ok (path, metadata) →
      metadata.isDir = false → Confined world root path) :
    Keeps (Session.Inside world root)
      (host.handleGet world requestTarget request virtualHost) := by
  apply Keeps.lift_bind
  intro negotiated found
  obtain ⟨path, metadata⟩ := negotiated
  dsimp only
  split
  · exact Keeps.lift _
  · next file =>
      have confined := confined path metadata found (Bool.eq_false_iff.mpr file)
      have content : Keeps (Session.Inside world root) (Files.getContent world path) :=
        keeps_getContent (fun _ inside => inside.record (.read path) confined)
          fun _ _ inside => inside
      split
      · exact keepsInside_script host.cgi request virtualHost confined
      · split
        · apply Keeps.lift_bind
          intro modSince _
          split
          · exact content
          · exact Keeps.pure _
        · exact content

/-- The canonical path of a confined path is confined. -/
theorem confined_of_parsePath {requestTarget : Text} {target : RequestTarget}
    (parsed : parsePath world root requestTarget = .ok target) :
    world.canonicalize (targetPath root requestTarget) = .ok target.path ∧
      Path.startsWith target.path root ∧
        target.isDir = decide (requestTarget.getLast? = some '/') := by
  rw [parsePath_eq] at parsed
  split at parsed
  · next path found =>
      split at parsed
      · next inside =>
          cases parsed
          exact ⟨found, inside, rfl⟩
      · cases parsed
  · cases parsed

/-- A canonical path is its own canonical path. -/
theorem canonicalize_canonicalize {path canonical : Path}
    (found : world.canonicalize path = .ok canonical) :
    world.canonicalize canonical = .ok canonical := by
  rw [World.canonicalize] at found ⊢
  cases resolved : world.fs.canonicalize path with
  | error error =>
      rw [resolved] at found
      cases found
  | ok names =>
      rw [resolved] at found
      cases found
      rw [FileSystem.canonicalize_canonicalize resolved]
      rfl

end Inside

/-! ### From the handler to its results -/

namespace Host

variable {world : World chrono} {root : Path}

/-- What `handle_result` does once it has a document root. -/
def handleTarget (host : Host) (world : World chrono) (request : Request) (root : Path)
    (virtualHost : VirtualHost) : Stateful Session HttpError Response := do
  let requestTarget ← Stateful.lift
    (parsePath world root request.header.requestLine.requestPath)
  match request.header.requestLine.method with
  | .get => host.handleGet world requestTarget request virtualHost
  | .post => host.handlePost world requestTarget request virtualHost

/-- Once a document root is selected, the handler serves from there. -/
theorem handleResult_of_root {host : Host} {request : Request}
    (selected : host.rootOf world request = some root) (overloaded : Bool) :
    ∃ virtualHost, host.handleResult world request overloaded =
      host.handleTarget world request root virtualHost := by
  simp only [rootOf, Option.bind_eq_bind, Option.bind_eq_some_iff] at selected
  obtain ⟨hostPath, found, virtualHost, chosen, canonical⟩ := selected
  split at canonical
  · cases canonical
  · next notHeartbeat =>
      refine ⟨virtualHost, ?_⟩
      cases virtualHosts : (getVirtualHost host.serverConfig.virtualHosts hostPath :
          Outcome HttpError VirtualHost) with
      | ok selected =>
          rw [virtualHosts] at chosen
          cases chosen
          funext session
          rw [handleResult, found, Outcome.okOr_some, lift_bind_apply]
          dsimp only
          rw [virtualHosts, lift_bind_apply]
          dsimp only
          rw [if_neg notHeartbeat, canonical, Outcome.okOr_some, lift_bind_apply]
          rfl
      | err error =>
          rw [virtualHosts] at chosen
          cases chosen
      | abort =>
          rw [virtualHosts] at chosen
          cases chosen

/-- Without a document root nothing is read or executed. -/
theorem handleResult_of_no_root {host : Host} {request : Request}
    (unselected : host.rootOf world request = none) (overloaded : Bool) (session : Session) :
    (host.handleResult world request overloaded session).2 = session := by
  unfold rootOf at unselected
  unfold handleResult
  cases found : request.header.headerLines.lookup .host with
  | none => rfl
  | some hostPath =>
      rw [found, Option.bind_eq_bind, Option.bind_some] at unselected
      rw [Outcome.okOr_some, lift_bind_apply]
      dsimp only
      rw [lift_bind_apply]
      cases chosen : (getVirtualHost host.serverConfig.virtualHosts hostPath :
          Outcome HttpError VirtualHost) with
      | ok virtualHost =>
          rw [chosen, Outcome.toOption_ok, Option.bind_eq_bind, Option.bind_some] at unselected
          dsimp only
          split
          · rfl
          · next notHeartbeat =>
              rw [if_neg notHeartbeat] at unselected
              rw [unselected]
              rfl
      | err error => rfl
      | abort => rfl

/-- What `Host::handle` makes of a result. -/
def respond (now : Text) : Outcome HttpError Response → Outcome Error Response
  | .ok response => .ok (finish now response)
  | .err error => .ok (finish now (errorResponse error.status))
  | .abort => .abort

/-- The response of the handler, stamped with the time. -/
theorem handle_eq (printsUtc : chrono.PrintsUtc) (host : Host) (world : World chrono)
    (request : Request) (overloaded : Bool) : ∃ now,
    host.handle world request overloaded =
      (respond now (host.handleResult world request overloaded ⟨host.files, []⟩).1,
        { host with files :=
            (host.handleResult world request overloaded ⟨host.files, []⟩).2.files },
        (host.handleResult world request overloaded ⟨host.files, []⟩).2.accesses) := by
  obtain ⟨now, printed, _⟩ := to1123_eq printsUtc (ε := Error) world.now
  refine ⟨now ++ " GMT".toList, ?_⟩
  rw [handle, handleWith, bind_apply, Stateful.recover]
  cases result : host.handleResult world request overloaded ⟨host.files, []⟩ with
  | mk outcome session =>
      cases outcome with
      | ok response =>
          dsimp only
          rw [lift_bind_apply, printed]
          rfl
      | err error =>
          dsimp only
          rw [lift_bind_apply, printed]
          rfl
      | abort => rfl

end Host

/-- The result is that access was denied. -/
def Denied : Outcome HttpError Response → Prop
  | .ok response => response.header.statusLine.statusCode.isDenied
  | .err error => error.status.isDenied
  | .abort => False

/-- A response denies the request if the handler does. -/
private theorem respond_denied_iff {now : Text} {outcome : Outcome HttpError Response} :
    (∃ response, Host.respond now outcome = .ok response ∧
      response.header.statusLine.statusCode.isDenied) ↔ Denied outcome := by
  cases outcome with
  | ok response =>
      constructor
      · rintro ⟨_, ⟨⟩, denied⟩
        exact denied
      · exact fun denied => ⟨_, rfl, denied⟩
  | err error =>
      constructor
      · rintro ⟨_, ⟨⟩, denied⟩
        exact denied
      · exact fun denied => ⟨_, rfl, denied⟩
  | abort =>
      constructor
      · rintro ⟨_, ⟨⟩, _⟩
      · exact fun denied => denied.elim

/-! ### The index is the only way out -/

section Target

variable {world : World chrono} {root : Path} {host : Host} {request : Request}
  {virtualHost : VirtualHost}

private theorem file_of_isIndexRequest {directory : Path} (index : request.isIndexRequest = true)
    (found : world.canonicalize (targetPath root request.header.requestLine.requestPath) =
      .ok directory) : request.file world root =
        some (indexPath world directory request.header.headerLines) := by
  rw [Request.file, if_pos index, found]
  rfl

/-- Index requests are GETs for a path with a slash at the end. -/
theorem isIndexRequest_iff : request.isIndexRequest = true ↔
    request.header.requestLine.method = .get ∧
      request.header.requestLine.requestPath.getLast? = some '/' := decide_eq_true_iff

/-- The file that a GET is served from lies in the document root. -/
theorem confined_of_negotiation (get : request.header.requestLine.method = .get)
    (indexConfined : IndexConfined world root request) {requestTarget : RequestTarget}
    (parsed : parsePath world root request.header.requestLine.requestPath = .ok requestTarget)
    {path : Path} {metadata : Metadata}
    (negotiated : contentNegotiation world requestTarget request.header.headerLines =
      .ok (path, metadata)) (file : metadata.isDir = false) : Confined world root path := by
  obtain ⟨found, inside, isDir⟩ := confined_of_parsePath parsed
  obtain ⟨directory, isDir'⟩ := requestTarget
  change isDir' = _ at isDir
  by_cases slash : request.header.requestLine.requestPath.getLast? = some '/'
  · rw [decide_eq_true slash] at isDir
    rw [isDir, contentNegotiation_directory, Outcome.bind_eq_ok_iff] at negotiated
    obtain ⟨metadata', listed, same⟩ := negotiated
    cases same
    refine indexConfined (isIndexRequest_iff.mpr ⟨get, slash⟩) directory found inside metadata ?_
      file
    unfold metadataOr400 at listed
    cases answer : world.metadata (indexPath world directory request.header.headerLines) with
    | ok metadata' =>
        rw [answer] at listed
        cases listed
        rfl
    | error error =>
        rw [answer] at listed
        cases listed
  · rw [decide_eq_false slash] at isDir
    rw [isDir, contentNegotiation] at negotiated
    dsimp only at negotiated
    rw [if_neg Bool.false_ne_true, Outcome.bind_eq_ok_iff] at negotiated
    obtain ⟨_, _, same⟩ := negotiated
    cases same
    exact ⟨path, canonicalize_canonicalize found, inside⟩

/-- A request stays inside the root if the index that it asks for is there. -/
private theorem keepsInside_handleTarget (indexConfined : IndexConfined world root request) :
    Keeps (Session.Inside world root) (host.handleTarget world request root virtualHost) := by
  apply Keeps.lift_bind
  intro requestTarget parsed
  cases method : request.header.requestLine.method with
  | get =>
      apply keepsInside_handleGet host requestTarget request virtualHost
      exact fun path metadata negotiated file =>
        confined_of_negotiation method indexConfined parsed negotiated file
  | post =>
      obtain ⟨found, inside, _⟩ := confined_of_parsePath parsed
      exact keepsInside_script host.cgi request virtualHost
        ⟨requestTarget.path, canonicalize_canonicalize found, inside⟩

/-- A request for a file outside the document root is denied. -/
theorem denied_of_unconfined (indexConfined : IndexConfined world root request)
    (unconfined : ∀ file, request.file world root = some file → ¬Confined world root file)
    (session : Session) :
    Denied (host.handleTarget world request root virtualHost session).1 := by
  rw [Host.handleTarget, lift_bind_apply]
  cases parsed : parsePath world root request.header.requestLine.requestPath with
  | err error =>
      rw [parsePath_eq] at parsed
      split at parsed
      · split at parsed
        · cases parsed
        · cases parsed
          exact rfl
      · cases parsed
        exact rfl
  | abort =>
      rw [parsePath_eq] at parsed
      split at parsed
      · split at parsed <;> cases parsed
      · cases parsed
  | ok requestTarget =>
      obtain ⟨found, inside, isDir⟩ := confined_of_parsePath parsed
      by_cases index : request.isIndexRequest = true
      · have outside := unconfined _ (file_of_isIndexRequest index found)
        have confined := indexConfined index requestTarget.path found inside
        obtain ⟨get, slash⟩ := isIndexRequest_iff.mp index
        obtain ⟨directory, isDir'⟩ := requestTarget
        rw [decide_eq_true slash] at isDir
        change isDir' = _ at isDir
        subst isDir
        dsimp only
        rw [get]
        dsimp only
        rw [Host.handleGet, lift_bind_apply, contentNegotiation_directory, metadataOr400]
        cases listed : world.metadata (indexPath world directory request.header.headerLines) with
        | error error => exact rfl
        | ok metadata =>
            cases isDirectory : metadata.isDir with
            | true =>
                rw [Outcome.ofExcept_ok, Outcome.ok_bind]
                dsimp only
                rw [isDirectory]
                exact rfl
            | false => exact absurd (confined metadata listed isDirectory) outside
      · refine absurd ⟨requestTarget.path, found, inside⟩ (unconfined _ ?_)
        rw [Request.file, if_neg index]

/-- The path has been read or executed, or access was not denied. -/
def Escapes (path : Path) (result : Outcome HttpError Response × Session) : Prop :=
  (∃ access ∈ result.2.accesses, access.path = path) ∨ ¬Denied result.1

/-- Access to the path has been recorded. -/
def Session.Touched (path : Path) (session : Session) : Prop :=
  ∃ access ∈ session.accesses, access.path = path

private theorem touched_record (session : Session) (access : Access) :
    (session.record access).Touched access.path :=
  ⟨access, List.mem_append_right _ List.mem_cons_self, rfl⟩

private theorem not_denied_of_yields {call : Stateful Session HttpError Response}
    {session : Session} (yields : Yields call session
      (fun response => ¬response.header.statusLine.statusCode.isDenied)
      fun error => ¬error.status.isDenied) : ¬Denied (call session).1 := by
  unfold Yields at yields
  cases result : (call session).1 <;> rw [result] at yields
  · exact yields
  · exact yields
  · exact id

/-- A script at a path is executed there. -/
private theorem escapes_script (cgi : Cgi) (path : Path) (session : Session) :
    Escapes path (cgi.handle world path request virtualHost session) := by
  have internal : ¬StatusCode.internalServerError.isDenied := by decide
  unfold Cgi.handle
  cases port : cgi.serverConfig.directives.lookup .listenPort with
  | none => exact .inr internal
  | some serverPort =>
      rw [Outcome.okOr_some, lift_bind_apply]
      cases name : virtualHost.directives.lookup .serverName with
      | none => exact .inr internal
      | some serverName =>
          refine .inl ?_
          exact (Keeps.lift_bind fun _ _ => Keeps.pure _ :
            Keeps (Session.Touched path) _) _ (touched_record session (.execute path))

/-- A file at a path is read there, unless it is in the cache. -/
private theorem escapes_getContent (path : Path) (session : Session) :
    Escapes path (Files.getContent world path session) := by
  cases cached : session.files.cache.lookup path with
  | some file =>
      refine .inr (not_denied_of_yields ?_)
      have fetched : Yields (Files.fetch world path) session (fun _ => True) fun _ => False := by
        apply Yields.get_bind
        rw [cached]
        trivial
      apply fetched.imp (fun _ => id) (fun _ => False.elim) |>.bind
      intro file _ state
      refine Yields.lift_bind (fun _ _ => ?_) fun error failed => ?_
      · change ¬StatusCode.ok.isDenied
        decide
      · exact absurd failed (Files.lastModified_unfailing chrono file error)
  | none =>
      have fetched : ((Files.fetch world path) session).2.Touched path := by
        rw [Files.fetch, bind_apply]
        dsimp only [Stateful.get]
        rw [cached]
        exact Keeps.after (touched_record session (.read path)) fun _ =>
          keeps_load fun _ _ touched => touched
      exact .inl (Keeps.after fetched fun file => Keeps.lift_bind fun _ _ => Keeps.pure _)

/-- A GET for a file is answered from the path that is negotiated. -/
private theorem escapes_handleGet (host : Host) (requestTarget : RequestTarget) {path : Path}
    {metadata : Metadata}
    (negotiated : contentNegotiation world requestTarget request.header.headerLines =
      .ok (path, metadata)) (file : metadata.isDir = false) (session : Session) :
    Escapes path (host.handleGet world requestTarget request virtualHost session) := by
  rw [Host.handleGet, lift_bind_apply, negotiated]
  dsimp only
  rw [file, if_neg Bool.false_ne_true]
  split
  · exact escapes_script host.cgi path session
  · cases conditional : request.header.headerLines.lookup .ifModifiedSince with
    | none => exact escapes_getContent path session
    | some since =>
        dsimp only
        rw [lift_bind_apply]
        cases asked : Host.modifiedSinceDate world path since with
        | ok modSince =>
            cases modSince with
            | true => exact escapes_getContent path session
            | false =>
                refine .inr ?_
                change ¬StatusCode.notModified.isDenied
                decide
        | err error =>
            refine .inr ?_
            change ¬error.status.isDenied
            rw [Host.badRequest_of_modifiedSinceDate asked]
            decide
        | abort => exact .inr id

/-- An index outside the document root is not refused. -/
theorem escapes_handleTarget {directory : Path} {metadata : Metadata}
    (index : request.isIndexRequest = true)
    (found : world.canonicalize (targetPath root request.header.requestLine.requestPath) =
      .ok directory) (inside : Path.startsWith directory root = true)
    (listed : world.metadata (indexPath world directory request.header.headerLines) = .ok metadata)
    (file : metadata.isDir = false) (session : Session) :
    Escapes (indexPath world directory request.header.headerLines)
      (host.handleTarget world request root virtualHost session) := by
  obtain ⟨get, slash⟩ := isIndexRequest_iff.mp index
  have parsed : parsePath world root request.header.requestLine.requestPath =
      .ok { path := directory, isDir := true } := by
    rw [parsePath_eq, found]
    dsimp only
    rw [if_pos inside, decide_eq_true slash]
  rw [Host.handleTarget, parsed, lift_bind_apply, get]
  refine escapes_handleGet host _ ?_ file session
  rw [contentNegotiation_directory, metadataOr400, listed]
  rfl

/-- With a document root, all is kept inside exactly when the index is. -/
theorem keptInside_iff (now : Text) : KeptInside world root request
      (Host.respond now (host.handleTarget world request root virtualHost ⟨host.files, []⟩).1)
      (host.handleTarget world request root virtualHost ⟨host.files, []⟩).2.accesses ↔
    IndexConfined world root request := by
  constructor
  · rintro ⟨confined, denied⟩ index directory found inside metadata listed file
    by_contra outside
    have escapes : Escapes (indexPath world directory request.header.headerLines)
        (host.handleTarget world request root virtualHost ⟨host.files, []⟩) :=
      escapes_handleTarget index found inside listed file _
    rcases escapes with ⟨access, member, same⟩ | allowed
    · exact outside (same ▸ confined access member)
    · refine allowed (respond_denied_iff.mp (denied fun file isFile => ?_))
      rw [file_of_isIndexRequest index found] at isFile
      cases isFile
      exact outside
  · intro indexConfined
    refine ⟨?_, fun unconfined => ?_⟩
    · exact keepsInside_handleTarget indexConfined _ fun access member => nomatch member
    · exact respond_denied_iff.mpr (denied_of_unconfined indexConfined unconfined _)

end Target

/-- **Confinement to the document root.** Without a document root nothing is read or
executed. With one, only files in it are, and requests for others are denied, exactly
when the index that the request leads to lies in it. -/
theorem handle_confined_iff (printsUtc : chrono.PrintsUtc) (host : Host) (world : World chrono)
    (request : Request) (overloaded : Bool) :
    (match host.rootOf world request with
      | none => (host.handle world request overloaded).2.2 = []
      | some root => KeptInside world root request (host.handle world request overloaded).1
          (host.handle world request overloaded).2.2) ↔
      ∀ root, host.rootOf world request = some root → IndexConfined world root request := by
  obtain ⟨now, handled⟩ := Host.handle_eq printsUtc host world request overloaded
  rw [handled]
  cases selected : host.rootOf world request with
  | none =>
      refine iff_of_true ?_ nofun
      dsimp only
      rw [Host.handleResult_of_no_root selected overloaded]
  | some root =>
      obtain ⟨virtualHost, result⟩ := Host.handleResult_of_root selected overloaded
      dsimp only
      rw [result, keptInside_iff]
      simp only [Option.some.injEq, forall_eq']

/-- The rule holds of a page of the site. -/
theorem handle_confined_iff_page :
    (match Site.host.rootOf Site.world (Site.get "/page.txt") with
      | none => (Site.host.handle Site.world (Site.get "/page.txt") false).2.2 = []
      | some root => KeptInside Site.world root (Site.get "/page.txt")
          (Site.host.handle Site.world (Site.get "/page.txt") false).1
          (Site.host.handle Site.world (Site.get "/page.txt") false).2.2) ↔
      ∀ root, Site.host.rootOf Site.world (Site.get "/page.txt") = some root →
        IndexConfined Site.world root (Site.get "/page.txt") :=
  handle_confined_iff gregorian_printsUtc Site.host Site.world (Site.get "/page.txt") false

/-- The index of `docs` is read although it leads out of the root. Asked for by its own
path, it is forbidden. -/
theorem handle_index_not_confined : ∃ root,
    Site.host.rootOf Site.world (Site.get "/docs/") = some root ∧
      (∃ access ∈ (Site.host.handle Site.world (Site.get "/docs/") false).2.2,
        ¬Confined Site.world root access.path) ∧
      ∃ response, (Site.host.handle Site.world (Site.get "/docs/index.html") false).1 =
        .ok response ∧ response.header.statusLine.statusCode = .forbidden := by
  have selected : Site.host.rootOf Site.world (Site.get "/docs/") =
      some (Path.ofBytes (encode "/www".toList)) := by decide +kernel
  have accessed : (Site.host.handle Site.world (Site.get "/docs/") false).2.2 =
      [.read (Path.ofBytes (encode "/www/docs/index.html".toList))] := by decide +kernel
  have canonical : Site.world.canonicalize (Path.ofBytes (encode "/www/docs/index.html".toList)) =
      .ok (Path.ofBytes (encode "/etc/secret".toList)) := by decide +kernel
  have refused : ((Site.host.handle Site.world (Site.get "/docs/index.html") false).1.toOption.map
      fun response => response.header.statusLine.statusCode) = some .forbidden := by
    decide +kernel
  refine ⟨_, selected, ⟨_, accessed ▸ List.mem_cons_self, ?_⟩, ?_⟩
  · rintro ⟨path, found, inside⟩
    rw [Access.path, canonical] at found
    cases found
    revert inside
    decide +kernel
  · cases answered : (Site.host.handle Site.world (Site.get "/docs/index.html") false).1 with
    | ok response =>
        rw [answered] at refused
        exact ⟨response, rfl, Option.some.inj refused⟩
    | err error =>
        rw [answered] at refused
        cases refused
    | abort =>
        rw [answered] at refused
        cases refused

end RustHttpServer
