import RustHttpServer.Host
import RustHttpServer.Http.Framing

/-!
# What requests are answered from

A request is answered from a file, from the output of a script, or from nothing at all:
errors, the heartbeat and "not modified" have no body (`Host.source`). The response
of `Host::handle` has the body, the length and the transfer coding of its source, and
no line of its head is broken (`handle_answers`).
-/

namespace RustHttpServer

open Foundation Utf8

/-- What the body of a response comes from. -/
inductive Source
  | nothing
  | file (content : Text)
  | script (headers : ResponseHeaderLines) (body : Text)
  deriving DecidableEq

namespace Source

/-- The body of the response. -/
def body : Source → Text
  | .nothing => []
  | .file content => content
  | .script _ body => body

/-- The value of `Content-Length`. -/
def length : Source → Nat
  | .nothing => 0
  | .file content => byteLength content + 2
  | .script _ body => byteLength body + 2

/-- The value of `Transfer-Encoding`, which only a script may set. -/
def encoding : Source → Option Text
  | .nothing => none
  | .file _ => none
  | .script headers _ => headers.lookup .transferEncoding

end Source

/-- What is left to do for a request once its path has been resolved. -/
inductive Work
  | script (path : Path) (virtualHost : VirtualHost)
  | file (path : Path)
  deriving DecidableEq

variable {chrono : Chrono}

namespace Host

/-- What a GET leads to, if anything. -/
def workOfGet (world : World chrono) (requestTarget : RequestTarget) (request : Request)
    (virtualHost : VirtualHost) : Option Work := do
  let (path, metadata) ←
    (contentNegotiation world requestTarget request.header.headerLines).toOption
  if metadata.isDir then none
  else if isExecutable metadata then some (.script path virtualHost)
  else some (.file path)

/-- What a request leads to, if anything. -/
def work (host : Host) (world : World chrono) (request : Request) : Option Work := do
  let hostPath ← request.header.headerLines.lookup .host
  let virtualHost ←
    (getVirtualHost host.serverConfig.virtualHosts hostPath : Outcome HttpError _).toOption
  if request.header.requestLine.method = .get ∧
      request.header.requestLine.requestPath = "/load".toList then
    none
  else
    let documentRoot ← documentRoot world virtualHost
    let requestTarget ←
      (parsePath world documentRoot request.header.requestLine.requestPath).toOption
    match request.header.requestLine.method with
    | .get => workOfGet world requestTarget request virtualHost
    | .post => some (.script requestTarget.path virtualHost)

/-- What the output of a script is answered with. -/
def scriptSource (host : Host) (world : World chrono) (request : Request) (path : Path)
    (virtualHost : VirtualHost) : Option Source :=
  match host.cgi.serverConfig.directives.lookup .listenPort,
      virtualHost.directives.lookup .serverName with
  | some serverPort, some serverName =>
      let run := world.cgi {
        path
        envs := Cgi.environment request serverName serverPort
        stdin := encode request.body }
      match Cgi.outputText run >>= processCgiOutput with
      | .ok (headers, body) => some (.script headers body)
      | _ => none
  | _, _ => none

/-- What a file is answered with: its content, in the cache or on disk, unless the client
has it. -/
def fileSource (host : Host) (world : World chrono) (request : Request) (path : Path) :
    Option Source :=
  if (request.header.headerLines.lookup .ifModifiedSince).all fun since =>
      (modifiedSinceDate world path since).toOption = some true then
    match host.files.cache.lookup path with
    | some file => some (.file file.content)
    | none => (world.readToString path).toOption.map .file
  else none

/-- What the rest of the work is answered with. -/
def workSource (host : Host) (world : World chrono) (request : Request) : Work → Option Source
  | .script path virtualHost => host.scriptSource world request path virtualHost
  | .file path => host.fileSource world request path

/-- What a request is answered from. -/
def source (host : Host) (world : World chrono) (request : Request) : Source :=
  ((host.work world request).bind (host.workSource world request)).getD .nothing

end Host

/-! ### The head of a response -/

/-- The response has the body, the length and the transfer coding of its source, and no
line of its head is broken. -/
structure Source.Answers (source : Source) (response : Response) : Prop where
  oneLine : response.header.OneLine
  body : response.body = source.body
  length : response.header.headerLines.lookup .contentLength = some (Text.decimal source.length)
  encoding : response.header.headerLines.lookup .transferEncoding = source.encoding

/-- No value of the header lines has a line break in it. -/
def OneLineValues (headerLines : ResponseHeaderLines) : Prop :=
  ∀ field value, headerLines.lookup field = some value → '\n' ∉ value

/-- No header has no line break in it. -/
theorem OneLineValues.empty : OneLineValues ∅ := by
  intro field value found
  rw [Finmap.lookup_empty] at found
  cases found

/-- A header without a line break leaves all headers without one. -/
theorem OneLineValues.insert {headerLines : ResponseHeaderLines}
    (oneLine : OneLineValues headerLines) (field : ResponseHeaderField) {value : Text}
    (unbroken : '\n' ∉ value) :
    OneLineValues (headerLines.insert field value) := by
  intro other found same
  by_cases equal : other = field
  · rw [equal, Finmap.lookup_insert] at same
    cases same
    exact unbroken
  · rw [Finmap.lookup_insert_of_ne _ equal] at same
    exact oneLine other found same

private theorem newline_not_mem_httpVersion11 : '\n' ∉ httpVersion11 := by decide

/-- A response with nothing but a length of zero. -/
theorem answers_nothing (statusCode : StatusCode) : Source.nothing.Answers
    { header := {
        statusLine := { statusCode, httpVersion := httpVersion11 }
        headerLines := Finmap.insert .contentLength "0".toList ∅ }
      body := [] } where
  oneLine := ⟨newline_not_mem_httpVersion11, OneLineValues.empty.insert .contentLength (by decide)⟩
  body := rfl
  length := Finmap.lookup_insert _
  encoding := by
    rw [Finmap.lookup_insert_of_ne _ (by decide), Finmap.lookup_empty]
    rfl

private theorem newline_not_mem_of_cgiHeader {line : Text} (unbroken : '\n' ∉ line)
    {field : ResponseHeaderField} {value : Text} (parsed : cgiHeader line = some (field, value)) :
    '\n' ∉ value := by
  simp only [cgiHeader, Option.bind_eq_bind, Option.bind_eq_some_iff, Option.pure_def,
    Option.some.injEq, Prod.mk.injEq] at parsed
  obtain ⟨⟨name, text⟩, found, _, _, _, rfl⟩ := parsed
  intro inside
  apply unbroken
  rw [(splitOnce_char_iff.mp found).1]
  exact List.mem_append_right _ (List.mem_cons_of_mem _ (Text.mem_of_mem_trim inside))

/-- What is collected stood in one of the lines. -/
theorem lookup_collectHeader {lines : List Text} {collected : Option ResponseHeaderLines}
    {map : ResponseHeaderLines} (inside : map ∈ lines.foldl collectHeader collected)
    {field : ResponseHeaderField} {value : Text} (found : map.lookup field = some value) :
    (∃ line ∈ lines, cgiHeader line = some (field, value)) ∨
      ∃ before ∈ collected, before.lookup field = some value := by
  induction lines generalizing collected with
  | nil => exact .inr ⟨map, inside, found⟩
  | cons line lines ih =>
      rcases ih inside with ⟨other, member, parsed⟩ | ⟨next, held, lookup⟩
      · exact .inl ⟨other, List.mem_cons_of_mem line member, parsed⟩
      · simp only [collectHeader, Option.bind_eq_bind, Option.mem_def, Option.bind_eq_some_iff,
          Option.pure_def, Option.some.injEq] at held
        obtain ⟨before, earlier, ⟨name, text⟩, parsed, rfl⟩ := held
        rcases HashMap.of_lookup_insert lookup with ⟨rfl, rfl⟩ | ⟨_, lookup⟩
        · exact .inl ⟨line, List.mem_cons_self, parsed⟩
        · exact .inr ⟨before, earlier, lookup⟩

/-- Every header of a script's output stood in a line of it. -/
theorem exists_line_of_processCgiOutput {s : Text} {headers : ResponseHeaderLines} {body : Text}
    (parsed : processCgiOutput s = .ok (headers, body)) {field : ResponseHeaderField}
    {value : Text} (found : headers.lookup field = some value) :
    ∃ line, '\n' ∉ line ∧ cgiHeader line = some (field, value) := by
  simp only [processCgiOutput, Outcome.bind_eq_ok_iff, Outcome.okOr_eq_ok_iff,
    Option.bind_eq_some_iff, Outcome.pure_eq, Outcome.ok.injEq, Prod.mk.injEq] at parsed
  obtain ⟨_, ⟨section_, _, collected⟩, rfl, _⟩ := parsed
  rcases lookup_collectHeader collected found with ⟨line, inside, parsed⟩ | ⟨_, ⟨⟩, lookup⟩
  · exact ⟨line, not_mem_of_mem_split _ inside, parsed⟩
  · rw [Finmap.lookup_empty] at lookup
    cases lookup

private theorem oneLineValues_of_processCgiOutput {s : Text} {headers : ResponseHeaderLines}
    {body : Text} (parsed : processCgiOutput s = .ok (headers, body)) : OneLineValues headers := by
  intro field value found
  obtain ⟨line, unbroken, header⟩ := exists_line_of_processCgiOutput parsed found
  exact newline_not_mem_of_cgiHeader unbroken header

/-! ### The responses of the handler -/

private theorem answers_script {headers : ResponseHeaderLines} (oneLine : OneLineValues headers)
    (body : Text) : (Source.script headers body).Answers
      { header := {
          statusLine := { statusCode := .ok, httpVersion := httpVersion11 }
          headerLines := headers.insert .contentLength (Text.decimal (byteLength body + 2)) }
        body } where
  oneLine := ⟨newline_not_mem_httpVersion11,
    oneLine.insert .contentLength (Text.newline_not_mem_decimal _)⟩
  body := rfl
  length := Finmap.lookup_insert _
  encoding := Finmap.lookup_insert_of_ne _ (by decide)

/-- The types of files that there are. -/
theorem mem_contentTypes {path : Path} {contentType : Text}
    (known : Files.contentType path = some contentType) :
    contentType ∈ ["text/plain".toList, "text/html".toList, "image/jpeg".toList] := by
  simp only [Files.contentType, Option.bind_eq_some_iff] at known
  obtain ⟨extension, _, known⟩ := known
  split at known
  · cases known
  · split at known
    · cases known
      exact .head _
    · split at known
      · cases known
        exact .tail _ (.head _)
      · split at known
        · cases known
          exact .tail _ (.tail _ (.head _))
        · cases known

private theorem newline_not_mem_contentType {path : Path} {contentType : Text}
    (known : Files.contentType path = some contentType) : '\n' ∉ contentType := by
  have unbroken : ∀ text ∈ ["text/plain".toList, "text/html".toList, "image/jpeg".toList],
      '\n' ∉ text := by decide
  exact unbroken contentType (mem_contentTypes known)

private theorem lookup_fileHeaderLines {path : Path} {file : File} {modifiedStr : Text}
    {field : ResponseHeaderField} (notType : field ≠ .contentType)
    (notDate : field ≠ .lastModified) :
    (Files.headerLines path file modifiedStr).lookup field =
      (Finmap.insert .contentLength (Text.decimal (byteLength file.content + 2)) ∅ :
        ResponseHeaderLines).lookup field := by
  unfold Files.headerLines
  split
  · rw [Finmap.lookup_insert_of_ne _ notType, Finmap.lookup_insert_of_ne _ notDate]
  · rw [Finmap.lookup_insert_of_ne _ notDate]

/-- A file is answered with its content, its length and its date. -/
private theorem answers_file (path : Path) (file : File) {modifiedStr : Text}
    (unbroken : '\n' ∉ modifiedStr) : (Source.file file.content).Answers
      { header := {
          statusLine := { statusCode := .ok, httpVersion := httpVersion11 }
          headerLines := Files.headerLines path file modifiedStr }
        body := file.content } where
  oneLine := by
    refine ⟨newline_not_mem_httpVersion11, ?_⟩
    have dated := (OneLineValues.empty.insert .contentLength
      (Text.newline_not_mem_decimal (byteLength file.content + 2))).insert .lastModified unbroken
    change OneLineValues (Files.headerLines path file modifiedStr)
    unfold Files.headerLines
    cases known : Files.contentType path with
    | none => exact dated
    | some contentType => exact dated.insert .contentType (newline_not_mem_contentType known)
  body := rfl
  length := (lookup_fileHeaderLines (by decide) (by decide)).trans (Finmap.lookup_insert _)
  encoding := by
    refine (lookup_fileHeaderLines (by decide) (by decide)).trans ?_
    rw [Finmap.lookup_insert_of_ne _ (by decide), Finmap.lookup_empty]
    rfl

private theorem newline_not_mem_of_lastModified (printsUtc : chrono.PrintsUtc) {file : File}
    {modifiedStr : Text} (dated : (Files.lastModified chrono file : Outcome HttpError Text) =
      .ok modifiedStr) : '\n' ∉ modifiedStr := by
  simp only [Files.lastModified, Outcome.bind_eq_ok_iff] at dated
  obtain ⟨_, _, _, _, datetime, _, printed⟩ := dated
  obtain ⟨text, printed', unbroken⟩ := to1123_eq printsUtc datetime
  rw [printed'] at printed
  cases printed
  rw [List.mem_append, not_or]
  exact ⟨unbroken, by decide⟩

variable {world : World chrono} {request : Request} {session : Session}

open Stateful

/-- What `get_content` responds is a file of the cache, or else of the disk. -/
private theorem yields_getContent (printsUtc : chrono.PrintsUtc) (path : Path) :
    Yields (Files.getContent world path) session
      (fun response => ∃ file : File, (session.files.cache.lookup path = some file ∨
        session.files.cache.lookup path = none ∧ world.readToString path = .ok file.content) ∧
        (Source.file file.content).Answers response)
      fun _ => session.files.cache.lookup path = none ∧
        ∀ text, world.readToString path ≠ .ok text := by
  have fetched : Yields (Files.fetch world path) session
      (fun file => session.files.cache.lookup path = some file ∨
        session.files.cache.lookup path = none ∧ world.readToString path = .ok file.content)
      fun _ => session.files.cache.lookup path = none ∧
        ∀ text, world.readToString path ≠ .ok text := by
    apply Yields.get_bind
    cases cached : session.files.cache.lookup path with
    | some file => exact .inl rfl
    | none =>
        apply Yields.modify_bind
        unfold Files.load
        cases read : world.readToString path with
        | ok content =>
            refine Yields.lift_bind (fun metadata _ => ?_) ?_
            · exact .inr ⟨rfl, rfl⟩
            · exact fun error failed => absurd failed (Outcome.Unfailing.unwrap _ error)
        | error error => exact ⟨rfl, nofun⟩
  apply fetched.bind
  intro file source state
  refine Yields.lift_bind (fun modifiedStr dated => ?_) ?_
  · exact ⟨file, source, answers_file path file (newline_not_mem_of_lastModified printsUtc dated)⟩
  · intro error failed
    exact absurd failed (Files.lastModified_unfailing chrono file error)

/-- A call responds from a source if there is one, and fails only if there is none. -/
def FromSource (source : Option Source) (call : Stateful Session HttpError Response)
    (session : Session) : Prop :=
  Yields call session (source.getD .nothing).Answers fun _ => source = none

/-- What is responded for a script is determined by what it comes to. -/
private theorem fromSource_script (host : Host) (path : Path) (virtualHost : VirtualHost) :
    FromSource (host.scriptSource world request path virtualHost)
      (host.cgi.handle world path request virtualHost) session := by
  refine Yields.okOr_bind (fun serverPort port => ?_) fun missing => ?_
  · refine Yields.okOr_bind (fun serverName name => Yields.modify_bind ?_) fun missing => ?_
    · simp only [Host.scriptSource, port, name]
      cases output : Cgi.outputText (world.cgi {
          path
          envs := Cgi.environment request serverName serverPort
          stdin := encode request.body }) >>= processCgiOutput with
      | ok parsed =>
          obtain ⟨_, _, collected⟩ := Outcome.bind_eq_ok_iff.mp output
          exact answers_script (oneLineValues_of_processCgiOutput collected) parsed.2
      | err error => exact rfl
      | abort => exact trivial
    · simp only [Host.scriptSource, port, missing]
  · simp only [Host.scriptSource, missing]

/-- What is responded for a file is determined by its content. -/
private theorem fromSource_file (printsUtc : chrono.PrintsUtc) (host : Host) (path : Path)
    (sameFiles : session.files = host.files)
    (stale : (request.header.headerLines.lookup .ifModifiedSince).all fun since =>
      (Host.modifiedSinceDate world path since).toOption = some true) :
    FromSource (host.fileSource world request path) (Files.getContent world path) session := by
  rw [FromSource, Host.fileSource, if_pos stale, ← sameFiles]
  refine (yields_getContent printsUtc path).imp ?_ ?_
  · rintro response ⟨file, cached | ⟨uncached, read⟩, answers⟩
    · rw [cached]
      exact answers
    · rw [uncached, read]
      exact answers
  · rintro _ ⟨uncached, unread⟩
    rw [uncached]
    cases read : world.readToString path with
    | ok text => exact absurd read (unread text)
    | error error => rfl

private theorem fileSource_of_fresh {host : Host} {path : Path} {since : Text}
    (conditional : request.header.headerLines.lookup .ifModifiedSince = some since)
    (fresh : (Host.modifiedSinceDate world path since).toOption ≠ some true) :
    host.fileSource world request path = none := by
  rw [Host.fileSource, conditional, Option.all_some, if_neg]
  exact fun stale => fresh (of_decide_eq_true stale)

/-- What is responded to a GET is determined by the work that it leads to. -/
private theorem fromSource_handleGet (printsUtc : chrono.PrintsUtc) (host : Host)
    (requestTarget : RequestTarget) (virtualHost : VirtualHost)
    (sameFiles : session.files = host.files) :
    FromSource ((Host.workOfGet world requestTarget request virtualHost).bind
        (host.workSource world request))
      (host.handleGet world requestTarget request virtualHost) session := by
  unfold Host.workOfGet
  refine Yields.lift_bind (fun negotiated found => ?_) fun error failed => ?_
  · obtain ⟨path, metadata⟩ := negotiated
    rw [found]
    dsimp only [Outcome.toOption_ok, Option.bind_eq_bind, Option.bind_some]
    by_cases directory : metadata.isDir
    · rw [if_pos directory, if_pos directory]
      exact Yields.lift_err rfl
    · rw [if_neg directory, if_neg directory]
      by_cases executable : Host.isExecutable metadata
      · rw [if_pos executable, if_pos executable]
        exact fromSource_script host path virtualHost
      · rw [if_neg executable, if_neg executable, Option.bind_some]
        have file : _ → FromSource (host.fileSource world request path)
            (Files.getContent world path) session :=
          fromSource_file printsUtc host path sameFiles
        cases conditional : request.header.headerLines.lookup .ifModifiedSince with
        | none => exact file (by rw [conditional]; rfl)
        | some since =>
            refine Yields.lift_bind (fun modSince asked => ?_) fun error failed => ?_
            · cases modSince with
              | true => exact file (by rw [conditional, Option.all_some, asked]; rfl)
              | false =>
                  have source : host.workSource world request (.file path) = none :=
                    fileSource_of_fresh conditional (by rw [asked]; decide)
                  rw [source]
                  exact answers_nothing .notModified
            · exact fileSource_of_fresh conditional (by rw [failed]; exact nofun)
  · rw [failed]
    rfl

/-- What is responded to a request is determined by the work that it leads to. -/
private theorem fromSource_handleResult (printsUtc : chrono.PrintsUtc) (host : Host)
    (overloaded : Bool) (sameFiles : session.files = host.files) :
    FromSource ((host.work world request).bind (host.workSource world request))
      (host.handleResult world request overloaded) session := by
  unfold Host.work
  refine Yields.okOr_bind (fun hostPath found => ?_) fun missing => by rw [missing]; rfl
  rw [found, Option.bind_eq_bind, Option.bind_some]
  refine Yields.lift_bind (fun virtualHost selected => ?_) fun error failed => by rw [failed]; rfl
  rw [selected, Outcome.toOption_ok, Option.bind_eq_bind, Option.bind_some]
  split
  · exact answers_nothing _
  · refine Yields.okOr_bind (fun root canonical => ?_) fun missing => by rw [missing]; rfl
    rw [canonical, Option.bind_eq_bind, Option.bind_some]
    refine Yields.lift_bind (fun requestTarget parsed => ?_) fun error failed => by rw [failed]; rfl
    rw [parsed, Outcome.toOption_ok, Option.bind_eq_bind, Option.bind_some]
    cases request.header.requestLine.method with
    | get => exact fromSource_handleGet printsUtc host requestTarget virtualHost sameFiles
    | post => exact fromSource_script host requestTarget.path virtualHost

/-- The header lines that every response is given do not touch its framing. -/
theorem Source.Answers.finish {source : Source} {response : Response}
    (answers : source.Answers response) {now : Text} (unbroken : '\n' ∉ now) :
    source.Answers (Host.finish now response) where
  oneLine := by
    refine ⟨answers.oneLine.version, ?_⟩
    exact OneLineValues.insert (OneLineValues.insert answers.oneLine.values .server (by decide))
      .date unbroken
  body := answers.body
  length := by
    rw [Host.finish, Finmap.lookup_insert_of_ne _ (by decide),
      Finmap.lookup_insert_of_ne _ (by decide)]
    exact answers.length
  encoding := by
    rw [Host.finish, Finmap.lookup_insert_of_ne _ (by decide),
      Finmap.lookup_insert_of_ne _ (by decide)]
    exact answers.encoding

/-- **Responses come from their source.** -/
theorem handle_answers (printsUtc : chrono.PrintsUtc) (host : Host) (world : World chrono)
    (request : Request) (overloaded : Bool) {response : Response} {after : Host}
    {accesses : List Access}
    (handled : host.handle world request overloaded = (.ok response, after, accesses)) :
    (host.source world request).Answers response := by
  have yields : Yields (host.handleWith world request overloaded) ⟨host.files, []⟩
      (host.source world request).Answers fun _ => True := by
    have recovered : Yields ((host.handleResult world request overloaded).recover fun error =>
        errorResponse error.status : Stateful Session Error Response) ⟨host.files, []⟩
        (host.source world request).Answers fun _ => True := by
      apply Yields.recover
      refine (fromSource_handleResult printsUtc host overloaded rfl).imp (fun _ => id) ?_
      intro error missing
      rw [Host.source, missing]
      exact answers_nothing error.status
    apply recovered.bind
    intro response answers state
    refine Yields.lift_bind (fun now printed => ?_) fun _ _ => trivial
    obtain ⟨text, printed', unbroken⟩ := to1123_eq printsUtc world.now
    rw [printed'] at printed
    cases printed
    apply answers.finish
    rw [List.mem_append, not_or]
    exact ⟨unbroken, by decide⟩
  unfold Yields at yields
  simp only [Host.handle, Prod.mk.injEq] at handled
  rw [handled.1] at yields
  exact yields

end RustHttpServer
