import RustHttpServer.Foundation.Transition
import RustHttpServer.Host.Site
import RustHttpServer.Host.Work

/-!
# Visits to a host

A host handles one request after another, and the world may change in between. What a
host keeps between two visits is its cache. A visit leaves the cache as it is, unless it
is the first to fetch a file that can be read (`exchange_of_fetches`, `exchange_of_idle`),
so the cache holds of each file what the first visit has read (`cache_read`).
-/

namespace RustHttpServer

open Foundation Stateful

variable {chrono : Chrono}

/-- The file at a path, if it can be read. -/
def World.file (world : World chrono) (path : Path) : Option File := do
  let content ← (world.readToString path).toOption
  let metadata ← (world.metadata path).toOption
  return { content, modified := metadata.modified }

/-- The file has the content that is read and the modification time that is listed. -/
theorem World.file_eq_some_iff {world : World chrono} {path : Path} {file : File} :
    world.file path = some file ↔ world.readToString path = .ok file.content ∧
      ∃ metadata, world.metadata path = .ok metadata ∧ metadata.modified = file.modified := by
  unfold World.file
  cases content : world.readToString path with
  | error error => simp [Except.toOption]
  | ok text =>
      cases listed : world.metadata path with
      | error error => simp [Except.toOption]
      | ok metadata =>
          constructor
          · intro same
            cases same
            exact ⟨rfl, metadata, rfl, rfl⟩
          · rintro ⟨read, _, same, modified⟩
            cases read
            cases same
            exact congrArg (fun modified => some (File.mk file.content modified)) modified

/-- What can be read has metadata. -/
theorem World.metadata_of_readToString {world : World chrono} {path : Path} {content : Text}
    (read : world.readToString path = .ok content) :
    ∃ metadata, world.metadata path = .ok metadata := by
  unfold World.readToString at read
  unfold World.metadata
  cases found : world.fs.find path with
  | error error =>
      rw [found] at read
      cases read
  | ok target =>
      cases target with
      | file file => exact ⟨_, rfl⟩
      | directory => exact ⟨_, rfl⟩

/-- A request to a host, and the world in which the host handles it. -/
structure Visit (chrono : Chrono) where
  world : World chrono
  request : Request
  overloaded : Bool

/-- A visit with the response to it. -/
structure Exchange (chrono : Chrono) extends Visit chrono where
  response : Response

namespace Host

/-- A visit that a host responds to, and the host afterwards. -/
def Responds (host : Host) (exchange : Exchange chrono) (after : Host) : Prop :=
  ∃ accesses, host.handle exchange.world exchange.request exchange.overloaded =
    (.ok exchange.response, after, accesses)

/-- The visits to one host, one after another. -/
def visits (chrono : Chrono) (serverConfig : ServerConfig) :
    TransitionSystem Host (Exchange chrono) where
  initial host := (new serverConfig : Outcome Error Host) = .ok host
  step := Responds

end Host

namespace Visit

/-- The visit is a GET for the static file at a path. -/
def Targets (serverConfig : ServerConfig) (visit : Visit chrono) (path : Path) : Prop :=
  (Host.fresh serverConfig).work visit.world visit.request = some (.file path)

/-- The visit is a GET for the static file at a path, and the client does not have it. -/
structure Fetches (serverConfig : ServerConfig) (visit : Visit chrono) (path : Path) : Prop where
  targets : visit.Targets serverConfig path
  wanted : ∀ since, visit.request.header.headerLines.lookup .ifModifiedSince = some since →
    Host.modifiedSinceDate visit.world path since = .ok true

/-- One visit is for one file. -/
theorem Targets.unique {serverConfig : ServerConfig} {visit : Visit chrono} {first second : Path}
    (one : visit.Targets serverConfig first) (other : visit.Targets serverConfig second) :
    first = second := by
  have same := one.symm.trans other
  cases same
  rfl

end Visit

/-! ### One visit -/

namespace Files

variable {world : World chrono} {path : Path} {session after : Session}

/-- A file comes from the cache, or from the disk into the cache. -/
inductive Fetched (world : World chrono) (path : Path) (file : File) (session : Session) :
    Session → Prop
  | cached : session.files.cache.lookup path = some file → Fetched world path file session session
  | read : session.files.cache.lookup path = none → world.file path = some file →
      Fetched world path file session ((session.record (.read path)).insert path file)

/-- A file that is there is read and put into the cache. -/
theorem load_of_file {file : File} (found : world.file path = some file) :
    load world path session = (.ok file, session.insert path file) := by
  obtain ⟨content, time⟩ := file
  obtain ⟨read, metadata, listed, rfl⟩ := World.file_eq_some_iff.mp found
  rw [load, read]
  dsimp only
  rw [listed]
  rfl

/-- A file that cannot be read is not put into the cache. -/
theorem load_of_unreadable (missing : world.file path = none) :
    ∃ error : HttpError, error.status ≠ .ok ∧ load world path session = (.err error, session) := by
  cases content : world.readToString path with
  | error error =>
      refine ⟨_, ?_, by rw [load, content]; rfl⟩
      dsimp only
      split
      · decide
      · decide
  | ok text =>
      obtain ⟨metadata, listed⟩ := World.metadata_of_readToString content
      have found : world.file path = some ⟨text, metadata.modified⟩ :=
        World.file_eq_some_iff.mpr ⟨content, metadata, listed, rfl⟩
      cases found.symm.trans missing

/-- A file in the cache is taken from there. -/
theorem fetch_of_cached {file : File} (cached : session.files.cache.lookup path = some file) :
    fetch world path session = (.ok file, session) := by
  rw [fetch, get_bind_apply, cached]
  rfl

/-- A file that is not in the cache is loaded, and the access recorded. -/
theorem fetch_of_uncached (uncached : session.files.cache.lookup path = none) :
    fetch world path session = load world path (session.record (.read path)) := by
  rw [fetch, get_bind_apply, uncached]
  rfl

/-- A file that is fetched was in the cache, or is now. -/
private theorem fetched_of_ok {file : File}
    (returned : fetch world path session = (.ok file, after)) :
    Fetched world path file session after := by
  cases cached : session.files.cache.lookup path with
  | some kept =>
      rw [fetch_of_cached cached] at returned
      cases returned
      exact .cached cached
  | none =>
      rw [fetch_of_uncached cached] at returned
      cases found : world.file path with
      | some kept =>
          rw [load_of_file found] at returned
          cases returned
          exact .read cached found
      | none =>
          obtain ⟨error, _, failed⟩ := @load_of_unreadable _ _ _ (session.record (.read path)) found
          rw [failed] at returned
          cases returned

/-- What cannot be fetched is not in the cache and cannot be read. -/
theorem fetch_of_err {error : HttpError}
    (failed : fetch world path session = (.err error, after)) :
    session.files.cache.lookup path = none ∧ world.file path = none ∧
      after.files = session.files ∧ error.status ≠ .ok := by
  cases cached : session.files.cache.lookup path with
  | some kept =>
      rw [fetch_of_cached cached] at failed
      cases failed
  | none =>
      rw [fetch_of_uncached cached] at failed
      cases found : world.file path with
      | some kept =>
          rw [load_of_file found] at failed
          cases failed
      | none =>
          obtain ⟨reason, bad, loaded⟩ :=
            @load_of_unreadable _ _ _ (session.record (.read path)) found
          rw [loaded] at failed
          cases failed
          exact ⟨rfl, rfl, rfl, bad⟩

/-- Only fetching a file fails, dating it does not. -/
private theorem fetch_of_getContent_err {error : HttpError}
    (failed : getContent world path session = (.err error, after)) :
    fetch world path session = (.err error, after) := by
  rw [getContent, bind_apply] at failed
  cases fetched : fetch world path session with
  | mk outcome between =>
      rw [fetched] at failed
      cases outcome with
      | err reason =>
          cases failed
          rfl
      | abort => cases failed
      | ok file =>
          dsimp only at failed
          rw [lift_bind_apply] at failed
          cases dated : (lastModified chrono file : Outcome HttpError Text) with
          | ok modifiedStr =>
              rw [dated] at failed
              cases failed
          | err reason => exact absurd dated (lastModified_unfailing chrono file reason)
          | abort =>
              rw [dated] at failed
              cases failed

end Files

/-- The response to the exchange is made of a file. -/
def Exchange.Serves (exchange : Exchange chrono) (path : Path) (file : File) : Prop :=
  ∃ modifiedStr now, (Files.lastModified chrono file : Outcome HttpError Text) = .ok modifiedStr ∧
    exchange.response = Host.finish now (fileResponse path file modifiedStr)

/-- The status of the response. -/
abbrev Exchange.status (exchange : Exchange chrono) : StatusCode :=
  exchange.response.header.statusLine.statusCode

namespace Host

/-- The host with a file in its cache. -/
def keep (host : Host) (path : Path) (file : File) : Host :=
  { host with files := { cache := Finmap.insert path file host.files.cache } }

/-- What a visit comes to: its file is in the cache, or on disk, or nowhere, or it does
not fetch a file at all. -/
inductive Effect (host : Host) (exchange : Exchange chrono) : Host → Prop
  | hit {path : Path} {file : File} : exchange.Fetches host.serverConfig path →
      host.files.cache.lookup path = some file → exchange.Serves path file →
        Effect host exchange host
  | miss {path : Path} {file : File} : exchange.Fetches host.serverConfig path →
      host.files.cache.lookup path = none → exchange.world.file path = some file →
        exchange.Serves path file → Effect host exchange (host.keep path file)
  | failed {path : Path} : exchange.Fetches host.serverConfig path →
      host.files.cache.lookup path = none → exchange.world.file path = none →
        exchange.status ≠ .ok → Effect host exchange host
  | idle : (∀ path, ¬ exchange.Fetches host.serverConfig path) →
      (∀ path, exchange.Targets host.serverConfig path → exchange.status ≠ .ok) →
        Effect host exchange host

variable {host after : Host} {world : World chrono} {request : Request} {path : Path}
  {session final : Session}

private theorem files_of_script (cgi : Cgi) (virtualHost : VirtualHost) :
    (cgi.handle world path request virtualHost session).2.files = session.files := by
  have keeps : Keeps (fun state : Session => state.files = session.files)
      (cgi.handle world path request virtualHost) :=
    cgi.keeps_handle request virtualHost fun _ same => same
  exact keeps session rfl

/-- A file that the client wants is served whatever its date. -/
theorem serveFile_of_wanted
    (wanted : ∀ since, request.header.headerLines.lookup .ifModifiedSince = some since →
      modifiedSinceDate world path since = .ok true) :
    serveFile world request path session = Files.getContent world path session := by
  unfold serveFile
  cases conditional : request.header.headerLines.lookup .ifModifiedSince with
  | none => rfl
  | some since =>
      dsimp only
      rw [lift_bind_apply, wanted since conditional]
      rfl

private theorem session_of_returned {result : Outcome HttpError Response × Session}
    {produced : Response} (returned : result = (.ok produced, session) ∨
      ∃ error, result = (.err error, session) ∧ errorResponse error.status = produced) :
    result.2 = session := by
  rcases returned with answered | ⟨error, failed, -⟩
  · rw [answered]
  · rw [failed]

/-- A response with another status than "OK", or an error that becomes one. -/
def Refused (result : Outcome HttpError Response × Session) (session : Session) : Prop :=
  result.2 = session ∧
    (∀ response, result.1 = .ok response → response.header.statusLine.statusCode ≠ .ok) ∧
    ∀ error, result.1 = .err error → error.status ≠ .ok

private theorem Refused.produced_ne_ok {result : Outcome HttpError Response × Session}
    {before : Session} {produced : Response} (refused : Refused result before)
    (returned : result = (.ok produced, session) ∨
      ∃ error, result = (.err error, session) ∧ errorResponse error.status = produced) :
    produced.header.statusLine.statusCode ≠ .ok := by
  obtain ⟨-, answered, failed⟩ := refused
  rcases returned with response | ⟨error, err, rfl⟩
  · exact answered produced (by rw [response])
  · exact failed error (by rw [err])

/-- A file that the client does not want is not served. -/
private theorem serveFile_of_unwanted {since : Text}
    (conditional : request.header.headerLines.lookup .ifModifiedSince = some since)
    (unwanted : modifiedSinceDate world path since ≠ .ok true) :
    Refused (serveFile world request path session) session := by
  unfold serveFile
  rw [conditional]
  dsimp only
  rw [lift_bind_apply]
  cases asked : (modifiedSinceDate world path since : Outcome HttpError Bool) with
  | ok modSince =>
      cases modSince with
      | true => exact absurd asked unwanted
      | false =>
          refine ⟨rfl, ?_, ?_⟩
          · rintro response ⟨⟩
            decide
          · rintro error ⟨⟩
  | err reason =>
      refine ⟨rfl, ?_, ?_⟩
      · rintro response ⟨⟩
      · rintro error ⟨⟩
        rw [badRequest_of_modifiedSinceDate asked]
        decide
  | abort =>
      refine ⟨rfl, ?_, ?_⟩
      · rintro response ⟨⟩
      · rintro error ⟨⟩

/-- A visit that fetches nothing leaves its host as it was. -/
theorem effect_of_refused {exchange : Exchange chrono} {produced : Response} {now : Text}
    (finished : exchange.response = finish now produced) (files : session.files = host.files)
    (idle : ∀ path, ¬ exchange.Fetches host.serverConfig path)
    (refused : ∀ path, exchange.Targets host.serverConfig path →
      produced.header.statusLine.statusCode ≠ .ok) :
    host.Effect exchange { host with files := session.files } := by
  rw [files]
  refine .idle idle fun path targets => ?_
  rw [Exchange.status, finished]
  exact refused path targets

/-- A visit whose request leads to no file fetches nothing. -/
theorem effect_of_untargeted {exchange : Exchange chrono} {produced : Response} {now : Text}
    (finished : exchange.response = finish now produced) (files : session.files = host.files)
    (untargeted : ∀ path, ¬ exchange.Targets host.serverConfig path) :
    host.Effect exchange { host with files := session.files } :=
  effect_of_refused finished files (fun path fetches => untargeted path fetches.targets)
    fun path targets => absurd targets (untargeted path)

/-- The effect of a visit that fetches the file at a path. -/
theorem effect_of_getContent {exchange : Exchange chrono} {produced : Response} {now : Text}
    (fetches : exchange.Fetches host.serverConfig path)
    (returned : Files.getContent exchange.world path ⟨host.files, []⟩ = (.ok produced, session) ∨
      ∃ error, Files.getContent exchange.world path ⟨host.files, []⟩ = (.err error, session) ∧
        errorResponse error.status = produced)
    (finished : exchange.response = finish now produced) :
    host.Effect exchange { host with files := session.files } := by
  rcases returned with served | ⟨error, failed, rfl⟩
  · obtain ⟨file, modifiedStr, fetched, dated, rfl⟩ := getContent_eq_ok_iff.mp served
    have serves : exchange.Serves path file := ⟨modifiedStr, now, dated, finished⟩
    cases Files.fetched_of_ok fetched with
    | cached kept => exact .hit fetches kept serves
    | read uncached found => exact .miss fetches uncached found serves
  · obtain ⟨uncached, missing, files, bad⟩ :=
      Files.fetch_of_err (Files.fetch_of_getContent_err failed)
    rw [files]
    refine .failed fetches uncached missing ?_
    rw [Exchange.status, finished]
    exact bad

/-- **Every visit comes to one of its effects.** -/
theorem effect_of_responds {exchange : Exchange chrono} (responds : host.Responds exchange after) :
    host.Effect exchange after := by
  obtain ⟨accesses, handled⟩ := responds
  obtain ⟨produced, session, now, returned, _, finished, rfl⟩ := handle_eq_ok handled
  have targeted : ∀ {path}, exchange.Targets host.serverConfig path →
      host.work exchange.world exchange.request = some (.file path) := id
  cases led : host.work exchange.world exchange.request with
  | none =>
      have bare := handleResult_of_no_work led exchange.overloaded ⟨host.files, []⟩
      rw [← session_of_returned returned]
      refine effect_of_untargeted finished (congrArg Session.files bare.1) ?_
      intro path targets
      cases led.symm.trans (targeted targets)
  | some work =>
      rw [handleResult_of_work led] at returned
      cases work with
      | script path virtualHost =>
          rw [← session_of_returned returned]
          refine effect_of_untargeted finished (files_of_script host.cgi virtualHost) ?_
          intro path targets
          cases led.symm.trans (targeted targets)
      | file path =>
          by_cases wanted : ∀ since,
              exchange.request.header.headerLines.lookup .ifModifiedSince = some since →
                modifiedSinceDate exchange.world path since = .ok true
          · rw [perform, serveFile_of_wanted wanted] at returned
            exact effect_of_getContent ⟨led, wanted⟩ returned finished
          · obtain ⟨since, unwanted⟩ := not_forall.mp wanted
            obtain ⟨conditional, unwanted⟩ := Classical.not_imp.mp unwanted
            have refused : Refused (host.perform exchange.world exchange.request (.file path)
              ⟨host.files, []⟩) ⟨host.files, []⟩ := serveFile_of_unwanted conditional unwanted
            rw [← session_of_returned returned]
            refine effect_of_refused finished (congrArg Session.files refused.1) ?_
              fun _ _ => refused.produced_ne_ok returned
            intro other fetches
            cases led.symm.trans (targeted fetches.targets)
            exact unwanted (fetches.wanted since conditional)

/-- What a visit comes to that fetches a file. -/
theorem Effect.of_fetches {exchange : Exchange chrono} (effect : host.Effect exchange after)
    (fetches : exchange.Fetches host.serverConfig path) :
    (∃ file, host.files.cache.lookup path = some file ∧ exchange.Serves path file ∧
        after = host) ∨
      (∃ file, host.files.cache.lookup path = none ∧ exchange.world.file path = some file ∧
        exchange.Serves path file ∧ after = host.keep path file) ∨
      exchange.world.file path = none ∧ host.files.cache.lookup path = none := by
  cases effect with
  | hit fetched cached serves =>
      obtain rfl := fetched.targets.unique fetches.targets
      exact .inl ⟨_, cached, serves, rfl⟩
  | miss fetched absent found serves =>
      obtain rfl := fetched.targets.unique fetches.targets
      exact .inr (.inl ⟨_, absent, found, serves, rfl⟩)
  | failed fetched absent missing refused =>
      obtain rfl := fetched.targets.unique fetches.targets
      exact .inr (.inr ⟨missing, absent⟩)
  | idle unfetched refused => exact absurd fetches (unfetched path)

/-- A request is responded to if anything can be said of the response. -/
theorem responds_of_view {overloaded : Bool} {View : Type} {view : Response → View} {seen : View}
    (answered : (host.handle world request overloaded).1.toOption.map view = some seen) :
    ∃ response, host.Responds ⟨⟨world, request, overloaded⟩, response⟩
      (host.handle world request overloaded).2.1 ∧ view response = seen := by
  obtain ⟨response, returned, same⟩ := Option.map_eq_some_iff.mp answered
  refine ⟨response, ⟨_, Prod.ext ?_ rfl⟩, same⟩
  exact Outcome.toOption_eq_some_iff.mp returned

/-! ### Runs of visits -/

/-- The cache of a host after some visits: each of its files has been read by one of them,
and every visit that has fetched a file that could be read is served what the cache has. -/
structure Caches (serverConfig : ServerConfig) (steps : List (Host × Exchange chrono))
    (host : Host) : Prop where
  config : host.serverConfig = serverConfig
  read : ∀ path file, host.files.cache.lookup path = some file →
    ∃ step ∈ steps, step.2.Fetches serverConfig path ∧ step.2.world.file path = some file
  kept : ∀ step ∈ steps, ∀ path found, step.2.Fetches serverConfig path →
    step.2.world.file path = some found →
      ∃ file, host.files.cache.lookup path = some file ∧ step.2.Serves path file

variable {serverConfig : ServerConfig} {steps : List (Host × Exchange chrono)}
  {exchange : Exchange chrono}

/-- The cache of a new host holds nothing. -/
theorem Caches.initially (initial : (visits chrono serverConfig).initial host) :
    @Caches chrono serverConfig [] host := by
  obtain rfl := eq_fresh_of_new initial
  refine ⟨rfl, ?_, ?_⟩
  · intro path file cached
    have empty : (∅ : HashMap Path File).lookup path = some file := cached
    rw [Finmap.lookup_empty] at empty
    cases empty
  · intro step inside
    cases inside

/-- A visit leaves in the cache what has been fetched. -/
theorem Caches.step (caches : Caches serverConfig steps host)
    (responds : host.Responds exchange after) :
    Caches serverConfig (steps ++ [(host, exchange)]) after := by
  obtain ⟨rfl, read, kept⟩ := caches
  have earlier : ∀ path file, host.files.cache.lookup path = some file →
      ∃ step ∈ steps ++ [(host, exchange)], step.2.Fetches host.serverConfig path ∧
        step.2.world.file path = some file := by
    intro path file cached
    obtain ⟨step, inside, fetched⟩ := read path file cached
    exact ⟨step, List.mem_append_left _ inside, fetched⟩
  have split : ∀ {step}, step ∈ steps ++ [(host, exchange)] →
      step ∈ steps ∨ step = (host, exchange) := by
    intro step inside
    rwa [List.mem_append, List.mem_singleton] at inside
  cases effect_of_responds responds with
  | hit fetches cached serves =>
      refine ⟨rfl, earlier, fun step inside other found fetched there => ?_⟩
      rcases split inside with before | rfl
      · exact kept step before other found fetched there
      · obtain rfl := fetches.targets.unique fetched.targets
        exact ⟨_, cached, serves⟩
  | failed fetches _ missing _ =>
      refine ⟨rfl, earlier, fun step inside other found fetched there => ?_⟩
      rcases split inside with before | rfl
      · exact kept step before other found fetched there
      · obtain rfl := fetches.targets.unique fetched.targets
        rw [missing] at there
        cases there
  | idle unfetched _ =>
      refine ⟨rfl, earlier, fun step inside other found fetched there => ?_⟩
      rcases split inside with before | rfl
      · exact kept step before other found fetched there
      · exact absurd fetched (unfetched other)
  | @miss path file fetches uncached found serves =>
      refine ⟨rfl, fun other cached lookup => ?_, fun step inside other cached fetched there => ?_⟩
      · change (Finmap.insert path file host.files.cache).lookup other = some cached at lookup
        by_cases same : other = path
        · subst same
          rw [Finmap.lookup_insert] at lookup
          cases lookup
          exact ⟨(host, exchange), List.mem_append_right _ List.mem_cons_self, fetches, found⟩
        · rw [Finmap.lookup_insert_of_ne _ same] at lookup
          exact earlier other cached lookup
      · change ∃ file', (Finmap.insert path file host.files.cache).lookup other = some file' ∧ _
        rcases split inside with before | rfl
        · obtain ⟨file', lookup, served⟩ := kept step before other cached fetched there
          have different : other ≠ path := by
            rintro rfl
            rw [uncached] at lookup
            cases lookup
          exact ⟨file', by rwa [Finmap.lookup_insert_of_ne _ different], served⟩
        · obtain rfl := fetches.targets.unique fetched.targets
          exact ⟨file, Finmap.lookup_insert _, serves⟩

/-- After any visits the cache holds what has been fetched. -/
theorem caches_of_run (run : (visits chrono serverConfig).Run steps host) :
    Caches serverConfig steps host :=
  run.invariant (Caches serverConfig) (fun _ initial => .initially initial)
    fun _ _ _ _ _ caches responds => caches.step responds

end Host

/-- The host of the site is what its configuration makes. -/
theorem Site.new_host : (Host.new serverConfig : Outcome Error Host) = .ok host := by
  have returned : (Host.new serverConfig : Outcome Error Host).isOk := by decide +kernel
  rcases Host.new_cases Error serverConfig with made | aborted
  · exact made
  · rw [aborted] at returned
    cases returned

end RustHttpServer
