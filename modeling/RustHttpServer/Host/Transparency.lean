import RustHttpServer.Host.Coherence
import RustHttpServer.Host.Panics

/-!
# Hosts without a cache

A host that has not read anything yet responds from the world alone (`Exchange.Plain`). What
another host responds differs from that only where it takes a file from its cache that is not
like this on disk any more (`plain_iff_agrees`). So the cache is visible in the responses of a
host exactly if a file is found changed that has been read before (`transparent_iff`).
-/

namespace RustHttpServer

open Foundation Stateful

variable {chrono : Chrono}

/-- The response is that of a host that has not read a file yet. -/
def Exchange.Plain (serverConfig : ServerConfig) (exchange : Exchange chrono) : Prop :=
  ∃ after, (Host.fresh serverConfig).Responds exchange after

/-! ### What depends on the cache -/

namespace Files

variable {world : World chrono} {path : Path} {session session' : Session}

private theorem fileResponse_congr {file found : File} (same : found.content = file.content)
    (text : Text) :
    fileResponse path found text = fileResponse path file text := by
  rw [fileResponse, fileResponse, headerLines, headerLines, same]

/-- A fetched file is responded, if it can be dated. -/
theorem getContent_of_fetched {file : File} {after : Session}
    (fetched : fetch world path session = (.ok file, after)) :
    (getContent world path session).1 =
      lastModified chrono file >>= fun text => .ok (fileResponse path file text) := by
  rw [getContent, bind_apply, fetched]
  dsimp only
  rw [lift_bind_apply]
  cases (lastModified chrono file : Outcome HttpError Text) <;> rfl

private theorem alike_load : Coincides (load world path) session session' := by
  unfold load
  cases world.readToString path with
  | error error => exact .lift _
  | ok content => exact Coincides.lift_bind fun metadata _ => rfl

private theorem alike_getContent_of_uncached (uncached : session.files.cache.lookup path = none)
    (uncached' : session'.files.cache.lookup path = none) :
    Coincides (getContent world path) session session' := by
  apply Coincides.bind
  · rw [Coincides, fetch_of_uncached uncached, fetch_of_uncached uncached']
    exact alike_load
  · intro file between between'
    exact Coincides.lift_bind fun text _ => rfl

/-- A file is responded from the cache as it would be from the disk if it is the same there, as
far as the response shows it. -/
theorem alike_getContent_of_cached {file found : File}
    (cached : session.files.cache.lookup path = some file)
    (uncached : session'.files.cache.lookup path = none) (there : world.file path = some found)
    (content : found.content = file.content)
    (dated : (lastModified chrono found : Outcome HttpError Text) = lastModified chrono file) :
    Coincides (getContent world path) session session' := by
  have loaded := (fetch_of_uncached uncached).trans (load_of_file there)
  rw [Coincides, getContent_of_fetched (fetch_of_cached cached), getContent_of_fetched loaded,
    dated]
  simp only [fileResponse_congr content]

end Files

namespace Host

variable {world : World chrono} {request : Request} {session session' : Session}

private theorem alike_script (cgi : Cgi) (path : Path) (virtualHost : VirtualHost) :
    Coincides (cgi.handle world path request virtualHost) session session' := by
  apply Coincides.lift_bind
  intro serverPort _
  apply Coincides.lift_bind
  intro serverName _
  apply Coincides.bind
  · rfl
  · intro _ between between'
    exact Coincides.lift_bind fun output _ => rfl

/-- Whatever a host has in its cache, `handle_result` returns the same if what it fetches is
responded alike. -/
theorem alike_handleResult (host : Host) (overloaded : Bool)
    (fetches : ∀ path, host.work world request = some (.file path) → Wants world request path →
      Coincides (Files.getContent world path) session session') :
    Coincides (host.handleResult world request overloaded) session session' := by
  cases led : host.work world request with
  | none =>
      obtain ⟨outcome, touched, -⟩ := idle_handleResult led overloaded
      rw [touched]
      exact .lift outcome
  | some work =>
      rw [Coincides, handleResult_of_work led, handleResult_of_work led]
      cases work with
      | script path virtualHost => exact alike_script host.cgi path virtualHost
      | file path =>
          change Coincides (serveFile world request path) session session'
          unfold serveFile
          cases conditional : request.header.headerLines.lookup .ifModifiedSince with
          | none =>
              refine fetches path led fun since supplied => ?_
              cases conditional.symm.trans supplied
          | some since =>
              refine Coincides.lift_bind fun modSince asked => ?_
              cases modSince with
              | false => exact .lift _
              | true =>
                  refine fetches path led fun since' supplied => ?_
                  cases conditional.symm.trans supplied
                  exact asked

private theorem alike_handleWith {host : Host} {overloaded : Bool}
    (alike : Coincides (host.handleResult world request overloaded) session session') :
    Coincides (host.handleWith world request overloaded) session session' := by
  apply (alike.recover _).bind
  intro response between between'
  exact Coincides.lift_bind fun now _ => rfl

/-! ### What a visit is responded -/

variable {serverConfig : ServerConfig} {host after : Host} {exchange : Exchange chrono}
  {steps : List (Host × Exchange chrono)}

/-- A host is a fresh one that has read some files. -/
theorem eq_of_run (run : (visits chrono serverConfig).Run steps host) :
    host = { fresh serverConfig with files := host.files } := by
  refine run.invariant (fun _ host => host = { fresh serverConfig with files := host.files }) ?_ ?_
  · intro host made
    rw [eq_fresh_of_new made]
  · rintro steps host exchange after - same ⟨accesses, handled⟩
    have reached : (host.handle exchange.world exchange.request exchange.overloaded).2.1 = after :=
      congrArg (fun result => result.2.1) handled
    rw [← reached, same]
    rfl

/-- A response is one that is made from the world alone, if the files that come from the
cache are still alike on disk. -/
theorem plain_of_current (same : host = { fresh serverConfig with files := host.files })
    (responds : host.Responds exchange after)
    (current : ∀ path file, exchange.Fetches serverConfig path →
      host.files.cache.lookup path = some file → ∃ found, exchange.world.file path = some found ∧
        found.content = file.content ∧ (Files.lastModified chrono found : Outcome HttpError Text) =
          Files.lastModified chrono file) : exchange.Plain serverConfig := by
  have alike : Coincides ((fresh serverConfig).handleWith exchange.world exchange.request
      exchange.overloaded) ⟨host.files, []⟩ ⟨(fresh serverConfig).files, []⟩ := by
    apply alike_handleWith
    refine alike_handleResult _ _ fun path led wanted => ?_
    have uncached : (fresh serverConfig).files.cache.lookup path = none := Finmap.lookup_empty path
    cases cached : host.files.cache.lookup path with
    | none => exact Files.alike_getContent_of_uncached cached uncached
    | some file =>
        obtain ⟨found, there, content, dated⟩ := current path file ⟨led, wanted⟩ cached
        exact Files.alike_getContent_of_cached cached uncached there content dated
  obtain ⟨accesses, handled⟩ := responds
  rw [same] at handled
  refine ⟨_, _, Prod.ext ?_ rfl⟩
  exact alike.symm.trans (congrArg Prod.fst handled)

/-- What is served of a file, and what is served of another one, is alike if and only if the
files are, as far as responses show them. -/
theorem alike_of_serves {path : Path} {file found : File}
    (serves : exchange.Serves path file) (serves' : exchange.Serves path found) :
    found.content = file.content ∧ (Files.lastModified chrono found : Outcome HttpError Text) =
      Files.lastModified chrono file := by
  obtain ⟨text, dated, sent⟩ := serves.lookup_lastModified
  obtain ⟨text', dated', sent'⟩ := serves'.lookup_lastModified
  refine ⟨?_, ?_⟩
  · exact (exchange.body_of_serves serves').symm.trans (exchange.body_of_serves serves)
  · rw [dated, dated', Option.some.inj (sent.symm.trans sent')]

/-- What a fresh host responds of a file that is fetched is on disk. -/
theorem file_of_plain {path : Path} {file : File} (plain : exchange.Plain serverConfig)
    (fetches : exchange.Fetches serverConfig path) (serves : exchange.Serves path file) :
    ∃ found, exchange.world.file path = some found ∧ found.content = file.content ∧
      (Files.lastModified chrono found : Outcome HttpError Text) =
        Files.lastModified chrono file := by
  obtain ⟨after, responds⟩ := plain
  cases effect_of_responds responds with
  | hit _ cached _ =>
      cases (Finmap.lookup_empty _).symm.trans cached
  | miss fetched _ found serves' =>
      obtain rfl := fetched.targets.unique fetches.targets
      exact ⟨_, found, alike_of_serves serves serves'⟩
  | failed _ _ _ bad => exact absurd (exchange.status_of_serves serves) bad
  | idle unfetched _ => exact absurd fetches (unfetched path)

/-- A visit is responded as by a fresh host exactly if it agrees with all visits before it, as
long as these have been. -/
theorem plain_iff_agrees (run : (visits chrono serverConfig).Run steps host)
    (responds : host.Responds exchange after)
    (before : ∀ step ∈ steps, step.2.Plain serverConfig) : exchange.Plain serverConfig ↔
      ∀ step ∈ steps, step.2.toVisit.Agrees serverConfig exchange.toVisit := by
  obtain ⟨config, read, kept⟩ := caches_of_run run
  constructor
  · intro plain step inside path file earlier fetches there
    obtain ⟨cached, lookup, served⟩ := kept step inside path file earlier there
    obtain ⟨found, there', content, dated⟩ := file_of_plain (before step inside) earlier served
    cases there.symm.trans there'
    have serves : exchange.Serves path cached := by
      rw [← config] at fetches
      rcases (effect_of_responds responds).of_fetches fetches with
        ⟨file, lookup', serves, -⟩ | ⟨file, uncached, -⟩ | ⟨-, uncached⟩
      · cases lookup.symm.trans lookup'
        exact serves
      · cases lookup.symm.trans uncached
      · cases lookup.symm.trans uncached
    obtain ⟨now, there', content', dated'⟩ := file_of_plain plain fetches serves
    exact ⟨now, there', content'.trans content.symm, dated'.trans dated.symm⟩
  · intro agrees
    refine plain_of_current (eq_of_run run) responds fun path file fetches cached => ?_
    obtain ⟨step, inside, earlier, there⟩ := read path file cached
    exact agrees step inside path file earlier fetches there

/-- All responses are as by fresh hosts exactly if each visit agrees with those before it. -/
theorem forall_plain_iff (run : (visits chrono serverConfig).Run steps host) :
    (∀ step ∈ steps, step.2.Plain serverConfig) ↔
      (steps.map fun step => step.2.toVisit).Pairwise (Visit.Agrees serverConfig) := by
  induction run with
  | start initial => simp
  | @step steps host after exchange run responds ih =>
      have last := plain_iff_agrees run responds
      simp only [List.map_append, List.map_cons, List.map_nil, List.pairwise_append, ← ih,
        List.pairwise_singleton, true_and, List.forall_mem_append, List.forall_mem_map,
        List.forall_mem_singleton]
      exact and_congr_right last

end Host

/-- **The cache is visible only in changed files.** In a run of a host every response is the one
that a host without a cache gives in the same world, if and only if no visit finds a file changed
that an earlier one has read. -/
theorem transparent_iff {serverConfig : ServerConfig} {steps : List (Host × Exchange chrono)}
    {host : Host} (run : (Host.visits chrono serverConfig).Run steps host) :
    (∀ step ∈ steps, step.2.Plain serverConfig) ↔
      (steps.map fun step => step.2.toVisit).Pairwise (Visit.Agrees serverConfig) :=
  Host.forall_plain_iff run

/-- The rule holds of a page that is edited in between, but not so that it shows. -/
theorem transparent_iff_page : ∃ first middle second last,
    (Host.visits gregorian Site.serverConfig).Run
      [(Site.host, ⟨⟨Site.edited "hi" 0, Site.get "/page.txt", false⟩, first⟩),
        (middle, ⟨⟨Site.edited "hi" 1000, Site.get "/page.txt", false⟩, second⟩)] last ∧
    Exchange.Plain Site.serverConfig
      ⟨⟨Site.edited "hi" 1000, Site.get "/page.txt", false⟩, second⟩ := by
  have answered : (Site.host.handle (Site.edited "hi" 0) (Site.get "/page.txt")
      false).1.toOption.map (fun response => response.header.statusLine.statusCode) =
        some .ok := by decide +kernel
  have again : ((Site.host.handle (Site.edited "hi" 0) (Site.get "/page.txt") false).2.1.handle
      (Site.edited "hi" 1000) (Site.get "/page.txt") false).1.toOption.map
        (fun response => response.header.statusLine.statusCode) = some .ok := by decide +kernel
  obtain ⟨first, responds, _⟩ := Host.responds_of_view answered
  obtain ⟨second, responds', _⟩ := Host.responds_of_view again
  have start : (Host.visits gregorian Site.serverConfig).Run [] Site.host := .start Site.new_host
  have run := (start.step responds).step responds'
  have led : (Host.fresh Site.serverConfig).work (Site.edited "hi" 0) (Site.get "/page.txt") =
      some (.file Site.page) := by decide +kernel
  have found : (Site.edited "hi" 0).file Site.page = some ⟨"hi".toList, 0⟩ := by decide +kernel
  have found' : (Site.edited "hi" 1000).file Site.page = some ⟨"hi".toList, 1000⟩ := by
    decide +kernel
  have agrees : Visit.Agrees Site.serverConfig ⟨Site.edited "hi" 0, Site.get "/page.txt", false⟩
      ⟨Site.edited "hi" 1000, Site.get "/page.txt", false⟩ := by
    intro path file earlier later there
    cases led.symm.trans earlier.targets
    cases found.symm.trans there
    exact ⟨_, found', rfl, by decide +kernel⟩
  have plain := (transparent_iff run).mpr (List.pairwise_pair.mpr agrees)
  exact ⟨first, _, second, _, run, plain _ (List.mem_cons_of_mem _ List.mem_cons_self)⟩

end RustHttpServer
