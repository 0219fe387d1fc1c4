import RustHttpServer.Foundation.Lists
import RustHttpServer.Host.Coherence

/-!
# The limit of the cache

The size that is configured for the cache only sets the capacity that the cache starts
with. Nothing is ever removed from the cache (`cachedBytes_mono`), so after some requests
for files it holds every one of these files, whatever their sizes (`Filled`). It stays
within its limit exactly when the files requested fit into it together, and the requests
are answered with the contents of their files when the clients want them, the files can be
read and dated, and none is requested with another content than at first (`limited_iff`).
-/

namespace RustHttpServer

open Foundation Stateful Utf8

variable {chrono : Chrono} {serverConfig : ServerConfig}

/-- The limit that is configured for the cache, in bytes. -/
def ServerConfig.cacheLimit (serverConfig : ServerConfig) : Nat :=
  (((serverConfig.directives.lookup .cacheSize).bind fun cacheSize =>
    (u32FromStr cacheSize).toOption).getD 1024) * Files.bytesPerKilobyte

/-- The size of the content of a file. -/
def File.bytes (file : File) : Nat := byteLength file.content

/-- The total size of the contents in the cache. -/
def Host.cachedBytes (host : Host) : Nat := HashMap.total File.bytes host.files.cache

/-- A GET for a static file. -/
structure FileRequest (chrono : Chrono) (serverConfig : ServerConfig) extends Visit chrono where
  path : Path
  targets : toVisit.Targets serverConfig path

/-- The file that is requested, if it can be read. -/
def FileRequest.file? (request : FileRequest chrono serverConfig) : Option File :=
  request.world.file request.path

/-- The client has given no date, or the file has been modified since. -/
def FileRequest.Wanted (request : FileRequest chrono serverConfig) : Prop :=
  ∀ since, request.request.header.headerLines.lookup .ifModifiedSince = some since →
    Host.modifiedSinceDate request.world request.path since = .ok true

/-- The request is answered with the content of its file. -/
structure FileRequest.Answered (request : FileRequest chrono serverConfig)
    (exchange : Exchange chrono) : Prop where
  visit : exchange.toVisit = request.toVisit
  status : exchange.status = .ok
  body : ∃ file, request.file? = some file ∧ exchange.response.body = file.content

namespace FileRequest

/-- The file at a path as it is when it is first requested and can be read. -/
def firstFile (requests : List (FileRequest chrono serverConfig)) (path : Path) : Option File :=
  requests.findSome? fun request => if request.path = path then request.file? else none

/-- The size of all files requested, each counted once. -/
def totalBytes (requests : List (FileRequest chrono serverConfig)) : Nat :=
  (requests.map fun request => request.path).toFinset.sum fun path =>
    (firstFile requests path).elim 0 File.bytes

private theorem firstFile_append (earlier later : List (FileRequest chrono serverConfig))
    (path : Path) :
    firstFile (earlier ++ later) path = (firstFile earlier path).or (firstFile later path) :=
  List.findSome?_append

private theorem firstFile_singleton (request : FileRequest chrono serverConfig) :
    firstFile [request] request.path = request.file? := by
  rw [firstFile, List.findSome?_singleton, if_pos rfl]

private theorem firstFile_singleton_of_ne {request : FileRequest chrono serverConfig} {path : Path}
    (different : path ≠ request.path) : firstFile [request] path = none := by
  rw [firstFile, List.findSome?_singleton, if_neg different.symm]

private theorem firstFile_append_of_ne {requests : List (FileRequest chrono serverConfig)}
    {request : FileRequest chrono serverConfig} {path : Path} (different : path ≠ request.path) :
    firstFile (requests ++ [request]) path = firstFile requests path := by
  rw [firstFile_append, firstFile_singleton_of_ne different, Option.or_none]

/-- What has been requested once stays as it was. -/
theorem firstFile_append_of_some {requests : List (FileRequest chrono serverConfig)} {path : Path}
    {file : File} (first : firstFile requests path = some file)
    (later : List (FileRequest chrono serverConfig)) :
    firstFile (requests ++ later) path = some file := by
  rw [firstFile_append, first, Option.some_or]

private theorem firstFile_append_of_new {requests : List (FileRequest chrono serverConfig)}
    {request : FileRequest chrono serverConfig} (new : firstFile requests request.path = none) :
    firstFile (requests ++ [request]) request.path = request.file? := by
  rw [firstFile_append, new, firstFile_singleton, Option.none_or]

private theorem firstFile_isSome_iff {requests : List (FileRequest chrono serverConfig)}
    {path : Path} :
    (firstFile requests path).isSome ↔
      ∃ request ∈ requests, request.path = path ∧ request.file?.isSome := by
  rw [firstFile, List.isSome_findSome?]
  simp only [List.any_eq_true]
  refine exists_congr fun request => and_congr_right fun _ => ?_
  by_cases here : request.path = path
  · rw [if_pos here, and_iff_right here]
  · rw [if_neg here]
    exact iff_of_false Bool.false_ne_true fun both => here both.1

private theorem firstFile_of_mem {requests : List (FileRequest chrono serverConfig)}
    {request : FileRequest chrono serverConfig} (inside : request ∈ requests)
    (readable : request.file?.isSome) :
    ∃ file, firstFile requests request.path = some file :=
  Option.isSome_iff_exists.mp (firstFile_isSome_iff.mpr ⟨request, inside, rfl, readable⟩)

private theorem totalBytes_singleton (request : FileRequest chrono serverConfig) :
    totalBytes [request] = request.file?.elim 0 File.bytes := by
  rw [totalBytes, List.map_singleton, List.toFinset_cons, List.toFinset_nil,
    insert_empty_eq, Finset.sum_singleton, firstFile_singleton]

end FileRequest

/-- A file that is requested without a date is wanted. -/
theorem FileRequest.wanted_of_plain {request : FileRequest chrono serverConfig}
    (plain : request.request.header.headerLines.lookup .ifModifiedSince = none) :
    request.Wanted := by
  intro since conditional
  cases plain.symm.trans conditional

/-- A file on disk whose bytes are those of a text. -/
theorem World.file_of_find {world : World chrono} {path : Path} {disk : DiskFile} {text : Text}
    (there : world.fs.find path = .ok (.file disk)) (content : disk.content = .ok (encode text)) :
    world.file path = some ⟨text, disk.modified⟩ := by
  refine World.file_eq_some_iff.mpr ⟨?_, ⟨false, disk.modified, disk.mode⟩, ?_, rfl⟩
  · rw [World.readToString, there]
    change (disk.content >>= fun bytes => (decode bytes).mapError _) = .ok text
    rw [content]
    change (decode (encode text)).mapError _ = .ok text
    rw [decode_encode]
    rfl
  · rw [World.metadata, there]
    rfl

/-! ### The cache only grows -/

namespace Host

variable {host after : Host} {exchange : Exchange chrono}

private theorem cachedBytes_keep {path : Path} (absent : host.files.cache.lookup path = none)
    (file : File) : (host.keep path file).cachedBytes = file.bytes + host.cachedBytes :=
  HashMap.total_insert File.bytes absent file

private theorem Effect.cachedBytes_le (effect : host.Effect exchange after) :
    host.cachedBytes ≤ after.cachedBytes := by
  cases effect with
  | miss fetches absent found serves =>
      rw [cachedBytes_keep absent]
      exact Nat.le_add_left ..
  | hit | failed | idle => exact Nat.le_refl _

/-- **Nothing leaves the cache.** Over the visits to a host its cache only grows. -/
theorem cachedBytes_mono {steps : List (Host × Exchange chrono)}
    (run : (visits chrono serverConfig).Run steps host) :
    ∀ step ∈ steps, step.1.cachedBytes ≤ host.cachedBytes := by
  induction run with
  | start initial => exact List.forall_mem_nil _
  | step run responds ih =>
      have grown := (effect_of_responds responds).cachedBytes_le
      rw [List.forall_mem_append, List.forall_mem_singleton]
      exact ⟨fun step inside => (ih step inside).trans grown, grown⟩

/-! ### What the cache holds -/

/-- The cache holds every file that has been requested, as it was then. -/
structure Filled (requests : List (FileRequest chrono serverConfig)) (host : Host) : Prop where
  config : host.serverConfig = serverConfig
  lookup : ∀ path, host.files.cache.lookup path = FileRequest.firstFile requests path

variable {requests : List (FileRequest chrono serverConfig)}
  {request : FileRequest chrono serverConfig}

private theorem Filled.cachedBytes_eq (filled : Filled requests host)
    (readable : ∀ request ∈ requests, request.file?.isSome) :
    host.cachedBytes = FileRequest.totalBytes requests := by
  apply HashMap.total_eq_sum File.bytes filled.lookup
  intro path
  rw [List.mem_toFinset, List.mem_map, FileRequest.firstFile_isSome_iff]
  exact exists_congr fun request => and_congr_right fun inside =>
    (and_iff_left (readable request inside)).symm

/-- A new host has nothing in its cache. -/
theorem Filled.initially (initial : (new serverConfig : Outcome Error Host) = .ok host) :
    Filled ([] : List (FileRequest chrono serverConfig)) host := by
  obtain rfl := eq_fresh_of_new initial
  exact ⟨rfl, fun path => Finmap.lookup_empty path⟩

/-- What is served is the file as it was first requested. -/
theorem Filled.served (filled : Filled requests host) (accesses : List Access) :
    Files.served request.world ⟨host.files, accesses⟩ request.path =
      FileRequest.firstFile (requests ++ [request]) request.path := by
  rw [Files.served, filled.lookup, FileRequest.firstFile_append, FileRequest.firstFile_singleton,
    FileRequest.file?]

/-- A file that is wanted and can be read is served as it was first requested, and kept. -/
theorem Filled.step (filled : Filled requests host) (wanted : request.Wanted)
    (readable : request.file?.isSome) (visit : exchange.toVisit = request.toVisit)
    (responds : host.Responds exchange after) :
    Filled (requests ++ [request]) after ∧ ∃ file,
      FileRequest.firstFile (requests ++ [request]) request.path = some file ∧
        exchange.Serves request.path file := by
  obtain ⟨rfl, lookup⟩ := filled
  have fetched : exchange.Fetches host.serverConfig request.path := by
    rw [visit]
    exact ⟨request.targets, wanted⟩
  have found : exchange.world.file request.path = request.file? := by rw [visit]; rfl
  rcases (effect_of_responds responds).of_fetches fetched with
    ⟨file, cached, serves, rfl⟩ | ⟨file, absent, there, serves, rfl⟩ | ⟨missing, -⟩
  · rw [lookup] at cached
    have first := FileRequest.firstFile_append_of_some cached [request]
    refine ⟨⟨rfl, fun other => ?_⟩, file, first, serves⟩
    rw [lookup]
    by_cases same : other = request.path
    · rw [same, first, cached]
    · rw [FileRequest.firstFile_append_of_ne same]
  · rw [lookup] at absent
    have first := (FileRequest.firstFile_append_of_new absent).trans (found.symm.trans there)
    refine ⟨⟨rfl, fun other => ?_⟩, _, first, serves⟩
    change (Finmap.insert request.path file host.files.cache).lookup other = _
    by_cases same : other = request.path
    · rw [same, first, Finmap.lookup_insert]
    · rw [FileRequest.firstFile_append_of_ne same, Finmap.lookup_insert_of_ne _ same, lookup]
  · rw [← found, missing] at readable
    cases readable

/-- A file that is wanted and can be dated is served. -/
theorem Filled.responds (printsUtc : chrono.PrintsUtc) (filled : Filled requests host)
    (wanted : request.Wanted) {file : File}
    (first : FileRequest.firstFile (requests ++ [request]) request.path = some file)
    (datable : file.Datable chrono) :
    ∃ response after, host.Responds ⟨request.toVisit, response⟩ after := by
  have served := (getContent_of_served printsUtc ((filled.served []).trans first)).1 datable
  obtain ⟨produced, returned, -⟩ := served
  obtain ⟨now, stamped, -⟩ := @to1123_eq _ printsUtc Error request.world.now
  obtain ⟨rfl, -⟩ := filled
  have led : host.work request.world request.request = some (.file request.path) :=
    request.targets
  have result : host.handleResult request.world request.request request.overloaded
      ⟨host.files, []⟩ =
        (.ok produced, (Files.getContent request.world request.path ⟨host.files, []⟩).2) := by
    rw [handleResult_of_work led, perform, serveFile_of_wanted wanted]
    exact Prod.ext returned rfl
  exact ⟨_, _, _, handle_of_handleResult result stamped⟩

end Host

/-! ### Runs of requests -/

/-- The requests are answered one after the other, and the cache never exceeds its limit. -/
def Limited (requests : List (FileRequest chrono serverConfig)) : Prop :=
  ∃ (steps : List (Host × Exchange chrono)) (host : Host),
    (Host.visits chrono serverConfig).Run steps host ∧
    List.Forall₂ (fun step request => request.Answered step.2) steps requests ∧
    (∀ step ∈ steps, step.1.cachedBytes ≤ serverConfig.cacheLimit) ∧
    host.cachedBytes ≤ serverConfig.cacheLimit

/-- A file is wanted whenever it is requested, and can be read, with the content that it had at
first, when it can be dated. -/
structure Steady (requests : List (FileRequest chrono serverConfig)) : Prop where
  wanted : ∀ request ∈ requests, request.Wanted
  readable : ∀ request ∈ requests, request.file?.isSome
  unchanged : ∀ request ∈ requests, ∀ file first, request.file? = some file →
    FileRequest.firstFile requests request.path = some first → file.content = first.content
  datable : ∀ path file, FileRequest.firstFile requests path = some file → file.Datable chrono

variable {requests : List (FileRequest chrono serverConfig)}
  {request : FileRequest chrono serverConfig} {steps : List (Host × Exchange chrono)} {host : Host}

/-- A file that is served could be dated. -/
theorem Exchange.Serves.datable {exchange : Exchange chrono} {path : Path} {file : File}
    (serves : exchange.Serves path file) : file.Datable chrono := by
  obtain ⟨text, now, dated, finished⟩ := serves
  by_contra undatable
  rw [Files.lastModified_of_not_datable undatable] at dated
  cases dated

/-- What is answered with the content of its file is wanted. -/
theorem FileRequest.Answered.wanted {exchange : Exchange chrono} {after : Host}
    (answered : request.Answered exchange) (effect : host.Effect exchange after)
    (config : host.serverConfig = serverConfig) : request.Wanted := by
  subst config
  have targets : exchange.Targets host.serverConfig request.path := by
    rw [answered.visit]
    exact request.targets
  have fetches : exchange.Fetches host.serverConfig request.path := by
    cases effect with
    | hit fetches cached serves => exact targets.unique fetches.targets ▸ fetches
    | miss fetches absent found serves => exact targets.unique fetches.targets ▸ fetches
    | failed fetches absent missing refused => exact absurd answered.status refused
    | idle unfetched refused => exact absurd answered.status (refused _ targets)
  rw [answered.visit] at fetches
  exact fetches.wanted

/-- No requests meet the condition. -/
theorem Steady.nil : Steady ([] : List (FileRequest chrono serverConfig)) where
  wanted := List.forall_mem_nil _
  readable := List.forall_mem_nil _
  unchanged := List.forall_mem_nil _
  datable _ _ first := nomatch first

/-- What one more request adds to the condition. -/
theorem Steady.concat_iff {file first : File} (found : request.file? = some file)
    (firstFile : FileRequest.firstFile (requests ++ [request]) request.path = some first) :
    Steady (requests ++ [request]) ↔ Steady requests ∧
      request.Wanted ∧ file.content = first.content ∧ first.Datable chrono := by
  constructor
  · intro steady
    refine ⟨⟨?_, ?_, ?_, ?_⟩, ?_, ?_, ?_⟩
    · exact fun earlier inside => steady.wanted earlier (List.mem_append_left _ inside)
    · exact fun earlier inside => steady.readable earlier (List.mem_append_left _ inside)
    · intro earlier inside held kept there before
      exact steady.unchanged earlier (List.mem_append_left _ inside) held kept there
        (FileRequest.firstFile_append_of_some before [request])
    · intro path kept before
      exact steady.datable path kept (FileRequest.firstFile_append_of_some before [request])
    · exact steady.wanted request (List.mem_append_right _ List.mem_cons_self)
    · exact steady.unchanged request (List.mem_append_right _ List.mem_cons_self) _ _ found
        firstFile
    · exact steady.datable request.path first firstFile
  · rintro ⟨steady, wanted, same, last⟩
    have readable : request.file?.isSome := Option.isSome_iff_exists.mpr ⟨file, found⟩
    refine ⟨?_, ?_, ?_, ?_⟩
    · exact List.forall_mem_append.mpr ⟨steady.wanted, List.forall_mem_singleton.mpr wanted⟩
    · exact List.forall_mem_append.mpr ⟨steady.readable, List.forall_mem_singleton.mpr readable⟩
    · rw [List.forall_mem_append, List.forall_mem_singleton]
      refine ⟨fun earlier inside held kept there before => ?_, fun held kept there before => ?_⟩
      · obtain ⟨kept', before'⟩ :=
          FileRequest.firstFile_of_mem inside (steady.readable earlier inside)
        have still := FileRequest.firstFile_append_of_some before' [request]
        obtain rfl := Option.some.inj (still.symm.trans before)
        exact steady.unchanged earlier inside held _ there before'
      · obtain rfl := Option.some.inj (firstFile.symm.trans before)
        obtain rfl := Option.some.inj (found.symm.trans there)
        exact same
    · intro path kept before
      by_cases here : path = request.path
      · rw [here] at before
        obtain rfl := Option.some.inj (firstFile.symm.trans before)
        exact last
      · rw [FileRequest.firstFile_append_of_ne here] at before
        exact steady.datable path kept before

/-- What requests that have been answered leave in the cache. -/
theorem filled_of_run (run : (Host.visits chrono serverConfig).Run steps host)
    (answered : List.Forall₂ (fun step request => FileRequest.Answered request step.2) steps
      requests) : Host.Filled requests host ∧ Steady requests := by
  induction run generalizing requests with
  | start initial =>
      cases answered
      exact ⟨.initially initial, .nil⟩
  | step run responds ih =>
      obtain ⟨earlier, request, before, last, rfl⟩ := forall₂_concat_left_iff.mp answered
      obtain ⟨filled, steady⟩ := ih before
      obtain ⟨file, found, body⟩ := last.body
      have readable : request.file?.isSome := Option.isSome_iff_exists.mpr ⟨file, found⟩
      have wanted := last.wanted (Host.effect_of_responds responds) filled.config
      obtain ⟨filled', first, firstFile, serves⟩ :=
        filled.step wanted readable last.visit responds
      refine ⟨filled', (Steady.concat_iff found firstFile).mpr ⟨steady, wanted, ?_,
        serves.datable⟩⟩
      rw [← body, Exchange.body_of_serves serves]

/-- Requests for files that do not change and can be dated are all answered. -/
theorem run_of_steady (printsUtc : chrono.PrintsUtc) {start : Host}
    (accepted : (Host.new serverConfig : Outcome Error Host) = .ok start)
    (steady : Steady requests) : ∃ (steps : List (Host × Exchange chrono)) (host : Host),
      (Host.visits chrono serverConfig).Run steps host ∧
      List.Forall₂ (fun step request => FileRequest.Answered request step.2) steps requests := by
  induction requests using List.reverseRecOn with
  | nil => exact ⟨[], start, .start accepted, .nil⟩
  | append_singleton requests request ih =>
      have requested : request ∈ requests ++ [request] :=
        List.mem_append_right _ List.mem_cons_self
      have readable := steady.readable request requested
      obtain ⟨file, found⟩ := Option.isSome_iff_exists.mp readable
      obtain ⟨first, firstFile⟩ := FileRequest.firstFile_of_mem requested readable
      obtain ⟨before, wanted, same, datable⟩ := (Steady.concat_iff found firstFile).mp steady
      obtain ⟨steps, host, run, answered⟩ := ih before
      have filled := (filled_of_run run answered).1
      obtain ⟨response, after, responds⟩ := filled.responds printsUtc wanted firstFile datable
      obtain ⟨-, served, firstFile', serves⟩ := filled.step wanted readable rfl responds
      obtain rfl := Option.some.inj (firstFile.symm.trans firstFile')
      refine ⟨_, after, run.step responds, forall₂_concat_left_iff.mpr ?_⟩
      refine ⟨requests, request, answered, ⟨rfl, Exchange.status_of_serves serves, ?_⟩, rfl⟩
      exact ⟨file, found, by rw [Exchange.body_of_serves serves, same]⟩

/-- **The limit of the cache.** Requests for files are all answered with the contents of
the files while the cache stays within its limit exactly when all of the files fit into
the cache together, are wanted, can be read and dated, and do not change. -/
theorem limited_iff (printsUtc : chrono.PrintsUtc) {start : Host}
    (accepted : (Host.new serverConfig : Outcome Error Host) = .ok start)
    (requests : List (FileRequest chrono serverConfig)) :
    Limited requests ↔
      FileRequest.totalBytes requests ≤ serverConfig.cacheLimit ∧ Steady requests := by
  constructor
  · rintro ⟨steps, host, run, answered, -, within⟩
    obtain ⟨filled, steady⟩ := filled_of_run run answered
    rw [filled.cachedBytes_eq steady.readable] at within
    exact ⟨within, steady⟩
  · rintro ⟨fits, steady⟩
    obtain ⟨steps, host, run, answered⟩ := run_of_steady printsUtc accepted steady
    have within : host.cachedBytes ≤ serverConfig.cacheLimit := by
      rw [(filled_of_run run answered).1.cachedBytes_eq steady.readable]
      exact fits
    refine ⟨steps, host, run, answered, fun step inside => ?_, within⟩
    exact (Host.cachedBytes_mono run step inside).trans within

/-- The page is requested, once, and again with a date that is not earlier than the page. -/
theorem limited_iff_page :
    ∃ request conditional : FileRequest gregorian Site.serverConfig,
      request.request = Site.get "/page.txt" ∧
      conditional.request = (Site.get "/page.txt").ifModifiedSince
        "Thu, 01 Jan 1970 00:00:00 GMT".toList ∧
      Limited [request] ∧ ¬Limited [request, conditional] := by
  have targets : (Host.fresh Site.serverConfig).work Site.world (Site.get "/page.txt") =
      some (.file Site.page) := by decide +kernel
  have targets' : (Host.fresh Site.serverConfig).work Site.world
      ((Site.get "/page.txt").ifModifiedSince "Thu, 01 Jan 1970 00:00:00 GMT".toList) =
        some (.file Site.page) := by decide +kernel
  have current : Host.modifiedSinceDate Site.world Site.page
      "Thu, 01 Jan 1970 00:00:00 GMT".toList = .ok false := by decide +kernel
  let request : FileRequest gregorian Site.serverConfig :=
    ⟨⟨Site.world, _, false⟩, Site.page, targets⟩
  have found : request.file? = some ⟨"hi".toList, 0⟩ := by
    change Site.world.file Site.page = _
    decide +kernel
  have plain : (Site.get "/page.txt").header.headerLines.lookup .ifModifiedSince = none := by
    decide +kernel
  have first := (FileRequest.firstFile_singleton request).trans found
  have fits : FileRequest.totalBytes [request] ≤ Site.serverConfig.cacheLimit := by
    rw [FileRequest.totalBytes_singleton, found]
    decide +kernel
  refine ⟨request, ⟨⟨Site.world, _, false⟩, Site.page, targets'⟩, rfl, rfl, ?_, fun limited => ?_⟩
  · refine (limited_iff gregorian_printsUtc Site.new_host [request]).mpr ⟨fits, ?_⟩
    have steady : Steady ([] ++ [request]) := (Steady.concat_iff found first).mpr
      ⟨.nil, FileRequest.wanted_of_plain plain, rfl, le_refl 0, by decide, by decide⟩
    exact steady
  · have steady := ((limited_iff gregorian_printsUtc Site.new_host _).mp limited).2
    have wanted := steady.wanted _ (List.mem_cons_of_mem _ List.mem_cons_self)
    cases current.symm.trans (wanted _ (Finmap.lookup_insert _))

namespace Site

/-- The site with a cache of one kilobyte. -/
def smallCache : ServerConfig :=
  { Site.serverConfig with
    directives := Finmap.insert .cacheSize "1".toList Site.serverConfig.directives }

/-- A text of one byte more than a kilobyte. -/
def longText : Text := List.replicate 1025 'a'

/-- The site with a long page. -/
def longWorld : World gregorian :=
  { world with fs := { fs with
      node := fun names => List.lookup names ((place ["www", "page.txt"],
        .file { regular "" with content := .ok (encode longText) }) :: nodes)
      isDirectory := .root } }

private theorem file_longWorld : longWorld.file page = some ⟨longText, 0⟩ := by
  have resolved : longWorld.fs.resolve page = .ok (place ["www", "page.txt"]) := by decide +kernel
  have there : longWorld.fs.find page =
      .ok (.file { regular "" with content := .ok (encode longText) }) := by
    rw [FileSystem.find, resolved]
    rfl
  exact World.file_of_find there rfl

private theorem targets_longWorld :
    Visit.Targets smallCache ⟨longWorld, get "/page.txt", false⟩ page := by
  show (Host.fresh smallCache).work longWorld (get "/page.txt") = some (.file page)
  decide +kernel

/-- A request for the long page. -/
def longRequest : FileRequest gregorian smallCache where
  world := longWorld
  request := get "/page.txt"
  overloaded := false
  path := page
  targets := targets_longWorld

private theorem wanted_longRequest : longRequest.Wanted :=
  FileRequest.wanted_of_plain (by decide +kernel)

end Site

/-- **The limit does not hold.** A cache of one kilobyte takes a page of more than that. -/
theorem limited_exceeded : ∃ (start host : Host) (response : Response),
    (Host.new Site.smallCache : Outcome Error Host) = .ok start ∧
    Site.smallCache.cacheLimit = 1024 ∧
    (Host.visits gregorian Site.smallCache).Run
      [(start, ⟨Site.longRequest.toVisit, response⟩)] host ∧
    Site.longRequest.Answered ⟨Site.longRequest.toVisit, response⟩ ∧
    host.cachedBytes = 1025 ∧ ¬Limited [Site.longRequest] := by
  have made : (Host.new Site.smallCache : Outcome Error Host).isOk := by decide +kernel
  have limit : Site.smallCache.cacheLimit = 1024 := by decide +kernel
  have long : Site.longRequest.file? = some ⟨Site.longText, 0⟩ := Site.file_longWorld
  have size : FileRequest.totalBytes [Site.longRequest] = 1025 := by
    rw [FileRequest.totalBytes_singleton, long, Option.elim_some]
    decide +kernel
  have readable : Site.longRequest.file?.isSome := Option.isSome_iff_exists.mpr ⟨_, long⟩
  obtain ⟨start, accepted⟩ := Outcome.exists_of_isOk made
  have empty : Host.Filled ([] : List (FileRequest gregorian Site.smallCache)) start :=
    .initially accepted
  have first := (FileRequest.firstFile_singleton Site.longRequest).trans long
  obtain ⟨response, host, responds⟩ := empty.responds gregorian_printsUtc Site.wanted_longRequest
    first ⟨by decide, by decide, by decide⟩
  obtain ⟨filled, file, first', serves⟩ := empty.step Site.wanted_longRequest readable rfl responds
  obtain rfl := Option.some.inj (first.symm.trans first')
  have cached : host.cachedBytes = 1025 := by
    rw [filled.cachedBytes_eq (List.forall_mem_singleton.mpr readable), List.nil_append, size]
  refine ⟨start, host, response, accepted, limit, .step (.start accepted) responds, ?_, cached, ?_⟩
  · exact ⟨rfl, Exchange.status_of_serves serves, _, long, Exchange.body_of_serves serves⟩
  · rintro ⟨steps, host, run, answered, -, within⟩
    obtain ⟨filled, steady⟩ := filled_of_run run answered
    rw [filled.cachedBytes_eq steady.readable, size, limit] at within
    omega

end RustHttpServer
