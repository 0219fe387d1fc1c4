import RustHttpServer.Host.Conditional
import RustHttpServer.Time.Calendar

/-!
# Revalidation

The `Last-Modified` of a file is its modification time in whole seconds, and a client
that sends it back has it read as these seconds. Less than a second lies between them and
the modification time, so a file that has not changed is answered with "not modified"
(`revalidated`).
-/

namespace RustHttpServer

open Foundation Stateful

variable {chrono : Chrono} {world : World chrono} {path : Path} {file : File}

/-- The time that a file was modified at, between the years 1970 and 9999. -/
structure File.Dated (file : File) : Prop where
  recent : 0 ≤ file.modified
  limited : file.modified < endOfYears * nanosPerSecond

/-- A file is dated by the whole seconds of its modification time, and its date is read
back as these. -/
theorem File.Dated.lastModified (documented : chrono.Documented) (dated : file.Dated) :
    ∃ (datetime : chrono.DateTime) (text : Text),
      (∀ ε, (Files.lastModified chrono file : Outcome ε Text) = .ok text) ∧
      Text.trim text = text ∧ parseDate1123 chrono text = .ok datetime ∧
      chrono.timestamp datetime = (file.modified.toNat / nanosPerSecond : Nat) := by
  obtain ⟨recent, limited⟩ := dated
  have perSecond : (nanosPerSecond : Int) = 1000000000 := rfl
  have limit : endOfYears = 253402300800 := rfl
  have bounded : ((file.modified.toNat / nanosPerSecond : Nat) : Int) < endOfYears := by
    rw [Int.natCast_ediv, Int.toNat_of_nonneg recent]
    rw [perSecond] at limited ⊢
    omega
  obtain ⟨datetime, text, made, counted, printed, parsed⟩ :=
    documented.parseDate1123_to1123 (Int.natCast_nonneg _) bounded
  have small : file.modified.toNat / nanosPerSecond < 2 ^ 63 := by omega
  have trimmed := trim_to1123 documented.toPrintsRfc2822 (printed Unit)
  refine ⟨datetime, text, fun ε => ?_, trimmed, parsed, counted⟩
  rw [Files.lastModified, durationSinceEpoch, if_pos recent]
  dsimp only [Except.toOption]
  rw [Outcome.unwrap_some, Outcome.ok_bind, if_pos small, Outcome.ok_bind, made,
    Outcome.unwrap_some, Outcome.ok_bind]
  exact printed ε

/-- A file has not been modified since the whole seconds of its modification time. -/
theorem Host.modifiedSinceDate_of_file (found : world.file path = some file)
    (recent : 0 ≤ file.modified) {since : Text} {datetime : chrono.DateTime}
    (parsed : parseDate1123 chrono since = .ok datetime)
    (counted : chrono.timestamp datetime = (file.modified.toNat / nanosPerSecond : Nat)) :
    modifiedSinceDate world path since = .ok false := by
  obtain ⟨_, metadata, listed, same⟩ := World.file_eq_some_iff.mp found
  rw [← same] at recent counted
  have asked := modifiedSinceDate_eq listed recent parsed
  dsimp only at asked
  rw [asked, counted, if_pos ⟨Int.natCast_nonneg _, le_refl _⟩, decide_eq_false (lt_irrefl _)]

/-- What a request leads to does not depend on the client's date. -/
theorem Host.work_ifModifiedSince (host : Host) (request : Request) (since : Text) :
    host.work world (request.ifModifiedSince since) = host.work world request := by
  have lookup : ∀ field, field ≠ .ifModifiedSince →
      (request.header.headerLines.insert .ifModifiedSince since).lookup field =
        request.header.headerLines.lookup field :=
    fun field different => Finmap.lookup_insert_of_ne _ different
  simp only [work, workOfGet, contentNegotiation, Request.ifModifiedSince]
  rw [lookup .host (by decide), lookup .userAgent (by decide)]
  rfl

/-- What is served of a file is dated by it. -/
theorem Exchange.Serves.lookup_lastModified {exchange : Exchange chrono}
    (serves : exchange.Serves path file) : ∃ text,
      (Files.lastModified chrono file : Outcome HttpError Text) = .ok text ∧
        exchange.response.header.headerLines.lookup .lastModified = some text := by
  obtain ⟨text, now, dated, finished⟩ := serves
  refine ⟨text, dated, ?_⟩
  rw [finished]
  change (((Files.headerLines path file text).insert .server _).insert .date _).lookup _ = _
  rw [Finmap.lookup_insert_of_ne _ (by decide), Finmap.lookup_insert_of_ne _ (by decide)]
  exact Files.lookup_lastModified path file text

/-- What a static file is answered with is the file that is read there, in a run in which
only this file is ever read there. -/
theorem serves_of_unchanged {serverConfig : ServerConfig}
    {steps : List (Host × Exchange chrono)} {host : Host}
    (run : (Host.visits chrono serverConfig).Run steps host)
    (unchanged : ∀ step ∈ steps, ∀ found, step.2.world.file path = some found → found = file) :
    ∀ step ∈ steps, step.2.Targets serverConfig path → step.2.status = .ok →
      step.2.Serves path file := by
  induction run with
  | start initial =>
      intro step inside
      cases inside
  | @step steps host after exchange run responds ih =>
      have earlier := ih fun step inside => unchanged step (List.mem_append_left _ inside)
      intro step inside targets answered
      rcases List.mem_append.mp inside with before | now
      · exact earlier step before targets answered
      · obtain rfl := List.mem_singleton.mp now
        have caches := Host.caches_of_run run
        obtain ⟨rfl, read, _⟩ := caches
        cases Host.effect_of_responds responds with
        | hit fetches cached serves =>
            obtain rfl := fetches.targets.unique targets
            obtain ⟨step, before, _, found⟩ := read _ _ cached
            rwa [← unchanged step (List.mem_append_left _ before) _ found]
        | miss fetches _ found serves =>
            obtain rfl := fetches.targets.unique targets
            rwa [← unchanged _ inside _ found]
        | failed _ _ _ bad => exact absurd answered bad
        | idle _ bad => exact absurd answered (bad path targets)

/-- **Validators round-trip.** Every whole second of the years from 1970 to 9999 is read
back from its date, and in every run of a host in which a static file does not change, each
GET that has been answered with the file is answered with "not modified" when it is sent
again with the date of the answer. -/
theorem revalidated (documented : chrono.Documented) :
    (∀ secs : Int, 0 ≤ secs → secs < endOfYears → ∃ datetime text,
      chrono.fromTimestamp secs 0 = some datetime ∧ chrono.timestamp datetime = secs ∧
      (∀ ε, (to1123 chrono datetime : Outcome ε Text) = .ok text) ∧
      parseDate1123 chrono text = .ok datetime) ∧
    ∀ {serverConfig : ServerConfig} {steps : List (Host × Exchange chrono)} {host : Host},
      (Host.visits chrono serverConfig).Run steps host →
    ∀ {path : Path} {file : File}, file.Dated →
      (∀ step ∈ steps, ∀ found, step.2.world.file path = some found → found = file) →
    ∀ {first : Host × Exchange chrono}, first ∈ steps →
      first.2.Targets serverConfig path → first.2.status = .ok →
    ∃ since, first.2.response.header.headerLines.lookup .lastModified = some since ∧
      Text.trim since = since ∧
      ∀ {world : World chrono} {overloaded : Bool}, world.file path = some file →
        Visit.Targets serverConfig ⟨world, first.2.request, overloaded⟩ path → ∃ response,
          host.handle world (first.2.request.ifModifiedSince since) overloaded =
            (.ok response, host, []) ∧
          response.header.statusLine.statusCode = .notModified := by
  refine ⟨fun secs recent limited => documented.parseDate1123_to1123 recent limited, ?_⟩
  intro serverConfig steps host run path file dated unchanged first inside targets answered
  obtain ⟨datetime, since, printed, trimmed, parsed, counted⟩ := dated.lastModified documented
  obtain ⟨text, same, sent⟩ :=
    (serves_of_unchanged run unchanged first inside targets answered).lookup_lastModified
  obtain rfl : since = text := Outcome.ok.inj ((printed HttpError).symm.trans same)
  refine ⟨since, sent, trimmed, ?_⟩
  intro world overloaded found again
  obtain ⟨rfl, _, _⟩ := Host.caches_of_run run
  have work : host.work world (first.2.request.ifModifiedSince since) = some (.file path) :=
    (host.work_ifModifiedSince first.2.request since).trans again
  have fresh : Host.modifiedSinceDate world path since = .ok false :=
    Host.modifiedSinceDate_of_file found dated.recent parsed counted
  have conditional : (first.2.request.ifModifiedSince since).header.headerLines.lookup
      .ifModifiedSince = some since := Finmap.lookup_insert _
  have result : host.handleResult world (first.2.request.ifModifiedSince since) overloaded
      ⟨host.files, []⟩ = (.ok notModified, ⟨host.files, []⟩) := by
    rw [Host.handleResult_of_work work, Host.perform, Host.serveFile, conditional]
    dsimp only
    rw [lift_bind_apply, fresh]
    rfl
  obtain ⟨now, stamped, _⟩ := @to1123_eq _ documented.printsUtc Error world.now
  exact ⟨_, handle_of_handleResult result stamped, rfl⟩

/-- A page that was modified in the middle of a second. -/
theorem revalidated_page : ∃ first after accesses since response,
    Site.host.handle (Site.edited "hi" 784111777500000000) (Site.get "/page.txt") false =
      (.ok first, after, accesses) ∧
    first.header.headerLines.lookup .lastModified = some since ∧
    after.handle (Site.edited "hi" 784111777500000000)
      ((Site.get "/page.txt").ifModifiedSince since) false = (.ok response, after, []) ∧
    response.header.statusLine.statusCode = .notModified := by
  have answered : (Site.host.handle (Site.edited "hi" 784111777500000000) (Site.get "/page.txt")
      false).1.toOption.map (fun response => response.header.statusLine.statusCode) = some .ok := by
    decide +kernel
  have found : (Site.edited "hi" 784111777500000000).file Site.page =
      some ⟨"hi".toList, 784111777500000000⟩ := by decide +kernel
  have targets : (Host.fresh Site.serverConfig).work (Site.edited "hi" 784111777500000000)
      (Site.get "/page.txt") = some (.file Site.page) := by decide +kernel
  obtain ⟨first, responds, status⟩ := Host.responds_of_view answered
  obtain ⟨accesses, handled⟩ := responds
  have start : (Host.visits gregorian Site.serverConfig).Run [] Site.host := .start Site.new_host
  have run := start.step ⟨accesses, handled⟩
  have dated : File.Dated ⟨"hi".toList, 784111777500000000⟩ := ⟨by decide, by decide⟩
  obtain ⟨since, sent, _, again⟩ := (revalidated gregorian_documented).2 run dated (by
      intro step inside other there
      obtain rfl := List.mem_singleton.mp inside
      exact Option.some.inj (there.symm.trans found))
    List.mem_cons_self targets status
  obtain ⟨response, revalidated, fresh⟩ := again found targets
  exact ⟨first, _, accesses, since, response, handled, sent, revalidated, fresh⟩

end RustHttpServer
