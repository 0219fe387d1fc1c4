import RustHttpServer.Host.Site
import RustHttpServer.Host.Visits
import RustHttpServer.Time.Legibility

/-!
# Conditional requests

The date of a conditional request is compared with the modification time of the file by
subtracting one from the other, as durations from the epoch. So the comparison is made only
between dates from the epoch on that are not later than the file; any other date aborts the
handler (`conditional_get_iff`). What is not a date is refused if it can be read at all
(`parseDate1123_total_iff`).
-/

namespace RustHttpServer

open Foundation Stateful

variable {chrono : Chrono}

/-- The request, if the file has been modified since a date. -/
def Request.ifModifiedSince (request : Request) (since : Text) : Request :=
  { request with header := { request.header with
    headerLines := request.header.headerLines.insert .ifModifiedSince since } }

/-! ### Dating a file -/

/-- The time that a file was modified at is one that can be printed. -/
structure File.Datable (chrono : Chrono) (file : File) : Prop where
  recent : 0 ≤ file.modified
  short : file.modified.toNat / nanosPerSecond < 2 ^ 63
  made : (chrono.fromTimestamp (file.modified.toNat / nanosPerSecond : Nat) 0).isSome

/-- A file is dated if that can be done. -/
theorem File.Datable.lastModified {file : File} (printsUtc : chrono.PrintsUtc)
    (datable : file.Datable chrono) (ε : Type) :
    ∃ text, (Files.lastModified chrono file : Outcome ε Text) = .ok text := by
  obtain ⟨recent, short, made⟩ := datable
  obtain ⟨datetime, made⟩ := Option.isSome_iff_exists.mp made
  obtain ⟨text, printed, _⟩ := @to1123_eq _ printsUtc ε datetime
  refine ⟨text ++ " GMT".toList, ?_⟩
  rw [Files.lastModified, durationSinceEpoch, if_pos recent]
  dsimp only [Except.toOption]
  rw [Outcome.unwrap_some, Outcome.ok_bind, if_pos short, Outcome.ok_bind, made,
    Outcome.unwrap_some, Outcome.ok_bind, printed]

/-- Dating any other file aborts. -/
theorem Files.lastModified_of_not_datable {file : File} (undatable : ¬file.Datable chrono)
    (ε : Type) : (lastModified chrono file : Outcome ε Text) = .abort := by
  rw [lastModified, durationSinceEpoch]
  by_cases recent : 0 ≤ file.modified
  · rw [if_pos recent]
    dsimp only [Except.toOption]
    rw [Outcome.unwrap_some, Outcome.ok_bind]
    by_cases short : file.modified.toNat / nanosPerSecond < 2 ^ 63
    · rw [if_pos short, Outcome.ok_bind]
      cases made : chrono.fromTimestamp (file.modified.toNat / nanosPerSecond : Nat) 0 with
      | none => rfl
      | some datetime => exact absurd ⟨recent, short, by rw [made]; rfl⟩ undatable
    · rw [if_neg short]
      rfl
  · rw [if_neg recent]
    rfl

/-! ### Serving a file -/

/-- The file that is served at a path, from the cache or else from the disk. -/
def Files.served (world : World chrono) (session : Session) (path : Path) : Option File :=
  (session.files.cache.lookup path).or (world.file path)

variable {world : World chrono} {path : Path} {session : Session}

/-- A file is served if it can be dated, and serving what cannot be dated aborts. -/
theorem getContent_of_served (printsUtc : chrono.PrintsUtc) {file : File}
    (served : Files.served world session path = some file) :
    (file.Datable chrono → ∃ response, (Files.getContent world path session).1 = .ok response ∧
        response.header.statusLine.statusCode = .ok) ∧
      (¬file.Datable chrono → (Files.getContent world path session).1 = .abort) := by
  have fetched : ∃ after, Files.fetch world path session = (.ok file, after) := by
    unfold Files.served at served
    cases cached : session.files.cache.lookup path with
    | some kept =>
        rw [cached] at served
        cases served
        exact ⟨session, Files.fetch_of_cached cached⟩
    | none =>
        rw [cached] at served
        refine ⟨_, (Files.fetch_of_uncached cached).trans (Files.load_of_file ?_)⟩
        exact served
  obtain ⟨after, fetched⟩ := fetched
  constructor
  · intro datable
    obtain ⟨text, dated⟩ := datable.lastModified printsUtc HttpError
    have returned := getContent_eq_ok_iff.mpr ⟨file, text, fetched, dated, rfl⟩
    exact ⟨_, congrArg Prod.fst returned, rfl⟩
  · intro undatable
    rw [Files.getContent, bind_apply, fetched]
    dsimp only
    rw [lift_bind_apply, Files.lastModified_of_not_datable undatable]

/-- Nothing is served at a path with no file. -/
theorem getContent_of_not_served (missing : Files.served world session path = none) :
    ∃ error, (Files.getContent world path session).1 = .err error := by
  obtain ⟨uncached, unread⟩ := Option.or_eq_none_iff.mp missing
  obtain ⟨error, _, failed⟩ :=
    @Files.load_of_unreadable _ _ _ (session.record (.read path)) unread
  refine ⟨error, ?_⟩
  rw [Files.getContent, bind_apply, Files.fetch_of_uncached uncached, failed]

/-- `get_content` returns if what it serves can be dated. -/
theorem getContent_returns_iff (printsUtc : chrono.PrintsUtc) :
    (Files.getContent world path session).1.Returns ↔
      ∀ file, Files.served world session path = some file → file.Datable chrono := by
  cases served : Files.served world session path with
  | none =>
      obtain ⟨error, failed⟩ := getContent_of_not_served served
      rw [failed]
      exact iff_of_true (.err error) nofun
  | some file =>
      obtain ⟨answered, aborted⟩ := getContent_of_served printsUtc served
      by_cases datable : file.Datable chrono
      · obtain ⟨response, returned, _⟩ := answered datable
        rw [returned]
        refine iff_of_true (.ok response) fun other same => ?_
        rwa [← Option.some.inj same]
      · rw [aborted datable]
        exact iff_of_false (fun returns => returns rfl) fun all => datable (all file rfl)

/-- What `get_content` answers is not "not modified". -/
theorem status_of_getContent {response : Response} {after : Session}
    (returned : Files.getContent world path session = (.ok response, after)) :
    response.header.statusLine.statusCode = .ok := by
  obtain ⟨file, text, _, _, rfl⟩ := getContent_eq_ok_iff.mp returned
  rfl

/-! ### The comparison -/

private theorem Files.modifiedSince_of_metadata {metadata : Metadata}
    (listed : world.metadata path = .ok metadata) (recent : 0 ≤ metadata.modified) (start : Nat) :
    modifiedSince world path start =
      if start ≤ metadata.modified.toNat then
        .ok (decide ((metadata.modified.toNat - start) / nanosPerSecond > 0))
      else .abort := by
  rw [modifiedSince, listed, Outcome.ofExcept_ok, Outcome.ok_bind, durationSinceEpoch,
    if_pos recent, Outcome.ofExcept_ok, Outcome.ok_bind, Outcome.checkedSub]
  split
  · rfl
  · rfl

/-- A date from the epoch on that is not later than the file is compared with the whole
seconds of its modification time. -/
theorem Host.modifiedSinceDate_eq {metadata : Metadata}
    (listed : world.metadata path = .ok metadata) (recent : 0 ≤ metadata.modified) {since : Text}
    {datetime : chrono.DateTime} (parsed : parseDate1123 chrono since = .ok datetime) :
    let modified : Int := (metadata.modified.toNat / nanosPerSecond : Nat)
    let supplied := chrono.timestamp datetime
    modifiedSinceDate world path since =
      if 0 ≤ supplied ∧ supplied ≤ modified then .ok (decide (supplied < modified))
      else .abort := by
  intro modified supplied
  rw [modifiedSinceDate, parsed, Outcome.mapErr_ok, Outcome.ok_bind]
  by_cases positive : 0 ≤ supplied
  · obtain ⟨secs, same⟩ := Int.eq_ofNat_of_zero_le positive
    have perSecond : 0 < nanosPerSecond := by decide
    have enough : secs * nanosPerSecond ≤ metadata.modified.toNat ↔ supplied ≤ modified := by
      rw [same, Int.ofNat_le, Nat.le_div_iff_mul_le perSecond]
    rw [if_pos positive, Outcome.ok_bind, Files.modifiedSince_of_metadata listed recent]
    rw [show (chrono.timestamp datetime).toNat = secs from congrArg Int.toNat same]
    by_cases within : supplied ≤ modified
    · have below := enough.mpr within
      rw [if_pos below, if_pos ⟨positive, within⟩]
      rw [Nat.mul_comm] at below
      have difference : decide ((metadata.modified.toNat - secs * nanosPerSecond) /
          nanosPerSecond > 0) = decide (supplied < modified) := by
        apply decide_eq_decide.mpr
        rw [Nat.mul_comm, Nat.sub_mul_div_of_le _ _ _ below, same, Int.ofNat_lt]
        exact Nat.sub_pos_iff_lt
      exact congrArg Outcome.ok difference
    · rw [if_neg fun below => within (enough.mp below), if_neg fun both => within both.2]
  · have negative : ¬(0 ≤ supplied ∧ supplied ≤ modified) := fun both => positive both.1
    rw [if_neg positive, if_neg negative]
    rfl

/-! ### The decision -/

/-- The metadata that is negotiated is that of the path. -/
theorem metadata_of_contentNegotiation {requestTarget : RequestTarget}
    {headerLines : RequestHeaderLines} {metadata : Metadata}
    (negotiated : contentNegotiation world requestTarget headerLines = .ok (path, metadata)) :
    world.metadata path = .ok metadata := by
  have listed : ∀ {path : Path} {metadata : Metadata},
      metadataOr400 world path = .ok metadata → world.metadata path = .ok metadata := by
    intro path metadata found
    unfold metadataOr400 at found
    cases answer : world.metadata path with
    | ok listed =>
        rw [answer] at found
        cases found
        rfl
    | error error =>
        rw [answer] at found
        cases found
  unfold contentNegotiation at negotiated
  dsimp only at negotiated
  split at negotiated
  · split at negotiated
    · next mobile =>
        cases negotiated
        exact listed mobile
    · obtain ⟨other, found, same⟩ := Outcome.bind_eq_ok_iff.mp negotiated
      cases same
      exact listed found
  · obtain ⟨other, found, same⟩ := Outcome.bind_eq_ok_iff.mp negotiated
    cases same
    exact listed found

/-- A GET of a static file is answered with "not modified". -/
def AnswersNotModified (result : Outcome HttpError Response × Session) : Prop :=
  ∃ response, result.1 = .ok response ∧ response.header.statusLine.statusCode = .notModified

/-- What is asked for is a static file at a path. -/
def Host.AsksStatic (world : World chrono) (requestTarget : RequestTarget) (request : Request)
    (path : Path) : Prop :=
  ∃ metadata, contentNegotiation world requestTarget request.header.headerLines =
      .ok (path, metadata) ∧ metadata.isDir = false ∧ isExecutable metadata = false

/-- A conditional request for a static file is decided by the dates. -/
theorem Host.handleGet_of_conditional (host : Host) {requestTarget : RequestTarget}
    {request : Request} (virtualHost : VirtualHost) (session : Session) {since : Text}
    (static : AsksStatic world requestTarget request path)
    (conditional : request.header.headerLines.lookup .ifModifiedSince = some since) :
    host.handleGet world requestTarget request virtualHost session =
      (Stateful.lift (modifiedSinceDate world path since) >>= fun modSince =>
        if modSince then Files.getContent world path else pure notModified) session := by
  obtain ⟨metadata, negotiated, notDirectory, static⟩ := static
  rw [handleGet, lift_bind_apply, negotiated]
  dsimp only
  rw [notDirectory, if_neg Bool.false_ne_true, static, if_neg Bool.false_ne_true, conditional]

/-- **Conditional requests.** The decision is the comparison of the dates, in whole seconds,
exactly if the date of the client is from the epoch on and not later than the file, and the
file that is served can be dated. -/
theorem conditional_get_iff (printsUtc : chrono.PrintsUtc) (host : Host) (world : World chrono)
    (requestTarget : RequestTarget) (request : Request) (virtualHost : VirtualHost)
    (session : Session) {path : Path} {metadata : Metadata} {since : Text}
    {datetime : chrono.DateTime}
    (negotiated : contentNegotiation world requestTarget request.header.headerLines =
      .ok (path, metadata))
    (notDirectory : metadata.isDir = false) (static : Host.isExecutable metadata = false)
    (recent : 0 ≤ metadata.modified)
    (conditional : request.header.headerLines.lookup .ifModifiedSince = some since)
    (parsed : parseDate1123 chrono since = .ok datetime) :
    let result := host.handleGet world requestTarget request virtualHost session
    let modified : Int := (metadata.modified.toNat / nanosPerSecond : Nat)
    let supplied := chrono.timestamp datetime
    ((AnswersNotModified result ↔ modified ≤ supplied) ∧
        (supplied < modified → result = Files.getContent world path session) ∧
        result.1.Returns) ↔
      0 ≤ supplied ∧ supplied ≤ modified ∧ (supplied < modified →
        ∀ file, Files.served world session path = some file → file.Datable chrono) := by
  intro result modified supplied
  have asked := Host.modifiedSinceDate_eq (metadata_of_contentNegotiation negotiated) recent parsed
  have decided : result = _ := Host.handleGet_of_conditional host virtualHost session
    ⟨metadata, negotiated, notDirectory, static⟩ conditional
  dsimp only at asked
  by_cases comparable : 0 ≤ supplied ∧ supplied ≤ modified
  · rw [if_pos comparable] at asked
    rw [lift_bind_apply, asked] at decided
    by_cases older : supplied < modified
    · rw [decide_eq_true older] at decided
      have served : result = Files.getContent world path session := decided
      have unanswered : ¬AnswersNotModified result := by
        rintro ⟨response, answered, status⟩
        have returned : Files.getContent world path session = (.ok response, result.2) := by
          rw [← served, ← answered]
        rw [status_of_getContent returned] at status
        cases status
      have returns := @getContent_returns_iff _ world path session printsUtc
      rw [← served] at returns
      rw [returns]
      constructor
      · rintro ⟨_, _, datable⟩
        exact ⟨comparable.1, comparable.2, fun _ => datable⟩
      · rintro ⟨_, _, datable⟩
        exact ⟨iff_of_false unanswered older.not_ge, fun _ => served, datable older⟩
    · rw [decide_eq_false older] at decided
      have answered : result = (.ok notModified, session) := decided
      rw [answered]
      refine iff_of_true ⟨?_, fun newer => absurd newer older, .ok notModified⟩
        ⟨comparable.1, comparable.2, fun newer => absurd newer older⟩
      exact iff_of_true ⟨notModified, rfl, rfl⟩ (not_lt.mp older)
  · rw [if_neg comparable] at asked
    have aborted : result = (.abort, session) := by
      rw [decided, lift_bind_apply, asked]
    rw [aborted]
    refine iff_of_false (fun decides => decides.2.2 rfl) fun both => comparable ⟨both.1, both.2.1⟩

/-- A page that was modified in the middle of the second that the client sends. -/
theorem conditional_get_iff_page :
    let world := Site.edited "hi" 784111777500000000
    let request := (Site.get "/page.txt").ifModifiedSince "Sun, 06 Nov 1994 08:49:37 GMT".toList
    let result := Site.host.handleGet world ⟨Site.page, false⟩ request Site.virtualHost
      ⟨Site.host.files, []⟩
    AnswersNotModified result ∧ result.1.Returns := by
  intro world request result
  have negotiated : contentNegotiation world ⟨Site.page, false⟩ request.header.headerLines =
      .ok (Site.page, ⟨false, 784111777500000000, 0o644⟩) := by decide +kernel
  have parsed : parseDate1123 gregorian "Sun, 06 Nov 1994 08:49:37 GMT".toList =
      .ok (784111777 : Int) := by decide +kernel
  have decides := (conditional_get_iff gregorian_printsUtc Site.host world ⟨Site.page, false⟩
    request Site.virtualHost ⟨Site.host.files, []⟩ negotiated rfl (by decide) (by decide)
    (Finmap.lookup_insert _) parsed).mpr
      ⟨by decide, by decide, fun older => absurd older (by decide)⟩
  exact ⟨decides.1.mpr (by decide), decides.2.2⟩

/-- A date one second after the modification of the page, and one before the epoch: the
handler aborts. -/
theorem conditional_get_aborts :
    ((Site.host.handle (Site.edited "hi" 784111777500000000) ((Site.get "/page.txt").ifModifiedSince
        "Sun, 06 Nov 1994 08:49:38 GMT".toList) false).1 = .abort ∧
      parseDate1123 gregorian "Sun, 06 Nov 1994 08:49:38 GMT".toList = .ok (784111778 : Int)) ∧
    ((Site.host.handle (Site.edited "hi" 784111777500000000) ((Site.get "/page.txt").ifModifiedSince
        "Wed, 31 Dec 1969 23:59:59 GMT".toList) false).1 = .abort ∧
      parseDate1123 gregorian "Wed, 31 Dec 1969 23:59:59 GMT".toList = .ok (-1 : Int)) := by
  decide +kernel

/-! ### What is not a date -/

/-- Every handler that is asked conditionally for a static file answers 400. -/
def RefusedWith (chrono : Chrono) (since : Text) (error : Error) : Prop :=
  ∀ (host : Host) (world : World chrono) (requestTarget : RequestTarget) (request : Request)
    (virtualHost : VirtualHost) (session : Session) (path : Path),
    Host.AsksStatic world requestTarget request path →
    request.header.headerLines.lookup .ifModifiedSince = some since →
      (host.handleGet world requestTarget request virtualHost session).1 =
        .err { status := .badRequest, message := some error.message }

private theorem refusedWith_of_parseDate1123 {since : Text} {error : Error}
    (failed : parseDate1123 chrono since = .err error) : RefusedWith chrono since error := by
  intro host world requestTarget request virtualHost session path static conditional
  rw [Host.handleGet_of_conditional host virtualHost session static conditional, lift_bind_apply,
    Host.modifiedSinceDate, failed]
  rfl

/-- **What a client may send as a date.** A date is read where one stands, and anything else
is refused with 400, exactly if the text can be read. -/
theorem parseDate1123_total_iff (strict : chrono.Strict) (since : Text) :
    ((∃ datetime, parseDate1123 chrono since = .ok datetime) ↔ DenotesDate since) ∧
        (¬DenotesDate since → ∃ error, parseDate1123 chrono since = .err error ∧
          RefusedWith chrono since error) ↔
      Readable since := by
  rw [← parseDate1123_returns_iff strict, parseDate1123_ok_iff strict]
  constructor
  · rintro ⟨_, refused⟩
    by_cases denotes : DenotesDate since
    · obtain ⟨datetime, read⟩ := (parseDate1123_ok_iff strict).mpr denotes
      rw [read]
      exact .ok datetime
    · obtain ⟨error, failed, _⟩ := refused denotes
      rw [failed]
      exact .err error
  · intro returns
    refine ⟨Iff.rfl, fun other => ?_⟩
    cases read : parseDate1123 chrono since with
    | ok datetime => exact absurd ((parseDate1123_ok_iff strict).mp ⟨datetime, read⟩) other
    | err error => exact ⟨error, rfl, refusedWith_of_parseDate1123 read⟩
    | abort => exact absurd read returns

/-- A date as clients send it. -/
theorem parseDate1123_total_iff_date : Readable "Sun, 06 Nov 1994 08:49:37 GMT".toList := by
  have denotes : DenotesDate "Sun, 06 Nov 1994 08:49:37 GMT".toList :=
    ⟨⟨.sun, 6, ⟨11, by decide⟩, 1994⟩, ⟨8, 49, 37⟩, [], ⟨by decide, by decide⟩,
      ⟨by decide, by decide, by decide⟩, by decide⟩
  have read : parseDate1123 gregorian "Sun, 06 Nov 1994 08:49:37 GMT".toList =
      .ok (784111777 : Int) := by decide +kernel
  exact (parseDate1123_total_iff gregorian_strict _).mp
    ⟨iff_of_true ⟨_, read⟩ denotes, fun other => absurd denotes other⟩

/-- A text that is too short, one with an accent, a day and a time that do not exist. -/
theorem parseDate1123_aborts :
    parseDate1123 gregorian [] = .abort ∧
    parseDate1123 gregorian "Sun, 06 Noé 1994 08:49:37 GMT".toList = .abort ∧
    parseDate1123 gregorian "Wed, 30 Feb 1994 08:49:37 GMT".toList = .abort ∧
    parseDate1123 gregorian "Sun, 06 Nov 1994 25:49:37 GMT".toList = .abort ∧
    (Site.host.handle Site.world ((Site.get "/page.txt").ifModifiedSince []) false).1 = .abort := by
  decide +kernel

end RustHttpServer
