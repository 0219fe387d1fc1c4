import RustHttpServer.Host.Conditional

/-!
# Where the handler panics

Whatever a request asks for, `Host::handle` has a response to it, unless the code takes
for granted what need not be so: that there is a virtual host, that the date of the client can be
sliced and subtracted, and that the time of a file can be printed. These are the only places where
it panics (`handle_responds_iff`).
-/

namespace RustHttpServer

open Foundation Stateful

variable {chrono : Chrono}

/-! ### Virtual hosts and targets -/

/-- Looking for a virtual host panics if there is none at all. -/
theorem getVirtualHost_eq_abort_iff {ε : Type} {virtualHosts : List VirtualHost} {name : Text} :
    (getVirtualHost virtualHosts name : Outcome ε VirtualHost) = .abort ↔ virtualHosts = [] := by
  unfold getVirtualHost
  cases virtualHosts with
  | nil => exact iff_of_true rfl rfl
  | cons first others =>
      refine iff_of_false ?_ (List.cons_ne_nil first others)
      split
      · exact Outcome.Returns.ok _
      · exact Outcome.Returns.ok _

private theorem metadataOr400_returns (world : World chrono) (path : Path) :
    (metadataOr400 world path).Returns := .ofExcept _ _

private theorem contentNegotiation_returns (world : World chrono) (requestTarget : RequestTarget)
    (headerLines : RequestHeaderLines) :
    (contentNegotiation world requestTarget headerLines).Returns := by
  unfold contentNegotiation
  dsimp only
  split
  · split
    · exact .ok _
    · exact (metadataOr400_returns world _).bind fun _ => .ok _
  · exact (metadataOr400_returns world _).bind fun _ => .ok _

private theorem parsePath_returns (world : World chrono) (rootPath : Path) (requestTarget : Text) :
    (parsePath world rootPath requestTarget).Returns := by
  unfold parsePath
  dsimp only
  split
  · split
    · exact .ok _
    · exact .err _
  · exact .err _

namespace Host

/-- The request names a host, but there is no virtual host. -/
def Unhosted (host : Host) (request : Request) : Prop :=
  (request.header.headerLines.lookup .host).isSome ∧ host.serverConfig.virtualHosts = []

/-- A call that touches nothing, and aborts under a condition. -/
def Idle (condition : Prop) (call : Stateful Session HttpError Response) : Prop :=
  ∃ outcome, call = Stateful.lift outcome ∧ (outcome = .abort ↔ condition)

variable {host : Host} {world : World chrono} {request : Request}

/-- What returns does not abort, and does nothing. -/
theorem Idle.answered {condition : Prop} (never : ¬condition) {outcome : Outcome HttpError Response}
    (returns : outcome.Returns) : Idle condition (Stateful.lift outcome) :=
  ⟨outcome, rfl, iff_of_false returns never⟩

/-- What follows a call that touches nothing and returns may touch nothing either. -/
theorem Idle.bind {α : Type} {condition : Prop} (never : ¬condition)
    {outcome : Outcome HttpError α} (returns : outcome.Returns)
    {next : α → Stateful Session HttpError Response}
    (behind : ∀ value, outcome = .ok value → Idle condition (next value)) :
    Idle condition (Stateful.lift outcome >>= next) := by
  cases outcome with
  | ok value => exact behind value rfl
  | err error => exact ⟨.err error, rfl, iff_of_false (Outcome.Returns.err error) never⟩
  | abort => exact absurd rfl returns

/-- A GET that leads to no work returns and does nothing. -/
private theorem idle_handleGet {condition : Prop} (never : ¬condition)
    {requestTarget : RequestTarget}
    {virtualHost : VirtualHost} (idle : workOfGet world requestTarget request virtualHost = none) :
    Idle condition (host.handleGet world requestTarget request virtualHost) := by
  unfold workOfGet at idle
  apply Idle.bind never (contentNegotiation_returns world requestTarget _)
  rintro ⟨path, metadata⟩ negotiated
  rw [negotiated] at idle
  dsimp only [Outcome.toOption_ok, Option.bind_eq_bind, Option.bind_some] at idle ⊢
  by_cases directory : metadata.isDir
  · rw [if_pos directory]
    exact .answered never (.err _)
  · rw [if_neg directory] at idle
    split at idle
    · cases idle
    · cases idle

/-- A request that leads to no work touches nothing, and aborts for want of a virtual host. -/
theorem idle_handleResult (idle : host.work world request = none) (overloaded : Bool) :
    Idle (host.Unhosted request) (host.handleResult world request overloaded) := by
  unfold work at idle
  unfold handleResult Unhosted
  cases named : request.header.headerLines.lookup .host with
  | none =>
      refine ⟨.err _, rfl, iff_of_false (Outcome.Returns.err _) ?_⟩
      exact fun both => Bool.false_ne_true both.1
  | some hostPath =>
      rw [named] at idle
      dsimp only [Option.bind_eq_bind, Option.bind_some] at idle
      cases chosen : (getVirtualHost host.serverConfig.virtualHosts hostPath :
          Outcome HttpError VirtualHost) with
      | err error => exact absurd chosen (unfailing_getVirtualHost _ _ error)
      | abort =>
          refine ⟨.abort, ?_, iff_of_true rfl ⟨rfl, getVirtualHost_eq_abort_iff.mp chosen⟩⟩
          change (Stateful.lift (getVirtualHost _ hostPath) >>= _) = _
          rw [chosen]
          rfl
      | ok virtualHost =>
          have never : ¬((some hostPath).isSome = true ∧ host.serverConfig.virtualHosts = []) := by
            rintro ⟨-, unhosted⟩
            cases chosen.symm.trans (getVirtualHost_eq_abort_iff.mpr unhosted)
          rw [chosen] at idle
          change Idle _ (Stateful.lift (getVirtualHost _ hostPath) >>= _)
          rw [chosen]
          dsimp only [Outcome.toOption_ok, Option.bind_some] at idle
          refine Idle.bind never (.ok virtualHost) fun virtualHost' same => ?_
          cases same
          by_cases load : request.header.requestLine.method = .get ∧
              request.header.requestLine.requestPath = "/load".toList
          · rw [if_pos load]
            exact .answered never (.ok (heartbeat overloaded))
          · rw [if_neg load] at idle ⊢
            refine Idle.bind never (.okOr _ _) fun root rooted => ?_
            rw [Outcome.okOr_eq_ok_iff.mp rooted] at idle
            dsimp only [Option.bind_some] at idle
            refine Idle.bind never (parsePath_returns world root _) fun target parsed => ?_
            rw [parsed] at idle
            dsimp only [Outcome.toOption_ok, Option.bind_some] at idle
            cases method : request.header.requestLine.method with
            | get =>
                rw [method] at idle
                exact idle_handleGet never idle
            | post =>
                rw [method] at idle
                cases idle

/-! ### Scripts and files -/

/-- The output of a script is taken or refused. -/
theorem processCgiOutput_returns (s : Text) : (processCgiOutput s).Returns :=
  (Outcome.Returns.okOr _ _).bind fun _ => .ok _

/-- What a script comes to is a text or an error. -/
theorem outputText_returns (run : CgiRun) : (Cgi.outputText run).Returns := by
  unfold Cgi.outputText
  split
  · exact .err _
  · exact .err _
  · exact .err _
  · split
    · exact .ok _
    · exact .err _

/-- Handling a script does not panic. -/
theorem script_returns (cgi : Cgi) (path : Path) (virtualHost : VirtualHost) (session : Session) :
    (cgi.handle world path request virtualHost session).1.Returns := by
  intro aborted
  rw [Cgi.handle, lift_bind_apply_eq_abort_iff] at aborted
  rcases aborted with missing | ⟨serverPort, -, aborted⟩
  · exact Outcome.Returns.okOr _ _ missing
  · rw [lift_bind_apply_eq_abort_iff] at aborted
    rcases aborted with missing | ⟨serverName, -, aborted⟩
    · exact Outcome.Returns.okOr _ _ missing
    · rw [modify_bind_apply, lift_bind_apply_eq_abort_iff] at aborted
      rcases aborted with failed | ⟨output, -, aborted⟩
      · refine Outcome.Returns.mapErr ?_ _ failed
        exact (outputText_returns _).bind processCgiOutput_returns
      · exact Outcome.Returns.ok _ aborted

/-- The date of a client cannot be compared with the modification time of the file. -/
inductive Incomparable (chrono : Chrono) (world : World chrono) (path : Path) (since : Text) : Prop
  /-- `parse_date_1123` panics. -/
  | unreadable : ¬Readable since → Incomparable chrono world path since
  /-- The timestamp is no duration. -/
  | beforeEpoch {datetime : chrono.DateTime} : parseDate1123 chrono since = .ok datetime →
      chrono.timestamp datetime < 0 → Incomparable chrono world path since
  /-- The duration from one to the other is negative. -/
  | later {datetime : chrono.DateTime} {metadata : Metadata} :
      parseDate1123 chrono since = .ok datetime → world.metadata path = .ok metadata →
        0 ≤ metadata.modified → metadata.modified < chrono.timestamp datetime * nanosPerSecond →
          Incomparable chrono world path since

/-- The comparison panics over a date that is later than the file. -/
private theorem modifiedSince_eq_abort_iff {path : Path} {start : Nat} :
    Files.modifiedSince world path start = .abort ↔ ∃ metadata,
      world.metadata path = .ok metadata ∧ 0 ≤ metadata.modified ∧
        metadata.modified.toNat < start := by
  rw [Files.modifiedSince]
  cases listed : world.metadata path with
  | error error => exact iff_of_false (by simp [Outcome.ofExcept]) (by simp)
  | ok metadata =>
      rw [Outcome.ofExcept_ok, Outcome.ok_bind, durationSinceEpoch]
      by_cases recent : 0 ≤ metadata.modified
      · rw [if_pos recent, Outcome.ofExcept_ok, Outcome.ok_bind, Outcome.checkedSub]
        by_cases enough : start ≤ metadata.modified.toNat
        · rw [if_pos enough]
          refine iff_of_false (Outcome.Returns.ok _) ?_
          rintro ⟨_, same, -, less⟩
          cases same
          exact less.not_ge enough
        · rw [if_neg enough]
          exact iff_of_true rfl ⟨metadata, rfl, recent, not_le.mp enough⟩
      · rw [if_neg recent]
        refine iff_of_false (Outcome.Returns.err _) ?_
        rintro ⟨_, same, recent', -⟩
        cases same
        exact recent recent'

/-- The comparison panics over the dates that cannot be compared. -/
private theorem modifiedSinceDate_eq_abort_iff (strict : chrono.Strict) {path : Path}
    {since : Text} :
    modifiedSinceDate world path since = .abort ↔ Incomparable chrono world path since := by
  have readable := parseDate1123_returns_iff strict (s := since)
  rw [modifiedSinceDate]
  cases parsed : parseDate1123 chrono since with
  | err error =>
      rw [parsed] at readable
      refine iff_of_false (Outcome.Returns.err _) ?_
      rintro (unreadable | ⟨same, -⟩ | ⟨same, -⟩)
      · exact unreadable (readable.mp (.err error))
      · cases parsed.symm.trans same
      · cases parsed.symm.trans same
  | abort =>
      rw [parsed] at readable
      exact iff_of_true rfl (.unreadable fun legible => readable.mpr legible rfl)
  | ok datetime =>
      rw [parsed] at readable
      rw [Outcome.mapErr_ok, Outcome.ok_bind]
      by_cases positive : 0 ≤ chrono.timestamp datetime
      · have compared : Files.modifiedSince world path
            ((chrono.timestamp datetime).toNat * nanosPerSecond) = .abort ↔
              Incomparable chrono world path since := by
          have supplied : ((chrono.timestamp datetime).toNat * nanosPerSecond : Nat) =
              chrono.timestamp datetime * nanosPerSecond := by
            rw [Nat.cast_mul, Int.toNat_of_nonneg positive]
          rw [modifiedSince_eq_abort_iff]
          constructor
          · rintro ⟨metadata, listed, recent, less⟩
            exact .later parsed listed recent (by omega)
          · rintro (unreadable | ⟨same, negative⟩ | ⟨same, listed, recent, less⟩)
            · exact absurd (readable.mp (.ok datetime)) unreadable
            · cases parsed.symm.trans same
              exact absurd positive negative.not_ge
            · cases parsed.symm.trans same
              exact ⟨_, listed, recent, by omega⟩
        rw [if_pos positive, Outcome.ok_bind, ← compared]
        cases Files.modifiedSince world path
            ((chrono.timestamp datetime).toNat * nanosPerSecond) with
        | ok modSince => exact iff_of_false (Outcome.Returns.ok _) (Outcome.Returns.ok _)
        | err error => exact iff_of_false (Outcome.Returns.ok _) (Outcome.Returns.err _)
        | abort => exact iff_of_true rfl rfl
      · rw [if_neg positive]
        exact iff_of_true rfl (.beforeEpoch parsed (not_le.mp positive))

/-- The client wants the file at a path, whatever it has of it. -/
def Wants (world : World chrono) (request : Request) (path : Path) : Prop :=
  ∀ since, request.header.headerLines.lookup .ifModifiedSince = some since →
    modifiedSinceDate world path since = .ok true

/-- A request for a static file that the handler panics over. -/
inductive FilePanics (world : World chrono) (request : Request) (session : Session)
    (path : Path) : Prop
  | conditional {since : Text} :
      request.header.headerLines.lookup .ifModifiedSince = some since →
        Incomparable chrono world path since → FilePanics world request session path
  /-- The modification time of the file is no date. -/
  | undatable {file : File} : Wants world request path →
      Files.served world session path = some file → ¬file.Datable chrono →
        FilePanics world request session path

private theorem getContent_eq_abort_iff (printsUtc : chrono.PrintsUtc) {path : Path}
    {session : Session} :
    (Files.getContent world path session).1 = .abort ↔
      ∃ file, Files.served world session path = some file ∧ ¬file.Datable chrono := by
  rw [← not_iff_not]
  refine (getContent_returns_iff printsUtc).trans ?_
  simp only [not_exists, not_and, not_not]

/-- Serving a file panics over its date, or that of the client. -/
private theorem serveFile_eq_abort_iff (printsUtc : chrono.PrintsUtc) (strict : chrono.Strict)
    {path : Path} {session : Session} :
    (serveFile world request path session).1 = .abort ↔ FilePanics world request session path := by
  unfold serveFile
  cases conditional : request.header.headerLines.lookup .ifModifiedSince with
  | none =>
      refine (getContent_eq_abort_iff printsUtc).trans ⟨?_, ?_⟩
      · rintro ⟨file, served, undatable⟩
        refine .undatable (fun since supplied => ?_) served undatable
        cases conditional.symm.trans supplied
      · rintro (⟨supplied, -⟩ | ⟨-, served, undatable⟩)
        · cases conditional.symm.trans supplied
        · exact ⟨_, served, undatable⟩
  | some since =>
      rw [lift_bind_apply_eq_abort_iff, modifiedSinceDate_eq_abort_iff strict]
      constructor
      · rintro (incomparable | ⟨modSince, asked, aborted⟩)
        · exact .conditional conditional incomparable
        · cases modSince with
          | false => cases aborted
          | true =>
              obtain ⟨file, served, undatable⟩ := (getContent_eq_abort_iff printsUtc).mp aborted
              refine .undatable (fun since' supplied => ?_) served undatable
              cases conditional.symm.trans supplied
              exact asked
      · rintro (⟨supplied, incomparable⟩ | ⟨wants, served, undatable⟩)
        · cases conditional.symm.trans supplied
          exact .inl incomparable
        · refine .inr ⟨true, wants since conditional, ?_⟩
          exact (getContent_eq_abort_iff printsUtc).mpr ⟨_, served, undatable⟩

/-! ### The handler -/

/-- The handler panics over a request. -/
inductive Panics (host : Host) (world : World chrono) (request : Request) : Prop
  | unhosted : host.Unhosted request → Panics host world request
  | file {path : Path} : host.work world request = some (.file path) →
      FilePanics world request ⟨host.files, []⟩ path → Panics host world request

/-- What leads to work names a host that there is. -/
theorem not_unhosted_of_work {work : Work} (led : host.work world request = some work) :
    ¬host.Unhosted request := by
  rintro ⟨named, unhosted⟩
  obtain ⟨hostPath, named⟩ := Option.isSome_iff_exists.mp named
  have none : (getVirtualHost host.serverConfig.virtualHosts hostPath :
      Outcome HttpError VirtualHost) = .abort := getVirtualHost_eq_abort_iff.mpr unhosted
  unfold Host.work at led
  rw [named] at led
  dsimp only [Option.bind_eq_bind, Option.bind_some] at led
  rw [none] at led
  cases led

/-- `handle_result` panics over the requests that the handler panics over. -/
private theorem handleResult_eq_abort_iff (printsUtc : chrono.PrintsUtc) (strict : chrono.Strict)
    (overloaded : Bool) :
    (host.handleResult world request overloaded ⟨host.files, []⟩).1 = .abort ↔
      host.Panics world request := by
  cases led : host.work world request with
  | none =>
      obtain ⟨outcome, touched, aborts⟩ := idle_handleResult led overloaded
      rw [touched]
      refine aborts.trans ⟨.unhosted, ?_⟩
      rintro (unhosted | ⟨file, -⟩)
      · exact unhosted
      · cases led.symm.trans file
  | some work =>
      rw [handleResult_of_work led]
      cases work with
      | script path virtualHost =>
          refine iff_of_false (script_returns host.cgi path virtualHost _) ?_
          rintro (unhosted | ⟨file, -⟩)
          · exact not_unhosted_of_work led unhosted
          · cases led.symm.trans file
      | file path =>
          refine (serveFile_eq_abort_iff printsUtc strict).trans ⟨.file led, ?_⟩
          rintro (unhosted | ⟨file, panics⟩)
          · exact absurd unhosted (not_unhosted_of_work led)
          · cases led.symm.trans file
            exact panics

/-- The handler returns no error: it responds, or aborts where `handle_result` does. -/
theorem handle_outcome (printsUtc : chrono.PrintsUtc) (overloaded : Bool) :
    ((host.handleResult world request overloaded ⟨host.files, []⟩).1 = .abort ∧
        (host.handle world request overloaded).1 = .abort) ∨
      ((host.handleResult world request overloaded ⟨host.files, []⟩).1 ≠ .abort ∧
        ∃ response, (host.handle world request overloaded).1 = .ok response) := by
  obtain ⟨now, stamped, -⟩ := @to1123_eq _ printsUtc Error world.now
  rw [handle, handleWith, bind_apply, recover]
  cases host.handleResult world request overloaded ⟨host.files, []⟩ with
  | mk outcome session =>
      cases outcome with
      | ok response =>
          dsimp only
          rw [lift_bind_apply, stamped]
          exact .inr ⟨Outcome.Returns.ok _, _, rfl⟩
      | err error =>
          dsimp only
          rw [lift_bind_apply, stamped]
          exact .inr ⟨Outcome.Returns.err _, _, rfl⟩
      | abort => exact .inl ⟨rfl, rfl⟩

/-- The handler aborts exactly over the requests that it panics over. -/
theorem handle_eq_abort_iff (printsUtc : chrono.PrintsUtc) (strict : chrono.Strict)
    (overloaded : Bool) :
    (host.handle world request overloaded).1 = .abort ↔ host.Panics world request := by
  rw [← handleResult_eq_abort_iff printsUtc strict overloaded]
  rcases host.handle_outcome printsUtc overloaded with ⟨aborts, aborted⟩ | ⟨returns, response, made⟩
  · exact iff_of_true aborted aborts
  · rw [made]
    exact iff_of_false (Outcome.Returns.ok response) returns

end Host

end RustHttpServer
