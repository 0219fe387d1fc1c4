import RustHttpServer.Host.Revalidation

/-!
# Stale files

A file is served from the cache once it has been read, whatever has become of it since.
The responses of a host are therefore up to date exactly in the runs in which no file is
found changed after it has been read (`coherent_iff`), and a file that is modified is served
as it was (`coherent_stale`), also to a client that asks for it only if it has been modified
since then.
-/

namespace RustHttpServer

open Foundation

variable {chrono : Chrono}

/-- As `chrono` documents, the timestamp of an instant is the number it was made from. -/
structure Chrono.CountsSeconds (chrono : Chrono) : Prop where
  timestamp : ∀ secs datetime, chrono.fromTimestamp secs 0 = some datetime →
    chrono.timestamp datetime = secs

/-- The response has the content of a file as it is on disk and the date of its
modification. That date is later than the one that the client has supplied, if any. -/
def Exchange.Current (exchange : Exchange chrono) (path : Path) : Prop :=
  ∃ file text, exchange.world.file path = some file ∧ exchange.response.body = file.content ∧
    (Files.lastModified chrono file : Outcome HttpError Text) = .ok text ∧
    exchange.response.header.headerLines.lookup .lastModified = some text ∧
    ∀ since, exchange.request.header.headerLines.lookup .ifModifiedSince = some since →
      ∃ supplied modified, parseDate1123 chrono since = .ok supplied ∧
        (to1123 chrono modified : Outcome HttpError Text) = .ok text ∧
        chrono.timestamp supplied < chrono.timestamp modified

/-- A static file that is responded is responded as it is. -/
def Exchange.Coherent (serverConfig : ServerConfig) (exchange : Exchange chrono) : Prop :=
  ∀ path, exchange.Targets serverConfig path → exchange.status = .ok → exchange.Current path

/-- A file that one visit fetches and can read is found by the other with the same content
and the same date. -/
def Visit.Agrees (serverConfig : ServerConfig) (earlier later : Visit chrono) : Prop :=
  ∀ path file, earlier.Fetches serverConfig path → later.Fetches serverConfig path →
    earlier.world.file path = some file → ∃ found, later.world.file path = some found ∧
      found.content = file.content ∧ (Files.lastModified chrono found : Outcome HttpError Text) =
        Files.lastModified chrono file

/-! ### Dates of files -/

variable {world : World chrono} {path : Path} {file : File}

/-- The date of a file is that of the whole seconds of its modification time. -/
theorem Files.of_lastModified {text : Text}
    (dated : (lastModified chrono file : Outcome HttpError Text) = .ok text) :
    0 ≤ file.modified ∧ ∃ datetime,
      chrono.fromTimestamp (file.modified.toNat / nanosPerSecond : Nat) 0 = some datetime ∧
        (to1123 chrono datetime : Outcome HttpError Text) = .ok text := by
  rw [lastModified, durationSinceEpoch] at dated
  by_cases recent : 0 ≤ file.modified
  · rw [if_pos recent] at dated
    dsimp only [Except.toOption] at dated
    rw [Outcome.unwrap_some, Outcome.ok_bind] at dated
    split at dated
    · rw [Outcome.ok_bind] at dated
      cases made : chrono.fromTimestamp (file.modified.toNat / nanosPerSecond : Nat) 0 with
      | none =>
          rw [made] at dated
          cases dated
      | some datetime =>
          rw [made] at dated
          exact ⟨recent, datetime, rfl, dated⟩
    · cases dated
  · rw [if_neg recent] at dated
    cases dated

/-- A file that has been modified since a date has been modified a second or more later. -/
theorem Host.later_of_modifiedSinceDate {since : Text}
    (asked : modifiedSinceDate world path since = .ok true) (found : world.file path = some file)
    (recent : 0 ≤ file.modified) : ∃ supplied, parseDate1123 chrono since = .ok supplied ∧
      chrono.timestamp supplied < (file.modified.toNat / nanosPerSecond : Nat) := by
  obtain ⟨_, metadata, listed, same⟩ := World.file_eq_some_iff.mp found
  have reading := asked
  rw [modifiedSinceDate, Outcome.bind_eq_ok_iff] at reading
  obtain ⟨supplied, parsed, _⟩ := reading
  replace parsed := Outcome.mapErr_eq_ok_iff.mp parsed
  refine ⟨supplied, parsed, ?_⟩
  rw [← same] at recent ⊢
  have compared := modifiedSinceDate_eq listed recent parsed
  dsimp only at compared
  rw [asked] at compared
  split at compared
  · exact of_decide_eq_true (Outcome.ok.inj compared).symm
  · cases compared

/-! ### Responses and the cache -/

/-- A file is served with status OK. -/
theorem Exchange.status_of_serves {exchange : Exchange chrono}
    (serves : exchange.Serves path file) : exchange.status = .ok := by
  obtain ⟨text, now, _, finished⟩ := serves
  rw [status, finished]
  rfl

/-- A file is served with its content as the body. -/
theorem Exchange.body_of_serves {exchange : Exchange chrono} (serves : exchange.Serves path file) :
    exchange.response.body = file.content := by
  obtain ⟨text, now, _, finished⟩ := serves
  rw [finished]
  rfl

/-- What is served from the cache is up to date if the file is still the same. -/
theorem Exchange.current_iff (counts : chrono.CountsSeconds) {serverConfig : ServerConfig}
    {exchange : Exchange chrono} (fetches : exchange.Fetches serverConfig path)
    (serves : exchange.Serves path file) : exchange.Current path ↔
      ∃ found, exchange.world.file path = some found ∧ found.content = file.content ∧
        (Files.lastModified chrono found : Outcome HttpError Text) =
          Files.lastModified chrono file := by
  have body := exchange.body_of_serves serves
  obtain ⟨text, dated, sent⟩ := serves.lookup_lastModified
  constructor
  · rintro ⟨found, text', there, content, dated', sent', _⟩
    obtain rfl : text = text' := Option.some.inj (sent.symm.trans sent')
    exact ⟨found, there, content.symm.trans body, dated'.trans dated.symm⟩
  · rintro ⟨found, there, content, same⟩
    have dated' := same.trans dated
    obtain ⟨recent, modified, made, printed⟩ := Files.of_lastModified dated'
    refine ⟨found, text, there, body.trans content.symm, dated', sent, ?_⟩
    intro since conditional
    obtain ⟨supplied, parsed, later⟩ :=
      Host.later_of_modifiedSinceDate (fetches.wanted since conditional) there recent
    exact ⟨supplied, modified, parsed, printed, by rwa [counts.timestamp _ _ made]⟩

variable {serverConfig : ServerConfig} {steps : List (Host × Exchange chrono)} {host after : Host}
  {exchange : Exchange chrono}

/-- A visit is answered with files as they are exactly if it agrees with all visits
before it, as long as these have been. -/
theorem coherent_iff_agrees (counts : chrono.CountsSeconds)
    (caches : Host.Caches serverConfig steps host) (responds : host.Responds exchange after)
    (before : ∀ step ∈ steps, step.2.Coherent serverConfig) : exchange.Coherent serverConfig ↔
      ∀ step ∈ steps, step.2.toVisit.Agrees serverConfig exchange.toVisit := by
  obtain ⟨rfl, read, kept⟩ := caches
  constructor
  · intro coherent step inside path file earlier fetched there
    obtain ⟨cached, lookup, served⟩ := kept step inside path file earlier there
    have current := before step inside path earlier.targets (Exchange.status_of_serves served)
    obtain ⟨file', there', content, dated⟩ :=
      (Exchange.current_iff counts earlier served).mp current
    obtain rfl : file = file' := Option.some.inj (there.symm.trans there')
    have serves : exchange.Serves path cached := by
      rcases (Host.effect_of_responds responds).of_fetches fetched with
        ⟨file, lookup', serves, -⟩ | ⟨file, uncached, -⟩ | ⟨-, uncached⟩
      · obtain rfl := Option.some.inj (lookup.symm.trans lookup')
        exact serves
      · cases lookup.symm.trans uncached
      · cases lookup.symm.trans uncached
    have now := coherent path fetched.targets (Exchange.status_of_serves serves)
    obtain ⟨found, found', content', dated'⟩ := (Exchange.current_iff counts fetched serves).mp now
    exact ⟨found, found', content'.trans content.symm, dated'.trans dated.symm⟩
  · intro agrees path targets answered
    cases Host.effect_of_responds responds with
    | hit fetches lookup serves =>
        obtain rfl := fetches.targets.unique targets
        obtain ⟨step, inside, earlier, there⟩ := read _ _ lookup
        exact (Exchange.current_iff counts fetches serves).mpr
          (agrees step inside _ _ earlier fetches there)
    | miss fetches _ found serves =>
        obtain rfl := fetches.targets.unique targets
        exact (Exchange.current_iff counts fetches serves).mpr ⟨_, found, rfl, rfl⟩
    | failed _ _ _ bad => exact absurd answered bad
    | idle _ bad => exact absurd answered (bad path targets)

/-- **Responses are up to date exactly if no file is found changed.** In a run of a host
every static file is responded as it is on disk, and to a client that supplied a date with
a later one, if and only if no visit finds a file changed that an earlier one has read. -/
theorem coherent_iff (counts : chrono.CountsSeconds)
    (run : (Host.visits chrono serverConfig).Run steps host) :
    (∀ step ∈ steps, step.2.Coherent serverConfig) ↔
      (steps.map fun step => step.2.toVisit).Pairwise (Visit.Agrees serverConfig) := by
  induction run with
  | start initial => simp
  | @step steps host after exchange run responds ih =>
      have last := coherent_iff_agrees counts (Host.caches_of_run run) responds
      simp only [List.map_append, List.map_cons, List.map_nil, List.pairwise_append, ← ih,
        List.pairwise_singleton, true_and, List.forall_mem_append, List.forall_mem_map,
        List.forall_mem_singleton]
      exact and_congr_right last

private theorem gregorian_countsSeconds : gregorian.CountsSeconds where
  timestamp := by
    intro secs datetime made
    change (if _ then some secs else none) = some datetime at made
    split at made
    · cases made
      rfl
    · cases made

/-- The rule holds of a page that stays as it is. -/
theorem coherent_iff_page : ∃ first middle second last,
    Host.Responds Site.host ⟨⟨Site.world, Site.get "/page.txt", false⟩, first⟩ middle ∧
    middle.Responds ⟨⟨Site.world, Site.get "/page.txt", false⟩, second⟩ last ∧
    ∀ response ∈ [first, second], Exchange.Coherent Site.serverConfig
      ⟨⟨Site.world, Site.get "/page.txt", false⟩, response⟩ := by
  have answered : (Site.host.handle Site.world (Site.get "/page.txt") false).1.toOption.map
      (fun response => response.header.statusLine.statusCode) = some .ok := by decide +kernel
  have again : ((Site.host.handle Site.world (Site.get "/page.txt") false).2.1.handle Site.world
      (Site.get "/page.txt") false).1.toOption.map
        (fun response => response.header.statusLine.statusCode) = some .ok := by decide +kernel
  obtain ⟨first, responds, _⟩ := Host.responds_of_view answered
  obtain ⟨second, responds', _⟩ := Host.responds_of_view again
  refine ⟨first, _, second, _, responds, responds', ?_⟩
  have start : (Host.visits gregorian Site.serverConfig).Run [] Site.host := .start Site.new_host
  have run := (start.step responds).step responds'
  have agrees : Visit.Agrees Site.serverConfig ⟨Site.world, Site.get "/page.txt", false⟩
      ⟨Site.world, Site.get "/page.txt", false⟩ := fun _ file _ _ there => ⟨file, there, rfl, rfl⟩
  have coherent := (coherent_iff gregorian_countsSeconds run).mpr (List.pairwise_pair.mpr agrees)
  intro response inside
  rcases List.mem_pair.mp inside with rfl | rfl
  · exact coherent _ List.mem_cons_self
  · exact coherent _ (List.mem_cons_of_mem _ List.mem_cons_self)

/-- **A modified file is served as it was.** A client has read the page. Then the page is
edited, and the client that asks for it, if it has been modified since, is sent what it
already has. -/
theorem coherent_stale : ∃ first middle second last,
    (Host.visits gregorian Site.serverConfig).Run
      [(Site.host, ⟨⟨Site.edited "hi" 0, Site.get "/page.txt", false⟩, first⟩),
        (middle, ⟨⟨Site.edited "ho" 5000000000, (Site.get "/page.txt").ifModifiedSince
          "Thu, 01 Jan 1970 00:00:00 GMT".toList, false⟩, second⟩)] last ∧
    second.body = "hi".toList ∧
    (Site.edited "ho" 5000000000).file Site.page = some ⟨"ho".toList, 5000000000⟩ ∧
    second.header.headerLines.lookup .lastModified =
      some "Thu, 01 Jan 1970 00:00:00 GMT".toList ∧
    ¬ Exchange.Coherent Site.serverConfig
      ⟨⟨Site.edited "ho" 5000000000, (Site.get "/page.txt").ifModifiedSince
        "Thu, 01 Jan 1970 00:00:00 GMT".toList, false⟩, second⟩ := by
  have answered : (Site.host.handle (Site.edited "hi" 0) (Site.get "/page.txt")
      false).1.toOption.map (fun response => response.header.statusLine.statusCode) = some .ok := by
    decide +kernel
  have again : ((Site.host.handle (Site.edited "hi" 0) (Site.get "/page.txt") false).2.1.handle
      (Site.edited "ho" 5000000000) ((Site.get "/page.txt").ifModifiedSince
        "Thu, 01 Jan 1970 00:00:00 GMT".toList) false).1.toOption.map (fun response =>
          (response.header.statusLine.statusCode, response.body,
            response.header.headerLines.lookup .lastModified)) =
      some (.ok, "hi".toList, some "Thu, 01 Jan 1970 00:00:00 GMT".toList) := by
    decide +kernel
  have targets : (Host.fresh Site.serverConfig).work (Site.edited "ho" 5000000000)
      ((Site.get "/page.txt").ifModifiedSince "Thu, 01 Jan 1970 00:00:00 GMT".toList) =
        some (.file Site.page) := by decide +kernel
  have found : (Site.edited "ho" 5000000000).file Site.page =
      some ⟨"ho".toList, 5000000000⟩ := by decide +kernel
  obtain ⟨first, responds, _⟩ := Host.responds_of_view answered
  obtain ⟨second, responds', shown⟩ := Host.responds_of_view again
  simp only [Prod.mk.injEq] at shown
  obtain ⟨status, body, dated⟩ := shown
  have start : (Host.visits gregorian Site.serverConfig).Run [] Site.host := .start Site.new_host
  have run := (start.step responds).step responds'
  refine ⟨first, _, second, _, run, body, found, dated, fun coherent => ?_⟩
  obtain ⟨file, _, there, content, _⟩ := coherent Site.page targets status
  obtain rfl := Option.some.inj (found.symm.trans there)
  have differs : "hi".toList = "ho".toList := body.symm.trans content
  revert differs
  decide

end RustHttpServer
