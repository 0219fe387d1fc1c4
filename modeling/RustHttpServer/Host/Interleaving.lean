import RustHttpServer.Host.Revalidation

/-!
# A writer behind the back of the cache

While a host serves files, somebody else may edit them. `get_content` reads a file, asks
for its modification time and keeps both in the cache; an edit may come between any two
of these steps (`interleavings`). In one world, they are `get_content`
(`Files.proceed_getContent`).

The file and its date belong together exactly if no edit comes between the reading of the
one and of the other (`interleaved_iff`). Then no client is told that it has the file
when it has not, if edits change the second in which the file has been modified.
-/

namespace RustHttpServer

open Foundation Stateful

variable {chrono : Chrono}

/-! ### The steps of `get_content` -/

/-- How far a call of `get_content` has come. -/
inductive CallStage
  | idle
  | looking (path : Path)
  | reading (path : Path)
  | stamping (path : Path) (content : Text)
  | inserting (path : Path) (file : File)
  | dating (path : Path) (file : File)
  | finished (path : Path) (outcome : Outcome HttpError Response)

namespace Files

/-- The next step of a call of `get_content`. -/
def proceed (world : World chrono) : CallStage × Session → CallStage × Session
  | (.looking path, session) =>
      match session.files.cache.lookup path with
      | some file => (.dating path file, session)
      | none => (.reading path, session.record (.read path))
  | (.reading path, session) =>
      match world.readToString path with
      | .ok content => (.stamping path content, session)
      | .error error =>
          let status :=
            match error.kind with
            | .notFound => .notFound
            | _ => .internalServerError
          (.finished path (.err { status, message := some error.message }), session)
  | (.stamping path content, session) =>
      match world.metadata path with
      | .ok metadata => (.inserting path { content, modified := metadata.modified }, session)
      -- The file has been read, and its metadata is unwrapped.
      | .error _ => (.finished path .abort, session)
  | (.inserting path file, session) => (.dating path file, session.insert path file)
  | (.dating path file, session) =>
      (.finished path (do
        let modifiedStr ← lastModified chrono file
        return fileResponse path file modifiedStr), session)
  | (.idle, session) => (.idle, session)
  | (.finished path outcome, session) => (.finished path outcome, session)

variable {world : World chrono} {path : Path} {session after : Session} {file : File}

private theorem proceed_finished (outcome : Outcome HttpError Response) (steps : Nat) :
    (proceed world)^[steps] (.finished path outcome, session) = (.finished path outcome, session) :=
  Function.iterate_fixed rfl steps

private theorem getContent_of_fetch (fetched : fetch world path session = (.ok file, after)) :
    getContent world path session =
      ((lastModified chrono file >>= fun modifiedStr => pure (fileResponse path file modifiedStr) :
        Outcome HttpError Response), after) := by
  rw [getContent, bind_apply, fetched]
  dsimp only
  rw [lift_bind_apply]
  cases (lastModified chrono file : Outcome HttpError Text) <;> rfl

/-- **In a world that does not change, the steps are `get_content`.** -/
theorem proceed_getContent (world : World chrono) (path : Path) (session : Session) :
    (proceed world)^[5] (.looking path, session) =
      (.finished path (getContent world path session).1, (getContent world path session).2) := by
  rw [Function.iterate_succ_apply, proceed]
  cases cached : session.files.cache.lookup path with
  | some file =>
      dsimp only
      rw [getContent_of_fetch (fetch_of_cached cached), Function.iterate_succ_apply]
      exact proceed_finished _ 3
  | none =>
      dsimp only
      rw [Function.iterate_succ_apply, proceed]
      cases content : world.readToString path with
      | error error =>
          dsimp only
          rw [getContent, bind_apply, fetch_of_uncached cached, load, content]
          exact proceed_finished _ 3
      | ok text =>
          obtain ⟨metadata, listed⟩ := World.metadata_of_readToString content
          have found : world.file path = some ⟨text, metadata.modified⟩ :=
            World.file_eq_some_iff.mpr ⟨content, metadata, listed, rfl⟩
          have fetched := (fetch_of_uncached cached).trans (load_of_file found)
          dsimp only
          rw [getContent_of_fetch fetched, Function.iterate_succ_apply, proceed, listed]
          rfl

/-- What the next step of a call can be. -/
inductive Proceeds (world : World chrono) (session : Session) :
    CallStage → CallStage → Session → Prop
  | hit {path : Path} {file : File} : session.files.cache.lookup path = some file →
      Proceeds world session (.looking path) (.dating path file) session
  | miss {path : Path} : session.files.cache.lookup path = none →
      Proceeds world session (.looking path) (.reading path) (session.record (.read path))
  | read {path : Path} {content : Text} : world.readToString path = .ok content →
      Proceeds world session (.reading path) (.stamping path content) session
  | unread {path : Path} {error : HttpError} :
      Proceeds world session (.reading path) (.finished path (.err error)) session
  | stamped {path : Path} {content : Text} {metadata : Metadata} :
      world.metadata path = .ok metadata →
      Proceeds world session (.stamping path content)
        (.inserting path ⟨content, metadata.modified⟩) session
  | unstamped {path : Path} {content : Text} {error : IoError} :
      world.metadata path = .error error →
      Proceeds world session (.stamping path content) (.finished path .abort) session
  | inserted {path : Path} {file : File} :
      Proceeds world session (.inserting path file) (.dating path file) (session.insert path file)
  | dated {path : Path} {file : File} {text : Text} :
      (lastModified chrono file : Outcome HttpError Text) = .ok text →
      Proceeds world session (.dating path file)
        (.finished path (.ok (fileResponse path file text))) session
  | undated {path : Path} {file : File} :
      (lastModified chrono file : Outcome HttpError Text) = .abort →
      Proceeds world session (.dating path file) (.finished path .abort) session
  | idle : Proceeds world session .idle .idle session
  | finished {path : Path} {outcome : Outcome HttpError Response} :
      Proceeds world session (.finished path outcome) (.finished path outcome) session

/-- A step of a call is one of those there can be. -/
private theorem proceeds (world : World chrono) (stage : CallStage) (session : Session) :
    Proceeds world session stage (proceed world (stage, session)).1
      (proceed world (stage, session)).2 := by
  cases stage with
  | idle => exact .idle
  | looking path =>
      rw [proceed]
      cases cached : session.files.cache.lookup path with
      | some file => exact .hit cached
      | none => exact .miss cached
  | reading path =>
      rw [proceed]
      cases content : world.readToString path with
      | ok text => exact .read content
      | error error => exact .unread
  | stamping path content =>
      rw [proceed]
      cases listed : world.metadata path with
      | ok metadata => exact .stamped listed
      | error error => exact .unstamped listed
  | inserting path file => exact .inserted
  | dating path file =>
      rw [proceed]
      cases dated : (lastModified chrono file : Outcome HttpError Text) with
      | ok text => exact .dated dated
      | err error => exact absurd dated (lastModified_unfailing chrono file error)
      | abort => exact .undated dated
  | finished path outcome => exact .finished

end Files

/-! ### Edits -/

namespace World

variable (world : World chrono) (directory : List Name) (name : Name)

/-- The world once the file of a name in a directory is another one, or gone. -/
def write (file : Option DiskFile) : World chrono :=
  { world with fs := world.fs.write directory name file }

/-- What an edit is for a path: nothing, the end of it, or another file where one was. -/
inductive Written (file : Option DiskFile) (path : Path) : Prop
  | kept : (world.write directory name file).metadata path = world.metadata path →
      (world.write directory name file).readToString path = world.readToString path →
        Written file path
  | gone {error : IoError} :
      (world.write directory name file).metadata path = .error error → Written file path
  | replaced {old new : DiskFile} :
      world.fs.node (directory ++ [name]) = some (.file old) → file = some new →
      world.fs.resolve path = .ok (directory ++ [name]) →
      world.metadata path = .ok ⟨false, old.modified, old.mode⟩ →
      (world.write directory name file).metadata path = .ok ⟨false, new.modified, new.mode⟩ →
      (new.content = old.content →
        (world.write directory name file).readToString path = world.readToString path) →
          Written file path

/-- An edit does one of the three to each path. -/
theorem written (file : Option DiskFile) (path : Path) :
    world.Written directory name file path := by
  rcases world.fs.find_write directory name file path with
    same | ⟨error, failed⟩ | ⟨old, new, there, rfl, resolved, after⟩
  · refine .kept ?_ ?_
    · rw [metadata, metadata, write, same]
    · rw [readToString, readToString, write, same]
  · refine @Written.gone _ _ _ _ _ _ (.ofResolve error) ?_
    rw [metadata, write, failed]
    rfl
  · have before := FileSystem.find_of_resolve resolved there
    refine .replaced there rfl resolved ?_ ?_ fun content => ?_
    · rw [metadata, before]
      rfl
    · rw [metadata, write, after]
      rfl
    · rw [readToString, readToString, write, before, after]
      change (new.content >>= _) = (old.content >>= _)
      rw [content]

end World

/-- A host that serves files, its disk and its clients, each with what it has been answered.
The worlds of the past are those before the edits. -/
structure Setting (chrono : Chrono) where
  world : World chrono
  past : List (World chrono)
  session : Session
  stage : CallStage
  clients : List (Path × Response)

/-- What may happen next: an edit, or a step of the host. -/
inductive Action
  | replace (directory : List Name) (name : Name) (file : DiskFile)
  | delete (directory : List Name) (name : Name)
  | call (path : Path)
  | proceed
  | answer

namespace Setting

/-- The setting in which nothing has been asked for. -/
def start (world : World chrono) : Setting chrono where
  world
  past := []
  session := { files := { cache := ∅ }, accesses := [] }
  stage := .idle
  clients := []

def edit (setting : Setting chrono) (directory : List Name) (name : Name)
    (file : Option DiskFile) : Setting chrono :=
  { setting with
    world := setting.world.write directory name file
    past := setting.world :: setting.past }

/-- The setting after an action. A file is replaced by one that is modified later. A call
begins once the one before it has been answered. -/
def advance (setting : Setting chrono) : Action → Option (Setting chrono)
  | .replace directory name file =>
      match setting.world.fs.node (directory ++ [name]) with
      | some (.file old) =>
          if old.modified < file.modified then some (setting.edit directory name (some file))
          else none
      | _ => none
  | .delete directory name =>
      match setting.world.fs.node (directory ++ [name]) with
      | some (.file _) => some (setting.edit directory name none)
      | _ => none
  | .call path =>
      match setting.stage with
      | .idle => some { setting with stage := .looking path }
      | _ => none
  | .proceed =>
      let (stage, session) := Files.proceed setting.world (setting.stage, setting.session)
      some { setting with stage, session }
  | .answer =>
      match setting.stage with
      | .finished path (.ok response) =>
          some { setting with stage := .idle, clients := (path, response) :: setting.clients }
      | .finished _ (.err _) => some { setting with stage := .idle }
      | _ => none

/-- What the next action can come to. -/
inductive Moves (setting : Setting chrono) : Action → Setting chrono → Prop
  | replaced {directory : List Name} {name : Name} {old file : DiskFile} :
      setting.world.fs.node (directory ++ [name]) = some (.file old) →
      old.modified < file.modified →
      Moves setting (.replace directory name file) (setting.edit directory name (some file))
  | deleted {directory : List Name} {name : Name} :
      Moves setting (.delete directory name) (setting.edit directory name none)
  | called {path : Path} :
      setting.stage = .idle → Moves setting (.call path) { setting with stage := .looking path }
  | proceeded {stage : CallStage} {session : Session} :
      Files.Proceeds setting.world setting.session setting.stage stage session →
      Moves setting .proceed { setting with stage, session }
  | answered {path : Path} {response : Response} :
      setting.stage = .finished path (.ok response) →
      Moves setting .answer
        { setting with stage := .idle, clients := (path, response) :: setting.clients }
  | failed : Moves setting .answer { setting with stage := .idle }

/-- An action that is taken comes to one of what it can come to. -/
private theorem moves_of_advance {setting next : Setting chrono} {action : Action}
    (advanced : setting.advance action = some next) : setting.Moves action next := by
  cases action with
  | replace directory name file =>
      rw [advance] at advanced
      split at advanced
      · next old there =>
          split at advanced
          · next later =>
              cases advanced
              exact .replaced there later
          · cases advanced
      · cases advanced
  | delete directory name =>
      rw [advance] at advanced
      split at advanced
      · cases advanced
        exact .deleted
      · cases advanced
  | call path =>
      rw [advance] at advanced
      split at advanced
      · next idle =>
          cases advanced
          exact .called idle
      · cases advanced
  | proceed =>
      cases advanced
      exact .proceeded (Files.proceeds setting.world setting.stage setting.session)
  | answer =>
      rw [advance] at advanced
      split at advanced
      · next finished =>
          cases advanced
          exact .answered finished
      · cases advanced
        exact .failed
      · cases advanced

end Setting

/-- The interleavings of calls of `get_content` with edits, from a world on. -/
def interleavings (world : World chrono) : TransitionSystem (Setting chrono) Action :=
  .ofStep (.start world) Setting.advance

/-! ### What the cache pairs -/

namespace Setting

variable {setting next : Setting chrono} {path : Path} {file : File}

/-- The file is in the cache, or about to be put there. -/
def Stores (setting : Setting chrono) (path : Path) (file : File) : Prop :=
  setting.session.files.cache.lookup path = some file ∨ setting.stage = .inserting path file

/-- The content is that of some version of the file, which has not been modified before the
modification time. -/
def Paired (setting : Setting chrono) (path : Path) (file : File) : Prop :=
  ∃ world ∈ setting.world :: setting.past, ∃ version, world.file path = some version ∧
    version.content = file.content ∧ file.modified ≤ version.modified

/-- No call has aborted, and what is stored is not dated later than its content. -/
structure Sound (setting : Setting chrono) : Prop where
  returns : ∀ path, setting.stage ≠ .finished path .abort
  paired : ∀ path file, setting.Stores path file → setting.Paired path file

/-- When the modification time of a file is asked for, the file is there with the content
that has been read, and when it is printed, it can be. -/
def Undisturbed (setting : Setting chrono) : Action → Prop
  | .proceed =>
      match setting.stage with
      | .stamping path content => setting.world.readToString path = .ok content
      | .dating _ file => file.Datable chrono
      | _ => True
  | _ => True

/-- A version of a file is there still, or a later one is. -/
def Succeeds (world : World chrono) (path : Path) (version : File) : Prop :=
  ∀ metadata, world.metadata path = .ok metadata →
    world.file path = some version ∨ version.modified < metadata.modified

/-- What has been there is succeeded by later files only, if edits replace files by later ones. -/
theorem Succeeds.write {world : World chrono} (succeeds : Succeeds world path file)
    {directory : List Name} {name : Name} {new : Option DiskFile}
    (later : ∀ old next, world.fs.node (directory ++ [name]) = some (.file old) →
      new = some next → old.modified < next.modified) :
    Succeeds (world.write directory name new) path file := by
  intro metadata listed
  cases world.written directory name new path with
  | kept sameMetadata sameContent =>
      rw [sameMetadata] at listed
      rcases succeeds metadata listed with still | newer
      · left
        rwa [World.file, sameMetadata, sameContent]
      · exact .inr newer
  | gone failed => cases listed.symm.trans failed
  | replaced there written _ before after _ =>
      right
      have newer := later _ _ there written
      cases listed.symm.trans after
      rcases succeeds _ before with still | older
      · obtain ⟨_, metadata, listed, same⟩ := World.file_eq_some_iff.mp still
        cases listed.symm.trans before
        rw [← same]
        exact newer
      · exact older.trans newer

/-- Of no version that has been there is an earlier one there now. -/
def Advances (setting : Setting chrono) : Prop :=
  ∀ world ∈ setting.past, ∀ path version, world.file path = some version →
    Succeeds setting.world path version

private theorem Advances.edit (advances : setting.Advances) {directory : List Name} {name : Name}
    {new : Option DiskFile}
    (later : ∀ old next, setting.world.fs.node (directory ++ [name]) = some (.file old) →
      new = some next → old.modified < next.modified) :
    (setting.edit directory name new).Advances := by
  intro world inside path version found
  refine Succeeds.write ?_ later
  rcases List.mem_cons.mp inside with rfl | before
  · exact fun _ _ => .inl found
  · exact advances world before path version found

/-- Each action leaves the versions in their order. -/
theorem Advances.moves {action : Action} (advances : setting.Advances)
    (moves : setting.Moves action next) : next.Advances := by
  cases moves with
  | @replaced directory name old file there later =>
      refine advances.edit fun before after same written => ?_
      cases there.symm.trans same
      cases written
      exact later
  | deleted => exact advances.edit nofun
  | called _ => exact advances
  | proceeded _ => exact advances
  | answered _ => exact advances
  | failed => exact advances

/-- What is found in the world as it is goes together. -/
theorem paired_of_now {metadata : Metadata} {content : Text}
    (read : setting.world.readToString path = .ok content)
    (listed : setting.world.metadata path = .ok metadata) :
    setting.Paired path ⟨content, metadata.modified⟩ := by
  have found : setting.world.file path = some ⟨content, metadata.modified⟩ :=
    World.file_eq_some_iff.mpr ⟨read, metadata, listed, rfl⟩
  exact ⟨setting.world, List.mem_cons_self, _, found, rfl, le_refl _⟩

/-- Only the content that is there goes together with the modification time that is there. -/
theorem read_of_paired (advances : setting.Advances) {metadata : Metadata} {content : Text}
    (listed : setting.world.metadata path = .ok metadata)
    (paired : setting.Paired path ⟨content, metadata.modified⟩) :
    setting.world.readToString path = .ok content := by
  obtain ⟨world, inside, version, found, rfl, older⟩ := paired
  have still : setting.world.file path = some version := by
    rcases List.mem_cons.mp inside with rfl | before
    · exact found
    · rcases advances world before path version found metadata listed with still | newer
      · exact still
      -- A version that is gone was modified before the one that is there.
      · exact absurd newer older.not_gt
  exact (World.file_eq_some_iff.mp still).1

private theorem Sound.edit (sound : setting.Sound) (directory : List Name) (name : Name)
    (file : Option DiskFile) : (setting.edit directory name file).Sound where
  returns := sound.returns
  paired path file stored := by
    obtain ⟨world, inside, rest⟩ := sound.paired path file stored
    exact ⟨world, List.mem_cons_of_mem _ inside, rest⟩

/-- A step of the host that stores nothing. -/
theorem Sound.of_unstored (sound : setting.Sound) (world : next.world = setting.world)
    (past : next.past = setting.past) (files : next.session.files = setting.session.files)
    (returns : ∀ path, next.stage ≠ .finished path .abort)
    (unstored : ∀ path file, next.stage ≠ .inserting path file) : next.Sound where
  returns
  paired path file stored := by
    rcases stored with cached | inserting
    · rw [files] at cached
      obtain ⟨version, inside, rest⟩ := sound.paired path file (.inl cached)
      rw [← world, ← past] at inside
      exact ⟨version, inside, rest⟩
    · exact absurd inserting (unstored path file)

/-- What is in the cache after an insertion was there, or about to be put there. -/
theorem stores_of_insert (inserting : setting.stage = .inserting path file) {other : Path}
    {kept : File}
    (cached : (setting.session.insert path file).files.cache.lookup other = some kept) :
    setting.Stores other kept := by
  by_cases same : other = path
  · subst same
    cases (Finmap.lookup_insert setting.session.files.cache).symm.trans cached
    exact .inr inserting
  · exact .inl ((Finmap.lookup_insert_of_ne _ same).symm.trans cached)

/-- What is put into the cache has been stored before, in hand. -/
theorem Sound.insert (sound : setting.Sound) (inserting : setting.stage = .inserting path file) :
    Sound { setting with stage := .dating path file, session := setting.session.insert path file }
    where
  returns _ := nofun
  paired other kept stored := by
    rcases stored with cached | inserting'
    · exact sound.paired other kept (stores_of_insert inserting cached)
    · cases inserting'

/-- The file that is about to be put into the cache is as it has been read. -/
theorem Sound.stamp (sound : setting.Sound) {content : Text} {metadata : Metadata}
    (read : setting.world.readToString path = .ok content)
    (listed : setting.world.metadata path = .ok metadata) :
    Sound { setting with stage := .inserting path ⟨content, metadata.modified⟩ } where
  returns _ := nofun
  paired other kept stored := by
    rcases stored with cached | inserting
    · exact sound.paired other kept (.inl cached)
    · cases inserting
      exact paired_of_now read listed

/-- **One step.** What is sound stays so exactly if the step is not disturbed. -/
theorem Sound.moves_iff (printsUtc : chrono.PrintsUtc) {action : Action}
    (advances : setting.Advances) (sound : setting.Sound) (moves : setting.Moves action next) :
    next.Sound ↔ setting.Undisturbed action := by
  cases moves with
  | replaced _ _ => exact iff_of_true (sound.edit _ _ _) trivial
  | deleted => exact iff_of_true (sound.edit _ _ _) trivial
  | called _ => exact iff_of_true (sound.of_unstored rfl rfl rfl nofun nofun) trivial
  | answered _ => exact iff_of_true (sound.of_unstored rfl rfl rfl nofun nofun) trivial
  | failed => exact iff_of_true (sound.of_unstored rfl rfl rfl nofun nofun) trivial
  | proceeded proceeds =>
      obtain ⟨world, past, session, stage, clients⟩ := setting
      cases proceeds with
      | hit _ => exact iff_of_true (sound.of_unstored rfl rfl rfl nofun nofun) trivial
      | miss _ => exact iff_of_true (sound.of_unstored rfl rfl rfl nofun nofun) trivial
      | read _ => exact iff_of_true (sound.of_unstored rfl rfl rfl nofun nofun) trivial
      | unread => exact iff_of_true (sound.of_unstored rfl rfl rfl nofun nofun) trivial
      | idle => exact iff_of_true (sound.of_unstored rfl rfl rfl nofun nofun) trivial
      | finished => exact iff_of_true sound trivial
      | inserted => exact iff_of_true (sound.insert rfl) trivial
      | stamped listed =>
          constructor
          · intro sound'
            exact read_of_paired advances listed (sound'.paired _ _ (.inr rfl))
          · intro read
            exact sound.stamp read listed
      | unstamped failed =>
          refine iff_of_false (fun sound' => sound'.returns _ rfl) fun read => ?_
          obtain ⟨metadata, listed⟩ := World.metadata_of_readToString read
          cases failed.symm.trans listed
      | @dated _ file _ dated =>
          refine iff_of_true (sound.of_unstored rfl rfl rfl nofun nofun) ?_
          by_contra undatable
          cases dated.symm.trans (Files.lastModified_of_not_datable undatable HttpError)
      | undated aborted =>
          refine iff_of_false (fun sound' => sound'.returns _ rfl) fun datable => ?_
          obtain ⟨text, dated⟩ := File.Datable.lastModified printsUtc datable HttpError
          cases aborted.symm.trans dated

/-! ### What the clients are told -/

/-- A client that asks for a file with the date of what it has been answered, and is answered
with "not modified", has the content of the file. -/
def Honest (setting : Setting chrono) : Prop :=
  ∀ path response, (path, response) ∈ setting.clients → ∀ since,
    response.header.headerLines.lookup .lastModified = some since →
    ∀ (later : World chrono), later.fs = setting.world.fs →
    ∀ (host : Host) (requestTarget : RequestTarget) (request : Request)
      (virtualHost : VirtualHost) (session : Session),
      Host.AsksStatic later requestTarget request path →
      request.header.headerLines.lookup .ifModifiedSince = some since →
      AnswersNotModified (host.handleGet later requestTarget request virtualHost session) →
        later.readToString path = .ok response.body

/-- The second in which a file has been modified. -/
def second (modified : Int) : Int := modified / nanosPerSecond

private theorem second_of_recent {modified : Int} (recent : 0 ≤ modified) :
    ((modified.toNat / nanosPerSecond : Nat) : Int) = second modified := by
  rw [Int.natCast_ediv, Int.toNat_of_nonneg recent, second]

/-- The host has the file at a path in its cache or in hand, or a client has it. -/
inductive Knows (setting : Setting chrono) (path : Path) : Prop
  | stored {file : File} : setting.Stores path file → Knows setting path
  | dated {file : File} : setting.stage = .dating path file → Knows setting path
  | finished {response : Response} :
      setting.stage = .finished path (.ok response) → Knows setting path
  | client {response : Response} : (path, response) ∈ setting.clients → Knows setting path

/-- An edit that changes the content of a file that is known also changes the second in which
the file has been modified. What is printed is a date before the year 10000. -/
def Marked (setting : Setting chrono) : Action → Prop
  | .replace directory name file =>
      ∀ path old, setting.Knows path →
        setting.world.fs.resolve path = .ok (directory ++ [name]) →
        setting.world.fs.node (directory ++ [name]) = some (.file old) →
          file.content = old.content ∨ second old.modified < second file.modified
  | .proceed =>
      match setting.stage with
      | .dating _ file => file.modified < endOfYears * nanosPerSecond
      | _ => True
  | _ => True

/-- Where a file was there is none any more, or one with the same content, or one of a later
second. -/
def Discerns (world : World chrono) (path : Path) (file : File) : Prop :=
  ∀ metadata, world.metadata path = .ok metadata → file.modified ≤ metadata.modified ∧
    (world.readToString path = .ok file.content ∨ second file.modified < second metadata.modified)

/-- A file is still told from those after it if edits of it change the second, or keep the
content. -/
theorem Discerns.write {world : World chrono} (discerns : Discerns world path file)
    {directory : List Name} {name : Name} {new : Option DiskFile}
    (later : ∀ old next, world.fs.resolve path = .ok (directory ++ [name]) →
      world.fs.node (directory ++ [name]) = some (.file old) →
      new = some next → old.modified < next.modified ∧
        (next.content = old.content ∨ second old.modified < second next.modified)) :
    Discerns (world.write directory name new) path file := by
  intro metadata listed
  cases world.written directory name new path with
  | kept sameMetadata sameContent =>
      rw [sameMetadata] at listed
      rw [sameContent]
      exact discerns metadata listed
  | gone failed => cases listed.symm.trans failed
  | replaced there written resolved before after sameContent =>
      obtain ⟨newer, differs⟩ := later _ _ resolved there written
      cases listed.symm.trans after
      obtain ⟨older, discerned⟩ := discerns _ before
      dsimp only at older discerned ⊢
      refine ⟨older.trans newer.le, ?_⟩
      have seconds : ∀ {first last : Int}, first ≤ last → second first ≤ second last :=
        fun le => Int.ediv_le_ediv (by decide) le
      rcases discerned with content | earlier
      · rcases differs with same | later
        · left
          rw [sameContent same, content]
        · exact .inr ((seconds older).trans_lt later)
      · exact .inr (earlier.trans_le (seconds newer.le))

/-- The response has been made of a file. -/
def Reports (world : World chrono) (path : Path) (response : Response) : Prop :=
  ∃ file text, file.Dated ∧ (Files.lastModified chrono file : Outcome HttpError Text) = .ok text ∧
    response = fileResponse path file text ∧ Discerns world path file

/-- What the host holds, and what it has answered, can be told from what is there. -/
structure Discerned (setting : Setting chrono) : Prop where
  stored : ∀ path file, setting.Stores path file → Discerns setting.world path file
  dated : ∀ path file, setting.stage = .dating path file → Discerns setting.world path file
  finished : ∀ path response, setting.stage = .finished path (.ok response) →
    Reports setting.world path response
  clients : ∀ path response, (path, response) ∈ setting.clients →
    Reports setting.world path response

/-- An edit that changes the second of the modification leaves all files discerned. -/
private theorem Discerned.edit (discerned : setting.Discerned) {directory : List Name} {name : Name}
    {new : Option DiskFile} (later : ∀ path old next, setting.Knows path →
      setting.world.fs.resolve path = .ok (directory ++ [name]) →
      setting.world.fs.node (directory ++ [name]) = some (.file old) →
      new = some next → old.modified < next.modified ∧
        (next.content = old.content ∨ second old.modified < second next.modified)) :
    (setting.edit directory name new).Discerned := by
  have written : ∀ {path file}, setting.Knows path → Discerns setting.world path file →
      Discerns (setting.world.write directory name new) path file :=
    fun knows discerns => discerns.write fun old next => later _ old next knows
  have reports : ∀ {path response}, setting.Knows path → Reports setting.world path response →
      Reports (setting.world.write directory name new) path response := by
    rintro path response knows ⟨file, text, dated, printed, made, discerns⟩
    exact ⟨file, text, dated, printed, made, written knows discerns⟩
  constructor
  · exact fun path file stored => written (.stored stored) (discerned.stored path file stored)
  · exact fun path file dating => written (.dated dating) (discerned.dated path file dating)
  · exact fun path response finished =>
      reports (.finished finished) (discerned.finished path response finished)
  · exact fun path response inside =>
      reports (.client inside) (discerned.clients path response inside)

/-- A step after which the host has nothing in hand. -/
theorem Discerned.of_idle (discerned : setting.Discerned) (world : next.world = setting.world)
    (files : next.session.files = setting.session.files) (clients : next.clients = setting.clients)
    (unstored : ∀ path file, next.stage ≠ .inserting path file)
    (undated : ∀ path file, next.stage ≠ .dating path file)
    (unfinished : ∀ path response, next.stage ≠ .finished path (.ok response)) :
    next.Discerned := by
  constructor
  · rintro path file (cached | inserting)
    · rw [files] at cached
      rw [world]
      exact discerned.stored path file (.inl cached)
    · exact absurd inserting (unstored path file)
  · exact fun path file dating => absurd dating (undated path file)
  · exact fun path response finished => absurd finished (unfinished path response)
  · rw [world, clients]
    exact discerned.clients

/-- A step after which the host has a file in hand. -/
theorem Discerned.of_dating (discerned : setting.Discerned) (world : next.world = setting.world)
    (files : ∀ other kept, next.session.files.cache.lookup other = some kept →
      setting.Stores other kept) (clients : next.clients = setting.clients)
    (stage : next.stage = .dating path file) (stored : setting.Stores path file) :
    next.Discerned := by
  constructor
  · rintro other kept (cached | inserting)
    · rw [world]
      exact discerned.stored other kept (files other kept cached)
    · cases stage.symm.trans inserting
  · intro other kept dating
    cases stage.symm.trans dating
    rw [world]
    exact discerned.stored path file stored
  · exact fun other response finished => nomatch stage.symm.trans finished
  · rw [world, clients]
    exact discerned.clients

/-- A client is answered with what has been in hand. -/
theorem Discerned.answer (discerned : setting.Discerned) {response : Response}
    (finished : setting.stage = .finished path (.ok response)) :
    Discerned { setting with
      stage := .idle
      clients := (path, response) :: setting.clients } := by
  constructor
  · rintro other kept (cached | inserting)
    · exact discerned.stored other kept (.inl cached)
    · cases inserting
  · exact nofun
  · exact nofun
  · intro other given inside
    rcases List.mem_cons.mp inside with same | before
    · cases same
      exact discerned.finished path response finished
    · exact discerned.clients other given before

/-- What has been read is told from what is there. -/
theorem Discerned.stamp (discerned : setting.Discerned) {content : Text} {metadata : Metadata}
    (read : setting.world.readToString path = .ok content)
    (listed : setting.world.metadata path = .ok metadata) :
    Discerned { setting with stage := .inserting path ⟨content, metadata.modified⟩ } := by
  constructor
  · rintro other kept (cached | inserting)
    · exact discerned.stored other kept (.inl cached)
    · cases inserting
      intro metadata' listed'
      cases listed.symm.trans listed'
      exact ⟨le_refl _, .inl read⟩
  · exact nofun
  · exact nofun
  · exact discerned.clients

/-- A file that is dated is in hand as it has been read. -/
theorem Discerned.date (discerned : setting.Discerned) {text : Text}
    (dating : setting.stage = .dating path file) (dated : file.Dated)
    (printed : (Files.lastModified chrono file : Outcome HttpError Text) = .ok text) :
    Discerned { setting with stage := .finished path (.ok (fileResponse path file text)) } := by
  constructor
  · rintro other kept (cached | inserting)
    · exact discerned.stored other kept (.inl cached)
    · cases inserting
  · exact nofun
  · intro other response finished
    cases finished
    exact ⟨file, text, dated, printed, rfl, discerned.dated path file dating⟩
  · exact discerned.clients

/-- Each action that is neither disturbed nor unmarked leaves all files discerned. -/
theorem Discerned.moves {action : Action} (discerned : setting.Discerned)
    (undisturbed : setting.Undisturbed action) (marked : setting.Marked action)
    (moves : setting.Moves action next) : next.Discerned := by
  cases moves with
  | replaced there later =>
      refine discerned.edit fun path before after knows resolved same written => ?_
      cases there.symm.trans same
      cases written
      exact ⟨later, marked path _ knows resolved there⟩
  | deleted =>
      refine discerned.edit fun path before after knows resolved same written => ?_
      cases written
  | called _ => exact discerned.of_idle rfl rfl rfl nofun nofun nofun
  | failed => exact discerned.of_idle rfl rfl rfl nofun nofun nofun
  | answered finished => exact discerned.answer finished
  | proceeded proceeds =>
      obtain ⟨world, past, session, stage, clients⟩ := setting
      cases proceeds with
      | miss _ => exact discerned.of_idle rfl rfl rfl nofun nofun nofun
      | read _ => exact discerned.of_idle rfl rfl rfl nofun nofun nofun
      | unread => exact discerned.of_idle rfl rfl rfl nofun nofun nofun
      | unstamped _ => exact discerned.of_idle rfl rfl rfl nofun nofun nofun
      | undated _ => exact discerned.of_idle rfl rfl rfl nofun nofun nofun
      | idle => exact discerned
      | finished => exact discerned
      | hit cached =>
          exact discerned.of_dating rfl (fun _ _ kept => .inl kept) rfl rfl (.inl cached)
      | inserted =>
          exact discerned.of_dating rfl (fun _ _ => stores_of_insert rfl) rfl rfl (.inr rfl)
      | stamped listed => exact discerned.stamp undisturbed listed
      | dated printed => exact discerned.date rfl ⟨undisturbed.recent, marked⟩ printed

/-- A host answers "not modified" for a file that has not been modified since the date. -/
theorem unmodified_of_answersNotModified {world : World chrono} {host : Host}
    {requestTarget : RequestTarget} {request : Request} {virtualHost : VirtualHost}
    {session : Session} {since : Text}
    (static : Host.AsksStatic world requestTarget request path)
    (conditional : request.header.headerLines.lookup .ifModifiedSince = some since)
    (answers : AnswersNotModified
      (host.handleGet world requestTarget request virtualHost session)) :
    Host.modifiedSinceDate world path since = .ok false := by
  obtain ⟨response, answered, status⟩ := answers
  rw [Host.handleGet_of_conditional host virtualHost session static conditional,
    lift_bind_apply] at answered
  cases asked : Host.modifiedSinceDate world path since with
  | err error =>
      rw [asked] at answered
      cases answered
  | abort =>
      rw [asked] at answered
      cases answered
  | ok modSince =>
      cases modSince with
      | false => rfl
      | true =>
          rw [asked] at answered
          have served : Files.getContent world path session =
              (.ok response, (Files.getContent world path session).2) := by
            rw [← answered]
            rfl
          rw [status_of_getContent served] at status
          cases status

/-- What stands at a path does not depend on the rest of the world. -/
theorem metadata_of_fs_eq {world later : World chrono} (same : later.fs = world.fs)
    {metadata : Metadata} (listed : later.metadata path = .ok metadata)
    (notDirectory : metadata.isDir = false) : world.metadata path = .ok metadata := by
  unfold World.metadata at listed ⊢
  rw [same] at listed
  cases found : world.fs.find path with
  | error error =>
      rw [found] at listed
      cases listed
  | ok target =>
      rw [found] at listed
      cases target with
      | file there => exact listed
      | directory =>
          cases listed
          cases notDirectory

/-- If what clients have been answered can be told from what is there, they are not misled. -/
theorem Discerned.honest (documented : chrono.Documented) (discerned : setting.Discerned) :
    setting.Honest := by
  intro path response given since sent later same host requestTarget request virtualHost session
    static conditional answers
  obtain ⟨file, text, dated, printed, rfl, discerns⟩ := discerned.clients path response given
  cases (Files.lookup_lastModified path file text).symm.trans sent
  have unmodified := unmodified_of_answersNotModified static conditional answers
  obtain ⟨metadata, negotiated, notDirectory, _⟩ := static
  have listed := metadata_of_contentNegotiation negotiated
  obtain ⟨older, discerned⟩ := discerns metadata (metadata_of_fs_eq same listed notDirectory)
  have recent : 0 ≤ metadata.modified := dated.recent.trans older
  obtain ⟨datetime, since', printed', _, parsed, counted⟩ := dated.lastModified documented
  cases printed.symm.trans (printed' HttpError)
  have compared := Host.modifiedSinceDate_eq listed recent parsed
  dsimp only at compared
  rw [unmodified, counted, second_of_recent dated.recent, second_of_recent recent] at compared
  rw [World.readToString, same]
  refine discerned.resolve_right fun earlier => ?_
  have positive : 0 ≤ second file.modified := Int.ediv_nonneg dated.recent (by decide)
  rw [if_pos ⟨positive, earlier.le⟩, decide_eq_true earlier] at compared
  cases compared

end Setting

/-! ### Runs -/

open Setting

variable {world : World chrono} {setting : Setting chrono}
  {steps : List (Setting chrono × Action)}

private theorem advances_of_run (run : (interleavings world).Run steps setting) :
    setting.Advances := by
  refine run.reachable.invariant Setting.Advances ?_ ?_
  · rintro _ rfl version inside
    cases inside
  · intro before action after advances advanced
    exact advances.moves (moves_of_advance advanced)

private theorem sound_start (world : World chrono) : (start world).Sound where
  returns _ := nofun
  paired path file stored := by
    rcases stored with cached | inserting
    · cases (Finmap.lookup_empty path).symm.trans cached
    · cases inserting

private theorem discerned_start (world : World chrono) : (start world).Discerned := by
  constructor
  · rintro path file (cached | inserting)
    · cases (Finmap.lookup_empty path).symm.trans cached
    · cases inserting
  · exact nofun
  · exact nofun
  · intro path response inside
    cases inside

/-- A run is sound exactly if no step of it is disturbed. -/
theorem sound_iff_undisturbed (printsUtc : chrono.PrintsUtc)
    (run : (interleavings world).Run steps setting) :
    (∀ step ∈ steps, step.1.Sound) ∧ setting.Sound ↔
      ∀ step ∈ steps, step.1.Undisturbed step.2 := by
  induction run with
  | start initial =>
      subst initial
      exact iff_of_true ⟨List.forall_mem_nil _, sound_start world⟩ (List.forall_mem_nil _)
  | @step steps before after action run advanced ih =>
      have moves := moves_of_advance advanced
      simp only [List.forall_mem_append, List.forall_mem_singleton, ← ih, and_assoc]
      refine and_congr_right fun _ => and_congr_right fun sound => ?_
      exact sound.moves_iff printsUtc (advances_of_run run) moves

/-- In every run without disturbance all files are discerned. -/
private theorem discerned_of_run (run : (interleavings world).Run steps setting)
    (undisturbed : ∀ step ∈ steps, step.1.Undisturbed step.2)
    (marked : ∀ step ∈ steps, step.1.Marked step.2) :
    (∀ step ∈ steps, step.1.Discerned) ∧ setting.Discerned := by
  induction run with
  | start initial =>
      subst initial
      exact ⟨List.forall_mem_nil _, discerned_start world⟩
  | @step steps before after action run advanced ih =>
      obtain ⟨undisturbed, still⟩ := List.forall_mem_append.mp undisturbed
      obtain ⟨marked, mark⟩ := List.forall_mem_append.mp marked
      obtain ⟨earlier, discerned⟩ := ih undisturbed marked
      rw [List.forall_mem_singleton] at still mark
      refine ⟨List.forall_mem_append.mpr ⟨earlier, ?_⟩, ?_⟩
      · rwa [List.forall_mem_singleton]
      · exact discerned.moves still mark (moves_of_advance advanced)

/-- **Files and their dates.** In a run, calls of `get_content` do not abort and store no file
with a date later than that of its content, exactly if each file is there with the content
that has been read when its modification time is asked for, and the time can be printed. If,
besides, edits change the second of the modification, no client is told that it has
a file that it does not have. -/
theorem interleaved_iff (documented : chrono.Documented) (world : World chrono)
    {steps : List (Setting chrono × Action)} {setting : Setting chrono}
    (run : (interleavings world).Run steps setting) :
    ((∀ step ∈ steps, step.1.Sound) ∧ setting.Sound ↔
      ∀ step ∈ steps, step.1.Undisturbed step.2) ∧
    ((∀ step ∈ steps, step.1.Undisturbed step.2 ∧ step.1.Marked step.2) →
      (∀ step ∈ steps, step.1.Honest) ∧ setting.Honest) := by
  refine ⟨sound_iff_undisturbed documented.printsUtc run, fun orderly => ?_⟩
  obtain ⟨earlier, discerned⟩ := discerned_of_run run
    (fun step inside => (orderly step inside).1) (fun step inside => (orderly step inside).2)
  exact ⟨fun step inside => (earlier step inside).honest documented, discerned.honest documented⟩

/-- Actions that can be taken one after the other are a run. -/
theorem run_of_view {View : Type} {view : Setting chrono → View} {seen : View}
    {actions : List Action}
    (ran : (actions.foldlM Setting.advance (.start world)).map view = some seen) :
    ∃ steps setting, (interleavings world).Run steps setting ∧ steps.map Prod.snd = actions ∧
      view setting = seen := by
  obtain ⟨setting, ran, same⟩ := Option.map_eq_some_iff.mp ran
  have start : (interleavings world).Run [] (.start world) := .start rfl
  obtain ⟨steps, taken, run⟩ := start.foldlM actions ran
  exact ⟨steps, setting, run, taken, same⟩

private theorem Setting.advance_proceed {stage : CallStage} {session : Session}
    (proceeds : Files.proceed setting.world (setting.stage, setting.session) = (stage, session)) :
    setting.advance .proceed = some { setting with stage, session } := by
  rw [advance, proceeds]

/-- **A call that is not disturbed** once the file is to be read. The file is kept as it is on
disk, and so is the client answered. -/
theorem run_reading (run : (interleavings world).Run steps setting) {path : Path} {file : File}
    {text : Text} (reading : setting.stage = .reading path)
    (found : setting.world.file path = some file) (datable : file.Datable chrono)
    (limited : file.modified < endOfYears * nanosPerSecond)
    (printed : (Files.lastModified chrono file : Outcome HttpError Text) = .ok text) :
    ∃ more, (interleavings world).Run (steps ++ more) { setting with
        session := setting.session.insert path file
        stage := .idle
        clients := (path, fileResponse path file text) :: setting.clients } ∧
      more.map Prod.snd = [.proceed, .proceed, .proceed, .proceed, .answer] ∧
      ∀ step ∈ more, step.1.Undisturbed step.2 ∧ step.1.Marked step.2 := by
  obtain ⟨read, metadata, listed, modified⟩ := World.file_eq_some_iff.mp found
  let stamping : Setting chrono := { setting with stage := .stamping path file.content }
  let inserting : Setting chrono := { setting with stage := .inserting path file }
  let dating : Setting chrono :=
    { setting with stage := .dating path file, session := setting.session.insert path file }
  let finished : Setting chrono := { setting with
    stage := .finished path (.ok (fileResponse path file text))
    session := setting.session.insert path file }
  have loaded : setting.advance .proceed = some stamping := by
    refine setting.advance_proceed ?_
    rw [reading, Files.proceed, read]
  have stamped : stamping.advance .proceed = some inserting := by
    refine stamping.advance_proceed ?_
    rw [Files.proceed, listed]
    dsimp only
    rw [modified]
  have inserted : inserting.advance .proceed = some dating := inserting.advance_proceed rfl
  have dated : dating.advance .proceed = some finished := by
    refine dating.advance_proceed ?_
    rw [Files.proceed, printed]
    rfl
  have answered : finished.advance .answer = some _ := rfl
  have more := ((((run.step loaded).step stamped).step inserted).step dated).step answered
  simp only [List.append_assoc] at more
  refine ⟨_, more, rfl, ?_⟩
  simp only [List.forall_mem_append, List.forall_mem_singleton]
  refine ⟨⟨?_, ?_⟩, ⟨read, trivial⟩, ⟨trivial, trivial⟩, ⟨datable, limited⟩, ⟨trivial, trivial⟩⟩
  · rw [Setting.Undisturbed, reading]
    exact trivial
  · rw [Setting.Marked, reading]
    exact trivial

/-- The page of the site is replaced. -/
def Site.editing (content : String) (modified : Int) : Action :=
  .replace (place ["www"]) (Utf8.encode "page.txt".toList) { regular content with modified }

/-- The page is edited after it has been looked for in the cache and before it is read. -/
theorem interleaved_iff_page : ∃ steps setting,
    (interleavings (Site.edited "hi" 0)).Run steps setting ∧
    steps.map Prod.snd = [.call Site.page, .proceed, Site.editing "ho" 784111777500000000,
      .proceed, .proceed, .proceed, .proceed, .answer] ∧
    setting.session.files.cache.lookup Site.page = some ⟨"ho".toList, 784111777500000000⟩ ∧
    setting.Sound ∧ setting.Honest := by
  let looking : Setting gregorian :=
    { Setting.start (Site.edited "hi" 0) with stage := .looking Site.page }
  let reading : Setting gregorian :=
    { looking with
      stage := .reading Site.page, session := looking.session.record (.read Site.page) }
  let edited := reading.edit (Site.place ["www"]) (Utf8.encode "page.txt".toList)
    (some { Site.regular "ho" with modified := 784111777500000000 })
  have node : (Site.edited "hi" 0).fs.node (Site.place ["www"] ++ [Utf8.encode "page.txt".toList]) =
      some (.file { Site.regular "hi" with modified := 0 }) := rfl
  have found : edited.world.file Site.page = some ⟨"ho".toList, 784111777500000000⟩ := by
    decide +kernel
  have datable : File.Datable gregorian ⟨"ho".toList, 784111777500000000⟩ :=
    ⟨by decide, by decide, by decide⟩
  obtain ⟨text, printed⟩ := datable.lastModified gregorian_printsUtc HttpError
  have called : (Setting.start (Site.edited "hi" 0)).advance (.call Site.page) = some looking := rfl
  have missed : looking.advance .proceed = some reading := rfl
  have written : reading.advance (Site.editing "ho" 784111777500000000) = some edited := by
    rw [Site.editing, Setting.advance, show reading.world = Site.edited "hi" 0 from rfl, node]
    exact if_pos (by decide)
  have start : (interleavings (Site.edited "hi" 0)).Run [] (.start _) := .start rfl
  have before := ((start.step called).step missed).step written
  obtain ⟨more, run, actions, orderly⟩ := run_reading before rfl found datable (by decide) printed
  have holds := interleaved_iff gregorian_documented _ run
  have all : ∀ step ∈ [(Setting.start (Site.edited "hi" 0), .call Site.page), (looking, .proceed),
      (reading, Site.editing "ho" 784111777500000000)] ++ more,
      step.1.Undisturbed step.2 ∧ step.1.Marked step.2 := by
    refine List.forall_mem_append.mpr ⟨?_, orderly⟩
    simp only [List.forall_mem_cons]
    refine ⟨⟨trivial, trivial⟩, ⟨trivial, trivial⟩, ⟨trivial, ?_⟩, List.forall_mem_nil _⟩
    -- The edit changes the second of the modification.
    intro path old known resolved there
    cases node.symm.trans there
    exact .inr (by decide)
  have sound := holds.1.mpr fun step inside => (all step inside).1
  refine ⟨_, _, run, ?_, Finmap.lookup_insert _, sound.2, (holds.2 all).2⟩
  rw [List.map_append, actions]
  rfl

namespace Site

/-- The path at which a call has aborted. -/
def abortedAt (setting : Setting gregorian) : Option Path :=
  match setting.stage with
  | .finished path .abort => some path
  | _ => none

private theorem stage_of_abortedAt {setting : Setting gregorian} {path : Path}
    (aborted : abortedAt setting = some path) : setting.stage = .finished path .abort := by
  unfold abortedAt at aborted
  split at aborted
  · next stage =>
      cases aborted
      exact stage
  · cases aborted

/-- A GET for the page, if it has been modified since a date. -/
def conditional (since : Text) : Request := (get "/page.txt").ifModifiedSince since

/-- What is kept and what has been there of the page, what the clients have of it, and what
a conditional GET for it is answered with. -/
structure View where
  cached : Option File
  versions : List (Option File)
  clients : List (Path × Text × Option Text)
  negotiated : Outcome HttpError (Path × Metadata)
  status : Option StatusCode
  deriving DecidableEq

def view (since : Text) (setting : Setting gregorian) : View where
  cached := setting.session.files.cache.lookup page
  versions := (setting.world :: setting.past).map fun world => world.file page
  clients := setting.clients.map fun client =>
    (client.1, client.2.body, client.2.header.headerLines.lookup .lastModified)
  negotiated :=
    contentNegotiation setting.world ⟨page, false⟩ (conditional since).header.headerLines
  status := (host.handleGet setting.world ⟨page, false⟩ (conditional since) virtualHost
    ⟨host.files, []⟩).1.toOption.map fun response => response.header.statusLine.statusCode

variable {setting : Setting gregorian} {since body : Text} {metadata : Metadata} {file : File}

/-- A client that has another content is told that it has the file. -/
theorem not_honest_of_view {older : List (Option File)}
    (given : (view since setting).clients = [(page, body, some since)])
    (negotiated : (view since setting).negotiated = .ok (page, metadata))
    (notDirectory : metadata.isDir = false) (static : Host.isExecutable metadata = false)
    (answered : (view since setting).status = some .notModified)
    (there : (view since setting).versions = some file :: older)
    (differs : file.content ≠ body) : ¬setting.Honest := by
  obtain ⟨⟨path, response⟩, only, same⟩ := List.map_eq_singleton_iff.mp given
  simp only [Prod.mk.injEq] at same
  obtain ⟨rfl, content, sent⟩ := same
  obtain ⟨reply, returned, status⟩ := Option.map_eq_some_iff.mp answered
  intro honest
  have inside : (page, response) ∈ setting.clients := by
    rw [only]
    exact List.mem_cons_self
  have read := honest page response inside since sent setting.world rfl host ⟨page, false⟩
    (conditional since) virtualHost ⟨host.files, []⟩ ⟨metadata, negotiated, notDirectory, static⟩
    (Finmap.lookup_insert _) ⟨reply, Outcome.toOption_eq_some_iff.mp returned, status⟩
  have found : setting.world.file page = some file := (List.cons.inj there).1
  rw [(World.file_eq_some_iff.mp found).1, content] at read
  exact differs (Except.ok.inj read)

/-- A file is kept that no version of the page accounts for. -/
theorem not_sound_of_view {versions : List File} (cached : (view since setting).cached = some file)
    (there : (view since setting).versions = versions.map some)
    (unpaired : ∀ version ∈ versions, version.content = file.content →
      version.modified < file.modified) : ¬setting.Sound := by
  intro sound
  obtain ⟨world, inside, version, found, content, older⟩ := sound.paired page file (.inl cached)
  have listed : some version ∈ versions.map some := by
    rw [← there, ← found]
    exact List.mem_map_of_mem inside
  have inside := (List.mem_map_of_injective (Option.some_injective File)).mp listed
  exact absurd (unpaired version inside content) older.not_gt

end Site

/-- **A file whose date is later than its content.** The page is edited after it has been read
and before its modification time is asked for: its old content is kept with its new date, and a
client that has it is told that it has the page. If the page is deleted instead, the call
aborts. A client is also misled by an edit in the second in which the page has been modified. -/
theorem interleaved_disturbed :
    (∃ steps setting, (interleavings (Site.edited "hi" 0)).Run steps setting ∧
      steps.map Prod.snd = [.call Site.page, .proceed, .proceed, Site.editing "ho" 5000000000,
        .proceed, .proceed, .proceed, .answer] ∧ ¬setting.Sound ∧ ¬setting.Honest) ∧
    (∃ steps setting, (interleavings (Site.edited "hi" 0)).Run steps setting ∧
      steps.map Prod.snd = [.call Site.page, .proceed, .proceed,
        .delete (Site.place ["www"]) (Utf8.encode "page.txt".toList), .proceed] ∧
      setting.stage = .finished Site.page .abort) ∧
    ∃ steps setting, (interleavings (Site.edited "hi" 0)).Run steps setting ∧
      steps.map Prod.snd = [.call Site.page, .proceed, .proceed, .proceed, .proceed, .proceed,
        .answer, Site.editing "ho" 500000000] ∧ ¬setting.Honest := by
  refine ⟨?_, ?_, ?_⟩
  · have edited : (([.call Site.page, .proceed, .proceed, Site.editing "ho" 5000000000,
        .proceed, .proceed, .proceed, .answer] : List Action).foldlM Setting.advance
          (.start (Site.edited "hi" 0))).map (Site.view "Thu, 01 Jan 1970 00:00:05 GMT".toList) =
        some {
          cached := some ⟨"hi".toList, 5000000000⟩
          versions := [⟨"ho".toList, 5000000000⟩, ⟨"hi".toList, 0⟩].map some
          clients := [(Site.page, "hi".toList, some "Thu, 01 Jan 1970 00:00:05 GMT".toList)]
          negotiated := .ok (Site.page, ⟨false, 5000000000, 0o644⟩)
          status := some .notModified } := by
      decide +kernel
    obtain ⟨steps, setting, run, taken, seen⟩ := run_of_view edited
    refine ⟨steps, setting, run, taken, ?_, ?_⟩
    · exact Site.not_sound_of_view (congrArg _ seen) (congrArg _ seen) (by decide)
    · exact Site.not_honest_of_view (congrArg _ seen) (congrArg _ seen) rfl (by decide)
        (congrArg _ seen) (congrArg _ seen) (by decide)
  · have deleted : (([.call Site.page, .proceed, .proceed,
        .delete (Site.place ["www"]) (Utf8.encode "page.txt".toList), .proceed] :
          List Action).foldlM Setting.advance (.start (Site.edited "hi" 0))).map Site.abortedAt =
        some (some Site.page) := by
      decide +kernel
    obtain ⟨steps, setting, run, taken, aborted⟩ := run_of_view deleted
    exact ⟨steps, setting, run, taken, Site.stage_of_abortedAt aborted⟩
  · have edited : (([.call Site.page, .proceed, .proceed, .proceed, .proceed, .proceed,
        .answer, Site.editing "ho" 500000000] : List Action).foldlM Setting.advance
          (.start (Site.edited "hi" 0))).map (Site.view "Thu, 01 Jan 1970 00:00:00 GMT".toList) =
        some {
          cached := some ⟨"hi".toList, 0⟩
          versions := [⟨"ho".toList, 500000000⟩, ⟨"hi".toList, 0⟩].map some
          clients := [(Site.page, "hi".toList, some "Thu, 01 Jan 1970 00:00:00 GMT".toList)]
          negotiated := .ok (Site.page, ⟨false, 500000000, 0o644⟩)
          status := some .notModified } := by
      decide +kernel
    obtain ⟨steps, setting, run, taken, seen⟩ := run_of_view edited
    exact ⟨steps, setting, run, taken, Site.not_honest_of_view (congrArg _ seen) (congrArg _ seen)
      rfl (by decide) (congrArg _ seen) (congrArg _ seen) (by decide)⟩

end RustHttpServer
