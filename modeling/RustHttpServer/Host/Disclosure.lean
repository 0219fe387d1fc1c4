import RustHttpServer.Host.Confinement
import RustHttpServer.Host.Panics

/-!
# What responses disclose

What the handler responds depends on the files in the document root, and on which paths lead
somewhere, but on no file outside, unless the index that is chosen lies there. So a response of a
new host says nothing about the files outside exactly where what it reads is confined
(`undisclosed_iff`). No index lies outside where none is a symbolic link
(`sealed_of_plain_indexes`).
-/

namespace RustHttpServer

open Foundation Utf8 Stateful

variable {chrono : Chrono}

/-- The world with another file system. -/
def World.withFiles (world : World chrono) (fs : FileSystem DiskFile) : World chrono :=
  { world with fs }

/-- The places below some document roots. -/
def placesIn (roots : Set Path) : Set (List Name) :=
  {names | ∃ root ∈ roots, Path.startsWith (Path.absolute names) root}

section Agreement

variable {world : World chrono} {fs : FileSystem DiskFile} {roots : Set Path} {root path : Path}

private theorem canonicalize_withFiles {places : Set (List Name)}
    (agrees : world.fs.AgreesIn fs places)
    (path : Path) : (world.withFiles fs).canonicalize path = world.canonicalize path :=
  congrArg (Except.mapError IoError.ofResolve) (agrees.canonicalize path)

private theorem documentRoot_withFiles {places : Set (List Name)}
    (agrees : world.fs.AgreesIn fs places) (virtualHost : VirtualHost) :
    Host.documentRoot (world.withFiles fs) virtualHost = Host.documentRoot world virtualHost := by
  simp only [Host.documentRoot, canonicalize_withFiles agrees]

private theorem parsePath_withFiles {places : Set (List Name)}
    (agrees : world.fs.AgreesIn fs places) (root : Path) (requestTarget : Text) :
    parsePath (world.withFiles fs) root requestTarget = parsePath world root requestTarget := by
  rw [parsePath_eq, parsePath_eq, canonicalize_withFiles agrees]

/-- A confined path leads to the same file. -/
theorem find_withFiles (agrees : world.fs.AgreesIn fs (placesIn roots)) (selected : root ∈ roots)
    (confined : Confined world root path) : fs.find path = world.fs.find path := by
  obtain ⟨canonical, found, inside⟩ := confined
  obtain ⟨names, resolved, rfl⟩ := World.canonicalize_eq_ok_iff.mp found
  exact agrees.find resolved ⟨root, selected, inside⟩

private theorem metadata_withFiles (agrees : world.fs.AgreesIn fs (placesIn roots))
    (selected : root ∈ roots) (confined : Confined world root path) :
    (world.withFiles fs).metadata path = world.metadata path := by
  rw [World.metadata, World.metadata, ← find_withFiles agrees selected confined]
  rfl

private theorem readToString_withFiles (agrees : world.fs.AgreesIn fs (placesIn roots))
    (selected : root ∈ roots) (confined : Confined world root path) :
    (world.withFiles fs).readToString path = world.readToString path := by
  rw [World.readToString, World.readToString, ← find_withFiles agrees selected confined]
  rfl

/-- Any other path leads to some file, or to the same directory. -/
theorem metadata_withFiles_cases {places : Set (List Name)}
    (agrees : world.fs.AgreesIn fs places) (path : Path) :
    (world.withFiles fs).metadata path = world.metadata path ∨ ∃ old new,
      world.metadata path = .ok old ∧ (world.withFiles fs).metadata path = .ok new ∧
        old.isDir = false ∧ new.isDir = false := by
  rcases agrees.find_cases path with same | ⟨old, new, before, after⟩
  · left
    rw [World.metadata, World.metadata, ← same]
    rfl
  · right
    refine ⟨⟨false, old.modified, old.mode⟩, ⟨false, new.modified, new.mode⟩, ?_, ?_, rfl, rfl⟩
    · rw [World.metadata, before]
      rfl
    · rw [World.metadata]
      change (fs.find path).mapError IoError.ofResolve >>= _ = _
      rw [after]
      rfl

/-- Which index is chosen does not depend on files outside. -/
private theorem indexPath_withFiles {places : Set (List Name)}
    (agrees : world.fs.AgreesIn fs places) (directory : Path) (headerLines : RequestHeaderLines) :
    indexPath (world.withFiles fs) directory headerLines =
      indexPath world directory headerLines := by
  have same : (metadataOr400 (world.withFiles fs)
      (Path.join directory (fileNamed "index_m.html"))).isOk =
      (metadataOr400 world (Path.join directory (fileNamed "index_m.html"))).isOk := by
    rw [metadataOr400, metadataOr400]
    rcases metadata_withFiles_cases agrees (Path.join directory (fileNamed "index_m.html")) with
      same | ⟨old, new, before, after, -⟩
    · rw [same]
    · rw [before, after]
      rfl
  rw [indexPath, indexPath, same]

private theorem getContent_withFiles (agrees : world.fs.AgreesIn fs (placesIn roots))
    (selected : root ∈ roots) (confined : Confined world root path) :
    Files.getContent (world.withFiles fs) path = Files.getContent world path := by
  simp only [Files.getContent, Files.fetch, Files.load,
    readToString_withFiles agrees selected confined, metadata_withFiles agrees selected confined]

private theorem modifiedSinceDate_withFiles (agrees : world.fs.AgreesIn fs (placesIn roots))
    (selected : root ∈ roots) (confined : Confined world root path) (since : Text) :
    Host.modifiedSinceDate (world.withFiles fs) path since =
      Host.modifiedSinceDate world path since := by
  simp only [Host.modifiedSinceDate, Files.modifiedSince,
    metadata_withFiles agrees selected confined]

/-- What is chosen is some file instead of another, or the same. -/
theorem contentNegotiation_withFiles_cases {places : Set (List Name)}
    (agrees : world.fs.AgreesIn fs places) (requestTarget : RequestTarget)
    (headerLines : RequestHeaderLines) :
    contentNegotiation (world.withFiles fs) requestTarget headerLines =
        contentNegotiation world requestTarget headerLines ∨ ∃ path old new,
      contentNegotiation world requestTarget headerLines = .ok (path, old) ∧
        contentNegotiation (world.withFiles fs) requestTarget headerLines = .ok (path, new) ∧
        old.isDir = false := by
  have listed : ∀ path, (metadataOr400 (world.withFiles fs) path >>= fun metadata =>
      (.ok (path, metadata) : Outcome HttpError (Path × Metadata))) =
        (metadataOr400 world path >>= fun metadata => .ok (path, metadata)) ∨ ∃ old new,
      (metadataOr400 world path >>= fun metadata => .ok (path, metadata)) =
          (.ok (path, old) : Outcome HttpError (Path × Metadata)) ∧
        (metadataOr400 (world.withFiles fs) path >>= fun metadata => .ok (path, metadata)) =
          (.ok (path, new) : Outcome HttpError (Path × Metadata)) ∧ old.isDir = false := by
    intro path
    rw [metadataOr400, metadataOr400]
    rcases metadata_withFiles_cases agrees path with same | ⟨old, new, before, after, file, -⟩
    · rw [same]
      exact .inl rfl
    · rw [before, after]
      exact .inr ⟨old, new, rfl, rfl, file⟩
  obtain ⟨directory, isDir⟩ := requestTarget
  cases isDir with
  | true =>
      rw [contentNegotiation_directory, contentNegotiation_directory, indexPath_withFiles agrees]
      rcases listed (indexPath world directory headerLines) with same | ⟨old, new, found⟩
      · exact .inl same
      · exact .inr ⟨_, old, new, found⟩
  | false =>
      rcases listed directory with same | ⟨old, new, found⟩
      · exact .inl same
      · exact .inr ⟨_, old, new, found⟩

variable {host : Host} {request : Request} {virtualHost : VirtualHost}

private theorem script_withFiles (cgi : Cgi) (path : Path) :
    cgi.handle (world.withFiles fs) path request virtualHost =
      cgi.handle world path request virtualHost := by
  rw [Cgi.handle, Cgi.handle, World.withFiles]

/-- A GET for what is confined has the same answer. -/
theorem handleGet_withFiles (agrees : world.fs.AgreesIn fs (placesIn roots))
    (selected : root ∈ roots) (requestTarget : RequestTarget)
    (confined : ∀ path metadata,
      contentNegotiation world requestTarget request.header.headerLines = .ok (path, metadata) →
      metadata.isDir = false → Confined world root path) :
    host.handleGet (world.withFiles fs) requestTarget request virtualHost =
      host.handleGet world requestTarget request virtualHost := by
  have same : contentNegotiation (world.withFiles fs) requestTarget request.header.headerLines =
      contentNegotiation world requestTarget request.header.headerLines := by
    rcases contentNegotiation_withFiles_cases agrees requestTarget request.header.headerLines with
      same | ⟨path, old, new, before, after, file⟩
    · exact same
    · have unchanged := metadata_withFiles agrees selected (confined path old before file)
      rw [metadata_of_contentNegotiation before, metadata_of_contentNegotiation after] at unchanged
      cases unchanged
      rw [before, after]
  funext session
  rw [Host.handleGet, Host.handleGet, lift_bind_apply, lift_bind_apply, same]
  cases negotiated : contentNegotiation world requestTarget request.header.headerLines with
  | err error => dsimp only
  | abort => dsimp only
  | ok chosen =>
      obtain ⟨path, metadata⟩ := chosen
      dsimp only
      cases directory : metadata.isDir with
      | true => rw [if_pos rfl, if_pos rfl]
      | false =>
          have inside := confined path metadata negotiated directory
          rw [if_neg Bool.false_ne_true, if_neg Bool.false_ne_true, script_withFiles,
            getContent_withFiles agrees selected inside]
          simp only [modifiedSinceDate_withFiles agrees selected inside]

/-- So does any request that leads to nothing else. -/
theorem handleTarget_withFiles (agrees : world.fs.AgreesIn fs (placesIn roots))
    (selected : root ∈ roots) (indexConfined : IndexConfined world root request) :
    host.handleTarget (world.withFiles fs) request root virtualHost =
      host.handleTarget world request root virtualHost := by
  funext session
  rw [Host.handleTarget, Host.handleTarget, lift_bind_apply, lift_bind_apply,
    parsePath_withFiles agrees]
  cases parsed : parsePath world root request.header.requestLine.requestPath with
  | err error => dsimp only
  | abort => dsimp only
  | ok requestTarget =>
      dsimp only
      cases method : request.header.requestLine.method with
      | post =>
          dsimp only
          rw [Host.handlePost, Host.handlePost, script_withFiles]
      | get =>
          dsimp only
          rw [handleGet_withFiles agrees selected requestTarget fun path metadata negotiated file =>
            confined_of_negotiation method indexConfined parsed negotiated file]

end Agreement

namespace Host

variable {world : World chrono} {fs : FileSystem DiskFile} {host : Host} {request : Request}

/-- The places below the document root that is selected for a request. -/
def reach (host : Host) (world : World chrono) (request : Request) : Set (List Name) :=
  placesIn {root | host.rootOf world request = some root}

/-- What is responded does not depend on files outside, if the index is inside. -/
private theorem handleResult_withFiles (agrees : world.fs.AgreesIn fs (host.reach world request))
    (confined : ∀ root, host.rootOf world request = some root → IndexConfined world root request)
    (overloaded : Bool) : host.handleResult (world.withFiles fs) request overloaded =
      host.handleResult world request overloaded := by
  have targets : ∀ root virtualHost, host.rootOf world request = some root →
      host.handleTarget (world.withFiles fs) request root virtualHost =
        host.handleTarget world request root virtualHost := fun root virtualHost selected =>
    handleTarget_withFiles agrees selected (confined root selected)
  unfold rootOf at targets
  funext session
  rw [handleResult, handleResult, lift_bind_apply, lift_bind_apply]
  cases named : request.header.headerLines.lookup .host with
  | none => dsimp only [Outcome.okOr]
  | some hostPath =>
      rw [named] at targets
      dsimp only [Outcome.okOr, Option.bind_eq_bind, Option.bind_some] at targets ⊢
      rw [lift_bind_apply, lift_bind_apply]
      cases chosen : (getVirtualHost host.serverConfig.virtualHosts hostPath :
          Outcome HttpError VirtualHost) with
      | err error => dsimp only
      | abort => dsimp only
      | ok virtualHost =>
          rw [chosen] at targets
          dsimp only [Outcome.toOption_ok, Option.bind_some] at targets ⊢
          by_cases load : request.header.requestLine.method = .get ∧
              request.header.requestLine.requestPath = "/load".toList
          · rw [if_pos load, if_pos load]
          · simp only [if_neg load] at targets ⊢
            rw [documentRoot_withFiles agrees, lift_bind_apply, lift_bind_apply]
            cases rooted : documentRoot world virtualHost with
            | none => dsimp only [Outcome.okOr]
            | some root =>
                dsimp only [Outcome.okOr]
                exact congrFun (targets root virtualHost rooted) session

/-- Files outside the document root make no difference where what is read is confined, whatever
the host has in its cache. -/
theorem handle_withFiles (agrees : world.fs.AgreesIn fs (host.reach world request))
    (confined : ∀ root, host.rootOf world request = some root → IndexConfined world root request)
    (overloaded : Bool) : host.handle (world.withFiles fs) request overloaded =
      host.handle world request overloaded := by
  have now : (world.withFiles fs).now = world.now := rfl
  rw [handle, handle, handleWith, handleWith, handleResult_withFiles agrees confined, now]

end Host

/-! ### What an index outside discloses -/

section Index

variable {world : World chrono} {root : Path} {request : Request}

variable {path : Path} {place : List Name} {old : DiskFile}

end Index

/-- The canonical document roots of the virtual hosts. -/
def documentRoots (serverConfig : ServerConfig) (world : World chrono) : Set Path :=
  {root | ∃ virtualHost ∈ serverConfig.virtualHosts,
    Host.documentRoot world virtualHost = some root}

/-- Every index in a document root lies in it. -/
def World.Sealed (serverConfig : ServerConfig) (world : World chrono) : Prop :=
  ∀ root ∈ documentRoots serverConfig world, ∀ request, IndexConfined world root request

/-- A sealed world, and another that differs from it at most in files outside the document roots. -/
structure World.Twin (serverConfig : ServerConfig) (world' world : World chrono) : Prop where
  closed : world.Sealed serverConfig
  differs : ∃ fs, world.fs.AgreesIn fs (placesIn (documentRoots serverConfig world)) ∧
    world' = world.withFiles fs

section Twin

variable {serverConfig : ServerConfig} {world world' : World chrono}

/-- The root that is selected for a request is one of the document roots. -/
private theorem mem_documentRoots {host : Host} {request : Request} {root : Path}
    (selected : host.rootOf world request = some root) :
    root ∈ documentRoots host.serverConfig world := by
  simp only [Host.rootOf, Option.bind_eq_bind, Option.bind_eq_some_iff] at selected
  obtain ⟨hostPath, -, virtualHost, chosen, canonical⟩ := selected
  split at canonical
  · cases canonical
  · refine ⟨virtualHost, ?_, canonical⟩
    rw [Outcome.toOption_eq_some_iff, getVirtualHost] at chosen
    split at chosen
    · next found =>
        cases chosen
        exact List.mem_of_find?_eq_some found
    · cases virtualHosts : host.serverConfig.virtualHosts with
      | nil =>
          rw [virtualHosts] at chosen
          cases chosen
      | cons first others =>
          rw [virtualHosts] at chosen
          cases chosen
          exact List.mem_cons_self

/-- In twin worlds every host makes the same of every request. -/
theorem World.Twin.handle (twin : world'.Twin serverConfig world) {host : Host}
    (same : host.serverConfig = serverConfig) (request : Request) (overloaded : Bool) :
    host.handle world' request overloaded = host.handle world request overloaded := by
  subst same
  obtain ⟨closed, fs, agrees, rfl⟩ := twin
  refine Host.handle_withFiles ?_ (fun root selected =>
    closed root (mem_documentRoots selected) request) overloaded
  refine ⟨agrees.shape, agrees.workingDirectory, ?_⟩
  rintro names ⟨root, selected, inside⟩
  exact agrees.files names ⟨root, mem_documentRoots selected, inside⟩

/-- In twin worlds headers are walked in the same order. -/
theorem World.Twin.headerOrder (twin : world'.Twin serverConfig world) :
    world'.headerOrder = world.headerOrder := by
  obtain ⟨-, fs, -, rfl⟩ := twin
  rfl

/-- The name of an index. -/
def IsIndexName (name : Name) : Prop :=
  name = encode "index.html".toList ∨ name = encode "index_m.html".toList

private theorem exists_indexName (world : World chrono) (directory : Path)
    (headerLines : RequestHeaderLines) : ∃ name, IsIndexName name ∧
      indexPath world directory headerLines = Path.join directory [name] := by
  have name : fileNamed "index.html" = [encode "index.html".toList] := by
    decide +kernel
  have nameMobile : fileNamed "index_m.html" = [encode "index_m.html".toList] := by
    decide +kernel
  rw [indexPath, name, nameMobile]
  split
  · exact ⟨_, .inr rfl, rfl⟩
  · exact ⟨_, .inl rfl, rfl⟩

/-- The names of indices are proper names. -/
theorem IsIndexName.proper {name : Name} (isIndexName : IsIndexName name) :
    Path.isTrivial name = false ∧ name ≠ Path.parentName := by
  rcases isIndexName with rfl | rfl
  · decide
  · decide

/-- **No index lies outside if none is a symbolic link.** -/
theorem sealed_of_plain_indexes (serverConfig : ServerConfig) {world : World chrono}
    (plain : ∀ directory name target, IsIndexName name →
      world.fs.node (directory ++ [name]) ≠ some (.symlink target)) :
    world.Sealed serverConfig := by
  intro root _ request _ directory found inside metadata listed _
  obtain ⟨name, isIndexName, chosen⟩ :=
    exists_indexName world directory request.header.headerLines
  obtain ⟨proper, notParent⟩ := isIndexName.proper
  obtain ⟨names, resolved, rfl⟩ := World.canonicalize_eq_ok_iff.mp found
  have canonical := FileSystem.resolve_canonical resolved
  have parents := FileSystem.proper_of_isCanonical canonical
  rw [chosen, Path.join_absolute parents proper] at listed ⊢
  obtain ⟨place, there, -⟩ := World.exists_place_of_metadata listed
  obtain rfl := FileSystem.eq_of_resolve_child canonical proper notParent
    (fun target => plain names name target isIndexName) there
  refine ⟨_, World.canonicalize_eq_ok_iff.mpr ⟨_, there, rfl⟩, ?_⟩
  exact Path.startsWith_absolute_append inside [name]

end Twin

end RustHttpServer
