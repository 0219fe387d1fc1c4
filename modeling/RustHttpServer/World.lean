import RustHttpServer.Config
import RustHttpServer.Foundation.FileSystem
import RustHttpServer.Foundation.Stateful
import RustHttpServer.Http.Response
import RustHttpServer.Time

/-!
# The world of a request

What the operating system answers while a request is handled: files, scripts, the
time. What the server has it open or execute is recorded (`Access`).
-/

namespace RustHttpServer

open Foundation

/-- A file on disk. Reading it may fail. Its modification time is in nanoseconds from
the epoch. -/
structure DiskFile where
  content : Except IoError Bytes
  modified : Int
  mode : Nat

/-- `fs::Metadata` -/
structure Metadata where
  isDir : Bool
  modified : Int
  mode : Nat
  deriving DecidableEq, Repr

/-- The call of a script: `process::Command` with its environment, and what is written
to its standard input. -/
structure CgiCall where
  path : Path
  envs : HashMap Text Text
  stdin : Bytes

/-- How the exchange with a script ends. An exchange that does not end, as when the script does
not read its input while the pipes are full, has none of these. -/
inductive CgiRun
  | spawnFailed (error : IoError)
  | writeFailed (error : IoError)
  | readFailed (error : IoError)
  | finished (stdout : Bytes)

/-- What the operating system answers. -/
structure World (chrono : Chrono) where
  fs : FileSystem DiskFile
  /-- The metadata of a directory. -/
  directory : Path → Metadata
  /-- What the exchange with a script comes to. Every script of a world comes to an end: where one
  does not, the handler does not return, and nothing is said of it. -/
  cgi : CgiCall → CgiRun
  /-- `chrono::Utc::now()` -/
  now : chrono.DateTime
  /-- The order in which the header lines of a response are walked. -/
  headerOrder : HeaderOrder

/-- The `io::Error` of a path that leads nowhere. -/
def IoError.ofResolve : ResolveError → IoError
  | .notFound => ⟨.notFound, "No such file or directory (os error 2)"⟩
  | .notDirectory => ⟨.other, "Not a directory (os error 20)"⟩
  | .tooManyLinks => ⟨.other, "Too many levels of symbolic links (os error 40)"⟩

namespace World

variable {chrono : Chrono} (world : World chrono)

/-- `Path::canonicalize` -/
def canonicalize (path : Path) : Except IoError Path :=
  (world.fs.canonicalize path).mapError IoError.ofResolve

/-- `fs::metadata` -/
def metadata (path : Path) : Except IoError Metadata := do
  match ← (world.fs.find path).mapError IoError.ofResolve with
  | .file file => return { isDir := false, modified := file.modified, mode := file.mode }
  | .directory => return { world.directory path with isDir := true }

/-- `fs::read_to_string` -/
def readToString (path : Path) : Except IoError Text := do
  match ← (world.fs.find path).mapError IoError.ofResolve with
  | .file file =>
      let content ← file.content
      (Utf8.decode content).mapError fun _ =>
        ⟨.invalidData, "stream did not contain valid UTF-8"⟩
  | .directory => throw ⟨.other, "Is a directory (os error 21)"⟩

variable {world} {path : Path}

/-- The canonical path is that of the place that a path leads to. -/
theorem canonicalize_eq_ok_iff {canonical : Path} : world.canonicalize path = .ok canonical ↔
    ∃ names, world.fs.resolve path = .ok names ∧ Path.absolute names = canonical := by
  rw [canonicalize, FileSystem.canonicalize]
  cases world.fs.resolve path with
  | error error => simp [Except.map, Except.mapError]
  | ok names => simp [Except.map, Except.mapError]

/-- What has metadata leads somewhere, to a file if it is no directory. -/
theorem exists_place_of_metadata {metadata : Metadata}
    (listed : world.metadata path = .ok metadata) :
    ∃ place, world.fs.resolve path = .ok place ∧
      (metadata.isDir = false → ∃ file, world.fs.node place = some (.file file)) := by
  rw [World.metadata, FileSystem.find] at listed
  cases resolved : world.fs.resolve path with
  | error error =>
      rw [resolved] at listed
      cases listed
  | ok place =>
      rw [resolved] at listed
      dsimp only [Except.map] at listed
      refine ⟨place, rfl, fun isFile => ?_⟩
      split at listed
      · next file there => exact ⟨file, there⟩
      · cases listed
        cases isFile

end World

/-- What the server has the operating system do with a file. -/
inductive Access
  | read (path : Path)
  | execute (path : Path)
  deriving DecidableEq, Repr

/-- The file of an access. -/
def Access.path : Access → Path
  | .read path => path
  | .execute path => path

/-- `SystemTime::duration_since(UNIX_EPOCH)`, in nanoseconds. -/
def durationSinceEpoch (time : Int) : Except Error Nat :=
  if 0 ≤ time then .ok time.toNat else .error ⟨"second time provided was later than self"⟩

/-- The nanoseconds of a second. -/
def nanosPerSecond : Nat := 10 ^ 9

end RustHttpServer
