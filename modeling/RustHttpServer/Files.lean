import RustHttpServer.World

/-!
# Static files

The files of `files.rs`, which are kept in a cache once they have been read.
-/

namespace RustHttpServer

open Foundation

/-- `struct File`: a file in the cache. -/
structure File where
  content : Text
  modified : Int
  deriving DecidableEq, Repr

/-- `struct Files` -/
structure Files where
  cache : HashMap Path File

/-- What handling a request changes: the cache of its host, and the record of what the
server had the operating system do. -/
structure Session where
  files : Files
  accesses : List Access

namespace Session

/-- Records an access. -/
def record (access : Access) (session : Session) : Session :=
  { session with accesses := session.accesses ++ [access] }

/-- Puts a file into the cache. -/
def insert (path : Path) (file : File) (session : Session) : Session :=
  { session with files := { cache := Finmap.insert path file session.files.cache } }

end Session

namespace Files

/-- `BYTES_PER_KILOBYTE` -/
def bytesPerKilobyte : Nat := 1024

/-- `Files::new`. The capacity that the cache starts with limits nothing. -/
def new {ε : Type} (cacheSize : Nat) : Outcome ε Files :=
  if cacheSize * bytesPerKilobyte < u32Bound then .ok { cache := ∅ } else .abort

variable {chrono : Chrono}

/-- The part of `get_content` that reads a file and puts it into the cache. -/
def load (world : World chrono) (path : Path) : Stateful Session HttpError File :=
  match world.readToString path with
  | .ok content => do
      let metadata ← Stateful.lift (Outcome.unwrap (world.metadata path).toOption)
      let file : File := { content, modified := metadata.modified }
      Stateful.modify (Session.insert path file)
      return file
  | .error error =>
      let status :=
        match error.kind with
        | .notFound => .notFound
        | _ => .internalServerError
      Stateful.lift (.err { status, message := some error.message })

/-- The part of `get_content` that finds a file in the cache, or else loads it. -/
def fetch (world : World chrono) (path : Path) : Stateful Session HttpError File := do
  let session ← Stateful.get
  match session.files.cache.lookup path with
  | some file => return file
  | none =>
      Stateful.modify (Session.record (.read path))
      load world path

/-- The `Content-Type` of an extension. -/
def contentType (path : Path) : Option Text :=
  (Path.extension path).bind fun extension =>
    match Utf8.decode extension with
    | .error _ => none
    | .ok extension =>
        if extension = "txt".toList then some "text/plain".toList
        else if extension = "html".toList then some "text/html".toList
        else if extension = "jpg".toList then some "image/jpeg".toList
        else none

/-- The part of `get_content` that dates a file. -/
def lastModified (chrono : Chrono) {ε : Type} (file : File) : Outcome ε Text := do
  let duration ← Outcome.unwrap (durationSinceEpoch file.modified).toOption
  let secs := duration / nanosPerSecond
  let secs ← (if secs < 2 ^ 63 then .ok (secs : Int) else .abort)
  let datetime ← Outcome.unwrap (chrono.fromTimestamp secs 0)
  to1123 chrono datetime

/-- Printing the modification time of a file may panic, but does not fail. -/
theorem lastModified_unfailing (chrono : Chrono) {ε : Type} (file : File) :
    (lastModified chrono file : Outcome ε Text).Unfailing := by
  refine (Outcome.Unfailing.unwrap _).bind fun duration => ?_
  refine Outcome.Unfailing.bind ?_ fun secs =>
    (Outcome.Unfailing.unwrap _).bind fun datetime => to1123_unfailing chrono datetime
  split
  · exact .ok _
  · exact .abort

/-- The header lines of a file. -/
def headerLines (path : Path) (file : File) (modifiedStr : Text) : ResponseHeaderLines :=
  let headerLines : ResponseHeaderLines :=
    Finmap.insert .lastModified modifiedStr
      (Finmap.insert .contentLength (Text.decimal (Utf8.byteLength file.content + 2)) ∅)
  match contentType path with
  | some contentType => headerLines.insert .contentType contentType
  | none => headerLines

/-- `Files::get_content` -/
def getContent (world : World chrono) (path : Path) : Stateful Session HttpError Response := do
  let file ← fetch world path
  let modifiedStr ← Stateful.lift (lastModified chrono file)
  return {
    header := {
      statusLine := { statusCode := .ok, httpVersion := httpVersion11 }
      headerLines := headerLines path file modifiedStr }
    body := file.content }

/-- `Files::modified_since`. Subtracting a later start from the modification time
panics. -/
def modifiedSince (world : World chrono) (path : Path) (start : Nat) : Outcome Error Bool := do
  let metadata ← Outcome.ofExcept Error.ofIo (world.metadata path)
  let duration ← Outcome.ofExcept id (durationSinceEpoch metadata.modified)
  let difference ← Outcome.checkedSub duration start
  return difference / nanosPerSecond > 0

end Files

end RustHttpServer
