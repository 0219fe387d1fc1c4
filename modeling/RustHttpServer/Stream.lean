import Mathlib.Data.PNat.Basic
import RustHttpServer.Http.Request

/-!
# Streams

The streams on which requests arrive and responses leave. With a stream goes what the
operating system will answer to the calls on it, in the order of the calls; what the
server does on a connection is recorded (`Call`).
-/

namespace RustHttpServer

open Foundation

/-- `time::Instant`, in nanoseconds. -/
abbrev Instant := Nat

/-- A `TcpStream`, and the answers to the calls on it. A read is answered by the bytes it
reads, which are none at the end of the stream. A write is answered by the number of
bytes that there is room for. Where no answers are left, nothing more arrives and there
is no more room. -/
structure TcpStream where
  reads : List (Except IoError Bytes)
  writes : List (Except IoError ℕ+)
  peerAddr : Except IoError SocketAddr

/-- What is done on a connection. -/
inductive Call
  /-- `stream.read(&mut buf)`, which has read some bytes. -/
  | read (bytes : Bytes)
  /-- `http::try_parse_request`, with its result. -/
  | parse (latest : Bytes) (result : Outcome Error IncrementalRequest)
  /-- `request_handler.handle` -/
  | handle (request : Request)
  /-- `stream.write`, which has written some bytes. -/
  | write (bytes : Bytes)

namespace Call

/-- The bytes read. -/
def bytesRead? : Call → Option Bytes
  | .read bytes => some bytes
  | _ => none

/-- The request handed to `Host::handle`. -/
def handled? : Call → Option Request
  | .handle request => some request
  | _ => none

/-- The bytes written. -/
def bytesWritten : Call → Bytes
  | .write bytes => bytes
  | _ => []

end Call

/-- The chunks that have been read. -/
def chunksRead (calls : List Call) : List Bytes := calls.filterMap Call.bytesRead?

/-- The requests that have been handed to `Host::handle`. -/
def requestsHandled (calls : List Call) : List Request := calls.filterMap Call.handled?

/-- The bytes that have been written. -/
def bytesWritten (calls : List Call) : Bytes := calls.flatMap Call.bytesWritten

section Append

variable (first second : List Call)

/-- The chunks read in all are those first, and then. -/
@[simp] theorem chunksRead_append :
    chunksRead (first ++ second) = chunksRead first ++ chunksRead second := List.filterMap_append

/-- The requests handed on in all are those first, and then. -/
@[simp] theorem requestsHandled_append :
    requestsHandled (first ++ second) = requestsHandled first ++ requestsHandled second :=
  List.filterMap_append

/-- The bytes written in all are those first, and then. -/
@[simp] theorem bytesWritten_append :
    bytesWritten (first ++ second) = bytesWritten first ++ bytesWritten second :=
  List.flatMap_append

end Append

/-- Nothing is done but to write. -/
def OnlyWrites (calls : List Call) : Prop := ∀ call ∈ calls, ∃ bytes, call = .write bytes

namespace OnlyWrites

variable {calls more : List Call}

/-- To do nothing is to write at most. -/
theorem nil : OnlyWrites [] := List.forall_mem_nil _

/-- One more write is a write. -/
theorem cons (bytes : Bytes) (writes : OnlyWrites calls) : OnlyWrites (.write bytes :: calls) :=
  List.forall_mem_cons.mpr ⟨⟨bytes, rfl⟩, writes⟩

/-- Writes behind writes are writes. -/
theorem append (first : OnlyWrites calls) (second : OnlyWrites more) : OnlyWrites (calls ++ more) :=
  List.forall_mem_append.mpr ⟨first, second⟩

/-- Where nothing but writes is done no chunk is read. -/
theorem chunksRead (writes : OnlyWrites calls) : chunksRead calls = [] := by
  apply List.filterMap_eq_nil_iff.mpr
  intro call inside
  obtain ⟨bytes, rfl⟩ := writes call inside
  rfl

/-- Where nothing but writes is done no request is handed on. -/
theorem requestsHandled (writes : OnlyWrites calls) : requestsHandled calls = [] := by
  apply List.filterMap_eq_nil_iff.mpr
  intro call inside
  obtain ⟨bytes, rfl⟩ := writes call inside
  rfl

end OnlyWrites

end RustHttpServer
