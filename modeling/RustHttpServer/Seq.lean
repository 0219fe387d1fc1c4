import RustHttpServer.Host
import RustHttpServer.Stream

/-!
# Sequential processing

`seq::process` serves a connection from its first byte to its last on a blocking
stream, whose calls return once they have an answer. A call that never returns has no
outcome.
-/

namespace RustHttpServer

open Foundation Utf8

namespace Seq

/-- How the loop of `process` that reads the request ends, if it does. -/
inductive ReadLoop
  /-- In `stream.read`. -/
  | waiting
  /-- By `break`. -/
  | done (incrementalRequest : IncrementalRequest)
  | failed (error : Error)
  | aborted

/-- The loop of `process` that reads the request. -/
def readLoop (incrementalRequest : IncrementalRequest) :
    List (Except IoError Bytes) → ReadLoop × List Call
  | [] => (.waiting, [])
  | .error error :: _ => (.failed (.ofIo error), [])
  | .ok bytes :: reads =>
      if bytes.length > 0 then
        match decode bytes with
        | .error error => (.failed (.ofUtf8 error), [.read bytes])
        | .ok _ =>
            let calls := [.read bytes, .parse bytes (tryParseRequest bytes incrementalRequest)]
            match tryParseRequest bytes incrementalRequest with
            | .ok incrementalRequest =>
                if incrementalRequest.isFull then (.done incrementalRequest, calls)
                else
                  let (ending, more) := readLoop incrementalRequest reads
                  (ending, calls ++ more)
            | .err error => (.failed error, calls)
            | .abort => (.aborted, calls)
      else (.done incrementalRequest, [])

/-- `Write::write_all` on a blocking stream. -/
def writeAll : Bytes → List (Except IoError ℕ+) → Option (Outcome Error Unit) × List Call
  | [], _ => (some (.ok ()), [])
  | _ :: _, [] => (none, [])
  | byte :: bytes, .ok room :: writes =>
      let (outcome, calls) := writeAll ((byte :: bytes).drop room) writes
      (outcome, .write ((byte :: bytes).take room) :: calls)
  | byte :: bytes, .error error :: writes =>
      if error.kind = .interrupted then writeAll (byte :: bytes) writes
      else (some (.err (.ofIo error)), [])

variable {chrono : Chrono}

/-- The part of `process` that follows its loop. -/
def respond (requestHandler : Host) (world : World chrono) (stream : TcpStream)
    (overloaded : Bool) (incrementalRequest : IncrementalRequest) :
    Option (Outcome Error Unit) × List Call :=
  match incrementalRequest, stream.peerAddr with
  | .fullRequest request, .ok addr =>
      let request := Request.fromNoRemote request addr
      match (requestHandler.handle world request overloaded).1 >>=
          writeResponse world.headerOrder with
      | .ok bytes =>
          let (outcome, calls) := writeAll bytes stream.writes
          (outcome, .handle request :: calls)
      | .err error => (some (.err error), [.handle request])
      | .abort => (some .abort, [.handle request])
  | .fullRequest _, .error error => (some (.err (.ofIo error)), [])
  | _, _ => (some (.err ⟨"Could not parse a full request using all available data"⟩), [])

/-- `process`, and what it does on the connection. -/
def process (requestHandler : Host) (world : World chrono) (stream : TcpStream)
    (overloaded : Bool) : Option (Outcome Error Unit) × List Call :=
  match readLoop (.none []) stream.reads with
  | (.waiting, calls) => (none, calls)
  | (.done incrementalRequest, calls) =>
      let (outcome, more) := respond requestHandler world stream overloaded incrementalRequest
      (outcome, calls ++ more)
  | (.failed error, calls) => (some (.err error), calls)
  | (.aborted, calls) => (some .abort, calls)

end Seq

end RustHttpServer
