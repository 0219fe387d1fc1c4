import RustHttpServer.Foundation.ChunkedCoding
import RustHttpServer.Http.Message

/-!
# Writing responses

`write_response` writes a response with the length of its body or, from a size on, in
chunks. The header lines are written in the order in which the hash map yields them.
-/

namespace RustHttpServer

open Foundation Utf8

/-- The order in which a map of response header lines is walked. -/
abbrev HeaderOrder := IterOrder ResponseHeaderField Text

/-- `impl ToString for StatusLine` -/
def StatusLine.toText (statusLine : StatusLine) : Text :=
  statusLine.httpVersion ++ [' '] ++ statusLine.statusCode.toText ++ crlf

/-- One round of the loop in `impl ToString for ResponseHeader`. -/
def headerLineText (field : ResponseHeaderField) (value : Text) : Text :=
  field.toText ++ [':', ' '] ++ Text.trim value ++ crlf

/-- `impl ToString for ResponseHeader` -/
def ResponseHeader.toText (order : HeaderOrder) (header : ResponseHeader) : Text :=
  header.statusLine.toText ++
    (order.entries header.headerLines).flatMap fun (field, value) => headerLineText field value

/-- `impl ToString for Response` -/
def Response.toText (order : HeaderOrder) (response : Response) : Text :=
  response.header.toText order ++ crlf ++
    if response.body = [] then [] else response.body ++ crlf

/-- `u32::from_str` -/
def u32FromStr (s : Text) : Except Text.ParseIntError Nat := s.parseUnsigned u32Bound

/-- `write_chunk` -/
def writeChunk (chunk : Bytes) (chunkLen : Nat) (bytes : Bytes) : Bytes :=
  bytes ++ encode (Text.hexadecimal chunkLen) ++ encode crlf ++ chunk ++ encode crlf

/-- The value of `chunk_len` in `write_response`. -/
def responseChunkLen : Nat := 1024

/-- Chunks have room for something. -/
theorem responseChunkLen_pos : 0 < responseChunkLen := by decide

/-- `write_chunked` -/
def writeChunked (order : HeaderOrder) (response : Response) (chunkLen : Nat)
    (positive : 0 < chunkLen) : Outcome Error Bytes :=
  let headerLines :=
    (response.header.headerLines.erase .contentLength).insert .transferEncoding "chunked".toList
  let header := { response.header with headerLines }
  let bytes := encode (header.toText order) ++ encode crlf
  let (chunks, remainder) := chunksExact chunkLen positive (encode response.body)
  let bytes := chunks.foldl (fun bytes chunk => writeChunk chunk chunkLen bytes) bytes
  let bytes :=
    if remainder.length > 0 then writeChunk remainder remainder.length bytes else bytes
  .ok (writeChunk [] 0 bytes)

/-- Whether `write_response` writes the body in chunks. -/
def isChunked (headerLines : ResponseHeaderLines) : Bool :=
  match headerLines.lookup .contentLength with
  | none => true
  | some contentLength =>
      match u32FromStr contentLength with
      | .error _ => true
      | .ok contentLength => contentLength > responseChunkLen

/-- `write_response` -/
def writeResponse (order : HeaderOrder) (response : Response) : Outcome Error Bytes :=
  if isChunked response.header.headerLines then
    writeChunked order response responseChunkLen (by decide)
  else .ok (encode (response.toText order))

/-- Writing a response does not fail. -/
theorem exists_writeResponse (order : HeaderOrder) (response : Response) :
    ∃ bytes, writeResponse order response = .ok bytes := by
  unfold writeResponse
  split
  · exact ⟨_, rfl⟩
  · exact ⟨_, rfl⟩

end RustHttpServer
