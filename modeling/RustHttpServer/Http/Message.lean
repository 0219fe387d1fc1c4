import RustHttpServer.Error
import RustHttpServer.Foundation.HashMap

/-!
# HTTP messages

The requests and responses of `http.rs`.
-/

namespace RustHttpServer

open Foundation

/-- `HTTP_VERSION` -/
def httpVersion11 : Text := "HTTP/1.1".toList

/-- `CRLF` -/
def crlf : Text := ['\r', '\n']

/-- `usize::MAX + 1` on the 64-bit targets of the server. -/
def usizeBound : Nat := 2 ^ 64

/-- `u32::MAX + 1` -/
def u32Bound : Nat := 2 ^ 32

/-- `enum Method` -/
inductive Method
  | get
  | post
  deriving DecidableEq, Repr

/-- `impl ToString for Method` -/
def Method.toText : Method → Text
  | .get => "GET".toList
  | .post => "POST".toList

/-- `struct RequestLine` -/
structure RequestLine where
  method : Method
  requestPath : Text
  queryString : Text
  httpVersion : Text
  deriving DecidableEq, Repr

/-- `enum RequestHeaderField` -/
inductive RequestHeaderField
  | contentLength
  | host
  | ifModifiedSince
  | userAgent
  | notSupported
  deriving DecidableEq, Repr

/-- `RequestHeaderField::from_str`, which always succeeds. -/
def RequestHeaderField.fromStr (s : Text) : RequestHeaderField :=
  if s = "Content-Length".toList then .contentLength
  else if s = "If-Modified-Since".toList then .ifModifiedSince
  else if s = "Host".toList then .host
  else if s = "User-Agent".toList then .userAgent
  else .notSupported

/-- The header lines of a request. -/
abbrev RequestHeaderLines := HashMap RequestHeaderField Text

/-- `struct RequestHeader` -/
structure RequestHeader where
  requestLine : RequestLine
  headerLines : RequestHeaderLines
  deriving DecidableEq

/-- `struct RequestNoRemote` -/
structure RequestNoRemote where
  header : RequestHeader
  body : Text
  deriving DecidableEq

/-- `net::SocketAddr`, in the form in which it is printed. -/
abbrev SocketAddr := Text

/-- `struct Remote` -/
structure Remote where
  addr : SocketAddr
  deriving DecidableEq, Repr

/-- `struct Request` -/
structure Request where
  header : RequestHeader
  remote : Remote
  body : Text
  deriving DecidableEq

/-- `Request::from_no_remote` -/
def Request.fromNoRemote (request : RequestNoRemote) (addr : SocketAddr) : Request where
  header := request.header
  remote := ⟨addr⟩
  body := request.body

/-- `enum IncrementalRequest`: what has been parsed of a request, and the bytes
received beyond it. -/
inductive IncrementalRequest
  | none (buf : Bytes)
  | requestLine (requestLine : RequestLine) (buf : Bytes)
  | headerLines (requestLine : RequestLine) (headerLines : RequestHeaderLines) (buf : Bytes)
  | body (requestLine : RequestLine) (headerLines : RequestHeaderLines) (body : Text)
      (bytesLeft : Nat) (buf : Bytes)
  | fullRequest (request : RequestNoRemote)
  deriving DecidableEq

/-- `matches!(_, IncrementalRequest::FullRequest(_))` -/
def IncrementalRequest.isFull : IncrementalRequest → Bool
  | .fullRequest _ => true
  | _ => false

/-- What is full is a complete request. -/
theorem exists_fullRequest {incrementalRequest : IncrementalRequest}
    (full : incrementalRequest.isFull = true) :
    ∃ request, incrementalRequest = .fullRequest request := by
  cases incrementalRequest with
  | fullRequest request => exact ⟨request, rfl⟩
  | _ => cases full

/-- `enum StatusCode` -/
inductive StatusCode
  | ok
  | notModified
  | badRequest
  | forbidden
  | notFound
  | internalServerError
  | serviceUnavailable
  deriving DecidableEq, Repr

/-- `impl ToString for StatusCode` -/
def StatusCode.toText : StatusCode → Text
  | .ok => "200 OK".toList
  | .notModified => "304 Not Modified".toList
  | .badRequest => "400 Bad Request".toList
  | .forbidden => "403 Forbidden".toList
  | .notFound => "404 Not Found".toList
  | .internalServerError => "500 Internal Server Error".toList
  | .serviceUnavailable => "503 Service Unavailable".toList

/-- `struct StatusLine` -/
structure StatusLine where
  httpVersion : Text
  statusCode : StatusCode
  deriving DecidableEq, Repr

/-- `enum ResponseHeaderField` -/
inductive ResponseHeaderField
  | contentLength
  | contentType
  | date
  | lastModified
  | server
  | transferEncoding
  deriving DecidableEq, Repr

/-- `impl ToString for ResponseHeaderField` -/
def ResponseHeaderField.toText : ResponseHeaderField → Text
  | .contentLength => "Content-Length".toList
  | .contentType => "Content-Type".toList
  | .date => "Date".toList
  | .lastModified => "Last-Modified".toList
  | .server => "Server".toList
  | .transferEncoding => "Transfer-Encoding".toList

/-- `ResponseHeaderField::from_str` -/
def ResponseHeaderField.fromStr (s : Text) : Option ResponseHeaderField :=
  if s = "Content-Length".toList then some .contentLength
  else if s = "Content-Type".toList then some .contentType
  else if s = "Date".toList then some .date
  else if s = "Last-Modified".toList then some .lastModified
  else if s = "Server".toList then some .server
  else if s = "Transfer-Encoding".toList then some .transferEncoding
  else none

/-- The header lines of a response. -/
abbrev ResponseHeaderLines := HashMap ResponseHeaderField Text

/-- `struct ResponseHeader` -/
structure ResponseHeader where
  statusLine : StatusLine
  headerLines : ResponseHeaderLines
  deriving DecidableEq

/-- `struct Response` -/
structure Response where
  header : ResponseHeader
  body : Text
  deriving DecidableEq

/-- `enum IncrementalResponse`: what is left to write of a response. -/
inductive IncrementalResponse
  | struct (response : Response)
  | bytes (bytes : Bytes)
  | done
  deriving DecidableEq

/-- `error::HttpError` -/
structure HttpError where
  status : StatusCode
  message : Option String
  deriving DecidableEq, Repr

end RustHttpServer
