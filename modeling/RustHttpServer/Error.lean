import RustHttpServer.Foundation.Scan

/-!
# Errors

The error types of the server and the conversions into them. The errors of
input and output calls come from the operating system with a kind and a text.
-/

namespace RustHttpServer

open Foundation

/-- `io::ErrorKind`, as far as the server tells its values apart. -/
inductive ErrorKind
  | notFound
  | wouldBlock
  | invalidData
  | interrupted
  | other
  deriving DecidableEq, Repr

/-- `io::Error`. -/
structure IoError where
  kind : ErrorKind
  message : String
  deriving DecidableEq, Repr

/-- `error::Error`. -/
structure Error where
  message : String
  deriving DecidableEq, Repr

/-- The message of a `str::Utf8Error`. -/
def utf8ErrorMessage (error : Utf8.Utf8Error) : String :=
  match error.errorLen with
  | some length => s!"invalid utf-8 sequence of {length} bytes from index {error.validUpTo}"
  | none => s!"incomplete utf-8 byte sequence from index {error.validUpTo}"

/-- The message of a `num::ParseIntError`. -/
def parseIntErrorMessage : Text.ParseIntError → String
  | .empty => "cannot parse integer from empty string"
  | .invalidDigit => "invalid digit found in string"
  | .posOverflow => "number too large to fit in target type"

namespace Error

/-- `impl From<io::Error> for Error` -/
def ofIo (error : IoError) : Error := ⟨error.message⟩

/-- `impl From<str::Utf8Error> for Error` -/
def ofUtf8 (error : Utf8.Utf8Error) : Error := ⟨utf8ErrorMessage error⟩

/-- `impl From<num::ParseIntError> for Error` -/
def ofParseInt (error : Text.ParseIntError) : Error := ⟨parseIntErrorMessage error⟩

/-- `impl From<()> for Error` -/
def ofUnit (_ : Unit) : Error := ⟨""⟩

end Error

end RustHttpServer
