import RustHttpServer.Host
import RustHttpServer.Http.Grammar

/-!
# Requests without header lines

The parser has one state for the first header line and another for those that follow, and
only the second knows the empty line that ends the head. On everything else the two states
agree (`alike_iff`). So a request without header lines is an error of the parser, whereas the
host, if it were handed the request, would answer it (`handleResult_headless`).
-/

namespace RustHttpServer

open Foundation Utf8

/-- The same result, or an error in both, or a line that is still incomplete in both. -/
inductive Alike : Outcome Error IncrementalRequest → Outcome Error IncrementalRequest → Prop
  | same (result : Outcome Error IncrementalRequest) : Alike result result
  | errors (first second : Error) : Alike (.err first) (.err second)
  | incomplete (requestLine : RequestLine) (buf : Bytes) :
      Alike (.ok (.requestLine requestLine buf)) (.ok (.headerLines requestLine ∅ buf))

namespace Stage

/-- The empty line, where a first header line is expected. -/
theorem advance_afterLine_blank (requestLine : RequestLine) (rest : Text) :
    advance (.afterLine requestLine) (crlf ++ rest) = .err ⟨"Could not parse header line"⟩ := by
  have blank : splitOnce (crlf ++ rest) crlf = some ([], rest) :=
    splitOnce_crlf_iff.mpr ⟨rfl, by decide⟩
  rw [advance_afterLine, blank]
  rfl

/-- The empty line, where a later header line is expected. -/
theorem advance_inHeader_blank (requestLine : RequestLine) (rest : Text) :
    advance (.inHeader requestLine ∅) (crlf ++ rest) =
      .ok (.fullRequest ⟨⟨requestLine, ∅⟩, []⟩) := by
  have behind : advance (.inHeader requestLine ∅) (crlf ++ rest) =
      advance (.inBody requestLine ∅ [] 0) rest := advance_inHeader_block requestLine ∅ [] rest
  have cut : rest.splitAt? 0 = some ([], rest) := Text.splitAt?_eq_some_iff.mpr ⟨rfl, rfl⟩
  rw [behind, advance_inBody, if_pos (Nat.zero_le _), cut]
  rfl

/-- Any other line is taken alike. -/
theorem alike_advance (requestLine : RequestLine) {text : Text}
    (unended : ∀ rest, text ≠ crlf ++ rest) :
    Alike (advance (.afterLine requestLine) text) (advance (.inHeader requestLine ∅) text) := by
  rw [advance_afterLine, advance_inHeader]
  cases found : splitOnce text crlf with
  | none => exact .incomplete requestLine (encode text)
  | some halves =>
      obtain ⟨line, rest⟩ := halves
      have whole := (splitOnce_crlf_iff.mp found).1
      have some : line ≠ [] := by
        rintro rfl
        exact unended rest whole
      dsimp only
      rw [if_neg some]
      exact .same _

end Stage

/-- The two header states agree, except on the empty line. -/
theorem alike_iff (requestLine : RequestLine) (buf latest : Bytes) :
    Alike (tryParseRequest latest (.requestLine requestLine buf))
        (tryParseRequest latest (.headerLines requestLine ∅ buf)) ↔
      ∀ rest : Text, buf ++ latest ≠ encode (crlf ++ rest) := by
  have first : tryParseRequest latest (.requestLine requestLine buf) =
      tryParseRequest (buf ++ latest) (.requestLine requestLine []) :=
    Stage.tryParseRequest_holding (.afterLine requestLine) buf latest
  have second : tryParseRequest latest (.headerLines requestLine ∅ buf) =
      tryParseRequest (buf ++ latest) (.headerLines requestLine ∅ []) :=
    Stage.tryParseRequest_holding (.inHeader requestLine ∅) buf latest
  rw [first, second]
  cases decoded : decode (buf ++ latest) with
  | error invalid =>
      refine iff_of_true ?_ fun rest whole => ?_
      · obtain ⟨error, failed⟩ :=
          (Stage.afterLine requestLine).tryParseRequest_of_invalid [] decoded
        obtain ⟨error', failed'⟩ :=
          (Stage.inHeader requestLine ∅).tryParseRequest_of_invalid [] decoded
        have both := Alike.errors error error'
        rwa [← failed, ← failed'] at both
      · rw [whole, decode_encode] at decoded
        cases decoded
  | ok text =>
      rw [decode_eq_ok_iff.mp decoded]
      constructor
      · rintro alike rest whole
        obtain rfl := encode_injective whole
        have blank : tryParseRequest _ (.requestLine requestLine []) = _ :=
          Stage.advance_afterLine_blank requestLine rest
        have blank' : tryParseRequest _ (.headerLines requestLine ∅ []) = _ :=
          Stage.advance_inHeader_blank requestLine rest
        rw [blank, blank'] at alike
        cases alike
      · intro unended
        exact Stage.alike_advance requestLine fun rest whole => unended rest (congrArg encode whole)

/-- A request without header lines is an error. -/
theorem tryParseRequest_headless (line : RequestLineText) (noBreak : ¬ crlf <:+: line.text)
    (rest : Text) : tryParseRequest (encode (line.text ++ (crlf ++ (crlf ++ rest)))) (.none []) =
      .err ⟨"Could not parse header line"⟩ := by
  have atLine : splitOnce (line.text ++ (crlf ++ (crlf ++ rest))) crlf =
      some (line.text, crlf ++ rest) := splitOnce_crlf_iff.mpr ⟨rfl, noBreak⟩
  change Stage.advance .start _ = _
  rw [Stage.advance_start, atLine]
  dsimp only
  rw [parseRequestLine_text, Outcome.ok_bind, Stage.advance_afterLine_blank]

variable {chrono : Chrono}

/-- The host answers a request without header lines. -/
theorem handleResult_headless (host : Host) (world : World chrono) {request : Request}
    (headless : request.header.headerLines = ∅) (overloaded : Bool) (session : Session) :
    host.handleResult world request overloaded session =
      (.err { status := .badRequest, message := none }, session) := by
  rw [Host.handleResult, headless, Finmap.lookup_empty]
  rfl

/-- **The two header states agree**, except on the empty line. There the first one reports an
error, so that a request without header lines is never parsed, and the host never answers it
as it would. -/
theorem header_states_alike_iff :
    (∀ (requestLine : RequestLine) (buf latest : Bytes),
      Alike (tryParseRequest latest (.requestLine requestLine buf))
          (tryParseRequest latest (.headerLines requestLine ∅ buf)) ↔
        ∀ rest : Text, buf ++ latest ≠ encode (crlf ++ rest)) ∧
    (∀ (line : RequestLineText) (rest : Text), ¬ crlf <:+: line.text →
      tryParseRequest (encode (line.text ++ (crlf ++ (crlf ++ rest)))) (.none []) =
        .err ⟨"Could not parse header line"⟩) ∧
    ∀ (host : Host) (world : World chrono) (request : Request) (overloaded : Bool)
      (session : Session), request.header.headerLines = ∅ →
        host.handleResult world request overloaded session =
          (.err { status := .badRequest, message := none }, session) := by
  refine ⟨alike_iff, fun line rest noBreak => ?_, fun host world request overloaded session => ?_⟩
  · exact tryParseRequest_headless line noBreak rest
  · exact fun headless => handleResult_headless host world headless overloaded session

/-- The two states on the empty line that ends a request without header lines. -/
theorem header_states_not_alike :
    let requestLine : RequestLine := ⟨.get, "/".toList, [], httpVersion11⟩
    tryParseRequest (encode "GET / HTTP/1.1\r\n\r\n".toList) (.none []) =
        .err ⟨"Could not parse header line"⟩ ∧
      tryParseRequest (encode crlf) (.headerLines requestLine ∅ []) =
        .ok (.fullRequest ⟨⟨requestLine, ∅⟩, []⟩) ∧
      ¬Alike (tryParseRequest (encode crlf) (.requestLine requestLine []))
        (tryParseRequest (encode crlf) (.headerLines requestLine ∅ [])) := by
  intro requestLine
  refine ⟨?_, Stage.advance_inHeader_blank requestLine [], fun alike => ?_⟩
  · exact tryParseRequest_headless
      ⟨.get, "/".toList, "HTTP/1.1".toList, none, by decide, by decide⟩ (by decide) []
  · exact (alike_iff requestLine [] (encode crlf)).mp alike [] rfl

end RustHttpServer
